import TripleLex.Proofs.MirroredMachines
import TripleLex.Proofs.Unclosed
import TripleLex.Proofs.WholeRuns

/-!
# Reading a source that is broken off

`Machine.Opens` says where each format reads a literal or a reference, and by which
signs it is opened; that it misses none is shown with `Lexer.opened_next`. If a source
is broken off there before it is closed, or between tokens, reading it ends with the
failure of the source. Wherever else it is broken off, reading it ends with some
fault: the end of a text is never made of its end.

## Main results

* `Machine.breaks_opened` — all formats, inside a literal or a reference.
* `Lexer.broken_off` — all of it.
-/

namespace TripleLex

open Scan
open Enclosure (Unclosed)
open Cursor (Awaits)

/-! ## Readers -/

namespace Scan

variable {k : Cursor} {cause : ReadFailure} {cs : List Char} {sign : Char}

/-- The first character of what is enclosed is not the sign that closes it. -/
theorem head?_ne_sign (h : (Enclosure.short sign).Unclosed cs) (hsign : IsSign sign) :
    cs.head? ≠ some sign := by
  intro hhead
  obtain ⟨rest, rfl⟩ := List.head?_eq_some_iff.1 hhead
  obtain ⟨hplain, -⟩ := h.tail (fun _ => hsign.ne) nofun nofun
  exact (ne_of_isPlainIn hplain).2.1 (beq_self_eq_true sign)

theorem breaks_short (surplus : Surplus) (hsign : IsSign sign)
    (h : (Enclosure.short sign).Unclosed cs) (hk : k.Awaits cause (sign :: cs)) :
    Breaks cause (literal surplus) k := by
  have hnext : (cs.head? == some sign) = false := beq_eq_false_iff_ne.2 (head?_ne_sign h hsign)
  refine breaks_skip hk hsign.not_isLineEnd fun mid _ hmid => ?_
  refine breaks_nextIs hmid fun mid' _ hmid' => ?_
  rw [if_neg (by rw [hnext]; decide)]
  exact (breaks_shortBody h hmid').bind

theorem breaks_long (surplus : Surplus) (hsign : IsSign sign)
    (h : (Enclosure.long sign).Unclosed cs) (hk : k.Awaits cause (sign :: sign :: sign :: cs)) :
    Breaks cause (literal surplus) k := by
  have hl := hsign.not_isLineEnd
  refine breaks_skip hk hl fun mid _ hmid => breaks_nextIs hmid fun mid' _ hmid' => ?_
  rw [if_pos (by simp)]
  refine breaks_skip hmid' hl fun mid _ hmid => breaks_nextIs hmid fun mid' _ hmid' => ?_
  rw [if_pos (by simp)]
  exact breaks_skip hmid' hl fun mid _ hmid => (breaks_longBody surplus hsign h hmid).bind

theorem breaks_reference (h : Enclosure.reference.Unclosed cs) (hk : k.Awaits cause ('<' :: cs)) :
    Breaks cause reference k :=
  breaks_skip hk (by decide) fun _ _ hmid => (breaks_referenceBody h hmid).bind

theorem breaks_referenceDatatype (h : Enclosure.reference.Unclosed cs)
    (hk : k.Awaits cause ('<' :: cs)) : Breaks cause referenceDatatype k :=
  breaks_skip hk (by decide) fun _ _ hmid => (breaks_referenceBody h hmid).bind

/-- A datatype behind its sign and a gap. -/
theorem breaks_datatypeReference {gap : List Char} (rule : Name.Rule)
    (h : Enclosure.reference.Unclosed cs) (hk : k.Awaits cause (gap ++ '<' :: cs))
    (hgap : ∀ c ∈ gap, Unicode.isBlank c = true) : Breaks cause (datatype rule) k := by
  refine breaks_blankThen hk hgap (by rintro c ⟨⟩; decide) fun mid _ hmid => ?_
  refine breaks_look_cons hmid fun mid' _ hmid' => ?_
  exact breaks_referenceDatatype h hmid'

/-- A token behind a gap, by its first character. -/
theorem breaks_dispatched {gap : List Char} {c : Char} {dispatch : Char → Scan Token}
    (hk : k.Awaits cause (gap ++ c :: cs)) (hgap : ∀ c ∈ gap, Unicode.isBlank c = true)
    (hc : Unicode.isBlank c = false)
    (g : ∀ mid, mid.previous = k.previous → mid.Awaits cause (c :: cs) →
      Breaks cause (dispatch c) mid) :
    Breaks cause (do discardBlank; tokenHere dispatch) k := by
  refine breaks_blankThen hk hgap (by rintro d ⟨⟩; exact hc) fun mid hp hmid => ?_
  exact breaks_tokenHere_cons hmid fun mid' hp' => g mid' (hp'.trans hp)

end Scan

/-! ### References that an operator is told from -/

section Operators

variable {k : Cursor} {cause : ReadFailure} {cs : List Char}

/-- Where no sign of equality comes first, the bracket begins no operator. -/
theorem breaks_unlessEquals {arrow : Scan Token} (h : Enclosure.reference.Unclosed cs)
    (hne : cs.head? ≠ some '=') (hk : k.Awaits cause ('<' :: cs)) :
    Breaks cause (do
      let _ ← skip
      if ← nextIs '=' then
        arrow
      else
        referenceBody
        emit .uri) k := by
  have hnext : (cs.head? == some '=') = false := beq_eq_false_iff_ne.2 hne
  refine breaks_skip hk (by decide) fun mid _ hmid => breaks_nextIs hmid fun mid' _ hmid' => ?_
  rw [if_neg (by rw [hnext]; decide)]
  exact (breaks_referenceBody h hmid').bind

/-- Where characters follow. -/
theorem Query.Sparql.breaks_referenceOrLess (h : Enclosure.reference.Unclosed cs)
    (hnil : cs ≠ []) (hne : cs.head? ≠ some '=') (hk : k.Awaits cause ('<' :: cs)) :
    Breaks cause Query.Sparql.referenceOrLess k := by
  obtain ⟨c, cs, rfl⟩ := List.exists_cons_of_ne_nil hnil
  have hb : Unicode.isBlank c = false := by
    by_cases hslash : c = '\\'
    · rw [hslash]
      decide
    · exact (ne_of_isPlainReference (h.tail (fun _ => hslash) nofun nofun).1).2.2
  have hnext : (some c == some '=') = false := beq_eq_false_iff_ne.2 hne
  refine breaks_skip hk (by decide) fun mid _ hmid => breaks_look_cons hmid fun mid' _ hmid' => ?_
  rw [Option.all_some, if_neg (by rw [hb]; decide), if_neg (by rw [hnext]; decide)]
  exact (breaks_referenceBody h hmid').bind

/-- A query language takes the bracket at the end of the input for an operator, and
nothing is left behind it. -/
theorem Query.Sparql.less_at_end (hk : k.ahead = ['<']) :
    ∃ t left, Query.Sparql.referenceOrLess k = .ok t left ∧ left.ahead = [] := by
  have hmid : (k.moved '<').looked.ahead = [] := by
    rw [Cursor.ahead_looked, Cursor.ahead_moved, hk]
    rfl
  have hlook : look (k.moved '<') = .ok none (k.moved '<').looked := by
    rw [look_eq, ← Cursor.ahead_looked, hmid]
    rfl
  refine ⟨⟨.less, "<", (k.moved '<').looked.span⟩,
    { (k.moved '<').looked with previous := some .less }, ?_, hmid⟩
  exact (bind_eq (skip_cons hk)).trans (bind_eq hlook)

end Operators

/-! ## Formats -/

namespace Machine

/-- Terms are read as Turtle writes them, whatever the token before. -/
inductive ReadsTurtle : Machine → Prop
  | turtle (rules : Graph.Turtle) : ReadsTurtle (turtle rules)
  | n3 {v : Graph.Vocabulary} (h : v.isReading = false) : ReadsTurtle (n3 v)
  | sparql {q : Query.Sparql} (h : q.progress.inBody = true) : ReadsTurtle (sparql q)

/-- The signs that open an enclosure behind a token of a kind. -/
inductive Opens : Machine → Kind → List Char → Enclosure → Prop
  | short {m : Machine} {kind : Kind} {sign : Char} (hm : m.ReadsTurtle)
    (hp : Kind.Open (some kind)) (hs : IsSign sign) : Opens m kind [sign] (.short sign)
  | long {m : Machine} {kind : Kind} {sign : Char} (hm : m.ReadsTurtle)
    (hp : Kind.Open (some kind)) (hs : IsSign sign) : Opens m kind [sign, sign, sign] (.long sign)
  | reference {m : Machine} {kind : Kind} (hm : m.ReadsTurtle) (hp : Kind.Open (some kind)) :
    Opens m kind ['<'] .reference
  /-- A datatype, in whichever format has them. -/
  | datatype {m : Machine} (hcsv : m ≠ csv) (hm : m.isDeclaring = false) :
    Opens m .hatHat ['<'] .reference
  | lineLiteral {format : Graph.LineFormat} {kind : Kind} (hp : kind ≠ .hatHat) :
    Opens (lines format) kind ['"'] (.short '"')
  /-- A reference, where the format lets one follow the token before. -/
  | lineReference {format : Graph.LineFormat} {kind : Kind} (hp : kind ≠ .hatHat)
    (h : (Graph.LineFormat.endsLiteral (some kind) && format == .triples) = false) :
    Opens (lines format) kind ['<'] .reference
  /-- A reference that is declared before a query. -/
  | declared {q : Query.Sparql} {kind : Kind} (hq : q.progress.inBody = false)
    (hp : kind = .baseDirective ∨ kind = .prefixName) : Opens (sparql q) kind ['<'] .reference
  | field {kind : Kind} : Opens csv kind ['"'] .field
  | cellLiteral {kind : Kind} (hp : kind ≠ .hatHat) : Opens tsv kind ['"'] .cell
  | cellReference {kind : Kind} (hp : kind ≠ .hatHat) : Opens tsv kind ['<'] .reference

variable {m : Machine} {kind : Kind} {k : Cursor} {cause : ReadFailure} {e : Enclosure}
  {gap opening cs : List Char}

theorem ReadsTurtle.isDeclaring_eq (hm : m.ReadsTurtle) : m.isDeclaring = false := by
  cases hm with
  | n3 hv => exact hv
  | _ => rfl

theorem ReadsTurtle.read_eq (hm : m.ReadsTurtle) (hp : Kind.Open (some kind)) :
    m.read (some kind) = (do discardBlank; tokenHere (m.dispatch (some kind))) := by
  have hcomments : m.hasComments = true := by cases hm <;> rfl
  have hreading : ∀ v, m = Machine.n3 v → v.isReading = false := by
    rintro v rfl
    exact hm.isDeclaring_eq
  exact Machine.read_eq hcomments (expects_of_open hreading hp)

theorem dispatch_body {q : Query.Sparql} {previous : Option Kind} {c : Char}
    (hq : q.progress.inBody = true) : (sparql q).dispatch previous c = q.body previous c :=
  if_pos hq

/-- What becomes of signs behind the three that close a long literal. -/
def surplus : Machine → Surplus
  | sparql _ => .kept
  | _ => .refused

theorem ReadsTurtle.dispatch_sign {previous : Option Kind} {sign : Char} (hm : m.ReadsTurtle)
    (hs : IsSign sign) : m.dispatch previous sign = literal m.surplus := by
  cases hm with
  | turtle rules => rcases hs with rfl | rfl <;> rfl
  | n3 _ => rcases hs with rfl | rfl <;> rfl
  | sparql hq =>
    rw [dispatch_body hq]
    rcases hs with rfl | rfl <;> rfl

/-- A literal, by the rules of Turtle and of what takes them over. -/
theorem ReadsTurtle.breaks_literal {sign : Char} {more : List Char} (hm : m.ReadsTurtle)
    (hp : Kind.Open (some kind)) (hs : IsSign sign) (hk : k.Awaits cause (gap ++ sign :: more))
    (hgap : ∀ c ∈ gap, Unicode.isBlank c = true)
    (g : ∀ surplus mid, mid.Awaits cause (sign :: more) → Breaks cause (literal surplus) mid) :
    Breaks cause (m.read (some kind)) k := by
  have hb : Unicode.isBlank sign = false := by
    rcases hs with rfl | rfl <;> decide
  rw [hm.read_eq hp]
  refine breaks_dispatched hk hgap hb fun mid _ hmid => ?_
  rw [hm.dispatch_sign hs]
  exact g m.surplus mid hmid

/-- A reference. A query language takes its bracket for an operator where nothing
is left. -/
theorem ReadsTurtle.breaks_reference (hm : m.ReadsTurtle) (hp : Kind.Open (some kind))
    (hk : k.Awaits cause (gap ++ '<' :: cs)) (hgap : ∀ c ∈ gap, Unicode.isBlank c = true)
    (hcs : Enclosure.reference.Unclosed cs) (hne : cs.head? ≠ some '=') :
    Breaks cause (m.read (some kind)) k ∨
      ∃ t left, m.read (some kind) k = .ok t left ∧ left.ahead = [] := by
  have hb : Unicode.isBlank '<' = false := by decide
  rw [hm.read_eq hp]
  cases hm with
  | turtle rules =>
    left
    exact breaks_dispatched hk hgap hb fun mid _ hmid => breaks_unlessEquals hcs hne hmid
  | n3 _ =>
    left
    exact breaks_dispatched hk hgap hb fun mid _ hmid => breaks_unlessEquals hcs hne hmid
  | sparql hq =>
    by_cases hnil : cs = []
    · right
      obtain ⟨mid, e₁, -, hmid⟩ := discardBlank_awaits hk hgap (by rintro d ⟨⟩; exact hb)
      rw [hnil] at hmid
      have hlook : look mid = .ok (some '<') mid.looked := by
        rw [look_eq, hmid.ahead]
        rfl
      obtain ⟨t, left, e, hleft⟩ := Query.Sparql.less_at_end (mid.ahead_looked.trans hmid.ahead)
      refine ⟨t, left, (bind_eq e₁).trans ((bind_eq hlook).trans ?_), hleft⟩
      dsimp only
      rw [dispatch_body hq]
      exact e
    · left
      refine breaks_dispatched hk hgap hb fun mid _ hmid => ?_
      rw [dispatch_body hq]
      exact Query.Sparql.breaks_referenceOrLess hcs hnil hne hmid

/-- Gaps are blank but in a declaration of keywords. -/
theorem isBlank_of_passes {previous : Option Kind} {c : Char} (hm : m.isDeclaring = false)
    (h : m.passes previous c = true) : Unicode.isBlank c = true := by
  rw [passes_eq hm] at h
  rcases blank_or_comma_of_skips h with h | ⟨-, v, rfl, hv⟩
  · exact h
  · rw [isDeclaring, hv] at hm
    cases hm

/-- Cells of a table have spaces before their terms, unless a datatype is due. -/
theorem passes_tsv {c : Char} (hhat : kind ≠ .hatHat) :
    tsv.passes (some kind) c = (c == ' ') := by
  rw [passes_eq rfl, skips, Table.Tsv.isGapBehind_of_ne fun h => hhat (Option.some.inj h)]

theorem breaks_datatype (hcsv : m ≠ csv) (hm : m.isDeclaring = false)
    (hk : k.Awaits cause (gap ++ '<' :: cs)) (hgap : ∀ c ∈ gap, Unicode.isBlank c = true)
    (hcs : Enclosure.reference.Unclosed cs) : Breaks cause (m.read (some .hatHat)) k := by
  cases m with
  | lines format =>
    show Breaks cause Graph.LineFormat.datatype k
    refine breaks_blankThen hk hgap (by rintro c ⟨⟩; decide) fun mid _ hmid => ?_
    exact breaks_look_cons hmid fun mid' _ hmid' => breaks_referenceDatatype hcs hmid'
  | turtle rules => exact breaks_datatypeReference _ hcs hk hgap
  | n3 v =>
    have hv : v.isReading = false := hm
    show Breaks cause (Graph.Notation3.read v (some .hatHat)) k
    unfold Graph.Notation3.read
    rw [if_neg (by rw [hv]; decide)]
    exact breaks_datatypeReference _ hcs hk hgap
  | sparql q => exact breaks_datatypeReference _ hcs hk hgap
  | csv => exact absurd rfl hcsv
  | tsv => exact breaks_datatypeReference _ hcs hk hgap

theorem breaks_lineLiteral {format : Graph.LineFormat} (hhat : kind ≠ .hatHat)
    (hk : k.Awaits cause (gap ++ '"' :: cs)) (hgap : ∀ c ∈ gap, Unicode.isBlank c = true)
    (hcs : (Enclosure.short '"').Unclosed cs) : Breaks cause (format.read (some kind)) k := by
  have hnext : (cs.head? == some '"') = false :=
    beq_eq_false_iff_ne.2 (head?_ne_sign hcs (.inl rfl))
  rw [Graph.LineFormat.read_eq hhat]
  refine breaks_dispatched hk hgap (by decide) fun mid _ hmid => ?_
  refine breaks_skip hmid (by decide) fun mid _ hmid => breaks_nextIs hmid fun mid' _ hmid' => ?_
  rw [if_neg (by rw [hnext]; decide)]
  exact (breaks_shortBody hcs hmid').bind

theorem breaks_lineReference {format : Graph.LineFormat} (hhat : kind ≠ .hatHat)
    (hgraph : (Graph.LineFormat.endsLiteral (some kind) && format == .triples) = false)
    (hp : k.previous = some kind) (hk : k.Awaits cause (gap ++ '<' :: cs))
    (hgap : ∀ c ∈ gap, Unicode.isBlank c = true) (hcs : Enclosure.reference.Unclosed cs) :
    Breaks cause (format.read (some kind)) k := by
  rw [Graph.LineFormat.read_eq hhat]
  refine breaks_dispatched hk hgap (by decide) fun mid hmidp hmid => ?_
  have hcheck : format.checkGraph mid = .ok () mid := by
    unfold Graph.LineFormat.checkGraph
    rw [get_bind, hmidp, hp, if_neg (by rw [hgraph]; decide)]
    rfl
  exact Breaks.after (f := fun _ => reference) (breaks_reference hcs hmid) hcheck

theorem breaks_declared {q : Query.Sparql} (hq : q.progress.inBody = false)
    (hkind : kind = .baseDirective ∨ kind = .prefixName) (hk : k.Awaits cause (gap ++ '<' :: cs))
    (hgap : ∀ c ∈ gap, Unicode.isBlank c = true) (hcs : Enclosure.reference.Unclosed cs) :
    Breaks cause (q.read (some kind)) k := by
  rw [Query.Sparql.read_eq (by rcases hkind with rfl | rfl <;> decide)
    (by rcases hkind with rfl | rfl <;> decide)]
  refine breaks_dispatched hk hgap (by decide) fun mid _ hmid => ?_
  rw [if_neg (by rw [hq]; decide)]
  unfold Query.Sparql.prologue
  rw [if_neg (by decide), if_pos (by decide),
    if_pos (by rcases hkind with rfl | rfl <;> decide)]
  exact breaks_reference hcs hmid

theorem breaks_cell {c : Char} (hhat : kind ≠ .hatHat) (hk : k.Awaits cause (gap ++ c :: cs))
    (hgap : ∀ c ∈ gap, tsv.passes (some kind) c = true) (hc : c ≠ ' ')
    (g : ∀ mid, mid.Awaits cause (c :: cs) →
      Breaks cause (Table.Tsv.dispatch (some kind) c) mid) :
    Breaks cause (Table.Tsv.read (some kind)) k := by
  simp only [passes_tsv hhat] at hgap
  rw [Table.Tsv.read_eq hhat]
  refine breaks_spacesThen hk hgap (fun h => hc (Option.some.inj h)) fun mid _ hmid => ?_
  exact breaks_tokenHere_cons hmid fun mid' _ hmid' => g mid' hmid'

/-- Inside a literal or a reference every format comes to the failure, or to an
operator behind which nothing is left. -/
theorem breaks_opened (h : m.Opens kind opening e) (hp : k.previous = some kind)
    (hk : k.Awaits cause (gap ++ (opening ++ cs)))
    (hgap : ∀ c ∈ gap, m.passes (some kind) c = true) (hcs : e.Unclosed cs)
    (hne : e = .reference → cs.head? ≠ some '=') :
    Breaks cause (m.read (some kind)) k ∨
      ∃ t left, m.read (some kind) k = .ok t left ∧ left.ahead = [] := by
  have hblank : m.isDeclaring = false → ∀ c ∈ gap, Unicode.isBlank c = true :=
    fun hm c hc => isBlank_of_passes hm (hgap c hc)
  cases h with
  | short hm hopen hs =>
    exact .inl (hm.breaks_literal hopen hs hk (hblank hm.isDeclaring_eq)
      fun surplus mid hmid => breaks_short surplus hs hcs hmid)
  | long hm hopen hs =>
    exact .inl (hm.breaks_literal hopen hs hk (hblank hm.isDeclaring_eq)
      fun surplus mid hmid => breaks_long surplus hs hcs hmid)
  | reference hm hopen =>
    exact hm.breaks_reference hopen hk (hblank hm.isDeclaring_eq) hcs (hne rfl)
  | datatype hcsv hm => exact .inl (breaks_datatype hcsv hm hk (hblank hm) hcs)
  | lineLiteral hhat => exact .inl (breaks_lineLiteral hhat hk (hblank rfl) hcs)
  | lineReference hhat hgraph =>
    exact .inl (breaks_lineReference hhat hgraph hp hk (hblank rfl) hcs)
  | declared hq hkind => exact .inl (breaks_declared hq hkind hk (hblank rfl) hcs)
  | field =>
    have hnil : gap = [] := List.eq_nil_iff_forall_not_mem.2 fun c hc => nomatch hgap c hc
    rw [hnil] at hk
    refine .inl (breaks_tokenHere_cons hk fun mid _ hmid => ?_)
    exact breaks_skip hmid (by decide) fun _ _ hmid' => (breaks_quotedBody hcs hmid').bind
  | cellLiteral hhat =>
    refine .inl (breaks_cell hhat hk hgap (by decide) fun mid hmid => ?_)
    exact breaks_skip hmid (by decide) fun _ _ hmid' => (breaks_literalBody hcs hmid').bind
  | cellReference hhat =>
    exact .inl (breaks_cell hhat hk hgap (by decide) fun mid hmid => breaks_reference hcs hmid)

end Machine

/-! ## Runs -/

namespace Lexer

open Input (Reader)

variable {l l' : Lexer} {cause : ReadFailure} {kind : Kind}

/-- Reading stands between tokens, and nothing but a gap is left. -/
def BetweenTokens (l : Lexer) : Prop :=
  ∃ kind, l.cursor.previous = some kind ∧
    ∀ c ∈ l.cursor.ahead, l.machine.passes (some kind) c = true

/-- Behind a gap a literal or a reference is opened, which is not closed: nothing
but whole pieces of it are left. A reference that begins with the sign `=` may be
taken for an operator. -/
def InsideSigns (l : Lexer) : Prop :=
  ∃ kind gap opening e cs, l.cursor.previous = some kind ∧
    l.cursor.ahead = gap ++ (opening ++ cs) ∧
    (∀ c ∈ gap, l.machine.passes (some kind) c = true) ∧ l.machine.Opens kind opening e ∧
    Unclosed e cs ∧ (e = .reference → cs.head? ≠ some '=')

theorem Broken.ne_ending (h : l.Broken cause) (hp : l.cursor.previous = some kind) :
    kind ≠ .ending :=
  fun hk => h.previous (by rw [hp, hk])

theorem BetweenTokens.unreadable (hb : l.BetweenTokens) (h : l.Broken cause) :
    l.next.1 = .error (.unreadable cause) := by
  obtain ⟨kind, hp, hgap⟩ := hb
  exact fault_of_breaks hp (h.ne_ending hp) (Machine.breaks_gap h.awaits hgap)

/-- Inside signs the next call comes to the failure, or the one after it. -/
theorem InsideSigns.unreadable (hi : l.InsideSigns) (h : l.Broken cause) :
    ∃ ts l', Reaches l ts l' ∧ l'.next.1 = .error (.unreadable cause) := by
  obtain ⟨kind, gap, opening, e, cs, hp, ha, hgap, hopens, hcs, hne⟩ := hi
  have hk := h.ne_ending hp
  have hawaits := h.awaits
  rw [ha] at hawaits
  rcases Machine.breaks_opened hopens (k := l.cursor.fresh) hp hawaits hgap hcs hne with
    hbreaks | ⟨t, left, e, hleft⟩
  · exact ⟨[], l, .start, fault_of_breaks hp hk hbreaks⟩
  · have hnext := next_of_read hp hk e
    have hprevious := (retains_of_next hnext).previous (by rw [hp]; nofun)
    obtain ⟨kind', hp'⟩ := Option.ne_none_iff_exists'.1 hprevious
    have hbetween : BetweenTokens ⟨l.machine.after t, left⟩ :=
      ⟨kind', hp', fun c hc => by rw [hleft] at hc; cases hc⟩
    exact ⟨[t], _, Reaches.start.next hnext, hbetween.unreadable (h.next hnext).1⟩

/-- A source that is broken off is never taken for a whole text: reading it ends
with a fault, before which there is no token after all text. If it is broken off
between tokens, or inside a literal or a reference and not inside an escape, the
fault is what broke it off. -/
theorem broken_off (settings : Settings) (reader : Reader) (cause : ReadFailure)
    (h : reader.broken? = some cause) :
    let start := ofReader settings reader
    (∃ (ts : List Token) (fault : Fault), start.tokens = ts.map .ok ++ [.error fault] ∧
      ∀ t ∈ ts, t.kind ≠ .ending) ∧
    (∀ ts l, Reaches start ts l → l.BetweenTokens ∨ l.InsideSigns →
      ∃ us : List Token, start.tokens = us.map .ok ++ [.error (.unreadable cause)]) := by
  intro start
  have hbroken : start.Broken cause := broken_ofReader settings h
  refine ⟨hbroken.ends, fun ts l hr hl => ?_⟩
  obtain ⟨us, l', hr', e⟩ : ∃ us l', Reaches l us l' ∧ l'.next.1 = .error (.unreadable cause) := by
    have hl' := (hbroken.reaches hr).1
    rcases hl with hl | hl
    · exact ⟨[], l, .start, hl.unreadable hl'⟩
    · exact hl.unreadable hl'
  exact ⟨ts ++ us, hbroken.ends_unreadable (hr.trans hr') e⟩

/-- A reader fails behind an escape inside a literal, and that is where its items
end. -/
theorem broken_off_behind_escape :
    let settings : Settings := ⟨.turtle, .sparql11, .recommendation⟩
    let cause : ReadFailure := ⟨"ConnectionReset", "gone"⟩
    let reader : Reader := [.bytes 0x22 [0x61, 0x5C, 0x6E], .failure cause]
    reader.broken? = some cause ∧
    ∃ l, Reaches (ofReader settings reader) [.beginning] l ∧ l.InsideSigns ∧
      ∃ us : List Token,
        (ofReader settings reader).tokens = us.map .ok ++ [.error (.unreadable cause)] := by
  intro settings cause reader
  have hbroken : reader.broken? = some cause := by decide +kernel
  have hnext : (ofReader settings reader).next =
      (.ok .beginning, (ofReader settings reader).next.2) := by rfl
  have hr : Reaches (ofReader settings reader) [.beginning] (ofReader settings reader).next.2 :=
    Reaches.start.next hnext
  have hunclosed : Unclosed (.short '"') ['a', '\\', 'n'] :=
    .cons (.plain (by decide)) (.cons (.escape rfl (.control rfl)) .nil)
  have hinside : (ofReader settings reader).next.2.InsideSigns :=
    ⟨.beginning, [], ['"'], .short '"', ['a', '\\', 'n'], by rfl, by decide +kernel, nofun,
      .short (.turtle _) ⟨nofun, nofun⟩ (.inl rfl), hunclosed, nofun⟩
  exact ⟨hbroken, _, hr, hinside,
    (broken_off settings reader cause hbroken).2 _ _ hr (.inr hinside)⟩

end Lexer

end TripleLex

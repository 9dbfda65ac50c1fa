import TripleLex.Proofs.DecodedBodies
import TripleLex.Proofs.FirstCharacters
import TripleLex.Proofs.Openings

/-!
# Short literals and references, decoded

Where a format reads a short literal or a reference, its next token is what the decoder
makes of the text behind the opening sign, and reading goes on behind the closing one. If
the text is not closed or cannot be decoded, there is a fault and no token. The places are
those of `Machine.Opens`; a bracket that is taken for an operator opens nothing
(`Machine.readsOperator`), and three signs in a row open another form.

## Main results

* `Machine.delivers_opened` — all formats.
* `Lexer.decoded_next` — a single call.
-/

namespace TripleLex

open Scan
open Cursor (Reads)
open Decoder (Decodes decode? ClosedAt forbids)

namespace Scan

/-! ## Tokens -/

section Tokens

variable {α : Type} {k mid : Cursor} {sign : Char} {cs ds ws : List Char}
  {said : List Char → Kind × String}

/-- The scan makes a token of the text before a sign, and leaves what follows; it fails
where nothing can be decoded. -/
structure Delivers (sign : Char) (cs : List Char) (said : List Char → Kind × String)
    (m : Scan Token) (k : Cursor) : Prop where
  succeeds : ∀ text rest, Decodes sign cs text rest →
    ∃ t left, m k = .ok t left ∧ t.content = said text ∧ left.ahead = rest
  refuses : (∀ text rest, ¬ Decodes sign cs text rest) → Refuses m k

theorem Delivers.of_eq {m m' : Scan Token} (h : Delivers sign cs said m' mid)
    (e : m k = m' mid) : Delivers sign cs said m k := by
  constructor
  · rw [e]
    exact h.succeeds
  · unfold Refuses FailsFor
    rw [e]
    exact h.refuses

theorem Delivers.behind {m : Scan α} {f : α → Scan Token} {a : α}
    (h : Delivers sign cs said (f a) mid) (e : m k = .ok a mid) :
    Delivers sign cs said (m >>= f) k :=
  h.of_eq (bind_eq e)

theorem Succeeds.delivers {m : Scan α} {f : α → Scan Token} {a : α} (h : Succeeds m k ds ws a)
    (g : ∀ mid, k.Reads ds ws mid → Delivers sign cs said (f a) mid) :
    Delivers sign cs said (m >>= f) k := by
  obtain ⟨mid, e, r, -⟩ := h
  exact (g mid r).behind e

/-- The scan makes a token of what has been written, and takes nothing more. -/
def Tells (said : List Char → Kind × String) (m : Scan Token) : Prop :=
  ∀ k : Cursor, ∃ t left, m k = .ok t left ∧ t.content = said k.value ∧ left.ahead = k.ahead

theorem tells_emit (kind : Kind) : Tells (fun text => (kind, String.ofList text)) (emit kind) :=
  fun _ => ⟨_, _, rfl, rfl, rfl⟩

/-- The token is made of what has been written since it was begun. -/
theorem Decoded.delivers {body : Scan Unit} {finish : Scan Token} {start : Cursor}
    (h : Decoded sign body k) (hb : start.Begun) (r : start.Reads ds ws k)
    (hfinish : Tells said finish) :
    Delivers sign k.ahead (fun text => said (ws ++ text)) (do body; finish) k := by
  constructor
  · intro text rest hd
    obtain ⟨es, hes, mid, e, r', -⟩ := h.succeeds text rest hd
    obtain ⟨t, left, e', ht, hleft⟩ := hfinish mid
    refine ⟨t, left, (bind_eq e).trans e', ?_, hleft.trans (r'.rest_eq hes)⟩
    rw [ht, (r.trans r').value hb]
  · intro hd
    exact (h.refuses hd).bind

/-- What is behind the sign of a literal; three signs in a row would be another matter. -/
theorem delivers_behindSign {third : Scan Token} {start : Cursor} (hs : IsSign sign)
    (hb : start.Begun) (r : start.Reads [sign] [] k) (hshort : ¬ [sign, sign] <+: k.ahead) :
    Delivers sign k.ahead (fun text => (.literal, String.ofList text)) (do
      if ← nextIs sign then
        let _ ← skip
        if ← nextIs sign then third else emit .literal
      else
        shortBody sign
        emit .literal) k := by
  refine (succeeds_nextIs sign).delivers fun k₁ r₁ => ?_
  by_cases hhead : k.ahead.head? = some sign
  · obtain ⟨cs, hk⟩ := List.head?_eq_some_iff.1 hhead
    have hk₁ := r₁.ahead_eq.trans hk
    rw [if_pos (by simp [hhead])]
    refine (succeeds_skip (by rw [hk₁]; rfl) hs.not_isLineEnd).delivers fun k₂ r₂ => ?_
    refine (succeeds_nextIs sign).delivers fun k₃ r₃ => ?_
    have hk₂ : k₂.ahead = cs := r₂.rest_eq hk₁
    have hnext : cs.head? ≠ some sign := by
      intro hnext
      obtain ⟨cs, rfl⟩ := List.head?_eq_some_iff.1 hnext
      exact hshort ⟨cs, hk.symm⟩
    rw [hk₂, if_neg (by simpa using hnext), hk]
    constructor
    · intro text rest hd
      obtain ⟨rfl, rfl⟩ := Decoder.decodes_sign.1 hd
      refine ⟨_, _, rfl, ?_, r₃.ahead_eq.trans hk₂⟩
      show (Kind.literal, String.ofList k₃.value) = _
      rw [(((r.trans r₁).trans r₂).trans r₃).value hb]
      rfl
    · intro hd
      exact absurd (Decoder.decodes_sign.2 ⟨rfl, rfl⟩) (hd [] cs)
  · rw [if_neg (by simpa using hhead), ← r₁.ahead_eq]
    exact (decoded_shortBody hs).delivers hb (r.trans r₁) (tells_emit .literal)

theorem delivers_literal (surplus : Surplus) (hs : IsSign sign) (hb : k.Begun)
    (hk : k.ahead = sign :: cs) (hshort : ¬ [sign, sign] <+: cs) :
    Delivers sign cs (fun text => (.literal, String.ofList text)) (literal surplus) k := by
  refine (succeeds_skip (by rw [hk]; rfl) hs.not_isLineEnd).delivers fun mid r => ?_
  rw [← r.rest_eq hk] at hshort ⊢
  exact delivers_behindSign hs hb r hshort

/-- A literal where there is no long form. -/
theorem delivers_lineLiteral (hb : k.Begun) (hk : k.ahead = '"' :: cs)
    (hshort : ¬ ['"', '"'] <+: cs) :
    Delivers '"' cs (fun text => (.literal, String.ofList text)) Graph.LineFormat.literal k := by
  refine (succeeds_skip (by rw [hk]; rfl) (by decide)).delivers fun mid r => ?_
  rw [← r.rest_eq hk] at hshort ⊢
  exact delivers_behindSign (.inl rfl) hb r hshort

theorem delivers_reference (hb : k.Begun) (hk : k.ahead = '<' :: cs) :
    Delivers '>' cs (fun text => (.uri, String.ofList text)) reference k := by
  refine (succeeds_skip (by rw [hk]; rfl) (by decide)).delivers fun mid r => ?_
  rw [← r.rest_eq hk]
  exact decoded_referenceBody.delivers hb r (tells_emit .uri)

theorem delivers_referenceDatatype (hb : k.Begun) (hk : k.ahead = '<' :: cs) :
    Delivers '>' cs (fun text => (.datatype, "<" ++ String.ofList text ++ ">"))
      referenceDatatype k := by
  refine (succeeds_skip (by rw [hk]; rfl) (by decide)).delivers fun mid r => ?_
  rw [← r.rest_eq hk]
  have htells : Tells (fun text => (.datatype, "<" ++ String.ofList text ++ ">"))
      (do emitAs .datatype ("<" ++ (← get).text ++ ">")) := fun _ => ⟨_, _, rfl, rfl, rfl⟩
  exact decoded_referenceBody.delivers hb r htells

end Tokens

end Scan

/-! ### References that an operator is told from -/

section Operators

variable {k : Cursor} {cs : List Char}

/-- Behind its bracket a reference of Turtle may begin with a sign of equality, unless the two
are an operator. -/
theorem Graph.Turtle.delivers_reference (t : Graph.Turtle) (hb : k.Begun) (hk : k.ahead = '<' :: cs)
    (hop : (cs.head? == some '=' && cs.tail.head?.all Unicode.isBlank) = false) :
    Delivers '>' cs (fun text => (.uri, String.ofList text)) t.referenceOrArrow k := by
  refine (succeeds_skip (by rw [hk]; rfl) (by decide)).delivers fun k₁ r₁ => ?_
  refine (succeeds_nextIs '=').delivers fun k₂ r₂ => ?_
  have hk₂ : k₂.ahead = cs := r₂.ahead_eq.trans (r₁.rest_eq hk)
  rw [r₁.rest_eq hk]
  by_cases hhead : cs.head? = some '='
  · obtain ⟨cs, rfl⟩ := List.head?_eq_some_iff.1 hhead
    rw [if_pos (by simp)]
    refine (succeeds_consume (by rw [hk₂]; rfl) (by decide)).delivers fun k₃ r₃ => ?_
    have hk₃ : k₃.ahead = cs := r₃.rest_eq hk₂
    refine succeeds_look.delivers fun k₄ r₄ => ?_
    rw [hk₃, if_neg (by simpa using hop)]
    have hbody := decoded_referenceBody.delivers hb (((r₁.trans r₂).trans r₃).trans r₄)
      (tells_emit .uri)
    rw [r₄.ahead_eq, hk₃] at hbody
    have hdecodes : ∀ text rest, Decodes '>' ('=' :: cs) text rest ↔
        forbids '>' '=' = false ∧ ∃ more, Decodes '>' cs more rest ∧ text = '=' :: more :=
      fun _ _ => Decoder.decodes_plain (by decide) (by decide)
    constructor
    · intro text rest hd
      obtain ⟨-, more, hmore, rfl⟩ := (hdecodes _ _).1 hd
      exact hbody.succeeds more rest hmore
    · intro hd
      exact hbody.refuses fun text rest hmore =>
        hd ('=' :: text) rest ((hdecodes _ _).2 ⟨by decide, text, hmore, rfl⟩)
  · rw [if_neg (by simpa using hhead), ← hk₂]
    exact decoded_referenceBody.delivers hb (r₁.trans r₂) (tells_emit .uri)

theorem Graph.Notation3.delivers_reference (hb : k.Begun) (hk : k.ahead = '<' :: cs)
    (hop : (cs.head? == some '=') = false) :
    Delivers '>' cs (fun text => (.uri, String.ofList text))
      Graph.Notation3.referenceOrArrow k := by
  refine (succeeds_skip (by rw [hk]; rfl) (by decide)).delivers fun k₁ r₁ => ?_
  refine (succeeds_nextIs '=').delivers fun k₂ r₂ => ?_
  rw [r₁.rest_eq hk, if_neg (by rw [hop]; decide), ← r₁.rest_eq hk, ← r₂.ahead_eq]
  exact decoded_referenceBody.delivers hb (r₁.trans r₂) (tells_emit .uri)

theorem Query.Sparql.delivers_reference (hb : k.Begun) (hk : k.ahead = '<' :: cs)
    (hop : (cs.head?.all Unicode.isBlank || cs.head? == some '=') = false) :
    Delivers '>' cs (fun text => (.uri, String.ofList text)) Query.Sparql.referenceOrLess k := by
  obtain ⟨hblank, hequals⟩ := Bool.or_eq_false_iff.1 hop
  refine (succeeds_skip (by rw [hk]; rfl) (by decide)).delivers fun k₁ r₁ => ?_
  refine succeeds_look.delivers fun k₂ r₂ => ?_
  rw [r₁.rest_eq hk, if_neg (by rw [hblank]; decide), if_neg (by rw [hequals]; decide),
    ← r₁.rest_eq hk, ← r₂.ahead_eq]
  exact decoded_referenceBody.delivers hb (r₁.trans r₂) (tells_emit .uri)

end Operators

/-! ## Formats -/

/-- The sign that closes it, if it is of one line. -/
def Enclosure.delimiter? : Enclosure → Option Char
  | short sign => some sign
  | reference => some '>'
  | long _ | field | cell => none

/-- The token that is made of a text behind a token of a kind. -/
def Enclosure.said (e : Enclosure) (kind : Kind) (text : List Char) : Kind × String :=
  if kind = .hatHat then (.datatype, "<" ++ String.ofList text ++ ">")
  else (e.kind, String.ofList text)

namespace Machine

/-- Whether a bracket is taken for an operator, by what follows it: `<`, or `<=` in the
languages that have it. A datatype is no place for one. -/
def readsOperator (m : Machine) (kind : Kind) (cs : List Char) : Bool :=
  kind != .hatHat && match m with
    | turtle _ => cs.head? == some '=' && cs.tail.head?.all Unicode.isBlank
    | n3 _ => cs.head? == some '='
    | sparql q => q.progress.inBody && (cs.head?.all Unicode.isBlank || cs.head? == some '=')
    | lines _ | csv | tsv => false

variable {m : Machine} {kind : Kind} {k : Cursor} {gap cs : List Char} {sign : Char}
  {e : Enclosure} {opening : List Char}

theorem ReadsTurtle.delivers_reference (hm : m.ReadsTurtle) (hp : Kind.Open (some kind))
    (hk : k.ahead = gap ++ '<' :: cs) (hgap : ∀ c ∈ gap, Unicode.isBlank c = true)
    (hop : m.readsOperator kind cs = false) :
    Delivers '>' cs (fun text => (.uri, String.ofList text)) (m.read (some kind)) k := by
  have hhat : kind ≠ .hatHat := fun h => hp.untyped (congrArg some h)
  have hkind : (kind != .hatHat) = true := by simpa using hhat
  unfold readsOperator at hop
  rw [hkind, Bool.true_and] at hop
  obtain ⟨mid, e, hmid⟩ := hm.dispatched hp hk hgap (by decide)
  refine Delivers.of_eq ?_ e
  cases hm with
  | turtle rules => exact rules.delivers_reference hmid.begun hmid.ahead hop
  | n3 _ => exact Graph.Notation3.delivers_reference hmid.begun hmid.ahead hop
  | sparql hq =>
    dsimp only at hop
    rw [hq, Bool.true_and] at hop
    rw [dispatch_body hq]
    exact Query.Sparql.delivers_reference hmid.begun hmid.ahead hop

theorem delivers_datatype (hcsv : m ≠ csv) (hm : m.isDeclaring = false)
    (hk : k.ahead = gap ++ '<' :: cs) (hgap : ∀ c ∈ gap, Unicode.isBlank c = true) :
    Delivers '>' cs (fun text => (.datatype, "<" ++ String.ofList text ++ ">"))
      (m.read (some .hatHat)) k := by
  have hb : Unicode.isBlank '<' = false := by decide
  have hdatatype : ∀ rule, Delivers '>' cs
      (fun text => (.datatype, "<" ++ String.ofList text ++ ">")) (datatype rule) k := by
    intro rule
    obtain ⟨mid, e, hmid⟩ := look_behind_blank hk hgap hb
    exact (delivers_referenceDatatype hmid.begun hmid.ahead).of_eq e
  cases m with
  | lines format =>
    obtain ⟨mid, e, hmid⟩ := look_behind_blank hk hgap hb
    exact (delivers_referenceDatatype hmid.begun hmid.ahead).of_eq e
  | turtle rules => exact hdatatype _
  | n3 v =>
    have hv : v.isReading = false := hm
    show Delivers '>' cs _ (Graph.Notation3.read v (some .hatHat)) k
    unfold Graph.Notation3.read
    rw [if_neg (by rw [hv]; decide)]
    exact hdatatype _
  | sparql q => exact hdatatype _
  | csv => exact absurd rfl hcsv
  | tsv => exact hdatatype _

/-- Behind its opening sign every format decodes what stands before the closing one. -/
theorem delivers_opened (h : m.Opens kind opening e) (hd : e.delimiter? = some sign)
    (hp : k.previous = some kind) (hk : k.ahead = gap ++ (opening ++ cs))
    (hgap : ∀ c ∈ gap, m.passes (some kind) c = true)
    (hshort : e = .short sign → ¬ [sign, sign] <+: cs)
    (hop : e = .reference → m.readsOperator kind cs = false) :
    Delivers sign cs (e.said kind) (m.read (some kind)) k := by
  have hblank : m.isDeclaring = false → ∀ c ∈ gap, Unicode.isBlank c = true :=
    fun hm c hc => isBlank_of_passes hm (hgap c hc)
  -- a datatype keeps its brackets, and nothing else is read behind its sign
  have hsaid : kind ≠ .hatHat → e.said kind = fun text => (e.kind, String.ofList text) := by
    intro hhat
    funext text
    exact if_neg hhat
  cases h with
  | short hm hopen hs =>
    cases hd
    rw [hsaid fun h => hopen.untyped (congrArg some h)]
    obtain ⟨mid, e, hmid⟩ := hm.read_literal hopen hs hk (hblank hm.isDeclaring_eq)
    exact (delivers_literal _ hs hmid.begun hmid.ahead (hshort rfl)).of_eq e
  | long => cases hd
  | reference hm hopen =>
    cases hd
    rw [hsaid fun h => hopen.untyped (congrArg some h)]
    exact hm.delivers_reference hopen hk (hblank hm.isDeclaring_eq) (hop rfl)
  | datatype hcsv hm =>
    cases hd
    exact delivers_datatype hcsv hm hk (hblank hm)
  | @lineLiteral format _ hhat =>
    cases hd
    rw [hsaid hhat]
    have hexpects : (lines format).expects (some kind) = false := by simpa [expects] using hhat
    obtain ⟨mid, e, hmid⟩ := dispatched rfl hexpects hk (hblank rfl) (by decide)
    exact (delivers_lineLiteral hmid.begun hmid.ahead (hshort rfl)).of_eq e
  | @lineReference format _ hhat hgraph =>
    cases hd
    rw [hsaid hhat]
    have hexpects : (lines format).expects (some kind) = false := by simpa [expects] using hhat
    obtain ⟨mid, e, hmid⟩ := dispatched rfl hexpects hk (hblank rfl) (by decide)
    have hcheck : format.checkGraph mid = .ok () mid := by
      unfold Graph.LineFormat.checkGraph
      rw [get_bind, hmid.previous, hp, if_neg (by rw [hgraph]; decide)]
      rfl
    exact (delivers_reference hmid.begun hmid.ahead).of_eq (e.trans (bind_eq hcheck))
  | @declared q _ hq hkind =>
    cases hd
    rw [hsaid (by rcases hkind with rfl | rfl <;> decide)]
    have hexpects : (sparql q).expects (some kind) = false := by
      rcases hkind with rfl | rfl <;> rfl
    obtain ⟨mid, e, hmid⟩ := dispatched rfl hexpects hk (hblank rfl) (by decide)
    rw [dispatch_prologue hq] at e
    refine (delivers_reference hmid.begun hmid.ahead).of_eq (e.trans ?_)
    rcases hkind with rfl | rfl <;> rfl
  | field => cases hd
  | cellLiteral => cases hd
  | cellReference hhat =>
    cases hd
    rw [hsaid hhat]
    simp only [passes_tsv hhat] at hgap
    obtain ⟨mid, e, hmid⟩ := look_behind_spaces hk hgap (by decide)
    refine (delivers_reference hmid.begun hmid.ahead).of_eq ?_
    show Table.Tsv.read (some kind) k = _
    rw [Table.Tsv.read_eq hhat]
    exact e

end Machine

namespace Lexer

/-- A short literal or a reference is what the decoder makes of the text before the first sign
behind an even number of backslashes. It is refused exactly if there is no such sign, or if
what stands before it cannot be decoded. -/
theorem decoded_next (l : Lexer) (kind : Kind) (e : Enclosure) (sign : Char)
    (opening gap cs : List Char) (hprevious : l.cursor.previous = some kind)
    (hending : kind ≠ .ending) (hopens : l.machine.Opens kind opening e)
    (hsign : e.delimiter? = some sign) (hahead : l.cursor.ahead = gap ++ (opening ++ cs))
    (hgap : ∀ c ∈ gap, l.machine.passes (some kind) c = true)
    (hshort : e = .short sign → ¬ [sign, sign] <+: cs)
    (hop : e = .reference → l.machine.readsOperator kind cs = false) :
    (∀ body rest text, ClosedAt sign cs body rest → decode? sign body = some text →
      ∃ t l', l.next = (.ok t, l') ∧ t.content = e.said kind text ∧ l'.cursor.ahead = rest) ∧
    ((∃ fault, l.next.1 = .error fault) ↔ (∀ body rest, ¬ ClosedAt sign cs body rest) ∨
      ∃ body rest, ClosedAt sign cs body rest ∧ decode? sign body = none) := by
  have hdelivers : Delivers sign cs (e.said kind) (l.machine.read (some kind)) l.cursor.fresh :=
    Machine.delivers_opened hopens hsign hprevious hahead hgap hshort hop
  have hsucceeds : ∀ body rest text, ClosedAt sign cs body rest → decode? sign body = some text →
      ∃ t l', l.next = (.ok t, l') ∧ t.content = e.said kind text ∧ l'.cursor.ahead = rest := by
    intro body rest text hclosed htext
    obtain ⟨t, left, e, ht, hleft⟩ := hdelivers.succeeds text rest ⟨body, hclosed, htext⟩
    exact ⟨t, _, next_of_read hprevious hending e, ht, hleft⟩
  refine ⟨hsucceeds, ?_, ?_⟩
  · rintro ⟨fault, hfault⟩
    by_cases hclosed : ∃ body rest, ClosedAt sign cs body rest
    · obtain ⟨body, rest, hclosed⟩ := hclosed
      refine .inr ⟨body, rest, hclosed, ?_⟩
      cases htext : decode? sign body with
      | none => rfl
      | some text =>
        obtain ⟨t, l', hnext, -⟩ := hsucceeds body rest text hclosed htext
        rw [hnext] at hfault
        cases hfault
    · exact .inl fun body rest h => hclosed ⟨body, rest, h⟩
  · intro hnone
    have hrefuses : ∀ text rest, ¬ Decodes sign cs text rest := by
      rintro text rest ⟨body, hclosed, htext⟩
      rcases hnone with hnone | ⟨body', rest', hclosed', htext'⟩
      · exact hnone body rest hclosed
      · obtain ⟨rfl, rfl⟩ := hclosed.unique hclosed'
        rw [htext] at htext'
        cases htext'
    obtain ⟨fault, left, e, -⟩ := hdelivers.refuses hrefuses
    exact ⟨fault, by rw [next_of_fails hprevious hending e]⟩

/-- Escapes of every form in a reference: the sign itself, a doubled backslash before a letter
that announces an escape, and code points. -/
theorem decoded_next_escapes :
    let l := afterCalls 1 (ofText (.ofFormat .turtle) "<a\\>\\\\u\\u0041\\U00000042>.")
    let body := "a\\>\\\\u\\u0041\\U00000042".toList
    l.cursor.previous = some .beginning ∧ l.machine.Opens .beginning ['<'] .reference ∧
      l.cursor.ahead = [] ++ (['<'] ++ (body ++ ['>', '.'])) ∧
      l.machine.readsOperator .beginning (body ++ ['>', '.']) = false ∧
      ∃ t l', l.next = (.ok t, l') ∧ t.content = (.uri, "a>\\\\uA00000042B") ∧
        l'.cursor.ahead = ['.'] := by
  intro l body
  have hahead : l.cursor.ahead = [] ++ (['<'] ++ (body ++ ['>', '.'])) := by decide +kernel
  have hopens : l.machine.Opens .beginning ['<'] .reference := .reference (.turtle _) ⟨nofun, nofun⟩
  have hop : l.machine.readsOperator .beginning (body ++ ['>', '.']) = false := by decide +kernel
  have hclosed : ClosedAt '>' (body ++ ['>', '.']) body ['.'] := by decide +kernel
  have htext : decode? '>' body = some "a>\\\\uA00000042B".toList := by decide +kernel
  obtain ⟨t, l', e, ht, hl⟩ := (decoded_next l .beginning .reference '>' ['<'] [] _ rfl nofun hopens
    rfl hahead nofun nofun fun _ => hop).1 body ['.'] _ hclosed htext
  exact ⟨rfl, hopens, hahead, hop, t, l', e, ht.trans (by decide), hl⟩

end Lexer

end TripleLex

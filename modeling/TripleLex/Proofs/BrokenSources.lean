import TripleLex.Proofs.Closing
import TripleLex.Proofs.Makes
import TripleLex.Proofs.Progress
import TripleLex.Proofs.Succeeds

/-!
# Sources that are broken off

The failure that breaks a source off is met when a character is asked for behind
the last one, and is kept until a scan fails for it. Where it stands between
these two moments does not matter: `Source.breaks` is the failure that will be
met or has been met, and no scan that succeeds changes it (`Composed.breaks_eq`).
So wherever the end of the characters is taken for the end of the input, either
there is no such failure or the scan fails for it (`Scan.Breaks`), and the token
after all text is never made of a source that was broken off.

## Main results

* `Composed.breaks_eq` — the failure is not lost.
* `breaks_behind`, `breaks_look_nil`, `breaks_iterate` — the rules for scans that
  come to it.
* `Machine.breaks_gap` — what is read where only a gap is left.
* `Lexer.Broken.ends` — the items of a source that is broken off.
-/

namespace TripleLex

open Input (Reader)

namespace Input.Source

variable {s : Source}

/-- What breaks the source off, whether it has been met yet or not. -/
def breaks (s : Source) : Option ReadFailure := s.failure <|> s.met

theorem breaks_ofReader (reader : Reader) : (ofReader reader).breaks = reader.broken? := by
  show (reader.broken? <|> none) = reader.broken?
  cases reader.broken? <;> rfl

theorem breaks_fill (s : Source) : s.fill.breaks = s.breaks := by
  unfold breaks
  cases s.filled_fill with
  | character c more cs ready before rest failure met => rw [failure, met]
  | nothing ready before rest failure met =>
    rw [failure, met]
    rfl

/-- Behind the last character it has been met. -/
theorem met_fill (h : s.rest = []) : s.fill.met = s.breaks := by
  cases s.filled_fill with
  | character c more cs ready before =>
    rw [h] at before
    cases before
  | nothing ready before rest failure met => exact met

end Input.Source

namespace Cursor

variable {k : Cursor}

theorem breaks_looked (k : Cursor) : k.looked.source.breaks = k.source.breaks := by
  unfold looked
  split
  · rfl
  · exact k.source.breaks_fill

theorem breaks_taken (k : Cursor) : k.taken.source.breaks = k.source.breaks := by
  unfold taken
  split
  · rfl
  · exact k.source.breaks_fill

/-- Where nothing is left, looking meets what breaks the source off. -/
theorem met_looked (h : k.ahead = []) : k.looked.source.met = k.source.breaks := by
  unfold ahead at h
  obtain ⟨hpending, hrest⟩ := List.append_eq_nil_iff.1 h
  unfold looked
  cases hp : k.pending with
  | none => exact k.source.met_fill hrest
  | some c =>
    rw [hp] at hpending
    cases hpending

/-- The characters are still to come, and behind them a failure breaks the source
off. -/
structure Awaits (k : Cursor) (cause : ReadFailure) (cs : List Char) : Prop where
  ahead : k.ahead = cs
  breaks : k.source.breaks = some cause

end Cursor

namespace Scan

open Cursor (Awaits Reads)

/-! ## What breaks a source off is not lost -/

section Composed

variable {α : Type} {dots : Bool} {k left : Cursor}

theorem source_backtrack {u : Unit} (e : backtrack k = .ok u left) :
    left.source = k.source := by
  rcases k with ⟨source, _ | _, _ | ⟨c, written⟩⟩ <;> cases e
  rfl

/-- Whatever of a source is kept by asking for a character and by taking one is kept by a scan
that succeeds. -/
theorem Composed.source_of {P : Input.Source → Prop} (hfill : ∀ s, P s → P s.fill)
    (hread : ∀ s, P s → P s.read.2) {m : Scan α} (h : Composed dots m) {a : α}
    (e : m k = .ok a left) (hk : P k.source) : P left.source := by
  have htaken : ∀ k : Cursor, P k.source → P k.taken.source := by
    intro k hk
    unfold Cursor.taken
    split
    · exact hk
    · exact hread _ hk
  induction h generalizing k left with
  | pure a =>
    cases e
    exact hk
  | bind _ _ ihm ihf =>
    obtain ⟨a, mid, e₁, e₂⟩ := bind_ok e
    exact ihf a e₂ (ihm e₁ hk)
  | raise fault => cases e
  | look =>
    cases e
    unfold Cursor.looked
    split
    · exact hk
    · exact hfill _ hk
  | take =>
    cases e
    exact htaken k hk
  | advance =>
    unfold Scan.advance at e
    split at e <;> cases e <;> exact htaken k hk
  | failIfBroken => rwa [(eq_of_failIfBroken e).1]
  | ask _ _ ih => exact ih k e hk
  | edit hf =>
    cases e
    rwa [hf.source]
  | emit kind =>
    cases e
    exact hk
  | giveBack _ _ =>
    have e := get_bind_ok e
    split at e
    · rwa [source_backtrack e]
    · cases e
      exact hk
  | @iterate _ _ turn h _ s ih =>
    exact iterate_induction (h := h)
      (P := fun _ k r => P k.source → ∀ a left, r = .ok a left → P left.source)
      (fun s k s' mid r e hr hk a left hleft => hr (ih s e hk) a left hleft)
      (fun s k a mid e hk a' left hleft => by
        cases hleft
        exact ih s e hk)
      (fun s k fault mid e hk a left hleft => by cases hleft) s k hk _ _ e

/-- A scan that succeeds leaves a source that the same failure breaks off: one that
has been met makes the scan fail. -/
theorem Composed.breaks_eq {m : Scan α} (h : Composed dots m) {a : α} (e : m k = .ok a left) :
    left.source.breaks = k.source.breaks :=
  h.source_of (P := fun s => s.breaks = k.source.breaks) (fun s hs => s.breaks_fill.trans hs)
    (fun s hs => s.breaks_fill.trans hs) e rfl

/-- Of a whole source it leaves a whole one. -/
theorem Composed.whole {m : Scan α} (h : Composed dots m) {a : α} (e : m k = .ok a left)
    (hk : k.source.IsWhole) : left.source.IsWhole :=
  h.source_of (fun _ hs => hs.peek) (fun _ hs => hs.read) e hk

end Composed

/-! ## Scans that come to it -/

section Breaks

variable {α β : Type} {k mid : Cursor} {cause : ReadFailure} {cs ds ws : List Char}

/-- The scan fails for what breaks its source off. -/
def Breaks (cause : ReadFailure) (m : Scan α) (k : Cursor) : Prop :=
  ∃ left, m k = .error (.unreadable cause) left

theorem Breaks.bind {m : Scan α} {f : α → Scan β} (h : Breaks cause m k) :
    Breaks cause (m >>= f) k := by
  obtain ⟨left, e⟩ := h
  refine ⟨left, ?_⟩
  simp only [Bind.bind, EStateM.bind, e]

theorem Breaks.after {m : Scan α} {f : α → Scan β} {a : α} (h : Breaks cause (f a) mid)
    (e : m k = .ok a mid) : Breaks cause (m >>= f) k := by
  obtain ⟨left, e'⟩ := h
  exact ⟨left, (bind_eq e).trans e'⟩

theorem breaks_get {f : Cursor → Scan α} (h : Breaks cause (f k) k) :
    Breaks cause (get >>= f) k :=
  h

/-- Some characters are read, and the others and the failure are still to come. -/
theorem breaks_behind {m : Scan α} {f : α → Scan β} [hm : Composed true m] {a : α}
    (h : Succeeds m k ds ws a) (hk : k.Awaits cause (ds ++ cs))
    (g : ∀ mid, k.Reads ds ws mid → mid.Awaits cause cs → Breaks cause (f a) mid) :
    Breaks cause (m >>= f) k := by
  obtain ⟨mid, e, r, -⟩ := h
  exact (g mid r ⟨r.rest_eq hk.ahead, (hm.breaks_eq e).trans hk.breaks⟩).after e

theorem breaks_failIfBroken (h : k.source.met = some cause) : Breaks cause failIfBroken k :=
  ⟨_, failIfBroken_met h⟩

theorem breaks_unexpectedEnd (expected : String) (h : k.source.met = some cause) :
    Breaks cause (unexpectedEnd expected : Scan α) k :=
  (breaks_failIfBroken h).bind

/-- The end of the input is no end of the text. -/
theorem breaks_ending (expected : String) (h : k.source.met = some cause) :
    Breaks cause (ending expected) k := by
  refine breaks_get ?_
  split
  · exact (breaks_failIfBroken h).bind
  · exact breaks_unexpectedEnd _ h

/-- Where no character is left, the failure has been met. -/
theorem breaks_look_nil {f : Option Char → Scan α} (hk : k.Awaits cause [])
    (g : ∀ mid, mid.source.met = some cause → Breaks cause (f none) mid) :
    Breaks cause (look >>= f) k := by
  refine (g k.looked ?_).after ?_
  · rw [Cursor.met_looked hk.ahead, hk.breaks]
  · rw [look_eq, hk.ahead]
    rfl

theorem breaks_look_cons {f : Option Char → Scan α} {c : Char} (hk : k.Awaits cause (c :: cs))
    (g : ∀ mid, k.Reads [] [] mid → mid.Awaits cause (c :: cs) → Breaks cause (f (some c)) mid) :
    Breaks cause (look >>= f) k := by
  refine breaks_behind succeeds_look hk ?_
  rw [hk.ahead]
  exact g

theorem breaks_nextIs {f : Bool → Scan α} {c : Char} (hk : k.Awaits cause cs)
    (g : ∀ mid, k.Reads [] [] mid → mid.Awaits cause cs →
      Breaks cause (f (cs.head? == some c)) mid) :
    Breaks cause (nextIs c >>= f) k := by
  refine breaks_behind (succeeds_nextIs c) hk ?_
  rw [hk.ahead]
  exact g

theorem breaks_skip {f : Char → Scan α} {c : Char} (hk : k.Awaits cause (c :: cs))
    (hl : Unicode.isLineEnd c = false)
    (g : ∀ mid, k.Reads [c] [] mid → mid.Awaits cause cs → Breaks cause (f c) mid) :
    Breaks cause (skip >>= f) k :=
  breaks_behind (succeeds_skip (by rw [hk.ahead]; rfl) hl) hk g

/-- The scan yields a value and leaves these characters. -/
def ComesTo (m : Scan α) (k : Cursor) (a : α) (rest : List Char) : Prop :=
  ∃ left, m k = .ok a left ∧ left.ahead = rest

theorem Succeeds.comesTo {m : Scan α} {a : α} (h : Succeeds m k ds ws a)
    (hk : k.ahead = ds ++ cs) : ComesTo m k a cs := by
  obtain ⟨left, e, r, -⟩ := h
  exact ⟨left, e, r.rest_eq hk⟩

theorem ComesTo.bind {m : Scan α} {f : α → Scan β} {a : α} {b : β} (h : ComesTo m k a ds)
    (g : ∀ mid : Cursor, mid.ahead = ds → ComesTo (f a) mid b cs) : ComesTo (m >>= f) k b cs := by
  obtain ⟨mid, e, hmid⟩ := h
  obtain ⟨left, e', hleft⟩ := g mid hmid
  exact ⟨left, (bind_eq e).trans e', hleft⟩

theorem comesTo_pure (a : α) (hk : k.ahead = cs) : ComesTo (pure a) k a cs := ⟨k, rfl, hk⟩

theorem ComesTo.thenPure {m : Scan α} {a : α} (h : ComesTo m k a cs) (b : β) :
    ComesTo (m >>= fun _ => pure b) k b cs :=
  h.bind fun _ => comesTo_pure b

theorem comesTo_look {f : Option Char → Scan α} {a : α} (hk : k.ahead = ds)
    (g : ∀ mid : Cursor, mid.ahead = ds → ComesTo (f ds.head?) mid a cs) :
    ComesTo (look >>= f) k a cs := by
  subst hk
  exact ComesTo.bind ⟨k.looked, look_eq k, k.ahead_looked⟩ g

/-- Turns are taken as long as there are characters, and the next one comes to the
failure. -/
theorem breaks_iterate {turn : Unit → Scan (Turn Unit α)} {h : ∀ u, Advances (turn u)}
    [hturn : ∀ u, Composed true (turn u)] (P : List Char → Prop)
    (hend : ∀ k : Cursor, k.Awaits cause [] → Breaks cause (turn ()) k)
    (hgo : ∀ (k : Cursor) (c : Char) (cs : List Char), P (c :: cs) → k.ahead = c :: cs →
      ∃ rest, P rest ∧ ComesTo (turn ()) k (.again ()) rest)
    (hcs : P cs) (hk : k.Awaits cause cs) : Breaks cause (iterate turn h ()) k := by
  generalize hn : cs.length = n
  induction n using Nat.strongRecOn generalizing cs k with
  | ind n ih =>
    rw [iterate_eq]
    cases cs with
    | nil => exact (hend k hk).bind
    | cons c cs =>
      obtain ⟨rest, hrest, mid, e, hmid⟩ := hgo k c cs hcs hk.ahead
      have hless := (h () k _ mid e).2 trivial
      rw [hmid, hk.ahead] at hless
      have hbreaks := (hturn ()).breaks_eq e
      refine Breaks.after ?_ e
      exact ih rest.length (by omega) hrest ⟨hmid, hbreaks.trans hk.breaks⟩ rfl

/-! ## Behind a gap -/

theorem breaks_tokenHere_nil {dispatch : Char → Scan Token} (hk : k.Awaits cause []) :
    Breaks cause (tokenHere dispatch) k :=
  breaks_look_nil hk fun _ => breaks_ending _

theorem breaks_tokenHere_cons {dispatch : Char → Scan Token} {c : Char}
    (hk : k.Awaits cause (c :: cs))
    (g : ∀ mid, mid.previous = k.previous → mid.Awaits cause (c :: cs) →
      Breaks cause (dispatch c) mid) : Breaks cause (tokenHere dispatch) k :=
  breaks_look_cons hk fun mid r => g mid r.previous

/-- Blank characters are passed over. -/
theorem discardBlank_awaits {gap : List Char} (hk : k.Awaits cause (gap ++ cs))
    (hgap : ∀ c ∈ gap, Unicode.isBlank c = true)
    (hcs : ∀ c, cs.head? = some c → Unicode.isBlank c = false) :
    ∃ mid, discardBlank k = .ok () mid ∧ mid.previous = k.previous ∧ mid.Awaits cause cs := by
  obtain ⟨mid, e, ha, -, hp, -⟩ := discardBlank_total k
  rw [hk.ahead, dropWhile_blank hgap hcs] at ha
  have hcomposed : Composed true discardBlank := inferInstance
  have hbreaks := hcomposed.breaks_eq e
  exact ⟨mid, e, hp, ha, hbreaks.trans hk.breaks⟩

theorem breaks_blankThen {gap : List Char} {f : Unit → Scan α} (hk : k.Awaits cause (gap ++ cs))
    (hgap : ∀ c ∈ gap, Unicode.isBlank c = true)
    (hcs : ∀ c, cs.head? = some c → Unicode.isBlank c = false)
    (g : ∀ mid, mid.previous = k.previous → mid.Awaits cause cs → Breaks cause (f ()) mid) :
    Breaks cause (discardBlank >>= f) k := by
  obtain ⟨mid, e, hp, hmid⟩ := discardBlank_awaits hk hgap hcs
  exact (g mid hp hmid).after e

/-- So are spaces. -/
theorem breaks_spacesThen {gap : List Char} {f : Unit → Scan α} (hk : k.Awaits cause (gap ++ cs))
    (hgap : ∀ c ∈ gap, (c == ' ') = true) (hcs : cs.head? ≠ some ' ')
    (g : ∀ mid, mid.previous = k.previous → mid.Awaits cause cs → Breaks cause (f ()) mid) :
    Breaks cause (Table.Tsv.discardSpaces >>= f) k := by
  have hstops : cs.takeWhile (· == ' ') = [] := by
    cases cs with
    | nil => rfl
    | cons c cs => exact List.takeWhile_cons_of_neg fun h => hcs (by rw [beq_iff_eq.1 h]; rfl)
  have hs : Succeeds (skipWhile (· == ' ')) k gap [] () := by
    have hs := succeeds_skipWhile (p := (· == ' ')) (k := k) (by simp; decide)
    rw [hk.ahead, List.takeWhile_append_of_pos hgap, hstops, List.append_nil] at hs
    exact hs
  obtain ⟨mid, e, r, -⟩ := hs
  have hcomposed : Composed true (skipWhile (· == ' ')) := inferInstance
  have hbreaks := hcomposed.breaks_eq e
  have hmid : mid.fresh.Awaits cause cs := ⟨r.rest_eq hk.ahead, hbreaks.trans hk.breaks⟩
  exact (g mid.fresh r.previous hmid).after (bind_eq e)

/-! ## Only a gap is left -/

theorem breaks_prefixName (hk : k.Awaits cause cs) (hcs : ∀ c ∈ cs, Unicode.isBlank c = true) :
    Breaks cause prefixName k := by
  rw [← List.append_nil cs] at hk
  refine breaks_blankThen hk hcs nofun fun mid _ hmid => ?_
  rw [iterate_eq]
  exact (breaks_look_nil hmid fun _ => breaks_unexpectedEnd _).bind.bind

theorem breaks_datatype (rule : Name.Rule) (hk : k.Awaits cause cs)
    (hcs : ∀ c ∈ cs, Unicode.isBlank c = true) : Breaks cause (datatype rule) k := by
  rw [← List.append_nil cs] at hk
  exact breaks_blankThen hk hcs nofun fun mid _ hmid =>
    breaks_look_nil hmid fun _ => breaks_unexpectedEnd _

theorem breaks_lineDatatype (hk : k.Awaits cause cs) (hcs : ∀ c ∈ cs, Unicode.isBlank c = true) :
    Breaks cause Graph.LineFormat.datatype k := by
  rw [← List.append_nil cs] at hk
  exact breaks_blankThen hk hcs nofun fun mid _ hmid =>
    breaks_look_nil hmid fun _ => breaks_unexpectedEnd _

theorem breaks_blankToken {dispatch : Char → Scan Token} (hk : k.Awaits cause cs)
    (hcs : ∀ c ∈ cs, Unicode.isBlank c = true) :
    Breaks cause (do discardBlank; tokenHere dispatch) k := by
  rw [← List.append_nil cs] at hk
  exact breaks_blankThen hk hcs nofun fun mid _ hmid => breaks_tokenHere_nil hmid

/-- A declaration of keywords ends with its line, or fails. -/
theorem breaks_declaration (hk : k.Awaits cause cs)
    (hcs : ∀ c ∈ cs, isGap c = true ∧ Unicode.isLineEnd c = false) :
    Breaks cause Graph.Notation3.declaration k := by
  refine Breaks.bind (breaks_iterate
    (fun cs => ∀ c ∈ cs, isGap c = true ∧ Unicode.isLineEnd c = false)
    (fun k hk => breaks_look_nil hk fun _ => breaks_unexpectedEnd _)
    (fun k c cs hcs hk => ?_) hcs hk)
  obtain ⟨hgap, hl⟩ := hcs c List.mem_cons_self
  refine ⟨cs, fun d hd => hcs d (List.mem_cons_of_mem c hd), comesTo_look hk fun mid hmid => ?_⟩
  dsimp only [List.head?_cons]
  rw [if_neg (by rw [hl]; decide)]
  show ComesTo (if isGap c = true then _ else _) mid _ cs
  rw [if_pos hgap]
  exact ((succeeds_skip (by rw [hmid]; rfl) hl).comesTo hmid).thenPure _

end Breaks

end Scan

/-! ## Machines -/

namespace Machine

open Scan

/-- Whether declared keywords are being read. -/
def isDeclaring : Machine → Bool
  | n3 vocabulary => vocabulary.isReading
  | _ => false

/-- Whether a character between tokens is passed over, behind a token of a kind. A
declaration of keywords ends with its line. -/
def passes (m : Machine) (previous : Option Kind) (c : Char) : Bool :=
  m.skips previous c && !(m.isDeclaring && Unicode.isLineEnd c)

theorem passes_eq {m : Machine} (h : m.isDeclaring = false) (previous : Option Kind) (c : Char) :
    m.passes previous c = m.skips previous c := by
  rw [passes, h, Bool.false_and, Bool.not_false, Bool.and_true]

variable {m : Machine} {previous : Option Kind} {k : Cursor} {cause : ReadFailure}
  {cs : List Char}

/-- Where only a gap is left, no token is found, whatever may follow the one
before. -/
theorem breaks_gap (hk : k.Awaits cause cs) (hcs : ∀ c ∈ cs, m.passes previous c = true) :
    Breaks cause (m.read previous) k := by
  by_cases hm : m.isDeclaring = true
  · cases m with
    | n3 v =>
      have hv : v.isReading = true := hm
      simp only [passes, skips, hv, hm, if_true, Bool.true_and, Bool.and_eq_true,
        Bool.not_eq_true'] at hcs
      show Breaks cause (Graph.Notation3.read v previous) k
      unfold Graph.Notation3.read
      rw [if_pos hv]
      exact breaks_declaration hk hcs
    | _ => cases hm
  · have hm := Bool.eq_false_iff.2 hm
    simp only [passes_eq hm] at hcs
    cases m with
    | lines format =>
      show Breaks cause (format.read previous) k
      unfold Graph.LineFormat.read
      split
      · exact breaks_lineDatatype hk hcs
      · exact breaks_blankToken hk hcs
    | turtle rules =>
      show Breaks cause (rules.read previous) k
      unfold Graph.Turtle.read
      split
      · exact breaks_prefixName hk hcs
      · exact breaks_datatype _ hk hcs
      · exact breaks_blankToken hk hcs
    | n3 v =>
      have hv : ¬ v.isReading = true := Bool.eq_false_iff.1 hm
      simp only [skips, if_neg hv] at hcs
      show Breaks cause (Graph.Notation3.read v previous) k
      unfold Graph.Notation3.read
      rw [if_neg hv]
      split
      · exact breaks_prefixName hk hcs
      · exact breaks_datatype _ hk hcs
      · exact breaks_blankToken hk hcs
    | sparql query =>
      show Breaks cause (query.read previous) k
      unfold Query.Sparql.read
      split
      · exact breaks_prefixName hk hcs
      · exact breaks_datatype _ hk hcs
      · exact breaks_blankToken hk hcs
    | csv =>
      cases cs with
      | nil => exact breaks_tokenHere_nil hk
      | cons c cs => cases hcs c List.mem_cons_self
    | tsv =>
      show Breaks cause (Table.Tsv.read previous) k
      have hcs : ∀ c ∈ cs, Table.Tsv.isGapBehind previous c = true := hcs
      unfold Table.Tsv.read
      split
      · exact breaks_datatype _ hk hcs
      · rename_i hne
        rw [Table.Tsv.isGapBehind_of_ne hne] at hcs
        rw [← List.append_nil cs] at hk
        exact breaks_spacesThen hk hcs nofun fun mid _ hmid => breaks_tokenHere_nil hmid

/-- In a declaration the end of the input is no end of the text. -/
theorem declaration_not_ending :
    Makes (fun t => t.kind ≠ .ending) k Graph.Notation3.declaration := by
  refine makes_bind fun _ _ => makes_bind fun _ _ => makes_bind fun next _ => ?_
  split
  · exact makes_bind fun _ _ => makes_emit nofun
  · refine makes_bind fun _ _ => makes_get ?_
    split
    · exact makes_unexpectedCharacter _ _
    · exact makes_emit nofun

end Machine

/-! ## Runs -/

namespace Lexer

open Scan

variable {l l' : Lexer} {cause : ReadFailure}

/-- The lexer's source is one that a failure breaks off, and its end has not been
reached. -/
structure Broken (cause : ReadFailure) (l : Lexer) : Prop where
  breaks : l.cursor.source.breaks = some cause
  previous : l.cursor.previous ≠ some .ending

theorem broken_ofReader (settings : Settings) {reader : Reader} (h : reader.broken? = some cause) :
    (ofReader settings reader).Broken cause where
  breaks := (Input.Source.breaks_ofReader reader).trans h
  previous := nofun

theorem Broken.awaits (h : l.Broken cause) : l.cursor.fresh.Awaits cause l.cursor.ahead :=
  ⟨rfl, h.breaks⟩

/-- A call inside a text that comes to the failure. -/
theorem fault_of_breaks {kind : Kind} (hp : l.cursor.previous = some kind) (hk : kind ≠ .ending)
    (h : Breaks cause (l.machine.read (some kind)) l.cursor.fresh) :
    l.next.1 = .error (.unreadable cause) := by
  obtain ⟨left, e⟩ := h
  rw [next_of_fails hp hk e]

/-- One call: the source stays broken off, and no end of the text is made of its
end. -/
theorem Broken.next {t : Token} (h : l.Broken cause) (e : l.next = (.ok t, l')) :
    l'.Broken cause ∧ t.kind ≠ .ending := by
  have hbreaks : l'.cursor.source.breaks = some cause :=
    ((composed_next l.machine).breaks_eq (next_ok e).1).trans h.breaks
  rcases next_cases e with ⟨-, rfl, hl⟩ | ⟨hp, -⟩ | ⟨hp, he, mid, hgap, hends | ⟨cs, hlexed⟩⟩
  · exact ⟨⟨hbreaks, by rw [hl]; nofun⟩, nofun⟩
  · exact absurd hp h.previous
  · exfalso
    obtain ⟨kind, hp⟩ := Option.ne_none_iff_exists'.1 hp
    have hk : kind ≠ .ending := fun hk => he (by rw [hp, hk])
    have hread := read_of_next e hp hk
    have ha := hgap.ahead
    rw [hends.nothing, List.append_nil] at ha
    have hskips : ∀ c ∈ l.cursor.ahead, l.machine.skips l.cursor.previous c = true := by
      rw [ha]
      exact fun c hc => List.all_eq_true.1 List.all_takeWhile c hc
    by_cases hm : l.machine.isDeclaring = true
    · rcases l with ⟨_ | _ | v | _, k⟩ <;> first | cases hm | skip
      have hv : v.isReading = true := hm
      have hread : Graph.Notation3.read v (some kind) k.fresh = .ok t l'.cursor := hread
      unfold Graph.Notation3.read at hread
      rw [if_pos hv] at hread
      exact Machine.declaration_not_ending t _ hread (by rw [hends.token])
    · rw [hp] at hskips
      simp only [← Machine.passes_eq (Bool.eq_false_iff.2 hm)] at hskips
      obtain ⟨left, e'⟩ := Machine.breaks_gap h.awaits hskips
      rw [hread] at e'
      cases e'
  · have hne := ne_ending_of_not_isMark hlexed.inner
    exact ⟨⟨hbreaks, by rw [hlexed.previous]; exact fun hk => hne (Option.some.inj hk)⟩, hne⟩

/-- Any number of calls. -/
theorem Broken.reaches {ts : List Token} (h : l.Broken cause) (hr : Reaches l ts l') :
    l'.Broken cause ∧ ∀ t ∈ ts, t.kind ≠ .ending := by
  induction hr with
  | start => exact ⟨h, nofun⟩
  | next _ e ih =>
    obtain ⟨hmid, hts⟩ := ih
    obtain ⟨hl, ht⟩ := hmid.next e
    refine ⟨hl, fun u hu => ?_⟩
    rcases List.mem_append.1 hu with hu | hu
    · exact hts u hu
    · rw [List.mem_singleton.1 hu]
      exact ht

/-- The items end with a fault, and none before it is the token after all text. -/
theorem Broken.ends (h : l.Broken cause) : ∃ (ts : List Token) (fault : Fault),
    l.tokens = ts.map .ok ++ [.error fault] ∧ ∀ t ∈ ts, t.kind ≠ .ending := by
  obtain ⟨ts, l₁, hr, hts, hlast⟩ := l.exists_last
  have htokens := tokens_of_reaches hr hts hlast
  cases hi : l₁.next.1 with
  | error fault =>
    rw [hi] at htokens
    exact ⟨ts, fault, htokens, hts⟩
  | ok t =>
    rw [hi] at hlast
    exact absurd (beq_iff_eq.1 hlast) ((h.reaches hr).1.next (Prod.ext hi rfl)).2

/-- The items end where a call comes to the failure. -/
theorem Broken.ends_unreadable {ts : List Token} (h : l.Broken cause) (hr : Reaches l ts l')
    (e : l'.next.1 = .error (.unreadable cause)) :
    l.tokens = ts.map .ok ++ [.error (.unreadable cause)] := by
  rw [tokens_of_reaches hr (h.reaches hr).2 (by rw [e]; rfl), e]

end Lexer

end TripleLex

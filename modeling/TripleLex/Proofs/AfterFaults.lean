import TripleLex.Proofs.Closing
import TripleLex.Proofs.WholeRuns

/-!
# Calls after a fault

A fault closes the source, and nothing comes out of it any more. But a cursor also
holds what was given back, and closing leaves that where it is: a name or a number
that is judged after its last dot was given back may be a fault, and then the dot
still waits. A later call reads it as a token, where the rules take a dot there.

So after a fault no token comes but the one after all text, exactly if no dot waits
that is read as a token (`silent_after_faults`). If one does, it comes next, and no
other after it.

## Main results

* `Machine.finishes` — what a machine reads where nothing is left but maybe a dot.
* `Lexer.Stopped` — what holds after a fault, from then on.
* `Lexer.silent_after_faults` — which calls are silent.
-/

namespace TripleLex

/-! ## What may still be read -/

namespace Machine

/-- Whether a dot that was given back is read as a token behind one of a kind. -/
def readsDot : Machine → Kind → Bool
  | lines _, kind => kind != .ending && kind != .hatHat
  | turtle _, kind => kind != .ending && kind != .hatHat && kind != .prefixDirective
  | n3 v, kind =>
    kind != .ending && (v.isReading || (kind != .hatHat && kind != .prefixDirective))
  | sparql q, kind =>
    kind != .ending && q.progress.inBody && kind != .hatHat && kind != .prefixDirective
  | csv, _ | tsv, _ => false

theorem readsDot_ending (m : Machine) : m.readsDot .ending = false := by
  cases m <;> rfl

end Machine

namespace Cursor

/-- Nothing is left but the character that was given back, if any, which is a dot. -/
structure Drained (k : Cursor) : Prop where
  released : k.source.IsReleased
  begun : k.Begun
  pending : k.pending = none ∨ k.pending = some '.'

variable {k : Cursor}

theorem rest_released (h : k.source.IsReleased) : k.source.rest = [] := by
  unfold Input.Source.rest
  rw [h.reader, h.ready]

theorem ahead_released (h : k.source.IsReleased) : k.ahead = k.pending.toList := by
  rw [ahead, rest_released h, List.append_nil]

theorem looked_released (h : k.source.IsReleased) : k.looked = k := by
  unfold looked
  split
  · rfl
  · rw [h.stays.1]

theorem pending_close (k : Cursor) : k.close.pending = k.pending := by
  unfold close
  split <;> rfl

theorem previous_close (k : Cursor) : k.close.previous = k.previous := by
  unfold close
  split <;> rfl

theorem isReleased_close (h : k.source.IsReleased) : k.close.source.IsReleased := by
  unfold close
  split
  · exact h
  · exact k.source.isReleased_close

theorem Drained.fresh (h : k.Drained) : k.fresh.Drained :=
  ⟨h.released, begun_fresh k, h.pending⟩

end Cursor

/-! ## Failing -/

namespace Scan

open Cursor (Drained)

section Failing

variable {α β : Type} {k mid : Cursor}

/-- The scan fails; at most what was given back is taken, and the token before is
remembered. -/
def Fails (m : Scan α) (k : Cursor) : Prop :=
  ∃ fault left, m k = .error fault left ∧ (left.pending = none ∨ left.pending = k.pending) ∧
    left.previous = k.previous

theorem Fails.bind {m : Scan α} {f : α → Scan β} (h : Fails m k) : Fails (m >>= f) k := by
  obtain ⟨fault, left, e, hleft⟩ := h
  refine ⟨fault, left, ?_, hleft⟩
  simp only [Bind.bind, EStateM.bind, e]

/-- What comes before does not matter, if it is no other character that waits then. -/
theorem Fails.behind {m : Scan α} {f : α → Scan β} {a : α} (h : Fails (f a) mid)
    (e : m k = .ok a mid) (hp : mid.pending = none ∨ mid.pending = k.pending)
    (hprevious : mid.previous = k.previous) : Fails (m >>= f) k := by
  obtain ⟨fault, left, e', hpending, hleft⟩ := h
  refine ⟨fault, left, (bind_eq e).trans e', ?_, hleft.trans hprevious⟩
  rcases hpending with h | h
  · exact .inl h
  · rw [h]
    exact hp

theorem fails_raise (fault : Fault) : Fails (raise fault : Scan α) k :=
  ⟨fault, k.close, rfl, .inr k.pending_close, k.previous_close⟩

theorem fails_unexpectedCharacter (c : Char) (expected : String) :
    Fails (unexpectedCharacter c expected : Scan α) k :=
  fails_raise _

theorem fails_invalidForm (production value : String) :
    Fails (invalidForm production value : Scan α) k :=
  fails_raise _

/-- A source that was broken off is a fault; otherwise reading goes on. -/
theorem failIfBroken_cases (k : Cursor) :
    Fails failIfBroken k ∨ failIfBroken k = .ok () k := by
  cases hmet : k.source.met with
  | none => exact .inr (failIfBroken_unmet hmet)
  | some cause =>
    left
    rw [Fails, failIfBroken_met hmet]
    exact ⟨_, _, rfl, .inr (Cursor.pending_close _), Cursor.previous_close _⟩

theorem fails_unexpectedEnd (expected : String) : Fails (unexpectedEnd expected : Scan α) k := by
  rcases failIfBroken_cases k with h | h
  · exact h.bind
  · exact Fails.behind (fails_raise _) h (.inr rfl) rfl

section Iterate

variable {σ : Type} {turn : σ → Scan (Turn σ α)} {h : ∀ s, Advances (turn s)} {s s' : σ}

theorem fails_turn (ht : Fails (turn s) k) : Fails (iterate turn h s) k := by
  rw [iterate_eq]
  exact ht.bind

theorem fails_again (e : turn s k = .ok (.again s') mid)
    (hp : mid.pending = none ∨ mid.pending = k.pending) (hprevious : mid.previous = k.previous)
    (hi : Fails (iterate turn h s') mid) : Fails (iterate turn h s) k := by
  rw [iterate_eq]
  refine Fails.behind ?_ e hp hprevious
  exact hi

end Iterate

/-- The scan fails, or it makes the token after all text. -/
def Halts (m : Scan Token) (k : Cursor) : Prop :=
  Fails m k ∨ ∃ t left, m k = .ok t left ∧ t.kind = .ending

theorem Halts.behind {m : Scan α} {f : α → Scan Token} {a : α} (h : Halts (f a) mid)
    (e : m k = .ok a mid) (hp : mid.pending = none ∨ mid.pending = k.pending)
    (hprevious : mid.previous = k.previous) : Halts (m >>= f) k := by
  rcases h with h | ⟨t, left, e', ht⟩
  · exact .inl (h.behind e hp hprevious)
  · exact .inr ⟨t, left, (bind_eq e).trans e', ht⟩

theorem halts_ending (expected : String) (hb : k.Begun) : Halts (ending expected) k := by
  have hempty : k.isEmpty = true := by
    rw [Cursor.isEmpty, hb.written]
    rfl
  have hget : (get : Scan Cursor) k = .ok k k := rfl
  refine Halts.behind ?_ hget (.inr rfl) rfl
  rw [if_pos hempty]
  rcases failIfBroken_cases k with h | h
  · exact .inl h.bind
  · exact Halts.behind (.inr ⟨_, _, rfl, rfl⟩) h (.inr rfl) rfl

end Failing

/-! ## Readers where nothing is left -/

section Readers

variable {k : Cursor}

theorem look_released (h : k.source.IsReleased) : look k = .ok k.pending k := by
  rw [look_eq, Cursor.ahead_released h, Cursor.looked_released h]
  cases k.pending <;> rfl

theorem fails_look {α : Type} {f : Option Char → Scan α} (hr : k.source.IsReleased)
    (h : Fails (f k.pending) k) : Fails (look >>= f) k :=
  h.behind (look_released hr) (.inr rfl) rfl

theorem look_bind_released {α : Type} {f : Option Char → Scan α} (h : k.source.IsReleased) :
    (look >>= f) k = f k.pending k :=
  bind_eq (look_released h)

theorem discardBlank_drained (h : k.Drained) : discardBlank k = .ok () k.fresh := by
  have hturn : blankTurn () k = .ok (.done ()) k := by
    unfold blankTurn
    rw [look_bind_released h.released]
    rcases h.pending with hp | hp <;> rw [hp] <;> rfl
  have hblanks : iterate blankTurn advances_blankTurn () k = .ok () k := by
    rw [iterate_eq, bind_eq hturn]
    rfl
  exact bind_eq hblanks

theorem discardSpaces_drained (h : k.Drained) : Table.Tsv.discardSpaces k = .ok () k.fresh := by
  have hturn : skipTurn (· == ' ') () k = .ok (.done ()) k := by
    unfold skipTurn
    rw [look_bind_released h.released]
    rcases h.pending with hp | hp <;> rw [hp] <;> rfl
  have hspaces : skipWhile (· == ' ') k = .ok () k := by
    unfold skipWhile
    rw [iterate_eq, bind_eq hturn]
    rfl
  exact bind_eq hspaces

/-- The dot that waits is taken into the token. -/
theorem consume_drained (h : k.Drained) (hp : k.pending = some '.') :
    ∃ left, consume k = .ok '.' left ∧ left.written = ['.'] ∧ left.source = k.source ∧
      left.pending = none ∧ left.previous = k.previous := by
  have hahead : k.ahead = ['.'] := by
    rw [Cursor.ahead_released h.released, hp]
    rfl
  have htaken : k.taken = { k with pending := none } := by
    unfold Cursor.taken
    rw [hp]
  refine ⟨_, consume_cons hahead, ?_, ?_, ?_, ?_⟩
  · show '.' :: k.taken.written = ['.']
    rw [htaken]
    exact congrArg _ h.begun.written
  · show k.taken.source = k.source
    rw [htaken]
  · show k.taken.pending = none
    rw [htaken]
  · show k.taken.previous = k.previous
    rw [htaken]

/-- A dot as a token of its own. -/
def BringsDot (m : Scan Token) (k : Cursor) : Prop :=
  ∃ t left, m k = .ok t left ∧ t.content = (.dot, ".") ∧ left.pending = none

theorem BringsDot.behind {α : Type} {m : Scan α} {f : α → Scan Token} {a : α} {mid : Cursor}
    (h : BringsDot (f a) mid) (e : m k = .ok a mid) : BringsDot (m >>= f) k := by
  obtain ⟨t, left, e', hleft⟩ := h
  exact ⟨t, left, (bind_eq e).trans e', hleft⟩

theorem bringsDot_emit (hw : k.written = ['.']) (hp : k.pending = none) :
    BringsDot (emit .dot) k := by
  refine ⟨⟨.dot, k.text, k.span⟩, { k with written := [], previous := some .dot }, rfl, ?_, hp⟩
  show (Kind.dot, String.ofList k.written.reverse) = _
  rw [hw]
  rfl

theorem bringsDot_single (h : k.Drained) (hp : k.pending = some '.') :
    BringsDot (single .dot) k := by
  obtain ⟨mid, e, hw, -, hpending, -⟩ := consume_drained h hp
  refine BringsDot.behind ?_ e
  exact bringsDot_emit hw hpending

/-- No digit follows the dot, so it begins no number. -/
theorem bringsDot_dotOrNumber (readNumber : Scan Token) (h : k.Drained)
    (hp : k.pending = some '.') : BringsDot (dotOrNumber readNumber) k := by
  obtain ⟨mid, e, hw, hsource, hpending, -⟩ := consume_drained h hp
  refine BringsDot.behind ?_ e
  refine BringsDot.behind ?_ (look_released (by rw [hsource]; exact h.released))
  rw [hpending]
  exact bringsDot_emit hw hpending

/-! ### Tokens that must follow another one -/

theorem fails_prefixTurns (hr : k.source.IsReleased) (hp : k.pending = none) :
    Fails (iterate prefixTurn advances_prefixTurn ()) k := by
  refine fails_turn (fails_look hr ?_)
  rw [hp]
  exact fails_unexpectedEnd _

theorem fails_prefixName (h : k.Drained) : Fails prefixName k := by
  refine Fails.behind (Fails.bind ?_) (discardBlank_drained h) (.inr rfl) rfl
  have hfresh := h.fresh
  rcases hfresh.pending with hp | hp
  · exact fails_prefixTurns hfresh.released hp
  · obtain ⟨mid, e, -, hsource, hpending, hprevious⟩ := consume_drained hfresh hp
    have hturn : prefixTurn () k.fresh = .ok (.again ()) mid := by
      unfold prefixTurn
      rw [look_bind_released hfresh.released, hp]
      dsimp only
      rw [if_neg (by decide), bind_eq e]
      rfl
    refine fails_again hturn (.inl hpending) hprevious ?_
    exact fails_prefixTurns (by rw [hsource]; exact hfresh.released) hpending

theorem fails_datatype (rule : Name.Rule) (h : k.Drained) : Fails (datatype rule) k := by
  refine Fails.behind (fails_look h.fresh.released ?_) (discardBlank_drained h) (.inr rfl) rfl
  rcases h.fresh.pending with hp | hp
  · rw [hp]
    exact fails_unexpectedEnd _
  · rw [hp]
    dsimp only
    rw [if_neg (by decide), if_pos (by simp)]
    exact fails_unexpectedCharacter _ _

theorem fails_lineDatatype (h : k.Drained) : Fails Graph.LineFormat.datatype k := by
  refine Fails.behind (fails_look h.fresh.released ?_) (discardBlank_drained h) (.inr rfl) rfl
  rcases h.fresh.pending with hp | hp
  · rw [hp]
    exact fails_unexpectedEnd _
  · rw [hp]
    exact fails_unexpectedCharacter _ _

/-- A declaration of keywords wants its dot. -/
theorem fails_declaration (h : k.Drained) (hp : k.pending = none) :
    Fails Graph.Notation3.declaration k := by
  refine Fails.bind (fails_turn (fails_look h.released ?_))
  rw [hp]
  exact fails_unexpectedEnd _

theorem bringsDot_declaration (h : k.Drained) (hp : k.pending = some '.') :
    BringsDot Graph.Notation3.declaration k := by
  have hturn : Graph.Notation3.gapTurn () k = .ok (.done ()) k := by
    unfold Graph.Notation3.gapTurn
    rw [look_bind_released h.released, hp]
    rfl
  have hgap : iterate Graph.Notation3.gapTurn Graph.Notation3.advances_gapTurn () k =
      .ok () k := by
    rw [iterate_eq, bind_eq hturn]
    rfl
  have hnext : nextOrEnd k.fresh = .ok '.' k.fresh := by
    unfold nextOrEnd
    rw [look_bind_released h.fresh.released, show k.fresh.pending = some '.' from hp]
    rfl
  have hstart : startToken k = .ok () k.fresh := rfl
  refine BringsDot.behind ?_ hgap
  refine BringsDot.behind ?_ hstart
  refine BringsDot.behind ?_ hnext
  rw [if_pos (by decide)]
  exact bringsDot_single h.fresh hp

/-! ### Where a dot stands that is no token -/

/-- A dot alone is no number, and is given back again. -/
theorem fails_number (h : k.Drained) (hp : k.pending = some '.') : Fails number k := by
  obtain ⟨mid, e, hw, hsource, hpending, hprevious⟩ := consume_drained h hp
  have hvalue : k.value.contains '.' = false := by
    rw [Cursor.value, h.begun.written]
    rfl
  have htake : numberTurn ⟨false, false, false⟩ k = .ok (.again ⟨true, false, false⟩) mid := by
    unfold numberTurn
    rw [look_bind_released h.released, hp]
    exact bind_eq e
  have hend : numberTurn ⟨true, false, false⟩ mid = .ok (.done ()) mid := by
    unfold numberTurn
    rw [look_bind_released (by rw [hsource]; exact h.released), hpending]
    rfl
  have hturns : iterate numberTurn advances_numberTurn ⟨false, false, false⟩ k = .ok () mid := by
    rw [iterate_eq, bind_eq htake]
    dsimp only
    rw [iterate_eq, bind_eq hend]
    rfl
  have hback : giveBackDot mid = .ok () (mid.givenBack '.' []) := by
    unfold giveBackDot
    rw [get_bind, Cursor.endsWith, hw, if_pos (by decide)]
    unfold backtrack
    rw [get_bind, hpending, hw]
    rfl
  let back := mid.givenBack '.' []
  have hnone : Number.isPlainLiteral back.value = false := rfl
  have hfails : Fails (invalidForm "Plain Literal" back.text : Scan Token) back :=
    fails_invalidForm _ _
  obtain ⟨fault, left, e', hleft, hkept⟩ := hfails
  refine ⟨fault, left, ?_, by rwa [hp], hkept.trans hprevious⟩
  unfold number
  rw [get_bind, hvalue, bind_eq hturns, bind_eq hback, get_bind, if_neg (by rw [hnone]; decide)]
  exact e'

/-- The prologue of a query has words only. -/
theorem fails_prologue (q : Query.Sparql) (previous : Option Kind) (h : k.Drained)
    (hp : k.pending = some '.') : Fails (q.prologue previous '.') k := by
  have hword : consumeWhile Unicode.isAlphabetic k = .ok () k := by
    have halpha : ¬ Unicode.isAlphabetic '.' = true := by
      rw [Unicode.isAlphabetic_ascii (by decide)]
      decide
    have hturn : consumeTurn Unicode.isAlphabetic () k = .ok (.done ()) k := by
      unfold consumeTurn
      rw [look_bind_released h.released, hp]
      dsimp only
      rw [if_neg halpha]
      rfl
    unfold consumeWhile
    rw [iterate_eq, bind_eq hturn]
    rfl
  have hempty : k.isEmpty = true := by
    rw [Cursor.isEmpty, h.begun.written]
    rfl
  unfold Query.Sparql.prologue
  rw [if_neg (by decide), if_neg (by decide)]
  refine Fails.behind ?_ hword (.inr rfl) rfl
  show Fails (if k.isEmpty = true then _ else _) k
  rw [if_pos hempty]
  exact fails_unexpectedCharacter _ _

end Readers

end Scan

/-! ## Machines where nothing is left -/

namespace Machine

open Scan TripleLex.Graph

variable {m : Machine} {k : Cursor} {kind : Kind}

/-- What comes of reading a token where nothing is left but maybe a dot. -/
structure Finishes (m : Machine) (kind : Kind) (k : Cursor) : Prop where
  halts : k.pending = none → Halts (m.read (some kind)) k
  fails : k.pending = some '.' → m.givesBack = true → m.readsDot kind = false →
    Fails (m.read (some kind)) k
  brings : k.pending = some '.' → m.readsDot kind = true → BringsDot (m.read (some kind)) k

/-- A token that must follow the one before is missing. -/
theorem finishes_of_fails (h : Fails (m.read (some kind)) k) (hdot : m.readsDot kind = false) :
    m.Finishes kind k :=
  ⟨fun _ => .inl h, fun _ _ _ => h, fun _ hr => absurd hr (Bool.eq_false_iff.1 hdot)⟩

/-- A token is begun by its first character, which a dot may be. -/
theorem finishes_of_dispatch {discard : Scan Unit} {dispatch : Char → Scan Token}
    (h : k.Drained) (hdiscard : discard k = .ok () k.fresh)
    (hread : m.read (some kind) = discard >>= fun _ => tokenHere dispatch)
    (hfails : k.fresh.pending = some '.' → m.readsDot kind = false → Fails (dispatch '.') k.fresh)
    (hbrings : k.fresh.pending = some '.' → m.readsDot kind = true →
      BringsDot (dispatch '.') k.fresh) : m.Finishes kind k := by
  have hlook : look k.fresh = .ok k.pending k.fresh := look_released h.fresh.released
  constructor <;> rw [hread]
  · intro hp
    refine Halts.behind ?_ hdiscard (.inr rfl) rfl
    refine Halts.behind ?_ hlook (.inr rfl) rfl
    rw [hp]
    exact halts_ending "Token" h.fresh.begun
  · intro hp _ hr
    refine Fails.behind ?_ hdiscard (.inr rfl) rfl
    refine Fails.behind ?_ hlook (.inr rfl) rfl
    rw [hp]
    exact hfails hp hr
  · intro hp hr
    refine BringsDot.behind ?_ hdiscard
    refine BringsDot.behind ?_ hlook
    rw [hp]
    exact hbrings hp hr

theorem finishes_lines (format : LineFormat) (hkind : kind ≠ .ending) (h : k.Drained) :
    (lines format).Finishes kind k := by
  by_cases hhat : kind = .hatHat
  · subst hhat
    exact finishes_of_fails (fails_lineDatatype h) rfl
  · refine finishes_of_dispatch h (discardBlank_drained h) (LineFormat.read_eq hhat) ?_ ?_
    · intro _ hr
      simp [readsDot, hkind, hhat] at hr
    · exact fun hp _ => bringsDot_single h.fresh hp

theorem finishes_turtle (rules : Turtle) (hkind : kind ≠ .ending) (h : k.Drained) :
    (turtle rules).Finishes kind k := by
  by_cases hhat : kind = .hatHat
  · subst hhat
    exact finishes_of_fails (fails_datatype _ h) rfl
  by_cases hdirective : kind = .prefixDirective
  · subst hdirective
    exact finishes_of_fails (fails_prefixName h) rfl
  refine finishes_of_dispatch h (discardBlank_drained h) (Turtle.read_eq hhat hdirective) ?_ ?_
  · intro _ hr
    simp [readsDot, hkind, hhat, hdirective] at hr
  · exact fun hp _ => bringsDot_dotOrNumber number h.fresh hp

theorem finishes_n3 (v : Vocabulary) (hkind : kind ≠ .ending) (h : k.Drained) :
    (n3 v).Finishes kind k := by
  by_cases hv : v.isReading = true
  · have hread : (n3 v).read (some kind) = Notation3.declaration := if_pos hv
    constructor
    · intro hp
      rw [hread]
      exact .inl (fails_declaration h hp)
    · intro _ _ hr
      simp [readsDot, hkind, hv] at hr
    · intro hp _
      rw [hread]
      exact bringsDot_declaration h hp
  rw [Bool.not_eq_true] at hv
  by_cases hhat : kind = .hatHat
  · subst hhat
    have hread : (n3 v).read (some .hatHat) = datatype .recommendation :=
      if_neg (by rw [hv]; decide)
    refine finishes_of_fails ?_ (by simp [readsDot, hv])
    rw [hread]
    exact fails_datatype _ h
  by_cases hdirective : kind = .prefixDirective
  · subst hdirective
    have hread : (n3 v).read (some .prefixDirective) = prefixName :=
      if_neg (by rw [hv]; decide)
    refine finishes_of_fails ?_ (by simp [readsDot, hv])
    rw [hread]
    exact fails_prefixName h
  refine finishes_of_dispatch h (discardBlank_drained h)
    (Notation3.read_eq hv hhat hdirective) ?_ ?_
  · intro _ hr
    simp [readsDot, hkind, hhat, hdirective] at hr
  · exact fun hp _ => bringsDot_dotOrNumber number h.fresh hp

theorem finishes_sparql (q : Query.Sparql) (hkind : kind ≠ .ending) (h : k.Drained) :
    (sparql q).Finishes kind k := by
  by_cases hhat : kind = .hatHat
  · subst hhat
    exact finishes_of_fails (fails_datatype _ h) (by simp [readsDot])
  by_cases hdirective : kind = .prefixDirective
  · subst hdirective
    exact finishes_of_fails (fails_prefixName h) (by simp [readsDot])
  refine finishes_of_dispatch h (discardBlank_drained h)
    (Query.Sparql.read_eq hhat hdirective) ?_ ?_
  · intro hp hr
    have hbody : q.progress.inBody = false := by
      simpa [readsDot, hkind, hhat, hdirective] using hr
    rw [if_neg (by rw [hbody]; decide)]
    exact fails_prologue q _ h.fresh hp
  · intro hp hr
    have hbody : q.progress.inBody = true := by
      simpa [readsDot, hkind, hhat, hdirective] using hr
    rw [if_pos hbody]
    exact bringsDot_dotOrNumber q.numberOrSign h.fresh hp

theorem finishes_tsv (h : k.Drained) : tsv.Finishes kind k := by
  by_cases hhat : kind = .hatHat
  · subst hhat
    exact finishes_of_fails (fails_datatype _ h) rfl
  refine finishes_of_dispatch h (discardSpaces_drained h) (Table.Tsv.read_eq hhat) ?_ ?_
  · exact fun hp _ => fails_number h.fresh hp
  · exact fun _ hr => absurd hr Bool.false_ne_true

theorem finishes_csv (h : k.Drained) : csv.Finishes kind k := by
  refine ⟨fun hp => ?_, nofun, nofun⟩
  refine Halts.behind ?_ (look_released h.released) (.inr rfl) rfl
  rw [hp]
  exact halts_ending "Token" h.begun

theorem finishes (m : Machine) (hkind : kind ≠ .ending) (h : k.Drained) : m.Finishes kind k := by
  cases m with
  | lines format => exact finishes_lines format hkind h
  | turtle rules => exact finishes_turtle rules hkind h
  | n3 v => exact finishes_n3 v hkind h
  | sparql q => exact finishes_sparql q hkind h
  | csv => exact finishes_csv h
  | tsv => exact finishes_tsv h

end Machine

/-! ## Calls where nothing is left -/

namespace Lexer

open Input (Source)
open Scan Cursor

variable {l l' : Lexer} {settings : Settings} {source : Source}

/-- Whether a dot was given back that the next call reads as a token. -/
def awaitsDot (l : Lexer) : Bool :=
  l.cursor.pending == some '.' && l.cursor.previous.any l.machine.readsDot

/-- No character was given back but a dot, by rules that give one back. -/
def Waits (l : Lexer) : Prop :=
  l.cursor.pending = none ∨ (l.machine.givesBack = true ∧ l.cursor.pending = some '.')

/-- What holds of a lexer from its first fault on. -/
structure Stopped (l : Lexer) : Prop where
  released : l.cursor.source.IsReleased
  begun : l.cursor.previous ≠ none
  waits : l.Waits

theorem awaitsDot_eq_false_of_none (h : l.cursor.pending = none) : l.awaitsDot = false := by
  rw [awaitsDot, h]
  rfl

theorem givesBack_after (m : Machine) (t : Token) : (m.after t).givesBack = m.givesBack := by
  cases m <;> rfl

/-- Whatever a call comes to, a cursor that retains what there was stands behind it, and
closing that changes neither what waits nor what was read before. -/
theorem next_retains (l : Lexer) : l.next.2.machine.givesBack = l.machine.givesBack ∧
    ∃ k, l.cursor.Retains l.machine.givesBack k ∧ l.next.2.cursor.pending = k.pending ∧
      l.next.2.cursor.previous = k.previous ∧
      (k.source.IsReleased → l.next.2.cursor.source.IsReleased) := by
  cases hi : l.next.1 with
  | ok t =>
    have e : l.next = (.ok t, l.next.2) := Prod.ext hi rfl
    refine ⟨?_, _, retains_of_next e, rfl, rfl, id⟩
    rw [(next_ok e).2, givesBack_after]
  | error fault =>
    obtain ⟨hmachine, k, hk, hclose⟩ := closed_of_next (Prod.ext hi rfl)
    rw [hmachine, hclose]
    exact ⟨rfl, k, hk, k.pending_close, k.previous_close, isReleased_close⟩

/-- One call. -/
theorem Waits.next (h : l.Waits) : l.next.2.Waits := by
  obtain ⟨hmachine, k, hk, hpending, -, -⟩ := l.next_retains
  rw [Waits, hmachine, hpending]
  rcases hk.pending with hp | hp | hp
  · exact .inl hp
  · rw [hp]
    exact h
  · exact .inr hp

/-- Any number of calls. -/
theorem Waits.behind (n : Nat) (h : l.Waits) : (l.behind n).Waits := by
  induction n generalizing l with
  | zero => exact h
  | succ n ih => exact ih h.next

theorem exists_fault {item : Item} (h : isFault item = true) : ∃ fault, item = .error fault := by
  cases item with
  | ok t => cases h
  | error fault => exact ⟨fault, rfl⟩

theorem begun_of_fault {fault : Fault} (e : l.next = (.error fault, l')) :
    l.cursor.previous ≠ none := by
  intro hp
  rw [next_beginning hp] at e
  cases e

/-- A call leaves a lexer stopped, whatever it comes to. -/
theorem Stopped.next (h : l.Stopped) : l.next.2.Stopped := by
  obtain ⟨-, k, hk, -, hprevious, hreleased⟩ := l.next_retains
  refine ⟨hreleased (hk.released h.released), ?_, h.waits.next⟩
  rw [hprevious]
  exact hk.previous h.begun

/-- Every fault stops a lexer. -/
theorem stopped_of_fault {n : Nat} {fault : Fault}
    (e : ((ofSource settings source).behind n).next = (.error fault, l')) : l'.Stopped := by
  obtain ⟨-, k, hk, -, hprevious, -⟩ := ((ofSource settings source).behind n).next_retains
  have hstanding := (standing_behind settings source n).next
  have hwaits : (ofSource settings source).Waits := .inl rfl
  have hnext := (hwaits.behind n).next
  rw [e] at hprevious hstanding hnext
  refine ⟨hstanding.released (Bool.or_true _), ?_, hnext⟩
  rw [hprevious]
  exact hk.previous (begun_of_fault e)

theorem Stopped.drained (h : l.Stopped) : l.cursor.fresh.Drained := by
  refine ⟨h.released, begun_fresh _, ?_⟩
  rcases h.waits with hp | ⟨-, hp⟩
  · exact .inl hp
  · exact .inr hp

/-- One call, where no dot waits that is read: there is still none if it fails. -/
theorem Stopped.next_silent (h : l.Stopped) (hdot : l.awaitsDot = false) :
    (∃ t l', l.next = (.ok t, l') ∧ t.kind = .ending) ∨
      ∃ fault l', l.next = (.error fault, l') ∧ l'.awaitsDot = false := by
  obtain ⟨kind, hp⟩ := Option.ne_none_iff_exists'.1 h.begun
  by_cases hkind : kind = .ending
  · subst hkind
    exact .inl ⟨_, _, Prod.ext (next_of_atEnd hp).1 rfl, rfl⟩
  have hfinishes := l.machine.finishes hkind h.drained
  have hhalts : Halts (l.machine.read (some kind)) l.cursor.fresh := by
    rcases h.waits with hnone | ⟨hback, hpending⟩
    · exact hfinishes.halts hnone
    · have hread : l.machine.readsDot kind = false := by
        simpa [awaitsDot, hp, hpending] using hdot
      exact .inl (hfinishes.fails hpending hback hread)
  rcases hhalts with ⟨fault, left, e, hpending, hprevious⟩ | ⟨t, left, e, ht⟩
  · refine .inr ⟨_, _, next_of_fails hp hkind e, ?_⟩
    rcases hpending with hnone | hkept
    · exact awaitsDot_eq_false_of_none hnone
    · have hfresh : l.cursor.fresh.pending = l.cursor.pending := rfl
      have hbefore : l.cursor.fresh.previous = l.cursor.previous := rfl
      rw [awaitsDot, hkept, hprevious, hfresh, hbefore]
      exact hdot
  · exact .inl ⟨_, _, next_of_read hp hkind e, ht⟩

/-- Any number of calls, where no dot waits that is read. -/
theorem Stopped.silent {n : Nat} {step : Item × Lexer} (h : l.Stopped)
    (hdot : l.awaitsDot = false) (hs : step ∈ l.steps n) : isLast step.1 = true := by
  induction n generalizing l with
  | zero => cases hs
  | succ n ih =>
    rw [steps, List.mem_cons] at hs
    rcases h.next_silent hdot with ⟨t, l', e, ht⟩ | ⟨fault, l', e, hdot'⟩
    · have hlast : isLast (.ok t) = true := beq_iff_eq.2 ht
      rw [e] at hs
      rcases hs with rfl | hs
      · exact hlast
      · rw [steps_after_ending e ht hs]
        exact hlast
    · have hnext := h.next
      rw [e] at hs hnext
      rcases hs with rfl | hs
      · rfl
      · exact ih hnext hdot' hs

/-- A dot that waits and is read comes next. -/
theorem Stopped.next_dot (h : l.Stopped) (hdot : l.awaitsDot = true) :
    ∃ t l', l.next = (.ok t, l') ∧ t.content = (.dot, ".") ∧ l'.cursor.pending = none := by
  obtain ⟨kind, hp⟩ := Option.ne_none_iff_exists'.1 h.begun
  obtain ⟨hpending, hread⟩ : l.cursor.pending = some '.' ∧ l.machine.readsDot kind = true := by
    simpa [awaitsDot, hp] using hdot
  have hkind : kind ≠ .ending := by
    rintro rfl
    rw [Machine.readsDot_ending] at hread
    cases hread
  obtain ⟨t, left, e, ht, hleft⟩ := (l.machine.finishes hkind h.drained).brings hpending hread
  exact ⟨t, _, next_of_read hp hkind e, ht, hleft⟩

/-- After a fault every call comes to a fault or to the token after all text, exactly
if no dot waits that is read as a token. If one does, the next call reads it, and
every later one comes to a fault or to the token after all text. -/
theorem silent_after_faults (settings : Settings) (source : Source) (n : Nat) (fault : Fault)
    (l : Lexer) (e : ((ofSource settings source).behind n).next = (.error fault, l)) :
    ((∀ m, ∀ step ∈ l.steps m, isLast step.1 = true) ↔ l.awaitsDot = false) ∧
    (l.awaitsDot = true → ∃ t l', l.next = (.ok t, l') ∧ t.content = (.dot, ".") ∧
      ∀ m, ∀ step ∈ l'.steps m, isLast step.1 = true) := by
  have hstopped := stopped_of_fault e
  have hdot : l.awaitsDot = true → ∃ t l', l.next = (.ok t, l') ∧ t.content = (.dot, ".") ∧
      ∀ m, ∀ step ∈ l'.steps m, isLast step.1 = true := by
    intro hdot
    obtain ⟨t, l', e', ht, hnone⟩ := hstopped.next_dot hdot
    have hnext := hstopped.next
    rw [e'] at hnext
    exact ⟨t, l', e', ht, fun m step hs => hnext.silent (awaitsDot_eq_false_of_none hnone) hs⟩
  refine ⟨⟨fun hsilent => ?_, fun hnone m step hs => hstopped.silent hnone hs⟩, hdot⟩
  cases hawaits : l.awaitsDot with
  | false => rfl
  | true =>
    obtain ⟨t, l', e', ht, -⟩ := hdot hawaits
    have hlast := hsilent 1 l.next (List.mem_singleton_self _)
    rw [e'] at hlast
    have hending : t.kind = .ending := beq_iff_eq.1 hlast
    have hkind : t.kind = .dot := congrArg Prod.fst ht
    rw [hkind] at hending
    cases hending

/-- A name without a colon is a fault; the dot behind it is read by the next call. -/
theorem silent_after_faults_name : ∃ source : Source, ∃ fault l,
    ((ofSource .standard source).behind 1).next = (.error fault, l) ∧ l.awaitsDot = true ∧
      ¬ (∀ m, ∀ step ∈ l.steps m, isLast step.1 = true) ∧
      ∃ t l', l.next = (.ok t, l') ∧ t.content = (.dot, ".") ∧
        ∀ m, ∀ step ∈ l'.steps m, isLast step.1 = true := by
  refine ⟨.ofText "foo.", ?_⟩
  have hafter := silent_after_faults .standard (.ofText "foo.") 1
  have hfault : isFault ((ofSource .standard (.ofText "foo.")).behind 1).next.1 = true := by
    decide +kernel
  have hdot : ((ofSource .standard (.ofText "foo.")).behind 1).next.2.awaitsDot = true := by
    decide +kernel
  generalize (ofSource .standard (.ofText "foo.")).behind 1 = before at hafter hfault hdot ⊢
  obtain ⟨fault, hitem⟩ := exists_fault hfault
  obtain ⟨hsilent, hbrings⟩ := hafter fault before.next.2 (Prod.ext hitem rfl)
  refine ⟨fault, before.next.2, Prod.ext hitem rfl, hdot, fun h => ?_, hbrings hdot⟩
  rw [hsilent.1 h] at hdot
  cases hdot

/-- Behind the same fault it is not the token after all text that comes. -/
theorem not_silent_after_name :
    ¬ ∀ (settings : Settings) (text : String) (n : Nat) (fault : Fault) (l : Lexer),
      ((ofText settings text).behind n).next = (.error fault, l) →
        ∀ m, ∀ step ∈ l.steps m, isLast step.1 = true := by
  intro h
  have hafter := h .standard "foo." 1
  have hfault : isFault ((ofText .standard "foo.").behind 1).next.1 = true := by decide +kernel
  have hitem : isLast ((ofText .standard "foo.").behind 1).next.2.next.1 = false := by
    decide +kernel
  generalize (ofText .standard "foo.").behind 1 = before at hafter hfault hitem
  obtain ⟨fault, hfault⟩ := exists_fault hfault
  have hlast := hafter fault before.next.2 (Prod.ext hfault rfl) 1 _ (List.mem_singleton_self _)
  rw [hitem] at hlast
  cases hlast

end Lexer

end TripleLex

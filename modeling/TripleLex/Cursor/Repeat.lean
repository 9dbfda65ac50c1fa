import TripleLex.Cursor.Scan

/-!
# Repeated scans

A repetition takes turns until one is the last. It ends because every turn but
the last leaves less ahead, which the caller shows of the turn (`Advances`); the
proof is put together from what each single step spends (`Spends`), in the order
in which the steps are put together.

Main statement: `iterate_eq` unfolds a repetition by one turn.
-/

namespace TripleLex.Scan

/-! ## What a scan spends -/

/-- A scan that never leaves more ahead, and leaves less where its value
satisfies `p`. -/
def Spends {α : Type} (p : α → Prop) (m : Scan α) : Prop :=
  ∀ k a left, m k = .ok a left →
    left.ahead.length ≤ k.ahead.length ∧ (p a → left.ahead.length < k.ahead.length)

/-- A scan that never leaves more ahead. -/
def Keeps {α : Type} (m : Scan α) : Prop := Spends (fun _ => False) m

/-- A scan that always leaves less ahead. -/
def Takes {α : Type} (m : Scan α) : Prop := Spends (fun _ => True) m

section Rules

variable {α β : Type} {p : α → Prop} {q : β → Prop}

theorem Spends.keeps {m : Scan α} (h : Spends p m) : Keeps m :=
  fun k a left e => ⟨(h k a left e).1, False.elim⟩

theorem Takes.spends {m : Scan α} (h : Takes m) : Spends p m :=
  fun k a left e => ⟨(h k a left e).1, fun _ => (h k a left e).2 trivial⟩

theorem bind_ok {m : Scan α} {f : α → Scan β} {k left : Cursor} {b : β}
    (h : (m >>= f) k = .ok b left) : ∃ a mid, m k = .ok a mid ∧ f a mid = .ok b left := by
  simp only [bind, EStateM.bind] at h
  split at h
  · exact ⟨_, _, by assumption, h⟩
  · cases h

/-- After a scan that keeps, what follows decides. -/
theorem Keeps.bind {m : Scan α} {f : α → Scan β} (h : Keeps m) (g : ∀ a, Spends q (f a)) :
    Spends q (m >>= f) := by
  intro k b left e
  obtain ⟨a, mid, e₁, e₂⟩ := bind_ok e
  have h₁ := (h k a mid e₁).1
  have h₂ := g a mid b left e₂
  exact ⟨by omega, fun hq => by have := h₂.2 hq; omega⟩

/-- After a scan that takes, what follows has only to keep. -/
theorem Takes.bind {m : Scan α} {f : α → Scan β} (h : Takes m) (g : ∀ a, Keeps (f a)) :
    Spends q (m >>= f) := by
  intro k b left e
  obtain ⟨a, mid, e₁, e₂⟩ := bind_ok e
  have h₁ := (h k a mid e₁).2 trivial
  have h₂ := (g a mid b left e₂).1
  exact ⟨by omega, fun _ => by omega⟩

/-- What follows has to keep where the first scan has spent, and otherwise
decides. -/
theorem Spends.bind {m : Scan α} {f : α → Scan β} (h : Spends p m)
    (g : ∀ a, p a → Keeps (f a)) (g' : ∀ a, ¬ p a → Spends q (f a)) : Spends q (m >>= f) := by
  intro k b left e
  obtain ⟨a, mid, e₁, e₂⟩ := bind_ok e
  have h₁ := h k a mid e₁
  by_cases hp : p a
  · have h₂ := g a hp mid b left e₂
    have := h₁.2 hp
    exact ⟨by omega, fun _ => by omega⟩
  · have h₂ := g' a hp mid b left e₂
    exact ⟨by omega, fun hq => by have := h₂.2 hq; omega⟩

/-- A value that does not satisfy the condition may be had for nothing. -/
theorem spends_pure {a : α} (h : ¬ p a) : Spends p (pure a : Scan α) := by
  intro k b left e
  simp only [pure, EStateM.pure, EStateM.Result.ok.injEq] at e
  obtain ⟨rfl, rfl⟩ := e
  exact ⟨Nat.le_refl _, fun hp => absurd hp h⟩

theorem keeps_pure (a : α) : Keeps (pure a : Scan α) := spends_pure id

theorem spends_raise (fault : Fault) : Spends p (raise fault : Scan α) := by
  intro k a left e
  cases e

theorem keeps_get : Keeps (get : Scan Cursor) := by
  intro k a left e
  cases e
  exact ⟨Nat.le_refl _, False.elim⟩

theorem keeps_modify {f : Cursor → Cursor} (h : ∀ k, (f k).ahead.length ≤ k.ahead.length) :
    Keeps (modify f : Scan Unit) := by
  intro k a left e
  cases e
  exact ⟨h k, False.elim⟩

theorem keeps_takeFailure : Keeps takeFailure := by
  intro k a left e
  simp only [takeFailure, EStateM.Result.ok.injEq] at e
  obtain ⟨-, rfl⟩ := e
  exact ⟨Nat.le_refl _, False.elim⟩

theorem keeps_failIfBroken : Keeps failIfBroken := by
  refine keeps_takeFailure.bind fun cause => ?_
  split
  · exact spends_raise _
  · exact keeps_pure _

theorem spends_exhausted : Spends p (exhausted : Scan α) :=
  keeps_failIfBroken.bind fun _ => keeps_get.bind fun _ => spends_raise _

theorem spends_violation (message : String) : Spends p (violation message : Scan α) :=
  keeps_get.bind fun _ => spends_raise _

theorem spends_unexpectedCharacter (c : Char) (expected : String) :
    Spends p (unexpectedCharacter c expected : Scan α) :=
  keeps_get.bind fun _ => spends_raise _

theorem spends_unexpectedEnd (expected : String) :
    Spends p (unexpectedEnd expected : Scan α) :=
  keeps_failIfBroken.bind fun _ => keeps_get.bind fun _ => spends_raise _

theorem spends_unexpectedLineEnd (expected : String) :
    Spends p (unexpectedLineEnd expected : Scan α) :=
  keeps_get.bind fun _ => spends_raise _

theorem spends_malformedEscape (message : String) :
    Spends p (malformedEscape message : Scan α) :=
  keeps_get.bind fun _ => spends_raise _

theorem spends_malformedUnicodeEscape (message : String) :
    Spends p (malformedUnicodeEscape message : Scan α) :=
  keeps_get.bind fun _ => spends_raise _

theorem spends_misuse (message : String) : Spends p (misuse message : Scan α) :=
  keeps_get.bind fun _ => spends_raise _

theorem keeps_look : Keeps look := by
  intro k a left e
  simp only [look, EStateM.Result.ok.injEq] at e
  obtain ⟨-, rfl⟩ := e
  exact ⟨by simp, False.elim⟩

theorem keeps_nextIs (c : Char) : Keeps (nextIs c) :=
  keeps_look.bind fun _ => keeps_pure _

theorem keeps_take : Keeps take := by
  intro k a left e
  simp only [take, EStateM.Result.ok.injEq] at e
  obtain ⟨-, rfl⟩ := e
  exact ⟨by simp, False.elim⟩

/-- A character that was had is gone. -/
theorem spends_advance : Spends (fun c => c.isSome = true) advance := by
  intro k a left e
  unfold advance at e
  rw [k.next?_eq] at e
  cases h : k.ahead with
  | nil =>
    rw [h] at e
    cases e
    simp [h]
  | cons c cs =>
    rw [h] at e
    cases e
    simp [h]

theorem keeps_push (c : Char) : Keeps (push c) := keeps_modify fun _ => Nat.le_refl _

theorem keeps_append (cs : List Char) : Keeps (append cs) := keeps_modify fun _ => Nat.le_refl _

theorem takes_consume : Takes consume := by
  refine spends_advance.bind (fun c hc => ?_) (fun c hc => ?_)
  · split
    · exact (keeps_push _).bind fun _ => keeps_pure _
    · simp at hc
  · split
    · simp at hc
    · exact spends_exhausted

theorem takes_skip : Takes skip := by
  refine spends_advance.bind (fun c hc => ?_) (fun c hc => ?_)
  · split
    · exact keeps_pure _
    · simp at hc
  · split
    · simp at hc
    · exact spends_exhausted

theorem keeps_pushIf (keep : Bool) (c : Char) : Keeps (pushIf keep c) := by
  unfold pushIf
  split
  · exact keeps_push c
  · exact keeps_pure _

theorem keeps_appendIf (keep : Bool) (cs : List Char) : Keeps (appendIf keep cs) := by
  unfold appendIf
  split
  · exact keeps_append cs
  · exact keeps_pure _

theorem keeps_consumePartner (keep : Bool) (partner : Char) :
    Keeps (consumePartner keep partner) := by
  refine (keeps_nextIs partner).bind fun found => ?_
  split
  · exact keeps_take.bind fun _ => keeps_pushIf keep partner
  · exact keeps_pure _

/-- Where a line end must come, a character is taken. -/
theorem takes_consumeLineEnd (keep : Bool) : Takes (consumeLineEnd keep false) := by
  refine keeps_look.bind fun c => ?_
  split
  · exact spends_unexpectedEnd _
  · split
    · exact spends_violation _
    · exact takes_skip.bind fun _ => (keeps_pushIf _ _).bind fun _ => keeps_consumePartner _ _

end Rules

/-! ## Repetition -/

/-- How a turn ends: with another one, from a new state, or with a value. -/
inductive Turn (σ α : Type) where
  | again (state : σ)
  | done (value : α)

namespace Turn

/-- Whether another turn follows. -/
def GoesOn {σ α : Type} : Turn σ α → Prop
  | again _ => True
  | done _ => False

end Turn

/-- A turn after which less is ahead, if another one follows. -/
abbrev Advances {σ α : Type} (turn : Scan (Turn σ α)) : Prop := Spends Turn.GoesOn turn

/-- Takes turns within a bound, a list longer than what is ahead. -/
def iterateWithin {σ α : Type} (turn : σ → Scan (Turn σ α)) (h : ∀ s, Advances (turn s)) :
    (bound : List Char) → σ → (k : Cursor) → k.ahead.length < bound.length →
      EStateM.Result Fault Cursor α
  | [], _, _, lt => absurd lt (Nat.not_lt_zero _)
  | _ :: bound, s, k, lt =>
    match e : turn s k with
    | .ok (.again s') left =>
      iterateWithin turn h bound s' left (by
        have := (h s k _ left e).2 trivial
        simp only [List.length_cons] at lt
        omega)
    | .ok (.done a) left => .ok a left
    | .error fault left => .error fault left

/-- Takes turns until one is the last. -/
def iterate {σ α : Type} (turn : σ → Scan (Turn σ α)) (h : ∀ s, Advances (turn s)) (s : σ) :
    Scan α := fun k =>
  iterateWithin turn h (endOfInput :: k.ahead) s k (by simp)

section Iterate

variable {σ α : Type} {turn : σ → Scan (Turn σ α)} {h : ∀ s, Advances (turn s)}

/-- The bound does not matter. -/
theorem iterateWithin_eq (bound bound' : List Char) (s : σ) (k : Cursor)
    (lt : k.ahead.length < bound.length) (lt' : k.ahead.length < bound'.length) :
    iterateWithin turn h bound s k lt = iterateWithin turn h bound' s k lt' := by
  induction bound generalizing bound' s k with
  | nil => cases lt
  | cons c bound ih =>
    cases bound' with
    | nil => cases lt'
    | cons c' bound' =>
      unfold iterateWithin
      split
      · exact ih ..
      · rfl
      · rfl

/-- A repetition is a turn and, if the turn was not the last, the repetition
from there. -/
theorem iterate_eq (s : σ) :
    iterate turn h s = (turn s >>= fun
      | .again s' => iterate turn h s'
      | .done a => pure a) := by
  funext k
  simp only [iterate, bind, EStateM.bind]
  rw [iterateWithin]
  split <;> rename_i e <;> simp only [e]
  · exact iterateWithin_eq ..
  · rfl

/-- Whatever holds of every turn's outcome, and is handed on from turn to turn,
holds of the outcome of the repetition. -/
theorem iterate_induction {P : σ → Cursor → EStateM.Result Fault Cursor α → Prop}
    (again : ∀ s k s' left r, turn s k = .ok (.again s') left → P s' left r → P s k r)
    (done : ∀ s k a left, turn s k = .ok (.done a) left → P s k (.ok a left))
    (error : ∀ s k fault left, turn s k = .error fault left → P s k (.error fault left))
    (s : σ) (k : Cursor) : P s k (iterate turn h s k) := by
  suffices H : ∀ (bound : List Char) (s : σ) (k : Cursor) (lt : k.ahead.length < bound.length),
      P s k (iterateWithin turn h bound s k lt) from H _ s k _
  intro bound
  induction bound with
  | nil => intro s k lt; cases lt
  | cons c bound ih =>
    intro s k lt
    unfold iterateWithin
    split
    · rename_i s' left e
      exact again s k s' left _ e (ih s' left _)
    · rename_i a left e
      exact done s k a left e
    · rename_i fault left e
      exact error s k fault left e

/-- A repetition never leaves more ahead. -/
theorem keeps_iterate (s : σ) : Keeps (iterate turn h s) := by
  intro k a left e
  refine ⟨?_, False.elim⟩
  have := iterate_induction (h := h)
    (P := fun _ k r => ∀ a left, r = .ok a left → left.ahead.length ≤ k.ahead.length)
    (fun s k s' mid r e ih a left hr => by
      have h₁ := (h s k _ mid e).1
      have h₂ := ih a left hr
      omega)
    (fun s k a left e a' left' hr => by
      cases hr
      exact (h s k _ left e).1)
    (fun s k fault left e a' left' hr => by cases hr) s k
  exact this a left e

end Iterate

/-! ## Runs of characters -/

/-- One more character of a run, taken into the token. -/
def consumeTurn (p : Char → Bool) (_ : Unit) : Scan (Turn Unit Unit) := do
  match ← look with
  | none => return .done ()
  | some c => if p c then let _ ← consume; return .again () else return .done ()

theorem advances_consumeTurn (p : Char → Bool) (u : Unit) : Advances (consumeTurn p u) := by
  refine keeps_look.bind fun c => ?_
  split
  · exact spends_pure id
  · split
    · exact takes_consume.bind fun _ => keeps_pure _
    · exact spends_pure id

/-- Takes the run of characters that satisfy a condition into the token. -/
def consumeWhile (p : Char → Bool) : Scan Unit :=
  iterate (consumeTurn p) (advances_consumeTurn p) ()

theorem keeps_consumeWhile (p : Char → Bool) : Keeps (consumeWhile p) := keeps_iterate ()

/-- One more character of a run, passed over. -/
def skipTurn (p : Char → Bool) (_ : Unit) : Scan (Turn Unit Unit) := do
  match ← look with
  | none => return .done ()
  | some c => if p c then let _ ← skip; return .again () else return .done ()

theorem advances_skipTurn (p : Char → Bool) (u : Unit) : Advances (skipTurn p u) := by
  refine keeps_look.bind fun c => ?_
  split
  · exact spends_pure id
  · split
    · exact takes_skip.bind fun _ => keeps_pure _
    · exact spends_pure id

/-- Passes over the run of characters that satisfy a condition. -/
def skipWhile (p : Char → Bool) : Scan Unit :=
  iterate (skipTurn p) (advances_skipTurn p) ()

/-- One more blank character, passed over; a line end of two characters counts
as one. -/
def blankTurn (_ : Unit) : Scan (Turn Unit Unit) := do
  match ← look with
  | none => return .done ()
  | some c =>
    if !Unicode.isBlank c then
      return .done ()
    else if Unicode.isLineEnd c then
      consumeLineEnd false false
      return .again ()
    else
      let _ ← skip
      return .again ()

theorem advances_blankTurn (u : Unit) : Advances (blankTurn u) := by
  refine keeps_look.bind fun c => ?_
  split
  · exact spends_pure id
  · split
    · exact spends_pure id
    · split
      · exact (takes_consumeLineEnd _).bind fun _ => keeps_pure _
      · exact takes_skip.bind fun _ => keeps_pure _

/-- Passes over blank characters and starts a token after them. -/
def discardBlank : Scan Unit := do
  iterate blankTurn advances_blankTurn ()
  startToken

end TripleLex.Scan

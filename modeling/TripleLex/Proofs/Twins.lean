import TripleLex.Proofs.Together

/-!
# Sources that give the same

Two sources are twins if the same characters and the same failure are still to
come out of them, whatever is decoded already and wherever the rest comes from.
No operation tells twins apart, and each leaves twins. A scan is `Blind` if it
is in the same case: on cursors that differ by a twin of their source it comes
to the same value or the same fault, and leaves such cursors again, also where it
fails.

All that a scan may know of its source it knows by looking, taking, and asking
for a failure, so that blindness follows from the way the scan is put together.

## Main results

* `Source.Twin.fill`, `Source.Twin.read`, `Source.Twin.close` — what operations
  leave.
* `Composed.blind` — what is put together from single steps is blind.
-/

namespace TripleLex

namespace Input.Source

/-! ## Twins -/

/-- The same is still to come out of both sources. -/
structure Twin (s s' : Source) : Prop where
  rest : s'.rest = s.rest
  failure : s'.failure = s.failure
  met : s'.met = s.met
  closings : s'.closings = s.closings

variable {s s' : Source}

/-- Who asks twins for a character meets the same. -/
theorem Twin.fill (h : s.Twin s') : s.fill.Twin s'.fill := by
  have hrest : s'.fill.rest = s.fill.rest := by rw [rest_fill, rest_fill, h.rest]
  have hclosings : s'.fill.closings = s.fill.closings := by
    rw [closings_fill, closings_fill, h.closings]
  have hf := s.filled_fill
  have hf' := s'.filled_fill
  cases hf with
  | character c more cs _ before _ failure met =>
    cases hf' with
    | character c' more' cs' _ _ _ failure' met' =>
      exact ⟨hrest, by rw [failure, failure', h.failure], by rw [met, met', h.met], hclosings⟩
    | nothing _ before' =>
      rw [h.rest, before] at before'
      cases before'
  | nothing _ before _ failure met =>
    cases hf' with
    | character c' more' cs' _ before' =>
      rw [h.rest, before] at before'
      cases before'
    | nothing _ _ _ failure' met' =>
      exact ⟨hrest, by rw [failure, failure'], by rw [met, met', h.failure, h.met], hclosings⟩

theorem Twin.peek (h : s.Twin s') : s'.peek.1 = s.peek.1 := by
  rw [peek_eq, peek_eq, h.rest]

theorem Twin.read (h : s.Twin s') : s.read.2.Twin s'.read.2 where
  rest := by rw [rest_read, rest_read, h.rest]
  failure := h.fill.failure
  met := h.fill.met
  closings := h.fill.closings

theorem Twin.takeFailure (h : s.Twin s') : s.takeFailure.2.Twin s'.takeFailure.2 where
  rest := h.rest
  failure := h.failure
  met := rfl
  closings := h.closings

theorem Twin.close (h : s.Twin s') : s.close.Twin s'.close where
  rest := rfl
  failure := rfl
  met := h.met
  closings := congrArg (· + 1) h.closings

end Input.Source

open Input (Source)

namespace Cursor

/-- The cursor with its source exchanged for another one. -/
def onto (k : Cursor) (s : Source) : Cursor := { k with source := s }

/-- The other cursor stands alike, in a twin of the source. -/
inductive Twin (k : Cursor) : Cursor → Prop
  | onto {s : Source} (h : k.source.Twin s) : Twin k (k.onto s)

variable {k k' : Cursor}

theorem Twin.next? (h : k.Twin k') : k'.next? = k.next? := by
  obtain ⟨hs⟩ := h
  rcases k with ⟨_, _ | c⟩
  · exact hs.peek
  · rfl

theorem Twin.looked (h : k.Twin k') : k.looked.Twin k'.looked := by
  obtain ⟨hs⟩ := h
  rcases k with ⟨_, _ | c⟩
  · exact .onto hs.fill
  · exact .onto hs

theorem Twin.taken (h : k.Twin k') : k.taken.Twin k'.taken := by
  obtain ⟨hs⟩ := h
  rcases k with ⟨_, _ | c⟩
  · exact .onto hs.read
  · exact .onto hs

theorem Twin.moved (h : k.Twin k') (c : Char) : (k.moved c).Twin (k'.moved c) := by
  obtain ⟨hs⟩ := h
  rcases k with ⟨_, _ | c⟩
  · exact .onto hs.read
  · exact .onto hs

theorem Twin.close (h : k.Twin k') : k.close.Twin k'.close := by
  obtain ⟨hs⟩ := h
  rcases k with ⟨_, _, _, _, _, _, _, _ | _⟩
  · exact .onto hs.close
  · exact .onto hs

end Cursor

namespace Scan

/-! ## The judgement -/

/-- Two outcomes are the same, but for a twin of the source. -/
inductive Alike {α : Type} : EStateM.Result Fault Cursor α → EStateM.Result Fault Cursor α → Prop
  | ok {a : α} {k k' : Cursor} (h : k.Twin k') : Alike (.ok a k) (.ok a k')
  | error {fault : Fault} {k k' : Cursor} (h : k.Twin k') : Alike (.error fault k) (.error fault k')

/-- The scan does not tell twins apart. -/
class Blind {α : Type} (m : Scan α) : Prop where
  alike : ∀ {k k' : Cursor}, k.Twin k' → Alike (m k) (m k')

section Rules

variable {α β σ : Type}

theorem blind_bind {m : Scan α} {f : α → Scan β} (hm : Blind m) (hf : ∀ a, Blind (f a)) :
    Blind (m >>= f) where
  alike {k k'} h := by
    have hfirst := hm.alike h
    simp only [bind, EStateM.bind]
    generalize m k = r at hfirst
    generalize m k' = r' at hfirst
    cases hfirst with
    | ok hmid => exact (hf _).alike hmid
    | error hleft => exact .error hleft

theorem blind_get {f : Cursor → Scan α} (hsource : ∀ k s, f { k with source := s } = f k)
    (h : ∀ k, Blind (f k)) : Blind (get >>= f) where
  alike := by
    rintro k _ @⟨s, hs⟩
    have hf : f (k.onto s) = f k := hsource k s
    rw [get_bind, get_bind, hf]
    exact (h k).alike (.onto hs)

theorem blind_edit {f : Cursor → Cursor} (h : Cursor.Edits f) :
    Blind (modify f : Scan Unit) where
  alike := by
    rintro k _ @⟨s, hs⟩
    have hf : f (k.onto s) = (f k).onto s := h.blind k s
    show Alike (.ok () (f k)) (.ok () (f (k.onto s)))
    rw [hf]
    exact .ok (.onto (by rwa [h.source]))

theorem blind_look : Blind look where
  alike h := by
    unfold look
    rw [h.next?]
    exact .ok h.looked

theorem blind_take : Blind take where
  alike h := by
    unfold take
    rw [h.next?]
    exact .ok h.taken

theorem blind_advance : Blind advance where
  alike {k k'} h := by
    unfold advance
    rw [h.next?]
    cases k.next? with
    | none => exact .ok h.taken
    | some c => exact .ok (h.moved c)

theorem blind_takeFailure : Blind takeFailure where
  alike {k _} := by
    rintro ⟨hs⟩
    show Alike (.ok k.source.met _) (.ok _ _)
    rw [← hs.met]
    exact .ok (.onto hs.takeFailure)

theorem blind_failIfBroken : Blind failIfBroken := by
  refine blind_bind blind_takeFailure fun cause => ?_
  cases cause with
  | none => exact ⟨.ok⟩
  | some cause => exact ⟨fun hk => .error hk.close⟩

theorem blind_emit (kind : Kind) : Blind (emit kind) where
  alike := by
    rintro k _ ⟨hs⟩
    exact .ok (.onto hs)

theorem blind_backtrack : Blind backtrack where
  alike := by
    rintro k _ ⟨hs⟩
    rcases k with ⟨_, _ | _, _ | ⟨c, written⟩⟩
    · exact .error (Cursor.Twin.onto hs).close
    · exact .ok (.onto hs)
    · exact .error (Cursor.Twin.onto hs).close
    · exact .error (Cursor.Twin.onto hs).close

theorem blind_giveBack (p : List Char → Bool) :
    Blind (do if p (← get).written then backtrack) := by
  refine blind_get (fun _ _ => rfl) fun k => ?_
  split
  · exact blind_backtrack
  · exact ⟨.ok⟩

/-- A repetition of turns; every turn but the last leaves less ahead. -/
theorem blind_iterate {turn : σ → Scan (Turn σ α)} {h : ∀ s, Advances (turn s)}
    (ht : ∀ s, Blind (turn s)) (s : σ) : Blind (iterate turn h s) where
  alike {k k'} hk := by
    generalize hn : k.ahead.length = n
    induction n using Nat.strongRecOn generalizing s k k' with
    | ind n ih =>
      have hturn := (ht s).alike hk
      rw [iterate_eq]
      simp only [bind, EStateM.bind]
      generalize hr : turn s k = r at hturn
      generalize turn s k' = r' at hturn
      cases hturn with
      | error hleft => exact .error hleft
      | @ok a mid mid' hmid =>
        cases a with
        | done a => exact .ok hmid
        | again s' =>
          have hless := (h s k _ mid hr).2 trivial
          exact ih mid.ahead.length (by omega) s' hmid rfl

/-- No scan that is put together from single steps tells twins apart. -/
theorem Composed.blind {dots : Bool} {m : Scan α} (h : Composed dots m) : Blind m := by
  induction h with
  | pure a => exact ⟨.ok⟩
  | bind _ _ ihm ihf => exact blind_bind ihm ihf
  | raise fault => exact ⟨fun hk => .error hk.close⟩
  | look => exact blind_look
  | take => exact blind_take
  | advance => exact blind_advance
  | failIfBroken => exact blind_failIfBroken
  | ask hsource _ ih => exact blind_get hsource ih
  | edit hf => exact blind_edit hf
  | emit kind => exact blind_emit kind
  | giveBack _ _ => exact blind_giveBack _
  | iterate _ _ s ih => exact blind_iterate ih s

end Rules

end Scan

end TripleLex

import TripleLex.Proofs.Together

/-!
# Closing the source

A source is closed by the first fault and by nothing else. What is put together
from single steps leaves the closing of its source alone where it succeeds, and
where it fails it leaves what `Cursor.close` makes of such a cursor
(`Composed.leaves`). A cursor closes its source once, so that after any number of
calls the source has been closed once if one of them failed, and not at all
otherwise. A source that has been closed is released: it gives nothing, and
asking it changes nothing any more.

The same law says which characters may wait to be read again, since the other
results on faults rest on it: the one that waited before, or a dot.

## Main results

* `Composed.leaves` — what a scan leaves of the cursor.
* `Lexer.standing_behind` — how often the source was closed.
* `Lexer.closed_by_fault` — all of it.
-/

namespace TripleLex

namespace Input.Source

variable {s : Source}

/-- The source gives nothing, and has nothing behind it to ask. -/
structure IsReleased (s : Source) : Prop where
  ready : s.ready = []
  reader : s.reader = none

theorem isReleased_close (s : Source) : s.close.IsReleased := ⟨rfl, rfl⟩

theorem IsReleased.fill_eq (h : s.IsReleased) : s.fill = s := by
  unfold fill
  rw [h.ready, h.reader]

/-- However it is asked, a released source gives nothing and stays as it is. -/
theorem IsReleased.stays (h : s.IsReleased) :
    s.peek = (none, s) ∧ s.read = (none, s) ∧ s.atEnd = (true, s) := by
  rcases s with ⟨ready, reader, met, closings⟩
  obtain ⟨hready, hreader⟩ := h
  cases hready
  cases hreader
  exact ⟨rfl, rfl, rfl⟩

end Input.Source

namespace Cursor

/-! ## What a scan leaves -/

/-- What a scan that succeeds leaves of a cursor. -/
structure Retains (dots : Bool) (k left : Cursor) : Prop where
  isClosed : left.isClosed = k.isClosed
  closings : left.source.closings = k.source.closings
  released : k.source.IsReleased → left.source.IsReleased
  pending : left.pending = none ∨ left.pending = k.pending ∨
    (dots = true ∧ left.pending = some '.')
  previous : k.previous ≠ none → left.previous ≠ none

variable {dots : Bool} {k mid left : Cursor}

theorem Retains.refl (k : Cursor) : k.Retains dots k :=
  ⟨rfl, rfl, id, .inr (.inl rfl), id⟩

theorem Retains.trans (h : k.Retains dots mid) (h' : mid.Retains dots left) :
    k.Retains dots left where
  isClosed := h'.isClosed.trans h.isClosed
  closings := h'.closings.trans h.closings
  released hr := h'.released (h.released hr)
  pending := by
    rcases h'.pending with hp | hp | hp
    · exact .inl hp
    · rw [hp]
      exact h.pending
    · exact .inr (.inr hp)
  previous hp := h'.previous (h.previous hp)

theorem retains_looked (k : Cursor) : k.Retains dots k.looked := by
  unfold looked
  split
  · exact .refl k
  · exact ⟨rfl, k.source.closings_fill, fun hr => by rwa [← hr.fill_eq] at hr,
      .inr (.inl rfl), id⟩

theorem retains_taken (k : Cursor) : k.Retains dots k.taken := by
  unfold taken
  split
  · exact ⟨rfl, rfl, id, .inl rfl, id⟩
  · refine ⟨rfl, k.source.closings_fill, fun hr => ?_, .inr (.inl rfl), id⟩
    rw [hr.stays.2.1]
    exact hr

theorem retains_edited {f : Cursor → Cursor} (h : Edits f) (k : Cursor) :
    k.Retains dots (f k) where
  isClosed := h.isClosed k
  closings := by rw [h.source]
  released hr := by rwa [h.source]
  pending := .inr (.inl (h.pending k))
  previous := h.previous k

end Cursor

namespace Scan

open Cursor (Retains)

variable {α : Type} {dots : Bool} {k : Cursor}

/-- A scan retains what it has where it succeeds, and closes what it has retained
where it fails. -/
inductive Leaves (dots : Bool) (k : Cursor) : EStateM.Result Fault Cursor α → Prop
  | ok {a : α} {left : Cursor} (h : k.Retains dots left) : Leaves dots k (.ok a left)
  | error {fault : Fault} {left : Cursor} (h : k.Retains dots left) :
    Leaves dots k (.error fault left.close)

theorem Leaves.trans {mid : Cursor} {r : EStateM.Result Fault Cursor α}
    (h : k.Retains dots mid) (hr : Leaves dots mid r) : Leaves dots k r := by
  cases hr with
  | ok h' => exact .ok (h.trans h')
  | error h' => exact .error (h.trans h')

theorem leaves_advance (k : Cursor) : Leaves dots k (advance k) := by
  have htaken : k.Retains dots k.taken := k.retains_taken
  unfold advance
  cases k.next? with
  | none => exact .ok htaken
  | some c => exact .ok (htaken.trans ⟨rfl, rfl, id, .inr (.inl rfl), id⟩)

/-- A failure that was met is the fault; otherwise reading goes on. -/
theorem leaves_failIfBroken (k : Cursor) : Leaves dots k (failIfBroken k) := by
  cases hmet : k.source.met with
  | none =>
    rw [failIfBroken_unmet hmet]
    exact .ok (.refl k)
  | some cause =>
    rw [failIfBroken_met hmet]
    exact .error ⟨rfl, rfl, fun hr => ⟨hr.ready, hr.reader⟩, .inr (.inl rfl), id⟩

/-- Only the last character of a token is given back. -/
theorem leaves_backtrack {ws : List Char} (hdots : dots = true) (hw : k.written = '.' :: ws) :
    Leaves dots k (backtrack k) := by
  unfold backtrack
  rw [get_bind]
  cases hp : k.pending with
  | none =>
    rw [hw]
    exact .ok ⟨rfl, rfl, id, .inr (.inr ⟨hdots, rfl⟩), id⟩
  | some c => exact .error (.refl k)

theorem leaves_iterate {σ : Type} {turn : σ → Scan (Turn σ α)} {h : ∀ s, Advances (turn s)}
    (ht : ∀ s k, Leaves dots k (turn s k)) (s : σ) (k : Cursor) :
    Leaves dots k (iterate turn h s k) := by
  refine iterate_induction (P := fun _ k r => Leaves dots k r) ?_ ?_ ?_ s k
  · intro s k s' left r e hr
    have hturn := ht s k
    rw [e] at hturn
    obtain ⟨hleft⟩ := hturn
    exact hr.trans hleft
  · intro s k a left e
    have hturn := ht s k
    rw [e] at hturn
    obtain ⟨hleft⟩ := hturn
    exact .ok hleft
  · intro s k fault left e
    have hturn := ht s k
    rw [e] at hturn
    cases hturn with
    | error hleft => exact .error hleft

/-- A scan that is put together from single steps closes its source exactly where
it fails. -/
theorem Composed.leaves {m : Scan α} (h : Composed dots m) (k : Cursor) :
    Leaves dots k (m k) := by
  induction h generalizing k with
  | pure a => exact .ok (.refl k)
  | @bind _ _ m f _ _ ihm ihf =>
    have hm := ihm k
    simp only [Bind.bind, EStateM.bind]
    generalize m k = r at hm
    cases hm with
    | ok hmid => exact (ihf _ _).trans hmid
    | error hleft => exact .error hleft
  | raise fault => exact .error (.refl k)
  | look => exact .ok k.retains_looked
  | take => exact .ok k.retains_taken
  | advance => exact leaves_advance k
  | failIfBroken => exact leaves_failIfBroken k
  | ask _ _ ih => exact ih k k
  | edit hf => exact .ok (Cursor.retains_edited hf k)
  | emit kind => exact .ok ⟨rfl, rfl, id, .inr (.inl rfl), fun _ => nofun⟩
  | @giveBack p hdots hp =>
    rw [get_bind]
    split
    · rename_i hdot
      obtain ⟨ws, hw⟩ := List.head?_eq_some_iff.1 (hp _ hdot)
      exact leaves_backtrack hdots hw
    · exact .ok (.refl k)
  | iterate _ _ s ih => exact leaves_iterate ih s k

end Scan

namespace Lexer

open Input (Source Reader)
open Scan Cursor

variable {l : Lexer}

/-! ## Calls -/

/-- The lexer after this many calls, whatever they came to. -/
def behind : Nat → Lexer → Lexer
  | 0, l => l
  | n + 1, l => behind n l.next.2

/-- Whether an item is a fault. -/
def isFault : Item → Bool
  | .ok _ => false
  | .error _ => true

/-- Whether one of the first calls, this many, comes to a fault. -/
def faultsWithin (n : Nat) (l : Lexer) : Bool := (l.steps n).any fun step => isFault step.1

theorem faultsWithin_succ (n : Nat) (l : Lexer) :
    l.faultsWithin (n + 1) = (isFault l.next.1 || l.next.2.faultsWithin n) := rfl

/-- A call that yields a token retains what the cursor has. -/
theorem retains_of_next {t : Token} {l' : Lexer} (e : l.next = (.ok t, l')) :
    l.cursor.Retains l.machine.givesBack l'.cursor := by
  have hleaves := (composed_next l.machine).leaves l.cursor
  unfold next at e
  split at e
  · rename_i hk
    rw [hk] at hleaves
    cases e
    obtain ⟨hleft⟩ := hleaves
    exact hleft
  · cases e

/-- A call that comes to a fault closes what it has retained, and the machine
stays. -/
theorem closed_of_next {fault : Fault} {l' : Lexer} (e : l.next = (.error fault, l')) :
    l'.machine = l.machine ∧
      ∃ k, l.cursor.Retains l.machine.givesBack k ∧ l'.cursor = k.close := by
  have hleaves := (composed_next l.machine).leaves l.cursor
  unfold next at e
  split at e
  · cases e
  · rename_i hk
    rw [hk] at hleaves
    cases e
    cases hleaves with
    | error hleft => exact ⟨rfl, _, hleft, rfl⟩

/-! ## How often a source is closed -/

/-- How a source stands that had been closed so often before it was read:
whether it was closed once more is what the cursor remembers, and then it is
released. -/
structure Standing (closings : Nat) (faulty : Bool) (k : Cursor) : Prop where
  isClosed : k.isClosed = faulty
  closings : k.source.closings = closings + faulty.toNat
  released : faulty = true → k.source.IsReleased

variable {closings : Nat} {faulty dots : Bool} {k left : Cursor}

theorem Standing.retained (h : Standing closings faulty k) (hr : k.Retains dots left) :
    Standing closings faulty left :=
  ⟨hr.isClosed.trans h.isClosed, hr.closings.trans h.closings,
    fun hf => hr.released (h.released hf)⟩

/-- Whether it has been closed before or not, it has been closed once then. -/
theorem Standing.close (h : Standing closings faulty k) : Standing closings true k.close := by
  unfold Cursor.close
  cases faulty with
  | false =>
    rw [if_neg (by rw [h.isClosed]; decide)]
    exact ⟨rfl, congrArg (· + 1) h.closings, fun _ => k.source.isReleased_close⟩
  | true =>
    rw [if_pos h.isClosed]
    exact h

theorem standing_ofSource (settings : Settings) (source : Source) :
    Standing source.closings false (ofSource settings source).cursor :=
  ⟨rfl, rfl, nofun⟩

/-- One call. -/
theorem Standing.next (h : Standing closings faulty l.cursor) :
    Standing closings (faulty || isFault l.next.1) l.next.2.cursor := by
  cases hi : l.next.1 with
  | ok t =>
    rw [isFault, Bool.or_false]
    exact h.retained (retains_of_next (Prod.ext hi rfl))
  | error fault =>
    obtain ⟨-, k, hk, hclose⟩ := closed_of_next (Prod.ext hi rfl)
    rw [isFault, Bool.or_true, hclose]
    exact (h.retained hk).close

/-- Any number of calls. -/
theorem Standing.behind (n : Nat) (h : Standing closings faulty l.cursor) :
    Standing closings (faulty || l.faultsWithin n) (l.behind n).cursor := by
  induction n generalizing l faulty with
  | zero =>
    rw [show l.faultsWithin 0 = false from rfl, Bool.or_false]
    exact h
  | succ n ih =>
    rw [faultsWithin_succ, ← Bool.or_assoc]
    exact ih h.next

theorem standing_behind (settings : Settings) (source : Source) (n : Nat) :
    Standing source.closings ((ofSource settings source).faultsWithin n)
      ((ofSource settings source).behind n).cursor :=
  (standing_ofSource settings source).behind n

/-- After any number of calls the source has been closed once if one of them came
to a fault, and not at all otherwise. Then it gives nothing, however it is asked,
and stays as it is. A call that yields a token closes nothing. -/
theorem closed_by_fault (settings : Settings) (source : Source) (n : Nat) :
    let start := ofSource settings source
    let s := (start.behind n).cursor.source
    s.closings = source.closings + (start.faultsWithin n).toNat ∧
    (start.faultsWithin n = true → s.peek = (none, s) ∧ s.read = (none, s) ∧ s.atEnd = (true, s)) ∧
    (∀ t l', (start.behind n).next = (.ok t, l') → l'.cursor.source.closings = s.closings) := by
  intro start s
  have h := standing_behind settings source n
  exact ⟨h.closings, fun hf => (h.released hf).stays, fun t l' e => (retains_of_next e).closings⟩

/-- A reader breaks behind a reference. Two tokens come and close nothing; the
third call fails, and the fourth one yields the token after all text. -/
theorem closed_by_fault_broken_reader : ∃ source : Source,
    ((ofSource .standard source).steps 4).map (fun step => isFault step.1) =
      [false, false, true, false] ∧
    ((ofSource .standard source).behind 2).cursor.source.closings = 0 ∧
    ((ofSource .standard source).behind 4).cursor.source.closings = 1 ∧
    ((ofSource .standard source).behind 4).cursor.source.read.1 = none ∧
    ((ofSource .standard source).behind 4).cursor.source.atEnd.1 = true := by
  refine ⟨.ofReader [.bytes 0x3C [0x61, 0x3E, 0x20], .failure ⟨"ConnectionReset", "gone"⟩],
    by decide +kernel, ?_⟩
  generalize hsource : Source.ofReader _ = source
  have htwo : (ofSource .standard source).faultsWithin 2 = false := by
    rw [← hsource]
    decide +kernel
  have hfour : (ofSource .standard source).faultsWithin 4 = true := by
    rw [← hsource]
    decide +kernel
  have hunread : source.closings = 0 := by
    rw [← hsource]
    rfl
  have hbefore := (closed_by_fault .standard source 2).1
  obtain ⟨hafter, hgives, -⟩ := closed_by_fault .standard source 4
  obtain ⟨-, hread, hend⟩ := hgives hfour
  rw [htwo, hunread] at hbefore
  rw [hfour, hunread] at hafter
  exact ⟨hbefore, hafter, by rw [hread], by rw [hend]⟩

end Lexer

end TripleLex

import TripleLex.Cursor.Repeat
import TripleLex.Proofs.Place

/-!
# What a scan reads and writes

`Cursor.Reads k cs ws left` relates a cursor to a later one: the characters `cs`
have been read since, the characters `ws` were added to the token, the places
have been walked along `cs`, and no line end is cut in two. Every scan inside a
token is such a step when it succeeds, so a scan is specified by what it may
read and write; steps compose (`Reads.trans`).

The rest of the module inverts the success of the single scans and of
repetitions.

## Main results

* `Cursor.Reads.trans` — two readings are one.
* `iterate_ok` — what the turns of a repetition read and write, the repetition
  does.
* `consumeWhile_ok`, `skipWhile_ok`, `blanks_ok` — runs of characters are taken
  to their end.
* `consumeLineEnd_reads` — a line end is read whole.
-/

namespace TripleLex

namespace Cursor

/-! ## The relation -/

/-- The walk of a cursor, at a place where no line end is cut. -/
def trail (k : Cursor) : Trail := ⟨k.here, k.last, none⟩

/-- Another cursor differs in nothing but what is ahead. -/
structure Same (k left : Cursor) : Prop where
  written : left.written = k.written
  here : left.here = k.here
  start : left.start = k.start
  last : left.last = k.last
  previous : left.previous = k.previous

/-- From one cursor to another, `cs` were read and `ws` were added to the
token. -/
structure Reads (k : Cursor) (cs ws : List Char) (left : Cursor) : Prop where
  ahead : k.ahead = cs ++ left.ahead
  written : left.written = ws.reverse ++ k.written
  here : left.here = (k.trail.along cs).here
  last : left.last = (k.trail.along cs).last
  apart : (k.trail.along cs).Apart left.ahead
  start : left.start = k.start
  previous : left.previous = k.previous

theorem same_looked (k : Cursor) : k.Same k.looked := by
  unfold looked
  split <;> exact ⟨rfl, rfl, rfl, rfl, rfl⟩

theorem same_taken (k : Cursor) : k.Same k.taken := by
  unfold taken
  split <;> exact ⟨rfl, rfl, rfl, rfl, rfl⟩

theorem Same.reads {k left : Cursor} (h : k.Same left)
    (ha : left.ahead = k.ahead) :
    k.Reads [] [] left where
  ahead := ha.symm
  written := h.written
  here := h.here
  last := h.last
  apart := Trail.apart_of_partner rfl _
  start := h.start
  previous := h.previous

theorem Reads.refl (k : Cursor) : k.Reads [] [] k :=
  Same.reads ⟨rfl, rfl, rfl, rfl, rfl⟩ rfl

theorem Reads.ahead_eq {k left : Cursor} {ws : List Char}
    (h : k.Reads [] ws left) :
    left.ahead = k.ahead := h.ahead.symm

/-- The walk over what two readings read is the walk of the second one, if that
reads anything. -/
theorem Reads.along_append {k mid left : Cursor} {cs ws ds vs : List Char}
    (h : k.Reads cs ws mid) (h' : mid.Reads ds vs left) (hne : ds ≠ []) :
    k.trail.along (cs ++ ds) = mid.trail.along ds := by
  have hd : (k.trail.along cs).Apart ds := by
    intro p hp
    have ha := h.apart p hp
    rw [h'.ahead] at ha
    cases ds with
    | nil => exact absurd rfl hne
    | cons d ds => exact ha
  rw [Trail.along_append]
  exact Trail.along_congr hd (Trail.apart_of_partner rfl _) h.here.symm hne

/-- Two readings are one. -/
theorem Reads.trans {k mid left : Cursor} {cs ws ds vs : List Char}
    (h : k.Reads cs ws mid) (h' : mid.Reads ds vs left) :
    k.Reads (cs ++ ds) (ws ++ vs) left := by
  have hw : left.written = (ws ++ vs).reverse ++ k.written := by
    rw [h'.written, h.written, List.reverse_append, List.append_assoc]
  have hs : left.start = k.start := h'.start.trans h.start
  have hp : left.previous = k.previous := h'.previous.trans h.previous
  by_cases hne : ds = []
  · subst hne
    rw [List.append_nil]
    have ha : left.ahead = mid.ahead := h'.ahead_eq
    exact ⟨by rw [h.ahead, ha], hw, h'.here.trans h.here, h'.last.trans h.last,
      by rw [ha]; exact h.apart, hs, hp⟩
  · have hal := h.along_append h' hne
    exact ⟨by rw [h.ahead, h'.ahead, List.append_assoc],
      hw, by rw [hal]; exact h'.here,
      by rw [hal]; exact h'.last, by rw [hal]; exact h'.apart, hs, hp⟩

/-! ## Single steps -/

theorem reads_moved {k : Cursor} {c : Char} (h : k.ahead.head? = some c)
    (hc : Unicode.isLineEnd c = false) : k.Reads [c] [] (k.moved c) := by
  obtain ⟨rest, hk⟩ := List.head?_eq_some_iff.1 h
  have hs := k.same_taken
  have hp : (k.trail.along [c]).partner = none := partner?_eq_none hc
  refine ⟨?_, hs.written, rfl, rfl, Trail.apart_of_partner hp _, hs.start,
    hs.previous⟩
  rw [ahead_moved, hk]
  rfl

theorem reads_push (k : Cursor) (cs : List Char) :
    k.Reads [] cs { k with written := cs.reverse ++ k.written } :=
  ⟨rfl, rfl, rfl, rfl, Trail.apart_of_partner rfl _, rfl, rfl⟩

end Cursor

namespace Scan

open Cursor (Reads)

variable {k left : Cursor}

theorem get_bind {α : Type} (f : Cursor → Scan α) : (get >>= f) k = f k k := rfl

/-- Where the first scan succeeds, what follows goes on from there. -/
theorem bind_eq {α β : Type} {m : Scan α} {f : α → Scan β} {a : α} {mid : Cursor}
    (h : m k = .ok a mid) : (m >>= f) k = f a mid := by
  simp only [bind, EStateM.bind, h]

theorem nextIs_eq (c : Char) (k : Cursor) :
    nextIs c k = .ok (k.ahead.head? == some c) k.looked :=
  bind_eq (look_eq k)

theorem get_bind_ok {α : Type} {f : Cursor → Scan α} {a : α}
    (e : (get >>= f) k = .ok a left) :
    f k k = .ok a left := e

theorem pure_ok {α : Type} {a b : α} (e : (pure a : Scan α) k = .ok b left) :
    b = a ∧ left = k := by
  cases e
  exact ⟨rfl, rfl⟩

theorem look_ok {c : Option Char} (e : look k = .ok c left) :
    left.ahead.head? = c ∧ k.Reads [] [] left := by
  rw [look_eq] at e
  cases e
  exact ⟨by rw [k.ahead_looked], k.same_looked.reads k.ahead_looked⟩

/-- A scan that looks first goes on without a character or with the next one. -/
theorem look_bind_ok {α : Type} {f : Option Char → Scan α} {a : α}
    (e : (look >>= f) k = .ok a left) :
    (∃ mid, k.Reads [] [] mid ∧ mid.ahead = [] ∧ f none mid = .ok a left) ∨
      ∃ c mid, k.Reads [] [] mid ∧ mid.ahead.head? = some c ∧ f (some c) mid =
        .ok a left := by
  obtain ⟨x, mid, e₁, e₂⟩ := bind_ok e
  obtain ⟨hx, r⟩ := look_ok e₁
  cases x with
  | none => exact Or.inl ⟨mid, r, List.head?_eq_none_iff.1 hx, e₂⟩
  | some c => exact Or.inr ⟨c, mid, r, hx, e₂⟩

theorem nextIs_ok {c : Char} {found : Bool} (e : nextIs c k = .ok found left) :
    (found = true ↔ left.ahead.head? = some c) ∧ k.Reads [] [] left := by
  obtain ⟨x, k₁, e₁, e₂⟩ := bind_ok e
  obtain ⟨rfl, r⟩ := look_ok e₁
  obtain ⟨rfl, rfl⟩ := pure_ok e₂
  exact ⟨beq_iff_eq, r⟩

theorem skip_ok {c d : Char} (h : k.ahead.head? = some c)
    (hc : Unicode.isLineEnd c = false) (e : skip k = .ok d left) :
    d = c ∧ k.Reads [c] [] left := by
  obtain ⟨rest, hk⟩ := List.head?_eq_some_iff.1 h
  rw [skip_cons hk] at e
  cases e
  exact ⟨rfl, Cursor.reads_moved h hc⟩

/-- A character is consumed where there is one. -/
theorem exists_of_consume {c : Char} (e : consume k = .ok c left) :
    ∃ cs, k.ahead = c :: cs ∧ left = (k.moved c).push c := by
  cases hk : k.ahead with
  | nil =>
    have hless := (takes_consume k c left e).2 trivial
    rw [hk] at hless
    cases hless
  | cons d cs =>
    rw [consume_cons hk] at e
    cases e
    exact ⟨cs, rfl, rfl⟩

theorem consume_ok {c d : Char} (h : k.ahead.head? = some c)
    (hc : Unicode.isLineEnd c = false) (e : consume k = .ok d left) :
    d = c ∧ k.Reads [c] [c] left := by
  obtain ⟨rest, hk⟩ := List.head?_eq_some_iff.1 h
  rw [consume_cons hk] at e
  cases e
  exact ⟨rfl, (Cursor.reads_moved h hc).trans (Cursor.reads_push _ [c])⟩

theorem push_ok {c : Char} {u : Unit} (e : push c k = .ok u left) :
    k.Reads [] [c] left := by
  cases e
  exact Cursor.reads_push k [c]

theorem append_ok {cs : List Char} {u : Unit} (e : append cs k = .ok u left) :
    k.Reads [] cs left := by
  cases e
  exact Cursor.reads_push k cs

theorem pushIf_ok {keep : Bool} {c : Char} {u : Unit}
    (e : pushIf keep c k = .ok u left) :
    k.Reads [] (if keep then [c] else []) left := by
  cases keep with
  | true => exact push_ok e
  | false =>
    obtain ⟨-, rfl⟩ := pure_ok e
    exact Reads.refl left

theorem appendIf_ok {keep : Bool} {cs : List Char} {u : Unit}
    (e : appendIf keep cs k = .ok u left) :
    k.Reads [] (if keep then cs else []) left := by
  cases keep with
  | true => exact append_ok e
  | false =>
    obtain ⟨-, rfl⟩ := pure_ok e
    exact Reads.refl left

/-! ## Failing -/

/-- No failure was met, and reading goes on. -/
theorem failIfBroken_unmet (h : k.source.met = none) : failIfBroken k = .ok () k := by
  have htake : takeFailure k = .ok none k := by
    unfold takeFailure Input.Source.takeFailure
    rw [h]
    have hs : { k.source with met := none } = k.source := by rw [← h]
    rw [hs]
  exact bind_eq htake

/-- A failure that was met is the fault. -/
theorem failIfBroken_met {cause : ReadFailure} (h : k.source.met = some cause) :
    failIfBroken k = .error (.unreadable cause)
      { k with source := k.source.takeFailure.2 }.close := by
  have htake : takeFailure k = .ok (some cause) { k with source := k.source.takeFailure.2 } := by
    unfold takeFailure
    rw [← h]
    rfl
  exact bind_eq htake

theorem eq_of_failIfBroken {u : Unit} (e : failIfBroken k = .ok u left) :
    left = k ∧ k.source.met = none := by
  cases hmet : k.source.met with
  | none =>
    rw [failIfBroken_unmet hmet] at e
    cases e
    exact ⟨rfl, rfl⟩
  | some cause =>
    rw [failIfBroken_met hmet] at e
    cases e

theorem unexpectedEnd_ne_ok {α : Type} {expected : String} {a : α} :
    (unexpectedEnd expected : Scan α) k ≠ .ok a left := by
  intro e
  obtain ⟨_, k₁, -, e⟩ := bind_ok e
  cases e

/-! ## Line ends -/

theorem exists_partner {c : Char} (h : Unicode.isLineEnd c = true) :
    ∃ p, lineEndPartner? c = some p := by
  simp only [Unicode.isLineEnd, Bool.or_eq_true, beq_iff_eq] at h
  rcases h with rfl | rfl
  · exact ⟨_, rfl⟩
  · exact ⟨_, rfl⟩

/-- The other half of a line end is read if it comes next; no place moves over
it. -/
theorem consumePartner_ok {keep : Bool} {p : Char} {u : Unit}
    (e : consumePartner keep p k = .ok u left) :
    (k.ahead.head? ≠ some p ∧ k.Same left ∧ left.ahead = k.ahead) ∨
      (k.ahead = p :: left.ahead ∧ left.written = (if keep then [p] else []) ++ k.written ∧
        left.here = k.here ∧ left.start = k.start ∧ left.last = k.last ∧
        left.previous = k.previous) := by
  obtain ⟨found, k₁, e₁, e⟩ := bind_ok e
  obtain ⟨hf, r₁⟩ := nextIs_ok e₁
  cases found with
  | false =>
    obtain ⟨-, rfl⟩ := pure_ok e
    refine Or.inl ⟨?_, ⟨r₁.written, r₁.here, r₁.start, r₁.last, r₁.previous⟩,
      r₁.ahead_eq⟩
    intro hp
    rw [← r₁.ahead_eq] at hp
    exact Bool.noConfusion (hf.2 hp)
  | true =>
    obtain ⟨c, k₂, e₂, e₃⟩ := bind_ok e
    cases e₂
    have hs := k₁.same_taken
    have r₃ := pushIf_ok e₃
    obtain ⟨rest, hk⟩ := List.head?_eq_some_iff.1 (hf.1 rfl)
    refine Or.inr ⟨?_, ?_, ?_, ?_, ?_, ?_⟩
    · rw [r₃.ahead_eq, Cursor.ahead_taken, ← r₁.ahead_eq, hk]
      rfl
    · rw [r₃.written, hs.written, r₁.written]
      cases keep <;> rfl
    · exact r₃.here.trans (hs.here.trans r₁.here)
    · exact r₃.start.trans (hs.start.trans r₁.start)
    · exact r₃.last.trans (hs.last.trans r₁.last)
    · exact r₃.previous.trans (hs.previous.trans r₁.previous)

/-- A character that may be the first half of a line end was read. -/
structure HalfRead (keep : Bool) (c : Char) (k mid : Cursor) : Prop where
  ahead : k.ahead = c :: mid.ahead
  written : mid.written = (if keep then [c] else []) ++ k.written
  here : mid.here = k.here.after c
  last : mid.last = k.here
  start : mid.start = k.start
  previous : mid.previous = k.previous

theorem halfRead_ok {keep : Bool} {c d : Char} {u : Unit} {mid : Cursor}
    (h : k.ahead.head? = some c) (e : skip k = .ok d mid)
    (e' : pushIf keep c mid = .ok u left) :
    HalfRead keep c k left := by
  obtain ⟨rest, hk⟩ := List.head?_eq_some_iff.1 h
  rw [skip_cons hk] at e
  cases e
  have hs := k.same_taken
  have r := pushIf_ok e'
  constructor
  · rw [r.ahead_eq, Cursor.ahead_moved, hk]
    rfl
  · rw [r.written]
    cases keep <;> exact congrArg _ hs.written
  · exact r.here
  · exact r.last
  · exact r.start.trans hs.start
  · exact r.previous.trans hs.previous

section HalfRead

variable {keep : Bool} {c p : Char} {mid : Cursor}

/-- The walk after the first half of a line end. -/
theorem step_lineEnd (hp : lineEndPartner? c = some p) :
    k.trail.step c = ⟨k.here.after c, k.here, some p⟩ := by
  rw [Trail.step_of_none rfl, hp]
  rfl

/-- A line end of one character, as the other half does not follow. -/
theorem HalfRead.alone (h : HalfRead keep c k mid)
    (hp : lineEndPartner? c = some p) (hne : mid.ahead.head? ≠ some p)
    (hs : mid.Same left) (ha : left.ahead = mid.ahead) :
    k.Reads [c] (if keep then [c] else []) left := by
  have hstep := step_lineEnd (k := k) hp
  constructor
  · rw [h.ahead, ha]
    rfl
  · rw [hs.written, h.written]
    cases keep <;> rfl
  · rw [Trail.along_cons, hstep, hs.here, h.here]
    rfl
  · rw [Trail.along_cons, hstep, hs.last, h.last]
    rfl
  · intro q hq
    rw [Trail.along_cons, hstep] at hq
    cases hq
    rw [ha]
    exact hne
  · exact hs.start.trans h.start
  · exact hs.previous.trans h.previous

/-- A line end of two characters; no place moves over the second. -/
theorem HalfRead.paired (h : HalfRead keep c k mid)
    (hp : lineEndPartner? c = some p) (ha : mid.ahead = p :: left.ahead)
    (hw : left.written = (if keep then [p] else []) ++ mid.written)
    (hh : left.here = mid.here) (hst : left.start = mid.start)
    (hl : left.last = mid.last) (hpr : left.previous = mid.previous) :
    k.Reads [c, p] (if keep then [c, p] else []) left := by
  have hstep : (k.trail.step c).step p = ⟨k.here.after c, k.here, none⟩ := by
    rw [step_lineEnd hp]
    exact if_pos rfl
  constructor
  · rw [h.ahead, ha]
    rfl
  · rw [hw, h.written]
    cases keep <;> rfl
  · rw [Trail.along_cons, Trail.along_cons, hstep, hh, h.here]
    rfl
  · rw [Trail.along_cons, Trail.along_cons, hstep, hl, h.last]
    rfl
  · rw [Trail.along_cons, Trail.along_cons, hstep]
    exact Trail.apart_of_partner rfl _
  · exact hst.trans h.start
  · exact hpr.trans h.previous

end HalfRead

/-- What is read of a line end behind its first character: the other half, or
nothing where it does not come next. -/
inductive OtherHalf (c : Char) (left : List Char) : List Char → Prop
  | missing (h : ∀ p, lineEndPartner? c = some p → left.head? ≠ some p) : OtherHalf c left []
  | read {p : Char} (h : lineEndPartner? c = some p) : OtherHalf c left [p]

/-- A line end is read whole: one character, or two that belong together. -/
theorem consumeLineEnd_reads {keep allowEnd : Bool} {c : Char} {u : Unit}
    (h : k.ahead.head? = some c) (hc : Unicode.isLineEnd c = true)
    (e : consumeLineEnd keep allowEnd k = .ok u left) :
    ∃ cs, OtherHalf c left.ahead cs ∧
      k.Reads (c :: cs) (if keep then c :: cs else []) left := by
  obtain ⟨p, hp⟩ := exists_partner hc
  obtain ⟨x, k₁, e₁, e⟩ := bind_ok e
  obtain ⟨rfl, r₁⟩ := look_ok e₁
  rw [← r₁.ahead_eq] at h
  simp only [h, hp] at e
  obtain ⟨_, k₂, e₂, e⟩ := bind_ok e
  obtain ⟨_, k₃, e₃, e₄⟩ := bind_ok e
  have hhalf : HalfRead keep c k₁ k₃ := halfRead_ok h e₂ e₃
  rcases consumePartner_ok e₄ with ⟨hne, hsame, ha⟩ | ⟨ha, hw, hh, hst, hl, hpr⟩
  · refine ⟨[], .missing ?_, r₁.trans (hhalf.alone hp hne hsame ha)⟩
    intro q hq
    rw [hp] at hq
    cases hq
    rw [ha]
    exact hne
  · exact ⟨[p], .read hp, r₁.trans (hhalf.paired hp ha hw hh hst hl hpr)⟩

theorem consumeLineEnd_ok {keep allowEnd : Bool} {c : Char} {u : Unit}
    (h : k.ahead.head? = some c) (hc : Unicode.isLineEnd c = true)
    (e : consumeLineEnd keep allowEnd k = .ok u left) :
    ∃ cs, (∀ d ∈ cs, Unicode.isLineEnd d = true) ∧
      k.Reads (c :: cs) (if keep then c :: cs else []) left := by
  obtain ⟨cs, hcs, r⟩ := consumeLineEnd_reads h hc e
  refine ⟨cs, ?_, r⟩
  cases hcs with
  | missing => simp
  | read hp => simpa using (isLineEnd_of_partner? hp).2

/-! ## Repetitions -/

/-- What a turn hands on: what holds of the turns after it holds of it and them,
and of a last turn it holds by itself. `φ` relates a state to the value, the
cursor that is left, and what was read and written on the way. -/
def Turn.HandsOn {σ α : Type}
    (φ : σ → α → Cursor → List Char → List Char → Prop) (s : σ)
    (cs ws : List Char) (mid : Cursor) : Turn σ α → Prop
  | .again s' => ∀ a left ds vs, φ s' a left ds vs →
      φ s a left (cs ++ ds) (ws ++ vs)
  | .done a => φ s a mid cs ws

/-- What a turn of a run does: it reads characters of a class, and keeps them or
not, or it stops at another character. -/
def Turn.RunsOn {σ α : Type} (p : Char → Bool) (keep : Bool) (k mid : Cursor) :
    Turn σ α → Prop
  | .again _ => ∃ cs, (∀ c ∈ cs, p c = true) ∧
      k.Reads cs (if keep then cs else []) mid
  | .done _ => k.Reads [] [] mid ∧ ∀ c, mid.ahead.head? = some c → p c = false

section Iterate

variable {σ α : Type} {turn : σ → Scan (Turn σ α)} {h : ∀ s, Advances (turn s)}

/-- What a repetition reads and writes, if every turn hands its part on to the
next one. -/
theorem iterate_ok {φ : σ → α → Cursor → List Char → List Char → Prop}
    (hturn : ∀ s k r mid, turn s k = .ok r mid →
      ∃ cs ws, k.Reads cs ws mid ∧ r.HandsOn φ s cs ws mid)
    {s : σ} {a : α} (e : iterate turn h s k = .ok a left) :
    ∃ cs ws, k.Reads cs ws left ∧ φ s a left cs ws := by
  refine iterate_induction (h := h)
    (P := fun s k r => ∀ a left, r = .ok a left → ∃ cs ws, k.Reads cs ws left ∧
      φ s a left cs ws)
    ?_ ?_ ?_ s k a left e
  · intro s k s' mid r e ih a left hr
    obtain ⟨cs, ws, r₁, hφ⟩ := hturn s k _ mid e
    obtain ⟨ds, vs, r₂, hφ'⟩ := ih a left hr
    exact ⟨cs ++ ds, ws ++ vs, r₁.trans r₂, hφ a left ds vs hφ'⟩
  · intro s k a left e a' left' hr
    cases hr
    exact hturn s k _ left e
  · intro s k fault left e a left' hr
    cases hr

/-- A repetition that reads a run of characters to its end, and keeps it or
not. -/
theorem run_ok {p : Char → Bool} {keep : Bool}
    (hturn : ∀ s k r mid, turn s k = .ok r mid → r.RunsOn p keep k mid) {s : σ}
    {a : α} (e : iterate turn h s k = .ok a left) :
    k.Reads (k.ahead.takeWhile p)
      (if keep then k.ahead.takeWhile p else []) left := by
  refine iterate_induction (h := h)
    (P := fun _ k r => ∀ a left, r = .ok a left →
      k.Reads (k.ahead.takeWhile p)
        (if keep then k.ahead.takeWhile p else []) left)
    ?_ ?_ ?_ s k a left e
  · intro s k s' mid r e ih a left hr
    obtain ⟨cs, hcs, r₁⟩ := hturn s k _ mid e
    have htake : k.ahead.takeWhile p = cs ++ mid.ahead.takeWhile p := by
      rw [r₁.ahead, List.takeWhile_append_of_pos hcs]
    have r₂ := r₁.trans (ih a left hr)
    rw [htake]
    cases keep <;> exact r₂
  · intro s k a left e a' left' hr
    cases hr
    obtain ⟨r₁, hstop⟩ := hturn s k _ left e
    have htake : k.ahead.takeWhile p = [] := by
      rw [← r₁.ahead_eq]
      cases hl : left.ahead with
      | nil => rfl
      | cons c rest =>
        have hc : p c = false := hstop c (by rw [hl]; rfl)
        rw [List.takeWhile_cons_of_neg (by simp [hc])]
    rw [htake]
    cases keep <;> exact r₁
  · intro s k fault left e a left' hr
    cases hr

end Iterate

/-- The common part of taking a run of characters into the token and passing
over it. -/
theorem runWhile_ok {p : Char → Bool} {keep : Bool} {one : Scan Char}
    (hone : ∀ {k left : Cursor} {c d : Char}, k.ahead.head? = some c →
      Unicode.isLineEnd c = false → one k = .ok d left →
      k.Reads [c] (if keep then [c] else []) left)
    (hp : ∀ c, p c = true → Unicode.isLineEnd c = false)
    {turn : Unit → Scan (Turn Unit Unit)} (ht : ∀ u, turn u = do
      match ← look with
      | none => return .done ()
      | some c => if p c then let _ ← one; return .again () else return .done ())
    {h : ∀ u, Advances (turn u)} {u v : Unit}
    (e : iterate turn h u k = .ok v left) :
    k.Reads (k.ahead.takeWhile p)
      (if keep then k.ahead.takeWhile p else []) left := by
  refine run_ok ?_ e
  intro s k r mid e
  rw [ht s] at e
  rcases look_bind_ok e with ⟨k₁, r₁, hk, e⟩ | ⟨c, k₁, r₁, hc, e⟩
  · cases e
    exact ⟨r₁, by simp [hk]⟩
  · dsimp only at e
    split at e
    · rename_i hpc
      obtain ⟨d, k₂, e₂, e⟩ := bind_ok e
      have r₂ := hone hc (hp c hpc) e₂
      cases e
      exact ⟨[c], by simpa using hpc, r₁.trans r₂⟩
    · rename_i hpc
      cases e
      exact ⟨r₁, by simpa [hc] using hpc⟩

theorem consumeWhile_ok {p : Char → Bool}
    (hp : ∀ c, p c = true → Unicode.isLineEnd c = false) {u : Unit}
    (e : consumeWhile p k = .ok u left) :
    k.Reads (k.ahead.takeWhile p) (k.ahead.takeWhile p) left := by
  have hone : ∀ {k left : Cursor} {c d : Char}, k.ahead.head? = some c →
      Unicode.isLineEnd c = false → consume k = .ok d left →
      k.Reads [c] (if true then [c] else []) left :=
    fun hc hl e => (consume_ok hc hl e).2
  exact runWhile_ok hone hp (fun _ => rfl) e

/-- What follows a run does not belong to it. -/
theorem not_of_run {p : Char → Bool} {ws : List Char} {left : Cursor} {c : Char}
    (r : k.Reads (k.ahead.takeWhile p) ws left) (hc : left.ahead.head? = some c) :
    p c = false := by
  have hahead : left.ahead = k.ahead.dropWhile p :=
    List.append_cancel_left (r.ahead.symm.trans List.takeWhile_append_dropWhile.symm)
  have hnot := List.head?_dropWhile_not p k.ahead
  rw [← hahead, hc] at hnot
  exact hnot

theorem skipWhile_ok {p : Char → Bool}
    (hp : ∀ c, p c = true → Unicode.isLineEnd c = false) {u : Unit}
    (e : skipWhile p k = .ok u left) :
    k.Reads (k.ahead.takeWhile p) [] left := by
  have hone : ∀ {k left : Cursor} {c d : Char}, k.ahead.head? = some c →
      Unicode.isLineEnd c = false → skip k = .ok d left →
      k.Reads [c] (if false then [c] else []) left :=
    fun hc hl e => (skip_ok hc hl e).2
  exact runWhile_ok hone hp (fun _ => rfl) e

theorem blankTurn_ok (s : Unit) (r : Turn Unit Unit)
    (e : blankTurn s k = .ok r left) :
    r.RunsOn Unicode.isBlank false k left := by
  rcases look_bind_ok e with ⟨k₁, r₁, hk, e⟩ | ⟨c, k₁, r₁, hc, e⟩
  · cases e
    exact ⟨r₁, by simp [hk]⟩
  · dsimp only at e
    split at e
    · rename_i hb
      cases e
      exact ⟨r₁, by simpa [hc] using hb⟩
    · rename_i hb
      split at e
      · rename_i hl
        obtain ⟨_, k₂, e₂, e⟩ := bind_ok e
        obtain ⟨cs, hcs, r₂⟩ := consumeLineEnd_ok hc hl e₂
        cases e
        refine ⟨c :: cs, ?_, r₁.trans r₂⟩
        intro d hd
        rcases List.mem_cons.1 hd with rfl | hd
        · exact Unicode.isBlank_of_isLineEnd hl
        · exact Unicode.isBlank_of_isLineEnd (hcs d hd)
      · rename_i hl
        obtain ⟨d, k₂, e₂, e⟩ := bind_ok e
        obtain ⟨-, r₂⟩ := skip_ok hc (by simpa using hl) e₂
        cases e
        exact ⟨[c], by simpa using hb, r₁.trans r₂⟩

/-- Blank characters are passed over up to the first other one. -/
theorem blanks_ok {u : Unit}
    (e : iterate blankTurn advances_blankTurn () k = .ok u left) :
    k.Reads (k.ahead.takeWhile Unicode.isBlank) [] left :=
  run_ok (fun s _ r _ e => blankTurn_ok s r e) e

end Scan

end TripleLex

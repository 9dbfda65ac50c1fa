import TripleLex.Cursor.Scan

/-!
# Places reached by reading

The place after a text is found by pairing its line ends from the left: `\r\n`
and `\n\r` are one line end each, so are `\r` and `\n` where they stand alone,
and every other character moves one column on. `Position.past` says so about
whole texts.

A cursor finds its place one character at a time. A `Trail` is what that walk
has to know: where the next character stands, where the last one stood, and the
character that would still belong to the line end just read. Walking is a fold,
so it splits wherever a text is cut.

## Main results

* `here_along` — walking along a text leads to the place that pairing finds.
* `along_of_apart` — a cut that no line end spans may be forgotten.
* `along_ordered` — the last character read stands before the next one, and not
  before the first.
* `here_along_inline` — without line ends, walking counts characters.
-/

namespace TripleLex

open Scan (lineEndPartner?)

namespace Position

/-- The place after a text that begins here. -/
def past : Position → List Char → Position
  | p, [] => p
  | p, [c] => p.after c
  | p, c :: d :: rest =>
    if lineEndPartner? c = some d then past ⟨p.line + 1,
      1⟩ rest else past (p.after c) (d :: rest)

/-- Whether a place comes earlier than another one. -/
def before (p q : Position) : Bool :=
  decide (p.line < q.line) || (decide (p.line = q.line) && decide (p.column < q.column))

theorem atMost_iff {p q : Position} :
    p.atMost q = true ↔ p.line < q.line ∨
    (p.line = q.line ∧ p.column ≤ q.column) := by
  simp [atMost]

theorem before_iff {p q : Position} :
    p.before q = true ↔ p.line < q.line ∨
    (p.line = q.line ∧ p.column < q.column) := by
  simp [before]

theorem atMost_of_before {p q : Position} (h : p.before q = true) :
    p.atMost q = true := by
  rw [before_iff] at h
  rw [atMost_iff]
  omega

theorem before_of_atMost {p q r : Position} (h : p.atMost q = true)
    (k : q.before r = true) :
    p.before r = true := by
  rw [atMost_iff] at h
  rw [before_iff] at k ⊢
  omega

theorem before_of_before {p q r : Position} (h : p.before q = true)
    (k : q.atMost r = true) :
    p.before r = true := by
  rw [atMost_iff] at k
  rw [before_iff] at h ⊢
  omega

theorem before_after (p : Position) (c : Char) :
    p.before (p.after c) = true := by
  rw [before_iff]
  unfold after
  split
  · exact Or.inl (Nat.lt_succ_self _)
  · exact Or.inr ⟨rfl, Nat.lt_succ_self _⟩

end Position

/-! ## Characters within a line -/

/-- Characters none of which ends a line. -/
def Inline (cs : List Char) : Prop := ∀ c ∈ cs, Unicode.isLineEnd c = false

theorem inline_nil : Inline [] := by
  intro c hc
  cases hc

theorem inline_singleton {c : Char} (h : Unicode.isLineEnd c = false) :
    Inline [c] := by
  intro d hd
  rw [List.mem_singleton] at hd
  rw [hd, h]

theorem Inline.append {cs ds : List Char} (h : Inline cs) (k : Inline ds) :
    Inline (cs ++ ds) := by
  intro c hc
  rcases List.mem_append.1 hc with hc | hc
  · exact h c hc
  · exact k c hc

theorem Inline.cons {c : Char} {cs : List Char}
    (h : Unicode.isLineEnd c = false) (k : Inline cs) :
    Inline (c :: cs) := by
  intro d hd
  rcases List.mem_cons.1 hd with rfl | hd
  · exact h
  · exact k d hd

/-- A class of characters that leaves both line ends out holds characters within
a line only. -/
theorem not_isLineEnd_of {p : Char → Bool} (hn : p '\n' = false)
    (hr : p '\r' = false) {c : Char} (h : p c = true) :
    Unicode.isLineEnd c = false := by
  rw [Bool.eq_false_iff]
  intro hc
  simp only [Unicode.isLineEnd, Bool.or_eq_true, beq_iff_eq] at hc
  rcases hc with rfl | rfl
  · rw [hn] at h
    cases h
  · rw [hr] at h
    cases h

theorem partner?_eq_none {c : Char} (h : Unicode.isLineEnd c = false) :
    lineEndPartner? c = none := by
  unfold lineEndPartner?
  split
  · simp [Unicode.isLineEnd] at h
  · simp [Unicode.isLineEnd] at h
  · rfl

theorem isLineEnd_of_partner? {c d : Char} (h : lineEndPartner? c = some d) :
    Unicode.isLineEnd c = true ∧ Unicode.isLineEnd d = true := by
  unfold lineEndPartner? at h
  split at h <;> simp_all [Unicode.isLineEnd]
  · simp [← h]
  · simp [← h]

theorem after_of_isLineEnd {p : Position} {c : Char}
    (h : Unicode.isLineEnd c = true) :
    p.after c = ⟨p.line + 1, 1⟩ := by
  unfold Position.after
  exact if_pos h

theorem after_of_not_isLineEnd {p : Position} {c : Char}
    (h : Unicode.isLineEnd c = false) :
    p.after c = ⟨p.line, p.column + 1⟩ := by
  unfold Position.after
  exact if_neg (by simpa [Unicode.isLineEnd] using h)

/-! ## Walking -/

/-- Where a walk through a text has come to. -/
structure Trail where
  /-- Where the next character stands. -/
  here : Position
  /-- Where the last character stood; a line end of two characters stands where
  it begins. -/
  last : Position
  /-- The character that would still belong to the line end just read. -/
  partner : Option Char
  deriving DecidableEq, Repr

namespace Trail

/-- One character further. -/
def step (r : Trail) (c : Char) : Trail :=
  if r.partner = some c then { r with partner := none }
  else ⟨r.here.after c, r.here, lineEndPartner? c⟩

/-- Further along a text. -/
def along (r : Trail) (cs : List Char) : Trail := cs.foldl step r

@[simp] theorem along_nil (r : Trail) : r.along [] = r := rfl

@[simp] theorem along_cons (r : Trail) (c : Char) (cs : List Char) :
    r.along (c :: cs) = (r.step c).along cs := rfl

theorem along_append (r : Trail) (cs ds : List Char) :
    r.along (cs ++ ds) = (r.along cs).along ds := List.foldl_append

/-- Whether no line end spans the cut before these characters. -/
def Apart (r : Trail) (ahead : List Char) : Prop :=
  ∀ p, r.partner = some p → ahead.head? ≠ some p

theorem apart_of_partner {r : Trail} (h : r.partner = none)
    (ahead : List Char) : r.Apart ahead := by
  intro p hp
  rw [h] at hp
  cases hp

theorem step_of_ne {r : Trail} {c : Char} (h : r.partner ≠ some c) :
    r.step c = ⟨r.here.after c, r.here, lineEndPartner? c⟩ := by
  unfold step
  exact if_neg h

theorem step_of_none {r : Trail} (h : r.partner = none) (c : Char) :
    r.step c = ⟨r.here.after c, r.here, lineEndPartner? c⟩ := by
  apply step_of_ne
  rw [h]
  exact nofun

theorem Apart.partner_ne {r : Trail} {c : Char} {cs : List Char}
    (h : r.Apart (c :: cs)) :
    r.partner ≠ some c := by
  intro hp
  exact h c hp rfl

/-- Two walks that stand at the same place stay together. -/
theorem along_congr {r s : Trail} {cs : List Char} (hr : r.Apart cs)
    (hs : s.Apart cs) (h : r.here = s.here) (hne : cs ≠ []) :
    r.along cs = s.along cs := by
  cases cs with
  | nil => exact absurd rfl hne
  | cons c cs =>
    rw [along_cons, along_cons, step_of_ne hr.partner_ne,
      step_of_ne hs.partner_ne, h]

theorem along_of_apart {r : Trail} {cs : List Char} (h : r.Apart cs)
    (hne : cs ≠ []) :
    r.along cs = (⟨r.here, r.last, none⟩ : Trail).along cs :=
  along_congr h (apart_of_partner rfl _) rfl hne

/-- Walking along a text leads to the place that pairing its line ends finds. -/
theorem here_along (p q : Position) (cs : List Char) :
    ((⟨p, q, none⟩ : Trail).along cs).here = p.past cs := by
  fun_induction Position.past p cs generalizing q with
  | case1 p => rfl
  | case2 p c => rfl
  | case3 p c d rest h ih =>
    have hc : Unicode.isLineEnd c = true := (isLineEnd_of_partner? h).1
    rw [along_cons, step_of_none rfl, along_cons]
    simp only [step, h, if_true, after_of_isLineEnd hc]
    exact ih p
  | case4 p c d rest h ih =>
    rw [along_cons, step_of_none rfl,
      along_of_apart _ (List.cons_ne_nil d rest)]
    · exact ih p
    · intro e he
      rw [List.head?_cons]
      rintro ⟨⟩
      exact h he

/-- Only a line end can still belong to a line end. -/
theorem isLineEnd_of_partner_along {r : Trail} {cs : List Char}
    (h : ∀ p, r.partner = some p → Unicode.isLineEnd p = true) :
    ∀ p, (r.along cs).partner = some p → Unicode.isLineEnd p = true := by
  induction cs generalizing r with
  | nil => exact h
  | cons c cs ih =>
    rw [along_cons]
    apply ih
    intro p hp
    unfold step at hp
    split at hp
    · cases hp
    · exact (isLineEnd_of_partner? hp).2

/-- Which character within a line comes next does not matter. -/
theorem step_inline {r : Trail} {c d : Char}
    (h : ∀ p, r.partner = some p → Unicode.isLineEnd p = true)
    (hc : Unicode.isLineEnd c = false) (hd : Unicode.isLineEnd d = false) :
    r.step c = r.step d := by
  have hne : ∀ {e : Char}, Unicode.isLineEnd e = false →
      r.partner ≠ some e := by
    intro e he hp
    rw [h e hp] at he
    cases he
  rw [step_of_ne (hne hc), step_of_ne (hne hd), after_of_not_isLineEnd hc,
    after_of_not_isLineEnd hd, partner?_eq_none hc, partner?_eq_none hd]

/-! ## Order -/

theorem step_ordered {r : Trail} {p : Position} (h : p.atMost r.last = true)
    (k : r.last.before r.here = true) (c : Char) :
    p.atMost (r.step c).last = true ∧
    (r.step c).last.before (r.step c).here = true := by
  unfold step
  split
  · exact ⟨h, k⟩
  · exact ⟨Position.atMost_trans h (Position.atMost_of_before k),
      r.here.before_after c⟩

theorem along_ordered' {r : Trail} {p : Position} (h : p.atMost r.last = true)
    (k : r.last.before r.here = true) (cs : List Char) :
    p.atMost (r.along cs).last = true ∧
    (r.along cs).last.before (r.along cs).here = true := by
  induction cs generalizing r with
  | nil => exact ⟨h, k⟩
  | cons c cs ih =>
    have hs := step_ordered h k c
    exact ih hs.1 hs.2

theorem along_ordered {r : Trail} {cs : List Char} (h : r.Apart cs)
    (hne : cs ≠ []) :
    r.here.atMost (r.along cs).last = true ∧
    (r.along cs).last.before (r.along cs).here = true := by
  cases cs with
  | nil => exact absurd rfl hne
  | cons c cs =>
    rw [along_cons, step_of_ne h.partner_ne]
    exact along_ordered' (r := ⟨r.here.after c, r.here, lineEndPartner? c⟩)
      (Position.atMost_refl _) (r.here.before_after c) cs

theorem here_atMost_along {r : Trail} {cs : List Char} (h : r.Apart cs) :
    r.here.atMost (r.along cs).here = true := by
  by_cases hne : cs = []
  · rw [hne]
    exact Position.atMost_refl _
  · have ho := along_ordered h hne
    exact Position.atMost_of_before (Position.before_of_atMost ho.1 ho.2)

/-! ## Within a line -/

theorem partner_along_inline {r : Trail} {cs : List Char} (h : Inline cs)
    (hr : r.partner = none) :
    (r.along cs).partner = none := by
  induction cs generalizing r with
  | nil => exact hr
  | cons c cs ih =>
    have hc : Unicode.isLineEnd c = false := h c (List.mem_cons_self ..)
    rw [along_cons, step_of_none hr]
    exact ih (fun d hd => h d (List.mem_cons_of_mem _ hd)) (partner?_eq_none hc)

theorem here_along_inline {r : Trail} {cs : List Char} (h : Inline cs)
    (hr : r.partner = none) :
    (r.along cs).here = ⟨r.here.line, r.here.column + cs.length⟩ := by
  induction cs generalizing r with
  | nil => rfl
  | cons c cs ih =>
    have hc : Unicode.isLineEnd c = false := h c (List.mem_cons_self ..)
    rw [along_cons, step_of_none hr,
      ih (fun d hd => h d (List.mem_cons_of_mem _ hd)) (partner?_eq_none hc)]
    simp only [after_of_not_isLineEnd hc, List.length_cons, Position.mk.injEq,
      true_and]
    omega

/-- Within a line the last character stood where the walk was before it. -/
theorem last_along_inline {r : Trail} {cs : List Char} (h : Inline cs)
    (hr : r.partner = none) (hne : cs ≠ []) :
    (r.along cs).last = (r.along cs.dropLast).here := by
  have hd : Inline cs.dropLast := by
    intro c hc
    exact h c ((List.dropLast_sublist cs).subset hc)
  have hs : r.along cs = (r.along cs.dropLast).step (cs.getLast hne) := by
    rw [← along_nil (step _ _), ← along_cons, ← along_append,
      List.dropLast_concat_getLast hne]
  rw [hs, step_of_none (partner_along_inline hd hr)]

end Trail

end TripleLex

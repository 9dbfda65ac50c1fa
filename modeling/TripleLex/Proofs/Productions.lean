import Mathlib.Computability.Language

/-!
# Productions

A grammar's productions as languages: a character of a class, one word behind another, an
alternative, an optional part, a repetition. A word is found in one by its first character,
so that a recogniser that reads a word once from the left can be compared with it.

## Main results

* `cons_mem_one_mul`, `mem_kstar_mul` — the first character taken off.
* `mem_kstar_one`, `mem_many_one` — runs of characters of a class.
-/

namespace TripleLex.Production

open scoped Computability

/-- One character of a class. -/
def one (p : Char → Bool) : Language Char := {w | ∃ c, p c = true ∧ w = [c]}

/-- This character. -/
def char (c : Char) : Language Char := one (· == c)

/-- A word of the language, or none. -/
def optional (l : Language Char) : Language Char := 1 + l

/-- A word of the language, and any number of others behind it. -/
def many (l : Language Char) : Language Char := l * l∗

variable {p q : Char → Bool} {l m : Language Char} {c d : Char} {w : List Char}

theorem mem_optional : w ∈ optional l ↔ w = [] ∨ w ∈ l := Iff.rfl

/-! ## One character -/

theorem mem_one : w ∈ one p ↔ ∃ c, p c = true ∧ w = [c] := Iff.rfl

theorem mem_char : w ∈ char c ↔ w = [c] := by
  simp [char, mem_one]

theorem nil_notMem_one : [] ∉ one p := by
  rintro ⟨c, -, h⟩
  cases h

theorem mem_one_mul : w ∈ one p * l ↔ ∃ c v, w = c :: v ∧ p c = true ∧ v ∈ l := by
  rw [Language.mem_mul]
  constructor
  · rintro ⟨u, ⟨c, hc, rfl⟩, v, hv, rfl⟩
    exact ⟨c, v, rfl, hc, hv⟩
  · rintro ⟨c, v, rfl, hc, hv⟩
    exact ⟨[c], ⟨c, hc, rfl⟩, v, hv, rfl⟩

theorem nil_notMem_one_mul : [] ∉ one p * l := by
  rw [mem_one_mul]
  rintro ⟨c, v, h, -⟩
  cases h

theorem cons_mem_one_mul : c :: w ∈ one p * l ↔ p c = true ∧ w ∈ l := by
  rw [mem_one_mul]
  constructor
  · rintro ⟨d, v, h, hd, hv⟩
    obtain ⟨rfl, rfl⟩ := List.cons.inj h
    exact ⟨hd, hv⟩
  · rintro ⟨hc, hw⟩
    exact ⟨c, w, rfl, hc, hw⟩

theorem cons_mem_char_mul : c :: w ∈ char d * l ↔ c = d ∧ w ∈ l := by
  rw [char, cons_mem_one_mul, beq_iff_eq]

/-- A character between two words. -/
theorem mem_mul_char_mul : w ∈ l * char c * m ↔ ∃ u v, w = u ++ c :: v ∧ u ∈ l ∧ v ∈ m := by
  rw [mul_assoc, Language.mem_mul]
  constructor
  · rintro ⟨u, hu, _, hv, rfl⟩
    obtain ⟨_, v, rfl, hc, hv⟩ := mem_one_mul.1 hv
    rw [beq_iff_eq.1 hc]
    exact ⟨u, v, rfl, hu, hv⟩
  · rintro ⟨u, v, rfl, hu, hv⟩
    exact ⟨u, hu, c :: v, cons_mem_char_mul.2 ⟨rfl, hv⟩, rfl⟩

/-- Two classes are one. -/
theorem one_add_one : one p + one q = one fun c => p c || q c := by
  ext w
  rw [Language.mem_add, mem_one, mem_one, mem_one]
  constructor
  · rintro (⟨c, hc, rfl⟩ | ⟨c, hc, rfl⟩)
    · exact ⟨c, by simp [hc], rfl⟩
    · exact ⟨c, by simp [hc], rfl⟩
  · rintro ⟨c, hc, rfl⟩
    exact (Bool.or_eq_true_iff.1 hc).imp (⟨c, ·, rfl⟩) (⟨c, ·, rfl⟩)

/-! ## Repetitions -/

/-- A repetition is over, or goes on. -/
theorem kstar_eq (l : Language Char) : l∗ = 1 + l * l∗ :=
  (Language.one_add_self_mul_kstar_eq_kstar l).symm

theorem kstar_mul_eq (l m : Language Char) : l∗ * m = m + l * (l∗ * m) := by
  conv_lhs => rw [kstar_eq, add_mul, one_mul, mul_assoc]

theorem mem_kstar : w ∈ l∗ ↔ w = [] ∨ w ∈ l * l∗ := by
  conv_lhs => rw [kstar_eq]
  exact Iff.rfl

theorem mem_kstar_mul : w ∈ l∗ * m ↔ w ∈ m ∨ w ∈ l * (l∗ * m) := by
  conv_lhs => rw [kstar_mul_eq]
  exact Iff.rfl

theorem mem_kstar_one : w ∈ (one p)∗ ↔ w.all p = true := by
  induction w with
  | nil => simp [mem_kstar]
  | cons c w ih => simp [mem_kstar, cons_mem_one_mul, ih]

theorem mem_many_one : w ∈ many (one p) ↔ w ≠ [] ∧ w.all p = true := by
  cases w with
  | nil => simp [many, nil_notMem_one_mul]
  | cons c w => simp [many, cons_mem_one_mul, mem_kstar_one]

end TripleLex.Production

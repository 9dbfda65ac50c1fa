/-!
# Sets of characters given by ranges

A Unicode property is a set of code points. The tables beside this module list
each set as its maximal runs, in increasing order; membership is one scan of the
runs.
-/

namespace TripleLex.Unicode

/-- Runs of code points, each with its first and its last member. -/
abbrev Ranges := List (Nat × Nat)

/-- Whether one of the runs holds the character. -/
def Ranges.has (runs : Ranges) (c : Char) : Bool :=
  runs.any fun run => decide (run.1 ≤ c.toNat) && decide (c.toNat ≤ run.2)

theorem Ranges.has_iff {runs : Ranges} {c : Char} :
    runs.has c = true ↔ ∃ run ∈ runs, run.1 ≤ c.toNat ∧ c.toNat ≤ run.2 := by
  simp [Ranges.has]

/-- Runs that begin later do not hold the character. -/
theorem Ranges.has_eq_false {runs : Ranges} {c : Char} (h : ∀ run ∈ runs, c.toNat < run.1) :
    runs.has c = false := by
  rw [← Bool.not_eq_true, Ranges.has_iff]
  rintro ⟨run, hrun, hle, -⟩
  exact absurd (h run hrun) (Nat.not_lt.2 hle)

/-- Runs that lie apart from the other ones hold none of their characters. -/
theorem Ranges.has_eq_false_of_apart (runs : Ranges) {more : Ranges} {c : Char}
    (h : ∀ run ∈ runs, ∀ other ∈ more, run.2 < other.1 ∨ other.2 < run.1)
    (hc : runs.has c = true) : Ranges.has more c = false := by
  rw [← Bool.not_eq_true, Ranges.has_iff]
  rintro ⟨other, hother, hlo, hhi⟩
  obtain ⟨run, hrun, hlo', hhi'⟩ := Ranges.has_iff.1 hc
  have := h run hrun other hother
  omega

theorem Ranges.has_append (runs more : Ranges) (c : Char) :
    Ranges.has (runs ++ more) c = (runs.has c || more.has c) := by
  simp [Ranges.has]

end TripleLex.Unicode

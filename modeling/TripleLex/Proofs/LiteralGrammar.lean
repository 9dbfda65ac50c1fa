import TripleLex.Proofs.Productions
import TripleLex.Proofs.TrailingDots

/-!
# Numbers and language tags by their productions

A number is recognised by its parts from the left: a sign, digits, a dot and digits, an
exponent. Which of them may be missing is asked afterwards. The productions name the three
sorts of numbers instead, and the sorts overlap: digits before a dot make an exponent
necessary, or digits behind it, or a caller who allows the dot at the end. A language tag is a
run of letters and then runs behind hyphens.

## Main results

* `Number.unsigned_iff`, `Number.isNumber_iff` — numbers.
* `Number.isNumber_true_iff` — numbers where a dot may stand at the end.
* `Name.isLanguageTag_iff` — language tags.
* `literals_derived` — both, and plain literals.
-/

namespace TripleLex

open Production
open scoped Computability

namespace Number

/-! ## The productions -/

/-- A sign. -/
def signs : Language Char := char '+' + char '-'

/-- Digits, at least one. -/
def integers : Language Char := many (one Char.isDigit)

/-- Digits behind a dot, and perhaps before it. -/
def decimals : Language Char := (one Char.isDigit)∗ * char '.' * integers

/-- An exponent. -/
def exponents : Language Char := (char 'e' + char 'E') * (optional signs * integers)

/-- Digits, with a dot somewhere or none, and an exponent. -/
def doubles : Language Char :=
  (integers + integers * char '.' * (one Char.isDigit)∗ + char '.' * integers) * exponents

/-- A number of any sort, with a sign or without. -/
def numbers : Language Char := optional signs * (integers + decimals + doubles)

/-- Digits and a dot at the end. -/
def endingInDot : Language Char := optional signs * (integers * char '.')

variable {w u v : List Char} {l : Language Char} {c : Char}

/-! ## Parts -/

theorem mem_integers : w ∈ integers ↔ isDigits w = true := by
  rw [integers, mem_many_one, isDigits_iff]

theorem mem_signs : w ∈ signs ↔ ∃ c, (c = '+' ∨ c = '-') ∧ w = [c] := by
  rw [signs, Language.mem_add, mem_char, mem_char]
  simp

/-- Behind an optional sign stands what no sign begins. -/
theorem mem_signed (hl : ∀ v ∈ l, unsigned v = v) : w ∈ optional signs * l ↔ unsigned w ∈ l := by
  rw [Language.mem_mul]
  constructor
  · rintro ⟨u, hu, v, hv, rfl⟩
    rcases mem_optional.1 hu with rfl | hu
    · rw [List.nil_append, hl v hv]
      exact hv
    · obtain ⟨c, hc, rfl⟩ := mem_signs.1 hu
      rcases hc with rfl | rfl <;> exact hv
  · intro hw
    rcases sign_cases w with ⟨c, hc, h⟩ | h
    · exact ⟨[c], mem_optional.2 (.inr (mem_signs.2 ⟨c, hc, rfl⟩)), unsigned w, hw, h.symm⟩
    · exact ⟨[], mem_optional.2 (.inl rfl), unsigned w, hw, h.symm⟩

theorem unsigned_integers (hw : w ∈ integers) : unsigned w = w := by
  have h := unsigned_digits (mem_integers.1 hw) []
  rwa [List.append_nil] at h

theorem mem_exponents : w ∈ exponents ↔ w ≠ [] ∧ isTail w = true := by
  rw [exponents, char, char, one_add_one]
  cases w with
  | nil => simp [nil_notMem_one_mul]
  | cons c w =>
    rw [cons_mem_one_mul, mem_signed fun v => unsigned_integers, mem_integers, isTail,
      Bool.and_eq_true, isExponentMark]
    simp

/-! ## Numbers -/

/-- The end of a number, behind what may also be one. -/
theorem tail_cases (ht : isTail w = true) : w = [] ∨ w ∈ exponents := by
  by_cases hne : w = []
  · exact .inl hne
  · exact .inr (mem_exponents.2 ⟨hne, ht⟩)

/-- The parts of a number make up one of the three sorts. -/
theorem mem_of_unsigned (h : Unsigned w) : w ∈ integers + decimals + doubles := by
  have hdot : ∀ {u v : List Char} {l m : Language Char}, u ∈ l → v ∈ m →
      u ++ '.' :: v ∈ l * char '.' * m :=
    fun hu hv => mem_mul_char_mul.2 ⟨_, _, rfl, hu, hv⟩
  cases h with
  | @integer whole tail hwhole ht =>
    rcases tail_cases ht with rfl | ht
    · rw [List.append_nil]
      exact .inl (.inl (mem_integers.2 hwhole))
    · exact .inr (Language.append_mem_mul (.inl (.inl (mem_integers.2 hwhole))) ht)
  | @decimal whole frac tail hwhole hfrac ht =>
    have hfrac := mem_integers.2 hfrac
    rcases tail_cases ht with rfl | ht
    · rw [List.append_nil]
      exact .inl (.inr (hdot (mem_kstar_one.2 hwhole) hfrac))
    · refine .inr ?_
      rw [← List.cons_append, ← List.append_assoc]
      refine Language.append_mem_mul ?_ ht
      cases whole with
      | nil => exact .inr (cons_mem_char_mul.2 ⟨rfl, hfrac⟩)
      | cons d whole =>
        refine .inl (.inr (hdot ?_ (mem_kstar_one.2 (mem_many_one.1 hfrac).2)))
        exact mem_many_one.2 ⟨nofun, hwhole⟩
  | @bare whole tail hwhole ht hne =>
    refine .inr ?_
    rw [List.append_cons]
    refine Language.append_mem_mul (.inl (.inr ?_)) (mem_exponents.2 ⟨hne, ht⟩)
    exact hdot (mem_integers.2 hwhole) (Language.nil_mem_kstar _)

theorem unsigned_of_mem (h : w ∈ integers + decimals + doubles) : Unsigned w := by
  rcases h with (h | h) | h
  · have hinteger := Unsigned.integer (mem_integers.1 h) isTail_nil
    rwa [List.append_nil] at hinteger
  · obtain ⟨whole, frac, rfl, hwhole, hfrac⟩ := mem_mul_char_mul.1 h
    have hdecimal := Unsigned.decimal (mem_kstar_one.1 hwhole) (mem_integers.1 hfrac) isTail_nil
    rwa [List.append_nil] at hdecimal
  · obtain ⟨u, hu, tail, htail, rfl⟩ := Language.mem_mul.1 h
    obtain ⟨hne, ht⟩ := mem_exponents.1 htail
    rcases hu with (hu | hu) | hu
    · exact .integer (mem_integers.1 hu) ht
    · obtain ⟨whole, frac, rfl, hwhole, hfrac⟩ := mem_mul_char_mul.1 hu
      rw [List.append_assoc]
      cases frac with
      | nil => exact .bare (mem_integers.1 hwhole) ht hne
      | cons d frac =>
        exact .decimal (isDigits_iff.1 (mem_integers.1 hwhole)).2
          (mem_integers.1 (mem_many_one.2 ⟨nofun, mem_kstar_one.1 hfrac⟩)) ht
    · obtain ⟨_, frac, rfl, hdot, hfrac⟩ := mem_one_mul.1 hu
      rw [beq_iff_eq.1 hdot]
      have hwhole : [].all Char.isDigit = true := rfl
      exact .decimal hwhole (mem_integers.1 hfrac) ht

theorem unsigned_iff : isUnsigned false w = true ↔ w ∈ integers + decimals + doubles :=
  ⟨fun h => mem_of_unsigned (unsigned_of_isUnsigned h),
    fun h => isUnsigned_of_unsigned (unsigned_of_mem h)⟩

/-- No sign begins them. -/
theorem Unsigned.unsigned_eq (h : Unsigned w) : unsigned w = w := by
  cases h with
  | integer hwhole => exact unsigned_digits hwhole _
  | @decimal whole frac tail hwhole =>
    cases whole with
    | nil => rfl
    | cons d whole =>
      have hdigits : isDigits (d :: whole) = true := isDigits_iff.2 ⟨nofun, hwhole⟩
      exact unsigned_digits hdigits _
  | bare hwhole => exact unsigned_digits hwhole _

theorem isNumber_iff : isNumber false w = true ↔ w ∈ numbers := by
  rw [numbers, mem_signed fun v hv => (unsigned_of_mem hv).unsigned_eq, ← unsigned_iff]
  rfl

/-! ### A dot at the end -/

theorem mem_endingInDot : w ∈ endingInDot ↔ ∃ ds, isDigits ds = true ∧ unsigned w = ds ++ ['.'] := by
  have hmem : ∀ {v}, v ∈ integers * char '.' ↔ ∃ ds, isDigits ds = true ∧ v = ds ++ ['.'] := by
    intro v
    rw [← mul_one (integers * char '.'), mem_mul_char_mul]
    constructor
    · rintro ⟨ds, _, rfl, hds, rfl⟩
      exact ⟨ds, mem_integers.1 hds, rfl⟩
    · rintro ⟨ds, hds, rfl⟩
      exact ⟨ds, [], rfl, mem_integers.2 hds, rfl⟩
  rw [endingInDot, mem_signed, hmem]
  intro v hv
  obtain ⟨ds, hds, rfl⟩ := hmem.1 hv
  exact unsigned_digits hds _

theorem isNumber_true_iff : isNumber true w = true ↔ w ∈ numbers ∨ w ∈ endingInDot := by
  rw [← isNumber_iff, mem_endingInDot]
  exact isUnsigned_true_iff

/-- A dot at the end makes a number only where it is allowed. -/
theorem mem_endingInDot_iff :
    w ∈ endingInDot ↔ isNumber true w = true ∧ isNumber false w = false := by
  constructor
  · intro h
    refine ⟨isNumber_true_iff.2 (.inr h), ?_⟩
    rw [Bool.eq_false_iff]
    intro hnumber
    obtain ⟨ds, -, hw⟩ := mem_endingInDot.1 h
    refine getLast?_ne_dot hnumber ?_
    rcases sign_cases w with ⟨c, -, hsign⟩ | hsign
    · rw [hsign, hw, ← List.cons_append, List.getLast?_concat]
    · rw [hsign, hw, List.getLast?_concat]
  · rintro ⟨htrue, hfalse⟩
    rcases isNumber_true_iff.1 htrue with h | h
    · rw [isNumber_iff.2 h] at hfalse
      cases hfalse
    · exact h

theorem isTruth_iff : isTruth w = true ↔ w = "true".toList ∨ w = "false".toList := by
  simp [isTruth]

end Number

/-! ## Language tags -/

namespace Name

/-- Subtags behind hyphens. -/
def subtags : Language Char := (char '-' * many (one Char.isAlphanum))∗

/-- A tag of letters, and subtags behind it. -/
def languageTags : Language Char := many (one Char.isAlpha) * subtags

variable {p : Char → Bool} {fresh : Bool} {c : Char} {w : List Char}

/-- The rest of a tag, at least one character if it has just begun. -/
def tagRest (p : Char → Bool) (fresh : Bool) : Language Char :=
  if fresh then many (one p) else (one p)∗

theorem cons_mem_subtags :
    c :: w ∈ subtags ↔ c = '-' ∧ w ∈ tagRest Char.isAlphanum true * subtags := by
  rw [subtags, mem_kstar, mul_assoc, cons_mem_char_mul]
  simp [tagRest]

theorem nil_mem_tagRest_mul : [] ∈ tagRest p fresh * subtags ↔ fresh = false := by
  cases fresh with
  | false => simp [tagRest, mem_kstar_mul, subtags, Language.nil_mem_kstar]
  | true => simp [tagRest, many, mul_assoc, nil_notMem_one_mul]

/-- A tag ends at a hyphen, if it may, or goes on. -/
theorem cons_mem_tagRest_mul (hp : p '-' = false) : c :: w ∈ tagRest p fresh * subtags ↔
    if c = '-' then fresh = false ∧ w ∈ tagRest Char.isAlphanum true * subtags
    else p c = true ∧ w ∈ tagRest p false * subtags := by
  cases fresh with
  | false =>
    rw [tagRest, if_neg Bool.false_ne_true, mem_kstar_mul, cons_mem_one_mul, cons_mem_subtags]
    split
    · rename_i hc
      simp [hc, hp]
    · rename_i hc
      simp [hc, tagRest]
  | true =>
    rw [tagRest, if_pos rfl, many, mul_assoc, cons_mem_one_mul]
    split
    · rename_i hc
      simp [hc, hp]
    · rfl

theorem isSubtags_iff :
    isSubtags fresh w = true ↔ w ∈ tagRest Char.isAlphanum fresh * subtags := by
  induction w generalizing fresh with
  | nil => rw [nil_mem_tagRest_mul, isSubtags, Bool.not_eq_true']
  | cons c w ih =>
    rw [cons_mem_tagRest_mul (by decide), isSubtags, ← ih, ← ih]
    by_cases hc : c = '-' <;> simp [hc]

theorem isPrimaryTag_iff :
    isPrimaryTag fresh w = true ↔ w ∈ tagRest Char.isAlpha fresh * subtags := by
  induction w generalizing fresh with
  | nil => rw [nil_mem_tagRest_mul, isPrimaryTag, Bool.not_eq_true']
  | cons c w ih =>
    rw [cons_mem_tagRest_mul (by decide), isPrimaryTag, ← ih, ← isSubtags_iff]
    by_cases hc : c = '-' <;> simp [hc]

theorem isLanguageTag_iff : isLanguageTag w = true ↔ w ∈ languageTags := isPrimaryTag_iff

end Name

/-- The recognisers of the parts of literals accept exactly what the productions derive. A
number may be an integer, a decimal or a double, and where a dot may stand at the end, digits
before a dot are added and nothing else. -/
theorem literals_derived (word : List Char) :
    (Number.isNumber false word = true ↔ word ∈ Number.numbers) ∧
      (Number.isNumber true word = true ↔ word ∈ Number.numbers ∨ word ∈ Number.endingInDot) ∧
      (word ∈ Number.endingInDot ↔
        Number.isNumber true word = true ∧ Number.isNumber false word = false) ∧
      (Number.isPlainLiteral word = true ↔
        word = "true".toList ∨ word = "false".toList ∨ word ∈ Number.numbers) ∧
      (Name.isLanguageTag word = true ↔ word ∈ Name.languageTags) := by
  refine ⟨Number.isNumber_iff, Number.isNumber_true_iff, Number.mem_endingInDot_iff, ?_,
    Name.isLanguageTag_iff⟩
  rw [Number.isPlainLiteral, Bool.or_eq_true, Number.isTruth_iff, Number.isNumber_iff, or_assoc]

end TripleLex

import TripleLex.Unicode.Utf8

/-!
# Texts as bytes

The bytes that encode a text are decoded to that text. By the size of a
character there are four forms of a sequence; in each the lead byte announces
the width, the bytes behind it are ones that may stand there, and their bits
make up the code point again.

## Main results

* `exists_encoded` — the sequence of a character is one of announced width that
  encodes it.
* `decode_encoded` — a character at the front of the bytes.
* `decode_toByteArray` — all of a text.
-/

namespace TripleLex.Unicode.Utf8

/-! ## Bytes by their numbers -/

section Bytes

variable {a b : UInt8}

theorem width_eq (a : UInt8) : width a =
    if a.toNat ≤ 0x7F then 1
    else if 0xC2 ≤ a.toNat && a.toNat ≤ 0xDF then 2
    else if 0xE0 ≤ a.toNat && a.toNat ≤ 0xEF then 3
    else if 0xF0 ≤ a.toNat && a.toNat ≤ 0xF4 then 4
    else 0 := by
  simp only [width, UInt8.le_iff_toNat_le]
  rfl

theorem width_one : width a = 1 ↔ a.toNat ≤ 0x7F := by
  simp only [width_eq, Bool.and_eq_true, decide_eq_true_eq]
  repeat' split
  all_goals omega

theorem width_two : width a = 2 ↔ 0xC2 ≤ a.toNat ∧ a.toNat ≤ 0xDF := by
  simp only [width_eq, Bool.and_eq_true, decide_eq_true_eq]
  repeat' split
  all_goals omega

theorem width_three : width a = 3 ↔ 0xE0 ≤ a.toNat ∧ a.toNat ≤ 0xEF := by
  simp only [width_eq, Bool.and_eq_true, decide_eq_true_eq]
  repeat' split
  all_goals omega

theorem width_four : width a = 4 ↔ 0xF0 ≤ a.toNat ∧ a.toNat ≤ 0xF4 := by
  simp only [width_eq, Bool.and_eq_true, decide_eq_true_eq]
  repeat' split
  all_goals omega

theorem isTail_iff : isTail b = true ↔ 0x80 ≤ b.toNat ∧ b.toNat ≤ 0xBF := by
  simp only [isTail, Bool.and_eq_true, decide_eq_true_eq, UInt8.le_iff_toNat_le]
  rfl

/-- A byte that continues a sequence may come second, but behind four lead bytes
there is less room. -/
theorem isSecond_iff : isSecond a b = true ↔ (0x80 ≤ b.toNat ∧ b.toNat ≤ 0xBF) ∧
    (a.toNat = 0xE0 → 0xA0 ≤ b.toNat) ∧ (a.toNat = 0xED → b.toNat ≤ 0x9F) ∧
    (a.toNat = 0xF0 → 0x90 ≤ b.toNat) ∧ (a.toNat = 0xF4 → b.toNat ≤ 0x8F) := by
  have hrange : ∀ m n : UInt8, (decide (m ≤ b) && decide (b ≤ n)) = true ↔
      m.toNat ≤ b.toNat ∧ b.toNat ≤ n.toNat := by
    intro m n
    rw [Bool.and_eq_true, decide_eq_true_eq, decide_eq_true_eq]
    rfl
  simp only [isSecond, beq_iff_eq, ← UInt8.toNat_inj]
  split
  · simp only [hrange, UInt8.reduceToNat] at *
    omega
  split
  · simp only [hrange, UInt8.reduceToNat] at *
    omega
  split
  · simp only [hrange, UInt8.reduceToNat] at *
    omega
  split
  · simp only [hrange, UInt8.reduceToNat] at *
    omega
  · simp only [isTail_iff, UInt8.reduceToNat] at *
    omega

end Bytes

/-! ## One character -/

section Characters

variable {a b₁ b₂ b₃ : UInt8} {c : Char}

theorem toNat_ofNat {n : Nat} (h : n < 256) : (UInt8.ofNat n).toNat = n := Nat.mod_eq_of_lt h

/-- A byte that continues a sequence, with the bits of a code point that it
holds. -/
theorem toNat_tail (n : Nat) : (UInt8.ofNat (n % 0x40 + 0x80)).toNat = n % 0x40 + 0x80 :=
  toNat_ofNat (by omega)

theorem isTail_tail (n : Nat) : isTail (UInt8.ofNat (n % 0x40 + 0x80)) = true :=
  isTail_iff.2 (by rw [toNat_tail]; omega)

theorem ofNat_char {n : Nat} (h : n = c.toNat) : Char.ofNat n = c := by
  rw [h, Char.ofNat_toNat]

theorem scalar_two : scalar a [b₁] = .ok c ↔
    isSecond a b₁ = true ∧ Char.ofNat (extend (a.toNat - 0xC0) b₁) = c := by
  simp only [scalar]
  cases isSecond a b₁ <;> simp

theorem scalar_three : scalar a [b₁, b₂] = .ok c ↔ isSecond a b₁ = true ∧ isTail b₂ = true ∧
    Char.ofNat (extend (extend (a.toNat - 0xE0) b₁) b₂) = c := by
  simp only [scalar]
  cases isSecond a b₁ <;> cases isTail b₂ <;> simp

theorem scalar_four : scalar a [b₁, b₂, b₃] = .ok c ↔
    isSecond a b₁ = true ∧ isTail b₂ = true ∧ isTail b₃ = true ∧
      Char.ofNat (extend (extend (extend (a.toNat - 0xF0) b₁) b₂) b₃) = c := by
  simp only [scalar]
  cases isSecond a b₁ <;> cases isTail b₂ <;> cases isTail b₃ <;> simp

/-- The sequence of a character has the announced width and encodes it. -/
theorem exists_encoded (c : Char) : ∃ a tail, String.utf8EncodeChar c = a :: tail ∧
    width a = tail.length + 1 ∧ scalar a tail = .ok c := by
  have hvalid : c.toNat < 0xD800 ∨ 0xDFFF < c.toNat ∧ c.toNat < 0x110000 := c.valid
  have hv : c.val.toNat = c.toNat := rfl
  unfold String.utf8EncodeChar
  rw [hv]
  generalize hn : c.toNat = n at hvalid
  dsimp only
  split
  · have ha : (UInt8.ofNat n).toNat = n := toNat_ofNat (by omega)
    exact ⟨_, _, rfl, width_one.2 (by omega), by rw [scalar, ofNat_char (by rw [ha, hn])]⟩
  split
  · have ha : (UInt8.ofNat (n / 64 % 0x20 + 0xC0)).toNat = n / 64 % 0x20 + 0xC0 :=
      toNat_ofNat (by omega)
    have hb := toNat_tail n
    generalize UInt8.ofNat (n / 64 % 0x20 + 0xC0) = a at ha
    generalize UInt8.ofNat (n % 0x40 + 0x80) = b at hb
    exact ⟨_, _, rfl, width_two.2 (by omega),
      scalar_two.2 ⟨isSecond_iff.2 (by omega), ofNat_char (by unfold extend; omega)⟩⟩
  split
  · have ha : (UInt8.ofNat (n / 4096 % 0x10 + 0xE0)).toNat = n / 4096 % 0x10 + 0xE0 :=
      toNat_ofNat (by omega)
    have hb₁ := toNat_tail (n / 64)
    have hb₂ := toNat_tail n
    have ht₂ := isTail_tail n
    generalize UInt8.ofNat (n / 4096 % 0x10 + 0xE0) = a at ha
    generalize UInt8.ofNat (n / 64 % 0x40 + 0x80) = b₁ at hb₁
    generalize UInt8.ofNat (n % 0x40 + 0x80) = b₂ at hb₂ ht₂
    exact ⟨_, _, rfl, width_three.2 (by omega),
      scalar_three.2 ⟨isSecond_iff.2 (by omega), ht₂, ofNat_char (by unfold extend; omega)⟩⟩
  · have ha : (UInt8.ofNat (n / 262144 % 0x08 + 0xF0)).toNat = n / 262144 % 0x08 + 0xF0 :=
      toNat_ofNat (by omega)
    have hb₁ := toNat_tail (n / 4096)
    have hb₂ := toNat_tail (n / 64)
    have ht₂ := isTail_tail (n / 64)
    have hb₃ := toNat_tail n
    have ht₃ := isTail_tail n
    generalize UInt8.ofNat (n / 262144 % 0x08 + 0xF0) = a at ha
    generalize UInt8.ofNat (n / 4096 % 0x40 + 0x80) = b₁ at hb₁
    generalize UInt8.ofNat (n / 64 % 0x40 + 0x80) = b₂ at hb₂ ht₂
    generalize UInt8.ofNat (n % 0x40 + 0x80) = b₃ at hb₃ ht₃
    exact ⟨_, _, rfl, width_four.2 (by omega),
      scalar_four.2 ⟨isSecond_iff.2 (by omega), ht₂, ht₃, ofNat_char (by unfold extend; omega)⟩⟩

/-- A character whose sequence stands at the front of the bytes is decoded. -/
theorem decode_encoded (c : Char) (rest : List UInt8) :
    decode (String.utf8EncodeChar c ++ rest) = after (.ok c) (decode rest) := by
  obtain ⟨a, tail, he, hw, hs⟩ := exists_encoded c
  rw [he, List.cons_append, decode_sequence hw, hs]

end Characters

/-! ## All of a text -/

/-- The characters whose sequences stand at the front are decoded, and then what
follows them. -/
theorem decode_flatMap_append (cs : List Char) (rest : List UInt8) :
    decode (cs.flatMap String.utf8EncodeChar ++ rest) =
      (cs ++ (decode rest).1, (decode rest).2) := by
  induction cs with
  | nil => rfl
  | cons c cs ih =>
    rw [List.flatMap_cons, List.append_assoc, decode_encoded, ih]
    rfl

theorem decode_flatMap (cs : List Char) :
    decode (cs.flatMap String.utf8EncodeChar) = (cs, .complete) := by
  have h := decode_flatMap_append cs []
  rwa [List.append_nil, decode, List.append_nil] at h

/-- The bytes of a text are decoded to it. -/
theorem decode_toByteArray (text : String) :
    decode text.toByteArray.data.toList = (text.toList, .complete) := by
  have htext : text.toByteArray = (text.toList.flatMap String.utf8EncodeChar).toByteArray := by
    rw [← List.utf8Encode, ← String.toByteArray_ofList, String.ofList_toList]
  rw [htext, List.data_toByteArray]
  exact decode_flatMap text.toList

end TripleLex.Unicode.Utf8

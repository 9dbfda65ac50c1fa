import TripleLex.Proofs.Encoding

/-!
# Bytes that are no text

Bytes are decoded from the front, and decoding stops where they begin no sequence. What is
decoded up to there is as much of them as is well-formed: a character is only made of its own
sequence, since overlong forms, surrogates and numbers above the last code point are refused at
the second byte. Where a lead byte announces more bytes than there are, none of them is looked
at.

## Main results

* `encoded_iff` — the sequences that are decoded are those of characters.
* `longest_decode` — what is decoded is the longest well-formed part.
* `stops_decode`, `breaksOff_iff` — why nothing more is decoded.
-/

namespace TripleLex.Unicode.Utf8

/-! ## Sequences and their characters -/

section Sequences

variable {a b b₁ b₂ b₃ : UInt8} {c : Char} {tail : List UInt8} {n : Nat}

theorem val_char (h : n.isValidChar) : (Char.ofNat n).val.toNat = n := by
  rw [Char.ofNat, dif_pos h]
  rfl

theorem ofNat_eq (h : n = b.toNat) : UInt8.ofNat n = b := by
  rw [h, UInt8.ofNat_toNat]

theorem encoded_one (ha : a.toNat ≤ 0x7F) :
    String.utf8EncodeChar (Char.ofNat a.toNat) = [a] := by
  unfold String.utf8EncodeChar
  rw [val_char (.inl (by omega))]
  dsimp only
  rw [if_pos (by omega), UInt8.ofNat_toNat]

theorem encoded_two (ha : 0xC2 ≤ a.toNat ∧ a.toNat ≤ 0xDF) (hb : 0x80 ≤ b.toNat ∧ b.toNat ≤ 0xBF) :
    String.utf8EncodeChar (Char.ofNat (extend (a.toNat - 0xC0) b)) = [a, b] := by
  unfold String.utf8EncodeChar extend
  generalize hn : (a.toNat - 0xC0) * 64 + (b.toNat - 0x80) = n
  rw [val_char (.inl (by omega))]
  have ha : UInt8.ofNat (n / 64 % 32 + 192) = a := ofNat_eq (by omega)
  have hb : UInt8.ofNat (n % 64 + 128) = b := ofNat_eq (by omega)
  dsimp only
  rw [if_neg (by omega), if_pos (by omega), ha, hb]

/-- The second byte leaves overlong forms and surrogates out. -/
theorem encoded_three (ha : 0xE0 ≤ a.toNat ∧ a.toNat ≤ 0xEF)
    (h₁ : 0x80 ≤ b₁.toNat ∧ b₁.toNat ≤ 0xBF) (hlow : a.toNat = 0xE0 → 0xA0 ≤ b₁.toNat)
    (hsurrogate : a.toNat = 0xED → b₁.toNat ≤ 0x9F) (h₂ : 0x80 ≤ b₂.toNat ∧ b₂.toNat ≤ 0xBF) :
    String.utf8EncodeChar (Char.ofNat (extend (extend (a.toNat - 0xE0) b₁) b₂)) =
      [a, b₁, b₂] := by
  unfold String.utf8EncodeChar extend
  generalize hn : ((a.toNat - 0xE0) * 64 + (b₁.toNat - 0x80)) * 64 + (b₂.toNat - 0x80) = n
  obtain ⟨hmin, hmax, hvalid⟩ : 0x7FF < n ∧ n ≤ 0xFFFF ∧ n.isValidChar := by
    unfold Nat.isValidChar
    omega
  have ha : UInt8.ofNat (n / 4096 % 16 + 224) = a := ofNat_eq (by omega)
  have h₁ : UInt8.ofNat (n / 64 % 64 + 128) = b₁ := ofNat_eq (by omega)
  have h₂ : UInt8.ofNat (n % 64 + 128) = b₂ := ofNat_eq (by omega)
  rw [val_char hvalid]
  dsimp only
  rw [if_neg (by omega), if_neg (by omega), if_pos hmax, ha, h₁, h₂]

/-- The second byte leaves overlong forms and numbers above the last code point
out. -/
theorem encoded_four (ha : 0xF0 ≤ a.toNat ∧ a.toNat ≤ 0xF4)
    (h₁ : 0x80 ≤ b₁.toNat ∧ b₁.toNat ≤ 0xBF) (hlow : a.toNat = 0xF0 → 0x90 ≤ b₁.toNat)
    (hhigh : a.toNat = 0xF4 → b₁.toNat ≤ 0x8F) (h₂ : 0x80 ≤ b₂.toNat ∧ b₂.toNat ≤ 0xBF)
    (h₃ : 0x80 ≤ b₃.toNat ∧ b₃.toNat ≤ 0xBF) :
    String.utf8EncodeChar (Char.ofNat (extend (extend (extend (a.toNat - 0xF0) b₁) b₂) b₃)) =
      [a, b₁, b₂, b₃] := by
  unfold String.utf8EncodeChar extend
  generalize hn : (((a.toNat - 0xF0) * 64 + (b₁.toNat - 0x80)) * 64 + (b₂.toNat - 0x80)) * 64 +
    (b₃.toNat - 0x80) = n
  obtain ⟨hmin, hmax⟩ : 0xFFFF < n ∧ n < 0x110000 := by omega
  have ha : UInt8.ofNat (n / 262144 % 8 + 240) = a := ofNat_eq (by omega)
  have h₁ : UInt8.ofNat (n / 4096 % 64 + 128) = b₁ := ofNat_eq (by omega)
  have h₂ : UInt8.ofNat (n / 64 % 64 + 128) = b₂ := ofNat_eq (by omega)
  have h₃ : UInt8.ofNat (n % 64 + 128) = b₃ := ofNat_eq (by omega)
  clear hn
  rw [val_char (.inr (by omega))]
  dsimp only
  rw [if_neg (by omega), if_neg (by omega), if_neg (by omega), ha, h₁, h₂, h₃]

/-- A sequence that encodes a character is the sequence of that character. -/
theorem encoded_of_scalar (hw : width a = tail.length + 1) (hs : scalar a tail = .ok c) :
    String.utf8EncodeChar c = a :: tail := by
  match tail with
  | [] =>
    cases hs
    exact encoded_one (width_one.1 hw)
  | [b] =>
    obtain ⟨hb, rfl⟩ := scalar_two.1 hs
    exact encoded_two (width_two.1 hw) (isSecond_iff.1 hb).1
  | [b₁, b₂] =>
    obtain ⟨h₁, h₂, rfl⟩ := scalar_three.1 hs
    obtain ⟨h₁, hlow, hsurrogate, -⟩ := isSecond_iff.1 h₁
    exact encoded_three (width_three.1 hw) h₁ hlow hsurrogate (isTail_iff.1 h₂)
  | [b₁, b₂, b₃] =>
    obtain ⟨h₁, h₂, h₃, rfl⟩ := scalar_four.1 hs
    obtain ⟨h₁, -, -, hlow, hhigh⟩ := isSecond_iff.1 h₁
    exact encoded_four (width_four.1 hw) h₁ hlow hhigh (isTail_iff.1 h₂) (isTail_iff.1 h₃)
  | _ :: _ :: _ :: _ :: _ =>
    have hle := width_le a
    simp only [List.length_cons] at hw
    omega

theorem encoded_iff : String.utf8EncodeChar c = a :: tail ↔
    width a = tail.length + 1 ∧ scalar a tail = .ok c := by
  constructor
  · intro h
    obtain ⟨a', tail', he, hw, hs⟩ := exists_encoded c
    rw [h] at he
    cases he
    exact ⟨hw, hs⟩
  · rintro ⟨hw, hs⟩
    exact encoded_of_scalar hw hs

theorem exists_isSecond (a : UInt8) : ∃ b, isSecond a b = true := by
  by_cases hlow : a.toNat = 0xE0
  · exact ⟨0xA0, isSecond_iff.2 (by simp only [UInt8.reduceToNat]; omega)⟩
  by_cases hlow' : a.toNat = 0xF0
  · exact ⟨0x90, isSecond_iff.2 (by simp only [UInt8.reduceToNat]; omega)⟩
  · exact ⟨0x80, isSecond_iff.2 (by simp only [UInt8.reduceToNat]; omega)⟩

/-- A byte that announces a width begins the sequence of a character. -/
theorem exists_encoded_of_width (hw : width a = n + 1) :
    ∃ c tail, String.utf8EncodeChar c = a :: tail ∧ tail.length = n := by
  have hscalar : ∃ tail c, tail.length = n ∧ scalar a tail = .ok c := by
    obtain ⟨b, hb⟩ := exists_isSecond a
    have ht : isTail 0x80 = true := by decide
    have hle := width_le a
    match n with
    | 0 => exact ⟨[], _, rfl, rfl⟩
    | 1 => exact ⟨[b], _, rfl, by simp only [scalar, hb]; rfl⟩
    | 2 => exact ⟨[b, 0x80], _, rfl, by simp only [scalar, hb, ht]; rfl⟩
    | 3 => exact ⟨[b, 0x80, 0x80], _, rfl, by simp only [scalar, hb, ht]; rfl⟩
    | n + 4 => omega
  obtain ⟨tail, c, hn, hs⟩ := hscalar
  exact ⟨c, tail, encoded_of_scalar (by rw [hw, hn]) hs, hn⟩

end Sequences

/-! ## Where decoding stops -/

/-- These characters are the longest text at the front of the bytes, and this is left. -/
structure Longest (bytes : List UInt8) (cs : List Char) (rest : List UInt8) : Prop where
  bytes_eq : bytes = cs.flatMap String.utf8EncodeChar ++ rest
  longest {ds : List Char} {more : List UInt8}
    (h : bytes = ds.flatMap String.utf8EncodeChar ++ more) : ds <+: cs

/-- The bytes end inside a sequence: the first of them begins the sequence of a character that
has more bytes than there are. -/
def BreaksOff (bytes : List UInt8) : Prop :=
  ∃ lead tail c more, bytes = lead :: tail ∧ String.utf8EncodeChar c = lead :: more ∧
    tail.length < more.length

/-- Why nothing of the bytes is decoded. -/
inductive Stops : Stop → List UInt8 → Prop
  | complete : Stops .complete []
  | truncated {lead : UInt8} {tail : List UInt8} (h : tail.length + 1 < width lead) :
    Stops .truncated (lead :: tail)
  | badLead {lead : UInt8} (rest : List UInt8) (h : width lead = 0) :
    Stops (.badLead lead) (lead :: rest)
  | badSequence {lead : UInt8} {tail : List UInt8} (rest : List UInt8) {length : Nat}
    (hw : width lead = tail.length + 1) (hs : scalar lead tail = .error length) :
    Stops (.badSequence length) (lead :: (tail ++ rest))

variable {bytes rest tail : List UInt8} {stop : Stop} {lead : UInt8}

/-- What is decoded is at the front of the bytes, and nothing of the others can be decoded. -/
theorem stops_decode (bytes : List UInt8) : ∃ rest,
    bytes = (decode bytes).1.flatMap String.utf8EncodeChar ++ rest ∧
      Stops (decode bytes).2 rest := by
  generalize hn : bytes.length = n
  induction n using Nat.strongRecOn generalizing bytes with
  | ind n ih =>
    cases bytes with
    | nil =>
      rw [decode]
      exact ⟨[], rfl, .complete⟩
    | cons lead rest =>
      by_cases hbad : width lead = 0
      · rw [decode_badLead hbad]
        exact ⟨lead :: rest, rfl, .badLead rest hbad⟩
      by_cases hfew : rest.length + 1 < width lead
      · rw [decode_truncated hfew]
        exact ⟨lead :: rest, rfl, .truncated hfew⟩
      · obtain ⟨tail, behind, rfl, hw⟩ : ∃ tail behind, rest = tail ++ behind ∧
            width lead = tail.length + 1 := by
          refine ⟨rest.take (width lead - 1), rest.drop (width lead - 1),
            (List.take_append_drop _ _).symm, ?_⟩
          rw [List.length_take]
          omega
        rw [decode_sequence hw]
        cases hs : scalar lead tail with
        | error length => exact ⟨_, rfl, .badSequence behind hw hs⟩
        | ok c =>
          rw [List.length_cons, List.length_append] at hn
          obtain ⟨rest, heq, hstops⟩ := ih behind.length (by omega) behind rfl
          refine ⟨rest, ?_, hstops⟩
          show lead :: (tail ++ behind) = (c :: (decode behind).1).flatMap _ ++ rest
          rw [List.flatMap_cons, encoded_of_scalar hw hs, List.append_assoc, ← heq,
            List.cons_append]

/-- A surrogate is no character. -/
example : decode [0x61, 0xED, 0xA0, 0x80, 0x62] = (['a'], .badSequence 1) := by decide +kernel

theorem longest_of_decode (h : bytes = (decode bytes).1.flatMap String.utf8EncodeChar ++ rest) :
    Longest bytes (decode bytes).1 rest where
  bytes_eq := h
  longest := by
    rintro ds more rfl
    rw [decode_flatMap_append]
    exact List.prefix_append _ _

/-- A lead byte announces more bytes than there are. -/
theorem breaksOff_cons : BreaksOff (lead :: tail) ↔ tail.length + 1 < width lead := by
  constructor
  · rintro ⟨_, _, c, more, ⟨⟩, he, hless⟩
    have hw := (encoded_iff.1 he).1
    omega
  · intro h
    obtain ⟨c, more, he, hlen⟩ := exists_encoded_of_width (a := lead) (n := width lead - 1)
      (by omega)
    exact ⟨lead, tail, c, more, rfl, he, by omega⟩

/-- Decoding stops for this reason only where the bytes end inside a sequence. -/
theorem Stops.breaksOff_iff (h : Stops stop rest) : BreaksOff rest ↔ stop = .truncated := by
  cases h with
  | complete => exact ⟨nofun, nofun⟩
  | truncated h => exact iff_of_true (breaksOff_cons.2 h) rfl
  | badLead rest h =>
    refine iff_of_false ?_ nofun
    rw [breaksOff_cons, h]
    omega
  | badSequence rest hw hs =>
    refine iff_of_false ?_ nofun
    rw [breaksOff_cons, hw, List.length_append]
    omega

end TripleLex.Unicode.Utf8

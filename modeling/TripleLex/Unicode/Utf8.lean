/-!
# UTF-8

Decoding goes on for as long as complete, well-formed sequences follow each
other. The lead byte of a sequence announces its width, and as many bytes are
taken before any of them is checked: bytes that end early are a truncated
sequence even where one of them could not stand there.
-/

namespace TripleLex.Unicode.Utf8

/-- Why decoding stopped. -/
inductive Stop where
  /-- All bytes are decoded. -/
  | complete
  /-- The bytes end inside a sequence. -/
  | truncated
  /-- No sequence begins with the byte. -/
  | badLead (byte : UInt8)
  /-- The first bytes of a sequence, this many, may begin one, but the next
  cannot follow them. -/
  | badSequence (length : Nat)
  deriving DecidableEq, Repr

/-- How many bytes a sequence has that begins with this one; zero if none
does. -/
def width (lead : UInt8) : Nat :=
  if lead ≤ 0x7F then 1
  else if 0xC2 ≤ lead && lead ≤ 0xDF then 2
  else if 0xE0 ≤ lead && lead ≤ 0xEF then 3
  else if 0xF0 ≤ lead && lead ≤ 0xF4 then 4
  else 0

/-- Whether the byte continues a sequence. -/
def isTail (b : UInt8) : Bool := 0x80 ≤ b && b ≤ 0xBF

/-- Whether the byte may come second after a lead byte: overlong forms,
surrogates and numbers above the last code point are left out here. -/
def isSecond (lead b : UInt8) : Bool :=
  if lead == 0xE0 then 0xA0 ≤ b && b ≤ 0xBF
  else if lead == 0xED then 0x80 ≤ b && b ≤ 0x9F
  else if lead == 0xF0 then 0x90 ≤ b && b ≤ 0xBF
  else if lead == 0xF4 then 0x80 ≤ b && b ≤ 0x8F
  else isTail b

/-- The six bits that a continuation byte adds to a code point. -/
def extend (code : Nat) (b : UInt8) : Nat := code * 64 + (b.toNat - 0x80)

/-- The character that a sequence of announced width encodes, by its lead byte and
the bytes behind that; where it encodes none, how many of its bytes may begin a
sequence. -/
def scalar (lead : UInt8) : List UInt8 → Except Nat Char
  | [] => .ok (Char.ofNat lead.toNat)
  | [b] =>
    if !isSecond lead b then .error 1
    else .ok (Char.ofNat (extend (lead.toNat - 0xC0) b))
  | [b, c] =>
    if !isSecond lead b then .error 1
    else if !isTail c then .error 2
    else .ok (Char.ofNat (extend (extend (lead.toNat - 0xE0) b) c))
  | b :: c :: d :: _ =>
    if !isSecond lead b then .error 1
    else if !isTail c then .error 2
    else if !isTail d then .error 3
    else .ok (Char.ofNat (extend (extend (extend (lead.toNat - 0xF0) b) c) d))

/-- What is decoded from a sequence on, by what is decoded behind it. -/
def after (sequence : Except Nat Char) (rest : List Char × Stop) : List Char × Stop :=
  match sequence with
  | .ok c => (c :: rest.1, rest.2)
  | .error length => ([], .badSequence length)

/-- The characters of the well-formed sequences at the front of the bytes, and
why no more follow. -/
def decode : List UInt8 → List Char × Stop
  | [] => ([], .complete)
  | a :: rest =>
    match width a, rest with
    | 1, rest => after (scalar a []) (decode rest)
    | 2, b :: rest => after (scalar a [b]) (decode rest)
    | 3, b :: c :: rest => after (scalar a [b, c]) (decode rest)
    | 4, b :: c :: d :: rest => after (scalar a [b, c, d]) (decode rest)
    | 0, _ => ([], .badLead a)
    | _, _ => ([], .truncated)

theorem width_le (a : UInt8) : width a ≤ 4 := by
  unfold width
  repeat' split
  all_goals decide

/-- A sequence of the announced width stands at the front. -/
theorem decode_sequence {a : UInt8} {tail : List UInt8} (h : width a = tail.length + 1)
    (rest : List UInt8) : decode (a :: (tail ++ rest)) = after (scalar a tail) (decode rest) := by
  have hle := width_le a
  rw [h] at hle
  match tail with
  | [] => simp only [decode, h, List.length_nil, List.nil_append]
  | [b] => simp only [decode, h, List.length_cons, List.length_nil, List.cons_append,
      List.nil_append]
  | [b, c] => simp only [decode, h, List.length_cons, List.length_nil, List.cons_append,
      List.nil_append]
  | [b, c, d] => simp only [decode, h, List.length_cons, List.length_nil, List.cons_append,
      List.nil_append]
  | _ :: _ :: _ :: _ :: _ =>
    simp only [List.length_cons] at hle
    omega

/-- The bytes end inside a sequence. -/
theorem decode_truncated {a : UInt8} {tail : List UInt8} (h : tail.length + 1 < width a) :
    decode (a :: tail) = ([], .truncated) := by
  have hle := width_le a
  match tail with
  | [] =>
    rw [List.length_nil] at h
    have hcases : width a = 2 ∨ width a = 3 ∨ width a = 4 := by omega
    rcases hcases with hw | hw | hw <;> (unfold decode; rw [hw]; rfl)
  | [b] =>
    rw [List.length_singleton] at h
    have hcases : width a = 3 ∨ width a = 4 := by omega
    rcases hcases with hw | hw <;> (unfold decode; rw [hw]; rfl)
  | [b, c] =>
    simp only [List.length_cons, List.length_nil] at h
    have hw : width a = 4 := by omega
    unfold decode
    rw [hw]
    rfl
  | _ :: _ :: _ :: _ =>
    simp only [List.length_cons] at h
    omega

theorem decode_badLead {a : UInt8} (h : width a = 0) (rest : List UInt8) :
    decode (a :: rest) = ([], .badLead a) := by
  simp only [decode, h]

end TripleLex.Unicode.Utf8

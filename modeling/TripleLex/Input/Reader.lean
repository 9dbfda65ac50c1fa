import TripleLex.Fault
import TripleLex.Unicode.Utf8

/-!
# Readers

A reader hands out bytes in deliveries, as a file or a connection does. It may
be interrupted, which means nothing, or break, which ends it. Characters are
decoded one at a time: no more bytes are asked for than the next character
needs, and they may come from several deliveries.

How the bytes are cut into deliveries must not matter to anyone who reads
characters, so a reader is known by its bytes and by the failure that ends them:
`Reader.gives_decode` says what a reader gives in terms of `Utf8.decode`, which
knows all bytes at once.
-/

namespace TripleLex.Input

open Unicode
open Unicode.Utf8 (Stop)

/-- What a reader does next. -/
inductive Delivery where
  /-- At least one byte arrives. -/
  | bytes (first : UInt8) (more : List UInt8)
  /-- Nothing arrives, and reading goes on. -/
  | interruption
  /-- Reading fails. -/
  | failure (cause : ReadFailure)
  deriving DecidableEq, Repr

/-- A reader: what it delivers, until it ends. -/
abbrev Reader := List Delivery

/-! ## Failures of decoding -/

/-- The bytes end inside a sequence. -/
def truncated : ReadFailure := ⟨"UnexpectedEof", "truncated UTF-8 sequence"⟩

/-- No sequence begins with the byte. -/
def badLead (byte : UInt8) : ReadFailure :=
  ⟨"InvalidData", "invalid UTF-8 lead byte 0x" ++
    String.ofList ((Nat.toDigits 16 byte.toNat).map Char.toUpper)⟩

/-- A byte cannot follow the ones before it, of which there are this many. -/
def badSequence (length : Nat) : ReadFailure :=
  ⟨"InvalidData", s!"invalid utf-8 sequence of {length} bytes from index 0"⟩

namespace Reader

/-! ## Reading -/

/-- The next byte, with what is left of the reader, or nothing at its end. -/
def next : Reader → Except ReadFailure (Option (UInt8 × Reader))
  | [] => .ok none
  | .bytes first [] :: rest => .ok (some (first, rest))
  | .bytes first (b :: more) :: rest => .ok (some (first, .bytes b more :: rest))
  | .interruption :: rest => next rest
  | .failure cause :: _ => .error cause

/-- The bytes that complete a sequence, this many. -/
def complete : Nat → Reader → Except ReadFailure (List UInt8 × Reader)
  | 0, reader => .ok ([], reader)
  | n + 1, reader => do
    match ← reader.next with
    | none => .error truncated
    | some (b, reader) =>
      let (tail, reader) ← complete n reader
      return (b :: tail, reader)

/-- The next character, with what is left of the reader, or nothing at its
end. -/
def decode (reader : Reader) : Except ReadFailure (Option (Char × Reader)) := do
  match ← reader.next with
  | none => return none
  | some (lead, reader) =>
    if Utf8.width lead = 0 then
      .error (badLead lead)
    else
      let (tail, reader) ← complete (Utf8.width lead - 1) reader
      match Utf8.scalar lead tail with
      | .ok c => return some (c, reader)
      | .error length => .error (badSequence length)

/-! ## All at once -/

/-- The bytes that arrive before the reader ends or fails. -/
def bytes : Reader → List UInt8
  | [] => []
  | .bytes first more :: rest => first :: (more ++ bytes rest)
  | .interruption :: rest => bytes rest
  | .failure _ :: _ => []

/-- The failure that ends the reader. -/
def failure? : Reader → Option ReadFailure
  | [] => none
  | .bytes _ _ :: rest => failure? rest
  | .interruption :: rest => failure? rest
  | .failure cause :: _ => some cause

/-- The failure that a reader's consumer meets after the decoded characters.
Bytes that run out inside a sequence are to blame on the reader if it failed. -/
def brokenBy? (stop : Stop) (cause : Option ReadFailure) : Option ReadFailure :=
  match stop with
  | .complete => cause
  | .truncated => some (cause.getD truncated)
  | .badLead byte => some (badLead byte)
  | .badSequence length => some (badSequence length)

/-- The characters that the reader will give. -/
def characters (reader : Reader) : List Char := (Utf8.decode reader.bytes).1

/-- The failure that comes after them. -/
def broken? (reader : Reader) : Option ReadFailure :=
  brokenBy? (Utf8.decode reader.bytes).2 reader.failure?

/-- The next byte is the first of them all. -/
inductive Starts (reader : Reader) : Except ReadFailure (Option (UInt8 × Reader)) → Prop
  | none (hb : reader.bytes = []) (hf : reader.failure? = none) : Starts reader (.ok none)
  | some (b : UInt8) (left : Reader) (hb : reader.bytes = b :: left.bytes)
    (hf : reader.failure? = left.failure?) : Starts reader (.ok (some (b, left)))
  | failed (cause : ReadFailure) (hb : reader.bytes = []) (hf : reader.failure? = some cause) :
    Starts reader (.error cause)

theorem starts_next (reader : Reader) : reader.Starts reader.next := by
  induction reader with
  | nil => exact .none rfl rfl
  | cons delivery rest ih =>
    cases delivery with
    | bytes first more =>
      cases more with
      | nil => exact .some first rest rfl rfl
      | cons b more => exact .some first (.bytes b more :: rest) rfl rfl
    | interruption =>
      show Starts (.interruption :: rest) (next rest)
      generalize next rest = answer at ih
      cases ih with
      | none hb hf => exact .none hb hf
      | some b left hb hf => exact .some b left hb hf
      | failed cause hb hf => exact .failed cause hb hf
    | failure cause => exact .failed cause rfl rfl

/-- The bytes that complete a sequence are the next ones, if there are so
many. -/
inductive Completes (n : Nat) (reader : Reader) :
    Except ReadFailure (List UInt8 × Reader) → Prop
  | all (tail : List UInt8) (left : Reader) (hb : reader.bytes = tail ++ left.bytes)
    (hn : tail.length = n) (hf : reader.failure? = left.failure?) :
    Completes n reader (.ok (tail, left))
  | few (hb : reader.bytes.length < n) : Completes n reader
    (.error (reader.failure?.getD truncated))

theorem completes_complete (n : Nat) (reader : Reader) :
    reader.Completes n (complete n reader) := by
  induction n generalizing reader with
  | zero => exact .all [] reader rfl rfl rfl
  | succ n ih =>
    have hs := reader.starts_next
    unfold complete
    generalize reader.next = answer at hs
    cases hs with
    | none hb hf =>
      have hfew : reader.Completes (n + 1) (.error (reader.failure?.getD truncated)) :=
        .few (by rw [hb]; exact Nat.succ_pos n)
      rwa [hf] at hfew
    | failed cause hb hf =>
      have hfew : reader.Completes (n + 1) (.error (reader.failure?.getD truncated)) :=
        .few (by rw [hb]; exact Nat.succ_pos n)
      rwa [hf] at hfew
    | some b left hb hf =>
      have hc := ih left
      generalize hl : complete n left = answer at hc
      cases hc with
      | all tail left' hb' hn hf' =>
        simp only [bind, Except.bind, hl]
        exact .all (b :: tail) left' (by rw [hb, hb']; rfl) (by rw [List.length_cons, hn])
          (hf.trans hf')
      | few hb' =>
        simp only [bind, Except.bind, hl]
        rw [← hf]
        exact .few (by rw [hb, List.length_cons]; omega)

/-- What a reader gives is the first of its characters, and what breaks it off
comes where none is left. -/
inductive Gives (reader : Reader) : Except ReadFailure (Option (Char × Reader)) → Prop
  | none (hc : reader.characters = []) (hb : reader.broken? = none) : Gives reader (.ok none)
  | some (c : Char) (left : Reader) (hc : reader.characters = c :: left.characters)
    (hb : reader.broken? = left.broken?) : Gives reader (.ok (some (c, left)))
  | failed (cause : ReadFailure) (hc : reader.characters = [])
    (hb : reader.broken? = some cause) : Gives reader (.error cause)

theorem gives_of_decode {reader : Reader} {cs : List Char} {stop : Stop}
    (h : Utf8.decode reader.bytes = (cs, stop)) :
    reader.characters = cs ∧ reader.broken? = brokenBy? stop reader.failure? := by
  unfold characters broken?
  rw [h]
  exact ⟨rfl, rfl⟩

theorem gives_decode (reader : Reader) : reader.Gives reader.decode := by
  have hs := reader.starts_next
  unfold decode
  generalize reader.next = answer at hs
  cases hs with
  | none hb hf =>
    have hdecode : Utf8.decode reader.bytes = ([], .complete) := by rw [hb, Utf8.decode]
    obtain ⟨hc, hbroken⟩ := gives_of_decode hdecode
    exact .none hc (by rw [hbroken, hf]; rfl)
  | failed cause hb hf =>
    have hdecode : Utf8.decode reader.bytes = ([], .complete) := by rw [hb, Utf8.decode]
    obtain ⟨hc, hbroken⟩ := gives_of_decode hdecode
    exact .failed cause hc (by rw [hbroken, hf]; rfl)
  | some lead left hb hf =>
    by_cases hw : Utf8.width lead = 0
    · obtain ⟨hc, hbroken⟩ := gives_of_decode (by rw [hb, Utf8.decode_badLead hw])
      simp only [bind, Except.bind, hw, if_true]
      exact .failed _ hc hbroken
    · have hcomplete := left.completes_complete (Utf8.width lead - 1)
      simp only [bind, Except.bind, if_neg hw]
      generalize complete (Utf8.width lead - 1) left = answer at hcomplete
      cases hcomplete with
      | few hfew =>
        obtain ⟨hc, hbroken⟩ :=
          gives_of_decode (by rw [hb, Utf8.decode_truncated (by omega)])
        rw [← hf]
        exact .failed _ hc hbroken
      | all tail left' hb' hn hf' =>
        have hdecode : Utf8.decode reader.bytes =
            Utf8.after (Utf8.scalar lead tail) (Utf8.decode left'.bytes) := by
          rw [hb, hb', Utf8.decode_sequence (by omega)]
        dsimp only
        cases hscalar : Utf8.scalar lead tail with
        | ok c =>
          rw [hscalar] at hdecode
          obtain ⟨hc, hbroken⟩ := gives_of_decode hdecode
          rw [hf, hf'] at hbroken
          exact .some c left' hc hbroken
        | error length =>
          rw [hscalar] at hdecode
          obtain ⟨hc, hbroken⟩ := gives_of_decode hdecode
          exact .failed _ hc hbroken

end Reader

end TripleLex.Input

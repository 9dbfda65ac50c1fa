import TripleLex.Input.Reader

/-!
# Sources of characters

A source has the characters that are ready and, unless it has ended, the reader
that gives the ones behind them. All characters of a text are ready from the
start and no reader stands behind them; of a reader at most one character is
decoded before it is taken. A failure is met when a character is asked for and
none is left; it is then kept until it is taken, once. A source that has been
closed has no characters and meets no failure any more, but keeps one that it
has met.

What a source will give is the list `Source.rest`, and what breaks it off after
that is `Source.failure`; `Source.filled_fill` says what asking for a character
does to them.

Main statements: `peek_read` says that a character seen is the character read,
and `rest_read` that reading takes it away and nothing else.
-/

namespace TripleLex.Input

/-- A source of characters. -/
structure Source where
  /-- The characters that are decoded and not yet taken. -/
  ready : List Char
  /-- Where the ones behind them come from, until that has ended or failed. -/
  reader : Option Reader
  /-- The failure that was met and not yet taken. -/
  met : Option ReadFailure
  /-- How many times the source has been closed. -/
  closings : Nat
  deriving DecidableEq, Repr

namespace Source

/-- A source of the characters of a text. -/
def ofText (text : String) : Source := ⟨text.toList, none, none, 0⟩

/-- A source of the characters that a reader's bytes encode. -/
def ofReader (reader : Reader) : Source := ⟨[], some reader, none, 0⟩

/-- The characters that are still to come. -/
def rest (s : Source) : List Char :=
  match s.reader with
  | none => s.ready
  | some reader => s.ready ++ reader.characters

/-- The failure that follows them. -/
def failure (s : Source) : Option ReadFailure := s.reader.bind Reader.broken?

/-- Decodes a character if none is ready; behind the last one the reader is given
up. -/
def fill (s : Source) : Source :=
  match s.ready, s.reader with
  | [], some reader =>
    match reader.decode with
    | .ok (some (c, reader)) => { s with ready := [c], reader := some reader }
    | .ok none => { s with reader := none }
    | .error cause => { s with reader := none, met := some cause }
  | _, _ => s

/-- The next character, which stays. -/
def peek (s : Source) : Option Char × Source := (s.fill.ready.head?, s.fill)

/-- The next character, which is taken. -/
def read (s : Source) : Option Char × Source :=
  (s.fill.ready.head?, { s.fill with ready := s.fill.ready.tail })

/-- Whether no character is left. -/
def atEnd (s : Source) : Bool × Source :=
  let (c, s) := s.peek
  (c.isNone, s)

/-- The failure that was met, which is taken. -/
def takeFailure (s : Source) : Option ReadFailure × Source :=
  (s.met, { s with met := none })

/-- Releases the source: nothing comes out of it any more. -/
def close (s : Source) : Source :=
  { s with ready := [], reader := none, closings := s.closings + 1 }

/-! ## What filling does -/

/-- The source is known to go on with a character, or to have ended, in which case
the failure that followed has been met. -/
inductive Filled (s t : Source) : Prop
  | character (c : Char) (more cs : List Char) (ready : t.ready = c :: more)
    (before : s.rest = c :: cs) (rest : t.rest = c :: cs) (failure : t.failure = s.failure)
    (met : t.met = s.met)
  | nothing (ready : t.ready = []) (before : s.rest = []) (rest : t.rest = [])
    (failure : t.failure = none) (met : t.met = (s.failure <|> s.met))

theorem filled_fill (s : Source) : s.Filled s.fill := by
  rcases s with ⟨ready, reader, met, closings⟩
  cases ready with
  | cons c more =>
    cases reader with
    | none => exact .character c more more rfl rfl rfl rfl rfl
    | some reader => exact .character c more (more ++ reader.characters) rfl rfl rfl rfl rfl
  | nil =>
    cases reader with
    | none => exact .nothing rfl rfl rfl rfl rfl
    | some reader =>
      have hg := reader.gives_decode
      unfold fill
      dsimp only
      generalize reader.decode = answer at hg
      cases hg with
      | none hc hb => exact .nothing rfl hc rfl rfl (by rw [failure, Option.bind_some, hb]; rfl)
      | failed cause hc hb =>
        exact .nothing rfl hc rfl rfl (by rw [failure, Option.bind_some, hb]; rfl)
      | some c left hc hb => exact .character c [] left.characters rfl hc rfl hb.symm rfl

theorem head?_fill (s : Source) : s.fill.ready.head? = s.rest.head? := by
  cases s.filled_fill with
  | character c more cs ready before => rw [ready, before]; rfl
  | nothing ready before => rw [ready, before]

theorem rest_fill (s : Source) : s.fill.rest = s.rest := by
  cases s.filled_fill with
  | character c more cs _ before rest => rw [rest, before]
  | nothing _ before rest => rw [rest, before]

theorem closings_fill (s : Source) : s.fill.closings = s.closings := by
  unfold fill
  split
  · split <;> rfl
  · rfl

/-- What is ready is taken first. -/
theorem rest_ready {s : Source} {c : Char} {more cs : List Char} (hready : s.ready = c :: more)
    (hrest : s.rest = c :: cs) : { s with ready := more }.rest = cs := by
  unfold rest at hrest ⊢
  rw [hready] at hrest
  cases hreader : s.reader with
  | none =>
    rw [hreader] at hrest
    exact (List.cons.inj hrest).2
  | some reader =>
    rw [hreader] at hrest
    exact (List.cons.inj hrest).2

theorem peek_eq (s : Source) : s.peek.1 = s.rest.head? := s.head?_fill

theorem peek_read (s : Source) : s.read.1 = s.peek.1 := rfl

theorem rest_peek (s : Source) : s.peek.2.rest = s.rest := s.rest_fill

theorem rest_read (s : Source) : s.read.2.rest = s.rest.tail := by
  unfold read
  cases s.filled_fill with
  | character c more cs ready before rest =>
    rw [before, ready]
    exact rest_ready ready rest
  | nothing ready before rest =>
    rw [before, ready]
    have hsame : { s.fill with ready := [] } = s.fill := by rw [← ready]
    show { s.fill with ready := [] }.rest = []
    rw [hsame, rest]

end Source

end TripleLex.Input

import TripleLex.Input.Source

/-!
# Cursors

A cursor stands in a source of characters. It holds the text of the token that
is being read, the places where that token starts and where its last character
stands, and at most one character that has been given back. Its text is kept
last character first, so that a character is added or given back in one step.

All that a cursor will read is the list `Cursor.ahead`: the character given
back, then the source.
-/

namespace TripleLex

open Input (Source)

/-- A place in a source, with the token that is being read there. -/
structure Cursor where
  source : Source
  /-- The character that was given back. -/
  pending : Option Char
  /-- The text of the token, last character first. -/
  written : List Char
  /-- Where the next character stands. -/
  here : Position
  /-- Where the token starts. -/
  start : Position
  /-- Where the last character of the token stands. -/
  last : Position
  /-- The kind of the token before. -/
  previous : Option Kind
  /-- Whether the source has been closed. -/
  isClosed : Bool
  deriving DecidableEq, Repr

namespace Cursor

/-- Stands at the start of a source. -/
def ofSource (s : Source) : Cursor :=
  ⟨s, none, [], .origin, .origin, .origin, none, false⟩

/-- The characters that are still to be read. -/
def ahead (k : Cursor) : List Char := k.pending.toList ++ k.source.rest

/-- The text of the token. -/
def value (k : Cursor) : List Char := k.written.reverse

/-- The text of the token, as a string. -/
def text (k : Cursor) : String := String.ofList k.value

/-- Whether the token has no text yet. -/
def isEmpty (k : Cursor) : Bool := k.written.isEmpty

/-- The span of the token. -/
def span (k : Cursor) : Span := Span.between k.start k.last

/-- The span from the start of the token to the present place. -/
def faultSpan (k : Cursor) : Span := Span.between k.start k.here

/-- Whether the text ends in the character. -/
def endsWith (k : Cursor) (c : Char) : Bool := k.written.head? == some c

/-- The next character, or nothing at the end. -/
def next? (k : Cursor) : Option Char :=
  match k.pending with
  | some c => some c
  | none => k.source.peek.1

/-- The cursor once it has been seen what comes next: at the end of the source,
what broke it has been met. -/
def looked (k : Cursor) : Cursor :=
  match k.pending with
  | some _ => k
  | none => { k with source := k.source.peek.2 }

/-- The cursor with the next character taken away. -/
def taken (k : Cursor) : Cursor :=
  match k.pending with
  | some _ => { k with pending := none }
  | none => { k with source := k.source.read.2 }

/-- The cursor one character on, the places moved over it. -/
def moved (k : Cursor) (c : Char) : Cursor :=
  { k.taken with last := k.here, here := k.here.after c }

/-- The cursor with a character added to its token. -/
def push (k : Cursor) (c : Char) : Cursor := { k with written := c :: k.written }

/-- The cursor with the last character of its token given back; `written` is the
rest of its text. The place of the character before is not known again, so the
token is taken to end one column earlier. -/
def givenBack (k : Cursor) (c : Char) (written : List Char) : Cursor :=
  { k with
    pending := some c
    written := written
    here := k.last
    last :=
      if written.isEmpty then k.start
      else if k.last.column > 1 then ⟨k.last.line, k.last.column - 1⟩ else k.last }

/-- The cursor with its source closed, which happens once. -/
def close (k : Cursor) : Cursor :=
  if k.isClosed then k else { k with isClosed := true, source := k.source.close }

/-- The cursor at the start of a new token. -/
def fresh (k : Cursor) : Cursor :=
  { k with written := [], start := k.here, last := k.here }

/-! ## What the operations leave ahead -/

theorem next?_eq (k : Cursor) : k.next? = k.ahead.head? := by
  unfold next? ahead
  cases k.pending with
  | none => exact k.source.peek_eq
  | some c => rfl

@[simp] theorem ahead_looked (k : Cursor) : k.looked.ahead = k.ahead := by
  unfold looked
  split
  · rfl
  · simp [ahead, Source.rest_peek]

@[simp] theorem ahead_taken (k : Cursor) : k.taken.ahead = k.ahead.tail := by
  unfold taken
  split <;> simp_all [ahead, Source.rest_read]

@[simp] theorem ahead_moved (k : Cursor) (c : Char) : (k.moved c).ahead = k.ahead.tail := by
  rw [← ahead_taken]; rfl

@[simp] theorem ahead_push (k : Cursor) (c : Char) : (k.push c).ahead = k.ahead := rfl

@[simp] theorem ahead_fresh (k : Cursor) : k.fresh.ahead = k.ahead := rfl

theorem ahead_givenBack {k : Cursor} (h : k.pending = none) (c : Char) (written : List Char) :
    (k.givenBack c written).ahead = c :: k.ahead := by
  unfold ahead
  rw [h]
  rfl

theorem isClosed_close (k : Cursor) : k.close.isClosed = true := by
  unfold close
  split <;> simp_all

end Cursor

end TripleLex

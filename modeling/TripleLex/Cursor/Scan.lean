import TripleLex.Cursor

/-!
# Scans

A scan moves a cursor and yields a value or a fault; in both cases it says where
the cursor is left, since reading may be taken up again after a fault. This
module has the single steps: looking, taking, giving back, starting a token,
making it, and failing. Whatever fails closes the source.

Main statements: `look_eq` and `consume_cons` give the two steps that all others
are built on.
-/

namespace TripleLex

/-- A movement of a cursor that yields a value or a fault. -/
abbrev Scan (α : Type) := EStateM Fault Cursor α

/-- Stands for the next character at the end of the input, where a message needs
one. -/
def endOfInput : Char := Char.ofNat 0x10FFFF

namespace Scan

/-! ## Failing -/

/-- Fails, and closes the source. -/
def raise {α : Type} (fault : Fault) : Scan α := fun k => .error fault k.close

/-- Takes the failure that the source has met. -/
def takeFailure : Scan (Option ReadFailure) := fun k =>
  .ok k.source.takeFailure.1 { k with source := k.source.takeFailure.2 }

/-- Fails if the source was broken off. -/
def failIfBroken : Scan Unit := do
  match ← takeFailure with
  | some cause => raise (.unreadable cause)
  | none => pure ()

/-- Fails for want of a character, or for what broke the source off. -/
def exhausted {α : Type} : Scan α := do
  failIfBroken
  raise (.exhausted (Span.point (← get).here))

/-- Fails for a breach of the syntax by the token so far. -/
def violation {α : Type} (message : String) : Scan α := do
  raise (.violation message (← get).faultSpan)

/-- Fails for the character here. -/
def unexpectedCharacter {α : Type} (found : Char) (expected : String) : Scan α := do
  raise (.unexpectedCharacter found expected (Span.point (← get).here))

/-- Fails for the end of the input, or for what broke the source off. -/
def unexpectedEnd {α : Type} (expected : String) : Scan α := do
  failIfBroken
  let k ← get
  raise (.unexpectedEnd expected (Fault.shownContent k.value) k.faultSpan)

/-- Fails for the end of a line. -/
def unexpectedLineEnd {α : Type} (expected : String) : Scan α := do
  let k ← get
  raise (.unexpectedLineEnd expected (Fault.shownContent k.value) k.faultSpan)

/-- Fails for a token of the wrong kind. -/
def unexpectedToken {α : Type} (expected : String) (found : Token) : Scan α :=
  raise (.unexpectedToken expected found.kind found.span)

/-- Fails for a text that its grammar does not derive. -/
def invalidForm {α : Type} (production : String) (value : String) : Scan α := do
  raise (.invalidForm production value (← get).span)

/-- Fails for an escape that is not allowed. -/
def malformedEscape {α : Type} (message : String) : Scan α := do
  raise (.malformedEscape message (← get).faultSpan)

/-- Fails for an escape by code point. -/
def malformedUnicodeEscape {α : Type} (message : String) : Scan α := do
  raise (.malformedUnicodeEscape message (← get).faultSpan)

/-- Fails for a use of the cursor against its rules. -/
def misuse {α : Type} (message : String) : Scan α := do
  raise (.misuse message (← get).faultSpan)

/-- Closes the source. -/
def close : Scan Unit := modify Cursor.close

/-! ## Reading -/

/-- The next character, which stays, or nothing at the end. -/
def look : Scan (Option Char) := fun k => .ok k.next? k.looked

/-- Whether the next character is this one. -/
def nextIs (c : Char) : Scan Bool := return (← look) == some c

/-- Takes the next character; the places stay. -/
def take : Scan (Option Char) := fun k => .ok k.next? k.taken

/-- Takes the next character and moves over it. -/
def advance : Scan (Option Char) := fun k =>
  match k.next? with
  | some c => .ok (some c) (k.moved c)
  | none => .ok none k.taken

/-- Adds a character to the token that was not read for it. -/
def push (c : Char) : Scan Unit := modify (Cursor.push · c)

/-- Adds characters to the token that were not read for it. -/
def append (cs : List Char) : Scan Unit :=
  modify fun k => { k with written := cs.reverse ++ k.written }

/-- Takes the next character into the token. -/
def consume : Scan Char := do
  match ← advance with
  | some c => push c; return c
  | none => exhausted

/-- Takes the next character into the token if there is one, and says whether
there was none. -/
def consumeUnlessEnd : Scan Bool := do
  match ← advance with
  | some c => push c; return false
  | none => failIfBroken; return true

/-- Takes the next character without adding it to the token. -/
def skip : Scan Char := do
  match ← advance with
  | some c => return c
  | none => exhausted

/-- The other half of a line end of two characters. -/
def lineEndPartner? : Char → Option Char
  | '\n' => some '\r'
  | '\r' => some '\n'
  | _ => none

/-- Adds a character to the token if it is to be kept. -/
def pushIf (keep : Bool) (c : Char) : Scan Unit := if keep then push c else pure ()

/-- Adds characters to the token if they are to be kept. -/
def appendIf (keep : Bool) (cs : List Char) : Scan Unit := if keep then append cs else pure ()

/-- Takes the other half of a line end if it comes next; no place moves. -/
def consumePartner (keep : Bool) (partner : Char) : Scan Unit := do
  if ← nextIs partner then
    let _ ← take
    pushIf keep partner

/-- Takes a line end, of one or two characters. -/
def consumeLineEnd (keep allowEnd : Bool) : Scan Unit := do
  match ← look with
  | none => if allowEnd then pure () else unexpectedEnd "a new line"
  | some first =>
    match lineEndPartner? first with
    | none =>
      violation ("Cannot consume a new line since there is no new line character at the current" ++
        " position")
    | some partner =>
      let _ ← skip
      pushIf keep first
      consumePartner keep partner

/-- Gives the last character of the token back to the input. Only one character
may be given back before it is read again. -/
def backtrack : Scan Unit := do
  let k ← get
  match k.pending, k.written with
  | some _, _ => misuse "Cannot backtrack more than one character"
  | none, [] => misuse "Cannot backtrack when no characters have been consumed"
  | none, c :: written => set (k.givenBack c written)

/-- Gives a dot at the end of the token back: it mostly ends a statement. -/
def giveBackDot : Scan Unit := do
  if (← get).endsWith '.' then backtrack else pure ()

/-! ## Making tokens -/

/-- Starts a new token here. -/
def startToken : Scan Unit := modify Cursor.fresh

/-- Remembers the kind of the token before. -/
def setPrevious (kind : Kind) : Scan Unit := modify fun k => { k with previous := some kind }

/-- The token, with a text of its own. -/
def emitAs (kind : Kind) (text : String) : Scan Token := do
  let k ← get
  setPrevious kind
  return ⟨kind, text, k.span⟩

/-- The token, with the text that was gathered for it. -/
def emit (kind : Kind) : Scan Token := do
  let k ← get
  set { k with written := [] }
  emitAs kind k.text

/-- The token, without a text. -/
def emitBare (kind : Kind) : Scan Token := do
  modify fun k => { k with written := [] }
  emitAs kind ""

/-- The token after all text, here. -/
def emitEnding : Scan Token := do
  startToken
  emitAs .ending ""

/-! ## Equations of the two steps -/

theorem look_eq (k : Cursor) : look k = .ok k.ahead.head? k.looked := by
  rw [look, k.next?_eq]

theorem take_eq (k : Cursor) : take k = .ok k.ahead.head? k.taken := by
  rw [take, k.next?_eq]

theorem advance_nil {k : Cursor} (h : k.ahead = []) : advance k = .ok none k.taken := by
  simp [advance, k.next?_eq, h]

theorem consume_cons {k : Cursor} {c : Char} {cs : List Char} (h : k.ahead = c :: cs) :
    consume k = .ok c ((k.moved c).push c) := by
  have hadvance : advance k = .ok (some c) (k.moved c) := by simp [advance, k.next?_eq, h]
  simp only [consume, bind, EStateM.bind, hadvance]
  rfl

theorem skip_cons {k : Cursor} {c : Char} {cs : List Char} (h : k.ahead = c :: cs) :
    skip k = .ok c (k.moved c) := by
  simp [skip, advance, k.next?_eq, bind, EStateM.bind, h, pure, EStateM.pure]

end Scan

end TripleLex

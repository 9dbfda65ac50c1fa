import TripleLex.Token
import TripleLex.Unicode.Blank
import TripleLex.Unicode.Displayed

/-!
# Faults

A fault says why reading stopped and, unless the input itself could not be read,
where. The wording of every fault is in `Fault.message`.
-/

namespace TripleLex

/-- A failure of the device that a text is read from, or of its encoding. -/
structure ReadFailure where
  /-- The class of the failure, as the device names it. -/
  kind : String
  message : String
  deriving DecidableEq, Repr

/-- Why reading stopped. -/
inductive Fault where
  /-- A character that cannot stand where it was found. -/
  | unexpectedCharacter (found : Char) (expected : String) (span : Span)
  /-- The text ended inside a token. -/
  | unexpectedEnd (expected : String) (content : Option String) (span : Span)
  /-- A character was asked for where none is left. -/
  | exhausted (span : Span)
  /-- A line ended inside a token of one line. -/
  | unexpectedLineEnd (expected : String) (content : Option String) (span : Span)
  /-- A token of another kind than the one that has to follow. -/
  | unexpectedToken (expected : String) (found : Kind) (span : Span)
  /-- An escape that is not allowed where it was found. -/
  | malformedEscape (message : String) (span : Span)
  /-- An escape by code point that names no character. -/
  | malformedUnicodeEscape (message : String) (span : Span)
  /-- A text that its grammar does not derive. -/
  | invalidForm (production value : String) (span : Span)
  /-- Any other breach of the syntax. -/
  | violation (message : String) (span : Span)
  /-- A cursor was used against its rules. -/
  | misuse (message : String) (span : Span)
  /-- The input could not be read. -/
  | unreadable (failure : ReadFailure)
  deriving DecidableEq, Repr

namespace Fault

/-- Where reading stopped. -/
def span? : Fault → Option Span
  | unexpectedCharacter _ _ s | unexpectedEnd _ _ s | exhausted s | unexpectedLineEnd _ _ s
  | unexpectedToken _ _ s | malformedEscape _ s | malformedUnicodeEscape _ s | invalidForm _ _ s
  | violation _ s | misuse _ s => some s
  | unreadable _ => none

/-- Whether the fault lies with the caller and not with the text. -/
def isMisuse : Fault → Bool
  | misuse _ _ => true
  | _ => false

/-- What was being read, as the end of a message. -/
def whileParsing (expected : String) : String :=
  if expected.isEmpty then "" else " while trying to parse " ++ expected

/-- The text read so far, as the end of a message. -/
def fromContent : Option String → String
  | some content => " from content:\n" ++ content
  | none => ""

/-- The wording of a fault. -/
def message : Fault → String
  | unexpectedCharacter c expected s =>
    s!"{s.display} Unexpected character (code {c.toNat}) '{Unicode.displayed c}'"
      ++ whileParsing expected
  | unexpectedEnd expected content s =>
    s!"{s.display} Unexpected end of input while trying to parse {expected}" ++ fromContent content
  | exhausted s => s!"{s.display} Unexpected end of stream"
  | unexpectedLineEnd expected content s =>
    s!"{s.display} Unexpected new line while trying to parse {expected}" ++ fromContent content
  | unexpectedToken expected kind s =>
    s!"{s.display} Unexpected {kind.label} token while trying to parse {expected}"
  | malformedEscape m s => s!"{s.display} Malformed escape sequence: {m}"
  | malformedUnicodeEscape m s => s!"{s.display} Malformed unicode escape sequence: {m}"
  | invalidForm production value s =>
    s!"{s.display} The value '{value}' is not valid as a {production}"
  | violation m s => s!"{s.display} {m}"
  | misuse m s => s!"{s.display} Internal tokeniser error: {m}"
  | unreadable f => s!"Unable to read input: {f.message}"

/-- The part of a token that a message quotes: nothing if it is blank
throughout. -/
def shownContent (text : List Char) : Option String :=
  if text.all Unicode.isBlank then none else some (String.ofList text)

end Fault

end TripleLex

import TripleLex.Cursor.Repeat

/-!
# Marks

The tokens that all syntaxes read alike: the one before all text, the one after
it, a single character, and a comment.
-/

namespace TripleLex.Scan

/-- The next character, with a stand-in for it at the end, for a message. -/
def nextOrEnd : Scan Char := return (← look).getD endOfInput

/-- What comes first in every step: the token before all text at the very
beginning, the token after it again once it has been reached, and otherwise the
start of a token. -/
def mark? : Scan (Option Token) := do
  match (← get).previous with
  | none =>
    setPrevious .beginning
    return some .beginning
  | some .ending => return some (← emitEnding)
  | some _ =>
    startToken
    return none

/-- A step: the token before or after all text, or what is read behind a token
of a kind. -/
def step (read : Option Kind → Scan Token) : Scan Token := do
  match ← mark? with
  | some token => return token
  | none => read (← get).previous

/-- The end of the input: the token after all text, unless a token is being read
or the source was broken off. -/
def ending (expected : String) : Scan Token := do
  if (← get).isEmpty then
    failIfBroken
    emitEnding
  else
    unexpectedEnd expected

/-- The token that begins with the next character, or the end of the input. -/
def tokenHere (dispatch : Char → Scan Token) : Scan Token := do
  match ← look with
  | none => ending "Token"
  | some c => dispatch c

/-- A token of one character. -/
def single (kind : Kind) : Scan Token := do
  let _ ← consume
  emit kind

/-- A comment, to the end of its line; the line end is left. -/
def comment : Scan Token := do
  consumeWhile fun c => !Unicode.isLineEnd c
  emit .comment

end TripleLex.Scan

import TripleLex.Cursor.Repeat
import TripleLex.Name.LocalEscape

/-!
# Escapes

A backslash announces an escape; what it may be depends on where it stands. An
escape that is not known there leaves its backslash in the text and the
character after it to be read on its own, except in a name, where it is a fault.

Two rules go beyond the grammars. A doubled backslash before a character that a
backslash could announce stays doubled, so that a consumer does not take the
pair for an escape. And an escape by eight digits leaves the digits in front of
its character.

Main statement: `takes_decodeEscape` says that decoding an escape takes
something.
-/

namespace TripleLex

/-- Where an escape stands. -/
inductive EscapeContext where
  /-- Between angle brackets. -/
  | reference
  /-- Between quotation marks. -/
  | quotation
  /-- Between apostrophes. -/
  | apostrophe
  /-- In a prefixed name. -/
  | name
  deriving DecidableEq, Repr

/-- What an escape is, by the character after its backslash. -/
inductive Escape where
  /-- A backslash. -/
  | backslash
  /-- The character after the backslash. -/
  | itself
  /-- A character that the one after the backslash stands for. -/
  | control (c : Char)
  /-- The character with the code point of this many digits; `kept` digits stay
  in the text. -/
  | codePoint (digits : Nat) (kept : Bool)
  /-- No escape: the backslash is text. -/
  | none
  /-- No escape, where the backslash cannot be text. -/
  | refused
  deriving DecidableEq, Repr

namespace Escape

/-- What the character after a backslash makes of it. -/
def ofChar (context : EscapeContext) (c : Char) : Escape :=
  let inName := context == .name
  match c with
  | '\\' => if inName then refused else backslash
  | '"' =>
    match context with
    | .quotation | .apostrophe => itself
    | .reference => none
    | .name => refused
  | '\'' =>
    match context with
    | .apostrophe => itself
    | .reference | .quotation => none
    | .name => refused
  | '>' =>
    match context with
    | .reference => itself
    | .quotation | .apostrophe => none
    | .name => refused
  | 'n' => if inName then refused else control '\n'
  | 'r' => if inName then refused else control '\r'
  | 't' => if inName then refused else control '\t'
  | 'u' => codePoint 4 false
  | 'U' => codePoint 8 true
  | _ => if inName then refused else none

/-- Whether a backslash before the character could be taken for an escape. -/
def isAnnounced (c : Char) : Bool :=
  c == 't' || c == 'n' || c == 'r' || c == 'u' || c == 'U'

/-- The value of a hexadecimal digit. -/
def hexValue (c : Char) : Nat :=
  if c.isDigit then c.toNat - '0'.toNat
  else if 'a' ≤ c then c.toNat - 'a'.toNat + 10
  else c.toNat - 'A'.toNat + 10

/-- The number that hexadecimal digits write. -/
def number (digits : List Char) : Nat :=
  digits.foldl (fun n c => n * 16 + hexValue c) 0

/-- The character with a code point. -/
def scalar? (code : Nat) : Option Char :=
  if code.isValidChar then some (Char.ofNat code) else Option.none

/-- How a message counts digits. -/
def countWord (digits : Nat) : String := if digits = 4 then "four" else "eight"

/-- The letter that announces a code point of this many digits. -/
def letter (digits : Nat) : String := if digits = 4 then "u" else "U"

end Escape

namespace Scan

/-- Reads hexadecimal digits, at most this many. -/
def readHexDigits : Nat → Scan (List Char)
  | 0 => return []
  | n + 1 => do
    match ← look with
    | none => return []
    | some c =>
      if Name.isHexDigit c then
        let _ ← skip
        return c :: (← readHexDigits n)
      else return []

/-- Adds the character with a code point to the token; zero adds nothing. -/
def pushCodePoint (digits : List Char) : Scan Unit := do
  if Escape.number digits != 0 then
    match Escape.scalar? (Escape.number digits) with
    | some c => push c
    | none =>
      malformedUnicodeEscape (String.ofList digits ++ " is not a valid unicode code point")

/-- Decodes what follows the backslash. -/
def decodeAfterBackslash (context : EscapeContext) (next : Char) : Scan Unit := do
  match Escape.ofChar context next with
  | .backslash =>
    let _ ← consume
    match ← look with
    | some following => pushIf (Escape.isAnnounced following) '\\'
    | none => pure ()
  | .itself => let _ ← consume
  | .control c =>
    let _ ← skip
    push c
  | .codePoint count kept =>
    let _ ← skip
    let digits ← readHexDigits count
    if digits.length != count then
      malformedUnicodeEscape ("\\" ++ Escape.letter count ++ " must be followed by " ++
        Escape.countWord count ++ " hex digits, found '" ++ String.ofList digits ++ "'")
    else
      appendIf kept digits
      pushCodePoint digits
  | .none => push '\\'
  | .refused =>
    malformedEscape ("\\" ++ Unicode.displayed next ++
      " is not permitted here, only \\u and \\U escapes may be used")

/-- Decodes one escape, from its backslash on, into the token. -/
def decodeEscape (context : EscapeContext) : Scan Unit := do
  let opening ← skip
  if opening != '\\' then
    misuse ("escape handling started on '" ++ opening.toString ++ "' rather than a backslash")
  else
    match ← look with
    | none => unexpectedEnd "an escape sequence"
    | some next => decodeAfterBackslash context next

/-- Reads an escape in a local name, which stays as it is written: a
reserved character behind a backslash, or two hexadecimal digits behind a
percent sign. -/
def readLocalEscape : Scan Unit := do
  match ← skip with
  | '\\' =>
    match ← look with
    | none => unexpectedEnd "a local name escape"
    | some next =>
      if Name.isReserved next then
        push '\\'
        let _ ← consume
      else if next == 'u' || next == 'U' then
        malformedEscape ("unicode escapes (\\u or \\U) are not permitted in the local name part" ++
          " of a prefixed name")
      else
        malformedEscape ("\\" ++ Unicode.displayed next ++ " is not a valid local name escape," ++
          " only the characters _~-.!$&'()*+,;=/?#@% may be escaped")
  | '%' =>
    let digits ← readHexDigits 2
    if digits.length != 2 then
      malformedEscape ("% in a local name must be followed by two hex digits, use \\% for a" ++
        " literal percent sign")
    else
      push '%'
      append digits
  | other => misuse ("local name escape handling started on '" ++ other.toString ++ "'")

/-! ## What escapes spend -/

theorem keeps_readHexDigits (n : Nat) : Keeps (readHexDigits n) := by
  induction n with
  | zero => exact keeps_pure _
  | succ n ih =>
    refine keeps_look.bind fun c => ?_
    split
    · exact keeps_pure _
    · split
      · exact takes_skip.keeps.bind fun _ => ih.bind fun _ => keeps_pure _
      · exact keeps_pure _

theorem keeps_pushCodePoint (digits : List Char) : Keeps (pushCodePoint digits) := by
  unfold pushCodePoint
  split
  · split
    · exact keeps_push _
    · exact spends_malformedUnicodeEscape _
  · exact keeps_pure _

theorem keeps_decodeAfterBackslash (context : EscapeContext) (next : Char) :
    Keeps (decodeAfterBackslash context next) := by
  unfold decodeAfterBackslash
  split
  · refine takes_consume.keeps.bind fun _ => keeps_look.bind fun c => ?_
    split
    · exact keeps_pushIf _ _
    · exact keeps_pure _
  · exact takes_consume.keeps.bind fun _ => keeps_pure _
  · exact takes_skip.keeps.bind fun _ => keeps_push _
  · refine takes_skip.keeps.bind fun _ => (keeps_readHexDigits _).bind fun digits => ?_
    split
    · exact spends_malformedUnicodeEscape _
    · exact (keeps_appendIf _ _).bind fun _ => keeps_pushCodePoint _
  · exact keeps_push _
  · exact spends_malformedEscape _

theorem takes_decodeEscape (context : EscapeContext) : Takes (decodeEscape context) := by
  refine takes_skip.bind fun opening => ?_
  split
  · exact spends_misuse _
  · refine keeps_look.bind fun c => ?_
    split
    · exact spends_unexpectedEnd _
    · exact keeps_decodeAfterBackslash _ _

theorem takes_readLocalEscape : Takes readLocalEscape := by
  refine takes_skip.bind fun opening => ?_
  split
  · refine keeps_look.bind fun c => ?_
    split
    · exact spends_unexpectedEnd _
    · split
      · exact (keeps_push _).bind fun _ => takes_consume.keeps.bind fun _ => keeps_pure _
      · split <;> exact spends_malformedEscape _
  · refine (keeps_readHexDigits _).bind fun digits => ?_
    split
    · exact spends_malformedEscape _
    · exact (keeps_push _).bind fun _ => keeps_append _
  · exact spends_misuse _

end Scan

end TripleLex

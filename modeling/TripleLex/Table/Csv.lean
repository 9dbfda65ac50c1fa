import TripleLex.Token.Mark

/-!
# Comma-separated values

Fields stand between commas and records end with their line. A field between
quotation marks may hold commas, line ends and, doubled, quotation marks;
nothing but a comma or a line end may follow it. A bare field holds anything
else but a quotation mark. No blank character is passed over.
-/

namespace TripleLex.Table

open Scan

namespace Csv

/-- One more character of a bare field. -/
def bareTurn (_ : Unit) : Scan (Turn Unit Unit) := do
  match ← look with
  | none => return .done ()
  | some c =>
    if c == ',' || Unicode.isLineEnd c then
      return .done ()
    else if c == '"' then
      unexpectedCharacter c
        "an unquoted field, quotes are only permitted around a whole field"
    else
      let _ ← consume
      return .again ()

theorem advances_bareTurn (u : Unit) : Advances (bareTurn u) := by
  refine keeps_look.bind fun c => ?_
  split
  · exact spends_pure id
  · split
    · exact spends_pure id
    · split
      · exact spends_unexpectedCharacter _ _
      · exact takes_consume.bind fun _ => keeps_pure _

/-- A field without quotation marks. -/
def bareField : Scan Token := do
  iterate bareTurn advances_bareTurn ()
  emit .plainLiteral

/-- A quotation mark inside a field between quotation marks: doubled it is text,
alone it closes. -/
def markTurn : Scan (Turn Unit Unit) := do
  let _ ← skip
  if ← nextIs '"' then
    let _ ← consume
    return .again ()
  else
    return .done ()

theorem takes_markTurn : Takes markTurn := by
  refine takes_skip.bind fun _ => (keeps_nextIs _).bind fun more => ?_
  split
  · exact takes_consume.keeps.bind fun _ => keeps_pure _
  · exact keeps_pure _

/-- One more piece of a field between quotation marks. -/
def quotedTurn (_ : Unit) : Scan (Turn Unit Unit) := do
  match ← look with
  | none => unexpectedEnd "a quoted field"
  | some c =>
    if c == '"' then
      markTurn
    else if Unicode.isLineEnd c then
      consumeLineEnd true false
      return .again ()
    else
      let _ ← consume
      return .again ()

theorem advances_quotedTurn (u : Unit) : Advances (quotedTurn u) := by
  refine keeps_look.bind fun c => ?_
  split
  · exact spends_unexpectedEnd _
  · split
    · exact takes_markTurn.spends
    · split
      · exact (takes_consumeLineEnd _).bind fun _ => keeps_pure _
      · exact takes_consume.bind fun _ => keeps_pure _

/-- A field between quotation marks. -/
def quotedField : Scan Token := do
  let _ ← skip
  iterate quotedTurn advances_quotedTurn ()
  match ← look with
  | none => emit .literal
  | some c =>
    if c == ',' || Unicode.isLineEnd c then
      emit .literal
    else
      unexpectedCharacter c "a comma or new line after a quoted field"

/-- The end of a record. -/
def recordEnd : Scan Token := do
  consumeLineEnd false true
  emitBare .lineEnd

/-- The token that begins with a character. -/
def dispatch (c : Char) : Scan Token :=
  if c == ',' then single .comma
  else if Unicode.isLineEnd c then recordEnd
  else if c == '"' then quotedField
  else bareField

/-- The token behind any other. -/
def read : Scan Token := tokenHere dispatch

end Csv

end TripleLex.Table

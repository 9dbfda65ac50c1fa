import TripleLex.Number.Scan
import TripleLex.Quoted.Annotation
import TripleLex.Table.Csv

/-!
# Tab-separated values

Fields stand between tabs and records end with their line; spaces between tokens
are passed over. A field is a term as Turtle writes it, or a variable in the
first record. A literal stands between quotation marks; it may hold line ends,
escapes and, doubled, quotation marks.
-/

namespace TripleLex.Table.Tsv

open Scan

/-- Passes over spaces and starts a token after them. -/
def discardSpaces : Scan Unit := do
  skipWhile (· == ' ')
  startToken

/-- One more piece of a literal. -/
def literalTurn (_ : Unit) : Scan (Turn Unit Unit) := do
  match ← look with
  | none => unexpectedEnd "Literal"
  | some c =>
    if c == '\\' then
      decodeEscape .quotation
      return .again ()
    else if c == '"' then
      Csv.markTurn
    else if Unicode.isLineEnd c then
      consumeLineEnd true false
      return .again ()
    else
      let _ ← consume
      return .again ()

theorem advances_literalTurn (u : Unit) : Advances (literalTurn u) := by
  refine keeps_look.bind fun c => ?_
  split
  · exact spends_unexpectedEnd _
  · split
    · exact (takes_decodeEscape _).bind fun _ => keeps_pure _
    · split
      · exact Csv.takes_markTurn.spends
      · split
        · exact (takes_consumeLineEnd _).bind fun _ => keeps_pure _
        · exact takes_consume.bind fun _ => keeps_pure _

/-- A literal. -/
def literal : Scan Token := do
  let _ ← skip
  iterate literalTurn advances_literalTurn ()
  emit .literal

/-- A variable. -/
def variableName : Scan Token := do
  gatherVariable
  variableToken '?'

/-- A prefixed name, a blank node or a truth value. -/
def name : Scan Token := do
  gatherName .recommendation true
  match ← nameToken? .recommendation with
  | some token => return token
  | none =>
    let k ← get
    if Number.isTruth k.value then
      emit .plainLiteral
    else
      invalidForm "RDF term" k.text

/-- The token that begins with a character. -/
def dispatch (previous : Option Kind) (c : Char) : Scan Token :=
  match c with
  | '\t' => single .tab
  | '<' => reference
  | '"' => literal
  | '?' => variableName
  | '+' | '-' | '.' => number
  | '_' | ':' => name
  | c =>
    if Unicode.isLineEnd c then Csv.recordEnd
    else if c == '@' && previous == some .literal then languageTag
    else if c == '^' && previous == some .literal then hatHat
    else if c.isDigit then number
    else if Name.opensName c then name
    else unexpectedCharacter c "the start of a TSV term"

/-- The token behind one of a kind. -/
def read (previous : Option Kind) : Scan Token :=
  match previous with
  | some .hatHat => datatype .recommendation
  | _ => do
    discardSpaces
    tokenHere (dispatch previous)

end TripleLex.Table.Tsv

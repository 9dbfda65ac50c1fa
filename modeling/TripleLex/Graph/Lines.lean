import TripleLex.Quoted.Annotation
import TripleLex.Quoted.Literal

/-!
# N-Triples and N-Quads

The formats with one statement a line have references, labelled blank nodes,
short literals between quotation marks with a language tag or a datatype,
comments, and the dot that ends a statement. In N-Quads a reference or a blank
node may follow a literal, as the graph of the statement; in N-Triples it may
not.
-/

namespace TripleLex.Graph

open Scan

/-- Which of the two formats. -/
inductive LineFormat where
  | triples
  | quads
  deriving DecidableEq, Repr

namespace LineFormat

/-- Whether a token of this kind may have ended a literal. -/
def endsLiteral : Option Kind → Bool
  | some .literal | some .languageTag | some .datatype => true
  | _ => false

/-- Fails where a graph would follow a literal in N-Triples. -/
def checkGraph (format : LineFormat) : Scan Unit := do
  if endsLiteral (← get).previous && format == .triples then
    violation ("A URI or blank node cannot follow a literal in NTriples, a datatype must be" ++
      " introduced with ^^")
  else
    pure ()

/-- A datatype, which must be a reference. -/
def datatype : Scan Token := do
  discardBlank
  match ← look with
  | none => unexpectedEnd "a data type"
  | some c =>
    if c == '<' then referenceDatatype else unexpectedCharacter c "a URI for a data type"

/-- A blank node with its label. -/
def blankNode (format : LineFormat) : Scan Token := do
  format.checkGraph
  let _ ← consume
  if !(← nextIs ':') then
    unexpectedCharacter (← nextOrEnd) "a blank node, expected _:"
  else
    let _ ← consume
    consumeWhile fun c => Name.isInner c || c == '.'
    giveBackDot
    let k ← get
    if Name.isBlankNode k.value then
      emit .blankNode
    else
      invalidForm "Blank Node ID" k.text

/-- A literal between quotation marks, which has no long form. -/
def literal : Scan Token := do
  let _ ← skip
  if ← nextIs '"' then
    let _ ← skip
    if ← nextIs '"' then
      violation "Long literals are not permitted in NTriples or NQuads"
    else
      emit .literal
  else
    shortBody '"'
    emit .literal

/-- The token that begins with a character. -/
def dispatch (format : LineFormat) (previous : Option Kind) (c : Char) : Scan Token :=
  match c with
  | '#' => comment
  | '<' => do
    format.checkGraph
    reference
  | '_' => format.blankNode
  | '"' => literal
  | '.' => single .dot
  | c =>
    if c == '@' && previous == some .literal then languageTag
    else if c == '^' && previous == some .literal then hatHat
    else unexpectedCharacter c "the start of an NTriples token"

/-- The token behind one of a kind. -/
def read (format : LineFormat) (previous : Option Kind) : Scan Token :=
  match previous with
  | some .hatHat => datatype
  | _ => do
    discardBlank
    tokenHere (format.dispatch previous)

end LineFormat

end TripleLex.Graph

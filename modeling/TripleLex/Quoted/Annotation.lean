import TripleLex.Name.Scan
import TripleLex.Quoted.Reference

/-!
# Language tags and datatypes

What may follow a quoted literal: a language tag behind `@`, or `^^` and then a
datatype, which is a reference or a prefixed name.
-/

namespace TripleLex.Scan

/-- A language tag, from its `@` on. -/
def languageTag : Scan Token := do
  let _ ← skip
  consumeWhile Name.isTagChar
  let k ← get
  if k.isEmpty then
    unexpectedCharacter (← nextOrEnd) "a language specifier"
  else if Name.isLanguageTag k.value then
    emit .languageTag
  else
    invalidForm "language specifier" k.text

/-- The sign that introduces a datatype. -/
def hatHat : Scan Token := do
  let _ ← consume
  match ← look with
  | none => unexpectedEnd "a data type specifier"
  | some c =>
    if c == '^' then
      let _ ← consume
      emit .hatHat
    else
      unexpectedCharacter c "a data type specifier, expected ^^"

/-- A datatype written as a name, which the next character may begin. -/
def nameDatatype (rule : Name.Rule) : Scan Token := do
  gatherName rule true
  match ← nameToken? rule with
  | some token =>
    if token.kind == .prefixedName then
      setPrevious .datatype
      return { token with kind := .datatype }
    else
      unexpectedToken "a QName for a data type" token
  | none => invalidForm "QName for a data type" (← get).text

/-- A datatype: a reference or a prefixed name. -/
def datatype (rule : Name.Rule) : Scan Token := do
  discardBlank
  match ← look with
  | none => unexpectedEnd "a data type"
  | some c =>
    if c == '<' then
      referenceDatatype
    else if !(Name.isScanned c || c == '\\') || c == '.' then
      unexpectedCharacter c "a URI or QName for a data type"
    else
      nameDatatype rule

end TripleLex.Scan

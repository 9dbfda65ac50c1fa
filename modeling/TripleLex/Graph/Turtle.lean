import TripleLex.Number.Scan
import TripleLex.Quoted.Annotation
import TripleLex.Quoted.Literal

/-!
# Turtle and TriG

What a token is depends on the character that begins it and, for a few
characters, on the token before: a prefix must follow its directive, a datatype
its sign, and `@` and `^` mean a language tag and a datatype after a quoted
literal only.

TriG adds braces, `=` and the word `GRAPH` to Turtle, for its named graphs.
-/

namespace TripleLex.Graph

open Scan

/-- Turtle or TriG, in a dialect. -/
structure Turtle where
  dialect : Dialect
  /-- Whether there are named graphs, which makes it TriG. -/
  hasGraphs : Bool
  deriving DecidableEq, Repr

/-- Whether two words agree up to the case of their ASCII letters; the second is
a lower-case one. -/
def isWord (word : List Char) (lower : String) : Bool := word.map Char.toLower == lower.toList

/-- The wording where Notation 3 is used in another language. -/
def belongsToNotation3 (what language : String) : String :=
  "The " ++ what ++ " is a Notation 3 construct and is not permitted in " ++ language

namespace Turtle

/-- The name of the language. -/
def language (t : Turtle) : String := if t.hasGraphs then "TriG" else "Turtle"

/-- A directive behind `@`, in any mixture of cases. -/
def directive (t : Turtle) : Scan Token := do
  let word ← directiveWord
  if isWord word "@prefix" then
    emit .prefixDirective
  else if isWord word "@base" then
    if t.hasGraphs && t.dialect == .submission then
      violation "The @base directive is not permitted in the original TriG syntax"
    else
      emit .baseDirective
  else if isWord word "@keywords" || isWord word "@forall" || isWord word "@forsome" then
    violation (belongsToNotation3 (String.ofList word ++ " directive") t.language)
  else
    violation ("Unknown directive " ++ String.ofList word ++ ", expected @prefix or @base")

/-- A language tag after a quoted literal, and otherwise a directive. -/
def tagOrDirective (t : Turtle) (previous : Option Kind) : Scan Token :=
  if previous.any Kind.isQuoted then
    languageTag
  else if previous == some .plainLiteral then
    violation ("Language specifiers are only permitted after quoted literals, not plain literals")
  else
    t.directive

/-- The sign of a datatype, which must follow a quoted literal. -/
def hat (previous : Option Kind) (c : Char) : Scan Token :=
  if previous.any Kind.isQuoted then
    hatHat
  else if previous == some .plainLiteral then
    violation "A data type is only permitted after a quoted literal, not a plain literal"
  else
    unexpectedCharacter c "a data type specifier, which must follow a literal"

/-- The rest of a reference; its bracket has been passed over. -/
def referenceRest : Scan Token := do
  referenceBody
  emit .uri

/-- A reference, unless its bracket begins the operator `<=`. -/
def referenceOrArrow (t : Turtle) : Scan Token := do
  let _ ← skip
  if ← nextIs '=' then
    let _ ← consume
    if (← look).all Unicode.isBlank then
      violation (belongsToNotation3 "<= operator" t.language)
    else
      referenceRest
  else
    referenceRest

/-- The sign `=`, which TriG alone has, or the operator `=>`, which neither
language has. -/
def equals (t : Turtle) : Scan Token := do
  let _ ← consume
  if ← nextIs '>' then
    let _ ← consume
    violation (belongsToNotation3 "=> operator" t.language)
  else if t.hasGraphs then
    emit .equals
  else
    violation (belongsToNotation3 "= operator" t.language)

/-- A brace, which TriG alone has. -/
def brace (t : Turtle) (kind : Kind) (c : Char) : Scan Token :=
  if t.hasGraphs then
    single kind
  else
    unexpectedCharacter c
      "a Turtle token, graph literals are only permitted in TriG and Notation 3"

/-- The token of a bare word. -/
def bareWord (t : Turtle) (word : List Char) : Scan Token :=
  if word == ['a'] then
    emit .keywordA
  else if Number.isTruth word then
    emit .plainLiteral
  else if word == ['i', 's'] || word == ['o', 'f'] then
    violation (belongsToNotation3 ("'" ++ String.ofList word ++ "' keyword") t.language)
  else if t.dialect == .submission then
    invalidForm "QName" (String.ofList word)
  else if isWord word "prefix" then
    emit .prefixDirective
  else if isWord word "base" then
    emit .baseDirective
  else if t.hasGraphs && isWord word "graph" then
    emit (.keyword .graph)
  else
    invalidForm "QName" (String.ofList word)

/-- A prefixed name, a blank node or a bare word. -/
def name (t : Turtle) : Scan Token := do
  gatherName t.dialect.nameRule (t.dialect == .recommendation)
  match ← nameToken? t.dialect.nameRule with
  | some token => return token
  | none => t.bareWord (← get).value

/-- The token that begins with a character. -/
def dispatch (t : Turtle) (previous : Option Kind) (c : Char) : Scan Token :=
  match c with
  | '#' => comment
  | '<' => t.referenceOrArrow
  | '"' | '\'' => literal .refused
  | '@' => t.tagOrDirective previous
  | '^' => hat previous c
  | '.' => dotOrNumber number
  | ',' => single .comma
  | ';' => single .semicolon
  | '(' => single .leftBracket
  | ')' => single .rightBracket
  | '[' => single .leftSquare
  | ']' => single .rightSquare
  | '{' => t.brace .leftCurly c
  | '}' => t.brace .rightCurly c
  | '=' => t.equals
  | '+' | '-' => number
  | '_' | ':' | '\\' => t.name
  | c =>
    if c.isDigit then number
    else if Name.opensName c then t.name
    else unexpectedCharacter c "the start of a Turtle token"

/-- The token behind one of a kind. -/
def read (t : Turtle) (previous : Option Kind) : Scan Token :=
  match previous with
  | some .prefixDirective => prefixName
  | some .hatHat => datatype t.dialect.nameRule
  | _ => do
    discardBlank
    tokenHere (t.dispatch previous)

end Turtle

end TripleLex.Graph

import TripleLex.Number.Scan
import TripleLex.Query.Scope
import TripleLex.Quoted.Annotation
import TripleLex.Quoted.Literal

/-!
# SPARQL

A query or update begins with a prologue of declarations, which its first
keyword ends. In the body the character that begins a token and the kind of the
token before decide what it is. A keyword must be known at the level of the
language and, where scopes matter to it, fit the scope it stands in.
-/

namespace TripleLex.Query

open Scan

/-- What is read from and remembered: the level of the language and the
progress. -/
structure Sparql where
  level : Level
  progress : Progress
  deriving DecidableEq, Repr

namespace Sparql

/-! ## Keywords -/

/-- Fails for a keyword that the level does not know. -/
def checkLevel (q : Sparql) (k : Keyword) : Scan Unit :=
  if k.availableIn q.level then
    pure ()
  else if k.level == .extended then
    violation ("The " ++ k.text ++ " keyword is only available with the extended SPARQL syntax")
  else
    violation ("The " ++ k.text ++ " keyword is only available in SPARQL 1.1 or later")

/-- Fails for a keyword that cannot stand in the present scope. -/
def checkScope (q : Sparql) (k : Keyword) : Scan Unit :=
  match k with
  | .select =>
    if q.level == .sparql10 then
      violation "Sub-queries are not permitted in SPARQL 1.0"
    else pure ()
  | .ask | .construct | .describe =>
    violation (k.text ++ " cannot be used as a sub-query, only SELECT can")
  | .orderBy =>
    if q.progress.nesting.hasOrder then
      violation "Only one ORDER BY clause is permitted per query"
    else pure ()
  | .asc | .desc =>
    if q.progress.nesting.hasOrder then
      pure ()
    else violation (k.text ++ " is only permitted after an ORDER BY clause")
  | _ => pure ()

/-- A keyword of the body. -/
def keyword (q : Sparql) (k : Keyword) : Scan Token := do
  q.checkLevel k
  q.checkScope k
  emit (.keyword k)

/-- The declaration of a base reference, of which there is at most one. -/
def base (q : Sparql) : Scan Token :=
  if q.progress.hasBase then
    violation "Only one BASE declaration is permitted in a query"
  else
    emit .baseDirective

/-- Whether a word is this one, in any mixture of ASCII cases. -/
def isText (word : List Char) (text : String) : Bool := sameWord word text.toList

/-! ## Prologue -/

/-- The token of a word in the prologue. -/
def prologueWord (q : Sparql) (word : List Char) : Scan Token := do
  if isText word "base" then
    q.base
  else if isText word "prefix" then
    emit .prefixDirective
  else
    match Keyword.ofWord? word with
    | some k =>
      if k.opensQuery || k.opensUpdate then
        q.checkLevel k
        emit (.keyword k)
      else
        violation (unexpectedWord word)
    | none => violation (unexpectedWord word)
where
  /-- The wording for a word that the prologue cannot hold. -/
  unexpectedWord (word : List Char) : String :=
    "Unexpected '" ++ String.ofList word ++
      "' in the prologue, expected BASE, PREFIX or a query or update keyword"

/-- The token that begins with a character in the prologue. -/
def prologue (q : Sparql) (previous : Option Kind) (c : Char) : Scan Token := do
  if c == '#' then
    comment
  else if c == '<' then
    if previous == some .baseDirective || previous == some .prefixName then
      reference
    else
      unexpectedCharacter c "the prologue, a URI must follow BASE or a prefix"
  else
    consumeWhile Unicode.isAlphabetic
    let k ← get
    if k.isEmpty then
      unexpectedCharacter c "the prologue, expected BASE, PREFIX or a query or update keyword"
    else
      q.prologueWord k.value

/-! ## Words of the body -/

/-- One more blank character between the words of a keyword; whether there was
one is the state. -/
def spaceTurn (seen : Bool) : Scan (Turn Bool Bool) := do
  match ← look with
  | none => return .done seen
  | some c =>
    if !Unicode.isBlank c then
      return .done seen
    else if Unicode.isLineEnd c then
      consumeLineEnd true false
      return .again true
    else
      let _ ← consume
      return .again true

theorem advances_spaceTurn (seen : Bool) : Advances (spaceTurn seen) := by
  refine keeps_look.bind fun c => ?_
  split
  · exact spends_pure id
  · split
    · exact spends_pure id
    · split
      · exact (takes_consumeLineEnd _).bind fun _ => keeps_pure _
      · exact takes_consume.bind fun _ => keeps_pure _

/-- A keyword of two words, the first of which has been gathered; `seconds` are
the words that may come second, with the keyword that each completes. -/
def twoWords (q : Sparql) (seconds : List (String × Keyword)) : Scan Token := do
  let first := (← get).value
  let spaced ← iterate spaceTurn advances_spaceTurn false
  let start := (← get).value.length
  consumeWhile Unicode.isAlphabetic
  let second := (← get).value.drop start
  match seconds.find? fun entry => isText second entry.1, spaced with
  | some entry, true => q.keyword entry.2
  | _, _ =>
    violation ("Expected " ++ " or ".intercalate (seconds.map Prod.fst) ++ " after " ++
      String.ofList (first.map Char.toUpper))

/-- The token of a bare word. -/
def bareWord (q : Sparql) (word : List Char) : Scan Token :=
  if word == ['a'] then
    emit .keywordA
  else if Number.isTruth word then
    emit .plainLiteral
  else if isText word "base" then
    q.base
  else if isText word "prefix" then
    emit .prefixDirective
  else if isText word "order" then
    q.twoWords [("BY", .orderBy)]
  else if isText word "group" then
    q.twoWords [("BY", .groupBy)]
  else if isText word "not" then
    q.twoWords [("EXISTS", .notExistsPattern), ("IN", .notInList)]
  else
    match Keyword.ofWord? word with
    | some k => q.keyword k
    | none => invalidForm "Keyword or QName" (String.ofList word)

/-- A prefixed name, a blank node or a bare word. -/
def name (q : Sparql) : Scan Token := do
  gatherName q.level.nameRule true
  match ← nameToken? q.level.nameRule with
  | some token => return token
  | none => q.bareWord (← get).value

/-- The operator `:=`, or a name without a prefix. -/
def assignmentOrName (q : Sparql) : Scan Token := do
  let _ ← consume
  if ← nextIs '=' then
    let _ ← consume
    emit .assignment
  else
    q.name

/-! ## Numbers -/

/-- What a number holds so far: a dot, an exponent. -/
structure Gathered where
  dot : Bool
  exponent : Bool
  deriving DecidableEq, Repr

/-- One more character of a number. A sign ends it unless it leads or follows
the exponent's mark, so that `1-2` is a subtraction. -/
def numericTurn (s : Gathered) : Scan (Turn Gathered Unit) := do
  match ← look with
  | none => return .done ()
  | some c =>
    if c.isDigit then
      consumeAnd s
    else if c == '.' then
      if s.dot || s.exponent then return .done () else consumeAnd { s with dot := true }
    else if c == '+' || c == '-' then
      if (← get).admitsSign then consumeAnd s else return .done ()
    else if Number.isExponentMark c then
      if s.exponent then return .done () else consumeAnd { s with exponent := true }
    else
      return .done ()

theorem advances_numericTurn (s : Gathered) : Advances (numericTurn s) := by
  refine keeps_look.bind fun c => ?_
  split
  · exact spends_pure id
  · split
    · exact advances_consumeAnd _
    · split
      · split
        · exact spends_pure id
        · exact advances_consumeAnd _
      · split
        · refine keeps_get.bind fun k => ?_
          split
          · exact advances_consumeAnd _
          · exact spends_pure id
        · split
          · split
            · exact spends_pure id
            · exact advances_consumeAnd _
          · exact spends_pure id

/-- The number that was gathered. A dot at its end stays where the level has
such numbers. -/
def numericToken (q : Sparql) : Scan Token := do
  if q.level.allowsFinalDot then pure () else giveBackDot
  let k ← get
  if Number.isNumber q.level.allowsFinalDot k.value then
    emit .plainLiteral
  else
    invalidForm "Numeric Literal" k.text

/-- A number, or a sign that stands alone. -/
def numberOrSign (q : Sparql) : Scan Token := do
  let dot := (← get).value.contains '.'
  iterate numericTurn advances_numericTurn ⟨dot, false⟩
  let k ← get
  if k.value == ['+'] then
    emit .plus
  else if k.value == ['-'] then
    emit .minus
  else
    q.numericToken

/-! ## Signs -/

/-- A sign of one character, or of two if the second one follows. -/
def oneOrTwo (second : Char) (double single : Kind) : Scan Token := do
  let _ ← consume
  if ← nextIs second then
    let _ ← consume
    emit double
  else
    emit single

/-- The operators `<` and `<=`, which a blank must follow, or a reference. -/
def referenceOrLess : Scan Token := do
  let _ ← skip
  let c ← look
  if c.all Unicode.isBlank then
    emitAs .less "<"
  else if c == some '=' then
    let _ ← skip
    if (← look).all Unicode.isBlank then
      emitAs .lessOrEqual "<="
    else
      violation ("Ambiguous <=, use white space after the less than or equal to operator or" ++
        " escape the = at the start of a URI")
  else
    referenceBody
    emit .uri

/-- The path operator `^`, or after a quoted literal the sign of a datatype. -/
def hat (previous : Option Kind) : Scan Token := do
  let _ ← consume
  if ← nextIs '^' then
    if previous.any Kind.isQuoted then
      let _ ← consume
      emit .hatHat
    else
      violation "A ^^ data type specifier is only permitted after a quoted literal"
  else
    emit .hat

/-- A variable, or a question mark that stands alone. -/
def variableName (sign : Char) : Scan Token := do
  gatherVariable
  if (← get).isEmpty then
    if sign == '?' then
      emitAs .question "?"
    else
      unexpectedCharacter (← nextOrEnd) "a variable name after $"
  else
    variableToken sign

/-- The operator `&&`. -/
def ampersand : Scan Token := do
  let _ ← consume
  if ← nextIs '&' then
    let _ ← consume
    emit .conjunction
  else
    unexpectedCharacter (← nextOrEnd) "the && operator"

/-- What a star is: all columns behind a keyword that a projection follows, and
otherwise a product. -/
def starKind : Option Kind → Kind
  | some (.keyword .select) | some (.keyword .distinct) | some (.keyword .reduced) => .allColumns
  | _ => .multiply

/-! ## Body -/

/-- The token that begins with a character in the body. -/
def body (q : Sparql) (previous : Option Kind) (c : Char) : Scan Token :=
  match c with
  | '#' => comment
  | '<' => referenceOrLess
  | '>' => oneOrTwo '=' .greaterOrEqual .greater
  | '"' | '\'' => literal .kept
  | '^' => hat previous
  | '?' | '$' => variableName c
  | '{' => single .leftCurly
  | '}' => single .rightCurly
  | '(' => single .leftBracket
  | ')' => single .rightBracket
  | '[' => single .leftSquare
  | ']' => single .rightSquare
  | ',' => single .comma
  | ';' => single .semicolon
  | '.' => dotOrNumber q.numberOrSign
  | '*' => single (starKind previous)
  | '/' => single .divide
  | '=' => single .equals
  | '!' => oneOrTwo '=' .notEquals .negation
  | '|' => oneOrTwo '|' .disjunction .alternative
  | '&' => ampersand
  | '+' | '-' => q.numberOrSign
  | ':' => q.assignmentOrName
  | '_' | '\\' => q.name
  | c =>
    if c == '@' && previous.any Kind.isQuoted then languageTag
    else if c.isDigit then q.numberOrSign
    else if Name.opensName c then q.name
    else unexpectedCharacter c "the start of a SPARQL token"

/-- The token behind one of a kind. -/
def read (q : Sparql) (previous : Option Kind) : Scan Token :=
  match previous with
  | some .prefixDirective => prefixName
  | some .hatHat => datatype q.level.nameRule
  | _ => do
    discardBlank
    tokenHere fun c => if q.progress.inBody then q.body previous c else q.prologue previous c

end Sparql

end TripleLex.Query

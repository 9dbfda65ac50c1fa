import TripleLex.Graph.Vocabulary
import TripleLex.Number.Scan
import TripleLex.Quoted.Annotation
import TripleLex.Quoted.Literal

/-!
# Notation 3

Notation 3 adds formulae, the operators `=`, `=>` and `<=`, path operators,
variables and declared keywords to the productions of Turtle. A declaration of
keywords stands on one line and ends in a dot. A declared keyword may also be
written behind an `@`.

Main statements: `isKeyword_iff` says which kind of keyword a word is, and
`mem_of_directiveKind?` which kinds stand behind an `@`.
-/

namespace TripleLex.Graph.Notation3

open Scan

/-- One more character between declared keywords, passed over. -/
def gapTurn (_ : Unit) : Scan (Turn Unit Unit) := do
  match ← look with
  | none => unexpectedEnd "a @keywords directive"
  | some c =>
    if Unicode.isLineEnd c then
      unexpectedLineEnd "a @keywords directive, which must end with a . on the same line"
    else if Unicode.isBlank c || c == ',' then
      let _ ← skip
      return .again ()
    else
      return .done ()

theorem advances_gapTurn (u : Unit) : Advances (gapTurn u) := by
  refine keeps_look.bind fun c => ?_
  split
  · exact spends_unexpectedEnd _
  · split
    · exact spends_unexpectedLineEnd _
    · split
      · exact takes_skip.bind fun _ => keeps_pure _
      · exact spends_pure id

/-- A keyword that is declared, or the dot that ends the declaration. -/
def declaration : Scan Token := do
  iterate gapTurn advances_gapTurn ()
  startToken
  let next ← nextOrEnd
  if next == '.' then
    single .dot
  else
    consumeWhile Name.isInner
    if (← get).isEmpty then
      unexpectedCharacter next "a keyword name in a @keywords directive"
    else
      emit .keywordDefinition

/-- The kind of a directive, or of a keyword behind an `@`; `name` is the word
behind it. -/
def directiveKind? (v : Vocabulary) (name : List Char) : Option Kind :=
  match String.ofList name with
  | "prefix" => some .prefixDirective
  | "base" => some .baseDirective
  | "keywords" => some .keywordDirective
  | "forAll" => some .forAll
  | "forSome" => some .forSome
  | "a" => some .keywordA
  | "is" => some .keywordIs
  | "of" => some .keywordOf
  | _ => if v.declares name then some .customKeyword else none

/-- A directive or a keyword behind an `@`. -/
def directive (v : Vocabulary) : Scan Token := do
  let word ← directiveWord
  match directiveKind? v word.tail with
  | some kind => emit kind
  | none => violation ("Unknown directive or keyword " ++ String.ofList word)

/-- The operator `<=`, or a reference. -/
def referenceOrArrow : Scan Token := do
  let _ ← skip
  if ← nextIs '=' then
    let _ ← consume
    if (← look).all Unicode.isBlank then
      emitAs .impliedBy "<="
    else
      violation ("Ambiguous use of <=, use white space after the implied-by operator or escape" ++
        " the = at the start of a URI")
  else
    referenceBody
    emit .uri

/-- The operators `=` and `=>`. -/
def equals : Scan Token := do
  let _ ← consume
  if ← nextIs '>' then
    let _ ← consume
    emit .implies
  else
    emit .equals

/-- The path operator `^`, or after a quoted literal the sign of a datatype. -/
def hat (previous : Option Kind) : Scan Token := do
  if previous.any Kind.isQuoted then
    hatHat
  else
    let _ ← consume
    if ← nextIs '^' then
      violation "A ^^ data type specifier is only permitted after a quoted literal"
    else
      emit .hat

/-- A variable. -/
def variableName : Scan Token := do
  gatherVariable
  variableToken '?'

/-- The kind of a bare keyword. -/
def keywordKind (word : List Char) : Kind :=
  if word == ['a'] then .keywordA
  else if word == ['i', 's'] then .keywordIs
  else if word == ['o', 'f'] then .keywordOf
  else .customKeyword

/-- The token of a bare word. -/
def bareWord (v : Vocabulary) (word : List Char) : Scan Token :=
  if Number.isTruth word then
    emit .plainLiteral
  else if v.isOn then
    if v.declares word then emit (keywordKind word)
    else emitAs .prefixedName (String.ofList (':' :: word))
  else if keywordKind word == .customKeyword then
    invalidForm "QName" (String.ofList word)
  else
    emit (keywordKind word)

/-- A prefixed name, a blank node or a bare word. -/
def name (v : Vocabulary) : Scan Token := do
  gatherName .recommendation true
  match ← nameToken? .recommendation with
  | some token => return token
  | none => bareWord v (← get).value

/-- The token that begins with a character. -/
def dispatch (v : Vocabulary) (previous : Option Kind) (c : Char) : Scan Token :=
  match c with
  | '#' => comment
  | '<' => referenceOrArrow
  | '"' | '\'' => literal .refused
  | '@' => if previous.any Kind.isQuoted then languageTag else directive v
  | '^' => hat previous
  | '=' => equals
  | '!' => single .exclamation
  | '?' => variableName
  | '.' => dotOrNumber number
  | ',' => single .comma
  | ';' => single .semicolon
  | '(' => single .leftBracket
  | ')' => single .rightBracket
  | '[' => single .leftSquare
  | ']' => single .rightSquare
  | '{' => single .leftCurly
  | '}' => single .rightCurly
  | '+' | '-' => number
  | '_' | ':' | '\\' => name v
  | c =>
    if c.isDigit then number
    else if Name.opensName c then name v
    else unexpectedCharacter c "the start of a Notation 3 token"

/-- The token behind one of a kind. -/
def read (v : Vocabulary) (previous : Option Kind) : Scan Token :=
  if v.isReading then
    declaration
  else
    match previous with
    | some .prefixDirective => prefixName
    | some .hatHat => datatype .recommendation
    | _ => do
      discardBlank
      tokenHere (dispatch v previous)

/-! ## The kinds of keywords -/

/-- Which kind of keyword a word is: three words of the language have kinds of
their own, and all other keywords share one. -/
inductive IsKeyword : List Char → Kind → Prop
  | a : IsKeyword ['a'] .keywordA
  | is : IsKeyword ['i', 's'] .keywordIs
  | of : IsKeyword ['o', 'f'] .keywordOf
  | custom {word : List Char} (other : word ∉ [['a'], ['i', 's'], ['o', 'f']]) :
      IsKeyword word .customKeyword

theorem isKeyword_keywordKind (word : List Char) : IsKeyword word (keywordKind word) := by
  unfold keywordKind
  split
  · rename_i h
    rw [beq_iff_eq.1 h]
    exact .a
  · split
    · rename_i h
      rw [beq_iff_eq.1 h]
      exact .is
    · split
      · rename_i h
        rw [beq_iff_eq.1 h]
        exact .of
      · exact .custom (by simp_all)

theorem isKeyword_iff {word : List Char} {kind : Kind} :
    IsKeyword word kind ↔ keywordKind word = kind := by
  constructor
  · intro h
    cases h with
    | a | is | of => rfl
    | custom other => simp_all [keywordKind]
  · rintro rfl
    exact isKeyword_keywordKind word

/-- The kinds of bare keywords. -/
def wordKinds : List Kind := [.keywordA, .keywordIs, .keywordOf, .customKeyword]

/-- The kinds of directives, and of keywords behind an `@`. -/
def directiveKinds : List Kind :=
  [.prefixDirective, .baseDirective, .keywordDirective, .forAll, .forSome] ++ wordKinds

theorem IsKeyword.kind_mem {word : List Char} {kind : Kind} (h : IsKeyword word kind) :
    kind ∈ wordKinds := by
  cases h <;> decide

theorem keywordKind_mem (word : List Char) : keywordKind word ∈ wordKinds :=
  (isKeyword_keywordKind word).kind_mem

theorem mem_of_directiveKind? {v : Vocabulary} {name : List Char} {kind : Kind}
    (h : directiveKind? v name = some kind) : kind ∈ directiveKinds := by
  unfold directiveKind? at h
  split at h
  case h_9 =>
    split at h
    · cases h
      decide
    · cases h
  all_goals
    cases h
    decide

end TripleLex.Graph.Notation3

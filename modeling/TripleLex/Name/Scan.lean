import TripleLex.Name.Grammar
import TripleLex.Quoted.Escape
import TripleLex.Token.Mark

/-!
# Reading names

A name is gathered first and judged by the grammar afterwards. A dot at its end
is given back, since it mostly ends a statement. Behind the first colon the
recommendation's rule has escapes of its own; before it, and everywhere under
the submission's rule, an escape may only give a code point.
-/

namespace TripleLex.Scan

open Name (Rule)

/-- One more character or escape of a name; the state says whether a colon was
read. -/
def nameTurn (rule : Rule) (allowDot : Bool) (seenColon : Bool) : Scan (Turn Bool Unit) := do
  match ← look with
  | none => return .done ()
  | some c =>
    let inLocal := seenColon && rule == .recommendation
    if (c == '\\' || c == '%') && inLocal then
      readLocalEscape
      return .again seenColon
    else if c == '\\' then
      decodeEscape .name
      return .again seenColon
    else if c == '.' && !allowDot then
      return .done ()
    else if Name.isScanned c then
      let _ ← consume
      return .again (seenColon || c == ':')
    else
      return .done ()

theorem advances_nameTurn (rule : Rule) (allowDot seenColon : Bool) :
    Advances (nameTurn rule allowDot seenColon) := by
  refine keeps_look.bind fun c => ?_
  split
  · exact spends_pure id
  · dsimp only
    split
    · exact takes_readLocalEscape.bind fun _ => keeps_pure _
    · split
      · exact (takes_decodeEscape _).bind fun _ => keeps_pure _
      · split
        · exact spends_pure id
        · split
          · exact takes_consume.bind fun _ => keeps_pure _
          · exact spends_pure id

/-- Whether a text, last character first, ends in a dot that no backslash
protects. -/
def endsInBareDot : List Char → Bool
  | '.' :: '\\' :: _ => false
  | '.' :: _ => true
  | _ => false

/-- Gathers a name: a prefixed name, a blank node, a keyword or a truth
value. -/
def gatherName (rule : Rule) (allowDot : Bool) : Scan Unit := do
  iterate (nameTurn rule allowDot) (advances_nameTurn rule allowDot) false
  if endsInBareDot (← get).written then
    backtrack

/-- The text of a prefixed name that was written so. -/
def nameText (rule : Rule) (word : List Char) : String :=
  match rule with
  | .recommendation => String.ofList (Name.unescape word)
  | .submission => String.ofList word

/-- The token of a gathered name with a colon; a bare word is left to the
caller. -/
def nameToken? (rule : Rule) : Scan (Option Token) := do
  let k ← get
  let word := k.value
  if !word.contains ':' then
    return none
  else if word == ['_', ':'] then
    return some (← emit .anonymousNode)
  else if ['_', ':'].isPrefixOf word then
    if Name.isBlankNode word then
      return some (← emit .blankNode)
    else
      invalidForm "Blank Node ID" k.text
  else if Name.isPrefixedName rule word then
    return some (← emitAs .prefixedName (nameText rule word))
  else
    invalidForm "QName" k.text

/-- One more character of a prefix, or its colon. -/
def prefixTurn (_ : Unit) : Scan (Turn Unit Unit) := do
  match ← look with
  | none => unexpectedEnd "Prefix"
  | some c =>
    if Unicode.isBlank c || c == '<' then
      return .done ()
    else
      let _ ← consume
      if c == ':' then return .done () else return .again ()

theorem advances_prefixTurn (u : Unit) : Advances (prefixTurn u) := by
  refine keeps_look.bind fun c => ?_
  split
  · exact spends_unexpectedEnd _
  · split
    · exact spends_pure id
    · refine takes_consume.bind fun _ => ?_
      split <;> exact keeps_pure _

/-- The prefix that a directive announces, with its colon. -/
def prefixName : Scan Token := do
  discardBlank
  iterate prefixTurn advances_prefixTurn ()
  let k ← get
  if !k.endsWith ':' then
    unexpectedCharacter (← nextOrEnd) "a Prefix, expected the : that ends it"
  else if Name.isPrefix k.value then
    emit .prefixName
  else
    invalidForm "Prefix" k.text

/-- A directive as it is written, from its `@` on. -/
def directiveWord : Scan (List Char) := do
  let _ ← consume
  consumeWhile Unicode.isAlphabetic
  let k ← get
  if k.value.length == 1 then
    unexpectedCharacter (← nextOrEnd) "a directive after @"
  else
    return k.value

/-- Gathers the name of a variable behind its sign. -/
def gatherVariable : Scan Unit := do
  let _ ← skip
  consumeWhile Name.isVariableChar

/-- The token of a gathered variable; the sign is for the message. -/
def variableToken (sign : Char) : Scan Token := do
  let k ← get
  if Name.isVariable k.value then
    emit .queryVariable
  else
    invalidForm "Variable" (String.ofList (sign :: k.value))

end TripleLex.Scan

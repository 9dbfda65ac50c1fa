import TripleLex.Quoted.Escape
import TripleLex.Token.Mark

/-!
# References

A reference stands between angle brackets on one line, without blank characters.
-/

namespace TripleLex.Scan

/-- One more character or escape of a reference, or the bracket that closes
it. -/
def referenceTurn (_ : Unit) : Scan (Turn Unit Unit) := do
  match ← look with
  | none => unexpectedEnd "URI"
  | some c =>
    if c == '>' then
      let _ ← skip
      return .done ()
    else if c == '\\' then
      decodeEscape .reference
      return .again ()
    else if Unicode.isLineEnd c then
      unexpectedLineEnd "URI"
    else if Unicode.isBlank c then
      unexpectedCharacter c "a URI, white space is not permitted"
    else
      let _ ← consume
      return .again ()

theorem takes_referenceTurn (u : Unit) : Takes (referenceTurn u) := by
  refine keeps_look.bind fun c => ?_
  split
  · exact spends_unexpectedEnd _
  · split
    · exact takes_skip.bind fun _ => keeps_pure _
    · split
      · exact (takes_decodeEscape _).bind fun _ => keeps_pure _
      · split
        · exact spends_unexpectedLineEnd _
        · split
          · exact spends_unexpectedCharacter _ _
          · exact takes_consume.bind fun _ => keeps_pure _

theorem advances_referenceTurn (u : Unit) : Advances (referenceTurn u) :=
  (takes_referenceTurn u).spends

/-- The rest of a reference behind its opening bracket, the closing one
included. -/
def referenceBody : Scan Unit := iterate referenceTurn advances_referenceTurn ()

/-- A reference. -/
def reference : Scan Token := do
  let _ ← skip
  referenceBody
  emit .uri

/-- A reference as a datatype; its text has the brackets, which tells it from a
name. -/
def referenceDatatype : Scan Token := do
  let _ ← skip
  referenceBody
  emitAs .datatype ("<" ++ (← get).text ++ ">")

end TripleLex.Scan

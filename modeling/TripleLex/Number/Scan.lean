import TripleLex.Number.Grammar
import TripleLex.Token.Mark

/-!
# Reading numbers

A number is gathered by a few rules on where a dot, a sign or an exponent may
stand, and then judged by the grammar. A dot at its end is given back. A dot may
be gathered before the number is begun.
-/

namespace TripleLex

/-- What a number holds so far. -/
structure NumberSoFar where
  dot : Bool
  /-- A sign since the start or since the exponent. -/
  sign : Bool
  exponent : Bool
  deriving DecidableEq, Repr

/-- Whether the token so far may be followed by a sign. -/
def Cursor.admitsSign (k : Cursor) : Bool := k.isEmpty || k.endsWith 'e' || k.endsWith 'E'

namespace Scan

/-- Takes the next character and goes on. -/
def consumeAnd {σ α : Type} (next : σ) : Scan (Turn σ α) := do
  let _ ← consume
  return .again next

theorem advances_consumeAnd {σ α : Type} (next : σ) :
    Advances (consumeAnd next : Scan (Turn σ α)) :=
  takes_consume.bind fun _ => keeps_pure _

/-- One more character of a number. -/
def numberTurn (s : NumberSoFar) : Scan (Turn NumberSoFar Unit) := do
  match ← look with
  | none => return .done ()
  | some c =>
    if c.isDigit then
      consumeAnd s
    else if c == '.' then
      if s.dot || s.exponent then return .done () else consumeAnd { s with dot := true }
    else if c == '+' || c == '-' then
      if s.sign then
        violation "Unexpected additional sign character in a numeric literal"
      else if !(← get).admitsSign then
        violation ("A sign may only occur at the start of a numeric literal or directly after its" ++
          " exponent")
      else
        consumeAnd { s with sign := true }
    else if Number.isExponentMark c then
      if s.exponent then
        violation "Unexpected additional exponent character in a numeric literal"
      else if (← get).isEmpty then
        violation "The exponent cannot be the first character of a numeric literal"
      else
        consumeAnd { s with sign := false, exponent := true }
    else
      return .done ()

theorem advances_numberTurn (s : NumberSoFar) : Advances (numberTurn s) := by
  refine keeps_look.bind fun c => ?_
  split
  · exact spends_pure id
  · split
    · exact advances_consumeAnd _
    · split
      · split
        · exact spends_pure id
        · exact advances_consumeAnd _
      · split
        · split
          · exact spends_violation _
          · refine keeps_get.bind fun k => ?_
            split
            · exact spends_violation _
            · exact advances_consumeAnd _
        · split
          · split
            · exact spends_violation _
            · refine keeps_get.bind fun k => ?_
              split
              · exact spends_violation _
              · exact advances_consumeAnd _
          · exact spends_pure id

/-- A number. -/
def number : Scan Token := do
  let dot := (← get).value.contains '.'
  iterate numberTurn advances_numberTurn ⟨dot, false, false⟩
  giveBackDot
  let k ← get
  if Number.isPlainLiteral k.value then
    emit .plainLiteral
  else
    invalidForm "Plain Literal" k.text

/-- A dot, or a number that begins with it. -/
def dotOrNumber (readNumber : Scan Token) : Scan Token := do
  let _ ← consume
  match ← look with
  | some c => if c.isDigit then readNumber else emit .dot
  | none => emit .dot

end Scan

end TripleLex

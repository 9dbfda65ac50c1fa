import TripleLex.Quoted.Escape
import TripleLex.Token.Mark

/-!
# Quoted literals

A literal stands between quotation marks or apostrophes. In the short form it
ends on its line; in the long form, between three signs on either side, it may
hold line ends, which are kept as they are written, and its own sign up to twice
in a row.
-/

namespace TripleLex

/-- What becomes of signs that follow the three that close a long literal. -/
inductive Surplus where
  /-- They are a fault. -/
  | refused
  /-- They belong to the literal. -/
  | kept
  deriving DecidableEq, Repr

/-- Where escapes stand that are read between two of these signs. -/
def EscapeContext.between (sign : Char) : EscapeContext :=
  if sign == '"' then .quotation else .apostrophe

namespace Scan

/-- One more character or escape of a short literal, or the sign that closes
it. -/
def shortTurn (sign : Char) (_ : Unit) : Scan (Turn Unit Unit) := do
  match ← look with
  | none => unexpectedEnd "Literal"
  | some c =>
    if c == '\\' then
      decodeEscape (.between sign)
      return .again ()
    else if c == sign then
      let _ ← skip
      return .done ()
    else if Unicode.isLineEnd c then
      unexpectedLineEnd "Literal"
    else
      let _ ← consume
      return .again ()

theorem takes_shortTurn (sign : Char) (u : Unit) : Takes (shortTurn sign u) := by
  refine keeps_look.bind fun c => ?_
  split
  · exact spends_unexpectedEnd _
  · split
    · exact (takes_decodeEscape _).bind fun _ => keeps_pure _
    · split
      · exact takes_skip.bind fun _ => keeps_pure _
      · split
        · exact spends_unexpectedLineEnd _
        · exact takes_consume.bind fun _ => keeps_pure _

theorem advances_shortTurn (sign : Char) (u : Unit) : Advances (shortTurn sign u) :=
  (takes_shortTurn sign u).spends

/-- The rest of a short literal behind its opening sign, the closing one
included. -/
def shortBody (sign : Char) : Scan Unit := iterate (shortTurn sign) (advances_shortTurn sign) ()

/-- Signs that follow the three that close a long literal. -/
def surplusSigns (sign : Char) : Surplus → Scan Unit
  | .refused => do
    if ← nextIs sign then
      violation ("Too many quote characters at the end of a long literal, a quote inside a long" ++
        " literal must be escaped")
    else
      pure ()
  | .kept => consumeWhile (· == sign)

/-- Signs inside a long literal: one or two of them are text, three close it. -/
def longSigns (sign : Char) (surplus : Surplus) : Scan (Turn Unit Unit) := do
  let _ ← skip
  if ← nextIs sign then
    let _ ← skip
    if ← nextIs sign then
      let _ ← skip
      surplusSigns sign surplus
      return .done ()
    else
      append [sign, sign]
      return .again ()
  else
    push sign
    return .again ()

/-- One more piece of a long literal, or the signs that close it. -/
def longTurn (sign : Char) (surplus : Surplus) (_ : Unit) : Scan (Turn Unit Unit) := do
  match ← look with
  | none => unexpectedEnd "Long Literal"
  | some c =>
    if c == '\\' then
      decodeEscape (.between sign)
      return .again ()
    else if c == sign then
      longSigns sign surplus
    else if Unicode.isLineEnd c then
      consumeLineEnd true false
      return .again ()
    else
      let _ ← consume
      return .again ()

theorem keeps_surplusSigns (sign : Char) (surplus : Surplus) :
    Keeps (surplusSigns sign surplus) := by
  cases surplus with
  | refused =>
    refine (keeps_nextIs _).bind fun more => ?_
    split
    · exact spends_violation _
    · exact keeps_pure _
  | kept => exact keeps_consumeWhile _

theorem takes_longSigns (sign : Char) (surplus : Surplus) : Takes (longSigns sign surplus) := by
  refine takes_skip.bind fun _ => (keeps_nextIs _).bind fun more => ?_
  split
  · refine takes_skip.keeps.bind fun _ => (keeps_nextIs _).bind fun more => ?_
    split
    · refine takes_skip.keeps.bind fun _ => (keeps_surplusSigns _ _).bind fun _ => ?_
      exact keeps_pure _
    · exact (keeps_append _).bind fun _ => keeps_pure _
  · exact (keeps_push _).bind fun _ => keeps_pure _

theorem takes_longTurn (sign : Char) (surplus : Surplus) (u : Unit) :
    Takes (longTurn sign surplus u) := by
  refine keeps_look.bind fun c => ?_
  split
  · exact spends_unexpectedEnd _
  · split
    · exact (takes_decodeEscape _).bind fun _ => keeps_pure _
    · split
      · exact takes_longSigns _ _
      · split
        · exact (takes_consumeLineEnd _).bind fun _ => keeps_pure _
        · exact takes_consume.bind fun _ => keeps_pure _

theorem advances_longTurn (sign : Char) (surplus : Surplus) (u : Unit) :
    Advances (longTurn sign surplus u) :=
  (takes_longTurn sign surplus u).spends

/-- The rest of a long literal behind its opening signs, the closing ones
included. -/
def longBody (sign : Char) (surplus : Surplus) : Scan Unit :=
  iterate (longTurn sign surplus) (advances_longTurn sign surplus) ()

/-- A literal of either form. -/
def literal (surplus : Surplus) : Scan Token := do
  let sign ← skip
  if ← nextIs sign then
    let _ ← skip
    if ← nextIs sign then
      let _ ← skip
      longBody sign surplus
      emit .longLiteral
    else
      emit .literal
  else
    shortBody sign
    emit .literal

end Scan

end TripleLex

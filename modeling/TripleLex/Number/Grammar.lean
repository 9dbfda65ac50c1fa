/-!
# The grammar of numbers

A number has an optional sign, digits with an optional fraction, and an optional
exponent. A fraction without digits stands only before an exponent, or at the
end where the caller allows it; in both cases digits must come before its dot.
-/

namespace TripleLex.Number

/-- The word without a leading sign. -/
def unsigned : List Char → List Char
  | '+' :: rest | '-' :: rest => rest
  | word => word

/-- A non-empty run of digits. -/
def isDigits (word : List Char) : Bool := !word.isEmpty && word.all Char.isDigit

/-- The mark of an exponent. -/
def isExponentMark (c : Char) : Bool := c == 'e' || c == 'E'

/-- What follows the digits and the fraction: nothing, or an exponent. -/
def isTail : List Char → Bool
  | [] => true
  | c :: rest => isExponentMark c && isDigits (unsigned rest)

/-- A number without its sign. -/
def isUnsigned (trailingDot : Bool) (word : List Char) : Bool :=
  let whole := word.takeWhile Char.isDigit
  match word.dropWhile Char.isDigit with
  | '.' :: rest =>
    let tail := rest.dropWhile Char.isDigit
    isTail tail &&
      (!(rest.takeWhile Char.isDigit).isEmpty ||
        (!whole.isEmpty && (!tail.isEmpty || trailingDot)))
  | tail => !whole.isEmpty && isTail tail

/-- A number: an integer, a decimal or a double. With `trailingDot`, digits may
also end in a dot. -/
def isNumber (trailingDot : Bool) (word : List Char) : Bool :=
  isUnsigned trailingDot (unsigned word)

/-- A truth value. -/
def isTruth (word : List Char) : Bool :=
  word == ['t', 'r', 'u', 'e'] || word == ['f', 'a', 'l', 's', 'e']

/-- A literal that stands without quotation signs: a truth value or a number. -/
def isPlainLiteral (word : List Char) : Bool := isTruth word || isNumber false word

end TripleLex.Number

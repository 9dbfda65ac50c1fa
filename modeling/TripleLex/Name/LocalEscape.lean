/-!
# Reserved characters in local names

A local name may hold a reserved character behind a backslash. The token keeps
the character and drops the backslash; a percent sign with two hexadecimal
digits stays as it is.
-/

namespace TripleLex.Name

/-- The characters that a backslash may stand before. -/
def reserved : List Char :=
  ['_', '~', '-', '.', '!', '$', '&', '\'', '(', ')', '*', '+', ',', ';', '=', '/', '?', '#', '@',
    '%']

/-- Whether a backslash may stand before the character. -/
def isReserved (c : Char) : Bool := reserved.contains c

/-- Whether the character is a hexadecimal digit. -/
def isHexDigit (c : Char) : Bool :=
  c.isDigit || ('a' ≤ c && c ≤ 'f') || ('A' ≤ c && c ≤ 'F')

/-- Drops each backslash that stands before a reserved character. -/
def unescape : List Char → List Char
  | [] => []
  | c :: rest =>
    match c, rest with
    | '\\', next :: _ => if isReserved next then unescape rest else c :: unescape rest
    | _, _ => c :: unescape rest

theorem unescape_reserved {c : Char} (h : isReserved c = true) (rest : List Char) :
    unescape ('\\' :: c :: rest) = unescape (c :: rest) := by
  simp [unescape, h]

theorem unescape_cons {c : Char} (h : c ≠ '\\') (rest : List Char) :
    unescape (c :: rest) = c :: unescape rest := by
  rw [unescape]
  intro _ _ hc
  exact absurd hc h

end TripleLex.Name

import TripleLex.Unicode.Numeric

/-!
# Classes of characters in names

The productions `PN_CHARS_BASE`, `PN_CHARS_U` and `PN_CHARS` say which
characters a name may hold; all syntaxes share them. A scanner gathers more than
that: any alphanumeric character may come into a name or a language tag while it
is read, and the grammar is asked afterwards.

Main statements: the classes grow in the order `isBase`, `isLead`, `isInner`,
`isScanned` (`isLead_of_isBase`, `isInner_of_isLead`, `isScanned_of_isInner`).
-/

namespace TripleLex.Name

open Unicode (Ranges isAlphabetic isAlphanumeric)

/-- The code points of `PN_CHARS_BASE`. -/
def baseRanges : Ranges :=
  [(0x41, 0x5A), (0x61, 0x7A), (0xC0, 0xD6), (0xD8, 0xF6), (0xF8, 0x2FF), (0x370, 0x37D),
    (0x37F, 0x1FFF), (0x200C, 0x200D), (0x2070, 0x218F), (0x2C00, 0x2FEF), (0x3001, 0xD7FF),
    (0xF900, 0xFDCF), (0xFDF0, 0xFFFD), (0x10000, 0xEFFFF)]

/-- The middle dot, the combining marks and the ties, which may continue a
name. -/
def joiningRanges : Ranges := [(0xB7, 0xB7), (0x300, 0x36F), (0x203F, 0x2040)]

/-- Whether the character is a `PN_CHARS_BASE`. -/
def isBase (c : Char) : Bool := baseRanges.has c

/-- Whether the character is a `PN_CHARS_U`: a base character or the
underscore. -/
def isLead (c : Char) : Bool := isBase c || c == '_'

/-- Whether the character is a `PN_CHARS`. -/
def isInner (c : Char) : Bool := isLead c || c == '-' || c.isDigit || joiningRanges.has c

/-- Whether the character may continue the name of a variable. -/
def isVariableChar (c : Char) : Bool := isLead c || c.isDigit || joiningRanges.has c

/-- Whether the character may begin a bare name: a keyword, a truth value or a
prefixed name. -/
def opensName (c : Char) : Bool := isAlphabetic c || isBase c

/-- Whether a scanner takes the character into a name. -/
def isScanned (c : Char) : Bool :=
  isAlphanumeric c || isInner c || c == ':' || c == '.'

/-- Whether a scanner takes the character into a language tag. -/
def isTagChar (c : Char) : Bool := isAlphanumeric c || c == '-'

theorem isScanned_ascii {c : Char} (h : c.toNat < 0x80) :
    isScanned c = (c.isAlphanum || isInner c || c == ':' || c == '.') := by
  rw [isScanned, Unicode.isAlphanumeric_ascii h]

theorem isTagChar_ascii {c : Char} (h : c.toNat < 0x80) :
    isTagChar c = (c.isAlphanum || c == '-') := by
  rw [isTagChar, Unicode.isAlphanumeric_ascii h]

theorem isLead_of_isBase {c : Char} (h : isBase c = true) : isLead c = true := by
  simp [isLead, h]

theorem isInner_of_isLead {c : Char} (h : isLead c = true) : isInner c = true := by
  simp [isInner, h]

theorem isInner_of_isVariableChar {c : Char} (h : isVariableChar c = true) :
    isInner c = true := by
  simp only [isVariableChar, isInner, Bool.or_eq_true] at *
  rcases h with (h | h) | h <;> simp [h]

theorem isScanned_of_isInner {c : Char} (h : isInner c = true) : isScanned c = true := by
  simp [isScanned, h]

end TripleLex.Name

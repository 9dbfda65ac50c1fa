import TripleLex.Unicode.Ranges

/-!
# Blank characters and line ends

A character is blank if Unicode gives it the property `White_Space`. Two blank
characters end a line: line feed and carriage return. The other vertical spaces
(vertical tab, form feed, next line, the line and paragraph separators) are
blank but end no line.
-/

namespace TripleLex.Unicode

/-- The code points with the property `White_Space`. -/
def blankRanges : Ranges :=
  [(0x9, 0xD), (0x20, 0x20), (0x85, 0x85), (0xA0, 0xA0), (0x1680, 0x1680), (0x2000, 0x200A),
    (0x2028, 0x2029), (0x202F, 0x202F), (0x205F, 0x205F), (0x3000, 0x3000)]

/-- Whether the character is white space. -/
def isBlank (c : Char) : Bool :=
  blankRanges.has c

/-- Whether the character ends a line. -/
def isLineEnd (c : Char) : Bool :=
  c == '\n' || c == '\r'

theorem isBlank_of_isLineEnd {c : Char} (h : isLineEnd c = true) : isBlank c = true := by
  simp only [isLineEnd, Bool.or_eq_true, beq_iff_eq] at h
  rcases h with rfl | rfl <;> decide

end TripleLex.Unicode

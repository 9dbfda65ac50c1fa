/-!
# Dialects of Turtle and TriG

The recommendation of the W3C differs from the submission that came before it:
it takes the words `PREFIX`, `BASE` and `GRAPH` from the query language, and its
names may hold colons and escapes.
-/

namespace TripleLex.Graph

/-- A dialect of Turtle or TriG. -/
inductive Dialect where
  | recommendation
  | submission
  deriving DecidableEq, Repr

namespace Dialect

/-- Every dialect. -/
def all : List Dialect := [recommendation, submission]

/-- The name of a dialect in settings. -/
def tag : Dialect → String
  | recommendation => "w3c"
  | submission => "original"

/-- Reads a dialect's name in settings. -/
def ofTag? : String → Option Dialect
  | "w3c" => some recommendation
  | "original" => some submission
  | _ => none

theorem ofTag?_tag (d : Dialect) : ofTag? d.tag = some d := by cases d <;> rfl

end Dialect

end TripleLex.Graph

/-!
# Language levels of SPARQL

SPARQL 1.1 extends SPARQL 1.0, and the extended level adds keywords in common
use that no recommendation has.
-/

namespace TripleLex.Query

/-- A level of the query language. -/
inductive Level where
  | sparql10
  | sparql11
  | extended
  deriving DecidableEq, Repr

namespace Level

/-- Every level, the lowest first. -/
def all : List Level := [sparql10, sparql11, extended]

/-- The place of a level in the order of levels. -/
def rank : Level → Nat
  | sparql10 => 0
  | sparql11 => 1
  | extended => 2

/-- The name of a level in settings. -/
def tag : Level → String
  | sparql10 => "sparql10"
  | sparql11 => "sparql11"
  | extended => "extended"

/-- Reads a level's name in settings; the two recommendations also go by their
number. -/
def ofTag? : String → Option Level
  | "sparql10" | "1.0" => some sparql10
  | "sparql11" | "1.1" => some sparql11
  | "extended" => some extended
  | _ => none

theorem ofTag?_tag (l : Level) : ofTag? l.tag = some l := by cases l <;> rfl

/-- Whether digits that end in a dot are one number: SPARQL 1.0 alone allows
it. -/
def allowsFinalDot (l : Level) : Bool := l == sparql10

end Level

end TripleLex.Query

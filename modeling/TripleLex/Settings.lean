import TripleLex.Name.Grammar
import TripleLex.Unicode.Blank

/-!
# Formats and settings

The formats that can be read, and the settings that choose one of them together
with the level of the query language and the dialect of Turtle. A format is
looked up by its name or its file extension, whatever its case and with or
without a leading dot.

Main statements: a format is found by its own tag and extension (`ofName?_tag`,
`ofName?_fileExtension`).
-/

namespace TripleLex

/-- A format of text that can be read. -/
inductive Format where
  | turtle
  | triG
  | n3
  | nTriples
  | nQuads
  | sparql
  | csv
  | tsv
  deriving DecidableEq, Repr

namespace Format

/-- Every format. -/
def all : List Format := [turtle, triG, n3, nTriples, nQuads, sparql, csv, tsv]

/-- The name of a format in settings. -/
def tag : Format → String
  | turtle => "turtle"
  | triG => "trig"
  | n3 => "notation3"
  | nTriples => "ntriples"
  | nQuads => "nquads"
  | sparql => "sparql"
  | csv => "csv"
  | tsv => "tsv"

/-- Reads a format's name in settings. -/
def ofTag? (tag : String) : Option Format := all.find? fun f => f.tag == tag

/-- The name of a format for people. -/
def title : Format → String
  | turtle => "Turtle"
  | triG => "TriG"
  | n3 => "Notation 3"
  | nTriples => "NTriples"
  | nQuads => "NQuads"
  | sparql => "SPARQL"
  | csv => "CSV"
  | tsv => "TSV"

/-- The usual extension of files, without the dot. -/
def fileExtension : Format → String
  | turtle => "ttl"
  | triG => "trig"
  | n3 => "n3"
  | nTriples => "nt"
  | nQuads => "nq"
  | sparql => "rq"
  | csv => "csv"
  | tsv => "tsv"

/-- A name as it is looked up: without blanks around it and dots before it, in
lower case. -/
def lookupKey (name : List Char) : List Char :=
  let trimmed := (name.dropWhile Unicode.isBlank).reverse.dropWhile Unicode.isBlank
  (trimmed.reverse.dropWhile (· == '.')).map Char.toLower

/-- The format that a name or an extension stands for. -/
def ofName? (name : String) : Option Format :=
  match String.ofList (lookupKey name.toList) with
  | "turtle" | "ttl" => some turtle
  | "trig" => some triG
  | "n3" | "notation3" => some n3
  | "ntriples" | "n-triples" | "nt" => some nTriples
  | "nquads" | "n-quads" | "nq" => some nQuads
  | "sparql" | "rq" | "ru" => some sparql
  | "csv" => some csv
  | "tsv" => some tsv
  | _ => none

/-- The wording for a name that stands for no format. -/
def unknownName (name : String) : String := "Unknown RDF syntax '" ++ name ++ "'"

theorem ofTag?_tag (f : Format) : ofTag? f.tag = some f := by cases f <;> decide

theorem ofName?_tag (f : Format) : ofName? f.tag = some f := by cases f <;> decide

theorem ofName?_fileExtension (f : Format) : ofName? f.fileExtension = some f := by
  cases f <;> decide

end Format

/-- Which format to read, and how. -/
structure Settings where
  format : Format
  level : Query.Level
  dialect : Graph.Dialect
  deriving DecidableEq, Repr

namespace Settings

/-- The settings where nothing is said. -/
def standard : Settings := ⟨.turtle, .sparql11, .recommendation⟩

/-- The settings where the format alone is said. -/
def ofFormat (f : Format) : Settings := { standard with format := f }

/-- The settings with another level. -/
def withLevel (s : Settings) (l : Query.Level) : Settings := { s with level := l }

/-- The settings with another dialect. -/
def withDialect (s : Settings) (d : Graph.Dialect) : Settings := { s with dialect := d }

end Settings

end TripleLex

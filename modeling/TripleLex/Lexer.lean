import TripleLex.Graph.Lines
import TripleLex.Graph.Notation3
import TripleLex.Graph.Turtle
import TripleLex.Query.Sparql
import TripleLex.Settings
import TripleLex.Table.Tsv

/-!
# Lexers

A lexer reads one token after another from a source, by the rules of a format.
What a format has to remember beside the cursor follows from the tokens that
have been read: a token changes the memory, a fault does not.

The first token is always the one before all text. Reading goes on up to the
token after all text or the first fault (`Lexer.tokens`); a caller may also go
on for as long as it likes (`Lexer.steps`).
-/

namespace TripleLex

open Input (Source Reader)

/-- The rules of a format, with what they have to remember. -/
inductive Machine where
  | lines (format : Graph.LineFormat)
  | turtle (rules : Graph.Turtle)
  | n3 (vocabulary : Graph.Vocabulary)
  | sparql (query : Query.Sparql)
  | csv
  | tsv
  deriving DecidableEq, Repr

namespace Machine

/-- The rules that settings ask for, with nothing to remember yet. -/
def ofSettings (s : Settings) : Machine :=
  match s.format with
  | .turtle => turtle ⟨s.dialect, false⟩
  | .triG => turtle ⟨s.dialect, true⟩
  | .n3 => n3 .empty
  | .nTriples => lines .triples
  | .nQuads => lines .quads
  | .sparql => sparql ⟨s.level, .initial⟩
  | .csv => csv
  | .tsv => tsv

/-- The format whose rules they are. -/
def format : Machine → Format
  | lines .triples => .nTriples
  | lines .quads => .nQuads
  | turtle rules => if rules.hasGraphs then .triG else .turtle
  | n3 _ => .n3
  | sparql _ => .sparql
  | csv => .csv
  | tsv => .tsv

/-- Reads the token behind one of a kind. -/
def read : Machine → Option Kind → Scan Token
  | lines format => format.read
  | turtle rules => rules.read
  | n3 vocabulary => Graph.Notation3.read vocabulary
  | sparql query => query.read
  | csv => fun _ => Table.Csv.read
  | tsv => Table.Tsv.read

/-- Reads the next token, one of the two marks included. -/
def next (m : Machine) : Scan Token := Scan.step m.read

/-- The rules with what they remember after a token. -/
def after : Machine → Token → Machine
  | n3 vocabulary, t => n3 (vocabulary.after t)
  | sparql query, t => sparql { query with progress := query.progress.after t }
  | m, _ => m

theorem format_ofSettings (s : Settings) : (ofSettings s).format = s.format := by
  rcases s with ⟨f, l, d⟩
  cases f <;> rfl

theorem format_after (m : Machine) (t : Token) : (m.after t).format = m.format := by
  cases m <;> rfl

end Machine

/-- A format's rules at a place in a source. -/
structure Lexer where
  machine : Machine
  cursor : Cursor
  deriving DecidableEq, Repr

/-- A token or what stood in its way. -/
abbrev Item := Except Fault Token

namespace Lexer

/-- A lexer at the start of a source. -/
def ofSource (settings : Settings) (source : Source) : Lexer :=
  ⟨.ofSettings settings, .ofSource source⟩

/-- A lexer of a text. -/
def ofText (settings : Settings) (text : String) : Lexer := ofSource settings (.ofText text)

/-- A lexer of the text that a reader delivers. -/
def ofReader (settings : Settings) (reader : Reader) : Lexer := ofSource settings (.ofReader reader)

/-- The format that is read. -/
def format (l : Lexer) : Format := l.machine.format

/-- Reads the next token. -/
def next (l : Lexer) : Item × Lexer :=
  match l.machine.next l.cursor with
  | .ok t k => (.ok t, ⟨l.machine.after t, k⟩)
  | .error fault k => (.error fault, { l with cursor := k })

/-- Whether reading stops after an item: after the token that follows all text,
or a fault. -/
def isLast : Item → Bool
  | .ok t => t.isEnding
  | .error _ => true

/-- Reads this often, whatever comes; each item goes with the lexer that it
leaves. -/
def steps : Nat → Lexer → List (Item × Lexer)
  | 0, _ => []
  | n + 1, l => l.next :: steps n l.next.2

/-- Reads up to the last item, as often at most as the bound has members. -/
def tokensWithin : List Char → Lexer → List Item
  | [], _ => []
  | _ :: bound, l =>
    if isLast l.next.1 then [l.next.1] else l.next.1 :: tokensWithin bound l.next.2

/-- All items up to the last one. Every token but the first and the last takes a
character, so there are at most two more than there are characters. -/
def tokens (l : Lexer) : List Item :=
  tokensWithin (endOfInput :: endOfInput :: l.cursor.ahead) l

/-- All tokens, or the fault that stands in the way of having them. -/
def run (l : Lexer) : Except Fault (List Token) := l.tokens.mapM id

end Lexer

end TripleLex

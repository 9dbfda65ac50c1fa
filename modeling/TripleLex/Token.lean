import TripleLex.Span
import TripleLex.Token.Kind

/-!
# Tokens

A token has a kind, a text and a span. The text is decoded: it carries no
quotation signs, brackets or escapes, unless the kind says otherwise.
-/

namespace TripleLex

/-- A piece of a text, recognised and located. -/
structure Token where
  kind : Kind
  text : String
  span : Span
  deriving DecidableEq, Repr

namespace Token

/-- The token before all text, on line and column zero. -/
def beginning : Token := ⟨.beginning, "", Span.point ⟨0, 0⟩⟩

/-- Whether the token stands after all text. -/
def isEnding (t : Token) : Bool := t.kind == .ending

/-- Whether the token is a comment. -/
def isComment (t : Token) : Bool := t.kind == .comment

/-- The number of characters of the text. -/
def length (t : Token) : Nat := t.text.length

/-- Whether the text is empty. -/
def isEmpty (t : Token) : Bool := t.text.isEmpty

/-- The token in messages: its kind, with the text of a kind that carries
one. -/
def display (t : Token) : String :=
  if t.kind.carriesValue then t.kind.label ++ "(" ++ t.text ++ ")" else t.kind.label

/-- What a token says apart from where it stands. -/
def content (t : Token) : Kind × String := (t.kind, t.text)

end Token

end TripleLex

import TripleLex.Query.Keyword

/-!
# Kinds of tokens

One set of kinds serves all syntaxes. A kind has a tag in serialised tokens and
a label in messages; the kinds that are always spelled alike also have a fixed
text.

Main statement: every kind is listed (`mem_all`).
-/

namespace TripleLex

open Query (Keyword)

/-- What a token is. -/
inductive Kind where
  /-- Stands before all text. -/
  | beginning
  /-- Stands after all text. -/
  | ending
  /-- Ends a record of a table. -/
  | lineEnd
  /-- From `#` to the end of its line. -/
  | comment
  /-- A reference between angle brackets, without them. -/
  | uri
  /-- A name with a colon, such as `ex:name`. -/
  | prefixedName
  /-- The blank node `_:`. -/
  | anonymousNode
  /-- A blank node with a label, such as `_:b0`. -/
  | blankNode
  /-- A quoted literal on one line, or a quoted field, without its quotation
  signs. -/
  | literal
  /-- A literal between triple quotation signs, without them. -/
  | longLiteral
  /-- A number, a truth value or a bare field. -/
  | plainLiteral
  /-- A language tag, without the `@`. -/
  | languageTag
  /-- A datatype: a reference with its angle brackets, or a prefixed name. -/
  | datatype
  /-- A variable, without its sign. -/
  | queryVariable
  /-- Announces a prefix. -/
  | prefixDirective
  /-- The prefix that is announced, with its colon. -/
  | prefixName
  /-- Announces the base reference. -/
  | baseDirective
  /-- Announces keywords. -/
  | keywordDirective
  /-- A keyword that is announced. -/
  | keywordDefinition
  /-- A keyword announced before. -/
  | customKeyword
  /-- Universal quantifier. -/
  | forAll
  /-- Existential quantifier. -/
  | forSome
  /-- The predicate `a`. -/
  | keywordA
  /-- The word `is`. -/
  | keywordIs
  /-- The word `of`. -/
  | keywordOf
  /-- A keyword of the query language. -/
  | keyword (word : Keyword)
  | dot
  | comma
  | semicolon
  | tab
  /-- Introduces a datatype. -/
  | hatHat
  /-- Inverts a path. -/
  | hat
  | exclamation
  | question
  | leftBracket
  | rightBracket
  | leftSquare
  | rightSquare
  | leftCurly
  | rightCurly
  | equals
  | implies
  | impliedBy
  /-- The star of a projection. -/
  | allColumns
  | multiply
  | divide
  | plus
  | minus
  | notEquals
  | negation
  | greater
  | greaterOrEqual
  | less
  | lessOrEqual
  | conjunction
  | disjunction
  /-- Separates alternative paths. -/
  | alternative
  | assignment
  deriving DecidableEq, Repr

namespace Kind

/-- The name in serialised tokens; keywords share one name and add their own
tag. -/
def tag : Kind → String
  | beginning => "BOF"
  | ending => "EOF"
  | lineEnd => "EOL"
  | comment => "COMMENT"
  | uri => "URI"
  | prefixedName => "Q_NAME"
  | anonymousNode => "BLANK_NODE"
  | blankNode => "BLANK_NODE_WITH_ID"
  | literal => "LITERAL"
  | longLiteral => "LONG_LITERAL"
  | plainLiteral => "PLAIN_LITERAL"
  | languageTag => "LANG_SPEC"
  | datatype => "DATA_TYPE"
  | queryVariable => "VARIABLE"
  | prefixDirective => "PREFIX_DIRECTIVE"
  | prefixName => "PREFIX"
  | baseDirective => "BASE_DIRECTIVE"
  | keywordDirective => "KEYWORD_DIRECTIVE"
  | keywordDefinition => "KEYWORD_DEF"
  | customKeyword => "KEYWORD_CUSTOM"
  | forAll => "FOR_ALL"
  | forSome => "FOR_SOME"
  | keywordA => "KEYWORD_A"
  | keywordIs => "KEYWORD_IS"
  | keywordOf => "KEYWORD_OF"
  | keyword _ => "KEYWORD"
  | dot => "DOT"
  | comma => "COMMA"
  | semicolon => "SEMICOLON"
  | tab => "TAB"
  | hatHat => "HAT_HAT"
  | hat => "HAT"
  | exclamation => "EXCLAMATION"
  | question => "QUESTION"
  | leftBracket => "LEFT_BRACKET"
  | rightBracket => "RIGHT_BRACKET"
  | leftSquare => "LEFT_SQUARE_BRACKET"
  | rightSquare => "RIGHT_SQUARE_BRACKET"
  | leftCurly => "LEFT_CURLY_BRACKET"
  | rightCurly => "RIGHT_CURLY_BRACKET"
  | equals => "EQUALS"
  | implies => "IMPLIES"
  | impliedBy => "IMPLIED_BY"
  | allColumns => "ALL"
  | multiply => "MULTIPLY"
  | divide => "DIVIDE"
  | plus => "PLUS"
  | minus => "MINUS"
  | notEquals => "NOT_EQUALS"
  | negation => "NEGATION"
  | greater => "GREATER_THAN"
  | greaterOrEqual => "GREATER_THAN_OR_EQUAL_TO"
  | less => "LESS_THAN"
  | lessOrEqual => "LESS_THAN_OR_EQUAL_TO"
  | conjunction => "AND"
  | disjunction => "OR"
  | alternative => "BITWISE_OR"
  | assignment => "ASSIGNMENT"

/-- The name in messages; a keyword goes by its spelling, its words joined. -/
def label : Kind → String
  | beginning => "BOF"
  | ending => "EOF"
  | lineEnd => "EOL"
  | comment => "COMMENT"
  | uri => "URI"
  | prefixedName => "QNAME"
  | anonymousNode => "BLANKNODE"
  | blankNode => "BLANKNODEWITHID"
  | literal => "LITERAL"
  | longLiteral => "LONGLITERAL"
  | plainLiteral => "PLAINLITERAL"
  | languageTag => "LANGSPEC"
  | datatype => "DATATYPE"
  | queryVariable => "VARIABLE"
  | prefixDirective => "PREFIXDIRECTIVE"
  | prefixName => "PREFIX"
  | baseDirective => "BASEDIRECTIVE"
  | keywordDirective => "KEYWORDDIRECTIVE"
  | keywordDefinition => "KEYWORDDEF"
  | customKeyword => "KEYWORDCUSTOM"
  | forAll => "FORALL"
  | forSome => "FORSOME"
  | keywordA => "KEYWORDA"
  | keywordIs => "KEYWORDIS"
  | keywordOf => "KEYWORDOF"
  | keyword k => k.joined
  | dot => "DOT"
  | comma => "COMMA"
  | semicolon => "SEMICOLON"
  | tab => "TAB"
  | hatHat => "HATHAT"
  | hat => "HAT"
  | exclamation => "EXCLAMATION"
  | question => "QUESTION"
  | leftBracket => "LEFTBRACKET"
  | rightBracket => "RIGHTBRACKET"
  | leftSquare => "LEFTSQBRACKET"
  | rightSquare => "RIGHTSQBRACKET"
  | leftCurly => "LEFTCURLYBRACKET"
  | rightCurly => "RIGHTCURLYBRACKET"
  | equals => "EQUALS"
  | implies => "IMPLIES"
  | impliedBy => "IMPLIEDBY"
  | allColumns => "ALL"
  | multiply => "MULTIPLY"
  | divide => "DIVIDE"
  | plus => "PLUS"
  | minus => "MINUS"
  | notEquals => "NOTEQUALS"
  | negation => "NEGATION"
  | greater => "GREATERTHAN"
  | greaterOrEqual => "GREATERTHANOREQUALTO"
  | less => "LESSTHAN"
  | lessOrEqual => "LESSTHANOREQUALTO"
  | conjunction => "AND"
  | disjunction => "OR"
  | alternative => "BITWISEOR"
  | assignment => "ASSIGNMENT"

/-- The text of the kinds that are always spelled alike; a keyword gives its
upper-case spelling. -/
def fixedText? : Kind → Option String
  | lineEnd => some ""
  | anonymousNode => some "_:"
  | keywordDirective => some "@keywords"
  | forAll => some "@forAll"
  | forSome => some "@forSome"
  | keywordA => some "a"
  | keywordIs => some "is"
  | keywordOf => some "of"
  | keyword k => some k.text
  | dot => some "."
  | comma => some ","
  | semicolon => some ";"
  | tab => some "\t"
  | hatHat => some "^^"
  | hat => some "^"
  | exclamation => some "!"
  | question => some "?"
  | leftBracket => some "("
  | rightBracket => some ")"
  | leftSquare => some "["
  | rightSquare => some "]"
  | leftCurly => some "\x7b"
  | rightCurly => some "\x7d"
  | equals => some "="
  | implies => some "=>"
  | impliedBy => some "<="
  | allColumns => some "*"
  | multiply => some "*"
  | divide => some "/"
  | plus => some "+"
  | minus => some "-"
  | notEquals => some "!="
  | negation => some "!"
  | greater => some ">"
  | greaterOrEqual => some ">="
  | less => some "<"
  | lessOrEqual => some "<="
  | conjunction => some "&&"
  | disjunction => some "||"
  | alternative => some "|"
  | assignment => some ":="
  | _ => none

/-- Whether the text of such a token is a value and not fixed. -/
def carriesValue : Kind → Bool
  | comment | uri | prefixedName | blankNode | literal | longLiteral | plainLiteral
  | languageTag | datatype | queryVariable | prefixName | keywordDefinition | customKeyword => true
  | _ => false

/-- Whether the kind is a quoted literal, which a language tag or a datatype may
follow. -/
def isQuoted : Kind → Bool
  | literal | longLiteral => true
  | _ => false

/-- The kinds that are no keyword of the query language. -/
def plain : List Kind :=
  [beginning, ending, lineEnd, comment, uri, prefixedName, anonymousNode, blankNode, literal,
    longLiteral, plainLiteral, languageTag, datatype, queryVariable, prefixDirective, prefixName,
    baseDirective, keywordDirective, keywordDefinition, customKeyword, forAll, forSome, keywordA,
    keywordIs, keywordOf, dot, comma, semicolon, tab, hatHat, hat, exclamation, question,
    leftBracket, rightBracket, leftSquare, rightSquare, leftCurly, rightCurly, equals, implies,
    impliedBy, allColumns, multiply, divide, plus, minus, notEquals, negation, greater,
    greaterOrEqual, less, lessOrEqual, conjunction, disjunction, alternative, assignment]

/-- Every kind. -/
def all : List Kind := plain ++ Keyword.all.map keyword

theorem mem_all (k : Kind) : k ∈ all := by
  cases k with
  | keyword w => exact List.mem_append_right _ (List.mem_map_of_mem w.mem_all)
  | _ => exact List.mem_append_left _ (by decide)

end Kind

end TripleLex

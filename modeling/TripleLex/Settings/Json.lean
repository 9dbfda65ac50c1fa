import TripleLex.Settings
import TripleLex.Span

/-!
# Settings and spans as JSON

A reader of JSON texts by the grammar of RFC 8259, and the two things that are
read from them. A record is written as an object, whose members come in any
order and at most once each, or as an array of its fields in order. In an
object, members that no field has are passed over. A choice is written as its
name, or as an object whose one member has that name and no value.

A string may write a code point as two surrogates. One that holds a lone
surrogate is well formed and may be passed over, but it has no text.
-/

namespace TripleLex

/-- A JSON value. -/
inductive Json where
  | null
  | bool (value : Bool)
  /-- A number, by its spelling. -/
  | number (spelling : List Char)
  /-- A string, by its text if it has one. -/
  | text (value : Option String)
  | array (items : List Json)
  | object (members : List (Option String × Json))

namespace Json

/-- Whether the character may stand between the parts of a text. -/
def isSpace (c : Char) : Bool := c == ' ' || c == '\n' || c == '\t' || c == '\r'

/-- The text without leading space. -/
def trim (s : List Char) : List Char := s.dropWhile isSpace

/-! ## Strings -/

/-- A piece of a string: a character, or a unit of sixteen bits. -/
inductive Piece where
  | char (c : Char)
  | unit (code : Nat)

/-- The character that a letter behind a backslash stands for. -/
def shortEscape? : Char → Option Char
  | '"' => some '"'
  | '\\' => some '\\'
  | '/' => some '/'
  | 'b' => some '\x08'
  | 'f' => some '\x0c'
  | 'n' => some '\n'
  | 'r' => some '\r'
  | 't' => some '\t'
  | _ => none

/-- The pieces of a string behind its opening mark, and what follows its closing
mark. -/
def pieces? : List Char → Option (List Piece × List Char)
  | [] => none
  | '"' :: rest => some ([], rest)
  | '\\' :: 'u' :: a :: b :: c :: d :: rest =>
    if [a, b, c, d].all Name.isHexDigit then
      (pieces? rest).map fun r => (.unit (hexNumber [a, b, c, d]) :: r.1, r.2)
    else none
  | '\\' :: c :: rest =>
    match shortEscape? c with
    | some e => (pieces? rest).map fun r => (.char e :: r.1, r.2)
    | none => none
  | c :: rest =>
    if c == '\\' || c.toNat < 0x20 then none
    else (pieces? rest).map fun r => (.char c :: r.1, r.2)
where
  /-- The number that hexadecimal digits write. -/
  hexNumber (digits : List Char) : Nat :=
    digits.foldl (fun n c => n * 16 + hexDigit c) 0
  /-- The value of a hexadecimal digit. -/
  hexDigit (c : Char) : Nat :=
    if c.isDigit then c.toNat - '0'.toNat else c.toLower.toNat - 'a'.toNat + 10

/-- Whether the unit is the first half of a pair. -/
def isHigh (u : Nat) : Bool := decide (0xD800 ≤ u) && decide (u < 0xDC00)

/-- Whether the unit is the second half of a pair. -/
def isLow (u : Nat) : Bool := decide (0xDC00 ≤ u) && decide (u < 0xE000)

/-- The text of a string's pieces, unless a surrogate stands alone. -/
def join? : List Piece → Option (List Char)
  | [] => some []
  | .char c :: rest => (join? rest).map (c :: ·)
  | .unit u :: .unit v :: rest =>
    if isHigh u then
      if isLow v then
        (join? rest).map (Char.ofNat (0x10000 + (u - 0xD800) * 0x400 + (v - 0xDC00)) :: ·)
      else none
    else if isLow u then none
    else (join? (.unit v :: rest)).map (Char.ofNat u :: ·)
  | .unit u :: rest =>
    if isHigh u || isLow u then none else (join? rest).map (Char.ofNat u :: ·)

/-- A string behind its opening mark, and what follows it. -/
def text? (s : List Char) : Option (Option String × List Char) :=
  (pieces? s).map fun r => ((join? r.1).map String.ofList, r.2)

/-! ## Numbers -/

/-- Splits digits off, at least one. -/
def digits? (s : List Char) : Option (List Char × List Char) :=
  match s.takeWhile Char.isDigit with
  | [] => none
  | ds => some (ds, s.dropWhile Char.isDigit)

/-- Splits the whole part of a number off; a leading zero stands alone. -/
def whole? : List Char → Option (List Char × List Char)
  | '0' :: rest => if (rest.head?.any Char.isDigit) then none else some (['0'], rest)
  | s => digits? s

/-- Splits a fraction off, if there is one. -/
def fraction? : List Char → Option (List Char × List Char)
  | '.' :: rest => (digits? rest).map fun r => ('.' :: r.1, r.2)
  | s => some ([], s)

/-- Splits the sign of an exponent off. -/
def exponentSign : List Char → List Char × List Char
  | '+' :: rest => (['+'], rest)
  | '-' :: rest => (['-'], rest)
  | s => ([], s)

/-- Splits an exponent off, if there is one. -/
def exponent? : List Char → Option (List Char × List Char)
  | c :: rest =>
    if c == 'e' || c == 'E' then
      let (sign, rest) := exponentSign rest
      (digits? rest).map fun r => (c :: (sign ++ r.1), r.2)
    else some ([], c :: rest)
  | [] => some ([], [])

/-- Splits a number without a sign off. -/
def unsigned? (s : List Char) : Option (List Char × List Char) := do
  let (whole, s) ← whole? s
  let (fraction, s) ← fraction? s
  let (exponent, s) ← exponent? s
  return (whole ++ fraction ++ exponent, s)

/-- Splits a number off. -/
def number? : List Char → Option (List Char × List Char)
  | '-' :: rest => (unsigned? rest).map fun r => ('-' :: r.1, r.2)
  | s => unsigned? s

/-! ## Values -/

/-- Splits a word off. -/
def word? (word s : List Char) : Option (List Char) :=
  if word.isPrefixOf s then some (s.drop word.length) else none

mutual

/-- A value and what follows it. The bound is on how deep and how long the value
is. -/
def value? : Nat → List Char → Option (Json × List Char)
  | 0, _ => none
  | n + 1, s =>
    match trim s with
    | '"' :: rest => (text? rest).map fun r => (text r.1, r.2)
    | '[' :: rest =>
      match trim rest with
      | ']' :: rest => some (array [], rest)
      | rest => (items? n rest).map fun r => (array r.1, r.2)
    | '{' :: rest =>
      match trim rest with
      | '}' :: rest => some (object [], rest)
      | rest => (members? n rest).map fun r => (object r.1, r.2)
    | 'n' :: rest => (word? "ull".toList rest).map fun rest => (null, rest)
    | 't' :: rest => (word? "rue".toList rest).map fun rest => (bool true, rest)
    | 'f' :: rest => (word? "alse".toList rest).map fun rest => (bool false, rest)
    | s => (number? s).map fun r => (number r.1, r.2)

/-- The items of an array, at least one, and what follows its closing
bracket. -/
def items? : Nat → List Char → Option (List Json × List Char)
  | 0, _ => none
  | n + 1, s => do
    let (item, s) ← value? n s
    match trim s with
    | ']' :: rest => return ([item], rest)
    | ',' :: rest =>
      let (items, rest) ← items? n rest
      return (item :: items, rest)
    | _ => none

/-- The members of an object, at least one, and what follows its closing
brace. -/
def members? : Nat → List Char → Option (List (Option String × Json) × List Char)
  | 0, _ => none
  | n + 1, s =>
    match trim s with
    | '"' :: rest => do
      let (key, s) ← text? rest
      match trim s with
      | ':' :: rest =>
        let (item, s) ← value? n rest
        match trim s with
        | '}' :: rest => return ([(key, item)], rest)
        | ',' :: rest =>
          let (members, rest) ← members? n rest
          return ((key, item) :: members, rest)
        | _ => none
      | _ => none
    | _ => none

end

/-- Reads a text that is one value. Each step into a value takes a character, so
the length of the text bounds the steps. -/
def parse? (s : String) : Option Json :=
  match value? (s.toList.length + 1) s.toList with
  | some (v, rest) => if (trim rest).isEmpty then some v else none
  | none => none

/-! ## Records and choices -/

/-- The value of a field: nothing if no member has the name, and a refusal if
several do. -/
def field? (name : String) (members : List (Option String × Json)) : Option (Option Json) :=
  match members.filter fun m => m.1 == some name with
  | [] => some none
  | [m] => some (some m.2)
  | _ => none

/-- The values of named fields, each of which may be missing. -/
def fields? (names : List String) : Json → Option (List (Option Json))
  | object members =>
    if members.all fun m => m.1.isSome then names.mapM fun name => field? name members else none
  | array items =>
    if items.length ≤ names.length then
      some (items.map some ++ List.replicate (names.length - items.length) none)
    else none
  | _ => none

/-- The name that a choice is written by. -/
def choice? : Json → Option String
  | text name => name
  | object [(name, null)] => name
  | _ => none

/-- The natural number that is written, if it fits into sixty-four bits. -/
def natural? : Json → Option Nat
  | number spelling =>
    if spelling.all Char.isDigit then
      let n := spelling.foldl (fun n c => n * 10 + (c.toNat - '0'.toNat)) 0
      if n < UInt64.size then some n else none
    else none
  | _ => none

/-- A choice in a field that may be missing. -/
def choiceOr {α : Type} (ofTag? : String → Option α) (default : α) : Option Json → Option α
  | none => some default
  | some v => v.choice? >>= ofTag?

end Json

/-- Reads settings; what is not said is as in the standard settings. -/
def Settings.ofJson? (json : String) : Option Settings := do
  let v ← Json.parse? json
  match ← v.fields? ["syntax", "sparql_syntax", "turtle_syntax"] with
  | [format, level, dialect] =>
    return ⟨← Json.choiceOr Format.ofTag? standard.format format,
      ← Json.choiceOr Query.Level.ofTag? standard.level level,
      ← Json.choiceOr Graph.Dialect.ofTag? standard.dialect dialect⟩
  | _ => none

/-- Reads a span, of which every field must be there. -/
def Span.ofJson? (json : String) : Option Span := do
  let v ← Json.parse? json
  match ← v.fields? ["start_line", "end_line", "start_column", "end_column"] with
  | [some a, some b, some c, some d] =>
    return ⟨← a.natural?, ← b.natural?, ← c.natural?, ← d.natural?⟩
  | _ => none

end TripleLex

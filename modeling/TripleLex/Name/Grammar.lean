import TripleLex.Graph.Dialect
import TripleLex.Name.Class
import TripleLex.Name.LocalEscape
import TripleLex.Query.Level

/-!
# The grammar of names

Recognisers for prefixed names, prefixes, labels of blank nodes, variables and
language tags. Each reads its word once from the left; the productions that may
hold a dot inside but not at their end carry along whether the last character
was one.

There are two rules for local names. The submission's has a single colon and no
escapes; the recommendation's also takes colons, percent-encoded octets and
reserved characters behind a backslash.

Main statements: a word is a prefixed name exactly if it splits at its first
colon into a prefix and a local name, each of which may be missing
(`isPrefixedName_iff`).
-/

namespace TripleLex.Name

/-- What a local name may hold. -/
inductive Rule where
  /-- Letters, digits, marks and inner dots. -/
  | submission
  /-- Colons and escapes as well. -/
  | recommendation
  deriving DecidableEq, Repr

/-- The name of a rule where the settings are shown. -/
def Rule.tag : Rule → String
  | submission => "Original"
  | recommendation => "W3C"

/-- Letters, digits, marks and dots to the end, which is no dot. -/
def isRun (afterDot : Bool) : List Char → Bool
  | [] => !afterDot
  | c :: rest => (isInner c || c == '.') && isRun (c == '.') rest

/-- `PN_PREFIX`: a base character, then a run. -/
def isPrefixLabel : List Char → Bool
  | [] => false
  | c :: rest => isBase c && isRun false rest

/-- A local name without colons and escapes. -/
def isPlainLocal : List Char → Bool
  | [] => false
  | c :: rest => (isLead c || c.isDigit) && isRun false rest

/-- The rest of a local name that may hold colons and escapes. -/
def isEscapedRun (afterDot : Bool) : List Char → Bool
  | [] => !afterDot
  | '%' :: a :: b :: rest => isHexDigit a && isHexDigit b && isEscapedRun false rest
  | '\\' :: c :: rest => isReserved c && isEscapedRun false rest
  | c :: rest => (isInner c || c == '.' || c == ':') && isEscapedRun (c == '.') rest

/-- A local name that may hold colons and escapes: anything but a dot may begin
it, and of the characters of names only those that may lead. -/
def isEscapedLocal : List Char → Bool
  | [] => false
  | c :: rest =>
    (isLead c || c == ':' || c.isDigit || c == '%' || c == '\\') && isEscapedRun false (c :: rest)

/-- A local name under a rule. -/
def isLocal : Rule → List Char → Bool
  | .submission => isPlainLocal
  | .recommendation => isEscapedLocal

/-- A prefixed name: a prefix or none, a colon, and a local name or none. -/
def isPrefixedName (rule : Rule) (word : List Char) : Bool :=
  let label := word.takeWhile (· != ':')
  match word.dropWhile (· != ':') with
  | _ :: rest => (label.isEmpty || isPrefixLabel label) && (rest.isEmpty || isLocal rule rest)
  | [] => false

/-- A prefix or none, and its colon. -/
def isPrefix (word : List Char) : Bool :=
  let label := word.takeWhile (· != ':')
  match word.dropWhile (· != ':') with
  | [_] => label.isEmpty || isPrefixLabel label
  | _ => false

/-- A blank node: `_:` and its label. -/
def isBlankNode : List Char → Bool
  | '_' :: ':' :: label => isPlainLocal label
  | _ => false

/-- The name of a variable, without its sign. -/
def isVariable : List Char → Bool
  | [] => false
  | c :: rest => (isLead c || c.isDigit) && rest.all isVariableChar

/-- Subtags, each of letters and digits and none empty; `fresh` if the present
one is still so. -/
def isSubtags (fresh : Bool) : List Char → Bool
  | [] => !fresh
  | c :: rest => if c == '-' then !fresh && isSubtags true rest else
      c.isAlphanum && isSubtags false rest

/-- A language tag: a tag of letters, then subtags behind hyphens. -/
def isPrimaryTag (fresh : Bool) : List Char → Bool
  | [] => !fresh
  | c :: rest => if c == '-' then !fresh && isSubtags true rest else
      c.isAlpha && isPrimaryTag false rest

/-- A language tag, without the `@`. -/
def isLanguageTag (word : List Char) : Bool := isPrimaryTag true word

/-- A word that holds a colon, split at the first one. -/
theorem exists_split_colon {word rest : List Char} {x : Char}
    (h : word.dropWhile (· != ':') = x :: rest) :
    word = word.takeWhile (· != ':') ++ ':' :: rest := by
  have hx : x = ':' := by
    have := List.head?_dropWhile_not (· != ':') word
    rw [h] at this
    simpa using this
  subst hx
  rw [← h, List.takeWhile_append_dropWhile]

theorem not_mem_takeWhile_colon (word : List Char) : ':' ∉ word.takeWhile (· != ':') := by
  intro h
  have := List.all_takeWhile (p := (· != ':')) (l := word)
  simpa using List.all_eq_true.1 this _ h

theorem takeWhile_colon {label : List Char} (h : ':' ∉ label) (rest : List Char) :
    (label ++ ':' :: rest).takeWhile (· != ':') = label := by
  rw [List.takeWhile_append_of_pos]
  · simp
  · rintro c hc
    simp only [bne_iff_ne, ne_eq]
    rintro rfl
    exact h hc

theorem dropWhile_colon {label : List Char} (h : ':' ∉ label) (rest : List Char) :
    (label ++ ':' :: rest).dropWhile (· != ':') = ':' :: rest := by
  rw [List.dropWhile_append_of_pos]
  · simp
  · rintro c hc
    simp only [bne_iff_ne, ne_eq]
    rintro rfl
    exact h hc

theorem isPrefixedName_iff {rule : Rule} {word : List Char} :
    isPrefixedName rule word = true ↔
      ∃ label rest, word = label ++ ':' :: rest ∧ ':' ∉ label ∧
        (label = [] ∨ isPrefixLabel label = true) ∧ (rest = [] ∨ isLocal rule rest = true) := by
  constructor
  · intro h
    simp only [isPrefixedName] at h
    split at h
    · rename_i rest hd
      simp only [Bool.and_eq_true, Bool.or_eq_true, List.isEmpty_iff] at h
      exact ⟨_, rest, exists_split_colon hd, not_mem_takeWhile_colon word, h.1, h.2⟩
    · cases h
  · rintro ⟨label, rest, rfl, hno, hl, hr⟩
    simp only [isPrefixedName, takeWhile_colon hno, dropWhile_colon hno, Bool.and_eq_true,
      Bool.or_eq_true, List.isEmpty_iff]
    exact ⟨hl, hr⟩

end TripleLex.Name

namespace TripleLex

/-- The rule for names at a level of the query language. -/
def Query.Level.nameRule : Query.Level → Name.Rule
  | .sparql10 => .submission
  | .sparql11 | .extended => .recommendation

/-- The rule for names in a dialect of Turtle or TriG. -/
def Graph.Dialect.nameRule : Graph.Dialect → Name.Rule
  | .submission => .submission
  | .recommendation => .recommendation

end TripleLex

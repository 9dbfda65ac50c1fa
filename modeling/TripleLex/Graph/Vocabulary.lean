import TripleLex.Token

/-!
# Declared keywords

Notation 3 can declare words as keywords. From the first such directive on, a
bare word is a keyword if it was declared and a name in the default namespace if
it was not. What has been declared follows from the tokens that have been read.

Main statements: `mem_words_after` says which words are declared after a token,
`isOn_after` and `isReading_after` what else is known then.
-/

namespace TripleLex.Graph

/-- What is known of declared keywords. -/
structure Vocabulary where
  /-- Whether there was a directive. -/
  isOn : Bool
  /-- Whether one is being read. -/
  isReading : Bool
  /-- The words that were declared, each once, in their order. -/
  words : List String
  deriving DecidableEq, Repr

namespace Vocabulary

/-- Nothing has been declared. -/
def empty : Vocabulary := ⟨false, false, []⟩

/-- Whether the word was declared. -/
def declares (v : Vocabulary) (word : List Char) : Bool := v.words.contains (String.ofList word)

/-- The vocabulary with a word declared. -/
def insert (v : Vocabulary) (word : String) : Vocabulary :=
  if v.words.contains word then v else { v with words := v.words ++ [word] }

/-- The vocabulary after a token. -/
def after (v : Vocabulary) (t : Token) : Vocabulary :=
  match t.kind with
  | .keywordDirective => { v with isOn := true, isReading := true }
  | .keywordDefinition => v.insert t.text
  | .dot => { v with isReading := false }
  | _ => v

/-- The declared words, in the order of their code points. -/
def sorted (v : Vocabulary) : List String := v.words.mergeSort fun a b => decide (a ≤ b)

theorem mem_words_insert {v : Vocabulary} {word other : String} :
    other ∈ (v.insert word).words ↔ other = word ∨ other ∈ v.words := by
  unfold insert
  split
  · rename_i h
    constructor
    · exact Or.inr
    · rintro (rfl | h')
      · simpa using h
      · exact h'
  · simp [or_comm]

theorem mem_words_after {v : Vocabulary} {t : Token} {word : String} :
    word ∈ (v.after t).words ↔
      (t.kind = .keywordDefinition ∧ word = t.text) ∨ word ∈ v.words := by
  unfold after
  split <;> simp_all [mem_words_insert]

@[simp] theorem isOn_insert (v : Vocabulary) (word : String) :
    (v.insert word).isOn = v.isOn := by
  unfold insert
  split <;> rfl

@[simp] theorem isReading_insert (v : Vocabulary) (word : String) :
    (v.insert word).isReading = v.isReading := by
  unfold insert
  split <;> rfl

theorem isOn_after {v : Vocabulary} {t : Token} :
    (v.after t).isOn = true ↔ t.kind = .keywordDirective ∨ v.isOn = true := by
  unfold after
  split <;> simp_all

theorem isReading_after {v : Vocabulary} {t : Token} :
    (v.after t).isReading = true ↔
      t.kind = .keywordDirective ∨ (t.kind ≠ .dot ∧ v.isReading = true) := by
  unfold after
  split <;> simp_all

end Vocabulary

end TripleLex.Graph

import TripleLex.Proofs.Makes
import TripleLex.Proofs.Runs

/-!
# Sound tokens

Every machine makes sound tokens only: their kinds suit the tokens before them
and their texts are derived by the grammar. Two machines fall short of the
second half. Where keywords are declared, Notation 3 writes a colon before a
bare word without judging the name that comes of it; and a bare field of a table
in comma-separated values is a plain literal whatever it holds. Their tokens
still follow one another as they should.

A declaration of keywords goes on for as long as the token before is one of its
own, so no prefix and no datatype is due while one is read.

## Main results

* `Machine.sound_read`, `Machine.follows_read` — the tokens of all machines.
* `Lexer.payloads_derived` — the texts of the tokens of any sequence of calls.
-/

namespace TripleLex

open Scan
open Token (Sound)

variable {g : Grammar} {previous : Option Kind} {k : Cursor}

/-! ## N-Triples and N-Quads -/

namespace Graph.LineFormat

variable {format : LineFormat}

theorem sound_blankNode (ho : Kind.Open previous) :
    Makes (Sound g previous) k format.blankNode := by
  refine makes_bind fun _ _ => makes_bind fun _ _ => makes_bind fun found _ => ?_
  split
  · exact makes_unexpectedNext _
  · refine makes_bind fun _ _ => makes_bind fun _ _ => makes_bind fun _ k₁ => makes_get ?_
    split
    · rename_i hnode
      rw [← k₁.toList_text] at hnode
      exact makes_emit (.of_ordinary ho rfl hnode)
    · exact makes_invalidForm _ _

theorem sound_literal (ho : Kind.Open previous) :
    Makes (Sound g previous) k literal := by
  refine makes_bind fun _ _ => makes_bind fun second _ => ?_
  split
  · refine makes_bind fun _ _ => makes_bind fun third _ => ?_
    split
    · exact makes_violation _
    · exact sound_emit ho rfl rfl
  · exact makes_bind fun _ _ => sound_emit ho rfl rfl

theorem sound_dispatch {c : Char} (ho : Kind.Open previous) :
    Makes (Sound g previous) k (format.dispatch previous c) := by
  unfold dispatch
  split
  · exact sound_comment ho
  · exact makes_bind fun _ _ => sound_reference ho
  · exact sound_blankNode ho
  · exact sound_literal ho
  · exact sound_single ho rfl rfl
  · split
    · rename_i hat
      simp only [Bool.and_eq_true, beq_iff_eq] at hat
      exact sound_languageTag (by rw [hat.2]; rfl)
    · split
      · rename_i hhat
        simp only [Bool.and_eq_true, beq_iff_eq] at hhat
        exact sound_hatHat (by rw [hhat.2]; rfl)
      · exact makes_unexpectedCharacter _ _

theorem sound_datatype : Makes (Sound g (some .hatHat)) k datatype := by
  refine makes_bind fun _ _ => makes_bind fun c _ => ?_
  split
  · exact makes_unexpectedEnd _
  · split
    · exact sound_referenceDatatype
    · exact makes_unexpectedCharacter _ _

theorem sound_read (ha : previous ≠ some .prefixDirective) :
    Makes (Sound g previous) k (format.read previous) := by
  unfold read
  split
  · exact sound_datatype
  · rename_i hu
    have ho : Kind.Open previous := ⟨hu, ha⟩
    exact makes_bind fun _ _ => sound_tokenHere ho fun _ _ => sound_dispatch ho

end Graph.LineFormat

/-! ## Turtle and TriG -/

namespace Graph.Turtle

variable {t : Turtle}

/-- The grammar of a dialect. -/
def grammar (t : Turtle) : Grammar := ⟨t.dialect.nameRule, false, true⟩

/-- The tokens of Turtle and TriG. -/
abbrev Fine (t : Turtle) (previous : Option Kind) : Token → Prop := Sound t.grammar previous

theorem sound_directive (ho : Kind.Open previous) :
    Makes (t.Fine previous) k t.directive := by
  refine makes_bind fun word _ => ?_
  split
  · exact sound_prefixDirective ho rfl
  · split
    · split
      · exact makes_violation _
      · exact sound_emit ho rfl rfl
    · split
      · exact makes_violation _
      · exact makes_violation _

theorem sound_tagOrDirective (ho : Kind.Open previous) :
    Makes (t.Fine previous) k (t.tagOrDirective previous) := by
  unfold tagOrDirective
  split
  · exact sound_languageTag ‹_›
  · split
    · exact makes_violation _
    · exact sound_directive ho

theorem sound_hat {c : Char} : Makes (t.Fine previous) k (hat previous c) := by
  unfold hat
  split
  · exact sound_hatHat ‹_›
  · split
    · exact makes_violation _
    · exact makes_unexpectedCharacter _ _

theorem sound_referenceRest (ho : Kind.Open previous) :
    Makes (t.Fine previous) k referenceRest :=
  makes_bind fun _ _ => sound_emit ho rfl rfl

theorem sound_referenceOrArrow (ho : Kind.Open previous) :
    Makes (t.Fine previous) k t.referenceOrArrow := by
  refine makes_bind fun _ _ => makes_bind fun found _ => ?_
  split
  · refine makes_bind fun _ _ => makes_bind fun c _ => ?_
    split
    · exact makes_violation _
    · exact sound_referenceRest ho
  · exact sound_referenceRest ho

theorem sound_equals (ho : Kind.Open previous) :
    Makes (t.Fine previous) k t.equals := by
  refine makes_bind fun _ _ => makes_bind fun found _ => ?_
  split
  · exact makes_bind fun _ _ => makes_violation _
  · split
    · exact sound_emit ho rfl rfl
    · exact makes_violation _

theorem sound_brace {kind : Kind} {c : Char} (ho : Kind.Open previous)
    (hk : kind.isOrdinary = true) (hw : kind.isUnjudged = true) :
    Makes (t.Fine previous) k (t.brace kind c) := by
  unfold brace
  split
  · exact sound_single ho hk hw
  · exact makes_unexpectedCharacter _ _

theorem sound_bareWord (ho : Kind.Open previous) :
    Makes (t.Fine previous) k (t.bareWord k.value) := by
  unfold bareWord
  split
  · exact sound_emit ho rfl rfl
  · split
    · rename_i htruth
      exact sound_plainLiteral ho (Or.inl htruth)
    · split
      · exact makes_violation _
      · split
        · exact makes_invalidForm _ _
        · split
          · exact sound_prefixDirective ho rfl
          · split
            · exact sound_emit ho rfl rfl
            · split
              · exact sound_emit ho rfl rfl
              · exact makes_invalidForm _ _

theorem sound_name (ho : Kind.Open previous) : Makes (t.Fine previous) k t.name :=
  makes_bind fun _ _ => sound_nameOr ho fun _ => makes_get (sound_bareWord ho)

theorem sound_dispatch {c : Char} (ho : Kind.Open previous) :
    Makes (t.Fine previous) k (t.dispatch previous c) := by
  unfold dispatch
  split
  · exact sound_comment ho
  · exact sound_referenceOrArrow ho
  · exact Scan.sound_literal ho
  · exact Scan.sound_literal ho
  · exact sound_tagOrDirective ho
  · exact sound_hat
  · exact sound_dotOrNumber ho fun _ => sound_number ho rfl
  · exact sound_single ho rfl rfl
  · exact sound_single ho rfl rfl
  · exact sound_single ho rfl rfl
  · exact sound_single ho rfl rfl
  · exact sound_single ho rfl rfl
  · exact sound_single ho rfl rfl
  · exact sound_brace ho rfl rfl
  · exact sound_brace ho rfl rfl
  · exact sound_equals ho
  · exact sound_number ho rfl
  · exact sound_number ho rfl
  · exact sound_name ho
  · exact sound_name ho
  · exact sound_name ho
  · split
    · exact sound_number ho rfl
    · split
      · exact sound_name ho
      · exact makes_unexpectedCharacter _ _

theorem sound_read : Makes (t.Fine previous) k (t.read previous) := by
  unfold read
  split
  · exact sound_prefixName
  · exact Scan.sound_datatype
  · rename_i ha hu
    have ho : Kind.Open previous := ⟨hu, ha⟩
    exact makes_bind fun _ _ => sound_tokenHere ho fun _ _ => sound_dispatch ho

end Graph.Turtle

/-! ## Notation 3 -/

namespace Graph.Notation3

variable {v : Vocabulary}

/-- The grammar of the names and numbers that Notation 3 shares with Turtle. -/
def grammar : Grammar := ⟨.recommendation, false, true⟩

/-- The kind of the token suits the one before. -/
abbrev Suits (previous : Option Kind) (t : Token) : Prop := Kind.Follows previous t.kind

theorem follows_emit {kind : Kind} (ho : Kind.Open previous) (hk : kind.isUnattached = true) :
    Makes (Suits previous) k (emit kind) :=
  makes_emit (.of_unattached ho hk)

theorem follows_single {kind : Kind} (ho : Kind.Open previous)
    (hk : kind.isUnattached = true) : Makes (Suits previous) k (single kind) :=
  makes_bind fun _ _ => follows_emit ho hk

/-- The readers that languages share make tokens that suit the one before. -/
theorem follows_of_sound {m : Scan Token} (h : Makes (Sound grammar previous) k m) :
    Makes (Suits previous) k m :=
  h.mono fun _ ht => ht.follows

/-- A declaration is made of words and the dot that ends it. -/
theorem makes_declaration :
    Makes (fun t => t.kind = .dot ∨ t.kind = .keywordDefinition) k declaration := by
  refine makes_bind fun _ _ => makes_bind fun _ _ => makes_bind fun next _ => ?_
  split
  · exact makes_bind fun _ _ => makes_emit (Or.inl rfl)
  · refine makes_bind fun _ _ => makes_get ?_
    split
    · exact makes_unexpectedCharacter _ _
    · exact makes_emit (Or.inr rfl)

theorem follows_declaration (ho : Kind.Open previous) :
    Makes (Suits previous) k declaration :=
  makes_declaration.mono fun _ ht =>
    .of_unattached ho (by rcases ht with ht | ht <;> rw [ht] <;> rfl)

theorem isUnattached_of_directiveKind? {name : List Char} {kind : Kind}
    (h : directiveKind? v name = some kind) : kind.isUnattached = true :=
  (by decide : ∀ kind ∈ directiveKinds, kind.isUnattached = true) kind (mem_of_directiveKind? h)

theorem isUnattached_keywordKind (word : List Char) :
    (keywordKind word).isUnattached = true :=
  (by decide : ∀ kind ∈ wordKinds, kind.isUnattached = true) _ (keywordKind_mem word)

theorem follows_directive (ho : Kind.Open previous) :
    Makes (Suits previous) k (directive v) := by
  refine makes_bind fun word _ => ?_
  split
  · rename_i hkind
    exact follows_emit ho (isUnattached_of_directiveKind? hkind)
  · exact makes_violation _

theorem follows_referenceOrArrow (ho : Kind.Open previous) :
    Makes (Suits previous) k referenceOrArrow := by
  refine makes_bind fun _ _ => makes_bind fun found _ => ?_
  split
  · refine makes_bind fun _ _ => makes_bind fun c _ => ?_
    split
    · exact makes_emitAs (.of_unattached ho rfl)
    · exact makes_violation _
  · exact makes_bind fun _ _ => follows_emit ho rfl

theorem follows_equals (ho : Kind.Open previous) : Makes (Suits previous) k equals := by
  refine makes_bind fun _ _ => makes_bind fun found _ => ?_
  split
  · exact makes_bind fun _ _ => follows_emit ho rfl
  · exact follows_emit ho rfl

theorem follows_hat (ho : Kind.Open previous) :
    Makes (Suits previous) k (hat previous) := by
  unfold hat
  split
  · exact follows_of_sound (sound_hatHat ‹_›)
  · refine makes_bind fun _ _ => makes_bind fun found _ => ?_
    split
    · exact makes_violation _
    · exact follows_emit ho rfl

theorem follows_bareWord {word : List Char} (ho : Kind.Open previous) :
    Makes (Suits previous) k (bareWord v word) := by
  unfold bareWord
  split
  · exact follows_emit ho rfl
  · split
    · split
      · exact follows_emit ho (isUnattached_keywordKind _)
      · exact makes_emitAs (.of_unattached ho rfl)
    · split
      · exact makes_invalidForm _ _
      · exact follows_emit ho (isUnattached_keywordKind _)

theorem follows_name (ho : Kind.Open previous) : Makes (Suits previous) k (name v) := by
  refine makes_bind fun _ _ => ?_
  have hname : ∀ {k}, Makes (fun o => ∀ t, o = some t → NameToken grammar t) k
      (nameToken? .recommendation) := makes_nameToken?
  refine hname.bind fun o _ ht => ?_
  split
  · exact makes_pure (.of_unattached ho (Kind.isOrdinary_iff.1 (ht _ rfl).ordinary).1)
  · exact makes_get (follows_bareWord ho)

theorem follows_dispatch {c : Char} (ho : Kind.Open previous) :
    Makes (Suits previous) k (dispatch v previous c) := by
  unfold dispatch
  split
  · exact follows_of_sound (sound_comment ho)
  · exact follows_referenceOrArrow ho
  · exact follows_of_sound (Scan.sound_literal ho)
  · exact follows_of_sound (Scan.sound_literal ho)
  · split
    · exact follows_of_sound (sound_languageTag ‹_›)
    · exact follows_directive ho
  · exact follows_hat ho
  · exact follows_equals ho
  · exact follows_single ho rfl
  · exact follows_of_sound (makes_bind fun _ _ => sound_variableToken ho)
  · exact follows_of_sound (sound_dotOrNumber ho fun _ => sound_number ho rfl)
  · exact follows_single ho rfl
  · exact follows_single ho rfl
  · exact follows_single ho rfl
  · exact follows_single ho rfl
  · exact follows_single ho rfl
  · exact follows_single ho rfl
  · exact follows_single ho rfl
  · exact follows_single ho rfl
  · exact follows_of_sound (sound_number ho rfl)
  · exact follows_of_sound (sound_number ho rfl)
  · exact follows_name ho
  · exact follows_name ho
  · exact follows_name ho
  · split
    · exact follows_of_sound (sound_number ho rfl)
    · split
      · exact follows_name ho
      · exact makes_unexpectedCharacter _ _

theorem follows_read (hr : v.isReading = true → Kind.Open previous) :
    Makes (Suits previous) k (read v previous) := by
  unfold read
  split
  · rename_i hreading
    exact follows_declaration (hr hreading)
  · split
    · exact follows_of_sound sound_prefixName
    · exact follows_of_sound Scan.sound_datatype
    · rename_i ha hu
      have ho : Kind.Open previous := ⟨hu, ha⟩
      exact makes_bind fun _ _ => makes_tokenHere (fun _ => .of_unattached ho rfl)
        fun _ _ => follows_dispatch ho

end Graph.Notation3

/-! ## SPARQL -/

namespace Query.Sparql

variable {q : Sparql}

/-- The grammar of a level. -/
def grammar (q : Sparql) : Grammar := ⟨q.level.nameRule, q.level.allowsFinalDot, true⟩

/-- The tokens of SPARQL. -/
abbrev Fine (q : Sparql) (previous : Option Kind) : Token → Prop := Sound q.grammar previous

theorem sound_keyword {word : Keyword} (ho : Kind.Open previous) :
    Makes (q.Fine previous) k (q.keyword word) :=
  makes_bind fun _ _ => makes_bind fun _ _ => sound_emit ho rfl rfl

theorem sound_base (ho : Kind.Open previous) : Makes (q.Fine previous) k q.base := by
  unfold base
  split
  · exact makes_violation _
  · exact sound_emit ho rfl rfl

theorem sound_prologueWord {word : List Char} (ho : Kind.Open previous) :
    Makes (q.Fine previous) k (q.prologueWord word) := by
  unfold prologueWord
  split
  · exact sound_base ho
  · split
    · exact sound_prefixDirective ho rfl
    · split
      · split
        · exact makes_bind fun _ _ => sound_emit ho rfl rfl
        · exact makes_violation _
      · exact makes_violation _

theorem sound_prologue {c : Char} (ho : Kind.Open previous) :
    Makes (q.Fine previous) k (q.prologue previous c) := by
  unfold prologue
  split
  · exact sound_comment ho
  · split
    · split
      · exact sound_reference ho
      · exact makes_unexpectedCharacter _ _
    · refine makes_bind fun _ _ => makes_get ?_
      split
      · exact makes_unexpectedCharacter _ _
      · exact sound_prologueWord ho

theorem sound_twoWords {seconds : List (String × Keyword)} (ho : Kind.Open previous) :
    Makes (q.Fine previous) k (q.twoWords seconds) := by
  refine makes_get (makes_bind fun spaced _ => makes_get (makes_bind fun _ _ => makes_get ?_))
  dsimp only
  split
  · exact sound_keyword ho
  · exact makes_violation _

theorem sound_bareWord (ho : Kind.Open previous) :
    Makes (q.Fine previous) k (q.bareWord k.value) := by
  unfold bareWord
  split
  · exact sound_emit ho rfl rfl
  · split
    · rename_i htruth
      exact sound_plainLiteral ho (Or.inl htruth)
    · split
      · exact sound_base ho
      · split
        · exact sound_prefixDirective ho rfl
        · split
          · exact sound_twoWords ho
          · split
            · exact sound_twoWords ho
            · split
              · exact sound_twoWords ho
              · split
                · exact sound_keyword ho
                · exact makes_invalidForm _ _

theorem sound_name (ho : Kind.Open previous) : Makes (q.Fine previous) k q.name :=
  makes_bind fun _ _ => sound_nameOr ho fun _ => makes_get (sound_bareWord ho)

theorem sound_assignmentOrName (ho : Kind.Open previous) :
    Makes (q.Fine previous) k q.assignmentOrName := by
  refine makes_bind fun _ _ => makes_bind fun found _ => ?_
  split
  · exact makes_bind fun _ _ => sound_emit ho rfl rfl
  · exact sound_name ho

theorem sound_numericToken (ho : Kind.Open previous) :
    Makes (q.Fine previous) k q.numericToken := by
  have hjudge : ∀ k, Makes (q.Fine previous) k (do
      let k ← get
      if Number.isNumber q.level.allowsFinalDot k.value then
        emit .plainLiteral
      else
        invalidForm "Numeric Literal" k.text) := by
    intro k
    refine makes_get ?_
    split
    · rename_i hnumber
      exact sound_plainLiteral ho (Or.inr hnumber)
    · exact makes_invalidForm _ _
  unfold numericToken
  split
  · exact hjudge k
  · exact makes_bind fun _ k₁ => hjudge k₁

theorem sound_numberOrSign (ho : Kind.Open previous) :
    Makes (q.Fine previous) k q.numberOrSign := by
  refine makes_get (makes_bind fun _ _ => makes_get ?_)
  split
  · exact sound_emit ho rfl rfl
  · split
    · exact sound_emit ho rfl rfl
    · exact sound_numericToken ho

theorem sound_oneOrTwo {second : Char} {double one : Kind} (ho : Kind.Open previous)
    (hd : double.isOrdinary = true ∧ double.isUnjudged = true)
    (h : one.isOrdinary = true ∧ one.isUnjudged = true) :
    Makes (q.Fine previous) k (oneOrTwo second double one) := by
  refine makes_bind fun _ _ => makes_bind fun found _ => ?_
  split
  · exact makes_bind fun _ _ => sound_emit ho hd.1 hd.2
  · exact sound_emit ho h.1 h.2

theorem sound_referenceOrLess (ho : Kind.Open previous) :
    Makes (q.Fine previous) k referenceOrLess := by
  refine makes_bind fun _ _ => makes_bind fun c _ => ?_
  split
  · exact sound_emitAs ho rfl rfl
  · split
    · refine makes_bind fun _ _ => makes_bind fun d _ => ?_
      split
      · exact sound_emitAs ho rfl rfl
      · exact makes_violation _
    · exact makes_bind fun _ _ => sound_emit ho rfl rfl

theorem sound_hat (ho : Kind.Open previous) : Makes (q.Fine previous) k (hat previous) := by
  refine makes_bind fun _ _ => makes_bind fun found _ => ?_
  split
  · split
    · refine makes_bind fun _ _ => makes_emit ⟨.of_quoted (Or.inr rfl) ‹_›, ?_, nofun⟩
      exact Token.wellFormed_of_unjudged rfl
    · exact makes_violation _
  · exact sound_emit ho rfl rfl

theorem sound_variableName {sign : Char} (ho : Kind.Open previous) :
    Makes (q.Fine previous) k (variableName sign) := by
  refine makes_bind fun _ _ => makes_get ?_
  split
  · split
    · exact sound_emitAs ho rfl rfl
    · exact makes_unexpectedNext _
  · exact sound_variableToken ho

theorem sound_ampersand (ho : Kind.Open previous) :
    Makes (q.Fine previous) k ampersand := by
  refine makes_bind fun _ _ => makes_bind fun found _ => ?_
  split
  · exact makes_bind fun _ _ => sound_emit ho rfl rfl
  · exact makes_unexpectedNext _

/-- A star stands for all columns exactly behind a projection's keyword. -/
theorem starKind_of_projection (h : Kind.IsProjection previous) :
    starKind previous = .allColumns := by
  rcases h with rfl | rfl | rfl <;> rfl

theorem starKind_of_not_projection (h : ¬ Kind.IsProjection previous) :
    starKind previous = .multiply := by
  unfold starKind
  split
  · exact absurd (Or.inl rfl) h
  · exact absurd (Or.inr (Or.inl rfl)) h
  · exact absurd (Or.inr (Or.inr rfl)) h
  · rfl

theorem follows_starKind (ho : Kind.Open previous) :
    Kind.Follows previous (starKind previous) := by
  by_cases hp : Kind.IsProjection previous
  · rw [starKind_of_projection hp]
    exact ⟨by simp, by simpa using ho.untyped, by simpa using ho.unannounced,
      fun _ => hp, nofun⟩
  · rw [starKind_of_not_projection hp]
    exact ⟨by simp, by simpa using ho.untyped, by simpa using ho.unannounced,
      nofun, fun _ => hp⟩

theorem starKind_cases (previous : Option Kind) :
    starKind previous = .allColumns ∨ starKind previous = .multiply := by
  by_cases hp : Kind.IsProjection previous
  · exact Or.inl (starKind_of_projection hp)
  · exact Or.inr (starKind_of_not_projection hp)

theorem sound_star (ho : Kind.Open previous) :
    Makes (q.Fine previous) k (single (starKind previous)) := by
  refine makes_bind fun _ _ => makes_emit ⟨follows_starKind ho, ?_, ?_⟩
  · apply Token.wellFormed_of_unjudged
    rcases starKind_cases previous with h | h <;> rw [h] <;> rfl
  · intro hd
    have hd : starKind previous = .prefixDirective := hd
    rcases starKind_cases previous with h | h <;> rw [h] at hd <;> cases hd

theorem sound_body {c : Char} (ho : Kind.Open previous) :
    Makes (q.Fine previous) k (q.body previous c) := by
  unfold body
  split
  · exact sound_comment ho
  · exact sound_referenceOrLess ho
  · exact sound_oneOrTwo ho ⟨rfl, rfl⟩ ⟨rfl, rfl⟩
  · exact Scan.sound_literal ho
  · exact Scan.sound_literal ho
  · exact sound_hat ho
  · exact sound_variableName ho
  · exact sound_variableName ho
  · exact sound_single ho rfl rfl
  · exact sound_single ho rfl rfl
  · exact sound_single ho rfl rfl
  · exact sound_single ho rfl rfl
  · exact sound_single ho rfl rfl
  · exact sound_single ho rfl rfl
  · exact sound_single ho rfl rfl
  · exact sound_single ho rfl rfl
  · exact sound_dotOrNumber ho fun _ => sound_numberOrSign ho
  · exact sound_star ho
  · exact sound_single ho rfl rfl
  · exact sound_single ho rfl rfl
  · exact sound_oneOrTwo ho ⟨rfl, rfl⟩ ⟨rfl, rfl⟩
  · exact sound_oneOrTwo ho ⟨rfl, rfl⟩ ⟨rfl, rfl⟩
  · exact sound_ampersand ho
  · exact sound_numberOrSign ho
  · exact sound_numberOrSign ho
  · exact sound_assignmentOrName ho
  · exact sound_name ho
  · exact sound_name ho
  · split
    · rename_i hat
      rw [Bool.and_eq_true] at hat
      exact sound_languageTag hat.2
    · split
      · exact sound_numberOrSign ho
      · split
        · exact sound_name ho
        · exact makes_unexpectedCharacter _ _

theorem sound_read : Makes (q.Fine previous) k (q.read previous) := by
  unfold read
  split
  · exact sound_prefixName
  · exact Scan.sound_datatype
  · rename_i ha hu
    have ho : Kind.Open previous := ⟨hu, ha⟩
    refine makes_bind fun _ _ => sound_tokenHere ho fun c _ => ?_
    split
    · exact sound_body ho
    · exact sound_prologue ho

end Query.Sparql

/-! ## Tables -/

namespace Table

/-- The tokens of comma-separated values ask nothing of their neighbours. -/
abbrev Csv.Ordinary (t : Token) : Prop := t.kind.isOrdinary = true

theorem Csv.ordinary_recordEnd : Makes Ordinary k recordEnd :=
  makes_bind fun _ _ => makes_emitBare fun _ => rfl

theorem Csv.ordinary_quotedField : Makes Ordinary k quotedField := by
  refine makes_bind fun _ _ => makes_bind fun _ _ => makes_bind fun c _ => ?_
  split
  · exact makes_emit rfl
  · split
    · exact makes_emit rfl
    · exact makes_unexpectedCharacter _ _

theorem Csv.ordinary_read : Makes Ordinary k Csv.read := by
  refine makes_tokenHere (fun _ => rfl) fun c _ => ?_
  unfold dispatch
  split
  · exact makes_bind fun _ _ => makes_emit rfl
  · split
    · exact ordinary_recordEnd
    · split
      · exact ordinary_quotedField
      · exact makes_bind fun _ _ => makes_emit rfl

namespace Tsv

/-- The grammar of terms, which is that of the recommendation. -/
def grammar : Grammar := ⟨.recommendation, false, false⟩

/-- The tokens of tab-separated values. -/
abbrev Fine (previous : Option Kind) : Token → Prop := Sound grammar previous

theorem sound_literal (ho : Kind.Open previous) : Makes (Fine previous) k literal :=
  makes_bind fun _ _ => makes_bind fun _ _ => sound_emit ho rfl rfl

theorem sound_recordEnd (ho : Kind.Open previous) : Makes (Fine previous) k Csv.recordEnd :=
  makes_bind fun _ _ => makes_emitBare fun _ =>
    .of_ordinary ho rfl (Token.wellFormed_of_unjudged rfl)

theorem sound_name (ho : Kind.Open previous) : Makes (Fine previous) k name := by
  refine makes_bind fun _ _ => sound_nameOr ho fun k₁ => makes_get ?_
  split
  · rename_i htruth
    exact sound_plainLiteral ho (Or.inl htruth)
  · exact makes_invalidForm _ _

theorem sound_dispatch {c : Char} (ho : Kind.Open previous) :
    Makes (Fine previous) k (dispatch previous c) := by
  unfold dispatch
  split
  · exact sound_single ho rfl rfl
  · exact sound_reference ho
  · exact sound_literal ho
  · exact makes_bind fun _ _ => sound_variableToken ho
  · exact sound_number ho rfl
  · exact sound_number ho rfl
  · exact sound_number ho rfl
  · exact sound_name ho
  · exact sound_name ho
  · split
    · exact sound_recordEnd ho
    · split
      · rename_i hat
        simp only [Bool.and_eq_true, beq_iff_eq] at hat
        exact sound_languageTag (by rw [hat.2]; rfl)
      · split
        · rename_i hhat
          simp only [Bool.and_eq_true, beq_iff_eq] at hhat
          exact sound_hatHat (by rw [hhat.2]; rfl)
        · split
          · exact sound_number ho rfl
          · split
            · exact sound_name ho
            · exact makes_unexpectedCharacter _ _

theorem sound_read (ha : previous ≠ some .prefixDirective) :
    Makes (Fine previous) k (read previous) := by
  unfold read
  split
  · exact sound_datatype
  · rename_i hu
    have ho : Kind.Open previous := ⟨hu, ha⟩
    exact makes_bind fun _ _ => sound_tokenHere ho fun _ _ => sound_dispatch ho

end Tsv

end Table

/-! ## All machines -/

namespace Machine

/-- The grammar of the names and numbers of a machine. -/
def grammar : Machine → Grammar
  | lines _ | csv | tsv => Table.Tsv.grammar
  | turtle rules => rules.grammar
  | n3 _ => Graph.Notation3.grammar
  | sparql query => query.grammar

/-- Whether every text is judged that the grammar has something to say of. -/
def judges : Machine → Bool
  | lines _ | turtle _ | sparql _ | tsv => true
  | n3 _ | csv => false

theorem grammar_after (m : Machine) (t : Token) : (m.after t).grammar = m.grammar := by
  cases m <;> rfl

theorem judges_after (m : Machine) (t : Token) : (m.after t).judges = m.judges := by
  cases m <;> rfl

/-- Behind a prefix directive, which their own languages do not have, two
machines read on as at the start. -/
theorem wellFormed_read {m : Machine} (h : m.judges = true) :
    Makes (·.WellFormed m.grammar) k (m.read previous) := by
  cases m with
  | turtle rules => exact Graph.Turtle.sound_read.mono fun _ ht => ht.wellFormed
  | sparql query => exact Query.Sparql.sound_read.mono fun _ ht => ht.wellFormed
  | n3 vocabulary => cases h
  | csv => cases h
  | lines format =>
    by_cases hp : previous = some .prefixDirective
    · rw [hp]
      have hnone : Makes (Sound Table.Tsv.grammar none) k (format.read none) :=
        Graph.LineFormat.sound_read nofun
      exact hnone.mono fun _ ht => ht.wellFormed
    · exact (Graph.LineFormat.sound_read hp).mono fun _ ht => ht.wellFormed
  | tsv =>
    by_cases hp : previous = some .prefixDirective
    · rw [hp]
      have hnone : Makes (Sound Table.Tsv.grammar none) k (Table.Tsv.read none) :=
        Table.Tsv.sound_read nofun
      exact hnone.mono fun _ ht => ht.wellFormed
    · exact (Table.Tsv.sound_read hp).mono fun _ ht => ht.wellFormed

end Machine

/-- The grammar that settings ask for: that of the dialect, of the level, or of
the recommendation. -/
def Settings.grammar (s : Settings) : Grammar :=
  match s.format with
  | .turtle | .triG => ⟨s.dialect.nameRule, false, true⟩
  | .sparql => ⟨s.level.nameRule, s.level.allowsFinalDot, true⟩
  | .n3 => ⟨.recommendation, false, true⟩
  | .nTriples | .nQuads | .csv | .tsv => ⟨.recommendation, false, false⟩

theorem Machine.grammar_ofSettings (s : Settings) : (ofSettings s).grammar = s.grammar := by
  rcases s with ⟨f, l, d⟩
  cases f <;> rfl

theorem Machine.judges_ofSettings {s : Settings} (hn : s.format ≠ .n3) (hc : s.format ≠ .csv) :
    (ofSettings s).judges = true := by
  rcases s with ⟨f, l, d⟩
  cases f
  case n3 => exact absurd rfl hn
  case csv => exact absurd rfl hc
  all_goals rfl

namespace Lexer

open Input (Source)

theorem next_wellFormed {l : Lexer} {t : Token} (h : l.machine.judges = true)
    (e : l.next.1 = .ok t) : t.WellFormed l.machine.grammar := by
  have e : l.next = (.ok t, l.next.2) := Prod.ext e rfl
  rcases step_cases (next_ok e).1 with ⟨-, rfl, -⟩ | ⟨-, rfl, -⟩ | ⟨-, -, e⟩
  · exact Token.wellFormed_of_unjudged rfl
  · exact Token.wellFormed_of_unjudged rfl
  · exact Machine.wellFormed_read h t _ e

/-- Whatever a call yields, the rules stay the same. -/
theorem next_grammar (l : Lexer) : l.next.2.machine.grammar = l.machine.grammar ∧
    l.next.2.machine.judges = l.machine.judges := by
  unfold next
  split
  · exact ⟨l.machine.grammar_after _, l.machine.judges_after _⟩
  · exact ⟨rfl, rfl⟩

theorem steps_wellFormed {n : Nat} {l : Lexer} (h : l.machine.judges = true)
    {step : Item × Lexer} (hs : step ∈ l.steps n) {t : Token} (ht : step.1 = .ok t) :
    t.WellFormed l.machine.grammar := by
  induction n generalizing l with
  | zero => cases hs
  | succ n ih =>
    obtain ⟨hg, hj⟩ := l.next_grammar
    rcases List.mem_cons.1 hs with rfl | hs
    · exact next_wellFormed h ht
    · rw [← hg]
      exact ih (hj.trans h) hs

/-- In every language but Notation 3 and comma-separated values, every call that
yields a token, also one behind a fault, yields a text that the grammar derives
for its kind. -/
theorem payloads_derived (s : Settings) (source : Source) (hn : s.format ≠ .n3)
    (hc : s.format ≠ .csv) (n : Nat) (step : Item × Lexer)
    (hs : step ∈ (ofSource s source).steps n) (t : Token) (ht : step.1 = .ok t) :
    t.WellFormed s.grammar := by
  rw [← Machine.grammar_ofSettings]
  exact steps_wellFormed (Machine.judges_ofSettings hn hc) hs ht

/-- A datatype is written with an escape. -/
theorem payloads_derived_datatype :
    let s : Settings := ⟨.turtle, .sparql11, .recommendation⟩
    let t : Token := ⟨.datatype, "x:a-b", ⟨1, 1, 6, 11⟩⟩
    s.format ≠ .n3 ∧ s.format ≠ .csv ∧
      ∃ step ∈ (ofSource s (.ofText "\"1\"^^x:a\\-b")).steps 4,
        step.1 = .ok t ∧ t.WellFormed s.grammar := by
  intro s t
  have hlast : some t ∈ ((ofSource s (.ofText "\"1\"^^x:a\\-b")).steps 4).map
      fun step => step.1.toOption := by decide +kernel
  obtain ⟨⟨item, l⟩, hs, ht⟩ := List.mem_map.1 hlast
  cases item with
  | error fault => cases ht
  | ok u =>
    cases ht
    exact ⟨nofun, nofun, _, hs, rfl, payloads_derived s _ nofun nofun 4 _ hs t rfl⟩

end Lexer

end TripleLex

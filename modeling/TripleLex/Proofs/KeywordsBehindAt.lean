import TripleLex.Proofs.DeclaredKeywords

/-!
# Keywords behind an `@`

A declaration of Notation 3 gathers the characters that may continue a name, and
so declares words with digits, hyphens and marks in them (`Lexer.declared_inner`).
Behind an `@`, letters alone are gathered. A declared word is therefore read there
exactly if it is made of letters.

## Main results

* `Lexer.declared_inner` — what words can be declared.
* `Graph.Notation3.directive_total` — when a word behind an `@` is read.
* `Lexer.keywords_behind_at` — which declared words are read there.
-/

namespace TripleLex

open Scan

theorem takeWhile_append_eq_iff {p : Char → Bool} {word : List Char} {stop : Char}
    (h : p stop = false) (rest : List Char) :
    (word ++ stop :: rest).takeWhile p = word ↔ ∀ c ∈ word, p c = true := by
  constructor
  · intro hword c hc
    rw [← hword] at hc
    exact List.all_eq_true.1 List.all_takeWhile c hc
  · intro hword
    rw [List.takeWhile_append_of_pos hword,
      List.takeWhile_cons_of_neg (Bool.eq_false_iff.1 h), List.append_nil]

namespace Graph.Notation3

variable {v : Vocabulary} {k : Cursor} {kind : Kind}

/-! ## Declarations -/

/-- A word that a declaration can declare: characters that may continue a name. -/
def IsDeclarable (word : List Char) : Prop := word ≠ [] ∧ ∀ c ∈ word, Name.isInner c = true

theorem declarable_declaration :
    Makes (fun t => t.kind = .keywordDefinition → IsDeclarable t.text.toList) k declaration := by
  intro t left e
  obtain ⟨_, k₁, -, e⟩ := bind_ok e
  obtain ⟨_, k₂, e₂, e⟩ := bind_ok e
  rw [startToken_ok e₂] at e
  obtain ⟨next, k₃, e₃, e⟩ := bind_ok e
  have hb := (nextOrEnd_ok e₃).1.begun (Cursor.begun_fresh k₁)
  split at e
  · intro hk
    have hdot : t.kind = .dot := List.mem_singleton.1 (kinds_single t left e)
    rw [hk] at hdot
    cases hdot
  · obtain ⟨_, k₄, e₄, e⟩ := bind_ok e
    have r₄ := consumeWhile_ok
      (fun c h => not_isLineEnd_of_isScanned (Name.isScanned_of_isInner h)) e₄
    have hvalue := r₄.value hb
    have e := get_bind_ok e
    split at e
    · cases e
    · rename_i hne
      obtain ⟨-, htext, -⟩ := emit_ok e
      intro _
      rw [htext, Cursor.text, String.toList_ofList]
      refine ⟨fun hnil => hne ?_, ?_⟩
      · rw [Cursor.value, List.reverse_eq_nil_iff] at hnil
        rw [Cursor.isEmpty, hnil]
        rfl
      · rw [hvalue]
        exact List.all_eq_true.1 List.all_takeWhile

/-! ## Behind an `@` -/

/-- The words behind an `@` that are the language's own. -/
def ownWords : List String := ["prefix", "base", "keywords", "forAll", "forSome", "a", "is", "of"]

theorem directiveKind?_of_declared {name : List Char} (h : v.declares name = true)
    (hown : String.ofList name ∉ ownWords) : directiveKind? v name = some .customKeyword := by
  unfold directiveKind?
  split
  case h_9 => rw [if_pos h]
  all_goals
    rename_i hname
    rw [hname] at hown
    exact absurd (by decide) hown

theorem directive_total {cs : List Char} (hb : k.Begun) (hk : k.ahead = '@' :: cs)
    (hne : cs.takeWhile Unicode.isAlphabetic ≠ [])
    (hkind : directiveKind? v (cs.takeWhile Unicode.isAlphabetic) = some kind) :
    ∃ t left, directive v k = .ok t left ∧ t.kind = kind ∧
      t.text = String.ofList ('@' :: cs.takeWhile Unicode.isAlphabetic) := by
  obtain ⟨k₁, e₁, r₁, -⟩ := succeeds_consume (k := k) (c := '@') (by rw [hk]; rfl) (by decide)
  obtain ⟨k₂, e₂, r₂, -⟩ := succeeds_consumeWhile (k := k₁) (p := Unicode.isAlphabetic)
    fun c h => not_isLineEnd_of_isAlphabetic h
  have hvalue := (r₁.trans r₂).value hb
  rw [r₁.rest_eq hk, List.singleton_append] at hvalue
  have hlength : (k₂.value.length == 1) = false := by
    rw [hvalue, beq_eq_false_iff_ne, List.length_cons]
    exact fun h => hne (List.length_eq_zero_iff.1 (Nat.succ.inj h))
  have hword : directiveWord k = .ok ('@' :: cs.takeWhile Unicode.isAlphabetic) k₂ := by
    unfold directiveWord
    rw [bind_eq e₁, bind_eq e₂, get_bind, hlength, hvalue]
    rfl
  refine ⟨⟨kind, k₂.text, k₂.span⟩, { k₂ with written := [], previous := some kind }, ?_, rfl, ?_⟩
  · unfold directive
    rw [bind_eq hword, List.tail_cons, hkind]
    rfl
  · show k₂.text = _
    rw [Cursor.text, hvalue]

/-- Where an `@` stands next, a word is read behind it, unless a quoted literal
stands before. -/
theorem read_of_at {gap cs : List Char} (hv : v.isReading = false) (hhat : kind ≠ .hatHat)
    (hdirective : kind ≠ .prefixDirective) (hquoted : kind.isQuoted = false)
    (hgap : ∀ c ∈ gap, Unicode.isBlank c = true) (hk : k.ahead = gap ++ '@' :: cs) :
    ∃ mid : Cursor, mid.Begun ∧ mid.ahead = '@' :: cs ∧ read v (some kind) k = directive v mid := by
  obtain ⟨k₁, e₁, ha, hb, -⟩ := discardBlank_total k
  have hstop : ∀ c, ('@' :: cs).head? = some c → Unicode.isBlank c = false := by
    rintro c ⟨⟩
    decide
  rw [hk, dropWhile_blank hgap hstop] at ha
  refine ⟨k₁.looked, (look_ok (look_eq k₁)).2.begun hb, k₁.ahead_looked.trans ha, ?_⟩
  rw [read_eq hv hhat hdirective, bind_eq e₁, tokenHere, bind_eq (look_eq k₁), ha]
  show (if kind.isQuoted then languageTag else directive v) k₁.looked = _
  rw [hquoted]
  rfl

end Graph.Notation3

namespace Lexer

open Input (Source)
open Graph.Notation3 (ownWords)

theorem declared_inner {s : Settings} (hs : s.format = .n3) {source : Source} {ts : List Token}
    {l : Lexer} (h : Reaches (ofSource s source) ts l) {word : String} (hword : Declared ts word) :
    Graph.Notation3.IsDeclarable word.toList := by
  obtain ⟨t, ht, hk, rfl⟩ := hword
  obtain ⟨before, after, rfl⟩ := List.append_of_mem ht
  obtain ⟨l₁, h₁, h₂⟩ := h.of_append
  obtain ⟨l₂, e, -⟩ := h₂.of_cons
  obtain ⟨v, hm, -⟩ := reaches_learnt hs h₁
  rcases step_cases (next_ok e).1 with ⟨-, rfl, -⟩ | ⟨-, rfl, -⟩ | ⟨-, -, e⟩
  · cases hk
  · cases hk
  · rw [hm] at e
    have hreading : v.isReading = true :=
      (Graph.Notation3.origin_read t _ e).reading_of_definition hk
    have e : Graph.Notation3.read v l₁.cursor.previous l₁.cursor.fresh = .ok t l₂.cursor := e
    unfold Graph.Notation3.read at e
    rw [if_pos hreading] at e
    exact Graph.Notation3.declarable_declaration t _ e hk

/-- The kinds behind which an `@` announces something else. -/
def notBehind : List Kind := [.literal, .longLiteral] ++ otherwiseDue

theorem isQuoted_of_not_behind {kind : Kind} (h : kind ∉ notBehind) : kind.isQuoted = false := by
  unfold Kind.isQuoted
  split
  · exact absurd (by decide) h
  · exact absurd (by decide) h
  · rfl

theorem at_append (word : String) : String.ofList ('@' :: word.toList) = "@" ++ word := by
  have h : "@" ++ String.ofList word.toList = String.ofList (['@'] ++ word.toList) :=
    (String.ofList_append).symm
  rw [String.ofList_toList] at h
  exact h.symm

/-- A declared word that stands behind an `@`, and before a space, is read as a
keyword exactly if it is made of letters. -/
theorem keywords_behind_at (s : Settings) (hs : s.format = .n3) (source : Source)
    (ts : List Token) (l : Lexer) (h : Reaches (ofSource s source) ts l) (word : String)
    (hword : Declared ts word) (hown : word ∉ ownWords)
    (hlast : ∀ kind ∈ notBehind, lastKind ts ≠ some kind) (gap rest : List Char)
    (hgap : ∀ c ∈ gap, Unicode.isBlank c = true)
    (hahead : l.cursor.ahead = gap ++ '@' :: (word.toList ++ ' ' :: rest)) :
    (∃ t l', l.next = (.ok t, l') ∧ t.kind = .customKeyword ∧ t.text = "@" ++ word) ↔
      ∀ c ∈ word.toList, Unicode.isAlphabetic c = true := by
  obtain ⟨hr, -⟩ := reaches_remembers h
  obtain ⟨v, hm, hv⟩ := reaches_learnt hs h
  obtain ⟨kind, hkind⟩ : ∃ kind, lastKind ts = some kind := by
    obtain ⟨t, ht, -⟩ := hword
    rw [lastKind, List.getLast?_eq_some_getLast (List.ne_nil_of_mem ht)]
    exact ⟨_, rfl⟩
  have hnot : kind ∉ notBehind := fun hmem => hlast kind hmem hkind
  have hdue : kind ∉ otherwiseDue := fun hmem => hnot (List.mem_append_right _ hmem)
  have hprevious := hr.previous.trans hkind
  have hending : kind ≠ .ending := by
    rintro rfl
    have hnil := hr.ended hprevious
    rw [hahead] at hnil
    simp at hnil
  obtain ⟨hhat, hdirective⟩ := ne_of_not_due hdue
  obtain ⟨mid, hb, hmid, hread⟩ := Graph.Notation3.read_of_at (k := l.cursor.fresh)
    (hv.not_reading hkind hdue) hhat hdirective (isQuoted_of_not_behind hnot) hgap hahead
  have hspace : Unicode.isAlphabetic ' ' = false := Unicode.isAlphabetic_ascii (by decide)
  -- both sides say that the letters behind the sign are the whole word
  rw [← takeWhile_append_eq_iff hspace rest]
  constructor
  · rintro ⟨t, l', e, -, htext⟩
    have e := read_of_next e hprevious hending
    rw [hm] at e
    obtain ⟨-, htext'⟩ := Graph.Notation3.directive_ok hb hmid (hread.symm.trans e)
    rw [htext', ← at_append] at htext
    exact (List.cons.inj (String.ofList_injective htext)).2
  · intro htake
    have hdeclares : v.declares word.toList = true :=
      hv.declares.2 (by rwa [String.ofList_toList])
    have hkind' : Graph.Notation3.directiveKind? v word.toList = some .customKeyword :=
      Graph.Notation3.directiveKind?_of_declared hdeclares (by rwa [String.ofList_toList])
    rw [← htake] at hkind'
    obtain ⟨t, left, e, hk, htext⟩ := Graph.Notation3.directive_total hb hmid
      (by rw [htake]; exact (declared_inner hs h hword).1) hkind'
    have hnext : l.machine.read (some kind) l.cursor.fresh = .ok t left := by
      rw [hm]
      exact hread.trans e
    refine ⟨t, _, next_of_read hprevious hending hnext, hk, ?_⟩
    rw [htext, htake, at_append]

/-- Letters beyond ASCII count as well. -/
theorem keywords_behind_at_letters :
    let declaration : List Token := [.beginning, ⟨.keywordDirective, "@keywords", ⟨1, 1, 1, 9⟩⟩,
      ⟨.keywordDefinition, "größer", ⟨1, 1, 11, 16⟩⟩, ⟨.dot, ".", ⟨1, 1, 17, 17⟩⟩]
    ∃ l t l', Reaches (ofSource (.ofFormat .n3) (.ofText "@keywords größer. @größer x"))
        declaration l ∧ Declared declaration "größer" ∧ "größer" ∉ ownWords ∧
      (∀ kind ∈ notBehind, lastKind declaration ≠ some kind) ∧
      l.cursor.ahead = [' '] ++ '@' :: ("größer".toList ++ ' ' :: ['x']) ∧
      l.next = (.ok t, l') ∧ t.kind = .customKeyword ∧ t.text = "@größer" := by
  intro declaration
  let l := afterCalls 4 (ofSource (.ofFormat .n3) (.ofText "@keywords größer. @größer x"))
  have h : Reaches _ declaration l := reaches_afterCalls (by decide +kernel)
  have hword : Declared declaration "größer" := by decide
  have hahead : l.cursor.ahead = [' '] ++ '@' :: ("größer".toList ++ ' ' :: ['x']) := by
    decide +kernel
  have hletters : "größer".toList.all Unicode.isAlphabetic = true := by decide +kernel
  have hgap : ∀ c ∈ [' '], Unicode.isBlank c = true := List.forall_mem_singleton.2 (by decide)
  obtain ⟨t, l', e, hk, htext⟩ := (keywords_behind_at (.ofFormat .n3) rfl _ _ l h "größer" hword
    (by decide) (by decide) [' '] ['x'] hgap hahead).2 (List.all_eq_true.1 hletters)
  exact ⟨l, t, l', h, hword, by decide, by decide, hahead, e, hk, htext.trans (by decide)⟩

/-- A word with a digit in it is declared, but behind an `@` it is not read. -/
theorem keywords_behind_at_digit :
    let declaration : List Token := [.beginning, ⟨.keywordDirective, "@keywords", ⟨1, 1, 1, 9⟩⟩,
      ⟨.keywordDefinition, "v2", ⟨1, 1, 11, 12⟩⟩, ⟨.dot, ".", ⟨1, 1, 13, 13⟩⟩]
    ∃ l, Reaches (ofSource (.ofFormat .n3) (.ofText "@keywords v2. @v2 ")) declaration l ∧
      Declared declaration "v2" ∧ "v2" ∉ ownWords ∧
      (∀ kind ∈ notBehind, lastKind declaration ≠ some kind) ∧
      l.cursor.ahead = [' '] ++ '@' :: ("v2".toList ++ ' ' :: []) ∧
      ¬ ∃ t l', l.next = (.ok t, l') ∧ t.kind = .customKeyword ∧ t.text = "@v2" := by
  intro declaration
  let l := afterCalls 4 (ofSource (.ofFormat .n3) (.ofText "@keywords v2. @v2 "))
  have h : Reaches _ declaration l := reaches_afterCalls (by decide +kernel)
  have hfails : l.next.1.toOption = none := by decide +kernel
  refine ⟨l, h, by decide, by decide, by decide, by decide +kernel, ?_⟩
  rintro ⟨t, l', e, -⟩
  rw [e] at hfails
  cases hfails

end Lexer

end TripleLex

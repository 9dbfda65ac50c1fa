import TripleLex.Proofs.MirroredGraphs

/-!
# The query machine on texts with a common beginning

A keyword may go on in a second word, and a sign in a number; where the texts
part, both would go on behind a blank character, which neither does
(`mirrors_twoWords`, `mirrors_numberOrSign`).

## Main results

* `Query.Sparql.comments_body`, `Query.Sparql.comments_prologue` — what the two
  dispatches do with comments.
-/

namespace TripleLex

open Scan

namespace Query.Sparql

variable {q : Sparql} {previous : Option Kind}

theorem mirrors_checkLevel (word : Keyword) : Mirrors Never Eq (q.checkLevel word) := by
  unfold checkLevel
  split
  · exact mirrors_pure rfl
  · split
    · exact mirrors_fails fun _ => makes_violation _
    · exact mirrors_fails fun _ => makes_violation _

theorem mirrors_checkScope (word : Keyword) : Mirrors Never Eq (q.checkScope word) := by
  unfold checkScope
  split
  · split
    · exact mirrors_fails fun _ => makes_violation _
    · exact mirrors_pure rfl
  · exact mirrors_fails fun _ => makes_violation _
  · exact mirrors_fails fun _ => makes_violation _
  · exact mirrors_fails fun _ => makes_violation _
  · split
    · exact mirrors_fails fun _ => makes_violation _
    · exact mirrors_pure rfl
  · split
    · exact mirrors_pure rfl
    · exact mirrors_fails fun _ => makes_violation _
  · split
    · exact mirrors_pure rfl
    · exact mirrors_fails fun _ => makes_violation _
  · exact mirrors_pure rfl

theorem mirrors_keyword (word : Keyword) : Mirrors Never Agree (q.keyword word) :=
  (mirrors_checkLevel word).bind fun _ => (mirrors_checkScope word).bind fun _ => mirrors_emit _

theorem mirrors_base : Mirrors Never Agree q.base := by
  unfold base
  split
  · exact mirrors_fails fun _ => makes_violation _
  · exact mirrors_emit _

theorem mirrors_prologueWord (word : List Char) :
    Mirrors Never Agree (q.prologueWord word) := by
  unfold prologueWord
  split
  · exact mirrors_base
  · split
    · exact mirrors_emit _
    · split
      · split
        · exact (mirrors_checkLevel _).bind fun _ => mirrors_emit _
        · exact mirrors_fails fun _ => makes_violation _
      · exact mirrors_fails fun _ => makes_violation _

theorem mirrors_prologue {c : Char} (hc : c ≠ '#') :
    Mirrors Never Agree (q.prologue previous c) := by
  unfold prologue
  rw [if_neg (by simpa using hc)]
  split
  · split
    · exact mirrors_reference
    · exact mirrors_fails fun _ => makes_unexpectedCharacter _ _
  · refine Mirrors.bind ?_ fun _ => ?_
    · exact mirrors_letters
    · refine mirrors_get (fun k k' hw => ?_) fun k => ?_
      · rw [Cursor.isEmpty_congr hw, Cursor.value_congr hw]
      · split
        · exact mirrors_fails fun _ => makes_unexpectedCharacter _ _
        · exact mirrors_prologueWord _

/-! ## Keywords of two words -/

/-- Between two words more blanks may stand behind the edge. -/
theorem mirrors_spaceTurn (seen : Bool) : Mirrors Always Eq (spaceTurn seen) := by
  refine mirrors_look_spends (advances_spaceTurn seen).keeps.always fun d => ?_
  split
  · exact mirrors_pure rfl
  · split
    · exact mirrors_pure rfl
    · split
      · exact mirrors_bind (mirrors_consumeLineEnd _) (fun _ => mirrors_pure rfl)
          fun _ _ => (keeps_pure _).always
      · exact mirrors_consume.bind fun _ => mirrors_pure rfl

theorem keeps_keyword (word : Keyword) : Keeps (q.keyword word) := by
  intro k t left e
  obtain ⟨_, k₁, e₁, e⟩ := bind_ok e
  obtain ⟨_, k₂, e₂, e⟩ := bind_ok e
  rw [checkScope_ok e₂, checkLevel_ok e₁] at e
  exact keeps_emit k t left e

/-- The second word of a keyword, behind blank characters. -/
def secondWord (q : Sparql) (seconds : List (String × Keyword)) (first : List Char)
    (spaced : Bool) : Scan Token := do
  let start := (← get).value.length
  consumeWhile Unicode.isAlphabetic
  let second := (← get).value.drop start
  match seconds.find? fun entry => isText second entry.1, spaced with
  | some entry, true => q.keyword entry.2
  | _, _ =>
    violation ("Expected " ++ " or ".intercalate (seconds.map Prod.fst) ++ " after " ++
      String.ofList (first.map Char.toUpper))

variable {seconds : List (String × Keyword)}

theorem mirrors_secondWord (first : List Char) (spaced : Bool) :
    Mirrors Never Agree (q.secondWord seconds first spaced) := by
  refine mirrors_get (fun k k' hw => by rw [Cursor.value_congr hw]) fun k => ?_
  refine Mirrors.bind ?_ fun _ => ?_
  · exact mirrors_letters
  · refine mirrors_get (fun k k' hw => by rw [Cursor.value_congr hw]) fun k => ?_
    dsimp only
    split
    · exact mirrors_keyword _
    · exact mirrors_fails fun _ => makes_violation _

/-- There is a second word, so that something is taken for it. -/
theorem takes_secondWord (hne : ∀ entry ∈ seconds, isText [] entry.1 = false) (first : List Char)
    (spaced : Bool) : Takes (q.secondWord seconds first spaced) := by
  intro k t left e
  have e := get_bind_ok e
  obtain ⟨_, mid, e₁, e⟩ := bind_ok e
  have r := consumeWhile_ok (fun c h => not_isLineEnd_of_isAlphabetic h) e₁
  have e := get_bind_ok e
  cases hfind : seconds.find? fun entry => isText (mid.value.drop k.value.length) entry.1 with
  | none =>
    rw [hfind] at e
    cases e
  | some entry =>
    rw [hfind] at e
    have hpos : 0 < (k.ahead.takeWhile Unicode.isAlphabetic).length := by
      rw [List.length_pos_iff]
      intro hnil
      have hvalue : mid.value = k.value := by
        rw [Cursor.value, r.written, hnil]
        rfl
      have htext := List.find?_some hfind
      rw [hvalue, List.drop_length, hne entry (List.mem_of_find?_eq_some hfind)] at htext
      cases htext
    have hlength := congrArg List.length r.ahead
    rw [List.length_append] at hlength
    cases spaced with
    | false => cases e
    | true =>
      have hle := (keeps_keyword entry.2 mid t left e).1
      exact ⟨by omega, fun _ => by omega⟩

theorem mirrors_twoWords (hne : ∀ entry ∈ seconds, isText [] entry.1 = false) :
    Mirrors Never Agree (q.twoWords seconds) := by
  refine mirrors_get (fun k k' hw => by rw [Cursor.value_congr hw]) fun k => ?_
  exact mirrors_bind (mirrors_iterate_always mirrors_spaceTurn false)
    (fun spaced => mirrors_secondWord k.value spaced)
    fun spaced _ => (takes_secondWord hne k.value spaced).spends

theorem mirrors_bareWord (word : List Char) : Mirrors Never Agree (q.bareWord word) := by
  unfold bareWord
  split
  · exact mirrors_emit _
  · split
    · exact mirrors_emit _
    · split
      · exact mirrors_base
      · split
        · exact mirrors_emit _
        · split
          · exact mirrors_twoWords (by decide)
          · split
            · exact mirrors_twoWords (by decide)
            · split
              · exact mirrors_twoWords (by decide)
              · split
                · exact mirrors_keyword _
                · exact mirrors_fails fun _ => makes_invalidForm _ _

theorem mirrors_name : Mirrors Never Agree q.name := by
  refine (mirrors_gatherName _ _).bind fun _ => mirrors_nameOr ?_
  exact mirrors_get (fun k k' hw => by rw [Cursor.value_congr hw]) fun k => mirrors_bareWord _

theorem mirrors_assignmentOrName : Mirrors Never Agree q.assignmentOrName := by
  refine mirrors_consume.bind fun _ => mirrors_nextIs (by decide) (by decide) (fun found => ?_) ?_
  · split
    · exact mirrors_consume.bind fun _ => mirrors_emit _
    · exact mirrors_name
  · exact takes_consume.bind fun _ => keeps_emit

/-! ## Numbers and signs -/

/-- A blank ends a number. -/
theorem mirrors_numericTurn (s : Gathered) : Mirrors Never Eq (numericTurn s) := by
  refine mirrors_look_rest (fun d => ?_) fun {d b} hb {k left r} hp hk e => ?_
  · split
    · exact mirrors_pure rfl
    · split
      · exact mirrors_consumeAnd _
      · split
        · split
          · exact mirrors_pure rfl
          · exact mirrors_consumeAnd _
        · split
          · refine mirrors_get (fun k k' hw => by rw [Cursor.admitsSign_congr hw]) fun k => ?_
            split
            · exact mirrors_consumeAnd _
            · exact mirrors_pure rfl
          · split
            · split
              · exact mirrors_pure rfl
              · exact mirrors_consumeAnd _
            · exact mirrors_pure rfl
  · have hblank : b.isDigit = false ∧ (b == '.') = false ∧ (b == '+') = false ∧
        (b == '-') = false ∧ Number.isExponentMark b = false := by
      rcases hb with rfl | rfl <;> decide
    obtain ⟨h₁, h₂, h₃, h₄, h₅⟩ := hblank
    simp only [h₁, h₂, h₃, h₄, h₅, Bool.or_self, Bool.false_eq_true, if_false]
    cases d with
    | none => exact Or.inl rfl
    | some c =>
      have htakes : ∀ {s}, (consumeAnd s : Scan (Turn Gathered Unit)) k = .ok r left →
          left.source.rest.length < k.source.rest.length :=
        fun e => rest_lt_consume (fun _ => mirrors_pure (B := Never) (R := Eq) rfl) hp hk e
      revert e
      dsimp only
      split
      · exact fun e => Or.inr (htakes e)
      · split
        · split
          · exact fun _ => Or.inl rfl
          · exact fun e => Or.inr (htakes e)
        · split
          · rw [get_bind]
            split
            · exact fun e => Or.inr (htakes e)
            · exact fun _ => Or.inl rfl
          · split
            · split
              · exact fun _ => Or.inl rfl
              · exact fun e => Or.inr (htakes e)
            · exact fun _ => Or.inl rfl

/-- What has been gathered is a sign or judged as a number. -/
theorem mirrors_numericEnd : Mirrors Never Agree (do
    let k ← get
    if k.value == ['+'] then
      emit .plus
    else if k.value == ['-'] then
      emit .minus
    else
      q.numericToken) := by
  have hjudge : Mirrors Never Agree (do
      let k ← get
      if Number.isNumber q.level.allowsFinalDot k.value then
        emit .plainLiteral
      else
        invalidForm "Numeric Literal" k.text) := by
    refine mirrors_get (fun k k' hw => ?_) fun k => ?_
    · rw [Cursor.value_congr hw, Cursor.text_congr hw]
    · split
      · exact mirrors_emit _
      · exact mirrors_fails fun _ => makes_invalidForm _ _
  have htoken : Mirrors Never Agree q.numericToken := by
    unfold numericToken
    split
    · exact hjudge
    · exact mirrors_giveBackDot.bind fun _ => hjudge
  refine mirrors_get (fun k k' hw => by rw [Cursor.value_congr hw]) fun k => ?_
  split
  · exact mirrors_emit _
  · split
    · exact mirrors_emit _
    · exact htoken

theorem mirrors_numberOrSign : Mirrors Never Agree q.numberOrSign :=
  mirrors_get (fun k k' hw => by rw [Cursor.value_congr hw]) fun _ =>
    Mirrors.bind (Mirrors.iterate mirrors_numericTurn _) fun _ => mirrors_numericEnd

theorem takesDigit_numberOrSign : TakesDigit q.numberOrSign := by
  intro k left c t hp hk hc e
  exact rest_lt_of_turn mirrors_numericTurn (fun _ => mirrors_numericEnd)
    (exists_again hp hk (if_pos hc)) (get_bind_ok e)

theorem mirrors_oneOrTwo {second : Char} (hs : second ≠ ' ') (hl : second ≠ '\n')
    (double single : Kind) : Mirrors Never Agree (oneOrTwo second double single) := by
  refine mirrors_consume.bind fun _ => mirrors_nextIs hs hl (fun found => ?_) ?_
  · split
    · exact mirrors_consume.bind fun _ => mirrors_emit _
    · exact mirrors_emit _
  · exact takes_consume.bind fun _ => keeps_emit

/-- An operator stands before a blank, a reference goes on. -/
theorem mirrors_referenceOrLess : Mirrors Never Agree referenceOrLess := by
  have hblank : ∀ b, (b = ' ' ∨ b = '\n') → (some b).all Unicode.isBlank = true := by
    rintro b (rfl | rfl) <;> decide
  refine mirrors_skip.bind fun _ => mirrors_look (fun d => ?_) fun d b hb => ?_
  · split
    · exact mirrors_emitAs _ _
    · split
      · refine mirrors_skip.bind fun _ => mirrors_look (fun d => ?_) fun d b hb => ?_
        · split
          · exact mirrors_emitAs _ _
          · exact mirrors_fails fun _ => makes_violation _
        · rw [if_pos (hblank b hb)]
          split
          · exact Or.inl rfl
          · exact Or.inr (spends_violation _)
      · exact mirrors_referenceBody.bind fun _ => mirrors_emit _
  · rw [if_pos (hblank b hb)]
    split
    · exact Or.inl rfl
    · split
      · refine Or.inr (takes_skip.bind fun _ => keeps_look.bind fun d => ?_)
        split
        · exact keeps_emitAs _
        · exact spends_violation _
      · exact Or.inr (takes_referenceBody.bind fun _ => keeps_emit)

theorem mirrors_hat : Mirrors Never Agree (hat previous) := by
  refine mirrors_consume.bind fun _ => mirrors_nextIs (by decide) (by decide) (fun found => ?_) ?_
  · split
    · split
      · exact mirrors_consume.bind fun _ => mirrors_emit _
      · exact mirrors_fails fun _ => makes_violation _
    · exact mirrors_emit _
  · rw [if_pos rfl]
    split
    · exact takes_consume.bind fun _ => keeps_emit
    · exact spends_violation _

theorem mirrors_variableName (sign : Char) : Mirrors Never Agree (variableName sign) := by
  refine mirrors_gatherVariable.bind fun _ => mirrors_get (fun k k' hw => ?_) fun k => ?_
  · rw [Cursor.isEmpty_congr hw]
  · split
    · split
      · exact mirrors_emitAs _ _
      · exact mirrors_fails fun _ => makes_unexpectedNext _
    · exact mirrors_variableToken _

theorem mirrors_ampersand : Mirrors Never Agree ampersand := by
  refine mirrors_consume.bind fun _ => mirrors_nextIs (by decide) (by decide) (fun found => ?_) ?_
  · split
    · exact mirrors_consume.bind fun _ => mirrors_emit _
    · exact mirrors_fails fun _ => makes_unexpectedNext _
  · exact takes_consume.bind fun _ => keeps_emit

theorem comments_body : Comments (q.body previous) where
  hash := rfl
  other c hc := by
    unfold body
    split
    · exact absurd rfl hc
    · exact mirrors_referenceOrLess.at
    · exact (mirrors_oneOrTwo (by decide) (by decide) _ _).at
    · exact mirrorsAt_literal (by decide) (by decide) _
    · exact mirrorsAt_literal (by decide) (by decide) _
    · exact mirrors_hat.at
    · exact (mirrors_variableName _).at
    · exact (mirrors_variableName _).at
    · exact mirrors_single.at
    · exact mirrors_single.at
    · exact mirrors_single.at
    · exact mirrors_single.at
    · exact mirrors_single.at
    · exact mirrors_single.at
    · exact mirrors_single.at
    · exact mirrors_single.at
    · exact (mirrors_dotOrNumber mirrors_numberOrSign takesDigit_numberOrSign).at
    · exact mirrors_single.at
    · exact mirrors_single.at
    · exact mirrors_single.at
    · exact (mirrors_oneOrTwo (by decide) (by decide) _ _).at
    · exact (mirrors_oneOrTwo (by decide) (by decide) _ _).at
    · exact mirrors_ampersand.at
    · exact mirrors_numberOrSign.at
    · exact mirrors_numberOrSign.at
    · exact mirrors_assignmentOrName.at
    · exact mirrors_name.at
    · exact mirrors_name.at
    · split
      · exact mirrors_languageTag.at
      · split
        · exact mirrors_numberOrSign.at
        · split
          · exact mirrors_name.at
          · exact (mirrors_fails fun _ => makes_unexpectedCharacter _ _).at

theorem comments_prologue : Comments (q.prologue previous) where
  hash := rfl
  other _ hc := (mirrors_prologue hc).at

end Query.Sparql

end TripleLex

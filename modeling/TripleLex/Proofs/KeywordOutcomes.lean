import TripleLex.Proofs.Outcomes
import TripleLex.Query.Sparql

/-!
# Keywords of queries

Which keywords a reader of queries makes, and when it complains about their
scope. In the prologue it makes only keywords that open a query or an update. In
the body an `ORDER BY` is made only where the present scope has none yet, and
`ASC` and `DESC` only where it has one; and where a fault says the opposite, it
is so.

## Main results

* `yields_keyword` — what a keyword of the body comes to.
* `yields_read` — what any token of a query comes to.
-/

namespace TripleLex.Query.Sparql

open Scan

/-! ## Complaints -/

/-- The wording for an `ORDER BY` in a scope that has one. -/
def orderTwice : String := "Only one ORDER BY clause is permitted per query"

/-- The wording for a direction of ordering in a scope without an `ORDER BY`. -/
def orderMissing (word : Keyword) : String :=
  word.text ++ " is only permitted after an ORDER BY clause"

/-- The fault says that a keyword does not fit its scope. -/
def Complains (fault : Fault) : Prop :=
  ∃ span, fault = .violation orderTwice span ∨
  fault = .violation (orderMissing .asc) span ∨
    fault = .violation (orderMissing .desc) span

/-- A fault that does not complain about a scope. -/
def Quiet (fault : Fault) : Prop := ¬ Complains fault

theorem quiet_of_not_isViolation {fault : Fault}
    (h : fault.isViolation = false) : Quiet fault := by
  rintro ⟨span, rfl | rfl | rfl⟩ <;> cases h

theorem quiet_violation {message : String} {span : Span}
    (h : message ≠ orderTwice) (ha : message ≠ orderMissing .asc)
    (hd : message ≠ orderMissing .desc) :
    Quiet (.violation message span) := by
  rintro ⟨span', he | he | he⟩
  · exact h (Fault.violation.inj he).1
  · exact ha (Fault.violation.inj he).1
  · exact hd (Fault.violation.inj he).1

/-- A wording that begins with another letter than the complaints. -/
theorem quiet_of_head {message : String} {span : Span} {c : Char}
    (h : message.toList.head? = some c) (hc : c ∉ ['O', 'A', 'D']) :
    Quiet (.violation message span) := by
  have hne : ∀ {other : String} {d : Char}, other.toList.head? = some d →
    d ∈ ['O', 'A', 'D'] →
      message ≠ other := by
    rintro other d hd hm rfl
    rw [h] at hd
    cases hd
    exact hc hm
  exact quiet_violation (hne (d := 'O') (by decide) (by decide))
    (hne (d := 'A') (by decide) (by decide))
    (hne (d := 'D') (by decide) (by decide))

theorem head?_append {a b : String} {c : Char} (h : a.toList.head? = some c) :
    (a ++ b).toList.head? = some c := by
  rw [String.toList_append, List.head?_append, h]
  rfl

theorem passable_quiet : Passable Quiet :=
  ⟨fun _ h => quiet_of_not_isViolation h,
    fun _ => quiet_of_head (c := 'C') (by decide) (by decide)⟩

/-! ## What fits a scope -/

variable {q : Sparql}

/-- The keyword fits the present scope. -/
def Fits (q : Sparql) (word : Keyword) : Prop :=
  (word = .orderBy → q.progress.nesting.hasOrder = false) ∧
    (word = .asc ∨ word = .desc → q.progress.nesting.hasOrder = true)

/-- A fault that complains about the present scope is right. -/
def Right (q : Sparql) (fault : Fault) : Prop :=
  (∀ span, fault = .violation orderTwice span →
    q.progress.nesting.hasOrder = true) ∧
    (∀ word span, word = .asc ∨ word = .desc →
      fault = .violation (orderMissing word) span →
      q.progress.nesting.hasOrder = false)

theorem right_of_quiet {fault : Fault} (h : Quiet fault) : Right q fault := by
  constructor
  · intro span he
    exact absurd ⟨span, Or.inl he⟩ h
  · rintro word span (rfl | rfl) he
    · exact absurd ⟨span, Or.inr (Or.inl he)⟩ h
    · exact absurd ⟨span, Or.inr (Or.inr he)⟩ h

theorem passable_right : Passable (Right q) :=
  ⟨fun _ h => right_of_quiet (passable_quiet.other _ h),
    fun span => right_of_quiet (passable_quiet.lineEnd span)⟩

/-- What does not complain may stand anywhere. -/
theorem rightly {α : Type} {m : Scan α} {Q : α → Prop} (h : Yields m Q Quiet) :
    Yields m Q (Right q) :=
  h.mono (fun _ ha => ha) fun _ hf => right_of_quiet hf

/-- What a token of the body comes to: no keyword, or one that fits. -/
def FitsIfWord (q : Sparql) (t : Token) : Prop :=
  ∀ word, t.kind = .keyword word → Fits q word

/-- What a token of the prologue comes to: no keyword, or one that opens a query
or an update. -/
def OpensIfWord (t : Token) : Prop :=
  ∀ word, t.kind = .keyword word → (word.opensQuery || word.opensUpdate) = true

theorem not_word_of_noWord {t : Token} (h : NoWord t) (word : Keyword) :
    t.kind ≠ .keyword word := by
  intro hk
  rw [NoWord, hk] at h
  cases h

/-- What makes no keyword and does not complain may stand in the body. -/
theorem fitting {m : Scan Token} (h : Yields m NoWord Quiet) :
    Yields m (FitsIfWord q) (Right q) :=
  h.mono (fun _ ht word hk => absurd hk (not_word_of_noWord ht word))
    fun _ hf => right_of_quiet hf

/-- What makes no keyword may stand in the prologue. -/
theorem opening {m : Scan Token} (h : Yields m NoWord Quiet) :
    Yields m OpensIfWord Quiet :=
  h.mono (fun _ ht word hk => absurd hk (not_word_of_noWord ht word))
    fun _ hf => hf

/-! ## Keywords -/

theorem yields_checkLevel (word : Keyword) :
    Yields (q.checkLevel word) Anything Quiet := by
  unfold checkLevel
  split
  · exact yields_pure trivial
  · split
    · exact yields_violation fun _ =>
        quiet_of_head (c := 'T') (head?_append (head?_append (by decide)))
          (by decide)
    · exact yields_violation fun _ =>
        quiet_of_head (c := 'T') (head?_append (head?_append (by decide)))
          (by decide)

theorem right_violation {message : String} (h : message ≠ orderTwice)
    (ha : message ≠ orderMissing .asc) (hd : message ≠ orderMissing .desc)
    (span : Span) : Right q (.violation message span) :=
  right_of_quiet (quiet_violation h ha hd)

/-- An `ORDER BY` passes where there is none, and the complaint is right. -/
theorem yields_orderBy :
    Yields (if q.progress.nesting.hasOrder then violation orderTwice else pure ())
      (fun _ : Unit => Fits q .orderBy) (Right q) := by
  by_cases ho : q.progress.nesting.hasOrder = true
  · rw [if_pos ho]
    refine yields_violation fun span => ⟨fun _ _ => ho, ?_⟩
    rintro word span' (rfl | rfl) he
    · exact absurd (Fault.violation.inj he).1 (by decide)
    · exact absurd (Fault.violation.inj he).1 (by decide)
  · rw [if_neg ho]
    exact yields_pure ⟨fun _ => Bool.eq_false_iff.2 ho, by simp⟩

/-- A direction passes where there is an `ORDER BY`, and the complaint is
right. -/
theorem yields_direction {word : Keyword} (hw : word = .asc ∨ word = .desc) :
    Yields
      (if q.progress.nesting.hasOrder then pure ()
      else violation (orderMissing word))
      (fun _ : Unit => Fits q word) (Right q) := by
  have hne : word ≠ .orderBy := by
    rintro rfl
    cases hw <;> contradiction
  have hmessage : orderMissing word ≠ orderTwice := by
    rcases hw with rfl | rfl <;> decide
  by_cases ho : q.progress.nesting.hasOrder = true
  · rw [if_pos ho]
    exact yields_pure ⟨fun h => absurd h hne, fun _ => ho⟩
  · rw [if_neg ho]
    refine yields_violation fun span => ⟨?_, ?_⟩
    · intro span' he
      exact absurd (Fault.violation.inj he).1 hmessage
    · intro _ _ _ _
      exact Bool.eq_false_iff.2 ho

/-- The check of a scope lets a keyword pass just if it fits, and complains
rightly. -/
theorem yields_checkScope (word : Keyword) :
    Yields (q.checkScope word) (fun _ => Fits q word) (Right q) := by
  unfold checkScope
  split
  · split
    · apply yields_violation
      exact right_violation (by decide) (by decide) (by decide)
    · exact yields_pure ⟨nofun, by simp⟩
  · apply yields_violation
    exact right_violation (by decide) (by decide) (by decide)
  · apply yields_violation
    exact right_violation (by decide) (by decide) (by decide)
  · apply yields_violation
    exact right_violation (by decide) (by decide) (by decide)
  · exact yields_orderBy
  · exact yields_direction (Or.inl rfl)
  · exact yields_direction (Or.inr rfl)
  · rename_i ho ha hd
    exact yields_pure ⟨fun h => absurd h ho, fun h => (h.elim ha hd).elim⟩

theorem yields_keyword (word : Keyword) :
    Yields (q.keyword word) (FitsIfWord q) (Right q) := by
  refine (rightly (yields_checkLevel word)).bind fun _ _ => ?_
  refine (yields_checkScope word).bind fun _ hfits => ?_
  refine (yields_emit (.keyword word)).mono ?_ fun _ hf => hf
  intro t ht word' hk
  rw [ht] at hk
  cases hk
  exact hfits

theorem yields_base : Yields q.base NoWord Quiet := by
  unfold base
  split
  · exact yields_violation fun _ => quiet_violation (by decide) (by decide)
      (by decide)
  · exact noWord_emit rfl

theorem yields_twoWords (seconds : List (String × Keyword)) :
    Yields (q.twoWords seconds) (FitsIfWord q) (Right q) := by
  have hspace : Yields (iterate spaceTurn advances_spaceTurn false) Anything
      (Right q) := by
    refine yields_iterate (fun _ => yields_look.bind fun c _ => ?_) false
    split
    · exact yields_turn _
    · split
      · exact yields_turn _
      · split
        · exact (yields_consumeLineEnd passable_right _ _).thenTurn _
        · exact (yields_consume passable_right).thenTurn _
  refine yields_get.bind fun k _ => hspace.bind fun spaced _ => ?_
  refine yields_get.bind fun k' _ => ?_
  refine (yields_consumeWhile passable_right _).bind fun _ _ => ?_
  refine yields_get.bind fun k'' _ => ?_
  dsimp only
  split
  · exact yields_keyword _
  · refine yields_violation fun _ => right_of_quiet ?_
    refine quiet_of_head (c := 'E') ?_ (by decide)
    exact head?_append (head?_append (head?_append (by decide)))

theorem yields_bareWord (word : List Char) :
    Yields (q.bareWord word) (FitsIfWord q) (Right q) := by
  unfold bareWord
  split
  · exact fitting (noWord_emit rfl)
  · split
    · exact fitting (noWord_emit rfl)
    · split
      · exact fitting yields_base
      · split
        · exact fitting (noWord_emit rfl)
        · split
          · exact yields_twoWords _
          · split
            · exact yields_twoWords _
            · split
              · exact yields_twoWords _
              · split
                · exact yields_keyword _
                · exact fitting (yields_invalidForm passable_quiet _ _)

theorem yields_name : Yields q.name (FitsIfWord q) (Right q) := by
  refine (yields_gatherName passable_right _ true).bind fun _ _ => ?_
  refine (yields_nameToken? passable_right _).bind fun o ho => ?_
  split
  · exact fitting (yields_pure (ho _ rfl))
  · exact yields_get.bind fun k _ => yields_bareWord _

theorem yields_assignmentOrName :
    Yields q.assignmentOrName (FitsIfWord q) (Right q) := by
  have hconsume : Yields consume Anything (Right q) :=
    yields_consume passable_right
  refine hconsume.bind fun _ _ => (yields_nextIs _).bind fun found _ => ?_
  split
  · exact hconsume.bind fun _ _ => fitting (noWord_emit rfl)
  · exact yields_name

/-! ## Numbers and signs -/

theorem yields_numberOrSign : Yields q.numberOrSign NoWord Quiet := by
  have hnumeric : ∀ s, Yields (iterate numericTurn advances_numericTurn s)
      Anything Quiet := by
    have hgo : ∀ s : Gathered,
        Yields (consumeAnd s : Scan (Turn Gathered Unit)) AnyTurn Quiet :=
      fun s => (yields_consume passable_quiet).thenTurn _
    refine yields_iterate fun s => yields_look.bind fun c _ => ?_
    split
    · exact yields_turn _
    · split
      · exact hgo _
      · split
        · split
          · exact yields_turn _
          · exact hgo _
        · split
          · refine yields_get.bind fun k _ => ?_
            split
            · exact hgo _
            · exact yields_turn _
          · split
            · split
              · exact yields_turn _
              · exact hgo _
            · exact yields_turn _
  have hsettled : Yields (do
      let k ← get
      if Number.isNumber q.level.allowsFinalDot k.value then emit .plainLiteral
      else invalidForm "Numeric Literal" k.text) NoWord Quiet := by
    refine yields_get.bind fun k _ => ?_
    split
    · exact noWord_emit rfl
    · exact yields_invalidForm passable_quiet _ _
  refine yields_get.bind fun k _ => (hnumeric _).bind fun _ _ =>
    yields_get.bind fun k' _ => ?_
  split
  · exact noWord_emit rfl
  · split
    · exact noWord_emit rfl
    · unfold numericToken
      split
      · exact hsettled
      · exact (yields_giveBackDot passable_quiet).bind fun _ _ => hsettled

theorem yields_oneOrTwo {second : Char} {double single : Kind}
    (hd : double.isWord = false) (hs : single.isWord = false) :
    Yields (oneOrTwo second double single) NoWord Quiet := by
  refine (yields_consume passable_quiet).bind fun _ _ =>
    (yields_nextIs _).bind fun found _ => ?_
  split
  · exact (yields_consume passable_quiet).bind fun _ _ => noWord_emit hd
  · exact noWord_emit hs

theorem yields_referenceOrLess : Yields referenceOrLess NoWord Quiet := by
  refine (yields_skip passable_quiet).bind fun _ _ =>
    yields_look.bind fun c _ => ?_
  split
  · exact noWord_emitAs _ rfl
  · split
    · refine (yields_skip passable_quiet).bind fun _ _ =>
        yields_look.bind fun d _ => ?_
      split
      · exact noWord_emitAs _ rfl
      · exact yields_violation fun _ => quiet_violation (by decide) (by decide)
          (by decide)
    · exact (yields_referenceBody passable_quiet).bind fun _ _ =>
        noWord_emit rfl

theorem yields_hat (previous : Option Kind) :
    Yields (hat previous) NoWord Quiet := by
  refine (yields_consume passable_quiet).bind fun _ _ =>
    (yields_nextIs _).bind fun found _ => ?_
  split
  · split
    · exact (yields_consume passable_quiet).bind fun _ _ => noWord_emit rfl
    · exact yields_violation fun _ => quiet_violation (by decide) (by decide)
        (by decide)
  · exact noWord_emit rfl

theorem yields_variableName (sign : Char) :
    Yields (variableName sign) NoWord Quiet := by
  refine (yields_gatherVariable passable_quiet).bind fun _ _ =>
    yields_get.bind fun k _ => ?_
  split
  · split
    · exact noWord_emitAs _ rfl
    · exact yields_unexpectedNext passable_quiet _
  · exact yields_variableToken passable_quiet _

theorem yields_ampersand : Yields ampersand NoWord Quiet := by
  refine (yields_consume passable_quiet).bind fun _ _ =>
    (yields_nextIs _).bind fun found _ => ?_
  split
  · exact (yields_consume passable_quiet).bind fun _ _ => noWord_emit rfl
  · exact yields_unexpectedNext passable_quiet _

theorem isWord_starKind (previous : Option Kind) :
    (starKind previous).isWord = false := by
  unfold starKind
  split <;> rfl

/-! ## Prologue and body -/

theorem yields_prologueWord (word : List Char) :
    Yields (q.prologueWord word) OpensIfWord Quiet := by
  have hunexpected : Yields (violation (prologueWord.unexpectedWord word))
      OpensIfWord Quiet :=
    yields_violation fun _ =>
      quiet_of_head (c := 'U') (head?_append (head?_append (by decide)))
        (by decide)
  unfold prologueWord
  split
  · exact opening yields_base
  · split
    · exact opening (noWord_emit rfl)
    · split
      · split
        · rename_i k _ hopens
          refine (yields_checkLevel k).bind fun _ _ => ?_
          refine (yields_emit (.keyword k)).mono ?_ fun _ hf => hf
          intro t ht word' hk
          rw [ht] at hk
          cases hk
          exact hopens
        · exact hunexpected
      · exact hunexpected

theorem yields_prologue (previous : Option Kind) (c : Char) :
    Yields (q.prologue previous c) OpensIfWord Quiet := by
  unfold prologue
  split
  · exact opening (yields_comment passable_quiet)
  · split
    · split
      · exact opening (yields_reference passable_quiet)
      · exact yields_unexpectedCharacter passable_quiet _ _
    · refine (yields_consumeWhile passable_quiet _).bind fun _ _ =>
        yields_get.bind fun k _ => ?_
      split
      · exact yields_unexpectedCharacter passable_quiet _ _
      · exact yields_prologueWord _

theorem yields_body (previous : Option Kind) (c : Char) :
    Yields (q.body previous c) (FitsIfWord q) (Right q) := by
  have hsingle : ∀ {kind : Kind}, kind.isWord = false →
      Yields (single kind) (FitsIfWord q) (Right q) := by
    intro kind hk
    exact fitting (yields_single passable_quiet hk)
  unfold body
  split
  · exact fitting (yields_comment passable_quiet)
  · exact fitting yields_referenceOrLess
  · exact fitting (yields_oneOrTwo rfl rfl)
  · exact fitting (yields_literal passable_quiet)
  · exact fitting (yields_literal passable_quiet)
  · exact fitting (yields_hat _)
  · exact fitting (yields_variableName _)
  · exact fitting (yields_variableName _)
  · exact hsingle rfl
  · exact hsingle rfl
  · exact hsingle rfl
  · exact hsingle rfl
  · exact hsingle rfl
  · exact hsingle rfl
  · exact hsingle rfl
  · exact hsingle rfl
  · exact fitting (yields_dotOrNumber passable_quiet yields_numberOrSign)
  · exact hsingle (isWord_starKind _)
  · exact hsingle rfl
  · exact hsingle rfl
  · exact fitting (yields_oneOrTwo rfl rfl)
  · exact fitting (yields_oneOrTwo rfl rfl)
  · exact fitting yields_ampersand
  · exact fitting yields_numberOrSign
  · exact fitting yields_numberOrSign
  · exact yields_assignmentOrName
  · exact yields_name
  · exact yields_name
  · split
    · exact fitting (yields_languageTag passable_quiet)
    · split
      · exact fitting yields_numberOrSign
      · split
        · exact yields_name
        · exact fitting (yields_unexpectedCharacter passable_quiet _ _)

/-- What a token of a query comes to: a keyword that opens a query or an update
in the prologue, one that fits its scope in the body, or no keyword. -/
def Grows (q : Sparql) (t : Token) : Prop :=
  if q.progress.inBody then FitsIfWord q t else OpensIfWord t

theorem grows_of_noWord {t : Token} (h : NoWord t) : Grows q t := by
  unfold Grows
  split
  · exact fun word hk => absurd hk (not_word_of_noWord h word)
  · exact fun word hk => absurd hk (not_word_of_noWord h word)

/-- A direction of ordering comes only where there is an `ORDER BY`. -/
theorem Grows.hasOrder {t : Token} (h : Grows q t)
    (hk : t.kind = .keyword .asc ∨ t.kind = .keyword .desc) :
    q.progress.nesting.hasOrder = true := by
  unfold Grows at h
  split at h
  · rcases hk with hk | hk
    · exact (h .asc hk).2 (Or.inl rfl)
    · exact (h .desc hk).2 (Or.inr rfl)
  · rcases hk with hk | hk
    · exact absurd (h .asc hk) (by decide)
    · exact absurd (h .desc hk) (by decide)

theorem growing {m : Scan Token} (h : Yields m NoWord Quiet) :
    Yields m (Grows q) (Right q) :=
  h.mono (fun _ ht => grows_of_noWord ht) fun _ hf => right_of_quiet hf

theorem yields_read (previous : Option Kind) :
    Yields (q.read previous) (Grows q) (Right q) := by
  unfold read
  split
  · exact growing (yields_prefixName passable_quiet)
  · exact growing (yields_datatype passable_quiet _)
  · refine (yields_discardBlank passable_right).bind fun _ _ => ?_
    refine yields_tokenHere passable_right (fun t ht =>
      grows_of_noWord (by rw [NoWord, ht]; rfl)) ?_
    intro c
    unfold Grows
    split
    · exact yields_body _ _
    · exact rightly (yields_prologue _ _)

end TripleLex.Query.Sparql

import TripleLex.Number.Scan
import TripleLex.Quoted.Annotation
import TripleLex.Quoted.Literal

/-!
# Outcomes

What a scan can come to, wherever it starts: `Yields m Q E` says that every
value satisfies `Q` and every fault satisfies `E`. The rules follow the way
scans are put together. The readers that languages share make no keyword, and
they breach the syntax in one way only, which never comes about: by taking a
line end where there is none. They are treated for every condition on faults
that lets this and all faults of other sorts pass (`Passable`).

## Main results

* `Yields.bind`, `yields_iterate` — the rules.
* `yields_literal`, `yields_nameToken?`, `yields_datatype` — the shared readers.
-/

namespace TripleLex

namespace Fault

/-- Whether the fault is a breach of the syntax that has its own wording. -/
def isViolation : Fault → Bool
  | violation _ _ => true
  | _ => false

end Fault

namespace Kind

/-- Whether the kind is a keyword of the query language. -/
def isWord : Kind → Bool
  | keyword _ => true
  | _ => false

end Kind

namespace Scan

/-- Every value of the scan satisfies `Q`, and every fault `E`. -/
def Yields {α : Type} (m : Scan α) (Q : α → Prop) (E : Fault → Prop) : Prop :=
  ∀ k, (∀ a left, m k = .ok a left → Q a) ∧ ∀ fault left,
    m k = .error fault left → E fault

/-- What may be said of any value. -/
abbrev Anything {α : Type} (_ : α) : Prop := True

/-- The token is no keyword. -/
def NoWord (t : Token) : Prop := t.kind.isWord = false

/-- The condition lets faults pass that are no breach of the syntax, or the one
of taking a line end where there is none. -/
structure Passable (E : Fault → Prop) : Prop where
  other : ∀ fault, fault.isViolation = false → E fault
  lineEnd : ∀ span,
    E (.violation ("Cannot consume a new line since there is no new line character" ++
    " at the current" ++ " position") span)

/-! ## Rules -/

section Rules

variable {α β : Type} {Q R : α → Prop} {E F : Fault → Prop}

theorem Yields.mono {m : Scan α} (h : Yields m Q E) (hQ : ∀ a, Q a → R a)
    (hE : ∀ f, E f → F f) :
    Yields m R F :=
  fun k => ⟨fun a left e => hQ a ((h k).1 a left e),
    fun f left e => hE f ((h k).2 f left e)⟩

theorem Yields.bind {m : Scan α} {f : α → Scan β} {P : β → Prop}
    (h : Yields m Q E) (g : ∀ a, Q a → Yields (f a) P E) :
    Yields (m >>= f) P E := by
  intro k
  simp only [Bind.bind, EStateM.bind]
  cases hm : m k with
  | ok a mid =>
    have ha := (h k).1 a mid hm
    exact g a ha mid
  | error fault left =>
    constructor
    · intro b left' e
      cases e
    · intro fault' left' e
      cases e
      exact (h k).2 fault left hm

theorem yields_pure {a : α} (h : Q a) : Yields (pure a : Scan α) Q E := by
  intro k
  constructor
  · intro b left e
    cases e
    exact h
  · intro fault left e
    cases e

theorem yields_raise {fault : Fault} (h : E fault) :
    Yields (raise fault : Scan α) Q E := by
  intro k
  constructor
  · intro a left e
    cases e
  · intro f left e
    cases e
    exact h

/-- A scan that cannot fail. -/
theorem yields_of_ok {m : Scan α} (h : ∀ k, ∃ a left, m k = .ok a left) :
    Yields m Anything E := by
  intro k
  refine ⟨fun _ _ _ => trivial, ?_⟩
  intro fault left e
  obtain ⟨a, left', hk⟩ := h k
  rw [hk] at e
  cases e

theorem yields_get : Yields (get : Scan Cursor) Anything E :=
  yields_of_ok fun k => ⟨k, k, rfl⟩

theorem yields_set (k : Cursor) : Yields (set k : Scan Unit) Anything E :=
  yields_of_ok fun _ => ⟨(), k, rfl⟩

theorem yields_modify {f : Cursor → Cursor} :
    Yields (modify f : Scan Unit) Anything E :=
  yields_of_ok fun k => ⟨(), f k, rfl⟩

theorem yields_look : Yields look Anything E :=
  yields_of_ok fun k => ⟨_, k.looked, rfl⟩

theorem yields_take : Yields take Anything E :=
  yields_of_ok fun k => ⟨_, k.taken, rfl⟩

theorem yields_nextIs (c : Char) : Yields (nextIs c) Anything E :=
  yields_look.bind fun _ _ => yields_pure trivial

theorem yields_pushIf (keep : Bool) (c : Char) :
    Yields (pushIf keep c) Anything E := by
  unfold pushIf
  split
  · exact yields_modify
  · exact yields_pure trivial

theorem yields_appendIf (keep : Bool) (cs : List Char) :
    Yields (appendIf keep cs) Anything E := by
  unfold appendIf
  split
  · exact yields_modify
  · exact yields_pure trivial

theorem yields_violation {message : String}
    (h : ∀ span, E (.violation message span)) :
    Yields (violation message : Scan α) Q E :=
  yields_get.bind fun _ _ => yields_raise (h _)

/-- What may be said of the value of any last turn. -/
abbrev AnyTurn {σ α : Type} (r : Turn σ α) : Prop :=
  ∀ a, r = .done a → Anything a

theorem yields_turn {σ : Type} (r : Turn σ α) :
    Yields (pure r : Scan (Turn σ α)) AnyTurn E :=
  yields_pure fun _ _ => trivial

/-- A turn whose scan comes first. -/
theorem Yields.thenTurn {σ : Type} {m : Scan β} (h : Yields m Anything E)
    (f : β → Turn σ α) : Yields (m >>= fun b => pure (f b)) AnyTurn E :=
  h.bind fun b _ => yields_turn (f b)

/-- What every turn yields, the repetition does. -/
theorem yields_iterate {σ : Type} {turn : σ → Scan (Turn σ α)}
    {h : ∀ s, Advances (turn s)}
    (hturn : ∀ s, Yields (turn s) (fun r => ∀ a, r = .done a → Q a) E) (s : σ) :
    Yields (iterate turn h s) Q E := by
  intro k
  refine iterate_induction (h := h)
    (P := fun _ _ r => (∀ a left, r = .ok a left → Q a) ∧ ∀ f left,
      r = .error f left → E f)
    ?_ ?_ ?_ s k
  · intro s k s' left r _ hr
    exact hr
  · intro s k a left e
    constructor
    · intro b left' hr
      cases hr
      exact (hturn s k).1 _ left e a rfl
    · intro f left' hr
      cases hr
  · intro s k fault left e
    constructor
    · intro b left' hr
      cases hr
    · intro f left' hr
      cases hr
      exact (hturn s k).2 fault left e

end Rules

/-! ## Faults and single steps -/

section Steps

variable {α : Type} {Q : α → Prop} {E : Fault → Prop} (h : Passable E)

include h

theorem yields_failIfBroken : Yields failIfBroken Anything E := by
  have htake : Yields takeFailure Anything E := yields_of_ok fun k =>
    ⟨_, _, rfl⟩
  refine htake.bind fun cause _ => ?_
  split
  · exact yields_raise (h.other _ rfl)
  · exact yields_pure trivial

theorem yields_exhausted : Yields (exhausted : Scan α) Q E :=
  (yields_failIfBroken h).bind fun _ _ => yields_get.bind fun _ _ =>
    yields_raise (h.other _ rfl)

theorem yields_unexpectedCharacter (c : Char) (expected : String) :
    Yields (unexpectedCharacter c expected : Scan α) Q E :=
  yields_get.bind fun _ _ => yields_raise (h.other _ rfl)

theorem yields_unexpectedEnd (expected : String) :
    Yields (unexpectedEnd expected : Scan α) Q E :=
  (yields_failIfBroken h).bind fun _ _ => yields_get.bind fun _ _ =>
    yields_raise (h.other _ rfl)

theorem yields_unexpectedLineEnd (expected : String) :
    Yields (unexpectedLineEnd expected : Scan α) Q E :=
  yields_get.bind fun _ _ => yields_raise (h.other _ rfl)

theorem yields_invalidForm (production value : String) :
    Yields (invalidForm production value : Scan α) Q E :=
  yields_get.bind fun _ _ => yields_raise (h.other _ rfl)

theorem yields_malformedEscape (message : String) :
    Yields (malformedEscape message : Scan α) Q E :=
  yields_get.bind fun _ _ => yields_raise (h.other _ rfl)

theorem yields_malformedUnicodeEscape (message : String) :
    Yields (malformedUnicodeEscape message : Scan α) Q E :=
  yields_get.bind fun _ _ => yields_raise (h.other _ rfl)

theorem yields_misuse (message : String) :
    Yields (misuse message : Scan α) Q E :=
  yields_get.bind fun _ _ => yields_raise (h.other _ rfl)

theorem yields_unexpectedNext (expected : String) :
    Yields (do unexpectedCharacter (← nextOrEnd) expected : Scan α) Q E := by
  have hnext : Yields nextOrEnd Anything E :=
    yields_look.bind fun _ _ => yields_pure trivial
  exact hnext.bind fun c _ => yields_unexpectedCharacter h c expected

theorem yields_advanceOr {f : Char → Scan Char}
    (hf : ∀ c, Yields (f c) Anything E) :
    Yields (do
      match ← advance with
      | some c => f c
      | none => exhausted) Anything E := by
  have hadvance : Yields advance Anything E := by
    refine yields_of_ok fun k => ?_
    unfold advance
    split
    · exact ⟨_, _, rfl⟩
    · exact ⟨_, _, rfl⟩
  refine hadvance.bind fun c _ => ?_
  split
  · exact hf _
  · exact yields_exhausted h

theorem yields_skip : Yields skip Anything E :=
  yields_advanceOr h fun _ => yields_pure trivial

theorem yields_consume : Yields consume Anything E :=
  yields_advanceOr h fun _ => yields_modify.bind fun _ _ => yields_pure trivial

theorem yields_consumeLineEnd (keep allowEnd : Bool) :
    Yields (consumeLineEnd keep allowEnd) Anything E := by
  refine yields_look.bind fun first _ => ?_
  split
  · split
    · exact yields_pure trivial
    · exact yields_unexpectedEnd h _
  · split
    · exact yields_violation h.lineEnd
    · refine (yields_skip h).bind fun _ _ =>
        (yields_pushIf keep _).bind fun _ _ => ?_
      refine (yields_nextIs _).bind fun found _ => ?_
      split
      · exact yields_take.bind fun _ _ => yields_pushIf keep _
      · exact yields_pure trivial

theorem yields_backtrack : Yields backtrack Anything E := by
  refine yields_get.bind fun k _ => ?_
  split
  · exact yields_misuse h _
  · exact yields_misuse h _
  · exact yields_set _

theorem yields_giveBackDot : Yields giveBackDot Anything E := by
  refine yields_get.bind fun k _ => ?_
  split
  · exact yields_backtrack h
  · exact yields_pure trivial

/-! ## Runs of characters -/

theorem yields_consumeWhile (p : Char → Bool) :
    Yields (consumeWhile p) Anything E := by
  refine yields_iterate (fun _ => yields_look.bind fun c _ => ?_) ()
  split
  · exact yields_turn _
  · split
    · exact (yields_consume h).thenTurn _
    · exact yields_turn _

theorem yields_discardBlank : Yields discardBlank Anything E := by
  have hblanks : Yields (iterate blankTurn advances_blankTurn ())
      Anything E := by
    refine yields_iterate (fun _ => yields_look.bind fun c _ => ?_) ()
    split
    · exact yields_turn _
    · split
      · exact yields_turn _
      · split
        · exact (yields_consumeLineEnd h _ _).thenTurn _
        · exact (yields_skip h).thenTurn _
  exact hblanks.bind fun _ _ => yields_modify

/-! ## Escapes -/

theorem yields_readHexDigits (n : Nat) :
    Yields (readHexDigits n) Anything E := by
  induction n with
  | zero => exact yields_pure trivial
  | succ n ih =>
    refine yields_look.bind fun c _ => ?_
    split
    · exact yields_pure trivial
    · split
      · exact (yields_skip h).bind fun _ _ => ih.bind fun _ _ =>
          yields_pure trivial
      · exact yields_pure trivial

theorem yields_pushCodePoint (digits : List Char) :
    Yields (pushCodePoint digits) Anything E := by
  unfold pushCodePoint
  split
  · split
    · exact yields_modify
    · exact yields_malformedUnicodeEscape h _
  · exact yields_pure trivial

theorem yields_decodeEscape (context : EscapeContext) :
    Yields (decodeEscape context) Anything E := by
  refine (yields_skip h).bind fun opening _ => ?_
  split
  · exact yields_misuse h _
  · refine yields_look.bind fun next _ => ?_
    split
    · exact yields_unexpectedEnd h _
    · unfold decodeAfterBackslash
      split
      · refine (yields_consume h).bind fun _ _ =>
          yields_look.bind fun following _ => ?_
        split
        · exact yields_pushIf _ _
        · exact yields_pure trivial
      · exact (yields_consume h).bind fun _ _ => yields_pure trivial
      · exact (yields_skip h).bind fun _ _ => yields_modify
      · refine (yields_skip h).bind fun _ _ =>
          (yields_readHexDigits h _).bind fun digits _ => ?_
        split
        · exact yields_malformedUnicodeEscape h _
        · exact (yields_appendIf _ _).bind fun _ _ => yields_pushCodePoint h _
      · exact yields_modify
      · exact yields_malformedEscape h _

theorem yields_readLocalEscape : Yields readLocalEscape Anything E := by
  refine (yields_skip h).bind fun opening _ => ?_
  split
  · refine yields_look.bind fun next _ => ?_
    split
    · exact yields_unexpectedEnd h _
    · split
      · exact yields_modify.bind fun _ _ => (yields_consume h).bind fun _ _ =>
          yields_pure trivial
      · split <;> exact yields_malformedEscape h _
  · refine (yields_readHexDigits h _).bind fun digits _ => ?_
    split
    · exact yields_malformedEscape h _
    · exact yields_modify.bind fun _ _ => yields_modify
  · exact yields_misuse h _

/-! ## Bodies -/

theorem yields_referenceBody : Yields referenceBody Anything E := by
  refine yields_iterate (fun _ => yields_look.bind fun c _ => ?_) ()
  split
  · exact yields_unexpectedEnd h _
  · split
    · exact (yields_skip h).thenTurn _
    · split
      · exact (yields_decodeEscape h _).thenTurn _
      · split
        · exact yields_unexpectedLineEnd h _
        · split
          · exact yields_unexpectedCharacter h _ _
          · exact (yields_consume h).thenTurn _

theorem yields_shortBody (sign : Char) :
    Yields (shortBody sign) Anything E := by
  refine yields_iterate (fun _ => yields_look.bind fun c _ => ?_) ()
  split
  · exact yields_unexpectedEnd h _
  · split
    · exact (yields_decodeEscape h _).thenTurn _
    · split
      · exact (yields_skip h).thenTurn _
      · split
        · exact yields_unexpectedLineEnd h _
        · exact (yields_consume h).thenTurn _

theorem yields_longSigns (sign : Char) :
    Yields (longSigns sign .kept)
    AnyTurn E := by
  refine (yields_skip h).bind fun _ _ => (yields_nextIs _).bind fun second _ => ?_
  split
  · refine (yields_skip h).bind fun _ _ => (yields_nextIs _).bind fun third _ => ?_
    split
    · refine (yields_skip h).bind fun _ _ =>
        (yields_consumeWhile h _).bind fun _ _ => ?_
      exact yields_turn _
    · exact yields_modify.thenTurn _
  · exact yields_modify.thenTurn _

theorem yields_longBody (sign : Char) :
    Yields (longBody sign .kept) Anything E := by
  refine yields_iterate (fun _ => yields_look.bind fun c _ => ?_) ()
  split
  · exact yields_unexpectedEnd h _
  · split
    · exact (yields_decodeEscape h _).thenTurn _
    · split
      · exact yields_longSigns h sign
      · split
        · exact (yields_consumeLineEnd h _ _).thenTurn _
        · exact (yields_consume h).thenTurn _

end Steps

/-! ## Tokens -/

section Tokens

variable {E : Fault → Prop} {kind : Kind}

theorem yields_emitAs (kind : Kind) (text : String) :
    Yields (emitAs kind text) (fun t => t.kind = kind) E :=
  yields_get.bind fun _ _ => yields_modify.bind fun _ _ => yields_pure rfl

theorem yields_emit (kind : Kind) :
    Yields (emit kind) (fun t => t.kind = kind) E :=
  yields_get.bind fun _ _ => (yields_set _).bind fun _ _ => yields_emitAs kind _

theorem noWord_emitAs (text : String) (hk : kind.isWord = false) :
    Yields (emitAs kind text) NoWord E :=
  (yields_emitAs kind text).mono (fun t ht => by rw [NoWord, ht, hk])
    fun _ hf => hf

theorem noWord_emit (hk : kind.isWord = false) : Yields (emit kind) NoWord E :=
  (yields_emit kind).mono (fun t ht => by rw [NoWord, ht, hk]) fun _ hf => hf

theorem yields_step {Q : Token → Prop} {read : Option Kind → Scan Token}
    (hmark : ∀ t, t.kind = .beginning ∨ t.kind = .ending → Q t)
    (hread : ∀ previous, Yields (read previous) Q E) :
    Yields (step read) Q E := by
  have hending : Yields emitEnding (fun t => t.kind = .ending) E :=
    yields_modify.bind fun _ _ => yields_emitAs .ending ""
  have hmarks : Yields mark? (fun o => ∀ t, o = some t → Q t) E := by
    refine yields_get.bind fun k _ => ?_
    split
    · refine yields_modify.bind fun _ _ => yields_pure ?_
      rintro t ⟨⟩
      exact hmark _ (Or.inl rfl)
    · refine hending.bind fun t ht => yields_pure ?_
      rintro t' ⟨⟩
      exact hmark _ (Or.inr ht)
    · exact yields_modify.bind fun _ _ => yields_pure nofun
  refine hmarks.bind fun o ho => ?_
  split
  · exact yields_pure (ho _ rfl)
  · exact yields_get.bind fun k _ => hread _

variable (h : Passable E)

include h

theorem yields_single (hk : kind.isWord = false) :
    Yields (single kind) NoWord E :=
  (yields_consume h).bind fun _ _ => noWord_emit hk

theorem yields_comment : Yields comment NoWord E :=
  (yields_consumeWhile h _).bind fun _ _ => noWord_emit rfl

theorem yields_tokenHere {Q : Token → Prop} {dispatch : Char → Scan Token}
    (hend : ∀ t, t.kind = .ending → Q t) (hd : ∀ c, Yields (dispatch c) Q E) :
    Yields (tokenHere dispatch) Q E := by
  refine yields_look.bind fun c _ => ?_
  split
  · refine yields_get.bind fun k _ => ?_
    split
    · refine (yields_failIfBroken h).bind fun _ _ =>
        yields_modify.bind fun _ _ => ?_
      exact (yields_emitAs .ending "").mono hend fun _ hf => hf
    · exact yields_unexpectedEnd h _
  · exact hd _

theorem yields_reference : Yields reference NoWord E :=
  (yields_skip h).bind fun _ _ => (yields_referenceBody h).bind fun _ _ =>
    noWord_emit rfl

theorem yields_referenceDatatype : Yields referenceDatatype NoWord E :=
  (yields_skip h).bind fun _ _ => (yields_referenceBody h).bind fun _ _ =>
    yields_get.bind fun _ _ => noWord_emitAs _ rfl

theorem yields_literal : Yields (literal .kept) NoWord E := by
  refine (yields_skip h).bind fun sign _ =>
    (yields_nextIs _).bind fun second _ => ?_
  split
  · refine (yields_skip h).bind fun _ _ => (yields_nextIs _).bind fun third _ => ?_
    split
    · refine (yields_skip h).bind fun _ _ =>
        (yields_longBody h sign).bind fun _ _ => ?_
      exact noWord_emit rfl
    · exact noWord_emit rfl
  · exact (yields_shortBody h sign).bind fun _ _ => noWord_emit rfl

theorem yields_languageTag : Yields languageTag NoWord E := by
  refine (yields_skip h).bind fun _ _ =>
    (yields_consumeWhile h _).bind fun _ _ => ?_
  refine yields_get.bind fun k _ => ?_
  split
  · exact yields_unexpectedNext h _
  · split
    · exact noWord_emit rfl
    · exact yields_invalidForm h _ _

/-! ## Names -/

theorem yields_gatherName (rule : Name.Rule) (allowDot : Bool) :
    Yields (gatherName rule allowDot) Anything E := by
  have hname : Yields
    (iterate (nameTurn rule allowDot) (advances_nameTurn rule allowDot) false)
      Anything E := by
    refine yields_iterate (fun _ => yields_look.bind fun c _ => ?_) false
    split
    · exact yields_turn _
    · dsimp only
      split
      · exact (yields_readLocalEscape h).thenTurn _
      · split
        · exact (yields_decodeEscape h _).thenTurn _
        · split
          · exact yields_turn _
          · split
            · exact (yields_consume h).thenTurn _
            · exact yields_turn _
  refine hname.bind fun _ _ => yields_get.bind fun k _ => ?_
  split
  · exact yields_backtrack h
  · exact yields_pure trivial

/-- The token of a gathered name, if there is one, is no keyword. -/
theorem yields_nameToken? (rule : Name.Rule) :
    Yields (nameToken? rule) (fun o => ∀ t, o = some t → NoWord t) E := by
  have hsome : ∀ {m : Scan Token}, Yields m NoWord E →
      Yields (do return some (← m)) (fun o : Option Token => ∀ t, o = some t →
          NoWord t) E := by
    intro m hm
    refine hm.bind fun t ht => yields_pure ?_
    rintro u ⟨⟩
    exact ht
  refine yields_get.bind fun k _ => ?_
  dsimp only
  split
  · exact yields_pure nofun
  · split
    · exact hsome (noWord_emit rfl)
    · split
      · split
        · exact hsome (noWord_emit rfl)
        · exact yields_invalidForm h _ _
      · split
        · exact hsome (noWord_emitAs _ rfl)
        · exact yields_invalidForm h _ _

theorem yields_datatype (rule : Name.Rule) :
    Yields (datatype rule) NoWord E := by
  refine (yields_discardBlank h).bind fun _ _ => yields_look.bind fun c _ => ?_
  split
  · exact yields_unexpectedEnd h _
  · split
    · exact yields_referenceDatatype h
    · split
      · exact yields_unexpectedCharacter h _ _
      · refine (yields_gatherName h rule true).bind fun _ _ => ?_
        refine (yields_nameToken? h rule).bind fun o _ => ?_
        split
        · split
          · exact yields_modify.bind fun _ _ => yields_pure rfl
          · exact yields_raise (h.other _ rfl)
        · exact yields_get.bind fun _ _ => yields_invalidForm h _ _

theorem yields_prefixName : Yields prefixName NoWord E := by
  have hprefix : Yields (iterate prefixTurn advances_prefixTurn ())
      Anything E := by
    refine yields_iterate (fun _ => yields_look.bind fun c _ => ?_) ()
    split
    · exact yields_unexpectedEnd h _
    · split
      · exact yields_turn _
      · refine (yields_consume h).bind fun _ _ => ?_
        split <;> exact yields_turn _
  refine (yields_discardBlank h).bind fun _ _ => hprefix.bind fun _ _ => ?_
  refine yields_get.bind fun k _ => ?_
  split
  · exact yields_unexpectedNext h _
  · split
    · exact noWord_emit rfl
    · exact yields_invalidForm h _ _

theorem yields_gatherVariable : Yields gatherVariable Anything E :=
  (yields_skip h).bind fun _ _ => yields_consumeWhile h _

theorem yields_variableToken (sign : Char) :
    Yields (variableToken sign) NoWord E := by
  refine yields_get.bind fun k _ => ?_
  split
  · exact noWord_emit rfl
  · exact yields_invalidForm h _ _

theorem yields_dotOrNumber {readNumber : Scan Token}
    (hn : Yields readNumber NoWord E) :
    Yields (dotOrNumber readNumber) NoWord E := by
  refine (yields_consume h).bind fun _ _ => yields_look.bind fun c _ => ?_
  split
  · split
    · exact hn
    · exact noWord_emit rfl
  · exact noWord_emit rfl

end Tokens

end Scan

end TripleLex

import TripleLex.Proofs.Mirrors

/-!
# Readers on texts with a common beginning

The readers that languages share do the same on two texts with a common
beginning. Behind a literal, a reference, a name or a number, whatever comes next
leaves it as it is, or makes it longer, or is a fault; a blank leaves it as it is.
Escapes are excused inside of quotation signs, where one of them looks at the
character behind it; more has to come there anyway.

A reader that begins with its sign is only asked about places where that sign
stands (`MirrorsAt`).

## Main results

* `mirrors_referenceBody`, `mirrorsAt_literal`, `mirrors_gatherName`,
  `mirrors_number` — the readers.
* `mirrors_nameOr` — a name, or what becomes of a bare word.
-/

namespace TripleLex

namespace Scan

open Cursor (Abreast AtEdge)

/-! ## Places where a character stands -/

section At

variable {α : Type} {B : α → Prop} {R : α → α → Prop} {c : Char} {m : Scan α}

/-- The scan does the same on both texts where the character comes next. -/
structure MirrorsAt (c : Char) (B : α → Prop) (R : α → α → Prop) (m : Scan α) : Prop where
  shrinks : ∀ {k left : Cursor} {a : α}, k.ahead.head? = some c → m k = .ok a left →
    left.source.rest.length ≤ k.source.rest.length
  mirrored : ∀ {z z' : List Char} {k k' left : Cursor} {a : α}, k.ahead.head? = some c →
    Abreast z z' k k' → m k = .ok a left → z.length ≤ left.source.rest.length →
    (B a ∧ AtEdge z z' left) ∨
      ∃ a' left', m k' = .ok a' left' ∧ R a a' ∧ Abreast z z' left left'

theorem Mirrors.at (h : Mirrors B R m) : MirrorsAt c B R m :=
  ⟨fun _ e => h.shrinks e, fun _ ht e hz => h.mirrored ht e hz⟩

/-- What follows the character that a reader begins with. -/
theorem mirrorsAt_skip {f : Char → Scan α} (h : Mirrors B R (f c)) :
    MirrorsAt c B R (skip >>= f) := by
  have hskip : ∀ {k mid : Cursor} {d : Char}, k.ahead.head? = some c → skip k = .ok d mid →
      d = c := by
    intro k mid d hk e
    obtain ⟨cs, hcs⟩ := List.head?_eq_some_iff.1 hk
    rw [skip_cons hcs] at e
    cases e
    rfl
  constructor
  · intro k left a hk e
    obtain ⟨d, mid, e₁, e₂⟩ := bind_ok e
    have h₁ := mirrors_skip.shrinks e₁
    rw [hskip hk e₁] at e₂
    exact Nat.le_trans (h.shrinks e₂) h₁
  · intro z z' k k' left a hk ht e hz
    obtain ⟨d, mid, e₁, e₂⟩ := bind_ok e
    obtain rfl := hskip hk e₁
    have hmid : z.length ≤ mid.source.rest.length := Nat.le_trans hz (h.shrinks e₂)
    rcases mirrors_skip.mirrored ht e₁ hmid with ⟨hf, -⟩ | ⟨_, mid', e₁', rfl, ht'⟩
    · exact hf.elim
    · rw [bind_eq e₁']
      exact h.mirrored ht' e₂ hz

end At

/-- A character that is taken of the source, as none waits. -/
theorem rest_lt_taken {k : Cursor} {c : Char} {cs : List Char} (hp : k.pending = none)
    (hk : k.ahead = c :: cs) : k.taken.source.rest.length < k.source.rest.length := by
  have hrest : k.source.rest = c :: cs := by
    rw [← hk, Cursor.ahead, hp]
    rfl
  rw [Cursor.rest_taken, hp, hrest]
  exact Nat.lt_succ_self _

/-- A scan that begins with a character takes it of the source. -/
theorem rest_lt_consume {α : Type} {B : α → Prop} {R : α → α → Prop} {f : Char → Scan α}
    (hf : ∀ c, Mirrors B R (f c)) {k left : Cursor} {c : Char} {a : α} (hp : k.pending = none)
    (hk : k.ahead.head? = some c) (e : (consume >>= f) k = .ok a left) :
    left.source.rest.length < k.source.rest.length := by
  obtain ⟨cs, hcs⟩ := List.head?_eq_some_iff.1 hk
  rw [bind_eq (consume_cons hcs)] at e
  exact Nat.lt_of_le_of_lt ((hf c).shrinks e) (rest_lt_taken hp hcs)

/-! ## Tokens -/

section Tokens

variable {kind : Kind}

theorem keeps_emitAs (text : String) : Keeps (emitAs kind text) := by
  intro k t left e
  cases e
  exact ⟨Nat.le_refl _, False.elim⟩

theorem keeps_emit : Keeps (emit kind) := by
  intro k t left e
  cases e
  exact ⟨Nat.le_refl _, False.elim⟩

theorem mirrors_single : Mirrors Never Agree (single kind) :=
  mirrors_consume.bind fun _ => mirrors_emit kind

/-- A comment may go on behind the edge. -/
theorem mirrors_comment : Mirrors Always Agree comment :=
  mirrors_bind mirrors_consumeWhile_always (fun _ => (mirrors_emit _).excuse)
    fun _ _ => keeps_emit.always

/-- The token after all text may be made at the edge only if nothing is left. -/
theorem mirrors_ending (expected : String) : Mirrors Never Agree (ending expected) := by
  refine mirrors_get (fun k k' hw => ?_) fun k => ?_
  · rw [Cursor.isEmpty_congr hw]
  · split
    · exact mirrors_failIfBroken.bind fun _ => mirrors_startToken.bind fun _ =>
        mirrors_emitAs _ _
    · exact mirrors_fails fun _ => makes_unexpectedEnd _

end Tokens

/-! ## Escapes -/

section Escapes

theorem mirrors_readHexDigits (n : Nat) : Mirrors Never Eq (readHexDigits n) := by
  induction n with
  | zero => exact mirrors_pure rfl
  | succ n ih =>
    refine mirrors_look (fun d => ?_) fun d b hb => ?_
    · split
      · exact mirrors_pure rfl
      · split
        · exact mirrors_skip.bind fun _ => ih.bind fun _ => mirrors_pure rfl
        · exact mirrors_pure rfl
    · have hblank : Name.isHexDigit b = false := by rcases hb with rfl | rfl <;> decide
      simp only [hblank]
      cases d with
      | none => exact Or.inl rfl
      | some c =>
        cases hc : Name.isHexDigit c with
        | false => exact Or.inl (by simp [hc])
        | true =>
          simp only [hc, if_true]
          exact Or.inr (takes_skip.bind fun _ => (keeps_readHexDigits n).bind fun _ =>
            keeps_pure _)

theorem mirrors_pushCodePoint (digits : List Char) :
    Mirrors Never Eq (pushCodePoint digits) := by
  unfold pushCodePoint
  split
  · split
    · exact mirrors_push _
    · exact mirrors_fails fun _ _ _ e => nomatch e
  · exact mirrors_pure rfl

/-- Whether a doubled backslash stays doubled depends on what follows; names have
no such escape. -/
theorem mirrors_decodeAfterBackslash (context : EscapeContext) (next : Char) :
    Mirrors (fun _ => context ≠ .name) Eq (decodeAfterBackslash context next) := by
  unfold decodeAfterBackslash
  split
  · rename_i hnext
    have hcontext : context ≠ .name := by
      rintro rfl
      unfold Escape.ofChar at hnext
      split at hnext <;> cases hnext
    refine mirrors_consume.bind fun _ => mirrors_look_spends ?_ fun d => ?_
    · refine Spends.mono (p := fun _ => False) (keeps_look.bind fun d => ?_)
        fun _ ha => ha hcontext
      split
      · exact keeps_pushIf _ _
      · exact keeps_pure _
    · split
      · exact (mirrors_pushIf _ _).excuse
      · exact mirrors_pure rfl
  · exact mirrors_consume.bind fun _ => mirrors_pure rfl
  · exact mirrors_skip.bind fun _ => (mirrors_push _).excuse
  · refine mirrors_skip.bind fun _ => (mirrors_readHexDigits _).bind fun digits => ?_
    split
    · exact mirrors_fails fun _ _ _ e => nomatch e
    · exact (mirrors_appendIf _ _).bind fun _ => (mirrors_pushCodePoint _).excuse
  · exact (mirrors_push _).excuse
  · exact mirrors_fails fun _ _ _ e => nomatch e

/-- What is an escape, or is refused, is not had for nothing. -/
theorem takes_decodeAfterBackslash {context : EscapeContext} {next : Char}
    (h : Escape.ofChar context next ≠ .none) : Takes (decodeAfterBackslash context next) := by
  unfold decodeAfterBackslash
  split
  · refine takes_consume.bind fun _ => keeps_look.bind fun c => ?_
    split
    · exact keeps_pushIf _ _
    · exact keeps_pure _
  · exact takes_consume.bind fun _ => keeps_pure _
  · exact takes_skip.bind fun _ => keeps_push _
  · refine takes_skip.bind fun _ => (keeps_readHexDigits _).bind fun digits => ?_
    split
    · exact spends_malformedUnicodeEscape _
    · exact (keeps_appendIf _ _).bind fun _ => keeps_pushCodePoint _
  · exact absurd ‹_› h
  · exact spends_malformedEscape _

/-- In a name nothing is a backslash that could be text. -/
theorem ofChar_name_ne_none (c : Char) : Escape.ofChar .name c ≠ .none := by
  unfold Escape.ofChar
  split <;> nofun

theorem mirrors_decodeEscape (context : EscapeContext) :
    Mirrors (fun _ => context ≠ .name) Eq (decodeEscape context) := by
  refine mirrors_skip.bind fun opening => ?_
  split
  · exact mirrors_fails fun _ _ _ e => nomatch e
  · refine mirrors_look (fun d => ?_) fun d b hb => ?_
    · split
      · exact mirrors_fails fun _ => makes_unexpectedEnd _
      · exact mirrors_decodeAfterBackslash _ _
    · cases d with
      | none => exact Or.inr (spends_unexpectedEnd _)
      | some next =>
        by_cases hnext : Escape.ofChar context next = .none
        · -- the backslash is text, whatever follows it
          have hblank : Escape.ofChar context b = .none := by
            cases context with
            | name => exact absurd hnext (ofChar_name_ne_none next)
            | _ => rcases hb with rfl | rfl <;> rfl
          left
          simp only [decodeAfterBackslash, hnext, hblank]
        · exact Or.inr (takes_decodeAfterBackslash hnext).spends

theorem mirrors_readLocalEscape : Mirrors Never Eq readLocalEscape := by
  refine mirrors_skip.bind fun opening => ?_
  split
  · refine mirrors_look_spends (keeps_look.bind fun d => ?_) fun d => ?_
    · split
      · exact spends_unexpectedEnd _
      · split
        · exact (keeps_push _).bind fun _ => takes_consume.bind fun _ => keeps_pure _
        · split
          · exact spends_malformedEscape _
          · exact spends_malformedEscape _
    · split
      · exact mirrors_fails fun _ => makes_unexpectedEnd _
      · split
        · exact (mirrors_push _).bind fun _ => mirrors_consume.bind fun _ => mirrors_pure rfl
        · split
          · exact mirrors_fails fun _ _ _ e => nomatch e
          · exact mirrors_fails fun _ _ _ e => nomatch e
  · refine (mirrors_readHexDigits _).bind fun digits => ?_
    split
    · exact mirrors_fails fun _ _ _ e => nomatch e
    · exact (mirrors_push _).bind fun _ => mirrors_append _
  · exact mirrors_fails fun _ _ _ e => nomatch e

/-- An escape of a literal or a reference is followed by more of it. -/
theorem mirrors_escapeTurn (context : EscapeContext) :
    Mirrors Turn.GoesOn Eq (do
      decodeEscape context
      return .again () : Scan (Turn Unit Unit)) :=
  mirrors_bind (mirrors_decodeEscape context) (fun _ => mirrors_pure rfl)
    fun _ _ => spends_pure fun hd => hd trivial

end Escapes

/-! ## References and literals -/

section Quoted

theorem mirrors_referenceBody : Mirrors Never Eq referenceBody := by
  refine mirrors_iterate_takes (fun u => ?_) takes_referenceTurn ()
  refine mirrors_look_spends (takes_referenceTurn u).spends fun d => ?_
  split
  · exact mirrors_fails fun _ => makes_unexpectedEnd _
  · split
    · exact mirrors_skip.bind fun _ => mirrors_pure rfl
    · split
      · exact mirrors_escapeTurn _
      · split
        · exact mirrors_fails fun _ _ _ e => nomatch e
        · split
          · exact mirrors_fails fun _ => makes_unexpectedCharacter _ _
          · exact mirrors_consume.bind fun _ => mirrors_pure rfl

theorem takes_referenceBody : Takes referenceBody := by
  unfold referenceBody
  rw [iterate_eq]
  refine (takes_referenceTurn ()).bind fun r => ?_
  split
  · exact keeps_iterate _
  · exact keeps_pure _

theorem mirrors_reference : Mirrors Never Agree reference :=
  mirrors_skip.bind fun _ => mirrors_referenceBody.bind fun _ => mirrors_emit _

theorem mirrors_referenceDatatype : Mirrors Never Agree referenceDatatype := by
  refine mirrors_skip.bind fun _ => mirrors_referenceBody.bind fun _ => ?_
  refine mirrors_get (fun k k' hw => ?_) fun k => mirrors_emitAs _ _
  rw [Cursor.text_congr hw]

theorem mirrors_shortBody (sign : Char) : Mirrors Never Eq (shortBody sign) := by
  refine mirrors_iterate_takes (fun u => ?_) (takes_shortTurn sign) ()
  refine mirrors_look_spends (takes_shortTurn sign u).spends fun d => ?_
  split
  · exact mirrors_fails fun _ => makes_unexpectedEnd _
  · split
    · exact mirrors_escapeTurn _
    · split
      · exact mirrors_skip.bind fun _ => mirrors_pure rfl
      · split
        · exact mirrors_fails fun _ _ _ e => nomatch e
        · exact mirrors_consume.bind fun _ => mirrors_pure rfl

variable {sign : Char}

theorem mirrors_surplusSigns (hs : sign ≠ ' ') (hl : sign ≠ '\n') (surplus : Surplus) :
    Mirrors Never Eq (surplusSigns sign surplus) := by
  cases surplus with
  | refused =>
    refine mirrors_nextIs hs hl (fun more => ?_) (spends_violation _)
    split
    · exact mirrors_fails fun _ => makes_violation _
    · exact mirrors_pure rfl
  | kept =>
    refine mirrors_consumeWhile (p := fun c => c == sign) ?_ ?_
    · exact beq_eq_false_iff_ne.2 hs.symm
    · exact beq_eq_false_iff_ne.2 hl.symm

theorem mirrors_longSigns (hs : sign ≠ ' ') (hl : sign ≠ '\n') (surplus : Surplus) :
    Mirrors Turn.GoesOn Eq (longSigns sign surplus) := by
  have hthird : Takes (do
      let _ ← skip
      surplusSigns sign surplus
      return .done () : Scan (Turn Unit Unit)) :=
    takes_skip.bind fun _ => (keeps_surplusSigns _ _).bind fun _ => keeps_pure _
  refine mirrors_skip.bind fun _ => mirrors_nextIs hs hl (fun more => ?_) ?_
  · split
    · refine mirrors_skip.bind fun _ => mirrors_nextIs hs hl (fun more => ?_) hthird.spends
      split
      · exact mirrors_skip.bind fun _ => (mirrors_surplusSigns hs hl _).bind fun _ =>
          mirrors_pure rfl
      · exact (mirrors_append _).bind fun _ => mirrors_pure rfl
    · exact (mirrors_push _).bind fun _ => mirrors_pure rfl
  · refine takes_skip.bind fun _ => (keeps_nextIs _).bind fun more => ?_
    split
    · exact hthird.keeps
    · exact (keeps_append _).bind fun _ => keeps_pure _

theorem mirrors_longBody (hs : sign ≠ ' ') (hl : sign ≠ '\n') (surplus : Surplus) :
    Mirrors Never Eq (longBody sign surplus) := by
  refine mirrors_iterate_takes (fun u => ?_) (takes_longTurn sign surplus) ()
  refine mirrors_look_spends (takes_longTurn sign surplus u).spends fun d => ?_
  split
  · exact mirrors_fails fun _ => makes_unexpectedEnd _
  · split
    · exact mirrors_escapeTurn _
    · split
      · exact mirrors_longSigns hs hl surplus
      · split
        · exact mirrors_bind (mirrors_consumeLineEnd _) (fun _ => mirrors_pure rfl)
            fun _ _ => spends_pure fun hd => hd trivial
        · exact mirrors_consume.bind fun _ => mirrors_pure rfl

/-- A literal of either form, where its sign stands. -/
theorem mirrorsAt_literal (hs : sign ≠ ' ') (hl : sign ≠ '\n') (surplus : Surplus) :
    MirrorsAt sign Never Agree (literal surplus) := by
  refine mirrorsAt_skip (mirrors_nextIs hs hl (fun second => ?_) ?_)
  · split
    · refine mirrors_skip.bind fun _ => mirrors_nextIs hs hl (fun third => ?_) ?_
      · split
        · exact mirrors_skip.bind fun _ => (mirrors_longBody hs hl surplus).bind fun _ =>
            mirrors_emit _
        · exact mirrors_emit _
      · exact takes_skip.bind fun _ => (keeps_iterate _).bind fun _ => keeps_emit
    · exact (mirrors_shortBody sign).bind fun _ => mirrors_emit _
  · refine takes_skip.bind fun _ => (keeps_nextIs _).bind fun third => ?_
    split
    · exact takes_skip.keeps.bind fun _ => (keeps_iterate _).bind fun _ => keeps_emit
    · exact keeps_emit

end Quoted

/-! ## Names -/

section Names

/-- What ends a name ends it on both texts, and so does a blank. -/
theorem mirrors_nameTurn (rule : Name.Rule) (allowDot seenColon : Bool) :
    Mirrors Never Eq (nameTurn rule allowDot seenColon) := by
  have hescape : Mirrors Never Eq (decodeEscape .name) :=
    (mirrors_decodeEscape .name).mono (fun _ h => h rfl) fun _ _ h => h
  refine mirrors_look (fun d => ?_) fun d b hb => ?_
  · split
    · exact mirrors_pure rfl
    · dsimp only
      split
      · exact mirrors_readLocalEscape.bind fun _ => mirrors_pure rfl
      · split
        · exact hescape.bind fun _ => mirrors_pure rfl
        · split
          · exact mirrors_pure rfl
          · split
            · exact mirrors_consume.bind fun _ => mirrors_pure rfl
            · exact mirrors_pure rfl
  · have hblank : (b == '\\') = false ∧ (b == '%') = false ∧ (b == '.') = false ∧
        Name.isScanned b = false := by
      rw [Name.isScanned_ascii (by rcases hb with rfl | rfl <;> decide)]
      rcases hb with rfl | rfl <;> decide
    obtain ⟨h₁, h₂, h₃, h₄⟩ := hblank
    simp only [h₁, h₂, h₃, h₄, Bool.or_self, Bool.false_and, Bool.false_eq_true, if_false]
    cases d with
    | none => exact Or.inl rfl
    | some c =>
      dsimp only
      split
      · exact Or.inr (takes_readLocalEscape.bind fun _ => keeps_pure _)
      · split
        · exact Or.inr ((takes_decodeEscape _).bind fun _ => keeps_pure _)
        · split
          · exact Or.inl rfl
          · split
            · exact Or.inr (takes_consume.bind fun _ => keeps_pure _)
            · exact Or.inl rfl

theorem mirrors_gatherName (rule : Name.Rule) (allowDot : Bool) :
    Mirrors Never Eq (gatherName rule allowDot) := by
  refine Mirrors.bind (Mirrors.iterate (mirrors_nameTurn rule allowDot) false) fun _ => ?_
  refine mirrors_get (fun k k' hw => by rw [hw]) fun k => ?_
  split
  · exact mirrors_backtrack
  · exact mirrors_pure rfl

/-- Two gathered names say the same, or neither of them is a name. -/
inductive AgreeIfAny : Option Token → Option Token → Prop
  | none : AgreeIfAny none none
  | some {t t' : Token} (h : Agree t t') : AgreeIfAny (some t) (some t')

theorem mirrors_someOf {m : Scan Token} (h : Mirrors Never Agree m) :
    Mirrors Never AgreeIfAny (do return some (← m)) where
  shrinks e := by
    obtain ⟨t, mid, e₁, e₂⟩ := bind_ok e
    cases e₂
    exact h.shrinks e₁
  mirrored ht e hz := by
    obtain ⟨t, mid, e₁, e₂⟩ := bind_ok e
    cases e₂
    rcases h.mirrored ht e₁ hz with ⟨hf, -⟩ | ⟨t', left', e', hr, ht'⟩
    · exact hf.elim
    · exact Or.inr ⟨some t', left', bind_eq e', .some hr, ht'⟩

theorem mirrors_nameToken? (rule : Name.Rule) :
    Mirrors Never AgreeIfAny (nameToken? rule) := by
  refine mirrors_get (fun k k' hw => ?_) fun k => ?_
  · rw [Cursor.value_congr hw, Cursor.text_congr hw]
  · dsimp only
    split
    · exact mirrors_pure .none
    · split
      · exact mirrors_someOf (mirrors_emit _)
      · split
        · split
          · exact mirrors_someOf (mirrors_emit _)
          · exact mirrors_fails fun _ => makes_invalidForm _ _
        · split
          · exact mirrors_someOf (mirrors_emitAs _ _)
          · exact mirrors_fails fun _ => makes_invalidForm _ _

/-- What is made of a gathered name: the same of two that agree. -/
theorem mirrors_nameThen {rule : Name.Rule} {f : Option Token → Scan Token}
    (g : ∀ o, Mirrors Never Agree (f o))
    (hf : ∀ t t', Agree t t' → ∀ k u left, f (some t) k = .ok u left →
      ∃ u', f (some t') k = .ok u' left ∧ Agree u u') :
    Mirrors Never Agree (nameToken? rule >>= f) where
  shrinks e := by
    obtain ⟨o, mid, e₁, e₂⟩ := bind_ok e
    exact Nat.le_trans ((g o).shrinks e₂) ((mirrors_nameToken? rule).shrinks e₁)
  mirrored {z z' k k' left u} ht e hz := by
    obtain ⟨o, mid, e₁, e₂⟩ := bind_ok e
    have hmid : z.length ≤ mid.source.rest.length := Nat.le_trans hz ((g o).shrinks e₂)
    rcases (mirrors_nameToken? rule).mirrored ht e₁ hmid with ⟨hn, -⟩ | ⟨o', mid', e₁', hr, ht'⟩
    · exact hn.elim
    · rcases (g o).mirrored ht' e₂ hz with ⟨hn, -⟩ | ⟨u', left', e₂', hu, ht''⟩
      · exact hn.elim
      · rw [bind_eq e₁']
        cases hr with
        | none => exact Or.inr ⟨u', left', e₂', hu, ht''⟩
        | some h =>
          obtain ⟨w, e₃, hw⟩ := hf _ _ h mid' u' left' e₂'
          exact Or.inr ⟨w, left', e₃, hw.trans hu, ht''⟩

/-- A gathered name, or what becomes of a bare word. -/
theorem mirrors_nameOr {rule : Name.Rule} {other : Scan Token}
    (h : Mirrors Never Agree other) :
    Mirrors Never Agree (do
      match ← nameToken? rule with
      | some token => return token
      | none => other) := by
  refine mirrors_nameThen (fun o => ?_) fun t t' ht k u left e => ?_
  · split
    · exact mirrors_pure rfl
    · exact h
  · cases e
    exact ⟨t', rfl, ht⟩

theorem mirrors_nameDatatype (rule : Name.Rule) : Mirrors Never Agree (nameDatatype rule) := by
  refine (mirrors_gatherName rule true).bind fun _ => ?_
  refine mirrors_nameThen (fun o => ?_) fun t t' ht k u left e => ?_
  · split
    · split
      · exact (mirrors_setPrevious _).bind fun _ => mirrors_pure rfl
      · exact mirrors_fails fun _ => makes_unexpectedToken _ _
    · exact mirrors_fails fun _ => makes_get (makes_invalidForm _ _)
  · have hkind : t'.kind = t.kind := congrArg Prod.fst ht
    have htext : t'.text = t.text := congrArg Prod.snd ht
    dsimp only at e ⊢
    rw [hkind]
    split at e
    · rename_i hname
      cases e
      refine ⟨{ t' with kind := .datatype }, ?_, congrArg (Prod.mk Kind.datatype) htext⟩
      rw [if_pos hname]
      rfl
    · cases e

/-- A blank ends a prefix. -/
theorem mirrors_prefixTurn (u : Unit) : Mirrors Never Eq (prefixTurn u) := by
  refine mirrors_look (fun d => ?_) fun d b hb => ?_
  · split
    · exact mirrors_fails fun _ => makes_unexpectedEnd _
    · split
      · exact mirrors_pure rfl
      · refine mirrors_consume.bind fun _ => ?_
        split
        · exact mirrors_pure rfl
        · exact mirrors_pure rfl
  · have hblank : Unicode.isBlank b = true := by rcases hb with rfl | rfl <;> decide
    simp only [hblank, Bool.true_or, if_true]
    cases d with
    | none => exact Or.inr (spends_unexpectedEnd _)
    | some c =>
      dsimp only
      split
      · exact Or.inl rfl
      · refine Or.inr (takes_consume.bind fun _ => ?_)
        split <;> exact keeps_pure _

theorem mirrors_directiveWord : Mirrors Never Eq directiveWord := by
  refine mirrors_consume.bind fun _ => Mirrors.bind ?_ fun _ => ?_
  · exact mirrors_letters
  · refine mirrors_get (fun k k' hw => by rw [Cursor.value_congr hw]) fun k => ?_
    split
    · exact mirrors_fails fun _ => makes_unexpectedNext _
    · exact mirrors_pure rfl

theorem mirrors_gatherVariable : Mirrors Never Eq gatherVariable :=
  mirrors_skip.bind fun _ => mirrors_consumeWhile (by decide) (by decide)

theorem mirrors_variableToken (sign : Char) : Mirrors Never Agree (variableToken sign) := by
  refine mirrors_get (fun k k' hw => by rw [Cursor.value_congr hw]) fun k => ?_
  split
  · exact mirrors_emit _
  · exact mirrors_fails fun _ => makes_invalidForm _ _

end Names

/-! ## Annotations -/

section Annotations

theorem mirrors_languageTag : Mirrors Never Agree languageTag := by
  refine mirrors_skip.bind fun _ => Mirrors.bind ?_ fun _ => ?_
  · exact mirrors_consumeWhile (Name.isTagChar_ascii (by decide)) (Name.isTagChar_ascii (by decide))
  · refine mirrors_get (fun k k' hw => ?_) fun k => ?_
    · rw [Cursor.value_congr hw, Cursor.text_congr hw, Cursor.isEmpty_congr hw]
    · split
      · exact mirrors_fails fun _ => makes_unexpectedNext _
      · split
        · exact mirrors_emit _
        · exact mirrors_fails fun _ => makes_invalidForm _ _

theorem mirrors_hatHat : Mirrors Never Agree hatHat := by
  refine mirrors_consume.bind fun _ => mirrors_look_spends (keeps_look.bind fun d => ?_) fun d => ?_
  · split
    · exact spends_unexpectedEnd _
    · split
      · exact takes_consume.bind fun _ => keeps_emit
      · exact spends_unexpectedCharacter _ _
  · split
    · exact mirrors_fails fun _ => makes_unexpectedEnd _
    · split
      · exact mirrors_consume.bind fun _ => mirrors_emit _
      · exact mirrors_fails fun _ => makes_unexpectedCharacter _ _

end Annotations

/-! ## Numbers -/

section Numbers

theorem mirrors_consumeAnd {σ α : Type} {B : Turn σ α → Prop} (next : σ) :
    Mirrors B Eq (consumeAnd next : Scan (Turn σ α)) :=
  mirrors_consume.bind fun _ => mirrors_pure rfl

/-- A blank ends a number. -/
theorem mirrors_numberTurn (s : NumberSoFar) : Mirrors Never Eq (numberTurn s) := by
  refine mirrors_look (fun d => ?_) fun d b hb => ?_
  · split
    · exact mirrors_pure rfl
    · split
      · exact mirrors_consumeAnd _
      · split
        · split
          · exact mirrors_pure rfl
          · exact mirrors_consumeAnd _
        · split
          · split
            · exact mirrors_fails fun _ => makes_violation _
            · refine mirrors_get (fun k k' hw => by rw [Cursor.admitsSign_congr hw]) fun k => ?_
              split
              · exact mirrors_fails fun _ => makes_violation _
              · exact mirrors_consumeAnd _
          · split
            · split
              · exact mirrors_fails fun _ => makes_violation _
              · refine mirrors_get (fun k k' hw => by rw [Cursor.isEmpty_congr hw]) fun k => ?_
                split
                · exact mirrors_fails fun _ => makes_violation _
                · exact mirrors_consumeAnd _
            · exact mirrors_pure rfl
  · have hblank : b.isDigit = false ∧ (b == '.') = false ∧ (b == '+') = false ∧
        (b == '-') = false ∧ Number.isExponentMark b = false := by
      rcases hb with rfl | rfl <;> decide
    obtain ⟨h₁, h₂, h₃, h₄, h₅⟩ := hblank
    simp only [h₁, h₂, h₃, h₄, h₅, Bool.or_self, Bool.false_eq_true, if_false]
    cases d with
    | none => exact Or.inl rfl
    | some c =>
      dsimp only
      split
      · exact Or.inr (takes_consume.bind fun _ => keeps_pure _)
      · split
        · split
          · exact Or.inl rfl
          · exact Or.inr (takes_consume.bind fun _ => keeps_pure _)
        · split
          · split
            · exact Or.inr (spends_violation _)
            · refine Or.inr (keeps_get.bind fun k => ?_)
              split
              · exact spends_violation _
              · exact takes_consume.bind fun _ => keeps_pure _
          · split
            · split
              · exact Or.inr (spends_violation _)
              · refine Or.inr (keeps_get.bind fun k => ?_)
                split
                · exact spends_violation _
                · exact takes_consume.bind fun _ => keeps_pure _
            · exact Or.inl rfl

/-- What has been gathered is judged. -/
theorem mirrors_numberEnd : Mirrors Never Agree (do
    giveBackDot
    let k ← get
    if Number.isPlainLiteral k.value then
      emit .plainLiteral
    else
      invalidForm "Plain Literal" k.text) := by
  refine mirrors_giveBackDot.bind fun _ => mirrors_get (fun k k' hw => ?_) fun k => ?_
  · rw [Cursor.value_congr hw, Cursor.text_congr hw]
  · split
    · exact mirrors_emit _
    · exact mirrors_fails fun _ => makes_invalidForm _ _

theorem mirrors_number : Mirrors Never Agree number :=
  mirrors_get (fun k k' hw => by rw [Cursor.value_congr hw]) fun _ =>
    Mirrors.bind (Mirrors.iterate mirrors_numberTurn _) fun _ => mirrors_numberEnd

/-! ### Digits behind a dot

A dot at the end of a number is given back, so that what has been read of the
source is not what is missing ahead. -/

/-- A turn that takes the next character takes it of the source, if none waits. -/
theorem exists_again {σ α : Type} {f : Option Char → Scan (Turn σ α)} {s : σ} {k : Cursor}
    {c : Char} (hp : k.pending = none) (hk : k.ahead.head? = some c)
    (hf : f (some c) = consumeAnd s) :
    ∃ mid, (look >>= f) k = .ok (.again s) mid ∧
      mid.source.rest.length < k.source.rest.length := by
  obtain ⟨cs, hcs⟩ := List.head?_eq_some_iff.1 hk
  have hlooked : k.looked.ahead = c :: cs := k.ahead_looked.trans hcs
  refine ⟨(k.looked.moved c).push c, ?_, ?_⟩
  · rw [bind_eq (look_eq k), hk, hf]
    exact bind_eq (consume_cons hlooked)
  · rw [← k.rest_looked]
    exact rest_lt_taken (k.pending_looked.trans hp) hlooked

/-- A repetition whose first turn takes a character of the source, and what comes
after it. -/
theorem rest_lt_of_turn {σ α β : Type} {turn : σ → Scan (Turn σ α)}
    {h : ∀ s, Advances (turn s)} {T : Turn σ α → Prop} {B : β → Prop} {R : β → β → Prop}
    {f : α → Scan β} (ht : ∀ s, Mirrors T Eq (turn s)) (hf : ∀ a, Mirrors B R (f a))
    {s s' : σ} {k left : Cursor} {b : β}
    (hturn : ∃ mid, turn s k = .ok (.again s') mid ∧
      mid.source.rest.length < k.source.rest.length)
    (e : (iterate turn h s >>= f) k = .ok b left) :
    left.source.rest.length < k.source.rest.length := by
  obtain ⟨mid, e₁, hlt⟩ := hturn
  obtain ⟨a, last, e₂, e₃⟩ := bind_ok e
  have h₃ := (hf a).shrinks e₃
  rw [iterate_eq, bind_eq e₁] at e₂
  have h₂ := shrinks_iterate ht e₂
  omega

/-- What reads numbers takes the digit that one begins with. -/
def TakesDigit (m : Scan Token) : Prop :=
  ∀ {k left : Cursor} {c : Char} {t : Token}, k.pending = none → k.ahead.head? = some c →
    c.isDigit = true → m k = .ok t left → left.source.rest.length < k.source.rest.length

theorem takesDigit_number : TakesDigit number := by
  intro k left c t hp hk hc e
  exact rest_lt_of_turn mirrors_numberTurn (fun _ => mirrors_numberEnd)
    (exists_again hp hk (if_pos hc)) (get_bind_ok e)

/-- A dot stands alone before a blank; before a digit it begins a number. -/
theorem mirrors_dotOrNumber {readNumber : Scan Token} (h : Mirrors Never Agree readNumber)
    (hd : TakesDigit readNumber) : Mirrors Never Agree (dotOrNumber readNumber) := by
  refine mirrors_consume.bind fun _ =>
    mirrors_look_rest (fun d => ?_) fun {d b} hb {_ _ _} hp hk e => ?_
  · split
    · split
      · exact h
      · exact mirrors_emit _
    · exact mirrors_emit _
  · have hblank : b.isDigit = false := by rcases hb with rfl | rfl <;> decide
    simp only [hblank, Bool.false_eq_true, if_false]
    cases d with
    | none => exact Or.inl rfl
    | some c =>
      by_cases hc : c.isDigit = true
      · simp only [hc, if_true] at e
        exact Or.inr (hd hp hk hc e)
      · left
        simp only [hc, Bool.false_eq_true, if_false]

end Numbers

end Scan

end TripleLex

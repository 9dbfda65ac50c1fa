import TripleLex.Proofs.MirroredReaders
import TripleLex.Proofs.Progress
import TripleLex.Proofs.Soundness

/-!
# Graph machines on texts with a common beginning

A token that a machine reads within what two texts have in common is read from
both. The gap before it cannot end at the edge, since the token would take its
first character from behind it (`gap_mirrored`). The one exception is a comment
that ends at the edge, which may go on behind it (`Comments`).

## Main results

* `Scan.behindGap_mirrored` — a token behind a gap.
* `Scan.Comments.mirrored` — a token of a dispatch that reads comments.
* `comments_dispatch` of each format — what its dispatch does with comments.
-/

namespace TripleLex

open Scan
open Cursor (Abreast AtEdge Lexed Begun)

namespace Scan

/-! ## Behind a gap -/

/-- Away from the edge, the scan makes the same token on both texts. -/
structure MirrorsInside (m : Scan Token) : Prop where
  shrinks : ∀ {k left : Cursor} {t : Token}, m k = .ok t left →
    left.source.rest.length ≤ k.source.rest.length
  mirrored : ∀ {z z' : List Char} {k k' left : Cursor} {t : Token}, ¬ AtEdge z z' k →
    Abreast z z' k k' → m k = .ok t left → z.length ≤ left.source.rest.length →
    ∃ t' left', m k' = .ok t' left' ∧ Agree t t' ∧ Abreast z z' left left'

theorem Mirrors.inside {m : Scan Token} (h : Mirrors Never Agree m) : MirrorsInside m where
  shrinks := h.shrinks
  mirrored _ ht e hz := (h.mirrored ht e hz).resolve_left fun hn => hn.1

/-- Away from the edge the next character is the same. -/
theorem mirrorsInside_look {f : Option Char → Scan Token}
    (h : ∀ d, Mirrors Never Agree (f d)) : MirrorsInside (look >>= f) where
  shrinks e := shrinks_look h e
  mirrored hnot ht e hz := by
    have hleft := look_mirrored h ht e hz fun _ hedge _ _ => absurd hedge hnot
    exact hleft.resolve_left fun hn => hn.1

/-- A scan that passes over the characters of a class, as far as they go. -/
structure IsGap (p : Char → Bool) (g : Scan Unit) : Prop where
  mirrors : Mirrors Always Eq g
  passes : ∀ {k mid : Cursor}, g k = .ok () mid → k.Passes (k.ahead.takeWhile p) mid

theorem isGap_discardBlank : IsGap Unicode.isBlank discardBlank :=
  ⟨mirrors_discardBlank, fun e => (discardBlank_ok e).1⟩

section Gap

variable {p : Char → Bool} {g : Scan Unit} {f : Scan Token} {z z' : List Char}
  {k k' left : Cursor} {t : Token}

/-- A gap before a token does not end at the edge. -/
theorem gap_mirrored (hg : IsGap p g) (hfind : Finds Lexed p k (g >>= fun _ => f))
    (hs : ∀ {mid}, f mid = .ok t left → left.source.rest.length ≤ mid.source.rest.length)
    (ht : Abreast z z' k k') (e : (g >>= fun _ => f) k = .ok t left)
    (hz : z.length ≤ left.source.rest.length) (hend : t.kind = .ending → z'.head? = z.head?) :
    ∃ mid mid', g k = .ok () mid ∧ g k' = .ok () mid' ∧ Abreast z z' mid mid' ∧
      ¬ AtEdge z z' mid ∧ f mid = .ok t left := by
  obtain ⟨_, mid, e₁, e₂⟩ := bind_ok e
  have hnot : ¬ AtEdge z z' mid := by
    intro hedge
    obtain ⟨start, hp, h⟩ := hfind t left e
    have hstart : start.ahead = mid.ahead :=
      List.append_cancel_left (hp.ahead.symm.trans (hg.passes e₁).ahead)
    rcases h with h | ⟨cs, h⟩
    · refine hedge.parted (hend ?_)
      rw [h.token]
    · have hlength := h.toMoves.length_add
      have hpos : 0 < cs.length := List.length_pos_iff.2 h.nonempty
      rw [hstart] at hlength
      exact hedge.not_lt (by omega) hz
  rcases hg.mirrors.mirrored ht e₁ (Nat.le_trans hz (hs e₂)) with
    ⟨-, hedge⟩ | ⟨_, mid', e₁', -, ht'⟩
  · exact absurd hedge hnot
  · exact ⟨mid, mid', e₁, e₁', ht', hnot, e₂⟩

/-- A token behind a gap. -/
theorem behindGap_mirrored (hg : IsGap p g) (hfind : Finds Lexed p k (g >>= fun _ => f))
    (hf : MirrorsInside f) (ht : Abreast z z' k k') (e : (g >>= fun _ => f) k = .ok t left)
    (hz : z.length ≤ left.source.rest.length) (hend : t.kind = .ending → z'.head? = z.head?) :
    ∃ t' left', (g >>= fun _ => f) k' = .ok t' left' ∧ Agree t t' ∧ Abreast z z' left left' := by
  obtain ⟨mid, mid', -, e₁', ht', hnot, e₂⟩ := gap_mirrored hg hfind hf.shrinks ht e hz hend
  rw [bind_eq e₁']
  exact hf.mirrored hnot ht' e₂ hz

end Gap

/-! ## Comments -/

/-- A dispatch by the next character that comments are read by. -/
structure Comments (dispatch : Char → Scan Token) : Prop where
  hash : dispatch '#' = comment
  other : ∀ c, c ≠ '#' → MirrorsAt c Never Agree (dispatch c)

/-- Behind blank characters a comment was read. -/
def ReadsComment (k : Cursor) (t : Token) (left : Cursor) : Prop :=
  ∃ mid, discardBlank k = .ok () mid ∧ mid.ahead.head? = some '#' ∧
    comment mid.looked = .ok t left

section Dispatch

variable {dispatch : Char → Scan Token} {z z' : List Char} {k k' left : Cursor} {t : Token}

theorem Comments.shrinks (hd : Comments dispatch) (e : tokenHere dispatch k = .ok t left) :
    left.source.rest.length ≤ k.source.rest.length := by
  unfold tokenHere at e
  rw [bind_eq (look_eq k)] at e
  rw [← k.rest_looked]
  cases hk : k.ahead.head? with
  | none =>
    rw [hk] at e
    exact (mirrors_ending _).shrinks e
  | some c =>
    rw [hk] at e
    dsimp only at e
    by_cases hc : c = '#'
    · rw [hc, hd.hash] at e
      exact mirrors_comment.shrinks e
    · exact (hd.other c hc).shrinks ((congrArg _ k.ahead_looked).trans hk) e

/-- Away from the edge a token is read from both texts, or it is a comment that
ends there. -/
theorem Comments.tokenHere_mirrored (hd : Comments dispatch) (hnot : ¬ AtEdge z z' k)
    (ht : Abreast z z' k k') (e : tokenHere dispatch k = .ok t left)
    (hz : z.length ≤ left.source.rest.length) :
    (∃ t' left', tokenHere dispatch k' = .ok t' left' ∧ Agree t t' ∧ Abreast z z' left left') ∨
      (AtEdge z z' left ∧ k.ahead.head? = some '#' ∧ comment k.looked = .ok t left) := by
  unfold tokenHere at e ⊢
  have hhead : k'.ahead.head? = k.ahead.head? :=
    ht.head?_cases.resolve_right fun hedge => hnot hedge.1
  rw [bind_eq (look_eq k)] at e
  rw [bind_eq (look_eq k'), hhead]
  cases hk : k.ahead.head? with
  | none =>
    rw [hk] at e
    left
    exact ((mirrors_ending _).mirrored ht.looked e hz).resolve_left fun hn => hn.1
  | some c =>
    rw [hk] at e
    dsimp only at e ⊢
    by_cases hc : c = '#'
    · rw [hc, hd.hash] at e ⊢
      rcases mirrors_comment.mirrored ht.looked e hz with ⟨-, hedge⟩ | hleft
      · exact Or.inr ⟨hedge, rfl, e⟩
      · exact Or.inl hleft
    · left
      have hlooked : k.looked.ahead.head? = some c := (congrArg _ k.ahead_looked).trans hk
      exact ((hd.other c hc).mirrored hlooked ht.looked e hz).resolve_left fun hn => hn.1

/-- A token behind blank characters is read from both texts, or it is a comment
that ends at the edge. -/
theorem Comments.mirrored (hd : Comments dispatch)
    (hfind : Finds Lexed Unicode.isBlank k (do discardBlank; tokenHere dispatch))
    (ht : Abreast z z' k k') (e : (do discardBlank; tokenHere dispatch : Scan Token) k = .ok t left)
    (hz : z.length ≤ left.source.rest.length) (hend : t.kind = .ending → z'.head? = z.head?) :
    (∃ t' left', (do discardBlank; tokenHere dispatch : Scan Token) k' = .ok t' left' ∧
      Agree t t' ∧ Abreast z z' left left') ∨ (AtEdge z z' left ∧ ReadsComment k t left) := by
  obtain ⟨mid, mid', e₁, e₁', ht', hnot, e₂⟩ :=
    gap_mirrored isGap_discardBlank hfind hd.shrinks ht e hz hend
  rw [bind_eq e₁']
  rcases hd.tokenHere_mirrored hnot ht' e₂ hz with hleft | ⟨hedge, hhash, e₃⟩
  · exact Or.inl hleft
  · exact Or.inr ⟨hedge, mid, e₁, hhash, e₃⟩

end Dispatch

/-! ## Shared readers behind gaps -/

theorem mirrorsInside_datatype (rule : Name.Rule) :
    MirrorsInside (do
      match ← look with
      | none => unexpectedEnd "a data type"
      | some c =>
        if c == '<' then
          referenceDatatype
        else if !(Name.isScanned c || c == '\\') || c == '.' then
          unexpectedCharacter c "a URI or QName for a data type"
        else
          nameDatatype rule) := by
  refine mirrorsInside_look fun d => ?_
  split
  · exact mirrors_fails fun _ => makes_unexpectedEnd _
  · split
    · exact mirrors_referenceDatatype
    · split
      · exact mirrors_fails fun _ => makes_unexpectedCharacter _ _
      · exact mirrors_nameDatatype rule

theorem mirrorsInside_prefixName :
    MirrorsInside (do
      iterate prefixTurn advances_prefixTurn ()
      let k ← get
      if !k.endsWith ':' then
        unexpectedCharacter (← nextOrEnd) "a Prefix, expected the : that ends it"
      else if Name.isPrefix k.value then
        emit .prefixName
      else
        invalidForm "Prefix" k.text) := by
  refine Mirrors.inside (Mirrors.bind (Mirrors.iterate mirrors_prefixTurn ()) fun _ => ?_)
  refine mirrors_get (fun k k' hw => ?_) fun k => ?_
  · rw [Cursor.endsWith_congr hw, Cursor.value_congr hw, Cursor.text_congr hw]
  · split
    · exact mirrors_fails fun _ => makes_unexpectedNext _
    · split
      · exact mirrors_emit _
      · exact mirrors_fails fun _ => makes_invalidForm _ _

end Scan

/-! ## N-Triples and N-Quads -/

namespace Graph.LineFormat

variable {format : LineFormat} {previous : Option Kind}

/-- A comment is no literal, so that a graph may follow it. -/
theorem mirrors_checkGraph : Mirrors Never Eq format.checkGraph where
  shrinks e := Nat.le_of_eq (by rw [checkGraph_ok e])
  mirrored {z z' k k' left u} ht e _ := by
    obtain rfl := checkGraph_ok e
    refine Or.inr ⟨(), k', ?_, rfl, ht⟩
    have e := get_bind_ok e
    split at e
    · cases e
    · rename_i hcheck
      have hcheck' : ¬ (endsLiteral k'.previous && format == .triples) = true := by
        rcases ht.previous with hp | hp
        · rw [hp]
          exact hcheck
        · rw [hp]
          exact Bool.false_ne_true
      unfold checkGraph
      rw [get_bind, if_neg hcheck']
      rfl

/-- The label of a blank node behind its colon. -/
theorem mirrors_label : Mirrors Never Agree (do
    consumeWhile fun c => Name.isInner c || c == '.'
    giveBackDot
    let k ← get
    if Name.isBlankNode k.value then
      emit .blankNode
    else
      invalidForm "Blank Node ID" k.text) := by
  refine Mirrors.bind ?_ fun _ => mirrors_giveBackDot.bind fun _ => ?_
  · exact mirrors_consumeWhile (by decide) (by decide)
  · refine mirrors_get (fun k k' hw => ?_) fun k => ?_
    · rw [Cursor.value_congr hw, Cursor.text_congr hw]
    · split
      · exact mirrors_emit _
      · exact mirrors_fails fun _ => makes_invalidForm _ _

theorem mirrors_blankNode : Mirrors Never Agree format.blankNode := by
  refine mirrors_checkGraph.bind fun _ => mirrors_consume.bind fun _ => ?_
  rw [nextIs_bind]
  refine mirrors_look_rest (fun d => ?_) fun {d b} hb {_ _ _} hp hk e => ?_
  · split
    · exact mirrors_fails fun _ => makes_unexpectedNext _
    · exact mirrors_consume.bind fun _ => mirrors_label
  · have hblank : (some b == some ':') = false := by rcases hb with rfl | rfl <;> rfl
    rw [hblank]
    cases hd : d == some ':' with
    | false => exact Or.inl rfl
    | true =>
      rw [hd] at e
      exact Or.inr (rest_lt_consume (fun _ => mirrors_label) hp (hk.trans (beq_iff_eq.1 hd)) e)

theorem mirrors_literal : Mirrors Never Agree literal := by
  have hquote : '"' ≠ ' ' ∧ '"' ≠ '\n' := by decide
  refine mirrors_skip.bind fun _ => mirrors_nextIs hquote.1 hquote.2 (fun second => ?_) ?_
  · split
    · refine mirrors_skip.bind fun _ => mirrors_nextIs hquote.1 hquote.2 (fun third => ?_) ?_
      · split
        · exact mirrors_fails fun _ => makes_violation _
        · exact mirrors_emit _
      · exact spends_violation _
    · exact (mirrors_shortBody _).bind fun _ => mirrors_emit _
  · refine takes_skip.bind fun _ => (keeps_nextIs _).bind fun third => ?_
    split
    · exact spends_violation _
    · exact keeps_emit

theorem comments_dispatch : Comments (format.dispatch previous) where
  hash := rfl
  other c hc := by
    unfold dispatch
    split
    · exact absurd rfl hc
    · exact (mirrors_checkGraph.bind fun _ => mirrors_reference).at
    · exact mirrors_blankNode.at
    · exact mirrors_literal.at
    · exact mirrors_single.at
    · split
      · exact mirrors_languageTag.at
      · split
        · exact mirrors_hatHat.at
        · exact (mirrors_fails fun _ => makes_unexpectedCharacter _ _).at

theorem mirrorsInside_datatype :
    MirrorsInside (do
      match ← look with
      | none => unexpectedEnd "a data type"
      | some c =>
        if c == '<' then referenceDatatype else unexpectedCharacter c "a URI for a data type") := by
  refine mirrorsInside_look fun d => ?_
  split
  · exact mirrors_fails fun _ => makes_unexpectedEnd _
  · split
    · exact mirrors_referenceDatatype
    · exact mirrors_fails fun _ => makes_unexpectedCharacter _ _

end Graph.LineFormat

/-! ## Turtle and TriG -/

namespace Graph.Turtle

variable {t : Turtle} {previous : Option Kind}

theorem mirrors_directive : Mirrors Never Agree t.directive := by
  refine mirrors_directiveWord.bind fun word => ?_
  split
  · exact mirrors_emit _
  · split
    · split
      · exact mirrors_fails fun _ => makes_violation _
      · exact mirrors_emit _
    · split
      · exact mirrors_fails fun _ => makes_violation _
      · exact mirrors_fails fun _ => makes_violation _

theorem mirrors_tagOrDirective : Mirrors Never Agree (t.tagOrDirective previous) := by
  unfold tagOrDirective
  split
  · exact mirrors_languageTag
  · split
    · exact mirrors_fails fun _ => makes_violation _
    · exact mirrors_directive

theorem mirrors_hat (c : Char) : Mirrors Never Agree (hat previous c) := by
  unfold hat
  split
  · exact mirrors_hatHat
  · split
    · exact mirrors_fails fun _ => makes_violation _
    · exact mirrors_fails fun _ => makes_unexpectedCharacter _ _

theorem mirrors_referenceRest : Mirrors Never Agree referenceRest :=
  mirrors_referenceBody.bind fun _ => mirrors_emit _

theorem takes_referenceRest : Takes referenceRest :=
  takes_referenceBody.bind fun _ => keeps_emit

/-- An operator stands before a blank, a reference goes on. -/
theorem mirrors_referenceOrArrow : Mirrors Never Agree t.referenceOrArrow := by
  refine mirrors_skip.bind fun _ => mirrors_nextIs (by decide) (by decide) (fun found => ?_) ?_
  · split
    · refine mirrors_consume.bind fun _ => mirrors_look_spends (keeps_look.bind fun d => ?_)
        fun d => ?_
      · split
        · exact spends_violation _
        · exact takes_referenceRest.spends
      · split
        · exact mirrors_fails fun _ => makes_violation _
        · exact mirrors_referenceRest
    · exact mirrors_referenceRest
  · refine takes_consume.bind fun _ => keeps_look.bind fun d => ?_
    split
    · exact spends_violation _
    · exact takes_referenceRest.keeps

theorem mirrors_equals : Mirrors Never Agree t.equals := by
  refine mirrors_consume.bind fun _ => mirrors_nextIs (by decide) (by decide) (fun found => ?_) ?_
  · split
    · exact mirrors_consume.bind fun _ => mirrors_fails fun _ => makes_violation _
    · split
      · exact mirrors_emit _
      · exact mirrors_fails fun _ => makes_violation _
  · exact takes_consume.bind fun _ => spends_violation _

theorem mirrors_brace (kind : Kind) (c : Char) : Mirrors Never Agree (t.brace kind c) := by
  unfold brace
  split
  · exact mirrors_single
  · exact mirrors_fails fun _ => makes_unexpectedCharacter _ _

theorem mirrors_bareWord (word : List Char) : Mirrors Never Agree (t.bareWord word) := by
  unfold bareWord
  split
  · exact mirrors_emit _
  · split
    · exact mirrors_emit _
    · split
      · exact mirrors_fails fun _ => makes_violation _
      · split
        · exact mirrors_fails fun _ => makes_invalidForm _ _
        · split
          · exact mirrors_emit _
          · split
            · exact mirrors_emit _
            · split
              · exact mirrors_emit _
              · exact mirrors_fails fun _ => makes_invalidForm _ _

theorem mirrors_name : Mirrors Never Agree t.name := by
  refine (mirrors_gatherName _ _).bind fun _ => mirrors_nameOr ?_
  exact mirrors_get (fun k k' hw => by rw [Cursor.value_congr hw]) fun k => mirrors_bareWord _

theorem comments_dispatch : Comments (t.dispatch previous) where
  hash := rfl
  other c hc := by
    unfold dispatch
    split
    · exact absurd rfl hc
    · exact mirrors_referenceOrArrow.at
    · exact mirrorsAt_literal (by decide) (by decide) _
    · exact mirrorsAt_literal (by decide) (by decide) _
    · exact mirrors_tagOrDirective.at
    · exact (mirrors_hat _).at
    · exact (mirrors_dotOrNumber mirrors_number takesDigit_number).at
    · exact mirrors_single.at
    · exact mirrors_single.at
    · exact mirrors_single.at
    · exact mirrors_single.at
    · exact mirrors_single.at
    · exact mirrors_single.at
    · exact (mirrors_brace _ _).at
    · exact (mirrors_brace _ _).at
    · exact mirrors_equals.at
    · exact mirrors_number.at
    · exact mirrors_number.at
    · exact mirrors_name.at
    · exact mirrors_name.at
    · exact mirrors_name.at
    · split
      · exact mirrors_number.at
      · split
        · exact mirrors_name.at
        · exact (mirrors_fails fun _ => makes_unexpectedCharacter _ _).at

end Graph.Turtle

/-! ## Notation 3 -/

namespace Graph.Notation3

variable {v : Vocabulary} {previous : Option Kind}

theorem mirrors_directive : Mirrors Never Agree (directive v) := by
  refine mirrors_directiveWord.bind fun word => ?_
  split
  · exact mirrors_emit _
  · exact mirrors_fails fun _ => makes_violation _

theorem mirrors_referenceOrArrow : Mirrors Never Agree referenceOrArrow := by
  refine mirrors_skip.bind fun _ => mirrors_nextIs (by decide) (by decide) (fun found => ?_) ?_
  · split
    · refine mirrors_consume.bind fun _ => mirrors_look (fun d => ?_) fun d b hb => ?_
      · split
        · exact mirrors_emitAs _ _
        · exact mirrors_fails fun _ => makes_violation _
      · have hblank : Unicode.isBlank b = true := by rcases hb with rfl | rfl <;> decide
        simp only [Option.all_some, hblank, if_true]
        cases d.all Unicode.isBlank with
        | true => exact Or.inl rfl
        | false => exact Or.inr (spends_violation _)
    · exact mirrors_referenceBody.bind fun _ => mirrors_emit _
  · refine takes_consume.bind fun _ => keeps_look.bind fun d => ?_
    split
    · exact keeps_emitAs _
    · exact spends_violation _

theorem mirrors_equals : Mirrors Never Agree equals := by
  refine mirrors_consume.bind fun _ => mirrors_nextIs (by decide) (by decide) (fun found => ?_) ?_
  · split
    · exact mirrors_consume.bind fun _ => mirrors_emit _
    · exact mirrors_emit _
  · exact takes_consume.bind fun _ => keeps_emit

theorem mirrors_hat : Mirrors Never Agree (hat previous) := by
  unfold hat
  split
  · exact mirrors_hatHat
  · refine mirrors_consume.bind fun _ => mirrors_nextIs (by decide) (by decide)
      (fun found => ?_) (spends_violation _)
    split
    · exact mirrors_fails fun _ => makes_violation _
    · exact mirrors_emit _

theorem mirrors_bareWord (word : List Char) : Mirrors Never Agree (bareWord v word) := by
  unfold bareWord
  split
  · exact mirrors_emit _
  · split
    · split
      · exact mirrors_emit _
      · exact mirrors_emitAs _ _
    · split
      · exact mirrors_fails fun _ => makes_invalidForm _ _
      · exact mirrors_emit _

theorem mirrors_name : Mirrors Never Agree (name v) := by
  refine (mirrors_gatherName _ _).bind fun _ => mirrors_nameOr ?_
  exact mirrors_get (fun k k' hw => by rw [Cursor.value_congr hw]) fun k => mirrors_bareWord _

theorem comments_dispatch : Comments (dispatch v previous) where
  hash := rfl
  other c hc := by
    unfold dispatch
    split
    · exact absurd rfl hc
    · exact mirrors_referenceOrArrow.at
    · exact mirrorsAt_literal (by decide) (by decide) _
    · exact mirrorsAt_literal (by decide) (by decide) _
    · split
      · exact mirrors_languageTag.at
      · exact mirrors_directive.at
    · exact mirrors_hat.at
    · exact mirrors_equals.at
    · exact mirrors_single.at
    · exact (mirrors_gatherVariable.bind fun _ => mirrors_variableToken _).at
    · exact (mirrors_dotOrNumber mirrors_number takesDigit_number).at
    · exact mirrors_single.at
    · exact mirrors_single.at
    · exact mirrors_single.at
    · exact mirrors_single.at
    · exact mirrors_single.at
    · exact mirrors_single.at
    · exact mirrors_single.at
    · exact mirrors_single.at
    · exact mirrors_number.at
    · exact mirrors_number.at
    · exact mirrors_name.at
    · exact mirrors_name.at
    · exact mirrors_name.at
    · split
      · exact mirrors_number.at
      · split
        · exact mirrors_name.at
        · exact (mirrors_fails fun _ => makes_unexpectedCharacter _ _).at

/-- Between declared keywords more blanks may stand behind the edge. -/
theorem mirrors_gapTurn (u : Unit) : Mirrors Always Eq (gapTurn u) := by
  refine mirrors_look_spends (advances_gapTurn u).keeps.always fun d => ?_
  split
  · exact mirrors_fails fun _ => makes_unexpectedEnd _
  · split
    · exact mirrors_fails fun _ _ _ e => nomatch e
    · split
      · exact mirrors_skip.bind fun _ => mirrors_pure rfl
      · exact mirrors_pure rfl

theorem isGap_gap : IsGap isGap (do
    iterate gapTurn advances_gapTurn ()
    startToken) where
  mirrors := mirrors_bind (mirrors_iterate_always mirrors_gapTurn ())
    (fun _ => mirrors_startToken.excuse)
    fun _ _ => (keeps_modify (f := Cursor.fresh) fun _ => Nat.le_refl _).always
  passes e := by
    obtain ⟨_, k₁, e₁, e⟩ := bind_ok e
    have r₁ := run_ok (fun s _ r _ e => gapTurn_ok s r e) e₁
    rw [startToken_ok e]
    exact ⟨r₁.ahead, r₁.here, r₁.apart⟩

/-- A declared keyword behind a gap, or the dot that ends the declaration. -/
def declared : Scan Token := do
  let next ← nextOrEnd
  if next == '.' then
    single .dot
  else
    consumeWhile Name.isInner
    if (← get).isEmpty then
      unexpectedCharacter next "a keyword name in a @keywords directive"
    else
      emit .keywordDefinition

theorem declaration_eq : declaration = (do
    iterate gapTurn advances_gapTurn ()
    startToken) >>= fun _ => declared := by
  rw [bind_assoc]
  rfl

theorem mirrorsInside_declared : MirrorsInside declared := by
  refine mirrorsInside_look (f := fun d => do
    if d.getD endOfInput == '.' then
      single .dot
    else
      consumeWhile Name.isInner
      if (← get).isEmpty then
        unexpectedCharacter (d.getD endOfInput) "a keyword name in a @keywords directive"
      else
        emit .keywordDefinition) fun d => ?_
  split
  · exact mirrors_single
  · refine Mirrors.bind ?_ fun _ => ?_
    · exact mirrors_consumeWhile (by decide) (by decide)
    · refine mirrors_get (fun k k' hw => by rw [Cursor.isEmpty_congr hw]) fun k => ?_
      split
      · exact mirrors_fails fun _ => makes_unexpectedCharacter _ _
      · exact mirrors_emit _

end Graph.Notation3

end TripleLex

import TripleLex.Graph.Lines
import TripleLex.Graph.Turtle
import TripleLex.Proofs.Readers

/-!
# Lexemes of graphs

Every token of N-Triples, N-Quads, Turtle and TriG is a lexeme behind blank
characters that spells itself where there is no escape. A token of Notation 3 is
a lexeme too; behind a directive that declares keywords, commas are passed over
as well, and a bare word may become a name that is not spelled so.

## Main results

* `LineFormat.finds_read`, `Turtle.finds_read` — lexemes that spell their
  tokens.
* `Notation3.finds_read` — lexemes.
-/

namespace TripleLex.Graph

open Scan Cursor

variable {k : Cursor}

/-! ## N-Triples and N-Quads -/

namespace LineFormat

/-- Whether a graph may stand here is judged by the token before alone. -/
theorem checkGraph_ok {format : LineFormat} {left : Cursor} {u : Unit}
    (e : format.checkGraph k = .ok u left) : left = k := by
  have e := get_bind_ok e
  split at e
  · cases e
  · cases e
    rfl

theorem not_isLineEnd_of_isLabel {c : Char}
    (h : (Name.isInner c || c == '.') = true) :
    Unicode.isLineEnd c = false :=
  not_isLineEnd_of (p := fun c => Name.isInner c || c == '.')
    (by decide) (by decide) h

/-- A label is gathered with the dots in it and behind it. The last one is given back if it
ends the label, so it is not in the lexeme. -/
theorem completes_blankNode {format : LineFormat} (hb : k.Begun)
    (hc : k.ahead.head? = some '_') :
    Completes Copied k k format.blankNode := by
  intro t left e
  obtain ⟨_, k₁, e₁, e⟩ := bind_ok e
  rw [checkGraph_ok e₁] at e
  obtain ⟨_, k₂, e₂, e⟩ := bind_ok e
  obtain ⟨-, r₂⟩ := consume_ok hc (by decide) e₂
  obtain ⟨found, k₃, e₃, e⟩ := bind_ok e
  obtain ⟨h₃, r₃⟩ := nextIs_ok e₃
  have r₃ := r₂.trans r₃
  cases found with
  | false =>
    obtain ⟨c, k₄, -, e⟩ := bind_ok e
    cases e
  | true =>
    obtain ⟨_, k₄, e₄, e⟩ := bind_ok e
    obtain ⟨-, r₄⟩ := consume_ok (h₃.1 rfl) (by decide) e₄
    obtain ⟨_, k₅, e₅, e⟩ := bind_ok e
    have r₅ := consumeWhile_ok (fun c h => not_isLineEnd_of_isLabel h) e₅
    have r := (r₃.trans r₄).trans r₅
    obtain ⟨_, k₆, e₆, e⟩ := bind_ok e
    have hs := giveBackDot_ok e₆
    have hi : Inline
        (k₄.ahead.takeWhile fun c => Name.isInner c || c == '.') := by
      intro c hc
      exact not_isLineEnd_of_isLabel
        (List.all_eq_true.1 List.all_takeWhile c hc)
    have hi' : Inline ['_', ':'] :=
      Inline.cons (by decide) (inline_singleton (by decide))
    obtain ⟨cs, ws, hheld, hplain, -⟩ := hs.held hb r (hi'.append hi)
      (Renders.same _) (List.cons_ne_nil _ _) (by rw [hc]; exact nofun)
    have e := get_bind_ok e
    split at e
    · exact emit_plain hheld (fun _ => rfl) rfl hplain t left e
    · cases e

/-- Two quotation marks are an empty literal, since there is no long form that they could
open. -/
theorem completes_literal (hb : k.Begun) (hc : k.ahead.head? = some '"') :
    Completes Copied k k literal := by
  intro t left e
  obtain ⟨_, k₁, e₁, e⟩ := bind_ok e
  obtain ⟨-, r₁⟩ := skip_ok hc (by decide) e₁
  obtain ⟨second, k₂, e₂, e⟩ := bind_ok e
  obtain ⟨h₂, r₂⟩ := nextIs_ok e₂
  have r₂ := r₁.trans r₂
  cases second with
  | false =>
    obtain ⟨_, k₃, e₃, e⟩ := bind_ok e
    obtain ⟨_, ws, r₃, body, rfl, hr⟩ := shortBody_ok (by decide) e₃
    have r := r₂.trans r₃
    refine emit_copied (held_of_reads hb r (List.cons_ne_nil _ _))
      rfl ?_ t left e
    intro hn
    have hws : ws = body := plain_of_closed r hr hn
    rw [hws]
    exact List.mem_cons_self
  | true =>
    obtain ⟨_, k₃, e₃, e⟩ := bind_ok e
    obtain ⟨-, r₃⟩ := skip_ok (h₂.1 rfl) (by decide) e₃
    obtain ⟨third, k₄, e₄, e⟩ := bind_ok e
    obtain ⟨-, r₄⟩ := nextIs_ok e₄
    have r := (r₂.trans r₃).trans r₄
    cases third with
    | false =>
      exact emit_copied (held_of_reads hb r (List.cons_ne_nil _ _)) rfl
        (fun _ => List.mem_cons_self) t left e
    | true => cases e

/-- Whatever the first character, what comes of it is a lexeme. -/
theorem completes_dispatch {format : LineFormat} {previous : Option Kind}
    {c : Char} (hb : k.Begun) (hc : k.ahead.head? = some c) :
    Completes Copied k k (format.dispatch previous c) := by
  unfold dispatch
  split
  · exact completes_comment hb hc
  · intro t left e
    obtain ⟨_, k₁, e₁, e⟩ := bind_ok e
    rw [checkGraph_ok e₁] at e
    exact completes_reference hb hc t left e
  · exact completes_blankNode hb hc
  · exact completes_literal hb hc
  · exact completes_single hb hc (by decide) (fun _ => rfl) rfl
  · split
    · rename_i hat
      simp only [Bool.and_eq_true, beq_iff_eq] at hat
      rw [hat.1] at hc
      exact completes_languageTag hb hc
    · split
      · rename_i hhat
        simp only [Bool.and_eq_true, beq_iff_eq] at hhat
        rw [hhat.1] at hc
        exact completes_hatHat hb hc
      · exact completes_unexpectedCharacter _ _

/-- Behind its sign a datatype is a reference, before which blank characters may stand. -/
theorem finds_datatype : Finds Copied Unicode.isBlank k datatype := by
  intro t left e
  obtain ⟨_, k₁, e₁, e⟩ := bind_ok e
  obtain ⟨hp, hb⟩ := discardBlank_ok e₁
  rcases look_bind_ok e with ⟨k₂, r₂, -, e⟩ | ⟨c, k₂, r₂, hc, e⟩
  · exact absurd e unexpectedEnd_ne_ok
  · refine ⟨k₂, hp.trans_nil r₂, Or.inr ?_⟩
    dsimp only at e
    split at e
    · rename_i hlt
      rw [beq_iff_eq] at hlt
      rw [hlt] at hc
      exact completes_referenceDatatype (r₂.begun hb) hc t left e
    · cases e

/-- All tokens of N-Triples and N-Quads. -/
theorem finds_read {format : LineFormat} {previous : Option Kind} :
    Finds Copied Unicode.isBlank k (format.read previous) := by
  unfold read
  split
  · exact finds_datatype
  · exact finds_blankThen fun c k' hb hc => completes_dispatch hb hc

end LineFormat

/-! ## Turtle and TriG -/

namespace Turtle

variable {t : Turtle}

/-- A directive is spelled as it was found, in whatever mixture of cases. -/
theorem completes_directive (hb : k.Begun) (hc : k.ahead.head? = some '@') :
    Completes Copied k k t.directive := by
  intro token left e
  obtain ⟨word, k₁, e₁, e⟩ := bind_ok e
  have h := directiveWord_ok hb hc e₁
  split at e
  · exact emit_plain h (fun _ => rfl) rfl (fun _ => rfl) token left e
  · split at e
    · split at e
      · cases e
      · exact emit_plain h (fun _ => rfl) rfl (fun _ => rfl) token left e
    · split at e
      · cases e
      · cases e

theorem completes_tagOrDirective {previous : Option Kind} (hb : k.Begun)
    (hc : k.ahead.head? = some '@') :
    Completes Copied k k (t.tagOrDirective previous) := by
  unfold tagOrDirective
  split
  · exact completes_languageTag hb hc
  · split
    · exact completes_violation _
    · exact completes_directive hb hc

theorem completes_hat {previous : Option Kind} {c : Char} (hb : k.Begun)
    (hc : k.ahead.head? = some '^') :
    Completes Copied k k (hat previous c) := by
  unfold hat
  split
  · exact completes_hatHat hb hc
  · split
    · exact completes_violation _
    · exact completes_unexpectedCharacter _ _

/-- The rest of a reference behind `pre`, which has been read and belongs to its
text but for the bracket. -/
theorem completes_referenceRest {k₀ : Cursor} {pre : List Char} (hb : k₀.Begun)
    (r : k₀.Reads ('<' :: pre) pre k) :
    Completes Copied k₀ k referenceRest := by
  intro token left e
  obtain ⟨_, k₁, e₁, e⟩ := bind_ok e
  obtain ⟨_, ws, r₁, body, rfl, hr⟩ := referenceBody_ok e₁
  have r := r.trans r₁
  refine emit_copied (held_of_reads hb r (List.cons_ne_nil _ _))
    rfl ?_ token left e
  intro hn
  have hws : ws = body := plain_of_closed r hr hn
  simp [hws, Kind.spellings]

/-- An equals sign behind the bracket belongs to the reference, since what would make an
operator of the two is a fault. -/
theorem completes_referenceOrArrow (hb : k.Begun)
    (hc : k.ahead.head? = some '<') :
    Completes Copied k k t.referenceOrArrow := by
  intro token left e
  obtain ⟨_, k₁, e₁, e⟩ := bind_ok e
  obtain ⟨-, r₁⟩ := skip_ok hc (by decide) e₁
  obtain ⟨found, k₂, e₂, e⟩ := bind_ok e
  obtain ⟨h₂, r₂⟩ := nextIs_ok e₂
  have r₂ := r₁.trans r₂
  cases found with
  | false => exact completes_referenceRest hb r₂ token left e
  | true =>
    obtain ⟨_, k₃, e₃, e⟩ := bind_ok e
    obtain ⟨-, r₃⟩ := consume_ok (h₂.1 rfl) (by decide) e₃
    obtain ⟨c, k₄, e₄, e⟩ := bind_ok e
    obtain ⟨-, r₄⟩ := look_ok e₄
    split at e
    · cases e
    · exact completes_referenceRest hb ((r₂.trans r₃).trans r₄) token left e

/-- The sign `=` alone comes to a token, and in TriG only. -/
theorem completes_equals (hb : k.Begun) (hc : k.ahead.head? = some '=') :
    Completes Copied k k t.equals := by
  intro token left e
  obtain ⟨_, k₁, e₁, e⟩ := bind_ok e
  obtain ⟨-, r₁⟩ := consume_ok hc (by decide) e₁
  obtain ⟨found, k₂, e₂, e⟩ := bind_ok e
  obtain ⟨-, r₂⟩ := nextIs_ok e₂
  cases found with
  | false =>
    split at e
    · cases ‹false = true›
    split at e
    · exact emit_plain (held_of_reads hb (r₁.trans r₂) (List.cons_ne_nil _ _))
        (fun _ => rfl) rfl (fun _ => rfl) token left e
    · cases e
  | true =>
    obtain ⟨_, k₃, -, e⟩ := bind_ok e
    cases e

theorem completes_brace {kind : Kind} {c : Char} (hb : k.Begun)
    (hc : k.ahead.head? = some c) (hl : Unicode.isLineEnd c = false)
    (hp : kind.IsPlain) (hm : kind.isMark = false) :
    Completes Copied k k (t.brace kind c) := by
  unfold brace
  split
  · exact completes_single hb hc hl hp hm
  · exact completes_unexpectedCharacter _ _

/-- A bare word comes to a keyword, a truth value or a directive, and is spelled as it was
held. -/
theorem completes_bareWord {k₀ : Cursor} {cs ws word : List Char}
    (h : k₀.Held cs ws k) (hs : '\\' ∉ k₀.ahead → ws = cs) :
    Completes Copied k₀ k (t.bareWord word) := by
  unfold bareWord
  split
  · exact emit_plain h (fun _ => rfl) rfl hs
  · split
    · exact emit_plain h (fun _ => rfl) rfl hs
    · split
      · exact completes_violation _
      · split
        · exact completes_invalidForm _ _
        · split
          · exact emit_plain h (fun _ => rfl) rfl hs
          · split
            · exact emit_plain h (fun _ => rfl) rfl hs
            · split
              · exact emit_plain h (fun _ => rfl) rfl hs
              · exact completes_invalidForm _ _

/-- A name that begins here, which is never at a dot. -/
theorem completes_name {c : Char} (hb : k.Begun) (hc : k.ahead.head? = some c)
    (hl : leadsName c = true) : Completes Copied k k t.name := by
  intro token left e
  rcases name_ok hb (Reads.refl k) kept_nil (head_ne_dot hc hl)
    (Or.inr ⟨c, hc, hl⟩) e with
    h | ⟨mid, cs, ws, h, hs, -, e⟩
  · exact h
  · have e := get_bind_ok e
    exact completes_bareWord h hs token left e

/-- Whatever the first character, what comes of it is a lexeme. -/
theorem completes_dispatch {previous : Option Kind} {c : Char} (hb : k.Begun)
    (hc : k.ahead.head? = some c) :
    Completes Copied k k (t.dispatch previous c) := by
  unfold dispatch
  split
  · exact completes_comment hb hc
  · exact completes_referenceOrArrow hb hc
  · exact Scan.completes_literal hb hc (Or.inl rfl)
  · exact Scan.completes_literal hb hc (Or.inr rfl)
  · exact completes_tagOrDirective hb hc
  · exact completes_hat hb hc
  · exact completes_dotOrNumber hb hc fun mid r => completes_number hb r
      (kept_singleton (by decide))
  · exact completes_single hb hc (by decide) (fun _ => rfl) rfl
  · exact completes_single hb hc (by decide) (fun _ => rfl) rfl
  · exact completes_single hb hc (by decide) (fun _ => rfl) rfl
  · exact completes_single hb hc (by decide) (fun _ => rfl) rfl
  · exact completes_single hb hc (by decide) (fun _ => rfl) rfl
  · exact completes_single hb hc (by decide) (fun _ => rfl) rfl
  · exact completes_brace hb hc (by decide) (fun _ => rfl) rfl
  · exact completes_brace hb hc (by decide) (fun _ => rfl) rfl
  · exact completes_equals hb hc
  · exact completes_number hb (Reads.refl k) kept_nil
  · exact completes_number hb (Reads.refl k) kept_nil
  · exact completes_name hb hc (leadsName_ascii (by decide))
  · exact completes_name hb hc (leadsName_ascii (by decide))
  · exact completes_name hb hc (leadsName_ascii (by decide))
  · split
    · exact completes_number hb (Reads.refl k) kept_nil
    · split
      · rename_i hopens
        exact completes_name hb hc (leadsName_of_opensName hopens)
      · exact completes_unexpectedCharacter _ _

/-- All tokens of Turtle and TriG. -/
theorem finds_read {previous : Option Kind} :
    Finds Copied Unicode.isBlank k (t.read previous) := by
  unfold read
  split
  · exact finds_prefixName
  · exact Scan.finds_datatype
  · exact finds_blankThen fun c k' hb hc => completes_dispatch hb hc

end Turtle

/-! ## Notation 3 -/

namespace Notation3

variable {v : Vocabulary}

/-- In a declaration commas are gaps as well, and what comes behind them is a declared word
or the dot that ends it. -/
theorem finds_declaration : Finds Lexed isGap k declaration := by
  intro token left e
  obtain ⟨_, k₁, e₁, e⟩ := bind_ok e
  have r₁ := run_ok (fun s _ r _ e => gapTurn_ok s r e) e₁
  have hp : k.Passes (k.ahead.takeWhile isGap) k₁.fresh := ⟨r₁.ahead, r₁.here,
    r₁.apart⟩
  obtain ⟨_, k₂, e₂, e⟩ := bind_ok e
  rw [startToken_ok e₂] at e
  obtain ⟨next, k₃, e₃, e⟩ := bind_ok e
  obtain ⟨r₃, hnext⟩ := nextOrEnd_ok e₃
  have hb := r₃.begun (begun_fresh k₁)
  refine ⟨k₃, hp.trans_nil r₃, Or.inr ?_⟩
  split at e
  · rename_i hdot
    rw [beq_iff_eq, hnext] at hdot
    have hc : k₃.ahead.head? = some '.' := by
      cases hh : k₃.ahead.head? with
      | none =>
        rw [hh] at hdot
        exact absurd hdot (by decide)
      | some c =>
        rw [hh] at hdot
        exact congrArg some hdot
    exact (completes_single hb hc (by decide) (fun _ => rfl) rfl).lexed token left e
  · obtain ⟨_, k₄, e₄, e⟩ := bind_ok e
    have r₄ := consumeWhile_ok
      (fun c h => not_isLineEnd_of_isScanned (Name.isScanned_of_isInner h)) e₄
    have e := get_bind_ok e
    split at e
    · cases e
    · rename_i hne
      have hne' : k₃.ahead.takeWhile Name.isInner ≠ [] := by
        intro hnil
        rw [hnil] at r₄
        simp [Cursor.isEmpty, r₄.written, hb.written] at hne
      exact emit_lexed (held_of_reads hb r₄ hne') rfl token left e

/-- No directive is one of the marks around all text. -/
theorem isMark_of_directiveKind? {name : List Char} {kind : Kind}
    (h : directiveKind? v name = some kind) : kind.isMark = false :=
  (by decide : ∀ kind ∈ directiveKinds, kind.isMark = false) kind (mem_of_directiveKind? h)

theorem isMark_keywordKind (word : List Char) :
    (keywordKind word).isMark = false :=
  (by decide : ∀ kind ∈ wordKinds, kind.isMark = false) _ (keywordKind_mem word)

/-- A directive, or a keyword behind an `@`. -/
theorem completes_directive (hb : k.Begun) (hc : k.ahead.head? = some '@') :
    Completes Lexed k k (directive v) := by
  intro token left e
  obtain ⟨word, k₁, e₁, e⟩ := bind_ok e
  have h := directiveWord_ok hb hc e₁
  cases hk : directiveKind? v word.tail with
  | none =>
    rw [hk] at e
    cases e
  | some kind =>
    rw [hk] at e
    exact emit_lexed h (isMark_of_directiveKind? hk) token left e

/-- The operator `<=` where a blank character follows. Its text is put in place of what was
held, which lacks the bracket. -/
theorem completes_referenceOrArrow (hb : k.Begun)
    (hc : k.ahead.head? = some '<') :
    Completes Lexed k k referenceOrArrow := by
  intro token left e
  obtain ⟨_, k₁, e₁, e⟩ := bind_ok e
  obtain ⟨-, r₁⟩ := skip_ok hc (by decide) e₁
  obtain ⟨found, k₂, e₂, e⟩ := bind_ok e
  obtain ⟨h₂, r₂⟩ := nextIs_ok e₂
  have r₂ := r₁.trans r₂
  cases found with
  | false =>
    obtain ⟨_, k₃, e₃, e⟩ := bind_ok e
    obtain ⟨_, ws, r₃, -⟩ := referenceBody_ok e₃
    exact emit_lexed (held_of_reads hb (r₂.trans r₃) (List.cons_ne_nil _ _))
      rfl token left e
  | true =>
    obtain ⟨_, k₃, e₃, e⟩ := bind_ok e
    obtain ⟨-, r₃⟩ := consume_ok (h₂.1 rfl) (by decide) e₃
    obtain ⟨c, k₄, e₄, e⟩ := bind_ok e
    obtain ⟨-, r₄⟩ := look_ok e₄
    have r := (r₂.trans r₃).trans r₄
    split at e
    · exact emitAs_lexed (held_of_reads hb r (List.cons_ne_nil _ _))
        rfl token left e
    · cases e

theorem completes_equals (hb : k.Begun) (hc : k.ahead.head? = some '=') :
    Completes Lexed k k equals := by
  intro token left e
  obtain ⟨_, k₁, e₁, e⟩ := bind_ok e
  obtain ⟨-, r₁⟩ := consume_ok hc (by decide) e₁
  obtain ⟨found, k₂, e₂, e⟩ := bind_ok e
  obtain ⟨h₂, r₂⟩ := nextIs_ok e₂
  have r₂ := r₁.trans r₂
  cases found with
  | false =>
    exact emit_lexed (held_of_reads hb r₂ (List.cons_ne_nil _ _))
      rfl token left e
  | true =>
    obtain ⟨_, k₃, e₃, e⟩ := bind_ok e
    obtain ⟨-, r₃⟩ := consume_ok (h₂.1 rfl) (by decide) e₃
    have r := r₂.trans r₃
    exact emit_lexed (held_of_reads hb r (List.cons_ne_nil _ _))
      rfl token left e

theorem completes_hat {previous : Option Kind} (hb : k.Begun)
    (hc : k.ahead.head? = some '^') :
    Completes Lexed k k (hat previous) := by
  unfold hat
  split
  · exact (completes_hatHat hb hc).lexed
  · intro token left e
    obtain ⟨_, k₁, e₁, e⟩ := bind_ok e
    obtain ⟨-, r₁⟩ := consume_ok hc (by decide) e₁
    obtain ⟨found, k₂, e₂, e⟩ := bind_ok e
    obtain ⟨-, r₂⟩ := nextIs_ok e₂
    cases found with
    | false =>
      have h := held_of_reads hb (r₁.trans r₂) (List.cons_ne_nil _ _)
      exact emit_lexed h rfl token left e
    | true => cases e

/-- A bare word that was not declared comes to a name with a colon before it, so that its
text does not spell it. -/
theorem completes_bareWord {k₀ : Cursor} {cs ws word : List Char}
    (h : k₀.Held cs ws k) :
    Completes Lexed k₀ k (bareWord v word) := by
  unfold bareWord
  split
  · exact emit_lexed h rfl
  · split
    · split
      · exact emit_lexed h (isMark_keywordKind _)
      · exact emitAs_lexed h rfl
    · split
      · exact completes_invalidForm _ _
      · exact emit_lexed h (isMark_keywordKind _)

/-- A name, or whatever becomes of a bare word. -/
theorem completes_name {c : Char} (hb : k.Begun) (hc : k.ahead.head? = some c)
    (hl : leadsName c = true) : Completes Lexed k k (name v) := by
  intro token left e
  rcases name_ok hb (Reads.refl k) kept_nil (head_ne_dot hc hl)
    (Or.inr ⟨c, hc, hl⟩) e with
    ⟨cs, h⟩ | ⟨mid, cs, ws, h, -, -, e⟩
  · exact ⟨cs, h.toLexed⟩
  · have e := get_bind_ok e
    exact completes_bareWord h token left e

/-- Whatever the first character, what comes of it is a lexeme. -/
theorem completes_dispatch {previous : Option Kind} {c : Char} (hb : k.Begun)
    (hc : k.ahead.head? = some c) :
    Completes Lexed k k (dispatch v previous c) := by
  unfold dispatch
  split
  · exact (completes_comment hb hc).lexed
  · exact completes_referenceOrArrow hb hc
  · exact (Scan.completes_literal hb hc (Or.inl rfl)).lexed
  · exact (Scan.completes_literal hb hc (Or.inr rfl)).lexed
  · split
    · exact (completes_languageTag hb hc).lexed
    · exact completes_directive hb hc
  · exact completes_hat hb hc
  · exact completes_equals hb hc
  · exact (completes_single hb hc (by decide) (fun _ => rfl) rfl).lexed
  · exact (completes_questionVariable hb hc).lexed
  · exact (completes_dotOrNumber hb hc fun mid r =>
      completes_number hb r (kept_singleton (by decide))).lexed
  · exact (completes_single hb hc (by decide) (fun _ => rfl) rfl).lexed
  · exact (completes_single hb hc (by decide) (fun _ => rfl) rfl).lexed
  · exact (completes_single hb hc (by decide) (fun _ => rfl) rfl).lexed
  · exact (completes_single hb hc (by decide) (fun _ => rfl) rfl).lexed
  · exact (completes_single hb hc (by decide) (fun _ => rfl) rfl).lexed
  · exact (completes_single hb hc (by decide) (fun _ => rfl) rfl).lexed
  · exact (completes_single hb hc (by decide) (fun _ => rfl) rfl).lexed
  · exact (completes_single hb hc (by decide) (fun _ => rfl) rfl).lexed
  · exact (completes_number hb (Reads.refl k) kept_nil).lexed
  · exact (completes_number hb (Reads.refl k) kept_nil).lexed
  · exact completes_name hb hc (leadsName_ascii (by decide))
  · exact completes_name hb hc (leadsName_ascii (by decide))
  · exact completes_name hb hc (leadsName_ascii (by decide))
  · split
    · exact (completes_number hb (Reads.refl k) kept_nil).lexed
    · split
      · rename_i hopens
        exact completes_name hb hc (leadsName_of_opensName hopens)
      · exact completes_unexpectedCharacter _ _

/-- All tokens of Notation 3. Commas are gaps in declarations only, but blank characters are
everywhere. -/
theorem finds_read {previous : Option Kind} :
    Finds Lexed (if v.isReading then isGap else Unicode.isBlank) k (read v previous) := by
  unfold read
  split
  · exact finds_declaration
  · split
    · exact finds_prefixName.lexed
    · exact Scan.finds_datatype.lexed
    · exact finds_blankThen fun c k' hb hc => completes_dispatch hb hc

end Notation3

end TripleLex.Graph

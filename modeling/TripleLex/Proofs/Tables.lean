import TripleLex.Proofs.Readers
import TripleLex.Table.Tsv

/-!
# Lexemes of tables

Every token of comma-separated values is a lexeme where reading stands; in
tab-separated values it is one behind spaces, or, behind the sign of a datatype,
behind blank characters. A doubled quotation mark is text once, so these tokens
do not spell what was read.

## Main results

* `Csv.finds_read`, `Tsv.finds_read`.
-/

namespace TripleLex.Table

open Scan Cursor

variable {k : Cursor}

/-! ## Comma-separated values -/

namespace Csv

/-- What a field goes on with that no comma and no line end cuts off. -/
def isBare (c : Char) : Bool := !(c == ',' || Unicode.isLineEnd c)

/-- What a field without quotation marks holds. -/
def isPlain (c : Char) : Bool := isBare c && c != '"'

theorem not_isLineEnd_of_isPlain {c : Char} (h : isPlain c = true) :
    Unicode.isLineEnd c = false :=
  not_isLineEnd_of (by decide) (by decide) h

theorem bareTurn_ok {left : Cursor} (s : Unit) (r : Turn Unit Unit)
    (e : bareTurn s k = .ok r left) :
    r.RunsOn isPlain true k left := by
  rcases look_bind_ok e with ⟨k₁, r₁, hk, e⟩ | ⟨c, k₁, r₁, hc, e⟩
  · cases e
    exact ⟨r₁, by simp [hk]⟩
  · dsimp only at e
    split at e
    · rename_i hstop
      cases e
      refine ⟨r₁, ?_⟩
      intro d hd
      rw [hc] at hd
      cases hd
      rw [isPlain, isBare, hstop, Bool.not_true, Bool.false_and]
    · rename_i hbare
      split at e
      · cases e
      · rename_i hmark
        have hplain : isPlain c = true := by
          rw [isPlain, isBare, Bool.eq_false_iff.2 hbare, Bool.not_false, Bool.true_and]
          exact bne_iff_ne.2 fun hc => hmark (beq_iff_eq.2 hc)
        obtain ⟨_, k₂, e₂, e⟩ := bind_ok e
        obtain ⟨-, r₂⟩ := consume_ok hc (not_isLineEnd_of_isPlain hplain) e₂
        cases e
        exact ⟨[c], by simpa using hplain, r₁.trans r₂⟩

theorem completes_bareField {c : Char} (hb : k.Begun)
    (hc : k.ahead.head? = some c) (h : isPlain c = true) :
    Completes Lexed k k bareField := by
  intro t left e
  obtain ⟨_, k₁, e₁, e⟩ := bind_ok e
  have r₁ := run_ok (fun s _ r _ e => bareTurn_ok s r e) e₁
  exact emit_lexed (held_of_reads hb r₁ (takeWhile_ne_nil hc h)) rfl t left e

/-- A text with every quotation mark doubled. -/
def doubled (text : List Char) : List Char :=
  text.flatMap fun c => if c == '"' then ['"', '"'] else [c]

theorem doubled_append (text more : List Char) :
    doubled (text ++ more) = doubled text ++ doubled more := List.flatMap_append

theorem doubled_eq {text : List Char} (h : ∀ c ∈ text, c ≠ '"') : doubled text = text := by
  induction text with
  | nil => rfl
  | cons c text ih =>
    have hc : (c == '"') = false := beq_eq_false_iff_ne.2 (h c List.mem_cons_self)
    have htail := ih fun d hd => h d (List.mem_cons_of_mem _ hd)
    unfold doubled at htail ⊢
    rw [List.flatMap_cons, htail, hc]
    rfl

/-- What a turn inside quotation marks reads of the text it writes: the text with
its quotation marks doubled, and in the last turn the mark that closes. -/
def Doubles (cs ws : List Char) : Turn Unit Unit → Prop
  | .again _ => cs = doubled ws
  | .done _ => cs = doubled ws ++ ['"']

theorem markTurn_ok {left : Cursor} (hc : k.ahead.head? = some '"')
    (r : Turn Unit Unit) (e : markTurn k = .ok r left) :
    ∃ cs ws, k.Reads cs ws left ∧ Doubles cs ws r := by
  obtain ⟨_, k₁, e₁, e⟩ := bind_ok e
  obtain ⟨-, r₁⟩ := skip_ok hc (by decide) e₁
  obtain ⟨found, k₂, e₂, e⟩ := bind_ok e
  obtain ⟨h₂, r₂⟩ := nextIs_ok e₂
  have r₂ := r₁.trans r₂
  cases found with
  | false =>
    cases e
    exact ⟨_, _, r₂, rfl⟩
  | true =>
    obtain ⟨_, k₃, e₃, e⟩ := bind_ok e
    obtain ⟨-, r₃⟩ := consume_ok (h₂.1 rfl) (by decide) e₃
    cases e
    exact ⟨_, _, r₂.trans r₃, rfl⟩

/-- A character of a text that may hold line ends, which are kept whole. -/
theorem consumeAny_ok {left : Cursor} {c : Char} (hc : k.ahead.head? = some c)
    (hmark : c ≠ '"') (r : Turn Unit Unit) (e : (if Unicode.isLineEnd c then do
        consumeLineEnd true false
        return .again ()
      else do
        let _ ← consume
        return .again () : Scan (Turn Unit Unit)) k = .ok r left) :
    ∃ cs ws, k.Reads cs ws left ∧ Doubles cs ws r := by
  split at e
  · rename_i hl
    obtain ⟨_, k₁, e₁, e⟩ := bind_ok e
    obtain ⟨cs, hcs, r₁⟩ := consumeLineEnd_ok hc hl e₁
    have hmarks : ∀ d ∈ c :: cs, d ≠ '"' := by
      intro d hd hm
      rcases List.mem_cons.1 hd with rfl | hd
      · exact hmark hm
      · exact absurd (hcs d hd) (by rw [hm]; decide)
    cases e
    exact ⟨_, _, r₁, (doubled_eq hmarks).symm⟩
  · rename_i hl
    obtain ⟨_, k₁, e₁, e⟩ := bind_ok e
    obtain ⟨-, r₁⟩ := consume_ok hc (by simpa using hl) e₁
    cases e
    exact ⟨_, _, r₁, (doubled_eq (by simpa using hmark)).symm⟩

theorem quotedTurn_ok {left : Cursor} (s : Unit) (r : Turn Unit Unit)
    (e : quotedTurn s k = .ok r left) :
    ∃ cs ws, k.Reads cs ws left ∧ Doubles cs ws r := by
  rcases look_bind_ok e with ⟨k₁, r₁, hk, e⟩ | ⟨c, k₁, r₁, hc, e⟩
  · exact absurd e unexpectedEnd_ne_ok
  · dsimp only at e
    split at e
    · rename_i hmark
      rw [beq_iff_eq] at hmark
      rw [hmark] at hc
      obtain ⟨cs, ws, r₂, hr⟩ := markTurn_ok hc r e
      exact ⟨cs, ws, r₁.trans r₂, hr⟩
    · rename_i hmark
      obtain ⟨cs, ws, r₂, hr⟩ := consumeAny_ok hc (fun hc => hmark (beq_iff_eq.2 hc)) r e
      exact ⟨cs, ws, r₁.trans r₂, hr⟩

/-- The turns of a field between quotation marks read its text doubled, with the
mark that closes it. -/
theorem quotedBody_ok {left : Cursor} {u : Unit}
    (e : iterate quotedTurn advances_quotedTurn () k = .ok u left) :
    ∃ ws, k.Reads (doubled ws ++ ['"']) ws left := by
  have hhands : ∀ {r : Turn Unit Unit} {cs ws : List Char} {mid : Cursor}, Doubles cs ws r →
      r.HandsOn (fun _ _ _ cs ws => cs = doubled ws ++ ['"']) () cs ws mid := by
    rintro ⟨_⟩ cs ws mid hr
    · intro _ _ ds vs htail
      rw [htail, show cs = doubled ws from hr, doubled_append, List.append_assoc]
    · exact hr
  obtain ⟨cs, ws, r, hcs⟩ := iterate_ok (φ := fun _ _ _ cs ws => cs = doubled ws ++ ['"'])
    (fun s _ r _ e => by
      obtain ⟨cs, ws, r₁, hr⟩ := quotedTurn_ok s r e
      exact ⟨cs, ws, r₁, hhands hr⟩) e
  rw [hcs] at r
  exact ⟨ws, r⟩

/-- A field between quotation marks, up to its token. -/
theorem quotedField_reads {t : Token} {left : Cursor} (hc : k.ahead.head? = some '"')
    (e : quotedField k = .ok t left) :
    ∃ ws mid, k.Reads ('"' :: (doubled ws ++ ['"'])) ws mid ∧
      emit .literal mid = .ok t left := by
  obtain ⟨_, k₁, e₁, e⟩ := bind_ok e
  obtain ⟨-, r₁⟩ := skip_ok hc (by decide) e₁
  obtain ⟨_, k₂, e₂, e⟩ := bind_ok e
  obtain ⟨ws, r₂⟩ := quotedBody_ok e₂
  have r₂ := r₁.trans r₂
  rcases look_bind_ok e with ⟨k₃, r₃, -, e⟩ | ⟨c, k₃, r₃, -, e⟩
  · exact ⟨ws, k₃, by simpa using r₂.trans r₃, e⟩
  · dsimp only at e
    split at e
    · exact ⟨ws, k₃, by simpa using r₂.trans r₃, e⟩
    · cases e

theorem completes_quotedField (hb : k.Begun) (hc : k.ahead.head? = some '"') :
    Completes Lexed k k quotedField := by
  intro t left e
  obtain ⟨ws, mid, r, e⟩ := quotedField_reads hc e
  exact emit_lexed (held_of_reads hb r (List.cons_ne_nil _ _)) rfl t left e

theorem completes_recordEnd {c : Char} (hb : k.Begun)
    (hc : k.ahead.head? = some c) (hl : Unicode.isLineEnd c = true) :
    Completes Lexed k k recordEnd := by
  intro t left e
  obtain ⟨_, k₁, e₁, e⟩ := bind_ok e
  obtain ⟨cs, -, r₁⟩ := consumeLineEnd_ok hc hl e₁
  exact emitBare_lexed (held_of_reads hb r₁ (List.cons_ne_nil _ _)) rfl t left e

theorem completes_dispatch {c : Char} (hb : k.Begun)
    (hc : k.ahead.head? = some c) :
    Completes Lexed k k (dispatch c) := by
  unfold dispatch
  split
  · rename_i hcomma
    rw [beq_iff_eq] at hcomma
    exact (completes_single hb hc (by rw [hcomma]; decide) (fun _ => rfl) rfl).lexed
  · rename_i hcomma
    split
    · rename_i hl
      exact completes_recordEnd hb hc hl
    · rename_i hl
      split
      · rename_i hmark
        rw [beq_iff_eq] at hmark
        rw [hmark] at hc
        exact completes_quotedField hb hc
      · rename_i hmark
        refine completes_bareField hb hc ?_
        rw [isPlain, isBare, Bool.eq_false_iff.2 hcomma, Bool.eq_false_iff.2 hl]
        exact bne_iff_ne.2 fun hc => hmark (beq_iff_eq.2 hc)

theorem passes_nothing (k : Cursor) :
    k.Passes (k.ahead.takeWhile fun _ => false) k := by
  have hnil : (k.ahead.takeWhile fun _ => false) = [] := by
    cases k.ahead <;> rfl
  rw [hnil]
  exact (Reads.refl k).passes

theorem finds_read (hb : k.Begun) : Finds Lexed (fun _ => false) k read :=
  fun _ _ e => finds_tokenHere (passes_nothing k) hb (fun _ _ hb hc =>
    completes_dispatch hb hc) e

end Csv

/-! ## Tab-separated values -/

namespace Tsv

theorem discardSpaces_ok {left : Cursor} {u : Unit}
    (e : discardSpaces k = .ok u left) :
    k.Passes (k.ahead.takeWhile (· == ' ')) left ∧ left.Begun := by
  obtain ⟨_, k₁, e₁, e⟩ := bind_ok e
  have r := skipWhile_ok
    (fun c h => not_isLineEnd_of (p := (· == ' ')) (by decide) (by decide) h) e₁
  rw [startToken_ok e]
  exact ⟨⟨r.ahead, r.here, r.apart⟩, begun_fresh k₁⟩

/-- An escape is read from its backslash on. -/
theorem escape_reads {context : EscapeContext} {left : Cursor} {u : Unit}
    (hc : k.ahead.head? = some '\\') (e : decodeEscape context k = .ok u left) :
    ∃ cs ws, k.Reads cs ws left ∧ '\\' ∈ cs := by
  obtain ⟨cs, ws, r, -, -⟩ := decodeEscape_ok hc e
  have htakes := (takes_decodeEscape context k u left e).2 trivial
  have ha := r.ahead
  refine ⟨cs, ws, r, ?_⟩
  cases cs with
  | nil =>
    rw [ha] at htakes
    exact absurd htakes (Nat.lt_irrefl _)
  | cons c cs =>
    rw [ha] at hc
    cases hc
    exact List.mem_cons_self

/-- A turn of a literal reads the text that it writes doubled, unless it reads an
escape. -/
theorem literalTurn_ok {left : Cursor} (s : Unit) (r : Turn Unit Unit)
    (e : literalTurn s k = .ok r left) :
    ∃ cs ws, k.Reads cs ws left ∧ ('\\' ∉ cs → Csv.Doubles cs ws r) := by
  rcases look_bind_ok e with ⟨k₁, r₁, hk, e⟩ | ⟨c, k₁, r₁, hc, e⟩
  · exact absurd e unexpectedEnd_ne_ok
  · dsimp only at e
    split at e
    · rename_i hb
      rw [beq_iff_eq] at hb
      rw [hb] at hc
      obtain ⟨_, k₂, e₂, e⟩ := bind_ok e
      obtain ⟨cs, ws, r₂, hslash⟩ := escape_reads hc e₂
      cases e
      exact ⟨cs, ws, r₁.trans r₂, fun hn => absurd hslash hn⟩
    · split at e
      · rename_i hmark
        rw [beq_iff_eq] at hmark
        rw [hmark] at hc
        obtain ⟨cs, ws, r₂, hr⟩ := Csv.markTurn_ok hc r e
        exact ⟨cs, ws, r₁.trans r₂, fun _ => hr⟩
      · rename_i hmark
        obtain ⟨cs, ws, r₂, hr⟩ := Csv.consumeAny_ok hc (fun hc => hmark (beq_iff_eq.2 hc)) r e
        exact ⟨cs, ws, r₁.trans r₂, fun _ => hr⟩

/-- So do all its turns, with the mark that closes it. -/
theorem literalBody_ok {left : Cursor} {u : Unit}
    (e : iterate literalTurn advances_literalTurn () k = .ok u left) :
    ∃ cs ws, k.Reads cs ws left ∧ ('\\' ∉ cs → cs = Csv.doubled ws ++ ['"']) := by
  have hhands : ∀ {r : Turn Unit Unit} {cs ws : List Char} {mid : Cursor},
      ('\\' ∉ cs → Csv.Doubles cs ws r) →
      r.HandsOn (fun _ _ _ cs ws => '\\' ∉ cs → cs = Csv.doubled ws ++ ['"']) () cs ws mid := by
    rintro ⟨_⟩ cs ws mid hr
    · intro _ _ ds vs htail hn
      rw [List.mem_append, not_or] at hn
      rw [htail hn.2, show cs = Csv.doubled ws from hr hn.1, Csv.doubled_append, List.append_assoc]
    · exact hr
  exact iterate_ok (φ := fun _ _ _ cs ws => '\\' ∉ cs → cs = Csv.doubled ws ++ ['"'])
    (fun s _ r _ e => by
      obtain ⟨cs, ws, r₁, hr⟩ := literalTurn_ok s r e
      exact ⟨cs, ws, r₁, hhands hr⟩) e

/-- A literal, up to its token. -/
theorem literal_reads {t : Token} {left : Cursor} (hc : k.ahead.head? = some '"')
    (e : literal k = .ok t left) :
    ∃ cs ws mid, k.Reads ('"' :: cs) ws mid ∧ ('\\' ∉ cs → cs = Csv.doubled ws ++ ['"']) ∧
      emit .literal mid = .ok t left := by
  obtain ⟨_, k₁, e₁, e⟩ := bind_ok e
  obtain ⟨-, r₁⟩ := skip_ok hc (by decide) e₁
  obtain ⟨_, k₂, e₂, e⟩ := bind_ok e
  obtain ⟨cs, ws, r₂, hcs⟩ := literalBody_ok e₂
  exact ⟨cs, ws, k₂, r₁.trans r₂, hcs, e⟩

theorem completes_literal (hb : k.Begun) (hc : k.ahead.head? = some '"') :
    Completes Lexed k k literal := by
  intro t left e
  obtain ⟨cs, ws, mid, r, -, e⟩ := literal_reads hc e
  exact emit_lexed (held_of_reads hb r (List.cons_ne_nil _ _)) rfl t left e

theorem completes_name {c : Char} (hb : k.Begun) (hc : k.ahead.head? = some c)
    (hl : leadsName c = true) : Completes Copied k k name := by
  intro t left e
  rcases name_ok hb (Reads.refl k) kept_nil (head_ne_dot hc hl)
    (Or.inr ⟨c, hc, hl⟩) e with
    h | ⟨mid, cs, ws, h, hplain, -, e⟩
  · exact h
  · have e := get_bind_ok e
    split at e
    · exact emit_plain h (fun _ => rfl) rfl hplain t left e
    · cases e

theorem completes_dispatch {previous : Option Kind} {c : Char} (hb : k.Begun)
    (hc : k.ahead.head? = some c) :
    Completes Lexed k k (dispatch previous c) := by
  unfold dispatch
  split
  · exact (completes_single hb hc (by decide) (fun _ => rfl) rfl).lexed
  · exact (completes_reference hb hc).lexed
  · exact completes_literal hb hc
  · exact (completes_questionVariable hb hc).lexed
  · exact (completes_number hb (Reads.refl k) kept_nil).lexed
  · exact (completes_number hb (Reads.refl k) kept_nil).lexed
  · exact (completes_number hb (Reads.refl k) kept_nil).lexed
  · exact (completes_name hb hc (leadsName_ascii (by decide))).lexed
  · exact (completes_name hb hc (leadsName_ascii (by decide))).lexed
  · split
    · rename_i hl
      exact Csv.completes_recordEnd hb hc hl
    · split
      · rename_i hat
        simp only [Bool.and_eq_true, beq_iff_eq] at hat
        rw [hat.1] at hc
        exact (completes_languageTag hb hc).lexed
      · split
        · rename_i hhat
          simp only [Bool.and_eq_true, beq_iff_eq] at hhat
          rw [hhat.1] at hc
          exact (completes_hatHat hb hc).lexed
        · split
          · exact (completes_number hb (Reads.refl k) kept_nil).lexed
          · split
            · rename_i hopens
              exact (completes_name hb hc (leadsName_of_opensName hopens)).lexed
            · exact completes_unexpectedCharacter _ _

/-- What is passed over behind a token of a kind. -/
def isGapBehind : Option Kind → Char → Bool
  | some .hatHat => Unicode.isBlank
  | _ => (· == ' ')

theorem isGapBehind_of_ne {previous : Option Kind}
    (h : previous ≠ some .hatHat) :
    isGapBehind previous = (· == ' ') := by
  unfold isGapBehind
  split
  · exact absurd rfl h
  · rfl

theorem isBlank_of_isGapBehind {previous : Option Kind} {c : Char}
    (h : isGapBehind previous c = true) : Unicode.isBlank c = true := by
  by_cases hp : previous = some .hatHat
  · rw [hp] at h
    exact h
  · rw [isGapBehind_of_ne hp, beq_iff_eq] at h
    rw [h]
    decide

theorem finds_read {previous : Option Kind} :
    Finds Lexed (isGapBehind previous) k (read previous) := by
  by_cases hp : previous = some .hatHat
  · rw [hp]
    exact finds_datatype.lexed
  · rw [isGapBehind_of_ne hp]
    unfold read
    split
    · exact absurd rfl hp
    · intro t left e
      obtain ⟨_, k₁, e₁, e⟩ := bind_ok e
      obtain ⟨hgap, hb⟩ := discardSpaces_ok e₁
      exact finds_tokenHere hgap hb (fun _ _ hb hc => completes_dispatch hb hc) e

end Tsv

end TripleLex.Table

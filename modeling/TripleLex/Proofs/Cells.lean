import TripleLex.Proofs.Progress
import TripleLex.Proofs.ReaderKinds
import TripleLex.Proofs.Separators

/-!
# Cells of tab-separated values

A text without backslashes that is read as tab-separated values is its tokens in
their order, with gaps before them (`LaidOut`). A tab or a line end that stands in
no literal is a token of its own, for no other term holds one, and a gap consists
of spaces, with one exception: behind the sign of a datatype every blank character
is passed over. So the separators of a text are those among the tokens, those
inside literals, and those that stand between such a sign and its datatype
(`cells_kept`).

What is counted, tabs or line ends, is a parameter (`Counts`).

## Main results

* `Table.Tsv.finds_cell` — how a token stands in the text.
* `Table.Tsv.LaidOut.counted` — the separators of a text that is laid with tokens.
* `Lexer.cells_kept` — whole texts.
* `Lexer.separators_overlooked` — separators that no token stands for.
-/

namespace TripleLex

open Scan Cursor

namespace Table.Tsv

/-! ## Tokens in their text -/

/-- Whether the token separates, or may hold what does. -/
def isOfSeparators : Kind → Bool
  | .tab | .lineEnd | .literal => true
  | _ => false

/-- How a token stands in a text without backslashes: the characters of it, before
the rest of the text. -/
inductive Stands (t : Token) (rest : List Char) : List Char → Prop
  | tab (h : t.kind = .tab) : Stands t rest ['\t']
  | lineEnd {c : Char} {cs : List Char} (h : t.kind = .lineEnd)
      (hc : Unicode.isLineEnd c = true) (hcs : OtherHalf c rest cs) : Stands t rest (c :: cs)
  | literal (h : t.kind = .literal) :
      Stands t rest ('"' :: (Csv.doubled t.text.toList ++ ['"']))
  | other {cs : List Char} (h : isOfSeparators t.kind = false)
      (hcs : ∀ c ∈ cs, separates c = false) : Stands t rest cs

/-- The next characters `cs` were read as a token that stands for them. -/
structure Cell (k : Cursor) (cs : List Char) (t : Token) (left : Cursor) : Prop where
  ahead : k.ahead = cs ++ left.ahead
  stands : Stands t left.ahead cs
  previous : left.previous = some t.kind
  inner : t.kind.isMark = false

/-- So they were if there is no escape. -/
def CellIfPlain (k : Cursor) (cs : List Char) (t : Token) (left : Cursor) : Prop :=
  '\\' ∉ k.ahead → Cell k cs t left

theorem Within.cell {k left : Cursor} {cs : List Char} {t : Token} (h : Within k left)
    (hc : k.Copied cs t left) (ht : isOfSeparators t.kind = false) (hn : '\\' ∉ k.ahead) :
    Cell k cs t left := by
  have hahead := (hc.copied hn).1
  obtain ⟨-, ds, rest, hk, ⟨back, hback⟩, hds⟩ := h
  rw [hahead, ← hback, ← List.append_assoc] at hk
  refine ⟨hahead, .other ht fun c hm => hds c ?_, hc.previous, hc.inner⟩
  rw [← List.append_cancel_right hk]
  exact List.mem_append_left _ hm

section Cells

variable {k : Cursor}

theorem completes_term {m : Scan Token} {kinds : List Kind} (hc : Completes Copied k k m)
    (hs : Solid k m) (hm : Makes (OfKind kinds) k m)
    (hk : ∀ kind ∈ kinds, isOfSeparators kind = false) : Completes CellIfPlain k k m := by
  intro t left e
  obtain ⟨cs, hcs⟩ := hc t left e
  exact ⟨cs, fun hn => (hs t left e hn).cell hcs (hm.ofKind hk t left e) hn⟩

theorem kinds_variableName : Makes (OfKind [.queryVariable]) k variableName :=
  makes_bind fun _ _ => kinds_variableToken

theorem kinds_name :
    Makes (OfKind [.anonymousNode, .blankNode, .prefixedName, .plainLiteral]) k name := by
  refine makes_bind fun _ _ => kinds_nameToken?.bind fun o _ ht => ?_
  split
  · refine makes_pure ?_
    exact List.mem_append_left [Kind.plainLiteral] (ht _ rfl)
  · refine makes_get ?_
    split
    · exact kinds_emit (by decide)
    · exact makes_invalidForm _ _

/-! ### All readers -/

theorem cell_tab (hc : k.ahead.head? = some '\t') :
    Completes CellIfPlain k k (single .tab) := by
  intro t left e
  obtain ⟨_, k₁, e₁, e⟩ := bind_ok e
  obtain ⟨-, r⟩ := consume_ok hc (by decide) e₁
  obtain ⟨hk, -, he⟩ := emit_ok e
  refine ⟨['\t'], fun _ => ⟨?_, .tab hk, he.previous, by rw [hk]; rfl⟩⟩
  rw [he.ahead]
  exact r.ahead

theorem cell_lineEnd {c : Char} (hc : k.ahead.head? = some c)
    (hl : Unicode.isLineEnd c = true) : Completes CellIfPlain k k Csv.recordEnd := by
  intro t left e
  obtain ⟨_, k₁, e₁, e⟩ := bind_ok e
  obtain ⟨cs, hcs, r⟩ := consumeLineEnd_reads hc hl e₁
  obtain ⟨hk, he⟩ := emitBare_ok e
  rw [← he.ahead] at hcs
  refine ⟨c :: cs, fun _ => ⟨?_, .lineEnd hk hl hcs, he.previous, by rw [hk]; rfl⟩⟩
  rw [he.ahead]
  exact r.ahead

theorem cell_literal (hb : k.Begun) (hc : k.ahead.head? = some '"') :
    Completes CellIfPlain k k literal := by
  intro t left e
  obtain ⟨cs, ws, mid, r, hplain, e⟩ := literal_reads hc e
  obtain ⟨hk, ht, he⟩ := emit_ok e
  refine ⟨'"' :: cs, fun hn => ⟨?_, ?_, he.previous, by rw [hk]; rfl⟩⟩
  · rw [he.ahead]
    exact r.ahead
  · have hcs : '\\' ∉ cs := by
      rw [r.ahead] at hn
      exact fun hm => hn (List.mem_append_left _ (List.mem_cons_of_mem _ hm))
    have htext : t.text.toList = ws := by rw [ht, mid.toList_text, r.value hb]
    rw [hplain hcs, ← htext]
    exact .literal hk

theorem cell_dispatch {previous : Option Kind} {c : Char} (hb : k.Begun)
    (hc : k.ahead.head? = some c) : Completes CellIfPlain k k (dispatch previous c) := by
  have hnumber := completes_term (completes_number hb (Reads.refl k) kept_nil) solid_number
    kinds_number (by decide)
  have hname : leadsName c = true → Completes CellIfPlain k k name := fun hl =>
    completes_term (completes_name hb hc hl) solid_name kinds_name (by decide)
  unfold dispatch
  split
  · exact cell_tab hc
  · exact completes_term (completes_reference hb hc) (solid_reference hc) kinds_reference
      (by decide)
  · exact cell_literal hb hc
  · exact completes_term (completes_questionVariable hb hc) (solid_variableName hc)
      kinds_variableName (by decide)
  · exact hnumber
  · exact hnumber
  · exact hnumber
  · exact hname (leadsName_ascii (by decide))
  · exact hname (leadsName_ascii (by decide))
  · split
    · rename_i hl
      exact cell_lineEnd hc hl
    · split
      · rename_i hat
        simp only [Bool.and_eq_true, beq_iff_eq] at hat
        rw [hat.1] at hc
        exact completes_term (completes_languageTag hb hc) (solid_languageTag hc)
          kinds_languageTag (by decide)
      · split
        · rename_i hhat
          simp only [Bool.and_eq_true, beq_iff_eq] at hhat
          rw [hhat.1] at hc
          exact completes_term (completes_hatHat hb hc) (solid_hatHat hc) kinds_hatHat
            (by decide)
        · split
          · exact hnumber
          · split
            · rename_i hopens
              exact hname (leadsName_of_opensName hopens)
            · exact completes_unexpectedCharacter _ _

/-- Behind the blank characters a datatype is read without separators. -/
theorem within_datatype {rule : Name.Rule} {t : Token} {left mid : Cursor}
    (hp : k.Passes (k.ahead.takeWhile Unicode.isBlank) mid) (hn : '\\' ∉ mid.ahead)
    (e : datatype rule k = .ok t left) : Within mid left := by
  obtain ⟨_, k₁, e₁, e⟩ := bind_ok e
  have hahead : k₁.ahead = mid.ahead :=
    List.append_cancel_left ((discardBlank_ok e₁).1.ahead.symm.trans hp.ahead)
  have hwithin : Within k₁ left := by
    rw [← hahead] at hn
    rcases look_bind_ok e with ⟨k₂, r₂, -, e⟩ | ⟨c, k₂, r₂, hc, e⟩
    · exact absurd e unexpectedEnd_ne_ok
    · have hmid := within_of_ahead r₂.ahead_eq hn
      refine hmid.trans ?_
      dsimp only at e
      split at e
      · rename_i hlt
        rw [beq_iff_eq] at hlt
        rw [hlt] at hc
        exact solid_referenceDatatype hc t left e hmid.1
      · split at e
        · cases e
        · exact solid_nameDatatype t left e hmid.1
  unfold Within at hwithin ⊢
  rwa [hahead] at hwithin

theorem finds_cell {previous : Option Kind} :
    Finds CellIfPlain (isGapBehind previous) k (read previous) := by
  by_cases hp : previous = some .hatHat
  · rw [hp]
    intro t left e
    have hk : ∀ kind ∈ [Kind.datatype], isOfSeparators kind = false := by decide
    obtain ⟨mid, hpass, hends | ⟨cs, hcs⟩⟩ := finds_datatype t left e
    · exact ⟨mid, hpass, Or.inl hends⟩
    · exact ⟨mid, hpass, Or.inr ⟨cs, fun hn =>
        (within_datatype hpass hn e).cell hcs (kinds_datatype.ofKind hk t left e) hn⟩⟩
  · rw [isGapBehind_of_ne hp]
    unfold read
    split
    · exact absurd rfl hp
    · intro t left e
      obtain ⟨_, k₁, e₁, e⟩ := bind_ok e
      obtain ⟨hgap, hb⟩ := discardSpaces_ok e₁
      exact finds_tokenHere hgap hb (fun _ _ hb hc => cell_dispatch hb hc) e

end Cells

/-! ## Tables -/

/-- The blank characters passed over behind a token of a kind, where they may
separate. -/
def overlooked (kind : Kind) (text : List Char) : List (List Char) :=
  if kind = .hatHat then [text.takeWhile Unicode.isBlank] else []

/-- The text is what the tokens stand for, in their order and behind gaps. The gaps
that may hold separators are listed last. -/
inductive LaidOut : Kind → List Token → List Char → List (List Char) → Prop
  | nil {kind : Kind} {text : List Char} (h : text.dropWhile (isGapBehind (some kind)) = []) :
      LaidOut kind [] text (overlooked kind text)
  | cons {kind : Kind} {t : Token} {ts : List Token} {text cs rest : List Char}
      {gaps : List (List Char)} (h : text.dropWhile (isGapBehind (some kind)) = cs ++ rest)
      (hs : Stands t rest cs) (hl : LaidOut t.kind ts rest gaps) :
      LaidOut kind (t :: ts) text (overlooked kind text ++ gaps)

/-- The texts of the quoted literals. -/
def literalTexts (ts : List Token) : List (List Char) :=
  (ts.filter fun t => t.kind == .literal).map fun t => t.text.toList

/-- What is counted in several texts. -/
def total (μ : List Char → Nat) : List (List Char) → Nat
  | [] => 0
  | text :: texts => μ text + total μ texts

@[simp] theorem total_nil (μ : List Char → Nat) : total μ [] = 0 := rfl

@[simp] theorem total_singleton (μ : List Char → Nat) (text : List Char) :
    total μ [text] = μ text := rfl

theorem total_append (μ : List Char → Nat) (texts more : List (List Char)) :
    total μ (texts ++ more) = total μ texts + total μ more := by
  induction texts with
  | nil => exact (Nat.zero_add _).symm
  | cons text texts ih => rw [List.cons_append, total, total, ih, Nat.add_assoc]

/-- A count of what tokens of a kind stand for, as far as it stands in no literal. -/
structure Counts (kind : Kind) (μ : List Char → Nat) : Prop where
  nil : μ [] = 0
  cut : ∀ cs rest : List Char, (∀ c, rest.head? = some c → Unicode.isLineEnd c = false) →
    μ (cs ++ rest) = μ cs + μ rest
  inner : ∀ cs rest : List Char, (∀ c ∈ cs, separates c = false) → μ (cs ++ rest) = μ rest
  stands : ∀ t rest cs, Stands t rest cs → μ (cs ++ rest) =
    (if t.kind == kind then 1 else 0) + total μ (literalTexts [t]) + μ rest

theorem literalTexts_append (ts us : List Token) :
    literalTexts (ts ++ us) = literalTexts ts ++ literalTexts us := by
  rw [literalTexts, List.filter_append, List.map_append]
  rfl

theorem literalTexts_cons (t : Token) (ts : List Token) :
    literalTexts (t :: ts) = literalTexts [t] ++ literalTexts ts :=
  literalTexts_append [t] ts

theorem literalTexts_of_ne {t : Token} (h : t.kind ≠ .literal) : literalTexts [t] = [] := by
  simp [literalTexts, h]

theorem literalTexts_of_literal {t : Token} (h : t.kind = .literal) :
    literalTexts [t] = [t.text.toList] := by
  simp [literalTexts, h]

theorem ne_of_not_isOfSeparators {t : Token} (h : isOfSeparators t.kind = false) :
    t.kind ≠ .tab ∧ t.kind ≠ .lineEnd ∧ t.kind ≠ .literal := by
  refine ⟨?_, ?_, ?_⟩ <;> (intro hk; rw [hk] at h; cases h)

theorem isLineEnd_of_otherHalf {c d : Char} {cs rest : List Char} (hc : Unicode.isLineEnd c = true)
    (h : OtherHalf c rest cs) (hd : d ∈ c :: cs) : Unicode.isLineEnd d = true := by
  cases h with
  | missing hne =>
    rw [List.mem_singleton.1 hd]
    exact hc
  | read hp =>
    rcases List.mem_cons.1 hd with rfl | hd
    · exact hc
    · rw [List.mem_singleton.1 hd]
      exact (isLineEnd_of_partner? hp).2

theorem counts_tab : Counts .tab (List.count '\t') where
  nil := rfl
  cut _ _ _ := List.count_append
  inner cs rest h := by rw [List.count_append, count_tab h, Nat.zero_add]
  stands t rest cs h := by
    rw [List.count_append]
    cases h with
    | tab hk =>
      rw [literalTexts_of_ne (by rw [hk]; decide), hk]
      rfl
    | lineEnd hk hc hcs =>
      rw [literalTexts_of_ne (by rw [hk]; decide), hk, List.count_eq_zero.2]
      · rfl
      · exact fun hm => absurd (isLineEnd_of_otherHalf hc hcs hm) (by decide)
    | literal hk =>
      rw [literalTexts_of_literal hk, hk, List.count_cons_of_ne (by decide), List.count_append,
        count_tab_doubled]
      simp
    | other hk hcs =>
      obtain ⟨htab, -, hlit⟩ := ne_of_not_isOfSeparators hk
      rw [literalTexts_of_ne hlit, count_tab hcs, if_neg (by simpa using htab)]
      rfl

theorem counts_lineEnd : Counts .lineEnd lineEnds where
  nil := rfl
  cut _ _ h := lineEnds_append h
  inner _ rest h := lineEnds_inner h rest
  stands t rest cs h := by
    cases h with
    | tab hk =>
      rw [literalTexts_of_ne (by rw [hk]; decide), hk]
      exact (lineEnds_inline (by decide) rest).trans (Nat.zero_add _).symm
    | lineEnd hk hc hcs =>
      rw [literalTexts_of_ne (by rw [hk]; decide), hk]
      exact lineEnds_otherHalf hc hcs
    | literal hk =>
      have hmark : ∀ c, ('"' :: rest).head? = some c → Unicode.isLineEnd c = false := by
        rintro c ⟨⟩
        decide
      rw [literalTexts_of_literal hk, hk, List.cons_append, lineEnds_inline (by decide),
        List.append_assoc, List.singleton_append, lineEnds_append hmark,
        lineEnds_inline (by decide), lineEnds_doubled]
      simp
    | other hk hcs =>
      obtain ⟨-, hend, hlit⟩ := ne_of_not_isOfSeparators hk
      rw [literalTexts_of_ne hlit, lineEnds_inner hcs, if_neg (by simpa using hend)]
      exact (Nat.zero_add _).symm

/-- A gap is counted only if it is overlooked. -/
theorem Counts.gap {kind : Kind} {μ : List Char → Nat} (h : Counts kind μ) (before : Kind)
    (text : List Char) : μ text = total μ (overlooked before text) +
      μ (text.dropWhile (isGapBehind (some before))) := by
  unfold overlooked
  split
  · rename_i hhat
    rw [hhat]
    conv => lhs; rw [← List.takeWhile_append_dropWhile (p := Unicode.isBlank) (l := text)]
    rw [h.cut]
    · simp [isGapBehind]
    · intro c hc
      have hnot := List.head?_dropWhile_not Unicode.isBlank text
      rw [hc] at hnot
      rw [← Bool.not_eq_true]
      intro hl
      simp [Unicode.isBlank_of_isLineEnd hl] at hnot
  · rename_i hhat
    have hgap : isGapBehind (some before) = (· == ' ') :=
      isGapBehind_of_ne fun hp => hhat (Option.some.inj hp)
    conv => lhs; rw [← List.takeWhile_append_dropWhile (p := isGapBehind (some before)) (l := text)]
    rw [h.inner]
    · simp
    · intro c hc
      have := List.all_eq_true.1 List.all_takeWhile c hc
      rw [hgap, beq_iff_eq] at this
      rw [this]
      decide

/-- The separators of a text are those of its tokens, those of its literals and those
overlooked. -/
theorem LaidOut.counted {kind before : Kind} {μ : List Char → Nat} (hμ : Counts kind μ)
    {ts : List Token} {text : List Char} {gaps : List (List Char)}
    (h : LaidOut before ts text gaps) :
    μ text = ts.countP (fun t => t.kind == kind) + total μ (literalTexts ts) + total μ gaps := by
  induction h with
  | @nil before text hnil =>
    rw [hμ.gap before, hnil, hμ.nil]
    simp [literalTexts]
  | @cons before t ts text cs rest gaps hdrop hs _ ih =>
    rw [hμ.gap before, hdrop, hμ.stands t rest cs hs, ih, literalTexts_cons t ts, total_append,
      total_append, List.countP_cons]
    omega

end Table.Tsv

/-! ## Runs -/

namespace Lexer

open Table.Tsv

/-- A call passes over the gap, and then nothing is left or a token stands there. -/
theorem next_cell {l l' : Lexer} {kind : Kind} {t : Token} (hm : l.machine = .tsv)
    (hp : l.cursor.previous = some kind) (hk : kind ≠ .ending) (hn : '\\' ∉ l.cursor.ahead)
    (e : l.next = (.ok t, l')) :
    ∃ mid : Cursor, l.cursor.ahead.dropWhile (isGapBehind (some kind)) = mid.ahead ∧
      (Ends mid t l'.cursor ∨ ∃ cs, Cell mid cs t l'.cursor) := by
  have e := read_of_next e hp hk
  rw [hm] at e
  obtain ⟨mid, hpass, h⟩ := finds_cell t l'.cursor e
  have hahead : l.cursor.ahead.dropWhile (isGapBehind (some kind)) = mid.ahead :=
    List.append_cancel_left (List.takeWhile_append_dropWhile.trans hpass.ahead)
  refine ⟨mid, hahead, h.imp id ?_⟩
  rintro ⟨cs, hcs⟩
  refine ⟨cs, hcs fun hm => hn ?_⟩
  rw [← hahead] at hm
  exact (List.dropWhile_suffix _).subset hm

/-- From a token on, a run that reaches the end lays the rest of the text. -/
theorem laid_of_reaches {l l' : Lexer} {kind : Kind} {between : List Token} {last : Token}
    (hm : l.machine = .tsv) (hp : l.cursor.previous = some kind) (hk : kind ≠ .ending)
    (hn : '\\' ∉ l.cursor.ahead) (h : Reaches l (between ++ [last]) l')
    (hlast : last.kind = .ending) (hbetween : ∀ t ∈ between, t.kind ≠ .ending) :
    ∃ gaps, LaidOut kind between l.cursor.ahead gaps := by
  induction between generalizing l kind with
  | nil =>
    obtain ⟨l₁, e, -⟩ := h.of_cons
    obtain ⟨mid, hahead, hends | ⟨cs, hcs⟩⟩ := next_cell hm hp hk hn e
    · rw [hends.nothing] at hahead
      exact ⟨_, .nil hahead⟩
    · exact absurd hlast (ne_ending_of_not_isMark hcs.inner)
  | cons t between ih =>
    obtain ⟨l₁, e, h⟩ := h.of_cons
    have ht := hbetween t List.mem_cons_self
    obtain ⟨mid, hahead, hends | ⟨cs, hcs⟩⟩ := next_cell hm hp hk hn e
    · rw [hends.token] at ht
      exact absurd rfl ht
    · have hn₁ : '\\' ∉ l₁.cursor.ahead := by
        intro hm
        apply hn
        refine (List.dropWhile_suffix (isGapBehind (some kind))).subset ?_
        rw [hahead, hcs.ahead]
        exact List.mem_append_right _ hm
      have hm₁ : l₁.machine = .tsv := by
        rw [(next_ok e).2, hm]
        rfl
      obtain ⟨gaps, hlaid⟩ := ih hm₁ hcs.previous ht hn₁ h
        fun u hu => hbetween u (List.mem_cons_of_mem _ hu)
      exact ⟨_, .cons (hahead.trans hcs.ahead) hcs.stands hlaid⟩

/-- A text of tab-separated values without backslashes is laid with its tokens. Its
tabs are the tokens for tabs, those inside literals and those overlooked between the
sign of a datatype and the datatype; its line ends likewise. -/
theorem cells_kept (level : Query.Level) (dialect : Graph.Dialect) (text : String)
    (ts : List Token) (hn : '\\' ∉ text.toList)
    (h : (ofText ⟨.tsv, level, dialect⟩ text).run = .ok ts) :
    ∃ between last gaps, ts = .beginning :: between ++ [last] ∧ last.kind = .ending ∧
      LaidOut .beginning between text.toList gaps ∧
      text.toList.count '\t' = ts.countP (fun t => t.kind == .tab) +
        total (List.count '\t') (literalTexts ts) + total (List.count '\t') gaps ∧
      lineEnds text.toList = ts.countP (fun t => t.kind == .lineEnd) +
        total lineEnds (literalTexts ts) + total lineEnds gaps := by
  obtain ⟨init, last, l₁, l', rfl, hlast, hinit, hreach, e⟩ := run_ok h
  have hreach := hreach.next e
  cases init with
  | nil =>
    obtain ⟨l₂, e, -⟩ := hreach.of_cons
    rw [next_beginning rfl] at e
    cases e
    cases hlast
  | cons t between =>
    obtain ⟨l₂, e, hreach⟩ := hreach.of_cons
    rw [next_beginning rfl] at e
    cases e
    have hbetween : ∀ u ∈ between, u.kind ≠ .ending :=
      fun u hu => hinit u (List.mem_cons_of_mem _ hu)
    have hlaid : ∃ gaps, LaidOut .beginning between text.toList gaps := by
      refine laid_of_reaches ?_ ?_ ?_ ?_ hreach hlast hbetween
      · rfl
      · rfl
      · decide
      · exact hn
    obtain ⟨gaps, hlaid⟩ := hlaid
    have hends : ∀ {kind : Kind}, kind ≠ .beginning → kind ≠ .ending →
        (Token.beginning :: between ++ [last]).countP (fun t => t.kind == kind) =
          between.countP fun t => t.kind == kind := by
      intro kind hb he
      have hb : (Token.beginning.kind == kind) = false := beq_eq_false_iff_ne.2 hb.symm
      have he : (last.kind == kind) = false := beq_eq_false_iff_ne.2 (hlast ▸ he.symm)
      simp [List.countP_append, hb, he]
    have hliterals :
        literalTexts (Token.beginning :: between ++ [last]) = literalTexts between := by
      rw [List.cons_append, literalTexts_cons, literalTexts_append,
        literalTexts_of_ne (t := last) (by rw [hlast]; decide), List.append_nil]
      rfl
    refine ⟨between, last, gaps, rfl, hlast, hlaid, ?_, ?_⟩
    · rw [hends (by decide) (by decide), hliterals]
      exact hlaid.counted counts_tab
    · rw [hends (by decide) (by decide), hliterals]
      exact hlaid.counted counts_lineEnd

set_option maxRecDepth 8192 in
/-- A tab inside a literal, one behind the sign of a datatype and one between cells. -/
theorem cells_kept_table : ∃ ts,
    (ofText ⟨.tsv, .sparql11, .recommendation⟩ "?x\n\"a\tb\"^^\t<d>\t5\r\n").run = .ok ts ∧
    ∃ between last gaps, ts = .beginning :: between ++ [last] ∧ last.kind = .ending ∧
      LaidOut .beginning between "?x\n\"a\tb\"^^\t<d>\t5\r\n".toList gaps ∧
      "?x\n\"a\tb\"^^\t<d>\t5\r\n".toList.count '\t' = ts.countP (fun t => t.kind == .tab) +
        total (List.count '\t') (literalTexts ts) + total (List.count '\t') gaps ∧
      lineEnds "?x\n\"a\tb\"^^\t<d>\t5\r\n".toList = ts.countP (fun t => t.kind == .lineEnd) +
        total lineEnds (literalTexts ts) + total lineEnds gaps :=
  ⟨[.beginning,
      ⟨.queryVariable, "x", ⟨1, 1, 1, 2⟩⟩,
      ⟨.lineEnd, "", ⟨1, 1, 3, 3⟩⟩,
      ⟨.literal, "a\tb", ⟨2, 2, 1, 5⟩⟩,
      ⟨.hatHat, "^^", ⟨2, 2, 6, 7⟩⟩,
      ⟨.datatype, "<d>", ⟨2, 2, 9, 11⟩⟩,
      ⟨.tab, "\t", ⟨2, 2, 12, 12⟩⟩,
      ⟨.plainLiteral, "5", ⟨2, 2, 13, 13⟩⟩,
      ⟨.lineEnd, "", ⟨2, 2, 14, 14⟩⟩,
      ⟨.ending, "", ⟨3, 3, 1, 1⟩⟩],
    by rfl,
    cells_kept .sparql11 .recommendation _ _ (by decide) (by rfl)⟩

set_option maxRecDepth 8192 in
/-- A tab and a line end behind the sign of a datatype are lost. -/
theorem separators_overlooked :
    (∃ ts, (ofText ⟨.tsv, .sparql11, .recommendation⟩ "\"1\"^^\t<a>").run = .ok ts ∧
      '\\' ∉ "\"1\"^^\t<a>".toList ∧ "\"1\"^^\t<a>".toList.count '\t' ≠
        ts.countP (fun t => t.kind == .tab) + total (List.count '\t') (literalTexts ts)) ∧
    ∃ ts, (ofText ⟨.tsv, .sparql11, .recommendation⟩ "\"1\"^^\n<a>").run = .ok ts ∧
      '\\' ∉ "\"1\"^^\n<a>".toList ∧ lineEnds "\"1\"^^\n<a>".toList ≠
        ts.countP (fun t => t.kind == .lineEnd) + total lineEnds (literalTexts ts) :=
  ⟨⟨[.beginning,
      ⟨.literal, "1", ⟨1, 1, 1, 3⟩⟩,
      ⟨.hatHat, "^^", ⟨1, 1, 4, 5⟩⟩,
      ⟨.datatype, "<a>", ⟨1, 1, 7, 9⟩⟩,
      ⟨.ending, "", ⟨1, 1, 10, 10⟩⟩],
    by rfl, by decide, by decide⟩,
   ⟨[.beginning,
      ⟨.literal, "1", ⟨1, 1, 1, 3⟩⟩,
      ⟨.hatHat, "^^", ⟨1, 1, 4, 5⟩⟩,
      ⟨.datatype, "<a>", ⟨2, 2, 1, 3⟩⟩,
      ⟨.ending, "", ⟨2, 2, 4, 4⟩⟩],
    by rfl, by decide, by decide⟩⟩

end Lexer

end TripleLex

import TripleLex.Proofs.Tables

/-!
# Separators of tab-separated values

Tabs separate cells, and line ends separate records. This module counts the line
ends of a text and shows which scans read no separator (`Solid`): in a text
without backslashes those of every term but a quoted literal. Names and numbers
may give a dot back, so what such a scan has read is seen from what is ahead
before and after (`Within`).

## Main results

* `lineEnds_append`, `lineEnds_doubled` — line ends are counted piece by piece.
* `solid_iterate` — a repetition reads no separator if no turn does.
* `solid_reference`, `solid_number`, `solid_name` and their like — the readers.
-/

namespace TripleLex

open Scan Cursor

namespace Table.Tsv

/-! ## Separators -/

/-- Whether the character separates cells or records. -/
def separates (c : Char) : Bool := c == '\t' || Unicode.isLineEnd c

theorem not_separates_of {p : Char → Bool} (htab : p '\t' = false) (hfeed : p '\n' = false)
    (hreturn : p '\r' = false) {c : Char} (h : p c = true) : separates c = false := by
  rw [separates, not_isLineEnd_of hfeed hreturn h, Bool.or_false, beq_eq_false_iff_ne]
  rintro rfl
  rw [htab] at h
  cases h

theorem not_separates_of_isScanned {c : Char} (h : Name.isScanned c = true) :
    separates c = false :=
  not_separates_of (Name.isScanned_ascii (by decide)) (Name.isScanned_ascii (by decide))
    (Name.isScanned_ascii (by decide)) h

theorem not_separates_of_isTagChar {c : Char} (h : Name.isTagChar c = true) :
    separates c = false :=
  not_separates_of (Name.isTagChar_ascii (by decide)) (Name.isTagChar_ascii (by decide))
    (Name.isTagChar_ascii (by decide)) h

theorem not_isLineEnd_of_not_separates {c : Char} (h : separates c = false) :
    Unicode.isLineEnd c = false := (Bool.or_eq_false_iff.1 h).2

theorem count_tab {cs : List Char} (h : ∀ c ∈ cs, separates c = false) : cs.count '\t' = 0 :=
  List.count_eq_zero.2 fun hm => absurd (h _ hm) (by decide)

/-! ## Line ends of a text -/

/-- How many lines end in the text; two characters that belong together end one. -/
def lineEnds : List Char → Nat
  | [] => 0
  | [c] => (Unicode.isLineEnd c).toNat
  | c :: d :: rest =>
    if lineEndPartner? c = some d then lineEnds rest + 1
    else (Unicode.isLineEnd c).toNat + lineEnds (d :: rest)

/-- A character whose other half does not follow. -/
theorem lineEnds_cons {c : Char} {rest : List Char}
    (h : ∀ p, lineEndPartner? c = some p → rest.head? ≠ some p) :
    lineEnds (c :: rest) = (Unicode.isLineEnd c).toNat + lineEnds rest := by
  cases rest with
  | nil => rfl
  | cons d rest =>
    rw [lineEnds, if_neg fun hd => h d hd rfl]

theorem lineEnds_inline {c : Char} (h : Unicode.isLineEnd c = false) (rest : List Char) :
    lineEnds (c :: rest) = lineEnds rest := by
  rw [lineEnds_cons (by rw [partner?_eq_none h]; exact nofun), h]
  exact Nat.zero_add _

/-- A line end that stands in front, whole. -/
theorem lineEnds_otherHalf {c : Char} {cs rest : List Char} (hc : Unicode.isLineEnd c = true)
    (h : OtherHalf c rest cs) : lineEnds (c :: cs ++ rest) = 1 + lineEnds rest := by
  cases h with
  | missing hne =>
    rw [List.cons_append, List.nil_append, lineEnds_cons hne, hc]
    rfl
  | read hp =>
    show lineEnds (c :: _ :: rest) = _
    rw [lineEnds, if_pos hp, Nat.add_comm]

/-- Line ends are counted apart where what follows does not begin with one. -/
theorem lineEnds_append {cs rest : List Char}
    (h : ∀ c, rest.head? = some c → Unicode.isLineEnd c = false) :
    lineEnds (cs ++ rest) = lineEnds cs + lineEnds rest := by
  have hne : ∀ c p, lineEndPartner? c = some p → rest.head? ≠ some p := by
    intro c p hp hr
    have hends := (isLineEnd_of_partner? hp).2
    rw [h p hr] at hends
    cases hends
  fun_induction lineEnds cs with
  | case1 => exact (Nat.zero_add _).symm
  | case2 c => exact lineEnds_cons (hne c)
  | case3 c d more hd ih =>
    show lineEnds (c :: d :: (more ++ rest)) = _
    rw [lineEnds, if_pos hd, ih]
    omega
  | case4 c d more hd ih =>
    show lineEnds (c :: d :: (more ++ rest)) = _
    rw [lineEnds, if_neg hd, Nat.add_assoc, ← ih]
    rfl

/-- So they are behind a text within a line. -/
theorem lineEnds_inner {cs : List Char} (h : ∀ c ∈ cs, separates c = false) (rest : List Char) :
    lineEnds (cs ++ rest) = lineEnds rest := by
  induction cs with
  | nil => rfl
  | cons c cs ih =>
    rw [List.cons_append,
      lineEnds_inline (not_isLineEnd_of_not_separates (h c List.mem_cons_self)),
      ih fun d hd => h d (List.mem_cons_of_mem _ hd)]

theorem head?_doubled (text : List Char) : (Csv.doubled text).head? = text.head? := by
  cases text with
  | nil => rfl
  | cons c text =>
    rw [Csv.doubled, List.flatMap_cons]
    by_cases hc : c = '"'
    · rw [hc]
      rfl
    · rw [if_neg (by simpa using hc)]
      rfl

/-- Doubling the quotation marks neither makes nor parts a line end. -/
theorem lineEnds_doubled (text : List Char) : lineEnds (Csv.doubled text) = lineEnds text := by
  have hmark : ∀ rest, Csv.doubled ('"' :: rest) = '"' :: '"' :: Csv.doubled rest := fun _ => rfl
  have hplain : ∀ {c} rest, c ≠ '"' → Csv.doubled (c :: rest) = c :: Csv.doubled rest := by
    intro c rest hc
    rw [Csv.doubled, List.flatMap_cons, if_neg (by simpa using hc)]
    rfl
  have hcons : ∀ c rest, (∀ p, lineEndPartner? c = some p → rest.head? ≠ some p) →
      lineEnds (Csv.doubled (c :: rest)) =
        (Unicode.isLineEnd c).toNat + lineEnds (Csv.doubled rest) := by
    intro c rest hne
    by_cases hc : c = '"'
    · rw [hc, hmark, lineEnds_inline (by decide), lineEnds_inline (by decide)]
      exact (Nat.zero_add _).symm
    · rw [hplain rest hc, lineEnds_cons]
      rw [head?_doubled]
      exact hne
  fun_induction lineEnds text with
  | case1 => rfl
  | case2 c => exact hcons c [] fun _ _ => nofun
  | case3 c d rest hd ih =>
    have hends := isLineEnd_of_partner? hd
    have hne : ∀ e, Unicode.isLineEnd e = true → e ≠ '"' := by
      rintro e he rfl
      exact absurd he (by decide)
    rw [hplain _ (hne c hends.1), hplain _ (hne d hends.2), lineEnds, if_pos hd, ih]
  | case4 c d rest hd ih =>
    rw [hcons c (d :: rest), ih]
    rintro p hp ⟨⟩
    exact hd hp

theorem count_tab_doubled (text : List Char) :
    (Csv.doubled text).count '\t' = text.count '\t' := by
  induction text with
  | nil => rfl
  | cons c text ih =>
    rw [Csv.doubled, List.flatMap_cons, List.count_append, ← Csv.doubled, ih]
    by_cases hc : c = '"'
    · rw [hc, Nat.add_comm]
      rfl
    · rw [if_neg (by simpa using hc), ← List.count_append]
      rfl

/-! ## Scans that read no separator -/

/-- From one cursor to another no separator was read, and no backslash is ahead. A
character may have been given back. -/
def Within (k left : Cursor) : Prop :=
  '\\' ∉ left.ahead ∧
    ∃ cs rest, k.ahead = cs ++ rest ∧ rest <:+ left.ahead ∧ ∀ c ∈ cs, separates c = false

theorem within_of_ahead {k left : Cursor} (h : left.ahead = k.ahead) (hn : '\\' ∉ k.ahead) :
    Within k left := by
  rw [← h] at hn
  exact ⟨hn, [], left.ahead, h.symm, List.suffix_refl _, nofun⟩

theorem Within.trans {k mid left : Cursor} (h : Within k mid) (h' : Within mid left) :
    Within k left := by
  obtain ⟨-, cs, rest, hk, ⟨back, hback⟩, hcs⟩ := h
  obtain ⟨hn, ds, more, hmid, hmore, hds⟩ := h'
  refine ⟨hn, ?_⟩
  rw [← hback] at hmid
  -- the second part may begin with what the first one gave back
  rcases List.append_eq_append_iff.1 hmid with ⟨es, rfl, hes⟩ | ⟨es, -, hes⟩
  · refine ⟨cs ++ es, more, by rw [hk, hes, List.append_assoc], hmore, fun c hc => ?_⟩
    rcases List.mem_append.1 hc with hc | hc
    · exact hcs c hc
    · exact hds c (List.mem_append_right _ hc)
  · rw [hes] at hmore
    exact ⟨cs, rest, hk, (List.suffix_append es rest).trans hmore, hcs⟩

/-- What the scan reads holds no separator, if there are no escapes. -/
def Solid {α : Type} (k : Cursor) (m : Scan α) : Prop :=
  ∀ a left, m k = .ok a left → '\\' ∉ k.ahead → Within k left

section Rules

variable {α β : Type} {k : Cursor}

theorem solid_still {m : Scan α} (h : ∀ a left, m k = .ok a left → left.ahead = k.ahead) :
    Solid k m := fun a left e => within_of_ahead (h a left e)

theorem solid_fails {m : Scan α} (h : ∀ a left, m k ≠ .ok a left) : Solid k m :=
  fun a left e => absurd e (h a left)

theorem solid_pure (a : α) : Solid k (pure a) :=
  solid_still fun b left e => by rw [(pure_ok e).2]

theorem solid_raise {fault : Cursor → Fault} :
    Solid k (do raise (fault (← get)) : Scan α) := solid_fails fun _ _ => nofun

theorem solid_unexpectedEnd (expected : String) : Solid k (unexpectedEnd expected : Scan α) :=
  solid_fails fun _ _ => unexpectedEnd_ne_ok

theorem Solid.bind {m : Scan α} {f : α → Scan β} (h : Solid k m)
    (g : ∀ a mid, Solid mid (f a)) : Solid k (m >>= f) := by
  intro b left e hn
  obtain ⟨a, mid, e₁, e⟩ := bind_ok e
  have hmid := h a mid e₁ hn
  exact hmid.trans (g a mid b left e hmid.1)

theorem solid_get {f : Cursor → Scan α} (h : Solid k (f k)) : Solid k (get >>= f) :=
  fun a left e => h a left (get_bind_ok e)

/-- Looking ahead parts the cases. -/
theorem solid_look {f : Option Char → Scan α} (hnone : ∀ mid, Solid mid (f none))
    (hsome : ∀ c mid, mid.ahead.head? = some c → Solid mid (f (some c))) :
    Solid k (look >>= f) := by
  intro a left e hn
  rcases look_bind_ok e with ⟨mid, r, -, e⟩ | ⟨c, mid, r, hc, e⟩
  · have hmid := within_of_ahead r.ahead_eq hn
    exact hmid.trans (hnone mid a left e hmid.1)
  · have hmid := within_of_ahead r.ahead_eq hn
    exact hmid.trans (hsome c mid hc a left e hmid.1)

/-- An escape is not read where there is no backslash. -/
theorem solid_escape {m : Scan α} (h : k.ahead.head? = some '\\') : Solid k m :=
  fun _ _ _ hn => absurd (List.mem_of_head? h) hn

theorem solid_of_reads {m : Scan α} {c : Char} {vs : List Char}
    (h : ∀ a left, m k = .ok a left → k.Reads [c] vs left) (hc : separates c = false) :
    Solid k m := by
  intro a left e hn
  have hk := (h a left e).ahead
  rw [hk, List.mem_append, not_or] at hn
  exact ⟨hn.2, [c], left.ahead, hk, List.suffix_refl _, by simpa using hc⟩

theorem solid_consume {c : Char} (h : k.ahead.head? = some c) (hc : separates c = false) :
    Solid k consume :=
  solid_of_reads (fun _ _ e => (consume_ok h (not_isLineEnd_of_not_separates hc) e).2) hc

theorem solid_skip {c : Char} (h : k.ahead.head? = some c) (hc : separates c = false) :
    Solid k skip :=
  solid_of_reads (fun _ _ e => (skip_ok h (not_isLineEnd_of_not_separates hc) e).2) hc

theorem solid_iterate {σ : Type} {turn : σ → Scan (Turn σ α)} {h : ∀ s, Advances (turn s)}
    (hturn : ∀ s k, Solid k (turn s)) (s : σ) : Solid k (iterate turn h s) := by
  intro a left e
  refine iterate_induction (h := h)
    (P := fun _ k r => ∀ a left, r = .ok a left → '\\' ∉ k.ahead → Within k left)
    ?_ ?_ ?_ s k a left e
  · intro s k s' mid r e ih a left hr hn
    have hmid := hturn s k _ mid e hn
    exact hmid.trans (ih a left hr hmid.1)
  · rintro s k a mid e a' left ⟨⟩ hn
    exact hturn s k _ mid e hn
  · rintro s k fault left e a left' ⟨⟩

theorem solid_consumeWhile {p : Char → Bool} (hp : ∀ c, p c = true → separates c = false) :
    Solid k (consumeWhile p) := by
  refine solid_iterate (fun _ k => solid_look (fun _ => solid_pure _) fun c mid hc => ?_) ()
  dsimp only
  split
  · exact (solid_consume hc (hp c ‹_›)).bind fun _ _ => solid_pure _
  · exact solid_pure _

/-- A dot may be given back. -/
theorem solid_settles {m : Scan α} (h : ∀ a left, m k = .ok a left → Settles k left) :
    Solid k m := by
  intro a left e hn
  cases h a left e with
  | stays => exact within_of_ahead rfl hn
  | gives w hp hw =>
    rw [Within, Cursor.ahead_givenBack hp]
    exact ⟨by simpa using hn, [], k.ahead, rfl, List.suffix_cons _ _, nofun⟩

theorem solid_emitAs (kind : Kind) (text : String) : Solid k (emitAs kind text) :=
  solid_still fun _ _ e => (emitAs_ok e).2.2.ahead

theorem solid_emit (kind : Kind) : Solid k (emit kind) :=
  solid_still fun _ _ e => (emit_ok e).2.2.ahead

end Rules

/-! ### Readers -/

section Readers

variable {k : Cursor}

theorem solid_referenceBody : Solid k referenceBody := by
  refine solid_iterate (fun _ k => ?_) ()
  refine solid_look (fun _ => solid_unexpectedEnd _) fun c mid hc => ?_
  dsimp only
  split
  · rename_i hclose
    rw [beq_iff_eq] at hclose
    exact (solid_skip hc (by rw [hclose]; decide)).bind fun _ _ => solid_pure _
  · split
    · rename_i hslash
      rw [beq_iff_eq] at hslash
      exact solid_escape (hslash ▸ hc)
    · split
      · exact solid_raise
      · split
        · exact solid_raise
        · rename_i hblank
          refine (solid_consume hc ?_).bind fun _ _ => solid_pure _
          exact not_separates_of (p := fun c => !Unicode.isBlank c) (by decide) (by decide)
            (by decide) (by simpa using hblank)

theorem solid_reference (h : k.ahead.head? = some '<') : Solid k reference :=
  (solid_skip h (by decide)).bind fun _ _ => solid_referenceBody.bind fun _ _ => solid_emit _

theorem solid_referenceDatatype (h : k.ahead.head? = some '<') : Solid k referenceDatatype :=
  (solid_skip h (by decide)).bind fun _ _ => solid_referenceBody.bind fun _ _ =>
    solid_get (solid_emitAs _ _)

theorem solid_variableName (h : k.ahead.head? = some '?') : Solid k variableName := by
  refine Solid.bind ?_ fun _ k₁ => solid_get ?_
  · refine (solid_skip h (by decide)).bind fun _ _ => solid_consumeWhile fun c hc => ?_
    exact not_separates_of_isScanned
      (Name.isScanned_of_isInner (Name.isInner_of_isVariableChar hc))
  · split
    · exact solid_emit _
    · exact solid_raise

theorem solid_languageTag (h : k.ahead.head? = some '@') : Solid k languageTag := by
  refine (solid_skip h (by decide)).bind fun _ _ =>
    (solid_consumeWhile fun c hc => not_separates_of_isTagChar hc).bind fun _ k₁ => solid_get ?_
  split
  · refine solid_fails fun _ _ e => ?_
    obtain ⟨c, k₂, -, e⟩ := bind_ok e
    cases e
  · split
    · exact solid_emit _
    · exact solid_raise

theorem solid_hatHat (h : k.ahead.head? = some '^') : Solid k hatHat := by
  refine (solid_consume h (by decide)).bind fun _ _ =>
    solid_look (fun _ => solid_unexpectedEnd _) fun c mid hc => ?_
  dsimp only
  split
  · rename_i hhat
    rw [beq_iff_eq] at hhat
    exact (solid_consume hc (by rw [hhat]; decide)).bind fun _ _ => solid_emit _
  · exact solid_raise

theorem solid_consumeAnd {σ α : Type} {next : σ} {c : Char} (h : k.ahead.head? = some c)
    (hc : separates c = false) : Solid k (consumeAnd next : Scan (Turn σ α)) :=
  (solid_consume h hc).bind fun _ _ => solid_pure _

theorem solid_numberTurn (s : NumberSoFar) : Solid k (numberTurn s) := by
  refine solid_look (fun _ => solid_pure _) fun c mid hc => ?_
  dsimp only
  split
  · rename_i hdigit
    exact solid_consumeAnd hc (not_separates_of (by decide) (by decide) (by decide) hdigit)
  · split
    · rename_i hdot
      rw [beq_iff_eq] at hdot
      split
      · exact solid_pure _
      · exact solid_consumeAnd hc (by rw [hdot]; decide)
    · split
      · rename_i hsign
        split
        · exact solid_raise
        · refine solid_get ?_
          split
          · exact solid_raise
          · exact solid_consumeAnd hc (not_separates_of (p := fun c => c == '+' || c == '-')
              (by decide) (by decide) (by decide) hsign)
      · split
        · rename_i hmark
          split
          · exact solid_raise
          · refine solid_get ?_
            split
            · exact solid_raise
            · exact solid_consumeAnd hc
                (not_separates_of (by decide) (by decide) (by decide) hmark)
        · exact solid_pure _

theorem solid_number : Solid k number := by
  refine solid_get ((solid_iterate (fun s _ => solid_numberTurn s) _).bind fun _ k₁ => ?_)
  refine (solid_settles fun _ _ e => giveBackDot_ok e).bind fun _ k₂ => solid_get ?_
  split
  · exact solid_emit _
  · exact solid_raise

theorem solid_hexDigits (n : Nat) : Solid k (readHexDigits n) := by
  induction n generalizing k with
  | zero => exact solid_pure _
  | succ n ih =>
    refine solid_look (fun _ => solid_pure _) fun c mid hc => ?_
    dsimp only
    split
    · rename_i hhex
      exact (solid_skip hc (not_separates_of (by decide) (by decide) (by decide) hhex)).bind
        fun _ _ => ih.bind fun _ _ => solid_pure _
    · exact solid_pure _

/-- Two digits behind a percent sign. -/
theorem solid_octet (h : k.ahead.head? = some '%') : Solid k readLocalEscape := by
  intro a left e hn
  obtain ⟨c, k₁, e₁, e⟩ := bind_ok e
  obtain ⟨rfl, -⟩ := skip_ok h (by decide) e₁
  have hmid := solid_skip h (by decide) _ k₁ e₁ hn
  refine hmid.trans (Solid.bind (solid_hexDigits 2) (fun digits k₂ => ?_) a left e hmid.1)
  split
  · exact solid_raise
  · exact solid_still fun _ _ e => by
      cases e
      rfl

theorem solid_nameTurn {rule : Name.Rule} {allowDot seenColon : Bool} :
    Solid k (nameTurn rule allowDot seenColon) := by
  refine solid_look (fun _ => solid_pure _) fun c mid hc => ?_
  dsimp only
  split
  · rename_i hesc
    refine Solid.bind ?_ fun _ _ => solid_pure _
    simp only [Bool.and_eq_true, Bool.or_eq_true, beq_iff_eq] at hesc
    rcases hesc.1 with rfl | rfl
    · exact solid_escape hc
    · exact solid_octet hc
  · split
    · rename_i hslash
      rw [beq_iff_eq] at hslash
      exact solid_escape (hslash ▸ hc)
    · split
      · exact solid_pure _
      · split
        · rename_i hscan
          exact (solid_consume hc (not_separates_of_isScanned hscan)).bind fun _ _ => solid_pure _
        · exact solid_pure _

theorem solid_gatherName {rule : Name.Rule} {allowDot : Bool} :
    Solid k (gatherName rule allowDot) := by
  intro a left e hn
  obtain ⟨mid, e₁, hs⟩ := gatherName_settles e
  have hmid := solid_iterate (fun _ _ => solid_nameTurn) _ () mid e₁ hn
  exact hmid.trans (solid_settles (m := fun _ => .ok () left) (fun _ _ h => by cases h; exact hs)
    () left rfl hmid.1)

theorem solid_nameToken? {rule : Name.Rule} : Solid k (nameToken? rule) := by
  have hsome : ∀ {m : Scan Token}, Solid k m → Solid k (do return some (← m)) :=
    fun h => h.bind fun _ _ => solid_pure _
  refine solid_get ?_
  dsimp only
  split
  · exact solid_pure _
  · split
    · exact hsome (solid_emit _)
    · split
      · split
        · exact hsome (solid_emit _)
        · exact solid_raise
      · split
        · exact hsome (solid_emitAs _ _)
        · exact solid_raise

theorem solid_name : Solid k name := by
  refine solid_gatherName.bind fun _ _ => solid_nameToken?.bind fun o k₁ => ?_
  split
  · exact solid_pure _
  · refine solid_get ?_
    split
    · exact solid_emit _
    · exact solid_raise

theorem solid_nameDatatype {rule : Name.Rule} : Solid k (nameDatatype rule) := by
  refine solid_gatherName.bind fun _ _ => solid_nameToken?.bind fun o k₁ => ?_
  split
  · split
    · exact solid_still fun _ _ e => by
        cases e
        rfl
    · exact solid_raise
  · exact solid_get solid_raise

end Readers

end Table.Tsv

end TripleLex

import TripleLex.Proofs.Progress
import TripleLex.Proofs.Succeeds

/-!
# Names that are read whole

Every name that the recommendation's rule derives is gathered to its end: the
prefix and the colon as they stand, the local name with its escapes. In SPARQL
there is one exception. Behind a colon that begins a name, the operator `:=`
might have stood, so that the colon is taken before gathering begins and the
name seems to have none yet: up to a second colon a backslash is then not taken
for an escape of the local name, and a percent sign ends it.

`Gatherable` describes what gathering takes from a place where no colon has been
read; a name is read whole exactly if it is that, as a whole or behind its first
colon.

## Main results

* `succeeds_localRun`, `succeeds_gatherName` — gathering reads a name to its end.
* `Query.Sparql.name_cut` — behind its first colon a name is cut at an escape.
* `Lexer.names_whole` — which names are read whole.
-/

namespace TripleLex

/-! ## Characters of names -/

namespace Name

theorem isScanned_of_plain {c : Char} (h : (isInner c || c == '.') = true) :
    isScanned c = true := by
  rw [Bool.or_eq_true] at h
  rcases h with h | h
  · exact isScanned_of_isInner h
  · simp [isScanned, h]

/-- What no scanner takes into a name does not stand in one. -/
theorem ne_of_isScanned {c d : Char} (hd : isScanned d = false) (h : isScanned c = true) :
    c ≠ d := by
  rintro rfl
  rw [hd] at h
  cases h

theorem toNat_of_isBase {c : Char} (h : isBase c = true) : 0x41 ≤ c.toNat := by
  obtain ⟨run, hrun, hlo, -⟩ := Unicode.Ranges.has_iff.1 h
  simp only [baseRanges, List.mem_cons, List.not_mem_nil, or_false] at hrun
  rcases hrun with rfl | rfl | rfl | rfl | rfl | rfl | rfl | rfl | rfl | rfl | rfl | rfl | rfl |
    rfl | rfl <;> dsimp only at hlo <;> omega

theorem not_isDigit_of_isBase {c : Char} (h : isBase c = true) : c.isDigit = false := by
  have hc := toNat_of_isBase h
  rw [Bool.eq_false_iff]
  intro hd
  simp only [Char.isDigit, Bool.and_eq_true, decide_eq_true_eq, UInt32.le_iff_toNat_le] at hd
  have h9 : c.toNat ≤ 57 := hd.2
  omega

/-- A character of a local name that begins no escape. -/
theorem isEscapedRun_plain {c : Char} {word : List Char} (hp : c ≠ '%') (hb : c ≠ '\\')
    (afterDot : Bool) : isEscapedRun afterDot (c :: word) =
      ((isInner c || c == '.' || c == ':') && isEscapedRun (c == '.') word) := by
  rw [isEscapedRun]
  · rintro _ _ _ rfl
    exact absurd rfl hp
  · rintro _ _ rfl
    exact absurd rfl hb

/-! ## The ends of names -/

/-- A run of a local name does not end in a dot that no backslash protects. -/
theorem endsInBareDot_run {afterDot : Bool} {run written : List Char}
    (hr : isEscapedRun afterDot run = true)
    (hw : afterDot = false → Scan.endsInBareDot written = false) :
    Scan.endsInBareDot (run.reverse ++ written) = false := by
  have hstep : ∀ {c : Char} {cs : List Char}, c ≠ '.' → Scan.endsInBareDot (c :: cs) = false := by
    intro c cs hc
    unfold Scan.endsInBareDot
    split <;> simp_all
  fun_induction isEscapedRun afterDot run generalizing written with
  | case1 afterDot => exact hw (by simpa using hr)
  | case2 afterDot a b rest ih =>
    simp only [Bool.and_eq_true] at hr
    have hb : b ≠ '.' := by
      rintro rfl
      exact absurd hr.1.2 (by decide)
    have h : Scan.endsInBareDot (rest.reverse ++ b :: a :: '%' :: written) = false :=
      ih hr.2 fun _ => hstep hb
    simpa using h
  | case3 afterDot c rest ih =>
    rw [Bool.and_eq_true] at hr
    have hc : Scan.endsInBareDot (c :: '\\' :: written) = false := by
      by_cases hdot : c = '.'
      · rw [hdot]
        rfl
      · exact hstep hdot
    have h : Scan.endsInBareDot (rest.reverse ++ c :: '\\' :: written) = false :=
      ih hr.2 fun _ => hc
    simpa using h
  | case4 afterDot c rest _ _ ih =>
    rw [Bool.and_eq_true] at hr
    have h : Scan.endsInBareDot (rest.reverse ++ c :: written) = false :=
      ih hr.2 fun hdot => hstep (by simpa using hdot)
    simpa using h

/-- What a name is gathered as from where no colon has been read: up to the
first colon characters that stand for themselves, behind it a local name. -/
def Gatherable (word : List Char) : Prop :=
  ∃ label more, word = label ++ more ∧ (∀ c ∈ label, (isInner c || c == '.') = true) ∧
    (more = [] ∨ ∃ run, more = ':' :: run ∧ isEscapedRun false run = true)

theorem plain_of_isRun {afterDot : Bool} {word : List Char} (h : isRun afterDot word = true) :
    ∀ c ∈ word, (isInner c || c == '.') = true := by
  induction word generalizing afterDot with
  | nil => exact fun c hc => nomatch hc
  | cons c word ih =>
    unfold isRun at h
    rw [Bool.and_eq_true] at h
    intro d hd
    rcases List.mem_cons.1 hd with rfl | hd
    · exact h.1
    · exact ih h.2 d hd

theorem plain_of_isPrefixLabel {label : List Char}
    (h : label = [] ∨ isPrefixLabel label = true) :
    ∀ c ∈ label, (isInner c || c == '.') = true := by
  rcases h with rfl | h
  · exact fun c hc => nomatch hc
  · cases label with
    | nil => exact fun c hc => nomatch hc
    | cons c label =>
      unfold isPrefixLabel at h
      rw [Bool.and_eq_true] at h
      intro d hd
      rcases List.mem_cons.1 hd with rfl | hd
      · rw [isInner_of_isLead (isLead_of_isBase h.1), Bool.true_or]
      · exact plain_of_isRun h.2 d hd

theorem run_of_local {rest : List Char} (h : rest = [] ∨ isLocal .recommendation rest = true) :
    isEscapedRun false rest = true := by
  rcases h with rfl | h
  · rfl
  · cases rest with
    | nil => rfl
    | cons c rest =>
      have h : isEscapedLocal (c :: rest) = true := h
      unfold isEscapedLocal at h
      exact (Bool.and_eq_true _ _ ▸ h).2

/-- A prefixed name can be gathered as a whole. -/
theorem gatherable_of_isPrefixedName {word : List Char}
    (h : isPrefixedName .recommendation word = true) : Gatherable word := by
  obtain ⟨label, rest, rfl, -, hl, hr⟩ := isPrefixedName_iff.1 h
  exact ⟨label, ':' :: rest, rfl, plain_of_isPrefixLabel hl, Or.inr ⟨rest, rfl, run_of_local hr⟩⟩

/-- A run of a local name can be gathered if no escape comes before its first
colon. -/
theorem gatherable_of_run {afterDot : Bool} {run : List Char}
    (h : isEscapedRun afterDot run = true) (hb : '\\' ∉ run.takeWhile (· != ':'))
    (hp : '%' ∉ run.takeWhile (· != ':')) : Gatherable run := by
  fun_induction isEscapedRun afterDot run with
  | case1 => exact ⟨[], [], rfl, by simp, Or.inl rfl⟩
  | case2 afterDot a b rest ih => exact absurd List.mem_cons_self hp
  | case3 afterDot c rest ih => exact absurd List.mem_cons_self hb
  | case4 afterDot c rest _ _ ih =>
    rw [Bool.and_eq_true] at h
    by_cases hc : c = ':'
    · rw [hc] at h ⊢
      exact ⟨[], ':' :: rest, rfl, by simp, Or.inr ⟨rest, rfl, h.2⟩⟩
    · have hne : (c != ':') = true := bne_iff_ne.2 hc
      rw [List.takeWhile_cons, if_pos hne, List.mem_cons, not_or] at hb hp
      obtain ⟨label, more, hrest, hl, hm⟩ := ih h.2 hb.2 hp.2
      have hplain : (isInner c || c == '.') = true := by
        have h₁ := h.1
        rw [Bool.or_eq_true, beq_iff_eq] at h₁
        exact h₁.resolve_right hc
      refine ⟨c :: label, more, by rw [hrest, List.cons_append], ?_, hm⟩
      intro d hd
      rcases List.mem_cons.1 hd with rfl | hd
      · exact hplain
      · exact hl d hd

end Name

/-! ## Gathering -/

namespace Scan

open Name (Gatherable isEscapedRun isInner isHexDigit isReserved)

section Gathering

variable {k : Cursor}

/-- A reserved character behind a backslash. -/
theorem succeeds_reserved {c : Char} {rest : List Char} (hk : k.ahead = '\\' :: c :: rest)
    (hc : isReserved c = true) : Succeeds readLocalEscape k ['\\', c] ['\\', c] () := by
  have hl : Unicode.isLineEnd c = false := not_isLineEnd_of (by decide) (by decide) hc
  have hskip : Succeeds skip k ['\\'] [] '\\' := succeeds_skip (by rw [hk]; rfl) (by decide)
  refine hskip.bind [c] ['\\', c] fun mid r => ?_
  have hmid : mid.ahead = c :: rest := r.rest_eq hk
  refine succeeds_look_bind fun mid' r' => ?_
  rw [hmid]
  show Succeeds (if isReserved c = true then _ else _) mid' [c] ['\\', c] ()
  rw [if_pos hc]
  refine (succeeds_push '\\').bind [c] [c] fun mid'' r'' => ?_
  exact (succeeds_consume (by rw [r''.ahead_eq, r'.ahead_eq, hmid]; rfl) hl).thenPure _

theorem succeeds_hexDigits {ds rest : List Char} (hk : k.ahead = ds ++ rest)
    (hd : ∀ c ∈ ds, isHexDigit c = true) : Succeeds (readHexDigits ds.length) k ds [] ds := by
  induction ds generalizing k with
  | nil => exact succeeds_pure []
  | cons c ds ih =>
    have hc : isHexDigit c = true := hd c List.mem_cons_self
    refine succeeds_look_bind fun mid r => ?_
    rw [hk]
    show Succeeds (if isHexDigit c = true then _ else _) mid (c :: ds) [] (c :: ds)
    rw [if_pos hc]
    have hmid : mid.ahead = c :: (ds ++ rest) := by rw [r.ahead_eq, hk, List.cons_append]
    have hskip : Succeeds skip mid [c] [] c :=
      succeeds_skip (by rw [hmid]; rfl) (not_isLineEnd_of_isHexDigit hc)
    refine hskip.bind ds [] fun mid' r' => ?_
    have hrest : mid'.ahead = ds ++ rest := r'.rest_eq hmid
    exact (ih hrest fun d hm => hd d (List.mem_cons_of_mem _ hm)).thenPure _

/-- Two digits behind a percent sign. -/
theorem succeeds_octet {a b : Char} {rest : List Char} (hk : k.ahead = '%' :: a :: b :: rest)
    (ha : isHexDigit a = true) (hb : isHexDigit b = true) :
    Succeeds readLocalEscape k ['%', a, b] ['%', a, b] () := by
  have hskip : Succeeds skip k ['%'] [] '%' := succeeds_skip (by rw [hk]; rfl) (by decide)
  refine hskip.bind [a, b] ['%', a, b] fun mid r => ?_
  have hmid : mid.ahead = [a, b] ++ rest := r.rest_eq hk
  have hdigits : Succeeds (readHexDigits 2) mid [a, b] [] [a, b] :=
    succeeds_hexDigits hmid (by simp [ha, hb])
  refine hdigits.bind [] ['%', a, b] fun mid' _ => ?_
  exact (succeeds_push '%').bind [] [a, b] fun _ _ => succeeds_append [a, b]

/-- A character that stands for itself in a name. -/
theorem succeeds_plainTurn {c : Char} (seen : Bool) (hk : k.ahead.head? = some c)
    (hc : Name.isScanned c = true) :
    Succeeds (nameTurn .recommendation true seen) k [c] [c] (.again (seen || c == ':')) := by
  have hb : c ≠ '\\' := Name.ne_of_isScanned (Name.isScanned_ascii (by decide)) hc
  have hp : c ≠ '%' := Name.ne_of_isScanned (Name.isScanned_ascii (by decide)) hc
  refine succeeds_look_bind fun mid r => ?_
  rw [hk]
  have hconsume : Succeeds consume mid [c] [c] c :=
    succeeds_consume (by rw [r.ahead_eq, hk]) (not_isLineEnd_of_isScanned hc)
  simpa [hb, hp, hc] using hconsume.thenPure fun _ =>
    (Turn.again (seen || c == ':') : Turn Bool Unit)

/-- An escape behind a colon. -/
theorem succeeds_escapeTurn {c : Char} (cs : List Char) (hk : k.ahead.head? = some c)
    (hc : c = '\\' ∨ c = '%')
    (he : ∀ mid, mid.ahead = k.ahead → Succeeds readLocalEscape mid cs cs ()) :
    Succeeds (nameTurn .recommendation true true) k cs cs (.again true) := by
  refine succeeds_look_bind fun mid r => ?_
  rw [hk]
  have hesc := (he mid r.ahead_eq).thenPure fun _ => (Turn.again true : Turn Bool Unit)
  rcases hc with rfl | rfl <;> exact hesc

theorem succeeds_lastTurn {seen : Bool} (hk : k.ahead = []) :
    Succeeds (nameTurn .recommendation true seen) k [] [] (.done ()) := by
  refine succeeds_look_bind fun mid r => ?_
  rw [hk]
  exact succeeds_pure _

/-- Behind a colon a run of a local name is gathered to its end. -/
theorem succeeds_localRun {afterDot : Bool} {run : List Char}
    (hr : isEscapedRun afterDot run = true) (hk : k.ahead = run) :
    Succeeds (iterate (nameTurn .recommendation true) (advances_nameTurn .recommendation true) true)
      k run run () := by
  fun_induction isEscapedRun afterDot run generalizing k with
  | case1 afterDot => exact succeeds_done (succeeds_lastTurn hk)
  | case2 afterDot a b rest ih =>
    simp only [Bool.and_eq_true] at hr
    have ht := succeeds_escapeTurn ['%', a, b] (by rw [hk]; rfl) (Or.inr rfl)
      fun mid hm => succeeds_octet (hm.trans hk) hr.1.1 hr.1.2
    exact succeeds_again ht fun mid r => ih hr.2 (r.rest_eq hk)
  | case3 afterDot c rest ih =>
    rw [Bool.and_eq_true] at hr
    have ht := succeeds_escapeTurn ['\\', c] (by rw [hk]; rfl) (Or.inl rfl)
      fun mid hm => succeeds_reserved (hm.trans hk) hr.1
    exact succeeds_again ht fun mid r => ih hr.2 (r.rest_eq hk)
  | case4 afterDot c rest _ _ ih =>
    rw [Bool.and_eq_true] at hr
    have hc : Name.isScanned c = true := by
      have h := hr.1
      rw [Bool.or_eq_true] at h
      rcases h with h | h
      · exact Name.isScanned_of_plain h
      · simp [Name.isScanned, h]
    have ht := succeeds_plainTurn true (by rw [hk]; rfl) hc
    exact succeeds_again ht fun mid r => ih hr.2 (r.rest_eq hk)

/-- Before a colon the characters that stand for themselves are gathered, and
then gathering goes on from there. -/
theorem label_gathered {label more : List Char}
    (hl : ∀ c ∈ label, (isInner c || c == '.') = true) (hk : k.ahead = label ++ more) :
    ∃ mid, k.Reads label label mid ∧ (k.Clear → mid.Clear) ∧
      iterate (nameTurn .recommendation true) (advances_nameTurn .recommendation true) false k =
        iterate (nameTurn .recommendation true) (advances_nameTurn .recommendation true) false
          mid := by
  induction label generalizing k with
  | nil => exact ⟨k, Cursor.Reads.refl k, id, rfl⟩
  | cons c label ih =>
    have hc := hl c List.mem_cons_self
    have hcolon : (c == ':') = false := by
      rw [beq_eq_false_iff_ne]
      rintro rfl
      exact absurd hc (by decide)
    have ht := succeeds_plainTurn false (k := k) (by rw [hk]; rfl) (Name.isScanned_of_plain hc)
    rw [hcolon] at ht
    obtain ⟨k₁, e₁, r₁, c₁⟩ := ht
    obtain ⟨mid, r, hclear, hi⟩ :=
      ih (fun d hd => hl d (List.mem_cons_of_mem _ hd)) (r₁.rest_eq hk)
    refine ⟨mid, r₁.trans r, fun hk => hclear (c₁ hk), ?_⟩
    exact (congrFun (iterate_eq false) k).trans ((bind_eq e₁).trans hi)

/-- What can be gathered is gathered to its end. -/
theorem succeeds_gatherName {word : List Char} (hg : Gatherable word) (hk : k.ahead = word)
    (hd : endsInBareDot (word.reverse ++ k.written) = false) :
    Succeeds (gatherName .recommendation true) k word word () := by
  obtain ⟨label, more, rfl, hl, hm⟩ := hg
  obtain ⟨mid, r, hclear, hi⟩ := label_gathered hl hk
  have hmid : mid.ahead = more := r.rest_eq hk
  have hmore : Succeeds (iterate (nameTurn .recommendation true)
      (advances_nameTurn .recommendation true) false) mid more more () := by
    rcases hm with rfl | ⟨run, rfl, hr⟩
    · exact succeeds_done (succeeds_lastTurn hmid)
    · have ht := succeeds_plainTurn false (k := mid) (c := ':') (by rw [hmid]; rfl)
        (Name.isScanned_ascii (by decide))
      exact succeeds_again ht fun mid' r => succeeds_localRun hr (r.rest_eq hmid)
  have hgather : Succeeds (iterate (nameTurn .recommendation true)
      (advances_nameTurn .recommendation true) false) k (label ++ more) (label ++ more) () := by
    obtain ⟨left, e, r', c⟩ := hmore
    exact ⟨left, hi.trans e, r.trans r', fun hk => c (hclear hk)⟩
  have hdot : ∀ mid, k.Reads (label ++ more) (label ++ more) mid → Succeeds (do
      if endsInBareDot (← get).written then
        backtrack) mid [] [] () := by
    intro mid r
    refine ⟨mid, ?_, Cursor.Reads.refl mid, id⟩
    rw [get_bind, r.written, hd]
    rfl
  have hbind : Succeeds (gatherName .recommendation true) k (label ++ more ++ [])
      (label ++ more ++ []) () := hgather.bind [] [] hdot
  rwa [List.append_nil] at hbind

end Gathering

end Scan

/-! ## Names of queries -/

namespace Name

theorem head?_of_isPrefixedName {rule : Rule} {word : List Char}
    (h : isPrefixedName rule word = true) :
    word.head? = some ':' ∨ ∃ c, word.head? = some c ∧ isBase c = true := by
  obtain ⟨label, rest, rfl, -, hl, -⟩ := isPrefixedName_iff.1 h
  cases label with
  | nil => exact Or.inl rfl
  | cons c label =>
    have hlabel : isPrefixLabel (c :: label) = true := by simpa using hl
    unfold isPrefixLabel at hlabel
    exact Or.inr ⟨c, rfl, (Bool.and_eq_true _ _ ▸ hlabel).1⟩

/-- A prefixed name is no blank node. -/
theorem not_underscore_of_isPrefixedName {rule : Rule} {word : List Char}
    (h : isPrefixedName rule word = true) : word.head? ≠ some '_' := by
  intro hu
  rcases head?_of_isPrefixedName h with hc | ⟨c, hc, hb⟩
  · rw [hc] at hu
    cases hu
  · rw [hc] at hu
    cases hu
    exact absurd hb (by decide)

/-- Behind the colon that a name begins with. -/
theorem run_behind_colon {rest : List Char}
    (h : isPrefixedName .recommendation (':' :: rest) = true) :
    isEscapedRun false rest = true := by
  obtain ⟨label, more, hw, hno, -, hr⟩ := isPrefixedName_iff.1 h
  cases label with
  | nil =>
    cases hw
    exact run_of_local hr
  | cons d label =>
    cases hw
    exact absurd List.mem_cons_self hno

/-- No assignment begins with the colon of a name. -/
theorem head?_ne_equals {rest : List Char} (h : isEscapedRun false rest = true) :
    rest.head? ≠ some '=' := by
  intro hh
  obtain ⟨more, rfl⟩ := List.head?_eq_some_iff.1 hh
  have hc : (isInner '=' || '=' == '.' || '=' == ':') = true := by
    unfold isEscapedRun at h
    exact (Bool.and_eq_true _ _ ▸ h).1
  exact absurd hc (by decide)

theorem endsInBareDot_name {word : List Char}
    (h : isPrefixedName .recommendation word = true) :
    Scan.endsInBareDot word.reverse = false := by
  obtain ⟨label, rest, rfl, -, -, hr⟩ := isPrefixedName_iff.1 h
  rw [List.reverse_append, List.reverse_cons, List.append_assoc]
  exact endsInBareDot_run (run_of_local hr) fun _ => rfl

end Name

theorem Scan.nameToken?_of_isPrefixedName {rule : Name.Rule} {k : Cursor}
    (h : Name.isPrefixedName rule k.value = true) :
    Scan.nameToken? rule k = .ok (some ⟨.prefixedName, Scan.nameText rule k.value, k.span⟩)
      { k with previous := some .prefixedName } := by
  have hhead := Name.not_underscore_of_isPrefixedName h
  have hcolon : k.value.contains ':' = true := by
    obtain ⟨label, rest, hw, -⟩ := Name.isPrefixedName_iff.1 h
    rw [hw]
    simp
  have hanonymous : (k.value == ['_', ':']) = false := by
    rw [beq_eq_false_iff_ne]
    intro hw
    rw [hw] at hhead
    exact hhead rfl
  have hblank : ['_', ':'].isPrefixOf k.value = false := by
    rw [Bool.eq_false_iff]
    intro hp
    obtain ⟨rest, hw⟩ := List.isPrefixOf_iff_prefix.1 hp
    rw [← hw] at hhead
    exact hhead rfl
  unfold Scan.nameToken?
  rw [Scan.get_bind]
  simp only [hcolon, hanonymous, hblank, h, Bool.not_true, Bool.false_eq_true, if_false, if_true]
  rfl

namespace Query.Sparql

open Scan Name Cursor

variable {q : Sparql} {k : Cursor}

/-- A name that is gathered behind a part of it that has been taken. -/
theorem name_succeeds (pre : List Char) {word : List Char} (hq : q.level.nameRule = .recommendation)
    (hg : Gatherable word) (hk : k.ahead = word) (hw : k.written = pre.reverse)
    (hv : isPrefixedName .recommendation (pre ++ word) = true) (hc : k.Clear) :
    ∃ t left, q.name k = .ok t left ∧
      t.content = (.prefixedName, String.ofList (unescape (pre ++ word))) ∧
      left.Stands .prefixedName [] := by
  have hd : endsInBareDot (word.reverse ++ k.written) = false := by
    rw [hw, ← List.reverse_append]
    exact endsInBareDot_name hv
  obtain ⟨mid, e, r, hclear⟩ := succeeds_gatherName hg hk hd
  have hvalue : mid.value = pre ++ word := by
    rw [Cursor.value, r.written, hw, ← List.reverse_append, List.reverse_reverse]
  rw [← hvalue] at hv
  have htoken := nameToken?_of_isPrefixedName hv
  refine ⟨⟨.prefixedName, nameText .recommendation mid.value, mid.span⟩,
    { mid with previous := some .prefixedName }, ?_, ?_, rfl, ?_, ?_⟩
  · unfold name
    rw [hq, bind_eq e, bind_eq htoken]
    rfl
  · rw [hvalue]
    rfl
  · exact r.rest_eq (hk.trans (List.append_nil word).symm)
  · exact (hclear hc).of_eq rfl rfl

theorem body_of_isBase {previous : Option Kind} {c : Char} (h : isBase c = true) :
    q.body previous c = q.name := by
  have hdigit := not_isDigit_of_isBase h
  have hopens : opensName c = true := by simp [opensName, h]
  unfold body
  split <;> first
    | exact absurd h (by decide)
    | skip
  have hat : (c == '@') = false := by
    rw [beq_eq_false_iff_ne]
    rintro rfl
    exact absurd h (by decide)
  rw [hat, hdigit, hopens]
  rfl

/-- The name of a query, from its first character on. -/
theorem body_succeeds {previous : Option Kind} {c : Char} {rest : List Char}
    (hq : q.level.nameRule = .recommendation) (hk : k.ahead = c :: rest)
    (hw : k.written = []) (hv : isPrefixedName .recommendation (c :: rest) = true)
    (hg : c = ':' → Gatherable rest) (hc : k.Clear) :
    ∃ t left, q.body previous c k = .ok t left ∧
      t.content = (.prefixedName, String.ofList (unescape (c :: rest))) ∧
      left.Stands .prefixedName [] := by
  by_cases hcolon : c = ':'
  · subst hcolon
    have hequals : (rest.head? == some '=') = false := by
      rw [beq_eq_false_iff_ne]
      exact head?_ne_equals (run_behind_colon hv)
    have hconsume : Succeeds consume k [':'] [':'] ':' :=
      succeeds_consume (by rw [hk]; rfl) (by decide)
    obtain ⟨k₁, e₁, r₁, c₁⟩ := hconsume
    have hk₁ : k₁.ahead = rest := r₁.rest_eq hk
    obtain ⟨k₂, e₂, r₂, c₂⟩ := succeeds_nextIs (k := k₁) '='
    rw [hk₁, hequals] at e₂
    have hw₂ : k₂.written = [':'].reverse := by
      rw [r₂.written, r₁.written, hw]
      rfl
    obtain ⟨t, left, e, ht, hs⟩ := name_succeeds [':'] hq (hg rfl)
      (r₂.ahead_eq.trans hk₁) hw₂ hv (c₂ (c₁ hc))
    refine ⟨t, left, ?_, ht, hs⟩
    show q.assignmentOrName k = .ok t left
    unfold assignmentOrName
    rw [bind_eq e₁, bind_eq e₂]
    exact e
  · have hbase : isBase c = true := by
      rcases head?_of_isPrefixedName hv with hh | ⟨d, hh, hd⟩
      · cases hh
        exact absurd rfl hcolon
      · cases hh
        exact hd
    rw [body_of_isBase hbase]
    exact name_succeeds [] hq (gatherable_of_isPrefixedName hv) hk hw hv hc

/-- Where a token begins that is no blank character, behind spaces. -/
theorem read_dispatches {kind : Kind} (gap : List Char) {rest : List Char} {c : Char}
    (ho : q.read (some kind) = do
      discardBlank
      tokenHere fun c => if q.progress.inBody then q.body (some kind) c
        else q.prologue (some kind) c)
    (hgap : ∀ d ∈ gap, d = ' ') (hc : Unicode.isBlank c = false)
    (hk : k.Stands kind (gap ++ c :: rest)) :
    ∃ mid, mid.Stands kind (c :: rest) ∧ mid.written = [] ∧
      q.read (some kind) k =
        (if q.progress.inBody then q.body (some kind) c else q.prologue (some kind) c) mid := by
  have hrest : ∀ d, (c :: rest).head? = some d → Unicode.isBlank d = false := by
    rintro d ⟨⟩
    exact hc
  obtain ⟨k₁, e₁, ha, hb, hp, hwhole, hpending⟩ := discardBlank_whole hk.clear.whole
  have hclear : k₁.Clear := ⟨hpending (by rw [hk.clear.pending]; rfl), hwhole⟩
  rw [hk.ahead, dropWhile_blank (fun d hd => by rw [hgap d hd]; decide) hrest] at ha
  have hlook : look k₁ = .ok (some c) k₁.looked := by
    rw [look_eq, ha]
    rfl
  refine ⟨k₁.looked, ⟨?_, ?_, hclear.looked⟩, ?_, ?_⟩
  · rw [k₁.same_looked.previous, hp, hk.previous]
  · rw [ahead_looked, ha]
  · rw [k₁.same_looked.written, hb.written]
  · rw [ho, bind_eq e₁]
    unfold tokenHere
    rw [bind_eq hlook]

/-- The keyword that opens a query, behind the beginning. -/
theorem ask_succeeds {rest : List Char} (hq : q.progress.inBody = false)
    (hk : k.Stands .beginning ('A' :: 'S' :: 'K' :: ' ' :: rest)) :
    ∃ t left, q.read (some .beginning) k = .ok t left ∧ t.content = (.keyword .ask, "ASK") ∧
      left.Stands (.keyword .ask) (' ' :: rest) := by
  obtain ⟨k₁, h₁, hw, e⟩ := read_dispatches (q := q) [] rfl (by simp)
    (by decide) hk
  rw [hq] at e
  have hword : k₁.ahead.takeWhile Unicode.isAlphabetic = ['A', 'S', 'K'] := by
    have hA : Unicode.isAlphabetic 'A' = true := by decide
    have hS : Unicode.isAlphabetic 'S' = true := by decide
    have hK : Unicode.isAlphabetic 'K' = true := by decide
    have hspace : Unicode.isAlphabetic ' ' = false := Unicode.isAlphabetic_ascii (by decide)
    simp [h₁.ahead, hA, hS, hK, hspace]
  have hrun := succeeds_consumeWhile (k := k₁)
    (fun c (h : Unicode.isAlphabetic c = true) => not_isLineEnd_of_isAlphabetic h)
  rw [hword] at hrun
  obtain ⟨k₂, e₂, r₂, c₂⟩ := hrun
  have hwritten : k₂.written = ['K', 'S', 'A'] := by
    rw [r₂.written, hw]
    rfl
  have hvalue : k₂.value = ['A', 'S', 'K'] := by
    rw [Cursor.value, hwritten]
    rfl
  have hempty : k₂.isEmpty = false := by
    rw [Cursor.isEmpty, hwritten]
    rfl
  have hlevel : q.checkLevel .ask = pure () := by
    unfold checkLevel
    rw [if_pos]
    cases q.level <;> rfl
  have htoken : q.prologueWord ['A', 'S', 'K'] k₂ = emit (.keyword .ask) k₂ := by
    have hfind : Keyword.ofWord? ['A', 'S', 'K'] = some .ask := by decide
    unfold prologueWord
    rw [if_neg (by decide), if_neg (by decide), hfind]
    dsimp only
    rw [if_pos (by decide), hlevel]
    rfl
  refine ⟨⟨.keyword .ask, k₂.text, k₂.span⟩,
    { k₂ with written := [], previous := some (.keyword .ask) }, ?_, ?_, rfl, ?_, ?_⟩
  · rw [e, if_neg (by decide)]
    unfold prologue
    rw [if_neg (by decide), if_neg (by decide), bind_eq e₂, get_bind, hempty,
      if_neg (by decide), hvalue, htoken]
    rfl
  · show (Kind.keyword .ask, String.ofList k₂.value) = _
    rw [hvalue]
  · exact r₂.rest_eq h₁.ahead
  · exact (c₂ h₁.clear).of_eq rfl rfl

/-- The end of a query, behind a name. -/
theorem ending_read (hk : k.Stands .prefixedName []) :
    ∃ t left, q.read (some .prefixedName) k = .ok t left ∧ t.content = (.ending, "") := by
  obtain ⟨k₁, e₁, ha, hb, -, hwhole, hpending⟩ := discardBlank_whole hk.clear.whole
  have hclear : k₁.Clear := ⟨hpending (by rw [hk.clear.pending]; rfl), hwhole⟩
  rw [hk.ahead] at ha
  have hlook : look k₁ = .ok none k₁.looked := by
    rw [look_eq, ha]
    rfl
  have hb₁ : k₁.looked.Begun :=
    (k₁.same_looked.reads k₁.ahead_looked).begun hb
  obtain ⟨t, left, e, ht⟩ := ending_succeeds "Token" hb₁ hclear.looked
  refine ⟨t, left, ?_, ht⟩
  show (do
    discardBlank
    tokenHere fun c => if q.progress.inBody then q.body (some .prefixedName) c
      else q.prologue (some .prefixedName) c : Scan Token) k = .ok t left
  rw [bind_eq e₁]
  unfold tokenHere
  rw [bind_eq hlook]
  exact e

end Query.Sparql

/-! ## Names that are cut short -/

namespace Name

theorem mem_of_mem_unescape {c : Char} {word : List Char} (h : c ∈ unescape word) :
    c ∈ word := by
  fun_induction unescape word with
  | case1 => exact h
  | case2 next more hr ih => exact List.mem_cons_of_mem _ (ih h)
  | case3 next more hr ih =>
    rcases List.mem_cons.1 h with rfl | h
    · exact List.mem_cons_self
    · exact List.mem_cons_of_mem _ (ih h)
  | case4 d word hd ih =>
    rcases List.mem_cons.1 h with rfl | h
    · exact List.mem_cons_self
    · exact List.mem_cons_of_mem _ (ih h)

/-- Only backslashes are dropped. -/
theorem mem_unescape {c : Char} {word : List Char} (h : c ∈ word) (hc : c ≠ '\\') :
    c ∈ unescape word := by
  fun_induction unescape word with
  | case1 => exact h
  | case2 next more hr ih =>
    rcases List.mem_cons.1 h with rfl | h
    · exact absurd rfl hc
    · exact ih h
  | case3 next more hr ih =>
    rcases List.mem_cons.1 h with rfl | h
    · exact absurd rfl hc
    · exact List.mem_cons_of_mem _ (ih h)
  | case4 d word hd ih =>
    rcases List.mem_cons.1 h with rfl | h
    · exact List.mem_cons_self
    · exact List.mem_cons_of_mem _ (ih h)

/-- A local name in which an escape comes before the first colon, split there. -/
theorem exists_escape {afterDot : Bool} {run : List Char}
    (h : isEscapedRun afterDot run = true)
    (he : '\\' ∈ run.takeWhile (· != ':') ∨ '%' ∈ run.takeWhile (· != ':')) :
    ∃ label more, (∀ c ∈ label, (isInner c || c == '.') = true) ∧
      ((∃ c, run = label ++ '\\' :: c :: more ∧ isReserved c = true) ∨
        run = label ++ '%' :: more) := by
  fun_induction isEscapedRun afterDot run with
  | case1 => simp at he
  | case2 afterDot a b rest ih => exact ⟨[], a :: b :: rest, by simp, Or.inr rfl⟩
  | case3 afterDot c rest ih =>
    rw [Bool.and_eq_true] at h
    exact ⟨[], rest, by simp, Or.inl ⟨c, rfl, h.1⟩⟩
  | case4 afterDot c rest _ _ ih =>
    rw [Bool.and_eq_true] at h
    by_cases hc : c = ':'
    · rw [hc] at he
      simp at he
    · have hplain : (isInner c || c == '.') = true := by
        have h₁ := h.1
        rw [Bool.or_eq_true, beq_iff_eq] at h₁
        exact h₁.resolve_right hc
      have hne : (c != ':') = true := bne_iff_ne.2 hc
      have hscan := isScanned_of_plain hplain
      have hb : '\\' ≠ c := (ne_of_isScanned (Name.isScanned_ascii (by decide)) hscan).symm
      have hp : '%' ≠ c := (ne_of_isScanned (Name.isScanned_ascii (by decide)) hscan).symm
      rw [List.takeWhile_cons, if_pos hne, List.mem_cons, List.mem_cons] at he
      have he' : '\\' ∈ rest.takeWhile (· != ':') ∨ '%' ∈ rest.takeWhile (· != ':') := by
        rcases he with (he | he) | he | he
        · exact absurd he hb
        · exact Or.inl he
        · exact absurd he hp
        · exact Or.inr he
      obtain ⟨label, more, hl, hm⟩ := ih h.2 he'
      refine ⟨c :: label, more, ?_, ?_⟩
      · intro d hd
        rcases List.mem_cons.1 hd with rfl | hd
        · exact hplain
        · exact hl d hd
      · rcases hm with ⟨d, hm, hd⟩ | hm
        · exact Or.inl ⟨d, by rw [hm, List.cons_append], hd⟩
        · exact Or.inr (by rw [hm, List.cons_append])

end Name

/-- Outside of a local name a backslash does not announce a reserved character. -/
theorem Escape.refused_of_reserved {c : Char} (h : Name.isReserved c = true) :
    Escape.ofChar .name c = .refused := by
  have hmem : c ∈ Name.reserved := by
    rw [Name.isReserved] at h
    exact List.contains_iff_mem.1 h
  simp only [Name.reserved, List.mem_cons, List.not_mem_nil, or_false] at hmem
  rcases hmem with rfl | rfl | rfl | rfl | rfl | rfl | rfl | rfl | rfl | rfl | rfl | rfl | rfl |
    rfl | rfl | rfl | rfl | rfl | rfl | rfl <;> rfl

namespace Query.Sparql

open Scan Name Cursor

variable {q : Sparql} {k : Cursor}

/-- Where no colon has been read, a backslash before a reserved character is a
fault. -/
theorem backslash_refused {c : Char} {more : List Char} {left : Cursor} {u : Unit}
    (hk : k.ahead = '\\' :: c :: more) (hc : isReserved c = true) :
    iterate (nameTurn .recommendation true) (advances_nameTurn .recommendation true) false k ≠
      .ok u left := by
  intro e
  rw [iterate_eq] at e
  obtain ⟨r, k₁, e, -⟩ := bind_ok e
  have hlook : look k = .ok (some '\\') k.looked := by
    rw [look_eq, hk]
    rfl
  unfold nameTurn at e
  rw [bind_eq hlook] at e
  obtain ⟨_, k₂, e, -⟩ := bind_ok e
  obtain ⟨d, k₃, e₃, e⟩ := bind_ok e
  have hhead : k.looked.ahead = '\\' :: c :: more := k.ahead_looked.trans hk
  rw [skip_cons hhead] at e₃
  cases e₃
  have hlook₃ : look (k.looked.moved '\\') = .ok (some c) (k.looked.moved '\\').looked := by
    rw [look_eq, ahead_moved, hhead]
    rfl
  rw [if_neg (by decide), bind_eq hlook₃] at e
  dsimp only at e
  unfold decodeAfterBackslash at e
  rw [Escape.refused_of_reserved hc] at e
  cases e

/-- Where no colon has been read, a percent sign ends gathering. -/
theorem percent_stops {more : List Char} {left : Cursor} {u : Unit}
    (hk : k.ahead = '%' :: more)
    (e : iterate (nameTurn .recommendation true) (advances_nameTurn .recommendation true) false k =
      .ok u left) : left.written = k.written := by
  have hlook : look k = .ok (some '%') k.looked := by
    rw [look_eq, hk]
    rfl
  have hscan : isScanned '%' = false := Name.isScanned_ascii (by decide)
  rw [iterate_eq] at e
  obtain ⟨r, k₁, e₁, e⟩ := bind_ok e
  unfold nameTurn at e₁
  rw [bind_eq hlook] at e₁
  dsimp only at e₁
  rw [if_neg (by decide), if_neg (by decide), if_neg (by decide), hscan] at e₁
  cases e₁
  cases e
  exact k.same_looked.written

/-- Giving a dot back leaves a part of the text, with the colon that begins
it. -/
theorem value_of_settles {mid left : Cursor} {label : List Char} (h : Settles mid left)
    (hw : mid.written = label.reverse ++ [':']) :
    ∃ word, left.value = ':' :: word ∧ ∀ c ∈ word, c ∈ label := by
  cases h with
  | stays =>
    refine ⟨label, ?_, fun c hc => hc⟩
    rw [Cursor.value, hw, List.reverse_append, List.reverse_reverse]
    rfl
  | gives w hp hw' =>
    have hsplit : label.reverse ++ [':'] = '.' :: w := hw.symm.trans hw'
    cases hl : label.reverse with
    | nil =>
      rw [hl] at hsplit
      cases hsplit
    | cons d init =>
      rw [hl, List.cons_append] at hsplit
      cases hsplit
      refine ⟨init.reverse, ?_, ?_⟩
      · show (init ++ [':']).reverse = _
        rw [List.reverse_append]
        rfl
      · intro c hc
        rw [← List.mem_reverse, hl]
        exact List.mem_cons_of_mem _ (List.mem_reverse.1 hc)

/-- Behind its first colon a name is read no further than to the first escape,
and then its text is no part of the whole. -/
theorem name_cut {rest : List Char} {t : Token} {left : Cursor}
    (hq : q.level.nameRule = .recommendation) (hk : k.ahead = rest) (hw : k.written = [':'])
    (hr : isEscapedRun false rest = true)
    (he : '\\' ∈ rest.takeWhile (· != ':') ∨ '%' ∈ rest.takeWhile (· != ':'))
    (e : q.name k = .ok t left) :
    t.content ≠ (.prefixedName, String.ofList (unescape (':' :: rest))) := by
  obtain ⟨label, more, hl, hm⟩ := exists_escape hr he
  obtain ⟨_, k₁, e₁, e⟩ := bind_ok e
  rw [hq] at e₁ e
  obtain ⟨k₂, e₂, hs⟩ := gatherName_settles e₁
  rcases hm with ⟨c, hm, hc⟩ | hm
  · obtain ⟨mid, r, -, hi⟩ := label_gathered hl (hk.trans hm)
    rw [hi] at e₂
    exact absurd e₂ (backslash_refused (r.rest_eq (hk.trans hm)) hc)
  · obtain ⟨mid, r, -, hi⟩ := label_gathered hl (hk.trans hm)
    rw [hi] at e₂
    have hw₂ : k₂.written = label.reverse ++ [':'] := by
      rw [percent_stops (r.rest_eq (hk.trans hm)) e₂, r.written, hw]
    obtain ⟨word, hvalue, hword⟩ := value_of_settles hs hw₂
    have hpercent : '%' ∉ word := by
      intro hp
      have h := hl _ (hword _ hp)
      exact absurd h (by decide)
    intro hcontent
    obtain ⟨o, k₃, e₃, e⟩ := bind_ok e
    have e₃ := get_bind_ok e₃
    rw [hvalue, if_neg (by simp), if_neg (by simp), if_neg (by simp)] at e₃
    split at e₃
    · obtain ⟨u, k₄, e₄, e₃⟩ := bind_ok e₃
      cases e₄
      cases e₃
      cases e
      have htext : nameText .recommendation (':' :: word) =
          String.ofList (unescape (':' :: rest)) := congrArg Prod.snd hcontent
      have hunescape : unescape (':' :: word) = unescape (':' :: rest) :=
        String.ofList_injective htext
      have hmem : '%' ∈ unescape (':' :: rest) := by
        apply mem_unescape _ (by decide)
        rw [hm]
        simp
      rw [← hunescape] at hmem
      rcases List.mem_cons.1 (mem_of_mem_unescape hmem) with hc | hc
      · cases hc
      · exact hpercent hc
    · cases e₃

end Query.Sparql

/-! ## Whole texts -/

namespace Name

/-- The name begins with its colon, and an escape comes before a second one. -/
def EscapesEarly (word : List Char) : Prop :=
  ∃ rest, word = ':' :: rest ∧
    ('\\' ∈ rest.takeWhile (· != ':') ∨ '%' ∈ rest.takeWhile (· != ':'))

end Name

/-- From SPARQL 1.1 on names are those of the recommendation. -/
theorem Query.Level.nameRule_of_ne {level : Query.Level} (h : level ≠ .sparql10) :
    level.nameRule = .recommendation := by
  cases level with
  | sparql10 => exact absurd rfl h
  | sparql11 => rfl
  | extended => rfl

namespace Lexer

open Query (Level Sparql)
open Cursor (Stands)

/-- The tokens `ASK` and a name, for what they are and what they say. -/
def askedName (word : List Char) : List (Kind × String) :=
  [(.beginning, ""), (.keyword .ask, "ASK"),
    (.prefixedName, String.ofList (Name.unescape word)), (.ending, "")]

/-- `ASK` is read, and the query goes on behind it. -/
theorem reaches_ask (level : Level) (dialect : Graph.Dialect) (v : String) :
    ∃ t l q, Reaches (ofText ⟨.sparql, level, dialect⟩ ("ASK " ++ v)) [.beginning, t] l ∧
      t.content = (.keyword .ask, "ASK") ∧ l.machine = .sparql q ∧ q.level = level ∧
      q.progress.inBody = true ∧ l.cursor.Stands (.keyword .ask) (' ' :: v.toList) := by
  let l₀ := ofText ⟨.sparql, level, dialect⟩ ("ASK " ++ v)
  have e₀ : l₀.next = (.ok .beginning, l₀.next.2) := rfl
  have hstands : l₀.next.2.cursor.Stands .beginning ('A' :: 'S' :: 'K' :: ' ' :: v.toList) := by
    refine ⟨rfl, ?_, rfl, rfl, rfl⟩
    show ("ASK " ++ v).toList = _
    rw [String.toList_append]
    rfl
  obtain ⟨t, left, e, ht, hs⟩ := Sparql.ask_succeeds (q := ⟨level, .initial⟩) rfl hstands.fresh
  have e₁ : l₀.next.2.next = (.ok t, ⟨l₀.next.2.machine.after t, left⟩) :=
    next_of_read rfl nofun e
  have hkind : t.kind = .keyword .ask := congrArg Prod.fst ht
  refine ⟨t, _, ⟨level, Query.Progress.initial.after t⟩, (Reaches.start.next e₀).next e₁, ht,
    rfl, rfl, ?_, hs⟩
  unfold Query.Progress.after
  rw [hkind]
  rfl

/-- A name behind `ASK` that can be gathered is read whole. -/
theorem run_of_gatherable {level : Level} {dialect : Graph.Dialect} {v : String}
    (hl : level ≠ .sparql10) (hv : Name.isPrefixedName .recommendation v.toList = true)
    (hb : ∀ c, v.toList.head? = some c → Unicode.isBlank c = false)
    (hg : ∀ rest, v.toList = ':' :: rest → Name.Gatherable rest) :
    ∃ ts, (ofText ⟨.sparql, level, dialect⟩ ("ASK " ++ v)).run = .ok ts ∧
      ts.map Token.content = askedName v.toList := by
  obtain ⟨t, l, q, h, ht, hm, hlevel, hbody, hs⟩ := reaches_ask level dialect v
  have hrule : q.level.nameRule = .recommendation := by
    rw [hlevel, Level.nameRule_of_ne hl]
  obtain ⟨c, rest, hc⟩ : ∃ c rest, v.toList = c :: rest := by
    cases hcs : v.toList with
    | nil =>
      rw [hcs] at hv
      cases hv
    | cons c rest => exact ⟨c, rest, rfl⟩
  rw [hc] at hv hb hg hs
  obtain ⟨k₁, h₁, hw, e₁⟩ := Sparql.read_dispatches (q := q) [' '] rfl (by simp) (hb c rfl)
    hs.fresh
  rw [hbody, if_pos rfl] at e₁
  have hname : ∃ u left, q.body (some (.keyword .ask)) c k₁ = .ok u left ∧
      u.content = (.prefixedName, String.ofList (Name.unescape (c :: rest))) ∧
      left.Stands .prefixedName [] :=
    Sparql.body_succeeds hrule h₁.ahead hw hv (fun hcolon => hg rest (by rw [hcolon])) h₁.clear
  obtain ⟨u, left, e₂, hu, hs₂⟩ := hname
  have e : l.next = (.ok u, ⟨l.machine.after u, left⟩) := by
    apply next_of_read hs.previous nofun
    rw [hm]
    exact e₁.trans e₂
  obtain ⟨w, left', e₃, hw₃⟩ := Sparql.ending_read (q := { q with progress := q.progress.after u })
    hs₂.fresh
  have hp : (⟨l.machine.after u, left⟩ : Lexer).cursor.previous = some .prefixedName :=
    hs₂.previous
  have e' : (⟨l.machine.after u, left⟩ : Lexer).next =
      (.ok w, ⟨(l.machine.after u).after w, left'⟩) := by
    apply next_of_read hp nofun
    rw [hm]
    exact e₃
  have hkinds : ∀ x ∈ [Token.beginning, t] ++ [u], x.kind ≠ .ending := by
    have hkind : t.kind = .keyword .ask := congrArg Prod.fst ht
    have hkind' : u.kind = .prefixedName := congrArg Prod.fst hu
    intro x hx
    simp only [List.cons_append, List.nil_append, List.mem_cons, List.not_mem_nil, or_false] at hx
    rcases hx with rfl | rfl | rfl
    · exact nofun
    · rw [hkind]
      exact nofun
    · rw [hkind']
      exact nofun
  refine ⟨[.beginning, t] ++ [u] ++ [w],
    run_of_reaches (h.next e) hkinds e' (congrArg Prod.fst hw₃), ?_⟩
  rw [hc, List.map_append, List.map_append, List.map_cons, List.map_cons, ht, List.map_singleton,
    List.map_singleton, hu, hw₃]
  rfl

/-- The third token of a text that asks for a name is read by the body of the
query, from the name on. -/
theorem body_of_reaches {level : Level} {dialect : Graph.Dialect} {v : String} {c : Char}
    {rest : List Char} (hc : v.toList = c :: rest) (hb : Unicode.isBlank c = false)
    {b a n : Token} {ts : List Token} {l : Lexer}
    (h : Reaches (ofText ⟨.sparql, level, dialect⟩ ("ASK " ++ v)) (b :: a :: n :: ts) l) :
    ∃ q k left, q.level = level ∧ k.Stands (.keyword .ask) (c :: rest) ∧ k.written = [] ∧
      Sparql.body q (some (.keyword .ask)) c k = .ok n left := by
  obtain ⟨t, l₁, q, h₁, -, hm, hlevel, hbody, hs⟩ := reaches_ask level dialect v
  have hsplit : Reaches (ofText ⟨.sparql, level, dialect⟩ ("ASK " ++ v)) ([b, a] ++ n :: ts) l := h
  obtain ⟨l₂, h₂, h₃⟩ := hsplit.of_append
  obtain ⟨-, rfl⟩ := h₂.unique h₁ rfl
  obtain ⟨l₃, e, -⟩ := h₃.of_cons
  rw [hc] at hs
  rcases Scan.step_cases (next_ok e).1 with ⟨hp, -⟩ | ⟨hp, -⟩ | ⟨-, -, e⟩
  · rw [hs.previous] at hp
    cases hp
  · rw [hs.previous] at hp
    cases hp
  · obtain ⟨k, hk, hw, hread⟩ := Sparql.read_dispatches (q := q) [' '] rfl (by simp) hb hs.fresh
    rw [hs.previous, hm] at e
    rw [hbody, if_pos rfl] at hread
    exact ⟨q, k, l₃.cursor, hlevel, hk, hw, hread.symm.trans e⟩

/-- A name behind `ASK` that escapes too early is not read whole. -/
theorem content_ne_of_escapesEarly {level : Level} {dialect : Graph.Dialect} {v : String}
    (hl : level ≠ .sparql10) (hv : Name.isPrefixedName .recommendation v.toList = true)
    (he : Name.EscapesEarly v.toList) {ts : List Token}
    (hr : (ofText ⟨.sparql, level, dialect⟩ ("ASK " ++ v)).run = .ok ts) :
    ts.map Token.content ≠ askedName v.toList := by
  intro hcontent
  obtain ⟨rest, hc, he⟩ := he
  rw [hc] at hv hcontent
  obtain ⟨l, h⟩ := reaches_of_run hr
  have hlength : ts.length = 4 := by
    rw [← List.length_map (f := Token.content), hcontent]
    rfl
  match ts, hlength with
  | [b, a, n, w], _ =>
    obtain ⟨q, k, left, hlevel, hk, hw, e⟩ := body_of_reaches hc (by decide) h
    have hrun := Name.run_behind_colon hv
    obtain ⟨_, k₁, e₁, e⟩ := Scan.bind_ok (show q.assignmentOrName k = .ok n left from e)
    have hconsume : Scan.Succeeds Scan.consume k [':'] [':'] ':' :=
      Scan.succeeds_consume (by rw [hk.ahead]; rfl) (by decide)
    obtain ⟨k₂, e₂, r₂, -⟩ := hconsume
    rw [e₁] at e₂
    cases e₂
    obtain ⟨k₃, e₃, r₃, -⟩ := Scan.succeeds_nextIs (k := k₁) '='
    have hequals : (k₁.ahead.head? == some '=') = false := by
      rw [r₂.rest_eq hk.ahead, beq_eq_false_iff_ne]
      exact Name.head?_ne_equals hrun
    rw [Scan.bind_eq e₃, hequals] at e
    have hw₃ : k₃.written = [':'] := by
      rw [r₃.written, r₂.written, hw]
      rfl
    apply Sparql.name_cut (q := q) (by rw [hlevel]; exact Level.nameRule_of_ne hl)
      (r₃.ahead_eq.trans (r₂.rest_eq hk.ahead)) hw₃ hrun he e
    simp only [askedName, List.map_cons, List.cons.injEq] at hcontent
    exact hcontent.2.2.1

/-- Behind `ASK` a name that the recommendation's rule derives is read whole, with
its escapes taken away, exactly if it does not begin with its colon and escape a
character before a second one. -/
theorem names_whole (level : Level) (dialect : Graph.Dialect) (v : String)
    (hl : level ≠ .sparql10) (hv : Name.isPrefixedName .recommendation v.toList = true)
    (hb : ∀ c, v.toList.head? = some c → Unicode.isBlank c = false) :
    (∃ ts, (ofText ⟨.sparql, level, dialect⟩ ("ASK " ++ v)).run = .ok ts ∧
      ts.map Token.content = askedName v.toList) ↔ ¬ Name.EscapesEarly v.toList := by
  constructor
  · rintro ⟨ts, hr, hcontent⟩ he
    exact content_ne_of_escapesEarly hl hv he hr hcontent
  · intro he
    apply run_of_gatherable hl hv hb
    intro rest hc
    have hnot : ∀ d, d = '\\' ∨ d = '%' → d ∉ rest.takeWhile (· != ':') := by
      rintro d (rfl | rfl) hd
      · exact he ⟨rest, hc, Or.inl hd⟩
      · exact he ⟨rest, hc, Or.inr hd⟩
    rw [hc] at hv
    exact Name.gatherable_of_run (Name.run_behind_colon hv) (hnot _ (Or.inl rfl))
      (hnot _ (Or.inr rfl))

/-- Behind a prefix the escape of a local name is read. -/
theorem names_whole_named_prefix :
    ∃ ts, (ofText ⟨.sparql, .sparql11, .recommendation⟩ ("ASK " ++ "e:a\\-b%41")).run = .ok ts ∧
      ts.map Token.content = [(.beginning, ""), (.keyword .ask, "ASK"),
        (.prefixedName, "e:a-b%41"), (.ending, "")] := by
  have hname : Name.isPrefixedName .recommendation "e:a\\-b%41".toList = true := by
    decide
  have hblank : ∀ c, "e:a\\-b%41".toList.head? = some c → Unicode.isBlank c = false := by
    rintro c ⟨⟩
    decide
  have hlate : ¬ Name.EscapesEarly "e:a\\-b%41".toList := by
    rintro ⟨rest, hrest, -⟩
    cases hrest
  exact (names_whole .sparql11 .recommendation "e:a\\-b%41" nofun hname hblank).2 hlate

/-- With no prefix before it, the same escape is a fault. -/
theorem not_whole_empty_prefix :
    Name.isPrefixedName .recommendation ":a\\-b".toList = true ∧
      Unicode.isBlank ':' = false ∧
      (ofText ⟨.sparql, .sparql11, .recommendation⟩ "ASK :a\\-b").run.toOption = none := by
  decide +kernel

end Lexer

end TripleLex

import Mathlib.Data.List.Infix
import TripleLex.Number.Grammar
import TripleLex.Unicode.Blank

/-!
# Numbers at the start of a text

Where each character of a number may stand is a matter of what has been gathered before
it: a dot and the mark of an exponent stand once, the dot before the mark, and a sign
stands first or behind the mark (`Number.admits`). The grammar asks for more, so whatever
it derives can be gathered (`Number.placed_of_isNumber`); how much more is seen behind the
longest number of a text, where at most a dot or a mark can be gathered on
(`Number.Longest.admits`).

## Main results

* `Number.unsigned_of_isUnsigned`, `Number.isUnsigned_of_unsigned` — numbers by their parts.
* `Number.placed_of_isNumber` — numbers are gathered whole.
* `Number.exists_longest`, `Number.Longest.admits` — the longest number, and what is
  admitted behind it.
-/

namespace TripleLex

namespace Number

/-! ## Characters -/

section Characters

variable {d : Char}

/-- A digit is none of the other characters of a number. -/
theorem plain_of_isDigit (h : d.isDigit = true) :
    isExponentMark d = false ∧ d ≠ '.' ∧ d ≠ '+' ∧ d ≠ '-' := by
  refine ⟨?_, ?_, ?_, ?_⟩
  · rw [Bool.eq_false_iff]
    intro hmark
    simp only [isExponentMark, Bool.or_eq_true, beq_iff_eq] at hmark
    rcases hmark with rfl | rfl <;> exact absurd h (by decide)
  all_goals
    rintro rfl
    exact absurd h (by decide)

theorem not_isDigit_of_isExponentMark (h : isExponentMark d = true) : d.isDigit = false := by
  rw [Bool.eq_false_iff]
  intro hdigit
  rw [(plain_of_isDigit hdigit).1] at h
  cases h

@[simp]
theorem isExponentMark_dot : isExponentMark '.' = false := by decide

theorem not_isBlank_of_isDigit (h : d.isDigit = true) : Unicode.isBlank d = false := by
  rw [Bool.eq_false_iff]
  intro hblank
  have hranges : ∀ run ∈ Unicode.blankRanges, run.2 < 48 ∨ 57 < run.1 := by decide
  obtain ⟨run, hrun, hlo, hhi⟩ := Unicode.Ranges.has_iff.1 hblank
  simp only [Char.isDigit, Bool.and_eq_true, decide_eq_true_eq, UInt32.le_iff_toNat_le] at h
  have hdigit : 48 ≤ d.toNat ∧ d.toNat ≤ 57 := h
  have hrange := hranges run hrun
  omega

end Characters

/-! ## Placement -/

/-- Whether a character may come next in a number, by what has been gathered of it. -/
def admits (text : List Char) (c : Char) : Bool :=
  c.isDigit || (c == '.' && !(text.contains '.' || text.any isExponentMark)) ||
    ((c == '+' || c == '-') && text.getLast?.all isExponentMark) ||
    (isExponentMark c && !text.any isExponentMark)

theorem admits_dot (text : List Char) :
    admits text '.' = !(text.contains '.' || text.any isExponentMark) := by
  simp [admits]

theorem not_isDigit_of_admits {text : List Char} {c : Char} (h : admits text c = false) :
    c.isDigit = false := by
  rw [Bool.eq_false_iff]
  intro hdigit
  simp [admits, hdigit] at h

/-- Each of the characters may come next where it stands. -/
def placed (text : List Char) : List Char → Bool
  | [] => true
  | c :: cs => admits text c && placed (text ++ [c]) cs

section Placed

variable {text u v ds t : List Char}

theorem placed_append (text u v : List Char) :
    placed text (u ++ v) = (placed text u && placed (text ++ u) v) := by
  induction u generalizing text with
  | nil => simp [placed]
  | cons c u ih => simp [placed, ih, Bool.and_assoc]

/-- The characters that are admitted go up to one that is not. -/
theorem exists_placed (text cs : List Char) : ∃ p rest, cs = p ++ rest ∧ placed text p = true ∧
    ∀ c, rest.head? = some c → admits (text ++ p) c = false := by
  induction cs generalizing text with
  | nil => exact ⟨[], [], rfl, rfl, nofun⟩
  | cons c cs ih =>
    by_cases hc : admits text c = true
    · obtain ⟨p, rest, hcs, hp, hrest⟩ := ih (text ++ [c])
      refine ⟨c :: p, rest, by rw [hcs]; rfl, by simp [placed, hc, hp], ?_⟩
      simpa using hrest
    · refine ⟨[], c :: cs, rfl, rfl, ?_⟩
      rintro d ⟨⟩
      simpa using hc

theorem placed_digits (h : ds.all Char.isDigit = true) : placed text ds = true := by
  induction ds generalizing text with
  | nil => rfl
  | cons d ds ih =>
    obtain ⟨hd, hds⟩ := Bool.and_eq_true_iff.1 h
    simp [placed, admits, hd, ih hds]

end Placed

/-! ## Words of the grammar -/

section Grammar

variable {w p ds t : List Char} {d : Char}

/-- A number without its sign, by its parts. -/
inductive Unsigned : List Char → Prop
  | integer {whole tail : List Char} (h : isDigits whole = true) (ht : isTail tail = true) :
    Unsigned (whole ++ tail)
  | decimal {whole frac tail : List Char} (h : whole.all Char.isDigit = true)
      (hf : isDigits frac = true) (ht : isTail tail = true) :
    Unsigned (whole ++ '.' :: (frac ++ tail))
  /-- No digits behind the dot, but an exponent. -/
  | bare {whole tail : List Char} (h : isDigits whole = true) (ht : isTail tail = true)
      (hne : tail ≠ []) : Unsigned (whole ++ '.' :: tail)

theorem isTail_nil : isTail [] = true := rfl

theorem isDigits_iff : isDigits ds = true ↔ ds ≠ [] ∧ ds.all Char.isDigit = true := by
  simp [isDigits]

theorem exists_digit (h : isDigits ds = true) :
    ∃ d ds', ds = d :: ds' ∧ d.isDigit = true := by
  obtain ⟨hne, hdigits⟩ := isDigits_iff.1 h
  obtain ⟨d, ds, rfl⟩ := List.exists_cons_of_ne_nil hne
  exact ⟨d, ds, rfl, List.all_eq_true.1 hdigits d List.mem_cons_self⟩

/-- No digit begins the end of a number. -/
theorem not_isDigit_of_isTail (ht : isTail t = true) :
    ∀ c, t.head? = some c → c.isDigit = false := by
  intro c hc
  obtain ⟨rest, rfl⟩ := List.head?_eq_some_iff.1 hc
  exact not_isDigit_of_isExponentMark (Bool.and_eq_true_iff.1 ht).1

theorem takeWhile_digits (h : ds.all Char.isDigit = true)
    (ht : ∀ c, t.head? = some c → c.isDigit = false) :
    (ds ++ t).takeWhile Char.isDigit = ds ∧ (ds ++ t).dropWhile Char.isDigit = t := by
  have hds : ∀ d ∈ ds, d.isDigit = true := List.all_eq_true.1 h
  rw [List.takeWhile_append_of_pos hds, List.dropWhile_append_of_pos hds]
  cases t with
  | nil => simp
  | cons c t => simp [ht c rfl]

theorem unsigned_of_isUnsigned (h : isUnsigned false w = true) : Unsigned w := by
  have hsplit := List.takeWhile_append_dropWhile (p := Char.isDigit) (l := w)
  have hwhole : (w.takeWhile Char.isDigit).all Char.isDigit = true := by simp
  unfold isUnsigned at h
  rw [← hsplit]
  generalize w.takeWhile Char.isDigit = whole at *
  dsimp only at h
  split at h
  · rename_i rest hrest
    have hsplit' := List.takeWhile_append_dropWhile (p := Char.isDigit) (l := rest)
    have hfrac : (rest.takeWhile Char.isDigit).all Char.isDigit = true := by simp
    generalize rest.takeWhile Char.isDigit = frac at *
    generalize rest.dropWhile Char.isDigit = tail at *
    rw [hrest, ← hsplit']
    obtain ⟨ht, hne⟩ := Bool.and_eq_true_iff.1 h
    cases frac with
    | nil =>
      have hne : whole ≠ [] ∧ tail ≠ [] := by simpa using hne
      exact .bare (isDigits_iff.2 ⟨hne.1, hwhole⟩) ht hne.2
    | cons d frac => exact .decimal hwhole (isDigits_iff.2 ⟨nofun, hfrac⟩) ht
  · obtain ⟨hne, ht⟩ := Bool.and_eq_true_iff.1 h
    exact .integer (isDigits_iff.2 ⟨by simpa using hne, hwhole⟩) ht

theorem isUnsigned_of_unsigned (h : Unsigned w) : isUnsigned false w = true := by
  have hdot : ∀ (rest : List Char) c, ('.' :: rest).head? = some c → c.isDigit = false := by
    rintro rest c ⟨⟩
    decide
  unfold isUnsigned
  cases h with
  | @integer whole tail h ht =>
    obtain ⟨hne, hdigits⟩ := isDigits_iff.1 h
    obtain ⟨htake, hdrop⟩ := takeWhile_digits hdigits (not_isDigit_of_isTail ht)
    rw [htake, hdrop]
    cases tail with
    | nil => simp [hne, isTail]
    | cons c tail =>
      have hmark := (Bool.and_eq_true_iff.1 ht).1
      have hc : c ≠ '.' := by
        rintro rfl
        exact absurd hmark (by decide)
      simp [hne, ht, hc]
  | @decimal whole frac tail h hf ht =>
    obtain ⟨hne, hdigits⟩ := isDigits_iff.1 hf
    obtain ⟨htake, hdrop⟩ := takeWhile_digits h (hdot (frac ++ tail))
    obtain ⟨htake', hdrop'⟩ := takeWhile_digits hdigits (not_isDigit_of_isTail ht)
    rw [htake, hdrop]
    simp [htake', hdrop', hne, ht]
  | @bare whole tail h ht hne =>
    obtain ⟨hne', hdigits⟩ := isDigits_iff.1 h
    obtain ⟨htake, hdrop⟩ := takeWhile_digits hdigits (hdot tail)
    have hnil : ([] : List Char).all Char.isDigit = true := rfl
    obtain ⟨htake', hdrop'⟩ := takeWhile_digits hnil (not_isDigit_of_isTail ht)
    rw [List.nil_append] at htake' hdrop'
    rw [htake, hdrop]
    simp [htake', hdrop', hne, hne', ht]

/-- Where a dot is allowed at the end, digits may stand before it, and nothing else is gained. -/
theorem isUnsigned_true_iff : isUnsigned true w = true ↔
    isUnsigned false w = true ∨ ∃ ds, isDigits ds = true ∧ w = ds ++ ['.'] := by
  constructor
  · intro h
    have hsplit := List.takeWhile_append_dropWhile (p := Char.isDigit) (l := w)
    have hwhole : (w.takeWhile Char.isDigit).all Char.isDigit = true := by simp
    unfold isUnsigned at h ⊢
    dsimp only at h ⊢
    split at h
    · rename_i rest hrest
      obtain ⟨ht, hne⟩ := Bool.and_eq_true_iff.1 h
      by_cases htail : rest.dropWhile Char.isDigit = []
      · cases hfrac : rest.takeWhile Char.isDigit with
        | nil =>
          have hnil : rest = [] := by
            rw [← List.takeWhile_append_dropWhile (p := Char.isDigit) (l := rest), hfrac, htail]
            rfl
          have hne : w.takeWhile Char.isDigit ≠ [] := by simpa [hfrac] using hne
          refine .inr ⟨w.takeWhile Char.isDigit, isDigits_iff.2 ⟨hne, hwhole⟩, ?_⟩
          rw [← hnil, ← hrest, hsplit]
        | cons d frac => exact .inl (by simp [ht])
      · refine .inl (Bool.and_eq_true_iff.2 ⟨ht, ?_⟩)
        simpa [htail] using hne
    · exact .inl h
  · rintro (h | ⟨ds, hd, rfl⟩)
    · unfold isUnsigned at h ⊢
      dsimp only at h ⊢
      split at h
      · obtain ⟨ht, hne⟩ := Bool.and_eq_true_iff.1 h
        refine Bool.and_eq_true_iff.2 ⟨ht, ?_⟩
        simp only [Bool.or_false, Bool.or_true, Bool.and_true] at hne ⊢
        rw [Bool.or_eq_true] at hne ⊢
        exact hne.imp_right fun hne => (Bool.and_eq_true_iff.1 hne).1
      · exact h
    · have hdot : ∀ c, ['.'].head? = some c → c.isDigit = false := by
        rintro c ⟨⟩
        decide
      obtain ⟨hne, hdigits⟩ := isDigits_iff.1 hd
      obtain ⟨htake, hdrop⟩ := takeWhile_digits hdigits hdot
      unfold isUnsigned
      rw [htake, hdrop]
      simp [hne, isTail]

/-- A number is one without its sign, perhaps behind a sign. -/
theorem sign_cases (p : List Char) :
    (∃ c, (c = '+' ∨ c = '-') ∧ p = c :: unsigned p) ∨ p = unsigned p := by
  unfold unsigned
  split
  · exact .inl ⟨'+', .inl rfl, rfl⟩
  · exact .inl ⟨'-', .inr rfl, rfl⟩
  · exact .inr rfl

theorem unsigned_append (hne : p ≠ []) (u : List Char) : unsigned (p ++ u) = unsigned p ++ u := by
  cases p with
  | nil => exact absurd rfl hne
  | cons c p =>
    by_cases hplus : c = '+'
    · rw [hplus]; rfl
    · by_cases hminus : c = '-'
      · rw [hminus]; rfl
      · simp [unsigned, hplus, hminus]

theorem ne_nil_of_isNumber (h : isNumber false p = true) : p ≠ [] := by
  rintro rfl
  exact absurd h (by decide)

/-! ### Digits at the end -/

/-- The text ends in a digit. -/
def EndsInDigit (w : List Char) : Prop := ∃ u d, w = u ++ [d] ∧ d.isDigit = true

theorem EndsInDigit.behind {v : List Char} (h : EndsInDigit v) (u : List Char) :
    EndsInDigit (u ++ v) := by
  obtain ⟨w, d, rfl, hd⟩ := h
  exact ⟨u ++ w, d, (List.append_assoc u w [d]).symm, hd⟩

theorem endsInDigit_of_isDigits (h : isDigits ds = true) : EndsInDigit ds := by
  obtain ⟨hne, hdigits⟩ := isDigits_iff.1 h
  exact ⟨ds.dropLast, ds.getLast hne, (List.dropLast_concat_getLast hne).symm,
    List.all_eq_true.1 hdigits _ (List.getLast_mem hne)⟩

/-- Where a text without its sign does, all of it does. -/
theorem endsInDigit_of_unsigned (h : EndsInDigit (unsigned p)) : EndsInDigit p := by
  rcases sign_cases p with ⟨c, -, hp⟩ | hp
  · rw [hp]
    exact h.behind [c]
  · rwa [hp]

theorem endsInDigit_of_isTail (ht : isTail t = true) (hne : t ≠ []) : EndsInDigit t := by
  obtain ⟨c, rest, rfl⟩ := List.exists_cons_of_ne_nil hne
  obtain ⟨-, hrest⟩ := Bool.and_eq_true_iff.1 ht
  exact (endsInDigit_of_unsigned (endsInDigit_of_isDigits hrest)).behind [c]

theorem Unsigned.endsInDigit (h : Unsigned w) : EndsInDigit w := by
  cases h with
  | @integer whole tail h ht =>
    by_cases hne : tail = []
    · rw [hne, List.append_nil]
      exact endsInDigit_of_isDigits h
    · exact (endsInDigit_of_isTail ht hne).behind whole
  | @decimal whole frac tail h hf ht =>
    rw [List.append_cons]
    by_cases hne : tail = []
    · rw [hne, List.append_nil]
      exact (endsInDigit_of_isDigits hf).behind _
    · exact ((endsInDigit_of_isTail ht hne).behind frac).behind _
  | @bare whole tail h ht hne =>
    rw [List.append_cons]
    exact (endsInDigit_of_isTail ht hne).behind _

/-- A number ends in a digit. -/
theorem endsInDigit_of_isNumber (h : isNumber false p = true) : EndsInDigit p :=
  endsInDigit_of_unsigned (unsigned_of_isUnsigned h).endsInDigit

/-- So it does not end in a dot. -/
theorem getLast?_ne_dot (h : isNumber false p = true) : p.getLast? ≠ some '.' := by
  obtain ⟨u, d, rfl, hd⟩ := endsInDigit_of_isNumber h
  rw [List.getLast?_concat]
  exact fun hlast => (plain_of_isDigit hd).2.1 (Option.some.inj hlast)

/-! ### Longer numbers -/

theorem isDigits_concat (h : ds.all Char.isDigit = true) (hd : d.isDigit = true) :
    isDigits (ds ++ [d]) = true := by
  simp [isDigits, hd] at h ⊢
  exact h

theorem isTail_concat (ht : isTail t = true) (hne : t ≠ []) (hd : d.isDigit = true) :
    isTail (t ++ [d]) = true := by
  obtain ⟨c, rest, rfl⟩ := List.exists_cons_of_ne_nil hne
  obtain ⟨hmark, hrest⟩ := Bool.and_eq_true_iff.1 ht
  have hne : rest ≠ [] := by
    rintro rfl
    exact absurd hrest (by decide)
  refine Bool.and_eq_true_iff.2 ⟨hmark, ?_⟩
  show isDigits (unsigned (rest ++ [d])) = true
  rw [unsigned_append hne]
  exact isDigits_concat (isDigits_iff.1 hrest).2 hd

theorem Unsigned.concat (h : Unsigned w) (hd : d.isDigit = true) : Unsigned (w ++ [d]) := by
  cases h with
  | @integer whole tail h ht =>
    rw [List.append_assoc]
    by_cases hne : tail = []
    · rw [hne]
      have hwhole := isDigits_concat (isDigits_iff.1 h).2 hd
      simpa using Unsigned.integer hwhole isTail_nil
    · exact .integer h (isTail_concat ht hne hd)
  | @decimal whole frac tail h hf ht =>
    rw [List.append_assoc, List.cons_append, List.append_assoc]
    by_cases hne : tail = []
    · rw [hne]
      have hfrac := isDigits_concat (isDigits_iff.1 hf).2 hd
      simpa using Unsigned.decimal h hfrac isTail_nil
    · exact .decimal h hf (isTail_concat ht hne hd)
  | @bare whole tail h ht hne =>
    rw [List.append_assoc]
    exact .bare h (isTail_concat ht hne hd) (by simp)

/-- A digit may be added to a number. -/
theorem isNumber_concat (h : isNumber false p = true) (hd : d.isDigit = true) :
    isNumber false (p ++ [d]) = true := by
  unfold isNumber
  rw [unsigned_append (ne_nil_of_isNumber h)]
  exact isUnsigned_of_unsigned ((unsigned_of_isUnsigned h).concat hd)

theorem Unsigned.fraction (h : Unsigned w) (hdot : '.' ∉ w)
    (hmark : w.any isExponentMark = false) (hd : d.isDigit = true) : Unsigned (w ++ ['.', d]) := by
  cases h with
  | @integer whole tail h ht =>
    cases tail with
    | nil =>
      have hfrac : isDigits [d] = true := by simp [isDigits, hd]
      simpa using Unsigned.decimal (isDigits_iff.1 h).2 hfrac isTail_nil
    | cons c tail =>
      have hc := List.any_eq_false.1 hmark c (by simp)
      exact absurd (Bool.and_eq_true_iff.1 ht).1 hc
  | decimal => exact absurd (by simp) hdot
  | bare => exact absurd (by simp) hdot

/-- A fraction may be added to an integer. -/
theorem isNumber_fraction (h : isNumber false p = true) (hdot : '.' ∉ p)
    (hmark : p.any isExponentMark = false) (hd : d.isDigit = true) :
    isNumber false (p ++ ['.', d]) = true := by
  have hin : ∀ c ∈ unsigned p, c ∈ p := by
    intro c hc
    rcases sign_cases p with ⟨sign, -, hp⟩ | hp
    · rw [hp]
      exact List.mem_cons_of_mem sign hc
    · rwa [hp]
  unfold isNumber
  rw [unsigned_append (ne_nil_of_isNumber h)]
  refine isUnsigned_of_unsigned ((unsigned_of_isUnsigned h).fraction (mt (hin '.') hdot) ?_ hd)
  rw [List.any_eq_false] at hmark ⊢
  exact fun c hc => hmark c (hin c hc)

/-! ### Gathered whole -/

variable {text : List Char}

theorem any_digits (hd : ds.all Char.isDigit = true) : ds.any isExponentMark = false := by
  rw [List.any_eq_false]
  intro c hc hmark
  rw [(plain_of_isDigit (List.all_eq_true.1 hd c hc)).1] at hmark
  cases hmark

theorem any_append_digits (h : text.any isExponentMark = false) (hd : ds.all Char.isDigit = true) :
    (text ++ ds).any isExponentMark = false := by
  rw [List.any_append, h, any_digits hd]
  rfl

theorem not_mem_digits (hd : ds.all Char.isDigit = true) : '.' ∉ ds :=
  fun h => (plain_of_isDigit (List.all_eq_true.1 hd _ h)).2.1 rfl

theorem placed_tail (ht : isTail t = true) (h : text.any isExponentMark = false) :
    placed text t = true := by
  cases t with
  | nil => rfl
  | cons c rest =>
    obtain ⟨hmark, hrest⟩ := Bool.and_eq_true_iff.1 ht
    have hdigits : ∀ text, placed text (unsigned rest) = true :=
      fun _ => placed_digits (isDigits_iff.1 hrest).2
    have hc : admits text c = true := by simp [admits, hmark, h]
    rcases sign_cases rest with ⟨sign, hsign, hrest⟩ | hrest
    · have hadmits : admits (text ++ [c]) sign = true := by
        rcases hsign with rfl | rfl <;> simp [admits, hmark]
      rw [hrest]
      simp [placed, hc, hadmits, hdigits]
    · rw [hrest]
      simp [placed, hc, hdigits]

theorem Unsigned.placed (h : Unsigned w) (hdot : '.' ∉ text)
    (hmark : text.any isExponentMark = false) : placed text w = true := by
  have hadmits : ∀ {whole}, whole.all Char.isDigit = true →
      admits (text ++ whole) '.' = true := by
    intro whole hdigits
    simp [admits, hdot, not_mem_digits hdigits, any_append_digits hmark hdigits]
  have hbehind : ∀ {whole}, whole.all Char.isDigit = true →
      (text ++ whole ++ ['.']).any isExponentMark = false := by
    intro whole hdigits
    rw [List.any_append, any_append_digits hmark hdigits]
    decide
  cases h with
  | @integer whole tail h ht =>
    have hdigits := (isDigits_iff.1 h).2
    rw [placed_append, placed_digits hdigits, placed_tail ht (any_append_digits hmark hdigits)]
    rfl
  | @decimal whole frac tail h hf ht =>
    have hfrac := (isDigits_iff.1 hf).2
    rw [placed_append, placed_digits h, placed, hadmits h, placed_append, placed_digits hfrac,
      placed_tail ht (any_append_digits (hbehind h) hfrac)]
    rfl
  | @bare whole tail h ht hne =>
    have hdigits := (isDigits_iff.1 h).2
    rw [placed_append, placed_digits hdigits, placed, hadmits hdigits,
      placed_tail ht (hbehind hdigits)]
    rfl

/-- So are digits and a dot. -/
theorem placed_final (hd : isDigits ds = true) (hdot : '.' ∉ text)
    (hmark : text.any isExponentMark = false) : placed text (ds ++ ['.']) = true := by
  have hdigits := (isDigits_iff.1 hd).2
  have hadmits : admits (text ++ ds) '.' = true := by
    rw [admits_dot, any_append_digits hmark hdigits]
    simp [hdot, not_mem_digits hdigits]
  rw [placed_append, placed_digits hdigits, placed, hadmits]
  rfl

theorem placed_of_isUnsigned {dot : Bool} (h : isUnsigned dot w = true) (hdot : '.' ∉ text)
    (hmark : text.any isExponentMark = false) : placed text w = true := by
  cases dot with
  | false => exact (unsigned_of_isUnsigned h).placed hdot hmark
  | true =>
    rcases isUnsigned_true_iff.1 h with h | ⟨ds, hd, rfl⟩
    · exact (unsigned_of_isUnsigned h).placed hdot hmark
    · exact placed_final hd hdot hmark

/-- Whatever is a number is gathered whole. -/
theorem placed_of_isNumber {dot : Bool} (h : isNumber dot p = true) : placed [] p = true := by
  rcases sign_cases p with ⟨c, hc, hp⟩ | hp
  · have hadmits : admits [] c = true := by rcases hc with rfl | rfl <;> decide
    have hrest : placed [c] (unsigned p) = true := by
      refine placed_of_isUnsigned h ?_ ?_ <;> rcases hc with rfl | rfl <;> decide
    rw [hp, placed, hadmits]
    exact hrest
  · rw [hp]
    exact placed_of_isUnsigned h nofun rfl

end Grammar

/-! ### Starts and ends -/

/-- A text that a number or a sign is read from: it begins with a digit, with a sign, or with a
dot before a digit. -/
inductive Starts : List Char → Prop
  | digit {d : Char} {cs : List Char} (hd : d.isDigit = true) : Starts (d :: cs)
  | sign {c : Char} {cs : List Char} (hc : c = '+' ∨ c = '-') : Starts (c :: cs)
  | dot {d : Char} {cs : List Char} (hd : d.isDigit = true) : Starts ('.' :: d :: cs)

/-- No blank character begins it. -/
theorem Starts.exists_cons {cs : List Char} (h : Starts cs) :
    ∃ c cs', cs = c :: cs' ∧ Unicode.isBlank c = false := by
  cases h with
  | digit hd => exact ⟨_, _, rfl, not_isBlank_of_isDigit hd⟩
  | sign hc => exact ⟨_, _, rfl, by rcases hc with rfl | rfl <;> decide⟩
  | dot => exact ⟨_, _, rfl, by decide⟩

/-- Whatever is a number begins like one. -/
theorem Starts.of_isNumber {dot : Bool} {p : List Char} (h : isNumber dot p = true) :
    Starts p := by
  rcases sign_cases p with ⟨c, hc, hp⟩ | hp
  · rw [hp]
    exact .sign hc
  have hdigits : ∀ {ds cs : List Char}, isDigits ds = true → Starts (ds ++ cs) := by
    intro ds cs hds
    obtain ⟨d, ds, rfl, hd⟩ := exists_digit hds
    exact .digit hd
  have hunsigned : isUnsigned true p = true := by
    rw [hp]
    cases dot with
    | false => exact isUnsigned_true_iff.2 (.inl h)
    | true => exact h
  rcases isUnsigned_true_iff.1 hunsigned with h | ⟨ds, hds, rfl⟩
  · cases unsigned_of_isUnsigned h with
    | integer hwhole ht => exact hdigits hwhole
    | @decimal whole frac tail hwhole hfrac ht =>
      cases whole with
      | nil =>
        obtain ⟨d, ds, rfl, hd⟩ := exists_digit hfrac
        exact .dot hd
      | cons d whole => exact hdigits (isDigits_iff.2 ⟨nofun, hwhole⟩)
    | bare hwhole ht hne => exact hdigits hwhole
  · exact hdigits hds

/-- The mark of an exponent does not come first. -/
theorem Starts.head?_any {cs : List Char} (h : Starts cs) :
    cs.head?.any isExponentMark = false := by
  cases h with
  | digit hd => exact (plain_of_isDigit hd).1
  | sign hc => rcases hc with rfl | rfl <;> rfl
  | dot => rfl

theorem unsigned_digit {d : Char} (hd : d.isDigit = true) : Unsigned [d] := by
  have hdigits : isDigits [d] = true := by simp [isDigits, hd]
  exact .integer hdigits isTail_nil

/-- A digit is a number, also behind a sign. -/
theorem isNumber_digit {d : Char} (hd : d.isDigit = true) : isNumber false [d] = true := by
  obtain ⟨-, -, hplus, hminus⟩ := plain_of_isDigit hd
  have hitself : unsigned [d] = [d] := by simp [unsigned, hplus, hminus]
  unfold isNumber
  rw [hitself]
  exact isUnsigned_of_unsigned (unsigned_digit hd)

theorem isNumber_signed {c d : Char} (hc : c = '+' ∨ c = '-') (hd : d.isDigit = true) :
    isNumber false [c, d] = true := by
  have hitself : unsigned [c, d] = [d] := by rcases hc with rfl | rfl <;> rfl
  unfold isNumber
  rw [hitself]
  exact isUnsigned_of_unsigned (unsigned_digit hd)

theorem isNumber_dotted {d : Char} (hd : d.isDigit = true) : isNumber false ['.', d] = true := by
  have hdigits : isDigits [d] = true := by simp [isDigits, hd]
  have hwhole : ([] : List Char).all Char.isDigit = true := rfl
  exact isUnsigned_of_unsigned (w := ['.', d]) (.decimal hwhole hdigits isTail_nil)

/-- If no number begins it, a sign does. -/
theorem Starts.exists_sign {cs : List Char} (h : Starts cs)
    (hnone : ∀ p, p <+: cs → isNumber false p = false) :
    ∃ c rest, cs = c :: rest ∧ (c = '+' ∨ c = '-') := by
  cases h with
  | @digit d cs hd =>
    have hnumber := hnone [d] ⟨cs, rfl⟩
    rw [isNumber_digit hd] at hnumber
    cases hnumber
  | @sign c cs hc => exact ⟨c, cs, rfl, hc⟩
  | @dot d cs hd =>
    have hnumber := hnone ['.', d] ⟨cs, rfl⟩
    rw [isNumber_dotted hd] at hnumber
    cases hnumber

/-! ### The longest number -/

/-- The longest number that the text begins with, and what follows it. -/
structure Longest (cs p rest : List Char) : Prop where
  split : cs = p ++ rest
  number : isNumber false p = true
  longest : ∀ p', p' <+: cs → isNumber false p' = true → p'.length ≤ p.length

/-- The mark of an exponent follows a number that has none. -/
def MarkBehind (p rest : List Char) : Prop :=
  p.any isExponentMark = false ∧ rest.head?.any isExponentMark = true

instance (p rest : List Char) : Decidable (MarkBehind p rest) := inferInstanceAs (Decidable (_ ∧ _))

/-- It follows behind a dot. -/
def MarkBehindDot (p rest : List Char) : Prop :=
  '.' ∉ p ∧ rest.head? = some '.' ∧ MarkBehind p rest.tail

instance (p rest : List Char) : Decidable (MarkBehindDot p rest) :=
  inferInstanceAs (Decidable (_ ∧ _ ∧ _))

section Longest

variable {cs p rest text : List Char} {c d : Char}

/-- Where a text begins with a number, there is a longest one. -/
theorem exists_longest (hp : p <+: cs) (h : isNumber false p = true) :
    ∃ p rest, Longest cs p rest := by
  generalize hn : cs.length - p.length = n
  induction n using Nat.strongRecOn generalizing p with
  | ind n ih =>
    by_cases hlonger : ∃ p', p' <+: cs ∧ isNumber false p' = true ∧ p.length < p'.length
    · obtain ⟨p', hp', h', hlt⟩ := hlonger
      have hle := hp'.length_le
      exact ih (cs.length - p'.length) (by omega) hp' h' rfl
    · obtain ⟨rest, hrest⟩ := hp
      refine ⟨p, rest, hrest.symm, h, fun p' hp' h' => ?_⟩
      exact Nat.not_lt.1 fun hlt => hlonger ⟨p', hp', h', hlt⟩

/-- There is no other. -/
theorem Longest.unique {p' rest' : List Char} (h : Longest cs p rest) (h' : Longest cs p' rest') :
    p = p' ∧ rest = rest' := by
  have hp : p <+: cs := ⟨rest, h.split.symm⟩
  have hp' : p' <+: cs := ⟨rest', h'.split.symm⟩
  have hlength : p.length = p'.length :=
    Nat.le_antisymm (h'.longest p hp h.number) (h.longest p' hp' h'.number)
  exact List.append_inj (h.split.symm.trans h'.split) hlength

instance : Decidable (Longest cs p rest) :=
  decidable_of_iff (cs = p ++ rest ∧ isNumber false p = true ∧
      ∀ p' ∈ cs.inits, isNumber false p' = true → p'.length ≤ p.length) <| by
    constructor
    · rintro ⟨hsplit, hnumber, hlongest⟩
      exact ⟨hsplit, hnumber, fun p' hp' => hlongest p' ((List.mem_inits p' cs).2 hp')⟩
    · rintro ⟨hsplit, hnumber, hlongest⟩
      exact ⟨hsplit, hnumber, fun p' hp' => hlongest p' ((List.mem_inits p' cs).1 hp')⟩

/-- No longer text is a number. -/
theorem Longest.not_isNumber (h : Longest cs p rest) {u : List Char} (hu : u <+: rest)
    (hne : u ≠ []) : isNumber false (p ++ u) = false := by
  rw [Bool.eq_false_iff]
  intro hnumber
  have hprefix : p ++ u <+: cs := by
    rw [h.split]
    exact (List.prefix_append_right_inj p).2 hu
  have hle := h.longest _ hprefix hnumber
  have hpositive := List.length_pos_iff.2 hne
  rw [List.length_append] at hle
  omega

/-- Behind the longest number at most a dot or the mark of an exponent is admitted. -/
theorem Longest.admits (h : Longest cs p rest) (hc : rest.head? = some c) :
    admits p c = true →
      (c = '.' ∧ '.' ∉ p ∧ p.any isExponentMark = false) ∨ MarkBehind p rest := by
  intro hadmits
  obtain ⟨w, rfl⟩ := List.head?_eq_some_iff.1 hc
  have hdigit : c.isDigit = false := by
    rw [Bool.eq_false_iff]
    intro hdigit
    have hnot := h.not_isNumber ⟨w, rfl⟩ (u := [c]) nofun
    rw [isNumber_concat h.number hdigit] at hnot
    cases hnot
  have hlast : p.getLast?.all isExponentMark = false := by
    obtain ⟨u, d, hp, hd⟩ := endsInDigit_of_isNumber h.number
    rw [hp, List.getLast?_concat]
    exact (plain_of_isDigit hd).1
  simp only [Number.admits, hdigit, hlast, Bool.and_false, Bool.or_false, Bool.false_or] at hadmits
  rcases Bool.or_eq_true_iff.1 hadmits with hdot | hmark
  · obtain ⟨hdot, hnone⟩ := Bool.and_eq_true_iff.1 hdot
    rw [Bool.not_eq_true', Bool.or_eq_false_iff] at hnone
    exact .inl ⟨beq_iff_eq.1 hdot, by simpa using hnone.1, hnone.2⟩
  · obtain ⟨hmark, hnone⟩ := Bool.and_eq_true_iff.1 hmark
    exact .inr ⟨by simpa using hnone, hmark⟩

/-- Behind a dot, no more is admitted if no digit and no mark follows. -/
theorem Longest.not_admits (h : Longest cs p ('.' :: rest)) (hdot : '.' ∉ p)
    (hmark : p.any isExponentMark = false) (hbehind : ¬ MarkBehind p rest) :
    ∀ c, rest.head? = some c → Number.admits (p ++ ['.']) c = false := by
  intro c hc
  obtain ⟨w, rfl⟩ := List.head?_eq_some_iff.1 hc
  have hdigit : c.isDigit = false := by
    rw [Bool.eq_false_iff]
    intro hdigit
    have hnot := h.not_isNumber ⟨w, rfl⟩ (u := ['.', c]) nofun
    rw [isNumber_fraction h.number hdot hmark hdigit] at hnot
    cases hnot
  have hnone : isExponentMark c = false := by
    rw [Bool.eq_false_iff]
    exact fun hc => hbehind ⟨hmark, hc⟩
  simp [Number.admits, hdigit, hnone]

/-- Behind a dot or the mark of an exponent no dot is gathered. -/
theorem not_mem_of_placed {u : List Char} (h : placed text u = true)
    (hheld : (text.contains '.' || text.any isExponentMark) = true) : '.' ∉ u := by
  induction u generalizing text with
  | nil => exact nofun
  | cons c u ih =>
    obtain ⟨hc, hu⟩ := Bool.and_eq_true_iff.1 h
    have hdot : '.' ≠ c := by
      rintro rfl
      rw [admits_dot, hheld] at hc
      cases hc
    have hheld' : ((text ++ [c]).contains '.' || (text ++ [c]).any isExponentMark) = true := by
      rw [Bool.or_eq_true] at hheld ⊢
      refine hheld.imp (fun h => ?_) fun h => ?_
      · exact List.contains_iff_mem.2 (List.mem_append_left _ (List.contains_iff_mem.1 h))
      · rw [List.any_append, h, Bool.true_or]
    simpa [hdot] using ih hu hheld'

end Longest

end Number

end TripleLex

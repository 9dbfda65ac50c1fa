import TripleLex.Proofs.NamesAlone
import TripleLex.Proofs.Productions

/-!
# Names by their productions

The recognisers of names read a word once from the left. Where a dot may stand inside but not
at the end, they carry along whether the last character was one, and what comes next is told
from a single character, or two or three of an escape. The productions say the same by choice
and repetition: pieces with dots before them, up to a piece that is none
(`Production.dotted`).

## Main results

* `Name.isRun_iff`, `Name.isEscapedRun_iff` — what may follow the first character.
* `Name.isLocal_iff`, `Name.isPrefixLabel_iff` — local names and prefixes.
* `Name.names_derived` — names as wholes.
-/

namespace TripleLex

open Production
open scoped Computability

namespace Production

/-- Pieces and dots, and a piece at the end. -/
def dotted (piece : Language Char) : Language Char := (piece + char '.')∗ * piece

/-- What may still follow: behind a dot a piece has to, and otherwise nothing has. -/
def behind (piece : Language Char) (afterDot : Bool) : Language Char :=
  if afterDot then dotted piece else optional (dotted piece)

variable {piece : Language Char} {b : Bool} {c : Char} {w : List Char}

theorem dotted_eq (piece : Language Char) :
    dotted piece = piece * behind piece false + char '.' * behind piece true := by
  have hturn : dotted piece = piece + (piece + char '.') * dotted piece := kstar_mul_eq _ _
  show dotted piece = piece * (1 + dotted piece) + char '.' * dotted piece
  rw [mul_add, mul_one, add_assoc, ← add_mul]
  exact hturn

theorem nil_mem_behind (h : [] ∉ piece) : [] ∈ behind piece b ↔ b = false := by
  have hdotted : [] ∉ dotted piece := by
    rw [dotted, Language.mem_mul]
    rintro ⟨u, -, v, hv, hnil⟩
    rw [(List.append_eq_nil_iff.1 hnil).2] at hv
    exact h hv
  cases b with
  | false => simp [behind, mem_optional]
  | true => simp [behind, hdotted]

/-- It begins with a piece or with a dot. -/
theorem cons_mem_behind : c :: w ∈ behind piece b ↔
    c :: w ∈ piece * behind piece false ∨ c = '.' ∧ w ∈ behind piece true := by
  have hdotted : c :: w ∈ behind piece b ↔ c :: w ∈ dotted piece := by
    cases b with
    | false => simp [behind, mem_optional]
    | true => rfl
  rw [hdotted, dotted_eq, Language.mem_add, cons_mem_char_mul]

end Production

namespace Name

/-! ## The productions -/

/-- `PN_PREFIX`. -/
def prefixLabels : Language Char := one isBase * optional (dotted (one isInner))

/-- `PLX`: an encoded octet, or a reserved character behind a backslash. -/
def escapes : Language Char :=
  char '%' * (one isHexDigit * one isHexDigit) + char '\\' * one isReserved

/-- `PN_LOCAL`, by either rule. -/
def localNames : Rule → Language Char
  | .submission => (one isLead + one Char.isDigit) * optional (dotted (one isInner))
  | .recommendation => (one isLead + char ':' + one Char.isDigit + escapes) *
      optional (dotted (one isInner + char ':' + escapes))

/-- A prefixed name. -/
def prefixedNames (rule : Rule) : Language Char :=
  optional prefixLabels * char ':' * optional (localNames rule)

/-- A prefix with its colon. -/
def prefixes : Language Char := optional prefixLabels * char ':'

/-- The label of a blank node with its signs. -/
def blankNodes : Language Char := char '_' * char ':' * localNames .submission

variable {b : Bool} {c : Char} {w : List Char} {l : Language Char}

/-! ## Runs -/

theorem not_isInner_of_eq (h : c = '.' ∨ c = ':' ∨ c = '%' ∨ c = '\\') : isInner c = false := by
  rcases h with rfl | rfl | rfl | rfl <;> decide

theorem isRun_iff : isRun b w = true ↔ w ∈ behind (one isInner) b := by
  induction w generalizing b with
  | nil =>
    rw [nil_mem_behind nil_notMem_one, isRun, Bool.not_eq_true']
  | cons c w ih =>
    rw [cons_mem_behind, cons_mem_one_mul, isRun, Bool.and_eq_true, ih]
    by_cases hdot : c = '.'
    · simp [hdot, not_isInner_of_eq]
    · simp [beq_eq_false_iff_ne.2 hdot, hdot]

theorem mem_escapes_mul : w ∈ escapes * l ↔
    (∃ x y v, w = '%' :: x :: y :: v ∧ isHexDigit x = true ∧ isHexDigit y = true ∧ v ∈ l) ∨
      ∃ x v, w = '\\' :: x :: v ∧ isReserved x = true ∧ v ∈ l := by
  rw [escapes, add_mul, Language.mem_add, char, char]
  simp only [mul_assoc, mem_one_mul, beq_iff_eq]
  constructor
  · rintro (⟨_, _, rfl, rfl, x, _, rfl, hx, y, v, rfl, hy, hv⟩ | ⟨_, _, rfl, rfl, x, v, rfl, hx, hv⟩)
    · exact .inl ⟨x, y, v, rfl, hx, hy, hv⟩
    · exact .inr ⟨x, v, rfl, hx, hv⟩
  · rintro (⟨x, y, v, rfl, hx, hy, hv⟩ | ⟨x, v, rfl, hx, hv⟩)
    · exact .inl ⟨_, _, rfl, rfl, x, _, rfl, hx, y, v, rfl, hy, hv⟩
    · exact .inr ⟨_, _, rfl, rfl, x, v, rfl, hx, hv⟩

/-- What may follow the first character of a local name of the recommendation. -/
def pieces : Language Char := one isInner + char ':' + escapes

theorem cons_mem_pieces_mul : c :: w ∈ pieces * l ↔
    (isInner c || c == ':') = true ∧ w ∈ l ∨ c :: w ∈ escapes * l := by
  rw [pieces, char, one_add_one, add_mul, Language.mem_add, cons_mem_one_mul]

theorem nil_notMem_escapes_mul : [] ∉ escapes * l := by
  rw [mem_escapes_mul]
  rintro (⟨x, y, v, h, -⟩ | ⟨x, v, h, -⟩) <;> cases h

theorem nil_notMem_pieces : [] ∉ pieces := by
  intro h
  rw [← mul_one pieces, pieces, char, one_add_one, add_mul] at h
  exact h.elim nil_notMem_one_mul nil_notMem_escapes_mul

theorem isEscapedRun_iff : isEscapedRun b w = true ↔ w ∈ behind pieces b := by
  fun_induction isEscapedRun b w with
  | case1 b => rw [nil_mem_behind nil_notMem_pieces, Bool.not_eq_true']
  | case2 b x y v ih =>
    rw [cons_mem_behind, cons_mem_pieces_mul, mem_escapes_mul, Bool.and_eq_true, Bool.and_eq_true, ih]
    simp [not_isInner_of_eq, and_assoc]
  | case3 b x v ih =>
    rw [cons_mem_behind, cons_mem_pieces_mul, mem_escapes_mul, Bool.and_eq_true, ih]
    simp [not_isInner_of_eq]
  | case4 b c v hoctet hreserved ih =>
    have hescape : c :: v ∉ escapes * behind pieces false := by
      rw [mem_escapes_mul]
      rintro (⟨x, y, u, h, -⟩ | ⟨x, u, h, -⟩)
      · obtain ⟨rfl, rfl⟩ := List.cons.inj h
        exact hoctet x y u rfl rfl
      · obtain ⟨rfl, rfl⟩ := List.cons.inj h
        exact hreserved x u rfl rfl
    rw [cons_mem_behind, cons_mem_pieces_mul, or_iff_left hescape, Bool.and_eq_true, ih]
    by_cases hdot : c = '.'
    · simp [hdot, not_isInner_of_eq]
    · simp [beq_eq_false_iff_ne.2 hdot, hdot]

/-! ## Labels and local names -/

theorem isPrefixLabel_iff : isPrefixLabel w = true ↔ w ∈ prefixLabels := by
  cases w with
  | nil => simp [isPrefixLabel, prefixLabels, nil_notMem_one_mul]
  | cons c w =>
    rw [isPrefixLabel, Bool.and_eq_true, isRun_iff, prefixLabels, cons_mem_one_mul]
    rfl

theorem isPlainLocal_iff : isPlainLocal w = true ↔ w ∈ localNames .submission := by
  rw [localNames, one_add_one]
  cases w with
  | nil => simp [isPlainLocal, nil_notMem_one_mul]
  | cons c w =>
    rw [isPlainLocal, Bool.and_eq_true, isRun_iff, cons_mem_one_mul]
    rfl

theorem isInner_of_isDigit (h : c.isDigit = true) : isInner c = true := by
  rw [isInner, h, Bool.or_true, Bool.true_or]

theorem mem_localNames : w ∈ localNames .recommendation ↔
    w ∈ one (fun c => isLead c || c == ':' || c.isDigit) * behind pieces false ∨
      w ∈ escapes * behind pieces false := by
  rw [localNames, char, one_add_one, one_add_one, add_mul]
  rfl

/-- Of the pieces those may come first that begin with a leading character, a digit, a colon or
the sign of an escape. -/
theorem isEscapedLocal_iff : isEscapedLocal w = true ↔ w ∈ localNames .recommendation := by
  rw [mem_localNames]
  cases w with
  | nil => simp [isEscapedLocal, nil_notMem_one_mul, nil_notMem_escapes_mul]
  | cons c w =>
    rw [isEscapedLocal, Bool.and_eq_true, isEscapedRun_iff, cons_mem_behind, cons_mem_pieces_mul,
      cons_mem_one_mul]
    constructor
    · rintro ⟨hfirst, (⟨hpiece, hw⟩ | hescape) | ⟨rfl, -⟩⟩
      · refine .inl ⟨?_, hw⟩
        have hsign : (c == '%') = false ∧ (c == '\\') = false := by
          constructor <;> rw [beq_eq_false_iff_ne] <;> rintro rfl <;>
            exact absurd hpiece (by decide)
        simpa [hsign] using hfirst
      · exact .inr hescape
      · exact absurd hfirst (by decide)
    · rintro (⟨hfirst, hw⟩ | hescape)
      · refine ⟨by simp [hfirst], .inl (.inl ⟨?_, hw⟩)⟩
        simp only [Bool.or_eq_true] at hfirst ⊢
        rcases hfirst with (hlead | hcolon) | hdigit
        · exact .inl (isInner_of_isLead hlead)
        · exact .inr hcolon
        · exact .inl (isInner_of_isDigit hdigit)
      · refine ⟨?_, .inl (.inr hescape)⟩
        rw [mem_escapes_mul] at hescape
        rcases hescape with ⟨x, y, v, h, -⟩ | ⟨x, v, h, -⟩ <;> simp [(List.cons.inj h).1]

/-- Every local name of the submission is one of the recommendation. -/
theorem isEscapedLocal_of_isPlainLocal (h : isPlainLocal w = true) : isEscapedLocal w = true := by
  cases w with
  | nil => cases h
  | cons c w =>
    have hrun := isEscapedRun_of_isRun (isRun_of_isPlainLocal h).2
    rw [isPlainLocal, Bool.and_eq_true, Bool.or_eq_true] at h
    rw [isEscapedLocal, hrun]
    rcases h.1 with hc | hc <;> simp [hc]

theorem isLocal_iff {rule : Rule} : isLocal rule w = true ↔ w ∈ localNames rule := by
  cases rule with
  | submission => exact isPlainLocal_iff
  | recommendation => exact isEscapedLocal_iff

/-! ## Names -/

/-- A prefix holds no colon. -/
theorem colon_notMem_of_isPrefixLabel (h : w = [] ∨ isPrefixLabel w = true) : ':' ∉ w :=
  fun hcolon => absurd (plain_of_isPrefixLabel h ':' hcolon) (by decide)

/-- A prefix and what follows its colon. -/
theorem mem_prefixes_mul : w ∈ optional prefixLabels * char ':' * l ↔
    ∃ label rest, w = label ++ ':' :: rest ∧ ':' ∉ label ∧
      (label = [] ∨ isPrefixLabel label = true) ∧ rest ∈ l := by
  rw [mem_mul_char_mul]
  constructor
  · rintro ⟨label, rest, rfl, hlabel, hrest⟩
    have hlabel := (mem_optional.1 hlabel).imp_right isPrefixLabel_iff.2
    exact ⟨label, rest, rfl, colon_notMem_of_isPrefixLabel hlabel, hlabel, hrest⟩
  · rintro ⟨label, rest, rfl, -, hlabel, hrest⟩
    exact ⟨label, rest, rfl, mem_optional.2 (hlabel.imp_right isPrefixLabel_iff.1), hrest⟩

theorem isPrefixedName_iff_mem {rule : Rule} :
    isPrefixedName rule w = true ↔ w ∈ prefixedNames rule := by
  rw [isPrefixedName_iff, prefixedNames, mem_prefixes_mul]
  simp only [mem_optional, isLocal_iff]

theorem isPrefix_iff : isPrefix w = true ↔ w ∈ prefixes := by
  rw [prefixes, ← mul_one (optional prefixLabels * char ':'), mem_prefixes_mul]
  constructor
  · intro h
    unfold isPrefix at h
    dsimp only at h
    split at h
    · rename_i c hd
      rw [Bool.or_eq_true, List.isEmpty_iff] at h
      exact ⟨_, [], exists_split_colon hd, not_mem_takeWhile_colon w, h, rfl⟩
    · cases h
  · rintro ⟨label, rest, rfl, hno, hlabel, rfl⟩
    unfold isPrefix
    simp only [takeWhile_colon hno, dropWhile_colon hno, Bool.or_eq_true, List.isEmpty_iff]
    exact hlabel

theorem isBlankNode_iff : isBlankNode w = true ↔ w ∈ blankNodes := by
  rw [blankNodes, mul_assoc]
  constructor
  · intro h
    unfold isBlankNode at h
    split at h
    · exact cons_mem_char_mul.2 ⟨rfl, cons_mem_char_mul.2 ⟨rfl, isPlainLocal_iff.1 h⟩⟩
    · cases h
  · intro h
    obtain ⟨_, v, rfl, hsign, hv⟩ := mem_one_mul.1 h
    obtain ⟨_, label, rfl, hcolon, hlabel⟩ := mem_one_mul.1 hv
    rw [beq_iff_eq.1 hsign, beq_iff_eq.1 hcolon]
    exact isPlainLocal_iff.2 hlabel

theorem isPrefixedName_mono (h : isPrefixedName .submission w = true) :
    isPrefixedName .recommendation w = true := by
  obtain ⟨label, rest, hw, hno, hlabel, hrest⟩ := isPrefixedName_iff.1 h
  exact isPrefixedName_iff.2
    ⟨label, rest, hw, hno, hlabel, hrest.imp_right isEscapedLocal_of_isPlainLocal⟩

/-- The recognisers of names accept exactly what the productions derive: a prefixed name by
either rule, a prefix, and the label of a blank node. So a name of the submission is one of the
recommendation. -/
theorem names_derived (word : List Char) :
    (∀ rule, isPrefixedName rule word = true ↔ word ∈ prefixedNames rule) ∧
      (isPrefix word = true ↔ word ∈ prefixes) ∧
      (isBlankNode word = true ↔ word ∈ blankNodes) ∧
      (isPrefixedName .submission word = true → isPrefixedName .recommendation word = true) :=
  ⟨fun _ => isPrefixedName_iff_mem, isPrefix_iff, isBlankNode_iff, isPrefixedName_mono⟩

/-- Dots inside a prefix and a local name, and a digit that begins one; a dot at the end of a
prefix is refused. -/
theorem names_derived_dots :
    isPrefixedName .submission "e.x:0.b".toList = true ∧
      "e.x:0.b".toList ∈ prefixedNames .submission ∧
      isPrefixedName .recommendation "e.x:0.b".toList = true ∧
      "e.x.:\\-%41".toList ∉ prefixedNames .recommendation := by
  have hname : isPrefixedName .submission "e.x:0.b".toList = true := by decide
  obtain ⟨hderived, -, -, hmono⟩ := names_derived "e.x:0.b".toList
  refine ⟨hname, (hderived .submission).1 hname, hmono hname, fun h => ?_⟩
  exact absurd (((names_derived _).1 .recommendation).2 h) (by decide)

end Name

end TripleLex

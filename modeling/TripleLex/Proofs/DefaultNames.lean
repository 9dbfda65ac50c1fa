import TripleLex.Proofs.DeclaredKeywords

/-!
# Names in the default namespace

Once keywords have been declared, a bare word of Notation 3 that is none of them
becomes a name in the default namespace, with a colon written before it. It is not
judged as other names are, and the characters that are gathered into a word, or
that an escape puts there, are not all characters of local names. What a local
name may stand for is `Name.isLocalText`: with a backslash before every reserved
character (`Name.escape`) such a text is a local name, and no other text is one
without its backslashes.

## Main results

* `Token.isNameText_colon_iff` — which words are names behind the colon.
* `Lexer.default_names` — which names of a run the grammar derives.
-/

namespace TripleLex

/-! ## The texts of local names -/

namespace Name

/-- Whether the character may stand in the text of a local name. -/
def isTextChar (c : Char) : Bool := isInner c || c == ':' || isReserved c

/-- Whether the text of a local name may begin with the character. -/
def leadsText (c : Char) : Bool := isLead c || c == ':' || c.isDigit || isReserved c

/-- Whether a local name, or none, may stand for the text. -/
def isLocalText (text : List Char) : Bool := text.all isTextChar && text.head?.all leadsText

/-- The text with a backslash before each reserved character. -/
def escape : List Char → List Char
  | [] => []
  | c :: rest => if isReserved c then '\\' :: c :: escape rest else c :: escape rest

variable {text word : List Char}

theorem ne_backslash_of_isTextChar {c : Char} (h : isTextChar c = true) : c ≠ '\\' := by
  rintro rfl
  exact absurd h (by decide)

theorem isTextChar_of_isReserved {c : Char} (h : isReserved c = true) : isTextChar c = true := by
  simp [isTextChar, h]

theorem isTextChar_of_isInner {c : Char} (h : isInner c = true) : isTextChar c = true := by
  simp [isTextChar, h]

theorem isInner_of_isHexDigit {c : Char} (h : isHexDigit c = true) : isInner c = true := by
  simp only [isHexDigit, Bool.or_eq_true, Bool.and_eq_true, decide_eq_true_eq, Char.le_def,
    UInt32.le_iff_toNat_le] at h
  rcases h with (h | ⟨hlo, hhi⟩) | ⟨hlo, hhi⟩
  · simp [isInner, h]
  · have hc : isBase c = true := Unicode.Ranges.has_iff.2
      ⟨(0x61, 0x7A), by decide, hlo, Nat.le_trans hhi (by decide)⟩
    exact isInner_of_isLead (isLead_of_isBase hc)
  · have hc : isBase c = true := Unicode.Ranges.has_iff.2
      ⟨(0x41, 0x5A), by decide, hlo, Nat.le_trans hhi (by decide)⟩
    exact isInner_of_isLead (isLead_of_isBase hc)

/-! ### From names to texts -/

theorem all_unescape {afterDot : Bool} (h : isEscapedRun afterDot word = true) :
    (unescape word).all isTextChar = true := by
  fun_induction isEscapedRun afterDot word with
  | case1 => rfl
  | case2 afterDot a b rest ih =>
    simp only [Bool.and_eq_true] at h
    have ha := isTextChar_of_isInner (isInner_of_isHexDigit h.1.1)
    have hb := isTextChar_of_isInner (isInner_of_isHexDigit h.1.2)
    rw [unescape_cons (by decide), unescape_cons (ne_backslash_of_isTextChar ha),
      unescape_cons (ne_backslash_of_isTextChar hb)]
    simp only [List.all_cons, Bool.and_eq_true]
    exact ⟨by decide, ha, hb, ih h.2⟩
  | case3 afterDot c rest ih =>
    rw [Bool.and_eq_true] at h
    have hc := isTextChar_of_isReserved h.1
    rw [unescape_reserved h.1, unescape_cons (ne_backslash_of_isTextChar hc), List.all_cons,
      hc, ih h.2, Bool.and_self]
  | case4 afterDot c rest _ _ ih =>
    rw [Bool.and_eq_true, Bool.or_eq_true, Bool.or_eq_true] at h
    have hc : isTextChar c = true := by
      rcases h.1 with (hc | hc) | hc
      · exact isTextChar_of_isInner hc
      · rw [beq_iff_eq.1 hc]
        decide
      · simp [isTextChar, hc]
    rw [unescape_cons (ne_backslash_of_isTextChar hc), List.all_cons, hc, ih h.2, Bool.and_self]

theorem head?_unescape (h : isEscapedLocal word = true) :
    (unescape word).head?.all leadsText = true := by
  cases word with
  | nil => rfl
  | cons c rest =>
    rw [isEscapedLocal, Bool.and_eq_true] at h
    obtain ⟨hlead, hrun⟩ := h
    by_cases hb : c = '\\'
    · subst hb
      cases rest with
      | nil => exact absurd hrun (by decide)
      | cons d rest =>
        rw [isEscapedRun, Bool.and_eq_true] at hrun
        have hd := ne_backslash_of_isTextChar (isTextChar_of_isReserved hrun.1)
        rw [unescape_reserved hrun.1, unescape_cons hd]
        simp [leadsText, hrun.1]
    · rw [unescape_cons hb]
      by_cases hp : c = '%'
      · rw [hp]
        exact (by decide : leadsText '%' = true)
      · simpa [leadsText, hb, hp, or_assoc] using Or.inl hlead

theorem isLocalText_unescape (h : word = [] ∨ isLocal .recommendation word = true) :
    isLocalText (unescape word) = true := by
  have hall := all_unescape (run_of_local h)
  rcases h with rfl | h
  · rfl
  · rw [isLocalText, hall, head?_unescape h, Bool.and_self]

/-- Where the text of a name begins with a colon, so does the name, since no
backslash is dropped in front of a prefix. -/
theorem exists_local_of_unescape {written : List Char}
    (hw : isPrefixedName .recommendation written = true) (h : unescape written = ':' :: text) :
    ∃ rest, text = unescape rest ∧ (rest = [] ∨ isLocal .recommendation rest = true) := by
  obtain ⟨label, rest, rfl, hno, hlabel, hrest⟩ := isPrefixedName_iff.1 hw
  cases label with
  | nil =>
    rw [List.nil_append, unescape_cons (by decide)] at h
    exact ⟨rest, (List.cons.inj h).2.symm, hrest⟩
  | cons c label =>
    have hlabel : isPrefixLabel (c :: label) = true := hlabel.resolve_left (List.cons_ne_nil _ _)
    have hbase : isBase c = true := (Bool.and_eq_true_iff.1 hlabel).1
    have hb : c ≠ '\\' := by
      rintro rfl
      exact absurd hbase (by decide)
    rw [List.cons_append, unescape_cons hb] at h
    exact absurd (List.mem_cons.2 (Or.inl (List.cons.inj h).1.symm)) hno

/-! ### From texts to names -/

theorem unescape_escape (h : text.all isTextChar = true) : unescape (escape text) = text := by
  induction text with
  | nil => rfl
  | cons c rest ih =>
    rw [List.all_cons, Bool.and_eq_true] at h
    have hne := ne_backslash_of_isTextChar h.1
    rw [escape]
    split
    · rename_i hc
      rw [unescape_reserved hc, unescape_cons hne, ih h.2]
    · rw [unescape_cons hne, ih h.2]

theorem isEscapedRun_escape (h : text.all isTextChar = true) :
    isEscapedRun false (escape text) = true := by
  induction text with
  | nil => rfl
  | cons c rest ih =>
    rw [List.all_cons, Bool.and_eq_true] at h
    rw [escape]
    split
    · rename_i hc
      rw [isEscapedRun, hc, ih h.2, Bool.and_self]
    · rename_i hc
      -- the dot is reserved as well, so no bare one is left that a name could not end in
      have hdot : (c == '.') = false := by
        rw [beq_eq_false_iff_ne]
        rintro rfl
        exact hc (by decide)
      have hp : c ≠ '%' := by
        rintro rfl
        exact hc (by decide)
      have hplain : (isInner c || c == ':') = true := by
        simpa [isTextChar, hc] using h.1
      rw [isEscapedRun_plain hp (ne_backslash_of_isTextChar h.1), hdot, ih h.2, Bool.or_false,
        hplain, Bool.and_self]

theorem isEscapedLocal_escape (h : isLocalText text = true) (hne : text ≠ []) :
    isEscapedLocal (escape text) = true := by
  rw [isLocalText, Bool.and_eq_true] at h
  cases text with
  | nil => exact absurd rfl hne
  | cons c rest =>
    have hrun := isEscapedRun_escape h.1
    have hlead : leadsText c = true := h.2
    rw [escape] at hrun ⊢
    split
    · rename_i hc
      rw [if_pos hc] at hrun
      rw [isEscapedLocal, hrun]
      simp
    · rename_i hc
      rw [if_neg hc] at hrun
      have hplain : (isLead c || c == ':' || c.isDigit) = true := by
        simpa [leadsText, hc] using hlead
      rw [isEscapedLocal, hrun, hplain]
      simp

theorem isPrefixedName_escape (h : isLocalText text = true) :
    isPrefixedName .recommendation (':' :: escape text) = true := by
  refine isPrefixedName_iff.2 ⟨[], escape text, rfl, nofun, Or.inl rfl, ?_⟩
  by_cases hne : text = []
  · rw [hne]
    exact Or.inl rfl
  · exact Or.inr (isEscapedLocal_escape h hne)

end Name

/-- What a name of the default namespace may stand for. -/
theorem Token.isNameText_colon_iff {word : List Char} :
    Token.IsNameText .recommendation (String.ofList (':' :: word)) ↔
      Name.isLocalText word = true := by
  constructor
  · rintro ⟨written, hw, htext⟩
    obtain ⟨rest, rfl, hrest⟩ :=
      Name.exists_local_of_unescape hw (String.ofList_injective htext).symm
    exact Name.isLocalText_unescape hrest
  · intro h
    refine ⟨':' :: Name.escape word, Name.isPrefixedName_escape h, ?_⟩
    show _ = String.ofList (Name.unescape (':' :: Name.escape word))
    rw [Name.unescape_cons (by decide), Name.unescape_escape (Bool.and_eq_true_iff.1 h).1]

/-- A name was judged, or it stands for a bare word. -/
theorem Graph.Notation3.Origin.text_of_name {v : Graph.Vocabulary} {t : Token}
    (h : Graph.Notation3.Origin v t) (hk : t.kind = .prefixedName) :
    Token.IsNameText .recommendation t.text ∨
      (v.isOn = true ∧ ∃ word, ':' ∉ word ∧ t.text = String.ofList (':' :: word)) := by
  cases h with
  | declaration _ kind => rcases kind with kind | kind <;> rw [hk] at kind <;> cases kind
  | unrelated _ kind =>
    rw [hk] at kind
    cases kind
  | behindAt _ name kind _ =>
    rw [hk] at kind
    exact absurd (mem_of_directiveKind? kind) (by decide)
  | judged _ _ _ text => exact Or.inl (text hk)
  | bare _ word colon h =>
    have hne : keywordKind word ≠ .prefixedName :=
      ne_of_mem_of_not_mem (keywordKind_mem word) (by decide)
    cases h with
    | truth kind =>
      rw [hk] at kind
      cases kind
    | builtIn _ kind _ => exact absurd (kind.symm.trans hk) hne
    | keyword _ _ kind _ => exact absurd (kind.symm.trans hk) hne
    | name on _ _ text => exact Or.inr ⟨on, word, colon, text⟩

/-! ## Runs -/

namespace Lexer

open Input (Source)

/-- A name of Notation 3 is one that the grammar derives, unless it stands for a
bare word, behind a directive of keywords, that is no text of a local name. -/
theorem default_names (s : Settings) (hs : s.format = .n3) (source : Source) (ts : List Token)
    (l l' : Lexer) (t : Token) (h : Reaches (ofSource s source) ts l) (e : l.next = (.ok t, l'))
    (hk : t.kind = .prefixedName) :
    Token.IsNameText .recommendation t.text ↔
      ¬ ((∃ u ∈ ts, u.kind = .keywordDirective) ∧ ∃ word, ':' ∉ word ∧
        t.text = String.ofList (':' :: word) ∧ Name.isLocalText word = false) := by
  obtain ⟨v, hm, hv⟩ := reaches_learnt hs h
  constructor
  · rintro hname ⟨-, word, -, htext, hword⟩
    rw [htext, Token.isNameText_colon_iff, hword] at hname
    cases hname
  · intro hbare
    have h' := origin_of_inner hm e (by rw [hk]; rfl)
    rcases h'.text_of_name hk with hname | ⟨hon, word, hcolon, htext⟩
    · exact hname
    · rw [htext, Token.isNameText_colon_iff, ← Bool.not_eq_false]
      exact fun hword => hbare ⟨hv.on.1 hon, word, hcolon, htext, hword⟩

/-- The tokens of a directive that declares `a`. -/
def declaringA : List Token :=
  [.beginning, ⟨.keywordDirective, "@keywords", ⟨1, 1, 1, 9⟩⟩,
    ⟨.keywordDefinition, "a", ⟨1, 1, 11, 11⟩⟩, ⟨.dot, ".", ⟨1, 1, 12, 12⟩⟩]

/-- A middle dot may continue a name. -/
theorem default_names_middle_dot :
    ∃ l l' t, Reaches (ofSource (.ofFormat .n3) (.ofText "@keywords a. x·y")) declaringA l ∧
      l.next = (.ok t, l') ∧ t.kind = .prefixedName ∧ t.text = ":x·y" ∧
      Token.IsNameText .recommendation t.text := by
  let l := afterCalls 4 (ofSource (.ofFormat .n3) (.ofText "@keywords a. x·y"))
  let t : Token := ⟨.prefixedName, ":x·y", ⟨1, 1, 14, 16⟩⟩
  have h : Reaches _ declaringA l := reaches_afterCalls (by decide +kernel)
  have e : l.next = (.ok t, l.next.2) := next_of_toOption (by decide +kernel)
  refine ⟨l, l.next.2, t, h, e, rfl, rfl, ?_⟩
  refine (default_names (.ofFormat .n3) rfl _ _ _ _ t h e rfl).2 ?_
  rintro ⟨-, word, -, htext, hword⟩
  have htext : String.ofList (':' :: ['x', '·', 'y']) = String.ofList (':' :: word) := htext
  cases String.ofList_injective htext
  exact absurd hword (by decide)

/-- A raised two is gathered into a word, but it stands in no name. -/
theorem default_names_superscript :
    ∃ l l' t, Reaches (ofSource (.ofFormat .n3) (.ofText "@keywords a. m²")) declaringA l ∧
      l.next = (.ok t, l') ∧ t.kind = .prefixedName ∧ t.text = ":m²" ∧
      ¬ Token.IsNameText .recommendation t.text := by
  let l := afterCalls 4 (ofSource (.ofFormat .n3) (.ofText "@keywords a. m²"))
  let t : Token := ⟨.prefixedName, ":m²", ⟨1, 1, 14, 15⟩⟩
  have h : Reaches _ declaringA l := reaches_afterCalls (by decide +kernel)
  have e : l.next = (.ok t, l.next.2) := next_of_toOption (by decide +kernel)
  refine ⟨l, l.next.2, t, h, e, rfl, rfl, fun hname => ?_⟩
  have htext : t.text = String.ofList (':' :: ['m', '²']) := by decide
  rw [htext, Token.isNameText_colon_iff] at hname
  exact absurd hname (by decide)

end Lexer

end TripleLex

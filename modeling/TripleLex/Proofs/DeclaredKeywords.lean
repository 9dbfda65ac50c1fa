import TripleLex.Proofs.Neighbours
import TripleLex.Proofs.ReaderKinds
import TripleLex.Proofs.WholeNames
import TripleLex.Proofs.WholeRuns

/-!
# Declared keywords

What Notation 3 remembers of declared keywords is what its tokens have said
(`Learnt`): the words are the texts of the tokens that declare one, they count from
the first directive on, and a declaration is read behind its own tokens only.

The other way round, the remembered words decide on tokens in three places: in a
declaration, behind an `@`, and where a name turns out to be a bare word. `Origin`
sorts the tokens accordingly; it is shown of a call once, and what holds of the
tokens of a run is read off it.

## Main results

* `Graph.Notation3.origin_read` — where a token comes from.
* `Lexer.reaches_learnt` — what is remembered along a run.
* `Lexer.words_learnt` — the tokens that hang on it.
-/

namespace TripleLex

open Scan

/-- Whether tokens of the kind declare a word, or may hang on the declared ones. -/
def Kind.hangsOnWords : Kind → Bool
  | keywordDefinition | customKeyword | prefixedName => true
  | _ => false

namespace Graph.Notation3

open Token (IsNameText)

variable {v : Vocabulary} {previous : Option Kind} {k mid left : Cursor} {t : Token}

/-! ## Bare words -/

/-- What becomes of a bare word. -/
inductive WordToken (v : Vocabulary) (word : List Char) (t : Token) : Prop
  | truth (kind : t.kind = .plainLiteral)
  | builtIn (off : v.isOn = false) (kind : t.kind = keywordKind word)
      (known : keywordKind word ≠ .customKeyword)
  | keyword (on : v.isOn = true) (declared : v.declares word = true)
      (kind : t.kind = keywordKind word) (text : t.text = String.ofList word)
  | name (on : v.isOn = true) (declared : v.declares word = false)
      (kind : t.kind = .prefixedName) (text : t.text = String.ofList (':' :: word))

theorem wordToken_of_bareWord (e : bareWord v k.value k = .ok t left) : WordToken v k.value t := by
  unfold bareWord at e
  split at e
  · exact .truth (emit_ok e).1
  · split at e
    · rename_i hon
      split at e
      · rename_i hdeclared
        obtain ⟨hkind, htext, -⟩ := emit_ok e
        exact .keyword hon hdeclared hkind htext
      · rename_i hdeclared
        obtain ⟨hkind, htext, -⟩ := emitAs_ok e
        exact .name hon (Bool.eq_false_iff.2 hdeclared) hkind htext
    · rename_i hoff
      split at e
      · cases e
      · rename_i hknown
        exact .builtIn (Bool.eq_false_iff.2 hoff) (emit_ok e).1 (by simpa using hknown)

/-- Only a name without a colon is left to the caller, and nothing was done then. -/
theorem nameToken?_none {rule : Name.Rule} (e : nameToken? rule k = .ok none left) :
    ':' ∉ k.value ∧ left = k := by
  have e := get_bind_ok e
  split at e
  · rename_i hcolon
    cases e
    exact ⟨by simpa using hcolon, rfl⟩
  · split at e
    · obtain ⟨_, _, -, e⟩ := bind_ok e
      cases e
    · split at e
      · split at e
        · obtain ⟨_, _, -, e⟩ := bind_ok e
          cases e
        · cases e
      · split at e
        · obtain ⟨_, _, -, e⟩ := bind_ok e
          cases e
        · cases e

/-! ## Words behind an `@` -/

/-- Behind an `@` the letters that follow are the word. -/
theorem directiveWord_takes {cs word : List Char} (hb : k.Begun) (hk : k.ahead = '@' :: cs)
    (e : directiveWord k = .ok word left) :
    word = '@' :: cs.takeWhile Unicode.isAlphabetic ∧ left.value = word := by
  obtain ⟨_, k₁, e₁, e⟩ := bind_ok e
  obtain ⟨-, r₁⟩ := consume_ok (by rw [hk]; rfl) (by decide) e₁
  obtain ⟨_, k₂, e₂, e⟩ := bind_ok e
  have r₂ := consumeWhile_ok (fun c h => not_isLineEnd_of_isAlphabetic h) e₂
  have hvalue := (r₁.trans r₂).value hb
  rw [r₁.rest_eq hk] at hvalue
  have e := get_bind_ok e
  split at e
  · obtain ⟨_, _, -, e⟩ := bind_ok e
    cases e
  · cases e
    exact ⟨hvalue, rfl⟩

theorem directive_ok {cs : List Char} (hb : k.Begun) (hk : k.ahead = '@' :: cs)
    (e : directive v k = .ok t left) :
    directiveKind? v (cs.takeWhile Unicode.isAlphabetic) = some t.kind ∧
      t.text = String.ofList ('@' :: cs.takeWhile Unicode.isAlphabetic) := by
  obtain ⟨word, mid, e₁, e⟩ := bind_ok e
  obtain ⟨rfl, hvalue⟩ := directiveWord_takes hb hk e₁
  rw [List.tail_cons] at e
  cases hkind : directiveKind? v (cs.takeWhile Unicode.isAlphabetic) with
  | none =>
    rw [hkind] at e
    cases e
  | some kind =>
    rw [hkind] at e
    obtain ⟨ht, htext, -⟩ := emit_ok e
    refine ⟨by rw [ht], htext.trans ?_⟩
    rw [Cursor.text, hvalue]

/-- A word behind an `@` that is none of the language's own has been declared. -/
theorem declares_of_directiveKind? {name : List Char}
    (h : directiveKind? v name = some .customKeyword) : v.declares name = true := by
  unfold directiveKind? at h
  split at h
  case h_9 =>
    split at h
    · assumption
    · cases h
  all_goals cases h

/-! ## Where tokens come from -/

/-- Where a token comes from, as far as it hangs on declared words. -/
inductive Origin (v : Vocabulary) (t : Token) : Prop
  | declaration (reading : v.isReading = true)
      (kind : t.kind = .dot ∨ t.kind = .keywordDefinition)
  | unrelated (reading : v.isReading = false) (kind : t.kind.hangsOnWords = false)
  | behindAt (reading : v.isReading = false) (name : List Char)
      (kind : directiveKind? v name = some t.kind) (text : t.text = String.ofList ('@' :: name))
  | judged (reading : v.isReading = false) (kind : t.kind ≠ .keywordDefinition)
      (custom : t.kind ≠ .customKeyword)
      (text : t.kind = .prefixedName → IsNameText .recommendation t.text)
  | bare (reading : v.isReading = false) (word : List Char) (colon : ':' ∉ word)
      (h : WordToken v word t)

/-- Readers of other kinds. -/
theorem origin_of_kinds {kinds : List Kind} {m : Scan Token} (hv : v.isReading = false)
    (h : Makes (OfKind kinds) k m) (hk : ∀ kind ∈ kinds, kind.hangsOnWords = false) :
    Makes (Origin v) k m :=
  (h.ofKind hk).mono fun _ ht => .unrelated hv ht

theorem kinds_referenceOrArrow : Makes (OfKind [.impliedBy, .uri]) k referenceOrArrow := by
  refine makes_bind fun _ _ => makes_bind fun _ _ => ?_
  split
  · refine makes_bind fun _ _ => makes_bind fun _ _ => ?_
    split
    · exact kinds_emitAs (by decide)
    · exact makes_violation _
  · exact makes_bind fun _ _ => kinds_emit (by decide)

theorem kinds_equals : Makes (OfKind [.implies, .equals]) k equals := by
  refine makes_bind fun _ _ => makes_bind fun _ _ => ?_
  split
  · exact makes_bind fun _ _ => kinds_emit (by decide)
  · exact kinds_emit (by decide)

theorem kinds_hat : Makes (OfKind [.hatHat, .hat]) k (hat previous) := by
  unfold hat
  split
  · exact kinds_hatHat.mono fun _ ht => List.mem_append_left [Kind.hat] ht
  · refine makes_bind fun _ _ => makes_bind fun _ _ => ?_
    split
    · exact makes_violation _
    · exact kinds_emit (by decide)

theorem origin_directive {cs : List Char} (hv : v.isReading = false) (hb : k.Begun)
    (hk : k.ahead = '@' :: cs) : Makes (Origin v) k (directive v) := by
  intro t left e
  obtain ⟨hkind, htext⟩ := directive_ok hb hk e
  exact .behindAt hv _ hkind htext

theorem origin_name (hv : v.isReading = false) : Makes (Origin v) k (name v) := by
  intro t left e
  obtain ⟨_, k₁, -, e⟩ := bind_ok e
  obtain ⟨o, k₂, e₁, e⟩ := bind_ok e
  cases o with
  | some token =>
    have hname : NameToken grammar token := makes_nameToken? (g := grammar) _ _ e₁ token rfl
    have hkind := kinds_nameToken? _ _ e₁ token rfl
    cases e
    refine .judged hv ?_ ?_ fun hp => ?_
    · rintro hk
      rw [OfKind, hk] at hkind
      exact absurd hkind (by decide)
    · rintro hk
      rw [OfKind, hk] at hkind
      exact absurd hkind (by decide)
    · have hwell := hname.wellFormed
      unfold Token.WellFormed at hwell
      rw [hp] at hwell
      exact hwell
  | none =>
    -- without a colon nothing was judged: the word is all that was gathered
    obtain ⟨hcolon, hk⟩ := nameToken?_none e₁
    have e : bareWord v k₂.value k₂ = .ok t left := get_bind_ok e
    rw [← hk] at hcolon
    exact .bare hv k₂.value hcolon (wordToken_of_bareWord e)

theorem origin_dispatch {c : Char} (hv : v.isReading = false) (hb : k.Begun)
    (hc : k.ahead.head? = some c) : Makes (Origin v) k (dispatch v previous c) := by
  unfold dispatch
  split
  · exact origin_of_kinds hv kinds_comment (by decide)
  · exact origin_of_kinds hv kinds_referenceOrArrow (by decide)
  · exact origin_of_kinds hv kinds_literal (by decide)
  · exact origin_of_kinds hv kinds_literal (by decide)
  · split
    · exact origin_of_kinds hv kinds_languageTag (by decide)
    · obtain ⟨cs, hk⟩ := List.head?_eq_some_iff.1 hc
      exact origin_directive hv hb hk
  · exact origin_of_kinds hv kinds_hat (by decide)
  · exact origin_of_kinds hv kinds_equals (by decide)
  · exact origin_of_kinds hv kinds_single (by decide)
  · exact origin_of_kinds hv (makes_bind fun _ _ => kinds_variableToken) (by decide)
  · exact origin_of_kinds hv (kinds_dotOrNumber fun _ => kinds_number) (by decide)
  · exact origin_of_kinds hv kinds_single (by decide)
  · exact origin_of_kinds hv kinds_single (by decide)
  · exact origin_of_kinds hv kinds_single (by decide)
  · exact origin_of_kinds hv kinds_single (by decide)
  · exact origin_of_kinds hv kinds_single (by decide)
  · exact origin_of_kinds hv kinds_single (by decide)
  · exact origin_of_kinds hv kinds_single (by decide)
  · exact origin_of_kinds hv kinds_single (by decide)
  · exact origin_of_kinds hv kinds_number (by decide)
  · exact origin_of_kinds hv kinds_number (by decide)
  · exact origin_name hv
  · exact origin_name hv
  · exact origin_name hv
  · split
    · exact origin_of_kinds hv kinds_number (by decide)
    · split
      · exact origin_name hv
      · exact makes_unexpectedCharacter _ _

/-- Every token has an origin. -/
theorem origin_read : Makes (Origin v) k (read v previous) := by
  unfold read
  split
  · rename_i hv
    exact makes_declaration.mono fun _ ht => .declaration hv ht
  · rename_i hv
    have hv : v.isReading = false := Bool.eq_false_iff.2 hv
    split
    · exact origin_of_kinds hv kinds_prefixName (by decide)
    · exact origin_of_kinds hv kinds_datatype (by decide)
    · intro t left e
      have hfinds : Finds (fun _ _ t _ => Origin v t) Unicode.isBlank k
          (do discardBlank; tokenHere (dispatch v previous)) :=
        finds_blankThen fun c k' hb hc t left e => ⟨[], origin_dispatch hv hb hc t left e⟩
      obtain ⟨_, -, h | ⟨-, h⟩⟩ := hfinds t left e
      · rw [h.token]
        exact .unrelated hv rfl
      · exact h

/-! ### What an origin says of a token -/

theorem WordToken.kind_mem {word : List Char} (h : WordToken v word t) :
    t.kind ∈ .plainLiteral :: .prefixedName :: wordKinds := by
  cases h with
  | truth kind => simp [kind]
  | builtIn _ kind _ => simp [kind, keywordKind_mem word]
  | keyword _ _ kind _ => simp [kind, keywordKind_mem word]
  | name _ _ kind _ => simp [kind]

/-- Words are declared in declarations only. -/
theorem Origin.reading_of_definition (h : Origin v t) (hk : t.kind = .keywordDefinition) :
    v.isReading = true := by
  cases h with
  | declaration reading _ => exact reading
  | unrelated _ kind =>
    rw [hk] at kind
    cases kind
  | behindAt _ name kind _ =>
    rw [hk] at kind
    exact absurd (mem_of_directiveKind? kind) (by decide)
  | judged _ kind _ _ => exact absurd hk kind
  | bare _ word _ h =>
    have hmem := h.kind_mem
    rw [hk] at hmem
    exact absurd hmem (by decide)

theorem Origin.kind_of_reading (h : Origin v t) (hv : v.isReading = true) :
    t.kind = .dot ∨ t.kind = .keywordDefinition := by
  cases h with
  | declaration _ kind => exact kind
  | unrelated reading => exact absurd hv (Bool.eq_false_iff.1 reading)
  | behindAt reading => exact absurd hv (Bool.eq_false_iff.1 reading)
  | judged reading => exact absurd hv (Bool.eq_false_iff.1 reading)
  | bare reading => exact absurd hv (Bool.eq_false_iff.1 reading)

/-- A keyword that is not the language's own has been declared. -/
theorem Origin.declared_of_custom (h : Origin v t) (hk : t.kind = .customKeyword) :
    ∃ word, v.declares word = true ∧
      (t.text = String.ofList word ∨ t.text = String.ofList ('@' :: word)) := by
  cases h with
  | declaration _ kind => rcases kind with kind | kind <;> rw [hk] at kind <;> cases kind
  | unrelated _ kind =>
    rw [hk] at kind
    cases kind
  | behindAt _ name kind text =>
    rw [hk] at kind
    exact ⟨name, declares_of_directiveKind? kind, Or.inr text⟩
  | judged _ _ custom _ => exact absurd hk custom
  | bare _ word _ h =>
    cases h with
    | truth kind =>
      rw [hk] at kind
      cases kind
    | builtIn _ kind known => exact absurd (kind.symm.trans hk) known
    | keyword _ declared _ text => exact ⟨word, declared, Or.inl text⟩
    | name _ _ kind _ =>
      rw [hk] at kind
      cases kind

/-! ## The name that comes next -/

/-- Whether a name begins with the character. -/
def beginsName (c : Char) : Bool := c == '_' || c == ':' || c == '\\' || Name.opensName c

/-- The name that stands next, once blank characters are passed over. -/
def nextName? : Scan (Option (List Char)) := do
  discardBlank
  match ← look with
  | none => return none
  | some c =>
    if beginsName c then
      gatherName .recommendation true
      return some (← get).value
    else
      return none

/-- The name that stands behind the token before. -/
def nameAhead? (k : Cursor) : Option (List Char) :=
  match nextName? k.fresh with
  | .ok word _ => word
  | .error _ _ => none

theorem not_isDigit_of_opensName {c : Char} (h : Name.opensName c = true) :
    c.isDigit = false := by
  rw [Name.opensName, Bool.or_eq_true] at h
  rcases h with h | h
  · rw [Bool.eq_false_iff]
    intro hd
    simp only [Char.isDigit, Bool.and_eq_true, decide_eq_true_eq, UInt32.le_iff_toNat_le] at hd
    have h9 : c.toNat ≤ 57 := hd.2
    rw [Unicode.isAlphabetic_ascii (by omega)] at h
    have h65 : 65 ≤ c.toNat := by
      have hletter : (decide ('A'.val ≤ c.val ∧ c.val ≤ 'Z'.val) ||
          (decide ('a'.val ≤ c.val) && decide (c.val ≤ 'z'.val))) = true := h
      simp only [Bool.or_eq_true, Bool.and_eq_true, decide_eq_true_eq,
        UInt32.le_iff_toNat_le] at hletter
      rcases hletter with h | h
      · exact h.1
      · exact Nat.le_trans (by decide) h.1
    omega
  · exact Name.not_isDigit_of_isBase h

theorem dispatch_of_beginsName {c : Char} (h : beginsName c = true) :
    dispatch v previous c = name v := by
  rw [beginsName, Bool.or_eq_true, Bool.or_eq_true, Bool.or_eq_true, beq_iff_eq, beq_iff_eq,
    beq_iff_eq] at h
  rcases h with ((rfl | rfl) | rfl) | hopens
  · rfl
  · rfl
  · rfl
  · have hne : ∀ d : Char, d.toNat < 0x80 → (d.isAlpha || Name.isBase d) = false → c ≠ d := by
      rintro d hd hd' rfl
      rw [Name.opensName, Unicode.isAlphabetic_ascii hd, hd'] at hopens
      cases hopens
    unfold dispatch
    split
    case h_24 =>
      rw [not_isDigit_of_opensName hopens, hopens]
      rfl
    all_goals exact absurd rfl (hne _ (by decide) (by decide))

theorem dispatch_of_isDigit {c : Char} (h : c.isDigit = true) : dispatch v previous c = number := by
  unfold dispatch
  split <;> first
    | exact absurd h (by decide)
    | exact if_pos h

theorem nameToken?_of_bare {rule : Name.Rule} (h : ':' ∉ k.value) :
    nameToken? rule k = .ok none k := by
  unfold nameToken?
  rw [get_bind, if_pos (by simpa using h)]
  rfl

/-- A bare word that stands next is what the call makes its token of. -/
theorem read_of_nextName? {kind : Kind} {word : List Char} (e : nextName? k = .ok (some word) left)
    (hv : v.isReading = false) (hhat : kind ≠ .hatHat) (hdirective : kind ≠ .prefixDirective)
    (hcolon : ':' ∉ word) :
    read v (some kind) k = bareWord v word left ∧ left.value = word := by
  obtain ⟨_, k₁, e₁, e⟩ := bind_ok e
  obtain ⟨o, k₂, e₂, e⟩ := bind_ok e
  cases o with
  | none => cases e
  | some c =>
    dsimp only at e
    split at e
    · rename_i hc
      obtain ⟨_, k₃, e₃, e⟩ := bind_ok e
      cases e
      refine ⟨?_, rfl⟩
      rw [read_eq hv hhat hdirective, bind_eq e₁, tokenHere, bind_eq e₂]
      show dispatch v (some kind) c k₂ = _
      rw [dispatch_of_beginsName hc, name, bind_eq e₃, bind_eq (nameToken?_of_bare hcolon)]
      rfl
    · cases e

/-- A name stands before the end only. -/
theorem ahead_of_nextName? {word : List Char} (e : nextName? k = .ok (some word) left) :
    k.ahead ≠ [] := by
  intro hk
  obtain ⟨_, k₁, e₁, e⟩ := bind_ok e
  have hp := (discardBlank_ok e₁).1.ahead
  rw [hk, List.takeWhile_nil, List.nil_append] at hp
  rcases look_bind_ok e with ⟨_, _, -, e⟩ | ⟨c, _, r, hc, -⟩
  · cases e
  · rw [r.ahead_eq, ← hp] at hc
    cases hc

/-- Where keywords have been declared, a bare word is one of them or a name. -/
theorem bareWord_total (hv : v.isOn = true) (htruth : Number.isTruth k.value = false) :
    ∃ t left, bareWord v k.value k = .ok t left ∧
      (v.declares k.value = true → IsKeyword k.value t.kind ∧ t.text = k.text) ∧
      (v.declares k.value = false →
        t.kind = .prefixedName ∧ t.text = String.ofList (':' :: k.value)) := by
  unfold bareWord
  rw [if_neg (by rw [htruth]; decide), if_pos hv]
  by_cases hd : v.declares k.value = true
  · rw [if_pos hd]
    exact ⟨_, _, rfl, fun _ => ⟨isKeyword_keywordKind _, rfl⟩,
      fun h => absurd hd (Bool.eq_false_iff.1 h)⟩
  · rw [if_neg hd]
    exact ⟨_, _, rfl, fun h => absurd h hd, fun _ => ⟨rfl, rfl⟩⟩

end Graph.Notation3

/-! ## Runs -/

namespace Lexer

open Input (Source)
open TripleLex.Graph (Vocabulary)

/-- The word is the text of a token that declares it. -/
def Declared (ts : List Token) (word : String) : Prop :=
  ∃ t ∈ ts, t.kind = .keywordDefinition ∧ t.text = word

instance (ts : List Token) (word : String) : Decidable (Declared ts word) :=
  inferInstanceAs (Decidable (∃ t ∈ ts, t.kind = .keywordDefinition ∧ t.text = word))

/-- What is remembered of declared keywords is what the tokens so far have
said. -/
structure Learnt (ts : List Token) (v : Vocabulary) : Prop where
  words : ∀ word, word ∈ v.words ↔ Declared ts word
  on : v.isOn = true ↔ ∃ t ∈ ts, t.kind = .keywordDirective
  reading : v.isReading = true ↔
    lastKind ts = some .keywordDirective ∨ lastKind ts = some .keywordDefinition

theorem learnt_nil : Learnt [] .empty :=
  ⟨fun _ => ⟨nofun, nofun⟩, ⟨nofun, nofun⟩, ⟨nofun, nofun⟩⟩

theorem declared_append {ts : List Token} {t : Token} {word : String} :
    Declared (ts ++ [t]) word ↔
      (t.kind = .keywordDefinition ∧ word = t.text) ∨ Declared ts word := by
  constructor
  · rintro ⟨u, hu, hk, rfl⟩
    rcases List.mem_append.1 hu with hu | hu
    · exact Or.inr ⟨u, hu, hk, rfl⟩
    · rw [List.mem_singleton.1 hu] at hk ⊢
      exact Or.inl ⟨hk, rfl⟩
  · rintro (⟨hk, rfl⟩ | ⟨u, hu, hk, rfl⟩)
    · exact ⟨t, by simp, hk, rfl⟩
    · exact ⟨u, List.mem_append_left _ hu, hk, rfl⟩

theorem Learnt.declares {ts : List Token} {v : Vocabulary} (h : Learnt ts v) {word : List Char} :
    v.declares word = true ↔ Declared ts (String.ofList word) := by
  rw [Vocabulary.declares, List.contains_iff_mem, h.words]

/-- A token that suits the vocabulary is learnt. -/
theorem Learnt.next {ts : List Token} {v : Vocabulary} {t : Token} (h : Learnt ts v)
    (hown : v.isReading = true → t.kind = .dot ∨ t.kind = .keywordDefinition)
    (hdefinition : t.kind = .keywordDefinition → v.isReading = true) :
    Learnt (ts ++ [t]) (v.after t) := by
  refine ⟨fun word => ?_, ?_, ?_⟩
  · rw [Vocabulary.mem_words_after, h.words, declared_append]
  · rw [Vocabulary.isOn_after, h.on]
    simp [or_comm, or_and_right, exists_or]
  -- a declaration goes on up to its dot, and its words stand nowhere else
  · rw [Vocabulary.isReading_after, lastKind_append]
    simp only [Option.some.injEq]
    constructor
    · rintro (hk | ⟨hk, hv⟩)
      · exact Or.inl hk
      · exact Or.inr ((hown hv).resolve_left hk)
    · rintro (hk | hk)
      · exact Or.inl hk
      · exact Or.inr ⟨by rw [hk]; decide, hdefinition hk⟩

/-- What a call of a lexer of Notation 3 yields has an origin, unless it is one of
the two marks around all text. -/
theorem origin_next {v : Vocabulary} {l l' : Lexer} {t : Token} (hm : l.machine = .n3 v)
    (e : l.next = (.ok t, l')) :
    ((l.cursor.previous = none ∨ l.cursor.previous = some .ending) ∧ t.kind.isMark = true) ∨
      Graph.Notation3.Origin v t := by
  rcases step_cases (next_ok e).1 with ⟨hp, rfl, -⟩ | ⟨hp, rfl, -⟩ | ⟨-, -, e⟩
  · exact Or.inl ⟨Or.inl hp, rfl⟩
  · exact Or.inl ⟨Or.inr hp, rfl⟩
  · rw [hm] at e
    exact Or.inr (Graph.Notation3.origin_read t _ e)

theorem origin_of_inner {v : Vocabulary} {l l' : Lexer} {t : Token} (hm : l.machine = .n3 v)
    (e : l.next = (.ok t, l')) (hk : t.kind.isMark = false) : Graph.Notation3.Origin v t :=
  (origin_next hm e).resolve_left fun h => Bool.eq_false_iff.1 hk h.2

/-- A call keeps what is remembered true to the tokens. -/
theorem Learnt.call {ts : List Token} {v : Vocabulary} {l l' : Lexer} {t : Token}
    (h : Learnt ts v) (hr : Remembers ts l) (hm : l.machine = .n3 v)
    (e : l.next = (.ok t, l')) : Learnt (ts ++ [t]) (v.after t) := by
  rcases origin_next hm e with ⟨hp, hmark⟩ | h'
  · have hreading : v.isReading ≠ true := by
      rw [Ne, h.reading, ← hr.previous]
      rcases hp with hp | hp <;> rw [hp] <;> decide
    refine h.next (fun hv => absurd hv hreading) fun hk => ?_
    rw [hk] at hmark
    cases hmark
  · exact h.next h'.kind_of_reading h'.reading_of_definition

theorem reaches_learnt {s : Settings} (hs : s.format = .n3) {source : Source} {ts : List Token}
    {l : Lexer} (h : Reaches (ofSource s source) ts l) :
    ∃ v, l.machine = .n3 v ∧ Learnt ts v := by
  induction h with
  | start => exact ⟨.empty, by rw [ofSource, Machine.ofSettings, hs], learnt_nil⟩
  | next h e ih =>
    obtain ⟨v, hm, hv⟩ := ih
    refine ⟨v.after _, ?_, hv.call (reaches_remembers h).1 hm e⟩
    rw [(next_ok e).2, hm]
    rfl

/-- The kinds behind which a name is not read as one: a declaration, a prefix or
a datatype is due. -/
def otherwiseDue : List Kind := [.keywordDirective, .keywordDefinition, .prefixDirective, .hatHat]

theorem ne_of_not_due {kind : Kind} (h : kind ∉ otherwiseDue) :
    kind ≠ .hatHat ∧ kind ≠ .prefixDirective := by
  constructor <;> rintro rfl <;> exact h (by decide)

theorem Learnt.not_reading {ts : List Token} {v : Vocabulary} {kind : Kind} (h : Learnt ts v)
    (hkind : lastKind ts = some kind) (hdue : kind ∉ otherwiseDue) : v.isReading = false := by
  rw [Bool.eq_false_iff]
  intro hv
  rw [h.reading, hkind, Option.some.injEq, Option.some.injEq] at hv
  rcases hv with rfl | rfl <;> exact hdue (by decide)

/-- From the first directive on, a bare word that comes next is a keyword if it
was declared, and otherwise a name in the default namespace. -/
theorem Learnt.bareWord_next {ts : List Token} {v : Vocabulary} {l : Lexer} {kind : Kind}
    {word : List Char} (h : Learnt ts v) (hr : Remembers ts l) (hm : l.machine = .n3 v)
    (hon : v.isOn = true) (hkind : lastKind ts = some kind) (hdue : kind ∉ otherwiseDue)
    (hword : Graph.Notation3.nameAhead? l.cursor = some word) (hcolon : ':' ∉ word)
    (htruth : Number.isTruth word = false) :
    ∃ t l', l.next = (.ok t, l') ∧
      (Declared ts (String.ofList word) →
        Graph.Notation3.IsKeyword word t.kind ∧ t.text = String.ofList word) ∧
      (¬ Declared ts (String.ofList word) →
        t.kind = .prefixedName ∧ t.text = String.ofList (':' :: word)) := by
  unfold Graph.Notation3.nameAhead? at hword
  split at hword
  · rename_i left e
    subst hword
    have hending : kind ≠ .ending := by
      rintro rfl
      exact Graph.Notation3.ahead_of_nextName? e (hr.ended (hr.previous.trans hkind))
    obtain ⟨hhat, hdirective⟩ := ne_of_not_due hdue
    obtain ⟨hread, hvalue⟩ := Graph.Notation3.read_of_nextName? e (h.not_reading hkind hdue) hhat
      hdirective hcolon
    rw [← hvalue] at htruth hread ⊢
    obtain ⟨t, after, e', hdeclared, hfree⟩ := Graph.Notation3.bareWord_total hon htruth
    have hnext : l.machine.read (some kind) l.cursor.fresh = .ok t after := by
      rw [hm]
      exact hread.trans e'
    refine ⟨t, _, next_of_read (hr.previous.trans hkind) hending hnext, fun hd => ?_,
      fun hd => ?_⟩
    · exact hdeclared (h.declares.2 hd)
    · exact hfree (Bool.eq_false_iff.2 fun hv => hd (h.declares.1 hv))
  · cases hword

/-- Along a run over a text of Notation 3, what is remembered of declared keywords
is what its tokens have said, and what hangs on it comes next accordingly: a
keyword that is not the language's own was declared, and from the first directive
on, a bare word that is no truth value is a keyword if it was declared, of the kind
that such a word has, and otherwise a name in the default namespace. -/
theorem words_learnt (s : Settings) (hs : s.format = .n3) (source : Source) (ts : List Token)
    (l : Lexer) (h : Reaches (ofSource s source) ts l) :
    ∃ v, l.machine = .n3 v ∧ Learnt ts v ∧
      (∀ t l', l.next = (.ok t, l') → t.kind = .customKeyword →
        ∃ word, Declared ts word ∧ (t.text = word ∨ t.text = "@" ++ word)) ∧
      (∀ kind word, v.isOn = true → lastKind ts = some kind → kind ∉ otherwiseDue →
        Graph.Notation3.nameAhead? l.cursor = some word → ':' ∉ word →
        Number.isTruth word = false →
        ∃ t l', l.next = (.ok t, l') ∧
          (Declared ts (String.ofList word) →
            Graph.Notation3.IsKeyword word t.kind ∧ t.text = String.ofList word) ∧
          (¬ Declared ts (String.ofList word) →
            t.kind = .prefixedName ∧ t.text = String.ofList (':' :: word))) := by
  obtain ⟨v, hm, hv⟩ := reaches_learnt hs h
  have hr := (reaches_remembers h).1
  refine ⟨v, hm, hv, fun t l' e hk => ?_, fun kind word hon hkind hdue hword hcolon htruth =>
    hv.bareWord_next hr hm hon hkind hdue hword hcolon htruth⟩
  have h' := origin_of_inner hm e (by rw [hk]; rfl)
  obtain ⟨word, hword, htext⟩ := h'.declared_of_custom hk
  refine ⟨String.ofList word, hv.declares.1 hword, htext.imp_right fun htext => ?_⟩
  rw [htext, ← String.ofList_append]
  rfl

/-- Behind a declaration, a word that was not declared and one that was. -/
theorem words_learnt_behind_declaration :
    let s : Settings := .ofFormat .n3
    let source : Source := .ofText "@keywords likes. bob likes"
    let declaration : List Token := [.beginning, ⟨.keywordDirective, "@keywords", ⟨1, 1, 1, 9⟩⟩,
      ⟨.keywordDefinition, "likes", ⟨1, 1, 11, 15⟩⟩, ⟨.dot, ".", ⟨1, 1, 16, 16⟩⟩]
    let bob : Token := ⟨.prefixedName, ":bob", ⟨1, 1, 18, 20⟩⟩
    ∃ l l' l'' v v' t, Reaches (ofSource s source) declaration l ∧
      Reaches (ofSource s source) (declaration ++ [bob]) l' ∧ l.next = (.ok bob, l') ∧
      l'.next = (.ok t, l'') ∧ l.machine = .n3 v ∧ l'.machine = .n3 v' ∧
      Learnt declaration v ∧ Learnt (declaration ++ [bob]) v' ∧
      bob.kind = .prefixedName ∧ t.kind = .customKeyword ∧ t.text = "likes" := by
  intro s source declaration bob
  let l := afterCalls 4 (ofSource s source)
  have h : Reaches (ofSource s source) declaration l := reaches_afterCalls (by decide +kernel)
  have e : l.next = (.ok bob, l.next.2) := next_of_toOption (by decide +kernel)
  obtain ⟨v, hm, hv, -, hnames⟩ := words_learnt s rfl source _ _ h
  obtain ⟨v', hm', hv', -, hnames'⟩ := words_learnt s rfl source _ _ (h.next e)
  obtain ⟨u, _, e', -, hfree⟩ := hnames .dot "bob".toList (hv.on.2 (by decide)) rfl (by decide)
    (by decide +kernel) (by decide) (by decide)
  obtain ⟨t, l', e'', hdeclared, -⟩ := hnames' .prefixedName "likes".toList
    (hv'.on.2 (by decide)) rfl (by decide) (by decide +kernel) (by decide) (by decide)
  rw [e] at e'
  cases e'
  have ht := hdeclared (by decide +kernel)
  have hkind : t.kind = .customKeyword := (Graph.Notation3.isKeyword_iff.1 ht.1).symm
  exact ⟨l, l.next.2, l', v, v', t, h, h.next e, e, e'', hm, hm', hv, hv',
    (hfree (by decide +kernel)).1, hkind, ht.2⟩

end Lexer

end TripleLex

import TripleLex.Number.Scan
import TripleLex.Proofs.Lexemes
import TripleLex.Quoted.Annotation
import TripleLex.Quoted.Literal

/-!
# What tokens are made

Two things hold of every token, whatever was read before the machine came to it.
Its kind suits the kind of the token before it (`Kind.Follows`): annotations
stand behind quoted literals, a datatype behind its sign and a prefix behind its
directive, and a star is read by what it follows. And its text is one that the
grammar of its kind derives (`Token.WellFormed`), since a scanner that gathers
more than the grammar allows judges what it has gathered before it makes the
token. Both are asked by few kinds (`Kind.isOrdinary`, `Kind.isUnjudged`).

`Makes P k m` says that whatever the scan makes at `k` satisfies `P`; the scans
before the last one do not matter to it, except for the text that they leave.

## Main results

* `Token.Sound.of_ordinary` — what has to be shown of most tokens.
* `sound_nameToken?`, `sound_languageTag`, `sound_number`, `sound_datatype`,
  `sound_prefixName` — the readers that languages share.
-/

namespace TripleLex

/-! ## What kinds ask for -/

namespace Kind

/-- A star behind one of these kinds stands for all columns. -/
def IsProjection (previous : Option Kind) : Prop :=
  previous = some (.keyword .select) ∨ previous = some (.keyword .distinct) ∨
    previous = some (.keyword .reduced)

/-- What a kind asks of the kind of the token before. -/
structure Follows (previous : Option Kind) (kind : Kind) : Prop where
  annotates : kind = .languageTag ∨ kind = .hatHat →
    previous = some .literal ∨ previous = some .longLiteral
  typed : kind = .datatype ↔ previous = some .hatHat
  announced : kind = .prefixName ↔ previous = some .prefixDirective
  projects : kind = .allColumns → IsProjection previous
  multiplies : kind = .multiply → ¬ IsProjection previous

/-- Whether tokens of the kind may stand behind any token, but for the two that
say what comes next. -/
def isUnattached : Kind → Bool
  | languageTag | hatHat | datatype | prefixName | allColumns | multiply => false
  | _ => true

/-- Whether the kind also leaves open what comes next, as far as no quoted literal
does. -/
def isOrdinary (kind : Kind) : Bool := kind.isUnattached && kind != prefixDirective

/-- Whether the grammar derives any text for a token of the kind. -/
def isUnjudged : Kind → Bool
  | prefixedName | datatype | blankNode | queryVariable | languageTag | prefixName | plainLiteral =>
    false
  | _ => true

/-- The token before does not say what comes next. -/
structure Open (previous : Option Kind) : Prop where
  untyped : previous ≠ some .hatHat
  unannounced : previous ≠ some .prefixDirective

theorem isOrdinary_iff {kind : Kind} :
    kind.isOrdinary = true ↔ kind.isUnattached = true ∧ kind ≠ .prefixDirective := by
  rw [isOrdinary, Bool.and_eq_true, bne_iff_ne]

theorem Follows.of_unattached {previous : Option Kind} {kind : Kind}
    (ho : Open previous) (h : kind.isUnattached = true) : Follows previous kind where
  annotates := by
    rintro (rfl | rfl)
    · cases h
    · cases h
  typed := by
    refine ⟨?_, fun hp => absurd hp ho.untyped⟩
    rintro rfl
    cases h
  announced := by
    refine ⟨?_, fun hp => absurd hp ho.unannounced⟩
    rintro rfl
    cases h
  projects := by
    rintro rfl
    cases h
  multiplies := by
    rintro rfl
    cases h

/-- An annotation behind a quoted literal. -/
theorem Follows.of_quoted {previous : Option Kind} {kind : Kind}
    (hk : kind = .languageTag ∨ kind = .hatHat)
    (hp : previous.any Kind.isQuoted = true) : Follows previous kind := by
  have hquoted : previous = some .literal ∨ previous = some .longLiteral := by
    cases previous with
    | none => cases hp
    | some before => cases before <;> simp_all [Kind.isQuoted]
  refine ⟨fun _ => hquoted, ?_, ?_, ?_, ?_⟩ <;>
    rcases hk with rfl | rfl <;> rcases hquoted with rfl | rfl <;> simp

theorem follows_datatype : Follows (some .hatHat) .datatype := by
  refine ⟨?_, ?_, ?_, ?_, ?_⟩ <;> simp

theorem follows_prefixName : Follows (some .prefixDirective) .prefixName := by
  refine ⟨?_, ?_, ?_, ?_, ?_⟩ <;> simp

end Kind

/-- What the grammar of a language leaves to its level or dialect. -/
structure Grammar where
  /-- What local names may hold. -/
  names : Name.Rule
  /-- Whether digits that end in a dot are a number. -/
  finalDot : Bool
  /-- Whether prefixes are declared. -/
  hasPrefixes : Bool
  deriving DecidableEq, Repr

namespace Token

/-- The text of a prefixed name as it is kept under a rule. -/
def IsNameText (rule : Name.Rule) (text : String) : Prop :=
  ∃ word, Name.isPrefixedName rule word = true ∧ text = Scan.nameText rule word

/-- The text is one that the grammar derives for the kind. -/
def WellFormed (g : Grammar) (t : Token) : Prop :=
  match t.kind with
  | .prefixedName => IsNameText g.names t.text
  | .datatype => (∃ reference, t.text = "<" ++ reference ++ ">") ∨ IsNameText g.names t.text
  | .blankNode => Name.isBlankNode t.text.toList = true
  | .queryVariable => Name.isVariable t.text.toList = true
  | .languageTag => Name.isLanguageTag t.text.toList = true
  | .prefixName => Name.isPrefix t.text.toList = true
  | .plainLiteral =>
    Number.isTruth t.text.toList = true ∨ Number.isNumber g.finalDot t.text.toList = true
  | _ => True

/-- The token suits the one before, its text is derived by the grammar, and it
declares a prefix only if the language does. -/
structure Sound (g : Grammar) (previous : Option Kind) (t : Token) : Prop where
  follows : Kind.Follows previous t.kind
  wellFormed : t.WellFormed g
  declares : t.kind = .prefixDirective → g.hasPrefixes = true

variable {g : Grammar} {previous : Option Kind} {t : Token}

theorem wellFormed_of_unjudged (h : t.kind.isUnjudged = true) : t.WellFormed g := by
  unfold WellFormed
  split <;> simp_all [Kind.isUnjudged]

theorem Sound.of_ordinary (ho : Kind.Open previous) (hk : t.kind.isOrdinary = true)
    (hw : t.WellFormed g) : t.Sound g previous := by
  rw [Kind.isOrdinary_iff] at hk
  exact ⟨.of_unattached ho hk.1, hw, fun hd => absurd hd hk.2⟩

end Token

theorem Cursor.toList_text (k : Cursor) : k.text.toList = k.value :=
  String.toList_ofList

namespace Scan

/-- Whatever the scan makes at `k` satisfies `P`. -/
def Makes {α : Type} (P : α → Prop) (k : Cursor) (m : Scan α) : Prop :=
  ∀ a left, m k = .ok a left → P a

/-! ## Rules -/

section Rules

variable {α β : Type} {P Q : α → Prop} {k : Cursor}

theorem Makes.mono {m : Scan α} (h : Makes P k m) (hQ : ∀ a, P a → Q a) : Makes Q k m :=
  fun a left e => hQ a (h a left e)

/-- What comes first does not matter. -/
theorem makes_bind {m : Scan β} {f : β → Scan α} (g : ∀ b mid, Makes P mid (f b)) :
    Makes P k (m >>= f) := by
  intro a left e
  obtain ⟨b, mid, -, e⟩ := bind_ok e
  exact g b mid a left e

/-- What is known of the first value. -/
theorem Makes.bind {R : β → Prop} {m : Scan β} {f : β → Scan α} (h : Makes R k m)
    (g : ∀ b mid, R b → Makes P mid (f b)) : Makes P k (m >>= f) := by
  intro a left e
  obtain ⟨b, mid, e₁, e⟩ := bind_ok e
  exact g b mid (h b mid e₁) a left e

theorem makes_get {f : Cursor → Scan α} (g : Makes P k (f k)) : Makes P k (get >>= f) :=
  fun a left e => g a left (get_bind_ok e)

theorem makes_pure {a : α} (h : P a) : Makes P k (pure a) := by
  intro b left e
  rw [(pure_ok e).1]
  exact h

theorem makes_violation (message : String) : Makes P k (violation message) :=
  fun _ _ e => nomatch e

theorem makes_invalidForm (production value : String) :
    Makes P k (invalidForm production value) :=
  fun _ _ e => nomatch e

theorem makes_unexpectedCharacter (c : Char) (expected : String) :
    Makes P k (unexpectedCharacter c expected) :=
  fun _ _ e => nomatch e

theorem makes_unexpectedToken (expected : String) (found : Token) :
    Makes P k (unexpectedToken expected found) :=
  fun _ _ e => nomatch e

theorem makes_unexpectedEnd (expected : String) : Makes P k (unexpectedEnd expected) :=
  fun _ _ e => absurd e unexpectedEnd_ne_ok

theorem makes_unexpectedNext (expected : String) :
    Makes P k (do unexpectedCharacter (← nextOrEnd) expected) :=
  makes_bind fun c _ => makes_unexpectedCharacter c expected

end Rules

section Tokens

variable {P : Token → Prop} {k : Cursor} {kind : Kind}

theorem makes_emit (h : P ⟨kind, k.text, k.span⟩) : Makes P k (emit kind) := by
  intro t left e
  cases e
  exact h

theorem makes_emitAs {text : String} (h : P ⟨kind, text, k.span⟩) :
    Makes P k (emitAs kind text) := by
  intro t left e
  cases e
  exact h

theorem makes_emitBare (h : ∀ span, P ⟨kind, "", span⟩) : Makes P k (emitBare kind) := by
  intro t left e
  cases e
  exact h _

/-- The token behind a gap is the one after all text or one that its first
character begins. -/
theorem makes_tokenHere {dispatch : Char → Scan Token}
    (hend : ∀ span, P ⟨.ending, "", span⟩) (h : ∀ c k, Makes P k (dispatch c)) :
    Makes P k (tokenHere dispatch) := by
  refine makes_bind fun c mid => ?_
  split
  · refine makes_get ?_
    split
    · exact makes_bind fun _ _ => makes_bind fun _ _ => makes_emitAs (hend _)
    · exact makes_unexpectedEnd _
  · exact h _ _

end Tokens

/-! ## Sound tokens -/

section Sound

open Token (Sound)

variable {g : Grammar} {previous : Option Kind} {k : Cursor} {kind : Kind}

/-- A token of a kind that asks for nothing. -/
theorem sound_emit (ho : Kind.Open previous) (hk : kind.isOrdinary = true)
    (hw : kind.isUnjudged = true) :
    Makes (Sound g previous) k (emit kind) :=
  makes_emit (.of_ordinary ho hk (Token.wellFormed_of_unjudged hw))

theorem sound_emitAs {text : String} (ho : Kind.Open previous)
    (hk : kind.isOrdinary = true) (hw : kind.isUnjudged = true) :
    Makes (Sound g previous) k (emitAs kind text) :=
  makes_emitAs (.of_ordinary ho hk (Token.wellFormed_of_unjudged hw))

theorem sound_tokenHere {dispatch : Char → Scan Token} (ho : Kind.Open previous)
    (h : ∀ c k, Makes (Sound g previous) k (dispatch c)) :
    Makes (Sound g previous) k (tokenHere dispatch) :=
  makes_tokenHere (fun _ => .of_ordinary ho rfl (Token.wellFormed_of_unjudged rfl)) h

/-- A literal without quotation signs whose text the grammar derives. -/
theorem sound_plainLiteral (ho : Kind.Open previous)
    (h : Number.isTruth k.value = true ∨ Number.isNumber g.finalDot k.value = true) :
    Makes (Sound g previous) k (emit .plainLiteral) := by
  refine makes_emit (.of_ordinary ho rfl ?_)
  rw [← k.toList_text] at h
  exact h

/-- The token that announces a prefix. -/
theorem sound_prefixDirective (ho : Kind.Open previous) (hg : g.hasPrefixes = true) :
    Makes (Sound g previous) k (emit .prefixDirective) :=
  makes_emit ⟨.of_unattached ho rfl, Token.wellFormed_of_unjudged rfl, fun _ => hg⟩

theorem sound_single (ho : Kind.Open previous) (hk : kind.isOrdinary = true)
    (hw : kind.isUnjudged = true) :
    Makes (Sound g previous) k (single kind) :=
  makes_bind fun _ _ => sound_emit ho hk hw

theorem sound_comment (ho : Kind.Open previous) :
    Makes (Sound g previous) k comment :=
  makes_bind fun _ _ => sound_emit ho rfl rfl

theorem sound_reference (ho : Kind.Open previous) :
    Makes (Sound g previous) k reference :=
  makes_bind fun _ _ => makes_bind fun _ _ => sound_emit ho rfl rfl

theorem sound_literal {surplus : Surplus} (ho : Kind.Open previous) :
    Makes (Sound g previous) k (literal surplus) := by
  refine makes_bind fun sign _ => makes_bind fun second _ => ?_
  split
  · refine makes_bind fun _ _ => makes_bind fun third _ => ?_
    split
    · exact makes_bind fun _ _ => makes_bind fun _ _ => sound_emit ho rfl rfl
    · exact sound_emit ho rfl rfl
  · exact makes_bind fun _ _ => sound_emit ho rfl rfl

/-! ### Annotations -/

theorem sound_languageTag (hp : previous.any Kind.isQuoted = true) :
    Makes (Sound g previous) k languageTag := by
  refine makes_bind fun _ _ => makes_bind fun _ k₁ => makes_get ?_
  split
  · exact makes_unexpectedNext _
  · split
    · rename_i htag
      rw [← k₁.toList_text] at htag
      exact makes_emit ⟨.of_quoted (Or.inl rfl) hp, htag, nofun⟩
    · exact makes_invalidForm _ _

theorem sound_hatHat (hp : previous.any Kind.isQuoted = true) :
    Makes (Sound g previous) k hatHat := by
  refine makes_bind fun _ _ => makes_bind fun c _ => ?_
  split
  · exact makes_unexpectedEnd _
  · split
    · refine makes_bind fun _ _ => makes_emit ⟨.of_quoted (Or.inr rfl) hp, ?_, nofun⟩
      exact Token.wellFormed_of_unjudged rfl
    · exact makes_unexpectedCharacter _ _

/-! ### Names -/

/-- A token that a gathered name can be. -/
structure NameToken (g : Grammar) (t : Token) : Prop where
  ordinary : t.kind.isOrdinary = true
  wellFormed : t.WellFormed g

/-- The token of a gathered name, if there is one. -/
theorem makes_nameToken? :
    Makes (fun o => ∀ t, o = some t → NameToken g t) k (nameToken? g.names) := by
  have hsome : ∀ {m : Scan Token}, Makes (NameToken g) k m →
      Makes (fun o : Option Token => ∀ t, o = some t → NameToken g t) k
        (do return some (← m)) := by
    intro m hm
    refine hm.bind fun t _ ht => makes_pure ?_
    rintro u ⟨⟩
    exact ht
  refine makes_get ?_
  dsimp only
  split
  · exact makes_pure nofun
  · split
    · exact hsome (makes_emit ⟨rfl, Token.wellFormed_of_unjudged rfl⟩)
    · split
      · split
        · rename_i hnode
          rw [← k.toList_text] at hnode
          exact hsome (makes_emit ⟨rfl, hnode⟩)
        · exact makes_invalidForm _ _
      · split
        · rename_i hname
          exact hsome (makes_emitAs ⟨rfl, k.value, hname, rfl⟩)
        · exact makes_invalidForm _ _

/-- A gathered name, or what becomes of a bare word. -/
theorem sound_nameOr {other : Scan Token} (ho : Kind.Open previous)
    (h : ∀ k, Makes (Sound g previous) k other) :
    Makes (Sound g previous) k (do
      match ← nameToken? g.names with
      | some token => return token
      | none => other) := by
  refine makes_nameToken?.bind fun o _ ht => ?_
  split
  · have hname := ht _ rfl
    exact makes_pure (.of_ordinary ho hname.ordinary hname.wellFormed)
  · exact h _

theorem sound_nameDatatype :
    Makes (Sound g (some .hatHat)) k (nameDatatype g.names) := by
  refine makes_bind fun _ _ => makes_nameToken?.bind fun o _ ht => ?_
  split
  · rename_i token
    split
    · rename_i hkind
      rw [beq_iff_eq] at hkind
      have hname := (ht _ rfl).wellFormed
      unfold Token.WellFormed at hname
      rw [hkind] at hname
      exact makes_bind fun _ _ => makes_pure ⟨Kind.follows_datatype, Or.inr hname, nofun⟩
    · exact makes_unexpectedToken _ _
  · exact makes_get (makes_invalidForm _ _)

theorem sound_referenceDatatype :
    Makes (Sound g (some .hatHat)) k referenceDatatype := by
  refine makes_bind fun _ _ => makes_bind fun _ k₁ => makes_get ?_
  exact makes_emitAs ⟨Kind.follows_datatype, Or.inl ⟨k₁.text, rfl⟩, nofun⟩

theorem sound_datatype : Makes (Sound g (some .hatHat)) k (datatype g.names) := by
  refine makes_bind fun _ _ => makes_bind fun c _ => ?_
  split
  · exact makes_unexpectedEnd _
  · split
    · exact sound_referenceDatatype
    · split
      · exact makes_unexpectedCharacter _ _
      · exact sound_nameDatatype

theorem sound_prefixName :
    Makes (Sound g (some .prefixDirective)) k prefixName := by
  refine makes_bind fun _ _ => makes_bind fun _ k₁ => makes_get ?_
  split
  · exact makes_unexpectedNext _
  · split
    · rename_i hprefix
      rw [← k₁.toList_text] at hprefix
      exact makes_emit ⟨Kind.follows_prefixName, hprefix, nofun⟩
    · exact makes_invalidForm _ _

theorem sound_variableToken {sign : Char} (ho : Kind.Open previous) :
    Makes (Sound g previous) k (variableToken sign) := by
  refine makes_get ?_
  split
  · rename_i hvariable
    rw [← k.toList_text] at hvariable
    exact makes_emit (.of_ordinary ho rfl hvariable)
  · exact makes_invalidForm _ _

/-! ### Numbers -/

theorem sound_number (ho : Kind.Open previous) (hd : g.finalDot = false) :
    Makes (Sound g previous) k number := by
  refine makes_get (makes_bind fun _ _ => makes_bind fun _ k₁ => makes_get ?_)
  split
  · rename_i hnumber
    rw [Number.isPlainLiteral, Bool.or_eq_true, ← hd] at hnumber
    exact sound_plainLiteral ho hnumber
  · exact makes_invalidForm _ _

theorem sound_dotOrNumber {readNumber : Scan Token} (ho : Kind.Open previous)
    (h : ∀ k, Makes (Sound g previous) k readNumber) :
    Makes (Sound g previous) k (dotOrNumber readNumber) := by
  refine makes_bind fun _ _ => makes_bind fun c _ => ?_
  split
  · split
    · exact h _
    · exact sound_emit ho rfl rfl
  · exact sound_emit ho rfl rfl

end Sound

end Scan

end TripleLex

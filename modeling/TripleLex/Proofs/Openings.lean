import TripleLex.Proofs.Cells
import TripleLex.Proofs.FirstCharacters
import TripleLex.Proofs.Gating

/-!
# Where literals and references are read

`Machine.Opens` lists the signs that open a literal or a reference. Here is why the
list is complete: a token from between signs is made nowhere else, so what holds
behind all listed signs holds of every such token that a run can come to.

A token is read by its first character. Every character but the few signs of a
format begins a token of another kind (`Machine.bare_dispatch`), and so does
whatever is due behind some kinds (`Machine.bare_expected`). What is left are the
signs themselves, where the format may still refuse a token.

## Main results

* `sign_behind` — the first character of such a token.
* `Machine.opened_read`, `Lexer.opened_next` — all formats.
-/

namespace TripleLex

/-- Whether tokens of the kind stand between signs. -/
def Kind.isEnclosed : Kind → Bool
  | literal | longLiteral | uri => true
  | _ => false

/-- The kind of what is enclosed. -/
def Enclosure.kind : Enclosure → Kind
  | short _ | field | cell => .literal
  | long _ => .longLiteral
  | reference => .uri

namespace Scan

/-- The token does not stand between signs. -/
def Bare (t : Token) : Prop := t.kind.isEnclosed = false

variable {k left : Cursor} {t : Token} {kinds : List Kind}

theorem Makes.bare {m : Scan Token} (h : Makes (OfKind kinds) k m)
    (hk : ∀ kind ∈ kinds, kind.isEnclosed = false) : Makes Bare k m :=
  h.ofKind hk

theorem bare_emit {kind : Kind} (h : kind.isEnclosed = false) : Makes Bare k (emit kind) :=
  makes_emit h

theorem bare_single {kind : Kind} (h : kind.isEnclosed = false) : Makes Bare k (single kind) :=
  makes_bind fun _ _ => bare_emit h

/-- A name, or what else its characters may be. -/
theorem bare_nameOr {rule : Name.Rule} {word : List Char → Scan Token}
    (h : ∀ mid cs, Makes Bare mid (word cs)) :
    Makes Bare k (do
      match ← nameToken? rule with
      | some token => return token
      | none => word (← get).value) := by
  have hnames : ∀ kind ∈ [Kind.anonymousNode, .blankNode, .prefixedName],
      kind.isEnclosed = false := by decide
  refine kinds_nameToken?.bind fun o _ ht => ?_
  split
  · exact makes_pure (hnames _ (ht _ rfl))
  · exact makes_get (h _ _)

theorem bare_dotOrNumber {readNumber : Scan Token} (h : ∀ mid, Makes Bare mid readNumber) :
    Makes Bare k (dotOrNumber readNumber) := by
  refine makes_bind fun _ _ => makes_bind fun c _ => ?_
  split
  · split
    · exact h _
    · exact bare_emit rfl
  · exact bare_emit rfl

theorem not_bare {m : Scan Token} (h : Makes Bare k m) (e : m k = .ok t left) :
    ¬ t.kind.isEnclosed = true := by
  rw [h t left e]
  exact Bool.false_ne_true

/-- A literal is long if three signs open it. -/
theorem literal_opens {surplus : Surplus} {sign : Char} {cs : List Char} (hs : IsSign sign)
    (hk : k.ahead = sign :: cs) (e : literal surplus k = .ok t left) :
    t.kind = .literal ∨ t.kind = .longLiteral ∧ ∃ rest, cs = sign :: sign :: rest := by
  have hl := hs.not_isLineEnd
  obtain ⟨c, k₁, e₁, e⟩ := bind_ok e
  obtain ⟨rfl, r₁⟩ := skip_ok (by rw [hk]; rfl) hl e₁
  have hk₁ : k₁.ahead = cs := r₁.rest_eq hk
  obtain ⟨second, k₂, e₂, e⟩ := bind_ok e
  obtain ⟨hsecond, r₂⟩ := nextIs_ok e₂
  cases second with
  | false =>
    obtain ⟨_, _, -, e⟩ := bind_ok e
    exact .inl (emit_ok e).1
  | true =>
    obtain ⟨cs₂, hcs₂⟩ := List.head?_eq_some_iff.1 (hsecond.1 rfl)
    obtain ⟨_, k₃, e₃, e⟩ := bind_ok e
    obtain ⟨-, r₃⟩ := skip_ok (hsecond.1 rfl) hl e₃
    obtain ⟨third, k₄, e₄, e⟩ := bind_ok e
    obtain ⟨hthird, r₄⟩ := nextIs_ok e₄
    cases third with
    | false => exact .inl (emit_ok e).1
    | true =>
      obtain ⟨rest, hrest⟩ := List.head?_eq_some_iff.1 (hthird.1 rfl)
      obtain ⟨_, _, -, e⟩ := bind_ok e
      obtain ⟨_, _, -, e⟩ := bind_ok e
      refine .inr ⟨(emit_ok e).1, rest, ?_⟩
      have h₂ : cs = k₂.ahead := by rw [← hk₁]; exact r₂.ahead
      have h₃ : k₃.ahead = cs₂ := r₃.rest_eq hcs₂
      have h₄ : cs₂ = k₄.ahead := by rw [← h₃]; exact r₄.ahead
      rw [h₂, hcs₂, h₄, hrest]

/-! ## The first character -/

/-- The token was read by its first character `c`, at a cursor that stands where `k`
has passed over the gap. -/
structure Begins (dispatch : Char → Scan Token) (k : Cursor) (c : Char) (cs : List Char)
    (t : Token) (mid left : Cursor) : Prop where
  read : dispatch c mid = .ok t left
  ahead : mid.ahead = c :: cs
  previous : mid.previous = k.previous

variable {dispatch : Char → Scan Token} {signs : List Char} {p : Char → Bool}

/-- Nothing is passed over but characters of a class. -/
def Discards (p : Char → Bool) (discard : Scan Unit) : Prop :=
  ∀ k mid u, discard k = .ok u mid →
    k.ahead = k.ahead.takeWhile p ++ mid.ahead ∧ mid.previous = k.previous

theorem discards_blank : Discards Unicode.isBlank discardBlank := by
  intro k mid u e
  obtain ⟨_, k₁, e₁, e₂⟩ := bind_ok e
  have r := blanks_ok e₁
  rw [startToken_ok e₂]
  exact ⟨r.ahead, r.previous⟩

theorem discards_spaces : Discards (· == ' ') Table.Tsv.discardSpaces := by
  intro k mid u e
  obtain ⟨_, k₁, e₁, e₂⟩ := bind_ok e
  have r := skipWhile_ok
    (fun c h => not_isLineEnd_of (p := (· == ' ')) (by decide) (by decide) h) e₁
  rw [startToken_ok e₂]
  exact ⟨r.ahead, r.previous⟩

/-- A token between signs begins with one of them. -/
theorem sign_here (hbare : ∀ c mid, c ∉ signs → Makes Bare mid (dispatch c))
    (e : tokenHere dispatch k = .ok t left) (ht : t.kind.isEnclosed = true) :
    ∃ c cs mid, c ∈ signs ∧ k.ahead = c :: cs ∧ Begins dispatch k c cs t mid left := by
  obtain ⟨o, mid, e₁, e⟩ := bind_ok e
  obtain ⟨ho, r⟩ := look_ok e₁
  cases o with
  | none =>
    have hending : Makes Bare mid (ending "Token") := by
      refine makes_get ?_
      split
      · exact makes_bind fun _ _ => makes_bind fun _ _ => makes_emitAs rfl
      · exact makes_unexpectedEnd _
    exact absurd ht (not_bare hending e)
  | some c =>
    obtain ⟨cs, hcs⟩ := List.head?_eq_some_iff.1 ho
    exact ⟨c, cs, mid, Decidable.byContradiction fun hc => not_bare (hbare c mid hc) e ht,
      r.ahead.trans hcs, e, hcs, r.previous⟩

/-- So does one behind a gap. -/
theorem sign_behind {discard : Scan Unit} (hd : Discards p discard)
    (hbare : ∀ c mid, c ∉ signs → Makes Bare mid (dispatch c))
    (e : (do discard; tokenHere dispatch) k = .ok t left) (ht : t.kind.isEnclosed = true) :
    ∃ gap c cs mid, k.ahead = gap ++ c :: cs ∧ (∀ d ∈ gap, p d = true) ∧ c ∈ signs ∧
      Begins dispatch k c cs t mid left := by
  obtain ⟨_, k₁, e₁, e⟩ := bind_ok e
  obtain ⟨hk, hp⟩ := hd _ _ _ e₁
  obtain ⟨c, cs, mid, hc, hk₁, hb⟩ := sign_here hbare e ht
  rw [hk₁] at hk
  exact ⟨_, c, cs, mid, hk, fun d hd => List.all_eq_true.1 List.all_takeWhile d hd, hc,
    ⟨hb.read, hb.ahead, hb.previous.trans hp⟩⟩

end Scan

/-! ## Formats -/

open Scan

section Graphs

variable {mid : Cursor} {c : Char} {previous : Option Kind}

theorem Graph.LineFormat.bare_dispatch {format : Graph.LineFormat} (h : c ∉ ['<', '"']) :
    Makes Bare mid (format.dispatch previous c) := by
  unfold Graph.LineFormat.dispatch
  split
  · exact kinds_comment.bare (by decide)
  · exact absurd (by decide) h
  · refine makes_bind fun _ _ => makes_bind fun _ _ => makes_bind fun more _ => ?_
    split
    · exact makes_unexpectedNext _
    · refine makes_bind fun _ _ => makes_bind fun _ _ => makes_bind fun _ _ => makes_get ?_
      split
      · exact bare_emit rfl
      · exact makes_invalidForm _ _
  · exact absurd (by decide) h
  · exact bare_single rfl
  · split
    · exact kinds_languageTag.bare (by decide)
    · split
      · exact kinds_hatHat.bare (by decide)
      · exact makes_unexpectedCharacter _ _

theorem Graph.LineFormat.bare_datatype : Makes Bare mid Graph.LineFormat.datatype := by
  refine makes_bind fun _ _ => makes_bind fun c _ => ?_
  split
  · exact makes_unexpectedEnd _
  · split
    · exact makes_bind fun _ _ => makes_bind fun _ _ => makes_get (makes_emitAs rfl)
    · exact makes_unexpectedCharacter _ _

theorem Graph.Turtle.bare_directive {rules : Graph.Turtle} : Makes Bare mid rules.directive := by
  refine makes_bind fun _ _ => ?_
  split
  · exact bare_emit rfl
  · split
    · split
      · exact makes_violation _
      · exact bare_emit rfl
    · split <;> exact makes_violation _

theorem Graph.Turtle.bare_bareWord {rules : Graph.Turtle} {word : List Char} :
    Makes Bare mid (rules.bareWord word) := by
  unfold Graph.Turtle.bareWord
  split
  · exact bare_emit rfl
  · split
    · exact bare_emit rfl
    · split
      · exact makes_violation _
      · split
        · exact makes_invalidForm _ _
        · split
          · exact bare_emit rfl
          · split
            · exact bare_emit rfl
            · split
              · exact bare_emit rfl
              · exact makes_invalidForm _ _

theorem Graph.Turtle.bare_dispatch {rules : Graph.Turtle} (h : c ∉ ['<', '"', '\'']) :
    Makes Bare mid (rules.dispatch previous c) := by
  have hname : Makes Bare mid rules.name :=
    makes_bind fun _ _ => bare_nameOr fun _ _ => bare_bareWord
  have hbrace : ∀ {kind : Kind}, kind.isEnclosed = false →
      Makes Bare mid (rules.brace kind c) := by
    intro kind hk
    unfold Graph.Turtle.brace
    split
    · exact bare_single hk
    · exact makes_unexpectedCharacter _ _
  unfold Graph.Turtle.dispatch
  split
  · exact kinds_comment.bare (by decide)
  · exact absurd (by decide) h
  · exact absurd (by decide) h
  · exact absurd (by decide) h
  · unfold Graph.Turtle.tagOrDirective
    split
    · exact kinds_languageTag.bare (by decide)
    · split
      · exact makes_violation _
      · exact bare_directive
  · unfold Graph.Turtle.hat
    split
    · exact kinds_hatHat.bare (by decide)
    · split
      · exact makes_violation _
      · exact makes_unexpectedCharacter _ _
  · exact bare_dotOrNumber fun _ => kinds_number.bare (by decide)
  · exact bare_single rfl
  · exact bare_single rfl
  · exact bare_single rfl
  · exact bare_single rfl
  · exact bare_single rfl
  · exact bare_single rfl
  · exact hbrace rfl
  · exact hbrace rfl
  · refine makes_bind fun _ _ => makes_bind fun _ _ => ?_
    split
    · exact makes_bind fun _ _ => makes_violation _
    · split
      · exact bare_emit rfl
      · exact makes_violation _
  · exact kinds_number.bare (by decide)
  · exact kinds_number.bare (by decide)
  · exact hname
  · exact hname
  · exact hname
  · split
    · exact kinds_number.bare (by decide)
    · split
      · exact hname
      · exact makes_unexpectedCharacter _ _

theorem Graph.Notation3.isEnclosed_directiveKind? {v : Graph.Vocabulary} {name : List Char}
    {kind : Kind} (h : Graph.Notation3.directiveKind? v name = some kind) :
    kind.isEnclosed = false :=
  (by decide : ∀ kind ∈ directiveKinds, kind.isEnclosed = false) kind (mem_of_directiveKind? h)

theorem Graph.Notation3.isEnclosed_keywordKind (word : List Char) :
    (Graph.Notation3.keywordKind word).isEnclosed = false :=
  (by decide : ∀ kind ∈ wordKinds, kind.isEnclosed = false) _ (keywordKind_mem word)

theorem Graph.Notation3.bare_bareWord {v : Graph.Vocabulary} {word : List Char} :
    Makes Bare mid (Graph.Notation3.bareWord v word) := by
  unfold Graph.Notation3.bareWord
  split
  · exact bare_emit rfl
  · split
    · split
      · exact bare_emit (isEnclosed_keywordKind word)
      · exact makes_emitAs rfl
    · split
      · exact makes_invalidForm _ _
      · exact bare_emit (isEnclosed_keywordKind word)

theorem Graph.Notation3.bare_declaration : Makes Bare mid Graph.Notation3.declaration := by
  refine makes_bind fun _ _ => makes_bind fun _ _ => makes_bind fun _ _ => ?_
  split
  · exact bare_single rfl
  · refine makes_bind fun _ _ => makes_get ?_
    split
    · exact makes_unexpectedCharacter _ _
    · exact bare_emit rfl

theorem Graph.Notation3.bare_dispatch {v : Graph.Vocabulary} (h : c ∉ ['<', '"', '\'']) :
    Makes Bare mid (Graph.Notation3.dispatch v previous c) := by
  have hname : Makes Bare mid (Graph.Notation3.name v) :=
    makes_bind fun _ _ => bare_nameOr fun _ _ => bare_bareWord
  unfold Graph.Notation3.dispatch
  split
  · exact kinds_comment.bare (by decide)
  · exact absurd (by decide) h
  · exact absurd (by decide) h
  · exact absurd (by decide) h
  · split
    · exact kinds_languageTag.bare (by decide)
    · refine makes_bind fun _ _ => ?_
      split
      · exact bare_emit (isEnclosed_directiveKind? ‹_›)
      · exact makes_violation _
  · unfold Graph.Notation3.hat
    split
    · exact kinds_hatHat.bare (by decide)
    · refine makes_bind fun _ _ => makes_bind fun _ _ => ?_
      split
      · exact makes_violation _
      · exact bare_emit rfl
  · refine makes_bind fun _ _ => makes_bind fun _ _ => ?_
    split
    · exact makes_bind fun _ _ => bare_emit rfl
    · exact bare_emit rfl
  · exact bare_single rfl
  · exact makes_bind fun _ _ => kinds_variableToken.bare (by decide)
  · exact bare_dotOrNumber fun _ => kinds_number.bare (by decide)
  · exact bare_single rfl
  · exact bare_single rfl
  · exact bare_single rfl
  · exact bare_single rfl
  · exact bare_single rfl
  · exact bare_single rfl
  · exact bare_single rfl
  · exact bare_single rfl
  · exact kinds_number.bare (by decide)
  · exact kinds_number.bare (by decide)
  · exact hname
  · exact hname
  · exact hname
  · split
    · exact kinds_number.bare (by decide)
    · split
      · exact hname
      · exact makes_unexpectedCharacter _ _

end Graphs

section Queries

open Query

variable {mid : Cursor} {c : Char} {previous : Option Kind} {q : Sparql}

theorem Query.Sparql.bare_base : Makes Bare mid q.base := by
  unfold Sparql.base
  split
  · exact makes_violation _
  · exact bare_emit rfl

theorem Query.Sparql.bare_keyword {w : Keyword} : Makes Bare mid (q.keyword w) :=
  makes_bind fun _ _ => makes_bind fun _ _ => bare_emit rfl

theorem Query.Sparql.bare_twoWords {seconds : List (String × Keyword)} :
    Makes Bare mid (q.twoWords seconds) := by
  refine makes_get (makes_bind fun _ _ => makes_get (makes_bind fun _ _ => makes_get ?_))
  dsimp only
  split
  · exact bare_keyword
  · exact makes_violation _

theorem Query.Sparql.bare_bareWord {word : List Char} : Makes Bare mid (q.bareWord word) := by
  unfold Sparql.bareWord
  split
  · exact bare_emit rfl
  · split
    · exact bare_emit rfl
    · split
      · exact bare_base
      · split
        · exact bare_emit rfl
        · split
          · exact bare_twoWords
          · split
            · exact bare_twoWords
            · split
              · exact bare_twoWords
              · split
                · exact bare_keyword
                · exact makes_invalidForm _ _

theorem Query.Sparql.bare_prologue (h : c ∉ ['<']) : Makes Bare mid (q.prologue previous c) := by
  unfold Sparql.prologue
  split
  · exact kinds_comment.bare (by decide)
  · split
    · rename_i hc
      exact absurd (List.mem_singleton.2 (beq_iff_eq.1 hc)) h
    · refine makes_bind fun _ _ => makes_get ?_
      split
      · exact makes_unexpectedCharacter _ _
      · unfold Sparql.prologueWord
        split
        · exact bare_base
        · split
          · exact bare_emit rfl
          · split
            · split
              · exact makes_bind fun _ _ => bare_emit rfl
              · exact makes_violation _
            · exact makes_violation _

theorem Query.Sparql.bare_body (h : c ∉ ['<', '"', '\'']) :
    Makes Bare mid (q.body previous c) := by
  have hnumber : Makes Bare mid q.numberOrSign := kinds_numberOrSign.bare (by decide)
  have hname : ∀ mid, Makes Bare mid q.name := fun _ =>
    makes_bind fun _ _ => bare_nameOr fun _ _ => bare_bareWord
  have htwo : ∀ {second : Char} {double one : Kind}, double.isEnclosed = false →
      one.isEnclosed = false → Makes Bare mid (oneOrTwo second double one) := fun hd ho =>
    kinds_oneOrTwo.bare (by simp [hd, ho])
  unfold Sparql.body
  split
  · exact kinds_comment.bare (by decide)
  · exact absurd (by decide) h
  · exact htwo rfl rfl
  · exact absurd (by decide) h
  · exact absurd (by decide) h
  · exact kinds_hat.bare (by decide)
  · exact kinds_variableName.bare (by decide)
  · exact kinds_variableName.bare (by decide)
  · exact bare_single rfl
  · exact bare_single rfl
  · exact bare_single rfl
  · exact bare_single rfl
  · exact bare_single rfl
  · exact bare_single rfl
  · exact bare_single rfl
  · exact bare_single rfl
  · exact kinds_dotOrNumber.bare (by decide)
  · refine bare_single ?_
    unfold Sparql.starKind
    split <;> rfl
  · exact bare_single rfl
  · exact bare_single rfl
  · exact htwo rfl rfl
  · exact htwo rfl rfl
  · exact kinds_ampersand.bare (by decide)
  · exact hnumber
  · exact hnumber
  · refine makes_bind fun _ _ => makes_bind fun _ _ => ?_
    split
    · exact makes_bind fun _ _ => bare_emit rfl
    · exact hname _
  · exact hname _
  · exact hname _
  · split
    · exact kinds_languageTag.bare (by decide)
    · split
      · exact hnumber
      · split
        · exact hname _
        · exact makes_unexpectedCharacter _ _

end Queries

section Tables

open Table

variable {mid : Cursor} {c : Char} {previous : Option Kind}

theorem Table.Csv.bare_recordEnd : Makes Bare mid Csv.recordEnd :=
  makes_bind fun _ _ => makes_emitBare fun _ => rfl

theorem Table.Csv.bare_dispatch (h : c ∉ ['"']) : Makes Bare mid (Csv.dispatch c) := by
  unfold Csv.dispatch
  split
  · exact bare_single rfl
  · split
    · exact bare_recordEnd
    · split
      · rename_i hc
        exact absurd (List.mem_singleton.2 (beq_iff_eq.1 hc)) h
      · exact makes_bind fun _ _ => bare_emit rfl

theorem Table.Tsv.bare_dispatch (h : c ∉ ['<', '"']) :
    Makes Bare mid (Tsv.dispatch previous c) := by
  have hnumber : Makes Bare mid number := kinds_number.bare (by decide)
  have hname : Makes Bare mid Tsv.name := kinds_name.bare (by decide)
  unfold Tsv.dispatch
  split
  · exact bare_single rfl
  · exact absurd (by decide) h
  · exact absurd (by decide) h
  · exact kinds_variableName.bare (by decide)
  · exact hnumber
  · exact hnumber
  · exact hnumber
  · exact hname
  · exact hname
  · split
    · exact Csv.bare_recordEnd
    · split
      · exact kinds_languageTag.bare (by decide)
      · split
        · exact kinds_hatHat.bare (by decide)
        · split
          · exact hnumber
          · split
            · exact hname
            · exact makes_unexpectedCharacter _ _

end Tables

/-! ## Machines -/

namespace Machine

variable {m : Machine} {kind : Kind} {k left mid : Cursor} {t : Token} {c : Char} {cs : List Char}

/-- The characters that open what stands between signs. -/
def signs : Machine → List Char
  | lines _ | tsv => ['<', '"']
  | turtle _ | n3 _ => ['<', '"', '\'']
  | sparql q => if q.progress.inBody then ['<', '"', '\''] else ['<']
  | csv => ['"']

theorem dispatch_prologue {q : Query.Sparql} {previous : Option Kind}
    (hq : q.progress.inBody = false) : (sparql q).dispatch previous c = q.prologue previous c :=
  if_neg (by rw [hq]; decide)

theorem bare_dispatch {previous : Option Kind} (h : c ∉ m.signs) :
    Makes Bare mid (m.dispatch previous c) := by
  cases m with
  | lines format => exact Graph.LineFormat.bare_dispatch h
  | turtle rules => exact Graph.Turtle.bare_dispatch h
  | n3 v => exact Graph.Notation3.bare_dispatch h
  | csv => exact Table.Csv.bare_dispatch h
  | tsv => exact Table.Tsv.bare_dispatch h
  | sparql q =>
    have h : c ∉ if q.progress.inBody then ['<', '"', '\''] else ['<'] := h
    cases hq : q.progress.inBody with
    | true =>
      rw [if_pos hq] at h
      rw [dispatch_body hq]
      exact Query.Sparql.bare_body h
    | false =>
      rw [if_neg (by rw [hq]; decide)] at h
      rw [dispatch_prologue hq]
      exact Query.Sparql.bare_prologue h

/-- What is due behind some kinds does not stand between signs. -/
theorem bare_expected {previous : Option Kind} (hm : m.hasComments = true)
    (he : m.expects previous = true) : Makes Bare k (m.read previous) := by
  have hdatatype : ∀ {rule : Name.Rule} {k : Cursor}, Makes Bare k (datatype rule) :=
    kinds_datatype.bare (by decide)
  have hprefix : ∀ {k : Cursor}, Makes Bare k prefixName := kinds_prefixName.bare (by decide)
  cases m with
  | lines format =>
    rw [beq_iff_eq.1 he]
    exact Graph.LineFormat.bare_datatype
  | turtle rules =>
    simp only [expects, Bool.or_eq_true, beq_iff_eq] at he
    rcases he with rfl | rfl
    · exact hdatatype
    · exact hprefix
  | sparql q =>
    simp only [expects, Bool.or_eq_true, beq_iff_eq] at he
    rcases he with rfl | rfl
    · exact hdatatype
    · exact hprefix
  | n3 v =>
    show Makes Bare k (Graph.Notation3.read v previous)
    unfold Graph.Notation3.read
    cases hv : v.isReading with
    | true => exact Graph.Notation3.bare_declaration
    | false =>
      simp only [expects, hv, Bool.false_or, Bool.or_eq_true, beq_iff_eq] at he
      rcases he with rfl | rfl
      · exact hdatatype
      · exact hprefix
  | csv => cases hm
  | tsv => cases hm

/-- What stands between signs begins with one of them, behind a gap, and where
nothing else is due. -/
theorem sign_read (e : m.read (some kind) k = .ok t left) (ht : t.kind.isEnclosed = true) :
    ∃ gap c cs mid, k.ahead = gap ++ c :: cs ∧ (∀ d ∈ gap, m.passes (some kind) d = true) ∧
      c ∈ m.signs ∧ Begins (m.dispatch (some kind)) k c cs t mid left ∧
      (m.hasComments = true → m.expects (some kind) = false) ∧ (m = tsv → kind ≠ .hatHat) := by
  have hbare : ∀ c mid, c ∉ m.signs → Makes Bare mid (m.dispatch (some kind) c) :=
    fun _ _ => bare_dispatch
  cases hm : m.hasComments with
  | true =>
    have he : m.expects (some kind) = false := by
      rw [Bool.eq_false_iff]
      exact fun he => not_bare (bare_expected hm he) e ht
    have hreading := not_reading_of_expects he
    have hdeclaring : m.isDeclaring = false := by
      cases m with
      | n3 v => exact hreading v rfl
      | _ => rfl
    rw [read_eq hm he] at e
    obtain ⟨gap, c, cs, mid, hk, hgap, hc, hb⟩ := sign_behind discards_blank hbare e ht
    refine ⟨gap, c, cs, mid, hk, fun d hd => ?_, hc, hb, fun _ => he, ?_⟩
    · rw [passes_eq hdeclaring, skips_eq_isBlank hm hreading]
      exact hgap d hd
    · rintro rfl
      cases hm
  | false =>
    cases m with
    | csv =>
      obtain ⟨c, cs, mid, hc, hk, hb⟩ := sign_here hbare e ht
      exact ⟨[], c, cs, mid, hk, nofun, hc, hb, nofun, nofun⟩
    | tsv =>
      have hhat : kind ≠ .hatHat := by
        rintro rfl
        have hdatatype : Makes Bare k (tsv.read (some .hatHat)) := kinds_datatype.bare (by decide)
        exact not_bare hdatatype e ht
      have e : Table.Tsv.read (some kind) k = .ok t left := e
      rw [Table.Tsv.read_eq hhat] at e
      obtain ⟨gap, c, cs, mid, hk, hgap, hc, hb⟩ := sign_behind discards_spaces hbare e ht
      refine ⟨gap, c, cs, mid, hk, fun d hd => ?_, hc, hb, nofun, fun _ => hhat⟩
      rw [passes_tsv hhat]
      exact hgap d hd
    | _ => cases hm

/-- The characters begin with signs that open an enclosure of the token's kind. -/
def Opening (m : Machine) (kind : Kind) (cs : List Char) (t : Token) : Prop :=
  ∃ opening e rest, cs = opening ++ rest ∧ m.Opens kind opening e ∧ e.kind = t.kind

/-- One of the kinds that a reader makes stands between signs. -/
theorem kind_of_kinds {kinds : List Kind} {n : Scan Token} {found : Kind}
    (h : Makes (OfKind kinds) k n) (hk : ∀ kind ∈ kinds, kind.isEnclosed = true → kind = found)
    (e : n k = .ok t left) (ht : t.kind.isEnclosed = true) : found = t.kind :=
  (hk t.kind (h t left e) ht).symm

/-- A reference, or an operator with its bracket. -/
theorem ReadsTurtle.uri_of_bracket (hm : m.ReadsTurtle) {previous : Option Kind}
    (e : m.dispatch previous '<' mid = .ok t left) (ht : t.kind.isEnclosed = true) :
    .uri = t.kind := by
  cases hm with
  | turtle rules =>
    have hrest : ∀ mid, Makes (OfKind [.uri]) mid Graph.Turtle.referenceRest :=
      fun _ => makes_bind fun _ _ => kinds_emit (by decide)
    have hreference : Makes (OfKind [.uri]) mid rules.referenceOrArrow := by
      refine makes_bind fun _ _ => makes_bind fun _ _ => ?_
      split
      · refine makes_bind fun _ _ => makes_bind fun _ _ => ?_
        split
        · exact makes_violation _
        · exact hrest _
      · exact hrest _
    exact kind_of_kinds hreference (by decide) e ht
  | n3 _ =>
    have hreference : Makes (OfKind [.impliedBy, .uri]) mid Graph.Notation3.referenceOrArrow := by
      refine makes_bind fun _ _ => makes_bind fun _ _ => ?_
      split
      · refine makes_bind fun _ _ => makes_bind fun _ _ => ?_
        split
        · exact kinds_emitAs (by decide)
        · exact makes_violation _
      · exact makes_bind fun _ _ => kinds_emit (by decide)
    exact kind_of_kinds hreference (by decide) e ht
  | sparql hq =>
    rw [dispatch_body hq] at e
    exact kind_of_kinds Query.Sparql.kinds_referenceOrLess (by decide) e ht

theorem ReadsTurtle.opening (hm : m.ReadsTurtle) (hp : Kind.Open (some kind))
    (hc : c ∈ ['<', '"', '\''])
    (hb : Begins (m.dispatch (some kind)) k c cs t mid left) (ht : t.kind.isEnclosed = true) :
    m.Opening kind (c :: cs) t := by
  by_cases href : c = '<'
  · subst href
    exact ⟨['<'], .reference, cs, rfl, .reference hm hp, hm.uri_of_bracket hb.read ht⟩
  · have hs : IsSign c := by simpa [href, IsSign] using hc
    have hread := hb.read
    rw [hm.dispatch_sign hs] at hread
    rcases literal_opens hs hb.ahead hread with hkind | ⟨hkind, rest, rfl⟩
    · exact ⟨[c], .short c, cs, rfl, .short hm hp hs, hkind.symm⟩
    · exact ⟨[c, c, c], .long c, rest, rfl, .long hm hp hs, hkind.symm⟩

theorem opening_lines {format : Graph.LineFormat} (hhat : kind ≠ .hatHat)
    (hp : k.previous = some kind) (hc : c ∈ ['<', '"'])
    (hb : Begins (format.dispatch (some kind)) k c cs t mid left)
    (ht : t.kind.isEnclosed = true) : (lines format).Opening kind (c :: cs) t := by
  simp only [List.mem_cons, List.not_mem_nil, or_false] at hc
  rcases hc with rfl | rfl
  · obtain ⟨_, k₁, e₁, e₂⟩ := bind_ok hb.read
    have hgraph : (Graph.LineFormat.endsLiteral (some kind) && format == .triples) = false := by
      rw [← hp, ← hb.previous, Bool.eq_false_iff]
      intro hends
      unfold Graph.LineFormat.checkGraph at e₁
      rw [get_bind, if_pos hends] at e₁
      cases e₁
    exact ⟨['<'], .reference, cs, rfl, .lineReference hhat hgraph,
      kind_of_kinds kinds_reference (by decide) e₂ ht⟩
  · have hliteral : Makes (OfKind [.literal]) mid Graph.LineFormat.literal := by
      refine makes_bind fun _ _ => makes_bind fun _ _ => ?_
      split
      · refine makes_bind fun _ _ => makes_bind fun _ _ => ?_
        split
        · exact makes_violation _
        · exact kinds_emit (by decide)
      · exact makes_bind fun _ _ => kinds_emit (by decide)
    exact ⟨['"'], .short '"', cs, rfl, .lineLiteral hhat,
      kind_of_kinds hliteral (by decide) hb.read ht⟩

/-- In the prologue of a query a reference stands where one is due. -/
theorem opening_prologue {q : Query.Sparql} (hq : q.progress.inBody = false)
    (hb : Begins (q.prologue (some kind)) k '<' cs t mid left) (ht : t.kind.isEnclosed = true) :
    (sparql q).Opening kind ('<' :: cs) t := by
  have e := hb.read
  unfold Query.Sparql.prologue at e
  rw [if_neg (by decide), if_pos (by decide)] at e
  split at e
  · rename_i hdue
    have hdue : kind = .baseDirective ∨ kind = .prefixName := by simpa using hdue
    exact ⟨['<'], .reference, cs, rfl, .declared hq hdue,
      kind_of_kinds kinds_reference (by decide) e ht⟩
  · cases e

theorem opening_csv (hb : Begins Table.Csv.dispatch k '"' cs t mid left)
    (ht : t.kind.isEnclosed = true) : csv.Opening kind ('"' :: cs) t := by
  have hfield : Makes (OfKind [.literal]) mid Table.Csv.quotedField := by
    refine makes_bind fun _ _ => makes_bind fun _ _ => makes_bind fun o _ => ?_
    split
    · exact kinds_emit (by decide)
    · split
      · exact kinds_emit (by decide)
      · exact makes_unexpectedCharacter _ _
  exact ⟨['"'], .field, cs, rfl, .field, kind_of_kinds hfield (by decide) hb.read ht⟩

theorem opening_tsv (hhat : kind ≠ .hatHat) (hc : c ∈ ['<', '"'])
    (hb : Begins (Table.Tsv.dispatch (some kind)) k c cs t mid left)
    (ht : t.kind.isEnclosed = true) : tsv.Opening kind (c :: cs) t := by
  simp only [List.mem_cons, List.not_mem_nil, or_false] at hc
  rcases hc with rfl | rfl
  · exact ⟨['<'], .reference, cs, rfl, .cellReference hhat,
      kind_of_kinds kinds_reference (by decide) hb.read ht⟩
  · have hliteral : Makes (OfKind [.literal]) mid Table.Tsv.literal :=
      makes_bind fun _ _ => makes_bind fun _ _ => kinds_emit (by decide)
    exact ⟨['"'], .cell, cs, rfl, .cellLiteral hhat,
      kind_of_kinds hliteral (by decide) hb.read ht⟩

/-- Whatever the format, a literal or a reference is read behind signs that open
one there, and a gap. -/
theorem opened_read (hp : k.previous = some kind) (e : m.read (some kind) k = .ok t left)
    (ht : t.kind.isEnclosed = true) :
    ∃ gap cs, k.ahead = gap ++ cs ∧ (∀ c ∈ gap, m.passes (some kind) c = true) ∧
      m.Opening kind cs t := by
  obtain ⟨gap, c, cs, mid, hk, hgap, hc, hb, he, htsv⟩ := sign_read e ht
  refine ⟨gap, c :: cs, hk, hgap, ?_⟩
  cases m with
  | lines format =>
    have he := he rfl
    simp only [expects, beq_eq_false_iff_ne, ne_eq, Option.some.injEq] at he
    exact opening_lines he hp hc hb ht
  | turtle rules =>
    have he := he rfl
    simp only [expects, Bool.or_eq_false_iff, beq_eq_false_iff_ne] at he
    exact (ReadsTurtle.turtle rules).opening ⟨he.1, he.2⟩ hc hb ht
  | n3 v =>
    have he := he rfl
    simp only [expects, Bool.or_eq_false_iff, beq_eq_false_iff_ne] at he
    exact (ReadsTurtle.n3 he.1.1).opening ⟨he.1.2, he.2⟩ hc hb ht
  | sparql q =>
    have he := he rfl
    simp only [expects, Bool.or_eq_false_iff, beq_eq_false_iff_ne] at he
    have hc : c ∈ if q.progress.inBody then ['<', '"', '\''] else ['<'] := hc
    cases hq : q.progress.inBody with
    | true =>
      rw [if_pos hq] at hc
      exact (ReadsTurtle.sparql hq).opening ⟨he.1, he.2⟩ hc hb ht
    | false =>
      rw [if_neg (by rw [hq]; decide)] at hc
      have hc := List.mem_singleton.1 hc
      subst hc
      have hread := hb.read
      rw [dispatch_prologue hq] at hread
      exact opening_prologue hq ⟨hread, hb.ahead, hb.previous⟩ ht
  | csv =>
    have hc := List.mem_singleton.1 hc
    subst hc
    exact opening_csv hb ht
  | tsv => exact opening_tsv (htsv rfl) hc hb ht

end Machine

/-- Where a call makes a literal or a reference, the signs of one stood behind a gap. -/
theorem Lexer.opened_next {l l' : Lexer} {t : Token} (e : l.next = (.ok t, l'))
    (ht : t.kind.isEnclosed = true) :
    ∃ kind gap cs, l.cursor.previous = some kind ∧ l.cursor.ahead = gap ++ cs ∧
      (∀ c ∈ gap, l.machine.passes (some kind) c = true) ∧ l.machine.Opening kind cs t := by
  rcases step_cases (Lexer.next_ok e).1 with ⟨-, rfl, -⟩ | ⟨-, rfl, -⟩ | ⟨hnone, -, e⟩
  · cases ht
  · cases ht
  · obtain ⟨kind, hp⟩ := Option.ne_none_iff_exists'.1 hnone
    rw [hp] at e
    obtain ⟨gap, cs, hk, hgap, hopening⟩ := Machine.opened_read (k := l.cursor.fresh) hp e ht
    exact ⟨kind, gap, cs, hp, hk, hgap, hopening⟩

end TripleLex

import TripleLex.Proofs.Included
import TripleLex.Proofs.WholeNames
import TripleLex.Proofs.WholeRuns

/-!
# Sub-languages

Whatever N-Triples makes of a text N-Quads makes of it too, Turtle makes it of
what N-Quads reads, and TriG of what Turtle reads.

Turtle reads the tokens of N-Quads by scanners of its own, which take more into a
blank node and into a number behind a dot. They would go further only where
N-Quads finds no token (`LineFormat.opens`), so that it matters here that the rest
of the text is read as well: behind a blank node and behind a dot the text goes on
(`LineFormat.GoesOn`) with a blank or with a character that no name and no number
holds.

## Main results

* `gathers_label`, `name_of_blankNode` — a blank node, taken by both scanners.
* `read_of_quads` — all tokens.
* `Lexer.sublanguages_agree` — whole texts.
-/

namespace TripleLex

open Scan

namespace Graph

variable {k : Cursor} {previous : Option Kind}

/-! ## What may follow -/

/-- No scanner of the recommendation takes the character into a name. -/
structure EndsName (c : Char) : Prop where
  backslash : c ≠ '\\'
  percent : c ≠ '%'
  scanned : Name.isScanned c = false

namespace LineFormat

/-- Whether a token of the line formats may begin with the character. -/
def opens (c : Char) : Bool :=
  c == '#' || c == '<' || c == '_' || c == '"' || c == '.' || c == '@' || c == '^'

/-- What follows a token, if a text of a line format goes on there. -/
def GoesOn (cs : List Char) : Prop :=
  ∀ c, cs.head? = some c → Unicode.isBlank c = true ∨ opens c = true

variable {format : LineFormat}

theorem opens_of_dispatch {c : Char} :
    Makes (fun _ => opens c = true) k (format.dispatch previous c) := by
  intro t left e
  unfold dispatch at e
  split at e
  · rfl
  · rfl
  · rfl
  · rfl
  · rfl
  · split at e
    · rename_i hat
      simp only [Bool.and_eq_true, beq_iff_eq] at hat
      rw [hat.1]
      rfl
    · split at e
      · rename_i hhat
        simp only [Bool.and_eq_true, beq_iff_eq] at hhat
        rw [hhat.1]
        rfl
      · cases e

/-- Where no blank comes first, the token begins at once. -/
theorem dispatch_of_read {kind : Kind} {c : Char} {t : Token} {left : Cursor}
    (hk : kind ≠ .hatHat) (hc : k.ahead.head? = some c) (hblank : Unicode.isBlank c = false)
    (e : format.read (some kind) k = .ok t left) :
    ∃ mid, mid.ahead = k.ahead ∧ format.dispatch (some kind) c mid = .ok t left := by
  rw [read_eq hk] at e
  obtain ⟨_, k₁, e₁, e⟩ := bind_ok e
  have hnone : k.ahead.takeWhile Unicode.isBlank = [] := by
    obtain ⟨cs, hcs⟩ := List.head?_eq_some_iff.1 hc
    rw [hcs, List.takeWhile_cons_of_neg (by rw [hblank]; exact nofun)]
  have hahead : k.ahead = k₁.ahead := by
    have hpasses := (discardBlank_ok e₁).1.ahead
    rwa [hnone] at hpasses
  rcases look_bind_ok e with ⟨k₂, r₂, hnil, -⟩ | ⟨d, k₂, r₂, hd, e⟩
  · rw [hahead, ← r₂.ahead_eq, hnil] at hc
    cases hc
  · rw [hahead, ← r₂.ahead_eq, hd] at hc
    cases hc
    exact ⟨k₂, r₂.ahead_eq.trans hahead.symm, e⟩

/-- Behind a token that does not ask for a datatype, the next one begins, or a
blank comes. -/
theorem goesOn_of_read {kind : Kind} {t : Token} {left : Cursor} (hk : kind ≠ .hatHat)
    (e : format.read (some kind) k = .ok t left) : GoesOn k.ahead := by
  intro c hc
  cases hblank : Unicode.isBlank c with
  | true => exact Or.inl rfl
  | false =>
    obtain ⟨mid, -, e⟩ := dispatch_of_read hk hc hblank e
    exact Or.inr (opens_of_dispatch t left e)

/-- A dot is a token by itself. -/
theorem dot_of_read {kind : Kind} {t : Token} {left : Cursor} {ds : List Char}
    (hk : kind ≠ .hatHat) (hds : k.ahead = '.' :: ds)
    (e : format.read (some kind) k = .ok t left) : t.kind = .dot ∧ left.ahead = ds := by
  obtain ⟨mid, hmid, e⟩ := dispatch_of_read (c := '.') hk (by rw [hds]; rfl) (by decide) e
  obtain ⟨_, k₁, e₁, e⟩ := bind_ok e
  rw [consume_cons (hmid.trans hds)] at e₁
  cases e₁
  cases e
  refine ⟨rfl, ?_⟩
  show (mid.moved '.').ahead = ds
  rw [mid.ahead_moved, hmid, hds]
  rfl

/-- Where the text goes on, a character that N-Quads does not take into a blank node
is not taken into one by Turtle. -/
theorem endsName {c : Char} (hc : Unicode.isBlank c = true ∨ opens c = true)
    (hlabel : (Name.isInner c || c == '.') = false) : EndsName c := by
  rcases hc with hc | hc
  · refine ⟨?_, ?_, ?_⟩
    · rintro rfl
      exact absurd hc (by decide)
    · rintro rfl
      exact absurd hc (by decide)
    · have hcolon : (c == ':') = false := by
        rw [beq_eq_false_iff_ne]
        rintro rfl
        exact absurd hc (by decide)
      rw [Bool.or_eq_false_iff] at hlabel
      rw [Name.isScanned, Unicode.not_isAlphanumeric_of_isBlank hc, hlabel.1, hlabel.2, hcolon]
      rfl
  · simp only [opens, Bool.or_eq_true, beq_iff_eq] at hc
    rcases hc with (((((rfl | rfl) | rfl) | rfl) | rfl) | rfl) | rfl
    all_goals first
      | exact absurd hlabel (by decide)
      | exact ⟨by decide, by decide, Name.isScanned_ascii (by decide)⟩

theorem not_isDigit {c : Char} (hc : Unicode.isBlank c = true ∨ opens c = true) :
    c.isDigit = false := by
  rw [← Bool.not_eq_true]
  intro hdigit
  rcases hc with hc | hc
  · have hscan : Unicode.isAlphanumeric c = true := by
      have hascii : c.toNat < 0x80 := by
        simp only [Char.isDigit, Bool.and_eq_true, decide_eq_true_eq, UInt32.le_iff_toNat_le]
          at hdigit
        have h9 : c.toNat ≤ 57 := hdigit.2
        omega
      rw [Unicode.isAlphanumeric_ascii hascii, Char.isAlphanum, hdigit, Bool.or_true]
    rw [Unicode.not_isAlphanumeric_of_isBlank hc] at hscan
    cases hscan
  · simp only [opens, Bool.or_eq_true, beq_iff_eq] at hc
    rcases hc with (((((rfl | rfl) | rfl) | rfl) | rfl) | rfl) | rfl <;> cases hdigit

end LineFormat

/-! ## Blank nodes -/

/-- A character that a scanner of names takes as it is. -/
theorem nameTurn_takes {seen : Bool} {c : Char} (hk : k.ahead.head? = some c)
    (hc : Name.isScanned c = true) :
    nameTurn .recommendation true seen k =
      (consume >>= fun _ => pure (Turn.again (seen || c == ':'))) k.looked := by
  have hb : c ≠ '\\' := Name.ne_of_isScanned (Name.isScanned_ascii (by decide)) hc
  have hp : c ≠ '%' := Name.ne_of_isScanned (Name.isScanned_ascii (by decide)) hc
  unfold nameTurn
  rw [bind_eq (look_eq k), hk]
  simp [hb, hp, hc]

/-- Where it stops. -/
theorem nameTurn_stops {seen : Bool} (hk : ∀ c, k.ahead.head? = some c → EndsName c) :
    nameTurn .recommendation true seen k = .ok (.done ()) k.looked := by
  unfold nameTurn
  rw [bind_eq (look_eq k)]
  cases hc : k.ahead.head? with
  | none => rfl
  | some c =>
    obtain ⟨hb, hp, hs⟩ := hk c hc
    simp [hb, hp, hs]
    rfl

/-- A turn of a run takes a character or is the last. -/
theorem consumeTurn_cases {p : Char → Bool} {u : Unit} {turn : Turn Unit Unit} {left : Cursor}
    (e : consumeTurn p u k = .ok turn left) :
    (turn = .done () ∧ left = k.looked) ∨ ∃ c d, turn = .again () ∧ k.ahead.head? = some c ∧
      p c = true ∧ consume k.looked = .ok d left := by
  unfold consumeTurn at e
  rw [bind_eq (look_eq k)] at e
  cases hc : k.ahead.head? with
  | none =>
    rw [hc] at e
    cases e
    exact Or.inl ⟨rfl, rfl⟩
  | some c =>
    rw [hc] at e
    dsimp only at e
    split at e
    · rename_i htakes
      obtain ⟨d, mid, e₁, e₂⟩ := bind_ok e
      cases e₂
      exact Or.inr ⟨c, d, rfl, rfl, htakes, e₁⟩
    · cases e
      exact Or.inl ⟨rfl, rfl⟩

/-- Behind the colon of a blank node Turtle takes the same run, if it stops where
the run ends. -/
theorem gathers_label {p : Char → Bool} (hp : ∀ c, p c = true → Name.isScanned c = true)
    {left : Cursor} (e : consumeWhile p k = .ok () left)
    (hstop : ∀ c, left.ahead.head? = some c → EndsName c) :
    iterate (nameTurn .recommendation true) (advances_nameTurn .recommendation true) true k =
      .ok () left := by
  unfold consumeWhile at e
  -- every turn but the last leaves less ahead
  generalize hn : k.ahead.length = n
  induction n using Nat.strongRecOn generalizing k with
  | ind n ih =>
    rw [iterate_eq]
    rcases iterate_cases e with e₁ | ⟨_, mid, e₁, e₂⟩
    · rcases consumeTurn_cases e₁ with ⟨-, hleft⟩ | ⟨_, _, hagain, -⟩
      · rw [hleft, k.ahead_looked] at hstop
        rw [bind_eq (nameTurn_stops hstop), hleft]
        rfl
      · cases hagain
    · rcases consumeTurn_cases e₁ with ⟨hdone, -⟩ | ⟨c, d, -, hc, htakes, e₃⟩
      · cases hdone
      · have hless := (advances_consumeTurn p () k _ mid e₁).2 trivial
        have hturn : nameTurn .recommendation true true k = .ok (.again true) mid := by
          rw [nameTurn_takes hc (hp c htakes), bind_eq e₃]
          rfl
        rw [bind_eq hturn]
        exact ih mid.ahead.length (by omega) e₂ rfl

/-- Without a backslash a dot at the end is bare. -/
theorem endsInBareDot_eq (h : '\\' ∉ k.written) :
    endsInBareDot k.written = k.endsWith '.' := by
  unfold endsInBareDot Cursor.endsWith
  split
  · simp_all
  · rename_i hw
    rw [hw]
    rfl
  · rename_i hno
    symm
    rw [beq_eq_false_iff_ne]
    intro hdot
    obtain ⟨w, hw⟩ := List.head?_eq_some_iff.1 hdot
    exact hno w hw

theorem nameToken?_of_blankNode {rule : Name.Rule} (h : Name.isBlankNode k.value = true) :
    nameToken? rule k = (emit .blankNode >>= fun t => pure (some t)) k := by
  unfold nameToken?
  rw [get_bind]
  generalize hv : k.value = word at h
  unfold Name.isBlankNode at h
  split at h
  · rename_i label
    cases label with
    | nil => cases h
    | cons c label => simp [Name.isBlankNode, h, List.isPrefixOf]
  · cases h

/-- The text goes on behind what was read, and also behind a dot that comes next. -/
structure LineFormat.GoesOnBehind (cs : List Char) : Prop where
  here : LineFormat.GoesOn cs
  dot : ∀ ds, cs = '.' :: ds → LineFormat.GoesOn ds

open LineFormat (GoesOnBehind)

/-- The run of a blank node has ended where the text goes on, once its dot was
given back. -/
theorem goesOn_of_settles {mid left : Cursor} (hs : Cursor.Settles mid left)
    (h : GoesOnBehind left.ahead) : LineFormat.GoesOn mid.ahead := by
  cases hs with
  | stays => exact h.here
  | gives w hp hw => exact h.dot _ (Cursor.ahead_givenBack hp '.' w)

/-- Turtle gathers what N-Quads takes into a blank node, if the text goes on where
that has ended. -/
theorem gatherName_of_label {k₁ k₂ k₃ left : Cursor} {c d : Char} (hw : k.source.IsWhole)
    (hb : k.Begun) (hunderscore : k.ahead.head? = some '_') (e₁ : consume k = .ok c k₁)
    (hcolon : k₁.ahead.head? = some ':') (e₂ : consume k₁.looked = .ok d k₂)
    (e₃ : consumeWhile (fun c => Name.isInner c || c == '.') k₂ = .ok () k₃)
    (e₄ : giveBackDot k₃ = .ok () left) (hgoes : LineFormat.GoesOn k₃.ahead) :
    gatherName .recommendation true k = .ok () left := by
  have hcolon' : k₁.looked.ahead.head? = some ':' := (congrArg _ k₁.ahead_looked).trans hcolon
  have r₁ := (consume_ok hunderscore (by decide) e₁).2.trans (nextIs_ok (nextIs_eq ':' k₁)).2
  have r₂ := r₁.trans (consume_ok hcolon' (by decide) e₂).2
  have r₃ := consumeWhile_ok (fun c h => LineFormat.not_isLineEnd_of_isLabel h) e₃
  have hfirst : nameTurn .recommendation true false k = .ok (.again false) k₁ := by
    rw [nameTurn_takes hunderscore (Name.isScanned_ascii (by decide)), Cursor.looked_of_whole hw,
      bind_eq e₁]
    rfl
  have hsecond : nameTurn .recommendation true false k₁ = .ok (.again true) k₂ := by
    rw [nameTurn_takes hcolon (Name.isScanned_ascii (by decide)), bind_eq e₂]
    rfl
  have hname : iterate (nameTurn .recommendation true)
      (advances_nameTurn .recommendation true) false k = .ok () k₃ := by
    rw [iterate_eq, bind_eq hfirst]
    dsimp only
    rw [iterate_eq, bind_eq hsecond]
    exact gathers_label (fun c => Name.isScanned_of_plain) e₃ fun c hc =>
      LineFormat.endsName (hgoes c hc) (not_of_run r₃ hc)
  have hbare : '\\' ∉ k₃.written := by
    rw [(r₂.trans r₃).written, hb.written, List.append_nil, List.mem_reverse, List.mem_append]
    rintro (hmem | hmem)
    · exact absurd hmem (by decide)
    · exact absurd (List.all_eq_true.1 List.all_takeWhile _ hmem) (by decide)
  unfold gatherName
  rw [bind_eq hname, get_bind, endsInBareDot_eq hbare]
  exact e₄

theorem name_of_blankNode {t : Token} {left : Cursor} (hw : k.source.IsWhole) (hb : k.Begun)
    (hc : k.ahead.head? = some '_') (e : LineFormat.blankNode .quads k = .ok t left)
    (h : t.kind = .blankNode → GoesOnBehind left.ahead) : Turtle.plain.name k = .ok t left := by
  unfold LineFormat.blankNode at e
  rw [bind_eq LineFormat.checkGraph_quads] at e
  obtain ⟨_, k₁, e₁, e⟩ := bind_ok e
  rw [bind_eq (nextIs_eq ':' k₁)] at e
  split at e
  · obtain ⟨_, _, -, e⟩ := bind_ok e
    cases e
  · rename_i hcolon
    have hcolon : k₁.ahead.head? = some ':' := by simpa using hcolon
    obtain ⟨_, k₂, e₂, e⟩ := bind_ok e
    obtain ⟨_, k₃, e₃, e⟩ := bind_ok e
    obtain ⟨_, k₄, e₄, e⟩ := bind_ok e
    rw [get_bind] at e
    split at e
    · rename_i hnode
      have hgoes : GoesOnBehind k₄.ahead := by
        cases e
        exact h rfl
      have hgather : gatherName .recommendation true k = .ok () k₄ :=
        gatherName_of_label hw hb hc e₁ hcolon e₂ e₃ e₄
          (goesOn_of_settles (giveBackDot_ok e₄) hgoes)
      have htoken : nameToken? .recommendation k₄ = .ok (some t) left := by
        rw [nameToken?_of_blankNode hnode, bind_eq e]
        rfl
      exact (bind_eq hgather).trans (bind_eq htoken)
    · cases e

/-! ## The other tokens -/

/-- A dot that no digit follows begins no number. -/
theorem dotOrNumber_of_dot {t : Token} {left : Cursor} {readNumber : Scan Token}
    (hw : k.source.IsWhole) (e : single .dot k = .ok t left)
    (h : t.kind = .dot → LineFormat.GoesOn left.ahead) :
    dotOrNumber readNumber k = .ok t left := by
  obtain ⟨_, k₁, e₁, e⟩ := bind_ok e
  have hgoes : LineFormat.GoesOn k₁.ahead := by
    cases e
    exact h rfl
  unfold dotOrNumber
  rw [bind_eq e₁, look_bind_whole (whole_consume hw e₁)]
  cases hc : k₁.ahead.head? with
  | none => exact e
  | some c =>
    have hdigit : c.isDigit = false := LineFormat.not_isDigit (hgoes c hc)
    dsimp only
    rw [hdigit]
    exact e

/-- Behind a quotation mark, where N-Quads has no long literals. -/
theorem included_literal (hc : k.ahead.head? = some '"') :
    Included k LineFormat.literal (Scan.literal .refused) := by
  obtain ⟨cs, hcs⟩ := List.head?_eq_some_iff.1 hc
  intro t left e
  unfold LineFormat.literal at e
  unfold Scan.literal
  rw [bind_eq (skip_cons hcs)] at e ⊢
  refine included_bind (fun found mid => included_ite ?_ included_refl) t left e
  refine included_bind fun _ _ => included_bind fun _ _ => included_ite ?_ included_refl
  exact included_of_fails (makes_violation _)

theorem included_datatype {rule : Name.Rule} :
    Included k LineFormat.datatype (Scan.datatype rule) := by
  refine included_bind fun _ _ => included_bind fun c _ => ?_
  cases c with
  | none => exact included_refl
  | some c => exact included_ite included_refl (included_of_fails (makes_unexpectedCharacter _ _))

/-- A reference goes on with a character that is no blank. -/
theorem head?_of_referenceTurn {u : Unit} {turn : Turn Unit Unit} {left : Cursor}
    (e : referenceTurn u k = .ok turn left) : k.ahead.head?.all Unicode.isBlank = false := by
  unfold referenceTurn at e
  rw [bind_eq (look_eq k)] at e
  cases hc : k.ahead.head? with
  | none =>
    rw [hc] at e
    exact absurd e unexpectedEnd_ne_ok
  | some c =>
    rw [hc] at e
    dsimp only at e
    split at e
    · rename_i hclose
      rw [beq_iff_eq] at hclose
      rw [hclose]
      rfl
    · split at e
      · rename_i hescape
        rw [beq_iff_eq] at hescape
        rw [hescape]
        rfl
      · split at e
        · cases e
        · split at e
          · cases e
          · rename_i hblank
            simpa using hblank

theorem head?_of_referenceBody {left : Cursor} {u : Unit} (e : referenceBody k = .ok u left) :
    k.ahead.head?.all Unicode.isBlank = false := by
  rcases iterate_cases e with e | ⟨_, _, e, -⟩
  · exact head?_of_referenceTurn e
  · exact head?_of_referenceTurn e

/-- The sign of an equation is taken into a reference, which goes on behind it. -/
theorem referenceBody_of_equals {left : Cursor} {u : Unit} (hw : k.source.IsWhole)
    (hc : k.ahead.head? = some '=') (e : referenceBody k = .ok u left) :
    ∃ d mid, consume k = .ok d mid ∧ referenceBody mid = .ok u left := by
  have hturn : referenceTurn () k = (consume >>= fun _ => pure (.again ())) k := by
    unfold referenceTurn
    rw [look_bind_whole hw, hc]
    rfl
  rcases iterate_cases e with e₁ | ⟨_, mid, e₁, e₂⟩
  · rw [hturn] at e₁
    obtain ⟨_, _, -, e₁⟩ := bind_ok e₁
    cases e₁
  · rw [hturn] at e₁
    obtain ⟨d, mid', e₃, e₄⟩ := bind_ok e₁
    cases e₄
    exact ⟨d, mid, e₃, e₂⟩

theorem included_reference (hw : k.source.IsWhole) (hc : k.ahead.head? = some '<') :
    Included k reference Turtle.plain.referenceOrArrow := by
  intro t left e
  obtain ⟨cs, hcs⟩ := List.head?_eq_some_iff.1 hc
  have hw₁ : (k.moved '<').source.IsWhole := Cursor.whole_taken hw
  unfold reference at e
  unfold Turtle.referenceOrArrow
  rw [bind_eq (skip_cons hcs)] at e ⊢
  rw [bind_eq (nextIs_eq '=' _), Cursor.looked_of_whole hw₁]
  split
  · rename_i hequals
    obtain ⟨_, k₁, e₁, e⟩ := bind_ok e
    obtain ⟨d, mid, e₂, e₃⟩ := referenceBody_of_equals hw₁ (beq_iff_eq.1 hequals) e₁
    rw [bind_eq e₂, look_bind_whole (whole_consume hw₁ e₂), head?_of_referenceBody e₃]
    exact (bind_eq e₃).trans e
  · exact e

/-- An annotation stands behind a literal. -/
theorem previous_of_annotation {format : LineFormat} {c : Char} {t : Token} {left : Cursor}
    (hc : c = '@' ∨ c = '^') (e : format.dispatch previous c k = .ok t left) :
    previous = some .literal := by
  refine Classical.byContradiction fun hp => ?_
  have hnot : (previous == some .literal) = false := beq_eq_false_iff_ne.2 hp
  have hdispatch : format.dispatch previous c =
      unexpectedCharacter c "the start of an NTriples token" := by
    rcases hc with rfl | rfl <;> simp [LineFormat.dispatch, hnot]
  rw [hdispatch] at e
  exact makes_unexpectedCharacter (P := Never) _ _ t left e

/-! ## All of them -/

/-- What N-Quads reads at a character Turtle reads there too, if the text goes on
behind a blank node or a dot. -/
theorem dispatch_of_quads {c : Char} {t : Token} {left : Cursor} (hw : k.source.IsWhole)
    (hb : k.Begun) (hc : k.ahead.head? = some c)
    (e : LineFormat.dispatch .quads previous c k = .ok t left)
    (h : t.kind = .blankNode ∨ t.kind = .dot → GoesOnBehind left.ahead) :
    Turtle.plain.dispatch previous c k = .ok t left := by
  have hopens := LineFormat.opens_of_dispatch t left e
  simp only [LineFormat.opens, Bool.or_eq_true, beq_iff_eq] at hopens
  rcases hopens with (((((rfl | rfl) | rfl) | rfl) | rfl) | rfl) | rfl
  · exact e
  · exact included_reference hw hc t left ((bind_eq LineFormat.checkGraph_quads).symm.trans e)
  · exact name_of_blankNode hw hb hc e fun hk => h (Or.inl hk)
  · exact included_literal hc t left e
  · exact dotOrNumber_of_dot hw e fun hk => (h (Or.inr hk)).here
  · obtain rfl := previous_of_annotation (Or.inl rfl) e
    exact e
  · obtain rfl := previous_of_annotation (Or.inr rfl) e
    exact e

theorem read_of_quads {kind : Kind} {t : Token} {left : Cursor} (hw : k.source.IsWhole)
    (hd : kind ≠ .prefixDirective) (e : LineFormat.read .quads (some kind) k = .ok t left)
    (h : t.kind = .blankNode ∨ t.kind = .dot → GoesOnBehind left.ahead) :
    Turtle.plain.read (some kind) k = .ok t left := by
  by_cases hk : kind = .hatHat
  · rw [hk] at e ⊢
    exact included_datatype t left e
  · rw [LineFormat.read_eq hk] at e
    rw [Turtle.read_eq hk hd]
    obtain ⟨mid, e₁, -, hb, -, hmid, -⟩ := discardBlank_whole hw
    rw [bind_eq e₁] at e ⊢
    unfold tokenHere at e ⊢
    rw [look_bind_whole hmid] at e ⊢
    cases hc : mid.ahead.head? with
    | none =>
      rw [hc] at e
      exact e
    | some c =>
      rw [hc] at e
      exact dispatch_of_quads hmid hb hc e h

end Graph

/-! ## The three inclusions -/

namespace Lexer

open TripleLex.Graph (LineFormat Turtle)
open TripleLex.Graph.LineFormat (GoesOn GoesOnBehind)

variable {k : Cursor} {ts : List Token}

section LineFormats

variable {format : LineFormat} {kind : Kind}

/-- A text that is read to its end goes on behind every token. -/
theorem goesOn_of_run (hp : k.previous = some kind) (hend : kind ≠ .ending) (hk : kind ≠ .hatHat)
    (hrun : (⟨.lines format, k⟩ : Lexer).run = .ok ts) : GoesOn k.ahead := by
  obtain ⟨t, l₁, vs, e, -, -⟩ := run_cases hrun
  have hread : format.read (some kind) k.fresh = .ok t l₁.cursor := read_of_next e hp hend
  have hgoes : GoesOn k.fresh.ahead := Graph.LineFormat.goesOn_of_read hk hread
  exact hgoes

theorem goesOnBehind_of_run (hp : k.previous = some kind) (hend : kind ≠ .ending)
    (hk : kind ≠ .hatHat) (hrun : (⟨.lines format, k⟩ : Lexer).run = .ok ts) :
    GoesOnBehind k.ahead where
  here := goesOn_of_run hp hend hk hrun
  dot ds hds := by
    obtain ⟨t, l₁, vs, e, -, hcases⟩ := run_cases hrun
    have hread : format.read (some kind) k.fresh = .ok t l₁.cursor := read_of_next e hp hend
    obtain ⟨hdot, hahead⟩ := Graph.LineFormat.dot_of_read (k := k.fresh) hk hds hread
    have hprevious := previous_of_next e (ne_ending_of_previous hp hend)
    rw [hdot] at hprevious
    rcases hcases with ⟨hending, -⟩ | ⟨-, hrun₁⟩
    · rw [hdot] at hending
      cases hending
    · have hl : l₁ = ⟨.lines format, l₁.cursor⟩ := by
        rw [← show l₁.machine = .lines format from (next_ok e).2]
      rw [hl] at hrun₁
      exact hahead ▸ goesOn_of_run hprevious nofun nofun hrun₁

end LineFormats

/-- A cursor inside of a text that is read by a line format. -/
structure Inside (k : Cursor) : Prop where
  whole : k.source.IsWhole
  previous : k.previous ≠ some .prefixDirective
  unended : k.previous ≠ some .ending

theorem whole_of_next {l l₁ : Lexer} {t : Token} (hm : l.machine.hasComments = true)
    (hw : l.cursor.source.IsWhole) (hne : l.cursor.previous ≠ some .ending)
    (e : l.next = (.ok t, l₁)) : l₁.cursor.source.IsWhole := by
  -- a lexer goes on in step with itself
  have hself : l.Abreast [] [] l :=
    ⟨rfl, rfl, ⟨_, (List.append_nil _).symm, (List.append_nil _).symm⟩, rfl, rfl, Or.inl rfl, hw,
      Or.inl rfl⟩
  rcases next_abreast hm hself hne e (Nat.zero_le _) (fun _ => rfl) with
    ⟨t', l₁', e', -, h₁⟩ | ⟨hedge, -⟩
  · rw [e] at e'
    cases e'
    exact h₁.cursor.whole
  · exact absurd rfl hedge.parted

theorem Inside.next {format : LineFormat} {l₁ : Lexer} {t : Token} (h : Inside k)
    (e : (⟨.lines format, k⟩ : Lexer).next = (.ok t, l₁)) (ht : t.kind ≠ .ending) :
    Inside l₁.cursor := by
  have hprevious := previous_of_next e h.unended
  refine ⟨whole_of_next rfl h.whole h.unended e, ?_, ?_⟩
  · rw [hprevious]
    exact (suits_next e h.previous).admits
  · rw [hprevious]
    exact fun hk => ht (Option.some.inj hk)

theorem run_triples (h : (⟨.lines .triples, k⟩ : Lexer).run = .ok ts) :
    (⟨.lines .quads, k⟩ : Lexer).run = .ok ts :=
  run_of_read_included (fun _ => rfl) (fun _ => rfl) (fun _ _ => LineFormat.included_read) h

theorem run_quads (hk : Inside k) (h : (⟨.lines .quads, k⟩ : Lexer).run = .ok ts) :
    (⟨.turtle .plain, k⟩ : Lexer).run = .ok ts := by
  refine run_included (I := Inside) (fun _ => rfl) (fun _ => rfl) Inside.next ?_ hk h
  intro k t kind left hk hp hne e hrest
  have hd : kind ≠ .prefixDirective := fun hd => hk.previous (hp.trans (congrArg some hd))
  refine Graph.read_of_quads hk.whole hd e fun hkind => ?_
  have hnext : (⟨.lines .quads, k⟩ : Lexer).next = (.ok t, ⟨.lines .quads, left⟩) :=
    next_of_read hp hne e
  have hprevious := previous_of_next hnext hk.unended
  have hopen : t.kind ≠ .ending ∧ t.kind ≠ .hatHat := by
    rcases hkind with hkind | hkind <;> rw [hkind] <;> exact ⟨nofun, nofun⟩
  obtain ⟨us, hrun⟩ := hrest hopen.1
  exact goesOnBehind_of_run hprevious hopen.1 hopen.2 hrun

theorem run_turtle (h : (⟨.turtle .plain, k⟩ : Lexer).run = .ok ts) :
    (⟨.turtle .withGraphs, k⟩ : Lexer).run = .ok ts :=
  run_of_read_included (fun _ => rfl) (fun _ => rfl) (fun _ _ => Turtle.included_read) h

theorem inside_ofText (s : Settings) (text : String) : Inside (ofText s text).cursor :=
  ⟨Input.Source.isWhole_ofText text, nofun, nofun⟩

/-- What N-Triples tokenises, N-Quads tokenises to the same; what N-Quads does,
recommended Turtle does; and what recommended Turtle does, recommended TriG does.
Levels of the query language do not matter here, nor does a dialect to the line
formats. -/
theorem sublanguages_agree (level level' : Query.Level) (dialect dialect' : Graph.Dialect)
    (text : String) (ts : List Token) :
    ((ofText ⟨.nTriples, level, dialect⟩ text).run = .ok ts →
      (ofText ⟨.nQuads, level', dialect'⟩ text).run = .ok ts) ∧
    ((ofText ⟨.nQuads, level, dialect⟩ text).run = .ok ts →
      (ofText ⟨.turtle, level', .recommendation⟩ text).run = .ok ts) ∧
    ((ofText ⟨.turtle, level, .recommendation⟩ text).run = .ok ts →
      (ofText ⟨.triG, level', .recommendation⟩ text).run = .ok ts) :=
  ⟨run_triples, run_quads (inside_ofText ⟨.nQuads, level, dialect⟩ text), run_turtle⟩

/-- A label with a dot in it, and a dot that ends the statement. -/
theorem sublanguages_agree_label :
    let ts : List Token := [.beginning, ⟨.blankNode, "_:a.b", ⟨1, 1, 1, 5⟩⟩,
      ⟨.dot, ".", ⟨1, 1, 6, 6⟩⟩, ⟨.ending, "", ⟨1, 1, 7, 7⟩⟩]
    (ofText ⟨.nTriples, .sparql11, .recommendation⟩ "_:a.b.").run = .ok ts ∧
      (ofText ⟨.nQuads, .sparql11, .recommendation⟩ "_:a.b.").run = .ok ts ∧
      (ofText ⟨.turtle, .sparql11, .recommendation⟩ "_:a.b.").run = .ok ts ∧
      (ofText ⟨.triG, .sparql11, .recommendation⟩ "_:a.b.").run = .ok ts := by
  intro ts
  have hagree := sublanguages_agree .sparql11 .sparql11 .recommendation .recommendation
    "_:a.b." ts
  have htriples : (ofText ⟨.nTriples, .sparql11, .recommendation⟩ "_:a.b.").run = .ok ts :=
    run_of_toOption (by decide)
  have hquads := hagree.1 htriples
  have hturtle := hagree.2.1 hquads
  exact ⟨htriples, hquads, hturtle, hagree.2.2 hturtle⟩

end Lexer

end TripleLex

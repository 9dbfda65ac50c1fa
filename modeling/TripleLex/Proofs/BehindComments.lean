import TripleLex.Proofs.MirroredMachines
import TripleLex.Proofs.Neighbours

/-!
# Behind a comment

A comment takes the place of the token before it as the neighbour of the next
one. That matters where a machine asks for the kind of the token before:
annotations stand behind quoted literals, a datatype and a prefix where they are
due, a base behind its directive in a query's prologue, and the star of a
projection behind its keyword. Tokens of those kinds hang on their neighbour
(`Machine.attaches`); every other one is read behind a comment as it would be
without it.

## Main results

* `Machine.read_commented` — a token is read behind a comment as without it.
* `Machine.read_comment` — a comment is read whatever the token before.
* `Machine.read_behind_blanks` — blank characters do not matter.
-/

namespace TripleLex

open Scan
open Cursor (Abreast AtEdge)

namespace Scan

theorem makes_languageTag {k : Cursor} : Makes (fun t => t.kind = .languageTag) k languageTag := by
  refine makes_bind fun _ _ => makes_bind fun _ _ => makes_get ?_
  split
  · exact makes_unexpectedNext _
  · split
    · exact makes_emit rfl
    · exact makes_invalidForm _ _

theorem makes_hatHat {k : Cursor} : Makes (fun t => t.kind = .hatHat) k hatHat := by
  refine makes_bind fun _ _ => makes_bind fun c _ => ?_
  split
  · exact makes_unexpectedEnd _
  · split
    · exact makes_bind fun _ _ => makes_emit rfl
    · exact makes_unexpectedCharacter _ _

end Scan

namespace Graph.LineFormat

variable {format : LineFormat} {previous : Option Kind} {k left : Cursor} {t : Token} {c : Char}

/-- Two characters alone are read by the token before. -/
theorem dispatch_of_ne (hs : c ≠ '@') (hc : c ≠ '^') (previous' : Option Kind) :
    format.dispatch previous c = format.dispatch previous' c := by
  have hs : (c == '@') = false := beq_eq_false_iff_ne.2 hs
  have hc : (c == '^') = false := beq_eq_false_iff_ne.2 hc
  unfold dispatch
  split
  all_goals try rfl
  rw [hs, hc]
  rfl

/-- A token behind a literal is read behind a comment too, unless it belongs to
the literal. -/
theorem dispatch_commented (ht : t.kind ≠ .languageTag) (hh : t.kind ≠ .hatHat)
    (e : format.dispatch previous c k = .ok t left) :
    format.dispatch (some .comment) c k = .ok t left := by
  by_cases hs : c = '@'
  · subst hs
    cases hp : previous == some .literal with
    | true =>
      rw [beq_iff_eq.1 hp] at e
      exact absurd (makes_languageTag t left e) ht
    | false =>
      unfold dispatch at e
      simp only [hp] at e
      cases e
  · by_cases hc : c = '^'
    · subst hc
      cases hp : previous == some .literal with
      | true =>
        rw [beq_iff_eq.1 hp] at e
        exact absurd (makes_hatHat t left e) hh
      | false =>
        unfold dispatch at e
        simp only [hp] at e
        cases e
    · rw [dispatch_of_ne hs hc previous]
      exact e

/-- A datatype is a reference. -/
theorem datatype_ne_ok (hless : c ≠ '<')
    (hc : (k.ahead.dropWhile Unicode.isBlank).head? = some c) : datatype k ≠ .ok t left := by
  intro e
  obtain ⟨_, k₁, e₁, e⟩ := bind_ok e
  have hc₁ := head?_dropWhile_blank (discardBlank_ok e₁).1 hc
  rcases look_bind_ok e with ⟨k₂, r₂, -, e⟩ | ⟨d, k₂, r₂, hc₂, e⟩
  · exact absurd e unexpectedEnd_ne_ok
  · rw [r₂.ahead_eq, hc₁] at hc₂
    cases hc₂
    dsimp only at e
    rw [if_neg (fun h => hless (beq_iff_eq.1 h))] at e
    cases e

end Graph.LineFormat

namespace Graph.Turtle

variable {rules : Turtle} {previous : Option Kind} {k left : Cursor} {t : Token} {c : Char}

theorem dispatch_of_ne (hs : c ≠ '@') (hc : c ≠ '^') (previous' : Option Kind) :
    rules.dispatch previous c = rules.dispatch previous' c := by
  unfold dispatch
  split
  all_goals first
    | rfl
    | contradiction

theorem dispatch_commented (ht : t.kind ≠ .languageTag) (hh : t.kind ≠ .hatHat)
    (e : rules.dispatch previous c k = .ok t left) :
    rules.dispatch (some .comment) c k = .ok t left := by
  by_cases hs : c = '@'
  · subst hs
    have e : rules.tagOrDirective previous k = .ok t left := e
    show rules.directive k = .ok t left
    unfold tagOrDirective at e
    split at e
    · exact absurd (makes_languageTag t left e) ht
    · split at e
      · cases e
      · exact e
  · by_cases hc : c = '^'
    · subst hc
      have e : hat previous '^' k = .ok t left := e
      unfold hat at e
      split at e
      · exact absurd (makes_hatHat t left e) hh
      · split at e
        · cases e
        · cases e
    · rw [dispatch_of_ne hs hc previous]
      exact e

end Graph.Turtle

namespace Graph.Notation3

variable {v : Vocabulary} {previous : Option Kind} {k left : Cursor} {t : Token} {c : Char}

theorem dispatch_of_ne (hs : c ≠ '@') (hc : c ≠ '^') (previous' : Option Kind) :
    dispatch v previous c = dispatch v previous' c := by
  unfold dispatch
  split
  all_goals first
    | rfl
    | contradiction

theorem dispatch_commented (ht : t.kind ≠ .languageTag) (hh : t.kind ≠ .hatHat)
    (e : dispatch v previous c k = .ok t left) :
    dispatch v (some .comment) c k = .ok t left := by
  by_cases hs : c = '@'
  · subst hs
    show directive v k = .ok t left
    have e : (if previous.any Kind.isQuoted then languageTag else directive v) k = .ok t left := e
    split at e
    · exact absurd (makes_languageTag t left e) ht
    · exact e
  · by_cases hc : c = '^'
    · subst hc
      have e : hat previous k = .ok t left := e
      show hat (some .comment) k = .ok t left
      unfold hat at e ⊢
      split at e
      · exact absurd (makes_hatHat t left e) hh
      · exact e
    · rw [dispatch_of_ne hs hc previous]
      exact e

end Graph.Notation3

namespace Query.Sparql

variable {q : Sparql} {previous : Option Kind} {k left : Cursor} {t : Token} {c : Char}

/-- Three characters alone are read by the token before. -/
theorem body_of_ne (hs : c ≠ '@') (hc : c ≠ '^') (hstar : c ≠ '*') (previous' : Option Kind) :
    q.body previous c = q.body previous' c := by
  have hs : (c == '@') = false := beq_eq_false_iff_ne.2 hs
  unfold body
  split
  all_goals first
    | rfl
    | contradiction
    | skip
  rw [hs]
  rfl

theorem body_commented (ht : t.kind ≠ .languageTag) (hh : t.kind ≠ .hatHat)
    (ha : t.kind ≠ .allColumns) (e : q.body previous c k = .ok t left) :
    q.body (some .comment) c k = .ok t left := by
  by_cases hs : c = '@'
  · subst hs
    cases hp : previous.any Kind.isQuoted with
    | true =>
      unfold body at e
      simp only [hp] at e
      exact absurd (makes_languageTag t left e) ht
    | false =>
      unfold body at e ⊢
      simp only [hp] at e
      exact e
  · by_cases hc : c = '^'
    · subst hc
      have e : hat previous k = .ok t left := e
      show hat (some .comment) k = .ok t left
      obtain ⟨_, k₁, e₁, e⟩ := bind_ok e
      obtain ⟨found, k₂, e₂, e⟩ := bind_ok e
      unfold hat
      rw [bind_eq e₁, bind_eq e₂]
      cases found with
      | false => exact e
      | true =>
        rw [if_pos rfl] at e
        split at e
        · obtain ⟨_, k₃, -, e⟩ := bind_ok e
          exact absurd (emit_ok e).1 hh
        · cases e
    · by_cases hstar : c = '*'
      · subst hstar
        have e : single (starKind previous) k = .ok t left := e
        show single .multiply k = .ok t left
        rcases starKind_cases previous with hk | hk
        · rw [hk] at e
          obtain ⟨_, k₁, -, e⟩ := bind_ok e
          exact absurd (emit_ok e).1 ha
        · rw [hk] at e
          exact e
      · rw [body_of_ne hs hc hstar previous]
        exact e

/-- A reference stands behind the directive of a base or a prefix. -/
theorem prologue_commented (hu : t.kind ≠ .uri) (e : q.prologue previous c k = .ok t left) :
    q.prologue (some .comment) c k = .ok t left := by
  unfold prologue at e ⊢
  split at e
  · rw [if_pos ‹_›]
    exact e
  · rw [if_neg ‹_›]
    split at e
    · split at e
      · obtain ⟨_, k₁, -, e⟩ := bind_ok e
        obtain ⟨_, k₂, -, e⟩ := bind_ok e
        exact absurd (emit_ok e).1 hu
      · cases e
    · rw [if_neg ‹_›]
      exact e

theorem prologueWord_not_uri {word : List Char} :
    Makes (fun t => t.kind ≠ .uri) k (q.prologueWord word) := by
  unfold prologueWord
  split
  · unfold base
    split
    · exact makes_violation _
    · exact makes_emit nofun
  · split
    · exact makes_emit nofun
    · split
      · split
        · exact makes_bind fun _ _ => makes_emit nofun
        · exact makes_violation _
      · exact makes_violation _

/-- A reference does not stand behind a comment, nor does it begin a query. -/
theorem prologue_not_uri (hp : previous = some .comment ∨ previous = some .beginning) :
    Makes (fun t => t.kind ≠ .uri) k (q.prologue previous c) := by
  unfold prologue
  split
  · exact makes_bind fun _ _ => makes_emit nofun
  · split
    · have hout : ¬ (previous == some .baseDirective || previous == some .prefixName) = true := by
        rcases hp with rfl | rfl <;> decide
      rw [if_neg hout]
      exact makes_unexpectedCharacter _ _
    · refine makes_bind fun _ k₁ => makes_get ?_
      split
      · exact makes_unexpectedCharacter _ _
      · exact prologueWord_not_uri

end Query.Sparql

namespace Machine

/-- Whether a token of the kind is read for what it is only behind one of a certain
other kind. -/
def attaches : Machine → Kind → Bool
  | sparql query, .uri => !query.progress.inBody
  | _, .languageTag | _, .hatHat | _, .datatype | _, .prefixName | _, .allColumns => true
  | _, _ => false

variable {m : Machine} {previous : Option Kind} {k left : Cursor} {t : Token} {c : Char}

theorem attaches_eq_false_iff {kind : Kind} : m.attaches kind = false ↔
    (kind ≠ .languageTag ∧ kind ≠ .hatHat ∧ kind ≠ .datatype ∧ kind ≠ .prefixName ∧
      kind ≠ .allColumns) ∧
      ∀ query, m = sparql query → kind = .uri → query.progress.inBody = true := by
  constructor
  · intro h
    refine ⟨⟨?_, ?_, ?_, ?_, ?_⟩, ?uri⟩
    case uri =>
      rintro query rfl rfl
      simpa [attaches] using h
    all_goals
      rintro rfl
      cases m <;> cases h
  · rintro ⟨⟨htag, hhat, hdatatype, hprefix, hall⟩, huri⟩
    unfold attaches
    split
    · rw [huri _ rfl rfl]
      rfl
    · exact absurd rfl htag
    · exact absurd rfl hhat
    · exact absurd rfl hdatatype
    · exact absurd rfl hprefix
    · exact absurd rfl hall
    · rfl

/-- Comments and the two marks hang on nothing. -/
theorem attaches_idle {kind : Kind} (h : kind = .comment ∨ kind = .beginning ∨ kind = .ending) :
    m.attaches kind = false := by
  rcases h with rfl | rfl | rfl <;> cases m <;> rfl

theorem dispatch_commented (hm : m.hasComments = true) (ha : m.attaches t.kind = false)
    (e : m.dispatch previous c k = .ok t left) :
    m.dispatch (some .comment) c k = .ok t left := by
  obtain ⟨⟨ht, hh, -, -, hall⟩, huri⟩ := attaches_eq_false_iff.1 ha
  cases m with
  | lines format => exact Graph.LineFormat.dispatch_commented ht hh e
  | turtle rules => exact Graph.Turtle.dispatch_commented ht hh e
  | n3 vocabulary => exact Graph.Notation3.dispatch_commented ht hh e
  | sparql query =>
    unfold dispatch at e ⊢
    dsimp only at e ⊢
    split at e
    · rw [if_pos ‹_›]
      exact Query.Sparql.body_commented ht hh hall e
    · rename_i hbody
      rw [if_neg hbody]
      exact Query.Sparql.prologue_commented (fun hu => hbody (huri _ rfl hu)) e
  | csv => cases hm
  | tsv => cases hm

/-- What is due, outside of a declaration, is a datatype or a prefix. -/
theorem due_of_expects (hm : m.hasComments = true)
    (hv : ∀ vocabulary, m = n3 vocabulary → vocabulary.isReading = false)
    (he : m.expects previous = true) :
    (previous = some .hatHat ∨ previous = some .prefixDirective) ∧ m.Admits previous := by
  cases m with
  | lines format =>
    obtain rfl : previous = some .hatHat := beq_iff_eq.1 he
    have hne : some Kind.hatHat ≠ some .prefixDirective := by decide
    exact ⟨Or.inl rfl, hne⟩
  | turtle rules =>
    simp only [expects, Bool.or_eq_true, beq_iff_eq] at he
    exact ⟨he, trivial⟩
  | n3 vocabulary =>
    have hreading := hv vocabulary rfl
    simp only [expects, hreading, Bool.false_or, Bool.or_eq_true, beq_iff_eq] at he
    exact ⟨he, fun hr => absurd (hreading.symm.trans hr) Bool.false_ne_true⟩
  | sparql query =>
    simp only [expects, Bool.or_eq_true, beq_iff_eq] at he
    exact ⟨he, trivial⟩
  | csv => cases hm
  | tsv => cases hm

/-- What is due hangs on what announced it. -/
theorem attaches_of_expects (hm : m.hasComments = true)
    (hv : ∀ vocabulary, m = n3 vocabulary → vocabulary.isReading = false)
    (he : m.expects previous = true) (e : m.read previous k = .ok t left) :
    m.attaches t.kind = true := by
  have hdue := due_of_expects hm hv he
  have hfollows := (suits_read hdue.2 t left e).follows
  rcases hdue.1 with rfl | rfl
  · rw [hfollows.typed.2 rfl]
    cases m <;> rfl
  · rw [hfollows.announced.2 rfl]
    cases m <;> rfl

/-- What hangs on the token before stands neither behind a comment nor at the
beginning. -/
theorem not_attaches_of_idle (hm : m.hasComments = true)
    (hv : ∀ vocabulary, m = n3 vocabulary → vocabulary.isReading = false)
    (hp : previous = some .comment ∨ previous = some .beginning)
    (e : m.read previous k = .ok t left) : m.attaches t.kind = false := by
  have hopen : Kind.Open previous := by rcases hp with rfl | rfl <;> exact ⟨nofun, nofun⟩
  have hunquoted : ¬ (previous = some .literal ∨ previous = some .longLiteral) := by
    rcases hp with rfl | rfl <;> decide
  have hunprojected : ¬ Kind.IsProjection previous := by
    rcases hp with rfl | rfl <;> simp [Kind.IsProjection]
  have hadmits : m.Admits previous := by
    cases m with
    | lines format => exact hopen.unannounced
    | n3 vocabulary => exact fun _ => hopen
    | csv => exact hopen
    | tsv => exact hopen.unannounced
    | turtle rules => trivial
    | sparql query => trivial
  have hfollows := (suits_read hadmits t left e).follows
  refine attaches_eq_false_iff.2 ⟨⟨?_, ?_, ?_, ?_, ?_⟩, ?_⟩
  · exact fun h => hunquoted (hfollows.annotates (Or.inl h))
  · exact fun h => hunquoted (hfollows.annotates (Or.inr h))
  · exact fun h => hopen.untyped (hfollows.typed.1 h)
  · exact fun h => hopen.unannounced (hfollows.announced.1 h)
  · exact fun h => hunprojected (hfollows.projects h)
  · rintro query rfl hu
    refine Classical.byContradiction fun hbody => ?_
    rw [read_eq hm (expects_of_open hv hopen)] at e
    obtain ⟨_, mid, -, e⟩ := bind_ok e
    rcases look_bind_ok e with ⟨k₁, r, hnil, e⟩ | ⟨c, k₁, -, -, e⟩
    · rw [(ending_ok hnil e).token] at hu
      cases hu
    · unfold dispatch at e
      dsimp only at e
      rw [if_neg hbody] at e
      exact Query.Sparql.prologue_not_uri hp t left e hu

/-- Where something is due, there is no comment. -/
theorem comment_not_due (hm : m.hasComments = true)
    (hv : ∀ vocabulary, m = n3 vocabulary → vocabulary.isReading = false)
    (hc : (k.ahead.dropWhile Unicode.isBlank).head? = some '#')
    (e : m.read previous k = .ok t left) : m.expects previous = false := by
  have hscan : Name.isScanned '#' = false := Name.isScanned_ascii (by decide)
  have hprefix : prefixName k ≠ .ok t left := prefixName_ne_ok (by decide) (by decide) hc
  have hdatatype : ∀ {rule}, datatype rule k ≠ .ok t left :=
    datatype_ne_ok hscan (by decide) (by decide) hc
  refine Bool.eq_false_iff.2 fun he => ?_
  obtain ⟨hdue, hadmits⟩ := due_of_expects hm hv he
  cases m with
  | lines format =>
    obtain rfl : previous = some .hatHat := hdue.resolve_right hadmits
    exact Graph.LineFormat.datatype_ne_ok (by decide) hc e
  | n3 vocabulary =>
    have e : Graph.Notation3.read vocabulary previous k = .ok t left := e
    unfold Graph.Notation3.read at e
    rw [hv vocabulary rfl, if_neg Bool.false_ne_true] at e
    rcases hdue with rfl | rfl
    · exact hdatatype e
    · exact hprefix e
  | csv => cases hm
  | tsv => cases hm
  | turtle rules =>
    rcases hdue with rfl | rfl
    · exact hdatatype e
    · exact hprefix e
  | sparql query =>
    rcases hdue with rfl | rfl
    · exact hdatatype e
    · exact hprefix e

/-! ## Reading behind a comment -/

/-- Nothing is due where a token is read that does not hang on the one before. -/
theorem expects_eq_false (hm : m.hasComments = true)
    (hv : ∀ vocabulary, m = n3 vocabulary → vocabulary.isReading = false)
    (ha : m.attaches t.kind = false) (e : m.read previous k = .ok t left) :
    m.expects previous = false := by
  refine Bool.eq_false_iff.2 fun he => ?_
  rw [attaches_of_expects hm hv he e] at ha
  cases ha

/-- A token that does not hang on the one before is read behind a comment too. -/
theorem read_commented (hm : m.hasComments = true)
    (hv : ∀ vocabulary, m = n3 vocabulary → vocabulary.isReading = false)
    (ha : m.attaches t.kind = false) (e : m.read previous k = .ok t left) :
    m.read (some .comment) k = .ok t left := by
  have he := expects_eq_false hm hv ha e
  have he' : m.expects (some .comment) = false := expects_of_open hv ⟨nofun, nofun⟩
  rw [read_eq hm he] at e
  rw [read_eq hm he']
  obtain ⟨_, mid, e₁, e₂⟩ := bind_ok e
  rw [bind_eq e₁]
  unfold tokenHere at e₂ ⊢
  rw [bind_eq (look_eq mid)] at e₂ ⊢
  cases hk : mid.ahead.head? with
  | none =>
    rw [hk] at e₂
    exact e₂
  | some c =>
    rw [hk] at e₂
    exact dispatch_commented hm ha e₂

/-! ## Comments and blank characters -/

end Machine

namespace Scan

variable {k : Cursor}

theorem takeWhile_body {body rest : List Char}
    (hbody : ∀ d ∈ body, Unicode.isLineEnd d = false)
    (hrest : ∀ d, rest.head? = some d → Unicode.isLineEnd d = true) :
    (body ++ rest).takeWhile (fun d => !Unicode.isLineEnd d) = body := by
  rw [List.takeWhile_append_of_pos fun d hd => by rw [hbody d hd]; rfl]
  cases rest with
  | nil => exact List.append_nil body
  | cons d rest =>
    rw [List.takeWhile_cons, hrest d rfl]
    exact List.append_nil body

/-- The cursor stands behind a comment, with `rest` to come. -/
structure PastComment (rest : List Char) (k : Cursor) : Prop where
  ahead : k.ahead = rest
  written : k.written = []
  previous : k.previous = some .comment
  clear : k.Clear

/-- A comment takes what is left of its line. -/
theorem comment_whole {c : Char} {body rest : List Char} (hw : k.source.IsWhole)
    (hb : k.written = []) (hc : ∀ d ∈ c :: body, Unicode.isLineEnd d = false)
    (hrest : ∀ d, rest.head? = some d → Unicode.isLineEnd d = true)
    (hk : k.ahead = c :: (body ++ rest)) :
    ∃ t left, comment k = .ok t left ∧ t.content = (.comment, String.ofList (c :: body)) ∧
      PastComment rest left := by
  let first := (k.looked.moved c).push c
  have hturn : consumeTurn (fun d => !Unicode.isLineEnd d) () k = .ok (.again ()) first := by
    unfold consumeTurn
    rw [bind_eq (look_eq k), hk]
    dsimp only [List.head?_cons]
    rw [if_pos (by rw [hc c List.mem_cons_self]; rfl),
      bind_eq (consume_cons (k.ahead_looked.trans hk))]
    rfl
  -- from the second character on, none is given back
  have hclear : first.Clear := (Cursor.clear_taken (Cursor.whole_looked hw)).of_eq rfl rfl
  have hahead : first.ahead = body ++ rest := by
    show ((k.looked.moved c).push c).ahead = body ++ rest
    rw [Cursor.ahead_push, Cursor.ahead_moved, Cursor.ahead_looked, hk]
    rfl
  have hwritten : first.written = [c] := by
    show c :: k.looked.taken.written = [c]
    rw [k.looked.same_taken.written, k.same_looked.written, hb]
  obtain ⟨mid, e, r, hmid⟩ := succeeds_consumeWhile (k := first)
    (fun d (hd : (!Unicode.isLineEnd d) = true) => by simpa using hd)
  rw [hahead, takeWhile_body (fun d hd => hc d (List.mem_cons_of_mem _ hd)) hrest] at r
  have hvalue : mid.value = c :: body := by
    rw [Cursor.value, r.written, hwritten, List.reverse_append, List.reverse_reverse]
    rfl
  refine ⟨⟨.comment, mid.text, mid.span⟩, { mid with written := [], previous := some .comment },
    ?_, ?_, r.rest_eq hahead, rfl, rfl, (hmid hclear).of_eq rfl rfl⟩
  · have hwhile : consumeWhile (fun d => !Unicode.isLineEnd d) k = .ok () mid := by
      unfold consumeWhile
      rw [iterate_eq, bind_eq hturn]
      exact e
    unfold comment
    rw [bind_eq hwhile]
    rfl
  · show (Kind.comment, String.ofList mid.value) = _
    rw [hvalue]

theorem ReadsComment.kind {left : Cursor} {t : Token} (h : ReadsComment k t left) :
    t.kind = .comment := by
  obtain ⟨mid, -, -, e⟩ := h
  obtain ⟨_, _, -, e⟩ := bind_ok e
  exact (emit_ok e).1

/-- Where a comment was read, it stood behind blank characters. -/
theorem ReadsComment.ahead_eq {left : Cursor} {t : Token} (h : ReadsComment k t left) :
    ∃ gap body, k.ahead = gap ++ '#' :: (body ++ left.ahead) ∧
      (∀ c ∈ gap, Unicode.isBlank c = true) ∧
      ∀ d ∈ '#' :: body, Unicode.isLineEnd d = false := by
  obtain ⟨mid, e₁, hhash, e⟩ := h
  obtain ⟨_, mid', e₂, e₃⟩ := bind_ok e
  have r := consumeWhile_ok (fun d (hd : (!Unicode.isLineEnd d) = true) => by simpa using hd) e₂
  have hleft : left.ahead = mid'.ahead := (emit_ok e₃).2.2.ahead
  obtain ⟨rest, hmid⟩ := List.head?_eq_some_iff.1 hhash
  have hword : mid.looked.ahead.takeWhile (fun d => !Unicode.isLineEnd d) =
      '#' :: rest.takeWhile fun d => !Unicode.isLineEnd d := by
    rw [Cursor.ahead_looked, hmid]
    rfl
  refine ⟨k.ahead.takeWhile Unicode.isBlank, rest.takeWhile fun d => !Unicode.isLineEnd d,
    ?_, fun c hc => List.all_eq_true.1 List.all_takeWhile c hc, fun d hd => ?_⟩
  · have hahead := r.ahead
    rw [hword, Cursor.ahead_looked] at hahead
    rw [hleft, ← List.cons_append, ← hahead]
    exact (discardBlank_ok e₁).1.ahead
  · rw [← hword] at hd
    simpa using List.all_eq_true.1 List.all_takeWhile d hd

end Scan

namespace Machine

variable {m : Machine} {previous : Option Kind} {k k' left : Cursor} {t : Token}

/-- Where nothing certain is due, a comment is read whatever the token before. -/
theorem read_comment {gap body rest : List Char} (hm : m.hasComments = true)
    (he : m.expects previous = false) (hw : k.source.IsWhole)
    (hgap : ∀ c ∈ gap, Unicode.isBlank c = true)
    (hbody : ∀ d ∈ '#' :: body, Unicode.isLineEnd d = false)
    (hrest : ∀ d, rest.head? = some d → Unicode.isLineEnd d = true)
    (hk : k.ahead = gap ++ '#' :: (body ++ rest)) :
    ∃ t left, m.read previous k = .ok t left ∧
      t.content = (.comment, String.ofList ('#' :: body)) ∧ PastComment rest left := by
  have hhash : ∀ c, ('#' :: (body ++ rest)).head? = some c → Unicode.isBlank c = false := by
    rintro c ⟨⟩
    decide
  obtain ⟨mid, e, ha, hb, -, hmid, -⟩ := discardBlank_whole hw
  rw [hk, dropWhile_blank hgap hhash] at ha
  have hlook : look mid = .ok (some '#') mid.looked := by
    rw [look_eq, ha]
    rfl
  obtain ⟨t, left, e₁, h⟩ := comment_whole (Cursor.whole_looked hmid)
    (mid.same_looked.written.trans hb.written) hbody hrest (mid.ahead_looked.trans ha)
  refine ⟨t, left, ?_, h⟩
  rw [read_eq hm he, bind_eq e]
  unfold tokenHere
  rw [bind_eq hlook]
  show m.dispatch previous '#' mid.looked = .ok t left
  rw [(comments_dispatch hm).hash]
  exact e₁

/-- Blank characters before a token do not matter. -/
theorem read_behind_blanks (hm : m.hasComments = true) (he : m.expects previous = false)
    (hw : k.source.IsWhole) (hw' : k'.source.IsWhole)
    (hp : k.pending.all Unicode.isBlank = true) (hp' : k'.pending.all Unicode.isBlank = true)
    (hv : k'.previous = k.previous ∨ k'.previous = some .comment)
    (ha : k'.ahead.dropWhile Unicode.isBlank = k.ahead.dropWhile Unicode.isBlank)
    (e : m.read previous k = .ok t left) :
    ∃ t' left', m.read previous k' = .ok t' left' ∧ Agree t t' ∧ Abreast [] [] left left' := by
  obtain ⟨mid, e₁, hmid, hb, hprevious, hwhole, hpending⟩ := discardBlank_whole hw
  obtain ⟨mid', e₁', hmid', hb', hprevious', hwhole', hpending'⟩ := discardBlank_whole hw'
  have ht : Abreast [] [] mid mid' := by
    refine Cursor.abreast_of_clear ⟨hpending hp, hwhole⟩ ⟨hpending' hp', hwhole'⟩ ?_ ?_ ?_
    · rw [hmid', hmid, ha]
    · rw [hb'.written, hb.written]
    · rw [hprevious', hprevious]
      exact hv
  have hnot : ¬ AtEdge [] [] mid := fun hedge => hedge.parted rfl
  rw [read_eq hm he, bind_eq e₁] at e
  rw [read_eq hm he, bind_eq e₁']
  rcases (comments_dispatch hm).tokenHere_mirrored hnot ht e (Nat.zero_le _) with h | ⟨hedge, -⟩
  · exact h
  · exact absurd rfl hedge.parted

end Machine

end TripleLex

import TripleLex.Proofs.DeclaredKeywords
import TripleLex.Proofs.Included
import TripleLex.Proofs.WholeRuns

/-!
# Turtle in Notation 3

Notation 3 reads the tokens of Turtle by rules of its own. Three of them are
stricter: a directive is spelled in lower case and behind an `@`, so that the words
`PREFIX` and `BASE` are none, and a reference that begins with `=` is taken for the
operator `<=`. Every other token that Turtle makes Notation 3 makes as well
(`included_read`). Turtle has no token that declares keywords, so that Notation 3
never learns any, and stays in step over whole texts.

## Main results

* `Turtle.silent_read` — Turtle declares no keywords.
* `Notation3.includedWhere_read` — single tokens.
* `Lexer.notation3_extends` — whole texts.
-/

namespace TripleLex

open Scan

namespace Graph

variable {k : Cursor} {previous : Option Kind} {c : Char} {cs : List Char} {t : Token}

/-! ## Turtle declares no keywords -/

/-- The kinds that declare keywords. -/
def declaring : List Kind := [.keywordDirective, .keywordDefinition]

/-- The token declares no keywords. -/
def Silent (t : Token) : Prop := t.kind ∉ declaring

theorem after_of_silent (h : Silent t) : Vocabulary.empty.after t = .empty := by
  unfold Vocabulary.after
  split
  · rename_i hk
    exact absurd (by rw [hk]; decide) h
  · rename_i hk
    exact absurd (by rw [hk]; decide) h
  · rfl
  · rfl

theorem silent_of_kinds {m : Scan Token} {kinds : List Kind} (h : Makes (OfKind kinds) k m)
    (hk : ∀ kind ∈ kinds, kind ∉ declaring) : Makes Silent k m :=
  h.ofKind hk

namespace Turtle

variable {rules : Turtle}

theorem silent_name : Makes Silent k rules.name := by
  refine makes_bind fun _ _ => kinds_nameToken?.bind fun o mid ho => ?_
  split
  · rename_i token
    have hnames : ∀ kind ∈ [Kind.anonymousNode, .blankNode, .prefixedName],
        kind ∉ declaring := by decide
    exact makes_pure (hnames _ (ho token rfl))
  · exact makes_get (silent_of_kinds (kinds_bareWord _) (by decide))

theorem silent_dispatch : Makes Silent k (rules.dispatch previous c) := by
  rcases kinds_dispatch rules previous c with h | h
  · rw [h]
    exact silent_name
  · exact silent_of_kinds (h k) (by decide)

/-- No token of Turtle or TriG declares keywords. -/
theorem silent_read : Makes Silent k (rules.read previous) := by
  have hending : Kind.ending ∉ declaring := by decide
  unfold read
  split
  · exact silent_of_kinds kinds_prefixName (by decide)
  · exact silent_of_kinds kinds_datatype (by decide)
  · exact makes_bind fun _ _ => makes_tokenHere (fun _ => hending) fun _ _ => silent_dispatch

end Turtle

theorem silent_of_next {rules : Turtle} {l l' : Lexer} (hl : l.machine = .turtle rules)
    (e : l.next = (.ok t, l')) : Silent t := by
  rcases step_cases (Lexer.next_ok e).1 with ⟨-, rfl, -⟩ | ⟨-, rfl, -⟩ | ⟨-, -, e⟩
  · exact show Kind.beginning ∉ declaring by decide
  · exact show Kind.ending ∉ declaring by decide
  · rw [hl] at e
    exact Turtle.silent_read t _ e

/-! ## Single tokens -/

namespace Notation3

/-- What Notation 3 asks of a token of Turtle beyond what Turtle does. -/
structure Admits (t : Token) : Prop where
  prefixes : t.kind = .prefixDirective → t.text = "@prefix"
  bases : t.kind = .baseDirective → t.text = "@base"
  references : t.kind = .uri → t.text.toList.head? ≠ some '='

/-- A reference that begins with `=`. -/
theorem makes_referenceRest (hb : k.Begun) {mid : Cursor} {body : List Char}
    (r : k.Reads cs ('=' :: body) mid) :
    Makes (fun t => ¬ Admits t) mid Turtle.referenceRest := by
  intro t left e ht
  obtain ⟨_, k₁, e₁, e⟩ := bind_ok e
  obtain ⟨_, ws, r₁, -⟩ := referenceBody_ok e₁
  obtain ⟨hkind, htext, -⟩ := emit_ok e
  apply ht.references hkind
  rw [htext, k₁.toList_text, (r.trans r₁).value hb]
  rfl

theorem includedWhere_referenceOrArrow (hb : k.Begun) (hc : k.ahead.head? = some '<') :
    IncludedWhere Admits k Turtle.plain.referenceOrArrow referenceOrArrow := by
  refine includedWhere_bind fun _ k₁ e₁ => includedWhere_bind fun found k₂ e₂ =>
    includedWhere_ite (fun hfound => ?_) fun _ => includedWhere_refl
  obtain ⟨-, r₁⟩ := skip_ok hc (by decide) e₁
  obtain ⟨hequals, r₂⟩ := nextIs_ok e₂
  refine includedWhere_of_makes fun t left e => ?_
  obtain ⟨_, k₃, e₃, e⟩ := bind_ok e
  obtain ⟨-, r₃⟩ := consume_ok (hequals.1 hfound) (by decide) e₃
  obtain ⟨_, k₄, e₄, e⟩ := bind_ok e
  obtain ⟨-, r₄⟩ := look_ok e₄
  split at e
  · cases e
  · exact makes_referenceRest hb (((r₁.trans r₂).trans r₃).trans r₄) t left e

/-- A directive that is spelled in lower case. -/
theorem includedWhere_directive (hb : k.Begun) (hk : k.ahead = '@' :: cs) :
    IncludedWhere Admits k Turtle.plain.directive (directive .empty) := by
  refine includedWhere_bind fun word mid e₁ => ?_
  obtain ⟨-, hvalue⟩ := directiveWord_takes hb hk e₁
  have htext : ∀ {kind t left}, emit kind mid = .ok t left →
      t.kind = kind ∧ t.text = String.ofList word := by
    intro kind t left e
    obtain ⟨hkind, htext, -⟩ := emit_ok e
    exact ⟨hkind, htext.trans (by rw [Cursor.text, hvalue])⟩
  intro t left e ht
  split at e
  · have hword : word = "@prefix".toList :=
      String.ofList_injective ((htext e).2.symm.trans (ht.prefixes (htext e).1))
    rw [hword]
    exact e
  · split at e
    · have e : emit .baseDirective mid = .ok t left := e
      have hword : word = "@base".toList :=
        String.ofList_injective ((htext e).2.symm.trans (ht.bases (htext e).1))
      rw [hword]
      exact e
    · split at e <;> cases e

theorem includedWhere_tagOrDirective (hb : k.Begun) (hk : k.ahead = '@' :: cs) :
    IncludedWhere Admits k (Turtle.plain.tagOrDirective previous)
      (if previous.any Kind.isQuoted then languageTag else directive .empty) := by
  refine includedWhere_ite (fun _ => includedWhere_refl) fun _ => ?_
  intro t left e ht
  split at e
  · cases e
  · exact includedWhere_directive hb hk t left e ht

theorem includedWhere_hat : IncludedWhere Admits k (Turtle.hat previous c) (hat previous) := by
  refine includedWhere_ite (fun _ => includedWhere_refl) fun _ => includedWhere_of_fails ?_
  split
  · exact makes_violation _
  · exact makes_unexpectedCharacter _ _

/-- The words of directives are no bare words of Notation 3. -/
theorem includedWhere_bareWord :
    IncludedWhere Admits k (Turtle.plain.bareWord k.value) (bareWord .empty k.value) := by
  intro t left e ht
  have hbare : ∀ {kind} {text : String}, emit kind k = .ok t left →
      (t.kind = kind → t.text = text) → k.value = text.toList := by
    intro kind text e h
    obtain ⟨hkind, htext, -⟩ := emit_ok e
    rw [← h hkind, htext, k.toList_text]
  unfold Turtle.bareWord at e
  split at e
  · rename_i ha
    rw [beq_iff_eq.1 ha]
    exact e
  · split at e
    · rename_i htruth
      unfold bareWord
      rw [if_pos htruth]
      exact e
    · split at e
      · cases e
      · split at e
        · cases e
        · split at e
          · rename_i hword
            rw [hbare e ht.prefixes] at hword
            exact absurd hword (by decide)
          · split at e
            · rename_i hword
              rw [hbare e ht.bases] at hword
              exact absurd hword (by decide)
            · cases e

theorem includedWhere_name : IncludedWhere Admits k Turtle.plain.name (name .empty) :=
  includedWhere_nameOr fun _ => includedWhere_bareWord

theorem includedWhere_dispatch (hb : k.Begun) (hc : k.ahead.head? = some c) :
    IncludedWhere Admits k (Turtle.plain.dispatch previous c) (dispatch .empty previous c) := by
  unfold Turtle.dispatch
  split
  · exact includedWhere_refl
  · exact includedWhere_referenceOrArrow hb hc
  · exact includedWhere_refl
  · exact includedWhere_refl
  · obtain ⟨cs, hk⟩ := List.head?_eq_some_iff.1 hc
    exact includedWhere_tagOrDirective hb hk
  · exact includedWhere_hat
  · exact includedWhere_refl
  · exact includedWhere_refl
  · exact includedWhere_refl
  · exact includedWhere_refl
  · exact includedWhere_refl
  · exact includedWhere_refl
  · exact includedWhere_refl
  · exact includedWhere_of_fails (makes_unexpectedCharacter _ _)
  · exact includedWhere_of_fails (makes_unexpectedCharacter _ _)
  · refine includedWhere_of_fails (makes_bind fun _ _ => makes_bind fun _ _ => ?_)
    split
    · exact makes_bind fun _ _ => makes_violation _
    · exact makes_violation _
  · exact includedWhere_refl
  · exact includedWhere_refl
  · exact includedWhere_name
  · exact includedWhere_name
  · exact includedWhere_name
  · intro t left e ht
    split at e
    · rename_i hdigit
      rw [dispatch_of_isDigit hdigit]
      exact e
    · split at e
      · rename_i hopens
        rw [dispatch_of_beginsName (by rw [beginsName, hopens, Bool.or_true])]
        exact includedWhere_name t left e ht
      · cases e

/-- Notation 3 makes what Turtle makes, where it admits it. -/
theorem includedWhere_read {kind : Kind} :
    IncludedWhere Admits k (Turtle.plain.read (some kind)) (read .empty (some kind)) := by
  by_cases hhat : kind = .hatHat
  · rw [hhat]
    exact includedWhere_refl
  · by_cases hdirective : kind = .prefixDirective
    · rw [hdirective]
      exact includedWhere_refl
    · rw [Turtle.read_eq hhat hdirective, read_eq rfl hhat hdirective]
      exact includedWhere_blankThen fun _ _ hb hc => includedWhere_dispatch hb hc

end Notation3

end Graph

/-! ## Whole texts -/

namespace Lexer

open TripleLex.Graph (Turtle Notation3.Admits Dialect Silent)

/-- Notation 3 extends Turtle: what Turtle reads it reads alike, unless a directive is
not spelled in lower case behind an `@` or a reference begins with `=`. -/
theorem notation3_extends (level level' : Query.Level) (dialect : Dialect) (text : String)
    (ts : List Token)
    (hrun : (ofText ⟨.turtle, level, .recommendation⟩ text).run = .ok ts)
    (hprefixes : ∀ t ∈ ts, t.kind = .prefixDirective → t.text = "@prefix")
    (hbases : ∀ t ∈ ts, t.kind = .baseDirective → t.text = "@base")
    (hreferences : ∀ t ∈ ts, t.kind = .uri → t.text.toList.head? ≠ some '=') :
    (ofText ⟨.n3, level', dialect⟩ text).run = .ok ts := by
  refine run_simulated (l := ofText ⟨.turtle, level, .recommendation⟩ text)
    (R := fun l m => l.machine = .turtle Turtle.plain ∧ m = .n3 .empty)
    (P := Notation3.Admits) ?_ ?_ ⟨rfl, rfl⟩ ?_ hrun
  · rintro l l₁ m t ⟨hl, rfl⟩ e - ht
    have hmachine := (next_ok e).2
    rw [hl] at hmachine
    exact ⟨hmachine, congrArg Machine.n3 (Graph.after_of_silent (Graph.silent_of_next hl e))⟩
  · rintro l m t kind left ⟨hl, rfl⟩ - - e ht -
    rw [hl] at e
    exact Graph.Notation3.includedWhere_read t left e ht
  · exact fun t ht => ⟨hprefixes t ht, hbases t ht, hreferences t ht⟩

/-- A declaration that both languages read alike. -/
theorem notation3_extends_prefix :
    let ts : List Token := [.beginning, ⟨.prefixDirective, "@prefix", ⟨1, 1, 1, 7⟩⟩,
      ⟨.prefixName, "a:", ⟨1, 1, 9, 10⟩⟩, ⟨.uri, "", ⟨1, 1, 12, 13⟩⟩, ⟨.dot, ".", ⟨1, 1, 14, 14⟩⟩,
      ⟨.ending, "", ⟨1, 1, 15, 15⟩⟩]
    (ofText ⟨.turtle, .sparql11, .recommendation⟩ "@prefix a: <>.").run = .ok ts ∧
      (∀ t ∈ ts, t.kind = .prefixDirective → t.text = "@prefix") ∧
      (∀ t ∈ ts, t.kind = .baseDirective → t.text = "@base") ∧
      (∀ t ∈ ts, t.kind = .uri → t.text.toList.head? ≠ some '=') ∧
      (ofText ⟨.n3, .sparql11, .recommendation⟩ "@prefix a: <>.").run = .ok ts := by
  intro ts
  have hrun : (ofText ⟨.turtle, .sparql11, .recommendation⟩ "@prefix a: <>.").run = .ok ts :=
    run_of_toOption (by decide +kernel)
  have hprefixes : ∀ t ∈ ts, t.kind = .prefixDirective → t.text = "@prefix" := by decide
  have hbases : ∀ t ∈ ts, t.kind = .baseDirective → t.text = "@base" := by decide
  have hreferences : ∀ t ∈ ts, t.kind = .uri → t.text.toList.head? ≠ some '=' := by decide
  exact ⟨hrun, hprefixes, hbases, hreferences,
    notation3_extends .sparql11 .sparql11 .recommendation "@prefix a: <>." ts hrun hprefixes
      hbases hreferences⟩

end Lexer

end TripleLex

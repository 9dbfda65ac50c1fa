import TripleLex.Graph.Turtle
import TripleLex.Proofs.Makes

/-!
# Kinds that readers make

A reader makes tokens of few kinds, whatever it reads. `OfKind kinds` says of a
token that its kind is listed; what holds of all listed kinds then holds of every
token that the reader makes (`Makes.ofKind`).

## Main results

* `kinds_literal`, `kinds_nameToken?`, `kinds_datatype` and their like — the
  readers that languages share.
* `Turtle.kinds_dispatch`, `Turtle.kinds_bareWord` — Turtle and TriG, apart from
  names.
-/

namespace TripleLex

namespace Scan

/-- The kind of the token is listed. -/
def OfKind (kinds : List Kind) (t : Token) : Prop := t.kind ∈ kinds

variable {k : Cursor} {kinds : List Kind}

/-- What holds of all listed kinds. -/
theorem Makes.ofKind {m : Scan Token} {P : Kind → Prop} (h : Makes (OfKind kinds) k m)
    (hP : ∀ kind ∈ kinds, P kind) : Makes (fun t => P t.kind) k m :=
  h.mono fun t ht => hP t.kind ht

theorem kinds_emit {kind : Kind} (h : kind ∈ kinds) : Makes (OfKind kinds) k (emit kind) :=
  makes_emit h

theorem kinds_emitAs {kind : Kind} {text : String} (h : kind ∈ kinds) :
    Makes (OfKind kinds) k (emitAs kind text) :=
  makes_emitAs h

theorem kinds_single {kind : Kind} : Makes (OfKind [kind]) k (single kind) :=
  makes_bind fun _ _ => kinds_emit (List.mem_singleton_self kind)

theorem kinds_comment : Makes (OfKind [.comment]) k comment :=
  makes_bind fun _ _ => kinds_emit (by decide)

theorem kinds_reference : Makes (OfKind [.uri]) k reference :=
  makes_bind fun _ _ => makes_bind fun _ _ => kinds_emit (by decide)

theorem kinds_literal {surplus : Surplus} :
    Makes (OfKind [.literal, .longLiteral]) k (literal surplus) := by
  refine makes_bind fun sign _ => makes_bind fun second _ => ?_
  split
  · refine makes_bind fun _ _ => makes_bind fun third _ => ?_
    split
    · exact makes_bind fun _ _ => makes_bind fun _ _ => kinds_emit (by decide)
    · exact kinds_emit (by decide)
  · exact makes_bind fun _ _ => kinds_emit (by decide)

theorem kinds_languageTag : Makes (OfKind [.languageTag]) k languageTag := by
  refine makes_bind fun _ _ => makes_bind fun _ _ => makes_get ?_
  split
  · exact makes_unexpectedNext _
  · split
    · exact kinds_emit (by decide)
    · exact makes_invalidForm _ _

theorem kinds_hatHat : Makes (OfKind [.hatHat]) k hatHat := by
  refine makes_bind fun _ _ => makes_bind fun c _ => ?_
  split
  · exact makes_unexpectedEnd _
  · split
    · exact makes_bind fun _ _ => kinds_emit (by decide)
    · exact makes_unexpectedCharacter _ _

/-- What a gathered name with a colon can be. -/
theorem kinds_nameToken? {rule : Name.Rule} :
    Makes (fun o => ∀ t, o = some t → OfKind [.anonymousNode, .blankNode, .prefixedName] t) k
      (nameToken? rule) := by
  have hsome : ∀ {m : Scan Token}, Makes (OfKind [.anonymousNode, .blankNode, .prefixedName]) k m →
      Makes (fun o => ∀ t, o = some t → OfKind [.anonymousNode, .blankNode, .prefixedName] t) k
        (do return some (← m)) := by
    intro m hm
    refine hm.bind fun t _ ht => makes_pure ?_
    rintro u ⟨⟩
    exact ht
  refine makes_get ?_
  dsimp only
  split
  · exact makes_pure nofun
  · split
    · exact hsome (kinds_emit (by decide))
    · split
      · split
        · exact hsome (kinds_emit (by decide))
        · exact makes_invalidForm _ _
      · split
        · exact hsome (kinds_emitAs (by decide))
        · exact makes_invalidForm _ _

theorem kinds_datatype {rule : Name.Rule} : Makes (OfKind [.datatype]) k (datatype rule) := by
  refine makes_bind fun _ _ => makes_bind fun c _ => ?_
  split
  · exact makes_unexpectedEnd _
  · split
    · exact makes_bind fun _ _ => makes_bind fun _ _ => makes_get (kinds_emitAs (by decide))
    · split
      · exact makes_unexpectedCharacter _ _
      · refine makes_bind fun _ _ => makes_bind fun o _ => ?_
        split
        · split
          · exact makes_bind fun _ _ => makes_pure (List.mem_singleton_self Kind.datatype)
          · exact makes_unexpectedToken _ _
        · exact makes_get (makes_invalidForm _ _)

theorem kinds_prefixName : Makes (OfKind [.prefixName]) k prefixName := by
  refine makes_bind fun _ _ => makes_bind fun _ k₁ => makes_get ?_
  split
  · exact makes_unexpectedNext _
  · split
    · exact kinds_emit (by decide)
    · exact makes_invalidForm _ _

theorem kinds_variableToken {sign : Char} :
    Makes (OfKind [.queryVariable]) k (variableToken sign) := by
  refine makes_get ?_
  split
  · exact kinds_emit (by decide)
  · exact makes_invalidForm _ _

theorem kinds_number : Makes (OfKind [.plainLiteral]) k number := by
  refine makes_get (makes_bind fun _ _ => makes_bind fun _ _ => makes_get ?_)
  split
  · exact kinds_emit (by decide)
  · exact makes_invalidForm _ _

/-- A dot, or what a number behind it is read as. -/
theorem kinds_dotOrNumber {readNumber : Scan Token}
    (h : ∀ mid, Makes (OfKind kinds) mid readNumber) :
    Makes (OfKind (.dot :: kinds)) k (dotOrNumber readNumber) := by
  refine makes_bind fun _ _ => makes_bind fun c _ => ?_
  split
  · split
    · exact (h _).mono fun _ ht => List.mem_cons_of_mem _ ht
    · exact kinds_emit List.mem_cons_self
  · exact kinds_emit List.mem_cons_self

end Scan

/-! ## Turtle and TriG -/

namespace Graph.Turtle

open Scan

variable {k : Cursor} {rules : Turtle} {previous : Option Kind} {c : Char}

/-- The kinds of the tokens that are no names, words or marks. -/
def signKinds : List Kind :=
  [.comment, .uri, .literal, .longLiteral, .languageTag, .prefixDirective, .baseDirective, .hatHat,
    .dot, .plainLiteral, .comma, .semicolon, .leftBracket, .rightBracket, .leftSquare,
    .rightSquare, .leftCurly, .rightCurly, .equals]

/-- The kinds of bare words. -/
def wordKinds : List Kind :=
  [.keywordA, .plainLiteral, .prefixDirective, .baseDirective, .keyword .graph]

theorem kinds_tagOrDirective :
    Makes (OfKind [.languageTag, .prefixDirective, .baseDirective]) k
      (rules.tagOrDirective previous) := by
  unfold tagOrDirective
  split
  · exact kinds_languageTag.mono fun _ ht => List.mem_cons.2 (.inl (List.mem_singleton.1 ht))
  · split
    · exact makes_violation _
    · refine makes_bind fun word mid => ?_
      split
      · exact kinds_emit (by decide)
      · split
        · split
          · exact makes_violation _
          · exact kinds_emit (by decide)
        · split <;> exact makes_violation _

theorem kinds_hat : Makes (OfKind [.hatHat]) k (hat previous c) := by
  unfold hat
  split
  · exact kinds_hatHat
  · split
    · exact makes_violation _
    · exact makes_unexpectedCharacter _ _

theorem kinds_referenceOrArrow : Makes (OfKind [.uri]) k rules.referenceOrArrow := by
  have hrest : ∀ k, Makes (OfKind [.uri]) k referenceRest :=
    fun k => makes_bind fun _ _ => kinds_emit (by decide)
  refine makes_bind fun _ _ => makes_bind fun found _ => ?_
  split
  · refine makes_bind fun _ _ => makes_bind fun _ _ => ?_
    split
    · exact makes_violation _
    · exact hrest _
  · exact hrest _

theorem kinds_equals : Makes (OfKind [.equals]) k rules.equals := by
  refine makes_bind fun _ _ => makes_bind fun found _ => ?_
  split
  · exact makes_bind fun _ _ => makes_violation _
  · split
    · exact kinds_emit (by decide)
    · exact makes_violation _

theorem kinds_brace {kind : Kind} : Makes (OfKind [kind]) k (rules.brace kind c) := by
  unfold brace
  split
  · exact kinds_single
  · exact makes_unexpectedCharacter _ _

theorem kinds_bareWord (word : List Char) : Makes (OfKind wordKinds) k (rules.bareWord word) := by
  unfold bareWord
  split
  · exact kinds_emit (by decide)
  · split
    · exact kinds_emit (by decide)
    · split
      · exact makes_violation _
      · split
        · exact makes_invalidForm _ _
        · split
          · exact kinds_emit (by decide)
          · split
            · exact kinds_emit (by decide)
            · split
              · exact kinds_emit (by decide)
              · exact makes_invalidForm _ _

/-- Where the character begins neither a name nor a word, the token is of another
kind. -/
theorem kinds_dispatch (rules : Turtle) (previous : Option Kind) (c : Char) :
    rules.dispatch previous c = rules.name ∨
      ∀ k, Makes (OfKind signKinds) k (rules.dispatch previous c) := by
  have hsign : ∀ {m : Scan Token} {kinds : List Kind}, (∀ k, Makes (OfKind kinds) k m) →
      (∀ kind ∈ kinds, kind ∈ signKinds) → ∀ k, Makes (OfKind signKinds) k m :=
    fun h hk k => (h k).ofKind hk
  unfold dispatch
  split
  · exact .inr (hsign (fun _ => kinds_comment) (by decide))
  · exact .inr (hsign (fun _ => kinds_referenceOrArrow) (by decide))
  · exact .inr (hsign (fun _ => kinds_literal) (by decide))
  · exact .inr (hsign (fun _ => kinds_literal) (by decide))
  · exact .inr (hsign (fun _ => kinds_tagOrDirective) (by decide))
  · exact .inr (hsign (fun _ => kinds_hat) (by decide))
  · exact .inr (hsign (fun _ => kinds_dotOrNumber fun _ => kinds_number) (by decide))
  · exact .inr (hsign (fun _ => kinds_single) (by decide))
  · exact .inr (hsign (fun _ => kinds_single) (by decide))
  · exact .inr (hsign (fun _ => kinds_single) (by decide))
  · exact .inr (hsign (fun _ => kinds_single) (by decide))
  · exact .inr (hsign (fun _ => kinds_single) (by decide))
  · exact .inr (hsign (fun _ => kinds_single) (by decide))
  · exact .inr (hsign (fun _ => kinds_brace) (by decide))
  · exact .inr (hsign (fun _ => kinds_brace) (by decide))
  · exact .inr (hsign (fun _ => kinds_equals) (by decide))
  · exact .inr (hsign (fun _ => kinds_number) (by decide))
  · exact .inr (hsign (fun _ => kinds_number) (by decide))
  · exact .inl rfl
  · exact .inl rfl
  · exact .inl rfl
  · split
    · exact .inr (hsign (fun _ => kinds_number) (by decide))
    · split
      · exact .inl rfl
      · exact .inr fun _ => makes_unexpectedCharacter _ _

end Graph.Turtle

end TripleLex

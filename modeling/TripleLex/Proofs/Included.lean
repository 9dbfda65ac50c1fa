import TripleLex.Proofs.InStep

/-!
# Scans in other scans

`Included k m m'` says that a scan makes whatever another one makes at a cursor.
It is handed on along the way scans are put together, and a scan that fails is
included in every other one. Two machines that remember nothing then make the
same of whole texts that the one of them tokenises. Where a scan makes more than
the other one, `IncludedWhere P k m m'` compares them at what satisfies `P`; a scan
that makes nothing of the kind is then included as well.

N-Triples and N-Quads differ in one check, and Turtle and TriG only where Turtle
fails, so that the reading of the one is included in the reading of the other
wherever it takes place.

## Main results

* `Included.bind`, `included_ite`, `step_included` — the rules.
* `includedWhere_bind`, `includedWhere_of_makes` — those for some tokens.
* `Lexer.run_simulated` — from single tokens to whole texts, for machines that stay
  related from call to call.
* `Lexer.run_included`, `Lexer.run_of_read_included` — machines that remember nothing.
* `LineFormat.included_read`, `Turtle.included_read` — N-Triples in N-Quads, and
  Turtle in TriG.
-/

namespace TripleLex

namespace Scan

/-! ## The judgement -/

/-- What the first scan makes at the cursor, the second one makes too. -/
def Included {α : Type} (k : Cursor) (m m' : Scan α) : Prop :=
  ∀ a left, m k = .ok a left → m' k = .ok a left

section Rules

variable {α β : Type} {k : Cursor} {m m' : Scan α} {f f' : α → Scan β}

theorem included_refl : Included k m m := fun _ _ e => e

/-- A scan that makes nothing. -/
theorem included_of_fails (h : Makes Never k m) : Included k m m' :=
  fun a left e => (h a left e).elim

theorem Included.bind (h : Included k m m')
    (g : ∀ a mid, m k = .ok a mid → Included mid (f a) (f' a)) :
    Included k (m >>= f) (m' >>= f') := by
  intro b left e
  obtain ⟨a, mid, e₁, e₂⟩ := bind_ok e
  rw [bind_eq (h a mid e₁)]
  exact g a mid e₁ b left e₂

/-- The same scan, and what follows it on either side. -/
theorem included_bind (g : ∀ a mid, Included mid (f a) (f' a)) :
    Included k (m >>= f) (m >>= f') :=
  included_refl.bind fun a mid _ => g a mid

theorem included_ite {c : Prop} [Decidable c] {n n' : Scan α} (h : Included k m m')
    (g : Included k n n') : Included k (if c then m else n) (if c then m' else n') := by
  split <;> assumption

/-- A step is included in another one if what is read inside of the text is. -/
theorem step_included {read read' : Option Kind → Scan Token} {k left : Cursor} {t : Token}
    (e : step read k = .ok t left)
    (h : ∀ kind, k.previous = some kind → kind ≠ .ending →
      read (some kind) k.fresh = .ok t left → read' (some kind) k.fresh = .ok t left) :
    step read' k = .ok t left := by
  obtain ⟨mark, mid, e₁, e₂⟩ := bind_ok e
  have hstep : step read' k = _ := bind_eq e₁
  rw [hstep]
  cases mark with
  | some mark => exact e₂
  | none =>
    have hinside : ∃ kind, k.previous = some kind ∧ kind ≠ .ending := by
      cases hp : k.previous with
      | none =>
        have e₁ := get_bind_ok e₁
        rw [hp] at e₁
        cases e₁
      | some kind =>
        refine ⟨kind, rfl, ?_⟩
        rintro rfl
        rw [mark?_ending hp] at e₁
        cases e₁
    obtain ⟨kind, hp, hk⟩ := hinside
    rw [mark?_eq hp hk] at e₁
    cases e₁
    have hprevious : k.fresh.previous = some kind := hp
    have e₂ : read k.fresh.previous k.fresh = .ok t left := e₂
    show read' k.fresh.previous k.fresh = .ok t left
    rw [hprevious] at e₂ ⊢
    exact h kind hp hk e₂

end Rules

/-! ## Some of what is made -/

/-- What the first scan makes at the cursor, if it satisfies `P`, the second one
makes too. -/
def IncludedWhere {α : Type} (P : α → Prop) (k : Cursor) (m m' : Scan α) : Prop :=
  ∀ a left, m k = .ok a left → P a → m' k = .ok a left

section SomeRules

variable {α β : Type} {P : α → Prop} {k : Cursor} {m m' : Scan α} {f f' : β → Scan α}

theorem Included.only (h : Included k m m') : IncludedWhere P k m m' :=
  fun a left e _ => h a left e

theorem includedWhere_refl : IncludedWhere P k m m := included_refl.only

/-- A scan that makes nothing that satisfies `P`. -/
theorem includedWhere_of_makes (h : Makes (fun a => ¬ P a) k m) : IncludedWhere P k m m' :=
  fun a left e hP => absurd hP (h a left e)

/-- A scan that makes nothing. -/
theorem includedWhere_of_fails (h : Makes Never k m) : IncludedWhere P k m m' :=
  (included_of_fails h).only

/-- The same scan, and what follows it on either side. -/
theorem includedWhere_bind {n : Scan β}
    (g : ∀ b mid, n k = .ok b mid → IncludedWhere P mid (f b) (f' b)) :
    IncludedWhere P k (n >>= f) (n >>= f') := by
  intro a left e hP
  obtain ⟨b, mid, e₁, e₂⟩ := bind_ok e
  rw [bind_eq e₁]
  exact g b mid e₁ a left e₂ hP

theorem includedWhere_ite {c : Prop} [Decidable c] {n n' : Scan α}
    (h : c → IncludedWhere P k m m') (g : ¬ c → IncludedWhere P k n n') :
    IncludedWhere P k (if c then m else n) (if c then m' else n') := by
  split
  · exact h ‹_›
  · exact g ‹_›

/-- A name, or what becomes of a bare word. -/
theorem includedWhere_nameOr {P : Token → Prop} {rule : Name.Rule} {allowDot : Bool}
    {bareWord bareWord' : List Char → Scan Token}
    (h : ∀ k : Cursor, IncludedWhere P k (bareWord k.value) (bareWord' k.value)) :
    IncludedWhere P k
      (do
        gatherName rule allowDot
        match ← nameToken? rule with
        | some token => return token
        | none => bareWord (← get).value)
      (do
        gatherName rule allowDot
        match ← nameToken? rule with
        | some token => return token
        | none => bareWord' (← get).value) := by
  refine includedWhere_bind fun _ mid _ => includedWhere_bind fun token mid _ => ?_
  cases token with
  | some token => exact includedWhere_refl
  | none =>
    refine includedWhere_bind fun k mid e => ?_
    cases e
    exact h mid

/-- Behind a gap, at the character that begins a token. -/
theorem includedWhere_blankThen {P : Token → Prop} {dispatch dispatch' : Char → Scan Token}
    (h : ∀ c k, k.Begun → k.ahead.head? = some c → IncludedWhere P k (dispatch c) (dispatch' c)) :
    IncludedWhere P k (do discardBlank; tokenHere dispatch)
      (do discardBlank; tokenHere dispatch') := by
  refine includedWhere_bind fun _ mid e₁ => includedWhere_bind fun c mid' e₂ => ?_
  obtain ⟨-, hb⟩ := discardBlank_ok e₁
  obtain ⟨hc, r⟩ := look_ok e₂
  cases c with
  | none => exact includedWhere_refl
  | some c => exact h c mid' (r.begun hb) hc

/-! ### All of what is made -/

theorem Included.of_where (h : IncludedWhere (fun _ => True) k m m') : Included k m m' :=
  fun a left e => h a left e trivial

theorem included_nameOr {rule : Name.Rule} {allowDot : Bool}
    {bareWord bareWord' : List Char → Scan Token}
    (h : ∀ k word, Included k (bareWord word) (bareWord' word)) :
    Included k
      (do
        gatherName rule allowDot
        match ← nameToken? rule with
        | some token => return token
        | none => bareWord (← get).value)
      (do
        gatherName rule allowDot
        match ← nameToken? rule with
        | some token => return token
        | none => bareWord' (← get).value) :=
  .of_where (includedWhere_nameOr fun k => (h k k.value).only)

theorem included_blankThen {dispatch dispatch' : Char → Scan Token}
    (h : ∀ k c, Included k (dispatch c) (dispatch' c)) :
    Included k (do discardBlank; tokenHere dispatch) (do discardBlank; tokenHere dispatch') :=
  .of_where (includedWhere_blankThen fun c k _ _ => (h k c).only)

end SomeRules

end Scan

open Scan

/-! ## Whole texts -/

namespace Lexer

variable {m m' : Machine} {I : Cursor → Prop} {k : Cursor} {l l₁ : Lexer} {t : Token}
  {ts : List Token}

theorem next_included (e : (⟨m, k⟩ : Lexer).next = (.ok t, l₁))
    (h : ∀ kind, k.previous = some kind → kind ≠ .ending →
      m.read (some kind) k.fresh = .ok t l₁.cursor →
      m'.read (some kind) k.fresh = .ok t l₁.cursor) :
    (⟨m', k⟩ : Lexer).next = (.ok t, ⟨m'.after t, l₁.cursor⟩) := by
  have hstep : m'.next k = .ok t l₁.cursor := step_included (next_ok e).1 h
  unfold next
  rw [hstep]

/-- A machine makes the same as a lexer of all that is left if the two stay related
from call to call and what the lexer reads at a token the machine reads too. It may
be used that the tokens satisfy `P` and that the rest is read. -/
theorem run_simulated {R : Lexer → Machine → Prop} {P : Token → Prop}
    (hnext : ∀ {l l₁ m' t}, R l m' → l.next = (.ok t, l₁) → P t → t.kind ≠ .ending →
      R l₁ (m'.after t))
    (hread : ∀ {l m' t kind left}, R l m' → l.cursor.previous = some kind → kind ≠ .ending →
      l.machine.read (some kind) l.cursor.fresh = .ok t left → P t →
      (t.kind ≠ .ending → ∃ us, (⟨l.machine.after t, left⟩ : Lexer).run = .ok us) →
      m'.read (some kind) l.cursor.fresh = .ok t left)
    (hR : R l m') (hP : ∀ t ∈ ts, P t) (hrun : l.run = .ok ts) :
    (⟨m', l.cursor⟩ : Lexer).run = .ok ts := by
  induction ts generalizing l m' with
  | nil =>
    obtain ⟨t, l₁, vs, -, hnil, -⟩ := run_cases hrun
    cases hnil
  | cons t ts ih =>
    obtain ⟨t, l₁, vs, e, hts, hcases⟩ := run_cases hrun
    cases hts
    have hPt := hP t List.mem_cons_self
    have hl : l₁ = ⟨l.machine.after t, l₁.cursor⟩ := by
      rw [← (next_ok e).2]
    have hrest : t.kind ≠ .ending →
        ∃ us, (⟨l.machine.after t, l₁.cursor⟩ : Lexer).run = .ok us := by
      intro ht
      rcases hcases with ⟨hend, -⟩ | ⟨-, hrun₁⟩
      · exact absurd hend ht
      · exact ⟨ts, hl ▸ hrun₁⟩
    have e' := next_included e fun kind hp hne e => hread hR hp hne e hPt hrest
    rcases hcases with ⟨hend, rfl⟩ | ⟨ht, hrun₁⟩
    · exact run_of_ending e' hend
    · exact run_of_next e' ht
        (ih (hnext hR e hPt ht) (fun u hu => hP u (List.mem_cons_of_mem _ hu)) hrun₁)

/-- Machines that remember nothing make the same of all that is left if what one
reads at a token the other one reads too. It may be used that the rest is read, and
an invariant of the calls before the last one. -/
theorem run_included (hm : ∀ t, m.after t = m) (hm' : ∀ t, m'.after t = m')
    (hI : ∀ {k t l₁}, I k → (⟨m, k⟩ : Lexer).next = (.ok t, l₁) → t.kind ≠ .ending → I l₁.cursor)
    (h : ∀ {k t kind left}, I k → k.previous = some kind → kind ≠ .ending →
      m.read (some kind) k.fresh = .ok t left →
      (t.kind ≠ .ending → ∃ us, (⟨m, left⟩ : Lexer).run = .ok us) →
      m'.read (some kind) k.fresh = .ok t left)
    (hk : I k) (hrun : (⟨m, k⟩ : Lexer).run = .ok ts) : (⟨m', k⟩ : Lexer).run = .ok ts := by
  refine run_simulated (R := fun l n => l.machine = m ∧ n = m' ∧ I l.cursor)
    (P := fun _ => True) ?_ ?_ ⟨rfl, rfl, hk⟩ (fun _ _ => trivial) hrun
  · rintro ⟨n, k⟩ l₁ n' t ⟨rfl, rfl, hk⟩ e - ht
    exact ⟨(next_ok e).2.trans (hm t), hm' t, hI hk e ht⟩
  · rintro ⟨n, k⟩ n' t kind left ⟨rfl, rfl, hk⟩ hp hne e - hrest
    rw [hm] at hrest
    exact h hk hp hne e hrest

/-- The same for reading that may be compared wherever it takes place. -/
theorem run_of_read_included (hm : ∀ t, m.after t = m) (hm' : ∀ t, m'.after t = m')
    (h : ∀ k kind, Included k (m.read (some kind)) (m'.read (some kind)))
    (hrun : (⟨m, k⟩ : Lexer).run = .ok ts) : (⟨m', k⟩ : Lexer).run = .ok ts :=
  run_included (I := fun _ => True) hm hm' (fun _ _ _ => trivial)
    (fun _ _ _ e _ => h _ _ _ _ e) trivial hrun

end Lexer

/-! ## N-Triples in N-Quads -/

namespace Graph

variable {k : Cursor} {previous : Option Kind}

namespace LineFormat

/-- N-Quads has nothing against a graph behind a literal. -/
theorem checkGraph_quads : checkGraph .quads k = .ok () k := by
  have hnot : (endsLiteral k.previous && LineFormat.quads == .triples) = false := Bool.and_false _
  unfold checkGraph
  rw [get_bind, hnot]
  rfl

theorem included_checkGraph : Included k (checkGraph .triples) (checkGraph .quads) := by
  intro u left e
  rw [checkGraph_ok e]
  exact checkGraph_quads

theorem included_blankNode : Included k (blankNode .triples) (blankNode .quads) :=
  included_checkGraph.bind fun _ _ _ => included_refl

theorem included_dispatch (c : Char) :
    Included k (dispatch .triples previous c) (dispatch .quads previous c) := by
  unfold dispatch
  split
  · exact included_refl
  · exact included_checkGraph.bind fun _ _ _ => included_refl
  · exact included_blankNode
  · exact included_refl
  · exact included_refl
  · exact included_refl

theorem included_read : Included k (read .triples previous) (read .quads previous) := by
  unfold read
  split
  · exact included_refl
  · exact included_blankThen fun _ c => included_dispatch c

end LineFormat

/-! ## Turtle in TriG -/

namespace Turtle

/-- Turtle as it is recommended. -/
def plain : Turtle := ⟨.recommendation, false⟩

/-- TriG as it is recommended. -/
def withGraphs : Turtle := ⟨.recommendation, true⟩

theorem included_directive : Included k plain.directive withGraphs.directive := by
  refine included_bind fun word mid => included_ite included_refl (included_ite included_refl ?_)
  refine included_ite ?_ ?_
  · exact included_of_fails (makes_violation _)
  · exact included_of_fails (makes_violation _)

theorem included_tagOrDirective :
    Included k (plain.tagOrDirective previous) (withGraphs.tagOrDirective previous) :=
  included_ite included_refl (included_ite included_refl included_directive)

theorem included_referenceOrArrow :
    Included k plain.referenceOrArrow withGraphs.referenceOrArrow := by
  refine included_bind fun _ _ => included_bind fun found _ => included_ite ?_ included_refl
  refine included_bind fun _ _ => included_bind fun c _ => included_ite ?_ included_refl
  exact included_of_fails (makes_violation _)

theorem included_equals : Included k plain.equals withGraphs.equals := by
  refine included_bind fun _ _ => included_bind fun found _ => included_ite ?_ ?_
  · exact included_bind fun _ _ => included_of_fails (makes_violation _)
  · exact included_of_fails (makes_violation _)

theorem included_brace (kind : Kind) (c : Char) :
    Included k (plain.brace kind c) (withGraphs.brace kind c) :=
  included_of_fails (makes_unexpectedCharacter _ _)

theorem included_bareWord (word : List Char) :
    Included k (plain.bareWord word) (withGraphs.bareWord word) := by
  refine included_ite included_refl (included_ite included_refl ?_)
  refine included_ite (included_of_fails (makes_violation _)) (included_ite included_refl ?_)
  refine included_ite included_refl (included_ite included_refl ?_)
  exact included_of_fails (makes_invalidForm _ _)

theorem included_name : Included k plain.name withGraphs.name :=
  included_nameOr fun _ word => included_bareWord word

theorem included_dispatch (c : Char) :
    Included k (plain.dispatch previous c) (withGraphs.dispatch previous c) := by
  unfold dispatch
  split
  · exact included_refl
  · exact included_referenceOrArrow
  · exact included_refl
  · exact included_refl
  · exact included_tagOrDirective
  · exact included_refl
  · exact included_refl
  · exact included_refl
  · exact included_refl
  · exact included_refl
  · exact included_refl
  · exact included_refl
  · exact included_refl
  · exact included_brace _ _
  · exact included_brace _ _
  · exact included_equals
  · exact included_refl
  · exact included_refl
  · exact included_name
  · exact included_name
  · exact included_name
  · exact included_ite included_refl (included_ite included_name included_refl)

theorem included_read :
    Included k (plain.read previous) (withGraphs.read previous) := by
  unfold read
  split
  · exact included_refl
  · exact included_refl
  · exact included_blankThen fun _ c => included_dispatch c

end Turtle

end Graph

end TripleLex

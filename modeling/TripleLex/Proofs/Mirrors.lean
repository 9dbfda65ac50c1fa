import TripleLex.Proofs.Makes
import TripleLex.Proofs.Succeeds

/-!
# Scans on texts with a common beginning

Two texts begin alike and then go on as `z` and as `z'`. A scan that stays
within the beginning does the same on both: `Mirrors B R m` says that, if `m`
succeeds on the first one and takes nothing of `z`, it succeeds on the second one
with a value that `R` relates to the first.

At the edge between the two parts a scan may look at what comes next, and go on
where it should have stopped. The second text is only allowed to go on there as
the first one does, or with a blank. Scans for which that makes a difference,
because they take blanks or look for a certain character behind what they have
taken, are excused where they end at the edge (`Cursor.AtEdge`) with a value that
satisfies `B`. What follows them takes a character, in most cases, so that the
excuse is not handed on.

## Main results

* `mirrors_bind`, `mirrors_look`, `mirrors_iterate` — the rules.
* `mirrors_consume`, `mirrors_consumeWhile`, `mirrors_emit` — the steps that most
  scans are made of.
-/

namespace TripleLex

/-! ## Two cursors -/

namespace Cursor

/-- Two cursors stand at the same place of what two texts have in common, which
go on as `z` and as `z'`. The second one may have a comment behind it that the
first one does not have. -/
structure Abreast (z z' : List Char) (k k' : Cursor) : Prop where
  rest : ∃ cs, k.source.rest = cs ++ z ∧ k'.source.rest = cs ++ z'
  pending : k'.pending = k.pending
  written : k'.written = k.written
  previous : k'.previous = k.previous ∨ k'.previous = some .comment
  whole : k'.source.IsWhole
  edge : z'.head? = z.head? ∨ z'.head? = some ' ' ∨ z'.head? = some '\n'

/-- The cursor stands where two texts part, and they go on differently. -/
structure AtEdge (z z' : List Char) (k : Cursor) : Prop where
  parted : z'.head? ≠ z.head?
  pending : k.pending = none
  rest : k.source.rest.length = z.length

variable {z z' : List Char} {k k' left : Cursor}

theorem length_ahead (k : Cursor) :
    k.ahead.length = k.pending.toList.length + k.source.rest.length :=
  List.length_append

theorem AtEdge.length (h : AtEdge z z' k) : k.ahead.length = z.length := by
  rw [length_ahead, h.pending, h.rest]
  exact Nat.zero_add _

/-- Who takes nothing more stays at the edge. -/
theorem AtEdge.stays (h : AtEdge z z' k) (hl : left.ahead.length ≤ k.ahead.length)
    (hz : z.length ≤ left.source.rest.length) : AtEdge z z' left := by
  rw [h.length, length_ahead] at hl
  have hp : left.pending.toList.length = 0 := by omega
  refine ⟨h.parted, ?_, by omega⟩
  cases hleft : left.pending with
  | none => rfl
  | some c =>
    rw [hleft] at hp
    cases hp

/-- Who takes something there takes it of the part behind the edge. -/
theorem AtEdge.not_lt (h : AtEdge z z' k) (hl : left.ahead.length < k.ahead.length) :
    ¬ z.length ≤ left.source.rest.length := by
  rw [h.length, length_ahead] at hl
  omega

/-- What comes next is the same, or the first cursor is at the edge and the
second one sees a blank. -/
theorem Abreast.head?_cases (h : Abreast z z' k k') :
    k'.ahead.head? = k.ahead.head? ∨
      (AtEdge z z' k ∧ ∃ b, (b = ' ' ∨ b = '\n') ∧ k'.ahead.head? = some b) := by
  obtain ⟨cs, hr, hr'⟩ := h.rest
  cases hp : k.pending with
  | some c =>
    left
    rw [ahead, ahead, h.pending, hp]
    rfl
  | none =>
    have ha : k.ahead = cs ++ z := by
      rw [ahead, hp, hr]
      rfl
    have ha' : k'.ahead = cs ++ z' := by
      rw [ahead, h.pending, hp, hr']
      rfl
    rw [ha, ha']
    cases cs with
    | cons c cs => exact Or.inl rfl
    | nil =>
      by_cases hz : z'.head? = z.head?
      · exact Or.inl hz
      · right
        refine ⟨⟨hz, hp, by rw [hr]; rfl⟩, ?_⟩
        rcases h.edge with hb | hb | hb
        · exact absurd hb hz
        · exact ⟨' ', Or.inl rfl, hb⟩
        · exact ⟨'\n', Or.inr rfl, hb⟩

theorem rest_looked (k : Cursor) : k.looked.source.rest = k.source.rest := by
  unfold looked
  split
  · rfl
  · exact k.source.rest_peek

theorem rest_taken (k : Cursor) :
    k.taken.source.rest = if k.pending.isSome then k.source.rest else k.source.rest.tail := by
  unfold taken
  split
  · rename_i hp
    rw [hp]
    rfl
  · rename_i hp
    rw [hp]
    exact k.source.rest_read

theorem rest_taken_le (k : Cursor) : k.taken.source.rest.length ≤ k.source.rest.length := by
  rw [rest_taken]
  split
  · exact Nat.le_refl _
  · rw [List.length_tail]
    omega

/-- Two cursors stay abreast if nothing changes but what the relation does not
speak of. -/
theorem Abreast.of_eq {left' : Cursor} (h : Abreast z z' k k')
    (hr : left.source.rest = k.source.rest) (hr' : left'.source.rest = k'.source.rest)
    (hp : left'.pending = left.pending) (hw : left'.written = left.written)
    (hv : left'.previous = left.previous ∨ left'.previous = some .comment)
    (hs : left'.source.IsWhole) : Abreast z z' left left' where
  rest := by
    rw [hr, hr']
    exact h.rest
  pending := hp
  written := hw
  previous := hv
  whole := hs
  edge := h.edge

/-- What is ahead up to where the texts part is ahead on both sides. -/
theorem Abreast.ahead_eq {cs : List Char} (h : Abreast z z' k k') (hk : k.ahead = cs ++ z) :
    k'.ahead = cs ++ z' := by
  obtain ⟨ds, hr, hr'⟩ := h.rest
  have hcs : k.pending.toList ++ ds = cs := by
    have hz : k.pending.toList ++ ds ++ z = cs ++ z := by
      rw [List.append_assoc, ← hr, ← hk]
      rfl
    exact List.append_cancel_right hz
  rw [ahead, h.pending, hr', ← List.append_assoc, hcs]

/-- Two cursors with the same left to read. -/
theorem abreast_of_clear (h : k.Clear) (h' : k'.Clear) (ha : k'.ahead = k.ahead)
    (hw : k'.written = k.written) (hv : k'.previous = k.previous ∨ k'.previous = some .comment) :
    Abreast [] [] k k' where
  rest := by
    refine ⟨k.ahead, ?_, ?_⟩
    · rw [h.rest, List.append_nil]
    · rw [h'.rest, ha, List.append_nil]
  pending := h'.pending.trans h.pending.symm
  written := hw
  previous := hv
  whole := h'.whole
  edge := Or.inl rfl

theorem Abreast.looked (h : Abreast z z' k k') : Abreast z z' k.looked k'.looked := by
  refine h.of_eq k.rest_looked k'.rest_looked ?_ ?_ ?_ (whole_looked h.whole)
  · rw [pending_looked, pending_looked, h.pending]
  · rw [k.same_looked.written, k'.same_looked.written, h.written]
  · rw [k.same_looked.previous, k'.same_looked.previous]
    exact h.previous

/-- Within what the texts have in common, a character is taken from both; what
they go on with may be taken if they do not part there. -/
theorem Abreast.taken (h : Abreast z z' k k') (hz : z.length ≤ k.taken.source.rest.length)
    (he : ¬ AtEdge z z' k) : Abreast z z' k.taken k'.taken := by
  have hprevious : k'.taken.previous = k.taken.previous ∨
      k'.taken.previous = some .comment := by
    rw [k.same_taken.previous, k'.same_taken.previous]
    exact h.previous
  refine ⟨?_, by rw [pending_taken, pending_taken], ?_, hprevious, whole_taken h.whole, h.edge⟩
  · obtain ⟨cs, hr, hr'⟩ := h.rest
    rw [rest_taken] at hz ⊢
    rw [rest_taken, h.pending]
    cases hp : k.pending with
    | some c => exact ⟨cs, hr, hr'⟩
    | none =>
      rw [hp] at hz
      simp only [Option.isSome_none, Bool.false_eq_true, if_false] at hz ⊢
      cases cs with
      | cons c cs => exact ⟨cs, by rw [hr]; rfl, by rw [hr']; rfl⟩
      | nil =>
        rw [List.nil_append] at hr hr'
        -- a character of `z` would have been taken, so there is none
        have hnil : z = [] := by
          rw [hr, List.length_tail] at hz
          exact List.length_eq_zero_iff.1 (by omega)
        have hnil' : z' = [] := by
          refine Classical.byContradiction fun hne => ?_
          refine he ⟨?_, hp, by rw [hr]⟩
          rw [hnil]
          intro hh
          exact hne (List.head?_eq_none_iff.1 hh)
        rw [hr, hr', hnil, hnil']
        exact ⟨[], rfl, rfl⟩
  · rw [k.same_taken.written, k'.same_taken.written, h.written]

theorem Abreast.fresh (h : Abreast z z' k k') : Abreast z z' k.fresh k'.fresh :=
  h.of_eq rfl rfl h.pending rfl h.previous h.whole

section Written

/-! What is asked of a token while it is read depends on its text alone. -/

variable (hw : k'.written = k.written)
include hw

theorem value_congr : k'.value = k.value := by rw [value, value, hw]

theorem text_congr : k'.text = k.text := by rw [text, text, value_congr hw]

theorem isEmpty_congr : k'.isEmpty = k.isEmpty := by rw [isEmpty, isEmpty, hw]

theorem endsWith_congr (c : Char) : k'.endsWith c = k.endsWith c := by
  rw [endsWith, endsWith, hw]

theorem admitsSign_congr : k'.admitsSign = k.admitsSign := by
  rw [admitsSign, admitsSign, isEmpty_congr hw, endsWith_congr hw, endsWith_congr hw]

end Written

end Cursor

namespace Scan

open Cursor (Abreast AtEdge)

/-! ## The judgement -/

/-- No value. -/
abbrev Never {α : Type} (_ : α) : Prop := False

/-- Every value. -/
abbrev Always {α : Type} (_ : α) : Prop := True

/-- Two tokens say the same; they may stand at different places. -/
def Agree (t t' : Token) : Prop := t'.content = t.content

/-- Within what two texts have in common, the scan does the same on both, but
that it may stop at the edge with a value that satisfies `B`. -/
structure Mirrors {α : Type} (B : α → Prop) (R : α → α → Prop) (m : Scan α) : Prop where
  shrinks : ∀ {k left : Cursor} {a : α}, m k = .ok a left →
    left.source.rest.length ≤ k.source.rest.length
  mirrored : ∀ {z z' : List Char} {k k' left : Cursor} {a : α}, Abreast z z' k k' →
    m k = .ok a left → z.length ≤ left.source.rest.length →
    (B a ∧ AtEdge z z' left) ∨
      ∃ a' left', m k' = .ok a' left' ∧ R a a' ∧ Abreast z z' left left'

/-- After looking ahead at the edge, the scan goes on as before a blank, or takes
a character unless its value satisfies `B`. -/
def Parts {α : Type} (B : α → Prop) (f : Option Char → Scan α) : Prop :=
  ∀ d b, (b = ' ' ∨ b = '\n') → f d = f (some b) ∨ Spends (fun a => ¬ B a) (f d)

section Rules

variable {α β : Type} {A : β → Prop} {B : α → Prop} {R : α → α → Prop}

theorem Spends.mono {p q : α → Prop} {m : Scan α} (h : Spends p m) (hq : ∀ a, q a → p a) :
    Spends q m :=
  fun k a left e => ⟨(h k a left e).1, fun ha => (h k a left e).2 (hq a ha)⟩

/-- Where every value is excused, nothing has to be taken. -/
theorem Keeps.always {m : Scan α} (h : Keeps m) : Spends (fun a => ¬ Always a) m :=
  h.mono fun _ ha => ha trivial

theorem Mirrors.mono {C : α → Prop} {S : α → α → Prop} {m : Scan α} (h : Mirrors B R m)
    (hC : ∀ a, B a → C a) (hS : ∀ a a', R a a' → S a a') : Mirrors C S m where
  shrinks := h.shrinks
  mirrored ht e hz := by
    rcases h.mirrored ht e hz with ⟨hb, hedge⟩ | ⟨a', left', e', hr, ht'⟩
    · exact Or.inl ⟨hC _ hb, hedge⟩
    · exact Or.inr ⟨a', left', e', hS _ _ hr, ht'⟩

theorem Mirrors.excuse {m : Scan α} (h : Mirrors Never R m) : Mirrors B R m :=
  h.mono (fun _ ha => ha.elim) fun _ _ hr => hr

/-- A scan that fails has nothing to mirror. -/
theorem mirrors_fails {m : Scan α} (h : ∀ k, Makes Never k m) : Mirrors B R m where
  shrinks e := (h _ _ _ e).elim
  mirrored _ e := (h _ _ _ e).elim

theorem mirrors_pure {a : α} (h : R a a) : Mirrors B R (pure a) where
  shrinks e := by
    cases e
    exact Nat.le_refl _
  mirrored ht e _ := by
    cases e
    exact Or.inr ⟨a, _, rfl, h, ht⟩

/-- A value that is excused at the edge may only be followed by a scan that takes
something, or is excused in turn. -/
theorem mirrors_bind {m : Scan β} {f : β → Scan α} (h : Mirrors A Eq m)
    (g : ∀ b, Mirrors B R (f b)) (hs : ∀ b, A b → Spends (fun a => ¬ B a) (f b)) :
    Mirrors B R (m >>= f) where
  shrinks e := by
    obtain ⟨b, mid, e₁, e₂⟩ := bind_ok e
    have h₁ := h.shrinks e₁
    have h₂ := (g b).shrinks e₂
    omega
  mirrored {z z' k k' left a} ht e hz := by
    obtain ⟨b, mid, e₁, e₂⟩ := bind_ok e
    have hmid : z.length ≤ mid.source.rest.length := Nat.le_trans hz ((g b).shrinks e₂)
    rcases h.mirrored ht e₁ hmid with ⟨hb, hedge⟩ | ⟨b', mid', e₁', rfl, ht'⟩
    · obtain ⟨hle, hlt⟩ := hs b hb mid a left e₂
      refine Or.inl ⟨?_, hedge.stays hle hz⟩
      exact Classical.byContradiction fun ha => hedge.not_lt (hlt ha) hz
    · rcases (g b).mirrored ht' e₂ hz with hleft | ⟨a', left', e₂', hr, ht''⟩
      · exact Or.inl hleft
      · exact Or.inr ⟨a', left', (bind_eq e₁').trans e₂', hr, ht''⟩

/-- A scan that needs no excuse, and what follows it. -/
theorem Mirrors.bind {m : Scan β} {f : β → Scan α} (h : Mirrors Never Eq m)
    (g : ∀ b, Mirrors B R (f b)) : Mirrors B R (m >>= f) :=
  mirrors_bind h g fun _ hb => hb.elim

theorem mirrors_get {f : Cursor → Scan α}
    (hf : ∀ k k' : Cursor, k'.written = k.written → f k' = f k)
    (h : ∀ k, Mirrors B R (f k)) : Mirrors B R (get >>= f) where
  shrinks {k _ _} e := (h k).shrinks (get_bind_ok e)
  mirrored {_ _ k k' _ _} ht e hz := by
    rcases (h k).mirrored ht (get_bind_ok e) hz with hleft | ⟨a', left', e', hr, ht'⟩
    · exact Or.inl hleft
    · refine Or.inr ⟨a', left', ?_, hr, ht'⟩
      rw [get_bind, hf k k' ht.written]
      exact e'

theorem shrinks_look {f : Option Char → Scan α} (h : ∀ d, Mirrors B R (f d))
    {k left : Cursor} {a : α} (e : (look >>= f) k = .ok a left) :
    left.source.rest.length ≤ k.source.rest.length := by
  rw [bind_eq (look_eq k)] at e
  rw [← k.rest_looked]
  exact (h _).shrinks e

/-- A scan that looks first sees the same on both texts, unless it looks over the
edge. -/
theorem look_mirrored {f : Option Char → Scan α} (h : ∀ d, Mirrors B R (f d))
    {z z' : List Char} {k k' left : Cursor} {a : α} (ht : Abreast z z' k k')
    (e : (look >>= f) k = .ok a left) (hz : z.length ≤ left.source.rest.length)
    (hs : ∀ b, AtEdge z z' k → b = ' ' ∨ b = '\n' → k'.ahead.head? = some b →
      f k.ahead.head? k.looked = f (some b) k.looked ∨ (B a ∧ AtEdge z z' left)) :
    (B a ∧ AtEdge z z' left) ∨
      ∃ a' left', (look >>= f) k' = .ok a' left' ∧ R a a' ∧ Abreast z z' left left' := by
  rw [bind_eq (look_eq k)] at e
  rw [bind_eq (look_eq k')]
  rcases ht.head?_cases with heq | ⟨hedge, b, hb, hhead⟩
  · rw [heq]
    exact (h _).mirrored ht.looked e hz
  · rcases hs b hedge hb hhead with heq | hleft
    · rw [heq] at e
      rw [hhead]
      exact (h _).mirrored ht.looked e hz
    · exact Or.inl hleft

theorem mirrors_look {f : Option Char → Scan α} (h : ∀ d, Mirrors B R (f d))
    (hp : Parts B f) : Mirrors B R (look >>= f) where
  shrinks e := shrinks_look h e
  mirrored {z z' k k' left a} ht e hz := by
    refine look_mirrored h ht e hz fun b hedge hb _ => ?_
    rcases hp k.ahead.head? b hb with heq | hspends
    · exact Or.inl (congrFun heq _)
    · rw [bind_eq (look_eq k)] at e
      obtain ⟨hle, hlt⟩ := hspends _ _ _ e
      rw [k.ahead_looked] at hle hlt
      refine Or.inr ⟨?_, hedge.stays hle hz⟩
      exact Classical.byContradiction fun ha => hedge.not_lt (hlt ha) hz

/-- A scan that takes something whatever it sees, unless its value is excused. -/
theorem mirrors_look_spends {f : Option Char → Scan α}
    (hs : Spends (fun a => ¬ B a) (look >>= f)) (h : ∀ d, Mirrors B R (f d)) :
    Mirrors B R (look >>= f) where
  shrinks e := shrinks_look h e
  mirrored {_ _ _ _ left a} ht e hz := by
    obtain ⟨hle, hlt⟩ := hs _ _ _ e
    refine look_mirrored h ht e hz fun b hedge _ _ => Or.inr ⟨?_, hedge.stays hle hz⟩
    exact Classical.byContradiction fun ha => hedge.not_lt (hlt ha) hz

/-- After looking, the scan goes on as before a blank, or it takes something of
the source, whatever it may give back in the end. -/
theorem mirrors_look_rest {f : Option Char → Scan α} (h : ∀ d, Mirrors B R (f d))
    (hp : ∀ {d b}, (b = ' ' ∨ b = '\n') → ∀ {k left : Cursor} {a : α}, k.pending = none →
      k.ahead.head? = d → f d k = .ok a left →
      f d k = f (some b) k ∨ left.source.rest.length < k.source.rest.length) :
    Mirrors B R (look >>= f) where
  shrinks e := shrinks_look h e
  mirrored {z z' k k' left a} ht e hz := by
    refine look_mirrored h ht e hz fun b hedge hb _ => ?_
    rw [bind_eq (look_eq k)] at e
    rcases hp hb (k.pending_looked.trans hedge.pending) (congrArg _ k.ahead_looked) e with
      heq | hlt
    · exact Or.inl heq
    · rw [k.rest_looked, hedge.rest] at hlt
      exact absurd hz (Nat.not_le.2 hlt)

theorem nextIs_bind (c : Char) (f : Bool → Scan α) :
    (nextIs c >>= f) = look >>= fun d => f (d == some c) := rfl

/-- Looking for a character that is no blank. -/
theorem mirrors_nextIs {c : Char} {f : Bool → Scan α} (hc : c ≠ ' ') (hc' : c ≠ '\n')
    (h : ∀ found, Mirrors B R (f found)) (hs : Spends (fun a => ¬ B a) (f true)) :
    Mirrors B R (nextIs c >>= f) := by
  rw [nextIs_bind]
  refine mirrors_look (fun d => h _) fun d b hb => ?_
  have hblank : (some b == some c) = false := by
    rw [beq_eq_false_iff_ne]
    rintro ⟨⟩
    rcases hb with hb | hb
    · exact hc hb
    · exact hc' hb
  cases hd : d == some c with
  | true => exact Or.inr hs
  | false => exact Or.inl (by rw [hblank])

end Rules

/-! ## Single steps -/

section Steps

theorem mirrors_take : Mirrors Always Eq take where
  shrinks {k _ _} e := by
    cases e
    exact k.rest_taken_le
  mirrored {z z' k k' left a} ht e hz := by
    rw [take_eq] at e
    cases e
    by_cases hedge : AtEdge z z' k
    · refine Or.inl ⟨trivial, hedge.stays ?_ hz⟩
      rw [Cursor.ahead_taken, List.length_tail]
      omega
    · rcases ht.head?_cases with heq | ⟨hedge', -⟩
      · exact Or.inr ⟨k'.ahead.head?, k'.taken, take_eq k', heq.symm, ht.taken hz hedge⟩
      · exact absurd hedge' hedge

/-- A character that is had within what the texts have in common is had on both
sides. -/
theorem exists_cons {z z' : List Char} {k k' : Cursor} {c : Char} {cs : List Char}
    (ht : Abreast z z' k k') (hk : k.ahead = c :: cs)
    (hz : z.length ≤ k.taken.source.rest.length) :
    ∃ cs', k'.ahead = c :: cs' ∧ Abreast z z' k.taken k'.taken := by
  have hedge : ¬ AtEdge z z' k := by
    intro hedge
    have hlen : k.taken.ahead.length < z.length := by
      rw [Cursor.ahead_taken, ← hedge.length, hk]
      exact Nat.lt_succ_self _
    rw [Cursor.length_ahead] at hlen
    omega
  rcases ht.head?_cases with heq | ⟨hedge', -⟩
  · rw [hk] at heq
    obtain ⟨cs', hcs'⟩ := List.head?_eq_some_iff.1 heq
    exact ⟨cs', hcs', ht.taken hz hedge⟩
  · exact absurd hedge' hedge

theorem skip_nil {k left : Cursor} {c : Char} (hk : k.ahead = []) : skip k ≠ .ok c left := by
  intro e
  have hless := (takes_skip k c left e).2 trivial
  rw [hk] at hless
  cases hless

theorem mirrors_skip : Mirrors Never Eq skip where
  shrinks {k left c} e := by
    cases hk : k.ahead with
    | nil => exact absurd e (skip_nil hk)
    | cons d cs =>
      rw [skip_cons hk] at e
      cases e
      exact k.rest_taken_le
  mirrored {z z' k k' left c} ht e hz := by
    cases hk : k.ahead with
    | nil => exact absurd e (skip_nil hk)
    | cons d cs =>
      rw [skip_cons hk] at e
      cases e
      obtain ⟨cs', hk', ht'⟩ := exists_cons ht hk hz
      exact Or.inr ⟨_, _, skip_cons hk', rfl,
        ht'.of_eq rfl rfl ht'.pending ht'.written ht'.previous ht'.whole⟩

/-- A change of the text of the token that depends on that text alone. -/
theorem mirrors_modify {f : List Char → List Char} :
    Mirrors Never Eq (modify fun k : Cursor => { k with written := f k.written } : Scan Unit) where
  shrinks e := by
    cases e
    exact Nat.le_refl _
  mirrored ht e _ := by
    cases e
    refine Or.inr ⟨(), _, rfl, rfl, ?_⟩
    exact ht.of_eq rfl rfl ht.pending (congrArg f ht.written) ht.previous ht.whole

theorem mirrors_push (c : Char) : Mirrors Never Eq (push c) := mirrors_modify

theorem mirrors_append (cs : List Char) : Mirrors Never Eq (append cs) := mirrors_modify

theorem mirrors_pushIf (keep : Bool) (c : Char) : Mirrors Never Eq (pushIf keep c) := by
  unfold pushIf
  split
  · exact mirrors_push c
  · exact mirrors_pure rfl

theorem mirrors_appendIf (keep : Bool) (cs : List Char) :
    Mirrors Never Eq (appendIf keep cs) := by
  unfold appendIf
  split
  · exact mirrors_append cs
  · exact mirrors_pure rfl

/-- Taking a character into the token is taking it and adding it. -/
theorem consume_eq : consume = skip >>= fun c => push c >>= fun _ => pure c := by
  funext k
  cases hk : k.ahead with
  | cons c cs => rw [consume_cons hk, bind_eq (skip_cons hk)]; rfl
  | nil =>
    simp only [consume, skip, bind, EStateM.bind, advance_nil hk, exhausted, failIfBroken,
      takeFailure]
    split
    · rfl
    · rfl

theorem mirrors_consume : Mirrors Never Eq consume := by
  rw [consume_eq]
  exact mirrors_skip.bind fun c => (mirrors_push c).bind fun _ => mirrors_pure rfl

theorem mirrors_startToken : Mirrors Never Eq startToken where
  shrinks e := by
    cases e
    exact Nat.le_refl _
  mirrored ht e _ := by
    cases e
    exact Or.inr ⟨(), _, rfl, rfl, ht.fresh⟩

theorem mirrors_setPrevious (kind : Kind) : Mirrors Never Eq (setPrevious kind) where
  shrinks e := by
    cases e
    exact Nat.le_refl _
  mirrored ht e _ := by
    cases e
    exact Or.inr ⟨(), _, rfl, rfl, ht.of_eq rfl rfl ht.pending ht.written (Or.inl rfl) ht.whole⟩

theorem mirrors_emitAs (kind : Kind) (text : String) :
    Mirrors Never Agree (emitAs kind text) where
  shrinks e := by
    cases e
    exact Nat.le_refl _
  mirrored ht e _ := by
    cases e
    refine Or.inr ⟨_, _, rfl, rfl, ?_⟩
    exact ht.of_eq rfl rfl ht.pending ht.written (Or.inl rfl) ht.whole

theorem mirrors_emit (kind : Kind) : Mirrors Never Agree (emit kind) where
  shrinks e := by
    cases e
    exact Nat.le_refl _
  mirrored {_ _ k k' _ _} ht e _ := by
    cases e
    refine Or.inr ⟨⟨kind, k'.text, k'.span⟩,
      { k' with written := [], previous := some kind }, rfl, ?_, ?_⟩
    · exact congrArg (Prod.mk kind) (Cursor.text_congr ht.written)
    · exact ht.of_eq rfl rfl ht.pending rfl (Or.inl rfl) ht.whole

theorem mirrors_failIfBroken : Mirrors Never Eq failIfBroken where
  shrinks e := Nat.le_of_eq (by rw [(eq_of_failIfBroken e).1])
  mirrored {z z' k k' left _} ht e _ := by
    rw [(eq_of_failIfBroken e).1]
    exact Or.inr ⟨(), k', failIfBroken_unmet ht.whole.met, rfl, ht⟩

theorem backtrack_eq {k : Cursor} {c : Char} {written : List Char} (hp : k.pending = none)
    (hw : k.written = c :: written) : backtrack k = .ok () (k.givenBack c written) := by
  unfold backtrack
  rw [get_bind, hp, hw]
  rfl

theorem mirrors_backtrack : Mirrors Never Eq backtrack where
  shrinks e := by
    obtain ⟨c, written, -, -, rfl⟩ := exists_of_backtrack e
    exact Nat.le_refl _
  mirrored {z z' k k' left _} ht e _ := by
    obtain ⟨c, written, hp, hw, rfl⟩ := exists_of_backtrack e
    have e' := backtrack_eq (ht.pending.trans hp) (ht.written.trans hw)
    exact Or.inr ⟨(), _, e', rfl, ht.of_eq rfl rfl rfl rfl ht.previous ht.whole⟩

theorem mirrors_giveBackDot : Mirrors Never Eq giveBackDot := by
  refine mirrors_get (fun k k' hw => ?_) fun k => ?_
  · rw [Cursor.endsWith_congr hw]
  · split
    · exact mirrors_backtrack
    · exact mirrors_pure rfl

end Steps

/-! ## Repetitions -/

section Iterate

variable {σ α : Type} {B : α → Prop} {turn : σ → Scan (Turn σ α)} {h : ∀ s, Advances (turn s)}
  {T : Turn σ α → Prop}

/-- How a repetition that succeeds goes on after a turn. -/
theorem iterate_cases {s : σ} {k left : Cursor} {a : α}
    (e : iterate turn h s k = .ok a left) :
    (turn s k = .ok (.done a) left) ∨ ∃ s' mid, turn s k = .ok (.again s') mid ∧
      iterate turn h s' mid = .ok a left := by
  rw [iterate_eq] at e
  obtain ⟨r, mid, e₁, e₂⟩ := bind_ok e
  cases r with
  | again s' => exact Or.inr ⟨s', mid, e₁, e₂⟩
  | done b =>
    cases e₂
    exact Or.inl e₁

theorem shrinks_iterate (ht : ∀ s, Mirrors T Eq (turn s)) {s : σ} {k left : Cursor} {a : α}
    (e : iterate turn h s k = .ok a left) :
    left.source.rest.length ≤ k.source.rest.length := by
  generalize hn : k.ahead.length = n
  induction n using Nat.strongRecOn generalizing s k with
  | ind n ih =>
    rcases iterate_cases e with e₁ | ⟨s', mid, e₁, e₂⟩
    · exact (ht s).shrinks e₁
    · have hlt := (h s k _ mid e₁).2 trivial
      have h₁ := (ht s).shrinks e₁
      have h₂ := ih mid.ahead.length (by omega) e₂ rfl
      omega

/-- A repetition mirrors what its turns do. A turn that is excused may be followed
by others only if they take something, and its value is excused if it is the
last. -/
theorem mirrors_iterate (ht : ∀ s, Mirrors T Eq (turn s))
    (hagain : ∀ s, T (.again s) → Spends (fun a => ¬ B a) (iterate turn h s))
    (hdone : ∀ a, T (.done a) → B a) (s : σ) : Mirrors B Eq (iterate turn h s) where
  shrinks e := shrinks_iterate ht e
  mirrored {z z' k k' left a} hk e hz := by
    -- every turn but the last leaves less ahead
    generalize hn : k.ahead.length = n
    induction n using Nat.strongRecOn generalizing s k k' with
    | ind n ih =>
      rcases iterate_cases e with e₁ | ⟨s', mid, e₁, e₂⟩
      · rcases (ht s).mirrored hk e₁ hz with ⟨hT, hedge⟩ | ⟨_, left', e₁', rfl, hk'⟩
        · exact Or.inl ⟨hdone a hT, hedge⟩
        · refine Or.inr ⟨a, left', ?_, rfl, hk'⟩
          rw [iterate_eq, bind_eq e₁']
          rfl
      · have hlt := (h s k _ mid e₁).2 trivial
        have hmid : z.length ≤ mid.source.rest.length := Nat.le_trans hz (shrinks_iterate ht e₂)
        rcases (ht s).mirrored hk e₁ hmid with ⟨hT, hedge⟩ | ⟨_, mid', e₁', rfl, hk'⟩
        · obtain ⟨hle, hspent⟩ := hagain s' hT mid a left e₂
          refine Or.inl ⟨?_, hedge.stays hle hz⟩
          exact Classical.byContradiction fun hb => hedge.not_lt (hspent hb) hz
        · rcases ih mid.ahead.length (by omega) s' hk' e₂ rfl with hleft | ⟨_, left', e₂', hr, hk''⟩
          · exact Or.inl hleft
          · refine Or.inr ⟨_, left', ?_, hr, hk''⟩
            rw [iterate_eq, bind_eq e₁']
            exact e₂'

/-- Turns that need no excuse. -/
theorem Mirrors.iterate (ht : ∀ s, Mirrors Never Eq (turn s)) (s : σ) :
    Mirrors B Eq (iterate turn h s) :=
  mirrors_iterate ht (fun _ hf => hf.elim) (fun _ hf => hf.elim) s

/-- Every turn takes something, and is excused if others follow. -/
theorem mirrors_iterate_takes (ht : ∀ s, Mirrors Turn.GoesOn Eq (turn s))
    (hs : ∀ s, Takes (turn s)) (s : σ) : Mirrors B Eq (Scan.iterate turn h s) := by
  refine mirrors_iterate ht (fun s _ => ?_) (fun _ hd => hd.elim) s
  rw [iterate_eq]
  refine (hs s).bind fun r => ?_
  split
  · exact keeps_iterate _
  · exact keeps_pure _

/-- Turns that are all excused. -/
theorem mirrors_iterate_always (ht : ∀ s, Mirrors Always Eq (turn s)) (s : σ) :
    Mirrors Always Eq (Scan.iterate turn h s) :=
  mirrors_iterate ht (fun s _ => (keeps_iterate s).always) (fun _ _ => trivial) s

end Iterate

/-! ### Runs of characters -/

section Runs

variable {p : Char → Bool}

/-- After looking, the next character is taken or none. -/
theorem mirrors_takeTurn {m : Scan Char} {B : Turn Unit Unit → Prop} (hm : Mirrors Never Eq m)
    (d : Option Char) :
    Mirrors B Eq (match d with
      | none => (return .done () : Scan (Turn Unit Unit))
      | some c => if p c then do let _ ← m; return .again () else return .done ()) := by
  split
  · exact mirrors_pure rfl
  · split
    · exact hm.bind fun _ => mirrors_pure rfl
    · exact mirrors_pure rfl

/-- A run that no blank belongs to ends at the edge on both texts. -/
theorem parts_takeTurn {m : Scan Char} (hm : Takes m) (hs : p ' ' = false)
    (hl : p '\n' = false) :
    Parts Never (fun d => match d with
      | none => (return .done () : Scan (Turn Unit Unit))
      | some c => if p c then do let _ ← m; return .again () else return .done ()) := by
  intro d b hb
  have hblank : p b = false := by rcases hb with rfl | rfl <;> assumption
  simp only [hblank]
  cases d with
  | none => exact Or.inl rfl
  | some c =>
    cases hc : p c with
    | false => exact Or.inl (by simp [hc])
    | true =>
      simp only [hc, if_true]
      exact Or.inr (hm.bind fun _ => keeps_pure _)

theorem mirrors_consumeWhile (hs : p ' ' = false) (hl : p '\n' = false) :
    Mirrors Never Eq (consumeWhile p) :=
  Mirrors.iterate (fun _ => mirrors_look (mirrors_takeTurn mirrors_consume)
    (parts_takeTurn takes_consume hs hl)) ()

theorem mirrors_letters : Mirrors Never Eq (consumeWhile Unicode.isAlphabetic) :=
  mirrors_consumeWhile (Unicode.isAlphabetic_ascii (by decide))
    (Unicode.isAlphabetic_ascii (by decide))

/-- A run that blanks may belong to may go on behind the edge. -/
theorem mirrors_consumeWhile_always : Mirrors Always Eq (consumeWhile p) :=
  mirrors_iterate_always (fun s => mirrors_look_spends (advances_consumeTurn p s).keeps.always
    (mirrors_takeTurn mirrors_consume)) ()

end Runs

theorem mirrors_consumePartner (keep : Bool) (partner : Char) :
    Mirrors Always Eq (consumePartner keep partner) := by
  have hkeeps := keeps_consumePartner keep partner
  unfold consumePartner at hkeeps ⊢
  rw [nextIs_bind] at hkeeps ⊢
  refine mirrors_look_spends hkeeps.always fun d => ?_
  split
  · exact mirrors_bind mirrors_take (fun _ => (mirrors_pushIf keep partner).excuse)
      fun _ _ => (keeps_pushIf keep partner).always
  · exact mirrors_pure rfl

/-- A line end may have another half behind the edge. -/
theorem mirrors_consumeLineEnd (keep : Bool) :
    Mirrors Always Eq (consumeLineEnd keep false) := by
  refine mirrors_look_spends (takes_consumeLineEnd keep).keeps.always fun d => ?_
  split
  · exact mirrors_fails fun _ => makes_unexpectedEnd _
  · split
    · exact mirrors_fails fun _ => makes_violation _
    · refine mirrors_skip.bind fun _ => (mirrors_pushIf _ _).bind fun _ => ?_
      exact mirrors_consumePartner _ _

/-- More blanks may stand behind the edge. -/
theorem mirrors_blankTurn (u : Unit) : Mirrors Always Eq (blankTurn u) := by
  refine mirrors_look_spends (advances_blankTurn u).keeps.always fun d => ?_
  split
  · exact mirrors_pure rfl
  · split
    · exact mirrors_pure rfl
    · split
      · exact mirrors_bind (mirrors_consumeLineEnd _) (fun _ => mirrors_pure rfl)
          fun _ _ => (keeps_pure _).always
      · exact mirrors_skip.bind fun _ => mirrors_pure rfl

theorem mirrors_discardBlank : Mirrors Always Eq discardBlank :=
  mirrors_bind (mirrors_iterate_always mirrors_blankTurn ()) (fun _ => mirrors_startToken.excuse)
    fun _ _ => (keeps_modify (f := Cursor.fresh) fun _ => Nat.le_refl _).always

end Scan

end TripleLex

import TripleLex.Proofs.DecodedBodies
import TripleLex.Proofs.NamesAlone

/-!
# What is gathered for a name

Two cursors stand elsewhere, each on a whole source, if the same characters come
next and the same has been gathered so far. They need not agree on where they are
in their texts, nor on the token before. What is gathered for a name does not depend
on either: a scan is `Placeless` if it succeeds at both cursors alike, and leaves
them elsewhere again. The relation is the same from either side, so that such a scan
succeeds at the one cursor exactly where it succeeds at the other one.

A text is a name by itself if a name is gathered from it and nothing but a gap is left
(`Names`). Where dots are not taken in, no dot is passed over, so that such a text has
none.

## Main results

* `placeless_bind`, `placeless_iterate`, `Placeless.ask` — the rules.
* `placeless_gatherName`, `names_congr` — names.
* `names_submission_iff` — where dots are not taken in.
-/

namespace TripleLex

namespace Cursor

/-- The other cursor has the same to read, and the same has been gathered for the
token there. -/
structure Elsewhere (k k' : Cursor) : Prop where
  rest : k'.source.rest = k.source.rest
  pending : k'.pending = k.pending
  written : k'.written = k.written
  whole : k.source.IsWhole
  whole' : k'.source.IsWhole

variable {k k' : Cursor}

theorem Elsewhere.symm (h : k.Elsewhere k') : k'.Elsewhere k :=
  ⟨h.rest.symm, h.pending.symm, h.written.symm, h.whole', h.whole⟩

theorem Elsewhere.ahead_eq (h : k.Elsewhere k') : k'.ahead = k.ahead := by
  rw [ahead, ahead, h.rest, h.pending]

theorem elsewhere_of_clear (h : k.Clear) (h' : k'.Clear) (ha : k'.ahead = k.ahead)
    (hw : k'.written = k.written) : k.Elsewhere k' where
  rest := by rw [h'.rest, h.rest, ha]
  pending := h'.pending.trans h.pending.symm
  written := hw
  whole := h.whole
  whole' := h'.whole

theorem Elsewhere.taken (h : k.Elsewhere k') : k.taken.Elsewhere k'.taken where
  rest := by rw [rest_taken, rest_taken, h.rest, h.pending]
  pending := by rw [pending_taken, pending_taken]
  written := by rw [k.same_taken.written, k'.same_taken.written, h.written]
  whole := whole_taken h.whole
  whole' := whole_taken h.whole'

/-- Places may change as they like. -/
theorem Elsewhere.moved (h : k.Elsewhere k') (c : Char) : (k.moved c).Elsewhere (k'.moved c) :=
  ⟨h.taken.rest, h.taken.pending, h.taken.written, h.taken.whole, h.taken.whole'⟩

/-- The same is added to the text on both sides. -/
theorem Elsewhere.append (h : k.Elsewhere k') (cs : List Char) :
    Elsewhere { k with written := cs ++ k.written } { k' with written := cs ++ k'.written } :=
  ⟨h.rest, h.pending, congrArg (cs ++ ·) h.written, h.whole, h.whole'⟩

end Cursor

namespace Scan

open Cursor (Elsewhere)

/-- The scan succeeds alike wherever it stands. -/
class Placeless {α : Type} (m : Scan α) : Prop where
  elsewhere : ∀ {k k' left : Cursor} {a : α}, k.Elsewhere k' → m k = .ok a left →
    ∃ left', m k' = .ok a left' ∧ left.Elsewhere left'

/-! ## Rules -/

section Rules

variable {α β σ : Type}

instance placeless_pure (a : α) : Placeless (pure a : Scan α) where
  elsewhere h e := by
    cases e
    exact ⟨_, rfl, h⟩

theorem Placeless.bind {m : Scan α} {f : α → Scan β} (h : Placeless m)
    (g : ∀ a, Placeless (f a)) : Placeless (m >>= f) where
  elsewhere hk e := by
    obtain ⟨a, mid, e₁, e₂⟩ := bind_ok e
    obtain ⟨mid', e₁', hmid⟩ := h.elsewhere hk e₁
    obtain ⟨left', e₂', hleft⟩ := (g a).elsewhere hmid e₂
    exact ⟨left', (bind_eq e₁').trans e₂', hleft⟩

instance placeless_bind (m : Scan α) (f : α → Scan β) [hm : Placeless m]
    [hf : ∀ a, Placeless (f a)] : Placeless (m >>= f) :=
  hm.bind hf

/-- What is found is taken up by cases. -/
instance placeless_options (m : Scan (Option β)) (f : Option β → Scan α) [hm : Placeless m]
    [hnone : Placeless (f none)] [hsome : ∀ b, Placeless (f (some b))] : Placeless (m >>= f) := by
  refine hm.bind fun o => ?_
  cases o with
  | none => exact hnone
  | some b => exact hsome b

instance placeless_ite (c : Prop) [Decidable c] (m n : Scan α) [Placeless m] [Placeless n] :
    Placeless (if c then m else n) := by
  split <;> infer_instance

/-- What is asked of a cursor is about its text. -/
theorem Placeless.ask {f : Cursor → Scan α}
    (hf : ∀ k k' : Cursor, k'.written = k.written → f k' = f k) (h : ∀ k, Placeless (f k)) :
    Placeless (get >>= f) where
  elsewhere {k k' left a} hk e := by
    obtain ⟨left', e', hleft⟩ := (h k).elsewhere hk (get_bind_ok e)
    refine ⟨left', ?_, hleft⟩
    rw [get_bind, hf k k' hk.written]
    exact e'

/-- A scan that makes nothing. -/
theorem placeless_fails {m : Scan α} (h : ∀ k, Makes Never k m) : Placeless m where
  elsewhere _ e := (h _ _ _ e).elim

instance placeless_iterate (turn : σ → Scan (Turn σ α)) (h : ∀ s, Advances (turn s))
    [ht : ∀ s, Placeless (turn s)] (s : σ) : Placeless (iterate turn h s) where
  elsewhere {k k' left a} hk e := by
    refine iterate_induction (h := h)
      (P := fun s k r => ∀ {k' left a}, k.Elsewhere k' → r = .ok a left →
        ∃ left', iterate turn h s k' = .ok a left' ∧ left.Elsewhere left')
      ?_ ?_ ?_ s k hk e
    · intro s k s' mid r e ih k' left a hk hr
      obtain ⟨mid', e', hmid⟩ := (ht s).elsewhere hk e
      obtain ⟨left', e'', hleft⟩ := ih hmid hr
      exact ⟨left', by rw [iterate_eq, bind_eq e']; exact e'', hleft⟩
    · intro s k a left e k' left' a' hk hr
      cases hr
      obtain ⟨left'', e', hleft⟩ := (ht s).elsewhere hk e
      exact ⟨left'', by rw [iterate_eq, bind_eq e']; rfl, hleft⟩
    · intro s k fault left e k' left' a' hk hr
      cases hr

end Rules

/-! ## Single steps -/

section Steps

variable {α : Type}

instance placeless_malformedEscape (message : String) :
    Placeless (malformedEscape message : Scan α) :=
  placeless_fails fun _ _ _ e => by cases e

instance placeless_malformedUnicodeEscape (message : String) :
    Placeless (malformedUnicodeEscape message : Scan α) :=
  placeless_fails fun _ _ _ e => by cases e

instance placeless_misuse (message : String) : Placeless (misuse message : Scan α) :=
  placeless_fails fun _ _ _ e => by cases e

instance placeless_unexpectedEnd (expected : String) :
    Placeless (unexpectedEnd expected : Scan α) :=
  placeless_fails fun _ => makes_unexpectedEnd _

instance placeless_exhausted : Placeless (exhausted : Scan α) :=
  placeless_fails fun _ => makes_bind fun _ _ _ _ e => by cases e

instance placeless_look : Placeless look where
  elsewhere {k k' left a} h e := by
    rw [look_eq, Cursor.looked_of_whole h.whole] at e
    cases e
    exact ⟨k', by rw [look_eq, Cursor.looked_of_whole h.whole', h.ahead_eq], h⟩

instance placeless_advance : Placeless advance where
  elsewhere {k k' left a} h e := by
    unfold advance at e ⊢
    rw [k.next?_eq] at e
    rw [k'.next?_eq, h.ahead_eq]
    cases hc : k.ahead.head? with
    | none =>
      rw [hc] at e
      cases e
      exact ⟨_, rfl, h.taken⟩
    | some c =>
      rw [hc] at e
      cases e
      exact ⟨_, rfl, h.moved c⟩

instance placeless_push (c : Char) : Placeless (push c) where
  elsewhere h e := by
    cases e
    exact ⟨_, rfl, h.append [c]⟩

instance placeless_append (cs : List Char) : Placeless (append cs) where
  elsewhere h e := by
    cases e
    exact ⟨_, rfl, h.append cs.reverse⟩

instance placeless_pushIf (keep : Bool) (c : Char) : Placeless (pushIf keep c) := by
  unfold pushIf
  infer_instance

instance placeless_appendIf (keep : Bool) (cs : List Char) : Placeless (appendIf keep cs) := by
  unfold appendIf
  infer_instance

instance placeless_consume : Placeless consume := by
  unfold consume
  infer_instance

instance placeless_skip : Placeless skip := by
  unfold skip
  infer_instance

/-- Whatever is given back is given back on both sides. -/
instance placeless_backtrack : Placeless backtrack where
  elsewhere {k k' left a} h e := by
    obtain ⟨c, w, hp, hw, rfl⟩ := exists_of_backtrack e
    refine ⟨k'.givenBack c w, ?_, h.rest, rfl, rfl, h.whole, h.whole'⟩
    unfold backtrack
    rw [get_bind, h.pending, hp, h.written, hw]
    rfl

end Steps

/-! ## Names -/

instance placeless_readHexDigits (n : Nat) : Placeless (readHexDigits n) := by
  induction n with
  | zero => exact placeless_pure _
  | succ n ih =>
    unfold readHexDigits
    infer_instance

instance placeless_pushCodePoint (digits : List Char) : Placeless (pushCodePoint digits) := by
  unfold pushCodePoint
  split
  · split <;> infer_instance
  · infer_instance

instance placeless_decodeAfterBackslash (context : EscapeContext) (next : Char) :
    Placeless (decodeAfterBackslash context next) := by
  unfold decodeAfterBackslash
  split <;> infer_instance

instance placeless_decodeEscape (context : EscapeContext) : Placeless (decodeEscape context) := by
  unfold decodeEscape
  infer_instance

instance placeless_readLocalEscape : Placeless readLocalEscape := by
  refine placeless_skip.bind fun opening => ?_
  split <;> infer_instance

instance placeless_nameTurn (rule : Name.Rule) (allowDot seenColon : Bool) :
    Placeless (nameTurn rule allowDot seenColon) := by
  unfold nameTurn
  infer_instance

/-- What is gathered for a name depends on the characters that come next. -/
instance placeless_gatherName (rule : Name.Rule) (allowDot : Bool) :
    Placeless (gatherName rule allowDot) := by
  unfold gatherName
  exact Placeless.bind inferInstance fun _ =>
    Placeless.ask (fun k k' hw => by rw [hw]) fun _ => inferInstance

/-! ## Names by themselves -/

section Names

variable {k mid left : Cursor} {rule : Name.Rule} {allowDot seen : Bool} {cs : List Char} {c : Char}
  {u : Unit} {text : String}

/-- Nothing but a gap is left. -/
def Spent (k : Cursor) : Prop := ∀ c ∈ k.ahead, Unicode.isBlank c = true

/-- What is gathered is a name with this text, and only a gap is left behind it. -/
def Names (rule : Name.Rule) (allowDot : Bool) (text : String) (k : Cursor) : Prop :=
  ∃ mid, gatherName rule allowDot k = .ok () mid ∧ Name.isPrefixedName rule mid.value = true ∧
    nameText rule mid.value = text ∧ Spent mid

theorem names_congr {k' : Cursor} (h : k.Elsewhere k') :
    Names rule allowDot text k ↔ Names rule allowDot text k' := by
  have himp : ∀ {k k' : Cursor}, k.Elsewhere k' →
      Names rule allowDot text k → Names rule allowDot text k' := by
    rintro k k' h ⟨mid, e, hname, htext, hspent⟩
    obtain ⟨mid', e', hmid⟩ := (placeless_gatherName rule allowDot).elsewhere h e
    have hvalue : mid'.value = mid.value := Cursor.value_congr hmid.written
    refine ⟨mid', e', by rwa [hvalue], by rwa [hvalue], ?_⟩
    unfold Spent
    rwa [hmid.ahead_eq]
  exact ⟨himp h, himp h.symm⟩

/-- A name that is gathered begins with the character that comes next, unless that
announces an escape. -/
theorem head?_of_gatherName (hb : k.Begun) (hk : k.ahead = c :: cs)
    (e : gatherName rule allowDot k = .ok u left) (hne : left.value ≠ []) :
    c = '\\' ∨ left.value.head? = some c := by
  obtain ⟨mid, e, hs⟩ := gatherName_settles e
  -- what is left of the text after the dot is given back begins as the text did
  have hhead : ∀ ws, mid.value = c :: ws → left.value.head? = some c := by
    intro ws hmid
    cases hs with
    | stays => rw [hmid]; rfl
    | gives w _ hw =>
      have hvalue : mid.value = w.reverse ++ ['.'] := by rw [Cursor.value, hw, List.reverse_cons]
      have hleft : (mid.givenBack '.' w).value = w.reverse := rfl
      rw [hleft] at hne ⊢
      obtain ⟨d, ds, hw⟩ := List.exists_cons_of_ne_nil hne
      rw [hvalue, hw] at hmid
      rw [hw, (List.cons.inj hmid).1]
      rfl
  have hstopped : mid.written = [] → False := by
    intro hnil
    cases hs with
    | stays => exact hne (by rw [Cursor.value, hnil]; rfl)
    | gives w _ hw =>
      rw [hnil] at hw
      cases hw
  by_cases hescape : c = '\\'
  · exact .inl hescape
  right
  have hbegun : k.looked.Begun := (k.same_looked.reads k.ahead_looked).begun hb
  rw [iterate_eq] at e
  obtain ⟨r, k₁, e₁, e₂⟩ := bind_ok e
  obtain ⟨o, k₂, e₁, e₃⟩ := bind_ok e₁
  rw [look_eq, hk] at e₁
  cases e₁
  simp only [List.head?_cons, Bool.false_and, Bool.and_false, Bool.false_eq_true, if_false,
    beq_iff_eq, hescape] at e₃
  split at e₃
  · cases e₃
    cases e₂
    exact (hstopped hbegun.written).elim
  · split at e₃
    · obtain ⟨d, k₃, e₃, e₄⟩ := bind_ok e₃
      rw [consume_cons (k.ahead_looked.trans hk)] at e₃
      cases e₃
      cases e₄
      obtain ⟨_, ws, r, -⟩ := iterate_ok (fun s _ r _ e => nameTurn_ok s r e) e₂
      refine hhead ws ?_
      have hwritten : ((k.looked.moved c).push c).written = [c] :=
        congrArg (c :: ·) ((k.looked.same_taken).written.trans hbegun.written)
      rw [Cursor.value, r.written, hwritten, List.reverse_append, List.reverse_reverse]
      rfl
    · cases e₃
      cases e₂
      exact (hstopped hbegun.written).elim

/-- A name is begun by one of its own characters or by an escape. -/
theorem Names.begins (h : Names rule allowDot text k) (hb : k.Begun) (hk : k.ahead = c :: cs) :
    c = '\\' ∨ Name.beginsTerm c = true := by
  obtain ⟨mid, e, hname, -, -⟩ := h
  obtain ⟨d, word, hword, hd⟩ := Name.beginsTerm_of_isPrefixedName hname
  rcases head?_of_gatherName hb hk e (by rw [hword]; exact List.cons_ne_nil _ _) with hc | hc
  · exact .inl hc
  · rw [hword] at hc
    cases hc
    exact .inr hd

/-! ### Dots -/

theorem ofChar_name (c : Char) : Escape.ofChar .name c = .refused ∨
    (c ≠ '.' ∧ ∃ count kept, Escape.ofChar .name c = .codePoint count kept) := by
  unfold Escape.ofChar
  split
  case h_8 => exact .inr ⟨by decide, 4, false, rfl⟩
  case h_9 => exact .inr ⟨by decide, 8, true, rfl⟩
  all_goals exact .inl rfl

theorem dot_behind (hk : k.ahead = c :: cs) (hc : c ≠ '.') (hdot : '.' ∈ k.ahead) : '.' ∈ cs := by
  rw [hk] at hdot
  exact (List.mem_cons.1 hdot).resolve_left (Ne.symm hc)

/-- An escape in a name passes over no dot. -/
theorem dot_behind_escape (hk : k.ahead = '\\' :: cs) (e : decodeEscape .name k = .ok u left)
    (hdot : '.' ∈ k.ahead) : '.' ∈ left.ahead := by
  have hcs := dot_behind hk (by decide) hdot
  obtain ⟨opening, k₁, e₁, e⟩ := bind_ok e
  rw [skip_cons hk] at e₁
  cases e₁
  have hk₁ : (k.moved '\\').ahead = cs := by rw [Cursor.ahead_moved, hk]; rfl
  split at e
  · cases e
  · rcases look_bind_ok e with ⟨k₂, r₂, hnil, e⟩ | ⟨next, k₂, r₂, hnext, e⟩
    · exact absurd e unexpectedEnd_ne_ok
    · obtain ⟨rest, hrest⟩ := List.head?_eq_some_iff.1 hnext
      rw [← hk₁, ← r₂.ahead_eq] at hcs
      unfold decodeAfterBackslash at e
      rcases ofChar_name next with hesc | ⟨hne, count, kept, hesc⟩
      · simp only [hesc] at e
        cases e
      · simp only [hesc] at e
        have hdot₃ := dot_behind hrest hne hcs
        obtain ⟨_, k₃, e₃, e⟩ := bind_ok e
        rw [skip_cons hrest] at e₃
        cases e₃
        obtain ⟨digits, k₄, e₄, e⟩ := bind_ok e
        -- only hexadecimal digits are read before the code point is written
        obtain ⟨_, e₄', r₄, -⟩ := succeeds_readHexDigits (k := k₂.moved next) count
        rw [e₄] at e₄'
        cases e₄'
        split at e
        · cases e
        · obtain ⟨_, k₅, e₅, e⟩ := bind_ok e
          obtain ⟨_, r₆⟩ := pushCodePoint_ok e
          have hbehind : '.' ∈ (k₂.moved next).ahead := by
            rw [Cursor.ahead_moved, hrest]
            exact hdot₃
          have r₅ := (appendIf_ok e₅).trans r₆
          rw [r₄.ahead, ← r₅.ahead_eq, List.mem_append] at hbehind
          refine hbehind.resolve_left fun hdigit => ?_
          exact absurd (List.mem_takeWhile_imp hdigit) (by decide)

/-- A turn that takes no dots passes over none, where names hold no escapes of their
own. -/
theorem dot_behind_turn {r : Turn Bool Unit}
    (e : nameTurn .submission false seen k = .ok r left) (hdot : '.' ∈ k.ahead) :
    '.' ∈ left.ahead := by
  rcases look_bind_ok e with ⟨k₁, r₁, hnil, e⟩ | ⟨c, k₁, r₁, hc, e⟩
  · cases e
    rwa [r₁.ahead_eq]
  · rw [← r₁.ahead_eq] at hdot
    obtain ⟨rest, hrest⟩ := List.head?_eq_some_iff.1 hc
    dsimp only at e
    rw [if_neg (by simp)] at e
    split at e
    · rename_i hslash
      rw [beq_iff_eq.1 hslash] at hrest
      obtain ⟨_, k₂, e₂, e⟩ := bind_ok e
      cases e
      exact dot_behind_escape hrest e₂ hdot
    · split at e
      · cases e
        exact hdot
      · rename_i hstop
        have hne : c ≠ '.' := by
          rintro rfl
          exact hstop rfl
        split at e
        · obtain ⟨_, k₂, e₂, e⟩ := bind_ok e
          rw [consume_cons hrest] at e₂
          cases e₂
          cases e
          rw [Cursor.ahead_push, Cursor.ahead_moved, hrest]
          exact dot_behind hrest hne hdot
        · cases e
          exact hdot

theorem dot_behind_name (e : gatherName .submission false k = .ok u left) (hdot : '.' ∈ k.ahead) :
    '.' ∈ left.ahead := by
  obtain ⟨mid, e, hs⟩ := gatherName_settles e
  have hmid : '.' ∈ mid.ahead := by
    refine iterate_induction (h := advances_nameTurn .submission false)
      (P := fun _ k r => ∀ mid, '.' ∈ k.ahead → r = .ok () mid → '.' ∈ mid.ahead)
      ?_ ?_ ?_ false k mid hdot e
    · intro seen k seen' left r e ih mid hk hr
      exact ih mid (dot_behind_turn e hk) hr
    · rintro seen k _ left e mid hk ⟨⟩
      exact dot_behind_turn e hk
    · intro seen k fault left e mid hk hr
      cases hr
  cases hs with
  | stays => exact hmid
  | gives w => exact List.mem_cons_self

/-- Whether dots are taken in makes no difference where there is none. -/
theorem nameTurn_undotted (hdot : '.' ∉ k.ahead) :
    nameTurn rule false seen k = nameTurn rule true seen k := by
  unfold nameTurn
  rw [bind_eq (look_eq k), bind_eq (look_eq k)]
  cases hc : k.ahead.head? with
  | none => rfl
  | some c =>
    have hne : (c == '.') = false := by
      rw [beq_eq_false_iff_ne]
      rintro rfl
      exact hdot (List.mem_of_mem_head? hc)
    simp only [hne, Bool.false_and]

theorem gatherName_undotted (hdot : '.' ∉ k.ahead) :
    gatherName rule false k = gatherName rule true k := by
  have hturns : iterate (nameTurn rule false) (advances_nameTurn rule false) false k =
      iterate (nameTurn rule true) (advances_nameTurn rule true) false k := by
    refine iterate_induction (h := advances_nameTurn rule false)
      (P := fun seen k r => '.' ∉ k.ahead →
        r = iterate (nameTurn rule true) (advances_nameTurn rule true) seen k)
      ?_ ?_ ?_ false k hdot
    · intro seen k seen' left r e ih hk
      obtain ⟨cs, ws, r', -⟩ := nameTurn_ok seen _ e
      rw [iterate_eq, bind_eq (nameTurn_undotted hk ▸ e)]
      refine ih fun hleft => hk ?_
      rw [r'.ahead]
      exact List.mem_append_right _ hleft
    · intro seen k _ left e hk
      rw [iterate_eq, bind_eq (nameTurn_undotted hk ▸ e)]
      rfl
    · intro seen k fault left e hk
      rw [iterate_eq]
      simp only [bind, EStateM.bind, ← nameTurn_undotted hk, e]
  unfold gatherName
  simp only [bind, EStateM.bind]
  rw [hturns]

/-- Where dots are not taken in, a name is one that has none. -/
theorem names_submission_iff :
    Names .submission false text k ↔ Names .submission true text k ∧ '.' ∉ k.ahead := by
  constructor
  · rintro ⟨mid, e, hname, htext, hspent⟩
    have hdot : '.' ∉ k.ahead := fun hdot =>
      absurd (hspent '.' (dot_behind_name e hdot)) (by decide)
    exact ⟨⟨mid, gatherName_undotted hdot ▸ e, hname, htext, hspent⟩, hdot⟩
  · rintro ⟨⟨mid, e, hname, htext, hspent⟩, hdot⟩
    exact ⟨mid, (gatherName_undotted hdot).trans e, hname, htext, hspent⟩

end Names

end Scan

end TripleLex

import TripleLex.Proofs.Lexemes

/-!
# Scans that succeed

The other modules say what a scan did if it succeeded. Here it is shown that
scans succeed, from what is ahead of them: `Succeeds m k cs ws a` says that the
scan yields `a` at `k`, reads `cs` and adds `ws` to the token. Of the cursor
that is left no more is said than that (`Cursor.Reads`), and that it is as clear
as the one before (`Cursor.Clear`): no character waits to be read again, and
nothing breaks the source off.

## Main results

* `Succeeds.bind`, `succeeds_again`, `succeeds_done` — the rules.
* `FailsFor.bind`, `Succeeds.fails` — those for scans that fail.
* `succeeds_consumeWhile`, `discardBlank_total` — runs of characters.
* `ending_succeeds` — the end of a text.
-/

namespace TripleLex

namespace Input.Source

/-- All characters are ready, and nothing broke the source off. -/
structure IsWhole (s : Source) : Prop where
  reader : s.reader = none
  met : s.met = none

variable {s : Source}

theorem IsWhole.fill_eq (h : s.IsWhole) : s.fill = s := by
  unfold fill
  split
  · rename_i hreader
    rw [h.reader] at hreader
    cases hreader
  · rfl

theorem IsWhole.peek (h : s.IsWhole) : s.peek.2.IsWhole := by
  show s.fill.IsWhole
  rw [h.fill_eq]
  exact h

theorem IsWhole.read (h : s.IsWhole) : s.read.2.IsWhole := by
  unfold Source.read
  rw [h.fill_eq]
  exact ⟨h.reader, h.met⟩

theorem isWhole_ofText (text : String) : (ofText text).IsWhole := ⟨rfl, rfl⟩

end Input.Source

namespace Cursor

/-- No character was given back, and nothing breaks the source off. -/
structure Clear (k : Cursor) : Prop where
  pending : k.pending = none
  whole : k.source.IsWhole

variable {k : Cursor}

theorem pending_looked (k : Cursor) : k.looked.pending = k.pending := by
  unfold looked
  split <;> rfl

theorem pending_taken (k : Cursor) : k.taken.pending = none := by
  unfold taken
  split
  · rfl
  · assumption

theorem whole_looked (h : k.source.IsWhole) : k.looked.source.IsWhole := by
  unfold looked
  split
  · exact h
  · exact h.peek

/-- Looking on a whole source changes nothing. -/
theorem looked_of_whole (h : k.source.IsWhole) : k.looked = k := by
  unfold looked
  split
  · rfl
  · show { k with source := k.source.fill } = k
    rw [h.fill_eq]

theorem whole_taken (h : k.source.IsWhole) : k.taken.source.IsWhole := by
  unfold taken
  split
  · exact h
  · exact h.read

/-- Once a character is taken, none is given back. -/
theorem clear_taken (h : k.source.IsWhole) : k.taken.Clear := ⟨k.pending_taken, whole_taken h⟩

theorem Clear.rest (h : k.Clear) : k.source.rest = k.ahead := by
  rw [ahead, h.pending]
  rfl

theorem Clear.looked (h : k.Clear) : k.looked.Clear :=
  ⟨k.pending_looked.trans h.pending, whole_looked h.whole⟩

/-- A cursor with the same characters to come. -/
theorem Clear.of_eq {left : Cursor} (h : k.Clear) (hp : left.pending = k.pending)
    (hs : left.source = k.source) : left.Clear :=
  ⟨hp.trans h.pending, hs ▸ h.whole⟩

theorem Clear.moved (h : k.Clear) (c : Char) : (k.moved c).Clear :=
  (clear_taken h.whole).of_eq rfl rfl

theorem Clear.fresh (h : k.Clear) : k.fresh.Clear := h.of_eq rfl rfl

/-- Reading stands behind a token of a kind, before the characters. -/
structure Stands (k : Cursor) (kind : Kind) (rest : List Char) : Prop where
  previous : k.previous = some kind
  ahead : k.ahead = rest
  clear : k.Clear

theorem Stands.fresh {kind : Kind} {rest : List Char} (h : k.Stands kind rest) :
    k.fresh.Stands kind rest :=
  ⟨h.previous, h.ahead, h.clear.fresh⟩

theorem Reads.rest_eq {left : Cursor} {cs ws rest : List Char} (h : k.Reads cs ws left)
    (hk : k.ahead = cs ++ rest) : left.ahead = rest :=
  List.append_cancel_left (h.ahead.symm.trans hk)

end Cursor

namespace Scan

open Cursor (Reads Clear)

/-- The scan succeeds at `k` with the value `a`; it reads `cs` and writes
`ws`. -/
def Succeeds {α : Type} (m : Scan α) (k : Cursor) (cs ws : List Char) (a : α) : Prop :=
  ∃ left, m k = .ok a left ∧ k.Reads cs ws left ∧ (k.Clear → left.Clear)

/-! ## Rules -/

section Rules

variable {α β : Type} {k : Cursor}

theorem Succeeds.bind {m : Scan α} {f : α → Scan β} {a : α} {b : β}
    {cs ws : List Char} (h : Succeeds m k cs ws a) (ds vs : List Char)
    (g : ∀ mid, k.Reads cs ws mid → Succeeds (f a) mid ds vs b) :
    Succeeds (m >>= f) k (cs ++ ds) (ws ++ vs) b := by
  obtain ⟨mid, e₁, r₁, c₁⟩ := h
  obtain ⟨left, e₂, r₂, c₂⟩ := g mid r₁
  exact ⟨left, (bind_eq e₁).trans e₂, r₁.trans r₂, fun hk => c₂ (c₁ hk)⟩

theorem succeeds_pure (a : α) : Succeeds (pure a) k [] [] a :=
  ⟨k, rfl, Reads.refl k, id⟩

/-- A scan that reads nothing more. -/
theorem Succeeds.thenPure {m : Scan α} {a : α} {cs ws : List Char}
    (h : Succeeds m k cs ws a) (f : α → β) :
    Succeeds (m >>= fun a => pure (f a)) k cs ws (f a) := by
  have hb := h.bind (f := fun a => pure (f a)) [] [] fun mid _ => succeeds_pure (f a)
  rwa [List.append_nil, List.append_nil] at hb

theorem succeeds_look : Succeeds look k [] [] k.ahead.head? :=
  ⟨k.looked, look_eq k, k.same_looked.reads k.ahead_looked, Clear.looked⟩

/-- A scan that looks first goes on with what is ahead. -/
theorem succeeds_look_bind {f : Option Char → Scan α} {a : α} {cs ws : List Char}
    (g : ∀ mid, k.Reads [] [] mid → Succeeds (f k.ahead.head?) mid cs ws a) :
    Succeeds (look >>= f) k cs ws a :=
  succeeds_look.bind cs ws g

theorem succeeds_nextIs (c : Char) : Succeeds (nextIs c) k [] [] (k.ahead.head? == some c) :=
  succeeds_look.thenPure _

theorem succeeds_skip {c : Char} (h : k.ahead.head? = some c)
    (hl : Unicode.isLineEnd c = false) : Succeeds skip k [c] [] c := by
  obtain ⟨rest, hk⟩ := List.head?_eq_some_iff.1 h
  exact ⟨k.moved c, skip_cons hk, Cursor.reads_moved h hl, fun hc => hc.moved c⟩

theorem succeeds_consume {c : Char} (h : k.ahead.head? = some c)
    (hl : Unicode.isLineEnd c = false) : Succeeds consume k [c] [c] c := by
  obtain ⟨rest, hk⟩ := List.head?_eq_some_iff.1 h
  refine ⟨(k.moved c).push c, consume_cons hk, ?_, fun hc => (hc.moved c).of_eq rfl rfl⟩
  exact (Cursor.reads_moved h hl).trans (Cursor.reads_push _ [c])

theorem succeeds_push (c : Char) : Succeeds (push c) k [] [c] () :=
  ⟨_, rfl, Cursor.reads_push k [c], fun hc => hc.of_eq rfl rfl⟩

theorem succeeds_append (cs : List Char) : Succeeds (append cs) k [] cs () :=
  ⟨_, rfl, Cursor.reads_push k cs, fun hc => hc.of_eq rfl rfl⟩

end Rules

/-! ## Failing -/

section Failing

variable {α β : Type} {k mid : Cursor} {cs ws : List Char} {P : Fault → Prop}

/-- The scan fails with a fault of a sort. -/
def FailsFor (P : Fault → Prop) (m : Scan α) (k : Cursor) : Prop :=
  ∃ fault left, m k = .error fault left ∧ P fault

/-- The scan fails. -/
abbrev Refuses (m : Scan α) (k : Cursor) : Prop := FailsFor (fun _ => True) m k

theorem FailsFor.bind {m : Scan α} {f : α → Scan β} (h : FailsFor P m k) :
    FailsFor P (m >>= f) k := by
  obtain ⟨fault, left, e, hfault⟩ := h
  refine ⟨fault, left, ?_, hfault⟩
  simp only [Bind.bind, EStateM.bind, e]

theorem FailsFor.behind {m : Scan α} {f : α → Scan β} {a : α} (h : FailsFor P (f a) mid)
    (e : m k = .ok a mid) : FailsFor P (m >>= f) k := by
  obtain ⟨fault, left, e', hfault⟩ := h
  exact ⟨fault, left, (bind_eq e).trans e', hfault⟩

theorem Succeeds.fails {m : Scan α} {f : α → Scan β} {a : α} (h : Succeeds m k cs ws a)
    (g : ∀ mid, k.Reads cs ws mid → FailsFor P (f a) mid) : FailsFor P (m >>= f) k := by
  obtain ⟨mid, e, r, -⟩ := h
  exact (g mid r).behind e

theorem refuses_unexpectedEnd (expected : String) :
    Refuses (unexpectedEnd expected : Scan α) k := by
  cases hmet : k.source.met with
  | none =>
    refine FailsFor.behind ?_ (failIfBroken_unmet hmet)
    exact ⟨_, _, rfl, trivial⟩
  | some cause => exact FailsFor.bind ⟨_, _, failIfBroken_met hmet, trivial⟩

end Failing

/-! ## Repetitions -/

section Iterate

variable {σ α : Type} {turn : σ → Scan (Turn σ α)} {h : ∀ s, Advances (turn s)} {k : Cursor}
  {s s' : σ} {a : α} {cs ws ds vs : List Char}

theorem succeeds_again (ht : Succeeds (turn s) k cs ws (.again s'))
    (hi : ∀ mid, k.Reads cs ws mid → Succeeds (iterate turn h s') mid ds vs a) :
    Succeeds (iterate turn h s) k (cs ++ ds) (ws ++ vs) a := by
  rw [iterate_eq]
  exact ht.bind ds vs hi

theorem succeeds_done (ht : Succeeds (turn s) k cs ws (.done a)) :
    Succeeds (iterate turn h s) k cs ws a := by
  obtain ⟨left, e, r, hc⟩ := ht
  refine ⟨left, ?_, r, hc⟩
  rw [iterate_eq, bind_eq e]
  rfl

end Iterate

/-- A run of characters of a class is taken, one at a time. -/
theorem succeeds_runWhile (keep : Bool) {p : Char → Bool} {one : Scan Char}
    (hone : ∀ {k : Cursor} {c : Char}, k.ahead.head? = some c → Unicode.isLineEnd c = false →
      Succeeds one k [c] (if keep then [c] else []) c)
    (hp : ∀ c, p c = true → Unicode.isLineEnd c = false)
    {turn : Unit → Scan (Turn Unit Unit)} (ht : ∀ u, turn u = do
      match ← look with
      | none => return .done ()
      | some c => if p c then let _ ← one; return .again () else return .done ())
    {h : ∀ u, Advances (turn u)} {k : Cursor} :
    Succeeds (iterate turn h ()) k (k.ahead.takeWhile p)
      (if keep then k.ahead.takeWhile p else []) () := by
  generalize hn : k.ahead = cs
  induction cs generalizing k with
  | nil =>
    rw [List.takeWhile_nil, ite_self]
    refine succeeds_done ?_
    rw [ht]
    refine succeeds_look_bind fun mid _ => ?_
    rw [hn]
    exact succeeds_pure _
  | cons c cs ih =>
    rw [List.takeWhile_cons]
    by_cases hc : p c = true
    · rw [if_pos hc]
      have hturn : Succeeds (turn ()) k [c] (if keep then [c] else []) (.again ()) := by
        rw [ht]
        refine succeeds_look_bind fun mid r => ?_
        rw [hn]
        show Succeeds (if p c = true then _ else _) mid [c] _ _
        rw [if_pos hc]
        exact (hone (by rw [r.ahead_eq, hn]; rfl) (hp c hc)).thenPure _
      have hwritten : (if keep then c :: cs.takeWhile p else []) =
          (if keep then [c] else []) ++ if keep then cs.takeWhile p else [] := by
        cases keep <;> rfl
      rw [hwritten]
      exact succeeds_again hturn fun mid r => ih (r.rest_eq hn)
    · rw [if_neg hc, ite_self]
      refine succeeds_done ?_
      rw [ht]
      refine succeeds_look_bind fun mid _ => ?_
      rw [hn]
      show Succeeds (if p c = true then _ else _) mid [] [] _
      rw [if_neg hc]
      exact succeeds_pure _

/-- A run of characters of a class is taken into the token. -/
theorem succeeds_consumeWhile {p : Char → Bool}
    (hp : ∀ c, p c = true → Unicode.isLineEnd c = false) {k : Cursor} :
    Succeeds (consumeWhile p) k (k.ahead.takeWhile p) (k.ahead.takeWhile p) () :=
  succeeds_runWhile true succeeds_consume hp fun _ => rfl

/-- A run of characters of a class is passed over. -/
theorem succeeds_skipWhile {p : Char → Bool}
    (hp : ∀ c, p c = true → Unicode.isLineEnd c = false) {k : Cursor} :
    Succeeds (skipWhile p) k (k.ahead.takeWhile p) [] () :=
  succeeds_runWhile false succeeds_skip hp fun _ => rfl

/-! ## Gaps and ends -/

section Gaps

variable {k : Cursor}

/-- The other half of a line end may be missing. -/
theorem consumePartner_succeeds (keep : Bool) (partner : Char) (k : Cursor) :
    ∃ left, consumePartner keep partner k = .ok () left ∧ (k.Clear → left.Clear) := by
  have hfound : nextIs partner k = .ok (k.ahead.head? == some partner) k.looked :=
    bind_eq (look_eq k)
  unfold consumePartner
  rw [bind_eq hfound]
  split
  · cases keep with
    | true => exact ⟨_, rfl, fun hc => (Cursor.clear_taken hc.looked.whole).of_eq rfl rfl⟩
    | false => exact ⟨_, rfl, fun hc => Cursor.clear_taken hc.looked.whole⟩
  · exact ⟨_, rfl, Clear.looked⟩

/-- A line end is taken where one comes next. -/
theorem consumeLineEnd_succeeds (keep allowEnd : Bool) {c : Char} {cs : List Char}
    (hk : k.ahead = c :: cs) (hl : Unicode.isLineEnd c = true) :
    ∃ left, consumeLineEnd keep allowEnd k = .ok () left ∧ (k.source.IsWhole → left.Clear) := by
  have hlook : look k = .ok (some c) k.looked := by
    rw [look_eq, hk]
    rfl
  obtain ⟨partner, hpartner⟩ := exists_partner hl
  have hskip : skip k.looked = .ok c (k.looked.moved c) :=
    skip_cons (k.ahead_looked.trans hk)
  have hpush : ∃ mid, pushIf keep c (k.looked.moved c) = .ok () mid ∧
      (k.source.IsWhole → mid.Clear) := by
    have hclear : k.source.IsWhole → (k.looked.moved c).Clear := fun hw =>
      (Cursor.clear_taken (Cursor.whole_looked hw)).of_eq rfl rfl
    cases keep with
    | true => exact ⟨_, rfl, fun hw => (hclear hw).of_eq rfl rfl⟩
    | false => exact ⟨_, rfl, hclear⟩
  obtain ⟨mid, hpush, hmid⟩ := hpush
  obtain ⟨left, hleft, hclear⟩ := consumePartner_succeeds keep partner mid
  refine ⟨left, ?_, fun hw => hclear (hmid hw)⟩
  unfold consumeLineEnd
  rw [bind_eq hlook]
  simp only [hpartner]
  rw [bind_eq hskip, bind_eq hpush]
  exact hleft

section LineEnds

variable {keep allowEnd : Bool} {c p : Char} {rest : List Char}

/-- A line end of one character. -/
theorem succeeds_lineEnd_alone (hk : k.ahead = c :: rest) (hp : lineEndPartner? c = some p)
    (hne : rest.head? ≠ some p) :
    Succeeds (consumeLineEnd keep allowEnd) k [c] (if keep then [c] else []) () := by
  have hl := (isLineEnd_of_partner? hp).1
  obtain ⟨left, e, hclear⟩ := consumeLineEnd_succeeds keep allowEnd hk hl
  obtain ⟨cs, hcs, r⟩ := consumeLineEnd_reads (by rw [hk]; rfl) hl e
  have ha := r.ahead
  rw [hk] at ha
  cases hcs with
  | missing => exact ⟨left, e, r, fun hc => hclear hc.whole⟩
  | read hp' =>
    rw [hp] at hp'
    cases hp'
    cases ha
    exact absurd rfl hne

/-- A line end of two characters. -/
theorem succeeds_lineEnd_paired (hk : k.ahead = c :: p :: rest)
    (hp : lineEndPartner? c = some p) :
    Succeeds (consumeLineEnd keep allowEnd) k [c, p] (if keep then [c, p] else []) () := by
  have hl := (isLineEnd_of_partner? hp).1
  obtain ⟨left, e, hclear⟩ := consumeLineEnd_succeeds keep allowEnd hk hl
  obtain ⟨cs, hcs, r⟩ := consumeLineEnd_reads (by rw [hk]; rfl) hl e
  have ha := r.ahead
  rw [hk] at ha
  cases hcs with
  | missing hne =>
    have hleft : p :: rest = left.ahead := (List.cons.inj ha).2
    exact absurd (by rw [← hleft]; rfl) (hne p hp)
  | read hp' =>
    rw [hp] at hp'
    cases hp'
    exact ⟨left, e, r, fun hc => hclear hc.whole⟩

end LineEnds

/-- A blank character is passed over, another one is left. -/
theorem blankTurn_total (k : Cursor) :
    ∃ r left, blankTurn () k = .ok r left ∧ (k.source.IsWhole → left.source.IsWhole ∧
      (k.pending.all Unicode.isBlank = true → left.pending = none)) := by
  have hstays : (∀ c, k.ahead.head? = some c → Unicode.isBlank c = false) →
      k.pending.all Unicode.isBlank = true → k.looked.pending = none := by
    intro hhead hp
    rw [Cursor.pending_looked]
    cases hpending : k.pending with
    | none => rfl
    | some c =>
      rw [hpending] at hp
      have hblank : Unicode.isBlank c = true := hp
      rw [hhead c (by rw [Cursor.ahead, hpending]; rfl)] at hblank
      cases hblank
  unfold blankTurn
  rw [bind_eq (look_eq k)]
  cases hk : k.ahead with
  | nil =>
    exact ⟨.done (), k.looked, rfl, fun hw => ⟨Cursor.whole_looked hw, hstays (by simp [hk])⟩⟩
  | cons c cs =>
    dsimp only [List.head?_cons]
    by_cases hb : Unicode.isBlank c = true
    · rw [if_neg (by simp [hb])]
      by_cases hl : Unicode.isLineEnd c = true
      · obtain ⟨left, e, hclear⟩ := consumeLineEnd_succeeds _ _ (k.ahead_looked.trans hk) hl
        rw [if_pos hl, bind_eq e]
        refine ⟨.again (), left, rfl, fun hw => ?_⟩
        have hc := hclear (Cursor.whole_looked hw)
        exact ⟨hc.whole, fun _ => hc.pending⟩
      · rw [if_neg hl, bind_eq (skip_cons (k.ahead_looked.trans hk))]
        refine ⟨.again (), k.looked.moved c, rfl, fun hw => ?_⟩
        have hc := Cursor.clear_taken (Cursor.whole_looked hw)
        exact ⟨hc.whole, fun _ => hc.pending⟩
    · rw [if_pos (by simp [hb])]
      refine ⟨.done (), k.looked, rfl, fun hw => ⟨Cursor.whole_looked hw, hstays ?_⟩⟩
      rw [hk]
      rintro d ⟨⟩
      exact Bool.eq_false_iff.2 hb

/-- Nothing stands in the way of passing over blank characters. -/
theorem blanks_total (k : Cursor) :
    ∃ left, iterate blankTurn advances_blankTurn () k = .ok () left ∧
      (k.source.IsWhole → left.source.IsWhole ∧
        (k.pending.all Unicode.isBlank = true → left.pending = none)) := by
  generalize hn : k.ahead.length = n
  induction n using Nat.strongRecOn generalizing k with
  | ind n ih =>
    obtain ⟨r, mid, e, hmid⟩ := blankTurn_total k
    rw [iterate_eq, bind_eq e]
    cases r with
    | done u => exact ⟨mid, rfl, hmid⟩
    | again u =>
      have hlt := (advances_blankTurn () k _ mid e).2 trivial
      obtain ⟨left, e', hleft⟩ := ih mid.ahead.length (by omega) mid rfl
      refine ⟨left, e', fun hw => ?_⟩
      obtain ⟨hw', hp⟩ := hmid hw
      obtain ⟨hw'', hp'⟩ := hleft hw'
      exact ⟨hw'', fun hk => hp' (by rw [hp hk]; rfl)⟩

/-- Blank characters are passed over, and a token is begun behind them. -/
theorem discardBlank_total (k : Cursor) :
    ∃ left, discardBlank k = .ok () left ∧ left.ahead = k.ahead.dropWhile Unicode.isBlank ∧
      left.Begun ∧ left.previous = k.previous ∧ (k.source.IsWhole → left.source.IsWhole ∧
        (k.pending.all Unicode.isBlank = true → left.pending = none)) := by
  obtain ⟨mid, e, hmid⟩ := blanks_total k
  have r := blanks_ok e
  have hsplit := List.takeWhile_append_dropWhile (p := Unicode.isBlank) (l := k.ahead)
  exact ⟨mid.fresh, bind_eq e, List.append_cancel_left (r.ahead.symm.trans hsplit.symm),
    Cursor.begun_fresh mid, r.previous, hmid⟩

theorem discardBlank_whole (hw : k.source.IsWhole) :
    ∃ left, discardBlank k = .ok () left ∧ left.ahead = k.ahead.dropWhile Unicode.isBlank ∧
      left.Begun ∧ left.previous = k.previous ∧ left.source.IsWhole ∧
      (k.pending.all Unicode.isBlank = true → left.pending = none) := by
  obtain ⟨left, e, ha, hb, hp, hleft⟩ := discardBlank_total k
  exact ⟨left, e, ha, hb, hp, hleft hw⟩

theorem dropWhile_blank {gap rest : List Char} (hgap : ∀ c ∈ gap, Unicode.isBlank c = true)
    (hrest : ∀ c, rest.head? = some c → Unicode.isBlank c = false) :
    (gap ++ rest).dropWhile Unicode.isBlank = rest := by
  rw [List.dropWhile_append_of_pos hgap]
  cases rest with
  | nil => rfl
  | cons c rest => exact List.dropWhile_cons_of_neg (Bool.eq_false_iff.1 (hrest c rfl))

theorem look_bind_whole {α : Type} {f : Option Char → Scan α} (h : k.source.IsWhole) :
    (look >>= f) k = f k.ahead.head? k := by
  rw [bind_eq (look_eq k), Cursor.looked_of_whole h]

theorem whole_consume {c : Char} {left : Cursor} (h : k.source.IsWhole)
    (e : consume k = .ok c left) : left.source.IsWhole := by
  obtain ⟨cs, -, rfl⟩ := exists_of_consume e
  exact Cursor.whole_taken h

/-- A token is made of what has been read since it was begun. -/
theorem emit_stands (kind : Kind) {mid : Cursor} {cs ws rest : List Char} (hb : k.Begun)
    (r : k.Reads cs ws mid) (hc : mid.Clear) (hk : k.ahead = cs ++ rest) :
    ∃ t left, emit kind mid = .ok t left ∧ t.content = (kind, String.ofList ws) ∧
      left.Stands kind rest := by
  refine ⟨⟨kind, mid.text, mid.span⟩, { mid with written := [], previous := some kind }, rfl, ?_,
    rfl, r.rest_eq hk, hc.of_eq rfl rfl⟩
  show (kind, String.ofList mid.value) = _
  rw [r.value hb]

/-- Where nothing is left of a text, the token after it is made. -/
theorem ending_succeeds (expected : String) (hb : k.Begun) (hc : k.Clear) :
    ∃ t left, ending expected k = .ok t left ∧ t.content = (.ending, "") := by
  have hempty : k.isEmpty = true := by
    rw [Cursor.isEmpty, hb.written]
    rfl
  refine ⟨⟨.ending, "", Span.point k.here⟩, { k.fresh with previous := some .ending }, ?_, rfl⟩
  unfold ending
  rw [get_bind, if_pos hempty, bind_eq (failIfBroken_unmet hc.whole.met)]
  rfl

end Gaps

end Scan

end TripleLex

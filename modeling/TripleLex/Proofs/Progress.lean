import TripleLex.Proofs.Runs

/-!
# Progress

Every call that yields a token other than the two marks leaves fewer characters
unread, where a character given back counts as unread. So the calls up to the
last one are bounded (`Lexer.need`), and the bound that `Lexer.tokens` works
with never cuts a run short. A single call ends as every turn of a repetition
but its last takes a character, which each repetition carries with it
(`Scan.Advances`). The token after all text comes again, itself, on every later
call.

## Main results

* `next_unread_lt` — a token takes a character.
* `tokens_ends` — the items end with the only one that is last.
* `steps_after_ending` — what follows the token after all text.
* `tokens_of_reaches`, `run_of_reaches` — a run up to the last item is the whole.
* `runs_end` — all of it.
-/

namespace TripleLex

open Scan Cursor

namespace Cursor

theorem Alike.length_eq {cs ds : List Char} (h : Alike cs ds) :
    cs.length = ds.length := by
  cases h with
  | same => rfl
  | dot _ cs => rfl

theorem Moves.length_add {k left : Cursor} {cs : List Char}
    (h : k.Moves cs left) :
    cs.length + left.ahead.length = k.ahead.length := by
  obtain ⟨rest, hk, ha⟩ := h.ahead
  rw [hk, List.length_append, ha.length_eq]

end Cursor

namespace Lexer

/-! ## What a call takes -/

/-- How many characters are unread. -/
def unread (l : Lexer) : Nat := l.cursor.ahead.length

theorem Lexes.unread_lt {l : Lexer} {t : Token} {left : Cursor}
    (h : l.Lexes t left) :
    (t.kind = .ending ∧ left.ahead = []) ∨
      (t.kind.isMark = false ∧ left.previous = some t.kind ∧
      left.ahead.length < l.unread) := by
  obtain ⟨mid, hp, hends | ⟨cs, hl⟩⟩ := h
  · refine Or.inl ⟨?_, hends.ahead⟩
    rw [hends.token]
  · have hgap := hp.moves.length_add
    have htok := hl.toMoves.length_add
    have hpos : 0 < cs.length := List.length_pos_iff.2 hl.nonempty
    refine Or.inr ⟨hl.inner, hl.previous, ?_⟩
    unfold unread
    omega

theorem next_unread_lt {l l' : Lexer} {t : Token} (e : l.next = (.ok t, l'))
    (hb : t.kind ≠ .beginning) (he : t.kind ≠ .ending) :
    l'.unread < l.unread := by
  rcases next_cases e with ⟨-, rfl, -⟩ | ⟨-, rfl, -⟩ | ⟨-, -, h⟩
  · exact absurd rfl hb
  · exact absurd rfl he
  · rcases h.unread_lt with ⟨hk, -⟩ | ⟨-, -, hlt⟩
    · exact absurd hk he
    · exact hlt

/-! ## The number of calls -/

/-- How many calls there are at most up to the last one. -/
def need (l : Lexer) : Nat :=
  if l.cursor.previous = none then l.unread + 2
  else if l.cursor.previous = some .ending then 1
  else l.unread + 1

theorem need_pos (l : Lexer) : 0 < l.need := by
  unfold need
  split
  · omega
  · split <;> omega

theorem need_le (l : Lexer) : l.need ≤ l.unread + 2 := by
  unfold need
  split
  · omega
  · split <;> omega

theorem need_of_inner {l : Lexer} {kind : Kind}
    (h : l.cursor.previous = some kind) (hk : kind ≠ .ending) :
    l.need = l.unread + 1 := by
  unfold need
  rw [if_neg (by rw [h]; exact nofun), if_neg]
  rw [h]
  intro he
  cases he
  exact hk rfl

theorem ne_ending_of_not_isMark {kind : Kind} (h : kind.isMark = false) :
    kind ≠ .ending := by
  rintro rfl
  cases h

/-- A call that is not the last one leaves less to do. -/
theorem need_next {l l' : Lexer} {t : Token} (e : l.next = (.ok t, l'))
    (ht : t.isEnding = false) :
    l'.need < l.need := by
  have hne : t.kind ≠ .ending := by
    rw [Token.isEnding, beq_eq_false_iff_ne] at ht
    exact ht
  rcases next_cases e with ⟨hp, -, hl⟩ | ⟨-, rfl, -⟩ | ⟨hn, he, h⟩
  · have hneed : l.need = l.unread + 2 := if_pos hp
    have hunread : l'.unread = l.unread := by
      unfold unread
      rw [hl]
      rfl
    have hne' : Kind.beginning ≠ .ending := nofun
    have hneed' : l'.need = l'.unread + 1 := need_of_inner (by rw [hl]) hne'
    omega
  · exact absurd rfl hne
  · rcases h.unread_lt with ⟨hk, -⟩ | ⟨hm, hp, hlt⟩
    · exact absurd hk hne
    · have hneed : l.need = l.unread + 1 := by
        unfold need
        rw [if_neg hn, if_neg he]
      have hneed' : l'.need = l'.unread + 1 := need_of_inner hp
        (ne_ending_of_not_isMark hm)
      have hlt' : l'.unread < l.unread := hlt
      omega

/-- Within a bound that allows all calls, the items end with the only one that
is last. -/
theorem tokensWithin_ends {bound : List Char} {l : Lexer}
    (h : l.need ≤ bound.length) :
    ∃ init last, tokensWithin bound l = init ++ [last] ∧ isLast last = true ∧
      (∀ i ∈ init, isLast i = false) ∧ init.length < l.need := by
  induction bound generalizing l with
  | nil =>
    have hpos := l.need_pos
    rw [List.length_nil] at h
    omega
  | cons c bound ih =>
    unfold tokensWithin
    by_cases hlast : isLast l.next.1 = true
    · rw [if_pos hlast]
      exact ⟨[], l.next.1, rfl, hlast, by simp, l.need_pos⟩
    · rw [if_neg hlast]
      have hless : l.next.2.need < l.need := by
        cases hi : l.next.1 with
        | error fault =>
          rw [hi] at hlast
          exact absurd rfl hlast
        | ok t =>
          rw [hi] at hlast
          exact need_next (Prod.ext hi rfl) (Bool.eq_false_iff.2 hlast)
      have hbound : l.next.2.need ≤ bound.length := by
        rw [List.length_cons] at h
        omega
      obtain ⟨init, last, htokens, hl, hinit, hlen⟩ := ih hbound
      refine ⟨l.next.1 :: init, last, by rw [htokens, List.cons_append], hl, ?_, ?_⟩
      · intro i hi
        rcases List.mem_cons.1 hi with rfl | hi
        · exact Bool.eq_false_iff.2 hlast
        · exact hinit i hi
      · rw [List.length_cons]
        omega

theorem tokens_ends (l : Lexer) :
    ∃ init last, l.tokens = init ++ [last] ∧ isLast last = true ∧
    (∀ i ∈ init, isLast i = false) ∧ init.length < l.need := by
  apply tokensWithin_ends
  have hneed := l.need_le
  unfold unread at hneed
  rw [List.length_cons, List.length_cons]
  omega

/-- The items are those of as many calls. -/
theorem tokensWithin_eq_steps (bound : List Char) (l : Lexer) :
    tokensWithin bound l =
      (l.steps (tokensWithin bound l).length).map Prod.fst := by
  induction bound generalizing l with
  | nil => rfl
  | cons c bound ih =>
    unfold tokensWithin
    split
    · rfl
    · rw [List.length_cons, steps, List.map_cons, ← ih]

/-! ## After the end -/

theorem next_of_atEnd {l : Lexer} (h : l.cursor.previous = some .ending) :
    l.next.1 = .ok ⟨.ending, "", Span.point l.cursor.here⟩ ∧
      l.next.2.cursor = { l.cursor.fresh with previous := some .ending } := by
  have hstep : l.machine.next l.cursor = .ok ⟨.ending, "",
    Span.point l.cursor.here⟩
      { l.cursor.fresh with previous := some .ending } := by
    unfold Machine.next Scan.step
    simp only [bind, EStateM.bind, mark?_ending h]
    rfl
  unfold next
  rw [hstep]
  exact ⟨rfl, rfl⟩

theorem steps_of_atEnd {n : Nat} {l : Lexer}
    (h : l.cursor.previous = some .ending) {step : Item × Lexer}
    (hs : step ∈ l.steps n) :
    step.1 = .ok ⟨.ending, "", Span.point l.cursor.here⟩ := by
  induction n generalizing l with
  | zero => cases hs
  | succ n ih =>
    obtain ⟨hitem, hcursor⟩ := next_of_atEnd h
    rcases List.mem_cons.1 hs with rfl | hs
    · exact hitem
    · have hstep := ih (by rw [hcursor]) hs
      rw [hcursor] at hstep
      exact hstep

/-- Where a call made the token after all text. -/
theorem atEnd_of_ending {l l' : Lexer} {t : Token} (e : l.next = (.ok t, l'))
    (ht : t.kind = .ending) :
    l'.cursor.previous = some .ending ∧
    t = ⟨.ending, "", Span.point l'.cursor.here⟩ := by
  rcases next_cases e with ⟨-, rfl, -⟩ | ⟨-, rfl, hl⟩ | ⟨-, -, mid, -, h⟩
  · cases ht
  · rw [hl]
    exact ⟨rfl, rfl⟩
  · rcases h with h | ⟨cs, h⟩
    · rw [h.here]
      exact ⟨h.previous, h.token⟩
    · exact absurd ht (ne_ending_of_not_isMark h.inner)

theorem steps_after_ending {l l' : Lexer} {t : Token} (e : l.next = (.ok t, l'))
    (ht : t.kind = .ending) {n : Nat} {step : Item × Lexer}
    (hs : step ∈ l'.steps n) :
    step.1 = .ok t := by
  obtain ⟨hp, hspan⟩ := atEnd_of_ending e ht
  rw [hspan]
  exact steps_of_atEnd hp hs

/-! ## The whole -/

/-- The tokens of a whole text: a run, with the token after all text at its end
only. -/
theorem run_ok {l : Lexer} {ts : List Token} (h : l.run = .ok ts) :
    ∃ init last l₁ l', ts = init ++ [last] ∧ last.kind = .ending ∧
      (∀ t ∈ init, t.kind ≠ .ending) ∧ Reaches l init l₁ ∧
      l₁.next = (.ok last, l') := by
  obtain ⟨items, item, htokens, hlast, hinit, -⟩ := l.tokens_ends
  have hmap : items ++ [item] = ts.map .ok := by
    rw [← htokens]
    exact eq_map_of_mapM_id h
  obtain ⟨init, lasts, rfl, rfl, hl⟩ := List.map_eq_append_iff.1 hmap.symm
  obtain ⟨last, rfl, rfl⟩ := List.map_eq_singleton_iff.1 hl
  obtain ⟨l', hreach⟩ := reaches_of_run h
  obtain ⟨l₁, hreach, e⟩ := hreach.of_append_singleton
  refine ⟨init, last, l₁, l', rfl, beq_iff_eq.1 hlast, ?_, hreach, e⟩
  intro t ht
  have hne := hinit (.ok t) (List.mem_map_of_mem ht)
  exact beq_eq_false_iff_ne.1 hne

theorem mapM_id_map_ok (ts : List Token) :
    (ts.map (Except.ok : Token → Item)).mapM id = .ok ts := by
  induction ts with
  | nil => rfl
  | cons t ts ih =>
    rw [List.map_cons, List.mapM_cons, ih]
    rfl

/-- A run up to the last item is what is read within a bound that allows all its
calls. -/
theorem tokensWithin_of_reaches {bound : List Char} {l l₁ : Lexer} {init : List Token}
    (h : Reaches l init l₁) (hinit : ∀ t ∈ init, t.kind ≠ .ending)
    (hlast : isLast l₁.next.1 = true) (hb : l.need ≤ bound.length) :
    tokensWithin bound l = init.map .ok ++ [l₁.next.1] := by
  induction init generalizing bound l with
  | nil =>
    rw [h.eq_of_nil] at hlast ⊢
    have hpos := l.need_pos
    cases bound with
    | nil =>
      rw [List.length_nil] at hb
      omega
    | cons c bound =>
      unfold tokensWithin
      rw [if_pos hlast]
      rfl
  | cons t init ih =>
    obtain ⟨mid, e₁, h⟩ := h.of_cons
    have ht : isLast (.ok t) = false :=
      beq_eq_false_iff_ne.2 (hinit t List.mem_cons_self)
    have hless := need_next e₁ ht
    cases bound with
    | nil =>
      rw [List.length_nil] at hb
      omega
    | cons c bound =>
      have hl : isLast l.next.1 = false := by
        rw [e₁]
        exact ht
      unfold tokensWithin
      rw [if_neg (Bool.eq_false_iff.1 hl), e₁]
      have hb' : mid.need ≤ bound.length := by
        rw [List.length_cons] at hb
        omega
      rw [ih h (fun u hu => hinit u (List.mem_cons_of_mem _ hu)) hb']
      rfl

/-- The items are those of a run and the last one behind it. -/
theorem tokens_of_reaches {l l₁ : Lexer} {init : List Token} (h : Reaches l init l₁)
    (hinit : ∀ t ∈ init, t.kind ≠ .ending) (hlast : isLast l₁.next.1 = true) :
    l.tokens = init.map .ok ++ [l₁.next.1] := by
  have hneed := l.need_le
  unfold unread at hneed
  exact tokensWithin_of_reaches h hinit hlast (by rw [List.length_cons, List.length_cons]; omega)

/-- There is such a run. -/
theorem exists_last (l : Lexer) : ∃ init l₁, Reaches l init l₁ ∧
    (∀ t ∈ init, t.kind ≠ .ending) ∧ isLast l₁.next.1 = true := by
  generalize hn : l.need = n
  induction n using Nat.strongRecOn generalizing l with
  | ind n ih =>
    by_cases hlast : isLast l.next.1 = true
    · exact ⟨[], l, .start, nofun, hlast⟩
    · cases hi : l.next.1 with
      | error fault =>
        rw [hi] at hlast
        exact absurd rfl hlast
      | ok t =>
        rw [hi] at hlast
        have e : l.next = (.ok t, l.next.2) := Prod.ext hi rfl
        have hless := need_next e (Bool.eq_false_iff.2 hlast)
        obtain ⟨init, l₁, h, hinit, hl⟩ := ih l.next.2.need (by omega) l.next.2 rfl
        refine ⟨t :: init, l₁, (Reaches.start.next e).trans h, ?_, hl⟩
        intro u hu
        rcases List.mem_cons.1 hu with rfl | hu
        · exact fun hk => hlast (beq_iff_eq.2 hk)
        · exact hinit u hu

/-- A run up to the token after all text gives the tokens of the whole text. -/
theorem run_of_reaches {l l₁ l' : Lexer} {init : List Token} {last : Token}
    (h : Reaches l init l₁) (hinit : ∀ t ∈ init, t.kind ≠ .ending)
    (e : l₁.next = (.ok last, l')) (hlast : last.kind = .ending) :
    l.run = .ok (init ++ [last]) := by
  have hitem : isLast l₁.next.1 = true := by
    rw [e]
    exact beq_iff_eq.2 hlast
  have htokens := tokens_of_reaches h hinit hitem
  rw [e, show [.ok last] = [last].map (Except.ok : Token → Item) from rfl,
    ← List.map_append] at htokens
  unfold run
  rw [htokens]
  exact mapM_id_map_ok _

/-- Reading always comes to an end: a call that yields a token other than the
two marks takes a character; the items that are read are those of as many calls,
at most two more than there are characters, and the only last one among them
ends them; and the token after all text comes again whenever reading goes on
behind it. -/
theorem runs_end (l : Lexer) :
    (∀ t l', l.next = (.ok t, l') → t.kind ≠ .beginning → t.kind ≠ .ending →
      l'.unread < l.unread) ∧
    (∃ init last, l.tokens = init ++ [last] ∧ isLast last = true ∧
      ∀ i ∈ init, isLast i = false) ∧
    l.tokens.length ≤ l.unread + 2 ∧
    l.tokens = (l.steps l.tokens.length).map Prod.fst ∧
    (∀ t l', l.next = (.ok t, l') → t.kind = .ending →
      ∀ n, ∀ step ∈ l'.steps n, step.1 = .ok t) ∧
    (∀ s text, l = ofText s text → l.unread = text.length) := by
  obtain ⟨init, last, htokens, hlast, hinit, hlen⟩ := l.tokens_ends
  refine ⟨?_, ⟨init, last, htokens, hlast, hinit⟩, ?_,
    tokensWithin_eq_steps _ l, ?_, ?_⟩
  · intro t l' e hb he
    exact next_unread_lt e hb he
  · have hneed := l.need_le
    rw [htokens, List.length_append, List.length_singleton]
    omega
  · intro t l' e ht n step hs
    exact steps_after_ending e ht hs
  · rintro s text rfl
    exact String.length_toList

/-- The dot is taken, and the end of the text comes as often as it is asked
for. -/
theorem runs_end_dot :
    ∃ l l₁ l₂ : Lexer, l.next = (.ok ⟨.dot, ".", ⟨1, 1, 1, 1⟩⟩, l₁) ∧
    l₁.unread < l.unread ∧ l₁.next = (.ok ⟨.ending, "", ⟨1, 1, 2, 2⟩⟩, l₂) ∧
    ∀ n, ∀ step ∈ l₂.steps n, step.1 = .ok ⟨.ending, "", ⟨1, 1, 2, 2⟩⟩ :=
  let l := (ofText ⟨.turtle, .sparql11, .recommendation⟩ ".").next.2
  have hdot : l.next = (.ok ⟨.dot, ".", ⟨1, 1, 1, 1⟩⟩, l.next.2) := by rfl
  ⟨l, l.next.2, l.next.2.next.2, hdot, (runs_end l).1 _ _ hdot nofun nofun,
    by rfl, (runs_end l.next.2).2.2.2.2.1 _ _ (by rfl) (by rfl)⟩

end Lexer

end TripleLex

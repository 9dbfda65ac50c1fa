import TripleLex.Lexer
import TripleLex.Proofs.Graphs
import TripleLex.Proofs.Queries
import TripleLex.Proofs.Tables

/-!
# Runs

A run is a sequence of calls that all yield tokens (`Lexer.Reaches`). Each call
does one of three things (`next_cases`): it makes the token before all text, it
makes the token after all text once more, or it passes over a gap and then reads
a lexeme or finds nothing left. Whatever holds along runs is shown of these
three.

The characters that a gap may hold are `Machine.skips`; the machines whose
lexemes spell their tokens are those with `Machine.copies`.

## Main results

* `Machine.finds_read`, `Machine.finds_copied` — all machines at once.
* `Lexer.next_cases` — what a call does.
* `Lexer.reaches_afterCalls`, `Lexer.reaches_of_run` — the tokens that are read, and
  those of a whole text, are a run.
-/

namespace TripleLex

open Scan Cursor

/-! ## All machines -/

namespace Machine

/-- What is passed over before a token behind one of a kind. -/
def skips : Machine → Option Kind → Char → Bool
  | n3 vocabulary, _ => if vocabulary.isReading then isGap else Unicode.isBlank
  | csv, _ => fun _ => false
  | tsv, previous => Table.Tsv.isGapBehind previous
  | _, _ => Unicode.isBlank

/-- Whether the lexemes spell their tokens, where there is no escape. -/
def copies : Machine → Bool
  | lines _ | turtle _ | sparql _ => true
  | n3 _ | csv | tsv => false

theorem copies_after (m : Machine) (t : Token) :
    (m.after t).copies = m.copies := by
  cases m <;> rfl

theorem finds_read {m : Machine} {k : Cursor} {previous : Option Kind}
    (hb : k.Begun) :
    Finds Lexed (m.skips previous) k (m.read previous) := by
  cases m with
  | lines format => exact Graph.LineFormat.finds_read.lexed
  | turtle rules => exact Graph.Turtle.finds_read.lexed
  | n3 vocabulary => exact Graph.Notation3.finds_read
  | sparql query => exact Query.Sparql.finds_read.lexed
  | csv => exact Table.Csv.finds_read hb
  | tsv => exact Table.Tsv.finds_read

theorem finds_copied {m : Machine} {k : Cursor} {previous : Option Kind}
    (h : m.copies = true) :
    Finds Copied Unicode.isBlank k (m.read previous) := by
  cases m with
  | lines format => exact Graph.LineFormat.finds_read
  | turtle rules => exact Graph.Turtle.finds_read
  | sparql query => exact Query.Sparql.finds_read
  | n3 vocabulary => cases h
  | csv => cases h
  | tsv => cases h

/-- A gap holds blank characters, and commas in a declaration of keywords. -/
theorem blank_or_comma_of_skips {m : Machine} {previous : Option Kind}
    {c : Char} (h : m.skips previous c = true) : Unicode.isBlank c = true ∨
      (c = ',' ∧ ∃ vocabulary, m = n3 vocabulary ∧
      vocabulary.isReading = true) := by
  cases m with
  | lines format => exact Or.inl h
  | turtle rules => exact Or.inl h
  | sparql query => exact Or.inl h
  | csv => cases h
  | n3 vocabulary =>
    cases hr : vocabulary.isReading with
    | false =>
      simp only [skips, hr] at h
      exact Or.inl h
    | true =>
      simp only [skips, hr, if_true, isGap, Bool.or_eq_true, beq_iff_eq] at h
      rcases h with h | h
      · exact Or.inl h
      · exact Or.inr ⟨h, vocabulary, rfl, hr⟩
  | tsv => exact Or.inl (Table.Tsv.isBlank_of_isGapBehind h)

end Machine

/-! ## Single calls -/

theorem Scan.mark?_eq {k : Cursor} {kind : Kind} (hp : k.previous = some kind)
    (hk : kind ≠ .ending) : mark? k = .ok none k.fresh := by
  unfold mark?
  rw [get_bind]
  simp only [hp]
  rfl

theorem Scan.mark?_ending {k : Cursor} (hp : k.previous = some .ending) :
    mark? k = .ok (some ⟨.ending, "", Span.point k.here⟩)
    { k.fresh with previous := some .ending } := by
  unfold mark?
  rw [get_bind]
  simp only [hp]
  rfl

/-- A step makes one of the two marks or starts a token. -/
theorem Scan.step_cases {read : Option Kind → Scan Token} {k left : Cursor}
    {t : Token} (e : Scan.step read k = .ok t left) :
    (k.previous = none ∧ t = .beginning ∧
    left = { k with previous := some .beginning }) ∨
      (k.previous = some .ending ∧ t = ⟨.ending, "", Span.point k.here⟩ ∧
        left = { k.fresh with previous := some .ending }) ∨
      (k.previous ≠ none ∧ k.previous ≠ some .ending ∧
          read k.previous k.fresh = .ok t left) := by
  obtain ⟨o, k₁, e₁, e⟩ := bind_ok e
  cases hp : k.previous with
  | none =>
    have e₁ := get_bind_ok e₁
    rw [hp] at e₁
    cases e₁
    cases e
    exact Or.inl ⟨rfl, rfl, rfl⟩
  | some kind =>
    by_cases hk : kind = .ending
    · rw [hk] at hp
      have e₁ := get_bind_ok e₁
      rw [hp] at e₁
      cases e₁
      cases e
      exact Or.inr (Or.inl ⟨congrArg some hk, rfl, rfl⟩)
    · rw [mark?_eq hp hk] at e₁
      cases e₁
      refine Or.inr (Or.inr ⟨nofun, ?_, ?_⟩)
      · intro h
        cases h
        exact hk rfl
      · rw [← hp]
        exact e

namespace Lexer

theorem next_ok {l l' : Lexer} {t : Token} (e : l.next = (.ok t, l')) :
    l.machine.next l.cursor = .ok t l'.cursor ∧ l'.machine =
      l.machine.after t := by
  unfold next at e
  split at e
  · cases e
    exact ⟨by assumption, rfl⟩
  · cases e

/-- A call inside a text is a call of the machine at a fresh token. -/
theorem next_eq_read {l : Lexer} {kind : Kind} (hp : l.cursor.previous = some kind)
    (hk : kind ≠ .ending) :
    l.machine.next l.cursor = l.machine.read (some kind) l.cursor.fresh := by
  unfold Machine.next Scan.step
  rw [bind_eq (mark?_eq hp hk)]
  show l.machine.read l.cursor.previous l.cursor.fresh = _
  rw [hp]

theorem next_of_read {l : Lexer} {kind : Kind} {t : Token} {left : Cursor}
    (hp : l.cursor.previous = some kind) (hk : kind ≠ .ending)
    (e : l.machine.read (some kind) l.cursor.fresh = .ok t left) :
    l.next = (.ok t, ⟨l.machine.after t, left⟩) := by
  unfold next
  rw [next_eq_read hp hk, e]

theorem next_of_fails {l : Lexer} {kind : Kind} {fault : Fault} {left : Cursor}
    (hp : l.cursor.previous = some kind) (hk : kind ≠ .ending)
    (e : l.machine.read (some kind) l.cursor.fresh = .error fault left) :
    l.next = (.error fault, { l with cursor := left }) := by
  unfold next
  rw [next_eq_read hp hk, e]

/-- The other way round. -/
theorem read_of_next {l l' : Lexer} {kind : Kind} {t : Token} (e : l.next = (.ok t, l'))
    (hp : l.cursor.previous = some kind) (hk : kind ≠ .ending) :
    l.machine.read (some kind) l.cursor.fresh = .ok t l'.cursor := by
  rcases step_cases (next_ok e).1 with ⟨hn, -⟩ | ⟨hn, -⟩ | ⟨-, -, e⟩
  · rw [hp] at hn
    cases hn
  · rw [hp] at hn
    exact absurd (Option.some.inj hn) hk
  · rw [hp] at e
    exact e

/-- The first call makes the token before all text. -/
theorem next_beginning {l : Lexer} (hp : l.cursor.previous = none) :
    l.next = (.ok .beginning,
      ⟨l.machine.after .beginning, { l.cursor with previous := some .beginning }⟩) := by
  have hmark : mark? l.cursor =
      .ok (some .beginning) { l.cursor with previous := some .beginning } := by
    unfold mark?
    rw [get_bind]
    simp only [hp]
    rfl
  have hstep : l.machine.next l.cursor =
      .ok .beginning { l.cursor with previous := some .beginning } := by
    unfold Machine.next Scan.step
    rw [bind_eq hmark]
    rfl
  unfold next
  rw [hstep]

theorem next_of_toOption {l : Lexer} {t : Token} (h : l.next.1.toOption = some t) :
    l.next = (.ok t, l.next.2) := by
  cases hi : l.next.1 with
  | error fault =>
    rw [hi] at h
    cases h
  | ok u =>
    rw [hi] at h
    cases h
    exact Prod.ext hi rfl

/-- What a call does, seen from the cursor: the outcome of a call that is no
mark repeated. -/
def Lexes (l : Lexer) (t : Token) (left : Cursor) : Prop :=
  ∃ mid, l.cursor.Passes (l.cursor.ahead.takeWhile (l.machine.skips l.cursor.previous)) mid ∧
    (Ends mid t left ∨ ∃ cs, Lexed mid cs t left)

theorem passes_of_fresh {k mid : Cursor} {cs : List Char}
    (h : k.fresh.Passes cs mid) :
    k.Passes cs mid := by
  by_cases hne : cs = []
  · subst hne
    exact ⟨h.ahead, h.here, Trail.apart_of_partner rfl _⟩
  · have hal : k.fresh.trail.along cs = k.trail.along cs := Trail.along_congr
      (Trail.apart_of_partner rfl _) (Trail.apart_of_partner rfl _) rfl hne
    exact ⟨h.ahead, hal ▸ h.here, hal ▸ h.apart⟩

/-- A call makes the token before all text, repeats the one after it, or reads
on. -/
theorem next_cases {l l' : Lexer} {t : Token} (e : l.next = (.ok t, l')) :
    (l.cursor.previous = none ∧ t = .beginning ∧
        l'.cursor = { l.cursor with previous := some .beginning }) ∨
      (l.cursor.previous = some .ending ∧ t = ⟨.ending, "",
        Span.point l.cursor.here⟩ ∧
        l'.cursor = { l.cursor.fresh with previous := some .ending }) ∨
      (l.cursor.previous ≠ none ∧ l.cursor.previous ≠ some .ending ∧
          l.Lexes t l'.cursor) := by
  rcases step_cases (next_ok e).1 with h | h | ⟨hn, he, e⟩
  · exact Or.inl h
  · exact Or.inr (Or.inl h)
  · obtain ⟨mid, hp, h⟩ := Machine.finds_read (begun_fresh l.cursor)
      t l'.cursor e
    exact Or.inr (Or.inr ⟨hn, he, mid, passes_of_fresh hp, h⟩)

/-- A call of a machine whose lexemes spell their tokens. -/
theorem next_copied {l l' : Lexer} {t : Token} (hm : l.machine.copies = true)
    (hn : l.cursor.previous ≠ none) (he : l.cursor.previous ≠ some .ending)
    (e : l.next = (.ok t, l')) : ∃ mid,
      l.cursor.Passes (l.cursor.ahead.takeWhile Unicode.isBlank) mid ∧
        (Ends mid t l'.cursor ∨ ∃ cs, Copied mid cs t l'.cursor) := by
  rcases step_cases (next_ok e).1 with h | h | ⟨-, -, e⟩
  · exact absurd h.1 hn
  · exact absurd h.1 he
  · obtain ⟨mid, hp, h⟩ := Machine.finds_copied hm t l'.cursor e
    exact ⟨mid, passes_of_fresh hp, h⟩

/-! ## Runs -/

/-- The lexer that a sequence of calls leads to, each of which yields a
token. -/
inductive Reaches (l₀ : Lexer) : List Token → Lexer → Prop
  | start : Reaches l₀ [] l₀
  | next {ts : List Token} {l l' : Lexer} {t : Token} (h : Reaches l₀ ts l)
      (e : l.next = (.ok t, l')) : Reaches l₀ (ts ++ [t]) l'

theorem Reaches.trans {l₀ l l' : Lexer} {ts us : List Token}
    (h : Reaches l₀ ts l) (h' : Reaches l us l') :
    Reaches l₀ (ts ++ us) l' := by
  induction h' with
  | start =>
    rw [List.append_nil]
    exact h
  | next _ e ih =>
    rw [← List.append_assoc]
    exact ih.next e

theorem Reaches.of_append_singleton {l₀ l' : Lexer} {ts : List Token}
    {t : Token} (h : Reaches l₀ (ts ++ [t]) l') :
    ∃ l, Reaches l₀ ts l ∧ l.next = (.ok t, l') := by
  generalize hus : ts ++ [t] = us at h
  cases h with
  | start =>
    rw [List.append_eq_nil_iff] at hus
    cases hus.2
  | next h e =>
    obtain ⟨rfl, ht⟩ := List.append_inj' hus rfl
    cases ht
    exact ⟨_, h, e⟩

/-- A run stops at a lexer wherever its tokens are parted. -/
theorem Reaches.of_append {l₀ l : Lexer} {ts us : List Token} (h : Reaches l₀ (ts ++ us) l) :
    ∃ mid, Reaches l₀ ts mid ∧ Reaches mid us l := by
  generalize hvs : ts ++ us = vs at h
  induction h generalizing us with
  | start =>
    rw [List.append_eq_nil_iff] at hvs
    rw [hvs.1, hvs.2]
    exact ⟨l₀, .start, .start⟩
  | @next vs l₁ l₂ u h e ih =>
    rcases List.eq_nil_or_concat us with rfl | ⟨us', u', rfl⟩
    · rw [List.append_nil] at hvs
      rw [hvs]
      exact ⟨l₂, h.next e, .start⟩
    · rw [List.concat_eq_append] at hvs ⊢
      rw [← List.append_assoc] at hvs
      obtain ⟨hinit, hu⟩ := List.append_inj' hvs rfl
      cases hu
      obtain ⟨mid, h₁, h₂⟩ := ih hinit
      exact ⟨mid, h₁, h₂.next e⟩

theorem Reaches.eq_of_nil {l l' : Lexer} (h : Reaches l [] l') : l' = l := by
  generalize hvs : ([] : List Token) = vs at h
  cases h with
  | start => rfl
  | next => exact absurd hvs.symm (List.append_ne_nil_of_right_ne_nil _ (List.cons_ne_nil _ _))

/-- The first call of a run, and the run from there. -/
theorem Reaches.of_cons {l l' : Lexer} {t : Token} {ts : List Token}
    (h : Reaches l (t :: ts) l') : ∃ mid, l.next = (.ok t, mid) ∧ Reaches mid ts l' := by
  have h : Reaches l ([] ++ [t] ++ ts) l' := h
  obtain ⟨mid, h₁, h₂⟩ := h.of_append
  obtain ⟨l₁, h₁, e⟩ := h₁.of_append_singleton
  rw [h₁.eq_of_nil] at e
  exact ⟨mid, e, h₂⟩

/-- The number of calls decides where a run leads. -/
theorem Reaches.unique {l m m' : Lexer} {ts us : List Token} (h : Reaches l ts m)
    (h' : Reaches l us m') (hl : ts.length = us.length) : ts = us ∧ m = m' := by
  induction ts generalizing l us with
  | nil =>
    rw [List.length_nil] at hl
    rw [List.length_eq_zero_iff.1 hl.symm] at h' ⊢
    exact ⟨rfl, h.eq_of_nil.trans h'.eq_of_nil.symm⟩
  | cons t ts ih =>
    cases us with
    | nil => cases hl
    | cons u us =>
      obtain ⟨mid, e, h⟩ := h.of_cons
      obtain ⟨mid', e', h'⟩ := h'.of_cons
      rw [e] at e'
      cases e'
      obtain ⟨rfl, hm⟩ := ih h h' (Nat.succ.inj hl)
      exact ⟨rfl, hm⟩

theorem mapM_id_cons {i : Item} {items : List Item} {ts : List Token}
    (h : (i :: items).mapM id = .ok ts) :
    ∃ t us, i = .ok t ∧ items.mapM id = .ok us ∧ ts = t :: us := by
  rw [List.mapM_cons] at h
  cases i with
  | error fault => cases h
  | ok t =>
    cases hm : items.mapM id with
    | error fault =>
      rw [hm] at h
      cases h
    | ok us =>
      rw [hm] at h
      cases h
      exact ⟨t, us, rfl, rfl, rfl⟩

theorem eq_map_of_mapM_id {items : List Item} {ts : List Token}
    (h : items.mapM id = .ok ts) :
    items = ts.map .ok := by
  induction items generalizing ts with
  | nil =>
    cases h
    rfl
  | cons i items ih =>
    obtain ⟨t, us, rfl, hu, rfl⟩ := mapM_id_cons h
    rw [ih hu, List.map_cons]

/-- The lexer behind so many calls. -/
def afterCalls : Nat → Lexer → Lexer
  | 0, l => l
  | n + 1, l => afterCalls n l.next.2

/-- Calls that yield these tokens are a run. -/
theorem reaches_afterCalls {l : Lexer} {ts : List Token}
    (h : (l.steps ts.length).map (fun step => step.1.toOption) = ts.map some) :
    Reaches l ts (afterCalls ts.length l) := by
  induction ts generalizing l with
  | nil => exact .start
  | cons t ts ih =>
    obtain ⟨ht, hts⟩ := List.cons.inj h
    have hfirst : Reaches l ([] ++ [t]) l.next.2 := Reaches.start.next (next_of_toOption ht)
    exact hfirst.trans (ih hts)

/-- The tokens that are read within a bound are those of a run. -/
theorem reaches_of_tokensWithin {bound : List Char} {l : Lexer}
    {ts : List Token} (h : (tokensWithin bound l).mapM id = .ok ts) :
    ∃ l', Reaches l ts l' := by
  induction bound generalizing l ts with
  | nil =>
    cases h
    exact ⟨l, Reaches.start⟩
  | cons c bound ih =>
    have hnext : ∀ {t : Token}, l.next.1 = .ok t →
        Reaches l ([] ++ [t]) l.next.2 := by
      intro t ht
      exact Reaches.start.next (Prod.ext ht rfl)
    unfold tokensWithin at h
    split at h
    · obtain ⟨t, us, ht, hu, rfl⟩ := mapM_id_cons h
      cases hu
      exact ⟨l.next.2, hnext ht⟩
    · obtain ⟨t, us, ht, hu, rfl⟩ := mapM_id_cons h
      obtain ⟨l', hl'⟩ := ih hu
      exact ⟨l', (hnext ht).trans hl'⟩

/-- The tokens of a whole text are those of a run. -/
theorem reaches_of_run {l : Lexer} {ts : List Token} (h : l.run = .ok ts) :
    ∃ l', Reaches l ts l' :=
  reaches_of_tokensWithin h

theorem run_of_toOption {l : Lexer} {ts : List Token} (h : l.run.toOption = some ts) :
    l.run = .ok ts := by
  cases hr : l.run with
  | error fault =>
    rw [hr] at h
    cases h
  | ok us =>
    rw [hr] at h
    cases h
    rfl

end Lexer

end TripleLex

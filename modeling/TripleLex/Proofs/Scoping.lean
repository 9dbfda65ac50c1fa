import TripleLex.Proofs.KeywordOutcomes
import TripleLex.Proofs.Runs

/-!
# Scopes of queries along runs

What a reader of queries remembers of braces and sub-queries is what a replay of
its tokens finds (`Replay`). The replay gives every scope a number, keeps for
each `ORDER BY` the number of the scope that was innermost then, and closes at a
brace whatever is deeper than the depth it leaves, wherever it stands in the
stack; that the reader need only look at the top follows from the order of the
depths.

Whether the reader takes a scope as ordered is whether its number was kept. So
no scope has two `ORDER BY`, a direction of ordering comes after one, and a
fault that says otherwise is right.

## Main results

* `Replay.sound_of` — what every replay keeps.
* `Agrees.after` — a token keeps the reader in agreement with the replay.
* `Lexer.scopes_replayed` — scopes along runs.
-/

namespace TripleLex

namespace Query

/-! ## Replays -/

/-- The scopes around a place, the innermost first; the whole text is the
outermost one. -/
def Nesting.stack (n : Nesting) : List Scope := n.inner ++ [⟨0, n.isOrdered⟩]

/-- A scope that a replay has opened. -/
structure Opened where
  number : Nat
  depth : Nat
  deriving DecidableEq, Repr

/-- What a replay of tokens finds. -/
structure Replay where
  /-- How many braces are open. -/
  depth : Nat
  /-- Whether a query or update keyword has come. -/
  begun : Bool
  /-- How many scopes have been opened, beside the whole text. -/
  count : Nat
  /-- The scopes that are open, the innermost first; the whole text has number
  zero. -/
  scopes : List Opened
  /-- The number of the innermost scope at each `ORDER BY`, the last one
  first. -/
  orders : List Nat
  deriving DecidableEq, Repr

namespace Replay

/-- Before all tokens. -/
def initial : Replay := ⟨0, false, 0, [⟨0, 0⟩], []⟩

/-- The number of the innermost scope. -/
def innermost (r : Replay) : Nat :=
  match r.scopes with
  | s :: _ => s.number
  | [] => 0

/-- After a keyword: an `ORDER BY` is kept for the innermost scope, the first
keyword that opens a query or an update begins the body, and a `SELECT` after
that opens a scope. -/
def afterKeyword (r : Replay) (word : Keyword) : Replay :=
  if word = .orderBy then { r with orders := r.innermost :: r.orders }
  else if r.begun = false then
    { r with begun := word.opensQuery || word.opensUpdate }
  else if word = .select then
    { r with
      count := r.count + 1
      scopes := ⟨r.count + 1, r.depth⟩ :: r.scopes }
  else r

/-- After a token. -/
def after (r : Replay) (t : Token) : Replay :=
  match t.kind with
  | .leftCurly => { r with depth := r.depth + 1 }
  | .rightCurly =>
    { r with
      depth := r.depth - 1
      scopes := r.scopes.filter fun s => decide (s.depth ≤ r.depth - 1) }
  | .keyword word => r.afterKeyword word
  | _ => r

/-- After tokens, from the start. -/
def of (ts : List Token) : Replay := ts.foldl after initial

/-- The scope as a reader remembers it: ordered if an `ORDER BY` was kept for
it. -/
def scope (r : Replay) (s : Opened) : Scope :=
  ⟨s.depth, decide (s.number ∈ r.orders)⟩

theorem of_snoc (ts : List Token) (t : Token) :
    of (ts ++ [t]) = (of ts).after t := List.foldl_append

/-! ## What every replay keeps -/

/-- The whole text is the outermost scope, the scopes have numbers of their own,
and none lies deeper than one inside it or than the present place. -/
structure Sound (r : Replay) : Prop where
  root : r.scopes.getLast? = some ⟨0, 0⟩
  distinct : r.scopes.Pairwise fun s s' => s.number ≠ s'.number
  counted : ∀ s ∈ r.scopes, s.number ≤ r.count
  kept : ∀ n ∈ r.orders, n ≤ r.count
  sorted : r.scopes.Pairwise fun s s' => s'.depth ≤ s.depth
  within : ∀ s ∈ r.scopes, s.depth ≤ r.depth

variable {r : Replay}

theorem Sound.ne_nil (h : r.Sound) :
    ∃ s rest, r.scopes = s :: rest ∧ r.innermost = s.number := by
  cases hs : r.scopes with
  | nil =>
    have hroot := h.root
    rw [hs] at hroot
    cases hroot
  | cons s rest =>
    refine ⟨s, rest, rfl, ?_⟩
    unfold innermost
    rw [hs]

theorem sound_initial : initial.Sound where
  root := rfl
  distinct := List.pairwise_singleton _ _
  counted := by simp [initial]
  kept := by simp [initial]
  sorted := List.pairwise_singleton _ _
  within := by simp [initial]

theorem Sound.openBrace (h : r.Sound) : Sound { r with depth := r.depth + 1 } :=
  ⟨h.root, h.distinct, h.counted, h.kept, h.sorted,
    fun s hs => Nat.le_succ_of_le (h.within s hs)⟩

theorem Sound.closeBrace (h : r.Sound) (d : Nat) :
    Sound
      { r with
        depth := d
        scopes := r.scopes.filter fun s => decide (s.depth ≤ d) } where
  root := by
    obtain ⟨outer, hroot⟩ := List.getLast?_eq_some_iff.1 h.root
    show (r.scopes.filter fun s => decide (s.depth ≤ d)).getLast? = some ⟨0, 0⟩
    rw [hroot, List.filter_append]
    simp
  distinct := h.distinct.filter _
  counted s hs := h.counted s (List.mem_filter.1 hs).1
  kept := h.kept
  sorted := h.sorted.filter _
  within s hs := of_decide_eq_true (List.mem_filter.1 hs).2

theorem Sound.order (h : r.Sound) :
    Sound { r with orders := r.innermost :: r.orders } where
  root := h.root
  distinct := h.distinct
  counted := h.counted
  kept n hn := by
    obtain ⟨s, rest, hs, hi⟩ := h.ne_nil
    by_cases hn' : n = r.innermost
    · rw [hn', hi]
      exact h.counted s (by rw [hs]; exact List.mem_cons_self)
    · exact h.kept n ((List.mem_cons.1 hn).resolve_left hn')
  sorted := h.sorted
  within := h.within

/-- The new scope has a number that no scope had before. -/
theorem Sound.open (h : r.Sound) :
    Sound
      { r with
        count := r.count + 1
        scopes := ⟨r.count + 1, r.depth⟩ :: r.scopes } where
  root := by
    obtain ⟨outer, hroot⟩ := List.getLast?_eq_some_iff.1 h.root
    show (⟨r.count + 1, r.depth⟩ :: r.scopes).getLast? = some ⟨0, 0⟩
    rw [hroot, ← List.cons_append, List.getLast?_concat]
  distinct := by
    refine List.pairwise_cons.2 ⟨?_, h.distinct⟩
    intro s hs
    have hle := h.counted s hs
    show r.count + 1 ≠ s.number
    omega
  counted s hs := by
    show s.number ≤ r.count + 1
    rcases List.mem_cons.1 hs with rfl | hs
    · exact Nat.le_refl _
    · exact Nat.le_succ_of_le (h.counted s hs)
  kept n hn := Nat.le_succ_of_le (h.kept n hn)
  sorted := List.pairwise_cons.2 ⟨h.within, h.sorted⟩
  within s hs := by
    rcases List.mem_cons.1 hs with rfl | hs
    · exact Nat.le_refl _
    · exact h.within s hs

theorem Sound.after (h : r.Sound) (t : Token) : (r.after t).Sound := by
  unfold Replay.after
  split
  · exact h.openBrace
  · exact h.closeBrace _
  · unfold afterKeyword
    split
    · exact h.order
    · split
      · exact ⟨h.root, h.distinct, h.counted, h.kept, h.sorted, h.within⟩
      · split
        · exact h.open
        · exact h
  · exact h

theorem sound_of (ts : List Token) : (of ts).Sound := by
  have hfold : ∀ r : Replay, r.Sound → (ts.foldl Replay.after r).Sound := by
    induction ts with
    | nil => exact fun r h => h
    | cons t ts ih => exact fun r h => ih _ (h.after t)
  exact hfold initial sound_initial

end Replay

/-! ## The stack of a reader -/

namespace Nesting

variable {n : Nesting} {s : Scope} {rest : List Scope}

theorem hasOrder_of_stack (h : n.stack = s :: rest) :
    n.hasOrder = s.isOrdered := by
  unfold stack at h
  unfold hasOrder
  cases hi : n.inner with
  | nil =>
    rw [hi] at h
    cases h
    rfl
  | cons s' rest' =>
    rw [hi] at h
    cases h
    rfl

theorem stack_setOrder (h : n.stack = s :: rest) :
    n.setOrder.stack = { s with isOrdered := true } :: rest := by
  unfold stack at h
  unfold setOrder stack
  cases hi : n.inner with
  | nil =>
    rw [hi] at h
    cases h
    rfl
  | cons s' rest' =>
    rw [hi] at h
    cases h
    rfl

theorem stack_openScope (n : Nesting) :
    n.openScope.stack = ⟨n.depth, false⟩ :: n.stack := rfl

/-- Where the depths are in order, what is too deep stands first. -/
theorem dropWhile_deeper {scopes : List Scope}
    (h : scopes.Pairwise fun s s' => s'.depth ≤ s.depth) (d : Nat) :
    scopes.dropWhile (fun s => decide (d < s.depth)) =
      scopes.filter fun s => decide (s.depth ≤ d) := by
  induction h with
  | nil => rfl
  | @cons s scopes hs _ ih =>
    by_cases hd : d < s.depth
    · rw [List.dropWhile_cons_of_pos (by simpa using hd), ih,
        List.filter_cons_of_neg]
      simpa using hd
    · have hle : s.depth ≤ d := Nat.le_of_not_lt hd
      have hall : ∀ s' ∈ s :: scopes, decide (s'.depth ≤ d) = true := by
        intro s' hs'
        rw [decide_eq_true_eq]
        rcases List.mem_cons.1 hs' with rfl | hs'
        · exact hle
        · exact Nat.le_trans (hs s' hs') hle
      rw [List.dropWhile_cons_of_neg (by simpa using hle),
        List.filter_eq_self.2 hall]

theorem stack_closeBrace (h : n.stack.Pairwise fun s s' => s'.depth ≤ s.depth) :
    n.closeBrace.stack = n.stack.filter fun s =>
      decide (s.depth ≤ n.depth - 1) := by
  have hinner := (List.pairwise_append.1 h).1
  show n.inner.dropWhile (fun s => decide (n.depth - 1 < s.depth)) ++
    [⟨0, n.isOrdered⟩] =
    (n.inner ++ [(⟨0, n.isOrdered⟩ : Scope)]).filter fun s =>
      decide (s.depth ≤ n.depth - 1)
  rw [dropWhile_deeper hinner, List.filter_append]
  simp

end Nesting

/-! ## Agreement -/

/-- What a reader remembers is what a replay has found, and the replay has found
no second `ORDER BY` in a scope. -/
structure Agrees (p : Progress) (r : Replay) : Prop where
  begun : r.begun = p.inBody
  depth : p.nesting.depth = r.depth
  stack : p.nesting.stack = r.scopes.map r.scope
  once : ∀ n, r.orders.count n ≤ 1

namespace Agrees

variable {q : Sparql} {p : Progress} {r : Replay}

theorem initial : Agrees .initial .initial :=
  ⟨rfl, rfl, rfl, by simp [Replay.initial]⟩

theorem stack_sorted (h : Agrees p r) (hs : r.Sound) :
    p.nesting.stack.Pairwise fun s s' => s'.depth ≤ s.depth := by
  rw [h.stack, List.pairwise_map]
  exact hs.sorted

/-- The reader takes the innermost scope as ordered if an `ORDER BY` was kept
for it. -/
theorem hasOrder_iff (h : Agrees p r) (hs : r.Sound) :
    p.nesting.hasOrder = true ↔ r.innermost ∈ r.orders := by
  obtain ⟨s, rest, hscopes, hi⟩ := hs.ne_nil
  have hstack := h.stack
  rw [hscopes, List.map_cons] at hstack
  rw [Nesting.hasOrder_of_stack hstack, hi]
  exact decide_eq_true_iff

theorem hasOrder_eq_false_iff (h : Agrees p r) (hs : r.Sound) :
    p.nesting.hasOrder = false ↔ r.innermost ∉ r.orders := by
  rw [← h.hasOrder_iff hs, Bool.not_eq_true]

theorem openBrace (h : Agrees p r) :
    Agrees { p with nesting := p.nesting.openBrace }
    { r with depth := r.depth + 1 } where
  begun := h.begun
  depth := congrArg (· + 1) h.depth
  stack := h.stack
  once := h.once

theorem closeBrace (h : Agrees p r) (hs : r.Sound) :
    Agrees { p with nesting := p.nesting.closeBrace }
      { r with
        depth := r.depth - 1
        scopes :=
          r.scopes.filter fun s => decide (s.depth ≤ r.depth - 1) } where
  begun := h.begun
  depth := congrArg (· - 1) h.depth
  stack := by
    show p.nesting.closeBrace.stack =
      (r.scopes.filter fun s => decide (s.depth ≤ r.depth - 1)).map r.scope
    rw [Nesting.stack_closeBrace (h.stack_sorted hs), h.stack, h.depth,
      List.filter_map]
    rfl
  once := h.once

theorem openScope (h : Agrees p r) (hs : r.Sound) :
    Agrees { p with nesting := p.nesting.openScope }
      { r with
        count := r.count + 1
        scopes := ⟨r.count + 1, r.depth⟩ :: r.scopes } where
  begun := h.begun
  depth := h.depth
  stack := by
    have hnew : r.count + 1 ∉ r.orders := by
      intro hmem
      have hle := hs.kept _ hmem
      omega
    show p.nesting.openScope.stack =
      (⟨r.count + 1, r.depth⟩ :: r.scopes).map r.scope
    rw [Nesting.stack_openScope, h.stack, h.depth]
    simp [Replay.scope, hnew]
  once := h.once

/-- Only the innermost scope becomes ordered, as no other one has its number. -/
theorem map_scope_order {s : Opened} {rest : List Opened}
    (hd : ∀ s' ∈ rest, s.number ≠ s'.number) :
    (s :: rest).map ({ r with orders := s.number :: r.orders } : Replay).scope =
      ⟨s.depth, true⟩ :: rest.map r.scope := by
  rw [List.map_cons]
  congr 1
  · simp [Replay.scope]
  · apply List.map_congr_left
    intro s' hs'
    have hne : s'.number ≠ s.number := Ne.symm (hd s' hs')
    simp [Replay.scope, hne]

theorem setOrder (h : Agrees p r) (hs : r.Sound)
    (hno : p.nesting.hasOrder = false) :
    Agrees { p with nesting := p.nesting.setOrder }
    { r with orders := r.innermost :: r.orders } where
  begun := h.begun
  depth := by
    have hdepth : p.nesting.setOrder.depth = p.nesting.depth := by
      unfold Nesting.setOrder
      split <;> rfl
    exact hdepth.trans h.depth
  stack := by
    obtain ⟨s, rest, hscopes, hi⟩ := hs.ne_nil
    have hstack := h.stack
    have hdistinct := hs.distinct
    rw [hscopes, List.map_cons] at hstack
    rw [hscopes] at hdistinct
    calc p.nesting.setOrder.stack
      _ = ⟨s.depth, true⟩ :: rest.map r.scope := Nesting.stack_setOrder hstack
      _ = (s :: rest).map
          ({ r with orders := s.number :: r.orders } : Replay).scope :=
          (map_scope_order (List.pairwise_cons.1 hdistinct).1).symm
      _ = r.scopes.map
          ({ r with orders := r.innermost :: r.orders } : Replay).scope := by
          rw [hi, hscopes]
  once n := by
    have hnot := (h.hasOrder_eq_false_iff hs).1 hno
    show (r.innermost :: r.orders).count n ≤ 1
    rw [List.count_cons]
    by_cases hn : r.innermost = n
    · have hzero : r.orders.count n = 0 := List.count_eq_zero.2 (hn ▸ hnot)
      rw [hzero]
      split <;> omega
    · rw [if_neg (by simpa using hn), Nat.add_zero]
      exact h.once n

/-- A keyword of a query keeps the agreement. -/
theorem afterKeyword (h : Agrees q.progress r) (hs : r.Sound) {t : Token}
    (ht : q.Grows t) {word : Keyword} (hk : t.kind = .keyword word) :
    Agrees (q.progress.afterKeyword word) (r.afterKeyword word) := by
  have hbegun := h.begun
  unfold Progress.afterKeyword Replay.afterKeyword
  cases hb : q.progress.inBody with
  | false =>
    rw [Sparql.Grows, hb] at ht
    have hopens : (word.opensQuery || word.opensUpdate) = true := ht word hk
    have hne : word ≠ .orderBy := by
      rintro rfl
      revert hopens
      decide
    rw [hb] at hbegun
    rw [if_neg hne, if_pos hbegun, if_pos (Bool.not_false), hopens]
    exact ⟨rfl, h.depth, h.stack, h.once⟩
  | true =>
    rw [Sparql.Grows, hb] at ht
    have hfits : q.Fits word := ht word hk
    rw [hb] at hbegun
    rw [if_neg (by simp)]
    by_cases ho : word = .orderBy
    · subst ho
      rw [if_pos rfl]
      have hset := h.setOrder hs (hfits.1 rfl)
      rw [hb] at hset
      exact hset
    · rw [if_neg ho, if_neg (by simp [hbegun])]
      by_cases hsel : word = .select
      · subst hsel
        rw [if_pos rfl]
        have hopen := h.openScope hs
        rw [hb] at hopen
        exact hopen
      · rw [if_neg hsel]
        split
        · exact absurd rfl hsel
        · exact absurd rfl ho
        · exact h

/-- A token of a query keeps the agreement. -/
theorem after (h : Agrees q.progress r) (hs : r.Sound) {t : Token}
    (ht : q.Grows t) :
    Agrees (q.progress.after t) (r.after t) := by
  unfold Replay.after
  split
  · rename_i hk
    rw [Progress.after, hk]
    exact h.openBrace
  · rename_i hk
    rw [Progress.after, hk]
    exact h.closeBrace hs
  · rename_i word hk
    rw [Progress.after, hk]
    exact h.afterKeyword hs ht hk
  · rename_i hl hr hw
    unfold Progress.after
    split
    · rename_i word hk
      exact absurd hk (hw word)
    · exact ⟨h.begun, h.depth, h.stack, h.once⟩
    · rename_i hk
      exact absurd hk hl
    · rename_i hk
      exact absurd hk hr
    · exact h

end Agrees

end Query

/-! ## Runs -/

namespace Lexer

open Scan Query Input

/-- What a call of a reader of queries comes to. -/
theorem yields_next (q : Sparql) :
    Yields (Machine.next (.sparql q)) q.Grows q.Right := by
  refine yields_step (fun t ht => Sparql.grows_of_noWord ?_) Sparql.yields_read
  rw [NoWord]
  rcases ht with ht | ht <;> rw [ht] <;> rfl

theorem next_grows {l l' : Lexer} {q : Sparql} {t : Token}
    (hm : l.machine = .sparql q) (e : l.next = (.ok t, l')) : q.Grows t := by
  have hnext := (next_ok e).1
  rw [hm] at hnext
  exact (yields_next q l.cursor).1 t _ hnext

theorem next_right {l l' : Lexer} {q : Sparql} {fault : Fault}
    (hm : l.machine = .sparql q) (e : l.next = (.error fault, l')) :
    q.Right fault := by
  unfold next at e
  split at e
  · cases e
  · rename_i fault' k hk
    cases e
    rw [hm] at hk
    exact (yields_next q l.cursor).2 fault k hk

/-- A fault changes nothing that is remembered. -/
theorem next_error {l l' : Lexer} {fault : Fault}
    (e : l.next = (.error fault, l')) :
    l'.machine = l.machine := by
  unfold next at e
  split at e
  · cases e
  · cases e
    rfl

/-- The lexer that a sequence of calls leads to, with the tokens that they
yield; any call may fail. -/
inductive Visits (l₀ : Lexer) : List Token → Lexer → Prop
  | start : Visits l₀ [] l₀
  | token {ts : List Token} {l l' : Lexer} {t : Token} (h : Visits l₀ ts l)
      (e : l.next = (.ok t, l')) : Visits l₀ (ts ++ [t]) l'
  | fault {ts : List Token} {l l' : Lexer} {fault : Fault} (h : Visits l₀ ts l)
      (e : l.next = (.error fault, l')) : Visits l₀ ts l'

theorem Reaches.visits {l₀ l : Lexer} {ts : List Token} (h : Reaches l₀ ts l) :
    Visits l₀ ts l := by
  induction h with
  | start => exact .start
  | next _ e ih => exact ih.token e

/-- The place at which a token was read. -/
theorem Visits.of_append_cons {l₀ l : Lexer} {before behind : List Token}
    {t : Token} (h : Visits l₀ (before ++ t :: behind) l) :
    ∃ l₁ l₂, Visits l₀ before l₁ ∧ l₁.next = (.ok t, l₂) := by
  generalize hus : before ++ t :: behind = us at h
  induction h generalizing behind with
  | start =>
    rw [List.append_eq_nil_iff] at hus
    cases hus.2
  | fault _ _ ih => exact ih hus
  | @token us l₁ l₂ u h e ih =>
    rcases List.eq_nil_or_concat behind with rfl | ⟨behind', u', rfl⟩
    · obtain ⟨rfl, ht⟩ := List.append_inj' hus rfl
      cases ht
      exact ⟨l₁, l₂, h, e⟩
    · rw [List.concat_eq_append, ← List.cons_append, ← List.append_assoc] at hus
      exact ih (List.append_inj' hus rfl).1

/-- Wherever a reader of queries gets to, what it remembers agrees with the
replay of its tokens. -/
theorem visits_agrees {s : Settings} {source : Source} {ts : List Token}
    {l : Lexer} (hs : s.format = .sparql)
    (h : Visits (ofSource s source) ts l) :
    ∃ q, l.machine = .sparql q ∧ q.level = s.level ∧
    Agrees q.progress (Replay.of ts) := by
  induction h with
  | start =>
    refine ⟨⟨s.level, .initial⟩, ?_, rfl, Agrees.initial⟩
    show Machine.ofSettings s = .sparql ⟨s.level, .initial⟩
    unfold Machine.ofSettings
    rw [hs]
  | @token ts l l' t _ e ih =>
    obtain ⟨q, hm, hl, hag⟩ := ih
    refine ⟨{ q with progress := q.progress.after t }, ?_, hl, ?_⟩
    · rw [(next_ok e).2, hm]
      rfl
    · rw [Replay.of_snoc]
      exact hag.after (Replay.sound_of ts) (next_grows hm e)
  | fault _ e ih =>
    obtain ⟨q, hm, hl, hag⟩ := ih
    exact ⟨q, (next_error e).trans hm, hl, hag⟩

/-- The scopes of queries are those of a replay. Wherever calls lead, at every
level, the depth and the stack of scopes that the reader remembers are what the
replay of the tokens so far has found; the stack ends in the whole text at depth
zero, its depths do not grow outwards and none exceeds the present depth. No
scope has two `ORDER BY`, and `ASC` and `DESC` come where the innermost scope
has one; the first `ORDER BY` of a scope is not refused for its scope, and
neither are `ASC` and `DESC` behind it. -/
theorem scopes_replayed {s : Settings} {source : Source} {ts : List Token}
    {l : Lexer} (hs : s.format = .sparql)
    (h : Visits (ofSource s source) ts l) :
    ∃ q, l.machine = .sparql q ∧ q.level = s.level ∧
      q.progress.nesting.depth = (Replay.of ts).depth ∧
      q.progress.nesting.stack =
        (Replay.of ts).scopes.map (Replay.of ts).scope ∧
      (∃ inner ordered, q.progress.nesting.stack = inner ++ [⟨0, ordered⟩]) ∧
      (q.progress.nesting.stack.Pairwise fun inner outer =>
        outer.depth ≤ inner.depth) ∧
      (∀ scope ∈ q.progress.nesting.stack,
        scope.depth ≤ q.progress.nesting.depth) ∧
      (∀ number, (Replay.of ts).orders.count number ≤ 1) ∧
      (∀ before t behind, ts = before ++ t :: behind →
        t.kind = .keyword .asc ∨ t.kind = .keyword .desc →
        (Replay.of before).innermost ∈ (Replay.of before).orders) ∧
      ((Replay.of ts).innermost ∉ (Replay.of ts).orders →
        ∀ span l', l.next ≠ (.error (.violation Sparql.orderTwice span), l')) ∧
      ((Replay.of ts).innermost ∈ (Replay.of ts).orders →
        ∀ word span l', word = .asc ∨ word = .desc →
          l.next ≠ (.error (.violation (Sparql.orderMissing word) span),
            l')) := by
  obtain ⟨q, hm, hl, hag⟩ := visits_agrees hs h
  have hsound := Replay.sound_of ts
  refine ⟨q, hm, hl, hag.depth, hag.stack, ⟨_, _, rfl⟩,
    hag.stack_sorted hsound, ?_, hag.once, ?_, ?_, ?_⟩
  · intro scope hscope
    rw [hag.stack, List.mem_map] at hscope
    obtain ⟨opened, hopened, rfl⟩ := hscope
    rw [hag.depth]
    exact hsound.within opened hopened
  · rintro before t behind rfl hword
    obtain ⟨l₁, l₂, h₁, e⟩ := h.of_append_cons
    obtain ⟨q₁, hm₁, -, hag₁⟩ := visits_agrees hs h₁
    rw [← hag₁.hasOrder_iff (Replay.sound_of before)]
    exact (next_grows hm₁ e).hasOrder hword
  · intro hnot span l' e
    have hright := (next_right hm e).1 span rfl
    exact hnot ((hag.hasOrder_iff hsound).1 hright)
  · intro hmem word span l' hword e
    have hright := (next_right hm e).2 word span hword rfl
    exact (hag.hasOrder_eq_false_iff hsound).1 hright hmem

set_option maxRecDepth 8192 in
/-- The sub-query is the innermost scope where it is ordered, and closed at the
brace behind. -/
theorem scopes_replayed_subquery : ∃ ts l,
    Visits
      (ofText ⟨.sparql, .sparql11, .recommendation⟩
        "ASK\x7bSELECT*\x7b\x7dORDER BY ASC(?o)\x7d") ts l ∧
    (Replay.of ts).orders = [1] ∧ (Replay.of ts).scopes = [⟨0, 0⟩] ∧
    ∀ span l', l.next ≠ (.error (.violation Sparql.orderTwice span), l') := by
  obtain ⟨l, h⟩ := @reaches_of_run
    (ofText ⟨.sparql, .sparql11, .recommendation⟩
      "ASK\x7bSELECT*\x7b\x7dORDER BY ASC(?o)\x7d")
    [.beginning,
      ⟨.keyword .ask, "ASK", ⟨1, 1, 1, 3⟩⟩,
      ⟨.leftCurly, "\x7b", ⟨1, 1, 4, 4⟩⟩,
      ⟨.keyword .select, "SELECT", ⟨1, 1, 5, 10⟩⟩,
      ⟨.allColumns, "*", ⟨1, 1, 11, 11⟩⟩,
      ⟨.leftCurly, "\x7b", ⟨1, 1, 12, 12⟩⟩,
      ⟨.rightCurly, "\x7d", ⟨1, 1, 13, 13⟩⟩,
      ⟨.keyword .orderBy, "ORDER BY", ⟨1, 1, 14, 21⟩⟩,
      ⟨.keyword .asc, "ASC", ⟨1, 1, 23, 25⟩⟩,
      ⟨.leftBracket, "(", ⟨1, 1, 26, 26⟩⟩,
      ⟨.queryVariable, "o", ⟨1, 1, 27, 28⟩⟩,
      ⟨.rightBracket, ")", ⟨1, 1, 29, 29⟩⟩,
      ⟨.rightCurly, "\x7d", ⟨1, 1, 30, 30⟩⟩,
      ⟨.ending, "", ⟨1, 1, 31, 31⟩⟩]
    (by rfl)
  obtain ⟨q, -, -, -, -, -, -, -, -, -, hfirst, -⟩ :=
    scopes_replayed (by rfl) h.visits
  exact ⟨_, l, h.visits, by decide, by decide, hfirst (by decide)⟩

end Lexer

end TripleLex

import TripleLex.Proofs.Progress

/-!
# Positions

A cursor stands at the place that pairing line ends finds after what has been
taken from the source, less a character given back (`Cursor.behind`). A token
starts after the gap that its call passes over, ends no earlier, and ends before
the place where the cursor is left; so the spans of a run lie one behind
another.

A character given back may be a dot that an escape stood for. Then what is ahead
is not quite the rest of the text, but no line end is involved and the places
are the same: `Cursor.Aligned` says how far a cursor agrees with the text, and
readings keep it.

## Main results

* `Cursor.Aligned.passes`, `Cursor.Aligned.moves` — readings keep a cursor
  aligned.
* `Lexer.call_placed` — where a call makes its token.
* `Lexer.positions_exact` — positions along runs.
-/

namespace TripleLex

open Input (Source)
open Scan (Ends)

namespace Trail

/-- The walk through a text before its first character. -/
def origin : Trail := ⟨.origin, .origin, none⟩

theorem here_origin_along (cs : List Char) :
    (origin.along cs).here = Position.origin.past cs :=
  here_along _ _ cs

theorem isLineEnd_of_partner_origin {cs : List Char} :
    ∀ p, (origin.along cs).partner = some p → Unicode.isLineEnd p = true :=
  isLineEnd_of_partner_along nofun

end Trail

namespace Position

theorem one_le_column_past {p : Position} (h : 1 ≤ p.column) (cs : List Char) :
    1 ≤ (p.past cs).column := by
  have hafter : ∀ {q : Position} (c : Char), 1 ≤ q.column →
      1 ≤ (q.after c).column := by
    intro q c hq
    unfold after
    split
    · exact Nat.le_refl 1
    · exact Nat.le_succ_of_le hq
  fun_induction past p cs with
  | case1 p => exact h
  | case2 p c => exact hafter c h
  | case3 p c d rest _ ih => exact ih (Nat.le_refl 1)
  | case4 p c d rest _ ih => exact ih (hafter c h)

end Position

namespace Cursor

/-! ## Agreeing with a text -/

/-- What has been taken from a text by a cursor whose source had it, less a
character given back. -/
def behind (text : List Char) (k : Cursor) : List Char :=
  let taken := text.take (text.length - k.source.rest.length)
  if k.pending.isSome then taken.dropLast else taken

/-- The cursor stands after `done` in a text, the rest of which is ahead but for
a dot given back. -/
structure Aligned (text done : List Char) (k : Cursor) : Prop where
  ahead : ∃ rest, text = done ++ rest ∧ Alike rest k.ahead
  here : k.here = (Trail.origin.along done).here
  apart : (Trail.origin.along done).Apart k.ahead

variable {text done cs : List Char} {k left : Cursor}

theorem Aligned.place (h : Aligned text done k) :
    k.here = Position.origin.past done := by
  rw [h.here, Trail.here_origin_along]

theorem Aligned.behind_eq (h : Aligned text done k) : k.behind text = done := by
  obtain ⟨rest, rfl, ha⟩ := h.ahead
  have hlen : rest.length = k.pending.toList.length + k.source.rest.length := by
    rw [ha.length_eq, Cursor.ahead, List.length_append]
  unfold behind
  dsimp only
  cases hp : k.pending with
  | none =>
    rw [hp] at hlen
    rw [if_neg (by simp), List.length_append]
    have hn : done.length + rest.length - k.source.rest.length =
        done.length := by
      simp only [Option.toList_none, List.length_nil] at hlen
      omega
    rw [hn, List.take_left]
  | some d =>
    rw [hp] at hlen
    simp only [Option.toList_some, List.length_singleton] at hlen
    cases rest with
    | nil =>
      rw [List.length_nil] at hlen
      omega
    | cons c rest =>
      have hn : (done ++ c :: rest).length - k.source.rest.length =
          (done ++ [c]).length := by
        rw [List.length_append, List.length_append, List.length_singleton]
        rw [List.length_cons] at hlen ⊢
        omega
      have hcut : done ++ c :: rest = done ++ [c] ++ rest := List.append_cons ..
      rw [if_pos (by simp), hn, hcut, List.take_left, List.dropLast_concat]

/-- The walk of the cursor over what is read next is the walk through the
text. -/
theorem Aligned.along_eq (h : Aligned text done k) {rest : List Char}
    (hk : k.ahead = cs ++ rest) (hne : cs ≠ []) :
    Trail.origin.along (done ++ cs) = k.trail.along cs := by
  rw [Trail.along_append]
  refine Trail.along_congr ?_ (Trail.apart_of_partner rfl _) h.here.symm hne
  intro p hp
  have ha := h.apart p hp
  rw [hk] at ha
  cases cs with
  | nil => exact absurd rfl hne
  | cons c cs => exact ha

theorem Aligned.of_ahead_eq (h : Aligned text done k)
    (ha : left.ahead = k.ahead) (hh : left.here = k.here) :
    Aligned text done left :=
  ⟨by rw [ha]; exact h.ahead, hh.trans h.here, by rw [ha]; exact h.apart⟩

/-- A gap, which does not begin with a dot, is read from the text as it is. -/
theorem Aligned.passes (h : Aligned text done k) (hp : k.Passes cs left)
    (hdot : cs.head? ≠ some '.') : Aligned text (done ++ cs) left := by
  by_cases hne : cs = []
  · subst hne
    rw [List.append_nil]
    exact h.of_ahead_eq hp.ahead.symm hp.here
  · have halong := h.along_eq hp.ahead hne
    obtain ⟨rest, htext, ha⟩ := h.ahead
    have hrest : rest = cs ++ left.ahead := by
      rw [hp.ahead] at ha
      cases cs with
      | nil => exact absurd rfl hne
      | cons c cs =>
        cases ha with
        | same => rfl
        | dot _ _ => exact absurd rfl hdot
    refine ⟨⟨left.ahead, ?_, Alike.same _⟩, ?_, ?_⟩
    · rw [htext, hrest, List.append_assoc]
    · rw [halong, hp.here]
    · rw [halong]
      exact hp.apart

/-- A lexeme is read from the text, but that its first character may have been
given back as a dot. -/
theorem Aligned.moves (h : Aligned text done k) (hm : k.Moves cs left)
    (hne : cs ≠ []) :
    ∃ ds, ds ≠ [] ∧ Aligned text (done ++ ds) left := by
  obtain ⟨rest, htext, ha⟩ := h.ahead
  obtain ⟨rest', hk, ha'⟩ := hm.ahead
  have halong := h.along_eq hk hne
  have hends : ∃ ds, ds ≠ [] ∧ rest = ds ++ rest' ∧
      Trail.origin.along (done ++ ds) = Trail.origin.along (done ++ cs) := by
    cases cs with
    | nil => exact absurd rfl hne
    | cons c cs =>
      rw [hk, List.cons_append] at ha
      cases ha with
      | same => exact ⟨c :: cs, List.cons_ne_nil _ _, rfl, rfl⟩
      | @dot d hd _ =>
        refine ⟨d :: cs, List.cons_ne_nil _ _, rfl, ?_⟩
        have hstep := Trail.step_inline (d := '.')
          (@Trail.isLineEnd_of_partner_origin done) hd (by decide)
        rw [Trail.along_append, Trail.along_append, Trail.along_cons,
          Trail.along_cons, hstep]
  obtain ⟨ds, hds, hrest, heq⟩ := hends
  refine ⟨ds, hds, ⟨rest', ?_, ha'⟩, ?_, ?_⟩
  · rw [htext, hrest, List.append_assoc]
  · rw [heq, halong, hm.here]
  · rw [heq, halong]
    exact hm.apart

end Cursor

open Cursor

namespace Lexer

/-! ## Single calls -/

/-- What the next call passes over before its token. -/
def gap (l : Lexer) : List Char :=
  l.cursor.ahead.takeWhile (l.machine.skips l.cursor.previous)

theorem skips_of_mem_gap {l : Lexer} {c : Char} (h : c ∈ l.gap) :
    l.machine.skips l.cursor.previous c = true :=
  List.all_eq_true.1 List.all_takeWhile c h

theorem head_gap_ne_dot (l : Lexer) : l.gap.head? ≠ some '.' := by
  intro h
  have hmem : '.' ∈ l.gap := List.mem_of_head? h
  rcases Machine.blank_or_comma_of_skips (skips_of_mem_gap hmem) with hb | ⟨hc, -⟩
  · revert hb
    decide
  · revert hc
    decide

/-- Where a token stands that a call made: in the text after what was behind and
the gap. -/
structure Made (text done : List Char) (l : Lexer) (t : Token) (l' : Lexer)
    (read : List Char) :
    Prop where
  aligned : Aligned text (done ++ l.gap ++ read) l'.cursor
  first : t.span.first = Position.origin.past (done ++ l.gap)
  later : l.cursor.here.atMost t.span.first = true
  previous : l'.cursor.previous = some t.kind
  ending : t.kind = .ending → l'.cursor.ahead = [] ∧ read = []
  inner : t.kind ≠ .ending → read ≠ [] ∧ t.span.first.atMost t.span.last = true ∧
    t.span.last.before l'.cursor.here = true

/-- No call takes a cursor back. -/
theorem Made.here_atMost {text done read : List Char} {l l' : Lexer} {t : Token}
    (h : Made text done l t l' read) :
    l.cursor.here.atMost l'.cursor.here = true := by
  by_cases ht : t.kind = .ending
  · have hfirst := h.first
    rw [← List.append_nil (done ++ l.gap), ← (h.ending ht).2,
      ← h.aligned.place] at hfirst
    rw [← hfirst]
    exact h.later
  · obtain ⟨-, hlow, hhigh⟩ := h.inner ht
    exact Position.atMost_trans h.later
      (Position.atMost_of_before (Position.before_of_atMost hlow hhigh))

section Reading

variable {text done cs : List Char} {l l' : Lexer} {mid : Cursor} {t : Token}

/-- A call that finds nothing left behind the gap. -/
theorem made_of_ends (ha : Aligned text (done ++ l.gap) mid)
    (hl : l.cursor.here.atMost mid.here = true) (h : Ends mid t l'.cursor) :
    Made text done l t l' [] := by
  have hspan : t.span.first = mid.here := by rw [h.token, Span.point,
    Span.first_between]
  have hkind : t.kind = .ending := by rw [h.token]
  constructor
  · show Aligned text (done ++ l.gap ++ []) l'.cursor
    rw [List.append_nil]
    exact ha.of_ahead_eq (h.ahead.trans h.nothing.symm) h.here
  · rw [hspan, ha.place]
  · rw [hspan]
    exact hl
  · rw [h.previous, hkind]
  · exact fun _ => ⟨h.ahead, rfl⟩
  · exact fun hne => absurd hkind hne

/-- A call that reads a lexeme behind the gap. -/
theorem made_of_lexed (ha : Aligned text (done ++ l.gap) mid)
    (hl : l.cursor.here.atMost mid.here = true) (h : Lexed mid cs t l'.cursor) :
    ∃ read, Made text done l t l' read := by
  obtain ⟨ds, hds, hleft⟩ := ha.moves h.toMoves h.nonempty
  have hcol : 1 ≤ mid.here.column := by
    rw [ha.place]
    exact Position.one_le_column_past (Nat.le_refl 1) _
  obtain ⟨hlow, hhigh⟩ := h.within hcol
  have hfirst : t.span.first = mid.here := h.first
  refine ⟨ds, ?_⟩
  constructor
  · exact hleft
  · rw [hfirst, ha.place]
  · rw [hfirst]
    exact hl
  · exact h.previous
  · exact fun hk => absurd hk (ne_ending_of_not_isMark h.inner)
  · intro _
    rw [hfirst]
    exact ⟨hds, hlow, hhigh⟩

/-- A call that reads on, from a cursor that agrees with the text. -/
theorem Lexes.made (h : l.Lexes t l'.cursor) (ha : Aligned text done l.cursor) :
    ∃ read, Made text done l t l' read := by
  obtain ⟨mid, hp, h⟩ := h
  have hmid : Aligned text (done ++ l.gap) mid := ha.passes hp l.head_gap_ne_dot
  have hlater : l.cursor.here.atMost mid.here = true := by
    rw [hp.here]
    exact Trail.here_atMost_along (r := l.cursor.trail)
      (Trail.apart_of_partner rfl _)
  rcases h with h | ⟨cs, h⟩
  · exact ⟨[], made_of_ends hmid hlater h⟩
  · exact made_of_lexed hmid hlater h

end Reading

/-- Nothing is ahead behind the token after all text. -/
def Finished (l : Lexer) : Prop :=
  l.cursor.previous = some .ending → l.cursor.ahead = []

/-- Where a call makes its token, unless it is the one before all text. -/
theorem call_placed {text done : List Char} {l l' : Lexer} {t : Token}
    (e : l.next = (.ok t, l')) (ha : Aligned text done l.cursor)
    (hf : l.Finished) (ht : t.kind ≠ .beginning) :
    ∃ read, Made text done l t l' read := by
  rcases next_cases e with ⟨-, rfl, -⟩ | ⟨hp, rfl, hl⟩ | ⟨-, -, h⟩
  · exact absurd rfl ht
  · have hgap : l.gap = [] := by
      unfold gap
      rw [hf hp, List.takeWhile_nil]
    refine ⟨[], ?_⟩
    constructor
    · rw [hgap, List.append_nil, List.append_nil, hl]
      exact ha.of_ahead_eq rfl rfl
    · rw [hgap, List.append_nil]
      exact ha.place
    · exact Position.atMost_refl _
    · rw [hl]
    · rw [hl]
      exact fun _ => ⟨hf hp, rfl⟩
    · exact fun hne => absurd rfl hne
  · exact h.made ha

/-! ## Runs -/

/-- Two tokens of a run, the first of which is no mark, stand one behind the
other. -/
def Apart (t u : Token) : Prop := t.kind.isMark = false → u.kind ≠ .beginning →
  t.span.last.before u.span.first = true ∧ t.span.first.before u.span.first = true

/-- The cursor of a run agrees with the text, and the tokens stand one behind
another and behind it. -/
structure Placed (text : List Char) (ts : List Token) (l : Lexer) : Prop where
  aligned : Aligned text (l.cursor.behind text) l.cursor
  finished : l.Finished
  behind : ∀ t ∈ ts, t.kind.isMark = false → t.span.first.atMost t.span.last = true ∧
    t.span.last.before l.cursor.here = true
  apart : ts.Pairwise Apart

theorem placed_ofSource (s : Settings) (source : Source) :
    Placed source.rest [] (ofSource s source) := by
  have ha : Aligned source.rest [] (ofSource s source).cursor :=
    ⟨⟨source.rest, rfl, Alike.same _⟩, rfl, Trail.apart_of_partner rfl _⟩
  refine ⟨?_, nofun, by simp, List.Pairwise.nil⟩
  rw [ha.behind_eq]
  exact ha

/-- Every earlier token stands before a place that comes no earlier than the
cursor. -/
theorem Placed.apart_of_later {text : List Char} {ts : List Token} {l : Lexer}
    {t : Token} (h : Placed text ts l)
    (hl : l.cursor.here.atMost t.span.first = true) :
    ∀ u ∈ ts, Apart u t := by
  intro u hu hm _
  obtain ⟨hfirst, hlast⟩ := h.behind u hu hm
  have hbefore := Position.before_of_before hlast hl
  exact ⟨hbefore, Position.before_of_atMost hfirst hbefore⟩

theorem pairwise_snoc {ts : List Token} {t : Token} (h : ts.Pairwise Apart)
    (ht : ∀ u ∈ ts, Apart u t) : (ts ++ [t]).Pairwise Apart := by
  rw [List.pairwise_append]
  refine ⟨h, List.pairwise_singleton _ _, ?_⟩
  intro u hu v hv
  rw [List.mem_singleton.1 hv]
  exact ht u hu

section Next

variable {text : List Char} {ts : List Token} {l l' : Lexer} {t : Token}

/-- The call that makes the token before all text takes nothing. -/
theorem cursor_of_beginning (e : l.next = (.ok t, l'))
    (ht : t.kind = .beginning) :
    l'.cursor = { l.cursor with previous := some .beginning } := by
  rcases next_cases e with ⟨-, -, hl⟩ | ⟨-, rfl, -⟩ | ⟨-, -, mid, -,
    h | ⟨cs, h⟩⟩
  · exact hl
  · cases ht
  · rw [h.token] at ht
    cases ht
  · have hm := h.inner
    rw [ht] at hm
    cases hm

theorem Placed.next_beginning (h : Placed text ts l) (e : l.next = (.ok t, l'))
    (ht : t.kind = .beginning) : Placed text (ts ++ [t]) l' := by
  have hl := cursor_of_beginning e ht
  have hal : Aligned text (l.cursor.behind text) l'.cursor := by
    rw [hl]
    exact h.aligned.of_ahead_eq rfl rfl
  constructor
  · rw [hal.behind_eq]
    exact hal
  · unfold Finished
    rw [hl]
    exact nofun
  · intro u hu hm
    rcases List.mem_append.1 hu with hu | hu
    · rw [hl]
      exact h.behind u hu hm
    · rw [List.mem_singleton.1 hu, ht] at hm
      cases hm
  · exact pairwise_snoc h.apart fun u _ _ hne => absurd ht hne

theorem Placed.next_made {read : List Char} (h : Placed text ts l)
    (hmade : Made text (l.cursor.behind text) l t l' read) :
    Placed text (ts ++ [t]) l' := by
  constructor
  · rw [hmade.aligned.behind_eq]
    exact hmade.aligned
  · intro hp
    rw [hmade.previous] at hp
    exact (hmade.ending (Option.some.inj hp)).1
  · intro u hu hm
    rcases List.mem_append.1 hu with hu | hu
    · obtain ⟨hfirst, hlast⟩ := h.behind u hu hm
      exact ⟨hfirst, Position.before_of_before hlast hmade.here_atMost⟩
    · rw [List.mem_singleton.1 hu] at hm ⊢
      exact (hmade.inner (ne_ending_of_not_isMark hm)).2
  · exact pairwise_snoc h.apart (h.apart_of_later hmade.later)

/-- A call keeps a run placed. -/
theorem Placed.next (h : Placed text ts l) (e : l.next = (.ok t, l')) :
    Placed text (ts ++ [t]) l' := by
  by_cases ht : t.kind = .beginning
  · exact h.next_beginning e ht
  · obtain ⟨read, hmade⟩ := call_placed e h.aligned h.finished ht
    exact h.next_made hmade

end Next

theorem reaches_placed {s : Settings} {source : Source} {ts : List Token}
    {l : Lexer} (h : Reaches (ofSource s source) ts l) :
    Placed source.rest ts l := by
  induction h with
  | start => exact placed_ofSource s source
  | next _ e ih => exact ih.next e

/-- Positions are exact. Along every run the cursor stands at the place after
what has been taken; a token other than the first mark starts at the place after
the gap behind that, which holds blank characters, or commas as well where
keywords are declared; one that is neither mark ends no earlier than it starts
and before the place where the cursor is left; and the tokens stand one behind
another. -/
theorem positions_exact {s : Settings} {source : Source} {ts : List Token}
    {l : Lexer} (h : Reaches (ofSource s source) ts l) :
    l.cursor.here = Position.origin.past (l.cursor.behind source.rest) ∧
    (∀ t l', l.next = (.ok t, l') → t.kind ≠ .beginning → ∃ read,
      l'.cursor.behind source.rest = l.cursor.behind source.rest ++ l.gap ++ read ∧
      (∀ c ∈ l.gap, Unicode.isBlank c = true ∨
        (c = ',' ∧ ∃ vocabulary, l.machine = .n3 vocabulary ∧
        vocabulary.isReading = true)) ∧
      t.span.first = Position.origin.past (l.cursor.behind source.rest ++ l.gap) ∧
      (t.kind = .ending → read = []) ∧
      (t.kind ≠ .ending → read ≠ [] ∧ t.span.first.atMost t.span.last = true ∧
        t.span.last.before (Position.origin.past (l'.cursor.behind source.rest)) = true)) ∧
    ts.Pairwise fun t u => t.kind.isMark = false → u.kind ≠ .beginning →
      t.span.last.before u.span.first = true ∧
      t.span.first.before u.span.first = true := by
  have hplaced := reaches_placed h
  refine ⟨hplaced.aligned.place, ?_, hplaced.apart⟩
  intro t l' e ht
  obtain ⟨read, hmade⟩ := call_placed e hplaced.aligned hplaced.finished ht
  have hbehind := hmade.aligned.behind_eq
  refine ⟨read, hbehind, ?_, hmade.first, fun hk => (hmade.ending hk).2,
    fun hk => ?_⟩
  · exact fun c hc => Machine.blank_or_comma_of_skips (skips_of_mem_gap hc)
  · rw [hbehind, ← hmade.aligned.place]
    exact hmade.inner hk

set_option maxRecDepth 2048 in
/-- The dot behind the number is given back, and commas are passed over in the
declaration. -/
theorem positions_exact_keywords : ∃ ts l,
    Reaches
      (ofText ⟨.n3, .sparql11, .recommendation⟩
        "@keywords a, b.\r\n\ta 1.") ts l ∧
    ts.length = 9 ∧ l.cursor.here = Position.origin.past
      (l.cursor.behind (Source.ofText "@keywords a, b.\r\n\ta 1.").rest) := by
  obtain ⟨l, h⟩ := @reaches_of_run
    (ofText ⟨.n3, .sparql11, .recommendation⟩ "@keywords a, b.\r\n\ta 1.")
    [.beginning,
      ⟨.keywordDirective, "@keywords", ⟨1, 1, 1, 9⟩⟩,
      ⟨.keywordDefinition, "a", ⟨1, 1, 11, 11⟩⟩,
      ⟨.keywordDefinition, "b", ⟨1, 1, 14, 14⟩⟩,
      ⟨.dot, ".", ⟨1, 1, 15, 15⟩⟩,
      ⟨.keywordA, "a", ⟨2, 2, 2, 2⟩⟩,
      ⟨.plainLiteral, "1", ⟨2, 2, 4, 4⟩⟩,
      ⟨.dot, ".", ⟨2, 2, 5, 5⟩⟩,
      ⟨.ending, "", ⟨2, 2, 6, 6⟩⟩]
    (by rfl)
  exact ⟨_, l, h, rfl, (positions_exact h).1⟩

end Lexer

end TripleLex

import TripleLex.Proofs.MirroredMachines
import TripleLex.Proofs.Neighbours

/-!
# Lexers in step

Two lexers go on in step as long as what is left of their texts begins alike
(`Lexer.Abreast`): each call yields the same token on both sides. The one
exception is a comment that ends where the texts part, which may go on there.
Where the same is left of both texts, all of it is read alike.

## Main results

* `Lexer.next_abreast`, `Lexer.reaches_abreast` — one call, and a run.
* `Lexer.run_abreast` — all that is left.
* `Lexer.Reaches.rest_suffix` — what is left of a text is its end, since a lexer
  goes on in step with itself.
-/

namespace TripleLex

open Scan
open Cursor (AtEdge)

namespace Machine

variable {m : Machine} {t t' : Token}

theorem after_congr (h : Agree t t') : m.after t' = m.after t := by
  have hkind : t'.kind = t.kind := congrArg Prod.fst h
  have htext : t'.text = t.text := congrArg Prod.snd h
  cases m with
  | n3 vocabulary => simp only [after, Graph.Vocabulary.after, hkind, htext]
  | sparql query => simp only [after, Query.Progress.after, hkind]
  | _ => rfl

/-- Comments and the two marks are forgotten. -/
theorem after_of_idle (h : t.kind = .comment ∨ t.kind = .beginning ∨ t.kind = .ending) :
    m.after t = m := by
  cases m with
  | n3 vocabulary =>
    rcases h with h | h | h <;> simp only [after, Graph.Vocabulary.after, h]
  | sparql query =>
    rcases h with h | h | h <;> simp only [after, Query.Progress.after, h]
  | _ => rfl

theorem hasComments_ofSettings {s : Settings} (hcsv : s.format ≠ .csv) (htsv : s.format ≠ .tsv) :
    (ofSettings s).hasComments = true := by
  rcases s with ⟨format, level, dialect⟩
  cases format with
  | csv => exact absurd rfl hcsv
  | tsv => exact absurd rfl htsv
  | _ => rfl

theorem hasComments_after : (m.after t).hasComments = m.hasComments := by
  cases m <;> rfl

end Machine

namespace Lexer

/-! ## Two lexers -/

/-- Two lexers stand at the same place of what two texts have in common. -/
structure Abreast (z z' : List Char) (l l' : Lexer) : Prop where
  machine : l'.machine = l.machine
  previous : l'.cursor.previous = l.cursor.previous
  cursor : l.cursor.Abreast z z' l'.cursor

/-- The call made a comment, where nothing else was due. -/
structure MakesComment (l : Lexer) (t : Token) (l₁ : Lexer) : Prop where
  next : l.next = (.ok t, l₁)
  inside : ∃ kind, l.cursor.previous = some kind ∧ kind ≠ .ending
  free : l.machine.expects l.cursor.previous = false
  reads : ReadsComment l.cursor.fresh t l₁.cursor

variable {z z' : List Char} {l l' l₁ m₁ : Lexer} {t : Token} {ts us : List Token}

/-! ## One call -/

/-- What is left of the source does not grow. -/
theorem next_rest_le (e : l.next = (.ok t, l₁)) (he : t.kind ≠ .ending) :
    l₁.cursor.source.rest.length ≤ l.cursor.source.rest.length := by
  rcases next_cases e with ⟨-, -, hl⟩ | ⟨-, rfl, -⟩ | ⟨-, -, h⟩
  · exact Nat.le_of_eq (by rw [hl])
  · exact absurd rfl he
  · rcases h.unread_lt with ⟨hk, -⟩ | ⟨-, -, hlt⟩
    · exact absurd hk he
    · unfold unread at hlt
      rw [Cursor.length_ahead, Cursor.length_ahead] at hlt
      have hpending : l.cursor.pending.toList.length ≤ 1 := by
        cases l.cursor.pending <;> simp
      omega

/-- Who reads a token at the edge takes it from behind the edge. -/
theorem not_atEdge_of_next (e : l.next = (.ok t, l₁)) (he : t.kind ≠ .ending)
    (hn : l.cursor.previous ≠ none) (hz : z.length ≤ l₁.cursor.source.rest.length) :
    ¬ AtEdge z z' l.cursor := by
  intro hedge
  rcases next_cases e with ⟨hp, -⟩ | ⟨-, rfl, -⟩ | ⟨-, -, h⟩
  · exact hn hp
  · exact he rfl
  · rcases h.unread_lt with ⟨hk, -⟩ | ⟨-, -, hlt⟩
    · exact he hk
    · exact hedge.not_lt hlt hz

theorem previous_of_next (e : l.next = (.ok t, l₁)) (hne : l.cursor.previous ≠ some .ending) :
    l₁.cursor.previous = some t.kind :=
  (remembered e fun hp => absurd hp hne).1

theorem ne_ending_of_previous (hp : l.cursor.previous = some kind) (hk : kind ≠ .ending) :
    l.cursor.previous ≠ some .ending := by
  rw [hp]
  exact fun he => hk (Option.some.inj he)

/-- Nothing but the end comes exactly where only blank characters are left. -/
theorem ending_iff_blank (hm : l.machine.hasComments = true)
    (hv : ∀ vocabulary, l.machine = .n3 vocabulary → vocabulary.isReading = false)
    (hn : l.cursor.previous ≠ none) (hne : l.cursor.previous ≠ some .ending)
    (e : l.next = (.ok t, l₁)) :
    t.kind = .ending ↔ ∀ c ∈ l.cursor.ahead, Unicode.isBlank c = true := by
  rcases next_cases e with ⟨hp, -⟩ | ⟨hp, -⟩ | ⟨-, -, mid, hp, h⟩
  · exact absurd hp hn
  · exact absurd hp hne
  · rw [Machine.skips_eq_isBlank hm hv] at hp
    have hsplit := hp.ahead
    rcases h with h | ⟨cs, h⟩
    · rw [h.nothing, List.append_nil] at hsplit
      refine iff_of_true (by rw [h.token]) ?_
      rw [hsplit]
      exact List.all_eq_true.1 List.all_takeWhile
    · refine iff_of_false (ne_ending_of_not_isMark h.inner) fun hb => ?_
      have hall : (l.cursor.ahead ++ []).takeWhile Unicode.isBlank = l.cursor.ahead ++ [] :=
        List.takeWhile_append_of_pos hb
      rw [List.append_nil] at hall
      have hlength := h.toMoves.length_add
      have hpos : 0 < cs.length := List.length_pos_iff.2 h.nonempty
      rw [hall] at hsplit
      have hnil := List.self_eq_append_right.1 hsplit
      rw [hnil, List.length_nil] at hlength
      omega

/-- A call yields the same token on both sides, or a comment that ends at the
edge. -/
theorem next_abreast (hm : l.machine.hasComments = true) (h : l.Abreast z z' l')
    (hne : l.cursor.previous ≠ some .ending) (e : l.next = (.ok t, l₁))
    (hz : z.length ≤ l₁.cursor.source.rest.length) (hend : t.kind = .ending → z'.head? = z.head?) :
    (∃ t' l₁', l'.next = (.ok t', l₁') ∧ Agree t t' ∧ l₁.Abreast z z' l₁') ∨
      (AtEdge z z' l₁.cursor ∧ l.MakesComment t l₁) := by
  obtain ⟨e₁, hmachine⟩ := next_ok e
  rcases step_cases e₁ with ⟨hp, rfl, hl⟩ | ⟨hp, -⟩ | ⟨hn, -, e₂⟩
  · left
    refine ⟨.beginning, _, next_beginning (h.previous.trans hp), rfl, ?_, ?_, ?_⟩
    · rw [h.machine, hmachine]
    · rw [hl]
    · rw [hl]
      exact h.cursor.of_eq rfl rfl h.cursor.pending h.cursor.written (Or.inl rfl) h.cursor.whole
  · exact absurd hp hne
  · obtain ⟨kind, hp⟩ := Option.ne_none_iff_exists'.1 hn
    have hk : kind ≠ .ending := fun hk => hne (hp.trans (congrArg some hk))
    rcases Machine.read_mirrored hm (Cursor.begun_fresh _) h.cursor.fresh e₂ hz hend with
      ⟨t', left', e', ht, hleft⟩ | ⟨hedge, hfree, hreads⟩
    · left
      rw [hp, ← h.machine] at e'
      have e' := next_of_read (h.previous.trans hp) hk e'
      refine ⟨t', _, e', ht, ?_, ?_, hleft⟩
      · rw [hmachine, Machine.after_congr ht, h.machine]
      · rw [previous_of_next e hne, previous_of_next e' (by rw [h.previous]; exact hne)]
        exact congrArg some (congrArg Prod.fst ht)
    · exact Or.inr ⟨hedge, e, ⟨kind, hp, hk⟩, hfree, hreads⟩

/-! ## Runs -/

theorem Reaches.hasComments (h : Reaches l ts l₁) :
    l₁.machine.hasComments = l.machine.hasComments := by
  induction h with
  | start => rfl
  | next _ e ih => rw [(next_ok e).2, Machine.hasComments_after, ih]

/-- The token after all text is not remembered before it was made. -/
theorem Reaches.previous_ne (h : Reaches l ts l₁) (hne : l.cursor.previous ≠ some .ending)
    (hts : ∀ t ∈ ts, t.kind ≠ .ending) : l₁.cursor.previous ≠ some .ending := by
  induction h with
  | start => exact hne
  | next _ e ih =>
    have hmid := ih fun t ht => hts t (List.mem_append_left _ ht)
    rw [previous_of_next e hmid]
    intro hk
    exact hts _ (List.mem_append_right _ List.mem_cons_self) (Option.some.inj hk)

/-- The last token of the run is a comment. -/
def EndsInComment (l : Lexer) (ts : List Token) (l₁ : Lexer) : Prop :=
  ∃ init t mid, ts = init ++ [t] ∧ Reaches l init mid ∧ mid.MakesComment t l₁

/-- A run yields the same tokens on both sides, or ends in a comment that ends at
the edge. -/
theorem reaches_abreast (hm : l.machine.hasComments = true) (h : l.Abreast z z' l')
    (hne : l.cursor.previous ≠ some .ending) (hr : Reaches l ts l₁)
    (hts : ∀ t ∈ ts, t.kind ≠ .ending) (hz : z.length ≤ l₁.cursor.source.rest.length) :
    (∃ ts' l₁', Reaches l' ts' l₁' ∧ ts'.map Token.content = ts.map Token.content ∧
      l₁.Abreast z z' l₁') ∨ (AtEdge z z' l₁.cursor ∧ l.EndsInComment ts l₁) := by
  induction hr with
  | start => exact Or.inl ⟨[], l', .start, rfl, h⟩
  | @next ts mid l₁ t hr e ih =>
    have hinit : ∀ t ∈ ts, t.kind ≠ .ending := fun u hu => hts u (List.mem_append_left _ hu)
    have ht : t.kind ≠ .ending := hts t (List.mem_append_right _ List.mem_cons_self)
    have hmid := hr.previous_ne hne hinit
    rcases ih hinit (Nat.le_trans hz (next_rest_le e ht)) with
      ⟨ts', mid', hr', hc, h'⟩ | ⟨hedge, hlast⟩
    · rcases next_abreast (hr.hasComments.trans hm) h' hmid e hz (fun hk => absurd hk ht) with
        ⟨t', l₁', e', hagree, h₁⟩ | ⟨hedge, hcomment⟩
      · refine Or.inl ⟨ts' ++ [t'], l₁', hr'.next e', ?_, h₁⟩
        rw [List.map_append, List.map_append, hc, List.map_singleton, List.map_singleton, hagree]
      · exact Or.inr ⟨hedge, ts, t, mid, rfl, hr, hcomment⟩
    · obtain ⟨init, u, before, -, hr₀, hcomment⟩ := hlast
      obtain ⟨kind, hp, hk⟩ := hcomment.inside
      have hprevious : before.cursor.previous ≠ some .ending := by
        rw [hp]
        exact fun hk' => hk (Option.some.inj hk')
      refine absurd hedge (not_atEdge_of_next e ht ?_ hz)
      rw [previous_of_next hcomment.next hprevious]
      exact nofun

/-- What is left of a source is the end of what was there. -/
theorem Reaches.rest_suffix (hr : Reaches l ts l₁) (hm : l.machine.hasComments = true)
    (hw : l.cursor.source.IsWhole) (hne : l.cursor.previous ≠ some .ending)
    (hts : ∀ t ∈ ts, t.kind ≠ .ending) :
    l₁.cursor.source.rest <:+ l.cursor.source.rest := by
  have hle : l₁.cursor.source.rest.length ≤ l.cursor.source.rest.length := by
    induction hr with
    | start => exact Nat.le_refl _
    | next _ e ih =>
      have hinit := ih fun t ht => hts t (List.mem_append_left _ ht)
      have ht := hts _ (List.mem_append_right _ List.mem_cons_self)
      exact Nat.le_trans (next_rest_le e ht) hinit
  -- the lexer goes on in step with itself, where its text is parted at that length
  let n := l.cursor.source.rest.length - l₁.cursor.source.rest.length
  let z := l.cursor.source.rest.drop n
  have hsplit : l.cursor.source.rest = l.cursor.source.rest.take n ++ z :=
    (List.take_append_drop _ _).symm
  have hlength : z.length = l₁.cursor.source.rest.length := by
    have hdrop : z.length = l.cursor.source.rest.length - n := List.length_drop
    omega
  have hself : l.Abreast z z l :=
    ⟨rfl, rfl, ⟨_, hsplit, hsplit⟩, rfl, rfl, Or.inl rfl, hw, Or.inl rfl⟩
  rcases reaches_abreast hm hself hne hr hts (Nat.le_of_eq hlength) with
    ⟨_, _, -, -, h₁⟩ | ⟨hedge, -⟩
  · obtain ⟨cs, hrest, -⟩ := h₁.cursor.rest
    have hnil : cs = [] := by
      have hcs := congrArg List.length hrest
      rw [List.length_append] at hcs
      exact List.length_eq_zero_iff.1 (by omega)
    rw [hnil] at hrest
    rw [hrest]
    exact List.drop_suffix n _
  · exact absurd rfl hedge.parted

/-! ## Whole runs -/

/-- All of it begins with a call, which is the only one if it makes the token after
all text. -/
theorem run_cases (h : l.run = .ok us) :
    ∃ t l₁ vs, l.next = (.ok t, l₁) ∧ us = t :: vs ∧
      ((t.kind = .ending ∧ vs = []) ∨ (t.kind ≠ .ending ∧ l₁.run = .ok vs)) := by
  obtain ⟨init, last, mid, l', rfl, hlast, hinit, hr, e⟩ := run_ok h
  cases init with
  | nil =>
    rw [hr.eq_of_nil] at e
    exact ⟨last, l', [], e, rfl, Or.inl ⟨hlast, rfl⟩⟩
  | cons t init =>
    obtain ⟨l₁, e₁, hr⟩ := hr.of_cons
    have hinit' : ∀ u ∈ init, u.kind ≠ .ending := fun u hu => hinit u (List.mem_cons_of_mem _ hu)
    exact ⟨t, l₁, init ++ [last], e₁, rfl, Or.inr ⟨hinit t List.mem_cons_self,
      run_of_reaches hr hinit' e hlast⟩⟩

theorem run_of_next (e : l.next = (.ok t, l₁)) (ht : t.kind ≠ .ending) (h : l₁.run = .ok us) :
    l.run = .ok (t :: us) := by
  obtain ⟨init, last, mid, l', rfl, hlast, hinit, hr, e'⟩ := run_ok h
  have hr : Reaches l ([t] ++ init) mid := (Reaches.start.next e).trans hr
  refine run_of_reaches hr (fun u hu => ?_) e' hlast
  rcases List.mem_cons.1 hu with rfl | hu
  · exact ht
  · exact hinit u hu

theorem run_of_ending (e : l.next = (.ok t, l₁)) (ht : t.kind = .ending) : l.run = .ok [t] :=
  run_of_reaches .start (fun _ hu => nomatch hu) e ht

/-- A run goes on to all of it. -/
theorem Reaches.run_append (hr : Reaches l ts l₁) (hts : ∀ t ∈ ts, t.kind ≠ .ending)
    (h : l₁.run = .ok us) : l.run = .ok (ts ++ us) := by
  induction hr generalizing us with
  | start => exact h
  | @next ts mid l₁ t _ e ih =>
    have ht := hts t (List.mem_append_right _ List.mem_cons_self)
    have hrun := ih (fun u hu => hts u (List.mem_append_left _ hu)) (run_of_next e ht h)
    rw [hrun, List.append_assoc]
    rfl

/-- All of it begins with the run. -/
theorem Reaches.run_eq (hr : Reaches l ts l₁) (hts : ∀ t ∈ ts, t.kind ≠ .ending)
    (h : l.run = .ok us) : ∃ vs, us = ts ++ vs ∧ l₁.run = .ok vs := by
  induction ts generalizing l us with
  | nil =>
    rw [hr.eq_of_nil]
    exact ⟨us, rfl, h⟩
  | cons t ts ih =>
    obtain ⟨mid, e, hr⟩ := hr.of_cons
    obtain ⟨u, mid', vs, e', rfl, hcases⟩ := run_cases h
    rw [e] at e'
    cases e'
    rcases hcases with ⟨ht, -⟩ | ⟨-, hrun⟩
    · exact absurd ht (hts t List.mem_cons_self)
    · obtain ⟨ws, rfl, hrest⟩ := ih hr (fun u hu => hts u (List.mem_cons_of_mem _ hu)) hrun
      exact ⟨ws, rfl, hrest⟩

/-- A call on both sides, and what follows it if it is not the last one. -/
theorem run_agree {t' : Token} {l₁' : Lexer} (e' : l'.next = (.ok t', l₁')) (hagree : Agree t t')
    (hcases : (t.kind = .ending ∧ us = []) ∨ (t.kind ≠ .ending ∧ l₁.run = .ok us))
    (htail : t.kind ≠ .ending → l₁.run = .ok us →
      ∃ vs, l₁'.run = .ok vs ∧ vs.map Token.content = us.map Token.content) :
    ∃ vs, l'.run = .ok vs ∧ vs.map Token.content = (t :: us).map Token.content := by
  have hkind : t'.kind = t.kind := congrArg Prod.fst hagree
  rcases hcases with ⟨ht, rfl⟩ | ⟨ht, hrun⟩
  · exact ⟨[t'], run_of_ending e' (hkind.trans ht), congrArg (fun said => [said]) hagree⟩
  · obtain ⟨vs, hvs, hsame⟩ := htail ht hrun
    refine ⟨t' :: vs, run_of_next e' (by rw [hkind]; exact ht) hvs, ?_⟩
    rw [List.map_cons, List.map_cons, hsame, hagree]

/-- Where the same is left, the same is read. -/
theorem run_abreast (hm : l.machine.hasComments = true) (h : l.Abreast [] [] l')
    (hne : l.cursor.previous ≠ some .ending) (hrun : l.run = .ok us) :
    ∃ vs, l'.run = .ok vs ∧ vs.map Token.content = us.map Token.content := by
  induction us generalizing l l' with
  | nil =>
    obtain ⟨t, l₁, vs, -, hnil, -⟩ := run_cases hrun
    cases hnil
  | cons u us ih =>
    obtain ⟨t, l₁, vs, e, hus, hcases⟩ := run_cases hrun
    cases hus
    have hnext : ∃ t' l₁', l'.next = (.ok t', l₁') ∧ Agree u t' ∧ l₁.Abreast [] [] l₁' :=
      (next_abreast hm h hne e (Nat.zero_le _) fun _ => rfl).resolve_right
        fun hedge => hedge.1.parted rfl
    obtain ⟨t', l₁', e', hagree, h₁⟩ := hnext
    refine run_agree e' hagree hcases fun ht hrun₁ => ih ?_ h₁ ?_ hrun₁
    · rw [(next_ok e).2, Machine.hasComments_after]
      exact hm
    · rw [previous_of_next e hne]
      exact fun hk => ht (Option.some.inj hk)

end Lexer

end TripleLex

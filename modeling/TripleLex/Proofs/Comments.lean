import TripleLex.Proofs.BehindComments
import TripleLex.Proofs.InStep

/-!
# Comments between tokens

A text that can be read up to a place between two tokens, and that can be read
with a line end put in there, says the same with a comment put in there, exactly
if the token behind the place does not hang on the one before
(`comments_transparent`).

Both texts are read in step with the text without either (`reaches_place`). What
is put in is either passed over as a comment of its own (`AtPlace`), or it is
taken by a comment that ends at the place and now ends behind it. From there on
the two lexers have the same to read.

## Main results

* `Lexer.reaches_place` — the way to the place.
* `Lexer.AtPlace.run_iff`, `Lexer.run_past` — what is read from there.
* `Lexer.comments_transparent` — the whole.
-/

namespace TripleLex

open Scan

namespace Token

/-- What tokens say, comments apart. -/
def contents (ts : List Token) : List (Kind × String) :=
  (ts.filter fun t => !t.isComment).map content

theorem contents_append (ts us : List Token) :
    contents (ts ++ us) = contents ts ++ contents us := by
  rw [contents, List.filter_append, List.map_append]
  rfl

theorem contents_comment_cons {t : Token} {ts : List Token} (h : t.kind = .comment) :
    contents (t :: ts) = contents ts := by
  have hcomment : (!t.isComment) = false := congrArg not (beq_iff_eq.2 h)
  rw [contents, List.filter_cons, hcomment]
  rfl

theorem contents_cons_of_ne {t : Token} {ts : List Token} (h : t.kind ≠ .comment) :
    contents (t :: ts) = t.content :: contents ts := by
  have hcomment : (!t.isComment) = true := congrArg not (beq_eq_false_iff_ne.2 h)
  rw [contents, List.filter_cons, hcomment]
  rfl

theorem contents_congr {ts us : List Token} (h : us.map content = ts.map content) :
    contents us = contents ts := by
  have hfilter : ∀ ts : List Token,
      contents ts = (ts.map content).filter fun said => !(said.1 == .comment) := by
    intro ts
    rw [contents, List.filter_map]
    rfl
  rw [hfilter, hfilter, h]

end Token

namespace Lexer

variable {z z' w gap rest : List Char} {l l₁ l₂ l' m m₁ m₂ : Lexer} {kind : Kind} {t : Token}
  {ts us : List Token}

/-! ## Comments that are put in -/

/-- A comment is read where nothing else is due. -/
theorem next_comment {body : List Char} (hm : l.machine.hasComments = true)
    (hp : l.cursor.previous = some kind) (hk : kind ≠ .ending)
    (he : l.machine.expects (some kind) = false) (hw : l.cursor.source.IsWhole)
    (hgap : ∀ c ∈ gap, Unicode.isBlank c = true)
    (hbody : ∀ d ∈ '#' :: body, Unicode.isLineEnd d = false)
    (ha : l.cursor.ahead = gap ++ '#' :: (body ++ '\n' :: rest)) :
    ∃ c k, l.next = (.ok c, ⟨l.machine, k⟩) ∧ c.kind = .comment ∧
      PastComment ('\n' :: rest) k := by
  have hrest : ∀ d, ('\n' :: rest).head? = some d → Unicode.isLineEnd d = true := by
    rintro d ⟨⟩
    decide
  obtain ⟨c, k, e, hc, hk'⟩ :=
    Machine.read_comment hm he (k := l.cursor.fresh) hw hgap hbody hrest ha
  have hkind : c.kind = .comment := congrArg Prod.fst hc
  have e := next_of_read hp hk e
  rw [Machine.after_of_idle (Or.inl hkind)] at e
  exact ⟨c, k, e, hkind, hk'⟩

/-- A comment that ends where the texts part takes what is put there. -/
theorem next_longer_comment (hm : l.machine.hasComments = true) (hc : l.MakesComment t l₁)
    (hl : l₁.cursor.pending = none) (hrest : l₁.cursor.source.rest = z)
    (hw : ∀ d ∈ w, Unicode.isLineEnd d = false) (h₂ : l.Abreast z (w ++ '\n' :: rest) l₂) :
    ∃ c k, l₂.next = (.ok c, ⟨l.machine, k⟩) ∧ c.kind = .comment ∧
      PastComment ('\n' :: rest) k := by
  obtain ⟨gap, body, ha, hgap, hbody⟩ := hc.reads.ahead_eq
  obtain ⟨kind, hp, hk⟩ := hc.inside
  have hleft : l₁.cursor.ahead = z := by
    rw [Cursor.ahead, hl, hrest]
    rfl
  have hahead : l.cursor.ahead = gap ++ '#' :: body ++ z := by
    rw [← hleft, List.append_assoc]
    exact ha
  have hahead₂ : l₂.cursor.ahead = gap ++ '#' :: ((body ++ w) ++ '\n' :: rest) := by
    rw [h₂.cursor.ahead_eq hahead, List.append_assoc, List.cons_append, List.append_assoc]
  have hbody' : ∀ d ∈ '#' :: (body ++ w), Unicode.isLineEnd d = false := by
    intro d hd
    rcases List.mem_append.1 (show d ∈ '#' :: body ++ w from hd) with hd | hd
    · exact hbody d hd
    · exact hw d hd
  have hfree := hc.free
  rw [hp, ← h₂.machine] at hfree
  rw [← h₂.machine] at hm ⊢
  exact next_comment hm (h₂.previous.trans hp) hk hfree h₂.cursor.whole hgap hbody' hahead₂

/-- A place with nothing but blank characters before `rest`, where no keywords are
being declared. -/
structure AtPlace (gap rest : List Char) (l : Lexer) : Prop where
  hasComments : l.machine.hasComments = true
  notReading : ∀ vocabulary, l.machine = .n3 vocabulary → vocabulary.isReading = false
  rest : l.cursor.source.rest = gap ++ rest
  blank : ∀ c ∈ l.cursor.pending.toList ++ gap, Unicode.isBlank c = true
  inside : ∃ kind, l.cursor.previous = some kind ∧ kind ≠ .ending

/-- What is put in is what comes next, behind the gap. -/
theorem AtPlace.ahead_eq (h : l.AtPlace gap rest) (h' : l.Abreast (gap ++ rest) (gap ++ w) l') :
    l'.cursor.ahead = l.cursor.pending.toList ++ gap ++ w := by
  rw [List.append_assoc]
  exact h'.cursor.ahead_eq (by rw [Cursor.ahead, h.rest])

section Place

variable (h : l.AtPlace gap rest)
  (h₁ : l.Abreast (gap ++ rest) (gap ++ '\n' :: rest) l₁)
  (h₂ : l.Abreast (gap ++ rest) (gap ++ ' ' :: '#' :: 'c' :: '\n' :: rest) l₂)

include h h₂ in
/-- The comment is read on its own. -/
theorem AtPlace.next_comment (he : l.machine.expects l.cursor.previous = false) :
    ∃ c k, l₂.next = (.ok c, ⟨l.machine, k⟩) ∧ c.kind = .comment ∧
      PastComment ('\n' :: rest) k := by
  obtain ⟨kind, hp, hk⟩ := h.inside
  have hgap : ∀ c ∈ l.cursor.pending.toList ++ gap ++ [' '], Unicode.isBlank c = true := by
    intro c hc
    rcases List.mem_append.1 hc with hc | hc
    · exact h.blank c hc
    · rw [List.mem_singleton.1 hc]
      decide
  have hbody : ∀ d ∈ '#' :: ['c'], Unicode.isLineEnd d = false := by simp [Unicode.isLineEnd]
  have hahead : l₂.cursor.ahead =
      l.cursor.pending.toList ++ gap ++ [' '] ++ '#' :: (['c'] ++ '\n' :: rest) := by
    rw [h.ahead_eq h₂, List.append_assoc _ [' ']]
    rfl
  have hm := h.hasComments
  rw [hp, ← h₂.machine] at he
  rw [← h₂.machine] at hm ⊢
  exact Lexer.next_comment hm (h₂.previous.trans hp) hk he h₂.cursor.whole hgap hbody hahead

include h h₂ in
/-- Where the call behind the gap makes a token, nothing else was due. -/
theorem AtPlace.free_of_next (e : l₂.next = (.ok t, m₂)) :
    l.machine.expects l.cursor.previous = false := by
  obtain ⟨kind, hp, hk⟩ := h.inside
  have hhash : (l₂.cursor.fresh.ahead.dropWhile Unicode.isBlank).head? = some '#' := by
    rw [Cursor.ahead_fresh, h.ahead_eq h₂, List.dropWhile_append_of_pos h.blank,
      List.dropWhile_cons_of_pos (by decide),
      List.dropWhile_cons_of_neg (by decide)]
    rfl
  have e := read_of_next e (h₂.previous.trans hp) hk
  rw [h₂.machine, ← hp] at e
  exact Machine.comment_not_due h.hasComments h.notReading hhash e

include h h₁ in
/-- Behind the comment the token comes that the line end leaves to be read. -/
theorem AtPlace.next_past (ha : l.machine.attaches t.kind = false) (e : l₁.next = (.ok t, m₁))
    {k : Cursor} (hk : PastComment ('\n' :: rest) k) :
    ∃ t' m₂, (⟨l.machine, k⟩ : Lexer).next = (.ok t', m₂) ∧ Agree t t' ∧
      m₁.Abreast [] [] m₂ := by
  obtain ⟨kind, hp, hne⟩ := h.inside
  have hp₁ : l₁.cursor.previous = some kind := h₁.previous.trans hp
  have e₁ := read_of_next e hp₁ hne
  rw [h₁.machine] at e₁
  have e₁ := Machine.read_commented h.hasComments h.notReading ha e₁
  have he : l.machine.expects (some .comment) = false :=
    Machine.expects_of_open h.notReading ⟨nofun, nofun⟩
  have hwhole : l₁.cursor.fresh.source.IsWhole := h₁.cursor.whole
  have hwhole' : k.fresh.source.IsWhole := hk.clear.whole
  have hpending : l₁.cursor.fresh.pending.all Unicode.isBlank = true := by
    show l₁.cursor.pending.all Unicode.isBlank = true
    rw [h₁.cursor.pending]
    cases hpend : l.cursor.pending with
    | none => rfl
    | some b => exact h.blank b (by rw [hpend]; exact List.mem_cons_self)
  have hpending' : k.fresh.pending.all Unicode.isBlank = true := by
    show k.pending.all Unicode.isBlank = true
    rw [hk.clear.pending]
    rfl
  have hblanks : k.fresh.ahead.dropWhile Unicode.isBlank =
      l₁.cursor.fresh.ahead.dropWhile Unicode.isBlank := by
    show k.ahead.dropWhile _ = l₁.cursor.ahead.dropWhile _
    rw [hk.ahead, h.ahead_eq h₁, List.dropWhile_append_of_pos h.blank]
  obtain ⟨t', left', e₂, hagree, hleft⟩ := Machine.read_behind_blanks h.hasComments he hwhole
    hwhole' hpending hpending' (Or.inr hk.previous) hblanks e₁
  have e₂ : (⟨l.machine, k⟩ : Lexer).next = (.ok t', ⟨l.machine.after t', left'⟩) :=
    next_of_read hk.previous nofun e₂
  refine ⟨t', _, e₂, hagree, ?_, ?_, hleft⟩
  · rw [(next_ok e).2, h₁.machine, Machine.after_congr hagree]
  · rw [previous_of_next e (ne_ending_of_previous hp₁ hne),
      previous_of_next e₂ (ne_ending_of_previous hk.previous nofun)]
    exact congrArg some (congrArg Prod.fst hagree)

end Place

/-! ## Reading on from the place -/

/-- What is read behind a comment does not hang on the token before. -/
theorem contents_past (hm : l.machine.hasComments = true)
    (hv : ∀ vocabulary, l.machine = .n3 vocabulary → vocabulary.isReading = false)
    (hp : l.cursor.previous = some .comment) (hrun : l.run = .ok us) :
    ∀ said, (Token.contents us).head? = some said → l.machine.attaches said.1 = false := by
  induction us generalizing l with
  | nil =>
    obtain ⟨t, l₁, vs, -, hnil, -⟩ := run_cases hrun
    cases hnil
  | cons u us ih =>
    obtain ⟨t, l₁, vs, e, hus, hcases⟩ := run_cases hrun
    cases hus
    by_cases hc : u.kind = .comment
    · rcases hcases with ⟨hend, -⟩ | ⟨-, hvs⟩
      · rw [hc] at hend
        cases hend
      · have hmachine : l₁.machine = l.machine :=
          (next_ok e).2.trans (Machine.after_of_idle (Or.inl hc))
        have hp₁ : l₁.cursor.previous = some .comment := by
          rw [previous_of_next e (ne_ending_of_previous hp nofun), hc]
        rw [Token.contents_comment_cons hc]
        rw [← hmachine] at hm hv ⊢
        exact ih hm hv hp₁ hvs
    · rw [Token.contents_cons_of_ne hc]
      rintro said ⟨⟩
      exact Machine.not_attaches_of_idle hm hv (Or.inl rfl) (read_of_next e hp nofun)

/-- Where the line end is put in, the rest is read; with the comment, the same is
read exactly if the next token does not hang on the one before. -/
theorem AtPlace.run_iff (h : l.AtPlace gap rest)
    (h₁ : l.Abreast (gap ++ rest) (gap ++ '\n' :: rest) l₁)
    (h₂ : l.Abreast (gap ++ rest) (gap ++ ' ' :: '#' :: 'c' :: '\n' :: rest) l₂)
    (hrun : l₁.run = .ok us) :
    (∃ vs, l₂.run = .ok vs ∧ Token.contents vs = Token.contents us) ↔
      ∀ t, us.head? = some t → l.machine.attaches t.kind = false := by
  obtain ⟨kind, hp, hk⟩ := h.inside
  obtain ⟨t, m₁, us', e, rfl, hcases⟩ := run_cases hrun
  constructor
  · rintro ⟨vs, hvs, hsame⟩ u ⟨⟩
    by_cases hc : t.kind = .comment
    · rw [hc]
      exact Machine.attaches_idle (Or.inl rfl)
    · obtain ⟨c, m₂, ws, e', rfl, hcases'⟩ := run_cases hvs
      obtain ⟨d, k, ed, hd, hk'⟩ := h.next_comment h₂ (h.free_of_next h₂ e')
      rw [ed] at e'
      cases e'
      rcases hcases' with ⟨hend, -⟩ | ⟨-, hws⟩
      · rw [hd] at hend
        cases hend
      · refine contents_past (l := ⟨l.machine, k⟩) h.hasComments h.notReading hk'.previous hws
          t.content ?_
        rw [← Token.contents_comment_cons hd, hsame, Token.contents_cons_of_ne hc]
        rfl
  · intro ha
    have ha := ha t rfl
    have e₁ := read_of_next e (h₁.previous.trans hp) hk
    rw [h₁.machine, ← hp] at e₁
    obtain ⟨c, k, ec, hc, hk'⟩ :=
      h.next_comment h₂ (Machine.expects_eq_false h.hasComments h.notReading ha e₁)
    obtain ⟨t', m₂, e', hagree, hm₁⟩ := h.next_past h₁ ha e hk'
    have htail : ∃ vs, (⟨l.machine, k⟩ : Lexer).run = .ok vs ∧
        vs.map Token.content = (t :: us').map Token.content := by
      refine run_agree e' hagree hcases fun ht hrun₁ => run_abreast ?_ hm₁ ?_ hrun₁
      · rw [(next_ok e).2, Machine.hasComments_after, h₁.machine]
        exact h.hasComments
      · rw [previous_of_next e (ne_ending_of_previous (h₁.previous.trans hp) hk)]
        exact fun he => ht (Option.some.inj he)
    obtain ⟨vs, hvs, hsame⟩ := htail
    refine ⟨c :: vs, run_of_next ec (by rw [hc]; exact nofun) hvs, ?_⟩
    rw [Token.contents_comment_cons hc, Token.contents_congr hsame]

/-- Behind two comments the same is read. -/
theorem run_past {machine : Machine} {k₁ k₂ : Cursor} (hm : machine.hasComments = true)
    (h₁ : PastComment ('\n' :: rest) k₁) (h₂ : PastComment ('\n' :: rest) k₂)
    (hrun : (⟨machine, k₁⟩ : Lexer).run = .ok us) :
    ∃ vs, (⟨machine, k₂⟩ : Lexer).run = .ok vs ∧ Token.contents vs = Token.contents us := by
  have hsame : (⟨machine, k₁⟩ : Lexer).Abreast [] [] ⟨machine, k₂⟩ := by
    refine ⟨rfl, h₂.previous.trans h₁.previous.symm, ?_⟩
    exact Cursor.abreast_of_clear h₁.clear h₂.clear (h₂.ahead.trans h₁.ahead.symm)
      (h₂.written.trans h₁.written.symm) (Or.inr h₂.previous)
  have hm' : (⟨machine, k₁⟩ : Lexer).machine.hasComments = true := hm
  obtain ⟨vs, hvs, hcontents⟩ :=
    run_abreast hm' hsame (ne_ending_of_previous h₁.previous nofun) hrun
  exact ⟨vs, hvs, Token.contents_congr hcontents⟩

/-! ## The way to the place -/

theorem ne_ending_of_contents (h : us.map Token.content = ts.map Token.content)
    (hts : ∀ t ∈ ts, t.kind ≠ .ending) : ∀ u ∈ us, u.kind ≠ .ending := by
  intro u hu
  have hmem : u.content ∈ ts.map Token.content := h ▸ List.mem_map_of_mem hu
  obtain ⟨t, ht, hcontent⟩ := List.mem_map.1 hmem
  have hkind : t.kind = u.kind := congrArg Prod.fst hcontent
  rw [← hkind]
  exact hts t ht

/-- Two lexers that have come to a place with a line end and with a comment put
in: they stand before what was put in, or behind a comment that took it. -/
inductive Arrived (gap rest : List Char) (l : Lexer) : Lexer → Lexer → Prop
  | before {l₁ l₂ : Lexer} (h₁ : l.Abreast (gap ++ rest) (gap ++ '\n' :: rest) l₁)
      (h₂ : l.Abreast (gap ++ rest) (gap ++ ' ' :: '#' :: 'c' :: '\n' :: rest) l₂) :
      Arrived gap rest l l₁ l₂
  | past {k₁ k₂ : Cursor} (h₁ : PastComment ('\n' :: rest) k₁)
      (h₂ : PastComment ('\n' :: rest) k₂) :
      Arrived gap rest l ⟨l.machine, k₁⟩ ⟨l.machine, k₂⟩

/-- A run that a comment is to follow is not at the edge yet. -/
theorem reaches_before_comment (hm : l.machine.hasComments = true)
    (hne : l.cursor.previous ≠ some .ending) (h : l.Abreast z z' l') (hr : Reaches l ts m)
    (hts : ∀ t ∈ ts, t.kind ≠ .ending) (hc : m.MakesComment t m₁)
    (hz : z.length ≤ m₁.cursor.source.rest.length) :
    ∃ ts' m', Reaches l' ts' m' ∧ ts'.map Token.content = ts.map Token.content ∧
      m.Abreast z z' m' := by
  have ht : t.kind ≠ .ending := by
    rw [hc.reads.kind]
    decide
  have hinside : m.cursor.previous ≠ none := by
    obtain ⟨kind, hp, -⟩ := hc.inside
    rw [hp]
    exact Option.some_ne_none kind
  have hz' := Nat.le_trans hz (next_rest_le hc.next ht)
  refine (reaches_abreast hm h hne hr hts hz').resolve_right fun hedge => ?_
  exact not_atEdge_of_next hc.next ht hinside hz hedge.1

/-- A run leads to the place on both sides, with the same tokens but for what
comments say. -/
theorem reaches_place (hm : l.machine.hasComments = true) (hne : l.cursor.previous ≠ some .ending)
    (h₁ : l.Abreast (gap ++ rest) (gap ++ '\n' :: rest) l₁)
    (h₂ : l.Abreast (gap ++ rest) (gap ++ ' ' :: '#' :: 'c' :: '\n' :: rest) l₂)
    (hr : Reaches l ts m) (hts : ∀ t ∈ ts, t.kind ≠ .ending)
    (hrest : m.cursor.source.rest = gap ++ rest) :
    ∃ ts₁ m₁ ts₂ m₂, Reaches l₁ ts₁ m₁ ∧ Reaches l₂ ts₂ m₂ ∧
      (∀ t ∈ ts₁, t.kind ≠ .ending) ∧ (∀ t ∈ ts₂, t.kind ≠ .ending) ∧
      ts₁.length = ts.length ∧ Token.contents ts₂ = Token.contents ts₁ ∧
      Arrived gap rest m m₁ m₂ := by
  by_cases hcut : gap = [] ∧ m.cursor.pending = none ∧ l.EndsInComment ts m
  · obtain ⟨rfl, hpending, init, t, mid, rfl, hr₀, hc⟩ := hcut
    have hinit : ∀ t ∈ init, t.kind ≠ .ending := fun u hu => hts u (List.mem_append_left _ hu)
    have hz : ([] ++ rest).length ≤ m.cursor.source.rest.length := Nat.le_of_eq (by rw [hrest])
    obtain ⟨ts₁, mid₁, hr₁, hc₁, hmid₁⟩ := reaches_before_comment hm hne h₁ hr₀ hinit hc hz
    obtain ⟨ts₂, mid₂, hr₂, hc₂, hmid₂⟩ := reaches_before_comment hm hne h₂ hr₀ hinit hc hz
    have hm' := hr₀.hasComments.trans hm
    have hline : ∀ d ∈ [' ', '#', 'c'], Unicode.isLineEnd d = false := by
      simp [Unicode.isLineEnd]
    obtain ⟨c₁, k₁, e₁, hk₁, hp₁⟩ :=
      next_longer_comment (w := []) hm' hc hpending hrest (by simp) hmid₁
    obtain ⟨c₂, k₂, e₂, hk₂, hp₂⟩ :=
      next_longer_comment (w := [' ', '#', 'c']) hm' hc hpending hrest hline hmid₂
    have hmachine : m.machine = mid.machine :=
      (next_ok hc.next).2.trans (Machine.after_of_idle (Or.inl hc.reads.kind))
    rw [← hmachine] at e₁ e₂
    have hsnoc : ∀ {us : List Token} {c : Token}, us.map Token.content = init.map Token.content →
        c.kind = .comment → ∀ u ∈ us ++ [c], u.kind ≠ .ending := by
      intro us c hus hc u hu
      rcases List.mem_append.1 hu with hu | hu
      · exact ne_ending_of_contents hus hinit u hu
      · rw [List.mem_singleton.1 hu, hc]
        decide
    refine ⟨ts₁ ++ [c₁], _, ts₂ ++ [c₂], _, hr₁.next e₁, hr₂.next e₂, hsnoc hc₁ hk₁, hsnoc hc₂ hk₂,
      ?_, ?_, .past hp₁ hp₂⟩
    · rw [List.length_append, List.length_append, ← List.length_map Token.content, hc₁,
        List.length_map]
      rfl
    · rw [Token.contents_append, Token.contents_append, Token.contents_comment_cons hk₁,
        Token.contents_comment_cons hk₂, Token.contents_congr (hc₂.trans hc₁.symm)]
  · have hbehind : ∀ {c ds l'}, l.Abreast (gap ++ rest) (gap ++ c :: ds) l' →
        ∃ ts' m', Reaches l' ts' m' ∧ ts'.map Token.content = ts.map Token.content ∧
          m.Abreast (gap ++ rest) (gap ++ c :: ds) m' := by
      intro c ds l' h
      refine (reaches_abreast hm h hne hr hts (Nat.le_of_eq (by rw [hrest]))).resolve_right ?_
      rintro ⟨hedge, hlast⟩
      refine hcut ⟨?_, hedge.pending, hlast⟩
      cases gap with
      | nil => rfl
      | cons b gap => exact absurd rfl hedge.parted
    obtain ⟨ts₁, m₁, hr₁, hc₁, hm₁⟩ := hbehind h₁
    obtain ⟨ts₂, m₂, hr₂, hc₂, hm₂⟩ := hbehind h₂
    refine ⟨ts₁, m₁, ts₂, m₂, hr₁, hr₂, ne_ending_of_contents hc₁ hts,
      ne_ending_of_contents hc₂ hts, ?_, Token.contents_congr (hc₂.trans hc₁.symm), .before hm₁ hm₂⟩
    rw [← List.length_map Token.content, hc₁, List.length_map]

/-- All of it, with a comment put in behind a run. -/
theorem run_commented_iff (hm : l.machine.hasComments = true)
    (hne : l.cursor.previous ≠ some .ending)
    (h₁ : l.Abreast (gap ++ rest) (gap ++ '\n' :: rest) l₁)
    (h₂ : l.Abreast (gap ++ rest) (gap ++ ' ' :: '#' :: 'c' :: '\n' :: rest) l₂)
    (hr : Reaches l ts m) (hts : ∀ t ∈ ts, t.kind ≠ .ending) (hp : m.AtPlace gap rest)
    (hrun : l₁.run = .ok us) :
    (∃ vs, l₂.run = .ok vs ∧ Token.contents vs = Token.contents us) ↔
      ∀ t, us[ts.length]? = some t → m.machine.attaches t.kind = false := by
  obtain ⟨ts₁, m₁, ts₂, m₂, hr₁, hr₂, hts₁, hts₂, hlength, hsame, harrived⟩ :=
    reaches_place hm hne h₁ h₂ hr hts hp.rest
  obtain ⟨us', rfl, hrun'⟩ := hr₁.run_eq hts₁ hrun
  have hindex : (ts₁ ++ us')[ts.length]? = us'.head? := by
    rw [← hlength, List.getElem?_append_right (Nat.le_refl _), Nat.sub_self,
      List.head?_eq_getElem?]
  have htail : (∃ vs, l₂.run = .ok vs ∧ Token.contents vs = Token.contents (ts₁ ++ us')) ↔
      ∃ vs, m₂.run = .ok vs ∧ Token.contents vs = Token.contents us' := by
    constructor
    · rintro ⟨vs, hvs, hcontents⟩
      obtain ⟨ws, rfl, hws⟩ := hr₂.run_eq hts₂ hvs
      rw [Token.contents_append, Token.contents_append, hsame] at hcontents
      exact ⟨ws, hws, List.append_cancel_left hcontents⟩
    · rintro ⟨ws, hws, hcontents⟩
      refine ⟨ts₂ ++ ws, hr₂.run_append hts₂ hws, ?_⟩
      rw [Token.contents_append, Token.contents_append, hsame, hcontents]
  rw [htail, hindex]
  cases harrived with
  | before hm₁ hm₂ => exact hp.run_iff hm₁ hm₂ hrun'
  | past hp₁ hp₂ =>
    refine iff_of_true (run_past hp.hasComments hp₁ hp₂ hrun') fun t ht => ?_
    obtain ⟨u, n, vs, e, rfl, -⟩ := run_cases hrun'
    cases ht
    have e₁ := read_of_next e hp₁.previous nofun
    exact Machine.not_attaches_of_idle hp.hasComments hp.notReading (Or.inl rfl) e₁

/-! ## The whole -/

/-- Behind the end nothing changes. -/
theorem Reaches.at_end (h : Reaches l ts l₁) (hp : l.cursor.previous = some .ending) :
    l₁.cursor.previous = some .ending ∧ l₁.cursor.ahead = l.cursor.ahead ∧
      l₁.machine = l.machine := by
  induction h with
  | start => exact ⟨hp, rfl, rfl⟩
  | next _ e ih =>
    obtain ⟨hp, ha, hm⟩ := ih
    obtain ⟨hitem, hcursor⟩ := next_of_atEnd hp
    rw [e] at hitem hcursor
    cases hitem
    refine ⟨by rw [hcursor], ?_, ?_⟩
    · rw [hcursor, ← ha]
      rfl
    · rw [(next_ok e).2, Machine.after_of_idle (Or.inr (Or.inr rfl)), hm]

theorem ends_or_not (ts : List Token) : (∀ t ∈ ts, t.kind ≠ .ending) ∨
    ∃ init t tail, ts = init ++ t :: tail ∧ t.kind = .ending ∧ ∀ u ∈ init, u.kind ≠ .ending := by
  induction ts with
  | nil => exact Or.inl fun _ h => nomatch h
  | cons t ts ih =>
    by_cases ht : t.kind = .ending
    · exact Or.inr ⟨[], t, ts, rfl, ht, fun _ h => nomatch h⟩
    · rcases ih with h | ⟨init, u, tail, rfl, hu, h⟩
      · exact Or.inl (List.forall_mem_cons.2 ⟨ht, h⟩)
      · exact Or.inr ⟨t :: init, u, tail, rfl, hu, List.forall_mem_cons.2 ⟨ht, h⟩⟩

/-- Before the end comes, nothing but blank characters is left. -/
theorem Reaches.place_before_end (hm : l.machine.hasComments = true)
    (hne : l.cursor.previous ≠ some .ending) (hr : Reaches l (ts ++ t :: us) m)
    (hts : ∀ t ∈ ts, t.kind ≠ .ending) (ht : t.kind = .ending)
    (hv : ∀ vocabulary, m.machine = .n3 vocabulary → vocabulary.isReading = false) :
    ∃ mid, Reaches l ts mid ∧ mid.AtPlace mid.cursor.source.rest [] ∧ m.cursor.ahead = [] := by
  obtain ⟨mid, hr₀, hr₁⟩ := hr.of_append
  obtain ⟨next, e, hr₂⟩ := hr₁.of_cons
  have hmid := hr₀.previous_ne hne hts
  obtain ⟨hp, hnil⟩ := remembered e fun hp => absurd hp hmid
  rw [ht] at hp
  obtain ⟨-, hahead, hmachine⟩ := hr₂.at_end hp
  rw [(next_ok e).2, Machine.after_of_idle (Or.inr (Or.inr ht))] at hmachine
  rw [hmachine] at hv
  have hsome : mid.cursor.previous ≠ none := by
    intro hnone
    rw [next_beginning hnone] at e
    cases e
    cases ht
  obtain ⟨kind, hkind⟩ := Option.ne_none_iff_exists'.1 hsome
  have hm' := hr₀.hasComments.trans hm
  have hblank := (ending_iff_blank hm' hv hsome hmid e).1 ht
  have hk : kind ≠ .ending := fun hk => hmid (hkind.trans (congrArg some hk))
  exact ⟨mid, hr₀, ⟨hm', hv, (List.append_nil _).symm, hblank, kind, hkind, hk⟩,
    hahead.trans (hnil hp)⟩

/-- A text, and the text with something put in that begins with a blank
character. -/
theorem abreast_ofText {s : Settings} {a b w : String} {cs gap ds : List Char} {c : Char}
    (hc : c = ' ' ∨ c = '\n') (hw : w.toList = c :: ds) (ha : a.toList = cs ++ gap) :
    (ofText s (a ++ b)).Abreast (gap ++ b.toList) (gap ++ c :: (ds ++ b.toList))
      (ofText s (a ++ w ++ b)) := by
  have htext : (a ++ b).toList = cs ++ (gap ++ b.toList) := by
    rw [String.toList_append, ha, List.append_assoc]
  have htext' : (a ++ w ++ b).toList = cs ++ (gap ++ c :: (ds ++ b.toList)) := by
    rw [String.toList_append, String.toList_append, ha, hw, List.append_assoc, List.append_assoc]
    rfl
  refine ⟨rfl, rfl, ⟨cs, htext, htext'⟩, rfl, rfl, Or.inl rfl, Input.Source.isWhole_ofText _, ?_⟩
  cases gap with
  | nil => exact Or.inr (hc.imp (congrArg some) (congrArg some))
  | cons b gap => exact Or.inl rfl

/-- A lexer that remembers no token has made none. -/
theorem Reaches.eq_of_previous_none (hr : Reaches l ts m) (hne : l.cursor.previous ≠ some .ending)
    (hts : ∀ t ∈ ts, t.kind ≠ .ending) (hp : m.cursor.previous = none) : ts = [] ∧ m = l := by
  cases hr with
  | start => exact ⟨rfl, rfl⟩
  | next h e =>
    have hmid := h.previous_ne hne fun t ht => hts t (List.mem_append_left _ ht)
    rw [previous_of_next e hmid] at hp
    cases hp

/-- With nothing behind the place, nothing but the end is read from there. -/
theorem Arrived.run_eq (hp : m.AtPlace gap rest) (ha : Arrived gap rest m m₁ m₂)
    (hrest : rest = []) (hrun : m₁.run = .ok us) : ∃ t, t.kind = .ending ∧ us = [t] := by
  obtain ⟨kind, hkind, hk⟩ := hp.inside
  obtain ⟨t, n, vs, e, rfl, hcases⟩ := run_cases hrun
  have hline : ∀ c ∈ '\n' :: rest, Unicode.isBlank c = true := by
    rw [hrest]
    exact List.forall_mem_singleton.2 (by decide)
  have hend : t.kind = .ending := by
    cases ha with
    | before h₁ h₂ =>
      have hp₁ := h₁.previous.trans hkind
      have hm := hp.hasComments
      have hv := hp.notReading
      rw [← h₁.machine] at hm hv
      have hstarted : m₁.cursor.previous ≠ none := by
        rw [hp₁]
        exact nofun
      refine (ending_iff_blank hm hv hstarted (ne_ending_of_previous hp₁ hk) e).2 ?_
      rw [hp.ahead_eq h₁]
      exact List.forall_mem_append.2 ⟨hp.blank, hline⟩
    | @past k₁ k₂ h₁ h₂ =>
      have hn : (⟨m.machine, k₁⟩ : Lexer).cursor.previous ≠ none := by
        rw [h₁.previous]
        exact nofun
      refine (ending_iff_blank (l := ⟨m.machine, k₁⟩) hp.hasComments hp.notReading hn
        (ne_ending_of_previous h₁.previous nofun) e).2 ?_
      rw [h₁.ahead]
      exact hline
  rcases hcases with ⟨-, rfl⟩ | ⟨hne, -⟩
  · exact ⟨t, hend, rfl⟩
  · exact absurd hend hne

/-- Before anything was read, the token before all text is read first. -/
theorem run_commented_start (hm : l.machine.hasComments = true)
    (hv : ∀ vocabulary, l.machine = .n3 vocabulary → vocabulary.isReading = false)
    (h₁ : l.Abreast (gap ++ rest) (gap ++ '\n' :: rest) l₁)
    (h₂ : l.Abreast (gap ++ rest) (gap ++ ' ' :: '#' :: 'c' :: '\n' :: rest) l₂)
    (hp : l.cursor.previous = none) (hrest : l.cursor.source.rest = gap ++ rest)
    (hblank : ∀ c ∈ l.cursor.pending.toList ++ gap, Unicode.isBlank c = true)
    (hrun : l₁.run = .ok us) :
    (∃ vs, l₂.run = .ok vs ∧ Token.contents vs = Token.contents us) ∧
      us.head? = some .beginning := by
  have hne : l.cursor.previous ≠ some .ending := by
    rw [hp]
    exact nofun
  have e := next_beginning hp
  rw [Machine.after_of_idle (Or.inr (Or.inl rfl))] at e
  obtain ⟨t, n, us', e₁, rfl, hcases⟩ := run_cases hrun
  rw [next_beginning (h₁.previous.trans hp), Machine.after_of_idle (Or.inr (Or.inl rfl))] at e₁
  cases e₁
  have hrun' := (hcases.resolve_left fun h => nomatch h.1).2
  have hts : ∀ t ∈ [] ++ [Token.beginning], t.kind ≠ .ending := by
    intro t ht
    rw [List.mem_singleton.1 ht]
    exact nofun
  have hiff := run_commented_iff hm hne h₁ h₂ (Reaches.start.next e) hts
    ⟨hm, hv, hrest, hblank, _, rfl, nofun⟩ hrun
  refine ⟨hiff.2 fun u hu => ?_, rfl⟩
  obtain ⟨u', n, vs, e₂, rfl, -⟩ := run_cases hrun'
  cases hu
  have e₂ := read_of_next e₂ rfl nofun
  rw [h₁.machine] at e₂
  exact Machine.not_attaches_of_idle hm hv (Or.inr rfl) e₂

/-- Where only blank characters are left, the end follows the comment. -/
theorem run_commented_end (hm : l.machine.hasComments = true)
    (hne : l.cursor.previous ≠ some .ending)
    (h₁ : l.Abreast (gap ++ rest) (gap ++ '\n' :: rest) l₁)
    (h₂ : l.Abreast (gap ++ rest) (gap ++ ' ' :: '#' :: 'c' :: '\n' :: rest) l₂)
    (hr : Reaches l ts m) (hts : ∀ t ∈ ts, t.kind ≠ .ending) (hp : m.AtPlace gap rest)
    (hrest : rest = []) (hrun : l₁.run = .ok us) :
    (∃ vs, l₂.run = .ok vs ∧ Token.contents vs = Token.contents us) ∧
      us.length = ts.length + 1 := by
  obtain ⟨ts₁, m₁, ts₂, m₂, hr₁, -, hts₁, -, hlength, -, harrived⟩ :=
    reaches_place hm hne h₁ h₂ hr hts hp.rest
  obtain ⟨us', rfl, hrun'⟩ := hr₁.run_eq hts₁ hrun
  obtain ⟨u, hu, rfl⟩ := harrived.run_eq hp hrest hrun'
  refine ⟨(run_commented_iff hm hne h₁ h₂ hr hts hp hrun).2 fun v hv => ?_, ?_⟩
  · rw [← hlength, List.getElem?_append_right (Nat.le_refl _), Nat.sub_self] at hv
    cases hv
    exact Machine.attaches_idle (Or.inr (Or.inr hu))
  · rw [List.length_append, hlength]
    rfl

/-- Where calls have read exactly `a` of a text, and the text can be read with a
line end put in behind it: with a comment put in there, the text says the same
but for comments, exactly if the token behind the place does not hang on the one
before. No keywords may be being declared there. -/
theorem comments_transparent (s : Settings) (a b : String) (ts us : List Token) (l : Lexer)
    (hcsv : s.format ≠ .csv) (htsv : s.format ≠ .tsv) (hr : Reaches (ofText s (a ++ b)) ts l)
    (hpending : l.cursor.pending = none) (hrest : l.cursor.source.rest = b.toList)
    (hv : ∀ vocabulary, l.machine = .n3 vocabulary → vocabulary.isReading = false)
    (hrun : (ofText s (a ++ "\n" ++ b)).run = .ok us) :
    (∃ vs, (ofText s (a ++ " #c\n" ++ b)).run = .ok vs ∧
        Token.contents vs = Token.contents us) ↔
      ∀ t, us[ts.length]? = some t → l.machine.attaches t.kind = false := by
  have hm : (ofText s (a ++ b)).machine.hasComments = true :=
    Machine.hasComments_ofSettings hcsv htsv
  have hne : (ofText s (a ++ b)).cursor.previous ≠ some .ending := nofun
  have hline : "\n".toList = ['\n'] := rfl
  have hcomment : " #c\n".toList = [' ', '#', 'c', '\n'] := rfl
  rcases ends_or_not ts with hts | ⟨init, t, tail, rfl, ht, hinit⟩
  · have hsplit : a.toList = a.toList ++ [] := (List.append_nil _).symm
    have h₁ := abreast_ofText (s := s) (b := b) (Or.inr rfl) hline hsplit
    have h₂ := abreast_ofText (s := s) (b := b) (Or.inl rfl) hcomment hsplit
    have hm' := hr.hasComments.trans hm
    have hblank : ∀ c ∈ l.cursor.pending.toList ++ [], Unicode.isBlank c = true := by
      rw [hpending]
      exact fun c hc => nomatch hc
    cases hp : l.cursor.previous with
    | some kind =>
      have hk : kind ≠ .ending := fun hk => hr.previous_ne hne hts (hp.trans (congrArg some hk))
      exact run_commented_iff hm hne h₁ h₂ hr hts ⟨hm', hv, hrest, hblank, kind, hp, hk⟩ hrun
    | none =>
      obtain ⟨rfl, rfl⟩ := hr.eq_of_previous_none hne hts hp
      obtain ⟨hsame, hhead⟩ := run_commented_start hm' hv h₁ h₂ hp hrest hblank hrun
      refine iff_of_true hsame fun u hu => ?_
      rw [List.length_nil, ← List.head?_eq_getElem?, hhead] at hu
      cases hu
      exact Machine.attaches_idle (Or.inr (Or.inl rfl))
  · -- the comment is put in before the end came
    obtain ⟨mid, hr₀, hplace, hahead⟩ := hr.place_before_end hm hne hinit ht hv
    have hb : b.toList = [] := by
      rw [← hrest]
      exact (List.append_eq_nil_iff.1 hahead).2
    obtain ⟨cs, hcs⟩ := hr₀.rest_suffix hm (Input.Source.isWhole_ofText _) hne hinit
    have hsplit : a.toList = cs ++ mid.cursor.source.rest := by
      rw [hcs]
      show a.toList = (a ++ b).toList
      rw [String.toList_append, hb, List.append_nil]
    have h₁ := abreast_ofText (s := s) (b := b) (Or.inr rfl) hline hsplit
    have h₂ := abreast_ofText (s := s) (b := b) (Or.inl rfl) hcomment hsplit
    rw [← hb] at hplace
    obtain ⟨hsame, hlength⟩ := run_commented_end hm hne h₁ h₂ hr₀ hinit hplace hb hrun
    refine iff_of_true hsame fun u hu => ?_
    have hover : us.length ≤ (init ++ t :: tail).length := by
      simp only [List.length_append, List.length_cons]
      omega
    rw [List.getElem?_eq_none hover] at hu
    cases hu

/-- A comment between a literal and the dot behind it. -/
theorem comments_transparent_before_dot :
    let s : Settings := ⟨.turtle, .sparql11, .recommendation⟩
    let us : List Token := [.beginning, ⟨.literal, "x", ⟨1, 1, 1, 3⟩⟩, ⟨.dot, ".", ⟨2, 2, 1, 1⟩⟩,
      ⟨.ending, "", ⟨2, 2, 2, 2⟩⟩]
    (ofText s ("\"x\"" ++ "\n" ++ ".")).run = .ok us ∧
      ∃ vs, (ofText s ("\"x\"" ++ " #c\n" ++ ".")).run = .ok vs ∧
        Token.contents vs = Token.contents us := by
  intro s us
  let l₁ := (ofText s ("\"x\"" ++ ".")).next.2
  have e₁ : (ofText s ("\"x\"" ++ ".")).next = (.ok .beginning, l₁) :=
    next_of_toOption (by decide)
  have e₂ : l₁.next = (.ok ⟨.literal, "x", ⟨1, 1, 1, 3⟩⟩, l₁.next.2) :=
    next_of_toOption (by decide)
  have hrun : (ofText s ("\"x\"" ++ "\n" ++ ".")).run = .ok us :=
    run_of_toOption (by decide)
  have hnext : ∀ t, us[2]? = some t → l₁.next.2.machine.attaches t.kind = false := by
    rintro t ⟨⟩
    decide
  exact ⟨hrun, (comments_transparent s "\"x\"" "." _ us l₁.next.2 nofun nofun
    ((Reaches.start.next e₁).next e₂) (by decide) (by decide)
    (fun _ h => nomatch h) hrun).2 hnext⟩

/-- Behind a comment there is no language tag. -/
theorem not_transparent_language_tag :
    let s : Settings := ⟨.turtle, .sparql11, .recommendation⟩
    let l := (ofText s ("\"x\"" ++ "@en")).next.2.next.2
    (∃ ts, Reaches (ofText s ("\"x\"" ++ "@en")) ts l) ∧
      l.cursor.pending = none ∧ l.cursor.source.rest = "@en".toList ∧
      (∃ us, (ofText s ("\"x\"" ++ "\n" ++ "@en")).run = .ok us) ∧
      ∀ vs, (ofText s ("\"x\"" ++ " #c\n" ++ "@en")).run ≠ .ok vs := by
  intro s l
  let l₁ := (ofText s ("\"x\"" ++ "@en")).next.2
  have e₁ : (ofText s ("\"x\"" ++ "@en")).next = (.ok .beginning, l₁) :=
    next_of_toOption (by decide)
  have e₂ : l₁.next = (.ok ⟨.literal, "x", ⟨1, 1, 1, 3⟩⟩, l) :=
    next_of_toOption (by decide)
  have hrun : (ofText s ("\"x\"" ++ "\n" ++ "@en")).run.toOption =
      some [.beginning, ⟨.literal, "x", ⟨1, 1, 1, 3⟩⟩, ⟨.languageTag, "en", ⟨2, 2, 1, 3⟩⟩,
        ⟨.ending, "", ⟨2, 2, 4, 4⟩⟩] := by decide
  have hfault : (ofText s ("\"x\"" ++ " #c\n" ++ "@en")).run.toOption = none := by
    decide
  refine ⟨⟨_, (Reaches.start.next e₁).next e₂⟩, by decide, by decide,
    ⟨_, run_of_toOption hrun⟩, fun vs h => ?_⟩
  rw [h] at hfault
  cases hfault

end Lexer

end TripleLex

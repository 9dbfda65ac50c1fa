import TripleLex.Proofs.Progress

/-!
# Nothing is lost

A text without backslashes can be had back from its tokens: it is their
spellings, one after another, with blank characters between them (`Laid`). This
holds of the languages whose lexemes spell their tokens; Notation 3 and the two
table formats are not among them.

Along a run the part of the text that has been read is laid with the tokens so
far (`Laying`); a call adds a gap and a lexeme to it.

## Main results

* `reaches_laying` — the invariant.
* `text_laid` — a text that can be read is laid with its tokens.
-/

namespace TripleLex

open Cursor

/-- How the token may be spelled, if there are no escapes. -/
def Token.spellings (t : Token) : List (List Char) :=
  t.kind.spellings t.text.toList

/-- The text is the spellings of the tokens in their order, with blank
characters around them. -/
inductive Laid : List Token → List Char → Prop
  | blank {w : List Char} (hw : ∀ c ∈ w, Unicode.isBlank c = true) : Laid [] w
  | token {w s rest : List Char} {t : Token} {ts : List Token}
      (hw : ∀ c ∈ w, Unicode.isBlank c = true) (hs : s ∈ t.spellings)
        (h : Laid ts rest) :
      Laid (t :: ts) (w ++ s ++ rest)

namespace Laid

variable {ts : List Token} {cs w s : List Char}

/-- Blank characters may follow. -/
theorem gap (h : Laid ts cs) (hw : ∀ c ∈ w, Unicode.isBlank c = true) :
    Laid ts (cs ++ w) := by
  induction h with
  | blank hv =>
    refine blank fun c hc => ?_
    rcases List.mem_append.1 hc with hc | hc
    · exact hv c hc
    · exact hw c hc
  | token hv hs _ ih =>
    rw [List.append_assoc]
    exact token hv hs ih

/-- Another token may follow, behind blank characters. -/
theorem snoc {t : Token} (h : Laid ts cs)
    (hw : ∀ c ∈ w, Unicode.isBlank c = true) (hs : s ∈ t.spellings) :
    Laid (ts ++ [t]) (cs ++ w ++ s) := by
  induction h with
  | @blank v hv =>
    have hvw : ∀ c ∈ v ++ w, Unicode.isBlank c = true := by
      intro c hc
      rcases List.mem_append.1 hc with hc | hc
      · exact hv c hc
      · exact hw c hc
    have hlaid := token hvw hs (blank (w := []) (by simp))
    rw [List.append_nil] at hlaid
    exact hlaid
  | token hv hs' _ ih =>
    rw [List.append_assoc, List.append_assoc, List.cons_append]
    refine token hv hs' ?_
    rw [← List.append_assoc]
    exact ih

end Laid

theorem isBlank_of_mem_takeWhile {cs : List Char} :
    ∀ c ∈ cs.takeWhile Unicode.isBlank, Unicode.isBlank c = true :=
  List.all_eq_true.1 List.all_takeWhile

namespace Lexer

/-- The token before all text has been made, and the text is what its tokens
have been laid with and what is ahead. -/
structure Laying (text : List Char) (ts : List Token) (l : Lexer) : Prop where
  copies : l.machine.copies = true
  begun : l.cursor.previous ≠ none
  inside : l.cursor.previous ≠ some .ending
  laid : ∃ between cs, ts = .beginning :: between ∧
    text = cs ++ l.cursor.ahead ∧ Laid between cs ∧
    ∀ t ∈ between, t.kind.isMark = false

/-- A call that is not the last one lays one more token. -/
theorem Laying.next {text : List Char} {ts : List Token} {l l' : Lexer}
    {t : Token} (h : Laying text ts l) (hn : '\\' ∉ text)
    (e : l.next = (.ok t, l')) (ht : t.kind ≠ .ending) :
    Laying text (ts ++ [t]) l' := by
  obtain ⟨between, cs, rfl, htext, hlaid, hinner⟩ := h.laid
  obtain ⟨mid, hp, hends | ⟨s, hc⟩⟩ := next_copied h.copies h.begun h.inside e
  · rw [hends.token] at ht
    exact absurd rfl ht
  · have hplain : '\\' ∉ mid.ahead := by
      intro hm
      apply hn
      rw [htext, hp.ahead]
      exact List.mem_append_right _ (List.mem_append_right _ hm)
    obtain ⟨hahead, hs⟩ := hc.copied hplain
    refine ⟨?_, ?_, ?_, between ++ [t],
      cs ++ l.cursor.ahead.takeWhile Unicode.isBlank ++ s, rfl,
      ?_, hlaid.snoc isBlank_of_mem_takeWhile hs, ?_⟩
    · rw [(next_ok e).2, Machine.copies_after, h.copies]
    · rw [hc.previous]
      exact nofun
    · rw [hc.previous]
      exact fun he => ht (Option.some.inj he)
    · rw [List.append_assoc, ← hahead, List.append_assoc, ← hp.ahead]
      exact htext
    · intro u hu
      rcases List.mem_append.1 hu with hu | hu
      · exact hinner u hu
      · rw [List.mem_singleton.1 hu]
        exact hc.inner

/-- Before the token after all text, a run has made nothing or lays its
tokens. -/
theorem reaches_laying {l₀ l : Lexer} {ts : List Token}
    (hm : l₀.machine.copies = true) (hp : l₀.cursor.previous = none)
    (hn : '\\' ∉ l₀.cursor.ahead) (h : Reaches l₀ ts l)
    (hne : ∀ t ∈ ts, t.kind ≠ .ending) :
    (ts = [] ∧ l = l₀) ∨ Laying l₀.cursor.ahead ts l := by
  induction h with
  | start => exact Or.inl ⟨rfl, rfl⟩
  | @next ts l l' t _ e ih =>
    have ht : t.kind ≠ .ending :=
      hne t (List.mem_append_right _ (List.mem_singleton_self t))
    rcases ih fun u hu => hne u (List.mem_append_left _ hu) with ⟨rfl, rfl⟩ | hl
    · rcases next_cases e with ⟨-, rfl, hc⟩ | ⟨he, -⟩ | ⟨hb, -⟩
      · refine Or.inr ⟨?_, ?_, ?_, [], [], rfl, ?_,
          Laid.blank (by simp), by simp⟩
        · rw [(next_ok e).2, Machine.copies_after, hm]
        · rw [hc]
          exact nofun
        · rw [hc]
          exact nofun
        · rw [hc]
          rfl
      · rw [hp] at he
        cases he
      · exact absurd hp hb
    · exact Or.inr (hl.next hn e ht)

/-- A text without backslashes that can be read, in a language other than
Notation 3 and the tables, is the spellings of its tokens with blank characters
around them. -/
theorem text_laid (s : Settings) (text : String) (ts : List Token)
    (hs : s.format ∈ [Format.turtle, .triG, .nTriples, .nQuads, .sparql])
    (hn : '\\' ∉ text.toList) (h : (ofText s text).run = .ok ts) :
    ∃ between last, ts = .beginning :: between ++ [last] ∧ last.kind = .ending ∧
      (∀ t ∈ between, t.kind ≠ .beginning ∧ t.kind ≠ .ending) ∧
      Laid between text.toList := by
  have hm : (ofText s text).machine.copies = true := by
    rcases s with ⟨f, l, d⟩
    cases f <;> simp at hs <;> rfl
  obtain ⟨init, last, l₁, l', rfl, hlast, hinit, hreach, e⟩ := run_ok h
  rcases reaches_laying hm rfl hn hreach hinit with ⟨rfl, rfl⟩ | hl
  · rcases next_cases e with ⟨-, rfl, -⟩ | ⟨he, -⟩ | ⟨hb, -⟩
    · cases hlast
    · cases he
    · exact absurd rfl hb
  · obtain ⟨between, cs, rfl, htext, hlaid, hinner⟩ := hl.laid
    obtain ⟨mid, hp, hends | ⟨cs', hc⟩⟩ :=
      next_copied hl.copies hl.begun hl.inside e
    · refine ⟨between, last, rfl, hlast, ?_, ?_⟩
      · intro t ht
        have hi := hinner t ht
        rw [Kind.isMark, Bool.or_eq_false_iff, beq_eq_false_iff_ne,
          beq_eq_false_iff_ne] at hi
        exact hi
      · have htext : text.toList = cs ++ l₁.cursor.ahead := htext
        rw [htext, hp.ahead, hends.nothing, List.append_nil]
        exact hlaid.gap isBlank_of_mem_takeWhile
    · exact absurd hlast (ne_ending_of_not_isMark hc.inner)

set_option maxRecDepth 4096 in
/-- A fourth sign before the three that close a literal belongs to its text. -/
theorem text_laid_surplus_sign : ∃ ts,
    (ofText ⟨.sparql, .sparql11, .recommendation⟩
      "ASK \"\"\"o\"\"\"\"@en .").run = .ok ts ∧
    ∃ between last, ts = .beginning :: between ++ [last] ∧
      last.kind = .ending ∧
      (∀ t ∈ between, t.kind ≠ .beginning ∧ t.kind ≠ .ending) ∧
      Laid between "ASK \"\"\"o\"\"\"\"@en .".toList :=
  ⟨[.beginning,
      ⟨.keyword .ask, "ASK", ⟨1, 1, 1, 3⟩⟩,
      ⟨.longLiteral, "o\"", ⟨1, 1, 5, 12⟩⟩,
      ⟨.languageTag, "en", ⟨1, 1, 13, 15⟩⟩,
      ⟨.dot, ".", ⟨1, 1, 17, 17⟩⟩,
      ⟨.ending, "", ⟨1, 1, 18, 18⟩⟩],
    by rfl,
    text_laid ⟨.sparql, .sparql11, .recommendation⟩ _ _ (by decide) (by decide)
      (by rfl)⟩

end Lexer

end TripleLex

import TripleLex.Proofs.RespelledFormats

/-!
# Runs and line endings

Whether the lines of a text end in line feeds, in carriage returns or in both, it is
read as the same tokens in the same places; and where no escape can have written a
line end, the texts of the tokens differ as the texts that they are read from do.

A call respells (`Respelled.next`), since what a machine remembers of a token has no
line end in it, and so does every sequence of calls (`Reaches.respelled`).

## Main results

* `Lexer.run_respelled` — whole texts.
-/

namespace TripleLex

/-- The text with every line feed replaced. -/
def LineEnding.inText (e : LineEnding) (text : String) : String :=
  String.ofList (e.respell text.toList)

/-- Tokens of the first text, as the other one has them. -/
structure Token.AllRespelled (x : Respelling) (ts ts' : List Token) : Prop where
  kinds : ts'.map Token.kind = ts.map Token.kind
  spans : ts'.map Token.span = ts.map Token.span
  texts : x.escapes = false → ts'.map Token.text = ts.map fun t => x.ending.inText t.text

theorem Token.AllRespelled.append {x : Respelling} {ts ts' : List Token} {t t' : Token}
    (h : AllRespelled x ts ts') (ht : t.Respelled x t') :
    AllRespelled x (ts ++ [t]) (ts' ++ [t']) where
  kinds := by
    rw [List.map_append, List.map_append, h.kinds, List.map_singleton, List.map_singleton, ht.kind]
  spans := by
    rw [List.map_append, List.map_append, h.spans, List.map_singleton, List.map_singleton, ht.span]
  texts hx := by
    have htext : t'.text = x.ending.inText t.text := by
      rw [LineEnding.inText, ← ht.text hx, String.ofList_toList]
    rw [List.map_append, List.map_append, h.texts hx, List.map_singleton, List.map_singleton, htext]

/-- What is remembered of a token is not about its line ends. -/
theorem Machine.after_respelled {x : Respelling} {t t' : Token} (m : Machine)
    (h : t.Respelled x t') : m.after t' = m.after t := by
  have hvocabulary : ∀ v : Graph.Vocabulary, v.after t' = v.after t := by
    intro v
    unfold Graph.Vocabulary.after
    rw [h.kind]
    split
    · rfl
    · rename_i hk
      rw [h.declared hk]
    · rfl
    · rfl
  have hprogress : ∀ p : Query.Progress, p.after t' = p.after t := by
    intro p
    unfold Query.Progress.after
    rw [h.kind]
  cases m with
  | n3 vocabulary => exact congrArg Machine.n3 (hvocabulary vocabulary)
  | sparql query => simp only [Machine.after, hprogress]
  | _ => rfl

namespace Lexer

variable {x : Respelling} {l l' l₁ : Lexer} {t : Token} {ts : List Token}

/-- Two lexers with the same rules stand at the same place of a text and of the
respelled one. -/
structure Respelled (x : Respelling) (l l' : Lexer) : Prop where
  machine : l'.machine = l.machine
  cursor : l.cursor.Respelled x .copied l'.cursor

theorem Respelled.next (h : l.Respelled x l') (e : l.next = (.ok t, l₁)) :
    ∃ t' l₁', l'.next = (.ok t', l₁') ∧ t.Respelled x t' ∧ l₁.Respelled x l₁' := by
  obtain ⟨e, hm⟩ := next_ok e
  obtain ⟨t', left', e', ht, hleft⟩ := l.machine.respells_next.anywhere h.cursor e
  refine ⟨t', ⟨l'.machine.after t', left'⟩, ?_, ht, ?_, hleft⟩
  · unfold Lexer.next
    rw [h.machine, e']
  · rw [hm, h.machine]
    exact l.machine.after_respelled ht

theorem Reaches.respelled (h₀ : l.Respelled x l') (h : Reaches l ts l₁) :
    ∃ ts' l₁', Reaches l' ts' l₁' ∧ Token.AllRespelled x ts ts' ∧ l₁.Respelled x l₁' := by
  induction h with
  | start => exact ⟨[], l', .start, ⟨rfl, rfl, fun _ => rfl⟩, h₀⟩
  | next _ e ih =>
    obtain ⟨ts', l₁', hreaches, htokens, hl⟩ := ih
    obtain ⟨t', l₂', e', ht, hl'⟩ := hl.next e
    exact ⟨ts' ++ [t'], l₂', hreaches.next e', htokens.append ht, hl'⟩

/-- At the start of both texts. -/
theorem respelled_ofText (s : Settings) (e : LineEnding) (text : String)
    (hr : '\r' ∉ text.toList) :
    (ofText s text).Respelled ⟨e, decide ('\\' ∈ text.toList)⟩ (ofText s (e.inText text)) := by
  have hahead : ∀ text, (ofText s text).cursor.ahead = text.toList := fun _ => rfl
  have hmachine : ∀ a b, (ofText s a).machine = (ofText s b).machine := fun _ _ => rfl
  have habeam : ∀ a b, (ofText s a).cursor.Abeam (ofText s b).cursor := fun _ _ =>
    ⟨rfl, rfl, rfl, rfl, rfl⟩
  refine ⟨hmachine _ _, ?_, ?_, ?_, Script.relates_nil, habeam _ _, ?_, ?_⟩
  · rw [hahead, hahead, LineEnding.inText, String.toList_ofList]
  · rw [hahead]
    exact hr
  · rw [hahead]
    exact of_decide_eq_false
  · exact Input.Source.isWhole_ofText text
  · exact Input.Source.isWhole_ofText _

/-- A text without carriage returns that is read without a fault is read so as well with
its lines ended otherwise. The tokens are of the same kinds and in the same places, and
if the text has no backslash, theirs are ended in the same way. -/
theorem run_respelled (s : Settings) (e : LineEnding) (text : String) (ts : List Token)
    (hr : '\r' ∉ text.toList) (h : (ofText s text).run = .ok ts) :
    ∃ ts', (ofText s (e.inText text)).run = .ok ts' ∧
      ts'.map Token.kind = ts.map Token.kind ∧ ts'.map Token.span = ts.map Token.span ∧
      ('\\' ∉ text.toList → ts'.map Token.text = ts.map fun t => e.inText t.text) := by
  obtain ⟨init, last, l₁, l₂, rfl, hlast, hinit, hreaches, elast⟩ := run_ok h
  obtain ⟨init', l₁', hreaches', htokens, hl⟩ :=
    hreaches.respelled (respelled_ofText s e text hr)
  obtain ⟨last', l₂', elast', ht, -⟩ := hl.next elast
  have hinit' : ∀ t ∈ init', t.kind ≠ .ending := by
    intro t hmem hk
    have hkinds := List.mem_map_of_mem (f := Token.kind) hmem
    rw [htokens.kinds] at hkinds
    obtain ⟨u, hu, hkind⟩ := List.mem_map.1 hkinds
    exact hinit u hu (hkind.trans hk)
  have hall := htokens.append ht
  exact ⟨init' ++ [last'], run_of_reaches hreaches' hinit' elast' (ht.kind.trans hlast),
    hall.kinds, hall.spans, fun hb => hall.texts (decide_eq_false hb)⟩

set_option maxRecDepth 8192 in
/-- A comment, a blank line, a long literal of two lines and a keyword of two words on
two lines. -/
theorem run_respelled_query : ∃ ts,
    (ofText ⟨.sparql, .sparql11, .recommendation⟩
      "#c\n\nselect*\x7b'''a\nb'''\x7dorder\nby?x").run = .ok ts ∧
    ∃ ts', (ofText ⟨.sparql, .sparql11, .recommendation⟩
        (LineEnding.both.inText "#c\n\nselect*\x7b'''a\nb'''\x7dorder\nby?x")).run = .ok ts' ∧
      ts'.map Token.kind = ts.map Token.kind ∧ ts'.map Token.span = ts.map Token.span ∧
      ('\\' ∉ "#c\n\nselect*\x7b'''a\nb'''\x7dorder\nby?x".toList →
        ts'.map Token.text = ts.map fun t => LineEnding.both.inText t.text) :=
  ⟨[.beginning,
      ⟨.comment, "#c", ⟨1, 1, 1, 2⟩⟩,
      ⟨.keyword .select, "select", ⟨3, 3, 1, 6⟩⟩,
      ⟨.allColumns, "*", ⟨3, 3, 7, 7⟩⟩,
      ⟨.leftCurly, "\x7b", ⟨3, 3, 8, 8⟩⟩,
      ⟨.longLiteral, "a\nb", ⟨3, 4, 9, 4⟩⟩,
      ⟨.rightCurly, "\x7d", ⟨4, 4, 5, 5⟩⟩,
      ⟨.keyword .orderBy, "order\nby", ⟨4, 5, 6, 2⟩⟩,
      ⟨.queryVariable, "x", ⟨5, 5, 3, 4⟩⟩,
      ⟨.ending, "", ⟨5, 5, 5, 5⟩⟩],
    by rfl,
    run_respelled ⟨.sparql, .sparql11, .recommendation⟩ .both _ _ (by decide) (by rfl)⟩

end Lexer

end TripleLex

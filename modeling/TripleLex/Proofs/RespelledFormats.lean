import TripleLex.Proofs.RespelledReaders

/-!
# Formats of respelled texts

The readers of every format respell. Where a format asks what comes next, a line end
is a fault, the end of what is read, or taken in one piece; quoted fields, literals of
tables and keywords of two words keep it.

## Main results

* `respells_read` of each format, and of any machine.
* `Sparql.respells_twoWords` — a keyword with a line end between its words.
-/

namespace TripleLex

open Scan

variable {x : Respelling} {w : Script} {b : Bool}

namespace Scan

/-- To name the next character is to look, with a character that stands for the end. -/
theorem nextOrEnd_bind {α : Type} (f : Char → Scan α) :
    (nextOrEnd >>= f) = look >>= fun d => f (d.getD endOfInput) := rfl

/-- A sign with a text of its own. -/
theorem respells_sign {kind : Kind} {text : String}
    (h : text.toList.any Unicode.isLineEnd = false) :
    Respells x w w b (Token.Respelled x) (emitAs kind text) :=
  respells_emitAs fun _ c hc => by simpa using List.any_eq_false.1 h c hc

/-- What is read before a blank is read before any line end. -/
theorem respells_ifBlank {m : Scan Token} {n : Option Char → Scan Token}
    (hm : ∀ b, Respells x .copied .copied b (Token.Respelled x) m)
    (hn : ∀ d, Respells x .copied .copied true (Token.Respelled x) (n d)) :
    Respells x .copied .copied b (Token.Respelled x)
      (look >>= fun d => if d.all Unicode.isBlank then m else n d) := by
  have hm' := hm true
  exact .look inferInstance (fun _ => inferInstance) (Or.inr ⟨rfl, hm false⟩)

end Scan

/-! ## Statements on lines -/

namespace Graph.LineFormat

variable (format : LineFormat)

/-- What follows stands where the check does. -/
theorem respells_checked {m : Scan Token}
    (h : Respells x .copied .copied true (Token.Respelled x) m) :
    Respells x .copied .copied true (Token.Respelled x) (do format.checkGraph; m) := by
  have hcheck : Respells x .copied .copied true Eq format.checkGraph := by
    refine respells_get (fun k k' _ hp => by rw [hp]) fun k _ => ?_
    split <;> infer_instance
  refine hcheck.bind_within (fun hl e => ?_) fun _ => h
  rw [checkGraph_ok e]
  exact hl rfl

/-- Blank characters before a datatype may be line ends, and the look is behind them. -/
instance respells_datatype : Respells x .copied .copied b (Token.Respelled x) datatype := by
  refine .behindBlank (.look_within fun d => ?_)
  cases d <;> infer_instance

/-- No line end is part of a label, and the label is judged as it was gathered. -/
instance respells_blankNode :
    Respells x .copied .copied true (Token.Respelled x) format.blankNode := by
  have hlabel : Respells x .copied .copied false Eq
      (consumeWhile fun c => Name.isInner c || c == '.') :=
    respells_consumeWhile rfl rfl
  refine format.respells_checked (respells_consume.bind fun _ => .nextIs rfl ?_ ?_)
  · refine respells_consume.bind fun _ => hlabel.bind fun _ => respells_giveBackDot.bind fun _ =>
      respells_get (fun k k' hw _ => ?_) fun _ _ => inferInstance
    rw [Cursor.value_congr hw, Cursor.text_congr hw]
  · exact respells_unexpectedNext _

/-- A line end in a literal is a fault in either text, so the literal keeps none. -/
instance respells_literal : Respells x .copied .copied true (Token.Respelled x) literal := by
  refine respells_skip.bind fun _ => .nextIs rfl ?_ ?_
  · exact respells_skip.bind fun _ => .nextIs rfl (respells_violation _) (respells_emit _)
  · exact (respells_shortBody rfl).bind fun _ => respells_emit _

/-- The token that begins with a character, which is no line end. -/
instance respells_dispatch (previous : Option Kind) (c : Char) :
    Respells x .copied .copied true (Token.Respelled x) (format.dispatch previous c) := by
  unfold dispatch
  split
  · infer_instance
  · exact format.respells_checked respells_reference
  all_goals infer_instance

/-- What N-Triples and N-Quads read. -/
theorem respells_read (previous : Option Kind) :
    Respells x .copied .copied b (Token.Respelled x) (format.read previous) := by
  unfold read
  split
  · infer_instance
  · exact .behindBlank inferInstance

end Graph.LineFormat

/-! ## Turtle and TriG -/

namespace Graph.Turtle

variable (t : Turtle)

instance respells_directive : Respells x .copied .copied true (Token.Respelled x) t.directive := by
  unfold directive
  infer_instance

instance respells_tagOrDirective (previous : Option Kind) :
    Respells x .copied .copied true (Token.Respelled x) (t.tagOrDirective previous) := by
  unfold tagOrDirective
  infer_instance

instance respells_hat (previous : Option Kind) (c : Char) :
    Respells x .copied .copied true (Token.Respelled x) (hat previous c) := by
  unfold hat
  infer_instance

instance respells_referenceRest :
    Respells x .copied .copied b (Token.Respelled x) referenceRest := by
  unfold referenceRest
  infer_instance

/-- Behind `<=` any line end is a fault, as all blank characters are. -/
instance respells_referenceOrArrow :
    Respells x .copied .copied true (Token.Respelled x) t.referenceOrArrow := by
  refine respells_skip.bind fun _ => .nextIs rfl ?_ (respells_referenceRest)
  exact respells_consume.bind fun _ =>
    respells_ifBlank (fun _ => respells_violation _) fun _ => inferInstance

instance respells_equals : Respells x .copied .copied true (Token.Respelled x) t.equals := by
  refine respells_consume.bind fun _ => .nextIs rfl ?_ ?_
  · exact respells_consume.bind fun _ => respells_violation _
  · show Respells _ _ _ _ _ (if t.hasGraphs then emit .equals else _)
    infer_instance

instance respells_brace (kind : Kind) (c : Char) :
    Respells x .copied .copied true (Token.Respelled x) (t.brace kind c) := by
  unfold brace
  infer_instance

instance respells_bareWord (word : List Char) :
    Respells x .copied .copied b (Token.Respelled x) (t.bareWord word) := by
  unfold bareWord
  infer_instance

/-- A name, or the token of a bare word. -/
instance respells_name : Respells x .copied .copied b (Token.Respelled x) t.name :=
  respells_nameOr fun _ _ => inferInstance

instance respells_dispatch (previous : Option Kind) (c : Char) :
    Respells x .copied .copied true (Token.Respelled x) (t.dispatch previous c) := by
  unfold dispatch
  split <;> infer_instance

/-- What Turtle and TriG read. -/
theorem respells_read (previous : Option Kind) :
    Respells x .copied .copied b (Token.Respelled x) (t.read previous) := by
  unfold read
  split
  · infer_instance
  · infer_instance
  · exact .behindBlank inferInstance

end Graph.Turtle

/-! ## Notation 3 -/

namespace Graph.Notation3

variable (v : Vocabulary)

/-- A declaration stands on one line: a line end between its words is a fault. -/
instance respells_gapTurn (u : Unit) : Respells x w w b Eq (gapTurn u) :=
  .look inferInstance (fun _ => inferInstance) (Or.inl fun k => fails_unexpectedLineEnd _ k)

/-- What is passed over ends before a character that is no gap, hence before none that ends
a line. -/
instance respells_declaration :
    Respells x .copied .copied b (Token.Respelled x) declaration := by
  have hgap : Respells x .copied .copied b Eq (iterate gapTurn advances_gapTurn ()) :=
    inferInstance
  have hword : Respells x .copied .copied true Eq (consumeWhile Name.isInner) :=
    respells_consumeWhile rfl rfl
  refine hgap.bind_within (fun _ e => ?_) fun _ => ?_
  · refine withinLine_of_run (fun c hc => ?_) (run_ok (fun s _ r _ e => gapTurn_ok s r e) e)
    rw [isGap, Unicode.isBlank_of_isLineEnd hc, Bool.true_or]
  · have hstart : Respells x .copied .copied true Eq startToken := inferInstance
    refine hstart.bind_within (fun hl e => ?_) fun _ => ?_
    · rw [startToken_ok e]
      exact hl rfl
    · rw [nextOrEnd_bind]
      refine .look_within fun d => ?_
      split
      · infer_instance
      · refine hword.bind fun _ => respells_get (fun k k' hw _ => ?_) fun _ _ => inferInstance
        rw [Cursor.isEmpty_congr hw]

instance respells_directive :
    Respells x .copied .copied true (Token.Respelled x) (directive v) := by
  refine respells_directiveWord.bind fun word => ?_
  split <;> infer_instance

/-- Whichever line end follows `<=`, the two are an operator. -/
instance respells_referenceOrArrow :
    Respells x .copied .copied true (Token.Respelled x) referenceOrArrow := by
  refine respells_skip.bind fun _ => .nextIs rfl ?_ ?_
  · exact respells_consume.bind fun _ =>
      respells_ifBlank (fun _ => respells_sign rfl) fun _ => respells_violation _
  · exact respells_referenceBody.bind fun _ => respells_emit _

instance respells_equals : Respells x .copied .copied true (Token.Respelled x) equals := by
  refine respells_consume.bind fun _ => .nextIs rfl ?_ (respells_emit _)
  exact respells_consume.bind fun _ => respells_emit _

instance respells_hat (previous : Option Kind) :
    Respells x .copied .copied true (Token.Respelled x) (hat previous) := by
  unfold hat
  split
  · infer_instance
  · exact respells_consume.bind fun _ => .nextIs rfl (respells_violation _) (respells_emit _)

instance respells_variableName :
    Respells x .copied .copied true (Token.Respelled x) variableName := by
  unfold variableName
  infer_instance

/-- A word that was not declared becomes the text of a name, for which it must be on one
line. -/
theorem respells_bareWord {word : List Char} (h : x.escapes = false → Inline word) :
    Respells x .copied .copied b (Token.Respelled x) (bareWord v word) := by
  unfold bareWord
  split
  · infer_instance
  · split
    · split
      · infer_instance
      · refine respells_emitAs fun hx => ?_
        rw [String.toList_ofList]
        exact (h hx).cons rfl
    · infer_instance

instance respells_name : Respells x .copied .copied b (Token.Respelled x) (name v) :=
  respells_nameOr fun _ hword => respells_bareWord v hword

instance respells_dispatch (previous : Option Kind) (c : Char) :
    Respells x .copied .copied true (Token.Respelled x) (dispatch v previous c) := by
  unfold dispatch
  split <;> infer_instance

/-- What Notation 3 reads, in a declaration and elsewhere. -/
theorem respells_read (previous : Option Kind) :
    Respells x .copied .copied b (Token.Respelled x) (read v previous) := by
  unfold read
  split
  · infer_instance
  · split
    · infer_instance
    · infer_instance
    · exact .behindBlank inferInstance

end Graph.Notation3

/-! ## Queries -/

namespace Query.Sparql

variable (q : Sparql)

instance respells_checkLevel (k : Keyword) : Respells x w w b Eq (q.checkLevel k) := by
  unfold checkLevel
  infer_instance

/-- The scope of a keyword is judged by what is remembered, not by the text. -/
instance respells_checkScope (k : Keyword) : Respells x w w b Eq (q.checkScope k) := by
  unfold checkScope
  split <;> infer_instance

instance respells_keyword (k : Keyword) :
    Respells x .copied .copied b (Token.Respelled x) (q.keyword k) := by
  unfold keyword
  infer_instance

instance respells_base : Respells x .copied .copied b (Token.Respelled x) q.base := by
  unfold base
  infer_instance

/-- Letters are gathered up to anything else, be it a line end; the word is the same in both
texts. -/
instance respells_prologueWord (word : List Char) :
    Respells x .copied .copied b (Token.Respelled x) (q.prologueWord word) := by
  unfold prologueWord
  split
  · infer_instance
  · split
    · infer_instance
    · split <;> infer_instance

instance respells_prologue (previous : Option Kind) (c : Char) :
    Respells x .copied .copied true (Token.Respelled x) (q.prologue previous c) := by
  unfold prologue
  split
  · infer_instance
  · split
    · infer_instance
    · refine respells_letters.bind fun _ => respells_get (fun k k' hw _ => ?_)
        fun _ _ => inferInstance
      rw [Cursor.isEmpty_congr hw, Cursor.value_congr hw]

/-! ### Keywords of two words -/

/-- A line end between two words is kept in the text of the keyword, as one piece. -/
instance respells_spaceTurn (seen : Bool) :
    Respells x .respelled .respelled b Eq (spaceTurn seen) := by
  refine .look inferInstance (fun _ => inferInstance) (Or.inr ⟨rfl, ?_⟩)
  exact respells_bind (consumeLineEnd true false) fun _ => pure (Turn.again true)

/-- Behind line ends that were kept, the text of a keyword is respelled. -/
theorem respells_spacedKeyword (k : Keyword) :
    Respells x .respelled .copied b (Token.Respelled x) (q.keyword k) :=
  (q.respells_checkLevel k).bind fun _ => (q.respells_checkScope k).bind fun _ =>
    respells_emit_respelled nofun

/-- The second word is the same, whatever line ends are kept before it. -/
theorem respells_twoWords (seconds : List (String × Keyword)) :
    Respells x .copied .copied b (Token.Respelled x) (q.twoWords seconds) where
  respelled {k k' left t} hk _ e := by
    have hspaces : Respells x .copied .respelled false Eq
        (iterate spaceTurn advances_spaceTurn false) :=
      Respells.rewritten inferInstance
    have hletters : Respells x .respelled .respelled false Eq
        (consumeWhile Unicode.isAlphabetic) :=
      inferInstance
    have e := get_bind_ok e
    obtain ⟨spaced, k₁, e₁, e⟩ := bind_ok e
    obtain ⟨_, k₁', e₁', rfl, hk₁⟩ := hspaces.anywhere hk e₁
    have e := get_bind_ok e
    obtain ⟨_, k₂, e₂, e⟩ := bind_ok e
    obtain ⟨_, k₂', e₂', rfl, hk₂⟩ := hletters.anywhere hk₁ e₂
    have e := get_bind_ok e
    -- The letters behind the gap are the same, so both texts complete the same keyword.
    have hsecond : k₂'.value.drop k₁'.value.length = k₂.value.drop k₁.value.length := by
      have hinline := fun c (h : Unicode.isAlphabetic c = true) => not_isLineEnd_of_isAlphabetic h
      rw [(consumeWhile_ok hinline e₂).value_append, (consumeWhile_ok hinline e₂').value_append,
        List.drop_left, List.drop_left, hk₁.ahead]
      exact x.ending.takeWhile_respell (Unicode.isAlphabetic_ascii (by decide))
        (Unicode.isAlphabetic_ascii (by decide)) _
    unfold twoWords
    rw [get_bind, bind_eq e₁', get_bind, bind_eq e₂', get_bind]
    simp only [hsecond]
    cases hfind : seconds.find? fun entry =>
        isText (k₂.value.drop k₁.value.length) entry.1 with
    | none =>
      rw [hfind] at e
      cases e
    | some entry =>
      rw [hfind] at e
      cases spaced with
      | false => cases e
      | true => exact (q.respells_spacedKeyword entry.2).anywhere hk₂ e

/-- A bare word, alone or with the second one that it asks for. -/
instance respells_bareWord (word : List Char) :
    Respells x .copied .copied b (Token.Respelled x) (q.bareWord word) := by
  have htwo := fun seconds => q.respells_twoWords (x := x) (b := b) seconds
  unfold bareWord
  repeat' split
  all_goals infer_instance

instance respells_name : Respells x .copied .copied b (Token.Respelled x) q.name :=
  respells_nameOr fun _ _ => inferInstance

instance respells_assignmentOrName :
    Respells x .copied .copied true (Token.Respelled x) q.assignmentOrName := by
  refine respells_consume.bind fun _ => .nextIs rfl ?_ q.respells_name
  exact respells_consume.bind fun _ => respells_emit _

/-! ### Numbers and signs -/

/-- A number ends before any line end. -/
instance respells_numericTurn (s : Gathered) :
    Respells x .copied .copied b Eq (numericTurn s) := by
  refine .look inferInstance (fun c => ?_) (Or.inr ⟨rfl, respells_pure (Turn.done ())⟩)
  dsimp only
  split
  · infer_instance
  · split
    · infer_instance
    · split
      · refine respells_get (fun k k' hw _ => ?_) fun _ _ => inferInstance
        rw [Cursor.admitsSign_congr hw]
      · infer_instance

/-- The number is judged as it was gathered, before and behind its dot. -/
instance respells_numericToken :
    Respells x .copied .copied b (Token.Respelled x) q.numericToken := by
  have hjudged : ∀ b, Respells x .copied .copied b (Token.Respelled x) (do
      let k ← get
      if Number.isNumber q.level.allowsFinalDot k.value then
        emit .plainLiteral
      else
        invalidForm "Numeric Literal" k.text) := by
    refine fun b => respells_get (fun k k' hw _ => ?_) fun _ _ => inferInstance
    rw [Cursor.value_congr hw, Cursor.text_congr hw]
  unfold numericToken
  split
  · exact hjudged b
  · exact respells_giveBackDot.bind fun _ => hjudged false

instance respells_numberOrSign :
    Respells x .copied .copied b (Token.Respelled x) q.numberOrSign := by
  refine respells_get (fun k k' hw _ => by rw [Cursor.value_congr hw]) fun _ _ =>
    Respells.bind inferInstance fun _ =>
      respells_get (fun k k' hw _ => by rw [Cursor.value_congr hw]) fun _ _ => inferInstance

theorem respells_oneOrTwo {second : Char} {double one : Kind}
    (hc : Unicode.isLineEnd second = false) :
    Respells x .copied .copied true (Token.Respelled x) (oneOrTwo second double one) := by
  refine respells_consume.bind fun _ => .nextIs hc ?_ (respells_emit _)
  exact respells_consume.bind fun _ => respells_emit _

/-- Whichever line end follows `<` or `<=`, it makes an operator of them. -/
instance respells_referenceOrLess :
    Respells x .copied .copied true (Token.Respelled x) referenceOrLess := by
  refine respells_skip.bind fun _ => respells_ifBlank (fun _ => respells_sign rfl) fun d => ?_
  split
  · exact respells_skip.bind fun _ =>
      respells_ifBlank (fun _ => respells_sign rfl) fun _ => respells_violation _
  · infer_instance

instance respells_hat (previous : Option Kind) :
    Respells x .copied .copied true (Token.Respelled x) (hat previous) := by
  refine respells_consume.bind fun _ => .nextIs rfl ?_ (respells_emit _)
  show Respells _ _ _ _ _ (if previous.any Kind.isQuoted then _ else _)
  infer_instance

instance respells_variableName (sign : Char) :
    Respells x .copied .copied true (Token.Respelled x) (variableName sign) := by
  have hquestion : Respells x .copied .copied false (Token.Respelled x) (emitAs .question "?") :=
    respells_sign rfl
  refine respells_gatherVariable.bind fun _ => respells_get (fun k k' hw _ => ?_)
    fun _ _ => inferInstance
  rw [Cursor.isEmpty_congr hw]

instance respells_ampersand : Respells x .copied .copied true (Token.Respelled x) ampersand := by
  refine respells_consume.bind fun _ => .nextIs rfl ?_ (respells_unexpectedNext _)
  exact respells_consume.bind fun _ => respells_emit _

/-! ### Body -/

/-- The token that begins with a character of the body, which is no line end. -/
instance respells_body (previous : Option Kind) (c : Char) :
    Respells x .copied .copied true (Token.Respelled x) (q.body previous c) := by
  unfold body
  split
  all_goals first | infer_instance | exact respells_oneOrTwo rfl

/-- What is read of queries, in the prologue and in the body. -/
theorem respells_read (previous : Option Kind) :
    Respells x .copied .copied b (Token.Respelled x) (q.read previous) := by
  unfold read
  split
  · infer_instance
  · infer_instance
  · exact .behindBlank inferInstance

end Query.Sparql

/-! ## Tables -/

namespace Table

namespace Csv

/-- A bare field ends before any line end. -/
instance respells_bareTurn (u : Unit) : Respells x w w b Eq (bareTurn u) :=
  .look inferInstance (fun _ => inferInstance) (Or.inr ⟨rfl, respells_pure (Turn.done ())⟩)

instance respells_bareField : Respells x .copied .copied b (Token.Respelled x) bareField := by
  unfold bareField
  infer_instance

instance respells_markTurn : Respells x w w true Eq markTurn := by
  refine respells_skip.bind fun _ => .nextIs rfl ?_ (respells_pure _)
  exact respells_consume.bind fun _ => respells_pure _

/-- Between quotation marks a line end is kept, as one piece. -/
instance respells_quotedTurn (u : Unit) : Respells x .respelled .respelled b Eq (quotedTurn u) := by
  refine .look inferInstance (fun _ => inferInstance) (Or.inr ⟨rfl, ?_⟩)
  exact respells_bind (consumeLineEnd true false) fun _ => pure (Turn.again ())

/-- The text of the field is respelled. A line end behind its closing mark ends it, and so
does the end of the input. -/
instance respells_quotedField :
    Respells x .copied .copied true (Token.Respelled x) quotedField := by
  have hliteral : ∀ b, Respells x .respelled .copied b (Token.Respelled x) (emit .literal) :=
    fun _ => respells_emit_respelled nofun
  have hfield : Respells x .respelled .respelled false Eq
      (iterate quotedTurn advances_quotedTurn ()) :=
    inferInstance
  refine respells_skip.bind fun _ => Respells.rewritten (hfield.bind fun _ => ?_)
  exact .look (hliteral true) (fun _ => inferInstance) (Or.inr ⟨rfl, hliteral false⟩)

/-- A line end of either spelling ends one record. -/
instance respells_recordEnd : Respells x .copied .copied b (Token.Respelled x) recordEnd := by
  unfold recordEnd
  infer_instance

instance respells_dispatch (c : Char) :
    Respells x .copied .copied true (Token.Respelled x) (dispatch c) := by
  unfold dispatch
  infer_instance

/-- What is read of fields between commas, where line ends are tokens. -/
theorem respells_read : Respells x .copied .copied b (Token.Respelled x) read :=
  .look inferInstance (fun c => respells_dispatch c) (Or.inr ⟨rfl, respells_recordEnd⟩)

end Csv

namespace Tsv

instance respells_discardSpaces : Respells x w w b Eq discardSpaces :=
  (respells_skipWhile rfl rfl).bind fun _ => respells_startToken

/-- Between quotation marks a line end is kept, as one piece. -/
instance respells_literalTurn (u : Unit) :
    Respells x .respelled .respelled b Eq (literalTurn u) := by
  refine .look inferInstance (fun _ => inferInstance) (Or.inr ⟨rfl, ?_⟩)
  exact respells_bind (consumeLineEnd true false) fun _ => pure (Turn.again ())

/-- The text of a literal is respelled. -/
instance respells_literal : Respells x .copied .copied true (Token.Respelled x) literal := by
  have hbody : Respells x .respelled .respelled false Eq
      (iterate literalTurn advances_literalTurn ()) :=
    inferInstance
  exact respells_skip.bind fun _ =>
    Respells.rewritten (hbody.bind fun _ => respells_emit_respelled nofun)

instance respells_variableName :
    Respells x .copied .copied true (Token.Respelled x) variableName := by
  unfold variableName
  infer_instance

/-- A bare word of a table is a truth value. -/
instance respells_name : Respells x .copied .copied b (Token.Respelled x) name := by
  refine (respells_gatherName _ _).bind fun _ => (respells_nameToken? _).bind_given fun o ho => ?_
  split
  · exact respells_return (Token.respelled_self (ho _ rfl))
  · refine respells_get (fun k k' hw _ => ?_) fun _ _ => inferInstance
    rw [Cursor.value_congr hw, Cursor.text_congr hw]

instance respells_dispatch (previous : Option Kind) (c : Char) :
    Respells x .copied .copied true (Token.Respelled x) (dispatch previous c) := by
  unfold dispatch
  split <;> infer_instance

/-- A line end ends the record, whatever stands before it. -/
theorem dispatch_lineEnd (previous : Option Kind) {c : Char} (hc : Unicode.isLineEnd c = true) :
    dispatch previous c = Csv.recordEnd := by
  unfold dispatch
  split
  all_goals first | cases hc | exact if_pos hc

/-- What is read of terms between tabs, where line ends are tokens. -/
theorem respells_read (previous : Option Kind) :
    Respells x .copied .copied b (Token.Respelled x) (read previous) := by
  unfold read
  split
  · infer_instance
  · refine respells_discardSpaces.bind fun _ =>
      .look inferInstance (fun c => respells_dispatch previous c) (Or.inr ⟨?_, ?_⟩)
    · exact (dispatch_lineEnd previous rfl).trans (dispatch_lineEnd previous rfl).symm
    · show Respells _ _ _ _ _ (dispatch previous '\n')
      rw [dispatch_lineEnd previous rfl]
      infer_instance

end Tsv

end Table

/-- Whatever the rules, what they read is respelled with the text. -/
theorem Machine.respells_read (m : Machine) (previous : Option Kind) :
    Respells x .copied .copied b (Token.Respelled x) (m.read previous) := by
  cases m with
  | lines format => exact format.respells_read previous
  | turtle rules => exact rules.respells_read previous
  | n3 vocabulary => exact Graph.Notation3.respells_read vocabulary previous
  | sparql query => exact query.respells_read previous
  | csv => exact Table.Csv.respells_read
  | tsv => exact Table.Tsv.respells_read previous

/-- One token of any machine, from wherever it stands. -/
theorem Machine.respells_next (m : Machine) :
    Respells x .copied .copied false (Token.Respelled x) m.next :=
  respells_step fun previous => m.respells_read previous

end TripleLex

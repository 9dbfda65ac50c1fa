import TripleLex.Proofs.Respelling
import TripleLex.Proofs.WholeNames

/-!
# Readers of respelled texts

The readers that formats share respell. Most of them are put together from single
steps and from looks before which the scan goes on in the same way whichever line end
comes next; line ends are kept in long literals alone.

## Main results

* `respells_literal`, `respells_nameToken?`, `respells_datatype` — shared readers.
* `respells_step` — what stands around a reader.
-/

namespace TripleLex.Scan

variable {x : Respelling} {w w' : Script} {b : Bool} {α : Type} {R : α → α → Prop}

/-! ## Marks -/

section Marks

instance respells_emitEnding :
    Respells x .copied .copied b (Token.Respelled x) emitEnding :=
  respells_startToken.bind fun _ => respells_emitAs fun _ => inline_nil

instance respells_ending (expected : String) :
    Respells x .copied .copied b (Token.Respelled x) (ending expected) := by
  refine respells_get (fun k k' hw _ => ?_) fun k _ => ?_
  · rw [Cursor.isEmpty_congr hw]
  · infer_instance

/-- The token, if there is one, has its text on one line. -/
def OnOneLine (x : Respelling) (o : Option Token) : Prop :=
  ∀ t, o = some t → x.escapes = false → Inline t.text.toList

theorem onOneLine_none : OnOneLine x none := by
  intro t ht
  cases ht

theorem respells_some {m : Scan Token} (h : Respells x w w' b (Token.Unchanged x) m) :
    Respells x w w' b (fun o o' => o' = o ∧ OnOneLine x o) (do return some (← m)) := by
  refine h.bind_given fun t ht => respells_return ⟨rfl, ?_⟩
  rintro _ ⟨⟩
  exact ht

/-- The marks around all text have no line end in them. -/
theorem respells_mark? :
    Respells x .copied .copied b (fun o o' => o' = o ∧ OnOneLine x o) mark? := by
  refine respells_get (fun k k' _ hp => by rw [hp]) fun k _ => ?_
  split
  · refine (respells_setPrevious _).bind fun _ => respells_return ⟨rfl, ?_⟩
    rintro _ ⟨⟩ _
    exact inline_nil
  · refine respells_some ?_
    exact respells_startToken.bind fun _ => unchanged_emitAs fun _ => inline_nil
  · exact respells_startToken.bind fun _ => respells_return ⟨rfl, onOneLine_none⟩

/-- A reader respells with the marks that stand around what it reads. -/
theorem respells_step {read : Option Kind → Scan Token}
    (h : ∀ previous, Respells x .copied .copied false (Token.Respelled x) (read previous)) :
    Respells x .copied .copied b (Token.Respelled x) (step read) := by
  refine respells_mark?.bind_given fun o ho => ?_
  split
  · exact respells_return (Token.respelled_self (ho _ rfl))
  · exact respells_get (fun k k' _ hp => by rw [hp]) fun k _ => h k.previous

/-- The token that begins with the next character, where no line end comes next. -/
instance respells_tokenHere (dispatch : Char → Scan Token)
    [h : ∀ c, Respells x .copied .copied true (Token.Respelled x) (dispatch c)] :
    Respells x .copied .copied true (Token.Respelled x) (tokenHere dispatch) := by
  refine .look_within fun d => ?_
  cases d with
  | none => exact respells_ending _
  | some c => exact h c

instance respells_single (kind : Kind) :
    Respells x .copied .copied true (Token.Respelled x) (single kind) := by
  unfold single
  infer_instance

instance respells_comment : Respells x .copied .copied b (Token.Respelled x) comment :=
  (respells_consumeWhile rfl rfl).bind fun _ => respells_emit _

end Marks

/-! ## Escapes -/

section Escapes

/-- A line end is no digit, so the digits end before it. -/
instance respells_readHexDigits (n : Nat) : Respells x w w b Eq (readHexDigits n) := by
  induction n generalizing b with
  | zero => exact respells_pure _
  | succ n ih =>
    refine .look inferInstance (fun c => ?_) (Or.inr ⟨rfl, respells_pure _⟩)
    infer_instance

/-- What is decoded may be anything, where there are escapes. -/
theorem respells_pushDecoded (hx : x.escapes = true) (c : Char) : Respells x w w b Eq (push c) :=
  respells_push fun hn => by rw [hx] at hn; cases hn

theorem respells_appendDecoded (hx : x.escapes = true) (cs : List Char) :
    Respells x w w b Eq (append cs) :=
  respells_append fun hn => by rw [hx] at hn; cases hn

theorem respells_pushIf {keep : Bool} {c : Char}
    (h : x.escapes = false → Unicode.isLineEnd c = false) :
    Respells x w w b Eq (pushIf keep c) := by
  unfold pushIf
  split
  · exact respells_push h
  · exact respells_pure _

theorem respells_pushCodePoint (hx : x.escapes = true) (digits : List Char) :
    Respells x w w b Eq (pushCodePoint digits) := by
  unfold pushCodePoint
  split
  · split
    · exact respells_pushDecoded hx _
    · infer_instance
  · exact respells_pure _

/-- What an escape stands for is the same in both texts, also where it is a line end. -/
theorem respells_decodeAfterBackslash (hx : x.escapes = true) (context : EscapeContext)
    (next : Char) : Respells x w w true Eq (decodeAfterBackslash context next) := by
  unfold decodeAfterBackslash
  split
  · refine respells_consume.bind fun _ => .look (respells_pure _) (fun c => ?_) (Or.inr ⟨rfl, ?_⟩)
    · exact respells_pushIf fun _ => rfl
    · exact respells_pure _
  · infer_instance
  · exact respells_skip.bind fun _ => respells_pushDecoded hx _
  · refine respells_skip.bind fun _ => (respells_readHexDigits _).bind fun digits => ?_
    split
    · infer_instance
    · refine Respells.bind ?_ fun _ => respells_pushCodePoint hx _
      unfold appendIf
      split
      · exact respells_appendDecoded hx _
      · exact respells_pure _
  · exact respells_pushDecoded hx _
  · infer_instance

/-- A backslash that is read comes from the text. -/
theorem escapes_of_skip {k k' left : Cursor} {c : Char} (hk : k.Respelled x w k')
    (e : skip k = .ok c left) : c = '\\' → x.escapes = true := by
  rintro rfl
  cases h : k.ahead with
  | nil => exact absurd e (skip_nil h)
  | cons d cs =>
    rw [skip_cons h] at e
    cases e
    cases hx : x.escapes with
    | true => rfl
    | false => exact absurd (by rw [h]; exact List.mem_cons_self) (hk.backslashes hx)

/-- A backslash before a line end is kept or is a fault, as the context has it. -/
instance respells_decodeEscape (context : EscapeContext) :
    Respells x w w true Eq (decodeEscape context) := by
  refine respells_skip.bind_value (fun hk _ e => escapes_of_skip hk e) fun opening hx => ?_
  split
  · infer_instance
  · rename_i hopening
    have hx : x.escapes = true := hx (by simpa using hopening)
    refine .look inferInstance (fun next => respells_decodeAfterBackslash hx context next) ?_
    cases context with
    | name => exact Or.inl fun k => fails_malformedEscape _ k
    | _ => exact Or.inr ⟨rfl, respells_pushDecoded hx _⟩

/-- A line end is no character that an escape in a name may stand before. -/
instance respells_readLocalEscape : Respells x w w true Eq readLocalEscape := by
  refine respells_skip.bind_value (fun hk _ e => escapes_of_skip hk e) fun opening hx => ?_
  split
  · refine .look inferInstance (fun next => ?_) (Or.inl fun k => fails_malformedEscape _ k)
    dsimp only
    split
    · refine (respells_pushDecoded (hx rfl) _).bind_within (fun hl e => ?_) fun _ => ?_
      · cases e
        exact hl rfl
      · infer_instance
    · split <;> infer_instance
  · refine (respells_readHexDigits 2).bind_value (fun _ _ e => (readHexDigits_ok e).2)
      fun digits hdigits => ?_
    split
    · infer_instance
    · exact (respells_push fun _ => rfl).bind fun _ => respells_append fun _ => hdigits
  · infer_instance

end Escapes

/-! ## References and literals -/

section Quoted

/-- A reference holds no line end. -/
instance respells_referenceTurn (u : Unit) : Respells x w w b Eq (referenceTurn u) :=
  .look inferInstance (fun _ => inferInstance) (Or.inl fun k => fails_unexpectedLineEnd _ k)

instance respells_referenceBody : Respells x w w b Eq referenceBody := by
  unfold referenceBody
  infer_instance

instance respells_reference :
    Respells x .copied .copied true (Token.Respelled x) reference := by
  unfold reference
  infer_instance

instance respells_referenceDatatype :
    Respells x .copied .copied true (Token.Respelled x) referenceDatatype := by
  refine respells_skip.bind fun _ => respells_referenceBody.bind fun _ =>
    respells_get (fun k k' hw _ => by rw [Cursor.text_congr hw]) fun k hk =>
      respells_emitAs fun hx => ?_
  rw [String.toList_append, String.toList_append, Cursor.toList_text]
  have hvalue : Inline k.value := fun c hc => hk hx c (List.mem_reverse.1 hc)
  exact ((inline_singleton rfl).append hvalue).append (inline_singleton rfl)

variable {sign : Char} {surplus : Surplus}

theorem lineFeed_ne (hs : Unicode.isLineEnd sign = false) : ('\n' == sign) = false := by
  rw [beq_eq_false_iff_ne]
  rintro rfl
  cases hs

theorem return_ne (hs : Unicode.isLineEnd sign = false) : ('\r' == sign) = false := by
  rw [beq_eq_false_iff_ne]
  rintro rfl
  cases hs

/-- A short literal holds no line end. -/
theorem respells_shortBody (hs : Unicode.isLineEnd sign = false) :
    Respells x w w b Eq (shortBody sign) := by
  have hturn : ∀ u, Respells x w w false Eq (shortTurn sign u) := by
    refine fun u => .look inferInstance (fun _ => inferInstance) (Or.inl fun k => ?_)
    simp only [lineFeed_ne hs]
    exact fails_unexpectedLineEnd _ k
  exact respells_iterate _ _ _

theorem respells_surplusSigns (hs : Unicode.isLineEnd sign = false) :
    Respells x w w b Eq (surplusSigns sign surplus) := by
  cases surplus with
  | refused => exact .nextIs hs (respells_violation _) (respells_pure _)
  | kept => exact respells_consumeWhile (lineFeed_ne hs) (return_ne hs)

/-- Signs that close nothing are kept, and none of them ends a line. -/
theorem respells_longSigns (hs : Unicode.isLineEnd sign = false) :
    Respells x w w true Eq (longSigns sign surplus) := by
  refine respells_skip.bind fun _ => .nextIs hs ?_ ?_
  · refine respells_skip.bind fun _ => .nextIs hs ?_ ?_
    · exact respells_skip.bind fun _ => (respells_surplusSigns hs).bind fun _ => respells_pure _
    · exact (respells_append fun _ => (inline_singleton hs).cons hs).bind fun _ => respells_pure _
  · exact (respells_push fun _ => hs).bind fun _ => respells_pure _

/-- The line ends of a long literal are respelled with the text. -/
theorem respells_longBody (hs : Unicode.isLineEnd sign = false) :
    Respells x .respelled .respelled b Eq (longBody sign surplus) := by
  have hsigns : Respells x .respelled .respelled true Eq (longSigns sign surplus) :=
    respells_longSigns hs
  have hturn : ∀ u, Respells x .respelled .respelled false Eq (longTurn sign surplus u) := by
    refine fun u => .look inferInstance (fun _ => inferInstance) (Or.inr ⟨?_, ?_⟩)
    · simp only [lineFeed_ne hs, return_ne hs]
      rfl
    · simp only [lineFeed_ne hs]
      exact respells_keepLineEnd.bind fun _ => respells_pure _
  exact respells_iterate _ _ _

/-- Only the long form of a literal keeps line ends. -/
instance respells_literal (surplus : Surplus) :
    Respells x .copied .copied true (Token.Respelled x) (literal surplus) := by
  refine respells_skip.bind_value (fun _ hl e => skip_withinLine (hl rfl) e) fun sign hs =>
    .nextIs hs ?_ ?_
  · refine respells_skip.bind fun _ => .nextIs hs ?_ (respells_emit _)
    refine respells_skip.bind fun _ => Respells.rewritten ?_
    exact (respells_longBody hs).bind fun _ => respells_emit_respelled nofun
  · exact (respells_shortBody hs).bind fun _ => respells_emit _

end Quoted

/-! ## Names -/

section Names

/-- A name ends before any line end. -/
instance respells_nameTurn (rule : Name.Rule) (allowDot seenColon : Bool) :
    Respells x w w b Eq (nameTurn rule allowDot seenColon) := by
  have hn : Name.isScanned '\n' = false := Name.isScanned_ascii (by decide)
  have hr : Name.isScanned '\r' = false := Name.isScanned_ascii (by decide)
  refine .look inferInstance (fun _ => inferInstance) (Or.inr ⟨?_, ?_⟩)
  · simp only [hn, hr]
    rfl
  · simp only [hn]
    exact respells_pure _

instance respells_gatherName (rule : Name.Rule) (allowDot : Bool) :
    Respells x .copied .copied b Eq (gatherName rule allowDot) := by
  refine Respells.bind inferInstance fun _ => respells_giveBack fun ws h => ?_
  unfold endsInBareDot at h
  split at h
  · cases h
  · rfl
  · cases h

theorem inline_nameText {rule : Name.Rule} {word : List Char} (h : Inline word) :
    Inline (nameText rule word).toList := by
  cases rule with
  | recommendation =>
    rw [nameText, String.toList_ofList]
    exact fun c hc => h c (Name.mem_of_mem_unescape hc)
  | submission =>
    rw [nameText, String.toList_ofList]
    exact h

/-- A gathered name is on one line, and what it is does not hang on the source. -/
theorem respells_nameToken? (rule : Name.Rule) :
    Respells x .copied .copied b (fun o o' => o' = o ∧ OnOneLine x o) (nameToken? rule) := by
  refine respells_get (fun k k' hw _ => ?_) fun k hk => ?_
  · rw [Cursor.value_congr hw, Cursor.text_congr hw]
  · have hvalue : x.escapes = false → Inline k.value := fun hx c hc =>
      hk hx c (List.mem_reverse.1 hc)
    dsimp only
    split
    · exact respells_return ⟨rfl, onOneLine_none⟩
    · split
      · exact respells_some (unchanged_emit _)
      · split
        · split
          · exact respells_some (unchanged_emit _)
          · infer_instance
        · split
          · exact respells_some (unchanged_emitAs fun hx => inline_nameText (hvalue hx))
          · infer_instance

/-- A name, or what becomes of a bare word. -/
theorem respells_nameOr {rule : Name.Rule} {allowDot : Bool} {bareWord : List Char → Scan Token}
    (h : ∀ word, (x.escapes = false → Inline word) →
      Respells x .copied .copied false (Token.Respelled x) (bareWord word)) :
    Respells x .copied .copied b (Token.Respelled x) (do
      gatherName rule allowDot
      match ← nameToken? rule with
      | some token => return token
      | none => bareWord (← get).value) := by
  refine (respells_gatherName rule allowDot).bind fun _ =>
    (respells_nameToken? rule).bind_given fun o ho => ?_
  split
  · exact respells_return (Token.respelled_self (ho _ rfl))
  · refine respells_get (fun k k' hw _ => by rw [Cursor.value_congr hw]) fun k hk => ?_
    exact h k.value fun hx c hc => hk hx c (List.mem_reverse.1 hc)

instance respells_prefixTurn (u : Unit) : Respells x w w b Eq (prefixTurn u) :=
  .look inferInstance (fun _ => inferInstance) (Or.inr ⟨rfl, respells_pure (Turn.done ())⟩)

instance respells_prefixName :
    Respells x .copied .copied b (Token.Respelled x) prefixName := by
  refine respells_discardBlank.bind fun _ => Respells.bind inferInstance fun _ =>
    respells_get (fun k k' hw _ => ?_) fun k _ => ?_
  · rw [Cursor.endsWith_congr hw, Cursor.value_congr hw, Cursor.text_congr hw]
  · split <;> infer_instance

instance respells_directiveWord : Respells x .copied .copied true Eq directiveWord := by
  refine respells_consume.bind fun _ => respells_letters.bind fun _ =>
    respells_get (fun k k' hw _ => ?_) fun k _ => ?_
  · rw [Cursor.value_congr hw]
  · split <;> infer_instance

instance respells_gatherVariable : Respells x w w true Eq gatherVariable :=
  respells_skip.bind fun _ => respells_consumeWhile rfl rfl

instance respells_variableToken (sign : Char) :
    Respells x .copied .copied b (Token.Respelled x) (variableToken sign) := by
  refine respells_get (fun k k' hw _ => ?_) fun k _ => ?_
  · rw [Cursor.value_congr hw]
  · infer_instance

end Names

/-! ## Numbers -/

section Numbers

instance respells_consumeAnd {σ : Type} (next : σ) :
    Respells x w w true Eq (consumeAnd next : Scan (Turn σ α)) := by
  unfold consumeAnd
  infer_instance

/-- A number ends before any line end. -/
instance respells_numberTurn (s : NumberSoFar) :
    Respells x .copied .copied b Eq (numberTurn s) := by
  refine .look inferInstance (fun c => ?_) (Or.inr ⟨rfl, respells_pure (Turn.done ())⟩)
  dsimp only
  split
  · infer_instance
  · split
    · infer_instance
    · split
      · split
        · infer_instance
        · refine respells_get (fun k k' hw _ => ?_) fun _ _ => inferInstance
          rw [Cursor.admitsSign_congr hw]
      · split
        · split
          · infer_instance
          · refine respells_get (fun k k' hw _ => ?_) fun _ _ => inferInstance
            rw [Cursor.isEmpty_congr hw]
        · infer_instance

instance respells_number : Respells x .copied .copied b (Token.Respelled x) number := by
  refine respells_get (fun k k' hw _ => by rw [Cursor.value_congr hw]) fun _ _ =>
    Respells.bind inferInstance fun _ => respells_giveBackDot.bind fun _ =>
      respells_get (fun k k' hw _ => ?_) fun _ _ => inferInstance
  rw [Cursor.value_congr hw, Cursor.text_congr hw]

/-- Before a line end a dot stands alone. -/
instance respells_dotOrNumber (readNumber : Scan Token)
    [h : Respells x .copied .copied true (Token.Respelled x) readNumber] :
    Respells x .copied .copied true (Token.Respelled x) (dotOrNumber readNumber) := by
  refine respells_consume.bind fun _ => .look inferInstance (fun c => ?_)
    (Or.inr ⟨rfl, respells_emit .dot⟩)
  infer_instance

end Numbers

/-! ## Annotations -/

section Annotations

instance respells_languageTag :
    Respells x .copied .copied true (Token.Respelled x) languageTag := by
  have htag : Respells x .copied .copied false Eq (consumeWhile Name.isTagChar) :=
    respells_consumeWhile (Name.isTagChar_ascii (by decide)) (Name.isTagChar_ascii (by decide))
  refine respells_skip.bind fun _ => htag.bind fun _ =>
    respells_get (fun k k' hw _ => ?_) fun _ _ => inferInstance
  rw [Cursor.isEmpty_congr hw, Cursor.value_congr hw, Cursor.text_congr hw]

instance respells_hatHat : Respells x .copied .copied true (Token.Respelled x) hatHat :=
  respells_consume.bind fun _ => .look inferInstance (fun _ => inferInstance)
    (Or.inl fun _ => makes_unexpectedCharacter _ _)

instance respells_nameDatatype (rule : Name.Rule) :
    Respells x .copied .copied b (Token.Respelled x) (nameDatatype rule) := by
  refine (respells_gatherName rule true).bind fun _ =>
    (respells_nameToken? rule).bind_given fun o ho => ?_
  split
  · rename_i token
    split
    · exact (respells_setPrevious _).bind fun _ =>
        respells_return (Token.respelled_self fun hx => ho token rfl hx)
    · infer_instance
  · refine respells_get (fun k k' hw _ => ?_) fun _ _ => inferInstance
    rw [Cursor.text_congr hw]

instance respells_datatype (rule : Name.Rule) :
    Respells x .copied .copied b (Token.Respelled x) (datatype rule) := by
  refine Respells.behindBlank (.look_within fun d => ?_)
  cases d <;> infer_instance

end Annotations

end TripleLex.Scan

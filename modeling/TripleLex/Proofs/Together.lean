import TripleLex.Lexer
import TripleLex.Proofs.Reads

/-!
# What scans are put together from

Every reader of every format is put together from a few single steps: it looks,
takes a character, gives way to the failure of its source, starts or makes a token,
changes what it holds of one, gives a dot back, fails, repeats a turn, and goes
on with what it found. `Composed` says so of a scan, and has an instance for
every reader that has a name. A law of scans is then shown of the single steps
alone, by induction on how a scan is put together.

Two things are kept apart that a law may want to know. What a scan asks of its
cursor is not about the source, of which it knows by looking only. And only some
scans give a character back: `dots` says whether one may, and then it is a dot at
the end of the token.

## Main results

* `Composed.bind`, `Composed.ask`, `Composed.options` — the rules that are used
  by hand.
* `composed_next` — a step of any machine.
-/

namespace TripleLex

/-- The cursor is changed in what it holds of its token, and whatever was
remembered as the token before gives way only to another one. -/
structure Cursor.Edits (f : Cursor → Cursor) : Prop where
  source : ∀ k, (f k).source = k.source
  blind : ∀ k s, f { k with source := s } = { f k with source := s }
  pending : ∀ k, (f k).pending = k.pending
  isClosed : ∀ k, (f k).isClosed = k.isClosed
  previous : ∀ k, k.previous ≠ none → (f k).previous ≠ none

namespace Scan

/-! ## The judgement -/

/-- A scan that is put together from single steps; `dots` says whether it may
give a dot back. -/
class inductive Composed (dots : Bool) : {α : Type} → Scan α → Prop
  | pure {α : Type} (a : α) : Composed dots (pure a)
  | bind {α β : Type} {m : Scan α} {f : α → Scan β} (h : Composed dots m)
    (g : ∀ a, Composed dots (f a)) : Composed dots (m >>= f)
  | raise {α : Type} (fault : Fault) : Composed dots (raise fault : Scan α)
  | look : Composed dots look
  | take : Composed dots take
  | advance : Composed dots advance
  | failIfBroken : Composed dots failIfBroken
  /-- What is asked of a cursor is not about its source. -/
  | ask {α : Type} {f : Cursor → Scan α} (hsource : ∀ k s, f { k with source := s } = f k)
    (h : ∀ k, Composed dots (f k)) : Composed dots (get >>= f)
  | edit {f : Cursor → Cursor} (h : Cursor.Edits f) : Composed dots (modify f : Scan Unit)
  | emit (kind : Kind) : Composed dots (emit kind)
  | giveBack {p : List Char → Bool} (hdots : dots = true)
    (hp : ∀ ws, p ws = true → ws.head? = some '.') :
    Composed dots (do if p (← get).written then backtrack)
  | iterate {σ α : Type} {turn : σ → Scan (Turn σ α)} (h : ∀ s, Advances (turn s))
    (ht : ∀ s, Composed dots (turn s)) (s : σ) : Composed dots (iterate turn h s)

section Rules

variable {dots : Bool} {α β σ : Type}

instance composed_pure (a : α) : Composed dots (pure a : Scan α) := .pure a

instance composed_bind (m : Scan α) (f : α → Scan β) [hm : Composed dots m]
    [hf : ∀ a, Composed dots (f a)] : Composed dots (m >>= f) :=
  .bind hm hf

/-- What is found is taken up by cases. -/
theorem Composed.options {m : Scan (Option β)} {f : Option β → Scan α} (h : Composed dots m)
    (hnone : Composed dots (f none)) (hsome : ∀ b, Composed dots (f (some b))) :
    Composed dots (m >>= f) := by
  refine h.bind fun o => ?_
  cases o with
  | none => exact hnone
  | some b => exact hsome b

instance composed_options (m : Scan (Option β)) (f : Option β → Scan α) [hm : Composed dots m]
    [hnone : Composed dots (f none)] [hsome : ∀ b, Composed dots (f (some b))] :
    Composed dots (m >>= f) :=
  hm.options hnone hsome

instance composed_ite (c : Prop) [Decidable c] (m n : Scan α) [Composed dots m]
    [Composed dots n] : Composed dots (if c then m else n) := by
  split <;> infer_instance

instance composed_raise (fault : Fault) : Composed dots (raise fault : Scan α) := .raise fault

instance composed_look : Composed dots look := .look

instance composed_take : Composed dots take := .take

instance composed_advance : Composed dots advance := .advance

instance composed_failIfBroken : Composed dots failIfBroken := .failIfBroken

instance composed_startToken : Composed dots startToken :=
  .edit ⟨fun _ => rfl, fun _ _ => rfl, fun _ => rfl, fun _ => rfl, fun _ => id⟩

instance composed_push (c : Char) : Composed dots (push c) :=
  .edit ⟨fun _ => rfl, fun _ _ => rfl, fun _ => rfl, fun _ => rfl, fun _ => id⟩

instance composed_append (cs : List Char) : Composed dots (append cs) :=
  .edit ⟨fun _ => rfl, fun _ _ => rfl, fun _ => rfl, fun _ => rfl, fun _ => id⟩

instance composed_setPrevious (kind : Kind) : Composed dots (setPrevious kind) :=
  .edit ⟨fun _ => rfl, fun _ _ => rfl, fun _ => rfl, fun _ => rfl, fun _ _ => nofun⟩

instance composed_emitAs (kind : Kind) (text : String) : Composed dots (emitAs kind text) :=
  .ask (fun _ _ => rfl) fun _ => inferInstance

instance composed_emit (kind : Kind) : Composed dots (emit kind) := .emit kind

instance composed_iterate (turn : σ → Scan (Turn σ α)) (h : ∀ s, Advances (turn s))
    [ht : ∀ s, Composed dots (turn s)] (s : σ) : Composed dots (iterate turn h s) :=
  .iterate h ht s

end Rules

/-! ## Single steps -/

section Steps

variable {dots : Bool} {α : Type}

/-- A fault that is placed where the cursor stands, or over the token so far. -/
theorem composed_raise_at {fault : Cursor → Fault}
    (hsource : ∀ k s, fault { k with source := s } = fault k) :
    Composed dots (do raise (fault (← get)) : Scan α) :=
  .ask (fun k s => by rw [hsource k s]) fun _ => inferInstance

instance composed_exhausted : Composed dots (exhausted : Scan α) :=
  Composed.bind inferInstance fun _ => composed_raise_at fun _ _ => rfl

instance composed_violation (message : String) : Composed dots (violation message : Scan α) :=
  composed_raise_at fun _ _ => rfl

instance composed_unexpectedCharacter (found : Char) (expected : String) :
    Composed dots (unexpectedCharacter found expected : Scan α) :=
  composed_raise_at fun _ _ => rfl

instance composed_unexpectedEnd (expected : String) :
    Composed dots (unexpectedEnd expected : Scan α) :=
  Composed.bind inferInstance fun _ => composed_raise_at fun _ _ => rfl

instance composed_unexpectedLineEnd (expected : String) :
    Composed dots (unexpectedLineEnd expected : Scan α) :=
  composed_raise_at fun _ _ => rfl

instance composed_unexpectedToken (expected : String) (found : Token) :
    Composed dots (unexpectedToken expected found : Scan α) :=
  composed_raise _

instance composed_invalidForm (production value : String) :
    Composed dots (invalidForm production value : Scan α) :=
  composed_raise_at fun _ _ => rfl

instance composed_malformedEscape (message : String) :
    Composed dots (malformedEscape message : Scan α) :=
  composed_raise_at fun _ _ => rfl

instance composed_malformedUnicodeEscape (message : String) :
    Composed dots (malformedUnicodeEscape message : Scan α) :=
  composed_raise_at fun _ _ => rfl

instance composed_misuse (message : String) : Composed dots (misuse message : Scan α) :=
  composed_raise_at fun _ _ => rfl

instance composed_nextIs (c : Char) : Composed dots (nextIs c) := by
  unfold nextIs
  infer_instance

instance composed_consume : Composed dots consume := by
  unfold consume
  infer_instance

instance composed_consumeUnlessEnd : Composed dots consumeUnlessEnd := by
  unfold consumeUnlessEnd
  infer_instance

instance composed_skip : Composed dots skip := by
  unfold skip
  infer_instance

instance composed_pushIf (keep : Bool) (c : Char) : Composed dots (pushIf keep c) := by
  unfold pushIf
  infer_instance

instance composed_appendIf (keep : Bool) (cs : List Char) : Composed dots (appendIf keep cs) := by
  unfold appendIf
  infer_instance

instance composed_consumePartner (keep : Bool) (partner : Char) :
    Composed dots (consumePartner keep partner) := by
  unfold consumePartner
  infer_instance

instance composed_consumeLineEnd (keep allowEnd : Bool) :
    Composed dots (consumeLineEnd keep allowEnd) := by
  refine composed_look.options inferInstance fun first => ?_
  dsimp only
  split <;> infer_instance

instance composed_giveBackDot : Composed true giveBackDot :=
  .giveBack rfl fun _ h => beq_iff_eq.1 h

/-- The text of the token is given up. -/
theorem composed_clear :
    Composed dots (modify fun k => { k with written := [] } : Scan Unit) :=
  .edit ⟨fun _ => rfl, fun _ _ => rfl, fun _ => rfl, fun _ => rfl, fun _ => id⟩

instance composed_emitBare (kind : Kind) : Composed dots (emitBare kind) :=
  composed_clear.bind inferInstance

instance composed_emitEnding : Composed dots emitEnding := by
  unfold emitEnding
  infer_instance

instance composed_consumeTurn (p : Char → Bool) (u : Unit) : Composed dots (consumeTurn p u) := by
  unfold consumeTurn
  infer_instance

instance composed_consumeWhile (p : Char → Bool) : Composed dots (consumeWhile p) := by
  unfold consumeWhile
  infer_instance

instance composed_skipTurn (p : Char → Bool) (u : Unit) : Composed dots (skipTurn p u) := by
  unfold skipTurn
  infer_instance

instance composed_skipWhile (p : Char → Bool) : Composed dots (skipWhile p) := by
  unfold skipWhile
  infer_instance

instance composed_blankTurn (u : Unit) : Composed dots (blankTurn u) := by
  unfold blankTurn
  infer_instance

instance composed_discardBlank : Composed dots discardBlank := by
  unfold discardBlank
  infer_instance

instance composed_nextOrEnd : Composed dots nextOrEnd := by
  unfold nextOrEnd
  infer_instance

instance composed_mark? : Composed dots mark? := by
  refine Composed.ask (fun _ _ => rfl) fun k => ?_
  split <;> infer_instance

instance composed_step (read : Option Kind → Scan Token)
    [∀ previous, Composed dots (read previous)] :
    Composed dots (step read) :=
  composed_mark?.options (Composed.ask (fun _ _ => rfl) fun _ => inferInstance) inferInstance

instance composed_ending (expected : String) : Composed dots (ending expected) :=
  Composed.ask (fun _ _ => rfl) fun _ => inferInstance

instance composed_tokenHere (dispatch : Char → Scan Token) [∀ c, Composed dots (dispatch c)] :
    Composed dots (tokenHere dispatch) := by
  unfold tokenHere
  infer_instance

instance composed_single (kind : Kind) : Composed dots (single kind) := by
  unfold single
  infer_instance

instance composed_comment : Composed dots comment := by
  unfold comment
  infer_instance

end Steps

/-! ## Shared readers -/

section Readers

variable {dots : Bool}

instance composed_readHexDigits (n : Nat) : Composed dots (readHexDigits n) := by
  induction n with
  | zero => exact composed_pure _
  | succ n ih =>
    unfold readHexDigits
    infer_instance

instance composed_pushCodePoint (digits : List Char) : Composed dots (pushCodePoint digits) := by
  unfold pushCodePoint
  split
  · split <;> infer_instance
  · infer_instance

instance composed_decodeAfterBackslash (context : EscapeContext) (next : Char) :
    Composed dots (decodeAfterBackslash context next) := by
  unfold decodeAfterBackslash
  split <;> infer_instance

instance composed_decodeEscape (context : EscapeContext) :
    Composed dots (decodeEscape context) := by
  unfold decodeEscape
  infer_instance

instance composed_readLocalEscape : Composed dots readLocalEscape := by
  refine Composed.bind inferInstance fun opening => ?_
  split <;> infer_instance

instance composed_referenceTurn (u : Unit) : Composed dots (referenceTurn u) := by
  unfold referenceTurn
  infer_instance

instance composed_referenceBody : Composed dots referenceBody := by
  unfold referenceBody
  infer_instance

instance composed_reference : Composed dots reference := by
  unfold reference
  infer_instance

instance composed_referenceDatatype : Composed dots referenceDatatype :=
  composed_skip.bind fun _ => composed_referenceBody.bind fun _ =>
    Composed.ask (fun _ _ => rfl) fun _ => inferInstance

instance composed_shortTurn (sign : Char) (u : Unit) : Composed dots (shortTurn sign u) := by
  unfold shortTurn
  infer_instance

instance composed_shortBody (sign : Char) : Composed dots (shortBody sign) := by
  unfold shortBody
  infer_instance

instance composed_surplusSigns (sign : Char) (surplus : Surplus) :
    Composed dots (surplusSigns sign surplus) := by
  cases surplus <;> (unfold surplusSigns; infer_instance)

instance composed_longSigns (sign : Char) (surplus : Surplus) :
    Composed dots (longSigns sign surplus) := by
  refine composed_skip.bind fun _ => (composed_nextIs sign).bind fun found => ?_
  split <;> infer_instance

instance composed_longTurn (sign : Char) (surplus : Surplus) (u : Unit) :
    Composed dots (longTurn sign surplus u) := by
  unfold longTurn
  infer_instance

instance composed_longBody (sign : Char) (surplus : Surplus) :
    Composed dots (longBody sign surplus) := by
  unfold longBody
  infer_instance

instance composed_literal (surplus : Surplus) : Composed dots (literal surplus) := by
  unfold literal
  infer_instance

instance composed_nameTurn (rule : Name.Rule) (allowDot seenColon : Bool) :
    Composed dots (nameTurn rule allowDot seenColon) := by
  unfold nameTurn
  infer_instance

instance composed_gatherName (rule : Name.Rule) (allowDot : Bool) :
    Composed true (gatherName rule allowDot) := by
  refine Composed.bind inferInstance fun _ => .giveBack rfl fun ws h => ?_
  unfold endsInBareDot at h
  split at h
  · cases h
  · rfl
  · cases h

instance composed_nameToken? (rule : Name.Rule) : Composed dots (nameToken? rule) :=
  Composed.ask (fun _ _ => rfl) fun _ => inferInstance

instance composed_prefixTurn (u : Unit) : Composed dots (prefixTurn u) := by
  unfold prefixTurn
  infer_instance

instance composed_prefixName : Composed dots prefixName :=
  Composed.bind inferInstance fun _ => Composed.bind inferInstance fun _ =>
    Composed.ask (fun _ _ => rfl) fun _ => inferInstance

instance composed_directiveWord : Composed dots directiveWord :=
  Composed.bind inferInstance fun _ => Composed.bind inferInstance fun _ =>
    Composed.ask (fun _ _ => rfl) fun _ => inferInstance

instance composed_gatherVariable : Composed dots gatherVariable := by
  unfold gatherVariable
  infer_instance

instance composed_variableToken (sign : Char) : Composed dots (variableToken sign) :=
  Composed.ask (fun _ _ => rfl) fun _ => inferInstance

instance composed_consumeAnd {σ α : Type} (next : σ) :
    Composed dots (consumeAnd next : Scan (Turn σ α)) := by
  unfold consumeAnd
  infer_instance

instance composed_numberTurn (s : NumberSoFar) : Composed dots (numberTurn s) := by
  refine composed_look.options inferInstance fun c => ?_
  dsimp only
  split
  · infer_instance
  · split
    · infer_instance
    · split
      · split
        · infer_instance
        · exact Composed.ask (fun _ _ => rfl) inferInstance
      · split
        · split
          · infer_instance
          · exact Composed.ask (fun _ _ => rfl) inferInstance
        · infer_instance

instance composed_number : Composed true number :=
  Composed.ask (fun _ _ => rfl) fun _ => Composed.bind inferInstance fun _ =>
    composed_giveBackDot.bind fun _ => Composed.ask (fun _ _ => rfl) inferInstance

instance composed_dotOrNumber (readNumber : Scan Token) [Composed dots readNumber] :
    Composed dots (dotOrNumber readNumber) := by
  unfold dotOrNumber
  infer_instance

instance composed_languageTag : Composed dots languageTag :=
  Composed.bind inferInstance fun _ => Composed.bind inferInstance fun _ =>
    Composed.ask (fun _ _ => rfl) inferInstance

instance composed_hatHat : Composed dots hatHat := by
  unfold hatHat
  infer_instance

instance composed_nameDatatype (rule : Name.Rule) : Composed true (nameDatatype rule) :=
  (composed_gatherName rule true).bind fun _ =>
    (composed_nameToken? rule).options (Composed.ask (fun _ _ => rfl) inferInstance) inferInstance

instance composed_datatype (rule : Name.Rule) : Composed true (datatype rule) := by
  unfold datatype
  infer_instance

/-- A name, or what becomes of a bare word. -/
theorem composed_nameOr (rule : Name.Rule) (allowDot : Bool) (bareWord : List Char → Scan Token)
    [∀ word, Composed true (bareWord word)] :
    Composed true (do
      gatherName rule allowDot
      match ← nameToken? rule with
      | some token => return token
      | none => bareWord (← get).value) :=
  (composed_gatherName rule allowDot).bind fun _ =>
    (composed_nameToken? rule).options (Composed.ask (fun _ _ => rfl) inferInstance) inferInstance

end Readers

end Scan

/-! ## Formats -/

section Formats

open Scan

variable {dots : Bool}

namespace Graph

instance composed_checkGraph (format : LineFormat) : Composed dots format.checkGraph :=
  Composed.ask (fun _ _ => rfl) inferInstance

instance composed_lineDatatype : Composed dots LineFormat.datatype := by
  unfold LineFormat.datatype
  infer_instance

instance composed_blankNode (format : LineFormat) : Composed true format.blankNode := by
  refine Composed.bind inferInstance fun _ => Composed.bind inferInstance fun _ =>
    Composed.bind inferInstance fun found => ?_
  split
  · infer_instance
  · exact Composed.bind inferInstance fun _ => Composed.bind inferInstance fun _ =>
      Composed.bind inferInstance fun _ => Composed.ask (fun _ _ => rfl) inferInstance

instance composed_lineLiteral : Composed dots LineFormat.literal := by
  unfold LineFormat.literal
  infer_instance

instance composed_lineDispatch (format : LineFormat) (previous : Option Kind) (c : Char) :
    Composed true (format.dispatch previous c) := by
  unfold LineFormat.dispatch
  split <;> infer_instance

instance composed_lineRead (format : LineFormat) (previous : Option Kind) :
    Composed true (format.read previous) := by
  unfold LineFormat.read
  split <;> infer_instance

namespace Turtle

variable (t : Turtle)

instance composed_directive : Composed dots t.directive := by
  unfold directive
  infer_instance

instance composed_tagOrDirective (previous : Option Kind) :
    Composed dots (t.tagOrDirective previous) := by
  unfold tagOrDirective
  infer_instance

instance composed_hat (previous : Option Kind) (c : Char) : Composed dots (hat previous c) := by
  unfold hat
  infer_instance

instance composed_referenceRest : Composed dots referenceRest := by
  unfold referenceRest
  infer_instance

instance composed_referenceOrArrow : Composed dots t.referenceOrArrow := by
  unfold referenceOrArrow
  infer_instance

instance composed_equals : Composed dots t.equals := by
  unfold equals
  infer_instance

instance composed_brace (kind : Kind) (c : Char) : Composed dots (t.brace kind c) := by
  unfold brace
  infer_instance

instance composed_bareWord (word : List Char) : Composed dots (t.bareWord word) := by
  unfold bareWord
  infer_instance

instance composed_name : Composed true t.name := composed_nameOr _ _ _

instance composed_dispatch (previous : Option Kind) (c : Char) :
    Composed true (t.dispatch previous c) := by
  unfold dispatch
  split <;> infer_instance

instance composed_read (previous : Option Kind) : Composed true (t.read previous) := by
  unfold read
  split <;> infer_instance

end Turtle

namespace Notation3

variable (v : Vocabulary)

instance composed_gapTurn (u : Unit) : Composed dots (gapTurn u) := by
  unfold gapTurn
  infer_instance

instance composed_declaration : Composed dots declaration := by
  refine Composed.bind inferInstance fun _ => Composed.bind inferInstance fun _ =>
    Composed.bind inferInstance fun next => ?_
  split
  · infer_instance
  · exact Composed.bind inferInstance fun _ => Composed.ask (fun _ _ => rfl) inferInstance

instance composed_directive : Composed dots (directive v) := by
  refine Composed.bind inferInstance fun word => ?_
  split <;> infer_instance

instance composed_referenceOrArrow : Composed dots referenceOrArrow := by
  unfold referenceOrArrow
  infer_instance

instance composed_equals : Composed dots equals := by
  unfold equals
  infer_instance

instance composed_hat (previous : Option Kind) : Composed dots (hat previous) := by
  unfold hat
  infer_instance

instance composed_variableName : Composed dots variableName := by
  unfold variableName
  infer_instance

instance composed_bareWord (word : List Char) : Composed dots (bareWord v word) := by
  unfold bareWord
  infer_instance

instance composed_name : Composed true (name v) := composed_nameOr _ _ _

instance composed_dispatch (previous : Option Kind) (c : Char) :
    Composed true (dispatch v previous c) := by
  unfold dispatch
  split <;> infer_instance

instance composed_read (previous : Option Kind) : Composed true (read v previous) := by
  unfold read
  split
  · infer_instance
  · split <;> infer_instance

end Notation3

end Graph

namespace Query.Sparql

variable (q : Sparql)

instance composed_checkLevel (k : Keyword) : Composed dots (q.checkLevel k) := by
  unfold checkLevel
  infer_instance

instance composed_checkScope (k : Keyword) : Composed dots (q.checkScope k) := by
  unfold checkScope
  split <;> infer_instance

instance composed_keyword (k : Keyword) : Composed dots (q.keyword k) := by
  unfold keyword
  infer_instance

instance composed_base : Composed dots q.base := by
  unfold base
  infer_instance

instance composed_prologueWord (word : List Char) : Composed dots (q.prologueWord word) := by
  unfold prologueWord
  split
  · infer_instance
  · split
    · infer_instance
    · split <;> infer_instance

instance composed_prologue (previous : Option Kind) (c : Char) :
    Composed dots (q.prologue previous c) := by
  unfold prologue
  split
  · infer_instance
  · split
    · infer_instance
    · exact Composed.bind inferInstance fun _ => Composed.ask (fun _ _ => rfl) inferInstance

instance composed_spaceTurn (seen : Bool) : Composed dots (spaceTurn seen) := by
  unfold spaceTurn
  infer_instance

instance composed_twoWords (seconds : List (String × Keyword)) :
    Composed dots (q.twoWords seconds) := by
  refine Composed.ask (fun _ _ => rfl) fun k => Composed.bind inferInstance fun spaced =>
    Composed.ask (fun _ _ => rfl) fun k => Composed.bind inferInstance fun _ =>
    Composed.ask (fun _ _ => rfl) fun k => ?_
  dsimp only
  split <;> infer_instance

instance composed_bareWord (word : List Char) : Composed dots (q.bareWord word) := by
  unfold bareWord
  repeat' split
  all_goals infer_instance

instance composed_name : Composed true q.name := composed_nameOr _ _ _

instance composed_assignmentOrName : Composed true q.assignmentOrName := by
  unfold assignmentOrName
  infer_instance

instance composed_numericTurn (s : Gathered) : Composed dots (numericTurn s) := by
  refine composed_look.options inferInstance fun c => ?_
  dsimp only
  split
  · infer_instance
  · split
    · infer_instance
    · split
      · exact Composed.ask (fun _ _ => rfl) inferInstance
      · infer_instance

instance composed_numericToken : Composed true q.numericToken := by
  unfold numericToken
  split
  · exact Composed.ask (fun _ _ => rfl) inferInstance
  · exact composed_giveBackDot.bind fun _ => Composed.ask (fun _ _ => rfl) inferInstance

instance composed_numberOrSign : Composed true q.numberOrSign :=
  Composed.ask (fun _ _ => rfl) fun _ => Composed.bind inferInstance fun _ =>
    Composed.ask (fun _ _ => rfl) inferInstance

instance composed_oneOrTwo (second : Char) (double single : Kind) :
    Composed dots (oneOrTwo second double single) := by
  unfold oneOrTwo
  infer_instance

instance composed_referenceOrLess : Composed dots referenceOrLess := by
  unfold referenceOrLess
  infer_instance

instance composed_hat (previous : Option Kind) : Composed dots (hat previous) := by
  unfold hat
  infer_instance

instance composed_variableName (sign : Char) : Composed dots (variableName sign) :=
  composed_gatherVariable.bind fun _ => Composed.ask (fun _ _ => rfl) inferInstance

instance composed_ampersand : Composed dots ampersand := by
  unfold ampersand
  infer_instance

instance composed_body (previous : Option Kind) (c : Char) : Composed true (q.body previous c) := by
  unfold body
  split <;> infer_instance

instance composed_read (previous : Option Kind) : Composed true (q.read previous) := by
  unfold read
  split <;> infer_instance

end Query.Sparql

namespace Table

instance composed_bareTurn (u : Unit) : Composed dots (Csv.bareTurn u) := by
  unfold Csv.bareTurn
  infer_instance

instance composed_bareField : Composed dots Csv.bareField := by
  unfold Csv.bareField
  infer_instance

instance composed_markTurn : Composed dots Csv.markTurn := by
  unfold Csv.markTurn
  infer_instance

instance composed_quotedTurn (u : Unit) : Composed dots (Csv.quotedTurn u) := by
  unfold Csv.quotedTurn
  infer_instance

instance composed_quotedField : Composed dots Csv.quotedField := by
  unfold Csv.quotedField
  infer_instance

instance composed_recordEnd : Composed dots Csv.recordEnd := by
  unfold Csv.recordEnd
  infer_instance

instance composed_csvDispatch (c : Char) : Composed dots (Csv.dispatch c) := by
  unfold Csv.dispatch
  infer_instance

instance composed_csvRead : Composed dots Csv.read := by
  unfold Csv.read
  infer_instance

instance composed_discardSpaces : Composed dots Tsv.discardSpaces := by
  unfold Tsv.discardSpaces
  infer_instance

instance composed_literalTurn (u : Unit) : Composed dots (Tsv.literalTurn u) := by
  unfold Tsv.literalTurn
  infer_instance

instance composed_literal : Composed dots Tsv.literal := by
  unfold Tsv.literal
  infer_instance

instance composed_variableName : Composed dots Tsv.variableName := by
  unfold Tsv.variableName
  infer_instance

instance composed_name : Composed true Tsv.name :=
  (composed_gatherName _ _).bind fun _ =>
    (composed_nameToken? _).options (Composed.ask (fun _ _ => rfl) inferInstance) inferInstance

instance composed_tsvDispatch (previous : Option Kind) (c : Char) :
    Composed true (Tsv.dispatch previous c) := by
  unfold Tsv.dispatch
  split <;> infer_instance

instance composed_tsvRead (previous : Option Kind) : Composed true (Tsv.read previous) := by
  unfold Tsv.read
  split <;> infer_instance

end Table

/-- Whether the rules of a machine may give a dot back. -/
def Machine.givesBack : Machine → Bool
  | csv => false
  | _ => true

instance composed_read (m : Machine) (previous : Option Kind) :
    Composed m.givesBack (m.read previous) := by
  cases m <;> (unfold Machine.read Machine.givesBack; infer_instance)

instance composed_next (m : Machine) : Composed m.givesBack m.next := by
  unfold Machine.next
  infer_instance

end Formats

end TripleLex

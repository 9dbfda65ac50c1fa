import TripleLex.Proofs.Together

/-!
# The characters that faults name

A fault may name a character as one that was not expected. A scan `Cites` if every
character that it names so was there to be found: it was still to be read, or it is
the dot that may be given back, or the scan knows it from one who has looked. Nothing
else is to be known of a scan than what it is put together from, since what it leaves
to be read is what it has found (`Composed.supplies`).

Only a few scans name the next character without asking whether there is one. They
are left out here, with whatever begins with them.

## Main results

* `Scan.Composed.supplies` — what a scan leaves to be read.
* `Scan.Cites.bind`, `Scan.Cites.look`, `Scan.cites_iterate` — the rules.
* `Scan.cites_prefixName`, `Graph.Notation3.cites_declaration` — readers that name the next
  character and have found one before.
-/

namespace TripleLex

/-- The character that was not expected. -/
def Fault.unexpected? : Fault → Option Char
  | .unexpectedCharacter found _ _ => some found
  | _ => none

/-- The character is still to be read, or is the one that may be given back. -/
def Cursor.Supplies (k : Cursor) (c : Char) : Prop := c = '.' ∨ c ∈ k.ahead

namespace Cursor

variable {k : Cursor} {c : Char}

theorem supplies_close (h : k.close.Supplies c) : k.Supplies c := by
  refine h.imp_right fun hc => ?_
  unfold close at hc
  split at hc
  · exact hc
  · have hc : c ∈ k.pending.toList ++ [] := hc
    rw [List.append_nil] at hc
    exact List.mem_append_left _ hc

theorem supplies_tail {left : Cursor} (ha : left.ahead = k.ahead.tail) (h : left.Supplies c) :
    k.Supplies c := by
  refine h.imp_right fun hc => ?_
  rw [ha] at hc
  exact List.mem_of_mem_tail hc

end Cursor

namespace Scan

/-! ## What is left to be read -/

section Leaving

variable {α : Type} {dots : Bool} {k : Cursor} {c : Char}

/-- The cursor that is left, whatever a scan has come to. -/
def leftBy : EStateM.Result Fault Cursor α → Cursor
  | .ok _ left | .error _ left => left

theorem supplies_failIfBroken (h : (leftBy (failIfBroken k)).Supplies c) : k.Supplies c := by
  cases hmet : k.source.met with
  | none =>
    rw [failIfBroken_unmet hmet] at h
    exact h
  | some cause =>
    rw [failIfBroken_met hmet] at h
    have hmid := Cursor.supplies_close h
    exact hmid

theorem supplies_advance (h : (leftBy (advance k)).Supplies c) : k.Supplies c := by
  unfold advance at h
  split at h
  · exact Cursor.supplies_tail (k.ahead_moved _) h
  · exact Cursor.supplies_tail k.ahead_taken h

theorem supplies_backtrack {ws : List Char} (hw : k.written = '.' :: ws)
    (h : (leftBy (backtrack k)).Supplies c) : k.Supplies c := by
  unfold backtrack at h
  rw [get_bind] at h
  cases hp : k.pending with
  | some d =>
    rw [hp] at h
    exact Cursor.supplies_close h
  | none =>
    rw [hp, hw] at h
    rcases h with h | h
    · exact .inl h
    · rcases List.mem_cons.1 h with h | h
      · exact .inl h
      · exact .inr (List.mem_append_right _ h)

/-- What a scan leaves to be read was to be read before, but for a dot. -/
theorem Composed.supplies {m : Scan α} (h : Composed dots m) :
    ∀ k, (leftBy (m k)).Supplies c → k.Supplies c := by
  induction h with
  | pure a => exact fun k hc => hc
  | @bind _ _ m f _ _ ihm ihf =>
    intro k hc
    have hm := ihm k
    simp only [Bind.bind, EStateM.bind] at hc
    generalize m k = r at hm hc
    cases r with
    | ok a mid => exact hm (ihf a mid hc)
    | error fault left => exact hm hc
  | raise fault => exact fun k hc => Cursor.supplies_close hc
  | look => exact fun k hc => hc.imp_right fun hc => by rwa [← k.ahead_looked]
  | take => exact fun k hc => Cursor.supplies_tail k.ahead_taken hc
  | advance => exact fun k hc => supplies_advance hc
  | failIfBroken => exact fun k hc => supplies_failIfBroken hc
  | ask _ _ ih => exact fun k hc => ih k k hc
  | @edit f hf =>
    refine fun k hc => hc.imp_right fun hc => ?_
    have hahead : (f k).ahead = k.ahead := by
      rw [Cursor.ahead, Cursor.ahead, hf.pending, hf.source]
    rwa [← hahead]
  | emit kind => exact fun k hc => hc
  | @giveBack p _ hp =>
    intro k hc
    rw [get_bind] at hc
    split at hc
    · rename_i hdot
      obtain ⟨ws, hw⟩ := List.head?_eq_some_iff.1 (hp _ hdot)
      exact supplies_backtrack hw hc
    · exact hc
  | @iterate _ _ turn h _ s ih =>
    refine fun k hc => iterate_induction (h := h)
      (P := fun _ k r => (leftBy r).Supplies c → k.Supplies c) ?_ ?_ ?_ s k hc
    · intro s k s' left r e hr hc
      exact ih s k (by rw [e]; exact hr hc)
    · intro s k a left e hc
      exact ih s k (by rw [e]; exact hc)
    · intro s k fault left e hc
      exact ih s k (by rw [e]; exact hc)

end Leaving

/-! ## The judgement -/

/-- Whatever character a fault of the scan names was there to be found, unless it is
one of those that are known. -/
class Cites {α : Type} (known : List Char) (m : Scan α) : Prop where
  cites : ∀ {k left : Cursor} {fault : Fault} {c : Char}, m k = .error fault left →
    fault.unexpected? = some c → c ∈ known ∨ k.Supplies c

section Rules

variable {α β σ : Type} {known : List Char} {c : Char}

theorem cites_of_ok {m : Scan α} (h : ∀ k, ∃ a left, m k = .ok a left) : Cites known m where
  cites {k left fault c} e _ := by
    obtain ⟨a, left', e'⟩ := h k
    rw [e'] at e
    cases e

/-- A fault that names no character. -/
theorem cites_raise {fault : Fault} (h : fault.unexpected? = none) :
    Cites known (raise fault : Scan α) where
  cites e hc := by
    cases e
    rw [h] at hc
    cases hc

instance cites_pure (a : α) : Cites known (pure a : Scan α) := cites_of_ok fun k => ⟨a, k, rfl⟩

theorem Cites.bind {m : Scan α} {f : α → Scan β} [hcomposed : Composed true m]
    (hm : Cites known m) (hf : ∀ a, Cites known (f a)) : Cites known (m >>= f) where
  cites {k left fault c} e hc := by
    simp only [Bind.bind, EStateM.bind] at e
    have hsupplies := hcomposed.supplies (c := c) k
    generalize hr : m k = r at hsupplies e
    cases r with
    | ok a mid => exact ((hf a).cites e hc).imp_right hsupplies
    | error fault' left' =>
      cases e
      exact hm.cites hr hc

instance cites_bind (m : Scan α) (f : α → Scan β) [Composed true m] [hm : Cites known m]
    [hf : ∀ a, Cites known (f a)] : Cites known (m >>= f) :=
  hm.bind hf

/-- What is asked of a cursor brings no fault. -/
theorem Cites.ask {f : Cursor → Scan α} (hf : ∀ k, Cites known (f k)) :
    Cites known (get >>= f) where
  cites {k left fault c} e hc := by
    rw [get_bind] at e
    exact (hf k).cites e hc

instance cites_ask (f : Cursor → Scan α) [hf : ∀ k, Cites known (f k)] :
    Cites known (get >>= f) :=
  .ask hf

/-- What is found is taken up by cases. -/
instance cites_options (m : Scan (Option β)) (f : Option β → Scan α) [Composed true m]
    [hm : Cites known m] [hnone : Cites known (f none)] [hsome : ∀ b, Cites known (f (some b))] :
    Cites known (m >>= f) := by
  refine hm.bind fun o => ?_
  cases o with
  | none => exact hnone
  | some b => exact hsome b

/-- Who looks knows the next character. -/
theorem Cites.look {f : Option Char → Scan α} (hnone : Cites known (f none))
    (hsome : ∀ c, Cites (c :: known) (f (some c))) : Cites known (look >>= f) where
  cites {k left fault c} e hc := by
    have hback : k.looked.Supplies c → k.Supplies c := fun h =>
      h.imp_right fun h => by rwa [← k.ahead_looked]
    rw [bind_eq (look_eq k)] at e
    cases hk : k.ahead.head? with
    | none =>
      rw [hk] at e
      exact (hnone.cites e hc).imp_right hback
    | some d =>
      rw [hk] at e
      rcases (hsome d).cites e hc with h | h
      · rcases List.mem_cons.1 h with rfl | h
        · exact .inr (.inr (List.mem_of_mem_head? hk))
        · exact .inl h
      · exact .inr (hback h)

instance cites_look (f : Option Char → Scan α) [hnone : Cites known (f none)]
    [hsome : ∀ c, Cites (c :: known) (f (some c))] : Cites known (look >>= f) :=
  .look hnone hsome

instance cites_ite (p : Prop) [Decidable p] (m n : Scan α) [Cites known m] [Cites known n] :
    Cites known (if p then m else n) := by
  split <;> infer_instance

instance cites_iterate (turn : σ → Scan (Turn σ α)) (h : ∀ s, Advances (turn s))
    [hcomposed : ∀ s, Composed true (turn s)] [ht : ∀ s, Cites known (turn s)] (s : σ) :
    Cites known (iterate turn h s) where
  cites {k left fault c} e hc := by
    refine iterate_induction (h := h)
      (P := fun _ k r => ∀ {left fault}, r = .error fault left → fault.unexpected? = some c →
        c ∈ known ∨ k.Supplies c) ?_ ?_ ?_ s k e hc
    · intro s k s' left r e ih left' fault hr hc
      refine (ih hr hc).imp_right fun hleft => (hcomposed s).supplies k ?_
      rw [e]
      exact hleft
    · intro s k a left e left' fault hr
      cases hr
    · intro s k fault left e left' fault' hr hc
      cases hr
      exact (ht s).cites e hc

end Rules

/-! ## Single steps -/

section Steps

variable {α : Type} {known : List Char}

instance cites_failIfBroken : Cites known failIfBroken where
  cites {k left fault c} e hc := by
    cases hmet : k.source.met with
    | none =>
      rw [failIfBroken_unmet hmet] at e
      cases e
    | some cause =>
      rw [failIfBroken_met hmet] at e
      cases e
      cases hc

/-- The character that is known may be named. -/
instance cites_unexpectedCharacter (c : Char) (expected : String) :
    Cites (c :: known) (unexpectedCharacter c expected : Scan α) where
  cites e hc := by
    cases e
    cases hc
    exact .inl List.mem_cons_self

theorem cites_raise_at {fault : Cursor → Fault} (h : ∀ k, (fault k).unexpected? = none) :
    Cites known (do raise (fault (← get)) : Scan α) :=
  .ask fun k => cites_raise (h k)

instance cites_exhausted : Cites known (exhausted : Scan α) := by
  have hraise : Cites known (do raise (.exhausted (Span.point (← get).here)) : Scan α) :=
    cites_raise_at fun _ => rfl
  unfold exhausted
  infer_instance

instance cites_violation (message : String) : Cites known (violation message : Scan α) :=
  cites_raise_at fun _ => rfl

instance cites_unexpectedEnd (expected : String) :
    Cites known (unexpectedEnd expected : Scan α) := by
  have hraise : Cites known (do
      let k ← get
      raise (.unexpectedEnd expected (Fault.shownContent k.value) k.faultSpan) : Scan α) :=
    cites_raise_at fun _ => rfl
  unfold unexpectedEnd
  infer_instance

instance cites_unexpectedLineEnd (expected : String) :
    Cites known (unexpectedLineEnd expected : Scan α) := cites_raise_at fun _ => rfl

instance cites_unexpectedToken (expected : String) (found : Token) :
    Cites known (unexpectedToken expected found : Scan α) := cites_raise rfl

instance cites_invalidForm (production value : String) :
    Cites known (invalidForm production value : Scan α) := cites_raise_at fun _ => rfl

instance cites_malformedEscape (message : String) :
    Cites known (malformedEscape message : Scan α) := cites_raise_at fun _ => rfl

instance cites_malformedUnicodeEscape (message : String) :
    Cites known (malformedUnicodeEscape message : Scan α) := cites_raise_at fun _ => rfl

instance cites_misuse (message : String) : Cites known (misuse message : Scan α) :=
  cites_raise_at fun _ => rfl

instance cites_take : Cites known take := cites_of_ok fun _ => ⟨_, _, rfl⟩

instance cites_advance : Cites known advance :=
  cites_of_ok fun k => by
    unfold advance
    split <;> exact ⟨_, _, rfl⟩

instance cites_push (c : Char) : Cites known (push c) := cites_of_ok fun _ => ⟨_, _, rfl⟩

instance cites_append (cs : List Char) : Cites known (append cs) :=
  cites_of_ok fun _ => ⟨_, _, rfl⟩

instance cites_startToken : Cites known startToken := cites_of_ok fun _ => ⟨_, _, rfl⟩

instance cites_setPrevious (kind : Kind) : Cites known (setPrevious kind) :=
  cites_of_ok fun _ => ⟨_, _, rfl⟩

instance cites_emitAs (kind : Kind) (text : String) : Cites known (emitAs kind text) :=
  cites_of_ok fun _ => ⟨_, _, rfl⟩

instance cites_emit (kind : Kind) : Cites known (emit kind) := cites_of_ok fun _ => ⟨_, _, rfl⟩

instance cites_emitBare (kind : Kind) : Cites known (emitBare kind) :=
  cites_of_ok fun _ => ⟨_, _, rfl⟩

instance cites_emitEnding : Cites known emitEnding := cites_of_ok fun _ => ⟨_, _, rfl⟩

instance cites_nextIs (c : Char) : Cites known (nextIs c) := cites_of_ok fun _ => ⟨_, _, rfl⟩

instance cites_consume : Cites known consume := by
  unfold consume
  infer_instance

instance cites_skip : Cites known skip := by
  unfold skip
  infer_instance

instance cites_pushIf (keep : Bool) (c : Char) : Cites known (pushIf keep c) := by
  unfold pushIf
  infer_instance

instance cites_appendIf (keep : Bool) (cs : List Char) : Cites known (appendIf keep cs) := by
  unfold appendIf
  infer_instance

instance cites_consumePartner (keep : Bool) (partner : Char) :
    Cites known (consumePartner keep partner) := by
  unfold consumePartner
  infer_instance

instance cites_consumeLineEnd (keep allowEnd : Bool) :
    Cites known (consumeLineEnd keep allowEnd) := by
  refine .look inferInstance fun first => ?_
  dsimp only
  split <;> infer_instance

instance cites_backtrack : Cites known backtrack := by
  refine .ask fun k => ?_
  split
  · infer_instance
  · infer_instance
  · exact cites_of_ok fun _ => ⟨_, _, rfl⟩

instance cites_giveBackDot : Cites known giveBackDot := by
  unfold giveBackDot
  infer_instance

instance cites_consumeTurn (p : Char → Bool) (u : Unit) : Cites known (consumeTurn p u) := by
  unfold consumeTurn
  infer_instance

instance cites_consumeWhile (p : Char → Bool) : Cites known (consumeWhile p) := by
  unfold consumeWhile
  infer_instance

instance cites_skipTurn (p : Char → Bool) (u : Unit) : Cites known (skipTurn p u) := by
  unfold skipTurn
  infer_instance

instance cites_skipWhile (p : Char → Bool) : Cites known (skipWhile p) := by
  unfold skipWhile
  infer_instance

instance cites_blankTurn (u : Unit) : Cites known (blankTurn u) := by
  unfold blankTurn
  infer_instance

instance cites_discardBlank : Cites known discardBlank := by
  unfold discardBlank
  infer_instance

instance cites_ending (expected : String) : Cites known (ending expected) := by
  unfold ending
  infer_instance

instance cites_single (kind : Kind) : Cites known (single kind) := by
  unfold single
  infer_instance

instance cites_comment : Cites known comment := by
  unfold comment
  infer_instance

end Steps

/-! ## Shared readers -/

section Readers

variable {known : List Char}

instance cites_readHexDigits (n : Nat) : Cites known (readHexDigits n) := by
  induction n generalizing known with
  | zero => exact cites_pure _
  | succ n ih =>
    unfold readHexDigits
    infer_instance

instance cites_pushCodePoint (digits : List Char) : Cites known (pushCodePoint digits) := by
  unfold pushCodePoint
  split
  · split <;> infer_instance
  · infer_instance

instance cites_decodeAfterBackslash (context : EscapeContext) (next : Char) :
    Cites known (decodeAfterBackslash context next) := by
  unfold decodeAfterBackslash
  split <;> infer_instance

instance cites_decodeEscape (context : EscapeContext) : Cites known (decodeEscape context) := by
  unfold decodeEscape
  infer_instance

instance cites_readLocalEscape : Cites known readLocalEscape := by
  refine cites_skip.bind fun opening => ?_
  split <;> infer_instance

instance cites_referenceTurn (u : Unit) : Cites known (referenceTurn u) := by
  unfold referenceTurn
  infer_instance

instance cites_referenceBody : Cites known referenceBody := by
  unfold referenceBody
  infer_instance

instance cites_reference : Cites known reference := by
  unfold reference
  infer_instance

instance cites_referenceDatatype : Cites known referenceDatatype := by
  unfold referenceDatatype
  infer_instance

instance cites_shortTurn (sign : Char) (u : Unit) : Cites known (shortTurn sign u) := by
  unfold shortTurn
  infer_instance

instance cites_shortBody (sign : Char) : Cites known (shortBody sign) := by
  unfold shortBody
  infer_instance

instance cites_surplusSigns (sign : Char) (surplus : Surplus) :
    Cites known (surplusSigns sign surplus) := by
  cases surplus <;> (unfold surplusSigns; infer_instance)

instance cites_longSigns (sign : Char) (surplus : Surplus) :
    Cites known (longSigns sign surplus) := by
  refine cites_skip.bind fun _ => (cites_nextIs sign).bind fun found => ?_
  split <;> infer_instance

instance cites_longTurn (sign : Char) (surplus : Surplus) (u : Unit) :
    Cites known (longTurn sign surplus u) := by
  unfold longTurn
  infer_instance

instance cites_longBody (sign : Char) (surplus : Surplus) :
    Cites known (longBody sign surplus) := by
  unfold longBody
  infer_instance

instance cites_literal (surplus : Surplus) : Cites known (literal surplus) := by
  refine cites_skip.bind fun sign => (cites_nextIs sign).bind fun found => ?_
  split <;> infer_instance

instance cites_nameTurn (rule : Name.Rule) (allowDot seenColon : Bool) :
    Cites known (nameTurn rule allowDot seenColon) := by
  unfold nameTurn
  infer_instance

instance cites_gatherName (rule : Name.Rule) (allowDot : Bool) :
    Cites known (gatherName rule allowDot) := by
  unfold gatherName
  infer_instance

instance cites_nameToken? (rule : Name.Rule) : Cites known (nameToken? rule) := by
  unfold nameToken?
  infer_instance

instance cites_prefixTurn (u : Unit) : Cites known (prefixTurn u) := by
  unfold prefixTurn
  infer_instance

instance cites_gatherVariable : Cites known gatherVariable := by
  unfold gatherVariable
  infer_instance

instance cites_variableToken (sign : Char) : Cites known (variableToken sign) := by
  unfold variableToken
  infer_instance

instance cites_consumeAnd {σ α : Type} (next : σ) :
    Cites known (consumeAnd next : Scan (Turn σ α)) := by
  unfold consumeAnd
  infer_instance

instance cites_numberTurn (s : NumberSoFar) : Cites known (numberTurn s) := by
  unfold numberTurn
  infer_instance

instance cites_number : Cites known number := by
  unfold number
  infer_instance

instance cites_dotOrNumber (readNumber : Scan Token)
    [∀ known, Cites known readNumber] : Cites known (dotOrNumber readNumber) := by
  unfold dotOrNumber
  infer_instance

instance cites_hatHat : Cites known hatHat := by
  unfold hatHat
  infer_instance

instance cites_nameDatatype (rule : Name.Rule) : Cites known (nameDatatype rule) := by
  unfold nameDatatype
  infer_instance

instance cites_datatype (rule : Name.Rule) : Cites known (datatype rule) := by
  unfold datatype
  infer_instance

end Readers

/-! ## Where something comes next -/

section Next

variable {α β : Type} {known : List Char} {k left : Cursor} {fault : Fault} {c : Char}

/-- Either scan may have failed. -/
theorem error_of_bind {m : Scan α} {f : α → Scan β} (e : (m >>= f) k = .error fault left) :
    m k = .error fault left ∨ ∃ a mid, m k = .ok a mid ∧ f a mid = .error fault left := by
  simp only [Bind.bind, EStateM.bind] at e
  split at e
  · exact .inr ⟨_, _, by assumption, e⟩
  · cases e
    exact .inl (by assumption)

/-- Behind its colon, or before what cannot be part of it, a prefix has been gathered. -/
theorem next_of_prefixTurns {u : Unit}
    (e : iterate prefixTurn advances_prefixTurn () k = .ok u left) :
    left.endsWith ':' = true ∨ ∃ c, left.ahead.head? = some c := by
  refine iterate_induction (h := advances_prefixTurn)
    (P := fun _ _ r => ∀ u left, r = .ok u left →
      left.endsWith ':' = true ∨ ∃ c, left.ahead.head? = some c) ?_ ?_ ?_ () k u left e
  · intro _ k _ left r _ ih
    exact ih
  · rintro _ k _ left e _ _ ⟨⟩
    rcases look_bind_ok e with ⟨k₁, r₁, -, e⟩ | ⟨d, k₁, r₁, hd, e⟩
    · exact absurd e unexpectedEnd_ne_ok
    · dsimp only at e
      split at e
      · cases e
        exact .inr ⟨d, hd⟩
      · obtain ⟨rest, hrest⟩ := List.head?_eq_some_iff.1 hd
        obtain ⟨_, k₂, e₂, e⟩ := bind_ok e
        rw [consume_cons hrest] at e₂
        cases e₂
        split at e
        · rename_i hcolon
          cases e
          refine .inl ?_
          rw [beq_iff_eq.1 hcolon]
          rfl
        · cases e
  · intro _ k fault left _ u left' hr
    cases hr

instance cites_prefixName : Cites known prefixName where
  cites {k left fault c} e hc := by
    have hgap : Composed true discardBlank := inferInstance
    have hturns : Composed true (iterate prefixTurn advances_prefixTurn ()) := inferInstance
    rcases error_of_bind e with e | ⟨_, k₁, e₁, e⟩
    · exact cites_discardBlank.cites e hc
    · have hback : k₁.Supplies c → k.Supplies c := fun h => hgap.supplies k (by rwa [e₁])
      rcases error_of_bind e with e | ⟨_, k₂, e₂, e⟩
      · have hcites : Cites known (iterate prefixTurn advances_prefixTurn ()) := inferInstance
        exact (hcites.cites e hc).imp_right hback
      · have hback₂ : k₂.Supplies c → k.Supplies c := fun h =>
          hback (hturns.supplies k₁ (by rwa [e₂]))
        rw [get_bind] at e
        split at e
        · rename_i hcolon
          obtain ⟨d, hd⟩ := (next_of_prefixTurns e₂).resolve_left (by simpa using hcolon)
          refine .inr (hback₂ (.inr ?_))
          rw [nextOrEnd, bind_assoc, bind_eq (look_eq k₂), hd] at e
          cases e
          cases hc
          exact List.mem_of_mem_head? hd
        · have hrest : Cites known (if Name.isPrefix k₂.value = true then emit .prefixName
              else invalidForm "Prefix" k₂.text) := inferInstance
          exact (hrest.cites e hc).imp_right hback₂

end Next

end Scan

/-! ## Formats -/

open Scan

section Formats

variable {known : List Char}

namespace Graph

instance cites_checkGraph (format : LineFormat) : Cites known format.checkGraph := by
  unfold LineFormat.checkGraph
  infer_instance

instance cites_lineDatatype : Cites known LineFormat.datatype := by
  unfold LineFormat.datatype
  infer_instance

instance cites_lineLiteral : Cites known LineFormat.literal := by
  unfold LineFormat.literal
  infer_instance

namespace Turtle

variable (t : Turtle)

instance cites_referenceRest : Cites known referenceRest := by
  unfold referenceRest
  infer_instance

instance cites_referenceOrArrow : Cites known t.referenceOrArrow := by
  unfold referenceOrArrow
  infer_instance

instance cites_hat (previous : Option Kind) (c : Char) :
    Cites (c :: known) (hat previous c) := by
  unfold hat
  infer_instance

instance cites_equals : Cites known t.equals := by
  unfold equals
  infer_instance

instance cites_brace (kind : Kind) (c : Char) : Cites (c :: known) (t.brace kind c) := by
  unfold brace
  infer_instance

instance cites_bareWord (word : List Char) : Cites known (t.bareWord word) := by
  unfold bareWord
  infer_instance

instance cites_name : Cites known t.name := by
  unfold name
  infer_instance

end Turtle

namespace Notation3

variable (v : Vocabulary)

instance cites_gapTurn (u : Unit) : Cites known (gapTurn u) := by
  unfold gapTurn
  infer_instance

/-- Behind the gap in a declaration something comes next. -/
theorem next_of_gapTurns {k left : Cursor} {u : Unit}
    (e : iterate gapTurn advances_gapTurn () k = .ok u left) : ∃ c, left.ahead.head? = some c := by
  refine iterate_induction (h := advances_gapTurn)
    (P := fun _ _ r => ∀ u left, r = .ok u left → ∃ c, left.ahead.head? = some c)
    ?_ ?_ ?_ () k u left e
  · intro _ k _ left r _ ih
    exact ih
  · rintro _ k _ left e _ _ ⟨⟩
    rcases look_bind_ok e with ⟨k₁, r₁, -, e⟩ | ⟨d, k₁, r₁, hd, e⟩
    · exact absurd e unexpectedEnd_ne_ok
    · dsimp only at e
      split at e
      · cases e
      · split at e
        · obtain ⟨_, _, -, e⟩ := bind_ok e
          cases e
        · cases e
          exact ⟨d, hd⟩
  · intro _ k fault left _ u left' hr
    cases hr

instance cites_declaration : Cites known declaration where
  cites {k left fault c} e hc := by
    have hturns : Composed true (iterate gapTurn advances_gapTurn ()) := inferInstance
    rcases error_of_bind e with e | ⟨_, k₁, e₁, e⟩
    · have hcites : Cites known (iterate gapTurn advances_gapTurn ()) := inferInstance
      exact hcites.cites e hc
    · have hback : k₁.Supplies c → k.Supplies c := fun h => hturns.supplies k (by rwa [e₁])
      obtain ⟨d, hd⟩ := next_of_gapTurns e₁
      have hk₁ : k₁.fresh.ahead.head? = some d := hd
      have hrest : Cites [d] (if d == '.' then single .dot else do
          consumeWhile Name.isInner
          if (← get).isEmpty then
            unexpectedCharacter d "a keyword name in a @keywords directive"
          else
            emit .keywordDefinition : Scan Token) := inferInstance
      have hstart : startToken k₁ = .ok () k₁.fresh := rfl
      have hnext : nextOrEnd k₁.fresh = .ok d k₁.fresh.looked := by
        rw [nextOrEnd, bind_eq (look_eq _), hk₁]
        rfl
      rw [bind_eq hstart, bind_eq hnext] at e
      right
      apply hback
      rcases hrest.cites e hc with h | h
      · rw [List.mem_singleton.1 h]
        exact .inr (List.mem_of_mem_head? hd)
      · exact h.imp_right fun h => by rwa [Cursor.ahead_looked] at h

instance cites_referenceOrArrow : Cites known referenceOrArrow := by
  unfold referenceOrArrow
  infer_instance

instance cites_equals : Cites known equals := by
  unfold equals
  infer_instance

instance cites_hat (previous : Option Kind) : Cites known (hat previous) := by
  unfold hat
  infer_instance

instance cites_variableName : Cites known variableName := by
  unfold variableName
  infer_instance

instance cites_bareWord (word : List Char) : Cites known (bareWord v word) := by
  unfold bareWord
  infer_instance

instance cites_name : Cites known (name v) := by
  unfold name
  infer_instance

end Notation3

end Graph

namespace Query.Sparql

variable (q : Sparql)

instance cites_checkLevel (k : Keyword) : Cites known (q.checkLevel k) := by
  unfold checkLevel
  infer_instance

instance cites_checkScope (k : Keyword) : Cites known (q.checkScope k) := by
  unfold checkScope
  split <;> infer_instance

instance cites_keyword (k : Keyword) : Cites known (q.keyword k) := by
  unfold keyword
  infer_instance

instance cites_base : Cites known q.base := by
  unfold base
  infer_instance

instance cites_prologueWord (word : List Char) : Cites known (q.prologueWord word) := by
  unfold prologueWord
  split
  · infer_instance
  · split
    · infer_instance
    · split <;> infer_instance

instance cites_prologue (previous : Option Kind) (c : Char) :
    Cites (c :: known) (q.prologue previous c) := by
  unfold prologue
  infer_instance

instance cites_spaceTurn (seen : Bool) : Cites known (spaceTurn seen) := by
  unfold spaceTurn
  infer_instance

instance cites_twoWords (seconds : List (String × Keyword)) : Cites known (q.twoWords seconds) := by
  refine .ask fun k => Cites.bind inferInstance fun spaced => .ask fun k =>
    Cites.bind inferInstance fun _ => .ask fun k => ?_
  dsimp only
  split <;> infer_instance

instance cites_bareWord (word : List Char) : Cites known (q.bareWord word) := by
  unfold bareWord
  repeat' split
  all_goals infer_instance

instance cites_name : Cites known q.name := by
  unfold name
  infer_instance

instance cites_assignmentOrName : Cites known q.assignmentOrName := by
  unfold assignmentOrName
  infer_instance

instance cites_numericTurn (s : Gathered) : Cites known (numericTurn s) := by
  unfold numericTurn
  infer_instance

instance cites_numericToken : Cites known q.numericToken := by
  unfold numericToken
  infer_instance

instance cites_numberOrSign : Cites known q.numberOrSign := by
  unfold numberOrSign
  infer_instance

instance cites_oneOrTwo (second : Char) (double single : Kind) :
    Cites known (oneOrTwo second double single) := by
  unfold oneOrTwo
  infer_instance

instance cites_referenceOrLess : Cites known referenceOrLess := by
  unfold referenceOrLess
  infer_instance

instance cites_hat (previous : Option Kind) : Cites known (hat previous) := by
  unfold hat
  infer_instance

/-- Behind a question mark nothing has to come. -/
instance cites_variableName : Cites known (variableName '?') := by
  refine cites_gatherVariable.bind fun _ => .ask fun k => ?_
  split
  · rw [if_pos (by decide)]
    infer_instance
  · infer_instance

end Query.Sparql

namespace Table

instance cites_bareTurn (u : Unit) : Cites known (Csv.bareTurn u) := by
  unfold Csv.bareTurn
  infer_instance

instance cites_bareField : Cites known Csv.bareField := by
  unfold Csv.bareField
  infer_instance

instance cites_markTurn : Cites known Csv.markTurn := by
  unfold Csv.markTurn
  infer_instance

instance cites_quotedTurn (u : Unit) : Cites known (Csv.quotedTurn u) := by
  unfold Csv.quotedTurn
  infer_instance

instance cites_quotedField : Cites known Csv.quotedField := by
  unfold Csv.quotedField
  infer_instance

instance cites_recordEnd : Cites known Csv.recordEnd := by
  unfold Csv.recordEnd
  infer_instance

instance cites_csvDispatch (c : Char) : Cites known (Csv.dispatch c) := by
  unfold Csv.dispatch
  infer_instance

instance cites_csvRead : Cites known Csv.read := by
  unfold Csv.read tokenHere
  infer_instance

instance cites_discardSpaces : Cites known Tsv.discardSpaces := by
  unfold Tsv.discardSpaces
  infer_instance

instance cites_literalTurn (u : Unit) : Cites known (Tsv.literalTurn u) := by
  unfold Tsv.literalTurn
  infer_instance

instance cites_literal : Cites known Tsv.literal := by
  unfold Tsv.literal
  infer_instance

instance cites_variableName : Cites known Tsv.variableName := by
  unfold Tsv.variableName
  infer_instance

instance cites_name : Cites known Tsv.name := by
  unfold Tsv.name
  infer_instance

end Table

end Formats

end TripleLex

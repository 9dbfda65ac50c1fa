import TripleLex.Proofs.AfterFaults
import TripleLex.Proofs.BrokenSources
import TripleLex.Proofs.Cites
import TripleLex.Proofs.Mirrors

/-!
# Giving back what was consumed

A cursor knows one place behind its own, where its token ends. Consuming a character leaves there
the place that it is consumed at, and giving it back returns there. So one undoes the other for
every character: a line end, the first one of a token, one that waited to be read again. The end
of the token before is not known again and only guessed, but consuming the character once more
sets it, and leaves what consuming it once has left.

A character cannot be given back while another one waits, nor where the token has no text. Then
the fault closes the source. Whether it had been closed before depends on all that was done with
the cursor: whatever that was, a cursor that takes its source for closed has one that gives
nothing any more.

## Main results

* `Cursor.Consumed.again`, `Cursor.restored_givenBack` — the two directions.
* `Scan.backtrack_cases` — all that giving back can come to.
* `Cursor.standing_used` — how often the source is closed behind any operations.
* `Cursor.consumption_undone` — all of it.
-/

namespace TripleLex

open Input (Source)
open Scan (Composed Leaves leftBy)

namespace Cursor

/-! ## Operations -/

/-- What is asked of a cursor. -/
inductive Operation where
  /-- The next character, or whether there is none. -/
  | look
  /-- Whether this character comes next. -/
  | nextIs (c : Char)
  /-- The next character, for the token. -/
  | consume
  /-- The next character for the token, if there is one. -/
  | consumeUnlessEnd
  /-- The next character. -/
  | skip
  /-- A line end, which is kept or not. -/
  | consumeLineEnd (keep allowEnd : Bool)
  /-- To pass over blank characters and start a token. -/
  | discardBlank
  /-- To give the last character of the token back. -/
  | backtrack
  /-- To add to the token what was not read for it. -/
  | push (c : Char)
  | append (cs : List Char)
  /-- To decode an escape, or to read one that stays as it is written. -/
  | decodeEscape (context : EscapeContext)
  | readLocalEscape
  /-- To start a token, or to make one. -/
  | startToken
  | emit (kind : Kind)
  | emitAs (kind : Kind) (text : String)
  | emitBare (kind : Kind)
  | emitEnding
  /-- To remember the kind of the token before. -/
  | setPrevious (kind : Kind)
  /-- To close the source, or to fail for what broke it off. -/
  | close
  | failIfBroken
  /-- To fail. -/
  | violation (message : String)
  | unexpectedCharacter (found : Char) (expected : String)
  | unexpectedEnd (expected : String)
  | unexpectedLineEnd (expected : String)
  | unexpectedToken (expected : String) (found : Token)
  | invalidForm (production value : String)
  | malformedEscape (message : String)
  | malformedUnicodeEscape (message : String)
  | misuse (message : String)
  deriving DecidableEq, Repr

/-- What an operation does; what it answers is not kept. -/
def Operation.scan : Operation → Scan Unit
  | look => discard Scan.look
  | nextIs c => discard (Scan.nextIs c)
  | consume => discard Scan.consume
  | consumeUnlessEnd => discard Scan.consumeUnlessEnd
  | skip => discard Scan.skip
  | consumeLineEnd keep allowEnd => Scan.consumeLineEnd keep allowEnd
  | discardBlank => Scan.discardBlank
  | backtrack => Scan.backtrack
  | push c => Scan.push c
  | append cs => Scan.append cs
  | decodeEscape context => Scan.decodeEscape context
  | readLocalEscape => Scan.readLocalEscape
  | startToken => Scan.startToken
  | emit kind => discard (Scan.emit kind)
  | emitAs kind text => discard (Scan.emitAs kind text)
  | emitBare kind => discard (Scan.emitBare kind)
  | emitEnding => discard Scan.emitEnding
  | setPrevious kind => Scan.setPrevious kind
  | close => Scan.close
  | failIfBroken => Scan.failIfBroken
  | violation message => Scan.violation message
  | unexpectedCharacter found expected => Scan.unexpectedCharacter found expected
  | unexpectedEnd expected => Scan.unexpectedEnd expected
  | unexpectedLineEnd expected => Scan.unexpectedLineEnd expected
  | unexpectedToken expected found => Scan.unexpectedToken expected found
  | invalidForm production value => Scan.invalidForm production value
  | malformedEscape message => Scan.malformedEscape message
  | malformedUnicodeEscape message => Scan.malformedUnicodeEscape message
  | misuse message => Scan.misuse message

/-- The cursor that an operation leaves, whether it fails or not. -/
def use (k : Cursor) (o : Operation) : Cursor := leftBy (o.scan k)

/-- The cursor that operations leave, one after another. -/
def used (k : Cursor) (operations : List Operation) : Cursor := operations.foldl use k

/-! ## Consuming and giving back -/

variable {k : Cursor} {c : Char} {cs written : List Char}

/-- The last character of the token can be given back, and stood where the token ends. -/
structure Consumed (k : Cursor) (c : Char) (written : List Char) : Prop where
  pending : k.pending = none
  written : k.written = c :: written
  here : k.here = k.last.after c

theorem consumed_moved (k : Cursor) (c : Char) : ((k.moved c).push c).Consumed c k.written :=
  ⟨k.pending_taken, congrArg (c :: ·) k.same_taken.written, rfl⟩

/-- A character that was given back and is consumed once more leaves no trace. -/
theorem Consumed.again (h : k.Consumed c written) :
    ((k.givenBack c written).moved c).push c = k := by
  -- The character waits, so that the source is not asked for it.
  have hagain : ((k.givenBack c written).moved c).push c =
      { k with pending := none, written := c :: written, here := k.last.after c } := rfl
  rw [hagain, ← h.pending, ← h.written, ← h.here]

/-- A cursor that stands where another one stood, with its token before it and the same to be
read. -/
structure Restored (k back : Cursor) : Prop where
  written : back.written = k.written
  here : back.here = k.here
  ahead : back.ahead = k.ahead
  breaks : back.source.breaks = k.source.breaks
  start : back.start = k.start
  previous : back.previous = k.previous
  isClosed : back.isClosed = k.isClosed

/-- A character that was consumed and is given back is to be read as before. -/
theorem restored_givenBack (h : k.ahead = c :: cs) :
    k.Restored (((k.moved c).push c).givenBack c k.written) where
  written := rfl
  here := rfl
  ahead := by
    rw [ahead_givenBack (consumed_moved k c).pending, ahead_push, ahead_moved, h]
    rfl
  breaks := k.breaks_taken
  start := k.same_taken.start
  previous := k.same_taken.previous
  isClosed := (retains_taken k : k.Retains false k.taken).isClosed

/-- Where the token ended before is not known again: of a token that ends in a line end it is
guessed that it ends on the line below. -/
example :
    let k := (ofSource (.ofText "a\nb")).used [.consume, .consume]
    k.last = ⟨1, 2⟩ ∧ (k.used [.consume, .backtrack]).last = ⟨2, 1⟩ := by
  decide +kernel

/-! ## Misuse -/

/-- A cursor that a misuse has left: it differs in nothing but that its source is closed, and
gives nothing. -/
structure Spoilt (k left : Cursor) : Prop extends k.Same left where
  pending : left.pending = k.pending
  isClosed : left.isClosed = true
  released : left.source.IsReleased

theorem same_close (k : Cursor) : k.Same k.close := by
  unfold close
  split <;> exact ⟨rfl, rfl, rfl, rfl, rfl⟩

end Cursor

namespace Scan

variable {α : Type} {k : Cursor}

/-- The last character of the token is given back unless one waits already; otherwise the cursor
was misused. -/
theorem backtrack_cases (k : Cursor) :
    (∃ c written, k.pending = none ∧ k.written = c :: written ∧
      backtrack k = .ok () (k.givenBack c written)) ∨
    ((k.pending ≠ none ∨ k.written = []) ∧
      ∃ message, backtrack k = .error (.misuse message k.faultSpan) k.close) := by
  unfold backtrack
  rw [get_bind]
  cases k.pending with
  | some d => exact .inr ⟨.inl nofun, _, rfl⟩
  | none =>
    cases k.written with
    | nil => exact .inr ⟨.inr rfl, _, rfl⟩
    | cons c written => exact .inl ⟨c, written, rfl, rfl, rfl⟩

theorem refused_backtrack (h : k.pending ≠ none ∨ k.written = []) :
    ∃ message, backtrack k = .error (.misuse message k.faultSpan) k.close := by
  rcases backtrack_cases k with ⟨c, written, hpending, hwritten, -⟩ | ⟨-, hrefused⟩
  · rcases h with h | h
    · exact absurd hpending h
    · rw [hwritten] at h
      cases h
  · exact hrefused

theorem discard_eq (m : Scan α) : discard m = (m >>= fun _ => pure ()) := by
  funext k
  rfl

instance composed_discard (m : Scan α) [Composed false m] : Composed false (discard m) := by
  rw [discard_eq]
  infer_instance

end Scan

namespace Cursor

open Lexer (Standing)
open Scan (backtrack backtrack_cases consume consume_cons exists_of_consume)

/-! ## How a cursor stands behind operations -/

section Standing

variable {α : Type} {k : Cursor} {closings : Nat} {faulty : Bool}

/-- A source that the cursor takes for closed has been closed, so that it need not be closed now. -/
theorem spoilt_close (h : Standing closings faulty k) : k.Spoilt k.close where
  toSame := k.same_close
  pending := k.pending_close
  isClosed := k.isClosed_close
  released := h.close.released rfl

theorem standing_leftBy {r : EStateM.Result Fault Cursor α} (h : Standing closings faulty k)
    (hr : Leaves false k r) : ∃ faulty, Standing closings faulty (leftBy r) := by
  cases hr with
  | ok hleft => exact ⟨faulty, h.retained hleft⟩
  | error hleft => exact ⟨true, (h.retained hleft).close⟩

theorem standing_backtrack (h : Standing closings faulty k) :
    ∃ faulty, Standing closings faulty (leftBy (backtrack k)) := by
  rcases backtrack_cases k with ⟨c, written, -, -, e⟩ | ⟨-, message, e⟩
  · rw [e]
    exact ⟨faulty, h.isClosed, h.closings, h.released⟩
  · rw [e]
    exact ⟨true, h.close⟩

/-- One operation: it is put together from single steps, gives a character back or closes. -/
theorem standing_use (h : Standing closings faulty k) (o : Operation) :
    ∃ faulty, Standing closings faulty (k.use o) := by
  cases o with
  | backtrack => exact standing_backtrack h
  | close => exact ⟨true, h.close⟩
  | _ =>
    refine standing_leftBy h (Composed.leaves ?_ k)
    unfold Operation.scan
    infer_instance

/-- Any operations. -/
theorem standing_used (h : Standing closings faulty k) (operations : List Operation) :
    ∃ faulty, Standing closings faulty (k.used operations) := by
  induction operations generalizing k faulty with
  | nil => exact ⟨faulty, h⟩
  | cons o operations ih =>
    obtain ⟨faulty, hk⟩ := standing_use h o
    exact ih hk

end Standing

/-- Whatever was done with a cursor, a character that is consumed can be given back. The cursor
then stands where it stood, with its token before it and the same to be read, and consuming
once more yields the same character and leaves the same cursor. A character cannot be given back
while another one waits, nor where the token has no text: that is a misuse, which leaves the
token, the places and the character that waits as they are, and the source closed, once. -/
theorem consumption_undone (source : Source) (operations : List Operation) :
    let k := (ofSource source).used operations
    (∀ c left, consume k = .ok c left →
      ∃ back, backtrack left = .ok () back ∧ k.Restored back ∧ consume back = .ok c left) ∧
    (k.pending ≠ none ∨ k.written = [] →
      ∃ message left, backtrack k = .error (.misuse message k.faultSpan) left ∧
        k.Spoilt left ∧ left.source.closings = source.closings + 1) := by
  intro k
  constructor
  · intro c left e
    obtain ⟨cs, hahead, rfl⟩ := exists_of_consume e
    have hconsumed := k.consumed_moved c
    have hback := restored_givenBack hahead
    refine ⟨_, Scan.backtrack_eq hconsumed.pending hconsumed.written, hback, ?_⟩
    rw [consume_cons (hback.ahead.trans hahead), hconsumed.again]
  · intro hrefused
    have hstart : Standing source.closings false (ofSource source) := ⟨rfl, rfl, nofun⟩
    obtain ⟨faulty, hk⟩ := standing_used hstart operations
    obtain ⟨message, e⟩ := Scan.refused_backtrack hrefused
    exact ⟨message, _, e, spoilt_close hk, hk.close.closings⟩

/-- A line end waits to be read again behind a character that was skipped, and a fault has closed
the source. -/
theorem consumption_undone_line_end :
    let k := (ofSource (.ofText "a\nb")).used [.skip, .consume, .backtrack, .violation "stop"]
    k.pending = some '\n' ∧ k.here = ⟨1, 2⟩ ∧
    (∃ left back, consume k = .ok '\n' left ∧ left.here = ⟨2, 1⟩ ∧ backtrack left = .ok () back ∧
      back.written = [] ∧ back.here = ⟨1, 2⟩ ∧ back.ahead = ['\n'] ∧
      consume back = .ok '\n' left) ∧
    (∃ message left, backtrack k = .error (.misuse message ⟨1, 1, 1, 2⟩) left ∧
      left.pending = some '\n' ∧ left.here = ⟨1, 2⟩ ∧ left.source.closings = 1 ∧
      left.source.read.1 = none) := by
  intro k
  have hpending : k.pending = some '\n' := by decide +kernel
  have hahead : k.ahead = ['\n'] := by decide +kernel
  obtain ⟨hundone, hrefused⟩ := consumption_undone (.ofText "a\nb")
    [.skip, .consume, .backtrack, .violation "stop"]
  refine ⟨hpending, by decide +kernel, ?_, ?_⟩
  · obtain ⟨back, e, hback, hagain⟩ := hundone '\n' _ (consume_cons hahead)
    exact ⟨_, back, consume_cons hahead, by decide +kernel, e, hback.written, hback.here,
      hback.ahead.trans hahead, hagain⟩
  · have hwaits : k.pending ≠ none := by
      rw [hpending]
      nofun
    obtain ⟨message, left, e, hleft, hclosings⟩ := hrefused (.inl hwaits)
    exact ⟨message, left, e, hleft.pending.trans hpending, hleft.here, hclosings,
      congrArg Prod.fst hleft.released.stays.2.1⟩

end Cursor

end TripleLex

import TripleLex.Lexer

/-!
# Queues of tokens

A queue hands tokens out one at a time, shows the next one before it is taken,
and leaves comments out. The token after all text is handed out once; a fault is
handed out once, in its place, and both end the queue. A fault that is only
looked at is gone as well.

`Buffered` reads everything when it is started. `Background` is fed by a worker
through a channel of bounded size; worker and consumer take turns in any order,
and the consumer waits for the worker where the channel is empty.
-/

namespace TripleLex.Queue

/-- What a queue answers: a token, nothing, or a fault. -/
abbrev Answer := Except Fault (Option Token)

/-- Whether an item is left out. -/
def isDropped : Item → Bool
  | .ok t => t.isComment
  | .error _ => false

/-- An item as an answer. -/
def answer : Item → Answer
  | .ok t => .ok (some t)
  | .error fault => .error fault

/-- What is asked of a queue. -/
inductive Call where
  /-- To be ready. -/
  | start
  /-- To show the next token. -/
  | peek
  /-- To hand the next token out. -/
  | dequeue
  deriving DecidableEq, Repr

/-! ## Buffered queues -/

/-- A queue that reads everything when it is started. -/
structure Buffered where
  /-- The lexer, until the queue is started. -/
  lexer : Option Lexer
  /-- What is still to be handed out. -/
  items : List Item

namespace Buffered

/-- A queue of a lexer's tokens. -/
def ofLexer (l : Lexer) : Buffered := ⟨some l, []⟩

/-- The queue, started. -/
def start (q : Buffered) : Buffered :=
  match q.lexer with
  | some l => ⟨none, l.tokens.filter fun item => !isDropped item⟩
  | none => q

/-- Hands the next token out. -/
def dequeue (q : Buffered) : Answer × Buffered :=
  match q.start.items with
  | item :: rest => (answer item, { q.start with items := rest })
  | [] => (.ok none, q.start)

/-- Shows the next token; a fault is handed out. -/
def peek (q : Buffered) : Answer × Buffered :=
  match q.start.items with
  | .ok t :: _ => (.ok (some t), q.start)
  | .error fault :: rest => (.error fault, { q.start with items := rest })
  | [] => (.ok none, q.start)

/-- Answers a call. -/
def call (q : Buffered) : Call → Answer × Buffered
  | .start => (.ok none, q.start)
  | .peek => q.peek
  | .dequeue => q.dequeue

/-- How many items are still to be handed out. -/
def remaining (q : Buffered) : Nat := q.items.length

end Buffered

/-! ## Background queues -/

/-- A queue that is fed by a worker. -/
structure Background where
  /-- The lexer, until the worker is started. -/
  lexer : Option Lexer
  /-- What the worker has still to read, once it is started. -/
  worker : Option (List Item)
  /-- How many items the channel holds at most. -/
  capacity : Nat
  /-- What the worker has sent and the consumer has not received. -/
  channel : List Item
  /-- What the consumer has received and not handed out. -/
  lookahead : Option Item
  /-- Whether the consumer has received the last item. -/
  isFinished : Bool

namespace Background

/-- How many items a channel holds where nothing is said. -/
def standardCapacity : Nat := 1024

/-- A queue of a lexer's tokens; a channel holds one item at least. -/
def ofLexer (l : Lexer) (capacity : Nat) : Background :=
  ⟨some l, none, max capacity 1, [], none, false⟩

/-- Whether the worker was started. -/
def isRunning (q : Background) : Bool := q.worker.isSome

/-- The queue with its worker started. -/
def start (q : Background) : Background :=
  match q.lexer with
  | some l => { q with lexer := none, worker := some l.tokens }
  | none => q

/-- One step of the worker: it reads an item and sends it unless it is left out.
It waits where the channel is full. -/
def work (q : Background) : Background :=
  match q.worker with
  | some (item :: rest) =>
    if isDropped item then { q with worker := some rest }
    else if q.channel.length < q.capacity then
      { q with worker := some rest, channel := q.channel ++ [item] }
    else q
  | _ => q

/-- What the worker sends next if the consumer waits for it, and what it has
then still to read. -/
def awaitItem : List Item → Option (Item × List Item)
  | [] => none
  | item :: rest => if isDropped item then awaitItem rest else some (item, rest)

/-- Receives the next item of the channel, waiting for the worker where there is
none. Nothing is received once the worker is at its end. -/
def receive (q : Background) : Option Item × Background :=
  match q.channel with
  | item :: rest => (some item, { q with channel := rest })
  | [] =>
    match awaitItem (q.worker.getD []) with
    | some (item, rest) => (some item, { q with worker := some rest })
    | none => (none, { q with worker := q.worker.map fun _ => [] })

/-- The queue, started, with the next item received if it was not and there is
one. -/
def fill (q : Background) : Background :=
  let q := q.start
  if q.lookahead.isSome || q.isFinished then q
  else
    match q.receive with
    | (some item, q) => { q with lookahead := some item, isFinished := Lexer.isLast item }
    | (none, q) => { q with isFinished := true }

/-- Hands the next token out. -/
def dequeue (q : Background) : Answer × Background :=
  match q.fill.lookahead with
  | some item => (answer item, { q.fill with lookahead := none })
  | none => (.ok none, q.fill)

/-- Shows the next token; a fault is handed out. -/
def peek (q : Background) : Answer × Background :=
  match q.fill.lookahead with
  | some (.ok t) => (.ok (some t), q.fill)
  | some (.error fault) => (.error fault, { q.fill with lookahead := none })
  | none => (.ok none, q.fill)

/-- Answers a call. -/
def call (q : Background) : Call → Answer × Background
  | .start => (.ok none, q.start)
  | .peek => q.peek
  | .dequeue => q.dequeue

end Background

end TripleLex.Queue

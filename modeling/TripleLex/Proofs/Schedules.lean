import TripleLex.Proofs.Queues

/-!
# Queues under every schedule

A consumer whose next item is not there waits for the worker. A session puts the
two beside each other: the worker takes a step, the consumer begins a call, or
the call that is under way is answered, which it is not before an item is there
or the worker is done. A list of moves is a schedule; a move that is not possible
does nothing.

Whatever the schedule, the calls that were answered so far were answered as the
items of the lexer would have it (`Session.Agrees`), so that nobody can tell a
background queue from one that reads everything at once. Nor does a consumer wait
for ever: the channel is empty while it waits, and an empty channel does not hold
the worker up.

## Main results

* `Session.after_agrees` — the invariant.
* `Session.served` — no call waits for ever.
* `queues_agree` — all of it, with the order of what is handed out.
-/

namespace TripleLex.Queue

namespace Background

/-- Whether a call can be answered without waiting for the worker. -/
def isReady (q : Background) (c : Call) : Bool :=
  c == .start || q.lookahead.isSome || q.isFinished || !q.channel.isEmpty ||
    q.worker.any List.isEmpty

variable {q : Background} {c : Call}

/-- A call that need not wait need not do so once the worker works on. -/
theorem isReady_work (h : q.isReady c = true) : q.work.isReady c = true := by
  rcases q.work_cases with ⟨item, rest, hw, -, hq⟩ | ⟨item, rest, hw, -, -, hq⟩ | ⟨hq, -⟩
  · rw [hq]
    simp only [isReady, hw, Option.any_some, List.isEmpty_cons, Bool.or_false] at h ⊢
    rw [h, Bool.true_or]
  · rw [hq]
    simp [isReady]
  · rwa [hq]

/-- A consumer waits before an empty channel, for a worker that has items to
read. -/
theorem waits (h : q.Sound) (hl : q.lexer = none) (hc : ¬q.isReady c = true) :
    q.channel = [] ∧ ∃ item rest, q.worker = some (item :: rest) := by
  simp only [isReady, Bool.or_eq_true, not_or] at hc
  obtain ⟨⟨-, hchannel⟩, hworker⟩ := hc
  refine ⟨by simpa using hchannel, ?_⟩
  have hrunning := h.running hl
  unfold isRunning at hrunning
  cases hw : q.worker with
  | none =>
    rw [hw] at hrunning
    cases hrunning
  | some items =>
    cases items with
    | nil => exact absurd (by rw [hw]; rfl) hworker
    | cons item rest => exact ⟨item, rest, rfl⟩

/-- An empty channel does not hold the worker up. -/
theorem worker_work {item : Item} {rest : List Item} (h : q.Sound) (hc : q.channel = [])
    (hw : q.worker = some (item :: rest)) : q.work.worker = some rest := by
  rcases q.work_cases with ⟨_, _, hw', -, hq⟩ | ⟨_, _, hw', -, -, hq⟩ | ⟨-, hfull⟩
  · rw [hw] at hw'
    cases hw'
    rw [hq]
  · rw [hw] at hw'
    cases hw'
    rw [hq]
  · have hle := (hfull item rest hw).2
    have hpos := h.capacity
    rw [hc, List.length_nil] at hle
    omega

/-- How many items the worker has still to read. -/
def unread (q : Background) : Nat := (q.worker.getD []).length

end Background

/-! ## Sessions -/

/-- A background queue in use. -/
structure Session where
  queue : Background
  /-- The call that is under way. -/
  asked : Option Call
  /-- The calls that were answered, with their answers. -/
  log : List (Call × Answer)

/-- What may happen next. -/
inductive Move where
  /-- The worker takes a step. -/
  | work
  /-- The consumer begins a call. -/
  | ask (c : Call)
  /-- The call that is under way is answered. -/
  | serve
  deriving DecidableEq, Repr

namespace Session

/-- A queue that nobody has called. -/
def ofQueue (q : Background) : Session := ⟨q, none, []⟩

/-- The session after a move. A call begins by starting the worker; it is
answered when it need not wait. -/
def move (s : Session) : Move → Session
  | .work => { s with queue := s.queue.work }
  | .ask c =>
    match s.asked with
    | none => { s with queue := s.queue.start, asked := some c }
    | some _ => s
  | .serve =>
    match s.asked with
    | none => s
    | some c =>
      if s.queue.isReady c then
        ⟨(s.queue.call c).2, none, s.log ++ [(c, (s.queue.call c).1)]⟩
      else s

/-- The session after moves. -/
def after (s : Session) (moves : List Move) : Session := moves.foldl move s

variable {s : Session} {c : Call}

theorem after_cons (s : Session) (m : Move) (moves : List Move) :
    s.after (m :: moves) = (s.move m).after moves := rfl

theorem move_serve_of_ready (ha : s.asked = some c) (hr : s.queue.isReady c = true) :
    s.move .serve = ⟨(s.queue.call c).2, none, s.log ++ [(c, (s.queue.call c).1)]⟩ := by
  simp only [move, ha, hr]
  rfl

theorem move_serve_of_not_ready (ha : s.asked = some c) (hr : ¬s.queue.isReady c = true) :
    s.move .serve = s := by
  simp only [move, ha, hr]
  rfl

theorem move_ask_of_asked (ha : s.asked = some c) (d : Call) : s.move (.ask d) = s := by
  simp only [move, ha]

/-! ## Every schedule -/

/-- A session is as the calls in its log would have it, by the items that were
due before all of them. -/
structure Agrees (items : List Item) (s : Session) : Prop where
  sound : s.queue.Sound
  log : s.log = logTo items (s.log.map Prod.fst)
  due : s.queue.due = dueBehind items (s.log.map Prod.fst)
  /-- A call that is under way has started the worker. -/
  started : s.asked ≠ none → s.queue.lexer = none

theorem agrees_ofLexer (l : Lexer) (capacity : Nat) :
    Agrees (kept l) (ofQueue (.ofLexer l capacity)) :=
  ⟨Background.sound_ofLexer l capacity, rfl, rfl, fun h => absurd rfl h⟩

/-- A call that is answered is answered by what is due. -/
theorem Agrees.answered {items : List Item} (h : Agrees items s) (c : Call) :
    Agrees items ⟨(s.queue.call c).2, none, s.log ++ [(c, (s.queue.call c).1)]⟩ := by
  obtain ⟨hanswer, hdue, hsound⟩ := Background.call_eq h.sound c
  refine ⟨hsound, ?_, ?_, fun ha => absurd rfl ha⟩
  · show s.log ++ [(c, (s.queue.call c).1)] = logTo items ((s.log ++ [_]).map Prod.fst)
    rw [List.map_append, logTo_append, ← h.log, ← h.due, hanswer]
    rfl
  · show (s.queue.call c).2.due = dueBehind items ((s.log ++ [_]).map Prod.fst)
    rw [List.map_append, dueBehind_append, ← h.due]
    exact hdue

theorem Agrees.move {items : List Item} (h : Agrees items s) (m : Move) :
    Agrees items (s.move m) := by
  cases m with
  | work =>
    refine ⟨h.sound.work, h.log, (Background.due_work h.sound).trans h.due, fun ha => ?_⟩
    exact s.queue.work_keeps.1.trans (h.started ha)
  | ask c =>
    cases ha : s.asked with
    | some d =>
      rw [move_ask_of_asked ha]
      exact h
    | none =>
      have hs : s.move (.ask c) = { s with queue := s.queue.start, asked := some c } := by
        simp only [Session.move, ha]
      rw [hs]
      exact ⟨h.sound.start, h.log, s.queue.due_start.trans h.due, fun _ => s.queue.lexer_start⟩
  | serve =>
    cases ha : s.asked with
    | none =>
      have hs : s.move .serve = s := by
        simp only [Session.move, ha]
      rw [hs]
      exact h
    | some c =>
      by_cases hr : s.queue.isReady c = true
      · rw [move_serve_of_ready ha hr]
        exact h.answered c
      · rw [move_serve_of_not_ready ha hr]
        exact h

/-- Under every schedule the calls are answered as the items would have it. -/
theorem after_agrees {items : List Item} (h : Agrees items s) (moves : List Move) :
    Agrees items (s.after moves) := by
  induction moves generalizing s with
  | nil => exact h
  | cons m moves ih => exact ih (h.move m)

/-! ## No call waits for ever -/

/-- What is in the log stays there. -/
theorem log_move (s : Session) (m : Move) : ∃ more, (s.move m).log = s.log ++ more := by
  unfold move
  split
  · exact ⟨[], (List.append_nil _).symm⟩
  · split <;> exact ⟨[], (List.append_nil _).symm⟩
  · split
    · exact ⟨[], (List.append_nil _).symm⟩
    · split
      · exact ⟨_, rfl⟩
      · exact ⟨[], (List.append_nil _).symm⟩

theorem log_after (s : Session) (moves : List Move) :
    ∃ more, (s.after moves).log = s.log ++ more := by
  induction moves generalizing s with
  | nil => exact ⟨[], (List.append_nil _).symm⟩
  | cons m moves ih =>
    obtain ⟨more, hmore⟩ := s.log_move m
    obtain ⟨rest, hrest⟩ := ih (s.move m)
    refine ⟨more ++ rest, ?_⟩
    rw [← List.append_assoc, ← hmore]
    exact hrest

/-- A call that need not wait is answered at the next turn. -/
theorem served_of_ready (ha : s.asked = some c) (hr : s.queue.isReady c = true)
    (moves : List Move) :
    ∃ a more, (s.after (.serve :: moves)).log = s.log ++ (c, a) :: more := by
  obtain ⟨more, hmore⟩ := log_after (s.move .serve) moves
  refine ⟨(s.queue.call c).1, more, ?_⟩
  rw [after_cons, hmore, move_serve_of_ready ha hr, List.append_assoc]
  rfl

/-- While a call has to wait, the worker has items to read and the channel does
not hold it up. -/
theorem Agrees.waits {items : List Item} (h : Agrees items s) (ha : s.asked = some c)
    (hr : ¬s.queue.isReady c = true) :
    s.queue.channel = [] ∧ ∃ item rest, s.queue.worker = some (item :: rest) :=
  Background.waits h.sound (h.started (by rw [ha]; exact nofun)) hr

/-- The call that is under way is answered, under every schedule, once the
worker has had as many turns as it has items to read and the consumer has had
one after them. -/
theorem served {items : List Item} (h : Agrees items s) (ha : s.asked = some c)
    (moves : List Move)
    (hn : s.queue.isReady c = true ∨ s.queue.unread ≤ moves.count .work) :
    ∃ a more, (s.after (moves ++ [.serve])).log = s.log ++ (c, a) :: more := by
  induction moves generalizing s with
  | nil =>
    by_cases hr : s.queue.isReady c = true
    · exact served_of_ready ha hr []
    · -- The worker has read everything, so that nobody waits for it.
      obtain ⟨-, item, rest, hw⟩ := h.waits ha hr
      rcases hn with hn | hn
      · exact absurd hn hr
      · rw [Background.unread, hw] at hn
        cases hn
  | cons m moves ih =>
    cases m with
    | work =>
      have ha' : (s.move .work).asked = some c := ha
      refine ih (h.move .work) ha' ?_
      by_cases hr : s.queue.isReady c = true
      · exact Or.inl (Background.isReady_work hr)
      · obtain ⟨hc, item, rest, hw⟩ := h.waits ha hr
        rcases hn with hn | hn
        · exact absurd hn hr
        · rw [Background.unread, hw, List.count_cons_self] at hn
          refine Or.inr ?_
          show s.queue.work.unread ≤ _
          rw [Background.unread, Background.worker_work h.sound hc hw]
          exact Nat.le_of_succ_le_succ hn
    | ask d =>
      rw [List.count_cons_of_ne (show Move.ask d ≠ .work from nofun)] at hn
      rw [List.cons_append, after_cons, move_ask_of_asked ha]
      exact ih h ha hn
    | serve =>
      by_cases hr : s.queue.isReady c = true
      · exact served_of_ready ha hr (moves ++ [.serve])
      · rw [List.count_cons_of_ne (show Move.serve ≠ .work from nofun)] at hn
        rw [List.cons_append, after_cons, move_serve_of_not_ready ha hr]
        exact ih h ha hn

end Session

/-! ## Both queues -/

/-- A queue that reads everything at once hands out the items of its lexer but
the comments, in their order, each once, and nothing behind the last of them; a
look shows what is handed out next, and a fault that was looked at is gone. A
queue that is fed by a worker answers the same calls alike, whatever its
capacity and whatever the schedule; and it does answer: where the worker has as
many turns as it has items to read, the call that is under way is answered at the
consumer's next turn. -/
theorem queues_agree (l : Lexer) :
    (∀ calls, handed ((Buffered.ofLexer l).log calls) =
        (List.range (handed ((Buffered.ofLexer l).log calls)).length).map (answerAt (kept l)) ∧
      LooksHold ((Buffered.ofLexer l).log calls)) ∧
    ∀ capacity moves,
      let s := (Session.ofQueue (.ofLexer l capacity)).after moves
      s.log = (Buffered.ofLexer l).log (s.log.map Prod.fst) ∧
      ∀ c, s.asked = some c → ∀ more, s.queue.unread ≤ List.count .work more →
        ∃ a rest, (s.after (more ++ [.serve])).log = s.log ++ (c, a) :: rest := by
  have hlog : ∀ calls, (Buffered.ofLexer l).log calls = logTo (kept l) calls :=
    fun calls => Buffered.log_eq _ calls
  refine ⟨?_, ?_⟩
  · intro calls
    rw [hlog]
    exact ⟨handed_logTo _ calls, looksHold_logTo (kept_endsWithLast l) calls⟩
  · intro capacity moves
    have h := Session.after_agrees (Session.agrees_ofLexer l capacity) moves
    refine ⟨?_, ?_⟩
    · rw [hlog]
      exact h.log
    · intro c ha more hn
      exact Session.served h ha more (Or.inr hn)

/-- A call that comes before anything is read waits for the worker, and is
answered once that has had as many turns as there are items. -/
theorem queues_agree_waiting_call :
    let s := (Session.ofQueue (.ofLexer (.ofText .standard ".") 1)).after [.ask .dequeue]
    s.asked = some .dequeue ∧ s.queue.isReady .dequeue = false ∧ s.queue.unread = 3 ∧
      ∃ a rest, (s.after ([.work, .work, .work] ++ [.serve])).log =
        s.log ++ (.dequeue, a) :: rest := by
  intro s
  have hasked : s.asked = some .dequeue := rfl
  have hwaits : s.queue.isReady .dequeue = false := by decide
  have hunread : s.queue.unread = 3 := by decide
  obtain ⟨-, hschedules⟩ := queues_agree (.ofText .standard ".")
  obtain ⟨-, hanswered⟩ := hschedules 1 [.ask .dequeue]
  exact ⟨hasked, hwaits, hunread,
    hanswered .dequeue hasked [.work, .work, .work] (Nat.le_of_eq hunread)⟩

end TripleLex.Queue

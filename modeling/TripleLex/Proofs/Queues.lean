import TripleLex.Proofs.Progress
import TripleLex.Queue

/-!
# What queues answer

Both queues hand out the items of their lexer that are kept, in order. What a
queue answers depends on nothing but the items that are due: `answerTo` says what
a call is answered with and what is due behind it. For a queue that reads
everything when it is started that is plain. For one that is fed by a worker the
items that are due are spread over the lookahead, the channel and what the worker
has still to read (`Background.due`); the worker moves them on and changes
nothing about them.

## Main results

* `handed_logTo` — the items are handed out in order, each once.
* `looksHold_logTo` — a look and what is answered behind it.
* `Buffered.call_eq`, `Background.call_eq` — both queues answer by `answerTo`.
* `Background.due_work`, `Background.Sound.work` — what the worker may do.
-/

namespace TripleLex.Queue

/-- The items of a lexer that queues hand out. -/
def kept (l : Lexer) : List Item := l.tokens.filter fun item => !isDropped item

/-! ## Answers by the items that are due -/

/-- What a call is answered with where these items are due, and what is due
behind it. -/
def answerTo : List Item → Call → Answer × List Item
  | items, .start => (.ok none, items)
  | [], .peek | [], .dequeue => (.ok none, [])
  | .ok t :: rest, .peek => (.ok (some t), .ok t :: rest)
  | .error fault :: rest, .peek => (.error fault, rest)
  | item :: rest, .dequeue => (answer item, rest)

/-- The calls with their answers, one after another. -/
def logTo : List Item → List Call → List (Call × Answer)
  | _, [] => []
  | items, c :: calls => (c, (answerTo items c).1) :: logTo (answerTo items c).2 calls

/-- What is due behind calls. -/
def dueBehind (items : List Item) (calls : List Call) : List Item :=
  calls.foldl (fun items c => (answerTo items c).2) items

theorem logTo_append (items : List Item) (calls more : List Call) :
    logTo items (calls ++ more) = logTo items calls ++ logTo (dueBehind items calls) more := by
  induction calls generalizing items with
  | nil => rfl
  | cons c calls ih =>
    rw [List.cons_append, logTo, ih, logTo, List.cons_append]
    rfl

theorem map_fst_logTo (items : List Item) (calls : List Call) :
    (logTo items calls).map Prod.fst = calls := by
  induction calls generalizing items with
  | nil => rfl
  | cons c calls ih => rw [logTo, List.map_cons, ih]

theorem dueBehind_append (items : List Item) (calls more : List Call) :
    dueBehind items (calls ++ more) = dueBehind (dueBehind items calls) more :=
  List.foldl_append

/-- Nothing stands behind an item that is last. -/
def EndsWithLast (items : List Item) : Prop :=
  ∀ before item behind, items = before ++ item :: behind → Lexer.isLast item = true → behind = []

theorem EndsWithLast.of_cons {item : Item} {items : List Item}
    (h : EndsWithLast (item :: items)) : EndsWithLast items := by
  intro before last behind hi
  exact h (item :: before) last behind (by rw [hi, List.cons_append])

theorem EndsWithLast.answerTo {items : List Item} (h : EndsWithLast items) (c : Call) :
    EndsWithLast (answerTo items c).2 := by
  cases c with
  | start => exact h
  | peek =>
    cases items with
    | nil => exact h
    | cons item rest =>
      cases item with
      | ok t => exact h
      | error fault => exact h.of_cons
  | dequeue =>
    cases items with
    | nil => exact h
    | cons item rest => exact h.of_cons

theorem EndsWithLast.dueBehind {items : List Item} (h : EndsWithLast items)
    (calls : List Call) : EndsWithLast (dueBehind items calls) := by
  induction calls generalizing items with
  | nil => exact h
  | cons c calls ih => exact ih (h.answerTo c)

theorem not_isDropped_of_isLast {item : Item} (h : Lexer.isLast item = true) :
    isDropped item = false := by
  cases item with
  | error fault => rfl
  | ok t =>
    have hk : t.kind = .ending := beq_iff_eq.1 h
    show (t.kind == .comment) = false
    rw [hk]
    rfl

/-- The items that are kept end with the only one that is last. -/
theorem kept_ends (l : Lexer) : ∃ init last, kept l = init ++ [last] ∧
    Lexer.isLast last = true ∧ ∀ item ∈ init, Lexer.isLast item = false := by
  obtain ⟨init, last, htokens, hlast, hinit, -⟩ := l.tokens_ends
  refine ⟨init.filter fun item => !isDropped item, last, ?_, hlast, ?_⟩
  · rw [kept, htokens, List.filter_append, List.filter_cons, not_isDropped_of_isLast hlast]
    rfl
  · intro item hi
    exact hinit item (List.mem_filter.1 hi).1

theorem kept_endsWithLast (l : Lexer) : EndsWithLast (kept l) := by
  obtain ⟨init, last, hkept, -, hinit⟩ := kept_ends l
  intro before item behind h hitem
  rw [hkept] at h
  rcases List.eq_nil_or_concat behind with hb | ⟨behind', x, hb⟩
  · exact hb
  · -- An item before the end is one of `init`, none of which is last.
    rw [hb, List.concat_eq_append, ← List.cons_append, ← List.append_assoc] at h
    have hmem : item ∈ init := by
      rw [(List.append_inj' h rfl).1]
      exact List.mem_append_right _ List.mem_cons_self
    rw [hinit item hmem] at hitem
    cases hitem

/-! ## What is handed out -/

/-- Whether a call was answered by handing an item out: a call for the next item
is, and so is a look at a fault. -/
def handsOut : Call × Answer → Bool
  | (.dequeue, _) | (_, .error _) => true
  | _ => false

/-- What was handed out. -/
def handed (log : List (Call × Answer)) : List Answer := (log.filter handsOut).map Prod.snd

/-- The answer that hands out the item with a number; there is nothing to hand
out behind the last one. -/
def answerAt (items : List Item) (n : Nat) : Answer := (items[n]?).elim (.ok none) answer

/-- A call hands the first item out or changes nothing. -/
theorem answerTo_cases (items : List Item) (c : Call) :
    (handsOut (c, (answerTo items c).1) = true ∧ (answerTo items c).1 = answerAt items 0 ∧
      (answerTo items c).2 = items.tail) ∨
    (handsOut (c, (answerTo items c).1) = false ∧ (answerTo items c).2 = items) := by
  cases c with
  | start => exact Or.inr ⟨rfl, rfl⟩
  | peek =>
    cases items with
    | nil => exact Or.inr ⟨rfl, rfl⟩
    | cons item rest =>
      cases item with
      | ok t => exact Or.inr ⟨rfl, rfl⟩
      | error fault => exact Or.inl ⟨rfl, rfl, rfl⟩
  | dequeue =>
    cases items with
    | nil => exact Or.inl ⟨rfl, rfl, rfl⟩
    | cons item rest => exact Or.inl ⟨rfl, rfl, rfl⟩

theorem answerAt_succ (items : List Item) (n : Nat) :
    answerAt items (n + 1) = answerAt items.tail n := by
  cases items <;> rfl

/-- The items are handed out in their order, each once, and nothing behind the
last one. -/
theorem handed_logTo (items : List Item) (calls : List Call) :
    handed (logTo items calls) =
      (List.range (handed (logTo items calls)).length).map (answerAt items) := by
  induction calls generalizing items with
  | nil => rfl
  | cons c calls ih =>
    have hnext := ih (answerTo items c).2
    rcases answerTo_cases items c with ⟨hout, hfirst, hrest⟩ | ⟨hout, hrest⟩
    · rw [hrest] at hnext
      have hlog : handed (logTo items (c :: calls)) =
          answerAt items 0 :: handed (logTo items.tail calls) := by
        rw [handed, logTo, List.filter_cons, if_pos hout, List.map_cons, hfirst, hrest]
        rfl
      rw [hlog, List.length_cons, List.range_succ_eq_map, List.map_cons, List.map_map]
      congr 1
      rw [hnext, List.length_map, List.length_range]
      exact List.map_congr_left fun n _ => (answerAt_succ items n).symm
    · rw [hrest] at hnext
      have hlog : handed (logTo items (c :: calls)) = handed (logTo items calls) := by
        rw [handed, logTo, List.filter_cons, hout, hrest]
        rfl
      rw [hlog]
      exact hnext

/-- What a call behind a look is answered with: what was shown, or nothing where
a fault was shown. -/
def answerBehind : Answer → Answer
  | .ok shown => .ok shown
  | .error _ => .ok none

/-- Behind every look the next look, and the next call for an item, is answered
as the look would have it. -/
def LooksHold (log : List (Call × Answer)) : Prop :=
  ∀ before shown starts c a behind,
    log = before ++ (.peek, shown) :: (starts ++ (c, a) :: behind) →
    (∀ entry ∈ starts, entry.1 = .start) → c ≠ .start → a = answerBehind shown

theorem answerTo_nil (c : Call) : (answerTo [] c).1 = .ok none := by cases c <;> rfl

theorem answerTo_token {c : Call} (hc : c ≠ .start) (t : Token) (rest : List Item) :
    (answerTo (.ok t :: rest) c).1 = .ok (some t) := by
  cases c with
  | start => exact absurd rfl hc
  | peek => rfl
  | dequeue => rfl

theorem answerTo_peek {items : List Item} (h : EndsWithLast items) {c : Call}
    (hc : c ≠ .start) :
    (answerTo (answerTo items .peek).2 c).1 = answerBehind (answerTo items .peek).1 := by
  cases items with
  | nil => exact answerTo_nil c
  | cons item rest =>
    cases item with
    | ok t => exact answerTo_token hc t rest
    | error fault =>
      -- A fault is last, so that nothing is due behind it.
      have hrest : rest = [] := h [] _ rest rfl rfl
      rw [hrest]
      exact answerTo_nil c

theorem dueBehind_starts {calls : List Call} (items : List Item) (h : ∀ c ∈ calls, c = .start) :
    dueBehind items calls = items := by
  induction calls with
  | nil => rfl
  | cons c calls ih =>
    rw [h c List.mem_cons_self]
    exact ih fun d hd => h d (List.mem_cons_of_mem _ hd)

/-- Calls and their answers up to a place in a log. -/
theorem logTo_split {items : List Item} {calls : List Call} {before behind : List (Call × Answer)}
    (h : logTo items calls = before ++ behind) :
    behind = logTo (dueBehind items (before.map Prod.fst)) (behind.map Prod.fst) := by
  have hcalls : calls = before.map Prod.fst ++ behind.map Prod.fst := by
    rw [← List.map_append, ← h, map_fst_logTo]
  rw [hcalls, logTo_append] at h
  refine (List.append_inj_right h ?_).symm
  have hlength := congrArg List.length (map_fst_logTo items (before.map Prod.fst))
  rw [List.length_map, List.length_map] at hlength
  exact hlength

theorem looksHold_logTo {items : List Item} (h : EndsWithLast items) (calls : List Call) :
    LooksHold (logTo items calls) := by
  intro before shown starts c a behind hlog hstarts hc
  have hlook := logTo_split hlog
  generalize hdue : dueBehind items (before.map Prod.fst) = due at hlook
  have hends : EndsWithLast due := hdue ▸ h.dueBehind _
  obtain ⟨hshown, hrest⟩ := List.cons.inj hlook
  have hnext := logTo_split hrest.symm
  rw [dueBehind_starts _ (by simpa using hstarts)] at hnext
  have ha := congrArg Prod.snd (List.cons.inj hnext).1
  have hs := congrArg Prod.snd hshown
  dsimp only at ha hs
  rw [ha, hs]
  exact answerTo_peek hends hc

/-! ## Queues that read everything at once -/

namespace Buffered

/-- What is still to be handed out. -/
def due (q : Buffered) : List Item := q.start.items

/-- The calls with their answers, one after another. -/
def log (q : Buffered) : List Call → List (Call × Answer)
  | [] => []
  | c :: calls => (c, (q.call c).1) :: log (q.call c).2 calls

theorem start_start (q : Buffered) : q.start.start = q.start := by
  cases q with
  | mk lexer items => cases lexer <;> rfl

/-- What was started stays so. -/
theorem start_of_items (q : Buffered) (items : List Item) :
    { q.start with items := items }.start = { q.start with items := items } := by
  cases q with
  | mk lexer items => cases lexer <;> rfl

theorem call_eq (q : Buffered) (c : Call) :
    (q.call c).1 = (answerTo q.due c).1 ∧ (q.call c).2.due = (answerTo q.due c).2 := by
  cases c with
  | start =>
    refine ⟨rfl, ?_⟩
    show q.start.start.items = q.start.items
    rw [start_start]
  | peek =>
    unfold call peek due
    cases hi : q.start.items with
    | nil => exact ⟨rfl, by rw [start_start, hi]; rfl⟩
    | cons item rest =>
      cases item with
      | ok t => exact ⟨rfl, by rw [start_start, hi]; rfl⟩
      | error fault => exact ⟨rfl, by rw [start_of_items]; rfl⟩
  | dequeue =>
    unfold call dequeue due
    cases hi : q.start.items with
    | nil => exact ⟨rfl, by rw [start_start, hi]; rfl⟩
    | cons item rest => exact ⟨rfl, by rw [start_of_items]; rfl⟩

theorem log_eq (q : Buffered) (calls : List Call) : q.log calls = logTo q.due calls := by
  induction calls generalizing q with
  | nil => rfl
  | cons c calls ih =>
    obtain ⟨hanswer, hdue⟩ := q.call_eq c
    rw [log, ih, logTo, hanswer, hdue]

end Buffered

/-! ## Queues that are fed by a worker -/

namespace Background

/-- What the worker has still to send. -/
def unsent (q : Background) : List Item :=
  match q.lexer with
  | some l => kept l
  | none => (q.worker.getD []).filter fun item => !isDropped item

/-- What is still to be handed out: what was received, what was sent, and what
the worker has still to send. -/
def due (q : Background) : List Item := q.lookahead.toList ++ (q.channel ++ q.unsent)

/-- A queue as it comes to be by calls and by steps of its worker. -/
structure Sound (q : Background) : Prop where
  ends : EndsWithLast q.due
  finished : q.isFinished = true → q.channel ++ q.unsent = []
  capacity : 0 < q.capacity
  /-- Before it is started nothing is under way. -/
  idle : ∀ l, q.lexer = some l →
    q.worker = none ∧ q.channel = [] ∧ q.lookahead = none ∧ q.isFinished = false
  running : q.lexer = none → q.isRunning = true

variable {q : Background}

theorem sound_ofLexer (l : Lexer) (capacity : Nat) : (ofLexer l capacity).Sound where
  ends := kept_endsWithLast l
  finished := nofun
  capacity := by
    show 0 < max capacity 1
    omega
  idle := fun _ _ => ⟨rfl, rfl, rfl, rfl⟩
  running := nofun

/-- Once it is started, that is what a sound queue comes to. -/
theorem Sound.of_started (hl : q.lexer = none) (hr : q.isRunning = true)
    (he : EndsWithLast q.due) (hf : q.isFinished = true → q.channel ++ q.unsent = [])
    (hc : 0 < q.capacity) : q.Sound where
  ends := he
  finished := hf
  capacity := hc
  idle := by
    intro l h
    rw [hl] at h
    cases h
  running := fun _ => hr

/-- A queue whose worker is there was started. -/
theorem Sound.lexer_eq_none {items : List Item} (h : q.Sound) (hw : q.worker = some items) :
    q.lexer = none := by
  cases hl : q.lexer with
  | none => rfl
  | some l =>
    rw [(h.idle l hl).1] at hw
    cases hw

/-! ### Starting and working -/

theorem lexer_start (q : Background) : q.start.lexer = none := by
  unfold start
  split
  · rfl
  · assumption

theorem due_start (q : Background) : q.start.due = q.due := by
  unfold start
  split
  · rename_i l hl
    show q.lookahead.toList ++ (q.channel ++ kept l) = q.due
    rw [due, unsent, hl]
  · rfl

theorem Sound.start (h : q.Sound) : q.start.Sound := by
  cases hl : q.lexer with
  | none =>
    have hq : q.start = q := by
      unfold Background.start
      rw [hl]
    rw [hq]
    exact h
  | some l =>
    have hends := h.ends
    rw [← q.due_start] at hends
    have hq : q.start = { q with lexer := none, worker := some l.tokens } := by
      unfold Background.start
      rw [hl]
    rw [hq] at hends ⊢
    refine .of_started rfl rfl hends ?_ h.capacity
    intro hf
    have hidle : q.isFinished = false := (h.idle l hl).2.2.2
    rw [show q.isFinished = true from hf] at hidle
    cases hidle

/-- The worker drops an item, sends one, or stays where it is. -/
theorem work_cases (q : Background) :
    (∃ item rest, q.worker = some (item :: rest) ∧ isDropped item = true ∧
      q.work = { q with worker := some rest }) ∨
    (∃ item rest, q.worker = some (item :: rest) ∧ isDropped item = false ∧
      q.channel.length < q.capacity ∧
      q.work = { q with worker := some rest, channel := q.channel ++ [item] }) ∨
    (q.work = q ∧ ∀ item rest, q.worker = some (item :: rest) →
      isDropped item = false ∧ q.capacity ≤ q.channel.length) := by
  unfold work
  split
  · rename_i item rest hw
    split
    · rename_i hd
      exact Or.inl ⟨item, rest, hw, hd, rfl⟩
    · rename_i hd
      split
      · rename_i hlt
        exact Or.inr (Or.inl ⟨item, rest, hw, Bool.eq_false_iff.2 hd, hlt, rfl⟩)
      · rename_i hlt
        refine Or.inr (Or.inr ⟨rfl, ?_⟩)
        intro item' rest' hw'
        rw [hw] at hw'
        cases hw'
        exact ⟨Bool.eq_false_iff.2 hd, Nat.le_of_not_lt hlt⟩
  · rename_i hw
    exact Or.inr (Or.inr ⟨rfl, fun item rest hw' => absurd hw' (hw item rest)⟩)

/-- The worker moves what is due on, and no more. -/
theorem work_moves (h : q.Sound) :
    q.work.channel ++ q.work.unsent = q.channel ++ q.unsent := by
  rcases q.work_cases with ⟨item, rest, hw, hd, hq⟩ | ⟨item, rest, hw, hd, -, hq⟩ | ⟨hq, -⟩
  · rw [hq]
    simp only [unsent, h.lexer_eq_none hw, hw, Option.getD_some, List.filter_cons, hd]
    rfl
  · rw [hq]
    simp only [unsent, h.lexer_eq_none hw, hw, Option.getD_some, List.filter_cons, hd]
    rw [List.append_assoc]
    rfl
  · rw [hq]

/-- Nothing else of the queue changes. -/
theorem work_keeps (q : Background) :
    q.work.lexer = q.lexer ∧ q.work.isRunning = q.isRunning ∧ q.work.lookahead = q.lookahead ∧
      q.work.isFinished = q.isFinished ∧ q.work.capacity = q.capacity := by
  rcases q.work_cases with ⟨_, _, hw, -, hq⟩ | ⟨_, _, hw, -, -, hq⟩ | ⟨hq, -⟩
  · rw [hq]
    exact ⟨rfl, by simp [isRunning, hw], rfl, rfl, rfl⟩
  · rw [hq]
    exact ⟨rfl, by simp [isRunning, hw], rfl, rfl, rfl⟩
  · rw [hq]
    exact ⟨rfl, rfl, rfl, rfl, rfl⟩

theorem due_work (h : q.Sound) : q.work.due = q.due := by
  obtain ⟨-, -, hlookahead, -⟩ := q.work_keeps
  rw [due, work_moves h, hlookahead, due]

theorem Sound.work (h : q.Sound) : q.work.Sound := by
  cases hl : q.lexer with
  | none =>
    obtain ⟨hlexer, hrunning, -, hfinished, hcapacity⟩ := q.work_keeps
    refine .of_started (hlexer.trans hl) (hrunning.trans (h.running hl)) ?_ ?_ ?_
    · rw [due_work h]
      exact h.ends
    · rw [hfinished, work_moves h]
      exact h.finished
    · rw [hcapacity]
      exact h.capacity
  | some l =>
    have hq : q.work = q := by
      unfold Background.work
      rw [(h.idle l hl).1]
    rw [hq]
    exact h

/-! ### Receiving -/

theorem awaitItem_some {items rest : List Item} {item : Item}
    (h : awaitItem items = some (item, rest)) :
    items.filter (fun i => !isDropped i) = item :: rest.filter fun i => !isDropped i := by
  induction items with
  | nil => cases h
  | cons i items ih =>
    unfold awaitItem at h
    rw [List.filter_cons]
    by_cases hd : isDropped i = true
    · rw [if_pos hd] at h
      rw [hd, if_neg (by simp), ih h]
    · rw [if_neg hd] at h
      cases h
      rw [Bool.eq_false_iff.2 hd]
      rfl

theorem awaitItem_none {items : List Item} (h : awaitItem items = none) :
    items.filter (fun i => !isDropped i) = [] := by
  induction items with
  | nil => rfl
  | cons i items ih =>
    unfold awaitItem at h
    by_cases hd : isDropped i = true
    · rw [if_pos hd] at h
      rw [List.filter_cons, hd, if_neg (by simp), ih h]
    · rw [if_neg hd] at h
      cases h

/-- What is received is what comes next behind the lookahead. -/
theorem receive_eq (hl : q.lexer = none) (hr : q.isRunning = true) :
    q.receive.1 = (q.channel ++ q.unsent).head? ∧
      q.receive.2.channel ++ q.receive.2.unsent = (q.channel ++ q.unsent).tail ∧
      q.receive.2.lexer = none ∧ q.receive.2.isRunning = true ∧
      q.receive.2.lookahead = q.lookahead ∧ q.receive.2.capacity = q.capacity := by
  unfold receive
  split
  · rename_i item rest hc
    rw [hc]
    exact ⟨rfl, rfl, hl, hr, rfl, rfl⟩
  · rename_i hc
    have hunsent : q.unsent = (q.worker.getD []).filter fun i => !isDropped i := by
      rw [unsent, hl]
    rw [hc, hunsent]
    split
    · rename_i item rest ha
      rw [awaitItem_some ha]
      refine ⟨rfl, ?_, hl, rfl, rfl, rfl⟩
      show [] ++ unsent _ = _
      rw [unsent, hl]
      rfl
    · rename_i ha
      rw [awaitItem_none ha]
      refine ⟨rfl, ?_, hl, (Option.isSome_map ..).trans hr, rfl, rfl⟩
      show [] ++ unsent _ = []
      rw [unsent, hl]
      cases q.worker <;> rfl

/-- The queue with the next item received, if there is one. -/
def received (q : Background) : Background :=
  match q.receive with
  | (some item, left) => { left with lookahead := some item, isFinished := Lexer.isLast item }
  | (none, left) => { left with isFinished := true }

/-- Receiving changes nothing about what is due, and shows the first item. -/
theorem received_eq (h : q.Sound) (hl : q.lexer = none) (hlook : q.lookahead = none) :
    q.received.due = q.due ∧ q.received.lookahead = q.due.head? ∧ q.received.Sound := by
  have hdue : q.due = q.channel ++ q.unsent := by
    rw [due, hlook]
    rfl
  obtain ⟨hhead, htail, hlexer, hrunning, hnone, hcapacity⟩ := receive_eq hl (h.running hl)
  rw [← hdue] at hhead htail
  rw [hlook] at hnone
  have hends := h.ends
  have hpos := h.capacity
  rw [← hcapacity] at hpos
  unfold received
  cases hr : q.receive with
  | mk got left =>
    rw [hr] at hhead htail hlexer hrunning hnone hpos
    dsimp only at hhead htail hlexer hrunning hnone hpos
    cases hitems : q.due with
    | nil =>
      rw [hitems] at hhead htail hends
      rw [hhead]
      have hleft : left.due = [] := by
        rw [due, htail, hnone]
        rfl
      rw [← hleft] at hends
      exact ⟨hleft, hnone, .of_started hlexer hrunning hends (fun _ => htail) hpos⟩
    | cons item rest =>
      rw [hitems] at hhead htail hends
      rw [hhead]
      have hleft : item :: (left.channel ++ left.unsent) = item :: rest := by
        rw [htail]
        rfl
      refine ⟨hleft, rfl, .of_started hlexer hrunning ?_ ?_ hpos⟩
      · rw [← hleft] at hends
        exact hends
      · intro hlast
        show left.channel ++ left.unsent = []
        rw [htail]
        exact hends [] item rest rfl hlast

/-- Filling changes nothing about what is due, and shows the first item. -/
theorem fill_eq (h : q.Sound) :
    q.fill.due = q.due ∧ q.fill.lookahead = q.due.head? ∧ q.fill.Sound := by
  have hs := h.start
  have hl := q.lexer_start
  have hfill : q.fill = if q.start.lookahead.isSome || q.start.isFinished then q.start
      else q.start.received := by
    unfold fill received
    rfl
  rw [hfill, ← q.due_start]
  cases hlook : q.start.lookahead with
  | some item =>
    rw [if_pos (by simp)]
    exact ⟨rfl, by rw [hlook, due, hlook]; rfl, hs⟩
  | none =>
    by_cases hf : q.start.isFinished = true
    · rw [if_pos (by simp [hf])]
      exact ⟨rfl, by rw [hlook, due, hlook, hs.finished hf]; rfl, hs⟩
    · rw [if_neg (by simp [hf])]
      exact received_eq hs hl hlook

/-- Handing out what was received leaves the rest due. -/
theorem Sound.handed {item : Item} {rest : List Item} (h : q.Sound)
    (hlook : q.lookahead = some item) (hdue : q.due = item :: rest) :
    ({ q with lookahead := none } : Background).Sound ∧
      ({ q with lookahead := none } : Background).due = rest := by
  have hrest : q.channel ++ q.unsent = rest := by
    rw [due, hlook] at hdue
    exact (List.cons.inj hdue).2
  have hl : q.lexer = none := by
    cases hl : q.lexer with
    | none => rfl
    | some l =>
      rw [(h.idle l hl).2.2.1] at hlook
      cases hlook
  have hends := h.ends
  rw [hdue] at hends
  refine ⟨.of_started hl (h.running hl) ?_ h.finished h.capacity, hrest⟩
  show EndsWithLast (q.channel ++ q.unsent)
  rw [hrest]
  exact hends.of_cons

theorem call_eq (h : q.Sound) (c : Call) :
    (q.call c).1 = (answerTo q.due c).1 ∧ (q.call c).2.due = (answerTo q.due c).2 ∧
      (q.call c).2.Sound := by
  obtain ⟨hdue, hlook, hfill⟩ := fill_eq h
  cases c with
  | start => exact ⟨rfl, q.due_start, h.start⟩
  | peek =>
    unfold call peek
    cases hitems : q.due with
    | nil =>
      rw [hitems] at hdue hlook
      rw [hlook]
      exact ⟨rfl, hdue, hfill⟩
    | cons item rest =>
      rw [hitems] at hdue hlook
      cases item with
      | ok t =>
        rw [hlook]
        exact ⟨rfl, hdue, hfill⟩
      | error fault =>
        obtain ⟨hsound, hrest⟩ := hfill.handed hlook hdue
        rw [hlook]
        exact ⟨rfl, hrest, hsound⟩
  | dequeue =>
    unfold call dequeue
    cases hitems : q.due with
    | nil =>
      rw [hitems] at hdue hlook
      rw [hlook]
      exact ⟨rfl, hdue, hfill⟩
    | cons item rest =>
      rw [hitems] at hdue hlook
      obtain ⟨hsound, hrest⟩ := hfill.handed hlook hdue
      rw [hlook]
      exact ⟨rfl, hrest, hsound⟩

end Background

end TripleLex.Queue

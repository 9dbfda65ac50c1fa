import TripleLex.Proofs.BrokenSources
import TripleLex.Proofs.TwinReaders
import TripleLex.Proofs.WellFormed

/-!
# Characters out of bytes

However a source is looked at and read, its characters come in their order, each once: what a
call is answered with depends on nothing but how many characters were taken before it. Where a
source reads bytes, its characters are the longest text at their front, and how the bytes are
cut into deliveries makes no difference. When the source has been read to its end, it has met a
failure unless that text is all of the bytes.

## Main results

* `Source.answer_behind` — every mixture of calls.
* `Source.drain_eq` — reading to the end.
* `Source.decodes_exactly` — both, for the bytes of a reader.
-/

namespace TripleLex.Input.Source

open Unicode.Utf8 (Longest BreaksOff Stops breaksOff_cons)

/-! ## Calls -/

/-- What is asked of a source. -/
inductive Call where
  /-- The next character, which stays. -/
  | peek
  /-- The next character, which is taken. -/
  | read
  /-- Whether no character is left. -/
  | atEnd
  deriving DecidableEq, Repr

/-- What a source answers. -/
inductive Answer where
  /-- A character, or that there is none. -/
  | character (c : Option Char)
  /-- Whether there is none. -/
  | ended (none : Bool)
  deriving DecidableEq, Repr

/-- The answer to a call, and the source behind it. -/
def answer (s : Source) : Call → Answer × Source
  | .peek => (.character s.peek.1, s.peek.2)
  | .read => (.character s.read.1, s.read.2)
  | .atEnd => (.ended s.atEnd.1, s.atEnd.2)

/-- The source behind calls. -/
def behind (s : Source) (calls : List Call) : Source := calls.foldl (fun s c => (s.answer c).2) s

/-- The answer where so many characters have been taken. -/
def answerAt (cs : List Char) (taken : Nat) : Call → Answer
  | .peek | .read => .character cs[taken]?
  | .atEnd => .ended (decide (cs.length ≤ taken))

variable {s : Source} {calls : List Call}

theorem behind_cons (s : Source) (c : Call) (calls : List Call) :
    s.behind (c :: calls) = (s.answer c).2.behind calls := rfl

/-- Calls take nothing but what they read. -/
theorem rest_behind (s : Source) (calls : List Call) :
    (s.behind calls).rest = s.rest.drop (calls.count .read) := by
  induction calls generalizing s with
  | nil => rfl
  | cons c calls ih =>
    rw [behind_cons, ih]
    cases c with
    | read =>
      show s.read.2.rest.drop _ = _
      rw [rest_read, List.count_cons_self, List.drop_tail]
    | peek => exact congrArg _ s.rest_fill
    | atEnd => exact congrArg _ s.rest_fill

/-- They leave what breaks the source off as it is. -/
theorem breaks_behind (s : Source) (calls : List Call) : (s.behind calls).breaks = s.breaks := by
  induction calls generalizing s with
  | nil => rfl
  | cons c calls ih =>
    rw [behind_cons, ih]
    cases c <;> exact s.breaks_fill

/-- Behind any calls the answer to the next one goes by how many characters were taken. -/
theorem answer_behind (s : Source) (calls : List Call) (c : Call) :
    ((s.behind calls).answer c).1 = answerAt s.rest (calls.count .read) c := by
  have hpeek : (s.behind calls).peek.1 = s.rest[calls.count .read]? := by
    rw [peek_eq, rest_behind, List.head?_drop]
  cases c with
  | peek => exact congrArg Answer.character hpeek
  | read => exact congrArg Answer.character hpeek
  | atEnd =>
    refine congrArg Answer.ended ?_
    show (s.behind calls).peek.1.isNone = _
    rw [hpeek, Bool.eq_iff_iff, Option.isNone_iff_eq_none, List.getElem?_eq_none_iff,
      decide_eq_true_iff]

/-! ## Reading to the end -/

theorem rest_of_read {c : Char} {left : Source} (h : s.read = (some c, left)) :
    s.rest = c :: left.rest := by
  have hleft : left.rest = s.rest.tail := by rw [← rest_read, h]
  have hc : s.rest.head? = some c := by rw [← peek_eq, ← peek_read, h]
  obtain ⟨cs, hcs⟩ := List.head?_eq_some_iff.1 hc
  rw [hleft, hcs, List.tail_cons]

theorem rest_of_read_none {left : Source} (h : s.read = (none, left)) : s.rest = [] := by
  rw [← List.head?_eq_none_iff, ← peek_eq, ← peek_read, h]

/-- Reads characters until there is none. -/
def drain (s : Source) : List Char × Source :=
  match _h : s.read with
  | (some c, left) => (c :: left.drain.1, left.drain.2)
  | (none, left) => ([], left)
termination_by s.rest.length
decreasing_by all_goals (rw [rest_of_read _h]; exact Nat.lt_succ_self _)

theorem drain_some {c : Char} {left : Source} (h : s.read = (some c, left)) :
    s.drain = (c :: left.drain.1, left.drain.2) := by
  rw [drain]
  split
  · rename_i h'
    cases h.symm.trans h'
    rfl
  · rename_i h'
    cases h.symm.trans h'

theorem drain_none {left : Source} (h : s.read = (none, left)) : s.drain = ([], left) := by
  rw [drain]
  split
  · rename_i h'
    cases h.symm.trans h'
  · rename_i h'
    cases h.symm.trans h'
    rfl

/-- All characters come, and what breaks the source off has been met behind them. -/
theorem drain_eq (s : Source) : s.drain.1 = s.rest ∧ s.drain.2.takeFailure.1 = s.breaks := by
  induction s using drain.induct with
  | case1 s c left h ih =>
    obtain ⟨hcs, hfailure⟩ := ih
    rw [drain_some h, rest_of_read h]
    refine ⟨congrArg _ hcs, hfailure.trans ?_⟩
    have hbreaks : s.read.2.breaks = s.breaks := s.breaks_fill
    rwa [h] at hbreaks
  | case2 s left h =>
    rw [drain_none h]
    have hrest := rest_of_read_none h
    refine ⟨hrest.symm, ?_⟩
    have hmet : s.read.2.met = s.breaks := met_fill hrest
    rwa [h] at hmet

/-! ## The bytes of a reader -/

/-- The kind of failure for the bytes that are left of a text: none if there are none, another
one if they end inside a sequence than if no sequence begins with them. -/
inductive Reports : List UInt8 → Option String → Prop
  | complete : Reports [] none
  | truncated {rest : List UInt8} (h : BreaksOff rest) : Reports rest (some "UnexpectedEof")
  | invalid {rest : List UInt8} (hne : rest ≠ []) (h : ¬ BreaksOff rest) :
    Reports rest (some "InvalidData")

theorem reports_of_stops {stop : Unicode.Utf8.Stop} {rest : List UInt8} (h : Stops stop rest) :
    Reports rest ((Reader.brokenBy? stop none).map ReadFailure.kind) := by
  cases h with
  | complete => exact .complete
  | truncated h => exact .truncated (breaksOff_cons.2 h)
  | badLead rest h => exact .invalid nofun (mt (Stops.badLead rest h).breaksOff_iff.1 nofun)
  | badSequence rest hw hs =>
    exact .invalid nofun (mt (Stops.badSequence rest hw hs).breaksOff_iff.1 nofun)

/-- However the bytes come, the characters of a source are the longest text at their front.
Behind any mixture of calls the next answer goes by how many characters were taken, and reading
to the end yields the others, in their order. Then a failure has been met unless the text is
all of the bytes. -/
theorem decodes_exactly (bytes : List UInt8) (reader : Reader) (h : reader.Cuts bytes) :
    ∃ cs rest, Longest bytes cs rest ∧ ∀ calls : List Call,
      let s := (ofReader reader).behind calls
      (∀ c, (s.answer c).1 = answerAt cs (calls.count .read) c) ∧
        s.drain.1 = cs.drop (calls.count .read) ∧
        Reports rest (s.drain.2.takeFailure.1.map ReadFailure.kind) := by
  obtain ⟨rest, hbytes, hstops⟩ := Unicode.Utf8.stops_decode bytes
  have hrest : (ofReader reader).rest = (Unicode.Utf8.decode bytes).1 := by
    rw [← h.bytes_eq]
    rfl
  have hbreaks : (ofReader reader).breaks =
      Reader.brokenBy? (Unicode.Utf8.decode bytes).2 none := by
    rw [breaks_ofReader, Reader.broken?, h.bytes_eq, h.failure?_eq]
  refine ⟨_, rest, Unicode.Utf8.longest_of_decode hbytes, fun calls => ?_⟩
  obtain ⟨hdrain, hfailure⟩ := ((ofReader reader).behind calls).drain_eq
  refine ⟨fun c => ?_, ?_, ?_⟩
  · rw [answer_behind, hrest]
  · rw [hdrain, rest_behind, hrest]
  · rw [hfailure, breaks_behind, hbreaks]
    exact reports_of_stops hstops

/-- Two letters, of which the second is cut in two with an interruption between them, and two
bytes of a sequence of three. -/
theorem decodes_exactly_interrupted :
    let bytes : List UInt8 := [0x61, 0xC3, 0xA9, 0xE2, 0x82]
    let reader : Reader := [.bytes 0x61 [0xC3], .interruption, .bytes 0xA9 [0xE2], .bytes 0x82 []]
    reader.Cuts bytes ∧ ∃ cs rest, Longest bytes cs rest ∧ ∀ calls : List Call,
      let s := (ofReader reader).behind calls
      (∀ c, (s.answer c).1 = answerAt cs (calls.count .read) c) ∧
        s.drain.1 = cs.drop (calls.count .read) ∧
        Reports rest (s.drain.2.takeFailure.1.map ReadFailure.kind) := by
  intro bytes reader
  have hcuts : reader.Cuts bytes :=
    .bytes _ _ (.interruption (.bytes _ _ (.bytes _ _ .ending)))
  exact ⟨hcuts, decodes_exactly bytes reader hcuts⟩

end TripleLex.Input.Source

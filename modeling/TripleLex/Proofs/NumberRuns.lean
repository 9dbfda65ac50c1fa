import TripleLex.Proofs.FirstCharacters
import TripleLex.Proofs.NumberWords

/-!
# How far numbers go

A query language gathers a number by the place of its characters and judges it
afterwards. So a number goes at least as far as the longest number that the text begins
with. It goes further only for a dot, which is given back, or for the mark of an exponent
that is not completed, and then what was gathered is refused.

## Main results

* `Query.Sparql.numericLoop_reads` — what is gathered.
* `Lexer.longest_number_next` — a single call.
-/

namespace TripleLex

open Scan
open Cursor (Reads)

namespace Scan

/-! ## Gathering and giving back -/

section Gathering

variable {k : Cursor} {c : Char} {cs text : List Char}

theorem value_looked (k : Cursor) : k.looked.value = k.value := by
  rw [Cursor.value, k.same_looked.written, Cursor.value]

theorem admitsSign_eq (k : Cursor) :
    k.admitsSign = k.value.getLast?.all Number.isExponentMark := by
  unfold Cursor.admitsSign Cursor.isEmpty Cursor.endsWith Cursor.value
  rw [List.getLast?_reverse]
  cases k.written <;> simp [Number.isExponentMark]

theorem exists_consume (hk : k.ahead = c :: cs) (hl : Unicode.isLineEnd c = false) :
    ∃ mid, consume k = .ok c mid ∧ k.Reads [c] [c] mid ∧ mid.pending = none := by
  have hread := (Cursor.reads_moved (by rw [hk]; rfl) hl).trans (Cursor.reads_push (k.moved c) [c])
  exact ⟨_, consume_cons hk, hread, k.pending_taken⟩

theorem not_isLineEnd_of_admits (h : Number.admits text c = true) :
    Unicode.isLineEnd c = false := by
  simp only [Number.admits, Bool.or_eq_true, Bool.and_eq_true, beq_iff_eq] at h
  rcases h with ((hdigit | ⟨rfl, -⟩) | ⟨rfl | rfl, -⟩) | ⟨hmark, -⟩
  · exact not_isLineEnd_of_isDigit hdigit
  · decide
  · decide
  · decide
  · exact not_isLineEnd_of_isExponentMark hmark

/-- What a turn does with a character that is admitted: it takes it, and goes on with what has
been gathered then. -/
theorem exists_consumeAnd {σ : Type} {next gathered : σ} (hk : k.ahead = c :: cs)
    (hc : Number.admits text c = true) (h : next = gathered) :
    ∃ mid, consumeAnd next k.looked =
        (.ok (.again gathered) mid : EStateM.Result _ _ (Turn σ Unit)) ∧
      k.Reads [c] [c] mid ∧ mid.pending = none := by
  obtain ⟨mid, e, r, hp⟩ := exists_consume (k.ahead_looked.trans hk) (not_isLineEnd_of_admits hc)
  rw [h]
  exact ⟨mid, bind_eq e, (k.same_looked.reads k.ahead_looked).trans r, hp⟩

/-- Behind a dot that a digit follows, the dot is the first character of a number. -/
theorem dotOrNumber_gathers {d : Char} (readNumber : Scan Token) (hk : k.ahead = '.' :: d :: cs)
    (hd : d.isDigit = true) :
    ∃ mid, dotOrNumber readNumber k = readNumber mid ∧ k.Reads ['.'] ['.'] mid ∧
      mid.pending = none := by
  obtain ⟨mid, e, r⟩ := exists_consume hk (by decide)
  have hmid : mid.ahead = d :: cs := r.1.rest_eq hk
  refine ⟨mid.looked, ?_, r.1.trans (mid.same_looked.reads mid.ahead_looked),
    mid.pending_looked.trans r.2⟩
  unfold dotOrNumber
  rw [bind_eq e, look_at hmid]
  dsimp only
  rw [if_pos hd]

theorem giveBackDot_stays (h : k.value.getLast? ≠ some '.') : giveBackDot k = .ok () k := by
  rw [Cursor.value, List.getLast?_reverse] at h
  unfold giveBackDot
  rw [get_bind, Cursor.endsWith, if_neg (by simpa using h)]
  rfl

theorem giveBackDot_gives (hp : k.pending = none) (hv : k.value = text ++ ['.']) :
    ∃ left, giveBackDot k = .ok () left ∧ left.value = text ∧ left.ahead = '.' :: k.ahead := by
  have hwritten : k.written = '.' :: text.reverse := by
    rw [← List.reverse_reverse k.written, ← Cursor.value, hv]
    simp
  refine ⟨k.givenBack '.' text.reverse, ?_, List.reverse_reverse text, ?_⟩
  · unfold giveBackDot backtrack
    rw [get_bind, Cursor.endsWith, hwritten, if_pos (by simp), get_bind, hp, hwritten]
    rfl
  · exact Cursor.ahead_givenBack hp '.' text.reverse

end Gathering

end Scan

namespace Query.Sparql

variable {k : Cursor} {c : Char} {cs p rest : List Char}

/-! ## Gathering -/

/-- What a number holds that has been gathered so far. -/
def Gathered.ofText (text : List Char) : Gathered :=
  ⟨text.contains '.', text.any Number.isExponentMark⟩

theorem Gathered.ofText_concat (text : List Char) (c : Char) :
    ofText (text ++ [c]) = ⟨(ofText text).dot || c == '.',
      (ofText text).exponent || Number.isExponentMark c⟩ := by
  rw [BEq.comm (a := c)]
  simp [ofText, -List.contains_eq_mem]

/-- A character that is admitted is taken. -/
theorem numericTurn_takes (hk : k.ahead = c :: cs) (hc : Number.admits k.value c = true) :
    ∃ mid, numericTurn (.ofText k.value) k = .ok (.again (.ofText (k.value ++ [c]))) mid ∧
      k.Reads [c] [c] mid ∧ mid.pending = none := by
  have hadmitted := hc
  unfold Number.admits at hadmitted
  unfold numericTurn
  rw [look_at hk]
  dsimp only
  by_cases hdigit : c.isDigit = true
  · obtain ⟨hmark, hdot, -⟩ := Number.plain_of_isDigit hdigit
    rw [if_pos hdigit]
    exact exists_consumeAnd hk hc (by simp [Gathered.ofText_concat, hmark, beq_eq_false_iff_ne.2 hdot])
  rw [if_neg hdigit]
  by_cases hdot : (c == '.') = true
  · obtain rfl := beq_iff_eq.1 hdot
    have hnone : ((Gathered.ofText k.value).dot || (Gathered.ofText k.value).exponent) = false := by
      simpa [Gathered.ofText, Number.isExponentMark] using hadmitted
    rw [if_pos hdot, hnone, if_neg Bool.false_ne_true]
    exact exists_consumeAnd hk hc (by simp [Gathered.ofText_concat])
  rw [if_neg hdot]
  by_cases hsign : (c == '+' || c == '-') = true
  · have hplain : (c == '.') = false ∧ Number.isExponentMark c = false := by
      rcases (by simpa using hsign : c = '+' ∨ c = '-') with rfl | rfl <;> decide
    have hadmits : k.looked.admitsSign = true := by
      rw [admitsSign_eq, value_looked]
      simpa [hdigit, hplain, hsign] using hadmitted
    rw [if_pos hsign, get_bind, if_pos hadmits]
    exact exists_consumeAnd hk hc (by simp [Gathered.ofText_concat, hplain])
  rw [if_neg hsign]
  have hmark : Number.isExponentMark c = true ∧ (Gathered.ofText k.value).exponent = false := by
    simpa [hdigit, hdot, hsign, Gathered.ofText] using hadmitted
  rw [if_pos hmark.1, hmark.2, if_neg Bool.false_ne_true]
  exact exists_consumeAnd hk hc (by simp [Gathered.ofText_concat, hmark.1, hdot])

theorem numericTurn_stops (h : ∀ c, k.ahead.head? = some c → Number.admits k.value c = false) :
    numericTurn (.ofText k.value) k = .ok (.done ()) k.looked := by
  unfold numericTurn
  cases hk : k.ahead with
  | nil =>
    have hlook : look k = .ok none k.looked := by rw [look_eq, hk]; rfl
    exact bind_eq hlook
  | cons c cs =>
    have hc := h c (by rw [hk]; rfl)
    simp only [Number.admits, Bool.or_eq_false_iff] at hc
    obtain ⟨⟨⟨hdigit, hdot⟩, hsign⟩, hmark⟩ := hc
    rw [look_at hk]
    dsimp only
    rw [if_neg (by rw [hdigit]; decide)]
    by_cases hd : (c == '.') = true
    · rw [hd, Bool.true_and, Bool.not_eq_false'] at hdot
      have hheld : ((Gathered.ofText k.value).dot || (Gathered.ofText k.value).exponent) = true :=
        hdot
      rw [if_pos hd, if_pos hheld]
      rfl
    rw [if_neg hd]
    by_cases hs : (c == '+' || c == '-') = true
    · have hadmits : k.looked.admitsSign = false := by
        rw [admitsSign_eq, value_looked]
        simpa [hs] using hsign
      rw [if_pos hs, get_bind, hadmits, if_neg Bool.false_ne_true]
      rfl
    rw [if_neg hs]
    by_cases hm : Number.isExponentMark c = true
    · rw [if_pos hm, if_pos (by simpa [hm, Gathered.ofText] using hmark)]
      rfl
    rw [if_neg hm]
    rfl

/-- All that is admitted is gathered, and no character can be pending behind it. -/
theorem numericLoop_reads (hk : k.ahead = p ++ rest) (hp : Number.placed k.value p = true)
    (hrest : ∀ c, rest.head? = some c → Number.admits (k.value ++ p) c = false) :
    ∃ left, iterate numericTurn advances_numericTurn (.ofText k.value) k = .ok () left ∧
      k.Reads p p left ∧ (k.pending = none ∨ p ≠ [] → left.pending = none) := by
  induction p generalizing k with
  | nil =>
    have hstops := numericTurn_stops (k := k) (by simpa [hk] using hrest)
    refine ⟨k.looked, ?_, k.same_looked.reads k.ahead_looked, ?_⟩
    · rw [iterate_eq, bind_eq hstops]
      rfl
    · simp [k.pending_looked]
  | cons c p ih =>
    obtain ⟨hc, hp⟩ := Bool.and_eq_true_iff.1 hp
    obtain ⟨mid, e, r, hpending⟩ := numericTurn_takes hk hc
    rw [← r.value_append] at e hp
    obtain ⟨left, e', r', hleft⟩ := ih (r.rest_eq hk) hp (by
      rw [r.value_append, List.append_assoc]
      exact hrest)
    refine ⟨left, ?_, r.trans r', fun _ => hleft (.inl hpending)⟩
    rw [iterate_eq, bind_eq e]
    exact e'

/-! ## Judging -/

variable {q : Query.Sparql} {previous : Option Kind} {text : List Char}

/-- What is made of a number that has been gathered, or of a sign. -/
def judged (q : Query.Sparql) : Scan Token := do
  let k ← get
  if k.value == ['+'] then
    emit .plus
  else if k.value == ['-'] then
    emit .minus
  else
    q.numericToken

/-- Where a dot or nothing has been gathered before, the rest is gathered and judged. -/
theorem numberOrSign_gathers (hmark : k.value.any Number.isExponentMark = false)
    (hk : k.ahead = p ++ rest) (hp : Number.placed k.value p = true)
    (hrest : ∀ c, rest.head? = some c → Number.admits (k.value ++ p) c = false) :
    ∃ left, q.numberOrSign k = q.judged left ∧ k.Reads p p left ∧
      (k.pending = none ∨ p ≠ [] → left.pending = none) := by
  obtain ⟨left, e, r, hpending⟩ := numericLoop_reads hk hp hrest
  rw [Gathered.ofText, hmark] at e
  exact ⟨left, bind_eq e, r, hpending⟩

theorem body_of_isDigit {c : Char} (h : c.isDigit = true) :
    q.body previous c = q.numberOrSign := by
  have hat : (c == '@') = false := by
    rw [beq_eq_false_iff_ne]
    rintro rfl
    exact absurd h (by decide)
  unfold body
  split <;> first
    | exact absurd h (by decide)
    | skip
  rw [hat, h]
  rfl

/-- A number is gathered from its first character on. -/
theorem body_gathers {c : Char} {cs : List Char} (previous : Option Kind)
    (hstart : Number.Starts (c :: cs)) (hb : k.Begun) (hk : k.ahead = c :: cs)
    (hsplit : c :: cs = p ++ rest) (hne : p ≠ []) (hp : Number.placed [] p = true)
    (hrest : ∀ c, rest.head? = some c → Number.admits p c = false) :
    ∃ left, q.body previous c k = q.judged left ∧ left.value = p ∧ left.ahead = rest ∧
      left.pending = none := by
  have hempty : k.value = [] := by rw [Cursor.value, hb.written]; rfl
  have hwhole : q.body previous c = q.numberOrSign → ∃ left, q.body previous c k = q.judged left ∧
      left.value = p ∧ left.ahead = rest ∧ left.pending = none := by
    intro hbody
    rw [hsplit] at hk
    obtain ⟨left, e, r, hpending⟩ := numberOrSign_gathers (q := q) (by rw [hempty]; rfl) hk
      (by rwa [hempty]) (by rwa [hempty])
    exact ⟨left, by rw [hbody, e], r.value hb, r.rest_eq hk, hpending (.inr hne)⟩
  cases hstart with
  | digit hd => exact hwhole (body_of_isDigit hd)
  | sign hc => exact hwhole (by rcases hc with rfl | rfl <;> rfl)
  | dot hd =>
    obtain ⟨mid, e, r, hmid⟩ := dotOrNumber_gathers q.numberOrSign hk hd
    obtain ⟨c, p, rfl⟩ := List.exists_cons_of_ne_nil hne
    obtain ⟨rfl, htail⟩ := List.cons.inj hsplit
    have hvalue : mid.value = ['.'] := r.value hb
    obtain ⟨-, hp⟩ := Bool.and_eq_true_iff.1 hp
    have hahead : mid.ahead = p ++ rest := (r.rest_eq hk).trans htail
    obtain ⟨left, e', r', hpending⟩ := numberOrSign_gathers (q := q) (by rw [hvalue]; decide)
      hahead (by rwa [hvalue]) (by rwa [hvalue])
    exact ⟨left, e.trans e', (r.trans r').value hb, r'.rest_eq hahead, hpending (.inl hmid)⟩

/-! ### Tokens -/

theorem numericToken_eq (hlevel : q.level ≠ .sparql10) : q.numericToken = (do
    giveBackDot
    let k ← get
    if Number.isNumber false k.value then emit .plainLiteral
    else invalidForm "Numeric Literal" k.text) := by
  have hfinal : q.level.allowsFinalDot = false := by simpa [Level.allowsFinalDot] using hlevel
  unfold numericToken
  rw [hfinal]
  rfl

/-- A number is a token. -/
theorem numericToken_stays (hlevel : q.level ≠ .sparql10)
    (h : Number.isNumber false k.value = true) :
    ∃ t left, q.numericToken k = .ok t left ∧
      t.content = (.plainLiteral, String.ofList k.value) ∧ left.ahead = k.ahead := by
  rw [numericToken_eq hlevel, bind_eq (giveBackDot_stays (Number.getLast?_ne_dot h)), get_bind,
    if_pos h]
  exact ⟨_, _, rfl, rfl, rfl⟩

/-- So is one before a dot, and the dot is left. -/
theorem numericToken_gives (hlevel : q.level ≠ .sparql10) (hp : k.pending = none)
    (hv : k.value = text ++ ['.']) (h : Number.isNumber false text = true) :
    ∃ t left, q.numericToken k = .ok t left ∧
      t.content = (.plainLiteral, String.ofList text) ∧ left.ahead = '.' :: k.ahead := by
  obtain ⟨left, e, hleft, hahead⟩ := giveBackDot_gives hp hv
  rw [numericToken_eq hlevel, bind_eq e, get_bind, hleft, if_pos h, ← hleft]
  exact ⟨_, _, rfl, rfl, hahead⟩

/-- What is no number is refused. -/
theorem numericToken_refuses (hlevel : q.level ≠ .sparql10) (hlast : k.value.getLast? ≠ some '.')
    (h : Number.isNumber false k.value = false) :
    ∃ left, q.numericToken k = .error (.invalidForm "Numeric Literal" k.text k.span) left := by
  rw [numericToken_eq hlevel, bind_eq (giveBackDot_stays hlast), get_bind, h,
    if_neg Bool.false_ne_true]
  exact ⟨_, rfl⟩

/-- What begins with a number is no sign. -/
theorem judged_eq (hv : k.value = text ++ rest) (h : Number.isNumber false text = true) :
    q.judged k = q.numericToken k := by
  have hne : ∀ c, c = '+' ∨ c = '-' → k.value ≠ [c] := by
    intro c hc hk
    rw [hv, List.append_eq_singleton_iff] at hk
    rcases hk with ⟨rfl, -⟩ | ⟨rfl, -⟩
    · exact absurd h (by decide)
    · rcases hc with rfl | rfl <;> exact absurd h (by decide)
  have hplus := hne '+' (.inl rfl)
  have hminus := hne '-' (.inr rfl)
  unfold judged
  rw [get_bind, if_neg (by simpa using hplus), if_neg (by simpa using hminus)]

/-- A sign that stands alone is an operator. -/
theorem judged_sign {c : Char} (hc : c = '+' ∨ c = '-') (hv : k.value = [c]) :
    ∃ t left, q.judged k = .ok t left ∧
      t.content = (if c = '+' then .plus else .minus, String.ofList [c]) ∧
      left.ahead = k.ahead := by
  have hemit : ∀ kind, ∃ t left, emit kind k = .ok t left ∧
      t.content = (kind, String.ofList [c]) ∧ left.ahead = k.ahead := by
    intro kind
    rw [← hv]
    exact ⟨_, _, rfl, rfl, rfl⟩
  unfold judged
  rw [get_bind, hv]
  rcases hc with rfl | rfl
  · exact hemit .plus
  · exact hemit .minus

end Query.Sparql

/-! ## A single call -/

namespace Lexer

section Behind

open Query.Sparql (judged_eq judged_sign numericToken_stays numericToken_gives
  numericToken_refuses)

variable {l : Lexer} {q : Query.Sparql} {kind : Kind} {gap cs p rest : List Char} {c : Char}

variable (hmachine : l.machine = .sparql q) (hlevel : q.level ≠ .sparql10)
  (hbody : q.progress.inBody = true) (hopen : Kind.Open (some kind))
  (hahead : l.cursor.ahead = gap ++ cs) (hgap : ∀ c ∈ gap, Unicode.isBlank c = true)
  (hstart : Number.Starts cs)

include hmachine hbody hopen hahead hgap hstart

/-- What is admitted is gathered behind the gap, and judged. -/
theorem number_gathers (hsplit : cs = p ++ rest) (hne : p ≠ []) (hp : Number.placed [] p = true)
    (hrest : ∀ c, rest.head? = some c → Number.admits p c = false) :
    ∃ k, l.machine.read (some kind) l.cursor.fresh = q.judged k ∧ k.value = p ∧ k.ahead = rest ∧
      k.pending = none := by
  obtain ⟨c, cs, rfl, hblank⟩ := hstart.exists_cons
  obtain ⟨mid, e, hmid⟩ :=
    (Machine.ReadsTurtle.sparql hbody).dispatched (k := l.cursor.fresh) hopen hahead hgap hblank
  obtain ⟨k, e', hk⟩ := Query.Sparql.body_gathers (q := q) (some kind) hstart
    hmid.begun hmid.ahead hsplit hne hp hrest
  rw [Machine.dispatch_body hbody] at e
  rw [hmachine]
  exact ⟨k, e.trans e', hk⟩

include hlevel

/-- Where no more is admitted, the longest number is a token. -/
theorem longest_stops (h : Number.Longest cs p rest)
    (hrest : ∀ c, rest.head? = some c → Number.admits p c = false) :
    ∃ t left, l.machine.read (some kind) l.cursor.fresh = .ok t left ∧
      t.content = (.plainLiteral, String.ofList p) ∧ left.ahead = rest := by
  obtain ⟨k, e, hvalue, hleft, -⟩ := number_gathers hmachine hbody hopen hahead hgap hstart h.split
    (Number.ne_nil_of_isNumber h.number) (Number.placed_of_isNumber h.number) hrest
  have hjudged := judged_eq (q := q) (hvalue.trans (List.append_nil p).symm) h.number
  obtain ⟨t, left, e', ht, ha⟩ := numericToken_stays hlevel (k := k) (by rw [hvalue, h.number])
  rw [hvalue] at ht
  exact ⟨t, left, (e.trans hjudged).trans e', ht, ha.trans hleft⟩

/-- A dot behind it is gathered and given back. -/
theorem longest_gives (h : Number.Longest cs p ('.' :: rest)) (hdot : '.' ∉ p)
    (hmark : p.any Number.isExponentMark = false) (hbehind : ¬ Number.MarkBehind p rest) :
    ∃ t left, l.machine.read (some kind) l.cursor.fresh = .ok t left ∧
      t.content = (.plainLiteral, String.ofList p) ∧ left.ahead = '.' :: rest := by
  have hplaced : Number.placed [] (p ++ ['.']) = true := by
    rw [Number.placed_append, Number.placed_of_isNumber h.number]
    simp [Number.placed, Number.admits, hdot, hmark]
  obtain ⟨k, e, hvalue, hleft, hpending⟩ := number_gathers hmachine hbody hopen hahead hgap hstart
    (h.split.trans (List.append_cons p '.' rest)) (by simp) hplaced
    (h.not_admits hdot hmark hbehind)
  obtain ⟨t, left, e', ht, ha⟩ := numericToken_gives hlevel hpending hvalue h.number
  rw [hleft] at ha
  exact ⟨t, left, (e.trans (judged_eq hvalue h.number)).trans e', ht, ha⟩

/-- The mark of an exponent behind it is gathered too, and then there is no number. -/
theorem longest_refused (h : Number.Longest cs p rest) (hbehind : Number.MarkBehind p rest) :
    ∃ shown span left, l.machine.read (some kind) l.cursor.fresh =
      .error (.invalidForm "Numeric Literal" shown span) left := by
  obtain ⟨hmark, hhead⟩ := hbehind
  obtain ⟨c, w, rfl⟩ : ∃ c w, rest = c :: w := by
    cases rest with
    | nil => cases hhead
    | cons c w => exact ⟨c, w, rfl⟩
  have hc : Number.isExponentMark c = true := hhead
  have hadmits : Number.admits p c = true := by simp [Number.admits, hc, hmark]
  have hany : (p ++ [c]).any Number.isExponentMark = true := by simp [hc]
  obtain ⟨more, rest, rfl, hmore, hrest⟩ := Number.exists_placed (p ++ [c]) w
  have hplaced : Number.placed [] (p ++ c :: more) = true := by
    rw [Number.placed_append, Number.placed_of_isNumber h.number]
    simp [Number.placed, hadmits, hmore]
  have hsplit : cs = p ++ c :: more ++ rest := by rw [h.split]; simp
  have hnot : Number.isNumber false (p ++ c :: more) = false :=
    h.not_isNumber ⟨rest, rfl⟩ (List.cons_ne_nil c more)
  have hlast : (p ++ c :: more).getLast? ≠ some '.' := by
    rw [List.getLast?_append_of_ne_nil _ (List.cons_ne_nil c more)]
    intro hlast
    rcases List.mem_cons.1 (List.mem_of_getLast? hlast) with rfl | hdot
    · exact absurd hc (by decide)
    · exact Number.not_mem_of_placed hmore (Bool.or_eq_true_iff.2 (.inr hany)) hdot
  obtain ⟨k, e, hvalue, -, -⟩ := number_gathers hmachine hbody hopen hahead hgap hstart hsplit
    (by simp) hplaced (by simpa using hrest)
  rw [← hvalue] at hnot hlast
  obtain ⟨left, e'⟩ := numericToken_refuses hlevel hlast hnot
  exact ⟨_, _, left, (e.trans (judged_eq hvalue h.number)).trans e'⟩

omit hlevel

/-- Where no number begins, the sign is an operator, unless a dot or a mark is gathered with
it. -/
theorem sign_stops (hcs : cs = c :: rest) (hc : c = '+' ∨ c = '-')
    (hnone : ∀ p, p <+: cs → Number.isNumber false p = false)
    (hrest : ∀ d, rest.head? = some d → d ≠ '.' ∧ Number.isExponentMark d = false) :
    ∃ t left, l.machine.read (some kind) l.cursor.fresh = .ok t left ∧
      t.content = (if c = '+' then .plus else .minus, String.ofList [c]) ∧
      left.ahead = rest := by
  have hplaced : Number.placed [] [c] = true := by rcases hc with rfl | rfl <;> decide
  have hplain : Number.isExponentMark c = false := by rcases hc with rfl | rfl <;> decide
  have hstops : ∀ d, rest.head? = some d → Number.admits [c] d = false := by
    intro d hd
    obtain ⟨hdot, hmark⟩ := hrest d hd
    obtain ⟨w, rfl⟩ := List.head?_eq_some_iff.1 hd
    have hdigit : d.isDigit = false := by
      rw [Bool.eq_false_iff]
      intro hdigit
      have hnumber := hnone [c, d] ⟨w, hcs.symm⟩
      rw [Number.isNumber_signed hc hdigit] at hnumber
      cases hnumber
    simp [Number.admits, hdigit, hdot, hmark, hplain]
  obtain ⟨k, e, hvalue, hleft, -⟩ := number_gathers (p := [c]) hmachine hbody hopen hahead hgap
    hstart hcs (List.cons_ne_nil c []) hplaced hstops
  obtain ⟨t, left, e', ht, ha⟩ := judged_sign (q := q) hc hvalue
  exact ⟨t, left, e.trans e', ht, ha.trans hleft⟩

end Behind

/-- In a query a number goes as far as the longest number does, and a sign before which no
number begins is an operator. If the mark of an exponent follows the longest number, no number
is made of the two. Nothing is said of a mark behind a dot that follows, nor of a sign with a
dot or a mark behind it. -/
theorem longest_number_next (l : Lexer) (q : Query.Sparql) (kind : Kind) (gap cs : List Char)
    (hmachine : l.machine = .sparql q) (hlevel : q.level ≠ .sparql10)
    (hbody : q.progress.inBody = true) (hprevious : l.cursor.previous = some kind)
    (hending : kind ≠ .ending) (hopen : Kind.Open (some kind))
    (hahead : l.cursor.ahead = gap ++ cs) (hgap : ∀ c ∈ gap, Unicode.isBlank c = true)
    (hstart : Number.Starts cs) :
    (∃ p rest, Number.Longest cs p rest ∧
      (Number.MarkBehind p rest →
        ∃ shown span, l.next.1 = .error (.invalidForm "Numeric Literal" shown span)) ∧
      (¬ Number.MarkBehind p rest → ¬ Number.MarkBehindDot p rest →
        ∃ t l', l.next = (.ok t, l') ∧ t.content = (.plainLiteral, String.ofList p) ∧
          l'.cursor.ahead = rest)) ∨
    ((∀ p, p <+: cs → Number.isNumber false p = false) ∧
      ∃ sign rest, cs = sign :: rest ∧ (sign = '+' ∨ sign = '-') ∧
        ((∀ c, rest.head? = some c → c ≠ '.' ∧ Number.isExponentMark c = false) →
          ∃ t l', l.next = (.ok t, l') ∧
            t.content = (if sign = '+' then .plus else .minus, String.ofList [sign]) ∧
            l'.cursor.ahead = rest)) := by
  have htoken : ∀ {content : Kind × String} {rest : List Char},
      (∃ t left, l.machine.read (some kind) l.cursor.fresh = .ok t left ∧ t.content = content ∧
        left.ahead = rest) →
      ∃ t l', l.next = (.ok t, l') ∧ t.content = content ∧ l'.cursor.ahead = rest := by
    rintro content rest ⟨t, left, e, ht, hleft⟩
    exact ⟨t, _, next_of_read hprevious hending e, ht, hleft⟩
  by_cases hnumber : ∃ p, p <+: cs ∧ Number.isNumber false p = true
  · obtain ⟨p, hp, hnumber⟩ := hnumber
    obtain ⟨p, rest, h⟩ := Number.exists_longest hp hnumber
    refine .inl ⟨p, rest, h, fun hbehind => ?_, fun hbehind hdotted => htoken ?_⟩
    · obtain ⟨shown, span, left, e⟩ :=
        longest_refused hmachine hlevel hbody hopen hahead hgap hstart h hbehind
      exact ⟨shown, span, by rw [next_of_fails hprevious hending e]⟩
    · by_cases hdot : rest.head? = some '.' ∧ '.' ∉ p ∧ p.any Number.isExponentMark = false
      · obtain ⟨hhead, hnone, hmark⟩ := hdot
        obtain ⟨rest, rfl⟩ := List.head?_eq_some_iff.1 hhead
        exact longest_gives hmachine hlevel hbody hopen hahead hgap hstart h hnone hmark
          fun hbehind => hdotted ⟨hnone, rfl, hbehind⟩
      · refine longest_stops hmachine hlevel hbody hopen hahead hgap hstart h fun c hc => ?_
        rw [Bool.eq_false_iff]
        intro hadmits
        rcases h.admits hc hadmits with ⟨rfl, hnone, hmark⟩ | hmark
        · exact hdot ⟨hc, hnone, hmark⟩
        · exact hbehind hmark
  · have hnone : ∀ p, p <+: cs → Number.isNumber false p = false := by
      intro p hp
      rw [Bool.eq_false_iff]
      exact fun h => hnumber ⟨p, hp, h⟩
    obtain ⟨sign, rest, hcs, hsign⟩ := hstart.exists_sign hnone
    exact .inr ⟨hnone, sign, rest, hcs, hsign, fun hrest =>
      htoken (sign_stops hmachine hbody hopen hahead hgap hstart hcs hsign hnone hrest)⟩

/-- A sign behind a number begins the next token. -/
theorem longest_number_next_difference :
    let l := afterCalls 2 (ofText ⟨.sparql, .sparql11, .recommendation⟩ "ASK -1.5e3-2")
    let q : Query.Sparql := ⟨.sparql11, ⟨true, false, .outside⟩⟩
    let cs := "-1.5e3-2".toList
    l.machine = .sparql q ∧ q.level ≠ .sparql10 ∧ q.progress.inBody = true ∧
      l.cursor.previous = some (.keyword .ask) ∧ l.cursor.ahead = [' '] ++ cs ∧
      Number.Longest cs "-1.5e3".toList ['-', '2'] ∧
      ∃ t l', l.next = (.ok t, l') ∧ t.content = (.plainLiteral, "-1.5e3") ∧
        l'.cursor.ahead = ['-', '2'] := by
  intro l q cs
  have hmachine : l.machine = .sparql q := by decide +kernel
  have hlevel : q.level ≠ .sparql10 := by decide
  have hprevious : l.cursor.previous = some (.keyword .ask) := by decide +kernel
  have hahead : l.cursor.ahead = [' '] ++ cs := by decide +kernel
  have hgap : ∀ c ∈ [' '], Unicode.isBlank c = true := List.forall_mem_singleton.2 (by decide)
  have hlongest : Number.Longest cs "-1.5e3".toList ['-', '2'] := by decide +kernel
  refine ⟨hmachine, hlevel, rfl, hprevious, hahead, hlongest, ?_⟩
  rcases longest_number_next l q (.keyword .ask) [' '] cs hmachine hlevel rfl hprevious nofun
    ⟨nofun, nofun⟩ hahead hgap (.sign (.inr rfl)) with ⟨p, rest, h, -, htoken⟩ | ⟨hnone, -⟩
  · obtain ⟨rfl, rfl⟩ := h.unique hlongest
    obtain ⟨t, l', e, ht, hleft⟩ := htoken (by decide +kernel) (by decide +kernel)
    exact ⟨t, l', e, ht.trans (by decide), hleft⟩
  · have hnumber := hnone _ ⟨_, hlongest.split.symm⟩
    rw [hlongest.number] at hnumber
    cases hnumber

/-- A name that begins with the mark of an exponent is not told from one. Where a datatype or the
name of a prefix is due, no number is read. -/
theorem not_longest_number :
    let query := fun text => ofText ⟨.sparql, .sparql11, .recommendation⟩ text
    let body := Machine.sparql ⟨.sparql11, ⟨true, false, .outside⟩⟩
    (let l := afterCalls 2 (query "ASK 1ex:y");
      l.machine = body ∧ l.cursor.ahead = [' '] ++ "1ex:y".toList ∧
        Number.Longest "1ex:y".toList ['1'] "ex:y".toList ∧ l.next.1.toOption = none) ∧
      (let l := afterCalls 4 (query "ASK \"1\"^^2");
        l.machine = body ∧ l.cursor.ahead = ['2'] ∧ Number.Longest ['2'] ['2'] [] ∧
          l.next.1.toOption = none) ∧
      (let l := afterCalls 3 (query "ASK PREFIX 1 ");
        l.machine = body ∧ l.cursor.ahead = [' '] ++ ['1', ' '] ∧
          Number.Longest ['1', ' '] ['1'] [' '] ∧ l.next.1.toOption = none) := by
  decide +kernel

end Lexer

end TripleLex

import TripleLex.Proofs.DeclaredKeywords
import TripleLex.Proofs.InStep
import TripleLex.Proofs.NumberRuns

/-!
# Dots behind digits

Behind digits a dot may begin a fraction, or end a statement. The graph formats gather it
either way, go on by the same rules as a query language, and give it back if it turns out
to be the last character. So the dot is left exactly if nothing that can be gathered
follows it: no digit, no mark of an exponent, and no sign, which cannot stand there and is
a fault. A mark that begins no exponent is gathered all the same, and what comes of it is
refused.

## Main results

* `number_gathers_behind` — what is gathered, and where it ends.
* `Lexer.trailing_dot` — digits and a dot at the start of a text.
-/

namespace TripleLex

open Scan
open Cursor (Reads)

/-! ## Gathering -/

namespace NumberSoFar

/-- Whether a sign was gathered since the start, or since the mark of the exponent. -/
def signed (text : List Char) : Bool :=
  text.foldl (fun signed c => (signed || c == '+' || c == '-') && !Number.isExponentMark c) false

/-- What a number holds that has been gathered so far. -/
def ofText (text : List Char) : NumberSoFar :=
  ⟨text.contains '.', signed text, text.any Number.isExponentMark⟩

theorem ofText_concat (text : List Char) (c : Char) :
    ofText (text ++ [c]) = ⟨(ofText text).dot || c == '.',
      ((ofText text).sign || c == '+' || c == '-') && !Number.isExponentMark c,
      (ofText text).exponent || Number.isExponentMark c⟩ := by
  rw [BEq.comm (a := c) (b := '.')]
  simp [ofText, signed, -List.contains_eq_mem]

/-- Where a sign is admitted, there is none yet. -/
theorem sign_eq_false {text : List Char}
    (h : text.getLast?.all Number.isExponentMark = true) : (ofText text).sign = false := by
  rcases List.eq_nil_or_concat text with rfl | ⟨u, c, rfl⟩
  · rfl
  · rw [List.concat_eq_append, List.getLast?_concat] at h
    have hc : Number.isExponentMark c = true := h
    rw [List.concat_eq_append, ofText_concat, hc]
    simp

end NumberSoFar

namespace Number

/-! ### Digits and a dot -/

/-- An exponent: its mark, an optional sign, a digit. -/
def startsExponent : List Char → Bool
  | [] => false
  | c :: cs => isExponentMark c && (unsigned cs).head?.any Char.isDigit

/-- A character that is gathered behind digits and a dot, or cannot stand there. -/
def clingsToDot (c : Char) : Bool := c.isDigit || c == '+' || c == '-' || isExponentMark c

section Digits

variable {ds w : List Char} {c : Char}

theorem unsigned_digits (hd : isDigits ds = true) (w : List Char) :
    unsigned (ds ++ w) = ds ++ w := by
  obtain ⟨d, ds, rfl, hdigit⟩ := exists_digit hd
  obtain ⟨-, -, hplus, hminus⟩ := plain_of_isDigit hdigit
  simp [unsigned, hplus, hminus]

theorem isNumber_digits (hd : isDigits ds = true) : isNumber false ds = true := by
  have hunsigned := unsigned_digits hd []
  rw [List.append_nil] at hunsigned
  rw [isNumber, hunsigned]
  have hinteger := Unsigned.integer hd isTail_nil
  rw [List.append_nil] at hinteger
  exact isUnsigned_of_unsigned hinteger

/-- No truth value begins with a digit. -/
theorem isPlainLiteral_digits (hd : isDigits ds = true) (w : List Char) :
    isPlainLiteral (ds ++ w) = isNumber false (ds ++ w) := by
  obtain ⟨d, ds, rfl, hdigit⟩ := exists_digit hd
  have htruth : isTruth (d :: ds ++ w) = false := by
    rw [Bool.eq_false_iff]
    intro htruth
    simp only [isTruth, Bool.or_eq_true, beq_iff_eq, List.cons_append, List.cons.injEq] at htruth
    rcases htruth with ⟨rfl, -⟩ | ⟨rfl, -⟩ <;> exact absurd hdigit (by decide)
  rw [isPlainLiteral, htruth, Bool.false_or]

theorem placed_digits_dot (hd : isDigits ds = true) : placed [] (ds ++ ['.']) = true :=
  placed_final hd nofun rfl

/-- What comes behind digits and a dot is gathered by its first character. -/
theorem admits_behind_dot (hd : isDigits ds = true) :
    admits (ds ++ ['.']) c = (c.isDigit || isExponentMark c) := by
  unfold admits
  rw [List.any_append, any_digits (isDigits_iff.1 hd).2, List.getLast?_concat]
  simp

/-- A number with a mark behind digits and a dot has an exponent there. -/
theorem startsExponent_of_isNumber {more rest : List Char} (hd : isDigits ds = true)
    (hmark : isExponentMark c = true) (h : isNumber false (ds ++ '.' :: c :: more) = true) :
    startsExponent (c :: (more ++ rest)) = true := by
  have hdigit : ∀ d, ('.' :: c :: more).head? = some d → d.isDigit = false := by
    rintro d ⟨⟩
    decide
  have hc := not_isDigit_of_isExponentMark hmark
  obtain ⟨htake, hdrop⟩ := takeWhile_digits (isDigits_iff.1 hd).2 hdigit
  rw [isNumber, unsigned_digits hd, isUnsigned, hdrop] at h
  have htail : isTail (c :: more) = true := by
    have := (Bool.and_eq_true_iff.1 h).1
    rwa [List.dropWhile_cons_of_neg (by simpa using hc)] at this
  have hexponent := (Bool.and_eq_true_iff.1 htail).2
  have hne : more ≠ [] := by
    rintro rfl
    exact absurd hexponent (by decide)
  obtain ⟨d, u, hu, hdigit⟩ := exists_digit hexponent
  rw [startsExponent, hmark, unsigned_append hne, hu]
  exact hdigit

end Digits

end Number

namespace Scan

variable {k : Cursor} {c : Char} {cs p rest : List Char}

section Turns

/-- A character that is admitted is taken; the mark of an exponent does not come first. -/
theorem numberTurn_takes (hk : k.ahead = c :: cs) (hc : Number.admits k.value c = true)
    (hfirst : k.value = [] → Number.isExponentMark c = false) :
    ∃ mid, numberTurn (.ofText k.value) k = .ok (.again (.ofText (k.value ++ [c]))) mid ∧
      k.Reads [c] [c] mid ∧ mid.pending = none := by
  have hadmitted := hc
  unfold Number.admits at hadmitted
  unfold numberTurn
  rw [look_at hk]
  dsimp only
  by_cases hdigit : c.isDigit = true
  · obtain ⟨hmark, hdot, hplus, hminus⟩ := Number.plain_of_isDigit hdigit
    rw [if_pos hdigit]
    exact exists_consumeAnd hk hc (by simp [NumberSoFar.ofText_concat, hmark,
      beq_eq_false_iff_ne.2 hdot, beq_eq_false_iff_ne.2 hplus, beq_eq_false_iff_ne.2 hminus])
  rw [if_neg hdigit]
  by_cases hdot : (c == '.') = true
  · obtain rfl := beq_iff_eq.1 hdot
    have hnone : ((NumberSoFar.ofText k.value).dot || (NumberSoFar.ofText k.value).exponent) =
        false := by
      simpa [NumberSoFar.ofText, Number.isExponentMark] using hadmitted
    rw [if_pos hdot, hnone, if_neg Bool.false_ne_true]
    exact exists_consumeAnd hk hc (by simp [NumberSoFar.ofText_concat])
  rw [if_neg hdot]
  by_cases hsign : (c == '+' || c == '-') = true
  · have hplain : (c == '.') = false ∧ Number.isExponentMark c = false := by
      rcases (by simpa using hsign : c = '+' ∨ c = '-') with rfl | rfl <;> decide
    have hlast : k.value.getLast?.all Number.isExponentMark = true := by
      simpa [hdigit, hplain, hsign] using hadmitted
    have hadmits : (!k.looked.admitsSign) = false := by
      rw [admitsSign_eq, value_looked, hlast]
      rfl
    rw [if_pos hsign, NumberSoFar.sign_eq_false hlast, if_neg Bool.false_ne_true, get_bind,
      hadmits, if_neg Bool.false_ne_true]
    exact exists_consumeAnd hk hc
      (by rw [NumberSoFar.ofText_concat, Bool.or_assoc, hsign]; simp [hplain])
  rw [if_neg hsign]
  have hmark : Number.isExponentMark c = true ∧ (NumberSoFar.ofText k.value).exponent = false := by
    simpa [hdigit, hdot, hsign, NumberSoFar.ofText] using hadmitted
  have hbegun : k.looked.isEmpty = false := by
    have hne : k.value ≠ [] := by
      intro hempty
      rw [hfirst hempty] at hmark
      cases hmark.1
    rw [Cursor.isEmpty, k.same_looked.written]
    simpa [Cursor.value] using hne
  rw [if_pos hmark.1, hmark.2, if_neg Bool.false_ne_true, get_bind, hbegun,
    if_neg Bool.false_ne_true]
  exact exists_consumeAnd hk hc (by simp [NumberSoFar.ofText_concat, hmark.1, hdot])

theorem numberTurn_stops (h : ∀ c, k.ahead.head? = some c → Number.admits k.value c = false)
    (hplain : ∀ c, k.ahead.head? = some c →
      (c == '+' || c == '-' || Number.isExponentMark c) = false) :
    numberTurn (.ofText k.value) k = .ok (.done ()) k.looked := by
  unfold numberTurn
  cases hk : k.ahead with
  | nil =>
    have hlook : look k = .ok none k.looked := by rw [look_eq, hk]; rfl
    exact bind_eq hlook
  | cons c cs =>
    have hc := h c (by rw [hk]; rfl)
    obtain ⟨hsign, hmark⟩ := Bool.or_eq_false_iff.1 (hplain c (by rw [hk]; rfl))
    have hdigit := Number.not_isDigit_of_admits hc
    rw [look_at hk]
    dsimp only
    rw [hdigit, if_neg Bool.false_ne_true]
    by_cases hdot : (c == '.') = true
    · rw [beq_iff_eq.1 hdot, Number.admits_dot, Bool.not_eq_false'] at hc
      have hheld : ((NumberSoFar.ofText k.value).dot || (NumberSoFar.ofText k.value).exponent) =
          true := hc
      rw [if_pos hdot, if_pos hheld]
      rfl
    rw [if_neg hdot, hsign, if_neg Bool.false_ne_true, hmark, if_neg Bool.false_ne_true]
    rfl

/-- A sign or a mark that is not admitted is a fault. -/
theorem numberTurn_refuses (hk : k.ahead = c :: cs) (hc : Number.admits k.value c = false)
    (h : (c == '+' || c == '-' || Number.isExponentMark c) = true) :
    Refuses (numberTurn (.ofText k.value)) k := by
  have hviolation : ∀ message, Refuses (violation message : Scan (Turn NumberSoFar Unit))
      k.looked := fun _ => ⟨_, _, rfl, trivial⟩
  have hdigit := Number.not_isDigit_of_admits hc
  have hdot : ¬ (c == '.') = true := by
    intro hdot
    rw [beq_iff_eq.1 hdot] at h
    exact absurd h (by decide)
  have hlook : look k = .ok (some c) k.looked := by rw [look_eq, hk]; rfl
  unfold numberTurn
  refine FailsFor.behind ?_ hlook
  dsimp only
  rw [hdigit, if_neg Bool.false_ne_true, if_neg hdot]
  by_cases hsign : (c == '+' || c == '-') = true
  · rw [if_pos hsign]
    by_cases hsigned : (NumberSoFar.ofText k.value).sign = true
    · rw [if_pos hsigned]
      exact hviolation _
    have hadmits : (!k.looked.admitsSign) = true := by
      rw [admitsSign_eq, value_looked, Bool.not_eq_true']
      simp only [Number.admits, hsign, Bool.or_eq_false_iff, Bool.true_and] at hc
      exact hc.1.2
    have hget : (get : Scan Cursor) k.looked = .ok k.looked k.looked := rfl
    rw [if_neg hsigned]
    refine FailsFor.behind ?_ hget
    rw [if_pos hadmits]
    exact hviolation _
  rw [if_neg hsign]
  have hmark : Number.isExponentMark c = true := by simpa [hsign] using h
  have hheld : (NumberSoFar.ofText k.value).exponent = true := by
    simp only [Number.admits, hmark, Bool.or_eq_false_iff, Bool.true_and] at hc
    simpa [NumberSoFar.ofText] using hc.2
  rw [if_pos hmark, if_pos hheld]
  exact hviolation _

end Turns

/-! ## Numbers -/

section Numbers

variable {t : Token} {left : Cursor}

/-- All that is admitted is taken, one character after another. -/
theorem numberLoop_takes (hk : k.ahead = p ++ rest) (hp : Number.placed k.value p = true)
    (hfirst : k.value = [] → p.head?.any Number.isExponentMark = false) :
    ∃ mid, iterate numberTurn advances_numberTurn (.ofText k.value) k =
        iterate numberTurn advances_numberTurn (.ofText mid.value) mid ∧
      k.Reads p p mid ∧ (k.pending = none ∨ p ≠ [] → mid.pending = none) := by
  induction p generalizing k with
  | nil => exact ⟨k, rfl, Reads.refl k, by simp⟩
  | cons c p ih =>
    obtain ⟨hc, hp⟩ := Bool.and_eq_true_iff.1 hp
    obtain ⟨mid, e, r, hpending⟩ := numberTurn_takes hk hc hfirst
    rw [← r.value_append] at e hp
    obtain ⟨left, e', r', hleft⟩ := ih (r.rest_eq hk) hp (by simp [r.value_append])
    refine ⟨left, ?_, r.trans r', fun _ => hleft (.inl hpending)⟩
    rw [iterate_eq, bind_eq e]
    exact e'

/-- What is made of a number that has been gathered. -/
def judgedNumber : Scan Token := do
  giveBackDot
  let k ← get
  if Number.isPlainLiteral k.value then emit .plainLiteral else invalidForm "Plain Literal" k.text

/-- A number is gathered as far as its characters are admitted, behind nothing or behind a dot.
A sign or a mark behind them is a fault. -/
theorem number_gathers_behind (hplain : k.value = [] ∨ k.value = ['.']) (hk : k.ahead = p ++ rest)
    (hp : Number.placed k.value p = true)
    (hfirst : k.value = [] → p.head?.any Number.isExponentMark = false)
    (hrest : ∀ c, rest.head? = some c → Number.admits (k.value ++ p) c = false) :
    ((∀ c, rest.head? = some c → (c == '+' || c == '-' || Number.isExponentMark c) = false) →
      ∃ mid, number k = judgedNumber mid ∧ k.Reads p p mid ∧
        (k.pending = none ∨ p ≠ [] → mid.pending = none)) ∧
    ((∃ c, rest.head? = some c ∧ (c == '+' || c == '-' || Number.isExponentMark c) = true) →
      Refuses number k) := by
  have hstate : (⟨k.value.contains '.', false, false⟩ : NumberSoFar) = .ofText k.value := by
    rcases hplain with h | h <;> rw [h] <;> decide
  obtain ⟨mid, e, r, hpending⟩ := numberLoop_takes hk hp hfirst
  have hmid : mid.ahead = rest := r.rest_eq hk
  have hvalue : mid.value = k.value ++ p := r.value_append
  constructor
  · intro hplain
    have hstops := numberTurn_stops (k := mid) (by rwa [hmid, hvalue]) (by rwa [hmid])
    have hloop : iterate numberTurn advances_numberTurn (.ofText k.value) k =
        .ok () mid.looked := by
      rw [e, iterate_eq, bind_eq hstops]
      rfl
    have hlooked := mid.same_looked.reads mid.ahead_looked
    rw [← List.append_nil p]
    refine ⟨mid.looked, ?_, r.trans hlooked, ?_⟩
    · unfold number
      rw [get_bind, hstate]
      exact bind_eq hloop
    · rw [List.append_nil, mid.pending_looked]
      exact hpending
  · rintro ⟨c, hc, hsign⟩
    obtain ⟨cs, rfl⟩ := List.head?_eq_some_iff.1 hc
    have hrefuses := numberTurn_refuses hmid (by rw [hvalue]; exact hrest c rfl) hsign
    have hloop : Refuses (iterate numberTurn advances_numberTurn (.ofText k.value)) k := by
      unfold Refuses FailsFor
      rw [e, iterate_eq]
      exact hrefuses.bind
    rw [← hstate] at hloop
    unfold number
    exact FailsFor.behind hloop.bind (rfl : (get : Scan Cursor) k = .ok k k)

/-- So a number is gathered from its first character on. -/
theorem number_gathers (hb : k.Begun) (hk : k.ahead = p ++ rest) (hne : p ≠ [])
    (hp : Number.placed [] p = true) (hfirst : p.head?.any Number.isExponentMark = false)
    (hrest : ∀ c, rest.head? = some c → Number.admits p c = false) :
    ((∀ c, rest.head? = some c → (c == '+' || c == '-' || Number.isExponentMark c) = false) →
      ∃ mid, number k = judgedNumber mid ∧ mid.value = p ∧ mid.ahead = rest ∧
        mid.pending = none) ∧
    ((∃ c, rest.head? = some c ∧ (c == '+' || c == '-' || Number.isExponentMark c) = true) →
      Refuses number k) := by
  have hempty : k.value = [] := by rw [Cursor.value, hb.written]; rfl
  obtain ⟨hgathered, hrefuses⟩ := number_gathers_behind (.inl hempty) hk (by rwa [hempty])
    (fun _ => hfirst) (by rwa [hempty])
  refine ⟨fun hplain => ?_, hrefuses⟩
  obtain ⟨mid, e, r, hpending⟩ := hgathered hplain
  exact ⟨mid, e, r.value hb, r.rest_eq hk, hpending (.inr hne)⟩

variable {ds w : List Char}

theorem head?_digits (hd : Number.isDigits ds = true) (u : List Char) :
    (ds ++ u).head?.any Number.isExponentMark = false := by
  obtain ⟨d, ds, rfl, hdigit⟩ := Number.exists_digit hd
  exact (Number.plain_of_isDigit hdigit).1

/-- Digits are a number, and the dot behind them is left, if nothing clings to it. -/
theorem number_leaves (hb : k.Begun) (hk : k.ahead = ds ++ '.' :: w)
    (hd : Number.isDigits ds = true)
    (hw : ∀ c, w.head? = some c → Number.clingsToDot c = false) :
    ∃ t left, number k = .ok t left ∧ t.content = (.plainLiteral, String.ofList ds) ∧
      left.ahead = '.' :: w := by
  rw [List.append_cons] at hk
  obtain ⟨hplain, -⟩ := number_gathers hb hk (by simp) (Number.placed_digits_dot hd)
    (head?_digits hd ['.']) fun c hc => by
      have hcling := hw c hc
      simp only [Number.clingsToDot, Bool.or_eq_false_iff] at hcling
      rw [Number.admits_behind_dot hd, hcling.1.1.1, hcling.2]
      rfl
  obtain ⟨mid, e, hvalue, hmid, hpending⟩ := hplain fun c hc => by
    have hcling := hw c hc
    simp only [Number.clingsToDot, Bool.or_eq_false_iff] at hcling ⊢
    exact ⟨⟨hcling.1.1.2, hcling.1.2⟩, hcling.2⟩
  obtain ⟨left, e', hleft, hahead⟩ := giveBackDot_gives hpending hvalue
  have hnumber : Number.isPlainLiteral left.value = true := by
    rw [hleft, Number.isPlainLiteral, Number.isNumber_digits hd, Bool.or_true]
  rw [e]
  unfold judgedNumber
  rw [bind_eq e', get_bind, if_pos hnumber, ← hleft, ← hmid]
  exact ⟨_, _, rfl, rfl, hahead⟩

/-- What clings to the dot comes into the number. -/
theorem number_clings (hb : k.Begun) (hk : k.ahead = ds ++ '.' :: c :: cs)
    (hd : Number.isDigits ds = true) (hc : Number.clingsToDot c = true)
    (e : number k = .ok t left) :
    ∃ more rest, cs = more ++ rest ∧
      Number.isNumber false (ds ++ '.' :: c :: more) = true ∧
      t.content = (.plainLiteral, String.ofList (ds ++ '.' :: c :: more)) := by
  obtain ⟨p, rest, hsplit, hp, hrest⟩ := Number.exists_placed (ds ++ ['.']) (c :: cs)
  have hplaced : Number.placed [] (ds ++ ['.'] ++ p) = true := by
    rw [Number.placed_append, Number.placed_digits_dot hd]
    exact hp
  have hfirst : (ds ++ ['.'] ++ p).head?.any Number.isExponentMark = false := by
    rw [List.append_assoc]
    exact head?_digits hd _
  rw [List.append_cons, hsplit, ← List.append_assoc] at hk
  obtain ⟨hplain, hrefuses⟩ := number_gathers hb hk (by simp) hplaced hfirst hrest
  have hstops : ∀ c, rest.head? = some c →
      (c == '+' || c == '-' || Number.isExponentMark c) = false := by
    intro d hd
    rw [Bool.eq_false_iff]
    intro hsign
    obtain ⟨fault, left', e', -⟩ := hrefuses ⟨d, hd, hsign⟩
    rw [e] at e'
    cases e'
  cases p with
  | nil =>
    obtain rfl : c :: cs = rest := hsplit
    have hnot := hrest c rfl
    rw [List.append_nil, Number.admits_behind_dot hd] at hnot
    have hsign := hstops c rfl
    simp only [Bool.or_eq_false_iff] at hnot hsign
    rw [Number.clingsToDot, hnot.1, hnot.2, hsign.1.1, hsign.1.2] at hc
    cases hc
  | cons d p =>
    obtain ⟨rfl, rfl⟩ := List.cons.inj hsplit
    obtain ⟨mid, e', hvalue, -, -⟩ := hplain hstops
    have hdot : '.' ∉ c :: p := Number.not_mem_of_placed hp (by simp)
    have hlast : mid.value.getLast? ≠ some '.' := by
      rw [hvalue, List.getLast?_append_of_ne_nil _ (List.cons_ne_nil c p)]
      exact fun hlast => hdot (List.mem_of_getLast? hlast)
    rw [e'] at e
    unfold judgedNumber at e
    rw [bind_eq (giveBackDot_stays hlast), get_bind, hvalue, List.append_assoc,
      Number.isPlainLiteral_digits hd] at e
    split at e
    · rename_i hnumber
      refine ⟨p, rest, rfl, hnumber, ?_⟩
      cases e
      show (Kind.plainLiteral, String.ofList mid.value) = _
      rw [hvalue, List.append_assoc]
      rfl
    · cases e

end Numbers

end Scan

/-! ## Graph formats -/

namespace Machine

/-- A graph is read, by the rules of Turtle and of what takes them over. -/
inductive ReadsGraph : Machine → Prop
  | turtle (rules : Graph.Turtle) : ReadsGraph (turtle rules)
  | n3 {v : Graph.Vocabulary} (h : v.isReading = false) : ReadsGraph (n3 v)

variable {m : Machine} {kind : Kind} {k : Cursor} {c : Char} {cs : List Char} {t : Token}

theorem readsGraph_ofSettings {s : Settings}
    (hs : s.format = .turtle ∨ s.format = .triG ∨ s.format = .n3) :
    (ofSettings s).ReadsGraph := by
  rcases s with ⟨format, level, dialect⟩
  rcases hs with rfl | rfl | rfl
  · exact .turtle _
  · exact .turtle _
  · exact .n3 rfl

/-- Neither the first token nor a number changes the rules. -/
theorem ReadsGraph.after (h : m.ReadsGraph) (ht : t.kind = .beginning ∨ t.kind = .plainLiteral) :
    (m.after t).ReadsGraph := by
  cases h with
  | turtle rules => exact .turtle rules
  | @n3 v hv =>
    have hafter : v.after t = v := by
      unfold Graph.Vocabulary.after
      rcases ht with ht | ht <;> rw [ht]
    show (Machine.n3 (v.after t)).ReadsGraph
    rw [hafter]
    exact .n3 hv

theorem ReadsGraph.readsTurtle (h : m.ReadsGraph) : m.ReadsTurtle := by
  cases h with
  | turtle rules => exact .turtle rules
  | n3 hv => exact .n3 hv

variable {previous : Option Kind}

theorem ReadsGraph.dispatch_dot (h : m.ReadsGraph) :
    m.dispatch previous '.' = dotOrNumber number := by
  cases h <;> rfl

theorem ReadsGraph.dispatch_digit (h : m.ReadsGraph) (hc : c.isDigit = true) :
    m.dispatch previous c = number := by
  cases h with
  | turtle rules =>
    show rules.dispatch previous c = number
    unfold Graph.Turtle.dispatch
    split <;> first
      | exact absurd hc (by decide)
      | exact if_pos hc
  | n3 => exact Graph.Notation3.dispatch_of_isDigit hc

/-- A number is read where a digit stands. -/
theorem ReadsGraph.read_number (h : m.ReadsGraph) (hopen : Kind.Open (some kind))
    (hk : k.ahead = c :: cs) (hc : c.isDigit = true) :
    ∃ mid, m.read (some kind) k = number mid ∧ mid.Begun ∧ mid.ahead = c :: cs := by
  have hahead : k.ahead = [] ++ c :: cs := hk
  obtain ⟨mid, e, hmid⟩ := h.readsTurtle.dispatched hopen hahead nofun
    (Number.not_isBlank_of_isDigit hc)
  rw [h.dispatch_digit hc] at e
  exact ⟨mid, e, hmid.begun, hmid.ahead⟩

/-- A dot that no digit follows stands for itself. -/
theorem ReadsGraph.read_dot (h : m.ReadsGraph) (hopen : Kind.Open (some kind))
    (hk : k.ahead = '.' :: cs) (hcs : ∀ c, cs.head? = some c → c.isDigit = false) :
    ∃ t left, m.read (some kind) k = .ok t left ∧ t.content = (.dot, ".") := by
  have hahead : k.ahead = [] ++ '.' :: cs := hk
  obtain ⟨mid, e, hmid⟩ := h.readsTurtle.dispatched hopen hahead nofun (by decide)
  obtain ⟨left, e', r, -⟩ := exists_consume hmid.ahead (by decide)
  have hleft : left.ahead = cs := r.rest_eq hmid.ahead
  have hemit : dotOrNumber number mid = emit .dot left.looked := by
    unfold dotOrNumber
    rw [bind_eq e', bind_eq (look_eq left), hleft]
    cases cs with
    | nil => rfl
    | cons c cs =>
      dsimp only [List.head?_cons]
      rw [hcs c rfl, if_neg Bool.false_ne_true]
  rw [e, h.dispatch_dot, hemit]
  refine ⟨_, _, rfl, ?_⟩
  show (Kind.dot, String.ofList left.looked.value) = _
  rw [value_looked, r.value hmid.begun]

end Machine

/-! ## A whole text -/

namespace Lexer

open Number (clingsToDot startsExponent isDigits isExponentMark)

section Text

variable {s : Settings} {ds w : List Char} {c : Char} {cs : List Char} {t : Token} {l' : Lexer}

/-- The token behind the start of the text is read at its first digit. -/
theorem number_read (hs : s.format = .turtle ∨ s.format = .triG ∨ s.format = .n3)
    (hd : isDigits ds = true) (w : List Char) :
    ∃ l k, (ofText s (String.ofList (ds ++ '.' :: w))).next = (.ok .beginning, l) ∧
      l.machine.ReadsGraph ∧ l.cursor.previous = some .beginning ∧
      l.machine.read (some .beginning) l.cursor.fresh = number k ∧ k.Begun ∧
      k.ahead = ds ++ '.' :: w := by
  obtain ⟨d, ds, rfl, hdigit⟩ := Number.exists_digit hd
  have hgraph := (Machine.readsGraph_ofSettings hs).after (t := .beginning) (.inl rfl)
  have hopen : Kind.Open (some .beginning) := ⟨nofun, nofun⟩
  let start := (ofText s (String.ofList (d :: ds ++ '.' :: w))).cursor
  let l : Lexer := ⟨(Machine.ofSettings s).after .beginning,
    { start with previous := some .beginning }⟩
  have hahead : l.cursor.fresh.ahead = d :: ds ++ '.' :: w := String.toList_ofList
  obtain ⟨k, e, hb, hk⟩ := hgraph.read_number hopen hahead hdigit
  exact ⟨l, k, next_beginning rfl, hgraph, rfl, e, hb, hk⟩

/-- The dot is a token of its own if nothing clings to it. -/
theorem dot_left (hs : s.format = .turtle ∨ s.format = .triG ∨ s.format = .n3)
    (hd : isDigits ds = true) (hw : ∀ c, w.head? = some c → clingsToDot c = false) :
    ∃ ts l', (ofText s (String.ofList (ds ++ '.' :: w))).Reaches ts l' ∧
      ts.map Token.content =
        [(.beginning, ""), (.plainLiteral, String.ofList ds), (.dot, ".")] := by
  obtain ⟨l, k, hfirst, hgraph, hprevious, e, hb, hk⟩ := number_read hs hd w
  obtain ⟨t, left, e', ht, hleft⟩ := number_leaves hb hk hd hw
  have hnumber := next_of_read hprevious nofun (e.trans e')
  have hkind : t.kind = .plainLiteral := congrArg Prod.fst ht
  have hbehind := previous_of_next hnumber (by rw [hprevious]; exact nofun)
  rw [hkind] at hbehind
  have hopen : Kind.Open (some .plainLiteral) := ⟨nofun, nofun⟩
  obtain ⟨t', left', e'', ht'⟩ := (hgraph.after (.inr hkind)).read_dot (k := left.fresh) hopen hleft
    fun c hc => by
      have hcling := hw c hc
      simp only [clingsToDot, Bool.or_eq_false_iff] at hcling
      exact hcling.1.1.1
  have hdot := next_of_read hbehind nofun e''
  refine ⟨[.beginning] ++ [t] ++ [t'], _, ((Reaches.start.next hfirst).next hnumber).next hdot, ?_⟩
  show [Token.beginning.content, t.content, t'.content] = _
  rw [ht, ht']
  rfl

/-- If something clings to it, the second token is another one, if any. -/
theorem dot_taken (hs : s.format = .turtle ∨ s.format = .triG ∨ s.format = .n3)
    (hd : isDigits ds = true) (hc : clingsToDot c = true)
    (e : (afterCalls 1 (ofText s (String.ofList (ds ++ '.' :: c :: cs)))).next = (.ok t, l')) :
    ∃ more rest, cs = more ++ rest ∧ Number.isNumber false (ds ++ '.' :: c :: more) = true ∧
      t.content = (.plainLiteral, String.ofList (ds ++ '.' :: c :: more)) := by
  obtain ⟨l, k, hfirst, -, hprevious, e', hb, hk⟩ := number_read hs hd (c :: cs)
  have hcalls : afterCalls 1 (ofText s (String.ofList (ds ++ '.' :: c :: cs))) = l :=
    congrArg Prod.snd hfirst
  rw [hcalls] at e
  exact number_clings hb hk hd hc (e'.symm.trans (read_of_next e hprevious nofun))

end Text

/-- Digits and a dot at the start of a text are a number and a dot exactly if no digit, no sign
and no mark of an exponent follows. Where a mark follows that begins no exponent, there is no
number either. -/
theorem trailing_dot (s : Settings)
    (hs : s.format = .turtle ∨ s.format = .triG ∨ s.format = .n3) (ds w : List Char)
    (hd : isDigits ds = true) :
    ((∃ ts l', (ofText s (String.ofList (ds ++ '.' :: w))).Reaches ts l' ∧
        ts.map Token.content =
          [(.beginning, ""), (.plainLiteral, String.ofList ds), (.dot, ".")]) ↔
      ∀ c, w.head? = some c → clingsToDot c = false) ∧
    (w.head?.any isExponentMark = true → startsExponent w = false →
      ∃ fault,
        (afterCalls 1 (ofText s (String.ofList (ds ++ '.' :: w)))).next.1 = .error fault) := by
  refine ⟨⟨?_, dot_left hs hd⟩, ?_⟩
  · rintro ⟨ts, l', hreach, hts⟩ c hc
    obtain ⟨cs, rfl⟩ := List.head?_eq_some_iff.1 hc
    rw [Bool.eq_false_iff]
    intro hcling
    obtain ⟨t₀, ts, rfl, -, hts⟩ := List.map_eq_cons_iff.1 hts
    obtain ⟨t₁, ts, rfl, ht₁, -⟩ := List.map_eq_cons_iff.1 hts
    obtain ⟨l, hfirst, hreach⟩ := hreach.of_cons
    obtain ⟨l₁, hsecond, -⟩ := hreach.of_cons
    have hcalls : afterCalls 1 (ofText s (String.ofList (ds ++ '.' :: c :: cs))) = l :=
      congrArg Prod.snd hfirst
    rw [← hcalls] at hsecond
    obtain ⟨more, rest, -, -, ht⟩ := dot_taken hs hd hcling hsecond
    rw [ht₁] at ht
    have htext : ds = ds ++ '.' :: c :: more :=
      String.ofList_injective (congrArg Prod.snd ht)
    exact List.cons_ne_nil '.' _ (List.self_eq_append_right.1 htext)
  · intro hmark hnot
    cases w with
    | nil => cases hmark
    | cons c cs =>
      have hmark : isExponentMark c = true := hmark
      cases hitem : (afterCalls 1 (ofText s (String.ofList (ds ++ '.' :: c :: cs)))).next.1 with
      | error fault => exact ⟨fault, rfl⟩
      | ok t =>
        obtain ⟨more, rest, rfl, hnumber, -⟩ := dot_taken hs hd (by simp [clingsToDot, hmark])
          (Prod.ext hitem rfl)
        rw [Number.startsExponent_of_isNumber hd hmark hnumber] at hnot
        cases hnot

/-- Before a name, and before a mark that only a sign follows. -/
theorem trailing_dot_name :
    let s : Settings := .ofFormat .turtle
    let ds := ['1', '2']
    (s.format = .turtle ∨ s.format = .triG ∨ s.format = .n3) ∧ isDigits ds = true ∧
      (∃ ts l', (ofText s (String.ofList (ds ++ '.' :: ['a', ':', 'b']))).Reaches ts l' ∧
        ts.map Token.content =
          [(.beginning, ""), (.plainLiteral, String.ofList ds), (.dot, ".")]) ∧
      startsExponent ['e', '+'] = false ∧
      ∃ fault, (afterCalls 1 (ofText s (String.ofList (ds ++ '.' :: ['e', '+'])))).next.1 =
        .error fault := by
  intro s ds
  have hs : s.format = .turtle ∨ s.format = .triG ∨ s.format = .n3 := .inl rfl
  have hd : isDigits ds = true := by decide
  have hname : ∀ c, ['a', ':', 'b'].head? = some c → clingsToDot c = false := by
    rintro c ⟨⟩
    decide
  exact ⟨hs, hd, (trailing_dot s hs ds ['a', ':', 'b'] hd).1.2 hname, by decide,
    (trailing_dot s hs ds ['e', '+'] hd).2 (by decide) (by decide)⟩

/-- A name that begins with the mark of an exponent is not told from one behind a dot. -/
theorem not_trailing_dot_before_mark :
    isDigits ['1'] = true ∧ startsExponent "ex:a".toList = false ∧
      ("ex:a".toList.head?.any fun c => c.isDigit || c == '+' || c == '-') = false ∧
      (afterCalls 1 (ofText (.ofFormat .turtle) "1.ex:a")).next.1.toOption = none := by
  decide +kernel

end Lexer

end TripleLex

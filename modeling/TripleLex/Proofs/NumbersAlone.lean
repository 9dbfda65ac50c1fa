import TripleLex.Proofs.Quotations
import TripleLex.Proofs.TrailingDots

/-!
# Numbers that stand alone

Two scanners gather numbers, the one of the graph formats and of TSV and the one of
queries. They differ in what they do with a sign or a mark that has no place in the number,
but whatever the grammar derives is placed throughout, so that neither cuts it nor refuses
it: up to the end of the text all of it is gathered, and then it is judged by the grammar
that derived it. The dot that stands first may be taken before gathering begins.

A dot at the end is given back where no number ends in one. At the first level of the query
language some do, and there it stays.

## Main results

* `Scan.brings_number`, `Scan.brings_dotOrNumber`, `Query.Sparql.brings_body` — the token.
* `Machine.ReadsNumbers` — what a machine that reads numbers does with them.
* `Lexer.numbers_alone` — the runs.
-/

namespace TripleLex

open Scan

namespace Number

variable {dot : Bool} {p : List Char}

/-- Where a final dot is allowed, all other numbers are numbers too. -/
theorem isNumber_of_false (h : isNumber false p = true) : isNumber dot p = true := by
  cases dot with
  | false => exact h
  | true => exact isUnsigned_true_iff.2 (.inl h)

/-- A sign is no number. -/
theorem ne_sign {c : Char} (h : isNumber dot p = true) (hc : c = '+' ∨ c = '-') :
    p ≠ [c] := by
  rintro rfl
  rcases hc with rfl | rfl <;> cases dot <;> exact absurd h (by decide)

end Number

/-! ## The token -/

namespace Scan

variable {k mid : Cursor} {cs : List Char} {d : Char}

/-- A scan that comes to making a token of what was gathered, up to the end of a text. -/
theorem brings_gathered {m : Scan Token} [hm : Composed true m] {kind : Kind}
    (e : m k = emit kind mid) (hk : k.Clear) (hahead : mid.ahead = [])
    (hpending : mid.pending = none) : Brings m k [] (kind, String.ofList mid.value) :=
  ⟨⟨kind, mid.text, mid.span⟩, { mid with written := [], previous := some kind }, e, rfl, rfl,
    hahead, hpending, hm.whole e hk.whole⟩

theorem judgedNumber_eq (h : Number.isNumber false mid.value = true) :
    judgedNumber mid = emit .plainLiteral mid := by
  have hplain : Number.isPlainLiteral mid.value = true := by
    rw [Number.isPlainLiteral, h, Bool.or_true]
  unfold judgedNumber
  rw [bind_eq (giveBackDot_stays (Number.getLast?_ne_dot h)), get_bind, if_pos hplain]

/-- A number is one token. -/
theorem brings_number (hb : k.Begun) (hc : k.Clear) (hk : k.ahead = cs)
    (h : Number.isNumber false cs = true) :
    Brings number k [] (.plainLiteral, String.ofList cs) := by
  rw [← List.append_nil cs] at hk
  obtain ⟨hgathers, -⟩ := number_gathers hb hk (Number.ne_nil_of_isNumber h)
    (Number.placed_of_isNumber h) (Number.Starts.of_isNumber h).head?_any nofun
  obtain ⟨mid, e, rfl, hahead, hpending⟩ := hgathers nofun
  exact brings_gathered (e.trans (judgedNumber_eq h)) hc hahead hpending

/-- So is one whose dot is taken before the rest is gathered. -/
theorem brings_dotOrNumber (hb : k.Begun) (hc : k.Clear) (hk : k.ahead = '.' :: d :: cs)
    (hd : d.isDigit = true) (h : Number.isNumber false ('.' :: d :: cs) = true) :
    Brings (dotOrNumber number) k [] (.plainLiteral, String.ofList ('.' :: d :: cs)) := by
  obtain ⟨mid, e, r, hmid⟩ := dotOrNumber_gathers number hk hd
  have hvalue : mid.value = ['.'] := r.value hb
  obtain ⟨-, hplaced⟩ := Bool.and_eq_true_iff.1 (Number.placed_of_isNumber h)
  have hahead : mid.ahead = (d :: cs) ++ [] := by
    rw [List.append_nil]
    exact r.rest_eq hk
  obtain ⟨hgathers, -⟩ := number_gathers_behind (.inr hvalue) hahead (by rwa [hvalue])
    (by rw [hvalue]; exact nofun) nofun
  obtain ⟨left, e', r', hpending⟩ := hgathers nofun
  have hleft : left.value = '.' :: d :: cs := (r.trans r').value hb
  have hjudged : judgedNumber left = emit .plainLiteral left :=
    judgedNumber_eq (by rwa [hleft])
  rw [← hleft]
  exact brings_gathered (e.trans (e'.trans hjudged)) hc (r'.rest_eq hahead)
    (hpending (.inl hmid))

end Scan

namespace Query.Sparql

variable {q : Query.Sparql} {k : Cursor}

/-- In a query a number is made a token by the grammar of its level. -/
theorem numericToken_emits (h : Number.isNumber q.level.allowsFinalDot k.value = true) :
    q.numericToken k = emit .plainLiteral k := by
  have hjudge : (do
      let k ← get
      if Number.isNumber q.level.allowsFinalDot k.value then emit .plainLiteral
      else invalidForm "Numeric Literal" k.text : Scan Token) k = emit .plainLiteral k := by
    rw [get_bind, if_pos h]
  unfold numericToken
  cases hdot : q.level.allowsFinalDot with
  | true =>
    rw [hdot] at hjudge
    exact hjudge
  | false =>
    rw [hdot] at h hjudge
    exact (bind_eq (giveBackDot_stays (Number.getLast?_ne_dot h))).trans hjudge

theorem judged_emits (h : Number.isNumber q.level.allowsFinalDot k.value = true) :
    q.judged k = emit .plainLiteral k := by
  have hplus := Number.ne_sign h (.inl rfl)
  have hminus := Number.ne_sign h (.inr rfl)
  unfold judged
  rw [get_bind, if_neg (by simpa using hplus), if_neg (by simpa using hminus)]
  exact numericToken_emits h

theorem brings_body {c : Char} {cs : List Char} (previous : Option Kind) (hb : k.Begun)
    (hc : k.Clear) (hk : k.ahead = c :: cs)
    (h : Number.isNumber q.level.allowsFinalDot (c :: cs) = true) :
    Brings (q.body previous c) k [] (.plainLiteral, String.ofList (c :: cs)) := by
  obtain ⟨mid, e, hvalue, hahead, hpending⟩ := body_gathers (q := q) previous (.of_isNumber h) hb hk
    (List.append_nil _).symm (List.cons_ne_nil c cs) (Number.placed_of_isNumber h) nofun
  rw [← hvalue] at h ⊢
  exact brings_gathered (e.trans (judged_emits h)) hc hahead hpending

end Query.Sparql

/-! ## Machines -/

theorem Table.Tsv.dispatch_of_isDigit {previous : Option Kind} {c : Char}
    (h : c.isDigit = true) : dispatch previous c = number := by
  have hline : Unicode.isLineEnd c = false := not_isLineEnd_of_isDigit h
  have hne : ∀ d : Char, d.isDigit = false → (c == d) = false := by
    intro d hd
    rw [beq_eq_false_iff_ne]
    rintro rfl
    rw [hd] at h
    cases h
  unfold dispatch
  split <;> first
    | exact absurd h (by decide)
    | rw [hline, hne '@' (by decide), hne '^' (by decide), h]
  rfl

namespace Machine

open TripleLex.Graph

/-- The machine reads numbers behind a token of a kind and a gap; `dot` says whether they may
end in a dot. -/
structure ReadsNumbers (m : Machine) (kind : Kind) (gap : List Char) (dot : Bool)
    (dispatch : Char → Scan Token) : Prop where
  begins : m.Dispatches kind gap dispatch
  number : ∀ {c : Char} {cs : List Char} {k : Cursor}, k.Begun → k.Clear → k.ahead = c :: cs →
    Number.isNumber dot (c :: cs) = true →
    Brings (dispatch c) k [] (.plainLiteral, String.ofList (c :: cs))
  ends : ∀ t : Token, t.kind = .plainLiteral →
    ∃ dispatch', (m.after t).Dispatches t.kind [] dispatch'

variable {m : Machine} {kind : Kind} {gap : List Char} {dot : Bool}
  {dispatch : Char → Scan Token}

theorem ReadsNumbers.runs (hm : m.ReadsNumbers kind gap dot dispatch) (hkind : kind ≠ .ending)
    {cs : List Char} (h : Number.isNumber dot cs = true) :
    m.Runs kind (gap ++ cs) [(.plainLiteral, String.ofList cs), (.ending, "")] := by
  obtain ⟨c, cs, rfl, hblank⟩ := (Number.Starts.of_isNumber h).exists_cons
  have hgives : m.Gives kind (gap ++ c :: cs) [] (.plainLiteral, String.ofList (c :: cs)) := by
    refine hm.begins.gives hblank fun k hb hk => ?_
    exact hm.number hb hk.clear (hk.ahead.trans (List.append_nil _)) h
  exact hgives.alone hkind nofun hm.ends

/-- The machine reads numbers if a sign, a digit and a dot begin one; the dot may be taken for
itself first. -/
theorem brings_dispatch (hsign : ∀ c, c = '+' ∨ c = '-' → dispatch c = Scan.number)
    (hdigit : ∀ c : Char, c.isDigit = true → dispatch c = Scan.number)
    (hdot : dispatch '.' = Scan.number ∨ dispatch '.' = dotOrNumber Scan.number)
    {c : Char} {cs : List Char} {k : Cursor} (hb : k.Begun) (hc : k.Clear) (hk : k.ahead = c :: cs)
    (h : Number.isNumber false (c :: cs) = true) :
    Brings (dispatch c) k [] (.plainLiteral, String.ofList (c :: cs)) := by
  have hwhole : dispatch c = Scan.number →
      Brings (dispatch c) k [] (.plainLiteral, String.ofList (c :: cs)) := by
    intro hnumber
    rw [hnumber]
    exact brings_number hb hc hk h
  cases Number.Starts.of_isNumber h with
  | digit hd => exact hwhole (hdigit c hd)
  | sign hs => exact hwhole (hsign c hs)
  | dot hd =>
    rcases hdot with hdot | hdot
    · exact hwhole hdot
    · rw [hdot]
      exact brings_dotOrNumber hb hc hk hd h

theorem readsNumbers_turtle (rules : Turtle) :
    (turtle rules).ReadsNumbers .beginning [] false (rules.dispatch (some .beginning)) where
  begins := dispatches_turtle rules nofun nofun nofun
  number := brings_dispatch (by rintro c (rfl | rfl) <;> rfl)
    (fun _ hc => (ReadsGraph.turtle rules).dispatch_digit hc) (.inr rfl)
  ends t ht := by
    rw [ht]
    exact ⟨_, dispatches_turtle rules nofun nofun nofun⟩

theorem readsNumbers_n3 :
    (n3 .empty).ReadsNumbers .beginning [] false
      (Notation3.dispatch .empty (some .beginning)) where
  begins := dispatches_n3 rfl nofun nofun nofun
  number := brings_dispatch (by rintro c (rfl | rfl) <;> rfl)
    (fun _ hc => Notation3.dispatch_of_isDigit hc) (.inr rfl)
  ends t ht := by
    have hafter : Vocabulary.after .empty t = .empty := by
      unfold Vocabulary.after
      rw [ht]
    rw [ht]
    exact ⟨_, dispatches_n3 (by rw [hafter]; rfl) nofun nofun nofun⟩

theorem readsNumbers_tsv :
    tsv.ReadsNumbers .beginning [] false (Table.Tsv.dispatch (some .beginning)) where
  begins := dispatches_tsv nofun
  number := brings_dispatch (by rintro c (rfl | rfl) <;> rfl)
    (fun _ hc => Table.Tsv.dispatch_of_isDigit hc) (.inl rfl)
  ends t ht := by
    rw [ht]
    exact ⟨_, dispatches_tsv nofun⟩

theorem readsNumbers_sparql {q : Query.Sparql} (hq : q.progress.inBody = true) :
    (sparql q).ReadsNumbers (.keyword .ask) [' '] q.level.allowsFinalDot
      (q.body (some (.keyword .ask))) where
  begins := dispatches_sparql nofun nofun hq (List.forall_mem_singleton.2 (by decide))
  number := Query.Sparql.brings_body _
  ends t ht := by
    have hafter : (q.progress.after t).inBody = true := by
      unfold Query.Progress.after
      rw [ht]
      exact hq
    rw [ht]
    exact ⟨_, dispatches_sparql nofun nofun hafter nofun⟩

end Machine

/-! ## Runs -/

/-- Whether the format has numbers as tokens. -/
def Format.hasNumbers : Format → Bool
  | .turtle | .triG | .n3 | .sparql | .tsv => true
  | .nTriples | .nQuads | .csv => false

/-- Whether numbers may end in a dot. -/
def Settings.allowsFinalDot (s : Settings) : Bool :=
  s.format == .sparql && s.level.allowsFinalDot

namespace Lexer

theorem number_alone {s : Settings} (hs : s.format.hasNumbers = true) {cs : List Char}
    (h : Number.isNumber s.allowsFinalDot cs = true) :
    ReadsAlone s cs (.plainLiteral, String.ofList cs) := by
  refine Machine.Runs.run_ofText ?_
  obtain ⟨format, level, dialect⟩ := s
  cases format with
  | turtle => exact (Machine.readsNumbers_turtle _).runs nofun h
  | triG => exact (Machine.readsNumbers_turtle _).runs nofun h
  | n3 => exact Machine.readsNumbers_n3.runs nofun h
  | sparql =>
    refine runs_ask fun q hlevel hq => (Machine.readsNumbers_sparql hq).runs nofun ?_
    rw [hlevel]
    exact h
  | tsv => exact Machine.readsNumbers_tsv.runs nofun h
  | nTriples => cases hs
  | nQuads => cases hs
  | csv => cases hs

/-- A number that stands alone in a text, or behind the first keyword of a query, is read as
one token, whatever its sign, its dot and its exponent. At the first level of the query
language it may end in a dot. -/
theorem numbers_alone (s : Settings) (hs : s.format.hasNumbers = true) (text : String)
    (h : Number.isNumber false text.toList = true ∨
      s.format = .sparql ∧ s.level = .sparql10 ∧ Number.isNumber true text.toList = true) :
    ∃ ts, (ofText s (String.ofList s.format.leadIn ++ text)).run = .ok ts ∧
      ts.map Token.content = (.beginning, "") ::
        (s.format.leadContents ++ [(.plainLiteral, text), (.ending, "")]) := by
  have hnumber : Number.isNumber s.allowsFinalDot text.toList = true := by
    rcases h with h | ⟨hformat, hlevel, h⟩
    · exact Number.isNumber_of_false h
    · rw [Settings.allowsFinalDot, hformat, hlevel]
      exact h
  have halone := number_alone hs hnumber
  rwa [ReadsAlone, String.ofList_append, String.ofList_toList] at halone

/-- A dot first and an exponent, a sign and a dot last. -/
theorem numbers_alone_dots :
    Number.isNumber false "-.5E+07".toList = true ∧
      Number.isNumber false "+1.".toList = false ∧ Number.isNumber true "+1.".toList = true ∧
      (∃ ts, (ofText (.ofFormat .tsv) "-.5E+07").run = .ok ts ∧ ts.map Token.content =
        [(.beginning, ""), (.plainLiteral, "-.5E+07"), (.ending, "")]) ∧
      (∃ ts, (ofText ⟨.sparql, .sparql10, .submission⟩ "ASK +1.").run = .ok ts ∧
        ts.map Token.content = [(.beginning, ""), (.keyword .ask, "ASK"), (.plainLiteral, "+1."),
          (.ending, "")]) :=
  ⟨by decide, by decide, by decide, numbers_alone (.ofFormat .tsv) rfl "-.5E+07" (.inl (by decide)),
    numbers_alone ⟨.sparql, .sparql10, .submission⟩ rfl "+1." (.inr ⟨rfl, rfl, by decide⟩)⟩

end Lexer

end TripleLex

import TripleLex.Proofs.Cites
import TripleLex.Proofs.Closing
import TripleLex.Proofs.MirroredMachines
import TripleLex.Proofs.WholeRuns

/-!
# Ends taken for characters

Where a message needs the next character and there is none, `endOfInput` stands for
it. Whoever names the next character has to ask first whether there is one, and most
readers do. Those that do not name `endOfInput` exactly where the text ends behind the
sign that they have begun with: a language tag or a directive behind `@`, and in single
languages a label behind `_`, a variable behind `$` and the second `&` of two.

So a call takes the end for a character exactly where nothing but such a sign is left
(`Machine.looksOn`), as long as `endOfInput` is no character of the text. After any
number of calls it is none of what is left either, since that was to be read before.

## Main results

* `Scan.mistakesEnd_languageTag_iff` and so on — the readers that do not ask.
* `Machine.mistakesEnd_read_iff` — all rules.
* `Lexer.end_mistaken` — any number of calls.
-/

namespace TripleLex

open Scan
open Cursor (Begun Reads)

/-- The fault takes the end of the input for a character. -/
def Fault.MistakesEnd (fault : Fault) : Prop := fault.unexpected? = some endOfInput

theorem Fault.mistakesEnd_iff {fault : Fault} : fault.MistakesEnd ↔
    ∃ expected span, fault = .unexpectedCharacter endOfInput expected span := by
  cases fault <;> simp [MistakesEnd, unexpected?]

namespace Cursor

variable {k mid : Cursor} {c : Char} {cs ws : List Char}

/-- Behind its sign a token has this text, and the rest of the input is left. -/
structure BehindSign (mid : Cursor) (cs ws : List Char) : Prop where
  ahead : mid.ahead = cs
  unmarked : endOfInput ∉ mid.ahead
  written : mid.written = ws

theorem behindSign_moved (hb : k.Begun) (ha : k.ahead = c :: cs) (hk : endOfInput ∉ k.ahead) :
    (k.moved c).BehindSign cs [] := by
  have hrest : (k.moved c).ahead = cs := by rw [ahead_moved, ha, List.tail_cons]
  refine ⟨hrest, fun h => hk ?_, k.same_taken.written.trans hb.written⟩
  rw [ha]
  exact List.mem_cons_of_mem c (hrest ▸ h)

theorem behindSign_pushed (hb : k.Begun) (ha : k.ahead = c :: cs) (hk : endOfInput ∉ k.ahead) :
    ((k.moved c).push c).BehindSign cs [c] :=
  have h := behindSign_moved hb ha hk
  ⟨h.ahead, h.unmarked, congrArg (c :: ·) h.written⟩

/-- Whether anything has been added where there was nothing. -/
theorem BehindSign.isEmpty (h : k.BehindSign cs []) (r : k.Reads ws ws mid) :
    mid.isEmpty = ws.isEmpty := by
  rw [Cursor.isEmpty, r.written, h.written, List.append_nil, List.isEmpty_reverse]

/-- Whether anything has been added to the sign. -/
theorem BehindSign.isSingle (h : k.BehindSign cs [c]) (r : k.Reads ws ws mid) :
    (mid.value.length == 1) = ws.isEmpty := by
  rw [value, r.written, h.written]
  cases ws <;> simp

end Cursor

namespace Scan

/-- The scan takes the end of the input for a character. -/
abbrev MistakesEnd {α : Type} (m : Scan α) (k : Cursor) : Prop := FailsFor Fault.MistakesEnd m k

/-! ## Those who ask and those who do not -/

section Rules

variable {α β : Type} {known : List Char} {k mid : Cursor}

/-- Where the mark of the end is no character of the text, it is not named by those
who name what they have found. -/
theorem Cites.not_mistakesEnd {m : Scan α} (h : Cites known m) (hknown : endOfInput ∉ known)
    (hk : endOfInput ∉ k.ahead) : ¬ MistakesEnd m k := by
  rintro ⟨fault, left, e, hfault⟩
  rcases h.cites e hfault with hc | hc | hc
  · exact hknown hc
  · -- the dot that may be given back is not the mark
    revert hc
    decide
  · exact hk hc

theorem mistakesEnd_get_iff {f : Cursor → Scan α} :
    MistakesEnd (get >>= f) k ↔ MistakesEnd (f k) k := Iff.rfl

theorem mistakesEnd_bind_iff {m : Scan α} {f : α → Scan β} {a : α} (e : m k = .ok a mid) :
    MistakesEnd (m >>= f) k ↔ MistakesEnd (f a) mid := by
  unfold MistakesEnd FailsFor
  rw [bind_eq e]

/-- What comes behind a scan and asks has no part in it. -/
theorem mistakesEnd_bind_iff_left {m : Scan α} {f : α → Scan β} [hm : Composed true m]
    (hf : ∀ a, Cites [] (f a)) (hk : endOfInput ∉ k.ahead) :
    MistakesEnd (m >>= f) k ↔ MistakesEnd m k := by
  refine ⟨?_, FailsFor.bind⟩
  rintro ⟨fault, left, e, hfault⟩
  rcases error_of_bind e with e | ⟨a, mid, e₁, e⟩
  · exact ⟨fault, left, e, hfault⟩
  · have hmid : endOfInput ∉ mid.ahead := fun h =>
      (hm.supplies k (by rw [e₁]; exact .inr h)).elim (by decide) hk
    exact absurd ⟨fault, left, e, hfault⟩ ((hf a).not_mistakesEnd List.not_mem_nil hmid)

/-- The next character is named without asking whether there is one. -/
theorem mistakesEnd_unexpectedNext_iff {expected : String} (hk : endOfInput ∉ k.ahead) :
    MistakesEnd (do unexpectedCharacter (← nextOrEnd) expected : Scan α) k ↔ k.ahead = [] := by
  have hnext : nextOrEnd k = .ok (k.ahead.head?.getD endOfInput) k.looked := bind_eq (look_eq k)
  rw [mistakesEnd_bind_iff hnext]
  cases ha : k.ahead with
  | nil => exact iff_of_true ⟨_, _, rfl, rfl⟩ rfl
  | cons c cs =>
    refine iff_of_false ?_ (List.cons_ne_nil c cs)
    rintro ⟨fault, left, e, hfault⟩
    cases e
    refine hk ?_
    rw [ha, ← Option.some.inj hfault]
    exact List.mem_cons_self

/-- A second character is to follow, and what follows is named if it does not. -/
theorem mistakesEnd_nextIs_iff {second : Char} {expected : String} {f : Bool → Scan α}
    (htrue : Cites [] (f true)) (hfalse : f false = do unexpectedCharacter (← nextOrEnd) expected)
    (hk : endOfInput ∉ k.ahead) : MistakesEnd (nextIs second >>= f) k ↔ k.ahead = [] := by
  have hlooked : endOfInput ∉ k.looked.ahead := by rwa [Cursor.ahead_looked]
  rw [mistakesEnd_bind_iff (nextIs_eq second k)]
  cases hfound : k.ahead.head? == some second with
  | true =>
    refine iff_of_false (htrue.not_mistakesEnd List.not_mem_nil hlooked) fun ha => ?_
    rw [ha] at hfound
    cases hfound
  | false => rw [hfalse, mistakesEnd_unexpectedNext_iff hlooked, Cursor.ahead_looked]

/-- Characters are gathered, and what follows is named if there are none. -/
theorem mistakesEnd_gathered_iff {p : Char → Bool} {empty : Cursor → Bool} {expected : String}
    {f : Cursor → Scan α} [hf : ∀ k, Cites [] (f k)]
    (hp : ∀ c, p c = true → Unicode.isLineEnd c = false)
    (hempty : ∀ {mid : Cursor} {ws}, k.Reads ws ws mid → empty mid = ws.isEmpty)
    (hk : endOfInput ∉ k.ahead) :
    MistakesEnd (do
      consumeWhile p
      let k ← get
      if empty k then unexpectedCharacter (← nextOrEnd) expected else f k) k ↔ k.ahead = [] := by
  obtain ⟨mid, e, r, -⟩ := succeeds_consumeWhile hp (k := k)
  have hmid : endOfInput ∉ mid.ahead := fun h =>
    hk (r.ahead ▸ List.mem_append_right _ h)
  rw [mistakesEnd_bind_iff e, mistakesEnd_get_iff, hempty r]
  split
  · rename_i hnone
    rw [mistakesEnd_unexpectedNext_iff hmid, r.ahead, List.isEmpty_iff.1 hnone, List.nil_append]
  · rename_i hsome
    refine iff_of_false ((hf mid).not_mistakesEnd List.not_mem_nil hmid) fun ha => hsome ?_
    rw [ha]
    rfl

end Rules

/-! ## Readers that do not ask -/

section Readers

variable {k mid : Cursor} {c : Char} {cs ws : List Char}

theorem mistakesEnd_languageTag_iff (hb : k.Begun) (ha : k.ahead = c :: cs)
    (hk : endOfInput ∉ k.ahead) : MistakesEnd languageTag k ↔ cs = [] := by
  have h := Cursor.behindSign_moved hb ha hk
  unfold languageTag
  rw [mistakesEnd_bind_iff (skip_cons ha),
    mistakesEnd_gathered_iff (fun _ => not_isLineEnd_of_isTagChar) h.isEmpty h.unmarked, h.ahead]

theorem mistakesEnd_directiveWord_iff (hb : k.Begun) (ha : k.ahead = c :: cs)
    (hk : endOfInput ∉ k.ahead) : MistakesEnd directiveWord k ↔ cs = [] := by
  have h := Cursor.behindSign_pushed hb ha hk
  unfold directiveWord
  rw [mistakesEnd_bind_iff (consume_cons ha),
    mistakesEnd_gathered_iff (fun _ => not_isLineEnd_of_isAlphabetic) h.isSingle h.unmarked,
    h.ahead]

/-- A directive is told by its word. -/
theorem mistakesEnd_directive_iff {f : List Char → Scan Token} (hf : ∀ word, Cites [] (f word))
    (hb : k.Begun) (ha : k.ahead = c :: cs) (hk : endOfInput ∉ k.ahead) :
    MistakesEnd (directiveWord >>= f) k ↔ cs = [] := by
  rw [mistakesEnd_bind_iff_left hf hk, mistakesEnd_directiveWord_iff hb ha hk]

end Readers

end Scan

/-! ## Languages -/

section Languages

variable {k : Cursor} {c : Char} {cs : List Char} {kind : Kind}

/-- A blank node that must not stand here is refused for that. -/
theorem Graph.LineFormat.mistakesEnd_blankNode_iff {format : Graph.LineFormat} (hb : k.Begun)
    (hp : k.previous = some kind) (ha : k.ahead = c :: cs) (hk : endOfInput ∉ k.ahead) :
    MistakesEnd format.blankNode k ↔
      cs = [] ∧ (endsLiteral (some kind) && format == .triples) = false := by
  unfold blankNode
  cases hrefused : endsLiteral (some kind) && format == .triples with
  | true =>
    refine iff_of_false ?_ (by simp)
    rintro ⟨fault, left, e, hfault⟩
    -- the check for a graph comes first, and its fault names no character
    rcases error_of_bind e with e | ⟨_, mid, e₁, -⟩
    · exact (cites_checkGraph format).not_mistakesEnd List.not_mem_nil hk ⟨fault, left, e, hfault⟩
    · unfold checkGraph at e₁
      rw [get_bind, hp, if_pos hrefused] at e₁
      cases e₁
  | false =>
    have hcheck : format.checkGraph k = .ok () k := by
      unfold checkGraph
      rw [get_bind, hp, if_neg (by rw [hrefused]; decide)]
      rfl
    have h := Cursor.behindSign_pushed hb ha hk
    rw [mistakesEnd_bind_iff hcheck, mistakesEnd_bind_iff (consume_cons ha),
      mistakesEnd_nextIs_iff ?_ rfl h.unmarked, h.ahead, and_iff_left rfl]
    rw [Bool.not_true, if_neg Bool.false_ne_true]
    infer_instance

theorem Query.Sparql.mistakesEnd_variableName_iff (hb : k.Begun) (ha : k.ahead = c :: cs)
    (hk : endOfInput ∉ k.ahead) : MistakesEnd (variableName '$') k ↔ cs = [] := by
  have h := Cursor.behindSign_moved hb ha hk
  have hsign : ¬ ('$' == '?') = true := by decide
  unfold variableName gatherVariable
  simp only [if_neg hsign]
  rw [bind_assoc, mistakesEnd_bind_iff (skip_cons ha),
    mistakesEnd_gathered_iff (fun _ => not_isLineEnd_of_isVariableChar) h.isEmpty h.unmarked,
    h.ahead]

theorem Query.Sparql.mistakesEnd_ampersand_iff (hb : k.Begun) (ha : k.ahead = c :: cs)
    (hk : endOfInput ∉ k.ahead) : MistakesEnd ampersand k ↔ cs = [] := by
  have h := Cursor.behindSign_pushed hb ha hk
  unfold ampersand
  rw [mistakesEnd_bind_iff (consume_cons ha), mistakesEnd_nextIs_iff ?_ rfl h.unmarked, h.ahead]
  rw [if_pos rfl]
  infer_instance

end Languages

/-! ## Machines -/

namespace Machine

/-- Whether the reader of a character, behind a token of a kind, names what follows
without asking whether anything does. -/
def looksOn : Machine → Kind → Char → Bool
  | lines format, kind, c =>
    c == '_' && !(Graph.LineFormat.endsLiteral (some kind) && format == .triples) ||
      c == '@' && kind == .literal
  | turtle _, kind, c => c == '@' && kind != .plainLiteral
  | n3 _, _, c => c == '@'
  | sparql query, kind, c =>
    query.progress.inBody && (c == '$' || c == '&' || c == '@' && kind.isQuoted)
  | csv, _, _ => false
  | tsv, kind, c => c == '@' && kind == .literal

variable {m : Machine} {k : Cursor} {kind : Kind} {c : Char} {cs : List Char}

/-- But for a language tag, what is found is named. -/
theorem cites_tsvDispatch {previous : Option Kind} (h : ¬ (c = '@' ∧ previous = some .literal)) :
    Cites [c] (Table.Tsv.dispatch previous c) := by
  unfold Table.Tsv.dispatch
  split
  case h_10 =>
    split
    · infer_instance
    · rw [if_neg (by simpa using h)]
      infer_instance
  all_goals infer_instance

/-- Where something certain is due, what is found is named. -/
theorem cites_read (he : m.expects (some kind) = true) : Cites [] (m.read (some kind)) := by
  cases m with
  | lines format =>
    obtain rfl : kind = .hatHat := Option.some.inj (beq_iff_eq.1 he)
    exact Graph.cites_lineDatatype
  | turtle rules =>
    simp only [expects, Bool.or_eq_true, beq_iff_eq, Option.some.injEq] at he
    rcases he with rfl | rfl
    · exact cites_datatype rules.dialect.nameRule
    · exact cites_prefixName
  | n3 vocabulary =>
    simp only [expects, Bool.or_eq_true, beq_iff_eq, Option.some.injEq] at he
    show Cites [] (Graph.Notation3.read vocabulary (some kind))
    unfold Graph.Notation3.read
    split
    · infer_instance
    · rename_i hv
      rcases he with (he | rfl) | rfl
      · exact absurd he hv
      · exact cites_datatype .recommendation
      · exact cites_prefixName
  | sparql query =>
    simp only [expects, Bool.or_eq_true, beq_iff_eq, Option.some.injEq] at he
    rcases he with rfl | rfl
    · exact cites_datatype query.level.nameRule
    · exact cites_prefixName
  | csv => exact Table.cites_csvRead
  | tsv =>
    simp only [expects, Bool.or_eq_true, beq_iff_eq, Option.some.injEq] at he
    rcases he with rfl | rfl
    · exact cites_datatype .recommendation
    · have hdispatch : ∀ c, Cites [c] (Table.Tsv.dispatch (some .prefixDirective) c) :=
        fun c => cites_tsvDispatch (by simp)
      show Cites [] (do Table.Tsv.discardSpaces; tokenHere _)
      unfold tokenHere
      infer_instance

/-- Who names what is found does not look on. -/
theorem mistakesEnd_iff_of_cites {n : Scan Token} (hn : Cites [c] n) (ha : k.ahead = c :: cs)
    (hk : endOfInput ∉ k.ahead) (hl : m.looksOn kind c = false) :
    MistakesEnd n k ↔ cs = [] ∧ m.looksOn kind c = true := by
  refine iff_of_false (hn.not_mistakesEnd ?_ hk) fun h => ?_
  · rw [List.mem_singleton]
    rintro rfl
    exact hk (by rw [ha]; exact List.mem_cons_self)
  · rw [hl] at h
    cases h.2

theorem mistakesEnd_lines_iff {format : Graph.LineFormat} (hb : k.Begun)
    (hp : k.previous = some kind) (ha : k.ahead = c :: cs) (hk : endOfInput ∉ k.ahead) :
    MistakesEnd (format.dispatch (some kind) c) k ↔
      cs = [] ∧ (lines format).looksOn kind c = true := by
  by_cases hlabel : c = '_'
  · subst hlabel
    rw [looksOn, show ('_' == '@') = false from rfl, Bool.false_and, Bool.or_false,
      beq_self_eq_true, Bool.true_and, Bool.not_eq_true']
    exact Graph.LineFormat.mistakesEnd_blankNode_iff hb hp ha hk
  by_cases htag : c = '@' ∧ kind = .literal
  · obtain ⟨rfl, rfl⟩ := htag
    exact (mistakesEnd_languageTag_iff hb ha hk).trans (and_iff_left rfl).symm
  refine mistakesEnd_iff_of_cites ?_ ha hk (by simpa [looksOn, hlabel] using htag)
  unfold Graph.LineFormat.dispatch
  split
  case h_3 => exact absurd rfl hlabel
  case h_6 =>
    rw [if_neg (by simpa using htag)]
    infer_instance
  all_goals infer_instance

theorem mistakesEnd_turtle_iff {rules : Graph.Turtle} (hb : k.Begun) (ha : k.ahead = c :: cs)
    (hk : endOfInput ∉ k.ahead) :
    MistakesEnd (rules.dispatch (some kind) c) k ↔
      cs = [] ∧ (turtle rules).looksOn kind c = true := by
  by_cases hat : c = '@'
  · subst hat
    show MistakesEnd (rules.tagOrDirective (some kind)) k ↔ _
    unfold Graph.Turtle.tagOrDirective
    split
    · rename_i hquoted
      have hlooks : (turtle rules).looksOn kind '@' = true := by
        cases kind <;> first | rfl | cases hquoted
      exact (mistakesEnd_languageTag_iff hb ha hk).trans (and_iff_left hlooks).symm
    · split
      · rename_i hplain
        obtain rfl : kind = .plainLiteral := Option.some.inj (beq_iff_eq.1 hplain)
        exact mistakesEnd_iff_of_cites (cites_violation _) ha hk rfl
      · rename_i hplain
        have hlooks : (turtle rules).looksOn kind '@' = true := by simpa [looksOn] using hplain
        refine Iff.trans ?_ (and_iff_left hlooks).symm
        exact mistakesEnd_directive_iff (fun word => inferInstance) hb ha hk
  refine mistakesEnd_iff_of_cites ?_ ha hk (by simp [looksOn, hat])
  unfold Graph.Turtle.dispatch
  split
  case h_5 => exact absurd rfl hat
  all_goals infer_instance

theorem mistakesEnd_n3_iff {vocabulary : Graph.Vocabulary} (hb : k.Begun) (ha : k.ahead = c :: cs)
    (hk : endOfInput ∉ k.ahead) :
    MistakesEnd (Graph.Notation3.dispatch vocabulary (some kind) c) k ↔
      cs = [] ∧ (n3 vocabulary).looksOn kind c = true := by
  by_cases hat : c = '@'
  · subst hat
    rw [looksOn, beq_self_eq_true, and_iff_left rfl]
    show MistakesEnd (if kind.isQuoted then languageTag else Graph.Notation3.directive vocabulary) k
      ↔ _
    split
    · exact mistakesEnd_languageTag_iff hb ha hk
    · refine mistakesEnd_directive_iff (fun word => ?_) hb ha hk
      split <;> infer_instance
  refine mistakesEnd_iff_of_cites ?_ ha hk (by simp [looksOn, hat])
  unfold Graph.Notation3.dispatch
  split
  case h_5 => exact absurd rfl hat
  all_goals infer_instance

theorem mistakesEnd_body_iff {query : Query.Sparql} (hbody : query.progress.inBody = true)
    (hb : k.Begun) (ha : k.ahead = c :: cs) (hk : endOfInput ∉ k.ahead) :
    MistakesEnd (query.body (some kind) c) k ↔
      cs = [] ∧ (sparql query).looksOn kind c = true := by
  have hlooks : (sparql query).looksOn kind c =
      (c == '$' || c == '&' || c == '@' && kind.isQuoted) := by rw [looksOn, hbody, Bool.true_and]
  by_cases hdollar : c = '$'
  · subst hdollar
    rw [hlooks, beq_self_eq_true, Bool.true_or, Bool.true_or, and_iff_left rfl]
    exact Query.Sparql.mistakesEnd_variableName_iff hb ha hk
  by_cases hand : c = '&'
  · subst hand
    rw [hlooks, beq_self_eq_true, Bool.or_true, Bool.true_or, and_iff_left rfl]
    exact Query.Sparql.mistakesEnd_ampersand_iff hb ha hk
  by_cases htag : c = '@' ∧ kind.isQuoted = true
  · obtain ⟨rfl, hquoted⟩ := htag
    have htag : query.body (some kind) '@' = languageTag := by
      show (if (true && kind.isQuoted) = true then languageTag else _) = languageTag
      rw [hquoted]
      rfl
    rw [htag, hlooks, hquoted, and_iff_left (by decide)]
    exact mistakesEnd_languageTag_iff hb ha hk
  refine mistakesEnd_iff_of_cites ?_ ha hk (by rw [hlooks]; simpa [hdollar, hand] using htag)
  -- all other characters of the body have readers that ask
  unfold Query.Sparql.body
  split
  case h_8 => exact absurd rfl hdollar
  case h_23 => exact absurd rfl hand
  case h_29 =>
    rw [if_neg (by simpa using htag)]
    infer_instance
  all_goals infer_instance

theorem mistakesEnd_tsv_iff (hb : k.Begun) (ha : k.ahead = c :: cs) (hk : endOfInput ∉ k.ahead) :
    MistakesEnd (Table.Tsv.dispatch (some kind) c) k ↔ cs = [] ∧ tsv.looksOn kind c = true := by
  by_cases htag : c = '@' ∧ kind = .literal
  · obtain ⟨rfl, rfl⟩ := htag
    exact (mistakesEnd_languageTag_iff hb ha hk).trans (and_iff_left rfl).symm
  refine mistakesEnd_iff_of_cites (cites_tsvDispatch ?_) ha hk (by simpa [looksOn] using htag)
  simpa using htag

/-- The reader of a character takes the end for a character exactly if it is the last
one and the reader looks on. -/
theorem mistakesEnd_dispatch_iff (hb : k.Begun) (hp : k.previous = some kind)
    (ha : k.ahead = c :: cs) (hk : endOfInput ∉ k.ahead) :
    MistakesEnd (m.dispatch (some kind) c) k ↔ cs = [] ∧ m.looksOn kind c = true := by
  cases m with
  | lines format => exact mistakesEnd_lines_iff hb hp ha hk
  | turtle rules => exact mistakesEnd_turtle_iff hb ha hk
  | n3 vocabulary => exact mistakesEnd_n3_iff hb ha hk
  | sparql query =>
    show MistakesEnd (if query.progress.inBody then query.body (some kind) c
      else query.prologue (some kind) c) k ↔ _
    cases hbody : query.progress.inBody with
    | true => exact mistakesEnd_body_iff hbody hb ha hk
    | false =>
      exact mistakesEnd_iff_of_cites (Query.Sparql.cites_prologue query (some kind) c) ha hk
        (by rw [looksOn, hbody, Bool.false_and])
  | csv => exact mistakesEnd_iff_of_cites (Table.cites_csvDispatch c) ha hk rfl
  | tsv => exact mistakesEnd_tsv_iff hb ha hk

/-- Where nothing certain is due, a token is read behind a gap by its first character. -/
theorem read_behind_gap (he : m.expects (some kind) = false) (hb : k.Begun)
    (hp : k.previous = some kind) :
    ∃ mid, m.read (some kind) k = tokenHere (m.dispatch (some kind)) mid ∧
      mid.ahead = k.ahead.dropWhile (m.skips (some kind)) ∧ mid.Begun ∧
      mid.previous = some kind := by
  cases hm : m.hasComments with
  | true =>
    obtain ⟨mid, e, ha, hbegun, hprevious, -⟩ := discardBlank_total k
    refine ⟨mid, ?_, ?_, hbegun, hprevious.trans hp⟩
    · rw [read_eq hm he, bind_eq e]
    · rw [skips_eq_isBlank hm (not_reading_of_expects he), ha]
  | false =>
    cases m with
    | csv =>
      refine ⟨k, rfl, ?_, hb, hp⟩
      cases k.ahead <;> rfl
    | tsv =>
      simp only [expects, Bool.or_eq_false_iff, beq_eq_false_iff_ne] at he
      have hhat : kind ≠ .hatHat := fun h => he.1 (congrArg some h)
      have hspace : ∀ c, (c == ' ') = true → Unicode.isLineEnd c = false := by simp; decide
      obtain ⟨mid, e, r, -⟩ := succeeds_skipWhile hspace (k := k)
      have hdiscard : Table.Tsv.discardSpaces k = .ok () mid.fresh := bind_eq e
      refine ⟨mid.fresh, ?_, ?_, Cursor.begun_fresh mid, r.previous.trans hp⟩
      · show Table.Tsv.read (some kind) k = _
        rw [Table.Tsv.read_eq hhat, bind_eq hdiscard]
        rfl
      · rw [skips, Table.Tsv.isGapBehind_of_ne he.1, Cursor.ahead_fresh]
        refine r.rest_eq ?_
        exact List.takeWhile_append_dropWhile.symm
    | _ => cases hm

/-- A machine takes the end for a character exactly where a character is the last one
whose reader looks on. -/
theorem mistakesEnd_read_iff (hb : k.Begun) (hp : k.previous = some kind)
    (hk : endOfInput ∉ k.ahead) :
    MistakesEnd (m.read (some kind)) k ↔ m.expects (some kind) = false ∧
      ∃ c, k.ahead.dropWhile (m.skips (some kind)) = [c] ∧ m.looksOn kind c = true := by
  cases he : m.expects (some kind) with
  | true => exact iff_of_false ((cites_read he).not_mistakesEnd List.not_mem_nil hk) (by simp)
  | false =>
    obtain ⟨mid, e, ha, hbegun, hprevious⟩ := read_behind_gap he hb hp
    have hmid : endOfInput ∉ mid.ahead := fun h =>
      hk ((List.dropWhile_suffix _).mem (ha ▸ h))
    have hread : MistakesEnd (m.read (some kind)) k ↔
        MistakesEnd (tokenHere (m.dispatch (some kind))) mid := by
      unfold MistakesEnd FailsFor
      rw [e]
    rw [hread, and_iff_right rfl, ← ha]
    unfold tokenHere
    rw [mistakesEnd_bind_iff (look_eq mid)]
    cases hrest : mid.ahead with
    | nil =>
      exact iff_of_false ((cites_ending "Token").not_mistakesEnd List.not_mem_nil
        (by rwa [Cursor.ahead_looked])) (by simp)
    | cons c cs =>
      have hlooked : mid.looked.ahead = c :: cs := by rw [Cursor.ahead_looked, hrest]
      have hkind : mid.looked.previous = some kind := mid.same_looked.previous.trans hprevious
      refine (mistakesEnd_dispatch_iff (m := m) ?_ hkind hlooked ?_).trans ?_
      · exact (look_ok (look_eq mid)).2.begun hbegun
      · rwa [Cursor.ahead_looked]
      · constructor
        · rintro ⟨rfl, hlooks⟩
          exact ⟨c, rfl, hlooks⟩
        · rintro ⟨_, ⟨⟩, hlooks⟩
          exact ⟨rfl, hlooks⟩

end Machine

/-! ## Calls -/

namespace Lexer

open Input (Source)

variable {l : Lexer} {c : Char}

theorem supplies_next (h : l.next.2.cursor.Supplies c) : l.cursor.Supplies c := by
  refine (composed_next l.machine).supplies l.cursor ?_
  unfold next at h
  split at h <;> (rename_i e; rw [e]; exact h)

/-- What is left to be read after any number of calls was to be read before, but for a
dot. -/
theorem supplies_behind (n : Nat) (h : (l.behind n).cursor.Supplies c) : l.cursor.Supplies c := by
  induction n generalizing l with
  | zero => exact h
  | succ n ih => exact supplies_next (ih h)

/-- One call. -/
theorem mistakesEnd_next_iff (hk : endOfInput ∉ l.cursor.ahead) :
    (∃ fault, l.next.1 = .error fault ∧ fault.MistakesEnd) ↔
      ∃ kind c, l.cursor.previous = some kind ∧ kind ≠ .ending ∧
        l.machine.expects (some kind) = false ∧
        l.cursor.ahead.dropWhile (l.machine.skips (some kind)) = [c] ∧
        l.machine.looksOn kind c = true := by
  cases hp : l.cursor.previous with
  | none =>
    rw [next_beginning hp]
    simp
  | some kind =>
    by_cases hend : kind = .ending
    · subst hend
      rw [(next_of_atEnd hp).1]
      simp
    · have hitem : (∃ fault, l.next.1 = .error fault ∧ fault.MistakesEnd) ↔
          MistakesEnd (l.machine.read (some kind)) l.cursor.fresh := by
        unfold MistakesEnd FailsFor next
        rw [next_eq_read hp hend]
        split <;> (rename_i e; simp [e])
      rw [hitem, Machine.mistakesEnd_read_iff (Cursor.begun_fresh _) hp hk, Cursor.ahead_fresh]
      simp [hend]

/-- Where `endOfInput` is no character of the text, a call names it exactly where the
rest of the text is a gap and a single character whose reader looks on, and nothing
certain is due. -/
theorem end_mistaken (settings : Settings) (source : Source) (n : Nat)
    (h : endOfInput ∉ source.rest) :
    let l := (ofSource settings source).behind n
    (∃ expected span, l.next.1 = .error (.unexpectedCharacter endOfInput expected span)) ↔
      ∃ kind c, l.cursor.previous = some kind ∧ kind ≠ .ending ∧
        l.machine.expects (some kind) = false ∧
        l.cursor.ahead.dropWhile (l.machine.skips (some kind)) = [c] ∧
        l.machine.looksOn kind c = true := by
  intro l
  have hk : endOfInput ∉ l.cursor.ahead := fun hc =>
    (supplies_behind n (.inr hc)).elim (by decide) h
  rw [← mistakesEnd_next_iff hk]
  simp only [Fault.mistakesEnd_iff]
  constructor
  · rintro ⟨expected, span, e⟩
    exact ⟨_, e, expected, span, rfl⟩
  · rintro ⟨fault, e, expected, span, rfl⟩
    exact ⟨expected, span, e⟩

/-- A query ends behind the sign of a variable. -/
theorem end_mistaken_variable :
    let source := Source.ofText "ASK $"
    endOfInput ∉ source.rest ∧
      ∃ expected span, ((ofSource (.ofFormat .sparql) source).behind 2).next.1 =
        .error (.unexpectedCharacter endOfInput expected span) := by
  have htext : endOfInput ∉ (Source.ofText "ASK $").rest := by decide +kernel
  refine ⟨htext, (end_mistaken (.ofFormat .sparql) (.ofText "ASK $") 2 htext).2
    ⟨.keyword .ask, '$', ?_⟩⟩
  decide +kernel

/-- A literal of Turtle ends with the sign of its language. -/
theorem not_ends_told_language :
    ¬ ∀ (settings : Settings) (text : String) (n : Nat), endOfInput ∉ text.toList →
      ∀ expected span, ((ofText settings text).behind n).next.1 ≠
        .error (.unexpectedCharacter endOfInput expected span) := by
  intro h
  refine h (.ofFormat .turtle) "\"x\"@" 2 (by decide +kernel) "a language specifier"
    (Span.point ⟨1, 5⟩) ?_
  rfl

end Lexer

end TripleLex

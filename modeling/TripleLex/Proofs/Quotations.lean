import TripleLex.Proofs.Escapes
import TripleLex.Proofs.Sublanguages

/-!
# Quotations

Any text may stand in a literal or in a reference, once it is written with the
escapes that it needs there. All formats but one read it back as it was, as one
token: a literal between quotation marks, also one between apostrophes where the
format has such, and a reference between angle brackets (`quotations_come_back`).

The formats differ in what reads the opening sign. Turtle, Notation 3 and SPARQL
have long literals, which two signs without a text between them do not begin, and
operators that begin with an angle bracket; so a reference guards a sign of
equality at its start.

## Main results

* `Scan.brings_literal`, `Scan.brings_reference` and their like — the tokens.
* `Machine.ReadsTerms` — what a format reads behind its lead-in.
* `Lexer.quotations_come_back` — all of it.
-/

namespace TripleLex

/-! ## Literals -/

namespace Scan

section Literals

variable {k mid : Cursor} {sign : Char} {cs text rest : List Char}

theorem Spelled.head?_ne (hsign : sign = '"' ∨ sign = '\'') {c : Char}
    (h : Spelled (isPlainIn sign) (.between sign) cs (c :: text)) :
    (cs ++ rest).head? ≠ some sign := by
  obtain ⟨d, ds, rfl, hd⟩ := h.exists_cons
  rintro ⟨⟩
  rcases hd with rfl | hd
  · rcases hsign with h | h <;> cases h
  · exact (ne_of_isPlainIn hd).2.1 (beq_self_eq_true _)

/-- Behind the opening sign, the text and the closing sign make a literal; what would
begin a long literal does not come next. -/
theorem brings_behindSign {long : Scan Token} (hsign : sign = '"' ∨ sign = '\'')
    (hs : Spelled (isPlainIn sign) (.between sign) cs text) (hrest : rest.head? ≠ some sign)
    (hb : k.Begun) (r : k.Reads [sign] [] mid) (hc : mid.Clear)
    (hk : k.ahead = sign :: (cs ++ sign :: rest)) :
    Brings (do
      if ← nextIs sign then
        let _ ← skip
        if ← nextIs sign then long else emit .literal
      else
        shortBody sign
        emit .literal) mid rest (.literal, String.ofList text) := by
  have hmid : mid.ahead = cs ++ sign :: rest := r.rest_eq hk
  have hl : Unicode.isLineEnd sign = false := by
    rcases hsign with rfl | rfl <;> decide
  refine (succeeds_nextIs sign).brings hc fun k₁ r₁ c₁ => ?_
  have hk₁ := r₁.ahead_eq.trans hmid
  rw [hmid]
  cases text with
  | nil =>
    cases hs
    rw [if_pos (by simp)]
    have hskip : Succeeds skip k₁ [sign] [] sign := succeeds_skip (by rw [hk₁]; rfl) hl
    refine hskip.brings c₁ fun k₂ r₂ c₂ => ?_
    refine (succeeds_nextIs sign).brings c₂ fun k₃ r₃ c₃ => ?_
    rw [r₂.rest_eq hk₁, if_neg (by simpa using hrest)]
    exact brings_emit .literal hb (((r.trans r₁).trans r₂).trans r₃) c₃ hk
  | cons c text =>
    rw [if_neg fun h => hs.head?_ne hsign (beq_iff_eq.1 h)]
    refine (succeeds_shortBody hsign hs hk₁).brings c₁ fun k₂ r₂ c₂ => ?_
    exact brings_emit .literal hb ((r.trans r₁).trans r₂) c₂ (by simpa using hk)

/-- A literal as Turtle, Notation 3 and SPARQL have it. -/
theorem brings_literal (surplus : Surplus) (hsign : sign = '"' ∨ sign = '\'')
    (hs : Spelled (isPlainIn sign) (.between sign) cs text) (hrest : rest.head? ≠ some sign)
    (hb : k.Begun) (hc : k.Clear) (hk : k.ahead = sign :: (cs ++ sign :: rest)) :
    Brings (literal surplus) k rest (.literal, String.ofList text) := by
  have hl : Unicode.isLineEnd sign = false := by
    rcases hsign with rfl | rfl <;> decide
  exact (succeeds_skip (by rw [hk]; rfl) hl).brings hc fun _ r hmid =>
    brings_behindSign hsign hs hrest hb r hmid hk

/-- A literal where there is no long form. -/
theorem brings_lineLiteral (hs : Spelled (isPlainIn '"') (.between '"') cs text)
    (hrest : rest.head? ≠ some '"') (hb : k.Begun) (hc : k.Clear)
    (hk : k.ahead = '"' :: (cs ++ '"' :: rest)) :
    Brings Graph.LineFormat.literal k rest (.literal, String.ofList text) :=
  (succeeds_skip (by rw [hk]; rfl) (by decide)).brings hc fun _ r hmid =>
    brings_behindSign (.inl rfl) hs hrest hb r hmid hk

/-- A literal of tab-separated values. -/
theorem brings_fieldLiteral (hs : Spelled (isPlainIn '"') (.between '"') cs text)
    (hrest : rest.head? ≠ some '"') (hb : k.Begun) (hc : k.Clear)
    (hk : k.ahead = '"' :: (cs ++ '"' :: rest)) :
    Brings Table.Tsv.literal k rest (.literal, String.ofList text) := by
  have hskip : Succeeds skip k ['"'] [] '"' := succeeds_skip (by rw [hk]; rfl) (by decide)
  refine hskip.brings hc fun k₁ r₁ c₁ => ?_
  refine (succeeds_literalBody hs hrest (r₁.rest_eq hk)).brings c₁ fun k₂ r₂ c₂ => ?_
  exact brings_emit .literal hb (r₁.trans r₂) c₂ (by simpa using hk)

/-- The sign of a datatype. -/
theorem brings_hatHat (hb : k.Begun) (hc : k.Clear) (hk : k.ahead = '^' :: '^' :: rest) :
    Brings hatHat k rest (.hatHat, "^^") := by
  have hhat : Succeeds consume k ['^'] ['^'] '^' :=
    succeeds_consume (by rw [hk]; rfl) (by decide)
  refine hhat.brings hc fun k₁ r₁ c₁ => ?_
  have hk₁ : k₁.ahead = '^' :: rest := r₁.rest_eq hk
  refine succeeds_look.brings c₁ fun k₂ r₂ c₂ => ?_
  rw [hk₁]
  have hhat' : Succeeds consume k₂ ['^'] ['^'] '^' :=
    succeeds_consume (by rw [r₂.ahead_eq, hk₁]; rfl) (by decide)
  refine hhat'.brings c₂ fun k₃ r₃ c₃ => ?_
  exact brings_emit .hatHat hb ((r₁.trans r₂).trans r₃) c₃ hk

end Literals

/-! ## References -/

section References

variable {k mid : Cursor} {cs text rest : List Char}

/-- Behind the opening bracket, the text and the closing bracket make a reference. -/
theorem brings_behindBracket (hs : Spelled isPlainReference .reference cs text)
    (hb : k.Begun) (r : k.Reads ['<'] [] mid) (hc : mid.Clear)
    (hk : k.ahead = '<' :: (cs ++ '>' :: rest)) :
    Brings (do
      referenceBody
      emit .uri) mid rest (.uri, String.ofList text) :=
  (succeeds_referenceBody hs (r.rest_eq hk)).brings hc fun _ r' hleft =>
    brings_emit .uri hb (r.trans r') hleft (by simpa using hk)

theorem head?_behindBracket (cs rest : List Char) :
    (cs ++ '>' :: rest).head? = (cs ++ ['>']).head? := by
  cases cs <;> rfl

theorem succeeds_bracket (hk : k.ahead = '<' :: rest) : Succeeds skip k ['<'] [] '<' :=
  succeeds_skip (by rw [hk]; rfl) (by decide)

theorem brings_reference (hs : Spelled isPlainReference .reference cs text) (hb : k.Begun)
    (hc : k.Clear) (hk : k.ahead = '<' :: (cs ++ '>' :: rest)) :
    Brings reference k rest (.uri, String.ofList text) :=
  (succeeds_bracket hk).brings hc fun _ r hmid => brings_behindBracket hs hb r hmid hk

/-- Where no sign of equality comes first, the bracket begins no operator. -/
theorem brings_unlessEquals {arrow : Scan Token}
    (hs : Spelled isPlainReference .reference cs text) (hne : (cs ++ ['>']).head? ≠ some '=')
    (hb : k.Begun) (hc : k.Clear) (hk : k.ahead = '<' :: (cs ++ '>' :: rest)) :
    Brings (do
      let _ ← skip
      if ← nextIs '=' then
        arrow
      else
        referenceBody
        emit .uri) k rest (.uri, String.ofList text) := by
  refine (succeeds_bracket hk).brings hc fun k₁ r₁ c₁ => ?_
  refine (succeeds_nextIs '=').brings c₁ fun k₂ r₂ c₂ => ?_
  have hk₁ : k₁.ahead = cs ++ '>' :: rest := r₁.rest_eq hk
  rw [hk₁, head?_behindBracket, if_neg (by simpa using hne)]
  exact brings_behindBracket hs hb (r₁.trans r₂) c₂ hk

/-- The bracket begins no comparison if no blank follows it either. -/
theorem brings_referenceOrLess (hs : Spelled isPlainReference .reference cs text)
    (hne : ∀ c, (cs ++ ['>']).head? = some c → c ≠ '=' ∧ Unicode.isBlank c = false)
    (hb : k.Begun) (hc : k.Clear) (hk : k.ahead = '<' :: (cs ++ '>' :: rest)) :
    Brings Query.Sparql.referenceOrLess k rest (.uri, String.ofList text) := by
  refine (succeeds_bracket hk).brings hc fun k₁ r₁ c₁ => ?_
  refine succeeds_look.brings c₁ fun k₂ r₂ c₂ => ?_
  have hk₁ : k₁.ahead = cs ++ '>' :: rest := r₁.rest_eq hk
  rw [hk₁, head?_behindBracket]
  cases hfirst : (cs ++ ['>']).head? with
  | none => simp at hfirst
  | some c =>
    obtain ⟨hequals, hblank⟩ := hne c hfirst
    rw [if_neg (by rw [Option.all_some, hblank]; decide), if_neg (by simpa using hequals)]
    exact brings_behindBracket hs hb (r₁.trans r₂) c₂ hk

end References

end Scan

/-! ## Formats -/

/-- The signs between which a format has literals. -/
def Format.signs : Format → List Char
  | .turtle | .triG | .n3 | .sparql => ['"', '\'']
  | .nTriples | .nQuads | .tsv => ['"']
  | .csv => []

/-- What has to come before a term. -/
def Format.leadIn : Format → List Char
  | .sparql => ['A', 'S', 'K', ' ']
  | _ => []

/-- The tokens that it makes. -/
def Format.leadContents : Format → List (Kind × String)
  | .sparql => [(.keyword .ask, "ASK")]
  | _ => []

namespace Machine

open Scan TripleLex.Graph

variable {m : Machine} {kind : Kind} {gap signs : List Char} {dispatch : Char → Scan Token}

/-- Behind a token of a kind and a gap, literals between these signs and references
are read, and behind each of them the text may end. -/
structure ReadsTerms (m : Machine) (kind : Kind) (gap signs : List Char)
    (dispatch : Char → Scan Token) : Prop where
  begins : m.Dispatches kind gap dispatch
  literal : ∀ (capital : Bool) (text : List Char) {sign : Char} {k : Cursor}, sign ∈ signs →
    k.Begun → k.Stands kind (writtenLiteral capital sign text) →
    Brings (dispatch sign) k [] (.literal, String.ofList text)
  reference : ∀ (capital : Bool) (text : List Char) {k : Cursor},
    k.Begun → k.Stands kind (guardedReference capital text) →
    Brings (dispatch '<') k [] (.uri, String.ofList text)
  ends : ∀ t : Token, t.kind = .literal ∨ t.kind = .uri →
    ∃ dispatch', (m.after t).Dispatches t.kind [] dispatch'

theorem ReadsTerms.runs_of_gives {cs : List Char} {said : Kind × String}
    (hm : m.ReadsTerms kind gap signs dispatch) (hkind : kind ≠ .ending)
    (hsaid : said.1 = .literal ∨ said.1 = .uri) (h : m.Gives kind cs [] said) :
    m.Runs kind cs [said, (.ending, "")] := by
  have hne : said.1 ≠ .ending := by
    rcases hsaid with hsaid | hsaid <;> rw [hsaid] <;> exact nofun
  exact h.alone hkind hne fun t ht => hm.ends t (ht ▸ hsaid)

theorem ReadsTerms.runs_literal (hm : m.ReadsTerms kind gap signs dispatch)
    (hkind : kind ≠ .ending) {sign : Char} (hsign : sign ∈ signs)
    (hquote : sign = '"' ∨ sign = '\'') (capital : Bool) (text : List Char) :
    m.Runs kind (gap ++ writtenLiteral capital sign text)
      [(.literal, String.ofList text), (.ending, "")] := by
  have hb : Unicode.isBlank sign = false := by
    rcases hquote with rfl | rfl <;> decide
  refine hm.runs_of_gives hkind (.inl rfl) (hm.begins.gives hb fun k hbegun hk => ?_)
  rw [List.append_nil] at hk
  exact hm.literal capital text hsign hbegun hk

theorem ReadsTerms.runs_reference (hm : m.ReadsTerms kind gap signs dispatch)
    (hkind : kind ≠ .ending) (capital : Bool) (text : List Char) :
    m.Runs kind (gap ++ guardedReference capital text)
      [(.uri, String.ofList text), (.ending, "")] := by
  obtain ⟨cs, hcs, -, -⟩ := exists_guardedReference capital text
  rw [hcs]
  refine hm.runs_of_gives hkind (.inr rfl) (hm.begins.gives (by decide) fun k hbegun hk => ?_)
  rw [List.append_nil, ← hcs] at hk
  exact hm.reference capital text hbegun hk

/-! ## Each format -/

theorem dispatches_lines (format : LineFormat) (hkind : kind ≠ .hatHat)
    (hgap : ∀ c ∈ gap, Unicode.isBlank c = true) :
    (lines format).Dispatches kind gap (format.dispatch (some kind)) :=
  dispatches_blank (LineFormat.read_eq hkind) hgap

theorem dispatches_turtle (rules : Turtle) (hhat : kind ≠ .hatHat)
    (hdirective : kind ≠ .prefixDirective) (hgap : ∀ c ∈ gap, Unicode.isBlank c = true) :
    (turtle rules).Dispatches kind gap (rules.dispatch (some kind)) :=
  dispatches_blank (Turtle.read_eq hhat hdirective) hgap

theorem dispatches_n3 {v : Vocabulary} (hv : v.isReading = false) (hhat : kind ≠ .hatHat)
    (hdirective : kind ≠ .prefixDirective) (hgap : ∀ c ∈ gap, Unicode.isBlank c = true) :
    (n3 v).Dispatches kind gap (Notation3.dispatch v (some kind)) :=
  dispatches_blank (Notation3.read_eq hv hhat hdirective) hgap

theorem dispatches_sparql {q : Query.Sparql} (hhat : kind ≠ .hatHat)
    (hdirective : kind ≠ .prefixDirective) (hq : q.progress.inBody = true)
    (hgap : ∀ c ∈ gap, Unicode.isBlank c = true) :
    (sparql q).Dispatches kind gap (q.body (some kind)) := by
  refine dispatches_blank ((Query.Sparql.read_eq hhat hdirective).trans ?_) hgap
  simp only [hq, if_true]

theorem passesOver_noSpaces : PassesOver Table.Tsv.discardSpaces [] := by
  intro k kind rest hk hrest
  have hskip : Succeeds (skipWhile (· == ' ')) k [] [] () := by
    refine succeeds_done (succeeds_look_bind fun mid r => ?_)
    rw [hk.ahead]
    cases rest with
    | nil => exact succeeds_pure _
    | cons c rest =>
      have hc : ¬ (c == ' ') = true := by
        intro h
        rw [beq_iff_eq.1 h] at hrest
        exact absurd (hrest ' ' rfl) (by decide)
      dsimp only [List.nil_append, List.head?_cons]
      rw [if_neg hc]
      exact succeeds_pure _
  obtain ⟨left, e, r, hclear⟩ := hskip
  have hstands : left.Stands kind rest :=
    ⟨r.previous.trans hk.previous, r.ahead_eq.trans hk.ahead, hclear hk.clear⟩
  exact ⟨left.fresh, bind_eq e, Cursor.begun_fresh left, hstands.fresh⟩

theorem dispatches_tsv (hkind : kind ≠ .hatHat) :
    tsv.Dispatches kind [] (Table.Tsv.dispatch (some kind)) :=
  ⟨Table.Tsv.discardSpaces, Table.Tsv.read_eq hkind, passesOver_noSpaces⟩

/-- A reference may stand wherever it does not follow a literal. -/
theorem succeeds_checkGraph {format : LineFormat} {k : Cursor}
    (h : LineFormat.endsLiteral k.previous = false ∨ format = .quads) :
    Succeeds format.checkGraph k [] [] () := by
  refine ⟨k, ?_, Cursor.Reads.refl k, id⟩
  unfold LineFormat.checkGraph
  rw [get_bind, if_neg]
  · rfl
  · rcases h with h | rfl
    · rw [h, Bool.false_and]
      decide
    · simp

theorem ne_of_term (h : kind = .literal ∨ kind = .uri) :
    kind ≠ .hatHat ∧ kind ≠ .prefixDirective := by
  rcases h with rfl | rfl <;> exact ⟨nofun, nofun⟩

theorem readsTerms_lines (format : LineFormat) :
    (lines format).ReadsTerms .beginning [] ['"'] (format.dispatch (some .beginning)) where
  begins := dispatches_lines format nofun nofun
  literal capital text sign k hsign hb hk := by
    rw [List.mem_singleton] at hsign
    subst hsign
    exact brings_lineLiteral (spelled_literal capital (.inl rfl) text) nofun hb hk.clear hk.ahead
  reference capital text k hb hk := by
    obtain ⟨cs, hcs, hs, -⟩ := exists_guardedReference capital text
    have hcheck : Succeeds format.checkGraph k [] [] () :=
      succeeds_checkGraph (.inl (by rw [hk.previous]; rfl))
    refine hcheck.brings hk.clear fun mid r hmid => ?_
    exact brings_reference hs (r.begun hb) hmid (r.ahead_eq.trans (hk.ahead.trans hcs))
  ends t ht := ⟨_, dispatches_lines format (ne_of_term ht).1 nofun⟩

/-- A literal between either of the signs, where both are read alike. -/
theorem brings_written {surplus : Surplus} (hquotation : dispatch '"' = literal surplus)
    (hapostrophe : dispatch '\'' = literal surplus) (capital : Bool) (text : List Char)
    {sign : Char} {k : Cursor} (hsign : sign ∈ ['"', '\'']) (hb : k.Begun)
    (hk : k.Stands kind (writtenLiteral capital sign text)) :
    Brings (dispatch sign) k [] (.literal, String.ofList text) := by
  have hquote : sign = '"' ∨ sign = '\'' := by simpa using hsign
  have hdispatch : dispatch sign = literal surplus := by
    rcases hquote with rfl | rfl
    · exact hquotation
    · exact hapostrophe
  rw [hdispatch]
  exact brings_literal surplus hquote (spelled_literal capital hquote text) nofun hb hk.clear
    hk.ahead

theorem readsTerms_turtle (rules : Turtle) :
    (turtle rules).ReadsTerms .beginning [] ['"', '\''] (rules.dispatch (some .beginning)) where
  begins := dispatches_turtle rules nofun nofun nofun
  literal capital text _ _ := brings_written rfl rfl capital text
  reference capital text k hb hk := by
    obtain ⟨cs, hcs, hs, hhead⟩ := exists_guardedReference capital text
    exact brings_unlessEquals hs (fun h => (hhead '=' h).1 rfl) hb hk.clear (hk.ahead.trans hcs)
  ends t ht := ⟨_, dispatches_turtle rules (ne_of_term ht).1 (ne_of_term ht).2 nofun⟩

theorem readsTerms_n3 :
    (n3 .empty).ReadsTerms .beginning [] ['"', '\'']
      (Notation3.dispatch .empty (some .beginning)) where
  begins := dispatches_n3 rfl nofun nofun nofun
  literal capital text _ _ := brings_written rfl rfl capital text
  reference capital text k hb hk := by
    obtain ⟨cs, hcs, hs, hhead⟩ := exists_guardedReference capital text
    exact brings_unlessEquals hs (fun h => (hhead '=' h).1 rfl) hb hk.clear (hk.ahead.trans hcs)
  ends t ht := by
    have hafter : Vocabulary.after .empty t = .empty := by
      unfold Vocabulary.after
      rcases ht with ht | ht <;> rw [ht]
    exact ⟨_, dispatches_n3 (by rw [hafter]; rfl) (ne_of_term ht).1 (ne_of_term ht).2 nofun⟩

theorem readsTerms_sparql {q : Query.Sparql} (hq : q.progress.inBody = true) :
    (sparql q).ReadsTerms (.keyword .ask) [' '] ['"', '\'']
      (q.body (some (.keyword .ask))) where
  begins := dispatches_sparql nofun nofun hq (by simp [show Unicode.isBlank ' ' = true by decide])
  literal capital text _ _ := brings_written rfl rfl capital text
  reference capital text k hb hk := by
    obtain ⟨cs, hcs, hs, hhead⟩ := exists_guardedReference capital text
    exact brings_referenceOrLess hs hhead hb hk.clear (hk.ahead.trans hcs)
  ends t ht := by
    have hafter : (q.progress.after t).inBody = true := by
      unfold Query.Progress.after
      rcases ht with ht | ht <;> rw [ht] <;> exact hq
    exact ⟨_, dispatches_sparql (ne_of_term ht).1 (ne_of_term ht).2 hafter nofun⟩

theorem readsTerms_tsv :
    tsv.ReadsTerms .beginning [] ['"'] (Table.Tsv.dispatch (some .beginning)) where
  begins := dispatches_tsv nofun
  literal capital text sign k hsign hb hk := by
    rw [List.mem_singleton] at hsign
    subst hsign
    exact brings_fieldLiteral (spelled_literal capital (.inl rfl) text) nofun hb hk.clear hk.ahead
  reference capital text k hb hk := by
    obtain ⟨cs, hcs, hs, -⟩ := exists_guardedReference capital text
    exact brings_reference hs hb hk.clear (hk.ahead.trans hcs)
  ends t ht := ⟨_, dispatches_tsv (ne_of_term ht).1⟩

end Machine

/-! ## Round trips -/

namespace Lexer

/-- Behind its lead-in, a text of one piece is read as one token, and ends. -/
def ReadsAlone (settings : Settings) (cs : List Char) (said : Kind × String) : Prop :=
  ∃ ts, (ofText settings (String.ofList (settings.format.leadIn ++ cs))).run = .ok ts ∧
    ts.map Token.content =
      (.beginning, "") :: (settings.format.leadContents ++ [said, (.ending, "")])

/-- The keyword of the lead-in is read, and the query goes on behind it. -/
theorem runs_ask {level : Query.Level} {cs : List Char} {said : List (Kind × String)}
    (h : ∀ q : Query.Sparql, q.level = level → q.progress.inBody = true →
      (Machine.sparql q).Runs (.keyword .ask) (' ' :: cs) said) :
    (Machine.sparql ⟨level, .initial⟩).Runs .beginning ('A' :: 'S' :: 'K' :: ' ' :: cs)
      ((.keyword .ask, "ASK") :: said) := by
  have hgives : (Machine.sparql ⟨level, .initial⟩).Gives .beginning ['A', 'S', 'K'] (' ' :: cs)
      (.keyword .ask, "ASK") := fun k _ hk => Query.Sparql.ask_succeeds rfl hk
  refine hgives.cons nofun nofun fun t ht => h _ rfl ?_
  have hkind : t.kind = .keyword .ask := congrArg Prod.fst ht
  show (Query.Progress.initial.after t).inBody = true
  unfold Query.Progress.after
  rw [hkind]
  rfl

/-- What is read behind every lead-in is read alone. -/
theorem readsAlone_of_terms {settings : Settings} (hf : settings.format ≠ .csv) {cs : List Char}
    {said : Kind × String}
    (h : ∀ (m : Machine) (kind : Kind) (gap : List Char) (dispatch : Char → Scan Token),
      kind ≠ .ending → m.ReadsTerms kind gap settings.format.signs dispatch →
      m.Runs kind (gap ++ cs) [said, (.ending, "")]) : ReadsAlone settings cs said := by
  refine Machine.Runs.run_ofText ?_
  obtain ⟨format, level, dialect⟩ := settings
  cases format with
  | turtle => exact h _ _ _ _ nofun (Machine.readsTerms_turtle _)
  | triG => exact h _ _ _ _ nofun (Machine.readsTerms_turtle _)
  | n3 => exact h _ _ _ _ nofun Machine.readsTerms_n3
  | nTriples => exact h _ _ _ _ nofun (Machine.readsTerms_lines _)
  | nQuads => exact h _ _ _ _ nofun (Machine.readsTerms_lines _)
  | sparql =>
    refine runs_ask fun q _ hq => ?_
    exact h _ (.keyword .ask) [' '] _ nofun (Machine.readsTerms_sparql hq)
  | csv => exact absurd rfl hf
  | tsv => exact h _ _ _ _ nofun Machine.readsTerms_tsv

/-- Every text comes back, from a literal between any of the signs that the format
has, and from a reference. -/
theorem quotations_come_back (settings : Settings) (capital : Bool) (text : String) :
    (∀ sign ∈ settings.format.signs,
      ReadsAlone settings (writtenLiteral capital sign text.toList) (.literal, text)) ∧
    (settings.format ≠ .csv →
      ReadsAlone settings (guardedReference capital text.toList) (.uri, text)) := by
  have hquote : ∀ sign ∈ settings.format.signs, sign = '"' ∨ sign = '\'' := by
    cases settings.format <;> simp [Format.signs]
  constructor
  · intro sign hsign
    have hf : settings.format ≠ .csv := by
      intro hcsv
      rw [hcsv] at hsign
      cases hsign
    refine readsAlone_of_terms hf fun m kind gap dispatch hkind hm => ?_
    have hruns := hm.runs_literal hkind hsign (hquote sign hsign) capital text.toList
    rwa [String.ofList_toList] at hruns
  · intro hf
    refine readsAlone_of_terms hf fun m kind gap dispatch hkind hm => ?_
    have hruns := hm.runs_reference hkind capital text.toList
    rwa [String.ofList_toList] at hruns

/-- An apostrophe, a backslash and a line end come back from a literal of SPARQL, and
an operator and a blank from a reference of Turtle. -/
theorem quotations_come_back_marks :
    (∃ ts, (ofText (.ofFormat .sparql) "ASK 'it\\'s\\n\\u005Cn'").run = .ok ts ∧
      ts.map Token.content = [(.beginning, ""), (.keyword .ask, "ASK"), (.literal, "it's\n\\n"),
        (.ending, "")]) ∧
    (∃ ts, (ofText .standard "<\\u003d\\u0020>").run = .ok ts ∧
      ts.map Token.content = [(.beginning, ""), (.uri, "= "), (.ending, "")]) :=
  ⟨(quotations_come_back (.ofFormat .sparql) true "it's\n\\n").1 '\'' (by decide),
    (quotations_come_back .standard false "= ").2 (by decide)⟩

end Lexer

end TripleLex

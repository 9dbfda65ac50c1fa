import TripleLex.Proofs.DeclaredKeywords
import TripleLex.Proofs.Statements

/-!
# Names that stand alone

Turtle and TriG in the recommendation's dialect, Notation 3 and TSV read names
alike: what can be gathered is gathered, then judged. They differ in what becomes
of a bare word (`Scan.nameOr`) and in what a first character begins. So each name
and each label of a blank node that the grammar derives, standing alone in a text,
is read as one token (`Lexer.names_alone`).

## Main results

* `Scan.brings_prefixedName`, `Scan.brings_blankNode` — the tokens.
* `Machine.ReadsNames` — what a machine that reads names does with them.
* `Lexer.names_alone` — the runs.
-/

namespace TripleLex

/-! ## Labels of blank nodes -/

namespace Name

theorem isEscapedRun_of_isRun {afterDot : Bool} {word : List Char}
    (h : isRun afterDot word = true) : isEscapedRun afterDot word = true := by
  induction word generalizing afterDot with
  | nil => exact h
  | cons c word ih =>
    rw [isRun, Bool.and_eq_true] at h
    have hne : c ≠ '%' ∧ c ≠ '\\' := by
      constructor <;> rintro rfl <;> exact absurd h.1 (by decide)
    rw [isEscapedRun_plain hne.1 hne.2, h.1, ih h.2]
    rfl

theorem gatherable_of_isBlankNode {word : List Char} (h : isBlankNode word = true) :
    Gatherable word ∧ Scan.endsInBareDot word.reverse = false := by
  obtain ⟨label, rfl, hrun, -⟩ := exists_run_of_isBlankNode h
  have hrun := isEscapedRun_of_isRun hrun
  refine ⟨⟨['_'], ':' :: label, rfl, List.forall_mem_singleton.2 (by decide),
    Or.inr ⟨label, rfl, hrun⟩⟩, ?_⟩
  rw [List.reverse_cons, List.reverse_cons, List.append_assoc]
  exact endsInBareDot_run hrun fun _ => rfl

/-- Whether a name or the label of a blank node begins with the character. -/
def beginsTerm (c : Char) : Bool := c == ':' || c == '_' || isBase c

theorem beginsTerm_of_isPrefixedName {rule : Rule} {word : List Char}
    (h : isPrefixedName rule word = true) : ∃ c rest, word = c :: rest ∧ beginsTerm c = true := by
  rcases head?_of_isPrefixedName h with hc | ⟨c, hc, hbase⟩
  · obtain ⟨rest, hw⟩ := List.head?_eq_some_iff.1 hc
    exact ⟨':', rest, hw, by decide⟩
  · obtain ⟨rest, hw⟩ := List.head?_eq_some_iff.1 hc
    exact ⟨c, rest, hw, by simp [beginsTerm, hbase]⟩

end Name

/-! ## Names and labels -/

namespace Scan

open Name (Gatherable)

/-- A name of the recommendation, or what a bare word is made to. -/
def nameOr (bare : Scan Token) : Scan Token := do
  gatherName .recommendation true
  match ← nameToken? .recommendation with
  | some token => return token
  | none => bare

variable {k : Cursor} {word : List Char} {bare : Scan Token}

theorem brings_prefixedName (hb : k.Begun) (hc : k.Clear) (hk : k.ahead = word)
    (h : Name.isPrefixedName .recommendation word = true) :
    Brings (nameOr bare) k [] (.prefixedName, String.ofList (Name.unescape word)) := by
  have hdot : endsInBareDot (word.reverse ++ k.written) = false := by
    rw [hb.written, List.append_nil]
    exact Name.endsInBareDot_name h
  refine (succeeds_gatherName (Name.gatherable_of_isPrefixedName h) hk hdot).brings hc
    fun mid r hmid => ?_
  have hvalue := r.value hb
  rw [← hvalue] at h
  have htext : nameText .recommendation mid.value = String.ofList (Name.unescape word) := by
    rw [hvalue]
    rfl
  refine ⟨⟨.prefixedName, nameText .recommendation mid.value, mid.span⟩,
    { mid with previous := some .prefixedName }, bind_eq (nameToken?_of_isPrefixedName h),
    congrArg (Prod.mk _) htext, rfl, ?_, hmid.of_eq rfl rfl⟩
  exact r.rest_eq (hk.trans (List.append_nil word).symm)

theorem brings_blankNode (hb : k.Begun) (hc : k.Clear) (hk : k.ahead = word)
    (h : Name.isBlankNode word = true) :
    Brings (nameOr bare) k [] (.blankNode, String.ofList word) := by
  obtain ⟨hg, hdot⟩ := Name.gatherable_of_isBlankNode h
  refine (succeeds_gatherName hg hk (by rw [hb.written, List.append_nil]; exact hdot)).brings hc
    fun mid r hmid => ?_
  obtain ⟨t, left, e, ht, hs⟩ := brings_emit .blankNode hb r hmid
    (hk.trans (List.append_nil word).symm)
  refine ⟨t, left, ?_, ht, hs⟩
  rw [bind_eq ((Graph.nameToken?_of_blankNode (by rwa [r.value hb])).trans (bind_eq e))]
  rfl

end Scan

/-! ## First characters -/

theorem Name.opensName_of_isBase {c : Char} (h : isBase c = true) : opensName c = true := by
  simp [opensName, h]

theorem Name.beginsTerm_cases {c : Char} (h : beginsTerm c = true) :
    c = ':' ∨ c = '_' ∨ isBase c = true := by
  simpa [beginsTerm, or_assoc] using h

theorem Graph.Turtle.dispatch_of_beginsTerm {rules : Graph.Turtle} {previous : Option Kind}
    {c : Char} (h : Name.beginsTerm c = true) : rules.dispatch previous c = rules.name := by
  rcases Name.beginsTerm_cases h with rfl | rfl | hbase
  · rfl
  · rfl
  · unfold dispatch
    split <;> first
      | exact absurd hbase (by decide)
      | rw [Name.not_isDigit_of_isBase hbase, Name.opensName_of_isBase hbase]
    rfl

theorem Graph.Notation3.dispatch_of_beginsTerm {v : Graph.Vocabulary} {previous : Option Kind}
    {c : Char} (h : Name.beginsTerm c = true) : dispatch v previous c = name v := by
  refine dispatch_of_beginsName ?_
  rcases Name.beginsTerm_cases h with rfl | rfl | hbase
  · rfl
  · rfl
  · rw [beginsName, Name.opensName_of_isBase hbase, Bool.or_true]

theorem Table.Tsv.dispatch_of_beginsTerm {previous : Option Kind} {c : Char}
    (h : Name.beginsTerm c = true) : dispatch previous c = name := by
  rcases Name.beginsTerm_cases h with rfl | rfl | hbase
  · rfl
  · rfl
  · have hline : Unicode.isLineEnd c = false := not_isLineEnd_of_isScanned
      (Name.isScanned_of_isInner (Name.isInner_of_isLead (Name.isLead_of_isBase hbase)))
    have hne : ∀ d : Char, Name.isBase d = false → (c == d) = false := by
      intro d hd
      rw [beq_eq_false_iff_ne]
      rintro rfl
      rw [hd] at hbase
      cases hbase
    unfold dispatch
    split <;> first
      | exact absurd hbase (by decide)
      | rw [hline, hne '@' (by decide), hne '^' (by decide), Name.not_isDigit_of_isBase hbase,
          Name.opensName_of_isBase hbase]
    rfl

/-! ## Machines -/

namespace Machine

open Scan

/-- The machine reads names as the recommendation does, from the beginning of a
text on. -/
structure ReadsNames (m : Machine) (dispatch : Char → Scan Token) (bare : Scan Token) :
    Prop where
  begins : m.Dispatches .beginning [] dispatch
  opens : ∀ c, Name.beginsTerm c = true → dispatch c = nameOr bare
  ends : ∀ t : Token, t.kind = .prefixedName ∨ t.kind = .blankNode →
    ∃ dispatch, (m.after t).Dispatches t.kind [] dispatch

variable {m : Machine} {dispatch : Char → Scan Token} {bare : Scan Token}

theorem ReadsNames.runs (hm : m.ReadsNames dispatch bare) {c : Char} {rest : List Char}
    {said : Kind × String} (hc : Name.beginsTerm c = true) (hblank : Unicode.isBlank c = false)
    (hsaid : said.1 = .prefixedName ∨ said.1 = .blankNode)
    (h : ∀ k : Cursor, k.Begun → k.Clear → k.ahead = c :: rest →
      Brings (nameOr bare) k [] said) :
    m.Runs .beginning (c :: rest) [said, (.ending, "")] := by
  have hgives : m.Gives .beginning ([] ++ c :: rest) [] said := by
    refine hm.begins.gives hblank fun k hb hk => ?_
    rw [hm.opens c hc]
    exact h k hb hk.clear (hk.ahead.trans (List.append_nil _))
  have hending : said.1 ≠ .ending := by
    rcases hsaid with hsaid | hsaid <;> rw [hsaid] <;> decide
  exact hgives.alone nofun hending fun t ht => hm.ends t (ht ▸ hsaid)

theorem ne_of_name {t : Token} (ht : t.kind = .prefixedName ∨ t.kind = .blankNode) :
    t.kind ≠ .hatHat ∧ t.kind ≠ .prefixDirective := by
  rcases ht with ht | ht <;> rw [ht] <;> decide

theorem readsNames_turtle (hasGraphs : Bool) :
    (turtle ⟨.recommendation, hasGraphs⟩).ReadsNames
      (Graph.Turtle.dispatch ⟨.recommendation, hasGraphs⟩ (some .beginning))
      (do Graph.Turtle.bareWord ⟨.recommendation, hasGraphs⟩ (← get).value) where
  begins := dispatches_turtle _ nofun nofun nofun
  opens _ hc := Graph.Turtle.dispatch_of_beginsTerm hc
  ends _ ht := ⟨_, dispatches_turtle _ (ne_of_name ht).1 (ne_of_name ht).2 nofun⟩

theorem readsNames_n3 :
    (n3 .empty).ReadsNames (Graph.Notation3.dispatch .empty (some .beginning))
      (do Graph.Notation3.bareWord .empty (← get).value) where
  begins := dispatches_n3 rfl nofun nofun nofun
  opens _ hc := Graph.Notation3.dispatch_of_beginsTerm hc
  ends t ht := by
    have hafter : Graph.Vocabulary.after .empty t = .empty := by
      unfold Graph.Vocabulary.after
      rcases ht with ht | ht <;> rw [ht]
    exact ⟨_, dispatches_n3 (by rw [hafter]; rfl) (ne_of_name ht).1 (ne_of_name ht).2 nofun⟩

theorem readsNames_tsv :
    tsv.ReadsNames (Table.Tsv.dispatch (some .beginning)) (do
      let k ← get
      if Number.isTruth k.value then emit .plainLiteral else invalidForm "RDF term" k.text) where
  begins := dispatches_tsv nofun
  opens _ hc := Table.Tsv.dispatch_of_beginsTerm hc
  ends _ ht := ⟨_, dispatches_tsv (ne_of_name ht).1⟩

end Machine

/-- Whether names are read by the recommendation's rule and as Turtle reads them. -/
def Settings.readsTurtleNames (s : Settings) : Bool :=
  match s.format with
  | .turtle | .triG => s.dialect == .recommendation
  | .n3 | .tsv => true
  | .nTriples | .nQuads | .sparql | .csv => false

theorem Machine.exists_readsNames {s : Settings} (hs : s.readsTurtleNames = true) :
    ∃ dispatch bare, (ofSettings s).ReadsNames dispatch bare := by
  obtain ⟨format, level, dialect⟩ := s
  cases format with
  | turtle =>
    have hdialect : dialect = .recommendation := beq_iff_eq.1 hs
    rw [hdialect]
    exact ⟨_, _, readsNames_turtle false⟩
  | triG =>
    have hdialect : dialect = .recommendation := beq_iff_eq.1 hs
    rw [hdialect]
    exact ⟨_, _, readsNames_turtle true⟩
  | n3 => exact ⟨_, _, readsNames_n3⟩
  | tsv => exact ⟨_, _, readsNames_tsv⟩
  | nTriples => cases hs
  | nQuads => cases hs
  | sparql => cases hs
  | csv => cases hs

/-! ## Runs -/

namespace Lexer

/-- A prefixed name that stands alone in a text is read as one token, and so is the
label of a blank node; the name loses the backslashes that protect its reserved
characters. The grammar lets a name begin with U+1680, which is blank and would be
passed over. -/
theorem names_alone (s : Settings) (hs : s.readsTurtleNames = true) (text : String) :
    (Name.isPrefixedName .recommendation text.toList = true →
      (∀ c, text.toList.head? = some c → Unicode.isBlank c = false) →
      ∃ ts, (ofText s text).run = .ok ts ∧ ts.map Token.content =
        [(.beginning, ""), (.prefixedName, String.ofList (Name.unescape text.toList)),
          (.ending, "")]) ∧
    (Name.isBlankNode text.toList = true →
      ∃ ts, (ofText s text).run = .ok ts ∧
        ts.map Token.content = [(.beginning, ""), (.blankNode, text), (.ending, "")]) := by
  obtain ⟨dispatch, bare, hm⟩ := Machine.exists_readsNames hs
  constructor
  · intro hname hblank
    obtain ⟨c, rest, htext, hc⟩ := Name.beginsTerm_of_isPrefixedName hname
    rw [htext] at hname hblank
    have hruns := (hm.runs hc (hblank c rfl) (.inl rfl) fun k hb hclear hk =>
      Scan.brings_prefixedName hb hclear hk hname).run_ofText
    rwa [← htext, String.ofList_toList] at hruns
  · intro hlabel
    obtain ⟨label, htext, -⟩ := Name.exists_run_of_isBlankNode hlabel
    rw [htext] at hlabel
    have hruns := (hm.runs (c := '_') (by decide) (by decide) (.inr rfl) fun k hb hclear hk =>
      Scan.brings_blankNode hb hclear hk hlabel).run_ofText
    rwa [← htext, String.ofList_toList] at hruns

/-- Colons, an encoded octet, and a dot that is protected at the end. -/
theorem names_alone_escapes :
    Name.isPrefixedName .recommendation "e.x:a:\\-b%41\\.".toList = true ∧
      Name.isBlankNode "_:0.b".toList = true ∧
      (∃ ts, (ofText (.ofFormat .n3) "e.x:a:\\-b%41\\.").run = .ok ts ∧ ts.map Token.content =
        [(.beginning, ""), (.prefixedName, "e.x:a:-b%41."), (.ending, "")]) ∧
      (∃ ts, (ofText (.ofFormat .tsv) "_:0.b").run = .ok ts ∧
        ts.map Token.content = [(.beginning, ""), (.blankNode, "_:0.b"), (.ending, "")]) :=
  ⟨by decide, by decide,
    (names_alone (.ofFormat .n3) rfl "e.x:a:\\-b%41\\.").1 (by decide) (by rintro c ⟨⟩; decide),
    (names_alone (.ofFormat .tsv) rfl "_:0.b").2 (by decide)⟩

end Lexer

end TripleLex

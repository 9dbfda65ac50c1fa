import TripleLex.Proofs.GatheredNames
import TripleLex.Proofs.ReaderKinds

/-!
# Names as datatypes

Turtle reads a datatype behind `^^` by the scanner that it reads names with, and
judges what was gathered by the same grammar, so that the two read the same names
(`Scan.Names`): the reader of names and the reader of datatypes conclude alike.

There is one difference. In the submission's dialect a name stops at a dot, while a
datatype takes dots in. So a text is read as a name exactly where it is read as a
datatype and has no dot in it, if the dialect is that one.

## Main results

* `Scan.concludes_datatype_iff`, `Graph.Turtle.concludes_name_iff` — datatypes and names,
  by what is gathered.
* `Lexer.datatype_named` — whole texts.
-/

namespace TripleLex

open Cursor (Begun Clear Stands Reads Settles Elsewhere)

namespace Scan

variable {k mid left : Cursor} {rule : Name.Rule} {allowDot : Bool} {cs : List Char} {c : Char}
  {t : Token} {text : String}

/-! ## Tokens -/

/-- A token of a prefixed name is made of what was gathered. -/
theorem nameToken?_prefixedName (e : nameToken? rule k = .ok (some t) left)
    (hkind : t.kind = .prefixedName) : Name.isPrefixedName rule k.value = true ∧
      t.text = nameText rule k.value ∧ left.ahead = k.ahead := by
  have hother : ∀ {kind : Kind} {u : Token} {left' : Cursor}, emit kind k = .ok u left' →
      kind ≠ .prefixedName → u.kind ≠ .prefixedName := by
    intro kind u left' e hne
    rwa [(emit_ok e).1]
  have e := get_bind_ok e
  split at e
  · cases e
  · split at e
    · obtain ⟨u, k₁, e₁, e⟩ := bind_ok e
      cases e
      exact absurd hkind (hother e₁ (by decide))
    · split at e
      · split at e
        · obtain ⟨u, k₁, e₁, e⟩ := bind_ok e
          cases e
          exact absurd hkind (hother e₁ (by decide))
        · cases e
      · split at e
        · rename_i hname
          obtain ⟨u, k₁, e₁, e⟩ := bind_ok e
          cases e₁
          cases e
          exact ⟨hname, rfl, rfl⟩
        · cases e

/-- What is gathered is a name where its token is that of one. -/
theorem names_iff : Names rule allowDot text k ↔ ∃ mid t left,
    gatherName rule allowDot k = .ok () mid ∧ nameToken? rule mid = .ok (some t) left ∧
      t.content = (.prefixedName, text) ∧ Spent left := by
  constructor
  · rintro ⟨mid, e, hname, htext, hspent⟩
    exact ⟨mid, _, _, e, nameToken?_of_isPrefixedName hname, congrArg (Prod.mk _) htext, hspent⟩
  · rintro ⟨mid, t, left, e, e', ht, hspent⟩
    obtain ⟨hname, htext, hahead⟩ := nameToken?_prefixedName e' (congrArg Prod.fst ht)
    refine ⟨mid, e, hname, htext.symm.trans (congrArg Prod.snd ht), ?_⟩
    unfold Spent
    rwa [← hahead]

/-- The scan makes a token with this content, and nothing but a gap is left. -/
def Concludes (m : Scan Token) (k : Cursor) (said : Kind × String) : Prop :=
  ∃ t left, m k = .ok t left ∧ t.content = said ∧ Spent left

theorem concludes_congr {m n : Scan Token} {k' : Cursor} {said : Kind × String}
    (h : m k = n k') : Concludes m k said ↔ Concludes n k' said := by
  unfold Concludes
  rw [h]

theorem concludes_nameDatatype_iff :
    Concludes (nameDatatype rule) k (.datatype, text) ↔ Names rule true text k := by
  rw [names_iff]
  constructor
  · rintro ⟨t, left, e, ht, hspent⟩
    obtain ⟨_, mid, e₁, e⟩ := bind_ok e
    obtain ⟨o, k₂, e₂, e⟩ := bind_ok e
    cases o with
    | none =>
      have e := get_bind_ok e
      cases e
    | some token =>
      dsimp only at e
      split at e
      · rename_i hkind
        cases e
        have htext : token.text = text := congrArg Prod.snd ht
        exact ⟨mid, token, k₂, e₁, e₂, Prod.ext (beq_iff_eq.1 hkind) htext, hspent⟩
      · exact (makes_unexpectedToken (P := Never) _ token t left e).elim
  · rintro ⟨mid, t, left, e, e', ht, hspent⟩
    have hkind : t.kind = .prefixedName := congrArg Prod.fst ht
    refine ⟨{ t with kind := .datatype }, { left with previous := some .datatype }, ?_,
      congrArg (Prod.mk _) (congrArg Prod.snd ht), hspent⟩
    unfold nameDatatype
    rw [bind_eq e, bind_eq e']
    dsimp only
    rw [hkind]
    rfl

/-- A gap that holds nothing is passed over. -/
theorem exists_begun {kind : Kind} (hk : k.Stands kind (c :: cs)) (hb : k.Begun)
    (hc : Unicode.isBlank c = false) : ∃ mid, discardBlank k = .ok () mid ∧ mid.Begun ∧
      mid.Stands kind (c :: cs) ∧ k.Elsewhere mid := by
  have hgap : PassesOver discardBlank [] := passesOver_blank nofun
  obtain ⟨mid, e, hmid, hs⟩ := hgap k kind (c :: cs) hk (by rintro d ⟨⟩; exact hc)
  exact ⟨mid, e, hmid, hs,
    Cursor.elsewhere_of_clear hk.clear hs.clear (hs.ahead.trans hk.ahead.symm)
      (hmid.written.trans hb.written.symm)⟩

/-- Whether a datatype may begin with the character that a name begins with. -/
theorem leadsName_of_begins (h : c = '\\' ∨ Name.beginsTerm c = true) : leadsName c = true := by
  rcases h with rfl | h
  · rfl
  · have hdot : (c != '.') = true := by
      rw [bne_iff_ne]
      rintro rfl
      exact absurd h (by decide)
    have hscanned : Name.isScanned c = true := by
      rcases Name.beginsTerm_cases h with rfl | rfl | hbase
      · simp [Name.isScanned]
      · exact Name.isScanned_of_isInner (by decide)
      · exact Name.isScanned_of_isInner (Name.isInner_of_isLead (Name.isLead_of_isBase hbase))
    rw [leadsName, hscanned, hdot, Bool.and_true, Bool.or_true]

/-- A datatype that is no reference is a name. -/
theorem concludes_datatype_iff (hk : k.Stands .hatHat (c :: cs)) (hb : k.Begun)
    (hc : Unicode.isBlank c = false) (hbracket : c ≠ '<') :
    Concludes (datatype rule) k (.datatype, text) ↔ Names rule true text k := by
  obtain ⟨mid, e, hmid, hs, helse⟩ := exists_begun hk hb hc
  have hread : datatype rule k =
      (if (!(Name.isScanned c || c == '\\') || c == '.') = true then
        unexpectedCharacter c "a URI or QName for a data type"
      else nameDatatype rule) mid := by
    unfold datatype
    rw [bind_eq e, look_bind_whole hs.clear.whole, hs.ahead]
    show (if (c == '<') = true then _ else _ : Scan Token) mid = _
    rw [if_neg (by simpa using hbracket)]
  rw [names_congr helse, concludes_congr hread]
  by_cases hleads : leadsName c = true
  · have hopen : (!(Name.isScanned c || c == '\\') || c == '.') = false := by
      by_cases hslash : c = '\\'
      · rw [hslash]
        simp
      · simpa [leadsName, hslash] using hleads
    rw [hopen, if_neg (by decide)]
    exact concludes_nameDatatype_iff
  · have hshut : (!(Name.isScanned c || c == '\\') || c == '.') = true := by
      by_cases hslash : c = '\\'
      · rw [hslash] at hleads
        exact absurd rfl hleads
      · simpa [leadsName, hslash, Classical.or_iff_not_imp_left] using hleads
    rw [hshut, if_pos rfl]
    refine iff_of_false ?_ fun h => hleads (leadsName_of_begins (h.begins hmid hs.ahead))
    rintro ⟨t, left, e, -⟩
    exact makes_unexpectedCharacter (P := Never) c _ t left e

end Scan

namespace Graph.Turtle

open Scan

variable {k : Cursor} {rules : Turtle} {kind : Kind} {c : Char} {cs : List Char} {text : String}

theorem concludes_name_iff : Concludes rules.name k (.prefixedName, text) ↔
    Names rules.dialect.nameRule (rules.dialect == .recommendation) text k := by
  rw [names_iff]
  constructor
  · rintro ⟨t, left, e, ht, hspent⟩
    obtain ⟨_, mid, e₁, e⟩ := bind_ok e
    obtain ⟨o, k₂, e₂, e⟩ := bind_ok e
    cases o with
    | none =>
      have hkind : t.kind ∈ wordKinds := kinds_bareWord _ t left (get_bind_ok e)
      rw [show t.kind = .prefixedName from congrArg Prod.fst ht] at hkind
      exact absurd hkind (by decide)
    | some token =>
      cases e
      exact ⟨mid, t, left, e₁, e₂, ht, hspent⟩
  · rintro ⟨mid, t, left, e, e', ht, hspent⟩
    refine ⟨t, left, ?_, ht, hspent⟩
    unfold name
    rw [bind_eq e, bind_eq e']
    rfl

theorem dispatch_of_begins {previous : Option Kind} (h : c = '\\' ∨ Name.beginsTerm c = true) :
    rules.dispatch previous c = rules.name := by
  rcases h with rfl | h
  · rfl
  · exact dispatch_of_beginsTerm h

/-- What is read as a prefixed name is a name of the dialect. -/
theorem concludes_read_iff (hhat : kind ≠ .hatHat) (hdirective : kind ≠ .prefixDirective)
    (hk : k.Stands kind (c :: cs)) (hb : k.Begun) (hc : Unicode.isBlank c = false) :
    Concludes (rules.read (some kind)) k (.prefixedName, text) ↔
      Names rules.dialect.nameRule (rules.dialect == .recommendation) text k := by
  obtain ⟨mid, e, hmid, hs, helse⟩ := exists_begun hk hb hc
  have hread : rules.read (some kind) k = rules.dispatch (some kind) c mid := by
    rw [read_eq hhat hdirective, bind_eq e, tokenHere, look_bind_whole hs.clear.whole, hs.ahead]
    rfl
  rw [names_congr helse, concludes_congr hread]
  rcases kinds_dispatch rules (some kind) c with hname | hsign
  · rw [hname]
    exact concludes_name_iff
  · constructor
    · rintro ⟨t, left, e, ht, -⟩
      have hkind : t.kind ∈ signKinds := hsign mid t left e
      rw [show t.kind = .prefixedName from congrArg Prod.fst ht] at hkind
      exact absurd hkind (by decide)
    · intro h
      rw [dispatch_of_begins (h.begins hmid hs.ahead)]
      exact concludes_name_iff.2 h

/-- What is read as a datatype behind `^^` is a name that dots may come into. -/
theorem names_dialect_iff (dialect : Dialect) :
    Names dialect.nameRule (dialect == .recommendation) text k ↔
      Names dialect.nameRule true text k ∧ (dialect = .submission → '.' ∉ k.ahead) := by
  cases dialect with
  | submission =>
    show Names .submission false text k ↔ _
    rw [names_submission_iff]
    simp [Dialect.nameRule]
  | recommendation => simp [Dialect.nameRule]

end Graph.Turtle

/-! ## Whole texts -/

namespace Lexer

open Scan

variable {l : Lexer} {kind : Kind} {cs : List Char} {said : Kind × String}
  {more : List (Kind × String)}

/-- The tokens of the text have these contents. -/
def Says (l : Lexer) (said : List (Kind × String)) : Prop :=
  ∃ ts, l.run = .ok ts ∧ ts.map Token.content = said

theorem says_of_toOption (h : l.run.toOption.map (List.map Token.content) = some more) :
    l.Says more := by
  obtain ⟨ts, hrun, hts⟩ := Option.map_eq_some_iff.1 h
  exact ⟨ts, run_of_toOption hrun, hts⟩

/-- A token is the last one of a text if only a gap is left behind it. -/
theorem says_last_iff {rules : Graph.Turtle} (hl : l.machine = .turtle rules)
    (hs : l.cursor.Stands kind cs) (hkind : kind ≠ .ending) (hsaid : said.1 ≠ .ending)
    (hhat : said.1 ≠ .hatHat) (hdirective : said.1 ≠ .prefixDirective) :
    l.Says [said, (.ending, "")] ↔
      Concludes (rules.read (some kind)) l.cursor.fresh said := by
  have hcomments : l.machine.hasComments = true := by rw [hl]; rfl
  have hne := ne_ending_of_previous hs.previous hkind
  constructor
  · rintro ⟨us, hrun, hus⟩
    obtain ⟨t, us, rfl, ht, hus⟩ := List.map_eq_cons_iff.1 hus
    obtain ⟨u, us, rfl, hu, -⟩ := List.map_eq_cons_iff.1 hus
    have htkind : t.kind ≠ .ending := by
      rw [← ht] at hsaid
      exact hsaid
    obtain ⟨_, l₁, _, e, hcons, hcases⟩ := run_cases hrun
    cases hcons
    have hrun₁ := (hcases.resolve_left fun h => htkind h.1).2
    obtain ⟨_, l₂, _, e₁, hcons₁, -⟩ := run_cases hrun₁
    cases hcons₁
    have hl₁ : l₁.machine = .turtle rules := by rw [(next_ok e).2, hl]; rfl
    have hp₁ := previous_of_next e hne
    refine ⟨t, l₁.cursor, ?_, ht, ?_⟩
    · have hread := read_of_next e hs.previous hkind
      rwa [hl] at hread
    · refine (ending_iff_blank (by rw [hl₁]; rfl) (fun v hv => ?_) ?_ ?_ e₁).1
        (congrArg Prod.fst hu)
      · rw [hl₁] at hv
        cases hv
      · rw [hp₁]
        nofun
      · exact ne_ending_of_previous hp₁ htkind
  · rintro ⟨t, left, e, ht, hspent⟩
    have hnext : l.next = (.ok t, ⟨.turtle rules, left⟩) := by
      rw [next_of_read hs.previous hkind (by rw [hl]; exact e), hl]
      rfl
    have hp : left.previous = some said.1 := by
      rw [← ht]
      exact previous_of_next hnext hne
    have hpending : left.pending = none := by
      have hretains := retains_of_next hnext
      rcases hretains.pending with hnone | hsame | ⟨-, hdot⟩
      · exact hnone
      · exact hsame.trans hs.clear.pending
      · have hmem : '.' ∈ left.ahead := by
          rw [Cursor.ahead, hdot]
          exact List.mem_cons_self
        exact absurd (hspent '.' hmem) (by decide)
    have hstands : left.Stands said.1 left.ahead :=
      ⟨hp, rfl, hpending, whole_of_next hcomments hs.clear.whole hne hnext⟩
    obtain ⟨us, hrun, hus⟩ :=
      (Machine.dispatches_turtle rules hhat hdirective hspent).runs hsaid ⟨.turtle rules, left⟩
        rfl hstands
    refine ⟨t :: us, run_of_next hnext ?_ hrun, ?_⟩
    · rw [← ht] at hsaid
      exact hsaid
    · rw [List.map_cons, ht, hus]

/-- What is read first has its contents, and the rest has its own. -/
theorem says_of_next_iff {l₁ : Lexer} {t : Token}
    (e : l.next = (.ok t, l₁)) (ht : t.content = said) (hsaid : said.1 ≠ .ending) :
    l.Says (said :: more) ↔ l₁.Says more := by
  have htkind : t.kind ≠ .ending := by
    rw [← ht] at hsaid
    exact hsaid
  constructor
  · rintro ⟨us, hrun, hus⟩
    obtain ⟨_, _, vs, e', rfl, hcases⟩ := run_cases hrun
    rw [e] at e'
    cases e'
    exact ⟨vs, (hcases.resolve_left fun h => htkind h.1).2, (List.cons.inj hus).2⟩
  · rintro ⟨us, hrun, hus⟩
    exact ⟨t :: us, run_of_next e htkind hrun, by rw [List.map_cons, ht, hus]⟩

end Lexer

namespace Machine

open Scan

variable {rest : List Char}

theorem gives_beginningLiteral (rules : Graph.Turtle) (hrest : rest.head? ≠ some '"') :
    (turtle rules).Gives .beginning ['"', 'x', '"'] rest (.literal, "x") := by
  have hbegins : (turtle rules).Dispatches .beginning [] (rules.dispatch (some .beginning)) :=
    dispatches_turtle rules nofun nofun nofun
  have hspelled : Spelled (isPlainIn '"') (.between '"') ['x'] ['x'] :=
    .cons (.plain (by decide)) .nil
  exact hbegins.gives (by decide) fun k hb hk =>
    brings_literal .refused (.inl rfl) hspelled hrest hb hk.clear hk.ahead

theorem gives_turtleHatHat (rules : Graph.Turtle) :
    (turtle rules).Gives .literal ['^', '^'] rest (.hatHat, "^^") := by
  have hbegins : (turtle rules).Dispatches .literal [] (rules.dispatch (some .literal)) :=
    dispatches_turtle rules nofun nofun nofun
  exact hbegins.gives (by decide) fun k hb hk => brings_hatHat hb hk.clear hk.ahead

end Machine

namespace Lexer

open Machine (ofSettings)
open Scan

variable {s : Settings} {rules : Graph.Turtle}

theorem exists_turtle (hs : s.format = .turtle ∨ s.format = .triG) :
    ∃ rules, ofSettings s = .turtle rules ∧ rules.dialect = s.dialect := by
  unfold ofSettings
  rcases hs with hs | hs <;> rw [hs] <;> exact ⟨_, rfl, rfl⟩

/-- A text that is read as one token. -/
theorem says_single_iff (hm : ofSettings s = .turtle rules) (v : String) (said : Kind × String)
    (hsaid : said.1 ≠ .ending) (hhat : said.1 ≠ .hatHat) (hdirective : said.1 ≠ .prefixDirective) :
    ∃ k : Cursor, k.Begun ∧ k.Stands .beginning v.toList ∧
      ((ofText s v).Says [(.beginning, ""), said, (.ending, "")] ↔
        Concludes (rules.read (some .beginning)) k said) := by
  obtain ⟨k, e, hk⟩ := Machine.next_ofText s v
  rw [hm] at e
  have hbeginning : Token.beginning.content = (.beginning, "") := rfl
  refine ⟨k.fresh, Cursor.begun_fresh k, hk.fresh, ?_⟩
  rw [says_of_next_iff e hbeginning (by decide)]
  exact says_last_iff rfl hk nofun hsaid hhat hdirective

/-- A text that is read as the datatype of a literal. -/
theorem says_annotated_iff (hm : ofSettings s = .turtle rules) (v : String)
    (said : Kind × String) (hsaid : said.1 ≠ .ending) (hhat : said.1 ≠ .hatHat)
    (hdirective : said.1 ≠ .prefixDirective) :
    ∃ k : Cursor, k.Begun ∧ k.Stands .hatHat v.toList ∧
      ((ofText s ("\"x\"^^" ++ v)).Says
          [(.beginning, ""), (.literal, "x"), (.hatHat, "^^"), said, (.ending, "")] ↔
        Concludes (rules.read (some .hatHat)) k said) := by
  obtain ⟨k, e, hk⟩ := Machine.next_ofText s ("\"x\"^^" ++ v)
  rw [hm] at e
  have hbeginning : Token.beginning.content = (.beginning, "") := rfl
  have hpieces : ("\"x\"^^" ++ v).toList = ['"', 'x', '"'] ++ (['^', '^'] ++ v.toList) :=
    String.toList_append
  have hhats : (['^', '^'] ++ v.toList).head? ≠ some '"' := by
    rintro ⟨⟩
  rw [hpieces] at hk
  obtain ⟨t₁, k₁, e₁, ht₁, hk₁⟩ :=
    (Machine.gives_beginningLiteral rules hhats).next (l := ⟨.turtle rules, k⟩) nofun rfl hk
  obtain ⟨t₂, k₂, e₂, ht₂, hk₂⟩ :=
    (Machine.gives_turtleHatHat rules).next (l := ⟨.turtle rules, k₁⟩) nofun rfl hk₁
  have hafter : ∀ t, (Machine.turtle rules).after t = .turtle rules := fun _ => rfl
  rw [hafter] at e₁ e₂
  refine ⟨k₂.fresh, Cursor.begun_fresh k₂, hk₂.fresh, ?_⟩
  rw [says_of_next_iff e hbeginning (by decide), says_of_next_iff e₁ ht₁ (by decide),
    says_of_next_iff e₂ ht₂ (by decide)]
  exact says_last_iff rfl hk₂ nofun hsaid hhat hdirective

/-- What holds a colon is read as a name exactly where it is read as the datatype of a
literal, and, in the submission's dialect, has no dot. -/
theorem datatype_named (s : Settings) (hs : s.format = .turtle ∨ s.format = .triG)
    (v text : String) (hcolon : ':' ∈ v.toList) (hbracket : v.toList.head? ≠ some '<')
    (hblank : ∀ c, v.toList.head? = some c → Unicode.isBlank c = false) :
    (ofText s v).Says [(.beginning, ""), (.prefixedName, text), (.ending, "")] ↔
      (ofText s ("\"x\"^^" ++ v)).Says [(.beginning, ""), (.literal, "x"), (.hatHat, "^^"),
        (.datatype, text), (.ending, "")] ∧
      (s.dialect = .submission → '.' ∉ v.toList) := by
  obtain ⟨rules, hm, hdialect⟩ := exists_turtle hs
  obtain ⟨k, hb, hk, hname⟩ :=
    says_single_iff hm v (.prefixedName, text) nofun nofun nofun
  obtain ⟨k', hb', hk', hdatatype⟩ :=
    says_annotated_iff hm v (.datatype, text) nofun nofun nofun
  obtain ⟨c, cs, hv⟩ := List.exists_cons_of_ne_nil (List.ne_nil_of_mem hcolon)
  rw [hv] at hk hk' hbracket hblank
  have hc : Unicode.isBlank c = false := hblank c rfl
  have helse : k.Elsewhere k' := Cursor.elsewhere_of_clear hk.clear hk'.clear
    (hk'.ahead.trans hk.ahead.symm) (hb'.written.trans hb.written.symm)
  have hterm : Concludes (rules.read (some .beginning)) k (.prefixedName, text) ↔
      Names rules.dialect.nameRule (rules.dialect == .recommendation) text k :=
    Graph.Turtle.concludes_read_iff nofun nofun hk hb hc
  have hread : Concludes (rules.read (some .hatHat)) k' (.datatype, text) ↔
      Names rules.dialect.nameRule true text k' :=
    concludes_datatype_iff hk' hb' hc fun h => hbracket (congrArg some h)
  rw [hname, hdatatype, hterm, hread, Graph.Turtle.names_dialect_iff, names_congr helse, hdialect,
    hk.ahead, hv]

/-- A name with a dot in either part and an escape, and one without a dot in the other
dialect. -/
theorem datatype_named_escape :
    let recommendation : Settings := ⟨.triG, .sparql11, .recommendation⟩
    let submission : Settings := ⟨.turtle, .sparql11, .submission⟩
    (recommendation.format = .turtle ∨ recommendation.format = .triG) ∧
      (submission.format = .turtle ∨ submission.format = .triG) ∧
      (∀ v ∈ ["e.x:a\\-b.c", "ex:a"], ':' ∈ v.toList ∧ v.toList.head? ≠ some '<' ∧
        ∀ c, v.toList.head? = some c → Unicode.isBlank c = false) ∧
      (ofText recommendation ("\"x\"^^" ++ "e.x:a\\-b.c")).Says [(.beginning, ""),
        (.literal, "x"), (.hatHat, "^^"), (.datatype, "e.x:a-b.c"), (.ending, "")] ∧
      (ofText submission "ex:a").Says
        [(.beginning, ""), (.prefixedName, "ex:a"), (.ending, "")] := by
  intro recommendation submission
  have hs : recommendation.format = .turtle ∨ recommendation.format = .triG := .inr rfl
  have hs' : submission.format = .turtle ∨ submission.format = .triG := .inl rfl
  have hv : ∀ v ∈ ["e.x:a\\-b.c", "ex:a"], ':' ∈ v.toList ∧ v.toList.head? ≠ some '<' ∧
      ∀ c, v.toList.head? = some c → Unicode.isBlank c = false := by
    intro v hv
    rcases List.mem_cons.1 hv with rfl | hv
    · exact ⟨by decide, by decide, by rintro c ⟨⟩; decide⟩
    · rw [List.mem_singleton.1 hv]
      exact ⟨by decide, by decide, by rintro c ⟨⟩; decide⟩
  obtain ⟨hcolon, hbracket, hblank⟩ := hv "e.x:a\\-b.c" (by decide)
  obtain ⟨hcolon', hbracket', hblank'⟩ := hv "ex:a" (by decide)
  have hname : (ofText recommendation "e.x:a\\-b.c").Says
      [(.beginning, ""), (.prefixedName, "e.x:a-b.c"), (.ending, "")] :=
    says_of_toOption (by decide +kernel)
  have hdatatype : (ofText submission ("\"x\"^^" ++ "ex:a")).Says [(.beginning, ""),
      (.literal, "x"), (.hatHat, "^^"), (.datatype, "ex:a"), (.ending, "")] :=
    says_of_toOption (by decide +kernel)
  exact ⟨hs, hs', hv, ((datatype_named _ hs _ _ hcolon hbracket hblank).1 hname).1,
    (datatype_named _ hs' _ _ hcolon' hbracket' hblank').2 ⟨hdatatype, fun _ => by decide⟩⟩

/-- A dot is taken into a datatype in the dialect in which a name stops at it. -/
theorem not_datatype_named_dotted :
    let s : Settings := ⟨.turtle, .sparql11, .submission⟩
    ':' ∈ "ex:a.b".toList ∧ "ex:a.b".toList.head? ≠ some '<' ∧
      (∀ c, "ex:a.b".toList.head? = some c → Unicode.isBlank c = false) ∧
      (ofText s "ex:a.b").run.toOption = none ∧
      (ofText s ("\"x\"^^" ++ "ex:a.b")).Says [(.beginning, ""), (.literal, "x"),
        (.hatHat, "^^"), (.datatype, "ex:a.b"), (.ending, "")] :=
  ⟨by decide, by decide, by rintro c ⟨⟩; decide, by decide +kernel,
    says_of_toOption (by decide +kernel)⟩

end Lexer

end TripleLex

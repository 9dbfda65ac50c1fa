import TripleLex.Proofs.Progress
import TripleLex.Proofs.Soundness

/-!
# Neighbours

Along a run of calls, the kind that a cursor remembers is the kind of the token
that was made last (`Lexer.Remembers`), also where a name was made first and
then turned into a datatype. So what the machines ask of the remembered kind is
asked of the neighbour: annotations stand directly behind quoted literals, a
datatype stands behind its sign and nothing else does, a prefix likewise behind
its directive, and in N-Triples no graph follows a literal.

What a machine can have made last (`Machine.Admits`) is part of the invariant: a
declaration of keywords is read behind its own tokens only, and the formats
without prefixes never announce one.

## Main results

* `Machine.suits_read` — what one call makes of the remembered kind.
* `Lexer.Remembers.next` — the invariant of a call.
* `Lexer.neighbours_suit` — the tokens of a run and what comes after them.
-/

namespace TripleLex

open Scan Cursor
open Token (Sound)

variable {k : Cursor} {previous : Option Kind}

/-! ## What follows a literal in N-Triples -/

namespace Kind

/-- Whether the token could name the graph of a statement. -/
def namesGraph : Kind → Bool
  | uri | blankNode => true
  | _ => false

end Kind

namespace Graph.LineFormat

/-- In N-Triples the token names no graph behind a literal. -/
abbrev Unlabelled (previous : Option Kind) (t : Token) : Prop :=
  t.kind.namesGraph = true → endsLiteral previous = false

/-- What comes behind a check of the graph in N-Triples. -/
theorem unlabelled_checked {f : Unit → Scan Token} (hk : k.previous = previous) :
    Makes (Unlabelled previous) k (LineFormat.triples.checkGraph >>= f) := by
  intro t left e _
  obtain ⟨_, mid, e₁, -⟩ := bind_ok e
  have e₁ := get_bind_ok e₁
  split at e₁
  · cases e₁
  · rename_i hlabel
    simpa [hk] using hlabel

theorem unlabelled_literal : Makes (Unlabelled previous) k literal := by
  refine makes_bind fun _ _ => makes_bind fun second _ => ?_
  split
  · refine makes_bind fun _ _ => makes_bind fun third _ => ?_
    split
    · exact makes_violation _
    · exact makes_emit nofun
  · exact makes_bind fun _ _ => makes_emit nofun

theorem unlabelled_languageTag : Makes (Unlabelled previous) k languageTag := by
  refine makes_bind fun _ _ => makes_bind fun _ _ => makes_get ?_
  split
  · exact makes_unexpectedNext _
  · split
    · exact makes_emit nofun
    · exact makes_invalidForm _ _

theorem unlabelled_hatHat : Makes (Unlabelled previous) k hatHat := by
  refine makes_bind fun _ _ => makes_bind fun c _ => ?_
  split
  · exact makes_unexpectedEnd _
  · split
    · exact makes_bind fun _ _ => makes_emit nofun
    · exact makes_unexpectedCharacter _ _

theorem unlabelled_dispatch {c : Char} (hk : k.previous = previous) :
    Makes (Unlabelled previous) k (LineFormat.triples.dispatch previous c) := by
  unfold dispatch
  split
  · exact makes_bind fun _ _ => makes_emit nofun
  · exact unlabelled_checked hk
  · exact unlabelled_checked hk
  · exact unlabelled_literal
  · exact makes_bind fun _ _ => makes_emit nofun
  · split
    · exact unlabelled_languageTag
    · split
      · exact unlabelled_hatHat
      · exact makes_unexpectedCharacter _ _

theorem unlabelled_datatype : Makes (Unlabelled previous) k datatype := by
  refine makes_bind fun _ _ => makes_bind fun c _ => ?_
  split
  · exact makes_unexpectedEnd _
  · split
    · exact makes_bind fun _ _ => makes_bind fun _ _ => makes_get (makes_emitAs nofun)
    · exact makes_unexpectedCharacter _ _

/-- Passing over blank characters does not change what is remembered, so that
the check is made of the token before. -/
theorem unlabelled_read (hk : k.previous = previous) :
    Makes (Unlabelled previous) k (LineFormat.triples.read previous) := by
  unfold read
  split
  · exact unlabelled_datatype
  · intro t left e
    obtain ⟨_, k₁, e₁, e⟩ := bind_ok e
    obtain ⟨_, k₂, e₂, e₁⟩ := bind_ok e₁
    have hk₂ : k₂.previous = previous := (blanks_ok e₂).previous.trans hk
    rw [startToken_ok e₁] at e
    rcases look_bind_ok e with ⟨k₃, r₃, hend, e⟩ | ⟨c, k₃, r₃, -, e⟩
    · have hends := (ending_ok hend e).token
      rw [hends]
      exact nofun
    · exact unlabelled_dispatch (r₃.previous.trans hk₂) t left e

end Graph.LineFormat

/-! ## What cannot be due -/

namespace Scan

variable {left : Cursor} {t : Token} {c : Char}

theorem head?_dropWhile_blank {mid : Cursor}
    (h : k.Passes (k.ahead.takeWhile Unicode.isBlank) mid)
    (hc : (k.ahead.dropWhile Unicode.isBlank).head? = some c) : mid.ahead.head? = some c := by
  have hsplit := List.takeWhile_append_dropWhile (p := Unicode.isBlank) (l := k.ahead)
  have hrest : k.ahead.dropWhile Unicode.isBlank = mid.ahead :=
    List.append_cancel_left (hsplit.trans h.ahead)
  rw [← hrest, hc]

/-- A prefix begins with a letter or is its colon alone. -/
theorem isPrefix_of_not_isBase (hb : Name.isBase c = false) (hcolon : c ≠ ':')
    (word : List Char) : Name.isPrefix (c :: word) = false := by
  have hlabel : Name.isPrefixLabel (c :: word.takeWhile (· != ':')) = false := by
    show (Name.isBase c && Name.isRun false (word.takeWhile (· != ':'))) = false
    rw [hb, Bool.false_and]
  have htake : (c :: word).takeWhile (· != ':') = c :: word.takeWhile (· != ':') :=
    List.takeWhile_cons_of_pos (bne_iff_ne.2 hcolon)
  unfold Name.isPrefix
  rw [htake]
  dsimp only
  rw [hlabel]
  split <;> rfl

theorem prefixName_ne_ok (hb : Name.isBase c = false) (hcolon : c ≠ ':')
    (hc : (k.ahead.dropWhile Unicode.isBlank).head? = some c) : prefixName k ≠ .ok t left := by
  intro e
  obtain ⟨_, k₁, e₁, e⟩ := bind_ok e
  obtain ⟨hp, hbegun⟩ := discardBlank_ok e₁
  have hc₁ := head?_dropWhile_blank hp hc
  obtain ⟨_, k₂, e₂, e⟩ := bind_ok e
  obtain ⟨cs, ws, r₂, hws, -⟩ := iterate_ok (fun s _ r _ e => prefixTurn_ok s r e) e₂
  have hvalue : k₂.value = cs := by
    rw [r₂.value hbegun, hws]
  have e := get_bind_ok e
  split at e
  · obtain ⟨c, k₃, -, e⟩ := bind_ok e
    cases e
  · rename_i hend
    split at e
    · rename_i hprefix
      cases cs with
      | nil => simp [Cursor.endsWith, r₂.written, hbegun.written, hws] at hend
      | cons c cs =>
        have hhead := r₂.head?_eq
        rw [hc₁] at hhead
        cases hhead
        rw [hvalue, isPrefix_of_not_isBase hb hcolon] at hprefix
        cases hprefix
    · cases e

theorem datatype_ne_ok {rule : Name.Rule} (hs : Name.isScanned c = false) (hless : c ≠ '<')
    (hescape : c ≠ '\\') (hc : (k.ahead.dropWhile Unicode.isBlank).head? = some c) :
    datatype rule k ≠ .ok t left := by
  intro e
  obtain ⟨_, k₁, e₁, e⟩ := bind_ok e
  obtain ⟨hp, -⟩ := discardBlank_ok e₁
  have hc₁ := head?_dropWhile_blank hp hc
  rcases look_bind_ok e with ⟨k₂, r₂, -, e⟩ | ⟨d, k₂, r₂, hc₂, e⟩
  · exact absurd e unexpectedEnd_ne_ok
  · rw [r₂.ahead_eq, hc₁] at hc₂
    cases hc₂
    have hescape : (c == '\\') = false := beq_eq_false_iff_ne.2 hescape
    dsimp only at e
    rw [if_neg (fun h => hless (beq_iff_eq.1 h)), hs, hescape] at e
    cases e

end Scan

/-! ## Stars -/

namespace Query.Sparql

variable {q : Sparql}

/-- The token behind blank characters that a star begins. -/
abbrev IsStar (previous : Option Kind) (t : Token) : Prop := t.kind = starKind previous

theorem star_prologue (hc : k.ahead.head? = some '*') (hb : k.Begun) :
    Makes (IsStar previous) k (q.prologue previous '*') := by
  intro t left e
  unfold prologue at e
  rw [if_neg (by decide), if_neg (by decide)] at e
  obtain ⟨_, k₁, e₁, e⟩ := bind_ok e
  have r₁ := consumeWhile_ok (fun c h => not_isLineEnd_of_isAlphabetic h) e₁
  have hnil : k.ahead.takeWhile Unicode.isAlphabetic = [] := by
    obtain ⟨rest, hk⟩ := List.head?_eq_some_iff.1 hc
    have hstar : Unicode.isAlphabetic '*' = false := Unicode.isAlphabetic_ascii (by decide)
    rw [hk, List.takeWhile_cons, hstar]
    rfl
  have hempty : k₁.isEmpty = true := by
    rw [Cursor.isEmpty, r₁.written, hnil, hb.written]
    rfl
  have e := get_bind_ok e
  rw [if_pos hempty] at e
  cases e

/-- A star that stands behind a token is read by the kind of that token, or not
at all. -/
theorem star_read (hc : (k.ahead.dropWhile Unicode.isBlank).head? = some '*') :
    Makes (IsStar previous) k (q.read previous) := by
  have hscan : Name.isScanned '*' = false := Name.isScanned_ascii (by decide)
  unfold read
  split
  · exact fun t left e => absurd e (prefixName_ne_ok (by decide) (by decide) hc)
  · exact fun t left e => absurd e (datatype_ne_ok hscan (by decide) (by decide) hc)
  · intro t left e
    obtain ⟨_, k₁, e₁, e⟩ := bind_ok e
    obtain ⟨hp, hb⟩ := discardBlank_ok e₁
    have hc₁ := head?_dropWhile_blank hp hc
    rcases look_bind_ok e with ⟨k₂, r₂, hend, -⟩ | ⟨c, k₂, r₂, hc₂, e⟩
    · rw [← r₂.ahead_eq, hend] at hc₁
      cases hc₁
    · have hcopy := hc₂
      rw [r₂.ahead_eq, hc₁] at hc₂
      cases hc₂
      dsimp only at e
      split at e
      · exact makes_bind (fun _ _ => makes_emit rfl) t left e
      · exact star_prologue hcopy (r₂.begun hb) t left e

end Query.Sparql

/-! ## All machines -/

namespace Machine

/-- The kinds that the token before may have, as far as it matters. -/
def Admits (m : Machine) (previous : Option Kind) : Prop :=
  match m with
  | lines _ | tsv => previous ≠ some .prefixDirective
  | csv => Kind.Open previous
  | n3 vocabulary => vocabulary.isReading = true → Kind.Open previous
  | turtle _ | sparql _ => True

/-- What a token shows of the machine that made it. -/
structure Suits (m : Machine) (previous : Option Kind) (t : Token) : Prop where
  follows : Kind.Follows previous t.kind
  admits : (m.after t).Admits (some t.kind)

/-- A machine without declared prefixes announces none. -/
theorem ne_prefixDirective {t : Token} (h : t.Sound Table.Tsv.grammar previous) :
    some t.kind ≠ some .prefixDirective :=
  fun hd => nomatch h.declares (Option.some.inj hd)

/-- In a declaration of keywords the next token is one of its own, and outside
of one only the directive begins another. -/
theorem n3_admits_after {v : Graph.Vocabulary} {t : Token}
    (hr : v.isReading = true → t.kind = .dot ∨ t.kind = .keywordDefinition) :
    (n3 (v.after t)).Admits (some t.kind) := by
  intro hreading
  have hkind : t.kind = .keywordDirective ∨ t.kind = .keywordDefinition := by
    unfold Graph.Vocabulary.after at hreading
    split at hreading
    · exact Or.inl ‹_›
    · exact Or.inr ‹_›
    · cases hreading
    · exact absurd (hr hreading) (by simp_all)
  rcases hkind with hkind | hkind <;> rw [hkind] <;> exact ⟨nofun, nofun⟩

theorem n3_makes_own {v : Graph.Vocabulary} (hv : v.isReading = true) :
    Makes (fun t => t.kind = .dot ∨ t.kind = .keywordDefinition) k
      (Graph.Notation3.read v previous) := by
  unfold Graph.Notation3.read
  rw [if_pos hv]
  exact Graph.Notation3.makes_declaration

/-- What a machine makes suits the token before, and the machine admits it. -/
theorem suits_read {m : Machine} (h : m.Admits previous) :
    Makes (m.Suits previous) k (m.read previous) := by
  cases m with
  | lines format =>
    intro t left e
    have ht : t.Sound Table.Tsv.grammar previous := Graph.LineFormat.sound_read h t left e
    exact ⟨ht.follows, ne_prefixDirective ht⟩
  | turtle rules =>
    intro t left e
    exact ⟨(Graph.Turtle.sound_read t left e).follows, trivial⟩
  | n3 vocabulary =>
    intro t left e
    exact ⟨Graph.Notation3.follows_read h t left e,
      n3_admits_after fun hv => n3_makes_own hv t left e⟩
  | sparql query =>
    intro t left e
    exact ⟨(Query.Sparql.sound_read t left e).follows, trivial⟩
  | csv =>
    intro t left e
    have ht := Kind.isOrdinary_iff.1 (Table.Csv.ordinary_read t left e)
    refine ⟨.of_unattached h ht.1, ?_, fun hd => ht.2 (Option.some.inj hd)⟩
    intro hd
    rw [Option.some.inj hd] at ht
    exact nomatch ht.1
  | tsv =>
    intro t left e
    have ht := Table.Tsv.sound_read h t left e
    exact ⟨ht.follows, ne_prefixDirective ht⟩

/-- The two marks around all text are admitted everywhere. -/
theorem suits_mark {m : Machine} {t : Token} (ho : Kind.Open previous)
    (hk : t.kind.isMark = true) : m.Suits previous t := by
  have hkind : t.kind = .beginning ∨ t.kind = .ending := by
    simpa [Kind.isMark] using hk
  have hopen : Kind.Open (some t.kind) := by
    rcases hkind with hkind | hkind <;> rw [hkind] <;> exact ⟨nofun, nofun⟩
  have hfollows : Kind.Follows previous t.kind := by
    apply Kind.Follows.of_unattached ho
    rcases hkind with hkind | hkind <;> rw [hkind] <;> rfl
  refine ⟨hfollows, ?_⟩
  cases m with
  | lines format => exact hopen.unannounced
  | tsv => exact hopen.unannounced
  | csv => exact hopen
  | n3 vocabulary => exact fun _ => hopen
  | turtle rules => trivial
  | sparql query => trivial

theorem eq_lines_of_format {m : Machine} (h : m.format = .nTriples) : m = lines .triples := by
  cases m with
  | lines format =>
    cases format with
    | triples => rfl
    | quads => cases h
  | turtle rules =>
    simp only [format] at h
    split at h <;> cases h
  | _ => cases h

theorem eq_sparql_of_format {m : Machine} (h : m.format = .sparql) : ∃ q, m = sparql q := by
  cases m with
  | sparql query => exact ⟨query, rfl⟩
  | lines format => cases format <;> cases h
  | turtle rules =>
    simp only [format] at h
    split at h <;> cases h
  | _ => cases h

theorem admits_none (s : Settings) : (ofSettings s).Admits none := by
  rcases s with ⟨f, l, d⟩
  cases f
  case csv => exact ⟨nofun, nofun⟩
  case n3 => exact fun hv => nomatch hv
  case turtle => trivial
  case triG => trivial
  case sparql => trivial
  all_goals exact nofun

end Machine

/-! ## Runs -/

/-- What a language asks of the kind before a token. -/
structure Token.Suits (format : Format) (previous : Option Kind) (t : Token) : Prop
    extends Kind.Follows previous t.kind where
  unlabelled : format = .nTriples → t.kind = .uri ∨ t.kind = .blankNode →
    previous ≠ some .literal ∧ previous ≠ some .languageTag ∧ previous ≠ some .datatype

namespace Lexer

open Input (Source)

/-- The kind of the token that was made last. -/
def lastKind (ts : List Token) : Option Kind := ts.getLast?.map Token.kind

/-- The cursor remembers what the tokens so far ended in. -/
structure Remembers (ts : List Token) (l : Lexer) : Prop where
  previous : l.cursor.previous = lastKind ts
  admits : l.machine.Admits l.cursor.previous
  /-- Behind the token after all text nothing is left. -/
  ended : l.cursor.previous = some .ending → l.cursor.ahead = []

theorem lastKind_append (ts : List Token) (t : Token) : lastKind (ts ++ [t]) = some t.kind := by
  simp [lastKind]

/-- What a call leaves: the kind of its token is remembered. -/
theorem remembered {l l' : Lexer} {t : Token} (e : l.next = (.ok t, l'))
    (hend : l.cursor.previous = some .ending → l.cursor.ahead = []) :
    l'.cursor.previous = some t.kind ∧
      (l'.cursor.previous = some .ending → l'.cursor.ahead = []) := by
  rcases next_cases e with ⟨-, rfl, hl⟩ | ⟨hp, rfl, hl⟩ | ⟨-, -, mid, -, h⟩
  · rw [hl]
    exact ⟨rfl, nofun⟩
  · rw [hl]
    exact ⟨rfl, fun _ => hend hp⟩
  · rcases h with h | ⟨cs, h⟩
    · rw [h.token]
      exact ⟨h.previous, fun _ => h.ahead⟩
    · refine ⟨h.previous, fun he => ?_⟩
      rw [h.previous] at he
      exact absurd (Option.some.inj he) (ne_ending_of_not_isMark h.inner)

theorem suits_next {l l' : Lexer} {t : Token} (e : l.next = (.ok t, l'))
    (ha : l.machine.Admits l.cursor.previous) : l.machine.Suits l.cursor.previous t := by
  rcases step_cases (next_ok e).1 with ⟨hp, rfl, -⟩ | ⟨hp, rfl, -⟩ | ⟨-, -, e⟩
  · rw [hp]
    exact Machine.suits_mark ⟨nofun, nofun⟩ rfl
  · rw [hp]
    exact Machine.suits_mark ⟨nofun, nofun⟩ rfl
  · exact Machine.suits_read ha t _ e

theorem Remembers.next {ts : List Token} {l l' : Lexer} {t : Token} (h : Remembers ts l)
    (e : l.next = (.ok t, l')) : Remembers (ts ++ [t]) l' := by
  obtain ⟨hp, hend⟩ := remembered e h.ended
  refine ⟨by rw [hp, lastKind_append], ?_, hend⟩
  rw [hp, (next_ok e).2]
  exact (suits_next e h.admits).admits

theorem reaches_remembers {s : Settings} {source : Source} {ts : List Token} {l : Lexer}
    (h : Reaches (ofSource s source) ts l) : Remembers ts l ∧ l.format = s.format := by
  induction h with
  | start => exact ⟨⟨rfl, Machine.admits_none s, nofun⟩, Machine.format_ofSettings s⟩
  | next _ e ih =>
    refine ⟨ih.1.next e, ?_⟩
    rw [format, (next_ok e).2, Machine.format_after]
    exact ih.2

theorem unlabelled_next {l l' : Lexer} {t : Token} (e : l.next = (.ok t, l'))
    (hf : l.format = .nTriples) (hk : t.kind = .uri ∨ t.kind = .blankNode) :
    Graph.LineFormat.endsLiteral l.cursor.previous = false := by
  have hm : l.machine = .lines .triples := Machine.eq_lines_of_format hf
  rcases step_cases (next_ok e).1 with ⟨hp, -, -⟩ | ⟨hp, -, -⟩ | ⟨-, -, e⟩
  · rw [hp]
    rfl
  · rw [hp]
    rfl
  · rw [hm] at e
    have hlabel := Graph.LineFormat.unlabelled_read (k := l.cursor.fresh) rfl t _ e
    apply hlabel
    rcases hk with hk | hk <;> rw [hk] <;> rfl

theorem token_suits {ts : List Token} {l l' : Lexer} {t : Token} (h : Remembers ts l)
    (e : l.next = (.ok t, l')) : t.Suits l.format (lastKind ts) := by
  have hs := suits_next e h.admits
  rw [h.previous] at hs
  refine ⟨hs.follows, fun hf hk => ?_⟩
  have hlabel := unlabelled_next e hf hk
  rw [h.previous] at hlabel
  refine ⟨?_, ?_, ?_⟩ <;> intro hp <;> rw [hp] at hlabel <;> cases hlabel

theorem star_next {ts : List Token} {l l' : Lexer} {t : Token} (h : Remembers ts l)
    (hts : ts ≠ []) (e : l.next = (.ok t, l')) (hf : l.format = .sparql)
    (hc : (l.cursor.ahead.dropWhile Unicode.isBlank).head? = some '*') :
    t.kind = Query.Sparql.starKind (lastKind ts) := by
  obtain ⟨q, hm⟩ : ∃ q, l.machine = .sparql q := Machine.eq_sparql_of_format hf
  rcases step_cases (next_ok e).1 with ⟨hp, -, -⟩ | ⟨hp, -, -⟩ | ⟨-, -, e⟩
  · rw [h.previous, lastKind, Option.map_eq_none_iff, List.getLast?_eq_none_iff] at hp
    exact absurd hp hts
  · rw [h.ended hp] at hc
    cases hc
  · rw [hm, h.previous] at e
    exact Query.Sparql.star_read (k := l.cursor.fresh) hc t _ e

/-- Every token of a run suits its neighbour. In SPARQL, where reading stands
before a star, the next token is that of all columns exactly if a projection's
keyword was made last, and otherwise that of a product. -/
theorem neighbours_suit (s : Settings) (source : Source) (ts : List Token) (l : Lexer)
    (h : Reaches (ofSource s source) ts l) :
    (∀ before t after, ts = before ++ t :: after → t.Suits s.format (lastKind before)) ∧
    (∀ t l', s.format = .sparql → ts ≠ [] →
      (l.cursor.ahead.dropWhile Unicode.isBlank).head? = some '*' → l.next = (.ok t, l') →
      (Kind.IsProjection (lastKind ts) → t.kind = .allColumns) ∧
      (¬ Kind.IsProjection (lastKind ts) → t.kind = .multiply)) := by
  constructor
  · intro before t after hts
    subst hts
    obtain ⟨l₁, h₁, h₂⟩ := h.of_append
    obtain ⟨l₂, e, -⟩ := h₂.of_cons
    obtain ⟨hr, hf⟩ := reaches_remembers h₁
    rw [← hf]
    exact token_suits hr e
  · intro t l' hf hts hc e
    obtain ⟨hr, hl⟩ := reaches_remembers h
    have hstar := star_next hr hts e (hl.trans hf) hc
    constructor
    · intro hp
      rw [hstar, Query.Sparql.starKind_of_projection hp]
    · intro hp
      rw [hstar, Query.Sparql.starKind_of_not_projection hp]

/-- A star behind `SELECT`. -/
theorem neighbours_suit_columns :
    let s : Settings := ⟨.sparql, .sparql11, .recommendation⟩
    let select : Token := ⟨.keyword .select, "SELECT", ⟨1, 1, 1, 6⟩⟩
    ∃ (l l' : Lexer) (t : Token), s.format = .sparql ∧
      Reaches (ofSource s (.ofText "SELECT *")) [.beginning, select] l ∧
      (l.cursor.ahead.dropWhile Unicode.isBlank).head? = some '*' ∧ l.next = (.ok t, l') ∧
      t.Suits .sparql (lastKind [.beginning, select]) ∧ t.kind = .allColumns := by
  intro s select
  let l₁ := (ofSource s (.ofText "SELECT *")).next.2
  let l₂ := l₁.next.2
  have e₁ : l₁.next = (.ok select, l₂) := next_of_toOption (by decide +kernel)
  have e₂ : l₂.next = (.ok ⟨.allColumns, "*", ⟨1, 1, 8, 8⟩⟩, l₂.next.2) :=
    next_of_toOption (by decide +kernel)
  have h₂ : Reaches (ofSource s (.ofText "SELECT *")) [.beginning, select] l₂ :=
    (Reaches.start.next (t := .beginning) rfl).next e₁
  refine ⟨l₂, l₂.next.2, _, rfl, h₂, by decide +kernel, e₂, ?_, ?_⟩
  · exact (neighbours_suit s _ _ _ (h₂.next e₂)).1 [.beginning, select] _ [] rfl
  · exact ((neighbours_suit s _ _ _ h₂).2 _ _ rfl nofun (by decide +kernel) e₂).1 (Or.inl rfl)

end Lexer

end TripleLex

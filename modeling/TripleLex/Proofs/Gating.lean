import TripleLex.Proofs.KeywordSpellings
import TripleLex.Proofs.Neighbours
import TripleLex.Proofs.Outcomes
import TripleLex.Proofs.ReaderKinds

/-!
# Keywords and the prologue along runs

The reader of queries has two phases, each with a reader of words of its own. In
the prologue it makes few kinds of tokens, and the first keyword, which opens a
query or an update, ends it; in the body no keyword opens another query but
`SELECT`, and that only in a sub-query. Both make the declaration of a base, and
both ask first whether there was one. `Gated` says all this of a token and those
before it.

A single token is gated by what the reader remembers (`Sparql.Gates`); what it
remembers is what the tokens before have been (`Gating`).

## Main results

* `Sparql.gates_read` — a single token.
* `Lexer.queries_gated` — whole runs.
-/

namespace TripleLex

open Scan Cursor

namespace Query

/-! ## What a query asks of its tokens -/

/-- The kinds of the prologue, beside its keyword. -/
def prologueKinds : List Kind :=
  [.beginning, .comment, .baseDirective, .prefixDirective, .prefixName, .uri, .ending]

/-- Whether a keyword is among the tokens. -/
def hasWord (ts : List Token) : Bool := ts.any fun t => t.kind.isWord

/-- Whether the declaration of a base is among the tokens. -/
def hasBase (ts : List Token) : Bool := ts.any fun t => t.kind == .baseDirective

/-- What a query at a level asks of a token behind others. -/
structure Gated (level : Level) (before : List Token) (t : Token) : Prop where
  prologue : hasWord before = false → t.kind.isWord = false → t.kind ∈ prologueKinds
  announced : hasWord before = false → t.kind = .uri →
    Lexer.lastKind before = some .baseDirective ∨ Lexer.lastKind before = some .prefixName
  opens : hasWord before = false → ∀ w, t.kind = .keyword w →
    w.opensQuery = true ∨ w.opensUpdate = true
  continues : hasWord before = true → ∀ w, t.kind = .keyword w →
    w ∉ [Keyword.ask, .construct, .describe] ∧ (level = .sparql10 → w ≠ .select)
  once : t.kind = .baseDirective → hasBase before = false
  available : ∀ w, t.kind = .keyword w → w.availableIn level = true
  spelled : ∀ w, t.kind = .keyword w → spelling t.text.toList = w.text.toList

namespace Sparql

variable {k : Cursor} {q : Sparql} {previous : Option Kind}

/-! ## Single tokens -/

/-- The keyword may be made now. -/
def Allows (q : Sparql) (w : Keyword) : Prop :=
  if q.progress.inBody then
    w ∉ [Keyword.ask, .construct, .describe] ∧ (q.level = .sparql10 → w ≠ .select)
  else w.opensQuery = true ∨ w.opensUpdate = true

/-- What a token is as far as words are concerned. -/
structure Gates (q : Sparql) (previous : Option Kind) (t : Token) : Prop where
  prologue : q.progress.inBody = false → previous ≠ some .hatHat → t.kind.isWord = false →
    t.kind ∈ prologueKinds ∧
      (t.kind = .uri → previous = some .baseDirective ∨ previous = some .prefixName)
  once : t.kind = .baseDirective → q.progress.hasBase = false
  word : ∀ w, t.kind = .keyword w →
    q.Allows w ∧ w.availableIn q.level = true ∧ spelling t.text.toList = w.text.toList

/-- Whether nothing is asked of tokens of the kind in the body. -/
def isFree (kind : Kind) : Bool := !kind.isWord && kind != .baseDirective

theorem gates_of_free {t : Token} (hb : q.progress.inBody = true) (h : isFree t.kind = true) :
    q.Gates previous t := by
  rw [isFree, Bool.and_eq_true, Bool.not_eq_true', bne_iff_ne] at h
  refine ⟨fun hn => ?_, fun hk => absurd hk h.2, fun w hw => ?_⟩
  · rw [hb] at hn
    cases hn
  · rw [hw] at h
    cases h.1

/-- A token of the prologue that is no declaration of a base. -/
theorem gates_of_kind {t : Token} {kind : Kind} (ht : t.kind = kind) (hk : kind ∈ prologueKinds)
    (hbase : kind ≠ .baseDirective)
    (huri : kind = .uri → previous = some .baseDirective ∨ previous = some .prefixName) :
    q.Gates previous t := by
  have hwords : ∀ kind ∈ prologueKinds, kind.isWord = false := by decide
  subst ht
  refine ⟨fun _ _ _ => ⟨hk, huri⟩, fun h => absurd h hbase, fun w hw => ?_⟩
  have hnone := hwords t.kind hk
  rw [hw] at hnone
  cases hnone

/-- A reader of the body that makes neither keywords nor declarations. -/
theorem gates_kinds {m : Scan Token} {kinds : List Kind} (hb : q.progress.inBody = true)
    (h : Makes (OfKind kinds) k m) (hk : ∀ kind ∈ kinds, isFree kind = true) :
    Makes (q.Gates previous) k m :=
  (h.ofKind hk).mono fun _ ht => gates_of_free hb ht

theorem gates_base : Makes (q.Gates previous) k q.base := by
  unfold base
  split
  · exact makes_violation _
  · rename_i hbase
    have hk : Kind.baseDirective ∈ prologueKinds := by decide
    exact makes_emit ⟨fun _ _ _ => ⟨hk, nofun⟩, fun _ => by simpa using hbase, nofun⟩

/-! ### Keywords -/

theorem available_of_checkLevel {w : Keyword} {left : Cursor} {u : Unit}
    (e : q.checkLevel w k = .ok u left) : w.availableIn q.level = true := by
  unfold checkLevel at e
  split at e
  · assumption
  · split at e <;> cases e

/-- No query begins inside another one but a sub-query. -/
theorem continues_of_checkScope {w : Keyword} {left : Cursor} {u : Unit}
    (e : q.checkScope w k = .ok u left) :
    w ∉ [Keyword.ask, .construct, .describe] ∧ (q.level = .sparql10 → w ≠ .select) := by
  unfold checkScope at e
  split at e
  · split at e
    · cases e
    · rename_i hlevel
      exact ⟨by decide, fun hl => absurd (beq_iff_eq.2 hl) hlevel⟩
  · cases e
  · cases e
  · cases e
  · exact ⟨by decide, fun _ => nofun⟩
  · exact ⟨by decide, fun _ => nofun⟩
  · exact ⟨by decide, fun _ => nofun⟩
  · simp_all

theorem gates_emitWord {w : Keyword} (hallows : q.Allows w)
    (havailable : w.availableIn q.level = true) (hspelled : spelling k.value = w.text.toList) :
    Makes (q.Gates previous) k (emit (.keyword w)) := by
  refine makes_emit ⟨?_, nofun, ?_⟩
  · intro _ _ hword
    cases hword
  · rintro w ⟨⟩
    refine ⟨hallows, havailable, ?_⟩
    rw [k.toList_text]
    exact hspelled

theorem gates_keyword {w : Keyword} (hb : q.progress.inBody = true)
    (hspelled : spelling k.value = w.text.toList) :
    Makes (q.Gates previous) k (q.keyword w) := by
  intro t left e
  obtain ⟨_, k₁, e₁, e⟩ := bind_ok e
  obtain ⟨_, k₂, e₂, e⟩ := bind_ok e
  have hallows : q.Allows w := by
    unfold Allows
    rw [if_pos hb]
    exact continues_of_checkScope e₂
  have havailable := available_of_checkLevel e₁
  rw [checkScope_ok e₂, checkLevel_ok e₁] at e
  exact gates_emitWord hallows havailable hspelled t left e

/-- The words that may come second complete keywords. -/
def Completing (first : String) (seconds : List (String × Keyword)) : Prop :=
  first.toList ≠ [] ∧ (first.toList.map Char.toUpper).any Unicode.isBlank = false ∧
    ∀ entry ∈ seconds,
      spelling (first.toList ++ [' '] ++ entry.1.toList) = entry.2.text.toList

theorem gates_twoWords {first : String} {seconds : List (String × Keyword)}
    (hb : q.progress.inBody = true) (hfirst : isText k.value first = true)
    (hc : Completing first seconds) : Makes (q.Gates previous) k (q.twoWords seconds) := by
  intro t left e
  have e := get_bind_ok e
  obtain ⟨spaced, k₁, e₁, e⟩ := bind_ok e
  obtain ⟨gap, vs, r₁, rfl, hblank, hnil⟩ := iterate_ok (fun s _ r _ e => spaceTurn_ok s r e) e₁
  have e := get_bind_ok e
  obtain ⟨_, k₂, e₂, e⟩ := bind_ok e
  have r₂ := consumeWhile_ok (fun c h => not_isLineEnd_of_isAlphabetic h) e₂
  have hv₁ := r₁.value_append
  have hv₂ := r₂.value_append
  have hmore : k₂.value.drop k₁.value.length = k₁.ahead.takeWhile Unicode.isAlphabetic := by
    rw [hv₂, List.drop_left]
  have e := get_bind_ok e
  cases hfind : seconds.find? fun entry =>
      isText (k₂.value.drop k₁.value.length) entry.1 with
  | none =>
    rw [hfind] at e
    cases e
  | some entry =>
    rw [hfind] at e
    cases spaced with
    | false => cases e
    | true =>
      have hgap : vs ≠ [] := fun hn => Bool.noConfusion (hnil hn)
      have hsecond := List.find?_some hfind
      rw [hmore] at hsecond
      have hspelled : spelling k₂.value = entry.2.text.toList := by
        have hsolid : ∀ c ∈ first.toList.map Char.toUpper, Unicode.isBlank c = false :=
          fun c hm => by simpa using List.any_eq_false.1 hc.2.1 c hm
        rw [hv₂, hv₁, spelling_of_twoWords hfirst hsecond hgap hblank hc.1 hsolid]
        exact hc.2.2 entry (List.mem_of_find?_eq_some hfind)
      exact gates_keyword hb hspelled t left e

theorem gates_bareWord {word : List Char} (hb : q.progress.inBody = true)
    (hw : k.value = word) : Makes (q.Gates previous) k (q.bareWord word) := by
  have hfree : ∀ {kind : Kind}, isFree kind = true → Makes (q.Gates previous) k (emit kind) :=
    fun hk => makes_emit (gates_of_free hb hk)
  subst hw
  unfold bareWord
  split
  · exact hfree rfl
  · split
    · exact hfree rfl
    · split
      · exact gates_base
      · split
        · exact hfree rfl
        · split
          · exact gates_twoWords hb ‹_› ⟨by decide, by decide +kernel, by decide +kernel⟩
          · split
            · exact gates_twoWords hb ‹_› ⟨by decide, by decide +kernel, by decide +kernel⟩
            · split
              · exact gates_twoWords hb ‹_› ⟨by decide, by decide +kernel, by decide +kernel⟩
              · split
                · rename_i hword
                  exact gates_keyword hb (spelling_of_ofWord? hword)
                · exact makes_invalidForm _ _

theorem gates_name (hb : q.progress.inBody = true) : Makes (q.Gates previous) k q.name := by
  refine makes_bind fun _ _ => kinds_nameToken?.bind fun o k₁ ht => ?_
  split
  · have hfree : ∀ kind ∈ [Kind.anonymousNode, .blankNode, .prefixedName],
        isFree kind = true := by decide
    exact makes_pure (gates_of_free hb (hfree _ (ht _ rfl)))
  · exact makes_get (gates_bareWord hb rfl)

/-! ### Signs and numbers -/

theorem kinds_numberOrSign : Makes (OfKind [.plus, .minus, .plainLiteral]) k q.numberOrSign := by
  have hsettled : ∀ k : Cursor, Makes (OfKind [.plus, .minus, .plainLiteral]) k (do
      let k ← get
      if Number.isNumber q.level.allowsFinalDot k.value then emit .plainLiteral
      else invalidForm "Numeric Literal" k.text) := by
    intro k
    refine makes_get ?_
    split
    · exact kinds_emit (by decide)
    · exact makes_invalidForm _ _
  refine makes_get (makes_bind fun _ _ => makes_get ?_)
  split
  · exact kinds_emit (by decide)
  · split
    · exact kinds_emit (by decide)
    · unfold numericToken
      split
      · exact hsettled _
      · exact makes_bind fun _ _ => hsettled _

theorem kinds_oneOrTwo {second : Char} {double one : Kind} :
    Makes (OfKind [double, one]) k (oneOrTwo second double one) := by
  refine makes_bind fun _ _ => makes_bind fun _ _ => ?_
  split
  · exact makes_bind fun _ _ => kinds_emit (by simp)
  · exact kinds_emit (by simp)

theorem kinds_referenceOrLess :
    Makes (OfKind [.less, .lessOrEqual, .uri]) k referenceOrLess := by
  refine makes_bind fun _ _ => makes_bind fun c _ => ?_
  split
  · exact kinds_emitAs (by decide)
  · split
    · refine makes_bind fun _ _ => makes_bind fun _ _ => ?_
      split
      · exact kinds_emitAs (by decide)
      · exact makes_violation _
    · exact makes_bind fun _ _ => kinds_emit (by decide)

theorem kinds_hat : Makes (OfKind [.hatHat, .hat]) k (hat previous) := by
  refine makes_bind fun _ _ => makes_bind fun _ _ => ?_
  split
  · split
    · exact makes_bind fun _ _ => kinds_emit (by decide)
    · exact makes_violation _
  · exact kinds_emit (by decide)

theorem kinds_variableName {sign : Char} :
    Makes (OfKind [.question, .queryVariable]) k (variableName sign) := by
  refine makes_bind fun _ _ => makes_get ?_
  split
  · split
    · exact kinds_emitAs (by decide)
    · exact makes_unexpectedNext _
  · exact kinds_variableToken.mono fun _ ht => List.mem_cons_of_mem _ ht

theorem kinds_ampersand : Makes (OfKind [.conjunction]) k ampersand := by
  refine makes_bind fun _ _ => makes_bind fun _ _ => ?_
  split
  · exact makes_bind fun _ _ => kinds_emit (by decide)
  · exact makes_unexpectedNext _

theorem kinds_dotOrNumber :
    Makes (OfKind [.dot, .plus, .minus, .plainLiteral]) k (dotOrNumber q.numberOrSign) :=
  Scan.kinds_dotOrNumber fun _ => kinds_numberOrSign

/-! ### Prologue and body -/

theorem gates_prologueWord {word : List Char} (hp : q.progress.inBody = false)
    (hw : k.value = word) : Makes (q.Gates previous) k (q.prologueWord word) := by
  subst hw
  unfold prologueWord
  split
  · exact gates_base
  · split
    · exact makes_emit (gates_of_kind (rfl : _ = Kind.prefixDirective) (by decide) nofun nofun)
    · split
      · split
        · rename_i w hword hopens
          intro t left e
          obtain ⟨_, k₁, e₁, e⟩ := bind_ok e
          have havailable := available_of_checkLevel e₁
          rw [checkLevel_ok e₁] at e
          have hallows : q.Allows w := by
            unfold Allows
            rw [if_neg (by rw [hp]; exact nofun)]
            simpa using hopens
          exact gates_emitWord hallows havailable (spelling_of_ofWord? hword) t left e
        · exact makes_violation _
      · exact makes_violation _

theorem gates_prologue {c : Char} (hp : q.progress.inBody = false) :
    Makes (q.Gates previous) k (q.prologue previous c) := by
  unfold prologue
  split
  · have hcomment : ∀ t : Token, OfKind [.comment] t → q.Gates previous t := by
      intro t ht
      exact gates_of_kind (List.mem_singleton.1 ht) (by decide) nofun nofun
    exact kinds_comment.mono hcomment
  · split
    · split
      · rename_i hprevious
        have huri : ∀ t : Token, OfKind [.uri] t → q.Gates previous t := by
          intro t ht
          exact gates_of_kind (List.mem_singleton.1 ht) (by decide) nofun
            fun _ => by simpa using hprevious
        exact kinds_reference.mono huri
      · exact makes_unexpectedCharacter _ _
    · refine makes_bind fun _ _ => makes_get ?_
      split
      · exact makes_unexpectedCharacter _ _
      · exact gates_prologueWord hp rfl

theorem gates_body {c : Char} (hb : q.progress.inBody = true) :
    Makes (q.Gates previous) k (q.body previous c) := by
  have hsingle : ∀ {kind : Kind}, isFree kind = true →
      Makes (q.Gates previous) k (single kind) := fun hk =>
    gates_kinds hb kinds_single (by simpa using hk)
  have htwo : ∀ {second : Char} {double one : Kind}, isFree double = true → isFree one = true →
      Makes (q.Gates previous) k (oneOrTwo second double one) := fun hd ho =>
    gates_kinds hb kinds_oneOrTwo (by simp [hd, ho])
  have hnumber : Makes (q.Gates previous) k q.numberOrSign :=
    gates_kinds hb kinds_numberOrSign (by decide)
  unfold body
  split
  · exact gates_kinds hb kinds_comment (by decide)
  · exact gates_kinds hb kinds_referenceOrLess (by decide)
  · exact htwo rfl rfl
  · exact gates_kinds hb kinds_literal (by decide)
  · exact gates_kinds hb kinds_literal (by decide)
  · exact gates_kinds hb kinds_hat (by decide)
  · exact gates_kinds hb kinds_variableName (by decide)
  · exact gates_kinds hb kinds_variableName (by decide)
  · exact hsingle rfl
  · exact hsingle rfl
  · exact hsingle rfl
  · exact hsingle rfl
  · exact hsingle rfl
  · exact hsingle rfl
  · exact hsingle rfl
  · exact hsingle rfl
  · exact gates_kinds hb kinds_dotOrNumber (by decide)
  · refine hsingle ?_
    unfold starKind
    split <;> rfl
  · exact hsingle rfl
  · exact hsingle rfl
  · exact htwo rfl rfl
  · exact htwo rfl rfl
  · exact gates_kinds hb kinds_ampersand (by decide)
  · exact hnumber
  · exact hnumber
  · refine makes_bind fun _ _ => makes_bind fun _ _ => ?_
    split
    · exact makes_bind fun _ _ => makes_emit (gates_of_free hb rfl)
    · exact gates_name hb
  · exact gates_name hb
  · exact gates_name hb
  · split
    · exact gates_kinds hb kinds_languageTag (by decide)
    · split
      · exact hnumber
      · split
        · exact gates_name hb
        · exact makes_unexpectedCharacter _ _

theorem gates_prefixName : Makes (q.Gates previous) k prefixName := by
  refine kinds_prefixName.mono fun t ht => ?_
  exact gates_of_kind (List.mem_singleton.1 ht) (by decide) nofun nofun

/-- No sign of a datatype stands in the prologue. -/
theorem gates_datatype {rule : Name.Rule} :
    Makes (q.Gates (some .hatHat)) k (datatype rule) := by
  refine kinds_datatype.mono fun t ht => ?_
  rw [OfKind, List.mem_singleton] at ht
  refine ⟨fun _ hne => absurd rfl hne, fun hk => ?_, fun w hw => ?_⟩
  · rw [ht] at hk
    cases hk
  · rw [ht] at hw
    cases hw

/-- What the reader of queries makes is gated by what it remembers. -/
theorem gates_read : Makes (q.Gates previous) k (q.read previous) := by
  unfold read
  split
  · exact gates_prefixName
  · exact gates_datatype
  · have hending : ∀ span, q.Gates previous ⟨.ending, "", span⟩ := fun _ =>
      gates_of_kind (rfl : _ = Kind.ending) (by decide) nofun nofun
    refine makes_bind fun _ _ => makes_tokenHere hending fun c k => ?_
    split
    · rename_i hb
      exact gates_body hb
    · rename_i hp
      exact gates_prologue (Bool.eq_false_iff.2 hp)

end Sparql

/-! ## What is remembered -/

theorem Progress.inBody_after (p : Progress) (t : Token) :
    (p.after t).inBody = (p.inBody || t.kind.isWord) := by
  unfold after
  split
  · rename_i w hk
    rw [hk, Kind.isWord, Bool.or_true]
    unfold afterKeyword
    split
    · rfl
    · split <;> simp_all
  all_goals simp_all [Kind.isWord]

theorem Progress.hasBase_after (p : Progress) (t : Token) :
    (p.after t).hasBase = (p.hasBase || t.kind == .baseDirective) := by
  unfold after
  split
  · rename_i w hk
    rw [hk]
    unfold afterKeyword
    split
    · simp
    · split <;> simp
  all_goals simp_all

theorem hasWord_append (ts : List Token) (t : Token) :
    hasWord (ts ++ [t]) = (hasWord ts || t.kind.isWord) := by
  simp [hasWord]

theorem hasBase_append (ts : List Token) (t : Token) :
    hasBase (ts ++ [t]) = (hasBase ts || t.kind == .baseDirective) := by
  simp [hasBase]

/-- The reader remembers what the tokens so far have been. -/
structure Gating (level : Level) (ts : List Token) (l : Lexer) (q : Sparql) : Prop where
  machine : l.machine = .sparql q
  level : q.level = level
  inBody : q.progress.inBody = hasWord ts
  hasBase : q.progress.hasBase = hasBase ts
  previous : l.cursor.previous = Lexer.lastKind ts
  unsigned : hasWord ts = false → l.cursor.previous ≠ some .hatHat
  bases : ts.countP (fun t => t.kind == .baseDirective) ≤ 1

namespace Gating

variable {level : Level} {ts : List Token} {l l' : Lexer} {q : Sparql} {t : Token}

theorem gates (h : Gating level ts l q) (e : l.next = (.ok t, l')) :
    q.Gates l.cursor.previous t := by
  rcases step_cases (Lexer.next_ok e).1 with ⟨-, rfl, -⟩ | ⟨-, rfl, -⟩ | ⟨-, -, e⟩
  · exact Sparql.gates_of_kind (rfl : _ = Kind.beginning) (by decide) nofun nofun
  · exact Sparql.gates_of_kind (rfl : _ = Kind.ending) (by decide) nofun nofun
  · rw [h.machine] at e
    exact Sparql.gates_read t _ e

/-- The next token is gated. -/
theorem gated (h : Gating level ts l q) (e : l.next = (.ok t, l')) : Gated level ts t := by
  have hg := h.gates e
  have hprologue : hasWord ts = false → q.progress.inBody = false := fun hn => h.inBody.trans hn
  have hallows : ∀ w, t.kind = .keyword w → q.Allows w := fun w hw => (hg.word w hw).1
  constructor
  · intro hn hw
    exact (hg.prologue (hprologue hn) (h.unsigned hn) hw).1
  · intro hn hk
    rw [← h.previous]
    exact (hg.prologue (hprologue hn) (h.unsigned hn) (by rw [hk]; rfl)).2 hk
  · intro hn w hw
    have hopens := hallows w hw
    unfold Sparql.Allows at hopens
    rwa [if_neg (by rw [hprologue hn]; exact nofun)] at hopens
  · intro hn w hw
    have hcontinues := hallows w hw
    unfold Sparql.Allows at hcontinues
    rwa [if_pos (h.inBody.trans hn), h.level] at hcontinues
  · intro hk
    rw [← h.hasBase]
    exact hg.once hk
  · intro w hw
    rw [← h.level]
    exact (hg.word w hw).2.1
  · intro w hw
    exact (hg.word w hw).2.2

theorem next (h : Gating level ts l q) (e : l.next = (.ok t, l'))
    (hp : l'.cursor.previous = some t.kind) :
    Gating level (ts ++ [t]) l' { q with progress := q.progress.after t } := by
  have hgated := h.gated e
  constructor
  · rw [(Lexer.next_ok e).2, h.machine]
    rfl
  · exact h.level
  · rw [Progress.inBody_after, hasWord_append, h.inBody]
  · rw [Progress.hasBase_after, hasBase_append, h.hasBase]
  · rw [hp, Lexer.lastKind_append]
  · intro hn hhat
    rw [hasWord_append, Bool.or_eq_false_iff] at hn
    rw [hp] at hhat
    have hk := hgated.prologue hn.1 hn.2
    rw [Option.some.inj hhat] at hk
    exact absurd hk (by decide)
  · rw [List.countP_append, List.countP_singleton]
    split
    · rename_i hk
      have hnone := hgated.once (beq_iff_eq.1 hk)
      have hzero : ts.countP (fun t => t.kind == .baseDirective) = 0 :=
        List.countP_eq_zero.2 fun u hu => by simpa using List.any_eq_false.1 hnone u hu
      omega
    · exact h.bases

end Gating

end Query

/-! ## Runs -/

namespace Lexer

open Query Input

theorem reaches_gating {s : Settings} {source : Source} {ts : List Token} {l : Lexer}
    (hs : s.format = .sparql) (h : Reaches (ofSource s source) ts l) :
    ∃ q, Gating s.level ts l q := by
  induction h with
  | start =>
    refine ⟨⟨s.level, .initial⟩, ?_, rfl, rfl, rfl, rfl, fun _ => nofun, Nat.zero_le _⟩
    show Machine.ofSettings s = .sparql ⟨s.level, .initial⟩
    unfold Machine.ofSettings
    rw [hs]
  | next h e ih =>
    obtain ⟨q, hq⟩ := ih
    exact ⟨_, hq.next e (remembered e (reaches_remembers h).1.ended).1⟩

/-- Every token of a query is gated. Before the first keyword there are only comments
and declarations, with references where one is due; the first keyword opens a query
or an update, and no later one opens a query but `SELECT`, from SPARQL 1.1 on. A base
is declared at most once. Every keyword is known at the level and spelled as it. -/
theorem queries_gated (s : Settings) (source : Source) (ts : List Token) (l : Lexer)
    (hs : s.format = .sparql) (h : Reaches (ofSource s source) ts l) :
    (∀ before t behind, ts = before ++ t :: behind → Gated s.level before t) ∧
      ts.countP (fun t => t.kind == .baseDirective) ≤ 1 := by
  constructor
  · rintro before t behind rfl
    obtain ⟨l₁, h₁, h₂⟩ := h.of_append
    obtain ⟨l₂, e, -⟩ := h₂.of_cons
    obtain ⟨q, hq⟩ := reaches_gating hs h₁
    exact hq.gated e
  · obtain ⟨q, hq⟩ := reaches_gating hs h
    exact hq.bases

set_option maxRecDepth 8192 in
/-- A prologue with a comment, and a keyword of two words on two lines. -/
theorem queries_gated_prologue : ∃ ts l,
    Reaches (ofText ⟨.sparql, .sparql11, .recommendation⟩
      "#c\nBASE <b:>PREFIX a:<c:>\nselect * Order \n By a:b") ts l ∧
    ts.map Token.kind = [.beginning, .comment, .baseDirective, .uri, .prefixDirective,
      .prefixName, .uri, .keyword .select, .allColumns, .keyword .orderBy, .prefixedName, .ending] ∧
    (∀ before t behind, ts = before ++ t :: behind → Gated .sparql11 before t) ∧
    ts.countP (fun t => t.kind == .baseDirective) ≤ 1 := by
  have hrun : (ofText ⟨.sparql, .sparql11, .recommendation⟩
      "#c\nBASE <b:>PREFIX a:<c:>\nselect * Order \n By a:b").run = .ok
      [.beginning,
        ⟨.comment, "#c", ⟨1, 1, 1, 2⟩⟩,
        ⟨.baseDirective, "BASE", ⟨2, 2, 1, 4⟩⟩,
        ⟨.uri, "b:", ⟨2, 2, 6, 9⟩⟩,
        ⟨.prefixDirective, "PREFIX", ⟨2, 2, 10, 15⟩⟩,
        ⟨.prefixName, "a:", ⟨2, 2, 17, 18⟩⟩,
        ⟨.uri, "c:", ⟨2, 2, 19, 22⟩⟩,
        ⟨.keyword .select, "select", ⟨3, 3, 1, 6⟩⟩,
        ⟨.allColumns, "*", ⟨3, 3, 8, 8⟩⟩,
        ⟨.keyword .orderBy, "Order \n By", ⟨3, 4, 10, 3⟩⟩,
        ⟨.prefixedName, "a:b", ⟨4, 4, 5, 7⟩⟩,
        ⟨.ending, "", ⟨4, 4, 8, 8⟩⟩] := by rfl
  obtain ⟨l, h⟩ := reaches_of_run hrun
  exact ⟨_, l, h, rfl, queries_gated ⟨.sparql, .sparql11, .recommendation⟩ _ _ l rfl h⟩

end Lexer

end TripleLex

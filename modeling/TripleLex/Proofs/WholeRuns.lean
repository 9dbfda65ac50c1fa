import TripleLex.Proofs.InStep
import TripleLex.Proofs.Succeeds

/-!
# Runs piece by piece

A text is laid out of pieces, each of which is read as one token. A machine gives
a token for a piece behind a token of some kind (`Machine.Gives`); what is behind
the last piece is passed over. From the end of the text on, the pieces add up to a
whole run with known tokens (`Machine.Runs`).

Most tokens are begun by their first character, once a gap has been passed over,
unless the token before asks for one of its own (`Turtle.read_eq` and its like);
`Machine.Dispatches` reduces these to what reads the token from there.

## Main results

* `Scan.Succeeds.brings`, `Scan.brings_emit` — how a token is made.
* `Machine.Dispatches.gives` — a token behind a gap.
* `Machine.Gives.cons`, `Machine.Dispatches.runs` — a run is put together.
* `Machine.Gives.alone` — the run of a single piece.
* `Machine.Runs.run_ofText` — the run over a text.
-/

namespace TripleLex

open Scan

/-! ## Where a token is begun by its first character -/

section Reading

variable {kind : Kind}

theorem Graph.LineFormat.read_eq {format : Graph.LineFormat} (hhat : kind ≠ .hatHat) :
    format.read (some kind) = (do discardBlank; tokenHere (format.dispatch (some kind))) := by
  unfold Graph.LineFormat.read
  split
  · rename_i h
    exact absurd (Option.some.inj h) hhat
  · rfl

theorem Graph.Turtle.read_eq {turtle : Graph.Turtle} (hhat : kind ≠ .hatHat)
    (hdirective : kind ≠ .prefixDirective) : turtle.read (some kind) =
    (do discardBlank; tokenHere (turtle.dispatch (some kind))) := by
  unfold Graph.Turtle.read
  split
  · rename_i h
    exact absurd (Option.some.inj h) hdirective
  · rename_i h
    exact absurd (Option.some.inj h) hhat
  · rfl

theorem Graph.Notation3.read_eq {v : Graph.Vocabulary} (hv : v.isReading = false)
    (hhat : kind ≠ .hatHat) (hdirective : kind ≠ .prefixDirective) :
    Graph.Notation3.read v (some kind) =
      (do discardBlank; tokenHere (Graph.Notation3.dispatch v (some kind))) := by
  unfold Graph.Notation3.read
  rw [if_neg (by rw [hv]; decide)]
  split
  · rename_i h
    exact absurd (Option.some.inj h) hdirective
  · rename_i h
    exact absurd (Option.some.inj h) hhat
  · rfl

theorem Query.Sparql.read_eq {q : Query.Sparql} (hhat : kind ≠ .hatHat)
    (hdirective : kind ≠ .prefixDirective) : q.read (some kind) = (do
      discardBlank
      tokenHere fun c =>
        if q.progress.inBody then q.body (some kind) c else q.prologue (some kind) c) := by
  unfold Query.Sparql.read
  split
  · rename_i h
    exact absurd (Option.some.inj h) hdirective
  · rename_i h
    exact absurd (Option.some.inj h) hhat
  · rfl

theorem Table.Tsv.read_eq (hhat : kind ≠ .hatHat) : Table.Tsv.read (some kind) =
    (do Table.Tsv.discardSpaces; tokenHere (Table.Tsv.dispatch (some kind))) := by
  unfold Table.Tsv.read
  split
  · rename_i h
    exact absurd (Option.some.inj h) hhat
  · rfl

end Reading

namespace Scan

open Cursor (Reads Clear Begun)

/-! ## Making a token -/

/-- The scan makes a token with this content, and leaves what follows. -/
def Brings (m : Scan Token) (k : Cursor) (rest : List Char) (said : Kind × String) : Prop :=
  ∃ t left, m k = .ok t left ∧ t.content = said ∧ left.Stands said.1 rest

section Making

variable {α : Type} {k mid : Cursor} {cs ws rest : List Char} {said : Kind × String}

/-- What is read first is part of the token. -/
theorem Succeeds.brings {m : Scan α} {f : α → Scan Token} {a : α} (h : Succeeds m k cs ws a)
    (hc : k.Clear) (g : ∀ mid, k.Reads cs ws mid → mid.Clear → Brings (f a) mid rest said) :
    Brings (m >>= f) k rest said := by
  obtain ⟨mid, e, r, hclear⟩ := h
  obtain ⟨t, left, e', ht, hs⟩ := g mid r (hclear hc)
  exact ⟨t, left, (bind_eq e).trans e', ht, hs⟩

/-- The token is made of what has been read since it was begun. -/
theorem brings_emit (kind : Kind) (hb : k.Begun) (r : k.Reads cs ws mid) (hc : mid.Clear)
    (hk : k.ahead = cs ++ rest) : Brings (emit kind) mid rest (kind, String.ofList ws) :=
  emit_stands kind hb r hc hk

/-- The token has a text of its own. -/
theorem brings_emitAs (kind : Kind) (text : String) (r : k.Reads cs ws mid) (hc : mid.Clear)
    (hk : k.ahead = cs ++ rest) : Brings (emitAs kind text) mid rest (kind, text) :=
  ⟨⟨kind, text, mid.span⟩, { mid with previous := some kind }, rfl, rfl, rfl, r.rest_eq hk,
    hc.of_eq rfl rfl⟩

/-- A token of one character. -/
theorem brings_single (kind : Kind) {c : Char} (hb : k.Begun) (hc : k.Clear)
    (hl : Unicode.isLineEnd c = false) (hk : k.ahead = c :: rest) :
    Brings (single kind) k rest (kind, String.ofList [c]) :=
  (succeeds_consume (by rw [hk]; rfl) hl).brings hc fun _ r hmid => brings_emit kind hb r hmid hk

end Making

/-! ## Gaps -/

/-- Behind the gap a token is begun. -/
def PassesOver (discard : Scan Unit) (gap : List Char) : Prop :=
  ∀ (k : Cursor) (kind : Kind) (rest : List Char), k.Stands kind (gap ++ rest) →
    (∀ c, rest.head? = some c → Unicode.isBlank c = false) →
    ∃ left, discard k = .ok () left ∧ left.Begun ∧ left.Stands kind rest

theorem passesOver_blank {gap : List Char} (h : ∀ c ∈ gap, Unicode.isBlank c = true) :
    PassesOver discardBlank gap := by
  intro k kind rest hk hrest
  obtain ⟨left, e, ha, hb, hp, hwhole, hpending⟩ := discardBlank_whole hk.clear.whole
  rw [hk.ahead, dropWhile_blank h hrest] at ha
  exact ⟨left, e, hb, hp.trans hk.previous, ha, hpending (by rw [hk.clear.pending]; rfl), hwhole⟩

end Scan

namespace Machine

open Scan

variable {m : Machine} {kind : Kind} {dispatch : Char → Scan Token} {gap cs rest : List Char}
  {said : Kind × String} {more : List (Kind × String)}

/-! ## Pieces -/

/-- Where the characters come next behind a token of a kind, they are read as a
token with this content, and the rest is left. -/
def Gives (m : Machine) (kind : Kind) (cs rest : List Char) (said : Kind × String) : Prop :=
  ∀ k : Cursor, k.Begun → k.Stands kind (cs ++ rest) → Brings (m.read (some kind)) k rest said

/-- Behind a token of a kind a gap is passed over, and the next token is read by
its first character. -/
def Dispatches (m : Machine) (kind : Kind) (gap : List Char) (dispatch : Char → Scan Token) :
    Prop :=
  ∃ discard, m.read (some kind) = (discard >>= fun _ => tokenHere dispatch) ∧
    PassesOver discard gap

theorem dispatches_blank (hread : m.read (some kind) = discardBlank >>= fun _ => tokenHere dispatch)
    (hgap : ∀ c ∈ gap, Unicode.isBlank c = true) : m.Dispatches kind gap dispatch :=
  ⟨discardBlank, hread, passesOver_blank hgap⟩

theorem Dispatches.gives {c : Char} (hm : m.Dispatches kind gap dispatch)
    (hc : Unicode.isBlank c = false)
    (h : ∀ k : Cursor, k.Begun → k.Stands kind (c :: cs ++ rest) →
      Brings (dispatch c) k rest said) :
    m.Gives kind (gap ++ c :: cs) rest said := by
  obtain ⟨discard, hread, hgap⟩ := hm
  intro k _ hk
  rw [List.append_assoc] at hk
  obtain ⟨mid, e, hb, hmid⟩ := hgap k kind _ hk (by rintro d ⟨⟩; exact hc)
  obtain ⟨t, left, e', ht, hs⟩ := h mid hb hmid
  refine ⟨t, left, ?_, ht, hs⟩
  rw [hread, bind_eq e, tokenHere, look_bind_whole hmid.clear.whole, hmid.ahead]
  exact e'

/-! ## Runs -/

/-- From behind a token of a kind, the rest of the tokens has these contents. -/
def Runs (m : Machine) (kind : Kind) (cs : List Char) (said : List (Kind × String)) : Prop :=
  ∀ l : Lexer, l.machine = m → l.cursor.Stands kind cs →
    ∃ ts, l.run = .ok ts ∧ ts.map Token.content = said

/-- Where the token after all text is made, the run ends. -/
theorem runs_of_ending (hkind : kind ≠ .ending)
    (h : ∀ k : Cursor, k.Begun → k.Stands kind cs →
      ∃ t left, m.read (some kind) k = .ok t left ∧ t.content = (.ending, "")) :
    m.Runs kind cs [(.ending, "")] := by
  intro l hm hs
  obtain ⟨t, left, e, ht⟩ := h l.cursor.fresh (Cursor.begun_fresh _) hs.fresh
  have hnext := Lexer.next_of_read hs.previous hkind (by rw [hm]; exact e)
  exact ⟨[t], Lexer.run_of_ending hnext (congrArg Prod.fst ht), by rw [List.map_singleton, ht]⟩

/-- Behind the last piece a gap may follow. -/
theorem Dispatches.runs (hm : m.Dispatches kind gap dispatch) (hkind : kind ≠ .ending) :
    m.Runs kind gap [(.ending, "")] := by
  obtain ⟨discard, hread, hgap⟩ := hm
  refine runs_of_ending hkind fun k _ hk => ?_
  rw [← List.append_nil gap] at hk
  obtain ⟨mid, e, hb, hmid⟩ := hgap k kind [] hk nofun
  obtain ⟨t, left, e', ht⟩ := ending_succeeds "Token" hb hmid.clear
  refine ⟨t, left, ?_, ht⟩
  rw [hread, bind_eq e, tokenHere, look_bind_whole hmid.clear.whole, hmid.ahead]
  exact e'

/-- The next call reads the piece. -/
theorem Gives.next (h : m.Gives kind cs rest said) (hkind : kind ≠ .ending) {l : Lexer}
    (hm : l.machine = m) (hs : l.cursor.Stands kind (cs ++ rest)) :
    ∃ t left, l.next = (.ok t, ⟨m.after t, left⟩) ∧ t.content = said ∧ left.Stands said.1 rest := by
  obtain ⟨t, left, e, ht, hleft⟩ := h l.cursor.fresh (Cursor.begun_fresh _) hs.fresh
  refine ⟨t, left, ?_, ht, hleft⟩
  rw [Lexer.next_of_read hs.previous hkind (by rw [hm]; exact e), hm]

/-- A piece is laid before what is read behind it. -/
theorem Gives.cons (h : m.Gives kind cs rest said) (hkind : kind ≠ .ending)
    (hne : said.1 ≠ .ending)
    (hr : ∀ t : Token, t.content = said → (m.after t).Runs said.1 rest more) :
    m.Runs kind (cs ++ rest) (said :: more) := by
  intro l hm hs
  obtain ⟨t, left, hnext, ht, hleft⟩ := h.next hkind hm hs
  obtain ⟨ts, hts, hsaid⟩ := hr t ht ⟨m.after t, left⟩ rfl hleft
  have htkind : t.kind ≠ .ending := by
    rw [← ht] at hne
    exact hne
  exact ⟨t :: ts, Lexer.run_of_next hnext htkind hts, by rw [List.map_cons, ht, hsaid]⟩

/-- A piece stands alone where the text may end behind its token. -/
theorem Gives.alone (h : m.Gives kind cs [] said) (hkind : kind ≠ .ending)
    (hne : said.1 ≠ .ending) (hends : ∀ t : Token, t.kind = said.1 →
      ∃ dispatch', (m.after t).Dispatches t.kind [] dispatch') :
    m.Runs kind cs [said, (.ending, "")] := by
  rw [← List.append_nil cs]
  refine h.cons hkind hne fun t ht => ?_
  have htkind : t.kind = said.1 := congrArg Prod.fst ht
  obtain ⟨dispatch', hend⟩ := hends t htkind
  rw [← htkind] at hne ⊢
  exact hend.runs hne

/-- The first call on a text leaves all of it to be read. -/
theorem next_ofText (settings : Settings) (text : String) :
    ∃ k, (Lexer.ofText settings text).next = (.ok .beginning, ⟨ofSettings settings, k⟩) ∧
      k.Stands .beginning text.toList := by
  let l := Lexer.ofText settings text
  have hafter : l.machine.after .beginning = ofSettings settings := by
    obtain ⟨format, level, dialect⟩ := settings
    cases format <;> rfl
  refine ⟨{ l.cursor with previous := some .beginning }, ?_, rfl, rfl, rfl, rfl, rfl⟩
  rw [← hafter]
  exact Lexer.next_beginning rfl

/-- A text is read from its beginning. -/
theorem Runs.run_ofText {settings : Settings} {said : List (Kind × String)}
    (h : (ofSettings settings).Runs .beginning cs said) :
    ∃ ts, (Lexer.ofText settings (String.ofList cs)).run = .ok ts ∧
      ts.map Token.content = (.beginning, "") :: said := by
  obtain ⟨k, hnext, hstands⟩ := next_ofText settings (String.ofList cs)
  rw [String.toList_ofList] at hstands
  obtain ⟨ts, hts, hsaid⟩ := h ⟨ofSettings settings, k⟩ rfl hstands
  refine ⟨.beginning :: ts, Lexer.run_of_next hnext nofun hts, ?_⟩
  rw [List.map_cons, hsaid]
  rfl

end Machine

end TripleLex

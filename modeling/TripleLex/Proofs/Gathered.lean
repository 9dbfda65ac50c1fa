import TripleLex.Graph.Notation3
import TripleLex.Proofs.Pieces
import TripleLex.Query.Sparql

/-!
# Gathered words

Names, prefixes, numbers and the blank characters between two words are gathered
first and judged afterwards. What is gathered stays within a line and is kept as
it is written, except for the escapes of names. A dot at the end of a name or a
number is given back (`Settles`).

What a token has come to, dot given back or not, is `Cursor.Held`: everything
that making the token needs to know. After a dot was given back, what is ahead
may differ in its first character from the text that was read, since the dot may
have come out of an escape (`Alike`); no line end is involved.

## Main results

* `gatherName_ok`, `numberTurn_ok`, `numericTurn_ok` — what gathering reads and
  writes.
* `Cursor.Settles.held`, `Cursor.held_of_reads` — what a token has come to.
-/

namespace TripleLex

namespace Cursor

/-! ## What a token has come to -/

/-- A cursor that gave back the dot it had read last, or did not. -/
inductive Settles (mid : Cursor) : Cursor → Prop
  | stays : Settles mid mid
  | gives (w : List Char) (hp : mid.pending = none)
      (hw : mid.written = '.' :: w) :
      Settles mid (mid.givenBack '.' w)

/-- The same characters, but that a dot may stand for the first one if that ends
no line. -/
inductive Alike : List Char → List Char → Prop
  | same (cs : List Char) : Alike cs cs
  | dot {c : Char} (hc : Unicode.isLineEnd c = false) (cs : List Char) : Alike
      (c :: cs) ('.' :: cs)

/-- At the start of a token. -/
structure Begun (k : Cursor) : Prop where
  written : k.written = []
  start : k.start = k.here

/-- The token begun at `k` has the text `ws` for the characters `cs`. -/
structure Held (k : Cursor) (cs ws : List Char) (left : Cursor) : Prop where
  nonempty : cs ≠ []
  ahead : ∃ rest, k.ahead = cs ++ rest ∧ Alike rest left.ahead
  exact : '\\' ∉ k.ahead → k.ahead = cs ++ left.ahead
  written : left.written = ws.reverse
  start : left.start = k.here
  here : left.here = (k.trail.along cs).here
  apart : (k.trail.along cs).Apart left.ahead
  within : 1 ≤ k.here.column →
    k.here.atMost left.last = true ∧ left.last.before left.here = true

theorem begun_fresh (k : Cursor) : k.fresh.Begun := ⟨rfl, rfl⟩

theorem Reads.head?_eq {k left : Cursor} {c : Char} {cs ws : List Char}
    (h : k.Reads (c :: cs) ws left) : k.ahead.head? = some c := by
  rw [h.ahead]
  rfl

theorem held_of_reads {k left : Cursor} {cs ws : List Char} (hb : k.Begun)
    (h : k.Reads cs ws left) (hne : cs ≠ []) : k.Held cs ws left where
  nonempty := hne
  ahead := ⟨left.ahead, h.ahead, Alike.same _⟩
  exact _ := h.ahead
  written := by rw [h.written, hb.written, List.append_nil]
  start := h.start.trans hb.start
  here := h.here
  apart := h.apart
  within _ := by
    rw [h.here, h.last]
    exact Trail.along_ordered (r := k.trail) (Trail.apart_of_partner rfl _) hne

/-- The text without the dot that is given back. -/
theorem Reads.written_dot {k mid : Cursor} {cs ws w : List Char} (hb : k.Begun)
    (h : k.Reads cs ws mid) (hw : mid.written = '.' :: w) :
    ws = w.reverse ++ ['.'] := by
  have hr : ws.reverse = '.' :: w := by rw [← hw, h.written, hb.written,
    List.append_nil]
  rw [← List.reverse_reverse ws, hr, List.reverse_cons]

/-- More than the dot was read, unless the token begins with it and has no other
text. -/
theorem two_le_of_dot {k mid : Cursor} {cs ws w : List Char} (hb : k.Begun)
    (h : k.Reads cs ws mid) (hr : Renders cs ws) (hw : mid.written = '.' :: w)
    (hdot : k.ahead.head? = some '.' → w ≠ []) : 2 ≤ cs.length := by
  by_cases hl : cs.length ≤ 1
  · have hcs : cs = w.reverse ++ ['.'] := by rw [← hr.short hl,
      h.written_dot hb hw]
    have hw' : w = [] := by
      rw [hcs, List.length_append, List.length_reverse,
        List.length_singleton] at hl
      exact List.length_eq_zero_iff.1 (by omega)
    rw [hw'] at hcs hdot
    rw [hcs] at h
    exact absurd rfl (hdot h.head?_eq)
  · omega

/-- Where a token ends whose dot was given back: one column before the present
place. -/
theorem givenBack_within {k mid : Cursor} {cs w : List Char}
    (hl : 2 ≤ cs.length)
    (hlast : mid.last = ⟨k.here.line, k.here.column + (cs.length - 1)⟩)
    (hstart : mid.start = k.here) (hcol : 1 ≤ k.here.column) :
    k.here.atMost (mid.givenBack '.' w).last = true ∧
      (mid.givenBack '.' w).last.before (mid.givenBack '.' w).here = true := by
  have hhere : (mid.givenBack '.' w).here = mid.last := rfl
  have hcase : (mid.givenBack '.' w).last = k.here ∨
      (mid.givenBack '.' w).last = ⟨mid.last.line, mid.last.column - 1⟩ := by
    unfold givenBack
    dsimp only
    split
    · exact Or.inl hstart
    · rw [if_pos (by rw [hlast]; show k.here.column + (cs.length - 1) > 1; omega)]
      exact Or.inr rfl
  rw [hhere, Position.atMost_iff, Position.before_iff]
  rcases hcase with hcase | hcase
  · rw [hcase, hlast]
    dsimp only
    omega
  · rw [hcase, hlast]
    dsimp only
    omega

/-- What a gathered word has come to once its dot was given back, if it had one
at its end. -/
theorem Settles.held {k mid left : Cursor} {cs ws : List Char} (hb : k.Begun)
    (h : k.Reads cs ws mid) (hi : Inline cs) (hr : Renders cs ws)
    (hs : Settles mid left) (hne : cs ≠ [])
    (hdot : k.ahead.head? = some '.' → left.written ≠ []) :
    ∃ ds vs, k.Held ds vs left ∧ ('\\' ∉ k.ahead → vs = ds) ∧
      (k.Reads ds vs left ∨ left.ahead.head? = some '.') := by
  have hplain : '\\' ∉ k.ahead → ws = cs := by
    intro hn
    rw [h.ahead, List.mem_append, not_or] at hn
    exact hr.plain hn.1
  cases hs with
  | stays => exact ⟨cs, ws, held_of_reads hb h hne, hplain, Or.inl h⟩
  | gives w hp hw =>
    have hws : ws = w.reverse ++ ['.'] := h.written_dot hb hw
    have hl : 2 ≤ cs.length := two_le_of_dot hb h hr hw hdot
    have hcs : cs = cs.dropLast ++ [cs.getLast hne] :=
      (List.dropLast_concat_getLast hne).symm
    have hld : cs.dropLast.length = cs.length - 1 := List.length_dropLast
    have hld' : Inline cs.dropLast := by
      intro c hc
      exact hi c ((List.dropLast_sublist cs).subset hc)
    have hahead := ahead_givenBack hp '.' w
    have hlast : mid.last = (k.trail.along cs.dropLast).here := by
      rw [h.last]
      exact Trail.last_along_inline hi rfl hne
    have hplace :
        mid.last = ⟨k.here.line, k.here.column + (cs.length - 1)⟩ := by
      rw [hlast, Trail.here_along_inline hld' rfl, hld]
      rfl
    have hplain' : '\\' ∉ k.ahead →
        w.reverse = cs.dropLast ∧ cs.getLast hne = '.' := by
      intro hn
      have he : w.reverse ++ ['.'] = cs.dropLast ++ [cs.getLast hne] := by
        rw [← hws, hplain hn, ← hcs]
      have hboth := List.append_inj' he rfl
      exact ⟨hboth.1, (List.singleton_inj.1 hboth.2).symm⟩
    have hk : k.ahead = cs.dropLast ++ cs.getLast hne :: mid.ahead := by
      rw [h.ahead, List.append_cons, ← hcs]
    refine ⟨cs.dropLast, w.reverse, ?_, fun hn => (hplain' hn).1,
      Or.inr (by rw [hahead]; rfl)⟩
    constructor
    · intro hnil
      rw [hnil, List.length_nil] at hld
      omega
    · refine ⟨_, hk, ?_⟩
      rw [hahead]
      exact Alike.dot (hi _ (List.getLast_mem hne)) _
    · intro hn
      rw [hk, (hplain' hn).2, hahead]
    · exact (List.reverse_reverse w).symm
    · exact h.start.trans hb.start
    · exact hlast
    · exact Trail.apart_of_partner (Trail.partner_along_inline hld' rfl) _
    · exact givenBack_within hl hplace (h.start.trans hb.start)

end Cursor

namespace Scan

open Cursor (Reads Settles)

/-! ## Giving back -/

/-- A character can be given back if none was before. -/
theorem exists_of_backtrack {k left : Cursor} {u : Unit} (e : backtrack k = .ok u left) :
    ∃ c w, k.pending = none ∧ k.written = c :: w ∧ left = k.givenBack c w := by
  have e := get_bind_ok e
  cases hp : k.pending with
  | some c =>
    simp only [hp] at e
    cases e
  | none =>
    cases hw : k.written with
    | nil =>
      simp only [hp, hw] at e
      cases e
    | cons c w =>
      simp only [hp, hw] at e
      cases e
      exact ⟨c, w, rfl, rfl, rfl⟩

theorem backtrack_ok {k left : Cursor} {u : Unit} (hd : k.endsWith '.' = true)
    (e : backtrack k = .ok u left) : Settles k left := by
  obtain ⟨c, w, hp, hw, rfl⟩ := exists_of_backtrack e
  simp only [Cursor.endsWith, hw, List.head?_cons, beq_iff_eq, Option.some.injEq] at hd
  rw [hd] at hw ⊢
  exact Settles.gives w hp hw

theorem giveBackDot_ok {k left : Cursor} {u : Unit}
    (e : giveBackDot k = .ok u left) :
    Settles k left := by
  have e := get_bind_ok e
  split at e
  · rename_i hd
    exact backtrack_ok hd e
  · cases e
    exact Settles.stays

/-! ## Names -/

/-- What a gathered name is, and that the next character could not have come
into it. -/
structure NameGathered (cs ws : List Char) (left : Cursor) : Prop where
  inline : Inline cs
  renders : Renders cs ws
  stops : ∀ c, left.ahead.head? = some c → c ≠ '\\' ∧ (Name.isScanned c = true →
    c = '.')

theorem NameGathered.append {cs ws ds vs : List Char} {left : Cursor}
    (hi : Inline cs) (hr : Renders cs ws) (h : NameGathered ds vs left) :
    NameGathered (cs ++ ds) (ws ++ vs) left :=
  ⟨hi.append h.inline, hr.append h.renders, h.stops⟩

theorem nameTurn_ok {k left : Cursor} {rule : Name.Rule} {allowDot : Bool}
    (seen : Bool) (r : Turn Bool Unit)
    (e : nameTurn rule allowDot seen k = .ok r left) :
    ∃ cs ws, k.Reads cs ws left ∧
      r.HandsOn (fun _ _ left cs ws => NameGathered cs ws left) seen cs ws left := by
  rcases look_bind_ok e with ⟨k₁, r₁, hk, e⟩ | ⟨c, k₁, r₁, hc, e⟩
  · cases e
    exact ⟨[], [], r₁, inline_nil, Renders.same _, by simp [hk]⟩
  · dsimp only at e
    split at e
    · rename_i hesc
      have hcl : Unicode.isLineEnd c = false := by
        simp only [Bool.and_eq_true, Bool.or_eq_true, beq_iff_eq] at hesc
        rcases hesc.1 with rfl | rfl <;> decide
      obtain ⟨_, k₂, e₂, e⟩ := bind_ok e
      obtain ⟨cs, r₂, hi⟩ := readLocalEscape_ok hc hcl e₂
      cases e
      exact ⟨cs, cs, r₁.trans r₂,
        fun _ _ _ _ => NameGathered.append hi (Renders.same _)⟩
    · split at e
      · rename_i hb
        rw [beq_iff_eq] at hb
        rw [hb] at hc
        obtain ⟨_, k₂, e₂, e⟩ := bind_ok e
        obtain ⟨cs, ws, r₂, hi, hr⟩ := decodeEscape_ok hc e₂
        cases e
        exact ⟨cs, ws, r₁.trans r₂, fun _ _ _ _ => NameGathered.append hi hr⟩
      · rename_i hb
        rw [beq_iff_eq] at hb
        split at e
        · rename_i hdot
          simp only [Bool.and_eq_true, beq_iff_eq] at hdot
          cases e
          refine ⟨[], [], r₁, inline_nil, Renders.same _, ?_⟩
          intro d hd
          rw [hc] at hd
          cases hd
          exact ⟨hb, fun _ => hdot.1⟩
        · split at e
          · rename_i hs
            have hcl : Unicode.isLineEnd c = false :=
              not_isLineEnd_of_isScanned hs
            obtain ⟨_, k₂, e₂, e⟩ := bind_ok e
            obtain ⟨-, r₂⟩ := consume_ok hc hcl e₂
            cases e
            exact ⟨[c], [c], r₁.trans r₂,
              fun _ _ _ _ => NameGathered.append (inline_singleton hcl)
                (Renders.same _)⟩
          · rename_i hs
            cases e
            refine ⟨[], [], r₁, inline_nil, Renders.same _, ?_⟩
            intro d hd
            rw [hc] at hd
            cases hd
            exact ⟨hb, fun hs' => absurd hs' hs⟩

/-- The dot at the end of a gathered name is given back if no backslash protects
it. -/
theorem gatherName_settles {k left : Cursor} {rule : Name.Rule} {allowDot : Bool}
    {u : Unit} (e : gatherName rule allowDot k = .ok u left) :
    ∃ mid, iterate (nameTurn rule allowDot) (advances_nameTurn rule allowDot) false k =
      .ok () mid ∧ Settles mid left := by
  obtain ⟨_, mid, e₁, e⟩ := bind_ok e
  refine ⟨mid, e₁, ?_⟩
  have e := get_bind_ok e
  split at e
  · rename_i hd
    refine backtrack_ok ?_ e
    unfold endsInBareDot at hd
    split at hd <;> simp_all [Cursor.endsWith]
  · cases e
    exact Settles.stays

theorem gatherName_ok {k left : Cursor} {rule : Name.Rule} {allowDot : Bool}
    {u : Unit} (e : gatherName rule allowDot k = .ok u left) :
    ∃ mid cs ws, k.Reads cs ws mid ∧
      NameGathered cs ws mid ∧ Settles mid left := by
  obtain ⟨mid, e₁, hs⟩ := gatherName_settles e
  obtain ⟨cs, ws, r, hg⟩ := iterate_ok (fun s _ r _ e => nameTurn_ok s r e) e₁
  exact ⟨mid, cs, ws, r, hg, hs⟩

/-- Whether a name may begin with the character. -/
def leadsName (c : Char) : Bool := c == '\\' || (Name.isScanned c && c != '.')

theorem leadsName_ascii {c : Char} (h : c.toNat < 0x80) : leadsName c = (c == '\\' ||
    (c.isAlphanum || Name.isInner c || c == ':' || c == '.') && c != '.') := by
  rw [leadsName, Name.isScanned_ascii h]

theorem gatherName_nonempty {k mid : Cursor} {c : Char} {cs ws : List Char}
    (hc : k.ahead.head? = some c) (hl : leadsName c = true)
    (r : k.Reads cs ws mid) (hg : NameGathered cs ws mid) : cs ≠ [] := by
  intro hnil
  rw [hnil] at r
  rw [← r.ahead_eq] at hc
  have hs := hg.stops c hc
  simp only [leadsName, Bool.or_eq_true, beq_iff_eq, Bool.and_eq_true,
    bne_iff_ne, ne_eq] at hl
  rcases hl with hl | hl
  · exact hs.1 hl
  · exact hl.2 (hs.2 hl.1)

/-! ## Characters kept as they are -/

/-- A text within a line that is written as it is read. -/
def Kept (cs ws : List Char) : Prop := ws = cs ∧ Inline cs

theorem Kept.append {cs ws ds vs : List Char} (h : Kept cs ws)
    (h' : Kept ds vs) :
    Kept (cs ++ ds) (ws ++ vs) :=
  ⟨by rw [h.1, h'.1], h.2.append h'.2⟩

theorem kept_nil : Kept [] [] := ⟨rfl, inline_nil⟩

theorem kept_singleton {c : Char} (h : Unicode.isLineEnd c = false) :
    Kept [c] [c] :=
  ⟨rfl, inline_singleton h⟩

theorem prefixTurn_ok {k left : Cursor} (s : Unit) (r : Turn Unit Unit)
    (e : prefixTurn s k = .ok r left) :
    ∃ cs ws, k.Reads cs ws left ∧
    r.HandsOn (fun _ _ _ => Kept) s cs ws left := by
  rcases look_bind_ok e with ⟨k₁, r₁, hk, e⟩ | ⟨c, k₁, r₁, hc, e⟩
  · exact absurd e unexpectedEnd_ne_ok
  · dsimp only at e
    split at e
    · cases e
      exact ⟨[], [], r₁, kept_nil⟩
    · rename_i hb
      have hcl : Unicode.isLineEnd c = false := by
        rw [Bool.eq_false_iff]
        intro hl
        rw [Unicode.isBlank_of_isLineEnd hl] at hb
        exact hb rfl
      obtain ⟨_, k₂, e₂, e⟩ := bind_ok e
      obtain ⟨-, r₂⟩ := consume_ok hc hcl e₂
      refine ⟨[c], [c], ?_⟩
      split at e
      · cases e
        exact ⟨r₁.trans r₂, kept_singleton hcl⟩
      · cases e
        exact ⟨r₁.trans r₂, fun _ _ _ _ => Kept.append (kept_singleton hcl)⟩

theorem consumeAnd_ok {σ α : Type} {k left : Cursor} {next : σ} {r : Turn σ α}
    {c : Char} (hc : k.ahead.head? = some c) (hcl : Unicode.isLineEnd c = false)
    (e : consumeAnd next k = .ok r left) :
    r = .again next ∧ k.Reads [c] [c] left := by
  obtain ⟨_, k₁, e₁, e⟩ := bind_ok e
  obtain ⟨-, r₁⟩ := consume_ok hc hcl e₁
  cases e
  exact ⟨rfl, r₁⟩

/-- A turn that takes a character and goes on keeps it. -/
theorem consumeAnd_handsOn {σ α : Type} {k mid left : Cursor} {s next : σ}
    {r : Turn σ α} {c : Char} (r₁ : k.Reads [] [] mid)
    (hc : mid.ahead.head? = some c) (hcl : Unicode.isLineEnd c = false)
    (e : consumeAnd next mid = .ok r left) :
    ∃ cs ws, k.Reads cs ws left ∧
    r.HandsOn (fun _ _ _ => Kept) s cs ws left := by
  obtain ⟨rfl, r₂⟩ := consumeAnd_ok hc hcl e
  exact ⟨[c], [c], r₁.trans r₂, fun _ _ _ _ => Kept.append (kept_singleton hcl)⟩

theorem not_isLineEnd_of_isSign {c : Char} (h : (c == '+' || c == '-') = true) :
    Unicode.isLineEnd c = false :=
  not_isLineEnd_of (p := fun c => c == '+' || c == '-') (by decide) (by decide) h

theorem not_isLineEnd_of_isExponentMark {c : Char}
    (h : Number.isExponentMark c = true) :
    Unicode.isLineEnd c = false := not_isLineEnd_of (by decide) (by decide) h

theorem numberTurn_ok {k left : Cursor} (s : NumberSoFar)
    (r : Turn NumberSoFar Unit) (e : numberTurn s k = .ok r left) :
    ∃ cs ws, k.Reads cs ws left ∧
    r.HandsOn (fun _ _ _ => Kept) s cs ws left := by
  rcases look_bind_ok e with ⟨k₁, r₁, hk, e⟩ | ⟨c, k₁, r₁, hc, e⟩
  · cases e
    exact ⟨[], [], r₁, kept_nil⟩
  · dsimp only at e
    split at e
    · rename_i hd
      exact consumeAnd_handsOn r₁ hc (not_isLineEnd_of_isDigit hd) e
    · split at e
      · rename_i hdot
        rw [beq_iff_eq] at hdot
        split at e
        · cases e
          exact ⟨[], [], r₁, kept_nil⟩
        · exact consumeAnd_handsOn r₁ hc (by rw [hdot]; decide) e
      · split at e
        · rename_i hsign
          split at e
          · cases e
          · have e := get_bind_ok e
            split at e
            · cases e
            · exact consumeAnd_handsOn r₁ hc (not_isLineEnd_of_isSign hsign) e
        · split at e
          · rename_i hexp
            split at e
            · cases e
            · have e := get_bind_ok e
              split at e
              · cases e
              · exact consumeAnd_handsOn r₁ hc
                  (not_isLineEnd_of_isExponentMark hexp) e
          · cases e
            exact ⟨[], [], r₁, kept_nil⟩

open Query in
theorem numericTurn_ok {k left : Cursor} (s : Sparql.Gathered)
    (r : Turn Sparql.Gathered Unit) (e : Sparql.numericTurn s k = .ok r left) :
    ∃ cs ws, k.Reads cs ws left ∧
    r.HandsOn (fun _ _ _ => Kept) s cs ws left := by
  rcases look_bind_ok e with ⟨k₁, r₁, hk, e⟩ | ⟨c, k₁, r₁, hc, e⟩
  · cases e
    exact ⟨[], [], r₁, kept_nil⟩
  · dsimp only at e
    split at e
    · rename_i hd
      exact consumeAnd_handsOn r₁ hc (not_isLineEnd_of_isDigit hd) e
    · split at e
      · rename_i hdot
        rw [beq_iff_eq] at hdot
        split at e
        · cases e
          exact ⟨[], [], r₁, kept_nil⟩
        · exact consumeAnd_handsOn r₁ hc (by rw [hdot]; decide) e
      · split at e
        · rename_i hsign
          have e := get_bind_ok e
          split at e
          · exact consumeAnd_handsOn r₁ hc (not_isLineEnd_of_isSign hsign) e
          · cases e
            exact ⟨[], [], r₁, kept_nil⟩
        · split at e
          · rename_i hexp
            split at e
            · cases e
              exact ⟨[], [], r₁, kept_nil⟩
            · exact consumeAnd_handsOn r₁ hc
                (not_isLineEnd_of_isExponentMark hexp) e
          · cases e
            exact ⟨[], [], r₁, kept_nil⟩

/-- The blank characters between two words; unless there is one, the state is
the value. -/
def Spaced (seen found : Bool) (_ : Cursor) (cs ws : List Char) : Prop :=
  ws = cs ∧ (∀ c ∈ cs, Unicode.isBlank c = true) ∧ (cs = [] → found = seen)

theorem spaced_append {seen seen' : Bool} {c : Char} {cs : List Char}
    (h : ∀ d ∈ c :: cs, Unicode.isBlank d = true) (found : Bool) (left : Cursor)
    (ds vs : List Char) (h' : Spaced seen' found left ds vs) :
    Spaced seen found left (c :: cs ++ ds) (c :: cs ++ vs) := by
  refine ⟨by rw [h'.1], ?_, nofun⟩
  intro d hd
  rcases List.mem_append.1 hd with hd | hd
  · exact h d hd
  · exact h'.2.1 d hd

theorem spaceTurn_ok {k left : Cursor} (seen : Bool) (r : Turn Bool Bool)
    (e : Query.Sparql.spaceTurn seen k = .ok r left) :
    ∃ cs ws, k.Reads cs ws left ∧ r.HandsOn Spaced seen cs ws left := by
  rcases look_bind_ok e with ⟨k₁, r₁, hk, e⟩ | ⟨c, k₁, r₁, hc, e⟩
  · cases e
    exact ⟨[], [], r₁, rfl, by simp, fun _ => rfl⟩
  · dsimp only at e
    split at e
    · cases e
      exact ⟨[], [], r₁, rfl, by simp, fun _ => rfl⟩
    · rename_i hb
      have hb : Unicode.isBlank c = true := by simpa using hb
      split at e
      · rename_i hl
        obtain ⟨_, k₂, e₂, e⟩ := bind_ok e
        obtain ⟨cs, hcs, r₂⟩ := consumeLineEnd_ok hc hl e₂
        cases e
        refine ⟨_, _, r₁.trans r₂, spaced_append ?_⟩
        intro d hd
        rcases List.mem_cons.1 hd with rfl | hd
        · exact hb
        · exact Unicode.isBlank_of_isLineEnd (hcs d hd)
      · rename_i hl
        obtain ⟨_, k₂, e₂, e⟩ := bind_ok e
        obtain ⟨-, r₂⟩ := consume_ok hc (by simpa using hl) e₂
        cases e
        exact ⟨[c], [c], r₁.trans r₂, spaced_append (by simpa using hb)⟩

/-! ## Declared keywords -/

/-- What is passed over between declared keywords. -/
def isGap (c : Char) : Bool := Unicode.isBlank c || c == ','

theorem gapTurn_ok {k left : Cursor} (s : Unit) (r : Turn Unit Unit)
    (e : Graph.Notation3.gapTurn s k = .ok r left) :
    r.RunsOn isGap false k left := by
  rcases look_bind_ok e with ⟨k₁, r₁, hk, e⟩ | ⟨c, k₁, r₁, hc, e⟩
  · exact absurd e unexpectedEnd_ne_ok
  · dsimp only at e
    split at e
    · cases e
    · rename_i hl
      split at e
      · rename_i hg
        obtain ⟨_, k₂, e₂, e⟩ := bind_ok e
        obtain ⟨-, r₂⟩ := skip_ok hc (by simpa using hl) e₂
        cases e
        exact ⟨[c], by simpa [isGap] using hg, r₁.trans r₂⟩
      · rename_i hg
        cases e
        exact ⟨r₁, by simpa [isGap, hc] using hg⟩

end Scan

end TripleLex

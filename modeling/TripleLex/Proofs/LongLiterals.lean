import TripleLex.Proofs.FirstCharacters

/-!
# Where long literals are closed

A long literal is closed by the first run of its sign that has three of them or more. Up
to there signs stand for themselves, one or two in a row, and so do line ends, which are
kept as they are written. What becomes of the signs behind the first three is a matter of
the language: a query language counts them to the text, the others refuse them.

The scanner looks at one sign after another and never at a whole run. That it stops where
the run begins is seen by going along the text before it, in which no three signs are next
to each other (`longBody_passes`). If there is no such run, it comes to the end of the
input in the same way.

## Main results

* `exists_firstRun` — a run of three signs has a first one.
* `longBody_passes`, `longBody_closes` — the text before the run, and the run.
* `Lexer.long_literal_next` — a single call.
-/

namespace TripleLex

open Scan
open Cursor (Reads)

/-! ## Runs of a sign -/

/-- The first maximal run of at least three signs: `p` comes before it, and it has `n` of
them. -/
structure FirstRun (q : Char) (cs p : List Char) (n : Nat) (rest : List Char) : Prop where
  split : cs = p ++ (List.replicate n q ++ rest)
  long : 3 ≤ n
  left : p.getLast? ≠ some q
  right : rest.head? ≠ some q
  first : ¬ List.replicate 3 q <:+: p

section Runs

variable {q c : Char} {cs p rest : List Char} {n : Nat}

/-- The signs that a text begins with are a maximal run. -/
theorem exists_leading (q : Char) (cs : List Char) :
    ∃ n rest, cs = List.replicate n q ++ rest ∧ rest.head? ≠ some q := by
  induction cs with
  | nil => exact ⟨0, [], rfl, nofun⟩
  | cons c cs ih =>
    by_cases hc : c = q
    · obtain ⟨n, rest, hcs, hrest⟩ := ih
      exact ⟨n + 1, rest, by rw [hc, hcs]; rfl, hrest⟩
    · exact ⟨0, c :: cs, rfl, fun h => hc (Option.some.inj h)⟩

theorem le_of_prefix {m : Nat} (h : List.replicate m q <+: List.replicate n q ++ rest)
    (hrest : rest.head? ≠ some q) : m ≤ n := by
  induction n generalizing m with
  | zero =>
    cases m with
    | zero => exact Nat.le_refl 0
    | succ m =>
      obtain ⟨more, hmore⟩ := h
      rw [List.replicate_zero, List.nil_append] at hmore
      rw [← hmore] at hrest
      exact absurd rfl hrest
  | succ n ih =>
    cases m with
    | zero => omega
    | succ m =>
      rw [List.replicate_succ, List.replicate_succ, List.cons_append] at h
      have := ih (List.cons_prefix_cons.1 h).2
      omega

/-- Where three signs are next to each other, there is a first run. -/
theorem exists_firstRun (h : List.replicate 3 q <:+: cs) : ∃ p n rest, FirstRun q cs p n rest := by
  induction cs with
  | nil => exact absurd (List.eq_nil_of_infix_nil h) (by simp)
  | cons c cs ih =>
    by_cases hprefix : List.replicate 3 q <+: c :: cs
    · obtain ⟨n, rest, hcs, hrest⟩ := exists_leading q (c :: cs)
      rw [hcs] at hprefix
      have hn := le_of_prefix hprefix hrest
      exact ⟨[], n, rest, hcs, hn, nofun, hrest, fun h => by simpa using List.eq_nil_of_infix_nil h⟩
    · obtain ⟨p, n, rest, hrun⟩ := ih ((List.infix_cons_iff.1 h).resolve_left hprefix)
      refine ⟨c :: p, n, rest, by rw [hrun.split]; rfl, hrun.long, ?_, hrun.right, ?_⟩
      · cases p with
        | nil =>
          intro hc
          obtain rfl : c = q := Option.some.inj hc
          obtain ⟨m, rfl⟩ : ∃ m, n = m + 2 := ⟨n - 2, by have := hrun.long; omega⟩
          refine hprefix ⟨List.replicate m c ++ rest, ?_⟩
          rw [hrun.split]
          rfl
        | cons d p =>
          rw [List.getLast?_cons_cons]
          exact hrun.left
      · intro hinfix
        rcases List.infix_cons_iff.1 hinfix with hp | hp
        · refine hprefix (hp.trans ?_)
          rw [hrun.split]
          exact ⟨_, rfl⟩
        · exact hrun.first hp

end Runs

/-- The text stands for itself before `rest`: it has no escapes, no three signs in a row, and
no more of its signs or of its last line end follows. -/
structure Quiet (q : Char) (p rest : List Char) : Prop where
  slash : '\\' ∉ p
  first : ¬ List.replicate 3 q <:+: p
  sign : p.getLast? = some q → rest.head? ≠ some q
  line : ∀ c, rest.head? = some c → Unicode.isLineEnd c = false

theorem Quiet.behind {q : Char} {ds p rest : List Char} (h : Quiet q (ds ++ p) rest) :
    Quiet q p rest where
  slash hp := h.slash (List.mem_append_right ds hp)
  first hp := h.first (hp.trans (List.suffix_append ds p).isInfix)
  sign hp := h.sign (by rw [List.getLast?_append, hp]; rfl)
  line := h.line

/-! ## Scanners -/

namespace Cursor

/-- Characters have been read and written, and the source is as broken as before. -/
structure Leads (k : Cursor) (cs ws : List Char) (mid : Cursor) : Prop extends
    k.Reads cs ws mid where
  breaks : mid.source.breaks = k.source.breaks

theorem Leads.trans {k mid left : Cursor} {cs ws ds vs : List Char} (h : k.Leads cs ws mid)
    (h' : mid.Leads ds vs left) : k.Leads (cs ++ ds) (ws ++ vs) left :=
  ⟨h.toReads.trans h'.toReads, h'.breaks.trans h.breaks⟩

end Cursor

namespace Scan

open Cursor (Leads)

variable {k : Cursor} {q : Char} {cs p rest : List Char} {n : Nat} {surplus : Surplus}

theorem Succeeds.leads {α : Type} {m : Scan α} {a : α} {cs ws : List Char} [hm : Composed true m]
    (h : Succeeds m k cs ws a) : ∃ mid, m k = .ok a mid ∧ k.Leads cs ws mid := by
  obtain ⟨mid, e, r, -⟩ := h
  exact ⟨mid, e, r, hm.breaks_eq e⟩

/-! ### Signs -/

section Signs

variable (surplus)

/-- A single sign is text. -/
theorem succeeds_oneSign (hs : IsSign q) (hk : k.ahead = q :: rest) (hrest : rest.head? ≠ some q) :
    Succeeds (longSigns q surplus) k [q] [q] (.again ()) := by
  have hskip : Succeeds skip k [q] [] q := succeeds_skip (by rw [hk]; rfl) hs.not_isLineEnd
  refine hskip.bind [] [q] fun k₁ r₁ => ?_
  refine (succeeds_nextIs q).bind [] [q] fun k₂ r₂ => ?_
  rw [r₁.rest_eq hk, if_neg (by simpa using hrest)]
  exact (succeeds_push q).thenPure _

/-- So are two. -/
theorem succeeds_twoSigns (hs : IsSign q) (hk : k.ahead = q :: q :: rest)
    (hrest : rest.head? ≠ some q) :
    Succeeds (longSigns q surplus) k [q, q] [q, q] (.again ()) := by
  have hl := hs.not_isLineEnd
  refine (succeeds_skip (by rw [hk]; rfl) hl).bind [q] [q, q] fun k₁ r₁ => ?_
  have hk₁ : k₁.ahead = q :: rest := r₁.rest_eq hk
  refine (succeeds_nextIs q).bind [q] [q, q] fun k₂ r₂ => ?_
  have hk₂ := r₂.ahead_eq.trans hk₁
  rw [hk₁, if_pos (by simp)]
  refine (succeeds_skip (by rw [hk₂]; rfl) hl).bind [] [q, q] fun k₃ r₃ => ?_
  refine (succeeds_nextIs q).bind [] [q, q] fun k₄ r₄ => ?_
  rw [r₃.rest_eq hk₂, if_neg (by simpa using hrest)]
  exact (succeeds_append [q, q]).thenPure _

/-- Where two signs come next, the first one is passed over and the second one seen. -/
theorem skip_nextIs (hs : IsSign q) (hk : k.ahead = q :: q :: rest) :
    ∃ mid left, skip k = .ok q mid ∧ nextIs q mid = .ok true left ∧ left.ahead = q :: rest ∧
      k.Leads [q] [] left := by
  have hskip : Succeeds skip k [q] [] q := succeeds_skip (by rw [hk]; rfl) hs.not_isLineEnd
  obtain ⟨mid, e, r⟩ := hskip.leads
  have hmid : mid.ahead = q :: rest := r.rest_eq hk
  obtain ⟨left, e', r'⟩ := (succeeds_nextIs (k := mid) q).leads
  rw [hmid, List.head?_cons, beq_self_eq_true] at e'
  exact ⟨mid, left, e, e', r'.ahead_eq.trans hmid, r.trans r'⟩

/-- Three signs are passed over, whatever follows them. -/
theorem skip_three (hs : IsSign q) (hk : k.ahead = q :: q :: q :: rest) :
    ∃ k₁ k₂ k₃ k₄ k₅, skip k = .ok q k₁ ∧ nextIs q k₁ = .ok true k₂ ∧ skip k₂ = .ok q k₃ ∧
      nextIs q k₃ = .ok true k₄ ∧ skip k₄ = .ok q k₅ ∧ k.Leads [q, q, q] [] k₅ := by
  obtain ⟨k₁, k₂, e₁, e₂, hk₂, r₂⟩ := skip_nextIs hs hk
  obtain ⟨k₃, k₄, e₃, e₄, hk₄, r₄⟩ := skip_nextIs hs hk₂
  have hskip : Succeeds skip k₄ [q] [] q := succeeds_skip (by rw [hk₄]; rfl) hs.not_isLineEnd
  obtain ⟨k₅, e₅, r₅⟩ := hskip.leads
  exact ⟨k₁, k₂, k₃, k₄, k₅, e₁, e₂, e₃, e₄, e₅, (r₂.trans r₄).trans r₅⟩

/-- Three close the literal. -/
theorem longSigns_closing (hs : IsSign q) (hk : k.ahead = q :: q :: q :: rest) :
    ∃ mid, longSigns q surplus k = (do surplusSigns q surplus; return Turn.done ()) mid ∧
      k.Leads [q, q, q] [] mid := by
  obtain ⟨k₁, k₂, k₃, k₄, k₅, e₁, e₂, e₃, e₄, e₅, r⟩ := skip_three hs hk
  refine ⟨k₅, ?_, r⟩
  unfold longSigns
  rw [bind_eq e₁, bind_eq e₂, if_pos rfl, bind_eq e₃, bind_eq e₄, if_pos rfl, bind_eq e₅]

/-- Three open a long one. -/
theorem literal_opening (hs : IsSign q) (hk : k.ahead = q :: q :: q :: rest) :
    ∃ mid, literal surplus k = (do longBody q surplus; emit .longLiteral) mid ∧
      k.Leads [q, q, q] [] mid := by
  obtain ⟨k₁, k₂, k₃, k₄, k₅, e₁, e₂, e₃, e₄, e₅, r⟩ := skip_three hs hk
  refine ⟨k₅, ?_, r⟩
  unfold literal
  rw [bind_eq e₁, bind_eq e₂, if_pos rfl, bind_eq e₃, bind_eq e₄, if_pos rfl, bind_eq e₅]

end Signs

/-! ### The text before the run -/

section Passing

/-- Where a sign comes next, a turn is a matter of the signs. -/
theorem longTurn_sign (hs : IsSign q) (hk : k.ahead = q :: cs) :
    longTurn q surplus () k = longSigns q surplus k.looked := by
  have hslash : ¬ (q == '\\') = true := by simpa using hs.ne
  unfold longTurn
  rw [look_at hk]
  dsimp only
  rw [if_neg hslash, if_pos (beq_self_eq_true q)]

/-- Some of the text is taken, as it is. -/
def TakesSome (q : Char) (surplus : Surplus) (k : Cursor) (p : List Char) : Prop :=
  ∃ ds p', p = ds ++ p' ∧ ds ≠ [] ∧ ∃ mid, longTurn q surplus () k = .ok (.again ()) mid ∧
    k.Leads ds ds mid

variable {c : Char}

theorem takesSome_sign (surplus : Surplus) (hs : IsSign q) (hk : k.ahead = q :: (p ++ rest))
    (hp : Quiet q (q :: p) rest) : TakesSome q surplus k (q :: p) := by
  have hlooked := k.ahead_looked.trans hk
  have hlead : k.Leads [] [] k.looked :=
    ⟨k.same_looked.reads k.ahead_looked, k.breaks_looked⟩
  by_cases hnext : (p ++ rest).head? = some q
  · cases p with
    | nil => exact absurd hnext (hp.sign rfl)
    | cons d p =>
      obtain rfl : d = q := Option.some.inj hnext
      have hthird : (p ++ rest).head? ≠ some d := by
        cases p with
        | nil => exact hp.sign rfl
        | cons e p =>
          intro he
          obtain rfl : e = d := Option.some.inj he
          exact hp.first ⟨[], p, rfl⟩
      obtain ⟨mid, e, r⟩ := (succeeds_twoSigns surplus hs hlooked hthird).leads
      exact ⟨[d, d], p, rfl, nofun, mid, (longTurn_sign hs hk).trans e, hlead.trans r⟩
  · obtain ⟨mid, e, r⟩ := (succeeds_oneSign surplus hs hlooked hnext).leads
    exact ⟨[q], p, rfl, nofun, mid, (longTurn_sign hs hk).trans e, hlead.trans r⟩

theorem takesSome_lineEnd (surplus : Surplus) (hs : IsSign q) (hk : k.ahead = c :: (p ++ rest))
    (hp : Quiet q (c :: p) rest) (hl : Unicode.isLineEnd c = true) :
    TakesSome q surplus k (c :: p) := by
  have hturn : ∀ {ds : List Char}, (∀ mid : Cursor, mid.ahead = c :: (p ++ rest) →
      Succeeds (consumeLineEnd true false) mid ds ds ()) →
      Succeeds (longTurn q surplus ()) k ds ds (.again ()) := by
    intro ds h
    have hslash : ¬ (c == '\\') = true := fun hc => by rw [beq_iff_eq.1 hc] at hl; cases hl
    have hsign : ¬ (c == q) = true := fun hc => by
      rw [beq_iff_eq.1 hc, hs.not_isLineEnd] at hl
      cases hl
    refine succeeds_look_bind fun mid r => ?_
    rw [hk]
    dsimp only [List.head?_cons]
    rw [if_neg hslash, if_neg hsign, if_pos hl]
    exact (h mid (r.ahead_eq.trans hk)).thenPure _
  obtain ⟨partner, hpartner⟩ := exists_partner hl
  by_cases hnext : (p ++ rest).head? = some partner
  · cases p with
    | nil =>
      have hrest := hp.line partner hnext
      rw [(isLineEnd_of_partner? hpartner).2] at hrest
      cases hrest
    | cons d p =>
      obtain rfl : d = partner := Option.some.inj hnext
      exact ⟨[c, d], p, rfl, nofun,
        (hturn fun mid hmid => succeeds_lineEnd_paired hmid hpartner).leads⟩
  · exact ⟨[c], p, rfl, nofun,
      (hturn fun mid hmid => succeeds_lineEnd_alone hmid hpartner hnext).leads⟩

theorem takesSome_plain (surplus : Surplus) (hk : k.ahead = c :: cs) (hslash : c ≠ '\\')
    (hsign : c ≠ q) (hl : Unicode.isLineEnd c = false) : TakesSome q surplus k (c :: p) := by
  have hturn : Succeeds (longTurn q surplus ()) k [c] [c] (.again ()) := by
    refine succeeds_look_bind fun mid r => ?_
    rw [hk]
    dsimp only [List.head?_cons]
    rw [if_neg (by simpa using hslash), if_neg (by simpa using hsign), if_neg (by rw [hl]; decide)]
    exact (succeeds_consume (by rw [r.ahead_eq, hk]; rfl) hl).thenPure _
  exact ⟨[c], p, rfl, nofun, hturn.leads⟩

theorem longTurn_passes (surplus : Surplus) (hs : IsSign q) (hk : k.ahead = c :: (p ++ rest))
    (hp : Quiet q (c :: p) rest) : TakesSome q surplus k (c :: p) := by
  by_cases hc : c = q
  · subst hc
    exact takesSome_sign surplus hs hk hp
  · by_cases hl : Unicode.isLineEnd c = true
    · exact takesSome_lineEnd surplus hs hk hp hl
    · exact takesSome_plain surplus hk (fun h => hp.slash (by rw [h]; exact List.mem_cons_self)) hc
        (Bool.eq_false_iff.2 hl)

/-- All of the text is taken, and reading goes on behind it. -/
theorem longBody_passes (surplus : Surplus) (hs : IsSign q) (hk : k.ahead = p ++ rest)
    (hp : Quiet q p rest) :
    ∃ mid, longBody q surplus k = longBody q surplus mid ∧ k.Leads p p mid := by
  generalize hn : p.length = n
  induction n using Nat.strongRecOn generalizing p k with
  | ind n ih =>
    cases p with
    | nil => exact ⟨k, rfl, Reads.refl k, rfl⟩
    | cons c p =>
      obtain ⟨ds, p', hsplit, hds, mid, e, r⟩ := longTurn_passes surplus hs hk hp
      rw [hsplit] at hk hp hn ⊢
      have hless : p'.length < n := by
        have hpositive := List.length_pos_iff.2 hds
        rw [List.length_append] at hn
        omega
      rw [List.append_assoc] at hk
      obtain ⟨left, e', r'⟩ := ih p'.length hless (r.rest_eq hk) hp.behind rfl
      refine ⟨left, ?_, r.trans r'⟩
      have hturn : longBody q surplus k = longBody q surplus mid := by
        show iterate _ _ () k = _
        rw [iterate_eq, bind_eq e]
        rfl
      exact hturn.trans e'

end Passing

/-! ### The run -/

section Closing

/-- Three signs are passed over, and what is left to do is a matter of the signs that follow. -/
theorem longBody_closing (surplus : Surplus) (hs : IsSign q) (hk : k.ahead = q :: q :: q :: rest) :
    ∃ mid, longBody q surplus k = surplusSigns q surplus mid ∧ k.Leads [q, q, q] [] mid := by
  obtain ⟨mid, e, r⟩ := longSigns_closing surplus hs ((k.ahead_looked).trans hk)
  have hlead : k.Leads [] [] k.looked := ⟨k.same_looked.reads k.ahead_looked, k.breaks_looked⟩
  refine ⟨mid, ?_, hlead.trans r⟩
  have hturn := (longTurn_sign hs hk).trans e
  show iterate _ _ () k = _
  rw [iterate_eq]
  show (longTurn q surplus () >>= _) k = _
  simp only [bind, EStateM.bind] at hturn ⊢
  rw [hturn]
  cases surplusSigns q surplus mid <;> rfl

/-- A run of three signs closes the literal, and so does a longer one where the surplus is
text. -/
theorem longBody_closes (hs : IsSign q) (hk : k.ahead = List.replicate n q ++ rest) (hn : 3 ≤ n)
    (hrest : rest.head? ≠ some q) (h : n = 3 ∨ surplus = .kept) :
    ∃ left, longBody q surplus k = .ok () left ∧
      k.Reads (List.replicate n q) (List.replicate (n - 3) q) left := by
  obtain ⟨m, rfl⟩ : ∃ m, n = 3 + m := ⟨n - 3, by omega⟩
  rw [← List.replicate_append_replicate, List.append_assoc] at hk
  rw [← List.replicate_append_replicate, Nat.add_sub_cancel_left]
  obtain ⟨mid, e, r⟩ := longBody_closing surplus hs hk
  have hmid : mid.ahead = List.replicate m q ++ rest := r.rest_eq hk
  rw [e]
  suffices hsurplus : Succeeds (surplusSigns q surplus) mid (List.replicate m q)
      (List.replicate m q) () by
    obtain ⟨left, e', r', -⟩ := hsurplus
    exact ⟨left, e', r.toReads.trans r'⟩
  cases surplus with
  | refused =>
    obtain rfl : m = 0 := by simpa using h
    refine (succeeds_nextIs q).bind [] [] fun left r' => ?_
    rw [hmid, if_neg (by simpa using hrest)]
    exact succeeds_pure ()
  | kept =>
    have htaken : mid.ahead.takeWhile (· == q) = List.replicate m q := by
      rw [hmid, List.takeWhile_append_of_pos (by simp)]
      cases rest with
      | nil => simp
      | cons d rest => rw [List.takeWhile_cons_of_neg (by simpa using hrest), List.append_nil]
    have hsigns : Succeeds (consumeWhile (· == q)) mid (mid.ahead.takeWhile (· == q))
        (mid.ahead.takeWhile (· == q)) () :=
      succeeds_consumeWhile fun c hc => by rw [beq_iff_eq.1 hc, hs.not_isLineEnd]
    rwa [htaken] at hsigns

/-- Where the surplus is a fault, a longer run is refused. -/
theorem longBody_refused (hs : IsSign q) (hk : k.ahead = List.replicate n q ++ rest)
    (hn : 3 < n) :
    FailsFor (fun fault => ∃ message span, fault = .violation message span)
      (longBody q .refused) k := by
  obtain ⟨m, rfl⟩ : ∃ m, n = 4 + m := ⟨n - 4, by omega⟩
  rw [← List.replicate_append_replicate, List.append_assoc] at hk
  obtain ⟨mid, e, r⟩ := longBody_closing .refused hs hk
  have hmid : mid.ahead = q :: (List.replicate m q ++ rest) := r.rest_eq hk
  have hsurplus : FailsFor (fun fault => ∃ message span, fault = .violation message span)
      (surplusSigns q .refused) mid := by
    refine (succeeds_nextIs q).fails fun left _ => ?_
    rw [hmid, if_pos (by simp)]
    exact ⟨_, _, rfl, _, _, rfl⟩
  obtain ⟨fault, left, e', hfault⟩ := hsurplus
  exact ⟨fault, left, e.trans e', hfault⟩

/-- Where nothing is left, the end of the input was not expected. -/
theorem longBody_atEnd (surplus : Surplus) (hk : k.ahead = []) (hbreaks : k.source.breaks = none) :
    FailsFor (fun fault => ∃ expected shown span, fault = .unexpectedEnd expected shown span)
      (longBody q surplus) k := by
  have hmet : k.looked.source.met = none := (Cursor.met_looked hk).trans hbreaks
  have hlook : look k = .ok none k.looked := by rw [look_eq, hk]; rfl
  have hend : FailsFor (fun fault => ∃ expected shown span,
      fault = .unexpectedEnd expected shown span) (longTurn q surplus ()) k := by
    refine FailsFor.behind ?_ hlook
    exact FailsFor.behind ⟨_, _, rfl, _, _, _, rfl⟩ (failIfBroken_unmet hmet)
  unfold longBody
  rw [iterate_eq]
  exact hend.bind

end Closing

/-! ### Literals -/

section Literals

theorem literal_passes (surplus : Surplus) (hs : IsSign q)
    (hk : k.ahead = q :: q :: q :: (p ++ rest)) (hp : Quiet q p rest) :
    ∃ mid, literal surplus k = (do longBody q surplus; emit .longLiteral) mid ∧
      k.Leads ([q, q, q] ++ p) p mid := by
  obtain ⟨mid, e, r⟩ := literal_opening surplus hs hk
  obtain ⟨left, e', r'⟩ := longBody_passes surplus hs (r.rest_eq hk) hp
  refine ⟨left, e.trans ?_, r.trans r'⟩
  show EStateM.bind _ _ mid = EStateM.bind _ _ left
  unfold EStateM.bind
  rw [e']

/-- The text before the run stands for itself. -/
theorem quiet_of_firstRun (hs : IsSign q) (hrun : FirstRun q cs p n rest) (hslash : '\\' ∉ p) :
    Quiet q p (List.replicate n q ++ rest) where
  slash := hslash
  first := hrun.first
  sign h := absurd h hrun.left
  line c hc := by
    obtain ⟨m, rfl⟩ : ∃ m, n = m + 1 := ⟨n - 1, by have := hrun.long; omega⟩
    obtain rfl : q = c := Option.some.inj hc
    exact hs.not_isLineEnd

/-- Up to the run, and behind it. -/
theorem literal_closes (hs : IsSign q) (hb : k.Begun) (hk : k.ahead = q :: q :: q :: cs)
    (hrun : FirstRun q cs p n rest) (hslash : '\\' ∉ p) (h : n = 3 ∨ surplus = .kept) :
    ∃ t left, literal surplus k = .ok t left ∧
      t.content = (.longLiteral, String.ofList (p ++ List.replicate (n - 3) q)) ∧
      left.ahead = rest := by
  rw [hrun.split] at hk
  obtain ⟨mid, e, r⟩ := literal_passes surplus hs hk (quiet_of_firstRun hs hrun hslash)
  have hmid : mid.ahead = List.replicate n q ++ rest := r.rest_eq (by rw [hk]; rfl)
  obtain ⟨left, e', r'⟩ := longBody_closes hs hmid hrun.long hrun.right h
  refine ⟨_, _, e.trans (bind_eq e'), ?_, r'.rest_eq hmid⟩
  show (Kind.longLiteral, String.ofList left.value) = _
  rw [(r.toReads.trans r').value hb]

theorem literal_refused (hs : IsSign q) (hk : k.ahead = q :: q :: q :: cs)
    (hrun : FirstRun q cs p n rest) (hslash : '\\' ∉ p) (hn : 3 < n) :
    FailsFor (fun fault => ∃ message span, fault = .violation message span)
      (literal .refused) k := by
  rw [hrun.split] at hk
  obtain ⟨mid, e, r⟩ := literal_passes .refused hs hk (quiet_of_firstRun hs hrun hslash)
  have hmid : mid.ahead = List.replicate n q ++ rest := r.rest_eq (by rw [hk]; rfl)
  unfold FailsFor
  rw [e]
  exact (longBody_refused hs hmid hn).bind

/-- Where there is no such run, all is read and the end of the input was not expected. -/
theorem literal_atEnd (surplus : Surplus) (hs : IsSign q) (hk : k.ahead = q :: q :: q :: cs)
    (hbreaks : k.source.breaks = none) (hslash : '\\' ∉ cs)
    (hrun : ¬ ∃ p n rest, FirstRun q cs p n rest) :
    FailsFor (fun fault => ∃ expected shown span, fault = .unexpectedEnd expected shown span)
      (literal surplus) k := by
  have hquiet : Quiet q cs [] := ⟨hslash, fun h => hrun (exists_firstRun h), nofun, nofun⟩
  rw [← List.append_nil cs] at hk
  obtain ⟨mid, e, r⟩ := literal_passes surplus hs hk hquiet
  have hmid : mid.ahead = [] := r.rest_eq (by rw [hk]; rfl)
  unfold FailsFor
  rw [e]
  exact (longBody_atEnd surplus hmid (r.breaks.trans hbreaks)).bind

end Literals

end Scan

/-! ## Formats -/

namespace Machine

variable {m : Machine} {kind : Kind} {opening : List Char} {q : Char}

/-- Long literals are read as Turtle writes them. -/
theorem Opens.readsTurtle (h : m.Opens kind opening (.long q)) :
    m.ReadsTurtle ∧ Kind.Open (some kind) ∧ IsSign q := by
  cases h with
  | long hm hopen hs => exact ⟨hm, hopen, hs⟩

/-- The signs behind the first three are text in a query only. -/
theorem surplus_eq_kept : m.surplus = .kept ↔ m.format = .sparql := by
  cases m with
  | lines format => cases format <;> simp [surplus, format]
  | turtle rules =>
    simp only [surplus, format]
    split <;> simp
  | _ => simp [surplus, format]

end Machine

namespace Lexer

section Behind

variable {l : Lexer} {kind : Kind} {q : Char} {gap cs p rest : List Char} {n : Nat}

/-- Where three signs open a literal, a token is the long literal behind them. -/
theorem long_read (hopens : l.machine.Opens kind [q, q, q] (.long q))
    (hahead : l.cursor.ahead = gap ++ ([q, q, q] ++ cs))
    (hgap : ∀ c ∈ gap, l.machine.passes (some kind) c = true) :
    IsSign q ∧ ∃ k, l.machine.read (some kind) l.cursor.fresh = literal l.machine.surplus k ∧
      l.cursor.fresh.Comes (q :: q :: q :: cs) k := by
  obtain ⟨hm, hopen, hs⟩ := hopens.readsTurtle
  have hblank : ∀ c ∈ gap, Unicode.isBlank c = true :=
    fun c hc => Machine.isBlank_of_passes hm.isDeclaring_eq (hgap c hc)
  exact ⟨hs, hm.read_literal hopen hs hahead hblank⟩

variable (hprevious : l.cursor.previous = some kind) (hending : kind ≠ .ending)
  (hopens : l.machine.Opens kind [q, q, q] (.long q))
  (hahead : l.cursor.ahead = gap ++ ([q, q, q] ++ cs))
  (hgap : ∀ c ∈ gap, l.machine.passes (some kind) c = true)

include hprevious hending hopens hahead hgap

theorem long_closes (hrun : FirstRun q cs p n rest) (hslash : '\\' ∉ p)
    (h : n = 3 ∨ l.format = .sparql) :
    ∃ t l', l.next = (.ok t, l') ∧
      t.content = (.longLiteral, String.ofList (p ++ List.replicate (n - 3) q)) ∧
      l'.cursor.ahead = rest := by
  obtain ⟨hs, k, hread, hk⟩ := long_read hopens hahead hgap
  have hsurplus : n = 3 ∨ l.machine.surplus = .kept := h.imp_right Machine.surplus_eq_kept.2
  obtain ⟨t, left, e, ht, hleft⟩ := literal_closes hs hk.begun hk.ahead hrun hslash hsurplus
  exact ⟨t, _, next_of_read hprevious hending (hread.trans e), ht, hleft⟩

theorem long_refused (hrun : FirstRun q cs p n rest) (hslash : '\\' ∉ p) (hn : 3 < n)
    (h : l.format ≠ .sparql) : ∃ message span, l.next.1 = .error (.violation message span) := by
  obtain ⟨hs, k, hread, hk⟩ := long_read hopens hahead hgap
  have hsurplus : l.machine.surplus = .refused := by
    cases hsurplus : l.machine.surplus with
    | refused => rfl
    | kept => exact absurd (Machine.surplus_eq_kept.1 hsurplus) h
  rw [hsurplus] at hread
  obtain ⟨_, left, e, message, span, rfl⟩ := literal_refused hs hk.ahead hrun hslash hn
  exact ⟨message, span, by rw [next_of_fails hprevious hending (hread.trans e)]⟩

theorem long_atEnd (hbreaks : l.cursor.source.breaks = none) (hslash : '\\' ∉ cs)
    (hrun : ¬ ∃ p n rest, FirstRun q cs p n rest) :
    ∃ expected shown span, l.next.1 = .error (.unexpectedEnd expected shown span) := by
  obtain ⟨hs, k, hread, hk⟩ := long_read hopens hahead hgap
  obtain ⟨_, left, e, expected, shown, span, rfl⟩ :=
    literal_atEnd l.machine.surplus hs hk.ahead (hk.breaks.trans hbreaks) hslash hrun
  exact ⟨expected, shown, span, by rw [next_of_fails hprevious hending (hread.trans e)]⟩

end Behind

/-- A long literal is closed by the first run of three signs or more. In a graph it has to be a
run of three; in a query the signs behind the first three belong to the text. If there is no
such run, the end of the input was not expected. -/
theorem long_literal_next (l : Lexer) (kind : Kind) (q : Char) (gap cs : List Char)
    (hprevious : l.cursor.previous = some kind) (hending : kind ≠ .ending)
    (hopens : l.machine.Opens kind [q, q, q] (.long q))
    (hahead : l.cursor.ahead = gap ++ ([q, q, q] ++ cs))
    (hgap : ∀ c ∈ gap, l.machine.passes (some kind) c = true) :
    (∀ p n rest, FirstRun q cs p n rest → '\\' ∉ p →
      (l.format ≠ .sparql →
        ((∃ t l', l.next = (.ok t, l') ∧ t.content = (.longLiteral, String.ofList p) ∧
          l'.cursor.ahead = rest) ↔ n = 3) ∧
        (3 < n → ∃ message span, l.next.1 = .error (.violation message span))) ∧
      (l.format = .sparql → ∃ t l', l.next = (.ok t, l') ∧
        t.content = (.longLiteral, String.ofList (p ++ List.replicate (n - 3) q)) ∧
        l'.cursor.ahead = rest)) ∧
    (l.cursor.source.breaks = none → '\\' ∉ cs →
      ((∃ expected shown span, l.next.1 = .error (.unexpectedEnd expected shown span)) ↔
        ¬ ∃ p n rest, FirstRun q cs p n rest)) := by
  have hrefused : ∀ {p n rest}, FirstRun q cs p n rest → '\\' ∉ p → l.format ≠ .sparql → 3 < n →
      ∃ message span, l.next.1 = .error (.violation message span) :=
    fun hrun hslash hformat hn =>
      long_refused hprevious hending hopens hahead hgap hrun hslash hn hformat
  constructor
  · intro p n rest hrun hslash
    have hcloses := long_closes hprevious hending hopens hahead hgap hrun hslash
    refine ⟨fun hformat => ⟨⟨?_, ?_⟩, hrefused hrun hslash hformat⟩, fun h => hcloses (.inr h)⟩
    · rintro ⟨t, l', hnext, -⟩
      by_cases hn : 3 < n
      · obtain ⟨message, span, hfault⟩ := hrefused hrun hslash hformat hn
        rw [hnext] at hfault
        cases hfault
      · exact Nat.le_antisymm (Nat.not_lt.1 hn) hrun.long
    · rintro rfl
      simpa using hcloses (.inl rfl)
  · intro hbreaks hslash
    refine ⟨?_, long_atEnd hprevious hending hopens hahead hgap hbreaks hslash⟩
    rintro ⟨expected, shown, span, hfault⟩ ⟨p, n, rest, hrun⟩
    have hslash : '\\' ∉ p := by
      intro h
      apply hslash
      rw [hrun.split]
      exact List.mem_append_left _ h
    by_cases h : n = 3 ∨ l.format = .sparql
    · obtain ⟨t, l', hnext, -⟩ := long_closes hprevious hending hopens hahead hgap hrun hslash h
      rw [hnext] at hfault
      cases hfault
    · obtain ⟨hn, hformat⟩ := not_or.1 h
      have hlong := hrun.long
      obtain ⟨message, span', hfault'⟩ := hrefused hrun hslash hformat (by omega)
      rw [hfault] at hfault'
      cases hfault'

/-- Two signs next to each other, a line end of two characters and the other sign are text. -/
theorem long_literal_next_pairs :
    let l := afterCalls 1 (ofText (.ofFormat .turtle) "\"\"\"a\"\"b\r\n'\"\"\" .")
    let p := "a\"\"b\r\n'".toList
    let cs := p ++ "\"\"\" .".toList
    l.cursor.previous = some .beginning ∧ l.machine.Opens .beginning ['"', '"', '"'] (.long '"') ∧
      l.cursor.ahead = [] ++ (['"', '"', '"'] ++ cs) ∧ FirstRun '"' cs p 3 [' ', '.'] ∧
      '\\' ∉ cs ∧ l.format ≠ .sparql ∧ l.cursor.source.breaks = none ∧
      (∃ t l', l.next = (.ok t, l') ∧ t.content = (.longLiteral, "a\"\"b\r\n'") ∧
        l'.cursor.ahead = [' ', '.']) ∧
      ¬ ∃ expected shown span, l.next.1 = .error (.unexpectedEnd expected shown span) := by
  intro l p cs
  have hopens : l.machine.Opens .beginning ['"', '"', '"'] (.long '"') :=
    .long (.turtle _) ⟨nofun, nofun⟩ (.inl rfl)
  have hahead : l.cursor.ahead = [] ++ (['"', '"', '"'] ++ cs) := by decide +kernel
  have hrun : FirstRun '"' cs p 3 [' ', '.'] :=
    ⟨by decide, by decide, by decide, by decide, by decide +kernel⟩
  have hslash : '\\' ∉ cs := by decide
  have hgraph : l.format ≠ .sparql := by decide
  have hwhole : l.cursor.source.breaks = none := by decide +kernel
  obtain ⟨hlong, hend⟩ := long_literal_next l .beginning '"' [] cs rfl nofun hopens hahead nofun
  obtain ⟨hgraphs, -⟩ := hlong p 3 _ hrun (by decide)
  obtain ⟨t, l', hnext, ht, hleft⟩ := (hgraphs hgraph).1.2 rfl
  have htext : (Kind.longLiteral, String.ofList p) = (.longLiteral, "a\"\"b\r\n'") := by decide
  exact ⟨rfl, hopens, hahead, hrun, hslash, hgraph, hwhole, ⟨t, l', hnext, ht.trans htext, hleft⟩,
    fun h => (hend hwhole hslash).1 h ⟨p, 3, _, hrun⟩⟩

end Lexer

end TripleLex

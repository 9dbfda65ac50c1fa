import TripleLex.Proofs.BrokenOff

/-!
# The first character of a token

Once a gap has been passed over, a token is read by the character that stands there.
Here the gap is taken off: what a machine reads at a cursor is what the reader of that
character reads at a later one, where the token has just been begun
(`Cursor.Comes`). Nothing is asked of the source, which may be broken off further on.

## Main results

* `look_behind_blank`, `look_behind_spaces` — gaps.
* `Machine.dispatched` — all machines but those of tables.
* `Machine.ReadsTurtle.read_literal` — literals, by the rules of Turtle.
-/

namespace TripleLex

open Scan

/-! ## Gaps -/

/-- At the later cursor a token has just been begun before the characters, and nothing
but a gap has been passed over. -/
structure Cursor.Comes (k : Cursor) (cs : List Char) (mid : Cursor) : Prop where
  begun : mid.Begun
  ahead : mid.ahead = cs
  previous : mid.previous = k.previous
  breaks : mid.source.breaks = k.source.breaks

/-- Looking changes nothing of it. -/
theorem Cursor.Comes.looked {k mid : Cursor} {cs : List Char} (h : k.Comes cs mid) :
    k.Comes cs mid.looked where
  begun := (look_ok (look_eq mid)).2.begun h.begun
  ahead := mid.ahead_looked.trans h.ahead
  previous := mid.same_looked.previous.trans h.previous
  breaks := mid.breaks_looked.trans h.breaks

namespace Scan

variable {α : Type} {k : Cursor} {gap cs : List Char} {c : Char} {f : Option Char → Scan α}

theorem look_at (h : k.ahead = c :: cs) : (look >>= f) k = f (some c) k.looked := by
  rw [bind_eq (look_eq k), h]
  rfl

theorem look_behind_blank (hk : k.ahead = gap ++ c :: cs)
    (hgap : ∀ c ∈ gap, Unicode.isBlank c = true) (hc : Unicode.isBlank c = false) :
    ∃ mid, (discardBlank >>= fun _ => look >>= f) k = f (some c) mid ∧ k.Comes (c :: cs) mid := by
  obtain ⟨mid, e, ha, hb, hp, -⟩ := discardBlank_total k
  rw [hk, dropWhile_blank hgap (by rintro d ⟨⟩; exact hc)] at ha
  have hcomposed : Composed true discardBlank := inferInstance
  have hmid : k.Comes (c :: cs) mid := ⟨hb, ha, hp, hcomposed.breaks_eq e⟩
  refine ⟨mid.looked, ?_, hmid.looked⟩
  rw [bind_eq e, look_at ha]

theorem look_behind_spaces (hk : k.ahead = gap ++ c :: cs) (hgap : ∀ c ∈ gap, (c == ' ') = true)
    (hc : c ≠ ' ') :
    ∃ mid, (Table.Tsv.discardSpaces >>= fun _ => look >>= f) k = f (some c) mid ∧
      k.Comes (c :: cs) mid := by
  have hs : Succeeds (skipWhile (· == ' ')) k gap [] () := by
    have hs := succeeds_skipWhile (p := (· == ' ')) (k := k) (by simp; decide)
    rw [hk, List.takeWhile_append_of_pos hgap, List.takeWhile_cons_of_neg (by simpa using hc),
      List.append_nil] at hs
    exact hs
  obtain ⟨mid, e, r, -⟩ := hs
  have hcomposed : Composed true (skipWhile (· == ' ')) := inferInstance
  have hbreaks := hcomposed.breaks_eq e
  have hmid : k.Comes (c :: cs) mid.fresh :=
    ⟨Cursor.begun_fresh mid, r.rest_eq hk, r.previous, hbreaks⟩
  refine ⟨mid.fresh.looked, ?_, hmid.looked⟩
  have hdiscard : Table.Tsv.discardSpaces k = .ok () mid.fresh := bind_eq e
  rw [bind_eq hdiscard, look_at hmid.ahead]

end Scan

/-! ## Machines -/

namespace Machine

variable {m : Machine} {previous : Option Kind} {kind : Kind} {k : Cursor} {gap cs : List Char}
  {c sign : Char}

/-- Where nothing certain is due, a token behind a gap is read by its first character. -/
theorem dispatched (hm : m.hasComments = true) (he : m.expects previous = false)
    (hk : k.ahead = gap ++ c :: cs) (hgap : ∀ c ∈ gap, Unicode.isBlank c = true)
    (hc : Unicode.isBlank c = false) :
    ∃ mid, m.read previous k = m.dispatch previous c mid ∧ k.Comes (c :: cs) mid := by
  rw [read_eq hm he]
  exact look_behind_blank hk hgap hc

/-! ### What Turtle writes -/

theorem ReadsTurtle.dispatched (hm : m.ReadsTurtle) (hp : Kind.Open (some kind))
    (hk : k.ahead = gap ++ c :: cs) (hgap : ∀ c ∈ gap, Unicode.isBlank c = true)
    (hc : Unicode.isBlank c = false) :
    ∃ mid, m.read (some kind) k = m.dispatch (some kind) c mid ∧ k.Comes (c :: cs) mid := by
  rw [hm.read_eq hp]
  exact look_behind_blank hk hgap hc

/-- Where a sign stands next, a literal is read. -/
theorem ReadsTurtle.read_literal (hm : m.ReadsTurtle) (hp : Kind.Open (some kind))
    (hs : IsSign sign) (hk : k.ahead = gap ++ sign :: cs)
    (hgap : ∀ c ∈ gap, Unicode.isBlank c = true) :
    ∃ mid, m.read (some kind) k = literal m.surplus mid ∧ k.Comes (sign :: cs) mid := by
  have hb : Unicode.isBlank sign = false := by rcases hs with rfl | rfl <;> decide
  obtain ⟨mid, e, hmid⟩ := hm.dispatched hp hk hgap hb
  rw [hm.dispatch_sign hs] at e
  exact ⟨mid, e, hmid⟩

end Machine

end TripleLex

import TripleLex.Proofs.Reads
import TripleLex.Quoted.Annotation
import TripleLex.Quoted.Literal

/-!
# The pieces of tokens

Escapes and the bodies of references and literals: what each of them reads, and
how what it writes relates to that. Only an escape writes anything else than it
reads, and it reads more than one character unless it leaves its backslash in
the text (`Renders`).

## Main results

* `decodeEscape_ok`, `readLocalEscape_ok` — escapes render what they read.
* `referenceBody_ok`, `shortBody_ok`, `longBody_ok` — a body is read up to the
  signs that close it.
-/

namespace TripleLex

/-! ## Rendering -/

/-- What is written for the characters read: the same, unless an escape was
among them. -/
structure Renders (cs ws : List Char) : Prop where
  plain : '\\' ∉ cs → ws = cs
  short : cs.length ≤ 1 → ws = cs

theorem Renders.same (cs : List Char) : Renders cs cs :=
  ⟨fun _ => rfl, fun _ => rfl⟩

theorem Renders.of_escape {cs ws : List Char} (h : '\\' ∈ cs)
    (hl : 2 ≤ cs.length) :
    Renders cs ws :=
  ⟨fun hn => absurd h hn, fun hs => by omega⟩

theorem Renders.append {cs ws ds vs : List Char} (h : Renders cs ws)
    (h' : Renders ds vs) :
    Renders (cs ++ ds) (ws ++ vs) := by
  constructor
  · intro hn
    rw [List.mem_append, not_or] at hn
    rw [h.plain hn.1, h'.plain hn.2]
  · intro hs
    rw [List.length_append] at hs
    rw [h.short (by omega), h'.short (by omega)]

/-! ## Characters that end no line -/

theorem not_isLineEnd_of_isHexDigit {c : Char} (h : Name.isHexDigit c = true) :
    Unicode.isLineEnd c = false := not_isLineEnd_of (by decide) (by decide) h

theorem not_isLineEnd_of_isScanned {c : Char} (h : Name.isScanned c = true) :
    Unicode.isLineEnd c = false :=
  not_isLineEnd_of (Name.isScanned_ascii (by decide)) (Name.isScanned_ascii (by decide)) h

theorem not_isLineEnd_of_isAlphabetic {c : Char}
    (h : Unicode.isAlphabetic c = true) :
    Unicode.isLineEnd c = false :=
  not_isLineEnd_of (Unicode.isAlphabetic_ascii (by decide))
    (Unicode.isAlphabetic_ascii (by decide)) h

theorem not_isLineEnd_of_isDigit {c : Char} (h : c.isDigit = true) :
    Unicode.isLineEnd c = false := not_isLineEnd_of (by decide) (by decide) h

/-- What a backslash makes an escape of is no line end. -/
theorem not_isLineEnd_of_ofChar {context : EscapeContext} {c : Char}
    (h : Escape.ofChar context c ≠ .none)
    (h' : Escape.ofChar context c ≠ .refused) :
    Unicode.isLineEnd c = false := by
  rw [Bool.eq_false_iff]
  intro hc
  simp only [Unicode.isLineEnd, Bool.or_eq_true, beq_iff_eq] at hc
  rcases hc with rfl | rfl
  · cases context <;> simp [Escape.ofChar] at h h'
  · cases context <;> simp [Escape.ofChar] at h h'

namespace Scan

open Cursor (Reads)

/-! ## Escapes -/

theorem readHexDigits_ok {k left : Cursor} {n : Nat} {ds : List Char}
    (e : readHexDigits n k = .ok ds left) : k.Reads ds [] left ∧ Inline ds := by
  induction n generalizing k left ds with
  | zero =>
    cases e
    exact ⟨Reads.refl _, inline_nil⟩
  | succ n ih =>
    rcases look_bind_ok e with ⟨k₁, r₁, hk, e⟩ | ⟨c, k₁, r₁, hc, e⟩
    · cases e
      exact ⟨r₁, inline_nil⟩
    · dsimp only at e
      split at e
      · rename_i hhex
        have hcl : Unicode.isLineEnd c = false :=
          not_isLineEnd_of_isHexDigit hhex
        obtain ⟨d, k₂, e₂, e⟩ := bind_ok e
        obtain ⟨-, r₂⟩ := skip_ok hc hcl e₂
        obtain ⟨more, k₃, e₃, e⟩ := bind_ok e
        obtain ⟨r₃, hmore⟩ := ih e₃
        cases e
        exact ⟨(r₁.trans r₂).trans r₃, hmore.cons hcl⟩
      · cases e
        exact ⟨r₁, inline_nil⟩

theorem pushCodePoint_ok {k left : Cursor} {digits : List Char} {u : Unit}
    (e : pushCodePoint digits k = .ok u left) : ∃ ws, k.Reads [] ws left := by
  unfold pushCodePoint at e
  by_cases hn : (Escape.number digits != 0) = true
  · rw [if_pos hn] at e
    cases hs : Escape.scalar? (Escape.number digits) with
    | none =>
      rw [hs] at e
      cases e
    | some c =>
      rw [hs] at e
      exact ⟨_, push_ok e⟩
  · rw [if_neg hn] at e
    cases e
    exact ⟨[], Reads.refl _⟩

/-- What follows a backslash; where nothing of it is read, the backslash itself
is written. -/
theorem decodeAfterBackslash_ok {k left : Cursor} {context : EscapeContext}
    {next : Char} {u : Unit} (h : k.ahead.head? = some next)
    (e : decodeAfterBackslash context next k = .ok u left) :
    ∃ cs ws, k.Reads cs ws left ∧ Inline cs ∧ (cs = [] → ws = ['\\']) := by
  unfold decodeAfterBackslash at e
  have hl : Escape.ofChar context next ≠ .none →
    Escape.ofChar context next ≠ .refused →
      Unicode.isLineEnd next = false := not_isLineEnd_of_ofChar
  cases hesc : Escape.ofChar context next with
  | backslash =>
    rw [hesc] at e hl
    have hn := hl nofun nofun
    obtain ⟨_, k₁, e₁, e⟩ := bind_ok e
    obtain ⟨-, r₁⟩ := consume_ok h hn e₁
    rcases look_bind_ok e with ⟨k₂, r₂, -, e⟩ | ⟨c, k₂, r₂, -, e⟩
    · cases e
      exact ⟨_, _, r₁.trans r₂, inline_singleton hn, nofun⟩
    · exact ⟨_, _, (r₁.trans r₂).trans (pushIf_ok e), inline_singleton hn, nofun⟩
  | itself =>
    rw [hesc] at e hl
    have hn := hl nofun nofun
    obtain ⟨_, k₁, e₁, e⟩ := bind_ok e
    obtain ⟨-, r₁⟩ := consume_ok h hn e₁
    cases e
    exact ⟨_, _, r₁, inline_singleton hn, nofun⟩
  | control c =>
    rw [hesc] at e hl
    have hn := hl nofun nofun
    obtain ⟨_, k₁, e₁, e⟩ := bind_ok e
    obtain ⟨-, r₁⟩ := skip_ok h hn e₁
    exact ⟨_, _, r₁.trans (push_ok e), inline_singleton hn, nofun⟩
  | codePoint count kept =>
    rw [hesc] at e hl
    have hn := hl nofun nofun
    obtain ⟨_, k₁, e₁, e⟩ := bind_ok e
    obtain ⟨-, r₁⟩ := skip_ok h hn e₁
    obtain ⟨digits, k₂, e₂, e⟩ := bind_ok e
    obtain ⟨r₂, hd⟩ := readHexDigits_ok e₂
    split at e
    · cases e
    · obtain ⟨_, k₃, e₃, e⟩ := bind_ok e
      obtain ⟨ws, r₄⟩ := pushCodePoint_ok e
      exact ⟨_, _, ((r₁.trans r₂).trans (appendIf_ok e₃)).trans r₄,
        by simpa using hd.cons hn, by simp⟩
  | none =>
    rw [hesc] at e
    exact ⟨[], _, push_ok e, inline_nil, fun _ => rfl⟩
  | refused =>
    rw [hesc] at e
    cases e

/-- An escape renders what it reads, from its backslash on. -/
theorem decodeEscape_ok {k left : Cursor} {context : EscapeContext} {u : Unit}
    (h : k.ahead.head? = some '\\') (e : decodeEscape context k = .ok u left) :
    ∃ cs ws, k.Reads cs ws left ∧ Inline cs ∧ Renders cs ws := by
  obtain ⟨c, k₁, e₁, e⟩ := bind_ok e
  obtain ⟨rfl, r₁⟩ := skip_ok h (by decide) e₁
  split at e
  · cases e
  · rcases look_bind_ok e with ⟨k₂, r₂, hk, e⟩ | ⟨next, k₂, r₂, hn, e⟩
    · exact absurd e unexpectedEnd_ne_ok
    · obtain ⟨cs, ws, r₃, hcs, hnil⟩ := decodeAfterBackslash_ok hn e
      refine ⟨'\\' :: cs, ws, (r₁.trans r₂).trans r₃, hcs.cons (by decide), ?_⟩
      by_cases hne : cs = []
      · rw [hne, hnil hne]
        exact Renders.same _
      · refine Renders.of_escape (List.mem_cons_self ..) ?_
        have := List.length_pos_iff.2 hne
        rw [List.length_cons]
        omega

/-- An escape in a local name stays as it is written. -/
theorem readLocalEscape_ok {k left : Cursor} {c : Char} {u : Unit}
    (h : k.ahead.head? = some c) (hc : Unicode.isLineEnd c = false)
    (e : readLocalEscape k = .ok u left) :
    ∃ cs, k.Reads cs cs left ∧ Inline cs := by
  obtain ⟨d, k₁, e₁, e⟩ := bind_ok e
  obtain ⟨rfl, r₁⟩ := skip_ok h hc e₁
  split at e
  · rcases look_bind_ok e with ⟨k₂, r₂, hk, e⟩ | ⟨next, k₂, r₂, hn, e⟩
    · exact absurd e unexpectedEnd_ne_ok
    · dsimp only at e
      split at e
      · rename_i hres
        have hnl : Unicode.isLineEnd next = false := not_isLineEnd_of
          (by decide) (by decide) hres
        obtain ⟨_, k₃, e₃, e⟩ := bind_ok e
        have r₃ := push_ok e₃
        obtain ⟨_, k₄, e₄, e⟩ := bind_ok e
        obtain ⟨-, r₄⟩ := consume_ok (by rw [r₃.ahead_eq, hn]) hnl e₄
        cases e
        exact ⟨['\\', next], ((r₁.trans r₂).trans r₃).trans r₄,
          (inline_singleton hnl).cons hc⟩
      · split at e <;> cases e
  · obtain ⟨digits, k₂, e₂, e⟩ := bind_ok e
    obtain ⟨r₂, hd⟩ := readHexDigits_ok e₂
    split at e
    · cases e
    · obtain ⟨_, k₃, e₃, e⟩ := bind_ok e
      have r₄ := ((r₁.trans r₂).trans (push_ok e₃)).trans (append_ok e)
      exact ⟨'%' :: digits, by simpa using r₄, hd.cons hc⟩
  · cases e

/-! ## Bodies -/

/-- A body that is rendered, with what closes it. -/
def Closed (closing cs ws : List Char) : Prop :=
  ∃ body, cs = body ++ closing ∧ Renders body ws

theorem closed_nil (closing : List Char) : Closed closing closing [] :=
  ⟨[], rfl, Renders.same []⟩

theorem Closed.append {closing cs ws ds vs : List Char} (h : Renders cs ws)
    (h' : Closed closing ds vs) : Closed closing (cs ++ ds) (ws ++ vs) := by
  obtain ⟨body, rfl, hb⟩ := h'
  exact ⟨cs ++ body, (List.append_assoc ..).symm, h.append hb⟩

theorem referenceTurn_ok {k left : Cursor} (s : Unit) (r : Turn Unit Unit)
    (e : referenceTurn s k = .ok r left) :
    ∃ cs ws, k.Reads cs ws left ∧
    r.HandsOn (fun _ _ _ => Closed ['>']) s cs ws left := by
  rcases look_bind_ok e with ⟨k₁, r₁, hk, e⟩ | ⟨c, k₁, r₁, hc, e⟩
  · exact absurd e unexpectedEnd_ne_ok
  · dsimp only at e
    split at e
    · rename_i hb
      rw [beq_iff_eq] at hb
      rw [hb] at hc
      obtain ⟨_, k₂, e₂, e⟩ := bind_ok e
      obtain ⟨-, r₂⟩ := skip_ok hc (by decide) e₂
      cases e
      exact ⟨['>'], [], r₁.trans r₂, closed_nil _⟩
    · split at e
      · rename_i hb
        rw [beq_iff_eq] at hb
        rw [hb] at hc
        obtain ⟨_, k₂, e₂, e⟩ := bind_ok e
        obtain ⟨cs, ws, r₂, -, hr⟩ := decodeEscape_ok hc e₂
        cases e
        exact ⟨cs, ws, r₁.trans r₂, fun _ _ _ _ => Closed.append hr⟩
      · split at e
        · cases e
        · rename_i hl
          split at e
          · cases e
          · obtain ⟨_, k₂, e₂, e⟩ := bind_ok e
            obtain ⟨-, r₂⟩ := consume_ok hc (by simpa using hl) e₂
            cases e
            exact ⟨[c], [c], r₁.trans r₂,
              fun _ _ _ _ => Closed.append (Renders.same _)⟩

theorem referenceBody_ok {k left : Cursor} {u : Unit}
    (e : referenceBody k = .ok u left) :
    ∃ cs ws, k.Reads cs ws left ∧ Closed ['>'] cs ws :=
  iterate_ok (fun s _ r _ e => referenceTurn_ok s r e) e

theorem shortTurn_ok {k left : Cursor} {sign : Char}
    (hs : Unicode.isLineEnd sign = false) (s : Unit) (r : Turn Unit Unit)
    (e : shortTurn sign s k = .ok r left) :
    ∃ cs ws, k.Reads cs ws left ∧
    r.HandsOn (fun _ _ _ => Closed [sign]) s cs ws left := by
  rcases look_bind_ok e with ⟨k₁, r₁, hk, e⟩ | ⟨c, k₁, r₁, hc, e⟩
  · exact absurd e unexpectedEnd_ne_ok
  · dsimp only at e
    split at e
    · rename_i hb
      rw [beq_iff_eq] at hb
      rw [hb] at hc
      obtain ⟨_, k₂, e₂, e⟩ := bind_ok e
      obtain ⟨cs, ws, r₂, -, hr⟩ := decodeEscape_ok hc e₂
      cases e
      exact ⟨cs, ws, r₁.trans r₂, fun _ _ _ _ => Closed.append hr⟩
    · split at e
      · rename_i hb
        rw [beq_iff_eq] at hb
        rw [hb] at hc
        obtain ⟨_, k₂, e₂, e⟩ := bind_ok e
        obtain ⟨-, r₂⟩ := skip_ok hc hs e₂
        cases e
        exact ⟨[sign], [], r₁.trans r₂, closed_nil _⟩
      · split at e
        · cases e
        · rename_i hl
          obtain ⟨_, k₂, e₂, e⟩ := bind_ok e
          obtain ⟨-, r₂⟩ := consume_ok hc (by simpa using hl) e₂
          cases e
          exact ⟨[c], [c], r₁.trans r₂,
            fun _ _ _ _ => Closed.append (Renders.same _)⟩

theorem shortBody_ok {k left : Cursor} {sign : Char}
    (hs : Unicode.isLineEnd sign = false) {u : Unit}
    (e : shortBody sign k = .ok u left) :
    ∃ cs ws, k.Reads cs ws left ∧ Closed [sign] cs ws :=
  iterate_ok (fun s _ r _ e => shortTurn_ok hs s r e) e

/-- Signs before the three that close a literal may as well be taken to stand
after them. -/
theorem closed_surplus {sign : Char} {cs : List Char} (h : ∀ c ∈ cs, c = sign) :
    Closed [sign, sign, sign] ([sign, sign, sign] ++ cs) cs := by
  have hcs : cs = List.replicate cs.length sign := List.eq_replicate_iff.2 ⟨rfl, h⟩
  refine ⟨cs, ?_, Renders.same _⟩
  rw [hcs]
  change List.replicate 3 sign ++ _ = _ ++ List.replicate 3 sign
  rw [List.replicate_append_replicate, List.replicate_append_replicate,
    Nat.add_comm]

theorem surplusSigns_ok {k left : Cursor} {sign : Char} {surplus : Surplus}
    (hs : Unicode.isLineEnd sign = false) {u : Unit}
    (e : surplusSigns sign surplus k = .ok u left) :
    ∃ cs, (∀ c ∈ cs, c = sign) ∧ k.Reads cs cs left := by
  cases surplus with
  | refused =>
    obtain ⟨more, k₁, e₁, e⟩ := bind_ok e
    obtain ⟨-, r₁⟩ := nextIs_ok e₁
    cases more with
    | true => cases e
    | false =>
      cases e
      exact ⟨[], by simp, r₁⟩
  | kept =>
    have hp : ∀ c : Char, (c == sign) = true → Unicode.isLineEnd c = false := by
      intro c hc
      rw [beq_iff_eq] at hc
      rw [hc, hs]
    refine ⟨_, ?_, consumeWhile_ok hp e⟩
    intro c hc
    simpa using List.all_eq_true.1 List.all_takeWhile c hc

theorem longSigns_ok {k left : Cursor} {sign : Char} {surplus : Surplus}
    (hs : Unicode.isLineEnd sign = false) (h : k.ahead.head? = some sign)
    (r : Turn Unit Unit) (e : longSigns sign surplus k = .ok r left) :
    ∃ cs ws, k.Reads cs ws left ∧
      r.HandsOn (fun _ _ _ => Closed [sign, sign, sign]) () cs ws left := by
  obtain ⟨_, k₁, e₁, e⟩ := bind_ok e
  obtain ⟨-, r₁⟩ := skip_ok h hs e₁
  obtain ⟨second, k₂, e₂, e⟩ := bind_ok e
  obtain ⟨h₂, r₂⟩ := nextIs_ok e₂
  have r₂ := r₁.trans r₂
  cases second with
  | false =>
    obtain ⟨_, k₃, e₃, e⟩ := bind_ok e
    have r₃ := r₂.trans (push_ok e₃)
    cases e
    exact ⟨[sign], [sign], r₃, fun _ _ _ _ => Closed.append (Renders.same _)⟩
  | true =>
    obtain ⟨_, k₃, e₃, e⟩ := bind_ok e
    obtain ⟨-, r₃⟩ := skip_ok (h₂.1 rfl) hs e₃
    have r₃ := r₂.trans r₃
    obtain ⟨third, k₄, e₄, e⟩ := bind_ok e
    obtain ⟨h₄, r₄⟩ := nextIs_ok e₄
    have r₄ := r₃.trans r₄
    cases third with
    | false =>
      obtain ⟨_, k₅, e₅, e⟩ := bind_ok e
      have r₅ := r₄.trans (append_ok e₅)
      cases e
      exact ⟨[sign, sign], [sign, sign], r₅,
        fun _ _ _ _ => Closed.append (Renders.same _)⟩
    | true =>
      obtain ⟨_, k₅, e₅, e⟩ := bind_ok e
      obtain ⟨-, r₅⟩ := skip_ok (h₄.1 rfl) hs e₅
      obtain ⟨_, k₆, e₆, e⟩ := bind_ok e
      obtain ⟨cs, hcs, r₆⟩ := surplusSigns_ok hs e₆
      cases e
      exact ⟨_, _, (r₄.trans r₅).trans r₆, closed_surplus hcs⟩

theorem longTurn_ok {k left : Cursor} {sign : Char} {surplus : Surplus}
    (hs : Unicode.isLineEnd sign = false) (s : Unit) (r : Turn Unit Unit)
    (e : longTurn sign surplus s k = .ok r left) :
    ∃ cs ws, k.Reads cs ws left ∧
      r.HandsOn (fun _ _ _ => Closed [sign, sign, sign]) s cs ws left := by
  rcases look_bind_ok e with ⟨k₁, r₁, hk, e⟩ | ⟨c, k₁, r₁, hc, e⟩
  · exact absurd e unexpectedEnd_ne_ok
  · dsimp only at e
    split at e
    · rename_i hb
      rw [beq_iff_eq] at hb
      rw [hb] at hc
      obtain ⟨_, k₂, e₂, e⟩ := bind_ok e
      obtain ⟨cs, ws, r₂, -, hr⟩ := decodeEscape_ok hc e₂
      cases e
      exact ⟨cs, ws, r₁.trans r₂, fun _ _ _ _ => Closed.append hr⟩
    · split at e
      · rename_i hb
        rw [beq_iff_eq] at hb
        rw [hb] at hc
        obtain ⟨cs, ws, r₂, hr⟩ := longSigns_ok hs hc r e
        exact ⟨cs, ws, r₁.trans r₂, hr⟩
      · split at e
        · rename_i hl
          obtain ⟨_, k₂, e₂, e⟩ := bind_ok e
          obtain ⟨cs, -, r₂⟩ := consumeLineEnd_ok hc hl e₂
          cases e
          exact ⟨_, _, r₁.trans r₂,
            fun _ _ _ _ => Closed.append (Renders.same _)⟩
        · rename_i hl
          obtain ⟨_, k₂, e₂, e⟩ := bind_ok e
          obtain ⟨-, r₂⟩ := consume_ok hc (by simpa using hl) e₂
          cases e
          exact ⟨[c], [c], r₁.trans r₂,
            fun _ _ _ _ => Closed.append (Renders.same _)⟩

theorem longBody_ok {k left : Cursor} {sign : Char} {surplus : Surplus}
    (hs : Unicode.isLineEnd sign = false) {u : Unit}
    (e : longBody sign surplus k = .ok u left) :
    ∃ cs ws, k.Reads cs ws left ∧ Closed [sign, sign, sign] cs ws :=
  iterate_ok (fun s _ r _ e => longTurn_ok hs s r e) e

end Scan

end TripleLex

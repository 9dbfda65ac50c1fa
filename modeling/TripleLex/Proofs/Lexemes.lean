import TripleLex.Proofs.Gathered

/-!
# Lexemes

A lexeme is the piece of a text that a token was made of. `Cursor.Lexed` says
that the next characters were read as one token, where it starts and ends and
where the cursor was left; `Cursor.Copied` says moreover that in a text without
backslashes nothing was lost: the characters are a spelling of the token
(`Kind.spellings`).

A scan completes a token (`Completes`) if whatever it makes of it is such a
lexeme, and finds one (`Finds`) if it passes over a gap first. This module has
the rules for both.

## Main results

* `emit_copied`, `emitAs_copied`, `emit_lexed` — a token is made of what it has
  come to.
* `finds_tokenHere` — what is found behind a gap.
-/

namespace TripleLex

namespace Kind

/-- The text between signs. -/
def enclosed (sign text : List Char) : List Char := sign ++ text ++ sign

/-- How a token of a kind may be spelled, if there are no escapes. -/
def spellings (kind : Kind) (text : List Char) : List (List Char) :=
  match kind with
  | uri => ['<' :: text ++ ['>']]
  | queryVariable => ['?' :: text, '$' :: text]
  | languageTag => ['@' :: text]
  | literal => [enclosed ['"'] text, enclosed ['\''] text]
  | longLiteral => [enclosed ['"', '"', '"'] text,
      enclosed ['\'', '\'', '\''] text]
  | _ => [text]

/-- Whether the kind is one of the two marks around all text. -/
def isMark (kind : Kind) : Bool := kind == beginning || kind == ending

/-- A kind whose tokens are spelled by their text alone. -/
def IsPlain (kind : Kind) : Prop := ∀ text, kind.spellings text = [text]

end Kind

namespace Cursor

/-! ## The relations -/

/-- From one cursor to another, `cs` were passed over; nothing is said of a
token. -/
structure Passes (k : Cursor) (cs : List Char) (left : Cursor) : Prop where
  ahead : k.ahead = cs ++ left.ahead
  here : left.here = (k.trail.along cs).here
  apart : (k.trail.along cs).Apart left.ahead

/-- From one cursor to another, `cs` were passed over, but that a dot may have
been given back. -/
structure Moves (k : Cursor) (cs : List Char) (left : Cursor) : Prop where
  ahead : ∃ rest, k.ahead = cs ++ rest ∧ Alike rest left.ahead
  here : left.here = (k.trail.along cs).here
  apart : (k.trail.along cs).Apart left.ahead

/-- The next characters `cs` were read as a token. -/
structure Lexed (k : Cursor) (cs : List Char) (t : Token) (left : Cursor) : Prop
    extends Moves k cs left where
  nonempty : cs ≠ []
  first : t.span.first = k.here
  within : 1 ≤ k.here.column →
    k.here.atMost t.span.last = true ∧ t.span.last.before left.here = true
  previous : left.previous = some t.kind
  inner : t.kind.isMark = false

/-- The next characters `cs` were read as a token, which they spell if there are
no escapes. -/
structure Copied (k : Cursor) (cs : List Char) (t : Token) (left : Cursor) :
    Prop
    extends Lexed k cs t left where
  copied : '\\' ∉ k.ahead → k.ahead = cs ++ left.ahead ∧
    cs ∈ t.kind.spellings t.text.toList

/-- A token was made of what it had come to. -/
structure Emitted (k : Cursor) (t : Token) (left : Cursor) : Prop where
  span : t.span = k.span
  ahead : left.ahead = k.ahead
  here : left.here = k.here
  previous : left.previous = some t.kind

theorem Passes.moves {k left : Cursor} {cs : List Char} (h : k.Passes cs left) :
    k.Moves cs left :=
  ⟨⟨left.ahead, h.ahead, Alike.same _⟩, h.here, h.apart⟩

theorem Reads.passes {k left : Cursor} {cs ws : List Char}
    (h : k.Reads cs ws left) :
    k.Passes cs left := ⟨h.ahead, h.here, h.apart⟩

theorem Reads.begun {k left : Cursor} (h : k.Reads [] [] left) (hb : k.Begun) :
    left.Begun :=
  ⟨h.written.trans hb.written, (h.start.trans hb.start).trans h.here.symm⟩

/-- What is written comes behind the text so far. -/
theorem Reads.value_append {k left : Cursor} {cs ws : List Char} (h : k.Reads cs ws left) :
    left.value = k.value ++ ws := by
  rw [Cursor.value, h.written, List.reverse_append, List.reverse_reverse, ← Cursor.value]

/-- What has been read since a token was begun is its text. -/
theorem Reads.value {k left : Cursor} {cs ws : List Char} (h : k.Reads cs ws left)
    (hb : k.Begun) : left.value = ws := by
  rw [Cursor.value, h.written, hb.written, List.append_nil, List.reverse_reverse]

theorem Passes.trans_nil {k mid left : Cursor} {cs : List Char}
    (h : k.Passes cs mid) (h' : mid.Reads [] [] left) : k.Passes cs left where
  ahead := by rw [h.ahead, h'.ahead_eq]
  here := h'.here.trans h.here
  apart := by
    rw [h'.ahead_eq]
    exact h.apart

theorem Held.value {k left : Cursor} {cs ws : List Char}
    (h : k.Held cs ws left) : left.value = ws := by
  unfold Cursor.value
  rw [h.written, List.reverse_reverse]

theorem Held.text {k left : Cursor} {cs ws : List Char}
    (h : k.Held cs ws left) :
    left.text.toList = ws := by
  unfold Cursor.text
  rw [h.value, String.toList_ofList]

theorem Held.lexed {k mid left : Cursor} {cs ws : List Char} {t : Token}
    (h : k.Held cs ws mid) (he : Emitted mid t left)
    (hm : t.kind.isMark = false) : k.Lexed cs t left where
  nonempty := h.nonempty
  ahead := by
    rw [he.ahead]
    exact h.ahead
  here := by rw [he.here, h.here]
  apart := by
    rw [he.ahead]
    exact h.apart
  first := by rw [he.span, span, Span.first_between, h.start]
  within hcol := by
    rw [he.span, span, Span.last_between, he.here]
    exact h.within hcol
  previous := he.previous
  inner := hm

theorem Held.copied {k mid left : Cursor} {cs ws : List Char} {t : Token}
    (h : k.Held cs ws mid) (he : Emitted mid t left)
    (hm : t.kind.isMark = false)
    (hs : '\\' ∉ k.ahead → cs ∈ t.kind.spellings t.text.toList) :
    k.Copied cs t left where
  toLexed := h.lexed he hm
  copied hn := ⟨by rw [he.ahead]; exact h.exact hn, hs hn⟩

end Cursor

namespace Scan

open Cursor

/-! ## Completing a token -/

/-- Whatever the scan makes at `k` of the token begun at `k₀` stands in the
relation. -/
def Completes (P : Cursor → List Char → Token → Cursor → Prop) (k₀ k : Cursor)
    (m : Scan Token) :
    Prop := ∀ t left, m k = .ok t left → ∃ cs, P k₀ cs t left

theorem Completes.lexed {k₀ k : Cursor} {m : Scan Token}
    (h : Completes Copied k₀ k m) :
    Completes Lexed k₀ k m := by
  intro t left e
  obtain ⟨cs, hcs⟩ := h t left e
  exact ⟨cs, hcs.toLexed⟩

section Failing

variable {P : Cursor → List Char → Token → Cursor → Prop} {k₀ k : Cursor}

theorem completes_violation (message : String) :
    Completes P k₀ k (violation message) := by
  intro t left e
  cases e

theorem completes_invalidForm (production value : String) :
    Completes P k₀ k (invalidForm production value) := by
  intro t left e
  cases e

theorem completes_unexpectedCharacter (c : Char) (expected : String) :
    Completes P k₀ k (unexpectedCharacter c expected) := by
  intro t left e
  cases e

theorem completes_unexpectedEnd (expected : String) :
    Completes P k₀ k (unexpectedEnd expected) :=
  fun _ _ e => absurd e unexpectedEnd_ne_ok

end Failing

section Emitting

variable {k₀ k : Cursor} {cs ws : List Char} {kind : Kind}

theorem emit_ok {t : Token} {left : Cursor} (e : emit kind k = .ok t left) :
    t.kind = kind ∧ t.text = k.text ∧ Emitted k t left := by
  cases e
  exact ⟨rfl, rfl, rfl, rfl, rfl, rfl⟩

theorem emitAs_ok {text : String} {t : Token} {left : Cursor}
    (e : emitAs kind text k = .ok t left) :
    t.kind = kind ∧ t.text = text ∧ Emitted k t left := by
  cases e
  exact ⟨rfl, rfl, rfl, rfl, rfl, rfl⟩

theorem emitBare_ok {t : Token} {left : Cursor}
    (e : emitBare kind k = .ok t left) :
    t.kind = kind ∧ Emitted k t left := by
  cases e
  exact ⟨rfl, rfl, rfl, rfl, rfl⟩

theorem emit_copied (h : k₀.Held cs ws k) (hm : kind.isMark = false)
    (hs : '\\' ∉ k₀.ahead → cs ∈ kind.spellings ws) :
    Completes Copied k₀ k (emit kind) := by
  intro t left e
  obtain ⟨hk, ht, he⟩ := emit_ok e
  refine ⟨cs, h.copied he (by rw [hk, hm]) ?_⟩
  rw [hk, ht, h.text]
  exact hs

/-- A token spelled by its text, which is what was read. -/
theorem emit_plain (h : k₀.Held cs ws k) (hp : kind.IsPlain)
    (hm : kind.isMark = false) (hs : '\\' ∉ k₀.ahead → ws = cs) :
    Completes Copied k₀ k (emit kind) := by
  refine emit_copied h hm ?_
  intro hn
  rw [hp, hs hn]
  exact List.mem_singleton_self _

theorem emitAs_copied {text : String} (h : k₀.Held cs ws k)
    (hm : kind.isMark = false)
    (hs : '\\' ∉ k₀.ahead → cs ∈ kind.spellings text.toList) :
    Completes Copied k₀ k (emitAs kind text) := by
  intro t left e
  obtain ⟨hk, ht, he⟩ := emitAs_ok e
  refine ⟨cs, h.copied he (by rw [hk, hm]) ?_⟩
  rw [hk, ht]
  exact hs

theorem emit_lexed (h : k₀.Held cs ws k) (hm : kind.isMark = false) :
    Completes Lexed k₀ k (emit kind) := by
  intro t left e
  obtain ⟨hk, -, he⟩ := emit_ok e
  exact ⟨cs, h.lexed he (by rw [hk, hm])⟩

theorem emitAs_lexed {text : String} (h : k₀.Held cs ws k)
    (hm : kind.isMark = false) :
    Completes Lexed k₀ k (emitAs kind text) := by
  intro t left e
  obtain ⟨hk, -, he⟩ := emitAs_ok e
  exact ⟨cs, h.lexed he (by rw [hk, hm])⟩

theorem emitBare_lexed (h : k₀.Held cs ws k) (hm : kind.isMark = false) :
    Completes Lexed k₀ k (emitBare kind) := by
  intro t left e
  obtain ⟨hk, he⟩ := emitBare_ok e
  exact ⟨cs, h.lexed he (by rw [hk, hm])⟩

end Emitting

/-! ## Where a token begins -/

/-- The token after all text was made, as nothing was left. -/
structure Ends (k : Cursor) (t : Token) (left : Cursor) : Prop where
  nothing : k.ahead = []
  ahead : left.ahead = []
  here : left.here = k.here
  token : t = ⟨.ending, "", Span.point k.here⟩
  previous : left.previous = some .ending

/-- What the scan makes at `k` comes after a gap: a run of characters of the
class. After it there is either nothing, or a token begins there, in the
relation. -/
def Finds (P : Cursor → List Char → Token → Cursor → Prop) (p : Char → Bool)
    (k : Cursor) (m : Scan Token) : Prop :=
  ∀ t left, m k = .ok t left → ∃ mid, k.Passes (k.ahead.takeWhile p) mid ∧
    (Ends mid t left ∨ ∃ cs, P mid cs t left)

theorem Finds.lexed {p : Char → Bool} {k : Cursor} {m : Scan Token}
    (h : Finds Copied p k m) :
    Finds Lexed p k m := by
  intro t left e
  obtain ⟨mid, hp, h⟩ := h t left e
  rcases h with h | ⟨cs, h⟩
  · exact ⟨mid, hp, Or.inl h⟩
  · exact ⟨mid, hp, Or.inr ⟨cs, h.toLexed⟩⟩

theorem startToken_ok {k left : Cursor} {u : Unit}
    (e : startToken k = .ok u left) :
    left = k.fresh := by
  cases e
  rfl

/-- A new token begins where blank characters end. -/
theorem discardBlank_ok {k left : Cursor} {u : Unit}
    (e : discardBlank k = .ok u left) :
    k.Passes (k.ahead.takeWhile Unicode.isBlank) left ∧ left.Begun := by
  obtain ⟨_, k₁, e₁, e⟩ := bind_ok e
  have r := blanks_ok e₁
  rw [startToken_ok e]
  exact ⟨⟨r.ahead, r.here, r.apart⟩, begun_fresh k₁⟩

theorem failIfBroken_ok {k left : Cursor} {u : Unit}
    (e : failIfBroken k = .ok u left) :
    k.Reads [] [] left := by
  rw [(eq_of_failIfBroken e).1]
  exact Reads.refl k

theorem ending_ok {k left : Cursor} {expected : String} {t : Token}
    (h : k.ahead = []) (e : ending expected k = .ok t left) :
    Ends k t left := by
  have e := get_bind_ok e
  split at e
  · obtain ⟨_, k₁, e₁, e⟩ := bind_ok e
    have r₁ := failIfBroken_ok e₁
    have hh : k₁.here = k.here := r₁.here
    cases e
    refine ⟨h, r₁.ahead_eq.trans h, hh, ?_, rfl⟩
    rw [← hh]
    rfl
  · exact absurd e unexpectedEnd_ne_ok

/-- The token behind a gap is one after all text or one that its first character
begins. -/
theorem finds_tokenHere {P : Cursor → List Char → Token → Cursor → Prop}
    {p : Char → Bool} {k mid : Cursor} {dispatch : Char → Scan Token}
    (hp : k.Passes (k.ahead.takeWhile p) mid) (hb : mid.Begun)
    (h : ∀ c k', k'.Begun → k'.ahead.head? = some c → Completes P k' k' (dispatch c))
    {t : Token} {left : Cursor} (e : tokenHere dispatch mid = .ok t left) :
    ∃ mid, k.Passes (k.ahead.takeWhile p) mid ∧
    (Ends mid t left ∨ ∃ cs, P mid cs t left) := by
  rcases look_bind_ok e with ⟨k₁, r₁, hk, e⟩ | ⟨c, k₁, r₁, hc, e⟩
  · exact ⟨k₁, hp.trans_nil r₁, Or.inl (ending_ok hk e)⟩
  · exact ⟨k₁, hp.trans_nil r₁, Or.inr (h c k₁ (r₁.begun hb) hc t left e)⟩

/-- Blank characters are passed over, and then a token begins with its first
character. -/
theorem finds_blankThen {P : Cursor → List Char → Token → Cursor → Prop}
    {k : Cursor} {dispatch : Char → Scan Token}
    (h : ∀ c k', k'.Begun → k'.ahead.head? = some c → Completes P k' k' (dispatch c)) :
    Finds P Unicode.isBlank k (do discardBlank; tokenHere dispatch) := by
  intro t left e
  obtain ⟨_, k₁, e₁, e⟩ := bind_ok e
  obtain ⟨hp, hb⟩ := discardBlank_ok e₁
  exact finds_tokenHere hp hb h e

end Scan

end TripleLex

import TripleLex.Lexer
import TripleLex.Proofs.Mirrors

/-!
# Texts with other line ends

A text whose lines end in line feeds may be spelled with carriage returns, alone or
before the line feeds. A scan `Respells` if, wherever it succeeds on the first text,
it does so on the other one as well, in the same place and with the same value: it
takes line ends in one piece, or goes on before them without looking which one it is.

The text of a token is the same as long as no line end was kept in it, and otherwise
respelled like the source. Behind an escape that is no longer so, since a line end
that was decoded is not in the source.

Most scans take a character at a time and must not stand before a line end when they
do; a scan that is asked for at such places only is marked as within its line.

## Main results

* `Respells.bind`, `Respells.look`, `respells_iterate` — the rules.
* `respells_consumeLineEnd` — where line ends are taken.
-/

namespace TripleLex

/-! ## Two texts -/

/-- How lines may end, if not in a line feed. -/
inductive LineEnding where
  | carriageReturn
  /-- A carriage return and a line feed. -/
  | both
  deriving DecidableEq, Repr

namespace LineEnding

variable (e : LineEnding)

/-- The characters that end a line. -/
def chars : LineEnding → List Char
  | carriageReturn => ['\r']
  | both => ['\r', '\n']

/-- The text with every line feed replaced. -/
def respell (cs : List Char) : List Char :=
  cs.flatMap fun c => if c == '\n' then e.chars else [c]

theorem respell_append (cs ds : List Char) :
    e.respell (cs ++ ds) = e.respell cs ++ e.respell ds :=
  List.flatMap_append

theorem respell_cons {c : Char} (h : c ≠ '\n') (cs : List Char) :
    e.respell (c :: cs) = c :: e.respell cs := by
  rw [respell, List.flatMap_cons, if_neg (by simpa using h)]
  rfl

theorem respell_lineFeed (cs : List Char) :
    e.respell ('\n' :: cs) = e.chars ++ e.respell cs :=
  rfl

theorem respell_of_inline {cs : List Char} (h : Inline cs) : e.respell cs = cs := by
  induction cs with
  | nil => rfl
  | cons c cs ih =>
    have hc : c ≠ '\n' := by
      rintro rfl
      cases h '\n' List.mem_cons_self
    rw [respell_cons e hc, ih fun d hd => h d (List.mem_cons_of_mem c hd)]

/-- What comes next is the same but for a line end. -/
theorem head?_respell (cs : List Char) :
    (e.respell cs).head? = cs.head?.map fun c => if c == '\n' then '\r' else c := by
  cases cs with
  | nil => rfl
  | cons c cs =>
    by_cases h : c = '\n'
    · subst h
      cases e <;> rfl
    · rw [respell_cons e h]
      simp [h]

/-- A run that stops at line ends is the same in both texts. -/
theorem takeWhile_respell {p : Char → Bool} (hn : p '\n' = false) (hr : p '\r' = false)
    (cs : List Char) : (e.respell cs).takeWhile p = cs.takeWhile p := by
  induction cs with
  | nil => rfl
  | cons c cs ih =>
    by_cases h : c = '\n'
    · subst h
      rw [List.takeWhile_cons_of_neg (by simp [hn])]
      cases e <;> simp [respell_lineFeed, chars, hr]
    · rw [respell_cons e h, List.takeWhile_cons, List.takeWhile_cons, ih]

end LineEnding

/-- How a text is respelled. -/
structure Respelling where
  ending : LineEnding
  /-- Whether the text may hold escapes. -/
  escapes : Bool
  deriving DecidableEq, Repr

/-- How much of the text of a token may have been respelled. -/
inductive Script where
  /-- Nothing, as no line end was kept. -/
  | copied
  /-- Its line ends. -/
  | respelled
  deriving DecidableEq, Repr

namespace Script

variable {x : Respelling} {w : Script} {ws ws' : List Char}

/-- The text of a token, last character first, in both texts. -/
def Relates (x : Respelling) : Script → List Char → List Char → Prop
  | copied, ws, ws' => ws' = ws ∧ (x.escapes = false → Inline ws)
  | respelled, ws, ws' => x.escapes = false → ws'.reverse = x.ending.respell ws.reverse

theorem Relates.respelled (h : w.Relates x ws ws') : Script.respelled.Relates x ws ws' := by
  cases w with
  | copied =>
    obtain ⟨rfl, hinline⟩ := h
    intro hx
    rw [x.ending.respell_of_inline fun c hc => hinline hx c (List.mem_reverse.1 hc)]
  | respelled => exact h

/-- Adding to both what is respelled in the same way. -/
theorem relates_append {cs cs' : List Char} (h : Script.respelled.Relates x ws ws')
    (hcs : x.escapes = false → cs' = x.ending.respell cs) :
    Script.respelled.Relates x (cs.reverse ++ ws) (cs'.reverse ++ ws') := by
  intro hx
  rw [List.reverse_append, List.reverse_append, List.reverse_reverse, List.reverse_reverse, h hx,
    hcs hx, x.ending.respell_append]

/-- Adding the same to both. -/
theorem Relates.append {cs : List Char} (h : w.Relates x ws ws')
    (hcs : x.escapes = false → Inline cs) : w.Relates x (cs.reverse ++ ws) (cs.reverse ++ ws') := by
  cases w with
  | copied =>
    obtain ⟨rfl, hinline⟩ := h
    refine ⟨rfl, fun hx => Inline.append (fun c hc => ?_) (hinline hx)⟩
    exact hcs hx c (List.mem_reverse.1 hc)
  | respelled => exact relates_append h fun hx => (x.ending.respell_of_inline (hcs hx)).symm

theorem relates_nil : w.Relates x [] [] := by
  cases w with
  | copied => exact ⟨rfl, fun _ => inline_nil⟩
  | respelled => exact fun _ => rfl

end Script

/-- The token of the first text, as the other one has it. -/
structure Token.Respelled (x : Respelling) (t t' : Token) : Prop where
  kind : t'.kind = t.kind
  span : t'.span = t.span
  text : x.escapes = false → t'.text.toList = x.ending.respell t.text.toList
  /-- What is remembered of texts is on one line. -/
  declared : t.kind = .keywordDefinition → t'.text = t.text

/-- The token is the same, and its text is on one line. -/
def Token.Unchanged (x : Respelling) (t t' : Token) : Prop :=
  t' = t ∧ (x.escapes = false → Inline t.text.toList)

theorem Token.respelled_self {x : Respelling} {t : Token}
    (h : x.escapes = false → Inline t.text.toList) : t.Respelled x t where
  kind := rfl
  span := rfl
  text hx := (x.ending.respell_of_inline (h hx)).symm
  declared _ := rfl

theorem Token.Unchanged.respelled {x : Respelling} {t t' : Token} (h : t.Unchanged x t') :
    t.Respelled x t' := by
  obtain ⟨rfl, hinline⟩ := h
  exact respelled_self hinline

/-! ## Two cursors -/

namespace Cursor

variable {x : Respelling} {w w' : Script} {k k' left left' : Cursor}

/-- Two cursors stand alike, as far as it is not about what they read. -/
structure Abeam (k k' : Cursor) : Prop where
  pending : k'.pending = k.pending
  here : k'.here = k.here
  start : k'.start = k.start
  last : k'.last = k.last
  previous : k'.previous = k.previous

theorem Abeam.span (h : Abeam k k') : k'.span = k.span := by
  rw [Cursor.span, Cursor.span, h.start, h.last]

theorem Abeam.rewritten (h : Abeam k k') (ws ws' : List Char) :
    Abeam { k with written := ws } { k' with written := ws' } :=
  ⟨h.pending, h.here, h.start, h.last, h.previous⟩

/-- Two cursors stand at the same place of a text and of the respelled one. -/
structure Respelled (x : Respelling) (w : Script) (k k' : Cursor) : Prop where
  ahead : k'.ahead = x.ending.respell k.ahead
  returns : '\r' ∉ k.ahead
  backslashes : x.escapes = false → '\\' ∉ k.ahead
  written : w.Relates x k.written k'.written
  abeam : Abeam k k'
  whole : k.source.IsWhole
  whole' : k'.source.IsWhole

/-- No line end comes next. -/
def WithinLine (k : Cursor) : Prop := ∀ c, k.ahead.head? = some c → Unicode.isLineEnd c = false

namespace Respelled

theorem script (h : k.Respelled x w k') (hw : w'.Relates x k.written k'.written) :
    k.Respelled x w' k' :=
  { h with written := hw }

theorem withinLine (h : k.Respelled x w k') (hn : k.ahead.head? ≠ some '\n') : k.WithinLine := by
  intro c hc
  rw [Unicode.isLineEnd, Bool.or_eq_false_iff, beq_eq_false_iff_ne, beq_eq_false_iff_ne]
  constructor
  · rintro rfl
    exact hn hc
  · rintro rfl
    exact h.returns (List.mem_of_head? hc)

/-- A line end comes next in both texts, or the same character. -/
theorem head?_cases (h : k.Respelled x w k') :
    (k.WithinLine ∧ k'.ahead.head? = k.ahead.head?) ∨
      (k.ahead.head? = some '\n' ∧ k'.ahead.head? = some '\r') := by
  by_cases hn : k.ahead.head? = some '\n'
  · refine Or.inr ⟨hn, ?_⟩
    rw [h.ahead, x.ending.head?_respell, hn]
    rfl
  · refine Or.inl ⟨h.withinLine hn, ?_⟩
    rw [h.ahead, x.ending.head?_respell]
    cases hc : k.ahead.head? with
    | none => rfl
    | some c =>
      rw [hc] at hn
      have hne : c ≠ '\n' := fun he => hn (congrArg some he)
      simp [hne]

/-- Nothing is read. -/
theorem of_ahead (h : k.Respelled x w k') (ha : left.ahead = k.ahead) (ha' : left'.ahead = k'.ahead)
    (hw : w'.Relates x left.written left'.written) (hl : Abeam left left')
    (hs : left.source.IsWhole) (hs' : left'.source.IsWhole) : left.Respelled x w' left' where
  ahead := by rw [ha, ha', h.ahead]
  returns := by
    rw [ha]
    exact h.returns
  backslashes := by
    rw [ha]
    exact h.backslashes
  written := hw
  abeam := hl
  whole := hs
  whole' := hs'

theorem looked (h : k.Respelled x w k') : k.looked.Respelled x w k'.looked := by
  have hsame := k.same_looked
  have hsame' := k'.same_looked
  refine h.of_ahead k.ahead_looked k'.ahead_looked ?_ ⟨?_, ?_, ?_, ?_, ?_⟩
    (whole_looked h.whole) (whole_looked h.whole')
  · rw [hsame.written, hsame'.written]
    exact h.written
  · rw [pending_looked, pending_looked, h.abeam.pending]
  · rw [hsame.here, hsame'.here, h.abeam.here]
  · rw [hsame.start, hsame'.start, h.abeam.start]
  · rw [hsame.last, hsame'.last, h.abeam.last]
  · rw [hsame.previous, hsame'.previous, h.abeam.previous]

/-- Both cursors have moved over a character, each over its own. -/
theorem abeam_moved (h : Abeam k k') {c c' : Char} (hc : k.here.after c' = k.here.after c) :
    Abeam (k.moved c) (k'.moved c') where
  pending := (pending_taken k').trans (pending_taken k).symm
  here := (congrArg (Position.after · c') h.here).trans hc
  start := by
    have hs : k'.taken.start = k.taken.start := by
      rw [k.same_taken.start, k'.same_taken.start, h.start]
    exact hs
  last := h.here
  previous := by
    have hp : k'.taken.previous = k.taken.previous := by
      rw [k.same_taken.previous, k'.same_taken.previous, h.previous]
    exact hp

/-- A character that ends no line is ahead of both. -/
theorem ahead_cons (h : k.Respelled x w k') (hl : k.WithinLine) {c : Char} {cs : List Char}
    (hk : k.ahead = c :: cs) :
    k'.ahead = c :: x.ending.respell cs := by
  have hc := hl c (by rw [hk]; rfl)
  have hne : c ≠ '\n' := by
    rintro rfl
    cases hc
  rw [h.ahead, hk, x.ending.respell_cons hne]

/-- A character that ends no line is taken from both. -/
theorem moved (h : k.Respelled x w k') (hl : k.WithinLine) {c : Char} {cs : List Char}
    (hk : k.ahead = c :: cs) : (k.moved c).Respelled x w (k'.moved c) where
  ahead := by rw [ahead_moved, ahead_moved, h.ahead_cons hl hk, hk, List.tail_cons, List.tail_cons]
  returns := by
    rw [ahead_moved]
    exact fun hm => h.returns (List.mem_of_mem_tail hm)
  backslashes hx := by
    rw [ahead_moved]
    exact fun hm => h.backslashes hx (List.mem_of_mem_tail hm)
  written := by
    have hw : w.Relates x k.taken.written k'.taken.written := by
      rw [k.same_taken.written, k'.same_taken.written]
      exact h.written
    exact hw
  abeam := abeam_moved h.abeam rfl
  whole := whole_taken h.whole
  whole' := whole_taken h.whole'

/-- Adding the same to the token. -/
theorem append (h : k.Respelled x w k') {cs : List Char} (hcs : x.escapes = false → Inline cs) :
    Respelled x w { k with written := cs.reverse ++ k.written }
      { k' with written := cs.reverse ++ k'.written } :=
  h.of_ahead rfl rfl (h.written.append hcs) (h.abeam.rewritten _ _) h.whole h.whole'

/-- A token of a kind has been made of both texts. -/
theorem made (h : k.Respelled x w k') (kind : Kind) {ws ws' : List Char}
    (hw : w'.Relates x ws ws') :
    Respelled x w' { k with written := ws, previous := some kind }
      { k' with written := ws', previous := some kind } :=
  h.of_ahead rfl rfl hw
    ⟨h.abeam.pending, h.abeam.here, h.abeam.start, h.abeam.last, rfl⟩ h.whole h.whole'

theorem fresh (h : k.Respelled x w k') : k.fresh.Respelled x w' k'.fresh :=
  h.of_ahead rfl rfl Script.relates_nil
    ⟨h.abeam.pending, h.abeam.here, h.abeam.here, h.abeam.here, h.abeam.previous⟩ h.whole
    h.whole'

/-- A dot is given back to both texts. -/
theorem givenBack (h : k.Respelled x .copied k') {written : List Char} (hp : k.pending = none)
    (hw : k.written = '.' :: written) :
    (k.givenBack '.' written).Respelled x .copied (k'.givenBack '.' written) := by
  have ha := h.abeam
  have hk := ahead_givenBack hp '.' written
  constructor
  · rw [ahead_givenBack (ha.pending.trans hp), hk, h.ahead, x.ending.respell_cons (by decide)]
  · rw [hk]
    simpa using h.returns
  · intro hx
    rw [hk]
    simpa using h.backslashes hx
  · refine ⟨rfl, fun hx d hd => h.written.2 hx d ?_⟩
    rw [hw]
    exact List.mem_cons_of_mem _ hd
  · refine ⟨rfl, ha.last, ha.start, ?_, ha.previous⟩
    show (if _ then k'.start else _) = if _ then k.start else _
    rw [ha.start, ha.last]
  · exact h.whole
  · exact h.whole'

end Respelled

end Cursor

namespace Scan

open Cursor (WithinLine)

/-! ## The judgement -/

/-- Where the scan succeeds, it does so in the respelled text as well, with a value
that `R` relates to the first; the scripts say how much of the text of the token may
differ before and after it. If it is marked as `within` its line, it is asked only
before characters that end no line. -/
class Respells (x : Respelling) (w w' : Script) (within : Bool) {α : Type}
    (R : α → α → Prop) (m : Scan α) : Prop where
  respelled : ∀ {k k' left : Cursor} {a : α}, k.Respelled x w k' →
    (within = true → k.WithinLine) → m k = .ok a left →
    ∃ a' left', m k' = .ok a' left' ∧ R a a' ∧ left.Respelled x w' left'

section Rules

variable {x : Respelling} {w w' v : Script} {b : Bool} {α β σ : Type} {R : α → α → Prop}

/-- A scan that fails has nothing to respell. -/
theorem respells_fails {m : Scan α} (h : ∀ k, Makes Never k m) : Respells x w w' b R m where
  respelled _ _ e := (h _ _ _ e).elim

theorem Respells.mono {S : α → α → Prop} {m : Scan α} (h : Respells x w w' b R m)
    (hS : ∀ a a', R a a' → S a a') : Respells x w w' b S m where
  respelled hk hl e := by
    obtain ⟨a', left', e', hr, hleft⟩ := h.respelled hk hl e
    exact ⟨a', left', e', hS _ _ hr, hleft⟩

theorem respells_return {a : α} (h : R a a) : Respells x w w b R (pure a) where
  respelled hk _ e := by
    cases e
    exact ⟨a, _, rfl, h, hk⟩

instance respells_pure (a : α) : Respells x w w b Eq (pure a : Scan α) := respells_return rfl

/-- A scan that goes on in a token with line ends also goes on in one without. -/
theorem Respells.rewritten {m : Scan α} (h : Respells x .respelled w' b R m) :
    Respells x .copied w' b R m where
  respelled hk hl e := h.respelled (hk.script hk.written.respelled) hl e

/-- A scan that is asked for anywhere. -/
theorem Respells.anywhere {m : Scan α} (h : Respells x w w' false R m) {k k' left : Cursor} {a : α}
    (hk : k.Respelled x w k') (e : m k = .ok a left) :
    ∃ a' left', m k' = .ok a' left' ∧ R a a' ∧ left.Respelled x w' left' :=
  h.respelled hk (fun hn => absurd hn Bool.false_ne_true) e

/-- What follows may know something of the value that it goes on with. -/
theorem Respells.bind_value {K : β → Prop} {m : Scan β} {f : β → Scan α}
    (h : Respells x w v b Eq m)
    (hK : ∀ {k k' left : Cursor} {a : β}, k.Respelled x w k' → (b = true → k.WithinLine) →
      m k = .ok a left → K a)
    (g : ∀ a, K a → Respells x v w' false R (f a)) : Respells x w w' b R (m >>= f) where
  respelled hr hl e := by
    obtain ⟨a, mid, e₁, e₂⟩ := bind_ok e
    obtain ⟨_, mid', e₁', rfl, hmid⟩ := h.respelled hr hl e₁
    obtain ⟨a', left', e₂', hR, hleft⟩ := (g a (hK hr hl e₁)).anywhere hmid e₂
    exact ⟨a', left', (bind_eq e₁').trans e₂', hR, hleft⟩

/-- What follows stands where no line end comes next. -/
theorem Respells.bind_within {m : Scan β} {f : β → Scan α} (h : Respells x w v b Eq m)
    (hin : ∀ {k left : Cursor} {a : β}, (b = true → k.WithinLine) → m k = .ok a left →
      left.WithinLine)
    (g : ∀ a, Respells x v w' true R (f a)) : Respells x w w' b R (m >>= f) where
  respelled hr hl e := by
    obtain ⟨a, mid, e₁, e₂⟩ := bind_ok e
    obtain ⟨_, mid', e₁', rfl, hmid⟩ := h.respelled hr hl e₁
    obtain ⟨a', left', e₂', hR, hleft⟩ := (g a).respelled hmid (fun _ => hin hl e₁) e₂
    exact ⟨a', left', (bind_eq e₁').trans e₂', hR, hleft⟩

/-- The values are the same, with something known of them. -/
theorem Respells.bind_given {K : β → Prop} {m : Scan β} {f : β → Scan α}
    (h : Respells x w v b (fun a a' => a' = a ∧ K a) m)
    (g : ∀ a, K a → Respells x v w' false R (f a)) : Respells x w w' b R (m >>= f) where
  respelled hr hl e := by
    obtain ⟨a, mid, e₁, e₂⟩ := bind_ok e
    obtain ⟨_, mid', e₁', ⟨rfl, hK⟩, hmid⟩ := h.respelled hr hl e₁
    obtain ⟨a', left', e₂', hR, hleft⟩ := (g _ hK).anywhere hmid e₂
    exact ⟨a', left', (bind_eq e₁').trans e₂', hR, hleft⟩

theorem Respells.bind {m : Scan β} {f : β → Scan α} (h : Respells x w v b Eq m)
    (g : ∀ a, Respells x v w' false R (f a)) : Respells x w w' b R (m >>= f) :=
  h.bind_value (K := fun _ => True) (fun _ _ _ => trivial) fun a _ => g a

instance respells_bind (m : Scan β) (f : β → Scan α) [h : Respells x w w b Eq m]
    [g : ∀ a, Respells x w w' false R (f a)] : Respells x w w' b R (m >>= f) :=
  h.bind g

instance respells_ite (c : Prop) [Decidable c] (m n : Scan α) [Respells x w w' b R m]
    [Respells x w w' b R n] : Respells x w w' b R (if c then m else n) := by
  split <;> infer_instance

/-- What is asked of a cursor is about its token, which is on one line so far, and the
token before. -/
theorem respells_get {f : Cursor → Scan α}
    (hf : ∀ k k' : Cursor, k'.written = k.written → k'.previous = k.previous → f k' = f k)
    (h : ∀ k : Cursor, (x.escapes = false → Inline k.written) →
      Respells x .copied w' b R (f k)) :
    Respells x .copied w' b R (get >>= f) where
  respelled {k k' _ _} hk hl e := by
    obtain ⟨a', left', e', hleft⟩ := (h k hk.written.2).respelled hk hl (get_bind_ok e)
    refine ⟨a', left', ?_, hleft⟩
    rw [get_bind, hf k k' hk.written.1 hk.abeam.previous]
    exact e'

/-- Looking, where a line end may come next. -/
theorem Respells.look {f : Option Char → Scan α} (hnone : Respells x w w' true R (f none))
    (hsome : ∀ c, Respells x w w' true R (f (some c)))
    (hend : (∀ k, Makes Never k (f (some '\n'))) ∨
      (f (some '\r') = f (some '\n') ∧ Respells x w w' false R (f (some '\n')))) :
    Respells x w w' b R (Scan.look >>= f) where
  respelled {k k' left a} hk _ e := by
    rw [bind_eq (look_eq k)] at e
    rw [bind_eq (look_eq k')]
    rcases hk.head?_cases with ⟨hl, heq⟩ | ⟨hn, hr⟩
    · have hall : Respells x w w' true R (f k.ahead.head?) := by
        cases k.ahead.head? with
        | none => exact hnone
        | some c => exact hsome c
      rw [heq]
      refine hall.respelled hk.looked (fun _ c hc => hl c ?_) e
      rwa [k.ahead_looked] at hc
    · rw [hn] at e
      rw [hr]
      rcases hend with hfails | ⟨heq, hend⟩
      · exact (hfails _ _ _ e).elim
      · rw [heq]
        exact hend.anywhere hk.looked e

/-- Looking within a line. -/
theorem Respells.look_within {f : Option Char → Scan α} (h : ∀ d, Respells x w w' true R (f d)) :
    Respells x w w' true R (Scan.look >>= f) where
  respelled {k k' left a} hk hl e := by
    rw [bind_eq (look_eq k)] at e
    rw [bind_eq (look_eq k')]
    have hin := hl rfl
    rcases hk.head?_cases with ⟨-, heq⟩ | ⟨hn, -⟩
    · rw [heq]
      refine (h _).respelled hk.looked (fun _ c hc => hin c ?_) e
      rwa [k.ahead_looked] at hc
    · cases hin _ hn

/-- Looking for a character that ends no line. -/
theorem Respells.nextIs {c : Char} {f : Bool → Scan α} (hc : Unicode.isLineEnd c = false)
    (htrue : Respells x w w' true R (f true)) (hfalse : Respells x w w' b R (f false)) :
    Respells x w w' b R (Scan.nextIs c >>= f) where
  respelled {k k' left a} hk hl e := by
    rw [bind_eq (nextIs_eq c k)] at e
    rw [bind_eq (nextIs_eq c k')]
    have hsame : (k'.ahead.head? == some c) = (k.ahead.head? == some c) := by
      rcases hk.head?_cases with ⟨-, heq⟩ | ⟨hn, hr⟩
      · rw [heq]
      · have hne : ∀ d, Unicode.isLineEnd d = true → (some d == some c) = false := by
          intro d hd
          rw [beq_eq_false_iff_ne]
          rintro ⟨⟩
          rw [hc] at hd
          cases hd
        rw [hn, hr, hne _ rfl, hne _ rfl]
    have hin : k.WithinLine → k.looked.WithinLine := fun hin d hd =>
      hin d (by rwa [k.ahead_looked] at hd)
    rw [hsame]
    cases hfound : k.ahead.head? == some c with
    | true =>
      rw [hfound] at e
      refine htrue.respelled hk.looked (fun _ d hd => ?_) e
      rw [k.ahead_looked, beq_iff_eq.1 hfound] at hd
      cases hd
      exact hc
    | false =>
      rw [hfound] at e
      exact hfalse.respelled hk.looked (fun hb => hin (hl hb)) e

/-- A repetition of turns; every turn but the last leaves less ahead. -/
instance respells_iterate (turn : σ → Scan (Turn σ α)) (h : ∀ s, Advances (turn s))
    [ht : ∀ s, Respells x w w false Eq (turn s)] (s : σ) :
    Respells x w w b Eq (iterate turn h s) where
  respelled {k k' left a} hk hl e := by
    clear hl
    generalize hn : k.ahead.length = n
    induction n using Nat.strongRecOn generalizing s k k' with
    | ind n ih =>
      rcases iterate_cases e with e₁ | ⟨s', mid, e₁, e₂⟩
      · obtain ⟨_, left', e₁', rfl, hleft⟩ := (ht s).anywhere hk e₁
        refine ⟨a, left', ?_, rfl, hleft⟩
        rw [iterate_eq, bind_eq e₁']
        rfl
      · have hlt := (h s k _ mid e₁).2 trivial
        obtain ⟨_, mid', e₁', rfl, hmid⟩ := (ht s).anywhere hk e₁
        obtain ⟨_, left', e₂', rfl, hleft⟩ := ih mid.ahead.length (by omega) s' hmid e₂ rfl
        refine ⟨_, left', ?_, rfl, hleft⟩
        rw [iterate_eq, bind_eq e₁']
        exact e₂'

end Rules

/-! ## Single steps -/

section Steps

variable {x : Respelling} {w w' : Script} {b : Bool} {α : Type} {R : α → α → Prop}

instance respells_violation (message : String) :
    Respells x w w' b R (violation message : Scan α) :=
  respells_fails fun _ => makes_violation _

instance respells_invalidForm (production value : String) :
    Respells x w w' b R (invalidForm production value : Scan α) :=
  respells_fails fun _ => makes_invalidForm _ _

instance respells_unexpectedCharacter (found : Char) (expected : String) :
    Respells x w w' b R (unexpectedCharacter found expected : Scan α) :=
  respells_fails fun _ => makes_unexpectedCharacter _ _

instance respells_unexpectedToken (expected : String) (found : Token) :
    Respells x w w' b R (unexpectedToken expected found : Scan α) :=
  respells_fails fun _ => makes_unexpectedToken _ _

instance respells_unexpectedEnd (expected : String) :
    Respells x w w' b R (unexpectedEnd expected : Scan α) :=
  respells_fails fun _ => makes_unexpectedEnd _

instance respells_unexpectedNext (expected : String) :
    Respells x w w' b R (do unexpectedCharacter (← nextOrEnd) expected : Scan α) :=
  respells_fails fun _ => makes_unexpectedNext _

theorem fails_unexpectedLineEnd (expected : String) (k : Cursor) :
    Makes Never k (unexpectedLineEnd expected : Scan α) :=
  fun _ _ e => nomatch e

instance respells_unexpectedLineEnd (expected : String) :
    Respells x w w' b R (unexpectedLineEnd expected : Scan α) :=
  respells_fails fun _ => fails_unexpectedLineEnd _ _

theorem fails_malformedEscape (message : String) (k : Cursor) :
    Makes Never k (malformedEscape message : Scan α) :=
  fun _ _ e => nomatch e

instance respells_malformedEscape (message : String) :
    Respells x w w' b R (malformedEscape message : Scan α) :=
  respells_fails fun _ => fails_malformedEscape _ _

instance respells_malformedUnicodeEscape (message : String) :
    Respells x w w' b R (malformedUnicodeEscape message : Scan α) :=
  respells_fails fun _ _ _ e => nomatch e

instance respells_misuse (message : String) : Respells x w w' b R (misuse message : Scan α) :=
  respells_fails fun _ _ _ e => nomatch e

theorem skip_withinLine {k left : Cursor} {c : Char} (hl : k.WithinLine)
    (e : skip k = .ok c left) : Unicode.isLineEnd c = false := by
  cases hk : k.ahead with
  | nil => exact absurd e (skip_nil hk)
  | cons d cs =>
    rw [skip_cons hk] at e
    cases e
    exact hl c (by rw [hk]; rfl)

instance respells_skip : Respells x w w true Eq skip where
  respelled {k k' left c} hk hl e := by
    cases h : k.ahead with
    | nil => exact absurd e (skip_nil h)
    | cons d cs =>
      rw [skip_cons h] at e
      cases e
      exact ⟨c, _, skip_cons (hk.ahead_cons (hl rfl) h), rfl, hk.moved (hl rfl) h⟩

theorem respells_append {cs : List Char} (h : x.escapes = false → Inline cs) :
    Respells x w w b Eq (append cs) where
  respelled hk _ e := by
    cases e
    exact ⟨(), _, rfl, rfl, hk.append h⟩

theorem respells_push {c : Char} (h : x.escapes = false → Unicode.isLineEnd c = false) :
    Respells x w w b Eq (push c) := by
  have hone : x.escapes = false → Inline [c] := fun hx => inline_singleton (h hx)
  exact respells_append hone

instance respells_consume : Respells x w w true Eq consume := by
  rw [consume_eq]
  refine respells_skip.bind_value (fun _ hl e => skip_withinLine (hl rfl) e) fun c hc => ?_
  exact (respells_push fun _ => hc).bind fun _ => respells_pure c

instance respells_startToken : Respells x w w' b Eq startToken where
  respelled hk _ e := by
    cases e
    exact ⟨(), _, rfl, rfl, hk.fresh⟩

instance respells_failIfBroken : Respells x w w b Eq failIfBroken where
  respelled {k k' left _} hk _ e := by
    rw [(eq_of_failIfBroken e).1]
    exact ⟨(), k', failIfBroken_unmet hk.whole'.met, rfl, hk⟩

instance respells_setPrevious (kind : Kind) : Respells x w w b Eq (setPrevious kind) where
  respelled hk _ e := by
    cases e
    exact ⟨(), _, rfl, rfl, hk.made kind hk.written⟩

theorem unchanged_emitAs {kind : Kind} {text : String}
    (h : x.escapes = false → Inline text.toList) :
    Respells x w w b (Token.Unchanged x) (emitAs kind text) where
  respelled {k k' _ _} hk _ e := by
    cases e
    refine ⟨⟨kind, text, k'.span⟩, _, rfl, ⟨?_, h⟩, hk.made kind hk.written⟩
    rw [hk.abeam.span]

theorem respells_emitAs {kind : Kind} {text : String}
    (h : x.escapes = false → Inline text.toList) :
    Respells x w w b (Token.Respelled x) (emitAs kind text) :=
  (unchanged_emitAs h).mono fun _ _ ht => ht.respelled

/-- The token, whose text may have been respelled. -/
theorem respells_emit_respelled {kind : Kind} (hkind : kind ≠ .keywordDefinition) :
    Respells x .respelled .copied b (Token.Respelled x) (emit kind) where
  respelled {k k' _ _} hk _ e := by
    cases e
    refine ⟨⟨kind, k'.text, k'.span⟩, _, rfl,
      ⟨rfl, hk.abeam.span, fun hx => ?_, fun hd => absurd hd hkind⟩,
      hk.made kind Script.relates_nil⟩
    rw [Cursor.toList_text, Cursor.toList_text]
    exact hk.written hx

theorem unchanged_emit (kind : Kind) :
    Respells x .copied .copied b (Token.Unchanged x) (emit kind) where
  respelled {k k' _ _} hk _ e := by
    cases e
    refine ⟨⟨kind, k'.text, k'.span⟩, _, rfl, ⟨?_, fun hx => ?_⟩,
      hk.made kind Script.relates_nil⟩
    · rw [hk.abeam.span, Cursor.text_congr hk.written.1]
      rfl
    · rw [Cursor.toList_text]
      exact fun c hc => hk.written.2 hx c (List.mem_reverse.1 hc)

instance respells_emit (kind : Kind) :
    Respells x .copied .copied b (Token.Respelled x) (emit kind) :=
  (unchanged_emit kind).mono fun _ _ ht => ht.respelled

instance respells_emitBare (kind : Kind) :
    Respells x w .copied b (Token.Respelled x) (emitBare kind) where
  respelled {k k' _ _} hk _ e := by
    cases e
    refine ⟨⟨kind, "", k'.span⟩, _, rfl, ?_, hk.made kind Script.relates_nil⟩
    have hspan : Cursor.span { k with written := [] } = k'.span := hk.abeam.span.symm
    rw [hspan]
    exact Token.respelled_self fun _ => inline_nil

/-- A dot that is given back is read again in both texts. -/
theorem respells_giveBack {p : List Char → Bool} (hp : ∀ ws, p ws = true → ws.head? = some '.') :
    Respells x .copied .copied b Eq (do if p (← get).written then backtrack) where
  respelled {k k' left _} hk _ e := by
    rw [get_bind] at e
    rw [get_bind, hk.written.1]
    cases hdot : p k.written with
    | false =>
      rw [hdot] at e
      cases e
      exact ⟨(), k', rfl, rfl, hk⟩
    | true =>
      rw [hdot] at e
      obtain ⟨c, written, hpending, hwritten, rfl⟩ := exists_of_backtrack e
      have hc : c = '.' := by
        have hhead := hp k.written hdot
        rw [hwritten] at hhead
        exact Option.some.inj hhead
      subst hc
      have hpending' : k'.pending = none := hk.abeam.pending.trans hpending
      have hwritten' : k'.written = '.' :: written := hk.written.1.trans hwritten
      exact ⟨(), k'.givenBack '.' written, backtrack_eq hpending' hwritten', rfl,
        hk.givenBack hpending hwritten⟩

instance respells_giveBackDot : Respells x .copied .copied b Eq giveBackDot :=
  respells_giveBack fun _ h => beq_iff_eq.1 h

end Steps

/-! ## Line ends -/

section LineEnds

variable {x : Respelling} {w : Script} {b keep allowEnd : Bool}

/-- A line end is taken in one piece. -/
theorem succeeds_chars (keep allowEnd : Bool) (e : LineEnding) {k : Cursor} {cs : List Char}
    (hk : k.ahead = e.chars ++ e.respell cs) :
    Succeeds (consumeLineEnd keep allowEnd) k e.chars (if keep then e.chars else []) () := by
  cases e with
  | carriageReturn =>
    refine succeeds_lineEnd_alone hk rfl ?_
    show (LineEnding.carriageReturn.respell cs).head? ≠ some '\n'
    rw [LineEnding.head?_respell]
    cases cs.head? with
    | none => exact nofun
    | some c =>
      rw [Option.map_some, ne_eq, Option.some.injEq]
      split
      · decide
      · simp_all
  | both => exact succeeds_lineEnd_paired hk rfl

theorem clear_consumeLineEnd {k left : Cursor} {c : Char} {cs : List Char} {u : Unit}
    (hk : k.ahead = c :: cs) (hl : Unicode.isLineEnd c = true) (hw : k.source.IsWhole)
    (e : consumeLineEnd keep allowEnd k = .ok u left) : left.Clear := by
  obtain ⟨mid, e', hclear⟩ := consumeLineEnd_succeeds keep allowEnd hk hl
  rw [e] at e'
  cases e'
  exact hclear hw

/-- However a line ends, the next one begins at the same place. -/
theorem along_chars (e : LineEnding) (t : Trail) (hp : t.partner = none) :
    (t.along e.chars).here = (t.along ['\n']).here ∧
      (t.along e.chars).last = (t.along ['\n']).last := by
  obtain ⟨here, last, partner⟩ := t
  cases hp
  cases e <;> exact ⟨rfl, rfl⟩

/-- A line end was read in both texts, and kept in both or in neither. -/
theorem respelled_lineEnd {k k' left left' : Cursor} {cs : List Char} (hk : k.Respelled x w k')
    (hcs : k.ahead = '\n' :: cs) (hcs' : k'.ahead = x.ending.chars ++ x.ending.respell cs)
    (r : k.Reads ['\n'] (if keep then ['\n'] else []) left)
    (r' : k'.Reads x.ending.chars (if keep then x.ending.chars else []) left')
    (hclear : left.Clear) (hclear' : left'.Clear) (hkeep : keep = true → w = .respelled) :
    left.Respelled x w left' := by
  have hleft : left.ahead = cs := r.rest_eq hcs
  have hleft' : left'.ahead = x.ending.respell cs := r'.rest_eq hcs'
  have htrail : k'.trail = k.trail := by
    rw [Cursor.trail, Cursor.trail, hk.abeam.here, hk.abeam.last]
  have hplaces := along_chars x.ending k.trail rfl
  constructor
  · rw [hleft', hleft]
  · rw [hleft]
    refine fun hm => hk.returns ?_
    rw [hcs]
    exact List.mem_cons_of_mem _ hm
  · intro hx
    rw [hleft]
    refine fun hm => hk.backslashes hx ?_
    rw [hcs]
    exact List.mem_cons_of_mem _ hm
  · rw [r.written, r'.written]
    cases keep with
    | true =>
      have hw := hkeep rfl
      subst hw
      exact Script.relates_append hk.written fun _ => (List.append_nil _).symm
    | false => exact hk.written
  · refine ⟨hclear'.pending.trans hclear.pending.symm, ?_, ?_, ?_, ?_⟩
    · rw [r.here, r'.here, htrail, hplaces.1]
    · rw [r.start, r'.start, hk.abeam.start]
    · rw [r.last, r'.last, htrail, hplaces.2]
    · rw [r.previous, r'.previous, hk.abeam.previous]
  · exact hclear.whole
  · exact hclear'.whole

theorem respells_consumeLineEnd (hkeep : keep = true → w = .respelled) :
    Respells x w w b Eq (consumeLineEnd keep allowEnd) where
  respelled {k k' left u} hk _ e := by
    rcases hk.head?_cases with ⟨hl, heq⟩ | ⟨hn, -⟩
    · unfold consumeLineEnd at e ⊢
      rw [bind_eq (look_eq k)] at e
      rw [bind_eq (look_eq k'), heq]
      cases hc : k.ahead.head? with
      | none =>
        rw [hc] at e
        cases allowEnd with
        | true =>
          cases e
          exact ⟨(), _, rfl, rfl, hk.looked⟩
        | false => exact absurd e unexpectedEnd_ne_ok
      | some c =>
        rw [hc] at e
        simp only [partner?_eq_none (hl c hc)] at e
        cases e
    · obtain ⟨cs, hcs⟩ := List.head?_eq_some_iff.1 hn
      have hcs' : k'.ahead = x.ending.chars ++ x.ending.respell cs := by
        rw [hk.ahead, hcs, x.ending.respell_lineFeed]
      have hreturn : cs.head? ≠ some '\r' := by
        intro hr
        refine hk.returns ?_
        rw [hcs]
        exact List.mem_cons_of_mem _ (List.mem_of_head? hr)
      have hsucceeds : Succeeds (consumeLineEnd keep allowEnd) k ['\n'] _ () :=
        succeeds_lineEnd_alone hcs rfl hreturn
      obtain ⟨mid, e₁, r, -⟩ := hsucceeds
      rw [e] at e₁
      cases e₁
      obtain ⟨left', e', r', -⟩ := succeeds_chars keep allowEnd x.ending hcs'
      have hclear := clear_consumeLineEnd hcs rfl hk.whole e
      have hclear' : left'.Clear := by
        cases hending : x.ending <;>
          exact clear_consumeLineEnd (by rw [hcs', hending]; rfl) rfl hk.whole' e'
      exact ⟨(), left', e', rfl, respelled_lineEnd hk hcs hcs' r r' hclear hclear' hkeep⟩

/-- A line end may be passed over in any token, and kept where line ends are. -/
instance respells_passLineEnd : Respells x w w b Eq (consumeLineEnd false allowEnd) :=
  respells_consumeLineEnd fun hn => absurd hn Bool.false_ne_true

instance respells_keepLineEnd :
    Respells x .respelled .respelled b Eq (consumeLineEnd true allowEnd) :=
  respells_consumeLineEnd fun _ => rfl

end LineEnds

/-! ## Runs of characters -/

section Runs

variable {x : Respelling} {w w' : Script} {b : Bool} {α : Type} {R : α → α → Prop}
  {p : Char → Bool}

theorem respells_takeTurn {m : Scan Char} (hm : Respells x w w true Eq m) (hn : p '\n' = false)
    (hr : p '\r' = false) :
    Respells x w w b Eq (do
      match ← look with
      | none => (return .done () : Scan (Turn Unit Unit))
      | some c => if p c then do let _ ← m; return .again () else return .done ()) := by
  refine .look inferInstance (fun _ => inferInstance) (Or.inr ⟨by simp only [hn, hr], ?_⟩)
  simp only [hn]
  exact respells_pure _

/-- A run that no line end belongs to. -/
theorem respells_consumeWhile (hn : p '\n' = false) (hr : p '\r' = false) :
    Respells x w w b Eq (consumeWhile p) := by
  have hturn : ∀ u, Respells x w w false Eq (consumeTurn p u) := fun _ =>
    respells_takeTurn respells_consume hn hr
  exact respells_iterate _ _ _

theorem respells_skipWhile (hn : p '\n' = false) (hr : p '\r' = false) :
    Respells x w w b Eq (skipWhile p) := by
  have hturn : ∀ u, Respells x w w false Eq (skipTurn p u) := fun _ =>
    respells_takeTurn respells_skip hn hr
  exact respells_iterate _ _ _

instance respells_letters : Respells x w w b Eq (consumeWhile Unicode.isAlphabetic) :=
  respells_consumeWhile (Unicode.isAlphabetic_ascii (by decide))
    (Unicode.isAlphabetic_ascii (by decide))

instance respells_blankTurn (u : Unit) : Respells x w w b Eq (blankTurn u) := by
  refine .look inferInstance (fun _ => inferInstance) (Or.inr ⟨rfl, ?_⟩)
  exact respells_bind (consumeLineEnd false false) fun _ => pure (Turn.again ())

instance respells_discardBlank : Respells x w w b Eq discardBlank := by
  unfold discardBlank
  infer_instance

/-- Behind a run that line ends belong to, none comes next. -/
theorem withinLine_of_run {k left : Cursor} {ws : List Char}
    (hp : ∀ c, Unicode.isLineEnd c = true → p c = true)
    (r : k.Reads (k.ahead.takeWhile p) ws left) : left.WithinLine := by
  intro c hc
  rw [Bool.eq_false_iff]
  intro hl
  have hnot := not_of_run r hc
  rw [hp c hl] at hnot
  cases hnot

theorem withinLine_discardBlank {k left : Cursor} {u : Unit} (e : discardBlank k = .ok u left) :
    left.WithinLine := by
  obtain ⟨_, mid, e₁, e₂⟩ := bind_ok e
  have hmid : mid.WithinLine :=
    withinLine_of_run (fun _ => Unicode.isBlank_of_isLineEnd) (blanks_ok e₁)
  rw [startToken_ok e₂]
  exact hmid

/-- Behind blank characters no line end comes next. -/
theorem Respells.behindBlank {m : Scan α} (h : Respells x w w' true R m) :
    Respells x w w' b R (do discardBlank; m) :=
  respells_discardBlank.bind_within (fun _ e => withinLine_discardBlank e) fun _ => h

end Runs

end Scan

end TripleLex

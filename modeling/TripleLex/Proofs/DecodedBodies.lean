import TripleLex.Proofs.Decoder
import TripleLex.Proofs.Unclosed

/-!
# Scanners that decode

The scanners of short literals and of references do what the decoder does: from where
they stand they read up to the first sign behind an even number of backslashes and write
what the text before it is decoded to, and they fail where there is no such sign or the
text cannot be decoded (`Scan.Decoded`). Each of them takes the text piece by piece, a
piece being a character or an escape, and by the rules of the decoder a piece can be taken
off the text (`decodes_plain`, `decodes_escape`).

## Main results

* `succeeds_escape`, `refuses_escape` — a single escape.
* `decoded_iterate` — turns that follow the decoder.
* `decoded_shortBody`, `decoded_referenceBody` — the two scanners.
-/

namespace TripleLex

open Scan
open Cursor (Reads)
open Decoder (Decodes IsDelimiter escape? codePoint? decode? ClosedAt forbids shields)

namespace Scan

/-! ## Escapes -/

section Escapes

variable {k : Cursor} {sign c : Char} {cs piece : List Char} {n : Nat}

/-- As many hexadecimal digits are read as come next, up to the number asked for. -/
theorem succeeds_readHexDigits (n : Nat) :
    Succeeds (readHexDigits n) k ((k.ahead.take n).takeWhile Name.isHexDigit) []
      ((k.ahead.take n).takeWhile Name.isHexDigit) := by
  induction n generalizing k with
  | zero => exact succeeds_pure []
  | succ n ih =>
    cases hk : k.ahead with
    | nil =>
      refine succeeds_look_bind fun mid _ => ?_
      rw [hk]
      exact succeeds_pure []
    | cons c cs =>
      rw [List.take_succ_cons, List.takeWhile_cons]
      refine succeeds_look_bind fun mid r => ?_
      have hmid : mid.ahead = c :: cs := r.ahead_eq.trans hk
      rw [hk]
      show Succeeds (if Name.isHexDigit c = true then _ else _) mid _ _ _
      by_cases hc : Name.isHexDigit c = true
      · rw [if_pos hc, if_pos hc]
        have hskip : Succeeds skip mid [c] [] c :=
          succeeds_skip (by rw [hmid]; rfl) (not_isLineEnd_of_isHexDigit hc)
        refine hskip.bind _ [] fun mid' r' => ?_
        have hdigits := ih (k := mid')
        rw [r'.rest_eq hmid] at hdigits
        exact hdigits.thenPure _
      · rw [if_neg hc, if_neg hc]
        exact succeeds_pure []

/-- Where escapes stand that are read before a sign. -/
def contextBefore (sign : Char) : EscapeContext :=
  if sign == '>' then .reference else .between sign

/-- A character that announces no escape of its own may stand for itself. -/
theorem ofChar_contextBefore (hs : IsDelimiter sign)
    (hc : c ∉ ['n', 'r', 't', '\\', 'u', 'U']) :
    Escape.ofChar (contextBefore sign) c = if shields sign c then .itself else .none := by
  unfold Escape.ofChar
  split
  case h_1 | h_5 | h_6 | h_7 | h_8 | h_9 => exact absurd (by decide) hc
  case h_2 | h_3 | h_4 => rcases hs with rfl | rfl | rfl <;> rfl
  case h_10 hmark happostrophe hclose _ _ _ _ _ =>
    have hshields : shields sign c = false := by
      rcases hs with rfl | rfl | rfl <;> simp [shields] <;> grind
    rw [hshields]
    rcases hs with rfl | rfl | rfl <;> rfl

/-- What a backslash stands for, by the character behind it. -/
theorem escape?_cons (hs : IsDelimiter sign) (c : Char) (cs : List Char) :
    escape? sign (c :: cs) = match Escape.ofChar (contextBefore sign) c with
      | .backslash => some (c :: if cs.head?.any Escape.isAnnounced then ['\\'] else [], 1)
      | .itself => some ([c], 1)
      | .control d => some ([d], 1)
      | .codePoint count kept => codePoint? count kept cs
      | .none => some (['\\'], 0)
      | .refused => none := by
  unfold escape?
  dsimp only
  split
  case h_4 =>
    have hannounced : Escape.isAnnounced = ['t', 'n', 'r', 'u', 'U'].contains := by
      funext d
      simp only [Escape.isAnnounced, List.contains_cons, List.contains_nil, Bool.or_false,
        Bool.or_assoc]
    rw [hannounced]
    cases cs.head?.any ['t', 'n', 'r', 'u', 'U'].contains <;> rcases hs with rfl | rfl | rfl <;> rfl
  case h_7 h₁ h₂ h₃ h₄ h₅ h₆ =>
    rw [ofChar_contextBefore hs (by simp; exact ⟨h₁, h₂, h₃, h₄, h₅, h₆⟩)]
    cases shields sign c <;> rfl
  all_goals rcases hs with rfl | rfl | rfl <;> rfl

theorem succeeds_pushIf (keep : Bool) (c : Char) :
    Succeeds (pushIf keep c) k [] (if keep then [c] else []) () := by
  cases keep with
  | true => exact succeeds_push c
  | false => exact succeeds_pure ()

theorem succeeds_appendIf (keep : Bool) (cs : List Char) :
    Succeeds (appendIf keep cs) k [] (if keep then cs else []) () := by
  cases keep with
  | true => exact succeeds_append cs
  | false => exact succeeds_pure ()

/-- The character of a code point is added to the token. -/
theorem succeeds_scalar {digits : List Char} (h : (Escape.number digits).isValidChar) :
    Succeeds (pushCodePoint digits) k []
      (if Escape.number digits = 0 then [] else [Char.ofNat (Escape.number digits)]) () := by
  unfold pushCodePoint
  by_cases hzero : Escape.number digits = 0
  · rw [if_pos hzero, if_neg (by simp [hzero])]
    exact succeeds_pure ()
  · rw [if_neg hzero, if_pos (by simp [hzero]), Escape.scalar?, if_pos h]
    exact succeeds_push _

theorem refuses_scalar {digits : List Char} (h : ¬ (Escape.number digits).isValidChar) :
    Refuses (pushCodePoint digits) k := by
  have hzero : Escape.number digits ≠ 0 := fun hzero => h (by rw [hzero]; exact .inl (by decide))
  unfold pushCodePoint
  rw [if_pos (by simp [hzero]), Escape.scalar?, if_neg h]
  exact ⟨_, _, rfl, trivial⟩

/-- All digits of a code point are read if they are there. -/
theorem takeWhile_digits {count : Nat} {cs : List Char} :
    ((cs.take count).takeWhile Name.isHexDigit).length = count ↔
      (cs.take count).length = count ∧ (cs.take count).all Name.isHexDigit = true := by
  have hprefix := List.takeWhile_prefix Name.isHexDigit (l := cs.take count)
  constructor
  · intro h
    have hlength := hprefix.length_le
    have hle := List.length_take_le count cs
    have heq := hprefix.eq_of_length (by omega)
    refine ⟨by omega, ?_⟩
    rw [← heq]
    exact List.all_takeWhile
  · rintro ⟨hlength, hall⟩
    rw [List.takeWhile_eq_self_iff.2 (List.all_eq_true.1 hall), hlength]

theorem decoded_codePoint {count : Nat} {kept : Bool} (hk : k.ahead = c :: cs)
    (hc : Escape.ofChar (contextBefore sign) c = .codePoint count kept) :
    (∀ piece n, codePoint? count kept cs = some (piece, n) →
      Succeeds (decodeAfterBackslash (contextBefore sign) c) k ((c :: cs).take n) piece ()) ∧
    (codePoint? count kept cs = none →
      Refuses (decodeAfterBackslash (contextBefore sign) c) k) := by
  have hl := Escape.not_isLineEnd_of_ofChar (by rw [hc]; nofun) (by rw [hc]; nofun)
  have hskip : Succeeds skip k [c] [] c := succeeds_skip (by rw [hk]; rfl) hl
  have hread : ∀ mid : Cursor, mid.ahead = cs → Succeeds (readHexDigits count) mid
      ((cs.take count).takeWhile Name.isHexDigit) []
        ((cs.take count).takeWhile Name.isHexDigit) := by
    rintro mid rfl
    exact succeeds_readHexDigits count
  unfold decodeAfterBackslash codePoint?
  rw [hc]
  dsimp only
  by_cases hdigits : ((cs.take count).takeWhile Name.isHexDigit).length = count
  · obtain ⟨hlength, hall⟩ := takeWhile_digits.1 hdigits
    rw [List.takeWhile_eq_self_iff.2 (List.all_eq_true.1 hall)] at hread
    by_cases hcode : (Escape.number (cs.take count)).isValidChar
    · rw [if_pos ⟨hlength, hall, hcode⟩]
      refine ⟨fun piece n h => ?_, nofun⟩
      obtain ⟨hpiece, rfl⟩ := Prod.mk.inj (Option.some.inj h)
      refine hskip.bind (cs.take count) piece fun mid r => ?_
      rw [← List.append_nil (cs.take count)]
      refine (hread mid (r.rest_eq hk)).bind [] piece fun mid' _ => ?_
      rw [if_neg (by simp [hlength]), ← hpiece]
      refine (succeeds_appendIf kept _).bind [] _ fun mid'' _ => ?_
      exact succeeds_scalar hcode
    · rw [if_neg fun h => hcode h.2.2]
      refine ⟨nofun, fun _ => hskip.fails fun mid r => ?_⟩
      refine (hread mid (r.rest_eq hk)).fails fun mid' _ => ?_
      rw [if_neg (by simp [hlength])]
      exact (succeeds_appendIf kept _).fails fun _ _ => refuses_scalar hcode
  · rw [if_neg fun h => hdigits (takeWhile_digits.2 ⟨h.1, h.2.1⟩)]
    refine ⟨nofun, fun _ => hskip.fails fun mid r => ?_⟩
    refine (hread mid (r.rest_eq hk)).fails fun mid' _ => ?_
    rw [if_pos (by simpa using hdigits)]
    exact ⟨_, _, rfl, trivial⟩

/-- What is behind a backslash is decoded as it should be. -/
theorem decoded_afterBackslash (hs : IsDelimiter sign) (hk : k.ahead = c :: cs) :
    (∀ piece n, escape? sign (c :: cs) = some (piece, n) →
      Succeeds (decodeAfterBackslash (contextBefore sign) c) k ((c :: cs).take n) piece ()) ∧
    (escape? sign (c :: cs) = none →
      Refuses (decodeAfterBackslash (contextBefore sign) c) k) := by
  rw [escape?_cons hs]
  cases hc : Escape.ofChar (contextBefore sign) c with
  | codePoint count kept => exact decoded_codePoint hk hc
  | refused =>
    refine ⟨nofun, fun _ => ?_⟩
    unfold decodeAfterBackslash
    rw [hc]
    exact ⟨_, _, rfl, trivial⟩
  | none =>
    refine ⟨fun piece n h => ?_, nofun⟩
    cases h
    unfold decodeAfterBackslash
    rw [hc]
    exact succeeds_push _
  | backslash =>
    have hl := Escape.not_isLineEnd_of_ofChar (by rw [hc]; nofun) (by rw [hc]; nofun)
    have hconsume : Succeeds consume k [c] [c] c := succeeds_consume (by rw [hk]; rfl) hl
    refine ⟨fun piece n h => ?_, nofun⟩
    unfold decodeAfterBackslash
    rw [hc]
    cases h
    refine hconsume.bind [] _ fun mid r => succeeds_look_bind fun mid' _ => ?_
    rw [r.rest_eq hk]
    cases cs with
    | nil => exact succeeds_pure ()
    | cons d cs => exact succeeds_pushIf _ _
  | itself =>
    have hl := Escape.not_isLineEnd_of_ofChar (by rw [hc]; nofun) (by rw [hc]; nofun)
    refine ⟨fun piece n h => ?_, nofun⟩
    cases h
    unfold decodeAfterBackslash
    rw [hc]
    exact (succeeds_consume (by rw [hk]; rfl) hl).thenPure _
  | control d =>
    have hl := Escape.not_isLineEnd_of_ofChar (by rw [hc]; nofun) (by rw [hc]; nofun)
    refine ⟨fun piece n h => ?_, nofun⟩
    cases h
    unfold decodeAfterBackslash
    rw [hc]
    exact (succeeds_skip (by rw [hk]; rfl) hl).bind [] [d] fun _ _ => succeeds_push d

/-- An escape is decoded from its backslash on. -/
theorem succeeds_escape (hs : IsDelimiter sign) (hk : k.ahead = '\\' :: cs) (hcs : cs ≠ [])
    (h : escape? sign cs = some (piece, n)) :
    Succeeds (decodeEscape (contextBefore sign)) k ('\\' :: cs.take n) piece () := by
  obtain ⟨c, cs, rfl⟩ := List.exists_cons_of_ne_nil hcs
  have hskip : Succeeds skip k ['\\'] [] '\\' := succeeds_skip (by rw [hk]; rfl) (by decide)
  refine hskip.bind _ piece fun mid r => ?_
  rw [if_neg (by decide)]
  refine succeeds_look_bind fun mid' r' => ?_
  have hmid : mid.ahead = c :: cs := r.rest_eq hk
  rw [hmid]
  exact (decoded_afterBackslash hs (r'.ahead_eq.trans hmid)).1 piece n h

theorem refuses_escape (hs : IsDelimiter sign) (hk : k.ahead = '\\' :: cs)
    (h : cs = [] ∨ escape? sign cs = none) : Refuses (decodeEscape (contextBefore sign)) k := by
  have hskip : Succeeds skip k ['\\'] [] '\\' := succeeds_skip (by rw [hk]; rfl) (by decide)
  refine hskip.fails fun mid r => ?_
  have hmid : mid.ahead = cs := r.rest_eq hk
  rw [if_neg (by decide)]
  refine FailsFor.behind ?_ (look_eq mid)
  rw [hmid]
  cases cs with
  | nil => exact refuses_unexpectedEnd _
  | cons c cs =>
    rcases h with h | h
    · cases h
    · exact (decoded_afterBackslash hs (mid.ahead_looked.trans hmid)).2 h

end Escapes

/-! ## Bodies -/

section Bodies

variable {k : Cursor} {sign c : Char} {cs : List Char}

/-- A turn takes the text before a sign as it is to be decoded. -/
structure Follows (sign : Char) (turn : Unit → Scan (Turn Unit Unit)) : Prop where
  nothing : ∀ {k : Cursor}, k.ahead = [] → Refuses (turn ()) k
  closing : ∀ {k : Cursor} {cs : List Char}, k.ahead = sign :: cs →
    Succeeds (turn ()) k [sign] [] (.done ())
  escape : ∀ {k : Cursor} {cs piece : List Char} {n : Nat}, k.ahead = '\\' :: cs → cs ≠ [] →
    escape? sign cs = some (piece, n) →
      Succeeds (turn ()) k ('\\' :: cs.take n) piece (.again ())
  unescaped : ∀ {k : Cursor} {cs : List Char}, k.ahead = '\\' :: cs →
    (cs = [] ∨ escape? sign cs = none) → Refuses (turn ()) k
  plain : ∀ {k : Cursor} {c : Char} {cs : List Char}, k.ahead = c :: cs → c ≠ sign → c ≠ '\\' →
    forbids sign c = false → Succeeds (turn ()) k [c] [c] (.again ())
  forbidden : ∀ {k : Cursor} {c : Char} {cs : List Char}, k.ahead = c :: cs → c ≠ sign →
    c ≠ '\\' → forbids sign c = true → Refuses (turn ()) k

/-- It is told by the next character what a turn does. -/
theorem follows_of_look {turn : Unit → Scan (Turn Unit Unit)}
    {f : Option Char → Scan (Turn Unit Unit)} (hs : IsDelimiter sign)
    (hturn : turn () = look >>= f) (hnothing : ∀ k, Refuses (f none) k)
    (hclosing : f (some sign) = (do let _ ← skip; return .done ()))
    (hescape : f (some '\\') = (do decodeEscape (contextBefore sign); return .again ()))
    (hplain : ∀ c, c ≠ sign → c ≠ '\\' → forbids sign c = false →
      Unicode.isLineEnd c = false ∧ f (some c) = (do let _ ← consume; return .again ()))
    (hforbidden : ∀ c k, c ≠ sign → c ≠ '\\' → forbids sign c = true → Refuses (f (some c)) k) :
    Follows sign turn := by
  have hl : Unicode.isLineEnd sign = false := by rcases hs with rfl | rfl | rfl <;> decide
  have hrefuses : ∀ {k : Cursor}, Refuses (f k.ahead.head?) k.looked → Refuses (turn ()) k := by
    intro k h
    rw [hturn]
    exact h.behind (look_eq k)
  constructor
  case nothing =>
    intro k hk
    refine hrefuses ?_
    rw [hk]
    exact hnothing _
  case closing =>
    intro k cs hk
    rw [hturn]
    refine succeeds_look_bind fun mid r => ?_
    rw [hk, List.head?_cons, hclosing]
    exact (succeeds_skip (by rw [r.ahead_eq, hk]; rfl) hl).thenPure _
  case escape =>
    intro k cs piece n hk hcs hpiece
    rw [hturn]
    refine succeeds_look_bind fun mid r => ?_
    rw [hk, List.head?_cons, hescape]
    exact (succeeds_escape hs (r.ahead_eq.trans hk) hcs hpiece).thenPure _
  case unescaped =>
    intro k cs hk hrefused
    refine hrefuses ?_
    rw [hk, List.head?_cons, hescape]
    exact (refuses_escape hs (k.ahead_looked.trans hk) hrefused).bind
  case plain =>
    intro k c cs hk hsign hslash hfree
    obtain ⟨hl, hconsume⟩ := hplain c hsign hslash hfree
    rw [hturn]
    refine succeeds_look_bind fun mid r => ?_
    rw [hk, List.head?_cons, hconsume]
    exact (succeeds_consume (by rw [r.ahead_eq, hk]; rfl) hl).thenPure _
  case forbidden =>
    intro k c cs hk hsign hslash hforbids
    refine hrefuses ?_
    rw [hk]
    exact hforbidden c _ hsign hslash hforbids

/-- The scan reads the text before a sign, the sign included, and writes what it is
decoded to; it fails where nothing can be decoded. -/
structure Decoded (sign : Char) (m : Scan Unit) (k : Cursor) : Prop where
  succeeds : ∀ text rest, Decodes sign k.ahead text rest →
    ∃ ds, k.ahead = ds ++ rest ∧ Succeeds m k ds text ()
  refuses : (∀ text rest, ¬ Decodes sign k.ahead text rest) → Refuses m k

section Turns

variable {turn : Unit → Scan (Turn Unit Unit)} {h : ∀ u, Advances (turn u)} {ds ws : List Char}

/-- Where a turn fails, nothing can be decoded. -/
theorem decoded_refused (ht : Refuses (turn ()) k)
    (hd : ∀ text rest, ¬ Decodes sign k.ahead text rest) : Decoded sign (iterate turn h ()) k := by
  refine ⟨fun text rest hdecodes => absurd hdecodes (hd text rest), fun _ => ?_⟩
  rw [iterate_eq]
  exact ht.bind

/-- A piece is taken, and the rest is decoded behind it. -/
theorem decoded_again (ht : Succeeds (turn ()) k ds ws (.again ())) (hk : k.ahead = ds ++ cs)
    (hd : ∀ text rest, Decodes sign k.ahead text rest ↔
      ∃ more, Decodes sign cs more rest ∧ text = ws ++ more)
    (hi : ∀ mid : Cursor, mid.ahead = cs → Decoded sign (iterate turn h ()) mid) :
    Decoded sign (iterate turn h ()) k := by
  constructor
  · intro text rest hdecodes
    obtain ⟨more, hmore, rfl⟩ := (hd text rest).1 hdecodes
    -- what is read behind the piece does not depend on the cursor that the piece leaves
    have hbehind : ∀ mid : Cursor, mid.ahead = cs →
        ∃ es, cs = es ++ rest ∧ Succeeds (iterate turn h ()) mid es more () := by
      rintro mid rfl
      exact (hi mid rfl).succeeds more rest hmore
    have ⟨left, _, r, _⟩ := ht
    obtain ⟨es, hes, -⟩ := hbehind left (r.rest_eq hk)
    refine ⟨ds ++ es, by rw [hk, hes, List.append_assoc], succeeds_again ht fun mid r => ?_⟩
    obtain ⟨es', hes', hsucceeds⟩ := hbehind mid (r.rest_eq hk)
    rw [hes] at hes'
    rwa [List.append_cancel_right hes']
  · intro hnone
    rw [iterate_eq]
    refine ht.fails fun mid r => (hi mid (r.rest_eq hk)).refuses fun more rest hmore => ?_
    rw [r.rest_eq hk] at hmore
    exact hnone (ws ++ more) rest ((hd _ _).2 ⟨more, hmore, rfl⟩)

/-- The induction is on the length of the text, since an escape takes several
characters. -/
theorem decoded_iterate (hs : IsDelimiter sign) (hf : Follows sign turn) :
    Decoded sign (iterate turn h ()) k := by
  generalize hn : k.ahead.length = n
  induction n using Nat.strongRecOn generalizing k with
  | ind n ih =>
    cases hk : k.ahead with
    | nil =>
      refine decoded_refused (hf.nothing hk) fun text rest hd => ?_
      rw [hk] at hd
      exact Decoder.not_decodes_nil hd
    | cons c cs =>
      rw [hk, List.length_cons] at hn
      by_cases hsign : c = sign
      · subst hsign
        constructor
        · intro text rest hd
          rw [hk] at hd
          obtain ⟨rfl, rfl⟩ := Decoder.decodes_sign.1 hd
          exact ⟨[c], hk, succeeds_done (hf.closing hk)⟩
        · intro hd
          exact absurd (Decoder.decodes_sign.2 ⟨rfl, rfl⟩) (hk ▸ hd [] cs)
      by_cases hslash : c = '\\'
      · subst hslash
        by_cases hrefused : cs = [] ∨ escape? sign cs = none
        · refine decoded_refused (hf.unescaped hk hrefused) fun text rest hd => ?_
          rw [hk] at hd
          exact Decoder.not_decodes_backslash hs hrefused hd
        · obtain ⟨hcs, hescape⟩ := not_or.1 hrefused
          obtain ⟨⟨piece, taken⟩, hescape⟩ := Option.ne_none_iff_exists'.1 hescape
          have hsplit : k.ahead = ('\\' :: cs.take taken) ++ cs.drop taken := by simp [hk]
          refine decoded_again (hf.escape hk hcs hescape) hsplit (fun text rest => ?_)
            fun mid hmid => ih mid.ahead.length ?_ rfl
          · rw [hk]
            exact Decoder.decodes_escape hs hcs hescape
          · rw [hmid, List.length_drop]
            omega
      · by_cases hforbids : forbids sign c = true
        · refine decoded_refused (hf.forbidden hk hsign hslash hforbids) fun text rest hd => ?_
          rw [hk, Decoder.decodes_plain hsign hslash, hforbids] at hd
          exact absurd hd.1 (by decide)
        · have hforbids := Bool.eq_false_iff.2 hforbids
          refine decoded_again (hf.plain hk hsign hslash hforbids) hk (fun text rest => ?_)
            fun mid hmid => ih mid.ahead.length (by rw [hmid]; omega) rfl
          rw [hk, Decoder.decodes_plain hsign hslash]
          exact and_iff_right hforbids

end Turns

theorem isDelimiter_of_isSign (hs : IsSign sign) : IsDelimiter sign := by
  rcases hs with rfl | rfl
  · exact .inl rfl
  · exact .inr (.inl rfl)

theorem decoded_shortBody (hs : IsSign sign) : Decoded sign (shortBody sign) k := by
  have hcontext : contextBefore sign = .between sign := by rcases hs with rfl | rfl <;> rfl
  have hforbids : ∀ c, forbids sign c = Unicode.isLineEnd c := by
    rcases hs with rfl | rfl <;> exact fun _ => rfl
  have hdelimiter := isDelimiter_of_isSign hs
  refine decoded_iterate hdelimiter (follows_of_look hdelimiter rfl ?_ ?_ ?_ ?_ ?_)
  · exact fun k => refuses_unexpectedEnd _
  · have hslash : ¬ (sign == '\\') = true := by simpa using hs.ne
    exact (if_neg hslash).trans (if_pos (beq_self_eq_true sign))
  · rw [hcontext]
    rfl
  · intro c hsign hslash hl
    rw [hforbids] at hl
    exact ⟨hl, by simp [hsign, hslash, hl]⟩
  · intro c k hsign hslash hl
    rw [hforbids] at hl
    simpa [hsign, hslash, hl] using ⟨_, _, rfl, trivial⟩

theorem decoded_referenceBody : Decoded '>' referenceBody k := by
  have hdelimiter : IsDelimiter '>' := .inr (.inr rfl)
  refine decoded_iterate hdelimiter (follows_of_look hdelimiter rfl ?_ rfl rfl ?_ ?_)
  · exact fun k => refuses_unexpectedEnd _
  · intro c hsign hslash hb
    have hb : Unicode.isBlank c = false := hb
    have hl : Unicode.isLineEnd c = false := by
      rw [Bool.eq_false_iff]
      intro hl
      rw [Unicode.isBlank_of_isLineEnd hl] at hb
      cases hb
    exact ⟨hl, by simp [hsign, hslash, hl, hb]⟩
  · intro c k hsign hslash hb
    have hb : Unicode.isBlank c = true := hb
    by_cases hl : Unicode.isLineEnd c = true
    · simpa [hsign, hslash, hl] using ⟨_, _, rfl, trivial⟩
    · simpa [hsign, hslash, hl, hb] using ⟨_, _, rfl, trivial⟩

end Bodies

end Scan

end TripleLex

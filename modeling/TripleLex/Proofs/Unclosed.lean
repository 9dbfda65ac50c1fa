import TripleLex.Proofs.BrokenSources
import TripleLex.Proofs.Escapes

/-!
# Texts that break off inside signs

A literal or a reference that has been opened and not closed is an `Enclosure` with
the text that has come of it: whole pieces, none of which closes it
(`Enclosure.Unclosed`). Each of the five scanners takes such pieces one by one and
then asks for another character, so that a source that is broken off there makes it
fail for the failure of the source.

## Main results

* `breaks_shortBody`, `breaks_longBody`, `breaks_quotedBody`, `breaks_literalBody`,
  `breaks_referenceBody` — the five scanners.
-/

namespace TripleLex

/-! ## What is enclosed -/

namespace Escape

/-- An escape with nothing missing or wrong. -/
inductive Whole (context : EscapeContext) : List Char → Prop
  | backslash {c : Char} (h : ofChar context c = .backslash) : Whole context ['\\', c]
  | itself {c : Char} (h : ofChar context c = .itself) : Whole context ['\\', c]
  | control {c d : Char} (h : ofChar context c = .control d) : Whole context ['\\', c]
  /-- The digits are those of a code point. -/
  | codePoint {c : Char} {count : Nat} {kept : Bool} {ds : List Char}
    (h : ofChar context c = .codePoint count kept) (hlength : ds.length = count)
    (hdigits : ∀ d ∈ ds, Name.isHexDigit d = true) (hcode : (number ds).isValidChar) :
    Whole context ('\\' :: c :: ds)

end Escape

/-- What stands between signs. -/
inductive Enclosure where
  /-- A literal on one line, between two of the signs. -/
  | short (sign : Char)
  /-- A literal between three of the signs on either side. -/
  | long (sign : Char)
  /-- A field of comma-separated values. -/
  | field
  /-- A literal of tab-separated values. -/
  | cell
  /-- A reference. -/
  | reference
  deriving DecidableEq, Repr

namespace Enclosure

/-- Whether a character stands for itself. -/
def isPlain : Enclosure → Char → Bool
  | short sign, c => Scan.isPlainIn sign c
  | long sign, c => c != '\\' && c != sign
  | field, c => c != '"'
  | cell, c => c != '\\' && c != '"'
  | reference, c => Scan.isPlainReference c

/-- Where its escapes stand, if it may hold any. -/
def context? : Enclosure → Option EscapeContext
  | short sign | long sign => some (.between sign)
  | field => none
  | cell => some .quotation
  | reference => some .reference

/-- Whether a doubled quotation mark is text. -/
def doubles : Enclosure → Bool
  | field | cell => true
  | short _ | long _ | reference => false

/-- A piece of what is enclosed, before the rest. -/
inductive Piece (e : Enclosure) : List Char → List Char → Prop
  | plain {c : Char} {rest : List Char} (h : e.isPlain c = true) : Piece e [c] rest
  | escape {context : EscapeContext} {ds rest : List Char} (he : e.context? = some context)
    (h : Escape.Whole context ds) : Piece e ds rest
  /-- The character behind the backslash makes no escape of it. -/
  | backslash {context : EscapeContext} {d : Char} {rest : List Char}
    (he : e.context? = some context) (h : Escape.ofChar context d = .none) :
    Piece e ['\\'] (d :: rest)
  | doubled {rest : List Char} (h : e.doubles = true) : Piece e ['"', '"'] rest
  /-- Fewer signs than would close it. -/
  | one {sign : Char} {rest : List Char} (he : e = long sign) (h : rest.head? ≠ some sign) :
    Piece e [sign] rest
  | two {sign : Char} {rest : List Char} (he : e = long sign) (h : rest.head? ≠ some sign) :
    Piece e [sign, sign] rest

/-- What has come of it so far: whole pieces. -/
inductive Unclosed (e : Enclosure) : List Char → Prop
  | nil : Unclosed e []
  | cons {ds rest : List Char} (h : Piece e ds rest) (more : Unclosed e rest) :
    Unclosed e (ds ++ rest)

variable {e : Enclosure} {c d : Char} {cs ds rest : List Char}

/-- A character that begins neither an escape nor a run of signs is a piece. -/
theorem Unclosed.tail (h : e.Unclosed (c :: cs)) (hslash : e.context? ≠ none → c ≠ '\\')
    (hmark : e.doubles = true → c ≠ '"') (hsign : e ≠ .long c) :
    e.isPlain c = true ∧ e.Unclosed cs := by
  generalize hn : c :: cs = text at h
  cases h with
  | nil => cases hn
  | cons h more =>
    cases h with
    | plain h =>
      cases hn
      exact ⟨h, more⟩
    | escape he h =>
      cases h <;> exact absurd (List.cons.inj hn).1 (hslash (by rw [he]; nofun))
    | backslash he _ => exact absurd (List.cons.inj hn).1 (hslash (by rw [he]; nofun))
    | doubled h => exact absurd (List.cons.inj hn).1 (hmark h)
    | one he _ =>
      cases hn
      exact absurd he hsign
    | two he _ =>
      cases hn
      exact absurd he hsign

end Enclosure

namespace Scan

open Cursor (Awaits Reads)
open Enclosure (Piece Unclosed)

variable {k : Cursor} {cause : ReadFailure} {cs ds rest : List Char} {e : Enclosure} {sign : Char}

/-! ## Escapes -/

section Escapes

variable {context : EscapeContext}

/-- The digits of a code point make its character, or nothing of zero. -/
theorem comesTo_pushCodePoint {digits : List Char} (h : (Escape.number digits).isValidChar)
    (hk : k.ahead = rest) : ComesTo (pushCodePoint digits) k () rest := by
  unfold pushCodePoint Escape.scalar?
  rw [if_pos h]
  split
  · exact (succeeds_push _).comesTo hk
  · exact comesTo_pure () hk

/-- What is behind the backslash of a whole escape is decoded. -/
theorem comesTo_afterBackslash {c : Char} (h : Escape.Whole context ('\\' :: c :: ds))
    (hk : k.ahead = c :: (ds ++ rest)) :
    ComesTo (decodeAfterBackslash context c) k () rest := by
  have hhead : k.ahead.head? = some c := by
    rw [hk]
    rfl
  unfold decodeAfterBackslash
  cases h with
  | backslash h =>
    have hl := Escape.not_isLineEnd_of_ofChar (by rw [h]; nofun) (by rw [h]; nofun)
    rw [h]
    refine ((succeeds_consume hhead hl).comesTo hk).bind fun mid hmid => ?_
    refine comesTo_look hmid fun mid' hmid' => ?_
    cases rest with
    | nil => exact comesTo_pure () hmid'
    | cons d rest =>
      show ComesTo (pushIf (Escape.isAnnounced d) '\\') mid' () (d :: rest)
      unfold pushIf
      split
      · exact (succeeds_push _).comesTo hmid'
      · exact comesTo_pure () hmid'
  | itself h =>
    have hl := Escape.not_isLineEnd_of_ofChar (by rw [h]; nofun) (by rw [h]; nofun)
    rw [h]
    exact ((succeeds_consume hhead hl).comesTo hk).thenPure ()
  | @control _ d h =>
    have hl := Escape.not_isLineEnd_of_ofChar (by rw [h]; nofun) (by rw [h]; nofun)
    rw [h]
    exact ((succeeds_skip hhead hl).comesTo hk).bind fun mid hmid =>
      (succeeds_push d).comesTo hmid
  | @codePoint _ count kept _ h hlength hdigits hcode =>
    have hl := Escape.not_isLineEnd_of_ofChar (by rw [h]; nofun) (by rw [h]; nofun)
    rw [h]
    refine ((succeeds_skip hhead hl).comesTo hk).bind fun mid hmid => ?_
    have hread : ComesTo (readHexDigits count) mid ds rest := by
      rw [← hlength]
      exact (succeeds_hexDigits hmid hdigits).comesTo hmid
    refine hread.bind fun mid' hmid' => ?_
    rw [if_neg (by simp [hlength])]
    have happend : ComesTo (appendIf kept ds) mid' () rest := by
      cases kept with
      | true => exact (succeeds_append ds).comesTo hmid'
      | false => exact comesTo_pure () hmid'
    exact happend.bind fun mid'' hmid'' => comesTo_pushCodePoint hcode hmid''

/-- What follows a backslash is looked at, and decides. -/
theorem comesTo_behindBackslash {d : Char} (hk : k.ahead = '\\' :: d :: cs)
    (g : ∀ mid : Cursor, mid.ahead = d :: cs →
      ComesTo (decodeAfterBackslash context d) mid () rest) :
    ComesTo (decodeEscape context) k () rest := by
  refine ((succeeds_skip (by rw [hk]; rfl) (by decide)).comesTo hk).bind fun mid hmid => ?_
  rw [if_neg (by decide)]
  exact comesTo_look hmid fun mid' => g mid'

theorem comesTo_escape (h : Escape.Whole context ds) (hk : k.ahead = ds ++ rest) :
    ComesTo (decodeEscape context) k () rest := by
  obtain ⟨c, ds, rfl⟩ : ∃ c ds', ds = '\\' :: c :: ds' := by
    cases h <;> exact ⟨_, _, rfl⟩
  exact comesTo_behindBackslash hk fun mid => comesTo_afterBackslash h

/-- A backslash that announces nothing is text. -/
theorem comesTo_bareBackslash {d : Char} (h : Escape.ofChar context d = .none)
    (hk : k.ahead = '\\' :: d :: rest) : ComesTo (decodeEscape context) k () (d :: rest) := by
  refine comesTo_behindBackslash hk fun mid hmid => ?_
  unfold decodeAfterBackslash
  rw [h]
  exact (succeeds_push _).comesTo hmid

end Escapes

/-! ## Turns -/

section Turns

variable {c : Char}

/-- Where a backslash comes next, a whole escape is decoded, or the backslash
alone. -/
theorem comesTo_decodeEscape {context : EscapeContext} (h : e.Unclosed ('\\' :: cs))
    (he : e.context? = some context) (hplain : e.isPlain '\\' = false)
    (hsign : e ≠ .long '\\') : ∃ rest, e.Unclosed rest ∧
      ∀ k : Cursor, k.ahead = '\\' :: cs → ComesTo (decodeEscape context) k () rest := by
  generalize hn : '\\' :: cs = text at h
  cases h with
  | nil => cases hn
  | @cons ds rest h more =>
    cases h with
    | plain h =>
      cases hn
      rw [hplain] at h
      cases h
    | escape he' h =>
      rw [he] at he'
      cases he'
      exact ⟨rest, more, fun k => comesTo_escape h⟩
    | backslash he' h =>
      rw [he] at he'
      cases he'
      cases hn
      exact ⟨_, more, fun k => comesTo_bareBackslash h⟩
    | doubled _ => cases hn
    | one he' _ =>
      cases hn
      exact absurd he' hsign
    | two he' _ =>
      cases hn
      exact absurd he' hsign

/-- A line end is taken whole. -/
theorem comesTo_lineEnd (hl : Unicode.isLineEnd c = true) (h : e.Unclosed cs)
    (hsign : ∀ d, Unicode.isLineEnd d = true → e ≠ .long d) : ∃ rest, e.Unclosed rest ∧
      ∀ k : Cursor, k.ahead = c :: cs → ComesTo (consumeLineEnd true false) k () rest := by
  obtain ⟨p, hp⟩ := exists_partner hl
  have hlp := (isLineEnd_of_partner? hp).2
  by_cases hhead : cs.head? = some p
  · obtain ⟨rest, rfl⟩ := List.head?_eq_some_iff.1 hhead
    have hslash : p ≠ '\\' := by
      rintro rfl
      cases hlp
    have hmark : p ≠ '"' := by
      rintro rfl
      cases hlp
    exact ⟨rest, (h.tail (fun _ => hslash) (fun _ => hmark) (hsign p hlp)).2,
      fun k hk => (succeeds_lineEnd_paired hk hp).comesTo hk⟩
  · exact ⟨cs, h, fun k hk => (succeeds_lineEnd_alone hk hp hhead).comesTo hk⟩

/-- A doubled quotation mark is text. -/
theorem comesTo_markTurn (h : e.Unclosed ('"' :: cs)) (hplain : e.isPlain '"' = false)
    (hsign : e ≠ .long '"') : ∃ rest, e.Unclosed rest ∧
      ∀ k : Cursor, k.ahead = '"' :: cs → ComesTo Table.Csv.markTurn k (.again ()) rest := by
  generalize hn : '"' :: cs = text at h
  cases h with
  | nil => cases hn
  | @cons ds rest h more =>
    cases h with
    | plain h =>
      cases hn
      rw [hplain] at h
      cases h
    | escape _ h => cases h <;> cases hn
    | backslash _ _ => cases hn
    | doubled h =>
      cases hn
      exact ⟨rest, more, fun k hk => (Table.Csv.succeeds_doubledMark hk).comesTo hk⟩
    | one he _ =>
      cases hn
      exact absurd he hsign
    | two he _ =>
      cases hn
      exact absurd he hsign

/-- One or two signs of a long literal are text. -/
theorem comesTo_longSigns (surplus : Surplus) (h : (Enclosure.long sign).Unclosed (sign :: cs))
    (hslash : sign ≠ '\\') (hl : Unicode.isLineEnd sign = false) :
    ∃ rest, (Enclosure.long sign).Unclosed rest ∧
      ∀ k : Cursor, k.ahead = sign :: cs → ComesTo (longSigns sign surplus) k (.again ()) rest := by
  generalize hn : sign :: cs = text at h
  cases h with
  | nil => cases hn
  | @cons ds rest h more =>
    cases h with
    | plain h =>
      cases hn
      rw [Enclosure.isPlain, bne_self_eq_false, Bool.and_false] at h
      cases h
    | escape _ h => cases h <;> exact absurd (List.cons.inj hn).1 hslash
    | backslash _ _ => exact absurd (List.cons.inj hn).1 hslash
    | doubled h => cases h
    | one he hrest =>
      cases he
      cases hn
      refine ⟨rest, more, fun k hk => ?_⟩
      have hnext : (rest.head? == some sign) = false := beq_eq_false_iff_ne.2 hrest
      refine ((succeeds_skip (by rw [hk]; rfl) hl).comesTo hk).bind fun mid hmid => ?_
      refine ((succeeds_nextIs sign).comesTo hmid).bind fun mid' hmid' => ?_
      rw [hmid, if_neg (by rw [hnext]; decide)]
      exact ((succeeds_push sign).comesTo hmid').thenPure _
    | two he hrest =>
      cases he
      cases hn
      refine ⟨rest, more, fun k hk => ?_⟩
      have hnext : (rest.head? == some sign) = false := beq_eq_false_iff_ne.2 hrest
      refine ((succeeds_skip (by rw [hk]; rfl) hl).comesTo hk).bind fun mid hmid => ?_
      refine ((succeeds_nextIs sign).comesTo hmid).bind fun mid' hmid' => ?_
      rw [hmid, if_pos (by simp)]
      refine ((succeeds_skip (by rw [hmid']; rfl) hl).comesTo hmid').bind fun mid hmid => ?_
      refine ((succeeds_nextIs sign).comesTo hmid).bind fun mid' hmid' => ?_
      rw [hmid, if_neg (by rw [hnext]; decide)]
      exact ((succeeds_append _).comesTo hmid').thenPure _

/-- A character that stands for itself is taken into the token. -/
theorem comesTo_consume (hl : Unicode.isLineEnd c = false) (hk : k.ahead = c :: cs) :
    ComesTo (do let _ ← consume; return .again ()) k (Turn.again () : Turn Unit Unit) cs :=
  ((succeeds_consume (by rw [hk]; rfl) hl).comesTo hk).thenPure _

end Turns

/-! ## Scanners -/

section Bodies

/-- A sign of a literal. -/
def IsSign (sign : Char) : Prop := sign = '"' ∨ sign = '\''

theorem IsSign.ne (h : IsSign sign) : sign ≠ '\\' := by
  rcases h with rfl | rfl <;> decide

theorem IsSign.not_isLineEnd (h : IsSign sign) : Unicode.isLineEnd sign = false := by
  rcases h with rfl | rfl <;> decide

theorem breaks_shortBody (h : (Enclosure.short sign).Unclosed cs) (hk : k.Awaits cause cs) :
    Breaks cause (shortBody sign) k := by
  refine breaks_iterate (Enclosure.short sign).Unclosed
    (fun k hk => breaks_look_nil hk fun _ => breaks_unexpectedEnd _) (fun k c cs h hk => ?_) h hk
  by_cases hslash : c = '\\'
  · subst hslash
    obtain ⟨rest, hrest, hdecode⟩ := comesTo_decodeEscape h rfl rfl nofun
    exact ⟨rest, hrest, comesTo_look hk fun mid hmid => (hdecode mid hmid).thenPure _⟩
  · obtain ⟨hplain, hcs⟩ := h.tail (fun _ => hslash) nofun nofun
    obtain ⟨hslash, hsign, hl⟩ := ne_of_isPlainIn hplain
    refine ⟨cs, hcs, comesTo_look hk fun mid hmid => ?_⟩
    dsimp only [List.head?_cons]
    rw [if_neg hslash, if_neg hsign, if_neg (by rw [hl]; decide)]
    exact comesTo_consume hl hmid

theorem breaks_longBody (surplus : Surplus) (hsign : IsSign sign)
    (h : (Enclosure.long sign).Unclosed cs) (hk : k.Awaits cause cs) :
    Breaks cause (longBody sign surplus) k := by
  refine breaks_iterate (Enclosure.long sign).Unclosed
    (fun k hk => breaks_look_nil hk fun _ => breaks_unexpectedEnd _) (fun k c cs h hk => ?_) h hk
  by_cases hslash : c = '\\'
  · subst hslash
    obtain ⟨rest, hrest, hdecode⟩ := comesTo_decodeEscape h rfl rfl
      fun he => hsign.ne (Enclosure.long.inj he)
    exact ⟨rest, hrest, comesTo_look hk fun mid hmid => (hdecode mid hmid).thenPure _⟩
  have hslash' : ¬ (c == '\\') = true := by simpa using hslash
  by_cases hc : c = sign
  · subst hc
    obtain ⟨rest, hrest, hsigns⟩ := comesTo_longSigns surplus h hslash hsign.not_isLineEnd
    refine ⟨rest, hrest, comesTo_look hk fun mid hmid => ?_⟩
    dsimp only [List.head?_cons]
    rw [if_neg hslash', if_pos (beq_self_eq_true c)]
    exact hsigns mid hmid
  · have hne : ¬ (c == sign) = true := by simpa using hc
    obtain ⟨-, hcs⟩ := h.tail (fun _ => hslash) nofun fun he => hc (Enclosure.long.inj he).symm
    by_cases hl : Unicode.isLineEnd c = true
    · obtain ⟨rest, hrest, hline⟩ := comesTo_lineEnd hl hcs fun d hd he => by
        rw [← Enclosure.long.inj he, hsign.not_isLineEnd] at hd
        cases hd
      refine ⟨rest, hrest, comesTo_look hk fun mid hmid => ?_⟩
      dsimp only [List.head?_cons]
      rw [if_neg hslash', if_neg hne, if_pos hl]
      exact (hline mid hmid).thenPure _
    · refine ⟨cs, hcs, comesTo_look hk fun mid hmid => ?_⟩
      dsimp only [List.head?_cons]
      rw [if_neg hslash', if_neg hne, if_neg hl]
      exact comesTo_consume (Bool.eq_false_iff.2 hl) hmid

theorem breaks_quotedBody (h : Enclosure.field.Unclosed cs) (hk : k.Awaits cause cs) :
    Breaks cause (iterate Table.Csv.quotedTurn Table.Csv.advances_quotedTurn ()) k := by
  refine breaks_iterate Enclosure.field.Unclosed
    (fun k hk => breaks_look_nil hk fun _ => breaks_unexpectedEnd _) (fun k c cs h hk => ?_) h hk
  by_cases hmark : c = '"'
  · subst hmark
    obtain ⟨rest, hrest, hturn⟩ := comesTo_markTurn h rfl nofun
    exact ⟨rest, hrest, comesTo_look hk fun mid hmid => hturn mid hmid⟩
  have hmark' : ¬ (c == '"') = true := by simpa using hmark
  obtain ⟨-, hcs⟩ := h.tail (fun he => absurd rfl he) (fun _ => hmark) nofun
  by_cases hl : Unicode.isLineEnd c = true
  · obtain ⟨rest, hrest, hline⟩ := comesTo_lineEnd hl hcs fun _ _ => nofun
    refine ⟨rest, hrest, comesTo_look hk fun mid hmid => ?_⟩
    dsimp only [List.head?_cons]
    rw [if_neg hmark', if_pos hl]
    exact (hline mid hmid).thenPure _
  · refine ⟨cs, hcs, comesTo_look hk fun mid hmid => ?_⟩
    dsimp only [List.head?_cons]
    rw [if_neg hmark', if_neg hl]
    exact comesTo_consume (Bool.eq_false_iff.2 hl) hmid

theorem breaks_literalBody (h : Enclosure.cell.Unclosed cs) (hk : k.Awaits cause cs) :
    Breaks cause (iterate Table.Tsv.literalTurn Table.Tsv.advances_literalTurn ()) k := by
  refine breaks_iterate Enclosure.cell.Unclosed
    (fun k hk => breaks_look_nil hk fun _ => breaks_unexpectedEnd _) (fun k c cs h hk => ?_) h hk
  by_cases hslash : c = '\\'
  · subst hslash
    obtain ⟨rest, hrest, hdecode⟩ := comesTo_decodeEscape h rfl rfl nofun
    exact ⟨rest, hrest, comesTo_look hk fun mid hmid => (hdecode mid hmid).thenPure _⟩
  have hslash' : ¬ (c == '\\') = true := by simpa using hslash
  by_cases hmark : c = '"'
  · subst hmark
    obtain ⟨rest, hrest, hturn⟩ := comesTo_markTurn h rfl nofun
    exact ⟨rest, hrest, comesTo_look hk fun mid hmid => hturn mid hmid⟩
  have hmark' : ¬ (c == '"') = true := by simpa using hmark
  obtain ⟨-, hcs⟩ := h.tail (fun _ => hslash) (fun _ => hmark) nofun
  by_cases hl : Unicode.isLineEnd c = true
  · obtain ⟨rest, hrest, hline⟩ := comesTo_lineEnd hl hcs fun _ _ => nofun
    refine ⟨rest, hrest, comesTo_look hk fun mid hmid => ?_⟩
    dsimp only [List.head?_cons]
    rw [if_neg hslash', if_neg hmark', if_pos hl]
    exact (hline mid hmid).thenPure _
  · refine ⟨cs, hcs, comesTo_look hk fun mid hmid => ?_⟩
    dsimp only [List.head?_cons]
    rw [if_neg hslash', if_neg hmark', if_neg hl]
    exact comesTo_consume (Bool.eq_false_iff.2 hl) hmid

theorem breaks_referenceBody (h : Enclosure.reference.Unclosed cs) (hk : k.Awaits cause cs) :
    Breaks cause referenceBody k := by
  refine breaks_iterate Enclosure.reference.Unclosed
    (fun k hk => breaks_look_nil hk fun _ => breaks_unexpectedEnd _) (fun k c cs h hk => ?_) h hk
  by_cases hslash : c = '\\'
  · subst hslash
    obtain ⟨rest, hrest, hdecode⟩ := comesTo_decodeEscape h rfl rfl nofun
    exact ⟨rest, hrest, comesTo_look hk fun mid hmid => (hdecode mid hmid).thenPure _⟩
  · obtain ⟨hplain, hcs⟩ := h.tail (fun _ => hslash) nofun nofun
    obtain ⟨hclose, hslash, hb⟩ := ne_of_isPlainReference hplain
    have hl : Unicode.isLineEnd c = false := by
      refine Bool.eq_false_iff.2 fun hl => ?_
      rw [Unicode.isBlank_of_isLineEnd hl] at hb
      cases hb
    refine ⟨cs, hcs, comesTo_look hk fun mid hmid => ?_⟩
    dsimp only [List.head?_cons]
    rw [if_neg hclose, if_neg hslash, if_neg (by rw [hl]; decide), if_neg (by rw [hb]; decide)]
    exact comesTo_consume hl hmid

end Bodies

end Scan

end TripleLex

import TripleLex.Proofs.Records
import TripleLex.Proofs.WholeNames

/-!
# Texts that are written with escapes

A character is written as itself where it is plain there, and otherwise with an
escape that stands for it (`Piece`). What is written for the characters of a text
is laid one behind the other (`Spelled`), and each of the three scanners that
decode escapes takes such pieces one by one, up to the sign that closes them.
Since a piece is taken whole, no character that was decoded is read again.

## Main results

* `succeeds_decodeEscape` — an escape gives the character that it was written for.
* `succeeds_shortBody`, `succeeds_literalBody`, `succeeds_referenceBody` — all of a
  spelling is read, and the text comes back.
* `spelled_literal`, `spelled_reference` — the usual spellings are such.
-/

namespace TripleLex

/-! ## Escapes by code point -/

namespace Escape

/-- A hexadecimal digit; those above nine are capital or small letters. -/
def hexDigit (capital : Bool) (n : Nat) : Char :=
  if n < 10 then Char.ofNat ('0'.toNat + n)
  else Char.ofNat ((if capital then 'A' else 'a').toNat + (n - 10))

/-- The last four hexadecimal digits of a number. -/
def fourDigits (capital : Bool) (n : Nat) : List Char :=
  [n / 0x1000 % 16, n / 0x100 % 16, n / 0x10 % 16, n % 16].map (hexDigit capital)

/-- A character as an escape by its code point, of four digits. -/
def byCodePoint (capital : Bool) (c : Char) : List Char :=
  '\\' :: 'u' :: fourDigits capital c.toNat

theorem isHexDigit_hexDigit (capital : Bool) {n : Nat} (h : n < 16) :
    Name.isHexDigit (hexDigit capital n) = true := by
  revert capital n
  decide

theorem hexValue_hexDigit (capital : Bool) {n : Nat} (h : n < 16) :
    hexValue (hexDigit capital n) = n := by
  revert capital n
  decide

theorem isHexDigit_fourDigits {capital : Bool} {n : Nat} {c : Char}
    (h : c ∈ fourDigits capital n) : Name.isHexDigit c = true := by
  obtain ⟨d, hd, rfl⟩ := List.mem_map.1 h
  refine isHexDigit_hexDigit capital ?_
  simp only [List.mem_cons, List.not_mem_nil, or_false] at hd
  omega

theorem number_fourDigits (capital : Bool) {n : Nat} (h : n < 0x10000) :
    number (fourDigits capital n) = n := by
  have hvalue := fun {d : Nat} (hd : d < 16) => hexValue_hexDigit capital hd
  unfold number fourDigits
  simp only [List.map_cons, List.map_nil, List.foldl_cons, List.foldl_nil]
  rw [hvalue (by omega), hvalue (by omega), hvalue (by omega), hvalue (by omega)]
  omega

theorem scalar?_toNat (c : Char) : scalar? c.toNat = some c := by
  have hvalid : c.toNat.isValidChar := c.valid
  unfold scalar?
  rw [if_pos hvalid, Char.ofNat_toNat]

/-- An escape that stands for a character where it is written. -/
inductive Stands (context : EscapeContext) : List Char → Char → Prop
  /-- The character behind a backslash. -/
  | itself {c : Char} (h : ofChar context c = .itself) : Stands context ['\\', c] c
  /-- A letter behind a backslash. -/
  | control {c d : Char} (h : ofChar context d = .control c) : Stands context ['\\', d] c
  /-- The code point. -/
  | code (capital : Bool) {c : Char} (hne : c.toNat ≠ 0) (hlt : c.toNat < 0x10000) :
    Stands context (byCodePoint capital c) c

/-- An escape begins with its backslash. -/
theorem Stands.eq_cons {context : EscapeContext} {cs : List Char} {c : Char}
    (h : Stands context cs c) : ∃ ds, cs = '\\' :: ds := by
  cases h <;> exact ⟨_, rfl⟩

theorem ofChar_u (context : EscapeContext) : ofChar context 'u' = .codePoint 4 false := rfl

/-- A character that may stand behind a backslash ends no line. -/
theorem not_isLineEnd_of_ofChar {context : EscapeContext} {c : Char}
    (hnone : ofChar context c ≠ .none) (hrefused : ofChar context c ≠ .refused) :
    Unicode.isLineEnd c = false := by
  rw [Bool.eq_false_iff]
  intro h
  simp only [Unicode.isLineEnd, Bool.or_eq_true, beq_iff_eq] at h
  rcases h with rfl | rfl <;> cases context <;> first | exact hnone rfl | exact hrefused rfl

end Escape

namespace Scan

section Escapes

open Escape (Stands)

variable {k : Cursor} {context : EscapeContext}

/-- The digits of a code point give its character. -/
theorem succeeds_pushCodePoint (capital : Bool) {c : Char} (hne : c.toNat ≠ 0)
    (hlt : c.toNat < 0x10000) :
    Succeeds (pushCodePoint (Escape.fourDigits capital c.toNat)) k [] [c] () := by
  unfold pushCodePoint
  rw [Escape.number_fourDigits capital hlt, if_pos (by simpa using hne), Escape.scalar?_toNat]
  exact succeeds_push c

theorem succeeds_codePoint (capital : Bool) {c : Char} {rest : List Char} (hne : c.toNat ≠ 0)
    (hlt : c.toNat < 0x10000)
    (hk : k.ahead = 'u' :: (Escape.fourDigits capital c.toNat ++ rest)) :
    Succeeds (decodeAfterBackslash context 'u') k ('u' :: Escape.fourDigits capital c.toNat)
      [c] () := by
  unfold decodeAfterBackslash
  rw [Escape.ofChar_u]
  have hskip : Succeeds skip k ['u'] [] 'u' := succeeds_skip (by rw [hk]; rfl) (by decide)
  refine hskip.bind (Escape.fourDigits capital c.toNat) [c] fun mid r => ?_
  generalize hds : Escape.fourDigits capital c.toNat = ds at hk ⊢
  have hlength : ds.length = 4 := by
    rw [← hds]
    rfl
  have hdigits : Succeeds (readHexDigits 4) mid ds [] ds := by
    rw [← hlength]
    refine succeeds_hexDigits (r.rest_eq hk) ?_
    rw [← hds]
    exact fun _ => Escape.isHexDigit_fourDigits
  rw [← List.append_nil ds]
  refine hdigits.bind [] [c] fun mid' _ => ?_
  rw [if_neg (by rw [hlength]; decide), ← hds]
  exact (succeeds_pure ()).bind [] [c] fun _ _ => succeeds_pushCodePoint capital hne hlt

/-- A backslash is dropped, and what comes behind it decides. -/
theorem succeeds_behindBackslash {ds rest : List Char} {c d : Char}
    (hk : k.ahead = '\\' :: d :: (ds ++ rest))
    (hd : ∀ mid, mid.ahead = d :: (ds ++ rest) →
      Succeeds (decodeAfterBackslash context d) mid (d :: ds) [c] ()) :
    Succeeds (decodeEscape context) k ('\\' :: d :: ds) [c] () := by
  have hskip : Succeeds skip k ['\\'] [] '\\' := succeeds_skip (by rw [hk]; rfl) (by decide)
  refine hskip.bind (d :: ds) [c] fun mid r => ?_
  have hmid : mid.ahead = d :: (ds ++ rest) := r.rest_eq hk
  rw [if_neg (by decide)]
  refine succeeds_look_bind fun mid' r' => ?_
  rw [hmid]
  exact hd mid' (r'.ahead_eq.trans hmid)

/-- An escape is decoded to the character that it stands for. -/
theorem succeeds_decodeEscape {cs rest : List Char} {c : Char} (h : Stands context cs c)
    (hk : k.ahead = cs ++ rest) : Succeeds (decodeEscape context) k cs [c] () := by
  cases h with
  | itself h =>
    refine succeeds_behindBackslash hk fun mid hmid => ?_
    rw [List.nil_append] at hmid
    have hl : Unicode.isLineEnd c = false :=
      Escape.not_isLineEnd_of_ofChar (by rw [h]; nofun) (by rw [h]; nofun)
    unfold decodeAfterBackslash
    rw [h]
    exact (succeeds_consume (by rw [hmid]; rfl) hl).thenPure _
  | @control _ d h =>
    refine succeeds_behindBackslash hk fun mid hmid => ?_
    rw [List.nil_append] at hmid
    have hl : Unicode.isLineEnd d = false :=
      Escape.not_isLineEnd_of_ofChar (by rw [h]; nofun) (by rw [h]; nofun)
    unfold decodeAfterBackslash
    rw [h]
    exact (succeeds_skip (by rw [hmid]; rfl) hl).bind [] [c] fun _ _ => succeeds_push c
  | code capital hne hlt =>
    exact succeeds_behindBackslash hk fun mid hmid => succeeds_codePoint capital hne hlt hmid

end Escapes

/-! ## Spellings -/

/-- What is written for a character: itself where it is plain, or an escape. -/
inductive Piece (plain : Char → Bool) (context : EscapeContext) : List Char → Char → Prop
  | plain {c : Char} (h : plain c = true) : Piece plain context [c] c
  | escape {cs : List Char} {c : Char} (h : Escape.Stands context cs c) :
    Piece plain context cs c

/-- What is written for a text, character by character. -/
inductive Spelled (plain : Char → Bool) (context : EscapeContext) : List Char → List Char → Prop
  | nil : Spelled plain context [] []
  | cons {cs ds text : List Char} {c : Char} (h : Piece plain context cs c)
    (more : Spelled plain context ds text) : Spelled plain context (cs ++ ds) (c :: text)

section Spellings

variable {plain : Char → Bool} {context : EscapeContext} {k : Cursor}

/-- What is spelled begins with a backslash or a plain character. -/
theorem Spelled.exists_cons {cs text : List Char} {c : Char}
    (h : Spelled plain context cs (c :: text)) :
    ∃ d ds, cs = d :: ds ∧ (d = '\\' ∨ plain d = true) := by
  cases h with
  | cons hc _ =>
    cases hc with
    | plain h => exact ⟨_, _, rfl, .inr h⟩
    | escape h =>
      obtain ⟨ds, rfl⟩ := h.eq_cons
      exact ⟨_, _, rfl, .inl rfl⟩

theorem spelled_flatMap {spell : Char → List Char}
    (h : ∀ c, Piece plain context (spell c) c) (text : List Char) :
    Spelled plain context (text.flatMap spell) text := by
  induction text with
  | nil => exact .nil
  | cons c text ih =>
    rw [List.flatMap_cons]
    exact .cons (h c) ih

/-- Turns that take a piece, and the sign that closes, take all that is spelled. -/
theorem succeeds_spelled {turn : Unit → Scan (Turn Unit Unit)} {h : ∀ u, Advances (turn u)}
    {cs text rest : List Char} {sign : Char}
    (hpiece : ∀ {k : Cursor} {ds : List Char} {c : Char} (more : List Char),
      Piece plain context ds c → k.ahead = ds ++ more →
        Succeeds (turn ()) k ds [c] (.again ()))
    (hclose : ∀ {k : Cursor}, k.ahead = sign :: rest →
      Succeeds (turn ()) k [sign] [] (.done ()))
    (hs : Spelled plain context cs text) (hk : k.ahead = cs ++ sign :: rest) :
    Succeeds (iterate turn h ()) k (cs ++ [sign]) text () := by
  induction hs generalizing k with
  | nil => exact succeeds_done (hclose hk)
  | cons hc _ ih =>
    rw [List.append_assoc] at hk ⊢
    exact succeeds_again (hpiece _ hc hk) fun mid r => ih (r.rest_eq hk)

end Spellings

/-! ## Literals -/

/-- Whether a character of a literal stands for itself. -/
def isPlainIn (sign c : Char) : Bool := c != '\\' && c != sign && !Unicode.isLineEnd c

theorem ne_of_isPlainIn {sign c : Char} (h : isPlainIn sign c = true) :
    ¬ (c == '\\') = true ∧ ¬ (c == sign) = true ∧ Unicode.isLineEnd c = false := by
  simpa [isPlainIn, and_assoc] using h

section Bodies

variable {k : Cursor} {sign : Char} {cs text rest : List Char}

/-- A turn of a literal takes a piece, whatever it makes of the sign and of what
cannot stand in a literal. -/
theorem succeeds_literalPiece {atEnd atSign atLineEnd : Scan (Turn Unit Unit)} {ds : List Char}
    {c : Char} (more : List Char) (h : Piece (isPlainIn sign) (.between sign) ds c)
    (hk : k.ahead = ds ++ more) :
    Succeeds (do
      match ← look with
      | none => atEnd
      | some c =>
        if c == '\\' then
          decodeEscape (.between sign)
          return .again ()
        else if c == sign then atSign
        else if Unicode.isLineEnd c then atLineEnd
        else
          let _ ← consume
          return .again ()) k ds [c] (.again ()) := by
  refine succeeds_look_bind fun mid r => ?_
  cases h with
  | plain h =>
    obtain ⟨hslash, hsign, hl⟩ := ne_of_isPlainIn h
    rw [hk]
    dsimp only [List.cons_append, List.head?_cons]
    rw [if_neg hslash, if_neg hsign, if_neg (by rw [hl]; decide)]
    exact (succeeds_consume (by rw [r.ahead_eq, hk]; rfl) hl).thenPure _
  | escape h =>
    have hdecode := succeeds_decodeEscape h (r.ahead_eq.trans hk)
    obtain ⟨es, rfl⟩ := h.eq_cons
    rw [hk]
    exact hdecode.thenPure _

/-- The rest of a short literal is read up to its closing sign. -/
theorem succeeds_shortBody (hsign : sign = '"' ∨ sign = '\'')
    (hs : Spelled (isPlainIn sign) (.between sign) cs text) (hk : k.ahead = cs ++ sign :: rest) :
    Succeeds (shortBody sign) k (cs ++ [sign]) text () := by
  refine succeeds_spelled succeeds_literalPiece (fun hk => succeeds_look_bind fun mid r => ?_) hs hk
  have hskip : mid.ahead.head? = some sign := by
    rw [r.ahead_eq, hk]
    rfl
  rw [hk]
  rcases hsign with rfl | rfl <;> exact (succeeds_skip hskip (by decide)).thenPure _

theorem succeeds_literalTurn {ds : List Char} {c : Char} (more : List Char)
    (h : Piece (isPlainIn '"') (.between '"') ds c) (hk : k.ahead = ds ++ more) :
    Succeeds (Table.Tsv.literalTurn ()) k ds [c] (.again ()) := by
  have hcontext : EscapeContext.quotation = .between '"' := rfl
  unfold Table.Tsv.literalTurn
  rw [hcontext]
  exact succeeds_literalPiece more h hk

/-- So is that of a literal of tab-separated values, if no second sign follows. -/
theorem succeeds_literalBody (hs : Spelled (isPlainIn '"') (.between '"') cs text)
    (hrest : rest.head? ≠ some '"') (hk : k.ahead = cs ++ '"' :: rest) :
    Succeeds (iterate Table.Tsv.literalTurn Table.Tsv.advances_literalTurn ()) k (cs ++ ['"'])
      text () := by
  refine succeeds_spelled succeeds_literalTurn (fun hk => succeeds_look_bind fun mid r => ?_) hs hk
  rw [hk]
  exact Table.Csv.succeeds_lastMark (r.ahead_eq.trans hk) hrest

/-! ## References -/

/-- Whether a character of a reference stands for itself. -/
def isPlainReference (c : Char) : Bool := c != '>' && c != '\\' && !Unicode.isBlank c

theorem ne_of_isPlainReference {c : Char} (h : isPlainReference c = true) :
    ¬ (c == '>') = true ∧ ¬ (c == '\\') = true ∧ Unicode.isBlank c = false := by
  simpa [isPlainReference, and_assoc] using h

theorem succeeds_referenceTurn {ds : List Char} {c : Char} (more : List Char)
    (h : Piece isPlainReference .reference ds c) (hk : k.ahead = ds ++ more) :
    Succeeds (referenceTurn ()) k ds [c] (.again ()) := by
  refine succeeds_look_bind fun mid r => ?_
  cases h with
  | plain h =>
    obtain ⟨hclose, hslash, hb⟩ := ne_of_isPlainReference h
    have hl : Unicode.isLineEnd c = false := by
      rw [Bool.eq_false_iff]
      intro hl
      rw [Unicode.isBlank_of_isLineEnd hl] at hb
      cases hb
    rw [hk]
    dsimp only [List.cons_append, List.head?_cons]
    rw [if_neg hclose, if_neg hslash, if_neg (by rw [hl]; decide), if_neg (by rw [hb]; decide)]
    exact (succeeds_consume (by rw [r.ahead_eq, hk]; rfl) hl).thenPure _
  | escape h =>
    have hdecode := succeeds_decodeEscape h (r.ahead_eq.trans hk)
    obtain ⟨es, rfl⟩ := h.eq_cons
    rw [hk]
    exact hdecode.thenPure _

/-- The rest of a reference is read up to its closing bracket. -/
theorem succeeds_referenceBody (hs : Spelled isPlainReference .reference cs text)
    (hk : k.ahead = cs ++ '>' :: rest) : Succeeds referenceBody k (cs ++ ['>']) text () := by
  refine succeeds_spelled succeeds_referenceTurn (fun hk => succeeds_look_bind fun mid r => ?_)
    hs hk
  rw [hk]
  exact (succeeds_skip (by rw [r.ahead_eq, hk]; rfl) (by decide)).thenPure _

end Bodies

end Scan

/-! ## The usual spellings -/

section Writing

variable (capital : Bool)

/-- A character of a literal between two of these signs: the sign and the control
characters with escapes of their own, a backslash by its code point. -/
def literalPiece (sign c : Char) : List Char :=
  if c = sign then ['\\', sign]
  else
    match c with
    | '\\' => Escape.byCodePoint capital '\\'
    | '\n' => ['\\', 'n']
    | '\r' => ['\\', 'r']
    | '\t' => ['\\', 't']
    | c => [c]

/-- A character of a reference: what it cannot hold is written by its code point. -/
def referencePiece (c : Char) : List Char :=
  if Unicode.isBlank c || c == '>' || c == '\\' then Escape.byCodePoint capital c else [c]

/-- A literal between two of these signs. -/
def writtenLiteral (sign : Char) (text : List Char) : List Char :=
  sign :: (text.flatMap (literalPiece capital sign) ++ [sign])

/-- A reference between its brackets. -/
def writtenReference (text : List Char) : List Char :=
  '<' :: (text.flatMap (referencePiece capital) ++ ['>'])

/-- A reference in a syntax that has the operator `<=`: a sign of equality at its
start is written by its code point as well. -/
def guardedReference : List Char → List Char
  | '=' :: text =>
    '<' :: (Escape.byCodePoint capital '=' ++ (text.flatMap (referencePiece capital) ++ ['>']))
  | text => writtenReference capital text

end Writing

namespace Scan

open Unicode (isBlank)

/-- Every blank character has a code point of four digits. -/
theorem toNat_of_isBlank {c : Char} (h : isBlank c = true) : c.toNat ≠ 0 ∧ c.toNat < 0x10000 := by
  have hrange : ∀ run ∈ Unicode.blankRanges, 0 < run.1 ∧ run.2 < 0x10000 := by decide
  obtain ⟨run, hrun, hlo, hhi⟩ := Unicode.Ranges.has_iff.1 h
  have hbounds := hrange run hrun
  omega

theorem piece_literal (capital : Bool) {sign : Char} (hsign : sign = '"' ∨ sign = '\'')
    (c : Char) :
    Piece (isPlainIn sign) (.between sign) (literalPiece capital sign c) c := by
  have hitself : Escape.ofChar (.between sign) sign = .itself := by
    rcases hsign with rfl | rfl <;> decide
  have hcontrol : Escape.ofChar (.between sign) 'n' = .control '\n' ∧
      Escape.ofChar (.between sign) 'r' = .control '\r' ∧
      Escape.ofChar (.between sign) 't' = .control '\t' := by
    rcases hsign with rfl | rfl <;> decide
  unfold literalPiece
  split
  · rename_i hc
    subst hc
    exact .escape (.itself hitself)
  · rename_i hne
    split
    · exact .escape (.code capital (by decide) (by decide))
    · exact .escape (.control hcontrol.1)
    · exact .escape (.control hcontrol.2.1)
    · exact .escape (.control hcontrol.2.2)
    · rename_i hslash hfeed hreturn _
      have hplain : c ≠ '\\' ∧ c ≠ '\n' ∧ c ≠ '\r' := ⟨hslash, hfeed, hreturn⟩
      exact .plain (by simpa [isPlainIn, Unicode.isLineEnd, hne] using hplain)

theorem spelled_literal (capital : Bool) {sign : Char} (hsign : sign = '"' ∨ sign = '\'')
    (text : List Char) :
    Spelled (isPlainIn sign) (.between sign) (text.flatMap (literalPiece capital sign)) text :=
  spelled_flatMap (piece_literal capital hsign) text

theorem piece_reference (capital : Bool) (c : Char) :
    Piece isPlainReference .reference (referencePiece capital c) c := by
  unfold referencePiece
  split
  · rename_i hc
    simp only [Bool.or_eq_true, beq_iff_eq] at hc
    obtain ⟨hne, hlt⟩ : c.toNat ≠ 0 ∧ c.toNat < 0x10000 := by
      rcases hc with (hc | rfl) | rfl
      · exact toNat_of_isBlank hc
      · decide
      · decide
    exact .escape (.code capital hne hlt)
  · rename_i hc
    refine .plain ?_
    simp only [Bool.not_eq_true, Bool.or_eq_false_iff] at hc
    obtain ⟨⟨hblank, hclose⟩, hslash⟩ := hc
    rw [isPlainReference, bne, bne, hblank, hclose, hslash]
    rfl

theorem spelled_reference (capital : Bool) (text : List Char) :
    Spelled isPlainReference .reference (text.flatMap (referencePiece capital)) text :=
  spelled_flatMap (piece_reference capital) text

/-- A guarded reference is spelled behind its bracket, and no sign of equality and no
blank character come first. -/
theorem exists_guardedReference (capital : Bool) (text : List Char) :
    ∃ cs, guardedReference capital text = '<' :: (cs ++ ['>']) ∧
      Spelled isPlainReference .reference cs text ∧
      ∀ c, (cs ++ ['>']).head? = some c → c ≠ '=' ∧ isBlank c = false := by
  unfold guardedReference
  split
  · rename_i text
    refine ⟨Escape.byCodePoint capital '=' ++ text.flatMap (referencePiece capital), ?_,
      .cons (.escape (.code capital (by decide) (by decide))) (spelled_reference capital text), ?_⟩
    · rw [List.append_assoc]
    · rintro c ⟨⟩
      decide
  · rename_i hne
    refine ⟨_, rfl, spelled_reference capital text, ?_⟩
    cases text with
    | nil =>
      rintro c ⟨⟩
      decide
    | cons d text =>
      intro c hc
      rw [List.flatMap_cons] at hc
      unfold referencePiece at hc
      split at hc
      · cases hc
        decide
      · rename_i hplain
        cases hc
        simp only [Bool.not_eq_true, Bool.or_eq_false_iff] at hplain
        exact ⟨fun heq => hne text (by rw [heq]), hplain.1.1⟩

end Scan

end TripleLex

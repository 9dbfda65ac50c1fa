import Mathlib.Data.List.Induction
import Mathlib.Data.List.TakeWhile
import TripleLex.Quoted.Literal
import TripleLex.Quoted.Reference

/-!
# A decoder of what stands between signs

Short literals and references are decoded here from their text alone, as a reader of the
grammars would do it by hand: the text is cut where it is closed, and what stands before
that is decoded from left to right. Both depend on nothing but the sign that closes.

Where a text is closed is said by backslashes alone: at the first sign behind an even
number of them (`Decoder.ClosedAt`). What a backslash makes of the characters behind it is
`Decoder.escape?`. That the two agree, so that no escape takes the sign that closes, is
what the rules for `Decoder.Decodes` rest on; by these rules the text is followed piece by
piece, which is how a scan goes along it.

## Main results

* `ClosedAt.unique` — a text is closed in one place.
* `decodes_sign`, `decodes_plain`, `decodes_backslash` — a text is followed from the left.
-/

namespace TripleLex.Decoder

/-! ## The decoder -/

/-- A sign that closes a short literal or a reference. -/
def IsDelimiter (sign : Char) : Prop := sign = '"' ∨ sign = '\'' ∨ sign = '>'

/-- How many backslashes the text ends in. -/
def backslashes (cs : List Char) : Nat := (cs.reverse.takeWhile (· == '\\')).length

/-- A sign behind the text would close it, and none in it does. -/
structure IsBody (sign : Char) (body : List Char) : Prop where
  even : backslashes body % 2 = 0
  first : ∀ before after, body = before ++ sign :: after → backslashes before % 2 = 1

/-- The text is closed behind `body`, at the first sign behind an even number of
backslashes. -/
structure ClosedAt (sign : Char) (cs body rest : List Char) : Prop extends IsBody sign body where
  split : cs = body ++ sign :: rest

/-- Whether a character stands for itself behind a backslash: the sign that closes, and a
quotation mark between apostrophes. -/
def shields (sign c : Char) : Bool := c == sign || (sign == '\'' && c == '"')

/-- Whether a character cannot stand there: a line end in a literal, anything blank in a
reference. -/
def forbids (sign c : Char) : Bool :=
  if sign == '>' then Unicode.isBlank c else Unicode.isLineEnd c

/-- What the digits of a code point stand for, with the number of characters that belong to
it, its letter among them. There must be as many digits as announced, and a character with
that code point; zero stands for nothing. -/
def codePoint? (count : Nat) (kept : Bool) (cs : List Char) : Option (List Char × Nat) :=
  let digits := cs.take count
  let code := Escape.number digits
  if digits.length = count ∧ digits.all Name.isHexDigit ∧ code.isValidChar then
    some ((if kept then digits else []) ++ (if code = 0 then [] else [Char.ofNat code]), count + 1)
  else
    none

/-- What a backslash before the text stands for, with the number of characters behind the
backslash that belong to it. -/
def escape? (sign : Char) : List Char → Option (List Char × Nat)
  | [] => some (['\\'], 0)
  | c :: cs =>
    match c with
    | 'n' => some (['\n'], 1)
    | 'r' => some (['\r'], 1)
    | 't' => some (['\t'], 1)
    | '\\' =>
      if cs.head?.any ['t', 'n', 'r', 'u', 'U'].contains then some (['\\', '\\'], 1)
      else some (['\\'], 1)
    | 'u' => codePoint? 4 false cs
    | 'U' => codePoint? 8 true cs
    | c => if shields sign c then some ([c], 1) else some (['\\'], 0)

/-- Decodes what is left of a body behind this many characters. -/
def decodeFrom? (sign : Char) : Nat → List Char → Option (List Char)
  | _, [] => some []
  | n + 1, _ :: cs => decodeFrom? sign n cs
  | 0, c :: cs =>
    if c = '\\' then
      (escape? sign cs).bind fun (text, taken) => (decodeFrom? sign taken cs).map (text ++ ·)
    else if forbids sign c then none
    else (decodeFrom? sign 0 cs).map (c :: ·)

/-- The text of a body, unless it holds an escape by code point that is none, or a character
that cannot stand there. -/
def decode? (sign : Char) (body : List Char) : Option (List Char) := decodeFrom? sign 0 body

/-- The text is closed before `rest`, and decoded up to there. -/
def Decodes (sign : Char) (cs text rest : List Char) : Prop :=
  ∃ body, ClosedAt sign cs body rest ∧ decode? sign body = some text

/-! ## Where a text is closed -/

section Closing

variable {sign c : Char} {cs body p rest : List Char}

theorem backslashes_concat (cs : List Char) (c : Char) :
    backslashes (cs ++ [c]) = if c = '\\' then backslashes cs + 1 else 0 := by
  by_cases hc : c = '\\' <;> simp [backslashes, hc]

theorem backslashes_append {cs : List Char} (h : backslashes cs % 2 = 0) (ds : List Char) :
    backslashes (cs ++ ds) % 2 = backslashes ds % 2 := by
  induction ds using List.reverseRecOn with
  | nil => simpa [backslashes] using h
  | append_singleton ds d ih =>
    rw [← List.append_assoc, backslashes_concat, backslashes_concat]
    split
    · omega
    · rfl

/-- A character that is neither is a body. -/
theorem isBody_singleton (hsign : c ≠ sign) (hslash : c ≠ '\\') : IsBody sign [c] where
  even := by
    have h := backslashes_concat [] c
    rw [if_neg hslash, List.nil_append] at h
    rw [h]
  first := by
    intro before after h
    have hmem : sign ∈ [c] := by simp [h]
    exact absurd (List.mem_singleton.1 hmem).symm hsign

/-- So is a character behind a backslash. -/
theorem isBody_pair (hsign : sign ≠ '\\') (c : Char) : IsBody sign ['\\', c] where
  even := by
    have h := backslashes_concat ['\\'] c
    by_cases hc : c = '\\'
    · rw [hc]
      decide
    · rw [if_neg hc, List.singleton_append] at h
      rw [h]
  first := by
    intro before after h
    match before with
    | [] => exact absurd (List.cons.inj h).1.symm hsign
    | [d] =>
      rw [← (List.cons.inj h).1]
      decide
    | d :: d' :: before => simp at h

theorem isBody_append (hp : IsBody sign p) :
    IsBody sign (p ++ body) ↔ IsBody sign body := by
  constructor
  · intro h
    refine ⟨by rw [← backslashes_append hp.even, h.even], fun before after hbody => ?_⟩
    rw [← backslashes_append hp.even]
    exact h.first (p ++ before) after (by rw [hbody, List.append_assoc])
  · intro h
    refine ⟨by rw [backslashes_append hp.even, h.even], fun before after hbody => ?_⟩
    -- the sign stands in the piece or behind it
    obtain ⟨more, hpiece, hmore⟩ | ⟨more, hbefore, hbody⟩ := List.append_eq_append_iff.1 hbody
    · rw [hpiece, backslashes_append hp.even]
      exact h.first more after hmore
    · cases more with
      | nil =>
        rw [List.append_nil] at hbefore
        rw [← hbefore, ← List.append_nil p, backslashes_append hp.even]
        exact h.first [] after hbody.symm
      | cons d more =>
        obtain ⟨rfl, -⟩ := List.cons.inj hbody
        exact hp.first before more hbefore

/-- A body that goes on is not closed there. -/
theorem IsBody.eq_nil {more after : List Char} (h : IsBody sign body)
    (h' : IsBody sign (body ++ more)) (hsign : sign :: rest = more ++ after) : more = [] := by
  cases more with
  | nil => rfl
  | cons d more =>
    obtain ⟨rfl, -⟩ := List.cons.inj hsign
    have hodd := h'.first body more rfl
    have heven := h.even
    omega

/-- A text is closed in one place. -/
theorem ClosedAt.unique {body' rest' : List Char} (h : ClosedAt sign cs body rest)
    (h' : ClosedAt sign cs body' rest') : body = body' ∧ rest = rest' := by
  have hsplit : body ++ sign :: rest = body' ++ sign :: rest' := h.split.symm.trans h'.split
  obtain ⟨more, rfl, hrest⟩ | ⟨more, rfl, hrest⟩ := List.append_eq_append_iff.1 hsplit
  · obtain rfl := h.toIsBody.eq_nil h'.toIsBody hrest
    exact ⟨(List.append_nil body).symm, (List.cons.inj hrest).2⟩
  · obtain rfl := h'.toIsBody.eq_nil h.toIsBody hrest
    exact ⟨List.append_nil body', (List.cons.inj hrest).2.symm⟩

/-- Whether a text is a body can be told by looking at each sign in it. -/
theorem isBody_iff : IsBody sign body ↔ backslashes body % 2 = 0 ∧
    ∀ n < body.length, body[n]? = some sign → backslashes (body.take n) % 2 = 1 := by
  constructor
  · intro h
    refine ⟨h.even, fun n hn hat => h.first (body.take n) (body.drop (n + 1)) ?_⟩
    obtain ⟨_, rfl⟩ := List.getElem?_eq_some_iff.1 hat
    rw [← List.drop_eq_getElem_cons hn, List.take_append_drop]
  · rintro ⟨heven, hfirst⟩
    refine ⟨heven, fun before after hbody => ?_⟩
    have hsign := hfirst before.length (by simp [hbody]) (by simp [hbody])
    rwa [hbody, List.take_left] at hsign

instance : Decidable (IsBody sign body) := decidable_of_iff' _ isBody_iff

instance : Decidable (ClosedAt sign cs body rest) :=
  decidable_of_iff (IsBody sign body ∧ cs = body ++ sign :: rest)
    ⟨fun h => ⟨h.1, h.2⟩, fun h => ⟨h.toIsBody, h.split⟩⟩

/-- What is closed behind a piece of it is closed where the rest is. -/
theorem closedAt_append (hp : IsBody sign p) (cs body rest : List Char) :
    ClosedAt sign (p ++ cs) body rest ↔ ∃ more, body = p ++ more ∧
      ClosedAt sign cs more rest := by
  constructor
  · intro h
    obtain ⟨more, hmore, hcs⟩ | ⟨more, hmore, hcs⟩ := List.append_eq_append_iff.1 h.split
    · rw [hmore] at h
      exact ⟨more, hmore, (isBody_append hp).1 h.toIsBody, hcs⟩
    · rw [hmore] at hp
      obtain rfl := h.toIsBody.eq_nil hp hcs
      rw [List.append_nil] at hmore
      exact ⟨[], by rw [List.append_nil, hmore], ⟨by decide, by simp⟩, hcs.symm⟩
  · rintro ⟨more, rfl, h⟩
    exact ⟨(isBody_append hp).2 h.toIsBody, by rw [h.split, List.append_assoc]⟩

/-- So is what is closed behind a backslash that another character follows. -/
theorem closedAt_backslash (hs : sign ≠ '\\') (hsign : c ≠ sign) (hslash : c ≠ '\\') :
    ClosedAt sign ('\\' :: c :: cs) body rest ↔ ∃ more, body = '\\' :: more ∧
      ClosedAt sign (c :: cs) more rest := by
  have hpair := closedAt_append (isBody_pair hs c) cs body rest
  have hsingle : ∀ more, ClosedAt sign (c :: cs) more rest ↔ ∃ more', more = c :: more' ∧
      ClosedAt sign cs more' rest :=
    fun more => closedAt_append (isBody_singleton hsign hslash) cs more rest
  constructor
  · intro h
    obtain ⟨more, hbody, hmore⟩ := hpair.1 h
    exact ⟨c :: more, hbody, (hsingle _).2 ⟨more, rfl, hmore⟩⟩
  · rintro ⟨more, hbody, h⟩
    obtain ⟨more', hmore, h⟩ := (hsingle _).1 h
    exact hpair.2 ⟨more', by rw [hbody, hmore]; rfl, h⟩

end Closing

/-! ## What a backslash stands for -/

section Escaping

variable {sign : Char} {cs text rest : List Char} {n : Nat}

theorem IsDelimiter.ne (h : IsDelimiter sign) : sign ≠ '\\' := by
  rcases h with rfl | rfl | rfl <;> decide

/-- The digits of a code point end before a sign. -/
theorem codePoint?_append (hsign : Name.isHexDigit sign = false) (count : Nat) (kept : Bool)
    (cs rest : List Char) :
    codePoint? count kept (cs ++ sign :: rest) = codePoint? count kept cs := by
  unfold codePoint?
  by_cases hcount : count ≤ cs.length
  · rw [List.take_append_of_le_length hcount]
  · have hfew : (cs.take count).length ≠ count := by
      rw [List.length_take]
      omega
    have hmem : sign ∈ (cs ++ sign :: rest).take count := by
      rw [List.take_append, List.mem_append]
      obtain ⟨m, hm⟩ : ∃ m, count - cs.length = m + 1 := ⟨count - cs.length - 1, by omega⟩
      simp [hm]
    have hall : ¬ ((cs ++ sign :: rest).take count).all Name.isHexDigit = true := by
      intro hall
      rw [List.all_eq_true.1 hall sign hmem] at hsign
      cases hsign
    dsimp only
    rw [if_neg fun h => hall h.2.1, if_neg fun h => hfew h.1]

/-- No escape reaches over the sign that closes. -/
theorem escape?_append (hs : IsDelimiter sign) (hcs : cs ≠ []) (rest : List Char) :
    escape? sign (cs ++ sign :: rest) = escape? sign cs := by
  have hhex : Name.isHexDigit sign = false := by rcases hs with rfl | rfl | rfl <;> decide
  have hannounced : ['t', 'n', 'r', 'u', 'U'].contains sign = false := by
    rcases hs with rfl | rfl | rfl <;> decide
  obtain ⟨c, cs, rfl⟩ := List.exists_cons_of_ne_nil hcs
  unfold escape?
  dsimp only [List.cons_append]
  split
  · rfl
  · rfl
  · rfl
  · cases cs with
    | nil =>
      show (if ['t', 'n', 'r', 'u', 'U'].contains sign = true then _ else _) = _
      rw [hannounced]
      rfl
    | cons d cs => rfl
  · exact codePoint?_append hhex 4 false cs rest
  · exact codePoint?_append hhex 8 true cs rest
  · rfl

theorem isBody_plain {cs : List Char} (h : ∀ c ∈ cs, c ≠ sign ∧ c ≠ '\\') : IsBody sign cs := by
  induction cs with
  | nil => exact ⟨rfl, by simp⟩
  | cons c cs ih =>
    obtain ⟨hsign, hslash⟩ := h c List.mem_cons_self
    exact (isBody_append (p := [c]) (isBody_singleton hsign hslash)).2
      (ih fun d hd => h d (List.mem_cons_of_mem c hd))

theorem codePoint?_eq_some {count : Nat} {kept : Bool}
    (h : codePoint? count kept cs = some (text, n)) :
    n = count + 1 ∧ (cs.take count).length = count ∧
      (cs.take count).all Name.isHexDigit = true := by
  unfold codePoint? at h
  dsimp only at h
  split at h
  · rename_i hdigits
    cases h
    exact ⟨rfl, hdigits.1, hdigits.2.1⟩
  · cases h

/-- What belongs to a backslash is nothing, where neither a sign nor another backslash
follows, or it is there and closes nothing. -/
theorem isBody_escape {c : Char} (hs : IsDelimiter sign)
    (h : escape? sign (c :: cs) = some (text, n)) :
    n = 0 ∧ c ≠ sign ∧ c ≠ '\\' ∨
      ∃ m, n = m + 1 ∧ m ≤ cs.length ∧ IsBody sign ('\\' :: c :: cs.take m) := by
  have hpair := isBody_pair hs.ne c
  have hdigits : ∀ {count kept}, codePoint? count kept cs = some (text, n) →
      ∃ m, n = m + 1 ∧ m ≤ cs.length ∧ IsBody sign ('\\' :: c :: cs.take m) := by
    intro count kept h
    obtain ⟨hn, hlength, hall⟩ := codePoint?_eq_some h
    rw [List.length_take] at hlength
    refine ⟨count, hn, by omega, (isBody_append hpair).2 (isBody_plain fun d hd => ?_)⟩
    have hhex := List.all_eq_true.1 hall d hd
    constructor
    · rintro rfl
      rcases hs with rfl | rfl | rfl <;> cases hhex
    · rintro rfl
      cases hhex
  have hone : n = 1 → ∃ m, n = m + 1 ∧ m ≤ cs.length ∧ IsBody sign ('\\' :: c :: cs.take m) :=
    fun hn => ⟨0, hn, Nat.zero_le _, hpair⟩
  unfold escape? at h
  dsimp only at h
  split at h
  · cases h
    exact .inr (hone rfl)
  · cases h
    exact .inr (hone rfl)
  · cases h
    exact .inr (hone rfl)
  · split at h <;> cases h <;> exact .inr (hone rfl)
  · exact .inr (hdigits h)
  · exact .inr (hdigits h)
  · split at h
    · cases h
      exact .inr (hone rfl)
    · rename_i hslash _ _ hshields
      cases h
      simp only [shields, Bool.or_eq_true, beq_iff_eq, not_or] at hshields
      exact .inl ⟨rfl, hshields.1, hslash⟩

end Escaping

/-! ## From the left -/

section Following

variable {sign c : Char} {cs body text rest : List Char} {n : Nat}

theorem decodeFrom?_eq (sign : Char) (n : Nat) (cs : List Char) :
    decodeFrom? sign n cs = decode? sign (cs.drop n) := by
  induction n generalizing cs with
  | zero => rfl
  | succ n ih =>
    cases cs with
    | nil => rfl
    | cons c cs => exact ih cs

theorem decode?_plain (hslash : c ≠ '\\') : decode? sign (c :: cs) =
    if forbids sign c then none else (decode? sign cs).map (c :: ·) :=
  if_neg hslash

theorem decode?_backslash : decode? sign ('\\' :: cs) =
    (escape? sign cs).bind fun e => (decode? sign (cs.drop e.2)).map (e.1 ++ ·) := by
  show (escape? sign cs).bind (fun e => (decodeFrom? sign e.2 cs).map (e.1 ++ ·)) = _
  simp only [decodeFrom?_eq]

theorem not_decodes_nil : ¬ Decodes sign [] text rest := by
  rintro ⟨body, h, -⟩
  exact absurd h.split (by simp)

/-- A sign closes the text at once. -/
theorem decodes_sign : Decodes sign (sign :: cs) text rest ↔ text = [] ∧ rest = cs := by
  have hnil : ClosedAt sign (sign :: cs) [] cs := ⟨⟨rfl, by simp⟩, rfl⟩
  constructor
  · rintro ⟨body, h, htext⟩
    obtain ⟨rfl, rfl⟩ := h.unique hnil
    cases htext
    exact ⟨rfl, rfl⟩
  · rintro ⟨rfl, rfl⟩
    exact ⟨[], hnil, rfl⟩

/-- Any other character but a backslash stands for itself, where it can stand. -/
theorem decodes_plain (hsign : c ≠ sign) (hslash : c ≠ '\\') :
    Decodes sign (c :: cs) text rest ↔
      forbids sign c = false ∧ ∃ more, Decodes sign cs more rest ∧ text = c :: more := by
  have hclosed := fun body => closedAt_append (isBody_singleton hsign hslash) cs body rest
  constructor
  · rintro ⟨body, h, htext⟩
    obtain ⟨behind, rfl, hbehind⟩ := (hclosed _).1 h
    rw [List.singleton_append, decode?_plain hslash] at htext
    split at htext
    · cases htext
    · rename_i hforbids
      obtain ⟨more, hmore, rfl⟩ := Option.map_eq_some_iff.1 htext
      exact ⟨Bool.eq_false_iff.2 hforbids, more, ⟨behind, hbehind, hmore⟩, rfl⟩
  · rintro ⟨hforbids, more, ⟨body, h, hmore⟩, rfl⟩
    refine ⟨c :: body, (hclosed _).2 ⟨body, rfl, h⟩, ?_⟩
    rw [decode?_plain hslash, if_neg (by rw [hforbids]; decide), hmore]
    rfl

/-- What belongs to a backslash is part of what is closed. -/
theorem closedAt_escape (hs : IsDelimiter sign) (hcs : cs ≠ [])
    (h : escape? sign cs = some (text, n)) (body rest : List Char) : n ≤ cs.length ∧
      (ClosedAt sign ('\\' :: cs) body rest ↔ ∃ more, body = '\\' :: (cs.take n ++ more) ∧
        ClosedAt sign (cs.drop n) more rest) := by
  obtain ⟨c, cs, rfl⟩ := List.exists_cons_of_ne_nil hcs
  rcases isBody_escape hs h with ⟨rfl, hsign, hslash⟩ | ⟨m, rfl, hm, hpiece⟩
  · exact ⟨Nat.zero_le _, closedAt_backslash hs.ne hsign hslash⟩
  · refine ⟨Nat.succ_le_succ hm, ?_⟩
    have hsplit : '\\' :: c :: cs = ('\\' :: c :: cs.take m) ++ cs.drop m := by simp
    rw [hsplit]
    exact closedAt_append hpiece _ body rest

/-- A closed text does not end in a single backslash. -/
theorem ClosedAt.ne_nil {behind : List Char} (h : ClosedAt sign cs ('\\' :: behind) rest) :
    behind ≠ [] := by
  rintro rfl
  exact absurd h.even (by decide)

/-- Behind a backslash the text is decoded further behind what belongs to it. -/
theorem decodes_backslash (hs : IsDelimiter sign) (hcs : cs ≠ []) :
    Decodes sign ('\\' :: cs) text rest ↔ ∃ piece n more, escape? sign cs = some (piece, n) ∧
      Decodes sign (cs.drop n) more rest ∧ text = piece ++ more := by
  -- what belongs to the backslash is the same in the body as in the whole text
  have hsame : ∀ {behind}, ClosedAt sign ('\\' :: cs) ('\\' :: behind) rest →
      escape? sign behind = escape? sign cs := by
    intro behind h
    have hsplit : cs = behind ++ sign :: rest := (List.cons.inj h.split).2
    rw [hsplit]
    exact (escape?_append hs h.ne_nil rest).symm
  have hdrop : ∀ {n} (more : List Char), n ≤ cs.length → (cs.take n ++ more).drop n = more :=
    fun more hn => List.drop_left' (List.length_take_of_le hn)
  constructor
  · rintro ⟨body, h, htext⟩
    cases body with
    | nil => exact absurd (List.cons.inj h.split).1.symm hs.ne
    | cons d behind =>
      obtain ⟨rfl, -⟩ := List.cons.inj h.split
      rw [decode?_backslash, hsame h] at htext
      obtain ⟨⟨piece, n⟩, hpiece, htext⟩ := Option.bind_eq_some_iff.1 htext
      obtain ⟨more, hmore, rfl⟩ := Option.map_eq_some_iff.1 htext
      obtain ⟨hn, hclosed⟩ := closedAt_escape hs hcs hpiece ('\\' :: behind) rest
      obtain ⟨body, hbody, hbehind⟩ := hclosed.1 h
      obtain rfl : behind = cs.take n ++ body := (List.cons.inj hbody).2
      rw [hdrop body hn] at hmore
      exact ⟨piece, n, more, hpiece, ⟨body, hbehind, hmore⟩, rfl⟩
  · rintro ⟨piece, n, more, hpiece, ⟨body, h, hmore⟩, rfl⟩
    obtain ⟨hn, hclosed⟩ := closedAt_escape hs hcs hpiece ('\\' :: (cs.take n ++ body)) rest
    have hbody := hclosed.2 ⟨body, rfl, h⟩
    refine ⟨_, hbody, ?_⟩
    rw [decode?_backslash, hsame hbody, hpiece, Option.bind_some, hdrop body hn, hmore]
    rfl

theorem decodes_escape {piece : List Char} (hs : IsDelimiter sign) (hcs : cs ≠ [])
    (h : escape? sign cs = some (piece, n)) :
    Decodes sign ('\\' :: cs) text rest ↔
      ∃ more, Decodes sign (cs.drop n) more rest ∧ text = piece ++ more := by
  rw [decodes_backslash hs hcs, h]
  constructor
  · rintro ⟨_, _, more, ⟨⟩, hmore⟩
    exact ⟨more, hmore⟩
  · rintro ⟨more, hmore⟩
    exact ⟨piece, n, more, rfl, hmore⟩

/-- A text does not end in a single backslash, and escapes have to be right. -/
theorem not_decodes_backslash (hs : IsDelimiter sign) (h : cs = [] ∨ escape? sign cs = none) :
    ¬ Decodes sign ('\\' :: cs) text rest := by
  by_cases hcs : cs = []
  · rintro ⟨body, hclosed, -⟩
    have hsplit := hclosed.split
    rw [hcs] at hsplit
    cases body with
    | nil => exact hs.ne (List.cons.inj hsplit).1.symm
    | cons d body => simp at hsplit
  · rw [decodes_backslash hs hcs, h.resolve_left hcs]
    rintro ⟨_, _, _, ⟨⟩, -⟩

end Following

end TripleLex.Decoder

import TripleLex.Proofs.WholeRuns

/-!
# Records of comma-separated values

Fields are written between quotation marks, with the marks in them doubled, or
bare, where they are such that this can be read. What is written for a list of
records is read back as just these records (`Csv.records_read`), and what is
read of any text without a fault is written back as that text
(`Csv.read_written`). Only the spelling of a line end is not remembered by its
token.

A token is read where its characters come next and something follows that ends
it (`Csv.Gives`). Such pieces are laid one before the other, from the end of the
text on (`Csv.RunsFrom`).
-/

namespace TripleLex

namespace Table.Csv

open Scan Cursor

variable {k : Cursor}

/-! ## Writing -/

/-- A text between quotation marks, with the marks in it doubled. -/
def quoted (text : List Char) : List Char := '"' :: (doubled text ++ ['"'])

/-- Whether a text may be a field without quotation marks. -/
def mayBeBare (text : List Char) : Bool := !text.isEmpty && text.all isPlain

/-- A field that is to be written. -/
inductive Field where
  | quoted (text : String)
  | bare (text : String) (h : mayBeBare text.toList = true)

namespace Field

/-- How the field is written. -/
def written : Field → List Char
  | quoted text => Csv.quoted text.toList
  | bare text _ => text.toList

/-- The token it makes. -/
def content : Field → Kind × String
  | quoted text => (.literal, text)
  | bare text _ => (.plainLiteral, text)

end Field

/-- The end of a record, of two characters or of one. -/
def newLine (isPair : Bool) : List Char := if isPair then ['\r', '\n'] else ['\n']

/-- How a record is written: its fields with commas between them, and the end of
its line. -/
def record (isPair : Bool) (fields : List Field) : List Char :=
  [','].intercalate (fields.map Field.written) ++ newLine isPair

/-- The tokens that a record makes. -/
def recordContents (fields : List Field) : List (Kind × String) :=
  (fields.map Field.content).intersperse (.comma, ",") ++ [(.lineEnd, "")]

/-- The characters that a token may be written back with. -/
inductive Spells : Kind × String → List Char → Prop
  | field (f : Field) : Spells f.content f.written
  | comma : Spells (.comma, ",") [',']
  | lineEnd {cs : List Char} (h : cs ∈ [['\n'], ['\r'], ['\r', '\n'], ['\n', '\r']]) :
    Spells (.lineEnd, "") cs

/-- What comes next ends a field. -/
def Stops (rest : List Char) : Prop := ∀ c, rest.head? = some c → isBare c = false

theorem stops_comma (rest : List Char) : Stops (',' :: rest) := by
  rintro c ⟨⟩
  rfl

theorem stops_newLine (isPair : Bool) (rest : List Char) : Stops (newLine isPair ++ rest) := by
  cases isPair <;> rintro c ⟨⟩ <;> rfl

theorem Stops.cuts {rest : List Char} {c : Char} (h : Stops rest) (hc : rest.head? = some c) :
    (c == ',' || Unicode.isLineEnd c) = true := by
  have hbare := h c hc
  rwa [isBare, Bool.not_eq_false'] at hbare

theorem Stops.head?_ne {rest : List Char} {c : Char} (h : Stops rest) (hc : isBare c = true) :
    rest.head? ≠ some c := by
  intro hr
  rw [h c hr] at hc
  cases hc

theorem Field.head?_written (f : Field) (rest : List Char) :
    (f.written ++ rest).head? ≠ some '\r' := by
  cases f with
  | quoted text => exact nofun
  | bare text h =>
    show (text.toList ++ rest).head? ≠ some '\r'
    cases hcs : text.toList with
    | nil =>
      rw [hcs] at h
      cases h
    | cons c cs =>
      rw [hcs] at h
      intro hc
      cases hc
      cases h

/-- No record begins with the second half of a line end of two characters. -/
theorem head?_record (fields : List Field) (rest : List Char) :
    (record false fields ++ rest).head? ≠ some '\r' := by
  unfold record
  match fields with
  | [] => exact nofun
  | [f] =>
    rw [List.map_singleton, List.intercalate_singleton, List.append_assoc]
    exact f.head?_written _
  | f :: g :: fields =>
    rw [List.map_cons, List.map_cons, List.intercalate_cons_cons, List.append_assoc,
      List.append_assoc, List.append_assoc]
    exact f.head?_written _

/-! ## Reading what is written -/

/-- The characters of a bare field are taken up to what ends it. -/
theorem succeeds_bareRun {text rest : List Char} (ht : ∀ c ∈ text, isPlain c = true)
    (hrest : Stops rest) (hk : k.ahead = text ++ rest) :
    Succeeds (iterate bareTurn advances_bareTurn ()) k text text () := by
  induction text generalizing k with
  | nil =>
    refine succeeds_done (succeeds_look_bind fun mid _ => ?_)
    rw [hk, List.nil_append]
    cases hhead : rest.head? with
    | none => exact succeeds_pure _
    | some c =>
      dsimp only
      rw [if_pos (hrest.cuts hhead)]
      exact succeeds_pure _
  | cons c text ih =>
    have hc := ht c List.mem_cons_self
    have hturn : Succeeds (bareTurn ()) k [c] [c] (.again ()) := by
      refine succeeds_look_bind fun mid r => ?_
      have hplain : (c == ',' || Unicode.isLineEnd c) = false ∧ (c == '"') = false := by
        simpa [isPlain, isBare, bne] using hc
      rw [hk]
      dsimp only [List.cons_append, List.head?_cons]
      rw [if_neg (Bool.eq_false_iff.1 hplain.1), if_neg (Bool.eq_false_iff.1 hplain.2)]
      have hhead : mid.ahead.head? = some c := by
        rw [r.ahead_eq, hk]
        rfl
      exact (succeeds_consume hhead (not_isLineEnd_of_isPlain hc)).thenPure _
    exact succeeds_again hturn fun mid r =>
      ih (fun d hd => ht d (List.mem_cons_of_mem _ hd)) (r.rest_eq hk)

/-- A quotation mark that is text is read doubled. -/
theorem succeeds_doubledMark {rest : List Char} (hk : k.ahead = '"' :: '"' :: rest) :
    Succeeds markTurn k ['"', '"'] ['"'] (.again ()) := by
  refine (succeeds_skip (by rw [hk]; rfl) (by decide)).bind ['"'] ['"'] fun mid r => ?_
  have hmid : mid.ahead = '"' :: rest := r.rest_eq hk
  refine (succeeds_nextIs '"').bind ['"'] ['"'] fun mid' r' => ?_
  have hhead : mid'.ahead.head? = some '"' := by
    rw [r'.ahead_eq, hmid]
    rfl
  rw [if_pos (by rw [hmid]; rfl)]
  exact (succeeds_consume hhead (by decide)).thenPure _

/-- One that comes alone closes the field. -/
theorem succeeds_lastMark {rest : List Char} (hk : k.ahead = '"' :: rest)
    (hrest : rest.head? ≠ some '"') : Succeeds markTurn k ['"'] [] (.done ()) := by
  refine (succeeds_skip (by rw [hk]; rfl) (by decide)).bind [] [] fun mid r => ?_
  have hmid : mid.ahead = rest := r.rest_eq hk
  refine (succeeds_nextIs '"').bind [] [] fun mid' _ => ?_
  have hnext : (mid.ahead.head? == some '"') = false := by
    rw [hmid]
    exact beq_eq_false_iff_ne.2 hrest
  rw [if_neg (by rw [hnext]; decide)]
  exact succeeds_pure _

theorem doubled_cons {c : Char} {text : List Char} (h : c ≠ '"') :
    doubled (c :: text) = c :: doubled text := by
  unfold doubled
  rw [List.flatMap_cons, if_neg (by simpa using h)]
  rfl

/-- A line end inside quotation marks is kept, with its other half if that comes
next. -/
theorem exists_lineEnd {c : Char} (hl : Unicode.isLineEnd c = true) (text : List Char) :
    ∃ cs more, text = cs ++ more ∧ doubled (c :: cs) = c :: cs ∧
      ∀ (k : Cursor) (rest : List Char), k.ahead = doubled (c :: text) ++ '"' :: rest →
        Succeeds (consumeLineEnd true false) k (c :: cs) (c :: cs) () := by
  have hmark : ∀ {d : Char}, Unicode.isLineEnd d = true → d ≠ '"' := by
    rintro d hd rfl
    cases hd
  obtain ⟨p, hp⟩ := exists_partner hl
  have hpartner := hmark (isLineEnd_of_partner? hp).2
  by_cases htext : text.head? = some p
  · obtain ⟨more, rfl⟩ := List.head?_eq_some_iff.1 htext
    refine ⟨[p], more, rfl, ?_, fun k rest hk => ?_⟩
    · rw [doubled_cons (hmark hl), doubled_cons hpartner]
      rfl
    · rw [doubled_cons (hmark hl), doubled_cons hpartner] at hk
      exact succeeds_lineEnd_paired hk hp
  · refine ⟨[], text, rfl, doubled_cons (hmark hl), fun k rest hk => ?_⟩
    rw [doubled_cons (hmark hl)] at hk
    refine succeeds_lineEnd_alone hk hp fun hhead => ?_
    cases text with
    | nil => exact hpartner (Option.some.inj hhead).symm
    | cons d text =>
      by_cases hd : d = '"'
      · subst hd
        exact hpartner (Option.some.inj hhead).symm
      · rw [doubled_cons hd] at hhead
        exact htext hhead

/-- A turn takes a part of the text that is left. -/
theorem succeeds_quotedTurn {c : Char} {text rest : List Char}
    (hk : k.ahead = doubled (c :: text) ++ '"' :: rest) :
    ∃ ws more, c :: text = ws ++ more ∧ ws ≠ [] ∧
      Succeeds (quotedTurn ()) k (doubled ws) ws (.again ()) := by
  by_cases hmark : c = '"'
  · subst hmark
    refine ⟨['"'], text, rfl, List.cons_ne_nil _ _, succeeds_look_bind fun mid r => ?_⟩
    rw [hk]
    exact succeeds_doubledMark (r.ahead_eq.trans hk)
  have hhead : k.ahead.head? = some c := by
    rw [hk, doubled_cons hmark]
    rfl
  have hne : ¬ (c == '"') = true := by simpa using hmark
  by_cases hl : Unicode.isLineEnd c = true
  · obtain ⟨cs, more, rfl, hcs, hs⟩ := exists_lineEnd hl text
    refine ⟨c :: cs, more, rfl, List.cons_ne_nil _ _, succeeds_look_bind fun mid r => ?_⟩
    rw [hhead, hcs]
    dsimp only
    rw [if_neg hne, if_pos hl]
    exact (hs mid rest (r.ahead_eq.trans hk)).thenPure _
  · refine ⟨[c], text, rfl, List.cons_ne_nil _ _, succeeds_look_bind fun mid r => ?_⟩
    rw [hhead, doubled_cons hmark]
    dsimp only
    rw [if_neg hne, if_neg hl]
    exact (succeeds_consume (r.ahead_eq ▸ hhead) (by simpa using hl)).thenPure _

/-- A text is taken up to the quotation mark that closes it. -/
theorem succeeds_quotedBody {text rest : List Char} (hrest : rest.head? ≠ some '"')
    (hk : k.ahead = doubled text ++ '"' :: rest) :
    Succeeds (iterate quotedTurn advances_quotedTurn ()) k (doubled text ++ ['"']) text () := by
  generalize hn : text.length = n
  induction n using Nat.strongRecOn generalizing text k with
  | ind n ih =>
    cases text with
    | nil =>
      refine succeeds_done (succeeds_look_bind fun mid r => ?_)
      rw [hk]
      exact succeeds_lastMark (r.ahead_eq.trans hk) hrest
    | cons c text =>
      obtain ⟨ws, more, htext, hws, hturn⟩ := succeeds_quotedTurn hk
      have hlength := congrArg List.length htext
      have hpos := List.length_pos_iff.2 hws
      rw [List.length_append] at hlength
      rw [htext, doubled_append, List.append_assoc] at hk ⊢
      exact succeeds_again hturn fun mid r => ih more.length (by omega) (r.rest_eq hk) rfl

/-! ## Pieces -/

/-- Where the characters come next, they are read as a token with this content,
and the rest is left. -/
def Gives (cs rest : List Char) (said : Kind × String) : Prop :=
  ∀ k : Cursor, k.Begun → k.Clear → k.ahead = cs ++ rest →
    ∃ t left, read k = .ok t left ∧ t.content = said ∧ left.Stands said.1 rest

/-- Reading goes by the first character. -/
theorem gives_of_dispatch {c : Char} {cs rest : List Char} {said : Kind × String}
    (h : ∀ k : Cursor, k.Begun → k.Clear → k.ahead = c :: cs ++ rest →
      ∃ t left, dispatch c k = .ok t left ∧ t.content = said ∧ left.Stands said.1 rest) :
    Gives (c :: cs) rest said := by
  intro k hb hc hk
  have hlook : look k = .ok (some c) k.looked := by
    rw [look_eq, hk]
    rfl
  have r := k.same_looked.reads k.ahead_looked
  obtain ⟨t, left, e, ht, hs⟩ := h k.looked (r.begun hb) hc.looked (r.ahead_eq.trans hk)
  refine ⟨t, left, ?_, ht, hs⟩
  unfold read tokenHere
  rw [bind_eq hlook]
  exact e

theorem gives_comma (rest : List Char) : Gives [','] rest (.comma, ",") := by
  refine gives_of_dispatch fun k hb hc hk => ?_
  obtain ⟨mid, e, r, hclear⟩ := succeeds_consume (c := ',') (by rw [hk]; rfl) (by decide)
  obtain ⟨t, left, e', ht, hs⟩ := emit_stands .comma hb r (hclear hc) hk
  exact ⟨t, left, (bind_eq e).trans e', ht, hs⟩

theorem gives_newLine {isPair : Bool} {rest : List Char}
    (hrest : isPair = false → rest.head? ≠ some '\r') :
    Gives (newLine isPair) rest (.lineEnd, "") := by
  have hend : ∀ k : Cursor, k.Begun → k.Clear → k.ahead = newLine isPair ++ rest →
      ∃ t left, recordEnd k = .ok t left ∧ t.content = (.lineEnd, "") ∧
        left.Stands .lineEnd rest := by
    intro k hb hc hk
    have hsucceeds : Succeeds (consumeLineEnd false true) k (newLine isPair) [] () := by
      cases isPair with
      | true => exact succeeds_lineEnd_paired hk rfl
      | false => exact succeeds_lineEnd_alone hk rfl (hrest rfl)
    obtain ⟨mid, e, r, hclear⟩ := hsucceeds
    exact ⟨⟨.lineEnd, "", mid.span⟩, { mid with written := [], previous := some .lineEnd },
      bind_eq e, rfl, rfl, r.rest_eq hk, (hclear hc).of_eq rfl rfl⟩
  cases isPair with
  | true => exact gives_of_dispatch hend
  | false => exact gives_of_dispatch hend

theorem gives_quoted (text : List Char) {rest : List Char} (hrest : Stops rest) :
    Gives (quoted text) rest (.literal, String.ofList text) := by
  refine gives_of_dispatch fun k hb hc hk => ?_
  have hstart : Succeeds skip k ['"'] [] '"' := succeeds_skip (by rw [hk]; rfl) (by decide)
  obtain ⟨k₁, e₁, r₁, c₁⟩ := hstart
  have hk₁ : k₁.ahead = doubled text ++ '"' :: rest := by
    rw [List.cons_append, List.append_assoc] at hk
    exact r₁.rest_eq hk
  obtain ⟨k₂, e₂, r₂, c₂⟩ := succeeds_quotedBody (hrest.head?_ne rfl) hk₁
  have hk₂ : k₂.ahead = rest := r₂.rest_eq (hk₁.trans (by simp))
  have r₃ := (r₁.trans r₂).trans (k₂.same_looked.reads k₂.ahead_looked)
  simp only [List.append_nil] at r₃
  obtain ⟨t, left, e, ht, hs⟩ := emit_stands .literal hb r₃ (c₂ (c₁ hc)).looked hk
  refine ⟨t, left, ?_, ht, hs⟩
  show quotedField k = .ok t left
  unfold quotedField
  rw [bind_eq e₁, bind_eq e₂, bind_eq (look_eq k₂), hk₂]
  cases hhead : rest.head? with
  | none => exact e
  | some c =>
    dsimp only
    rw [if_pos (hrest.cuts hhead)]
    exact e

theorem gives_bare {text rest : List Char} (ht : mayBeBare text = true) (hrest : Stops rest) :
    Gives text rest (.plainLiteral, String.ofList text) := by
  simp only [mayBeBare, Bool.and_eq_true, List.all_eq_true] at ht
  obtain ⟨hne, hplain⟩ := ht
  cases text with
  | nil => cases hne
  | cons c text =>
    refine gives_of_dispatch fun k hb hc hk => ?_
    obtain ⟨mid, e, r, hclear⟩ := succeeds_bareRun hplain hrest hk
    obtain ⟨t, left, e', ht, hs⟩ := emit_stands .plainLiteral hb r (hclear hc) hk
    refine ⟨t, left, ?_, ht, hs⟩
    have hc := hplain c List.mem_cons_self
    simp only [isPlain, isBare, Bool.and_eq_true, Bool.not_eq_true', Bool.or_eq_false_iff,
      bne_iff_ne] at hc
    obtain ⟨⟨hcomma, hl⟩, hmark⟩ := hc
    unfold dispatch
    rw [if_neg (by rw [hcomma]; decide), if_neg (by rw [hl]; decide),
      if_neg (by simpa using hmark)]
    exact (bind_eq e).trans e'

theorem Field.gives (f : Field) {rest : List Char} (hrest : Stops rest) :
    Gives f.written rest f.content := by
  cases f with
  | quoted text =>
    have h := gives_quoted text.toList hrest
    rwa [String.ofList_toList] at h
  | bare text h =>
    have h := gives_bare h hrest
    rwa [String.ofList_toList] at h

/-! ## What was read -/

/-- A token is spelled by what was read since it was begun. -/
theorem emit_reads {kind : Kind} {mid left : Cursor} {cs ws : List Char} {t : Token}
    (hb : k.Begun) (r : k.Reads cs ws mid) (e : emit kind mid = .ok t left) :
    k.ahead = cs ++ left.ahead ∧ t.content = (kind, String.ofList ws) := by
  obtain ⟨hkind, htext, he⟩ := emit_ok e
  refine ⟨by rw [he.ahead]; exact r.ahead, ?_⟩
  rw [Token.content, hkind, htext, Cursor.text, r.value hb]

theorem recordEnd_spells {c : Char} {t : Token} {left : Cursor} (hc : k.ahead.head? = some c)
    (hl : Unicode.isLineEnd c = true) (e : recordEnd k = .ok t left) :
    ∃ cs, k.ahead = cs ++ left.ahead ∧ Spells t.content cs := by
  obtain ⟨_, mid, e₁, e⟩ := bind_ok e
  obtain ⟨cs, hcs, r⟩ := consumeLineEnd_reads hc hl e₁
  cases e
  refine ⟨c :: cs, r.ahead, Spells.lineEnd ?_⟩
  simp only [Unicode.isLineEnd, Bool.or_eq_true, beq_iff_eq] at hl
  cases hcs with
  | missing => rcases hl with rfl | rfl <;> decide
  | read hp => rcases hl with rfl | rfl <;> cases hp <;> decide

theorem bareField_spells {c : Char} {t : Token} {left : Cursor} (hb : k.Begun)
    (hc : k.ahead.head? = some c) (hplain : isPlain c = true) (e : bareField k = .ok t left) :
    ∃ cs, k.ahead = cs ++ left.ahead ∧ Spells t.content cs := by
  obtain ⟨_, mid, e₁, e⟩ := bind_ok e
  have r := run_ok (fun s _ r _ e => bareTurn_ok s r e) e₁
  obtain ⟨ha, ht⟩ := emit_reads hb r e
  have hbare : mayBeBare (String.ofList (k.ahead.takeWhile isPlain)).toList = true := by
    rw [String.toList_ofList, mayBeBare, List.all_takeWhile, Bool.and_true, Bool.not_eq_true']
    exact List.isEmpty_eq_false_iff.2 (takeWhile_ne_nil hc hplain)
  have hspells := Spells.field (.bare _ hbare)
  rw [ht]
  refine ⟨_, ha, ?_⟩
  rwa [Field.written, String.toList_ofList] at hspells

/-- A token is spelled by the characters that were read. -/
theorem dispatch_spells {c : Char} {t : Token} {left : Cursor} (hb : k.Begun)
    (hc : k.ahead.head? = some c) (e : dispatch c k = .ok t left) :
    ∃ cs, k.ahead = cs ++ left.ahead ∧ Spells t.content cs := by
  unfold dispatch at e
  split at e
  · rename_i hcomma
    rw [beq_iff_eq] at hcomma
    subst hcomma
    obtain ⟨_, mid, e₁, e⟩ := bind_ok e
    obtain ⟨-, r⟩ := consume_ok hc (by decide) e₁
    obtain ⟨ha, ht⟩ := emit_reads hb r e
    rw [ht]
    exact ⟨_, ha, Spells.comma⟩
  rename_i hcomma
  split at e
  · rename_i hl
    exact recordEnd_spells hc hl e
  rename_i hl
  split at e
  · rename_i hmark
    rw [beq_iff_eq] at hmark
    subst hmark
    obtain ⟨ws, mid, r, e⟩ := quotedField_reads hc e
    obtain ⟨ha, ht⟩ := emit_reads hb r e
    have hspells := Spells.field (.quoted (String.ofList ws))
    rw [ht]
    refine ⟨_, ha, ?_⟩
    rwa [Field.written, String.toList_ofList] at hspells
  · rename_i hmark
    refine bareField_spells hb hc ?_ e
    rw [isPlain, isBare, Bool.eq_false_iff.2 hcomma, Bool.eq_false_iff.2 hl]
    exact bne_iff_ne.2 fun hc => hmark (beq_iff_eq.2 hc)

/-- A token behind any other is the one after all text, or it is spelled by the
characters that were read. -/
theorem read_spells {t : Token} {left : Cursor} (hb : k.Begun) (e : read k = .ok t left) :
    (k.ahead = [] ∧ t.content = (.ending, "")) ∨
      ∃ cs, k.ahead = cs ++ left.ahead ∧ Spells t.content cs := by
  rcases look_bind_ok e with ⟨k₁, r₁, hk, e⟩ | ⟨c, k₁, r₁, hc, e⟩
  · exact Or.inl ⟨r₁.ahead_eq.symm.trans hk, by rw [(ending_ok hk e).token]; rfl⟩
  · right
    rw [← r₁.ahead_eq]
    exact dispatch_spells (r₁.begun hb) hc e

theorem Spells.ne_ending {said : Kind × String} {cs : List Char} (h : Spells said cs) :
    said.1 ≠ .ending := by
  cases h with
  | field f => cases f <;> exact nofun
  | comma => exact nofun
  | lineEnd => exact nofun

end Table.Csv

namespace Lexer

open Scan Cursor
open Table.Csv hiding read

variable {l : Lexer}

/-! ## Runs over pieces -/

/-- From wherever the characters are all that is left, the rest of the tokens has
these contents. -/
def RunsFrom (rest : List Char) (said : List (Kind × String)) : Prop :=
  ∀ (l : Lexer) (kind : Kind), l.machine = .csv → kind ≠ .ending → l.cursor.Stands kind rest →
    ∃ ts, l.run = .ok ts ∧ ts.map Token.content = said

/-- Behind the last piece comes the token after all text. -/
theorem runsFrom_nil : RunsFrom [] [(.ending, "")] := by
  intro l kind hm hne
  refine Machine.runs_of_ending hne (fun k hb hk => ?_) l hm
  obtain ⟨t, left, e, ht⟩ := ending_succeeds "Token" hb hk.clear
  refine ⟨t, left, ?_, ht⟩
  show tokenHere dispatch k = .ok t left
  rw [tokenHere, look_bind_whole hk.clear.whole, hk.ahead]
  exact e

/-- A piece is laid before what is read behind it. -/
theorem RunsFrom.cons {cs rest : List Char} {said : Kind × String} {more : List (Kind × String)}
    (hr : RunsFrom rest more) (h : Gives cs rest said) (hne : said.1 ≠ .ending) :
    RunsFrom (cs ++ rest) (said :: more) := by
  intro l kind hm hkind
  have hgives : Machine.csv.Gives kind cs rest said :=
    fun k hb hk => h k hb hk.clear hk.ahead
  exact hgives.cons hkind hne (fun t _ l hm => hr l said.1 hm hne) l hm

theorem Field.content_ne (f : Field) : f.content.1 ≠ .ending :=
  (Spells.field f).ne_ending

/-- The fields of a record are read one after the other. -/
theorem RunsFrom.fields (fields : List Field) {rest : List Char} {more : List (Kind × String)}
    (hr : RunsFrom rest more) (hrest : Stops rest) :
    RunsFrom ([','].intercalate (fields.map Field.written) ++ rest)
      ((fields.map Field.content).intersperse (.comma, ",") ++ more) := by
  induction fields with
  | nil => exact hr
  | cons f fields ih =>
    cases fields with
    | nil =>
      rw [List.map_singleton, List.intercalate_singleton]
      exact hr.cons (f.gives hrest) (Field.content_ne f)
    | cons g fields =>
      rw [List.map_cons, List.map_cons] at ih ⊢
      rw [List.intercalate_cons_cons, List.append_assoc, List.append_assoc]
      have hcomma := ih.cons (gives_comma _) nofun
      exact hcomma.cons (f.gives (stops_comma _)) (Field.content_ne f)

/-- A record is read, with the end of its line. -/
theorem RunsFrom.record {isPair : Bool} {fields : List Field} {rest : List Char}
    {more : List (Kind × String)} (hr : RunsFrom rest more)
    (hrest : isPair = false → rest.head? ≠ some '\r') :
    RunsFrom (Table.Csv.record isPair fields ++ rest) (recordContents fields ++ more) := by
  have hend := hr.cons (gives_newLine hrest) nofun
  have h := hend.fields fields (stops_newLine isPair rest)
  rw [Table.Csv.record, recordContents, List.append_assoc, List.append_assoc]
  exact h

theorem runsFrom_records (isPair : Bool) (rows : List (List Field)) :
    RunsFrom (rows.flatMap (Table.Csv.record isPair))
      (rows.flatMap recordContents ++ [(.ending, "")]) := by
  induction rows with
  | nil => exact runsFrom_nil
  | cons fields rows ih =>
    rw [List.flatMap_cons, List.flatMap_cons, List.append_assoc]
    refine ih.record fun hpair => ?_
    subst hpair
    cases rows with
    | nil => exact nofun
    | cons fields rows =>
      rw [List.flatMap_cons]
      exact head?_record fields _

/-- All that is left is spelled by the tokens that are read. -/
theorem spelled_of_run {kind : Kind} {ts : List Token} (hm : l.machine = .csv)
    (hp : l.cursor.previous = some kind) (hne : kind ≠ .ending) (h : l.run = .ok ts) :
    ∃ pieces : List ((Kind × String) × List Char),
      ts.map Token.content = pieces.map Prod.fst ++ [(.ending, "")] ∧
      (∀ piece ∈ pieces, Spells piece.1 piece.2) ∧ l.cursor.ahead = pieces.flatMap Prod.snd := by
  induction ts generalizing l kind with
  | nil =>
    obtain ⟨t, l₁, vs, -, hnil, -⟩ := run_cases h
    cases hnil
  | cons u us ih =>
    obtain ⟨t, l₁, vs, e, hus, hcases⟩ := run_cases h
    cases hus
    have hread : Table.Csv.read l.cursor.fresh = .ok u l₁.cursor := by
      have hread := read_of_next e hp hne
      rw [hm] at hread
      exact hread
    rcases read_spells (begun_fresh _) hread with ⟨ha, ht⟩ | ⟨cs, ha, ht⟩
    · have hkind : u.kind = .ending := congrArg Prod.fst ht
      rcases hcases with ⟨-, rfl⟩ | ⟨hk, -⟩
      · exact ⟨[], by rw [List.map_singleton, ht]; rfl, nofun, ha⟩
      · exact absurd hkind hk
    · rcases hcases with ⟨hk, -⟩ | ⟨hk, hrun⟩
      · exact absurd hk ht.ne_ending
      · have hprevious : l₁.cursor.previous = some u.kind :=
          previous_of_next e (by rw [hp]; exact fun hk => hne (Option.some.inj hk))
        obtain ⟨pieces, hsaid, hpieces, hrest⟩ :=
          ih (by rw [(next_ok e).2, hm]; rfl) hprevious hk hrun
        refine ⟨(u.content, cs) :: pieces, ?_, List.forall_mem_cons.2 ⟨ht, hpieces⟩, ?_⟩
        · rw [List.map_cons, hsaid]
          rfl
        · rw [List.flatMap_cons, ← hrest]
          exact ha

/-! ## Both ways -/

/-- What is written for records is read back as these records, and what is read of
a text is written back as that text, but for the spelling of line ends. -/
theorem csv_round_trip (level : Query.Level) (dialect : Graph.Dialect) :
    (∀ (isPair : Bool) (rows : List (List Field)), ∃ ts,
      (ofText ⟨.csv, level, dialect⟩
        (String.ofList (rows.flatMap (Table.Csv.record isPair)))).run = .ok ts ∧
      ts.map Token.content =
        (.beginning, "") :: (rows.flatMap recordContents ++ [(.ending, "")])) ∧
    (∀ text ts, (ofText ⟨.csv, level, dialect⟩ text).run = .ok ts →
      ∃ pieces : List ((Kind × String) × List Char),
        ts.map Token.content = (.beginning, "") :: (pieces.map Prod.fst ++ [(.ending, "")]) ∧
        (∀ piece ∈ pieces, Spells piece.1 piece.2) ∧ text.toList = pieces.flatMap Prod.snd) := by
  constructor
  · intro isPair rows
    have hruns : Machine.csv.Runs .beginning (rows.flatMap (Table.Csv.record isPair))
        (rows.flatMap recordContents ++ [(.ending, "")]) :=
      fun l hm => runsFrom_records isPair rows l .beginning hm nofun
    exact Machine.Runs.run_ofText hruns
  · intro text ts h
    obtain ⟨t, l₁, vs, e, rfl, hcases⟩ := run_cases h
    rw [next_beginning rfl] at e
    cases e
    rcases hcases with ⟨hk, -⟩ | ⟨-, hrun⟩
    · cases hk
    · have hne : Kind.beginning ≠ .ending := nofun
      obtain ⟨pieces, hsaid, hpieces, hrest⟩ := spelled_of_run rfl rfl hne hrun
      refine ⟨pieces, ?_, hpieces, hrest⟩
      rw [List.map_cons, hsaid]
      rfl

/-- A quotation mark and a line end in a field come back. -/
theorem csv_round_trip_marks : ∃ ts,
    (ofText ⟨.csv, .sparql11, .recommendation⟩ "\"a\"\"\r\n\",b\n").run = .ok ts ∧
      ts.map Token.content = [(.beginning, ""), (.literal, "a\"\r\n"), (.comma, ","),
        (.plainLiteral, "b"), (.lineEnd, ""), (.ending, "")] ∧
      ∃ pieces : List ((Kind × String) × List Char),
        ts.map Token.content = (.beginning, "") :: (pieces.map Prod.fst ++ [(.ending, "")]) ∧
        "\"a\"\"\r\n\",b\n".toList = pieces.flatMap Prod.snd := by
  obtain ⟨hread, hwritten⟩ := csv_round_trip .sparql11 .recommendation
  obtain ⟨ts, hts, hsaid⟩ := hread false [[.quoted "a\"\r\n", .bare "b" rfl]]
  obtain ⟨pieces, hpieces, -, htext⟩ := hwritten _ ts hts
  exact ⟨ts, hts, hsaid, pieces, hpieces, htext⟩

end Lexer

end TripleLex

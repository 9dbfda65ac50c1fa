import TripleLex.Proofs.Lexemes

/-!
# Readers that languages share

Signs, comments, references, literals, language tags, names, variables and
numbers: every token that these readers make is a lexeme, spelled as it stands
where there is no escape.

## Main results

* `name_ok` — a name is a lexeme, or a bare word that the language has to judge.
* `completes_reference`, `completes_literal`, `completes_number`,
  `finds_datatype`, `finds_prefixName`.
-/

namespace TripleLex.Scan

open Cursor

/-! ## Single signs and comments -/

section Readers

variable {k : Cursor}

theorem completes_single {kind : Kind} {c : Char} (hb : k.Begun)
    (hc : k.ahead.head? = some c) (hl : Unicode.isLineEnd c = false)
    (hp : kind.IsPlain) (hm : kind.isMark = false) :
    Completes Copied k k (single kind) := by
  intro t left e
  obtain ⟨_, k₁, e₁, e⟩ := bind_ok e
  obtain ⟨-, r₁⟩ := consume_ok hc hl e₁
  exact emit_plain (held_of_reads hb r₁ (List.cons_ne_nil _ _)) hp hm
    (fun _ => rfl) t left e

theorem takeWhile_ne_nil {p : Char → Bool} {cs : List Char} {c : Char}
    (hc : cs.head? = some c) (h : p c = true) : cs.takeWhile p ≠ [] := by
  obtain ⟨rest, rfl⟩ := List.head?_eq_some_iff.1 hc
  rw [List.takeWhile_cons_of_pos h]
  exact List.cons_ne_nil _ _

theorem completes_comment (hb : k.Begun) (hc : k.ahead.head? = some '#') :
    Completes Copied k k comment := by
  intro t left e
  obtain ⟨_, k₁, e₁, e⟩ := bind_ok e
  have r₁ := consumeWhile_ok (fun c h => by simpa using h) e₁
  have hne := takeWhile_ne_nil (p := fun c => !Unicode.isLineEnd c) hc
    (by decide)
  exact emit_plain (held_of_reads hb r₁ hne) (fun _ => rfl) rfl (fun _ => rfl)
    t left e

/-! ## References -/

/-- What stands between a sign that has been read and a body with its closing
signs. -/
theorem plain_of_closed {k left : Cursor}
    {opening closing body vs ws : List Char}
    (r : k.Reads (opening ++ (body ++ closing)) vs left) (hr : Renders body ws)
    (hn : '\\' ∉ k.ahead) : ws = body := by
  refine hr.plain fun hm => hn ?_
  rw [r.ahead]
  simp [hm]

theorem completes_reference (hb : k.Begun) (hc : k.ahead.head? = some '<') :
    Completes Copied k k reference := by
  intro t left e
  obtain ⟨_, k₁, e₁, e⟩ := bind_ok e
  obtain ⟨-, r₁⟩ := skip_ok hc (by decide) e₁
  obtain ⟨_, k₂, e₂, e⟩ := bind_ok e
  obtain ⟨_, ws, r₂, body, rfl, hr⟩ := referenceBody_ok e₂
  have r := r₁.trans r₂
  refine emit_copied (held_of_reads hb r (List.cons_ne_nil _ _)) rfl ?_ t left e
  intro hn
  have hws : ws = body := plain_of_closed r hr hn
  rw [hws]
  exact List.mem_singleton_self _

theorem completes_referenceDatatype (hb : k.Begun)
    (hc : k.ahead.head? = some '<') :
    Completes Copied k k referenceDatatype := by
  intro t left e
  obtain ⟨_, k₁, e₁, e⟩ := bind_ok e
  obtain ⟨-, r₁⟩ := skip_ok hc (by decide) e₁
  obtain ⟨_, k₂, e₂, e⟩ := bind_ok e
  obtain ⟨_, ws, r₂, body, rfl, hr⟩ := referenceBody_ok e₂
  have e := get_bind_ok e
  have r := r₁.trans r₂
  have h := held_of_reads hb r (List.cons_ne_nil _ _)
  refine emitAs_copied h rfl ?_ t left e
  intro hn
  have htext : ("<" ++ k₂.text ++ ">").toList = ['<'] ++ ws ++ ['>'] := by
    rw [String.toList_append, String.toList_append, h.text]
    rfl
  have hws : ws = body := plain_of_closed r hr hn
  rw [htext, hws]
  exact List.mem_singleton_self _

/-! ## Literals -/

theorem completes_literal {surplus : Surplus} {sign : Char} (hb : k.Begun)
    (hc : k.ahead.head? = some sign) (hsign : sign = '"' ∨ sign = '\'') :
    Completes Copied k k (literal surplus) := by
  have hl : Unicode.isLineEnd sign = false := by
    rcases hsign with rfl | rfl <;> decide
  intro t left e
  obtain ⟨sign', k₁, e₁, e⟩ := bind_ok e
  obtain ⟨rfl, r₁⟩ := skip_ok hc hl e₁
  obtain ⟨second, k₂, e₂, e⟩ := bind_ok e
  obtain ⟨h₂, r₂⟩ := nextIs_ok e₂
  have r₂ := r₁.trans r₂
  cases second with
  | false =>
    obtain ⟨_, k₃, e₃, e⟩ := bind_ok e
    obtain ⟨_, ws, r₃, body, rfl, hr⟩ := shortBody_ok hl e₃
    have r := r₂.trans r₃
    refine emit_copied (held_of_reads hb r (List.cons_ne_nil _ _))
      rfl ?_ t left e
    intro hn
    have hws : ws = body := plain_of_closed r hr hn
    rw [hws]
    rcases hsign with rfl | rfl <;> simp [Kind.spellings, Kind.enclosed]
  | true =>
    obtain ⟨_, k₃, e₃, e⟩ := bind_ok e
    obtain ⟨-, r₃⟩ := skip_ok (h₂.1 rfl) hl e₃
    obtain ⟨third, k₄, e₄, e⟩ := bind_ok e
    obtain ⟨h₄, r₄⟩ := nextIs_ok e₄
    have r₄ := (r₂.trans r₃).trans r₄
    cases third with
    | false =>
      refine emit_copied (held_of_reads hb r₄ (List.cons_ne_nil _ _))
        rfl ?_ t left e
      intro _
      rcases hsign with rfl | rfl <;> simp [Kind.spellings, Kind.enclosed]
    | true =>
      obtain ⟨_, k₅, e₅, e⟩ := bind_ok e
      obtain ⟨-, r₅⟩ := skip_ok (h₄.1 rfl) hl e₅
      obtain ⟨_, k₆, e₆, e⟩ := bind_ok e
      obtain ⟨_, ws, r₆, body, rfl, hr⟩ := longBody_ok hl e₆
      have r := (r₄.trans r₅).trans r₆
      refine emit_copied (held_of_reads hb r (List.cons_ne_nil _ _))
        rfl ?_ t left e
      intro hn
      have hws : ws = body := plain_of_closed r hr hn
      rw [hws]
      rcases hsign with rfl | rfl <;> simp [Kind.spellings, Kind.enclosed]

/-! ## Language tags and datatypes -/

theorem not_isLineEnd_of_isTagChar {c : Char} (h : Name.isTagChar c = true) :
    Unicode.isLineEnd c = false :=
  not_isLineEnd_of (Name.isTagChar_ascii (by decide)) (Name.isTagChar_ascii (by decide)) h

theorem completes_languageTag (hb : k.Begun) (hc : k.ahead.head? = some '@') :
    Completes Copied k k languageTag := by
  intro t left e
  obtain ⟨_, k₁, e₁, e⟩ := bind_ok e
  obtain ⟨-, r₁⟩ := skip_ok hc (by decide) e₁
  obtain ⟨_, k₂, e₂, e⟩ := bind_ok e
  have r := r₁.trans
    (consumeWhile_ok (fun c h => not_isLineEnd_of_isTagChar h) e₂)
  have e := get_bind_ok e
  split at e
  · obtain ⟨c, k₃, -, e⟩ := bind_ok e
    cases e
  · split at e
    · refine emit_copied (held_of_reads hb r (List.cons_ne_nil _ _))
        rfl ?_ t left e
      exact fun _ => List.mem_singleton_self _
    · cases e

theorem completes_hatHat (hb : k.Begun) (hc : k.ahead.head? = some '^') :
    Completes Copied k k hatHat := by
  intro t left e
  obtain ⟨_, k₁, e₁, e⟩ := bind_ok e
  obtain ⟨-, r₁⟩ := consume_ok hc (by decide) e₁
  rcases look_bind_ok e with ⟨k₂, r₂, -, e⟩ | ⟨c, k₂, r₂, hc₂, e⟩
  · exact completes_unexpectedEnd _ t left e
  · dsimp only at e
    split at e
    · rename_i hhat
      rw [beq_iff_eq] at hhat
      rw [hhat] at hc₂
      obtain ⟨_, k₃, e₃, e⟩ := bind_ok e
      obtain ⟨-, r₃⟩ := consume_ok hc₂ (by decide) e₃
      have r := (r₁.trans r₂).trans r₃
      exact emit_plain (held_of_reads hb r (List.cons_ne_nil _ _))
        (fun _ => rfl) rfl (fun _ => rfl) t left e
    · cases e

/-! ## Names -/

theorem leadsName_of_opensName {c : Char} (h : Name.opensName c = true) :
    leadsName c = true := by
  have hdot : (c != '.') = true := by
    rw [bne_iff_ne]
    rintro rfl
    rw [Name.opensName, Unicode.isAlphabetic_ascii (by decide)] at h
    exact absurd h (by decide)
  have hscan : Name.isScanned c = true := by
    simp only [Name.opensName, Bool.or_eq_true] at h
    simp only [Name.isScanned, Unicode.isAlphanumeric, Bool.or_eq_true]
    rcases h with h | h
    · exact Or.inl (Or.inl (Or.inl (Or.inl h)))
    · exact Or.inl (Or.inl (Or.inr (Name.isInner_of_isLead (Name.isLead_of_isBase h))))
  rw [leadsName, hscan, hdot, Bool.and_self, Bool.or_true]

theorem head_ne_dot {c : Char} {cs : List Char} (hc : cs.head? = some c)
    (h : leadsName c = true) :
    cs.head? ≠ some '.' := by
  rw [hc]
  rintro ⟨⟩
  rw [leadsName_ascii (by decide)] at h
  exact absurd h (by decide)

theorem unescape_of_not_mem {word : List Char} (h : '\\' ∉ word) :
    Name.unescape word = word := by
  induction word with
  | nil => rfl
  | cons c word ih =>
    rw [List.mem_cons, not_or] at h
    rw [Name.unescape_cons (Ne.symm h.1), ih h.2]

theorem toList_nameText {rule : Name.Rule} {word : List Char}
    (h : '\\' ∉ word) :
    (nameText rule word).toList = word := by
  unfold nameText
  cases rule with
  | recommendation => rw [unescape_of_not_mem h, String.toList_ofList]
  | submission => exact String.toList_ofList

/-- The token of a gathered name is a lexeme; a bare word is left as it is. -/
theorem nameToken?_ok {k₀ left : Cursor} {rule : Name.Rule} {cs ws : List Char}
    (h : k₀.Held cs ws k) (hplain : '\\' ∉ k₀.ahead → ws = cs)
    {o : Option Token} (e : nameToken? rule k = .ok o left) :
    (o = none ∧ left = k) ∨ ∃ t ds, o = some t ∧ k₀.Copied ds t left := by
  have e := get_bind_ok e
  rw [h.value] at e
  split at e
  · cases e
    exact Or.inl ⟨rfl, rfl⟩
  · right
    split at e
    · obtain ⟨t, k₁, e₁, e⟩ := bind_ok e
      obtain ⟨ds, hds⟩ := emit_plain h (fun _ => rfl) rfl hplain t k₁ e₁
      cases e
      exact ⟨t, ds, rfl, hds⟩
    · split at e
      · split at e
        · obtain ⟨t, k₁, e₁, e⟩ := bind_ok e
          obtain ⟨ds, hds⟩ := emit_plain h (fun _ => rfl) rfl hplain t k₁ e₁
          cases e
          exact ⟨t, ds, rfl, hds⟩
        · cases e
      · split at e
        · have hs : '\\' ∉ k₀.ahead →
              cs ∈ Kind.prefixedName.spellings (nameText rule ws).toList := by
            intro hn
            have hcs : '\\' ∉ cs := by
              intro hm
              apply hn
              rw [h.exact hn]
              exact List.mem_append_left _ hm
            rw [hplain hn, toList_nameText hcs]
            exact List.mem_singleton_self _
          obtain ⟨t, k₁, e₁, e⟩ := bind_ok e
          obtain ⟨ds, hds⟩ := emitAs_copied h rfl hs t k₁ e₁
          cases e
          exact ⟨t, ds, rfl, hds⟩
        · cases e

/-- A name behind `cs₀`: its token is a lexeme, unless it is a bare word, which
is left to the language; a dot that was given back is next then. -/
theorem name_ok {k₀ left : Cursor} {rule : Name.Rule} {allowDot : Bool}
    {other : Scan Token} {cs₀ ws₀ : List Char} (hb : k₀.Begun)
    (r₀ : k₀.Reads cs₀ ws₀ k) (h₀ : Kept cs₀ ws₀)
    (hdot : k₀.ahead.head? ≠ some '.')
    (hne : cs₀ ≠ [] ∨ ∃ c, k.ahead.head? = some c ∧ leadsName c = true)
    {t : Token} (e : (do
      gatherName rule allowDot
      match ← nameToken? rule with
      | some token => return token
      | none => other : Scan Token) k = .ok t left) :
    (∃ cs, k₀.Copied cs t left) ∨ ∃ mid cs ws, k₀.Held cs ws mid ∧
      ('\\' ∉ k₀.ahead → ws = cs) ∧
      (k₀.Reads cs ws mid ∨ mid.ahead.head? = some '.') ∧
      other mid = .ok t left := by
  obtain ⟨_, k₁, e₁, e⟩ := bind_ok e
  obtain ⟨mid, ds, vs, r₁, hg, hs⟩ := gatherName_ok e₁
  have hne' : cs₀ ++ ds ≠ [] := by
    rcases hne with hne | ⟨c, hc, hl⟩
    · exact List.append_ne_nil_of_left_ne_nil hne _
    · exact List.append_ne_nil_of_right_ne_nil _
        (gatherName_nonempty hc hl r₁ hg)
  have hr : Renders (cs₀ ++ ds) (ws₀ ++ vs) := by
    rw [h₀.1]
    exact (Renders.same cs₀).append hg.renders
  obtain ⟨cs, ws, hheld, hplain, hlast⟩ :=
    hs.held hb (r₀.trans r₁) (h₀.2.append hg.inline) hr hne' (fun h =>
      absurd h hdot)
  obtain ⟨o, k₂, e₂, e₃⟩ := bind_ok e
  rcases nameToken?_ok hheld hplain e₂ with ⟨rfl, rfl⟩ | ⟨token, cs', rfl, hc⟩
  · exact Or.inr ⟨k₂, cs, ws, hheld, hplain, hlast, e₃⟩
  · cases e₃
    exact Or.inl ⟨cs', hc⟩

/-- A lexeme that is a prefixed name is as well one that is a datatype. -/
theorem copied_datatype {k₀ left : Cursor} {cs : List Char} {t : Token}
    (h : k₀.Copied cs t left) (hk : t.kind = .prefixedName) :
    k₀.Copied cs { t with kind := .datatype }
    { left with previous := some .datatype } where
  nonempty := h.nonempty
  ahead := h.ahead
  here := h.here
  apart := h.apart
  first := h.first
  within := h.within
  previous := rfl
  inner := rfl
  copied hn := by
    have hc := h.copied hn
    rw [hk] at hc
    exact hc

theorem completes_nameDatatype {rule : Name.Rule} {c : Char} (hb : k.Begun)
    (hc : k.ahead.head? = some c) (hl : leadsName c = true) (hdot : c ≠ '.') :
    Completes Copied k k (nameDatatype rule) := by
  intro t left e
  obtain ⟨_, k₁, e₁, e⟩ := bind_ok e
  obtain ⟨mid, ds, vs, r₁, hg, hs⟩ := gatherName_ok e₁
  have hdot' : k.ahead.head? = some '.' → k₁.written ≠ [] := by
    intro h
    rw [hc] at h
    cases h
    exact absurd rfl hdot
  obtain ⟨cs, ws, hheld, hplain, -⟩ :=
    hs.held hb r₁ hg.inline hg.renders (gatherName_nonempty hc hl r₁ hg) hdot'
  obtain ⟨o, k₂, e₂, e₃⟩ := bind_ok e
  rcases nameToken?_ok hheld hplain e₂ with ⟨rfl, rfl⟩ | ⟨token, cs', rfl, hcop⟩
  · cases e₃
  · dsimp only at e₃
    split at e₃
    · rename_i hk
      cases e₃
      exact ⟨cs', copied_datatype hcop (by simpa using hk)⟩
    · cases e₃

theorem finds_datatype {rule : Name.Rule} :
    Finds Copied Unicode.isBlank k (datatype rule) := by
  intro t left e
  obtain ⟨_, k₁, e₁, e⟩ := bind_ok e
  obtain ⟨hp, hb⟩ := discardBlank_ok e₁
  rcases look_bind_ok e with ⟨k₂, r₂, -, e⟩ | ⟨c, k₂, r₂, hc, e⟩
  · exact absurd e unexpectedEnd_ne_ok
  · refine ⟨k₂, hp.trans_nil r₂, Or.inr ?_⟩
    have hb := r₂.begun hb
    dsimp only at e
    split at e
    · rename_i hlt
      rw [beq_iff_eq] at hlt
      rw [hlt] at hc
      exact completes_referenceDatatype hb hc t left e
    · split at e
      · cases e
      · rename_i hname
        simp only [Bool.or_eq_true, Bool.not_eq_true', Bool.or_eq_false_iff,
          beq_iff_eq,
          not_or, not_and, Bool.not_eq_false] at hname
        have hl : leadsName c = true := by
          simp only [leadsName, Bool.or_eq_true, beq_iff_eq, Bool.and_eq_true,
            bne_iff_ne]
          by_cases hs : Name.isScanned c = true
          · exact Or.inr ⟨hs, hname.2⟩
          · exact Or.inl (by simpa using hname.1 (by simpa using hs))
        exact completes_nameDatatype hb hc hl hname.2 t left e

/-! ## Prefixes, directives and variables -/

theorem finds_prefixName : Finds Copied Unicode.isBlank k prefixName := by
  intro t left e
  obtain ⟨_, k₁, e₁, e⟩ := bind_ok e
  obtain ⟨hp, hb⟩ := discardBlank_ok e₁
  refine ⟨k₁, hp, Or.inr ?_⟩
  obtain ⟨_, k₂, e₂, e⟩ := bind_ok e
  obtain ⟨cs, ws, r₂, hws, -⟩ := iterate_ok (fun s _ r _ e =>
    prefixTurn_ok s r e) e₂
  have e := get_bind_ok e
  split at e
  · obtain ⟨c, k₃, -, e⟩ := bind_ok e
    cases e
  · rename_i hend
    split at e
    · have hne : cs ≠ [] := by
        intro hnil
        rw [hws, hnil] at r₂
        simp [Cursor.endsWith, r₂.written, hb.written] at hend
      exact emit_plain (held_of_reads hb r₂ hne) (fun _ => rfl) rfl
        (fun _ => hws) t left e
    · cases e

theorem nextOrEnd_ok {left : Cursor} {c : Char} (e : nextOrEnd k = .ok c left) :
    k.Reads [] [] left ∧ c = left.ahead.head?.getD endOfInput := by
  obtain ⟨o, k₁, e₁, e⟩ := bind_ok e
  obtain ⟨rfl, r₁⟩ := look_ok e₁
  cases e
  exact ⟨r₁, rfl⟩

/-- A word behind `@` is kept as it stands. -/
theorem directiveWord_ok {left : Cursor} {word : List Char} (hb : k.Begun)
    (hc : k.ahead.head? = some '@') (e : directiveWord k = .ok word left) :
    k.Held word word left := by
  obtain ⟨_, k₁, e₁, e⟩ := bind_ok e
  obtain ⟨-, r₁⟩ := consume_ok hc (by decide) e₁
  obtain ⟨_, k₂, e₂, e⟩ := bind_ok e
  have r := r₁.trans
    (consumeWhile_ok (fun c h => not_isLineEnd_of_isAlphabetic h) e₂)
  have h := held_of_reads hb r (List.cons_ne_nil _ _)
  have e := get_bind_ok e
  split at e
  · obtain ⟨c, k₃, -, e⟩ := bind_ok e
    cases e
  · cases e
    rw [h.value]
    exact h

theorem not_isLineEnd_of_isVariableChar {c : Char}
    (h : Name.isVariableChar c = true) :
    Unicode.isLineEnd c = false :=
  not_isLineEnd_of_isScanned (Name.isScanned_of_isInner (Name.isInner_of_isVariableChar h))

theorem gatherVariable_ok {left : Cursor} {sign : Char} {u : Unit}
    (hb : k.Begun) (hc : k.ahead.head? = some sign)
    (hl : Unicode.isLineEnd sign = false) (e : gatherVariable k = .ok u left) :
    ∃ ws, k.Held (sign :: ws) ws left := by
  obtain ⟨_, k₁, e₁, e⟩ := bind_ok e
  obtain ⟨-, r₁⟩ := skip_ok hc hl e₁
  have r := r₁.trans
    (consumeWhile_ok (fun c h => not_isLineEnd_of_isVariableChar h) e)
  exact ⟨_, held_of_reads hb r (List.cons_ne_nil _ _)⟩

theorem completes_variableToken {k₀ : Cursor} {sign : Char} {ws : List Char}
    (h : k₀.Held (sign :: ws) ws k) (hsign : sign = '?' ∨ sign = '$') :
    Completes Copied k₀ k (variableToken sign) := by
  intro t left e
  have e := get_bind_ok e
  split at e
  · refine emit_copied h rfl ?_ t left e
    intro _
    rcases hsign with rfl | rfl <;> simp [Kind.spellings]
  · cases e

/-- A variable behind `?`. -/
theorem completes_questionVariable (hb : k.Begun)
    (hc : k.ahead.head? = some '?') :
    Completes Copied k k (do gatherVariable; variableToken '?') := by
  intro t left e
  obtain ⟨_, k₁, e₁, e⟩ := bind_ok e
  obtain ⟨ws, h⟩ := gatherVariable_ok hb hc (by decide) e₁
  exact completes_variableToken h (Or.inl rfl) t left e

/-! ## Numbers -/

theorem written_ne_nil_of_settles {mid left : Cursor} (h : Settles mid left)
    (hne : left.written ≠ []) : mid.written ≠ [] := by
  cases h with
  | stays => exact hne
  | gives w hp hw =>
    rw [hw]
    exact List.cons_ne_nil _ _

/-- What a number has come to once its dot was given back, if the grammar lets
it be a number. -/
theorem held_of_number {k₀ mid left : Cursor} {cs ws : List Char}
    (hb : k₀.Begun) (r : k₀.Reads cs ws mid) (h : Kept cs ws)
    (hs : Settles mid left) (hne : left.written ≠ []) :
    ∃ ds vs, k₀.Held ds vs left ∧ ('\\' ∉ k₀.ahead → vs = ds) := by
  have hcs : cs ≠ [] := by
    intro hnil
    apply written_ne_nil_of_settles hs hne
    rw [r.written, h.1, hnil, hb.written]
    rfl
  have hr : Renders cs ws := by
    rw [h.1]
    exact Renders.same cs
  obtain ⟨ds, vs, hheld, hplain, -⟩ := hs.held hb r h.2 hr hcs (fun _ => hne)
  exact ⟨ds, vs, hheld, hplain⟩

theorem written_ne_nil_of_value {left : Cursor} {p : List Char → Bool}
    (hp : p [] = false) (h : p left.value = true) : left.written ≠ [] := by
  intro hnil
  unfold Cursor.value at h
  rw [hnil, List.reverse_nil, hp] at h
  cases h

theorem completes_number {k₀ : Cursor} {cs ws : List Char} (hb : k₀.Begun)
    (r₀ : k₀.Reads cs ws k) (h₀ : Kept cs ws) :
    Completes Copied k₀ k number := by
  intro t left e
  have e := get_bind_ok e
  obtain ⟨_, mid, e₁, e⟩ := bind_ok e
  obtain ⟨ds, vs, r₁, h₁⟩ := iterate_ok (fun s _ r _ e => numberTurn_ok s r e) e₁
  obtain ⟨_, k₂, e₂, e⟩ := bind_ok e
  have hs := giveBackDot_ok e₂
  have e := get_bind_ok e
  split at e
  · rename_i hnum
    have hne := written_ne_nil_of_value (p := Number.isPlainLiteral) (by decide) hnum
    obtain ⟨ds, vs, hheld, hplain⟩ := held_of_number hb (r₀.trans r₁)
      (h₀.append h₁) hs hne
    exact emit_plain hheld (fun _ => rfl) rfl hplain t left e
  · cases e

/-- A dot, or a number behind it. -/
theorem completes_dotOrNumber {readNumber : Scan Token} (hb : k.Begun)
    (hc : k.ahead.head? = some '.')
    (hn : ∀ mid, k.Reads ['.'] ['.'] mid → Completes Copied k mid readNumber) :
    Completes Copied k k (dotOrNumber readNumber) := by
  intro t left e
  obtain ⟨_, k₁, e₁, e⟩ := bind_ok e
  obtain ⟨-, r₁⟩ := consume_ok hc (by decide) e₁
  have hdot : ∀ mid, k.Reads ['.'] ['.'] mid →
      Completes Copied k mid (emit .dot) := by
    intro mid r
    have hheld := held_of_reads hb r (List.cons_ne_nil _ _)
    exact emit_plain hheld (fun _ => rfl) rfl (fun _ => rfl)
  rcases look_bind_ok e with ⟨k₂, r₂, -, e⟩ | ⟨c, k₂, r₂, -, e⟩
  · exact hdot k₂ (r₁.trans r₂) t left e
  · dsimp only at e
    split at e
    · exact hn k₂ (r₁.trans r₂) t left e
    · exact hdot k₂ (r₁.trans r₂) t left e

end Readers

end TripleLex.Scan

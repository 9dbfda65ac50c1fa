import TripleLex.Proofs.Readers

/-!
# Lexemes of queries

Every token of SPARQL is a lexeme behind blank characters that spells itself
where there is no escape. A keyword of two words keeps the blank characters
between them.

## Main results

* `completes_twoWords` — a keyword of two words.
* `finds_read` — the lexemes of the prologue and of the body.
-/

namespace TripleLex.Query.Sparql

open Scan Cursor

variable {k : Cursor} {q : Sparql}

/-! ## Keywords -/

/-- Whether the level has a keyword is judged without reading on. -/
theorem checkLevel_ok {word : Keyword} {left : Cursor} {u : Unit}
    (e : q.checkLevel word k = .ok u left) : left = k := by
  unfold checkLevel at e
  split at e
  · cases e
    rfl
  · split at e <;> cases e

/-- Whether a keyword may stand in its scope is judged without reading on. -/
theorem checkScope_ok {word : Keyword} {left : Cursor} {u : Unit}
    (e : q.checkScope word k = .ok u left) : left = k := by
  unfold checkScope at e
  split at e <;> try (split at e)
  all_goals cases e
  all_goals rfl

section Gathered

variable {k₀ : Cursor} {cs ws : List Char}

/-- A keyword that is admitted is spelled by the word or the two words that were held. -/
theorem completes_keyword {word : Keyword} (h : k₀.Held cs ws k)
    (hs : '\\' ∉ k₀.ahead → ws = cs) :
    Completes Copied k₀ k (q.keyword word) := by
  intro t left e
  obtain ⟨_, k₁, e₁, e⟩ := bind_ok e
  obtain ⟨_, k₂, e₂, e⟩ := bind_ok e
  rw [checkScope_ok e₂, checkLevel_ok e₁] at e
  exact emit_plain h (fun _ => rfl) rfl hs t left e

theorem completes_base (h : k₀.Held cs ws k) (hs : '\\' ∉ k₀.ahead → ws = cs) :
    Completes Copied k₀ k q.base := by
  unfold base
  split
  · exact completes_violation _
  · exact emit_plain h (fun _ => rfl) rfl hs

/-- In the prologue a word comes to a declaration or to the keyword that ends it. -/
theorem completes_prologueWord {word : List Char} (h : k₀.Held cs ws k)
    (hs : '\\' ∉ k₀.ahead → ws = cs) :
    Completes Copied k₀ k (q.prologueWord word) := by
  unfold prologueWord
  split
  · exact completes_base h hs
  · split
    · exact emit_plain h (fun _ => rfl) rfl hs
    · split
      · split
        · intro t left e
          obtain ⟨_, k₁, e₁, e⟩ := bind_ok e
          rw [checkLevel_ok e₁] at e
          exact emit_plain h (fun _ => rfl) rfl hs t left e
        · exact completes_violation _
      · exact completes_violation _

/-- The second word stands behind blank characters, so no dot can have been
given back before them. -/
theorem completes_twoWords {seconds : List (String × Keyword)} (hb : k₀.Begun)
    (h : k₀.Held cs ws k) (hs : '\\' ∉ k₀.ahead → ws = cs)
    (hlast : k₀.Reads cs ws k ∨ k.ahead.head? = some '.') :
    Completes Copied k₀ k (q.twoWords seconds) := by
  intro t left e
  have e := get_bind_ok e
  obtain ⟨spaced, k₁, e₁, e⟩ := bind_ok e
  obtain ⟨ds, vs, r₁, hvs, hblank, hnil⟩ := iterate_ok (fun s _ r _ e =>
    spaceTurn_ok s r e) e₁
  have e := get_bind_ok e
  obtain ⟨_, k₂, e₂, e⟩ := bind_ok e
  have r₂ := consumeWhile_ok (fun c h => not_isLineEnd_of_isAlphabetic h) e₂
  have e := get_bind_ok e
  cases hf : seconds.find? fun entry => isText (k₂.value.drop k₁.value.length)
    entry.1 with
  | none =>
    rw [hf] at e
    cases e
  | some entry =>
    rw [hf] at e
    cases spaced with
    | false => cases e
    | true =>
      have hspaced : ds ≠ [] := fun hd => Bool.noConfusion (hnil hd)
      have r : k₀.Reads cs ws k := by
        rcases hlast with r | hdot
        · exact r
        · obtain ⟨d, ds', rfl⟩ := List.exists_cons_of_ne_nil hspaced
          have hd : Unicode.isBlank d = true := hblank d List.mem_cons_self
          rw [r₁.head?_eq] at hdot
          cases hdot
          exact absurd hd (by decide)
      have rall := (r.trans r₁).trans r₂
      have hne : cs ++ ds ++ k₁.ahead.takeWhile Unicode.isAlphabetic ≠ [] :=
        List.append_ne_nil_of_left_ne_nil (List.append_ne_nil_of_left_ne_nil h.nonempty _) _
      refine completes_keyword (held_of_reads hb rall hne) ?_ t left e
      intro hn
      rw [hs hn, hvs]

/-- A bare word of the body. Where it asks for a second one, `hlast` says that no dot was
given back between them. -/
theorem completes_bareWord {word : List Char} (hb : k₀.Begun)
    (h : k₀.Held cs ws k) (hs : '\\' ∉ k₀.ahead → ws = cs)
    (hlast : k₀.Reads cs ws k ∨ k.ahead.head? = some '.') :
    Completes Copied k₀ k (q.bareWord word) := by
  unfold bareWord
  split
  · exact emit_plain h (fun _ => rfl) rfl hs
  · split
    · exact emit_plain h (fun _ => rfl) rfl hs
    · split
      · exact completes_base h hs
      · split
        · exact emit_plain h (fun _ => rfl) rfl hs
        · split
          · exact completes_twoWords hb h hs hlast
          · split
            · exact completes_twoWords hb h hs hlast
            · split
              · exact completes_twoWords hb h hs hlast
              · split
                · exact completes_keyword h hs
                · exact completes_invalidForm _ _

/-! ## Names -/

/-- A name behind `cs₀`, which has been read of it. -/
theorem completes_name {cs₀ ws₀ : List Char} (hb : k₀.Begun)
    (r₀ : k₀.Reads cs₀ ws₀ k) (h₀ : Kept cs₀ ws₀)
    (hdot : k₀.ahead.head? ≠ some '.')
    (hne : cs₀ ≠ [] ∨ ∃ c, k.ahead.head? = some c ∧ leadsName c = true) :
    Completes Copied k₀ k q.name := by
  intro t left e
  rcases name_ok hb r₀ h₀ hdot hne e with h | ⟨mid, cs, ws, h, hs, hlast, e⟩
  · exact h
  · have e := get_bind_ok e
    exact completes_bareWord hb h hs hlast t left e

/-- A name at the start of a token. -/
theorem completes_nameHere {c : Char} (hb : k.Begun)
    (hc : k.ahead.head? = some c) (hl : leadsName c = true) :
    Completes Copied k k q.name :=
  completes_name hb (Reads.refl k) kept_nil (head_ne_dot hc hl)
    (Or.inr ⟨c, hc, hl⟩)

/-- The colon has been read when it turns out not to begin `:=`, so the name goes on behind
it. -/
theorem completes_assignmentOrName (hb : k.Begun)
    (hc : k.ahead.head? = some ':') :
    Completes Copied k k q.assignmentOrName := by
  intro t left e
  obtain ⟨_, k₁, e₁, e⟩ := bind_ok e
  obtain ⟨-, r₁⟩ := consume_ok hc (by decide) e₁
  obtain ⟨found, k₂, e₂, e⟩ := bind_ok e
  obtain ⟨h₂, r₂⟩ := nextIs_ok e₂
  have r₂ := r₁.trans r₂
  cases found with
  | false =>
    refine completes_name hb r₂ (kept_singleton (by decide)) ?_
      (Or.inl (List.cons_ne_nil _ _))
      t left e
    rw [hc]
    exact nofun
  | true =>
    obtain ⟨_, k₃, e₃, e⟩ := bind_ok e
    obtain ⟨-, r₃⟩ := consume_ok (h₂.1 rfl) (by decide) e₃
    exact emit_plain (held_of_reads hb (r₂.trans r₃) (List.cons_ne_nil _ _))
      (fun _ => rfl) rfl (fun _ => rfl) t left e

/-! ## Numbers -/

/-- A number whose dot was given back, or was left to it. -/
theorem completes_settledNumber {mid : Cursor} (hb : k₀.Begun)
    (r : k₀.Reads cs ws mid) (h : Kept cs ws) (hs : Settles mid k)
    (dot : Bool) :
    Completes Copied k₀ k (do
      let c ← get
      if Number.isNumber dot c.value then emit .plainLiteral
      else invalidForm "Numeric Literal" c.text) := by
  intro t left e
  have e := get_bind_ok e
  split at e
  · rename_i hnum
    have hempty : Number.isNumber dot [] = false := by cases dot <;> decide
    have hne := written_ne_nil_of_value hempty hnum
    obtain ⟨ds, vs, hheld, hplain⟩ := held_of_number hb r h hs hne
    exact emit_plain hheld (fun _ => rfl) rfl hplain t left e
  · cases e

/-- A dot at the end of a number is kept or given back, as the level has it. -/
theorem completes_numericToken {mid : Cursor} (hb : k₀.Begun)
    (r : k₀.Reads cs ws mid) (h : Kept cs ws) :
    Completes Copied k₀ mid q.numericToken := by
  intro t left e
  unfold numericToken at e
  split at e
  · exact completes_settledNumber hb r h Settles.stays _ t left e
  · obtain ⟨_, k₁, e₁, e⟩ := bind_ok e
    exact completes_settledNumber hb r h (giveBackDot_ok e₁) _ t left e

/-- A number behind `cs`, which may be the dot that it begins with. If nothing but a sign
was gathered, the sign is what was read. -/
theorem completes_numberOrSign (hb : k₀.Begun) (r₀ : k₀.Reads cs ws k)
    (h₀ : Kept cs ws) :
    Completes Copied k₀ k q.numberOrSign := by
  intro t left e
  have e := get_bind_ok e
  obtain ⟨_, mid, e₁, e⟩ := bind_ok e
  obtain ⟨ds, vs, r₁, h₁⟩ := iterate_ok (fun s _ r _ e => numericTurn_ok s r e) e₁
  have r := r₀.trans r₁
  have hkept := h₀.append h₁
  have hsign : ∀ sign : Char, (mid.value == [sign]) = true →
      ∀ kind : Kind, kind.IsPlain → kind.isMark = false →
          Completes Copied k₀ mid (emit kind) := by
    intro sign hv kind hp hm
    have hne : cs ++ ds ≠ [] := by
      intro hnil
      rw [hkept.1, hnil] at r
      rw [beq_iff_eq, Cursor.value, r.written, hb.written] at hv
      cases hv
    exact emit_plain (held_of_reads hb r hne) hp hm (fun _ => hkept.1)
  have e := get_bind_ok e
  split at e
  · rename_i hv
    exact hsign _ hv .plus (fun _ => rfl) rfl t left e
  · split at e
    · rename_i hv
      exact hsign _ hv .minus (fun _ => rfl) rfl t left e
    · exact completes_numericToken hb r hkept t left e

end Gathered

/-! ## Signs -/

/-- A sign alone, or with the second character that makes another sign of it. -/
theorem completes_oneOrTwo {c second : Char} {double single : Kind}
    (hb : k.Begun) (hc : k.ahead.head? = some c)
    (hl : Unicode.isLineEnd c = false) (hl₂ : Unicode.isLineEnd second = false)
    (hd : double.IsPlain) (hd' : double.isMark = false) (hs : single.IsPlain)
    (hs' : single.isMark = false) :
    Completes Copied k k (oneOrTwo second double single) := by
  intro t left e
  obtain ⟨_, k₁, e₁, e⟩ := bind_ok e
  obtain ⟨-, r₁⟩ := consume_ok hc hl e₁
  obtain ⟨found, k₂, e₂, e⟩ := bind_ok e
  obtain ⟨h₂, r₂⟩ := nextIs_ok e₂
  have r₂ := r₁.trans r₂
  cases found with
  | false =>
    have h := held_of_reads hb r₂ (List.cons_ne_nil _ _)
    exact emit_plain h hs hs' (fun _ => rfl) t left e
  | true =>
    obtain ⟨_, k₃, e₃, e⟩ := bind_ok e
    obtain ⟨-, r₃⟩ := consume_ok (h₂.1 rfl) hl₂ e₃
    have h := held_of_reads hb (r₂.trans r₃) (List.cons_ne_nil _ _)
    exact emit_plain h hd hd' (fun _ => rfl) t left e

/-- Whether a bracket opens a reference is told by the character behind it. The bracket is
not held, so the operators are given their texts. -/
theorem completes_referenceOrLess (hb : k.Begun)
    (hc : k.ahead.head? = some '<') :
    Completes Copied k k referenceOrLess := by
  intro t left e
  obtain ⟨_, k₁, e₁, e⟩ := bind_ok e
  obtain ⟨-, r₁⟩ := skip_ok hc (by decide) e₁
  obtain ⟨c, k₂, e₂, e⟩ := bind_ok e
  obtain ⟨h₂, r₂⟩ := look_ok e₂
  have r₂ := r₁.trans r₂
  split at e
  · exact emitAs_copied (held_of_reads hb r₂ (List.cons_ne_nil _ _)) rfl
      (fun _ => List.mem_singleton_self _) t left e
  · split at e
    · rename_i heq
      rw [beq_iff_eq] at heq
      obtain ⟨_, k₃, e₃, e⟩ := bind_ok e
      obtain ⟨-, r₃⟩ := skip_ok (h₂.trans heq) (by decide) e₃
      obtain ⟨d, k₄, e₄, e⟩ := bind_ok e
      obtain ⟨-, r₄⟩ := look_ok e₄
      have r := (r₂.trans r₃).trans r₄
      split at e
      · exact emitAs_copied (held_of_reads hb r (List.cons_ne_nil _ _)) rfl
          (fun _ => List.mem_singleton_self _) t left e
      · cases e
    · obtain ⟨_, k₃, e₃, e⟩ := bind_ok e
      obtain ⟨_, ws, r₃, body, rfl, hr⟩ := referenceBody_ok e₃
      have r := r₂.trans r₃
      refine emit_copied (held_of_reads hb r (List.cons_ne_nil _ _))
        rfl ?_ t left e
      intro hn
      have hws : ws = body := plain_of_closed r hr hn
      rw [hws]
      exact List.mem_singleton_self _

/-- Two signs come to a token behind a quoted literal only, and a single one everywhere. -/
theorem completes_hat {previous : Option Kind} (hb : k.Begun)
    (hc : k.ahead.head? = some '^') :
    Completes Copied k k (hat previous) := by
  intro t left e
  obtain ⟨_, k₁, e₁, e⟩ := bind_ok e
  obtain ⟨-, r₁⟩ := consume_ok hc (by decide) e₁
  obtain ⟨found, k₂, e₂, e⟩ := bind_ok e
  obtain ⟨h₂, r₂⟩ := nextIs_ok e₂
  have r₂ := r₁.trans r₂
  cases found with
  | false =>
    have h := held_of_reads hb r₂ (List.cons_ne_nil _ _)
    exact emit_plain h (fun _ => rfl) rfl (fun _ => rfl) t left e
  | true =>
    split at e
    · split at e
      · obtain ⟨_, k₃, e₃, e⟩ := bind_ok e
        obtain ⟨-, r₃⟩ := consume_ok (h₂.1 rfl) (by decide) e₃
        have h := held_of_reads hb (r₂.trans r₃) (List.cons_ne_nil _ _)
        exact emit_plain h (fun _ => rfl) rfl (fun _ => rfl) t left e
      · cases e
    · exact absurd rfl ‹¬true = true›

/-- A question mark without a name is a sign of its own, where a dollar sign is a fault. -/
theorem completes_variableName {sign : Char} (hb : k.Begun)
    (hc : k.ahead.head? = some sign) (hsign : sign = '?' ∨ sign = '$') :
    Completes Copied k k (variableName sign) := by
  have hl : Unicode.isLineEnd sign = false := by
    rcases hsign with rfl | rfl <;> decide
  intro t left e
  obtain ⟨_, k₁, e₁, e⟩ := bind_ok e
  obtain ⟨ws, h⟩ := gatherVariable_ok hb hc hl e₁
  have e := get_bind_ok e
  split at e
  · rename_i hempty
    have hws : ws = [] := by
      rw [Cursor.isEmpty, h.written, List.isEmpty_iff,
        List.reverse_eq_nil_iff] at hempty
      exact hempty
    split at e
    · rename_i hq
      rw [beq_iff_eq] at hq
      refine emitAs_copied h rfl ?_ t left e
      intro _
      rw [hws, hq]
      exact List.mem_singleton_self _
    · obtain ⟨c, k₂, -, e⟩ := bind_ok e
      cases e
  · exact completes_variableToken h hsign t left e

theorem completes_ampersand (hb : k.Begun) (hc : k.ahead.head? = some '&') :
    Completes Copied k k ampersand := by
  intro t left e
  obtain ⟨_, k₁, e₁, e⟩ := bind_ok e
  obtain ⟨-, r₁⟩ := consume_ok hc (by decide) e₁
  obtain ⟨found, k₂, e₂, e⟩ := bind_ok e
  obtain ⟨h₂, r₂⟩ := nextIs_ok e₂
  cases found with
  | false =>
    obtain ⟨c, k₃, -, e⟩ := bind_ok e
    cases e
  | true =>
    obtain ⟨_, k₃, e₃, e⟩ := bind_ok e
    obtain ⟨-, r₃⟩ := consume_ok (h₂.1 rfl) (by decide) e₃
    have h := held_of_reads hb ((r₁.trans r₂).trans r₃) (List.cons_ne_nil _ _)
    exact emit_plain h (fun _ => rfl) rfl (fun _ => rfl) t left e

theorem isPlain_starKind (previous : Option Kind) :
    (starKind previous).IsPlain := by
  unfold starKind
  split <;> exact fun _ => rfl

theorem isMark_starKind (previous : Option Kind) :
    (starKind previous).isMark = false := by
  unfold starKind
  split <;> rfl

/-! ## Prologue and body -/

/-- Whatever the first character in the prologue, what comes of it is a lexeme. -/
theorem completes_prologue {previous : Option Kind} {c : Char} (hb : k.Begun)
    (hc : k.ahead.head? = some c) :
    Completes Copied k k (q.prologue previous c) := by
  unfold prologue
  split
  · rename_i hhash
    rw [beq_iff_eq] at hhash
    rw [hhash] at hc
    exact completes_comment hb hc
  · split
    · rename_i hlt
      rw [beq_iff_eq] at hlt
      rw [hlt] at hc
      split
      · exact completes_reference hb hc
      · exact completes_unexpectedCharacter _ _
    · intro t left e
      obtain ⟨_, k₁, e₁, e⟩ := bind_ok e
      have r₁ := consumeWhile_ok (fun c h => not_isLineEnd_of_isAlphabetic h) e₁
      have e := get_bind_ok e
      split at e
      · cases e
      · rename_i hne
        have hne' : k.ahead.takeWhile Unicode.isAlphabetic ≠ [] := by
          intro hnil
          rw [hnil] at r₁
          simp [Cursor.isEmpty, r₁.written, hb.written] at hne
        exact completes_prologueWord (held_of_reads hb r₁ hne') (fun _ => rfl)
          t left e

/-- Whatever the first character in the body, what comes of it is a lexeme. -/
theorem completes_body {previous : Option Kind} {c : Char} (hb : k.Begun)
    (hc : k.ahead.head? = some c) :
    Completes Copied k k (q.body previous c) := by
  unfold body
  split
  · exact completes_comment hb hc
  · exact completes_referenceOrLess hb hc
  · exact completes_oneOrTwo hb hc (by decide) (by decide) (fun _ => rfl) rfl
      (fun _ => rfl) rfl
  · exact completes_literal hb hc (Or.inl rfl)
  · exact completes_literal hb hc (Or.inr rfl)
  · exact completes_hat hb hc
  · exact completes_variableName hb hc (Or.inl rfl)
  · exact completes_variableName hb hc (Or.inr rfl)
  · exact completes_single hb hc (by decide) (fun _ => rfl) rfl
  · exact completes_single hb hc (by decide) (fun _ => rfl) rfl
  · exact completes_single hb hc (by decide) (fun _ => rfl) rfl
  · exact completes_single hb hc (by decide) (fun _ => rfl) rfl
  · exact completes_single hb hc (by decide) (fun _ => rfl) rfl
  · exact completes_single hb hc (by decide) (fun _ => rfl) rfl
  · exact completes_single hb hc (by decide) (fun _ => rfl) rfl
  · exact completes_single hb hc (by decide) (fun _ => rfl) rfl
  · exact completes_dotOrNumber hb hc fun mid r =>
      completes_numberOrSign hb r (kept_singleton (by decide))
  · exact completes_single hb hc (by decide) (isPlain_starKind _)
      (isMark_starKind _)
  · exact completes_single hb hc (by decide) (fun _ => rfl) rfl
  · exact completes_single hb hc (by decide) (fun _ => rfl) rfl
  · exact completes_oneOrTwo hb hc (by decide) (by decide) (fun _ => rfl) rfl
      (fun _ => rfl) rfl
  · exact completes_oneOrTwo hb hc (by decide) (by decide) (fun _ => rfl) rfl
      (fun _ => rfl) rfl
  · exact completes_ampersand hb hc
  · exact completes_numberOrSign hb (Reads.refl k) kept_nil
  · exact completes_numberOrSign hb (Reads.refl k) kept_nil
  · exact completes_assignmentOrName hb hc
  · exact completes_nameHere hb hc (leadsName_ascii (by decide))
  · exact completes_nameHere hb hc (leadsName_ascii (by decide))
  · split
    · rename_i hat
      simp only [Bool.and_eq_true, beq_iff_eq] at hat
      rw [hat.1] at hc
      exact completes_languageTag hb hc
    · split
      · exact completes_numberOrSign hb (Reads.refl k) kept_nil
      · split
        · rename_i hopens
          exact completes_nameHere hb hc (leadsName_of_opensName hopens)
        · exact completes_unexpectedCharacter _ _

/-- All tokens of queries and updates. -/
theorem finds_read {previous : Option Kind} :
    Finds Copied Unicode.isBlank k (q.read previous) := by
  unfold read
  split
  · exact finds_prefixName
  · exact finds_datatype
  · refine finds_blankThen fun c k' hb hc => ?_
    split
    · exact completes_body hb hc
    · exact completes_prologue hb hc

end TripleLex.Query.Sparql

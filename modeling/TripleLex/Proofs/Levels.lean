import TripleLex.Proofs.Gating
import TripleLex.Proofs.Included
import TripleLex.Proofs.WholeNames

/-!
# Levels of the query language

Between two levels that are both above SPARQL 1.0 only the keywords differ that the
levels know: names, numbers and sub-queries are judged alike. A reader at the one
level makes the same token as a reader at the other one, unless the token is a
keyword that the other level does not know (`Sparql.includedWhere_read`), and what
is remembered follows from the tokens alone, so that this holds of whole queries
(`Lexer.run_withLevel`).

## Main results

* `Lexer.run_withLevel` — a query whose keywords the other level knows.
* `Lexer.extended_conservative` — SPARQL 1.1 and the extended level.
-/

namespace TripleLex

open Scan

namespace Query

/-- The token is no keyword that the level does not know. -/
def Level.Knows (level : Level) (t : Token) : Prop :=
  ∀ w, t.kind = .keyword w → w.availableIn level = true

/-- A level knows the keywords of those below. -/
theorem Level.Knows.mono {a b : Level} {t : Token} (h : a.rank ≤ b.rank) (ht : a.Knows t) :
    b.Knows t := by
  intro w hw
  have hlevel := ht w hw
  unfold Keyword.availableIn at hlevel ⊢
  rw [decide_eq_true_iff] at hlevel ⊢
  exact Nat.le_trans hlevel h

namespace Sparql

variable {a b : Level} {p : Progress} {k : Cursor} {previous : Option Kind}

/-! ## What is consulted -/

theorem checkLevel_of_available {q : Sparql} {w : Keyword} (h : w.availableIn q.level = true) :
    q.checkLevel w = pure () := by
  unfold checkLevel
  rw [if_pos h]

theorem allowsFinalDot_of_ne (h : a ≠ .sparql10) : a.allowsFinalDot = false := by
  simpa [Level.allowsFinalDot] using h

/-! ## The prologue -/

theorem includedWhere_prologueWord (word : List Char) :
    IncludedWhere b.Knows k ((⟨a, p⟩ : Sparql).prologueWord word)
      ((⟨b, p⟩ : Sparql).prologueWord word) := by
  refine includedWhere_ite (fun _ => includedWhere_refl) fun _ =>
    includedWhere_ite (fun _ => includedWhere_refl) fun _ => ?_
  split
  · rename_i w _
    refine includedWhere_ite (fun _ => ?_) fun _ => includedWhere_refl
    intro t left e ht
    obtain ⟨_, mid, e₁, e⟩ := bind_ok e
    have hkind : t.kind = .keyword w := by
      cases e
      rfl
    rw [checkLevel_ok e₁] at e
    rw [checkLevel_of_available (ht w hkind)]
    exact e
  · exact includedWhere_refl

theorem includedWhere_prologue (c : Char) :
    IncludedWhere b.Knows k ((⟨a, p⟩ : Sparql).prologue previous c)
      ((⟨b, p⟩ : Sparql).prologue previous c) :=
  includedWhere_ite (fun _ => includedWhere_refl) fun _ =>
    includedWhere_ite (fun _ => includedWhere_refl) fun _ =>
    includedWhere_bind fun _ _ _ => includedWhere_bind fun _ _ _ =>
    includedWhere_ite (fun _ => includedWhere_refl) fun _ => includedWhere_prologueWord _

/-! ## Keywords of the body -/

section Above

variable (ha : a ≠ .sparql10) (hb : b ≠ .sparql10)
include ha hb

/-- Above SPARQL 1.0 scopes are judged alike. -/
theorem checkScope_of_ne (w : Keyword) :
    (⟨a, p⟩ : Sparql).checkScope w = (⟨b, p⟩ : Sparql).checkScope w := by
  unfold checkScope
  split
  · rw [if_neg (by simpa using ha), if_neg (by simpa using hb)]
  all_goals rfl

theorem includedWhere_keyword (w : Keyword) :
    IncludedWhere b.Knows k ((⟨a, p⟩ : Sparql).keyword w) ((⟨b, p⟩ : Sparql).keyword w) := by
  intro t left e ht
  obtain ⟨_, mid, e₁, e⟩ := bind_ok e
  obtain ⟨_, mid', e₂, e₃⟩ := bind_ok e
  have hkind : t.kind = .keyword w := by
    cases e₃
    rfl
  rw [checkLevel_ok e₁, checkScope_of_ne ha hb] at e
  unfold keyword
  rw [checkLevel_of_available (ht w hkind)]
  exact e

theorem includedWhere_twoWords (seconds : List (String × Keyword)) :
    IncludedWhere b.Knows k ((⟨a, p⟩ : Sparql).twoWords seconds)
      ((⟨b, p⟩ : Sparql).twoWords seconds) := by
  refine includedWhere_bind fun _ _ _ => includedWhere_bind fun spaced _ _ =>
    includedWhere_bind fun _ _ _ => includedWhere_bind fun _ _ _ =>
    includedWhere_bind fun _ _ _ => ?_
  dsimp only
  split
  · exact includedWhere_keyword ha hb _
  · exact includedWhere_refl

theorem includedWhere_bareWord (word : List Char) :
    IncludedWhere b.Knows k ((⟨a, p⟩ : Sparql).bareWord word)
      ((⟨b, p⟩ : Sparql).bareWord word) := by
  refine includedWhere_ite (fun _ => includedWhere_refl) fun _ =>
    includedWhere_ite (fun _ => includedWhere_refl) fun _ =>
    includedWhere_ite (fun _ => includedWhere_refl) fun _ =>
    includedWhere_ite (fun _ => includedWhere_refl) fun _ =>
    includedWhere_ite (fun _ => includedWhere_twoWords ha hb _) fun _ =>
    includedWhere_ite (fun _ => includedWhere_twoWords ha hb _) fun _ =>
    includedWhere_ite (fun _ => includedWhere_twoWords ha hb _) fun _ => ?_
  split
  · exact includedWhere_keyword ha hb _
  · exact includedWhere_refl

/-! ## Names and numbers -/

theorem includedWhere_name :
    IncludedWhere b.Knows k (⟨a, p⟩ : Sparql).name (⟨b, p⟩ : Sparql).name := by
  unfold name
  dsimp only
  rw [Level.nameRule_of_ne ha, Level.nameRule_of_ne hb]
  exact includedWhere_nameOr fun k => includedWhere_bareWord ha hb k.value

theorem includedWhere_assignmentOrName :
    IncludedWhere b.Knows k (⟨a, p⟩ : Sparql).assignmentOrName
      (⟨b, p⟩ : Sparql).assignmentOrName :=
  includedWhere_bind fun _ _ _ => includedWhere_bind fun _ _ _ =>
    includedWhere_ite (fun _ => includedWhere_refl) fun _ => includedWhere_name ha hb

/-- Above SPARQL 1.0 numbers are judged alike. -/
theorem numberOrSign_of_ne :
    (⟨a, p⟩ : Sparql).numberOrSign = (⟨b, p⟩ : Sparql).numberOrSign := by
  unfold numberOrSign numericToken
  simp only [allowsFinalDot_of_ne ha, allowsFinalDot_of_ne hb]

/-! ## Tokens -/

theorem includedWhere_body (c : Char) :
    IncludedWhere b.Knows k ((⟨a, p⟩ : Sparql).body previous c)
      ((⟨b, p⟩ : Sparql).body previous c) := by
  unfold body
  rw [numberOrSign_of_ne ha hb]
  split
  -- only the arms that read names consult the level any further
  case h_26 => exact includedWhere_assignmentOrName ha hb
  case h_27 => exact includedWhere_name ha hb
  case h_28 => exact includedWhere_name ha hb
  case h_29 =>
    exact includedWhere_ite (fun _ => includedWhere_refl) fun _ =>
      includedWhere_ite (fun _ => includedWhere_refl) fun _ =>
      includedWhere_ite (fun _ => includedWhere_name ha hb) fun _ => includedWhere_refl
  all_goals exact includedWhere_refl

/-- Above SPARQL 1.0 a reader makes what a reader at another level makes, but for the
keywords that its level does not know. -/
theorem includedWhere_read :
    IncludedWhere b.Knows k ((⟨a, p⟩ : Sparql).read previous)
      ((⟨b, p⟩ : Sparql).read previous) := by
  unfold read
  dsimp only
  rw [Level.nameRule_of_ne ha, Level.nameRule_of_ne hb]
  split
  · exact includedWhere_refl
  · exact includedWhere_refl
  · exact includedWhere_blankThen fun c k _ _ =>
      includedWhere_ite (fun _ => includedWhere_body ha hb c) fun _ => includedWhere_prologue c

end Above

end Sparql

end Query

/-! ## Whole queries -/

namespace Lexer

open Query (Level Sparql Progress)

variable {a b : Level} {k : Cursor} {p : Progress} {ts : List Token}

/-- A query that is read at a level above SPARQL 1.0 is read alike at another one if
that knows those of its keywords that the first level knows. -/
theorem run_withLevel (ha : a ≠ .sparql10) (hb : b ≠ .sparql10)
    (hts : ∀ t ∈ ts, a.Knows t → b.Knows t)
    (hrun : (⟨.sparql ⟨a, p⟩, k⟩ : Lexer).run = .ok ts) :
    (⟨.sparql ⟨b, p⟩, k⟩ : Lexer).run = .ok ts := by
  refine run_simulated
    (R := fun l m => ∃ p, l.machine = .sparql ⟨a, p⟩ ∧ m = .sparql ⟨b, p⟩)
    (P := fun t => a.Knows t → b.Knows t) ?_ ?_ ⟨p, rfl, rfl⟩ hts hrun
  · rintro l l₁ m t ⟨p, hl, rfl⟩ e - -
    have hmachine := (next_ok e).2
    rw [hl] at hmachine
    exact ⟨p.after t, hmachine, rfl⟩
  · rintro l m t kind left ⟨p, hl, rfl⟩ - - e ht -
    rw [hl] at e
    have hknows : a.Knows t := fun w hw => ((Sparql.gates_read t left e).word w hw).2.1
    exact Sparql.includedWhere_read ha hb t left e (ht hknows)

/-- The extended level is conservative over SPARQL 1.1: whatever SPARQL 1.1 reads it
reads alike, and SPARQL 1.1 reads alike whatever it reads without a keyword of its
own. -/
theorem extended_conservative (dialect : Graph.Dialect) (text : String) :
    (∀ ts, (ofText ⟨.sparql, .sparql11, dialect⟩ text).run = .ok ts →
      (ofText ⟨.sparql, .extended, dialect⟩ text).run = .ok ts) ∧
    (∀ ts, (ofText ⟨.sparql, .extended, dialect⟩ text).run = .ok ts →
      (∀ t ∈ ts, ∀ w, t.kind = .keyword w → w.availableIn .sparql11 = true) →
      (ofText ⟨.sparql, .sparql11, dialect⟩ text).run = .ok ts) := by
  constructor
  · intro ts hrun
    have hts : ∀ t ∈ ts, Level.Knows .sparql11 t → Level.Knows .extended t :=
      fun _ _ ht => ht.mono (by decide)
    exact run_withLevel (a := .sparql11) (b := .extended) (by decide) (by decide) hts hrun
  · intro ts hrun hknown
    have hts : ∀ t ∈ ts, Level.Knows .extended t → Level.Knows .sparql11 t :=
      fun t ht _ => hknown t ht
    exact run_withLevel (a := .extended) (b := .sparql11) (by decide) (by decide) hts hrun

/-- An update in keywords of SPARQL 1.1, read alike from either level to the other. -/
theorem extended_conservative_update :
    let ts : List Token := [.beginning, ⟨.keyword .clear, "CLEAR", ⟨1, 1, 1, 5⟩⟩,
      ⟨.keyword .allGraphs, "all", ⟨1, 1, 7, 9⟩⟩, ⟨.ending, "", ⟨1, 1, 10, 10⟩⟩]
    (ofText ⟨.sparql, .sparql11, .recommendation⟩ "CLEAR all").run = .ok ts ∧
      (ofText ⟨.sparql, .extended, .recommendation⟩ "CLEAR all").run = .ok ts ∧
      (∀ t ∈ ts, ∀ w, t.kind = .keyword w → w.availableIn .sparql11 = true) := by
  intro ts
  have hlower : (ofText ⟨.sparql, .sparql11, .recommendation⟩ "CLEAR all").run = .ok ts :=
    run_of_toOption (by decide +kernel)
  have hupper := (extended_conservative .recommendation "CLEAR all").1 ts hlower
  have hknown : ∀ t ∈ ts, ∀ w, t.kind = .keyword w → w.availableIn .sparql11 = true := by
    have hclear : Query.Keyword.clear.availableIn .sparql11 = true := by decide
    have hall : Query.Keyword.allGraphs.availableIn .sparql11 = true := by decide
    simp [ts, Token.beginning, hclear, hall]
  exact ⟨(extended_conservative .recommendation "CLEAR all").2 ts hupper hknown, hupper, hknown⟩

end Lexer

end TripleLex

import TripleLex.Proofs.MirroredQueries

/-!
# Machines on texts with a common beginning

All machines but those of tables read comments alike: whatever the token before,
a hash sign begins one (`Machine.comments_dispatch`), unless a prefix or a
datatype is due, or keywords are being declared. The token after all text is read
from both texts only if the second goes on as the first one does.

## Main results

* `Machine.comments_dispatch` — the dispatches by the next character.
* `Machine.read_mirrored` — a token is read from both texts.
-/

namespace TripleLex

open Scan
open Cursor (Abreast AtEdge Lexed Begun)

namespace Machine

/-- The token that begins with a character, behind a token of a kind. -/
def dispatch : Machine → Option Kind → Char → Scan Token
  | lines format => format.dispatch
  | turtle rules => rules.dispatch
  | n3 vocabulary => Graph.Notation3.dispatch vocabulary
  | sparql query => fun previous c =>
    if query.progress.inBody then query.body previous c else query.prologue previous c
  | csv => fun _ => Table.Csv.dispatch
  | tsv => Table.Tsv.dispatch

/-- Whether there are comments: in all languages but those of tables. -/
def hasComments : Machine → Bool
  | csv | tsv => false
  | _ => true

/-- Whether something certain is due behind a token of a kind: a datatype, a
prefix, or a word of a declaration. -/
def expects : Machine → Option Kind → Bool
  | lines _, previous => previous == some .hatHat
  | n3 vocabulary, previous =>
    vocabulary.isReading || previous == some .hatHat || previous == some .prefixDirective
  | _, previous => previous == some .hatHat || previous == some .prefixDirective

variable {m : Machine} {previous : Option Kind}

theorem comments_dispatch (hm : m.hasComments = true) : Comments (m.dispatch previous) := by
  cases m with
  | lines format => exact Graph.LineFormat.comments_dispatch
  | turtle rules => exact Graph.Turtle.comments_dispatch
  | n3 vocabulary => exact Graph.Notation3.comments_dispatch
  | sparql query =>
    show Comments fun c => if query.progress.inBody then query.body previous c
      else query.prologue previous c
    cases query.progress.inBody with
    | true => exact Query.Sparql.comments_body
    | false => exact Query.Sparql.comments_prologue
  | csv => cases hm
  | tsv => cases hm

/-- Where nothing certain is due, a token is read by its first character. -/
theorem read_eq (hm : m.hasComments = true) (he : m.expects previous = false) :
    m.read previous = (do discardBlank; tokenHere (m.dispatch previous)) := by
  cases m with
  | lines format =>
    have hne : previous ≠ some .hatHat := beq_eq_false_iff_ne.1 he
    exact Graph.LineFormat.read.eq_2 format previous hne
  | turtle rules =>
    simp only [expects, Bool.or_eq_false_iff, beq_eq_false_iff_ne] at he
    exact Graph.Turtle.read.eq_3 rules previous he.2 he.1
  | n3 vocabulary =>
    simp only [expects, Bool.or_eq_false_iff, beq_eq_false_iff_ne] at he
    show Graph.Notation3.read vocabulary previous = _
    unfold Graph.Notation3.read
    rw [he.1.1, if_neg Bool.false_ne_true]
    split
    · exact absurd rfl he.2
    · exact absurd rfl he.1.2
    · rfl
  | sparql query =>
    simp only [expects, Bool.or_eq_false_iff, beq_eq_false_iff_ne] at he
    exact Query.Sparql.read.eq_3 query previous he.2 he.1
  | csv => cases hm
  | tsv => cases hm

/-- Nothing certain is due behind a kind that leaves open what comes next, outside
of a declaration. -/
theorem expects_of_open (hv : ∀ vocabulary, m = n3 vocabulary → vocabulary.isReading = false)
    (ho : Kind.Open previous) : m.expects previous = false := by
  have htyped : (previous == some .hatHat) = false := beq_eq_false_iff_ne.2 ho.untyped
  have hannounced : (previous == some .prefixDirective) = false :=
    beq_eq_false_iff_ne.2 ho.unannounced
  cases m with
  | lines format => exact htyped
  | n3 vocabulary =>
    simp only [expects, hv vocabulary rfl, htyped, hannounced, Bool.or_self]
  | _ => simp only [expects, htyped, hannounced, Bool.or_self]

/-- In a declaration a word of its own is due. -/
theorem not_reading_of_expects (he : m.expects previous = false) :
    ∀ vocabulary, m = n3 vocabulary → vocabulary.isReading = false := by
  rintro vocabulary rfl
  simp only [expects, Bool.or_eq_false_iff] at he
  exact he.1.1

/-- Outside of a declaration, gaps are blank. -/
theorem skips_eq_isBlank (hm : m.hasComments = true)
    (hv : ∀ vocabulary, m = n3 vocabulary → vocabulary.isReading = false) :
    m.skips previous = Unicode.isBlank := by
  cases m with
  | n3 vocabulary =>
    funext c
    simp only [skips, hv vocabulary rfl]
    rfl
  | csv => cases hm
  | tsv => cases hm
  | _ => rfl

variable {z z' : List Char} {k k' left : Cursor} {t : Token}

/-- What is due is read from both texts. -/
theorem expected_mirrored (hm : m.hasComments = true) (he : m.expects previous = true)
    (ht : Abreast z z' k k') (e : m.read previous k = .ok t left)
    (hz : z.length ≤ left.source.rest.length) (hend : t.kind = .ending → z'.head? = z.head?) :
    ∃ t' left', m.read previous k' = .ok t' left' ∧ Agree t t' ∧ Abreast z z' left left' := by
  have hprefix : ∀ {k}, prefixName k = .ok t left → Abreast z z' k k' →
      ∃ t' left', prefixName k' = .ok t' left' ∧ Agree t t' ∧ Abreast z z' left left' :=
    fun e ht => behindGap_mirrored isGap_discardBlank finds_prefixName.lexed
      mirrorsInside_prefixName ht e hz hend
  have hdatatype : ∀ {rule k}, datatype rule k = .ok t left → Abreast z z' k k' →
      ∃ t' left', datatype rule k' = .ok t' left' ∧ Agree t t' ∧ Abreast z z' left left' :=
    fun e ht => behindGap_mirrored isGap_discardBlank finds_datatype.lexed
      (mirrorsInside_datatype _) ht e hz hend
  cases m with
  | lines format =>
    obtain rfl : previous = some .hatHat := beq_iff_eq.1 he
    exact behindGap_mirrored isGap_discardBlank Graph.LineFormat.finds_datatype.lexed
      Graph.LineFormat.mirrorsInside_datatype ht e hz hend
  | turtle rules =>
    simp only [expects, Bool.or_eq_true, beq_iff_eq] at he
    rcases he with rfl | rfl
    · exact hdatatype e ht
    · exact hprefix e ht
  | n3 vocabulary =>
    simp only [expects, Bool.or_eq_true, beq_iff_eq] at he
    have hread : read (n3 vocabulary) previous = Graph.Notation3.read vocabulary previous := rfl
    rw [hread] at e ⊢
    unfold Graph.Notation3.read at e ⊢
    cases hv : vocabulary.isReading with
    | true =>
      rw [hv, if_pos rfl, Graph.Notation3.declaration_eq] at e
      rw [if_pos rfl, Graph.Notation3.declaration_eq]
      refine behindGap_mirrored Graph.Notation3.isGap_gap ?_
        Graph.Notation3.mirrorsInside_declared ht e hz hend
      rw [← Graph.Notation3.declaration_eq]
      exact Graph.Notation3.finds_declaration
    | false =>
      rw [hv, if_neg Bool.false_ne_true] at e
      rw [if_neg Bool.false_ne_true]
      rcases he with (he | rfl) | rfl
      · rw [hv] at he
        cases he
      · exact hdatatype e ht
      · exact hprefix e ht
  | sparql query =>
    simp only [expects, Bool.or_eq_true, beq_iff_eq] at he
    rcases he with rfl | rfl
    · exact hdatatype e ht
    · exact hprefix e ht
  | csv => cases hm
  | tsv => cases hm

/-- A token is read from both texts, or it is a comment that ends at the edge. -/
theorem read_mirrored (hm : m.hasComments = true) (hb : k.Begun) (ht : Abreast z z' k k')
    (e : m.read previous k = .ok t left) (hz : z.length ≤ left.source.rest.length)
    (hend : t.kind = .ending → z'.head? = z.head?) :
    (∃ t' left', m.read previous k' = .ok t' left' ∧ Agree t t' ∧ Abreast z z' left left') ∨
      (AtEdge z z' left ∧ m.expects previous = false ∧ ReadsComment k t left) := by
  cases he : m.expects previous with
  | true => exact Or.inl (expected_mirrored hm he ht e hz hend)
  | false =>
    have hskips : m.skips previous = Unicode.isBlank :=
      skips_eq_isBlank hm (not_reading_of_expects he)
    have hfind : Finds Lexed (m.skips previous) k (m.read previous) := finds_read hb
    rw [hskips, read_eq hm he] at hfind
    rw [read_eq hm he] at e ⊢
    rcases (comments_dispatch hm).mirrored hfind ht e hz hend with h | ⟨hedge, hc⟩
    · exact Or.inl h
    · exact Or.inr ⟨hedge, rfl, hc⟩

end Machine

end TripleLex

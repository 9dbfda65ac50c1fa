import TripleLex.Proofs.Quotations

/-!
# Documents of statements

A statement has a subject, a predicate, an object and maybe a graph. It is written
on a line of its own, its terms one space apart and a dot behind them. What is
written for a list of statements is read back by N-Quads as the tokens of these
statements, with the same texts, and by N-Triples as well if no statement has a
graph (`statements_come_back`).

What a reference or a blank node is depends on the token before it, since in
N-Triples none may follow a literal; and a language tag or the sign of a datatype
must follow one. So each piece says behind which tokens it is read. The text is laid
from its end on, each piece with the space before it.

## Main results

* `Machine.gives_node`, `Machine.gives_tag` and their like — the pieces of a line.
* `Machine.runs_statement` — a line, before what is read behind it.
* `Lexer.statements_come_back` — a document.
-/

namespace TripleLex

/-! ## Writing -/

namespace Graph

/-- A reference or a blank node; the label begins with its underscore. -/
inductive Node where
  | reference (uri : String)
  | blankNode (label : String) (h : Name.isBlankNode label.toList = true)

/-- What may stand behind a literal. -/
inductive Annotation where
  | none
  | language (tag : String) (h : Name.isLanguageTag tag.toList = true)
  | datatype (uri : String)

/-- The object of a statement. -/
inductive Object where
  | node (n : Node)
  | literal (text : String) (suffix : Annotation)

/-- A statement, in a graph or in none. -/
structure Statement where
  subject : Node
  predicate : String
  object : Object
  graph : Option Node

/-- How a node is written. -/
def Node.written (capital : Bool) : Node → List Char
  | reference uri => writtenReference capital uri.toList
  | blankNode label _ => label.toList

/-- The token that it makes. -/
def Node.content : Node → Kind × String
  | reference uri => (.uri, uri)
  | blankNode label _ => (.blankNode, label)

theorem Node.content_ne (n : Node) : n.content.1 ≠ .hatHat ∧ n.content.1 ≠ .ending := by
  cases n <;> exact ⟨nofun, nofun⟩

theorem Node.not_endsLiteral (n : Node) : LineFormat.endsLiteral (some n.content.1) = false := by
  cases n <;> rfl

/-- How an annotation is written. -/
def Annotation.written (capital : Bool) : Annotation → List Char
  | none => []
  | language tag _ => '@' :: tag.toList
  | datatype uri => '^' :: '^' :: writtenReference capital uri.toList

/-- The tokens that it makes. -/
def Annotation.contents : Annotation → List (Kind × String)
  | none => []
  | language tag _ => [(.languageTag, tag)]
  | datatype uri => [(.hatHat, "^^"), (.datatype, "<" ++ uri ++ ">")]

/-- How an object is written. -/
def Object.written (capital : Bool) : Object → List Char
  | node n => n.written capital
  | literal text suffix =>
    writtenLiteral capital '"' text.toList ++ suffix.written capital

/-- The tokens that it makes. -/
def Object.contents : Object → List (Kind × String)
  | node n => [n.content]
  | literal text suffix => (.literal, text) :: suffix.contents

namespace Statement

/-- The terms of a statement, as they are written. -/
def terms (capital : Bool) (s : Statement) : List (List Char) :=
  [s.subject.written capital, writtenReference capital s.predicate.toList,
    s.object.written capital] ++ s.graph.toList.map (Node.written capital)

/-- How a statement is written: its terms, a dot, and the end of its line. -/
def written (capital : Bool) (s : Statement) : List Char :=
  [' '].intercalate (s.terms capital) ++ [' ', '.', '\n']

/-- The tokens that it makes. -/
def contents (s : Statement) : List (Kind × String) :=
  s.subject.content :: (.uri, s.predicate) ::
    (s.object.contents ++ (s.graph.toList.map Node.content ++ [(.dot, ".")]))

/-- Each term has a space behind it. -/
theorem written_eq (capital : Bool) (s : Statement) : s.written capital =
    s.subject.written capital ++ ' ' :: (writtenReference capital s.predicate.toList ++
      ' ' :: (s.object.written capital ++
        ' ' :: (s.graph.toList.flatMap (fun g => g.written capital ++ [' ']) ++ ['.', '\n']))) := by
  unfold written terms
  cases s.graph <;> simp [List.intercalate, List.intersperse]

end Statement

end Graph

/-! ## Words -/

namespace Name

theorem isTagChar_of_isAlphanum {c : Char} (h : c.isAlphanum = true) : isTagChar c = true := by
  have hascii : c.toNat < 0x80 := by
    have hranges : (decide ('A'.val ≤ c.val ∧ c.val ≤ 'Z'.val) ||
      ('a'.val ≤ c.val && c.val ≤ 'z'.val) || ('0'.val ≤ c.val && c.val ≤ '9'.val)) = true := h
    simp only [Bool.or_eq_true, Bool.and_eq_true, decide_eq_true_eq,
      UInt32.le_iff_toNat_le] at hranges
    rcases hranges with (⟨-, h⟩ | ⟨-, h⟩) | ⟨-, h⟩ <;> exact Nat.lt_of_le_of_lt h (by decide)
  rw [isTagChar_ascii hascii, h, Bool.true_or]

theorem isTagChar_of_isSubtags {fresh : Bool} {word : List Char}
    (h : isSubtags fresh word = true) : ∀ c ∈ word, isTagChar c = true := by
  induction word generalizing fresh with
  | nil => exact nofun
  | cons c word ih =>
    unfold isSubtags at h
    split at h
    · rename_i hhyphen
      rw [Bool.and_eq_true] at h
      refine List.forall_mem_cons.2 ⟨?_, ih h.2⟩
      rw [isTagChar, hhyphen, Bool.or_true]
    · rw [Bool.and_eq_true] at h
      exact List.forall_mem_cons.2 ⟨isTagChar_of_isAlphanum h.1, ih h.2⟩

theorem isTagChar_of_isPrimaryTag {fresh : Bool} {word : List Char}
    (h : isPrimaryTag fresh word = true) : ∀ c ∈ word, isTagChar c = true := by
  induction word generalizing fresh with
  | nil => exact nofun
  | cons c word ih =>
    unfold isPrimaryTag at h
    split at h
    · rename_i hhyphen
      rw [Bool.and_eq_true] at h
      refine List.forall_mem_cons.2 ⟨?_, isTagChar_of_isSubtags h.2⟩
      rw [isTagChar, hhyphen, Bool.or_true]
    · rw [Bool.and_eq_true] at h
      refine List.forall_mem_cons.2 ⟨isTagChar_of_isAlphanum ?_, ih h.2⟩
      rw [Char.isAlphanum, h.1, Bool.true_or]

/-- A run of a label does not end in a dot. -/
theorem getLast?_ne_of_isRun {afterDot : Bool} {word : List Char}
    (h : isRun afterDot word = true) (hne : word ≠ []) : word.getLast? ≠ some '.' := by
  induction word generalizing afterDot with
  | nil => exact absurd rfl hne
  | cons c word ih =>
    unfold isRun at h
    rw [Bool.and_eq_true] at h
    cases word with
    | nil =>
      rintro ⟨⟩
      exact absurd h.2 (by decide)
    | cons d word =>
      rw [List.getLast?_cons_cons]
      exact ih h.2 (List.cons_ne_nil _ _)

/-- A plain local name is a run. -/
theorem isRun_of_isPlainLocal {word : List Char} (h : isPlainLocal word = true) :
    word ≠ [] ∧ isRun false word = true := by
  cases word with
  | nil => cases h
  | cons c word =>
    unfold isPlainLocal at h
    rw [Bool.and_eq_true, Bool.or_eq_true] at h
    have hinner : isInner c = true := by
      rcases h.1 with hc | hc
      · exact isInner_of_isLead hc
      · rw [isInner, hc, Bool.or_true, Bool.true_or]
    have hdot : (c == '.') = false := by
      rw [beq_eq_false_iff_ne]
      rintro rfl
      exact absurd h.1 (by decide)
    refine ⟨List.cons_ne_nil _ _, ?_⟩
    rw [isRun, hinner, hdot, h.2]
    rfl

/-- The label of a blank node is a run behind its signs, and does not end in a dot. -/
theorem exists_run_of_isBlankNode {label : List Char} (h : isBlankNode label = true) :
    ∃ word, label = '_' :: ':' :: word ∧ isRun false word = true ∧ label.getLast? ≠ some '.' := by
  unfold isBlankNode at h
  split at h
  · rename_i word
    obtain ⟨hne, hrun⟩ := isRun_of_isPlainLocal h
    refine ⟨word, rfl, hrun, ?_⟩
    obtain ⟨c, cs, rfl⟩ := List.exists_cons_of_ne_nil hne
    rw [List.getLast?_cons_cons, List.getLast?_cons_cons]
    exact getLast?_ne_of_isRun hrun hne
  · cases h

end Name

/-! ## Pieces of a line -/

namespace Machine

open Scan TripleLex.Graph

section Pieces

variable {format : LineFormat} {kind : Kind} {gap cs rest : List Char} {said : Kind × String}
  (capital : Bool)

/-- Behind a gap, a token is read by its first character. -/
theorem gives_dispatched {c : Char} (hkind : kind ≠ .hatHat)
    (hgap : ∀ c ∈ gap, Unicode.isBlank c = true) (hc : Unicode.isBlank c = false)
    (h : ∀ k : Cursor, k.Begun → k.Stands kind (c :: cs ++ rest) →
      Brings (format.dispatch (some kind) c) k rest said) :
    (lines format).Gives kind (gap ++ c :: cs) rest said :=
  (dispatches_lines format hkind hgap).gives hc h

theorem noGap : ∀ c ∈ ([] : List Char), Unicode.isBlank c = true := nofun

theorem oneSpace : ∀ c ∈ [' '], Unicode.isBlank c = true :=
  List.forall_mem_singleton.2 (by decide)

theorem gives_next {c : Char} (hkind : kind ≠ .hatHat) (hc : Unicode.isBlank c = false)
    (h : ∀ k : Cursor, k.Begun → k.Stands kind (c :: cs ++ rest) →
      Brings (format.dispatch (some kind) c) k rest said) :
    (lines format).Gives kind (c :: cs) rest said :=
  gives_dispatched hkind noGap hc h

theorem gives_dot (hkind : kind ≠ .hatHat) :
    (lines format).Gives kind [' ', '.'] rest (.dot, ".") := by
  refine gives_dispatched hkind oneSpace (by decide) fun k hb hk => ?_
  exact brings_single .dot hb hk.clear (by decide) hk.ahead

/-- A reference may stand where it follows no literal, and anywhere in N-Quads. -/
theorem gives_reference (uri : String) (hkind : kind ≠ .hatHat)
    (hgap : ∀ c ∈ gap, Unicode.isBlank c = true)
    (hgraph : LineFormat.endsLiteral (some kind) = false ∨ format = .quads) :
    (lines format).Gives kind (gap ++ writtenReference capital uri.toList) rest (.uri, uri) := by
  refine gives_dispatched hkind hgap (by decide) fun k hb hk => ?_
  have hcheck : Succeeds format.checkGraph k [] [] () :=
    succeeds_checkGraph (by rwa [hk.previous])
  refine hcheck.brings hk.clear fun mid r hmid => ?_
  have hahead : mid.ahead =
      '<' :: (uri.toList.flatMap (referencePiece capital) ++ '>' :: rest) := by
    rw [r.ahead_eq, hk.ahead]
    simp
  have hbrings := brings_reference (spelled_reference capital uri.toList) (r.begun hb) hmid hahead
  rwa [String.ofList_toList] at hbrings

/-- A run is taken up to the space behind it. -/
theorem takeWhile_word {p : Char → Bool} {word : List Char} (h : ∀ c ∈ word, p c = true)
    (hspace : p ' ' = false) : (word ++ ' ' :: rest).takeWhile p = word := by
  rw [List.takeWhile_append_of_pos h, List.takeWhile_cons_of_neg (by simpa using hspace),
    List.append_nil]

theorem succeeds_keepDot {k : Cursor} (h : k.endsWith '.' = false) :
    Succeeds giveBackDot k [] [] () := by
  refine ⟨k, ?_, Cursor.Reads.refl k, id⟩
  unfold giveBackDot
  rw [get_bind, if_neg (by rw [h]; decide)]
  rfl

/-- So may a blank node, before a space. -/
theorem gives_blankNode {label : String} (h : Name.isBlankNode label.toList = true)
    (hkind : kind ≠ .hatHat) (hgap : ∀ c ∈ gap, Unicode.isBlank c = true)
    (hgraph : LineFormat.endsLiteral (some kind) = false ∨ format = .quads) :
    (lines format).Gives kind (gap ++ label.toList) (' ' :: rest) (.blankNode, label) := by
  obtain ⟨word, hlabel, hrun, hlast⟩ := Name.exists_run_of_isBlankNode h
  rw [hlabel]
  refine gives_dispatched hkind hgap (by decide) fun k hb hk => ?_
  have hcheck : Succeeds format.checkGraph k [] [] () :=
    succeeds_checkGraph (by rwa [hk.previous])
  refine hcheck.brings hk.clear fun k₁ r₁ c₁ => ?_
  have hk₁ : k₁.ahead = '_' :: ':' :: (word ++ ' ' :: rest) := r₁.ahead_eq.trans hk.ahead
  have hunderscore : Succeeds consume k₁ ['_'] ['_'] '_' :=
    succeeds_consume (by rw [hk₁]; rfl) (by decide)
  refine hunderscore.brings c₁ fun k₂ r₂ c₂ => ?_
  have hk₂ : k₂.ahead = ':' :: (word ++ ' ' :: rest) := r₂.rest_eq hk₁
  refine (succeeds_nextIs ':').brings c₂ fun k₃ r₃ c₃ => ?_
  have hk₃ := r₃.ahead_eq.trans hk₂
  rw [hk₂, if_neg (by simp)]
  have hcolon : Succeeds consume k₃ [':'] [':'] ':' :=
    succeeds_consume (by rw [hk₃]; rfl) (by decide)
  refine hcolon.brings c₃ fun k₄ r₄ c₄ => ?_
  have hk₄ : k₄.ahead = word ++ ' ' :: rest := r₄.rest_eq hk₃
  have hword := succeeds_consumeWhile (k := k₄) fun c
    (hc : (Name.isInner c || c == '.') = true) =>
      not_isLineEnd_of_isScanned (Name.isScanned_of_plain hc)
  rw [hk₄, takeWhile_word (Name.plain_of_isRun hrun) (by decide)] at hword
  refine hword.brings c₄ fun k₅ r₅ c₅ => ?_
  have r : k.Reads ('_' :: ':' :: word) ('_' :: ':' :: word) k₅ :=
    (((r₁.trans r₂).trans r₃).trans r₄).trans r₅
  have hdot : k₅.endsWith '.' = false := by
    rw [Cursor.endsWith, r.written, hb.written, List.append_nil, List.head?_reverse, ← hlabel,
      beq_eq_false_iff_ne]
    exact hlast
  refine (succeeds_keepDot hdot).brings c₅ fun k₆ r₆ c₆ => ?_
  have hread := r.trans r₆
  rw [List.append_nil, ← hlabel] at hread
  have hbrings : Brings (emit .blankNode) k₆ (' ' :: rest) (.blankNode, label) := by
    have hemit := brings_emit .blankNode hb hread c₆ (by rw [hlabel]; exact hk.ahead)
    rwa [String.ofList_toList] at hemit
  show Brings (if Name.isBlankNode k₆.value = true then emit .blankNode else _) k₆ _ _
  rw [hread.value hb, if_pos h]
  exact hbrings

theorem gives_node (n : Node) (hkind : kind ≠ .hatHat)
    (hgap : ∀ c ∈ gap, Unicode.isBlank c = true)
    (hgraph : LineFormat.endsLiteral (some kind) = false ∨ format = .quads) :
    (lines format).Gives kind (gap ++ n.written capital) (' ' :: rest) n.content := by
  cases n with
  | reference uri => exact gives_reference capital uri hkind hgap hgraph
  | blankNode label h => exact gives_blankNode h hkind hgap hgraph

theorem gives_literal (text : String) (hkind : kind ≠ .hatHat)
    (hgap : ∀ c ∈ gap, Unicode.isBlank c = true) (hrest : rest.head? ≠ some '"') :
    (lines format).Gives kind (gap ++ writtenLiteral capital '"' text.toList) rest
      (.literal, text) := by
  refine gives_dispatched hkind hgap (by decide) fun k hb hk => ?_
  have hahead : k.ahead =
      '"' :: (text.toList.flatMap (literalPiece capital '"') ++ '"' :: rest) := by
    rw [hk.ahead]
    simp
  have hbrings := brings_lineLiteral (spelled_literal capital (.inl rfl) text.toList) hrest hb
    hk.clear hahead
  rwa [String.ofList_toList] at hbrings

/-- A language tag, behind a literal and before a space. -/
theorem gives_tag {tag : String} (h : Name.isLanguageTag tag.toList = true) :
    (lines format).Gives .literal ('@' :: tag.toList) (' ' :: rest) (.languageTag, tag) := by
  have hne : tag.toList ≠ [] := by
    intro hnil
    rw [hnil] at h
    cases h
  refine gives_next nofun (by decide) fun k hb hk => ?_
  show Brings languageTag k (' ' :: rest) (.languageTag, tag)
  have hsign : Succeeds skip k ['@'] [] '@' := succeeds_skip (by rw [hk.ahead]; rfl) (by decide)
  refine hsign.brings hk.clear fun k₁ r₁ c₁ => ?_
  have hk₁ : k₁.ahead = tag.toList ++ ' ' :: rest := r₁.rest_eq hk.ahead
  have htag := succeeds_consumeWhile (k := k₁) fun c (hc : Name.isTagChar c = true) =>
    not_isLineEnd_of_isTagChar hc
  have hspace : Name.isTagChar ' ' = false := Name.isTagChar_ascii (by decide)
  rw [hk₁, takeWhile_word (Name.isTagChar_of_isPrimaryTag h) hspace] at htag
  refine htag.brings c₁ fun k₂ r₂ c₂ => ?_
  have hvalue := (r₁.trans r₂).value hb
  have hempty : k₂.isEmpty = false := by
    rw [Cursor.isEmpty, (r₁.trans r₂).written, hb.written, List.append_nil]
    simpa using hne
  have hbrings : Brings (emit .languageTag) k₂ (' ' :: rest) (.languageTag, tag) := by
    have hemit := brings_emit .languageTag hb (r₁.trans r₂) c₂ hk.ahead
    rwa [List.nil_append, String.ofList_toList] at hemit
  show Brings (if k₂.isEmpty = true then _ else
    if Name.isLanguageTag k₂.value = true then emit .languageTag else _) k₂ _ _
  rw [hempty, if_neg (by decide), hvalue, List.nil_append, if_pos h]
  exact hbrings

/-- The sign of a datatype, behind a literal. -/
theorem gives_hatHat :
    (lines format).Gives .literal ['^', '^'] rest (.hatHat, "^^") := by
  exact gives_next nofun (by decide) fun k hb hk => brings_hatHat hb hk.clear hk.ahead

/-- A datatype, behind its sign. -/
theorem gives_datatype (uri : String) :
    (lines format).Gives .hatHat (writtenReference capital uri.toList) rest
      (.datatype, "<" ++ uri ++ ">") := by
  intro k _ hk
  obtain ⟨k₁, e₁, hb, hk₁⟩ := passesOver_blank noGap k .hatHat _ hk
    (by rintro c ⟨⟩; decide)
  have hahead : k₁.ahead =
      '<' :: (uri.toList.flatMap (referencePiece capital) ++ '>' :: rest) := by
    rw [hk₁.ahead]
    simp
  have hdatatype : Brings referenceDatatype k₁ rest (.datatype, "<" ++ uri ++ ">") := by
    refine (succeeds_bracket hahead).brings hk₁.clear fun k₂ r₂ c₂ => ?_
    have hbody := succeeds_referenceBody (spelled_reference capital uri.toList)
      (r₂.rest_eq hahead)
    refine hbody.brings c₂ fun k₃ r₃ c₃ => ?_
    have htext : k₃.text = uri := by
      rw [Cursor.text, (r₂.trans r₃).value hb, List.nil_append, String.ofList_toList]
    show Brings (emitAs .datatype ("<" ++ k₃.text ++ ">")) k₃ _ _
    rw [htext]
    exact brings_emitAs .datatype _ (r₂.trans r₃) c₃ (by simpa using hahead)
  obtain ⟨t, left, e, ht, hs⟩ := hdatatype
  refine ⟨t, left, ?_, ht, hs⟩
  show LineFormat.datatype k = .ok t left
  unfold LineFormat.datatype
  rw [bind_eq e₁, look_bind_whole hk₁.clear.whole, hahead]
  exact e

end Pieces

/-! ## Lines -/

section Lines

variable {format : LineFormat} {kind : Kind} {gap rest : List Char} {more : List (Kind × String)}
  (capital : Bool)

/-- Nothing is remembered from token to token. -/
theorem Gives.laid {cs : List Char} {said : Kind × String}
    (h : (lines format).Gives kind cs rest said) (hkind : kind ≠ .ending)
    (hne : said.1 ≠ .ending) (hr : (lines format).Runs said.1 rest more) :
    (lines format).Runs kind (cs ++ rest) (said :: more) :=
  h.cons hkind hne fun _ _ => hr

/-- Behind any token that a line may hold, but the sign of a datatype. -/
def RunsBehindTerms (format : LineFormat) (rest : List Char) (more : List (Kind × String)) : Prop :=
  ∀ kind, kind ≠ .hatHat → kind ≠ .ending → (lines format).Runs kind rest more

theorem runs_dot (hr : (lines format).Runs .dot ('\n' :: rest) more) :
    RunsBehindTerms format (' ' :: '.' :: '\n' :: rest) ((.dot, ".") :: more) :=
  fun _ hhat hend => (gives_dot hhat).laid hend nofun hr

theorem runs_graph {graph : Option Node} (hg : graph = none ∨ format = .quads)
    (hr : RunsBehindTerms format (' ' :: rest) more) :
    RunsBehindTerms format
      (' ' :: (graph.toList.flatMap (fun g => g.written capital ++ [' ']) ++ rest))
      (graph.toList.map Node.content ++ more) := by
  cases graph with
  | none => exact hr
  | some n =>
    have hquads : format = .quads := by simpa using hg
    intro kind hhat hend
    have hgives : (lines format).Gives kind ([' '] ++ n.written capital) (' ' :: rest) n.content :=
      gives_node capital n hhat oneSpace (.inr hquads)
    have hruns := hgives.laid hend n.content_ne.2 (hr _ n.content_ne.1 n.content_ne.2)
    simpa using hruns

/-- An annotation, behind a literal. -/
theorem runs_suffix (suffix : Annotation)
    (hr : RunsBehindTerms format (' ' :: rest) more) :
    (lines format).Runs .literal (suffix.written capital ++ ' ' :: rest)
      (suffix.contents ++ more) := by
  cases suffix with
  | none => exact hr .literal nofun nofun
  | language tag h => exact (gives_tag h).laid nofun nofun (hr .languageTag nofun nofun)
  | datatype uri =>
    have hdatatype := (gives_datatype capital uri).laid nofun nofun (hr .datatype nofun nofun)
    exact gives_hatHat.laid nofun nofun hdatatype

/-- No annotation begins with a quotation mark. -/
theorem head?_suffix (suffix : Annotation) :
    (suffix.written capital ++ ' ' :: rest).head? ≠ some '"' := by
  cases suffix <;> exact nofun

/-- An object, behind the predicate. -/
theorem runs_object (object : Object) (hr : RunsBehindTerms format (' ' :: rest) more) :
    (lines format).Runs .uri (' ' :: (object.written capital ++ ' ' :: rest))
      (object.contents ++ more) := by
  cases object with
  | node n =>
    have hgives : (lines format).Gives .uri ([' '] ++ n.written capital) (' ' :: rest) n.content :=
      gives_node capital n nofun oneSpace (.inl rfl)
    exact hgives.laid nofun n.content_ne.2 (hr _ n.content_ne.1 n.content_ne.2)
  | literal text suffix =>
    have hgives : (lines format).Gives .uri ([' '] ++ writtenLiteral capital '"' text.toList)
        (suffix.written capital ++ ' ' :: rest) (.literal, text) :=
      gives_literal capital text nofun oneSpace (head?_suffix capital suffix)
    have hruns := hgives.laid nofun nofun (runs_suffix capital suffix hr)
    simpa [Object.written, Object.contents] using hruns

/-- A predicate, behind the subject. -/
theorem runs_predicate (subject : Node) (predicate : String)
    (hr : (lines format).Runs .uri rest more) :
    (lines format).Runs subject.content.1
      (' ' :: (writtenReference capital predicate.toList ++ rest)) ((.uri, predicate) :: more) := by
  have hgives : (lines format).Gives subject.content.1
      ([' '] ++ writtenReference capital predicate.toList) rest (.uri, predicate) :=
    gives_reference capital predicate subject.content_ne.1 oneSpace (.inl subject.not_endsLiteral)
  exact hgives.laid subject.content_ne.2 nofun hr

/-- A line, from the gap before it on. -/
theorem runs_statement (s : Statement) (hs : s.graph = none ∨ format = .quads)
    (hkind : kind = .beginning ∨ kind = .dot) (hgap : ∀ c ∈ gap, Unicode.isBlank c = true)
    (hr : (lines format).Runs .dot ('\n' :: rest) more) :
    (lines format).Runs kind (gap ++ (s.written capital ++ rest)) (s.contents ++ more) := by
  obtain ⟨hhat, hend, hliteral⟩ :
      kind ≠ .hatHat ∧ kind ≠ .ending ∧ LineFormat.endsLiteral (some kind) = false := by
    rcases hkind with rfl | rfl <;> exact ⟨nofun, nofun, rfl⟩
  have hgraph := runs_graph capital hs (runs_dot hr)
  have hobject := runs_object capital s.object hgraph
  have hpredicate := runs_predicate capital s.subject s.predicate hobject
  have hsubject := (gives_node capital s.subject hhat hgap (.inl hliteral)).laid hend
    s.subject.content_ne.2 hpredicate
  rw [Statement.written_eq]
  simpa [Statement.contents] using hsubject

/-- The lines of a document, from the gap before them on. -/
theorem runs_statements (statements : List Statement)
    (hs : ∀ s ∈ statements, s.graph = none ∨ format = .quads)
    (hkind : kind = .beginning ∨ kind = .dot) (hgap : ∀ c ∈ gap, Unicode.isBlank c = true) :
    (lines format).Runs kind (gap ++ statements.flatMap (Statement.written capital))
      (statements.flatMap Statement.contents ++ [(.ending, "")]) := by
  induction statements generalizing kind gap with
  | nil =>
    have hends : kind ≠ .hatHat ∧ kind ≠ .ending := by
      rcases hkind with rfl | rfl <;> exact ⟨nofun, nofun⟩
    rw [List.flatMap_nil, List.append_nil]
    exact (dispatches_lines format hends.1 hgap).runs hends.2
  | cons s statements ih =>
    obtain ⟨hfirst, hmore⟩ := List.forall_mem_cons.1 hs
    have hline : ∀ c ∈ ['\n'], Unicode.isBlank c = true :=
      List.forall_mem_singleton.2 (by decide)
    rw [List.flatMap_cons, List.flatMap_cons, List.append_assoc]
    exact runs_statement capital s hfirst hkind hgap (ih hmore (.inr rfl) hline)

end Lines

end Machine

/-! ## Documents -/

namespace Lexer

open TripleLex.Graph

/-- The statements that were written for a document come back. -/
def ReadsBack (settings : Settings) (capital : Bool) (statements : List Statement) : Prop :=
  ∃ ts, (ofText settings
      (String.ofList (statements.flatMap (Statement.written capital)))).run = .ok ts ∧
    ts.map Token.content =
      (.beginning, "") :: (statements.flatMap Statement.contents ++ [(.ending, "")])

/-- Every document comes back in N-Quads, and in N-Triples every one without graphs. -/
theorem statements_come_back (level : Query.Level) (dialect : Dialect) (capital : Bool)
    (statements : List Statement) :
    ReadsBack ⟨.nQuads, level, dialect⟩ capital statements ∧
    ((∀ s ∈ statements, s.graph = none) →
      ReadsBack ⟨.nTriples, level, dialect⟩ capital statements) := by
  constructor
  · exact Machine.Runs.run_ofText <|
      Machine.runs_statements capital statements (fun _ _ => .inr rfl) (.inl rfl) Machine.noGap
  · intro hs
    exact Machine.Runs.run_ofText <|
      Machine.runs_statements capital statements (fun s hm => .inl (hs s hm)) (.inl rfl)
        Machine.noGap

/-- Two lines, with a typed and a tagged literal and a label with a dot in it. -/
theorem statements_come_back_lines : ∃ ts,
    (ofText ⟨.nTriples, .sparql11, .recommendation⟩
      "_:a.b <p> \"\\\"\"^^<d\\u003E> .\n<s> <p> \"\"@en-GB .\n").run = .ok ts ∧
    ts.map Token.content = [(.beginning, ""), (.blankNode, "_:a.b"), (.uri, "p"),
      (.literal, "\""), (.hatHat, "^^"), (.datatype, "<d>>"), (.dot, "."), (.uri, "s"),
      (.uri, "p"), (.literal, ""), (.languageTag, "en-GB"), (.dot, "."), (.ending, "")] := by
  let statements : List Statement :=
    [⟨.blankNode "_:a.b" (by decide), "p", .literal "\"" (.datatype "d>"), none⟩,
      ⟨.reference "s", "p", .literal "" (.language "en-GB" (by decide)), none⟩]
  have htext : String.ofList (statements.flatMap (Statement.written true)) =
      "_:a.b <p> \"\\\"\"^^<d\\u003E> .\n<s> <p> \"\"@en-GB .\n" := by decide +kernel
  obtain ⟨ts, hts, hsaid⟩ :=
    (statements_come_back .sparql11 .recommendation true statements).2 (by simp [statements])
  exact ⟨ts, by rw [← htext]; exact hts, hsaid⟩

end Lexer

end TripleLex

import TripleLex.Token

/-!
# Scopes of queries

A query may hold sub-queries between braces. Each `SELECT` after the first query
or update keyword opens a scope at the present depth of braces, and a closing
brace closes the scopes that were opened deeper than the depth it leaves; the
scope of the whole text never closes. Ordering is a matter of one scope: each
has at most one `ORDER BY`, and `ASC` and `DESC` come after it.

What a reader of queries has to remember follows from the tokens that it has
read, by `Progress.after`.
-/

namespace TripleLex.Query

/-- A sub-query. -/
structure Scope where
  /-- The depth of braces at which it was opened. -/
  depth : Nat
  /-- Whether it has its `ORDER BY`. -/
  isOrdered : Bool
  deriving DecidableEq, Repr

/-- The braces and sub-queries around a place in a query. -/
structure Nesting where
  /-- How many braces are open. -/
  depth : Nat
  /-- The sub-queries, the innermost first. -/
  inner : List Scope
  /-- Whether the whole text has its `ORDER BY`. -/
  isOrdered : Bool
  deriving DecidableEq, Repr

namespace Nesting

/-- Outside of all braces. -/
def outside : Nesting := ⟨0, [], false⟩

/-- Behind an opening brace. -/
def openBrace (n : Nesting) : Nesting := { n with depth := n.depth + 1 }

/-- Behind a closing brace; one that closes nothing leaves the depth at zero. -/
def closeBrace (n : Nesting) : Nesting :=
  { n with
    depth := n.depth - 1
    inner := n.inner.dropWhile fun s => decide (n.depth - 1 < s.depth) }

/-- In a new sub-query. -/
def openScope (n : Nesting) : Nesting := { n with inner := ⟨n.depth, false⟩ :: n.inner }

/-- Whether the innermost scope has its `ORDER BY`. -/
def hasOrder (n : Nesting) : Bool :=
  match n.inner with
  | s :: _ => s.isOrdered
  | [] => n.isOrdered

/-- The innermost scope has its `ORDER BY` now. -/
def setOrder (n : Nesting) : Nesting :=
  match n.inner with
  | s :: rest => { n with inner := { s with isOrdered := true } :: rest }
  | [] => { n with isOrdered := true }

end Nesting

/-- What a reader of queries remembers. -/
structure Progress where
  /-- Whether a query or update keyword has ended the prologue. -/
  inBody : Bool
  /-- Whether a base reference was declared. -/
  hasBase : Bool
  nesting : Nesting
  deriving DecidableEq, Repr

namespace Progress

/-- Nothing has been read. -/
def initial : Progress := ⟨false, false, .outside⟩

/-- What is remembered after a keyword. The first one ends the prologue and
opens no scope. -/
def afterKeyword (p : Progress) (k : Keyword) : Progress :=
  if !p.inBody then { p with inBody := true }
  else match k with
    | .select => { p with nesting := p.nesting.openScope }
    | .orderBy => { p with nesting := p.nesting.setOrder }
    | _ => p

/-- What is remembered after a token. -/
def after (p : Progress) (t : Token) : Progress :=
  match t.kind with
  | .keyword k => p.afterKeyword k
  | .baseDirective => { p with hasBase := true }
  | .leftCurly => { p with nesting := p.nesting.openBrace }
  | .rightCurly => { p with nesting := p.nesting.closeBrace }
  | _ => p

end Progress

end TripleLex.Query

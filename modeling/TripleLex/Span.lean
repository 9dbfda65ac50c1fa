/-!
# Positions and spans

A position is a line and a column, both counted from one. A span runs from the
first to the last character of a token. Line and column zero belong to the token
that stands before all text.

Positions are ordered by line, then by column; `Span.union` takes the lesser
start and the greater end in that order.
-/

namespace TripleLex

/-- A place in a text. -/
structure Position where
  line : Nat
  column : Nat
  deriving DecidableEq, Repr, Inhabited

namespace Position

/-- Where reading begins. -/
def origin : Position := ⟨1, 1⟩

/-- Whether a place comes no later than another one. -/
def atMost (p q : Position) : Bool :=
  decide (p.line < q.line) || (decide (p.line = q.line) && decide (p.column ≤ q.column))

/-- The earlier of two places. -/
def earlier (p q : Position) : Position := if p.atMost q then p else q

/-- The later of two places. -/
def later (p q : Position) : Position := if p.atMost q then q else p

/-- The place after a character has been read there: a line end starts a line,
any other character moves one column on. -/
def after (p : Position) (c : Char) : Position :=
  if c == '\n' || c == '\r' then ⟨p.line + 1, 1⟩ else ⟨p.line, p.column + 1⟩

theorem atMost_refl (p : Position) : p.atMost p = true := by simp [atMost]

theorem atMost_trans {p q r : Position} (h : p.atMost q = true) (k : q.atMost r = true) :
    p.atMost r = true := by
  simp only [atMost, Bool.or_eq_true, Bool.and_eq_true, decide_eq_true_eq] at *
  omega

end Position

/-- The part of a text from the first to the last character of a token. -/
structure Span where
  startLine : Nat
  endLine : Nat
  startColumn : Nat
  endColumn : Nat
  deriving DecidableEq, Repr, Inhabited

namespace Span

/-- The span from one place to another. -/
def between (first last : Position) : Span :=
  ⟨first.line, last.line, first.column, last.column⟩

/-- The span of a single place. -/
def point (p : Position) : Span := between p p

/-- Where the span starts. -/
def first (s : Span) : Position := ⟨s.startLine, s.startColumn⟩

/-- Where the span ends. -/
def last (s : Span) : Position := ⟨s.endLine, s.endColumn⟩

@[simp] theorem first_between (p q : Position) : (between p q).first = p := rfl

@[simp] theorem last_between (p q : Position) : (between p q).last = q := rfl

/-- Whether the span starts and ends on one line. -/
def isSingleLine (s : Span) : Bool := s.startLine == s.endLine

/-- The least span that covers two spans. -/
def union (s t : Span) : Span :=
  between (s.first.earlier t.first) (s.last.later t.last)

/-- The span as it opens a message: one place, columns of one line, or several
lines. -/
def display (s : Span) : String :=
  if !s.isSingleLine then
    s!"[Lines {s.startLine}-{s.endLine} Columns {s.startColumn}-{s.endColumn}]"
  else if s.startColumn == s.endColumn then
    s!"[Line {s.startLine} Column {s.startColumn}]"
  else
    s!"[Line {s.startLine} Columns {s.startColumn}-{s.endColumn}]"

end Span

end TripleLex

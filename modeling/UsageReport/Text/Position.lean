/-
# Lines and columns

Clients of the library do not speak of byte offsets but of lines and columns, both counted
from zero; a column counts UTF-8 bytes within its line.  Positions are ordered by line and
then by column.  A `Span` is what a client is told about a range.
-/

namespace UsageReport

/-- A place in a text: a line and a byte column in it, both from zero. -/
structure Position where
  line : UInt32
  column : UInt32
deriving DecidableEq

/-- A stretch of a text between two positions. -/
structure Span where
  start : Position
  stop : Position
deriving DecidableEq

namespace Position

/-- By line, and within a line by column. -/
def order (a b : Position) : Ordering :=
  (compare a.line b.line).then (compare a.column b.column)

instance : Ord Position := ⟨order⟩

/-- The position `a` is not after `b`. -/
instance : LE Position :=
  ⟨fun a b => a.line < b.line ∨ a.line = b.line ∧ a.column ≤ b.column⟩

/-- The position `a` is before `b`. -/
instance : LT Position :=
  ⟨fun a b => a.line < b.line ∨ a.line = b.line ∧ a.column < b.column⟩

instance (a b : Position) : Decidable (a ≤ b) :=
  inferInstanceAs (Decidable (_ ∨ _))

instance (a b : Position) : Decidable (a < b) :=
  inferInstanceAs (Decidable (_ ∨ _))

end Position

namespace Span

/-- Whether a position falls into the span, both of its ends included.  The lines decide
first; a column counts only on the first and on the last line of the span. -/
def contains (s : Span) (p : Position) : Bool :=
  !(p.line < s.start.line || s.stop.line < p.line) &&
    !(p.line == s.start.line && p.column < s.start.column) &&
    !(p.line == s.stop.line && s.stop.column < p.column)

end Span
end UsageReport

/-
# Ranges of a text

A range is a pair of byte offsets in order.  That its start is not after its end is part of
the type, so no later definition has to ask.  `cover` is the smallest range over two, and
`relativeTo?` re-bases a range on a point at or before its start.
-/

namespace UsageReport

/-- A stretch of a text, from `start` up to and not including `stop`, in UTF-8 bytes. -/
structure TextRange where
  start : Nat
  stop : Nat
  start_le_stop : start ≤ stop := by omega
deriving DecidableEq

namespace TextRange

/-- The range between two offsets, if they are in order. -/
def ofBounds? (start stop : Nat) : Option TextRange :=
  if h : start ≤ stop then some ⟨start, stop, h⟩ else none

/-- The number of bytes in the range. -/
def length (r : TextRange) : Nat := r.stop - r.start

/-- The smallest range that holds both. -/
def cover (a b : TextRange) : TextRange where
  start := min a.start b.start
  stop := max a.stop b.stop
  start_le_stop := by have := a.start_le_stop; omega

/-- The range as seen from `origin`; `none` if it starts before it. -/
def relativeTo? (r : TextRange) (origin : Nat) : Option TextRange :=
  if h : origin ≤ r.start then
    some ⟨r.start - origin, r.stop - origin, by have := r.start_le_stop; omega⟩
  else none

/-- The range moved towards the end of the text by `k` bytes. -/
def shift (r : TextRange) (k : Nat) : TextRange :=
  ⟨r.start + k, r.stop + k, by have := r.start_le_stop; omega⟩

theorem ofBounds?_eq_some_iff {start stop : Nat} {r : TextRange} :
    ofBounds? start stop = some r ↔ r.start = start ∧ r.stop = stop := by
  unfold ofBounds?
  split
  · cases r; simp [eq_comm]
  · rename_i h
    have := r.start_le_stop
    simp only [reduceCtorEq, false_iff]
    omega

theorem relativeTo?_eq_some_iff {r s : TextRange} {origin : Nat} :
    r.relativeTo? origin = some s ↔ r.start = origin + s.start ∧ r.stop = origin + s.stop := by
  have hr := r.start_le_stop
  have hs := s.start_le_stop
  unfold relativeTo?
  split
  · cases s
    simp only [Option.some.injEq, TextRange.mk.injEq]
    omega
  · simp only [reduceCtorEq, false_iff]
    omega

end TextRange
end UsageReport

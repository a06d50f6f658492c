/-
# From offsets to lines and back

A text of `n` newlines has `n + 1` lines, the last one possibly empty.  A `LineIndex` keeps
what is needed to convert: the length of the text and, in increasing order, the offset just
after each newline, which is where the next line starts.  Line 0 starts at offset 0 in every
text.

A newline belongs to the line that it ends, as its last byte, but is outside the range of
that line.  So the offset of a newline has a position (the column after the last character),
and no position has a column beyond it.

Offsets are unbounded here, while the coordinates of a `Position` have 32 bits.  For a text
shorter than 4 GiB no coordinate wraps.
-/
import UsageReport.Text.Bytes
import UsageReport.Text.Position
import UsageReport.Text.Range

namespace UsageReport

/-- What converts between offsets and positions of one text. -/
structure LineIndex where
  /-- The offset just after each newline, in order. -/
  breaks : List Nat
  /-- The length of the text. -/
  length : Nat
deriving DecidableEq

namespace LineIndex

/-! ## 1. Building the index -/

/-- The offsets just after the newlines of a text that starts at offset `base`. -/
def breaksFrom (base : Nat) : List Char → List Nat
  | [] => []
  | c :: cs =>
    if c = '\n' then (base + c.utf8Size) :: breaksFrom (base + c.utf8Size) cs
    else breaksFrom (base + c.utf8Size) cs

/-- The index of a text. -/
def ofText (text : String) : LineIndex where
  breaks := breaksFrom 0 text.toList
  length := Text.byteCount text.toList

/-! ## 2. Lines -/

/-- The number of lines, one more than the number of newlines. -/
def lineCount (index : LineIndex) : Nat := index.breaks.length + 1

/-- Where a line starts; `none` if there is no such line. -/
def lineStart? (index : LineIndex) (line : Nat) : Option Nat := (0 :: index.breaks)[line]?

/-- Where a line ends: before its newline, or at the end of the text for the last line. -/
def lineEnd (index : LineIndex) (line : Nat) : Nat :=
  match index.breaks[line]? with
  | some next => next - 1
  | none => index.length

/-- The range of a line, without its newline; `none` if there is no such line. -/
def lineRange? (index : LineIndex) (line : Nat) : Option TextRange :=
  (index.lineStart? line).bind (TextRange.ofBounds? · (index.lineEnd line))

/-- The line of an offset: as many lines lie before it as there are breaks at or before it. -/
def lineAt (index : LineIndex) (offset : Nat) : Nat := index.breaks.countP (· ≤ offset)

/-! ## 3. The two conversions -/

/-- The position of an offset; `none` past the end of the text. -/
def position? (index : LineIndex) (offset : Nat) : Option Position :=
  if index.length < offset then none
  else
    (index.lineStart? (index.lineAt offset)).map fun start =>
      ⟨(index.lineAt offset).toUInt32, (offset - start).toUInt32⟩

/-- The offset of a position; `none` if the line does not exist or ends before the column. -/
def offset? (index : LineIndex) (p : Position) : Option Nat :=
  (index.lineStart? p.line.toNat).bind fun start =>
    if start + p.column.toNat ≤ index.lineEnd p.line.toNat then some (start + p.column.toNat)
    else none

/-- The span of a range; `none` if the range runs past the end of the text. -/
def span? (index : LineIndex) (range : TextRange) : Option Span :=
  (index.position? range.start).bind fun start =>
    (index.position? range.stop).map fun stop => ⟨start, stop⟩

end LineIndex
end UsageReport

/-
# Documents

A document is one text of a solution, under the id that the solution gave it.  It never
changes; a new text makes a new document.  Its lines and its uri are computed from it.

The uri is a normal form of the path.  A path with a scheme (`://` anywhere in it) is a uri
already.  Any other path loses its leading slashes and becomes a `file` uri, so paths that
differ only in leading slashes have the same uri.
-/
import UsageReport.Document.FileId
import UsageReport.Text.LineIndex

namespace UsageReport

/-- One text of a solution. -/
structure Document where
  id : FileId
  path : String
  text : String
  /-- The project it belongs to. -/
  project : Option String
deriving DecidableEq

namespace Document

/-! ## 1. The uri -/

/-- Whether `://` stands anywhere in the characters. -/
def hasScheme : List Char → Bool
  | [] => false
  | c :: cs => [':', '/', '/'].isPrefixOf (c :: cs) || hasScheme cs

/-- How clients are told of the document. -/
def uri (d : Document) : String :=
  if hasScheme d.path.toList then d.path
  else "file:///" ++ String.ofList (d.path.toList.dropWhile (· == '/'))

/-! ## 2. Text and ranges -/

/-- The number of bytes of the text. -/
def length (d : Document) : Nat := Text.byteCount d.text.toList

/-- The text of a range; `none` past the end or off a character boundary. -/
def slice? (d : Document) (range : TextRange) : Option String :=
  (Text.slice? range.start range.stop d.text.toList).map String.ofList

/-- Whether the range lies within the text. -/
def containsRange (d : Document) (range : TextRange) : Bool := range.stop ≤ d.length

/-! ## 3. Lines -/

/-- The line index of the text. -/
def lines (d : Document) : LineIndex := LineIndex.ofText d.text

/-- The offset of a position; `none` if the document has no such position. -/
def offset? (d : Document) (p : Position) : Option Nat := d.lines.offset? p

/-- The span of a range; `none` past the end of the text. -/
def span? (d : Document) (range : TextRange) : Option Span := d.lines.span? range

/-- The range of the line that holds an offset, without its newline. -/
def lineRangeAt? (d : Document) (offset : Nat) : Option TextRange :=
  if offset ≤ d.lines.length then d.lines.lineRange? (d.lines.lineAt offset) else none

/-- The line that holds an offset: its range and its text. -/
def lineAt? (d : Document) (offset : Nat) : Option (TextRange × String) :=
  (d.lineRangeAt? offset).bind fun range => (d.slice? range).map fun text => (range, text)

end Document
end UsageReport

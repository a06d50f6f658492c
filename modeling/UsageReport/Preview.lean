/-
# Previews

A preview shows a place in a document within the lines that it touches, each piece of them
classified, and with the place itself highlighted.

The runs of a preview cover the touched lines from the first to the last without a gap, so
the text of a preview is the slice of the document under the range that they cover.  The
newline after the last line is not part of it.  A place past the end of its document keeps
its highlight and has no runs.
-/
import UsageReport.Document.Basic
import UsageReport.Lexer.Lexeme

namespace UsageReport

/-- Classified runs around a place, and the place. -/
structure Preview where
  runs : List ClassifiedRun
  /-- What the preview is about, in offsets of the document. -/
  highlight : TextRange
deriving DecidableEq

namespace Preview

/-- The range from the start of the first run to the end of the last one. -/
def coveredRange? (p : Preview) : Option TextRange :=
  p.runs.head?.bind fun first =>
    p.runs.getLast?.bind fun last => TextRange.ofBounds? first.range.start last.range.stop

/-- The text under the runs, in the document that they were made for. -/
def text? (p : Preview) (d : Document) : Option String := p.coveredRange?.bind d.slice?

/-- The highlight as seen from the start of the covered text, if it lies within it. -/
def relativeHighlight? (p : Preview) : Option TextRange :=
  p.coveredRange?.bind fun covered =>
    (p.highlight.relativeTo? covered.start).filter fun r => r.stop ≤ covered.length

/-- The lines that a range touches, from the first to the last; `none` if it does not lie
within the text. -/
def context? (d : Document) (range : TextRange) : Option TextRange :=
  (d.lineAt? range.start).bind fun first =>
    (d.lineAt? range.stop).map fun last => first.1.cover last.1

/-- The preview of a range by the token grammar. -/
def lexical (d : Document) (range : TextRange) : Preview where
  runs :=
    match context? d range with
    | none => []
    | some context =>
      Lexer.classify context.start
        ((Text.slice? context.start context.stop d.text.toList).getD [])
  highlight := range

end Preview
end UsageReport

/-
# Locations for clients

What a client gets for a span: the uri of its document and the lines and columns.  A plain
location is made against a solution, in which the document is looked up once more; the span
may no longer fit there, or its document may be gone.  A rich location is made against the
document of the span and carries a text.
-/
import UsageReport.Document.Solution
import UsageReport.Item.DocumentSpan

namespace UsageReport

/-- A place as a client is told of it. -/
structure ClientLocation where
  uri : String
  range : Span
  /-- Text to show with the place, for clients that can. -/
  text : Option String
deriving DecidableEq

namespace DocumentSpan

/-- The location in a solution; `none` if the document is gone or the range no longer fits. -/
def plainLocation? (s : DocumentSpan) (solution : Solution) : Option ClientLocation :=
  (solution.document? s.file).bind fun document =>
    (document.span? s.range).map fun range => ⟨document.uri, range, none⟩

/-- The location in the document of the span, with a text; `none` if the range does not fit. -/
def richLocation? (s : DocumentSpan) (text : Option String) : Option ClientLocation :=
  (s.document.span? s.range).map fun range => ⟨s.document.uri, range, text⟩

end DocumentSpan
end UsageReport

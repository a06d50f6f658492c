/-
# Spans of documents

A range in a particular document, with a preview if one was made.  The span carries the
document that it was made over, so it stays readable when the solution moves on.
-/
import UsageReport.Preview

namespace UsageReport

/-- A range of a document, with or without a preview. -/
structure DocumentSpan where
  document : Document
  range : TextRange
  preview : Option Preview
deriving DecidableEq

namespace DocumentSpan

/-- The id of the document. -/
def file (s : DocumentSpan) : FileId := s.document.id

/-- The text of the preview, if there is a preview and it has text. -/
def previewText? (s : DocumentSpan) : Option String :=
  s.preview.bind fun preview => preview.text? s.document

/-- The span without its preview. -/
def withoutPreview (s : DocumentSpan) : DocumentSpan := { s with preview := none }

end DocumentSpan
end UsageReport

/-
# References

A search finds hits, and a hit that is shown becomes a reference item.  The item belongs to
the item of its definition.
-/
import UsageReport.Item.Definition
import UsageReport.Item.Usage

namespace UsageReport

/-- A use of a symbol as the search found it. -/
structure ReferenceHit where
  document : Document
  /-- Meant to be a source location in the document. -/
  location : Location
  usage : SymbolUsage := .standard
  properties : PropertyMap := .empty
  /-- The use is implied by the code and not written out. -/
  implicit : Bool := false

/-- One use of a definition in source. -/
structure ReferenceItem where
  definition : DefinitionItem
  span : DocumentSpan
  usage : SymbolUsage
  properties : PropertyMap

end UsageReport

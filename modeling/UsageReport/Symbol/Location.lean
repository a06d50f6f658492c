/-
# Where a symbol is declared or used

In source, in a compiled module, or nowhere.  A source location may be hidden: it lies in
generated code that has no counterpart the user can see, and is shown only on request.
-/
import UsageReport.Document.FileId
import UsageReport.Text.Range

namespace UsageReport

/-- A range of a document, visible to the user or not. -/
structure SourceLocation where
  file : FileId
  range : TextRange
  hidden : Bool
deriving DecidableEq

/-- Where something is. -/
inductive Location where
  | inSource (place : SourceLocation)
  /-- Inside a compiled module without source. -/
  | inMetadata (moduleName : String)
  /-- At no place at all. -/
  | nowhere
deriving DecidableEq

/-- Whether the location survives the filter on hidden locations. -/
def SourceLocation.passes (place : SourceLocation) (includeHidden : Bool) : Bool :=
  !place.hidden || includeHidden

namespace Location

/-- The source location, if it is one. -/
def source? : Location → Option SourceLocation
  | inSource place => some place
  | inMetadata _ => none
  | nowhere => none

def isInSource (l : Location) : Bool := l.source?.isSome

def isInMetadata : Location → Bool
  | inMetadata _ => true
  | _ => false

/-- A source location that is not hidden. -/
def isVisibleSource (l : Location) : Bool :=
  match l.source? with
  | some place => !place.hidden
  | none => false

end Location
end UsageReport

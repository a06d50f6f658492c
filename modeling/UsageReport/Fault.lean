/-
# Why an operation fails

The causes that a caller can see, and the wording of each.  A location that no longer
resolves to a document is not among them: it is dropped where it is met.
-/
import UsageReport.Document.FileId
import UsageReport.Text.Position

namespace UsageReport

/-- The cause of a failure. -/
inductive Fault where
  /-- A reference item was asked for at a location outside of source. -/
  | notInSource
  /-- The document of a request is not in the solution. -/
  | documentNotFound (file : FileId)
  /-- The position of a request does not exist in its document. -/
  | invalidPosition (position : Position)
  /-- The operation saw that it was cancelled. -/
  | cancelled
  /-- A service of the host failed, with a message of its own. -/
  | external (service message : String)
deriving DecidableEq

namespace Fault

/-- The text shown for a failure. -/
def message : Fault → String
  | notInSource => "reference location is not in source"
  | documentNotFound file => "document not found: " ++ file.label
  | invalidPosition p =>
    "invalid position " ++ toString p.line.toNat ++ ":" ++ toString p.column.toNat
  | cancelled => "operation was cancelled"
  | external service text => service ++ " failed: " ++ text

/-- Whether the operation stopped because it was cancelled. -/
def isCancelled : Fault → Bool
  | cancelled => true
  | _ => false

end Fault
end UsageReport

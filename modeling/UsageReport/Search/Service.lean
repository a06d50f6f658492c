/-
# Searches

The search itself belongs to the host.  It is told what to look for and where it was asked,
makes reports, and ends well or with a fault.  It may cancel its own request.  Nothing it
reports gives it an answer, so a run is its reports, its outcome and the session it leaves.
-/
import UsageReport.Options
import UsageReport.Search.Findings
import UsageReport.Session

namespace UsageReport

/-- What is searched for. -/
inductive SearchKind where
  | implementations | references
deriving DecidableEq

/-- What a search is told. -/
structure SearchRequest where
  kind : SearchKind
  document : Document
  /-- The offset in the document at which the user asked. -/
  offset : Nat
  options : UsageOptions
deriving DecidableEq

/-- What a search leaves behind. -/
structure SearchRun (σ : Type) where
  reports : List Report
  outcome : Except Fault Unit
  session : Session σ

/-- A search. -/
abbrev SearchService (σ : Type) := SearchRequest → Session σ → SearchRun σ

namespace SearchService

variable {σ : Type}

/-- Run a search to its end and collect its reports.  If it fails they are lost. -/
def findings (service : SearchService σ) (request : SearchRequest) : Work σ Findings := fun s =>
  match (service request s).outcome with
  | .ok () => .ok (.ofReports (service request s).reports) (service request s).session
  | .error fault => .error fault (service request s).session

end SearchService
end UsageReport

/-
# What a search reports

A search reports what it finds as it goes.  `Findings` collects the reports for whoever wants
them when the search is over: definitions and references in the order in which they came, the
first message, the first title, and the latest progress.
-/
import UsageReport.Item.Reference

namespace UsageReport

/-- One report of a search. -/
inductive Report where
  | definition (item : DefinitionItem)
  | reference (item : ReferenceItem)
  /-- Something to tell the user besides the results. -/
  | message (text : String)
  | title (text : String)
  | progress (current maximum : Nat)

/-- All that a search has reported. -/
structure Findings where
  definitions : List DefinitionItem := []
  references : List ReferenceItem := []
  message : Option String := none
  title : Option String := none
  progress : Option (Nat × Nat) := none

namespace Findings

/-- The findings with one more report. -/
def record (f : Findings) : Report → Findings
  | .definition item => { f with definitions := f.definitions ++ [item] }
  | .reference item => { f with references := f.references ++ [item] }
  | .message text => { f with message := f.message.or (some text) }
  | .title text => { f with title := f.title.or (some text) }
  | .progress current maximum => { f with progress := some (current, maximum) }

/-- The findings with some more reports. -/
def recordAll (f : Findings) (reports : List Report) : Findings := reports.foldl record f

/-- The findings of a search that made these reports. -/
def ofReports (reports : List Report) : Findings := recordAll {} reports

end Findings
end UsageReport

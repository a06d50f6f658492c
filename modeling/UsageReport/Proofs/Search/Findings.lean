/-
# Findings as a function of the reports

`Findings` grow report by report, and each part of them in one of three ways.  Definitions and
references are added behind what is there (`recordAll_of_appended`), the message and the title stay
once they are there (`recordAll_of_kept`), and the progress is replaced (`recordAll_of_replaced`).
Which part a report is for does not change with the findings, so after any row of reports each part
is a function of the reports for it: all of them in order, the first, or the last.  What the other
reports say makes no difference.
-/
import UsageReport.Search.Findings

namespace UsageReport

namespace Report

/-- The definition that is reported, if it is one. -/
def definition? : Report → Option DefinitionItem
  | definition item => some item
  | reference _ => none
  | message _ => none
  | title _ => none
  | progress _ _ => none

/-- The reference that is reported, if it is one. -/
def reference? : Report → Option ReferenceItem
  | reference item => some item
  | definition _ => none
  | message _ => none
  | title _ => none
  | progress _ _ => none

/-- The message that is reported, if it is one. -/
def message? : Report → Option String
  | message text => some text
  | definition _ => none
  | reference _ => none
  | title _ => none
  | progress _ _ => none

/-- The title that is reported, if it is one. -/
def title? : Report → Option String
  | title text => some text
  | definition _ => none
  | reference _ => none
  | message _ => none
  | progress _ _ => none

/-- The progress that is reported, if it is one. -/
def progress? : Report → Option (Nat × Nat)
  | progress current maximum => some (current, maximum)
  | definition _ => none
  | reference _ => none
  | message _ => none
  | title _ => none

end Report

namespace Findings

/-! ## 1. One report -/

/-- One report adds its definition, if it has one. -/
theorem definitions_record (f : Findings) (report : Report) :
    (f.record report).definitions = f.definitions ++ report.definition?.toList := by
  cases report <;> simp [record, Report.definition?]

/-- One report adds its reference, if it has one. -/
theorem references_record (f : Findings) (report : Report) :
    (f.record report).references = f.references ++ report.reference?.toList := by
  cases report <;> simp [record, Report.reference?]

/-- One report is the message, unless there is one. -/
theorem message_record (f : Findings) (report : Report) :
    (f.record report).message = f.message.or report.message? := by
  cases report <;> simp [record, Report.message?]

/-- One report is the title, unless there is one. -/
theorem title_record (f : Findings) (report : Report) :
    (f.record report).title = f.title.or report.title? := by
  cases report <;> simp [record, Report.title?]

/-- One report replaces the progress, if it is one. -/
theorem progress_record (f : Findings) (report : Report) :
    (f.record report).progress = report.progress?.or f.progress := by
  cases report <;> simp [record, Report.progress?]

/-! ## 2. Any number of reports -/

section Parts

variable {α : Type} {items : Findings → List α} {slot : Findings → Option α}
  {told? : Report → Option α}

/-- What is added report by report stands in the end behind what was there before. -/
theorem recordAll_of_appended
    (step : ∀ f report, items (record f report) = items f ++ (told? report).toList)
    (f : Findings) (reports : List Report) :
    items (f.recordAll reports) = items f ++ reports.filterMap told? := by
  induction reports generalizing f with
  | nil => simp [recordAll]
  | cons report rest ih =>
    rw [recordAll, List.foldl_cons, ← recordAll, ih, step, List.append_assoc,
      List.filterMap_cons]
    cases told? report <;> rfl

/-- What stays once it is there is in the end what was there before, or else the first report. -/
theorem recordAll_of_kept
    (step : ∀ f report, slot (record f report) = (slot f).or (told? report))
    (f : Findings) (reports : List Report) :
    slot (f.recordAll reports) = (slot f).or (reports.filterMap told?).head? := by
  induction reports generalizing f with
  | nil => simp [recordAll]
  | cons report rest ih =>
    rw [recordAll, List.foldl_cons, ← recordAll, ih, step, Option.or_assoc, List.filterMap_cons]
    cases told? report <;> rfl

/-- What is replaced is in the end the last report, or else what was there before. -/
theorem recordAll_of_replaced
    (step : ∀ f report, slot (record f report) = (told? report).or (slot f))
    (f : Findings) (reports : List Report) :
    slot (f.recordAll reports) = (reports.filterMap told?).getLast?.or (slot f) := by
  induction reports generalizing f with
  | nil => simp [recordAll]
  | cons report rest ih =>
    rw [recordAll, List.foldl_cons, ← recordAll, ih, step, ← Option.or_assoc,
      List.filterMap_cons]
    cases told? report with
    | none => simp
    | some value =>
      rw [List.getLast?_cons]
      cases (rest.filterMap told?).getLast? <;> rfl

end Parts

theorem definitions_recordAll (f : Findings) (reports : List Report) :
    (f.recordAll reports).definitions =
      f.definitions ++ reports.filterMap Report.definition? :=
  recordAll_of_appended definitions_record f reports

theorem references_recordAll (f : Findings) (reports : List Report) :
    (f.recordAll reports).references =
      f.references ++ reports.filterMap Report.reference? :=
  recordAll_of_appended references_record f reports

theorem definitions_ofReports (reports : List Report) :
    (ofReports reports).definitions = reports.filterMap Report.definition? := by
  rw [ofReports, definitions_recordAll, List.nil_append]

theorem references_ofReports (reports : List Report) :
    (ofReports reports).references = reports.filterMap Report.reference? := by
  rw [ofReports, references_recordAll, List.nil_append]

/-- The message is the first that was reported. -/
theorem message_ofReports (reports : List Report) :
    (ofReports reports).message = (reports.filterMap Report.message?).head? :=
  recordAll_of_kept message_record {} reports

/-- The title is the first that was reported. -/
theorem title_ofReports (reports : List Report) :
    (ofReports reports).title = (reports.filterMap Report.title?).head? :=
  recordAll_of_kept title_record {} reports

/-- The progress is the last that was reported. -/
theorem progress_ofReports (reports : List Report) :
    (ofReports reports).progress = (reports.filterMap Report.progress?).getLast? := by
  rw [ofReports, recordAll_of_replaced progress_record]
  exact Option.or_none

end Findings
end UsageReport

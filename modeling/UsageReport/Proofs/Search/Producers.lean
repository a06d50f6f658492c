/-
# Findings that several producers make

The tasks of a search report to the same findings, whenever they have something to report.  A call
takes the findings from one state to the next, so calls of several producers come in a row, and
this row can be any.  A call says who makes it and whether the signal that is handed in with it is
raised; the findings look at neither.  No call fails, and what a row of calls comes to is a function
of the reports in it (`Findings.forM_call`).

So at every point of the row the findings hold what was reported up to there (`Findings.Collects`),
and what they hold of one producer is in the order in which it was reported.  A later call goes on
from there.  It can be seen in the one part of the findings that its report is for
(`Findings.answer_record_of_ne`), and there it takes away no definition and no reference.
-/
import UsageReport.Fault
import UsageReport.Proofs.Search.Findings

namespace UsageReport

/-! ## 1. Calls -/

/-- A report as a producer makes it. -/
structure Call (ι : Type) where
  producer : ι
  /-- The signal that is handed in with the report is raised. -/
  raised : Bool
  report : Report

/-- The calls of one producer in a row. -/
def Call.madeBy {ι : Type} [DecidableEq ι] (calls : List (Call ι)) (producer : ι) :
    List (Call ι) :=
  calls.filter fun call => call.producer = producer

namespace Findings

variable {ι : Type}

/-- What a call does to the findings. -/
def call (call : Call ι) : EStateM Fault Findings Unit := modify fun f => f.record call.report

/-- **Calls record their reports**, and none of them fails. -/
theorem forM_call (calls : List (Call ι)) (f : Findings) :
    calls.forM Findings.call f = .ok () (f.recordAll (calls.map Call.report)) := by
  induction calls generalizing f with
  | nil => rfl
  | cons call rest ih =>
    have hstep : (call :: rest).forM Findings.call f =
        rest.forM Findings.call (f.record call.report) := rfl
    rw [hstep, ih, List.map_cons, recordAll, recordAll, List.foldl_cons]

/-! ## 2. Parts -/

/-- What findings can be asked for. -/
inductive Part where
  | definitions | references | message | title | progress

/-- The answers that a part has. -/
def Part.Answer : Part → Type
  | definitions => List DefinitionItem
  | references => List ReferenceItem
  | message => Option String
  | title => Option String
  | progress => Option (Nat × Nat)

/-- What the findings answer. -/
def answer (f : Findings) : (part : Part) → part.Answer
  | .definitions => f.definitions
  | .references => f.references
  | .message => f.message
  | .title => f.title
  | .progress => f.progress

/-- The part that a report is for. -/
def Part.ofReport : Report → Part
  | .definition _ => definitions
  | .reference _ => references
  | .message _ => message
  | .title _ => title
  | .progress _ _ => progress

/-- **A report leaves all other parts as they were.** -/
theorem answer_record_of_ne (f : Findings) (report : Report) {part : Part}
    (h : part ≠ .ofReport report) : (f.record report).answer part = f.answer part := by
  cases report <;> cases part <;> first | rfl | exact absurd rfl h

/-! ## 3. What a row of calls comes to -/

/-- The findings hold what these calls have reported, and nothing else. -/
structure Collects [DecidableEq ι] (f : Findings) (calls : List (Call ι)) : Prop where
  definitions : f.definitions = calls.filterMap fun call => call.report.definition?
  references : f.references = calls.filterMap fun call => call.report.reference?
  /-- The definitions of one producer stand in the order in which it reported them. -/
  definitionsOf : ∀ producer,
    ((Call.madeBy calls producer).filterMap fun call => call.report.definition?).Sublist
      f.definitions
  referencesOf : ∀ producer,
    ((Call.madeBy calls producer).filterMap fun call => call.report.reference?).Sublist
      f.references
  /-- The message is the first. -/
  message : f.message = (calls.filterMap fun call => call.report.message?).head?
  /-- So is the title. -/
  title : f.title = (calls.filterMap fun call => call.report.title?).head?
  /-- The progress is the last. -/
  progress : f.progress = (calls.filterMap fun call => call.report.progress?).getLast?

/-- What is told of the reports of a row of calls. -/
theorem filterMap_report {α : Type} (calls : List (Call ι)) (told? : Report → Option α) :
    (calls.map Call.report).filterMap told? = calls.filterMap fun call => told? call.report :=
  List.filterMap_map

theorem collects_ofReports [DecidableEq ι] (calls : List (Call ι)) :
    (ofReports (calls.map Call.report)).Collects calls := by
  have hdefinitions := (definitions_ofReports _).trans (filterMap_report calls Report.definition?)
  have hreferences := (references_ofReports _).trans (filterMap_report calls Report.reference?)
  constructor
  case definitions => exact hdefinitions
  case references => exact hreferences
  case definitionsOf =>
    intro producer
    rw [hdefinitions]
    exact List.filter_sublist.filterMap _
  case referencesOf =>
    intro producer
    rw [hreferences]
    exact List.filter_sublist.filterMap _
  case message => rw [message_ofReports, filterMap_report]
  case title => rw [title_ofReports, filterMap_report]
  case progress => rw [progress_ofReports, filterMap_report]

/-! ## 4. The main statement -/

/-- **Findings at every point of a row of calls**, whoever makes them and whether signals are raised
or not.  No call fails, and behind the first `n` calls the findings hold what these have reported.
What they hold of definitions and references at one point they hold at every later point too, in
front of what was reported between.  The next call leaves all parts as they are that its report is
not for. -/
theorem collects_at_every_point [DecidableEq ι] (calls : List (Call ι)) :
    ∃ state : Nat → Findings,
      (∀ n, (calls.take n).forM Findings.call {} = .ok () (state n)) ∧
      (∀ n, (state n).Collects (calls.take n)) ∧
      (∀ n m, n ≤ m → (state n).definitions <+: (state m).definitions ∧
        (state n).references <+: (state m).references) ∧
      ∀ n call, calls[n]? = some call → ∀ part, part ≠ .ofReport call.report →
        (state (n + 1)).answer part = (state n).answer part := by
  have hcollects (n : Nat) := collects_ofReports (calls.take n)
  refine ⟨fun n => ofReports ((calls.take n).map Call.report), fun n => forM_call _ {}, hcollects,
    fun n m hnm => ?_, fun n call hcall part hpart => ?_⟩
  · have htake : calls.take n <+: calls.take m := List.take_prefix_take_left hnm
    constructor
    · rw [(hcollects n).definitions, (hcollects m).definitions]
      exact htake.filterMap _
    · rw [(hcollects n).references, (hcollects m).references]
      exact htake.filterMap _
  · have hnext : ofReports ((calls.take (n + 1)).map Call.report) =
        (ofReports ((calls.take n).map Call.report)).record call.report := by
      rw [List.take_add_one, hcall, Option.toList_some, List.map_append, ofReports, recordAll,
        List.foldl_append]
      rfl
    dsimp only
    rw [hnext]
    exact answer_record_of_ne _ _ hpart

/-- Two producers, one of them with a signal that has been raised.  The message that came first is
the empty text, and it stays. -/
theorem collects_at_every_point_sample :
    let shown (text : String) : DefinitionItem :=
      ⟨[], [⟨.text, text⟩], [], .unavailable [], {}, .empty, true⟩
    let calls : List (Call Bool) :=
      [⟨false, false, .message ""⟩, ⟨true, true, .definition (shown "A")⟩,
        ⟨false, false, .definition (shown "B")⟩, ⟨true, true, .message "late"⟩,
        ⟨false, false, .progress 1 4⟩, ⟨true, true, .definition (shown "C")⟩,
        ⟨true, true, .progress 3 4⟩]
    ∃ f f', (calls.take 2).forM Findings.call {} = .ok () f ∧
      calls.forM Findings.call {} = .ok () f' ∧
      f.definitions = [shown "A"] ∧ f.definitions <+: f'.definitions ∧
      f'.definitions = [shown "A", shown "B", shown "C"] ∧
      List.Sublist [shown "A", shown "C"] f'.definitions ∧
      f'.message = some "" ∧ f'.title = none ∧ f'.progress = some (3, 4) := by
  intro shown calls
  obtain ⟨state, hrun, hcollects, hkept, -⟩ := collects_at_every_point calls
  exact ⟨state 2, state 7, hrun 2, hrun 7, (hcollects 2).definitions, (hkept 2 7 (by decide)).1,
    (hcollects 7).definitions, (hcollects 7).definitionsOf true, (hcollects 7).message,
    (hcollects 7).title, (hcollects 7).progress⟩

end Findings
end UsageReport

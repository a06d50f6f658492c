/-
# Reports of different kinds, in any order

A search may work on several tasks at once, and then its definitions and its references come
interleaved as chance has it, with messages, titles and progress anywhere between.  What such a
row of reports has to do with the definitions and the references in it is said by
`Interleaving`, report by report.

An interleaving determines both lists (`interleaving_iff`), and a request is told of nothing else
(`locations_of_interleaving`).  So two searches that interleave the same definitions and the same
references are answered alike, whatever else they report and wherever they report it.  This is
the main statement (`answer_interleaved`).  The searches need have nothing in common: neither the
services, nor the options under which they run, nor the sessions in which they begin.
-/
import UsageReport.Proofs.Client.Answer
import UsageReport.Proofs.Document.Solution

namespace UsageReport

/-! ## 1. Interleavings -/

/-- The reports are these definitions and these references, each in order, interleaved with each
other and with reports of other kinds. -/
inductive Interleaving : List DefinitionItem → List ReferenceItem → List Report → Prop where
  | nil : Interleaving [] [] []
  | definition {definitions references reports} (item : DefinitionItem)
      (rest : Interleaving definitions references reports) :
      Interleaving (item :: definitions) references (.definition item :: reports)
  | reference {definitions references reports} (item : ReferenceItem)
      (rest : Interleaving definitions references reports) :
      Interleaving definitions (item :: references) (.reference item :: reports)
  | message {definitions references reports} (text : String)
      (rest : Interleaving definitions references reports) :
      Interleaving definitions references (.message text :: reports)
  | title {definitions references reports} (text : String)
      (rest : Interleaving definitions references reports) :
      Interleaving definitions references (.title text :: reports)
  | progress {definitions references reports} (current maximum : Nat)
      (rest : Interleaving definitions references reports) :
      Interleaving definitions references (.progress current maximum :: reports)

variable {definitions : List DefinitionItem} {references : List ReferenceItem}
  {reports : List Report}

/-- Every row of reports interleaves its own definitions and references. -/
theorem interleaving_self (reports : List Report) :
    Interleaving (reports.filterMap Report.definition?) (reports.filterMap Report.reference?)
      reports := by
  induction reports with
  | nil => exact .nil
  | cons report rest ih =>
    cases report with
    | definition item => exact .definition item ih
    | reference item => exact .reference item ih
    | message text => exact .message text ih
    | title text => exact .title text ih
    | progress current maximum => exact .progress current maximum ih

/-- **An interleaving determines what it interleaves.** -/
theorem interleaving_iff :
    Interleaving definitions references reports ↔
      reports.filterMap Report.definition? = definitions ∧
        reports.filterMap Report.reference? = references := by
  constructor
  · intro h
    induction h with
    | nil => exact ⟨rfl, rfl⟩
    | definition item _ ih => exact ⟨congrArg (item :: ·) ih.1, ih.2⟩
    | reference item _ ih => exact ⟨ih.1, congrArg (item :: ·) ih.2⟩
    | message text _ ih => exact ih
    | title text _ ih => exact ih
    | progress current maximum _ ih => exact ih
  · rintro ⟨rfl, rfl⟩
    exact interleaving_self reports

/-! ## 2. Answers -/

/-- The run ends well and leaves the request as it was, not cancelled.  Its reports interleave
these definitions and references. -/
structure SearchRun.Delivers {σ : Type} (run : SearchRun σ) (definitions : List DefinitionItem)
    (references : List ReferenceItem) : Prop where
  outcome : run.outcome = .ok ()
  calm : run.session.Calm .request
  reports : Interleaving definitions references run.reports

namespace RequestContext

variable {context : RequestContext} {request : Request}

/-- **The locations of an interleaving** are those of the two lists by themselves. -/
theorem locations_of_interleaving (h : Interleaving definitions references reports) :
    context.locations (.ofReports reports) request =
      context.locations { definitions, references } request := by
  obtain ⟨hdefinitions, hreferences⟩ := interleaving_iff.mp h
  cases request with
  | implementation place =>
    rw [locations, locations, Findings.definitions_ofReports, hdefinitions]
  | references request =>
    rw [locations, locations, Findings.definitions_ofReports, Findings.references_ofReports,
      hdefinitions, hreferences]

/-- A search that delivers is answered with the locations of what it delivers. -/
theorem answer_of_delivers {σ : Type} {service : SearchService σ} {options : UsageOptions}
    {s : Session σ} {search : SearchRequest} (hs : s.Calm .request)
    (hsearch : context.search? options request = some search)
    (hrun : (service search s).Delivers definitions references) :
    context.answer service options request s =
      .ok (context.locations { definitions, references } request) (service search s).session :=
  answer_eq_ok_iff.mpr ⟨hs, search, hsearch, hrun.outcome, hrun.calm,
    by rw [← locations_ofReports, locations_of_interleaving hrun.reports], rfl⟩

/-- **How reports are interleaved makes no difference.**  Two searches that end well with the same
definitions and the same references, each in the same order, are answered with the same list, for
requests of either kind. -/
theorem answer_interleaved {σ τ : Type} {first : SearchService σ} {second : SearchService τ}
    {options options' : UsageOptions} {s : Session σ} {t : Session τ}
    {search search' : SearchRequest} (hs : s.Calm .request) (ht : t.Calm .request)
    (hsearch : context.search? options request = some search)
    (hsearch' : context.search? options' request = some search')
    (hfirst : (first search s).Delivers definitions references)
    (hsecond : (second search' t).Delivers definitions references) :
    ∃ locations, locations = context.locations { definitions, references } request ∧
      context.answer first options request s = .ok locations (first search s).session ∧
      context.answer second options' request t = .ok locations (second search' t).session :=
  ⟨_, rfl, answer_of_delivers hs hsearch hfirst, answer_of_delivers ht hsearch' hsecond⟩

/-- One search tells of a class before it tells where the class is used, the other one the other
way round, with a title and progress in between and under other options.  Both requests get the
declaration first. -/
theorem answer_interleaved_sample :
    let d : Document := ⟨⟨0⟩, "Widget.cs", "class Widget {}", none⟩
    let item : DefinitionItem := ⟨[], [⟨.text, "Widget"⟩], [],
      .source [⟨d, ⟨6, 12, by decide⟩, none⟩], {}, .empty, false⟩
    let use : ReferenceItem := ⟨item, ⟨d, ⟨0, 5, by decide⟩, none⟩, .standard, .empty⟩
    let first : SearchService Unit := fun _ s =>
      ⟨[.definition item, .message "one use", .reference use], .ok (), s⟩
    let second : SearchService Nat := fun _ s =>
      ⟨[.title "Widget", .reference use, .progress 1 2, .definition item], .ok (), s⟩
    let context : RequestContext :=
      ⟨Solution.empty.applyAll [.set d.path d.text d.project], { richText := true }⟩
    let request : Request := .references ⟨⟨⟨0⟩, ⟨0, 6⟩⟩, true⟩
    let locations : List ClientLocation :=
      [⟨"file:///Widget.cs", ⟨⟨0, 6⟩, ⟨0, 12⟩⟩, some "Widget"⟩,
        ⟨"file:///Widget.cs", ⟨⟨0, 0⟩, ⟨0, 5⟩⟩, none⟩]
    context.answer first {} request ⟨false, ()⟩ = .ok locations ⟨false, ()⟩ ∧
      context.answer second { includeHidden := true } request ⟨false, 7⟩ =
        .ok locations ⟨false, 7⟩ := by
  intro d item use first second context request locations
  have hd : context.solution.document? ⟨0⟩ = some d := Solution.document?_applyAll_set _ _ _ ⟨0⟩
  have hsearch (includeHidden : Bool) : context.search? { includeHidden } request =
      some ⟨.references, d, 6, { includeHidden }⟩ :=
    (congrArg (Option.bind · _) hd).trans (by cases includeHidden <;> decide)
  have hs : (⟨false, ()⟩ : Session Unit).Calm .request := rfl
  have ht : (⟨false, 7⟩ : Session Nat).Calm .request := rfl
  have hfirst : (first ⟨.references, d, 6, {}⟩ ⟨false, ()⟩).Delivers [item] [use] :=
    ⟨rfl, rfl, .definition item (.message _ (.reference use .nil))⟩
  have hsecond : (second ⟨.references, d, 6, { includeHidden := true }⟩ ⟨false, 7⟩).Delivers
      [item] [use] :=
    ⟨rfl, rfl, .title _ (.reference use (.progress _ _ (.definition item .nil)))⟩
  obtain ⟨_, rfl, hanswer, hanswer'⟩ :=
    answer_interleaved hs ht (hsearch false) (hsearch true) hfirst hsecond
  have hlocations : context.locations { definitions := [item], references := [use] } request =
      locations := by decide
  rw [hlocations] at hanswer hanswer'
  exact ⟨hanswer, hanswer'⟩

end RequestContext
end UsageReport

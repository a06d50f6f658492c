/-
# Searches that make their items

A scripted search (`Scenario.runSteps`) makes an item when it gets to the step, in the session as
the steps before have left it.  If its steps report and do nothing else (`Step.IsReport`) and
nobody disturbs it, none of this shows: each step's reports are a function of the step
(`Step.reports`), and those of the search are theirs in a row (`reportsOf`).

The step lemma is `Step.run_of_calm`, and the run lemma `runSteps_of_calm`.  Both ask for a
signal that is down at the end; that it was down at every step before is the law of cancellation,
which steps keep because the services do (`maintains_runSteps`).  From the run lemma follows what
a request is answered that runs such a search (`comesTo_answer`), so two searches are compared by
their steps.
-/
import UsageReport.Proofs.Client.Answer
import UsageReport.Proofs.Item.Undisturbed
import UsageReport.Scenario.Search

namespace UsageReport
namespace Scenario

variable {σ : Type} {host : Host σ} {preview : Document → TextRange → Preview}
  {options : UsageOptions} {found : List DefinitionItem} {s : Session σ} {P : Session σ → Prop}

/-! ## 1. Items -/

/-- The item of a script, if nobody disturbs its making. -/
def DefinitionScript.item (host : Host σ) (preview : Document → TextRange → Preview)
    (options : UsageOptions) : DefinitionScript → DefinitionItem
  | .classified s primary =>
    host.itemOver preview ⟨primary, options.includeHidden, true, options.search⟩ s s.locations
  | .group g primary =>
    host.itemOver preview ⟨primary, options.includeHidden, true, options.search⟩ g.primary
      g.allLocations
  | .unclassified s =>
    host.itemOver preview ⟨false, options.includeHidden, false, { unidirectional := true }⟩ s
      s.locations
  | .uninterrupted s =>
    host.itemOver preview ⟨false, options.includeHidden, false, {}⟩ s s.locations
  | .over s locations previews primary =>
    host.itemOver preview ⟨primary, options.includeHidden, previews, options.search⟩ s locations
  | .ready item => item

theorem DefinitionScript.comesTo_run (keeps : host.KeepsCancellation)
    (answers : host.AnswersWith preview) (script : DefinitionScript) :
    (script.run host options).ComesTo .request (script.item host preview options) := by
  match script with
  | .classified s primary => exact Host.comesTo_definitionItem keeps answers
  | .group g primary => exact Host.comesTo_definitionItem keeps answers
  | .unclassified s => exact Host.comesTo_definitionItem keeps answers
  | .uninterrupted s => exact (Host.comesTo_definitionItem keeps answers).request_of_never
  | .over s locations previews primary => exact Host.comesTo_definitionItem keeps answers
  | .ready item => exact Work.comesTo_pure item

theorem DefinitionScript.maintains_run (keeps : ∀ signal, host.Maintains signal P)
    (script : DefinitionScript) : (script.run host options).Maintains P := by
  match script with
  | .classified s primary => exact (keeps .request).definitionItem _ _ _
  | .group g primary => exact (keeps .request).definitionItem _ _ _
  | .unclassified s => exact (keeps .request).definitionItem _ _ _
  | .uninterrupted s => exact (keeps .never).definitionItem _ _ _
  | .over s locations previews primary => exact (keeps .request).definitionItem _ _ _
  | .ready item => exact Work.maintains_pure item

/-- The item of a script, if there is one and nobody disturbs its making. -/
def ReferenceScript.item? (preview : Document → TextRange → Preview) (options : UsageOptions)
    (definition : DefinitionItem) : ReferenceScript → Option ReferenceItem
  | .ofHit hit => Host.referenceOver? preview hit definition options.includeHidden
  | .ready hit =>
    hit.location.source?.map fun place =>
      ⟨definition, ⟨hit.document, place.range, none⟩, hit.usage, hit.properties⟩

/-! ## 2. Steps -/

/-- The step reports, and does nothing else.  A hit that an item is to be made of is in source. -/
def Step.IsReport : Step → Prop
  | .message _ | .title _ | .progress _ _ | .pause => True
  | .definition _ linked => linked = false
  | .reference (.ofHit hit) _ => hit.location.isInSource = true
  | .reference (.ready _) _ => True
  | .cancel | .fail _ => False

/-- The definition that a step adds to those that references can name. -/
def Step.found? (host : Host σ) (preview : Document → TextRange → Preview)
    (options : UsageOptions) : Step → Option DefinitionItem
  | .definition script _ => some (script.item host preview options)
  | _ => none

/-- The reports of a step that follows the definitions `found`, if nobody disturbs it. -/
def Step.reports (host : Host σ) (preview : Document → TextRange → Preview)
    (options : UsageOptions) (found : List DefinitionItem) : Step → List Report
  | .message text => [.message text]
  | .title text => [.title text]
  | .progress current maximum => [.progress current maximum]
  | .definition script _ => [.definition (script.item host preview options)]
  | .reference script index =>
    (found[index]?.bind fun owner => script.item? preview options owner).toList.map .reference
  | .cancel | .fail _ | .pause => []

theorem ReferenceScript.comesTo_run (keeps : host.KeepsCancellation)
    (answers : host.AnswersWith preview) {script : ReferenceScript} {index : Nat}
    (h : (Step.reference script index).IsReport) (definition : DefinitionItem) :
    (script.run host options definition).ComesTo .request
      (script.item? preview options definition) := by
  cases script with
  | ofHit hit => exact Host.comesTo_referenceItem? keeps answers h definition _
  | ready hit => exact Work.comesTo_pure _

theorem ReferenceScript.maintains_run (keeps : ∀ signal, host.Maintains signal P)
    (script : ReferenceScript) (definition : DefinitionItem) :
    (script.run host options definition).Maintains P := by
  cases script with
  | ofHit hit => exact (keeps .request).referenceItem? _ _ _
  | ready hit => exact Work.maintains_pure _

/-- A definition step ends in the session in which the making of its item ends. -/
theorem Step.session_run_definition (script : DefinitionScript) (found : List DefinitionItem) :
    ((Step.definition script false).run host options found s).session =
      (script.run host options).finalSession s := by
  rw [Step.run, Work.finalSession]
  cases script.run host options s with
  | ok item s' => rfl
  | error fault s' => rfl

/-- So does a reference step that names a definition. -/
theorem Step.session_run_reference {script : ReferenceScript} {index : Nat}
    {owner : DefinitionItem} (h : found[index]? = some owner) :
    ((Step.reference script index).run host options found s).session =
      (script.run host options owner).finalSession s := by
  simp only [Step.run, h, Work.finalSession]
  cases script.run host options owner s with
  | ok item s' => rfl
  | error fault s' => rfl

/-- What the services keep, steps that report keep. -/
theorem Step.maintains_run (keeps : ∀ signal, host.Maintains signal P) {step : Step}
    (h : step.IsReport) (hs : P s) : P (step.run host options found s).session := by
  cases step with
  | message text => exact hs
  | title text => exact hs
  | progress current maximum => exact hs
  | pause => exact hs
  | cancel => exact h.elim
  | fail fault => exact h.elim
  | definition script linked =>
    cases h
    rw [session_run_definition]
    exact script.maintains_run keeps s hs
  | reference script index =>
    cases howner : found[index]? with
    | none =>
      rw [Step.run, howner]
      exact hs
    | some owner =>
      rw [session_run_reference howner]
      exact script.maintains_run keeps owner s hs

/-- **An undisturbed step** ends well, with the reports of the step. -/
theorem Step.run_of_calm (keeps : host.KeepsCancellation) (answers : host.AnswersWith preview)
    {step : Step} (h : step.IsReport)
    (hcalm : (step.run host options found s).session.Calm .request) :
    ∃ result s', step.run host options found s =
      ⟨step.reports host preview options found, step.found? host preview options, .ok result,
        s'⟩ := by
  cases step with
  | message text => exact ⟨_, _, rfl⟩
  | title text => exact ⟨_, _, rfl⟩
  | progress current maximum => exact ⟨_, _, rfl⟩
  | pause => exact ⟨_, _, rfl⟩
  | cancel => exact h.elim
  | fail fault => exact h.elim
  | definition script linked =>
    cases h
    rw [session_run_definition] at hcalm
    obtain ⟨s', hok⟩ := script.comesTo_run keeps answers s hcalm
    rw [Step.run, hok]
    exact ⟨_, _, rfl⟩
  | reference script index =>
    cases howner : found[index]? with
    | none =>
      rw [Step.run, Step.reports, howner]
      exact ⟨_, _, rfl⟩
    | some owner =>
      rw [session_run_reference howner] at hcalm
      obtain ⟨s', hok⟩ := ReferenceScript.comesTo_run keeps answers h owner s hcalm
      simp only [Step.run, Step.reports, howner, hok]
      exact ⟨_, _, rfl⟩

/-! ## 3. Searches -/

/-- The reports of steps that follow the definitions `found`, if nobody disturbs them. -/
def reportsOf (host : Host σ) (preview : Document → TextRange → Preview)
    (options : UsageOptions) : List Step → List DefinitionItem → List Report
  | [], _ => []
  | step :: rest, found =>
    step.reports host preview options found ++
      reportsOf host preview options rest (found ++ (step.found? host preview options).toList)

/-- What the services keep, searches whose steps report keep. -/
theorem maintains_runSteps (keeps : ∀ signal, host.Maintains signal P) {steps : List Step}
    (hsteps : ∀ step ∈ steps, step.IsReport) (found : List DefinitionItem) (hs : P s) :
    P (runSteps host options steps found s).session := by
  induction steps generalizing found s with
  | nil => exact hs
  | cons step rest ih =>
    have hstep : P (step.run host options found s).session :=
      Step.maintains_run keeps (hsteps step List.mem_cons_self) hs
    rw [runSteps]
    dsimp only
    split
    · exact hstep
    · exact ih (fun step h => hsteps step (List.mem_cons_of_mem _ h)) _ hstep

/-- **An undisturbed search** ends well, with the reports of its steps. -/
theorem runSteps_of_calm (keeps : host.KeepsCancellation) (answers : host.AnswersWith preview)
    {steps : List Step} (hsteps : ∀ step ∈ steps, step.IsReport) {found : List DefinitionItem}
    (hcalm : (runSteps host options steps found s).session.Calm .request) :
    (runSteps host options steps found s).outcome = .ok () ∧
      (runSteps host options steps found s).reports =
        reportsOf host preview options steps found := by
  induction steps generalizing found s with
  | nil => exact ⟨rfl, rfl⟩
  | cons step rest ih =>
    have hrest : ∀ step ∈ rest, step.IsReport := fun step h =>
      hsteps step (List.mem_cons_of_mem _ h)
    have hstep : (step.run host options found s).session.Calm .request := by
      by_contra hr
      rw [Session.not_calm_iff] at hr
      rw [runSteps] at hcalm
      dsimp only at hcalm
      split at hcalm
      · exact Session.not_calm_iff.mpr hr hcalm
      · exact Session.not_calm_iff.mpr (maintains_runSteps keeps hrest _ hr) hcalm
    obtain ⟨result, s', hrun⟩ :=
      Step.run_of_calm keeps answers (hsteps step List.mem_cons_self) hstep
    simp only [runSteps, hrun] at hcalm ⊢
    obtain ⟨hout, hreports⟩ := ih hrest hcalm
    exact ⟨hout, by rw [hreports, reportsOf]⟩

/-- The search that runs these steps under the options that it is told. -/
def search (host : Host σ) (steps : List Step) : SearchService σ := fun request s =>
  runSteps host request.options steps [] s

/-- **What a request is answered** that runs such a search undisturbed. -/
theorem comesTo_answer (keeps : host.KeepsCancellation) (answers : host.AnswersWith preview)
    {steps : List Step} (hsteps : ∀ step ∈ steps, step.IsReport) {context : RequestContext}
    {request : Request} (hsearch : (context.search? options request).isSome) :
    (context.answer (search host steps) options request).ComesTo .request
      (context.located (request.told (reportsOf host preview options steps []))) := by
  obtain ⟨search, hsearch⟩ := Option.isSome_iff_exists.mp hsearch
  have hoptions : search.options = options := RequestContext.options_of_search? hsearch
  refine RequestContext.comesTo_answer hsearch fun s hcalm => ?_
  rw [← hoptions]
  exact runSteps_of_calm keeps answers hsteps hcalm

end Scenario
end UsageReport

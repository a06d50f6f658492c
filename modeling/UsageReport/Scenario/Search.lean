/-
# Scripted searches

A search described by data: a list of steps, each of which makes reports, builds and reports
an item, cancels the request or fails.  As a search service the steps run up to the first
failure.  For looking on, they can also be run one by one past failures (`observe`).

A reference step names the definition it belongs to by the number of the definition among
those reported so far by steps of their own; items contributed by the host do not count.
-/
import UsageReport.Item.DefinitionOfSymbol
import UsageReport.Item.ReferenceOfHit
import UsageReport.Scenario.Host

namespace UsageReport
namespace Scenario

/-! ## 1. Items -/

/-- How the item of a definition is made. -/
inductive DefinitionScript where
  | classified (symbol : Symbol) (primary : Bool)
  | group (group : SymbolGroup) (primary : Bool)
  | unclassified (symbol : Symbol)
  | uninterrupted (symbol : Symbol)
  /-- Over the given locations. -/
  | over (symbol : Symbol) (locations : List Location) (previews primary : Bool)
  /-- Made by hand. -/
  | ready (item : DefinitionItem)

/-- How the item of a reference is made. -/
inductive ReferenceScript where
  | ofHit (hit : ReferenceHit)
  /-- Made by hand, without a preview. -/
  | ready (hit : ReferenceHit)

variable {σ : Type}

/-- Make the item of a definition. -/
def DefinitionScript.run (script : DefinitionScript) (host : Host σ) (options : UsageOptions) :
    Work σ DefinitionItem :=
  match script with
  | .classified s primary =>
    host.classifiedDefinition .request s primary options.includeHidden options.search
  | .group g primary =>
    host.groupDefinition .request g primary options.includeHidden options.search
  | .unclassified s => host.unclassifiedDefinition .request s options.includeHidden
  | .uninterrupted s => host.uninterruptedDefinition s options.includeHidden
  | .over s locations previews primary =>
    host.definitionItem .request ⟨primary, options.includeHidden, previews, options.search⟩ s
      locations
  | .ready item => return item

/-- Make the item of a reference. -/
def ReferenceScript.run (script : ReferenceScript) (host : Host σ) (options : UsageOptions)
    (definition : DefinitionItem) : Work σ (Option ReferenceItem) :=
  match script with
  | .ofHit hit => host.referenceItem? .request hit definition options.includeHidden
  | .ready hit =>
    return hit.location.source?.map fun place =>
      ⟨definition, ⟨hit.document, place.range, none⟩, hit.usage, hit.properties⟩

/-! ## 2. Steps -/

/-- One step of a search. -/
inductive Step where
  | message (text : String)
  | title (text : String)
  | progress (current maximum : Nat)
  /-- Report a definition and, if `linked`, what the host shows next to it. -/
  | definition (script : DefinitionScript) (linked : Bool)
  | reference (script : ReferenceScript) (definition : Nat)
  | cancel
  | fail (fault : Fault)
  /-- Do nothing; for looking at what is there. -/
  | pause

/-- What a step that went well comes to. -/
inductive StepResult where
  | done
  | definition (item : DefinitionItem) (linked : Option DefinitionItem)
  | reference (item : Option ReferenceItem)

/-- What a step leaves behind. -/
structure StepRun (σ : Type) where
  reports : List Report
  /-- The definition that it added to those that references can name. -/
  found : Option DefinitionItem
  outcome : Except Fault StepResult
  session : Session σ

/-- Run a step that follows the definitions `found`.  What it has reported stays reported even
if it fails behind. -/
def Step.run (step : Step) (host : Host σ) (options : UsageOptions)
    (found : List DefinitionItem) (s : Session σ) : StepRun σ :=
  match step with
  | .message text => ⟨[.message text], none, .ok .done, s⟩
  | .title text => ⟨[.title text], none, .ok .done, s⟩
  | .progress current maximum => ⟨[.progress current maximum], none, .ok .done, s⟩
  | .definition script linked =>
    match script.run host options s with
    | .error fault s => ⟨[], none, .error fault, s⟩
    | .ok item s =>
      if linked then
        match host.linkedDefinition? .request item s with
        | .error fault s => ⟨[.definition item], some item, .error fault, s⟩
        | .ok extra s =>
          ⟨.definition item :: extra.toList.map .definition, some item,
            .ok (.definition item extra), s⟩
      else ⟨[.definition item], some item, .ok (.definition item none), s⟩
  | .reference script index =>
    match found[index]? with
    | none => ⟨[], none, .ok (.reference none), s⟩
    | some owner =>
      match script.run host options owner s with
      | .error fault s => ⟨[], none, .error fault, s⟩
      | .ok item s => ⟨item.toList.map .reference, none, .ok (.reference item), s⟩
  | .cancel => ⟨[], none, .ok .done, s.cancel⟩
  | .fail fault => ⟨[], none, .error fault, s⟩
  | .pause => ⟨[], none, .ok .done, s⟩

/-! ## 3. Searches -/

/-- Run steps up to the first failure. -/
def runSteps (host : Host σ) (options : UsageOptions) :
    List Step → List DefinitionItem → Session σ → SearchRun σ
  | [], _, s => ⟨[], .ok (), s⟩
  | step :: rest, found, s =>
    let run := step.run host options found s
    match run.outcome with
    | .error fault => ⟨run.reports, .error fault, run.session⟩
    | .ok _ =>
      let others := runSteps host options rest (found ++ run.found.toList) run.session
      { others with reports := run.reports ++ others.reports }

/-- The steps as a search service, which remembers what it was asked. -/
def searchService (host : Host Tally) (steps : List Step) : SearchService Tally :=
  fun request s =>
    runSteps host request.options steps []
      { s with services := { s.services with searches := s.services.searches ++ [request] } }

/-- What can be seen after a step. -/
structure Observation where
  outcome : Except Fault StepResult
  findings : Findings

/-- Run all steps, past failures, and look at the findings after each. -/
def observe (host : Host σ) (options : UsageOptions) :
    List Step → List DefinitionItem → Findings → Session σ → List Observation
  | [], _, _, _ => []
  | step :: rest, found, findings, s =>
    let run := step.run host options found s
    let findings := findings.recordAll run.reports
    ⟨run.outcome, findings⟩ ::
      observe host options rest (found ++ run.found.toList) findings run.session

end Scenario
end UsageReport

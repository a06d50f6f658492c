/-
# Hidden locations in answers

Hidden locations leave no trace in an answer unless they are asked for.  Take a search that makes
its items step by step under the options of the request.  If hidden locations are not wanted, it
is answered with some of the locations with which it is answered if they are, in the same order;
and it is answered alike if nothing hidden is there to begin with: the locations of the definitions
are stripped, and the hidden hits left out (`Step.strip?`).

Both compare two searches by their steps.  Two rows of steps are run side by side
(`Alike.reportsOf`), each step beside what has become of it, and what a client is told of the one
stands in a relation to what it is told of the other.  The relation is equality in one case and
`List.Sublist` in the other, and all that counts is that it goes by parts (`ByParts`).

There are two ways to strip a definition.  Its list can be stripped where the item is asked for
(`overWithoutHidden`), and this works with every host.  Or the symbol is stripped before
(`withoutHidden`).  Then the host is shown another symbol, and could display it otherwise; a plain
client would not see that.
-/
import UsageReport.Proofs.Document.Solution
import UsageReport.Proofs.Item.Hidden
import UsageReport.Proofs.Search.Scripted

namespace UsageReport
namespace Scenario

/-! ## 1. Steps with nothing hidden -/

/-- The item of the same symbol, over its list without hidden locations. -/
def DefinitionScript.overWithoutHidden : DefinitionScript → DefinitionScript
  | .classified s primary => .over s (Location.withoutHidden s.locations) true primary
  | .group g primary => .over g.primary (Location.withoutHidden g.allLocations) true primary
  | .unclassified s => .over s (Location.withoutHidden s.locations) false false
  | .uninterrupted s => .over s (Location.withoutHidden s.locations) false false
  | .over s locations previews primary =>
    .over s (Location.withoutHidden locations) previews primary
  | .ready item => .ready item

/-- The item of the symbol without its hidden locations. -/
def DefinitionScript.withoutHidden : DefinitionScript → DefinitionScript
  | .classified s primary => .classified s.withoutHidden primary
  | .group g primary => .group g.withoutHidden primary
  | .unclassified s => .unclassified s.withoutHidden
  | .uninterrupted s => .uninterrupted s.withoutHidden
  | .over s locations previews primary =>
    .over s (Location.withoutHidden locations) previews primary
  | .ready item => .ready item

/-- The step with its definition stripped; hidden hits are left out. -/
def Step.strip? (strip : DefinitionScript → DefinitionScript) : Step → Option Step
  | .definition script linked => some (.definition (strip script) linked)
  | .reference (.ofHit hit) index =>
    if hit.location.isHidden then none else some (.reference (.ofHit hit) index)
  | step => some step

theorem Step.isReport_of_strip? {strip : DefinitionScript → DefinitionScript} {step stripped : Step}
    (h : step.strip? strip = some stripped) (hstep : step.IsReport) : stripped.IsReport := by
  cases step with
  | definition script linked => cases h; exact hstep
  | reference script index =>
    cases script with
    | ofHit hit =>
      rw [strip?] at h
      split at h
      · cases h
      · cases h; exact hstep
    | ready hit => cases h; exact hstep
  | message text => cases h; exact hstep
  | title text => cases h; exact hstep
  | progress current maximum => cases h; exact hstep
  | cancel => cases h; exact hstep
  | fail fault => cases h; exact hstep
  | pause => cases h; exact hstep

/-! ## 2. Two searches side by side -/

/-- The relation holds of two lists if it holds of their parts. -/
structure ByParts (R : List ClientLocation → List ClientLocation → Prop) : Prop where
  nil : R [] []
  append : ∀ {a b c d}, R a b → R c d → R (a ++ c) (b ++ d)

theorem byParts_eq : ByParts (· = ·) := ⟨rfl, fun h h' => by rw [h, h']⟩

theorem byParts_sublist : ByParts List.Sublist := ⟨.slnil, fun h h' => h.append h'⟩

/-- What a client is told of the definitions, and of the references, of some reports stands in a
relation to what it is told of those of others. -/
structure Alike (context : RequestContext) (R : List ClientLocation → List ClientLocation → Prop)
    (reports reports' : List Report) : Prop where
  definitions : R (context.located (reports.flatMap Report.definitionSpans))
    (context.located (reports'.flatMap Report.definitionSpans))
  references : R (context.located (reports.flatMap Report.referenceSpans))
    (context.located (reports'.flatMap Report.referenceSpans))

variable {σ : Type} {host : Host σ} {preview : Document → TextRange → Preview}
  {context : RequestContext} {R : List ClientLocation → List ClientLocation → Prop}
  {options options' : UsageOptions} {found found' : List DefinitionItem}

theorem Alike.nil (parts : ByParts R) : Alike context R [] [] := ⟨parts.nil, parts.nil⟩

theorem Alike.append (parts : ByParts R) {a b c d : List Report} (h : Alike context R a b)
    (h' : Alike context R c d) : Alike context R (a ++ c) (b ++ d) := by
  constructor
  · rw [List.flatMap_append, List.flatMap_append, RequestContext.located_append,
      RequestContext.located_append]
    exact parts.append h.definitions h'.definitions
  · rw [List.flatMap_append, List.flatMap_append, RequestContext.located_append,
      RequestContext.located_append]
    exact parts.append h.references h'.references

/-- So do the answers to a request. -/
theorem Alike.told (parts : ByParts R) {reports reports' : List Report}
    (h : Alike context R reports reports') (request : Request) :
    R (context.located (request.told reports)) (context.located (request.told reports')) := by
  cases request with
  | implementation place => exact h.definitions
  | references request =>
    rw [Request.told, Request.told, RequestContext.located_append, RequestContext.located_append]
    refine parts.append ?_ h.references
    cases request.includeDeclaration with
    | true => exact h.definitions
    | false => exact parts.nil

/-- **Two searches side by side.**  Each step of the first stands beside what has become of it in
the second, if it has not been left out, and they add as many definitions that references can
name. -/
theorem Alike.reportsOf (parts : ByParts R) (change : Step → Option Step) {steps : List Step}
    (hstep : ∀ step ∈ steps, ∀ found found' : List DefinitionItem, found.length = found'.length →
      Alike context R (step.reports host preview options found)
          (((change step).map (·.reports host preview options' found')).getD []) ∧
        (step.found? host preview options).isSome =
          ((change step).bind (·.found? host preview options')).isSome)
    (hfound : found.length = found'.length) :
    Alike context R (reportsOf host preview options steps found)
      (Scenario.reportsOf host preview options' (steps.filterMap change) found') := by
  induction steps generalizing found found' with
  | nil => exact .nil parts
  | cons step rest ih =>
    obtain ⟨hreports, hadds⟩ := hstep step List.mem_cons_self found found' hfound
    have hrest := fun step h => hstep step (List.mem_cons_of_mem _ h)
    cases hchange : change step with
    | none =>
      rw [hchange] at hreports hadds
      have hnone : step.found? host preview options = none := by simpa using hadds
      rw [List.filterMap_cons_none hchange, Scenario.reportsOf, hnone, Option.toList_none,
        List.append_nil]
      exact .append parts hreports (ih hrest hfound)
    | some changed =>
      rw [hchange, Option.map_some, Option.getD_some] at hreports
      rw [hchange, Option.bind_some] at hadds
      rw [List.filterMap_cons_some hchange, Scenario.reportsOf, Scenario.reportsOf]
      refine .append parts hreports (ih hrest ?_)
      rw [List.length_append, List.length_append, hfound]
      cases hadded : step.found? host preview options <;>
        cases hadded' : changed.found? host preview options' <;> simp_all

/-! ## 3. One step -/

/-- The client is told the same of a span, whichever of the texts comes with it. -/
def SameText (context : RequestContext) (text text' : String) : Prop :=
  context.client.richText = false ∨ text = text'

theorem SameText.location?_eq {text text' : String} (h : SameText context text text')
    (span : DocumentSpan) :
    context.location? span (some text) = context.location? span (some text') := by
  rcases h with hplain | rfl
  · have hnot : ¬ context.client.richText = true := by simp [hplain]
    rw [RequestContext.location?, RequestContext.location?, if_neg hnot, if_neg hnot]
  · rfl

/-- The locations of a definition. -/
theorem located_definitionSpans (context : RequestContext) (item : DefinitionItem) :
    context.located ([Report.definition item].flatMap Report.definitionSpans) =
      item.sourceSpans.filterMap fun span => context.location? span (some item.displayText) := by
  rw [List.flatMap_cons, List.flatMap_nil, List.append_nil, Report.definitionSpans,
    RequestContext.located, List.filterMap_map]
  rfl

/-- Two definitions with the same spans are alike if the client is told the same. -/
theorem alike_definition_eq {item item' : DefinitionItem}
    (hspans : item.sourceSpans = item'.sourceSpans)
    (htext : SameText context item.displayText item'.displayText) :
    Alike context (· = ·) [.definition item] [.definition item'] := by
  refine ⟨?_, rfl⟩
  rw [located_definitionSpans, located_definitionSpans, hspans]
  exact List.filterMap_congr fun span _ => htext.location?_eq span

/-- A definition with some of the spans of another has some of its locations. -/
theorem alike_definition_sublist {item item' : DefinitionItem}
    (hspans : item.sourceSpans.Sublist item'.sourceSpans)
    (htext : item.displayText = item'.displayText) :
    Alike context List.Sublist [.definition item] [.definition item'] := by
  refine ⟨?_, .slnil⟩
  rw [located_definitionSpans, located_definitionSpans, htext]
  exact hspans.filterMap _

/-- The span of the item of a script does not depend on the definition it belongs to. -/
theorem ReferenceScript.map_span_item? (script : ReferenceScript)
    (owner owner' : DefinitionItem) :
    (script.item? preview options owner).map ReferenceItem.span =
      (script.item? preview options owner').map ReferenceItem.span := by
  cases script with
  | ofHit hit =>
    rw [item?, item?, Host.referenceOver?, Host.referenceOver?]
    cases hit.location.source? with
    | none => rfl
    | some place =>
      rw [Option.bind_some, Option.bind_some]
      split <;> rfl
  | ready hit =>
    rw [item?, item?, Option.map_map, Option.map_map]
    rfl

/-- A reference step names the same definition, by number, in two searches that have found as
many. -/
theorem getElem?_of_length_eq (h : found.length = found'.length) (index : Nat) :
    found[index]? = none ∧ found'[index]? = none ∨
      ∃ owner owner', found[index]? = some owner ∧ found'[index]? = some owner' := by
  by_cases hlt : index < found.length
  · have hlt' : index < found'.length := h ▸ hlt
    exact .inr ⟨_, _, List.getElem?_eq_getElem hlt, List.getElem?_eq_getElem hlt'⟩
  · have hle : found.length ≤ index := Nat.le_of_not_lt hlt
    exact .inl ⟨List.getElem?_eq_none hle, List.getElem?_eq_none (h ▸ hle)⟩

theorem flatMap_referenceSpans (item : Option ReferenceItem) :
    (item.toList.map Report.reference).flatMap Report.referenceSpans =
      (item.map ReferenceItem.span).toList.map fun span => (span, span.previewText?) := by
  cases item <;> rfl

theorem flatMap_definitionSpans_reference (item : Option ReferenceItem) :
    (item.toList.map Report.reference).flatMap Report.definitionSpans = [] := by
  cases item <;> rfl

/-- References with the same span are alike. -/
theorem alike_reference_eq {item item' : Option ReferenceItem}
    (h : item.map ReferenceItem.span = item'.map ReferenceItem.span) :
    Alike context (· = ·) (item.toList.map .reference) (item'.toList.map .reference) := by
  constructor
  · rw [flatMap_definitionSpans_reference, flatMap_definitionSpans_reference]
  · rw [flatMap_referenceSpans, flatMap_referenceSpans, h]

/-- The reference of a script is there with hidden hits if it is there without them. -/
theorem alike_reference_sublist (script : ReferenceScript) (owner owner' : DefinitionItem)
    (options : SearchOptions) :
    Alike context List.Sublist
      ((script.item? preview ⟨false, options⟩ owner).toList.map .reference)
      ((script.item? preview ⟨true, options⟩ owner').toList.map .reference) := by
  constructor
  · rw [flatMap_definitionSpans_reference, flatMap_definitionSpans_reference]
  · rw [flatMap_referenceSpans, flatMap_referenceSpans, script.map_span_item? owner' owner]
    refine List.Sublist.filterMap _ (List.Sublist.map _ ?_)
    cases hitem : script.item? preview ⟨false, options⟩ owner with
    | none => exact List.nil_sublist _
    | some item =>
      have hitem' : script.item? preview ⟨true, options⟩ owner = some item := by
        cases script with
        | ofHit hit => exact Host.referenceOver?_of_some hitem
        | ready hit => exact hitem
      rw [hitem']

/-! ### Hidden locations wanted and not wanted -/

theorem DefinitionScript.sublist_sourceSpans (script : DefinitionScript)
    (options : SearchOptions) :
    List.Sublist (script.item host preview ⟨false, options⟩).sourceSpans
      (script.item host preview ⟨true, options⟩).sourceSpans := by
  match script with
  | .classified s primary => exact Host.sublist_sourceSpans _ _ _ _ _
  | .group g primary => exact Host.sublist_sourceSpans _ _ _ _ _
  | .unclassified s => exact Host.sublist_sourceSpans _ _ _ _ _
  | .uninterrupted s => exact Host.sublist_sourceSpans _ _ _ _ _
  | .over s locations previews primary => exact Host.sublist_sourceSpans _ _ _ _ _
  | .ready item => exact .refl _

theorem DefinitionScript.displayText_item (script : DefinitionScript) (options : SearchOptions)
    (includeHidden : Bool) :
    (script.item host preview ⟨includeHidden, options⟩).displayText =
      (script.item host preview ⟨false, options⟩).displayText := by
  match script with
  | .classified s primary => simp only [item, Host.itemOver, Host.displayText_assemble]
  | .group g primary => simp only [item, Host.itemOver, Host.displayText_assemble]
  | .unclassified s => simp only [item, Host.itemOver, Host.displayText_assemble]
  | .uninterrupted s => simp only [item, Host.itemOver, Host.displayText_assemble]
  | .over s locations previews primary => simp only [item, Host.itemOver, Host.displayText_assemble]
  | .ready item => rfl

/-- **One step with hidden locations** tells all that it tells without them. -/
theorem Step.alike_hidden (step : Step) (options : SearchOptions)
    (hfound : found.length = found'.length) :
    Alike context List.Sublist (step.reports host preview ⟨false, options⟩ found)
      (step.reports host preview ⟨true, options⟩ found') := by
  cases step with
  | definition script linked =>
    exact alike_definition_sublist (script.sublist_sourceSpans options)
      (script.displayText_item options true).symm
  | reference script index =>
    rcases getElem?_of_length_eq hfound index with ⟨h, h'⟩ | ⟨owner, owner', h, h'⟩
    · rw [reports, reports, h, h']
      exact ⟨.refl _, .refl _⟩
    · rw [reports, reports, h, h', Option.bind_some, Option.bind_some]
      exact alike_reference_sublist script owner owner' options
  | message text => exact ⟨.refl _, .refl _⟩
  | title text => exact ⟨.refl _, .refl _⟩
  | progress current maximum => exact ⟨.refl _, .refl _⟩
  | cancel => exact ⟨.refl _, .refl _⟩
  | fail fault => exact ⟨.refl _, .refl _⟩
  | pause => exact ⟨.refl _, .refl _⟩

/-! ### Hidden locations there and not there -/

variable {strip : DefinitionScript → DefinitionScript} {includeHidden : Bool}

/-- The stripped script leads where the script leads while hidden locations are not wanted, and
the client is told the same of it. -/
structure Strips (host : Host σ) (preview : Document → TextRange → Preview)
    (context : RequestContext) (options : SearchOptions) (includeHidden : Bool)
    (strip : DefinitionScript → DefinitionScript) : Prop where
  spans : ∀ script : DefinitionScript,
    (script.item host preview ⟨false, options⟩).sourceSpans =
      ((strip script).item host preview ⟨includeHidden, options⟩).sourceSpans
  text : ∀ script : DefinitionScript,
    SameText context (script.item host preview ⟨false, options⟩).displayText
      ((strip script).item host preview ⟨includeHidden, options⟩).displayText

/-- **One stripped step** tells what the step tells while hidden locations are not wanted. -/
theorem Step.alike_strip? {options : SearchOptions}
    (strips : Strips host preview context options includeHidden strip) (step : Step)
    (hfound : found.length = found'.length) :
    Alike context (· = ·) (step.reports host preview ⟨false, options⟩ found)
      (((step.strip? strip).map (·.reports host preview ⟨includeHidden, options⟩ found')).getD
        []) := by
  cases step with
  | definition script linked =>
    exact alike_definition_eq (strips.spans script) (strips.text script)
  | reference script index =>
    have hreference (h : ∀ owner,
        script.item? preview ⟨false, options⟩ owner =
          script.item? preview ⟨includeHidden, options⟩ owner) :
        Alike context (· = ·)
          ((Step.reference script index).reports host preview ⟨false, options⟩ found)
          ((Step.reference script index).reports host preview ⟨includeHidden, options⟩ found') := by
      rcases getElem?_of_length_eq hfound index with ⟨hnone, hnone'⟩ | ⟨owner, owner', hs, hs'⟩
      · rw [reports, reports, hnone, hnone']
        exact ⟨rfl, rfl⟩
      · rw [reports, reports, hs, hs', Option.bind_some, Option.bind_some, h owner]
        exact alike_reference_eq (script.map_span_item? owner owner')
    cases script with
    | ready hit => exact hreference fun _ => rfl
    | ofHit hit =>
      rw [strip?]
      cases hhidden : hit.location.isHidden with
      | true =>
        have hnone (owner : DefinitionItem) :
            (ReferenceScript.ofHit hit).item? preview ⟨false, options⟩ owner = none :=
          Host.referenceOver?_of_hidden hhidden owner
        rw [if_pos rfl, reports]
        simp only [hnone, Option.bind_fun_none]
        exact ⟨rfl, rfl⟩
      | false =>
        rw [if_neg Bool.false_ne_true]
        exact hreference fun owner =>
          (Host.referenceOver?_of_not_hidden hhidden owner includeHidden).symm
  | message text => exact ⟨rfl, rfl⟩
  | title text => exact ⟨rfl, rfl⟩
  | progress current maximum => exact ⟨rfl, rfl⟩
  | cancel => exact ⟨rfl, rfl⟩
  | fail fault => exact ⟨rfl, rfl⟩
  | pause => exact ⟨rfl, rfl⟩

/-- A stripped step adds a definition if the step does. -/
theorem Step.isSome_found?_strip? (step : Step) :
    (step.found? host preview options).isSome =
      ((step.strip? strip).bind (·.found? host preview options')).isSome := by
  cases step with
  | reference script index =>
    cases script with
    | ready hit => rfl
    | ofHit hit =>
      rw [strip?]
      split <;> rfl
  | definition script linked => rfl
  | message text => rfl
  | title text => rfl
  | progress current maximum => rfl
  | cancel => rfl
  | fail fault => rfl
  | pause => rfl

/-- The lists stripped where the items are asked for. -/
theorem strips_overWithoutHidden (host : Host σ) (preview : Document → TextRange → Preview)
    (context : RequestContext) (options : SearchOptions) (includeHidden : Bool) :
    Strips host preview context options includeHidden .overWithoutHidden where
  spans script := by
    match script with
    | .classified s primary =>
      exact congrArg _ (Host.itemOver_withoutHidden _ _ _ _ _ _).symm
    | .group g primary =>
      exact congrArg _ (Host.itemOver_withoutHidden _ _ _ _ _ _).symm
    | .unclassified s =>
      simp only [DefinitionScript.item, DefinitionScript.overWithoutHidden,
        Host.itemOver_withoutHidden, Host.sourceSpans_itemOver]
    | .uninterrupted s =>
      simp only [DefinitionScript.item, DefinitionScript.overWithoutHidden,
        Host.itemOver_withoutHidden, Host.sourceSpans_itemOver]
    | .over s locations previews primary =>
      exact congrArg _ (Host.itemOver_withoutHidden _ _ _ _ _ _).symm
    | .ready item => rfl
  text script := by
    refine .inr ?_
    cases script <;>
      simp only [DefinitionScript.item, DefinitionScript.overWithoutHidden, Host.itemOver,
        Host.displayText_assemble]

/-- The symbols stripped before, for a client or a host that does not see it. -/
theorem strips_withoutHidden (preview : Document → TextRange → Preview)
    (options : SearchOptions) (includeHidden : Bool)
    (hshown : context.client.richText = false ∨
      ∀ s : Symbol, host.display s.withoutHidden = host.display s) :
    Strips host preview context options includeHidden .withoutHidden where
  spans script := by
    match script with
    | .classified s primary =>
      exact (Host.sourceSpans_itemOver_withoutHidden _ _ _ _ _ _).symm
    | .group g primary =>
      rw [DefinitionScript.withoutHidden, DefinitionScript.item, DefinitionScript.item,
        g.allLocations_withoutHidden]
      exact (Host.sourceSpans_itemOver_withoutHidden _ _ _ _ _ _).symm
    | .unclassified s => exact (Host.sourceSpans_itemOver_withoutHidden _ _ _ _ _ _).symm
    | .uninterrupted s => exact (Host.sourceSpans_itemOver_withoutHidden _ _ _ _ _ _).symm
    | .over s locations previews primary =>
      exact congrArg _ (Host.itemOver_withoutHidden _ _ _ _ _ _).symm
    | .ready item => rfl
  text script := by
    rcases hshown with hplain | hdisplay
    · exact .inl hplain
    · refine .inr ?_
      match script with
      | .classified s primary =>
        exact (Host.displayText_itemOver_withoutHidden hdisplay _ _ _ _ _).symm
      | .group g primary =>
        exact (Host.displayText_itemOver_withoutHidden hdisplay _ _ _ _ _).symm
      | .unclassified s =>
        exact (Host.displayText_itemOver_withoutHidden hdisplay _ _ _ _ _).symm
      | .uninterrupted s =>
        exact (Host.displayText_itemOver_withoutHidden hdisplay _ _ _ _ _).symm
      | .over s locations previews primary =>
        exact congrArg _ (Host.itemOver_withoutHidden _ _ _ _ _ _).symm
      | .ready item => rfl

/-! ## 4. Searches -/

/-- **A search with hidden locations** tells a client all that it tells without them. -/
theorem sublist_told (host : Host σ) (preview : Document → TextRange → Preview)
    (context : RequestContext) (request : Request) (options : SearchOptions)
    (steps : List Step) :
    List.Sublist
      (context.located (request.told (reportsOf host preview ⟨false, options⟩ steps [])))
      (context.located (request.told (reportsOf host preview ⟨true, options⟩ steps []))) := by
  have halike : Alike context List.Sublist (reportsOf host preview ⟨false, options⟩ steps [])
      (reportsOf host preview ⟨true, options⟩ (steps.filterMap some) []) := by
    refine .reportsOf byParts_sublist some (fun step _ found found' hfound => ⟨?_, ?_⟩) rfl
    · exact step.alike_hidden options hfound
    · cases step <;> rfl
  rw [List.filterMap_some] at halike
  exact halike.told byParts_sublist request

/-- **A stripped search** tells a client what the search tells without hidden locations. -/
theorem told_strip {options : SearchOptions}
    (strips : Strips host preview context options includeHidden strip) (request : Request)
    (steps : List Step) :
    context.located (request.told (reportsOf host preview ⟨false, options⟩ steps [])) =
      context.located (request.told (reportsOf host preview ⟨includeHidden, options⟩
        (steps.filterMap (Step.strip? strip)) [])) := by
  have halike : Alike context (· = ·) (reportsOf host preview ⟨false, options⟩ steps [])
      (reportsOf host preview ⟨includeHidden, options⟩ (steps.filterMap (Step.strip? strip))
        []) :=
    .reportsOf byParts_eq (Step.strip? strip)
      (fun step _ _ _ hfound => ⟨step.alike_strip? strips hfound, step.isSome_found?_strip?⟩) rfl
  exact halike.told byParts_eq request

/-- What a request is answered that runs a stripped search. -/
theorem comesTo_answer_strip (keeps : host.KeepsCancellation) (answers : host.AnswersWith preview)
    {options : SearchOptions} (strips : Strips host preview context options includeHidden strip)
    {steps : List Step} (hsteps : ∀ step ∈ steps, step.IsReport) {request : Request}
    (hsearch : (context.search? ⟨includeHidden, options⟩ request).isSome) :
    (context.answer (search host (steps.filterMap (Step.strip? strip)))
        ⟨includeHidden, options⟩ request).ComesTo .request
      (context.located (request.told (reportsOf host preview ⟨false, options⟩ steps []))) := by
  rw [told_strip strips]
  refine comesTo_answer keeps answers (fun stripped h => ?_) hsearch
  obtain ⟨step, hstep, hstripped⟩ := List.mem_filterMap.mp h
  exact Step.isReport_of_strip? hstripped (hsteps step hstep)

/-- **Hidden locations leave no trace** unless they are wanted.

The item of a definition without them is the item over the stripped list, whether hidden locations
are wanted there or not, and its spans are among those of the item with them.  A hit that gives a
reference gives the same one if hidden hits are wanted.

Of a request that runs steps which report, the answer without hidden locations is part of the
answer with them, in order.  It is also the answer if the steps are stripped, whether hidden
locations are wanted there or not: by their lists, whatever the host, or by their symbols, if
neither the client nor the display sees the difference. -/
theorem hidden_leave_no_trace (keeps : host.KeepsCancellation)
    (answers : host.AnswersWith preview) :
    (∀ (signal : Signal) (primary previews includeHidden : Bool) (options : SearchOptions)
        (symbol : Symbol) (locations : List Location), ∃ item whole,
      (host.definitionItem signal ⟨primary, false, previews, options⟩ symbol
        locations).ComesTo signal item ∧
      (host.definitionItem signal ⟨primary, includeHidden, previews, options⟩ symbol
        (Location.withoutHidden locations)).ComesTo signal item ∧
      (host.definitionItem signal ⟨primary, true, previews, options⟩ symbol
        locations).ComesTo signal whole ∧
      item.sourceSpans.Sublist whole.sourceSpans) ∧
    (∀ (signal : Signal) (hit : ReferenceHit) (definition : DefinitionItem)
        (item : ReferenceItem) (s s' : Session σ),
      host.referenceItem? signal hit definition false s = .ok (some item) s' →
      (host.referenceItem? signal hit definition true).ComesTo signal (some item)) ∧
    (∀ (context : RequestContext) (request : Request) (options : SearchOptions)
        (steps : List Step), (∀ step ∈ steps, step.IsReport) →
      (context.search? {} request).isSome → ∃ without wanted,
      (context.answer (search host steps) ⟨false, options⟩ request).ComesTo .request without ∧
      (context.answer (search host steps) ⟨true, options⟩ request).ComesTo .request wanted ∧
      without.Sublist wanted ∧
      ∀ includeHidden,
        (context.answer (search host (steps.filterMap (Step.strip? .overWithoutHidden)))
          ⟨includeHidden, options⟩ request).ComesTo .request without ∧
        (context.client.richText = false ∨
            (∀ s : Symbol, host.display s.withoutHidden = host.display s) →
          (context.answer (search host (steps.filterMap (Step.strip? .withoutHidden)))
            ⟨includeHidden, options⟩ request).ComesTo .request without)) := by
  refine ⟨?definitions, ?hits, ?answers⟩
  case definitions =>
    intro signal primary previews includeHidden options symbol locations
    refine ⟨_, _, Host.comesTo_definitionItem keeps answers, ?_,
      Host.comesTo_definitionItem keeps answers, Host.sublist_sourceSpans _ _ _ _ _⟩
    rw [← Host.itemOver_withoutHidden primary previews includeHidden]
    exact Host.comesTo_definitionItem keeps answers
  case hits =>
    intro signal hit definition item s s' h
    have hitem : Host.referenceOver? preview hit definition false = some item :=
      (Host.eq_referenceOver?_of_ok answers h).symm
    obtain ⟨place, hplace, -⟩ := Option.bind_eq_some_iff.mp hitem
    rw [← Host.referenceOver?_of_some hitem]
    exact Host.comesTo_referenceItem? keeps answers
      (Option.isSome_iff_exists.mpr ⟨place, hplace⟩) definition true
  case answers =>
    intro context request options steps hsteps hsome
    have hsearch (includeHidden : Bool) :
        (context.search? ⟨includeHidden, options⟩ request).isSome :=
      (RequestContext.isSome_search?_congr _ _).trans hsome
    refine ⟨_, _, comesTo_answer keeps answers hsteps (hsearch false),
      comesTo_answer keeps answers hsteps (hsearch true),
      sublist_told host preview context request options steps, fun includeHidden => ⟨?_, ?_⟩⟩
    · exact comesTo_answer_strip keeps answers (strips_overWithoutHidden _ _ _ _ _) hsteps
        (hsearch includeHidden)
    · intro hshown
      exact comesTo_answer_strip keeps answers (strips_withoutHidden _ _ _ hshown) hsteps
        (hsearch includeHidden)

/-- A class is declared where it shows, and also in a hidden region.  A client that asks for
implementations is told of the first place, and so it is if the second is not there; of both it is
told if hidden locations are wanted. -/
theorem hidden_leave_no_trace_sample :
    let d := Host.sampleDocument
    let host := Host.standard (.ofDocument d)
    let place : Location := .inSource ⟨⟨0⟩, ⟨6, 12, by decide⟩, false⟩
    let hiddenPlace : Location := .inSource ⟨⟨0⟩, ⟨19, 25, by decide⟩, true⟩
    let symbol : Symbol := { Host.sampleSymbol with locations := [place, hiddenPlace] }
    let hit : ReferenceHit := ⟨d, hiddenPlace, .standard, .empty, false⟩
    let steps : List Step :=
      [.definition (.classified symbol true) false, .reference (.ofHit hit) 0]
    let context : RequestContext :=
      ⟨Solution.empty.applyAll [.set d.path d.text d.project], { richText := true }⟩
    let request : Request := .implementation ⟨⟨0⟩, ⟨0, 6⟩⟩
    let shown : ClientLocation := ⟨"file:///Widget.cs", ⟨⟨0, 6⟩, ⟨0, 12⟩⟩, some "class Widget"⟩
    let hidden : ClientLocation := ⟨"file:///Widget.cs", ⟨⟨0, 19⟩, ⟨0, 25⟩⟩, some "class Widget"⟩
    let s : Session Unit := ⟨false, ()⟩
    (∃ s', context.answer (search host steps) {} request s = .ok [shown] s') ∧
    (∃ s', context.answer (search host steps) { includeHidden := true } request s =
      .ok [shown, hidden] s') ∧
    ∃ s', context.answer (search host (steps.filterMap (Step.strip? .withoutHidden)))
      { includeHidden := true } request s = .ok [shown] s' := by
  intro d host place hiddenPlace symbol hit steps context request shown hidden s
  have find (P : Session Unit → Prop) := DocumentSource.maintains_find_ofDocument (P := P) d
  have keeps : host.KeepsCancellation := Host.standard_keepsCancellation (find _)
  have answers : host.AnswersWith Preview.lexical := Host.standard_answersWith _
  have hsteps : ∀ step ∈ steps, step.IsReport := by
    intro step h
    rcases List.mem_pair.mp h with rfl | rfl <;> rfl
  have hd : context.solution.document? ⟨0⟩ = some d := Solution.document?_applyAll_set _ _ _ ⟨0⟩
  have hsearch (includeHidden : Bool) : context.search? { includeHidden } request =
      some ⟨.implementations, d, 6, { includeHidden }⟩ :=
    (congrArg (Option.bind · _) hd).trans (by cases includeHidden <;> decide)
  have hcalm (steps' : List Step) (h : ∀ step ∈ steps', step.IsReport) (includeHidden : Bool) :
      ((context.answer (search host steps') { includeHidden } request).finalSession s).Calm
        .request := by
    rw [RequestContext.finalSession_answer (s := s) rfl (hsearch includeHidden)]
    exact maintains_runSteps (Host.standard_maintains (find _)) h [] rfl
  obtain ⟨without, wanted, hwithout, hwanted, hsub, hstrip⟩ :=
    (hidden_leave_no_trace keeps answers).2.2 context request {} steps hsteps
      (by rw [hsearch false]; rfl)
  have htold (includeHidden : Bool) := comesTo_answer keeps answers hsteps
    (Option.isSome_of_eq_some (hsearch includeHidden))
  obtain rfl : without = [shown] :=
    (hwithout.unique (htold false) (hcalm steps hsteps false)).trans (by decide)
  obtain rfl : wanted = [shown, hidden] :=
    (hwanted.unique (htold true) (hcalm steps hsteps true)).trans (by decide)
  have hstripped := (hstrip true).2 (.inr (Host.standard_display_withoutHidden _))
  refine ⟨hwithout s (hcalm steps hsteps false), hwanted s (hcalm steps hsteps true),
    hstripped s (hcalm _ (fun step h => ?_) true)⟩
  obtain rfl := List.mem_singleton.mp h
  rfl

end Scenario
end UsageReport

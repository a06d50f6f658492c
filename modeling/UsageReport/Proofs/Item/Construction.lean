/-
# Items of constructed symbols

An item is made for the canonical symbol, and of the symbol that it is asked for only this one
shows (`Host.Presents`): its display, its tags, its properties and, in a compiled module, the symbol
that the item leads to.  Two symbols with one canonical symbol have one and the same item over the
same locations (`definitionItem_congr_canonical`), whatever happens while it is made.

So a symbol that was constructed, any number of times, has the item of its definition
(`definitions_of_constructions`).  Which symbol is canonical is decided by the kind of the symbol
that is asked for, not by the kind of its definition: a chain that ends in a tuple element is
followed to this end, and a tuple element is never followed.
-/
import UsageReport.Proofs.Item.Navigation
import UsageReport.Proofs.Symbol.Construction
import UsageReport.Proofs.Symbol.Union

namespace UsageReport
namespace Host

variable {σ : Type} {host : Host σ} {signal : Signal} {query : DefinitionQuery}
  {symbol : Symbol} {locations : List Location} {s s' : Session σ} {item : DefinitionItem}

/-! ## 1. What shows of a symbol -/

/-- The item shows what the host says of the definition. -/
structure Presents (host : Host σ) (primary : Bool) (definition : Symbol) (item : DefinitionItem) :
    Prop where
  display : item.display = host.display definition
  /-- An item that leads nowhere has no short display. -/
  nameDisplay : item.nameDisplay =
    match item.navigation with
    | .unavailable _ => []
    | _ => host.nameDisplay definition
  tags : item.tags = (host.glyph definition).tags
  properties : item.properties = host.definitionProperties definition primary
  /-- Only an item in source has displayable properties. -/
  displayable : item.displayable =
    match item.navigation with
    | .source _ => host.properties definition
    | _ => .empty
  /-- An item in a compiled module leads to the definition. -/
  metadata : ∀ moduleName target, item.navigation = .metadata moduleName target →
    target = definition

/-- An item presents the symbol that it is assembled for, wherever it leads. -/
theorem presents_assemble (query : DefinitionQuery) (definition : Symbol) (w : Whereabouts) :
    host.Presents query.primary definition (host.assemble query definition w) := by
  cases w with
  | metadata moduleName =>
    refine ⟨rfl, rfl, rfl, rfl, rfl, fun name target h => ?_⟩
    cases h
    rfl
  | source spans =>
    cases spans with
    | nil => exact ⟨rfl, rfl, rfl, rfl, rfl, fun name target h => by cases h⟩
    | cons span rest => exact ⟨rfl, rfl, rfl, rfl, rfl, fun name target h => by cases h⟩

/-- **An item that was made presents the canonical symbol.** -/
theorem presents_of_ok (h : host.definitionItem signal query symbol locations s = .ok item s') :
    host.Presents query.primary symbol.canonical item := by
  obtain ⟨w, rfl, -⟩ := exists_assemble_of_ok h
  exact presents_assemble query symbol.canonical w

/-! ## 2. Two symbols with one canonical symbol -/

/-- **Of the symbol only the canonical one counts.** -/
theorem definitionItem_congr_canonical {x y : Symbol} (h : x.canonical = y.canonical)
    (locations : List Location) :
    host.definitionItem signal query x locations =
      host.definitionItem signal query y locations := by
  rw [definitionItem, definitionItem, h]

/-- The same over the symbols' own lists, if they are located alike. -/
theorem definitionItem_congr_locations {x y : Symbol} (h : x.canonical = y.canonical)
    (hlocations : x.locations = y.locations) :
    host.definitionItem signal query x x.locations =
      host.definitionItem signal query y y.locations := by
  rw [definitionItem_congr_canonical h, hlocations]

/-- A group of one member has the member's locations, each one once. -/
theorem groupDefinition_single (symbol : Symbol) (primary includeHidden : Bool)
    (options : SearchOptions) :
    host.groupDefinition signal (.single symbol) primary includeHidden options =
      host.definitionItem signal ⟨primary, includeHidden, true, options⟩ symbol
        symbol.locations.eraseDups := by
  rw [groupDefinition, SymbolGroup.allLocations_single]
  rfl

/-! ## 3. The main statement -/

/-- **A constructed symbol is shown as its definition**, if this is no tuple element: however often
it was constructed and with whatever type arguments, each way to ask for its item is the same work
as for the definition, and the item presents the definition itself.

In general a symbol that is no tuple element has the item that the end of its chain has over the
same locations, also if a tuple element stands there.  The item of a tuple element presents the
tuple element, whatever its chain. -/
theorem definitions_of_constructions (host : Host σ) :
    (∀ definition x : Symbol, definition.constructedFrom = none →
        definition.kind.isTupleElement = false → definition.IsConstruction x →
      (∀ signal primary includeHidden options,
        host.classifiedDefinition signal x primary includeHidden options =
          host.classifiedDefinition signal definition primary includeHidden options ∧
        host.groupDefinition signal (.single x) primary includeHidden options =
          host.groupDefinition signal (.single definition) primary includeHidden options ∧
        host.unclassifiedDefinition signal x includeHidden =
          host.unclassifiedDefinition signal definition includeHidden ∧
        host.uninterruptedDefinition x includeHidden =
          host.uninterruptedDefinition definition includeHidden) ∧
      ∀ signal query locations item s s',
        host.definitionItem signal query x locations s = .ok item s' →
        host.Presents query.primary definition item) ∧
    (∀ x : Symbol, x.kind.isTupleElement = false → ∀ signal query locations,
      host.definitionItem signal query x locations =
        host.definitionItem signal query x.rootDefinition locations) ∧
    ∀ x : Symbol, x.kind.isTupleElement = true → ∀ signal query locations item s s',
      host.definitionItem signal query x locations s = .ok item s' →
      host.Presents query.primary x item := by
  refine ⟨?constructions, ?roots, ?tupleElements⟩
  case constructions =>
    intro definition x hroot hkind hx
    have hdefinition : x.canonical = definition :=
      hx.canonical_eq hroot (Bool.eq_false_iff.mp hkind)
    have hcanonical : x.canonical = definition.canonical :=
      hdefinition.trans (Symbol.canonical_of_definition hroot).symm
    refine ⟨fun signal primary includeHidden options => ⟨?_, ?_, ?_, ?_⟩, ?_⟩
    · exact definitionItem_congr_locations hcanonical hx.locations_eq
    · rw [groupDefinition_single, groupDefinition_single, hx.locations_eq]
      exact definitionItem_congr_canonical hcanonical _
    · exact definitionItem_congr_locations hcanonical hx.locations_eq
    · exact definitionItem_congr_locations hcanonical hx.locations_eq
    · intro signal query locations item s s' h
      exact hdefinition ▸ presents_of_ok h
  case roots =>
    intro x hkind signal query locations
    exact definitionItem_congr_canonical
      (Symbol.canonical_rootDefinition (Bool.eq_false_iff.mp hkind)).symm locations
  case tupleElements =>
    intro x hkind signal query locations item s s' h
    exact Symbol.canonical_of_tupleElement hkind ▸ presents_of_ok h

/-- The sample class with type arguments, constructed twice over, has the item of the class, which
is displayed without type arguments.  A property whose chain goes through one tuple element to
another has the item of the last.  The item of a tuple element with a definition displays the tuple
element. -/
theorem definitions_of_constructions_sample :
    let host : Host Unit := standard (.ofDocument sampleDocument)
    let query : DefinitionQuery := ⟨false, false, true, {}⟩
    let generic : Symbol := { sampleSymbol with locations := sampleLocations }
    let closed : Symbol := (generic.construct 1 ["T"]).construct 2 ["int", "string"]
    let unnamed : Symbol := .new 3 "Item1" (.field .tupleElement)
    let element : Symbol :=
      { Symbol.new 4 "count" (.field .tupleElement) with constructedFrom := some unnamed }
    let member : Symbol := { Symbol.new 5 "Count" .property with constructedFrom := some element }
    (∃ item s', host.classifiedDefinition .request closed true false {} ⟨false, ()⟩ =
        .ok item s' ∧
      host.classifiedDefinition .request generic true false {} ⟨false, ()⟩ = .ok item s' ∧
      item.display = [⟨.keyword, "class"⟩, .blank, ⟨.classType, "Widget"⟩]) ∧
    host.definitionItem .request query member sampleLocations =
      host.definitionItem .request query unnamed sampleLocations ∧
    ∃ item s', host.definitionItem .request query element sampleLocations ⟨false, ()⟩ =
        .ok item s' ∧
      item.display = [⟨.field, "count"⟩] := by
  intro host query generic closed unnamed element member
  obtain ⟨hconstructions, hroots, helements⟩ := definitions_of_constructions host
  have hclosed : generic.IsConstruction closed :=
    .construct (.construct .definition 1 ["T"]) 2 ["int", "string"]
  obtain ⟨hways, hpresents⟩ := hconstructions generic closed rfl rfl hclosed
  obtain ⟨hclassified, -⟩ := hways .request true false {}
  have hmade : ∃ item s',
      host.classifiedDefinition .request closed true false {} ⟨false, ()⟩ = .ok item s' :=
    ⟨_, _, rfl⟩
  obtain ⟨item, s', hitem⟩ := hmade
  have hmade' : ∃ item s',
      host.definitionItem .request query element sampleLocations ⟨false, ()⟩ = .ok item s' :=
    ⟨_, _, rfl⟩
  obtain ⟨item', t', hitem'⟩ := hmade'
  refine ⟨⟨item, s', hitem, hclassified ▸ hitem, ?_⟩, ?_, item', t', hitem', ?_⟩
  · exact (hpresents _ _ _ _ _ _ hitem).display
  · exact hroots member rfl .request query sampleLocations
  · exact (helements element rfl _ _ _ _ _ _ hitem').display

end Host
end UsageReport

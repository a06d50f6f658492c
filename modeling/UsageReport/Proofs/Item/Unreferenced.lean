/-
# Compiled modules and what is shown without references

Two things about an item depend on compiled modules.  It leads into one if there is one among the
locations that it is made over; and the standard policy does not have it shown without references if
there is one among the locations of the symbol that it is made for.  These are not the same lists.
A group is read with the locations of all its members, and the symbol is that of the first; a
constructed symbol can have locations of its own, and the symbol is its definition.

Where the first list has a compiled module and the second has none (`MetadataFromElsewhere`), an
item that leads into the module is shown without references all the same, unless the policy has
another reason against it.  Everywhere else it is not.  No symbol that is its own definition, no
tuple element and no construction, however long the chain, is a case of it.

The main statement is `metadata_unreferenced`.  That the exception is there, for groups and for
constructed symbols, is `metadata_shown_unreferenced`.
-/
import UsageReport.Proofs.Item.Group
import UsageReport.Proofs.Symbol.Construction

namespace UsageReport

/-! ## 1. Two lists of locations -/

/-- There is a compiled module among the locations, and none among the definition's own. -/
def Symbol.MetadataFromElsewhere (definition : Symbol) (locations : List Location) : Prop :=
  definition.isInMetadata = false ∧ ∃ l ∈ locations, l.isInMetadata = true

/-- What a symbol has is not from elsewhere. -/
theorem Symbol.not_metadataFromElsewhere {definition : Symbol} {locations : List Location}
    (h : definition.locations = locations) : ¬ definition.MetadataFromElsewhere locations := by
  rintro ⟨hown, hany⟩
  rw [isInMetadata, h, List.any_eq_true.mpr hany] at hown
  cases hown

theorem Location.isInMetadata_of_moduleName? {l : Location} {moduleName : String}
    (h : l.moduleName? = some moduleName) : l.isInMetadata = true := by
  cases l with
  | inMetadata name => rfl
  | inSource place => cases h
  | nowhere => cases h

namespace Host

variable {σ : Type} {host : Host σ} {signal : Signal} {query : DefinitionQuery} {symbol : Symbol}
  {locations : List Location} {s s' : Session σ} {item : DefinitionItem}

/-! ## 2. The policy and the navigation -/

/-- **When the standard policy shows a definition without references**, as items ask it while not
all definitions are shown. -/
theorem standardPolicy_eq_true_iff {definition : Symbol} {options : SearchOptions}
    (notAll : options.displayAll = false) :
    standardPolicy definition options false = true ↔
      definition.isInMetadata = false ∧ definition.implicit = false ∧
        (options.specificAccessor && definition.kind.isPropertyAccessor) = false := by
  rw [standardPolicy, notAll]
  cases definition.implicit <;>
    cases options.specificAccessor && definition.kind.isPropertyAccessor <;> simp

/-- An item that leads into a compiled module has one among its locations. -/
theorem exists_isInMetadata_of_ok
    (h : host.definitionItem signal query symbol locations s = .ok item s')
    (inMetadata : item.isMetadata = true) : ∃ l ∈ locations, l.isInMetadata = true := by
  obtain ⟨w, rfl, hw⟩ := exists_assemble_of_ok h
  cases w with
  | source spans => cases spans <;> cases inMetadata
  | metadata moduleName =>
    rw [whereabouts, Whereabouts.withoutPreviews] at hw
    split at hw
    · cases hw
    · split at hw
      · rename_i name hfound
        obtain ⟨l, hl, hname⟩ := List.exists_of_findSome?_eq_some hfound
        exact ⟨l, hl, Location.isInMetadata_of_moduleName? hname⟩
      · cases hw

/-- **An item that leads into a compiled module** is shown without references only if the module is
from elsewhere, and nothing else speaks against it. -/
theorem shownUnreferenced_iff_of_ok (policy : host.showsUnreferenced = standardPolicy)
    (notAll : query.options.displayAll = false)
    (h : host.definitionItem signal query symbol locations s = .ok item s')
    (inMetadata : item.isMetadata = true) :
    item.shownUnreferenced = true ↔ symbol.canonical.MetadataFromElsewhere locations ∧
      symbol.canonical.implicit = false ∧
      (query.options.specificAccessor && symbol.canonical.kind.isPropertyAccessor) = false := by
  have hmodule := exists_isInMetadata_of_ok h inMetadata
  obtain ⟨w, rfl, -⟩ := exists_assemble_of_ok h
  rw [shownUnreferenced_assemble, policy, standardPolicy_eq_true_iff notAll,
    Symbol.MetadataFromElsewhere]
  simp only [hmodule, and_true]

/-! ## 3. The main statement -/

/-- **Items in compiled modules stay hidden without references** under the standard policy while not
all definitions are shown, unless the module is from elsewhere: among the locations that the item is
made over, and not among those of the symbol that it is made for.  Then the item is shown, except
if the symbol was made by the compiler, or is an accessor and references go to accessors.

A symbol that is not constructed, any number of constructions of it, and a tuple element have no
module from elsewhere. -/
theorem metadata_unreferenced (policy : host.showsUnreferenced = standardPolicy)
    {options : SearchOptions} (notAll : options.displayAll = false) {primary includeHidden : Bool}
    (inMetadata : item.isMetadata = true) :
    (∀ x, host.classifiedDefinition signal x primary includeHidden options s = .ok item s' →
      (item.shownUnreferenced = true ↔ x.canonical.MetadataFromElsewhere x.locations ∧
        x.canonical.implicit = false ∧
        (options.specificAccessor && x.canonical.kind.isPropertyAccessor) = false)) ∧
    (∀ g, host.groupDefinition signal g primary includeHidden options s = .ok item s' →
      (item.shownUnreferenced = true ↔
        g.primary.canonical.MetadataFromElsewhere g.allLocations ∧
        g.primary.canonical.implicit = false ∧
        (options.specificAccessor && g.primary.canonical.kind.isPropertyAccessor) = false)) ∧
    (∀ x, host.unclassifiedDefinition signal x includeHidden s = .ok item s' →
      (item.shownUnreferenced = true ↔ x.canonical.MetadataFromElsewhere x.locations ∧
        x.canonical.implicit = false)) ∧
    (∀ definition x : Symbol, definition.constructedFrom = none → definition.IsConstruction x →
      ¬ x.canonical.MetadataFromElsewhere x.locations) ∧
    ∀ x : Symbol, x.kind.isTupleElement = true →
      ¬ x.canonical.MetadataFromElsewhere x.locations := by
  refine ⟨fun x h => ?_, fun g h => ?_, fun x h => ?_, fun definition x hroot hx => ?_,
    fun x hx => ?_⟩
  · exact shownUnreferenced_iff_of_ok policy notAll h inMetadata
  · exact shownUnreferenced_iff_of_ok policy notAll h inMetadata
  · rw [shownUnreferenced_iff_of_ok policy rfl h inMetadata]
    simp
  · exact Symbol.not_metadataFromElsewhere (hx.locations_canonical hroot)
  · exact Symbol.not_metadataFromElsewhere (by rw [Symbol.canonical_of_tupleElement hx])

/-- The sample class in source and in a compiled module.  If the part in the module comes first, it
is not shown without references. -/
theorem metadata_unreferenced_sample :
    let host : Host Unit := standard (.ofDocument sampleDocument)
    let a : Location := .inSource ⟨⟨0⟩, ⟨6, 12, by decide⟩, false⟩
    let g : SymbolGroup := ⟨samplePart 0 [.inMetadata "Core"], [samplePart 1 [a]]⟩
    ∃ item s', host.groupDefinition .request g true false {} ⟨false, ()⟩ = .ok item s' ∧
      item.isMetadata = true ∧ item.shownUnreferenced = false := by
  intro host a g
  have hitem : ∃ item s', host.groupDefinition .request g true false {} ⟨false, ()⟩ =
      .ok item s' ∧ item.isMetadata = true := ⟨_, _, rfl, rfl⟩
  obtain ⟨item, s', h, inMetadata⟩ := hitem
  have policy : host.showsUnreferenced = standardPolicy := rfl
  have notAll : ({} : SearchOptions).displayAll = false := rfl
  obtain ⟨-, hgroup, -⟩ := metadata_unreferenced policy notAll inMetadata
  refine ⟨item, s', h, inMetadata, Bool.eq_false_iff.mpr fun hshown => ?_⟩
  obtain ⟨⟨hown, -⟩, -⟩ := (hgroup g h).mp hshown
  cases hown

/-- **A module from elsewhere leaves the item shown**: in a group whose first member is in source,
and for a constructed symbol with a location that its definition does not have. -/
theorem metadata_shown_unreferenced :
    let host : Host Unit := standard (.ofDocument sampleDocument)
    let a : Location := .inSource ⟨⟨0⟩, ⟨6, 12, by decide⟩, false⟩
    let part : Symbol := samplePart 0 [a]
    host.showsUnreferenced = standardPolicy ∧ ({} : SearchOptions).displayAll = false ∧
    (∃ item s', host.groupDefinition .request ⟨part, [samplePart 1 [.inMetadata "Core"]]⟩ false
        false {} ⟨false, ()⟩ = .ok item s' ∧
      item.isMetadata = true ∧ item.shownUnreferenced = true) ∧
    ∃ item s', host.classifiedDefinition .request
        { part.construct 1 ["int"] with locations := [a, .inMetadata "Core"] } false false {}
        ⟨false, ()⟩ = .ok item s' ∧
      item.isMetadata = true ∧ item.shownUnreferenced = true := by
  intro host a part
  refine ⟨rfl, rfl, ⟨_, _, rfl, ?_, ?_⟩, ⟨_, _, rfl, ?_, ?_⟩⟩
  all_goals rfl

end Host
end UsageReport

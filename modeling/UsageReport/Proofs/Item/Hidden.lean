/-
# Hidden locations in items

While hidden locations are not wanted, a list of locations can as well be stripped of them
(`Location.withoutHidden`), and then it makes no difference whether they are wanted
(`itemOver_withoutHidden`).  Where they are wanted they can only add spans: those of an item
without them are among those of the item with them, in the same order (`sublist_sourceSpans`).
For hits there is less to say: a hit that gives a reference gives the same one if hidden hits are
wanted (`referenceOver?_of_some`).

All of it comes from one fact about one location: it counts without the hidden ones exactly if it
is not hidden and counts with them (`place?_false`).
-/
import UsageReport.Proofs.Item.Undisturbed
import UsageReport.Proofs.Symbol.Union

namespace UsageReport

/-! ## 1. Lists without hidden locations -/

namespace Location

/-- A source location that is hidden. -/
def isHidden : Location → Bool
  | inSource place => place.hidden
  | inMetadata _ => false
  | nowhere => false

/-- The locations that are not hidden. -/
def withoutHidden (locations : List Location) : List Location := locations.filter (!·.isHidden)

theorem isHidden_of_moduleName? {l : Location} {moduleName : String}
    (h : l.moduleName? = some moduleName) : l.isHidden = false := by
  cases l with
  | inSource place => cases h
  | inMetadata name => rfl
  | nowhere => rfl

/-- The first compiled module is the same without the hidden locations. -/
theorem findSome?_withoutHidden (locations : List Location) :
    (withoutHidden locations).findSome? moduleName? = locations.findSome? moduleName? := by
  induction locations with
  | nil => rfl
  | cons l rest ih =>
    rw [withoutHidden] at ih ⊢
    cases hl : l.isHidden with
    | true =>
      have hm : l.moduleName? = none := by
        cases hm : l.moduleName? with
        | none => rfl
        | some moduleName => simp [isHidden_of_moduleName? hm] at hl
      rw [List.filter_cons_of_neg (by simp [hl]), List.findSome?_cons, hm, ih]
    | false => rw [List.filter_cons_of_pos (by simp [hl]), List.findSome?_cons,
        List.findSome?_cons, ih]

end Location

/-- The symbol without its hidden locations. -/
def Symbol.withoutHidden (s : Symbol) : Symbol :=
  { s with locations := Location.withoutHidden s.locations }

/-- The group without the hidden locations of its members. -/
def SymbolGroup.withoutHidden (g : SymbolGroup) : SymbolGroup :=
  ⟨g.primary.withoutHidden, g.others.map Symbol.withoutHidden⟩

/-- The union of the stripped lists is the stripped union. -/
theorem SymbolGroup.allLocations_withoutHidden (g : SymbolGroup) :
    g.withoutHidden.allLocations = Location.withoutHidden g.allLocations := by
  have hmembers : g.withoutHidden.members = g.members.map Symbol.withoutHidden := rfl
  have hlocations : (g.members.map Symbol.withoutHidden).flatMap Symbol.locations =
      Location.withoutHidden (g.members.flatMap Symbol.locations) := by
    rw [List.flatMap_map, Location.withoutHidden, List.filter_flatMap]
    rfl
  rw [allLocations, hmembers, hlocations, Location.withoutHidden, eraseDups_filter]
  rfl

/-- A symbol stands for itself or for its root definition, stripped or not. -/
theorem Symbol.canonical_withoutHidden (s : Symbol) :
    s.withoutHidden.canonical = s.canonical ∨
      s.canonical = s ∧ s.withoutHidden.canonical = s.withoutHidden := by
  by_cases hkind : s.kind.isTupleElement = true
  · exact .inr ⟨if_pos hkind, if_pos hkind⟩
  · have hcanonical : s.canonical = s.rootDefinition := if_neg hkind
    have hstripped : s.withoutHidden.canonical = s.withoutHidden.rootDefinition := if_neg hkind
    rw [hcanonical, hstripped, rootDefinition_eq s, rootDefinition_eq s.withoutHidden]
    have hfrom : s.withoutHidden.constructedFrom = s.constructedFrom := rfl
    rw [hfrom]
    cases s.constructedFrom with
    | none => exact .inr ⟨rfl, rfl⟩
    | some d => exact .inl rfl

theorem Symbol.kind_canonical_withoutHidden (s : Symbol) :
    s.withoutHidden.canonical.kind = s.canonical.kind := by
  rcases s.canonical_withoutHidden with h | ⟨h, h'⟩
  · rw [h]
  · rw [h, h']
    rfl

namespace Host

variable {σ : Type} {host : Host σ} {preview : Document → TextRange → Preview}

/-! ## 2. Definitions -/

/-- **A location counts without the hidden ones** if it is not hidden and counts with them. -/
theorem place?_false (l : Location) (includeHidden : Bool) :
    host.place? false l = if !l.isHidden then host.place? includeHidden l else none := by
  cases l with
  | nowhere => rfl
  | inMetadata moduleName => rfl
  | inSource place =>
    obtain ⟨file, range, hidden⟩ := place
    cases hidden with
    | true => rfl
    | false => rfl

/-- The locations that count are those that count in the stripped list. -/
theorem filterMap_place?_withoutHidden (includeHidden : Bool) (locations : List Location) :
    (Location.withoutHidden locations).filterMap (host.place? includeHidden) =
      locations.filterMap (host.place? false) := by
  rw [Location.withoutHidden, List.filterMap_filter]
  exact List.filterMap_congr fun l _ => (place?_false l includeHidden).symm

theorem whereabouts_withoutHidden (includeHidden : Bool) (locations : List Location) :
    host.whereabouts includeHidden (Location.withoutHidden locations) =
      host.whereabouts false locations := by
  rw [whereabouts, whereabouts, Location.findSome?_withoutHidden,
    filterMap_place?_withoutHidden]

/-- Whether hidden locations are wanted shows in the whereabouts only. -/
theorem assemble_congr {query query' : DefinitionQuery} (hprimary : query.primary = query'.primary)
    (hoptions : query.options = query'.options) (definition : Symbol) (w : Whereabouts) :
    host.assemble query definition w = host.assemble query' definition w := by
  cases w with
  | metadata moduleName => simp only [assemble, hprimary, hoptions]
  | source spans => cases spans <;> simp only [assemble, hprimary, hoptions]

/-- **The item without hidden locations** is that over the stripped list, whether hidden locations
are wanted there or not. -/
theorem itemOver_withoutHidden (primary previews includeHidden : Bool) (options : SearchOptions)
    (symbol : Symbol) (locations : List Location) :
    host.itemOver preview ⟨primary, includeHidden, previews, options⟩ symbol
        (Location.withoutHidden locations) =
      host.itemOver preview ⟨primary, false, previews, options⟩ symbol locations := by
  rw [itemOver, itemOver, whereabouts_withoutHidden]
  exact assemble_congr rfl rfl _ _

/-- The item of a stripped symbol over a stripped list is at the same spans. -/
theorem sourceSpans_itemOver_withoutHidden (primary previews includeHidden : Bool)
    (options : SearchOptions) (symbol : Symbol) (locations : List Location) :
    (host.itemOver preview ⟨primary, includeHidden, previews, options⟩ symbol.withoutHidden
        (Location.withoutHidden locations)).sourceSpans =
      (host.itemOver preview ⟨primary, false, previews, options⟩ symbol locations).sourceSpans := by
  rw [sourceSpans_itemOver, sourceSpans_itemOver, symbol.kind_canonical_withoutHidden,
    Location.findSome?_withoutHidden, filterMap_place?_withoutHidden]

/-- The item of a stripped symbol is displayed alike if the host displays stripped symbols as it
displays others. -/
theorem displayText_itemOver_withoutHidden
    (hdisplay : ∀ s : Symbol, host.display s.withoutHidden = host.display s)
    (query query' : DefinitionQuery) (symbol : Symbol) (locations locations' : List Location) :
    (host.itemOver preview query symbol.withoutHidden locations).displayText =
      (host.itemOver preview query' symbol locations').displayText := by
  rw [itemOver, itemOver, displayText_assemble, displayText_assemble]
  rcases symbol.canonical_withoutHidden with h | ⟨h, h'⟩
  · rw [h]
  · rw [h, h', hdisplay]

/-- **Hidden locations only add spans.** -/
theorem sublist_sourceSpans (primary previews : Bool) (options : SearchOptions) (symbol : Symbol)
    (locations : List Location) :
    List.Sublist
      (host.itemOver preview ⟨primary, false, previews, options⟩ symbol locations).sourceSpans
      (host.itemOver preview ⟨primary, true, previews, options⟩ symbol locations).sourceSpans := by
  rw [sourceSpans_itemOver, sourceSpans_itemOver]
  split
  · exact .refl _
  · rw [← filterMap_place?_withoutHidden true]
    exact (List.filter_sublist.filterMap _).map _

/-! ## 3. Hits -/

/-- A hit that is not hidden gives the same reference either way. -/
theorem referenceOver?_of_not_hidden {hit : ReferenceHit} (h : hit.location.isHidden = false)
    (definition : DefinitionItem) (includeHidden : Bool) :
    referenceOver? preview hit definition includeHidden =
      referenceOver? preview hit definition false := by
  obtain ⟨document, location, usage, properties, implicit⟩ := hit
  cases location with
  | nowhere => rfl
  | inMetadata moduleName => rfl
  | inSource place =>
    obtain ⟨file, range, hidden⟩ := place
    cases h
    rfl

/-- A hidden hit that is not wanted gives none. -/
theorem referenceOver?_of_hidden {hit : ReferenceHit} (h : hit.location.isHidden = true)
    (definition : DefinitionItem) : referenceOver? preview hit definition false = none := by
  obtain ⟨document, location, usage, properties, implicit⟩ := hit
  cases location with
  | nowhere => rfl
  | inMetadata moduleName => rfl
  | inSource place =>
    obtain ⟨file, range, hidden⟩ := place
    cases h
    rfl

/-- **A hit that gives a reference** gives the same one if hidden hits are wanted. -/
theorem referenceOver?_of_some {hit : ReferenceHit} {definition : DefinitionItem}
    {item : ReferenceItem} (h : referenceOver? preview hit definition false = some item) :
    referenceOver? preview hit definition true = some item := by
  cases hhidden : hit.location.isHidden with
  | true => simp [referenceOver?_of_hidden hhidden] at h
  | false => rwa [referenceOver?_of_not_hidden hhidden]

/-! ## 4. Standard services -/

/-- The standard display of a symbol has nothing to do with its locations. -/
theorem standard_display_withoutHidden (documents : DocumentSource σ) (s : Symbol) :
    (standard documents).display s.withoutHidden = (standard documents).display s := by
  have hcontainers : s.withoutHidden.containers = s.containers := by
    rw [Symbol.containers_eq, Symbol.containers_eq s]
    rfl
  change Display.full s.withoutHidden = Display.full s
  simp only [Display.full, Display.qualifiers, Display.name, Display.shownName,
    Symbol.containingType, hcontainers]
  rfl

end Host
end UsageReport

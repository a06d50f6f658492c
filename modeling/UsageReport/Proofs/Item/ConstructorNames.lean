/-
# Constructors and the names of their types

The item of a constructor has two names across tools, its own and that of its type, so that one can
go to either; in source it can also display what the type is called.  The three are made by three
walks along the containers.  The own name needs every container to have a name; the name of the type
begins at the innermost type and needs what is around that; and what is displayed leaves out
containers without a name.

If the type is the container itself, and the names are documentation ids, the walks agree.  The
constructor has an id if and only if the type has one (`nameable_constructor_iff`), since the only
part that is looked at in one walk and not in the other, the type's own name, has to be there in
both.  Then the two ids have one path between the letter and the segment of the constructor
(`ids_of_constructor`), and no container was left out of the displayed name.

The main statement is `constructor_and_type_named`.
-/
import UsageReport.Host.Standard
import UsageReport.Proofs.Display.QualifiedName
import UsageReport.Proofs.Item.Construction

namespace UsageReport

/-! ## 1. The innermost type -/

/-- `owner` is the innermost type around `s`. -/
def Symbol.IsNearestType (owner s : Symbol) : Prop :=
  ∃ inner outer, s.containers = inner ++ owner :: outer ∧ owner.kind.isType = true ∧
    ∀ c ∈ inner, c.kind.isType = false

theorem Symbol.containingType_eq_some_iff {s owner : Symbol} :
    s.containingType = some owner ↔ owner.IsNearestType s := by
  rw [containingType, List.find?_eq_some_iff_append]
  constructor
  · rintro ⟨htype, inner, outer, hsplit, hinner⟩
    exact ⟨inner, outer, hsplit, htype, fun c hc => by simpa using hinner c hc⟩
  · rintro ⟨inner, outer, hsplit, htype, hinner⟩
    exact ⟨htype, inner, outer, hsplit, fun c hc => by simp [hinner c hc]⟩

theorem Symbol.containingType_of_container {s c : Symbol} (hc : s.container = some c)
    (htype : c.kind.isType = true) : s.containingType = some c := by
  rw [containingType, containers_of_container hc]
  exact List.find?_cons_of_pos htype

/-! ## 2. The ids of a constructor and of its type -/

namespace DocumentationId

variable {s c : Symbol} {kind : SymbolKind}

theorem isConstructor_eq_false_of_type (h : kind.isType = true) : kind.isConstructor = false := by
  cases kind with
  | type kind => rfl
  | _ => cases h

theorem isTupleElement_eq_false_of_type (h : kind.isType = true) :
    kind.isTupleElement = false := by
  cases kind with
  | type kind => rfl
  | _ => cases h

theorem letter?_of_type (h : kind.isType = true) : letter? kind = some "T" := by
  cases kind with
  | type kind => rfl
  | _ => cases h

theorem letter?_of_constructor (h : kind.isConstructor = true) : letter? kind = some "M" := by
  rcases SymbolKind.isConstructor_iff.mp h with rfl | rfl <;> rfl

/-- **A constructor has an id if and only if its type has one.** -/
theorem nameable_constructor_iff (hkind : s.kind.isConstructor = true) (hc : s.container = some c)
    (htype : c.kind.isType = true) : Nameable s ↔ Nameable c := by
  refine ⟨fun h => (h.container_iff hc).mpr (isTupleElement_eq_false_of_type htype), fun h => ?_⟩
  have hmethod : s.kind.isLocal = false ∧ s.kind.isTupleElement = false := by
    rcases SymbolKind.isConstructor_iff.mp hkind with hk | hk <;> rw [hk] <;> exact ⟨rfl, rfl⟩
  have hname : c.name ≠ "" := h.named (isConstructor_eq_false_of_type htype)
  constructor
  case notLocal => exact hmethod.1
  case notElement => exact hmethod.2
  case named => exact fun hnot => absurd hkind (Bool.eq_false_iff.mp hnot)
  case containers =>
    rw [Symbol.containers_of_container hc]
    exact List.forall_mem_cons.mpr ⟨⟨hname, h.notLocal⟩, h.containers⟩

/-- **The ids of a constructor and of its type** have the qualified name of the type in common.
There are both of them or neither. -/
theorem ids_of_constructor (hkind : s.kind.isConstructor = true) (hc : s.container = some c)
    (htype : c.kind.isType = true) :
    (ofSymbol? c = none ∧ ofSymbol? s = none) ∨
      (ofSymbol? c = some ("T:" ++ c.qualifiedName) ∧
        ofSymbol? s = some ("M:" ++ c.qualifiedName ++ "." ++ segment s)) := by
  have hboth : Nameable s ↔ Nameable c := nameable_constructor_iff hkind hc htype
  have hnot : c.kind.isConstructor = false := isConstructor_eq_false_of_type htype
  by_cases h : Nameable c
  · right
    have hpath : path c = c.qualifiedName := h.path_eq_qualifiedName hnot
    have hmember : memberPath c = path c :=
      memberPath_eq_path_iff.mpr (segment_of_not_constructor hnot).symm
    rw [h.ofSymbol?_eq, (hboth.mpr h).ofSymbol?_eq, letter?_of_type htype,
      letter?_of_constructor hkind, path_of_container hc, hmember, hpath, Option.map_some,
      Option.map_some, ← String.append_assoc, ← String.append_assoc]
    exact ⟨rfl, rfl⟩
  · left
    have hs : ¬ Nameable s := fun hs => h (hboth.mp hs)
    rw [← isSome_ofSymbol?_iff] at h hs
    exact ⟨Option.not_isSome_iff_eq_none.mp h, Option.not_isSome_iff_eq_none.mp hs⟩

end DocumentationId

/-! ## 3. What an item says -/

namespace Host

variable {σ : Type} {host : Host σ} {signal : Signal} {query : DefinitionQuery}
  {symbol : Symbol} {locations : List Location} {s s' : Session σ} {item : DefinitionItem}

/-- Only a constructor has the name of a type, that of the innermost one around it. -/
theorem typeName_definitionProperties_iff {definition : Symbol} {primary : Bool} {name : String} :
    (host.definitionProperties definition primary).typeName = some name ↔
      definition.kind.isConstructor = true ∧
      ∃ owner : Symbol, owner.IsNearestType definition ∧
        host.crossReference? owner = some name := by
  simp only [← Symbol.containingType_eq_some_iff]
  rw [definitionProperties]
  cases definition.kind.isConstructor <;> simp [Option.bind_eq_some_iff]

/-- The standard properties say what the innermost type is called, whatever else they say. -/
theorem get?_containerProperties (definition : Symbol) :
    (containerProperties definition).get? containingTypeKey =
      definition.containingType.map Symbol.qualifiedName := by
  have hkeys : containingTypeKey ≠ containingMemberKey := by decide
  have hentry (name : String) :
      (PropertyMap.empty.insert containingTypeKey name).get? containingTypeKey = some name := by
    rw [PropertyMap.get?_insert, if_pos rfl]
  rw [containerProperties]
  cases definition.containingType with
  | none =>
    split
    · split
      · rw [PropertyMap.get?_insert, if_neg hkeys]
        rfl
      · rfl
    · rfl
  | some owner =>
    split
    · split
      · rw [PropertyMap.get?_insert, if_neg hkeys]
        exact hentry _
      · exact hentry _
    · exact hentry _

/-- The names of an item that was made for a constructor, if they are documentation ids. -/
theorem names_of_ok (h : host.definitionItem signal query symbol locations s = .ok item s')
    (ids : host.crossReference? = DocumentationId.ofSymbol?) {owner : Symbol}
    (howner : symbol.canonical.container = some owner) (htype : owner.kind.isType = true)
    (hkind : symbol.canonical.kind.isConstructor = true) :
    item.properties.typeName = DocumentationId.ofSymbol? owner ∧
      item.properties.ownName = DocumentationId.ofSymbol? symbol.canonical := by
  have hproperties := (presents_of_ok h).properties
  rw [hproperties, definitionProperties, ids, hkind,
    Symbol.containingType_of_container howner htype]
  exact ⟨rfl, rfl⟩

/-- What an item in source displays of the innermost type. -/
theorem get?_displayable_of_ok
    (h : host.definitionItem signal query symbol locations s = .ok item s')
    (properties : host.properties = containerProperties) {spans : List DocumentSpan}
    (hsource : item.navigation = .source spans) :
    item.displayable.get? containingTypeKey =
      symbol.canonical.containingType.map Symbol.qualifiedName := by
  rw [(presents_of_ok h).displayable, hsource, properties]
  exact get?_containerProperties symbol.canonical

/-! ## 4. The main statement -/

/-- **The two names of a constructor.**  An item that was made has the name of a type if and only if
it was made for a constructor with a type around it, and the host has a name for the innermost such
type; then it is this name.

If names are documentation ids and the constructor stands in the type itself, the name of the type
has the path that is in front of the segment in the constructor's own name, and there are both
names or neither.  An item in source with the standard properties also displays this path as what
the type is called. -/
theorem constructor_and_type_named
    (h : host.definitionItem signal query symbol locations s = .ok item s') :
    (∀ name, item.properties.typeName = some name ↔
      symbol.canonical.kind.isConstructor = true ∧
      ∃ owner : Symbol, owner.IsNearestType symbol.canonical ∧
        host.crossReference? owner = some name) ∧
    (host.crossReference? = DocumentationId.ofSymbol? →
      ∀ owner segment, symbol.canonical.container = some owner → owner.kind.isType = true →
      (symbol.canonical.kind = .method .constructor ∧ segment = "#ctor" ∨
        symbol.canonical.kind = .method .staticConstructor ∧ segment = "#cctor") →
      (∀ p, item.properties.typeName = some ("T:" ++ p) ↔
        item.properties.ownName = some ("M:" ++ p ++ "." ++ segment)) ∧
      ((item.properties.typeName = none ∧ item.properties.ownName = none) ∨
        ∃ p, item.properties.typeName = some ("T:" ++ p) ∧
          item.properties.ownName = some ("M:" ++ p ++ "." ++ segment) ∧
          ∀ spans, item.navigation = .source spans → host.properties = containerProperties →
            item.displayable.get? containingTypeKey = some p)) := by
  refine ⟨fun name => ?_, fun ids owner segment howner htype hsegment => ?_⟩
  · rw [(presents_of_ok h).properties]
    exact typeName_definitionProperties_iff
  · obtain ⟨hkind, rfl⟩ : symbol.canonical.kind.isConstructor = true ∧
        DocumentationId.segment symbol.canonical = segment := by
      rcases hsegment with ⟨hk, rfl⟩ | ⟨hk, rfl⟩ <;> rw [DocumentationId.segment, hk] <;>
        exact ⟨rfl, rfl⟩
    obtain ⟨htypeName, hownName⟩ := names_of_ok h ids howner htype hkind
    rw [htypeName, hownName]
    rcases DocumentationId.ids_of_constructor hkind howner htype with
      ⟨hnone, hnone'⟩ | ⟨hid, hid'⟩
    · rw [hnone, hnone']
      exact ⟨fun p => by simp, .inl ⟨rfl, rfl⟩⟩
    · rw [hid, hid']
      refine ⟨fun p => ?_, .inr ⟨owner.qualifiedName, rfl, rfl, fun spans hspans hproperties => ?_⟩⟩
      · rw [Option.some_inj, Option.some_inj, String.append_right_inj, String.append_left_inj,
          String.append_left_inj, String.append_right_inj]
      · rw [get?_displayable_of_ok h hproperties hspans,
          Symbol.containingType_of_container howner htype, Option.map_some]

/-- The constructor of a class in a namespace has both names, and displays what its class is called.
The static constructor of a class without a name has neither. -/
theorem constructor_and_type_named_sample :
    let host : Host Unit := standard (.ofDocument sampleDocument)
    let app : Symbol := .new 0 "App" .namespace
    let widget : Symbol :=
      { Symbol.new 1 "Widget" (.type .classType) with container := some app }
    let made : Symbol :=
      { Symbol.new 2 ".ctor" (.method .constructor) with container := some widget }
    let unnamed : Symbol :=
      { Symbol.new 3 "" (.type .structType) with container := some widget }
    let prepared : Symbol :=
      { Symbol.new 4 ".cctor" (.method .staticConstructor) with container := some unnamed }
    (∃ item s', host.definitionItem .request ⟨false, false, true, {}⟩ made sampleLocations
        ⟨false, ()⟩ = .ok item s' ∧
      item.properties.typeName = some "T:App.Widget" ∧
      item.properties.ownName = some "M:App.Widget.#ctor" ∧
      item.displayable.get? containingTypeKey = some "App.Widget") ∧
    ∃ item s', host.definitionItem .request ⟨false, false, true, {}⟩ prepared sampleLocations
        ⟨false, ()⟩ = .ok item s' ∧
      item.properties.typeName = none ∧ item.properties.ownName = none := by
  intro host app widget made unnamed prepared
  have ids : host.crossReference? = DocumentationId.ofSymbol? := rfl
  have hmade : ∃ item s', host.definitionItem .request ⟨false, false, true, {}⟩ made
      sampleLocations ⟨false, ()⟩ = .ok item s' ∧ ∃ spans, item.navigation = .source spans :=
    ⟨_, _, rfl, _, rfl⟩
  have hprepared : ∃ item s', host.definitionItem .request ⟨false, false, true, {}⟩ prepared
      sampleLocations ⟨false, ()⟩ = .ok item s' :=
    ⟨_, _, rfl⟩
  constructor
  · obtain ⟨item, s', h, spans, hspans⟩ := hmade
    obtain ⟨hname, hnames⟩ := constructor_and_type_named h
    have hwidget : item.properties.typeName = some ("T:" ++ "App.Widget") :=
      (hname _).mpr ⟨rfl, widget, ⟨[], [app], rfl, rfl, fun c hc => by cases hc⟩, by decide⟩
    obtain ⟨hiff, hboth⟩ := hnames ids widget "#ctor" rfl rfl (.inl ⟨rfl, rfl⟩)
    refine ⟨item, s', h, hwidget, (hiff _).mp hwidget, ?_⟩
    rcases hboth with ⟨hnone, -⟩ | ⟨p, hp, -, hdisplayed⟩
    · exact absurd (hwidget.symm.trans hnone) (by simp)
    · rw [hdisplayed spans hspans rfl]
      rw [hwidget, Option.some_inj, String.append_right_inj] at hp
      exact congrArg some hp.symm
  · obtain ⟨item, s', h⟩ := hprepared
    obtain ⟨hname, hnames⟩ := constructor_and_type_named h
    obtain ⟨-, hboth⟩ := hnames ids unnamed "#cctor" rfl rfl (.inr ⟨rfl, rfl⟩)
    refine ⟨item, s', h, ?_⟩
    rcases hboth with hneither | ⟨p, hp, -⟩
    · exact hneither
    · -- The innermost type has no name, and so no id.
      obtain ⟨-, owner, howner, hid⟩ := (hname _).mp hp
      obtain rfl : unnamed = owner :=
        Option.some_inj.mp (Symbol.containingType_eq_some_iff.mpr howner)
      have hnone : DocumentationId.ofSymbol? unnamed = none := by decide
      rw [ids, hnone] at hid
      cases hid

end Host
end UsageReport

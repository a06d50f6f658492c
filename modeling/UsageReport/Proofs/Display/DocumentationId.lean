/-
# Documentation ids along a chain of containers

A documentation id is a letter, a colon and a path (`ofSymbol?_eq_some_iff`).  The path has one part
for each container of the symbol, the outermost first, and one for the symbol itself
(`DocumentationId.path`).  But the parts are not of one kind: a container has its name there, and
the symbol its segment.  For most symbols these are the same.  A constructor is the exception.

Which symbols have an id is said by `Nameable`, and here too the symbol itself and its containers
are looked at in different ways: a tuple element has no id, but nothing keeps its members from
having one.

So ids nest, in that the path of a member is the path of its container, a dot and the member's
segment, for every container but these two (`ofSymbol?_nested_iff`).  A member of a tuple element
has an id although its container has none, and the id of a member of a constructor has the
constructor's name where the constructor's own id has `#ctor`.
-/
import UsageReport.Display.DocumentationId

namespace UsageReport

/-- The containers of a member are its container and those of its container. -/
theorem Symbol.containers_of_container {s c : Symbol} (h : s.container = some c) :
    s.containers = c :: c.containers := by
  rw [containers_eq, h]

theorem SymbolKind.isConstructor_iff {kind : SymbolKind} :
    kind.isConstructor = true ↔
      kind = .method .constructor ∨ kind = .method .staticConstructor := by
  cases kind with
  | method kind => cases kind <;> simp [isConstructor]
  | _ => simp [isConstructor]

namespace DocumentationId

/-! ## 1. Paths -/

/-- The names of all containers, the outermost first. -/
def outerNames (s : Symbol) : List String := (s.containers.map Symbol.name).reverse

/-- What stands in an id behind the colon. -/
def path (s : Symbol) : String := ".".intercalate (outerNames s ++ [segment s])

/-- What stands in the ids of a symbol's members in front of their segments. -/
def memberPath (c : Symbol) : String := ".".intercalate (outerNames c ++ [c.name])

/-- **The path of a member** goes on from its container by the segment. -/
theorem path_of_container {s c : Symbol} (h : s.container = some c) :
    path s = memberPath c ++ "." ++ segment s := by
  have houter : outerNames s = outerNames c ++ [c.name] := by
    rw [outerNames, Symbol.containers_of_container h, List.map_cons, List.reverse_cons]
    rfl
  rw [path, houter, String.intercalate_append_of_ne_nil (by simp) (by simp),
    String.intercalate_singleton]
  rfl

/-- Paths with the same beginning end differently unless their last parts are the same. -/
theorem intercalate_append_singleton_inj (parts : List String) {x y : String} :
    ".".intercalate (parts ++ [x]) = ".".intercalate (parts ++ [y]) ↔ x = y := by
  cases parts with
  | nil => simp
  | cons part rest =>
    rw [String.intercalate_append_of_ne_nil (by simp) (by simp),
      String.intercalate_append_of_ne_nil (by simp) (by simp), String.append_right_inj,
      String.intercalate_singleton, String.intercalate_singleton]

/-- Only a constructor has a segment that is not its name. -/
theorem segment_of_not_constructor {s : Symbol} (h : s.kind.isConstructor = false) :
    segment s = s.name := by
  rw [segment]
  split
  · rename_i hkind
    rw [hkind] at h
    cases h
  · rename_i hkind
    rw [hkind] at h
    cases h
  · rfl

theorem segment_ne_empty_of_constructor {s : Symbol} (h : s.kind.isConstructor = true) :
    segment s ≠ "" := by
  rcases SymbolKind.isConstructor_iff.mp h with hkind | hkind
  · have hsegment : segment s = "#ctor" := by rw [segment, hkind]
    rw [hsegment]
    decide
  · have hsegment : segment s = "#cctor" := by rw [segment, hkind]
    rw [hsegment]
    decide

/-- The own path of a container is that of its members if its segment is its name. -/
theorem memberPath_eq_path_iff {c : Symbol} : memberPath c = path c ↔ c.name = segment c :=
  intercalate_append_singleton_inj (outerNames c)

/-! ## 2. Who has an id -/

/-- What a symbol needs for an id. -/
structure Nameable (s : Symbol) : Prop where
  /-- It is no local, no parameter and no type parameter. -/
  notLocal : s.kind.isLocal = false
  notElement : s.kind.isTupleElement = false
  /-- It has a name, except that a constructor does not need one. -/
  named : s.kind.isConstructor = false → s.name ≠ ""
  /-- All its containers have names, and none of them is a local, a parameter or a type
  parameter. -/
  containers : ∀ c ∈ s.containers, c.name ≠ "" ∧ c.kind.isLocal = false

/-- Letters are for what is not local, and each is one character. -/
theorem exists_letter?_iff {kind : SymbolKind} :
    (∃ X : Char, letter? kind = some (String.singleton X)) ↔ kind.isLocal = false := by
  cases kind with
  | «namespace» => exact ⟨fun _ => rfl, fun _ => ⟨'N', rfl⟩⟩
  | type kind => exact ⟨fun _ => rfl, fun _ => ⟨'T', rfl⟩⟩
  | method kind => exact ⟨fun _ => rfl, fun _ => ⟨'M', rfl⟩⟩
  | property => exact ⟨fun _ => rfl, fun _ => ⟨'P', rfl⟩⟩
  | field kind => exact ⟨fun _ => rfl, fun _ => ⟨'F', rfl⟩⟩
  | event => exact ⟨fun _ => rfl, fun _ => ⟨'E', rfl⟩⟩
  | parameter | «local» | typeParameter =>
    refine ⟨fun ⟨X, h⟩ => ?_, fun h => ?_⟩ <;> cases h

theorem segment_ne_empty_iff {s : Symbol} :
    segment s ≠ "" ↔ (s.kind.isConstructor = false → s.name ≠ "") := by
  cases h : s.kind.isConstructor with
  | true => simp [segment_ne_empty_of_constructor h]
  | false => simp [segment_of_not_constructor h]

theorem isUnnameable_eq_false_iff {c : Symbol} :
    isUnnameable c = false ↔ c.name ≠ "" ∧ c.kind.isLocal = false := by
  rw [isUnnameable, Bool.or_eq_false_iff, String.isEmpty_eq_false_iff, and_comm]

/-- **The id of a nameable symbol** is its letter, a colon and its path. -/
theorem Nameable.ofSymbol?_eq {s : Symbol} (h : Nameable s) :
    ofSymbol? s = (letter? s.kind).map fun letter => letter ++ ":" ++ path s := by
  have hcontainers : s.containers.any isUnnameable = false :=
    List.any_eq_false.mpr fun c hc =>
      Bool.eq_false_iff.mp (isUnnameable_eq_false_iff.mpr (h.containers c hc))
  have hsegment : (segment s).isEmpty = false :=
    String.isEmpty_eq_false_iff.mpr (segment_ne_empty_iff.mpr h.named)
  rw [ofSymbol?, h.notElement, hcontainers, hsegment]
  rfl

/-- A symbol with an id is nameable. -/
theorem nameable_of_ofSymbol? {s : Symbol} {id : String} (h : ofSymbol? s = some id) :
    Nameable s := by
  rw [ofSymbol?] at h
  split at h
  · cases h
  · rename_i hnone
    rw [Bool.not_eq_true, Bool.or_eq_false_iff, Bool.or_eq_false_iff] at hnone
    obtain ⟨⟨helement, hcontainers⟩, hsegment⟩ := hnone
    obtain ⟨letter, hletter, -⟩ := Option.map_eq_some_iff.mp h
    constructor
    case notLocal =>
      cases hkind : s.kind with
      | parameter | «local» | typeParameter =>
        rw [hkind] at hletter
        cases hletter
      | «namespace» | type _ | method _ | property | field _ | event => rfl
    case notElement => exact helement
    case named => exact segment_ne_empty_iff.mp (String.isEmpty_eq_false_iff.mp hsegment)
    case containers =>
      intro c hc
      exact isUnnameable_eq_false_iff.mp
        (Bool.eq_false_iff.mpr (List.any_eq_false.mp hcontainers c hc))

/-- An id can be read in one way only: the letter is its first character. -/
theorem colon_inj {X Y : Char} {p q : String} :
    String.singleton X ++ ":" ++ p = String.singleton Y ++ ":" ++ q ↔ X = Y ∧ p = q := by
  rw [← String.toList_inj]
  simp [String.toList_inj]

/-- **Who has an id**, and what it is. -/
theorem ofSymbol?_eq_some_iff {s : Symbol} {X : Char} {p : String} :
    ofSymbol? s = some (String.singleton X ++ ":" ++ p) ↔
      Nameable s ∧ letter? s.kind = some (String.singleton X) ∧ p = path s := by
  constructor
  · intro h
    have hs := nameable_of_ofSymbol? h
    obtain ⟨Y, hletter⟩ := exists_letter?_iff.mpr hs.notLocal
    rw [hs.ofSymbol?_eq, hletter, Option.map_some, Option.some_inj, colon_inj] at h
    obtain ⟨rfl, rfl⟩ := h
    exact ⟨hs, hletter, rfl⟩
  · rintro ⟨hs, hletter, rfl⟩
    rw [hs.ofSymbol?_eq, hletter]
    rfl

theorem isSome_ofSymbol?_iff {s : Symbol} : (ofSymbol? s).isSome ↔ Nameable s := by
  constructor
  · intro h
    obtain ⟨id, hid⟩ := Option.isSome_iff_exists.mp h
    exact nameable_of_ofSymbol? hid
  · intro h
    obtain ⟨X, hletter⟩ := exists_letter?_iff.mpr h.notLocal
    exact Option.isSome_of_eq_some (ofSymbol?_eq_some_iff.mpr ⟨h, hletter, rfl⟩)

/-! ## 3. Members and their containers -/

/-- **The container of a nameable symbol** is nameable, unless it is a tuple element. -/
theorem Nameable.container_iff {s c : Symbol} (h : Nameable s) (hc : s.container = some c) :
    Nameable c ↔ c.kind.isTupleElement = false := by
  have hmem : ∀ d ∈ c :: c.containers, d.name ≠ "" ∧ d.kind.isLocal = false :=
    Symbol.containers_of_container hc ▸ h.containers
  obtain ⟨hname, hlocal⟩ := hmem c List.mem_cons_self
  refine ⟨Nameable.notElement, fun helement => ⟨hlocal, helement, fun _ => hname, ?_⟩⟩
  exact fun d hd => hmem d (List.mem_cons_of_mem _ hd)

/-- **When ids nest.**  The path of a member is always the names of its containers with dots, a dot
and its own segment.  Its container has an id unless it is a tuple element.  The member's path goes
on from the container's id exactly if the container has one and is not a constructor with a name
other than its segment. -/
theorem ofSymbol?_nested_iff {s c : Symbol} (hc : s.container = some c) {X : Char} {p : String}
    (h : ofSymbol? s = some (String.singleton X ++ ":" ++ p)) :
    p = ".".intercalate ((c.containers.map Symbol.name).reverse ++ [c.name]) ++ "." ++
      segment s ∧
    ((ofSymbol? c).isSome ↔ c.kind.isTupleElement = false) ∧
    ((∃ (Y : Char) (q : String), ofSymbol? c = some (String.singleton Y ++ ":" ++ q) ∧
        p = q ++ "." ++ segment s) ↔
      c.kind.isTupleElement = false ∧ (c.kind.isConstructor = true → c.name = segment c)) := by
  obtain ⟨hs, -, rfl⟩ := ofSymbol?_eq_some_iff.mp h
  have hcontainer := hs.container_iff hc
  have hpath : path s = memberPath c ++ "." ++ segment s := path_of_container hc
  refine ⟨hpath, isSome_ofSymbol?_iff.trans hcontainer, ?_⟩
  -- Both paths end in the member's segment, so what is before it has to agree.
  have hnested : path s = path c ++ "." ++ segment s ↔ c.name = segment c := by
    rw [hpath, String.append_left_inj, String.append_left_inj, memberPath_eq_path_iff]
  constructor
  · rintro ⟨Y, q, hid, hq⟩
    obtain ⟨hnameable, -, rfl⟩ := ofSymbol?_eq_some_iff.mp hid
    exact ⟨hnameable.notElement, fun _ => hnested.mp hq⟩
  · rintro ⟨helement, hname⟩
    have hnameable : Nameable c := hcontainer.mpr helement
    obtain ⟨Y, hletter⟩ := exists_letter?_iff.mpr hnameable.notLocal
    refine ⟨Y, path c, ofSymbol?_eq_some_iff.mpr ⟨hnameable, hletter, rfl⟩, hnested.mpr ?_⟩
    cases hconstructor : c.kind.isConstructor with
    | true => exact hname hconstructor
    | false => exact (segment_of_not_constructor hconstructor).symm

/-- The id of a constructor goes on from that of its class.  The id of a method inside of the
constructor goes on from the constructor's name, which is not what the constructor's id ends in.  A
property of a tuple element has an id, and the tuple element has none. -/
theorem ofSymbol?_nested_iff_sample :
    let app : Symbol := .new 0 "App" .namespace
    let widget : Symbol :=
      { Symbol.new 1 "Widget" (.type .classType) with container := some app }
    let made : Symbol :=
      { Symbol.new 2 ".ctor" (.method .constructor) with container := some widget }
    let helper : Symbol :=
      { Symbol.new 3 "Helper" (.method .ordinary) with container := some made }
    let element : Symbol := .new 4 "Item1" (.field .tupleElement)
    let member : Symbol := { Symbol.new 5 "Length" .property with container := some element }
    (∃ (Y : Char) (q : String), ofSymbol? widget = some (String.singleton Y ++ ":" ++ q) ∧
      "App.Widget.#ctor" = q ++ "." ++ segment made) ∧
    (ofSymbol? made = some "M:App.Widget.#ctor" ∧
      ofSymbol? helper = some "M:App.Widget..ctor.Helper" ∧
      ¬ ∃ (Y : Char) (q : String), ofSymbol? made = some (String.singleton Y ++ ":" ++ q) ∧
        "App.Widget..ctor.Helper" = q ++ "." ++ segment helper) ∧
    ofSymbol? member = some "P:Item1.Length" ∧ (ofSymbol? element).isSome = false := by
  intro app widget made helper element member
  have hmade : ofSymbol? made =
      some (String.singleton 'M' ++ ":" ++ "App.Widget.#ctor") := by decide
  have hhelper : ofSymbol? helper =
      some (String.singleton 'M' ++ ":" ++ "App.Widget..ctor.Helper") := by decide
  have hmember : ofSymbol? member =
      some (String.singleton 'P' ++ ":" ++ "Item1.Length") := by decide
  have hcontainer : made.container = some widget := rfl
  have hcontainer' : helper.container = some made := rfl
  have hcontainer'' : member.container = some element := rfl
  obtain ⟨-, -, hnested⟩ := ofSymbol?_nested_iff hcontainer hmade
  obtain ⟨-, -, hbroken⟩ := ofSymbol?_nested_iff hcontainer' hhelper
  obtain ⟨-, hnone, -⟩ := ofSymbol?_nested_iff hcontainer'' hmember
  refine ⟨hnested.mpr ⟨rfl, fun h => by cases h⟩, ⟨hmade, hhelper, fun h => ?_⟩, hmember, ?_⟩
  · have hname : made.name = segment made := (hbroken.mp h).2 rfl
    exact absurd hname (by decide)
  · rw [Bool.eq_false_iff]
    exact fun h => Bool.noConfusion (hnone.mp h)

end DocumentationId
end UsageReport

/-
# All the ways to write a value

What the protocol's types look like on the wire is not one value each.  An object can have its
fields in any order and further fields that nobody asks for, an array can stand for it, and every
record inside can be written in one of these ways in its turn.  The values that say the same as `a`
are the spellings of `a`, and they are defined type by type, along the fields, with no regard to how
a codec reads them (`Spelling.Record`).

All spellings of a record have the same in the slots of its fields (`Spelling.Record.slots`): names
that nobody asks for do not get into them, and neither does the order.
-/
import Mathlib.Data.List.Forall2
import Mathlib.Data.List.Perm.Basic
import UsageReport.Proofs.Wire.Record
import UsageReport.Wire.Types

namespace UsageReport
namespace Wire

/-! ## 1. Spellings of records -/

namespace Spelling

/-- A value spells a record with the field names `known` if it says of the fields what it should.
Fields with a default may be missing behind those that are there. -/
inductive Record (known : List String) (fields : List (String × (Json → Prop))) : Json → Prop where
  /-- The fields by name, among others with unknown names, in any order. -/
  | object {given others entries : List (String × Json)}
      (given_fields : List.Forall₂ (fun e f => e.1 = f.1 ∧ f.2 e.2) given fields)
      (unknown : ∀ e ∈ others, e.1 ∉ known)
      (order : entries.Perm (given ++ others)) : Record known fields (.object entries)
  /-- The values of the fields alone, in the order of the fields. -/
  | array {items : List Json} (given_fields : List.Forall₂ (fun x f => f.2 x) items fields) :
      Record known fields (.array items)

variable {known : List String} {fields : List (String × (Json → Prop))} {value : Json}

/-- An object with the fields and nothing else. -/
theorem Record.of_fields {entries : List (String × Json)}
    (h : List.Forall₂ (fun e f => e.1 = f.1 ∧ f.2 e.2) entries fields) :
    Record known fields (.object entries) :=
  .object h (List.forall_mem_nil _) (by rw [List.append_nil])

/-- A field that is not among the first fields of a record has another name than these. -/
theorem not_mem_of_front {front : List String} {name : String} {i : Nat} (distinct : known.Nodup)
    (h : front <+: known) (hname : known[i]? = some name) (hi : front.length ≤ i) :
    name ∉ front := by
  obtain ⟨rest, rfl⟩ := h
  rw [List.getElem?_append_right hi] at hname
  intro hmem
  exact (List.nodup_append.mp distinct).2.2 name hmem name (List.mem_of_getElem? hname) rfl

/-- **What a record is read from.**  In the slot of a field that is there stands what it should
say, and the slot of a field that is not there is empty. -/
theorem Record.slots (h : Record known fields value) (distinct : known.Nodup)
    (front : fields.map Prod.fst <+: known) :
    ∃ r, value.record? known.length = some r ∧
      (∀ i f, fields[i]? = some f → ∃ x, r.slot? i f.1 = some x ∧ f.2 x) ∧
      ∀ i name, known[i]? = some name → fields.length ≤ i → r.slot? i name = none := by
  cases h with
  | @object given others entries hgiven hunknown horder =>
    have hnames : given.map Prod.fst = fields.map Prod.fst := by
      rw [← List.forall₂_eq_eq_eq, List.forall₂_map_left_iff, List.forall₂_map_right_iff]
      exact hgiven.imp fun _ _ h => h.1
    have hgivenDistinct : (given.map Prod.fst).Nodup := hnames ▸ distinct.sublist front.sublist
    -- An entry with a known name is one of the given ones.
    have hmem : ∀ e ∈ entries, e.1 ∈ known → e ∈ given := fun e he hknown =>
      (List.mem_append.mp (horder.mem_iff.mp he)).resolve_right fun h => hunknown e h hknown
    refine ⟨.named entries, rfl, fun i f hf => ?_, fun i name hname hi => ?_⟩
    · obtain ⟨hi, rfl⟩ := List.getElem?_eq_some_iff.mp hf
      have hi' : i < given.length := hgiven.length_eq ▸ hi
      obtain ⟨hfst, hsays⟩ := hgiven.get hi' hi
      have hfst : given[i].1 = fields[i].1 := hfst
      have hknown : fields[i].1 ∈ known :=
        front.subset (List.mem_map_of_mem (List.getElem_mem hi))
      refine ⟨given[i].2, lookup_of_mem ?_ fun other hother => ?_, hsays⟩
      · rw [← hfst]
        exact horder.mem_iff.mpr (List.mem_append_left _ (List.getElem_mem hi'))
      · have heq := List.inj_on_of_nodup_map hgivenDistinct (hmem _ hother hknown)
          (List.getElem_mem hi') hfst.symm
        exact congrArg Prod.snd heq
    · have hnew : name ∉ fields.map Prod.fst :=
        not_mem_of_front distinct front hname (by simpa using hi)
      refine lookup_eq_none_iff_not_mem.mpr fun h => hnew ?_
      obtain ⟨e, he, rfl⟩ := List.mem_map.mp h
      exact hnames ▸ List.mem_map_of_mem (hmem e he (List.mem_of_getElem? hname))
  | @array items hgiven =>
    have hlength : items.length ≤ known.length := by
      rw [hgiven.length_eq, ← List.length_map (f := Prod.fst)]
      exact front.length_le
    refine ⟨.positional items, if_pos hlength, fun i f hf => ?_, fun i name _ hi => ?_⟩
    · obtain ⟨hi, rfl⟩ := List.getElem?_eq_some_iff.mp hf
      have hi' : i < items.length := hgiven.length_eq ▸ hi
      exact ⟨items[i], List.getElem?_eq_getElem hi', hgiven.get hi' hi⟩
    · exact List.getElem?_eq_none (hgiven.length_eq ▸ hi)

/-! ## 2. Spellings of the protocol's types

Plain values have one spelling. -/

def word (n : UInt32) (value : Json) : Prop := value = .integer n.toNat

def bool (b : Bool) (value : Json) : Prop := value = .bool b

def string (text : String) (value : Json) : Prop := value = .string text

def fileId (id : FileId) : Json → Prop := word id.index

def askedPosition (p : Position) : Json → Prop :=
  Record ["line", "col"] [("line", word p.line), ("col", word p.column)]

def position (p : Position) : Json → Prop :=
  Record ["line", "column"] [("line", word p.line), ("column", word p.column)]

def span (s : Span) : Json → Prop :=
  Record ["start", "end"] [("start", position s.start), ("end", position s.stop)]

def documentPosition (p : DocumentPosition) : Json → Prop :=
  Record ["file", "position"] [("file", fileId p.file), ("position", askedPosition p.position)]

def referenceRequest (q : ReferenceRequest) : Json → Prop :=
  Record ["textDocumentPosition", "includeDeclaration"]
    [("textDocumentPosition", documentPosition q.place),
      ("includeDeclaration", bool q.includeDeclaration)]

def clientCapabilities (c : ClientCapabilities) : Json → Prop :=
  Record ["rich_location_text"] [("rich_location_text", bool c.richText)]

/-- The text of a location, if it is written. -/
def locationText : Option String → Json → Prop
  | some text => string text
  | none => (· = .null)

/-- A missing text may also be left out. -/
def clientLocation (l : ClientLocation) (value : Json) : Prop :=
  Record ["uri", "range", "text"]
      [("uri", string l.uri), ("range", span l.range), ("text", locationText l.text)] value ∨
    l.text = none ∧
      Record ["uri", "range", "text"] [("uri", string l.uri), ("range", span l.range)] value

def searchOptions (o : SearchOptions) : Json → Prop :=
  Record ["associatePropertyReferencesWithSpecificAccessor", "cascade", "explicit",
      "unidirectionalHierarchyCascade", "displayAllDefinitions"]
    [("associatePropertyReferencesWithSpecificAccessor", bool o.specificAccessor),
      ("cascade", bool o.cascade), ("explicit", bool o.explicit),
      ("unidirectionalHierarchyCascade", bool o.unidirectional),
      ("displayAllDefinitions", bool o.displayAll)]

def usageOptions (o : UsageOptions) : Json → Prop :=
  Record ["includeHiddenLocations", "search"]
    [("includeHiddenLocations", bool o.includeHidden), ("search", searchOptions o.search)]

end Spelling

end Wire
end UsageReport

/-
# Constructed symbols

A constructed symbol is the definition that it was made from, with type arguments.  It can be made
into another one again, and so on; `IsConstruction` is any number of such steps.  Each step leaves
all but the type arguments as it was, so what a constructed symbol says of itself is what the
definition says (`locations_eq`, `kind_eq`), and the chain of constructions ends where that of the
definition does (`rootDefinition_eq`).

Whatever a chain consists of, its end is not constructed (`constructedFrom_rootDefinition`).  So the
symbol at the end stands for itself, and for every symbol of the chain that is no tuple element
(`canonical_rootDefinition`).

A symbol can be made from a definition and be given a list of locations of its own all the same.
It is no construction then, and its list says nothing of the definition's.
-/
import UsageReport.Item.DefinitionOfSymbol

namespace UsageReport
namespace Symbol

/-- The second symbol was made from the first by constructions, one after the other, each with type
arguments of its own. -/
inductive IsConstruction (definition : Symbol) : Symbol → Prop where
  | definition : IsConstruction definition definition
  | construct {s : Symbol} (h : IsConstruction definition s) (handle : Nat)
      (typeArguments : List String) : IsConstruction definition (s.construct handle typeArguments)

/-- A tuple element stands for itself. -/
theorem canonical_of_tupleElement {s : Symbol} (h : s.kind.isTupleElement = true) :
    s.canonical = s := if_pos h

theorem canonical_of_not_tupleElement {s : Symbol} (h : ¬ s.kind.isTupleElement = true) :
    s.canonical = s.rootDefinition := if_neg h

/-- A symbol that is not constructed is its own definition. -/
theorem rootDefinition_of_definition {s : Symbol} (h : s.constructedFrom = none) :
    s.rootDefinition = s := by
  rw [Symbol.rootDefinition_eq, h]

/-- The end of a chain is not constructed. -/
theorem constructedFrom_rootDefinition : (s : Symbol) → s.rootDefinition.constructedFrom = none
  | ⟨_, _, _, _, _, _, _, _, none, _⟩ => rfl
  | ⟨_, _, _, _, _, _, _, _, some d, _⟩ => constructedFrom_rootDefinition d
termination_by structural s => s

/-- A symbol that is not constructed stands for itself, whatever its kind. -/
theorem canonical_of_definition {s : Symbol} (h : s.constructedFrom = none) : s.canonical = s := by
  by_cases hkind : s.kind.isTupleElement = true
  · exact canonical_of_tupleElement hkind
  · rw [canonical_of_not_tupleElement hkind, rootDefinition_of_definition h]

/-- **The end of the chain** is canonical for the symbol and for itself, even if it is a tuple
element and the symbol is none. -/
theorem canonical_rootDefinition {s : Symbol} (h : ¬ s.kind.isTupleElement = true) :
    s.rootDefinition.canonical = s.canonical := by
  rw [canonical_of_definition (constructedFrom_rootDefinition s), canonical_of_not_tupleElement h]

namespace IsConstruction

variable {definition s : Symbol} (h : definition.IsConstruction s)

include h

theorem kind_eq : s.kind = definition.kind := by
  induction h with
  | definition => rfl
  | construct h handle typeArguments ih => exact ih

theorem locations_eq : s.locations = definition.locations := by
  induction h with
  | definition => rfl
  | construct h handle typeArguments ih => exact ih

theorem rootDefinition_eq : s.rootDefinition = definition.rootDefinition := by
  induction h with
  | definition => rfl
  | construct h handle typeArguments ih => exact (Symbol.rootDefinition_eq _).trans ih

/-- A construction of a definition that is no tuple element stands for the definition. -/
theorem canonical_eq (hroot : definition.constructedFrom = none)
    (hkind : ¬ definition.kind.isTupleElement = true) : s.canonical = definition := by
  rw [canonical_of_not_tupleElement (h.kind_eq ▸ hkind), h.rootDefinition_eq,
    rootDefinition_of_definition hroot]

/-- **A construction is located where the symbol is that its item is made for.** -/
theorem locations_canonical (hroot : definition.constructedFrom = none) :
    s.canonical.locations = s.locations := by
  by_cases hkind : s.kind.isTupleElement = true
  · rw [canonical_of_tupleElement hkind]
  · rw [canonical_of_not_tupleElement hkind, h.rootDefinition_eq,
      rootDefinition_of_definition hroot, h.locations_eq]

end IsConstruction
end Symbol
end UsageReport

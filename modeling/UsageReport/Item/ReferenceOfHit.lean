/-
# From hits to reference items

A hit becomes an item with a preview, over the document in which it was found.  A hit outside
of source is a mistake of the search and fails, and a hidden hit that is not wanted gives
nothing; both are settled before the signal is looked at.
-/
import UsageReport.Host.Basic
import UsageReport.Item.Reference

namespace UsageReport
namespace Host

variable {σ : Type}

/-- The item of a hit, bound to the item of its definition; `none` for a hidden hit that is not
wanted. -/
def referenceItem? (host : Host σ) (signal : Signal) (hit : ReferenceHit)
    (definition : DefinitionItem) (includeHidden : Bool) : Work σ (Option ReferenceItem) :=
  match hit.location.source? with
  | none => throw .notInSource
  | some place =>
    if place.passes includeHidden then do
      Work.heed signal
      let preview ← host.classify signal hit.document place.range
      return some ⟨definition, ⟨hit.document, place.range, some preview⟩, hit.usage,
        hit.properties⟩
    else return none

end Host
end UsageReport

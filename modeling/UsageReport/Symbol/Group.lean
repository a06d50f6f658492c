/-
# Groups of symbols

Symbols that are shown as one definition: the parts of a partial type, or an interface member
with its implementations.  A group has at least one member, by its type, and the first one
stands for all in the display.  Its locations are the union of the locations of its members,
each one at the place where it first occurs.
-/
import UsageReport.Symbol.Basic

namespace UsageReport

theorem nodup_eraseDups {α : Type} [DecidableEq α] : (xs : List α) → xs.eraseDups.Nodup
  | [] => List.nodup_nil
  | x :: xs => by
    rw [List.eraseDups_cons]
    refine List.nodup_cons.mpr ⟨?_, nodup_eraseDups _⟩
    rw [List.mem_eraseDups]
    simp
termination_by xs => xs.length
decreasing_by exact Nat.lt_succ_of_le (List.length_filter_le _ _)

/-- Symbols shown together as one definition. -/
structure SymbolGroup where
  /-- The member used for display, tags and properties. -/
  primary : Symbol
  others : List Symbol

namespace SymbolGroup

/-- The group of one symbol. -/
def single (s : Symbol) : SymbolGroup := ⟨s, []⟩

/-- The group with these members; `none` if there are none. -/
def ofList? : List Symbol → Option SymbolGroup
  | [] => none
  | s :: rest => some ⟨s, rest⟩

/-- All members, in order. -/
def members (g : SymbolGroup) : List Symbol := g.primary :: g.others

/-- The locations of all members, each one where it first occurs. -/
def allLocations (g : SymbolGroup) : List Location :=
  (g.members.flatMap Symbol.locations).eraseDups

/-- **No location is lost.**  Those of the group are those of its members. -/
theorem mem_allLocations_iff {g : SymbolGroup} {l : Location} :
    l ∈ g.allLocations ↔ ∃ s ∈ g.members, l ∈ s.locations := by
  rw [allLocations, List.mem_eraseDups, List.mem_flatMap]

/-- **No location is repeated.** -/
theorem nodup_allLocations (g : SymbolGroup) : g.allLocations.Nodup := nodup_eraseDups _

end SymbolGroup
end UsageReport

/-
# The union of the locations of a group

`SymbolGroup.allLocations` joins the lists of all members and keeps each location where it first
occurs.  That it loses none and repeats none is said beside its definition.  Here is the order,
and what changes of the group do to the union.

All of it is about `List.eraseDups`, which is easiest to follow from the end of a list: one more
element is kept exactly if it has not occurred yet (`eraseDups_append_singleton`).  So a list keeps
the order of first occurrence (`pairwise_idxOf_eraseDups`), and erasing elements before or after
makes no difference (`eraseDups_filter`).
-/
import Mathlib.Data.List.Basic
import Mathlib.Data.List.Induction
import UsageReport.Symbol.Group

namespace UsageReport

/-! ## 1. Lists without repetitions -/

section

variable {α : Type} [DecidableEq α]

/-- One more element is kept if it is new. -/
theorem eraseDups_append_singleton (xs : List α) (x : α) :
    (xs ++ [x]).eraseDups = if x ∈ xs then xs.eraseDups else xs.eraseDups ++ [x] := by
  rw [List.eraseDups_append]
  split
  · rename_i h
    simp [List.removeAll, h]
  · rename_i h
    simp [List.removeAll, h, List.eraseDups_cons]

/-- Elements that have occurred already add nothing. -/
theorem eraseDups_append_of_subset {xs ys : List α} (h : ∀ y ∈ ys, y ∈ xs) :
    (xs ++ ys).eraseDups = xs.eraseDups := by
  have hnone : ys.removeAll xs = [] := by
    rw [List.removeAll, List.filter_eq_nil_iff]
    intro y hy
    simp [h y hy]
  rw [List.eraseDups_append, hnone, List.eraseDups_nil, List.append_nil]

theorem eraseDups_of_nodup {xs : List α} (h : xs.Nodup) : xs.eraseDups = xs := by
  induction xs using List.reverseRecOn with
  | nil => rfl
  | append_singleton xs x ih =>
    obtain ⟨hxs, -, hdisjoint⟩ := List.nodup_append.mp h
    have hx : x ∉ xs := fun hmem => hdisjoint x hmem x (List.mem_singleton_self x) rfl
    rw [eraseDups_append_singleton, if_neg hx, ih hxs]

/-- **Elements stay in the order of their first occurrences.** -/
theorem pairwise_idxOf_eraseDups (xs : List α) :
    xs.eraseDups.Pairwise fun a b => xs.idxOf a < xs.idxOf b := by
  induction xs using List.reverseRecOn with
  | nil => exact .nil
  | append_singleton xs x ih =>
    have hold {a : α} (ha : a ∈ xs.eraseDups) : (xs ++ [x]).idxOf a = xs.idxOf a :=
      List.idxOf_append_of_mem (List.mem_eraseDups.mp ha)
    have hfront : xs.eraseDups.Pairwise fun a b => (xs ++ [x]).idxOf a < (xs ++ [x]).idxOf b :=
      ih.imp_of_mem fun ha hb hab => by rwa [hold ha, hold hb]
    rw [eraseDups_append_singleton]
    split
    · exact hfront
    · rename_i hx
      refine List.pairwise_append.mpr ⟨hfront, List.pairwise_singleton _ _, ?_⟩
      intro a ha b hb
      rw [List.mem_singleton.mp hb, hold ha, List.idxOf_append_of_notMem hx]
      exact Nat.lt_add_right _ (List.idxOf_lt_length_of_mem (List.mem_eraseDups.mp ha))

/-- Elements can be erased before or after. -/
theorem eraseDups_filter (p : α → Bool) (xs : List α) :
    (xs.filter p).eraseDups = xs.eraseDups.filter p := by
  induction xs using List.reverseRecOn with
  | nil => rfl
  | append_singleton xs x ih =>
    rw [List.filter_append, eraseDups_append_singleton]
    by_cases hp : p x = true
    · have hx : x ∈ xs.filter p ↔ x ∈ xs := by simp [hp]
      rw [List.filter_cons_of_pos hp, List.filter_nil, eraseDups_append_singleton, ih]
      by_cases hmem : x ∈ xs
      · rw [if_pos (hx.mpr hmem), if_pos hmem]
      · rw [if_neg (mt hx.mp hmem), if_neg hmem, List.filter_append,
          List.filter_cons_of_pos hp, List.filter_nil]
    · rw [List.filter_cons_of_neg hp, List.filter_nil, List.append_nil, ih]
      split
      · rfl
      · rw [List.filter_append, List.filter_cons_of_neg hp, List.filter_nil, List.append_nil]

end

/-! ## 2. Groups -/

namespace SymbolGroup

variable {g : SymbolGroup}

/-- The group with some more members behind its own. -/
def append (g : SymbolGroup) (more : List Symbol) : SymbolGroup := ⟨g.primary, g.others ++ more⟩

@[simp] theorem members_append (g : SymbolGroup) (more : List Symbol) :
    (g.append more).members = g.members ++ more := rfl

/-- **Locations are listed in the order of their first occurrences** in the lists of the members,
one after the other. -/
theorem pairwise_allLocations (g : SymbolGroup) :
    g.allLocations.Pairwise fun l l' =>
      (g.members.flatMap Symbol.locations).idxOf l <
        (g.members.flatMap Symbol.locations).idxOf l' :=
  pairwise_idxOf_eraseDups _

/-- Members whose locations are there already add nothing. -/
theorem allLocations_append {more : List Symbol}
    (h : ∀ s ∈ more, ∀ l ∈ s.locations, l ∈ g.allLocations) :
    (g.append more).allLocations = g.allLocations := by
  rw [allLocations, members_append, List.flatMap_append]
  refine eraseDups_append_of_subset fun l hl => ?_
  obtain ⟨s, hs, hl⟩ := List.mem_flatMap.mp hl
  exact List.mem_eraseDups.mp (h s hs l hl)

theorem allLocations_single (s : Symbol) : (single s).allLocations = s.locations.eraseDups := by
  rw [allLocations, members, List.flatMap_cons]
  exact congrArg List.eraseDups (List.append_nil _)

/-- The union is the first member's list, if this list repeats nothing and the others add
nothing. -/
theorem allLocations_eq_primary (hdistinct : g.primary.locations.Nodup)
    (h : ∀ s ∈ g.others, ∀ l ∈ s.locations, l ∈ g.primary.locations) :
    g.allLocations = g.primary.locations := by
  have hsingle : (single g.primary).allLocations = g.primary.locations := by
    rw [allLocations_single, eraseDups_of_nodup hdistinct]
  have hadded : ((single g.primary).append g.others).allLocations = g.primary.locations := by
    rw [allLocations_append (by rwa [hsingle]), hsingle]
  exact hadded

/-- **The order of the members** decides the order of the locations and nothing else. -/
theorem perm_allLocations {g' : SymbolGroup} (h : g'.members.Perm g.members) :
    g'.allLocations.Perm g.allLocations := by
  refine (List.perm_ext_iff_of_nodup g'.nodup_allLocations g.nodup_allLocations).mpr fun l => ?_
  simp only [mem_allLocations_iff, h.mem_iff]

end SymbolGroup
end UsageReport

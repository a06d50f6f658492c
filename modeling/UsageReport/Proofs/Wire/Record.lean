/-
# What stands in a record

An object is a list of entries, and its fields are looked up by name.  If no name comes twice, what
a look-up finds is what is in the list (`lookup_eq_some_iff_mem`), and the order makes no
difference.  The same is said for a single name that may have only one value, whatever names come
twice besides (`lookup_of_mem`); this is what objects with unknown entries need.

The codecs of fields and of plain values are opened here once.
-/
import Mathlib.Data.List.Nodup
import UsageReport.Wire.Json

namespace UsageReport
namespace Wire

/-! ## 1. Entries of an object -/

section Entries

variable {name : String} {value : Json} {entries : List (String × Json)}

theorem mem_of_lookup (h : entries.lookup name = some value) : (name, value) ∈ entries := by
  obtain ⟨before, after, hsplit, -⟩ := List.lookup_eq_some_iff.mp h
  rw [hsplit]
  exact List.mem_append_cons_self

theorem lookup_eq_none_iff_not_mem :
    entries.lookup name = none ↔ name ∉ entries.map Prod.fst := by
  rw [List.lookup_eq_none_iff, List.mem_map]
  constructor
  · rintro h ⟨e, he, rfl⟩
    exact bne_iff_ne.mp (h e he) rfl
  · intro h e he
    exact bne_iff_ne.mpr fun hname => h ⟨e, he, hname.symm⟩

/-- A name that stands for one value only is looked up as this value. -/
theorem lookup_of_mem (h : (name, value) ∈ entries)
    (only : ∀ other, (name, other) ∈ entries → other = value) :
    entries.lookup name = some value := by
  cases hfound : entries.lookup name with
  | none => exact absurd (List.mem_map_of_mem h) (lookup_eq_none_iff_not_mem.mp hfound)
  | some other => rw [only other (mem_of_lookup hfound)]

theorem lookup_eq_some_iff_mem (distinct : (entries.map Prod.fst).Nodup) :
    entries.lookup name = some value ↔ (name, value) ∈ entries := by
  refine ⟨mem_of_lookup, fun h => lookup_of_mem h fun other hother => ?_⟩
  exact congrArg Prod.snd (List.inj_on_of_nodup_map distinct hother h rfl)

section

variable {before after : List (String × Json)}

/-- An entry makes no difference to other names. -/
theorem lookup_insert_of_ne {other : String} (h : name ≠ other) :
    (before ++ (other, value) :: after).lookup name = (before ++ after).lookup name := by
  have hskip : List.lookup name ((other, value) :: after) = after.lookup name := by
    rw [List.lookup_cons, beq_false_of_ne h]
  rw [List.lookup_append, hskip, ← List.lookup_append]

theorem lookup_insert_self (h : name ∉ (before ++ after).map Prod.fst) :
    (before ++ (name, value) :: after).lookup name = some value := by
  have hbefore : before.lookup name = none :=
    lookup_eq_none_iff_not_mem.mpr fun hmem => h (by simp [hmem])
  rw [List.lookup_append, hbefore, Option.none_or, List.lookup_cons_self]

end

end Entries

/-! ## 2. Codecs of plain values and of fields -/

namespace Codec

variable {α : Type} {c : Codec α} {a : α} {value : Json} {slot : Option Json}

theorem decode?_bool_eq_some_iff {b : Bool} : bool.decode? value = some b ↔ value = .bool b := by
  cases value <;> simp [bool]

theorem decode?_string_eq_some_iff {text : String} :
    string.decode? value = some text ↔ value = .string text := by
  cases value <;> simp [string]

theorem decode?_word (n : UInt32) : word.decode? (.integer n.toNat) = some n := by
  have hword : 0 ≤ (n.toNat : Int) ∧ (n.toNat : Int).toNat < UInt32.size :=
    ⟨Int.natCast_nonneg _, n.toNat_lt⟩
  calc word.decode? (.integer n.toNat)
    _ = some (UInt32.ofNat (n.toNat : Int).toNat) := if_pos hword
    _ = some n := by rw [Int.toNat_natCast, UInt32.ofNat_toNat]

end Codec
end Wire
end UsageReport

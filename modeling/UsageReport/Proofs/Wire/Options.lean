/-
# Options over their defaults

Options are written in part: a client says what it wants otherwise than usual and leaves out the
rest.  Every field has its own value or the one of the standard options (`Codec.MergesOver`),
whether the others are there or not, and a field that is there and cannot be read is an error, never
a reason to fall back on the default.

Both kinds of options follow one law, since both are read field by field from the slots of a record
(`Codec.ReadsFields.mergesOver`).  The search options in the usage options are a field like any
other, so what they leave out is settled by their own standard.
-/
import UsageReport.Proofs.Wire.Record
import UsageReport.Wire.Types

namespace UsageReport
namespace Wire

/-! ## 1. Fields of options -/

/-- A field of the options `α`. -/
structure OptionField (α : Type) where
  name : String
  {type : Type}
  codec : Codec type
  get : α → type

section

variable {α : Type} {f : OptionField α} {standard a : α} {given : Json → Prop} {slot : Option Json}

/-- The field is what is given for it, and the same as in the standard options if nothing is. -/
structure OptionField.Merges (f : OptionField α) (standard : α) (given : Json → Prop) (a : α) :
    Prop where
  present : ∀ value, given value → f.codec.decode? value = some (f.get a)
  absent : (∀ value, ¬ given value) → f.get a = f.get standard

/-- A slot has what is given for the field. -/
theorem OptionField.merges_iff (h : ∀ value, given value ↔ slot = some value) :
    f.Merges standard given a ↔ f.codec.withDefault (f.get standard) slot = some (f.get a) := by
  cases slot with
  | none =>
    have hnot : ∀ value, ¬ given value := fun value hgiven => by simpa using (h value).mp hgiven
    refine ⟨fun hmerges => congrArg some (hmerges.absent hnot).symm, fun hread => ?_⟩
    exact ⟨fun value hgiven => absurd hgiven (hnot value), fun _ => (Option.some.inj hread).symm⟩
  | some found =>
    have hfound : given found := (h found).mpr rfl
    refine ⟨fun hmerges => hmerges.present found hfound, fun hread => ?_⟩
    refine ⟨fun value hgiven => ?_, fun hnot => absurd hfound (hnot found)⟩
    rw [← Option.some.inj ((h value).mp hgiven)]
    exact hread

theorem isSome_withDefault_iff {β : Type} {c : Codec β} {default : β}
    (h : ∀ value, given value ↔ slot = some value) :
    (c.withDefault default slot).isSome ↔ ∀ value, given value → (c.decode? value).isSome := by
  cases slot with
  | none => simp [Codec.withDefault, h]
  | some found => simp [Codec.withDefault, h]

end

/-! ## 2. The law of options -/

section

variable {α : Type} {c : Codec α} {standard : α} {fields : List (OptionField α)}

/-- Options with these fields can be given in part, by name or in order.  They can be read if every
given field can, and are the standard options with the given fields replaced. -/
structure Codec.MergesOver (c : Codec α) (standard : α) (fields : List (OptionField α)) :
    Prop where
  object_isSome : ∀ entries : List (String × Json), (entries.map Prod.fst).Nodup →
    ((c.decode? (.object entries)).isSome ↔
      ∀ f ∈ fields, ∀ value, (f.name, value) ∈ entries → (f.codec.decode? value).isSome)
  object : ∀ entries : List (String × Json), (entries.map Prod.fst).Nodup → ∀ a,
    (c.decode? (.object entries) = some a ↔
      ∀ f ∈ fields, f.Merges standard (fun value => (f.name, value) ∈ entries) a)
  array_isSome : ∀ items : List Json,
    ((c.decode? (.array items)).isSome ↔ items.length ≤ fields.length ∧
      ∀ (i : Nat) (f : OptionField α), fields[i]? = some f →
        ∀ value, items[i]? = some value → (f.codec.decode? value).isSome)
  array : ∀ (items : List Json) (a : α),
    (c.decode? (.array items) = some a ↔ items.length ≤ fields.length ∧
      ∀ (i : Nat) (f : OptionField α), fields[i]? = some f →
        f.Merges standard (fun value => items[i]? = some value) a)
  neither : ∀ value : Json, (∀ entries, value ≠ .object entries) → (∀ items, value ≠ .array items) →
    c.decode? value = none

/-- The fields are all there is to the options: each is read from a slot of its own, and they can have
any values. -/
structure Codec.ReadsFields (c : Codec α) (standard : α) (fields : List (OptionField α)) :
    Prop where
  slots : ∀ value a, c.decode? value = some a ↔ ∃ r, value.record? fields.length = some r ∧
    ∀ (i : Nat) (f : OptionField α), fields[i]? = some f →
      f.codec.withDefault (f.get standard) (r.slot? i f.name) = some (f.get a)
  values : ∀ v : Nat → (f : OptionField α) → f.type,
    ∃ a, ∀ (i : Nat) (f : OptionField α), fields[i]? = some f → f.get a = v i f

theorem Codec.ReadsFields.isSome_iff (h : c.ReadsFields standard fields) {value : Json} :
    (c.decode? value).isSome ↔ ∃ r, value.record? fields.length = some r ∧
      ∀ (i : Nat) (f : OptionField α), fields[i]? = some f →
        (f.codec.withDefault (f.get standard) (r.slot? i f.name)).isSome := by
  constructor
  · intro hread
    obtain ⟨a, ha⟩ := Option.isSome_iff_exists.mp hread
    obtain ⟨r, hr, hfields⟩ := (h.slots value a).mp ha
    exact ⟨r, hr, fun i f hf => Option.isSome_iff_exists.mpr ⟨_, hfields i f hf⟩⟩
  · rintro ⟨r, hr, hfields⟩
    obtain ⟨a, ha⟩ := h.values fun i f =>
      (f.codec.withDefault (f.get standard) (r.slot? i f.name)).getD (f.get standard)
    refine Option.isSome_iff_exists.mpr ⟨a, (h.slots value a).mpr ⟨r, hr, fun i f hf => ?_⟩⟩
    obtain ⟨x, hx⟩ := Option.isSome_iff_exists.mp (hfields i f hf)
    rw [ha i f hf, hx, Option.getD_some]

theorem forall_mem_iff_getElem? {P : OptionField α → Prop} :
    (∀ f ∈ fields, P f) ↔ ∀ (i : Nat) (f : OptionField α), fields[i]? = some f → P f := by
  constructor
  · exact fun h i f hf => h f (List.mem_of_getElem? hf)
  · intro h f hf
    obtain ⟨i, hi⟩ := List.mem_iff_getElem?.mp hf
    exact h i f hi

/-- A value that is a record, read through the values given for the fields in it. -/
theorem Codec.ReadsFields.of_record (h : c.ReadsFields standard fields) {value : Json} {r : Record}
    (hr : value.record? fields.length = some r) {given : Nat → OptionField α → Json → Prop}
    (hgiven : ∀ i f x, given i f x ↔ r.slot? i f.name = some x) :
    ((c.decode? value).isSome ↔ ∀ (i : Nat) (f : OptionField α), fields[i]? = some f →
      ∀ x, given i f x → (f.codec.decode? x).isSome) ∧
    ∀ a, (c.decode? value = some a ↔ ∀ (i : Nat) (f : OptionField α), fields[i]? = some f →
      f.Merges standard (given i f) a) := by
  constructor
  · rw [h.isSome_iff]
    simp only [hr, Option.some.injEq, exists_eq_left', isSome_withDefault_iff (hgiven _ _)]
  · intro a
    rw [h.slots]
    simp only [hr, Option.some.injEq, exists_eq_left', OptionField.merges_iff (hgiven _ _)]

theorem Codec.ReadsFields.decode?_eq_none (h : c.ReadsFields standard fields) {value : Json}
    (hr : value.record? fields.length = none) : c.decode? value = none := by
  refine Option.eq_none_iff_forall_ne_some.mpr fun a ha => ?_
  obtain ⟨r, hsome, -⟩ := (h.slots value a).mp ha
  exact absurd hsome (by simp [hr])

/-- **Options that are read from their fields can be given in part.** -/
theorem Codec.ReadsFields.mergesOver (h : c.ReadsFields standard fields) :
    c.MergesOver standard fields where
  object_isSome entries distinct := by
    rw [forall_mem_iff_getElem?]
    exact (h.of_record rfl fun _ _ _ => (lookup_eq_some_iff_mem distinct).symm).1
  object entries distinct a := by
    rw [forall_mem_iff_getElem?]
    exact (h.of_record rfl fun _ _ _ => (lookup_eq_some_iff_mem distinct).symm).2 a
  array_isSome items := by
    by_cases hlength : items.length ≤ fields.length
    · have hr : (Json.array items).record? fields.length = some (.positional items) :=
        if_pos hlength
      exact (h.of_record hr fun _ _ _ => .rfl).1.trans (and_iff_right hlength).symm
    · have hr : (Json.array items).record? fields.length = none := if_neg hlength
      simp [h.decode?_eq_none hr, hlength]
  array items a := by
    by_cases hlength : items.length ≤ fields.length
    · have hr : (Json.array items).record? fields.length = some (.positional items) :=
        if_pos hlength
      exact ((h.of_record hr fun _ _ _ => .rfl).2 a).trans (and_iff_right hlength).symm
    · have hr : (Json.array items).record? fields.length = none := if_neg hlength
      simp [h.decode?_eq_none hr, hlength]
  neither value hobject harray := by
    cases value with
    | object entries => exact absurd rfl (hobject entries)
    | array items => exact absurd rfl (harray items)
    | _ => exact h.decode?_eq_none rfl

end

/-! ## 3. The two kinds of options -/

/-- The fields of the search options, in order. -/
def searchFields : List (OptionField SearchOptions) :=
  [⟨"associatePropertyReferencesWithSpecificAccessor", .bool, SearchOptions.specificAccessor⟩,
    ⟨"cascade", .bool, SearchOptions.cascade⟩,
    ⟨"explicit", .bool, SearchOptions.explicit⟩,
    ⟨"unidirectionalHierarchyCascade", .bool, SearchOptions.unidirectional⟩,
    ⟨"displayAllDefinitions", .bool, SearchOptions.displayAll⟩]

def usageFields : List (OptionField UsageOptions) :=
  [⟨"includeHiddenLocations", .bool, UsageOptions.includeHidden⟩,
    ⟨"search", searchOptions, UsageOptions.search⟩]

theorem forall_getElem?_cons {α : Type*} {a : α} {l : List α} {P : Nat → α → Prop} :
    (∀ (i : Nat) (x : α), (a :: l)[i]? = some x → P i x) ↔
      P 0 a ∧ ∀ (i : Nat) (x : α), l[i]? = some x → P (i + 1) x := by
  constructor
  · exact fun h => ⟨h 0 a rfl, fun i x hx => h (i + 1) x hx⟩
  · rintro ⟨hhead, htail⟩ (_ | i) x hx
    · cases hx
      exact hhead
    · exact htail i x hx

theorem readsFields_searchOptions : searchOptions.ReadsFields {} searchFields where
  slots value o := by
    obtain ⟨specificAccessor, cascade, explicit, unidirectional, displayAll⟩ := o
    simp [searchFields, searchOptions, forall_getElem?_cons, Option.bind_eq_some_iff,
      -Bool.exists_bool]
  values v := by
    refine ⟨⟨v 0 searchFields[0], v 1 searchFields[1], v 2 searchFields[2], v 3 searchFields[3],
      v 4 searchFields[4]⟩, ?_⟩
    simp only [searchFields, forall_getElem?_cons]
    exact ⟨rfl, rfl, rfl, rfl, rfl, fun i f hf => by simp at hf⟩

theorem readsFields_usageOptions : usageOptions.ReadsFields {} usageFields where
  slots value o := by
    obtain ⟨includeHidden, search⟩ := o
    simp [usageFields, usageOptions, forall_getElem?_cons, Option.bind_eq_some_iff]
  values v := by
    refine ⟨⟨v 0 usageFields[0], v 1 usageFields[1]⟩, ?_⟩
    simp only [usageFields, forall_getElem?_cons]
    exact ⟨rfl, rfl, fun i f hf => by simp at hf⟩

/-- **What is left out of the options stays as usual.**  Search options and usage options are read
by one law, from an object or from an array: they are the standard options with the given fields
replaced.  A search goes on to related symbols and counts as asked for by the user unless it is said
otherwise; everything else is off. -/
theorem options_merge_over_standard :
    searchOptions.MergesOver {} searchFields ∧ usageOptions.MergesOver {} usageFields ∧
      ({} : SearchOptions) = ⟨false, true, true, false, false⟩ ∧
      ({} : UsageOptions) = ⟨false, ⟨false, true, true, false, false⟩⟩ :=
  ⟨readsFields_searchOptions.mergesOver, readsFields_usageOptions.mergesOver, rfl, rfl⟩

/-- Search options that are given in part, as the second field of an array, and some that cannot be
read. -/
theorem options_merge_over_standard_sample :
    usageOptions.decode?
        (.array [.bool true, .object [("note", .null), ("cascade", .bool false)]]) =
      some ⟨true, ⟨false, false, true, false, false⟩⟩ ∧
    ¬ (searchOptions.decode? (.object [("explicit", .null)])).isSome := by
  obtain ⟨hsearch, husage, -⟩ := options_merge_over_standard
  have hpartial : searchOptions.decode? (.object [("note", .null), ("cascade", .bool false)]) =
      some ⟨false, false, true, false, false⟩ := by
    rw [hsearch.object _ (by decide)]
    simp only [searchFields, List.forall_mem_cons]
    refine ⟨⟨?_, ?_⟩, ⟨?_, ?_⟩, ⟨?_, ?_⟩, ⟨?_, ?_⟩, ⟨?_, ?_⟩, List.forall_mem_nil _⟩ <;>
      simp [Codec.bool]
  constructor
  · rw [husage.array]
    refine ⟨Nat.le_refl 2, ?_⟩
    simp only [usageFields, forall_getElem?_cons]
    refine ⟨⟨?_, ?_⟩, ⟨?_, ?_⟩, ?_⟩ <;> simp [Codec.bool, hpartial]
  · rw [hsearch.object_isSome _ (by decide)]
    intro h
    have hexplicit := h searchFields[2] (by simp [searchFields]) .null (by simp [searchFields])
    exact absurd hexplicit (by decide)

end Wire
end UsageReport

/-
# Properties in order of insertion

Extensions and searches attach named text values to what they report.  A `PropertyMap` keeps
them in the order in which their names first came: a name written again keeps its place and
takes the new value.  That no name occurs twice is part of the type.

Two maps are compared by what they map, not by their order (`sameContent`).  The order is
still observable through `entries`.
-/

namespace UsageReport

/-- A map from names to text values that remembers the order of insertion. -/
structure PropertyMap where
  entries : List (String × String)
  distinct : (entries.map Prod.fst).Nodup

namespace PropertyMap

/-- Write one entry of a list: in the place of its name if it has one, else at the end. -/
def put (name value : String) : List (String × String) → List (String × String)
  | [] => [(name, value)]
  | (k, v) :: rest => if k = name then (k, value) :: rest else (k, v) :: put name value rest

theorem map_fst_put (name value : String) (entries : List (String × String)) :
    (put name value entries).map Prod.fst =
      if name ∈ entries.map Prod.fst then entries.map Prod.fst
      else entries.map Prod.fst ++ [name] := by
  induction entries with
  | nil => simp [put]
  | cons e rest ih =>
    obtain ⟨k, v⟩ := e
    by_cases hk : k = name
    · simp [put, hk]
    · have hk' : ¬ name = k := fun h => hk h.symm
      by_cases hm : name ∈ rest.map Prod.fst
      · rw [if_pos hm] at ih
        rw [if_pos (by simpa using Or.inr (by simpa using hm))]
        simp [put, hk, ih]
      · rw [if_neg hm] at ih
        rw [if_neg (by simpa [hk'] using hm)]
        simp [put, hk, ih]

theorem nodup_put {name value : String} {entries : List (String × String)}
    (h : (entries.map Prod.fst).Nodup) : ((put name value entries).map Prod.fst).Nodup := by
  rw [map_fst_put]
  split
  · exact h
  · rename_i hm
    exact List.nodup_append.mpr ⟨h, by simp, by rintro a ha b hb rfl; simp_all⟩

/-- Writing an entry gives its name the value, and leaves all other names as they were. -/
theorem lookup_put (name value key : String) (entries : List (String × String)) :
    (put name value entries).lookup key =
      if key = name then some value else entries.lookup key := by
  induction entries with
  | nil =>
    by_cases h : key = name
    · simp [put, h]
    · simp [put, List.lookup_cons, h, beq_false_of_ne h]
  | cons e rest ih =>
    obtain ⟨k, v⟩ := e
    by_cases hk : k = name
    · by_cases h : key = name
      · simp [put, hk, h]
      · simp [put, List.lookup_cons, hk, h, beq_false_of_ne h]
    · by_cases h : key = k
      · simp [put, hk, h]
      · simp [put, List.lookup_cons, hk, ih, beq_false_of_ne h]

/-- The map without entries. -/
def empty : PropertyMap := ⟨[], by simp⟩

/-- The map with `name` set to `value`. -/
def insert (m : PropertyMap) (name value : String) : PropertyMap :=
  ⟨put name value m.entries, nodup_put m.distinct⟩

/-- The map made by writing the entries of a list one after the other. -/
def ofList (entries : List (String × String)) : PropertyMap :=
  entries.foldl (fun m e => m.insert e.1 e.2) empty

/-- The value of a name, if it has one. -/
def get? (m : PropertyMap) (name : String) : Option String := m.entries.lookup name

theorem get?_insert (m : PropertyMap) (name value key : String) :
    (m.insert name value).get? key = if key = name then some value else m.get? key :=
  lookup_put name value key m.entries

/-- Whether two maps give every name the same value, in whatever order they hold them. -/
def sameContent (a b : PropertyMap) : Bool :=
  a.entries.length == b.entries.length && a.entries.all fun e => b.get? e.1 == some e.2

instance : BEq PropertyMap := ⟨sameContent⟩

instance : EmptyCollection PropertyMap := ⟨empty⟩

end PropertyMap
end UsageReport

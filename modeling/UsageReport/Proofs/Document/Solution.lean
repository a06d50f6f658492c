/-
# What a solution keeps in step

A solution has two maps and a counter.  Documents are found by id and ids by path, so every edit
has to change both maps, and each kind of edit comes from the other side: a `set` has a path and
finds the id, a `remove` has an id and finds the path.  `Coherent` says what they keep in step.
The two maps are inverse to each other, they have the same size, and no id has reached the
counter.

One step keeps it (`Coherent.set`, `Coherent.remove`), and so does a whole history
(`Coherent.applyAll`).  A new path is the only thing that moves the counter, so a history of fewer
than 2 ^ 32 edits cannot make it wrap.  With the maps in step, what a path holds is what its last
`set` gave it (`lastSet?_of_document?`).
-/
import Mathlib.Algebra.Group.Nat.Defs
import Mathlib.Data.Finset.Dedup
import Mathlib.Data.Finset.Card
import Mathlib.Data.List.Induction
import UsageReport.Document.Solution

namespace UsageReport
namespace Solution

variable {s : Solution} {id : FileId} {path text : String} {project : Option String}

/-! ## 1. One edit -/

/-- A path that is known keeps its id, and a new one gets the next. -/
theorem fst_set (s : Solution) (path text : String) (project : Option String) :
    (s.set path text project).1 = (s.fileId? path).getD ⟨s.nextId⟩ := by
  rw [set, fileId?]
  split
  · rename_i id hid
    rw [hid]
    rfl
  · rename_i hid
    rw [hid]
    rfl

/-- Only a new path moves the counter. -/
theorem nextId_set (s : Solution) (path text : String) (project : Option String) :
    (s.set path text project).2.nextId =
      if (s.fileId? path).isSome then s.nextId else s.nextId + 1 := by
  rw [set, fileId?]
  split
  · rename_i id hid
    rw [hid]
    rfl
  · rename_i hid
    rw [hid]
    rfl

theorem nextId_remove (s : Solution) (id : FileId) : (s.remove id).2.nextId = s.nextId := by
  rw [remove]
  split <;> rfl

theorem remove_of_none (h : s.document? id = none) : s.remove id = (none, s) := by
  rw [document?] at h
  rw [remove, h]

/-- A removal forgets the path of the document that it removes, and no other. -/
theorem fileId?_remove {d : Document} (h : s.document? id = some d) (path : String) :
    (s.remove id).2.fileId? path = if path = d.path then none else s.fileId? path := by
  rw [document?] at h
  rw [remove, h, fileId?, fileId?]
  dsimp only
  rw [Std.HashMap.getElem?_erase]
  by_cases hpath : path = d.path
  · simp [hpath]
  · simp [hpath, Ne.symm hpath]

/-! ## 2. The invariant -/

/-- The two maps and the counter are in step. -/
structure Coherent (s : Solution) : Prop where
  /-- A document stands under its own id. -/
  id_eq : ∀ {id d}, s.document? id = some d → d.id = id
  /-- The id of a path is the one under which there is a document with that path. -/
  fileId?_iff : ∀ {path id},
    s.fileId? path = some id ↔ ∃ d, s.document? id = some d ∧ d.path = path
  /-- No id has reached the counter. -/
  lt_nextId : ∀ {id d}, s.document? id = some d → id.index < s.nextId
  /-- There are as many documents as paths. -/
  size_eq : s.documents.size = s.ids.size

theorem coherent_empty : empty.Coherent where
  id_eq := by simp [empty, document?]
  fileId?_iff := by simp [empty, document?, fileId?]
  lt_nextId := by simp [empty, document?]
  size_eq := rfl

/-- The path of a document has its id. -/
theorem Coherent.fileId?_path (h : s.Coherent) {d : Document} (hd : s.document? id = some d) :
    s.fileId? d.path = some id := h.fileId?_iff.mpr ⟨d, hd, rfl⟩

/-- The id of a `set` is that of a document with the path, or it is new. -/
theorem Coherent.fst_set_cases (h : s.Coherent) (path text : String) (project : Option String) :
    (∃ d, s.document? (s.set path text project).1 = some d ∧ d.path = path ∧
      s.fileId? path = some (s.set path text project).1) ∨
    (s.fileId? path = none ∧ (s.set path text project).1 = ⟨s.nextId⟩ ∧
      s.document? (s.set path text project).1 = none) := by
  rw [fst_set]
  cases hid : s.fileId? path with
  | some id =>
    obtain ⟨d, hd, hpath⟩ := h.fileId?_iff.mp hid
    exact .inl ⟨d, hd, hpath, rfl⟩
  | none =>
    refine .inr ⟨rfl, rfl, ?_⟩
    rw [Option.eq_none_iff_forall_not_mem]
    intro d hd
    exact absurd (h.lt_nextId hd) (UInt32.lt_irrefl s.nextId)

/-- A document under another id than that of a `set` has another path. -/
theorem Coherent.path_ne (h : s.Coherent) {d : Document} (hd : s.document? id = some d)
    (hid : id ≠ (s.set path text project).1) : d.path ≠ path := by
  rintro rfl
  rw [fst_set, h.fileId?_path hd] at hid
  exact hid rfl

/-- The counter does not wrap at its next step. -/
theorem lt_succ_nextId (hroom : s.nextId.toNat + 1 < 2 ^ 32) : s.nextId < s.nextId + 1 := by
  rw [UInt32.lt_iff_toNat_lt, UInt32.toNat_add, UInt32.toNat_one, Nat.mod_eq_of_lt hroom]
  exact Nat.lt_succ_self _

theorem nextId_le_set (hroom : s.nextId.toNat + 1 < 2 ^ 32) :
    s.nextId ≤ (s.set path text project).2.nextId := by
  rw [nextId_set]
  split
  · exact UInt32.le_refl _
  · exact UInt32.le_of_lt (lt_succ_nextId hroom)

/-- A `set` adds a document exactly when it adds a path. -/
theorem Coherent.size_set (h : s.Coherent) (path text : String) (project : Option String) :
    (s.set path text project).2.documents.size = (s.set path text project).2.ids.size := by
  have hcases := h.fst_set_cases path text project
  rw [Solution.set] at hcases ⊢
  split at hcases
  · rename_i id hid
    have hmem : id ∈ s.documents := by
      rcases hcases with ⟨d, hd, -, -⟩ | ⟨hnone, -, -⟩
      · rw [Std.HashMap.mem_iff_isSome_getElem?]
        exact Option.isSome_of_eq_some hd
      · exact absurd (hid.symm.trans hnone) (Option.some_ne_none id)
    simp only [Std.HashMap.size_insert, if_pos hmem, h.size_eq]
  · rename_i hid
    have hpath : path ∉ s.ids := by
      rw [Std.HashMap.mem_iff_isSome_getElem?, hid]
      exact Bool.false_ne_true
    have hmem : (⟨s.nextId⟩ : FileId) ∉ s.documents := by
      rcases hcases with ⟨d, -, -, hknown⟩ | ⟨-, -, hnone⟩
      · exact absurd (hid.symm.trans hknown) (Option.some_ne_none _).symm
      · rw [Std.HashMap.mem_iff_isSome_getElem?]
        exact Option.not_isSome_iff_eq_none.mpr hnone
    simp only [Std.HashMap.size_insert, if_neg hmem, if_neg hpath, h.size_eq]

/-- **A `set` keeps ids and paths in step**: the path has the id now, and no other id has it. -/
theorem Coherent.fileId?_set_iff (h : s.Coherent) {other : String} :
    (s.set path text project).2.fileId? other = some id ↔
      ∃ d, (s.set path text project).2.document? id = some d ∧ d.path = other := by
  have hcases := h.fst_set_cases path text project
  rw [fileId?_set]
  simp only [document?_set]
  by_cases hid : id = (s.set path text project).1
  · subst hid
    simp only [if_true, Option.some_inj, exists_eq_left']
    by_cases hother : other = path
    · simp [hother]
    · -- The id has no document, or one of the path that is set, so it belongs to no other path.
      refine iff_of_false ?_ (Ne.symm hother)
      rw [if_neg hother, h.fileId?_iff]
      rintro ⟨d, hd, rfl⟩
      rcases hcases with ⟨d', hd', hpath, -⟩ | ⟨-, -, hnone⟩
      · cases hd.symm.trans hd'
        exact hother hpath
      · cases hd.symm.trans hnone
  · simp only [if_neg hid]
    rw [← h.fileId?_iff]
    by_cases hother : other = path
    · subst hother
      rw [if_pos rfl]
      refine iff_of_false (fun heq => hid (Option.some_inj.mp heq).symm) fun heq => hid ?_
      rw [fst_set, heq]
      rfl
    · rw [if_neg hother]

/-- **A `set` keeps the maps and the counter in step.** -/
theorem Coherent.set (h : s.Coherent) (hroom : s.nextId.toNat + 1 < 2 ^ 32)
    (path text : String) (project : Option String) :
    (s.set path text project).2.Coherent where
  id_eq := by
    intro id d hd
    rw [document?_set] at hd
    split at hd
    · cases hd
      rfl
    · exact h.id_eq hd
  fileId?_iff := h.fileId?_set_iff
  lt_nextId := by
    intro id d hd
    rw [document?_set] at hd
    split at hd
    · rename_i hid
      rcases h.fst_set_cases path text project with ⟨d', hd', -, -⟩ | ⟨hnone, hnew, -⟩
      · rw [hid]
        exact UInt32.lt_of_lt_of_le (h.lt_nextId hd') (nextId_le_set hroom)
      · rw [hid, hnew, nextId_set, hnone]
        exact lt_succ_nextId hroom
    · exact UInt32.lt_of_lt_of_le (h.lt_nextId hd) (nextId_le_set hroom)
  size_eq := h.size_set path text project

/-- A removal takes a path with the document. -/
theorem Coherent.size_remove (h : s.Coherent) {d : Document} (hd : s.document? id = some d) :
    (s.remove id).2.documents.size = (s.remove id).2.ids.size := by
  have hmem : id ∈ s.documents := by
    rw [Std.HashMap.mem_iff_isSome_getElem?]
    exact Option.isSome_of_eq_some hd
  have hpath : d.path ∈ s.ids := by
    rw [Std.HashMap.mem_iff_isSome_getElem?]
    exact Option.isSome_of_eq_some (h.fileId?_path hd)
  rw [document?] at hd
  rw [Solution.remove, hd]
  simp only [Std.HashMap.size_erase, if_pos hmem, if_pos hpath, h.size_eq]

/-- **A removal keeps ids and paths in step**: the id goes with its path, and no other path had
it. -/
theorem Coherent.fileId?_remove_iff (h : s.Coherent) {removed : Document}
    (hid : s.document? id = some removed) {other : FileId} :
    (s.remove id).2.fileId? path = some other ↔
      ∃ d, (s.remove id).2.document? other = some d ∧ d.path = path := by
  rw [fileId?_remove hid]
  simp only [document?_remove]
  by_cases hother : other = id
  · subst hother
    simp only [if_true, reduceCtorEq, false_and, exists_false, iff_false]
    split
    · exact (Option.some_ne_none other).symm
    · rename_i hpath
      rw [h.fileId?_iff]
      rintro ⟨d, hd, rfl⟩
      cases hid.symm.trans hd
      exact hpath rfl
  · simp only [if_neg hother]
    rw [← h.fileId?_iff]
    by_cases hpath : path = removed.path
    · subst hpath
      rw [if_pos rfl, h.fileId?_path hid]
      exact iff_of_false (Option.some_ne_none other).symm
        fun heq => hother (Option.some_inj.mp heq).symm
    · rw [if_neg hpath]

/-- A removal gives no id another document. -/
theorem document?_of_remove {other : FileId} {d : Document}
    (hd : (s.remove id).2.document? other = some d) : s.document? other = some d := by
  rw [document?_remove] at hd
  split at hd
  · cases hd
  · exact hd

/-- **A removal keeps the maps and the counter in step.** -/
theorem Coherent.remove (h : s.Coherent) (id : FileId) : (s.remove id).2.Coherent := by
  cases hid : s.document? id with
  | none =>
    rw [remove_of_none hid]
    exact h
  | some removed =>
    refine ⟨fun hd => h.id_eq (document?_of_remove hd), h.fileId?_remove_iff hid, ?_,
      h.size_remove hid⟩
    intro other d hd
    rw [nextId_remove]
    exact h.lt_nextId (document?_of_remove hd)

/-! ## 3. Histories -/

theorem applyAll_cons (s : Solution) (edit : Edit) (edits : List Edit) :
    s.applyAll (edit :: edits) = (s.apply edit).applyAll edits := rfl

theorem applyAll_append (s : Solution) (edits more : List Edit) :
    s.applyAll (edits ++ more) = (s.applyAll edits).applyAll more := List.foldl_append

/-- A document stands under its own id after any history, also where the counter has wrapped. -/
theorem id_eq_of_applyAll {d : Document} (h : ∀ {id d}, s.document? id = some d → d.id = id)
    {edits : List Edit} (hd : (s.applyAll edits).document? id = some d) : d.id = id := by
  induction edits generalizing s with
  | nil => exact h hd
  | cons edit edits ih =>
    rw [applyAll_cons] at hd
    refine ih (fun {id d} hd => ?_) hd
    cases edit with
    | set path text project =>
      rw [Solution.apply, document?_set] at hd
      split at hd
      · cases hd
        rfl
      · exact h hd
    | remove removed =>
      rw [Solution.apply] at hd
      exact h (document?_of_remove hd)

/-- After one `set` there is one document, under the first id. -/
theorem document?_applyAll_set (path text : String) (project : Option String) (id : FileId) :
    (empty.applyAll [.set path text project]).document? id =
      if id = ⟨0⟩ then some ⟨id, path, text, project⟩ else none := by
  have hempty : empty.document? id = none := Std.HashMap.getElem?_empty
  have hfirst : (empty.set path text project).1 = ⟨0⟩ := by
    rw [fst_set, fileId?, empty, Std.HashMap.getElem?_empty]
    rfl
  rw [applyAll, List.foldl_cons, List.foldl_nil, Solution.apply, document?_set, hempty, hfirst]

/-- **One edit keeps the maps and the counter in step**, and moves the counter by one at most. -/
theorem Coherent.apply (h : s.Coherent) (hroom : s.nextId.toNat + 1 < 2 ^ 32) (edit : Edit) :
    (s.apply edit).Coherent ∧ s.nextId ≤ (s.apply edit).nextId ∧
      (s.apply edit).nextId.toNat ≤ s.nextId.toNat + 1 := by
  cases edit with
  | set path text project =>
    refine ⟨h.set hroom path text project, nextId_le_set hroom, ?_⟩
    rw [Solution.apply, nextId_set]
    split
    · exact Nat.le_succ _
    · rw [UInt32.toNat_add, UInt32.toNat_one, Nat.mod_eq_of_lt hroom]
  | remove id =>
    rw [Solution.apply, nextId_remove]
    exact ⟨h.remove id, UInt32.le_refl _, Nat.le_succ _⟩

/-- **A history keeps the maps and the counter in step.** -/
theorem Coherent.applyAll (h : s.Coherent) {edits : List Edit}
    (hroom : s.nextId.toNat + edits.length < 2 ^ 32) :
    (s.applyAll edits).Coherent ∧ s.nextId ≤ (s.applyAll edits).nextId ∧
      (s.applyAll edits).nextId.toNat ≤ s.nextId.toNat + edits.length := by
  induction edits generalizing s with
  | nil => exact ⟨h, UInt32.le_refl _, Nat.le_refl _⟩
  | cons edit edits ih =>
    rw [List.length_cons] at hroom ⊢
    rw [applyAll_cons]
    obtain ⟨hnext, hle, hcount⟩ := h.apply (by omega) edit
    obtain ⟨hlast, hle', hcount'⟩ := ih hnext (by omega)
    exact ⟨hlast, UInt32.le_trans hle hle', by omega⟩

/-- **A history from the beginning**, short enough for the counter. -/
theorem coherent_applyAll {edits : List Edit} (hroom : edits.length < 2 ^ 32) :
    (empty.applyAll edits).Coherent ∧
      (empty.applyAll edits).nextId.toNat ≤ edits.length := by
  have hzero : empty.nextId.toNat = 0 := rfl
  have hroom' : empty.nextId.toNat + edits.length < 2 ^ 32 := by omega
  obtain ⟨hcoherent, -, hcount⟩ := coherent_empty.applyAll hroom'
  exact ⟨hcoherent, by omega⟩

end Solution

/-! ## 4. What a path holds -/

/-- The text and the project that an edit sets for a path. -/
def Edit.content? (path : String) : Edit → Option (String × Option String)
  | .set other text project => if other = path then some (text, project) else none
  | .remove _ => none

/-- The text and the project that the last `set` of a path among some edits gave it. -/
def lastSet? (edits : List Edit) (path : String) : Option (String × Option String) :=
  edits.reverse.findSome? (Edit.content? path)

theorem lastSet?_append_singleton (edits : List Edit) (edit : Edit) (path : String) :
    lastSet? (edits ++ [edit]) path = (edit.content? path).or (lastSet? edits path) := by
  rw [lastSet?, List.reverse_append, List.reverse_singleton, List.singleton_append,
    List.findSome?_cons]
  cases edit.content? path <;> rfl

namespace Solution

/-- **A document holds what the last `set` of its path gave it.** -/
theorem lastSet?_of_document? {edits : List Edit} (hroom : edits.length < 2 ^ 32) {id : FileId}
    {d : Document} (hd : (empty.applyAll edits).document? id = some d) :
    lastSet? edits d.path = some (d.text, d.project) := by
  induction edits using List.reverseRecOn generalizing id d with
  | nil => simp [applyAll, empty, document?] at hd
  | append_singleton edits edit ih =>
    rw [List.length_append, List.length_singleton] at hroom
    have hroom' : edits.length < 2 ^ 32 := by omega
    obtain ⟨hcoherent, -⟩ := coherent_applyAll hroom'
    rw [applyAll_append] at hd
    rw [lastSet?_append_singleton]
    cases edit with
    | set path text project =>
      have hd' : ((empty.applyAll edits).set path text project).2.document? id = some d := hd
      rw [document?_set] at hd'
      split at hd'
      · cases hd'
        simp [Edit.content?]
      · rename_i hid
        have hpath : path ≠ d.path := Ne.symm (hcoherent.path_ne hd' hid)
        rw [Edit.content?, if_neg hpath, Option.none_or]
        exact ih hroom' hd'
    | remove removed =>
      exact ih hroom' (document?_of_remove hd)

/-! ## 5. The main statement -/

/-- There are as many documents as paths that have an id. -/
theorem Coherent.documentCount_eq {s : Solution} (h : s.Coherent) :
    ∃ paths : Finset String, (∀ path, path ∈ paths ↔ (s.fileId? path).isSome) ∧
      s.documentCount = paths.card := by
  refine ⟨s.ids.keys.toFinset, ?_, ?_⟩
  · intro path
    rw [List.mem_toFinset, Std.HashMap.mem_keys, Std.HashMap.mem_iff_isSome_getElem?, fileId?]
  · rw [List.toFinset_card_of_nodup Std.HashMap.nodup_keys, Std.HashMap.length_keys,
      documentCount, h.size_eq]

/-- **Ids and paths of a solution stay in step** through every history of fewer than 2 ^ 32 edits.
A path has an id exactly if the document under that id has the path; every document stands under
its own id and holds what its path was last given; no id has reached the counter.  A `set` puts the
document under the id that it answers with.  A removal gives back the document, forgets its id and
its path and nothing else, and without a document it changes nothing. -/
theorem ids_and_paths_in_step {edits : List Edit} (hroom : edits.length < 2 ^ 32) :
    let s := empty.applyAll edits
    (∀ path id, s.fileId? path = some id ↔ ∃ d, s.document? id = some d ∧ d.path = path) ∧
    (∀ id d, s.document? id = some d →
      d.id = id ∧ lastSet? edits d.path = some (d.text, d.project)) ∧
    (∃ paths : Finset String, (∀ path, path ∈ paths ↔ (s.fileId? path).isSome) ∧
      s.documentCount = paths.card) ∧
    (∀ path id, s.fileId? path = some id → id.index < s.nextId) ∧
    (∀ path text project, (s.set path text project).2.document? (s.set path text project).1 =
      some ⟨(s.set path text project).1, path, text, project⟩) ∧
    (∀ id d, s.document? id = some d →
      let after := (s.remove id).2
      (s.remove id).1 = some d ∧ after.document? id = none ∧ after.fileId? d.path = none ∧
        (∀ other, other ≠ id → after.document? other = s.document? other) ∧
        ∀ path, path ≠ d.path → after.fileId? path = s.fileId? path) ∧
    ∀ id, s.document? id = none → s.remove id = (none, s) := by
  obtain ⟨h, -⟩ := coherent_applyAll hroom
  refine ⟨fun path id => h.fileId?_iff, ?_, h.documentCount_eq, ?_, ?_, ?_,
    fun id => remove_of_none⟩
  · exact fun id d hd => ⟨h.id_eq hd, lastSet?_of_document? hroom hd⟩
  · intro path id hid
    obtain ⟨d, hd, -⟩ := h.fileId?_iff.mp hid
    exact h.lt_nextId hd
  · intro path text project
    rw [document?_set, if_pos rfl]
  · intro id d hd
    refine ⟨(fst_remove _ id).trans hd, ?_, ?_, ?_, ?_⟩
    · rw [document?_remove, if_pos rfl]
    · rw [fileId?_remove hd, if_pos rfl]
    · intro other hother
      rw [document?_remove, if_neg hother]
    · intro path hpath
      rw [fileId?_remove hd, if_neg hpath]

/-- A path that is removed and comes again. -/
def sampleEdits : List Edit :=
  [.set "a" "1" none, .set "b" "2" none, .remove ⟨0⟩, .set "a" "3" (some "p")]

/-- The path that came again has a new id, and a removal takes the path of the other document. -/
theorem ids_and_paths_in_step_sample :
    sampleEdits.length < 2 ^ 32 ∧
      (empty.applyAll sampleEdits).fileId? "a" = some ⟨2⟩ ∧
      ((empty.applyAll sampleEdits).remove ⟨1⟩).2.fileId? "b" = none := by
  have hroom : sampleEdits.length < 2 ^ 32 := by decide
  obtain ⟨hstep, -, -, -, -, hremove, -⟩ := ids_and_paths_in_step hroom
  have ha : (empty.applyAll sampleEdits).document? ⟨2⟩ = some ⟨⟨2⟩, "a", "3", some "p"⟩ := by
    simp [sampleEdits, applyAll, apply, set, remove, empty, document?, Std.HashMap.getElem_insert]
  have hb : (empty.applyAll sampleEdits).document? ⟨1⟩ = some ⟨⟨1⟩, "b", "2", none⟩ := by
    simp [sampleEdits, applyAll, apply, set, remove, empty, document?, Std.HashMap.getElem_insert]
  obtain ⟨-, -, hpath, -⟩ := hremove ⟨1⟩ _ hb
  exact ⟨hroom, (hstep "a" ⟨2⟩).mpr ⟨_, ha, rfl⟩, hpath⟩

end Solution
end UsageReport

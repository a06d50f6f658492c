/-
# Solutions

A solution holds documents, each under an id of its own, and knows the id of each path.  It is
a value: an edit gives a new solution, and who still holds the old one is not affected.

Setting a path that the solution knows replaces the text and keeps the id.  A path that it
does not know gets the next id.  The counter never goes back, so the id of a removed document
is not given to another one, not even to the same path when it comes again.
-/
import UsageReport.Document.Basic
import Std.Data.HashMap

namespace UsageReport

/-- The documents of a workspace at one moment. -/
structure Solution where
  documents : Std.HashMap FileId Document
  /-- The id of each path. -/
  ids : Std.HashMap String FileId
  /-- The id that the next new path gets. -/
  nextId : UInt32

/-- A change of a solution. -/
inductive Edit where
  | set (path text : String) (project : Option String)
  | remove (id : FileId)
deriving DecidableEq

namespace Solution

/-! ## 1. Looking and changing -/

/-- The solution without documents. -/
def empty : Solution := ⟨∅, ∅, 0⟩

/-- The document with an id. -/
def document? (s : Solution) (id : FileId) : Option Document := s.documents[id]?

/-- The id of a path. -/
def fileId? (s : Solution) (path : String) : Option FileId := s.ids[path]?

/-- The number of documents. -/
def documentCount (s : Solution) : Nat := s.documents.size

/-- Add or replace the document of a path; also its id. -/
def set (s : Solution) (path text : String) (project : Option String) : FileId × Solution :=
  match s.ids[path]? with
  | some id => (id, { s with documents := s.documents.insert id ⟨id, path, text, project⟩ })
  | none =>
    let id : FileId := ⟨s.nextId⟩
    (id, {
      documents := s.documents.insert id ⟨id, path, text, project⟩
      ids := s.ids.insert path id
      nextId := s.nextId + 1 })

/-- Remove a document; also the document that was removed, if there was one. -/
def remove (s : Solution) (id : FileId) : Option Document × Solution :=
  match s.documents[id]? with
  | some removed =>
    (some removed, { s with documents := s.documents.erase id, ids := s.ids.erase removed.path })
  | none => (none, s)

/-! ## 2. What a change changes -/

theorem document?_set (s : Solution) (path text : String) (project : Option String)
    (id : FileId) :
    (s.set path text project).2.document? id =
      if id = (s.set path text project).1 then some ⟨id, path, text, project⟩
      else s.document? id := by
  unfold set document?
  split <;> rename_i new _
  · rw [Std.HashMap.getElem?_insert]
    by_cases h : id = new
    · simp [h]
    · simp [h, Ne.symm h]
  · rw [Std.HashMap.getElem?_insert]
    by_cases h : id = ⟨s.nextId⟩
    · simp [h]
    · simp [h, Ne.symm h]

theorem fileId?_set (s : Solution) (path text : String) (project : Option String)
    (other : String) :
    (s.set path text project).2.fileId? other =
      if other = path then some (s.set path text project).1 else s.fileId? other := by
  unfold set fileId?
  split
  · by_cases h : other = path <;> simp_all
  · rw [Std.HashMap.getElem?_insert]
    by_cases h : other = path
    · simp [h]
    · simp [h, Ne.symm h]

@[simp] theorem fst_remove (s : Solution) (id : FileId) : (s.remove id).1 = s.document? id := by
  unfold remove document?
  split <;> simp_all

theorem document?_remove (s : Solution) (id other : FileId) :
    (s.remove id).2.document? other = if other = id then none else s.document? other := by
  unfold remove document?
  split
  · rw [Std.HashMap.getElem?_erase]
    by_cases h : other = id
    · simp [h]
    · simp [h, Ne.symm h]
  · by_cases h : other = id <;> simp_all

/-! ## 3. Histories -/

/-- The solution after one change. -/
def apply (s : Solution) : Edit → Solution
  | .set path text project => (s.set path text project).2
  | .remove id => (s.remove id).2

/-- The solution after some changes, one after the other. -/
def applyAll (s : Solution) (edits : List Edit) : Solution := edits.foldl apply s

end Solution
end UsageReport

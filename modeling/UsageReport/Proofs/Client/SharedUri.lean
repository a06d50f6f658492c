/-
# Documents with one uri

A solution keeps its documents apart by their paths, and a client is told of a document by its uri,
which is a normal form of the path.  The normal form takes different paths together, but only those
of one file.  A file has a name of its own, without a scheme and without a slash in front
(`IsFileName`).  A path can say this name behind any number of slashes, or as a `file` uri
(`Writes`), and all of these paths have the `file` uri (`uri_of_writes`).  Every other path is its
own uri (`uri_cases`).  So two documents have the same uri just if they have the same path or their
paths write the same file (`uri_eq_iff`).

No two documents of a solution have the same path.  This needs less than what a solution keeps in
step: it is enough that the path of each document leads back to its id (`Keyed`), and every edit
keeps that, also where the counter has wrapped.

The main statement (`uri_eq_iff_sameFile`) is about all solutions that can come up, and about what
clients are told: the uri of a location is that of the document it points into, and of no other
document unless both paths write the same file.  That this happens is shown by a solution with three
documents of one uri (`one_uri_for_three`).
-/
import UsageReport.Proofs.Client.StaleSpan

namespace UsageReport
namespace Document

/-! ## 1. Paths of one file -/

/-- The name of a file: no scheme stands in it, and no slash in front of it. -/
structure IsFileName (file : List Char) : Prop where
  no_scheme : ¬ [':', '/', '/'] <:+: file
  no_slash : file.head? ≠ some '/'

/-- A path says the name of a file behind any number of slashes, or as a uri. -/
inductive Writes (file : List Char) : String → Prop where
  | slashes (n : Nat) : Writes file (String.ofList (List.replicate n '/' ++ file))
  | uri : Writes file ("file:///" ++ String.ofList file)

/-- Two paths write the same file. -/
def SameFile (p q : String) : Prop := ∃ file, IsFileName file ∧ Writes file p ∧ Writes file q

/-! ## 2. Uris -/

theorem hasScheme_iff {cs : List Char} : hasScheme cs = true ↔ [':', '/', '/'] <:+: cs := by
  induction cs with
  | nil => simp [hasScheme]
  | cons c cs ih =>
    rw [hasScheme, Bool.or_eq_true, List.isPrefixOf_iff_prefix, ih, List.infix_cons_iff]

/-- A scheme does not begin with a slash, so slashes in front change nothing. -/
theorem hasScheme_slashes (n : Nat) (cs : List Char) :
    hasScheme (List.replicate n '/' ++ cs) = hasScheme cs := by
  induction n with
  | zero => rfl
  | succ n ih =>
    rw [List.replicate_succ, List.cons_append, hasScheme, ih]
    rfl

theorem dropWhile_slashes (n : Nat) {file : List Char} (h : file.head? ≠ some '/') :
    (List.replicate n '/' ++ file).dropWhile (· == '/') = file := by
  rw [List.dropWhile_append_of_pos (by simp)]
  cases file with
  | nil => rfl
  | cons c cs =>
    have hc : (c == '/') = false := by simpa using h
    rw [List.dropWhile_cons, hc]
    rfl

variable {d d' : Document}

/-- **All paths of a file have its `file` uri.** -/
theorem uri_of_writes {file : List Char} (hfile : IsFileName file) (h : Writes file d.path) :
    d.uri = "file:///" ++ String.ofList file := by
  rw [Document.uri]
  generalize d.path = path at h
  cases h with
  | slashes n =>
    have hscheme : hasScheme file = false := by
      rw [← Bool.not_eq_true, hasScheme_iff]
      exact hfile.no_scheme
    rw [String.toList_ofList, hasScheme_slashes, hscheme, dropWhile_slashes n hfile.no_slash]
    rfl
  | uri =>
    have hscheme : hasScheme ("file:///" ++ String.ofList file).toList = true := by
      rw [hasScheme_iff, String.toList_append]
      exact ⟨['f', 'i', 'l', 'e'], '/' :: file, by simp⟩
    rw [hscheme]
    rfl

/-- What is left of a path behind the slashes in front is the name that it writes. -/
theorem writes_dropWhile (path : String) :
    Writes (path.toList.dropWhile (· == '/')) path := by
  have hslashes : path.toList.takeWhile (· == '/') =
      List.replicate (path.toList.takeWhile (· == '/')).length '/' := by
    refine List.eq_replicate_iff.mpr ⟨rfl, fun c hc => ?_⟩
    simpa using List.all_eq_true.mp List.all_takeWhile c hc
  have hpath : Writes (path.toList.dropWhile (· == '/')) _ :=
    .slashes (path.toList.takeWhile (· == '/')).length
  rwa [← hslashes, List.takeWhile_append_dropWhile, String.ofList_toList] at hpath

/-- **A path is its own uri**, or it writes a file. -/
theorem uri_cases (d : Document) :
    d.uri = d.path ∨ ∃ file, IsFileName file ∧ Writes file d.path := by
  by_cases hscheme : hasScheme d.path.toList = true
  · exact .inl (if_pos hscheme)
  · refine .inr ⟨d.path.toList.dropWhile (· == '/'), ⟨?_, ?_⟩, writes_dropWhile d.path⟩
    · exact fun h => hscheme (hasScheme_iff.mpr (h.trans (List.dropWhile_suffix _).isInfix))
    · intro h
      have hhead := List.head?_dropWhile_not (· == '/') d.path.toList
      rw [h] at hhead
      exact absurd hhead (by simp)

/-- **Two documents have the same uri** just if they have the same path or their paths write the
same file. -/
theorem uri_eq_iff : d.uri = d'.uri ↔ d.path = d'.path ∨ SameFile d.path d'.path := by
  constructor
  · intro h
    rcases uri_cases d with huri | ⟨file, hfile, hd⟩
    · rcases uri_cases d' with huri' | ⟨file, hfile, hd'⟩
      · exact .inl (huri.symm.trans (h.trans huri'))
      · rw [huri, uri_of_writes hfile hd'] at h
        exact .inr ⟨file, hfile, h ▸ .uri, hd'⟩
    · rcases uri_cases d' with huri' | ⟨file', hfile', hd'⟩
      · rw [huri', uri_of_writes hfile hd] at h
        exact .inr ⟨file, hfile, hd, h ▸ .uri⟩
      · rw [uri_of_writes hfile hd, uri_of_writes hfile' hd', String.append_right_inj,
          String.ofList_inj] at h
        exact .inr ⟨file, hfile, hd, h ▸ hd'⟩
  · rintro (hpath | ⟨file, hfile, hd, hd'⟩)
    · exact uri_eq_of_path hpath
    · rw [uri_of_writes hfile hd, uri_of_writes hfile hd']

end Document

namespace Solution

open Document

variable {s : Solution} {id id' : FileId} {d d' : Document}

/-! ## 3. Documents of a solution -/

/-- The path of each document leads back to its id. -/
structure Keyed (s : Solution) : Prop where
  fileId?_path : ∀ {id d}, s.document? id = some d → s.fileId? d.path = some id

theorem keyed_empty : empty.Keyed where
  fileId?_path := by simp [empty, document?]

theorem Keyed.set (h : s.Keyed) (path text : String) (project : Option String) :
    (s.set path text project).2.Keyed := by
  refine ⟨fun {id d} hd => ?_⟩
  rw [document?_set] at hd
  rw [fileId?_set]
  split at hd
  · rename_i hid
    cases hd
    rw [if_pos rfl, hid]
  · rename_i hid
    have hpath : d.path ≠ path := by
      rintro rfl
      rw [fst_set, h.fileId?_path hd] at hid
      exact hid rfl
    rw [if_neg hpath, h.fileId?_path hd]

theorem Keyed.remove (h : s.Keyed) (removed : FileId) : (s.remove removed).2.Keyed := by
  refine ⟨fun {id d} hd => ?_⟩
  have hbefore := h.fileId?_path (document?_of_remove hd)
  cases hremoved : s.document? removed with
  | none =>
    rw [remove_of_none hremoved]
    exact hbefore
  | some r =>
    rw [document?_remove] at hd
    have hid : id ≠ removed := by
      rintro rfl
      rw [if_pos rfl] at hd
      cases hd
    have hpath : d.path ≠ r.path := by
      intro hpath
      rw [hpath, h.fileId?_path hremoved] at hbefore
      exact hid (Option.some_inj.mp hbefore).symm
    rw [fileId?_remove hremoved, if_neg hpath]
    exact hbefore

/-- **Every history leaves each document under the id of its path**, however long it is. -/
theorem Keyed.applyAll (h : s.Keyed) (edits : List Edit) : (s.applyAll edits).Keyed := by
  induction edits generalizing s with
  | nil => exact h
  | cons edit edits ih =>
    rw [applyAll_cons]
    cases edit with
    | set path text project => exact ih (h.set path text project)
    | remove removed => exact ih (h.remove removed)

/-- Documents with the same path are the same. -/
theorem Keyed.id_eq_of_path (h : s.Keyed) (hd : s.document? id = some d)
    (hd' : s.document? id' = some d') (hpath : d.path = d'.path) : id = id' := by
  have hid := h.fileId?_path hd
  rw [hpath, h.fileId?_path hd'] at hid
  exact (Option.some_inj.mp hid).symm

/-- Of the documents of a solution, others have the same uri just if the paths write the same
file. -/
theorem Keyed.uri_eq_iff (h : s.Keyed) (hd : s.document? id = some d)
    (hd' : s.document? id' = some d') :
    d.uri = d'.uri ↔ id = id' ∨ SameFile d.path d'.path := by
  rw [Document.uri_eq_iff]
  refine or_congr_left ⟨h.id_eq_of_path hd hd', ?_⟩
  rintro rfl
  cases hd.symm.trans hd'
  rfl

/-! ## 4. What a client can tell -/

/-- A location that a client gets for a span over a document of a solution, plain or rich. -/
inductive Tells (s : Solution) (span : DocumentSpan) (location : ClientLocation) : Prop where
  | plain : span.plainLocation? s = some location → Tells s span location
  | rich (text : Option String) : s.document? span.file = some span.document →
      span.richLocation? text = some location → Tells s span location

/-- A location has the uri of the document under the id of its span. -/
theorem Tells.exists_document {span : DocumentSpan} {location : ClientLocation}
    (h : s.Tells span location) :
    ∃ d, s.document? span.file = some d ∧ location.uri = d.uri := by
  cases h with
  | plain hplain =>
    obtain ⟨d, hd, -⟩ := Option.bind_eq_some_iff.mp hplain
    obtain ⟨huri, -, -⟩ := DocumentSpan.of_plainLocation? hd hplain
    exact ⟨d, hd, huri⟩
  | rich text hd hrich =>
    obtain ⟨range, -, rfl⟩ := Option.map_eq_some_iff.mp hrich
    exact ⟨span.document, hd, rfl⟩

/-- **What a uri tells of a document.**  In every solution that can come up, two documents have
different uris unless their paths write the same file, and then they have the same.  For a client
that means: the uri of a location is that of the document which the location points into, and only
documents whose paths write the same file have it too. -/
theorem uri_eq_iff_sameFile (edits : List Edit) :
    let s := empty.applyAll edits
    (∀ id id' d d', s.document? id = some d → s.document? id' = some d' → id ≠ id' →
      (d.uri = d'.uri ↔ SameFile d.path d'.path)) ∧
    ∀ span location, s.Tells span location →
      ∃ d, s.document? span.file = some d ∧ location.uri = d.uri ∧
        ∀ id' d', s.document? id' = some d' →
          (location.uri = d'.uri ↔ span.file = id' ∨ SameFile d.path d'.path) := by
  have hkeyed := keyed_empty.applyAll edits
  refine ⟨?_, ?_⟩
  · intro id id' d d' hd hd' hne
    rw [hkeyed.uri_eq_iff hd hd', or_iff_right hne]
  · intro span location htells
    obtain ⟨d, hd, huri⟩ := htells.exists_document
    refine ⟨d, hd, huri, fun id' d' hd' => ?_⟩
    rw [huri, hkeyed.uri_eq_iff hd hd']

/-- Three paths of one file. -/
def sampleSpellings : List Edit :=
  [.set "a" "" none, .set "/a" "" none, .set "file:///a" "" none]

theorem document?_sampleSpellings :
    (empty.applyAll sampleSpellings).document? ⟨0⟩ = some ⟨⟨0⟩, "a", "", none⟩ ∧
      (empty.applyAll sampleSpellings).document? ⟨1⟩ = some ⟨⟨1⟩, "/a", "", none⟩ ∧
      (empty.applyAll sampleSpellings).document? ⟨2⟩ = some ⟨⟨2⟩, "file:///a", "", none⟩ := by
  refine ⟨?_, ?_, ?_⟩ <;>
    simp [sampleSpellings, applyAll, apply, set, empty, document?, Std.HashMap.getElem_insert]

/-- The path with a slash in front and the one that is a uri write the same file, so their documents
have the same uri, and the location of a span over the one has the uri of the other. -/
theorem uri_eq_iff_sameFile_sample :
    let b : Document := ⟨⟨1⟩, "/a", "", none⟩
    let c : Document := ⟨⟨2⟩, "file:///a", "", none⟩
    let span : DocumentSpan := ⟨b, ⟨0, 0, by decide⟩, none⟩
    b.uri = c.uri ∧
      ∃ location, span.plainLocation? (empty.applyAll sampleSpellings) = some location ∧
        location.uri = c.uri := by
  intro b c span
  obtain ⟨-, hb, hc⟩ := document?_sampleSpellings
  obtain ⟨hdocuments, hlocations⟩ := uri_eq_iff_sameFile sampleSpellings
  have hsame : SameFile b.path c.path := ⟨['a'], ⟨by decide, by decide⟩, .slashes 1, .uri⟩
  have hsome : (span.plainLocation? (empty.applyAll sampleSpellings)).isSome :=
    (DocumentSpan.isSome_plainLocation?_iff hb).mpr (by decide)
  obtain ⟨location, hlocation⟩ := Option.isSome_iff_exists.mp hsome
  obtain ⟨d, hd, -, huri⟩ := hlocations span location (.plain hlocation)
  cases hb.symm.trans hd
  exact ⟨(hdocuments ⟨1⟩ ⟨2⟩ b c hb hc (by decide)).mpr hsame, location, hlocation,
    (huri ⟨2⟩ c hc).mpr (.inr hsame)⟩

/-- **A uri does not identify a document.**  The solution keeps the three paths apart, and their
documents have one uri, so that a client gets the same location for a span over any of them. -/
theorem one_uri_for_three :
    let s := empty.applyAll sampleSpellings
    let a : Document := ⟨⟨0⟩, "a", "", none⟩
    let b : Document := ⟨⟨1⟩, "/a", "", none⟩
    let c : Document := ⟨⟨2⟩, "file:///a", "", none⟩
    (s.document? ⟨0⟩ = some a ∧ s.document? ⟨1⟩ = some b ∧ s.document? ⟨2⟩ = some c) ∧
      (a.uri = "file:///a" ∧ b.uri = "file:///a" ∧ c.uri = "file:///a") ∧
      ∃ location, ∀ d ∈ [a, b, c],
        (⟨d, ⟨0, 0, by decide⟩, none⟩ : DocumentSpan).plainLocation? s = some location := by
  have hdocuments := document?_sampleSpellings
  refine ⟨hdocuments, ⟨by decide, by decide, by decide⟩, ?_⟩
  obtain ⟨ha, hb, hc⟩ := hdocuments
  refine ⟨⟨"file:///a", ⟨⟨0, 0⟩, ⟨0, 0⟩⟩, none⟩, ?_⟩
  simp only [List.forall_mem_cons, DocumentSpan.plainLocation?, DocumentSpan.file, ha, hb, hc]
  decide

end Solution
end UsageReport

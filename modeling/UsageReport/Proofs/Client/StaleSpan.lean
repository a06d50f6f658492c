/-
# Spans that outlive their document

A span is made over a document of a solution, and a client is told of it when the solution may
have moved on.  Then only the id connects the two.  What makes this safe is the life of an id:

* while its document is not removed, an id stands for the path that it was given for
  (`document?_applyAll_of_some`), whatever is set in between;
* an id whose document has been removed stands for nothing for ever, because the counter has
  passed it (`document?_applyAll_of_none`), even if its path comes again.

So the location of a span in a later solution is in the file that the span was made for, or there
is none (`stale_span_location`).  There is one exactly if the document has not been removed since
and the range still fits into the text, and line and column are those of the text as it is now.
-/
import UsageReport.Client.Location
import UsageReport.Proofs.Document.Lines
import UsageReport.Proofs.Document.Solution

namespace UsageReport
namespace Solution

variable {s : Solution} {id : FileId}

/-! ## 1. The life of an id -/

/-- An id that has been given away and has no document gets none by an edit. -/
theorem Coherent.document?_apply_of_none (h : s.Coherent) (hgiven : id.index < s.nextId)
    (hnone : s.document? id = none) (edit : Edit) : (s.apply edit).document? id = none := by
  cases edit with
  | set path text project =>
    have hid : id ≠ (s.set path text project).1 := by
      rintro rfl
      rcases h.fst_set_cases path text project with ⟨d, hd, -, -⟩ | ⟨-, hnew, -⟩
      · cases hnone.symm.trans hd
      · rw [hnew] at hgiven
        exact UInt32.lt_irrefl _ hgiven
    rw [Solution.apply, document?_set, if_neg hid, hnone]
  | remove removed =>
    rw [Solution.apply, document?_remove, hnone, ite_self]

/-- **An id without a document stays without one**, once it has been given away. -/
theorem Coherent.document?_applyAll_of_none (h : s.Coherent) {edits : List Edit}
    (hroom : s.nextId.toNat + edits.length < 2 ^ 32) (hgiven : id.index < s.nextId)
    (hnone : s.document? id = none) : (s.applyAll edits).document? id = none := by
  induction edits generalizing s with
  | nil => exact hnone
  | cons edit edits ih =>
    rw [List.length_cons] at hroom
    obtain ⟨hnext, hle, hcount⟩ := h.apply (by omega) edit
    exact ih hnext (by omega) (UInt32.lt_of_lt_of_le hgiven hle)
      (h.document?_apply_of_none hgiven hnone edit)

/-- An edit that does not remove a document leaves one with its path under its id. -/
theorem Coherent.document?_apply_of_some (h : s.Coherent) {d : Document}
    (hd : s.document? id = some d) {edit : Edit} (hedit : edit ≠ .remove id) :
    ∃ d', (s.apply edit).document? id = some d' ∧ d'.path = d.path := by
  cases edit with
  | set path text project =>
    rw [Solution.apply, document?_set]
    split
    · rename_i hid
      rw [hid] at hd
      rcases h.fst_set_cases path text project with ⟨d', hd', hpath, -⟩ | ⟨-, -, hnone⟩
      · cases hd.symm.trans hd'
        exact ⟨_, rfl, hpath.symm⟩
      · cases hd.symm.trans hnone
    · exact ⟨d, hd, rfl⟩
  | remove removed =>
    have hid : id ≠ removed := fun heq => hedit (congrArg Edit.remove heq.symm)
    rw [Solution.apply, document?_remove, if_neg hid]
    exact ⟨d, hd, rfl⟩

/-- **An id stands for its path until its document is removed**, and from then on for nothing. -/
theorem Coherent.document?_applyAll_of_some (h : s.Coherent) {edits : List Edit}
    (hroom : s.nextId.toNat + edits.length < 2 ^ 32) {d : Document}
    (hd : s.document? id = some d) :
    if .remove id ∈ edits then (s.applyAll edits).document? id = none
    else ∃ d', (s.applyAll edits).document? id = some d' ∧ d'.path = d.path := by
  induction edits generalizing s d with
  | nil => exact ⟨d, hd, rfl⟩
  | cons edit edits ih =>
    rw [List.length_cons] at hroom
    obtain ⟨hnext, hle, hcount⟩ := h.apply (by omega) edit
    have hroom' : (s.apply edit).nextId.toNat + edits.length < 2 ^ 32 := by omega
    rw [applyAll_cons]
    by_cases hedit : edit = .remove id
    · have hgone : (s.apply edit).document? id = none := by
        rw [hedit, Solution.apply, document?_remove, if_pos rfl]
      rw [if_pos (hedit ▸ List.mem_cons_self)]
      exact hnext.document?_applyAll_of_none hroom'
        (UInt32.lt_of_lt_of_le (h.lt_nextId hd) hle) hgone
    · obtain ⟨d', hd', hpath⟩ := h.document?_apply_of_some hd hedit
      have hmem : .remove id ∈ edit :: edits ↔ .remove id ∈ edits := by
        rw [List.mem_cons, or_iff_right (Ne.symm hedit)]
      have hlater := ih hnext hroom' hd'
      rw [hpath] at hlater
      simp only [hmem]
      exact hlater

end Solution

/-! ## 2. Locations of stale spans -/

/-- A document tells its path by its uri, and nothing else. -/
theorem Document.uri_eq_of_path {d d' : Document} (h : d.path = d'.path) : d.uri = d'.uri := by
  rw [uri, uri, h]

section

variable {span : DocumentSpan} {s : Solution} {d : Document}

/-- Where the document of a span is there, the range decides. -/
theorem DocumentSpan.isSome_plainLocation?_iff (hd : s.document? span.file = some d) :
    (span.plainLocation? s).isSome ↔ span.range.stop ≤ d.length := by
  rw [plainLocation?, hd, Option.bind_some, Option.isSome_map]
  exact Document.isSome_span?_iff

/-- A location is in the document that is there now. -/
theorem DocumentSpan.of_plainLocation? (hd : s.document? span.file = some d)
    {location : ClientLocation} (h : span.plainLocation? s = some location) :
    location.uri = d.uri ∧ d.span? span.range = some location.range ∧ location.text = none := by
  rw [plainLocation?, hd, Option.bind_some, Option.map_eq_some_iff] at h
  obtain ⟨range, hrange, rfl⟩ := h
  exact ⟨rfl, hrange, rfl⟩

end

namespace Solution

variable {s : Solution} {later : List Edit}

/-- A span whose document has been removed since has no location. -/
theorem Coherent.plainLocation?_of_removed (h : s.Coherent)
    (hroom : s.nextId.toNat + later.length < 2 ^ 32) {id : FileId} {span : DocumentSpan}
    (hspan : s.document? id = some span.document) (hmem : .remove id ∈ later) :
    span.plainLocation? (s.applyAll later) = none := by
  have hfile : span.file = id := h.id_eq hspan
  have hgone := h.document?_applyAll_of_some hroom hspan
  rw [if_pos hmem] at hgone
  rw [DocumentSpan.plainLocation?, hfile, hgone, Option.bind_none]

/-- **A span whose document has not been removed since** is a range of the text that is now under
the path of the document. -/
theorem Coherent.plainLocation?_of_kept (h : s.Coherent)
    (hroom : s.nextId.toNat + later.length < 2 ^ 32) {id : FileId} {span : DocumentSpan}
    (hspan : s.document? id = some span.document) (hmem : .remove id ∉ later) :
    ∃ d, (s.applyAll later).document? id = some d ∧ d.path = span.document.path ∧
      ((span.plainLocation? (s.applyAll later)).isSome ↔ span.range.stop ≤ d.length) ∧
      ∀ location, span.plainLocation? (s.applyAll later) = some location →
        location.uri = span.document.uri ∧ d.span? span.range = some location.range ∧
          location.text = none := by
  have hfile : span.file = id := h.id_eq hspan
  have hlife := h.document?_applyAll_of_some hroom hspan
  rw [if_neg hmem, ← hfile] at hlife
  obtain ⟨d, hd, hpath⟩ := hlife
  refine ⟨d, hfile ▸ hd, hpath, DocumentSpan.isSome_plainLocation?_iff hd, ?_⟩
  intro location hlocation
  obtain ⟨huri, hrange, htext⟩ := DocumentSpan.of_plainLocation? hd hlocation
  exact ⟨huri.trans (Document.uri_eq_of_path hpath), hrange, htext⟩

/-- **An id never stands for another path** than the one it was given for. -/
theorem Coherent.path_of_document?_applyAll (h : s.Coherent)
    (hroom : s.nextId.toNat + later.length < 2 ^ 32) {path : String} {id : FileId} {d : Document}
    (hid : s.fileId? path = some id) (hd : (s.applyAll later).document? id = some d) :
    d.path = path := by
  obtain ⟨d', hd', rfl⟩ := h.fileId?_iff.mp hid
  have hlife := h.document?_applyAll_of_some hroom hd'
  split at hlife
  · cases hlife.symm.trans hd
  · obtain ⟨d'', hd'', hpath⟩ := hlife
    cases hd''.symm.trans hd
    exact hpath

/-- **A stale span never lands in another file.**  Let a span be made over a document of a
solution, and let the solution move on.  The span has a location in the later solution exactly if
the document has not been removed since and the range fits into the text as it is now.  The
location is in the file that the span was made for, at the lines and columns of the text as it is
now.  For the ids themselves that means: an id stands for one path for ever, a `set` of a known
path keeps the id, and behind a removal the id stands for nothing. -/
theorem stale_span_location {earlier later : List Edit}
    (hroom : (earlier ++ later).length < 2 ^ 32) :
    let before := empty.applyAll earlier
    let after := before.applyAll later
    (∀ (id : FileId) (span : DocumentSpan), before.document? id = some span.document →
      if .remove id ∈ later then span.plainLocation? after = none
      else
        ∃ d, after.document? id = some d ∧ d.path = span.document.path ∧
          ((span.plainLocation? after).isSome ↔ span.range.stop ≤ d.length) ∧
          ∀ location, span.plainLocation? after = some location →
            location.uri = span.document.uri ∧ d.span? span.range = some location.range ∧
              location.text = none) ∧
    (∀ path id d, before.fileId? path = some id → after.document? id = some d →
      d.path = path) ∧
    (∀ path text project id, before.fileId? path = some id →
      (before.set path text project).1 = id ∧
        (before.set path text project).2.fileId? path = some id) ∧
    ∀ id, (before.document? id).isSome → .remove id ∈ later → after.document? id = none := by
  intro before after
  rw [List.length_append] at hroom
  have hroom' : earlier.length < 2 ^ 32 := by omega
  obtain ⟨hbefore, hcount⟩ := coherent_applyAll hroom'
  have hlater : before.nextId.toNat + later.length < 2 ^ 32 :=
    Nat.lt_of_le_of_lt (Nat.add_le_add_right hcount later.length) hroom
  refine ⟨?_, ?_, ?_, ?_⟩
  · intro id span hspan
    split
    · rename_i hmem
      exact hbefore.plainLocation?_of_removed hlater hspan hmem
    · rename_i hmem
      exact hbefore.plainLocation?_of_kept hlater hspan hmem
  · exact fun path id d hid hd => hbefore.path_of_document?_applyAll hlater hid hd
  · intro path text project id hid
    have hfst : (before.set path text project).1 = id := by
      rw [fst_set, hid]
      rfl
    rw [fileId?_set, if_pos rfl, hfst]
    exact ⟨rfl, rfl⟩
  · intro id hid hmem
    obtain ⟨d, hd⟩ := Option.isSome_iff_exists.mp hid
    have hlife := hbefore.document?_applyAll_of_some hlater hd
    rwa [if_pos hmem] at hlife

/-- Two documents, of which one gets a shorter text and the other is removed and comes again. -/
def sampleEarlier : List Edit := [.set "a" "one\ntwo" none, .set "b" "x" none]

def sampleLater : List Edit := [.set "a" "1\n2" none, .remove ⟨1⟩, .set "b" "x" none]

/-- What still fits into the shorter text has a location, what does not has none, and neither has
a span over the document that was removed. -/
theorem stale_span_location_sample :
    let a : Document := ⟨⟨0⟩, "a", "one\ntwo", none⟩
    let b : Document := ⟨⟨1⟩, "b", "x", none⟩
    let after := (empty.applyAll sampleEarlier).applyAll sampleLater
    ((⟨a, ⟨2, 3, by decide⟩, none⟩ : DocumentSpan).plainLocation? after).isSome ∧
      ¬ ((⟨a, ⟨2, 7, by decide⟩, none⟩ : DocumentSpan).plainLocation? after).isSome ∧
      (⟨b, ⟨0, 1, by decide⟩, none⟩ : DocumentSpan).plainLocation? after = none := by
  have hroom : (sampleEarlier ++ sampleLater).length < 2 ^ 32 := by decide
  obtain ⟨hspan, -⟩ := stale_span_location hroom
  have ha : (empty.applyAll sampleEarlier).document? ⟨0⟩ = some ⟨⟨0⟩, "a", "one\ntwo", none⟩ := by
    simp [sampleEarlier, applyAll, apply, set, empty, document?, Std.HashMap.getElem_insert]
  have hb : (empty.applyAll sampleEarlier).document? ⟨1⟩ = some ⟨⟨1⟩, "b", "x", none⟩ := by
    simp [sampleEarlier, applyAll, apply, set, empty, document?]
  have hlater : ((empty.applyAll sampleEarlier).applyAll sampleLater).document? ⟨0⟩ =
      some ⟨⟨0⟩, "a", "1\n2", none⟩ := by
    simp [sampleEarlier, sampleLater, applyAll, apply, set, remove, empty, document?,
      Std.HashMap.getElem_insert]
  have hfits (range : TextRange) :
      ((⟨⟨⟨0⟩, "a", "one\ntwo", none⟩, range, none⟩ : DocumentSpan).plainLocation?
        ((empty.applyAll sampleEarlier).applyAll sampleLater)).isSome ↔ range.stop ≤ 3 := by
    have h := hspan ⟨0⟩ ⟨_, range, none⟩ ha
    rw [if_neg (by decide)] at h
    obtain ⟨d, hd, -, hsome, -⟩ := h
    cases hlater.symm.trans hd
    exact hsome
  refine ⟨(hfits _).mpr (by decide), mt (hfits _).mp (by decide), ?_⟩
  have h := hspan ⟨1⟩ ⟨_, ⟨0, 1, by decide⟩, none⟩ hb
  rwa [if_pos (by decide)] at h

end Solution
end UsageReport

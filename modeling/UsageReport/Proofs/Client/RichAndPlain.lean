/-
# Rich and plain clients

A location for a plain client is made in two steps: the document of the span is looked up once
more in the solution, and the range is placed in what is found.  A location for a rich client is
placed in the document of the span itself, and shows a text.  If the solution still holds the
document under the id of the span, both come to the same place, or both to none
(`plainLocation?_eq_richLocation?`).

So the two clients see the same places (`rich_and_plain`).  The locations for the rich client are
those of the spans that fit into their documents, in the order in which the request is told of
them, and each shows the text that comes with its span.  The plain client gets these locations
without the texts.  Whether there is an answer at all has nothing to do with the client.
-/
import UsageReport.Proofs.Client.Answer
import UsageReport.Proofs.Document.Lines
import UsageReport.Proofs.Document.Solution

namespace UsageReport

/-! ## 1. Locations of one span -/

/-- The location as a client is told of it that shows no text. -/
def ClientLocation.withoutText (l : ClientLocation) : ClientLocation := { l with text := none }

/-- The range of the span lies within its document. -/
def DocumentSpan.fits (span : DocumentSpan) : Bool := span.document.containsRange span.range

/-- Both locations are of the same place, if the solution holds the document of the span. -/
theorem DocumentSpan.plainLocation?_eq_richLocation? {span : DocumentSpan} {solution : Solution}
    (h : solution.document? span.file = some span.document) (text : Option String) :
    span.plainLocation? solution = (span.richLocation? text).map ClientLocation.withoutText := by
  rw [plainLocation?, h, Option.bind_some, richLocation?, Option.map_map]
  rfl

/-- A location for a rich client is the place of the span in its document, with the text. -/
theorem DocumentSpan.of_richLocation? {span : DocumentSpan} {text : Option String}
    {location : ClientLocation} (h : span.richLocation? text = some location) :
    location.uri = span.document.uri ∧ span.document.span? span.range = some location.range ∧
      location.text = text := by
  rw [richLocation?, Option.map_eq_some_iff] at h
  obtain ⟨range, hrange, rfl⟩ := h
  exact ⟨rfl, hrange, rfl⟩

/-- There is one exactly if the range fits into the document. -/
theorem DocumentSpan.isSome_richLocation?_iff {span : DocumentSpan} {text : Option String} :
    (span.richLocation? text).isSome ↔ span.fits = true := by
  rw [richLocation?, Option.isSome_map, Document.isSome_span?_iff, fits, Document.containsRange,
    decide_eq_true_eq]

/-! ## 2. Locations of all spans -/

/-- The location is where the span stands in its document, and it shows the text of the span. -/
structure ShownAt (entry : DocumentSpan × Option String) (location : ClientLocation) : Prop where
  uri : location.uri = entry.1.document.uri
  range : entry.1.document.span? entry.1.range = some location.range
  text : location.text = entry.2

namespace RequestContext

variable {context : RequestContext}

/-- **A rich client is shown the spans that fit into their documents**, one by one. -/
theorem forall₂_located (hrich : context.client.richText = true)
    (told : List (DocumentSpan × Option String)) :
    List.Forall₂ ShownAt (told.filter fun entry => entry.1.fits) (context.located told) := by
  induction told with
  | nil => exact .nil
  | cons entry rest ih =>
    have hentry : context.location? entry.1 entry.2 = entry.1.richLocation? entry.2 :=
      if_pos hrich
    have hfits : (entry.1.richLocation? entry.2).isSome ↔ entry.1.fits = true :=
      DocumentSpan.isSome_richLocation?_iff
    rw [located, List.filterMap_cons, hentry]
    cases hlocation : entry.1.richLocation? entry.2 with
    | none =>
      have hnot : ¬ entry.1.fits = true := by simp [← hfits, hlocation]
      rw [List.filter_cons, if_neg hnot]
      exact ih
    | some location =>
      have hfit : entry.1.fits = true := by simp [← hfits, hlocation]
      rw [List.filter_cons, if_pos hfit]
      obtain ⟨huri, hrange, htext⟩ := DocumentSpan.of_richLocation? hlocation
      exact .cons ⟨huri, hrange, htext⟩ ih

/-- **A plain client is shown the same places** without the texts, if the solution holds the
documents of the spans. -/
theorem located_plain {solution : Solution} {told : List (DocumentSpan × Option String)}
    (resolves : ∀ entry ∈ told, solution.document? entry.1.file = some entry.1.document) :
    (⟨solution, { richText := false }⟩ : RequestContext).located told =
      ((⟨solution, { richText := true }⟩ : RequestContext).located told).map
        ClientLocation.withoutText := by
  rw [located, located, List.map_filterMap]
  refine List.filterMap_congr fun entry hentry => ?_
  exact DocumentSpan.plainLocation?_eq_richLocation? (resolves entry hentry) entry.2

/-! ## 3. The main statement -/

/-- **Rich and plain clients see the same places.**  They are refused the same requests, for the
same reason.  The answer for a rich client shows the spans that it is told of and that fit into
their documents, each with its text; and the answer for a plain client is the same without the
texts, if the solution of the request holds the documents of the spans. -/
theorem rich_and_plain {σ : Type} (solution : Solution) (service : SearchService σ)
    (options : UsageOptions) (request : Request) (s : Session σ) :
    let rich : RequestContext := ⟨solution, { richText := true }⟩
    let plain : RequestContext := ⟨solution, { richText := false }⟩
    (∀ fault s', rich.answer service options request s = .error fault s' ↔
      plain.answer service options request s = .error fault s') ∧
    ∀ locations s', rich.answer service options request s = .ok locations s' →
      ∃ search, rich.search? options request = some search ∧
        let told := request.told (service search s).reports
        List.Forall₂ ShownAt (told.filter fun entry => entry.1.fits) locations ∧
        ((∀ entry ∈ told, solution.document? entry.1.file = some entry.1.document) →
          plain.answer service options request s =
            .ok (locations.map ClientLocation.withoutText) s') := by
  intro rich plain
  -- Up to the locations nobody looks at the client.
  have hcollect : plain.collect service options request =
      rich.collect service options request := rfl
  refine ⟨?_, ?_⟩
  · intro fault s'
    rw [answer, answer, hcollect]
    cases hfound : rich.collect service options request s with
    | ok findings s₁ => rw [Work.bind_of_ok _ hfound, Work.bind_of_ok _ hfound]; simp
    | error fault' s₁ => rw [Work.bind_of_error _ hfound, Work.bind_of_error _ hfound]
  · intro locations s' hanswer
    obtain ⟨hs, search, hsearch, hout, hcalm, rfl, rfl⟩ := answer_eq_ok_iff.mp hanswer
    refine ⟨search, hsearch, forall₂_located rfl _, fun resolves => ?_⟩
    exact answer_eq_ok_iff.mpr
      ⟨hs, search, hsearch, hout, hcalm, located_plain resolves, rfl⟩

/-- A class is reported with its declaration and with a place beyond the text, and then used once
without a preview.  The place beyond the text is left out, for either client. -/
theorem rich_and_plain_sample :
    let d : Document := ⟨⟨0⟩, "Widget.cs", "class Widget {}", none⟩
    let item : DefinitionItem := ⟨[], [⟨.text, "Widget"⟩], [],
      .source [⟨d, ⟨6, 12, by decide⟩, none⟩, ⟨d, ⟨6, 40, by decide⟩, none⟩], {}, .empty, false⟩
    let service : SearchService Unit := fun _ s =>
      ⟨[.definition item, .reference ⟨item, ⟨d, ⟨0, 5, by decide⟩, none⟩, .standard, .empty⟩],
        .ok (), s⟩
    let solution := Solution.empty.applyAll [.set d.path d.text d.project]
    let request : Request := .references ⟨⟨⟨0⟩, ⟨0, 6⟩⟩, true⟩
    let declared : ClientLocation := ⟨"file:///Widget.cs", ⟨⟨0, 6⟩, ⟨0, 12⟩⟩, some "Widget"⟩
    let used : ClientLocation := ⟨"file:///Widget.cs", ⟨⟨0, 0⟩, ⟨0, 5⟩⟩, none⟩
    (⟨solution, { richText := true }⟩ : RequestContext).answer service {} request ⟨false, ()⟩ =
        .ok [declared, used] ⟨false, ()⟩ ∧
      (⟨solution, { richText := false }⟩ : RequestContext).answer service {} request ⟨false, ()⟩ =
        .ok [declared.withoutText, used] ⟨false, ()⟩ := by
  intro d item service solution request declared used
  have hd : solution.document? ⟨0⟩ = some d := Solution.document?_applyAll_set _ _ _ ⟨0⟩
  have hanswer : (⟨solution, { richText := true }⟩ : RequestContext).answer service {} request
      ⟨false, ()⟩ = .ok [declared, used] ⟨false, ()⟩ := by
    refine answer_eq_ok_iff.mpr ⟨rfl, ⟨.references, d, 6, {}⟩, ?_, rfl, rfl, by decide, rfl⟩
    exact (congrArg (Option.bind · _) hd).trans (by decide)
  obtain ⟨-, hplain⟩ := rich_and_plain solution service {} request ⟨false, ()⟩
  obtain ⟨search, -, -, hsame⟩ := hplain _ _ hanswer
  refine ⟨hanswer, hsame ?_⟩
  intro entry hentry
  have hdocument : entry.1.document = d := by
    rcases List.mem_cons.mp hentry with rfl | hentry
    · rfl
    · rcases List.mem_cons.mp hentry with rfl | hentry
      · rfl
      · cases List.mem_singleton.mp hentry
        rfl
  rw [DocumentSpan.file, hdocument]
  exact hd

end RequestContext
end UsageReport

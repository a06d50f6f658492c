/-
# References beside definitions

A reference is made of a hit, and a definition is located by reading a list of locations.  Both end
in spans with previews, but they come by their documents on different ways: a hit brings its own
document along, and a location has the one that the host finds under its file.

The main statement (`referenceItem?_beside_definition`) has two parts.  The first says how the
making of a reference ends, in the order in which this is decided, and how often the classifier is
called for it; for this it speaks of a host with a record of these calls.  The second part says that
the two ways meet.  If the host finds the hit's document under the file of the hit's location, and
previews depend on document and range alone, then a definition that is read over a list with this
location has at its place the span that the reference has.
-/
import UsageReport.Proofs.Item.Classification
import UsageReport.Proofs.Item.Undisturbed

namespace UsageReport

theorem SourceLocation.passes_eq_false_iff {place : SourceLocation} {includeHidden : Bool} :
    place.passes includeHidden = false ↔ place.hidden = true ∧ includeHidden = false := by
  simp [passes]

namespace Host

variable {σ : Type} {host : Host σ} {signal : Signal} {query : DefinitionQuery}
  {hit : ReferenceHit} {definition : DefinitionItem} {includeHidden : Bool}
  {place : SourceLocation} {s s' : Session σ}

/-! ## 1. The calls of the classifier -/

/-- **The record makes no difference to a reference.** -/
theorem mirrors_referenceItem? (hit : ReferenceHit) (definition : DefinitionItem)
    (includeHidden : Bool) :
    (host.recorded.referenceItem? signal hit definition includeHidden).Mirrors
      (host.referenceItem? signal hit definition includeHidden) := by
  cases hplace : hit.location.source? with
  | none =>
    rw [referenceItem?_of_not_source hplace, referenceItem?_of_not_source hplace]
    exact fun _ _ => rfl
  | some place =>
    by_cases hpass : place.passes includeHidden = true
    · rw [referenceItem?_of_wanted hplace hpass, referenceItem?_of_wanted hplace hpass]
      exact (Work.mirrors_heed signal).bind fun _ =>
        (Work.mirrors_recording _ _).bind fun _ => Work.mirrors_pure _
    · rw [referenceItem?_of_unwanted hplace hpass, referenceItem?_of_unwanted hplace hpass]
      exact Work.mirrors_pure _

/-- The fault of the classifier is that of the reference, after one call. -/
theorem recorded_referenceItem?_of_error (hplace : hit.location.source? = some place)
    (hpass : place.passes includeHidden = true) (hs : s.Calm signal) {fault : Fault}
    (h : host.classify signal hit.document place.range s = .error fault s')
    (calls : List DocumentSpan) :
    host.recorded.referenceItem? signal hit definition includeHidden (s.withCalls calls) =
      .error fault (s'.withCalls (calls ++ [⟨hit.document, place.range, none⟩])) := by
  rw [referenceItem?_of_calm hplace hpass (calm_withCalls hs)]
  exact Work.bind_of_error _ (Work.recording_of_error h calls _)

/-- The preview of the classifier is that of the reference, after one call. -/
theorem recorded_referenceItem?_of_ok (hplace : hit.location.source? = some place)
    (hpass : place.passes includeHidden = true) (hs : s.Calm signal) {preview : Preview}
    (h : host.classify signal hit.document place.range s = .ok preview s')
    (calls : List DocumentSpan) :
    host.recorded.referenceItem? signal hit definition includeHidden (s.withCalls calls) =
      .ok (some ⟨definition, ⟨hit.document, place.range, some preview⟩, hit.usage,
          hit.properties⟩)
        (s'.withCalls (calls ++ [⟨hit.document, place.range, none⟩])) := by
  rw [referenceItem?_of_calm hplace hpass (calm_withCalls hs)]
  exact Work.bind_of_ok _ (Work.recording_of_ok h calls _)

/-! ## 2. When there is nothing, and when there is a mistake -/

/-- A hit gives nothing exactly if it is hidden and not wanted. -/
theorem referenceItem?_eq_none_iff :
    (∃ t, host.referenceItem? signal hit definition includeHidden s = .ok none t) ↔
      ∃ place, hit.location.source? = some place ∧ place.hidden = true ∧
        includeHidden = false := by
  constructor
  · rintro ⟨t, h⟩
    obtain ⟨place, hplace, ⟨hpass, -, -⟩ | ⟨-, -, preview, -, hitem⟩⟩ := of_made_referenceItem? h
    · exact ⟨place, hplace, SourceLocation.passes_eq_false_iff.mp (Bool.eq_false_iff.mpr hpass)⟩
    · cases hitem
  · rintro ⟨place, hplace, hhidden⟩
    have hpass : place.passes includeHidden = false :=
      SourceLocation.passes_eq_false_iff.mpr hhidden
    rw [referenceItem?_of_unwanted hplace (Bool.eq_false_iff.mp hpass)]
    exact ⟨s, rfl⟩

/-- A hit in source is no mistake, unless the classifier takes it for one. -/
theorem referenceItem?_eq_notInSource_iff :
    (∃ t, host.referenceItem? signal hit definition includeHidden s = .error .notInSource t) ↔
      hit.location.source? = none ∨
        ∃ place t, hit.location.source? = some place ∧ place.passes includeHidden = true ∧
          s.Calm signal ∧
          host.classify signal hit.document place.range s = .error .notInSource t := by
  constructor
  · rintro ⟨t, h⟩
    rcases of_failed_referenceItem? h with
      ⟨hplace, -, -⟩ | ⟨place, hplace, hpass, ⟨-, hcancelled, -⟩ | ⟨hs, hclassify⟩⟩
    · exact .inl hplace
    · cases hcancelled
    · exact .inr ⟨place, t, hplace, hpass, hs, hclassify⟩
  · rintro (hplace | ⟨place, t, hplace, hpass, hs, hclassify⟩)
    · rw [referenceItem?_of_not_source hplace]
      exact ⟨s, rfl⟩
    · rw [referenceItem?_of_calm hplace hpass hs]
      exact ⟨t, Work.bind_of_error _ hclassify⟩

/-! ## 3. The place of a hit in a definition -/

variable {preview : Document → TextRange → Preview} {symbol : Symbol} {item : DefinitionItem}
  {reference : ReferenceItem}

/-- The span of a reference depends on the hit's document and range alone. -/
theorem span_of_reference (gives : host.PreviewsBy preview)
    (hplace : hit.location.source? = some place)
    (h : host.referenceItem? signal hit definition includeHidden s = .ok (some reference) s') :
    reference.span = DocumentSpan.previewed preview true ⟨hit.document, place.range, none⟩ := by
  obtain ⟨place', given, hplace', hs, hclassify, hspan⟩ := of_referenceItem? h
  cases hplace.symm.trans hplace'
  rw [hspan, gives _ _ _ _ _ _ hs hclassify]
  rfl

/-- Taking the previews off gives the spans back as the list knows them. -/
theorem withoutPreview_previewed_place? (preview : Document → TextRange → Preview)
    (previews : Bool) (locations : List Location) :
    ((locations.filterMap (host.place? includeHidden)).map
        (DocumentSpan.previewed preview previews)).map DocumentSpan.withoutPreview =
      locations.filterMap (host.place? includeHidden) := by
  rw [List.map_map]
  conv_rhs => rw [← List.map_id (locations.filterMap (host.place? includeHidden))]
  refine List.map_congr_left fun span hspan => ?_
  obtain ⟨l, -, hl⟩ := List.mem_filterMap.mp hspan
  exact withoutPreview_of_place? hl

/-- **A location that counts has its span in the item**, between the spans of the locations before
it and those of the locations behind it. -/
theorem sourceSpans_around (gives : host.PreviewsBy preview) {l : Location} {span : DocumentSpan}
    (hl : host.place? query.includeHidden l = some span) {front rest : List Location}
    (hmodule : ∀ l' ∈ front ++ l :: rest, l'.moduleName? = none)
    (hkind : symbol.canonical.kind.isNamespace = false)
    (h : host.definitionItem signal query symbol (front ++ l :: rest) s = .ok item s') :
    ∃ before after,
      item.sourceSpans = before ++ span.previewed preview query.previews :: after ∧
      before.map DocumentSpan.withoutPreview =
        front.filterMap (host.place? query.includeHidden) ∧
      after.map DocumentSpan.withoutPreview =
        rest.filterMap (host.place? query.includeHidden) := by
  refine ⟨_, _, ?_, withoutPreview_previewed_place? preview query.previews front,
    withoutPreview_previewed_place? preview query.previews rest⟩
  have hnone : (front ++ l :: rest).findSome? Location.moduleName? = none :=
    List.findSome?_eq_none_iff.mpr hmodule
  rw [eq_itemOver_of_ok gives h, sourceSpans_itemOver, hkind, hnone, if_neg (by simp),
    List.filterMap_append, List.filterMap_cons_some hl, List.map_append, List.map_cons]

/-! ## 4. The main statement -/

/-- **A reference, and the definition at its place.**

A hit outside of source is a mistake, and one that is hidden and not wanted gives nothing; both
whatever the signal is, and without a call of the classifier.  Otherwise, if the signal is raised,
the fault says so, and there is no call either.  Otherwise there is one call, and its fault is that
of the reference; or else the reference is bound to the definition, has the usage and the properties
of the hit, and its span is over the hit's own document, whatever file the location names.  Nothing
but a hidden hit gives nothing, and nothing but a hit outside of source is a mistake, unless the
classifier itself says so.

Now let the host find the hit's document under the file of the location, and let a definition be
read with previews over a list that has this location and no compiled module.  At the place of the
location it has the span of the reference.  Only a definition that is a namespace has no spans. -/
theorem referenceItem?_beside_definition (host : Host σ) (signal : Signal) (hit : ReferenceHit)
    (definition : DefinitionItem) (includeHidden : Bool) (s : Session σ)
    (calls : List DocumentSpan) :
    let making := host.referenceItem? signal hit definition includeHidden
    let recorded := host.recorded.referenceItem? signal hit definition includeHidden
    let outcome := recorded (s.withCalls calls)
    recorded.Mirrors making ∧
    (hit.location.source? = none → outcome = .error .notInSource (s.withCalls calls)) ∧
    (∀ place, hit.location.source? = some place →
      (place.passes includeHidden = false → outcome = .ok none (s.withCalls calls)) ∧
      (place.passes includeHidden = true → s.Raised signal →
        outcome = .error .cancelled (s.withCalls calls)) ∧
      (place.passes includeHidden = true → s.Calm signal →
        let called := calls ++ [⟨hit.document, place.range, none⟩]
        (∀ fault s', host.classify signal hit.document place.range s = .error fault s' →
          outcome = .error fault (s'.withCalls called)) ∧
        ∀ preview s', host.classify signal hit.document place.range s = .ok preview s' →
          outcome = .ok (some ⟨definition, ⟨hit.document, place.range, some preview⟩, hit.usage,
            hit.properties⟩) (s'.withCalls called))) ∧
    ((∃ t, making s = .ok none t) ↔ ∃ place, hit.location.source? = some place ∧
      place.hidden = true ∧ includeHidden = false) ∧
    ((∃ t, making s = .error .notInSource t) ↔ hit.location.source? = none ∨
      ∃ place t, hit.location.source? = some place ∧ place.passes includeHidden = true ∧
        s.Calm signal ∧
        host.classify signal hit.document place.range s = .error .notInSource t) ∧
    ∀ (preview : Document → TextRange → Preview) (reference : ReferenceItem) (s' : Session σ)
      (place : SourceLocation) (signal' : Signal) (query : DefinitionQuery) (symbol : Symbol)
      (front rest : List Location) (item : DefinitionItem) (t t' : Session σ),
      host.PreviewsBy preview → making s = .ok (some reference) s' →
      hit.location = .inSource place →
      host.documents.document? place.file = some hit.document →
      (∀ l ∈ front ++ hit.location :: rest, l.moduleName? = none) →
      query.previews = true → place.passes query.includeHidden = true →
      host.definitionItem signal' query symbol (front ++ hit.location :: rest) t =
        .ok item t' →
      if symbol.canonical.kind.isNamespace then item.sourceSpans = []
      else ∃ before after, item.sourceSpans = before ++ reference.span :: after ∧
        before.map DocumentSpan.withoutPreview =
          front.filterMap (host.place? query.includeHidden) ∧
        after.map DocumentSpan.withoutPreview =
          rest.filterMap (host.place? query.includeHidden) := by
  intro making recorded outcome
  refine ⟨mirrors_referenceItem? hit definition includeHidden, ?outside, ?source,
    referenceItem?_eq_none_iff, referenceItem?_eq_notInSource_iff, ?beside⟩
  case outside =>
    intro hplace
    exact congrFun (referenceItem?_of_not_source hplace) _
  case source =>
    intro place hplace
    refine ⟨fun hpass => ?_, fun hpass hs => ?_, fun hpass hs => ⟨?_, ?_⟩⟩
    · exact congrFun (referenceItem?_of_unwanted hplace (Bool.eq_false_iff.mp hpass)) _
    · exact referenceItem?_of_raised hplace hpass (raised_withCalls hs)
    · intro fault s' h
      exact recorded_referenceItem?_of_error hplace hpass hs h calls
    · intro preview s' h
      exact recorded_referenceItem?_of_ok hplace hpass hs h calls
  case beside =>
    intro preview reference s' place signal' query symbol front rest item t t' gives hmade hplace
      hdocument hmodule hprev hpass hitem
    cases hkind : symbol.canonical.kind.isNamespace with
    | true =>
      rw [if_pos rfl, eq_itemOver_of_ok gives hitem, sourceSpans_itemOver, if_pos (.inl hkind)]
    | false =>
      have hcounts : host.place? query.includeHidden hit.location =
          some ⟨hit.document, place.range, none⟩ := by
        rw [place?, hplace, Location.source?, Option.bind_some, if_pos hpass, hdocument]
        rfl
      have hsource : hit.location.source? = some place := by
        rw [hplace]
        rfl
      rw [if_neg Bool.false_ne_true, span_of_reference gives hsource hmade, ← hprev]
      exact sourceSpans_around gives hcounts hmodule hkind hitem

/-- A hit in a compiled module is a mistake even if the request was cancelled.  A hit at the last
location of the sample class has the span that the item of the class has last, behind the one of its
first location. -/
theorem referenceItem?_beside_definition_sample :
    let host : Host Unit := standard (.ofDocument sampleDocument)
    let place : SourceLocation := ⟨⟨0⟩, ⟨6, 12, by decide⟩, false⟩
    let hit : ReferenceHit := { document := sampleDocument, location := .inSource place }
    let outside : ReferenceHit := { hit with location := .inMetadata "Core" }
    let definition : DefinitionItem := ⟨[], [], [], .unavailable [], {}, .empty, false⟩
    let s : Session Unit := ⟨false, ()⟩
    host.recorded.referenceItem? .request outside definition false (s.cancel.withCalls []) =
      .error .notInSource (s.cancel.withCalls []) ∧
    ∃ (reference : ReferenceItem) (item : DefinitionItem) (s' t' : Session Unit)
        (before : List DocumentSpan),
      host.referenceItem? .request hit definition false s = .ok (some reference) s' ∧
      host.definitionItem .request ⟨false, false, true, {}⟩ sampleSymbol sampleLocations s =
        .ok item t' ∧
      item.sourceSpans = before ++ [reference.span] ∧
      before.map DocumentSpan.withoutPreview = [⟨sampleDocument, place.range, none⟩] := by
  intro host place hit outside definition s
  obtain ⟨-, houtside, -⟩ :=
    referenceItem?_beside_definition host .request outside definition false s.cancel []
  obtain ⟨-, -, -, -, -, hbeside⟩ :=
    referenceItem?_beside_definition host .request hit definition false s []
  have hmade : ∃ reference s',
      host.referenceItem? .request hit definition false s = .ok (some reference) s' :=
    ⟨_, _, rfl⟩
  obtain ⟨reference, s', hreference⟩ := hmade
  have hitem : ∃ item t', host.definitionItem .request ⟨false, false, true, {}⟩ sampleSymbol
      (sampleLocations.take 4 ++ hit.location :: []) s = .ok item t' := ⟨_, _, rfl⟩
  obtain ⟨item, t', hitem⟩ := hitem
  obtain ⟨before, after, hspans, hbefore, hafter⟩ := hbeside Preview.lexical reference s' place
    .request _ sampleSymbol (sampleLocations.take 4) [] item s t'
    (standard_answersWith _).previewsBy hreference rfl rfl (by decide) rfl rfl hitem
  obtain rfl : after = [] := List.map_eq_nil_iff.mp hafter
  exact ⟨houtside rfl, reference, item, s', t', before, hreference, hitem, hspans, hbefore⟩

end Host
end UsageReport

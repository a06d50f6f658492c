/-
# Items as functions of what they are made from

An item is made within a session, and what the services remember may show in it.  It does not if
the classifier's previews depend on document and range alone (`Host.AnswersWith`), services take no
cancellation back (`Host.KeepsCancellation`) and nobody cancels the request.  What is made then is
a function of symbol, locations and query: `Host.itemOver` for the item of a definition
(`comesTo_definitionItem`), and `Host.referenceOver?` for that of a hit
(`comesTo_referenceItem?`).

An item that was made is this function's value even if the classifier can fail, as long as the
previews that it does give depend on document and range alone (`Host.PreviewsBy`;
`eq_itemOver_of_ok`, `eq_referenceOver?_of_made`).

So two items can be compared without a look at the sessions in which they are made.  `itemOver`
is stated with `Host.whereabouts`, which reads a list of locations without previews; the previews
are put on afterwards (`previewed_of_locate`).
-/
import UsageReport.Proofs.Item.Hit
import UsageReport.Proofs.Item.Navigation

namespace UsageReport

/-! ## 1. Previews by document and range -/

/-- The span with the preview of its document and range, if previews are wanted. -/
def DocumentSpan.previewed (preview : Document → TextRange → Preview) (previews : Bool)
    (span : DocumentSpan) : DocumentSpan :=
  { span with preview := if previews then some (preview span.document span.range) else none }

namespace Whereabouts

/-- The spans in source; none in a compiled module. -/
def spans : Whereabouts → List DocumentSpan
  | source spans => spans
  | metadata _ => []

/-- The whereabouts with previews on all spans, if previews are wanted. -/
def previewed (preview : Document → TextRange → Preview) (previews : Bool) :
    Whereabouts → Whereabouts
  | source spans => source (spans.map (DocumentSpan.previewed preview previews))
  | metadata moduleName => metadata moduleName

@[simp] theorem previewed_cons (preview : Document → TextRange → Preview) (previews : Bool)
    (span : DocumentSpan) (w : Whereabouts) :
    (w.cons span).previewed preview previews =
      (w.previewed preview previews).cons (span.previewed preview previews) := by
  cases w <;> rfl

end Whereabouts

namespace Host

variable {σ : Type} {host : Host σ} {signal : Signal} {query : DefinitionQuery}
  {symbol : Symbol} {locations : List Location} {s s' : Session σ}
  {preview : Document → TextRange → Preview}

/-- The classifier never fails while its signal is down, and its previews depend on document and
range alone. -/
def AnswersWith (host : Host σ) (preview : Document → TextRange → Preview) : Prop :=
  ∀ signal document range s, s.Calm signal →
    ∃ s', host.classify signal document range s = .ok (preview document range) s'

/-- The previews that the classifier gives while its signal is down depend on document and range
alone.  It may also fail. -/
def PreviewsBy (host : Host σ) (preview : Document → TextRange → Preview) : Prop :=
  ∀ signal document range s made s', s.Calm signal →
    host.classify signal document range s = .ok made s' → made = preview document range

/-- No service takes a cancellation of the request back. -/
def KeepsCancellation (host : Host σ) : Prop :=
  ∀ signal, host.Maintains signal (Session.Raised .request)

theorem AnswersWith.answers (h : host.AnswersWith preview) (signal : Signal) :
    host.Answers signal := by
  intro document range s hs
  obtain ⟨s', hc⟩ := h signal document range s hs
  exact ⟨_, s', hc⟩

theorem AnswersWith.previewsBy (h : host.AnswersWith preview) : host.PreviewsBy preview := by
  intro signal document range s made s' hs hmade
  obtain ⟨s₁, hc⟩ := h signal document range s hs
  cases hc.symm.trans hmade
  rfl

theorem KeepsCancellation.raised (h : host.KeepsCancellation) (signal : Signal) :
    host.Maintains signal (Session.Raised signal) := by
  cases signal with
  | request => exact h .request
  | never => exact ⟨fun _ _ hs => Bool.noConfusion hs, fun _ _ _ hs => Bool.noConfusion hs⟩

/-! ## 2. Definitions -/

/-- A span that was made is the span of the range, with its preview if one is wanted. -/
theorem previewed_of_span (gives : host.PreviewsBy preview) {previews : Bool}
    {document : Document} {range : TextRange} {made : DocumentSpan}
    (h : host.span signal previews document range s = .ok made s') :
    made = DocumentSpan.previewed preview previews ⟨document, range, none⟩ := by
  cases previews with
  | false =>
    cases h
    rfl
  | true =>
    by_cases hs : s.Calm signal
    · rw [span_of_calm _ _ hs] at h
      obtain ⟨given, s₁, hc, hmade⟩ := Work.of_bind_ok h
      obtain rfl := gives signal document range s given s₁ hs hc
      cases hmade
      rfl
    · rw [span_of_raised _ _ (Session.not_calm_iff.mp hs)] at h
      cases h

/-- **A reading that ends well** comes to what the list says, with the previews. -/
theorem previewed_of_locate (gives : host.PreviewsBy preview) {w : Whereabouts}
    (h : host.locate signal query locations s = .ok w s') :
    w = (host.whereabouts query.includeHidden locations).previewed preview query.previews := by
  induction locations using location_induction host query.includeHidden
    generalizing s s' w with
  | nil => cases h; rfl
  | metadata moduleName rest => cases h; rfl
  | skipped l rest hm hp ih =>
    rw [locate_skipped hm hp] at h
    rw [whereabouts_skipped hm hp]
    exact ih h
  | place l rest span hp ih =>
    rw [locate_place hp] at h
    obtain ⟨made, s₂, hmade, h⟩ := Work.of_bind_ok h
    obtain ⟨others, s₃, hothers, h⟩ := Work.of_bind_ok h
    cases h
    rw [whereabouts_place hp, Whereabouts.previewed_cons, ← ih hothers,
      previewed_of_span gives hmade]
    rfl

/-- The item of a symbol over some locations, if nobody disturbs its making. -/
def itemOver (host : Host σ) (preview : Document → TextRange → Preview) (query : DefinitionQuery)
    (symbol : Symbol) (locations : List Location) : DefinitionItem :=
  host.assemble query symbol.canonical
    (if symbol.canonical.kind.isNamespace then .source []
      else (host.whereabouts query.includeHidden locations).previewed preview query.previews)

/-- **An item that was made** is what the symbol, the locations and the query say. -/
theorem eq_itemOver_of_ok (gives : host.PreviewsBy preview) {item : DefinitionItem}
    (h : host.definitionItem signal query symbol locations s = .ok item s') :
    item = host.itemOver preview query symbol locations := by
  have hs : s.Calm signal := calm_of_ok_definitionItem h
  cases hkind : symbol.canonical.kind.isNamespace with
  | true =>
    cases (definitionItem_of_namespace hkind hs).symm.trans h
    rw [itemOver, if_pos hkind]
  | false =>
    obtain ⟨w, s₁, hw, hitem⟩ :=
      Work.of_bind_ok ((definitionItem_of_not_namespace hkind hs).symm.trans h)
    cases hitem
    rw [previewed_of_locate gives hw, itemOver, hkind]
    rfl

/-- **An undisturbed item** depends on the symbol, the locations and the query alone. -/
theorem comesTo_definitionItem (keeps : host.KeepsCancellation)
    (answers : host.AnswersWith preview) :
    (host.definitionItem signal query symbol locations).ComesTo signal
      (host.itemOver preview query symbol locations) := by
  intro s hcalm
  obtain ⟨item, s', hitem⟩ := exists_ok_of_calm (keeps.raised signal) (answers.answers signal) hcalm
  obtain rfl := eq_itemOver_of_ok answers.previewsBy hitem
  exact ⟨s', hitem⟩

/-- The item is at the spans of its whereabouts. -/
@[simp] theorem sourceSpans_assemble (query : DefinitionQuery) (definition : Symbol)
    (w : Whereabouts) : (host.assemble query definition w).sourceSpans = w.spans := by
  cases w with
  | metadata moduleName => rfl
  | source spans => cases spans <;> rfl

/-- The spans that an item has, read off its locations. -/
theorem sourceSpans_itemOver (query : DefinitionQuery) (symbol : Symbol)
    (locations : List Location) :
    (host.itemOver preview query symbol locations).sourceSpans =
      if symbol.canonical.kind.isNamespace ∨ (locations.findSome? Location.moduleName?).isSome then
        []
      else (locations.filterMap (host.place? query.includeHidden)).map
        (DocumentSpan.previewed preview query.previews) := by
  rw [itemOver, sourceSpans_assemble, whereabouts]
  cases symbol.canonical.kind.isNamespace <;> cases locations.findSome? Location.moduleName? <;>
    rfl

@[simp] theorem displayText_assemble (query : DefinitionQuery) (definition : Symbol)
    (w : Whereabouts) :
    (host.assemble query definition w).displayText = TaggedText.join (host.display definition) := by
  cases w with
  | metadata moduleName => rfl
  | source spans => cases spans <;> rfl

/-! ## 3. Hits -/

/-- The item of a hit, if nobody disturbs its making; none for a hit outside of source. -/
def referenceOver? (preview : Document → TextRange → Preview) (hit : ReferenceHit)
    (definition : DefinitionItem) (includeHidden : Bool) : Option ReferenceItem :=
  hit.location.source?.bind fun place =>
    if place.passes includeHidden then
      some ⟨definition,
        DocumentSpan.previewed preview true ⟨hit.document, place.range, none⟩, hit.usage,
        hit.properties⟩
    else none

theorem referenceOver?_of_unwanted {hit : ReferenceHit} {place : SourceLocation}
    {includeHidden : Bool} (hplace : hit.location.source? = some place)
    (hpass : ¬ place.passes includeHidden = true) (definition : DefinitionItem) :
    referenceOver? preview hit definition includeHidden = none := by
  rw [referenceOver?, hplace]
  exact if_neg hpass

theorem referenceOver?_of_wanted {hit : ReferenceHit} {place : SourceLocation}
    {includeHidden : Bool} (hplace : hit.location.source? = some place)
    (hpass : place.passes includeHidden = true) (definition : DefinitionItem) :
    referenceOver? preview hit definition includeHidden =
      some ⟨definition, DocumentSpan.previewed preview true ⟨hit.document, place.range, none⟩,
        hit.usage, hit.properties⟩ := by
  rw [referenceOver?, hplace]
  exact if_pos hpass

/-- **A reference that was made** is what the hit and its definition say. -/
theorem eq_referenceOver?_of_made (gives : host.PreviewsBy preview) {hit : ReferenceHit}
    {definition : DefinitionItem} {includeHidden : Bool} {reference : Option ReferenceItem}
    (h : host.referenceItem? signal hit definition includeHidden s = .ok reference s') :
    reference = referenceOver? preview hit definition includeHidden := by
  obtain ⟨place, hplace, ⟨hpass, rfl, -⟩ | ⟨hpass, hs, given, hclassify, rfl⟩⟩ :=
    of_made_referenceItem? h
  · exact (referenceOver?_of_unwanted hplace hpass definition).symm
  · obtain rfl := gives _ _ _ _ _ _ hs hclassify
    exact (referenceOver?_of_wanted hplace hpass definition).symm

theorem eq_referenceOver?_of_ok (answers : host.AnswersWith preview) {hit : ReferenceHit}
    {definition : DefinitionItem} {includeHidden : Bool} {reference : Option ReferenceItem}
    (h : host.referenceItem? signal hit definition includeHidden s = .ok reference s') :
    reference = referenceOver? preview hit definition includeHidden :=
  eq_referenceOver?_of_made answers.previewsBy h

/-- **An undisturbed reference** depends on the hit and its definition alone. -/
theorem comesTo_referenceItem? (keeps : host.KeepsCancellation)
    (answers : host.AnswersWith preview) {hit : ReferenceHit}
    (hin : hit.location.isInSource = true) (definition : DefinitionItem) (includeHidden : Bool) :
    (host.referenceItem? signal hit definition includeHidden).ComesTo signal
      (referenceOver? preview hit definition includeHidden) := by
  obtain ⟨place, hplace⟩ := Option.isSome_iff_exists.mp hin
  by_cases hpass : place.passes includeHidden = true
  · have hclassify : (host.classify signal hit.document place.range).ComesTo signal
        (preview hit.document place.range) := by
      intro s hcalm
      by_cases hs : s.Calm signal
      · exact answers signal hit.document place.range s hs
      · exact absurd hcalm (Session.not_calm_iff.mpr
          ((keeps.raised signal).classify _ _ s (Session.not_calm_iff.mp hs)))
    rw [referenceItem?_of_wanted hplace hpass, referenceOver?_of_wanted hplace hpass]
    exact (Work.comesTo_heed signal).bind
      (fun _ => ((keeps.raised signal).classify _ _).bind fun _ => Work.maintains_pure _)
      (hclassify.bind (fun _ => Work.maintains_pure _) (Work.comesTo_pure _))
  · rw [referenceItem?_of_unwanted hplace hpass, referenceOver?_of_unwanted hplace hpass]
    exact Work.comesTo_pure _

/-! ## 4. Standard services -/

/-- The standard previews depend on document and range alone. -/
theorem standard_answersWith (documents : DocumentSource σ) :
    (standard documents).AnswersWith Preview.lexical :=
  fun _ _ _ s hs => ⟨s, Work.bind_of_ok _ (Work.heed_of_not_raised hs)⟩

theorem standard_keepsCancellation {documents : DocumentSource σ}
    (find : ∀ file, (documents.find file).Maintains (Session.Raised .request)) :
    (standard documents).KeepsCancellation := standard_maintains find

end Host
end UsageReport

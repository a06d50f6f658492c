/-
# Reading locations in order

`Host.locate` reads the locations of a definition one after the other, and for each of them one
of three things holds, known before anything is read:

* it lies in a compiled module, which ends the reading;
* it is **skipped**: nowhere, hidden and not wanted, or in a document that is not loaded.  At
  most a lookup is left of it (`lookedUp`);
* it **counts**: it passes the filter and its document is loaded (`place?` gives the span).

Each case has one equation (`locate_skipped`, `locate_place`), and `location_induction` is the
induction over lists that follows them, so the recursion is unfolded here and nowhere else.  Two
facts carry what is said of whole lists.  Reading a list is reading its front and then, if no
compiled module ended it, the rest (`locate_append`).  And what the services keep, the reading
keeps (`Host.Maintains.locate`).

Two statements are about the outcome.  In a session whose signal stays down throughout, the
reading ends well and comes to what the list itself says (`whereabouts`, `locate_of_calm`).  In
one whose signal is raised and stays raised, the first location that counts ends a reading with
previews (`locate_of_raised`), while a reading without previews never fails
(`locate_without_previews`).
-/
import UsageReport.Item.DefinitionOfSymbol
import UsageReport.Proofs.Work

namespace UsageReport

/-! ## 1. What a list of locations says by itself -/

/-- The compiled module that a location names. -/
def Location.moduleName? : Location → Option String
  | inMetadata moduleName => some moduleName
  | inSource _ => none
  | nowhere => none

namespace Whereabouts

/-- The same whereabouts, with no previews. -/
def withoutPreviews : Whereabouts → Whereabouts
  | source spans => source (spans.map DocumentSpan.withoutPreview)
  | metadata moduleName => metadata moduleName

/-- Some more spans in front; a compiled module still decides. -/
def prepend (front : List DocumentSpan) (w : Whereabouts) : Whereabouts := front.foldr cons w

@[simp] theorem prepend_cons (span : DocumentSpan) (front : List DocumentSpan)
    (w : Whereabouts) : prepend (span :: front) w = (prepend front w).cons span := rfl

@[simp] theorem withoutPreviews_cons (span : DocumentSpan) (w : Whereabouts) :
    (w.cons span).withoutPreviews = w.withoutPreviews.cons span.withoutPreview := by
  cases w <;> rfl

end Whereabouts

namespace Host

variable {σ : Type}

/-- The span, without a preview, of a location that counts: a source location that passes the
filter and whose document is loaded. -/
def place? (host : Host σ) (includeHidden : Bool) (l : Location) : Option DocumentSpan :=
  l.source?.bind fun place =>
    if place.passes includeHidden then
      (host.documents.document? place.file).map fun document => ⟨document, place.range, none⟩
    else none

/-- What the locations of a definition come to, read off the list: the first compiled module if
there is one, and otherwise the spans of all locations that count. -/
def whereabouts (host : Host σ) (includeHidden : Bool) (locations : List Location) :
    Whereabouts :=
  match locations.findSome? Location.moduleName? with
  | some moduleName => .metadata moduleName
  | none => .source (locations.filterMap (host.place? includeHidden))

/-- The spans of the locations that count and stand before the first compiled module. -/
def counted (host : Host σ) (includeHidden : Bool) (locations : List Location) :
    List DocumentSpan :=
  (locations.takeWhile (·.moduleName?.isNone)).filterMap (host.place? includeHidden)

/-- The session after the lookup for a location, if there is one. -/
def lookedUp (host : Host σ) (includeHidden : Bool) : Location → Session σ → Session σ
  | .inSource place, s =>
    if place.passes includeHidden then host.documents.touch place.file s else s
  | .inMetadata _, s => s
  | .nowhere, s => s

variable {host : Host σ} {includeHidden : Bool}

theorem place?_inMetadata (moduleName : String) :
    host.place? includeHidden (.inMetadata moduleName) = none := rfl

theorem moduleName?_of_place? {l : Location} {span : DocumentSpan}
    (h : host.place? includeHidden l = some span) : l.moduleName? = none := by
  cases l with
  | inSource place => rfl
  | inMetadata moduleName => simp [place?_inMetadata] at h
  | nowhere => rfl

/-- A span as the list knows it has no preview. -/
theorem withoutPreview_of_place? {l : Location} {span : DocumentSpan}
    (h : host.place? includeHidden l = some span) : span.withoutPreview = span := by
  simp only [place?, Option.bind_eq_some_iff] at h
  obtain ⟨place, -, h⟩ := h
  split at h
  · obtain ⟨document, -, rfl⟩ := Option.map_eq_some_iff.mp h
    rfl
  · exact absurd h (by simp)

theorem whereabouts_skipped {l : Location} {rest : List Location} (hm : l.moduleName? = none)
    (hp : host.place? includeHidden l = none) :
    host.whereabouts includeHidden (l :: rest) = host.whereabouts includeHidden rest := by
  rw [whereabouts, whereabouts, List.findSome?_cons, hm, List.filterMap_cons, hp]

theorem whereabouts_place {l : Location} {rest : List Location} {span : DocumentSpan}
    (h : host.place? includeHidden l = some span) :
    host.whereabouts includeHidden (l :: rest) =
      (host.whereabouts includeHidden rest).cons span := by
  rw [whereabouts, whereabouts, List.findSome?_cons, moduleName?_of_place? h,
    List.filterMap_cons, h]
  cases rest.findSome? Location.moduleName? <;> rfl

theorem counted_skipped {l : Location} {rest : List Location} (hm : l.moduleName? = none)
    (hp : host.place? includeHidden l = none) :
    host.counted includeHidden (l :: rest) = host.counted includeHidden rest := by
  simp [counted, hm, hp]

/-- **Induction over locations**, by what the reading does with the first one. -/
@[elab_as_elim]
theorem location_induction (host : Host σ) (includeHidden : Bool)
    {motive : List Location → Prop} (nil : motive [])
    (metadata : ∀ moduleName rest, motive (.inMetadata moduleName :: rest))
    (skipped : ∀ l rest, l.moduleName? = none → host.place? includeHidden l = none →
      motive rest → motive (l :: rest))
    (place : ∀ l rest span, host.place? includeHidden l = some span → motive rest →
      motive (l :: rest))
    (locations : List Location) : motive locations := by
  induction locations with
  | nil => exact nil
  | cons l rest ih =>
    cases hm : l.moduleName? with
    | some moduleName =>
      cases l with
      | inMetadata name => exact metadata name rest
      | inSource source => simp [Location.moduleName?] at hm
      | nowhere => simp [Location.moduleName?] at hm
    | none =>
      cases hp : host.place? includeHidden l with
      | none => exact skipped l rest hm hp ih
      | some span => exact place l rest span hp ih

/-! ## 2. One location -/

variable {signal : Signal} {query : DefinitionQuery} {s : Session σ}

/-- A lookup never fails. -/
theorem bind_find {α : Type} (file : FileId) (f : Option Document → Work σ α) :
    (host.documents.find file >>= f) s =
      f (host.documents.document? file) (host.documents.touch file s) := rfl

/-- Without previews a span is made at once. -/
theorem span_without_previews (document : Document) (range : TextRange) :
    host.span signal false document range = pure ⟨document, range, none⟩ := rfl

/-- A raised signal is noticed before the classifier is called. -/
theorem span_of_raised (document : Document) (range : TextRange) (h : s.Raised signal) :
    host.span signal true document range s = .error .cancelled s :=
  Work.bind_of_error _ (Work.heed_of_raised h)

/-- Otherwise the outcome is that of the classifier. -/
theorem span_of_calm (document : Document) (range : TextRange) (h : s.Calm signal) :
    host.span signal true document range s =
      (do
        let preview ← host.classify signal document range
        return ⟨document, range, some preview⟩ : Work σ DocumentSpan) s :=
  Work.bind_of_ok _ (Work.heed_of_not_raised h)

/-- **A skipped location** leaves at most a lookup behind. -/
theorem locate_skipped {l : Location} {rest : List Location} (hm : l.moduleName? = none)
    (hp : host.place? query.includeHidden l = none) :
    host.locate signal query (l :: rest) s =
      host.locate signal query rest (host.lookedUp query.includeHidden l s) := by
  cases l with
  | nowhere => rfl
  | inMetadata moduleName => simp [Location.moduleName?] at hm
  | inSource place =>
    by_cases hpass : place.passes query.includeHidden = true
    · have hd : host.documents.document? place.file = none := by
        simpa [place?, Location.source?, hpass] using hp
      rw [locate, if_pos hpass, bind_find, hd, lookedUp, if_pos hpass]
    · rw [locate, if_neg hpass, lookedUp, if_neg hpass]

/-- **A location that counts** gives its span, and the rest is read behind it. -/
theorem locate_place {l : Location} {rest : List Location} {span : DocumentSpan}
    (h : host.place? query.includeHidden l = some span) :
    host.locate signal query (l :: rest) s =
      (do
        let made ← host.span signal query.previews span.document span.range
        let others ← host.locate signal query rest
        return others.cons made : Work σ Whereabouts) (host.lookedUp query.includeHidden l s) := by
  cases l with
  | nowhere => simp [place?, Location.source?] at h
  | inMetadata moduleName => simp [place?_inMetadata] at h
  | inSource place =>
    simp only [place?, Location.source?, Option.bind_some] at h
    split at h
    · rename_i hpass
      obtain ⟨document, hd, rfl⟩ := Option.map_eq_some_iff.mp h
      rw [locate, if_pos hpass, bind_find, hd, lookedUp, if_pos hpass]
    · exact absurd h (by simp)

/-! ## 3. Lists of locations -/

/-- **Reading a list is reading its front and then the rest**, unless a compiled module in the
front has ended the reading. -/
theorem locate_append (front rest : List Location) :
    host.locate signal query (front ++ rest) =
      (do
        match ← host.locate signal query front with
        | .metadata moduleName => return .metadata moduleName
        | .source spans =>
          let others ← host.locate signal query rest
          return others.prepend spans) := by
  induction front using location_induction host query.includeHidden with
  | nil => exact (bind_pure _).symm
  | metadata moduleName front => rfl
  | skipped l front hm hp ih =>
    funext s
    rw [List.cons_append, locate_skipped hm hp, ih, Work.bind_apply, Work.bind_apply,
      locate_skipped hm hp]
  | place l front span hp ih =>
    funext s
    rw [List.cons_append, locate_place hp, ih, Work.bind_apply (host.locate _ _ (l :: front)),
      locate_place hp, ← Work.bind_apply]
    simp only [bind_assoc, pure_bind]
    refine congrFun (bind_congr fun made => bind_congr fun w => ?_) _
    cases w with
    | source spans => simp [Whereabouts.cons]
    | metadata moduleName => simp [Whereabouts.cons]

/-- The services that reading calls keep a property of sessions. -/
structure Maintains (host : Host σ) (signal : Signal) (P : Session σ → Prop) : Prop where
  find : ∀ file, (host.documents.find file).Maintains P
  classify : ∀ document range, (host.classify signal document range).Maintains P

variable {P : Session σ → Prop}

theorem lookedUp_of_find (find : ∀ file, (host.documents.find file).Maintains P)
    (l : Location) (hs : P s) : P (host.lookedUp includeHidden l s) := by
  cases l with
  | nowhere => exact hs
  | inMetadata moduleName => exact hs
  | inSource place =>
    rw [Host.lookedUp]
    split
    · exact find place.file s hs
    · exact hs

theorem Maintains.span (h : host.Maintains signal P) (previews : Bool) (document : Document)
    (range : TextRange) : (host.span signal previews document range).Maintains P := by
  cases previews with
  | false => exact Work.maintains_pure _
  | true =>
    exact (Work.maintains_heed signal).bind fun _ =>
      (h.classify document range).bind fun _ => Work.maintains_pure _

/-- **What the services keep, the reading keeps.** -/
theorem Maintains.locate (h : host.Maintains signal P) (query : DefinitionQuery)
    (locations : List Location) : (host.locate signal query locations).Maintains P := by
  induction locations using location_induction host query.includeHidden with
  | nil => exact Work.maintains_pure _
  | metadata moduleName rest => exact Work.maintains_pure _
  | skipped l rest hm hp ih =>
    intro s hs
    rw [Work.finalSession_congr (locate_skipped hm hp)]
    exact ih _ (lookedUp_of_find h.find l hs)
  | place l rest span hp ih =>
    intro s hs
    rw [Work.finalSession_congr (locate_place hp)]
    exact ((h.span query.previews span.document span.range).bind fun _ =>
      ih.bind fun _ => Work.maintains_pure _) _ (lookedUp_of_find h.find l hs)

/-! ## 4. How a reading ends -/

/-- Where the signal is not raised, the classifier gives a preview. -/
def Answers (host : Host σ) (signal : Signal) : Prop :=
  ∀ document range s, s.Calm signal →
    ∃ preview s', host.classify signal document range s = .ok preview s'

/-- The classifier fails only because the request was cancelled. -/
def FailsOnlyCancelled (host : Host σ) (signal : Signal) : Prop :=
  ∀ document range s fault s',
    host.classify signal document range s = .error fault s' → fault = .cancelled

/-- A span that was made is the span of the range, whatever its preview. -/
theorem withoutPreview_of_span {previews : Bool} {document : Document} {range : TextRange}
    {made : DocumentSpan} {s' : Session σ}
    (h : host.span signal previews document range s = .ok made s') :
    made.withoutPreview = ⟨document, range, none⟩ := by
  cases previews with
  | false =>
    rw [span_without_previews, Work.pure_apply, EStateM.Result.ok.injEq] at h
    rw [← h.1]
    rfl
  | true =>
    by_cases hs : s.Calm signal
    · rw [span_of_calm _ _ hs] at h
      obtain ⟨preview, s₁, -, h⟩ := Work.of_bind_ok h
      cases h
      rfl
    · rw [span_of_raised _ _ (Session.not_calm_iff.mp hs)] at h
      cases h

/-- In a session whose signal stays down, a span is made. -/
theorem span_of_answers (answers : host.Answers signal) (previews : Bool)
    (document : Document) (range : TextRange)
    (hcalm : ((host.span signal previews document range).finalSession s).Calm signal) :
    ∃ made s', host.span signal previews document range s = .ok made s' := by
  cases previews with
  | false => exact ⟨_, _, rfl⟩
  | true =>
    by_cases hs : s.Calm signal
    · obtain ⟨preview, s', hc⟩ := answers document range s hs
      refine ⟨⟨document, range, some preview⟩, s', ?_⟩
      rw [span_of_calm _ _ hs, Work.bind_of_ok _ hc]
      rfl
    · have hr := Session.not_calm_iff.mp hs
      rw [Work.finalSession_of_error (span_of_raised _ _ hr)] at hcalm
      exact absurd hcalm hs

/-- The making of a span fails as the classifier does, or because it was told to stop. -/
theorem fault_of_span (faults : host.FailsOnlyCancelled signal) {previews : Bool}
    {document : Document} {range : TextRange} {fault : Fault} {s' : Session σ}
    (h : host.span signal previews document range s = .error fault s') : fault = .cancelled := by
  cases previews with
  | false => cases h
  | true =>
    by_cases hs : s.Calm signal
    · rw [span_of_calm _ _ hs] at h
      rcases Work.of_bind_error h with hc | ⟨preview, s₁, -, h⟩
      · exact faults document range s fault s' hc
      · cases h
    · rw [span_of_raised _ _ (Session.not_calm_iff.mp hs)] at h
      cases h
      rfl

/-- **A reading that ends well** comes to what the list says by itself. -/
theorem withoutPreviews_of_locate {locations : List Location} {w : Whereabouts}
    {s' : Session σ} (h : host.locate signal query locations s = .ok w s') :
    w.withoutPreviews = host.whereabouts query.includeHidden locations := by
  induction locations using location_induction host query.includeHidden
    generalizing s s' w with
  | nil => cases h; rfl
  | metadata moduleName rest => cases h; rfl
  | skipped l rest hm hp ih =>
    rw [locate_skipped hm hp] at h
    rw [whereabouts_skipped hm hp]
    exact ih h
  | place l rest span hp ih =>
    rw [locate_place hp] at h
    obtain ⟨made, s₂, hmade, h⟩ := Work.of_bind_ok h
    obtain ⟨others, s₃, hothers, h⟩ := Work.of_bind_ok h
    cases h
    rw [Whereabouts.withoutPreviews_cons, ih hothers, withoutPreview_of_span hmade,
      whereabouts_place hp, ← withoutPreview_of_place? hp]
    rfl

/-- **An undisturbed reading** ends well: if signals that are raised stay raised, the classifier
answers while the signal is down, and the signal is down when the reading ends. -/
theorem locate_of_calm (raised : host.Maintains signal (Session.Raised signal))
    (answers : host.Answers signal) (query : DefinitionQuery) (locations : List Location)
    (hcalm : ((host.locate signal query locations).finalSession s).Calm signal) :
    ∃ w s', host.locate signal query locations s = .ok w s' := by
  induction locations using location_induction host query.includeHidden generalizing s with
  | nil => exact ⟨_, _, rfl⟩
  | metadata moduleName rest => exact ⟨_, _, rfl⟩
  | skipped l rest hm hp ih =>
    rw [Work.finalSession_congr (locate_skipped hm hp)] at hcalm
    rw [locate_skipped hm hp]
    exact ih hcalm
  | place l rest span hp ih =>
    rw [Work.finalSession_congr (locate_place hp)] at hcalm
    have hspan := Work.calm_of_calm_bind
      (fun _ => (raised.locate query rest).bind fun _ => Work.maintains_pure _) hcalm
    obtain ⟨made, s₂, hmade⟩ := span_of_answers answers _ _ _ hspan
    rw [Work.finalSession_bind_of_ok _ hmade] at hcalm
    obtain ⟨w, s₃, hw⟩ := ih (Work.calm_of_calm_bind (fun _ => Work.maintains_pure _) hcalm)
    refine ⟨w.cons made, s₃, ?_⟩
    rw [locate_place hp, Work.bind_of_ok _ hmade, Work.bind_of_ok _ hw]
    rfl

/-- Without a compiled module among the locations, a reading that ends well comes to spans. -/
theorem source_of_locate {locations : List Location}
    (hm : ∀ l ∈ locations, l.moduleName? = none) {w : Whereabouts} {s' : Session σ}
    (h : host.locate signal query locations s = .ok w s') : ∃ spans, w = .source spans := by
  have hlist := withoutPreviews_of_locate h
  rw [whereabouts, List.findSome?_eq_none_iff.mpr hm] at hlist
  cases w with
  | source spans => exact ⟨spans, rfl⟩
  | metadata moduleName => simp [Whereabouts.withoutPreviews] at hlist

/-- A reading fails as the classifier does, or because it was told to stop. -/
theorem fault_of_locate (faults : host.FailsOnlyCancelled signal)
    {locations : List Location} {fault : Fault} {s' : Session σ}
    (h : host.locate signal query locations s = .error fault s') : fault = .cancelled := by
  induction locations using location_induction host query.includeHidden generalizing s with
  | nil => cases h
  | metadata moduleName rest => cases h
  | skipped l rest hm hp ih =>
    rw [locate_skipped hm hp] at h
    exact ih h
  | place l rest span hp ih =>
    rw [locate_place hp] at h
    rcases Work.of_bind_error h with hspan | ⟨made, s₂, -, h⟩
    · exact fault_of_span faults hspan
    · rcases Work.of_bind_error h with hrest | ⟨others, s₃, -, h⟩
      · exact ih hrest
      · cases h

/-- **A reading that is told to stop.**  Lookups do not take a raised signal back, so with
previews the first location that counts ends the reading, and none of it is left. -/
theorem locate_of_raised (find : ∀ file, (host.documents.find file).Maintains
    (Session.Raised signal)) (hprev : query.previews = true) (hs : s.Raised signal)
    {locations : List Location} (hcounted : host.counted query.includeHidden locations ≠ []) :
    ∃ s', host.locate signal query locations s = .error .cancelled s' := by
  induction locations using location_induction host query.includeHidden generalizing s with
  | nil => exact absurd rfl hcounted
  | metadata moduleName rest => exact absurd rfl hcounted
  | skipped l rest hm hp ih =>
    rw [counted_skipped hm hp] at hcounted
    rw [locate_skipped hm hp]
    exact ih (lookedUp_of_find find l hs) hcounted
  | place l rest span hp ih =>
    refine ⟨host.lookedUp query.includeHidden l s, ?_⟩
    rw [locate_place hp, hprev]
    exact Work.bind_of_error _ (span_of_raised _ _ (lookedUp_of_find find l hs))

/-- **A reading without previews** ends well in every session, with what the list says by
itself. -/
theorem locate_without_previews (hprev : query.previews = false) (locations : List Location)
    (s : Session σ) :
    ∃ s', host.locate signal query locations s =
      .ok (host.whereabouts query.includeHidden locations) s' := by
  induction locations using location_induction host query.includeHidden generalizing s with
  | nil => exact ⟨s, rfl⟩
  | metadata moduleName rest => exact ⟨s, rfl⟩
  | skipped l rest hm hp ih =>
    rw [locate_skipped hm hp, whereabouts_skipped hm hp]
    exact ih _
  | place l rest span hp ih =>
    obtain ⟨s', hrest⟩ := ih (host.lookedUp query.includeHidden l s)
    refine ⟨s', ?_⟩
    rw [locate_place hp, whereabouts_place hp, hprev, span_without_previews, pure_bind,
      Work.bind_of_ok _ hrest, ← withoutPreview_of_place? hp]
    rfl

end Host
end UsageReport

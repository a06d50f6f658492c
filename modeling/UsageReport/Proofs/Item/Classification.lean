/-
# Faults while previews are made

With previews, an item calls the classifier once for each location that counts, and each call
comes right after the lookup of the document.  `Host.arrivals` lists these moments, read off the
list of locations and off the services alone: each holds the span that is to get a preview and the
session right after its lookup.  At an arrival one of two things goes wrong or nothing does
(`Host.faultAt?`): the signal is raised, and the classifier is not called, or it is called and
fails.

The main statement (`definitionItem_faults`) is that an item fails with the fault of the first
arrival that has one, and that nothing else makes it fail, the signal at the very beginning apart.
So a request that is cancelled by the last classification still gets its item, and the item is
complete.  No assumption is made on the services: the classifier may fail for any reason, a lookup
or a classification may cancel the request, and it may even be taken up again.

Which calls are made cannot be seen in an item.  `Host.recorded` is any host together with a
record of the calls of its classifier, kept where the services keep what they remember, and the
statement is about hosts with a record.
-/
import UsageReport.Proofs.Item.Navigation
import UsageReport.Scenario.Host

namespace UsageReport

/-! ## 1. Hosts with a record -/

/-- The session with a record of the classifier's calls beside what the services remember.  A call
is written down as the span that it is for. -/
def Session.withCalls {σ : Type} (s : Session σ) (calls : List DocumentSpan) :
    Session (σ × List DocumentSpan) :=
  ⟨s.cancelled, (s.services, calls)⟩

/-- The work, which also writes down some calls, however it ends. -/
def Work.recording {σ α : Type} (x : Work σ α) (calls : List DocumentSpan) :
    Work (σ × List DocumentSpan) α := fun s =>
  match x ⟨s.cancelled, s.services.1⟩ with
  | .ok a s' => .ok a (s'.withCalls (s.services.2 ++ calls))
  | .error fault s' => .error fault (s'.withCalls (s.services.2 ++ calls))

theorem Work.recording_of_ok {σ α : Type} {x : Work σ α} {s s' : Session σ} {a : α}
    (h : x s = .ok a s') (earlier calls : List DocumentSpan) :
    x.recording calls (s.withCalls earlier) = .ok a (s'.withCalls (earlier ++ calls)) := by
  have hx : x ⟨s.cancelled, s.services⟩ = .ok a s' := h
  simp only [recording, Session.withCalls, hx]

theorem Work.recording_of_error {σ α : Type} {x : Work σ α} {s s' : Session σ} {fault : Fault}
    (h : x s = .error fault s') (earlier calls : List DocumentSpan) :
    x.recording calls (s.withCalls earlier) =
      .error fault (s'.withCalls (earlier ++ calls)) := by
  have hx : x ⟨s.cancelled, s.services⟩ = .error fault s' := h
  simp only [recording, Session.withCalls, hx]

/-- The session without its record. -/
def Session.withoutCalls {σ : Type} (s : Session (σ × List DocumentSpan)) : Session σ :=
  ⟨s.cancelled, s.services.1⟩

/-- The work with a record ends as the work without one does, wherever the two begin. -/
def Work.Mirrors {σ α : Type} (y : Work (σ × List DocumentSpan) α) (x : Work σ α) : Prop :=
  ∀ s calls, match y (s.withCalls calls) with
    | .ok a s' => x s = .ok a s'.withoutCalls
    | .error fault s' => x s = .error fault s'.withoutCalls

section

variable {σ α β : Type} {signal : Signal} {s : Session σ} {calls : List DocumentSpan}

theorem calm_withCalls (h : s.Calm signal) : (s.withCalls calls).Calm signal := by
  cases signal <;> exact h

theorem raised_withCalls (h : s.Raised signal) : (s.withCalls calls).Raised signal := by
  cases signal <;> exact h

theorem Work.mirrors_pure (a : α) :
    Mirrors (pure a : Work (σ × List DocumentSpan) α) (pure a) := fun _ _ => rfl

theorem Work.mirrors_heed (signal : Signal) :
    Mirrors (heed signal : Work (σ × List DocumentSpan) Unit) (heed signal) := by
  intro s calls
  by_cases hs : s.Calm signal
  · rw [heed_of_not_raised (calm_withCalls hs), heed_of_not_raised hs]
    rfl
  · have hr := Session.not_calm_iff.mp hs
    rw [heed_of_raised (raised_withCalls hr), heed_of_raised hr]
    rfl

theorem Work.mirrors_recording (x : Work σ α) (more : List DocumentSpan) :
    (x.recording more).Mirrors x := by
  intro s calls
  cases hx : x s with
  | ok a s' =>
    rw [recording_of_ok hx]
    rfl
  | error fault s' =>
    rw [recording_of_error hx]
    rfl

theorem Work.Mirrors.bind {y : Work (σ × List DocumentSpan) α} {x : Work σ α}
    {g : α → Work (σ × List DocumentSpan) β} {f : α → Work σ β} (h : y.Mirrors x)
    (hrest : ∀ a, (g a).Mirrors (f a)) : Mirrors (y >>= g) (x >>= f) := by
  intro s calls
  have hs := h s calls
  cases hy : y (s.withCalls calls) with
  | ok a s' =>
    rw [hy] at hs
    rw [bind_of_ok g hy, bind_of_ok f hs]
    exact hrest a s'.withoutCalls s'.services.2
  | error fault s' =>
    rw [hy] at hs
    rw [bind_of_error g hy, bind_of_error f hs]

end

namespace Host

variable {σ : Type}

/-- The host, which also writes down each call of its classifier.  All other services are as they
were, and the contributed items come from the documents of the host. -/
def recorded (host : Host σ) : Host (σ × List DocumentSpan) where
  documents :=
    { document? := host.documents.document?
      touch := fun file s =>
        (host.documents.touch file ⟨s.cancelled, s.services.1⟩).withCalls s.services.2 }
  classify := fun signal document range =>
    (host.classify signal document range).recording [⟨document, range, none⟩]
  display := host.display
  nameDisplay := host.nameDisplay
  glyph := host.glyph
  crossReference? := host.crossReference?
  showsUnreferenced := host.showsUnreferenced
  properties := host.properties
  linked? := fun _ signal item => (host.linked? host.documents signal item).recording []

variable {host : Host σ} {signal : Signal} {includeHidden : Bool} {query : DefinitionQuery}
  {s : Session σ}

/-- A lookup writes nothing down. -/
theorem lookedUp_recorded (l : Location) (s : Session σ) (calls : List DocumentSpan) :
    host.recorded.lookedUp includeHidden l (s.withCalls calls) =
      (host.lookedUp includeHidden l s).withCalls calls := by
  cases l with
  | inSource place =>
    rw [lookedUp, lookedUp]
    split <;> rfl
  | inMetadata moduleName => rfl
  | nowhere => rfl

theorem mirrors_span (previews : Bool) (document : Document) (range : TextRange) :
    (host.recorded.span signal previews document range).Mirrors
      (host.span signal previews document range) := by
  cases previews with
  | false => exact Work.mirrors_pure _
  | true =>
    exact (Work.mirrors_heed signal).bind fun _ =>
      (Work.mirrors_recording _ _).bind fun _ => Work.mirrors_pure _

theorem mirrors_locate (locations : List Location) :
    (host.recorded.locate signal query locations).Mirrors
      (host.locate signal query locations) := by
  induction locations using location_induction host query.includeHidden with
  | nil => exact Work.mirrors_pure _
  | metadata moduleName rest => exact Work.mirrors_pure _
  | skipped l rest hm hp ih =>
    intro s calls
    have hp' : host.recorded.place? query.includeHidden l = none := hp
    rw [locate_skipped hm hp', locate_skipped hm hp, lookedUp_recorded]
    exact ih _ calls
  | place l rest span hp ih =>
    intro s calls
    have hp' : host.recorded.place? query.includeHidden l = some span := hp
    rw [locate_place hp', locate_place hp, lookedUp_recorded]
    exact (mirrors_span _ _ _).bind (fun _ => ih.bind fun _ => Work.mirrors_pure _) _ calls

/-- **The record makes no difference to an item.** -/
theorem mirrors_definitionItem (symbol : Symbol) (locations : List Location) :
    (host.recorded.definitionItem signal query symbol locations).Mirrors
      (host.definitionItem signal query symbol locations) := by
  refine (Work.mirrors_heed signal).bind fun _ => ?_
  dsimp only
  split
  · exact Work.mirrors_pure _
  · exact (mirrors_locate locations).bind fun _ => Work.mirrors_pure _

/-! ## 2. The moments at which the classifier is called -/

/-- The moment right after the lookup for a location that counts. -/
structure Arrival (σ : Type) where
  document : Document
  range : TextRange
  session : Session σ

/-- The span of the location, without a preview. -/
def Arrival.span (a : Arrival σ) : DocumentSpan := ⟨a.document, a.range, none⟩

/-- The session after the classification at an arrival. -/
def sessionAfter (host : Host σ) (signal : Signal) (a : Arrival σ) : Session σ :=
  (host.classify signal a.document a.range).finalSession a.session

/-- The arrivals at the locations that count and stand before the first compiled module, if the
work begins in a session and is not cut short. -/
def arrivals (host : Host σ) (signal : Signal) (includeHidden : Bool) :
    List Location → Session σ → List (Arrival σ)
  | [], _ => []
  | l :: rest, s =>
    if l.moduleName?.isSome then []
    else
      match host.place? includeHidden l with
      | none => host.arrivals signal includeHidden rest (host.lookedUp includeHidden l s)
      | some span =>
        let a : Arrival σ := ⟨span.document, span.range, host.lookedUp includeHidden l s⟩
        a :: host.arrivals signal includeHidden rest (host.sessionAfter signal a)

variable (host : Host σ) (signal : Signal)

/-- What goes wrong at an arrival: the signal is raised, or else the classifier fails. -/
def faultAt? (a : Arrival σ) : Option Fault :=
  if a.session.raised signal then some .cancelled
  else
    match host.classify signal a.document a.range a.session with
    | .ok _ _ => none
    | .error fault _ => some fault

/-- The calls at an arrival: one, unless the signal is raised. -/
def callsAt (a : Arrival σ) : List DocumentSpan :=
  if a.session.raised signal then [] else [a.span]

/-- The span of an arrival with the preview that the classifier gives there. -/
def spanAt (a : Arrival σ) : DocumentSpan :=
  match host.classify signal a.document a.range a.session with
  | .ok preview _ => { a.span with preview := some preview }
  | .error _ _ => a.span

variable {host signal}

theorem arrivals_skipped {l : Location} {rest : List Location} (hm : l.moduleName? = none)
    (hp : host.place? includeHidden l = none) :
    host.arrivals signal includeHidden (l :: rest) s =
      host.arrivals signal includeHidden rest (host.lookedUp includeHidden l s) := by
  rw [arrivals, hm, hp]
  rfl

theorem arrivals_place (signal : Signal) (s : Session σ) {l : Location} {rest : List Location}
    {span : DocumentSpan} (hp : host.place? includeHidden l = some span) :
    ∃ a : Arrival σ, a.span = span ∧ a.session = host.lookedUp includeHidden l s ∧
      host.arrivals signal includeHidden (l :: rest) s =
        a :: host.arrivals signal includeHidden rest (host.sessionAfter signal a) := by
  refine ⟨⟨span.document, span.range, _⟩, withoutPreview_of_place? hp, rfl, ?_⟩
  rw [arrivals, moduleName?_of_place? hp, hp]
  rfl

theorem counted_place {l : Location} {rest : List Location} {span : DocumentSpan}
    (hp : host.place? includeHidden l = some span) :
    host.counted includeHidden (l :: rest) = span :: host.counted includeHidden rest := by
  simp [counted, moduleName?_of_place? hp, hp]

/-- **There is one arrival for each location that counts**, in the order of the list. -/
theorem map_span_arrivals (signal : Signal) (locations : List Location) (s : Session σ) :
    (host.arrivals signal includeHidden locations s).map Arrival.span =
      host.counted includeHidden locations := by
  induction locations using location_induction host includeHidden generalizing s with
  | nil => rfl
  | metadata moduleName rest => rfl
  | skipped l rest hm hp ih => rw [arrivals_skipped hm hp, counted_skipped hm hp, ih]
  | place l rest span hp ih =>
    obtain ⟨a, rfl, -, harrivals⟩ := arrivals_place signal s hp
    rw [harrivals, counted_place hp, List.map_cons, ih]

/-! ## 3. One arrival -/

variable {a : Arrival σ}

theorem faultAt?_of_raised (h : a.session.Raised signal) :
    host.faultAt? signal a = some .cancelled := if_pos h

theorem faultAt?_of_calm (h : a.session.Calm signal) :
    host.faultAt? signal a = match host.classify signal a.document a.range a.session with
      | .ok _ _ => none
      | .error fault _ => some fault := by
  rw [faultAt?, h]
  exact if_neg Bool.false_ne_true

theorem callsAt_of_raised (h : a.session.Raised signal) : callsAt signal a = [] := if_pos h

theorem callsAt_of_calm (h : a.session.Calm signal) : callsAt signal a = [a.span] := by
  rw [callsAt, h]
  exact if_neg Bool.false_ne_true

/-- Where nothing goes wrong, the signal is down and the classifier answers. -/
theorem of_faultAt?_eq_none (h : host.faultAt? signal a = none) :
    a.session.Calm signal ∧ ∃ preview s',
      host.classify signal a.document a.range a.session = .ok preview s' := by
  by_cases hs : a.session.Calm signal
  · rw [faultAt?_of_calm hs] at h
    cases hc : host.classify signal a.document a.range a.session with
    | ok preview s' => exact ⟨hs, preview, s', rfl⟩
    | error fault s' => simp [hc] at h
  · simp [faultAt?_of_raised (Session.not_calm_iff.mp hs)] at h

/-- An arrival with a fault ends the work with this fault. -/
theorem span_of_faultAt? {fault : Fault} (h : host.faultAt? signal a = some fault)
    (calls : List DocumentSpan) :
    ∃ s' : Session σ,
      host.recorded.span signal true a.document a.range (a.session.withCalls calls) =
        .error fault (s'.withCalls (calls ++ callsAt signal a)) := by
  by_cases hs : a.session.Calm signal
  · rw [faultAt?_of_calm hs] at h
    cases hc : host.classify signal a.document a.range a.session with
    | ok preview s' => simp [hc] at h
    | error fault' s' =>
      rw [hc] at h
      cases h
      refine ⟨s', ?_⟩
      rw [callsAt_of_calm hs, span_of_calm _ _ (calm_withCalls hs)]
      exact Work.bind_of_error _ (Work.recording_of_error hc _ _)
  · have hr := Session.not_calm_iff.mp hs
    rw [faultAt?_of_raised hr] at h
    cases h
    refine ⟨a.session, ?_⟩
    rw [callsAt_of_raised hr, List.append_nil]
    exact span_of_raised _ _ (raised_withCalls hr)

/-- An arrival without a fault gives its span. -/
theorem span_of_faultAt?_eq_none (h : host.faultAt? signal a = none)
    (calls : List DocumentSpan) :
    host.recorded.span signal true a.document a.range (a.session.withCalls calls) =
      .ok (host.spanAt signal a)
        ((host.sessionAfter signal a).withCalls (calls ++ [a.span])) := by
  obtain ⟨hs, preview, s', hc⟩ := of_faultAt?_eq_none h
  rw [span_of_calm _ _ (calm_withCalls hs), sessionAfter, Work.finalSession_of_ok hc, spanAt, hc]
  exact Work.bind_of_ok _ (Work.recording_of_ok hc _ _)

/-- The span that it gives has a preview. -/
theorem isSome_preview_spanAt (h : host.faultAt? signal a = none) :
    (host.spanAt signal a).preview.isSome := by
  obtain ⟨-, preview, s', hc⟩ := of_faultAt?_eq_none h
  rw [spanAt, hc]
  rfl

/-! ## 4. Lists of locations -/

variable {locations : List Location}

/-- Reading a location that counts is making the span of its arrival, and then reading on. -/
theorem locate_recorded_place (hprev : query.previews = true) {l : Location}
    {rest : List Location} (hp : host.place? query.includeHidden l = some a.span)
    (ha : a.session = host.lookedUp query.includeHidden l s) (calls : List DocumentSpan) :
    host.recorded.locate signal query (l :: rest) (s.withCalls calls) =
      (do
        let made ← host.recorded.span signal true a.document a.range
        let others ← host.recorded.locate signal query rest
        return others.cons made : Work (σ × List DocumentSpan) Whereabouts)
        (a.session.withCalls calls) := by
  have hp' : host.recorded.place? query.includeHidden l = some a.span := hp
  rw [locate_place hp', lookedUp_recorded, hprev, ha]
  rfl

/-- **The first arrival with a fault ends the reading.** -/
theorem locate_of_faultAt? (hprev : query.previews = true) {front back : List (Arrival σ)}
    {fault : Fault}
    (harrivals : host.arrivals signal query.includeHidden locations s = front ++ a :: back)
    (hfront : ∀ b ∈ front, host.faultAt? signal b = none)
    (ha : host.faultAt? signal a = some fault) (calls : List DocumentSpan) :
    ∃ s' : Session σ, host.recorded.locate signal query locations (s.withCalls calls) =
      .error fault (s'.withCalls (calls ++ front.map Arrival.span ++ callsAt signal a)) := by
  induction locations using location_induction host query.includeHidden
    generalizing s front calls with
  | nil => cases front <;> cases harrivals
  | metadata moduleName rest => cases front <;> cases harrivals
  | skipped l rest hm hp ih =>
    rw [arrivals_skipped hm hp] at harrivals
    have hp' : host.recorded.place? query.includeHidden l = none := hp
    rw [locate_skipped hm hp', lookedUp_recorded]
    exact ih harrivals hfront calls
  | place l rest span hp ih =>
    obtain ⟨b, rfl, hb, hcons⟩ := arrivals_place signal s hp
    rw [hcons] at harrivals
    rw [locate_recorded_place hprev hp hb]
    cases front with
    | nil =>
      cases harrivals
      obtain ⟨s', hspan⟩ := span_of_faultAt? ha calls
      rw [List.map_nil, List.append_nil]
      exact ⟨s', Work.bind_of_error _ hspan⟩
    | cons c front =>
      obtain ⟨rfl, hrest⟩ := List.cons.inj harrivals
      have hspan := span_of_faultAt?_eq_none (hfront b List.mem_cons_self) calls
      obtain ⟨s', hlocate⟩ := ih hrest (fun c hc => hfront c (List.mem_cons_of_mem _ hc))
        (calls ++ [b.span])
      refine ⟨s', ?_⟩
      rw [Work.bind_of_ok _ hspan, List.map_cons,
        List.append_cons calls b.span (front.map Arrival.span)]
      exact Work.bind_of_error _ hlocate

/-- **Without a fault the reading goes on to its end**, and every span has its preview. -/
theorem locate_of_faultAt?_eq_none (hprev : query.previews = true)
    (hall : ∀ a ∈ host.arrivals signal query.includeHidden locations s,
      host.faultAt? signal a = none) (calls : List DocumentSpan) :
    ∃ (w : Whereabouts) (s' : Session σ),
      host.recorded.locate signal query locations (s.withCalls calls) =
        .ok w (s'.withCalls (calls ++
          (host.arrivals signal query.includeHidden locations s).map Arrival.span)) ∧
      ∀ spans, w = .source spans →
        spans = (host.arrivals signal query.includeHidden locations s).map
          (host.spanAt signal) := by
  induction locations using location_induction host query.includeHidden
    generalizing s calls with
  | nil =>
    refine ⟨.source [], s, ?_, fun spans h => (Whereabouts.source.inj h).symm⟩
    rw [arrivals, List.map_nil, List.append_nil]
    rfl
  | metadata moduleName rest =>
    have hnone : host.arrivals signal query.includeHidden (.inMetadata moduleName :: rest) s =
        [] := rfl
    refine ⟨.metadata moduleName, s, ?_, fun spans h => by cases h⟩
    rw [hnone, List.map_nil, List.append_nil]
    rfl
  | skipped l rest hm hp ih =>
    rw [arrivals_skipped hm hp] at hall ⊢
    have hp' : host.recorded.place? query.includeHidden l = none := hp
    rw [locate_skipped hm hp', lookedUp_recorded]
    exact ih hall calls
  | place l rest span hp ih =>
    obtain ⟨a, rfl, ha, hcons⟩ := arrivals_place signal s hp
    rw [hcons] at hall ⊢
    have hspan := span_of_faultAt?_eq_none (hall a List.mem_cons_self) calls
    obtain ⟨w, s', hlocate, hw⟩ := ih (fun b hb => hall b (List.mem_cons_of_mem _ hb))
      (calls ++ [a.span])
    refine ⟨w.cons (host.spanAt signal a), s', ?_, ?_⟩
    · rw [locate_recorded_place hprev hp ha, Work.bind_of_ok _ hspan, Work.bind_of_ok _ hlocate,
        List.map_cons, List.append_cons calls a.span (List.map _ _)]
      rfl
    · intro spans h
      cases w with
      | metadata moduleName => cases h
      | source others =>
        rw [List.map_cons, ← hw others rfl]
        exact (Whereabouts.source.inj h).symm

/-! ## 5. Items -/

/-- The arrivals of an item.  A namespace is not located at all. -/
def itemArrivals (host : Host σ) (signal : Signal) (includeHidden : Bool) (symbol : Symbol)
    (locations : List Location) (s : Session σ) : List (Arrival σ) :=
  if symbol.canonical.kind.isNamespace then []
  else host.arrivals signal includeHidden locations s

variable {symbol : Symbol}

theorem itemArrivals_of_namespace (h : symbol.canonical.kind.isNamespace = true) :
    host.itemArrivals signal includeHidden symbol locations s = [] := if_pos h

theorem itemArrivals_of_not_namespace (h : symbol.canonical.kind.isNamespace = false) :
    host.itemArrivals signal includeHidden symbol locations s =
      host.arrivals signal includeHidden locations s := by
  rw [itemArrivals, h]
  exact if_neg Bool.false_ne_true

/-- A source item is at the spans of its whereabouts. -/
theorem source_of_assemble {definition : Symbol} {w : Whereabouts} {spans : List DocumentSpan}
    (h : (host.assemble query definition w).navigation = .source spans) : w = .source spans := by
  cases w with
  | metadata moduleName => cases h
  | source others =>
    cases others with
    | nil => cases h
    | cons span others => rw [Navigation.source.inj h]

/-- If some arrival has a fault, there is a first one. -/
theorem exists_first_fault {arrivals : List (Arrival σ)}
    (h : ∃ a ∈ arrivals, (host.faultAt? signal a).isSome) :
    ∃ front a back fault, arrivals = front ++ a :: back ∧
      (∀ b ∈ front, host.faultAt? signal b = none) ∧ host.faultAt? signal a = some fault := by
  obtain ⟨a, hfind⟩ := Option.isSome_iff_exists.mp
    (List.find?_isSome.mpr h : (arrivals.find? fun a => (host.faultAt? signal a).isSome).isSome)
  obtain ⟨ha, front, back, harrivals, hfront⟩ := List.find?_eq_some_iff_append.mp hfind
  obtain ⟨fault, hfault⟩ := Option.isSome_iff_exists.mp ha
  exact ⟨front, a, back, fault, harrivals, fun b hb => by simpa using hfront b hb, hfault⟩

/-- The first arrival with a fault leaves no item. -/
theorem definitionItem_of_faultAt? (query : DefinitionQuery) (hs : s.Calm signal)
    (hprev : query.previews = true) {front back : List (Arrival σ)} {fault : Fault}
    (harrivals : host.itemArrivals signal query.includeHidden symbol locations s =
      front ++ a :: back)
    (hfront : ∀ b ∈ front, host.faultAt? signal b = none)
    (ha : host.faultAt? signal a = some fault) (calls : List DocumentSpan) :
    ∃ s' : Session σ,
      host.recorded.definitionItem signal query symbol locations (s.withCalls calls) =
        .error fault (s'.withCalls (calls ++ front.map Arrival.span ++ callsAt signal a)) := by
  cases hkind : symbol.canonical.kind.isNamespace with
  | true =>
    rw [itemArrivals_of_namespace hkind] at harrivals
    cases front <;> cases harrivals
  | false =>
    rw [itemArrivals_of_not_namespace hkind] at harrivals
    obtain ⟨s', hlocate⟩ := locate_of_faultAt? hprev harrivals hfront ha calls
    rw [definitionItem_of_not_namespace hkind (calm_withCalls hs)]
    exact ⟨s', Work.bind_of_error _ hlocate⟩

/-- Without a fault there is the complete item. -/
theorem definitionItem_of_faultAt?_eq_none (query : DefinitionQuery) (hs : s.Calm signal)
    (hprev : query.previews = true)
    (hall : ∀ a ∈ host.itemArrivals signal query.includeHidden symbol locations s,
      host.faultAt? signal a = none) (calls : List DocumentSpan) :
    ∃ (item : DefinitionItem) (s' : Session σ),
      host.recorded.definitionItem signal query symbol locations (s.withCalls calls) =
        .ok item (s'.withCalls (calls ++
          (host.itemArrivals signal query.includeHidden symbol locations s).map Arrival.span)) ∧
      item.navigation.withoutPreviews =
        host.destination query.includeHidden symbol.canonical locations ∧
      ∀ spans, item.navigation = .source spans →
        spans = (host.itemArrivals signal query.includeHidden symbol locations s).map
          (host.spanAt signal) := by
  cases hkind : symbol.canonical.kind.isNamespace with
  | true =>
    rw [itemArrivals_of_namespace hkind, destination_of_namespace hkind, List.map_nil,
      List.append_nil]
    exact ⟨_, s, definitionItem_of_namespace hkind (calm_withCalls hs), rfl,
      fun spans h => by cases h⟩
  | false =>
    rw [itemArrivals_of_not_namespace hkind] at hall ⊢
    obtain ⟨w, s', hlocate, hw⟩ := locate_of_faultAt?_eq_none hprev hall calls
    refine ⟨host.assemble query symbol.canonical w, s', ?_, ?_, ?_⟩
    · rw [definitionItem_of_not_namespace hkind (calm_withCalls hs), Work.bind_of_ok _ hlocate]
      rfl
    · have hlist : w.withoutPreviews = host.recorded.whereabouts query.includeHidden locations :=
        withoutPreviews_of_locate hlocate
      exact navigation_assemble hkind hlist
    · exact fun spans h => hw spans (source_of_assemble h)

/-- **An item with previews fails at the first arrival with a fault, and only there.**  The
arrivals are those at the locations that count, none at a namespace.  An item fails exactly if the
signal is raised at the beginning or some arrival has a fault.  The fault is that of the first such
arrival, and the classifier has been called once for each arrival before it, in order, and for
this one if the signal was down.  In every other case there is the complete item, whose spans have
the previews that the classifier gave, whatever the signal is by then. -/
theorem definitionItem_faults (host : Host σ) (signal : Signal) (primary includeHidden : Bool)
    (options : SearchOptions) (symbol : Symbol) (locations : List Location) (s : Session σ)
    (calls : List DocumentSpan) :
    let query : DefinitionQuery := ⟨primary, includeHidden, true, options⟩
    let arrivals := host.itemArrivals signal includeHidden symbol locations s
    let outcome :=
      host.recorded.definitionItem signal query symbol locations (s.withCalls calls)
    (host.recorded.definitionItem signal query symbol locations).Mirrors
      (host.definitionItem signal query symbol locations) ∧
    (arrivals.map Arrival.span =
      if symbol.canonical.kind.isNamespace then [] else host.counted includeHidden locations) ∧
    ((∃ fault s', outcome = .error fault s') ↔
      s.Raised signal ∨ ∃ a ∈ arrivals, (host.faultAt? signal a).isSome) ∧
    (s.Raised signal → outcome = .error .cancelled (s.withCalls calls)) ∧
    (∀ front a back fault, s.Calm signal → arrivals = front ++ a :: back →
      (∀ b ∈ front, host.faultAt? signal b = none) → host.faultAt? signal a = some fault →
      ∃ s' : Session σ, outcome =
        .error fault (s'.withCalls (calls ++ front.map Arrival.span ++ callsAt signal a))) ∧
    (s.Calm signal → (∀ a ∈ arrivals, host.faultAt? signal a = none) →
      ∃ (item : DefinitionItem) (s' : Session σ),
        outcome = .ok item (s'.withCalls (calls ++ arrivals.map Arrival.span)) ∧
        item.navigation.withoutPreviews =
          host.destination includeHidden symbol.canonical locations ∧
        ∀ spans, item.navigation = .source spans →
          spans = arrivals.map (host.spanAt signal) ∧ ∀ span ∈ spans, span.preview.isSome) := by
  intro query arrivals outcome
  have hentry : s.Raised signal → outcome = .error .cancelled (s.withCalls calls) :=
    fun hs => definitionItem_of_raised (raised_withCalls hs)
  refine ⟨mirrors_definitionItem symbol locations, ?_, ?_, hentry, ?_, ?_⟩
  · cases hkind : symbol.canonical.kind.isNamespace with
    | true => exact congrArg (List.map Arrival.span) (itemArrivals_of_namespace hkind)
    | false =>
      rw [if_neg Bool.false_ne_true, ← map_span_arrivals signal locations s]
      exact congrArg (List.map Arrival.span) (itemArrivals_of_not_namespace hkind)
  · constructor
    · rintro ⟨fault, s', herror⟩
      by_contra hnot
      rw [not_or] at hnot
      have hs : s.Calm signal := by
        by_contra h
        exact hnot.1 (Session.not_calm_iff.mp h)
      have hall : ∀ a ∈ arrivals, host.faultAt? signal a = none := by
        intro a ha
        by_contra h
        exact hnot.2 ⟨a, ha, Option.isSome_iff_ne_none.mpr h⟩
      obtain ⟨item, s'', hok, -⟩ :=
        definitionItem_of_faultAt?_eq_none query hs rfl hall calls
      cases hok.symm.trans herror
    · intro hfault
      by_cases hs : s.Calm signal
      · obtain ⟨front, a, back, fault, harrivals, hfront, ha⟩ :=
          exists_first_fault (hfault.resolve_left (fun hr => by
            rw [← Session.not_calm_iff] at hr
            exact hr hs))
        obtain ⟨s', herror⟩ :=
          definitionItem_of_faultAt? query hs rfl harrivals hfront ha calls
        exact ⟨fault, _, herror⟩
      · exact ⟨_, _, hentry (Session.not_calm_iff.mp hs)⟩
  · intro front a back fault hs harrivals hfront ha
    exact definitionItem_of_faultAt? query hs rfl harrivals hfront ha calls
  · intro hs hall
    obtain ⟨item, s', hok, hdestination, hspans⟩ :=
      definitionItem_of_faultAt?_eq_none query hs rfl hall calls
    refine ⟨item, s', hok, hdestination, fun spans h => ⟨hspans spans h, ?_⟩⟩
    rw [hspans spans h]
    intro span hspan
    obtain ⟨a, ha, rfl⟩ := List.mem_map.mp hspan
    exact isSome_preview_spanAt (hall a ha)

/-- Standard services over one document, except that the classifier follows a script. -/
def scripted (script : Scenario.ClassifierScript) : Host Scenario.Tally :=
  { standard (.ofDocument sampleDocument) with classify := Scenario.classify script }

/-- The class has two visible declarations.  If the classifier fails at the second one, there is
no item and two calls; if it cancels the request at the first one, there is one call; if it does so
at the second one, which is the last, there is the item all the same. -/
theorem definitionItem_faults_sample :
    let place : DocumentSpan := ⟨sampleDocument, ⟨6, 12, by decide⟩, none⟩
    let s : Session Scenario.Tally := ⟨false, {}⟩
    (∃ s' : Session Scenario.Tally,
      (scripted ⟨some 2, none, "out of reach"⟩).recorded.definitionItem .request
          ⟨false, false, true, {}⟩ sampleSymbol sampleLocations (s.withCalls []) =
        .error (.external "classifier" "out of reach") (s'.withCalls [place, place])) ∧
    (∃ s' : Session Scenario.Tally,
      (scripted ⟨none, some 1, ""⟩).recorded.definitionItem .request
          ⟨false, false, true, {}⟩ sampleSymbol sampleLocations (s.withCalls []) =
        .error .cancelled (s'.withCalls [place])) ∧
    ∃ (item : DefinitionItem) (s' : Session Scenario.Tally),
      (scripted ⟨none, some 2, ""⟩).recorded.definitionItem .request
          ⟨false, false, true, {}⟩ sampleSymbol sampleLocations (s.withCalls []) =
        .ok item (s'.withCalls [place, place]) ∧
      item.navigation.withoutPreviews = .source [place, place] := by
  intro place s
  have hfaults (script : Scenario.ClassifierScript) :=
    definitionItem_faults (scripted script) .request false false {} sampleSymbol sampleLocations
      s []
  refine ⟨?_, ?_, ?_⟩
  · obtain ⟨-, -, -, -, hfirst, -⟩ := hfaults ⟨some 2, none, "out of reach"⟩
    exact hfirst [⟨sampleDocument, _, _⟩] ⟨sampleDocument, _, _⟩ [] _ rfl rfl
      (by rintro b hb; cases List.mem_singleton.mp hb; rfl) rfl
  · obtain ⟨-, -, -, -, hfirst, -⟩ := hfaults ⟨none, some 1, ""⟩
    exact hfirst [⟨sampleDocument, _, _⟩] ⟨sampleDocument, _, _⟩ [] _ rfl rfl
      (by rintro b hb; cases List.mem_singleton.mp hb; rfl) rfl
  · obtain ⟨-, -, -, -, -, hnone⟩ := hfaults ⟨none, some 2, ""⟩
    obtain ⟨item, s', hok, hdestination, -⟩ := hnone rfl (by decide)
    exact ⟨item, s', hok, hdestination⟩

end Host
end UsageReport

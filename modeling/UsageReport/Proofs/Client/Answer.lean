/-
# What a client is answered

A request is answered from the reports of one search.  `Request.told` lists the spans that the
request is told of, straight from the reports and each with the text that a rich client is shown:
for implementations the spans of the definitions; for references the spans of the references,
behind those of the definitions if these are wanted.  The locations of an answer are these spans
in this order, less those that have no location for the client (`locations_ofReports`).

An answer can fail at four points, and each has a lemma of its own: the request was cancelled, it
names no document, it names no position, and then whatever befalls the search, which can fail or
end in a cancelled session.

How often a search is run cannot be seen in an answer.  `SearchService.recorded` is any search
together with a record of what it was asked, kept where the services keep what they remember.
The main statement (`answer_references`) is about searches with a record: it gives the answer,
the session and the record, for every search, request and solution.
-/
import UsageReport.Client.Request
import UsageReport.Proofs.Search.Findings
import UsageReport.Proofs.Work

namespace UsageReport

/-! ## 1. The spans that a request is told of -/

namespace Report

/-- The spans of a reported definition, each with the text of the definition. -/
def definitionSpans : Report → List (DocumentSpan × Option String)
  | definition item => item.sourceSpans.map fun span => (span, some item.displayText)
  | reference _ => []
  | message _ => []
  | title _ => []
  | progress _ _ => []

/-- The span of a reported reference, with the text of its preview. -/
def referenceSpans : Report → List (DocumentSpan × Option String)
  | reference item => [(item.span, item.span.previewText?)]
  | definition _ => []
  | message _ => []
  | title _ => []
  | progress _ _ => []

end Report

/-- The spans that a request is told of, in order. -/
def Request.told (reports : List Report) : Request → List (DocumentSpan × Option String)
  | .implementation _ => reports.flatMap Report.definitionSpans
  | .references request =>
    (if request.includeDeclaration then reports.flatMap Report.definitionSpans else []) ++
      reports.flatMap Report.referenceSpans

namespace RequestContext

/-- The locations of some spans for the client, less the spans that have none. -/
def located (context : RequestContext) (told : List (DocumentSpan × Option String)) :
    List ClientLocation :=
  told.filterMap fun entry => context.location? entry.1 entry.2

variable (context : RequestContext)

theorem located_append (xs ys : List (DocumentSpan × Option String)) :
    context.located (xs ++ ys) = context.located xs ++ context.located ys :=
  List.filterMap_append

theorem definitionLocations_eq_located (reports : List Report) :
    context.definitionLocations (reports.filterMap Report.definition?) =
      context.located (reports.flatMap Report.definitionSpans) := by
  induction reports with
  | nil => rfl
  | cons report rest ih =>
    rw [List.flatMap_cons, located_append, ← ih, List.filterMap_cons]
    cases report with
    | definition item =>
      simp only [Report.definition?, Report.definitionSpans, definitionLocations, located,
        List.flatMap_cons, List.filterMap_map]
      rfl
    | reference item => rfl
    | message text => rfl
    | title text => rfl
    | progress current maximum => rfl

theorem referenceLocations_eq_located (reports : List Report) :
    context.referenceLocations (reports.filterMap Report.reference?) =
      context.located (reports.flatMap Report.referenceSpans) := by
  induction reports with
  | nil => rfl
  | cons report rest ih =>
    rw [List.flatMap_cons, located_append, ← ih, List.filterMap_cons]
    cases report with
    | reference item =>
      simp only [Report.reference?, Report.referenceSpans, referenceLocations, located,
        List.filterMap_cons, List.filterMap_nil]
      cases context.location? item.span item.span.previewText? <;> rfl
    | definition item => rfl
    | message text => rfl
    | title text => rfl
    | progress current maximum => rfl

/-- **The locations of an answer** are those of the spans that the request is told of. -/
theorem locations_ofReports (reports : List Report) (request : Request) :
    context.locations (.ofReports reports) request = context.located (request.told reports) := by
  cases request with
  | implementation place =>
    rw [locations, Findings.definitions_ofReports, definitionLocations_eq_located]
    rfl
  | references request =>
    rw [locations, Findings.definitions_ofReports, Findings.references_ofReports,
      definitionLocations_eq_located, referenceLocations_eq_located, Request.told, located_append]
    cases request.includeDeclaration <;> rfl

/-! ## 2. The points at which an answer can fail -/

variable {context} {σ : Type} {service : SearchService σ} {options : UsageOptions}
  {request : Request} {s : Session σ}

/-- A request that was cancelled is not looked at. -/
theorem answer_of_cancelled (hs : s.Raised .request) :
    context.answer service options request s = .error .cancelled s := by
  have hcollect : context.collect service options request s = .error .cancelled s :=
    Work.bind_of_error _ (Work.heed_of_raised hs)
  exact Work.bind_of_error _ hcollect

/-- A document that the solution does not hold has no positions. -/
theorem answer_of_missing (hs : s.Calm .request)
    (hd : context.solution.document? request.file = none) :
    context.answer service options request s =
      .error (.documentNotFound request.file) s := by
  have hcollect : context.collect service options request s =
      .error (.documentNotFound request.file) s := by
    rw [collect, Work.bind_of_ok _ (Work.heed_of_not_raised hs), hd]
    rfl
  exact Work.bind_of_error _ hcollect

/-- A position that the document does not have is told as it was asked. -/
theorem answer_of_outside {document : Document} (hs : s.Calm .request)
    (hd : context.solution.document? request.file = some document)
    (ho : document.offset? request.position.position = none) :
    context.answer service options request s =
      .error (.invalidPosition request.position.position) s := by
  have hcollect : context.collect service options request s =
      .error (.invalidPosition request.position.position) s := by
    rw [collect, Work.bind_of_ok _ (Work.heed_of_not_raised hs), hd]
    simp only [ho]
    rfl
  exact Work.bind_of_error _ hcollect

/-- Otherwise the search is run, once, at the offset of the position, and the answer is made of
what it leaves behind. -/
theorem answer_of_search {document : Document} {offset : Nat} (hs : s.Calm .request)
    (hd : context.solution.document? request.file = some document)
    (ho : document.offset? request.position.position = some offset) :
    context.answer service options request s =
      let run := service ⟨request.searchKind, document, offset, options⟩ s
      match run.outcome with
      | .error fault => .error fault run.session
      | .ok () =>
        if run.session.cancelled then .error .cancelled run.session
        else .ok (context.located (request.told run.reports)) run.session := by
  have hcollect : context.collect service options request s =
      (do
        let findings ← service.findings ⟨request.searchKind, document, offset, options⟩
        Work.heed .request
        return findings : Work σ Findings) s := by
    rw [collect, Work.bind_of_ok _ (Work.heed_of_not_raised hs), hd]
    simp only [ho]
  generalize hrun : service ⟨request.searchKind, document, offset, options⟩ s = run
  dsimp only
  cases hout : run.outcome with
  | error fault =>
    have hfind : service.findings ⟨request.searchKind, document, offset, options⟩ s =
        .error fault run.session := by
      rw [SearchService.findings, hrun, hout]
    exact Work.bind_of_error _ (hcollect.trans (Work.bind_of_error _ hfind))
  | ok done =>
    have hfind : service.findings ⟨request.searchKind, document, offset, options⟩ s =
        .ok (.ofReports run.reports) run.session := by
      rw [SearchService.findings, hrun, hout]
    rw [Work.bind_of_ok _ hfind] at hcollect
    cases hc : run.session.cancelled with
    | true =>
      have hr : run.session.Raised .request := hc
      exact Work.bind_of_error _
        (hcollect.trans (Work.bind_of_error _ (Work.heed_of_raised hr)))
    | false =>
      have hcalm : run.session.Calm .request := hc
      have hfound := hcollect.trans (Work.bind_of_ok _ (Work.heed_of_not_raised hcalm))
      rw [answer, Work.bind_of_ok _ hfound, locations_ofReports]
      rfl

/-! ## 3. The search behind an answer -/

/-- What the search of a request is told; `none` if the request names no document, or no position
in it. -/
def search? (context : RequestContext) (options : UsageOptions) (request : Request) :
    Option SearchRequest :=
  (context.solution.document? request.file).bind fun document =>
    (document.offset? request.position.position).map fun offset =>
      ⟨request.searchKind, document, offset, options⟩

/-- **There is an answer** exactly if the request was not cancelled before the search, nor by it,
and there was a search, which ended well. -/
theorem answer_eq_ok_iff {locations : List ClientLocation} {s' : Session σ} :
    context.answer service options request s = .ok locations s' ↔
      s.Calm .request ∧ ∃ search, context.search? options request = some search ∧
        (service search s).outcome = .ok () ∧ (service search s).session.Calm .request ∧
        context.located (request.told (service search s).reports) = locations ∧
        (service search s).session = s' := by
  by_cases hs : s.Calm .request
  · rw [and_iff_right hs]
    cases hd : context.solution.document? request.file with
    | none => simp [answer_of_missing hs hd, search?, hd]
    | some document =>
      cases ho : document.offset? request.position.position with
      | none => simp [answer_of_outside hs hd ho, search?, hd, ho]
      | some offset =>
        have hsearch : context.search? options request =
            some ⟨request.searchKind, document, offset, options⟩ := by
          rw [search?, hd, Option.bind_some, ho, Option.map_some]
        rw [answer_of_search hs hd ho, hsearch]
        simp only [Option.some.injEq, exists_eq_left']
        generalize service ⟨request.searchKind, document, offset, options⟩ s = run
        cases hout : run.outcome with
        | error fault => simp
        | ok done =>
          by_cases hcancelled : run.session.cancelled = true
          · simp [hcancelled, Session.Calm, Session.raised]
          · simp [hcancelled, Session.Calm, Session.raised]
  · simp [answer_of_cancelled (Session.not_calm_iff.mp hs), hs]

theorem options_of_search? {search : SearchRequest}
    (h : context.search? options request = some search) : search.options = options := by
  obtain ⟨document, -, h⟩ := Option.bind_eq_some_iff.mp h
  obtain ⟨offset, -, rfl⟩ := Option.map_eq_some_iff.mp h
  rfl

/-- Whether there is a search has nothing to do with its options. -/
theorem isSome_search?_congr (options options' : UsageOptions) :
    (context.search? options request).isSome = (context.search? options' request).isSome := by
  rw [search?, search?]
  cases context.solution.document? request.file with
  | none => rfl
  | some document =>
    rw [Option.bind_some, Option.bind_some, Option.isSome_map, Option.isSome_map]

/-- A request that gets to its search ends in the session that the search leaves. -/
theorem finalSession_answer {search : SearchRequest} (hs : s.Calm .request)
    (hsearch : context.search? options request = some search) :
    (context.answer service options request).finalSession s = (service search s).session := by
  obtain ⟨document, hd, h⟩ := Option.bind_eq_some_iff.mp hsearch
  obtain ⟨offset, ho, rfl⟩ := Option.map_eq_some_iff.mp h
  rw [Work.finalSession, answer_of_search hs hd ho]
  generalize service ⟨request.searchKind, document, offset, options⟩ s = run
  cases hout : run.outcome with
  | error fault => simp only [hout]
  | ok done => by_cases hcancelled : run.session.cancelled = true <;> simp [hout, hcancelled]

/-- **An undisturbed request** is answered with what its search reports, if the search ends well
whenever nobody disturbs it, and with the same reports. -/
theorem comesTo_answer {search : SearchRequest} {reports : List Report}
    (hsearch : context.search? options request = some search)
    (hrun : ∀ s, (service search s).session.Calm .request →
      (service search s).outcome = .ok () ∧ (service search s).reports = reports) :
    (context.answer service options request).ComesTo .request
      (context.located (request.told reports)) := by
  intro s hcalm
  by_cases hs : s.Calm .request
  · rw [finalSession_answer hs hsearch] at hcalm
    obtain ⟨hout, rfl⟩ := hrun s hcalm
    exact ⟨_, answer_eq_ok_iff.mpr ⟨hs, search, hsearch, hout, hcalm, rfl, rfl⟩⟩
  · rw [Work.finalSession_of_error (answer_of_cancelled (Session.not_calm_iff.mp hs))] at hcalm
    exact absurd hcalm hs

end RequestContext

/-! ## 4. Searches with a record -/

/-- The session with a record of searches beside what the services remember. -/
def Session.withRecord {σ : Type} (s : Session σ) (asked : List SearchRequest) :
    Session (σ × List SearchRequest) :=
  ⟨s.cancelled, (s.services, asked)⟩

/-- The search, which also writes down what it was asked. -/
def SearchService.recorded {σ : Type} (service : SearchService σ) :
    SearchService (σ × List SearchRequest) := fun request s =>
  let run := service request ⟨s.cancelled, s.services.1⟩
  ⟨run.reports, run.outcome, run.session.withRecord (s.services.2 ++ [request])⟩

/-- **The answer to a request for references**, the session in which it leaves the services, and
the record of searches. -/
theorem RequestContext.answer_references {σ : Type} (context : RequestContext)
    (service : SearchService σ) (options : UsageOptions) (request : ReferenceRequest)
    (s : Session σ) (asked : List SearchRequest) :
    context.answer service.recorded options (.references request) (s.withRecord asked) =
      if s.cancelled then .error .cancelled (s.withRecord asked)
      else
        match context.solution.document? request.place.file with
        | none => .error (.documentNotFound request.place.file) (s.withRecord asked)
        | some document =>
          match document.offset? request.place.position with
          | none => .error (.invalidPosition request.place.position) (s.withRecord asked)
          | some offset =>
            let search : SearchRequest := ⟨.references, document, offset, options⟩
            let run := service search s
            match run.outcome with
            | .error fault => .error fault (run.session.withRecord (asked ++ [search]))
            | .ok () =>
              if run.session.cancelled then
                .error .cancelled (run.session.withRecord (asked ++ [search]))
              else
                .ok
                  (((if request.includeDeclaration then
                        run.reports.flatMap Report.definitionSpans
                      else []) ++
                      run.reports.flatMap Report.referenceSpans).filterMap
                    fun entry => context.location? entry.1 entry.2)
                  (run.session.withRecord (asked ++ [search])) := by
  cases hs : s.cancelled with
  | true => exact answer_of_cancelled hs
  | false =>
    rw [if_neg Bool.false_ne_true]
    cases hd : context.solution.document? request.place.file with
    | none => exact answer_of_missing hs hd
    | some document =>
      dsimp only
      cases ho : document.offset? request.place.position with
      | none => exact answer_of_outside hs hd ho
      | some offset => exact answer_of_search (s := s.withRecord asked) hs hd ho

end UsageReport

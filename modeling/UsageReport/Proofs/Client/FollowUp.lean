/-
# Requests about an answered location

A client that was told of a location can ask again from there, with the start or the end of the
location as the position.  The answer came from an offset and went out as line and column; the
request comes back with line and column and needs the offset.

For a plain client both conversions are over one document, the one that the solution holds under
the id of the span.  So the way back ends where the way out began (`offset?_of_span?`), and a
request from there always gets to the search (`Reaches`), with exactly the offset of the span.
This is the main statement (`answer_asked_again`).  It is about documents shorter than 4 GiB,
beyond which lines and columns of 32 bits do not go.
-/
import UsageReport.Proofs.Client.Answer
import UsageReport.Proofs.Client.StaleSpan
import UsageReport.Proofs.Document.Span

namespace UsageReport
namespace RequestContext

/-! ## 1. Requests that get to their search -/

/-- **The request gets to its search**, for an offset in a document: unless it was cancelled
before, the search is run once, and the answer is a matter of how it ends.  So if there is a fault,
it is that of the search, or the request was cancelled meanwhile. -/
def Reaches (context : RequestContext) (options : UsageOptions) (request : Request)
    (document : Document) (offset : Nat) : Prop :=
  ∀ (τ : Type) (service : SearchService τ) (s : Session τ) (asked : List SearchRequest),
    s.Calm .request →
      let search : SearchRequest := ⟨request.searchKind, document, offset, options⟩
      let run := service search s
      context.answer service.recorded options request (s.withRecord asked) =
        match run.outcome with
        | .error fault => .error fault (run.session.withRecord (asked ++ [search]))
        | .ok () =>
          if run.session.cancelled then
            .error .cancelled (run.session.withRecord (asked ++ [search]))
          else
            .ok (context.located (request.told run.reports))
              (run.session.withRecord (asked ++ [search]))

variable {context : RequestContext} {options : UsageOptions} {request : Request}

/-- A request at a position of a document of the solution gets to its search. -/
theorem reaches_of_offset? {document : Document} {offset : Nat}
    (hd : context.solution.document? request.file = some document)
    (ho : document.offset? request.position.position = some offset) :
    context.Reaches options request document offset := by
  intro τ service s asked hs
  have hs' : (s.withRecord asked).Calm .request := hs
  exact answer_of_search hs' hd ho

/-! ## 2. Where the locations of an answer come from -/

/-- **A location for a plain client** stands for a span that the request is told of, and is in the
document that the solution holds under its id. -/
theorem of_mem_located (plain : context.client.richText = false)
    {told : List (DocumentSpan × Option String)} {location : ClientLocation}
    (h : location ∈ context.located told) :
    ∃ span text d, (span, text) ∈ told ∧ context.solution.document? span.file = some d ∧
      location.uri = d.uri ∧ d.span? span.range = some location.range := by
  obtain ⟨⟨span, text⟩, hmem, hlocation⟩ := List.mem_filterMap.mp h
  have hplain : context.location? span text = span.plainLocation? context.solution :=
    if_neg (by simp [plain])
  rw [hplain] at hlocation
  cases hd : context.solution.document? span.file with
  | none => simp [DocumentSpan.plainLocation?, hd] at hlocation
  | some d =>
    obtain ⟨huri, hrange, -⟩ := DocumentSpan.of_plainLocation? hd hlocation
    exact ⟨span, text, d, hmem, hd, huri, hrange⟩

/-! ## 3. The main statement -/

/-- **An answered location can be asked about again.**  It comes from a span that the request was
told of, in the document that the solution holds under the id of the span; its ends are in order,
and their offsets are those of the span.  A request for the file at either end, of whatever client
and kind, gets to its search with this offset. -/
theorem answer_asked_again {σ : Type} {service : SearchService σ} {s s' : Session σ}
    {locations : List ClientLocation} (plain : context.client.richText = false)
    (small : ∀ file d, context.solution.document? file = some d → d.length < 2 ^ 32)
    (answered : context.answer service options request s = .ok locations s') :
    ∃ search, context.search? options request = some search ∧
      ∀ location ∈ locations, ∃ span text d,
        (span, text) ∈ request.told (service search s).reports ∧
        context.solution.document? span.file = some d ∧ location.uri = d.uri ∧
        location.range.start ≤ location.range.stop ∧
        d.offset? location.range.start = some span.range.start ∧
        d.offset? location.range.stop = some span.range.stop ∧
        ∀ (client : ClientCapabilities) (options : UsageOptions) (again : Request),
          (again.position = ⟨span.file, location.range.start⟩ →
            Reaches ⟨context.solution, client⟩ options again d span.range.start) ∧
          (again.position = ⟨span.file, location.range.stop⟩ →
            Reaches ⟨context.solution, client⟩ options again d span.range.stop) := by
  obtain ⟨-, search, hsearch, -, -, rfl, -⟩ := answer_eq_ok_iff.mp answered
  refine ⟨search, hsearch, fun location hlocation => ?_⟩
  obtain ⟨span, text, d, hmem, hd, huri, hrange⟩ := of_mem_located plain hlocation
  have hsmall : d.length < 2 ^ 32 := small span.file d hd
  obtain ⟨hstart, hstop⟩ := Document.offset?_of_span? hsmall hrange
  refine ⟨span, text, d, hmem, hd, huri, Document.start_le_stop_of_span? hsmall hrange, hstart,
    hstop, fun client options again => ⟨fun hagain => ?_, fun hagain => ?_⟩⟩
  · exact reaches_of_offset? (by rw [Request.file, hagain]; exact hd)
      (by rw [hagain]; exact hstart)
  · exact reaches_of_offset? (by rw [Request.file, hagain]; exact hd)
      (by rw [hagain]; exact hstop)

/-- A location that starts inside a character and ends at a newline: a request at its start gets to
the search with the offset inside the character. -/
theorem answer_asked_again_sample :
    let d : Document := ⟨⟨0⟩, "a.cs", "xé\nb", none⟩
    let item : DefinitionItem :=
      ⟨[], [], [], .source [⟨d, ⟨2, 3, by decide⟩, none⟩], {}, .empty, false⟩
    let service : SearchService Unit := fun _ s => ⟨[.definition item], .ok (), s⟩
    let solution := Solution.empty.applyAll [.set d.path d.text d.project]
    let location : ClientLocation := ⟨"file:///a.cs", ⟨⟨0, 2⟩, ⟨0, 3⟩⟩, none⟩
    (⟨solution, {}⟩ : RequestContext).answer service {} (.implementation ⟨⟨0⟩, ⟨1, 1⟩⟩)
        ⟨false, ()⟩ = .ok [location] ⟨false, ()⟩ ∧
      (⟨solution, { richText := true }⟩ : RequestContext).Reaches {}
        (.references ⟨⟨⟨0⟩, location.range.start⟩, false⟩) d 2 := by
  intro d item service solution location
  have hd : solution.document? ⟨0⟩ = some d := Solution.document?_applyAll_set _ _ _ ⟨0⟩
  have hanswer : (⟨solution, {}⟩ : RequestContext).answer service {}
      (.implementation ⟨⟨0⟩, ⟨1, 1⟩⟩) ⟨false, ()⟩ = .ok [location] ⟨false, ()⟩ := by
    refine answer_eq_ok_iff.mpr ⟨rfl, ⟨.implementations, d, 5, {}⟩, ?_, rfl, rfl, ?_, rfl⟩
    · exact (congrArg (Option.bind · _) hd).trans (by decide)
    · have hlocation : (⟨solution, {}⟩ : RequestContext).location?
          ⟨d, ⟨2, 3, by decide⟩, none⟩ (some item.displayText) = some location :=
        (congrArg (Option.bind · _) hd).trans (by decide)
      exact List.filterMap_cons_some hlocation
  have hsmall : ∀ file d', solution.document? file = some d' → d'.length < 2 ^ 32 := by
    intro file d' hd'
    rw [Solution.document?_applyAll_set] at hd'
    split at hd'
    · cases hd'
      exact (by decide : d.length < 2 ^ 32)
    · cases hd'
  obtain ⟨search, hsearch, hagain⟩ := answer_asked_again rfl hsmall hanswer
  obtain ⟨span, text, d', hmem, hd', -, -, -, -, hreach⟩ := hagain location List.mem_cons_self
  cases List.mem_singleton.mp hmem
  cases hd.symm.trans hd'
  exact ⟨hanswer, (hreach _ _ _).1 rfl⟩

end RequestContext
end UsageReport

/-
# Requests of clients

A client asks at a position of a document, for implementations or for references.  Answering
means: find the document, find the offset, run the search, and turn what was found into
locations.  A request that was cancelled before the search, or while it ran, has no answer,
and neither has one that names no document or no position in it; in these cases nothing that
was found so far is told.

Implementations are the places of the definitions.  References are the places of the
references, behind those of the definitions if they are wanted as well.  A span that has no
location is left out.
-/
import UsageReport.Client.Location
import UsageReport.Search.Service

namespace UsageReport

/-! ## 1. What a client asks -/

/-- A position in a document. -/
structure DocumentPosition where
  file : FileId
  position : Position
deriving DecidableEq

/-- A request for references. -/
structure ReferenceRequest where
  place : DocumentPosition
  /-- The definitions are wanted as well. -/
  includeDeclaration : Bool
deriving DecidableEq

/-- What a client can make use of. -/
structure ClientCapabilities where
  /-- The client shows text next to locations. -/
  richText : Bool := false
deriving DecidableEq

/-- A request. -/
inductive Request where
  | implementation (place : DocumentPosition)
  | references (request : ReferenceRequest)
deriving DecidableEq

/-- What requests are answered with. -/
structure RequestContext where
  solution : Solution
  client : ClientCapabilities

namespace Request

/-- How the protocol calls the request. -/
def method : Request → String
  | implementation _ => "textDocument/implementation"
  | references _ => "textDocument/references"

/-- Where the request was made. -/
def position : Request → DocumentPosition
  | implementation place => place
  | references request => request.place

/-- What is searched for. -/
def searchKind : Request → SearchKind
  | implementation _ => .implementations
  | references _ => .references

/-- The document that the request is about. -/
def file (r : Request) : FileId := r.position.file

/-- No request changes the solution. -/
def mutatesSolution (_ : Request) : Bool := false

/-- Every request is answered with a solution at hand. -/
def requiresSolution (_ : Request) : Bool := true

end Request

/-! ## 2. Locations of what was found -/

namespace RequestContext

/-- The location of a span in the form that the client can make use of. -/
def location? (context : RequestContext) (span : DocumentSpan) (text : Option String) :
    Option ClientLocation :=
  if context.client.richText then span.richLocation? text
  else span.plainLocation? context.solution

/-- The places of definitions, each with the text of its definition. -/
def definitionLocations (context : RequestContext) (definitions : List DefinitionItem) :
    List ClientLocation :=
  definitions.flatMap fun item =>
    item.sourceSpans.filterMap fun span => context.location? span (some item.displayText)

/-- The places of references, each with the text of its preview. -/
def referenceLocations (context : RequestContext) (references : List ReferenceItem) :
    List ClientLocation :=
  references.filterMap fun item => context.location? item.span item.span.previewText?

/-- What a request is told of the findings. -/
def locations (context : RequestContext) (findings : Findings) : Request → List ClientLocation
  | .implementation _ => context.definitionLocations findings.definitions
  | .references request =>
    (if request.includeDeclaration then context.definitionLocations findings.definitions
      else []) ++ context.referenceLocations findings.references

/-! ## 3. The answer -/

variable {σ : Type}

/-- Run the search of a request. -/
def collect (context : RequestContext) (service : SearchService σ) (options : UsageOptions)
    (request : Request) : Work σ Findings := do
  Work.heed .request
  match context.solution.document? request.file with
  | none => throw (.documentNotFound request.file)
  | some document =>
    match document.offset? request.position.position with
    | none => throw (.invalidPosition request.position.position)
    | some offset =>
      let findings ← service.findings ⟨request.searchKind, document, offset, options⟩
      Work.heed .request
      return findings

/-- Answer a request. -/
def answer (context : RequestContext) (service : SearchService σ) (options : UsageOptions)
    (request : Request) : Work σ (List ClientLocation) := do
  let findings ← context.collect service options request
  return context.locations findings request

end RequestContext
end UsageReport

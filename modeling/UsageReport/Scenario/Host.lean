/-
# Scripted hosts

A host described by data: which of the standard services are replaced, and by what.  Scripted
hosts say how the library behaves around services that fail, that cancel the request while
they work, or that answer in unusual ways.

Calls of lookups and of the classifier are counted from one over the whole session, so a
script can name the call at which something happens.
-/
import UsageReport.Host.Standard
import UsageReport.Document.Solution
import UsageReport.Search.Service

namespace UsageReport
namespace Scenario

/-! ## 1. Scripts -/

/-- Which symbols have a name across tools. -/
inductive NameRule where
  /-- Those with a documentation id. -/
  | documentationIds
  /-- All but types. -/
  | members
  | types
  | nothing
deriving DecidableEq

/-- What decides whether a definition without references is shown. -/
inductive PolicyRule where
  | standard
  /-- Whether symbols of compiled modules are wanted. -/
  | metadataFlag
  | unidirectional
  | cascade
  | explicit
  /-- Whether the symbol was constructed. -/
  | constructed
deriving DecidableEq

/-- A classifier that fails at one call, or cancels the request after one. -/
structure ClassifierScript where
  failOn : Option Nat
  cancelAfter : Option Nat
  message : String
deriving DecidableEq

/-- A contributed item, shown next to the definition with a certain display. -/
structure LinkScript where
  /-- The display of the definition it belongs to. -/
  beside : String
  file : FileId
  range : TextRange
  label : String
  /-- Fail instead. -/
  fault : Option Fault
deriving DecidableEq

/-- What a host does differently from the standard one. -/
structure HostScript where
  names : NameRule := .documentationIds
  policy : PolicyRule := .standard
  /-- Display symbols by their bare names. -/
  bareNames : Bool := false
  /-- One glyph for all symbols. -/
  glyph : Option Glyph := none
  /-- Properties for all symbols, besides the symbol's own name. -/
  properties : Option (List (String × String)) := none
  classifier : Option ClassifierScript := none
  /-- The lookup that cancels the request. -/
  cancelOnLookup : Option Nat := none
  linked : Option LinkScript := none

/-- What the services of a scripted host remember. -/
structure Tally where
  lookups : Nat := 0
  classifications : Nat := 0
  /-- The searches that were run, in order. -/
  searches : List SearchRequest := []

/-! ## 2. Services -/

def crossReference? : NameRule → Symbol → Option String
  | .documentationIds, s => DocumentationId.ofSymbol? s
  | .members, s => if s.kind.isType then none else some ("member:" ++ s.name)
  | .types, s => if s.kind.isType then some ("type:" ++ s.name) else none
  | .nothing, _ => none

def showsUnreferenced : PolicyRule → Symbol → SearchOptions → Bool → Bool
  | .standard, s, options, showMetadata => Host.standardPolicy s options showMetadata
  | .metadataFlag, _, _, showMetadata => showMetadata
  | .unidirectional, _, options, _ => options.unidirectional
  | .cascade, _, options, _ => options.cascade
  | .explicit, _, options, _ => options.explicit
  | .constructed, s, _, _ => s.constructedFrom.isSome

/-- Documents of a solution.  A lookup is counted, and cancels the request if it is the one to
do so. -/
def documents (solution : Solution) (script : HostScript) : DocumentSource Tally where
  document? := solution.document?
  touch := fun _ s =>
    let count := s.services.lookups + 1
    let counted : Session Tally := { s with services := { s.services with lookups := count } }
    if script.cancelOnLookup = some count then counted.cancel else counted

/-- Cancel the request behind a piece of work, however it ended. -/
def cancelAfterwards {α : Type} (work : Work Tally α) : Work Tally α := fun s =>
  match work s with
  | .ok value s => .ok value s.cancel
  | .error fault s => .error fault s.cancel

/-- Count a classification, and do what the script says at this one. -/
def classify (script : ClassifierScript) (signal : Signal) (document : Document)
    (range : TextRange) : Work Tally Preview := fun s =>
  let count := s.services.classifications + 1
  let counted : Session Tally :=
    { s with services := { s.services with classifications := count } }
  if script.failOn = some count then .error (.external "classifier" script.message) counted
  else if script.cancelAfter = some count then
    cancelAfterwards (Host.lexicalPreview signal document range) counted
  else Host.lexicalPreview signal document range counted

/-- The contributed item over a document. -/
def LinkScript.item (script : LinkScript) (document : Document) : DefinitionItem where
  tags := Glyph.method.tags
  display := [⟨.text, script.label⟩]
  nameDisplay := []
  navigation := .source [⟨document, script.range, none⟩]
  properties := {}
  displayable := .empty
  shownUnreferenced := false

/-- Contribute the item of the script if the definition is the one it belongs to. -/
def linked? (script : LinkScript) (source : DocumentSource Tally) (beside : DefinitionItem) :
    Work Tally (Option DefinitionItem) :=
  if beside.displayText = script.beside then
    match script.fault with
    | some fault => throw fault
    | none => do
      let document ← source.find script.file
      return document.map script.item
  else return none

/-- The host of a script over a solution. -/
def HostScript.host (script : HostScript) (solution : Solution) : Host Tally :=
  let standard := Host.standard (documents solution script)
  { standard with
    classify :=
      match script.classifier with
      | some classifier => classify classifier
      | none => standard.classify
    display := if script.bareNames then fun s => [⟨.text, s.name⟩] else standard.display
    nameDisplay := if script.bareNames then fun _ => [] else standard.nameDisplay
    glyph := match script.glyph with
      | some glyph => fun _ => glyph
      | none => standard.glyph
    crossReference? := crossReference? script.names
    showsUnreferenced := showsUnreferenced script.policy
    properties := match script.properties with
      | some entries => fun s => (PropertyMap.ofList entries).insert "symbol" s.qualifiedName
      | none => standard.properties
    linked? := match script.linked with
      | some link => fun source _ beside => linked? link source beside
      | none => standard.linked? }

end Scenario
end UsageReport

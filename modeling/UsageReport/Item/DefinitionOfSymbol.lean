/-
# From symbols to definition items

The item of a symbol is built for its root definition, so that all constructions of a generic
symbol share one.  Tuple elements are the exception and stand for themselves.

Where the item leads depends on the locations, read in order (`locate`).  A location in a
compiled module decides at once, whatever was found before.  A source location counts if it
passes the filter on hidden locations and its document is loaded; otherwise it leaves no
trace.  If no location counts, the item leads nowhere and says where the definition comes
from.  Namespaces are declared all over and are not located at all.

Only previews can fail, or be cut short by the signal.  The signal is heeded once before the
work begins, and once before each preview.
-/
import UsageReport.Host.Basic
import UsageReport.Symbol.Group

namespace UsageReport

/-- The symbol whose item stands for `s`. -/
def Symbol.canonical (s : Symbol) : Symbol :=
  if s.kind.isTupleElement then s else s.rootDefinition

/-- What is asked of a definition item. -/
structure DefinitionQuery where
  /-- The definition is what the search was about. -/
  primary : Bool
  /-- Keep locations in hidden regions. -/
  includeHidden : Bool
  /-- Make previews. -/
  previews : Bool
  options : SearchOptions
deriving DecidableEq

/-- What the locations of a definition come to. -/
inductive Whereabouts where
  | source (spans : List DocumentSpan)
  | metadata (moduleName : String)
deriving DecidableEq

namespace Whereabouts

/-- One more span in front; a compiled module still decides. -/
def cons (span : DocumentSpan) : Whereabouts → Whereabouts
  | source spans => source (span :: spans)
  | metadata moduleName => metadata moduleName

end Whereabouts

namespace Host

variable {σ : Type}

/-! ## 1. Locations -/

/-- The span of a range, with a preview if one is wanted. -/
def span (host : Host σ) (signal : Signal) (previews : Bool) (document : Document)
    (range : TextRange) : Work σ DocumentSpan :=
  if previews then do
    Work.heed signal
    let preview ← host.classify signal document range
    return ⟨document, range, some preview⟩
  else
    return ⟨document, range, none⟩

/-- What the locations of a definition come to, read in order. -/
def locate (host : Host σ) (signal : Signal) (query : DefinitionQuery) :
    List Location → Work σ Whereabouts
  | [] => return .source []
  | .nowhere :: rest => host.locate signal query rest
  | .inMetadata moduleName :: _ => return .metadata moduleName
  | .inSource place :: rest =>
    if place.passes query.includeHidden then do
      match ← host.documents.find place.file with
      | none => host.locate signal query rest
      | some document =>
        let span ← host.span signal query.previews document place.range
        let others ← host.locate signal query rest
        return others.cons span
    else host.locate signal query rest

/-! ## 2. The item -/

/-- The fixed properties of a definition.  A constructor also has the name of its type. -/
def definitionProperties (host : Host σ) (definition : Symbol) (primary : Bool) :
    DefinitionProperties where
  primary
  ownName := host.crossReference? definition
  typeName :=
    if definition.kind.isConstructor then definition.containingType.bind host.crossReference?
    else none

/-- Where a definition comes from: the module it belongs to, if that is known. -/
def origination (definition : Symbol) : List TaggedText :=
  match definition.moduleName with
  | some moduleName => [⟨.assembly, moduleName⟩]
  | none => []

/-- The item of a definition whose whereabouts are known.  Only an item in source shows
displayable properties, and one that leads nowhere has no short display. -/
def assemble (host : Host σ) (query : DefinitionQuery) (definition : Symbol) :
    Whereabouts → DefinitionItem
  | .metadata moduleName =>
    { tags := (host.glyph definition).tags
      display := host.display definition
      nameDisplay := host.nameDisplay definition
      navigation := .metadata moduleName definition
      properties := host.definitionProperties definition query.primary
      displayable := .empty
      shownUnreferenced := host.showsUnreferenced definition query.options false }
  | .source [] =>
    { tags := (host.glyph definition).tags
      display := host.display definition
      nameDisplay := []
      navigation := .unavailable (origination definition)
      properties := host.definitionProperties definition query.primary
      displayable := .empty
      shownUnreferenced := host.showsUnreferenced definition query.options false }
  | .source (span :: spans) =>
    { tags := (host.glyph definition).tags
      display := host.display definition
      nameDisplay := host.nameDisplay definition
      navigation := .source (span :: spans)
      properties := host.definitionProperties definition query.primary
      displayable := host.properties definition
      shownUnreferenced := host.showsUnreferenced definition query.options false }

/-- The item of a symbol over some locations. -/
def definitionItem (host : Host σ) (signal : Signal) (query : DefinitionQuery) (s : Symbol)
    (locations : List Location) : Work σ DefinitionItem := do
  Work.heed signal
  let whereabouts ←
    if s.canonical.kind.isNamespace then pure (Whereabouts.source [])
    else host.locate signal query locations
  return host.assemble query s.canonical whereabouts

/-! ## 3. The usual ways to ask -/

/-- The item of a symbol over its own locations, with previews. -/
def classifiedDefinition (host : Host σ) (signal : Signal) (s : Symbol)
    (primary includeHidden : Bool) (options : SearchOptions) : Work σ DefinitionItem :=
  host.definitionItem signal ⟨primary, includeHidden, true, options⟩ s s.locations

/-- The item of a group: that of its first member, over the locations of all. -/
def groupDefinition (host : Host σ) (signal : Signal) (group : SymbolGroup)
    (primary includeHidden : Bool) (options : SearchOptions) : Work σ DefinitionItem :=
  host.definitionItem signal ⟨primary, includeHidden, true, options⟩ group.primary
    group.allLocations

/-- The item of a symbol without previews, under options that only go down the hierarchy. -/
def unclassifiedDefinition (host : Host σ) (signal : Signal) (s : Symbol)
    (includeHidden : Bool) : Work σ DefinitionItem :=
  host.definitionItem signal ⟨false, includeHidden, false, { unidirectional := true }⟩ s
    s.locations

/-- The item of a symbol without previews, under the default options, which no signal can cut
short. -/
def uninterruptedDefinition (host : Host σ) (s : Symbol) (includeHidden : Bool) :
    Work σ DefinitionItem :=
  host.definitionItem .never ⟨false, includeHidden, false, {}⟩ s s.locations

/-- The item that the host shows next to another one, if it has one. -/
def linkedDefinition? (host : Host σ) (signal : Signal) (item : DefinitionItem) :
    Work σ (Option DefinitionItem) := do
  Work.heed signal
  host.linked? host.documents signal item

end Host
end UsageReport

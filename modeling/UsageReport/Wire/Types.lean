/-
# How the protocol's types travel

Each type that is part of a request, an answer or a configuration, with the names of its
fields.  A position is written with `col` where a client asks and with `column` where it is
answered.

Options have defaults for all fields; the other records have to be complete, except that the
text of a location may be missing, and is not written if there is none.
-/
import UsageReport.Client.Request
import UsageReport.Wire.Json

namespace UsageReport
namespace Wire

/-! ## 1. Places -/

/-- A file id travels as its number. -/
def fileId : Codec FileId where
  encode id := Codec.word.encode id.index
  decode? value := (Codec.word.decode? value).map FileId.mk

/-- A position in a request. -/
def askedPosition : Codec Position where
  encode p := .object [("line", Codec.word.encode p.line), ("col", Codec.word.encode p.column)]
  decode? value := do
    let r ← value.record? 2
    let line ← Codec.word.required (r.slot? 0 "line")
    let column ← Codec.word.required (r.slot? 1 "col")
    return ⟨line, column⟩

/-- A position in an answer. -/
def position : Codec Position where
  encode p :=
    .object [("line", Codec.word.encode p.line), ("column", Codec.word.encode p.column)]
  decode? value := do
    let r ← value.record? 2
    let line ← Codec.word.required (r.slot? 0 "line")
    let column ← Codec.word.required (r.slot? 1 "column")
    return ⟨line, column⟩

def span : Codec Span where
  encode s := .object [("start", position.encode s.start), ("end", position.encode s.stop)]
  decode? value := do
    let r ← value.record? 2
    let start ← position.required (r.slot? 0 "start")
    let stop ← position.required (r.slot? 1 "end")
    return ⟨start, stop⟩

/-! ## 2. Requests and answers -/

def documentPosition : Codec DocumentPosition where
  encode p :=
    .object [("file", fileId.encode p.file), ("position", askedPosition.encode p.position)]
  decode? value := do
    let r ← value.record? 2
    let file ← fileId.required (r.slot? 0 "file")
    let position ← askedPosition.required (r.slot? 1 "position")
    return ⟨file, position⟩

def referenceRequest : Codec ReferenceRequest where
  encode q :=
    .object [("textDocumentPosition", documentPosition.encode q.place),
      ("includeDeclaration", Codec.bool.encode q.includeDeclaration)]
  decode? value := do
    let r ← value.record? 2
    let place ← documentPosition.required (r.slot? 0 "textDocumentPosition")
    let includeDeclaration ← Codec.bool.required (r.slot? 1 "includeDeclaration")
    return ⟨place, includeDeclaration⟩

def clientCapabilities : Codec ClientCapabilities where
  encode c := .object [("rich_location_text", Codec.bool.encode c.richText)]
  decode? value := do
    let r ← value.record? 1
    let richText ← Codec.bool.required (r.slot? 0 "rich_location_text")
    return ⟨richText⟩

def clientLocation : Codec ClientLocation where
  encode l :=
    .object ([("uri", Codec.string.encode l.uri), ("range", span.encode l.range)] ++
      match l.text with
      | some text => [("text", Codec.string.encode text)]
      | none => [])
  decode? value := do
    let r ← value.record? 3
    let uri ← Codec.string.required (r.slot? 0 "uri")
    let range ← span.required (r.slot? 1 "range")
    let text ← Codec.string.nullable.withDefault none (r.slot? 2 "text")
    return ⟨uri, range, text⟩

/-! ## 3. Options -/

def searchOptions : Codec SearchOptions where
  encode o :=
    .object [
      ("associatePropertyReferencesWithSpecificAccessor", Codec.bool.encode o.specificAccessor),
      ("cascade", Codec.bool.encode o.cascade),
      ("explicit", Codec.bool.encode o.explicit),
      ("unidirectionalHierarchyCascade", Codec.bool.encode o.unidirectional),
      ("displayAllDefinitions", Codec.bool.encode o.displayAll)]
  decode? value := do
    let standard : SearchOptions := {}
    let r ← value.record? 5
    let specificAccessor ← Codec.bool.withDefault standard.specificAccessor
      (r.slot? 0 "associatePropertyReferencesWithSpecificAccessor")
    let cascade ← Codec.bool.withDefault standard.cascade (r.slot? 1 "cascade")
    let explicit ← Codec.bool.withDefault standard.explicit (r.slot? 2 "explicit")
    let unidirectional ← Codec.bool.withDefault standard.unidirectional
      (r.slot? 3 "unidirectionalHierarchyCascade")
    let displayAll ← Codec.bool.withDefault standard.displayAll
      (r.slot? 4 "displayAllDefinitions")
    return ⟨specificAccessor, cascade, explicit, unidirectional, displayAll⟩

def usageOptions : Codec UsageOptions where
  encode o :=
    .object [("includeHiddenLocations", Codec.bool.encode o.includeHidden),
      ("search", searchOptions.encode o.search)]
  decode? value := do
    let standard : UsageOptions := {}
    let r ← value.record? 2
    let includeHidden ← Codec.bool.withDefault standard.includeHidden
      (r.slot? 0 "includeHiddenLocations")
    let search ← searchOptions.withDefault standard.search (r.slot? 1 "search")
    return ⟨includeHidden, search⟩

end Wire
end UsageReport

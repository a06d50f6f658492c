/-
# The standard services

A host that needs nothing from outside but its documents: symbols by their qualified names,
documentation ids, previews by the token grammar, and no contributed items.
-/
import UsageReport.Display.DocumentationId
import UsageReport.Display.QualifiedName
import UsageReport.Host.Basic

namespace UsageReport
namespace Host

variable {σ : Type}

/-- Classification by the token grammar, which heeds its signal before it starts. -/
def lexicalPreview (signal : Signal) (document : Document) (range : TextRange) :
    Work σ Preview := do
  Work.heed signal
  return Preview.lexical document range

/-- Whether a definition is shown when nothing refers to it.  The option that shows all comes
first; then what the compiler made is left out, and accessors if references go to them; then
symbols of compiled modules are left out unless they are wanted. -/
def standardPolicy (s : Symbol) (options : SearchOptions) (showMetadata : Bool) : Bool :=
  if options.displayAll then true
  else if s.implicit then false
  else if options.specificAccessor && s.kind.isPropertyAccessor then false
  else showMetadata || !s.isInMetadata

/-- The property that names the type around a symbol. -/
def containingTypeKey : String := "ContainingTypeInfo"

/-- The property that names the member around a symbol. -/
def containingMemberKey : String := "ContainingMemberInfo"

/-- Whether a container counts as a member that holds others. -/
def isHoldingMember : SymbolKind → Bool
  | .method _ | .property | .event => true
  | _ => false

/-- The type and the member around a symbol, as properties. -/
def containerProperties (s : Symbol) : PropertyMap :=
  let withType :=
    match s.containingType with
    | some owner => PropertyMap.empty.insert containingTypeKey owner.qualifiedName
    | none => .empty
  match s.container with
  | some container =>
    if isHoldingMember container.kind then withType.insert containingMemberKey container.name
    else withType
  | none => withType

/-- The standard services over a source of documents. -/
def standard (documents : DocumentSource σ) : Host σ where
  documents
  classify := lexicalPreview
  display := Display.full
  nameDisplay := Display.short
  glyph := fun s => .ofKind s.kind
  crossReference? := DocumentationId.ofSymbol?
  showsUnreferenced := standardPolicy
  properties := containerProperties
  linked? := fun _ _ _ => pure none

end Host
end UsageReport

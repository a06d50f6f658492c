/-
# Definition items

What a client is shown for one definition: tags and displays, where to go, and properties.  A
definition is found in source, in a compiled module, or it is only shown.  The last kind says
where the definition comes from instead of where it is.

Besides the properties with fixed names an item has displayable properties, which come from
extensions and mean nothing to the library.
-/
import UsageReport.Display.TaggedText
import UsageReport.Item.DocumentSpan
import UsageReport.PropertyMap
import UsageReport.Symbol.Basic

namespace UsageReport

/-! ## 1. The properties with fixed names -/

/-- The names that a definition's own properties can have. -/
inductive PropertyKey where
  /-- The definition is what the search was about. -/
  | primary
  /-- The symbol's name across tools. -/
  | ownName
  /-- The name across tools of the type that a constructor makes. -/
  | typeName
deriving DecidableEq

/-- How a property is called. -/
def PropertyKey.label : PropertyKey → String
  | primary => "Primary"
  | ownName => "RQNameKey1"
  | typeName => "RQNameKey2"

/-- The properties of a definition that have fixed names. -/
structure DefinitionProperties where
  primary : Bool := false
  ownName : Option String := none
  typeName : Option String := none
deriving DecidableEq

namespace DefinitionProperties

/-- The value of a property.  The mark of a primary definition has the empty text. -/
def get? (p : DefinitionProperties) : PropertyKey → Option String
  | .primary => if p.primary then some "" else none
  | .ownName => p.ownName
  | .typeName => p.typeName

def contains (p : DefinitionProperties) (key : PropertyKey) : Bool := (p.get? key).isSome

/-- The properties that are there, in a fixed order. -/
def keys (p : DefinitionProperties) : List PropertyKey :=
  [.primary, .ownName, .typeName].filter p.contains

def size (p : DefinitionProperties) : Nat := p.keys.length

def isEmpty (p : DefinitionProperties) : Bool := p.size == 0

end DefinitionProperties

/-! ## 2. Items -/

/-- Where a definition takes the user. -/
inductive Navigation where
  /-- To spans of documents. -/
  | source (spans : List DocumentSpan)
  /-- Into a compiled module. -/
  | metadata (moduleName : String) (symbol : Symbol)
  /-- Nowhere; the text says where the definition comes from. -/
  | unavailable (origination : List TaggedText)
deriving BEq

/-- What is shown for one definition. -/
structure DefinitionItem where
  tags : List String
  display : List TaggedText
  nameDisplay : List TaggedText
  navigation : Navigation
  properties : DefinitionProperties
  displayable : PropertyMap
  /-- Show the definition even if nothing refers to it. -/
  shownUnreferenced : Bool
deriving BEq

namespace DefinitionItem

/-- Whether the definition is what the search was about. -/
def isPrimary (item : DefinitionItem) : Bool := item.properties.primary

/-- The spans in source; none for the other two kinds. -/
def sourceSpans (item : DefinitionItem) : List DocumentSpan :=
  match item.navigation with
  | .source spans => spans
  | .metadata _ _ => []
  | .unavailable _ => []

def isMetadata (item : DefinitionItem) : Bool :=
  match item.navigation with
  | .metadata _ _ => true
  | _ => false

/-- Whether there is a place to go to.  A source item without spans has none. -/
def canNavigate (item : DefinitionItem) : Bool :=
  match item.navigation with
  | .source spans => !spans.isEmpty
  | .metadata _ _ => true
  | .unavailable _ => false

/-- The text of the display. -/
def displayText (item : DefinitionItem) : String := TaggedText.join item.display

/-- Whether two items look the same, wherever they lead. -/
def samePresentation (a b : DefinitionItem) : Bool :=
  a.tags == b.tags && a.display == b.display && a.nameDisplay == b.nameDisplay &&
    a.properties == b.properties && a.displayable == b.displayable &&
    a.shownUnreferenced == b.shownUnreferenced

end DefinitionItem
end UsageReport

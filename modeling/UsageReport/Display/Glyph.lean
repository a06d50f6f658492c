/-
# Glyphs

The icon shown next to a symbol, and the tags under which clients know it.
-/
import UsageReport.Symbol.Kind

namespace UsageReport

/-- The icon of a symbol. -/
inductive Glyph where
  | namespace
  | classType
  | structType
  | interfaceType
  | enumType
  | enumMember
  | delegateType
  | method
  | operator
  | property
  | field
  | event
  | parameter
  | local
  | typeParameter
deriving DecidableEq

namespace Glyph

/-- The tags of a glyph; there is one for each. -/
def tags : Glyph → List String
  | .namespace => ["Namespace"]
  | .classType => ["Class"]
  | .structType => ["Structure"]
  | .interfaceType => ["Interface"]
  | .enumType => ["Enum"]
  | .enumMember => ["EnumMember"]
  | .delegateType => ["Delegate"]
  | .method => ["Method"]
  | .operator => ["Operator"]
  | .property => ["Property"]
  | .field => ["Field"]
  | .event => ["Event"]
  | .parameter => ["Parameter"]
  | .local => ["Local"]
  | .typeParameter => ["TypeParameter"]

/-- The glyph for a kind of symbol.  Of the methods only operators have one of their own. -/
def ofKind : SymbolKind → Glyph
  | .namespace => .namespace
  | .type .classType => .classType
  | .type .structType => .structType
  | .type .interfaceType => .interfaceType
  | .type .enumType => .enumType
  | .type .delegateType => .delegateType
  | .method .operator => .operator
  | .method _ => .method
  | .property => .property
  | .field .enumMember => .enumMember
  | .field _ => .field
  | .event => .event
  | .parameter => .parameter
  | .local => .local
  | .typeParameter => .typeParameter

end Glyph
end UsageReport

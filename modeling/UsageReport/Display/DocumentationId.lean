/-
# Documentation ids

A name for a symbol that other tools can look up: a letter for the kind, a colon, and the
dotted path of the containers and the symbol, as in `M:App.Widget.#ctor`.  Constructors have
fixed segments of their own.

Only what can be named from outside its declaration has such a name.  Locals, parameters, type
parameters and tuple elements have none, and neither has anything without a name or inside of
a container that is local or has no name.
-/
import UsageReport.Symbol.Basic

namespace UsageReport
namespace DocumentationId

/-- The letter for a kind of symbol. -/
def letter? : SymbolKind → Option String
  | .namespace => some "N"
  | .type _ => some "T"
  | .method _ => some "M"
  | .property => some "P"
  | .field _ => some "F"
  | .event => some "E"
  | .parameter | .local | .typeParameter => none

/-- The last segment of the path. -/
def segment (s : Symbol) : String :=
  match s.kind with
  | .method .constructor => "#ctor"
  | .method .staticConstructor => "#cctor"
  | _ => s.name

/-- A container whose members cannot be named from outside. -/
def isUnnameable (container : Symbol) : Bool :=
  container.kind.isLocal || container.name.isEmpty

/-- The documentation id, if the symbol has one. -/
def ofSymbol? (s : Symbol) : Option String :=
  if s.kind.isTupleElement || s.containers.any isUnnameable || (segment s).isEmpty then none
  else
    (letter? s.kind).map fun letter =>
      letter ++ ":" ++ ".".intercalate ((s.containers.map Symbol.name).reverse ++ [segment s])

end DocumentationId
end UsageReport

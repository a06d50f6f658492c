/-
# How a symbol is used

A reference uses a value, or it uses a type or a namespace.
-/

namespace UsageReport

/-- A use of a value. -/
inductive ValueUsage where
  | read
  | write
  | readWrite
  /-- Handed on by reference, which can read and write. -/
  | byReference
  /-- Only the name is used. -/
  | name
deriving DecidableEq

/-- A use of a type or a namespace. -/
inductive TypeUsage where
  | qualified
  | typeArgument
  | typeConstraint
  | base
  | objectCreation
  | namespaceDeclaration
deriving DecidableEq

/-- How a reference uses its symbol. -/
inductive SymbolUsage where
  | value (usage : ValueUsage)
  | typeOrNamespace (usage : TypeUsage)
deriving DecidableEq

namespace SymbolUsage

/-- What a reference is taken for when nothing is known. -/
def standard : SymbolUsage := .value .read

def isRead : SymbolUsage → Bool
  | .value .read | .value .readWrite | .value .byReference => true
  | _ => false

def isWrite : SymbolUsage → Bool
  | .value .write | .value .readWrite | .value .byReference => true
  | _ => false

end SymbolUsage
end UsageReport

/-
# Kinds of symbols

A closed classification.  What the library does differently for different symbols (namespaces
are not located, constructors carry two names, tuple elements are definitions of their own)
is decided on these constructors and on nothing else.
-/

namespace UsageReport

/-- Kinds of named types. -/
inductive TypeKind where
  | classType | structType | interfaceType | enumType | delegateType
deriving DecidableEq

/-- Kinds of methods. -/
inductive MethodKind where
  | ordinary | constructor | staticConstructor | propertyGet | propertySet | operator
deriving DecidableEq

/-- Kinds of fields. -/
inductive FieldKind where
  | ordinary
  /-- An element of a tuple type. -/
  | tupleElement
  | enumMember
deriving DecidableEq

/-- What a symbol is. -/
inductive SymbolKind where
  | namespace
  | type (kind : TypeKind)
  | method (kind : MethodKind)
  | property
  | field (kind : FieldKind)
  | event
  | parameter
  | local
  | typeParameter
deriving DecidableEq

/-- Where a symbol comes from. -/
inductive Origin where
  | source | metadata | unknown
deriving DecidableEq

namespace SymbolKind

def isNamespace : SymbolKind → Bool
  | .namespace => true
  | _ => false

def isType : SymbolKind → Bool
  | .type _ => true
  | _ => false

def isMethod : SymbolKind → Bool
  | .method _ => true
  | _ => false

/-- Instance and static constructors. -/
def isConstructor : SymbolKind → Bool
  | .method .constructor | .method .staticConstructor => true
  | _ => false

def isPropertyAccessor : SymbolKind → Bool
  | .method .propertyGet | .method .propertySet => true
  | _ => false

def isTupleElement : SymbolKind → Bool
  | .field .tupleElement => true
  | _ => false

/-- Symbols of a function body or a signature, which nothing outside can name. -/
def isLocal : SymbolKind → Bool
  | .local | .parameter | .typeParameter => true
  | _ => false

/-- The keyword of a declaration of this kind, if its display has one. -/
def keyword? : SymbolKind → Option String
  | .namespace => some "namespace"
  | .type .classType => some "class"
  | .type .structType => some "struct"
  | .type .interfaceType => some "interface"
  | .type .enumType => some "enum"
  | .type .delegateType => some "delegate"
  | .event => some "event"
  | .method _ | .property | .field _ | .parameter | .local | .typeParameter => none

end SymbolKind
end UsageReport

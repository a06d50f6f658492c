/-
# Symbols by their qualified names

The full display of a symbol is its keyword, if its kind has one, and its name behind the
names of its containers: `class Collections.List<T>`.  The short display has the name of the
containing type only: `List.Add()`.

A constructor has the name of its type.  A method has a pair of parentheses.  What a function
body or a signature declares is shown without containers.  Containers without a name are left
out.
-/
import UsageReport.Display.TaggedText
import UsageReport.Symbol.Basic

namespace UsageReport
namespace Display

/-- The type arguments between angle brackets; nothing if there are none. -/
def typeArguments (s : Symbol) : List TaggedText :=
  match s.typeArguments with
  | [] => []
  | first :: rest =>
    .punct "<" :: ⟨.typeParameter, first⟩ ::
      rest.flatMap (fun argument => [.punct ",", .blank, ⟨.typeParameter, argument⟩]) ++
      [.punct ">"]

/-- The name that is shown for a symbol, with the tag of what it names. -/
def shownName (s : Symbol) : TaggedText :=
  match s.kind.isConstructor, s.containingType with
  | true, some owner => ⟨.ofKind owner.kind, owner.name⟩
  | _, _ => ⟨.ofKind s.kind, s.name⟩

/-- The name of a symbol with its type arguments, and parentheses for a method. -/
def name (s : Symbol) : List TaggedText :=
  shownName s :: typeArguments s ++
    if s.kind.isMethod then [.punct "(", .punct ")"] else []

/-- The keyword and a blank, if the kind has a keyword. -/
def keyword (s : Symbol) : List TaggedText :=
  match s.kind.keyword? with
  | some word => [⟨.keyword, word⟩, .blank]
  | none => []

/-- A container in front of what it contains. -/
def qualifier (container : Symbol) : List TaggedText :=
  ⟨.ofKind container.kind, container.name⟩ :: typeArguments container ++ [.punct "."]

/-- The named containers, the outermost first; none for what a function declares. -/
def qualifiers (s : Symbol) : List TaggedText :=
  if s.kind.isLocal then []
  else (s.containers.filter (!·.name.isEmpty)).reverse.flatMap qualifier

/-- The full display of a symbol. -/
def full (s : Symbol) : List TaggedText := keyword s ++ qualifiers s ++ name s

/-- The display of a symbol within its type. -/
def short (s : Symbol) : List TaggedText :=
  match s.containingType with
  | some owner => ⟨.ofKind owner.kind, owner.name⟩ :: .punct "." :: name s
  | none => name s

end Display
end UsageReport

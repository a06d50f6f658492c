/-
# Symbols

A symbol is a named entity of a program, as the semantic model of the host describes it.  Two
chains lead away from it: its containers, from the innermost outwards, and the definitions
that it was constructed from.  `containers` gives the first chain as a list, and
`rootDefinition` the end of the second.

The semantic model tells its entities apart even where all it says about them agrees, so a
symbol carries a `handle`, the model's own number for the entity.  Nothing is computed from
it, and the comparison `Symbol.sameDescription` leaves it out.

Symbols share their containers and definitions, so a few symbols can stand for a tree without
bound: when each one has its neighbour both as its container and as its definition, the tree
doubles at every step.  The comparison that runs, `==`, passes over parts that are stored once
for both sides, and gives the answer of `sameDescription` (`beq_eq_sameDescription`).
-/
import UsageReport.Symbol.Kind
import UsageReport.Symbol.Location

namespace UsageReport

/-- A named entity of a program. -/
structure Symbol where
  /-- The semantic model's number for this entity. -/
  handle : Nat
  name : String
  kind : SymbolKind
  origin : Origin
  /-- The namespace, type or member that declares it. -/
  container : Option Symbol
  locations : List Location
  /-- The project or the compiled module that it belongs to. -/
  moduleName : Option String
  /-- The arguments of a constructed symbol, such as `int` in `List<int>`. -/
  typeArguments : List String
  /-- The definition that a constructed symbol was made from. -/
  constructedFrom : Option Symbol
  /-- Made by the compiler, not written by the user. -/
  implicit : Bool

namespace Symbol

/-! ## 1. Making symbols -/

/-- A source symbol with a name and a kind and nothing else. -/
def new (handle : Nat) (name : String) (kind : SymbolKind) : Symbol where
  handle
  name
  kind
  origin := .source
  container := none
  locations := []
  moduleName := none
  typeArguments := []
  constructedFrom := none
  implicit := false

/-- An instantiation of `definition`.  It shares all but its type arguments with the
definition, and remembers it. -/
def construct (definition : Symbol) (handle : Nat) (typeArguments : List String) : Symbol :=
  { definition with handle, typeArguments, constructedFrom := some definition }

/-! ## 2. The two chains -/

/-- All containers, the innermost first. -/
def containers : Symbol → List Symbol
  | ⟨_, _, _, _, none, _, _, _, _, _⟩ => []
  | ⟨_, _, _, _, some c, _, _, _, _, _⟩ => c :: containers c
termination_by structural s => s

/-- The definition at the end of the chain of constructions: the symbol itself if it is not
constructed. -/
def rootDefinition : Symbol → Symbol
  | ⟨h, n, k, o, c, l, m, t, none, i⟩ => ⟨h, n, k, o, c, l, m, t, none, i⟩
  | ⟨_, _, _, _, _, _, _, _, some d, _⟩ => rootDefinition d
termination_by structural s => s

theorem containers_eq (s : Symbol) :
    s.containers = match s.container with
      | none => []
      | some c => c :: c.containers := by
  obtain ⟨_, _, _, _, c, _, _, _, _, _⟩ := s
  cases c <;> rfl

theorem rootDefinition_eq (s : Symbol) :
    s.rootDefinition = match s.constructedFrom with
      | none => s
      | some d => d.rootDefinition := by
  obtain ⟨_, _, _, _, _, _, _, _, d, _⟩ := s
  cases d <;> rfl

/-! ## 3. Names -/

/-- The nearest container that is a type. -/
def containingType (s : Symbol) : Option Symbol := s.containers.find? (·.kind.isType)

/-- The names of the containers that have one, the outermost first. -/
def containerPath (s : Symbol) : List String :=
  ((s.containers.filter (!·.name.isEmpty)).map name).reverse

/-- The name behind the names of all containers, with dots. -/
def qualifiedName (s : Symbol) : String := ".".intercalate (s.containerPath ++ [s.name])

/-- Whether one of its locations is in a compiled module. -/
def isInMetadata (s : Symbol) : Bool := s.locations.any Location.isInMetadata

/-! ## 4. Comparison -/

mutual

/-- Whether the semantic model says the same about two symbols, through both chains.  Which
entity each of them is does not count. -/
def sameDescription : Symbol → Symbol → Bool
  | ⟨_, n, k, o, c, l, m, t, d, i⟩, ⟨_, n', k', o', c', l', m', t', d', i'⟩ =>
    n == n' && k == k' && o == o' && l == l' && m == m' && t == t' && i == i' &&
      sameIfAny c c' && sameIfAny d d'
termination_by structural s => s

/-- Whether there is neither, or there are both and they are described alike. -/
def sameIfAny : Option Symbol → Option Symbol → Bool
  | none, none => true
  | some x, some y => sameDescription x y
  | none, some _ => false
  | some _, none => false
termination_by structural s => s

end

mutual

theorem sameDescription_self : (s : Symbol) → s.sameDescription s = true
  | ⟨_, _, _, _, c, _, _, _, d, _⟩ => by
    simp [sameDescription, sameIfAny_self c, sameIfAny_self d]
termination_by structural s => s

theorem sameIfAny_self : (s : Option Symbol) → sameIfAny s s = true
  | none => rfl
  | some x => sameDescription_self x
termination_by structural s => s

end

mutual

/-- The answer of `sameDescription`, found without a look into containers and definitions that
the two symbols share. -/
def compareShared : (a b : Symbol) → { same : Bool // same = a.sameDescription b }
  | ⟨_, n, k, o, c, l, m, t, d, i⟩, ⟨_, n', k', o', c', l', m', t', d', i'⟩ =>
    ⟨n == n' && k == k' && o == o' && l == l' && m == m' && t == t' && i == i' &&
        (compareIfAny c c').1 && (compareIfAny d d').1, by
      rw [sameDescription, (compareIfAny c c').2, (compareIfAny d d').2]⟩
termination_by structural a => a

/-- The answer of `sameIfAny`, at once for a symbol that is stored once for both sides. -/
def compareIfAny : (a b : Option Symbol) → { same : Bool // same = sameIfAny a b }
  | none, none => ⟨true, rfl⟩
  | some x, some y =>
    ⟨withPtrEq x y (fun _ => (compareShared x y).1) fun h =>
        (compareShared x y).2.trans (h ▸ sameDescription_self x),
      (compareShared x y).2⟩
  | none, some _ => ⟨false, rfl⟩
  | some _, none => ⟨false, rfl⟩
termination_by structural a => a

end

instance : BEq Symbol := ⟨fun a b => (compareShared a b).1⟩

theorem beq_eq_sameDescription (a b : Symbol) : (a == b) = a.sameDescription b :=
  (compareShared a b).2

end Symbol
end UsageReport

/-
# Tagged text

The display of a symbol is a row of fragments, each with a tag that says what it is, so that a
client can color it.  The plain text of a display is the concatenation of its fragments.
-/
import UsageReport.Symbol.Kind

namespace UsageReport

/-- What a fragment of a display is. -/
inductive TextTag where
  | keyword
  | namespace
  | classType
  | structType
  | interfaceType
  | enumType
  | delegateType
  | enumMember
  | method
  | property
  | field
  | event
  | parameter
  | local
  | typeParameter
  | assembly
  | punctuation
  | space
  | text
deriving DecidableEq

/-- A fragment of a display. -/
structure TaggedText where
  tag : TextTag
  text : String
deriving DecidableEq

namespace TaggedText

/-- The text of a row of fragments. -/
def join (parts : List TaggedText) : String := String.join (parts.map text)

@[simp] theorem join_nil : join [] = "" := rfl

@[simp] theorem join_cons (part : TaggedText) (rest : List TaggedText) :
    join (part :: rest) = part.text ++ join rest := by
  rw [join, List.map_cons, String.join_cons]
  rfl

@[simp] theorem join_append (xs ys : List TaggedText) : join (xs ++ ys) = join xs ++ join ys := by
  rw [join, List.map_append, String.join_append]
  rfl

/-- A fragment of punctuation. -/
def punct (text : String) : TaggedText := ⟨.punctuation, text⟩

/-- One blank. -/
def blank : TaggedText := ⟨.space, " "⟩

end TaggedText

/-- The tag for the name of a symbol of a kind. -/
def TextTag.ofKind : SymbolKind → TextTag
  | .namespace => .namespace
  | .type .classType => .classType
  | .type .structType => .structType
  | .type .interfaceType => .interfaceType
  | .type .enumType => .enumType
  | .type .delegateType => .delegateType
  | .method _ => .method
  | .property => .property
  | .field .enumMember => .enumMember
  | .field .ordinary => .field
  | .field .tupleElement => .field
  | .event => .event
  | .parameter => .parameter
  | .local => .local
  | .typeParameter => .typeParameter

end UsageReport

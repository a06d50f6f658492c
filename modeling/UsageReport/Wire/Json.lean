/-
# JSON values and records

What travels between client and server, once it is no longer text.  Numbers are integers or
they are not; all numbers of the protocol are integers.

A record travels as an object with named fields or as an array of its fields in order.  Both
shapes answer the same question, what stands in the slot of a field (`Record.slot?`).  An
object may have fields that nobody asks for, in any order.  An array may leave out fields at
its end, if the record has defaults for them, but cannot have more fields than the record.
-/

namespace UsageReport
namespace Wire

/-! ## 1. Values -/

/-- A JSON value. -/
inductive Json where
  | null
  | bool (value : Bool)
  | integer (value : Int)
  /-- A number that is written with a fraction or an exponent, as it is written. -/
  | fraction (written : String)
  | string (value : String)
  | array (items : List Json)
  | object (fields : List (String × Json))
deriving Inhabited

/-! ## 2. Records -/

/-- A value in the shape of a record. -/
inductive Record where
  | named (fields : List (String × Json))
  | positional (items : List Json)

/-- A value as a record of at most `arity` fields. -/
def Json.record? (arity : Nat) : Json → Option Record
  | .object fields => some (.named fields)
  | .array items => if items.length ≤ arity then some (.positional items) else none
  | _ => none

/-- What stands for the field with this number and this name.  Of repeated names the first one is
taken, where a strict reader reports a known field that comes twice. -/
def Record.slot? (r : Record) (index : Nat) (name : String) : Option Json :=
  match r with
  | .named fields => fields.lookup name
  | .positional items => items[index]?

/-! ## 3. Codecs -/

/-- How values of a type are written and read. -/
structure Codec (α : Type) where
  encode : α → Json
  decode? : Json → Option α

namespace Codec

variable {α : Type}

/-- Read a field that has to be there. -/
def required (c : Codec α) (slot : Option Json) : Option α := slot.bind c.decode?

/-- Read a field that has a default.  A field that is there must be readable. -/
def withDefault (c : Codec α) (default : α) : Option Json → Option α
  | none => some default
  | some value => c.decode? value

/-- A value or `null`. -/
def nullable (c : Codec α) : Codec (Option α) where
  encode
    | none => .null
    | some value => c.encode value
  decode?
    | .null => some none
    | value => (c.decode? value).map some

def bool : Codec Bool where
  encode := .bool
  decode?
    | .bool value => some value
    | _ => none

def string : Codec String where
  encode := .string
  decode?
    | .string value => some value
    | _ => none

/-- Numbers of 32 bits without sign. -/
def word : Codec UInt32 where
  encode n := .integer n.toNat
  decode?
    | .integer n => if 0 ≤ n ∧ n.toNat < UInt32.size then some (UInt32.ofNat n.toNat) else none
    | _ => none

end Codec
end Wire
end UsageReport

/-
# File ids

A document of a solution is known by a number.  The solution that handed the number out is
the only place that connects it to a path.
-/

namespace UsageReport

/-- Identifies a document within a solution. -/
structure FileId where
  index : UInt32
deriving DecidableEq, Hashable

namespace FileId

/-- How a file id is written in messages: `file#` and the number. -/
def label (id : FileId) : String := "file#" ++ toString id.index.toNat

instance : LawfulBEq FileId := inferInstance

end FileId
end UsageReport

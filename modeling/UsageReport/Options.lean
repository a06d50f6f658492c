/-
# Options of a search

What a search is asked to do, and which of the found definitions are shown.  The defaults
cascade to related symbols and take the search for one that the user asked for.
-/

namespace UsageReport

/-- How a search goes on from the symbol it starts at, and what it reports. -/
structure SearchOptions where
  /-- Report references to a property at the accessor that they call. -/
  specificAccessor : Bool := false
  /-- Go on to related symbols: overrides, implementations, accessors. -/
  cascade : Bool := true
  /-- The user asked for the search. -/
  explicit : Bool := true
  /-- Go on down the inheritance hierarchy only. -/
  unidirectional : Bool := false
  /-- Show every definition, even one without references. -/
  displayAll : Bool := false
deriving DecidableEq

/-- The options of a request. -/
structure UsageOptions where
  /-- Keep locations in hidden regions. -/
  includeHidden : Bool := false
  search : SearchOptions := {}
deriving DecidableEq

end UsageReport

/-! # Filters

Expressions that a property bag satisfies or not.
-/

namespace ServiceImport

/-- A filter over property bags. -/
inductive Filter where
  /-- Every item holds. -/
  | all (items : List Filter)
  /-- Some item holds. -/
  | any (items : List Filter)
  /-- The item does not hold. -/
  | not (item : Filter)
  /-- The attribute has a value. -/
  | present (attr : String)
  /-- The attribute has a value that is written so. -/
  | equal (attr value : String)
  /-- The same, blanks and case apart. -/
  | approx (attr value : String)
  /-- The attribute has a value not below this one. -/
  | atLeast (attr value : String)
  /-- The attribute has a value not above this one. -/
  | atMost (attr value : String)
  /-- The attribute has a value that consists of the parts, with anything between two of them. -/
  | substring (attr : String) (parts : List String)
  deriving BEq

namespace Filter

/-- How many connectives may enclose one another. -/
def maxDepth : Nat := 64

end Filter

end ServiceImport

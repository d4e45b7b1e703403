import ServiceImport.Filter.Basic

/-! # Filters as text -/

namespace ServiceImport.Filter

/-- The characters of a value that stand behind a backslash. -/
def isEscaped (c : Char) : Bool := c == '(' || c == ')' || c == '*' || c == '\\'

/-- A value with a backslash before each character that would end it or widen it. -/
def escape (value : List Char) : List Char :=
  value.flatMap fun c => if isEscaped c then ['\\', c] else [c]

/-- The parts of a wildcard value with a star between two of them. -/
def joinParts (parts : List (List Char)) : List Char := ['*'].intercalate (parts.map escape)

/-- An attribute, an operator and what follows it. -/
def leaf (attr : String) (operator : String) (value : List Char) : List Char :=
  '(' :: attr.toList ++ operator.toList ++ value ++ [')']

mutual

def chars : Filter → List Char
  | all items => ['(', '&'] ++ charsList items ++ [')']
  | any items => ['(', '|'] ++ charsList items ++ [')']
  | not item => ['(', '!'] ++ chars item ++ [')']
  | present attr => leaf attr "=" ['*']
  | equal attr value => leaf attr "=" (escape value.toList)
  | approx attr value => leaf attr "~=" (escape value.toList)
  | atLeast attr value => leaf attr ">=" (escape value.toList)
  | atMost attr value => leaf attr "<=" (escape value.toList)
  | substring attr parts => leaf attr "=" (joinParts (parts.map String.toList))

/-- Filters in writing, one after another. -/
def charsList : List Filter → List Char
  | [] => []
  | item :: rest => chars item ++ charsList rest

end

def render (f : Filter) : String := String.ofList f.chars

end ServiceImport.Filter

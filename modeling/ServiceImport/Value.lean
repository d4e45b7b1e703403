import ServiceImport.Text.Blank
import ServiceImport.Text.Integer
import ServiceImport.Text.Quoted

/-! # Property values -/

namespace ServiceImport

inductive Value where
  | text (s : String)
  | list (items : List String)
  | int (n : Int64)
  | flag (b : Bool)
  deriving DecidableEq

def flagText (b : Bool) : String := if b then "true" else "false"

namespace Value

/-- The text of a value that is one. -/
def text? : Value → Option String
  | text s => some s
  | _ => none

/-- The flag of a value that is one. -/
def flag? : Value → Option Bool
  | flag b => some b
  | _ => none

/-- The integer of a value that is one. -/
def int? : Value → Option Int64
  | int n => some n
  | _ => none

/-- The texts in a value: one for a text, every item of a list, none otherwise. -/
def strings : Value → List String
  | text s => [s]
  | list items => items
  | int _ | flag _ => []

/-- Whether a value is written `expected`. A list is, when one of its items is; blanks around an
integer or a flag do not count, and neither does the ASCII case of a flag. -/
def isWritten (expected : String) : Value → Bool
  | text s => s == expected
  | list items => items.contains expected
  | int n => Text.readInt64? (Text.trim expected.toList) == some n
  | flag b => (Text.trim expected.toList).map Char.toLower == (flagText b).toList

def render : Value → String
  | text s => s
  | list items => Text.bracketed items
  | int n => toString n.toInt
  | flag b => flagText b

/-- A value with its kind. -/
def describe : Value → String
  | text s => Text.applied "String" (Text.quote s)
  | list items => Text.applied "List" (Text.bracketed (items.map Text.quote))
  | int n => Text.applied "Int" (toString n.toInt)
  | flag b => Text.applied "Bool" (flagText b)

end Value

end ServiceImport

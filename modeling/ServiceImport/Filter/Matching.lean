import ServiceImport.Filter.Basic
import ServiceImport.Properties
import ServiceImport.Text.Lowercase

/-! # Which bags satisfy a filter -/

namespace ServiceImport

/-! ## Texts -/

/-- A text without its blanks and in lower case. -/
def looseForm (s : String) : List Char :=
  (s.toList.filter (!Text.isBlank ·)).flatMap Text.lower

/-- What follows the first place where a part occurs in a text. -/
def afterFirst? (part : List Char) : List Char → Option (List Char)
  | [] => if part.isEmpty then some [] else none
  | c :: s => if part.isPrefixOf (c :: s) then some ((c :: s).drop part.length) else afterFirst? part s

/-- Whether the parts occur in a text one after another, the last of them at its end. -/
def endsWithParts : List (List Char) → List Char → Bool
  | [], s => s.isEmpty
  | [last], s => last.isSuffixOf s
  | part :: parts, s =>
    match afterFirst? part s with
    | none => false
    | some rest => endsWithParts parts rest

/-- Whether a text consists of the parts in order, with anything between two of them. Each part is
taken at the first place where it occurs. -/
def matchesParts : List (List Char) → List Char → Bool
  | [], _ => false
  | first :: parts, s => first.isPrefixOf s && endsWithParts parts (s.drop first.length)

/-! ## Values -/

namespace Value

/-- Whether a value is written `expected`, blanks and case apart. -/
def isNearly (expected : String) (v : Value) : Bool :=
  v.strings.any (looseForm · == looseForm expected) || v.isWritten expected

/-- Whether a value is not below the one written `bound`: integers as numbers, texts by their
characters. -/
def isAtLeast (bound : String) : Value → Bool
  | int n => (Text.readInt64? (Text.trim bound.toList)).any fun b => decide (b ≤ n)
  | v => v.strings.any fun s => decide (bound ≤ s)

/-- Whether a value is not above the one written `bound`. -/
def isAtMost (bound : String) : Value → Bool
  | int n => (Text.readInt64? (Text.trim bound.toList)).any fun b => decide (n ≤ b)
  | v => v.strings.any fun s => decide (s ≤ bound)

/-- Whether a value consists of the parts, with anything between two of them. -/
def hasParts (parts : List String) (v : Value) : Bool :=
  v.strings.any fun s => matchesParts (parts.map String.toList) s.toList

end Value

/-! ## Filters -/

namespace Filter

/-- Whether the value of an attribute passes a test; the case of the name does not count. -/
def valueHolds (p : Properties) (attr : String) (test : Value → Bool) : Bool :=
  (p.getNamed? attr).any test

mutual

/-- Whether a bag satisfies a filter. -/
def holds (p : Properties) : Filter → Bool
  | all items => allHold p items
  | any items => someHolds p items
  | not item => !holds p item
  | present attr => valueHolds p attr fun _ => true
  | equal attr value => valueHolds p attr (·.isWritten value)
  | approx attr value => valueHolds p attr (·.isNearly value)
  | atLeast attr value => valueHolds p attr (·.isAtLeast value)
  | atMost attr value => valueHolds p attr (·.isAtMost value)
  | substring attr parts => valueHolds p attr (·.hasParts parts)

def allHold (p : Properties) : List Filter → Bool
  | [] => true
  | item :: rest => holds p item && allHold p rest

def someHolds (p : Properties) : List Filter → Bool
  | [] => false
  | item :: rest => holds p item || someHolds p rest

end

end Filter

end ServiceImport

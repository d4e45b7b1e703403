import ServiceImport.Filter.Basic
import ServiceImport.Text.Blank

/-! # Reading filters

A reader takes characters off the front of a text. When it fails it tells what is wrong and which
characters it had not taken by then, which gives the offset of the mistake.
-/

namespace ServiceImport.Filter

inductive Problem where
  | expected (c : Char)
  | endsEarly
  | tooDeep
  | noItems
  | noAttribute
  | badOperator
  | wildcard
  | openValue
  | bareParenthesis
  | danglingEscape
  | trailing
  deriving DecidableEq

def Problem.message : Problem → String
  | expected c => "expected `" ++ c.toString ++ "`"
  | endsEarly => "unexpected end of filter"
  | tooDeep => "filter nested too deeply"
  | noItems => "empty filter list"
  | noAttribute => "missing attribute name"
  | badOperator => "invalid operator"
  | wildcard => "wildcard not allowed with this operator"
  | openValue => "unterminated value"
  | bareParenthesis => "unescaped `(` in value"
  | danglingEscape => "dangling escape"
  | trailing => "trailing characters after filter"

/-- Why a text is no filter. -/
inductive SyntaxError where
  | empty
  | wrong (problem : Problem) (offset : Nat)
  deriving DecidableEq

def SyntaxError.message : SyntaxError → String
  | empty => "empty filter"
  | wrong problem offset => problem.message ++ " at offset " ++ toString offset

/-- A problem and the characters from where it was found. -/
structure Failure where
  problem : Problem
  rest : List Char
  deriving DecidableEq

/-- Takes something off the front of a text. -/
abbrev Reader (α : Type) := List Char → Except Failure (α × List Char)

/-! ## Values and items -/

/-- Takes one given character. -/
def expect (c : Char) : List Char → Except Failure (List Char)
  | [] => .error ⟨.expected c, []⟩
  | d :: rest => if d = c then .ok rest else .error ⟨.expected c, d :: rest⟩

/-- Puts a character in front of the first part. -/
def addChar (c : Char) : List (List Char) → List (List Char)
  | [] => [[c]]
  | part :: parts => (c :: part) :: parts

/-- Takes a value up to a closing parenthesis and splits it at its stars. -/
def readValue : Reader (List (List Char))
  | [] => .error ⟨.openValue, []⟩
  | c :: rest =>
    if c = ')' then .ok ([[]], c :: rest)
    else if c = '(' then .error ⟨.bareParenthesis, c :: rest⟩
    else if c = '\\' then
      match rest with
      | [] => .error ⟨.danglingEscape, []⟩
      | d :: rest => (readValue rest).map fun (parts, rest) => (addChar d parts, rest)
    else if c = '*' then (readValue rest).map fun (parts, rest) => ([] :: parts, rest)
    else (readValue rest).map fun (parts, rest) => (addChar c parts, rest)

def endsAttribute (c : Char) : Bool :=
  c == '=' || c == '<' || c == '>' || c == '~' || c == '(' || c == ')'

/-- The leaf that an equals sign makes. -/
def ofParts (attr : String) (parts : List (List Char)) : Filter :=
  if parts = [[], []] then present attr
  else if parts.length > 1 then substring attr (parts.map String.ofList)
  else equal attr (String.ofList parts.flatten)

/-- Takes the value of a comparison, which has no wildcard. -/
def readComparison (make : String → Filter) : Reader Filter := fun s => do
  let s ← expect '=' s
  let (parts, rest) ← readValue s
  if parts.length > 1 then .error ⟨.wildcard, rest⟩
  else .ok (make (String.ofList parts.flatten), rest)

def readOperator (attr : String) : Reader Filter
  | '=' :: s => (readValue s).map fun (parts, rest) => (ofParts attr parts, rest)
  | '~' :: s => readComparison (approx attr) s
  | '>' :: s => readComparison (atLeast attr) s
  | '<' :: s => readComparison (atMost attr) s
  | s => .error ⟨.badOperator, s⟩

/-- Takes an attribute, an operator and a value. -/
def readItem : Reader Filter := fun s =>
  let attr := Text.trim (s.takeWhile (!endsAttribute ·))
  let rest := s.dropWhile (!endsAttribute ·)
  if attr.isEmpty then .error ⟨.noAttribute, rest⟩ else readOperator (String.ofList attr) rest

/-! ## Filters -/

/-- Takes as many bracketed filters as follow; the number bounds how many. -/
def readMany (inner : Reader Filter) : Nat → Reader (List Filter)
  | 0, s => .ok ([], Text.trimStart s)
  | n + 1, s =>
    match Text.trimStart s with
    | '(' :: rest => do
      let (item, rest) ← inner ('(' :: rest)
      let (items, rest) ← readMany inner n rest
      .ok (item :: items, rest)
    | rest => .ok ([], rest)

/-- Takes one or more filters. -/
def readList (inner : Reader Filter) : Reader (List Filter) := fun s => do
  let (items, rest) ← readMany inner s.length s
  if items.isEmpty then .error ⟨.noItems, rest⟩ else .ok (items, rest)

/-- Takes what is between the parentheses of a filter. Without a reader for the filters inside a
connective there may be none. -/
def readBody (inner : Option (Reader Filter)) : Reader Filter
  | [] => .error ⟨.endsEarly, []⟩
  | c :: rest =>
    if c = '&' ∨ c = '|' ∨ c = '!' then
      match inner with
      | none => .error ⟨.tooDeep, c :: rest⟩
      | some inner =>
        if c = '&' then (readList inner rest).map fun (items, rest) => (all items, rest)
        else if c = '|' then (readList inner rest).map fun (items, rest) => (any items, rest)
        else (inner rest).map fun (item, rest) => (not item, rest)
    else readItem (c :: rest)

/-- Takes a filter, given the reader for those inside its connective. -/
def readAround (inner : Option (Reader Filter)) : Reader Filter := fun s => do
  let s ← expect '(' (Text.trimStart s)
  let (f, s) ← readBody inner (Text.trimStart s)
  let s ← expect ')' (Text.trimStart s)
  .ok (f, s)

/-- Takes a filter with at most so many connectives around one another. -/
def readFilter : Nat → Reader Filter
  | 0 => readAround none
  | depth + 1 => readAround (some (readFilter depth))

/-- Takes a filter and nothing but blanks after it. -/
def readWhole (s : List Char) : Except Failure Filter := do
  let (f, rest) ← readFilter maxDepth s
  match Text.trimStart rest with
  | [] => .ok f
  | rest => .error ⟨.trailing, rest⟩

/-- Reads a filter. Offsets count the characters of the text, blanks before the filter included. -/
def parse (text : String) : Except SyntaxError Filter :=
  let s := Text.trimEnd text.toList
  if s.isEmpty then .error .empty
  else match readWhole s with
    | .ok f => .ok f
    | .error failure => .error (.wrong failure.problem (s.length - failure.rest.length))

end ServiceImport.Filter

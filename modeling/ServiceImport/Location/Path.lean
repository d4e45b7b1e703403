import ServiceImport.Location.Percent

/-! # Paths -/

namespace ServiceImport.Location

/-- Whether a segment means the directory itself. -/
def isHere (segment : List Char) : Bool :=
  let s := segment.map Char.toLower
  s == ['.'] || s == ['%', '2', 'e']

/-- Whether a segment means the directory above. -/
def isAbove (segment : List Char) : Bool :=
  let s := segment.map Char.toLower
  let dots := [['.'], ['%', '2', 'e']]
  dots.any fun a => dots.any fun b => s == a ++ b

/-- Follows the segments of a path from a directory, whose segments come last first. What ends in a
directory ends in an empty segment. -/
def follow (above : List (List Char)) : List (List Char) → List (List Char)
  | [] => above.reverse
  | segment :: rest =>
    let last := rest.isEmpty
    if isAbove segment then
      follow (if last then [] :: above.tail else above.tail) rest
    else if isHere segment then
      follow (if last then [] :: above else above) rest
    else follow (segment :: above) rest

/-- Splits a text at each character that passes a test. -/
def splitWhere (sep : Char → Bool) : List Char → List (List Char)
  | [] => [[]]
  | c :: rest =>
    if sep c then [] :: splitWhere sep rest
    else match splitWhere sep rest with
      | segment :: more => (c :: segment) :: more
      | [] => [[c]]

/-- Whether a character separates segments; for a special scheme a backslash does too. -/
def isSeparator (special : Bool) (c : Char) : Bool := c == '/' || (special && c == '\\')

/-- The path from the root that a text after the first slash means. -/
def rooted (special : Bool) (s : List Char) : List Char :=
  let segments := (splitWhere (isSeparator special) s).map (encode pathSet)
  (follow [] segments).flatMap ('/' :: ·)

/-- A path without a second slash at its start. -/
def singleSlash (path : List Char) : List Char := '/' :: path.dropWhile (· == '/')

end ServiceImport.Location

import ServiceImport.Location.Percent

/-! # Numeric hosts

Addresses of four and of sixteen bytes.
-/

namespace ServiceImport.Location

/-! ## Four bytes -/

/-- The value of a run of digits in a base, if it is one. -/
def digitsIn? (base : Nat) (s : List Char) : Option Nat :=
  s.foldlM (fun n c => (hexValue? c).bind fun d => if d < base then some (base * n + d) else none) 0

/-- A number as an address has it: hexadecimal after `0x`, octal after `0`, decimal otherwise. The
prefix alone is zero. -/
def hostNumber? : List Char → Option Nat
  | [] => none
  | '0' :: 'x' :: s | '0' :: 'X' :: s => digitsIn? 16 s
  | '0' :: c :: s => digitsIn? 8 (c :: s)
  | s => digitsIn? 10 s

/-- Whether a domain has to be read as an address of four bytes: its last label is a number. -/
def endsInNumber (domain : List Char) : Bool :=
  let labels := (domain.splitOn '.').reverse
  let last? := match labels with
    | [] :: rest => rest.head?
    | label :: _ => some label
    | [] => none
  last?.any fun label =>
    (!label.isEmpty && label.all Char.isDigit) || (hostNumber? label).isSome

/-- The value of up to four numbers, the last of which fills the bytes that the others leave. -/
def bytesValue? (numbers : List Nat) : Option Nat :=
  match numbers.reverse with
  | [] => none
  | last :: before =>
    if numbers.length ≤ 4 ∧ last < Nat.pow 256 (4 - before.length) ∧ before.all (· < 256) then
      some (before.reverse.zipIdx.foldl (fun n (b, i) => n + b * Nat.pow 256 (3 - i)) last)
    else none

def ipv4? (domain : List Char) : Option Nat :=
  let parts := domain.splitOn '.'
  let parts := if parts.getLast? = some [] then parts.dropLast else parts
  (parts.mapM hostNumber?).bind bytesValue?

def renderIpv4 (value : Nat) : String :=
  ".".intercalate ([3, 2, 1, 0].map fun i => toString (value / Nat.pow 256 i % 256))

/-! ## Sixteen bytes -/

/-- A group of one to four hexadecimal digits. -/
def group? (s : List Char) : Option Nat :=
  if 1 ≤ s.length ∧ s.length ≤ 4 then digitsIn? 16 s else none

/-- A decimal byte without leading zeros. -/
def plainByte? (s : List Char) : Option Nat :=
  match s with
  | [] => none
  | '0' :: _ :: _ => none
  | s => if s.all Char.isDigit then (digitsIn? 10 s).filter (· < 256) else none

/-- Two groups written as four decimal bytes. -/
def byteGroups? (s : List Char) : Option (List Nat) :=
  match (s.splitOn '.').mapM plainByte? with
  | some [a, b, c, d] => some [256 * a + b, 256 * c + d]
  | _ => none

/-- Groups between colons; the last place may hold four decimal bytes if `tail` says so. -/
def groups? (tail : Bool) (s : List Char) : Option (List Nat) :=
  if s.isEmpty then some []
  else
    let parts := s.splitOn ':'
    match parts.getLast? with
    | some last =>
      if tail && last.contains '.' then do
        let front ← parts.dropLast.mapM group?
        let back ← byteGroups? last
        some (front ++ back)
      else parts.mapM group?
    | none => none

/-- Splits a text at its first double colon. -/
def splitGap? : List Char → Option (List Char × List Char)
  | ':' :: ':' :: rest => some ([], rest)
  | c :: rest => (splitGap? rest).map fun (a, b) => (c :: a, b)
  | [] => none

/-- The eight groups of an address of sixteen bytes. A double colon stands for at least one group
of zero. -/
def ipv6? (s : List Char) : Option (List Nat) :=
  match splitGap? s with
  | some (front, back) => do
    let a ← groups? false front
    let b ← groups? true back
    if a.length + b.length ≤ 7 then some (a ++ List.replicate (8 - a.length - b.length) 0 ++ b)
    else none
  | none => do
    let a ← groups? true s
    if a.length = 8 then some a else none

/-- How many zeros a list starts with. -/
def leadingZeros (groups : List Nat) : Nat := (groups.takeWhile (· == 0)).length

/-- Start and length of the longest run of zeros, the first of equal ones. -/
def longestZeros (groups : List Nat) : Nat × Nat :=
  (List.range groups.length).foldl
    (fun best i =>
      let n := leadingZeros (groups.drop i)
      if n > best.2 then (i, n) else best) (0, 0)

/-- A group in hexadecimal digits of lower case. -/
def renderGroup (n : Nat) : String := String.ofList (Nat.toDigits 16 n)

/-- The groups in hexadecimal, a double colon in place of the longest run of zeros if it has two or
more. -/
def renderIpv6 (groups : List Nat) : String :=
  let join (gs : List Nat) : String := ":".intercalate (gs.map renderGroup)
  let (start, count) := longestZeros groups
  if count < 2 then join groups
  else join (groups.take start) ++ "::" ++ join (groups.drop (start + count))

end ServiceImport.Location

/-! # Percent encoding

Which characters a part of an address spells as the bytes of their encoding, and how a host is read
back into bytes.
-/

namespace ServiceImport.Location

/-- Controls and the delete character. -/
def isControl (c : Char) : Bool := c.toNat < 0x20 || c.toNat == 0x7F

/-- The characters that a part encodes, beside controls and those outside ASCII. -/
abbrev EncodeSet := List Char

/-- An address without a hierarchy encodes no more than that. -/
def plainSet : EncodeSet := []

/-- What a fragment encodes. -/
def fragmentSet : EncodeSet := [' ', '"', '<', '>', '`']

/-- What a path encodes. -/
def pathSet : EncodeSet := fragmentSet ++ ['#', '?', '{', '}']

/-- What names and passwords encode. -/
def userSet : EncodeSet := pathSet ++ ['/', ':', ';', '=', '@', '[', '\\', ']', '^', '|']

/-- What a query encodes; that of a special scheme has the apostrophe in it too. -/
def querySet (special : Bool) : EncodeSet :=
  [' ', '"', '#', '<', '>'] ++ if special then ['\''] else []

def hexDigit (n : Nat) : Char := Char.ofNat (if n < 10 then 0x30 + n else 0x41 + (n - 10))

def hexValue? (c : Char) : Option Nat :=
  let n := c.toNat
  if 0x30 ≤ n ∧ n ≤ 0x39 then some (n - 0x30)
  else if 0x41 ≤ n ∧ n ≤ 0x46 then some (n - 0x41 + 10)
  else if 0x61 ≤ n ∧ n ≤ 0x66 then some (n - 0x61 + 10)
  else none

def encodeByte (b : UInt8) : List Char := ['%', hexDigit (b.toNat / 16), hexDigit (b.toNat % 16)]

/-- A character, encoded if the set has it. -/
def encodeChar (set : EncodeSet) (c : Char) : List Char :=
  if isControl c || c.toNat > 0x7F || set.contains c then
    c.toString.toUTF8.toList.flatMap encodeByte
  else [c]

/-- A text with the characters of a set encoded. -/
def encode (set : EncodeSet) (s : List Char) : List Char := s.flatMap (encodeChar set)

/-- The codes of the bytes that a text stands for: a percent sign before two digits is one byte. A
character outside ASCII keeps its code. -/
def decode : List Char → List Nat
  | '%' :: a :: b :: rest =>
    match hexValue? a, hexValue? b with
    | some high, some low => (16 * high + low) :: decode rest
    | _, _ => '%'.toNat :: decode (a :: b :: rest)
  | c :: rest => c.toNat :: decode rest
  | [] => []

end ServiceImport.Location

/-! # Integers of 64 bits as text -/

namespace ServiceImport.Text

/-- The value of a run of decimal digits, the most significant first. -/
def digitsValue (digits : List Char) : Nat :=
  digits.foldl (fun n c => 10 * n + (c.toNat - '0'.toNat)) 0

def readNat? (s : List Char) : Option Nat :=
  if s.isEmpty || !s.all Char.isDigit then none else some (digitsValue s)

/-- Keeps an integer that fits 64 bits with a sign. -/
def fitInt64? (n : Int) : Option Int64 :=
  if Int64.minValue.toInt ≤ n && n ≤ Int64.maxValue.toInt then some (Int64.ofInt n) else none

/-- Reads an optional sign and a non-empty run of ASCII digits that fits 64 bits. -/
def readInt64? : List Char → Option Int64
  | '-' :: s => (readNat? s).bind fun n => fitInt64? (-n)
  | '+' :: s => (readNat? s).bind fun n => fitInt64? n
  | s => (readNat? s).bind fun n => fitInt64? n

end ServiceImport.Text

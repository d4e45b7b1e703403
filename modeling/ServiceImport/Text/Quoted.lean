import ServiceImport.Text.Printable

/-! # Quoted text and the spelling of nested values -/

namespace ServiceImport.Text

/-- A number in hexadecimal digits of lower case, without leading zeros. -/
def hex (n : Nat) : String := String.ofList (Nat.toDigits 16 n)

def quoteChar (c : Char) : String :=
  match c with
  | '"' => "\\\""
  | '\\' => "\\\\"
  | '\n' => "\\n"
  | '\r' => "\\r"
  | '\t' => "\\t"
  | '\x00' => "\\0"
  | c => if isPrintable c then c.toString else "\\u\x7b" ++ hex c.toNat ++ "\x7d"

/-- A text between double quotes, with the characters that would not show spelled out. -/
def quote (s : String) : String :=
  "\"" ++ String.join (s.toList.map quoteChar) ++ "\""

def bracketed (items : List String) : String := "[" ++ ", ".intercalate items ++ "]"

/-- A named group of fields in braces; `more` marks fields that are left out. -/
def braced (name : String) (fields : List (String × String)) (more : Bool) : String :=
  let shown := fields.map (fun f => f.1 ++ ": " ++ f.2) ++ (if more then [".."] else [])
  name ++ " \x7b " ++ ", ".intercalate shown ++ " \x7d"

/-- A name applied to one value. -/
def applied (name value : String) : String := name ++ "(" ++ value ++ ")"

end ServiceImport.Text

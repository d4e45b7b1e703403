import ServiceImport.Location.Host
import ServiceImport.Location.Path

/-! # Addresses in normal form

An address is read into a scheme, an authority if it has one, a path, a query and a fragment, and
written from those. Two addresses are the same when they are written alike.
-/

namespace ServiceImport

namespace Location

/-! ## Schemes -/

/-- How the scheme of an address decides what follows it. -/
inductive SchemeKind where
  | file
  | network
  | other
  deriving DecidableEq

/-- The port that a scheme means when none is given. -/
def defaultPort? (scheme : String) : Option Nat :=
  if scheme = "http" ∨ scheme = "ws" then some 80
  else if scheme = "https" ∨ scheme = "wss" then some 443
  else if scheme = "ftp" then some 21
  else none

/-- The kind of a scheme. -/
def schemeKind (scheme : String) : SchemeKind :=
  if scheme = "file" then .file
  else if (defaultPort? scheme).isSome then .network
  else .other

/-- Whether a scheme is one of those with rules of their own. -/
def SchemeKind.isSpecial (kind : SchemeKind) : Bool := kind != .other

def isSchemeChar (c : Char) : Bool := c.isAlphanum || c == '+' || c == '-' || c == '.'

/-- Splits a text into the scheme before its colon, in lower case, and what follows. -/
def splitScheme? (s : List Char) : Option (String × List Char) :=
  match s.dropWhile isSchemeChar with
  | ':' :: rest =>
    if (s.head?.any Char.isAlpha) then
      some (String.ofList ((s.takeWhile isSchemeChar).map Char.toLower), rest)
    else none
  | _ => none

/-! ## Authorities -/

/-- Whether a character ends an authority. -/
def endsAuthority (special : Bool) (c : Char) : Bool :=
  c == '/' || c == '?' || c == '#' || (special && c == '\\')

/-- Splits a text at the last place of a character. -/
def splitLast? (c : Char) (s : List Char) : Option (List Char × List Char) :=
  if s.contains c then
    let after := (s.reverse.takeWhile (· != c)).reverse
    some (s.take (s.length - after.length - 1), after)
  else none

/-- A name and a password in normal form, with the sign after them unless both are empty. -/
def renderUser (s : List Char) : List Char :=
  let name := s.takeWhile (· != ':')
  let password := (s.drop (name.length + 1))
  let text := encode userSet name ++ (if password.isEmpty then [] else ':' :: encode userSet password)
  if text.isEmpty then [] else text ++ ['@']

/-- How many characters of a text belong to its host: up to a colon outside brackets. -/
def hostLength (inside : Bool) : List Char → Nat
  | [] => 0
  | c :: rest =>
    if c == ':' && !inside then 0
    else hostLength (if c == '[' then true else if c == ']' then false else inside) rest + 1

/-- Reads a port: digits up to the end or to a character that ends the authority. -/
def readPort (s : List Char) : Except AddressError (Option Nat × List Char) :=
  let digits := s.takeWhile Char.isDigit
  let rest := s.dropWhile Char.isDigit
  match digitsIn? 10 digits with
  | some port =>
    if port > 65535 then .error .badPort
    else if rest.head?.all fun c => endsAuthority true c then
      .ok (if digits.isEmpty then none else some port, rest)
    else .error .badPort
  | none => .error .badPort

/-- Splits the name and password, in normal form, from what follows the slashes of an address.
Nothing before an at sign needs a host after it; a query or a fragment (`followed`) is none. -/
def splitUser (special followed : Bool) (s : List Char) :
    Except AddressError (List Char × List Char) :=
  let authority := s.takeWhile (!endsAuthority special ·)
  match splitLast? '@' authority with
  | none => .ok ([], s)
  | some (user, after) =>
    let rest := after ++ s.drop authority.length
    if user.isEmpty && (rest.head?.map (endsAuthority special)).getD followed then .error .emptyHost
    else .ok (renderUser user, rest)

def readAuthority (scheme : String) (special followed : Bool) (s : List Char) :
    Except AddressError (List Char × List Char) := do
  let (user, s) ← splitUser special followed s
  let candidate := s.takeWhile (!endsAuthority special ·)
  let text := candidate.take (hostLength false candidate)
  let rest := s.drop text.length
  if special && text.isEmpty then throw .emptyHost
  let host ← if special then machineHost text else plainHost text
  if host.isEmpty && rest.head? == some ':' then throw .emptyHost
  let (port, rest) ← match rest with
    | ':' :: rest => readPort rest
    | rest => pure (none, rest)
  if host.isEmpty && !user.isEmpty then throw .emptyHost
  let port := port.filter fun p => defaultPort? scheme != some p
  let portText := match port with
    | some p => ':' :: (toString p).toList
    | none => []
  return (user ++ host.chars ++ portText, rest)

/-! ## Addresses -/

structure Parts where
  scheme : String
  authority : Option (List Char)
  path : List Char
  query : Option (List Char)
  fragment : Option (List Char)

/-- The parts in writing. A path that would pass for an authority gets a dot before it. -/
def Parts.chars (p : Parts) : List Char :=
  let before := match p.authority with
    | some authority => '/' :: '/' :: authority
    | none => if ['/', '/'].isPrefixOf p.path then ['/', '.'] else []
  let part (mark : Char) (text : Option (List Char)) : List Char := match text with
    | some text => mark :: text
    | none => []
  p.scheme.toList ++ [':'] ++ before ++ p.path ++ part '?' p.query ++ part '#' p.fragment

/-- Splits a text at the first place of a character, if it has one. -/
def splitFirst (c : Char) (s : List Char) : List Char × Option (List Char) :=
  match s.dropWhile (· != c) with
  | [] => (s, none)
  | _ :: rest => (s.takeWhile (· != c), some rest)

/-- Drops one separator. -/
def dropSeparator (special : Bool) : List Char → List Char
  | c :: rest => if isSeparator special c then rest else c :: rest
  | [] => []

/-- The path after an authority: at least a slash for a special scheme. -/
def pathAfter (special : Bool) (s : List Char) : List Char :=
  if !special && s.isEmpty then [] else rooted special (dropSeparator special s)

/-- Reads the host of a file address; the machine itself is no host. -/
def fileHost (s : List Char) : Except AddressError (List Char) :=
  if s.isEmpty then .ok []
  else (machineHost s).map fun host => if host.chars = "localhost".toList then [] else host.chars

/-- Splits the host from the path of a file address, which has one after two separators. -/
def splitFileHost (s : List Char) : List Char × List Char :=
  match s with
  | a :: b :: rest =>
    if isSeparator true a && isSeparator true b then rest.span (!isSeparator true ·) else ([], s)
  | s => ([], s)

/-- Authority and path of an address, from what is between its scheme and its query or fragment;
`followed` says whether it has one of these. -/
def hierarchy (scheme : String) (followed : Bool) (s : List Char) :
    Except AddressError (Option (List Char) × List Char) :=
  match schemeKind scheme with
  | .file => do
    let (text, rest) := splitFileHost s
    let host ← fileHost text
    .ok (some host, singleSlash (rooted true (dropSeparator true rest)))
  | .network => do
    let (authority, rest) ← readAuthority scheme true followed (s.dropWhile (isSeparator true))
    .ok (some authority, pathAfter true rest)
  | .other =>
    match s with
    | '/' :: '/' :: s => do
      let (authority, rest) ← readAuthority scheme false followed s
      .ok (some authority, pathAfter false rest)
    | '/' :: s => .ok (none, rooted false s)
    | s => .ok (none, encode plainSet s)

/-- Whether a character is dropped from either end of an address. -/
def isPadding (c : Char) : Bool := c.toNat ≤ 0x20

/-- Whether a character is dropped wherever it stands. -/
def isIgnored (c : Char) : Bool := c == '\t' || c == '\n' || c == '\r'

/-- The characters of an address that count. -/
def significant (s : List Char) : List Char :=
  ((s.dropWhile isPadding).reverse.dropWhile isPadding).reverse.filter (!isIgnored ·)

def readParts (text : List Char) : Except AddressError Parts :=
  match splitScheme? (significant text) with
  | none => .error .noScheme
  | some (scheme, rest) => do
    let (rest, fragment) := splitFirst '#' rest
    let (rest, query) := splitFirst '?' rest
    let (authority, path) ← hierarchy scheme (query.isSome || fragment.isSome) rest
    let special := (schemeKind scheme).isSpecial
    .ok { scheme, authority, path
          query := query.map (encode (querySet special))
          fragment := fragment.map (encode fragmentSet) }

end Location

/-- An address in normal form. -/
structure Location where
  text : String
  deriving DecidableEq

def Location.parse (text : String) : Except AddressError Location :=
  (Location.readParts text.toList).map fun parts => ⟨String.ofList parts.chars⟩

end ServiceImport

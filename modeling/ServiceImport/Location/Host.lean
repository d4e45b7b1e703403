import ServiceImport.Location.Numeric

/-! # Hosts -/

namespace ServiceImport

inductive AddressError where
  | noScheme
  | emptyHost
  | badDomain
  | badDomainCharacter
  | badPort
  | badIpv4
  | badIpv6
  deriving DecidableEq

def AddressError.message : AddressError → String
  | noScheme => "relative URL without a base"
  | emptyHost => "empty host"
  | badDomain => "invalid international domain name"
  | badDomainCharacter => "invalid domain character"
  | badPort => "invalid port number"
  | badIpv4 => "invalid IPv4 address"
  | badIpv6 => "invalid IPv6 address"

namespace Location

inductive Host where
  | domain (name : List Char)
  | ipv4 (value : Nat)
  | ipv6 (groups : List Nat)

def Host.chars : Host → List Char
  | domain name => name
  | ipv4 value => (renderIpv4 value).toList
  | ipv6 groups => '[' :: (renderIpv6 groups).toList ++ [']']

/-- Whether a host says nothing. -/
def Host.isEmpty : Host → Bool
  | domain name => name.isEmpty
  | _ => false

/-- The characters that no host has. -/
def hostStops : List Char := [' ', '#', '/', ':', '<', '>', '?', '@', '[', '\\', ']', '^', '|']

/-- Reads a host in brackets, after the first of them. -/
def bracketed (s : List Char) : Except AddressError Host :=
  if s.getLast? = some ']' then
    match ipv6? s.dropLast with
    | some groups => .ok (.ipv6 groups)
    | none => .error .badIpv6
  else .error .badIpv6

/-- Reads a host whose scheme gives it no meaning. -/
def plainHost (s : List Char) : Except AddressError Host :=
  match s with
  | '[' :: rest => bracketed rest
  | s =>
    if s.any fun c => c == '\x00' || hostStops.contains c then .error .badDomainCharacter
    else .ok (.domain (encode plainSet s))

def isDomainByte (n : Nat) : Bool :=
  0x20 < n && n < 0x7F && n != '%'.toNat && !hostStops.contains (Char.ofNat n)

/-- Reads a host that names a machine: a domain or a numeric address. -/
def machineHost (s : List Char) : Except AddressError Host :=
  match s with
  | '[' :: rest => bracketed rest
  | s =>
    let bytes := decode s
    if !bytes.all isDomainByte then .error .badDomain
    else
      let name := bytes.map fun n => (Char.ofNat n).toLower
      if name.isEmpty then .error .emptyHost
      else if endsInNumber name then
        match ipv4? name with
        | some value => .ok (.ipv4 value)
        | none => .error .badIpv4
      else .ok (.domain name)

end Location

end ServiceImport

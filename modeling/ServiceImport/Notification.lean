import ServiceImport.Endpoint

/-! # Notifications -/

namespace ServiceImport

inductive Kind where
  | available
  | unavailable
  | modified
  | endMatch
  deriving DecidableEq

namespace Kind

def render : Kind → String
  | available => "AVAILABLE"
  | unavailable => "UNAVAILABLE"
  | modified => "MODIFIED"
  | endMatch => "MODIFIED_ENDMATCH"

def code : Kind → Nat
  | available => 1
  | unavailable => 2
  | modified => 4
  | endMatch => 8

def ofCode (code : Nat) : Except Fault Kind :=
  match code with
  | 1 => .ok available
  | 2 => .ok unavailable
  | 4 => .ok modified
  | 8 => .ok endMatch
  | n => .error (.unknownNotification n)

theorem ofCode_code (k : Kind) : ofCode k.code = .ok k := by cases k <;> rfl

end Kind

/-- An endpoint as a discovery layer delivers it. -/
inductive Discovered where
  | native (endpoint : Endpoint)
  | properties (bag : Properties)
  /-- A form of which only the name of its format is known. -/
  | foreign (format : String)

/-- News of a discovered endpoint. -/
structure Notification where
  kind : Kind
  endpoint : Discovered

def Notification.ofCode (code : Nat) (endpoint : Discovered) : Except Fault Notification :=
  (Kind.ofCode code).map fun kind => { kind, endpoint }

/-- How discovered endpoints are brought into native form. -/
inductive Adaptation where
  /-- Native descriptions as they are, properties by their well-known keys. -/
  | standard
  /-- Nothing applies. -/
  | nothing
  /-- Everything fails. -/
  | refusing
  deriving DecidableEq

/-- The native form of a discovered endpoint; `none` when the adaptation does not apply to it. -/
def Adaptation.adapt : Adaptation → Discovered → Except Fault (Option Endpoint)
  | standard, .native e => .ok (some e)
  | standard, .properties bag =>
    match Endpoint.ofProperties bag with
    | .ok e => .ok (some e)
    | .error (.adaptation reason) => .error (.adaptation reason)
    | .error fault => .error (.adaptation fault.message)
  | standard, .foreign _ => .ok none
  | nothing, _ => .ok none
  | refusing, _ => .error (.connect "adapter refused")

end ServiceImport

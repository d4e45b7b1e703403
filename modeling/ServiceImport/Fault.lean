import ServiceImport.Location.Parser

/-! # Faults -/

namespace ServiceImport

/-- Why an operation failed. -/
inductive Fault where
  | connect (reason : String)
  | filterSyntax (filter reason : String)
  | invalidLocation (location : String) (cause : AddressError)
  | missingProperty (key : String)
  /-- A discovered endpoint could not be brought into native form. -/
  | adaptation (reason : String)
  | unknownNotification (code : Nat)
  | proxyUnavailable (reason : String)
  | serviceSpace (reason : String)
  | alreadyUnregistered (id : Nat)
  | noRuntime
  deriving DecidableEq

def Fault.message : Fault → String
  | connect reason => "connect error: " ++ reason
  | filterSyntax filter reason => "invalid filter `" ++ filter ++ "`: " ++ reason
  | invalidLocation location cause =>
    "invalid service location `" ++ location ++ "`: " ++ cause.message
  | missingProperty key => "missing endpoint property `" ++ key ++ "`"
  | adaptation reason => "endpoint adaptation failed: " ++ reason
  | unknownNotification code => "unknown notification type " ++ toString code
  | proxyUnavailable reason => "proxy unavailable: " ++ reason
  | serviceSpace reason => "local service space error: " ++ reason
  | alreadyUnregistered id => "registration " ++ toString id ++ " already unregistered"
  | noRuntime => "no tokio runtime available"

def Location.read (text : String) : Except Fault Location :=
  (Location.parse text).mapError (.invalidLocation text)

end ServiceImport

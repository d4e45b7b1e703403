import ServiceImport.Ledger
import ServiceImport.Notification
import ServiceImport.Outcome
import ServiceImport.Proxy

/-! # The journal

What happens at a site, in order: what is reported, what reaches the service space, what observers
hear, and how resolutions and records come and go.
-/

namespace ServiceImport

/-! ## Reports -/

inductive Level where
  | info
  | warn
  | error
  deriving DecidableEq

def Level.render : Level → String
  | info => "INFO"
  | warn => "WARN"
  | error => "ERROR"

inductive Report where
  | noInterfaces (endpoint : String)
  | imported (endpoint : String) (proxies : Nat)
  | notImported (endpoint : String) (outcome : Outcome)
  | unavailable (endpoint : String) (proxies : Nat)
  | notApplicable (kind : Kind)
  | notAdapted (kind : Kind) (fault : Fault)
  | noFinders (endpoint : String)
  | builtWithoutFinders
  | emptyRegistry
  | manyContainers (endpoint : String) (count : Nat)
  | noContainers (endpoint : String)
  | nothingFound (container : ContainerId) (endpoint interface : String)
  | lookupFailed (container : ContainerId) (endpoint interface : String) (fault : Fault)
  | registeredBefore (container : ContainerId) (reference : Reference) (rejection : Rejection)
  | notRegistered (container : ContainerId) (reference : Reference) (fault : Fault)
  | raceLost (container : ContainerId) (reference : Reference) (rejection : Rejection)
  | goneAlready (handle : Handle) (fault : Fault)
  | notUnregistered (handle : Handle) (fault : Fault)
  | lastProxyRemoved (endpoint : String) (container : ContainerId)
  | lagged (missed : Nat)

namespace Report

def level : Report → Level
  | imported .. | unavailable .. | lastProxyRemoved .. => .info
  | noInterfaces _ | notImported .. | notApplicable _ | builtWithoutFinders | emptyRegistry
  | manyContainers .. | noContainers _ | goneAlready .. | lagged _ => .warn
  | notAdapted .. | noFinders _ | nothingFound .. | lookupFailed .. | registeredBefore ..
  | notRegistered .. | raceLost .. | notUnregistered .. => .error

/-- How a look-up failed, in words. -/
def lookupMessage : Fault → String
  | .connect _ => "connect error looking up remote references"
  | .filterSyntax .. => "filter syntax error looking up remote references"
  | _ => "remote reference lookup failed"

def message : Report → String
  | noInterfaces _ => "endpoint advertises no interfaces"
  | imported .. => "endpoint imported"
  | notImported .. => "endpoint not imported"
  | unavailable .. => "endpoint unavailable"
  | notApplicable _ => "endpoint description not applicable, ignoring"
  | notAdapted .. => "could not adapt endpoint description"
  | noFinders _ => "no container finders available"
  | builtWithoutFinders => "bridge coordinator built without container finders"
  | emptyRegistry => "no containers known to container manager"
  | manyContainers .. => "multiple remote service containers found for endpoint"
  | noContainers _ => "no remote service containers found"
  | nothingFound .. => "remote reference lookup returned nothing"
  | lookupFailed _ _ _ fault => lookupMessage fault
  | registeredBefore .. => "endpoint previously registered locally, ignoring"
  | notRegistered .. => "could not create or register proxy"
  | raceLost .. => "lost registration race, withdrawing proxy"
  | goneAlready .. => "proxy was already unregistered"
  | notUnregistered .. => "failed to unregister proxy"
  | lastProxyRemoved .. => "last proxy removed by transport"
  | lagged _ => "notification subscriber lagged"

/-- What a report is about: names and their texts. -/
def fields : Report → List (String × String)
  | noInterfaces endpoint | noFinders endpoint | noContainers endpoint => [("endpoint", endpoint)]
  | imported endpoint proxies | unavailable endpoint proxies =>
    [("endpoint", endpoint), ("proxies", toString proxies)]
  | notImported endpoint outcome => [("endpoint", endpoint), ("outcome", outcome.render)]
  | notApplicable kind => [("kind", kind.render)]
  | notAdapted kind fault => [("kind", kind.render), ("error", fault.message)]
  | builtWithoutFinders | emptyRegistry => []
  | manyContainers endpoint count => [("endpoint", endpoint), ("count", toString count)]
  | nothingFound container endpoint interface =>
    [("container", container.render), ("endpoint", endpoint), ("interface", interface)]
  | lookupFailed container endpoint interface fault =>
    [("container", container.render), ("endpoint", endpoint), ("interface", interface),
     ("error", fault.message)]
  | registeredBefore container reference rejection | raceLost container reference rejection =>
    [("container", container.render), ("reference", reference.render),
     ("error", rejection.message)]
  | notRegistered container reference fault =>
    [("container", container.render), ("reference", reference.render), ("error", fault.message)]
  | goneAlready handle fault | notUnregistered handle fault =>
    [("registration", handle.render), ("error", fault.message)]
  | lastProxyRemoved endpoint container =>
    [("endpoint", endpoint), ("container", container.render)]
  | lagged missed => [("skipped", toString missed)]

end Report

/-! ## Entries -/

/-- What reaches the service space. -/
inductive SpaceCall where
  | register (handle : Handle) (properties : Properties)
  | registerFailed (interfaces : List String)
  | imported (handle : Handle) (reference : Reference)
  | unregister (handle : Handle) (fault : Option Fault)
  | withdrawn (handle : Handle)

inductive Event where
  | reported (report : Report)
  | called (call : SpaceCall)
  | heard (label : String) (removal : Removal)
  /-- The news that an endpoint is there was handled. -/
  | arrived (endpoint : Endpoint)
  /-- A resolution was started. -/
  | started (resolution : Nat) (endpoint : Endpoint)
  /-- A resolution ended by itself. -/
  | completed (resolution : Nat) (endpoint : Endpoint) (outcome : Outcome)
  /-- A resolution was ended by a shutdown. -/
  | aborted (resolution : Nat) (endpoint : Endpoint)
  /-- An import through a candidate began. -/
  | opened (candidate : Candidate)
  /-- A proxy was made and is about to be registered. -/
  | proxied (candidate : Candidate) (reference : Reference)
  /-- A proxy was recorded in the ledger. -/
  | recorded (endpoint : Endpoint) (candidate : Candidate) (reference : Reference) (handle : Handle)
      (admission : Admission)
  /-- The news that an endpoint is gone was handled. -/
  | left (endpoint : Endpoint)
  /-- Removals emptied the record of an endpoint. -/
  | emptied (endpoint : Endpoint)
  /-- A service was withdrawn from a memory adapter. -/
  | withdrew (adapter : String) (reference : Nat)
  | collected (outcomes : List (String × Outcome))

end ServiceImport

import ServiceImport.Filter.Matching
import ServiceImport.Filter.Parser
import ServiceImport.Ledger

/-! # Adapters

An adapter looks up the services of remote containers and tells its listeners when one goes away.
A memory adapter holds the services itself; a scripted one answers from a table, and can be held
back at a gate.
-/

namespace ServiceImport

/-- Who hears of removals on an adapter. -/
inductive Listener where
  /-- The importer, for the records under a container. -/
  | importer (container : ContainerId)
  | recorder (label : String)
  deriving DecidableEq

/-- How looking an interface up fails on a memory adapter. -/
inductive LookupFailure where
  | unreachable
  | badFilter
  deriving DecidableEq

structure PublishedServices where
  /-- The services in the order of their ids. -/
  services : List Reference := []
  failures : List (String × LookupFailure) := []
  /-- How many ids were given. -/
  issued : Nat := 0

structure Script where
  answers : List (String × Except Fault (List Reference)) := []
  /-- References without a remote service. -/
  absent : List Nat := []
  /-- References whose remote service gives no proxy, and why. -/
  broken : List (Nat × String) := []
  /-- Whether look-ups have to wait. -/
  closed : Bool := false
  /-- The resolutions that wait, in the order in which they came. -/
  waiting : List Nat := []

/-- Where an adapter has its services from. -/
inductive Backend where
  | memory (published : PublishedServices)
  | scripted (script : Script)

structure Adapter where
  owner : ContainerId
  backend : Backend
  /-- Listeners by subscription, in the order of their ids. -/
  listeners : List (Nat × Listener) := []
  subscribed : Nat := 0
  lookups : Nat := 0

/-! ## Published services -/

namespace PublishedServices

def find? (p : PublishedServices) (id : Nat) : Option Reference := p.services.find? (·.id == id)

theorem id_of_find? {p : PublishedServices} {id : Nat} {r : Reference} (h : p.find? id = some r) :
    r.id = id := by
  unfold find? at h
  simpa using List.find?_some h

def publish (p : PublishedServices) (owner : ContainerId) (interfaces : List String)
    (properties : Properties) : Reference × PublishedServices :=
  let id := p.issued + 1
  let properties := (properties.insert Key.objectClass (.list interfaces)).insert Key.serviceId
    (.int (Int64.ofNat id))
  let reference : Reference := { id, container := owner, properties }
  (reference, { p with services := p.services ++ [reference], issued := id })

def withdraw (p : PublishedServices) (id : Nat) : PublishedServices :=
  { p with services := p.services.filter (·.id != id) }

def fail (p : PublishedServices) (interface : String) (failure : LookupFailure) :
    PublishedServices :=
  { p with failures := (interface, failure) :: p.failures.filter (·.1 != interface) }

def heal (p : PublishedServices) (interface : String) : PublishedServices :=
  { p with failures := p.failures.filter (·.1 != interface) }

def readFilter (text : String) : Except Fault Filter :=
  (Filter.parse text).mapError fun e => .filterSyntax text e.message

/-- The services under an interface that satisfy a filter. -/
def select (p : PublishedServices) (interface : String) (filter : Option Filter) : List Reference :=
  p.services.filter fun r =>
    r.classes.contains interface && filter.all (·.holds r.properties)

def lookup (p : PublishedServices) (target : Option ContainerId) (interface : String)
    (filter : Option String) : Except Fault (List Reference) :=
  match p.failures.lookup interface with
  | some .unreachable =>
    .error (.connect ((target.map (·.render)).getD "<none>" ++ " unreachable"))
  | some .badFilter => .error (.filterSyntax (filter.getD "") "rejected by adapter")
  | none =>
    match filter with
    | none => .ok (p.select interface none)
    | some text => (readFilter text).map fun f => p.select interface (some f)

end PublishedServices

/-! ## Scripts -/

namespace Script

/-- What a look-up answers when nothing holds it back: the latest answer for the interface. -/
def lookup (s : Script) (interface : String) : Except Fault (List Reference) :=
  (s.answers.lookup interface).getD (.ok [])

def answer (s : Script) (interface : String) (result : Except Fault (List Reference)) : Script :=
  { s with answers := (interface, result) :: s.answers.filter (·.1 != interface) }

def breakProxy (s : Script) (id : Nat) (reason : String) : Script :=
  { s with broken := (id, reason) :: s.broken.filter (·.1 != id) }

/-- The remote service of a reference: none, one without a proxy, or one whose proxy stands for the
reference. -/
def remoteService? (s : Script) (r : Reference) : Option (Except Fault Reference) :=
  if s.absent.contains r.id then none
  else match s.broken.lookup r.id with
    | some reason => some (.error (.proxyUnavailable reason))
    | none => some (.ok r)

end Script

/-! ## Adapters -/

namespace Adapter

def isClosed (a : Adapter) : Bool :=
  match a.backend with
  | .memory _ => false
  | .scripted s => s.closed

/-- What a look-up answers when nothing holds it back. -/
def lookup (a : Adapter) (target : Option ContainerId) (interface : String)
    (filter : Option String) : Except Fault (List Reference) :=
  match a.backend with
  | .memory p => p.lookup target interface filter
  | .scripted s => s.lookup interface

/-- The remote service of a reference, which gives a proxy for a reference or fails to. -/
def remoteService? (a : Adapter) (r : Reference) : Option (Except Fault Reference) :=
  match a.backend with
  | .memory p => (p.find? r.id).map .ok
  | .scripted s => s.remoteService? r

def countLookups (a : Adapter) (n : Nat) : Adapter := { a with lookups := a.lookups + n }

/-- Adds a listener, and tells its subscription. -/
def subscribe (a : Adapter) (listener : Listener) : Nat × Adapter :=
  let id := a.subscribed + 1
  (id, { a with listeners := a.listeners ++ [(id, listener)], subscribed := id })

def unsubscribe (a : Adapter) (id : Nat) : Adapter :=
  { a with listeners := a.listeners.filter (·.1 != id) }

/-- The adapter with other published services, if it has any. -/
def withPublished (a : Adapter) (f : PublishedServices → PublishedServices) : Adapter :=
  match a.backend with
  | .memory p => { a with backend := .memory (f p) }
  | .scripted _ => a

theorem memory_of_withPublished {a : Adapter} {f : PublishedServices → PublishedServices}
    {p : PublishedServices} (h : (a.withPublished f).backend = .memory p) :
    ∃ q, a.backend = .memory q ∧ p = f q := by
  unfold withPublished at h
  split at h
  · next q hq => exact ⟨q, hq, (Backend.memory.inj h).symm⟩
  · next hq =>
    rw [hq] at h
    cases h

/-- The adapter with another script, if it has one. -/
def withScript (a : Adapter) (f : Script → Script) : Adapter :=
  match a.backend with
  | .memory _ => a
  | .scripted s => { a with backend := .scripted (f s) }

def waiting (a : Adapter) : List Nat :=
  match a.backend with
  | .memory _ => []
  | .scripted s => s.waiting

/-- Lets a resolution wait, unless it does. -/
def addWaiting (a : Adapter) (n : Nat) : Adapter :=
  a.withScript fun s => if s.waiting.contains n then s else { s with waiting := s.waiting ++ [n] }

def removeWaiting (a : Adapter) (n : Nat) : Adapter :=
  a.withScript fun s => { s with waiting := s.waiting.filter (· != n) }

end Adapter

end ServiceImport

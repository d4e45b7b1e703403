import ServiceImport.Site.State

/-! # Taking proxies away

Proxies go when their endpoint leaves and when their reference is removed. Whatever the service
space answers, the ledger has given the handles away by then, so each is torn down once.
-/

namespace ServiceImport.Site

/-! ## Service space -/

def unregister (h : Handle) (s : Site) : Option Fault × Site :=
  match s.space.failUnregister with
  | some reason =>
    let fault := Fault.serviceSpace reason
    (some fault, s.log (.called (.unregister h (some fault))))
  | none =>
    match s.space.store.unregister h.id with
    | .error fault => (some fault, s.log (.called (.unregister h (some fault))))
    | .ok store =>
      (none, log (.called (.unregister h none)) { s with space := { s.space with store } })

def forgetImport (h : Handle) (s : Site) : Site :=
  if s.space.plain then s
  else
    log (.called (.withdrawn h))
      { s with space := { s.space with store := s.space.store.withdrawn h.id } }

/-- Reports how unregistering failed, if it did. -/
def reportUnregister (h : Handle) (fault : Option Fault) (s : Site) : Site :=
  match fault with
  | none => s
  | some (.alreadyUnregistered id) => s.report (.goneAlready h (.alreadyUnregistered id))
  | some fault => s.report (.notUnregistered h fault)

def tearDownOne (s : Site) (h : Handle) : Site :=
  let (fault, s) := s.unregister h
  (s.reportUnregister h fault).forgetImport h

def tearDown (handles : List Handle) (s : Site) : Site := handles.foldl tearDownOne s

/-! ## Removals -/

/-- Notes that removals emptied the record of an endpoint. -/
def noteEmptied (container : ContainerId) (s : Site) (r : Record) : Site :=
  let s := (s.report (.lastProxyRemoved r.endpoint.id container)).log (.emptied r.endpoint)
  if s.settings.releaseOnRemoval then
    { s with locations := (s.locations.release r.endpoint.location).2 }
  else s

/-- Takes away what was imported through a container for a reference. -/
def removeReference (container : ContainerId) (reference : Nat) (s : Site) : Site :=
  let (withdrawal, ledger) := s.ledger.withdrawReference container reference
  let s := cancelAll withdrawal.disposed { s with ledger }
  if withdrawal.handles.isEmpty then s
  else withdrawal.disposed.foldl (noteEmptied container) (s.tearDown withdrawal.handles)

/-- Lets a listener hear of a removal. -/
def hear (removal : Removal) (s : Site) : Listener → Site
  | .recorder label => s.log (.heard label removal)
  | .importer container =>
    if s.isAlive then s.removeReference container removal.reference.id else s

/-- Lets listeners hear of a removal, one after another. -/
def deliver (listeners : List Listener) (removal : Removal) (s : Site) : Site :=
  listeners.foldl (hear removal) s

/-- Withdraws a service from a memory adapter, and tells whether it had it. Those hear of it who
listened when it was withdrawn. -/
def withdrawService (key : String) (reference : Nat) (s : Site) : Bool × Site :=
  match s.adapter? key with
  | some { owner, backend := .memory p, listeners, .. } =>
    match p.find? reference with
    | none => (false, s)
    | some r =>
      let s := (s.updateAdapter key (·.withPublished (·.withdraw reference))).log
        (.withdrew key reference)
      (true, s.deliver (listeners.map (·.2)) { seenBy := owner, reference := r })
  | _ => (false, s)

/-- Lets the listeners of an adapter hear of a removal, and tells how many there are. -/
def emit (key : String) (reference : Reference) (host : Option ContainerId) (s : Site) :
    Nat × Site :=
  match s.adapter? key with
  | none => (0, s)
  | some a =>
    (a.listeners.length,
     s.deliver (a.listeners.map (·.2)) { seenBy := a.owner, host, reference })

/-! ## Departures -/

/-- Handles the news that an endpoint is gone: its location is free again, its records and their
proxies go. -/
def unavailable (e : Endpoint) (s : Site) : Site :=
  let (released, locations) := s.locations.release e.location
  let (records, ledger) := s.ledger.withdrawEndpoint e.id
  let handles := records.flatMap (·.handles)
  let s := (cancelAll records { s with locations, ledger }).log (.left e)
  if handles.isEmpty && !released then s
  else (s.tearDown handles).report (.unavailable e.id handles.length)

end ServiceImport.Site

import ServiceImport.Site.Removal

/-! # Carrying out commands

Each command is carried out at once and runs no job.
-/

namespace ServiceImport.Site

/-! ## The importer -/

/-- Handles the news of an endpoint: unless its location is accepted already, a resolution is
started for it. -/
def available (e : Endpoint) (s : Site) : Site :=
  let s := s.log (.arrived e)
  let (isNew, locations) := s.locations.accept e.location
  if !isNew then s
  else
    let s : Site := { s with locations }
    let s := if e.interfaces.isEmpty then s.report (.noInterfaces e.id) else s
    let n := s.started
    let s : Site := { s with
      pending := s.pending.enter e.id
      resolutions := s.resolutions ++ [{ id := n, endpoint := e }]
      started := n + 1
      ready := s.ready ++ [.resolution n] }
    s.log (.started n e)

def notify (news : Notification) (s : Site) : Site :=
  match s.adaptation.adapt news.endpoint with
  | .error fault => s.report (.notAdapted news.kind fault)
  | .ok none => s.report (.notApplicable news.kind)
  | .ok (some e) =>
    match news.kind with
    | .available => s.available e
    | .unavailable => s.unavailable e
    | .modified | .endMatch => s

def notifyCode (code : Nat) (endpoint : Discovered) (s : Site) : Except Fault Site :=
  (Notification.ofCode code endpoint).map s.notify

/-- Marks a resolution as aborted. It is dropped when it runs next. -/
def abortResolution (s : Site) (r : Resolution) : Site :=
  let s := s.updateResolution r.id ({ · with aborted := true })
  match r.stage with
  | .running => s
  | _ => s.wake (.resolution r.id)

/-- Marks a feed as aborted. It ends when it runs next. -/
def abortFeed (i : Nat) (s : Site) : Site :=
  match s.feeds[i]? with
  | none => s
  | some f =>
    if f.finished then s
    else
      let s := s.updateFeed i ({ · with aborted := true })
      wake (.feed i) { s with idleFeeds := s.idleFeeds.filter (· != i) }

/-- Aborts all resolutions and feeds; what is registered stays. -/
def shutdown (s : Site) : Site :=
  let s := s.resolutions.foldl abortResolution s
  (List.range s.feeds.length).foldl (fun s i => s.abortFeed i) s

/-- Hands out the outcomes since the last time. -/
def collect (s : Site) : List (String × Outcome) × Site :=
  (s.finished, log (.collected s.finished) { s with finished := [] })

/-- The owner lets go of the importer, and of the ledger unless it is kept. -/
def dropImporter (keepLedger : Bool) (s : Site) : Site :=
  releaseLedger { s with importerHeld := false, ledgerHeld := keepLedger }

/-- Accepts a location, and tells whether it was not accepted before. -/
def acceptLocation (l : Location) (s : Site) : Bool × Site :=
  let (isNew, locations) := s.locations.accept l
  (isNew, { s with locations })

/-- Releases a location, and tells whether it was accepted. -/
def releaseLocation (l : Location) (s : Site) : Bool × Site :=
  let (known, locations) := s.locations.release l
  (known, { s with locations })

/-! ## Hubs and feeds -/

/-- The number and state of the latest hub, if it is open. -/
def openHub? (s : Site) : Option (Nat × Hub Notification) :=
  match s.hubs.getLast? with
  | some h => if h.isOpen then some (s.hubs.length - 1, h) else none
  | none => none

/-- Makes a hub if none is open. -/
def ensureHub (s : Site) : Site :=
  match s.openHub? with
  | some _ => s
  | none => { s with hubs := s.hubs ++ [Hub.new s.settings.hubCapacity] }

/-- Feeds the notifications of the hub to the importer from now on. -/
def attach (s : Site) : Site :=
  let s := s.ensureHub
  match s.openHub? with
  | none => s
  | some (i, h) =>
    let (reader, h) := h.subscribe
    let feed := s.feeds.length
    { s with
      hubs := s.hubs.set i h
      feeds := s.feeds ++ [{ hub := i, reader }]
      ready := s.ready ++ [.feed feed] }

/-- Whether a feed reads a hub. -/
def reads (s : Site) (hub feed : Nat) : Bool := s.feeds[feed]?.any (·.hub == hub)

/-- Makes the feeds ready that wait for news of a hub. -/
def wakeFeeds (hub : Nat) (s : Site) : Site :=
  let woken := s.idleFeeds.filter (s.reads hub)
  woken.foldl (fun s i => s.wake (.feed i))
    { s with idleFeeds := s.idleFeeds.filter (!s.reads hub ·) }

/-- Publishes a notification, and tells how many feeds read it. -/
def publish (news : Notification) (s : Site) : Nat × Site :=
  match s.openHub? with
  | none => (0, s)
  | some (i, h) =>
    let (count, h) := h.publish news
    let s : Site := { s with hubs := s.hubs.set i h }
    (count, if count = 0 then s else s.wakeFeeds i)

def closeHub (s : Site) : Site :=
  match s.openHub? with
  | none => s
  | some (i, h) => wakeFeeds i { s with hubs := s.hubs.set i h.close }

/-! ## Adapters -/

/-- Publishes a service on a memory adapter, and tells its reference. -/
def publishService (key : String) (interfaces : List String) (properties : Properties) (s : Site) :
    Option Reference × Site :=
  match s.adapter? key with
  | some { owner, backend := .memory p, .. } =>
    let (r, p) := p.publish owner interfaces properties
    (some r, s.updateAdapter key (·.withPublished fun _ => p))
  | _ => (none, s)

/-- Opens or closes the gate of a scripted adapter. Whoever waits becomes ready when it opens. -/
def setGate (key : String) (closed : Bool) (s : Site) : Site :=
  let waiting := if closed then [] else ((s.adapter? key).map (·.waiting)).getD []
  let s := s.updateAdapter key (·.withScript fun x =>
    { x with closed, waiting := if closed then x.waiting else [] })
  waiting.foldl (fun s n => s.wake (.resolution n)) s

/-! ## The registry -/

/-- Adds a container to the registry, in place of one with the same identity. -/
def addContainer (c : Container) (s : Site) : Site :=
  { s with registry := s.registry.filter (·.id != c.id) ++ [c] }

/-- Removes a container from the registry, and tells whether it was there. -/
def removeContainer (id : ContainerId) (s : Site) : Bool × Site :=
  (s.registry.any (·.id == id), { s with registry := s.registry.filter (·.id != id) })

/-! ## The service space and the ledger, directly -/

/-- The site with another store behind its service space. -/
def withStore (store : ServiceSpace) (s : Site) : Site :=
  { s with space := { s.space with store } }

/-- Registers a reference in the ledger. A subscription that no record takes ends. -/
def record (endpoint : Endpoint) (container : ContainerId) (reference : Reference) (handle : Handle)
    (subscription : Option Subscription) (s : Site) : Except Rejection Admission × Site :=
  let enrolled := s.ledger.enroll endpoint container reference handle subscription
  (enrolled.1, cancel enrolled.2.2 { s with ledger := enrolled.2.1 })

/-- Removes the records of an endpoint from the ledger, and tells their handles. -/
def unrecordEndpoint (endpoint : Endpoint) (s : Site) : List Handle × Site :=
  let (records, ledger) := s.ledger.withdrawEndpoint endpoint.id
  (records.flatMap (·.handles), cancelAll records { s with ledger })

/-- Removes the mappings of a reference from the ledger, and tells what went. -/
def unrecordReference (container : ContainerId) (reference : Nat) (s : Site) : Withdrawal × Site :=
  let (withdrawal, ledger) := s.ledger.withdrawReference container reference
  (withdrawal, cancelAll withdrawal.disposed { s with ledger })

/-! ## Commands -/

def perform (s : Site) : Command → Site
  | .available e => s.available e
  | .unavailable e => s.unavailable e
  | .notify news => s.notify news
  | .shutdown => s.shutdown
  | .collect => s.collect.2
  | .dropImporter keepLedger => s.dropImporter keepLedger
  | .acceptLocation l => (s.acceptLocation l).2
  | .releaseLocation l => (s.releaseLocation l).2
  | .attach => s.attach
  | .publish news => (s.publish news).2
  | .abortFeed i => s.abortFeed i
  | .closeHub => s.closeHub
  | .publishService key interfaces properties => (s.publishService key interfaces properties).2
  | .withdrawService key reference => (s.withdrawService key reference).2
  | .failLookups key interface failure =>
    s.updateAdapter key (·.withPublished (·.fail interface failure))
  | .healLookups key interface => s.updateAdapter key (·.withPublished (·.heal interface))
  | .answer key interface result => s.updateAdapter key (·.withScript (·.answer interface result))
  | .dropRemote key reference =>
    s.updateAdapter key (·.withScript fun x => { x with absent := x.absent ++ [reference] })
  | .breakProxy key reference reason =>
    s.updateAdapter key (·.withScript (·.breakProxy reference reason))
  | .setGate key closed => s.setGate key closed
  | .emit key reference host => (s.emit key reference host).2
  | .observe key label => (s.subscribe key (.recorder label)).2
  | .unsubscribe subscription => s.unsubscribe subscription
  | .addContainer c => s.addContainer c
  | .removeContainer id => (s.removeContainer id).2
  | .unregister h =>
    match s.space.store.unregister h.id with
    | .ok store => s.withStore store
    | .error _ => s
  | .noteImport h reference => s.withStore (s.space.store.imported h.id reference)
  | .forgetImport h => s.withStore (s.space.store.withdrawn h.id)
  | .failRegister reason => { s with space := { s.space with failRegister := reason } }
  | .failUnregister reason => { s with space := { s.space with failUnregister := reason } }
  | .record e container reference h subscription => (s.record e container reference h subscription).2
  | .unrecordEndpoint e => (s.unrecordEndpoint e).2
  | .unrecordReference container reference => (s.unrecordReference container reference).2

/-- Carries out commands one after another. -/
def performAll (commands : List Command) (s : Site) : Site := commands.foldl perform s

/-- Sets what happens within the next registration, in place of what was to happen there. -/
def interruptNext (commands : List Command) (s : Site) : Site :=
  { s with space := { s.space with interruptions := commands :: s.space.interruptions.tail } }

end ServiceImport.Site

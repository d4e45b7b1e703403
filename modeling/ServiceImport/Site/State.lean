import ServiceImport.Adapter
import ServiceImport.Hub
import ServiceImport.Limiter
import ServiceImport.Locations
import ServiceImport.Proxy
import ServiceImport.ServiceSpace
import ServiceImport.Site.Journal

/-! # Sites

A site is one importer with all it works with: containers and their adapters, the service space,
the ledger, hubs and feeds, and the jobs that are ready to run. It changes in two ways only: a
command is carried out at once, and a ready job runs until it has to wait.
-/

namespace ServiceImport

/-! ## Commands -/

/-- What can be done at a site at any time, also while a proxy is being registered. -/
inductive Command where
  -- The importer.
  | available (endpoint : Endpoint)
  | unavailable (endpoint : Endpoint)
  | notify (news : Notification)
  | shutdown
  | collect
  | dropImporter (keepLedger : Bool)
  | acceptLocation (location : Location)
  | releaseLocation (location : Location)
  -- Hubs and feeds.
  | attach
  | publish (news : Notification)
  | abortFeed (feed : Nat)
  | closeHub
  -- Adapters.
  | publishService (adapter : String) (interfaces : List String) (properties : Properties)
  | withdrawService (adapter : String) (reference : Nat)
  | failLookups (adapter interface : String) (failure : LookupFailure)
  | healLookups (adapter interface : String)
  | answer (adapter interface : String) (result : Except Fault (List Reference))
  | dropRemote (adapter : String) (reference : Nat)
  | breakProxy (adapter : String) (reference : Nat) (reason : String)
  | setGate (adapter : String) (closed : Bool)
  | emit (adapter : String) (reference : Reference) (host : Option ContainerId)
  | observe (adapter label : String)
  | unsubscribe (subscription : Subscription)
  -- The registry.
  | addContainer (container : Container)
  | removeContainer (id : ContainerId)
  -- The service space.
  | unregister (handle : Handle)
  | noteImport (handle : Handle) (reference : Reference)
  | forgetImport (handle : Handle)
  | failRegister (reason : Option String)
  | failUnregister (reason : Option String)
  -- The ledger.
  | record (endpoint : Endpoint) (container : ContainerId) (reference : Reference) (handle : Handle)
      (subscription : Option Subscription)
  | unrecordEndpoint (endpoint : Endpoint)
  | unrecordReference (container : ContainerId) (reference : Nat)

/-! ## Jobs -/

/-- Where a resolution is. -/
inductive Stage where
  | fresh
  /-- It waits for a permit. -/
  | queued
  /-- It was given a permit and has not run since. -/
  | admitted
  | running
  /-- It waits for the references of a container; more containers are to be asked. -/
  | lookingUp (candidate : Candidate) (rest : List Candidate) (tally : Tally)

def Stage.holdsPermit : Stage → Bool
  | fresh | queued => false
  | admitted | running | lookingUp .. => true

structure Resolution where
  id : Nat
  endpoint : Endpoint
  stage : Stage := .fresh
  aborted : Bool := false

structure Feed where
  hub : Nat
  /-- Which feed of the hub it is. -/
  reader : Nat
  aborted : Bool := false
  finished : Bool := false

/-- What can run: a resolution or a feed by its number. -/
inductive Job where
  | resolution (id : Nat)
  | feed (index : Nat)
  deriving DecidableEq

/-! ## Sites -/

/-- The service space as the importer reaches it. -/
structure SpaceFront where
  store : ServiceSpace := {}
  /-- Whether the space keeps no table of imports. -/
  plain : Bool := false
  /-- Why registering fails, if it does. -/
  failRegister : Option String := none
  /-- Why unregistering fails, if it does. -/
  failUnregister : Option String := none
  /-- What happens at the site within the registrations to come, before each is carried out: the
  first list within the next one, and so on. -/
  interruptions : List (List Command) := []

/-- A site. -/
structure Site where
  settings : Settings := {}
  adaptation : Adaptation := .standard
  /-- What each finder always finds, in the order of the finders. -/
  finders : List (List Candidate) := []
  managed : Bool := true
  containers : List Container := []
  registry : List Container := []
  adapters : List (String × Adapter) := []
  space : SpaceFront := {}
  ledger : Ledger := {}
  locations : Locations := {}
  limiter : Limiter
  pending : Pending := {}
  /-- Resolutions in flight, in the order in which they were started. -/
  resolutions : List Resolution := []
  /-- How many resolutions were started. -/
  started : Nat := 0
  /-- Outcomes not yet handed out. -/
  finished : List (String × Outcome) := []
  hubs : List (Hub Notification) := []
  feeds : List Feed := []
  /-- Feeds that wait for news, in the order in which they came. -/
  idleFeeds : List Nat := []
  /-- Jobs that can run, in the order of their turn. -/
  ready : List Job := []
  journal : List Event := []
  /-- Whether the importer is still held by its owner. -/
  importerHeld : Bool := true
  /-- Whether the ledger is still held by its owner. -/
  ledgerHeld : Bool := true

namespace Site

/-! ## Journal -/

def log (e : Event) (s : Site) : Site := { s with journal := s.journal ++ [e] }

def report (r : Report) (s : Site) : Site := s.log (.reported r)

/-! ## Adapters -/

def adapter? (s : Site) (key : String) : Option Adapter := s.adapters.lookup key

def updateAdapter (key : String) (f : Adapter → Adapter) (s : Site) : Site :=
  { s with adapters := s.adapters.map fun e => if e.1 = key then (e.1, f e.2) else e }

theorem lookup_map_update (key k : String) (f : Adapter → Adapter)
    (adapters : List (String × Adapter)) :
    (adapters.map fun e => if e.1 = key then (e.1, f e.2) else e).lookup k =
      if k = key then (adapters.lookup k).map f else adapters.lookup k := by
  induction adapters with
  | nil => simp
  | cons e rest ih =>
    obtain ⟨name, a⟩ := e
    simp only [List.map_cons]
    by_cases hk : k = name
    · subst hk
      split <;> simp_all
    · have hb : (k == name) = false := beq_eq_false_iff_ne.2 hk
      split <;> simp only [List.lookup_cons, hb, ih]

@[simp] theorem adapter?_updateAdapter (s : Site) (key k : String) (f : Adapter → Adapter) :
    (s.updateAdapter key f).adapter? k =
      if k = key then (s.adapter? k).map f else s.adapter? k :=
  lookup_map_update key k f s.adapters

def subscribe (key : String) (listener : Listener) (s : Site) : Option Subscription × Site :=
  match s.adapter? key with
  | none => (none, s)
  | some a =>
    let (id, a) := a.subscribe listener
    (some ⟨key, id⟩, s.updateAdapter key fun _ => a)

def unsubscribe (subscription : Subscription) (s : Site) : Site :=
  s.updateAdapter subscription.adapter (·.unsubscribe subscription.id)

/-- Ends a subscription if there is one. -/
def cancel (subscription : Option Subscription) (s : Site) : Site :=
  match subscription with
  | none => s
  | some x => s.unsubscribe x

def cancelAll (records : List Record) (s : Site) : Site :=
  records.foldl (fun s r => s.cancel r.subscription) s

/-! ## Jobs -/

/-- Makes a job ready, unless it is. -/
def wake (t : Job) (s : Site) : Site :=
  if t ∈ s.ready then s else { s with ready := s.ready ++ [t] }

def resolution? (s : Site) (n : Nat) : Option Resolution := s.resolutions.find? (·.id == n)

def updateResolution (n : Nat) (f : Resolution → Resolution) (s : Site) : Site :=
  { s with resolutions := s.resolutions.map fun r => if r.id = n then f r else r }

def setStage (n : Nat) (stage : Stage) (s : Site) : Site :=
  s.updateResolution n ({ · with stage })

def updateFeed (i : Nat) (f : Feed → Feed) (s : Site) : Site :=
  { s with feeds := s.feeds.modify i f }

def updateHub (i : Nat) (f : Hub Notification → Hub Notification) (s : Site) : Site :=
  { s with hubs := s.hubs.modify i f }

/-- Whether the importer is there: held by its owner, or by a job. -/
def isAlive (s : Site) : Bool :=
  s.importerHeld || !s.resolutions.isEmpty || s.feeds.any (!·.finished)

/-- Disposes the ledger once neither the importer nor an owner holds it. -/
def releaseLedger (s : Site) : Site :=
  if s.isAlive || s.ledgerHeld then s
  else
    let (records, ledger) := s.ledger.clear
    cancelAll records { s with ledger }

def standing (s : Site) (e : Endpoint) : Standing :=
  if s.ledger.contains e.id then .registered
  else if s.pending.contains e.id then .pending
  else if s.locations.contains e.location then .retained
  else .unseen

end Site

end ServiceImport

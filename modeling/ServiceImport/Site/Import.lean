import ServiceImport.Site.Commands
import ServiceImport.Site.Finding

/-! # Importing references

A resolution asks one container after another. From each it takes the references of all interfaces
of the endpoint, and for each reference it registers a proxy and records it in the ledger.
-/

namespace ServiceImport.Site

/-! ## Registering proxies -/

/-- Registers with the service space. What was set to happen within a registration happens first. -/
def register (r : Registration) (s : Site) : Except Fault Handle × Site :=
  let interruption := s.space.interruptions.headD []
  let s := performAll interruption
    { s with space := { s.space with interruptions := s.space.interruptions.tail } }
  match s.space.failRegister with
  | some reason => (.error (.serviceSpace reason), s.log (.called (.registerFailed r.interfaces)))
  | none =>
    match s.space.store.register r with
    | .error fault => (.error fault, s)
    | .ok (h, store) => (.ok h, (s.withStore store).log (.called (.register h r.properties)))

def noteImport (h : Handle) (reference : Reference) (s : Site) : Site :=
  if s.space.plain then s
  else (s.withStore (s.space.store.imported h.id reference)).log (.called (.imported h reference))

/-- What a candidate gives for the proxy of a reference. -/
def prepareProxy (e : Endpoint) (c : Candidate) (r : Reference) (s : Site) :
    Except Fault Registration :=
  match (s.adapter? c.adapter).bind (·.remoteService? r) with
  | none => .error (.proxyUnavailable ("no remote service for " ++ r.render))
  | some proxy =>
    if r.classes.isEmpty then .error (.missingProperty Key.objectClass)
    else proxy.map fun proxied =>
      { interfaces := r.classes, properties := proxyProperties s.settings e c r, proxied }

/-- Creates and registers the proxy of a reference. -/
def registerProxy (e : Endpoint) (c : Candidate) (r : Reference) (s : Site) :
    Except Fault Handle × Site :=
  match s.prepareProxy e c r with
  | .error fault => (.error fault, s)
  | .ok registration =>
    match (s.log (.proxied c r)).register registration with
    | (.error fault, s) => (.error fault, s)
    | (.ok h, s) => (.ok h, s.noteImport h r)

/-! ## Importing -/

/-- A site in the middle of an import: the subscription that no record has taken yet, and what the
resolution has come to. -/
structure Importing where
  site : Site
  subscription : Option Subscription
  tally : Tally

/-- Records a registered proxy. One that the ledger refuses is taken away again. -/
def recordProxy (e : Endpoint) (c : Candidate) (r : Reference) (h : Handle) (i : Importing) :
    Importing :=
  let (verdict, ledger, subscription) := i.site.ledger.enroll e c.id r h i.subscription
  let s : Site := { i.site with ledger }
  match verdict with
  | .ok admission =>
    { site := s.log (.recorded e c r h admission), subscription
      tally := { i.tally with registered := i.tally.registered + 1 } }
  | .error rejection =>
    { site := (s.report (.raceLost c.id r rejection)).tearDown [h], subscription
      tally := { i.tally with rejected := i.tally.rejected + 1 } }

/-- Imports a reference: if the ledger would take it, its proxy is registered and recorded. -/
def importOne (e : Endpoint) (c : Candidate) (i : Importing) (r : Reference) : Importing :=
  match i.site.ledger.check ⟨c.id, e.id⟩ r.id with
  | .error rejection =>
    { i with
      site := i.site.report (.registeredBefore c.id r rejection)
      tally := { i.tally with rejected := i.tally.rejected + 1 } }
  | .ok () =>
    match i.site.registerProxy e c r with
    | (.error fault, s) => { i with site := s.report (.notRegistered c.id r fault) }
    | (.ok h, s) => recordProxy e c r h { i with site := s }

/-- The references of a list, the first of each id. -/
def firstOfEach (references : List Reference) : List Reference :=
  references.foldl (fun kept r => if kept.any (·.id == r.id) then kept else kept ++ [r]) []

/-- Imports the references that a container told of. The subscription for their removal ends unless
a record takes it. -/
def importAll (e : Endpoint) (c : Candidate) (references : List Reference) (tally : Tally)
    (s : Site) : Tally × Site :=
  let (subscription, s) := s.subscribe c.adapter (.importer c.id)
  let i := (firstOfEach references).foldl (importOne e c)
    { site := s.log (.opened c), subscription, tally := { tally with anyReferences := true } }
  (i.tally, i.site.cancel i.subscription)

/-! ## Look-ups -/

/-- Whether a look-up through a candidate has to wait. -/
def hasToWait (e : Endpoint) (c : Candidate) (s : Site) : Bool :=
  !e.interfaces.isEmpty && (s.adapter? c.adapter).any (·.isClosed)

/-- Counts the look-ups of the interfaces of an endpoint. -/
def countLookups (e : Endpoint) (c : Candidate) (s : Site) : Site :=
  s.updateAdapter c.adapter (·.countLookups e.interfaces.length)

/-- What a candidate answers for an interface of an endpoint. -/
def answerFor (e : Endpoint) (c : Candidate) (interface : String) (s : Site) :
    Except Fault (List Reference) :=
  match s.adapter? c.adapter with
  | none => .ok []
  | some a => a.lookup e.target interface e.filter

/-- The references under an interface. A failure is reported, and so is finding none. -/
def lookUpOne (e : Endpoint) (c : Candidate) (acc : List (String × List Reference) × Site)
    (interface : String) : List (String × List Reference) × Site :=
  match answerFor e c interface acc.2 with
  | .ok [] => (acc.1, acc.2.report (.nothingFound c.id e.id interface))
  | .ok references => (acc.1 ++ [(interface, references)], acc.2)
  | .error fault => (acc.1, acc.2.report (.lookupFailed c.id e.id interface fault))

/-- The references of a candidate by interface, where there are any. -/
def lookUp (e : Endpoint) (c : Candidate) (s : Site) : List (String × List Reference) × Site :=
  e.interfaces.foldl (lookUpOne e c) ([], s)

/-- Takes the references of a candidate and imports them. -/
def importThrough (e : Endpoint) (c : Candidate) (tally : Tally) (s : Site) : Tally × Site :=
  let (found, s) := s.lookUp e c
  if found.isEmpty then (tally, s) else s.importAll e c (found.flatMap (·.2)) tally

/-! ## Resolutions -/

/-- How far a resolution got. -/
inductive Progress where
  | done (outcome : Outcome)
  | waiting (candidate : Candidate) (rest : List Candidate) (tally : Tally)

/-- Asks candidates one after another, until one has to be waited for. -/
def resolveThrough (e : Endpoint) : List Candidate → Tally → Site → Progress × Site
  | [], tally, s => (.done tally.outcome, s)
  | c :: rest, tally, s =>
    let s := s.countLookups e c
    if s.hasToWait e c then (.waiting c rest tally, s)
    else
      let (tally, s) := s.importThrough e c tally
      resolveThrough e rest tally s

def resumeThrough (e : Endpoint) (c : Candidate) (rest : List Candidate) (tally : Tally) (s : Site) :
    Progress × Site :=
  if s.hasToWait e c then (.waiting c rest tally, s)
  else
    let (tally, s) := s.importThrough e c tally
    resolveThrough e rest tally s

def resolve (e : Endpoint) (s : Site) : Progress × Site :=
  let (candidates, s) := s.findContainers e
  if candidates.isEmpty then (.done .noContainers, s.report (.noContainers e.id))
  else resolveThrough e candidates {} s

end ServiceImport.Site

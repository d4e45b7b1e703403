import Mathlib.Logic.Relation
import ServiceImport.Site.Build
import ServiceImport.Site.Run

/-! # Runs

A site is built, and then commands are carried out and jobs get turns, in any order. A turn is taken
apart into changes, because commands may be carried out in the middle of it. What every change keeps
is true between any two moves of any run.
-/

namespace ServiceImport

/-! ## Commands -/

/-- Whether only someone who holds the importer can give a command. -/
def Command.usesImporter : Command → Bool
  | .available _ | .unavailable _ | .notify _ | .shutdown | .collect | .dropImporter _
  | .acceptLocation _ | .releaseLocation _ | .attach => true
  | _ => false

/-- Whether a command goes past the importer to the registrations or the records. -/
def Command.bypassesImporter : Command → Bool
  | .unregister _ | .record .. | .unrecordEndpoint _ | .unrecordReference .. => true
  | _ => false

/-- Whether a command goes past the importer to the accepted locations. -/
def Command.placesLocation : Command → Bool
  | .acceptLocation _ | .releaseLocation _ => true
  | _ => false

namespace Site

/-! ## Sites that runs come to -/

/-- The sites between the moves of runs with allowed commands. Interruptions are planned ahead and
happen within the registrations to come. -/
inductive Reachable (allowed : Command → Prop) : Site → Prop
  | build {b : Blueprint} {s : Site} : Site.build b = .ok s → Reachable allowed s
  | perform {s : Site} {c : Command} : Reachable allowed s → allowed c →
      (c.usesImporter = true → s.isAlive = true) → Reachable allowed (s.perform c)
  | plan {s : Site} {interruptions : List (List Command)} : Reachable allowed s →
      (∀ cs ∈ interruptions, ∀ c ∈ cs, allowed c) →
      Reachable allowed { s with space := { s.space with interruptions } }
  | poll {s : Site} {j : Job} : Reachable allowed s → Reachable allowed (s.poll j)

theorem Reachable.mono {allowed allowed' : Command → Prop} (more : ∀ c, allowed c → allowed' c)
    {s : Site} (h : Reachable allowed s) : Reachable allowed' s := by
  induction h with
  | build h => exact .build h
  | perform _ ok alive ih => exact .perform ih (more _ ok) alive
  | plan _ ok ih => exact .plan ih fun cs hcs c hc => more c (ok cs hcs c hc)
  | poll _ ih => exact .poll ih

/-! ## A small site

One container, whose adapter holds its services in memory, and an endpoint that it reaches.
-/

def lampContainer : Container where
  key := "lamps"
  id := ⟨"home", "lamps"⟩
  connectNamespace := some "home"
  hasAdapter := true

def lampSite : Site where
  containers := [lampContainer]
  registry := [lampContainer]
  adapters := [("lamps", { owner := ⟨"home", "lamps"⟩, backend := .memory {} })]
  limiter := { free := 8 }

theorem build_lampSite :
    Site.build { installations := [.memory "lamps" ⟨"home", "lamps"⟩ none] } = .ok lampSite := rfl

def lampEndpoint : Endpoint where
  id := "lamp"
  location := ⟨"home://lamp"⟩
  interfaces := ["Lamp"]
  target := some ⟨"home", "lamps"⟩

/-- A service that is registered under classes. -/
def classedReference (container : ContainerId) (id : Nat) (classes : List String) : Reference where
  id := id
  container := container
  properties := Properties.empty.insert Key.objectClass (.list classes)

/-- The site with a lamp to import. -/
def litSite : Site := lampSite.perform (.publishService "lamps" ["Lamp"] .empty)

theorem reachable_litSite {allowed : Command → Prop}
    (ok : allowed (.publishService "lamps" ["Lamp"] .empty)) : Reachable allowed litSite :=
  .perform (.build build_lampSite) ok (by simp [Command.usesImporter])

/-! ## Moments -/

/-- What the job does whose turn it is. -/
inductive Phase where
  /-- It is nobody's turn. -/
  | idle
  /-- A resolution asks its candidates. -/
  | resolving (r : Resolution)
  /-- It imports what a candidate told of, and holds a subscription until a record takes it. -/
  | importing (r : Resolution) (c : Candidate) (subscription : Option Subscription)
  /-- It is about to register the proxy of a reference. -/
  | registering (r : Resolution) (c : Candidate) (subscription : Option Subscription)
      (reference : Reference) (registration : Registration)
  /-- A feed hands its news on. -/
  | feeding (feed : Nat)

/-- The resolution whose turn it is. -/
def Phase.resolution? : Phase → Option Resolution
  | .idle | .feeding _ => none
  | .resolving r | .importing r .. | .registering r .. => some r

/-- A site at any moment, also in the middle of a turn. -/
structure Moment where
  site : Site
  phase : Phase := .idle

/-- Whether the importer is there: also a job whose turn it is holds it. -/
def Moment.IsAlive (m : Moment) : Prop := m.site.isAlive = true ∨ m.phase ≠ .idle

/-! ## Changes -/

/-- The site and the subscription at hand after a proxy was registered, noted and recorded, or taken
away again. -/
def recordRegistered (r : Resolution) (c : Candidate) (subscription : Option Subscription)
    (reference : Reference) (properties : Properties) (h : Handle) (store : ServiceSpace)
    (s : Site) : Importing :=
  recordProxy r.endpoint c reference h
    ⟨((s.withStore store).log (.called (.register h properties))).noteImport h reference,
      subscription, {}⟩

/-- What happens between two moments. -/
inductive Change (allowed : Command → Prop) : Moment → Moment → Prop
  -- At any moment.
  | perform {s : Site} {p : Phase} {c : Command} : allowed c →
      (c.usesImporter = true → Moment.IsAlive ⟨s, p⟩) → Change allowed ⟨s, p⟩ ⟨s.perform c, p⟩
  | report {s : Site} {p : Phase} (report : Report) :
      Change allowed ⟨s, p⟩ ⟨s.report report, p⟩
  | plan {s : Site} {interruptions : List (List Command)} :
      (∀ cs ∈ interruptions, ∀ c ∈ cs, allowed c) →
      Change allowed ⟨s, .idle⟩ ⟨{ s with space := { s.space with interruptions } }, .idle⟩
  -- Around a turn.
  | take {s : Site} {j : Job} : j ∈ s.ready →
      Change allowed ⟨s, .idle⟩ ⟨{ s with ready := s.ready.erase j }, .idle⟩
  | release {s : Site} : Change allowed ⟨s, .idle⟩ ⟨s.releaseLedger, .idle⟩
  -- The turn of a resolution.
  | discard {s : Site} {r : Resolution} : s.resolution? r.id = some r → r.aborted = true →
      Change allowed ⟨s, .idle⟩ ⟨s.discard r, .idle⟩
  | queue {s : Site} {r : Resolution} : s.resolution? r.id = some r → r.stage = .fresh →
      s.limiter.free = 0 →
      Change allowed ⟨s, .idle⟩
        ⟨setStage r.id .queued { s with limiter := (s.limiter.acquire r.id).2 }, .idle⟩
  | enter {s : Site} {r : Resolution} : s.resolution? r.id = some r → r.stage = .fresh →
      s.limiter.free ≠ 0 →
      Change allowed ⟨s, .idle⟩
        ⟨setStage r.id .running { s with limiter := (s.limiter.acquire r.id).2 }, .resolving r⟩
  | resume {s : Site} {r : Resolution} : s.resolution? r.id = some r →
      (r.stage = .admitted ∨ ∃ c rest tally, r.stage = .lookingUp c rest tally) →
      Change allowed ⟨s, .idle⟩ ⟨s.setStage r.id .running, .resolving r⟩
  | countLookups {s : Site} {r : Resolution} (c : Candidate) :
      Change allowed ⟨s, .resolving r⟩ ⟨s.countLookups r.endpoint c, .resolving r⟩
  | await {s : Site} {r now : Resolution} {c : Candidate} {rest : List Candidate} {tally : Tally} :
      s.hasToWait r.endpoint c = true → s.resolution? r.id = some now → now.aborted = false →
      Change allowed ⟨s, .resolving r⟩ ⟨s.await r.id c rest tally, .idle⟩
  | drop {s : Site} {r now : Resolution} : s.resolution? r.id = some now → now.aborted = true →
      Change allowed ⟨s, .resolving r⟩ ⟨s.discard now, .idle⟩
  | complete {s : Site} {r : Resolution} (outcome : Outcome) :
      Change allowed ⟨s, .resolving r⟩ ⟨s.complete r outcome, .idle⟩
  -- Imports.
  | subscribe {s : Site} {r : Resolution} (c : Candidate) :
      (s.adapter? c.adapter).isSome = true →
      Change allowed ⟨s, .resolving r⟩
        ⟨(s.subscribe c.adapter (.importer c.id)).2.log (.opened c),
          .importing r c (s.subscribe c.adapter (.importer c.id)).1⟩
  | prepare {s : Site} {r : Resolution} {c : Candidate} {x : Option Subscription}
      {reference : Reference} {registration : Registration} :
      s.ledger.check ⟨c.id, r.endpoint.id⟩ reference.id = .ok () →
      s.prepareProxy r.endpoint c reference = .ok registration →
      Change allowed ⟨s, .importing r c x⟩
        ⟨{ s.log (.proxied c reference) with
            space := { s.space with interruptions := s.space.interruptions.tail } },
          .registering r c x reference registration⟩
  | refuse {s : Site} {r : Resolution} {c : Candidate} {x : Option Subscription}
      {reference : Reference} {registration : Registration} {reason : String} :
      s.space.failRegister = some reason →
      Change allowed ⟨s, .registering r c x reference registration⟩
        ⟨s.log (.called (.registerFailed registration.interfaces)), .importing r c x⟩
  | fault {s : Site} {r : Resolution} {c : Candidate} {x : Option Subscription}
      {reference : Reference} {registration : Registration} {fault : Fault} :
      s.space.failRegister = none → s.space.store.register registration = .error fault →
      Change allowed ⟨s, .registering r c x reference registration⟩ ⟨s, .importing r c x⟩
  | register {s : Site} {r : Resolution} {c : Candidate} {x : Option Subscription}
      {reference : Reference} {registration : Registration} {h : Handle} {store : ServiceSpace} :
      s.space.failRegister = none → s.space.store.register registration = .ok (h, store) →
      Change allowed ⟨s, .registering r c x reference registration⟩
        ⟨(s.recordRegistered r c x reference registration.properties h store).site,
          .importing r c
            (s.recordRegistered r c x reference registration.properties h store).subscription⟩
  | unsubscribe {s : Site} {r : Resolution} {c : Candidate} {x : Option Subscription} :
      Change allowed ⟨s, .importing r c x⟩ ⟨s.cancel x, .resolving r⟩
  -- The turn of a feed.
  | read {s : Site} {i : Nat} {f : Feed} {h : Hub Notification} : s.feeds[i]? = some f →
      f.finished = false → f.aborted = false → s.hubs[f.hub]? = some h →
      Change allowed ⟨s, .idle⟩ ⟨s.updateHub f.hub (·.moveTo f.reader h.published), .feeding i⟩
  | notify {s : Site} {i : Nat} (news : Notification) :
      Change allowed ⟨s, .feeding i⟩ ⟨s.notify news, .feeding i⟩
  | rest {s : Site} {i : Nat} :
      Change allowed ⟨s, .feeding i⟩ ⟨{ s with idleFeeds := s.idleFeeds ++ [i] }, .idle⟩
  | finish {s : Site} {i : Nat} (f : Feed) :
      Change allowed ⟨s, .feeding i⟩ ⟨s.endFeed i f, .idle⟩
  | abandon {s : Site} {i : Nat} {f : Feed} : s.feeds[i]? = some f → f.finished = false →
      f.aborted = true →
      Change allowed ⟨s, .idle⟩ ⟨s.endFeed i f, .idle⟩

/-- Changes one after another. -/
abbrev Changes (allowed : Command → Prop) : Moment → Moment → Prop :=
  Relation.ReflTransGen (Change allowed)

end Site

end ServiceImport

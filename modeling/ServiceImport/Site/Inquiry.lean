import ServiceImport.Site.Build
import ServiceImport.Site.Run

/-! # Asking a site

Look-ups beside the importer, and a site in words.
-/

namespace ServiceImport.Site

/-- Looks an interface up on an adapter. If its gate is closed, jobs run first; `none` if it is
closed then. -/
def references (key interface : String) (target : Option ContainerId) (filter : Option String)
    (s : Site) : Option (Except Fault (List Reference)) × Site :=
  let isClosed (s : Site) : Bool := (s.adapter? key).any (·.isClosed)
  let s := s.updateAdapter key (·.countLookups 1)
  let s := if isClosed s then s.run else s
  if isClosed s then (none, s)
  else (((s.adapter? key).map fun a => a.lookup target interface filter), s)

/-- Looks up the references of an endpoint through a candidate. If its gate is closed, jobs run
first; `none` if it is closed then. -/
def lookUpOrWait (e : Endpoint) (c : Candidate) (s : Site) :
    Option (List (String × List Reference)) × Site :=
  let s := s.countLookups e c
  let s := if s.hasToWait e c then s.run else s
  if s.hasToWait e c then (none, s)
  else
    let (found, s) := s.lookUp e c
    (some found, s)

/-- Lets an observer listen on an adapter for a moment, and tells its subscription in words. -/
def trySubscription (key label : String) (s : Site) : String × Site :=
  let (subscription, s) := s.subscribe key (.recorder label)
  ((subscription.map (·.describe)).getD "", s.cancel subscription)

def describe (s : Site) : String :=
  Text.braced "BridgeCoordinator"
    [("config", s.settings.describe), ("ledger", s.ledger.describe),
     ("locations", toString s.locations.size)] true

/-- An importer to be built with so many finders, in words. -/
def describePlan (settings : Settings) (finders : Nat) : String :=
  Text.braced "BridgeCoordinatorBuilder"
    [("config", settings.describe), ("strategies", toString finders)] true

end ServiceImport.Site

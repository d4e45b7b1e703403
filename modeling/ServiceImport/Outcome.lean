/-! # How resolutions end and where endpoints stand -/

namespace ServiceImport

inductive Outcome where
  | registered (count : Nat)
  | noContainers
  | noReferences
  /-- There were references, but none was registered; the ledger refused so many. -/
  | nothingRegistered (rejected : Nat)
  deriving DecidableEq

def Outcome.render : Outcome → String
  | registered count => "registered " ++ toString count ++ " proxies"
  | noContainers => "no containers"
  | noReferences => "no remote references"
  | nothingRegistered rejected => "nothing registered (" ++ toString rejected ++ " rejected)"

/-- What a resolution has come to so far. -/
structure Tally where
  registered : Nat := 0
  rejected : Nat := 0
  anyReferences : Bool := false
  deriving DecidableEq

/-- The outcome of a resolution that has asked all its containers. -/
def Tally.outcome (t : Tally) : Outcome :=
  if t.registered > 0 then .registered t.registered
  else if !t.anyReferences then .noReferences
  else .nothingRegistered t.rejected

/-- Where an endpoint stands. -/
inductive Standing where
  /-- Its location is free. -/
  | unseen
  /-- A resolution is in flight. -/
  | pending
  /-- It has a record. -/
  | registered
  /-- Its location is taken, and that is all. -/
  | retained
  deriving DecidableEq

def Standing.render : Standing → String
  | unseen => "Unseen"
  | pending => "PendingResolution"
  | registered => "Registered"
  | retained => "Retained"

end ServiceImport

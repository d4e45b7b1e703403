import ServiceImport.Reference

/-! # The ledger

The ledger tells which references are registered locally, and under which handles, for which
endpoint and through which container. An endpoint has records under one container at most, and a
record owns the subscription that hears of removals.
-/

namespace ServiceImport

/-- A listener's place on an adapter. -/
structure Subscription where
  adapter : String
  id : Nat
  deriving DecidableEq

def Subscription.describe (s : Subscription) : String :=
  Text.applied "Subscription" (toString s.id)

/-- What a record is filed under. -/
structure RecordKey where
  container : ContainerId
  endpointId : String
  deriving DecidableEq

/-- The registrations of one endpoint through one container. -/
structure Record where
  key : RecordKey
  endpoint : Endpoint
  mappings : List (Reference × Handle)
  subscription : Option Subscription
  deriving DecidableEq

namespace Record

def maps (r : Record) (reference : Nat) : Bool := r.mappings.any (·.1.id == reference)

/-- The handles of a record, in the order of their registration. -/
def handles (r : Record) : List Handle := r.mappings.map (·.2)

def handlesOf (r : Record) (reference : Nat) : List Handle :=
  (r.mappings.filter (·.1.id == reference)).map (·.2)

def without (r : Record) (reference : Nat) : Record :=
  { r with mappings := r.mappings.filter (·.1.id != reference) }

/-- Whether a record is filed before another: by container, then by endpoint. -/
def before (a b : Record) : Bool :=
  ((a.key.container.compare b.key.container).then
    (compareOfLessAndEq a.key.endpointId b.key.endpointId)).isLE

end Record

inductive Rejection where
  /-- Another container has a record for the endpoint. -/
  | boundElsewhere (endpointId : String) (container : ContainerId)
  | duplicateReference (endpointId : String) (reference : Nat)
  deriving DecidableEq

def Rejection.message : Rejection → String
  | boundElsewhere endpointId container =>
    "endpoint " ++ endpointId ++ " is already registered through container " ++ container.render
  | duplicateReference endpointId reference =>
    "reference " ++ renderReferenceId reference ++ " is already registered for endpoint " ++ endpointId

/-- How a registration was taken. -/
inductive Admission where
  /-- It made a record, which took the subscription. -/
  | created
  /-- It joined a record; the subscription stays with the caller. -/
  | joined
  deriving DecidableEq

/-- The ledger: its records, in the order in which they are visited. -/
structure Ledger where
  records : List Record := []

/-- What a removal took out of the ledger: the handles to tear down, and the records that it
emptied. -/
structure Withdrawal where
  handles : List Handle
  disposed : List Record

namespace Ledger

/-! ## Reading -/

/-- The records in the order of their keys. -/
def snapshot (l : Ledger) : List Record := l.records.mergeSort Record.before

def contains (l : Ledger) (endpointId : String) : Bool :=
  l.records.any (·.key.endpointId == endpointId)

def size (l : Ledger) : Nat := l.records.length

def describe (l : Ledger) : String :=
  Text.braced "RegistrationLedger" [("records", toString l.size)] false

/-- What a record has against a registration. -/
def objection (key : RecordKey) (reference : Nat) (r : Record) : Option Rejection :=
  if r.key.endpointId ≠ key.endpointId then none
  else if r.key.container ≠ key.container then
    some (.boundElsewhere key.endpointId r.key.container)
  else if r.maps reference then some (.duplicateReference key.endpointId reference)
  else none

/-- Whether a registration would be taken: the first record that has something against it
decides. -/
def check (l : Ledger) (key : RecordKey) (reference : Nat) : Except Rejection Unit :=
  match l.records.findSome? (objection key reference) with
  | some rejection => .error rejection
  | none => .ok ()

theorem objection_eq_none_iff {key : RecordKey} {reference : Nat} {r : Record} :
    objection key reference r = none ↔
      (r.key.endpointId = key.endpointId →
        r.key.container = key.container ∧ r.maps reference = false) := by
  unfold objection
  split
  · next h => simp [h]
  · next h =>
    split
    · next hc => simp_all
    · next hc =>
      cases hm : r.maps reference <;> simp_all

theorem check_eq_ok_iff {l : Ledger} {key : RecordKey} {reference : Nat} :
    l.check key reference = .ok () ↔
      ∀ r ∈ l.records, r.key.endpointId = key.endpointId →
        r.key.container = key.container ∧ r.maps reference = false := by
  simp only [← objection_eq_none_iff, ← List.findSome?_eq_none_iff]
  unfold check
  split <;> simp_all

/-! ## Writing -/

/-- Appends a mapping to the record of a key. -/
def join (l : Ledger) (key : RecordKey) (mapping : Reference × Handle) : Ledger where
  records := l.records.map fun r =>
    if r.key = key then { r with mappings := r.mappings ++ [mapping] } else r

/-- Registers a reference under a handle. A record made for it takes the subscription. -/
def register (l : Ledger) (endpoint : Endpoint) (container : ContainerId) (reference : Reference)
    (handle : Handle) (subscription : Option Subscription) :
    Except Rejection (Admission × Ledger) :=
  let key : RecordKey := ⟨container, endpoint.id⟩
  match l.check key reference.id with
  | .error rejection => .error rejection
  | .ok () =>
    if l.records.any (·.key == key) then .ok (.joined, l.join key (reference, handle))
    else
      let record : Record := { key, endpoint, mappings := [(reference, handle)], subscription }
      .ok (.created, { records := l.records ++ [record] })

/-- Registers a reference, with the subscription of the caller. It tells the verdict, and the ledger
and the subscription that the caller has then: none if a record took it. -/
def enroll (l : Ledger) (e : Endpoint) (c : ContainerId) (r : Reference) (a : Handle)
    (x : Option Subscription) : Except Rejection Admission × Ledger × Option Subscription :=
  match l.register e c r a x with
  | .error rejection => (.error rejection, l, x)
  | .ok (.created, l') => (.ok .created, l', none)
  | .ok (.joined, l') => (.ok .joined, l', x)

/-- Removes the records of an endpoint, and tells them. -/
def withdrawEndpoint (l : Ledger) (endpointId : String) : List Record × Ledger :=
  (l.records.filter (·.key.endpointId == endpointId),
   { records := l.records.filter (·.key.endpointId != endpointId) })

theorem mem_withdrawEndpoint {l : Ledger} {endpointId : String} {r : Record} :
    r ∈ (l.withdrawEndpoint endpointId).2.records ↔
      r ∈ l.records ∧ r.key.endpointId ≠ endpointId := by
  simp [withdrawEndpoint]

@[simp] theorem contains_withdrawEndpoint (l : Ledger) (endpointId : String) :
    (l.withdrawEndpoint endpointId).2.contains endpointId = false := by
  simp [withdrawEndpoint, contains]

/-- Whether losing a reference of a container leaves a record empty. -/
def emptiedBy (container : ContainerId) (reference : Nat) (r : Record) : Bool :=
  r.key.container == container && r.maps reference && (r.without reference).mappings.isEmpty

/-- Removes the mappings of one reference of a container, and the records that this empties. -/
def withdrawReference (l : Ledger) (container : ContainerId) (reference : Nat) :
    Withdrawal × Ledger :=
  let touched := l.records.filter (·.key.container == container)
  ({ handles := touched.flatMap (·.handlesOf reference)
     disposed := l.records.filter (emptiedBy container reference) },
   { records := (l.records.filter (!emptiedBy container reference ·)).map fun r =>
       if r.key.container = container then r.without reference else r })

/-- Removes every record, and tells them. -/
def clear (l : Ledger) : List Record × Ledger := (l.records, {})

end Ledger

end ServiceImport

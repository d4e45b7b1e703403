import ServiceImport.Reference

/-! # The local service space

Registrations by handle, and beside them a table of what is imported from elsewhere.
-/

namespace ServiceImport

/-- What is registered: the interfaces, the properties, and the reference that the proxy stands
for. -/
structure Registration where
  interfaces : List String
  properties : Properties
  proxied : Reference

def Registration.describe (interfaces : List String) (properties : Properties) : String :=
  Text.braced "ProxyRegistration"
    [("interfaces", Text.bracketed (interfaces.map Text.quote)),
     ("properties", properties.describe)] true

structure ServiceSpace where
  /-- Live registrations by id, in the order of their ids. -/
  entries : List (Nat × Registration) := []
  /-- The references behind imported registrations, in the order of the ids. -/
  imports : List (Nat × Reference) := []
  issued : Nat := 0

namespace ServiceSpace

/-! ## Reading -/

/-- The handle of an entry. -/
def handleOf (entry : Nat × Registration) : Handle := ⟨entry.1, entry.2.interfaces⟩

def handles (s : ServiceSpace) : List Handle := s.entries.map handleOf

def size (s : ServiceSpace) : Nat := s.entries.length

def get? (s : ServiceSpace) (id : Nat) : Option Registration :=
  (s.entries.find? (·.1 == id)).map (·.2)

def contains (s : ServiceSpace) (id : Nat) : Bool := s.entries.any (·.1 == id)

/-- The handles of the registrations under an interface. -/
def find (s : ServiceSpace) (interface : String) : List Handle :=
  (s.entries.filter (·.2.interfaces.contains interface)).map handleOf

/-- The references behind imported registrations. -/
def importedServices (s : ServiceSpace) : List Reference := s.imports.map (·.2)

/-! ## Writing -/

/-- Registers under a new id. A registration needs an interface. -/
def register (s : ServiceSpace) (r : Registration) : Except Fault (Handle × ServiceSpace) :=
  if r.interfaces.isEmpty then .error (.serviceSpace "no interfaces to register under")
  else
    let id := s.issued + 1
    .ok (⟨id, r.interfaces⟩, { s with entries := s.entries ++ [(id, r)], issued := id })

def unregister (s : ServiceSpace) (id : Nat) : Except Fault ServiceSpace :=
  if s.contains id then .ok { s with entries := s.entries.filter (·.1 != id) }
  else .error (.alreadyUnregistered id)

/-- Puts a reference under an id, in order, in place of the one before. -/
def putImport (id : Nat) (reference : Reference) : List (Nat × Reference) → List (Nat × Reference)
  | [] => [(id, reference)]
  | e :: rest =>
    if id < e.1 then (id, reference) :: e :: rest
    else if id = e.1 then (id, reference) :: rest
    else e :: putImport id reference rest

/-- Notes the reference behind a registration. -/
def imported (s : ServiceSpace) (id : Nat) (reference : Reference) : ServiceSpace :=
  { s with imports := putImport id reference s.imports }

def withdrawn (s : ServiceSpace) (id : Nat) : ServiceSpace :=
  { s with imports := s.imports.filter (·.1 != id) }

/-! ## What the operations do to the registrations -/

theorem contains_iff {s : ServiceSpace} {id : Nat} :
    s.contains id = true ↔ id ∈ s.entries.map (·.1) := by
  simp [contains]

theorem register_eq_ok_iff {s t : ServiceSpace} {r : Registration} {h : Handle} :
    s.register r = .ok (h, t) ↔
      r.interfaces ≠ [] ∧ h = ⟨s.issued + 1, r.interfaces⟩ ∧
        t = { s with entries := s.entries ++ [(s.issued + 1, r)], issued := s.issued + 1 } := by
  unfold register
  split
  · next he => simp [List.isEmpty_iff.1 he]
  · next he => simp [List.isEmpty_iff] at he; simp [he, eq_comm]

theorem unregister_eq_ok_iff {s t : ServiceSpace} {id : Nat} :
    s.unregister id = .ok t ↔
      s.contains id = true ∧ t = { s with entries := s.entries.filter (·.1 != id) } := by
  unfold unregister
  split
  · next h => simp [h, eq_comm]
  · next h => simp [h]

end ServiceSpace

end ServiceImport

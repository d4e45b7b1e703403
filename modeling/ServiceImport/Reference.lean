import ServiceImport.Endpoint

/-! # References, handles and removals -/

namespace ServiceImport

/-- A remote service as a container tells of it. -/
structure Reference where
  id : Nat
  container : ContainerId
  properties : Properties := .empty
  deriving DecidableEq

def renderReferenceId (id : Nat) : String := "ref#" ++ toString id

namespace Reference

/-- The interfaces that the remote service is registered under. -/
def classes (r : Reference) : List String := r.properties.strings Key.objectClass

/-- Two references are to one service when their ids and containers are equal. -/
def same (a b : Reference) : Bool := a.id == b.id && a.container == b.container

def render (r : Reference) : String := r.container.render ++ "/" ++ renderReferenceId r.id

end Reference

/-- What the local service space gives for a registration. -/
structure Handle where
  id : Nat
  interfaces : List String
  deriving DecidableEq

def Handle.render (h : Handle) : String := "registration#" ++ toString h.id

/-- The news that a remote service is gone: the container that saw it, the one that hosted it if
known, and the reference. -/
structure Removal where
  seenBy : ContainerId
  host : Option ContainerId := none
  reference : Reference
  deriving DecidableEq

end ServiceImport

import ServiceImport.Endpoint

/-! # Settings -/

namespace ServiceImport

/-- The keys of a remote service that its proxy does not take over unless settings say otherwise. -/
def defaultReserved : List String :=
  [Key.serviceId, Key.objectClass, Key.endpointId, Key.endpointInterface, Key.endpointLocation,
   Key.serviceInterfaces, Key.serviceInterfacesVersion, Key.serviceProperties]

structure Settings where
  /-- How many resolutions run at a time. -/
  limit : Nat := 8
  /-- Keys that a proxy does not take over. -/
  reserved : List String := defaultReserved
  /-- Whether a location may be accepted again once removals have emptied its record. -/
  releaseOnRemoval : Bool := false
  /-- How many notifications a hub holds for a slow reader. -/
  hubCapacity : Nat := 128
  deriving DecidableEq

namespace Settings

/-- The settings with another limit; zero counts as one. -/
def withLimit (s : Settings) (n : Nat) : Settings := { s with limit := max n 1 }

/-- The settings with another capacity; zero counts as one. -/
def withHubCapacity (s : Settings) (n : Nat) : Settings := { s with hubCapacity := max n 1 }

def isReserved (s : Settings) (key : String) : Bool := s.reserved.contains key

def describe (s : Settings) : String :=
  Text.braced "BridgeConfig"
    [("max_concurrent_resolutions", toString s.limit),
     ("reserved_properties", Text.bracketed (s.reserved.map Text.quote)),
     ("release_on_transport_removal", flagText s.releaseOnRemoval),
     ("hub_capacity", toString s.hubCapacity)] false

end Settings

end ServiceImport

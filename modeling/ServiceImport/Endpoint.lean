import ServiceImport.ContainerId
import ServiceImport.Fault
import ServiceImport.Properties

/-! # Endpoints

The description of a remote service as discovery tells it.
-/

namespace ServiceImport

/-! ## Well-known keys -/

namespace Key

def endpointId : String := "endpoint.id"
def endpointLocation : String := "endpoint.location"
def endpointInterface : String := "endpoint.interface"
def serviceInterfaces : String := "service.interfaces"
def serviceInterfacesVersion : String := "service.interfaces.version"
def serviceProperties : String := "service.properties"
def containerId : String := "endpoint.container.id"
def containerNamespace : String := "endpoint.container.namespace"
def remoteFilter : String := "endpoint.remote.filter"
def objectClass : String := "objectClass"
def serviceId : String := "service.id"
def serviceImported : String := "service.imported"
def serviceImportedConfigs : String := "service.imported.configs"

end Key

/-! ## Descriptions -/

/-- The description of a remote service. -/
structure Endpoint where
  id : String
  location : Location
  interfaces : List String := []
  filter : Option String := none
  target : Option ContainerId := none
  properties : Properties := .empty
  deriving DecidableEq

namespace Endpoint

/-- The description with an interface more, unless it has it. -/
def addInterface (e : Endpoint) (name : String) : Endpoint :=
  if name ∈ e.interfaces then e else { e with interfaces := e.interfaces ++ [name] }

def addInterfaces (e : Endpoint) (names : List String) : Endpoint := names.foldl addInterface e

def addProperty (e : Endpoint) (key : String) (value : Value) : Endpoint :=
  { e with properties := e.properties.insert key value }

/-- The namespace of the containers that reach the endpoint: the one it names, else that of its
target. -/
def connectNamespace? (e : Endpoint) : Option String :=
  e.properties.text? Key.containerNamespace <|> e.target.map (·.ns)

/-- Two descriptions are of one endpoint when their ids are equal. -/
def same (a b : Endpoint) : Bool := a.id == b.id

def render (e : Endpoint) : String := e.id ++ "@" ++ e.location.text

/-- The text under a key that a description must have. -/
def required (p : Properties) (key : String) : Except Fault String :=
  match p.text? key with
  | some s => .ok s
  | none => .error (.missingProperty key)

/-- The target that the properties name, if they name one. -/
def targetOf (p : Properties) : Except Fault (Option ContainerId) :=
  match p.text? Key.containerId with
  | none => .ok none
  | some raw =>
    match ContainerId.parse? raw with
    | some id => .ok (some id)
    | none => .error (.adaptation ("malformed container id `" ++ raw ++ "`"))

/-- The interfaces that the properties list, else the classes of the service. -/
def interfacesOf (p : Properties) : List String :=
  let listed := p.strings Key.serviceInterfaces
  if listed.isEmpty then p.strings Key.objectClass else listed

/-- The description that properties make; all of them stay with it. -/
def ofProperties (p : Properties) : Except Fault Endpoint := do
  let id ← required p Key.endpointId
  let address ← required p Key.endpointLocation
  let location ← Location.read address
  let target ← targetOf p
  return { addInterfaces { id, location } (interfacesOf p) with
    filter := p.text? Key.remoteFilter, target, properties := p }

end Endpoint

end ServiceImport

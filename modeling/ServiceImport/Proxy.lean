import ServiceImport.Reference
import ServiceImport.Settings

/-! # Containers and the properties of proxies -/

namespace ServiceImport

/-- A container that this side connects through. -/
structure Container where
  key : String
  id : ContainerId
  /-- The namespace that it connects with. -/
  connectNamespace : Option String
  /-- Whether it reaches remote services. -/
  hasAdapter : Bool
  deriving DecidableEq

/-- A container and the adapter to use for it, named by the container whose it is. -/
structure Candidate where
  container : Container
  adapter : String
  deriving DecidableEq

namespace Candidate

/-- A container with its own adapter, if it has one. -/
def ofContainer? (c : Container) : Option Candidate := if c.hasAdapter then some ⟨c, c.key⟩ else none

def id (c : Candidate) : ContainerId := c.container.id

/-- The configuration that an import through the container is marked with. -/
def configuration (c : Candidate) : String := c.container.connectNamespace.getD c.id.ns

def describe (c : Candidate) : String :=
  let optional (s : Option String) : String := match s with
    | some s => Text.applied "Some" (Text.quote s)
    | none => "None"
  Text.braced "ResolvedContainer"
    [("id", Text.braced "ContainerId"
        [("namespace", Text.quote c.id.ns), ("name", Text.quote c.id.name)] false),
     ("namespace", optional c.container.connectNamespace)] false

end Candidate

/-- The properties of the proxy for a reference: those of the reference that are not reserved, and
the marks of the import. -/
def proxyProperties (settings : Settings) (endpoint : Endpoint) (candidate : Candidate)
    (reference : Reference) : Properties :=
  (((reference.properties.filterKeys (!settings.isReserved ·)).insert
    Key.serviceImported (.flag true)).insert
    Key.endpointId (.text endpoint.id)).insert
    Key.serviceImportedConfigs (.list [candidate.configuration])

end ServiceImport

import ServiceImport.Site.State

/-! # Finding containers -/

namespace ServiceImport.Site

/-- How many ways of finding containers there are. -/
def finderCount (s : Site) : Nat := s.finders.length + (if s.managed then 1 else 0)

/-- The containers of the registry that connect with the namespace of an endpoint. -/
def findByNamespace (e : Endpoint) (s : Site) : List Candidate × Site :=
  match e.connectNamespace? with
  | none => ([], s)
  | some ns =>
    if s.registry.isEmpty then ([], s.report .emptyRegistry)
    else
      ((s.registry.filter (·.connectNamespace == some ns)).filterMap Candidate.ofContainer?, s)

/-- The containers of the registry for an endpoint, if the registry is asked. -/
def findManaged (e : Endpoint) (s : Site) : List Candidate × Site :=
  if s.managed then s.findByNamespace e else ([], s)

/-- The containers to ask for an endpoint: those of the finders in order, then those of the
registry. -/
def findContainers (e : Endpoint) (s : Site) : List Candidate × Site :=
  if s.finderCount = 0 then ([], s.report (.noFinders e.id))
  else
    let (managed, s) := s.findManaged e
    let found := s.finders.flatten ++ managed
    (found, if found.length > 1 then s.report (.manyContainers e.id found.length) else s)

end ServiceImport.Site

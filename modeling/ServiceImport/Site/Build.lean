import ServiceImport.Site.Finding

/-! # Building sites -/

namespace ServiceImport

structure Installation where
  container : Container
  backend : Option Backend := none
  /-- Whether the registry has it. -/
  listed : Bool := true

namespace Installation

/-- A container whose services are held in memory. -/
def memory (key : String) (id : ContainerId) (connectNamespace : Option String) : Installation where
  container := { key, id, connectNamespace := some (connectNamespace.getD id.ns), hasAdapter := true }
  backend := some (.memory {})

/-- A container that reaches no remote services. -/
def bare (key : String) (id : ContainerId) (connectNamespace : Option String) : Installation where
  container := { key, id, connectNamespace := some (connectNamespace.getD id.ns), hasAdapter := false }

/-- A container that answers from a script. -/
def scripted (key : String) (id : ContainerId) (connectNamespace : Option String) :
    Installation where
  container := { key, id, connectNamespace, hasAdapter := true }
  backend := some (.scripted {})

end Installation

/-- How to name a candidate: a container with its own adapter, or with that of another. -/
inductive CandidateName where
  | own (container : String)
  | pair (container adapter : String)

/-- What a site is built from. -/
structure Blueprint where
  settings : Settings := {}
  adaptation : Adaptation := .standard
  installations : List Installation := []
  finders : List (List CandidateName) := []
  managed : Bool := true
  /-- Whether there is something to run jobs on. -/
  hasRuntime : Bool := true
  /-- Whether the service space keeps no table of imports. -/
  plainSpace : Bool := false

namespace Site

def container? (s : Site) (key : String) : Option Container := s.containers.find? (·.key == key)

/-- The candidate of a name, if its adapter is there. -/
def candidate? (s : Site) : CandidateName → Option Candidate
  | .own key => (s.container? key).bind Candidate.ofContainer?
  | .pair key adapter =>
    (s.container? key).bind fun c => (s.adapter? adapter).map fun _ => ⟨c, adapter⟩

def install (s : Site) (i : Installation) : Site :=
  { s with
    containers := s.containers ++ [i.container]
    adapters := s.adapters ++ (i.backend.map fun b =>
      (i.container.key, ({ owner := i.container.id, backend := b } : Adapter))).toList
    registry :=
      if i.listed then s.registry.filter (·.id != i.container.id) ++ [i.container] else s.registry }

/-- Builds a site. Without anything to run jobs on there is none. -/
def build (b : Blueprint) : Except Fault Site :=
  if !b.hasRuntime then .error .noRuntime
  else
    let empty : Site :=
      { settings := b.settings, adaptation := b.adaptation, managed := b.managed
        space := { plain := b.plainSpace }, limiter := { free := max b.settings.limit 1 } }
    let s := b.installations.foldl install empty
    let s : Site := { s with finders := b.finders.map (·.filterMap s.candidate?) }
    .ok (if s.finderCount = 0 then s.report .builtWithoutFinders else s)

end Site

end ServiceImport

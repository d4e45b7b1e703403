/-! # Container identities -/

namespace ServiceImport

/-- The identity of a container: a namespace and a name in it. -/
structure ContainerId where
  ns : String
  name : String
  deriving DecidableEq

namespace ContainerId

def render (id : ContainerId) : String := id.ns ++ ":" ++ id.name

/-- Reads an identity: the namespace ends at the first colon, and neither part is empty. -/
def parse? (text : String) : Option ContainerId :=
  let ns := text.toList.takeWhile (· != ':')
  match text.toList.dropWhile (· != ':') with
  | [] => none
  | _ :: name =>
    if ns.isEmpty || name.isEmpty then none
    else some ⟨String.ofList ns, String.ofList name⟩

/-- Orders identities by namespace and then by name. -/
def compare (a b : ContainerId) : Ordering :=
  (compareOfLessAndEq a.ns b.ns).then (compareOfLessAndEq a.name b.name)

end ContainerId

end ServiceImport

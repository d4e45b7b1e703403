/-! # Limits, counters and accepted locations

The three small tables that an importer keeps beside its ledger.
-/

namespace ServiceImport

/-! ## Permits -/

/-- A number of permits, and who waits for one, first come first served. -/
structure Limiter where
  free : Nat
  waiting : List Nat := []

namespace Limiter

/-- Takes a permit if one is free; otherwise waits. -/
def acquire (l : Limiter) (n : Nat) : Bool × Limiter :=
  if l.free = 0 then (false, { l with waiting := l.waiting ++ [n] })
  else (true, { l with free := l.free - 1 })

/-- Gives a permit back: to the one who waits longest, or to all. -/
def release (l : Limiter) : Option Nat × Limiter :=
  match l.waiting with
  | [] => (none, { l with free := l.free + 1 })
  | n :: rest => (some n, { l with waiting := rest })

/-- Waits no more. -/
def leave (l : Limiter) (n : Nat) : Limiter := { l with waiting := l.waiting.filter (· != n) }

end Limiter

/-! ## Counters -/

/-- How many resolutions are in flight, by endpoint; zero has no entry. -/
structure Pending where
  counts : List (String × Nat) := []

namespace Pending

def count (p : Pending) (id : String) : Nat := (p.counts.lookup id).getD 0

def contains (p : Pending) (id : String) : Bool := p.counts.any (·.1 == id)

def isEmpty (p : Pending) : Bool := p.counts.isEmpty

def enter (p : Pending) (id : String) : Pending where
  counts :=
    if p.contains id then p.counts.map fun e => if e.1 = id then (id, e.2 + 1) else e
    else p.counts ++ [(id, 1)]

def leave (p : Pending) (id : String) : Pending where
  counts := (p.counts.map fun e => if e.1 = id then (id, e.2 - 1) else e).filter (·.2 != 0)

end Pending

end ServiceImport

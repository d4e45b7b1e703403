import ServiceImport.Location.Parser

/-! # Accepted locations -/

namespace ServiceImport

/-- The locations that were accepted and not released since. -/
structure Locations where
  accepted : List Location := []

namespace Locations

def contains (s : Locations) (l : Location) : Bool := s.accepted.contains l

def size (s : Locations) : Nat := s.accepted.length

/-- Accepts a location, and tells whether it was not accepted before. -/
def accept (s : Locations) (l : Location) : Bool × Locations :=
  if s.contains l then (false, s) else (true, { accepted := s.accepted ++ [l] })

/-- Releases a location, and tells whether it was accepted. -/
def release (s : Locations) (l : Location) : Bool × Locations :=
  (s.contains l, { accepted := s.accepted.filter (· != l) })

theorem contains_iff {s : Locations} {l : Location} : s.contains l = true ↔ l ∈ s.accepted := by
  simp [contains]

@[simp] theorem mem_accept {s : Locations} {l m : Location} :
    m ∈ (s.accept l).2.accepted ↔ m ∈ s.accepted ∨ m = l := by
  unfold accept
  split
  · next h =>
    have := contains_iff.1 h
    constructor
    · exact Or.inl
    · rintro (h | rfl)
      · exact h
      · exact this
  · simp

@[simp] theorem mem_release {s : Locations} {l m : Location} :
    m ∈ (s.release l).2.accepted ↔ m ∈ s.accepted ∧ m ≠ l := by
  simp [release]

theorem contains_release (s : Locations) (l m : Location) :
    (s.release l).2.contains m = (s.contains m && !(l == m)) := by
  rw [Bool.eq_iff_iff, contains_iff, mem_release, Bool.and_eq_true, contains_iff,
    Bool.not_eq_true', beq_eq_false_iff_ne, ne_comm]

end Locations

end ServiceImport

import Mathlib.Data.List.Perm.Basic
import ServiceImport.Proofs.Ledger.WellFormed

/-! # Handles in the ledger

A registration adds its mapping to those that the ledger has, and a removal gives away the mappings
that are in it no more. No mapping comes or goes otherwise, and so no handle does.
-/

namespace ServiceImport

theorem flatMap_filter_of_nil {α β : Type} {p : α → Bool} {f : α → List β} {l : List α}
    (nil : ∀ a ∈ l, p a = false → f a = []) : (l.filter p).flatMap f = l.flatMap f := by
  induction l with
  | nil => rfl
  | cons a l ih =>
    have ih := ih fun b hb => nil b (List.mem_cons_of_mem a hb)
    cases keeps : p a with
    | true => rw [List.filter_cons_of_pos keeps, List.flatMap_cons, List.flatMap_cons, ih]
    | false =>
      rw [List.filter_cons_of_neg (by simp [keeps]), List.flatMap_cons,
        nil a List.mem_cons_self keeps, List.nil_append, ih]

namespace Ledger

def mappings (l : Ledger) : List (Reference × Handle) := l.records.flatMap (·.mappings)

def handles (l : Ledger) : List Handle := l.records.flatMap (·.handles)

theorem handles_flatMap (records : List Record) :
    records.flatMap (·.handles) = (records.flatMap (·.mappings)).map (·.2) := by
  rw [List.map_flatMap]
  rfl

theorem handles_eq (l : Ledger) : l.handles = l.mappings.map (·.2) := handles_flatMap l.records

/-- The mappings of a reference through a container. -/
def mappingsOf (l : Ledger) (c : ContainerId) (reference : Nat) : List (Reference × Handle) :=
  (l.records.filter (·.key.container == c)).flatMap (·.mappings.filter (·.1.id == reference))

variable {l l' : Ledger}

/-! ## Registering -/

theorem map_join_eq_self {records : List Record} {key : RecordKey} {mapping : Reference × Handle}
    (h : ∀ r ∈ records, r.key ≠ key) :
    (records.map fun r =>
        if r.key = key then { r with mappings := r.mappings ++ [mapping] } else r) =
      records := by
  refine Eq.trans (List.map_congr_left ?_) (List.map_id records)
  intro r hr
  exact if_neg (h r hr)

theorem mappings_join {key : RecordKey} {mapping : Reference × Handle} (wf : l.WellFormed)
    (h : ∃ r ∈ l.records, r.key = key) :
    (l.join key mapping).mappings.Perm (mapping :: l.mappings) := by
  have nodup := wf.endpoints_nodup
  unfold mappings join
  simp only
  generalize l.records = records at h nodup
  induction records with
  | nil => simp at h
  | cons m records ih =>
    rw [List.map_cons, List.nodup_cons] at nodup
    rw [List.map_cons, List.flatMap_cons, List.flatMap_cons]
    by_cases hm : m.key = key
    · have others : ∀ r ∈ records, r.key ≠ key := by
        intro r hr hk
        apply nodup.1
        rw [hm, ← hk]
        exact List.mem_map_of_mem hr
      rw [if_pos hm, map_join_eq_self others]
      dsimp only
      rw [List.append_assoc]
      exact List.perm_middle
    · have there : ∃ r ∈ records, r.key = key := by
        obtain ⟨r, hr, hk⟩ := h
        rcases List.mem_cons.1 hr with rfl | hr
        · exact absurd hk hm
        · exact ⟨r, hr, hk⟩
      rw [if_neg hm]
      exact ((ih there nodup.2).append_left _).trans List.perm_middle

theorem mappings_register (wf : l.WellFormed) {e : Endpoint} {c : ContainerId} {r : Reference}
    {h : Handle} {x : Option Subscription} {a : Admission}
    (ok : l.register e c r h x = .ok (a, l')) : l'.mappings.Perm ((r, h) :: l.mappings) := by
  obtain ⟨_, ⟨_, there, rfl⟩ | ⟨_, _, rfl⟩⟩ := register_ok ok
  · exact mappings_join wf there
  · unfold mappings
    simp only [List.flatMap_append, List.flatMap_singleton]
    exact List.perm_append_singleton _ _

theorem handles_register (wf : l.WellFormed) {e : Endpoint} {c : ContainerId} {r : Reference}
    {h : Handle} {x : Option Subscription} {a : Admission}
    (ok : l.register e c r h x = .ok (a, l')) : l'.handles.Perm (h :: l.handles) := by
  rw [handles_eq, handles_eq]
  exact (mappings_register wf ok).map (·.2)

/-! ## Removing -/

theorem perm_of_given {α : Type} {given held old new : List α} (h : old.Perm (given ++ new)) :
    (given ++ held ++ new).Perm (held ++ old) := by
  refine (List.perm_append_comm.append_right new).trans ?_
  rw [List.append_assoc]
  exact h.symm.append_left held

theorem subperm_of_given {α : Type} {given held old new : List α} (h : old.Perm (given ++ new)) :
    (held ++ new).Subperm (held ++ old) :=
  (List.subperm_append_left held).2 ((List.sublist_append_right given new).subperm.trans
    h.symm.subperm)

theorem mappings_withdrawEndpoint (l : Ledger) (endpointId : String) :
    l.mappings.Perm ((l.withdrawEndpoint endpointId).1.flatMap (·.mappings) ++
      (l.withdrawEndpoint endpointId).2.mappings) := by
  unfold mappings withdrawEndpoint
  rw [← List.flatMap_append]
  exact (List.filter_append_perm (·.key.endpointId == endpointId) l.records).symm.flatMap_right _

theorem mappings_without (r : Record) (reference : Nat) :
    r.mappings.Perm (r.mappings.filter (·.1.id == reference) ++ (r.without reference).mappings) :=
  (List.filter_append_perm (·.1.id == reference) r.mappings).symm

/-- A record that loses its last mapping gives away all of its mappings. -/
theorem mappings_of_emptiedBy {c : ContainerId} {reference : Nat} {r : Record}
    (h : emptiedBy c reference r = true) :
    r.key.container = c ∧ r.mappings.Perm (r.mappings.filter (·.1.id == reference)) := by
  simp only [emptiedBy, Bool.and_eq_true, beq_iff_eq, List.isEmpty_iff] at h
  obtain ⟨⟨hc, _⟩, hnil⟩ := h
  refine ⟨hc, ?_⟩
  have := mappings_without r reference
  rwa [hnil, List.append_nil] at this

theorem mappings_withdrawReference (l : Ledger) (c : ContainerId) (reference : Nat) :
    l.mappings.Perm (l.mappingsOf c reference ++ (l.withdrawReference c reference).2.mappings) := by
  unfold mappings mappingsOf withdrawReference
  simp only
  induction l.records with
  | nil => simp
  | cons r records ih =>
    rw [List.flatMap_cons]
    by_cases he : emptiedBy c reference r = true
    · obtain ⟨hc, mappings⟩ := mappings_of_emptiedBy he
      rw [List.filter_cons_of_pos (by simpa using hc), List.filter_cons_of_neg (by simpa using he),
        List.flatMap_cons, List.append_assoc]
      exact mappings.append ih
    · have kept : List.filter (!emptiedBy c reference ·) (r :: records) =
          r :: records.filter (!emptiedBy c reference ·) :=
        List.filter_cons_of_pos (by simpa using he)
      rw [kept, List.map_cons]
      by_cases hc : r.key.container = c
      · rw [List.filter_cons_of_pos (by simpa using hc), if_pos hc, List.flatMap_cons,
          List.flatMap_cons]
        refine ((mappings_without r reference).append ih).trans ?_
        simp only [List.append_assoc]
        exact (List.perm_append_comm_assoc _ _ _).append_left _
      · rw [List.filter_cons_of_neg (by simpa using hc), if_neg hc, List.flatMap_cons]
        exact (ih.append_left _).trans (List.perm_append_comm_assoc _ _ _)

theorem handles_mappingsOf (l : Ledger) (c : ContainerId) (reference : Nat) :
    (l.withdrawReference c reference).1.handles = (l.mappingsOf c reference).map (·.2) := by
  unfold mappingsOf
  rw [List.map_flatMap]
  rfl

theorem disposed_eq_nil {c : ContainerId} {reference : Nat}
    (none : (l.withdrawReference c reference).1.handles = []) :
    (l.withdrawReference c reference).1.disposed = [] := by
  rw [List.eq_nil_iff_forall_not_mem]
  intro q hq
  obtain ⟨there, gone⟩ := List.mem_filter.1 hq
  simp only [emptiedBy, Bool.and_eq_true, Record.maps, List.any_eq_true] at gone
  obtain ⟨⟨here, m, hm, same⟩, _⟩ := gone
  have given : m.2 ∈ (l.withdrawReference c reference).1.handles :=
    List.mem_flatMap.2 ⟨q, List.mem_filter.2 ⟨there, here⟩,
      List.mem_map_of_mem (List.mem_filter.2 ⟨hm, same⟩)⟩
  rw [none] at given
  cases given

end Ledger

end ServiceImport

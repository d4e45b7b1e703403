import Mathlib.Data.List.Induction
import ServiceImport.Proofs.Ledger.Admission

/-! # Conservation of handles

A handle that a ledger took is in it or was given back, as often as it was taken. A registration
brings its handle in, a removal gives back the handles that go, and nothing else moves any. The
removal of a reference tells of the records that it disposed and of no others, and where it gives
nothing back it disposed none.
-/

namespace ServiceImport

/-- The descriptions of the endpoints whose records a removal emptied. -/
def Withdrawal.emptied (w : Withdrawal) : List Endpoint := w.disposed.map (·.endpoint)

namespace Ledger

open scoped List

variable {l : Ledger} {operations : List Operation} {admitted returned : List Handle}

/-! ## What operations take and give back -/

/-- The handle that an operation asks the ledger to take, if the ledger takes it. -/
def admits (l : Ledger) : Operation → List Handle
  | .register e c r h x =>
    match l.register e c r h x with
    | .ok _ => [h]
    | .error _ => []
  | .check .. | .withdrawEndpoint _ | .withdrawReference .. => []

/-- The handles that an operation gives back, to be torn down. -/
def returns (l : Ledger) : Operation → List Handle
  | .register .. | .check .. => []
  | .withdrawEndpoint e => (l.withdrawEndpoint e.id).1.flatMap (·.handles)
  | .withdrawReference c reference => (l.withdrawReference c reference).1.handles

theorem handles_withdrawEndpoint (l : Ledger) (endpointId : String) :
    l.handles.Perm ((l.withdrawEndpoint endpointId).1.flatMap (·.handles) ++
      (l.withdrawEndpoint endpointId).2.handles) := by
  rw [handles_eq, handles_eq, handles_flatMap, ← List.map_append]
  exact (mappings_withdrawEndpoint l endpointId).map (·.2)

theorem handles_withdrawReference (l : Ledger) (c : ContainerId) (reference : Nat) :
    l.handles.Perm ((l.withdrawReference c reference).1.handles ++
      (l.withdrawReference c reference).2.handles) := by
  rw [handles_eq, handles_eq, handles_mappingsOf, ← List.map_append]
  exact (mappings_withdrawReference l c reference).map (·.2)

/-- An operation loses no handle and makes none. -/
theorem WellFormed.handles_apply (wf : l.WellFormed) (operation : Operation) :
    (l.handles ++ l.admits operation).Perm
      ((l.apply operation).handles ++ l.returns operation) := by
  cases operation with
  | register e c r h x =>
    unfold admits returns Ledger.apply
    dsimp only
    cases ok : l.register e c r h x with
    | error rejection => exact .refl _
    | ok taken =>
      rw [List.append_nil]
      exact (List.perm_append_singleton _ _).trans (handles_register wf ok).symm
  | check => exact .refl _
  | withdrawEndpoint e =>
    rw [admits, List.append_nil]
    exact (handles_withdrawEndpoint l e.id).trans List.perm_append_comm
  | withdrawReference c reference =>
    rw [admits, List.append_nil]
    exact (handles_withdrawReference l c reference).trans List.perm_append_comm

/-! ## Whole histories -/

/-- Operations from the empty ledger on, when the records come to be visited in another order at any
time: the operations, the ledger that they leave, the handles that it took and those that it gave
back. -/
inductive History : List Operation → Ledger → List Handle → List Handle → Prop
  | empty : History [] {} [] []
  | apply {operations : List Operation} {l : Ledger} {admitted returned : List Handle}
      (operation : Operation) : History operations l admitted returned →
      History (operations ++ [operation]) (l.apply operation) (admitted ++ l.admits operation)
        (returned ++ l.returns operation)
  | reorder {operations : List Operation} {l l' : Ledger} {admitted returned : List Handle} :
      History operations l admitted returned → l'.records.Perm l.records →
      History operations l' admitted returned

theorem after_concat (operations : List Operation) (operation : Operation) :
    after (operations ++ [operation]) = (after operations).apply operation := by
  unfold after
  rw [List.foldl_concat]

theorem exists_history (operations : List Operation) :
    ∃ admitted returned, History operations (after operations) admitted returned := by
  induction operations using List.reverseRecOn with
  | nil => exact ⟨[], [], .empty⟩
  | append_singleton operations operation ih =>
    obtain ⟨admitted, returned, history⟩ := ih
    rw [after_concat]
    exact ⟨_, _, history.apply operation⟩

theorem History.wellFormed (history : History operations l admitted returned) : l.WellFormed := by
  induction history with
  | empty => exact .empty
  | apply operation _ ih => exact ih.apply operation
  | reorder _ perm ih => exact ih.reorder perm

theorem History.conserves (history : History operations l admitted returned) :
    admitted ~ l.handles ++ returned := by
  induction history with
  | empty => exact .refl _
  | @apply operations l admitted returned operation history ih =>
    -- What was given back before stays aside while the operation moves handles in and out.
    calc admitted ++ l.admits operation
      _ ~ l.handles ++ returned ++ l.admits operation := ih.append_right _
      _ ~ l.handles ++ l.admits operation ++ returned := by
          rw [List.append_assoc, List.append_assoc]
          exact List.perm_append_comm.append_left _
      _ ~ (l.apply operation).handles ++ l.returns operation ++ returned :=
          (history.wellFormed.handles_apply operation).append_right _
      _ ~ (l.apply operation).handles ++ (returned ++ l.returns operation) := by
          rw [List.append_assoc]
          exact List.perm_append_comm.append_left _
  | reorder _ perm ih => exact ih.trans ((perm.flatMap_right _).symm.append_right _)

/-! ## What a removal disposes -/

theorem keys_withdrawReference (l : Ledger) (c : ContainerId) (reference : Nat) :
    (l.withdrawReference c reference).2.records.map (·.key) =
      (l.records.filter (!emptiedBy c reference ·)).map (·.key) := by
  unfold withdrawReference
  dsimp only
  rw [List.map_map]
  apply List.map_congr_left
  intro q _
  dsimp only [Function.comp]
  split <;> rfl

theorem WellFormed.disposed_eq (wf : l.WellFormed) (c : ContainerId) (reference : Nat) :
    (l.withdrawReference c reference).1.disposed =
      l.records.filter fun q => q.key ∉ (l.withdrawReference c reference).2.records.map (·.key) := by
  rw [keys_withdrawReference]
  apply List.filter_congr
  intro q hq
  rw [Bool.eq_iff_iff, decide_eq_true_iff, List.mem_map]
  constructor
  · rintro gone ⟨o, ho, same⟩
    obtain ⟨there, kept⟩ := List.mem_filter.1 ho
    have : o = q := List.inj_on_of_nodup_map wf.endpoints_nodup there hq
      (congrArg RecordKey.endpointId same)
    subst this
    simp [gone] at kept
  · intro absent
    by_contra kept
    exact absent ⟨q, List.mem_filter.2 ⟨hq, by simpa using kept⟩, rfl⟩

/-! ## Every history -/

/-- Whatever the operations were, and in whatever order the records were visited: the handles that
the ledger took are those that it has and those that it gave back. The removal of a reference tells
exactly the descriptions of the records that are there no more, and none when it gives nothing
back. -/
theorem handles_conserved (operations : List Operation) :
    (∃ admitted returned, History operations (after operations) admitted returned) ∧
    ∀ l admitted returned, History operations l admitted returned →
      admitted.Perm (l.handles ++ returned) ∧
      ∀ (c : ContainerId) (reference : Nat),
        let removal := (l.withdrawReference c reference).1
        let l' := (l.withdrawReference c reference).2
        removal.emptied =
          (l.records.filter fun q => q.key ∉ l'.records.map (·.key)).map (·.endpoint) ∧
        (removal.handles = [] → removal.emptied = []) := by
  refine ⟨exists_history operations, fun l admitted returned history => ⟨history.conserves, ?_⟩⟩
  intro c reference removal l'
  constructor
  · exact congrArg (List.map (·.endpoint)) (history.wellFormed.disposed_eq c reference)
  · intro none
    exact congrArg (List.map (·.endpoint)) (disposed_eq_nil none)

/-- The lamp and the door are recorded for one service, the lamp for another one too, and a second
record of the first is refused. Then the first service is removed. -/
def lampAndDoorOperations : List Operation :=
  let home : ContainerId := ⟨"home", "lamps"⟩
  let door : Endpoint := { Site.lampEndpoint with id := "door" }
  [.register Site.lampEndpoint home ⟨1, home, .empty⟩ ⟨1, ["Lamp"]⟩ none,
   .register door home ⟨1, home, .empty⟩ ⟨2, ["Lamp"]⟩ none,
   .register Site.lampEndpoint home ⟨2, home, .empty⟩ ⟨3, ["Lamp"]⟩ none,
   .register Site.lampEndpoint home ⟨1, home, .empty⟩ ⟨4, ["Lamp"]⟩ none,
   .withdrawReference home 1]

/-- The ledger took three handles and gave two back. To remove the service again gives nothing back
and disposes nothing, and to remove the other one disposes the lamp's record. -/
theorem handles_conserved_lampAndDoor :
    let l := after lampAndDoorOperations
    let admitted : List Handle := [⟨1, ["Lamp"]⟩, ⟨2, ["Lamp"]⟩, ⟨3, ["Lamp"]⟩]
    let returned : List Handle := [⟨1, ["Lamp"]⟩, ⟨2, ["Lamp"]⟩]
    History lampAndDoorOperations l admitted returned ∧ admitted ~ l.handles ++ returned ∧
      (l.withdrawReference ⟨"home", "lamps"⟩ 1).1.handles = [] ∧
      (l.withdrawReference ⟨"home", "lamps"⟩ 1).1.emptied = [] ∧
      (l.withdrawReference ⟨"home", "lamps"⟩ 2).1.emptied = [Site.lampEndpoint] := by
  intro l admitted returned
  have history : History lampAndDoorOperations l admitted returned :=
    History.empty.apply _ |>.apply _ |>.apply _ |>.apply _ |>.apply _
  obtain ⟨conserved, removals⟩ := (handles_conserved lampAndDoorOperations).2 l admitted returned
    history
  have nothing : (l.withdrawReference ⟨"home", "lamps"⟩ 1).1.handles = [] := rfl
  exact ⟨history, conserved, nothing, (removals ⟨"home", "lamps"⟩ 1).2 nothing,
    (removals ⟨"home", "lamps"⟩ 2).1⟩

end Ledger

end ServiceImport

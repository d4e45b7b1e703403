import ServiceImport.Proofs.Ledger.Handles
import ServiceImport.Proofs.Site.Frames

/-! # Admission to the ledger

A ledger takes a registration or refuses it, and its answer is the same in whatever order it visits
its records: one record at most is about the endpoint. What is refused leaves everything as it was.
What is taken adds one mapping, and the subscription of the caller goes to the ledger when a record
is made for it.
-/

namespace ServiceImport

namespace Ledger

variable {l l' m : Ledger} {e : Endpoint} {c : ContainerId} {r : Reference} {a : Handle}
  {x : Option Subscription} {key : RecordKey} {reference : Nat}

/-! ## Ledgers in any order -/

/-- The ledgers that operations make, from the empty one, when the records come to be visited in
another order at any time. -/
inductive Arises : Ledger → Prop
  | empty : Arises {}
  | apply {l : Ledger} (operation : Operation) : Arises l → Arises (l.apply operation)
  | reorder {l l' : Ledger} : Arises l → l'.records.Perm l.records → Arises l'

theorem WellFormed.reorder (wf : l.WellFormed) (perm : l'.records.Perm l.records) :
    l'.WellFormed where
  endpoints_nodup := (perm.map _).nodup_iff.2 wf.endpoints_nodup
  mapped q hq := wf.mapped q (perm.mem_iff.1 hq)
  references_nodup q hq := wf.references_nodup q (perm.mem_iff.1 hq)
  filed q hq := wf.filed q (perm.mem_iff.1 hq)

theorem Arises.wellFormed (h : Arises l) : l.WellFormed := by
  induction h with
  | empty => exact .empty
  | apply operation _ ih => exact ih.apply operation
  | reorder _ perm ih => exact ih.reorder perm

/-! ## The verdict -/

theorem endpointId_of_objection {q : Record} {rejection : Rejection}
    (objects : objection key reference q = some rejection) :
    q.key.endpointId = key.endpointId := by
  unfold objection at objects
  split at objects
  · cases objects
  · next same => exact not_not.1 same

theorem objection_eq_boundElsewhere_iff {q : Record} {holder : ContainerId} :
    objection key reference q = some (.boundElsewhere key.endpointId holder) ↔
      holder ≠ key.container ∧ q.key = ⟨holder, key.endpointId⟩ := by
  obtain ⟨⟨container, endpointId⟩, endpoint, mappings, subscription⟩ := q
  unfold objection
  dsimp only
  split
  · next other => simp [other]
  · next same =>
    split
    · next elsewhere =>
      simp only [Option.some.injEq, Rejection.boundElsewhere.injEq, true_and, RecordKey.mk.injEq]
      constructor
      · rintro rfl
        exact ⟨elsewhere, rfl, not_not.1 same⟩
      · exact fun held => held.2.1
    · next here =>
      have nowhere : ¬ (holder ≠ key.container ∧
          (⟨container, endpointId⟩ : RecordKey) = ⟨holder, key.endpointId⟩) := by
        rintro ⟨elsewhere, held⟩
        exact here fun same => elsewhere ((RecordKey.mk.inj held).1.symm.trans same)
      split
      · exact iff_of_false (by simp) nowhere
      · exact iff_of_false nofun nowhere

theorem objection_eq_duplicateReference_iff {q : Record} :
    objection key reference q = some (.duplicateReference key.endpointId reference) ↔
      q.key = key ∧ q.maps reference = true := by
  unfold objection
  split
  · next other =>
    exact iff_of_false nofun fun held => other (congrArg RecordKey.endpointId held.1)
  · next same =>
    split
    · next elsewhere =>
      exact iff_of_false (by simp) fun held => elsewhere (congrArg RecordKey.container held.1)
    · next here =>
      have filed : q.key = key := congrArg₂ RecordKey.mk (not_not.1 here) (not_not.1 same)
      cases q.maps reference <;> simp [filed]

/-- The scan ends at the only record that has something against a registration. -/
theorem WellFormed.check_eq_error_iff (wf : l.WellFormed) {rejection : Rejection} :
    l.check key reference = .error rejection ↔
      ∃ q ∈ l.records, objection key reference q = some rejection := by
  have scanned : l.check key reference = .error rejection ↔
      l.records.findSome? (objection key reference) = some rejection := by
    unfold check
    split
    · next found => simp [found]
    · next none => simp [none]
  rw [scanned]
  refine ⟨List.exists_of_findSome?_eq_some, ?_⟩
  rintro ⟨q, hq, objects⟩
  cases found : l.records.findSome? (objection key reference) with
  | none => exact absurd (List.findSome?_eq_none_iff.1 found q hq) (by rw [objects]; nofun)
  | some other =>
    obtain ⟨p, hp, first⟩ := List.exists_of_findSome?_eq_some found
    have same : p = q := List.inj_on_of_nodup_map wf.endpoints_nodup hp hq
      ((endpointId_of_objection first).trans (endpointId_of_objection objects).symm)
    rw [← first, same, objects]

theorem WellFormed.check_reorder (wf : l.WellFormed) (perm : m.records.Perm l.records) :
    m.check key reference = l.check key reference := by
  cases answer : l.check key reference with
  | error rejection =>
    obtain ⟨q, hq, objects⟩ := wf.check_eq_error_iff.1 answer
    exact (wf.reorder perm).check_eq_error_iff.2 ⟨q, perm.mem_iff.2 hq, objects⟩
  | ok _ =>
    refine check_eq_ok_iff.2 fun q hq => ?_
    exact check_eq_ok_iff.1 answer q (perm.mem_iff.1 hq)

/-! ## Registering with a subscription -/

theorem recordProxy_eq_enroll (candidate : Candidate) (i : Site.Importing) :
    (Site.recordProxy e candidate r a i).site.ledger =
        (i.site.ledger.enroll e candidate.id r a i.subscription).2.1 ∧
      (Site.recordProxy e candidate r a i).subscription =
        (i.site.ledger.enroll e candidate.id r a i.subscription).2.2 := by
  unfold Site.recordProxy
  cases i.site.ledger.enroll e candidate.id r a i.subscription with
  | mk verdict rest =>
    cases verdict with
    | ok admission => exact ⟨rfl, rfl⟩
    | error rejection =>
      obtain ⟨fault, reports, _, torn⟩ :=
        Site.tearDownOne_eq (Site.report (.raceLost candidate.id r rejection)
          { i.site with ledger := rest.1 }) a
      exact ⟨congrArg Site.ledger torn, rfl⟩

/-- What is refused changes nothing. What is taken joins the record of its key, or makes one. -/
theorem enroll_eq : l.enroll e c r a x =
    match l.check ⟨c, e.id⟩ r.id with
    | .error rejection => (.error rejection, l, x)
    | .ok _ =>
      if l.records.any (·.key == ⟨c, e.id⟩) then (.ok .joined, l.join ⟨c, e.id⟩ (r, a), x)
      else
        (.ok .created,
          { records := l.records ++ [{ key := ⟨c, e.id⟩, endpoint := e, mappings := [(r, a)],
                                       subscription := x }] }, none) := by
  unfold enroll register
  dsimp only
  cases l.check ⟨c, e.id⟩ r.id with
  | error rejection => rfl
  | ok _ =>
    dsimp only
    split
    · next taken =>
      split at taken <;> cases taken
    · next taken =>
      split at taken
      · cases taken
      · next new =>
        cases taken
        rw [if_neg new]
    · next taken =>
      split at taken
      · next there =>
        cases taken
        rw [if_pos there]
      · cases taken

/-- All that enrolling can come to. -/
theorem enroll_outcomes (l : Ledger) (e : Endpoint) (c : ContainerId) (r : Reference) (a : Handle)
    (x : Option Subscription) :
    (∃ rejection, l.check ⟨c, e.id⟩ r.id = .error rejection ∧
        l.enroll e c r a x = (.error rejection, l, x)) ∨
      (l.check ⟨c, e.id⟩ r.id = .ok () ∧ (∃ q ∈ l.records, q.key = ⟨c, e.id⟩) ∧
        l.enroll e c r a x = (.ok .joined, l.join ⟨c, e.id⟩ (r, a), x)) ∨
      (l.check ⟨c, e.id⟩ r.id = .ok () ∧ (∀ q ∈ l.records, q.key.endpointId ≠ e.id) ∧
        l.enroll e c r a x = (.ok .created,
          { records := l.records ++ [{ key := ⟨c, e.id⟩, endpoint := e, mappings := [(r, a)],
                                       subscription := x }] }, none)) := by
  rw [enroll_eq]
  cases answer : l.check ⟨c, e.id⟩ r.id with
  | error rejection => exact .inl ⟨rejection, rfl, rfl⟩
  | ok _ =>
    have free := check_eq_ok_iff.1 answer
    refine .inr ?_
    dsimp only
    split
    · next there =>
      obtain ⟨q, hq, same⟩ := List.any_eq_true.1 there
      exact .inl ⟨rfl, ⟨q, hq, beq_iff_eq.1 same⟩, rfl⟩
    · next new =>
      refine .inr ⟨rfl, fun q hq same => new (List.any_eq_true.2 ⟨q, hq, beq_iff_eq.2 ?_⟩), rfl⟩
      exact congrArg₂ RecordKey.mk (free q hq same).1 same

theorem check_eq_enroll :
    l.check ⟨c, e.id⟩ r.id = (l.enroll e c r a x).1.map fun _ => () := by
  obtain ⟨rejection, answer, told⟩ | ⟨answer, _, told⟩ | ⟨answer, _, told⟩ :=
    enroll_outcomes l e c r a x
  all_goals
    rw [answer, told]
    rfl

theorem enroll_eq_error_iff {rejection : Rejection} :
    (l.enroll e c r a x).1 = .error rejection ↔ l.check ⟨c, e.id⟩ r.id = .error rejection := by
  rw [check_eq_enroll (a := a) (x := x)]
  cases (l.enroll e c r a x).1 <;> simp [Except.map]

theorem enroll_eq_created_iff :
    (l.enroll e c r a x).1 = .ok .created ↔ ∀ q ∈ l.records, q.key.endpointId ≠ e.id := by
  obtain ⟨rejection, answer, told⟩ | ⟨_, ⟨q, hq, filed⟩, told⟩ | ⟨_, none, told⟩ :=
    enroll_outcomes l e c r a x
  · refine iff_of_false (by rw [told]; nofun) fun none => ?_
    have free : l.check ⟨c, e.id⟩ r.id = .ok () :=
      check_eq_ok_iff.2 fun q hq same => absurd same (none q hq)
    rw [answer] at free
    cases free
  · exact iff_of_false (by rw [told]; nofun) fun none =>
      none q hq (congrArg RecordKey.endpointId filed)
  · exact iff_of_true (by rw [told]) none

theorem WellFormed.exists_join (wf : l.WellFormed) {mapping : Reference × Handle}
    (there : ∃ q ∈ l.records, q.key = key) :
    ∃ before q after, l.records = before ++ q :: after ∧ q.key = key ∧
      (l.join key mapping).records =
        before ++ { q with mappings := q.mappings ++ [mapping] } :: after := by
  obtain ⟨q, hq, rfl⟩ := there
  obtain ⟨before, after, split⟩ := List.append_of_mem hq
  refine ⟨before, q, after, split, rfl, ?_⟩
  have nodup := wf.endpoints_nodup
  rw [split, List.map_append, List.map_cons, List.nodup_middle, List.nodup_cons] at nodup
  have others : ∀ p ∈ before ++ after, p.key ≠ q.key := by
    intro p hp same
    refine nodup.1 ?_
    rw [← List.map_append]
    exact List.mem_map.2 ⟨p, hp, congrArg RecordKey.endpointId same⟩
  unfold Ledger.join
  rw [split, List.map_append, List.map_cons, if_pos rfl,
    map_join_eq_self fun p hp => others p (List.mem_append_left _ hp),
    map_join_eq_self fun p hp => others p (List.mem_append_right _ hp)]

theorem WellFormed.enroll_eq_boundElsewhere_iff (wf : l.WellFormed) {holder : ContainerId} :
    (l.enroll e c r a x).1 = .error (.boundElsewhere e.id holder) ↔
      holder ≠ c ∧ ∃ q ∈ l.records, q.key = ⟨holder, e.id⟩ := by
  rw [enroll_eq_error_iff, wf.check_eq_error_iff]
  constructor
  · rintro ⟨q, hq, objects⟩
    obtain ⟨elsewhere, held⟩ := objection_eq_boundElsewhere_iff.1 objects
    exact ⟨elsewhere, q, hq, held⟩
  · rintro ⟨elsewhere, q, hq, held⟩
    exact ⟨q, hq, objection_eq_boundElsewhere_iff.2 ⟨elsewhere, held⟩⟩

theorem WellFormed.enroll_eq_duplicateReference_iff (wf : l.WellFormed) :
    (l.enroll e c r a x).1 = .error (.duplicateReference e.id r.id) ↔
      ∃ q ∈ l.records, q.key = ⟨c, e.id⟩ ∧ q.maps r.id = true := by
  rw [enroll_eq_error_iff, wf.check_eq_error_iff]
  exact exists_congr fun q =>
    and_congr_right fun _ => objection_eq_duplicateReference_iff

theorem enroll_taken_iff :
    (∃ admission, (l.enroll e c r a x).1 = .ok admission) ↔
      ∀ q ∈ l.records, q.key.endpointId = e.id → q.key.container = c ∧ q.maps r.id = false := by
  rw [← @check_eq_ok_iff l ⟨c, e.id⟩ r.id, check_eq_enroll (a := a) (x := x)]
  cases (l.enroll e c r a x).1 with
  | error rejection => exact iff_of_false nofun nofun
  | ok admission => exact iff_of_true ⟨admission, rfl⟩ rfl

theorem enroll_refused {rejection : Rejection}
    (refused : (l.enroll e c r a x).1 = .error rejection) :
    (l.enroll e c r a x).2.1 = l ∧ (l.enroll e c r a x).2.2 = x := by
  obtain ⟨_, _, told⟩ | ⟨_, _, told⟩ | ⟨_, _, told⟩ := enroll_outcomes l e c r a x
  all_goals rw [told] at refused ⊢
  · exact ⟨rfl, rfl⟩
  · cases refused
  · cases refused

theorem enroll_created (made : (l.enroll e c r a x).1 = .ok .created) :
    (l.enroll e c r a x).2.2 = none ∧ (l.enroll e c r a x).2.1.records = l.records ++
      [{ key := ⟨c, e.id⟩, endpoint := e, mappings := [(r, a)], subscription := x }] := by
  obtain ⟨_, _, told⟩ | ⟨_, _, told⟩ | ⟨_, _, told⟩ := enroll_outcomes l e c r a x
  all_goals rw [told] at made ⊢
  · cases made
  · cases made
  · exact ⟨rfl, rfl⟩

theorem WellFormed.enroll_joined (wf : l.WellFormed)
    (joined : (l.enroll e c r a x).1 = .ok .joined) :
    (l.enroll e c r a x).2.2 = x ∧ ∃ before q after, l.records = before ++ q :: after ∧
      q.key = ⟨c, e.id⟩ ∧ (l.enroll e c r a x).2.1.records =
        before ++ { q with mappings := q.mappings ++ [(r, a)] } :: after := by
  obtain ⟨_, _, told⟩ | ⟨_, there, told⟩ | ⟨_, _, told⟩ := enroll_outcomes l e c r a x
  all_goals rw [told] at joined ⊢
  · cases joined
  · exact ⟨rfl, wf.exists_join there⟩
  · cases joined

theorem WellFormed.enroll_reorder (wf : l.WellFormed) (perm : m.records.Perm l.records) :
    (m.enroll e c r a x).1 = (l.enroll e c r a x).1 ∧
      (m.enroll e c r a x).2.1.records.Perm (l.enroll e c r a x).2.1.records ∧
      (m.enroll e c r a x).2.2 = (l.enroll e c r a x).2.2 := by
  rw [enroll_eq, enroll_eq, wf.check_reorder perm, perm.any_eq]
  cases l.check ⟨c, e.id⟩ r.id with
  | error rejection => exact ⟨rfl, perm, rfl⟩
  | ok _ =>
    dsimp only
    split
    · exact ⟨rfl, perm.map _, rfl⟩
    · exact ⟨rfl, perm.append_right _, rfl⟩

/-! ## Every registration -/

/-- A ledger that arose by operations, in whatever order it visits its records, refuses a
registration when another container has a record for the endpoint, or when the record of the
container maps the reference, and takes any other. It answers what a check answers. What is refused
leaves the ledger and the subscription as they were. What is taken makes a record with the
subscription if the endpoint has none, or else adds its mapping at the end of the record that the
endpoint has. This is how imports and others register. -/
theorem enroll_exact (h : Arises l) (e : Endpoint) (c : ContainerId) (r : Reference) (a : Handle)
    (x : Option Subscription) :
    let verdict := (l.enroll e c r a x).1
    let l' := (l.enroll e c r a x).2.1
    let left := (l.enroll e c r a x).2.2
    (l.check ⟨c, e.id⟩ r.id = verdict.map fun _ => ()) ∧
    (∀ holder, verdict = .error (.boundElsewhere e.id holder) ↔
      holder ≠ c ∧ ∃ q ∈ l.records, q.key = ⟨holder, e.id⟩) ∧
    (verdict = .error (.duplicateReference e.id r.id) ↔
      ∃ q ∈ l.records, q.key = ⟨c, e.id⟩ ∧ q.maps r.id = true) ∧
    ((∃ admission, verdict = .ok admission) ↔
      ∀ q ∈ l.records, q.key.endpointId = e.id → q.key.container = c ∧ q.maps r.id = false) ∧
    (verdict = .ok .created ↔ ∀ q ∈ l.records, q.key.endpointId ≠ e.id) ∧
    (∀ rejection, verdict = .error rejection → l' = l ∧ left = x) ∧
    (verdict = .ok .created → left = none ∧ l'.records = l.records ++
      [{ key := ⟨c, e.id⟩, endpoint := e, mappings := [(r, a)], subscription := x }]) ∧
    (verdict = .ok .joined → left = x ∧ ∃ before q after, l.records = before ++ q :: after ∧
      q.key = ⟨c, e.id⟩ ∧
      l'.records = before ++ { q with mappings := q.mappings ++ [(r, a)] } :: after) ∧
    (∀ m : Ledger, m.records.Perm l.records →
      (m.enroll e c r a x).1 = verdict ∧ (m.enroll e c r a x).2.1.records.Perm l'.records ∧
        (m.enroll e c r a x).2.2 = left) ∧
    (∀ (candidate : Candidate) (i : Site.Importing), candidate.id = c → i.site.ledger = l →
      i.subscription = x → (Site.recordProxy e candidate r a i).site.ledger = l' ∧
        (Site.recordProxy e candidate r a i).subscription = left) ∧
    ∀ s : Site, s.ledger = l →
      s.record e c r a x = (verdict, Site.cancel left { s with ledger := l' }) := by
  have wf := h.wellFormed
  intro verdict l' left
  refine ⟨check_eq_enroll, fun holder => wf.enroll_eq_boundElsewhere_iff,
    wf.enroll_eq_duplicateReference_iff, enroll_taken_iff, enroll_eq_created_iff,
    fun _ refused => enroll_refused refused, fun made => enroll_created made,
    fun joined => wf.enroll_joined joined, fun m perm => wf.enroll_reorder perm, ?_, ?_⟩
  · rintro candidate i rfl rfl rfl
    exact recordProxy_eq_enroll candidate i
  · rintro s rfl
    rfl

/-- A ledger with the lamp's record, under a container that told of one service. -/
def lampLedger : Ledger :=
  ({} : Ledger).apply (.register Site.lampEndpoint ⟨"home", "lamps"⟩ ⟨1, ⟨"home", "lamps"⟩, .empty⟩
    ⟨1, ["Lamp"]⟩ (some ⟨"lamps", 1⟩))

/-- Another container is refused, the same one is refused the same service, and another service of
it joins the record. -/
theorem enroll_exact_lampLedger :
    Arises lampLedger ∧
    (∀ r a x, (lampLedger.enroll Site.lampEndpoint ⟨"home", "spare"⟩ r a x).1 =
      .error (.boundElsewhere "lamp" ⟨"home", "lamps"⟩)) ∧
    (∀ a x, (lampLedger.enroll Site.lampEndpoint ⟨"home", "lamps"⟩
      ⟨1, ⟨"home", "lamps"⟩, .empty⟩ a x).1 = .error (.duplicateReference "lamp" 1)) ∧
    ∀ a x, (lampLedger.enroll Site.lampEndpoint ⟨"home", "lamps"⟩
      ⟨2, ⟨"home", "lamps"⟩, .empty⟩ a x).2.2 = x := by
  have arises : Arises lampLedger := .apply _ .empty
  refine ⟨arises, fun r a x => ?_, fun a x => ?_, fun a x => ?_⟩
  · obtain ⟨_, bound, _⟩ := enroll_exact arises Site.lampEndpoint ⟨"home", "spare"⟩ r a x
    exact (bound ⟨"home", "lamps"⟩).2 ⟨by decide, _, List.mem_singleton.2 rfl, rfl⟩
  · obtain ⟨_, _, duplicate, _⟩ := enroll_exact arises Site.lampEndpoint ⟨"home", "lamps"⟩
      ⟨1, ⟨"home", "lamps"⟩, .empty⟩ a x
    exact duplicate.2 ⟨_, List.mem_singleton.2 rfl, rfl, rfl⟩
  · obtain ⟨_, _, _, taken, created, _, _, joined, _⟩ := enroll_exact arises Site.lampEndpoint
      ⟨"home", "lamps"⟩ ⟨2, ⟨"home", "lamps"⟩, .empty⟩ a x
    obtain ⟨admission, told⟩ := taken.2 fun q hq _ => by
      obtain rfl := List.mem_singleton.1 hq
      exact ⟨rfl, rfl⟩
    cases admission with
    | joined => exact (joined told).1
    | created => exact absurd rfl (created.1 told _ (List.mem_singleton.2 rfl))

end Ledger

end ServiceImport

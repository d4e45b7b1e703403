import Mathlib.Data.List.Nodup
import Mathlib.Data.Prod.Lex
import Mathlib.Data.String.Basic
import ServiceImport.Ledger

/-! # Well-formed ledgers

What every ledger satisfies that was made by its operations, whatever they were given: an endpoint
has one record at most, a record maps something and maps each reference once, and the snapshot
lists the records in the order of their keys.
-/

namespace ServiceImport

/-! ## The order of keys -/

/-- By the namespace of the container, then by its name, then by the endpoint. -/
def RecordKey.precedes (a b : RecordKey) : Prop :=
  a.container.ns < b.container.ns ∨
    (a.container.ns = b.container.ns ∧
      (a.container.name < b.container.name ∨
        (a.container.name = b.container.name ∧ a.endpointId < b.endpointId)))

/-- A key as an element of a linear order. -/
def RecordKey.rank (k : RecordKey) : String ×ₗ String ×ₗ String :=
  toLex (k.container.ns, toLex (k.container.name, k.endpointId))

theorem RecordKey.precedes_iff_rank_lt {a b : RecordKey} : a.precedes b ↔ a.rank < b.rank := by
  unfold precedes rank
  rw [Prod.Lex.toLex_lt_toLex, Prod.Lex.toLex_lt_toLex]

theorem RecordKey.rank_injective {a b : RecordKey} (h : a.rank = b.rank) : a = b := by
  obtain ⟨⟨ns, name⟩, endpointId⟩ := a
  obtain ⟨⟨ns', name'⟩, endpointId'⟩ := b
  unfold rank at h
  simp_all

theorem isLE_then_iff (x y : String) (o : Ordering) :
    ((compareOfLessAndEq x y).then o).isLE = true ↔ x < y ∨ (x = y ∧ o.isLE = true) := by
  unfold compareOfLessAndEq
  split
  · next h => simp [h]
  · next h =>
    split
    · next he => simp [he]
    · next he => simp [h, he]

theorem Record.before_iff {a b : Record} : a.before b = true ↔ a.key.rank ≤ b.key.rank := by
  unfold Record.before ContainerId.compare RecordKey.rank
  rw [Ordering.then_assoc, isLE_then_iff, isLE_then_iff, Prod.Lex.toLex_le_toLex,
    Prod.Lex.toLex_le_toLex, ← Ordering.then_eq (o := compareOfLessAndEq _ _), isLE_then_iff]
  simp [le_iff_lt_or_eq]

theorem Record.before_trans {a b c : Record} (hab : a.before b = true) (hbc : b.before c = true) :
    a.before c = true := by
  rw [before_iff] at *
  exact le_trans hab hbc

theorem Record.before_total (a b : Record) : (a.before b || b.before a) = true := by
  rw [Bool.or_eq_true, before_iff, before_iff]
  exact le_total _ _

/-! ## What records keep -/

/-- What a record has from the registration that made it, and keeps as long as it is there. -/
structure RecordIdentity where
  key : RecordKey
  endpoint : Endpoint
  subscription : Option Subscription

def Record.identity (r : Record) : RecordIdentity := ⟨r.key, r.endpoint, r.subscription⟩

theorem Record.key_eq {q o : Record} (same : o.identity = q.identity) : o.key = q.key :=
  congrArg RecordIdentity.key same

theorem Record.endpoint_eq {q o : Record} (same : o.identity = q.identity) :
    o.endpoint = q.endpoint :=
  congrArg RecordIdentity.endpoint same

theorem Record.subscription_eq {q o : Record} (same : o.identity = q.identity) :
    o.subscription = q.subscription :=
  congrArg RecordIdentity.subscription same

namespace Ledger

/-! ## Runs of operations -/

/-- What can be asked of a ledger. -/
inductive Operation where
  | register (endpoint : Endpoint) (container : ContainerId) (reference : Reference)
      (handle : Handle) (subscription : Option Subscription)
  | check (endpoint : Endpoint) (container : ContainerId) (reference : Reference)
  | withdrawEndpoint (endpoint : Endpoint)
  | withdrawReference (container : ContainerId) (reference : Nat)

/-- The ledger that an operation leaves. A refused registration leaves it as it was. -/
def apply (l : Ledger) : Operation → Ledger
  | .register e c r h x =>
    match l.register e c r h x with
    | .ok (_, l') => l'
    | .error _ => l
  | .check .. => l
  | .withdrawEndpoint e => (l.withdrawEndpoint e.id).2
  | .withdrawReference c r => (l.withdrawReference c r).2

/-- The ledger after operations, from the empty one. -/
def after (operations : List Operation) : Ledger := operations.foldl apply {}

/-! ## What registering does -/

/-- A registration that is taken meets no objection. It joins the record of its key, or makes one
where the endpoint has none. -/
theorem register_ok {l l' : Ledger} {e : Endpoint} {c : ContainerId} {r : Reference} {h : Handle}
    {x : Option Subscription} {a : Admission} (ok : l.register e c r h x = .ok (a, l')) :
    (∀ m ∈ l.records, m.key.endpointId = e.id → m.key.container = c ∧ m.maps r.id = false) ∧
      ((a = .joined ∧ (∃ m ∈ l.records, m.key = ⟨c, e.id⟩) ∧ l' = l.join ⟨c, e.id⟩ (r, h)) ∨
        (a = .created ∧ l.contains e.id = false ∧
          l' = { records := l.records ++
            [{ key := ⟨c, e.id⟩, endpoint := e, mappings := [(r, h)], subscription := x }] })) := by
  unfold register at ok
  cases hc : l.check ⟨c, e.id⟩ r.id with
  | error rejection => simp [hc] at ok
  | ok _ =>
    have free := check_eq_ok_iff.1 hc
    refine ⟨free, ?_⟩
    simp only [hc] at ok
    split at ok
    · next hk =>
      simp only [Except.ok.injEq, Prod.mk.injEq] at ok
      simp only [List.any_eq_true, beq_iff_eq] at hk
      exact Or.inl ⟨ok.1.symm, hk, ok.2.symm⟩
    · next hk =>
      simp only [Except.ok.injEq, Prod.mk.injEq] at ok
      refine Or.inr ⟨ok.1.symm, ?_, ok.2.symm⟩
      rw [Bool.eq_false_iff]
      intro hcon
      obtain ⟨m, hm, he⟩ := List.any_eq_true.1 hcon
      have he : m.key.endpointId = e.id := by simpa using he
      apply hk
      rw [List.any_eq_true]
      refine ⟨m, hm, ?_⟩
      rw [beq_iff_eq]
      exact congrArg₂ RecordKey.mk (free m hm he).1 he

theorem enroll_cases (l : Ledger) (e : Endpoint) (c : ContainerId) (r : Reference) (h : Handle)
    (x : Option Subscription) :
    (l.enroll e c r h x).2 = (l, x) ∨
      ∃ a, l.register e c r h x = .ok (a, (l.enroll e c r h x).2.1) := by
  unfold enroll
  cases l.register e c r h x with
  | error rejection => exact .inl rfl
  | ok taken =>
    obtain ⟨admission, ledger⟩ := taken
    cases admission <;> exact .inr ⟨_, rfl⟩

theorem record_of_mem_register {l l' : Ledger} {e : Endpoint} {c : ContainerId} {r : Reference}
    {h : Handle} {x : Option Subscription} {a : Admission}
    (ok : l.register e c r h x = .ok (a, l')) {q : Record} (hq : q ∈ l'.records) :
    (a = .created ∧ q.identity = ⟨⟨c, e.id⟩, e, x⟩) ∨
      ∃ o ∈ l.records, o.identity = q.identity := by
  obtain ⟨_, ⟨_, _, rfl⟩ | ⟨rfl, _, rfl⟩⟩ := register_ok ok
  · simp only [join, List.mem_map] at hq
    obtain ⟨o, ho, rfl⟩ := hq
    refine .inr ⟨o, ho, ?_⟩
    split <;> rfl
  · rcases List.mem_append.1 hq with hq | hq
    · exact .inr ⟨q, hq, rfl⟩
    · rw [List.mem_singleton.1 hq]
      exact .inl ⟨rfl, rfl⟩

theorem key_ne_of_created {l l' : Ledger} {e : Endpoint} {c : ContainerId} {r : Reference}
    {h : Handle} {x : Option Subscription} (ok : l.register e c r h x = .ok (.created, l'))
    {o : Record} (ho : o ∈ l.records) : o.key ≠ ⟨c, e.id⟩ := by
  obtain ⟨_, ⟨joined, _⟩ | ⟨_, none, _⟩⟩ := register_ok ok
  · cases joined
  · unfold contains at none
    rw [List.any_eq_false] at none
    rintro hkey
    exact none o ho (by rw [hkey]; exact beq_self_eq_true _)

theorem mem_register {l l' : Ledger} {e : Endpoint} {c : ContainerId} {r : Reference} {h : Handle}
    {x : Option Subscription} {a : Admission} (ok : l.register e c r h x = .ok (a, l')) {q : Record}
    (hq : q ∈ l'.records) {p : Reference × Handle} (hp : p ∈ q.mappings) :
    (q.key = ⟨c, e.id⟩ ∧ p = (r, h)) ∨
      ∃ o ∈ l.records, o.identity = q.identity ∧ p ∈ o.mappings := by
  obtain ⟨_, ⟨_, _, rfl⟩ | ⟨_, _, rfl⟩⟩ := register_ok ok
  · simp only [join, List.mem_map] at hq
    obtain ⟨o, ho, rfl⟩ := hq
    split at hp
    · next hkey =>
      rw [if_pos hkey]
      rcases List.mem_append.1 hp with hp | hp
      · exact .inr ⟨o, ho, rfl, hp⟩
      · exact .inl ⟨hkey, List.mem_singleton.1 hp⟩
    · next hkey =>
      rw [if_neg hkey]
      exact .inr ⟨o, ho, rfl, hp⟩
  · rcases List.mem_append.1 hq with hq | hq
    · exact .inr ⟨q, hq, rfl, hp⟩
    · rw [List.mem_singleton.1 hq] at hp ⊢
      exact .inl ⟨rfl, List.mem_singleton.1 hp⟩

/-! ## Well-formedness -/

/-- What every operation keeps. -/
structure WellFormed (l : Ledger) : Prop where
  /-- An endpoint has one record at most. -/
  endpoints_nodup : (l.records.map (·.key.endpointId)).Nodup
  mapped : ∀ r ∈ l.records, r.mappings ≠ []
  references_nodup : ∀ r ∈ l.records, (r.mappings.map (·.1.id)).Nodup
  filed : ∀ r ∈ l.records, r.key.endpointId = r.endpoint.id

theorem WellFormed.empty : WellFormed {} := by
  constructor <;> simp

theorem Record.maps_eq_false_iff {r : Record} {reference : Nat} :
    r.maps reference = false ↔ reference ∉ r.mappings.map (·.1.id) := by
  simp [Record.maps]

variable {l l' : Ledger}

theorem WellFormed.join (wf : l.WellFormed) {key : RecordKey} {mapping : Reference × Handle}
    (free : ∀ r ∈ l.records, r.key = key → r.maps mapping.1.id = false) :
    (l.join key mapping).WellFormed := by
  unfold Ledger.join
  constructor
  · have same : ∀ r : Record, (if r.key = key then
        { r with mappings := r.mappings ++ [mapping] } else r).key.endpointId =
          r.key.endpointId := by
      intro r
      split <;> rfl
    simpa [List.map_map, Function.comp_def, same] using wf.endpoints_nodup
  all_goals
    intro r' hr'
    simp only [List.mem_map] at hr'
    obtain ⟨r, hr, rfl⟩ := hr'
    split
  · simp
  · exact wf.mapped r hr
  · next hk =>
    have hfree := Record.maps_eq_false_iff.1 (free r hr hk)
    rw [List.map_append, List.nodup_append]
    refine ⟨wf.references_nodup r hr, by simp, ?_⟩
    intro a ha b hb
    simp only [List.map_cons, List.map_nil, List.mem_singleton] at hb
    rw [hb]
    intro hab
    exact hfree (hab ▸ ha)
  · exact wf.references_nodup r hr
  · exact wf.filed r hr
  · exact wf.filed r hr

theorem WellFormed.register (wf : l.WellFormed) {e : Endpoint} {c : ContainerId} {r : Reference}
    {h : Handle} {x : Option Subscription} {a : Admission}
    (ok : l.register e c r h x = .ok (a, l')) : l'.WellFormed := by
  obtain ⟨free, ⟨_, _, rfl⟩ | ⟨_, hnone, rfl⟩⟩ := register_ok ok
  · apply wf.join
    intro m hm hk
    exact (free m hm (by rw [hk])).2
  · have hnew : ∀ m ∈ l.records, m.key.endpointId ≠ e.id := by
      simpa [contains] using hnone
    constructor
    · rw [List.map_append, List.nodup_append]
      refine ⟨wf.endpoints_nodup, by simp, ?_⟩
      intro id hid id' hid'
      obtain ⟨m, hm, rfl⟩ := List.mem_map.1 hid
      simp only [List.map_cons, List.map_nil, List.mem_singleton] at hid'
      rw [hid']
      exact hnew m hm
    all_goals
      intro m hm
      rw [List.mem_append, List.mem_singleton] at hm
      rcases hm with hm | rfl
    · exact wf.mapped m hm
    · simp
    · exact wf.references_nodup m hm
    · simp
    · exact wf.filed m hm
    · rfl

theorem WellFormed.filter (wf : l.WellFormed) (p : Record → Bool) :
    WellFormed { records := l.records.filter p } where
  endpoints_nodup := wf.endpoints_nodup.sublist (List.filter_sublist.map _)
  mapped r hr := wf.mapped r (List.mem_of_mem_filter hr)
  references_nodup r hr := wf.references_nodup r (List.mem_of_mem_filter hr)
  filed r hr := wf.filed r (List.mem_of_mem_filter hr)

theorem WellFormed.withdrawEndpoint (wf : l.WellFormed) (endpointId : String) :
    (l.withdrawEndpoint endpointId).2.WellFormed := wf.filter _

/-- A record that is left is not empty: those that lose their last mapping go. -/
theorem without_ne_nil {r : Record} (mapped : r.mappings ≠ []) {c : ContainerId} {reference : Nat}
    (kept : emptiedBy c reference r = false) (hc : r.key.container = c) :
    (r.without reference).mappings ≠ [] := by
  intro hnil
  have hmaps : r.maps reference = false := by
    simpa [emptiedBy, hc, hnil] using kept
  apply mapped
  rw [Record.maps_eq_false_iff] at hmaps
  have hall : r.mappings.filter (·.1.id != reference) = r.mappings := by
    rw [List.filter_eq_self]
    intro m hm
    simp only [bne_iff_ne]
    intro he
    exact hmaps (List.mem_map.2 ⟨m, hm, he⟩)
  rw [← hall]
  exact hnil

theorem exists_of_mem_withdrawReference {c : ContainerId} {reference : Nat} {q : Record}
    (hq : q ∈ (l.withdrawReference c reference).2.records) :
    ∃ o ∈ l.records, o.identity = q.identity ∧ q.mappings ⊆ o.mappings := by
  unfold Ledger.withdrawReference at hq
  obtain ⟨o, ho, rfl⟩ := List.mem_map.1 hq
  refine ⟨o, List.mem_of_mem_filter ho, ?_⟩
  split
  · exact ⟨rfl, List.filter_sublist.subset⟩
  · exact ⟨rfl, List.Subset.refl _⟩

theorem maps_of_mem_withdrawReference {c : ContainerId} {reference : Nat} {q : Record}
    (hq : q ∈ (l.withdrawReference c reference).2.records) (hc : q.key.container = c) :
    q.maps reference = false := by
  unfold Ledger.withdrawReference at hq
  obtain ⟨o, _, rfl⟩ := List.mem_map.1 hq
  split at hc
  · next h =>
    rw [if_pos h]
    simp [Record.maps, Record.without]
  · next h => exact absurd hc h

theorem WellFormed.withdrawReference (wf : l.WellFormed) (c : ContainerId) (reference : Nat) :
    (l.withdrawReference c reference).2.WellFormed := by
  have kept := wf.filter (!emptiedBy c reference ·)
  unfold Ledger.withdrawReference
  constructor
  · have same : ∀ r : Record, (if r.key.container = c then r.without reference else
        r).key.endpointId = r.key.endpointId := by
      intro r
      split <;> rfl
    simpa [List.map_map, Function.comp_def, same] using kept.endpoints_nodup
  all_goals
    intro r' hr'
    simp only [List.mem_map] at hr'
    obtain ⟨r, hr, rfl⟩ := hr'
    split
  · next hc =>
    have hkept : emptiedBy c reference r = false := by simpa using (List.mem_filter.1 hr).2
    exact without_ne_nil (kept.mapped r hr) hkept hc
  · exact kept.mapped r hr
  · exact (kept.references_nodup r hr).sublist (List.filter_sublist.map _)
  · exact kept.references_nodup r hr
  · exact kept.filed r hr
  · exact kept.filed r hr

theorem WellFormed.apply (wf : l.WellFormed) (op : Operation) : (l.apply op).WellFormed := by
  cases op with
  | register e c r h x =>
    simp only [Ledger.apply]
    split
    · next ok => exact wf.register ok
    · exact wf
  | check => exact wf
  | withdrawEndpoint e => exact wf.withdrawEndpoint e.id
  | withdrawReference c r => exact wf.withdrawReference c r

theorem wellFormed_after (operations : List Operation) : (after operations).WellFormed := by
  unfold after
  apply List.foldlRecOn operations apply (motive := WellFormed) WellFormed.empty
  intro l wf op _
  exact wf.apply op

/-! ## The snapshot -/

theorem snapshot_perm (l : Ledger) : l.snapshot.Perm l.records := List.mergeSort_perm _ _

theorem WellFormed.snapshot_ascends (wf : l.WellFormed) :
    l.snapshot.Pairwise fun a b => a.key.precedes b.key := by
  have sorted : l.snapshot.Pairwise (fun a b => a.before b = true) :=
    @List.pairwise_mergeSort _ Record.before (fun _ _ _ => Record.before_trans)
      Record.before_total _
  have distinct : l.snapshot.Pairwise fun a b => a.key.endpointId ≠ b.key.endpointId :=
    List.pairwise_map.1 (((snapshot_perm l).map _).nodup_iff.2 wf.endpoints_nodup)
  apply sorted.imp₂ _ distinct
  intro a b hab hne
  rw [RecordKey.precedes_iff_rank_lt]
  apply lt_of_le_of_ne (Record.before_iff.1 hab)
  intro he
  exact hne (congrArg RecordKey.endpointId (RecordKey.rank_injective he))

/-! ## Every ledger -/

/-- Whatever the operations were: one container at most has a record for an endpoint, a record maps
something, maps each reference once and is filed under its own endpoint, and the snapshot lists
each record once, in strictly ascending order. -/
theorem represents_after (operations : List Operation) :
    (∀ a ∈ (after operations).records, ∀ b ∈ (after operations).records,
      a.key.endpointId = b.key.endpointId → a.key.container = b.key.container) ∧
    (∀ r ∈ (after operations).records, r.mappings ≠ [] ∧ (r.mappings.map (·.1.id)).Nodup ∧
      r.key.endpointId = r.endpoint.id) ∧
    (after operations).snapshot.Perm (after operations).records ∧
    (after operations).snapshot.Pairwise fun a b => a.key.precedes b.key := by
  have wf := wellFormed_after operations
  refine ⟨?_, ?_, snapshot_perm _, wf.snapshot_ascends⟩
  · intro a ha b hb he
    rw [List.inj_on_of_nodup_map wf.endpoints_nodup ha hb he]
  · intro r hr
    exact ⟨wf.mapped r hr, wf.references_nodup r hr, wf.filed r hr⟩

end Ledger

end ServiceImport

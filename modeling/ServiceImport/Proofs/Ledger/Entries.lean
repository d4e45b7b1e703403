import Mathlib.Data.List.Perm.Basic
import ServiceImport.Proofs.Ledger.Handles

/-! # Entries of a ledger

The record of an endpoint, apart from the numbers that were given out for it, and what a
registration makes of it. Ledgers with the same entries differ by a renaming of handles.
-/

namespace ServiceImport

/-! ## Records apart from their numbers -/

namespace Record

/-- A record with other numbers for its handles, and none for its subscription. -/
def renumbered (rename : Nat → Nat) (r : Record) : Record :=
  { r with
    mappings := r.mappings.map fun m => (m.1, { m.2 with id := rename m.2.id })
    subscription := r.subscription.map ({ · with id := 0 }) }

/-- A record without the numbers that were given out for it. -/
def unnumbered (r : Record) : Record := r.renumbered fun _ => 0

theorem maps_unnumbered (r : Record) (reference : Nat) :
    r.unnumbered.maps reference = r.maps reference := by
  unfold maps unnumbered renumbered
  dsimp only
  rw [List.any_map]
  rfl

theorem unnumbered_append (r : Record) (mapping : Reference × Handle) :
    ({ r with mappings := r.mappings ++ [mapping] } : Record).unnumbered =
      { r.unnumbered with
        mappings := r.unnumbered.mappings ++ [(mapping.1, { mapping.2 with id := 0 })] } := by
  unfold unnumbered renumbered
  dsimp only
  rw [List.map_append]
  rfl

theorem length_unnumbered (r : Record) : r.unnumbered.handles.length = r.handles.length := by
  simp [handles, unnumbered, renumbered]

theorem renumbered_eq (r : Record) (rename : Nat → Nat) :
    r.renumbered rename =
      { r.unnumbered with
        mappings := List.zipWith (fun m n => (m.1, { m.2 with id := n })) r.unnumbered.mappings
          ((r.handles.map (·.id)).map rename) } := by
  unfold unnumbered renumbered handles
  dsimp only
  rw [List.map_map, List.map_map, List.zipWith_map, List.zipWith_self]
  rfl

end Record

namespace Ledger

variable {l l' : Ledger}

/-- The record of an endpoint, without the numbers in it. -/
def recordOf? (l : Ledger) (endpointId : String) : Option Record :=
  (l.records.find? (·.key.endpointId == endpointId)).map Record.unnumbered

theorem recordOf?_of_mem (wf : l.WellFormed) {q : Record} (hq : q ∈ l.records) :
    l.recordOf? q.key.endpointId = some q.unnumbered := by
  unfold recordOf?
  cases found : l.records.find? (·.key.endpointId == q.key.endpointId) with
  | none =>
    have := List.find?_eq_none.1 found q hq
    simp at this
  | some o =>
    have same : o.key.endpointId = q.key.endpointId := by simpa using List.find?_some found
    rw [List.inj_on_of_nodup_map wf.endpoints_nodup (List.mem_of_find?_eq_some found) hq same]
    rfl

theorem recordOf?_eq_none_iff {endpointId : String} :
    l.recordOf? endpointId = none ↔ ∀ q ∈ l.records, q.key.endpointId ≠ endpointId := by
  simp [recordOf?]

theorem mem_of_recordOf? {endpointId : String} {p : Record} (h : l.recordOf? endpointId = some p) :
    ∃ q ∈ l.records, q.key.endpointId = endpointId ∧ q.unnumbered = p := by
  obtain ⟨q, found, rfl⟩ := Option.map_eq_some_iff.1 h
  exact ⟨q, List.mem_of_find?_eq_some found, by simpa using List.find?_some found, rfl⟩

theorem check_eq_ok_iff_recordOf? (wf : l.WellFormed) {c : ContainerId} {endpointId : String}
    {reference : Nat} :
    l.check ⟨c, endpointId⟩ reference = .ok () ↔
      (l.recordOf? endpointId).any (fun q => q.key.container != c || q.maps reference) = false := by
  rw [check_eq_ok_iff]
  constructor
  · intro free
    cases h : l.recordOf? endpointId with
    | none => rfl
    | some p =>
      obtain ⟨q, hq, hid, rfl⟩ := mem_of_recordOf? h
      obtain ⟨container, maps⟩ := free q hq hid
      rw [Option.any_some, Record.maps_unnumbered, maps, Bool.or_false, bne_eq_false_iff_eq]
      exact container
  · intro free q hq hid
    have entry := recordOf?_of_mem wf hq
    rw [show q.key.endpointId = endpointId from hid] at entry
    rw [entry, Option.any_some, Record.maps_unnumbered, Bool.or_eq_false_iff,
      bne_eq_false_iff_eq] at free
    exact free

theorem recordOf?_register (wf : l.WellFormed) {e : Endpoint} {c : ContainerId} {r : Reference}
    {h : Handle} {x : Option Subscription} {a : Admission}
    (ok : l.register e c r h x = .ok (a, l')) :
    (a = .joined ∧ ∃ q, l.recordOf? e.id = some q ∧ l'.recordOf? e.id =
        some { q with mappings := q.mappings ++ [(r, { h with id := 0 })] }) ∨
      (a = .created ∧ l.recordOf? e.id = none ∧ l'.recordOf? e.id = some
        { key := ⟨c, e.id⟩, endpoint := e, mappings := [(r, { h with id := 0 })]
          subscription := x.map ({ · with id := 0 }) }) := by
  have wf' := wf.register ok
  obtain ⟨_, ⟨rfl, ⟨m, hm, hkey⟩, rfl⟩ | ⟨rfl, none, rfl⟩⟩ := register_ok ok
  · refine .inl ⟨rfl, m.unnumbered, ?_, ?_⟩
    · have := recordOf?_of_mem wf hm
      rwa [hkey] at this
    · have there : { m with mappings := m.mappings ++ [(r, h)] } ∈
          (l.join ⟨c, e.id⟩ (r, h)).records :=
        List.mem_map.2 ⟨m, hm, if_pos hkey⟩
      have := recordOf?_of_mem wf' there
      rw [Record.unnumbered_append, hkey] at this
      exact this
  · refine .inr ⟨rfl, ?_, ?_⟩
    · rw [recordOf?_eq_none_iff]
      intro q hq same
      exact absurd (List.any_eq_false.1 none q hq) (by simp [same])
    · exact recordOf?_of_mem wf' (List.mem_append_right _ List.mem_cons_self)

theorem recordOf?_of_others {id : String}
    (others : l'.records.filter (·.key.endpointId != id) =
      l.records.filter (·.key.endpointId != id)) {other : String} (ne : other ≠ id) :
    l'.recordOf? other = l.recordOf? other := by
  have find : ∀ l : Ledger, l.records.find? (·.key.endpointId == other) =
      (l.records.filter (·.key.endpointId != id)).find? (·.key.endpointId == other) := by
    intro l
    rw [List.find?_filter]
    congr 1
    funext q
    by_cases same : q.key.endpointId = other
    · simp [same, ne]
    · simp [same]
  unfold recordOf?
  rw [find l', others, ← find l]

theorem others_register {e : Endpoint} {c : ContainerId} {r : Reference} {h : Handle}
    {x : Option Subscription} {a : Admission} (ok : l.register e c r h x = .ok (a, l')) :
    l'.records.filter (·.key.endpointId != e.id) =
      l.records.filter (·.key.endpointId != e.id) := by
  obtain ⟨_, ⟨_, _, rfl⟩ | ⟨_, _, rfl⟩⟩ := register_ok ok
  · have other : (fun q : Record => q.key.endpointId != e.id) ∘ (fun q =>
        if q.key = ⟨c, e.id⟩ then { q with mappings := q.mappings ++ [(r, h)] } else q) =
        (·.key.endpointId != e.id) := by
      funext q
      dsimp only [Function.comp]
      split <;> rfl
    unfold join
    dsimp only
    rw [List.filter_map, other]
    refine map_join_eq_self fun q hq same => ?_
    simp [same] at hq
  · simp

theorem perm_recordsOf (wf : l.WellFormed) {ids : List String} (nodup : ids.Nodup) :
    ((l.records.filter fun q => ids.contains q.key.endpointId).map Record.unnumbered).Perm
      (ids.filterMap l.recordOf?) := by
  have keys : l.records.Pairwise fun p q => p.key.endpointId ≠ q.key.endpointId :=
    List.pairwise_map.1 wf.endpoints_nodup
  refine (List.perm_ext_iff_of_nodup ?_ ?_).2 fun p => ?_
  · refine List.pairwise_map.2 ((keys.filter _).imp fun ne same => ne ?_)
    exact congrArg (·.key.endpointId) same
  · refine nodup.filterMap fun id id' p hid hid' => ?_
    obtain ⟨q, _, rfl, hq⟩ := mem_of_recordOf? hid
    obtain ⟨q', _, rfl, hq'⟩ := mem_of_recordOf? hid'
    exact congrArg (·.key.endpointId) (hq.trans hq'.symm)
  · simp only [List.mem_map, List.mem_filter, List.mem_filterMap, List.contains_iff_mem]
    constructor
    · rintro ⟨q, ⟨hq, hid⟩, rfl⟩
      exact ⟨_, hid, recordOf?_of_mem wf hq⟩
    · rintro ⟨id, hid, entry⟩
      obtain ⟨q, hq, rfl, rfl⟩ := mem_of_recordOf? entry
      exact ⟨q, ⟨hq, hid⟩, rfl⟩

/-! ## Renaming handles -/

/-- Numbers that differ from each other become any others. -/
theorem exists_rename {numbers : List Nat} (nodup : numbers.Nodup) {numbers' : List Nat}
    (length : numbers.length = numbers'.length) :
    ∃ rename : Nat → Nat, numbers.map rename = numbers' ∧ ∀ n ∉ numbers, rename n = n := by
  induction numbers generalizing numbers' with
  | nil => exact ⟨id, (List.length_eq_zero_iff.1 length.symm).symm, fun _ _ => rfl⟩
  | cons n numbers ih =>
    obtain ⟨m, numbers', rfl⟩ := List.exists_of_length_succ _ length.symm
    obtain ⟨new, nodup⟩ := List.nodup_cons.1 nodup
    obtain ⟨rename, renamed, others⟩ := ih nodup (Nat.succ.inj length)
    refine ⟨Function.update rename n m, ?_, fun k hk => ?_⟩
    · rw [List.map_cons, Function.update_self, ← renamed]
      refine congrArg (m :: ·) (List.map_congr_left fun k hk => ?_)
      exact Function.update_of_ne (ne_of_mem_of_not_mem hk new) _ _
    · obtain ⟨ne, hk⟩ := not_or.1 (mt List.mem_cons.2 hk)
      rw [Function.update_of_ne ne]
      exact others k hk

/-- Records that differ by their numbers only differ by a renaming of their handles. -/
theorem map_renumbered_of_unnumbered {records records' : List Record}
    (same : records.map Record.unnumbered = records'.map Record.unnumbered) {rename : Nat → Nat}
    (renamed : ((records.flatMap (·.handles)).map (·.id)).map rename =
      (records'.flatMap (·.handles)).map (·.id)) :
    records.map (·.renumbered rename) = records'.map (·.renumbered id) := by
  induction records generalizing records' with
  | nil =>
    obtain rfl : records' = [] := List.map_eq_nil_iff.1 same.symm
    rfl
  | cons q records ih =>
    obtain ⟨p, records', rfl, hp, rest⟩ := List.map_eq_cons_iff.1 same.symm
    have length : q.handles.length = p.handles.length := by
      rw [← q.length_unnumbered, ← p.length_unnumbered, hp]
    simp only [List.flatMap_cons, List.map_append] at renamed
    obtain ⟨first, renamed⟩ := List.append_inj renamed (by simp [length])
    rw [List.map_cons, List.map_cons, ih rest.symm renamed, q.renumbered_eq rename,
      p.renumbered_eq id, first, hp, List.map_id]

/-- Two ledgers have the records of an earlier one and besides them records that differ by their
numbers only: a renaming takes the handles given out since of the one to those of the other. -/
def GrewAlike (l : Ledger) (issued : Nat) (l₁ l₂ : Ledger) : Prop :=
  ∃ (new₁ new₂ : List Record) (rename : Nat → Nat),
    l₁.records.Perm (l.records ++ new₁) ∧ l₂.records.Perm (l.records ++ new₂) ∧
    (∀ n ≤ issued, rename n = n) ∧
    (∀ a ∈ new₁.flatMap (·.handles), issued < a.id ∧ issued < rename a.id) ∧
    ((new₁.flatMap (·.handles)).map fun a => rename a.id).Nodup ∧
    (new₁.map (·.renumbered rename)).Perm (new₂.map (·.renumbered id))

theorem GrewAlike.of_unnumbered {issued : Nat} {l₁ l₂ : Ledger} {new₁ new₂ : List Record}
    (perm₁ : l₁.records.Perm (l.records ++ new₁)) (perm₂ : l₂.records.Perm (l.records ++ new₂))
    (nodup₁ : ((new₁.flatMap (·.handles)).map (·.id)).Nodup)
    (nodup₂ : ((new₂.flatMap (·.handles)).map (·.id)).Nodup)
    (since₁ : ∀ a ∈ new₁.flatMap (·.handles), issued < a.id)
    (since₂ : ∀ a ∈ new₂.flatMap (·.handles), issued < a.id)
    (same : (new₁.map Record.unnumbered).Perm (new₂.map Record.unnumbered)) :
    l.GrewAlike issued l₁ l₂ := by
  -- The records of the second ledger are put in the order of those of the first.
  obtain ⟨new, entries, perm⟩ : ∃ new : List Record,
      new₁.map Record.unnumbered = new.map Record.unnumbered ∧ new.Perm new₂ :=
    (congrFun₂ (List.eq_map_comp_perm Record.unnumbered) _ new₂).mpr same
  have numbers : ((new.flatMap (·.handles)).map (·.id)).Perm
      ((new₂.flatMap (·.handles)).map (·.id)) := (perm.flatMap_right _).map _
  have length : ∀ records : List Record, ((records.flatMap (·.handles)).map (·.id)).length =
      ((records.map Record.unnumbered).map (·.handles.length)).sum := by
    intro records
    rw [List.length_map, List.length_flatMap, List.map_map]
    congr 2
    funext q
    exact q.length_unnumbered.symm
  have equal : ((new₁.flatMap (·.handles)).map (·.id)).length =
      ((new.flatMap (·.handles)).map (·.id)).length := by
    rw [length, length, entries]
  obtain ⟨rename, renamed, others⟩ := exists_rename nodup₁ equal
  have images : ((new₁.flatMap (·.handles)).map fun a => rename a.id) =
      (new.flatMap (·.handles)).map (·.id) := by
    rw [← renamed, List.map_map]
    rfl
  refine ⟨new₁, new₂, rename, perm₁, perm₂, fun n hn => others n fun given => ?_, fun a ha => ?_,
    ?_, ?_⟩
  · obtain ⟨a, ha, rfl⟩ := List.mem_map.1 given
    exact Nat.not_lt.2 hn (since₁ a ha)
  · refine ⟨since₁ a ha, ?_⟩
    have image : rename a.id ∈ (new₁.flatMap (·.handles)).map fun a => rename a.id :=
      List.mem_map_of_mem ha
    rw [images, numbers.mem_iff] at image
    obtain ⟨b, hb, hid⟩ := List.mem_map.1 image
    exact hid ▸ since₂ b hb
  · rw [images]
    exact numbers.nodup_iff.2 nodup₂
  · rw [map_renumbered_of_unnumbered entries renamed]
    exact perm.map _

end Ledger

end ServiceImport

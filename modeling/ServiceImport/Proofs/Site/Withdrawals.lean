import Mathlib.Data.List.Flatten
import Mathlib.Data.List.Perm.Basic
import ServiceImport.Proofs.Site.ImportTable
import ServiceImport.Proofs.Site.Removals

/-! # What goes with a service

When a service is withdrawn, each listener of the importer removes what was imported of it through
its container. Several listeners may be about one container, and the first of them that hears takes
all there is. So it does not matter which listener hears first, nor which record the ledger visits
first: the same mappings and records go, and each proxy is unregistered once.
-/

namespace ServiceImport

variable {d d' : Taking}

/-! ## The handles of what goes -/

theorem filter_either_perm {α : Type} (p q : α → Bool) (l : List α) :
    (l.filter fun a => p a || q a).Perm
      (l.filter p ++ (l.filter fun a => !p a).filter fun a => q a) := by
  have split := List.filter_append_perm p (l.filter fun a => p a || q a)
  rw [List.filter_filter, List.filter_filter] at split
  refine split.symm.trans (List.Perm.of_eq ?_)
  rw [List.filter_filter]
  congr 1
  · exact List.filter_congr fun a _ => by cases p a <;> rfl
  · exact List.filter_congr fun a _ => by cases p a <;> simp

namespace Ledger

/-- The handles of the mappings that go. -/
def taken (d : Taking) (l : Ledger) : List Handle :=
  l.records.flatMap fun q => (q.mappings.filter fun m => d.mapping q.identity m.1.id).map (·.2)

theorem tears_eq_any_taken (l : Ledger) (id : Nat) :
    l.tears d id = (l.taken d).any (·.id == id) := by
  unfold tears taken
  rw [List.any_flatMap]
  simp only [List.any_map, List.any_filter, Function.comp_def]

theorem taken_nothing (l : Ledger) : l.taken {} = [] :=
  List.flatMap_eq_nil_iff.2 fun q _ => by simp

theorem taken_join (l : Ledger) :
    (l.taken (d.join d')).Perm (l.taken d ++ (l.losing d).taken d') := by
  have later : (l.losing d).taken d' = l.records.flatMap fun q =>
      ((q.losing d).mappings.filter fun m => d'.mapping q.identity m.1.id).map (·.2) := by
    unfold losing taken
    rw [List.flatMap_map]
    refine flatMap_filter_of_nil fun q _ gone => ?_
    have empty : (q.losing d).mappings = [] := by
      refine List.filter_eq_nil_iff.2 fun m hm => ?_
      have goes := List.all_eq_true.1 ((Bool.not_eq_false' _).mp gone) m hm
      simp [goes]
    rw [empty]
    rfl
  rw [later]
  refine List.Perm.trans ?_ (List.flatMap_append_perm l.records _ _).symm
  refine List.Perm.flatMap_left _ fun q _ => ?_
  rw [← List.map_append]
  exact (filter_either_perm _ _ q.mappings).map (·.2)

theorem taken_of_mapping {l : Ledger} {p : Record → Bool} {reference : Nat}
    (mapping : ∀ q ∈ l.records, ∀ n, d.mapping q.identity n = (p q && n == reference)) :
    l.taken d = (l.records.filter p).flatMap (·.handlesOf reference) := by
  have others : ∀ q ∈ l.records, p q = false →
      (q.mappings.filter fun m => d.mapping q.identity m.1.id).map (·.2) = [] := by
    intro q hq other
    simp [mapping q hq, other]
  unfold taken
  rw [← flatMap_filter_of_nil others]
  refine List.flatMap_congr fun q hq => ?_
  obtain ⟨hq, here⟩ := List.mem_filter.1 hq
  unfold Record.handlesOf
  simp only [mapping q hq, here, Bool.true_and]

theorem taken_ofReference (l : Ledger) (c : ContainerId) (reference : Nat) :
    l.taken (.ofReference c reference) = (l.withdrawReference c reference).1.handles :=
  taken_of_mapping fun _ _ _ => rfl

end Ledger

namespace Site

variable {s t u : Site} {removal : Removal} {listeners : List Listener} {allowed : Command → Prop}

/-! ## What is unregistered -/

theorem unregistered_noteEmptied (c : ContainerId) (records : List Record) (s : Site) :
    (records.foldl (noteEmptied c) s).unregistered = s.unregistered := by
  induction records generalizing s with
  | nil => rfl
  | cons r records ih =>
    rw [List.foldl_cons, ih]
    refine congrArg (List.map _) (unregisterings_append (t := s.noteEmptied c r)
      (congrArg Site.journal (noteEmptied_eq c s r)) ?_)
    simp [Event.unregistering?]

theorem unregistered_removeReference (c : ContainerId) (reference : Nat) (s : Site) :
    (s.removeReference c reference).unregistered =
      s.unregistered ++ s.ledger.taken (.ofReference c reference) := by
  rw [Ledger.taken_ofReference]
  obtain ⟨left, hleft⟩ : ∃ left, left =
    cancelAll (s.ledger.withdrawReference c reference).1.disposed
      { s with ledger := (s.ledger.withdrawReference c reference).2 } := ⟨_, rfl⟩
  have silent : left.unregistered = s.unregistered := by
    rw [hleft, cancelAll_eq]
    rfl
  unfold removeReference
  dsimp only
  rw [← hleft]
  split
  · next none => rw [List.isEmpty_iff.1 none, List.append_nil, silent]
  · rw [unregistered_noteEmptied, unregistered_tearDown, silent]

theorem unregistered_hear (removal : Removal) (l : Listener) (s : Site) :
    (s.hear removal l).unregistered =
      s.unregistered ++ s.ledger.taken (.ofListeners s.isAlive [l] removal.reference.id) := by
  cases l with
  | recorder label =>
    rw [Taking.ofListeners_of_none (fun c => by simp), Ledger.taken_nothing, List.append_nil]
    exact unregistered_log s rfl
  | importer c =>
    unfold hear
    dsimp only
    split
    · next alive => rw [unregistered_removeReference, alive, Taking.ofListeners_importer]
    · next dead =>
      rw [Taking.ofListeners_of_none fun c => by rw [eq_false_of_ne_true dead, Bool.false_and],
        Ledger.taken_nothing, List.append_nil]

/-! ## Any order -/

/-- Two sites that differ in the order of their records only. -/
structure Reordered (s t : Site) : Prop where
  same : t = { s with ledger := t.ledger }
  records : t.ledger.records.Perm s.ledger.records

theorem Reordered.refl (s : Site) : Reordered s s := ⟨rfl, .refl _⟩

theorem Reordered.trans (hst : Reordered s t) (htu : Reordered t u) : Reordered s u where
  same := by
    refine htu.same.trans ?_
    rw [hst.same]
  records := htu.records.trans hst.records

theorem Reordered.bare (h : Reordered s t) : Reordered s.bare t.bare where
  same := by
    rw [h.same]
    rfl
  records := h.records

/-- What goes does not depend on the order of the records. -/
theorem Reordered.losing (h : Reordered s t) (d : Taking) :
    Reordered (s.losing d) (t.losing d) where
  same := by
    have empties (p : Record → Bool) : t.ledger.empties d p = s.ledger.empties d p :=
      h.records.any_eq
    have tears : t.ledger.tears d = s.ledger.tears d := by
      funext n
      exact h.records.any_eq
    rw [h.same]
    unfold Site.losing Site.releases
    dsimp only
    simp only [empties, tears]
  records := (h.records.filter _).map _

/-- Listeners hear of a removal, each once and in any order. Before each of them the records may
come to be visited in another order. -/
inductive Heard (removal : Removal) : List Listener → Site → Site → Prop
  | done {s : Site} : Heard removal [] s s
  | reorder {listeners : List Listener} {s t u : Site} : Reordered s t →
      Heard removal listeners t u → Heard removal listeners s u
  | hear {before after : List Listener} {l : Listener} {s t : Site} :
      Heard removal (before ++ after) (s.hear removal l) t →
      Heard removal (before ++ l :: after) s t

theorem heard_deliver (removal : Removal) (listeners : List Listener) (s : Site) :
    Heard removal listeners s (s.deliver listeners removal) := by
  induction listeners generalizing s with
  | nil => exact .done
  | cons l listeners ih => exact @Heard.hear removal [] listeners l s _ (ih (s.hear removal l))

theorem Heard.effect (heard : Heard removal listeners s t)
    (mapped : ∀ r ∈ s.ledger.records, r.mappings ≠ []) :
    Reordered (s.bare.losing (.ofListeners s.isAlive listeners removal.reference.id)) t.bare ∧
    ∃ handles, t.unregistered = s.unregistered ++ handles ∧
      handles.Perm (s.ledger.taken (.ofListeners s.isAlive listeners removal.reference.id)) := by
  induction heard with
  | @done s =>
    rw [Taking.ofListeners_of_none fun c => by simp, Ledger.taken_nothing,
      losing_nothing (s := s.bare) mapped]
    exact ⟨.refl _, [], (List.append_nil _).symm, .refl _⟩
  | @reorder listeners s t u order _ ih =>
    obtain ⟨left, handles, calls, perm⟩ := ih fun r hr => mapped r (order.records.mem_iff.1 hr)
    have alive : t.isAlive = s.isAlive := by
      rw [order.same]
      rfl
    have before : t.unregistered = s.unregistered := by
      rw [order.same]
      rfl
    rw [alive] at left perm
    rw [before] at calls
    exact ⟨(order.bare.losing _).trans left, handles, calls,
      perm.trans (order.records.flatMap_right _)⟩
  | @hear before after l s t _ ih =>
    obtain ⟨left, handles, calls, perm⟩ := ih (mapped_hear mapped removal l)
    have first := hear_eq_losing mapped removal l
    have ledger : (s.hear removal l).ledger =
        s.ledger.losing (.ofListeners s.isAlive [l] removal.reference.id) :=
      congrArg Site.ledger first
    have both : Taking.ofListeners s.isAlive (before ++ l :: after) removal.reference.id =
        (Taking.ofListeners s.isAlive [l] removal.reference.id).join
          (.ofListeners s.isAlive (before ++ after) removal.reference.id) := by
      rw [← Taking.ofListeners_append]
      exact Taking.ofListeners_perm List.perm_middle _ _
    rw [(leavesJobs_hear removal s l).isAlive] at left perm
    rw [first, losing_losing, ← both] at left
    rw [unregistered_hear, List.append_assoc] at calls
    rw [ledger] at perm
    refine ⟨left, _, calls, (perm.append_left _).trans ?_⟩
    rw [both]
    exact (Ledger.taken_join s.ledger).symm

/-! ## Every withdrawal -/

theorem losing_eq_of_mapping (hears : Record → Bool) (id : Nat)
    (mapping : ∀ q ∈ s.ledger.records, ∀ n, d.mapping q.identity n = (hears q && n == id))
    (location : ∀ l, d.location l = false) :
    let rest := fun q : Record => if hears q then q.without id else q
    let disposed := s.ledger.records.filter fun q => (rest q).mappings.isEmpty
    let torn := (s.ledger.records.filter hears).flatMap (·.handlesOf id)
    s.losing d = { s with
      ledger := { records := (s.ledger.records.map rest).filter (!·.mappings.isEmpty) }
      locations := { accepted := s.locations.accepted.filter fun l =>
        !(s.settings.releaseOnRemoval && disposed.any (·.endpoint.location == l)) }
      adapters := silence (fun x => disposed.any (·.subscription == some x)) d.service s.adapters
      space := s.space.losing fun n => torn.any (·.id == n) } := by
  intro rest disposed torn
  have losing : ∀ q ∈ s.ledger.records, q.losing d = rest q := by
    intro q hq
    unfold Record.losing
    simp only [mapping q hq, rest]
    cases hears q <;> simp [Record.without, bne]
  have empties : ∀ q ∈ s.ledger.records, d.empties q = (rest q).mappings.isEmpty := by
    intro q hq
    rw [← losing q hq]
    unfold Taking.empties Record.losing
    rw [Bool.eq_iff_iff, List.isEmpty_iff, List.filter_eq_nil_iff, List.all_eq_true]
    simp
  have any : ∀ p, s.ledger.empties d p = disposed.any p := by
    intro p
    unfold Ledger.empties
    rw [List.any_filter, Bool.eq_iff_iff, List.any_eq_true, List.any_eq_true]
    exact exists_congr fun q => and_congr_right fun hq => by rw [empties q hq]
  have ledger : s.ledger.losing d =
      { records := (s.ledger.records.map rest).filter (!·.mappings.isEmpty) } := by
    unfold Ledger.losing
    rw [List.filter_map, List.filter_congr fun q hq => congrArg (! ·) (empties q hq)]
    exact congrArg Ledger.mk (List.map_congr_left fun q hq => losing q (List.mem_filter.1 hq).1)
  have tears : s.ledger.tears d = fun n => torn.any (·.id == n) := by
    funext n
    rw [Ledger.tears_eq_any_taken, Ledger.taken_of_mapping mapping]
  unfold Site.losing Site.releases
  simp only [any, ledger, tears, location, Bool.false_or]

/-- When a service is withdrawn while the importer is there, the records of the containers on whose
behalf it listens on the adapter lose the mappings of the reference. Each of their handles is
unregistered once. The records that are left without mappings go, with their subscriptions, and
their locations become free if the settings say so; the rest of the site stays as it was, also the
order of the other mappings. In whatever order the listeners hear and the records are visited, the
same is left. -/
theorem withdrawService_exact (h : Reachable allowed s) (alive : s.isAlive = true) {key : String}
    {id : Nat} {a : Adapter} {p : PublishedServices} {r : Reference}
    (there : s.adapter? key = some a) (memory : a.backend = .memory p)
    (published : p.find? id = some r) :
    let hears := fun q : Record => (a.listeners.map (·.2)).contains (.importer q.key.container)
    let rest := fun q : Record => if hears q then q.without id else q
    let disposed := s.ledger.records.filter fun q => (rest q).mappings.isEmpty
    let torn := (s.ledger.records.filter hears).flatMap (·.handlesOf id)
    let left : Site := { s.bare with
      ledger := { records := (s.ledger.records.map rest).filter (!·.mappings.isEmpty) }
      locations := { accepted := s.locations.accepted.filter fun l =>
        !(s.settings.releaseOnRemoval && disposed.any (·.endpoint.location == l)) }
      adapters := silence (fun x => disposed.any (·.subscription == some x))
        (fun k n => k == key && n == id) s.adapters
      space := s.space.losing fun n => torn.any (·.id == n) }
    let hearing := Heard { seenBy := a.owner, reference := r } (a.listeners.map (·.2))
      (s.withdrawn key id)
    let t := s.perform (.withdrawService key id)
    (hearing t ∧ t.bare = left) ∧
    ∀ u, hearing u → Reordered left u.bare ∧
      (∃ handles, u.unregistered = s.unregistered ++ handles ∧ handles.Perm torn) ∧
      ∀ b ∈ torn, (∀ e c r b' x, allowed (.record e c r b' x) → b'.id ≠ b.id) →
        u.unregistered.filter (·.id == b.id) = [b] := by
  intro hears rest disposed torn left hearing t
  have mapped := h.wellFormed.mapped
  have mapping : ∀ q ∈ s.ledger.records, ∀ n,
      (Taking.ofListeners true (a.listeners.map (·.2)) id).mapping q.identity n =
        (hears q && n == id) := fun _ _ _ => rfl
  have taken : s.ledger.taken (.ofListeners true (a.listeners.map (·.2)) id) = torn :=
    Ledger.taken_of_mapping mapping
  -- The service is lost first, and the mappings through the listeners then.
  have losing : (s.withdrawn key id).bare.losing
      (.ofListeners true (a.listeners.map (·.2)) id) = left := by
    rw [bare_withdrawn mapped, losing_losing]
    have service : (fun k n => k == key && n == id || false) = fun k n => k == key && n == id := by
      simp only [Bool.or_false]
    refine (losing_eq_of_mapping (s := s.bare) hears id (fun q hq n => Bool.false_or _)
      fun _ => rfl).trans ?_
    unfold Taking.join Taking.ofListeners
    dsimp only
    rw [service]
    rfl
  have hid : r.id = id := PublishedServices.id_of_find? published
  have alive : (s.withdrawn key id).isAlive = true := alive
  have performed : t = _ := withdrawService_eq_deliver there memory published
  refine ⟨⟨?_, ?_⟩, fun u hu => ?_⟩
  · rw [performed]
    exact heard_deliver _ _ _
  · rw [performed, deliver_eq_losing (s := s.withdrawn key id) mapped, alive]
    exact hid ▸ losing
  · obtain ⟨reordered, handles, called, perm⟩ := hu.effect mapped
    have before : (s.withdrawn key id).unregistered = s.unregistered :=
      unregistered_log _ rfl
    have part : torn.Sublist s.ledger.handles :=
      (List.filter_sublist.flatMap _).trans
        (List.Sublist.flatMap_right _ fun q _ => List.filter_sublist.map _)
    rw [alive] at reordered perm
    dsimp only at reordered perm
    rw [hid] at reordered perm
    rw [losing] at reordered
    rw [before] at called
    replace perm : handles.Perm torn := taken ▸ perm
    exact ⟨reordered, ⟨handles, called, perm⟩, fun b hb own =>
      h.unregistered_once called (perm.subperm.trans part.subperm) (perm.mem_iff.2 hb) own⟩

/-- The lamp and the door share their service. Both go with it, whichever is heard of first. -/
theorem withdrawService_exact_lampAndDoor :
    lampAndDoor.isAlive = true ∧ lampAndDoor.ledger.size = 2 ∧
    (lampAndDoor.perform (.withdrawService "lamps" 1)).ledger.records = [] ∧
    ∀ u, Heard { seenBy := ⟨"home", "lamps"⟩, reference := lampService ⟨"home", "lamps"⟩ 1 }
        [.importer ⟨"home", "lamps"⟩, .importer ⟨"home", "lamps"⟩]
        (lampAndDoor.withdrawn "lamps" 1) u →
      u.ledger.records = [] ∧ u.unregistered.Perm [⟨1, ["Lamp"]⟩, ⟨2, ["Lamp"]⟩] := by
  obtain ⟨_, any⟩ := @withdrawService_exact lampAndDoor _ reachable_lampAndDoor rfl "lamps" 1 _ _ _
    rfl rfl rfl
  refine ⟨rfl, rfl, rfl, fun u hu => ?_⟩
  obtain ⟨reordered, ⟨handles, called, perm⟩, _⟩ := any u hu
  refine ⟨List.perm_nil.1 reordered.records, ?_⟩
  rw [called]
  exact perm

end Site

end ServiceImport

import Mathlib.Data.List.Flatten
import ServiceImport.Proofs.Site.Accounts
import ServiceImport.Proofs.Site.Calls
import ServiceImport.Proofs.Site.Subscriptions
import ServiceImport.Proofs.Site.Takings

/-! # What goes with an endpoint

The news that an endpoint is gone takes its location, its record, and what the record owns: the
proxies and the subscription. Nothing else goes, and it goes whatever the service space answers.
Afterwards the endpoint is as one that was never seen, so its return is handled like its arrival.
-/

namespace ServiceImport.Site

variable {s : Site} {e : Endpoint} {allowed : Command → Prop}

theorem unregistered_unavailable (e : Endpoint) (s : Site) :
    (s.unavailable e).unregistered =
      s.unregistered ++ (s.ledger.withdrawEndpoint e.id).1.flatMap (·.handles) := by
  obtain ⟨left, hleft⟩ : ∃ left, left = log (.left e) (cancelAll (s.ledger.withdrawEndpoint e.id).1
    { s with
      locations := (s.locations.release e.location).2
      ledger := (s.ledger.withdrawEndpoint e.id).2 }) := ⟨_, rfl⟩
  have silent : left.unregistered = s.unregistered := by
    rw [hleft, unregistered_log _ rfl, cancelAll_eq]
    rfl
  unfold unavailable
  dsimp only
  rw [← hleft]
  split
  · next none =>
    rw [List.isEmpty_iff.1 (Bool.and_eq_true_iff.1 none).1, List.append_nil, silent]
  · exact (unregistered_log _ rfl).trans
      ((unregistered_tearDown _ left).trans (congrArg (· ++ _) silent))

theorem listens_of_adapters {s t : Site} (same : t.adapters = s.adapters) {x : Subscription}
    {l : Listener} : t.listens x l ↔ s.listens x l := by
  unfold listens
  rw [(KeepsAdapters.of_eq same).audience]

theorem length_withdrawEndpoint {l : Ledger} (wf : l.WellFormed) (endpointId : String) :
    (l.withdrawEndpoint endpointId).1.length ≤ 1 := by
  have ids : (l.withdrawEndpoint endpointId).1.map (·.key.endpointId) =
      List.replicate (l.withdrawEndpoint endpointId).1.length endpointId := by
    refine List.eq_replicate_iff.2 ⟨List.length_map _, fun id hid => ?_⟩
    obtain ⟨q, hq, rfl⟩ := List.mem_map.1 hid
    exact beq_iff_eq.1 (List.mem_filter.1 hq).2
  have nodup := wf.endpoints_nodup.sublist
    ((List.filter_sublist (l := l.records) (p := (·.key.endpointId == endpointId))).map
      (·.key.endpointId))
  exact List.nodup_replicate.1 (ids ▸ nodup)

theorem listens_unavailable {x : Subscription} {l : Listener} :
    (s.unavailable e).listens x l ↔ s.listens x l ∧
      ∀ q ∈ s.ledger.records, q.key.endpointId = e.id → q.subscription ≠ some x := by
  have adapters : (s.unavailable e).adapters =
      (cancelAll (s.ledger.withdrawEndpoint e.id).1 s).adapters := by
    show (s.unavailable e).bare.adapters = _
    rw [bare_unavailable, cancelAll_eq_silence]
  rw [listens_of_adapters adapters, listens_cancelAll]
  simp only [Ledger.withdrawEndpoint, List.mem_filter, beq_iff_eq, and_imp]

theorem contains_location_unavailable :
    (s.unavailable e).locations.contains e.location = false := by
  show (s.unavailable e).bare.locations.contains e.location = false
  rw [bare_unavailable]
  simp [Locations.contains_release]

theorem contains_ledger_unavailable : (s.unavailable e).ledger.contains e.id = false := by
  show (s.unavailable e).bare.ledger.contains e.id = false
  rw [bare_unavailable]
  exact Ledger.contains_withdrawEndpoint s.ledger e.id

theorem standing_unavailable (accounted : s.Accounted)
    (unresolved : ∀ r ∈ s.resolutions, r.endpoint.id ≠ e.id) :
    (s.unavailable e).standing e = .unseen := by
  have idle : (s.unavailable e).pending.contains e.id = false := by
    rw [leavesJobs_unavailable e s]
    refine eq_false_of_ne_true fun pending => ?_
    obtain ⟨r, hr, same⟩ := accounted.contains_pending.1 pending
    exact unresolved r hr same
  unfold standing
  rw [contains_ledger_unavailable, idle, contains_location_unavailable]
  rfl

theorem standing_available (unrecorded : s.ledger.contains e.id = false)
    (free : s.locations.contains e.location = false) : (s.available e).standing e = .pending := by
  have pending : (s.available e).pending.contains e.id = true := by
    rw [available_of_not_contains free]
    exact Pending.contains_enter s.pending e.id
  have ledger : (s.available e).ledger = s.ledger := by rw [available_of_not_contains free]
  unfold standing
  rw [ledger, unrecorded, pending]
  rfl

/-- The news that an endpoint is gone which nobody resolves unregisters the handles of its record,
once each, and ends the subscription of that record. The record goes, and so does the location of
the endpoint, whether or not unregistering fails; the rest of the site stays as it was. The endpoint
is unseen then, and a resolution starts when it comes back. -/
theorem unavailable_exact (h : Reachable allowed s)
    (unresolved : ∀ r ∈ s.resolutions, r.endpoint.id ≠ e.id) :
    let gone := s.ledger.records.filter (·.key.endpointId == e.id)
    let handles := gone.flatMap (·.handles)
    let t := s.unavailable e
    let u := t.available e
    (gone.length ≤ 1 ∧ t.unregistered = s.unregistered ++ handles) ∧
    (∀ a ∈ handles, (∀ e c r b x, allowed (.record e c r b x) → b.id ≠ a.id) →
      t.unregistered.filter (·.id == a.id) = [a]) ∧
    t.bare = { s.bare with
      ledger := { records := s.ledger.records.filter (·.key.endpointId != e.id) }
      locations := { accepted := s.locations.accepted.filter (· != e.location) }
      adapters := silence (fun x => gone.any (·.subscription == some x)) (fun _ _ => false) s.adapters
      space := s.space.losing fun n => handles.any (·.id == n) } ∧
    (∀ x l, t.listens x l ↔ s.listens x l ∧ ∀ q ∈ gone, q.subscription ≠ some x) ∧
    t.standing e = .unseen ∧
    u.resolutions = s.resolutions ++ [{ id := s.started, endpoint := e }] ∧
    u.ready = s.ready ++ [.resolution s.started] ∧ u.standing e = .pending := by
  intro gone handles t u
  have back : u = _ := available_of_not_contains contains_location_unavailable
  have jobs : LeavesJobs s t := leavesJobs_unavailable e s
  have resolutions : t.resolutions = s.resolutions := by rw [jobs]
  have started : t.started = s.started := by rw [jobs]
  have ready : t.ready = s.ready := by rw [jobs]
  have given : handles.Sublist s.ledger.handles := List.filter_sublist.flatMap _
  refine ⟨⟨length_withdrawEndpoint h.wellFormed e.id, unregistered_unavailable e s⟩,
    fun a there own => h.unregistered_once (unregistered_unavailable e s) given.subperm there own,
    bare_unavailable e s, fun x l => ?_,
    standing_unavailable h.accounted.2 unresolved, ?_, ?_,
    standing_available contains_ledger_unavailable contains_location_unavailable⟩
  · refine listens_unavailable.trans (and_congr_right fun _ => ?_)
    simp only [gone, List.mem_filter, beq_iff_eq, and_imp]
  · rw [back, ← resolutions, ← started]
  · rw [back, ← ready, ← started]

/-- The site with an imported lamp, whose proxy cannot be unregistered. -/
def lampStuck : Site :=
  ((litSite.perform (.available lampEndpoint)).poll (.resolution 0)).perform
    (.failUnregister (some "stuck"))

theorem reachable_lampStuck : Reachable (·.bypassesImporter = false) lampStuck := by
  refine .perform (.poll (.perform (reachable_litSite rfl) rfl ?_)) rfl ?_
  all_goals
    intro _
    rfl

/-- Unregistering is tried once and fails, and the lamp can come again. -/
theorem unavailable_exact_lampStuck :
    lampStuck.standing lampEndpoint = .registered ∧
    (lampStuck.unavailable lampEndpoint).unregistered.filter (·.id == 1) = [⟨1, ["Lamp"]⟩] ∧
    (lampStuck.unavailable lampEndpoint).unremoved = [⟨1, ["Lamp"]⟩] ∧
    (lampStuck.unavailable lampEndpoint).standing lampEndpoint = .unseen ∧
    ((lampStuck.unavailable lampEndpoint).available lampEndpoint).standing lampEndpoint =
      .pending := by
  have settled : lampStuck.resolutions = [] := rfl
  obtain ⟨_, once, _, _, unseen, _, _, pending⟩ := @unavailable_exact lampStuck lampEndpoint _
    reachable_lampStuck (by rw [settled]; nofun)
  refine ⟨rfl, once ⟨1, ["Lamp"]⟩ (List.mem_singleton.2 rfl) ?_, rfl, unseen, pending⟩
  intro _ _ _ _ _ bypass
  cases bypass

end ServiceImport.Site

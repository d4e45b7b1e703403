import ServiceImport.Proofs.Site.Runs

/-! # What operations leave alone

Each operation is said to be an update of some fields of the site. What is known of the other fields
stays true, so a fact about a site need only be looked at where a field it speaks of changes.
-/

namespace ServiceImport.Site

/-! ## Subscriptions and jobs -/

theorem cancel_eq (x : Option Subscription) (s : Site) :
    s.cancel x = { s with adapters := (s.cancel x).adapters } := by
  cases x <;> rfl

theorem cancelAll_eq (records : List Record) (s : Site) :
    cancelAll records s = { s with adapters := (cancelAll records s).adapters } := by
  induction records generalizing s with
  | nil => rfl
  | cons r records ih =>
    have h := ih (s.cancel r.subscription)
    rw [cancel_eq] at h
    unfold cancelAll at h ⊢
    rw [List.foldl_cons, cancel_eq]
    exact h

theorem subscribe_eq (key : String) (l : Listener) (s : Site) :
    (s.subscribe key l).2 = { s with adapters := (s.subscribe key l).2.adapters } := by
  unfold subscribe
  split <;> rfl

theorem wake_eq (j : Job) (s : Site) : s.wake j = { s with ready := (s.wake j).ready } := by
  unfold wake
  split <;> rfl

theorem wakeAll_eq (jobs : List Nat) (f : Nat → Job) (s : Site) :
    jobs.foldl (fun s n => s.wake (f n)) s =
      { s with ready := (jobs.foldl (fun s n => s.wake (f n)) s).ready } := by
  induction jobs generalizing s with
  | nil => rfl
  | cons n jobs ih =>
    have h := ih (s.wake (f n))
    rw [wake_eq] at h
    rw [List.foldl_cons, wake_eq]
    exact h

theorem releaseLedger_eq (s : Site) :
    s.releaseLedger =
      { s with ledger := s.releaseLedger.ledger, adapters := s.releaseLedger.adapters } := by
  unfold releaseLedger
  split
  · rfl
  · simp only
    rw [cancelAll_eq]

theorem dropImporter_eq (keepLedger : Bool) (s : Site) :
    s.dropImporter keepLedger =
      { s with
        importerHeld := false
        ledgerHeld := keepLedger
        ledger := (s.dropImporter keepLedger).ledger
        adapters := (s.dropImporter keepLedger).adapters } := by
  unfold dropImporter
  rw [releaseLedger_eq]

/-! ## The importer -/

theorem available_of_contains {e : Endpoint} {s : Site}
    (h : s.locations.contains e.location = true) : s.available e = s.log (.arrived e) := by
  have known : (s.log (.arrived e)).locations.accept e.location = (false, s.locations) := if_pos h
  unfold available
  simp only [known]
  rfl

theorem available_of_not_contains {e : Endpoint} {s : Site}
    (h : s.locations.contains e.location = false) :
    s.available e =
      { s with
        locations := { accepted := s.locations.accepted ++ [e.location] }
        pending := s.pending.enter e.id
        resolutions := s.resolutions ++ [{ id := s.started, endpoint := e }]
        started := s.started + 1
        ready := s.ready ++ [.resolution s.started]
        journal := s.journal ++
          (.arrived e :: (if e.interfaces.isEmpty then [.reported (.noInterfaces e.id)] else []) ++
            [.started s.started e]) } := by
  have new : s.locations.accept e.location =
      (true, { accepted := s.locations.accepted ++ [e.location] }) := if_neg (ne_true_of_eq_false h)
  unfold available
  simp only [log, report, new, Bool.not_true, Bool.false_eq_true, if_false]
  by_cases hempty : e.interfaces.isEmpty = true
  · simp only [hempty, if_true, List.append_assoc, List.cons_append, List.nil_append]
  · simp only [hempty, Bool.false_eq_true, if_false, List.append_assoc, List.cons_append,
      List.nil_append]

theorem abortResolution_eq (r : Resolution) (s : Site) :
    s.abortResolution r =
      { s with
        resolutions := s.resolutions.map fun q =>
          if q.id = r.id then { q with aborted := true } else q
        ready := (s.abortResolution r).ready } := by
  unfold abortResolution
  simp only
  split
  · rfl
  · rw [wake_eq]
    rfl

theorem abortFeed_eq (i : Nat) (s : Site) :
    s.abortFeed i =
      { s with
        feeds := (s.abortFeed i).feeds
        idleFeeds := (s.abortFeed i).idleFeeds
        ready := (s.abortFeed i).ready } := by
  unfold abortFeed
  split
  · rfl
  · split
    · rfl
    · simp only
      rw [wake_eq]
      rfl

theorem abortFeeds_eq (feeds : List Nat) (s : Site) :
    feeds.foldl (fun s i => s.abortFeed i) s =
      { s with
        feeds := (feeds.foldl (fun s i => s.abortFeed i) s).feeds
        idleFeeds := (feeds.foldl (fun s i => s.abortFeed i) s).idleFeeds
        ready := (feeds.foldl (fun s i => s.abortFeed i) s).ready } := by
  induction feeds generalizing s with
  | nil => rfl
  | cons i feeds ih =>
    have h := ih (s.abortFeed i)
    rw [abortFeed_eq] at h
    rw [List.foldl_cons, abortFeed_eq]
    exact h

theorem abortResolutions_eq (resolutions : List Resolution) (s : Site) :
    resolutions.foldl abortResolution s =
      { s with
        resolutions := (resolutions.foldl abortResolution s).resolutions
        ready := (resolutions.foldl abortResolution s).ready } := by
  induction resolutions generalizing s with
  | nil => rfl
  | cons r resolutions ih =>
    have h := ih (s.abortResolution r)
    rw [abortResolution_eq] at h
    rw [List.foldl_cons, abortResolution_eq]
    exact h

theorem shutdown_eq (s : Site) :
    s.shutdown =
      { s with
        resolutions := (s.resolutions.foldl abortResolution s).resolutions
        feeds := s.shutdown.feeds
        idleFeeds := s.shutdown.idleFeeds
        ready := s.shutdown.ready } := by
  unfold shutdown
  simp only
  rw [abortFeeds_eq, abortResolutions_eq]

/-! ## Hubs and adapters -/

theorem wakeFeeds_eq (hub : Nat) (s : Site) :
    s.wakeFeeds hub =
      { s with idleFeeds := (s.wakeFeeds hub).idleFeeds, ready := (s.wakeFeeds hub).ready } := by
  unfold wakeFeeds
  simp only
  rw [wakeAll_eq]

theorem ensureHub_eq (s : Site) : s.ensureHub = { s with hubs := s.ensureHub.hubs } := by
  unfold ensureHub
  split <;> rfl

theorem attach_eq (s : Site) :
    ∃ added, s.attach =
      { s with hubs := s.attach.hubs, feeds := s.feeds ++ added, ready := s.attach.ready } := by
  unfold attach
  simp only
  split
  · exact ⟨[], by rw [ensureHub_eq, List.append_nil]⟩
  · exact ⟨[_], by rw [ensureHub_eq]⟩

theorem publish_eq (news : Notification) (s : Site) :
    (s.publish news).2 =
      { s with
        hubs := (s.publish news).2.hubs
        idleFeeds := (s.publish news).2.idleFeeds
        ready := (s.publish news).2.ready } := by
  unfold publish
  split
  · rfl
  · simp only
    split
    · rfl
    · rw [wakeFeeds_eq]

theorem closeHub_eq (s : Site) :
    s.closeHub =
      { s with
        hubs := s.closeHub.hubs
        idleFeeds := s.closeHub.idleFeeds
        ready := s.closeHub.ready } := by
  unfold closeHub
  split
  · rfl
  · rw [wakeFeeds_eq]

theorem publishService_eq (key : String) (interfaces : List String) (properties : Properties)
    (s : Site) :
    (s.publishService key interfaces properties).2 =
      { s with adapters := (s.publishService key interfaces properties).2.adapters } := by
  unfold publishService
  split <;> rfl

theorem setGate_eq (key : String) (closed : Bool) (s : Site) :
    s.setGate key closed =
      { s with
        adapters := (s.setGate key closed).adapters
        ready := (s.setGate key closed).ready } := by
  unfold setGate
  simp only
  rw [wakeAll_eq]
  rfl

/-! ## Removals -/

/-- What is registered, recorded and accepted may change, and no job. -/
def LeavesJobs (s t : Site) : Prop :=
  t = { s with
    ledger := t.ledger
    adapters := t.adapters
    space := { s.space with store := t.space.store }
    locations := t.locations
    journal := t.journal }

theorem LeavesJobs.refl (s : Site) : LeavesJobs s s := rfl

theorem LeavesJobs.trans {s t u : Site} (hst : LeavesJobs s t) (htu : LeavesJobs t u) :
    LeavesJobs s u := by
  unfold LeavesJobs at htu ⊢
  refine htu.trans ?_
  rw [hst]

theorem leavesJobs_log (e : Event) (s : Site) : LeavesJobs s (s.log e) := rfl

theorem LeavesJobs.foldl {α : Type} {f : Site → α → Site} (h : ∀ s a, LeavesJobs s (f s a))
    (s : Site) (l : List α) : LeavesJobs s (l.foldl f s) :=
  List.foldlRecOn l f (LeavesJobs.refl s) fun t ht a _ => ht.trans (h t a)

theorem reportUnregister_eq (h : Handle) (fault : Option Fault) (s : Site) :
    ∃ reports : List Report, s.reportUnregister h fault =
      { s with journal := s.journal ++ reports.map .reported } := by
  unfold reportUnregister
  split
  · exact ⟨[], by rw [List.map_nil, List.append_nil]⟩
  · exact ⟨[_], rfl⟩
  · exact ⟨[_], rfl⟩

/-- Unregistering fails when the space is set to fail or the registration is gone; then nothing
goes. -/
theorem unregister_eq (h : Handle) (s : Site) :
    ∃ fault : Option Fault,
      (fault.isNone = true ↔
        s.space.failUnregister = none ∧ s.space.store.contains h.id = true) ∧
      s.unregister h = (fault,
        { s with
          space := { s.space with
            store := { s.space.store with
              entries := if fault.isNone then s.space.store.entries.filter (·.1 != h.id)
                else s.space.store.entries } }
          journal := s.journal ++ [.called (.unregister h fault)] }) := by
  unfold unregister
  split
  · next reason hfail => exact ⟨some (.serviceSpace reason), by simp [hfail], rfl⟩
  · next hfail =>
    cases hstore : s.space.store.unregister h.id with
    | error fault =>
      have hnot : s.space.store.contains h.id = false := by
        unfold ServiceSpace.unregister at hstore
        split at hstore
        · simp at hstore
        · next hnot => exact eq_false_of_ne_true hnot
      exact ⟨some fault, by simp [hnot], rfl⟩
    | ok store =>
      obtain ⟨hcontains, rfl⟩ := ServiceSpace.unregister_eq_ok_iff.1 hstore
      exact ⟨none, by simp [hfail, hcontains], rfl⟩

theorem forgetImport_eq (h : Handle) (s : Site) :
    s.forgetImport h =
      { s with
        space := { s.space with
          store := { s.space.store with
            imports := if s.space.plain then s.space.store.imports
              else s.space.store.imports.filter (·.1 != h.id) } }
        journal := s.journal ++ if s.space.plain then [] else [.called (.withdrawn h)] } := by
  unfold forgetImport
  cases hplain : s.space.plain with
  | true => simp only [if_true, List.append_nil]
  | false => simp only [Bool.false_eq_true, if_false, log, ServiceSpace.withdrawn]

/-- Taking a proxy away calls the space once. The registration goes unless the call fails.
The import is forgotten in any case. -/
theorem tearDownOne_eq (s : Site) (h : Handle) :
    ∃ (fault : Option Fault) (reports : List Report),
      (fault.isNone = true ↔
        s.space.failUnregister = none ∧ s.space.store.contains h.id = true) ∧
      s.tearDownOne h =
        { s with
          space := { s.space with
            store := { s.space.store with
              entries := if fault.isNone then s.space.store.entries.filter (·.1 != h.id)
                else s.space.store.entries
              imports := if s.space.plain then s.space.store.imports
                else s.space.store.imports.filter (·.1 != h.id) } }
          journal := s.journal ++ .called (.unregister h fault) :: (reports.map .reported ++
            if s.space.plain then [] else [.called (.withdrawn h)]) } := by
  obtain ⟨fault, hfault, hunregister⟩ := unregister_eq h s
  obtain ⟨reports, hreports⟩ := reportUnregister_eq h fault (s.unregister h).2
  refine ⟨fault, reports, hfault, ?_⟩
  unfold tearDownOne
  rw [hunregister] at hreports ⊢
  simp only at hreports ⊢
  rw [hreports, forgetImport_eq]
  simp only [List.append_assoc, List.cons_append, List.nil_append]

theorem leavesJobs_tearDownOne (s : Site) (h : Handle) : LeavesJobs s (s.tearDownOne h) := by
  obtain ⟨fault, reports, _, heq⟩ := tearDownOne_eq s h
  rw [heq]
  rfl

theorem leavesJobs_tearDown (handles : List Handle) (s : Site) :
    LeavesJobs s (s.tearDown handles) :=
  LeavesJobs.foldl leavesJobs_tearDownOne s handles

theorem noteEmptied_eq (c : ContainerId) (s : Site) (r : Record) :
    s.noteEmptied c r =
      { s with
        locations := (s.noteEmptied c r).locations
        journal := s.journal ++
          [.reported (.lastProxyRemoved r.endpoint.id c), .emptied r.endpoint] } := by
  unfold noteEmptied
  cases hrelease : s.settings.releaseOnRemoval with
  | true => simp only [report, log, hrelease, if_true, List.append_assoc, List.cons_append,
      List.nil_append]
  | false => simp only [report, log, hrelease, Bool.false_eq_true, if_false, List.append_assoc,
      List.cons_append, List.nil_append]

theorem leavesJobs_removeReference (c : ContainerId) (reference : Nat) (s : Site) :
    LeavesJobs s (s.removeReference c reference) := by
  have start : LeavesJobs s (cancelAll (s.ledger.withdrawReference c reference).1.disposed
      { s with ledger := (s.ledger.withdrawReference c reference).2 }) := by
    rw [cancelAll_eq]
    rfl
  unfold removeReference
  simp only
  split
  · exact start
  · refine (start.trans (leavesJobs_tearDown _ _)).trans (LeavesJobs.foldl ?_ _ _)
    intro t r
    rw [noteEmptied_eq]
    rfl

theorem leavesJobs_hear (removal : Removal) (s : Site) (l : Listener) :
    LeavesJobs s (s.hear removal l) := by
  unfold hear
  split
  · rfl
  · split
    · exact leavesJobs_removeReference _ _ _
    · rfl

theorem leavesJobs_deliver (listeners : List Listener) (removal : Removal) (s : Site) :
    LeavesJobs s (s.deliver listeners removal) :=
  LeavesJobs.foldl (leavesJobs_hear removal) s listeners

theorem leavesJobs_withdrawService (key : String) (reference : Nat) (s : Site) :
    LeavesJobs s (s.withdrawService key reference).2 := by
  unfold withdrawService
  split
  · split
    · rfl
    · refine LeavesJobs.trans ?_ (leavesJobs_deliver _ _ _)
      rfl
  · rfl

theorem leavesJobs_emit (key : String) (reference : Reference) (host : Option ContainerId)
    (s : Site) : LeavesJobs s (s.emit key reference host).2 := by
  unfold emit
  split
  · rfl
  · exact leavesJobs_deliver _ _ _

theorem leavesJobs_unavailable (e : Endpoint) (s : Site) : LeavesJobs s (s.unavailable e) := by
  unfold unavailable
  simp only
  have start : LeavesJobs s (log (.left e) (cancelAll (s.ledger.withdrawEndpoint e.id).1
      { s with
        locations := (s.locations.release e.location).2
        ledger := (s.ledger.withdrawEndpoint e.id).2 })) := by
    rw [cancelAll_eq]
    rfl
  split
  · exact start
  · exact (start.trans (leavesJobs_tearDown _ _)).trans (leavesJobs_log _ _)

theorem leavesJobs_bypass {c : Command} (h : c.bypassesImporter = true) (s : Site) :
    LeavesJobs s (s.perform c) := by
  cases c with
  | unregister h =>
    unfold perform
    simp only
    split
    · rfl
    · rfl
  | record e c reference h x =>
    unfold perform record
    simp only
    rw [cancel_eq]
    rfl
  | unrecordEndpoint e =>
    unfold perform unrecordEndpoint
    simp only
    rw [cancelAll_eq]
    rfl
  | unrecordReference c reference =>
    unfold perform unrecordReference
    simp only
    rw [cancelAll_eq]
    rfl
  | _ => simp [Command.bypassesImporter] at h

/-! ## Ends of resolutions -/

/-- A change of a resolution that leaves it the resolution of its endpoint. -/
def SameResolution (f : Resolution → Resolution) : Prop :=
  ∀ r, (f r).id = r.id ∧ (f r).endpoint = r.endpoint

theorem releasePermit_eq (s : Site) :
    ∃ f, SameResolution f ∧ s.releasePermit =
      { s with
        limiter := s.releasePermit.limiter
        resolutions := s.resolutions.map f
        ready := s.releasePermit.ready } := by
  unfold releasePermit
  simp only
  split
  · exact ⟨id, fun r => ⟨rfl, rfl⟩, by rw [List.map_id]⟩
  · next n hn =>
    refine ⟨fun r => if r.id = n then { r with stage := .admitted } else r, ?_, ?_⟩
    · intro r
      dsimp only
      split
      · exact ⟨rfl, rfl⟩
      · exact ⟨rfl, rfl⟩
    · rw [wake_eq]
      rfl

theorem leaveQueues_eq (r : Resolution) (s : Site) :
    s.leaveQueues r =
      { s with limiter := (s.leaveQueues r).limiter, adapters := (s.leaveQueues r).adapters } := by
  unfold leaveQueues
  split <;> rfl

theorem discard_eq (r : Resolution) (s : Site) :
    ∃ f, SameResolution f ∧ s.discard r =
      { s with
        limiter := (s.discard r).limiter
        adapters := (s.discard r).adapters
        resolutions := (s.resolutions.map f).filter (·.id != r.id)
        pending := s.pending.leave r.endpoint.id
        ready := (s.discard r).ready
        journal := s.journal ++ [.aborted r.id r.endpoint] } := by
  unfold discard
  simp only
  split
  · obtain ⟨f, hf, heq⟩ := releasePermit_eq (s.leaveQueues r)
    refine ⟨f, hf, ?_⟩
    rw [heq, leaveQueues_eq]
    rfl
  · refine ⟨id, fun _ => ⟨rfl, rfl⟩, ?_⟩
    rw [leaveQueues_eq, List.map_id]
    rfl

theorem complete_eq (r : Resolution) (outcome : Outcome) (s : Site) :
    ∃ (f : Resolution → Resolution) (report : Report), SameResolution f ∧ s.complete r outcome =
      { s with
        finished := s.finished ++ [(r.endpoint.id, outcome)]
        limiter := (s.complete r outcome).limiter
        resolutions := (s.resolutions.map f).filter (·.id != r.id)
        pending := s.pending.leave r.endpoint.id
        ready := (s.complete r outcome).ready
        journal := s.journal ++ [.reported report, .completed r.id r.endpoint outcome] } := by
  obtain ⟨told, htold⟩ : ∃ told : Report, s.complete r outcome =
      retire r (releasePermit (log (.completed r.id r.endpoint outcome)
        { s.report told with finished := s.finished ++ [(r.endpoint.id, outcome)] })) := by
    cases outcome with
    | registered n => exact ⟨.imported r.endpoint.id n, rfl⟩
    | noContainers => exact ⟨.notImported r.endpoint.id .noContainers, rfl⟩
    | noReferences => exact ⟨.notImported r.endpoint.id .noReferences, rfl⟩
    | nothingRegistered n => exact ⟨.notImported r.endpoint.id (.nothingRegistered n), rfl⟩
  obtain ⟨f, hf, heq⟩ := releasePermit_eq (log (.completed r.id r.endpoint outcome)
    { s.report told with finished := s.finished ++ [(r.endpoint.id, outcome)] })
  refine ⟨f, told, hf, ?_⟩
  rw [htold, heq]
  simp only [retire, log, report, List.append_assoc, List.cons_append, List.nil_append]

/-! ## Imports -/

theorem noteImport_eq (h : Handle) (reference : Reference) (s : Site) :
    s.noteImport h reference =
      { s with
        space := { s.space with
          store := { s.space.store with
            imports := (s.noteImport h reference).space.store.imports } }
        journal := s.journal ++
          if s.space.plain then [] else [.called (.imported h reference)] } := by
  unfold noteImport
  split
  · rw [List.append_nil]
  · rfl

theorem recordProxy_eq (e : Endpoint) (c : Candidate) (r : Reference) (h : Handle)
    (i : Importing) :
    recordProxy e c r h i =
      match i.site.ledger.register e c.id r h i.subscription with
      | .ok (admission, ledger) =>
        { site := log (.recorded e c r h admission) { i.site with ledger }
          subscription := match admission with
            | .created => none
            | .joined => i.subscription
          tally := { i.tally with registered := i.tally.registered + 1 } }
      | .error rejection =>
        { i with
          site := (i.site.report (.raceLost c.id r rejection)).tearDown [h]
          tally := { i.tally with rejected := i.tally.rejected + 1 } } := by
  unfold recordProxy Ledger.enroll
  cases i.site.ledger.register e c.id r h i.subscription with
  | error rejection => rfl
  | ok taken =>
    obtain ⟨admission, ledger⟩ := taken
    cases admission <;> rfl

theorem record_eq (e : Endpoint) (c : ContainerId) (r : Reference) (h : Handle)
    (x : Option Subscription) (s : Site) :
    s.record e c r h x =
      match s.ledger.register e c r h x with
      | .error rejection => (.error rejection, s.cancel x)
      | .ok (.created, ledger) => (.ok .created, { s with ledger })
      | .ok (.joined, ledger) => (.ok .joined, cancel x { s with ledger }) := by
  unfold record Ledger.enroll
  cases s.ledger.register e c r h x with
  | error rejection => rfl
  | ok taken =>
    obtain ⟨admission, ledger⟩ := taken
    cases admission <;> rfl

theorem leavesJobs_recordProxy (e : Endpoint) (c : Candidate) (reference : Reference) (h : Handle)
    (i : Importing) : LeavesJobs i.site (recordProxy e c reference h i).site := by
  rw [recordProxy_eq]
  split
  · rfl
  · exact (leavesJobs_log _ _).trans (leavesJobs_tearDown _ _)

theorem leavesJobs_recordRegistered (r : Resolution) (c : Candidate) (x : Option Subscription)
    (reference : Reference) (properties : Properties) (h : Handle) (store : ServiceSpace)
    (s : Site) :
    LeavesJobs s (s.recordRegistered r c x reference properties h store).site := by
  unfold recordRegistered
  refine LeavesJobs.trans ?_ (leavesJobs_recordProxy _ _ _ _ _)
  rw [noteImport_eq]
  rfl

/-! ## Commands -/

/-- Only what the importer works with changes, and what can run: the adapters, the registry, the
hubs, and how the space behaves. -/
def Surrounds (s t : Site) : Prop :=
  t = { s with
    registry := t.registry
    adapters := t.adapters
    hubs := t.hubs
    idleFeeds := t.idleFeeds
    ready := t.ready
    space := { s.space with
      store := { s.space.store with imports := t.space.store.imports }
      failRegister := t.space.failRegister
      failUnregister := t.space.failUnregister } }

/-- What carrying out a command comes to. -/
inductive Performed (s : Site) : Command → Site → Prop
  | surround {c : Command} {t : Site} : Surrounds s t → Performed s c t
  | place {c : Command} (locations : Locations) : c.placesLocation = true →
      Performed s c { s with locations }
  | report {c : Command} (r : Report) : Performed s c (s.report r)
  | available {c : Command} (e : Endpoint) : c.usesImporter = true → Performed s c (s.available e)
  | unavailable {c : Command} (e : Endpoint) : c.usesImporter = true →
      Performed s c (s.unavailable e)
  | shutdown : Performed s .shutdown s.shutdown
  | collect : Performed s .collect s.collect.2
  | dropImporter (keepLedger : Bool) :
      Performed s (.dropImporter keepLedger) (s.dropImporter keepLedger)
  | attach : Performed s .attach s.attach
  | abortFeed (i : Nat) : Performed s (.abortFeed i) (s.abortFeed i)
  | withdrawService (key : String) (reference : Nat) :
      Performed s (.withdrawService key reference) (s.withdrawService key reference).2
  | emit (key : String) (reference : Reference) (host : Option ContainerId) :
      Performed s (.emit key reference host) (s.emit key reference host).2
  | bypass {c : Command} : c.bypassesImporter = true → Performed s c (s.perform c)

theorem performed_notify (news : Notification) (s : Site) :
    Performed s (.notify news) (s.notify news) := by
  unfold notify
  split
  · exact .report _
  · exact .report _
  · split
    · exact .available _ rfl
    · exact .unavailable _ rfl
    · exact .surround rfl
    · exact .surround rfl

theorem performed (s : Site) (c : Command) : Performed s c (s.perform c) := by
  cases c with
  | available e => exact .available e rfl
  | unavailable e => exact .unavailable e rfl
  | notify news => exact performed_notify news s
  | shutdown => exact .shutdown
  | collect => exact .collect
  | dropImporter keepLedger => exact .dropImporter keepLedger
  | attach => exact .attach
  | acceptLocation l | releaseLocation l => exact .place _ rfl
  | abortFeed i => exact .abortFeed i
  | withdrawService key reference => exact .withdrawService key reference
  | emit key reference host => exact .emit key reference host
  | unregister h => exact .bypass rfl
  | record e c reference h x => exact .bypass rfl
  | unrecordEndpoint e => exact .bypass rfl
  | unrecordReference c reference => exact .bypass rfl
  | publish news =>
    apply Performed.surround
    unfold perform Surrounds
    simp only
    rw [publish_eq]
  | closeHub =>
    apply Performed.surround
    unfold perform Surrounds
    simp only
    rw [closeHub_eq]
  | publishService key interfaces properties =>
    apply Performed.surround
    unfold perform Surrounds
    simp only
    rw [publishService_eq]
  | setGate key closed =>
    apply Performed.surround
    unfold perform Surrounds
    simp only
    rw [setGate_eq]
  | observe key label =>
    apply Performed.surround
    unfold perform Surrounds
    simp only
    rw [subscribe_eq]
  | _ => exact .surround rfl

end ServiceImport.Site

import ServiceImport.Proofs.Site.Proxies

/-! # What a change comes to

Whatever happens at a site, it is one of a few things: an endpoint comes or leaves, a proxy is
recorded, or nothing new is there. The journal tells which resolutions are in flight.
-/

namespace ServiceImport

/-! ## The journal -/

namespace Event

/-- The endpoint whose coming or going an entry tells. -/
def news? : Event → Option Endpoint
  | .arrived e | .left e => some e
  | _ => none

/-- The resolution whose end an entry tells. -/
def ends? : Event → Option Nat
  | .completed n .. | .aborted n _ => some n
  | _ => none

/-- Whether an entry tells neither news nor how a resolution comes or goes. -/
def isMinor : Event → Bool
  | .arrived _ | .left _ | .started .. | .completed .. | .aborted .. => false
  | _ => true

theorem isMinor_of_isCall {event : Event} (h : event.isCall = true) : event.isMinor = true := by
  cases event <;> first | rfl | cases h

theorem ends?_of_isMinor {event : Event} (h : event.isMinor = true) :
    event.ends? = none := by
  cases event with
  | completed _ _ _ | aborted _ _ => simp [Event.isMinor] at h
  | _ => rfl

theorem ne_started_of_isMinor {event : Event} (h : event.isMinor = true) (n : Nat) (e : Endpoint) :
    event ≠ .started n e := by
  rintro rfl
  simp [Event.isMinor] at h

theorem ne_left_of_isMinor {event : Event} (h : event.isMinor = true) (e : Endpoint) :
    event ≠ .left e := by
  rintro rfl
  simp [Event.isMinor] at h

end Event

/-- A resolution was started and has not ended, as far as a journal tells. -/
def InFlight (journal : List Event) (n : Nat) (e : Endpoint) : Prop :=
  .started n e ∈ journal ∧ ∀ event ∈ journal, event.ends? ≠ some n

theorem InFlight.append {journal events : List Event} {n : Nat} {e : Endpoint}
    (h : InFlight journal n e) (on : ∀ event ∈ events, event.ends? ≠ some n) :
    InFlight (journal ++ events) n e := by
  refine ⟨List.mem_append_left _ h.1, ?_⟩
  intro event he
  rcases List.mem_append.1 he with he | he
  · exact h.2 event he
  · exact on event he

theorem InFlight.of_append {journal events : List Event} {n : Nat} {e : Endpoint}
    (h : InFlight (journal ++ events) n e) (old : .started n e ∉ events) : InFlight journal n e :=
  ⟨(List.mem_append.1 h.1).resolve_right old, fun event he => h.2 event (List.mem_append_left _ he)⟩

namespace Site

variable {s t u : Site}

/-! ## Steps that bring nothing new -/

/-- No mapping, registration or resolution is new. -/
structure Shrinks (s t : Site) : Prop where
  records : ∀ q ∈ t.ledger.records, ∃ p ∈ s.ledger.records,
    p.key = q.key ∧ q.mappings ⊆ p.mappings
  entries : t.space.store.entries ⊆ s.space.store.entries
  resolutions : ∀ q ∈ t.resolutions, ∃ p ∈ s.resolutions, p.id = q.id ∧ p.endpoint = q.endpoint
  started : t.started = s.started

/-- Moreover no news is told, and those resolutions are told to end that are in flight no more. -/
structure Dwindles (s t : Site) : Prop extends Shrinks s t where
  journal : ∃ events, t.journal = s.journal ++ events ∧
    (∀ event ∈ events, event.isMinor = true ∨
      ∃ p ∈ s.resolutions, event.ends? = some p.id ∧ ∀ q ∈ t.resolutions, q.id ≠ p.id) ∧
    ∀ p ∈ s.resolutions, (∃ q ∈ t.resolutions, q.id = p.id ∧ q.endpoint = p.endpoint) ∨
      ∃ event ∈ events, event.ends? = some p.id

theorem Shrinks.trans (hst : Shrinks s t) (htu : Shrinks t u) : Shrinks s u where
  records q hq := by
    obtain ⟨p, hp, hkey, hsub⟩ := htu.records q hq
    obtain ⟨o, ho, hkey', hsub'⟩ := hst.records p hp
    exact ⟨o, ho, hkey'.trans hkey, List.Subset.trans hsub hsub'⟩
  entries := List.Subset.trans htu.entries hst.entries
  resolutions q hq := by
    obtain ⟨p, hp, hid, hendpoint⟩ := htu.resolutions q hq
    obtain ⟨o, ho, hid', hendpoint'⟩ := hst.resolutions p hp
    exact ⟨o, ho, hid'.trans hid, hendpoint'.trans hendpoint⟩
  started := htu.started.trans hst.started

theorem Dwindles.trans (hst : Dwindles s t) (htu : Dwindles t u) : Dwindles s u where
  toShrinks := hst.toShrinks.trans htu.toShrinks
  journal := by
    obtain ⟨events, hjournal, hevents, hends⟩ := hst.journal
    obtain ⟨events', hjournal', hevents', hends'⟩ := htu.journal
    refine ⟨events ++ events', by rw [hjournal', hjournal, List.append_assoc], ?_, ?_⟩
    · intro event he
      rcases List.mem_append.1 he with he | he
      · rcases hevents event he with minor | ⟨p, hp, hend, gone⟩
        · exact .inl minor
        · refine .inr ⟨p, hp, hend, ?_⟩
          intro q hq
          obtain ⟨o, ho, hid, _⟩ := htu.resolutions q hq
          rw [← hid]
          exact gone o ho
      · rcases hevents' event he with minor | ⟨p, hp, hend, gone⟩
        · exact .inl minor
        · obtain ⟨o, ho, hid, _⟩ := hst.resolutions p hp
          exact .inr ⟨o, ho, hid ▸ hend, fun q hq => hid ▸ gone q hq⟩
    · intro p hp
      rcases hends p hp with ⟨q, hq, hid, hendpoint⟩ | ⟨event, he, hend⟩
      · rcases hends' q hq with ⟨o, ho, hid', hendpoint'⟩ | ⟨event, he, hend⟩
        · exact .inl ⟨o, ho, hid'.trans hid, hendpoint'.trans hendpoint⟩
        · exact .inr ⟨event, List.mem_append_right _ he, hid ▸ hend⟩
      · exact .inr ⟨event, List.mem_append_left _ he, hend⟩

theorem Dwindles.of_eq (ledger : t.ledger = s.ledger)
    (entries : t.space.store.entries = s.space.store.entries)
    (resolutions : t.resolutions = s.resolutions) (started : t.started = s.started)
    {events : List Event} (journal : t.journal = s.journal ++ events)
    (minor : ∀ event ∈ events, event.isMinor = true) : Dwindles s t where
  records q hq := ⟨q, ledger ▸ hq, rfl, List.Subset.refl _⟩
  entries := by
    rw [entries]
    exact List.Subset.refl _
  resolutions q hq := ⟨q, resolutions ▸ hq, rfl, rfl⟩
  started := started
  journal := ⟨events, journal, fun event he => .inl (minor event he),
    fun p hp => .inl ⟨p, resolutions ▸ hp, rfl, rfl⟩⟩

theorem Dwindles.of_unchanged (ledger : t.ledger = s.ledger)
    (entries : t.space.store.entries = s.space.store.entries)
    (resolutions : t.resolutions = s.resolutions) (started : t.started = s.started)
    (journal : t.journal = s.journal) : Dwindles s t :=
  .of_eq ledger entries resolutions started (journal.trans (List.append_nil _).symm) (by simp)

theorem Dwindles.refl (s : Site) : Dwindles s s := .of_unchanged rfl rfl rfl rfl rfl

theorem Dwindles.foldl {α : Type} {f : Site → α → Site} (h : ∀ s a, Dwindles s (f s a)) (s : Site)
    (l : List α) : Dwindles s (l.foldl f s) :=
  List.foldlRecOn l f (Dwindles.refl s) fun t ht a _ => ht.trans (h t a)

theorem dwindles_log (s : Site) {e : Event} (h : e.isMinor = true) : Dwindles s (s.log e) :=
  .of_eq rfl rfl rfl rfl rfl (by simpa using h)

theorem dwindles_cancelAll (records : List Record) (s : Site) :
    Dwindles s (cancelAll records s) := by
  rw [cancelAll_eq]
  exact .of_unchanged rfl rfl rfl rfl rfl

theorem dwindles_ledger {ledger : Ledger} {locations : Locations}
    (records : ∀ q ∈ ledger.records, ∃ p ∈ s.ledger.records,
      p.key = q.key ∧ q.mappings ⊆ p.mappings) :
    Dwindles s { s with ledger, locations } where
  records := records
  entries := List.Subset.refl _
  resolutions q hq := ⟨q, hq, rfl, rfl⟩
  started := rfl
  journal := ⟨[], (List.append_nil _).symm, by simp, fun p hp => .inl ⟨p, hp, rfl, rfl⟩⟩

theorem dwindles_tearDownOne (s : Site) (h : Handle) : Dwindles s (s.tearDownOne h) := by
  obtain ⟨_, events, journal, _, told, entries⟩ := tearDownOne_cases s h
  obtain ⟨_, _, _, heq⟩ := tearDownOne_eq s h
  have ledger : (s.tearDownOne h).ledger = s.ledger := by rw [heq]
  have minor : ∀ event ∈ events, event.isMinor = true := fun event he =>
    Event.isMinor_of_isCall (told event he).2
  have frame := leavesJobs_tearDownOne s h
  have resolutions : (s.tearDownOne h).resolutions = s.resolutions := by rw [frame]
  refine ⟨⟨?_, ?_, ?_, by rw [frame]⟩, events, journal, fun event he => .inl (minor event he), ?_⟩
  · rw [ledger]
    exact fun q hq => ⟨q, hq, rfl, List.Subset.refl _⟩
  · rw [entries]
    split
    · exact List.filter_sublist.subset
    · exact List.Subset.refl _
  · rw [resolutions]
    exact fun q hq => ⟨q, hq, rfl, rfl⟩
  · rw [resolutions]
    exact fun p hp => .inl ⟨p, hp, rfl, rfl⟩

theorem dwindles_tearDown (handles : List Handle) (s : Site) : Dwindles s (s.tearDown handles) :=
  Dwindles.foldl dwindles_tearDownOne s handles

theorem dwindles_removeReference (c : ContainerId) (reference : Nat) (s : Site) :
    Dwindles s (s.removeReference c reference) := by
  have withdrawn : Dwindles s { s with ledger := (s.ledger.withdrawReference c reference).2 } := by
    apply dwindles_ledger
    intro q hq
    obtain ⟨p, hp, same, hsub⟩ := Ledger.exists_of_mem_withdrawReference hq
    exact ⟨p, hp, Record.key_eq same, hsub⟩
  have start := withdrawn.trans (dwindles_cancelAll
    (s.ledger.withdrawReference c reference).1.disposed _)
  unfold removeReference
  dsimp only
  split
  · exact start
  · refine (start.trans (dwindles_tearDown _ _)).trans (Dwindles.foldl ?_ _ _)
    intro t r
    rw [noteEmptied_eq]
    exact .of_eq rfl rfl rfl rfl rfl (by simp [Event.isMinor])

theorem dwindles_deliver (listeners : List Listener) (removal : Removal) (s : Site) :
    Dwindles s (s.deliver listeners removal) := by
  refine Dwindles.foldl ?_ s listeners
  intro s l
  unfold hear
  split
  · exact dwindles_log s rfl
  · split
    · exact dwindles_removeReference _ _ _
    · exact Dwindles.refl s

theorem dwindles_releaseLedger (s : Site) : Dwindles s s.releaseLedger := by
  unfold releaseLedger
  split
  · exact Dwindles.refl s
  · refine Dwindles.trans ?_ (dwindles_cancelAll _ _)
    exact dwindles_ledger (by simp)

/-! ## What a change comes to -/

/-- A change tells that an endpoint comes or goes, records a proxy, or brings nothing new. -/
inductive Course (m n : Moment) : Prop
  | dwindles : Dwindles m.site n.site → Course m n
  | available (e : Endpoint) : n.site = m.site.available e → Course m n
  | unavailable (e : Endpoint) : m.site.isAlive = true → n.site = m.site.unavailable e → Course m n
  | register (r : Resolution) (c : Candidate) (x : Option Subscription) (reference : Reference)
      (registration : Registration) (h : Handle) (store : ServiceSpace) :
      m.phase = .registering r c x reference registration →
      m.site.space.store.register registration = .ok (h, store) →
      n.site = (m.site.recordRegistered r c x reference registration.properties h store).site →
      Course m n

theorem dwindles_map {f : Resolution → Resolution} (same : SameResolution f)
    (ledger : t.ledger = s.ledger) (entries : t.space.store.entries = s.space.store.entries)
    (resolutions : t.resolutions = s.resolutions.map f) (started : t.started = s.started)
    (journal : t.journal = s.journal) : Dwindles s t where
  records q hq := ⟨q, ledger ▸ hq, rfl, List.Subset.refl _⟩
  entries := by
    rw [entries]
    exact List.Subset.refl _
  resolutions q hq := by
    rw [resolutions] at hq
    obtain ⟨p, hp, rfl⟩ := List.mem_map.1 hq
    exact ⟨p, hp, (same p).1.symm, (same p).2.symm⟩
  started := started
  journal := by
    refine ⟨[], journal.trans (List.append_nil _).symm, by simp, ?_⟩
    intro p hp
    rw [resolutions]
    exact .inl ⟨f p, List.mem_map_of_mem hp, same p⟩

theorem dwindles_abortResolutions (resolutions : List Resolution) (s : Site) :
    Dwindles s (resolutions.foldl abortResolution s) := by
  refine Dwindles.foldl ?_ s resolutions
  intro s r
  rw [abortResolution_eq]
  refine dwindles_map (f := fun q => if q.id = r.id then { q with aborted := true } else q) ?_
    rfl rfl rfl rfl rfl
  intro q
  dsimp only
  split
  · exact ⟨rfl, rfl⟩
  · exact ⟨rfl, rfl⟩

theorem Performed.course {c : Command} {p : Phase} (done : Performed s c t)
    (inside : c.bypassesImporter = false) (alive : c.usesImporter = true → s.isAlive = true) :
    Course ⟨s, p⟩ ⟨t, p⟩ := by
  cases done with
  | surround h =>
    apply Course.dwindles
    apply Dwindles.of_unchanged
    all_goals
      dsimp only
      rw [h]
  | place locations _ => exact .dwindles (.of_unchanged rfl rfl rfl rfl rfl)
  | report r => exact .dwindles (dwindles_log s rfl)
  | available e _ => exact .available e rfl
  | unavailable e uses => exact .unavailable e (alive uses) rfl
  | shutdown =>
    refine .dwindles ((dwindles_abortResolutions s.resolutions s).trans ?_)
    unfold Site.shutdown
    dsimp only
    rw [abortFeeds_eq]
    exact .of_unchanged rfl rfl rfl rfl rfl
  | collect => exact .dwindles (.of_eq rfl rfl rfl rfl rfl (by simp [Event.isMinor]))
  | dropImporter keepLedger =>
    refine .dwindles (Dwindles.trans ?_ (dwindles_releaseLedger _))
    exact .of_unchanged rfl rfl rfl rfl rfl
  | attach =>
    obtain ⟨added, heq⟩ := attach_eq s
    rw [heq]
    exact .dwindles (.of_unchanged rfl rfl rfl rfl rfl)
  | abortFeed i =>
    rw [abortFeed_eq]
    exact .dwindles (.of_unchanged rfl rfl rfl rfl rfl)
  | withdrawService key reference =>
    unfold Site.withdrawService
    split
    · split
      · exact .dwindles (Dwindles.refl s)
      · refine .dwindles (Dwindles.trans ?_ (dwindles_deliver _ _ _))
        exact .of_eq rfl rfl rfl rfl rfl (by simp [Event.isMinor])
    · exact .dwindles (Dwindles.refl s)
  | emit key reference host =>
    unfold Site.emit
    split
    · exact .dwindles (Dwindles.refl s)
    · exact .dwindles (dwindles_deliver _ _ _)
  | bypass h => simp [inside] at h

theorem dwindles_setStage (n : Nat) (stage : Stage) (s : Site) :
    Dwindles s (s.setStage n stage) := by
  refine dwindles_map (f := fun q => if q.id = n then { q with stage } else q) ?_
    rfl rfl rfl rfl rfl
  intro q
  dsimp only
  split
  · exact ⟨rfl, rfl⟩
  · exact ⟨rfl, rfl⟩

theorem dwindles_end {r : Resolution} {f : Resolution → Resolution} (same : SameResolution f)
    (there : ∃ p ∈ s.resolutions, p.id = r.id) (ledger : t.ledger = s.ledger)
    (entries : t.space.store.entries = s.space.store.entries)
    (resolutions : t.resolutions = (s.resolutions.map f).filter (·.id != r.id))
    (started : t.started = s.started) {events : List Event}
    (journal : t.journal = s.journal ++ events)
    (told : ∀ event ∈ events, event.isMinor = true ∨ event.ends? = some r.id)
    (ended : ∃ event ∈ events, event.ends? = some r.id) : Dwindles s t where
  records q hq := ⟨q, ledger ▸ hq, rfl, List.Subset.refl _⟩
  entries := by
    rw [entries]
    exact List.Subset.refl _
  resolutions q hq := by
    rw [resolutions] at hq
    obtain ⟨p, hp, rfl⟩ := List.mem_map.1 (List.mem_of_mem_filter hq)
    exact ⟨p, hp, (same p).1.symm, (same p).2.symm⟩
  started := started
  journal := by
    refine ⟨events, journal, fun event he => (told event he).imp_right fun hend => ?_, ?_⟩
    · obtain ⟨p, hp, hid⟩ := there
      refine ⟨p, hp, hid ▸ hend, fun q hq => ?_⟩
      rw [resolutions, List.mem_filter] at hq
      rw [hid]
      simpa using hq.2
    · intro p hp
      by_cases hid : p.id = r.id
      · exact .inr (hid ▸ ended)
      · refine .inl ⟨f p, ?_, same p⟩
        rw [resolutions, List.mem_filter]
        exact ⟨List.mem_map_of_mem hp, by simpa [(same p).1] using hid⟩

theorem dwindles_discard {r : Resolution} (there : ∃ p ∈ s.resolutions, p.id = r.id) :
    Dwindles s (s.discard r) := by
  obtain ⟨f, same, heq⟩ := discard_eq r s
  rw [heq]
  exact dwindles_end same there rfl rfl rfl rfl rfl (by simp [Event.ends?]) (by simp [Event.ends?])

theorem dwindles_complete {r : Resolution} (there : ∃ p ∈ s.resolutions, p.id = r.id)
    (outcome : Outcome) : Dwindles s (s.complete r outcome) := by
  obtain ⟨f, report, same, heq⟩ := complete_eq r outcome s
  rw [heq]
  exact dwindles_end same there rfl rfl rfl rfl rfl (by simp [Event.ends?, Event.isMinor])
    (by simp [Event.ends?])

theorem Change.course {allowed : Command → Prop}
    (inside : ∀ c, allowed c → c.bypassesImporter = false) {m n : Moment}
    (change : Change allowed m n) (h : Coherent allowed m) : Course m n := by
  cases change with
  | @perform s p c ok uses =>
    exact (performed s c).course (inside c ok) fun hc => h.isAlive (uses hc)
  | report report => exact .dwindles (dwindles_log _ rfl)
  | plan _ => exact .dwindles (.of_unchanged rfl rfl rfl rfl rfl)
  | take _ => exact .dwindles (.of_unchanged rfl rfl rfl rfl rfl)
  | release => exact .dwindles (dwindles_releaseLedger _)
  | discard there _ =>
    exact .dwindles (dwindles_discard ⟨_, (mem_of_resolution? there).1, rfl⟩)
  | @queue s r _ _ _ =>
    exact .dwindles ((dwindles_setStage r.id .queued s).trans (.of_unchanged rfl rfl rfl rfl rfl))
  | @enter s r _ _ _ =>
    exact .dwindles ((dwindles_setStage r.id .running s).trans (.of_unchanged rfl rfl rfl rfl rfl))
  | resume _ _ => exact .dwindles (dwindles_setStage _ _ _)
  | countLookups c => exact .dwindles (.of_unchanged rfl rfl rfl rfl rfl)
  | await _ _ _ =>
    exact .dwindles ((dwindles_setStage _ _ _).trans (.of_unchanged rfl rfl rfl rfl rfl))
  | drop there _ => exact .dwindles (dwindles_discard ⟨_, (mem_of_resolution? there).1, rfl⟩)
  | complete outcome =>
    obtain ⟨now, hnow, hid, _⟩ := h.turn _ rfl
    exact .dwindles (dwindles_complete ⟨now, hnow, hid⟩ outcome)
  | subscribe c _ =>
    rw [subscribe_eq]
    exact .dwindles (.of_eq rfl rfl rfl rfl rfl (by simp [Event.isMinor]))
  | prepare _ _ =>
    exact .dwindles ((dwindles_log _ rfl).trans (.of_unchanged rfl rfl rfl rfl rfl))
  | refuse _ => exact .dwindles (dwindles_log _ rfl)
  | fault _ _ => exact .dwindles (Dwindles.refl _)
  | @register s r c x reference registration a store _ ok =>
    exact .register r c x reference registration a store rfl ok rfl
  | unsubscribe =>
    rw [cancel_eq]
    exact .dwindles (.of_unchanged rfl rfl rfl rfl rfl)
  | read _ _ _ _ => exact .dwindles (.of_unchanged rfl rfl rfl rfl rfl)
  | @notify s i news =>
    exact (performed_notify news s).course rfl fun _ => h.isAlive (.inr (by simp))
  | rest => exact .dwindles (.of_unchanged rfl rfl rfl rfl rfl)
  | finish f => exact .dwindles (.of_unchanged rfl rfl rfl rfl rfl)
  | abandon _ _ _ => exact .dwindles (.of_unchanged rfl rfl rfl rfl rfl)

/-! ## What there is after a change -/

/-- A proxy that was registered is recorded. Where the ledger refuses it, it is taken away again, or
it is one that could not be unregistered. -/
theorem recordRegistered_cases {registration : Registration} {h : Handle} {store : ServiceSpace}
    (ok : s.space.store.register registration = .ok (h, store)) (r : Resolution) (c : Candidate)
    (x : Option Subscription) (reference : Reference) (properties : Properties)
    (result : t = (s.recordRegistered r c x reference properties h store).site) :
    ∃ events, t.journal = s.journal ++ events ∧ (∀ event ∈ events, event.isMinor = true) ∧
      ((∃ admission, .recorded r.endpoint c reference h admission ∈ events ∧
          s.ledger.register r.endpoint c.id reference h x = .ok (admission, t.ledger) ∧
          t.space.store.entries = s.space.store.entries ++ [(h.id, registration)]) ∨
        (t.ledger = s.ledger ∧ ∀ entry ∈ t.space.store.entries, entry ∈ s.space.store.entries ∨
          entry = (h.id, registration) ∧ h ∈ t.unremoved)) := by
  obtain ⟨_, hid, hstore⟩ := ServiceSpace.register_eq_ok_iff.1 ok
  have new : store.entries = s.space.store.entries ++ [(h.id, registration)] := by rw [hstore, hid]
  obtain ⟨_, _, events, calls, recorded⟩ :=
    importing_recordRegistered r c x reference properties h store s rfl
  rw [← result, new] at recorded
  have minor : ∀ event ∈ events, event.isMinor = true := fun event he =>
    Event.isMinor_of_isCall (calls event he)
  rcases recorded with ⟨admission, hregister, _, journal, entries⟩ | ⟨ledger, _, journal, left⟩
  · refine ⟨events ++ [.recorded r.endpoint c reference h admission], ?_, ?_,
      .inl ⟨admission, by simp, hregister, entries⟩⟩
    · rw [journal, List.append_assoc]
    · intro event he
      rcases List.mem_append.1 he with he | he
      · exact minor event he
      · rw [List.mem_singleton.1 he]
        rfl
  · refine ⟨events, journal, minor, .inr ⟨ledger, fun entry hentry => ?_⟩⟩
    obtain ⟨hentry, gone⟩ := left entry hentry
    refine (List.mem_append.1 hentry).imp_right fun hentry => ?_
    obtain rfl := List.mem_singleton.1 hentry
    obtain ⟨fault, stuck⟩ := gone.resolve_left fun hne => hne rfl
    exact ⟨rfl, mem_unremoved.2 ⟨fault, journal ▸ List.mem_append_right _ stuck⟩⟩

theorem available_cases (e : Endpoint) (s : Site) :
    ∃ events, (s.available e).journal = s.journal ++ events ∧ .arrived e ∈ events ∧
      (∀ event ∈ events, event.ends? = none ∧ ∀ e', event ≠ .left e') ∧
      (s.available e).ledger = s.ledger ∧ (s.available e).space = s.space ∧
      (((s.available e).resolutions = s.resolutions ∧ (s.available e).started = s.started ∧
          ∀ n e', .started n e' ∉ events) ∨
        ((s.available e).resolutions = s.resolutions ++ [{ id := s.started, endpoint := e }] ∧
          (s.available e).started = s.started + 1 ∧
          ∀ n e', .started n e' ∈ events ↔ n = s.started ∧ e' = e)) := by
  cases h : s.locations.contains e.location with
  | true =>
    rw [available_of_contains h]
    exact ⟨[.arrived e], rfl, by simp, by simp [Event.ends?], rfl, rfl, .inl ⟨rfl, rfl, by simp⟩⟩
  | false =>
    rw [available_of_not_contains h]
    refine ⟨_, rfl, by simp, ?_, rfl, rfl, .inr ⟨rfl, rfl, ?_⟩⟩
    · intro event he
      split at he
      · simp only [List.cons_append, List.nil_append, List.mem_cons, List.not_mem_nil,
          or_false] at he
        rcases he with rfl | rfl | rfl <;> exact ⟨rfl, by simp⟩
      · simp only [List.cons_append, List.nil_append, List.mem_cons, List.not_mem_nil,
          or_false] at he
        rcases he with rfl | rfl <;> exact ⟨rfl, by simp⟩
    · intro n e'
      split
      · simp
      · simp

/-- A departure brings nothing new, and after its news nothing but minor things are told. -/
theorem unavailable_cases (e : Endpoint) (s : Site) :
    ∃ u, u.ledger = (s.ledger.withdrawEndpoint e.id).2 ∧ u.resolutions = s.resolutions ∧
      u.journal = s.journal ++ [.left e] ∧ Shrinks s u ∧ Dwindles u (s.unavailable e) := by
  obtain ⟨u, hu⟩ : ∃ u, u = log (.left e) (cancelAll (s.ledger.withdrawEndpoint e.id).1
    { s with
      locations := (s.locations.release e.location).2
      ledger := (s.ledger.withdrawEndpoint e.id).2 }) := ⟨_, rfl⟩
  have told := hu
  rw [cancelAll_eq] at told
  have ledger : u.ledger = (s.ledger.withdrawEndpoint e.id).2 := by rw [told]; rfl
  have space : u.space = s.space := by rw [told]; rfl
  have resolutions : u.resolutions = s.resolutions := by rw [told]; rfl
  refine ⟨u, ledger, resolutions, by rw [told]; rfl, ⟨?_, ?_, ?_, by rw [told]; rfl⟩, ?_⟩
  · rw [ledger]
    exact fun q hq => ⟨q, (Ledger.mem_withdrawEndpoint.1 hq).1, rfl, List.Subset.refl _⟩
  · rw [space]
    exact List.Subset.refl _
  · rw [resolutions]
    exact fun q hq => ⟨q, hq, rfl, rfl⟩
  · unfold unavailable
    dsimp only
    rw [← hu]
    split
    · exact Dwindles.refl _
    · exact (dwindles_tearDown _ _).trans (dwindles_log _ rfl)

/-! ## The journal tells what is in flight -/

/-- The resolutions that a site has are those that the journal tells to be in flight. -/
structure Journaled (s : Site) : Prop where
  ended : ∀ event ∈ s.journal, ∀ n, event.ends? = some n → n < s.started
  inFlight : ∀ r ∈ s.resolutions, InFlight s.journal r.id r.endpoint
  known : ∀ n e, InFlight s.journal n e → ∃ r ∈ s.resolutions, r.id = n ∧ r.endpoint = e

theorem Journaled.minor (j : Journaled s) (resolutions : t.resolutions = s.resolutions)
    (started : t.started = s.started) {events : List Event}
    (journal : t.journal = s.journal ++ events)
    (silent : ∀ event ∈ events, event.ends? = none ∧ ∀ n e, event ≠ .started n e) :
    Journaled t where
  ended := by
    rw [journal, started]
    intro event he n hends
    rcases List.mem_append.1 he with he | he
    · exact j.ended event he n hends
    · rw [(silent event he).1] at hends
      simp at hends
  inFlight := by
    rw [journal, resolutions]
    intro r hr
    refine (j.inFlight r hr).append fun event he => ?_
    rw [(silent event he).1]
    simp
  known := by
    rw [journal, resolutions]
    intro n e flight
    exact j.known n e (flight.of_append fun h => (silent _ h).2 n e rfl)

theorem Journaled.dwindles (j : Journaled s) (numbered : s.Numbered) (h : Dwindles s t) :
    Journaled t := by
  obtain ⟨events, journal, told, ends⟩ := h.journal
  constructor
  · rw [journal, h.started]
    intro event he n hends
    rcases List.mem_append.1 he with he | he
    · exact j.ended event he n hends
    · rcases told event he with minor | ⟨p, hp, hends', _⟩
      · rw [Event.ends?_of_isMinor minor] at hends
        simp at hends
      · obtain rfl : p.id = n := Option.some.inj (hends'.symm.trans hends)
        exact numbered.issued p hp
  · rw [journal]
    intro q hq
    obtain ⟨p, hp, hid, hendpoint⟩ := h.resolutions q hq
    rw [← hid, ← hendpoint]
    refine (j.inFlight p hp).append fun event he hends => ?_
    rcases told event he with minor | ⟨o, _, hends', gone⟩
    · rw [Event.ends?_of_isMinor minor] at hends
      simp at hends
    · exact gone q hq (hid.symm.trans (Option.some.inj (hends.symm.trans hends')))
  · rw [journal]
    intro n e flight
    have new : .started n e ∉ events := by
      intro hmem
      rcases told _ hmem with minor | ⟨_, _, hends, _⟩
      · simp [Event.isMinor] at minor
      · simp [Event.ends?] at hends
    obtain ⟨p, hp, hid, hendpoint⟩ := j.known n e (flight.of_append new)
    rcases ends p hp with ⟨q, hq, hid', hendpoint'⟩ | ⟨event, he, hends⟩
    · exact ⟨q, hq, hid'.trans hid, hendpoint'.trans hendpoint⟩
    · exact absurd (hid ▸ hends) (flight.2 event (List.mem_append_right _ he))

theorem Journaled.available (j : Journaled s) (e : Endpoint) : Journaled (s.available e) := by
  obtain ⟨events, journal, _, silent, _, _,
    ⟨resolutions, started, new⟩ | ⟨resolutions, started, new⟩⟩ := available_cases e s
  · refine j.minor resolutions started journal fun event he => ⟨(silent event he).1, ?_⟩
    rintro n e' rfl
    exact new n e' he
  · constructor
    · rw [journal, started]
      intro event he n hends
      rcases List.mem_append.1 he with he | he
      · exact Nat.lt_succ_of_lt (j.ended event he n hends)
      · rw [(silent event he).1] at hends
        simp at hends
    · rw [journal, resolutions]
      intro r hr
      have still : ∀ event ∈ events, event.ends? ≠ some r.id := by
        intro event he
        rw [(silent event he).1]
        simp
      rcases List.mem_append.1 hr with hr | hr
      · exact (j.inFlight r hr).append still
      · obtain rfl := List.mem_singleton.1 hr
        refine ⟨List.mem_append_right _ ((new _ _).2 ⟨rfl, rfl⟩), ?_⟩
        intro event he hends
        rcases List.mem_append.1 he with he | he
        · exact Nat.lt_irrefl _ (j.ended event he _ hends)
        · exact still event he hends
    · rw [journal, resolutions]
      intro n e' flight
      by_cases hnew : .started n e' ∈ events
      · obtain ⟨rfl, rfl⟩ := (new n e').1 hnew
        exact ⟨_, List.mem_append_right _ (List.mem_singleton_self _), rfl, rfl⟩
      · obtain ⟨r, hr, known⟩ := j.known n e' (flight.of_append hnew)
        exact ⟨r, List.mem_append_left _ hr, known⟩

theorem Journaled.unavailable (j : Journaled s) (numbered : s.Numbered) (e : Endpoint) :
    Journaled (s.unavailable e) := by
  obtain ⟨u, _, resolutions, journal, left, rest⟩ := unavailable_cases e s
  have told := j.minor resolutions left.started journal (by simp [Event.ends?])
  refine told.dwindles ⟨?_, ?_⟩ rest
  · rw [resolutions]
    exact numbered.nodup
  · rw [resolutions, left.started]
    exact numbered.issued

theorem Journaled.course {m n : Moment} (j : Journaled m.site) (numbered : m.site.Numbered)
    (course : Course m n) : Journaled n.site := by
  cases course with
  | dwindles h => exact j.dwindles numbered h
  | available e result =>
    rw [result]
    exact j.available e
  | unavailable e _ result =>
    rw [result]
    exact j.unavailable numbered e
  | register r c x reference registration h store _ ok result =>
    obtain ⟨events, journal, minor, _⟩ :=
      recordRegistered_cases ok r c x reference registration.properties result
    have frame :=
      leavesJobs_recordRegistered r c x reference registration.properties h store m.site
    refine j.minor ?_ ?_ journal fun event he =>
      ⟨Event.ends?_of_isMinor (minor event he), Event.ne_started_of_isMinor (minor event he)⟩
    · rw [result, frame]
    · rw [result, frame]

theorem minor_build {b : Blueprint} (h : Site.build b = .ok s) :
    ∀ event ∈ s.journal, event.isMinor = true := by
  obtain ⟨_, journal⟩ := build_eq h
  rcases journal with journal | journal
  · simp [journal]
  · simp [journal, Event.isMinor]

theorem journaled_build {b : Blueprint} (h : Site.build b = .ok s) : Journaled s := by
  obtain ⟨heq, _⟩ := build_eq h
  have told := minor_build h
  have resolutions : s.resolutions = [] := by rw [heq]
  refine ⟨?_, ?_, ?_⟩
  · intro event he n hends
    rw [Event.ends?_of_isMinor (told event he)] at hends
    simp at hends
  · simp [resolutions]
  · intro n e flight
    exact absurd rfl (Event.ne_started_of_isMinor (told _ flight.1) n e)

theorem Reachable.journaled (h : Reachable (·.bypassesImporter = false) s) : Journaled s :=
  (h.invariant (I := fun m => Journaled m.site) journaled_build fun coherent change j =>
    j.course coherent.numbered (change.course (fun _ ok => ok) coherent)).2

/-- The resolutions that a site has are in flight as its journal tells, and no others are. -/
theorem inFlight_iff (h : Reachable (·.bypassesImporter = false) s) (n : Nat) (e : Endpoint) :
    InFlight s.journal n e ↔ ∃ r ∈ s.resolutions, r.id = n ∧ r.endpoint = e := by
  refine ⟨h.journaled.known n e, ?_⟩
  rintro ⟨r, hr, rfl, rfl⟩
  exact h.journaled.inFlight r hr

end Site

end ServiceImport

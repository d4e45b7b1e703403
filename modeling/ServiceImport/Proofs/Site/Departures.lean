import ServiceImport.Proofs.Site.Courses
import ServiceImport.Proofs.ProxyProperties

/-! # What is left of an endpoint that went away

The news that an endpoint is gone takes its records and proxies away, and stops no resolution. So
what is there of the endpoint afterwards was recorded by a resolution that was in flight when the
news was handled. When there was none, nothing is left.
-/

namespace ServiceImport

/-- A handle was recorded after the first part of a journal, for an endpoint, by a resolution that
was in flight at the end of that part. -/
def RecordedLate (before after : List Event) (id : String) (h : Handle) : Prop :=
  ∃ n e c reference admission, e.id = id ∧ InFlight before n e ∧
    .recorded e c reference h admission ∈ after

theorem RecordedLate.append {before after : List Event} {id : String} {h : Handle}
    (late : RecordedLate before after id h) (events : List Event) :
    RecordedLate before (after ++ events) id h := by
  obtain ⟨n, e, c, reference, admission, hid, flight, recorded⟩ := late
  exact ⟨n, e, c, reference, admission, hid, flight, List.mem_append_left _ recorded⟩

theorem exists_of_append_eq {journal events before after : List Event} {event : Event}
    (h : journal ++ events = before ++ event :: after) (old : event ∉ events) :
    ∃ rest, journal = before ++ event :: rest ∧ after = rest ++ events := by
  rcases List.append_eq_append_iff.1 h with ⟨rest, rfl, hevents⟩ | ⟨rest, hjournal, hafter⟩
  · exact absurd (by rw [hevents]; simp) old
  · cases rest with
    | nil => exact absurd (by rw [← List.nil_append events, ← hafter]; simp) old
    | cons first rest =>
      obtain ⟨rfl, rfl⟩ := List.cons.inj hafter
      exact ⟨rest, hjournal, rfl⟩

theorem last_or_before {journal before after : List Event} {event last : Event}
    (h : journal ++ [last] = before ++ event :: after) :
    (journal = before ∧ last = event ∧ after = []) ∨
      ∃ rest, journal = before ++ event :: rest ∧ after = rest ++ [last] := by
  rcases List.eq_nil_or_concat after with rfl | ⟨rest, x, rfl⟩
  · obtain ⟨hjournal, hlast⟩ := List.append_inj' h rfl
    exact .inl ⟨hjournal, (List.cons.inj hlast).1, rfl⟩
  · rw [List.concat_eq_append, ← List.cons_append, ← List.append_assoc] at h
    obtain ⟨hjournal, hlast⟩ := List.append_inj' h rfl
    obtain rfl := (List.cons.inj hlast).1
    exact .inr ⟨rest, hjournal, List.concat_eq_append⟩

namespace Site

variable {s t u : Site}

/-! ## Registrations carry their endpoint -/

/-- A proxy that is about to be registered is marked with the endpoint of its resolution. -/
def Prepared (m : Moment) : Prop :=
  ∀ r c x reference registration, m.phase = .registering r c x reference registration →
    registration.properties.get? Key.endpointId = some (.text r.endpoint.id)

theorem properties_prepareProxy {e : Endpoint} {c : Candidate} {reference : Reference}
    {registration : Registration} (h : s.prepareProxy e c reference = .ok registration) :
    registration.properties = proxyProperties s.settings e c reference := by
  unfold prepareProxy at h
  split at h
  · simp at h
  · next proxy _ =>
    split at h
    · simp at h
    · cases proxy with
      | error fault => simp [Except.map] at h
      | ok proxied =>
        rw [← Except.ok.inj h]

theorem Change.prepared {allowed : Command → Prop} {m n : Moment} (change : Change allowed m n)
    (h : Prepared m) : Prepared n := by
  intro r c x reference registration hphase
  cases change with
  | perform _ _ => exact h r c x reference registration hphase
  | report _ => exact h r c x reference registration hphase
  | prepare _ hprepare =>
    obtain ⟨rfl, rfl, rfl, rfl, rfl⟩ := Phase.registering.inj hphase
    rw [properties_prepareProxy hprepare, get?_proxyProperties_endpointId]
  | _ => simp at hphase

/-- The registrations behind a record are marked with its endpoint. -/
def Marked (s : Site) : Prop :=
  ∀ r ∈ s.ledger.records, ∀ p ∈ r.mappings, ∀ entry ∈ s.space.store.entries, entry.1 = p.2.id →
    entry.2.properties.get? Key.endpointId = some (.text r.key.endpointId)

theorem Shrinks.marked (h : Shrinks s t) (marked : Marked s) : Marked t := by
  intro q hq p hp entry hentry hid
  obtain ⟨o, ho, hkey, hsub⟩ := h.records q hq
  rw [← hkey]
  exact marked o ho p (hsub hp) entry (h.entries hentry) hid

theorem Balanced.entry_issued {atHand : List Handle} (b : Balanced atHand s)
    {entry : Nat × Registration} (h : entry ∈ s.space.store.entries) :
    entry.1 ≤ s.space.store.issued := by
  have live : ServiceSpace.handleOf entry ∈ atHand ++ s.ledger.handles ++ s.unremoved :=
    b.live.mem_iff.1 (List.mem_map_of_mem h)
  exact b.issued _ (((List.Sublist.refl _).append s.unremoved_sublist).subset live)

theorem Marked.register (marked : Marked s) (b : Balanced [] s) {r : Resolution} {c : Candidate}
    {x : Option Subscription} {reference : Reference} {registration : Registration} {h : Handle}
    {store : ServiceSpace}
    (prepared : registration.properties.get? Key.endpointId = some (.text r.endpoint.id))
    (ok : s.space.store.register registration = .ok (h, store))
    (result : t = (s.recordRegistered r c x reference registration.properties h store).site) :
    Marked t := by
  obtain ⟨_, hid, _⟩ := ServiceSpace.register_eq_ok_iff.1 ok
  have hid : h.id = s.space.store.issued + 1 := by rw [hid]
  have old : ∀ q ∈ s.ledger.records, ∀ p ∈ q.mappings, p.2.id ≤ s.space.store.issued := by
    intro q hq p hp
    apply b.issued
    rw [List.nil_append]
    exact List.mem_append_left _ (List.mem_flatMap.2 ⟨q, hq, List.mem_map_of_mem hp⟩)
  obtain ⟨_, _, _, ⟨admission, _, hregister, entries⟩ | ⟨ledger, entries⟩⟩ :=
    recordRegistered_cases ok r c x reference registration.properties result
  -- The new registration has a number that no older one has, and no older mapping.
  · intro q hq p hp entry hentry heq
    rw [entries, List.mem_append, List.mem_singleton] at hentry
    rcases Ledger.mem_register hregister hq hp with ⟨hkey, rfl⟩ | ⟨o, ho, same, hp⟩
    · rcases hentry with hentry | rfl
      · have := b.entry_issued hentry
        dsimp only at heq
        omega
      · rw [hkey]
        exact prepared
    · rw [← Record.key_eq same]
      rcases hentry with hentry | rfl
      · exact marked o ho p hp entry hentry heq
      · have := old o ho p hp
        dsimp only at heq
        omega
  · intro q hq p hp entry hentry heq
    rw [ledger] at hq
    rcases entries entry hentry with hentry | ⟨rfl, _⟩
    · exact marked q hq p hp entry hentry heq
    · have := old q hq p hp
      dsimp only at heq
      omega

/-! ## After a departure -/

/-- What is there of an endpoint was recorded late, by resolutions that were in flight when the
endpoint left. -/
structure Gone (before after : List Event) (id : String) (s : Site) : Prop where
  resolutions : ∀ r ∈ s.resolutions, r.endpoint.id = id → InFlight before r.id r.endpoint
  known : ∀ r ∈ s.ledger.records, r.key.endpointId = id → ∃ a, RecordedLate before after id a
  records : ∀ r ∈ s.ledger.records, r.key.endpointId = id →
    ∀ a ∈ r.handles, RecordedLate before after id a
  entries : ∀ entry ∈ s.space.store.entries,
    entry.2.properties.get? Key.endpointId = some (.text id) →
      ServiceSpace.handleOf entry ∈ s.unremoved ∨
        RecordedLate before after id (ServiceSpace.handleOf entry)

theorem unremoved_subset {events : List Event} (journal : t.journal = s.journal ++ events) :
    s.unremoved ⊆ t.unremoved := by
  unfold unremoved unregisterings
  rw [journal, List.filterMap_append, List.filter_append, List.map_append]
  exact List.subset_append_left _ _

theorem Gone.shrinks {before after : List Event} {id : String} (g : Gone before after id s)
    (h : Shrinks s t) {events : List Event} (journal : t.journal = s.journal ++ events) :
    Gone before (after ++ events) id t where
  resolutions q hq hid := by
    obtain ⟨p, hp, hn, hendpoint⟩ := h.resolutions q hq
    rw [← hn, ← hendpoint]
    exact g.resolutions p hp (hendpoint ▸ hid)
  known q hq hid := by
    obtain ⟨p, hp, hkey, _⟩ := h.records q hq
    obtain ⟨a, late⟩ := g.known p hp (hkey ▸ hid)
    exact ⟨a, late.append events⟩
  records q hq hid a ha := by
    obtain ⟨p, hp, hkey, hsub⟩ := h.records q hq
    exact (g.records p hp (hkey ▸ hid) a (List.map_subset _ hsub ha)).append events
  entries entry hentry hid :=
    (g.entries entry (h.entries hentry) hid).imp (fun hu => unremoved_subset journal hu)
      fun late => late.append events

theorem Gone.of_added {before after : List Event} {id : String} (g : Gone before after id s)
    {events : List Event} (journal : t.journal = s.journal ++ events)
    (resolutions : t.resolutions = s.resolutions)
    (known : ∀ q ∈ t.ledger.records, q.key.endpointId = id →
      (∃ a, RecordedLate before (after ++ events) id a) ∨ ∃ o ∈ s.ledger.records, o.key = q.key)
    (records : ∀ q ∈ t.ledger.records, q.key.endpointId = id → ∀ p ∈ q.mappings,
      RecordedLate before (after ++ events) id p.2 ∨
        ∃ o ∈ s.ledger.records, o.key = q.key ∧ p ∈ o.mappings)
    (entries : ∀ entry ∈ t.space.store.entries,
      entry.2.properties.get? Key.endpointId = some (.text id) →
        entry ∈ s.space.store.entries ∨ ServiceSpace.handleOf entry ∈ t.unremoved ∨
          RecordedLate before (after ++ events) id (ServiceSpace.handleOf entry)) :
    Gone before (after ++ events) id t where
  resolutions := by
    rw [resolutions]
    exact g.resolutions
  known q hq hid := by
    rcases known q hq hid with late | ⟨o, ho, hkey⟩
    · exact late
    · obtain ⟨a, late⟩ := g.known o ho (hkey ▸ hid)
      exact ⟨a, late.append events⟩
  records q hq hid a ha := by
    obtain ⟨p, hp, rfl⟩ := List.mem_map.1 ha
    rcases records q hq hid p hp with late | ⟨o, ho, hkey, hp⟩
    · exact late
    · exact (g.records o ho (hkey ▸ hid) p.2 (List.mem_map_of_mem hp)).append events
  entries entry hentry hid := by
    rcases entries entry hentry hid with hentry | new
    · exact (g.entries entry hentry hid).imp (fun hu => unremoved_subset journal hu)
        fun late => late.append events
    · exact new

theorem Gone.register {before after : List Event} {id : String} (g : Gone before after id s)
    {r : Resolution} {c : Candidate} {x : Option Subscription} {reference : Reference}
    {registration : Registration} {h : Handle} {store : ServiceSpace}
    (turn : ∃ now ∈ s.resolutions, now.id = r.id ∧ now.endpoint = r.endpoint)
    (prepared : registration.properties.get? Key.endpointId = some (.text r.endpoint.id))
    (ok : s.space.store.register registration = .ok (h, store))
    (result : t = (s.recordRegistered r c x reference registration.properties h store).site)
    {events : List Event} (journal : t.journal = s.journal ++ events) :
    Gone before (after ++ events) id t := by
  obtain ⟨_, hhandle, _⟩ := ServiceSpace.register_eq_ok_iff.1 ok
  have handle : ServiceSpace.handleOf (h.id, registration) = h := by rw [hhandle]; rfl
  have frame := leavesJobs_recordRegistered r c x reference registration.properties h store s
  rw [← result] at frame
  have resolutions : t.resolutions = s.resolutions := by rw [frame]
  obtain ⟨told, journal', _, cases'⟩ :=
    recordRegistered_cases ok r c x reference registration.properties result
  obtain rfl : told = events := List.append_cancel_left (journal'.symm.trans journal)
  have flight : r.endpoint.id = id → InFlight before r.id r.endpoint := by
    intro hid
    obtain ⟨now, hnow, hn, hendpoint⟩ := turn
    rw [← hn, ← hendpoint]
    exact g.resolutions now hnow (by rw [hendpoint]; exact hid)
  rcases cases' with ⟨admission, recorded, hregister, entries⟩ | ⟨ledger, entries⟩
  · have late : r.endpoint.id = id → RecordedLate before (after ++ told) id h := fun hid =>
      ⟨r.id, r.endpoint, c, reference, admission, hid, flight hid,
        List.mem_append_right _ recorded⟩
    refine g.of_added journal resolutions ?_ ?_ ?_
    · intro q hq hid
      rcases Ledger.record_of_mem_register hregister hq with ⟨_, made⟩ | ⟨o, ho, same⟩
      · have hkey : q.key = ⟨c.id, r.endpoint.id⟩ := congrArg RecordIdentity.key made
        rw [hkey] at hid
        exact .inl ⟨h, late hid⟩
      · exact .inr ⟨o, ho, Record.key_eq same⟩
    · intro q hq hid p hp
      refine (Ledger.mem_register hregister hq hp).imp ?_
        fun ⟨o, ho, same, hp⟩ => ⟨o, ho, Record.key_eq same, hp⟩
      rintro ⟨hkey, rfl⟩
      rw [hkey] at hid
      exact late hid
    · intro entry hentry hid
      rw [entries, List.mem_append, List.mem_singleton] at hentry
      refine hentry.imp_right ?_
      rintro rfl
      right
      rw [handle]
      rw [prepared] at hid
      exact late (Value.text.inj (Option.some.inj hid))
  · refine g.of_added journal resolutions ?_ ?_ ?_
    · rw [ledger]
      exact fun q hq _ => .inr ⟨q, hq, rfl⟩
    · rw [ledger]
      exact fun q hq _ p hp => .inr ⟨q, hq, rfl, hp⟩
    · intro entry hentry _
      refine (entries entry hentry).imp_right ?_
      rintro ⟨rfl, stuck⟩
      left
      rw [handle]
      exact stuck

/-- No entry tells that an endpoint came or went. -/
def Silent (id : String) (events : List Event) : Prop :=
  ∀ event ∈ events, ∀ e ∈ event.news?, e.id ≠ id

instance (id : String) (events : List Event) : Decidable (Silent id events) :=
  inferInstanceAs (Decidable (∀ event ∈ events, ∀ e ∈ event.news?, e.id ≠ id))

/-- After every departure that was not followed by news of its endpoint. -/
def Departed (s : Site) : Prop :=
  ∀ before e after, s.journal = before ++ .left e :: after → Silent e.id after →
    Gone before after e.id s

theorem Silent.of_append {id : String} {events events' : List Event}
    (h : Silent id (events ++ events')) : Silent id events ∧ Silent id events' :=
  ⟨fun event he => h event (List.mem_append_left _ he),
    fun event he => h event (List.mem_append_right _ he)⟩

theorem Dwindles.exists_journal (h : Dwindles s t) :
    ∃ events, t.journal = s.journal ++ events ∧ ∀ e, .left e ∉ events := by
  obtain ⟨events, journal, told, _⟩ := h.journal
  refine ⟨events, journal, fun e hmem => ?_⟩
  rcases told _ hmem with minor | ⟨_, _, hends, _⟩
  · simp [Event.isMinor] at minor
  · simp [Event.ends?] at hends

theorem Departed.dwindles (d : Departed s) (h : Dwindles s t) : Departed t := by
  obtain ⟨events, journal, old⟩ := h.exists_journal
  intro before e after heq silent
  obtain ⟨rest, hjournal, rfl⟩ := exists_of_append_eq (journal.symm.trans heq) (old e)
  exact (d before e rest hjournal silent.of_append.1).shrinks h.toShrinks journal

/-- When an endpoint leaves, its records go with their proxies, and the resolutions that the site
has are those that the journal tells of. -/
theorem gone_unavailable {e : Endpoint} {u : Site} (j : Journaled s) (b : Balanced [] t)
    (marked : Marked t) (ledger : u.ledger = (s.ledger.withdrawEndpoint e.id).2)
    (resolutions : u.resolutions = s.resolutions) (rest : Shrinks u t) {after : List Event} :
    Gone s.journal after e.id t := by
  have none : ∀ q ∈ t.ledger.records, q.key.endpointId ≠ e.id := by
    intro q hq
    obtain ⟨p, hp, hkey, _⟩ := rest.records q hq
    rw [ledger] at hp
    rw [← hkey]
    exact (Ledger.mem_withdrawEndpoint.1 hp).2
  refine ⟨?_, fun q hq hid => absurd hid (none q hq), fun q hq hid => absurd hid (none q hq), ?_⟩
  · intro q hq _
    obtain ⟨p, hp, hn, hendpoint⟩ := rest.resolutions q hq
    rw [resolutions] at hp
    rw [← hn, ← hendpoint]
    exact j.inFlight p hp
  · intro entry hentry hid
    left
    have live := b.live.mem_iff.1 (List.mem_map_of_mem (f := ServiceSpace.handleOf) hentry)
    rw [List.nil_append] at live
    rcases List.mem_append.1 live with live | live
    · obtain ⟨q, hq, hmem⟩ := List.mem_flatMap.1 live
      obtain ⟨p, hp, hhandle⟩ := List.mem_map.1 hmem
      have mark := marked q hq p hp entry hentry (by rw [hhandle]; rfl)
      rw [hid] at mark
      exact absurd (Value.text.inj (Option.some.inj mark)).symm (none q hq)
    · exact live

theorem Departed.unavailable (d : Departed s) {e : Endpoint} (j : Journaled s)
    (b : Balanced [] (s.unavailable e)) (marked : Marked (s.unavailable e)) :
    Departed (s.unavailable e) := by
  obtain ⟨u, ledger, resolutions, journal, left, rest⟩ := unavailable_cases e s
  obtain ⟨events, journal', old⟩ := rest.exists_journal
  intro before e' after heq silent
  obtain ⟨after', hjournal, rfl⟩ := exists_of_append_eq (journal'.symm.trans heq) (old e')
  rw [journal] at hjournal
  -- Either it is this departure that is last, or an earlier one of another endpoint.
  rcases last_or_before hjournal with ⟨rfl, hlast, rfl⟩ | ⟨after'', hbefore, rfl⟩
  · obtain rfl := Event.left.inj hlast
    exact gone_unavailable j b marked ledger resolutions rest.toShrinks
  · have g := d before e' after'' hbefore silent.of_append.1.of_append.1
    exact (g.shrinks left journal).shrinks rest.toShrinks journal'

theorem Departed.available (d : Departed s) (e : Endpoint) : Departed (s.available e) := by
  obtain ⟨events, journal, arrived, silent, ledger, space, new⟩ := available_cases e s
  intro before e' after heq quiet
  have old : .left e' ∉ events := fun hmem => (silent _ hmem).2 e' rfl
  obtain ⟨rest, hjournal, rfl⟩ := exists_of_append_eq (journal.symm.trans heq) old
  have other : e.id ≠ e'.id := quiet.of_append.2 _ arrived e rfl
  have g := d before e' rest hjournal quiet.of_append.1
  refine ⟨?_, ?_, ?_, ?_⟩
  · intro r hr hid
    rcases new with ⟨resolutions, _⟩ | ⟨resolutions, _, _⟩
    · rw [resolutions] at hr
      exact g.resolutions r hr hid
    · rw [resolutions, List.mem_append, List.mem_singleton] at hr
      rcases hr with hr | rfl
      · exact g.resolutions r hr hid
      · exact absurd hid other
  · rw [ledger]
    intro r hr hid
    obtain ⟨a, late⟩ := g.known r hr hid
    exact ⟨a, late.append events⟩
  · rw [ledger]
    intro r hr hid a ha
    exact (g.records r hr hid a ha).append events
  · rw [space]
    intro entry hentry hid
    exact (g.entries entry hentry hid).imp (fun hu => unremoved_subset journal hu)
      fun late => late.append events

/-! ## Every run -/

/-- What the account of departures rests on, at every moment. -/
structure Followed (m : Moment) : Prop where
  balanced : m.site.isAlive = true → Balanced [] m.site
  journaled : Journaled m.site
  prepared : Prepared m
  marked : Marked m.site
  departed : Departed m.site

theorem Departed.register (d : Departed s) {r : Resolution} {c : Candidate}
    {x : Option Subscription} {reference : Reference} {registration : Registration} {h : Handle}
    {store : ServiceSpace}
    (turn : ∃ now ∈ s.resolutions, now.id = r.id ∧ now.endpoint = r.endpoint)
    (prepared : registration.properties.get? Key.endpointId = some (.text r.endpoint.id))
    (ok : s.space.store.register registration = .ok (h, store))
    (result : t = (s.recordRegistered r c x reference registration.properties h store).site) :
    Departed t := by
  obtain ⟨events, journal, minor, _⟩ :=
    recordRegistered_cases ok r c x reference registration.properties result
  intro before e after heq silent
  have old : .left e ∉ events := fun hmem => Event.ne_left_of_isMinor (minor _ hmem) e rfl
  obtain ⟨rest, hjournal, rfl⟩ := exists_of_append_eq (journal.symm.trans heq) old
  exact (d before e rest hjournal silent.of_append.1).register turn prepared ok result journal

theorem Change.followed {allowed : Command → Prop}
    (inside : ∀ c, allowed c → c.bypassesImporter = false) {m n : Moment}
    (change : Change allowed m n) (h : Coherent allowed m) (f : Followed m) : Followed n := by
  have balanced := change.balanced inside h f.balanced
  have course := change.course inside h
  have journaled := f.journaled.course h.numbered course
  have prepared := change.prepared f.prepared
  cases course with
  | dwindles d =>
    exact ⟨balanced, journaled, prepared, d.marked f.marked, f.departed.dwindles d⟩
  | available e result =>
    refine ⟨balanced, journaled, prepared, ?_, ?_⟩
    · obtain ⟨_, _, _, _, ledger, space, _⟩ := available_cases e m.site
      rw [result]
      unfold Marked
      rw [ledger, space]
      exact f.marked
    · rw [result]
      exact f.departed.available e
  | unavailable e alive result =>
    have marked : Marked (m.site.unavailable e) := by
      obtain ⟨u, _, _, _, left, rest⟩ := unavailable_cases e m.site
      exact (left.trans rest.toShrinks).marked f.marked
    have accounted : Balanced [] (m.site.unavailable e) :=
      Losses.balanced (@losses_unavailable {} e m.site) (f.balanced alive) alive
    refine ⟨balanced, journaled, prepared, result ▸ marked, ?_⟩
    rw [result]
    exact f.departed.unavailable f.journaled accounted marked
  | register r c x reference registration a store phase ok result =>
    have alive := h.isAlive (.inr (by rw [phase]; simp))
    have mark := f.prepared _ _ _ _ _ phase
    obtain ⟨now, hnow, hid, hendpoint, _⟩ := h.turn r (by rw [phase]; rfl)
    exact ⟨balanced, journaled, prepared, f.marked.register (f.balanced alive) mark ok result,
      f.departed.register ⟨now, hnow, hid, hendpoint⟩ mark ok result⟩

theorem followed_build {b : Blueprint} (h : Site.build b = .ok s) : Followed ⟨s, .idle⟩ := by
  have ledger : s.ledger = {} := by rw [(build_eq h).1]
  refine ⟨fun _ => balanced_build h, journaled_build h, ?_, ?_, ?_⟩
  · intro r c x reference registration hphase
    simp at hphase
  · simp [Marked, ledger]
  · intro before e after heq _
    have hmem : .left e ∈ s.journal := by
      dsimp only at heq
      simp [heq]
    exact absurd rfl (Event.ne_left_of_isMinor (minor_build h _ hmem) e)

theorem Reachable.followed (h : Reachable (·.bypassesImporter = false) s) :
    Followed ⟨s, .idle⟩ :=
  (h.invariant followed_build fun coherent change f =>
    change.followed (fun _ ok => ok) coherent f).2

/-- When the last news of an endpoint is that it left, its records and the registrations marked with
it were made after this news, by resolutions that were in flight at the time. Where there were none,
nothing of the endpoint is left. Only registrations that could not be taken away are kept back. -/
theorem recordedLate_of_left (h : Reachable (·.bypassesImporter = false) s)
    {before after : List Event} {e : Endpoint} (journal : s.journal = before ++ .left e :: after)
    (last : Silent e.id after) :
    (∀ r ∈ s.ledger.records, r.key.endpointId = e.id →
      ∀ a ∈ r.handles, RecordedLate before after e.id a) ∧
    (∀ entry ∈ s.space.store.entries,
      entry.2.properties.get? Key.endpointId = some (.text e.id) →
        ServiceSpace.handleOf entry ∈ s.unremoved ∨
          RecordedLate before after e.id (ServiceSpace.handleOf entry)) ∧
    ((∀ n e', e'.id = e.id → ¬ InFlight before n e') →
      s.ledger.contains e.id = false ∧
        ∀ entry ∈ s.space.store.entries,
          entry.2.properties.get? Key.endpointId = some (.text e.id) →
            ServiceSpace.handleOf entry ∈ s.unremoved) := by
  have f := h.followed
  have gone : Gone before after e.id s := f.departed before e after journal last
  refine ⟨gone.records, gone.entries, fun alone => ?_⟩
  have none : ∀ a, ¬ RecordedLate before after e.id a := by
    rintro a ⟨n, e', _, _, _, hid, flight, _⟩
    exact alone n e' hid flight
  constructor
  · unfold Ledger.contains
    rw [List.any_eq_false]
    intro r hr
    rw [beq_iff_eq]
    intro hid
    obtain ⟨a, late⟩ := gone.known r hr hid
    exact none a late
  · intro entry hentry hid
    exact (gone.entries entry hentry hid).resolve_right (none _)

/-- A lamp that came and was imported. -/
def lampImported : Site := (litSite.perform (.available lampEndpoint)).poll (.resolution 0)

/-- The same lamp when it has left. -/
def lampGone : Site := lampImported.perform (.unavailable lampEndpoint)

/-- A lamp that came and left before its resolution had a turn. -/
def lampLate : Site :=
  ((litSite.perform (.available lampEndpoint)).perform (.unavailable lampEndpoint)).poll
    (.resolution 0)

theorem reachable_lampImported : Reachable (·.bypassesImporter = false) lampImported := by
  refine .poll (.perform (reachable_litSite rfl) rfl ?_)
  intro _
  rfl

theorem reachable_lampLate : Reachable (·.bypassesImporter = false) lampLate := by
  refine .poll (.perform (.perform (reachable_litSite rfl) rfl ?_) rfl ?_)
  all_goals
    intro _
    rfl

theorem recordedLate_of_left_lamps :
    (lampGone.ledger.contains "lamp" = false ∧
      ∀ entry ∈ lampGone.space.store.entries,
        entry.2.properties.get? Key.endpointId = some (.text "lamp") →
          ServiceSpace.handleOf entry ∈ lampGone.unremoved) ∧
    lampLate.ledger.handles = [⟨1, ["Lamp"]⟩] ∧
    RecordedLate (lampLate.journal.take 2) (lampLate.journal.drop 3) "lamp" ⟨1, ["Lamp"]⟩ := by
  have recorded : lampLate.ledger.handles = [⟨1, ["Lamp"]⟩] := by rfl
  refine ⟨?_, recorded, ?_⟩
  · have left : Reachable (·.bypassesImporter = false) lampGone :=
      .perform reachable_lampImported rfl fun _ => rfl
    have journal : lampGone.journal =
        lampImported.journal ++ .left lampEndpoint :: lampGone.journal.drop 10 := by rfl
    refine (recordedLate_of_left left journal (by decide)).2.2 ?_
    intro n e _ flight
    obtain ⟨r, hr, _⟩ := (inFlight_iff reachable_lampImported n e).1 flight
    have none : lampImported.resolutions = [] := by rfl
    simp [none] at hr
  · have there : (⟨1, ["Lamp"]⟩ : Handle) ∈ lampLate.ledger.handles := by simp [recorded]
    obtain ⟨r, hr, hmem⟩ := List.mem_flatMap.1 there
    have filed : ∀ r ∈ lampLate.ledger.records, r.key.endpointId = "lamp" := by decide
    have journal : lampLate.journal =
        lampLate.journal.take 2 ++ .left lampEndpoint :: lampLate.journal.drop 3 := by rfl
    exact (recordedLate_of_left reachable_lampLate journal (by decide)).1 r hr (filed r hr) _ hmem

/-- A resolution that is in flight when its endpoint leaves still imports it. -/
theorem not_gone_of_left :
    ¬ ∀ (s : Site) (before after : List Event) (e : Endpoint),
      Reachable (·.bypassesImporter = false) s → s.journal = before ++ .left e :: after →
      Silent e.id after →
      (∀ event ∈ s.journal, ∀ e' ∈ event.news?, e'.id = e.id → e'.location = e.location) →
      (∀ r ∈ s.resolutions, r.endpoint.id ≠ e.id) → s.unremoved = [] →
        s.ledger.contains e.id = false ∧
          ∀ entry ∈ s.space.store.entries,
            entry.2.properties.get? Key.endpointId ≠ some (.text e.id) := by
  intro claim
  have gone := claim lampLate (lampLate.journal.take 2) (lampLate.journal.drop 3) lampEndpoint
    reachable_lampLate (by rfl) (by decide) (by decide) (by decide) (by rfl)
  have there : lampLate.ledger.contains lampEndpoint.id = true := by rfl
  rw [gone.1] at there
  simp at there

end Site

end ServiceImport

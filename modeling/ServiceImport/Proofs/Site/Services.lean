import ServiceImport.Proofs.Site.Origins

/-! # Proxies go with their services

A proxy is made for a service that its adapter has. When the service is withdrawn the proxy goes,
if its record listens on that adapter. A record listens on one adapter only, and to no removal that
was heard of before the proxy was recorded.
-/

namespace ServiceImport

def Command.isRoutine : Command → Bool
  | .publishService .. | .withdrawService .. | .available _ | .unavailable _ | .notify _ => true
  | _ => false

theorem Record.maps_of_subset {q o : Record} (h : q.mappings ⊆ o.mappings) {reference : Nat}
    (none : o.maps reference = false) : q.maps reference = false := by
  rw [Ledger.Record.maps_eq_false_iff] at none ⊢
  intro hmem
  obtain ⟨p, hp, hid⟩ := List.mem_map.1 hmem
  exact none (List.mem_map.2 ⟨p, h hp, hid⟩)

namespace Site

variable {s t u : Site} {allowed : Command → Prop}

/-! ## Withdrawals -/

/-- After a removal was delivered to the importer, no record of the container maps its reference. -/
theorem unmapped_deliver {listeners : List Listener} {removal : Removal} {c : ContainerId}
    (alive : s.isAlive = true) (there : .importer c ∈ listeners) {q : Record}
    (hq : q ∈ (s.deliver listeners removal).ledger.records) (hc : q.key.container = c) :
    q.maps removal.reference.id = false := by
  obtain ⟨before, after, rfl⟩ := List.append_of_mem there
  obtain ⟨u, hu⟩ : ∃ u, u = s.deliver before removal := ⟨_, rfl⟩
  have heard : s.deliver (before ++ .importer c :: after) removal =
      (u.removeReference c removal.reference.id).deliver after removal := by
    have aliveThen : u.isAlive = true := by
      rw [hu, (leavesJobs_deliver before removal s).isAlive, alive]
    rw [hu] at aliveThen ⊢
    unfold deliver at aliveThen ⊢
    rw [List.foldl_append, List.foldl_cons, hear, aliveThen, if_pos rfl]
  rw [heard] at hq
  -- Nothing is mapped after the removal that was not mapped right after the ledger gave it away.
  have rest : Keeps _ ((u.removeReference c removal.reference.id).deliver after removal) :=
    (@losses_withdrawn {} c removal.reference.id u).keeps.trans
      (@losses_deliver {} after removal _).keeps
  obtain ⟨o, ho, same, hsub⟩ := rest.records q hq
  rw [cancelAll_eq] at ho
  refine Record.maps_of_subset hsub (Ledger.maps_of_mem_withdrawReference ho ?_)
  rw [Record.key_eq same, hc]

theorem offers_withdrawn {key k : String} {reference n : Nat} (offered : s.offers k n)
    (other : k = key → n ≠ reference) : (s.withdrawn key reference).offers k n := by
  obtain ⟨a, there, has⟩ := offered
  have adapter : (s.withdrawn key reference).adapter? k =
      if k = key then (s.adapter? k).map (·.withPublished (·.withdraw reference))
      else s.adapter? k :=
    adapter?_updateAdapter s key k (·.withPublished (·.withdraw reference))
  unfold offers
  rw [adapter, there]
  split
  · next hk =>
    refine ⟨_, rfl, fun p hp => ?_⟩
    obtain ⟨q, hq, rfl⟩ := Adapter.memory_of_withPublished hp
    obtain ⟨r, hr, hid⟩ := List.find?_isSome.1 (has q hq)
    refine List.find?_isSome.2 ⟨r, List.mem_filter.2 ⟨hr, ?_⟩, hid⟩
    rw [beq_iff_eq] at hid
    rw [bne_iff_ne, hid]
    exact other hk
  · exact ⟨a, rfl, has⟩

/-! ## Services behind proxies -/

/-- A mapping was recorded after its proxy was made, and its service is there if its record listens
on the adapter it came through. Only a service that was withdrawn in between may be gone. -/
def Sourced (s : Site) (q : Record) (p : Reference × Handle) : Prop :=
  ∃ before c between e a after,
    s.journal = before ++ .proxied c p.1 :: between ++ .recorded e c p.1 p.2 a :: after ∧
    (∀ event ∈ between, event.isImport = false) ∧ c.id = q.key.container ∧
    (q.listensOn c.adapter = true →
      s.offers c.adapter p.1.id ∨ .withdrew c.adapter p.1.id ∈ between)

theorem Sourced.mono {q o : Record} {p : Reference × Handle} (sourced : Sourced s o p)
    (same : o.identity = q.identity) {events : List Event}
    (journal : t.journal = s.journal ++ events)
    (offers : ∀ {key}, q.listensOn key = true → s.offers key p.1.id → t.offers key p.1.id) :
    Sourced t q p := by
  obtain ⟨before, c, between, e, a, after, told, alone, hc, there⟩ := sourced
  rw [Record.key_eq same] at hc
  refine ⟨before, c, between, e, a, after ++ events, ?_, alone, hc, fun listens => ?_⟩
  · rw [journal, told, List.append_assoc, List.cons_append]
  · have listened : o.listensOn c.adapter = true := by
      unfold Record.listensOn at listens ⊢
      rw [Record.subscription_eq same]
      exact listens
    exact (there listened).imp_left (offers listens)

/-- A proxy was made last, and its service is there or was withdrawn since. -/
def Underway (s : Site) (c : Candidate) (reference : Reference) : Prop :=
  ∃ before between, s.journal = before ++ .proxied c reference :: between ∧
    (∀ event ∈ between, event.isImport = false) ∧
    (s.offers c.adapter reference.id ∨ .withdrew c.adapter reference.id ∈ between)

theorem Underway.mono {c : Candidate} {reference : Reference} (underway : Underway s c reference)
    {events : List Event} (journal : t.journal = s.journal ++ events)
    (none : ∀ event ∈ events, event.isImport = false)
    (offers : s.offers c.adapter reference.id →
      t.offers c.adapter reference.id ∨ .withdrew c.adapter reference.id ∈ events) :
    Underway t c reference := by
  obtain ⟨before, between, told, alone, there⟩ := underway
  refine ⟨before, between ++ events, ?_, ?_, ?_⟩
  · rw [journal, told, List.append_assoc, List.cons_append]
  · intro event he
    exact (List.mem_append.1 he).elim (alone event) (none event)
  · rcases there with offered | withdrew
    · exact (offers offered).imp_right (List.mem_append_right _)
    · exact .inr (List.mem_append_left _ withdrew)

/-- Every proxy that is recorded has its service behind it. -/
def Stocked (s : Site) : Prop :=
  ∀ q ∈ s.ledger.records, ∀ p ∈ q.mappings, Sourced s q p

theorem Stocked.log (stocked : Stocked s) (e : Event) : Stocked (s.log e) :=
  fun q hq p hp => (stocked q hq p hp).mono rfl rfl fun _ => id

theorem Stocked.keeps (stocked : Stocked s) (keeps : Keeps s t) : Stocked t := by
  intro q hq p hp
  obtain ⟨o, ho, same, hsub⟩ := keeps.records q hq
  obtain ⟨events, journal, _⟩ := keeps.journal
  exact (stocked o ho p (hsub hp)).mono same journal fun _ => keeps.offers

/-- The services behind the proxies, and behind the one that is being registered. -/
structure Backed (m : Moment) : Prop where
  mapped : m.site.isAlive = true → Stocked m.site
  registering : ∀ r c x reference registration,
    m.phase = .registering r c x reference registration → Underway m.site c reference

theorem Backed.keeps {m n : Moment} (b : Backed m) (alive : n.site.isAlive = true →
    m.site.isAlive = true) (keeps : Keeps m.site n.site)
    (phase : n.phase = m.phase ∨ n.phase.isImporting = false ∨
      ∃ r c x, n.phase = .importing r c x) : Backed n where
  mapped hn := (b.mapped (alive hn)).keeps keeps
  registering r c x reference registration hphase := by
    rcases phase with same | other | ⟨r', c', x', other⟩
    · obtain ⟨events, journal, none⟩ := keeps.journal
      exact (b.registering r c x reference registration (same ▸ hphase)).mono journal none
        fun offered => .inl (keeps.offers offered)
    · rw [hphase] at other
      cases other
    · rw [hphase] at other
      cases other

theorem offers_of_prepareProxy {e : Endpoint} {c : Candidate} {r : Reference}
    {registration : Registration} (h : s.prepareProxy e c r = .ok registration) :
    s.offers c.adapter r.id := by
  unfold prepareProxy at h
  split at h
  · cases h
  · next proxy there =>
    obtain ⟨a, ha, hproxy⟩ := Option.bind_eq_some_iff.1 there
    refine ⟨a, ha, fun p hp => ?_⟩
    unfold Adapter.remoteService? at hproxy
    rw [hp] at hproxy
    obtain ⟨found, hfound, _⟩ := Option.map_eq_some_iff.1 hproxy
    rw [hfound]
    rfl

theorem Backed.withdraw {p : Phase} {key : String} {reference : Nat} {a : Adapter}
    {removal : Removal} (b : Backed ⟨s, p⟩) (attended : Attended p.owned s)
    (there : s.adapter? key = some a) (hid : removal.reference.id = reference) :
    Backed ⟨(s.withdrawn key reference).deliver (a.listeners.map (·.2)) removal, p⟩ := by
  obtain ⟨t, ht⟩ : ∃ t, t = (s.withdrawn key reference).deliver (a.listeners.map (·.2)) removal :=
    ⟨_, rfl⟩
  have rest : Keeps (s.withdrawn key reference) t := by
    rw [ht]
    exact (@losses_deliver {} _ _ _).keeps
  obtain ⟨events, journal, none⟩ := rest.journal
  replace journal : t.journal = s.journal ++ (.withdrew key reference :: events) := by
    rw [journal, withdrawn, log, List.append_assoc]
    rfl
  rw [← ht]
  constructor
  · intro alive q hq m hm
    have aliveBefore : s.isAlive = true := by
      dsimp only at alive
      rwa [ht, (leavesJobs_deliver _ _ _).isAlive] at alive
    obtain ⟨o, ho, same, hsub⟩ := rest.records q hq
    refine (b.mapped aliveBefore o ho m (hsub hm)).mono same journal ?_
    intro k listens offered
    refine rest.offers (offers_withdrawn offered ?_)
    -- Otherwise the listener of the record has heard that the service is gone.
    rintro rfl hreference
    obtain ⟨x, hx, rfl⟩ := Record.listensOn_iff.1 listens
    have owned : (x, o.key.container) ∈ p.owned ++ s.ledger.owned :=
      List.mem_append_right _ (List.mem_filterMap.2
        ⟨o, ho, Record.owned?_eq_some_iff.2 ⟨(Record.subscription_eq same).trans hx, rfl⟩⟩)
    obtain ⟨heard, haudience, hmem⟩ := attended.owned.2 owned
    obtain rfl : (a.listeners, a.subscribed) = heard := by
      unfold audience at haudience
      rw [there] at haudience
      exact Option.some.inj haudience
    have unmapped : q.maps removal.reference.id = false := by
      rw [ht] at hq
      have alive : (s.withdrawn x.adapter reference).isAlive = true := aliveBefore
      refine unmapped_deliver (c := o.key.container) alive ?_ hq (by rw [Record.key_eq same])
      exact List.mem_map_of_mem (f := (·.2)) hmem
    rw [hid, ← hreference, Ledger.Record.maps_eq_false_iff] at unmapped
    exact unmapped (List.mem_map_of_mem (f := (·.1.id)) hm)
  · intro r c x reference' registration hphase
    refine (b.registering r c x reference' registration hphase).mono journal ?_ fun offered => ?_
    · intro event he
      rcases List.mem_cons.1 he with rfl | he
      · rfl
      · exact none event he
    · -- The removal of what is being registered is not heard, but the journal tells of it.
      by_cases same : c.adapter = key ∧ reference'.id = reference
      · obtain ⟨rfl, rfl⟩ := same
        exact .inr (List.mem_cons_self)
      · exact .inl (rest.offers (offers_withdrawn offered fun hk hn => same ⟨hk, hn⟩))

theorem Backed.register {r : Resolution} {c : Candidate} {x : Option Subscription}
    {reference : Reference} {registration : Registration}
    (b : Backed ⟨s, .registering r c x reference registration⟩) (properties : Properties)
    (h : Handle) (store : ServiceSpace) {i : Importing}
    (result : i = s.recordRegistered r c x reference properties h store) :
    Backed ⟨i.site, .importing r c i.subscription⟩ := by
  have alive : i.site.isAlive = true → s.isAlive = true := by
    rw [result, (leavesJobs_recordRegistered r c x reference properties h store s).isAlive]
    exact id
  obtain ⟨adapters, _, events, calls, recorded⟩ :=
    importing_recordRegistered r c x reference properties h store s result
  have none : ∀ event ∈ events, event.isImport = false := fun event he =>
    Event.isImport_of_isCall (calls event he)
  rcases recorded with ⟨admission, ok, _, journal, _⟩ | ⟨ledger, _, journal, _⟩
  · have offers {key n} : s.offers key n → i.site.offers key n :=
      (KeepsAdapters.of_eq adapters).offers
    refine ⟨fun hn q hq m hm => ?_, ?_⟩
    · rcases Ledger.mem_register ok hq hm with ⟨hkey, rfl⟩ | ⟨o, ho, same, hm⟩
      · obtain ⟨before, between, told, alone, there⟩ :=
          b.registering r c x reference registration rfl
        refine ⟨before, c, between ++ events, r.endpoint, admission, [], ?_, ?_, by rw [hkey],
          fun _ => there.imp offers (List.mem_append_left _)⟩
        · rw [journal, told, List.append_assoc before, List.cons_append]
        · intro event he
          exact (List.mem_append.1 he).elim (alone event) (none event)
      · rw [List.append_assoc] at journal
        exact (b.mapped (alive hn) o ho m hm).mono same journal fun _ => offers
    · intro _ _ _ _ _ hphase
      cases hphase
  · have keeps : Keeps s i.site :=
      ⟨.of_ledger ledger journal none, (KeepsAdapters.of_eq adapters).offers⟩
    exact b.keeps alive keeps (.inr (.inr ⟨r, c, _, rfl⟩))

theorem Stride.backed (inside : ∀ c, allowed c → c.bypassesImporter = false) {m n : Moment}
    (stride : Stride allowed m n) (alive : n.site.isAlive = true → m.site.isAlive = true)
    (attended : Attended m.phase.owned m.site) (b : Backed m) : Backed n := by
  cases stride with
  | lose aside losses => exact b.keeps alive (aside.keeps.trans (losses {}).keeps) (.inl rfl)
  | turn aside _ after => exact b.keeps alive aside.keeps (.inr (.inl after))
  | withdraw there hid => exact b.withdraw attended there hid
  | @meddle s p c ok h =>
    have bypass := inside c ok
    refine b.keeps alive ?_ (.inl rfl)
    cases c with
    | observe key label =>
      have ledger : (s.perform (.observe key label)).ledger = s.ledger := by
        rw [perform, subscribe_eq]
      have journal : (s.perform (.observe key label)).journal = s.journal := by
        rw [perform, subscribe_eq]
      exact .of_eq ledger journal offers_subscribe
    | unsubscribe x => exact .of_eq rfl rfl offers_unsubscribe
    | noteImport _ _ | forgetImport _ => exact .of_eq rfl rfl id
    | unregister _ | record _ _ _ _ _ | unrecordEndpoint _ | unrecordReference _ _ => cases bypass
    | _ => cases h
  | @subscribe s r c _ =>
    have keeps : Keeps (s.log (.opened c))
        ((s.subscribe c.adapter (.importer c.id)).2.log (.opened c)) := by
      refine .of_eq ?_ ?_ fun {k n} (offered : s.offers k n) =>
        (offers_subscribe offered : (s.subscribe c.adapter (.importer c.id)).2.offers k n)
      all_goals
        rw [subscribe_eq]
        rfl
    refine ⟨fun hn => ((b.mapped (alive hn)).log _).keeps keeps, ?_⟩
    intro _ _ _ _ _ hphase
    cases hphase
  | @prepare s t r c x reference registration aside ok =>
    have keeps := aside.keeps
    refine ⟨fun hn => ((b.mapped (alive hn)).log _).keeps keeps, ?_⟩
    intro r' c' x' reference' registration' hphase
    obtain ⟨rfl, rfl, rfl, rfl, rfl⟩ := Phase.registering.inj hphase
    obtain ⟨events, journal, none⟩ := keeps.journal
    have offered : s.offers c.adapter reference.id := offers_of_prepareProxy ok
    refine ⟨s.journal, events, ?_, none, .inl (keeps.offers offered)⟩
    rw [journal, log, List.append_assoc]
    rfl
  | @refuse s r c x reference registration =>
    have told : Keeps s (s.log (.called (.registerFailed registration.interfaces))) :=
      ⟨.of_ledger rfl rfl (by simp [Event.isImport]), id⟩
    exact b.keeps alive told (.inr (.inr ⟨r, c, x, rfl⟩))
  | fault => exact b.keeps alive (Keeps.refl _) (.inr (.inr ⟨_, _, _, rfl⟩))
  | register _ => exact b.register _ _ _ rfl
  | @unsubscribe s r c x =>
    refine b.keeps alive (.of_eq ?_ ?_ (offers_cancel x)) (.inr (.inl rfl))
    all_goals rw [cancel_eq]

/-! ## Every run -/

theorem Reachable.backed (h : Reachable allowed s)
    (inside : ∀ c, allowed c → c.bypassesImporter = false)
    (own : ∀ x, ¬ allowed (.unsubscribe x)) : Backed ⟨s, .idle⟩ := by
  refine (h.invariant (I := fun m => Attended m.phase.owned m.site ∧ Backed m) ?_ ?_).2.2
  · intro b s built
    have ledger : s.ledger = {} := by rw [(build_eq built).1]
    refine ⟨attended_build built, ?_, ?_⟩
    · intro _ q hq
      rw [ledger] at hq
      cases hq
    · intro _ _ _ _ _ hphase
      cases hphase
  · intro m n coherent change ⟨attended, backed⟩
    have stride := change.stride coherent
    exact ⟨stride.attended inside own attended,
      stride.backed inside (change.isAlive coherent) attended backed⟩

/-- While the importer is there and nobody goes past it, a record was made by an import and listens
on the adapter that the import went through, if it was the first of the import. A mapping was
recorded once, after its proxy was made, with no other import in between. If its record listens on
the adapter it came through, the adapter still has the service, unless the service was withdrawn
in between. -/
theorem offers_of_listensOn (h : Reachable allowed s)
    (inside : ∀ c, allowed c → c.bypassesImporter = false)
    (own : ∀ x, ¬ allowed (.unsubscribe x)) (alive : s.isAlive = true) :
    ∀ q ∈ s.ledger.records, Rooted s q ∧
      ∀ p ∈ q.mappings, Sourced s q p ∧ s.recordings.count p.2 = 1 := by
  intro q hq
  refine ⟨(h.originated inside).records q hq, fun p hp => ?_⟩
  have sourced := (h.backed inside own).mapped alive q hq p hp
  refine ⟨sourced, List.count_eq_one_of_mem (h.filed inside).distinct ?_⟩
  obtain ⟨before, c, between, e, a, after, journal, _⟩ := sourced
  refine List.mem_filterMap.2 ⟨.recorded e c p.1 p.2 a, ?_, rfl⟩
  rw [journal]
  exact List.mem_append_right _ (List.mem_cons_self)

def spareContainer : Container where
  key := "spare"
  id := ⟨"home", "spare"⟩
  connectNamespace := some "home"
  hasAdapter := true

/-- A site that finds one container twice, with its own adapter and with that of another. -/
def twinSite : Site where
  containers := [lampContainer, spareContainer]
  registry := [lampContainer, spareContainer]
  adapters := [("lamps", { owner := ⟨"home", "lamps"⟩, backend := .memory {} }),
    ("spare", { owner := ⟨"home", "spare"⟩, backend := .memory {} })]
  finders := [[⟨lampContainer, "lamps"⟩, ⟨lampContainer, "spare"⟩]]
  managed := false
  limiter := { free := 8 }

theorem build_twinSite :
    Site.build {
        installations :=
          [.memory "lamps" ⟨"home", "lamps"⟩ none, .memory "spare" ⟨"home", "spare"⟩ none]
        finders := [[.own "lamps", .pair "lamps" "spare"]], managed := false } =
      .ok twinSite := rfl

/-- A lamp that was imported through both adapters, the second of which lost its service then. -/
def twinWithdrawn : Site :=
  (((((twinSite.perform (.publishService "lamps" ["Lamp"] .empty)).perform
    (.publishService "spare" ["Bell"] .empty)).perform
      (.publishService "spare" ["Lamp"] .empty)).perform (.available lampEndpoint)).poll
        (.resolution 0)).perform (.withdrawService "spare" 2)

theorem reachable_twinWithdrawn : Reachable (·.isRoutine = true) twinWithdrawn := by
  refine .perform (.poll (.perform (.perform (.perform (.perform (.build build_twinSite) rfl ?_) rfl
    ?_) rfl ?_) rfl ?_)) rfl ?_
  all_goals
    intro _
    rfl

/-- The record of the lamp listens on the adapter that made it, which has the service of the first
mapping. The second came through the other adapter. -/
theorem offers_of_listensOn_twinWithdrawn :
    twinWithdrawn.ledger.records.map (fun q =>
        (q.mappings.map (·.1.id), q.listensOn "lamps", q.listensOn "spare")) =
      [([1, 2], true, false)] ∧
    ∀ q ∈ twinWithdrawn.ledger.records, Rooted twinWithdrawn q ∧
      ∀ p ∈ q.mappings, Sourced twinWithdrawn q p ∧ twinWithdrawn.recordings.count p.2 = 1 := by
  refine ⟨rfl, offers_of_listensOn reachable_twinWithdrawn ?_ ?_ rfl⟩
  · intro c routine
    cases c <;> first | rfl | cases routine
  · intro x routine
    cases routine

/-! ## Proxies that outlive their service -/

/-- A lamp whose service was withdrawn while its proxy was being registered. -/
def lampWithdrawn : Site :=
  ((litSite.interruptNext [.withdrawService "lamps" 1]).perform (.available lampEndpoint)).poll
    (.resolution 0)

theorem reachable_lampWithdrawn : Reachable (·.isRoutine = true) lampWithdrawn := by
  have none : litSite.space.interruptions.tail = [] := rfl
  have planned : Reachable (·.isRoutine = true)
      (litSite.interruptNext [.withdrawService "lamps" 1]) :=
    .plan (reachable_litSite rfl) (by simp [Command.isRoutine, none])
  exact .poll (.perform planned rfl fun _ => rfl)

def lampService (owner : ContainerId) (id : Nat) : Reference where
  id := id
  container := owner
  properties := (Properties.empty.insert Key.objectClass (.list ["Lamp"])).insert Key.serviceId
    (.int (Int64.ofNat id))

def lampRecord (mappings : List (Reference × Handle)) : Record where
  key := ⟨⟨"home", "lamps"⟩, "lamp"⟩
  endpoint := lampEndpoint
  mappings := mappings
  subscription := some ⟨"lamps", 1⟩

theorem mem_twinWithdrawn :
    lampRecord [(lampService ⟨"home", "lamps"⟩ 1, ⟨1, ["Lamp"]⟩),
      (lampService ⟨"home", "spare"⟩ 2, ⟨2, ["Lamp"]⟩)] ∈ twinWithdrawn.ledger.records :=
  List.mem_of_getElem? (i := 0) rfl

theorem mem_lampWithdrawn :
    lampRecord [(lampService ⟨"home", "lamps"⟩ 1, ⟨1, ["Lamp"]⟩)] ∈
      lampWithdrawn.ledger.records :=
  List.mem_of_getElem? (i := 0) rfl

theorem not_offers_twinWithdrawn : ¬ twinWithdrawn.offers "spare" 2 := by
  rintro ⟨a, there, has⟩
  obtain rfl := Option.some.inj there
  have gone := has _ rfl
  exact absurd gone (by decide)

theorem not_offers_lampWithdrawn : ¬ lampWithdrawn.offers "lamps" 1 := by
  rintro ⟨a, there, has⟩
  obtain rfl := Option.some.inj there
  have gone := has _ rfl
  exact absurd gone (by decide)

/-- Every proxy stands for a service that its adapter has. -/
def NoOrphans (s : Site) : Prop :=
  ∀ q ∈ s.ledger.records, ∀ p ∈ q.mappings, ∀ e c a,
    .recorded e c p.1 p.2 a ∈ s.journal → s.offers c.adapter p.1.id

def InMemory (s : Site) : Prop := ∀ e ∈ s.adapters, ∃ p, e.2.backend = .memory p

/-- A proxy can outlive its service: one that came through a second adapter, and one whose service
was withdrawn while it was registered. -/
theorem not_noOrphans :
    (¬ ∀ s, Reachable (·.isRoutine = true) s → s.isAlive = true → InMemory s → NoOrphans s) ∧
      ¬ ∀ s, Reachable (·.isRoutine = true) s → s.isAlive = true → InMemory s → s.finders = [] →
        NoOrphans s := by
  constructor
  · intro claim
    have memory : InMemory twinWithdrawn := by
      intro e he
      rcases he with _ | ⟨_, _ | ⟨_, he⟩⟩
      · exact ⟨_, rfl⟩
      · exact ⟨_, rfl⟩
      · cases he
    have recorded : Event.recorded lampEndpoint ⟨lampContainer, "spare"⟩
        (lampService ⟨"home", "spare"⟩ 2) ⟨2, ["Lamp"]⟩ .joined ∈ twinWithdrawn.journal :=
      List.mem_of_getElem? (i := 12) rfl
    have noOrphans := claim _ reachable_twinWithdrawn rfl memory
    exact not_offers_twinWithdrawn
      (noOrphans _ mem_twinWithdrawn _ (.tail _ (.head _)) _ _ _ recorded)
  · intro claim
    have memory : InMemory lampWithdrawn := by
      intro e he
      rcases he with _ | ⟨_, he⟩
      · exact ⟨_, rfl⟩
      · cases he
    have recorded : Event.recorded lampEndpoint ⟨lampContainer, "lamps"⟩
        (lampService ⟨"home", "lamps"⟩ 1) ⟨1, ["Lamp"]⟩ .created ∈ lampWithdrawn.journal :=
      List.mem_of_getElem? (i := 7) rfl
    have noOrphans := claim _ reachable_lampWithdrawn rfl memory rfl
    exact not_offers_lampWithdrawn (noOrphans _ mem_lampWithdrawn _ (.head _) _ _ _ recorded)

end Site

end ServiceImport

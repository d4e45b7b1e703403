import ServiceImport.Proofs.Site.Alike
import ServiceImport.Proofs.Site.Attendance
import ServiceImport.Proofs.Site.Quiescence

/-! # News by way of a hub

A hub with one feed that has read everything hands news on as if the importer was notified at once:
the feed handles all of them in its first turn, before any resolution that they start has its own.
-/

namespace ServiceImport.Site

variable {s t : Site} {allowed : Command → Prop} {i k : Nat} {f : Feed} {h : Hub Notification}

/-! ## The one feed -/

theorem eq_of_filter_eq_singleton {α : Type} {p : α → Bool} {l : List α} {x y z : α} {i j : Nat}
    (one : l.filter p = [x]) (hi : l[i]? = some y) (hy : p y = true) (hj : l[j]? = some z)
    (hz : p z = true) : i = j := by
  induction l generalizing i j with
  | nil => cases hi
  | cons a l ih =>
    -- Whoever is at the head is the only one.
    have alone : ∀ {m : Nat} {b : α}, p a = true → l[m]? = some b → p b = false := by
      intro m b ha hb
      rw [List.filter_cons_of_pos ha, List.cons_eq_cons, List.filter_eq_nil_iff] at one
      exact eq_false_of_ne_true (one.2 b (List.mem_of_getElem? hb))
    cases i with
    | zero =>
      obtain rfl := Option.some.inj hi
      cases j with
      | zero => rfl
      | succ j => exact absurd hz (ne_true_of_eq_false (alone hy hj))
    | succ i =>
      cases j with
      | zero =>
        obtain rfl := Option.some.inj hj
        exact absurd hy (ne_true_of_eq_false (alone hz hi))
      | succ j =>
        cases ha : p a with
        | true => exact absurd hy (ne_true_of_eq_false (alone ha hi))
        | false =>
          rw [List.filter_cons_of_neg (ne_true_of_eq_false ha)] at one
          rw [ih one hi hj]

theorem Staffed.sole (staffed : Staffed none s) (quiet : s.ready = [])
    (latest : s.openHub? = some (k, h)) (one : h.feedCount = 1) :
    ∃ i f, AtRest s i f h ∧ f.hub = k ∧ s.idleFeeds = [i] ∧ h.feeds.map (·.id) = [f.reader] := by
  have there := getElem?_of_openHub? latest
  have known := staffed.readers k
  rw [hubReaders_of_getElem? there] at known
  obtain ⟨f, alone⟩ : ∃ f, s.feeds.filter (fun f => !f.finished && f.hub == k) = [f] := by
    have length := congrArg List.length known
    unfold readersOf at length
    rw [List.length_map, List.length_map] at length
    exact List.length_eq_one_iff.1 (length.symm.trans one)
  have readers : h.feeds.map (·.id) = [f.reader] := by
    rw [known]
    unfold readersOf
    rw [alone]
    rfl
  obtain ⟨member, works⟩ := List.mem_filter.1 (alone ▸ List.mem_singleton_self f)
  obtain ⟨i, hi⟩ := List.mem_iff_getElem?.1 member
  have placed : s.placedFeeds = s.idleFeeds := by
    unfold placedFeeds readyFeeds
    rw [quiet]
    exact List.append_nil _
  have unfinished : f.finished = false := by
    rw [Bool.and_eq_true, Bool.not_eq_true'] at works
    exact works.1
  have idle : i ∈ s.idleFeeds := placed ▸ staffed.roster.whole i f hi unfinished nofun
  -- Only the latest hub is open, so every feed that waits is one of its feeds.
  have same : ∀ j ∈ s.idleFeeds, j = i ∧ ∃ g, AtRest s j g h ∧ g.hub = k := by
    intro j hj
    obtain ⟨g, l, waits⟩ := staffed.idle j hj
    have end' := staffed.latest g.hub l waits.hub waits.isOpen
    obtain ⟨-, -, last⟩ := openHub?_eq_some_iff.1 latest
    have hub : g.hub = k := by omega
    have hub' := waits.hub
    rw [hub] at hub'
    obtain rfl := Option.some.inj (there.symm.trans hub')
    refine ⟨eq_of_filter_eq_singleton alone waits.there ?_ hi works, g, waits, hub⟩
    simp [waits.unfinished, hub]
  obtain ⟨-, g, waits, hub⟩ := same i idle
  obtain rfl := Option.some.inj (hi.symm.trans waits.there)
  refine ⟨i, f, waits, hub, List.Perm.eq_singleton ?_, readers⟩
  refine (List.perm_ext_iff_of_nodup (placed ▸ staffed.roster.distinct)
    (List.nodup_singleton i)).2 fun j => ?_
  rw [List.mem_singleton]
  exact ⟨fun hj => (same j hj).1, fun same => same ▸ idle⟩

/-! ## Publishing -/

theorem openHub?_set (latest : s.openHub? = some (k, h)) {h' : Hub Notification}
    (isOpen : h'.isOpen = h.isOpen) (hubs : t.hubs = s.hubs.set k h') :
    t.openHub? = some (k, h') := by
  obtain ⟨last, opened, rfl⟩ := openHub?_eq_some_iff.1 latest
  have some := (List.getElem?_eq_some_iff.1 (getElem?_of_openHub? latest)).1
  refine openHub?_eq_some_iff.2 ⟨?_, isOpen.trans opened, ?_⟩
  · rw [hubs, List.getLast?_eq_getElem?, List.length_set, List.getElem?_set_self some]
  · rw [hubs, List.length_set]

theorem performAll_publish_of_idleFeeds (latest : s.openHub? = some (k, h))
    (busy : s.idleFeeds = []) (news : List Notification) :
    s.performAll (news.map .publish) = s.withHubs (s.hubs.set k (h.publishAll news)) := by
  induction news generalizing s h with
  | nil =>
    obtain ⟨inside, rfl⟩ := List.getElem?_eq_some_iff.1 (getElem?_of_openHub? latest)
    exact (congrArg s.withHubs (List.set_getElem_self inside)).symm
  | cons n news ih =>
    have first : (s.publish n).2 = s.withHubs (s.hubs.set k (h.publish n).2) := by
      have still : (s.withHubs (s.hubs.set k (h.publish n).2)).wakeFeeds k =
          s.withHubs (s.hubs.set k (h.publish n).2) := by
        unfold wakeFeeds withHubs
        simp [busy]
      unfold Site.publish
      rw [latest]
      exact (ite_congr rfl (fun _ => rfl) fun _ => still).trans (ite_self _)
    show performAll (news.map .publish) (s.publish n).2 = _
    rw [first]
    have after := ih (s := s.withHubs (s.hubs.set k (h.publish n).2))
      (openHub?_set latest (h.keeps_publish n).2.1 rfl) busy
    refine after.trans (congrArg s.withHubs ?_)
    exact List.set_set _

theorem wakeFeeds_of_sole (quiet : s.ready = []) (idle : s.idleFeeds = [i])
    (reads : s.reads k i = true) :
    s.wakeFeeds k = { s with idleFeeds := [], ready := [.feed i] } := by
  have stay : [i].filter (!s.reads k ·) = [] := by simp [reads]
  have go : [i].filter (s.reads k) = [i] := by simp [reads]
  have away : Job.feed i ∉ s.ready := by simp [quiet]
  unfold wakeFeeds
  rw [idle, stay, go]
  show Site.wake (.feed i) { s with idleFeeds := [] } = _
  unfold wake
  dsimp only
  rw [if_neg away, quiet]
  rfl

/-- The one feed becomes ready when something is published, and all that is published waits for it.
-/
theorem performAll_publish (quiet : s.ready = []) (latest : s.openHub? = some (f.hub, h))
    (there : s.feeds[i]? = some f) (idle : s.idleFeeds = [i]) (some : h.feeds ≠ [])
    (n : Notification) (news : List Notification) :
    s.performAll ((n :: news).map .publish) =
      { s with
        hubs := s.hubs.set f.hub (h.publishAll (n :: news))
        idleFeeds := []
        ready := [.feed i] } := by
  have first : (s.publish n).2 =
      { s with
        hubs := s.hubs.set f.hub (h.publish n).2
        idleFeeds := []
        ready := [.feed i] } := by
    have count : (h.publish n).1 ≠ 0 := by
      rw [Hub.publish_of_ne_nil some]
      exact fun none => some (List.length_eq_zero_iff.1 none)
    have reads : s.reads f.hub i = true := by
      unfold Site.reads
      rw [there]
      exact beq_self_eq_true f.hub
    unfold Site.publish
    rw [latest]
    exact (if_neg count).trans
      (wakeFeeds_of_sole (s := s.withHubs (s.hubs.set f.hub (h.publish n).2)) quiet idle reads)
  show performAll (news.map .publish) (s.publish n).2 = _
  rw [first]
  have after := performAll_publish_of_idleFeeds (s := { s with
    hubs := s.hubs.set f.hub (h.publish n).2, idleFeeds := [], ready := [.feed i] })
    (openHub?_set latest (h.keeps_publish n).2.1 rfl) rfl news
  refine after.trans ?_
  unfold withHubs
  dsimp only
  rw [List.set_set]
  rfl

/-! ## The turn of the feed -/

theorem performAll_notify (news : List Notification) (s : Site) :
    s.performAll (news.map .notify) = news.foldl (fun s n => s.notify n) s := List.foldl_map

theorem deaf_performAll_notify (news : List Notification) :
    Deaf fun s => s.performAll (news.map .notify) := by
  intro hubs idle s
  dsimp only
  rw [performAll_notify, performAll_notify]
  exact Deaf.foldl (f := fun s (n : Notification) => s.notify n) deaf_notify news hubs idle s

theorem keepsFeeds_performAll_notify (news : List Notification) (s : Site) :
    KeepsFeeds s (s.performAll (news.map .notify)) := by
  rw [performAll_notify]
  exact KeepsFeeds.foldl (fun s n => keepsFeeds_notify n s) s news

theorem poll_feed (there : s.feeds[i]? = some f) (unfinished : f.finished = false)
    (unaborted : f.aborted = false) (hub : s.hubs[f.hub]? = some h) (opened : h.isOpen = true)
    (missed : h.missed f.reader = 0) (ready : .feed i ∈ s.ready) :
    s.poll (.feed i) =
      (performAll ((h.waiting f.reader).map .notify)
        { s with ready := s.ready.erase (.feed i) }).withAudience
        (s.hubs.modify f.hub (·.moveTo f.reader h.published)) (s.idleFeeds ++ [i]) := by
  have turn : runFeed i f { s with ready := s.ready.erase (.feed i) } =
      (performAll ((h.waiting f.reader).map .notify)
        { s with ready := s.ready.erase (.feed i) }).withAudience
        (s.hubs.modify f.hub (·.moveTo f.reader h.published)) (s.idleFeeds ++ [i]) := by
    have handled := deaf_performAll_notify (h.waiting f.reader)
      (s.hubs.modify f.hub (·.moveTo f.reader h.published)) s.idleFeeds
      { s with ready := s.ready.erase (.feed i) }
    dsimp only at handled
    rw [performAll_notify] at handled
    unfold runFeed
    dsimp only
    rw [hub]
    dsimp only
    rw [if_neg (ne_true_of_eq_false unaborted), if_pos missed, if_pos opened]
    exact congrArg (fun t : Site => { t with idleFeeds := t.idleFeeds ++ [i] }) handled
  unfold poll
  rw [if_pos ready]
  dsimp only
  rw [there]
  dsimp only
  rw [if_neg (ne_true_of_eq_false unfinished), turn]
  -- The feed holds the importer, and the importer holds the ledger.
  refine if_pos ?_
  rw [Bool.or_eq_true]
  refine .inl (isAlive_of_feed (i := i) (f := f) ?_ unfinished)
  exact (congrArg (·[i]?) (keepsFeeds_performAll_notify _ _).feeds).trans there

/-! ## Both ways -/

theorem backlog_of_readers {reader j : Nat} (readers : h.feeds.map (·.id) = [reader])
    (level : h.backlog reader = 0) : h.backlog j = 0 := by
  by_cases same : j = reader
  · rw [same]
    exact level
  · refine Hub.backlog_of_place?_none (Option.not_isSome_iff_eq_none.1 fun there => ?_)
    rw [Hub.isSome_place?, readers] at there
    exact same (List.mem_singleton.1 there)

/-- Whatever the hub has held, its one reader gets the same of what comes after. -/
theorem like_publishAll (sound : h.Sound) {reader : Nat}
    (readers : h.feeds.map (·.id) = [reader]) (level : h.backlog reader = 0)
    (news : List Notification) :
    ((h.publishAll news).moveTo reader (h.publishAll news).published).Like h := by
  obtain ⟨size, isOpen, nextFeed, feeds⟩ := h.keeps_publishAll news
  have moved : ((h.publishAll news).moveTo reader (h.publishAll news).published).feeds.map (·.id) =
      [reader] := by
    rw [Hub.ids_moveTo, feeds, readers]
  refine .of_level size isOpen nextFeed (moved.trans readers.symm)
    ((sound.publishAll news).moveTo (Nat.le_refl _) reader) sound fun j => ⟨?_, ?_⟩
  · exact backlog_of_readers moved ((Hub.backlog_moveTo_end _ _ _).trans (if_pos rfl))
  · exact backlog_of_readers readers level

/-- After the first turn of the feed, the site is as if the importer was notified at once. -/
theorem alike_poll_publish (sound : s.SoundHubs) (quiet : s.ready = [])
    (latest : s.openHub? = some (f.hub, h)) (waits : AtRest s i f h) (idle : s.idleFeeds = [i])
    (readers : h.feeds.map (·.id) = [f.reader]) {n : Notification} {news : List Notification}
    (room : (n :: news).length ≤ h.size) :
    Alike ((s.performAll ((n :: news).map .publish)).poll (.feed i))
      (s.performAll ((n :: news).map .notify)) := by
  have inside := (List.getElem?_eq_some_iff.1 waits.hub).1
  have hsound := sound h (List.mem_of_getElem? waits.hub)
  have there : (h.place? f.reader).isSome = true := by
    rw [Hub.isSome_place?, readers]
    exact List.mem_singleton_self _
  have level := hsound.length_waiting f.reader
  rw [waits.level] at level
  replace room : h.backlog f.reader + (n :: news).length ≤ h.size := by
    rw [waits.level]
    omega
  obtain ⟨waiting, missed⟩ := Hub.reads_publishAll hsound there room
  rw [Hub.waiting_of_backlog hsound waits.level, List.nil_append] at waiting
  have published := performAll_publish quiet latest waits.there idle
    (Hub.feeds_of_place? there) n news
  generalize n :: news = news at *
  have turn := poll_feed (s := { s with
      hubs := s.hubs.set f.hub (h.publishAll news), idleFeeds := [], ready := [.feed i] })
    waits.there waits.unfinished waits.unaborted (List.getElem?_set_self inside)
    ((h.keeps_publishAll news).2.1.trans waits.isOpen) (missed.trans (by omega))
    (List.mem_singleton_self _)
  -- The feed notified the importer of the same news, at a site with another audience.
  have heard := deaf_performAll_notify news (s.hubs.set f.hub (h.publishAll news)) [] s
  have taken : ({ s with
      hubs := s.hubs.set f.hub (h.publishAll news)
      idleFeeds := []
      ready := List.erase [.feed i] (.feed i) } : Site) =
      s.withAudience (s.hubs.set f.hub (h.publishAll news)) [] := by
    rw [List.erase_cons_head, ← quiet]
    rfl
  dsimp only at turn heard
  rw [waiting, taken, heard] at turn
  rw [published, turn]
  have keeps := keepsFeeds_performAll_notify news s
  generalize s.performAll (news.map .notify) = t at keeps ⊢
  have same : t.withAudience s.hubs [i] = t := by rw [← idle, ← keeps.hubs, ← keeps.idle]; rfl
  refine ⟨s.hubs, same.symm, ?_⟩
  have like := like_publishAll hsound readers waits.level news
  have hubs := (HubsAlike.refl sound).set f.hub like
  have same : s.hubs.set f.hub h = s.hubs := by
    obtain ⟨-, rfl⟩ := List.getElem?_eq_some_iff.1 waits.hub
    exact List.set_getElem_self inside
  rw [same, List.set_eq_modify] at hubs
  show HubsAlike ((s.hubs.set f.hub (h.publishAll news)).modify f.hub _) s.hubs
  rw [List.set_eq_modify, List.modify_modify_eq]
  exact hubs

theorem Reachable.performAll_publish (reachable : Reachable allowed s) (news : List Notification) :
    Reachable (fun _ => True) (s.performAll (news.map .publish)) := by
  refine List.foldlRecOn _ _ (reachable.mono fun _ _ => trivial) fun t ht c hc => ?_
  obtain ⟨m, -, rfl⟩ := List.mem_map.1 hc
  exact .perform ht trivial nofun

theorem Reachable.performAll_notify (reachable : Reachable allowed s) (there : s.feeds[i]? = some f)
    (unfinished : f.finished = false) (news : List Notification) :
    Reachable (fun _ => True) (s.performAll (news.map .notify)) := by
  rw [Site.performAll_notify]
  refine (List.foldlRecOn news _ (motive := fun t =>
    Reachable (fun _ => True) t ∧ t.feeds[i]? = some f)
    ⟨reachable.mono fun _ _ => trivial, there⟩ fun t ht m _ => ?_).1
  exact ⟨.perform (c := .notify m) ht.1 trivial fun _ => isAlive_of_feed ht.2 unfinished,
    (keepsFeeds_notify m t).feeds ▸ ht.2⟩

theorem Reachable.alike_run_publish_notify (reachable : Reachable allowed s) (quiet : s.ready = [])
    (latest : s.openHub? = some (k, h)) (one : h.feedCount = 1) {news : List Notification}
    (room : news.length ≤ h.size) :
    (s.performAll (news.map .notify)).run.ready = [] ∧
      Alike (s.performAll (news.map .publish)).run (s.performAll (news.map .notify)).run := by
  have staffed := reachable.staffed
  obtain ⟨i, f, waits, rfl, idle, readers⟩ := staffed.sole quiet latest one
  have notified := ready_run (reachable.performAll_notify waits.there waits.unfinished news)
  refine ⟨notified, ?_⟩
  cases news with
  | nil =>
    have still : s.run = s := run_eq_turns reachable (n := 0) quiet
    exact Eq.subst (motive := fun t => Alike t t) still.symm (Alike.refl reachable.soundHubs)
  | cons n news =>
    -- The feed's turn comes first; what follows is the same turns at sites that are alike.
    have jobs : (s.performAll ((n :: news).map .publish)).ready = [.feed i] := by
      rw [Site.performAll_publish quiet latest waits.there idle fun none => ?_]
      rw [none] at readers
      cases readers
    obtain ⟨m, hm⟩ := exists_run_eq_turns (s.performAll ((n :: news).map .notify))
    rw [hm] at notified ⊢
    have alike :=
      Alike.turns (alike_poll_publish staffed.sound quiet latest waits idle readers room) m
    have turn : Site.turns (m + 1) (s.performAll ((n :: news).map .publish)) =
        Site.turns m ((s.performAll ((n :: news).map .publish)).poll (.feed i)) := by
      rw [Site.turns]
      simp only [jobs]
    rw [← turn] at alike
    rw [run_eq_turns (reachable.performAll_publish _) (alike.ready.symm.trans notified)]
    exact alike

/-- The same is recorded, registered, imported, accepted and yet to be collected at two sites. -/
structure Agrees (s t : Site) : Prop where
  ledger : s.ledger = t.ledger
  registrations : s.space.store.entries = t.space.store.entries
  imports : s.space.store.imports = t.space.store.imports
  locations : s.locations = t.locations
  finished : s.finished = t.finished

theorem Alike.agrees (alike : Alike s t) : Agrees s t := by
  obtain ⟨hubs, rfl, -⟩ := alike
  exact ⟨rfl, rfl, rfl, rfl, rfl⟩

/-- Where no job is ready and one feed is attached to the hub, any news for which the hub has room
may be published, or the importer notified of them: what runs until no job is ready comes to the
same. The feed has read everything before, since otherwise it would be ready. -/
theorem run_publish_agrees_run_notify (reachable : Reachable allowed s) (quiet : s.ready = [])
    (latest : s.openHub? = some (k, h)) (one : h.feedCount = 1) {news : List Notification}
    (room : news.length ≤ h.size) :
    (s.performAll (news.map .publish)).run.ready = [] ∧
      (s.performAll (news.map .notify)).run.ready = [] ∧
      Agrees (s.performAll (news.map .publish)).run (s.performAll (news.map .notify)).run := by
  obtain ⟨notified, alike⟩ := reachable.alike_run_publish_notify quiet latest one room
  exact ⟨alike.ready.symm.trans notified, notified, alike.agrees⟩

/-- A site with a lamp to import and a feed that has read everything. -/
def attendedLamp : Site := (litSite.perform .attach).poll (.feed 0)

/-- A lamp comes and goes before its resolution has run. -/
def lampPassing : List Notification :=
  [⟨.available, .native lampEndpoint⟩, ⟨.unavailable, .native lampEndpoint⟩]

theorem run_publish_agrees_run_notify_lamp :
    attendedLamp.ready = [] ∧ (∃ h, attendedLamp.openHub? = some (0, h) ∧ h.feedCount = 1 ∧
      lampPassing.length ≤ h.size) ∧
    (attendedLamp.performAll (lampPassing.map .publish)).run.ready = [] ∧
      (attendedLamp.performAll (lampPassing.map .notify)).run.ready = [] ∧
      Agrees (attendedLamp.performAll (lampPassing.map .publish)).run
        (attendedLamp.performAll (lampPassing.map .notify)).run := by
  have reachable : Reachable (fun _ => True) attendedLamp :=
    .poll (.perform (reachable_litSite trivial) trivial fun _ => rfl)
  have room : lampPassing.length ≤ powerOfTwoFrom (max attendedLamp.settings.hubCapacity 1) :=
    Nat.le_trans (by decide) (le_powerOfTwoFrom _)
  refine ⟨rfl, ⟨_, rfl, rfl, room⟩, ?_⟩
  exact run_publish_agrees_run_notify reachable rfl (k := 0) rfl rfl room

end ServiceImport.Site

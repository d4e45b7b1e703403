import Mathlib.Data.List.Perm.Basic
import Mathlib.Data.List.Nodup
import ServiceImport.Proofs.Hub.Likeness
import ServiceImport.Proofs.Site.Hubs
import ServiceImport.Proofs.Site.Readiness
import ServiceImport.Proofs.Site.Spans

/-! # Feeds and their readers

The readers of a hub are those of the feeds that are at work on it. Between turns, a feed that is
not ready waits for news of the latest hub, and it has none left to read.
-/

namespace ServiceImport.Site

variable {s t u : Site} {allowed : Command → Prop} {r : Resolution} {but : Option Nat}

/-! ## Readers -/

/-- The readers that feeds at work have of a hub, in the order of the feeds. -/
def readersOf (hub : Nat) (feeds : List Feed) : List Nat :=
  (feeds.filter fun f => !f.finished && f.hub == hub).map (·.reader)

/-- The readers that a hub knows of; there are none where there is no hub. -/
def hubReaders (hubs : List (Hub Notification)) (hub : Nat) : List Nat :=
  ((hubs[hub]?).map fun h => h.feeds.map (·.id)).getD []

theorem mem_readersOf {hub reader : Nat} {feeds : List Feed} :
    reader ∈ readersOf hub feeds ↔
      ∃ f ∈ feeds, f.finished = false ∧ f.hub = hub ∧ f.reader = reader := by
  simp [readersOf, and_assoc]

theorem readersOf_cons (hub : Nat) (f : Feed) (feeds : List Feed) :
    readersOf hub (f :: feeds) =
      (if !f.finished && f.hub == hub then [f.reader] else []) ++ readersOf hub feeds := by
  unfold readersOf
  rw [List.filter_cons]
  split <;> rfl

theorem readersOf_modify {g : Feed → Feed}
    (same : ∀ f, (g f).finished = f.finished ∧ (g f).hub = f.hub ∧ (g f).reader = f.reader)
    (hub : Nat) (feeds : List Feed) (i : Nat) :
    readersOf hub (feeds.modify i g) = readersOf hub feeds := by
  induction feeds generalizing i with
  | nil => rw [List.modify_nil]
  | cons f feeds ih =>
    cases i with
    | zero =>
      obtain ⟨finished, hub, reader⟩ := same f
      rw [List.modify_zero_cons, readersOf_cons, readersOf_cons, finished, hub, reader]
    | succ i => rw [List.modify_succ_cons, readersOf_cons, readersOf_cons, ih]

theorem readersOf_finish {feeds : List Feed} {i : Nat} {f : Feed} (there : feeds[i]? = some f)
    (unfinished : f.finished = false) (hub : Nat) (distinct : (readersOf f.hub feeds).Nodup) :
    readersOf hub (feeds.modify i ({ · with finished := true })) =
      if hub = f.hub then (readersOf hub feeds).filter (· != f.reader)
      else readersOf hub feeds := by
  induction feeds generalizing i with
  | nil => exact absurd there nofun
  | cons g feeds ih =>
    rw [readersOf_cons] at distinct
    cases i with
    | zero =>
      obtain rfl : g = f := Option.some.inj there
      rw [List.modify_zero_cons, readersOf_cons, readersOf_cons]
      by_cases same : hub = g.hub
      · subst same
        have own : (!g.finished && g.hub == g.hub) = true := by simp [unfinished]
        rw [if_pos own, List.singleton_append] at distinct
        have others : (readersOf g.hub feeds).filter (· != g.reader) = readersOf g.hub feeds := by
          refine List.filter_eq_self.2 fun reader there => bne_iff_ne.2 ?_
          rintro rfl
          exact (List.nodup_cons.1 distinct).1 there
        simp [unfinished, others]
      · simp [same, Ne.symm same]
    | succ i =>
      have later : feeds[i]? = some f := there
      obtain ⟨-, apart, differ⟩ := List.nodup_append.1 distinct
      rw [List.modify_succ_cons, readersOf_cons, readersOf_cons, ih later apart]
      by_cases same : hub = f.hub
      · subst same
        rw [if_pos rfl, if_pos rfl, List.filter_append]
        congr 1
        refine (List.filter_eq_self.2 fun reader own => bne_iff_ne.2 ?_).symm
        exact differ reader own f.reader
          (mem_readersOf.2 ⟨f, List.mem_of_getElem? later, unfinished, rfl, rfl⟩)
      · rw [if_neg same, if_neg same]

theorem hubReaders_of_getElem? {hubs : List (Hub Notification)} {hub : Nat}
    {h : Hub Notification} (there : hubs[hub]? = some h) :
    hubReaders hubs hub = h.feeds.map (·.id) := by
  unfold hubReaders
  rw [there]
  rfl

theorem hubReaders_modify (hubs : List (Hub Notification)) (i hub : Nat)
    {g : Hub Notification → Hub Notification} {f : List Nat → List Nat} (nil : f [] = [])
    (known : ∀ h, (g h).feeds.map (·.id) = f (h.feeds.map (·.id))) :
    hubReaders (hubs.modify i g) hub =
      if hub = i then f (hubReaders hubs hub) else hubReaders hubs hub := by
  unfold hubReaders
  rw [List.getElem?_modify]
  cases hubs[hub]? with
  | none => simp [nil]
  | some h =>
    by_cases same : i = hub
    · simp [same, known]
    · simp [same, Ne.symm same]

/-! ## Feeds at work -/

/-- The feed whose turn a job is. -/
def feed? : Job → Option Nat
  | .resolution _ => none
  | .feed i => some i

/-- The feeds that are ready, in the order of their turn. -/
def readyFeeds (s : Site) : List Nat := s.ready.filterMap feed?

/-- The feeds that wait for news or are ready. -/
def placedFeeds (s : Site) : List Nat := s.idleFeeds ++ s.readyFeeds

/-- A feed that waits for news has read all there are, and hears of the next. -/
structure AtRest (s : Site) (i : Nat) (f : Feed) (h : Hub Notification) : Prop where
  there : s.feeds[i]? = some f
  unfinished : f.finished = false
  unaborted : f.aborted = false
  hub : s.hubs[f.hub]? = some h
  isOpen : h.isOpen = true
  level : h.backlog f.reader = 0

/-- Each feed at work is placed once, but for one. -/
structure Roster (but : Option Nat) (feeds : List Feed) (placed : List Nat) : Prop where
  inside : ∀ i ∈ placed, i < feeds.length
  distinct : placed.Nodup
  whole : ∀ i f, feeds[i]? = some f → f.finished = false → some i ≠ but → i ∈ placed

/-- The readers of the hubs are those of the feeds at work, and each of these feeds either waits or
is ready, but for one. -/
structure Staffed (but : Option Nat) (s : Site) : Prop where
  sound : s.SoundHubs
  readers : ∀ hub, hubReaders s.hubs hub = readersOf hub s.feeds
  latest : ∀ i h, s.hubs[i]? = some h → h.isOpen = true → i + 1 = s.hubs.length
  idle : ∀ i ∈ s.idleFeeds, ∃ f h, AtRest s i f h
  roster : Roster but s.feeds s.placedFeeds

namespace Roster

variable {feeds feeds' : List Feed} {placed placed' : List Nat} {i : Nat}

theorem perm (h : Roster but feeds placed) (same : placed'.Perm placed) :
    Roster but feeds placed' where
  inside i hi := h.inside i (same.mem_iff.1 hi)
  distinct := same.symm.nodup h.distinct
  whole i f hf unfinished other := same.mem_iff.2 (h.whole i f hf unfinished other)

theorem cons (h : Roster (some i) feeds placed) (inside : i < feeds.length) (away : i ∉ placed) :
    Roster none feeds (i :: placed) where
  inside := List.forall_mem_cons.2 ⟨inside, h.inside⟩
  distinct := List.nodup_cons.2 ⟨away, h.distinct⟩
  whole j f hf unfinished _ := by
    by_cases same : j = i
    · exact same ▸ List.mem_cons_self
    · exact List.mem_cons_of_mem i (h.whole j f hf unfinished (by simpa using same))

theorem take (h : Roster none feeds placed) (sub : placed'.Sublist placed)
    (rest : ∀ j ∈ placed, j ≠ i → j ∈ placed') : Roster (some i) feeds placed' where
  inside j hj := h.inside j (sub.subset hj)
  distinct := h.distinct.sublist sub
  whole j f hf unfinished other := rest j (h.whole j f hf unfinished nofun) (by simpa using other)

theorem modify (h : Roster (some i) feeds placed) (g : Feed → Feed) :
    Roster (some i) (feeds.modify i g) placed where
  inside j hj := Nat.lt_of_lt_of_eq (h.inside j hj) (List.length_modify _ _ _).symm
  distinct := h.distinct
  whole j f hf unfinished other := by
    have apart : i ≠ j := by simpa using Ne.symm other
    exact h.whole j f ((List.getElem?_modify_ne _ _ apart).symm.trans hf) unfinished other

theorem finish (h : Roster (some i) feeds placed)
    (done : ∀ f, feeds[i]? = some f → f.finished = true) : Roster none feeds placed where
  inside := h.inside
  distinct := h.distinct
  whole j f hf unfinished _ := by
    refine h.whole j f hf unfinished ?_
    rintro same
    obtain rfl := Option.some.inj same
    exact Bool.false_ne_true (unfinished.symm.trans (done f hf))

theorem append (h : Roster none feeds placed) (f : Feed) :
    Roster (some feeds.length) (feeds ++ [f]) placed where
  inside j hj := Nat.lt_of_lt_of_le (h.inside j hj) (by simp)
  distinct := h.distinct
  whole j g hg unfinished other := by
    have bound := (List.getElem?_eq_some_iff.1 hg).1
    rw [List.length_append, List.length_singleton] at bound
    have earlier : j < feeds.length :=
      Nat.lt_of_le_of_ne (Nat.le_of_lt_succ bound) (by simpa using other)
    exact h.whole j g ((List.getElem?_append_left earlier).symm.trans hg) unfinished nofun

end Roster

/-- What happens to resolutions only. -/
structure KeepsFeeds (s t : Site) : Prop where
  hubs : t.hubs = s.hubs
  feeds : t.feeds = s.feeds
  idle : t.idleFeeds = s.idleFeeds
  ready : t.readyFeeds = s.readyFeeds

theorem KeepsFeeds.of_eq (hubs : t.hubs = s.hubs) (feeds : t.feeds = s.feeds)
    (idle : t.idleFeeds = s.idleFeeds) (ready : t.ready = s.ready) : KeepsFeeds s t :=
  ⟨hubs, feeds, idle, congrArg (List.filterMap feed?) ready⟩

theorem KeepsFeeds.refl (s : Site) : KeepsFeeds s s := .of_eq rfl rfl rfl rfl

theorem KeepsFeeds.trans (hst : KeepsFeeds s t) (htu : KeepsFeeds t u) : KeepsFeeds s u :=
  ⟨htu.hubs.trans hst.hubs, htu.feeds.trans hst.feeds, htu.idle.trans hst.idle,
    htu.ready.trans hst.ready⟩

theorem KeepsFeeds.foldl {α : Type} {f : Site → α → Site} (h : ∀ s a, KeepsFeeds s (f s a))
    (s : Site) (l : List α) : KeepsFeeds s (l.foldl f s) :=
  List.foldlRecOn l f (KeepsFeeds.refl s) fun t ht a _ => ht.trans (h t a)

theorem KeepsFeeds.placed (keeps : KeepsFeeds s t) : t.placedFeeds = s.placedFeeds := by
  unfold placedFeeds
  rw [keeps.idle, keeps.ready]

theorem LeavesJobs.keepsFeeds (h : LeavesJobs s t) : KeepsFeeds s t := by
  apply KeepsFeeds.of_eq
  all_goals rw [h]

theorem AtRest.of_eq {i : Nat} {f : Feed} {h : Hub Notification} (waits : AtRest s i f h)
    (feeds : t.feeds[i]? = s.feeds[i]?) (hubs : t.hubs[f.hub]? = s.hubs[f.hub]?) :
    AtRest t i f h :=
  ⟨feeds.trans waits.there, waits.unfinished, waits.unaborted, hubs.trans waits.hub, waits.isOpen,
    waits.level⟩

theorem AtRest.modify {i hub : Nat} {f : Feed} {h : Hub Notification}
    {F : Hub Notification → Hub Notification} (waits : AtRest s i f h)
    (feeds : t.feeds[i]? = s.feeds[i]?) (hubs : t.hubs = s.hubs.modify hub F)
    (isOpen : ∀ k, (F k).isOpen = k.isOpen)
    (level : ∀ k, s.hubs[hub]? = some k → k.backlog f.reader = 0 → (F k).backlog f.reader = 0) :
    ∃ k, AtRest t i f k := by
  by_cases same : hub = f.hub
  · subst same
    refine ⟨F h, feeds.trans waits.there, waits.unfinished, waits.unaborted, ?_,
      (isOpen h).trans waits.isOpen, level h waits.hub waits.level⟩
    rw [hubs, List.getElem?_modify_eq, waits.hub]
    rfl
  · exact ⟨h, waits.of_eq feeds (hubs ▸ List.getElem?_modify_ne _ _ same)⟩

theorem Staffed.keepsFeeds (h : Staffed but s) (keeps : KeepsFeeds s t) : Staffed but t where
  sound := h.sound.of_eq keeps.hubs
  readers hub := by rw [keeps.hubs, keeps.feeds, h.readers]
  latest i k hk := by
    rw [keeps.hubs] at hk ⊢
    exact h.latest i k hk
  idle i hi := by
    rw [keeps.idle] at hi
    obtain ⟨f, k, waits⟩ := h.idle i hi
    exact ⟨f, k, waits.of_eq (by rw [keeps.feeds]) (by rw [keeps.hubs])⟩
  roster := by
    rw [keeps.feeds, keeps.placed]
    exact h.roster

theorem mem_readyFeeds {i : Nat} : i ∈ s.readyFeeds ↔ .feed i ∈ s.ready := by
  unfold readyFeeds
  rw [List.mem_filterMap]
  constructor
  · rintro ⟨j, there, same⟩
    cases j with
    | resolution n => cases same
    | feed k => exact Option.some.inj same ▸ there
  · exact fun there => ⟨_, there, rfl⟩

theorem filterMap_erase_resolution (n : Nat) (jobs : List Job) :
    (jobs.erase (.resolution n)).filterMap feed? = jobs.filterMap feed? := by
  induction jobs with
  | nil => rfl
  | cons j jobs ih =>
    rw [List.erase_cons]
    split
    · next same =>
      rw [beq_iff_eq.1 same]
      rfl
    · rw [List.filterMap_cons, List.filterMap_cons, ih]

theorem filterMap_erase_feed (i : Nat) (jobs : List Job) :
    (jobs.erase (.feed i)).filterMap feed? = (jobs.filterMap feed?).erase i := by
  induction jobs with
  | nil => rfl
  | cons j jobs ih =>
    rw [List.erase_cons]
    cases j with
    | resolution n =>
      rw [if_neg (by simp)]
      exact ih
    | feed k =>
      have head (jobs : List Job) :
          (Job.feed k :: jobs).filterMap feed? = k :: jobs.filterMap feed? := rfl
      rw [head, List.erase_cons]
      by_cases same : k = i
      · rw [if_pos (by simpa using same), if_pos (by simpa using same)]
      · rw [if_neg (by simpa using same), if_neg (by simpa using same), head, ih]

theorem readyFeeds_wake (i : Nat) (s : Site) :
    (s.wake (.feed i)).readyFeeds =
      if i ∈ s.readyFeeds then s.readyFeeds else s.readyFeeds ++ [i] := by
  unfold wake
  split
  · next there => rw [if_pos (mem_readyFeeds.2 there)]
  · next new =>
    rw [if_neg (mt mem_readyFeeds.1 new)]
    exact List.filterMap_append

theorem keepsFeeds_wake (n : Nat) (s : Site) : KeepsFeeds s (s.wake (.resolution n)) := by
  refine ⟨?_, ?_, ?_, ?_⟩
  · rw [wake_eq]
  · rw [wake_eq]
  · rw [wake_eq]
  · unfold wake
    split
    · rfl
    · exact List.filterMap_append.trans (List.append_nil _)

/-- Feeds that were not ready become ready one after another. -/
theorem readyFeeds_wakeAll {numbers : List Nat} (new : (s.readyFeeds ++ numbers).Nodup) :
    (numbers.foldl (fun s i => s.wake (.feed i)) s).readyFeeds = s.readyFeeds ++ numbers := by
  induction numbers generalizing s with
  | nil => exact (List.append_nil _).symm
  | cons i numbers ih =>
    have fresh : i ∉ s.readyFeeds := fun there =>
      (List.nodup_append.1 new).2.2 i there i List.mem_cons_self rfl
    have woken : (s.wake (.feed i)).readyFeeds = s.readyFeeds ++ [i] :=
      (readyFeeds_wake i s).trans (if_neg fresh)
    rw [List.append_cons, ← woken] at new
    rw [List.foldl_cons, ih new, woken, List.append_assoc, List.singleton_append]

/-! ## Commands -/

theorem keepsFeeds_available (e : Endpoint) (s : Site) : KeepsFeeds s (s.available e) := by
  cases known : s.locations.contains e.location with
  | true =>
    rw [available_of_contains known]
    exact .of_eq rfl rfl rfl rfl
  | false =>
    rw [available_of_not_contains known]
    exact ⟨rfl, rfl, rfl, List.filterMap_append.trans (List.append_nil _)⟩

theorem keepsFeeds_notify (news : Notification) (s : Site) : KeepsFeeds s (s.notify news) := by
  unfold notify
  split
  · exact .of_eq rfl rfl rfl rfl
  · exact .of_eq rfl rfl rfl rfl
  · split
    · exact keepsFeeds_available _ s
    · exact (leavesJobs_unavailable _ s).keepsFeeds
    · exact .refl s
    · exact .refl s

theorem keepsFeeds_abortResolution (s : Site) (r : Resolution) :
    KeepsFeeds s (s.abortResolution r) := by
  unfold abortResolution
  dsimp only
  split
  · exact .of_eq rfl rfl rfl rfl
  · exact KeepsFeeds.trans (t := s.updateResolution r.id ({ · with aborted := true }))
      (.of_eq rfl rfl rfl rfl) (keepsFeeds_wake r.id _)

theorem keepsFeeds_setGate (key : String) (closed : Bool) (s : Site) :
    KeepsFeeds s (s.setGate key closed) := by
  unfold setGate
  dsimp only
  refine KeepsFeeds.trans ?_ (KeepsFeeds.foldl (fun s n => keepsFeeds_wake n s) _ _)
  exact .of_eq rfl rfl rfl rfl

namespace Staffed

theorem place {i : Nat} (h : Staffed (some i) s) (inside : i < s.feeds.length)
    (away : i ∉ s.placedFeeds) : Staffed none { s with ready := s.ready ++ [.feed i] } := by
  refine ⟨h.sound, h.readers, h.latest, fun j hj => ?_, (h.roster.cons inside away).perm ?_⟩
  · obtain ⟨f, k, waits⟩ := h.idle j hj
    exact ⟨f, k, waits.of_eq rfl rfl⟩
  · have ready : List.filterMap feed? (s.ready ++ [.feed i]) = s.readyFeeds ++ [i] :=
      List.filterMap_append
    show (s.idleFeeds ++ List.filterMap feed? (s.ready ++ [.feed i])).Perm (i :: s.placedFeeds)
    rw [ready, ← List.append_assoc]
    exact List.perm_append_singleton i _

theorem wake {i : Nat} (h : Staffed (some i) s) (inside : i < s.feeds.length)
    (unidle : i ∉ s.idleFeeds) : Staffed none (s.wake (.feed i)) := by
  unfold Site.wake
  split
  · next there =>
    have placed : i ∈ s.placedFeeds := List.mem_append_right _ (mem_readyFeeds.2 there)
    refine { h with roster := { h.roster with whole := fun j f hf unfinished _ => ?_ } }
    by_cases same : j = i
    · exact same ▸ placed
    · exact h.roster.whole j f hf unfinished (by simpa using same)
  · next new =>
    refine h.place inside fun placed => ?_
    exact (List.mem_append.1 placed).elim unidle (mt mem_readyFeeds.1 new)

theorem abortFeed (h : Staffed none s) (i : Nat) : Staffed none (s.abortFeed i) := by
  unfold Site.abortFeed
  split
  · exact h
  · next f there =>
    split
    · exact h
    · have length : i < (s.feeds.modify i ({ · with aborted := true })).length :=
        Nat.lt_of_lt_of_eq (List.getElem?_eq_some_iff.1 there).1 (List.length_modify _ _ _).symm
      refine wake ⟨h.sound, fun hub => ?_, h.latest, fun j hj => ?_, ?_⟩ length ?_
      · exact (h.readers hub).trans (readersOf_modify (g := ({ · with aborted := true }))
          (fun _ => ⟨rfl, rfl, rfl⟩) hub s.feeds i).symm
      · obtain ⟨hj, other⟩ := List.mem_filter.1 hj
        obtain ⟨g, k, waits⟩ := h.idle j hj
        exact ⟨g, k, waits.of_eq (List.getElem?_modify_ne _ _ (Ne.symm (bne_iff_ne.1 other))) rfl⟩
      · refine (h.roster.take (List.filter_sublist.append_right _) fun j hj other => ?_).modify _
        rcases List.mem_append.1 hj with idle | ready
        · exact List.mem_append_left _ (List.mem_filter.2 ⟨idle, by simpa using other⟩)
        · exact List.mem_append_right _ ready
      · exact fun hi => absurd (List.mem_filter.1 hi).2 (by simp)

theorem shutdown (h : Staffed none s) : Staffed none s.shutdown := by
  have aborted := h.keepsFeeds (KeepsFeeds.foldl keepsFeeds_abortResolution s s.resolutions)
  exact List.foldlRecOn _ _ aborted fun t ht i _ => ht.abortFeed i

theorem readers_set (h : Staffed none s) {i : Nat} {k k' : Hub Notification}
    (there : s.hubs[i]? = some k) (readers : k'.feeds.map (·.id) = k.feeds.map (·.id)) (hub : Nat) :
    hubReaders (s.hubs.set i k') hub = readersOf hub s.feeds := by
  rw [← h.readers]
  by_cases same : hub = i
  · subst same
    rw [hubReaders_of_getElem? (List.getElem?_set_self (List.getElem?_eq_some_iff.1 there).1),
      readers, hubReaders_of_getElem? there]
  · unfold hubReaders
    rw [List.getElem?_set_ne (Ne.symm same)]

theorem latest_set (h : Staffed none s) {i : Nat} {k m : Hub Notification}
    (there : s.hubs[i]? = some k) (isOpen : m.isOpen = true → k.isOpen = true) {j : Nat}
    {l : Hub Notification} (hl : (s.hubs.set i m)[j]? = some l) (opened : l.isOpen = true) :
    j + 1 = (s.hubs.set i m).length := by
  rw [List.length_set]
  by_cases same : j = i
  · subst same
    rw [List.getElem?_set_self (List.getElem?_eq_some_iff.1 there).1] at hl
    exact h.latest j k there (isOpen (Option.some.inj hl ▸ opened))
  · rw [List.getElem?_set_ne (Ne.symm same)] at hl
    exact h.latest j l hl opened

theorem wakeFeeds (h : Staffed none s) {i : Nat} {k k' : Hub Notification}
    (there : s.hubs[i]? = some k) (sound : k'.Sound)
    (readers : k'.feeds.map (·.id) = k.feeds.map (·.id))
    (isOpen : k'.isOpen = true → k.isOpen = true) :
    Staffed none (Site.wakeFeeds i { s with hubs := s.hubs.set i k' }) := by
  have placed : (s.idleFeeds.filter (!s.reads i ·) ++
      (s.readyFeeds ++ s.idleFeeds.filter (s.reads i ·))).Perm s.placedFeeds := by
    refine (List.Perm.append_left _ List.perm_append_comm).trans ?_
    rw [← List.append_assoc]
    refine List.Perm.append_right _ (List.perm_append_comm.trans ?_)
    exact List.filter_append_perm _ _
  have woken : (Site.wakeFeeds i { s with hubs := s.hubs.set i k' }).readyFeeds =
      s.readyFeeds ++ s.idleFeeds.filter (s.reads i ·) :=
    readyFeeds_wakeAll (s := { s with
      hubs := s.hubs.set i k', idleFeeds := s.idleFeeds.filter (!s.reads i ·) })
      ((placed.symm.nodup h.roster.distinct).sublist (List.sublist_append_right _ _))
  have idle : (Site.wakeFeeds i { s with hubs := s.hubs.set i k' }).idleFeeds =
      s.idleFeeds.filter (!s.reads i ·) := by
    unfold Site.wakeFeeds
    dsimp only
    rw [wakeAll_eq]
    rfl
  rw [← woken, ← idle] at placed
  rw [wakeFeeds_eq] at *
  refine ⟨h.sound.set sound rfl, h.readers_set there readers,
    fun _ _ hl opened => h.latest_set there isOpen hl opened, fun j hj => ?_, h.roster.perm placed⟩
  rw [idle] at hj
  obtain ⟨hj, other⟩ := List.mem_filter.1 hj
  obtain ⟨f, l, waits⟩ := h.idle j hj
  have apart : i ≠ f.hub := by
    rintro rfl
    simp [reads, waits.there] at other
  exact ⟨f, l, waits.of_eq rfl (List.getElem?_set_ne apart)⟩

theorem publish (h : Staffed none s) (news : Notification) :
    Staffed none (s.publish news).2 := by
  unfold Site.publish
  split
  · exact h
  · next i k latest =>
    have there := getElem?_of_openHub? latest
    have sound := h.sound k (List.mem_of_getElem? there)
    dsimp only
    split
    · next none =>
      have empty : k.feeds = [] := by
        by_contra some
        rw [Hub.publish_of_ne_nil some] at none
        exact some (List.length_eq_zero_iff.1 none)
      have same : s.hubs.set i k = s.hubs := by
        obtain ⟨inside, rfl⟩ := List.getElem?_eq_some_iff.1 there
        exact List.set_getElem_self inside
      rw [Hub.publish_of_isEmpty empty]
      dsimp only
      rw [same]
      exact h
    · obtain ⟨-, isOpen, -, feeds⟩ := k.keeps_publish news
      exact h.wakeFeeds there (sound.publish news) (congrArg _ feeds) fun opened => isOpen ▸ opened

theorem closeHub (h : Staffed none s) : Staffed none s.closeHub := by
  unfold Site.closeHub
  split
  · exact h
  · next i k latest =>
    have there := getElem?_of_openHub? latest
    exact h.wakeFeeds there (h.sound k (List.mem_of_getElem? there)).close rfl nofun

theorem ensureHub (h : Staffed none s) : Staffed none s.ensureHub := by
  have sound := h.sound.ensureHub
  unfold Site.ensureHub at sound ⊢
  split
  · exact h
  · next shut =>
    have closed : ∀ (i : Nat) (k : Hub Notification), s.hubs[i]? = some k → k.isOpen = false := by
      intro i k there
      refine eq_false_of_ne_true fun opened => ?_
      have last := h.latest i k there opened
      have latest : s.openHub? = some (i, k) := by
        refine openHub?_eq_some_iff.2 ⟨?_, opened, by omega⟩
        rw [List.getLast?_eq_getElem?, ← there]
        congr 1
        omega
      rw [shut] at latest
      cases latest
    rw [shut] at sound
    refine ⟨sound, fun hub => ?_, fun i k there opened => ?_, fun i hi => ?_, h.roster⟩
    · refine Eq.trans ?_ (h.readers hub)
      unfold hubReaders
      dsimp only
      rw [List.getElem?_append]
      split
      · rfl
      · next beyond =>
        rw [List.getElem?_eq_none (Nat.le_of_not_lt beyond)]
        rcases hub - s.hubs.length with - | n
        · rfl
        · rfl
    · dsimp only at there ⊢
      rw [List.getElem?_append] at there
      rw [List.length_append, List.length_singleton]
      split at there
      · rw [closed i k there] at opened
        cases opened
      · have := (List.getElem?_eq_some_iff.1 there).1
        rw [List.length_singleton] at this
        omega
    · obtain ⟨f, k, waits⟩ := h.idle i hi
      exact absurd waits.isOpen (ne_true_of_eq_false (closed f.hub k waits.hub))

theorem attach (h : Staffed none s) : Staffed none s.attach := by
  have h := h.ensureHub
  unfold Site.attach
  generalize s.ensureHub = s at h ⊢
  dsimp only
  split
  · exact h
  · next i k latest =>
    have there := getElem?_of_openHub? latest
    have sound := h.sound k (List.mem_of_getElem? there)
    have inside := (List.getElem?_eq_some_iff.1 there).1
    -- The feed is added while it is left out, and then becomes ready.
    refine place (s := { s with
      hubs := s.hubs.set i k.subscribe.2
      feeds := s.feeds ++ [{ hub := i, reader := k.subscribe.1 }] })
      ⟨h.sound.set sound.subscribe rfl, fun hub => ?_,
        fun _ _ hl opened => h.latest_set (m := k.subscribe.2) there id hl opened,
        fun j hj => ?_, h.roster.append _⟩
      (by simp) fun placed => Nat.lt_irrefl _ (h.roster.inside _ placed)
    · have added : readersOf hub (s.feeds ++ [{ hub := i, reader := k.subscribe.1 }]) =
          readersOf hub s.feeds ++ if i == hub then [k.subscribe.1] else [] := by
        have new := readersOf_cons hub { hub := i, reader := k.subscribe.1 } []
        rw [Bool.not_false, Bool.true_and] at new
        refine Eq.trans ?_ (congrArg _ (new.trans (List.append_nil _)))
        unfold readersOf
        rw [List.filter_append, List.map_append]
      refine Eq.trans ?_ added.symm
      rw [← h.readers]
      by_cases same : hub = i
      · subst same
        rw [hubReaders_of_getElem? (List.getElem?_set_self inside), hubReaders_of_getElem? there,
          if_pos (beq_self_eq_true hub)]
        exact List.map_append
      · unfold hubReaders
        rw [List.getElem?_set_ne (Ne.symm same), if_neg (by simpa using Ne.symm same),
          List.append_nil]
    · obtain ⟨f, l, waits⟩ := h.idle j hj
      have still : (s.feeds ++ [{ hub := i, reader := k.subscribe.1 }])[j]? = s.feeds[j]? :=
        List.getElem?_append_left (List.getElem?_eq_some_iff.1 waits.there).1
      by_cases same : f.hub = i
      · subst same
        obtain rfl := Option.some.inj (there.symm.trans waits.hub)
        refine ⟨f, k.subscribe.2, still.trans waits.there, waits.unfinished, waits.unaborted,
          List.getElem?_set_self inside, waits.isOpen, ?_⟩
        unfold Hub.backlog
        rw [Hub.cursor_subscribe sound]
        exact waits.level
      · exact ⟨f, l, waits.of_eq still (List.getElem?_set_ne (Ne.symm same))⟩

theorem perform (h : Staffed none s) (c : Command) : Staffed none (s.perform c) := by
  cases c with
  | attach => exact h.attach
  | publish news => exact h.publish news
  | closeHub => exact h.closeHub
  | shutdown => exact h.shutdown
  | abortFeed i => exact h.abortFeed i
  | available e => exact h.keepsFeeds (keepsFeeds_available e s)
  | unavailable e => exact h.keepsFeeds (leavesJobs_unavailable e s).keepsFeeds
  | notify news => exact h.keepsFeeds (keepsFeeds_notify news s)
  | setGate key closed => exact h.keepsFeeds (keepsFeeds_setGate key closed s)
  | withdrawService key reference =>
    exact h.keepsFeeds (leavesJobs_withdrawService key reference s).keepsFeeds
  | emit key reference host => exact h.keepsFeeds (leavesJobs_emit key reference host s).keepsFeeds
  | unregister | record | unrecordEndpoint | unrecordReference =>
    exact h.keepsFeeds (leavesJobs_bypass rfl s).keepsFeeds
  | dropImporter keepLedger =>
    refine h.keepsFeeds ?_
    dsimp only [Site.perform]
    rw [dropImporter_eq]
    exact .of_eq rfl rfl rfl rfl
  | publishService key interfaces properties =>
    refine h.keepsFeeds ?_
    dsimp only [Site.perform]
    rw [publishService_eq]
    exact .of_eq rfl rfl rfl rfl
  | observe key label =>
    refine h.keepsFeeds ?_
    dsimp only [Site.perform]
    rw [subscribe_eq]
    exact .of_eq rfl rfl rfl rfl
  | _ => exact h.keepsFeeds (.of_eq rfl rfl rfl rfl)

theorem performAll (h : Staffed none s) (commands : List Command) :
    Staffed none (s.performAll commands) :=
  List.foldlRecOn commands Site.perform h fun _ ht c _ => ht.perform c

end Staffed

/-! ## Turns of resolutions -/

theorem spans_staffed : Spans fun s t => Staffed none s → Staffed none t where
  trans hst htu h := htu (hst h)
  leaves leaves h := h.keepsFeeds leaves.keepsFeeds
  interrupt s h := by
    unfold interrupt
    refine Staffed.performAll (h.keepsFeeds ?_) _
    exact .of_eq rfl rfl rfl rfl

theorem keepsFeeds_releasePermit (s : Site) : KeepsFeeds s s.releasePermit := by
  unfold releasePermit
  dsimp only
  split
  · exact .of_eq rfl rfl rfl rfl
  · refine KeepsFeeds.trans ?_ (keepsFeeds_wake _ _)
    exact .of_eq rfl rfl rfl rfl

theorem keepsFeeds_retire (r : Resolution) (s : Site) : KeepsFeeds s (s.retire r) :=
  .of_eq rfl rfl rfl rfl

theorem keepsFeeds_complete (r : Resolution) (outcome : Outcome) (s : Site) :
    KeepsFeeds s (s.complete r outcome) := by
  unfold complete
  dsimp only
  refine KeepsFeeds.trans ?_ (keepsFeeds_retire r _)
  refine KeepsFeeds.trans ?_ (keepsFeeds_releasePermit _)
  cases outcome <;> exact .of_eq rfl rfl rfl rfl

theorem keepsFeeds_discard (r : Resolution) (s : Site) : KeepsFeeds s (s.discard r) := by
  have left : KeepsFeeds s (s.leaveQueues r) := by
    rw [leaveQueues_eq]
    exact .of_eq rfl rfl rfl rfl
  unfold discard
  dsimp only
  refine KeepsFeeds.trans (KeepsFeeds.trans (left.trans ?_) (keepsFeeds_retire r _))
    (leavesJobs_log _ _).keepsFeeds
  split
  · exact keepsFeeds_releasePermit _
  · exact .refl _

theorem keepsFeeds_conclude (r : Resolution) (p : Progress × Site) :
    KeepsFeeds p.2 (conclude r p) := by
  unfold conclude
  split
  · exact keepsFeeds_complete r _ _
  · split
    · exact .refl _
    · split
      · exact keepsFeeds_discard _ _
      · exact .of_eq rfl rfl rfl rfl

theorem Staffed.runResolution (h : Staffed none s) (r : Resolution) :
    Staffed none (s.runResolution r) := by
  have begins : ∀ {t : Site}, KeepsFeeds s t → Staffed none (t.begin r) := by
    intro t keeps
    have running : KeepsFeeds s (t.setStage r.id .running) := keeps.trans (.of_eq rfl rfl rfl rfl)
    have resolved := spans_staffed.resolve r.endpoint _ (h.keepsFeeds running)
    exact resolved.keepsFeeds (keepsFeeds_conclude r _)
  unfold Site.runResolution
  split
  · exact h.keepsFeeds (keepsFeeds_discard r s)
  · cases r.stage with
    | fresh =>
      dsimp only
      split
      · exact begins (.of_eq rfl rfl rfl rfl)
      · exact h.keepsFeeds (.of_eq rfl rfl rfl rfl)
    | admitted => exact begins (.refl s)
    | lookingUp c rest tally =>
      have resumed := spans_staffed.resumeThrough r.endpoint c rest tally _
        (h.keepsFeeds (t := s.setStage r.id .running) (.of_eq rfl rfl rfl rfl))
      exact resumed.keepsFeeds (keepsFeeds_conclude r _)
    | queued | running => exact h

/-! ## Turns of feeds -/

namespace Staffed

variable {i : Nat} {f : Feed}

theorem distinct_readersOf (h : Staffed but s) (hub : Nat) : (readersOf hub s.feeds).Nodup := by
  rw [← h.readers]
  unfold hubReaders
  cases there : s.hubs[hub]? with
  | none => exact List.nodup_nil
  | some k => exact (h.sound k (List.mem_of_getElem? there)).distinct

theorem latest_modify (h : Staffed but s) (hub : Nat) {g : Hub Notification → Hub Notification}
    (isOpen : ∀ k, (g k).isOpen = k.isOpen) {j : Nat} {l : Hub Notification}
    (hl : (s.hubs.modify hub g)[j]? = some l) (opened : l.isOpen = true) :
    j + 1 = (s.hubs.modify hub g).length := by
  rw [List.length_modify]
  rw [List.getElem?_modify] at hl
  obtain ⟨k, hk, rfl⟩ := Option.map_eq_some_iff.1 hl
  refine h.latest j k hk ?_
  split at opened
  · exact (isOpen k).symm.trans opened
  · exact opened

theorem endFeed (h : Staffed (some i) s) (there : s.feeds[i]? = some f)
    (unfinished : f.finished = false) (away : i ∉ s.placedFeeds) :
    Staffed none (s.endFeed i f) := by
  refine ⟨h.sound.unsubscribe i f, fun hub => ?_, fun _ _ hl opened =>
    h.latest_modify f.hub (g := (·.unsubscribe f.reader)) (fun _ => rfl) hl opened, fun j hj => ?_,
    (h.roster.modify _).finish fun g hg => ?_⟩
  · refine Eq.trans ?_ (readersOf_finish there unfinished hub (h.distinct_readersOf f.hub)).symm
    rw [← h.readers]
    refine hubReaders_modify s.hubs f.hub hub rfl fun k => ?_
    rw [List.filter_map]
    rfl
  · obtain ⟨g, _, waits⟩ := h.idle j hj
    have apart : i ≠ j := by
      rintro rfl
      exact away (List.mem_append_left _ hj)
    have still : (s.endFeed i f).feeds[j]? = s.feeds[j]? := List.getElem?_modify_ne _ _ apart
    refine ⟨g, waits.modify (F := (·.unsubscribe f.reader)) still rfl (fun _ => rfl)
      fun k _ level => ?_⟩
    rw [Hub.backlog_unsubscribe, level, ite_self]
  · have ended : (s.endFeed i f).feeds[i]? = some { f with finished := true } := by
      show (s.feeds.modify i _)[i]? = _
      rw [List.getElem?_modify_eq, there]
      rfl
    rw [← Option.some.inj (ended.symm.trans hg)]

theorem read (h : Staffed but s) {k : Hub Notification} (hub : s.hubs[f.hub]? = some k) :
    Staffed but (s.updateHub f.hub (·.moveTo f.reader k.published)) := by
  have sound := h.sound k (List.mem_of_getElem? hub)
  refine ⟨h.sound.updateHub fun l hl => ?_, fun reads => ?_, fun _ _ hl opened =>
    h.latest_modify f.hub (g := (·.moveTo f.reader k.published)) (fun _ => rfl) hl opened,
    fun j hj => ?_, h.roster⟩
  · obtain rfl := Option.some.inj (hub.symm.trans hl)
    exact sound.moveTo (Nat.le_refl _) _
  · refine Eq.trans ?_ (h.readers reads)
    exact (hubReaders_modify s.hubs f.hub reads (f := id) rfl fun l =>
      Hub.ids_moveTo l f.reader k.published).trans (ite_self _)
  · obtain ⟨g, _, waits⟩ := h.idle j hj
    refine ⟨g, waits.modify (F := (·.moveTo f.reader k.published)) rfl rfl (fun _ => rfl)
      fun l hl level => ?_⟩
    rw [← Option.some.inj (hub.symm.trans hl)] at level ⊢
    rw [Hub.backlog_moveTo_end, level, ite_self]

theorem rest {k : Hub Notification} (h : Staffed (some i) s) (waits : AtRest s i f k)
    (away : i ∉ s.placedFeeds) : Staffed none { s with idleFeeds := s.idleFeeds ++ [i] } := by
  have inside := (List.getElem?_eq_some_iff.1 waits.there).1
  refine ⟨h.sound, h.readers, h.latest, fun j hj => ?_, (h.roster.cons inside away).perm ?_⟩
  · rcases List.mem_append.1 hj with before | new
    · obtain ⟨g, l, waits⟩ := h.idle j before
      exact ⟨g, l, waits.of_eq rfl rfl⟩
    · rw [List.mem_singleton.1 new]
      exact ⟨f, k, waits.of_eq rfl rfl⟩
  · exact (List.perm_append_singleton i s.idleFeeds).append_right _

theorem exists_hub (h : Staffed but s) (there : s.feeds[i]? = some f)
    (unfinished : f.finished = false) : ∃ k, s.hubs[f.hub]? = some k := by
  have reads : f.reader ∈ readersOf f.hub s.feeds :=
    mem_readersOf.2 ⟨f, List.mem_of_getElem? there, unfinished, rfl, rfl⟩
  rw [← h.readers] at reads
  cases hub : s.hubs[f.hub]? with
  | some k => exact ⟨k, rfl⟩
  | none =>
    unfold hubReaders at reads
    rw [hub] at reads
    exact absurd reads List.not_mem_nil

theorem runFeed (h : Staffed (some i) s) (there : s.feeds[i]? = some f)
    (unfinished : f.finished = false) (away : i ∉ s.placedFeeds) :
    Staffed none (s.runFeed i f) := by
  unfold Site.runFeed
  split
  · next gone =>
    obtain ⟨k, hub⟩ := h.exists_hub there unfinished
    cases gone.symm.trans hub
  · next k hub =>
    split
    · exact h.endFeed there unfinished away
    · next unaborted =>
      dsimp only
      generalize hreported : (if k.missed f.reader = 0 then
        s.updateHub f.hub (·.moveTo f.reader k.published) else _) = reported
      have keeps : KeepsFeeds (s.updateHub f.hub (·.moveTo f.reader k.published)) reported := by
        rw [← hreported]
        split
        · exact .refl _
        · exact .of_eq rfl rfl rfl rfl
      replace keeps := keeps.trans
        (KeepsFeeds.foldl (fun s n => keepsFeeds_notify n s) reported (k.waiting f.reader))
      generalize (k.waiting f.reader).foldl (fun s n => s.notify n) reported = t at keeps ⊢
      have read := (h.read hub).keepsFeeds keeps
      have still : t.feeds[i]? = some f := keeps.feeds ▸ there
      have apart : i ∉ t.placedFeeds := keeps.placed ▸ away
      split
      · next opened =>
        refine read.rest (k := k.moveTo f.reader k.published)
          ⟨still, unfinished, eq_false_of_ne_true unaborted, ?_, opened, ?_⟩ apart
        · rw [keeps.hubs]
          show (s.hubs.modify f.hub _)[f.hub]? = _
          rw [List.getElem?_modify_eq, hub]
          rfl
        · rw [Hub.backlog_moveTo_end, if_pos rfl]
      · exact read.endFeed still unfinished apart

theorem poll (h : Staffed none s) (j : Job) : Staffed none (s.poll j) := by
  unfold Site.poll
  split
  · next ready =>
    have released : ∀ {t : Site}, Staffed none t → Staffed none t.releaseLedger := by
      intro t h
      refine h.keepsFeeds ?_
      rw [releaseLedger_eq]
      exact .of_eq rfl rfl rfl rfl
    apply released
    cases j with
    | resolution n =>
      have taken : Staffed none { s with ready := s.ready.erase (.resolution n) } :=
        h.keepsFeeds ⟨rfl, rfl, rfl, filterMap_erase_resolution n s.ready⟩
      dsimp only
      split
      · exact taken
      · exact taken.runResolution _
    | feed i =>
      obtain ⟨-, once, apart⟩ := List.nodup_append.1 h.roster.distinct
      have there : i ∈ s.readyFeeds := mem_readyFeeds.2 ready
      have placed : i ∈ s.placedFeeds := List.mem_append_right _ there
      have fewer : readyFeeds { s with ready := s.ready.erase (.feed i) } = s.readyFeeds.erase i :=
        filterMap_erase_feed i s.ready
      have taken : Staffed (some i) { s with ready := s.ready.erase (.feed i) } := by
        refine ⟨h.sound, h.readers, h.latest, fun j hj => ?_, h.roster.take ?_ fun j hj other => ?_⟩
        · obtain ⟨f, k, waits⟩ := h.idle j hj
          exact ⟨f, k, waits.of_eq rfl rfl⟩
        · unfold placedFeeds
          rw [fewer]
          exact List.erase_sublist.append_left _
        · unfold placedFeeds at hj ⊢
          rw [fewer]
          refine List.mem_append.2 ((List.mem_append.1 hj).imp_right fun hj => ?_)
          exact (List.mem_erase_of_ne other).2 hj
      have away : i ∉ placedFeeds { s with ready := s.ready.erase (.feed i) } := by
        unfold placedFeeds
        rw [fewer]
        intro hi
        rcases List.mem_append.1 hi with idle | again
        · exact apart i idle i there rfl
        · exact once.not_mem_erase again
      dsimp only
      split
      · next gone =>
        have outside := Nat.not_lt_of_le (List.getElem?_eq_none_iff.1 gone)
        exact absurd (h.roster.inside i placed) outside
      · next f found =>
        split
        · next finished =>
          refine { taken with roster := taken.roster.finish fun g hg => ?_ }
          rw [← Option.some.inj (found.symm.trans hg)]
          exact finished
        · next unfinished => exact taken.runFeed found (eq_false_of_ne_true unfinished) away
  · exact h

end Staffed

theorem Reachable.staffed (h : Reachable allowed s) : Staffed none s := by
  induction h with
  | build built =>
    rw [(build_eq built).1]
    exact ⟨nofun, fun _ => rfl, nofun, nofun, ⟨nofun, List.nodup_nil, nofun⟩⟩
  | perform _ _ _ ih => exact ih.perform _
  | plan _ _ ih => exact ih.keepsFeeds (.of_eq rfl rfl rfl rfl)
  | poll _ ih => exact ih.poll _

end ServiceImport.Site

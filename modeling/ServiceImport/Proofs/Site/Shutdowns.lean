import ServiceImport.Proofs.Site.Attendance
import ServiceImport.Proofs.Site.Quiescence

/-! # Shutting down

A shutdown marks what is at work. Each job that is marked ends in its next turn: it gives back what
it holds, and does nothing else. So nothing is at work once the ready jobs have run, and all that
was registered, recorded and accepted is there still. The importer can be used as before.
-/

namespace ServiceImport.Site

variable {s t u : Site} {m n : Moment} {allowed : Command → Prop} {r q : Resolution}

/-! ## Nobody keeps the turn -/

/-- Nobody has the turn who did not have it before. -/
def Idles (s t : Site) : Prop :=
  ∀ q ∈ t.resolutions, q.stage = .running → ∃ p ∈ s.resolutions, p.id = q.id ∧ p.stage = .running

theorem Idles.of_eq (same : t.resolutions = s.resolutions) : Idles s t :=
  fun q hq running => ⟨q, same ▸ hq, rfl, running⟩

theorem Idles.trans (hst : Idles s t) (htu : Idles t u) : Idles s u := by
  intro q hq running
  obtain ⟨p, hp, same, running⟩ := htu q hq running
  obtain ⟨o, ho, same', running⟩ := hst p hp running
  exact ⟨o, ho, same'.trans same, running⟩

theorem LeavesJobs.idles (h : LeavesJobs s t) : Idles s t := by
  apply Idles.of_eq
  rw [h]

theorem idles_available (e : Endpoint) (s : Site) : Idles s (s.available e) := by
  cases known : s.locations.contains e.location with
  | true =>
    rw [available_of_contains known]
    exact .of_eq rfl
  | false =>
    rw [available_of_not_contains known]
    intro q hq running
    rcases List.mem_append.1 hq with before | new
    · exact ⟨q, before, rfl, running⟩
    · rw [List.mem_singleton.1 new] at running
      cases running

theorem idles_shutdown (s : Site) : Idles s s.shutdown := by
  have marked : Idles s (s.resolutions.foldl abortResolution s) := by
    refine List.foldlRecOn s.resolutions abortResolution (.of_eq rfl) fun t ht r _ => ht.trans ?_
    rw [abortResolution_eq]
    refine List.forall_mem_map.2 fun p hp running => ⟨p, hp, ?_⟩
    split at running <;> simp_all
  rw [abortResolutions_eq] at marked
  rw [shutdown_eq]
  exact marked

theorem idles_setStage (k : Nat) {stage : Stage} (waits : stage ≠ .running) (s : Site) :
    Idles s (s.setStage k stage) := by
  refine List.forall_mem_map.2 fun p hp running => ⟨p, hp, ?_⟩
  split at running
  · exact absurd running waits
  · next other =>
    rw [if_neg other]
    exact ⟨rfl, running⟩

theorem Performed.idles {c : Command} (done : Performed s c t) : Idles s t := by
  cases done with
  | surround same =>
    apply Idles.of_eq
    rw [same]
  | place _ _ | report _ | collect => exact .of_eq rfl
  | available e _ => exact idles_available e s
  | unavailable e _ => exact (leavesJobs_unavailable e s).idles
  | shutdown => exact idles_shutdown s
  | dropImporter keepLedger =>
    rw [dropImporter_eq]
    exact .of_eq rfl
  | attach =>
    obtain ⟨added, heq⟩ := attach_eq s
    rw [heq]
    exact .of_eq rfl
  | abortFeed i =>
    rw [abortFeed_eq]
    exact .of_eq rfl
  | withdrawService key reference => exact (leavesJobs_withdrawService key reference s).idles
  | emit key reference host => exact (leavesJobs_emit key reference host s).idles
  | bypass ok => exact (leavesJobs_bypass ok s).idles

theorem of_mem_releasePermit (h : q ∈ s.releasePermit.resolutions) :
    ∃ p ∈ s.resolutions, q = p ∨ q = { p with stage := .admitted } := by
  unfold releasePermit at h
  dsimp only at h
  split at h
  · exact ⟨q, h, .inl rfl⟩
  · rw [wake_eq] at h
    obtain ⟨p, hp, rfl⟩ := List.mem_map.1 h
    refine ⟨p, hp, ?_⟩
    split
    · exact .inr rfl
    · exact .inl rfl

theorem idles_releasePermit (s : Site) : Idles s s.releasePermit := by
  intro q hq running
  obtain ⟨p, hp, rfl | rfl⟩ := of_mem_releasePermit hq
  · exact ⟨_, hp, rfl, running⟩
  · cases running

theorem of_mem_retire (h : q ∈ (s.retire r).resolutions) : q ∈ s.resolutions ∧ q.id ≠ r.id :=
  (List.mem_filter.1 h).imp_right bne_iff_ne.1

theorem of_mem_discard (h : q ∈ (s.discard r).resolutions) :
    q.id ≠ r.id ∧ ∃ p ∈ s.resolutions, q = p ∨ q = { p with stage := .admitted } := by
  have left : (s.leaveQueues r).resolutions = s.resolutions := by rw [leaveQueues_eq]
  obtain ⟨hq, other⟩ := of_mem_retire h
  refine ⟨other, ?_⟩
  split at hq
  · exact left ▸ of_mem_releasePermit hq
  · exact ⟨q, left ▸ hq, .inl rfl⟩

theorem idles_discard (r : Resolution) (s : Site) : Idles s (s.discard r) := by
  intro q hq running
  obtain ⟨-, p, hp, rfl | rfl⟩ := of_mem_discard hq
  · exact ⟨_, hp, rfl, running⟩
  · cases running

theorem idles_complete (r : Resolution) (outcome : Outcome) (s : Site) :
    Idles s (s.complete r outcome) := by
  unfold complete
  dsimp only
  generalize hended : log (.completed r.id r.endpoint outcome) _ = ended
  have same : ended.resolutions = s.resolutions := by
    rw [← hended]
    cases outcome <;> rfl
  refine (Idles.of_eq same).trans ((idles_releasePermit ended).trans ?_)
  exact fun q hq running => ⟨q, (of_mem_retire hq).1, rfl, running⟩

/-- Only the resolution whose turn it is has it. -/
def Solo (m : Moment) : Prop :=
  ∀ q ∈ m.site.resolutions, q.stage = .running → ∃ r, m.phase.resolution? = some r ∧ r.id = q.id

theorem Solo.idles {p p' : Phase} (h : Solo ⟨s, p⟩) (idles : Idles s t)
    (same : p'.resolution? = p.resolution?) : Solo ⟨t, p'⟩ := by
  intro q hq running
  obtain ⟨o, ho, id, running⟩ := idles q hq running
  obtain ⟨r, turn, id'⟩ := h o ho running
  exact ⟨r, same.trans turn, id'.trans id⟩

theorem Solo.ends (h : Solo ⟨s, .resolving r⟩) (idles : Idles s t)
    (ended : ∀ q ∈ t.resolutions, q.id = r.id → q.stage ≠ .running) : Solo ⟨t, .idle⟩ := by
  intro q hq running
  obtain ⟨p, hp, id, before⟩ := idles q hq running
  obtain ⟨now, turn, id'⟩ := h p hp before
  obtain rfl := Option.some.inj turn
  exact absurd running (ended q hq (id.symm.trans id'.symm))

theorem Solo.begins (h : Solo ⟨s, .idle⟩) (same : t.resolutions = s.resolutions) :
    Solo ⟨t.setStage r.id .running, .resolving r⟩ := by
  refine List.forall_mem_map.2 fun p hp running => ⟨r, rfl, ?_⟩
  split at running
  · next here => rw [if_pos here, here]
  · obtain ⟨_, turn, _⟩ := h p (same ▸ hp) running
    cases turn

theorem Change.solo (change : Change allowed m n) (h : Solo m) : Solo n := by
  cases change with
  | @perform s p c _ _ => exact h.idles (performed s c).idles rfl
  | report _ | plan _ | take _ | countLookups _ | prepare _ _ | refuse _ | fault _ _ | read _ _ _ _
  | rest | finish _ | abandon _ _ _ => exact h.idles (.of_eq rfl) rfl
  | release =>
    rw [releaseLedger_eq]
    exact h.idles (.of_eq rfl) rfl
  | discard _ _ => exact h.idles (idles_discard _ _) rfl
  | queue _ _ _ =>
    refine h.idles (Idles.trans ?_ (idles_setStage _ (by simp) _)) rfl
    exact .of_eq rfl
  | enter _ _ _ => exact h.begins rfl
  | resume _ _ => exact h.begins rfl
  | @await s r _ c rest tally _ _ _ =>
    have waits : Stage.lookingUp c rest tally ≠ .running := nofun
    refine h.ends (idles_setStage r.id waits s) ?_
    refine List.forall_mem_map.2 fun p _ here => ?_
    split at here <;> simp_all
  | drop there _ =>
    refine h.ends (idles_discard _ _) fun q hq here => ?_
    exact absurd (here.trans (mem_of_resolution? there).2.symm) (of_mem_discard hq).1
  | complete outcome =>
    exact h.ends (idles_complete _ outcome _) fun q hq here => absurd here (of_mem_retire hq).2
  | subscribe c =>
    rw [subscribe_eq]
    exact h.idles (.of_eq rfl) rfl
  | register _ _ => exact h.idles (leavesJobs_recordRegistered _ _ _ _ _ _ _ _).idles rfl
  | unsubscribe =>
    rw [cancel_eq]
    exact h.idles (.of_eq rfl) rfl
  | @notify s i news => exact h.idles (performed_notify news s).idles rfl

theorem Reachable.stage_ne_running (h : Reachable allowed s) (there : r ∈ s.resolutions) :
    r.stage ≠ .running := by
  intro running
  have solo : Solo ⟨s, .idle⟩ := by
    refine (h.invariant (fun built => ?_) fun _ change => change.solo).2
    rw [(build_eq built).1]
    nofun
  obtain ⟨_, turn, _⟩ := solo r there running
  cases turn

/-! ## What a shutdown marks -/

/-- What is at work is aborted and has its turn to come, but for one job. -/
structure Stopping (but : Option Job) (s : Site) : Prop where
  aborted : ∀ q ∈ s.resolutions, q.aborted = true
  resolutions : ∀ q ∈ s.resolutions, some (.resolution q.id) ≠ but → .resolution q.id ∈ s.ready
  feeds : ∀ i f, s.feeds[i]? = some f → f.finished = false →
    f.aborted = true ∧ (some (.feed i) ≠ but → .feed i ∈ s.ready)

/-- The resolutions of a number are aborted and have their turn to come. -/
def Doomed (k : Nat) (s : Site) : Prop :=
  .resolution k ∈ s.ready ∧ ∀ q ∈ s.resolutions, q.id = k → q.aborted = true

theorem doomed_abortResolution (idle : r.stage ≠ .running) (s : Site) :
    Doomed r.id (s.abortResolution r) := by
  constructor
  · unfold abortResolution
    dsimp only
    split
    · next running => exact absurd running idle
    · exact mem_ready_wake _ _
  · rw [abortResolution_eq]
    refine List.forall_mem_map.2 fun p _ here => ?_
    split at here <;> simp_all

theorem Doomed.abortResolution {k : Nat} (h : Doomed k s) (r : Resolution) :
    Doomed k (s.abortResolution r) := by
  refine ⟨(rouses_abortResolution s r).ready _ h.1, ?_⟩
  rw [abortResolution_eq]
  refine List.forall_mem_map.2 fun p hp here => ?_
  split at here
  · next same => rw [if_pos same]
  · next other =>
    rw [if_neg other]
    exact h.2 p hp here

theorem Doomed.abortFeed {k : Nat} (h : Doomed k s) (i : Nat) : Doomed k (s.abortFeed i) := by
  refine ⟨(rouses_abortFeed i s).ready _ h.1, ?_⟩
  rw [abortFeed_eq]
  exact h.2

/-- A feed at work is aborted and has its turn to come. -/
def Ending (i : Nat) (s : Site) : Prop :=
  ∀ f, s.feeds[i]? = some f → f.finished = false → f.aborted = true ∧ .feed i ∈ s.ready

/-- A feed at work that is aborted is marked and has its turn to come; nothing happens to another. -/
theorem abortFeed_cases (i : Nat) (s : Site) :
    (∃ f, s.feeds[i]? = some f ∧ f.finished = false ∧ .feed i ∈ (s.abortFeed i).ready ∧
        (s.abortFeed i).feeds = s.feeds.modify i ({ · with aborted := true })) ∨
      (∀ f, s.feeds[i]? = some f → f.finished = true) ∧ s.abortFeed i = s := by
  unfold abortFeed
  cases there : s.feeds[i]? with
  | none => exact .inr ⟨nofun, rfl⟩
  | some f =>
    cases finished : f.finished with
    | true => exact .inr ⟨fun g hg => Option.some.inj hg ▸ finished, by simp [finished]⟩
    | false =>
      refine .inl ⟨f, rfl, finished, ?_, ?_⟩
      · simp only [finished, Bool.false_eq_true, if_false]
        exact mem_ready_wake _ _
      · simp only [finished, Bool.false_eq_true, if_false]
        rw [wake_eq]
        rfl

theorem ending_abortFeed (i : Nat) (s : Site) : Ending i (s.abortFeed i) := by
  intro g hg unfinished
  rcases abortFeed_cases i s with ⟨f, there, -, ready, feeds⟩ | ⟨done, same⟩
  · rw [feeds, List.getElem?_modify_eq, there] at hg
    exact ⟨(Option.some.inj hg) ▸ rfl, ready⟩
  · rw [same] at hg
    exact absurd (done g hg) (ne_true_of_eq_false unfinished)

theorem Ending.abortFeed {i : Nat} (h : Ending i s) (k : Nat) : Ending i (s.abortFeed k) := by
  by_cases same : k = i
  · exact same ▸ ending_abortFeed k s
  · have still : (s.abortFeed k).feeds[i]? = s.feeds[i]? := by
      rcases abortFeed_cases k s with ⟨_, _, _, _, feeds⟩ | ⟨_, unchanged⟩
      · rw [feeds, List.getElem?_modify_ne _ _ same]
      · rw [unchanged]
    intro f hf unfinished
    exact (h f (still.symm.trans hf) unfinished).imp_right ((rouses_abortFeed k s).ready _)

theorem length_feeds_abortFeed (i : Nat) (s : Site) :
    (s.abortFeed i).feeds.length = s.feeds.length := by
  rcases abortFeed_cases i s with ⟨_, _, _, _, feeds⟩ | ⟨_, unchanged⟩
  · rw [feeds, List.length_modify]
  · rw [unchanged]

theorem stopping_shutdown (h : Reachable allowed s) : Stopping none s.shutdown := by
  have marked : ∀ q ∈ s.shutdown.resolutions, Doomed q.id s.shutdown := by
    intro q hq
    obtain ⟨r, hr, same⟩ : ∃ r ∈ s.resolutions, r.id = q.id := by
      have flying : (q.id, q.endpoint) ∈ s.shutdown.flying :=
        List.mem_map_of_mem (f := fun r => (r.id, r.endpoint)) hq
      rw [flying_shutdown] at flying
      obtain ⟨r, hr, same⟩ := List.mem_map.1 flying
      exact ⟨r, hr, congrArg Prod.fst same⟩
    rw [← same]
    have aborted : Doomed r.id (s.resolutions.foldl abortResolution s) :=
      foldl_of_mem hr (doomed_abortResolution (h.stage_ne_running hr))
        (fun _ q marked => marked.abortResolution q) s
    exact List.foldlRecOn _ _ aborted fun _ marked i _ => marked.abortFeed i
  refine ⟨fun q hq => (marked q hq).2 q hq rfl, fun q hq _ => (marked q hq).1, ?_⟩
  intro i f hf unfinished
  have inside : i ∈ List.range (s.resolutions.foldl abortResolution s).feeds.length := by
    have length : s.shutdown.feeds.length =
        (s.resolutions.foldl abortResolution s).feeds.length := by
      unfold shutdown
      refine List.foldlRecOn (motive := fun t : Site => t.feeds.length =
        (s.resolutions.foldl abortResolution s).feeds.length) _ _ rfl ?_
      exact fun t same k _ => (length_feeds_abortFeed k t).trans same
    rw [List.mem_range, ← length]
    exact (List.getElem?_eq_some_iff.1 hf).1
  have ending : Ending i s.shutdown :=
    foldl_of_mem inside (ending_abortFeed i) (fun _ k ending => ending.abortFeed k) _
  exact (ending f hf unfinished).imp_right fun ready _ => ready

/-! ## What a turn ends -/

/-- What is at work ends, and nothing else happens. -/
structure Halts (s t : Site) : Prop where
  audience : t.audience = s.audience
  told : ∃ gone, s.flying.Perm (gone ++ t.flying) ∧
    t.journal = s.journal ++ gone.map fun r => .aborted r.1 r.2
  kept : t = { s with
    adapters := t.adapters
    limiter := t.limiter
    pending := t.pending
    resolutions := t.resolutions
    hubs := t.hubs
    feeds := t.feeds
    idleFeeds := t.idleFeeds
    ready := t.ready
    journal := t.journal }

theorem Halts.importerHeld (h : Halts s t) : t.importerHeld = s.importerHeld := by
  rw [h.kept]

theorem Halts.trans (hst : Halts s t) (htu : Halts t u) : Halts s u where
  audience := htu.audience.trans hst.audience
  told := by
    obtain ⟨gone, flying, journal⟩ := hst.told
    obtain ⟨gone', flying', journal'⟩ := htu.told
    refine ⟨gone ++ gone', ?_, ?_⟩
    · rw [List.append_assoc]
      exact flying.trans (flying'.append_left gone)
    · rw [journal', journal, List.append_assoc, List.map_append]
  kept := by
    have kept := htu.kept
    rw [hst.kept] at kept
    exact kept

theorem Halts.of_eq (adapters : t.adapters = s.adapters) (flying : t.flying = s.flying)
    (kept : t = { s with
      resolutions := t.resolutions
      hubs := t.hubs
      feeds := t.feeds
      idleFeeds := t.idleFeeds
      ready := t.ready }) : Halts s t where
  audience := (KeepsAdapters.of_eq adapters).audience
  told := by
    refine ⟨[], by rw [flying, List.nil_append], ?_⟩
    rw [kept, List.map_nil, List.append_nil]
  kept := by
    rw [kept]

theorem Halts.refl (s : Site) : Halts s s := .of_eq rfl rfl rfl

theorem halts_shutdown (s : Site) : Halts s s.shutdown := by
  refine .of_eq ?_ (flying_shutdown s) ?_
  · rw [shutdown_eq]
  · rw [shutdown_eq]

theorem halts_discard (accounted : s.Accounted) (there : r ∈ s.resolutions) :
    Halts s (s.discard r) := by
  obtain ⟨f, same, heq⟩ := discard_eq r s
  refine ⟨(keepsAdapters_discard r s).audience, ⟨[(r.id, r.endpoint)], ?_, ?_⟩, ?_⟩
  · have flies : (r.id, r.endpoint) ∈ s.flying :=
      List.mem_map_of_mem (f := fun r => (r.id, r.endpoint)) there
    exact (accounted.retire (t := s.discard r) flies same (by rw [heq]) (by rw [heq])).1
  · rw [heq]
    rfl
  · rw [heq]

theorem Stopping.discard (h : Stopping (some (.resolution r.id)) s) :
    Stopping none (s.discard r) := by
  have ready := (rouses_discard r s).ready
  refine ⟨fun q hq => ?_, fun q hq _ => ?_, fun i f hf unfinished => ?_⟩
  · obtain ⟨-, p, hp, rfl | rfl⟩ := of_mem_discard hq
    · exact h.aborted _ hp
    · exact h.aborted p hp
  · obtain ⟨other, p, hp, same⟩ := of_mem_discard hq
    have id : q.id = p.id := by rcases same with rfl | rfl <;> rfl
    rw [id] at other ⊢
    exact ready _ (h.resolutions p hp (by simpa using other))
  · have feeds : (s.discard r).feeds = s.feeds := by
      obtain ⟨_, _, heq⟩ := discard_eq r s
      rw [heq]
    rw [feeds] at hf
    exact (h.feeds i f hf unfinished).imp_right fun there _ => ready _ (there (by simp))

theorem Stopping.endFeed {i : Nat} (h : Stopping (some (.feed i)) s) (f : Feed) :
    Stopping none (s.endFeed i f) := by
  refine ⟨h.aborted, fun q hq _ => h.resolutions q hq (by simp), fun k g hg unfinished => ?_⟩
  replace hg : (s.feeds.modify i ({ · with finished := true }))[k]? = some g := hg
  by_cases same : i = k
  · subst same
    rw [List.getElem?_modify_eq] at hg
    obtain ⟨_, _, rfl⟩ := Option.map_eq_some_iff.1 hg
    cases unfinished
  · rw [List.getElem?_modify_ne _ _ same] at hg
    exact (h.feeds k g hg unfinished).imp_right fun there _ => there (by simpa using Ne.symm same)

theorem Stopping.stale {j : Job} (h : Stopping (some j) s)
    (resolutions : ∀ q ∈ s.resolutions, .resolution q.id ≠ j)
    (feeds : ∀ i f, s.feeds[i]? = some f → f.finished = false → .feed i ≠ j) : Stopping none s where
  aborted := h.aborted
  resolutions q hq _ := h.resolutions q hq (by simpa using resolutions q hq)
  feeds i f hf unfinished :=
    (h.feeds i f hf unfinished).imp_right fun there _ =>
      there (by simpa using feeds i f hf unfinished)

theorem releaseLedger_of_held (held : s.importerHeld = true) : s.releaseLedger = s := by
  unfold releaseLedger
  rw [isAlive_of_held held]
  rfl

theorem Stopping.take (h : Stopping none s) (j : Job) :
    Stopping (some j) { s with ready := s.ready.erase j } := by
  have kept : ∀ k : Job, k ∈ s.ready → some k ≠ some j → k ∈ s.ready.erase j :=
    fun k there other => (List.mem_erase_of_ne fun same => other (congrArg some same)).2 there
  refine ⟨h.aborted, fun q hq => kept _ (h.resolutions q hq nofun), fun i f hf unfinished => ?_⟩
  exact (h.feeds i f hf unfinished).imp_right fun there => kept _ (there nofun)

/-- A turn while everything stops ends a job if it does anything. -/
theorem Stopping.poll (h : Reachable allowed s) (stopping : Stopping none s)
    (held : s.importerHeld = true) (j : Job) : Stopping none (s.poll j) ∧ Halts s (s.poll j) := by
  by_cases ready : j ∈ s.ready
  case neg =>
    unfold Site.poll
    rw [if_neg ready]
    exact ⟨stopping, .refl s⟩
  have taken := stopping.take j
  have start : Halts s { s with ready := s.ready.erase j } := .of_eq rfl rfl rfl
  have rest : ∀ {t : Site}, Stopping none t → Halts { s with ready := s.ready.erase j } t →
      Stopping none t.releaseLedger ∧ Halts s t.releaseLedger := by
    intro t stopping halts
    rw [releaseLedger_of_held (halts.importerHeld.trans held)]
    exact ⟨stopping, start.trans halts⟩
  unfold Site.poll
  rw [if_pos ready]
  -- A job that is not at work any more changes nothing; all others are aborted and end.
  cases j with
  | resolution k =>
    dsimp only
    split
    · next gone =>
      refine rest (taken.stale (fun q hq same => ?_) nofun) (.refl _)
      have other := List.find?_eq_none.1 gone q hq
      simp [Job.resolution.inj same] at other
    · next r there =>
      obtain ⟨there, rfl⟩ := mem_of_resolution? there
      unfold runResolution
      rw [if_pos (stopping.aborted r there)]
      have accounted : Accounted { s with ready := s.ready.erase (.resolution r.id) } :=
        h.accounted.2.of_eq rfl rfl rfl rfl fun _ => rfl
      exact rest taken.discard (halts_discard accounted there)
  | feed i =>
    dsimp only
    split
    · next gone =>
      refine rest (taken.stale nofun fun k f hf _ same => ?_) (.refl _)
      rw [Job.feed.inj same, gone] at hf
      cases hf
    · next f there =>
      split
      · next finished =>
        refine rest (taken.stale nofun fun k g hg unfinished same => ?_) (.refl _)
        rw [Job.feed.inj same, there] at hg
        rw [← Option.some.inj hg, finished] at unfinished
        cases unfinished
      · next unfinished =>
        have unfinished := eq_false_of_ne_true unfinished
        obtain ⟨hub, found⟩ := h.staffed.exists_hub there unfinished
        unfold runFeed
        dsimp only
        rw [found]
        dsimp only
        rw [if_pos (stopping.feeds i f there unfinished).1]
        exact rest (taken.endFeed f) (.of_eq rfl rfl rfl)

/-! ## Runs after a shutdown -/

theorem Stopping.turns (h : Reachable allowed s) (stopping : Stopping none s)
    (held : s.importerHeld = true) (k : Nat) :
    Stopping none (turns k s) ∧ Halts s (turns k s) := by
  induction k generalizing s with
  | zero => exact ⟨stopping, .refl s⟩
  | succ k ih =>
    unfold Site.turns
    split
    · exact ⟨stopping, .refl s⟩
    · next j _ _ =>
      obtain ⟨stopping, halts⟩ := stopping.poll h held j
      obtain ⟨stopping, halts'⟩ := ih h.poll stopping (halts.importerHeld.trans held)
      exact ⟨stopping, halts.trans halts'⟩

/-- Nothing is at work: no job is ready, no resolution in flight and no feed attached, and all
permits are free. -/
structure AtEase (s : Site) : Prop where
  ready : s.ready = []
  resolutions : s.resolutions = []
  pending : s.pending.isEmpty = true
  finished : ∀ f ∈ s.feeds, f.finished = true
  readers : ∀ hub ∈ s.hubs, hub.feeds = []
  limiter : s.limiter = { free := max s.settings.limit 1 }

theorem Stopping.atEase (h : Reachable allowed s) (stopping : Stopping none s)
    (quiet : s.ready = []) : s.AtEase := by
  have resolutions : s.resolutions = [] := by
    refine List.eq_nil_iff_forall_not_mem.2 fun q hq => ?_
    have ready := stopping.resolutions q hq nofun
    rw [quiet] at ready
    cases ready
  have finished : ∀ f ∈ s.feeds, f.finished = true := by
    intro f hf
    obtain ⟨i, there⟩ := List.mem_iff_getElem?.1 hf
    refine eq_true_of_ne_false fun unfinished => ?_
    have ready := (stopping.feeds i f there unfinished).2 nofun
    rw [quiet] at ready
    cases ready
  refine ⟨quiet, resolutions, h.accounted.2.idle.2 resolutions, finished, fun hub there => ?_,
    h.limiter_eq resolutions⟩
  -- The readers of a hub are those of feeds at work.
  obtain ⟨i, found⟩ := List.mem_iff_getElem?.1 there
  have readers := h.staffed.readers i
  have none : readersOf i s.feeds = [] := by
    refine List.eq_nil_iff_forall_not_mem.2 fun reader reads => ?_
    obtain ⟨f, hf, unfinished, -, -⟩ := mem_readersOf.1 reads
    exact ne_true_of_eq_false unfinished (finished f hf)
  rw [hubReaders_of_getElem? found, none] at readers
  exact List.map_eq_nil_iff.1 readers

theorem AtEase.standing (ease : t.AtEase) (halts : Halts s t) {e : Endpoint}
    (pending : s.standing e = .pending) :
    t.standing e = if t.locations.contains e.location then .retained else .unseen := by
  have ledger : t.ledger = s.ledger := by rw [halts.kept]
  have unrecorded : s.ledger.contains e.id = false := by
    refine eq_false_of_ne_true fun recorded => ?_
    unfold Site.standing at pending
    rw [if_pos recorded] at pending
    cases pending
  have idle : t.pending.contains e.id = false := by
    unfold Pending.contains
    rw [List.isEmpty_iff.1 ease.pending]
    rfl
  unfold Site.standing
  rw [ledger, unrecorded, idle]
  rfl

theorem poll_alone {k free : Nat} {e : Endpoint} (some : free ≠ 0)
    (resolutions : s.resolutions = [{ id := k, endpoint := e }])
    (ready : s.ready = [.resolution k]) (limiter : s.limiter = { free }) :
    s.poll (.resolution k) = releaseLedger (begin { id := k, endpoint := e }
      { s with ready := [], limiter := { free := free - 1 } }) := by
  have acquired : s.limiter.acquire k = (true, { free := free - 1 }) := by
    rw [limiter]
    exact if_neg some
  have found : resolution? { s with ready := s.ready.erase (.resolution k) } k =
      Option.some { id := k, endpoint := e } := by
    unfold resolution?
    rw [resolutions, List.find?_cons_of_pos (by simp)]
  unfold poll
  rw [if_pos (by rw [ready]; exact List.mem_cons_self)]
  dsimp only
  rw [found]
  unfold runResolution
  dsimp only
  rw [acquired, ready, List.erase_cons_head]
  rfl

/-- While nothing is at work, the news of an endpoint starts the one resolution there is, and it has
the first turn. -/
theorem AtEase.available (h : Reachable (fun _ => True) s) (ease : s.AtEase)
    (held : s.importerHeld = true) {e : Endpoint} (new : s.locations.contains e.location = false) :
    let r : Resolution := { id := s.started, endpoint := e }
    let u := s.available e
    u.resolutions = [r] ∧ u.ready = [.resolution r.id] ∧
      ∃ k, u.run = Site.turns k (releaseLedger (begin r
        { u with ready := [], limiter := { free := max s.settings.limit 1 - 1 } })) := by
  intro r u
  have started : u = _ := available_of_not_contains new
  have resolutions : u.resolutions = [r] := by
    rw [started, ease.resolutions]
    rfl
  have ready : u.ready = [.resolution r.id] := by
    rw [started, ease.ready]
    rfl
  have limiter : u.limiter = { free := max s.settings.limit 1 } := by
    rw [started]
    exact ease.limiter
  refine ⟨resolutions, ready, ?_⟩
  have reachable : Reachable (fun _ => True) u :=
    h.perform (c := .available e) trivial fun _ => isAlive_of_held held
  -- The run has a turn, since it ends with no job ready.
  obtain ⟨k, run⟩ := exists_run_eq_turns u
  have quiet := ready_run reachable
  cases k with
  | zero =>
    rw [run] at quiet
    cases ready.symm.trans quiet
  | succ k =>
    have free : max s.settings.limit 1 ≠ 0 := by omega
    have turn : u.poll (.resolution r.id) = _ := poll_alone free resolutions ready limiter
    refine ⟨k, ?_⟩
    rw [run, ← turn, Site.turns]
    simp only [ready]

/-- A shutdown stops what is at work, once the ready jobs have run, and only that. What is recorded,
registered and accepted stays, and so do the listeners and the outcomes; all that is told is which
resolutions were aborted. Endpoints that were only pending are known by their locations, if at all.
The news of an endpoint whose location is not accepted starts a resolution, which then has the first
turn. Whoever shuts the importer down holds it. -/
theorem shutdown_stops (h : Reachable allowed s) (held : s.importerHeld = true) :
    let t := s.shutdown.run
    (t.ledger = s.ledger ∧ t.space = s.space ∧ t.audience = s.audience ∧
      t.locations = s.locations ∧ t.finished = s.finished) ∧
    (∃ gone : List (Nat × Endpoint), gone.Perm s.flying ∧
      t.journal = s.journal ++ gone.map fun r => .aborted r.1 r.2) ∧
    t.AtEase ∧
    (∀ e, s.standing e = .pending →
      t.standing e = if s.locations.contains e.location then .retained else .unseen) ∧
    ∀ e, s.locations.contains e.location = false →
      let r : Resolution := { id := s.started, endpoint := e }
      let u := t.available e
      u.resolutions = [r] ∧ u.ready = [.resolution r.id] ∧
        ∃ k, u.run = turns k (releaseLedger (begin r
          { u with ready := [], limiter := { free := max s.settings.limit 1 - 1 } })) := by
  intro t
  have marked : Reachable (fun _ => True) s.shutdown :=
    (h.mono fun _ _ => trivial).perform (c := .shutdown) trivial fun _ => isAlive_of_held held
  obtain ⟨k, run⟩ : ∃ k, t = turns k s.shutdown := exists_run_eq_turns s.shutdown
  have reachable : Reachable (fun _ => True) t := run ▸ marked.turns k
  obtain ⟨stopping, halts⟩ : Stopping none t ∧ Halts s.shutdown t :=
    run ▸ (stopping_shutdown h).turns marked ((halts_shutdown s).importerHeld.trans held) k
  replace halts := (halts_shutdown s).trans halts
  have ease : t.AtEase := stopping.atEase reachable (ready_run marked)
  have kept := halts.kept
  have locations : t.locations = s.locations := by rw [kept]
  refine ⟨⟨?_, ?_, halts.audience, locations, ?_⟩, ?_, ease, ?_, ?_⟩
  · rw [kept]
  · rw [kept]
  · rw [kept]
  · obtain ⟨gone, perm, journal⟩ := halts.told
    have landed : t.flying = [] := by
      unfold flying
      rw [ease.resolutions]
      rfl
    rw [landed, List.append_nil] at perm
    exact ⟨gone, perm.symm, journal⟩
  · intro e pending
    rw [← locations]
    exact ease.standing halts pending
  · intro e new
    have started : t.started = s.started := by rw [kept]
    have settings : t.settings = s.settings := by rw [kept]
    rw [← started, ← settings]
    exact ease.available reachable (halts.importerHeld.trans held) (locations ▸ new)

/-- One resolution waits at a closed gate and two wait for its permit, the location of one of these
was released, and a feed is attached. -/
def busySite : Site :=
  (crowdedSite.perform (.releaseLocation (gatedEndpoint "b").location)).perform .attach

theorem reachable_busySite : Reachable (fun _ => True) busySite :=
  .perform (.perform reachable_crowdedSite trivial fun _ => rfl) trivial fun _ => rfl

/-- The three are dropped, and the one whose location was released can come again. -/
theorem shutdown_stops_busySite :
    busySite.resolutions.map (·.id) = [0, 1, 2] ∧ busySite.limiter.free = 0 ∧
    busySite.feeds.any (!·.finished) = true ∧
    busySite.standing (gatedEndpoint "a") = .pending ∧
    busySite.standing (gatedEndpoint "b") = .pending ∧
    busySite.shutdown.run.AtEase ∧
    busySite.shutdown.run.standing (gatedEndpoint "a") = .retained ∧
    busySite.shutdown.run.standing (gatedEndpoint "b") = .unseen ∧
    (busySite.shutdown.run.available (gatedEndpoint "b")).ready = [.resolution 3] := by
  obtain ⟨-, -, ease, standing, again⟩ := shutdown_stops reachable_busySite rfl
  have first : busySite.standing (gatedEndpoint "a") = .pending := rfl
  have second : busySite.standing (gatedEndpoint "b") = .pending := rfl
  exact ⟨rfl, rfl, rfl, first, second, ease, standing _ first, standing _ second,
    (again (gatedEndpoint "b") rfl).2.1⟩

end ServiceImport.Site

import Mathlib.Data.List.Count
import ServiceImport.Proofs.Site.Readiness

/-! # Permits

A permit is free or with one resolution, and those that were given none wait in the order in which
they came. None gets lost: whatever ends gives its permit back, also when a shutdown ends it. And
none lies idle while no job is ready: whoever was given one has its turn first.
-/

namespace ServiceImport

/-- Whether a resolution has still to be given a permit, or to run with the one it was given. -/
def Stage.awaitsPermit : Stage → Bool
  | fresh | queued | admitted => true
  | running | lookingUp .. => false

namespace Site

variable {s t u : Site} {allowed : Command → Prop} {n : Nat} {r : Resolution} {total : Nat}

/-! ## Counting permits -/

/-- How many resolutions hold a permit. -/
def permits (s : Site) : Nat := s.resolutions.countP (·.stage.holdsPermit)

theorem permits_of_map {f : Resolution → Resolution} (stage : ∀ q, (f q).stage = q.stage)
    (resolutions : t.resolutions = s.resolutions.map f) : t.permits = s.permits := by
  unfold permits
  rw [resolutions, List.countP_map]
  congr 1
  funext q
  exact congrArg Stage.holdsPermit (stage q)

theorem Numbered.exists_append (numbered : s.Numbered) (there : r ∈ s.resolutions) :
    ∃ before after, s.resolutions = before ++ r :: after ∧
      ∀ q ∈ before ++ after, q.id ≠ r.id := by
  obtain ⟨before, after, split⟩ := List.append_of_mem there
  refine ⟨before, after, split, fun q hq same => ?_⟩
  have nodup := numbered.nodup
  rw [split, (List.perm_middle.map _).nodup_iff, List.map_cons, List.nodup_cons] at nodup
  exact nodup.1 (List.mem_map.2 ⟨q, hq, same⟩)

theorem permits_setStage (numbered : s.Numbered) (there : r ∈ s.resolutions) (stage : Stage) :
    (s.setStage r.id stage).permits + r.stage.holdsPermit.toNat =
      s.permits + stage.holdsPermit.toNat := by
  obtain ⟨before, after, split, others⟩ := numbered.exists_append there
  have unchanged : ∀ l : List Resolution, (∀ q ∈ l, q ∈ before ++ after) →
      l.map (fun q => if q.id = r.id then { q with stage } else q) = l := by
    intro l sub
    conv_rhs => rw [← List.map_id l]
    exact List.map_congr_left fun q hq => if_neg (others q (sub q hq))
  unfold permits setStage updateResolution
  dsimp only
  rw [split, List.map_append, List.map_cons, if_pos rfl,
    unchanged before fun q => List.mem_append_left _,
    unchanged after fun q => List.mem_append_right _]
  simp only [List.countP_append, List.countP_cons]
  cases r.stage.holdsPermit <;> cases stage.holdsPermit <;> simp <;> omega

theorem permits_retire (numbered : s.Numbered) (there : r ∈ s.resolutions) :
    (s.retire r).permits + r.stage.holdsPermit.toNat = s.permits := by
  obtain ⟨before, after, split, others⟩ := numbered.exists_append there
  have kept : ∀ l : List Resolution, (∀ q ∈ l, q ∈ before ++ after) →
      l.filter (·.id != r.id) = l := fun l sub =>
    List.filter_eq_self.2 fun q hq => bne_iff_ne.2 (others q (sub q hq))
  unfold permits Site.retire
  dsimp only
  rw [split, List.filter_append, List.filter_cons_of_neg (by simp),
    kept before fun q => List.mem_append_left _, kept after fun q => List.mem_append_right _]
  simp only [List.countP_append, List.countP_cons]
  cases r.stage.holdsPermit
  all_goals
    simp
    try omega

/-! ## Who holds and who waits -/

/-- Every one of so many permits is free or held. Those wait who are queued, each once, and only
while no permit is free. -/
structure Rationed (total : Nat) (s : Site) : Prop where
  conserved : s.limiter.free + s.permits = total
  nodup : s.limiter.waiting.Nodup
  queued : ∀ n, n ∈ s.limiter.waiting ↔ ∃ q ∈ s.resolutions, q.id = n ∧ q.stage = .queued
  exhausted : s.limiter.waiting ≠ [] → s.limiter.free = 0

theorem Rationed.stage_of_waiting (h : Rationed total s) (numbered : s.Numbered)
    (there : r ∈ s.resolutions) (waits : r.id ∈ s.limiter.waiting) : r.stage = .queued := by
  obtain ⟨q, hq, same, stage⟩ := (h.queued r.id).1 waits
  rw [← numbered.eq_of_id hq there same]
  exact stage

theorem Rationed.of_map (h : Rationed total s) {f : Resolution → Resolution}
    (same : ∀ q, (f q).id = q.id ∧ (f q).stage = q.stage) (limiter : t.limiter = s.limiter)
    (resolutions : t.resolutions = s.resolutions.map f) : Rationed total t where
  conserved := by
    rw [limiter, permits_of_map (fun q => (same q).2) resolutions]
    exact h.conserved
  nodup := limiter ▸ h.nodup
  queued n := by
    rw [limiter, resolutions, h.queued]
    constructor
    · rintro ⟨q, hq, hid, hstage⟩
      exact ⟨f q, List.mem_map_of_mem hq, (same q).1.trans hid, (same q).2.trans hstage⟩
    · rintro ⟨p, hp, hid, hstage⟩
      obtain ⟨q, hq, rfl⟩ := List.mem_map.1 hp
      exact ⟨q, hq, (same q).1.symm.trans hid, (same q).2.symm.trans hstage⟩
  exhausted := limiter ▸ h.exhausted

theorem Rationed.of_eq (h : Rationed total s) (limiter : t.limiter = s.limiter)
    (resolutions : t.resolutions = s.resolutions) : Rationed total t :=
  h.of_map (f := id) (fun _ => ⟨rfl, rfl⟩) limiter (by rw [resolutions, List.map_id])

theorem Rationed.leavesJobs (h : Rationed total s) (leaves : LeavesJobs s t) :
    Rationed total t := by
  apply h.of_eq
  all_goals rw [leaves]

theorem exists_queued_setStage (there : r ∈ s.resolutions) (stage : Stage)
    (n : Nat) :
    (∃ q ∈ (s.setStage r.id stage).resolutions, q.id = n ∧ q.stage = .queued) ↔
      if n = r.id then stage = .queued
      else ∃ q ∈ s.resolutions, q.id = n ∧ q.stage = .queued := by
  unfold setStage updateResolution
  dsimp only
  constructor
  · rintro ⟨p, hp, hid, hstage⟩
    obtain ⟨q, hq, rfl⟩ := List.mem_map.1 hp
    by_cases same : q.id = r.id
    · rw [if_pos same] at hid hstage
      rw [if_pos (hid.symm.trans same)]
      exact hstage
    · rw [if_neg same] at hid hstage
      rw [if_neg fun hn => same (hid.trans hn)]
      exact ⟨q, hq, hid, hstage⟩
  · intro h
    split at h
    · next same =>
      exact ⟨_, List.mem_map_of_mem there, by rw [if_pos rfl, same], by rw [if_pos rfl, h]⟩
    · next other =>
      obtain ⟨q, hq, hid, hstage⟩ := h
      have unchanged : q.id ≠ r.id := fun same => other (hid.symm.trans same)
      exact ⟨_, List.mem_map_of_mem hq, by rw [if_neg unchanged, hid],
        by rw [if_neg unchanged, hstage]⟩

theorem Rationed.setStage (h : Rationed total s) (numbered : s.Numbered)
    (there : r ∈ s.resolutions) {stage : Stage} (before : r.stage ≠ .queued)
    (after : stage ≠ .queued) (holds : stage.holdsPermit = r.stage.holdsPermit) :
    Rationed total (s.setStage r.id stage) where
  conserved := by
    have := permits_setStage numbered there stage
    rw [holds] at this
    have := h.conserved
    show s.limiter.free + _ = total
    omega
  nodup := h.nodup
  queued n := by
    rw [exists_queued_setStage there]
    show n ∈ s.limiter.waiting ↔ _
    rw [h.queued]
    split
    · next same =>
      rw [← h.queued, same]
      exact iff_of_false (fun waits => before (h.stage_of_waiting numbered there waits)) after
    · rfl
  exhausted := h.exhausted

theorem Rationed.resume (h : Rationed total s) (numbered : s.Numbered) (there : r ∈ s.resolutions)
    (holds : r.stage.holdsPermit = true) : Rationed total (s.setStage r.id .running) := by
  refine h.setStage numbered there (fun queued => ?_) (by simp) (by rw [holds]; rfl)
  rw [queued] at holds
  cases holds

theorem Rationed.retire (h : Rationed (total + r.stage.holdsPermit.toNat) s)
    (numbered : s.Numbered) (there : r ∈ s.resolutions) (unqueued : r.stage ≠ .queued) :
    Rationed total (s.retire r) where
  conserved := by
    have := permits_retire numbered there
    have := h.conserved
    show s.limiter.free + _ = _
    omega
  nodup := h.nodup
  queued n := by
    show n ∈ s.limiter.waiting ↔ ∃ q ∈ s.resolutions.filter (·.id != r.id), _
    rw [h.queued]
    constructor
    · rintro ⟨q, hq, hid, hstage⟩
      refine ⟨q, List.mem_filter.2 ⟨hq, bne_iff_ne.2 fun gone => unqueued ?_⟩, hid, hstage⟩
      rw [← numbered.eq_of_id hq there gone]
      exact hstage
    · rintro ⟨q, hq, hid, hstage⟩
      exact ⟨q, (List.mem_filter.1 hq).1, hid, hstage⟩
  exhausted := h.exhausted

/-! ## Permits change hands -/

/-- A permit that is given back is free again, or goes to the one who waits longest. -/
theorem Rationed.releasePermit (h : Rationed total s) (numbered : s.Numbered) :
    Rationed (total + 1) s.releasePermit := by
  unfold Site.releasePermit Limiter.release
  cases hwaiting : s.limiter.waiting with
  | nil =>
    refine ⟨?_, List.nodup_nil, fun n => ?_, fun waits => absurd rfl waits⟩
    · have := h.conserved
      show s.limiter.free + 1 + s.permits = total + 1
      omega
    · have := h.queued n
      rw [hwaiting] at this
      exact this
  | cons n rest =>
    dsimp only
    rw [wake_eq]
    obtain ⟨q, hq, rfl, hstage⟩ := (h.queued n).1 (by rw [hwaiting]; exact List.mem_cons_self)
    have nodup := h.nodup
    rw [hwaiting, List.nodup_cons] at nodup
    have full := h.exhausted (by rw [hwaiting]; simp)
    let given : Site := { s with limiter := { s.limiter with waiting := rest } }
    have numbered : given.Numbered := ⟨numbered.nodup, numbered.issued⟩
    refine ⟨?_, nodup.2, fun m => ?_, fun _ => full⟩
    · have moved := permits_setStage (s := given) numbered hq .admitted
      rw [hstage] at moved
      have := h.conserved
      show s.limiter.free + (given.setStage q.id .admitted).permits = total + 1
      change _ + 0 = s.permits + 1 at moved
      omega
    · refine Iff.trans ?_ (exists_queued_setStage (s := given) hq .admitted m).symm
      have waits := h.queued m
      rw [hwaiting, List.mem_cons] at waits
      show m ∈ rest ↔ _
      split
      · next same => simp [same, nodup.1]
      · next other => rw [← show _ ↔ _ from waits, or_iff_right other]

theorem Rationed.surrender (h : Rationed total s) (numbered : s.Numbered)
    (there : r ∈ s.resolutions) (holds : r.stage.holdsPermit = true) :
    Rationed total (s.releasePermit.retire r) := by
  -- The permit goes to another resolution if to any: this one is not queued.
  have unqueued : r.stage ≠ .queued := fun queued => by simp [queued, Stage.holdsPermit] at holds
  have still : r ∈ s.releasePermit.resolutions := by
    unfold Site.releasePermit Limiter.release
    cases hwaiting : s.limiter.waiting with
    | nil => exact there
    | cons n rest =>
      dsimp only
      rw [wake_eq]
      refine List.mem_map.2 ⟨r, there, if_neg fun same => unqueued ?_⟩
      refine h.stage_of_waiting numbered there ?_
      rw [hwaiting, same]
      exact List.mem_cons_self
  have released := h.releasePermit numbered
  have numbered : s.releasePermit.Numbered := by
    obtain ⟨f, same, heq⟩ := releasePermit_eq s
    rw [heq]
    exact numbered.of_sublist same (List.Sublist.refl _) rfl
  refine Rationed.retire ?_ numbered still unqueued
  rw [holds]
  exact released

theorem Rationed.leave (h : Rationed total s) (numbered : s.Numbered) (there : r ∈ s.resolutions)
    (stage : r.stage = .queued) :
    Rationed total (Site.retire r { s with limiter := s.limiter.leave r.id }) where
  conserved := by
    have := permits_retire numbered there
    rw [stage] at this
    rw [← h.conserved, ← this]
    rfl
  nodup := h.nodup.filter _
  queued n := by
    show n ∈ s.limiter.waiting.filter (· != r.id) ↔
      ∃ q ∈ s.resolutions.filter (·.id != r.id), q.id = n ∧ q.stage = .queued
    simp only [List.mem_filter, bne_iff_ne, h.queued]
    constructor
    · rintro ⟨⟨q, hq, rfl, hstage⟩, other⟩
      exact ⟨q, ⟨hq, other⟩, rfl, hstage⟩
    · rintro ⟨q, ⟨hq, other⟩, rfl, hstage⟩
      exact ⟨⟨q, hq, rfl, hstage⟩, other⟩
  exhausted waits := by
    refine h.exhausted fun none => waits ?_
    show s.limiter.waiting.filter _ = []
    rw [none, List.filter_nil]

theorem Rationed.discard (h : Rationed total s) (numbered : s.Numbered)
    (there : r ∈ s.resolutions) : Rationed total (s.discard r) := by
  suffices Rationed total (Site.retire r (if r.stage.holdsPermit
      then (s.leaveQueues r).releasePermit else s.leaveQueues r)) from this.of_eq rfl rfl
  by_cases stage : r.stage = .queued
  · have left : s.leaveQueues r = { s with limiter := s.limiter.leave r.id } := by
      unfold leaveQueues
      rw [stage]
    rw [stage, left]
    exact h.leave numbered there stage
  · have limiter : (s.leaveQueues r).limiter = s.limiter := by
      unfold leaveQueues
      cases hstage : r.stage with
      | queued => exact absurd hstage stage
      | _ => rfl
    have resolutions : (s.leaveQueues r).resolutions = s.resolutions := by rw [leaveQueues_eq]
    have h := h.of_eq limiter resolutions
    have numbered : (s.leaveQueues r).Numbered := by
      rw [leaveQueues_eq]
      exact ⟨numbered.nodup, numbered.issued⟩
    rw [← resolutions] at there
    split
    · next holds => exact h.surrender numbered there holds
    · next holds =>
      refine Rationed.retire ?_ numbered there stage
      rw [eq_false_of_ne_true holds]
      exact h

theorem Rationed.complete (h : Rationed total s) (numbered : s.Numbered) {now : Resolution}
    (there : now ∈ s.resolutions) (same : now.id = r.id) (stage : now.stage = .running)
    (outcome : Outcome) : Rationed total (s.complete r outcome) := by
  unfold Site.complete
  dsimp only
  generalize hended : log (.completed r.id r.endpoint outcome) _ = ended
  have kept : ended.limiter = s.limiter ∧ ended.resolutions = s.resolutions ∧
      ended.started = s.started := by
    rw [← hended]
    cases outcome <;> exact ⟨rfl, rfl, rfl⟩
  obtain ⟨limiter, resolutions, started⟩ := kept
  have numbered : ended.Numbered :=
    ⟨resolutions ▸ numbered.nodup, by rw [resolutions, started]; exact numbered.issued⟩
  have ended := (h.of_eq limiter resolutions).surrender numbered (resolutions ▸ there)
    (by rw [stage]; rfl)
  refine ended.of_eq rfl ?_
  unfold Site.retire
  rw [same]

theorem Rationed.queue (h : Rationed total s) (numbered : s.Numbered) (there : r ∈ s.resolutions)
    (stage : r.stage = .fresh) (full : s.limiter.free = 0) :
    Rationed total
      (Site.setStage r.id .queued { s with limiter := (s.limiter.acquire r.id).2 }) := by
  have acquired : (s.limiter.acquire r.id).2 =
      { s.limiter with waiting := s.limiter.waiting ++ [r.id] } := by
    unfold Limiter.acquire
    rw [if_pos full]
  have new : r.id ∉ s.limiter.waiting := by
    intro waits
    cases stage.symm.trans (h.stage_of_waiting numbered there waits)
  rw [acquired]
  refine ⟨?_, ?_, fun n => ?_, fun _ => full⟩
  · have := permits_setStage numbered there .queued
    rw [stage] at this
    rw [← h.conserved]
    exact congrArg (s.limiter.free + ·) this
  · exact List.nodup_append.2 ⟨h.nodup, List.nodup_singleton _, fun n hn m hm same =>
      new (by rwa [← List.mem_singleton.1 hm, ← same])⟩
  · refine Iff.trans ?_ (exists_queued_setStage there .queued n).symm
    show n ∈ s.limiter.waiting ++ [r.id] ↔ _
    rw [List.mem_append, List.mem_singleton, h.queued]
    split
    · next same => simp [same]
    · next other => rw [or_iff_left other]

theorem Rationed.enter (h : Rationed total s) (numbered : s.Numbered) (there : r ∈ s.resolutions)
    (stage : r.stage = .fresh) (free : s.limiter.free ≠ 0) :
    Rationed total
      (Site.setStage r.id .running { s with limiter := (s.limiter.acquire r.id).2 }) := by
  have acquired : (s.limiter.acquire r.id).2 = { s.limiter with free := s.limiter.free - 1 } := by
    unfold Limiter.acquire
    rw [if_neg free]
  rw [acquired]
  refine ⟨?_, h.nodup, fun n => ?_, fun waits => absurd (h.exhausted waits) free⟩
  · have moved := permits_setStage numbered there .running
    rw [stage] at moved
    have := h.conserved
    show s.limiter.free - 1 + (s.setStage r.id .running).permits = total
    change _ + 0 = s.permits + 1 at moved
    omega
  · refine Iff.trans ?_ (exists_queued_setStage there .running n).symm
    show n ∈ s.limiter.waiting ↔ _
    rw [h.queued]
    split
    · next same =>
      rw [← h.queued, same]
      refine iff_of_false (fun waits => ?_) (by simp)
      cases stage.symm.trans (h.stage_of_waiting numbered there waits)
    · rfl

/-! ## Every change -/

theorem rationed_available (h : Rationed total s) (e : Endpoint) :
    Rationed total (s.available e) := by
  cases known : s.locations.contains e.location with
  | true =>
    rw [available_of_contains known]
    exact h.of_eq rfl rfl
  | false =>
    rw [available_of_not_contains known]
    refine ⟨?_, h.nodup, fun n => ?_, h.exhausted⟩
    · rw [← h.conserved]
      simp [permits, List.countP_append, Stage.holdsPermit]
    · rw [h.queued]
      simp

theorem rationed_shutdown (h : Rationed total s) : Rationed total s.shutdown := by
  have marked : Rationed total (s.resolutions.foldl abortResolution s) := by
    refine List.foldlRecOn s.resolutions abortResolution h fun t ht r _ => ?_
    rw [abortResolution_eq]
    refine ht.of_map (f := fun q => if q.id = r.id then { q with aborted := true } else q)
      ?_ rfl rfl
    intro q
    split
    · exact ⟨rfl, rfl⟩
    · exact ⟨rfl, rfl⟩
  rw [abortResolutions_eq] at marked
  rw [shutdown_eq]
  exact marked.of_eq rfl rfl

theorem Performed.rationed {c : Command} (done : Performed s c t) (h : Rationed total s) :
    Rationed total t := by
  cases done with
  | surround same =>
    apply h.of_eq
    all_goals rw [same]
  | place _ _ | report _ | collect => exact h.of_eq rfl rfl
  | available e _ => exact rationed_available h e
  | unavailable e _ => exact h.leavesJobs (leavesJobs_unavailable e s)
  | shutdown => exact rationed_shutdown h
  | dropImporter keepLedger =>
    rw [dropImporter_eq]
    exact h.of_eq rfl rfl
  | attach =>
    obtain ⟨added, heq⟩ := attach_eq s
    rw [heq]
    exact h.of_eq rfl rfl
  | abortFeed i =>
    rw [abortFeed_eq]
    exact h.of_eq rfl rfl
  | withdrawService key reference => exact h.leavesJobs (leavesJobs_withdrawService key reference s)
  | emit key reference host => exact h.leavesJobs (leavesJobs_emit key reference host s)
  | bypass ok => exact h.leavesJobs (leavesJobs_bypass ok s)

theorem Change.rationed {m n : Moment} (change : Change allowed m n)
    (coherent : Coherent allowed m) (h : Rationed total m.site) : Rationed total n.site := by
  have numbered := coherent.numbered
  cases change with
  | @perform s p c _ _ => exact (performed s c).rationed h
  | report _ | plan _ | take _ | countLookups _ | prepare _ _ | refuse _ | fault _ _ | read _ _ _ _
  | rest | finish _ | abandon _ _ _ => exact h.of_eq rfl rfl
  | release =>
    rw [releaseLedger_eq]
    exact h.of_eq rfl rfl
  | discard there _ | drop there _ => exact h.discard numbered (mem_of_resolution? there).1
  | queue there stage full => exact h.queue numbered (mem_of_resolution? there).1 stage full
  | enter there stage free => exact h.enter numbered (mem_of_resolution? there).1 stage free
  | @resume s r there stage =>
    refine h.resume numbered (mem_of_resolution? there).1 ?_
    rcases stage with stage | ⟨c, rest, tally, stage⟩
    all_goals
      rw [stage]
      rfl
  | @await s r _ c rest tally _ _ _ =>
    obtain ⟨now, hnow, hid, _, stage⟩ := coherent.turn r rfl
    have waits : Rationed total (s.setStage now.id (.lookingUp c rest tally)) :=
      h.setStage numbered hnow (by simp [stage]) (by simp) (by rw [stage]; rfl)
    rw [hid] at waits
    exact waits.of_eq rfl rfl
  | @complete s r outcome =>
    obtain ⟨now, hnow, hid, _, stage⟩ := coherent.turn r rfl
    exact h.complete numbered hnow hid stage outcome
  | subscribe c =>
    rw [subscribe_eq]
    exact h.of_eq rfl rfl
  | register _ _ => exact h.leavesJobs (leavesJobs_recordRegistered _ _ _ _ _ _ _ _)
  | unsubscribe =>
    rw [cancel_eq]
    exact h.of_eq rfl rfl
  | @notify s i news => exact (performed_notify news s).rationed h

theorem Changes.rationed {m n : Moment} (changes : Changes allowed m n)
    (coherent : Coherent allowed m) (h : Rationed total m.site) :
    Coherent allowed n ∧ Rationed total n.site := by
  induction changes with
  | refl => exact ⟨coherent, h⟩
  | tail _ change ih => exact ⟨change.coherent ih.1, change.rationed ih.1 ih.2⟩

theorem Change.settings {m n : Moment} (change : Change allowed m n) :
    n.site.settings = m.site.settings := by
  cases change with
  | @perform s p c _ _ => exact (performed s c).fixed.settings
  | release => rw [releaseLedger_eq]
  | @discard s r _ _ =>
    obtain ⟨f, _, heq⟩ := discard_eq r s
    rw [heq]
  | @drop s r now _ _ =>
    obtain ⟨f, _, heq⟩ := discard_eq now s
    rw [heq]
  | @complete s r outcome =>
    obtain ⟨f, report, _, heq⟩ := complete_eq r outcome s
    rw [heq]
  | subscribe c => rw [subscribe_eq]; rfl
  | register _ _ => exact (leavesJobs_recordRegistered _ _ _ _ _ _ _ _).fixed.settings
  | unsubscribe => rw [cancel_eq]
  | @notify s i news => exact (performed_notify news s).fixed.settings
  | _ => rfl

theorem rationed_build {b : Blueprint} (built : build b = .ok s) :
    Rationed (max s.settings.limit 1) s := by
  rw [(build_eq built).1]
  exact ⟨rfl, List.nodup_nil, fun n => by simp, fun waits => absurd rfl waits⟩

theorem Reachable.rationed (h : Reachable allowed s) {m : Moment}
    (changes : Changes allowed ⟨s, .idle⟩ m) :
    Coherent allowed m ∧ m.site.settings = s.settings ∧
      Rationed (max m.site.settings.limit 1) m.site := by
  obtain ⟨coherent, rationed⟩ :=
    h.always (I := fun m => Rationed (max m.site.settings.limit 1) m.site) rationed_build
      (fun coherent change rationed => change.settings ▸ change.rationed coherent rationed) changes
  refine ⟨coherent, ?_, rationed⟩
  clear rationed coherent
  induction changes with
  | refl => rfl
  | tail _ change ih => exact change.settings.trans ih

/-- While nothing is in flight, all permits are free. -/
theorem Reachable.limiter_eq (h : Reachable allowed s) (none : s.resolutions = []) :
    s.limiter = { free := max s.settings.limit 1 } := by
  obtain ⟨-, -, rationed⟩ := h.rationed .refl
  have waiting : s.limiter.waiting = [] := by
    refine List.eq_nil_iff_forall_not_mem.2 fun n waits => ?_
    obtain ⟨q, hq, _⟩ := (rationed.queued n).1 waits
    rw [none] at hq
    cases hq
  have free : s.limiter.free = max s.settings.limit 1 := by
    have conserved := rationed.conserved
    unfold permits at conserved
    rw [none] at conserved
    exact conserved
  rw [← free, ← waiting]

/-! ## The limit -/

/-- At every moment of a run the permits are as many as the limit, each of them free or with one
resolution. Whenever no job is ready, nobody waits for a permit while one is left. -/
theorem limit_of_reachable (h : Reachable allowed s) :
    (∀ m, Changes allowed ⟨s, .idle⟩ m →
      m.site.permits ≤ max s.settings.limit 1 ∧
        m.site.limiter.free + m.site.permits = max s.settings.limit 1) ∧
      (s.ready = [] → ∀ r ∈ s.resolutions, r.stage.awaitsPermit = true →
        (s.resolutions.countP fun q => q.id != r.id && q.stage.holdsPermit) =
          max s.settings.limit 1) := by
  obtain ⟨coherent, -, rationed⟩ := h.rationed .refl
  constructor
  · intro m changes
    obtain ⟨-, settings, rationed⟩ := h.rationed changes
    rw [← settings]
    exact ⟨by have := rationed.conserved; omega, rationed.conserved⟩
  · intro quiet r hr awaits
    -- It can only be queued, and then no permit is free.
    have queued : r.stage = .queued := by
      have still : r.stage.isDue = false := by
        refine eq_false_of_ne_true fun due => ?_
        have := h.punctual r hr due (by simp)
        rw [quiet] at this
        cases this
      cases stage : r.stage with
      | queued => rfl
      | fresh | admitted =>
        rw [stage] at still
        cases still
      | running | lookingUp c rest tally =>
        rw [stage] at awaits
        cases awaits
    have waits : r.id ∈ s.limiter.waiting := (rationed.queued _).2 ⟨r, hr, rfl, queued⟩
    have full := rationed.exhausted (List.ne_nil_of_mem waits)
    have others : (s.resolutions.countP fun q => q.id != r.id && q.stage.holdsPermit) =
        s.permits := by
      refine List.countP_congr fun q hq => ?_
      rw [Bool.and_eq_true, bne_iff_ne, and_iff_right_iff_imp]
      intro holds same
      rw [coherent.numbered.eq_of_id hq hr same, queued] at holds
      cases holds
    rw [others, ← rationed.conserved, full, Nat.zero_add]

/-- A site with one permit and a gate. -/
def gateSite : Site where
  settings := { limit := 0 }
  containers := [⟨"gate", ⟨"home", "gate"⟩, some "home", true⟩]
  registry := [⟨"gate", ⟨"home", "gate"⟩, some "home", true⟩]
  adapters := [("gate", { owner := ⟨"home", "gate"⟩, backend := .scripted {} })]
  limiter := { free := 1 }

theorem build_gateSite :
    Site.build {
      settings := { limit := 0 }
      installations := [.scripted "gate" ⟨"home", "gate"⟩ (some "home")] } = .ok gateSite := rfl

/-- An endpoint behind the gate. -/
def gatedEndpoint (id : String) : Endpoint where
  id := id
  location := ⟨"home://" ++ id⟩
  interfaces := ["Lamp"]
  target := some ⟨"home", "gate"⟩

/-- One resolution waits at the closed gate, and two wait for its permit. -/
def crowdedSite : Site :=
  ((((((gateSite.perform (.setGate "gate" true)).perform (.available (gatedEndpoint "a"))).perform
    (.available (gatedEndpoint "b"))).perform (.available (gatedEndpoint "c"))).poll
    (.resolution 0)).poll (.resolution 1)).poll (.resolution 2)

/-- All are aborted, and two more come. The one that waited longer leaves the queue, and the holder
gives its permit to the other, which is dropped in its turn and hands it on to the first of the
new ones. -/
def recoveredSite : Site :=
  ((((((((crowdedSite.perform .shutdown).perform (.available (gatedEndpoint "d"))).perform
    (.available (gatedEndpoint "e"))).poll (.resolution 1)).poll (.resolution 0)).poll
    (.resolution 3)).poll (.resolution 4)).poll (.resolution 2)).poll (.resolution 3)

theorem reachable_crowdedSite : Reachable (fun _ => True) crowdedSite :=
  .poll (.poll (.poll (.perform (.perform (.perform (.perform (.build build_gateSite)
    trivial fun _ => rfl) trivial fun _ => rfl) trivial fun _ => rfl) trivial fun _ => rfl)))

theorem reachable_recoveredSite : Reachable (fun _ => True) recoveredSite :=
  .poll (.poll (.poll (.poll (.poll (.poll (.perform (.perform (.perform reachable_crowdedSite
    trivial fun _ => rfl) trivial fun _ => rfl) trivial fun _ => rfl))))))

theorem limit_of_reachable_recovered :
    recoveredSite.ready = [] ∧
      (∃ r ∈ recoveredSite.resolutions, r.id = 4 ∧ r.stage.awaitsPermit = true ∧
        (recoveredSite.resolutions.countP fun q => q.id != r.id && q.stage.holdsPermit) = 1) ∧
      recoveredSite.limiter.free + recoveredSite.permits = 1 := by
  have limit := limit_of_reachable reachable_recoveredSite
  have quiet : recoveredSite.ready = [] := by rfl
  refine ⟨quiet, ⟨⟨4, gatedEndpoint "e", .queued, false⟩, .tail _ (.head _), rfl, rfl, ?_⟩,
    (limit.1 _ .refl).2⟩
  exact limit.2 quiet _ (.tail _ (.head _)) rfl

end Site

end ServiceImport

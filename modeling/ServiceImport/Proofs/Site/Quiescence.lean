import Mathlib.Algebra.GroupWithZero.Nat
import Mathlib.Algebra.Order.BigOperators.Group.List
import Mathlib.Algebra.Order.Group.Nat
import Mathlib.Data.List.Induction
import ServiceImport.Proofs.Site.Accounts
import ServiceImport.Proofs.Site.Arrivals
import ServiceImport.Proofs.Site.Hubs
import ServiceImport.Proofs.Site.Spans

/-! # Runs come to rest

Every turn lowers what there is to do, unless something happens within a registration. As that has
been set beforehand and happens once, a run ends with no job ready.
-/

namespace ServiceImport.Site

variable {s t u : Site} {allowed : Command → Prop} {r : Resolution} {total : Nat}

/-! ## What there is to do -/

/-- How many items a feed has yet to handle. -/
def unread (hubs : List (Hub Notification)) (f : Feed) : Nat :=
  if f.finished then 0 else ((hubs[f.hub]?).map (·.backlog f.reader)).getD 0

/-- How many items feeds have yet to handle. -/
def unheard (s : Site) : Nat := (s.feeds.map (unread s.hubs)).sum

/-- How much there can be to do: what there is for jobs, and two things for each item that a feed
has yet to handle, since it may start a resolution. -/
def toil (s : Site) : Nat := s.load + 2 * s.unheard

theorem sum_unread (hubs : List (Hub Notification)) (feeds : List Feed) :
    ((feeds.filter (!·.finished)).map fun f =>
      ((hubs[f.hub]?).map (·.backlog f.reader)).getD 0).foldl (· + ·) 0 =
    (feeds.map (unread hubs)).sum := by
  rw [← List.sum_eq_foldl]
  induction feeds with
  | nil => rfl
  | cons f feeds ih =>
    rw [List.map_cons, List.sum_cons, ← ih]
    cases finished : f.finished with
    | true =>
      rw [List.filter_cons_of_neg (by simp [finished]), unread, if_pos finished, Nat.zero_add]
    | false =>
      rw [List.filter_cons_of_pos (by simp [finished]), List.map_cons, List.sum_cons, unread,
        if_neg (by simp [finished])]

theorem work_add (rationed : Rationed total s) : s.work + total = s.toil := by
  obtain ⟨early, hearly, heq⟩ : ∃ early : Resolution → Bool,
      (∀ r, early r = !r.stage.holdsPermit) ∧
      s.work = s.ready.length + (s.resolutions.filter early).length + 2 * s.unheard := by
    refine ⟨_, fun r => ?_, congrArg _ (congrArg _ (sum_unread s.hubs s.feeds))⟩
    cases r.stage <;> rfl
  have split := List.length_eq_countP_add_countP (l := s.resolutions) (·.stage.holdsPermit)
  have rest : s.resolutions.countP (fun r => decide ¬r.stage.holdsPermit = true) =
      (s.resolutions.filter early).length := by
    rw [← List.countP_eq_length_filter]
    congr 1
    funext r
    rw [hearly]
    cases r.stage.holdsPermit <;> rfl
  have conserved := rationed.conserved
  unfold permits at conserved
  unfold toil load
  omega

theorem ready_le_work (s : Site) : s.ready.length ≤ s.work := by
  unfold work
  dsimp only
  omega

/-! ## Turns of resolutions -/

/-- Nothing is added to what there is to do, and so much is taken from it. -/
structure Eases (n : Nat) (s t : Site) : Prop where
  load : t.load + n ≤ s.load
  hubs : t.hubs = s.hubs
  feeds : t.feeds = s.feeds
  interruptions : t.space.interruptions = s.space.interruptions

theorem Eases.trans {m n : Nat} (hst : Eases m s t) (htu : Eases n t u) : Eases (m + n) s u where
  load := by
    have := hst.load
    have := htu.load
    omega
  hubs := htu.hubs.trans hst.hubs
  feeds := htu.feeds.trans hst.feeds
  interruptions := htu.interruptions.trans hst.interruptions

theorem load_releasePermit (s : Site) : s.releasePermit.load ≤ s.load + 1 := by
  unfold releasePermit Limiter.release
  cases s.limiter.waiting with
  | nil =>
    unfold load
    dsimp only
    omega
  | cons n rest =>
    have woken := length_ready_wake (.resolution n)
      (setStage n .admitted { s with limiter := { s.limiter with waiting := rest } })
    dsimp only
    rw [wake_eq]
    unfold load setStage updateResolution at *
    dsimp only at *
    rw [List.length_map]
    omega

theorem load_retire (there : ∃ q ∈ s.resolutions, q.id = r.id) :
    (s.retire r).load + 1 ≤ s.load := by
  obtain ⟨q, hq, same⟩ := there
  have fewer : (s.resolutions.filter (·.id != r.id)).length < s.resolutions.length :=
    List.length_filter_lt_length_iff_exists.2 ⟨q, hq, by simp [same]⟩
  unfold load retire
  dsimp only
  omega

theorem exists_releasePermit (there : ∃ q ∈ s.resolutions, q.id = r.id) :
    ∃ q ∈ s.releasePermit.resolutions, q.id = r.id := by
  obtain ⟨q, hq, same⟩ := there
  obtain ⟨f, kept, heq⟩ := releasePermit_eq s
  rw [heq]
  exact ⟨f q, List.mem_map_of_mem hq, (kept q).1.trans same⟩

theorem eases_complete (there : ∃ q ∈ s.resolutions, q.id = r.id) (outcome : Outcome) :
    Eases 0 s (s.complete r outcome) := by
  refine ⟨?_, ?_, ?_, ?_⟩
  · unfold complete
    dsimp only
    generalize hended : log (.completed r.id r.endpoint outcome) _ = ended
    have same : ended.load = s.load ∧ ended.resolutions = s.resolutions := by
      rw [← hended]
      cases outcome <;> exact ⟨rfl, rfl⟩
    have released := load_releasePermit ended
    have retired := load_retire (exists_releasePermit (s := ended) (same.2 ▸ there))
    omega
  all_goals
    obtain ⟨f, report, -, heq⟩ := complete_eq r outcome s
    rw [heq]

theorem eases_discard (there : ∃ q ∈ s.resolutions, q.id = r.id) : Eases 0 s (s.discard r) := by
  refine ⟨?_, ?_, ?_, ?_⟩
  · have left : (s.leaveQueues r).load = s.load := by
      unfold leaveQueues
      split <;> rfl
    have same : (s.leaveQueues r).resolutions = s.resolutions := by rw [leaveQueues_eq]
    rw [← same] at there
    show (Site.retire r (if r.stage.holdsPermit then (s.leaveQueues r).releasePermit
      else s.leaveQueues r)).load + 0 ≤ s.load
    split
    · have released := load_releasePermit (s.leaveQueues r)
      have retired := load_retire (exists_releasePermit there)
      omega
    · have retired := load_retire there
      omega
  all_goals
    obtain ⟨f, -, heq⟩ := discard_eq r s
    rw [heq]

theorem eases_setStage (n : Nat) (stage : Stage) (s : Site) : Eases 0 s (s.setStage n stage) := by
  refine ⟨?_, rfl, rfl, rfl⟩
  unfold load setStage updateResolution
  dsimp only
  rw [List.length_map]
  exact Nat.le_refl _

theorem eases_conclude (there : ∃ q ∈ s.resolutions, q.id = r.id) (progress : Progress) :
    Eases 0 s (conclude r (progress, s)) := by
  cases progress with
  | done outcome => exact eases_complete there outcome
  | waiting c rest tally =>
    unfold conclude
    dsimp only
    cases known : s.resolution? r.id with
    | none => exact ⟨Nat.le_refl _, rfl, rfl, rfl⟩
    | some now =>
      dsimp only
      split
      · exact eases_discard ⟨now, (mem_of_resolution? known).1, rfl⟩
      · have staged := eases_setStage r.id (.lookingUp c rest tally) s
        exact ⟨staged.load, rfl, rfl, rfl⟩

/-- The jobs, and what is to happen within registrations, are as they were. -/
structure Unmoved (s t : Site) : Prop where
  ready : t.ready = s.ready
  resolutions : t.resolutions = s.resolutions
  limiter : t.limiter = s.limiter
  hubs : t.hubs = s.hubs
  feeds : t.feeds = s.feeds
  interruptions : t.space.interruptions = s.space.interruptions

theorem Unmoved.load (h : Unmoved s t) : t.load = s.load := by
  unfold Site.load
  rw [h.ready, h.resolutions, h.limiter]

/-- Fewer interruptions are to come. -/
def Interrupted (s t : Site) : Prop :=
  t.space.interruptions.length < s.space.interruptions.length

theorem interruptions_performAll (commands : List Command) (s : Site) :
    (s.performAll commands).space.interruptions = s.space.interruptions := by
  refine List.foldlRecOn commands perform
    (motive := fun t => t.space.interruptions = s.space.interruptions) rfl ?_
  exact fun t known c _ => (performed t c).fixed.interruptions.trans known

theorem spans_interrupted_or_unmoved : Spans fun s t => Interrupted s t ∨ Unmoved s t where
  trans hst htu := by
    unfold Interrupted at *
    rcases hst with hst | hst
    · rcases htu with htu | htu
      · exact .inl (htu.trans hst)
      · exact .inl (by rw [htu.interruptions]; exact hst)
    · rcases htu with htu | htu
      · exact .inl (by rw [← hst.interruptions]; exact htu)
      · exact .inr ⟨htu.ready.trans hst.ready, htu.resolutions.trans hst.resolutions,
          htu.limiter.trans hst.limiter, htu.hubs.trans hst.hubs, htu.feeds.trans hst.feeds,
          htu.interruptions.trans hst.interruptions⟩
  leaves h := by
    refine .inr ⟨?_, ?_, ?_, ?_, ?_, ?_⟩
    all_goals rw [h]
  interrupt s := by
    cases planned : s.space.interruptions with
    | nil =>
      refine .inr ⟨?_, ?_, ?_, ?_, ?_, ?_⟩
      all_goals
        unfold interrupt
        rw [planned]
        try exact planned.symm
        try rfl
    | cons commands rest =>
      have kept : s.interrupt.space.interruptions = rest := by
        unfold interrupt
        rw [interruptions_performAll]
        exact congrArg List.tail planned
      refine .inl ?_
      unfold Interrupted
      rw [kept, planned]
      exact Nat.lt_succ_self _

theorem interruptions_conclude (r : Resolution) (p : Progress × Site) :
    (conclude r p).space.interruptions = p.2.space.interruptions := by
  unfold conclude
  split
  · next outcome t =>
    obtain ⟨f, report, -, heq⟩ := complete_eq r outcome t
    rw [heq]
  · split
    · rfl
    · next now _ =>
      split
      · obtain ⟨f, -, heq⟩ := discard_eq now _
        rw [heq]
      · rfl

theorem eases_turn (before : Eases 0 s t)
    (middle : ∀ {R : Site → Site → Prop}, Spans R → R t u)
    (there : ∃ q ∈ t.resolutions, q.id = r.id) (progress : Progress) :
    Interrupted s (conclude r (progress, u)) ∨ Eases 0 s (conclude r (progress, u)) := by
  rcases middle spans_interrupted_or_unmoved with fewer | same
  · refine .inl ?_
    unfold Interrupted at *
    rw [interruptions_conclude, ← before.interruptions]
    exact fewer
  · rw [← same.resolutions] at there
    have asked : Eases 0 t u :=
      ⟨Nat.le_of_eq same.load, same.hubs, same.feeds, same.interruptions⟩
    exact .inr ((before.trans asked).trans (eases_conclude there progress))

theorem eases_runResolution (there : r ∈ s.resolutions) :
    Interrupted s (s.runResolution r) ∨ Eases 0 s (s.runResolution r) := by
  have running : ∀ t : Site, t.resolutions = s.resolutions →
      ∃ q ∈ (t.setStage r.id .running).resolutions, q.id = r.id := by
    intro t same
    refine ⟨_, List.mem_map_of_mem (same ▸ there), ?_⟩
    split <;> rfl
  unfold runResolution
  split
  · exact .inr (eases_discard ⟨r, there, rfl⟩)
  · cases r.stage with
    | fresh =>
      have acquired : Eases 0 s { s with limiter := (s.limiter.acquire r.id).2 } := by
        refine ⟨?_, rfl, rfl, rfl⟩
        unfold load Limiter.acquire
        split
        · exact Nat.le_refl _
        · dsimp only
          omega
      dsimp only
      split
      · exact eases_turn (acquired.trans (eases_setStage _ _ _))
          (fun spans => spans.resolve r.endpoint _) (running _ rfl) _
      · exact .inr (acquired.trans (eases_setStage _ _ _))
    | admitted =>
      exact eases_turn (eases_setStage _ _ _) (fun spans => spans.resolve r.endpoint _)
        (running _ rfl) _
    | lookingUp c rest tally =>
      exact eases_turn (eases_setStage _ _ _)
        (fun spans => spans.resumeThrough r.endpoint c rest tally _) (running _ rfl) _
    | queued | running => exact .inr ⟨Nat.le_refl _, rfl, rfl, rfl⟩

/-! ## Turns of feeds -/

theorem sum_map_add_le {α : Type} {f g : α → Nat} {l : List α} (below : ∀ x ∈ l, f x ≤ g x)
    {x : α} (there : x ∈ l) {n : Nat} (less : f x + n ≤ g x) :
    (l.map f).sum + n ≤ (l.map g).sum := by
  obtain ⟨before, after, rfl⟩ := List.append_of_mem there
  have first := List.sum_le_sum fun y hy => below y (List.mem_append_left (x :: after) hy)
  have last := List.sum_le_sum fun y hy =>
    below y (List.mem_append_right before (List.mem_cons_of_mem x hy))
  simp only [List.map_append, List.map_cons, List.sum_append, List.sum_cons]
  omega

theorem sum_map_modify_le {α : Type} {f : α → Nat} {g : α → α} (below : ∀ x, f (g x) ≤ f x)
    (l : List α) (i : Nat) : ((l.modify i g).map f).sum ≤ (l.map f).sum := by
  induction l generalizing i with
  | nil => simp
  | cons x l ih =>
    cases i with
    | zero =>
      rw [List.modify_zero_cons, List.map_cons, List.map_cons, List.sum_cons, List.sum_cons]
      exact Nat.add_le_add_right (below x) _
    | succ i =>
      rw [List.modify_succ_cons, List.map_cons, List.map_cons, List.sum_cons, List.sum_cons]
      exact Nat.add_le_add_left (ih i) _

theorem unread_modify_le {g : Hub Notification → Hub Notification}
    {hubs : List (Hub Notification)} {i : Nat}
    (below : ∀ h, hubs[i]? = some h → ∀ j, (g h).backlog j ≤ h.backlog j) (f : Feed) :
    unread (hubs.modify i g) f ≤ unread hubs f := by
  unfold unread
  split
  · exact Nat.le_refl _
  · rw [List.getElem?_modify]
    cases there : hubs[f.hub]? with
    | none => exact Nat.le_refl _
    | some h =>
      by_cases same : i = f.hub
      · simpa [same] using below h (same ▸ there) f.reader
      · simp [same]

theorem unheard_endFeed_le (i : Nat) (f : Feed) (s : Site) :
    (s.endFeed i f).unheard ≤ s.unheard := by
  unfold unheard endFeed updateFeed updateHub
  refine (sum_map_modify_le (fun g => ?_) s.feeds i).trans
    (List.sum_le_sum fun g _ => unread_modify_le (fun h _ j => ?_) g)
  · unfold unread
    rw [if_pos rfl]
    exact Nat.zero_le _
  · rw [Hub.backlog_unsubscribe]
    split
    · exact Nat.zero_le _
    · exact Nat.le_refl _

theorem unheard_moveTo {i : Nat} {f : Feed} {h : Hub Notification} (there : s.feeds[i]? = some f)
    (unfinished : f.finished = false) (hub : s.hubs[f.hub]? = some h) :
    (s.updateHub f.hub (·.moveTo f.reader h.published)).unheard + h.backlog f.reader ≤
      s.unheard := by
  refine sum_map_add_le (fun g _ => unread_modify_le (fun k found j => ?_) g)
    (List.mem_of_getElem? there) ?_
  · rw [Option.some.inj (found.symm.trans hub)]
    rw [Hub.backlog_moveTo_end]
    split
    · exact Nat.zero_le _
    · exact Nat.le_refl _
  · have moved : (h.moveTo f.reader h.published).backlog f.reader = 0 := by
      rw [Hub.backlog_moveTo_end, if_pos rfl]
    simp [unread, unfinished, hub, moved]

theorem toil_available_le (e : Endpoint) (s : Site) : (s.available e).toil ≤ s.toil + 2 := by
  cases known : s.locations.contains e.location with
  | true =>
    rw [available_of_contains known]
    exact Nat.le_add_right _ _
  | false =>
    rw [available_of_not_contains known]
    unfold toil load unheard
    simp only [List.length_append, List.length_singleton]
    omega

theorem toil_notify_le (news : Notification) (s : Site) : (s.notify news).toil ≤ s.toil + 2 := by
  have still : ∀ {t : Site}, LeavesJobs s t → t.toil ≤ s.toil + 2 := by
    intro t leaves
    rw [leaves]
    exact Nat.le_add_right _ _
  unfold notify
  split
  · exact still rfl
  · exact still rfl
  · split
    · exact toil_available_le _ s
    · exact still (leavesJobs_unavailable _ s)
    · exact still rfl
    · exact still rfl

theorem toil_foldl_notify_le (news : List Notification) (s : Site) :
    (news.foldl (fun s n => s.notify n) s).toil ≤ s.toil + 2 * news.length ∧
      (news.foldl (fun s n => s.notify n) s).space.interruptions = s.space.interruptions := by
  induction news generalizing s with
  | nil => exact ⟨Nat.le_refl _, rfl⟩
  | cons n news ih =>
    obtain ⟨toil, interruptions⟩ := ih (s.notify n)
    have first := toil_notify_le n s
    rw [List.foldl_cons, List.length_cons]
    exact ⟨by omega, interruptions.trans (performed_notify n s).fixed.interruptions⟩

/-- Each item that a feed handles starts one resolution at most. -/
theorem toil_runFeed_le (sound : s.SoundHubs) {i : Nat} {f : Feed} (there : s.feeds[i]? = some f)
    (unfinished : f.finished = false) :
    (s.runFeed i f).toil ≤ s.toil ∧
      (s.runFeed i f).space.interruptions = s.space.interruptions := by
  have ends : ∀ t : Site, (t.endFeed i f).toil ≤ t.toil := by
    intro t
    have fewer := unheard_endFeed_le i f t
    unfold toil
    have same : (t.endFeed i f).load = t.load := rfl
    omega
  unfold runFeed
  split
  · exact ⟨Nat.le_refl _, rfl⟩
  · next h hub =>
    split
    · exact ⟨ends s, rfl⟩
    · have moved := unheard_moveTo there unfinished hub
      have length := (sound h (List.mem_of_getElem? hub)).length_waiting f.reader
      dsimp only
      generalize hreported : (if h.missed f.reader = 0 then
        s.updateHub f.hub (·.moveTo f.reader h.published) else _) = reported
      have start : reported.toil =
          s.load + 2 * (s.updateHub f.hub (·.moveTo f.reader h.published)).unheard ∧
          reported.space.interruptions = s.space.interruptions := by
        rw [← hreported]
        split <;> exact ⟨rfl, rfl⟩
      obtain ⟨toil, interruptions⟩ := toil_foldl_notify_le (h.waiting f.reader) reported
      have total : ((h.waiting f.reader).foldl (fun s n => s.notify n) reported).toil ≤ s.toil := by
        have whole : s.toil = s.load + 2 * s.unheard := rfl
        omega
      split
      · exact ⟨total, interruptions.trans start.2⟩
      · exact ⟨(ends _).trans total, interruptions.trans start.2⟩

/-! ## Runs -/

/-- Every turn leaves less to do, or something happens in it that was set to. -/
theorem toil_poll_lt (sound : s.SoundHubs) {j : Job} (ready : j ∈ s.ready) :
    Interrupted s (s.poll j) ∨
      (s.poll j).toil < s.toil ∧ (s.poll j).space.interruptions = s.space.interruptions := by
  have taken : toil { s with ready := s.ready.erase j } < s.toil := by
    have length := List.length_erase_of_mem ready
    have some := List.length_pos_of_mem ready
    show (s.ready.erase j).length + s.resolutions.length + s.limiter.free + 2 * s.unheard <
      s.ready.length + s.resolutions.length + s.limiter.free + 2 * s.unheard
    omega
  have released : ∀ t : Site, t.releaseLedger.toil = t.toil ∧
      t.releaseLedger.space.interruptions = t.space.interruptions := by
    intro t
    rw [releaseLedger_eq]
    exact ⟨rfl, rfl⟩
  have rests : ∀ t : Site, t.toil ≤ toil { s with ready := s.ready.erase j } →
      t.space.interruptions = s.space.interruptions →
      Interrupted s t.releaseLedger ∨ t.releaseLedger.toil < s.toil ∧
        t.releaseLedger.space.interruptions = s.space.interruptions := by
    intro t toil interruptions
    refine .inr ⟨?_, (released t).2.trans interruptions⟩
    rw [(released t).1]
    exact Nat.lt_of_le_of_lt toil taken
  unfold poll
  rw [if_pos ready]
  cases j with
  | resolution n =>
    dsimp only
    split
    · exact rests _ (Nat.le_refl _) rfl
    · next r known =>
      rcases eases_runResolution (mem_of_resolution? known).1 with fewer | eased
      · refine .inl ?_
        unfold Interrupted at *
        rw [(released _).2]
        exact fewer
      · refine rests _ ?_ eased.interruptions
        have load := eased.load
        unfold toil unheard
        rw [eased.hubs, eased.feeds]
        omega
  | feed i =>
    dsimp only
    split
    · exact rests _ (Nat.le_refl _) rfl
    · next f there =>
      split
      · exact rests _ (Nat.le_refl _) rfl
      · next unfinished =>
        obtain ⟨toil, interruptions⟩ := toil_runFeed_le
          (s := { s with ready := s.ready.erase (.feed i) }) (sound.of_eq rfl) there
          (eq_false_of_ne_true unfinished)
        exact rests _ toil interruptions

theorem Reachable.turns (h : Reachable allowed s) (n : Nat) : Reachable allowed (turns n s) := by
  induction n generalizing s with
  | zero => exact h
  | succ n ih =>
    unfold Site.turns
    split
    · exact h
    · exact ih h.poll

theorem toil_turns (h : Reachable allowed s) (n : Nat) :
    Interrupted s (turns n s) ∨ (turns n s).ready = [] ∨
      (turns n s).toil + n ≤ s.toil ∧
        (turns n s).space.interruptions = s.space.interruptions := by
  induction n generalizing s with
  | zero => exact .inr (.inr ⟨Nat.le_refl _, rfl⟩)
  | succ n ih =>
    cases jobs : s.ready with
    | nil =>
      unfold Site.turns
      rw [jobs]
      exact .inr (.inl jobs)
    | cons j rest =>
      have turn : Site.turns (n + 1) s = Site.turns n (s.poll j) := by
        rw [Site.turns]
        simp only [jobs]
      rw [turn]
      have ready : j ∈ s.ready := by
        rw [jobs]
        exact List.mem_cons_self
      have after := ih (h.poll (j := j))
      unfold Interrupted at *
      rcases toil_poll_lt h.soundHubs ready with fewer | ⟨less, same⟩
      · unfold Interrupted at fewer
        rcases after with more | idle | ⟨-, same⟩
        · exact .inl (more.trans fewer)
        · exact .inr (.inl idle)
        · exact .inl (same ▸ fewer)
      · rcases after with more | idle | ⟨toil, same'⟩
        · exact .inl (same ▸ more)
        · exact .inr (.inl idle)
        · exact .inr (.inr ⟨by omega, same'.trans same⟩)

/-- After a round no job is ready, unless something happened in it that was set to. -/
theorem ready_round (h : Reachable allowed s) :
    Interrupted s (turns s.work s) ∨ (turns s.work s).ready = [] := by
  rcases toil_turns h s.work with fewer | idle | ⟨toil, -⟩
  · exact .inl fewer
  · exact .inr idle
  · obtain ⟨coherent, -, before⟩ := h.rationed .refl
    obtain ⟨-, settings, after⟩ := h.rationed (step_turns s.work s coherent)
    replace before : Rationed (max s.settings.limit 1) s := before
    replace after : Rationed (max s.settings.limit 1) (turns s.work s) := settings ▸ after
    have start := work_add before
    have rest := work_add after
    have jobs := ready_le_work (turns s.work s)
    exact .inr (List.length_eq_zero_iff.1 (by omega))

theorem turns_of_idle (idle : s.ready = []) (n : Nat) : turns n s = s := by
  cases n with
  | zero => rfl
  | succ n =>
    unfold turns
    rw [idle]

theorem rounds_of_idle (idle : s.ready = []) (n : Nat) : rounds n s = s := by
  induction n with
  | zero => rfl
  | succ n ih =>
    unfold rounds
    rw [turns_of_idle idle, ih]

theorem ready_run (h : Reachable allowed s) : s.run.ready = [] := by
  have enough : ∀ n, s.space.interruptions.length < n → (rounds n s).ready = [] := by
    intro n
    induction n generalizing s with
    | zero => exact fun none => absurd none (Nat.not_lt_zero _)
    | succ n ih =>
      intro few
      unfold rounds
      rcases ready_round h with fewer | idle
      · exact ih (h.turns _) (Nat.lt_of_lt_of_le fewer (Nat.le_of_lt_succ few))
      · rw [rounds_of_idle idle]
        exact idle
  exact enough _ (Nat.lt_succ_self _)

theorem turns_turns (m n : Nat) (s : Site) : turns n (turns m s) = turns (m + n) s := by
  induction m generalizing s with
  | zero => rw [Nat.zero_add, turns]
  | succ m ih =>
    rw [Nat.succ_add, turns, turns]
    cases jobs : s.ready with
    | nil => exact turns_of_idle jobs n
    | cons j rest => exact ih _

theorem exists_run_eq_turns (s : Site) : ∃ n, s.run = turns n s := by
  have some : ∀ k, ∃ n, rounds k s = turns n s := by
    intro k
    induction k generalizing s with
    | zero => exact ⟨0, rfl⟩
    | succ k ih =>
      obtain ⟨n, hn⟩ := ih (turns s.work s)
      exact ⟨s.work + n, hn.trans (turns_turns _ _ _)⟩
  exact some _

/-- However many turns there are until no job is ready, they come to the same. -/
theorem run_eq_turns (h : Reachable allowed s) {n : Nat} (idle : (turns n s).ready = []) :
    s.run = turns n s := by
  obtain ⟨m, hm⟩ := exists_run_eq_turns s
  have rest := ready_run h
  rw [hm] at rest ⊢
  rw [← turns_of_idle rest n, turns_turns, Nat.add_comm, ← turns_turns, turns_of_idle idle]

end ServiceImport.Site

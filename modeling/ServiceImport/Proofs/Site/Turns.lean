import Mathlib.Data.List.Nodup
import ServiceImport.Proofs.Site.Frames

/-! # Turns as changes

Every turn is a number of changes, and so is every run. What is true of a new site and kept by each
change is true of every site that a run comes to.
-/

namespace ServiceImport.Site

/-! ## Resolutions and feeds go on -/

/-- The resolutions in flight have numbers of their own, all given out already. -/
structure Numbered (s : Site) : Prop where
  nodup : (s.resolutions.map (·.id)).Nodup
  issued : ∀ r ∈ s.resolutions, r.id < s.started

theorem Numbered.of_sublist {s t : Site} (numbered : s.Numbered) {f : Resolution → Resolution}
    (same : SameResolution f) (sub : t.resolutions.Sublist (s.resolutions.map f))
    (started : t.started = s.started) : t.Numbered where
  nodup := by
    have ids : (s.resolutions.map f).map (·.id) = s.resolutions.map (·.id) := by
      rw [List.map_map]
      exact List.map_congr_left fun r _ => (same r).1
    have nodup := numbered.nodup
    rw [← ids] at nodup
    exact nodup.sublist (sub.map _)
  issued := by
    intro q hq
    obtain ⟨r, hr, rfl⟩ := List.mem_map.1 (sub.subset hq)
    rw [(same r).1, started]
    exact numbered.issued r hr

/-- Resolutions stay in flight where they are, and feeds stay unfinished. -/
structure Continues (s t : Site) : Prop where
  numbered : s.Numbered → t.Numbered
  resolution : ∀ r ∈ s.resolutions, ∃ now ∈ t.resolutions,
    now.id = r.id ∧ now.endpoint = r.endpoint ∧ now.stage = r.stage
  feed : ∀ (i : Nat) (f : Feed), s.feeds[i]? = some f → f.finished = false →
    ∃ now : Feed, t.feeds[i]? = some now ∧ now.finished = false

theorem Continues.of_eq {s t : Site} (resolutions : t.resolutions = s.resolutions)
    (started : t.started = s.started) (feeds : t.feeds = s.feeds) : Continues s t where
  numbered h := ⟨resolutions ▸ h.nodup, by rw [resolutions, started]; exact h.issued⟩
  resolution r hr := ⟨r, resolutions ▸ hr, rfl, rfl, rfl⟩
  feed i f hf hopen := ⟨f, feeds ▸ hf, hopen⟩

theorem Continues.refl (s : Site) : Continues s s := Continues.of_eq rfl rfl rfl

theorem Continues.trans {s t u : Site} (hst : Continues s t) (htu : Continues t u) :
    Continues s u where
  numbered h := htu.numbered (hst.numbered h)
  resolution r hr := by
    obtain ⟨q, hq, hid, hendpoint, hstage⟩ := hst.resolution r hr
    obtain ⟨p, hp, hid', hendpoint', hstage'⟩ := htu.resolution q hq
    exact ⟨p, hp, hid'.trans hid, hendpoint'.trans hendpoint, hstage'.trans hstage⟩
  feed i f hf hopen := by
    obtain ⟨g, hg, hopen'⟩ := hst.feed i f hf hopen
    exact htu.feed i g hg hopen'

theorem Continues.foldl {α : Type} {f : Site → α → Site} (h : ∀ s a, Continues s (f s a)) (s : Site)
    (l : List α) : Continues s (l.foldl f s) :=
  List.foldlRecOn l f (Continues.refl s) fun t ht a _ => ht.trans (h t a)

theorem LeavesJobs.continues {s t : Site} (h : LeavesJobs s t) : Continues s t := by
  apply Continues.of_eq
  all_goals rw [h]

theorem continues_available (e : Endpoint) (s : Site) : Continues s (s.available e) := by
  cases h : s.locations.contains e.location with
  | true =>
    rw [available_of_contains h]
    exact Continues.of_eq rfl rfl rfl
  | false =>
    rw [available_of_not_contains h]
    constructor
    · intro numbered
      constructor
      · simp only [List.map_append, List.map_cons, List.map_nil]
        rw [List.nodup_append]
        refine ⟨numbered.nodup, by simp, ?_⟩
        intro n hn m hm
        obtain ⟨r, hr, rfl⟩ := List.mem_map.1 hn
        rw [List.mem_singleton.1 hm]
        exact Nat.ne_of_lt (numbered.issued r hr)
      · intro r hr
        simp only [List.mem_append, List.mem_singleton] at hr
        rcases hr with hr | rfl
        · exact Nat.lt_succ_of_lt (numbered.issued r hr)
        · exact Nat.lt_succ_self _
    · intro r hr
      exact ⟨r, List.mem_append_left _ hr, rfl, rfl, rfl⟩
    · intro i f hf hopen
      exact ⟨f, hf, hopen⟩

theorem continues_abortResolution (s : Site) (r : Resolution) :
    Continues s (s.abortResolution r) := by
  rw [abortResolution_eq]
  constructor
  · intro numbered
    refine numbered.of_sublist (f := fun q => if q.id = r.id then { q with aborted := true } else q)
      ?_ (List.Sublist.refl _) rfl
    intro q
    dsimp only
    split
    · exact ⟨rfl, rfl⟩
    · exact ⟨rfl, rfl⟩
  · intro q hq
    refine ⟨_, List.mem_map_of_mem hq, ?_⟩
    split
    · exact ⟨rfl, rfl, rfl⟩
    · exact ⟨rfl, rfl, rfl⟩
  · intro i f hf hopen
    exact ⟨f, hf, hopen⟩

theorem continues_abortFeed (i : Nat) (s : Site) : Continues s (s.abortFeed i) := by
  unfold abortFeed
  split
  · exact Continues.refl s
  · next f hf =>
    split
    · exact Continues.refl s
    · simp only
      rw [wake_eq]
      constructor
      · intro numbered
        exact ⟨numbered.nodup, numbered.issued⟩
      · intro r hr
        exact ⟨r, hr, rfl, rfl, rfl⟩
      · intro j g hg hopen
        simp only [updateFeed, List.getElem?_modify, hg]
        split
        · exact ⟨_, rfl, hopen⟩
        · exact ⟨_, rfl, hopen⟩

theorem continues_shutdown (s : Site) : Continues s s.shutdown :=
  (Continues.foldl continues_abortResolution s s.resolutions).trans
    (Continues.foldl (fun s i => continues_abortFeed i s) _ _)

theorem continues_attach (s : Site) : Continues s s.attach := by
  obtain ⟨added, heq⟩ := attach_eq s
  rw [heq]
  constructor
  · intro numbered
    exact ⟨numbered.nodup, numbered.issued⟩
  · intro r hr
    exact ⟨r, hr, rfl, rfl, rfl⟩
  · intro i f hf hopen
    refine ⟨f, ?_, hopen⟩
    rw [List.getElem?_append_left (List.getElem?_eq_some_iff.1 hf).1]
    exact hf

/-- No command ends a resolution or a feed; at most it marks them. -/
theorem Performed.continues {s t : Site} {c : Command} (h : Performed s c t) : Continues s t := by
  cases h with
  | surround h =>
    apply Continues.of_eq
    all_goals rw [h]
  | place locations _ => exact Continues.of_eq rfl rfl rfl
  | report r => exact Continues.of_eq rfl rfl rfl
  | available e _ => exact continues_available e s
  | unavailable e _ => exact (leavesJobs_unavailable e s).continues
  | shutdown => exact continues_shutdown s
  | collect => exact Continues.of_eq rfl rfl rfl
  | dropImporter keepLedger =>
    rw [dropImporter_eq]
    exact Continues.of_eq rfl rfl rfl
  | attach => exact continues_attach s
  | abortFeed i => exact continues_abortFeed i s
  | withdrawService key reference => exact (leavesJobs_withdrawService key reference s).continues
  | emit key reference host => exact (leavesJobs_emit key reference host s).continues
  | bypass h => exact (leavesJobs_bypass h s).continues

/-- What no operation of a site changes: how it works, and what it is about to be interrupted by. -/
structure Fixed (s t : Site) : Prop where
  settings : t.settings = s.settings
  plain : t.space.plain = s.space.plain
  interruptions : t.space.interruptions = s.space.interruptions

theorem LeavesJobs.fixed {s t : Site} (h : LeavesJobs s t) : Fixed s t := by
  constructor
  all_goals rw [h]

theorem fixed_available (e : Endpoint) (s : Site) : Fixed s (s.available e) := by
  cases h : s.locations.contains e.location with
  | true =>
    rw [available_of_contains h]
    exact ⟨rfl, rfl, rfl⟩
  | false =>
    rw [available_of_not_contains h]
    exact ⟨rfl, rfl, rfl⟩

theorem Performed.fixed {s t : Site} {c : Command} (h : Performed s c t) : Fixed s t := by
  cases h with
  | surround h =>
    constructor
    all_goals rw [h]
  | place locations _ => exact ⟨rfl, rfl, rfl⟩
  | report r => exact ⟨rfl, rfl, rfl⟩
  | available e _ => exact fixed_available e s
  | unavailable e _ => exact (leavesJobs_unavailable e s).fixed
  | shutdown =>
    rw [shutdown_eq]
    exact ⟨rfl, rfl, rfl⟩
  | collect => exact ⟨rfl, rfl, rfl⟩
  | dropImporter keepLedger =>
    rw [dropImporter_eq]
    exact ⟨rfl, rfl, rfl⟩
  | attach =>
    obtain ⟨added, heq⟩ := attach_eq s
    rw [heq]
    exact ⟨rfl, rfl, rfl⟩
  | abortFeed i =>
    rw [abortFeed_eq]
    exact ⟨rfl, rfl, rfl⟩
  | withdrawService key reference => exact (leavesJobs_withdrawService key reference s).fixed
  | emit key reference host => exact (leavesJobs_emit key reference host s).fixed
  | bypass h => exact (leavesJobs_bypass h s).fixed

/-! ## Every moment -/

theorem isAlive_of_mem {s : Site} {r : Resolution} (h : r ∈ s.resolutions) : s.isAlive = true := by
  have : s.resolutions.isEmpty = false := by
    rw [List.isEmpty_eq_false_iff]
    exact List.ne_nil_of_mem h
  unfold isAlive
  rw [this, Bool.not_false, Bool.or_true, Bool.true_or]

theorem isAlive_of_feed {s : Site} {i : Nat} {f : Feed} (h : s.feeds[i]? = some f)
    (hopen : f.finished = false) : s.isAlive = true := by
  have : s.feeds.any (!·.finished) = true := by
    rw [List.any_eq_true]
    exact ⟨f, List.mem_of_getElem? h, by rw [hopen]; rfl⟩
  unfold isAlive
  rw [this, Bool.or_true]

theorem isAlive_of_held {s : Site} (held : s.importerHeld = true) : s.isAlive = true := by
  unfold isAlive
  rw [held]
  rfl

/-- What holds of the jobs, and of what is planned, at every moment. -/
structure Coherent (allowed : Command → Prop) (m : Moment) : Prop where
  numbered : m.site.Numbered
  /-- The resolution whose turn it is is in flight. -/
  turn : ∀ r, m.phase.resolution? = some r → ∃ now ∈ m.site.resolutions,
    now.id = r.id ∧ now.endpoint = r.endpoint ∧ now.stage = .running
  /-- The feed whose turn it is has not ended. -/
  feed : ∀ i, m.phase = .feeding i → ∃ f : Feed, m.site.feeds[i]? = some f ∧ f.finished = false
  planned : ∀ cs ∈ m.site.space.interruptions, ∀ c ∈ cs, allowed c

variable {allowed : Command → Prop}

theorem Coherent.isAlive {m : Moment} (h : Coherent allowed m) (alive : m.IsAlive) :
    m.site.isAlive = true := by
  rcases alive with alive | busy
  · exact alive
  · cases hp : m.phase with
    | idle => exact absurd hp busy
    | feeding i =>
      obtain ⟨f, hf, hopen⟩ := h.feed i hp
      exact isAlive_of_feed hf hopen
    | resolving r | importing r _ _ | registering r _ _ _ _ =>
      obtain ⟨now, hnow, _⟩ := h.turn r (by rw [hp]; rfl)
      exact isAlive_of_mem hnow

theorem Coherent.continues {s t : Site} {p q : Phase} (h : Coherent allowed ⟨s, p⟩)
    (hst : Continues s t) (resolution : q.resolution? = p.resolution?)
    (feed : ∀ i, q = .feeding i → p = .feeding i)
    (interruptions : t.space.interruptions = s.space.interruptions) : Coherent allowed ⟨t, q⟩ where
  numbered := hst.numbered h.numbered
  turn r hr := by
    obtain ⟨now, hnow, hid, hendpoint, hstage⟩ := h.turn r (resolution ▸ hr)
    obtain ⟨later, hlater, hid', hendpoint', hstage'⟩ := hst.resolution now hnow
    exact ⟨later, hlater, hid'.trans hid, hendpoint'.trans hendpoint, hstage'.trans hstage⟩
  feed i hi := by
    obtain ⟨f, hf, hopen⟩ := h.feed i (feed i hi)
    exact hst.feed i f hf hopen
  planned := by
    rw [interruptions]
    exact h.planned

theorem Coherent.idle {s t : Site} {p : Phase} (h : Coherent allowed ⟨s, p⟩)
    (numbered : s.Numbered → t.Numbered)
    (interruptions : t.space.interruptions = s.space.interruptions) :
    Coherent allowed ⟨t, .idle⟩ where
  numbered := numbered h.numbered
  turn r hr := by simp [Phase.resolution?] at hr
  feed i hi := by simp at hi
  planned := by
    rw [interruptions]
    exact h.planned

theorem mem_of_resolution? {s : Site} {n : Nat} {r : Resolution} (h : s.resolution? n = some r) :
    r ∈ s.resolutions ∧ r.id = n := by
  refine ⟨List.mem_of_find?_eq_some h, ?_⟩
  have := List.find?_some h
  simpa using this

theorem Coherent.run {s t : Site} {r : Resolution} (h : Coherent allowed ⟨s, .idle⟩)
    (there : s.resolution? r.id = some r)
    (resolutions : t.resolutions =
      s.resolutions.map fun q => if q.id = r.id then { q with stage := .running } else q)
    (started : t.started = s.started)
    (interruptions : t.space.interruptions = s.space.interruptions) :
    Coherent allowed ⟨t, .resolving r⟩ where
  numbered := by
    refine h.numbered.of_sublist
      (f := fun q => if q.id = r.id then { q with stage := .running } else q) ?_ ?_ started
    · intro q
      dsimp only
      split
      · exact ⟨rfl, rfl⟩
      · exact ⟨rfl, rfl⟩
    · rw [resolutions]
  turn q hq := by
    obtain rfl : r = q := Option.some.inj hq
    refine ⟨{ r with stage := .running }, ?_, rfl, rfl, rfl⟩
    rw [resolutions]
    exact List.mem_map.2 ⟨r, (mem_of_resolution? there).1, if_pos rfl⟩
  feed i hi := by simp at hi
  planned := by
    rw [interruptions]
    exact h.planned

theorem Numbered.discard {s : Site} (h : s.Numbered) (r : Resolution) : (s.discard r).Numbered := by
  obtain ⟨f, same, heq⟩ := discard_eq r s
  rw [heq]
  exact h.of_sublist same List.filter_sublist rfl

theorem Numbered.complete {s : Site} (h : s.Numbered) (r : Resolution) (outcome : Outcome) :
    (s.complete r outcome).Numbered := by
  obtain ⟨f, report, same, heq⟩ := complete_eq r outcome s
  rw [heq]
  exact h.of_sublist same List.filter_sublist rfl

theorem Numbered.setStage {s : Site} (h : s.Numbered) (n : Nat) (stage : Stage) :
    (s.setStage n stage).Numbered := by
  refine h.of_sublist (f := fun q => if q.id = n then { q with stage } else q) ?_
    (List.Sublist.refl _) rfl
  intro q
  dsimp only
  split
  · exact ⟨rfl, rfl⟩
  · exact ⟨rfl, rfl⟩

/-! ## Every change -/

theorem Change.coherent {m n : Moment} (change : Change allowed m n) (h : Coherent allowed m) :
    Coherent allowed n := by
  cases change with
  | @perform s p c _ _ =>
    have done := performed s c
    exact h.continues done.continues rfl (fun _ hi => hi) done.fixed.interruptions
  | report report => exact h.continues (Continues.of_eq rfl rfl rfl) rfl (fun _ hi => hi) rfl
  | plan hplan => exact ⟨⟨h.numbered.nodup, h.numbered.issued⟩, h.turn, h.feed, hplan⟩
  | take _ => exact h.idle (fun numbered => ⟨numbered.nodup, numbered.issued⟩) rfl
  | release =>
    rw [releaseLedger_eq]
    exact h.idle (fun numbered => ⟨numbered.nodup, numbered.issued⟩) rfl
  | @discard s r _ _ =>
    refine h.idle (fun numbered => numbered.discard r) ?_
    obtain ⟨f, _, heq⟩ := discard_eq r s
    rw [heq]
  | queue _ _ _ =>
    refine h.idle (fun numbered => ?_) rfl
    apply Numbered.setStage
    exact ⟨numbered.nodup, numbered.issued⟩
  | enter there _ _ => exact h.run there rfl rfl rfl
  | resume there _ => exact h.run there rfl rfl rfl
  | countLookups c => exact h.continues (Continues.of_eq rfl rfl rfl) rfl (fun _ hi => hi) rfl
  | @await s r now c rest tally _ _ _ =>
    refine h.idle (fun numbered => ?_) rfl
    have staged := numbered.setStage r.id (.lookingUp c rest tally)
    exact ⟨staged.nodup, staged.issued⟩
  | @drop s r now _ _ =>
    refine h.idle (fun numbered => numbered.discard now) ?_
    obtain ⟨f, _, heq⟩ := discard_eq now s
    rw [heq]
  | @complete s r outcome =>
    refine h.idle (fun numbered => numbered.complete r outcome) ?_
    obtain ⟨f, report, _, heq⟩ := complete_eq r outcome s
    rw [heq]
  | subscribe c =>
    rw [subscribe_eq]
    exact h.continues (Continues.of_eq rfl rfl rfl) rfl (fun _ hi => by simp at hi) rfl
  | prepare _ _ =>
    refine ⟨⟨h.numbered.nodup, h.numbered.issued⟩, h.turn, fun _ hi => by simp at hi, ?_⟩
    intro cs hcs
    exact h.planned cs (List.mem_of_mem_tail hcs)
  | refuse _ =>
    exact h.continues (Continues.of_eq rfl rfl rfl) rfl (fun _ hi => by simp at hi) rfl
  | fault _ _ => exact h.continues (Continues.refl _) rfl (fun _ hi => by simp at hi) rfl
  | @register s r c x reference registration hd store _ _ =>
    have frame := leavesJobs_recordRegistered r c x reference registration.properties hd store s
    exact h.continues frame.continues rfl (fun _ hi => by simp at hi) frame.fixed.interruptions
  | unsubscribe =>
    rw [cancel_eq]
    exact h.continues (Continues.of_eq rfl rfl rfl) rfl (fun _ hi => by simp at hi) rfl
  | read hf hopen _ _ =>
    refine ⟨⟨h.numbered.nodup, h.numbered.issued⟩,
      fun r hr => by simp [Phase.resolution?] at hr, ?_, h.planned⟩
    intro j hj
    simp only [Phase.feeding.injEq] at hj
    subst hj
    exact ⟨_, hf, hopen⟩
  | @notify s i news =>
    have done := performed_notify news s
    exact h.continues done.continues rfl (fun _ hi => hi) done.fixed.interruptions
  | rest => exact h.idle (fun numbered => ⟨numbered.nodup, numbered.issued⟩) rfl
  | finish f => exact h.idle (fun numbered => ⟨numbered.nodup, numbered.issued⟩) rfl
  | abandon _ _ _ => exact h.idle (fun numbered => ⟨numbered.nodup, numbered.issued⟩) rfl

theorem Changes.coherent {m n : Moment} (changes : Changes allowed m n) (h : Coherent allowed m) :
    Coherent allowed n := by
  induction changes with
  | refl => exact h
  | tail _ change ih => exact change.coherent ih

/-! ## The importer does not come back -/

theorem isAlive_abortFeed (i : Nat) (s : Site) : (s.abortFeed i).isAlive = s.isAlive := by
  have marked : (s.feeds.modify i ({ · with aborted := true })).map (·.finished) =
      s.feeds.map (·.finished) := by
    apply List.ext_getElem?
    intro j
    simp only [List.getElem?_map, List.getElem?_modify]
    split
    · cases s.feeds[j]? <;> rfl
    · simp
  have same : (s.feeds.modify i ({ · with aborted := true })).any (!·.finished) =
      s.feeds.any (!·.finished) := by
    have := congrArg (List.any · (!·)) marked
    simpa only [List.any_map, Function.comp_def] using this
  unfold abortFeed
  split
  · rfl
  · split
    · rfl
    · dsimp only
      rw [wake_eq]
      unfold isAlive updateFeed
      dsimp only
      rw [same]

theorem LeavesJobs.isAlive {s t : Site} (h : LeavesJobs s t) : t.isAlive = s.isAlive := by
  rw [h]
  rfl

theorem Performed.isAlive {s t : Site} {c : Command} (h : Performed s c t)
    (uses : c.usesImporter = true → s.isAlive = true) (alive : t.isAlive = true) :
    s.isAlive = true := by
  cases h with
  | surround h =>
    rw [h] at alive
    exact alive
  | place _ _ | report _ => exact alive
  | available e huses => exact uses huses
  | unavailable e huses => exact uses huses
  | shutdown => exact uses rfl
  | collect => exact alive
  | dropImporter keepLedger => exact uses rfl
  | attach => exact uses rfl
  | abortFeed i =>
    rw [isAlive_abortFeed] at alive
    exact alive
  | withdrawService key reference =>
    rw [(leavesJobs_withdrawService key reference s).isAlive] at alive
    exact alive
  | emit key reference host =>
    rw [(leavesJobs_emit key reference host s).isAlive] at alive
    exact alive
  | bypass h =>
    rw [(leavesJobs_bypass h s).isAlive] at alive
    exact alive

/-- An importer that is not there stays away: only who holds it can bring something into flight. -/
theorem Change.isAlive {m n : Moment} (change : Change allowed m n) (h : Coherent allowed m)
    (alive : n.site.isAlive = true) : m.site.isAlive = true := by
  by_cases busy : m.phase = .idle
  · cases change with
    | @perform s p c _ uses => exact (performed s c).isAlive (fun hc => h.isAlive (uses hc)) alive
    | report _ => exact alive
    | plan _ => exact alive
    | take _ => exact alive
    | release =>
      rw [releaseLedger_eq] at alive
      exact alive
    | discard there _ => exact isAlive_of_mem (mem_of_resolution? there).1
    | queue there _ _ => exact isAlive_of_mem (mem_of_resolution? there).1
    | enter there _ _ => exact isAlive_of_mem (mem_of_resolution? there).1
    | resume there _ => exact isAlive_of_mem (mem_of_resolution? there).1
    | read hf hopen _ _ => exact isAlive_of_feed hf hopen
    | abandon hf hopen _ => exact isAlive_of_feed hf hopen
    | _ => simp at busy
  · exact h.isAlive (.inr busy)

/-! ## Every turn -/

/-- A step between moments, when what holds at every moment holds before it. -/
def Step (allowed : Command → Prop) (m n : Moment) : Prop :=
  Coherent allowed m → Changes allowed m n

theorem Step.trans {m n o : Moment} (hmn : Step allowed m n) (hno : Step allowed n o) :
    Step allowed m o := by
  intro h
  have changes := hmn h
  exact Relation.ReflTransGen.trans changes (hno (changes.coherent h))

theorem Change.step {m n : Moment} (change : Change allowed m n) : Step allowed m n :=
  fun _ => Relation.ReflTransGen.single change

theorem Step.refl (m : Moment) : Step allowed m m := fun _ => Relation.ReflTransGen.refl

/-- Steps for the elements of a list, one after another, where the moment depends on what is folded
up so far. -/
theorem Step.foldl {α β : Type} {f : β → α → β} {m : β → Moment}
    (h : ∀ b a, Step allowed (m b) (m (f b a))) (b : β) (l : List α) :
    Step allowed (m b) (m (l.foldl f b)) := by
  induction l generalizing b with
  | nil => exact Step.refl _
  | cons a l ih => exact (h b a).trans (ih (f b a))

theorem step_findContainers (e : Endpoint) (s : Site) (p : Phase) :
    Step allowed ⟨s, p⟩ ⟨(s.findContainers e).2, p⟩ := by
  have managed : ∀ s : Site, Step allowed ⟨s, p⟩ ⟨(s.findManaged e).2, p⟩ := by
    intro s
    unfold findManaged findByNamespace
    split
    · split
      · exact Step.refl _
      · split
        · exact (Change.report _).step
        · exact Step.refl _
    · exact Step.refl _
  unfold findContainers
  split
  · exact (Change.report _).step
  · simp only
    split
    · exact (managed s).trans (Change.report _).step
    · exact managed s

theorem step_lookUp (e : Endpoint) (c : Candidate) (s : Site) (p : Phase) :
    Step allowed ⟨s, p⟩ ⟨(s.lookUp e c).2, p⟩ := by
  refine Step.foldl (m := fun acc : List (String × List Reference) × Site => ⟨acc.2, p⟩)
    ?_ ([], s) e.interfaces
  intro acc interface
  unfold lookUpOne
  split
  · exact (Change.report _).step
  · exact Step.refl _
  · exact (Change.report _).step

theorem step_performAll {s : Site} {p : Phase} (busy : p ≠ .idle) {commands : List Command}
    (ok : ∀ c ∈ commands, allowed c) : Step allowed ⟨s, p⟩ ⟨s.performAll commands, p⟩ := by
  induction commands generalizing s with
  | nil => exact Step.refl _
  | cons c commands ih =>
    have first : Change allowed ⟨s, p⟩ ⟨s.perform c, p⟩ :=
      Change.perform (ok c List.mem_cons_self) fun _ => Or.inr busy
    exact first.step.trans (ih fun d hd => ok d (List.mem_cons_of_mem c hd))

theorem recordProxy_tally (e : Endpoint) (c : Candidate) (reference : Reference) (h : Handle)
    (s : Site) (x : Option Subscription) (tally tally' : Tally) :
    (recordProxy e c reference h ⟨s, x, tally⟩).site =
        (recordProxy e c reference h ⟨s, x, tally'⟩).site ∧
      (recordProxy e c reference h ⟨s, x, tally⟩).subscription =
        (recordProxy e c reference h ⟨s, x, tally'⟩).subscription := by
  rw [recordProxy_eq, recordProxy_eq]
  dsimp only
  cases s.ledger.register e c.id reference h x with
  | ok admitted => exact ⟨rfl, rfl⟩
  | error rejection => exact ⟨rfl, rfl⟩

theorem step_importOne (r : Resolution) (c : Candidate) (i : Importing) (reference : Reference) :
    Step allowed ⟨i.site, .importing r c i.subscription⟩
      ⟨(importOne r.endpoint c i reference).site,
        .importing r c (importOne r.endpoint c i reference).subscription⟩ := by
  obtain ⟨s, x, tally⟩ := i
  unfold importOne
  dsimp only
  cases hcheck : s.ledger.check ⟨c.id, r.endpoint.id⟩ reference.id with
  | error rejection => exact (Change.report _).step
  | ok _ =>
    dsimp only
    unfold registerProxy
    cases hprepare : s.prepareProxy r.endpoint c reference with
    | error fault => exact (Change.report _).step
    | ok registration =>
      intro h
      have ok : ∀ d ∈ s.space.interruptions.headD [], allowed d := by
        cases hplan : s.space.interruptions with
        | nil => simp
        | cons commands _ => exact h.planned commands (by rw [hplan]; exact List.mem_cons_self)
      have prepared : Change allowed ⟨s, .importing r c x⟩
          ⟨{ s.log (.proxied c reference) with
              space := { s.space with interruptions := s.space.interruptions.tail } },
            .registering r c x reference registration⟩ := Change.prepare hcheck hprepare
      refine (prepared.step.trans ((step_performAll (by simp) ok).trans ?_)) h
      dsimp only
      unfold register
      have space : (s.log (.proxied c reference)).space = s.space := rfl
      rw [space]
      dsimp only
      generalize performAll (s.space.interruptions.headD []) _ = t
      cases hfail : t.space.failRegister with
      | some reason => exact (Change.refuse hfail).step.trans (Change.report _).step
      | none =>
        dsimp only
        cases hregister : t.space.store.register registration with
        | error fault => exact (Change.fault hfail hregister).step.trans (Change.report _).step
        | ok registered =>
          obtain ⟨hd, store⟩ := registered
          have same := recordProxy_tally r.endpoint c reference hd
            (((t.withStore store).log (.called (.register hd registration.properties))).noteImport
              hd reference) x tally {}
          dsimp only
          rw [same.1, same.2]
          exact (Change.register hfail hregister).step

theorem isSome_of_lookUp {e : Endpoint} {c : Candidate} {s : Site} (h : (s.lookUp e c).1 ≠ []) :
    ((s.lookUp e c).2.adapter? c.adapter).isSome = true := by
  have asked : (s.lookUp e c).2.adapters = s.adapters ∧
      (s.adapter? c.adapter = none → (s.lookUp e c).1 = []) := by
    unfold lookUp
    refine List.foldlRecOn e.interfaces (lookUpOne e c)
      (motive := fun acc => acc.2.adapters = s.adapters ∧
        (s.adapter? c.adapter = none → acc.1 = [])) ?_ ?_
    · exact ⟨rfl, fun _ => rfl⟩
    rintro ⟨found, t⟩ ⟨adapters, none⟩ interface _
    have same : t.adapter? c.adapter = s.adapter? c.adapter := by
      unfold adapter?
      rw [adapters]
    unfold lookUpOne
    split
    · exact ⟨adapters, none⟩
    · next references nonempty answered =>
      refine ⟨adapters, fun gone => ?_⟩
      unfold answerFor at answered
      dsimp only at answered
      rw [same, gone] at answered
      exact absurd (Except.ok.inj answered).symm nonempty
    · exact ⟨adapters, none⟩
  have same : (s.lookUp e c).2.adapter? c.adapter = s.adapter? c.adapter := by
    unfold adapter?
    rw [asked.1]
  rw [same, Option.isSome_iff_ne_none]
  exact fun none => h (asked.2 none)

theorem step_importThrough (r : Resolution) (c : Candidate) (tally : Tally) (s : Site) :
    Step allowed ⟨s, .resolving r⟩ ⟨(s.importThrough r.endpoint c tally).2, .resolving r⟩ := by
  unfold importThrough
  dsimp only
  split
  · exact step_lookUp _ _ _ _
  · next found =>
    have there := isSome_of_lookUp (mt List.isEmpty_iff.2 found)
    refine (step_lookUp r.endpoint c s _).trans ?_
    generalize (s.lookUp r.endpoint c).2 = s at there
    unfold importAll
    dsimp only
    have imported := Step.foldl
      (m := fun i : Importing => ⟨i.site, .importing r c i.subscription⟩)
      (@step_importOne allowed r c)
      ⟨(s.subscribe c.adapter (.importer c.id)).2.log (.opened c),
        (s.subscribe c.adapter (.importer c.id)).1, { tally with anyReferences := true }⟩
    exact (Change.subscribe c there).step.trans ((imported _).trans Change.unsubscribe.step)

theorem step_resolveThrough (r : Resolution) (candidates : List Candidate) (tally : Tally)
    (s : Site) :
    Step allowed ⟨s, .resolving r⟩
      ⟨(resolveThrough r.endpoint candidates tally s).2, .resolving r⟩ := by
  induction candidates generalizing tally s with
  | nil => exact Step.refl _
  | cons c rest ih =>
    unfold resolveThrough
    dsimp only
    refine (Change.countLookups c).step.trans ?_
    split
    · exact Step.refl _
    · exact (step_importThrough r c tally _).trans (ih _ _)

theorem step_resumeThrough (r : Resolution) (c : Candidate) (rest : List Candidate) (tally : Tally)
    (s : Site) :
    Step allowed ⟨s, .resolving r⟩ ⟨(resumeThrough r.endpoint c rest tally s).2, .resolving r⟩ := by
  unfold resumeThrough
  split
  · exact Step.refl _
  · exact (step_importThrough r c tally s).trans (step_resolveThrough r rest _ _)

theorem step_resolve (r : Resolution) (s : Site) :
    Step allowed ⟨s, .resolving r⟩ ⟨(s.resolve r.endpoint).2, .resolving r⟩ := by
  unfold resolve
  dsimp only
  split
  · exact (step_findContainers _ _ _).trans (Change.report _).step
  · exact (step_findContainers _ _ _).trans (step_resolveThrough r _ _ _)

theorem hasToWait_resolveThrough {e : Endpoint} {candidates : List Candidate} {tally : Tally}
    {s t : Site} {c : Candidate} {rest : List Candidate} {tally' : Tally}
    (h : resolveThrough e candidates tally s = (.waiting c rest tally', t)) :
    t.hasToWait e c = true := by
  induction candidates generalizing tally s with
  | nil => simp [resolveThrough] at h
  | cons d candidates ih =>
    unfold resolveThrough at h
    dsimp only at h
    split at h
    · next hwait =>
      simp only [Prod.mk.injEq, Progress.waiting.injEq] at h
      obtain ⟨⟨rfl, _, _⟩, rfl⟩ := h
      exact hwait
    · exact ih h

theorem hasToWait_resolve {e : Endpoint} {s t : Site} {c : Candidate} {rest : List Candidate}
    {tally : Tally} (h : s.resolve e = (.waiting c rest tally, t)) : t.hasToWait e c = true := by
  unfold resolve at h
  dsimp only at h
  split at h
  · simp at h
  · exact hasToWait_resolveThrough h

theorem hasToWait_resumeThrough {e : Endpoint} {d : Candidate} {candidates : List Candidate}
    {tally : Tally} {s t : Site} {c : Candidate} {rest : List Candidate} {tally' : Tally}
    (h : resumeThrough e d candidates tally s = (.waiting c rest tally', t)) :
    t.hasToWait e c = true := by
  unfold resumeThrough at h
  split at h
  · next hwait =>
    simp only [Prod.mk.injEq, Progress.waiting.injEq] at h
    obtain ⟨⟨rfl, _, _⟩, rfl⟩ := h
    exact hwait
  · exact hasToWait_resolveThrough h

theorem Coherent.exists_resolution? {m : Moment} (h : Coherent allowed m) {r : Resolution}
    (hr : m.phase.resolution? = some r) :
    ∃ now, m.site.resolution? r.id = some now := by
  obtain ⟨now, hnow, hid, _⟩ := h.turn r hr
  rw [← Option.isSome_iff_exists]
  exact List.find?_isSome.2 ⟨now, hnow, by simpa using hid⟩

theorem step_conclude (r : Resolution) {p : Progress × Site}
    (waits : ∀ c rest tally, p.1 = .waiting c rest tally → p.2.hasToWait r.endpoint c = true) :
    Step allowed ⟨p.2, .resolving r⟩ ⟨conclude r p, .idle⟩ := by
  obtain ⟨progress, s⟩ := p
  cases progress with
  | done outcome => exact (Change.complete outcome).step
  | waiting c rest tally =>
    intro h
    obtain ⟨now, hnow⟩ := h.exists_resolution? rfl
    dsimp only at hnow
    unfold conclude
    dsimp only
    rw [hnow]
    dsimp only
    cases haborted : now.aborted with
    | true => exact (Change.drop hnow haborted).step h
    | false => exact (Change.await (waits c rest tally rfl) hnow haborted).step h

theorem step_runResolution {r : Resolution} {s : Site} (there : s.resolution? r.id = some r) :
    Step allowed ⟨s, .idle⟩ ⟨s.runResolution r, .idle⟩ := by
  unfold runResolution
  cases haborted : r.aborted with
  | true => exact (Change.discard there haborted).step
  | false =>
    simp only [Bool.false_eq_true, if_false]
    cases hstage : r.stage with
    | fresh =>
      dsimp only
      by_cases hfree : s.limiter.free = 0
      · have hacquire : (s.limiter.acquire r.id).1 = false := by simp [Limiter.acquire, hfree]
        rw [hacquire]
        exact (Change.queue there hstage hfree).step
      · have hacquire : (s.limiter.acquire r.id).1 = true := by simp [Limiter.acquire, hfree]
        rw [hacquire]
        refine (Change.enter there hstage hfree).step.trans ((step_resolve r _).trans ?_)
        exact step_conclude r fun c rest tally hp => hasToWait_resolve (Prod.ext hp rfl)
    | admitted =>
      refine (Change.resume there (.inl hstage)).step.trans ((step_resolve r _).trans ?_)
      exact step_conclude r fun c rest tally hp => hasToWait_resolve (Prod.ext hp rfl)
    | lookingUp c rest tally =>
      refine (Change.resume there (.inr ⟨c, rest, tally, hstage⟩)).step.trans
        ((step_resumeThrough r c rest tally _).trans ?_)
      exact step_conclude r fun c rest tally hp => hasToWait_resumeThrough (Prod.ext hp rfl)
    | queued => exact Step.refl _
    | running => exact Step.refl _

theorem step_runFeed {i : Nat} {f : Feed} {s : Site} (there : s.feeds[i]? = some f)
    (hopen : f.finished = false) : Step allowed ⟨s, .idle⟩ ⟨s.runFeed i f, .idle⟩ := by
  unfold runFeed
  split
  · exact Step.refl _
  · next h hhub =>
    cases haborted : f.aborted with
    | true => exact (Change.abandon there hopen haborted).step
    | false =>
      simp only [Bool.false_eq_true, if_false]
      refine (Change.read there hopen haborted hhub).step.trans ?_
      generalize s.updateHub f.hub _ = s
      have reported : Step allowed ⟨s, .feeding i⟩
          ⟨if h.missed f.reader = 0 then s else s.report (.lagged (h.missed f.reader)),
            .feeding i⟩ := by
        split
        · exact Step.refl _
        · exact (Change.report _).step
      refine reported.trans ?_
      generalize (if h.missed f.reader = 0 then s else s.report (.lagged (h.missed f.reader))) = s
      have notified : Step allowed ⟨s, .feeding i⟩
          ⟨(h.waiting f.reader).foldl (fun s n => s.notify n) s, .feeding i⟩ :=
        Step.foldl (m := fun s => ⟨s, .feeding i⟩) (fun s n => (Change.notify n).step) s _
      refine notified.trans ?_
      split
      · exact Change.rest.step
      · exact (Change.finish f).step

theorem step_poll (j : Job) (s : Site) : Step allowed ⟨s, .idle⟩ ⟨s.poll j, .idle⟩ := by
  unfold poll
  split
  · next hready =>
    refine (Change.take hready).step.trans (Step.trans ?_ Change.release.step)
    generalize { s with ready := s.ready.erase j } = s
    cases j with
    | resolution n =>
      dsimp only
      split
      · exact Step.refl _
      · next r hr =>
        obtain rfl := (mem_of_resolution? hr).2
        exact step_runResolution hr
    | feed i =>
      dsimp only
      split
      · exact Step.refl _
      · next f hf =>
        cases hopen : f.finished with
        | true => exact Step.refl _
        | false => exact step_runFeed hf hopen
  · exact Step.refl _

/-! ## Every run -/

theorem install_eq (s : Site) (i : Installation) :
    s.install i =
      { s with
        containers := (s.install i).containers
        adapters := (s.install i).adapters
        registry := (s.install i).registry } := rfl

theorem installAll_eq (installations : List Installation) (s : Site) :
    installations.foldl install s =
      { s with
        containers := (installations.foldl install s).containers
        adapters := (installations.foldl install s).adapters
        registry := (installations.foldl install s).registry } := by
  induction installations generalizing s with
  | nil => rfl
  | cons i installations ih =>
    have h := ih (s.install i)
    rw [install_eq] at h
    rw [List.foldl_cons, install_eq]
    exact h

theorem build_eq {b : Blueprint} {s : Site} (h : build b = .ok s) :
    s = {
        settings := b.settings, adaptation := b.adaptation, managed := b.managed
        finders := s.finders, containers := s.containers, registry := s.registry
        adapters := s.adapters, space := { plain := b.plainSpace }
        limiter := { free := max b.settings.limit 1 }, journal := s.journal } ∧
      (s.journal = [] ∨ s.journal = [.reported .builtWithoutFinders]) := by
  unfold build at h
  split at h
  · simp at h
  · dsimp only at h
    rw [installAll_eq] at h
    split at h
    · obtain rfl := Except.ok.inj h
      exact ⟨rfl, .inr rfl⟩
    · obtain rfl := Except.ok.inj h
      exact ⟨rfl, .inl rfl⟩

theorem coherent_build {b : Blueprint} {s : Site} (h : build b = .ok s) :
    Coherent allowed ⟨s, .idle⟩ := by
  obtain ⟨heq, _⟩ := build_eq h
  constructor
  · constructor
    all_goals
      dsimp only
      rw [heq]
      simp
  · intro r hr
    simp [Phase.resolution?] at hr
  · intro i hi
    simp at hi
  · dsimp only
    rw [heq]
    simp

/-- What holds at new sites and is kept by every change holds at every site that a run comes to. -/
theorem Reachable.invariant {I : Moment → Prop}
    (built : ∀ {b : Blueprint} {s : Site}, Site.build b = .ok s → I ⟨s, .idle⟩)
    (kept : ∀ {m n : Moment}, Coherent allowed m → Change allowed m n → I m → I n)
    {s : Site} (h : Reachable allowed s) : Coherent allowed ⟨s, .idle⟩ ∧ I ⟨s, .idle⟩ := by
  have one : ∀ {m n : Moment}, Change allowed m n → Coherent allowed m ∧ I m →
      Coherent allowed n ∧ I n := fun change hm => ⟨change.coherent hm.1, kept hm.1 change hm.2⟩
  induction h with
  | build h => exact ⟨coherent_build h, built h⟩
  | perform _ ok alive ih => exact one (Change.perform ok fun uses => .inl (alive uses)) ih
  | plan _ ok ih => exact one (Change.plan ok) ih
  | @poll s j _ ih =>
    have changes := step_poll j s ih.1
    generalize (⟨s.poll j, .idle⟩ : Moment) = n at changes ⊢
    induction changes with
    | refl => exact ih
    | tail _ change ih => exact one change ih

/-- Moreover it holds at every moment of every turn. -/
theorem Reachable.always {I : Moment → Prop}
    (built : ∀ {b : Blueprint} {s : Site}, Site.build b = .ok s → I ⟨s, .idle⟩)
    (kept : ∀ {m n : Moment}, Coherent allowed m → Change allowed m n → I m → I n)
    {s : Site} (h : Reachable allowed s) {m : Moment} (changes : Changes allowed ⟨s, .idle⟩ m) :
    Coherent allowed m ∧ I m := by
  induction changes with
  | refl => exact h.invariant built kept
  | tail _ change ih => exact ⟨change.coherent ih.1, kept ih.1 change ih.2⟩

end ServiceImport.Site

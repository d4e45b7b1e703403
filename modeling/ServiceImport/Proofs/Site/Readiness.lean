import ServiceImport.Proofs.Site.Turns

/-! # Readiness

A resolution that never ran can run, and so can one that was given a permit and has not run since.
Whenever it is nobody's turn, every such resolution is among the jobs that are ready.
-/

namespace ServiceImport

/-- Whether a resolution can go on without anything else happening. -/
def Stage.isDue : Stage → Bool
  | fresh | admitted => true
  | queued | running | lookingUp .. => false

namespace Site

variable {s t u : Site} {allowed : Command → Prop} {r : Resolution}

theorem Numbered.eq_of_id (numbered : s.Numbered) {q : Resolution} (hq : q ∈ s.resolutions)
    (hr : r ∈ s.resolutions) (same : q.id = r.id) : q = r :=
  List.inj_on_of_nodup_map numbered.nodup hq hr same

/-! ## Jobs become ready -/

/-- What one step of a fold brings about is there in the end, if the other steps keep it. -/
theorem foldl_of_mem {α β : Type} {f : β → α → β} {P : β → Prop} {a : α} {l : List α}
    (there : a ∈ l) (made : ∀ b, P (f b a)) (kept : ∀ b x, P b → P (f b x)) (b : β) :
    P (l.foldl f b) := by
  obtain ⟨before, after, rfl⟩ := List.append_of_mem there
  rw [List.foldl_append, List.foldl_cons]
  exact List.foldlRecOn after f (made _) fun b h x _ => kept b x h

/-- What was ready is ready, and who can run is ready or could run before. -/
structure Rouses (s t : Site) : Prop where
  ready : ∀ j ∈ s.ready, j ∈ t.ready
  due : ∀ q ∈ t.resolutions, q.stage.isDue = true → .resolution q.id ∈ t.ready ∨
    ∃ p ∈ s.resolutions, p.id = q.id ∧ p.stage.isDue = true

theorem Rouses.trans (hst : Rouses s t) (htu : Rouses t u) : Rouses s u where
  ready j hj := htu.ready j (hst.ready j hj)
  due q hq due := by
    rcases htu.due q hq due with ready | ⟨p, hp, hid, due⟩
    · exact .inl ready
    · rw [← hid]
      exact (hst.due p hp due).imp_left (htu.ready _)

theorem Rouses.of_eq (ready : ∀ j ∈ s.ready, j ∈ t.ready)
    (resolutions : t.resolutions = s.resolutions) : Rouses s t :=
  ⟨ready, fun q hq due => .inr ⟨q, resolutions ▸ hq, rfl, due⟩⟩

theorem Rouses.refl (s : Site) : Rouses s s := .of_eq (fun _ hj => hj) rfl

theorem Rouses.after (h : Rouses t u) (ready : t.ready = s.ready)
    (resolutions : t.resolutions = s.resolutions) : Rouses s u :=
  Rouses.trans (.of_eq (fun _ hj => ready ▸ hj) resolutions) h

theorem Rouses.foldl {α : Type} {f : Site → α → Site} (h : ∀ s a, Rouses s (f s a)) (s : Site)
    (l : List α) : Rouses s (l.foldl f s) :=
  List.foldlRecOn l f (Rouses.refl s) fun t ht a _ => ht.trans (h t a)

theorem LeavesJobs.rouses (h : LeavesJobs s t) : Rouses s t := by
  apply Rouses.of_eq
  all_goals
    rw [h]
    try exact fun _ hj => hj

theorem rouses_wake (j : Job) (s : Site) : Rouses s (s.wake j) := by
  unfold wake
  split
  · exact Rouses.refl s
  · exact .of_eq (fun _ hk => List.mem_append_left _ hk) rfl

theorem mem_ready_wake (j : Job) (s : Site) : j ∈ (s.wake j).ready := by
  unfold wake
  split
  · next there => exact there
  · exact List.mem_append_right _ (List.mem_singleton_self j)

theorem rouses_available (e : Endpoint) (s : Site) : Rouses s (s.available e) := by
  cases known : s.locations.contains e.location with
  | true =>
    rw [available_of_contains known]
    exact .of_eq (fun _ hj => hj) rfl
  | false =>
    rw [available_of_not_contains known]
    refine ⟨fun j hj => List.mem_append_left _ hj, fun q hq due => ?_⟩
    rcases List.mem_append.1 hq with hq | hq
    · exact .inr ⟨q, hq, rfl, due⟩
    · obtain rfl := List.mem_singleton.1 hq
      exact .inl (List.mem_append_right _ (List.mem_singleton_self _))

theorem rouses_abortResolution (s : Site) (r : Resolution) : Rouses s (s.abortResolution r) := by
  have marked : Rouses s (s.updateResolution r.id ({ · with aborted := true })) := by
    refine ⟨fun _ hj => hj, fun q hq due => ?_⟩
    obtain ⟨p, hp, rfl⟩ := List.mem_map.1 hq
    refine .inr ⟨p, hp, ?_, ?_⟩
    · split <;> rfl
    · split at due <;> exact due
  unfold abortResolution
  dsimp only
  split
  · exact marked
  · exact marked.trans (rouses_wake _ _)

theorem rouses_abortFeed (i : Nat) (s : Site) : Rouses s (s.abortFeed i) := by
  unfold abortFeed
  split
  · exact Rouses.refl s
  · split
    · exact Rouses.refl s
    · exact (rouses_wake _ _).after rfl rfl

theorem rouses_shutdown (s : Site) : Rouses s s.shutdown :=
  (Rouses.foldl rouses_abortResolution s s.resolutions).trans
    (Rouses.foldl (fun s i => rouses_abortFeed i s) _ _)

theorem rouses_wakeFeeds (hub : Nat) (s : Site) : Rouses s (s.wakeFeeds hub) := by
  unfold wakeFeeds
  exact (Rouses.foldl (fun s i => rouses_wake (.feed i) s) _ _).after rfl rfl

theorem rouses_attach (s : Site) : Rouses s s.attach := by
  unfold attach
  dsimp only
  split
  · rw [ensureHub_eq]
    exact .of_eq (fun _ hj => hj) rfl
  · rw [ensureHub_eq]
    exact .of_eq (fun _ hj => List.mem_append_left _ hj) rfl

theorem rouses_publish (news : Notification) (s : Site) : Rouses s (s.publish news).2 := by
  unfold publish
  split
  · exact Rouses.refl s
  · dsimp only
    split
    · exact .of_eq (fun _ hj => hj) rfl
    · exact (rouses_wakeFeeds _ _).after rfl rfl

theorem rouses_closeHub (s : Site) : Rouses s s.closeHub := by
  unfold closeHub
  split
  · exact Rouses.refl s
  · exact (rouses_wakeFeeds _ _).after rfl rfl

theorem rouses_setGate (key : String) (closed : Bool) (s : Site) :
    Rouses s (s.setGate key closed) := by
  unfold setGate
  exact (Rouses.foldl (fun s n => rouses_wake (.resolution n) s) _ _).after rfl rfl

theorem rouses_notify (news : Notification) (s : Site) : Rouses s (s.notify news) := by
  unfold notify
  split
  · exact .of_eq (fun _ hj => hj) rfl
  · exact .of_eq (fun _ hj => hj) rfl
  · split
    · exact rouses_available _ s
    · exact (leavesJobs_unavailable _ s).rouses
    · exact Rouses.refl s
    · exact Rouses.refl s

theorem rouses_perform (s : Site) (c : Command) : Rouses s (s.perform c) := by
  cases c with
  | available e => exact rouses_available e s
  | unavailable e => exact (leavesJobs_unavailable e s).rouses
  | notify news => exact rouses_notify news s
  | shutdown => exact rouses_shutdown s
  | attach => exact rouses_attach s
  | publish news => exact rouses_publish news s
  | abortFeed i => exact rouses_abortFeed i s
  | closeHub => exact rouses_closeHub s
  | setGate key closed => exact rouses_setGate key closed s
  | withdrawService key reference => exact (leavesJobs_withdrawService key reference s).rouses
  | emit key reference host => exact (leavesJobs_emit key reference host s).rouses
  | unregister h => exact (leavesJobs_bypass rfl s).rouses
  | record e c reference h x => exact (leavesJobs_bypass rfl s).rouses
  | unrecordEndpoint e => exact (leavesJobs_bypass rfl s).rouses
  | unrecordReference c reference => exact (leavesJobs_bypass rfl s).rouses
  | dropImporter keepLedger =>
    unfold perform
    dsimp only
    rw [dropImporter_eq]
    exact .of_eq (fun _ hj => hj) rfl
  | publishService key interfaces properties =>
    unfold perform
    dsimp only
    rw [publishService_eq]
    exact .of_eq (fun _ hj => hj) rfl
  | observe key label =>
    unfold perform
    dsimp only
    rw [subscribe_eq]
    exact .of_eq (fun _ hj => hj) rfl
  | _ => exact .of_eq (fun _ hj => hj) rfl

/-! ## Turns -/

theorem rouses_log (e : Event) (s : Site) : Rouses s (s.log e) := .of_eq (fun _ hj => hj) rfl

theorem rouses_findContainers (e : Endpoint) (s : Site) : Rouses s (s.findContainers e).2 := by
  have managed : Rouses s (s.findManaged e).2 := by
    unfold findManaged findByNamespace
    split
    · split
      · exact Rouses.refl s
      · split
        · exact rouses_log _ s
        · exact Rouses.refl s
    · exact Rouses.refl s
  unfold findContainers
  split
  · exact rouses_log _ s
  · dsimp only
    split
    · exact managed.trans (rouses_log _ _)
    · exact managed

theorem rouses_lookUp (e : Endpoint) (c : Candidate) (s : Site) : Rouses s (s.lookUp e c).2 := by
  unfold lookUp
  refine List.foldlRecOn e.interfaces (lookUpOne e c) (motive := fun acc => Rouses s acc.2) ?_ ?_
  · exact Rouses.refl s
  · intro acc h interface _
    unfold lookUpOne
    split
    · exact h.trans (rouses_log _ _)
    · exact h
    · exact h.trans (rouses_log _ _)

theorem rouses_registerProxy (e : Endpoint) (c : Candidate) (reference : Reference) (s : Site) :
    Rouses s (s.registerProxy e c reference).2 := by
  unfold registerProxy
  cases s.prepareProxy e c reference with
  | error fault => exact Rouses.refl s
  | ok registration =>
    have interrupted : Rouses s
        (performAll ((s.log (.proxied c reference)).space.interruptions.headD [])
          { s.log (.proxied c reference) with
            space := { s.space with interruptions := s.space.interruptions.tail } }) :=
      (Rouses.foldl rouses_perform _ _).after rfl rfl
    have registered : Rouses s ((s.log (.proxied c reference)).register registration).2 := by
      unfold register
      dsimp only
      split
      · exact interrupted.trans (rouses_log _ _)
      · split
        · exact interrupted
        · exact interrupted.trans (.of_eq (fun _ hj => hj) rfl)
    dsimp only
    split
    · next heq => exact heq ▸ registered
    · next h t heq =>
      rw [heq] at registered
      refine registered.trans ?_
      dsimp only
      rw [noteImport_eq]
      exact .of_eq (fun _ hj => hj) rfl

theorem rouses_importOne (e : Endpoint) (c : Candidate) (i : Importing) (reference : Reference) :
    Rouses i.site (importOne e c i reference).site := by
  have registered := rouses_registerProxy e c reference i.site
  unfold importOne
  split
  · exact rouses_log _ _
  · split
    · next heq =>
      rw [heq] at registered
      exact registered.trans (rouses_log _ _)
    · next heq =>
      rw [heq] at registered
      refine registered.trans (LeavesJobs.rouses ?_)
      exact leavesJobs_recordProxy e c reference _ { i with site := _ }

theorem rouses_importThrough (e : Endpoint) (c : Candidate) (tally : Tally) (s : Site) :
    Rouses s (s.importThrough e c tally).2 := by
  have found := rouses_lookUp e c s
  unfold importThrough
  dsimp only
  split
  · exact found
  · refine found.trans ?_
    unfold importAll
    dsimp only
    rw [cancel_eq, subscribe_eq]
    have imported : ∀ (references : List Reference) (i : Importing),
        Rouses i.site (references.foldl (importOne e c) i).site := by
      intro references i
      refine List.foldlRecOn references (importOne e c)
        (motive := fun j => Rouses i.site j.site) (Rouses.refl _) fun j h reference _ => ?_
      exact h.trans (rouses_importOne e c j reference)
    refine Rouses.trans ((imported _ _).after ?_ ?_) (.of_eq (fun _ hj => hj) rfl)
    all_goals rfl

theorem rouses_resolveThrough (e : Endpoint) (candidates : List Candidate) (tally : Tally)
    (s : Site) : Rouses s (resolveThrough e candidates tally s).2 := by
  induction candidates generalizing tally s with
  | nil => exact Rouses.refl s
  | cons c rest ih =>
    unfold resolveThrough
    dsimp only
    split
    · exact .of_eq (fun _ hj => hj) rfl
    · exact ((rouses_importThrough e c tally _).trans (ih _ _)).after rfl rfl

theorem rouses_resumeThrough (e : Endpoint) (c : Candidate) (rest : List Candidate) (tally : Tally)
    (s : Site) : Rouses s (resumeThrough e c rest tally s).2 := by
  unfold resumeThrough
  split
  · exact Rouses.refl s
  · exact (rouses_importThrough e c tally s).trans (rouses_resolveThrough e rest _ _)

theorem rouses_resolve (e : Endpoint) (s : Site) : Rouses s (s.resolve e).2 := by
  unfold resolve
  dsimp only
  split
  · exact (rouses_findContainers e s).trans (rouses_log _ _)
  · exact (rouses_findContainers e s).trans (rouses_resolveThrough e _ _ _)

theorem rouses_releasePermit (s : Site) : Rouses s s.releasePermit := by
  unfold Site.releasePermit
  dsimp only
  split
  · exact .of_eq (fun _ hj => hj) rfl
  · next n _ =>
    refine ⟨fun j hj => (rouses_wake _ _).ready j hj, fun q hq due => ?_⟩
    rw [wake_eq] at hq
    obtain ⟨p, hp, rfl⟩ := List.mem_map.1 hq
    split at due
    · next same =>
      rw [if_pos same]
      exact .inl (same ▸ mem_ready_wake _ _)
    · next other =>
      rw [if_neg other]
      exact .inr ⟨p, hp, rfl, due⟩

theorem rouses_retire (r : Resolution) (s : Site) : Rouses s (s.retire r) :=
  ⟨fun _ hj => hj, fun q hq due => .inr ⟨q, (List.mem_filter.1 hq).1, rfl, due⟩⟩

theorem rouses_complete (r : Resolution) (outcome : Outcome) (s : Site) :
    Rouses s (s.complete r outcome) := by
  unfold Site.complete
  refine Rouses.trans ((rouses_releasePermit _).after ?_ ?_) (rouses_retire _ _)
  all_goals cases outcome <;> rfl

theorem rouses_discard (r : Resolution) (s : Site) : Rouses s (s.discard r) := by
  unfold Site.discard
  dsimp only
  rw [leaveQueues_eq]
  refine Rouses.trans (Rouses.trans ?_ (rouses_retire r _)) (rouses_log _ _)
  split
  · exact (rouses_releasePermit _).after rfl rfl
  · exact .of_eq (fun _ hj => hj) rfl

theorem rouses_setStage (n : Nat) {stage : Stage} (waits : stage.isDue = false) (s : Site) :
    Rouses s (s.setStage n stage) := by
  refine ⟨fun _ hj => hj, fun q hq due => ?_⟩
  obtain ⟨p, hp, rfl⟩ := List.mem_map.1 hq
  split at due
  · rw [waits] at due
    cases due
  · next other =>
    rw [if_neg other]
    exact .inr ⟨p, hp, rfl, due⟩

theorem rouses_conclude (r : Resolution) (p : Progress × Site) : Rouses p.2 (conclude r p) := by
  unfold conclude
  split
  · exact rouses_complete _ _ _
  · split
    · exact Rouses.refl _
    · split
      · exact rouses_discard _ _
      · exact Rouses.trans (rouses_setStage r.id rfl _) (.of_eq (fun _ hj => hj) rfl)

theorem rouses_runFeed (i : Nat) (f : Feed) (s : Site) : Rouses s (s.runFeed i f) := by
  unfold runFeed
  split
  · exact Rouses.refl s
  · split
    · exact .of_eq (fun _ hj => hj) rfl
    · dsimp only
      have read : ∀ t : Site, t.ready = s.ready → t.resolutions = s.resolutions →
          ∀ news : List Notification, Rouses s (news.foldl (fun s n => s.notify n) t) :=
        fun t ready resolutions news =>
          (Rouses.foldl (fun s n => rouses_notify n s) t news).after ready resolutions
      split
      · refine Rouses.trans (read _ ?_ ?_ _) (.of_eq (fun _ hj => hj) rfl)
        all_goals
          split
          · rfl
          · rfl
      · refine Rouses.trans (read _ ?_ ?_ _) (.of_eq (fun _ hj => hj) rfl)
        all_goals
          split
          · rfl
          · rfl

/-- Every resolution that can run is ready, but for those of one number. -/
def Punctual (but : Option Nat) (s : Site) : Prop :=
  ∀ q ∈ s.resolutions, q.stage.isDue = true → some q.id ≠ but → .resolution q.id ∈ s.ready

theorem Punctual.rouses {but : Option Nat} (h : Punctual but s) (rouses : Rouses s t) :
    Punctual but t := by
  intro q hq due other
  rcases rouses.due q hq due with ready | ⟨p, hp, hid, due⟩
  · exact ready
  · have := h p hp due (by rw [hid]; exact other)
    rw [hid] at this
    exact rouses.ready _ this

/-- After the turn of a resolution it cannot run by itself. -/
theorem punctual_runResolution (h : Punctual (some r.id) s) (numbered : s.Numbered)
    (there : r ∈ s.resolutions) : Punctual none (s.runResolution r) := by
  -- Once the resolution has left its stage, none is left out.
  have staged : ∀ {stage : Stage} (t : Site), stage.isDue = false → t.ready = s.ready →
      t.resolutions = s.resolutions → Punctual none (t.setStage r.id stage) := by
    intro stage t waits ready resolutions q hq due _
    obtain ⟨p, hp, rfl⟩ := List.mem_map.1 hq
    rw [resolutions] at hp
    split at due
    · rw [waits] at due
      cases due
    · next other =>
      rw [if_neg other]
      show _ ∈ t.ready
      rw [ready]
      exact h p hp due (by simpa using other)
  have begun : ∀ t : Site, t.ready = s.ready → t.resolutions = s.resolutions →
      Punctual none (t.begin r) := by
    intro t ready resolutions
    unfold Site.begin
    exact (staged t rfl ready resolutions).rouses
      ((rouses_resolve r.endpoint _).trans (rouses_conclude r _))
  unfold runResolution
  split
  · intro q hq due _
    have gone : q.id ≠ r.id := by
      obtain ⟨f, _, heq⟩ := discard_eq r s
      rw [heq] at hq
      exact bne_iff_ne.1 (List.mem_filter.1 hq).2
    exact (h.rouses (rouses_discard r s)) q hq due (by simpa using gone)
  · cases stage : r.stage with
    | fresh =>
      dsimp only
      split
      · exact begun _ rfl rfl
      · exact staged _ rfl rfl rfl
    | admitted => exact begun s rfl rfl
    | lookingUp c rest tally =>
      exact (staged _ rfl rfl rfl).rouses
        ((rouses_resumeThrough r.endpoint c rest tally _).trans (rouses_conclude r _))
    | queued | running =>
      intro q hq due _
      refine h q hq due fun same => ?_
      rw [numbered.eq_of_id hq there (Option.some.inj same), stage] at due
      cases due

theorem punctual_poll (h : Punctual none s) (numbered : s.Numbered) (j : Job) :
    Punctual none (s.poll j) := by
  unfold poll
  split
  · have released : ∀ t : Site, Punctual none t → Punctual none t.releaseLedger := by
      intro t h
      rw [releaseLedger_eq]
      exact h
    apply released
    cases j with
    | feed i =>
      have taken : Punctual none { s with ready := s.ready.erase (.feed i) } :=
        fun q hq due other => (List.mem_erase_of_ne (by simp)).2 (h q hq due other)
      dsimp only
      split
      · exact taken
      · split
        · exact taken
        · exact taken.rouses (rouses_runFeed _ _ _)
    | resolution n =>
      have taken : Punctual (some n) { s with ready := s.ready.erase (.resolution n) } :=
        fun q hq due other => (List.mem_erase_of_ne (by simpa using other)).2 (h q hq due (by simp))
      dsimp only
      split
      · next gone =>
        refine fun q hq due _ => taken q hq due fun same => ?_
        have := List.find?_eq_none.1 gone q hq
        simp [Option.some.inj same] at this
      · next r there =>
        obtain ⟨there, rfl⟩ := mem_of_resolution? there
        exact punctual_runResolution taken ⟨numbered.nodup, numbered.issued⟩ there
  · exact h

theorem Reachable.punctual (h : Reachable allowed s) : Punctual none s := by
  induction h with
  | build built =>
    rw [(build_eq built).1]
    intro q hq
    cases hq
  | perform _ _ _ ih => exact ih.rouses (rouses_perform _ _)
  | plan _ _ ih => exact ih
  | poll before ih =>
    have coherent := (before.invariant (I := fun _ => True) (fun _ => trivial)
      fun _ _ _ => trivial).1
    exact punctual_poll ih coherent.numbered _

end Site

end ServiceImport

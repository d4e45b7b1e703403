import ServiceImport.Proofs.Site.Permits
import ServiceImport.Proofs.Site.Prospects

/-! # Advances

What a resolution comes to in its turn when nobody aborts it and nobody interferes. It waits for a
permit, or it goes on with one until it ends or has to wait at a closed gate.
-/

namespace ServiceImport

namespace Site

variable {s t u v : Site} {r : Resolution} {limiter : Limiter} {total : Nat}

/-! ## Ends of resolutions -/

theorem of_mem_ready_wake {j k : Job} (h : j ∈ (s.wake k).ready) : j ∈ s.ready ∨ j = k := by
  unfold wake at h
  split at h
  · exact .inl h
  · exact (List.mem_append.1 h).imp_right List.mem_singleton.1

theorem length_ready_wake (j : Job) (s : Site) : (s.wake j).ready.length ≤ s.ready.length + 1 := by
  unfold wake
  split
  · exact Nat.le_succ _
  · rw [List.length_append, List.length_singleton]

/-- A permit that is given back is free, or goes to a queued resolution that becomes ready. -/
structure Hands (s t : Site) (f : Resolution → Resolution) : Prop where
  same : SameResolution f
  moved : ∀ q ∈ s.resolutions, f q = q ∨
    (q.stage = .queued ∧ f q = { q with stage := .admitted } ∧ .resolution q.id ∈ t.ready)
  ready : ∀ j ∈ s.ready, j ∈ t.ready
  jobs : ∀ j ∈ t.ready, j ∈ s.ready ∨ ∃ n, j = .resolution n
  load : t.ready.length + t.limiter.free ≤ s.ready.length + s.limiter.free + 1
  kept : t = { s with
    limiter := t.limiter
    resolutions := s.resolutions.map f
    ready := t.ready
    journal := t.journal }

theorem hands_releasePermit
    (queued : ∀ q ∈ s.resolutions, q.id ∈ s.limiter.waiting → q.stage = .queued) :
    ∃ f, Hands s s.releasePermit f := by
  unfold releasePermit Limiter.release
  cases hwaiting : s.limiter.waiting with
  | nil =>
    refine ⟨id, fun _ => ⟨rfl, rfl⟩, fun q _ => .inl rfl, fun _ hj => hj, fun j hj => .inl hj,
      Nat.le_refl _, ?_⟩
    rw [List.map_id]
  | cons n rest =>
    refine ⟨fun q => if q.id = n then { q with stage := .admitted } else q, fun q => ?_,
      fun q hq => ?_, fun j hj => ?_, fun j hj => ?_, ?_, ?_⟩
    · split
      · exact ⟨rfl, rfl⟩
      · exact ⟨rfl, rfl⟩
    · split
      · next same =>
        refine .inr ⟨queued q hq ?_, rfl, ?_⟩
        · rw [hwaiting, same]
          exact List.mem_cons_self
        · rw [same]
          exact mem_ready_wake _ _
      · exact .inl rfl
    · exact (rouses_wake _ _).ready j hj
    · exact (of_mem_ready_wake hj).imp_right fun same => ⟨n, same⟩
    · refine (Nat.add_le_add_right (length_ready_wake _ _) _).trans ?_
      dsimp only
      rw [wake_eq]
      exact Nat.le_of_eq (Nat.add_right_comm _ _ _)
    · dsimp only
      rw [wake_eq]
      rfl

theorem complete_cases (queued : ∀ q ∈ s.resolutions, q.id ∈ s.limiter.waiting → q.stage = .queued)
    (r : Resolution) (outcome : Outcome) :
    ∃ (u : Site) (f : Resolution → Resolution), Hands s u f ∧
      s.complete r outcome = { u with
        resolutions := u.resolutions.filter (·.id != r.id)
        finished := u.finished ++ [(r.endpoint.id, outcome)]
        pending := u.pending.leave r.endpoint.id } := by
  unfold Site.complete
  dsimp only
  generalize hended : log (.completed r.id r.endpoint outcome) _ = ended
  obtain ⟨journal, rfl⟩ : ∃ journal, ended =
      { s with finished := s.finished ++ [(r.endpoint.id, outcome)], journal } := by
    rw [← hended]
    cases outcome <;> exact ⟨_, rfl⟩
  obtain ⟨f, hands⟩ := hands_releasePermit
    (s := { s with finished := s.finished ++ [(r.endpoint.id, outcome)], journal }) queued
  have kept := hands.kept
  generalize releasePermit _ = released at hands kept ⊢
  refine ⟨{ s with
    limiter := released.limiter
    resolutions := s.resolutions.map f
    ready := released.ready
    journal := released.journal }, f,
    ⟨hands.same, hands.moved, hands.ready, hands.jobs, hands.load, rfl⟩, ?_⟩
  rw [kept]
  rfl

/-! ## Turns -/

/-- A resolution with a permit goes on until it comes to an end or has to wait. -/
structure Goes (r : Resolution) (t : Site) (limiter : Limiter) (progress : Progress) (v : Site) :
    Prop where
  there : r ∈ t.resolutions
  free : limiter.free ≤ t.limiter.free
  admits : ∀ {total}, Rationed total t →
    Rationed total (setStage r.id .running { t with limiter })
  concerns : Concerns r.endpoint (setStage r.id .running { t with limiter }) v
  result : progress.result t.steady r.endpoint (v.ledger.recordOf? r.endpoint.id) =
    r.stage.result t.steady r.endpoint (t.ledger.recordOf? r.endpoint.id)
  waits : ∀ c rest tally, progress = .waiting c rest tally → v.hasToWait r.endpoint c = true

/-- What the turn of a resolution comes to when nobody aborts it. -/
inductive Turn (r : Resolution) (t : Site) : Site → Prop
  | rest : r.stage = .queued ∨ r.stage = .running → Turn r t t
  | queue : r.stage = .fresh → t.limiter.free = 0 →
      Turn r t (setStage r.id .queued { t with limiter := (t.limiter.acquire r.id).2 })
  | complete {limiter : Limiter} {outcome : Outcome} {v w : Site} {f : Resolution → Resolution}
      (pending : Pending) : Goes r t limiter (.done outcome) v → Hands v w f →
      Turn r t { w with
        resolutions := w.resolutions.filter (·.id != r.id)
        finished := w.finished ++ [(r.endpoint.id, outcome)]
        pending }
  | await {limiter : Limiter} {c : Candidate} {rest : List Candidate} {tally : Tally} {v : Site} :
      Goes r t limiter (.waiting c rest tally) v → Turn r t (v.await r.id c rest tally)

namespace Goes

variable {progress : Progress}

theorem resolutions (h : Goes r t limiter progress v) : v.resolutions =
    t.resolutions.map fun q => if q.id = r.id then { q with stage := .running } else q := by
  rw [h.concerns.jobs]
  rfl

theorem ready (h : Goes r t limiter progress v) : v.ready = t.ready := by
  rw [h.concerns.jobs]
  rfl

theorem limiter_eq (h : Goes r t limiter progress v) : v.limiter = limiter := by
  rw [h.concerns.jobs]
  rfl

theorem gate (h : Goes r t limiter progress v) : v.gate = t.gate := h.concerns.gate

theorem of_mem (h : Goes r t limiter progress v) {q : Resolution} (hq : q ∈ v.resolutions) :
    (q.id = r.id ∨ q ∈ t.resolutions) ∧ ∃ p ∈ t.resolutions, q.aborted = p.aborted := by
  rw [h.resolutions] at hq
  obtain ⟨p, hp, rfl⟩ := List.mem_map.1 hq
  split
  · next same => exact ⟨.inl same, p, hp, rfl⟩
  · exact ⟨.inr hp, p, hp, rfl⟩

theorem now (h : Goes r t limiter progress v) :
    ({ r with stage := .running } : Resolution) ∈ v.resolutions := by
  rw [h.resolutions]
  exact List.mem_map.2 ⟨r, h.there, if_pos rfl⟩

theorem numbered (h : Goes r t limiter progress v) (numbered : t.Numbered) : v.Numbered := by
  refine numbered.of_sublist
    (f := fun q => if q.id = r.id then { q with stage := .running } else q) (fun q => ?_) ?_ ?_
  · dsimp only
    split
    · exact ⟨rfl, rfl⟩
    · exact ⟨rfl, rfl⟩
  · rw [h.resolutions]
  · rw [h.concerns.jobs]
    rfl

theorem rationed (h : Goes r t limiter progress v) (rationed : Rationed total t) :
    Rationed total v := by
  refine (h.admits rationed).of_eq ?_ ?_
  · rw [h.concerns.jobs]
  · rw [h.concerns.jobs]

theorem turn (h : Goes r t limiter progress v) (numbered : t.Numbered) (rationed : Rationed total t)
    (unaborted : ∀ q ∈ t.resolutions, q.aborted = false) : Turn r t (conclude r (progress, v)) := by
  cases progress with
  | done outcome =>
    have queued : ∀ q ∈ v.resolutions, q.id ∈ v.limiter.waiting → q.stage = .queued :=
      fun q hq => (h.rationed rationed).stage_of_waiting (h.numbered numbered) hq
    obtain ⟨w, f, hands, heq⟩ := complete_cases queued r outcome
    have ends : Turn r t (v.complete r outcome) := by
      rw [heq]
      exact .complete _ h hands
    exact ends
  | waiting c rest tally =>
    obtain ⟨now, hnow⟩ : ∃ now, v.resolution? r.id = some now :=
      Option.isSome_iff_exists.1 (List.find?_isSome.2 ⟨_, h.now, by simp⟩)
    obtain ⟨-, q, hq, same⟩ := h.of_mem (mem_of_resolution? hnow).1
    unfold conclude
    dsimp only
    rw [hnow]
    dsimp only
    rw [same, unaborted q hq, if_neg Bool.false_ne_true]
    exact .await h

end Goes

theorem turn_runResolution (calm : t.space.interruptions = []) (wf : t.ledger.WellFormed)
    (numbered : t.Numbered) (rationed : Rationed total t)
    (unaborted : ∀ q ∈ t.resolutions, q.aborted = false)
    (there : r ∈ t.resolutions) : Turn r t (t.runResolution r) := by
  unfold runResolution
  rw [unaborted r there, if_neg Bool.false_ne_true]
  cases stage : r.stage with
  | fresh =>
    dsimp only
    by_cases full : t.limiter.free = 0
    · have acquired : (t.limiter.acquire r.id).1 = false := by simp [Limiter.acquire, full]
      rw [acquired]
      exact .queue stage full
    · have acquired : (t.limiter.acquire r.id).1 = true := by simp [Limiter.acquire, full]
      have free : (t.limiter.acquire r.id).2.free ≤ t.limiter.free := by
        unfold Limiter.acquire
        rw [if_neg full]
        exact Nat.sub_le _ _
      rw [acquired]
      obtain ⟨concerns, result⟩ := resolve_result
        (s := setStage r.id .running { t with limiter := (t.limiter.acquire r.id).2 })
        (e := r.endpoint) calm wf rfl
      rw [← stage] at result
      have goes : Goes r t (t.limiter.acquire r.id).2 _ _ :=
        ⟨there, free, fun h => h.enter numbered there stage full, concerns, result,
          fun c rest tally waiting => hasToWait_resolve (Prod.ext waiting rfl)⟩
      exact goes.turn numbered rationed unaborted
  | admitted =>
    obtain ⟨concerns, result⟩ := resolve_result (s := t.setStage r.id .running)
      (e := r.endpoint) calm wf rfl
    have holds : r.stage.holdsPermit = true := by
      rw [stage]
      rfl
    refine Goes.turn ⟨there, Nat.le_refl _,
      fun h => h.resume numbered there holds, concerns, result.trans ?_,
      fun c rest tally waiting => hasToWait_resolve (Prod.ext waiting rfl)⟩ numbered rationed
      unaborted
    rw [stage]
    rfl
  | lookingUp c rest tally =>
    obtain ⟨concerns, result⟩ := resumeThrough_result (s := t.setStage r.id .running)
      (e := r.endpoint) calm wf rest tally rfl
    have holds : r.stage.holdsPermit = true := by
      rw [stage]
      rfl
    rw [← stage] at result
    have goes : Goes r t t.limiter _ _ :=
      ⟨there, Nat.le_refl _, fun h => h.resume numbered there holds, concerns, result,
        fun c rest tally waiting => hasToWait_resumeThrough (Prod.ext waiting rfl)⟩
    exact goes.turn numbered rationed unaborted
  | queued => exact .rest (.inl stage)
  | running => exact .rest (.inr stage)

/-! ## What turns leave -/

theorem Hands.steady {f : Resolution → Resolution} (h : Hands s t f) : t.steady = s.steady := by
  rw [h.kept]
  rfl

theorem Hands.gate {f : Resolution → Resolution} (h : Hands s t f) : t.gate = s.gate := by
  rw [h.kept]
  rfl

theorem steady_await (n : Nat) (c : Candidate) (rest : List Candidate) (tally : Tally) (s : Site) :
    (s.await n c rest tally).steady = s.steady := by
  have shelf : (s.await n c rest tally).shelf = s.shelf :=
    shelf_updateAdapter (s := s.setStage n (.lookingUp c rest tally)) fun a _ =>
      a.steady_addWaiting n
  unfold Site.steady
  rw [shelf]
  rfl

namespace Turn

theorem steady (turn : Turn r t u) : u.steady = t.steady := by
  cases turn with
  | rest _ => rfl
  | queue _ _ => rfl
  | complete pending goes hands => exact hands.steady.trans goes.concerns.steady
  | await goes => exact (steady_await _ _ _ _ _).trans goes.concerns.steady

theorem wellFormed (turn : Turn r t u) (wf : t.ledger.WellFormed) : u.ledger.WellFormed := by
  cases turn with
  | rest _ => exact wf
  | queue _ _ => exact wf
  | @complete _ _ v w _ pending goes hands =>
    have ledger : w.ledger = v.ledger := by rw [hands.kept]
    exact ledger ▸ goes.concerns.wellFormed
  | await goes => exact goes.concerns.wellFormed

theorem ready (turn : Turn r t u) : (∀ j ∈ t.ready, j ∈ u.ready) ∧
    ∀ j ∈ u.ready, j ∈ t.ready ∨ ∃ n, j = .resolution n := by
  cases turn with
  | rest _ => exact ⟨fun _ hj => hj, fun _ hj => .inl hj⟩
  | queue _ _ => exact ⟨fun _ hj => hj, fun _ hj => .inl hj⟩
  | @complete _ _ v w _ pending goes hands =>
    exact ⟨fun j hj => hands.ready j (goes.ready ▸ hj), fun j hj => goes.ready ▸ hands.jobs j hj⟩
  | @await _ c rest tally v goes =>
    have ready : (v.await r.id c rest tally).ready = t.ready := goes.ready
    exact ⟨fun j hj => ready ▸ hj, fun j hj => .inl (ready ▸ hj)⟩

theorem unaborted (turn : Turn r t u) (h : ∀ q ∈ t.resolutions, q.aborted = false) :
    ∀ q ∈ u.resolutions, q.aborted = false := by
  cases turn with
  | rest _ => exact h
  | queue _ _ =>
    refine List.forall_mem_map.2 fun q hq => ?_
    split
    · exact h q hq
    · exact h q hq
  | @complete _ _ v w f pending goes hands =>
    intro q hq
    have hq := List.mem_of_mem_filter hq
    rw [hands.kept] at hq
    obtain ⟨p, hp, rfl⟩ := List.mem_map.1 hq
    obtain ⟨-, o, ho, same⟩ := goes.of_mem hp
    rw [← h o ho, ← same]
    rcases hands.moved p hp with stays | ⟨_, goes, _⟩
    · rw [stays]
    · rw [goes]
  | await goes =>
    refine List.forall_mem_map.2 fun q hq => ?_
    obtain ⟨-, o, ho, same⟩ := goes.of_mem hq
    rw [← h o ho, ← same]
    split <;> rfl

end Turn

end Site

end ServiceImport

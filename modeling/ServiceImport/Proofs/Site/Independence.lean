import ServiceImport.Proofs.Site.Arrivals
import ServiceImport.Proofs.Site.ImportTable

/-! # Independence

Endpoints that have nothing in common but the site do not get in each other's way. What comes of
each is told by what the site offers before any of them arrives. In whatever order they arrive and
have their turns, and however many at a time, each comes to that.
-/

namespace ServiceImport

namespace Site

variable {s t u v : Site} {es ended : List Endpoint} {e : Endpoint} {r : Resolution}
  {busy : Option Nat} {limit total : Nat} {allowed : Command → Prop}

/-! ## Arrivals -/

/-- Endpoints that have ids and locations of their own, and that a site has not seen. -/
structure Unseen (s : Site) (es : List Endpoint) : Prop where
  ids : (es.map (·.id)).Nodup
  locations : (es.map (·.location)).Nodup
  standing : ∀ e ∈ es, s.standing e = .unseen

theorem standing_eq_unseen_iff : s.standing e = .unseen ↔
    s.ledger.contains e.id = false ∧ s.pending.contains e.id = false ∧
      s.locations.contains e.location = false := by
  unfold Site.standing
  cases s.ledger.contains e.id <;> cases s.pending.contains e.id <;>
    cases s.locations.contains e.location <;> simp

theorem Unseen.of_append (h : Unseen s (es ++ [e])) : Unseen s es where
  ids := (List.map_append ▸ h.ids).of_append_left
  locations := (List.map_append ▸ h.locations).of_append_left
  standing _ he := h.standing _ (List.mem_append_left _ he)

/-! ## What comes of each -/

/-- What comes of an endpoint that a site has not seen. -/
def forecast (s : Site) (e : Endpoint) : Outcome × Option Record :=
  Stage.fresh.result s.steady e none

end Site

/-- A resolution comes to what was foretold of its endpoint. -/
def Resolution.OnCourse (s : Site) (l : Ledger) (q : Resolution) : Prop :=
  q.stage.result s.steady q.endpoint (l.recordOf? q.endpoint.id) = s.forecast q.endpoint

namespace Site

variable {s t u v : Site} {es ended : List Endpoint} {e : Endpoint} {r : Resolution}
  {busy : Option Nat} {limit total : Nat} {allowed : Command → Prop}

/-- Endpoints have arrived at a site. Some are over and came to what was foretold, and the others
are in flight and will come to it, apart from the one whose turn it is. -/
structure Foretold (s : Site) (es ended : List Endpoint) (busy : Option Nat) (t : Site) : Prop where
  steady : t.steady = s.steady
  locations : t.locations.accepted = s.locations.accepted ++ es.map (·.location)
  others : (t.ledger.records.filter fun q => !(es.map (·.id)).contains q.key.endpointId) =
    s.ledger.records
  issues : Issues s t
  course : ∀ q ∈ t.resolutions, some q.id ≠ busy → q.OnCourse s t.ledger
  all : (t.resolutions.map (·.endpoint) ++ ended).Perm es
  finished : t.finished = s.finished ++ ended.map fun e => (e.id, (s.forecast e).1)
  entries : ∀ e ∈ ended, t.ledger.recordOf? e.id = (s.forecast e).2

theorem foretold_limitedTo (quiet : s.Quiescent) (limit : Nat) :
    Foretold s [] [] none (s.limitedTo limit) := by
  have resolutions : (s.limitedTo limit).resolutions = [] := quiet.resolutions
  constructor
  case steady => rfl
  case locations => exact (List.append_nil _).symm
  case others => exact List.filter_eq_self.2 fun _ _ => rfl
  case issues => exact .of_eq rfl rfl
  case course => simp [resolutions]
  case all => simp [resolutions]
  case finished => exact (List.append_nil _).symm
  case entries => simp

namespace Foretold

theorem of_map {busy' : Option Nat} (h : Foretold s es ended busy t) {f : Resolution → Resolution}
    (kept : u = { t with
      adapters := u.adapters
      limiter := u.limiter
      resolutions := t.resolutions.map f
      ready := u.ready
      journal := u.journal })
    (shelf : u.shelf = t.shelf) (same : ∀ q ∈ t.resolutions, (f q).endpoint = q.endpoint)
    (course : ∀ q ∈ t.resolutions, some (f q).id ≠ busy' → (f q).OnCourse s t.ledger) :
    Foretold s es ended busy' u := by
  have resolutions : u.resolutions = t.resolutions.map f := by rw [kept]
  have ledger : u.ledger = t.ledger := by rw [kept]
  have space : u.space = t.space := by rw [kept]
  have locations : u.locations = t.locations := by rw [kept]
  have finished : u.finished = t.finished := by rw [kept]
  constructor
  case steady =>
    rw [← h.steady]
    unfold Site.steady
    rw [shelf, kept]
  case locations => rw [locations, h.locations]
  case others => rw [ledger, h.others]
  case issues => exact h.issues.trans (.of_eq ledger (by rw [space]))
  case course =>
    rw [resolutions, ledger]
    exact List.forall_mem_map.2 course
  case all =>
    have endpoints : u.resolutions.map (·.endpoint) = t.resolutions.map (·.endpoint) := by
      rw [resolutions, List.map_map]
      exact List.map_congr_left same
    rw [endpoints]
    exact h.all
  case finished => rw [finished, h.finished]
  case entries =>
    rw [ledger]
    exact h.entries

/-! ## An endpoint arrives -/

theorem contains_location (h : Foretold s es ended busy t) (unseen : Unseen s (es ++ [e])) :
    t.locations.contains e.location = false := by
  obtain ⟨-, -, free⟩ :=
    standing_eq_unseen_iff.1 (unseen.standing e (List.mem_append_right _ List.mem_cons_self))
  have locations := unseen.locations
  rw [List.map_append, List.nodup_append] at locations
  refine eq_false_of_ne_true fun known => ?_
  rw [Locations.contains_iff, h.locations, List.mem_append] at known
  rcases known with known | known
  · rw [Locations.contains_iff.2 known] at free
    cases free
  · exact locations.2.2 _ known _ List.mem_cons_self rfl

theorem not_recorded (h : Foretold s es ended busy t) (unseen : Unseen s (es ++ [e])) :
    ∀ q ∈ t.ledger.records, q.key.endpointId ≠ e.id := by
  obtain ⟨unrecorded, -, -⟩ :=
    standing_eq_unseen_iff.1 (unseen.standing e (List.mem_append_right _ List.mem_cons_self))
  have ids := unseen.ids
  rw [List.map_append, List.nodup_append] at ids
  intro q hq same
  by_cases arrived : (es.map (·.id)).contains q.key.endpointId = true
  · exact ids.2.2 _ (List.contains_iff_mem.1 arrived) _ List.mem_cons_self same
  · have before : q ∈ s.ledger.records := by
      rw [← h.others]
      exact List.mem_filter.2 ⟨hq, by simpa using arrived⟩
    exact List.any_eq_false.1 unrecorded q before (by simpa using same)

theorem arrive (h : Foretold s es ended none t) (unseen : Unseen s (es ++ [e])) :
    Foretold s (es ++ [e]) ended none (t.available e) := by
  have absent := h.not_recorded unseen
  rw [available_of_not_contains (h.contains_location unseen)]
  constructor
  case steady => exact h.steady
  case locations =>
    dsimp only
    rw [h.locations, List.map_append, List.append_assoc]
    rfl
  case others =>
    rw [← h.others]
    refine List.filter_congr fun q hq => ?_
    have ne := absent q hq
    simp [ne]
  case issues => exact h.issues.trans (.of_eq rfl rfl)
  case course =>
    intro q hq free
    rcases List.mem_append.1 hq with hq | hq
    · exact h.course q hq free
    · rw [List.mem_singleton.1 hq]
      unfold Resolution.OnCourse
      dsimp only
      rw [Ledger.recordOf?_eq_none_iff.2 absent]
      rfl
  case all =>
    dsimp only
    rw [List.map_append, List.append_assoc]
    exact (List.perm_append_comm.append_left _).trans
      ((List.append_assoc _ _ _).symm ▸ h.all.append_right _)
  case finished => exact h.finished
  case entries => exact h.entries

/-! ## A resolution has its turn -/

theorem ne_of_mem (h : Foretold s es ended busy t) (ids : (es.map (·.id)).Nodup) {q : Resolution}
    (hq : q ∈ t.resolutions) (hr : r ∈ t.resolutions) (ne : q.id ≠ r.id) :
    q.endpoint.id ≠ r.endpoint.id := by
  intro same
  have nodup := ((h.all.map (·.id)).nodup_iff.2 ids)
  rw [List.map_append, List.map_map] at nodup
  exact ne (congrArg (·.id) (List.inj_on_of_nodup_map nodup.of_append_left hq hr same))

theorem ne_of_ended (h : Foretold s es ended busy t) (ids : (es.map (·.id)).Nodup)
    (he : e ∈ ended) (hr : r ∈ t.resolutions) : e.id ≠ r.endpoint.id := by
  have nodup := ((h.all.map (·.id)).nodup_iff.2 ids)
  rw [List.map_append, List.nodup_append] at nodup
  exact (nodup.2.2 _ (List.mem_map_of_mem (List.mem_map_of_mem hr)) _
    (List.mem_map_of_mem he)).symm

theorem concerns (h : Foretold s es ended (some r.id) t) (ids : (es.map (·.id)).Nodup)
    (there : r ∈ t.resolutions) (concerns : Concerns r.endpoint t u) :
    Foretold s es ended (some r.id) u := by
  have arrived : r.endpoint.id ∈ es.map (·.id) :=
    List.mem_map_of_mem (h.all.subset (List.mem_append_left _ (List.mem_map_of_mem there)))
  have resolutions : u.resolutions = t.resolutions := by rw [concerns.jobs]
  have locations : u.locations = t.locations := by rw [concerns.jobs]
  have finished : u.finished = t.finished := by rw [concerns.jobs]
  constructor
  case steady => rw [concerns.steady, h.steady]
  case locations => rw [locations, h.locations]
  case others =>
    -- Records of endpoints that have not arrived are no records of this one.
    have apart : ∀ l : Ledger,
        (l.records.filter fun q => !(es.map (·.id)).contains q.key.endpointId) =
          (l.records.filter (·.key.endpointId != r.endpoint.id)).filter
            fun q => !(es.map (·.id)).contains q.key.endpointId := by
      intro l
      rw [List.filter_filter]
      refine List.filter_congr fun q _ => ?_
      by_cases same : q.key.endpointId = r.endpoint.id
      · simp [same, arrived]
      · simp [same]
    rw [apart, concerns.others, ← apart, h.others]
  case issues => exact h.issues.trans concerns.issues
  case course =>
    rw [resolutions]
    intro q hq free
    have ne := h.ne_of_mem ids hq there fun same => free (congrArg some same)
    unfold Resolution.OnCourse
    rw [Ledger.recordOf?_of_others concerns.others ne]
    exact h.course q hq free
  case all =>
    rw [resolutions]
    exact h.all
  case finished => rw [finished, h.finished]
  case entries =>
    intro e he
    rw [Ledger.recordOf?_of_others concerns.others (h.ne_of_ended ids he there)]
    exact h.entries e he

theorem finish (h : Foretold s es ended (some r.id) t) (numbered : t.Numbered)
    (there : r ∈ t.resolutions) {outcome : Outcome}
    (result : (outcome, t.ledger.recordOf? r.endpoint.id) = s.forecast r.endpoint)
    (pending : Pending) :
    Foretold s es (ended ++ [r.endpoint]) none { t with
      resolutions := t.resolutions.filter (·.id != r.id)
      finished := t.finished ++ [(r.endpoint.id, outcome)]
      pending } := by
  constructor
  case steady => exact h.steady
  case locations => exact h.locations
  case others => exact h.others
  case issues => exact h.issues.trans (.of_eq rfl rfl)
  case course =>
    intro q hq _
    obtain ⟨hq, ne⟩ := List.mem_filter.1 hq
    exact h.course q hq fun same => bne_iff_ne.1 ne (Option.some.inj same)
  case all =>
    obtain ⟨before, after, split, others⟩ := numbered.exists_append there
    have left : t.resolutions.filter (·.id != r.id) = before ++ after := by
      rw [split, List.filter_append, List.filter_cons_of_neg (by simp), ← List.filter_append]
      exact List.filter_eq_self.2 fun q hq => bne_iff_ne.2 (others q hq)
    have all := h.all
    rw [split] at all
    dsimp only
    rw [left]
    refine List.Perm.trans ?_ all
    simp only [List.map_append, List.map_cons, List.append_assoc, List.cons_append]
    refine List.Perm.append_left _ ?_
    rw [← List.append_assoc]
    exact List.perm_append_singleton _ _
  case finished =>
    dsimp only
    rw [h.finished, List.map_append, List.append_assoc, List.map_singleton, ← result]
  case entries =>
    intro e he
    rcases List.mem_append.1 he with he | he
    · exact h.entries e he
    · rw [List.mem_singleton.1 he, ← result]

theorem toStage {busy' : Option Nat} (h : Foretold s es ended busy t)
    (free : ∀ n, n ≠ r.id → some n ≠ busy) (numbered : t.Numbered) (there : r ∈ t.resolutions)
    {stage : Stage}
    (kept : u = { t.setStage r.id stage with adapters := u.adapters, limiter := u.limiter })
    (shelf : u.shelf = t.shelf)
    (course : some r.id ≠ busy' → ({ r with stage } : Resolution).OnCourse s t.ledger) :
    Foretold s es ended busy' u := by
  have ready : u.ready = t.ready := by
    rw [kept]
    rfl
  have journal : u.journal = t.journal := by
    rw [kept]
    rfl
  refine h.of_map (f := fun q => if q.id = r.id then { q with stage } else q) ?_ shelf ?_ ?_
  · rw [ready, journal]
    exact kept
  · intro q _
    split <;> rfl
  · intro q hq
    split
    · next same =>
      obtain rfl := numbered.eq_of_id hq there same
      exact course
    · next other => exact fun _ => h.course q hq (free q.id other)

theorem hands (h : Foretold s es ended busy t) {f : Resolution → Resolution}
    (hands : Hands t u f) : Foretold s es ended busy u := by
  have adapters : u.adapters = t.adapters := by rw [hands.kept]
  have shelf : u.shelf = t.shelf := by
    rw [hands.kept]
    rfl
  refine h.of_map (f := f) (adapters ▸ hands.kept) shelf (fun q _ => (hands.same q).2)
    fun q hq free => ?_
  rw [(hands.same q).1] at free
  have course := h.course q hq free
  rcases hands.moved q hq with stays | ⟨stage, goes, -⟩
  · rw [stays]
    exact course
  · rw [goes]
    unfold Resolution.OnCourse at course
    rw [stage] at course
    exact course

/-- A resolution that goes on comes to what was foretold, or waits and will come to it. -/
theorem goes (h : Foretold s es ended none t) (ids : (es.map (·.id)).Nodup) (numbered : t.Numbered)
    {limiter : Limiter} {progress : Progress} (goes : Goes r t limiter progress v) :
    Foretold s es ended (some r.id) v ∧
      progress.result s.steady r.endpoint (v.ledger.recordOf? r.endpoint.id) =
        s.forecast r.endpoint := by
  have running : Foretold s es ended (some r.id) (setStage r.id .running { t with limiter }) :=
    h.toStage (fun _ _ => by simp) numbered goes.there rfl rfl fun free => absurd rfl free
  -- It goes by the number and endpoint it had, and now runs.
  have now : ({ r with stage := .running } : Resolution) ∈
      (setStage r.id .running { t with limiter }).resolutions :=
    List.mem_map.2 ⟨r, goes.there, if_pos rfl⟩
  refine ⟨running.concerns (r := { r with stage := .running }) ids now goes.concerns, ?_⟩
  rw [← h.steady, goes.result, h.steady]
  exact h.course r goes.there (by simp)

/-- Whatever a resolution does in its turn, what comes of each endpoint stays. -/
theorem turn (h : Foretold s es ended none t) (ids : (es.map (·.id)).Nodup) (numbered : t.Numbered)
    (there : r ∈ t.resolutions) (turn : Turn r t u) : ∃ ended, Foretold s es ended none u := by
  cases turn with
  | rest _ => exact ⟨ended, h⟩
  | queue stage _ =>
    refine ⟨ended, h.toStage (fun _ _ => by simp) numbered there rfl rfl fun _ => ?_⟩
    have course := h.course r there (by simp)
    unfold Resolution.OnCourse at course
    rw [stage] at course
    exact course
  | @complete limiter outcome v w f pending goes hands =>
    obtain ⟨reached, result⟩ := h.goes ids numbered goes
    have resolutions : w.resolutions = v.resolutions.map f := by rw [hands.kept]
    have ledger : w.ledger = v.ledger := by rw [hands.kept]
    have numbered : w.Numbered :=
      (goes.numbered numbered).of_sublist hands.same (by rw [resolutions]) (by rw [hands.kept])
    obtain ⟨now, still, id, endpoint⟩ :
        ∃ now ∈ w.resolutions, now.id = r.id ∧ now.endpoint = r.endpoint :=
      ⟨_, resolutions ▸ List.mem_map_of_mem goes.now, hands.same { r with stage := .running }⟩
    have handed : Foretold s es ended (some r.id) w := reached.hands hands
    rw [← endpoint, ← ledger] at result
    rw [← id] at handed ⊢
    rw [← endpoint]
    exact ⟨_, handed.finish numbered still result pending⟩
  | @await limiter c rest tally v goes =>
    obtain ⟨reached, result⟩ := h.goes ids numbered goes
    refine ⟨ended, reached.toStage (r := { r with stage := .running })
      (fun n ne same => ne (Option.some.inj same)) (goes.numbered numbered) goes.now rfl ?_
      fun _ => result⟩
    exact shelf_updateAdapter fun a _ => a.steady_addWaiting r.id

theorem poll (h : Foretold s es ended none t) (ids : (es.map (·.id)).Nodup)
    (undisturbed : Undisturbed total t) (j : Job) :
    ∃ ended, Foretold s es ended none (t.poll j) := by
  by_cases ready : j ∈ t.ready
  · obtain ⟨n, rfl⟩ := undisturbed.jobs j ready
    have taken : Foretold s es ended none { t with ready := t.ready.erase (.resolution n) } :=
      h.of_map (f := id) (by rw [List.map_id]) rfl (fun _ _ => rfl) h.course
    have numbered := undisturbed.coherent.numbered
    rcases undisturbed.poll_cases ready with ⟨-, heq⟩ | ⟨r, there, -, turned⟩
    · rw [heq]
      exact ⟨ended, taken⟩
    · exact taken.turn ids ⟨numbered.nodup, numbered.issued⟩ there turned
  · unfold Site.poll
    rw [if_neg ready]
    exact ⟨ended, h⟩

theorem setGate (h : Foretold s es ended none t) (key : String) (closed : Bool) :
    Foretold s es ended none (t.setGate key closed) := by
  have shelf : (t.setGate key closed).shelf = t.shelf := by
    have turned : (t.updateAdapter key (·.withGate closed)).shelf = t.shelf := by
      refine shelf_updateAdapter fun a _ => Adapter.steady_withScript (fun x => ?_) a
      rfl
    unfold Site.setGate
    dsimp only
    rw [wakeAll_eq]
    exact turned
  have kept := setGate_eq key closed t
  have limiter : (t.setGate key closed).limiter = t.limiter := by rw [kept]
  have journal : (t.setGate key closed).journal = t.journal := by rw [kept]
  refine h.of_map (f := id) ?_ shelf (fun _ _ => rfl) h.course
  rw [List.map_id, limiter, journal]
  exact kept

end Foretold

/-! ## Whole runs -/

/-- Whatever has arrived and had turns, what comes of each endpoint is what was foretold. -/
theorem Arriving.foretold (quiet : s.Quiescent) (start : Undisturbed total (s.limitedTo limit))
    (arriving : Arriving (s.limitedTo limit) es t) (unseen : Unseen s es) :
    ∃ ended, Foretold s es ended none t := by
  induction arriving with
  | start => exact ⟨[], foretold_limitedTo quiet limit⟩
  | arrive e _ ih =>
    obtain ⟨ended, h⟩ := ih unseen.of_append
    exact ⟨ended, h.arrive unseen⟩
  | poll j before ih =>
    obtain ⟨ended, h⟩ := ih unseen
    exact h.poll unseen.ids (before.undisturbed start) j
  | gate key closed _ ih =>
    obtain ⟨ended, h⟩ := ih unseen
    exact ⟨ended, h.setGate key closed⟩

theorem Foretold.perm_ended (h : Foretold s es ended busy t) (idle : t.resolutions = []) :
    ended.Perm es := by
  have all := h.all
  rw [idle] at all
  exact all

theorem Foretold.records (h : Foretold s es ended busy t) (wf : t.ledger.WellFormed)
    (ids : (es.map (·.id)).Nodup) (idle : t.resolutions = []) :
    ∃ new : List Record, t.ledger.records.Perm (s.ledger.records ++ new) ∧
      ((new.flatMap (·.handles)).map (·.id)).Nodup ∧
      (∀ a ∈ new.flatMap (·.handles), s.space.store.issued < a.id) ∧
      (new.map Record.unnumbered).Perm (es.filterMap fun e => (s.forecast e).2) := by
  obtain ⟨numbers, perm, nodup, since⟩ := h.issues.numbers
  -- The records of what has arrived are new, and so their handles are those given out since.
  let arrived (q : Record) : Bool := (es.map (·.id)).contains q.key.endpointId
  have records : t.ledger.records.Perm (s.ledger.records ++ t.ledger.records.filter arrived) := by
    rw [← h.others]
    exact (List.filter_append_perm arrived _).symm.trans List.perm_append_comm
  have new : (((t.ledger.records.filter arrived).flatMap (·.handles)).map (·.id)).Perm numbers := by
    have handles := ((records.flatMap_right (·.handles)).map (·.id)).symm.trans perm
    rw [List.flatMap_append, List.map_append] at handles
    exact (List.perm_append_left_iff _).1 (handles.trans List.perm_append_comm)
  refine ⟨t.ledger.records.filter arrived, records, new.nodup_iff.2 nodup, fun a ha => ?_, ?_⟩
  · exact (since _ (new.mem_iff.1 (List.mem_map_of_mem ha))).1
  · refine (Ledger.perm_recordsOf wf ids).trans ?_
    rw [List.filterMap_map]
    refine List.Perm.of_eq (List.filterMap_congr fun e he => ?_)
    exact h.entries e ((h.perm_ended idle).mem_iff.2 he)

/-- Unseen endpoints are imported alike in whatever order they arrive, under whatever limit, and in
whatever order their resolutions have turns. However far a run has come, it can go on until nothing
is in flight, and nothing is once no job is ready and no gate is closed. At the end there are the
same new records but for the numbers of their handles, the same locations are accepted, and each
endpoint has the same outcome. -/
theorem arrivals_independent (h : Reachable allowed s) (quiet : s.Quiescent)
    {es es' : List Endpoint} (unseen : Unseen s es) (perm : es.Perm es') (limit limit' : Nat) :
    (∀ t, Arriving (s.limitedTo limit) es t →
      (∃ u, Arriving t [] u ∧ u.resolutions = []) ∧
        (t.ready = [] → t.IsOpen → t.resolutions = [])) ∧
      ∀ t t', Arriving (s.limitedTo limit) es t → t.resolutions = [] →
        Arriving (s.limitedTo limit') es' t' → t'.resolutions = [] →
        s.ledger.GrewAlike s.space.store.issued t.ledger t'.ledger ∧
          t.locations.accepted.Perm t'.locations.accepted ∧
          ∃ outcome : Endpoint → Outcome,
            t.finished.Perm (s.finished ++ es.map fun e => (e.id, outcome e)) ∧
            t'.finished.Perm (s.finished ++ es.map fun e => (e.id, outcome e)) := by
  have start := h.undisturbed_limitedTo quiet limit
  have start' := h.undisturbed_limitedTo quiet limit'
  have positive : 0 < max limit 1 := Nat.lt_of_lt_of_le Nat.one_pos (Nat.le_max_right _ _)
  refine ⟨fun t run => ?_, fun t t' run idle run' idle' => ?_⟩
  · have undisturbed := run.undisturbed start
    exact ⟨undisturbed.completes positive, undisturbed.resolutions_eq_nil positive⟩
  have unseen' : Unseen s es' :=
    ⟨(perm.map _).nodup_iff.1 unseen.ids, (perm.map _).nodup_iff.1 unseen.locations,
      fun e he => unseen.standing e (perm.mem_iff.2 he)⟩
  -- Both runs come to what was foretold, and that depends on no limit and no order.
  obtain ⟨ended, foretold⟩ := run.foretold quiet start unseen
  obtain ⟨ended', foretold'⟩ := run'.foretold quiet start' unseen'
  refine ⟨?_, ?_, fun e => (s.forecast e).1, ?_, ?_⟩
  · obtain ⟨new, records, nodup, since, entries⟩ :=
      foretold.records (run.undisturbed start).wellFormed unseen.ids idle
    obtain ⟨new', records', nodup', since', entries'⟩ :=
      foretold'.records (run'.undisturbed start').wellFormed unseen'.ids idle'
    exact .of_unnumbered records records' nodup nodup' since since'
      (entries.trans ((perm.filterMap _).trans entries'.symm))
  · rw [foretold.locations, foretold'.locations]
    exact (perm.map _).append_left _
  · rw [foretold.finished]
    exact ((foretold.perm_ended idle).map _).append_left _
  · rw [foretold'.finished]
    exact (((foretold'.perm_ended idle').trans perm.symm).map _).append_left _

/-- With one permit, the lamp arrives and has its turn, and then the door. -/
def lampBeforeDoor : Site :=
  ((((litSite.limitedTo 1).perform (.available lampEndpoint)).poll (.resolution 0)).perform
    (.available doorEndpoint)).poll (.resolution 1)

/-- With one permit, both arrive, and neither had its turn yet. -/
def bothInFlight : Site :=
  ((litSite.limitedTo 1).perform (.available lampEndpoint)).perform (.available doorEndpoint)

/-- With permits for both, the door arrives before the lamp, and so are their turns. -/
def doorBeforeLamp : Site :=
  ((((litSite.limitedTo 8).perform (.available doorEndpoint)).perform
    (.available lampEndpoint)).poll (.resolution 0)).poll (.resolution 1)

theorem arrivals_independent_lamp_door :
    (lampBeforeDoor.ledger.records.map fun q => (q.key.endpointId, q.handles.map (·.id))) =
        [("lamp", [1]), ("door", [2])] ∧
      (doorBeforeLamp.ledger.records.map fun q => (q.key.endpointId, q.handles.map (·.id))) =
        [("door", [1]), ("lamp", [2])] ∧
      bothInFlight.resolutions.map (·.id) = [0, 1] ∧
      ((∃ u, Arriving bothInFlight [] u ∧ u.resolutions = []) ∧
        (bothInFlight.ready = [] → bothInFlight.IsOpen → bothInFlight.resolutions = [])) ∧
      litSite.ledger.GrewAlike litSite.space.store.issued lampBeforeDoor.ledger
        doorBeforeLamp.ledger ∧
      lampBeforeDoor.locations.accepted.Perm doorBeforeLamp.locations.accepted ∧
      ∃ outcome : Endpoint → Outcome,
        lampBeforeDoor.finished.Perm
          (litSite.finished ++ [lampEndpoint, doorEndpoint].map fun e => (e.id, outcome e)) ∧
        doorBeforeLamp.finished.Perm
          (litSite.finished ++ [lampEndpoint, doorEndpoint].map fun e => (e.id, outcome e)) := by
  have reachable : Reachable (fun _ => True) litSite := reachable_litSite trivial
  have unseen : Unseen litSite [lampEndpoint, doorEndpoint] := by
    refine ⟨by decide, by decide, fun e he => ?_⟩
    rcases List.mem_pair.1 he with rfl | rfl
    · rfl
    · rfl
  have arrived : Arriving (litSite.limitedTo 1) [lampEndpoint, doorEndpoint] bothInFlight :=
    .arrive doorEndpoint (.arrive lampEndpoint .start)
  have lampFirst : Arriving (litSite.limitedTo 1) [lampEndpoint, doorEndpoint] lampBeforeDoor :=
    .poll _ (.arrive doorEndpoint (.poll _ (.arrive lampEndpoint .start)))
  have doorFirst : Arriving (litSite.limitedTo 8) [doorEndpoint, lampEndpoint] doorBeforeLamp :=
    .poll _ (.poll _ (.arrive lampEndpoint (.arrive doorEndpoint .start)))
  obtain ⟨completes, alike⟩ :=
    arrivals_independent reachable ⟨rfl, rfl, rfl, rfl⟩ unseen (.swap _ _ _) 1 8
  exact ⟨rfl, rfl, rfl, completes _ arrived, alike _ _ lampFirst rfl doorFirst rfl⟩

end Site

end ServiceImport

import ServiceImport.Proofs.Counters
import ServiceImport.Proofs.Site.Dealings

/-! # Resolutions are accounted for

Every resolution that was started is in flight, has completed or was aborted, and is so once. The
counters tell how many are in flight, and what is handed out are the outcomes of those that
completed, in the order in which they did.
-/

namespace ServiceImport

/-! ## The journal -/

namespace Event

/-- The number and the endpoint of a resolution that starts. -/
def starting? : Event → Option (Nat × Endpoint)
  | started n e => some (n, e)
  | _ => none

/-- The number and the endpoint of a resolution that completes, and its outcome. -/
def completion? : Event → Option ((Nat × Endpoint) × Outcome)
  | completed n e outcome => some ((n, e), outcome)
  | _ => none

def abortion? : Event → Option (Nat × Endpoint)
  | aborted n e => some (n, e)
  | _ => none

def collection? : Event → Option (List (String × Outcome))
  | collected outcomes => some outcomes
  | _ => none

variable {event : Event}

theorem starting?_eq_none (h : event.isCourse = false) : event.starting? = none := by
  cases event <;> first | rfl | cases h

theorem completion?_eq_none (h : event.isCourse = false) : event.completion? = none := by
  cases event <;> first | rfl | cases h

theorem abortion?_eq_none (h : event.isCourse = false) : event.abortion? = none := by
  cases event <;> first | rfl | cases h

theorem collection?_eq_none (h : event.isCourse = false) : event.collection? = none := by
  cases event <;> first | rfl | cases h

end Event

namespace Site

def startings (s : Site) : List (Nat × Endpoint) := s.journal.filterMap Event.starting?

def completions (s : Site) : List ((Nat × Endpoint) × Outcome) :=
  s.journal.filterMap Event.completion?

def abortions (s : Site) : List (Nat × Endpoint) := s.journal.filterMap Event.abortion?

def collections (s : Site) : List (List (String × Outcome)) :=
  s.journal.filterMap Event.collection?

def flying (s : Site) : List (Nat × Endpoint) := s.resolutions.map fun r => (r.id, r.endpoint)

/-- The account of all resolutions. -/
structure Accounted (s : Site) : Prop where
  numbered : s.startings.map (·.1) = List.range s.started
  /-- Whatever was started is in flight, completed or aborted. -/
  account : s.startings.Perm (s.flying ++ s.completions.map (·.1) ++ s.abortions)
  counted : s.pending.Counts (s.flying.map (·.2.id))
  /-- What was handed out and what is still to be handed out. -/
  outcomes : s.collections.flatten ++ s.finished =
    s.completions.map fun c => (c.1.2.id, c.2)

variable {s t u : Site} {allowed : Command → Prop}

/-! ## Steps -/

def Unmarked (s : Site) : Prop := ∀ r ∈ s.resolutions, r.aborted = false

/-- Nothing happens to resolutions that the account is about, and none is aborted. -/
structure Quiet (s t : Site) : Prop where
  flying : t.flying = s.flying
  pending : t.pending = s.pending
  started : t.started = s.started
  finished : t.finished = s.finished
  journal : ∃ events, t.journal = s.journal ++ events ∧ ∀ event ∈ events, event.isCourse = false
  marks : s.Unmarked → t.Unmarked

theorem Quiet.trans (hst : Quiet s t) (htu : Quiet t u) : Quiet s u where
  flying := htu.flying.trans hst.flying
  pending := htu.pending.trans hst.pending
  started := htu.started.trans hst.started
  finished := htu.finished.trans hst.finished
  journal := told_trans hst.journal htu.journal
  marks unmarked := htu.marks (hst.marks unmarked)

theorem Quiet.of_eq (resolutions : t.resolutions = s.resolutions) (pending : t.pending = s.pending)
    (started : t.started = s.started) (finished : t.finished = s.finished)
    (journal : t.journal = s.journal) : Quiet s t :=
  ⟨congrArg (List.map _) resolutions, pending, started, finished,
    ⟨[], journal.trans (List.append_nil _).symm, by simp⟩, fun unmarked r hr =>
      unmarked r (resolutions ▸ hr)⟩

theorem quiet_log (s : Site) {e : Event} (h : e.isCourse = false) : Quiet s (s.log e) :=
  ⟨rfl, rfl, rfl, rfl, ⟨[e], rfl, by simpa using h⟩, id⟩

theorem LeavesJobs.quiet (h : LeavesJobs s t)
    (journal : ∃ events, t.journal = s.journal ++ events ∧
      ∀ event ∈ events, event.isCourse = false) :
    Quiet s t := by
  have resolutions : t.resolutions = s.resolutions := by rw [h]
  refine ⟨congrArg (List.map _) resolutions, ?_, ?_, ?_, journal, fun unmarked r hr =>
    unmarked r (resolutions ▸ hr)⟩
  all_goals rw [h]

theorem Deals.quiet {hand hand' : Hand} (deals : Deals ⟨s, hand⟩ ⟨t, hand'⟩) : Quiet s t :=
  LeavesJobs.quiet (s := s) (t := t) deals.leavesJobs deals.journal

/-- What a step does to resolutions. -/
inductive Episode (allowed : Command → Prop) (s t : Site) : Prop
  | quiet : Quiet s t → Episode allowed s t
  | start (e : Endpoint) : s.locations.contains e.location = false → t = s.available e →
      Episode allowed s t
  | complete (r : Resolution) (outcome : Outcome) : (r.id, r.endpoint) ∈ s.flying →
      t = s.complete r outcome → Episode allowed s t
  | abort (r : Resolution) : r ∈ s.resolutions → r.aborted = true → t = s.discard r →
      Episode allowed s t
  | shutdown : allowed .shutdown → t = s.shutdown → Episode allowed s t
  | collect : t = s.collect.2 → Episode allowed s t

theorem flying_map {f : Resolution → Resolution} (same : SameResolution f)
    (h : t.resolutions = s.resolutions.map f) : t.flying = s.flying := by
  unfold flying
  rw [h, List.map_map]
  apply List.map_congr_left
  intro r _
  exact Prod.ext (same r).1 (same r).2

theorem flying_shutdown (s : Site) : s.shutdown.flying = s.flying := by
  have marked (resolutions : List Resolution) (s : Site) :
      (resolutions.foldl abortResolution s).flying = s.flying := by
    induction resolutions generalizing s with
    | nil => rfl
    | cons r resolutions ih =>
      rw [List.foldl_cons, ih]
      refine flying_map (f := fun q => if q.id = r.id then { q with aborted := true } else q) ?_
        (congrArg Site.resolutions (abortResolution_eq r s))
      intro q
      dsimp only
      split
      · exact ⟨rfl, rfl⟩
      · exact ⟨rfl, rfl⟩
  have := marked s.resolutions s
  rw [shutdown_eq]
  exact this

theorem quiet_setStage (n : Nat) (stage : Stage) (s : Site) : Quiet s (s.setStage n stage) := by
  refine ⟨?_, rfl, rfl, rfl, ⟨[], (List.append_nil _).symm, by simp⟩, ?_⟩
  · refine flying_map (f := fun q => if q.id = n then { q with stage } else q) ?_ rfl
    intro q
    dsimp only
    split
    · exact ⟨rfl, rfl⟩
    · exact ⟨rfl, rfl⟩
  · intro unmarked q hq
    obtain ⟨p, hp, rfl⟩ := List.mem_map.1 hq
    split
    · exact unmarked p hp
    · exact unmarked p hp

theorem Unmarked.releasePermit (h : s.Unmarked) : s.releasePermit.Unmarked := by
  unfold Site.releasePermit
  dsimp only
  split
  · exact h
  · next n _ =>
    intro q hq
    rw [wake_eq] at hq
    exact (quiet_setStage n .admitted _).marks h q hq

theorem Unmarked.complete (h : s.Unmarked) (r : Resolution) (outcome : Outcome) :
    (s.complete r outcome).Unmarked := by
  intro q hq
  refine Unmarked.releasePermit ?_ q (List.mem_of_mem_filter hq)
  cases outcome <;> exact h

theorem episode_available (e : Endpoint) (s : Site) : Episode allowed s (s.available e) := by
  cases h : s.locations.contains e.location with
  | true =>
    rw [available_of_contains h]
    exact .quiet (quiet_log s rfl)
  | false => exact .start e h rfl

theorem Performed.episode {c : Command} (done : Performed s c t)
    (ok : c = .shutdown → allowed .shutdown) : Episode allowed s t := by
  cases done with
  | surround h =>
    apply Episode.quiet
    apply Quiet.of_eq
    all_goals rw [h]
  | place locations _ => exact .quiet (Quiet.of_eq rfl rfl rfl rfl rfl)
  | report r => exact .quiet (quiet_log s rfl)
  | available e _ => exact episode_available e s
  | unavailable e _ => exact .quiet (@losses_unavailable {} e s).deals.quiet
  | shutdown => exact .shutdown (ok rfl) rfl
  | collect => exact .collect rfl
  | dropImporter keepLedger =>
    refine .quiet (Quiet.trans ?_ (@losses_releaseLedger {} _).deals.quiet)
    exact Quiet.of_eq rfl rfl rfl rfl rfl
  | attach =>
    obtain ⟨added, heq⟩ := attach_eq s
    apply Episode.quiet
    apply Quiet.of_eq
    all_goals rw [heq]
  | abortFeed i =>
    apply Episode.quiet
    apply Quiet.of_eq
    all_goals rw [abortFeed_eq]
  | withdrawService key reference =>
    apply Episode.quiet
    unfold Site.withdrawService
    split
    · split
      · exact Quiet.of_eq rfl rfl rfl rfl rfl
      · refine Quiet.trans (t := s.withdrawn key reference) ?_
          (@losses_deliver {} _ _ _).deals.quiet
        exact ⟨rfl, rfl, rfl, rfl, ⟨[.withdrew key reference], rfl, by simp [Event.isCourse]⟩, id⟩
    · exact Quiet.of_eq rfl rfl rfl rfl rfl
  | emit key reference host =>
    apply Episode.quiet
    unfold Site.emit
    split
    · exact Quiet.of_eq rfl rfl rfl rfl rfl
    · exact (@losses_deliver {} _ _ _).deals.quiet
  | @bypass c h =>
    have journal := journal_meddle (isMeddling_of_bypasses h) s
    exact .quiet ((leavesJobs_bypass h s).quiet ⟨[], by rw [journal, List.append_nil], by simp⟩)

theorem Change.episode {m n : Moment} (change : Change allowed m n) (h : Coherent allowed m) :
    Episode allowed m.site n.site := by
  cases change with
  | @perform s p c ok _ => exact (performed s c).episode (by rintro rfl; exact ok)
  | report report => exact .quiet (quiet_log _ rfl)
  | plan _ => exact .quiet (Quiet.of_eq rfl rfl rfl rfl rfl)
  | take _ => exact .quiet (Quiet.of_eq rfl rfl rfl rfl rfl)
  | release => exact .quiet (@losses_releaseLedger {} _).deals.quiet
  | discard there aborted => exact .abort _ (mem_of_resolution? there).1 aborted rfl
  | queue _ _ _ | enter _ _ _ =>
    refine .quiet (Quiet.trans ?_ (quiet_setStage _ _ _))
    exact Quiet.of_eq rfl rfl rfl rfl rfl
  | resume _ _ => exact .quiet (quiet_setStage _ _ _)
  | countLookups c => exact .quiet (Quiet.of_eq rfl rfl rfl rfl rfl)
  | @await s r now c rest tally _ _ _ =>
    refine .quiet (Quiet.trans (quiet_setStage r.id (.lookingUp c rest tally) s) ?_)
    exact Quiet.of_eq rfl rfl rfl rfl rfl
  | drop there aborted => exact .abort _ (mem_of_resolution? there).1 aborted rfl
  | @complete s r outcome =>
    obtain ⟨now, hnow, hid, hendpoint, _⟩ := h.turn r rfl
    exact .complete r outcome (List.mem_map.2 ⟨now, hnow, Prod.ext hid hendpoint⟩) rfl
  | subscribe c _ => exact .quiet (@Deal.subscribe _ [] c).deals.quiet
  | prepare _ _ => exact .quiet ((quiet_log _ rfl).trans (Quiet.of_eq rfl rfl rfl rfl rfl))
  | refuse _ => exact .quiet (quiet_log _ rfl)
  | fault _ _ => exact .quiet (Quiet.of_eq rfl rfl rfl rfl rfl)
  | register _ ok => exact .quiet (deals_recordRegistered ok _ _ _ _).quiet
  | unsubscribe => exact .quiet (@Deal.cancel _ [] _).deals.quiet
  | read _ _ _ _ => exact .quiet (Quiet.of_eq rfl rfl rfl rfl rfl)
  | notify news => exact (performed_notify news _).episode (by simp)
  | rest => exact .quiet (Quiet.of_eq rfl rfl rfl rfl rfl)
  | finish f => exact .quiet (Quiet.of_eq rfl rfl rfl rfl rfl)
  | abandon _ _ _ => exact .quiet (Quiet.of_eq rfl rfl rfl rfl rfl)

/-! ## The account is kept -/

/-- An entry, and others before it that tell nothing of resolutions. -/
structure Told (event : Event) (s t : Site) : Prop where
  startings : t.startings = s.startings ++ event.starting?.toList
  completions : t.completions = s.completions ++ event.completion?.toList
  abortions : t.abortions = s.abortions ++ event.abortion?.toList
  collections : t.collections = s.collections ++ event.collection?.toList

theorem told {events : List Event} {event : Event}
    (journal : t.journal = s.journal ++ (events ++ [event]))
    (course : ∀ event ∈ events, event.isCourse = false) : Told event s t := by
  have read {α : Type} {f : Event → Option α}
      (silent : ∀ {event : Event}, event.isCourse = false → f event = none) :
      t.journal.filterMap f = s.journal.filterMap f ++ (f event).toList := by
    have none : events.filterMap f = [] :=
      List.filterMap_eq_nil_iff.2 fun e he => silent (course e he)
    rw [journal, List.filterMap_append, List.filterMap_append, none, List.nil_append]
    cases h : f event <;> simp [h]
  exact ⟨read Event.starting?_eq_none, read Event.completion?_eq_none, read Event.abortion?_eq_none,
    read Event.collection?_eq_none⟩

theorem Quiet.filterMap (quiet : Quiet s t) {α : Type} {f : Event → Option α}
    (silent : ∀ {event : Event}, event.isCourse = false → f event = none) :
    t.journal.filterMap f = s.journal.filterMap f := by
  obtain ⟨events, journal, course⟩ := quiet.journal
  have none : events.filterMap f = [] :=
    List.filterMap_eq_nil_iff.2 fun e he => silent (course e he)
  rw [journal, List.filterMap_append, none, List.append_nil]

theorem Accounted.of_eq (a : s.Accounted) (flying : t.flying = s.flying)
    (pending : t.pending = s.pending) (started : t.started = s.started)
    (finished : t.finished = s.finished)
    (read : ∀ {α : Type} {f : Event → Option α},
      (∀ {event : Event}, event.isCourse = false → f event = none) →
        t.journal.filterMap f = s.journal.filterMap f) : t.Accounted := by
  have startings : t.startings = s.startings := read Event.starting?_eq_none
  have completions : t.completions = s.completions := read Event.completion?_eq_none
  have abortions : t.abortions = s.abortions := read Event.abortion?_eq_none
  have collections : t.collections = s.collections := read Event.collection?_eq_none
  constructor
  · rw [startings, started]
    exact a.numbered
  · rw [startings, flying, completions, abortions]
    exact a.account
  · rw [pending, flying]
    exact a.counted
  · rw [collections, finished, completions]
    exact a.outcomes

theorem Quiet.accounted (quiet : Quiet s t) (a : s.Accounted) : t.Accounted :=
  a.of_eq quiet.flying quiet.pending quiet.started quiet.finished quiet.filterMap

theorem Accounted.shutdown (a : s.Accounted) : s.shutdown.Accounted := by
  have journal : s.shutdown.journal = s.journal := by rw [shutdown_eq]
  refine a.of_eq (flying_shutdown s) ?_ ?_ ?_ fun _ => congrArg (List.filterMap _) journal
  all_goals rw [shutdown_eq]

theorem told_available {e : Endpoint} (h : s.locations.contains e.location = false) :
    Told (.started s.started e) s (s.available e) := by
  have journal : ∃ events,
      (s.available e).journal = s.journal ++ (events ++ [.started s.started e]) ∧
      ∀ event ∈ events, event.isCourse = false := by
    rw [available_of_not_contains h]
    refine ⟨_, rfl, ?_⟩
    split
    · simp [Event.isCourse]
    · simp [Event.isCourse]
  obtain ⟨events, journal, course⟩ := journal
  exact told journal course

theorem told_complete (r : Resolution) (outcome : Outcome) (s : Site) :
    Told (.completed r.id r.endpoint outcome) s (s.complete r outcome) := by
  obtain ⟨f, report, _, heq⟩ := complete_eq r outcome s
  have journal : (s.complete r outcome).journal = s.journal ++
      ([.reported report] ++ [.completed r.id r.endpoint outcome]) := by rw [heq]; rfl
  exact told journal (by simp [Event.isCourse])

theorem told_discard (r : Resolution) (s : Site) :
    Told (.aborted r.id r.endpoint) s (s.discard r) := by
  obtain ⟨f, _, heq⟩ := discard_eq r s
  have journal : (s.discard r).journal = s.journal ++ ([] ++ [.aborted r.id r.endpoint]) := by
    rw [heq]
    rfl
  exact told journal (by simp)

theorem told_collect (s : Site) : Told (.collected s.finished) s s.collect.2 :=
  @told s _ [] _ rfl (by simp)

theorem Accounted.start (a : s.Accounted) {e : Endpoint}
    (h : s.locations.contains e.location = false) : (s.available e).Accounted := by
  obtain ⟨startings, completions, abortions, collections⟩ := told_available h
  have flying : (s.available e).flying = s.flying ++ [(s.started, e)] := by
    rw [available_of_not_contains h]
    unfold Site.flying
    rw [List.map_append]
    rfl
  simp only [Event.starting?, Event.completion?, Event.abortion?, Event.collection?,
    Option.toList_some, Option.toList_none, List.append_nil]
    at startings completions abortions collections
  constructor
  · rw [startings, List.map_append, a.numbered, available_of_not_contains h]
    exact List.range_succ.symm
  · rw [startings, flying, completions, abortions]
    refine (a.account.append_right _).trans ?_
    simp only [List.append_assoc]
    refine List.Perm.append_left _ ?_
    rw [← List.append_assoc]
    exact List.perm_append_comm
  · rw [flying, available_of_not_contains h, List.map_append]
    exact (a.counted.enter e.id).of_perm (List.perm_append_singleton _ _)
  · rw [collections, completions, available_of_not_contains h]
    exact a.outcomes

theorem perm_filter_key {l : List (Nat × Endpoint)} (nodup : (l.map (·.1)).Nodup) {n : Nat}
    {e : Endpoint} (h : (n, e) ∈ l) : l.Perm ((n, e) :: l.filter (·.1 != n)) := by
  induction l with
  | nil => simp at h
  | cons x l ih =>
    rw [List.map_cons, List.nodup_cons] at nodup
    rcases List.mem_cons.1 h with rfl | h
    · rw [List.filter_cons_of_neg (by simp), List.filter_eq_self.2]
      intro y hy
      rw [bne_iff_ne]
      intro hid
      exact nodup.1 (List.mem_map.2 ⟨y, hy, hid⟩)
    · have hne : x.1 ≠ n := by
        rintro rfl
        exact nodup.1 (List.mem_map_of_mem (f := (·.1)) h)
      rw [List.filter_cons_of_pos (by simpa using hne)]
      exact ((ih nodup.2 h).cons x).trans (List.Perm.swap _ _ _)

theorem Accounted.nodup (a : s.Accounted) : (s.flying.map (·.1)).Nodup := by
  have nodup : (s.startings.map (·.1)).Nodup := a.numbered ▸ List.nodup_range
  have sub : s.flying.Sublist (s.flying ++ s.completions.map (·.1) ++ s.abortions) := by
    rw [List.append_assoc]
    exact List.sublist_append_left _ _
  exact ((a.account.map _).nodup_iff.1 nodup).sublist (sub.map _)

theorem Accounted.retire (a : s.Accounted) {r : Resolution} (there : (r.id, r.endpoint) ∈ s.flying)
    {f : Resolution → Resolution} (same : SameResolution f)
    (resolutions : t.resolutions = (s.resolutions.map f).filter (·.id != r.id))
    (pending : t.pending = s.pending.leave r.endpoint.id) :
    s.flying.Perm ((r.id, r.endpoint) :: t.flying) ∧ t.pending.Counts (t.flying.map (·.2.id)) := by
  have flying : t.flying = s.flying.filter (·.1 != r.id) := by
    rw [← flying_map (t := { s with resolutions := s.resolutions.map f }) same rfl]
    unfold Site.flying
    rw [resolutions]
    conv_rhs => rw [List.filter_map]
    rfl
  have perm : s.flying.Perm ((r.id, r.endpoint) :: t.flying) := by
    rw [flying]
    exact perm_filter_key a.nodup there
  refine ⟨perm, ?_⟩
  have left := (a.counted.of_perm (perm.map (·.2.id)).symm).leave r.endpoint.id
  rw [pending]
  simpa using left

theorem Accounted.complete (a : s.Accounted) {r : Resolution}
    (there : (r.id, r.endpoint) ∈ s.flying) (outcome : Outcome) :
    (s.complete r outcome).Accounted := by
  obtain ⟨f, report, same, heq⟩ := complete_eq r outcome s
  obtain ⟨startings, completions, abortions, collections⟩ := told_complete r outcome s
  obtain ⟨perm, counted⟩ : _ ∧ (s.complete r outcome).pending.Counts _ :=
    a.retire there same (by rw [heq]) (by rw [heq])
  simp only [Event.starting?, Event.completion?, Event.abortion?, Event.collection?,
    Option.toList_some, Option.toList_none, List.append_nil]
    at startings completions abortions collections
  constructor
  · rw [startings, a.numbered, heq]
  · -- The resolution goes over from those in flight to the end of the completed.
    rw [startings, completions, abortions, List.map_append, ← List.append_assoc]
    refine a.account.trans (List.Perm.append_right _ ?_)
    exact (perm.append_right _).trans (List.perm_append_singleton _ _).symm
  · exact counted
  · rw [collections, completions, List.map_append, ← a.outcomes, heq, List.append_assoc]
    rfl

theorem Accounted.abort (a : s.Accounted) {r : Resolution}
    (there : (r.id, r.endpoint) ∈ s.flying) : (s.discard r).Accounted := by
  obtain ⟨f, same, heq⟩ := discard_eq r s
  obtain ⟨startings, completions, abortions, collections⟩ := told_discard r s
  obtain ⟨perm, counted⟩ : _ ∧ (s.discard r).pending.Counts _ :=
    a.retire there same (by rw [heq]) (by rw [heq])
  simp only [Event.starting?, Event.completion?, Event.abortion?, Event.collection?,
    Option.toList_some, Option.toList_none, List.append_nil]
    at startings completions abortions collections
  constructor
  · rw [startings, a.numbered, heq]
  · rw [startings, completions, abortions, ← List.append_assoc]
    refine a.account.trans (((perm.append_right _).append_right _).trans ?_)
    exact (List.perm_append_singleton _ _).symm
  · exact counted
  · rw [collections, completions, ← a.outcomes, heq]

theorem Accounted.collect (a : s.Accounted) : s.collect.2.Accounted := by
  obtain ⟨startings, completions, abortions, collections⟩ := told_collect s
  simp only [Event.starting?, Event.completion?, Event.abortion?, Event.collection?,
    Option.toList_some, Option.toList_none, List.append_nil]
    at startings completions abortions collections
  constructor
  · rw [startings, a.numbered]
    rfl
  · rw [startings, completions, abortions]
    exact a.account
  · exact a.counted
  · rw [collections, completions, ← a.outcomes, List.flatten_append]
    simp [Site.collect, log]

theorem Episode.accounted (episode : Episode allowed s t) (a : s.Accounted) : t.Accounted := by
  cases episode with
  | quiet quiet => exact quiet.accounted a
  | start e h result => exact result ▸ a.start h
  | complete r outcome there result => exact result ▸ a.complete there outcome
  | abort r there _ result => exact result ▸ a.abort (List.mem_map_of_mem there)
  | shutdown _ result => exact result ▸ a.shutdown
  | collect result => exact result ▸ a.collect

theorem Unmarked.start (h : s.Unmarked) {e : Endpoint}
    (new : s.locations.contains e.location = false) : (s.available e).Unmarked := by
  rw [available_of_not_contains new]
  intro r hr
  rcases List.mem_append.1 hr with hr | hr
  · exact h r hr
  · rw [List.mem_singleton.1 hr]

theorem Episode.unmarked (episode : Episode allowed s t) (goes : ¬ allowed .shutdown)
    (h : s.Unmarked ∧ s.abortions = []) : t.Unmarked ∧ t.abortions = [] := by
  obtain ⟨unmarked, abortions⟩ := h
  cases episode with
  | quiet quiet =>
    exact ⟨quiet.marks unmarked, (quiet.filterMap Event.abortion?_eq_none).trans abortions⟩
  | start e new result =>
    rw [result]
    exact ⟨unmarked.start new, (told_available new).abortions.trans (by rw [abortions]; rfl)⟩
  | complete r outcome _ result =>
    rw [result]
    exact ⟨unmarked.complete r outcome,
      (told_complete r outcome s).abortions.trans (by rw [abortions]; rfl)⟩
  | abort r there aborted _ =>
    rw [unmarked r there] at aborted
    cases aborted
  | shutdown ok _ => exact absurd ok goes
  | collect result =>
    rw [result]
    exact ⟨unmarked, (told_collect s).abortions.trans (by rw [abortions]; rfl)⟩

/-! ## Every run -/

theorem filterMap_build {b : Blueprint} (h : Site.build b = .ok s) {α : Type} {f : Event → Option α}
    (silent : ∀ {event : Event}, event.isCourse = false → f event = none) :
    s.journal.filterMap f = [] := by
  rcases (build_eq h).2 with journal | journal
  · rw [journal]
    rfl
  · rw [journal, List.filterMap_cons_none (silent rfl)]
    rfl

theorem accounted_build {b : Blueprint} (h : Site.build b = .ok s) : s.Accounted := by
  obtain ⟨heq, _⟩ := build_eq h
  have startings : s.startings = [] := filterMap_build h Event.starting?_eq_none
  have completions : s.completions = [] := filterMap_build h Event.completion?_eq_none
  have abortions : s.abortions = [] := filterMap_build h Event.abortion?_eq_none
  have collections : s.collections = [] := filterMap_build h Event.collection?_eq_none
  have flying : s.flying = [] := by
    unfold flying
    rw [heq]
    rfl
  constructor
  · rw [startings, heq]
    rfl
  · rw [startings, flying, completions, abortions]
    exact List.Perm.refl _
  · rw [flying, heq]
    exact Pending.Counts.empty
  · rw [collections, completions, heq]
    rfl

theorem Changes.accounted {m n : Moment} (changes : Changes allowed m n) (h : Coherent allowed m)
    (a : m.site.Accounted) : n.site.Accounted := by
  induction changes with
  | refl => exact a
  | tail before change ih => exact (change.episode (Changes.coherent before h)).accounted ih

theorem Reachable.accounted (h : Reachable allowed s) :
    Coherent allowed ⟨s, .idle⟩ ∧ s.Accounted :=
  h.invariant (I := fun m => m.site.Accounted) accounted_build fun coherent change a =>
    (change.episode coherent).accounted a

/-- Only a shutdown aborts resolutions. -/
theorem Reachable.abortions (h : Reachable allowed s) (goes : ¬ allowed .shutdown) :
    s.abortions = [] := by
  refine (h.invariant (I := fun m => m.site.Unmarked ∧ m.site.abortions = []) ?_ ?_).2.2
  · intro b s built
    refine ⟨?_, filterMap_build built Event.abortion?_eq_none⟩
    rw [(build_eq built).1]
    simp [Unmarked]
  · intro m n coherent change h
    exact (change.episode coherent).unmarked goes h

theorem Accounted.apart (a : s.Accounted) :
    ((s.flying ++ s.completions.map (·.1) ++ s.abortions).map (·.1)).Nodup := by
  rw [← (a.account.map (·.1)).nodup_iff, a.numbered]
  exact List.nodup_range

theorem Accounted.count_pos (a : s.Accounted) {r : Resolution} (there : r ∈ s.resolutions) :
    0 < s.pending.count r.endpoint.id := by
  have count : 0 < (s.flying.map (·.2.id)).count r.endpoint.id :=
    List.count_pos_iff.2 (List.mem_map_of_mem (f := (·.2.id))
      (List.mem_map_of_mem (f := fun r => (r.id, r.endpoint)) there))
  unfold Pending.count
  rw [a.counted.lookup]
  cases h : (s.flying.map (·.2.id)).count r.endpoint.id with
  | zero => omega
  | succ n => exact Nat.succ_pos n

theorem Accounted.contains_pending (a : s.Accounted) {id : String} :
    s.pending.contains id = true ↔ ∃ r ∈ s.resolutions, r.endpoint.id = id := by
  have counters : s.pending.contains id = true ↔ id ∈ s.pending.counts.map (·.1) := by
    simp [Pending.contains]
  rw [counters, a.counted.mem_iff, List.mem_map]
  constructor
  · rintro ⟨_, hf, same⟩
    obtain ⟨r, hr, rfl⟩ := List.mem_map.1 hf
    exact ⟨r, hr, same⟩
  · rintro ⟨r, hr, same⟩
    exact ⟨_, List.mem_map_of_mem hr, same⟩

theorem startings_available (e : Endpoint) (s : Site) :
    (s.available e).startings =
      s.startings ++ if s.locations.contains e.location then [] else [(s.started, e)] := by
  cases h : s.locations.contains e.location with
  | true =>
    rw [available_of_contains h, if_pos rfl, List.append_nil]
    exact (quiet_log s rfl).filterMap Event.starting?_eq_none
  | false => exact (told_available h).startings

/-! ## Settling -/

theorem step_turns (n : Nat) (s : Site) : Step allowed ⟨s, .idle⟩ ⟨turns n s, .idle⟩ := by
  induction n generalizing s with
  | zero => exact .refl _
  | succ n ih =>
    unfold turns
    split
    · exact .refl _
    · exact (step_poll _ s).trans (ih _)

theorem step_rounds (n : Nat) (s : Site) : Step allowed ⟨s, .idle⟩ ⟨rounds n s, .idle⟩ := by
  induction n generalizing s with
  | zero => exact .refl _
  | succ n ih => exact (step_turns _ s).trans (ih _)

theorem Accounted.idle (a : s.Accounted) : s.pending.isEmpty = true ↔ s.resolutions = [] := by
  rw [a.counted.isEmpty_iff, List.map_eq_nil_iff]
  exact List.map_eq_nil_iff

/-- Settling hands out what completed, once nothing is in flight. -/
theorem Reachable.settle (h : Reachable allowed s) {outcomes : List (String × Outcome)}
    (settled : s.settle = (some outcomes, t)) :
    ∃ u, Changes allowed ⟨s, .idle⟩ ⟨u, .idle⟩ ∧ u.resolutions = [] ∧ outcomes = u.finished ∧
      t = u.collect.2 := by
  unfold Site.settle at settled
  obtain ⟨u, hu, step⟩ : ∃ u, u = (if s.pending.isEmpty then s else s.run) ∧
      Step allowed ⟨s, .idle⟩ ⟨u, .idle⟩ := by
    refine ⟨_, rfl, ?_⟩
    split
    · exact .refl _
    · exact step_rounds _ s
  dsimp only at settled
  rw [← hu] at settled
  split at settled
  · next hempty =>
    obtain ⟨houtcomes, rfl⟩ := Prod.mk.inj settled
    have accounted : u.Accounted :=
      Changes.accounted (step h.accounted.1) h.accounted.1 h.accounted.2
    exact ⟨u, step h.accounted.1, accounted.idle.1 hempty, (Option.some.inj houtcomes).symm, rfl⟩
  · simp at settled

/-- At every moment of every run, what was started is in flight, completed or aborted, and the
counters and the outcomes tell so. Resolutions start with news of locations that are not accepted,
and only a shutdown aborts them. Settling waits until nothing is in flight. -/
theorem resolutions_accounted (h : Reachable allowed s) :
    (∀ m, Changes allowed ⟨s, .idle⟩ m → m.site.Accounted ∧
      ((m.site.flying ++ m.site.completions.map (·.1) ++ m.site.abortions).map (·.1)).Nodup ∧
      ∀ r ∈ m.site.resolutions, 0 < m.site.pending.count r.endpoint.id) ∧
    (∀ e, (s.available e).startings =
      s.startings ++ if s.locations.contains e.location then [] else [(s.started, e)]) ∧
    (¬ allowed .shutdown → s.abortions = []) ∧
    ∀ outcomes t, s.settle = (some outcomes, t) →
      ∃ u, Changes allowed ⟨s, .idle⟩ ⟨u, .idle⟩ ∧ u.resolutions = [] ∧
        t.resolutions = [] ∧ t.finished = [] ∧ t.collections = u.collections ++ [outcomes] ∧
        t.Accounted := by
  obtain ⟨coherent, accounted⟩ := h.accounted
  refine ⟨?_, fun e => startings_available e s, h.abortions, ?_⟩
  · intro m changes
    have a := Changes.accounted changes coherent accounted
    exact ⟨a, a.apart, fun r there => a.count_pos there⟩
  · intro outcomes t settled
    obtain ⟨u, changes, idle, rfl, rfl⟩ := h.settle settled
    have a : u.Accounted := Changes.accounted changes coherent accounted
    exact ⟨u, changes, idle, idle, rfl, (told_collect u).collections, a.collect⟩

/-- A lamp was imported, and the import of another was aborted by a shutdown. -/
def lampSettled : Site :=
  ((((litSite.perform (.available lampEndpoint)).poll (.resolution 0)).perform
    (.available { lampEndpoint with id := "bell", location := ⟨"home://bell"⟩ })).perform
      .shutdown).poll (.resolution 1)

theorem resolutions_accounted_lampSettled :
    lampSettled.Accounted ∧ lampSettled.startings.map (·.1) = [0, 1] ∧
      lampSettled.abortions.map (·.1) = [1] ∧
      lampSettled.settle.1 = some [("lamp", .registered 1)] ∧
      ∃ u, Changes (fun _ => True) ⟨lampSettled, .idle⟩ ⟨u, .idle⟩ ∧ u.resolutions = [] ∧
        lampSettled.settle.2.collections = u.collections ++ [[("lamp", .registered 1)]] := by
  have reachable : Reachable (fun _ => True) lampSettled := by
    refine .poll (.perform (.perform (.poll (.perform (reachable_litSite trivial) trivial ?_))
      trivial ?_) trivial ?_)
    all_goals
      intro _
      rfl
  obtain ⟨moments, _, _, settled⟩ := resolutions_accounted reachable
  obtain ⟨u, changes, idle, _, _, collections, _⟩ :=
    settled [("lamp", .registered 1)] lampSettled.settle.2 rfl
  exact ⟨(moments _ .refl).1, rfl, rfl, rfl, u, changes, idle, collections⟩

end Site

end ServiceImport

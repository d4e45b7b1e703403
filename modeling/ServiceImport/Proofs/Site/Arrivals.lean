import ServiceImport.Proofs.Site.Advances
import ServiceImport.Proofs.Site.Strides

/-! # Arrivals

Endpoints arrive at a site, resolutions have turns, gates open and close, and nothing else happens.
Every resolution then is ready, waits for a permit or waits at a closed gate. Turns come to an end,
and with all gates open nothing is in flight then.
-/

namespace ServiceImport

namespace Adapter

theorem isClosed_addWaiting (a : Adapter) (n : Nat) : (a.addWaiting n).isClosed = a.isClosed := by
  obtain ⟨owner, backend, listeners, subscribed, lookups⟩ := a
  cases backend with
  | memory p => rfl
  | scripted x =>
    unfold addWaiting withScript isClosed
    dsimp only
    split <;> rfl

theorem mem_waiting_addWaiting {a : Adapter} (closed : a.isClosed = true) {m n : Nat} :
    m ∈ (a.addWaiting n).waiting ↔ m ∈ a.waiting ∨ m = n := by
  obtain ⟨owner, backend, listeners, subscribed, lookups⟩ := a
  cases backend with
  | memory p => cases closed
  | scripted x =>
    unfold addWaiting withScript waiting
    dsimp only
    split
    · next there =>
      refine (or_iff_left_of_imp ?_).symm
      rintro rfl
      exact List.contains_iff_mem.1 there
    · rw [List.mem_append, List.mem_singleton]

/-- An adapter whose gate is opened or closed. -/
def withGate (closed : Bool) (a : Adapter) : Adapter :=
  a.withScript fun x => { x with closed, waiting := if closed then x.waiting else [] }

theorem isClosed_withGate_false (a : Adapter) : (a.withGate false).isClosed = false := by
  obtain ⟨owner, backend, listeners, subscribed, lookups⟩ := a
  cases backend with
  | memory p => rfl
  | scripted x => rfl

theorem withGate_true {a : Adapter} (closed : a.isClosed = true) : a.withGate true = a := by
  obtain ⟨owner, backend, listeners, subscribed, lookups⟩ := a
  cases backend with
  | memory p => cases closed
  | scripted x =>
    obtain ⟨answers, absent, broken, shut, waiting⟩ := x
    obtain rfl : shut = true := closed
    rfl

end Adapter

namespace Site

variable {s t u : Site} {es : List Endpoint} {r : Resolution} {limit total : Nat}
  {allowed : Command → Prop}

/-! ## Runs -/

/-- Nothing is in flight at a site or about to happen, and its importer is there. -/
structure Quiescent (s : Site) : Prop where
  resolutions : s.resolutions = []
  ready : s.ready = []
  interruptions : s.space.interruptions = []
  alive : s.isAlive = true

/-- A site with another limit, and with all permits that there are then. -/
def limitedTo (limit : Nat) (s : Site) : Site :=
  { s with settings := { s.settings with limit }, limiter := { free := max limit 1 } }

/-- Endpoints arrive at a site in the order of a list. In between jobs have turns, and gates open
and close. -/
inductive Arriving (s : Site) : List Endpoint → Site → Prop
  | start : Arriving s [] s
  | arrive {es : List Endpoint} {t : Site} (e : Endpoint) : Arriving s es t →
      Arriving s (es ++ [e]) (t.perform (.available e))
  | poll {es : List Endpoint} {t : Site} (j : Job) : Arriving s es t → Arriving s es (t.poll j)
  | gate {es : List Endpoint} {t : Site} (key : String) (closed : Bool) : Arriving s es t →
      Arriving s es (t.perform (.setGate key closed))

theorem Arriving.trans {es' : List Endpoint} (before : Arriving s es t) (after : Arriving t es' u) :
    Arriving s (es ++ es') u := by
  induction after with
  | start =>
    rw [List.append_nil]
    exact before
  | arrive e _ ih =>
    rw [← List.append_assoc]
    exact .arrive e ih
  | poll j _ ih => exact .poll j ih
  | gate key closed _ ih => exact .gate key closed ih

/-! ## Gates -/

/-- Resolutions that wait at a closed gate go on to do so. -/
def KeepsGates (s t : Site) : Prop :=
  ∀ key waiting, s.gate key = some (true, waiting) →
    ∃ more, t.gate key = some (true, more) ∧ ∀ n ∈ waiting, n ∈ more

theorem KeepsGates.of_eq (h : t.gate = s.gate) : KeepsGates s t :=
  fun _ waiting closed => ⟨waiting, by rw [h, closed], fun _ hn => hn⟩

theorem KeepsGates.refl (s : Site) : KeepsGates s s := .of_eq rfl

theorem KeepsGates.trans (hst : KeepsGates s t) (htu : KeepsGates t u) : KeepsGates s u := by
  intro key waiting closed
  obtain ⟨more, closed, sub⟩ := hst key waiting closed
  obtain ⟨more', closed', sub'⟩ := htu key more closed
  exact ⟨more', closed', fun n hn => sub' n (sub n hn)⟩

theorem gate_await (n : Nat) (c : Candidate) (rest : List Candidate) (tally : Tally) (s : Site)
    (key : String) : (s.await n c rest tally).gate key = if key = c.adapter
      then (s.adapter? key).map fun a => (a.isClosed, (a.addWaiting n).waiting)
      else s.gate key := by
  unfold Site.gate Site.await
  rw [adapter?_updateAdapter]
  split
  · rw [Option.map_map]
    congr 1
    funext a
    exact Prod.ext (a.isClosed_addWaiting n) rfl
  · rfl

theorem keepsGates_await (n : Nat) (c : Candidate) (rest : List Candidate) (tally : Tally)
    (s : Site) : KeepsGates s (s.await n c rest tally) := by
  intro key waiting closed
  rw [gate_await]
  split
  · obtain ⟨a, ha, same⟩ := Option.map_eq_some_iff.1 closed
    obtain ⟨shut, rfl⟩ := Prod.mk.inj same
    exact ⟨(a.addWaiting n).waiting, by rw [ha, Option.map_some, shut], fun m hm =>
      (Adapter.mem_waiting_addWaiting shut).2 (.inl hm)⟩
  · exact ⟨waiting, closed, fun _ hm => hm⟩

theorem gate_await_of_hasToWait {e : Endpoint} {c : Candidate} (n : Nat) (rest : List Candidate)
    (tally : Tally) (waits : s.hasToWait e c = true) :
    ∃ waiting, (s.await n c rest tally).gate c.adapter = some (true, waiting) ∧ n ∈ waiting := by
  obtain ⟨-, waits⟩ := Bool.and_eq_true_iff.1 waits
  obtain ⟨a, ha, closed⟩ := (Option.any_eq_true _ _).1 waits
  refine ⟨(a.addWaiting n).waiting, ?_, (Adapter.mem_waiting_addWaiting closed).2 (.inr rfl)⟩
  rw [gate_await, if_pos rfl, ha, Option.map_some, closed]

/-- No gate is closed. -/
def IsOpen (s : Site) : Prop := ∀ key waiting, s.gate key ≠ some (true, waiting)

theorem IsOpen.of_eq (opened : s.IsOpen) (h : t.gate = s.gate) : t.IsOpen :=
  fun key waiting => h ▸ opened key waiting

theorem IsOpen.hasToWait (opened : s.IsOpen) (e : Endpoint) (c : Candidate) :
    s.hasToWait e c = false := by
  refine eq_false_of_ne_true fun waits => ?_
  obtain ⟨-, waits⟩ := Bool.and_eq_true_iff.1 waits
  obtain ⟨a, ha, closed⟩ := (Option.any_eq_true _ _).1 waits
  refine opened c.adapter a.waiting ?_
  unfold Site.gate
  rw [ha, Option.map_some, closed]

theorem gate_setGate (key : String) (closed : Bool) (s : Site) (k : String) :
    (s.setGate key closed).gate k = if k = key
      then (s.adapter? key).map fun a => ((a.withGate closed).isClosed, (a.withGate closed).waiting)
      else s.gate k := by
  have adapters : (s.setGate key closed).adapters =
      (s.updateAdapter key (·.withGate closed)).adapters := by
    unfold setGate
    dsimp only
    rw [wakeAll_eq]
    rfl
  rw [gate_of_adapters adapters]
  unfold Site.gate
  rw [adapter?_updateAdapter]
  split
  · next same =>
    rw [same, Option.map_map]
    rfl
  · rfl

theorem gate_open_ne (key : String) (s : Site) (waiting : List Nat) :
    (s.setGate key false).gate key ≠ some (true, waiting) := by
  rw [gate_setGate, if_pos rfl]
  intro shut
  obtain ⟨a, -, same⟩ := Option.map_eq_some_iff.1 shut
  rw [a.isClosed_withGate_false] at same
  cases same

theorem gate_setGate_of_closed {key k : String} {closed : Bool} {waiting : List Nat}
    (shut : s.gate k = some (true, waiting)) (stays : k = key → closed = true) :
    (s.setGate key closed).gate k = some (true, waiting) := by
  rw [gate_setGate]
  split
  · next same =>
    subst same
    obtain ⟨a, ha, same⟩ := Option.map_eq_some_iff.1 shut
    rw [ha, Option.map_some, stays rfl, Adapter.withGate_true (Prod.mk.inj same).1, same]
  · exact shut

/-! ## Who is in flight -/

/-- A resolution is ready, waits for a permit, or waits at a closed gate. -/
inductive Poised (t : Site) (q : Resolution) : Prop
  | ready : q.stage ≠ .running → .resolution q.id ∈ t.ready → Poised t q
  | queued : q.stage = .queued → Poised t q
  | gated {c : Candidate} {rest : List Candidate} {tally : Tally} {waiting : List Nat} :
      q.stage = .lookingUp c rest tally → t.gate c.adapter = some (true, waiting) →
      q.id ∈ waiting → Poised t q

theorem Poised.mono {q : Resolution} (h : Poised t q) (ready : ∀ j ∈ t.ready, j ∈ u.ready)
    (gates : KeepsGates t u) : Poised u q := by
  cases h with
  | ready idle there => exact .ready idle (ready _ there)
  | queued stage => exact .queued stage
  | gated stage closed waits =>
    obtain ⟨more, closed, waiting⟩ := gates _ _ closed
    exact .gated stage closed (waiting _ waits)

theorem Poised.idle {q : Resolution} (h : Poised t q) : q.stage ≠ .running := by
  cases h with
  | ready idle _ => exact idle
  | queued stage | gated stage _ _ =>
    rw [stage]
    simp

theorem Poised.take {q : Resolution} (h : Poised t q) {n : Nat} (other : q.id ≠ n) :
    Poised { t with ready := t.ready.erase (.resolution n) } q := by
  cases h with
  | ready idle there =>
    exact .ready idle ((List.mem_erase_of_ne fun same => other (Job.resolution.inj same)).2 there)
  | queued stage => exact .queued stage
  | gated stage closed waits => exact .gated stage closed waits

theorem mem_ready_wakeAll {numbers : List Nat} {n : Nat} (woken : n ∈ numbers) :
    .resolution n ∈ (numbers.foldl (fun s n => s.wake (.resolution n)) s).ready :=
  foldl_of_mem (P := fun s : Site => .resolution n ∈ s.ready) woken
    (fun s => mem_ready_wake (.resolution n) s)
    (fun s m there => (rouses_wake (.resolution m) s).ready _ there) s

theorem of_mem_ready_wakeAll {j : Job} {numbers : List Nat}
    (h : j ∈ (numbers.foldl (fun s n => s.wake (.resolution n)) s).ready) :
    j ∈ s.ready ∨ ∃ n, j = .resolution n := by
  induction numbers generalizing s with
  | nil => exact .inl h
  | cons n numbers ih =>
    rcases ih h with before | woken
    · exact (of_mem_ready_wake before).imp_right fun same => ⟨n, same⟩
    · exact .inr woken

theorem Poised.setGate {q : Resolution} (h : Poised t q) (key : String) (closed : Bool) :
    Poised (t.setGate key closed) q := by
  have ready : ∀ j ∈ t.ready, j ∈ (t.setGate key closed).ready := by
    unfold Site.setGate
    exact (Rouses.foldl (fun s n => rouses_wake (.resolution n) s)
      (t.updateAdapter key _) _).ready
  cases h with
  | ready idle there => exact .ready idle (ready _ there)
  | queued stage => exact .queued stage
  | @gated c rest tally waiting stage shut waits =>
    by_cases opens : c.adapter = key ∧ closed = false
    · obtain ⟨rfl, rfl⟩ := opens
      obtain ⟨a, ha, same⟩ := Option.map_eq_some_iff.1 shut
      refine .ready (by simp [stage]) ?_
      unfold Site.setGate
      refine mem_ready_wakeAll ?_
      rw [if_neg Bool.false_ne_true, ha, Option.map_some, Option.getD_some,
        (Prod.mk.inj same).2]
      exact waits
    · refine .gated stage (gate_setGate_of_closed shut fun same => ?_) waits
      exact eq_true_of_ne_false fun opened => opens ⟨same, opened⟩

/-! ## Turns -/

/-- How much there can be to do until nothing is in flight. -/
def load (s : Site) : Nat := s.ready.length + s.resolutions.length + s.limiter.free

namespace Turn

theorem keepsGates (turn : Turn r t u) : KeepsGates t u := by
  cases turn with
  | rest _ => exact .refl t
  | queue _ _ => exact .refl t
  | complete pending goes hands => exact .of_eq (hands.gate.trans goes.gate)
  | await goes => exact (KeepsGates.of_eq goes.gate).trans (keepsGates_await _ _ _ _ _)

theorem isOpen (turn : Turn r t u) (opened : t.IsOpen) : u.IsOpen := by
  cases turn with
  | rest _ => exact opened
  | queue _ _ => exact opened
  | complete pending goes hands => exact opened.of_eq (hands.gate.trans goes.gate)
  | @await _ c rest tally v goes =>
    have waits := goes.waits c rest tally rfl
    rw [(opened.of_eq goes.gate).hasToWait] at waits
    cases waits

theorem poised (turn : Turn r t u) (numbered : t.Numbered) (there : r ∈ t.resolutions)
    (idle : r.stage ≠ .running) (others : ∀ q ∈ t.resolutions, q.id ≠ r.id → t.Poised q) :
    ∀ q ∈ u.resolutions, u.Poised q := by
  have kept : ∀ q ∈ t.resolutions, q.id ≠ r.id → u.Poised q := fun q hq ne =>
    (others q hq ne).mono turn.ready.1 turn.keepsGates
  cases turn with
  | rest stage =>
    intro q hq
    by_cases same : q.id = r.id
    · rw [numbered.eq_of_id hq there same]
      exact .queued (stage.resolve_right idle)
    · exact kept q hq same
  | queue _ _ =>
    refine List.forall_mem_map.2 fun q hq => ?_
    split
    · exact .queued rfl
    · next other => exact kept q hq other
  | @complete _ _ v w f pending goes hands =>
    intro q hq
    obtain ⟨hq, ne⟩ := List.mem_filter.1 hq
    rw [hands.kept] at hq
    obtain ⟨p, hp, rfl⟩ := List.mem_map.1 hq
    rw [(hands.same p).1, bne_iff_ne] at ne
    rcases hands.moved p hp with stays | ⟨_, goes, woken⟩
    · rw [stays]
      exact kept p ((goes.of_mem hp).1.resolve_left ne) ne
    · rw [goes]
      exact .ready (by simp) woken
  | @await _ c rest tally v goes =>
    refine List.forall_mem_map.2 fun q hq => ?_
    split
    · next same =>
      obtain ⟨waiting, closed, waits⟩ := gate_await_of_hasToWait r.id rest tally
        (goes.waits c rest tally rfl)
      exact .gated rfl closed (same ▸ waits)
    · next other => exact kept q ((goes.of_mem hq).1.resolve_left other) other

theorem load (turn : Turn r t u) : u.load ≤ t.load := by
  cases turn with
  | rest _ => exact Nat.le_refl _
  | queue _ full =>
    unfold Site.load Limiter.acquire
    rw [if_pos full]
    simp [setStage, updateResolution]
  | @complete limiter _ v w f pending goes hands =>
    have free := goes.free
    have load := hands.load
    have length : w.resolutions.length = t.resolutions.length := by
      rw [hands.kept, List.length_map, goes.resolutions, List.length_map]
    have fewer : (w.resolutions.filter (·.id != r.id)).length < w.resolutions.length := by
      refine List.length_filter_lt_length_iff_exists.2 ⟨f { r with stage := .running }, ?_, ?_⟩
      · rw [hands.kept]
        exact List.mem_map_of_mem goes.now
      · simp [(hands.same _).1]
    rw [goes.ready, goes.limiter_eq] at load
    unfold Site.load
    dsimp only
    omega
  | @await limiter c rest tally v goes =>
    have free := goes.free
    have length : (v.await r.id c rest tally).resolutions.length = t.resolutions.length := by
      show (v.setStage r.id _).resolutions.length = _
      unfold setStage updateResolution
      rw [List.length_map, goes.resolutions, List.length_map]
    unfold Site.load
    rw [length]
    show v.ready.length + _ + v.limiter.free ≤ _
    rw [goes.ready, goes.limiter_eq]
    omega

end Turn

/-! ## Undisturbed runs -/

/-- Nothing goes on at a site but that endpoints arrive, resolutions have turns, and gates open and
close. -/
structure Undisturbed (total : Nat) (t : Site) : Prop where
  calm : t.space.interruptions = []
  held : t.steady.isAlive = true
  wellFormed : t.ledger.WellFormed
  jobs : ∀ j ∈ t.ready, ∃ n, j = .resolution n
  unaborted : ∀ q ∈ t.resolutions, q.aborted = false
  poised : ∀ q ∈ t.resolutions, t.Poised q
  coherent : Coherent (fun _ => True) ⟨t, .idle⟩
  rationed : Rationed total t

theorem isAlive_of_steady (held : t.steady.isAlive = true) : t.isAlive = true := by
  unfold isAlive steady at held
  unfold isAlive
  cases hheld : t.importerHeld with
  | true => rfl
  | false =>
    rw [hheld] at held
    rw [Bool.or_eq_true]
    exact .inr held

namespace Undisturbed

theorem isAlive (h : Undisturbed total t) : t.isAlive = true := isAlive_of_steady h.held

theorem arrive (h : Undisturbed total t) (e : Endpoint) : Undisturbed total (t.available e) := by
  have change : Change (fun _ => True) ⟨t, .idle⟩ ⟨t.perform (.available e), .idle⟩ :=
    .perform trivial fun _ => .inl h.isAlive
  have coherent : Coherent (fun _ => True) ⟨t.available e, .idle⟩ := change.coherent h.coherent
  have rationed : Rationed total (t.available e) := change.rationed h.coherent h.rationed
  cases known : t.locations.contains e.location with
  | true =>
    rw [available_of_contains known] at coherent rationed ⊢
    exact ⟨h.calm, h.held, h.wellFormed, h.jobs, h.unaborted,
      fun q hq => (h.poised q hq).mono (fun _ hj => hj) (.refl _), coherent, rationed⟩
  | false =>
    rw [available_of_not_contains known] at coherent rationed ⊢
    refine ⟨h.calm, h.held, h.wellFormed, fun j hj => ?_, fun q hq => ?_, fun q hq => ?_, coherent,
      rationed⟩
    · rcases List.mem_append.1 hj with hj | hj
      · exact h.jobs j hj
      · exact ⟨_, List.mem_singleton.1 hj⟩
    · rcases List.mem_append.1 hq with hq | hq
      · exact h.unaborted q hq
      · rw [List.mem_singleton.1 hq]
    · rcases List.mem_append.1 hq with hq | hq
      · exact (h.poised q hq).mono (fun j hj => List.mem_append_left _ hj) (.of_eq rfl)
      · rw [List.mem_singleton.1 hq]
        exact .ready (by simp) (List.mem_append_right _ List.mem_cons_self)

theorem setGate (h : Undisturbed total t) (key : String) (closed : Bool) :
    Undisturbed total (t.setGate key closed) := by
  have change : Change (fun _ => True) ⟨t, .idle⟩ ⟨t.perform (.setGate key closed), .idle⟩ :=
    .perform trivial fun uses => by cases uses
  have kept := setGate_eq key closed t
  have resolutions : (t.setGate key closed).resolutions = t.resolutions := by rw [kept]
  constructor
  case calm =>
    rw [kept]
    exact h.calm
  case held =>
    rw [kept]
    exact h.held
  case wellFormed =>
    rw [kept]
    exact h.wellFormed
  case jobs =>
    intro j hj
    unfold Site.setGate at hj
    exact (of_mem_ready_wakeAll (s := t.updateAdapter key _) hj).elim (h.jobs j) id
  case unaborted => exact resolutions ▸ h.unaborted
  case poised => exact resolutions ▸ fun q hq => (h.poised q hq).setGate key closed
  case coherent => exact change.coherent h.coherent
  case rationed => exact change.rationed h.coherent h.rationed

/-- A job that is ready is the turn of a resolution, or comes after its end. -/
theorem poll_cases (h : Undisturbed total t) {n : Nat} (ready : .resolution n ∈ t.ready) :
    (t.resolution? n = none ∧ t.poll (.resolution n) =
      { t with ready := t.ready.erase (.resolution n) }) ∨
    ∃ r ∈ t.resolutions, r.id = n ∧
      Turn r { t with ready := t.ready.erase (.resolution n) } (t.poll (.resolution n)) := by
  -- The importer stays, and so does the ledger.
  have stays : ∀ u : Site, u.steady = t.steady → u.releaseLedger = u := by
    intro u steady
    unfold releaseLedger
    rw [isAlive_of_steady (steady ▸ h.held), Bool.true_or, if_pos rfl]
  unfold Site.poll
  rw [if_pos ready]
  dsimp only
  cases there : t.resolution? n with
  | none =>
    left
    have absent : ({ t with ready := t.ready.erase (.resolution n) } : Site).resolution? n = none :=
      there
    rw [absent]
    exact ⟨rfl, stays _ rfl⟩
  | some r =>
    right
    have found : ({ t with ready := t.ready.erase (.resolution n) } : Site).resolution? n =
      some r := there
    obtain ⟨hr, hid⟩ := mem_of_resolution? there
    have turn := turn_runResolution (t := { t with ready := t.ready.erase (.resolution n) }) h.calm
      h.wellFormed ⟨h.coherent.numbered.nodup, h.coherent.numbered.issued⟩
      (h.rationed.of_eq rfl rfl) h.unaborted hr
    rw [found]
    dsimp only
    rw [stays _ turn.steady]
    exact ⟨r, hr, hid, turn⟩

theorem poll (h : Undisturbed total t) (j : Job) : Undisturbed total (t.poll j) := by
  by_cases ready : j ∈ t.ready
  · obtain ⟨coherent, rationed⟩ := (step_poll j t h.coherent).rationed h.coherent h.rationed
    obtain ⟨n, rfl⟩ := h.jobs j ready
    rcases h.poll_cases ready with ⟨gone, heq⟩ | ⟨r, hr, rfl, turn⟩
    · rw [heq] at coherent rationed ⊢
      refine ⟨h.calm, h.held, h.wellFormed, fun j hj => h.jobs j (List.mem_of_mem_erase hj),
        h.unaborted, fun q hq => (h.poised q hq).take ?_, coherent, rationed⟩
      rintro rfl
      have := List.find?_eq_none.1 gone q hq
      simp at this
    · have numbered : Numbered { t with ready := t.ready.erase (.resolution r.id) } :=
        ⟨h.coherent.numbered.nodup, h.coherent.numbered.issued⟩
      refine ⟨?_, ?_, turn.wellFormed h.wellFormed, fun j hj => ?_, turn.unaborted h.unaborted,
        turn.poised numbered hr (h.poised r hr).idle fun q hq other => (h.poised q hq).take other,
        coherent, rationed⟩
      · exact (congrArg (·.space.interruptions) turn.steady).trans h.calm
      · rw [turn.steady]
        exact h.held
      · exact (turn.ready.2 j hj).elim (fun before => h.jobs j (List.mem_of_mem_erase before)) id
  · unfold Site.poll
    rw [if_neg ready]
    exact h

theorem load_poll_lt (h : Undisturbed total t) {j : Job} (ready : j ∈ t.ready) :
    (t.poll j).load < t.load := by
  obtain ⟨n, rfl⟩ := h.jobs j ready
  have taken : load { t with ready := t.ready.erase (.resolution n) } < t.load := by
    have length := List.length_erase_of_mem ready
    have some := List.length_pos_of_mem ready
    unfold load
    dsimp only
    omega
  rcases h.poll_cases ready with ⟨-, heq⟩ | ⟨r, -, -, turn⟩
  · rw [heq]
    exact taken
  · exact turn.load.trans_lt taken

theorem isOpen_poll (h : Undisturbed total t) (opened : t.IsOpen) (j : Job) :
    (t.poll j).IsOpen := by
  by_cases ready : j ∈ t.ready
  · obtain ⟨n, rfl⟩ := h.jobs j ready
    rcases h.poll_cases ready with ⟨-, heq⟩ | ⟨r, -, -, turn⟩
    · rw [heq]
      exact opened
    · exact turn.isOpen opened
  · unfold Site.poll
    rw [if_neg ready]
    exact opened

/-- Nothing is in flight when no job is ready and no gate is closed. -/
theorem resolutions_eq_nil (h : Undisturbed total t) (positive : 0 < total) (idle : t.ready = [])
    (opened : t.IsOpen) : t.resolutions = [] := by
  have queued : ∀ q ∈ t.resolutions, q.stage = .queued := by
    intro q hq
    cases h.poised q hq with
    | ready _ there =>
      rw [idle] at there
      cases there
    | queued stage => exact stage
    | gated _ closed _ => exact absurd closed (opened _ _)
  refine List.eq_nil_iff_forall_not_mem.2 fun q hq => ?_
  -- Whoever is queued waits for a permit that another one holds.
  have waits : q.id ∈ t.limiter.waiting := (h.rationed.queued _).2 ⟨q, hq, rfl, queued q hq⟩
  have full := h.rationed.exhausted (List.ne_nil_of_mem waits)
  have held := h.rationed.conserved
  rw [full, Nat.zero_add] at held
  obtain ⟨p, hp, holds⟩ := List.countP_pos_iff.1 (held ▸ positive : 0 < t.permits)
  rw [queued p hp] at holds
  cases holds

end Undisturbed

theorem Arriving.undisturbed (arriving : Arriving s es t) (h : Undisturbed total s) :
    Undisturbed total t := by
  induction arriving with
  | start => exact h
  | arrive e _ ih => exact ih.arrive e
  | poll j _ ih => exact ih.poll j
  | gate key closed _ ih => exact ih.setGate key closed

theorem Reachable.undisturbed_limitedTo (h : Reachable allowed s) (quiet : s.Quiescent)
    (limit : Nat) : Undisturbed (max limit 1) (s.limitedTo limit) := by
  obtain ⟨coherent, -⟩ := h.rationed .refl
  have resolutions : (s.limitedTo limit).resolutions = [] := quiet.resolutions
  have ready : (s.limitedTo limit).ready = [] := quiet.ready
  have held : s.steady.isAlive = true := by
    have alive := quiet.alive
    unfold isAlive at alive ⊢
    rw [quiet.resolutions] at alive
    exact alive
  refine ⟨quiet.interruptions, held, h.wellFormed, by simp [ready], by simp [resolutions],
    by simp [resolutions], ?_, ?_, List.nodup_nil, fun n => ?_, fun waits => absurd rfl waits⟩
  · exact ⟨⟨coherent.numbered.nodup, coherent.numbered.issued⟩, coherent.turn, coherent.feed,
      fun _ _ _ _ => trivial⟩
  · unfold permits
    rw [resolutions]
    rfl
  · rw [resolutions]
    simp [limitedTo]

/-! ## Ends -/

theorem exists_arriving_open (s : Site) (keys : List String) :
    ∃ u, Arriving s [] u ∧ ∀ key waiting, u.gate key = some (true, waiting) →
      key ∉ keys ∧ s.gate key = some (true, waiting) := by
  induction keys with
  | nil => exact ⟨s, .start, fun _ _ shut => ⟨List.not_mem_nil, shut⟩⟩
  | cons k keys ih =>
    obtain ⟨u, arriving, opened⟩ := ih
    refine ⟨u.setGate k false, .gate k false arriving, fun key waiting shut => ?_⟩
    by_cases same : key = k
    · subst same
      exact absurd shut (gate_open_ne _ _ _)
    · rw [gate_setGate, if_neg same] at shut
      obtain ⟨closed, before⟩ := opened key waiting shut
      exact ⟨fun hk => (List.mem_cons.1 hk).elim same closed, before⟩

theorem exists_arriving_isOpen (s : Site) : ∃ u, Arriving s [] u ∧ u.IsOpen := by
  obtain ⟨u, arriving, opened⟩ := exists_arriving_open s (s.adapters.map (·.1))
  refine ⟨u, arriving, fun key waiting shut => ?_⟩
  obtain ⟨unknown, before⟩ := opened key waiting shut
  obtain ⟨a, ha, -⟩ := Option.map_eq_some_iff.1 before
  obtain ⟨_, _, adapters, -⟩ := List.lookup_eq_some_iff.1 ha
  refine unknown (List.mem_map.2 ⟨(key, a), ?_, rfl⟩)
  rw [adapters]
  exact List.mem_append_right _ List.mem_cons_self

theorem Undisturbed.completes_of_isOpen (h : Undisturbed total t) (positive : 0 < total)
    (opened : t.IsOpen) : ∃ u, Arriving t [] u ∧ u.resolutions = [] := by
  induction hload : t.load using Nat.strong_induction_on generalizing t with
  | _ n ih =>
    cases hready : t.ready with
    | nil => exact ⟨t, .start, h.resolutions_eq_nil positive hready opened⟩
    | cons j rest =>
      have ready : j ∈ t.ready := hready ▸ List.mem_cons_self
      obtain ⟨u, arriving, idle⟩ := ih _ (hload ▸ h.load_poll_lt ready) (h.poll j)
        (h.isOpen_poll opened j) rfl
      exact ⟨u, Arriving.trans (.poll j .start) arriving, idle⟩

/-- However far a run has come, gates can open and turns be had until nothing is in flight. -/
theorem Undisturbed.completes (h : Undisturbed total t) (positive : 0 < total) :
    ∃ u, Arriving t [] u ∧ u.resolutions = [] := by
  obtain ⟨u, opening, opened⟩ := exists_arriving_isOpen t
  obtain ⟨v, turns, idle⟩ := (opening.undisturbed h).completes_of_isOpen positive opened
  exact ⟨v, opening.trans turns, idle⟩

end Site

end ServiceImport

import ServiceImport.Proofs.Site.Departures
import ServiceImport.Proofs.Site.Services

/-! # Locations

The importer accepts a location when it starts a resolution for it, and gives it free when an
endpoint of this location leaves, or on request when a removal empties a record. Until then it
starts no other. So what two endpoints have at one location goes back to before the location was
last free.
-/

namespace ServiceImport

/-! ## What the journal tells of a location -/

namespace Event

/-- Whether an entry tells that a resolution was started for a location. -/
def takes (l : Location) : Event → Bool
  | .started _ e => e.location == l
  | _ => false

/-- Whether an entry tells of something that gives a location free. -/
def frees (settings : Settings) (l : Location) : Event → Bool
  | .left e => e.location == l
  | .emptied e => settings.releaseOnRemoval && e.location == l
  | _ => false

/-- Whether an entry tells of something that takes a location or may give it free. -/
def isPlacing : Event → Bool
  | .started .. | .left _ | .emptied _ => true
  | _ => false

theorem takes_of_isPlacing {event : Event} (h : event.isPlacing = false) (l : Location) :
    event.takes l = false := by
  cases event <;> first | rfl | cases h

theorem frees_of_isPlacing {event : Event} (h : event.isPlacing = false) (settings : Settings)
    (l : Location) : event.frees settings l = false := by
  cases event <;> first | rfl | cases h

theorem isPlacing_of_isCall {event : Event} (h : event.isCall = true) :
    event.isPlacing = false := by
  cases event <;> first | rfl | cases h

/-- Whether a location is taken after an entry, if it is known whether it was before. -/
def holds (settings : Settings) (l : Location) (held : Bool) (event : Event) : Bool :=
  (held || event.takes l) && !event.frees settings l

end Event

/-- Whether a location is taken at the end of a journal: a resolution was started for it since it
was last given free. -/
def taken (settings : Settings) (l : Location) (journal : List Event) : Bool :=
  journal.foldl (Event.holds settings l) false

variable {settings : Settings} {l : Location} {journal events : List Event}

theorem taken_append_of_not_takes (none : ∀ event ∈ events, event.takes l = false) :
    taken settings l (journal ++ events) =
      (taken settings l journal && events.all (!·.frees settings l)) := by
  unfold taken
  rw [List.foldl_append]
  generalize journal.foldl (Event.holds settings l) false = held
  induction events generalizing held with
  | nil => simp
  | cons event events ih =>
    rw [List.forall_mem_cons] at none
    rw [List.foldl_cons, ih none.2, List.all_cons, Event.holds, none.1, Bool.or_false,
      Bool.and_assoc]

theorem taken_of_started {n : Nat} {e : Endpoint}
    (kept : ∀ event ∈ events, event.frees settings e.location = false) :
    taken settings e.location (journal ++ .started n e :: events) = true := by
  have held : taken settings e.location (journal ++ [.started n e]) = true := by
    simp [taken, Event.holds, Event.takes, Event.frees]
  rw [List.append_cons]
  unfold taken at held ⊢
  rw [List.foldl_append, held]
  induction events with
  | nil => rfl
  | cons event events ih =>
    rw [List.forall_mem_cons] at kept
    rw [List.foldl_cons, Event.holds, kept.1]
    exact ih kept.2

theorem InFlight.before_or_since {before events : List Event} {n : Nat} {e : Endpoint}
    (flight : InFlight (before ++ events) n e) :
    InFlight before n e ∨ .started n e ∈ events := by
  by_cases since : .started n e ∈ events
  · exact .inr since
  · exact .inl (flight.of_append since)

namespace Site

variable {s t u : Site} {allowed : Command → Prop}

/-! ## Steps that take no location -/

/-- No resolution is started, and the locations are given free that the journal tells of. -/
structure Yields (s t : Site) : Prop where
  settings : t.settings = s.settings
  journal : ∃ events, t.journal = s.journal ++ events ∧
    (∀ event ∈ events, ∀ l, event.takes l = false) ∧
    ∀ l, t.locations.contains l =
      (s.locations.contains l && events.all (!·.frees s.settings l))

theorem Yields.trans (hst : Yields s t) (htu : Yields t u) : Yields s u where
  settings := htu.settings.trans hst.settings
  journal := by
    obtain ⟨events, journal, none, freed⟩ := hst.journal
    obtain ⟨events', journal', none', freed'⟩ := htu.journal
    refine ⟨events ++ events', by rw [journal', journal, List.append_assoc], ?_, fun l => ?_⟩
    · intro event he
      exact (List.mem_append.1 he).elim (none event) (none' event)
    · rw [freed', freed, hst.settings, List.all_append, Bool.and_assoc]

theorem Yields.of_told (settings : t.settings = s.settings) (locations : t.locations = s.locations)
    {events : List Event} (journal : t.journal = s.journal ++ events)
    (other : ∀ event ∈ events, event.isPlacing = false) : Yields s t := by
  refine ⟨settings, events, journal, fun event he => Event.takes_of_isPlacing (other event he), ?_⟩
  intro l
  have kept : events.all (!·.frees s.settings l) = true := by
    rw [List.all_eq_true]
    intro event he
    rw [Event.frees_of_isPlacing (other event he)]
    rfl
  rw [locations, kept, Bool.and_true]

theorem Yields.of_eq (settings : t.settings = s.settings) (locations : t.locations = s.locations)
    (journal : t.journal = s.journal) : Yields s t :=
  .of_told settings locations (journal.trans (List.append_nil _).symm) (by simp)

theorem Yields.refl (s : Site) : Yields s s := .of_eq rfl rfl rfl

theorem Yields.foldl {α : Type} {f : Site → α → Site} (h : ∀ s a, Yields s (f s a)) (s : Site)
    (l : List α) : Yields s (l.foldl f s) :=
  List.foldlRecOn l f (Yields.refl s) fun t ht a _ => ht.trans (h t a)

theorem yields_log (s : Site) {e : Event} (h : e.isPlacing = false) : Yields s (s.log e) :=
  .of_told rfl rfl rfl (by simpa using h)

theorem yields_cancel (x : Option Subscription) (s : Site) : Yields s (s.cancel x) := by
  rw [cancel_eq]
  exact .of_eq rfl rfl rfl

theorem yields_cancelAll (records : List Record) (s : Site) : Yields s (cancelAll records s) := by
  rw [cancelAll_eq]
  exact .of_eq rfl rfl rfl

theorem yields_tearDown (handles : List Handle) (s : Site) : Yields s (s.tearDown handles) := by
  refine Yields.foldl ?_ s handles
  intro s h
  obtain ⟨_, events, journal, _, told, _⟩ := tearDownOne_cases s h
  obtain ⟨_, _, _, heq⟩ := tearDownOne_eq s h
  refine .of_told ?_ ?_ journal fun event he => Event.isPlacing_of_isCall (told event he).2
  all_goals rw [heq]

theorem yields_noteEmptied (c : ContainerId) (s : Site) (r : Record) :
    Yields s (s.noteEmptied c r) := by
  refine (yields_log s (e := .reported (.lastProxyRemoved r.endpoint.id c)) rfl).trans ?_
  unfold noteEmptied
  dsimp only
  split
  · next ok =>
    have ok : s.settings.releaseOnRemoval = true := ok
    refine ⟨rfl, [.emptied r.endpoint], rfl, by simp [Event.takes], fun l => ?_⟩
    dsimp only [report, log]
    rw [Locations.contains_release]
    simp [Event.frees, ok]
  · next no =>
    have no : s.settings.releaseOnRemoval = false := eq_false_of_ne_true no
    refine ⟨rfl, [.emptied r.endpoint], rfl, by simp [Event.takes], fun l => ?_⟩
    simp [report, log, Event.frees, no]

theorem yields_removeReference (c : ContainerId) (reference : Nat) (s : Site) :
    Yields s (s.removeReference c reference) := by
  have withdrawn : Yields s { s with ledger := (s.ledger.withdrawReference c reference).2 } :=
    .of_eq rfl rfl rfl
  have start := withdrawn.trans (yields_cancelAll
    (s.ledger.withdrawReference c reference).1.disposed _)
  unfold removeReference
  dsimp only
  split
  · exact start
  · exact (start.trans (yields_tearDown _ _)).trans (Yields.foldl (yields_noteEmptied c) _ _)

theorem yields_deliver (listeners : List Listener) (removal : Removal) (s : Site) :
    Yields s (s.deliver listeners removal) := by
  refine Yields.foldl ?_ s listeners
  intro s l
  unfold hear
  split
  · exact yields_log s rfl
  · split
    · exact yields_removeReference _ _ _
    · exact Yields.refl s

theorem yields_releaseLedger (s : Site) : Yields s s.releaseLedger := by
  rw [releaseLedger_eq]
  exact .of_eq rfl rfl rfl

theorem yields_unavailable (e : Endpoint) (s : Site) : Yields s (s.unavailable e) := by
  have left : Yields s (log (.left e) (cancelAll (s.ledger.withdrawEndpoint e.id).1
      { s with
        locations := (s.locations.release e.location).2
        ledger := (s.ledger.withdrawEndpoint e.id).2 })) := by
    rw [cancelAll_eq]
    refine ⟨rfl, [.left e], rfl, by simp [Event.takes], fun l => ?_⟩
    dsimp only [log]
    rw [Locations.contains_release]
    simp [Event.frees]
  unfold unavailable
  dsimp only
  split
  · exact left
  · exact (left.trans (yields_tearDown _ _)).trans (yields_log _ rfl)

theorem yields_bypass {c : Command} (h : c.bypassesImporter = true) (s : Site) :
    Yields s (s.perform c) := by
  refine .of_eq (leavesJobs_bypass h s).fixed.settings ?_
    (journal_meddle (isMeddling_of_bypasses h) s)
  cases c with
  | unregister a =>
    unfold perform
    dsimp only
    split <;> rfl
  | record e c reference a x =>
    unfold perform record
    dsimp only
    rw [cancel_eq]
  | unrecordEndpoint e =>
    unfold perform unrecordEndpoint
    dsimp only
    rw [cancelAll_eq]
  | unrecordReference c reference =>
    unfold perform unrecordReference
    dsimp only
    rw [cancelAll_eq]
  | _ => cases h

theorem yields_discard (r : Resolution) (s : Site) : Yields s (s.discard r) := by
  obtain ⟨f, _, heq⟩ := discard_eq r s
  rw [heq]
  exact .of_told rfl rfl rfl (by simp [Event.isPlacing])

theorem yields_recordRegistered (r : Resolution) (c : Candidate) (x : Option Subscription)
    (reference : Reference) (properties : Properties) (h : Handle) (store : ServiceSpace)
    (s : Site) : Yields s (s.recordRegistered r c x reference properties h store).site := by
  obtain ⟨u, hu⟩ : ∃ u, u =
      ((s.withStore store).log (.called (.register h properties))).noteImport h reference :=
    ⟨_, rfl⟩
  obtain ⟨_, _, _, _, events, journal, calls⟩ := registered_cases hu
  have registered : Yields s u := by
    refine .of_told ?_ ?_ journal fun event he => Event.isPlacing_of_isCall (calls event he)
    all_goals
      rw [hu, noteImport_eq]
      rfl
  unfold recordRegistered
  rw [recordProxy_eq, ← hu]
  dsimp only
  split
  · refine registered.trans ?_
    exact .of_told rfl rfl rfl (by simp [Event.isPlacing])
  · exact registered.trans ((yields_log u rfl).trans (yields_tearDown _ _))

/-! ## Every change -/

theorem Performed.yields_or {c : Command} (done : Performed s c t)
    (own : c.placesLocation = false) : Yields s t ∨ ∃ e, t = s.available e := by
  cases done with
  | surround h =>
    left
    apply Yields.of_eq
    all_goals rw [h]
  | place _ h => simp [own] at h
  | report r => exact .inl (yields_log s rfl)
  | available e _ => exact .inr ⟨e, rfl⟩
  | unavailable e _ => exact .inl (yields_unavailable e s)
  | shutdown =>
    rw [shutdown_eq]
    exact .inl (.of_eq rfl rfl rfl)
  | collect => exact .inl (.of_told rfl rfl rfl (by simp [Event.isPlacing]))
  | dropImporter keepLedger =>
    refine .inl (Yields.trans ?_ (yields_releaseLedger _))
    exact .of_eq rfl rfl rfl
  | attach =>
    obtain ⟨added, heq⟩ := attach_eq s
    rw [heq]
    exact .inl (.of_eq rfl rfl rfl)
  | abortFeed i =>
    rw [abortFeed_eq]
    exact .inl (.of_eq rfl rfl rfl)
  | withdrawService key reference =>
    unfold Site.withdrawService
    split
    · split
      · exact .inl (Yields.refl s)
      · refine .inl (Yields.trans ?_ (yields_deliver _ _ _))
        exact .of_told rfl rfl rfl (by simp [Event.isPlacing])
    · exact .inl (Yields.refl s)
  | emit key reference host =>
    unfold Site.emit
    split
    · exact .inl (Yields.refl s)
    · exact .inl (yields_deliver _ _ _)
  | bypass h => exact .inl (yields_bypass h s)

theorem Change.yields_or {m n : Moment} (change : Change allowed m n) :
    Yields m.site n.site ∨ (∃ e, n.site = m.site.available e) ∨
      ∃ c, allowed c ∧ c.placesLocation = true ∧ n.site = m.site.perform c := by
  cases change with
  | @perform s p c ok _ =>
    cases places : c.placesLocation with
    | true => exact .inr (.inr ⟨c, ok, places, rfl⟩)
    | false => exact ((performed s c).yields_or places).imp_right .inl
  | report r => exact .inl (yields_log _ rfl)
  | plan _ | take _ | queue _ _ _ | enter _ _ _ | resume _ _ | countLookups _ | await _ _ _
  | read _ _ _ _ | rest | finish _ | abandon _ _ _ => exact .inl (.of_eq rfl rfl rfl)
  | release => exact .inl (yields_releaseLedger _)
  | discard _ _ | drop _ _ => exact .inl (yields_discard _ _)
  | @complete s r outcome =>
    obtain ⟨f, report, _, heq⟩ := complete_eq r outcome s
    rw [heq]
    exact .inl (.of_told rfl rfl rfl (by simp [Event.isPlacing]))
  | subscribe c _ =>
    rw [subscribe_eq]
    exact .inl (.of_told rfl rfl rfl (by simp [Event.isPlacing]))
  | prepare _ _ => exact .inl (.of_told rfl rfl rfl (by simp [Event.isPlacing]))
  | refuse _ => exact .inl (yields_log _ rfl)
  | fault _ _ => exact .inl (Yields.refl _)
  | register _ _ => exact .inl (yields_recordRegistered _ _ _ _ _ _ _ _)
  | unsubscribe => exact .inl (yields_cancel _ _)
  | @notify s i news => exact ((performed_notify news s).yields_or rfl).imp_right .inl

/-! ## A location is taken once -/

/-- What the journal tells of a location is so, as far as nobody goes past the importer there: if
nobody may release it directly, it is accepted when it is told to be taken, and a resolution was
only started for it when it was not; if nobody may accept it directly, it is told to be taken when
it is accepted. -/
structure Retained (allowed : Command → Prop) (l : Location) (s : Site) : Prop where
  accepted : ¬ allowed (.releaseLocation l) → taken s.settings l s.journal = true →
    s.locations.contains l = true
  told : ¬ allowed (.acceptLocation l) → s.locations.contains l = true →
    taken s.settings l s.journal = true
  fresh : ¬ allowed (.releaseLocation l) → ∀ before n e after,
    s.journal = before ++ .started n e :: after → e.location = l →
      taken s.settings l before = false

theorem Retained.yields (retained : Retained allowed l s) (h : Yields s t) :
    Retained allowed l t := by
  obtain ⟨events, journal, none, freed⟩ := h.journal
  have later : taken t.settings l t.journal =
      (taken s.settings l s.journal && events.all (!·.frees s.settings l)) := by
    rw [h.settings, journal, taken_append_of_not_takes fun event he => none event he l]
  refine ⟨fun own => ?_, fun own => ?_, fun own before n e after split same => ?_⟩
  · rw [later, freed, Bool.and_eq_true, Bool.and_eq_true]
    exact And.imp_left (retained.accepted own)
  · rw [later, freed, Bool.and_eq_true, Bool.and_eq_true]
    exact And.imp_left (retained.told own)
  · have old : .started n e ∉ events := by
      intro hmem
      have := none _ hmem e.location
      simp [Event.takes] at this
    obtain ⟨rest, split, _⟩ := exists_of_append_eq (journal.symm.trans split) old
    rw [h.settings]
    exact retained.fresh own before n e rest split same

theorem Retained.start (retained : Retained allowed l s) {n : Nat} {e : Endpoint}
    (free : s.locations.contains e.location = false) (settings : t.settings = s.settings)
    (locations : t.locations = { accepted := s.locations.accepted ++ [e.location] })
    (journal : t.journal = s.journal ++ [.started n e]) : Retained allowed l t := by
  have later : taken t.settings l t.journal = true ↔
      taken s.settings l s.journal = true ∨ e.location = l := by
    rw [settings, journal]
    unfold taken
    rw [List.foldl_append]
    simp [Event.holds, Event.takes, Event.frees]
  have contains : t.locations.contains l = true ↔
      s.locations.contains l = true ∨ e.location = l := by
    rw [locations, Locations.contains_iff, Locations.contains_iff]
    simp [eq_comm]
  refine ⟨fun own => ?_, fun own => ?_, fun own before n' e' after split same => ?_⟩
  · rw [later, contains]
    exact Or.imp_left (retained.accepted own)
  · rw [later, contains]
    exact Or.imp_left (retained.told own)
  · rw [settings]
    rcases last_or_before (journal.symm.trans split) with ⟨rfl, started, _⟩ | ⟨rest, split, _⟩
    · obtain ⟨_, rfl⟩ := Event.started.inj started
      refine eq_false_of_ne_true fun held => ?_
      have accepted := retained.accepted own held
      rw [← same, free] at accepted
      cases accepted
    · exact retained.fresh own before n' e' rest split same

theorem Retained.available (retained : Retained allowed l s) (e : Endpoint) :
    Retained allowed l (s.available e) := by
  cases known : s.locations.contains e.location with
  | true =>
    rw [available_of_contains known]
    exact retained.yields (yields_log s rfl)
  | false =>
    obtain ⟨events, hevents⟩ : ∃ events, events = Event.arrived e ::
        (if e.interfaces.isEmpty then [.reported (.noInterfaces e.id)] else []) := ⟨_, rfl⟩
    have other : ∀ event ∈ events, event.isPlacing = false := by
      rw [hevents]
      split <;> simp [Event.isPlacing]
    -- The start is told last, after what has nothing to do with locations.
    have told : Retained allowed l { s with journal := s.journal ++ events } :=
      retained.yields (.of_told rfl rfl rfl other)
    refine told.start (n := s.started) known ?_ ?_ ?_
    all_goals rw [available_of_not_contains known]
    rw [← hevents]
    exact (List.append_assoc _ _ _).symm

theorem contains_place {c : Command} (places : c.placesLocation = true) (s : Site) :
    (s.perform c).locations.contains l = s.locations.contains l ∨
      (c = .acceptLocation l ∧ (s.perform c).locations.contains l = true) ∨
      (c = .releaseLocation l ∧ (s.perform c).locations.contains l = false) := by
  cases c with
  | acceptLocation k =>
    by_cases same : k = l
    · subst same
      exact .inr (.inl ⟨rfl, Locations.contains_iff.2 (Locations.mem_accept.2 (.inr rfl))⟩)
    · left
      rw [Bool.eq_iff_iff, Locations.contains_iff, Locations.contains_iff]
      exact Locations.mem_accept.trans (or_iff_left fun h => same h.symm)
  | releaseLocation k =>
    have released : (s.perform (.releaseLocation k)).locations.contains l =
        (s.locations.contains l && !(k == l)) := Locations.contains_release _ _ _
    by_cases same : k = l
    · subst same
      exact .inr (.inr ⟨rfl, by simp [released]⟩)
    · exact .inl (by simp [released, same])
  | _ => cases places

theorem Retained.place (retained : Retained allowed l s) {c : Command} (ok : allowed c)
    (places : c.placesLocation = true) : Retained allowed l (s.perform c) := by
  have same : (s.perform c).settings = s.settings ∧ (s.perform c).journal = s.journal := by
    cases c <;> first | exact ⟨rfl, rfl⟩ | cases places
  rcases contains_place (l := l) places s with contains | ⟨rfl, contains⟩ | ⟨rfl, contains⟩
  · constructor
    all_goals rw [same.1, same.2]
    · rw [contains]
      exact retained.accepted
    · rw [contains]
      exact retained.told
    · exact retained.fresh
  · exact ⟨fun _ _ => contains, fun own => absurd ok own, retained.fresh⟩
  · exact ⟨fun own => absurd ok own, fun _ held => by simp [contains] at held,
      fun own => absurd ok own⟩

theorem retained_build {b : Blueprint} (built : build b = .ok s) : Retained allowed l s := by
  have none : taken s.settings l s.journal = false := by
    rcases (build_eq built).2 with journal | journal
    · rw [journal]
      rfl
    · rw [journal]
      rfl
  have locations : s.locations = {} := by rw [(build_eq built).1]
  refine ⟨fun _ held => ?_, fun _ held => ?_, fun _ before n e after split _ => ?_⟩
  · rw [none] at held
    cases held
  · rw [locations] at held
    cases held
  · have there : .started n e ∈ s.journal := by
      rw [split]
      simp
    exact absurd rfl (Event.ne_started_of_isMinor (minor_build built _ there) n e)

theorem Change.retained {m n : Moment} (change : Change allowed m n)
    (retained : Retained allowed l m.site) : Retained allowed l n.site := by
  rcases change.yields_or with yields | ⟨e, result⟩ | ⟨c, ok, places, result⟩
  · exact retained.yields yields
  · rw [result]
    exact retained.available e
  · rw [result]
    exact retained.place ok places

/-- The accepted locations are those that the journal tells to be taken, and a resolution was only
started for a location that was not. -/
structure Lent (s : Site) : Prop where
  accepted : ∀ l, s.locations.contains l = taken s.settings l s.journal
  fresh : ∀ before n e after, s.journal = before ++ .started n e :: after →
    taken s.settings e.location before = false

theorem Reachable.lent (h : Reachable allowed s)
    (own : ∀ c, allowed c → c.placesLocation = false) : Lent s := by
  have retained : ∀ l, Retained allowed l s := fun l =>
    (h.invariant (I := fun m => Retained allowed l m.site) retained_build
      fun _ change retained => change.retained retained).2
  have accepts : ∀ l, ¬ allowed (.acceptLocation l) := fun l ok => by cases own _ ok
  have releases : ∀ l, ¬ allowed (.releaseLocation l) := fun l ok => by cases own _ ok
  constructor
  · intro l
    rw [Bool.eq_iff_iff]
    exact ⟨(retained l).told (accepts l), (retained l).accepted (releases l)⟩
  · intro before n e after split
    exact (retained _).fresh (releases _) before n e after split rfl

/-- Between two resolutions for one location it was given free, if the second was started while it
was not taken. -/
theorem freed_between {before between : List Event} {n : Nat} {e : Endpoint}
    (free : taken settings e.location (before ++ .started n e :: between) = false) :
    ∃ event ∈ between, event.frees settings e.location = true := by
  by_contra none
  have kept : ∀ event ∈ between, event.frees settings e.location = false := fun event he =>
    eq_false_of_ne_true fun frees => none ⟨event, he, frees⟩
  rw [taken_of_started kept] at free
  cases free

theorem Lent.started_once (lent : Lent s) {before after : List Event}
    (told : s.journal = before ++ after) {l : Location}
    (kept : ∀ event ∈ after, event.frees s.settings l = false) {n n' : Nat} {e e' : Endpoint}
    (h : .started n e ∈ after) (h' : .started n' e' ∈ after) (hl : e.location = l)
    (hl' : e'.location = l) : e = e' := by
  -- The later of two would have needed a release after the earlier.
  have apart : ∀ {x y m m'} (A B C), after = A ++ .started m x :: B ++ .started m' y :: C →
      x.location = l → y.location = l → False := by
    intro x y m m' A B C split hx hy
    have told : s.journal = ((before ++ A) ++ .started m x :: B) ++ .started m' y :: C := by
      simp [told, split]
    have free := lent.fresh _ m' y C told
    rw [hy, ← hx] at free
    obtain ⟨event, he, frees⟩ := freed_between free
    rw [hx, kept event (by simp [split, he])] at frees
    cases frees
  obtain ⟨A, B, split⟩ := List.append_of_mem h
  rw [split] at h'
  rcases List.mem_append.1 h' with h' | h'
  · obtain ⟨C, D, rfl⟩ := List.append_of_mem h'
    exact (apart C D B split hl' hl).elim
  · rcases List.mem_cons.1 h' with heq | h'
    · exact (Event.started.inj heq).2.symm
    · obtain ⟨C, D, rfl⟩ := List.append_of_mem h'
      rw [← List.cons_append, ← List.append_assoc] at split
      exact (apart A C D split hl hl').elim

/-! ## Who recorded what -/

/-- What was recorded, a resolution recorded that was in flight. -/
def Attributed (s : Site) : Prop :=
  ∀ before e c reference h admission after,
    s.journal = before ++ .recorded e c reference h admission :: after → ∃ n, InFlight before n e

theorem Attributed.silent (a : Attributed s) {events : List Event}
    (journal : t.journal = s.journal ++ events)
    (silent : ∀ event ∈ events, event.recordedHandle? = none) : Attributed t := by
  intro before e c reference h admission after told
  have old : .recorded e c reference h admission ∉ events := fun hmem => by cases silent _ hmem
  obtain ⟨rest, told, _⟩ := exists_of_append_eq (journal.symm.trans told) old
  exact a before e c reference h admission rest told

theorem Attributed.rests (a : Attributed s) (h : Rests s t) : Attributed t := by
  obtain ⟨events, journal, none⟩ := h.journal
  exact a.silent journal fun event he => Event.recordedHandle?_of_isImport (none event he)

theorem Attributed.log (a : Attributed s) {e : Event} (h : e.recordedHandle? = none) :
    Attributed (s.log e) :=
  a.silent rfl (by simpa using h)

theorem Attributed.record (a : Attributed s) {e : Endpoint} {c : Candidate} {reference : Reference}
    {h : Handle} {admission : Admission} {n : Nat} (flight : InFlight s.journal n e)
    (journal : t.journal = s.journal ++ [.recorded e c reference h admission]) :
    Attributed t := by
  intro before e' c' reference' h' admission' after told
  rcases last_or_before (journal.symm.trans told) with ⟨rfl, same, _⟩ | ⟨rest, told, _⟩
  · obtain ⟨rfl, _⟩ := Event.recorded.inj same
    exact ⟨n, flight⟩
  · exact a before e' c' reference' h' admission' rest told

theorem Phase.resolution?_of_import? {p : Phase} {r : Resolution} {c : Candidate}
    {x : Option Subscription} (h : p.import? = some (r, c, x)) : p.resolution? = some r := by
  cases p with
  | importing _ _ _ | registering _ _ _ _ _ => exact congrArg (Option.map (·.1)) h
  | _ => cases h

theorem Advance.attributed {m n : Moment} (advance : Advance m n) (coherent : Coherent allowed m)
    (j : Journaled m.site) (a : Attributed m.site) : Attributed n.site := by
  cases advance with
  | rests rests _ _ => exact a.rests rests
  | opens r c y rests _ _ _ => exact (a.log rfl).rests rests
  | makes c reference rests _ _ => exact (a.log rfl).rests rests
  | registers r c x reference registration h store i phase _ result site _ =>
    obtain ⟨_, _, events, calls, recorded⟩ :=
      importing_recordRegistered r c x reference registration.properties h store m.site result
    rw [← site] at recorded
    have silent : ∀ event ∈ events, event.recordedHandle? = none := fun event he =>
      Event.recordedHandle?_of_isImport (Event.isImport_of_isCall (calls event he))
    rcases recorded with ⟨admission, _, _, journal, _⟩ | ⟨_, _, journal, _⟩
    · have told : Attributed { m.site with journal := m.site.journal ++ events } :=
        a.silent rfl silent
      obtain ⟨now, hnow, hid, hendpoint, _⟩ :=
        coherent.turn r (Phase.resolution?_of_import? phase)
      have flight : InFlight (m.site.journal ++ events) now.id r.endpoint := by
        rw [← hendpoint]
        refine (j.inFlight now hnow).append fun event he => ?_
        rw [Event.ends?_of_isMinor (Event.isMinor_of_isCall (calls event he))]
        simp
      exact told.record flight journal
    · exact a.silent journal silent

theorem Reachable.attributed (h : Reachable (·.bypassesImporter = false) s) : Attributed s := by
  refine (h.invariant (I := fun m => Journaled m.site ∧ Attributed m.site) ?_ ?_).2.2
  · intro b s built
    refine ⟨journaled_build built, ?_⟩
    intro before e c reference h admission after told
    have there : .recorded e c reference h admission ∈ s.journal := by
      rw [told]
      simp
    rcases (build_eq built).2 with journal | journal
    · rw [journal] at there
      cases there
    · rw [journal] at there
      simp at there
  · intro m n coherent change ⟨j, a⟩
    have inside : ∀ c : Command, c.bypassesImporter = false → c.bypassesImporter = false :=
      fun _ ok => ok
    exact ⟨j.course coherent.numbered (change.course inside coherent),
      ((change.stride coherent).advance inside).attributed coherent j a⟩

/-! ## Two endpoints at one location -/

/-- An endpoint id has a resolution in flight or a record for a location. -/
def Occupies (s : Site) (l : Location) (id : String) : Prop :=
  (∃ r ∈ s.resolutions, r.endpoint.location = l ∧ r.endpoint.id = id) ∨
    ∃ q ∈ s.ledger.records, q.endpoint.location = l ∧ q.key.endpointId = id

/-- What an endpoint id has at a location goes back to the first part of a journal: a resolution was
in flight at the end of that part, or a record was made in it and not again since. -/
def LeftOver (before after : List Event) (s : Site) (l : Location) (id : String) : Prop :=
  (∃ n e, InFlight before n e ∧ e.location = l ∧ e.id = id) ∨
    ∃ q ∈ s.ledger.records, q.endpoint.location = l ∧ q.key.endpointId = id ∧
      (∃ event ∈ before, event.making? = some q.key) ∧
      ∀ event ∈ after, event.making? ≠ some q.key

/-- Wherever a journal is cut, a record was made before and not again since, or a resolution made it
that was in flight then or was started since. -/
theorem Made.before_or_since {q : Record} (made : Made s q) (a : Attributed s)
    {before after : List Event} (told : s.journal = before ++ after) :
    ((∃ event ∈ before, event.making? = some q.key) ∧
        ∀ event ∈ after, event.making? ≠ some q.key) ∨
      ∃ n, InFlight before n q.endpoint ∨ .started n q.endpoint ∈ after := by
  obtain ⟨old, c, since, reference, h, rest, making, _, last, hkey, _⟩ := made
  obtain ⟨n, flight⟩ := a _ _ _ _ _ _ _ making
  rw [told] at making
  -- The making is after the cut, right at it, or before it.
  rcases List.append_eq_append_iff.1 making with ⟨between, first, split⟩ | ⟨between, first, split⟩
  · rw [first] at flight
    refine .inr ⟨n, flight.before_or_since.imp_right fun started => ?_⟩
    rw [split]
    exact List.mem_append_left _ started
  · cases between with
    | nil =>
      rw [List.append_nil] at first
      rw [← first] at flight
      exact .inr ⟨n, .inl flight⟩
    | cons making between =>
      obtain ⟨rfl, rfl⟩ := List.cons.inj split
      refine .inl ⟨⟨_, first ▸ List.mem_append_right _ List.mem_cons_self, ?_⟩, ?_⟩
      · rw [Event.making?, hkey]
      · intro event he
        exact last event (List.mem_append_right _ he)

/-- While a location is not given free, one endpoint id at most has anything there, apart from what
was left over from before. -/
theorem endpoint_of_occupies
    (h : Reachable (fun c => c.bypassesImporter = false ∧ c.placesLocation = false) s)
    {before after : List Event} (told : s.journal = before ++ after) (l : Location)
    (kept : ∀ event ∈ after, event.frees s.settings l = false) :
    ∃ id, ∀ id', s.Occupies l id' → id' = id ∨ LeftOver before after s l id' := by
  have inside : Reachable (·.bypassesImporter = false) s := h.mono fun _ ok => ok.1
  have lent := h.lent fun _ ok => ok.2
  -- Whatever is not left over belongs to a resolution that was started since.
  have since : ∀ id, s.Occupies l id → LeftOver before after s l id ∨
      ∃ n e, .started n e ∈ after ∧ e.location = l ∧ e.id = id := by
    rintro id (⟨r, hr, hl, hid⟩ | ⟨q, hq, hl, hid⟩)
    · have flight := inside.journaled.inFlight r hr
      rw [told] at flight
      rcases flight.before_or_since with flight | started
      · exact .inl (.inl ⟨r.id, r.endpoint, flight, hl, hid⟩)
      · exact .inr ⟨r.id, r.endpoint, started, hl, hid⟩
    · have made := inside.made (fun _ ok => ok) hq
      have endpoint : q.endpoint.id = id := by
        obtain ⟨_, _, _, _, _, _, _, _, _, hkey, _⟩ := made
        rw [← hid, hkey]
      rcases made.before_or_since inside.attributed told with ⟨there, last⟩ | ⟨n, flight | started⟩
      · exact .inl (.inr ⟨q, hq, hl, hid, there, last⟩)
      · exact .inl (.inl ⟨n, q.endpoint, flight, hl, endpoint⟩)
      · exact .inr ⟨n, q.endpoint, started, hl, endpoint⟩
  by_cases started : ∃ n e, .started n e ∈ after ∧ e.location = l
  · obtain ⟨n, e, hstarted, hl⟩ := started
    refine ⟨e.id, fun id' occupies => ?_⟩
    rcases since id' occupies with left | ⟨n', e', hstarted', hl', hid⟩
    · exact .inr left
    · rw [← hid, lent.started_once told kept hstarted hstarted' hl hl']
      exact .inl rfl
  · refine ⟨"", fun id' occupies => .inr ?_⟩
    rcases since id' occupies with left | ⟨n, e, hstarted, hl, _⟩
    · exact left
    · exact absurd ⟨n, e, hstarted, hl⟩ started

/-- Another endpoint at the location of the lamp. -/
def bellEndpoint : Endpoint := { lampEndpoint with id := "bell" }

/-- A lamp that left before its resolution had a turn, and another endpoint that came after it. -/
def sharedInFlight : Site :=
  ((litSite.perform (.available lampEndpoint)).perform (.unavailable lampEndpoint)).perform
    (.available bellEndpoint)

/-- A lamp that was imported, and another endpoint that was told to leave before it came. -/
def sharedImported : Site :=
  ((((litSite.perform (.available lampEndpoint)).poll (.resolution 0)).perform
    (.unavailable bellEndpoint)).perform (.available bellEndpoint)).poll (.resolution 1)

theorem reachable_sharedInFlight : Reachable (·.isRoutine = true) sharedInFlight :=
  .perform (.perform (.perform (reachable_litSite rfl) rfl fun _ => rfl) rfl fun _ => rfl) rfl
    fun _ => rfl

theorem reachable_sharedImported : Reachable (·.isRoutine = true) sharedImported :=
  .poll (.perform (.perform (.poll (.perform (reachable_litSite rfl) rfl fun _ => rfl)) rfl
    fun _ => rfl) rfl fun _ => rfl)

theorem endpoint_of_occupies_shared :
    sharedImported.ledger.records.map (·.key.endpointId) = ["lamp", "bell"] ∧
    ∃ id, ∀ id', sharedImported.Occupies lampEndpoint.location id' → id' = id ∨
      LeftOver (sharedImported.journal.take 10) (sharedImported.journal.drop 10) sharedImported
        lampEndpoint.location id' := by
  have reachable : Reachable (fun c => c.bypassesImporter = false ∧ c.placesLocation = false)
      sharedImported := by
    refine reachable_sharedImported.mono fun c routine => ?_
    cases c <;> first | exact ⟨rfl, rfl⟩ | cases routine
  refine ⟨by rfl, endpoint_of_occupies reachable (List.take_append_drop _ _).symm _ ?_⟩
  decide

/-- One endpoint id at most has anything at a location. -/
def Exclusive (s : Site) : Prop :=
  ∀ l id id', s.Occupies l id → s.Occupies l id' → id = id'

/-- Two endpoints can have resolutions or records for one location: leaving gives the location free
and stops no resolution, and it takes no records but those of its own endpoint. -/
theorem not_exclusive :
    (¬ ∀ s, Reachable (·.isRoutine = true) s → s.ledger.records = [] → Exclusive s) ∧
      ¬ ∀ s, Reachable (·.isRoutine = true) s → s.resolutions = [] → Exclusive s := by
  constructor
  · intro claim
    have exclusive := claim _ reachable_sharedInFlight rfl
    have lamp : sharedInFlight.Occupies lampEndpoint.location "lamp" :=
      .inl ⟨_, .head _, rfl, rfl⟩
    have bell : sharedInFlight.Occupies lampEndpoint.location "bell" :=
      .inl ⟨_, .tail _ (.head _), rfl, rfl⟩
    exact absurd (exclusive _ _ _ lamp bell) (by decide)
  · intro claim
    have exclusive := claim _ reachable_sharedImported rfl
    have lamp : sharedImported.Occupies lampEndpoint.location "lamp" :=
      .inr ⟨_, .head _, rfl, rfl⟩
    have bell : sharedImported.Occupies lampEndpoint.location "bell" :=
      .inr ⟨_, .tail _ (.head _), rfl, rfl⟩
    exact absurd (exclusive _ _ _ lamp bell) (by decide)

end Site

end ServiceImport

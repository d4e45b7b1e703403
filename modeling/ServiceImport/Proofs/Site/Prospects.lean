import ServiceImport.Proofs.Ledger.Entries
import ServiceImport.Proofs.Site.Turns

/-! # What comes of a resolution

What a resolution comes to can be told beforehand. It depends on what containers and adapters offer
and on the record of its endpoint, and these do not change while other endpoints are imported. Each
piece of a resolution comes to what was told, and leaves the records of other endpoints alone.
-/

namespace ServiceImport

/-- A service space that notes a reference, unless it keeps no table of imports. -/
def ServiceSpace.noted (plain : Bool) (id : Nat) (reference : Reference) (s : ServiceSpace) :
    ServiceSpace :=
  if plain then s else s.imported id reference

/-- A service space with one registration more, for a reference. -/
def ServiceSpace.filled (plain : Bool) (reference : Reference) (registration : Registration)
    (s : ServiceSpace) : ServiceSpace :=
  noted plain (s.issued + 1) reference
    { s with entries := s.entries ++ [(s.issued + 1, registration)], issued := s.issued + 1 }

theorem ServiceSpace.issued_filled (plain : Bool) (reference : Reference)
    (registration : Registration) (s : ServiceSpace) :
    (s.filled plain reference registration).issued = s.issued + 1 := by
  cases plain <;> rfl

/-! ## What stays -/

/-- An adapter as look-ups find it when nothing holds them back. -/
def Adapter.steady (a : Adapter) : Adapter where
  owner := a.owner
  backend := match a.backend with
    | .memory p => .memory p
    | .scripted s => .scripted { s with closed := false, waiting := [] }

theorem Adapter.lookup_steady (a : Adapter) : a.steady.lookup = a.lookup := by
  obtain ⟨owner, backend, listeners, subscribed, lookups⟩ := a
  cases backend <;> rfl

theorem Adapter.remoteService?_steady (a : Adapter) :
    a.steady.remoteService? = a.remoteService? := by
  obtain ⟨owner, backend, listeners, subscribed, lookups⟩ := a
  cases backend <;> rfl

theorem Adapter.steady_withScript {f : Script → Script}
    (same : ∀ x : Script, { f x with closed := false, waiting := [] } =
      ({ x with closed := false, waiting := [] } : Script)) (a : Adapter) :
    (a.withScript f).steady = a.steady := by
  obtain ⟨owner, backend, listeners, subscribed, lookups⟩ := a
  cases backend with
  | memory p => rfl
  | scripted x => exact congrArg (fun x => ({ owner, backend := .scripted x } : Adapter)) (same x)

theorem Adapter.steady_addWaiting (a : Adapter) (n : Nat) : (a.addWaiting n).steady = a.steady :=
  steady_withScript (fun x => by dsimp only; split <;> rfl) a

namespace Site

variable {s t u : Site} {e : Endpoint} {c : Candidate}

/-- The adapters as look-ups find them. -/
def shelf (s : Site) : List (String × Adapter) :=
  (s.adapters.map (·.1)).filterMap fun key => (s.adapter? key).map fun a => (key, a.steady)

/-- A site without what comes and goes while endpoints are imported. -/
def steady (s : Site) : Site :=
  { s with
    settings := { s.settings with limit := 0 }
    adapters := s.shelf
    space := { s.space with store := {} }
    ledger := {}
    locations := {}
    limiter := { free := 0 }
    pending := {}
    resolutions := []
    started := 0
    finished := []
    ready := []
    journal := [] }

theorem lookup_filterMap {α : Type} (keys : List String) (f : String → Option α) (key : String) :
    (keys.filterMap fun k => (f k).map fun a => (k, a)).lookup key =
      if key ∈ keys then f key else none := by
  induction keys with
  | nil => rfl
  | cons k keys ih =>
    cases hk : f k with
    | none =>
      rw [List.filterMap_cons_none (by rw [hk]; rfl), ih]
      by_cases same : key = k
      · simp [same, hk]
      · simp [same]
    | some a =>
      rw [List.filterMap_cons_some (by rw [hk]; rfl), List.lookup_cons, ih]
      by_cases same : key = k
      · simp [same, hk]
      · have other : (key == k) = false := beq_eq_false_iff_ne.2 same
        simp [same, other]

theorem adapter?_steady (s : Site) (key : String) :
    s.steady.adapter? key = (s.adapter? key).map Adapter.steady := by
  have found := lookup_filterMap (s.adapters.map (·.1)) (fun k => (s.adapter? k).map Adapter.steady)
    key
  simp only [Option.map_map] at found
  refine Eq.trans found (ite_eq_left_iff.2 fun unknown => ?_)
  have none : s.adapter? key = none := by
    refine List.lookup_eq_none_iff.2 fun a ha => bne_iff_ne.2 ?_
    rintro rfl
    exact unknown (List.mem_map_of_mem ha)
  rw [none]
  rfl

theorem shelf_updateAdapter {key : String} {f : Adapter → Adapter}
    (same : ∀ a, s.adapter? key = some a → (f a).steady = a.steady) :
    (s.updateAdapter key f).shelf = s.shelf := by
  have keys : (s.updateAdapter key f).adapters.map (·.1) = s.adapters.map (·.1) := by
    unfold updateAdapter
    rw [List.map_map]
    refine List.map_congr_left fun a _ => ?_
    dsimp only [Function.comp]
    split <;> rfl
  unfold shelf
  rw [keys]
  congr 1
  funext k
  rw [adapter?_updateAdapter]
  split
  · next there =>
    subst there
    cases ha : s.adapter? k with
    | none => rfl
    | some a =>
      rw [Option.map_some, Option.map_some, Option.map_some, same a ha]
  · rfl

/-- Whether the gate of an adapter is closed, and who waits there. -/
def gate (s : Site) (key : String) : Option (Bool × List Nat) :=
  (s.adapter? key).map fun a => (a.isClosed, a.waiting)

theorem gate_of_adapters (adapters : t.adapters = s.adapters) : t.gate = s.gate := by
  unfold gate adapter?
  rw [adapters]

theorem gate_updateAdapter {key : String} {f : Adapter → Adapter}
    (same : ∀ a, s.adapter? key = some a → (f a).backend = a.backend) :
    (s.updateAdapter key f).gate = s.gate := by
  funext k
  unfold gate
  rw [adapter?_updateAdapter]
  split
  · next there =>
    subst there
    cases ha : s.adapter? k with
    | none => rfl
    | some a =>
      simp only [Option.map_some, Adapter.isClosed, Adapter.waiting, same a ha]
  · rfl

/-! ## Finding and looking up -/

/-- Only the journal goes on. -/
def Tells (s t : Site) : Prop := ∃ events, t = { s with journal := s.journal ++ events }

theorem Tells.refl (s : Site) : Tells s s := ⟨[], by rw [List.append_nil]⟩

theorem Tells.log (h : Tells s t) (event : Event) : Tells s (t.log event) := by
  obtain ⟨events, rfl⟩ := h
  exact ⟨events ++ [event], by rw [← List.append_assoc]; rfl⟩

theorem Tells.finders (h : Tells s t) : t.finders = s.finders := by
  obtain ⟨events, rfl⟩ := h
  rfl

theorem Tells.adapters (h : Tells s t) : t.adapters = s.adapters := by
  obtain ⟨events, rfl⟩ := h
  rfl

theorem Tells.space (h : Tells s t) : t.space = s.space := by
  obtain ⟨events, rfl⟩ := h
  rfl

theorem Tells.ledger (h : Tells s t) : t.ledger = s.ledger := by
  obtain ⟨events, rfl⟩ := h
  rfl

theorem tells_findManaged (e : Endpoint) (s : Site) : Tells s (s.findManaged e).2 := by
  unfold findManaged findByNamespace
  split
  · split
    · exact .refl s
    · split
      · exact (Tells.refl s).log _
      · exact .refl s
  · exact .refl s

theorem tells_findContainers (e : Endpoint) (s : Site) : Tells s (s.findContainers e).2 := by
  unfold findContainers
  split
  · exact (Tells.refl s).log _
  · dsimp only
    split
    · exact (tells_findManaged e s).log _
    · exact tells_findManaged e s

theorem fst_findContainers (e : Endpoint) (s : Site) :
    (s.findContainers e).1 = s.finders.flatten ++ (if s.managed then
      (s.registry.filter fun d => e.connectNamespace?.any fun ns =>
        d.connectNamespace == some ns).filterMap Candidate.ofContainer? else []) := by
  have managed : (s.findManaged e).1 = if s.managed then
      (s.registry.filter fun d => e.connectNamespace?.any fun ns =>
        d.connectNamespace == some ns).filterMap Candidate.ofContainer? else [] := by
    unfold findManaged findByNamespace
    split
    · cases e.connectNamespace? with
      | none => simp
      | some ns =>
        dsimp only
        split
        · next empty =>
          rw [List.isEmpty_iff.1 empty]
          rfl
        · rfl
    · rfl
  have finders : (s.findManaged e).2.finders = s.finders := (tells_findManaged e s).finders
  unfold findContainers
  split
  · next none =>
    obtain ⟨finders, unmanaged⟩ := Nat.add_eq_zero_iff.1 none
    rw [List.length_eq_zero_iff.1 finders]
    split
    · next h => simp [h] at unmanaged
    · rfl
  · dsimp only
    rw [managed, finders]

theorem findContainers_steady (e : Endpoint) (s : Site) :
    (s.steady.findContainers e).1 = (s.findContainers e).1 := by
  rw [fst_findContainers, fst_findContainers]
  rfl

/-- What a candidate answers for an interface, if there is something. -/
def answer? (e : Endpoint) (c : Candidate) (s : Site) (interface : String) :
    Option (String × List Reference) :=
  match s.answerFor e c interface with
  | .ok [] | .error _ => none
  | .ok references => some (interface, references)

theorem lookUpOne_eq {acc : List (String × List Reference) × Site} (told : Tells s acc.2)
    (e : Endpoint) (c : Candidate) (interface : String) :
    (lookUpOne e c acc interface).1 = acc.1 ++ (s.answer? e c interface).toList ∧
      Tells s (lookUpOne e c acc interface).2 := by
  have same : acc.2.answerFor e c interface = s.answerFor e c interface := by
    obtain ⟨events, heq⟩ := told
    rw [heq]
    rfl
  unfold answer? lookUpOne
  rw [same]
  rcases s.answerFor e c interface with fault | ⟨_ | ⟨r, references⟩⟩
  · exact ⟨(List.append_nil _).symm, told.log _⟩
  · exact ⟨(List.append_nil _).symm, told.log _⟩
  · exact ⟨rfl, told⟩

theorem lookUp_eq (e : Endpoint) (c : Candidate) (s : Site) :
    (s.lookUp e c).1 = e.interfaces.filterMap (s.answer? e c) ∧ Tells s (s.lookUp e c).2 := by
  have all : ∀ acc : List (String × List Reference) × Site, Tells s acc.2 →
      (e.interfaces.foldl (lookUpOne e c) acc).1 =
          acc.1 ++ e.interfaces.filterMap (s.answer? e c) ∧
        Tells s (e.interfaces.foldl (lookUpOne e c) acc).2 := by
    induction e.interfaces with
    | nil => exact fun acc told => ⟨(List.append_nil _).symm, told⟩
    | cons interface rest ih =>
      intro acc told
      obtain ⟨found, told⟩ := lookUpOne_eq told e c interface
      obtain ⟨all, told⟩ := ih _ told
      rw [found, List.append_assoc] at all
      refine ⟨all.trans (congrArg (acc.1 ++ ·) ?_), told⟩
      cases answered : s.answer? e c interface with
      | none =>
        rw [List.filterMap_cons_none answered]
        rfl
      | some answer =>
        rw [List.filterMap_cons_some answered]
        rfl
  exact all ([], s) (.refl s)

theorem lookUp_steady (e : Endpoint) (c : Candidate) (s : Site) :
    (s.steady.lookUp e c).1 = (s.lookUp e c).1 := by
  rw [(lookUp_eq e c s.steady).1, (lookUp_eq e c s).1]
  congr 1
  funext interface
  unfold answer? answerFor
  rw [adapter?_steady]
  cases s.adapter? c.adapter with
  | none => rfl
  | some a =>
    rw [Option.map_some]
    dsimp only
    rw [a.lookup_steady]

theorem prepareProxy_steady (e : Endpoint) (c : Candidate) (r : Reference) (s : Site) :
    s.steady.prepareProxy e c r = s.prepareProxy e c r := by
  unfold prepareProxy
  rw [adapter?_steady]
  cases s.adapter? c.adapter with
  | none => rfl
  | some a =>
    rw [Option.map_some, Option.bind_some, Option.bind_some, a.remoteService?_steady]
    rfl

/-- Whether a proxy for a reference can be made and registered. -/
def registers (e : Endpoint) (c : Candidate) (s : Site) (r : Reference) : Bool :=
  s.space.failRegister.isNone && (s.prepareProxy e c r).toBool

theorem registers_steady (e : Endpoint) (c : Candidate) (s : Site) :
    s.steady.registers e c = s.registers e c := by
  funext r
  unfold registers
  rw [prepareProxy_steady]
  rfl

/-! ## What concerns one endpoint -/

/-- The ledger gets handles, and each of them is new. -/
structure Issues (s t : Site) : Prop where
  issued : s.space.store.issued ≤ t.space.store.issued
  numbers : ∃ new : List Nat,
    (t.ledger.handles.map (·.id)).Perm (new ++ s.ledger.handles.map (·.id)) ∧ new.Nodup ∧
      ∀ n ∈ new, s.space.store.issued < n ∧ n ≤ t.space.store.issued

theorem Issues.of_eq (ledger : t.ledger = s.ledger)
    (issued : t.space.store.issued = s.space.store.issued) : Issues s t where
  issued := Nat.le_of_eq issued.symm
  numbers := ⟨[], by rw [ledger]; exact .refl _, List.nodup_nil, by simp⟩

theorem Issues.trans (hst : Issues s t) (htu : Issues t u) : Issues s u where
  issued := Nat.le_trans hst.issued htu.issued
  numbers := by
    obtain ⟨new, perm, nodup, range⟩ := hst.numbers
    obtain ⟨new', perm', nodup', range'⟩ := htu.numbers
    have issued := hst.issued
    have issued' := htu.issued
    refine ⟨new' ++ new, ?_, List.nodup_append.2 ⟨nodup', nodup, ?_⟩, ?_⟩
    · rw [List.append_assoc]
      exact perm'.trans (perm.append_left new')
    · rintro n hn m hm rfl
      have := range n hm
      have := range' n hn
      omega
    · intro n hn
      rcases List.mem_append.1 hn with hn | hn
      · have := range' n hn
        omega
      · have := range n hn
        omega

/-- An endpoint is imported: its records may change, and what others offer and the records of other
endpoints stay. -/
structure Concerns (e : Endpoint) (s t : Site) : Prop where
  jobs : t = { s with
    ledger := t.ledger
    adapters := t.adapters
    space := { s.space with store := t.space.store }
    journal := t.journal }
  shelf : t.shelf = s.shelf
  gate : t.gate = s.gate
  wellFormed : t.ledger.WellFormed
  others : t.ledger.records.filter (·.key.endpointId != e.id) =
    s.ledger.records.filter (·.key.endpointId != e.id)
  issues : Issues s t

theorem Concerns.of_ledger (wf : s.ledger.WellFormed)
    (jobs : t = { s with adapters := t.adapters, journal := t.journal })
    (shelf : t.shelf = s.shelf) (gate : t.gate = s.gate) : Concerns e s t := by
  have ledger : t.ledger = s.ledger := by rw [jobs]
  have space : t.space = s.space := by rw [jobs]
  refine ⟨?_, shelf, gate, ledger ▸ wf, by rw [ledger], .of_eq ledger (by rw [space])⟩
  rw [ledger, space]
  exact jobs

theorem Tells.concerns (h : Tells s t) (wf : s.ledger.WellFormed) : Concerns e s t := by
  obtain ⟨events, rfl⟩ := h
  exact .of_ledger wf rfl rfl rfl

theorem Concerns.refl (wf : s.ledger.WellFormed) : Concerns e s s := (Tells.refl s).concerns wf

theorem Concerns.trans (hst : Concerns e s t) (htu : Concerns e t u) : Concerns e s u where
  jobs := by
    refine htu.jobs.trans ?_
    conv_lhs => rw [hst.jobs]
  shelf := htu.shelf.trans hst.shelf
  gate := htu.gate.trans hst.gate
  wellFormed := htu.wellFormed
  others := htu.others.trans hst.others
  issues := hst.issues.trans htu.issues

theorem Concerns.steady (h : Concerns e s t) : t.steady = s.steady := by
  unfold Site.steady
  rw [h.shelf, h.jobs]

/-! ## One reference -/

theorem interfaces_of_prepareProxy {r : Reference} {registration : Registration}
    (ok : s.prepareProxy e c r = .ok registration) :
    registration.interfaces = r.classes ∧ r.classes ≠ [] := by
  unfold prepareProxy at ok
  split at ok
  · cases ok
  · split at ok
    · cases ok
    · next proxy _ some =>
      cases proxy with
      | error fault => cases ok
      | ok proxied =>
        obtain rfl := Except.ok.inj ok
        exact ⟨rfl, fun none => some (List.isEmpty_iff.2 none)⟩

theorem tail_interruptions {x : SpaceFront} (calm : x.interruptions = []) :
    { x with interruptions := x.interruptions.tail } = x := by
  obtain ⟨store, plain, failRegister, failUnregister, interruptions⟩ := x
  obtain rfl : interruptions = [] := calm
  rfl

theorem register_of_calm (calm : s.space.interruptions = []) (registration : Registration) :
    s.register registration = match s.space.failRegister with
      | some reason => (.error (.serviceSpace reason),
          s.log (.called (.registerFailed registration.interfaces)))
      | none => match s.space.store.register registration with
        | .error fault => (.error fault, s)
        | .ok (h, store) =>
          (.ok h, (s.withStore store).log (.called (.register h registration.properties))) := by
  unfold register
  rw [tail_interruptions calm, calm]
  rfl

theorem register_of_check {l : Ledger} {r : Reference}
    (passed : l.check ⟨c.id, e.id⟩ r.id = .ok ()) (h : Handle) (x : Option Subscription) :
    ∃ admission ledger, l.register e c.id r h x = .ok (admission, ledger) := by
  unfold Ledger.register
  dsimp only
  rw [passed]
  dsimp only
  split
  · exact ⟨_, _, rfl⟩
  · exact ⟨_, _, rfl⟩

theorem tells_noteImport (h : Handle) (reference : Reference) (s : Site) :
    Tells { s with space := { s.space with
      store := s.space.store.noted s.space.plain h.id reference } } (s.noteImport h reference) := by
  unfold noteImport ServiceSpace.noted
  split
  · exact .refl s
  · exact (Tells.refl _).log _

/-- A reference is refused by the ledger, its proxy cannot be registered, or it is recorded. -/
theorem importOne_cases (calm : s.space.interruptions = []) (e : Endpoint) (c : Candidate)
    (x : Option Subscription) (tally : Tally) (r : Reference) {i : Importing}
    (result : i = importOne e c ⟨s, x, tally⟩ r) :
    ((∃ rejection, s.ledger.check ⟨c.id, e.id⟩ r.id = .error rejection) ∧ Tells s i.site ∧
        i.subscription = x ∧ i.tally = { tally with rejected := tally.rejected + 1 }) ∨
      (s.ledger.check ⟨c.id, e.id⟩ r.id = .ok () ∧ s.registers e c r = false ∧ Tells s i.site ∧
        i.subscription = x ∧ i.tally = tally) ∨
      (s.ledger.check ⟨c.id, e.id⟩ r.id = .ok () ∧ s.registers e c r = true ∧
        ∃ registration admission ledger, s.prepareProxy e c r = .ok registration ∧
          s.ledger.register e c.id r ⟨s.space.store.issued + 1, r.classes⟩ x =
            .ok (admission, ledger) ∧
          Tells { s with
            ledger
            space := { s.space with
              store := s.space.store.filled s.space.plain r registration } } i.site ∧
          i.subscription = (match admission with
            | .created => none
            | .joined => x) ∧
          i.tally = { tally with registered := tally.registered + 1 }) := by
  subst result
  unfold importOne
  dsimp only
  cases hcheck : s.ledger.check ⟨c.id, e.id⟩ r.id with
  | error rejection => exact .inl ⟨⟨rejection, rfl⟩, (Tells.refl s).log _, rfl, rfl⟩
  | ok _ =>
    refine .inr ?_
    unfold registers registerProxy
    dsimp only
    cases hprepare : s.prepareProxy e c r with
    | error fault =>
      exact .inl ⟨rfl, Bool.and_false _, (Tells.refl s).log _, rfl, rfl⟩
    | ok registration =>
      obtain ⟨interfaces, some⟩ := interfaces_of_prepareProxy hprepare
      have proxied : (s.log (.proxied c r)).space.interruptions = [] := calm
      dsimp only
      rw [register_of_calm proxied]
      have fails : (s.log (.proxied c r)).space.failRegister = s.space.failRegister := rfl
      rw [fails]
      cases hfail : s.space.failRegister with
      | some reason =>
        exact .inl ⟨rfl, rfl, (((Tells.refl s).log _).log _).log _, rfl, rfl⟩
      | none =>
        obtain ⟨h, store, registered⟩ : ∃ h store,
            s.space.store.register registration = .ok (h, store) :=
          ⟨_, _, ServiceSpace.register_eq_ok_iff.2 ⟨interfaces ▸ some, rfl, rfl⟩⟩
        obtain ⟨_, rfl, hstore⟩ := ServiceSpace.register_eq_ok_iff.1 registered
        obtain ⟨admission, ledger, recorded⟩ :=
          register_of_check hcheck ⟨s.space.store.issued + 1, r.classes⟩ x
        refine .inr ⟨rfl, rfl, registration, admission, ledger, rfl, recorded, ?_⟩
        have filled : store.noted s.space.plain (s.space.store.issued + 1) r =
            s.space.store.filled s.space.plain r registration := by
          rw [hstore]
          rfl
        obtain ⟨events, noted⟩ := tells_noteImport
          ⟨s.space.store.issued + 1, registration.interfaces⟩ r
          (((s.log (.proxied c r)).withStore store).log (.called (.register
            ⟨s.space.store.issued + 1, registration.interfaces⟩ registration.properties)))
        have same : (s.log (.proxied c r)).space.store = s.space.store := rfl
        dsimp only
        rw [same, registered]
        dsimp only
        rw [noted, recordProxy_eq]
        dsimp only [log, withStore]
        rw [interfaces, recorded, filled]
        dsimp only
        rw [List.append_assoc, List.append_assoc, List.append_assoc, ← hfail]
        exact ⟨⟨_, rfl⟩, rfl, rfl⟩

theorem Concerns.record (wf : s.ledger.WellFormed) {r : Reference} {x : Option Subscription}
    {a : Admission} {ledger : Ledger} {store : ServiceSpace}
    (ok : s.ledger.register e c.id r ⟨s.space.store.issued + 1, r.classes⟩ x = .ok (a, ledger))
    (issued : store.issued = s.space.store.issued + 1)
    (told : Tells { s with ledger, space := { s.space with store } } t) : Concerns e s t := by
  obtain ⟨events, rfl⟩ := told
  refine ⟨rfl, rfl, rfl, wf.register ok, Ledger.others_register ok, ?_, [s.space.store.issued + 1],
    (Ledger.handles_register wf ok).map (·.id), List.nodup_singleton _, ?_⟩
  · dsimp only
    omega
  · intro n hn
    rw [List.mem_singleton.1 hn]
    dsimp only
    omega

end Site

/-! ## Prospects -/

/-- What a resolution has come to, and the record of its endpoint. -/
structure Prospect where
  tally : Tally
  record : Option Record

namespace Prospect

variable {e : Endpoint} {c : Candidate}

/-- What comes of a reference. -/
def offered (e : Endpoint) (c : Candidate) (registers : Reference → Bool) (p : Prospect)
    (r : Reference) : Prospect :=
  if p.record.any fun q => q.key.container != c.id || q.maps r.id then
    { p with tally := { p.tally with rejected := p.tally.rejected + 1 } }
  else if registers r then
    { tally := { p.tally with registered := p.tally.registered + 1 }
      record := some (match p.record with
        | some q => { q with mappings := q.mappings ++ [(r, ⟨0, r.classes⟩)] }
        | none =>
          { key := ⟨c.id, e.id⟩, endpoint := e, mappings := [(r, ⟨0, r.classes⟩)]
            subscription := some ⟨c.adapter, 0⟩ }) }
  else p

/-- What comes of a candidate that need not be waited for. -/
def through (s : Site) (e : Endpoint) (p : Prospect) (c : Candidate) : Prospect :=
  let found := (s.lookUp e c).1
  if found.isEmpty then p
  else (Site.firstOfEach (found.flatMap (·.2))).foldl (offered e c (s.registers e c))
    { p with tally := { p.tally with anyReferences := true } }

/-- What comes of candidates one after another. -/
def throughAll (s : Site) (e : Endpoint) (candidates : List Candidate) (p : Prospect) : Prospect :=
  candidates.foldl (through s e) p

def result (p : Prospect) : Outcome × Option Record := (p.tally.outcome, p.record)

end Prospect

/-- What a resolution comes to that got so far. -/
def Site.Progress.result (s : Site) (e : Endpoint) (record : Option Record) :
    Progress → Outcome × Option Record
  | .done outcome => (outcome, record)
  | .waiting c rest tally => (Prospect.throughAll s e (c :: rest) ⟨tally, record⟩).result

/-- What a resolution comes to at its stage. -/
def Stage.result (s : Site) (e : Endpoint) (record : Option Record) :
    Stage → Outcome × Option Record
  | .lookingUp c rest tally => (Site.Progress.waiting c rest tally).result s e record
  | .fresh | .queued | .admitted | .running =>
    let candidates := (s.findContainers e).1
    if candidates.isEmpty then (.noContainers, record)
    else (Prospect.throughAll s e candidates ⟨{}, record⟩).result

namespace Site

variable {s t u : Site} {e : Endpoint} {c : Candidate}

/-- What a resolution of an endpoint has come to at a site. -/
def prospect (s : Site) (e : Endpoint) (tally : Tally) : Prospect :=
  ⟨tally, s.ledger.recordOf? e.id⟩

theorem Concerns.calm (h : Concerns e s t) (calm : s.space.interruptions = []) :
    t.space.interruptions = [] := by
  rw [h.jobs]
  exact calm

theorem Concerns.registers (h : Concerns e s t) : t.registers e c = s.registers e c := by
  rw [← registers_steady, h.steady, registers_steady]

theorem importOne_prospect (calm : s.space.interruptions = []) (wf : s.ledger.WellFormed)
    (x : Option Subscription) (tally : Tally) (r : Reference) {i : Importing}
    (hand : s.ledger.recordOf? e.id = none → x.map ({ · with id := 0 }) = some ⟨c.adapter, 0⟩)
    (result : i = importOne e c ⟨s, x, tally⟩ r) :
    Concerns e s i.site ∧
      i.site.prospect e i.tally = (s.prospect e tally).offered e c (s.registers e c) r ∧
      (i.site.ledger.recordOf? e.id = none →
        i.subscription.map ({ · with id := 0 }) = some ⟨c.adapter, 0⟩) := by
  have objection : s.ledger.check ⟨c.id, e.id⟩ r.id = .ok () ↔
      (s.ledger.recordOf? e.id).any (fun q => q.key.container != c.id || q.maps r.id) = false :=
    Ledger.check_eq_ok_iff_recordOf? wf
  rcases importOne_cases calm e c x tally r result with
    ⟨⟨rejection, refused⟩, told, left, count⟩ | ⟨passed, fails, told, left, count⟩ |
      ⟨passed, registers, registration, admission, ledger, _, ok, told, left, count⟩
  · have ledger : i.site.ledger = s.ledger := told.ledger
    refine ⟨told.concerns wf, ?_, by rw [ledger, left]; exact hand⟩
    rw [refused] at objection
    have objects : (s.ledger.recordOf? e.id).any
        (fun q => q.key.container != c.id || q.maps r.id) = true := by
      refine eq_true_of_ne_false fun free => ?_
      cases objection.2 free
    unfold Site.prospect Prospect.offered
    dsimp only
    rw [ledger, objects, count]
    rfl
  · have ledger : i.site.ledger = s.ledger := told.ledger
    refine ⟨told.concerns wf, ?_, by rw [ledger, left]; exact hand⟩
    unfold Site.prospect Prospect.offered
    dsimp only
    rw [ledger, objection.1 passed, fails, count]
    rfl
  · have site : i.site.ledger = ledger := told.ledger
    have entry := Ledger.recordOf?_register wf ok
    refine ⟨.record wf ok (ServiceSpace.issued_filled ..) told, ?_, fun none => ?_⟩
    · unfold Site.prospect Prospect.offered
      dsimp only
      rw [site, objection.1 passed, registers, count]
      rcases entry with ⟨_, q, before, after⟩ | ⟨_, before, after⟩
      · rw [before, after]
        rfl
      · rw [before, after, hand before]
        rfl
    · rw [site] at none
      rcases entry with ⟨_, q, _, after⟩ | ⟨_, _, after⟩
      · cases none.symm.trans after
      · cases none.symm.trans after

/-! ## One candidate -/

theorem shelf_subscribe (key : String) (l : Listener) (s : Site) :
    (s.subscribe key l).2.shelf = s.shelf := by
  unfold subscribe
  split
  · rfl
  · next a there =>
    refine shelf_updateAdapter fun b hb => ?_
    obtain rfl := Option.some.inj (there.symm.trans hb)
    rfl

theorem shelf_cancel (o : Option Subscription) (s : Site) : (s.cancel o).shelf = s.shelf := by
  cases o with
  | none => rfl
  | some x => exact shelf_updateAdapter fun _ _ => rfl

theorem gate_subscribe (key : String) (l : Listener) (s : Site) :
    (s.subscribe key l).2.gate = s.gate := by
  unfold subscribe
  split
  · rfl
  · next a there =>
    refine gate_updateAdapter fun b hb => ?_
    obtain rfl := Option.some.inj (there.symm.trans hb)
    rfl

theorem gate_cancel (o : Option Subscription) (s : Site) : (s.cancel o).gate = s.gate := by
  cases o with
  | none => rfl
  | some x => exact gate_updateAdapter fun _ _ => rfl

theorem shelf_countLookups (e : Endpoint) (c : Candidate) (s : Site) :
    (s.countLookups e c).shelf = s.shelf :=
  shelf_updateAdapter fun _ _ => rfl

theorem importRefs_prospect (references : List Reference) {i : Importing}
    (calm : i.site.space.interruptions = []) (wf : i.site.ledger.WellFormed)
    (hand : i.site.ledger.recordOf? e.id = none →
      i.subscription.map ({ · with id := 0 }) = some ⟨c.adapter, 0⟩) {j : Importing}
    (result : j = references.foldl (importOne e c) i) :
    Concerns e i.site j.site ∧
      j.site.prospect e j.tally = references.foldl
        (Prospect.offered e c (i.site.registers e c)) (i.site.prospect e i.tally) := by
  induction references generalizing i with
  | nil =>
    subst result
    exact ⟨.refl wf, rfl⟩
  | cons r references ih =>
    obtain ⟨concerns, admitted, hand⟩ :=
      importOne_prospect calm wf i.subscription i.tally r hand rfl
    obtain ⟨rest, all⟩ := ih (concerns.calm calm) concerns.wellFormed hand result
    refine ⟨concerns.trans rest, all.trans ?_⟩
    rw [admitted, concerns.registers]
    rfl

theorem Concerns.cancel (wf : s.ledger.WellFormed) (x : Option Subscription) :
    Concerns e s (s.cancel x) := by
  refine .of_ledger wf ?_ (shelf_cancel x s) (gate_cancel x s)
  rw [cancel_eq]

/-- Where an import through a candidate that told of references starts. -/
def outset (c : Candidate) (tally : Tally) (s : Site) : Importing where
  site := (s.subscribe c.adapter (.importer c.id)).2.log (.opened c)
  subscription := (s.subscribe c.adapter (.importer c.id)).1
  tally := { tally with anyReferences := true }

theorem importAll_eq (references : List Reference) (tally : Tally) :
    s.importAll e c references tally =
      let i := (firstOfEach references).foldl (importOne e c) (s.outset c tally)
      (i.tally, i.site.cancel i.subscription) := rfl

theorem Concerns.outset (wf : s.ledger.WellFormed) (c : Candidate) (tally : Tally) :
    Concerns e s (s.outset c tally).site := by
  refine .of_ledger wf ?_ (shelf_subscribe _ _ s) (gate_subscribe _ _ s)
  unfold Site.outset
  rw [subscribe_eq]
  rfl

theorem ledger_outset (c : Candidate) (tally : Tally) (s : Site) :
    (s.outset c tally).site.ledger = s.ledger := by
  unfold outset
  rw [subscribe_eq]
  rfl

theorem hand_outset (there : (s.adapter? c.adapter).isSome = true) (tally : Tally) :
    (s.outset c tally).subscription.map ({ · with id := 0 }) = some ⟨c.adapter, 0⟩ := by
  obtain ⟨a, ha⟩ := Option.isSome_iff_exists.1 there
  unfold outset subscribe
  rw [ha]
  rfl

theorem importAll_prospect (calm : s.space.interruptions = []) (wf : s.ledger.WellFormed)
    (there : (s.adapter? c.adapter).isSome = true) (references : List Reference)
    {tally tally' : Tally} (result : s.importAll e c references tally = (tally', t)) :
    Concerns e s t ∧ t.prospect e tally' = (firstOfEach references).foldl
      (Prospect.offered e c (s.registers e c))
      (s.prospect e { tally with anyReferences := true }) := by
  have opened : Concerns e s (s.outset c tally).site := .outset wf c tally
  obtain ⟨j, hj⟩ : ∃ j, j = (firstOfEach references).foldl (importOne e c) (s.outset c tally) :=
    ⟨_, rfl⟩
  obtain ⟨imported, all⟩ := importRefs_prospect (firstOfEach references) (opened.calm calm)
    opened.wellFormed (fun _ => hand_outset there tally) hj
  rw [importAll_eq, ← hj] at result
  obtain ⟨rfl, rfl⟩ := Prod.mk.inj result
  refine ⟨opened.trans (imported.trans (.cancel imported.wellFormed j.subscription)), ?_⟩
  have kept : (j.site.cancel j.subscription).ledger = j.site.ledger := by rw [cancel_eq]
  unfold Site.prospect at all ⊢
  rw [kept, all, opened.registers, ledger_outset]
  rfl

theorem importThrough_prospect (calm : s.space.interruptions = []) (wf : s.ledger.WellFormed)
    (tally : Tally) {tally' : Tally} (result : s.importThrough e c tally = (tally', t)) :
    Concerns e s t ∧ t.prospect e tally' = (s.prospect e tally).through s.steady e c := by
  have told := (lookUp_eq e c s).2
  have looked : Concerns e s (s.lookUp e c).2 := told.concerns wf
  unfold importThrough at result
  unfold Prospect.through
  rw [lookUp_steady, registers_steady]
  dsimp only at result ⊢
  split at result
  · next none =>
    rw [if_pos none]
    obtain ⟨rfl, rfl⟩ := Prod.mk.inj result
    refine ⟨looked, ?_⟩
    unfold Site.prospect
    rw [told.ledger]
  · next found =>
    rw [if_neg found]
    have there := isSome_of_lookUp (mt List.isEmpty_iff.2 found)
    obtain ⟨imported, all⟩ :=
      importAll_prospect (looked.calm calm) looked.wellFormed there _ result
    refine ⟨looked.trans imported, all.trans ?_⟩
    unfold Site.prospect
    rw [looked.registers, told.ledger]

/-! ## Whole resolutions -/

theorem Concerns.countLookups (wf : s.ledger.WellFormed) : Concerns e s (s.countLookups e c) :=
  .of_ledger wf rfl (shelf_countLookups e c s) (gate_updateAdapter fun _ _ => rfl)

/-- A resolution that asks candidates comes to what they all give, now or when it goes on. -/
theorem resolveThrough_result (calm : s.space.interruptions = []) (wf : s.ledger.WellFormed)
    (candidates : List Candidate) (tally : Tally) {progress : Progress}
    (result : resolveThrough e candidates tally s = (progress, t)) :
    Concerns e s t ∧ progress.result s.steady e (t.ledger.recordOf? e.id) =
      (Prospect.throughAll s.steady e candidates (s.prospect e tally)).result := by
  induction candidates generalizing s tally with
  | nil =>
    obtain ⟨rfl, rfl⟩ := Prod.mk.inj result
    exact ⟨.refl wf, rfl⟩
  | cons c rest ih =>
    have counted : Concerns e s (s.countLookups e c) := .countLookups wf
    unfold resolveThrough at result
    dsimp only at result
    split at result
    · obtain ⟨rfl, rfl⟩ := Prod.mk.inj result
      exact ⟨counted, rfl⟩
    · obtain ⟨⟨tally', u⟩, hthrough⟩ : ∃ p, (s.countLookups e c).importThrough e c tally = p :=
        ⟨_, rfl⟩
      rw [hthrough] at result
      obtain ⟨imported, all⟩ :=
        importThrough_prospect (counted.calm calm) counted.wellFormed tally hthrough
      have before := counted.trans imported
      obtain ⟨concerns, rest⟩ := ih (before.calm calm) imported.wellFormed tally' result
      refine ⟨before.trans concerns, ?_⟩
      rw [before.steady, all, counted.steady] at rest
      exact rest

theorem resumeThrough_result (calm : s.space.interruptions = []) (wf : s.ledger.WellFormed)
    (candidates : List Candidate) (tally : Tally) {progress : Progress}
    (result : resumeThrough e c candidates tally s = (progress, t)) :
    Concerns e s t ∧ progress.result s.steady e (t.ledger.recordOf? e.id) =
      (Stage.lookingUp c candidates tally).result s.steady e (s.ledger.recordOf? e.id) := by
  unfold resumeThrough at result
  split at result
  · obtain ⟨rfl, rfl⟩ := Prod.mk.inj result
    exact ⟨.refl wf, rfl⟩
  · obtain ⟨⟨tally', u⟩, hthrough⟩ : ∃ p, s.importThrough e c tally = p := ⟨_, rfl⟩
    rw [hthrough] at result
    obtain ⟨imported, all⟩ := importThrough_prospect calm wf tally hthrough
    obtain ⟨concerns, rest⟩ :=
      resolveThrough_result (imported.calm calm) imported.wellFormed candidates tally' result
    refine ⟨imported.trans concerns, ?_⟩
    rw [imported.steady, all] at rest
    exact rest

theorem resolve_result (calm : s.space.interruptions = []) (wf : s.ledger.WellFormed)
    {progress : Progress} (result : s.resolve e = (progress, t)) :
    Concerns e s t ∧ progress.result s.steady e (t.ledger.recordOf? e.id) =
      Stage.fresh.result s.steady e (s.ledger.recordOf? e.id) := by
  have found : Concerns e s (s.findContainers e).2 := (tells_findContainers e s).concerns wf
  have ledger : (s.findContainers e).2.ledger = s.ledger := (tells_findContainers e s).ledger
  unfold resolve at result
  unfold Stage.result
  dsimp only at result ⊢
  rw [findContainers_steady]
  split at result
  · next none =>
    obtain ⟨rfl, rfl⟩ := Prod.mk.inj result
    rw [if_pos none]
    refine ⟨((tells_findContainers e s).log _).concerns wf, ?_⟩
    rw [← ledger]
    rfl
  · next candidates =>
    rw [if_neg candidates]
    obtain ⟨concerns, all⟩ :=
      resolveThrough_result (found.calm calm) found.wellFormed _ {} result
    refine ⟨found.trans concerns, ?_⟩
    rw [found.steady] at all
    refine all.trans ?_
    unfold Site.prospect
    rw [ledger]

end Site

end ServiceImport

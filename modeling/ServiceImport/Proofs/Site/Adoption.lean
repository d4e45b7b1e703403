import ServiceImport.Proofs.Site.Importables

/-! # What a resolution adopts

A resolution that is not interrupted offers what can be imported through its candidates to the
ledger, one after another. Nothing else that it does is seen in the records, among the registrations
or among the listeners.
-/

namespace ServiceImport.Site

variable {s t : Site} {e : Endpoint} {c : Candidate} {r : Reference}
  {describe : Endpoint → Endpoint}

/-! ## Listening for a while -/

theorem attending_of_audience (audience : t.audience = s.audience) : t.attending = s.attending := by
  unfold attending
  rw [audience]

theorem attending_subscribe {key : String} (there : (s.adapter? key).isSome = true)
    (l : Listener) : (s.subscribe key l).2.attending =
      Function.update s.attending key (s.attending key ++ [l]) := by
  obtain ⟨a, ha⟩ := Option.isSome_iff_exists.1 there
  have audience : s.audience key = some (a.listeners, a.subscribed) := by
    unfold Site.audience
    rw [ha]
    rfl
  funext k
  unfold attending
  rw [audience_subscribe]
  by_cases same : k = key
  · subst same
    rw [if_pos rfl, Function.update_self, audience]
    simp
  · rw [if_neg same, Function.update_of_ne same]

theorem attending_cancel_subscribe (placed : Placed s) (key : String) (l : Listener) :
    ((s.subscribe key l).2.cancel (s.subscribe key l).1).attending = s.attending := by
  rw [fst_subscribe]
  cases audience : s.audience key with
  | none =>
    refine attending_of_audience (funext fun k => ?_)
    rw [Option.map_none, cancel, audience_subscribe]
    split
    · next same => rw [same, audience]; rfl
    · rfl
  | some a =>
    funext k
    unfold attending
    rw [Option.map_some, cancel, audience_unsubscribe, audience_subscribe]
    split
    · next same =>
      subst same
      rw [audience]
      -- The others have older numbers.
      have others : a.1.filter (·.1 != a.2 + 1) = a.1 := by
        refine List.filter_eq_self.2 fun m hm => ?_
        have := placed.issued audience m hm
        simp only [bne_iff_ne]
        omega
      simp [List.filter_append, others]
    · rfl

/-! ## One reference -/

theorem Tells.cancel (told : Tells s t) (x : Option Subscription) :
    Tells (s.cancel x) (t.cancel x) := by
  obtain ⟨events, rfl⟩ := told
  cases x with
  | none => exact ⟨events, rfl⟩
  | some x => exact ⟨events, rfl⟩

theorem Tells.holdings (told : Tells s t) : t.holdings describe = s.holdings describe := by
  obtain ⟨events, rfl⟩ := told
  rfl

/-- What an import has added to, apart from the listener at hand. -/
def Importing.holdings (describe : Endpoint → Endpoint) (i : Importing) : Holdings :=
  (i.site.cancel i.subscription).holdings describe

/-- An import through a candidate: unless a record took it, it has a subscription at hand with which
it is the last to listen on the adapter. -/
structure Engaged (e : Endpoint) (c : Candidate) (i : Importing) : Prop where
  calm : i.site.space.interruptions = []
  wellFormed : i.site.ledger.WellFormed
  placed : Placed i.site
  hand : i.site.ledger.contains e.id = false →
    i.subscription.map ({ · with id := 0 }) = some ⟨c.adapter, 0⟩
  heard : ∀ x, i.subscription = some x → i.site.attending = Function.update
    (i.site.cancel (some x)).attending c.adapter
    ((i.site.cancel (some x)).attending c.adapter ++ [.importer c.id])

theorem attending_cancel_of_adapters (adapters : t.adapters = s.adapters)
    (x : Option Subscription) : (t.cancel x).attending = (s.cancel x).attending := by
  refine attending_of_audience (KeepsAdapters.of_eq ?_).audience
  cases x with
  | none => exact adapters
  | some x =>
    unfold cancel unsubscribe updateAdapter
    rw [adapters]

theorem Engaged.of_tells {i j : Importing} (engaged : Engaged e c i)
    (describe : Endpoint → Endpoint) (told : Tells i.site j.site)
    (left : j.subscription = i.subscription) :
    Engaged e c j ∧ j.holdings describe = i.holdings describe := by
  refine ⟨?_, ?_⟩
  · have concerns : Concerns e i.site j.site := told.concerns engaged.wellFormed
    refine ⟨concerns.calm engaged.calm, concerns.wellFormed,
      engaged.placed.of_adapters told.adapters, by rw [told.ledger, left]; exact engaged.hand,
      fun x at_hand => ?_⟩
    rw [attending_cancel_of_adapters told.adapters, ← engaged.heard x (left ▸ at_hand)]
    exact attending_cancel_of_adapters told.adapters none
  · unfold Importing.holdings
    rw [left]
    exact (told.cancel i.subscription).holdings

theorem holdings_cancel (x : Option Subscription) (s : Site) :
    (s.cancel x).holdings describe =
      ⟨s.ledger.outline describe, s.space.store, (s.cancel x).attending⟩ := by
  cases x <;> rfl

/-- A reference is adopted if it can be imported, and otherwise leaves no trace. -/
theorem importOne_adopts {i j : Importing} (engaged : Engaged e c i)
    (same : (describe e).id = e.id) (result : j = importOne e c i r) :
    Concerns e i.site j.site ∧ Engaged e c j ∧ j.holdings describe =
      ((i.site.registration? e c r).map fun g => (⟨c, r, g⟩ : Importable)).toList.foldl
        (Holdings.adopt i.site.space.plain (describe e)) (i.holdings describe) := by
  obtain ⟨s, x, tally⟩ := i
  have offered (h : Handle) : (s.ledger.outline describe).register (describe e) c.id r h
      (some ⟨c.adapter, 0⟩) =
        (s.ledger.register e c.id r h x).map fun p => (p.1, p.2.outline describe) :=
    Ledger.register_offered same engaged.hand
  rcases importOne_cases engaged.calm e c x tally r result with
    ⟨⟨rejection, refused⟩, told, left, _⟩ | ⟨_, fails, told, left, _⟩ |
      ⟨_, registers, g, admission, ledger, prepared, ok, told, left, _⟩
  · obtain ⟨engaged', kept⟩ := engaged.of_tells describe told left
    refine ⟨told.concerns engaged.wellFormed, engaged', kept.trans ?_⟩
    have error (h : Handle) : s.ledger.register e c.id r h x = .error rejection := by
      unfold Ledger.register
      dsimp only
      rw [refused]
    cases s.registration? e c r with
    | none => rfl
    | some g =>
      unfold Importing.holdings Holdings.adopt
      rw [holdings_cancel]
      dsimp only [Option.map_some, Option.toList_some, List.foldl_cons, List.foldl_nil]
      rw [offered, error]
      rfl
  · obtain ⟨engaged', kept⟩ := engaged.of_tells describe told left
    refine ⟨told.concerns engaged.wellFormed, engaged', kept.trans ?_⟩
    have none : s.registration? e c r = none := by
      rw [← Option.not_isSome_iff_eq_none, isSome_registration?, fails]
      exact Bool.false_ne_true
    rw [none]
    rfl
  · have some : s.registration? e c r = some g := registration?_eq_some_iff.2 ⟨registers, prepared⟩
    have concerns : Concerns e s j.site :=
      .record engaged.wellFormed ok (ServiceSpace.issued_filled ..) told
    obtain ⟨site, y, tally'⟩ := j
    dsimp only at told left concerns
    have adapters : site.adapters = s.adapters := told.adapters
    have recorded : site.ledger = ledger := told.ledger
    have store : site.space.store = s.space.store.filled s.space.plain r g := by rw [told.space]
    refine ⟨concerns, ⟨concerns.calm engaged.calm, concerns.wellFormed,
      engaged.placed.of_adapters adapters, fun unknown => ?_, fun z at_hand => ?_⟩, ?_⟩
    · dsimp only at unknown
      rw [recorded, Ledger.contains_register ok] at unknown
      cases unknown
    · -- Only a record that was joined leaves the subscription.
      obtain rfl : y = Option.some z := at_hand
      cases admission with
      | created => cases left
      | joined =>
        rw [attending_cancel_of_adapters adapters, ← engaged.heard z left.symm]
        exact attending_cancel_of_adapters adapters none
    · unfold Importing.holdings Holdings.adopt
      rw [some, holdings_cancel, holdings_cancel]
      dsimp only [Option.map_some, Option.toList_some, List.foldl_cons, List.foldl_nil]
      rw [offered, ok, recorded, store, attending_cancel_of_adapters adapters, left]
      cases admission with
      | joined => rfl
      | created =>
        have new : s.ledger.contains e.id = false := by
          obtain ⟨_, ⟨h, _⟩ | ⟨_, new, _⟩⟩ := Ledger.register_ok ok
          · cases h
          · exact new
        obtain ⟨z, rfl, _⟩ := Option.map_eq_some_iff.1 (engaged.hand new)
        dsimp only [Except.map]
        rw [← engaged.heard z rfl]
        rfl

theorem Concerns.registration? (h : Concerns e s t) :
    t.registration? e c = s.registration? e c := by
  rw [← registration?_steady, h.steady, registration?_steady]

theorem Concerns.importables (h : Concerns e s t) (c : Candidate) :
    t.importables e c = s.importables e c := by
  rw [← importables_steady, h.steady, importables_steady]

theorem Concerns.plain (h : Concerns e s t) : t.space.plain = s.space.plain := by
  rw [h.jobs]

theorem importRefs_adopt (references : List Reference) {i j : Importing} (engaged : Engaged e c i)
    (same : (describe e).id = e.id) (result : j = references.foldl (importOne e c) i) :
    Concerns e i.site j.site ∧ Engaged e c j ∧ j.holdings describe =
      (references.filterMap fun r =>
        (i.site.registration? e c r).map fun g => (⟨c, r, g⟩ : Importable)).foldl
        (Holdings.adopt i.site.space.plain (describe e)) (i.holdings describe) := by
  induction references generalizing i with
  | nil =>
    subst result
    exact ⟨.refl engaged.wellFormed, engaged, rfl⟩
  | cons r references ih =>
    obtain ⟨concerns, engaged', adopted⟩ := importOne_adopts engaged same rfl
    obtain ⟨rest, last, all⟩ := ih engaged' result
    refine ⟨concerns.trans rest, last, all.trans ?_⟩
    rw [adopted, concerns.registration?, concerns.plain, ← List.foldl_append,
      List.filterMap_eq_flatMap_toList, List.filterMap_eq_flatMap_toList, List.flatMap_cons]

/-! ## One candidate -/

theorem engaged_outset (calm : s.space.interruptions = []) (wf : s.ledger.WellFormed)
    (placed : Placed s) (there : (s.adapter? c.adapter).isSome = true) (tally : Tally) :
    Engaged e c (s.outset c tally) where
  calm := (Concerns.outset (e := e) wf c tally).calm calm
  wellFormed := (Concerns.outset (e := e) wf c tally).wellFormed
  placed := (placed.subscribe c.adapter (.importer c.id)).of_adapters rfl
  hand _ := hand_outset there tally
  heard x at_hand := by
    have cancelled : ((s.subscribe c.adapter (.importer c.id)).2.cancel (some x)).attending =
        s.attending := by
      rw [← at_hand]
      exact attending_cancel_subscribe placed c.adapter (.importer c.id)
    exact (attending_subscribe there _).trans (by rw [← cancelled]; rfl)

theorem holdings_outset (placed : Placed s) (c : Candidate) (tally : Tally) :
    (s.outset c tally).holdings describe = s.holdings describe := by
  have space : (s.outset c tally).site.space = s.space := by
    unfold outset
    rw [subscribe_eq]
    rfl
  have adapters : (s.outset c tally).site.adapters =
      (s.subscribe c.adapter (.importer c.id)).2.adapters := rfl
  have attending : ((s.outset c tally).site.cancel (s.outset c tally).subscription).attending =
      s.attending :=
    (attending_cancel_of_adapters adapters _).trans (attending_cancel_subscribe placed _ _)
  unfold Importing.holdings
  rw [holdings_cancel, ledger_outset, space, attending]
  rfl

theorem importAll_adopts (calm : s.space.interruptions = []) (wf : s.ledger.WellFormed)
    (placed : Placed s) (there : (s.adapter? c.adapter).isSome = true)
    (same : (describe e).id = e.id) (references : List Reference) {tally tally' : Tally}
    (result : s.importAll e c references tally = (tally', t)) :
    Concerns e s t ∧ Placed t ∧ t.holdings describe =
      ((firstOfEach references).filterMap fun r =>
        (s.registration? e c r).map fun g => (⟨c, r, g⟩ : Importable)).foldl
        (Holdings.adopt s.space.plain (describe e)) (s.holdings describe) := by
  have opened : Concerns e s (s.outset c tally).site := .outset wf c tally
  obtain ⟨concerns, last, adopted⟩ := importRefs_adopt (firstOfEach references)
    (engaged_outset calm wf placed there tally) same rfl
  rw [importAll_eq] at result
  obtain ⟨rfl, rfl⟩ := Prod.mk.inj result
  rw [holdings_outset placed, opened.registration?, opened.plain] at adopted
  exact ⟨opened.trans (concerns.trans (.cancel last.wellFormed _)), last.placed.cancel _, adopted⟩

theorem importThrough_adopts (calm : s.space.interruptions = []) (wf : s.ledger.WellFormed)
    (placed : Placed s) (same : (describe e).id = e.id) {tally tally' : Tally}
    (result : s.importThrough e c tally = (tally', t)) :
    Concerns e s t ∧ Placed t ∧ t.holdings describe =
      (s.importables e c).foldl (Holdings.adopt s.space.plain (describe e))
        (s.holdings describe) := by
  have looked := (lookUp_eq e c s).2
  have before : Concerns e s (s.lookUp e c).2 := looked.concerns wf
  have placed : Placed (s.lookUp e c).2 := placed.of_adapters looked.adapters
  unfold importThrough at result
  dsimp only at result
  split at result
  · next none =>
    have nothing : s.importables e c = [] := by
      unfold Site.importables
      rw [foundThrough_eq_nil_iff.2 (List.isEmpty_iff.1 none)]
      rfl
    obtain ⟨rfl, rfl⟩ := Prod.mk.inj result
    exact ⟨before, placed, by rw [nothing]; exact looked.holdings⟩
  · next found =>
    have there := isSome_of_lookUp (mt List.isEmpty_iff.2 found)
    obtain ⟨concerns, placed, adopted⟩ := importAll_adopts (before.calm calm) before.wellFormed
      placed there same _ result
    refine ⟨before.trans concerns, placed, adopted.trans ?_⟩
    rw [before.registration?, before.plain, looked.holdings, ← foundThrough_eq, Site.importables]

/-! ## Whole resolutions -/

theorem hasToWait_of_gate (gate : t.gate = s.gate) (e : Endpoint) (c : Candidate) :
    t.hasToWait e c = s.hasToWait e c := by
  have closed (s : Site) : (s.adapter? c.adapter).any (·.isClosed) =
      (s.gate c.adapter).any (·.1) := by
    unfold Site.gate
    rw [Option.any_map]
  unfold hasToWait
  rw [closed, closed, gate]

theorem resolveThrough_adopts (calm : s.space.interruptions = []) (wf : s.ledger.WellFormed)
    (placed : Placed s) (same : (describe e).id = e.id) (candidates : List Candidate)
    (opened : ∀ c ∈ candidates, s.hasToWait e c = false) {tally : Tally} {progress : Progress}
    (result : resolveThrough e candidates tally s = (progress, t)) :
    (∃ outcome, progress = .done outcome) ∧ Concerns e s t ∧ t.holdings describe =
      (candidates.flatMap fun c => s.importables e c).foldl
        (Holdings.adopt s.space.plain (describe e)) (s.holdings describe) := by
  induction candidates generalizing s tally with
  | nil =>
    obtain ⟨rfl, rfl⟩ := Prod.mk.inj result
    exact ⟨⟨_, rfl⟩, .refl wf, rfl⟩
  | cons c candidates ih =>
    have counted : Concerns e s (s.countLookups e c) := .countLookups wf
    have audience : (s.countLookups e c).audience = s.audience :=
      (keepsAdapters_countLookups e c s).audience
    have uncounted : (s.countLookups e c).holdings describe = s.holdings describe := by
      unfold Site.holdings
      rw [attending_of_audience audience]
      rfl
    unfold resolveThrough at result
    dsimp only at result
    rw [hasToWait_of_gate counted.gate, opened c List.mem_cons_self] at result
    obtain ⟨⟨tally', u⟩, through⟩ : ∃ p, (s.countLookups e c).importThrough e c tally = p :=
      ⟨_, rfl⟩
    rw [through] at result
    obtain ⟨imported, placed, adopted⟩ := importThrough_adopts (counted.calm calm)
      counted.wellFormed (placed.of_eq audience) same through
    have concerns := counted.trans imported
    have still : ∀ c ∈ candidates, u.hasToWait e c = false := by
      intro d hd
      rw [hasToWait_of_gate concerns.gate]
      exact opened d (List.mem_cons_of_mem c hd)
    obtain ⟨done, rest, all⟩ := ih (concerns.calm calm) concerns.wellFormed placed still result
    refine ⟨done, concerns.trans rest, all.trans ?_⟩
    rw [adopted, uncounted, counted.importables, counted.plain, concerns.plain,
      List.flatMap_cons, List.foldl_append]
    simp only [concerns.importables]

theorem resolve_adopts (calm : s.space.interruptions = []) (wf : s.ledger.WellFormed)
    (placed : Placed s) (same : (describe e).id = e.id)
    (opened : ∀ c ∈ (s.findContainers e).1, s.hasToWait e c = false) {progress : Progress}
    (result : s.resolve e = (progress, t)) :
    (∃ outcome, progress = .done outcome) ∧ Concerns e s t ∧ t.holdings describe =
      ((s.findContainers e).1.flatMap fun c => s.importables e c).foldl
        (Holdings.adopt s.space.plain (describe e)) (s.holdings describe) := by
  have finds := tells_findContainers e s
  have found : Concerns e s (s.findContainers e).2 := finds.concerns wf
  have placed : Placed (s.findContainers e).2 := placed.of_adapters finds.adapters
  unfold resolve at result
  dsimp only at result
  split at result
  · next none =>
    obtain ⟨rfl, rfl⟩ := Prod.mk.inj result
    refine ⟨⟨_, rfl⟩, (finds.log _).concerns wf, ?_⟩
    rw [List.isEmpty_iff.1 none]
    exact (finds.log _).holdings
  · obtain ⟨done, concerns, adopted⟩ := resolveThrough_adopts (found.calm calm) found.wellFormed
      placed same _ (fun c hc => (hasToWait_of_gate found.gate e c).trans (opened c hc)) result
    refine ⟨done, found.trans concerns, adopted.trans ?_⟩
    rw [found.plain, finds.holdings]
    simp only [found.importables]

/-! ## Turns -/

/-- The turn of a resolution, up to where a ledger is disposed that nobody holds any more. -/
def turnOf (r : Resolution) (s : Site) : Site :=
  runResolution r { s with ready := s.ready.erase (.resolution r.id) }

/-- A resolution in flight that runs from its start to its end in one turn: it was not aborted, it
has its permit or gets one, nothing happens within its registrations, and no candidate makes it
wait. -/
structure Undelayed (s : Site) (r : Resolution) : Prop where
  ready : .resolution r.id ∈ s.ready
  inFlight : s.resolution? r.id = some r
  kept : r.aborted = false
  permitted : r.stage = .admitted ∨ (r.stage = .fresh ∧ s.limiter.free ≠ 0)
  calm : s.space.interruptions = []
  opened : ∀ c ∈ (s.findContainers r.endpoint).1, s.hasToWait r.endpoint c = false

theorem Undelayed.poll {r : Resolution} (runs : s.Undelayed r) :
    s.poll (.resolution r.id) = (s.turnOf r).releaseLedger := by
  have there : resolution? { s with ready := s.ready.erase (.resolution r.id) } r.id = some r :=
    runs.inFlight
  unfold Site.poll
  rw [if_pos runs.ready]
  dsimp only
  rw [there]
  rfl

/-- How a resolution leaves a site: it hands out an outcome, adopts what can be imported, and leaves
the records of others and the locations alone. -/
structure Resolves (e : Endpoint) (s t : Site) (outcome : Outcome) : Prop where
  finished : t.finished = s.finished ++ [(e.id, outcome)]
  locations : t.locations = s.locations
  space : t.space = { s.space with store := t.space.store }
  others : t.ledger.records.filter (·.key.endpointId != e.id) =
    s.ledger.records.filter (·.key.endpointId != e.id)
  holdings : ∀ describe : Endpoint → Endpoint, (describe e).id = e.id → t.holdings describe =
    ((s.findContainers e).1.flatMap fun c => s.importables e c).foldl
      (Holdings.adopt s.space.plain (describe e)) (s.holdings describe)
  result : (outcome, t.ledger.recordOf? e.id) =
    Stage.fresh.result s.steady e (s.ledger.recordOf? e.id)

/-- What a resolution finds does not depend on its stage, on permits or on who is ready. -/
theorem Resolves.of_steady {outcome : Outcome} (h : Resolves e s t outcome) {s' : Site}
    (steady : s'.steady = s.steady)
    (holdings : ∀ describe, s'.holdings describe = s.holdings describe)
    (finished : s'.finished = s.finished) (locations : s'.locations = s.locations)
    (space : s'.space = s.space) (ledger : s'.ledger = s.ledger) : Resolves e s' t outcome where
  finished := by rw [finished, h.finished]
  locations := by rw [locations, h.locations]
  space := by rw [space, ← h.space]
  others := by rw [ledger, h.others]
  holdings describe same := by
    have candidates : (s'.findContainers e).1 = (s.findContainers e).1 := by
      rw [← findContainers_steady, steady, findContainers_steady]
    have importables (c : Candidate) : s'.importables e c = s.importables e c := by
      rw [← importables_steady, steady, importables_steady]
    rw [h.holdings describe same, holdings, candidates, space]
    simp only [importables]
  result := by rw [steady, ledger, h.result]

theorem resolves_conclude (calm : s.space.interruptions = []) (wf : s.ledger.WellFormed)
    (placed : Placed s) (r : Resolution)
    (opened : ∀ c ∈ (s.findContainers r.endpoint).1, s.hasToWait r.endpoint c = false) :
    ∃ outcome, Resolves r.endpoint s (conclude r (s.resolve r.endpoint)) outcome := by
  obtain ⟨⟨progress, t⟩, resolved⟩ : ∃ p, s.resolve r.endpoint = p := ⟨_, rfl⟩
  have same : (id r.endpoint).id = r.endpoint.id := rfl
  obtain ⟨⟨outcome, rfl⟩, concerns, _⟩ := resolve_adopts calm wf placed same opened resolved
  obtain ⟨f, report, _, completed⟩ := complete_eq r outcome t
  have ledger : (t.complete r outcome).ledger = t.ledger := by rw [completed]
  have space : (t.complete r outcome).space = t.space := by rw [completed]
  have adapters : (t.complete r outcome).adapters = t.adapters := by rw [completed]
  rw [resolved]
  refine ⟨outcome, ?_, ?_, ?_, ?_, fun describe same => ?_, ?_⟩
  · rw [conclude, completed, concerns.jobs]
  · rw [conclude, completed, concerns.jobs]
  · rw [conclude, space, concerns.jobs]
  · rw [conclude, ledger, concerns.others]
  · obtain ⟨_, _, adopted⟩ := resolve_adopts calm wf placed same opened resolved
    rw [← adopted, conclude]
    unfold Site.holdings
    rw [ledger, space, attending_of_audience (KeepsAdapters.of_eq adapters).audience]
  · rw [conclude, ledger]
    exact (resolve_result calm wf resolved).2

/-- A resolution that is not interrupted comes to what was told of it beforehand, and adopts what
can be imported through its candidates. -/
theorem Undelayed.resolves {r : Resolution} (runs : s.Undelayed r)
    (wf : s.ledger.WellFormed) (placed : Placed s) :
    ∃ outcome, Resolves r.endpoint s (s.turnOf r) outcome := by
  obtain ⟨limiter, begins⟩ : ∃ limiter, s.turnOf r = begin r { s with
      ready := s.ready.erase (.resolution r.id), limiter } := by
    unfold turnOf runResolution
    rw [runs.kept]
    rcases runs.permitted with admitted | ⟨fresh, free⟩
    · rw [admitted]
      exact ⟨s.limiter, rfl⟩
    · have acquired : (s.limiter.acquire r.id).1 = true := by simp [Limiter.acquire, free]
      rw [fresh]
      dsimp only
      rw [acquired]
      exact ⟨_, rfl⟩
  obtain ⟨u, started⟩ : ∃ u, u = setStage r.id .running
      { s with ready := s.ready.erase (.resolution r.id), limiter } := ⟨_, rfl⟩
  have steady : u.steady = s.steady := by rw [started]; rfl
  have candidates : (u.findContainers r.endpoint).1 = (s.findContainers r.endpoint).1 := by
    rw [← findContainers_steady, steady, findContainers_steady]
  have opened : ∀ c ∈ (u.findContainers r.endpoint).1, u.hasToWait r.endpoint c = false := by
    rw [candidates, started]
    exact runs.opened
  obtain ⟨outcome, resolves⟩ := resolves_conclude (s := u) (by rw [started]; exact runs.calm)
    (by rw [started]; exact wf) (placed.of_adapters (by rw [started]; rfl)) r opened
  rw [begins, begin, ← started]
  exact ⟨outcome, resolves.of_steady steady.symm (by rw [started]; exact fun _ => rfl)
    (by rw [started]; rfl) (by rw [started]; rfl) (by rw [started]; rfl) (by rw [started]; rfl)⟩

end ServiceImport.Site

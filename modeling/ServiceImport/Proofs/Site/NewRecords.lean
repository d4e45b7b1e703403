import ServiceImport.Proofs.Site.Adoption

/-! # Endpoints without a record

A resolution of an endpoint that has no record makes one at most. It is filed under the container of
the first candidate through which something can be imported, and what can be imported through other
containers is refused.
-/

namespace ServiceImport

/-! ## What is taken -/

/-- What a record maps for what was taken under a number. -/
def Importable.mapping (p : Importable × Nat) : Reference × Handle :=
  (p.1.reference, ⟨p.2, p.1.reference.classes⟩)

/-- What is registered for what was taken under a number. -/
def Importable.entry (p : Importable × Nat) : Nat × Registration := (p.2, p.1.registration)

/-- The record of what was taken after so many handles were given out. -/
def Record.made (e : Endpoint) (c : Candidate) (x : Subscription) (issued : Nat)
    (taken : List Importable) : Record where
  key := ⟨c.id, e.id⟩
  endpoint := e
  mappings := (taken.zipIdx (issued + 1)).map Importable.mapping
  subscription := some x

/-- A service space that registered what was taken, one after another. -/
def ServiceSpace.filledBy (plain : Bool) (taken : List Importable) (s : ServiceSpace) :
    ServiceSpace where
  entries := s.entries ++ (taken.zipIdx (s.issued + 1)).map Importable.entry
  imports :=
    if plain then s.imports
    else (taken.zipIdx (s.issued + 1)).foldl
      (fun imports p => putImport p.2 p.1.reference imports) s.imports
  issued := s.issued + taken.length

theorem ServiceSpace.filled_filledBy (plain : Bool) (taken : List Importable) (p : Importable)
    (s : ServiceSpace) :
    (s.filledBy plain taken).filled plain p.reference p.registration =
      s.filledBy plain (taken ++ [p]) := by
  have next : s.issued + 1 + taken.length = s.issued + taken.length + 1 := by omega
  unfold filledBy filled noted imported
  simp only [List.zipIdx_append, List.map_append, List.foldl_append, List.length_append, next]
  cases plain <;> simp [Importable.entry, Nat.add_assoc]

theorem Record.maps_made (e : Endpoint) (c : Candidate) (x : Subscription) (issued : Nat)
    (taken : List Importable) (reference : Nat) :
    (Record.made e c x issued taken).maps reference =
      taken.any (·.reference.id == reference) := by
  have mapped : ∀ n, ((taken.zipIdx n).map Importable.mapping).any (·.1.id == reference) =
      taken.any (·.reference.id == reference) := by
    induction taken with
    | nil => exact fun _ => rfl
    | cons p taken ih =>
      intro n
      rw [List.zipIdx_cons, List.map_cons, List.any_cons, List.any_cons, ih]
      rfl
  exact mapped (issued + 1)

/-- The holdings with a new record of what was taken, with which the importer listens. -/
def Holdings.adopted (plain : Bool) (e : Endpoint) (c : Candidate) (taken : List Importable)
    (h : Holdings) : Holdings where
  ledger := ⟨h.ledger.records ++ [.made e c ⟨c.adapter, 0⟩ h.store.issued taken]⟩
  store := h.store.filledBy plain taken
  listeners := Function.update h.listeners c.adapter
    (h.listeners c.adapter ++ [.importer c.id])

namespace Ledger

variable {l : Ledger} {e : Endpoint} {c : ContainerId} {r : Reference} {h : Handle}
  {x : Option Subscription}

theorem endpointId_ne_of_contains (new : l.contains e.id = false) :
    ∀ q ∈ l.records, q.key.endpointId ≠ e.id := fun q hq => by
  simpa using List.any_eq_false.1 new q hq

theorem register_of_new (new : l.contains e.id = false) :
    l.register e c r h x = .ok (.created, ⟨l.records ++
      [{ key := ⟨c, e.id⟩, endpoint := e, mappings := [(r, h)], subscription := x }]⟩) := by
  have others := endpointId_ne_of_contains new
  have passed : l.check ⟨c, e.id⟩ r.id = .ok () :=
    check_eq_ok_iff.2 fun q hq hid => absurd hid (others q hq)
  have none : l.records.any (·.key == (⟨c, e.id⟩ : RecordKey)) = false :=
    List.any_eq_false.2 fun q hq same => others q hq (by rw [beq_iff_eq.1 same])
  unfold register
  dsimp only
  rw [passed, none]
  rfl

variable {q : Record}

theorem check_beside (new : l.contains e.id = false) (filed : q.key.endpointId = e.id) :
    (⟨l.records ++ [q]⟩ : Ledger).check ⟨c, e.id⟩ r.id = .ok () ↔
      q.key.container = c ∧ q.maps r.id = false := by
  rw [check_eq_ok_iff]
  constructor
  · exact fun passed => passed q (by simp) filed
  · intro free m hm hid
    rcases List.mem_append.1 hm with hm | hm
    · exact absurd hid (endpointId_ne_of_contains new m hm)
    · rw [List.mem_singleton.1 hm]
      exact free

theorem register_beside (new : l.contains e.id = false) (filed : q.key = ⟨c, e.id⟩)
    (unmapped : q.maps r.id = false) :
    (⟨l.records ++ [q]⟩ : Ledger).register e c r h x =
      .ok (.joined, ⟨l.records ++ [{ q with mappings := q.mappings ++ [(r, h)] }]⟩) := by
  have passed : (⟨l.records ++ [q]⟩ : Ledger).check ⟨c, e.id⟩ r.id = .ok () :=
    (check_beside new (by rw [filed])).2 ⟨by rw [filed], unmapped⟩
  have joined : (l.records ++ [q]).any (·.key == (⟨c, e.id⟩ : RecordKey)) = true := by
    simp [filed]
  have others : ∀ m ∈ l.records, m.key ≠ ⟨c, e.id⟩ := fun m hm same =>
    endpointId_ne_of_contains new m hm (by rw [same])
  unfold register
  dsimp only
  rw [passed]
  dsimp only
  rw [joined]
  unfold join
  dsimp only
  rw [List.map_append, map_join_eq_self others, List.map_singleton, if_pos filed]
  rfl

theorem register_beside_error (new : l.contains e.id = false) (filed : q.key.endpointId = e.id)
    (refused : ¬ (q.key.container = c ∧ q.maps r.id = false)) :
    ∃ rejection, (⟨l.records ++ [q]⟩ : Ledger).register e c r h x = .error rejection := by
  unfold register
  dsimp only
  cases checked : (⟨l.records ++ [q]⟩ : Ledger).check ⟨c, e.id⟩ r.id with
  | ok _ => exact absurd ((check_beside new filed).1 checked) refused
  | error rejection => exact ⟨rejection, rfl⟩

end Ledger

namespace Holdings

variable (plain : Bool) {e : Endpoint} {h : Holdings}

theorem adopt_of_new (new : h.ledger.contains e.id = false) (p : Importable) :
    h.adopt plain e p = h.adopted plain e p.candidate [p] := by
  have filled := ServiceSpace.filled_filledBy plain [] p h.store
  have empty : h.store.filledBy plain [] = h.store := by
    unfold ServiceSpace.filledBy
    cases plain <;> simp
  rw [empty] at filled
  unfold adopt
  rw [Ledger.register_of_new new]
  dsimp only
  rw [filled]
  rfl

theorem adopt_adopted (new : h.ledger.contains e.id = false) (c : Candidate)
    (taken : List Importable) (p : Importable) :
    (h.adopted plain e c taken).adopt plain e p =
      h.adopted plain e c
        (if p.candidate.id = c.id ∧ taken.any (·.reference.id == p.reference.id) = false then
          taken ++ [p]
        else taken) := by
  have maps := Record.maps_made e c ⟨c.adapter, 0⟩ h.store.issued taken p.reference.id
  split
  · next fits =>
    obtain ⟨container, unmapped⟩ := fits
    have next : h.store.issued + 1 + taken.length = h.store.issued + taken.length + 1 := by omega
    unfold adopt adopted
    dsimp only
    rw [Ledger.register_beside new (by rw [container]; rfl) (maps.trans unmapped)]
    dsimp only
    rw [ServiceSpace.filled_filledBy]
    simp only [Record.made, ServiceSpace.filledBy, List.zipIdx_append, List.map_append, next]
    rfl
  · next fails =>
    rw [← maps] at fails
    obtain ⟨rejection, refused⟩ := Ledger.register_beside_error new
      (q := .made e c ⟨c.adapter, 0⟩ h.store.issued taken) (r := p.reference)
      (h := ⟨(h.store.filledBy plain taken).issued + 1, p.reference.classes⟩)
      (x := some ⟨p.candidate.adapter, 0⟩) (c := p.candidate.id) rfl
      (fun fits => fails ⟨fits.1.symm, fits.2⟩)
    unfold adopt adopted
    dsimp only
    rw [refused]

/-- Offered to a ledger without a record of the endpoint, the first that can be imported decides
about the container. Of what can be imported through this container, the first with each id is
taken. -/
theorem foldl_adopt (new : h.ledger.contains e.id = false) (first : Importable)
    (rest : List Importable) :
    (first :: rest).foldl (adopt plain e) h =
      h.adopted plain e first.candidate (firstsBy (·.reference.id)
        ((first :: rest).filter (·.candidate.id == first.candidate.id))) := by
  induction rest using List.reverseRecOn with
  | nil =>
    rw [List.foldl_cons, List.foldl_nil, adopt_of_new plain new, List.filter_cons_of_pos (by simp)]
    rfl
  | append_singleton rest p ih =>
    rw [← List.cons_append, List.foldl_append, ih, List.foldl_cons, List.foldl_nil,
      adopt_adopted plain new, List.filter_append]
    generalize (first :: rest).filter (·.candidate.id == first.candidate.id) = offered
    by_cases container : p.candidate.id = first.candidate.id
    · have one : [p].filter (·.candidate.id == first.candidate.id) = [p] := by simp [container]
      rw [one, firstsBy_concat]
      cases (firstsBy (·.reference.id) offered).any (·.reference.id == p.reference.id) <;>
        simp [container]
    · have none : [p].filter (·.candidate.id == first.candidate.id) = [] := by simp [container]
      rw [none, List.append_nil, if_neg (fun fits => container fits.1)]

end Holdings

/-! ## What it comes to -/

namespace Prospect

variable {s : Site} {e : Endpoint} {p : Prospect}

/-- The references that were registered are those that the record maps. -/
def Counted (p : Prospect) : Prop :=
  p.tally.registered = (p.record.map (·.mappings.length)).getD 0

theorem Counted.offered (h : Counted p) (e : Endpoint) (c : Candidate)
    (registers : Reference → Bool) (r : Reference) : Counted (p.offered e c registers r) := by
  unfold Prospect.offered
  split
  · exact h
  · split
    · unfold Counted at h ⊢
      dsimp only
      rw [h]
      cases p.record with
      | none => rfl
      | some q => simp
    · exact h

theorem Counted.throughAll (h : Counted p) (s : Site) (e : Endpoint) (candidates : List Candidate) :
    Counted (throughAll s e candidates p) := by
  refine List.foldlRecOn candidates _ h fun p h c _ => ?_
  unfold through
  dsimp only
  split
  · exact h
  · refine List.foldlRecOn _ _ ?_ fun p h r _ => h.offered e c (s.registers e c) r
    exact h

theorem throughAll_of_none {candidates : List Candidate}
    (none : ∀ c ∈ candidates, s.importables e c = []) (any : Bool) :
    throughAll s.steady e candidates ⟨{ anyReferences := any }, .none⟩ =
      ⟨{ anyReferences := any || candidates.any fun c => !(s.foundThrough e c).isEmpty },
        .none⟩ := by
  induction candidates generalizing any with
  | nil => simp [throughAll]
  | cons c candidates ih =>
    have one : through s.steady e ⟨{ anyReferences := any }, .none⟩ c =
        ⟨{ anyReferences := any || !(s.foundThrough e c).isEmpty }, .none⟩ := by
      unfold through
      rw [Site.lookUp_steady, Site.registers_steady]
      dsimp only
      rw [← Site.foundThrough_eq]
      split
      · next empty =>
        rw [Site.foundThrough_eq_nil_iff.2 (List.isEmpty_iff.1 empty)]
        simp
      · next found =>
        have some : s.foundThrough e c ≠ [] :=
          mt Site.foundThrough_eq_nil_iff.1 (mt List.isEmpty_iff.2 found)
        rw [List.isEmpty_eq_false_iff.2 some, Bool.not_false, Bool.or_true]
        refine List.foldlRecOn _ _
          (motive := fun p : Prospect => p = ⟨{ anyReferences := true }, .none⟩) rfl
          fun p hp r hr => ?_
        have fails : s.registers e c r = false := by
          rw [← Site.isSome_registration?]
          have nothing := List.filterMap_eq_nil_iff.1 (none c List.mem_cons_self) r hr
          rw [Option.map_eq_none_iff.1 nothing]
          rfl
        rw [hp, Prospect.offered, fails]
        rfl
    have rest := ih (fun d hd => none d (List.mem_cons_of_mem c hd))
      (any || !(s.foundThrough e c).isEmpty)
    unfold throughAll at rest ⊢
    rw [List.foldl_cons, one, rest, List.any_cons, Bool.or_assoc]

end Prospect

/-! ## Resolutions -/

theorem Record.eq_made_of_outline {q : Record} {e : Endpoint} {c : Candidate} {issued : Nat}
    {taken : List Importable} (h : q.outline id = .made e c ⟨c.adapter, 0⟩ issued taken) :
    ∃ x, x.adapter = c.adapter ∧ q = .made e c x issued taken := by
  obtain ⟨key, endpoint, mappings, subscription⟩ := q
  obtain ⟨rfl, described, rfl, owned⟩ := Record.mk.inj h
  obtain rfl : endpoint = e := described
  obtain ⟨x, rfl, place⟩ := Option.map_eq_some_iff.1 owned
  exact ⟨x, congrArg Subscription.adapter place, rfl⟩

theorem Ledger.recordOf?_of_append {l l' : Ledger} {endpointId : String} {q : Record}
    (others : ∀ m ∈ l.records, m.key.endpointId ≠ endpointId)
    (split : l'.records = l.records ++ [q]) (filed : q.key.endpointId = endpointId) :
    l'.recordOf? endpointId = some q.unnumbered := by
  have none : l.records.find? (·.key.endpointId == endpointId) = none :=
    List.find?_eq_none.2 fun m hm => by simpa using others m hm
  unfold Ledger.recordOf?
  rw [split, List.find?_append, none]
  simp [filed]

theorem Ledger.records_of_outline {l l' : Ledger} {endpointId : String} {added : List Record}
    (new : l.contains endpointId = false)
    (others : l'.records.filter (·.key.endpointId != endpointId) =
      l.records.filter (·.key.endpointId != endpointId))
    (outlined : l'.outline id = ⟨(l.outline id).records ++ added⟩)
    (filed : ∀ q ∈ added, q.key.endpointId = endpointId) :
    ∃ made, l'.records = l.records ++ made ∧ made.map (Record.outline id) = added := by
  obtain ⟨kept, made, split, before, after⟩ :=
    List.map_eq_append_iff.1 (congrArg Ledger.records outlined)
  replace before : kept.map (Record.outline id) = l.records.map (Record.outline id) := before
  refine ⟨made, ?_, after⟩
  have ids (q : Record) (hq : q ∈ l.records) : q.key.endpointId ≠ endpointId := by
    simpa using List.any_eq_false.1 new q hq
  have old : kept.filter (·.key.endpointId != endpointId) = kept := by
    refine List.filter_eq_self.2 fun q hq => bne_iff_ne.2 ?_
    have there : q.outline id ∈ l.records.map (Record.outline id) := before ▸ List.mem_map_of_mem hq
    obtain ⟨m, hm, same⟩ := List.mem_map.1 there
    rw [← Record.key_outline id q, ← same]
    exact ids m hm
  have fresh : made.filter (·.key.endpointId != endpointId) = [] := by
    refine List.filter_eq_nil_iff.2 fun q hq => ?_
    have key := filed (q.outline id) (after ▸ List.mem_map_of_mem hq)
    simpa using key
  rw [split, List.filter_append, old, fresh, List.append_nil,
    List.filter_eq_self.2 fun q hq => bne_iff_ne.2 (ids q hq)] at others
  rw [split, others]

namespace Site

variable {s : Site} {e : Endpoint} {allowed : Command → Prop}

theorem candidate_of_mem_importables {c : Candidate} {p : Importable}
    (h : p ∈ s.importables e c) : p.candidate = c := by
  obtain ⟨r, _, h⟩ := List.mem_filterMap.1 h
  obtain ⟨g, _, rfl⟩ := Option.map_eq_some_iff.1 h
  rfl

theorem filter_importables (candidates : List Candidate) (container : ContainerId) :
    (candidates.flatMap fun c => s.importables e c).filter (·.candidate.id == container) =
      (candidates.filter (·.id == container)).flatMap fun c => s.importables e c := by
  induction candidates with
  | nil => rfl
  | cons c candidates ih =>
    rw [List.flatMap_cons, List.filter_append, ih]
    cases same : c.id == container with
    | true =>
      have all : (s.importables e c).filter (·.candidate.id == container) = s.importables e c :=
        List.filter_eq_self.2 fun p hp => by rw [candidate_of_mem_importables hp, same]
      simp [all, same]
    | false =>
      have none : (s.importables e c).filter (·.candidate.id == container) = [] :=
        List.filter_eq_nil_iff.2 fun p hp => by simp [candidate_of_mem_importables hp, same]
      simp [none, same]

/-- The first candidate through which something can be imported decides about the container. -/
theorem foldl_importables (plain : Bool) {h : Holdings} (new : h.ledger.contains e.id = false)
    {candidates before after : List Candidate} {c : Candidate}
    (listed : candidates = before ++ c :: after) (none : ∀ d ∈ before, s.importables e d = [])
    (some : s.importables e c ≠ []) :
    (candidates.flatMap fun d => s.importables e d).foldl (Holdings.adopt plain e) h =
      h.adopted plain e c (firstsBy (·.reference.id)
        ((candidates.filter (·.id == c.id)).flatMap fun d => s.importables e d)) := by
  obtain ⟨first, rest, offered, rfl⟩ : ∃ first rest,
      (candidates.flatMap fun d => s.importables e d) = first :: rest ∧ first.candidate = c := by
    rw [listed, List.flatMap_append, List.flatMap_eq_nil_iff.2 none, List.nil_append,
      List.flatMap_cons]
    cases hc : s.importables e c with
    | nil => exact absurd hc some
    | cons first rest =>
      exact ⟨first, _, rfl, candidate_of_mem_importables (hc ▸ List.mem_cons_self)⟩
  rw [← filter_importables, offered]
  exact Holdings.foldl_adopt plain new first rest

theorem outcome_of_none {outcome : Outcome} {record : Option Record}
    (none : ∀ c ∈ (s.findContainers e).1, s.importables e c = [])
    (result : (outcome, record) = Stage.fresh.result s.steady e .none) :
    outcome = if (s.findContainers e).1 = [] then .noContainers
      else if ∀ c ∈ (s.findContainers e).1, s.foundThrough e c = [] then .noReferences
      else .nothingRegistered 0 := by
  unfold Stage.result at result
  dsimp only at result
  rw [findContainers_steady] at result
  generalize (s.findContainers e).1 = candidates at *
  split at result
  · next empty =>
    rw [if_pos (List.isEmpty_iff.1 empty)]
    exact congrArg Prod.fst result
  · next some =>
    rw [if_neg (mt List.isEmpty_iff.2 some)]
    have through := Prospect.throughAll_of_none (s := s) (e := e) none false
    rw [through] at result
    refine (congrArg Prod.fst result).trans ?_
    unfold Prospect.result Tally.outcome
    dsimp only
    by_cases silent : ∀ c ∈ candidates, s.foundThrough e c = []
    · have quiet : (candidates.any fun c => !(s.foundThrough e c).isEmpty) = false :=
        List.any_eq_false.2 fun c hc => by simp [silent c hc]
      rw [if_pos silent, quiet]
      rfl
    · have loud : (candidates.any fun c => !(s.foundThrough e c).isEmpty) = true := by
        simpa [List.any_eq_true] using silent
      rw [if_neg silent, loud]
      rfl

theorem outcome_of_record {outcome : Outcome} {record : Record} (some : record.mappings ≠ [])
    (candidates : (s.findContainers e).1 ≠ [])
    (result : (outcome, Option.some record) = Stage.fresh.result s.steady e .none) :
    outcome = .registered record.mappings.length := by
  unfold Stage.result at result
  dsimp only at result
  rw [findContainers_steady, if_neg (mt List.isEmpty_iff.1 candidates)] at result
  have counted : Prospect.Counted ⟨{}, .none⟩ := rfl
  replace counted := counted.throughAll s.steady e (s.findContainers e).1
  obtain ⟨outcome_eq, record_eq⟩ := Prod.mk.inj result
  unfold Prospect.Counted at counted
  rw [← record_eq] at counted
  rw [outcome_eq, Tally.outcome, counted]
  exact if_pos (List.length_pos_iff.2 some)

/-- A resolution of an endpoint without a record that is not interrupted leaves everything as it is
if nothing can be imported. Otherwise it makes one record, under the container of the first
candidate through which something can be imported. It maps what can be imported through the
candidates of that container, the first with each id, to the next handles, which are registered, and
the importer listens on the adapter of that candidate. -/
theorem settles_of_new (h : Reachable allowed s) {r : Resolution} (runs : s.Undelayed r)
    (new : s.ledger.contains r.endpoint.id = false) :
    let e := r.endpoint
    let candidates := (s.findContainers e).1
    let t := s.turnOf r
    s.poll (.resolution r.id) = t.releaseLedger ∧
    ((∀ c ∈ candidates, s.importables e c = []) →
      t.ledger = s.ledger ∧ t.space = s.space ∧ t.attending = s.attending ∧
      t.finished = s.finished ++ [(e.id,
        if candidates = [] then .noContainers
        else if ∀ c ∈ candidates, s.foundThrough e c = [] then .noReferences
        else .nothingRegistered 0)]) ∧
    ∀ before c after, candidates = before ++ c :: after →
      (∀ d ∈ before, s.importables e d = []) → s.importables e c ≠ [] →
      let taken := firstsBy (·.reference.id)
        ((candidates.filter (·.id == c.id)).flatMap fun d => s.importables e d)
      t.space = { s.space with store := s.space.store.filledBy s.space.plain taken } ∧
      t.attending = Function.update s.attending c.adapter
        (s.attending c.adapter ++ [.importer c.id]) ∧
      t.finished = s.finished ++ [(e.id, .registered taken.length)] ∧
      ∃ x, x.adapter = c.adapter ∧ t.ledger.records =
        s.ledger.records ++ [.made e c x s.space.store.issued taken] := by
  obtain ⟨outcome, resolves⟩ := runs.resolves h.wellFormed h.placed
  have adopted := resolves.holdings id rfl
  have result := resolves.result
  have unknown : s.ledger.recordOf? r.endpoint.id = none :=
    Ledger.recordOf?_eq_none_iff.2 (Ledger.endpointId_ne_of_contains new)
  rw [unknown] at result
  dsimp only
  refine ⟨runs.poll, fun none => ?_, fun before c after listed none some => ?_⟩
  · rw [List.flatMap_eq_nil_iff.2 none] at adopted
    have outlined : (s.turnOf r).ledger.outline id = ⟨(s.ledger.outline id).records ++ []⟩ :=
      (congrArg Holdings.ledger adopted).trans (by rw [List.append_nil]; rfl)
    obtain ⟨made, records, nothing⟩ :=
      Ledger.records_of_outline new resolves.others outlined (by simp)
    rw [List.map_eq_nil_iff.1 nothing, List.append_nil] at records
    refine ⟨congrArg Ledger.mk records, ?_, congrArg Holdings.listeners adopted, ?_⟩
    · rw [resolves.space, show (s.turnOf r).space.store = s.space.store from
        congrArg Holdings.store adopted]
    · rw [resolves.finished, outcome_of_none none result]
  · -- The outline leaves open only which number the adapter gave the subscription.
    obtain ⟨taken, htaken⟩ : ∃ taken, taken = firstsBy (fun p : Importable => p.reference.id)
      (((s.findContainers r.endpoint).1.filter (·.id == c.id)).flatMap
        fun d => s.importables r.endpoint d) := ⟨_, rfl⟩
    have outlined : (s.holdings id).ledger.contains r.endpoint.id = false :=
      (Ledger.contains_outline id s.ledger r.endpoint.id).trans new
    replace adopted := adopted.trans (foldl_importables s.space.plain outlined listed none some)
    rw [← htaken] at adopted ⊢
    obtain ⟨made, records, outline⟩ := Ledger.records_of_outline new resolves.others
      (congrArg Holdings.ledger adopted) (by simp [Record.made])
    obtain ⟨q, rfl, made_eq⟩ := List.map_eq_singleton_iff.1 outline
    obtain ⟨x, place, rfl⟩ := Record.eq_made_of_outline made_eq
    have found := Ledger.recordOf?_of_append
      (Ledger.endpointId_ne_of_contains new) records rfl
    rw [found] at result
    have there : c ∈ (s.findContainers r.endpoint).1 := by simp [listed]
    have nonempty : taken ≠ [] := fun empty =>
      some (List.flatMap_eq_nil_iff.1 (firstsBy_eq_nil_iff.1 (htaken.symm.trans empty)) c
        (List.mem_filter.2 ⟨there, by simp⟩))
    have length (issued : Nat) :
        (Record.made r.endpoint c x issued taken).unnumbered.mappings.length = taken.length := by
      simp [Record.unnumbered, Record.renumbered, Record.made]
    refine ⟨?_, congrArg Holdings.listeners adopted, ?_, x, place, records⟩
    · rw [resolves.space, show (s.turnOf r).space.store = _ from congrArg Holdings.store adopted]
      rfl
    · rw [resolves.finished,
        outcome_of_record (List.length_pos_iff.1 ?_) (List.ne_nil_of_mem there) result, length]
      rw [length]
      exact List.length_pos_iff.2 nonempty

def atticContainer : Container where
  key := "attic"
  id := ⟨"home", "attic"⟩
  connectNamespace := some "home"
  hasAdapter := true

def shelfContainer : Container where
  key := "shelf"
  id := ⟨"home", "shelf"⟩
  connectNamespace := some "home"
  hasAdapter := true

/-- A site that finds the attic, and the lamps with their own adapter and with that of the shelf. -/
def lampShelves : Site where
  containers := [atticContainer, lampContainer, shelfContainer]
  registry := [atticContainer, lampContainer, shelfContainer]
  adapters := [("attic", { owner := ⟨"home", "attic"⟩, backend := .scripted {} }),
    ("lamps", { owner := ⟨"home", "lamps"⟩, backend := .scripted {} }),
    ("shelf", { owner := ⟨"home", "shelf"⟩, backend := .scripted {} })]
  finders := [[⟨atticContainer, "attic"⟩, ⟨lampContainer, "lamps"⟩, ⟨lampContainer, "shelf"⟩]]
  managed := false
  limiter := { free := 8 }

theorem build_lampShelves :
    Site.build {
        installations := [.scripted "attic" ⟨"home", "attic"⟩ (some "home"),
          .scripted "lamps" ⟨"home", "lamps"⟩ (some "home"),
          .scripted "shelf" ⟨"home", "shelf"⟩ (some "home")]
        finders := [[.own "attic", .own "lamps", .pair "lamps" "shelf"]], managed := false } =
      .ok lampShelves := rfl

def lampReference : Nat → List String → Reference := classedReference ⟨"home", "lamps"⟩

def lampSeeker : Resolution where
  id := 0
  endpoint := { lampEndpoint with interfaces := ["Lamp", "Light"] }

/-- The resolution of a lamp is about to run. The attic has a service without classes. Of the lamps,
the second is there under both interfaces, the third has no classes, and the shelf has the second
and a fourth. -/
def lampSought : Site :=
  lampShelves.performAll
    [.answer "attic" "Lamp" (.ok [classedReference ⟨"home", "attic"⟩ 1 []]),
     .answer "lamps" "Lamp" (.ok [lampReference 2 ["Lamp", "Light"], lampReference 3 []]),
     .answer "lamps" "Light" (.ok [lampReference 2 ["Lamp", "Light"]]),
     .answer "shelf" "Lamp" (.ok [lampReference 2 ["Lamp"], lampReference 4 ["Lamp"]]),
     .available lampSeeker.endpoint]

theorem reachable_lampSought : Reachable (fun _ => True) lampSought := by
  dsimp only [lampSought, performAll, List.foldl]
  refine .perform (.perform (.perform (.perform (.perform (.build build_lampShelves) trivial ?_)
    trivial ?_) trivial ?_) trivial ?_) trivial ?_
  all_goals
    intro _
    rfl

theorem undelayed_lampSought : lampSought.Undelayed lampSeeker where
  ready := List.mem_singleton.2 rfl
  inFlight := rfl
  kept := rfl
  permitted := .inr ⟨rfl, by decide⟩
  calm := rfl
  opened c hc := by
    rcases List.mem_cons.1 hc with rfl | hc
    · rfl
    · rcases List.mem_cons.1 hc with rfl | hc
      · rfl
      · obtain rfl := List.mem_singleton.1 hc
        rfl

/-- Nothing comes of the attic. The second and the fourth lamp are imported, and the importer
listens on the adapter that the first of them came through. -/
theorem settles_of_new_lampSought :
    lampSought.Undelayed lampSeeker ∧
    lampSought.ledger.contains lampEndpoint.id = false ∧
    let t := lampSought.turnOf lampSeeker
    t.finished = [("lamp", .registered 2)] ∧
    t.ledger.records.map (fun q => (q.key, q.mappings.map fun p => (p.1.id, p.2))) =
      [(⟨⟨"home", "lamps"⟩, "lamp"⟩, [(2, ⟨1, ["Lamp", "Light"]⟩), (4, ⟨2, ["Lamp"]⟩)])] ∧
    t.space.store.entries.map (·.1) = [1, 2] ∧
    t.attending "lamps" = [.importer ⟨"home", "lamps"⟩] ∧ t.attending "shelf" = [] := by
  obtain ⟨_, _, settles⟩ := settles_of_new reachable_lampSought undelayed_lampSought rfl
  have nothing : lampSought.importables lampSeeker.endpoint ⟨atticContainer, "attic"⟩ = [] := rfl
  obtain ⟨space, attending, finished, x, _, records⟩ :=
    settles [⟨atticContainer, "attic"⟩] ⟨lampContainer, "lamps"⟩ [⟨lampContainer, "shelf"⟩] rfl
      (fun d hd => by rw [List.mem_singleton.1 hd, nothing]) (List.cons_ne_nil _ _)
  dsimp only
  rw [finished, records, space, attending]
  exact ⟨undelayed_lampSought, rfl, rfl, rfl, rfl, rfl, rfl⟩

end Site

end ServiceImport

import ServiceImport.Proofs.Site.Calls
import ServiceImport.Proofs.Site.Services

/-! # The table of imports

A space that keeps a table of imports has an entry for each mapping of the ledger and no other, as
long as nobody else writes the table or goes past the importer. The entries are in the order in
which their proxies were registered. Whether registrations can be taken away makes no difference.
-/

namespace ServiceImport

/-- Whether a command goes past the importer to the table of imports. -/
def Command.notesImport : Command → Bool
  | .noteImport .. | .forgetImport _ => true
  | _ => false

def SpaceCall.registered? : SpaceCall → Option Handle
  | .register h _ => some h
  | _ => none

theorem SpaceCall.registered_opening (plain : Bool) (h : Handle) (p : Properties) (r : Reference) :
    (opening plain h p r).filterMap registered? = [h] := by
  cases plain <;> rfl

theorem SpaceCall.registered_closing (plain : Bool) (h : Handle) (fault : Option Fault) :
    (closing plain h fault).filterMap registered? = [] := by
  cases plain <;> rfl

/-! ## Tables -/

def tableEntry (mapping : Reference × Handle) : Nat × Reference := (mapping.2.id, mapping.1)

theorem ServiceSpace.putImport_of_lt {id : Nat} {imports : List (Nat × Reference)}
    (new : ∀ e ∈ imports, e.1 < id) (reference : Reference) :
    putImport id reference imports = imports ++ [(id, reference)] := by
  induction imports with
  | nil => rfl
  | cons e imports ih =>
    rw [List.forall_mem_cons] at new
    have after : ¬ id < e.1 := Nat.not_lt_of_lt new.1
    have other : id ≠ e.1 := Nat.ne_of_gt new.1
    rw [putImport, if_neg after, if_neg other, ih new.2, List.cons_append]

theorem lookup_eq_some_iff_mem {entries : List (Nat × Reference)}
    (nodup : (entries.map (·.1)).Nodup) {n : Nat} {reference : Reference} :
    entries.lookup n = some reference ↔ (n, reference) ∈ entries := by
  rw [List.lookup_eq_some_iff]
  constructor
  · rintro ⟨before, after, rfl, _⟩
    simp
  · intro there
    obtain ⟨before, after, rfl⟩ := List.append_of_mem there
    refine ⟨before, after, rfl, fun e he => ?_⟩
    rw [List.map_append, List.nodup_append] at nodup
    rw [bne_iff_ne]
    exact fun same => nodup.2.2 e.1 (List.mem_map_of_mem he) n (by simp) same.symm

/-- The mappings of which a table has the entries, in order. They are the known ones, in the order
in which their handles were registered. -/
structure Tabulates (listed known : List (Reference × Handle)) (registrations : List Handle)
    (imports : List (Nat × Reference)) : Prop where
  perm : listed.Perm known
  ordered : (listed.map (·.2)).Sublist registrations
  imports : imports = listed.map tableEntry

section

variable {listed known : List (Reference × Handle)} {registrations : List Handle}
  {imports : List (Nat × Reference)} {mapping : Reference × Handle}

theorem Tabulates.distinct (table : Tabulates listed known registrations imports)
    (ascending : (registrations.map (·.id)).Pairwise (· < ·)) :
    (known.map (·.2.id)).Nodup := by
  have nodup : (registrations.map (·.id)).Nodup := ascending.imp fun h => Nat.ne_of_lt h
  have ids := table.ordered.map Handle.id
  rw [List.map_map] at ids
  exact (table.perm.map _).nodup_iff.1 (nodup.sublist ids)

theorem Tabulates.put (table : Tabulates listed known registrations imports)
    (new : ∀ a ∈ registrations, a.id < mapping.2.id) :
    Tabulates (listed ++ [mapping]) (mapping :: known) (registrations ++ [mapping.2])
      (ServiceSpace.putImport mapping.2.id mapping.1 imports) where
  perm := (List.perm_append_singleton _ _).trans (table.perm.cons _)
  ordered := by
    rw [List.map_append]
    exact table.ordered.append (List.Sublist.refl _)
  imports := by
    rw [table.imports, ServiceSpace.putImport_of_lt, List.map_append]
    · rfl
    · intro e he
      obtain ⟨p, hp, rfl⟩ := List.mem_map.1 he
      exact new p.2 (table.ordered.subset (List.mem_map_of_mem hp))

theorem Tabulates.remove (table : Tabulates listed (mapping :: known) registrations imports)
    (ascending : (registrations.map (·.id)).Pairwise (· < ·)) :
    Tabulates (listed.filter (·.2.id != mapping.2.id)) known registrations
      (imports.filter (·.1 != mapping.2.id)) where
  perm := by
    have nodup := table.distinct ascending
    rw [List.map_cons, List.nodup_cons] at nodup
    -- No other mapping has the number, so that nothing else goes.
    have others : ∀ p ∈ known, (p.2.id != mapping.2.id) = true := by
      intro p hp
      rw [bne_iff_ne]
      exact fun same => nodup.1 (List.mem_map.2 ⟨p, hp, same⟩)
    have kept := table.perm.filter (·.2.id != mapping.2.id)
    rwa [List.filter_cons_of_neg (by simp), List.filter_eq_self.2 others] at kept
  ordered := (List.filter_sublist.map _).trans table.ordered
  imports := by
    rw [table.imports, List.filter_map]
    rfl

end

namespace Site

variable {s t : Site} {hand : Hand} {allowed : Command → Prop}

/-- The handles that were registered, in order. -/
def registrations (s : Site) : List Handle := s.calls.filterMap SpaceCall.registered?

theorem registrations_of_calls {calls : List SpaceCall} (h : t.calls = s.calls ++ calls) :
    t.registrations = s.registrations ++ calls.filterMap SpaceCall.registered? := by
  unfold registrations
  rw [h, List.filterMap_append]

theorem registrations_of_eq (h : t.calls = s.calls) : t.registrations = s.registrations := by
  unfold registrations
  rw [h]

/-! ## The table follows the ledger -/

/-- The table has an entry for each mapping that is in the ledger or at hand. -/
structure Tabled (d : Dealing) : Prop where
  wellFormed : d.site.ledger.WellFormed
  ascending : (d.site.registrations.map (·.id)).Pairwise (· < ·)
  issued : ∀ h ∈ d.site.registrations, h.id ≤ d.site.space.store.issued
  table : ∃ listed, Tabulates listed (d.hand.mappings ++ d.site.ledger.mappings)
    d.site.registrations d.site.space.store.imports

theorem Tabled.of_ledger {hand' : Hand} (tabled : Tabled ⟨s, hand⟩)
    (wellFormed : t.ledger.WellFormed)
    (moved : (hand.mappings ++ s.ledger.mappings).Perm (hand'.mappings ++ t.ledger.mappings))
    (store : t.space.store = s.space.store) (registrations : t.registrations = s.registrations) :
    Tabled ⟨t, hand'⟩ where
  wellFormed := wellFormed
  ascending := by
    dsimp only
    rw [registrations]
    exact tabled.ascending
  issued := by
    dsimp only
    rw [registrations, store]
    exact tabled.issued
  table := by
    obtain ⟨listed, table⟩ := tabled.table
    dsimp only
    rw [registrations, store]
    exact ⟨listed, table.perm.trans moved, table.ordered, table.imports⟩

theorem Tabled.of_eq (tabled : Tabled ⟨s, hand⟩) {hand' : Hand}
    (mappings : hand'.mappings = hand.mappings) (ledger : t.ledger = s.ledger)
    (store : t.space.store = s.space.store) (registrations : t.registrations = s.registrations) :
    Tabled ⟨t, hand'⟩ := by
  refine tabled.of_ledger (ledger ▸ tabled.wellFormed) ?_ store registrations
  rw [mappings, ledger]

theorem Tabled.log (tabled : Tabled ⟨s, hand⟩) {e : Event} (h : e.call? = none) :
    Tabled ⟨s.log e, hand⟩ :=
  tabled.of_eq rfl rfl rfl (registrations_of_eq (calls_log s h))

theorem Tabled.given (tabled : Tabled ⟨s, hand⟩) {mappings : List (Reference × Handle)}
    (wellFormed : t.ledger.WellFormed)
    (conserved : s.ledger.mappings.Perm (mappings ++ t.ledger.mappings))
    (space : t.space = s.space) (journal : t.journal = s.journal) :
    Tabled ⟨t, { hand with mappings := mappings ++ hand.mappings }⟩ := by
  refine tabled.of_ledger wellFormed (Ledger.perm_of_given conserved).symm (by rw [space]) ?_
  apply registrations_of_eq
  unfold calls
  rw [journal]

/-- A proxy that is torn down loses its entry, also if the space does not let it go. -/
theorem Tabled.tearDownOne {mapping : Reference × Handle} {rest : List (Reference × Handle)}
    {x : Option Subscription} (tabled : Tabled ⟨s, mapping :: rest, x⟩)
    (kept : s.space.plain = false) : Tabled ⟨s.tearDownOne mapping.2, rest, x⟩ := by
  obtain ⟨fault, calls⟩ := calls_tearDownOne s mapping.2
  have registrations : (s.tearDownOne mapping.2).registrations = s.registrations := by
    rw [registrations_of_calls calls, SpaceCall.registered_closing, List.append_nil]
  obtain ⟨_, _, _, heq⟩ := tearDownOne_eq s mapping.2
  have ledger : (s.tearDownOne mapping.2).ledger = s.ledger := by rw [heq]
  have issued : (s.tearDownOne mapping.2).space.store.issued = s.space.store.issued := by rw [heq]
  have imports : (s.tearDownOne mapping.2).space.store.imports =
      s.space.store.imports.filter (·.1 != mapping.2.id) := by
    rw [heq]
    simp [kept]
  obtain ⟨listed, table⟩ := tabled.table
  refine ⟨ledger ▸ tabled.wellFormed, ?_, ?_, listed.filter (·.2.id != mapping.2.id), ?_⟩
  · dsimp only
    rw [registrations]
    exact tabled.ascending
  · dsimp only
    rw [registrations, issued]
    exact tabled.issued
  · dsimp only
    rw [registrations, ledger, imports]
    exact table.remove tabled.ascending

theorem noteImport_of_kept (kept : s.space.plain = false) (h : Handle) (reference : Reference) :
    s.noteImport h reference =
      (s.withStore (s.space.store.imported h.id reference)).log (.called (.imported h reference)) :=
  if_neg (by simp [kept])

theorem Tabled.register (tabled : Tabled ⟨s, hand⟩) (kept : s.space.plain = false)
    {registration : Registration} {h : Handle} {store : ServiceSpace} (reference : Reference)
    (ok : s.space.store.register registration = .ok (h, store)) :
    Tabled ⟨((s.withStore store).log (.called (.register h registration.properties))).noteImport h
      reference, { hand with mappings := (reference, h) :: hand.mappings }⟩ := by
  obtain ⟨_, hid, hstore⟩ := ServiceSpace.register_eq_ok_iff.1 ok
  have calls := calls_register s store h registration.properties reference
  have noted := noteImport_of_kept
    (s := (s.withStore store).log (.called (.register h registration.properties))) kept h reference
  rw [noted] at calls ⊢
  generalize ht : Site.log _ _ = t at calls
  have ledger : t.ledger = s.ledger := by rw [← ht]; rfl
  have issued : t.space.store.issued = s.space.store.issued + 1 := by rw [← ht, hstore]; rfl
  have imports : t.space.store.imports =
      ServiceSpace.putImport h.id reference s.space.store.imports := by rw [← ht, hstore]; rfl
  have registrations : t.registrations = s.registrations ++ [h] := by
    rw [registrations_of_calls calls, SpaceCall.registered_opening]
  have new : ∀ a ∈ s.registrations, a.id < h.id := by
    intro a ha
    rw [hid]
    exact Nat.lt_succ_of_le (tabled.issued a ha)
  obtain ⟨listed, table⟩ := tabled.table
  refine ⟨ledger ▸ tabled.wellFormed, ?_, ?_, listed ++ [(reference, h)], ?_⟩
  · dsimp only
    rw [registrations, List.map_append, List.pairwise_append]
    refine ⟨tabled.ascending, List.pairwise_singleton _ _, ?_⟩
    intro n hn m hm
    obtain ⟨a, ha, rfl⟩ := List.mem_map.1 hn
    rw [List.map_singleton, List.mem_singleton] at hm
    exact hm ▸ new a ha
  · dsimp only
    rw [registrations, issued]
    intro a ha
    rcases List.mem_append.1 ha with ha | ha
    · exact Nat.le_succ_of_le (tabled.issued a ha)
    · rw [List.mem_singleton.1 ha, hid]
  · dsimp only
    rw [registrations, ledger, imports]
    exact table.put new

/-! ## Steps -/

theorem Loss.tabled {m n : Dealing} (loss : Loss m n) (tabled : Tabled m)
    (alive : m.site.isAlive = true) (kept : m.site.space.plain = false) : Tabled n := by
  cases loss with
  | remark e h => exact tabled.of_eq rfl rfl rfl (registrations_of_eq (calls_remark h _))
  | place locations => exact tabled.of_eq rfl rfl rfl rfl
  | @withdrawEndpoint s hand endpointId =>
    rw [cancelAll_eq]
    exact tabled.given (tabled.wellFormed.withdrawEndpoint endpointId)
      (Ledger.mappings_withdrawEndpoint s.ledger endpointId) rfl rfl
  | @withdrawReference s hand c reference =>
    rw [cancelAll_eq]
    exact tabled.given (tabled.wellFormed.withdrawReference c reference)
      (Ledger.mappings_withdrawReference s.ledger c reference) rfl rfl
  | clear dead =>
    rw [alive] at dead
    cases dead
  | tearDown mapping => exact tabled.tearDownOne kept

theorem Deal.tabled {m n : Dealing} (deal : Deal m n) (tabled : Tabled m)
    (alive : m.site.isAlive = true) (kept : m.site.space.plain = false) : Tabled n := by
  cases deal with
  | loss loss => exact loss.tabled tabled alive kept
  | make c reference => exact tabled.log rfl
  | refuse interfaces =>
    refine tabled.of_eq rfl rfl rfl ?_
    rw [registrations_of_calls (calls_refuse interfaces _)]
    exact List.append_nil _
  | register reference ok => exact tabled.register kept reference ok
  | @record s rest x e c reference h admission ledger ok =>
    have recorded := Ledger.mappings_register tabled.wellFormed ok
    refine Tabled.log (s := { s with ledger }) ?_ rfl
    exact tabled.of_ledger (tabled.wellFormed.register ok)
      (List.perm_middle.symm.trans (recorded.symm.append_left _)) rfl rfl
  | @subscribe s rest c =>
    have listening : Tabled ⟨(s.subscribe c.adapter (.importer c.id)).2, rest,
        (s.subscribe c.adapter (.importer c.id)).1⟩ := by
      rw [subscribe_eq]
      exact tabled.of_eq rfl rfl rfl rfl
    exact listening.log rfl
  | cancel =>
    rw [cancel_eq]
    exact tabled.of_eq rfl rfl rfl rfl

theorem Move.tabled
    (own : ∀ c, allowed c → c.bypassesImporter = false ∧ c.notesImport = false) {m n : Dealing}
    (move : Move allowed m n)
    (tabled : m.site.isAlive = true → m.site.space.plain = false → Tabled m)
    (alive : n.site.isAlive = true) (kept : n.site.space.plain = false) : Tabled n := by
  cases move with
  | deal deal =>
    have frame := deal.leavesJobs
    have before := frame.isAlive.symm.trans alive
    have kept := frame.fixed.plain.symm.trans kept
    exact deal.tabled (tabled before kept) before kept
  | aside h =>
    exact (tabled (h.alive alive) (h.plain.symm.trans kept)).of_eq rfl h.ledger h.store
      (registrations_of_eq h.calls)
  | @withdraw s hand key reference =>
    have fewer : Tabled ⟨s.updateAdapter key (·.withPublished (·.withdraw reference)), hand⟩ :=
      (tabled alive kept).of_eq rfl rfl rfl rfl
    exact fewer.log rfl
  | @meddle s hand c ok h =>
    obtain ⟨inside, silent⟩ := own c ok
    cases c with
    | observe key label =>
      unfold perform at alive kept ⊢
      dsimp only at alive kept ⊢
      rw [subscribe_eq] at alive kept ⊢
      exact (tabled alive kept).of_eq rfl rfl rfl rfl
    | unsubscribe _ => exact (tabled alive kept).of_eq rfl rfl rfl rfl
    | noteImport _ _ | forgetImport _ => cases silent
    | unregister _ | record _ _ _ _ _ | unrecordEndpoint _ | unrecordReference _ _ => cases inside
    | _ => cases h

/-! ## Every run -/

theorem tabled_build {b : Blueprint} (h : Site.build b = .ok s) : Tabled ⟨s, {}⟩ := by
  obtain ⟨heq, _⟩ := build_eq h
  have registrations : s.registrations = [] := by
    unfold registrations
    rw [calls_build h]
    rfl
  have ledger : s.ledger = {} := by rw [heq]
  have store : s.space.store = {} := by rw [heq]
  refine ⟨ledger ▸ Ledger.WellFormed.empty, ?_, ?_, [], ?_, ?_, ?_⟩
  all_goals simp [registrations, ledger, store, Ledger.mappings]

theorem Reachable.tabled (h : Reachable allowed s)
    (own : ∀ c, allowed c → c.bypassesImporter = false ∧ c.notesImport = false)
    (alive : s.isAlive = true) (kept : s.space.plain = false) : Tabled ⟨s, {}⟩ :=
  h.dealing (I := fun d => d.site.isAlive = true → d.site.space.plain = false → Tabled d)
    (fun built _ _ => tabled_build built) (fun move => move.tabled own) alive kept

/-- While the importer is there and nobody else writes to the space or the ledger, a space that
keeps a table of imports has a reference under a number if a record maps the reference to the handle
of this number, and only then. It lists the references of all mappings, in the order in which their
handles were registered. -/
theorem imports_eq_mappings
    (h : Reachable (fun c => c.bypassesImporter = false ∧ c.notesImport = false) s)
    (alive : s.isAlive = true) (kept : s.space.plain = false) :
    (∀ n reference, s.space.store.imports.lookup n = some reference ↔
      ∃ q ∈ s.ledger.records, ∃ a, (reference, a) ∈ q.mappings ∧ a.id = n) ∧
    s.registrations.Nodup ∧
    ∃ listed : List (Reference × Handle), listed.Perm (s.ledger.records.flatMap (·.mappings)) ∧
      (listed.map (·.2)).Sublist s.registrations ∧
      s.space.store.importedServices = listed.map (·.1) := by
  have tabled := h.tabled (fun _ ok => ok) alive kept
  obtain ⟨listed, table⟩ := tabled.table
  have known : listed.Perm (s.ledger.records.flatMap (·.mappings)) := table.perm
  have ids : (s.registrations.map (·.id)).Nodup := tabled.ascending.imp fun h => Nat.ne_of_lt h
  have listing : s.space.store.imports = listed.map tableEntry := table.imports
  refine ⟨fun n reference => ?_, List.Nodup.of_map _ ids, listed, known, table.ordered, ?_⟩
  · have keys : (s.space.store.imports.map (·.1)).Nodup := by
      rw [listing, List.map_map]
      exact (known.map _).nodup_iff.2 (table.distinct tabled.ascending)
    rw [lookup_eq_some_iff_mem keys, listing, List.mem_map]
    constructor
    · rintro ⟨p, hp, heq⟩
      obtain ⟨rfl, rfl⟩ := Prod.mk.inj heq
      obtain ⟨q, hq, hp⟩ := List.mem_flatMap.1 (known.subset hp)
      exact ⟨q, hq, p.2, hp, rfl⟩
    · rintro ⟨q, hq, a, ha, rfl⟩
      exact ⟨(reference, a), known.symm.subset (List.mem_flatMap.2 ⟨q, hq, ha⟩), rfl⟩
  · unfold ServiceSpace.importedServices
    rw [listing, List.map_map]
    rfl

def doorEndpoint : Endpoint := { lampEndpoint with id := "door", location := ⟨"home://door"⟩ }

/-- Two endpoints for which one service was imported. -/
def lampAndDoor : Site :=
  (((litSite.perform (.available lampEndpoint)).perform (.available doorEndpoint)).poll
    (.resolution 0)).poll (.resolution 1)

theorem reachable_lampAndDoor : Reachable (·.isRoutine = true) lampAndDoor :=
  .poll (.poll (.perform (.perform (reachable_litSite rfl) rfl fun _ => rfl) rfl fun _ => rfl))

theorem importedServices_lampAndDoor : lampAndDoor.space.store.importedServices =
    [lampService ⟨"home", "lamps"⟩ 1, lampService ⟨"home", "lamps"⟩ 1] := rfl

/-- The service has an entry for each of the two endpoints. -/
theorem imports_eq_mappings_lampAndDoor :
    lampAndDoor.space.store.imports.map (·.1) = [1, 2] ∧
    (∀ n reference, lampAndDoor.space.store.imports.lookup n = some reference ↔
      ∃ q ∈ lampAndDoor.ledger.records, ∃ a, (reference, a) ∈ q.mappings ∧ a.id = n) ∧
    lampAndDoor.registrations.Nodup ∧
    ∃ listed : List (Reference × Handle),
      listed.Perm (lampAndDoor.ledger.records.flatMap (·.mappings)) ∧
      (listed.map (·.2)).Sublist lampAndDoor.registrations ∧
      lampAndDoor.space.store.importedServices = listed.map (·.1) := by
  refine ⟨rfl, imports_eq_mappings (reachable_lampAndDoor.mono fun c routine => ?_) rfl rfl⟩
  cases c <;> first | exact ⟨rfl, rfl⟩ | cases routine

/-- A service that was imported for two endpoints is listed twice. -/
theorem not_nodup_importedServices :
    ¬ ∀ s, Reachable (·.isRoutine = true) s → s.isAlive = true → s.space.plain = false →
      s.space.store.importedServices.Nodup := by
  intro claim
  have nodup := claim _ reachable_lampAndDoor rfl rfl
  rw [importedServices_lampAndDoor] at nodup
  simp at nodup

end Site

end ServiceImport

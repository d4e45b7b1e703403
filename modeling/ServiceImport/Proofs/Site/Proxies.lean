import ServiceImport.Proofs.Site.Strides

/-! # Proxies are neither leaked nor lost

The live registrations of the service space are the handles in the ledger and those that could not
be unregistered. In the middle of an operation some handles are in neither group: those that the
operation still has to record or to take away. They are said to be at hand.
-/

namespace ServiceImport

/-- The handle that an entry of the journal tells to be unregistered, and how that failed. -/
def Event.unregistering? : Event → Option (Handle × Option Fault)
  | .called (.unregister h fault) => some (h, fault)
  | _ => none

theorem Event.unregistering?_of_isDealing {event : Event} (h : event.isDealing = false) :
    event.unregistering? = none := by
  cases event <;> first | rfl | cases h

theorem Event.unregistering?_of_isRemark {event : Event} (h : event.isRemark = true) :
    event.unregistering? = none := by
  cases event <;> first | rfl | cases h

namespace Site

/-! ## What was unregistered -/

/-- The calls that unregister, in order. -/
def unregisterings (s : Site) : List (Handle × Option Fault) :=
  s.journal.filterMap Event.unregistering?

/-- The handles of these calls. -/
def unregistered (s : Site) : List Handle := s.unregisterings.map (·.1)

/-- The handles of those among them that failed. -/
def unremoved (s : Site) : List Handle := (s.unregisterings.filter (·.2.isSome)).map (·.1)

theorem unremoved_sublist (s : Site) : s.unremoved.Sublist s.unregistered :=
  List.filter_sublist.map _

theorem mem_unremoved {s : Site} {h : Handle} :
    h ∈ s.unremoved ↔ ∃ fault, .called (.unregister h (some fault)) ∈ s.journal := by
  unfold unremoved unregisterings
  constructor
  · intro hmem
    obtain ⟨⟨a, failed⟩, hcall, rfl⟩ := List.mem_map.1 hmem
    obtain ⟨hcall, hfailed⟩ := List.mem_filter.1 hcall
    obtain ⟨fault, rfl⟩ := Option.isSome_iff_exists.1 hfailed
    obtain ⟨event, he, hevent⟩ := List.mem_filterMap.1 hcall
    refine ⟨fault, ?_⟩
    unfold Event.unregistering? at hevent
    split at hevent
    · cases hevent
      exact he
    · cases hevent
  · rintro ⟨fault, he⟩
    exact List.mem_map.2 ⟨(h, some fault),
      List.mem_filter.2 ⟨List.mem_filterMap.2 ⟨_, he, rfl⟩, rfl⟩, rfl⟩

theorem unregisterings_append {s t : Site} {events : List Event}
    (h : t.journal = s.journal ++ events) (none : ∀ e ∈ events, e.unregistering? = none) :
    t.unregisterings = s.unregisterings := by
  unfold unregisterings
  rw [h, List.filterMap_append, List.filterMap_eq_nil_iff.2 none, List.append_nil]

theorem unregistered_log (s : Site) {event : Event} (h : event.unregistering? = none) :
    (s.log event).unregistered = s.unregistered :=
  congrArg (List.map _) (@unregisterings_append s (s.log event) [event] rfl (by simpa using h))

theorem unregisterings_tearDownOne (s : Site) (h : Handle) :
    ∃ fault : Option Fault,
      (fault.isNone = true ↔ s.space.failUnregister = none ∧ s.space.store.contains h.id = true) ∧
      (s.tearDownOne h).unregisterings = s.unregisterings ++ [(h, fault)] ∧
      (s.tearDownOne h).space.store.entries =
        (if fault.isNone then s.space.store.entries.filter (·.1 != h.id)
          else s.space.store.entries) ∧
      (s.tearDownOne h).space.store.issued = s.space.store.issued ∧
      (s.tearDownOne h).ledger = s.ledger := by
  obtain ⟨fault, reports, hfault, heq⟩ := tearDownOne_eq s h
  refine ⟨fault, hfault, ?_, ?_⟩
  · have rest : (reports.map Event.reported ++
        if s.space.plain then [] else [Event.called (.withdrawn h)]).filterMap
          Event.unregistering? = [] := by
      rw [List.filterMap_eq_nil_iff]
      intro e he
      rcases List.mem_append.1 he with he | he
      · obtain ⟨report, _, rfl⟩ := List.mem_map.1 he
        rfl
      · split at he
        · simp at he
        · rw [List.mem_singleton.1 he]
          rfl
    have call : Event.unregistering? (.called (.unregister h fault)) = some (h, fault) := rfl
    rw [heq]
    unfold unregisterings
    dsimp only
    rw [List.filterMap_append, List.filterMap_cons_some call, rest]
  · rw [heq]
    exact ⟨rfl, rfl, rfl⟩

theorem unregistered_tearDownOne (s : Site) (h : Handle) :
    (s.tearDownOne h).unregistered = s.unregistered ++ [h] := by
  obtain ⟨fault, _, calls, _⟩ := unregisterings_tearDownOne s h
  unfold unregistered
  rw [calls, List.map_append]
  rfl

theorem unregistered_tearDown (handles : List Handle) (s : Site) :
    (s.tearDown handles).unregistered = s.unregistered ++ handles := by
  induction handles generalizing s with
  | nil => exact (List.append_nil _).symm
  | cons h handles ih =>
    have rest := ih (s.tearDownOne h)
    rw [unregistered_tearDownOne, List.append_assoc] at rest
    exact rest

/-! ## The balance -/

/-- The registrations are accounted for, with some handles at hand. -/
structure Balanced (atHand : List Handle) (s : Site) : Prop where
  wellFormed : s.ledger.WellFormed
  live : s.space.store.handles.Perm (atHand ++ s.ledger.handles ++ s.unremoved)
  /-- A handle is in one group, once, and none is unregistered twice. -/
  distinct : ((atHand ++ s.ledger.handles ++ s.unregistered).map (·.id)).Nodup
  issued : ∀ h ∈ atHand ++ s.ledger.handles ++ s.unregistered, h.id ≤ s.space.store.issued

variable {s t : Site} {atHand : List Handle}

theorem Balanced.of_eq (b : Balanced atHand s) (ledger : t.ledger = s.ledger)
    (entries : t.space.store.entries = s.space.store.entries)
    (issued : t.space.store.issued = s.space.store.issued)
    (unregisterings : t.unregisterings = s.unregisterings) : Balanced atHand t where
  wellFormed := ledger ▸ b.wellFormed
  live := by
    unfold ServiceSpace.handles unremoved
    rw [entries, unregisterings, ledger]
    exact b.live
  distinct := by
    unfold unregistered
    rw [unregisterings, ledger]
    exact b.distinct
  issued := by
    unfold unregistered
    rw [unregisterings, ledger, issued]
    exact b.issued

theorem Balanced.ids_nodup (b : Balanced atHand s) :
    ((atHand ++ s.ledger.handles ++ s.unremoved).map (·.id)).Nodup :=
  b.distinct.sublist (((List.Sublist.refl _).append s.unremoved_sublist).map _)

theorem Balanced.ledger {atHand' : List Handle} (b : Balanced atHand s)
    (wellFormed : t.ledger.WellFormed)
    (moved : (atHand' ++ t.ledger.handles).Perm (atHand ++ s.ledger.handles))
    (entries : t.space.store.entries = s.space.store.entries)
    (issued : t.space.store.issued = s.space.store.issued)
    (unregisterings : t.unregisterings = s.unregisterings) : Balanced atHand' t where
  wellFormed := wellFormed
  live := by
    unfold ServiceSpace.handles unremoved
    rw [entries, unregisterings]
    exact b.live.trans (moved.symm.append_right _)
  distinct := by
    unfold unregistered
    rw [unregisterings]
    exact ((moved.append_right _).map _).nodup_iff.2 b.distinct
  issued := by
    unfold unregistered
    rw [unregisterings, issued]
    intro a ha
    exact b.issued a ((moved.append_right _).mem_iff.1 ha)

/-- A handle at hand that is taken away is unregistered for the first time. It goes, or it is one
more that could not be unregistered. -/
theorem Balanced.tearDownOne {h : Handle} (b : Balanced (h :: atHand) s) :
    Balanced atHand (s.tearDownOne h) := by
  obtain ⟨fault, hfault, calls, entries, issued, ledger⟩ := unregisterings_tearDownOne s h
  have registered : s.space.store.contains h.id = true := by
    rw [ServiceSpace.contains_iff]
    have : h ∈ s.space.store.handles := by
      rw [b.live.mem_iff]
      simp
    obtain ⟨e, he, heq⟩ := List.mem_map.1 this
    exact List.mem_map.2 ⟨e, he, congrArg Handle.id heq⟩
  have called := unregistered_tearDownOne s h
  have moved : (atHand ++ s.ledger.handles ++ (s.unregistered ++ [h])).Perm
      (h :: atHand ++ s.ledger.handles ++ s.unregistered) := by
    rw [← List.append_assoc]
    exact List.perm_append_singleton _ _
  refine ⟨ledger ▸ b.wellFormed, ?_, ?_, ?_⟩
  · unfold ServiceSpace.handles unremoved
    rw [calls, entries, ledger, List.filter_append, List.map_append]
    cases fault with
    | none =>
      have others : (atHand ++ s.ledger.handles ++ s.unremoved).filter (·.id != h.id) =
          atHand ++ s.ledger.handles ++ s.unremoved := by
        rw [List.filter_eq_self]
        have nodup := b.ids_nodup
        rw [List.cons_append, List.cons_append, List.map_cons, List.nodup_cons] at nodup
        intro a ha
        simp only [bne_iff_ne]
        intro he
        exact nodup.1 (List.mem_map.2 ⟨a, ha, he⟩)
      have gone := b.live.filter (·.id != h.id)
      rw [List.cons_append, List.cons_append, List.filter_cons_of_neg (by simp), others] at gone
      simpa [ServiceSpace.handles, List.filter_map, Function.comp_def, ServiceSpace.handleOf,
        unremoved] using gone
    | some fault =>
      refine b.live.trans ?_
      simp only [Option.isSome_some, List.filter_cons_of_pos, List.filter_nil, List.map_cons,
        List.map_nil]
      rw [← List.append_assoc]
      exact (List.perm_append_singleton _ _).symm
  · rw [called, ledger]
    exact (moved.map _).nodup_iff.2 b.distinct
  · rw [called, ledger, issued]
    intro a ha
    exact b.issued a (moved.mem_iff.1 ha)

theorem Balanced.log (b : Balanced atHand s) {e : Event} (h : e.unregistering? = none) :
    Balanced atHand (s.log e) :=
  b.of_eq rfl rfl rfl (unregisterings_append rfl (by simpa using h))

theorem Balanced.withStore (b : Balanced atHand s) {registration : Registration} {h : Handle}
    {store : ServiceSpace} (ok : s.space.store.register registration = .ok (h, store)) :
    Balanced (h :: atHand) (s.withStore store) := by
  obtain ⟨_, rfl, rfl⟩ := ServiceSpace.register_eq_ok_iff.1 ok
  refine ⟨b.wellFormed, ?_, ?_, ?_⟩
  · unfold Site.withStore ServiceSpace.handles
    dsimp only
    rw [List.map_append]
    exact (List.perm_append_singleton _ _).trans (b.live.cons _)
  · rw [List.cons_append, List.cons_append, List.map_cons, List.nodup_cons]
    refine ⟨?_, b.distinct⟩
    intro hmem
    obtain ⟨a, ha, hid⟩ := List.mem_map.1 hmem
    have := b.issued a ha
    dsimp only at hid
    omega
  · intro a ha
    rw [List.cons_append, List.cons_append, List.mem_cons] at ha
    rcases ha with rfl | ha
    · exact Nat.le_refl _
    · exact Nat.le_succ_of_le (b.issued a ha)

theorem Balanced.noteImport (b : Balanced atHand s) (h : Handle) (reference : Reference) :
    Balanced atHand (s.noteImport h reference) := by
  have heq := noteImport_eq h reference s
  have journal : (s.noteImport h reference).journal =
      s.journal ++ if s.space.plain then [] else [.called (.imported h reference)] := by rw [heq]
  refine b.of_eq ?_ ?_ ?_ (unregisterings_append journal ?_)
  · rw [heq]
  · rw [heq]
  · rw [heq]
  · split
    · simp
    · simp [Event.unregistering?]

/-! ## Steps -/

def Hand.handles (hand : Hand) : List Handle := hand.mappings.map (·.2)

theorem Balanced.given {hand : Hand} (b : Balanced hand.handles s)
    {mappings : List (Reference × Handle)} (wellFormed : t.ledger.WellFormed)
    (conserved : s.ledger.mappings.Perm (mappings ++ t.ledger.mappings))
    (space : t.space = s.space) (journal : t.journal = s.journal) :
    Balanced { hand with mappings := mappings ++ hand.mappings }.handles t := by
  have calls : t.unregisterings = s.unregisterings := by
    unfold unregisterings
    rw [journal]
  refine b.ledger wellFormed ?_ (by rw [space]) (by rw [space]) calls
  unfold Hand.handles
  rw [Ledger.handles_eq, Ledger.handles_eq, ← List.map_append, ← List.map_append]
  exact (Ledger.perm_of_given conserved).map (·.2)

theorem Loss.balanced {m n : Dealing} (loss : Loss m n) (b : Balanced m.hand.handles m.site)
    (alive : m.site.isAlive = true) : Balanced n.hand.handles n.site := by
  cases loss with
  | remark e h => exact b.log (Event.unregistering?_of_isRemark h)
  | place locations => exact b.of_eq rfl rfl rfl rfl
  | @withdrawEndpoint s hand endpointId =>
    rw [cancelAll_eq]
    exact b.given (b.wellFormed.withdrawEndpoint endpointId)
      (Ledger.mappings_withdrawEndpoint s.ledger endpointId) rfl rfl
  | @withdrawReference s hand c reference =>
    rw [cancelAll_eq]
    exact b.given (b.wellFormed.withdrawReference c reference)
      (Ledger.mappings_withdrawReference s.ledger c reference) rfl rfl
  | clear dead =>
    rw [alive] at dead
    cases dead
  | tearDown mapping => exact b.tearDownOne

theorem Losses.balanced {m n : Dealing} (losses : Losses m n) (b : Balanced m.hand.handles m.site)
    (alive : m.site.isAlive = true) : Balanced n.hand.handles n.site := by
  induction losses with
  | refl => exact b
  | tail losses loss ih =>
    have frame := Losses.leavesJobs losses
    exact loss.balanced ih (frame.isAlive.trans alive)

theorem Deal.balanced {m n : Dealing} (deal : Deal m n) (b : Balanced m.hand.handles m.site)
    (alive : m.site.isAlive = true) : Balanced n.hand.handles n.site := by
  cases deal with
  | loss loss => exact loss.balanced b alive
  | make c reference => exact b.log rfl
  | refuse interfaces => exact b.log rfl
  | register reference ok =>
    exact Balanced.noteImport ((b.withStore ok).log rfl) _ reference
  | @record s rest x e c reference h admission ledger ok =>
    have recorded := Ledger.handles_register b.wellFormed ok
    have moved : Balanced (rest.map (·.2)) { s with ledger } :=
      b.ledger (b.wellFormed.register ok)
        ((recorded.append_left _).trans List.perm_middle) rfl rfl rfl
    exact moved.log rfl
  | @subscribe s rest c =>
    have listening : Balanced (rest.map (·.2)) (s.subscribe c.adapter (.importer c.id)).2 := by
      rw [subscribe_eq]
      exact b.of_eq rfl rfl rfl rfl
    exact listening.log rfl
  | cancel =>
    rw [cancel_eq]
    exact b.of_eq rfl rfl rfl rfl

theorem Move.balanced {allowed : Command → Prop}
    (inside : ∀ c, allowed c → c.bypassesImporter = false) {m n : Dealing} (move : Move allowed m n)
    (b : m.site.isAlive = true → Balanced m.hand.handles m.site) (alive : n.site.isAlive = true) :
    Balanced n.hand.handles n.site := by
  cases move with
  | deal deal =>
    have before := deal.leavesJobs.isAlive.symm.trans alive
    exact deal.balanced (b before) before
  | aside h =>
    obtain ⟨events, journal, told⟩ := h.journal
    refine (b (h.alive alive)).of_eq h.ledger (by rw [h.store]) (by rw [h.store])
      (unregisterings_append journal ?_)
    exact fun event he => Event.unregistering?_of_isDealing (told event he)
  | @withdraw s hand key reference =>
    have fewer : Balanced hand.handles
        (s.updateAdapter key (·.withPublished (·.withdraw reference))) :=
      (b alive).of_eq rfl rfl rfl rfl
    exact fewer.log rfl
  | @meddle s hand c ok h =>
    have bypass := inside c ok
    cases c with
    | observe key label =>
      unfold perform at alive ⊢
      dsimp only at alive ⊢
      rw [subscribe_eq] at alive ⊢
      exact (b alive).of_eq rfl rfl rfl rfl
    | unsubscribe _ | noteImport _ _ | forgetImport _ => exact (b alive).of_eq rfl rfl rfl rfl
    | unregister _ | record _ _ _ _ _ | unrecordEndpoint _ | unrecordReference _ _ => cases bypass
    | _ => cases h

theorem Change.balanced {allowed : Command → Prop}
    (inside : ∀ c, allowed c → c.bypassesImporter = false) {m n : Moment}
    (change : Change allowed m n) (coherent : Coherent allowed m)
    (b : m.site.isAlive = true → Balanced [] m.site) :
    n.site.isAlive = true → Balanced [] n.site := by
  have all : ∀ {m n : Dealing}, Moves allowed m n →
      (m.site.isAlive = true → Balanced m.hand.handles m.site) →
        n.site.isAlive = true → Balanced n.hand.handles n.site := by
    intro m n moves b
    induction moves with
    | refl => exact b
    | tail _ move ih => exact move.balanced inside ih
  exact all (change.stride coherent).moves b

/-! ## Every run -/

theorem balanced_build {b : Blueprint} (h : Site.build b = .ok s) : Balanced [] s := by
  obtain ⟨heq, journal⟩ := build_eq h
  have calls : s.unregisterings = [] := by
    unfold unregisterings
    rcases journal with journal | journal
    · rw [journal]
      rfl
    · rw [journal]
      rfl
  have ledger : s.ledger = {} := by rw [heq]
  have store : s.space.store = {} := by rw [heq]
  refine ⟨ledger ▸ Ledger.WellFormed.empty, ?_, ?_, ?_⟩
  all_goals simp [ledger, store, unremoved, unregistered, calls, Ledger.handles,
    ServiceSpace.handles]

/-- While the importer is there and nobody goes past it, every registration is accounted for. -/
theorem Reachable.balanced (h : Reachable (·.bypassesImporter = false) s)
    (alive : s.isAlive = true) : Balanced [] s := by
  have kept := h.invariant (I := fun m => m.site.isAlive = true → Balanced [] m.site)
    (fun h _ => balanced_build h) fun coherent change =>
      change.balanced (fun _ ok => ok) coherent
  exact kept.2 alive

/-- While the importer is there and nobody goes past it, the live registrations are the handles in
the ledger and the handles that could not be unregistered. No handle is in both groups, none is
twice in the ledger, and none is unregistered twice. -/
theorem handles_accounted (h : Reachable (·.bypassesImporter = false) s)
    (alive : s.isAlive = true) :
    (∀ a, a ∈ s.space.store.handles ↔ a ∈ s.ledger.handles ∨ a ∈ s.unremoved) ∧
      s.ledger.handles.Disjoint s.unremoved ∧ s.ledger.handles.Nodup ∧ s.unregistered.Nodup := by
  have b := h.balanced alive
  have apart := (List.Nodup.of_map _ b.distinct)
  rw [List.nil_append, List.nodup_append] at apart
  obtain ⟨recorded, called, distinct⟩ := apart
  refine ⟨?_, ?_, recorded, called⟩
  · intro a
    rw [b.live.mem_iff, List.nil_append, List.mem_append]
  · intro a ha ha'
    exact distinct a ha a (s.unremoved_sublist.subset ha') rfl

/-- A lamp that came, could not be taken away when it left, and came again. -/
def lampTwice : Site :=
  ((((((litSite.perform (.available lampEndpoint)).poll (.resolution 0)).perform
    (.failUnregister (some "stuck"))).perform (.unavailable lampEndpoint)).perform
      (.available lampEndpoint)).poll (.resolution 1))

theorem handles_accounted_lampTwice :
    lampTwice.ledger.handles = [⟨2, ["Lamp"]⟩] ∧ lampTwice.unremoved = [⟨1, ["Lamp"]⟩] ∧
      (∀ a, a ∈ lampTwice.space.store.handles ↔
        a ∈ lampTwice.ledger.handles ∨ a ∈ lampTwice.unremoved) ∧
      lampTwice.ledger.handles.Disjoint lampTwice.unremoved ∧
      lampTwice.ledger.handles.Nodup ∧ lampTwice.unregistered.Nodup := by
  refine ⟨by rfl, by rfl, handles_accounted ?_ (by rfl)⟩
  refine .poll (.perform (.perform (.perform (.poll (.perform (reachable_litSite rfl) rfl ?_))
    rfl ?_) rfl ?_) rfl ?_)
  all_goals
    intro _
    rfl

end Site

end ServiceImport

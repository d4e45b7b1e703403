import ServiceImport.Proofs.Site.Proxies
import ServiceImport.Proofs.Site.Strides

/-! # Calls of the service space

The importer calls the service space about a proxy in one order: it registers it, notes its import,
unregisters it, and notes that it is gone. The first two calls come together and so do the last two,
whatever they answer. A space that keeps no table of imports hears of none.
-/

namespace ServiceImport

def Event.call? : Event → Option SpaceCall
  | .called call => some call
  | _ => none

namespace SpaceCall

def handle? : SpaceCall → Option Handle
  | register h _ | imported h _ | unregister h _ | withdrawn h => some h
  | registerFailed _ => none

def unregistered? : SpaceCall → Option Handle
  | unregister h _ => some h
  | _ => none

def concerns (n : Nat) (call : SpaceCall) : Bool := call.handle?.any (·.id == n)

/-- The calls by which a proxy comes. -/
def opening (plain : Bool) (h : Handle) (p : Properties) (r : Reference) : List SpaceCall :=
  register h p :: if plain then [] else [imported h r]

/-- The calls by which a proxy goes. -/
def closing (plain : Bool) (h : Handle) (fault : Option Fault) : List SpaceCall :=
  unregister h fault :: if plain then [] else [withdrawn h]

theorem filter_opening (plain : Bool) (h : Handle) (p : Properties) (r : Reference) (n : Nat) :
    (opening plain h p r).filter (concerns n) = if h.id = n then opening plain h p r else [] := by
  by_cases hn : h.id = n <;> cases plain <;> simp [opening, concerns, handle?, hn]

theorem filter_closing (plain : Bool) (h : Handle) (fault : Option Fault) (n : Nat) :
    (closing plain h fault).filter (concerns n) =
      if h.id = n then closing plain h fault else [] := by
  by_cases hn : h.id = n <;> cases plain <;> simp [closing, concerns, handle?, hn]

/-- Calls that consist of failed registrations, openings and closings. -/
inductive Paired (plain : Bool) : List SpaceCall → Prop
  | nil : Paired plain []
  | refused {calls : List SpaceCall} (interfaces : List String) :
      Paired plain calls → Paired plain (calls ++ [registerFailed interfaces])
  | opened {calls : List SpaceCall} (h : Handle) (p : Properties) (r : Reference) :
      Paired plain calls → Paired plain (calls ++ opening plain h p r)
  | closed {calls : List SpaceCall} (h : Handle) (fault : Option Fault) :
      Paired plain calls → Paired plain (calls ++ closing plain h fault)

/-- How far a handle can be, from the mappings that have it and the calls that are about it. -/
inductive Life (plain : Bool) : List (Reference × Handle) → List SpaceCall → Prop
  | unborn : Life plain [] []
  | held (h : Handle) (p : Properties) (r : Reference) :
      Life plain [(r, h)] (opening plain h p r)
  /-- Nobody has the handle any more who would unregister it. -/
  | lost (h : Handle) (p : Properties) (r : Reference) : Life plain [] (opening plain h p r)
  | gone (h : Handle) (p : Properties) (r : Reference) (fault : Option Fault) :
      Life plain [] (opening plain h p r ++ closing plain h fault)

variable {plain : Bool} {held held' : List (Reference × Handle)} {calls : List SpaceCall}

theorem Life.of_subperm (life : Life plain held calls) (fewer : held'.Subperm held) :
    Life plain held' calls := by
  obtain ⟨kept, perm, sub⟩ := fewer
  cases life with
  | held h p r =>
    rcases List.sublist_singleton.1 sub with rfl | rfl
    · rw [List.nil_perm.1 perm]
      exact .lost h p r
    · rw [← List.singleton_perm.1 perm]
      exact .held h p r
  | unborn | lost _ _ _ | gone _ _ _ _ =>
    rw [List.sublist_nil.1 sub, List.nil_perm] at perm
    rw [perm]
    constructor

end SpaceCall

namespace Site

open SpaceCall

/-! ## What the steps call -/

def calls (s : Site) : List SpaceCall := s.journal.filterMap Event.call?

def callsOn (s : Site) (n : Nat) : List SpaceCall := s.calls.filter (concerns n)

variable {s t : Site} {allowed : Command → Prop}

theorem calls_append {events : List Event} (h : t.journal = s.journal ++ events) :
    t.calls = s.calls ++ events.filterMap Event.call? := by
  unfold calls
  rw [h, List.filterMap_append]

theorem calls_eq {events : List Event} (h : t.journal = s.journal ++ events)
    (silent : ∀ event ∈ events, event.call? = none) : t.calls = s.calls := by
  rw [calls_append h, List.filterMap_eq_nil_iff.2 silent, List.append_nil]

theorem calls_remark {e : Event} (h : e.isRemark = true) (s : Site) :
    (s.log e).calls = s.calls := by
  refine @calls_eq s (s.log e) [e] rfl ?_
  intro event he
  obtain rfl := List.mem_singleton.1 he
  cases event <;> first | rfl | cases h

theorem calls_log (s : Site) {e : Event} (h : e.call? = none) : (s.log e).calls = s.calls :=
  calls_eq rfl (by simpa using h)

theorem calls_refuse (interfaces : List String) (s : Site) :
    (s.log (.called (.registerFailed interfaces))).calls =
      s.calls ++ [.registerFailed interfaces] :=
  @calls_append s _ [.called (.registerFailed interfaces)] rfl

theorem calls_tearDownOne (s : Site) (h : Handle) :
    ∃ fault, (s.tearDownOne h).calls = s.calls ++ closing s.space.plain h fault := by
  obtain ⟨fault, reports, _, heq⟩ := tearDownOne_eq s h
  have silent : (reports.map Event.reported).filterMap Event.call? = [] := by
    rw [List.filterMap_eq_nil_iff]
    intro event he
    obtain ⟨report, _, rfl⟩ := List.mem_map.1 he
    rfl
  have journal : (s.tearDownOne h).journal = s.journal ++ .called (.unregister h fault) ::
      (reports.map .reported ++ if s.space.plain then [] else [.called (.withdrawn h)]) := by
    rw [heq]
  refine ⟨fault, ?_⟩
  rw [calls_append journal, List.filterMap_cons, List.filterMap_append, silent]
  by_cases hplain : s.space.plain = true <;> simp [hplain, closing, Event.call?]

theorem calls_register (s : Site) (store : ServiceSpace) (h : Handle) (p : Properties)
    (r : Reference) :
    (((s.withStore store).log (.called (.register h p))).noteImport h r).calls =
      s.calls ++ opening s.space.plain h p r := by
  have heq := noteImport_eq h r ((s.withStore store).log (.called (.register h p)))
  rw [calls_append (congrArg Site.journal heq)]
  unfold calls
  by_cases hplain : s.space.plain = true <;> simp [hplain, opening, Event.call?, log, withStore]

theorem Aside.calls (h : Aside s t) : t.calls = s.calls := by
  obtain ⟨events, journal, silent⟩ := h.journal
  refine calls_eq journal fun event he => ?_
  have := silent event he
  cases event <;> first | rfl | cases this

theorem calls_withdrawn (key : String) (reference : Nat) (s : Site) :
    (s.withdrawn key reference).calls = s.calls :=
  @calls_eq s _ [.withdrew key reference] rfl (by simp [Event.call?])

theorem calls_meddle {c : Command} (h : c.isMeddling = true) (s : Site) :
    (s.perform c).calls = s.calls := by
  unfold calls
  rw [journal_meddle h]

/-! ## The calls about one handle -/

/-- Where the handle with a number is, as far as the calls about it go. -/
structure Tracked (n : Nat) (d : Dealing) : Prop where
  wellFormed : d.site.ledger.WellFormed
  life : Life d.site.space.plain
    ((d.hand.mappings ++ d.site.ledger.mappings).filter (·.2.id == n)) (d.site.callsOn n)
  fresh : d.site.space.store.issued < n → d.site.callsOn n = []

variable {n : Nat} {hand hand' : Hand}

theorem Tracked.of_subperm (tracked : Tracked n ⟨s, hand⟩) (wellFormed : t.ledger.WellFormed)
    (plain : t.space.plain = s.space.plain)
    (issued : s.space.store.issued ≤ t.space.store.issued)
    (fewer : ((hand'.mappings ++ t.ledger.mappings).filter (·.2.id == n)).Subperm
      ((hand.mappings ++ s.ledger.mappings).filter (·.2.id == n)))
    (calls : t.callsOn n = s.callsOn n) : Tracked n ⟨t, hand'⟩ where
  wellFormed := wellFormed
  life := by
    dsimp only
    rw [plain, calls]
    exact tracked.life.of_subperm fewer
  fresh := by
    dsimp only
    rw [calls]
    exact fun h => tracked.fresh (Nat.lt_of_le_of_lt issued h)

theorem Tracked.of_eq (tracked : Tracked n ⟨s, hand⟩) (ledger : t.ledger = s.ledger)
    (plain : t.space.plain = s.space.plain)
    (issued : t.space.store.issued = s.space.store.issued)
    (mappings : hand'.mappings = hand.mappings) (calls : t.callsOn n = s.callsOn n) :
    Tracked n ⟨t, hand'⟩ := by
  refine tracked.of_subperm (ledger ▸ tracked.wellFormed) plain (Nat.le_of_eq issued.symm) ?_ calls
  rw [ledger, mappings]

theorem Tracked.tearDown {rest : List (Reference × Handle)} {x : Option Subscription}
    {mapping : Reference × Handle} (tracked : Tracked n ⟨s, mapping :: rest, x⟩) :
    Tracked n ⟨s.tearDownOne mapping.2, rest, x⟩ := by
  obtain ⟨fault, calls⟩ := calls_tearDownOne s mapping.2
  obtain ⟨_, _, _, _, issued, ledger⟩ := unregisterings_tearDownOne s mapping.2
  have plain := (leavesJobs_tearDownOne s mapping.2).fixed.plain
  have on : (s.tearDownOne mapping.2).callsOn n = s.callsOn n ++
      if mapping.2.id = n then closing s.space.plain mapping.2 fault else [] := by
    unfold callsOn
    rw [calls, List.filter_append, filter_closing]
  by_cases hn : mapping.2.id = n
  · rw [if_pos hn] at on
    obtain ⟨wellFormed, life, fresh⟩ := tracked
    dsimp only at wellFormed life fresh
    rw [List.cons_append, List.filter_cons_of_pos (by simpa using hn)] at life
    -- The handle at hand is the only one with the number.
    generalize hcalls : s.callsOn n = old at life fresh on
    generalize hheld : mapping :: (rest ++ s.ledger.mappings).filter (·.2.id == n) = held at life
    cases life with
    | held h p r =>
      obtain ⟨rfl, hrest⟩ := List.cons.inj hheld
      refine ⟨ledger ▸ wellFormed, ?_, ?_⟩
      · dsimp only
        rw [on, plain, ledger, hrest]
        exact .gone _ _ _ _
      · dsimp only
        rw [issued]
        intro hlt
        simp [opening] at fresh
        omega
    | unborn | lost _ _ _ | gone _ _ _ _ => simp at hheld
  · rw [if_neg hn, List.append_nil] at on
    refine tracked.of_subperm (ledger ▸ tracked.wellFormed) plain (Nat.le_of_eq issued.symm) ?_ on
    rw [ledger, List.cons_append, List.filter_cons_of_neg (by simpa using hn)]

theorem Tracked.register (tracked : Tracked n ⟨s, hand⟩) {registration : Registration} {h : Handle}
    {store : ServiceSpace} (ok : s.space.store.register registration = .ok (h, store))
    (reference : Reference) :
    Tracked n
      ⟨((s.withStore store).log (.called (.register h registration.properties))).noteImport h
          reference,
        { hand with mappings := (reference, h) :: hand.mappings }⟩ := by
  obtain ⟨_, hid, hstore⟩ := ServiceSpace.register_eq_ok_iff.1 ok
  have calls := calls_register s store h registration.properties reference
  obtain ⟨t, ht⟩ : ∃ t, t = ((s.withStore store).log
    (.called (.register h registration.properties))).noteImport h reference := ⟨_, rfl⟩
  rw [← ht] at calls ⊢
  rw [noteImport_eq] at ht
  have ledger : t.ledger = s.ledger := by rw [ht]; rfl
  have plain : t.space.plain = s.space.plain := by rw [ht]; rfl
  have issued : t.space.store.issued = s.space.store.issued + 1 := by
    rw [ht]
    dsimp only [log, withStore]
    rw [hstore]
  have on : t.callsOn n = s.callsOn n ++
      if h.id = n then opening s.space.plain h registration.properties reference else [] := by
    unfold callsOn
    rw [calls, List.filter_append, filter_opening]
  by_cases hn : h.id = n
  · -- The space gives out numbers in order, and nothing was called about one that is to come.
    have new : s.callsOn n = [] := by
      apply tracked.fresh
      dsimp only
      rw [← hn, hid]
      exact Nat.lt_succ_self _
    rw [if_pos hn, new, List.nil_append] at on
    have life := tracked.life
    dsimp only at life
    rw [new] at life
    generalize hheld : (hand.mappings ++ s.ledger.mappings).filter (·.2.id == n) = held at life
    cases life
    refine ⟨ledger ▸ tracked.wellFormed, ?_, ?_⟩
    · dsimp only
      rw [on, plain, ledger, List.cons_append, List.filter_cons_of_pos (by simpa using hn), hheld]
      exact .held _ _ _
    · dsimp only
      rw [issued, ← hn, hid]
      intro hlt
      exact absurd hlt (Nat.lt_irrefl _)
  · rw [if_neg hn, List.append_nil] at on
    refine tracked.of_subperm (ledger ▸ tracked.wellFormed) plain (by omega) ?_ on
    rw [ledger, List.cons_append, List.filter_cons_of_neg (by simpa using hn)]

theorem Tracked.given (tracked : Tracked n ⟨s, hand⟩) {mappings : List (Reference × Handle)}
    (wellFormed : t.ledger.WellFormed)
    (conserved : s.ledger.mappings.Perm (mappings ++ t.ledger.mappings))
    (space : t.space = s.space) (journal : t.journal = s.journal) :
    Tracked n ⟨t, { hand with mappings := mappings ++ hand.mappings }⟩ := by
  refine tracked.of_subperm wellFormed (by rw [space]) (by rw [space]) ?_ ?_
  · exact ((Ledger.perm_of_given conserved).filter _).subperm
  · unfold callsOn calls
    rw [journal]

theorem Tracked.lost (tracked : Tracked n ⟨s, hand⟩) {mappings : List (Reference × Handle)}
    (wellFormed : t.ledger.WellFormed)
    (conserved : s.ledger.mappings.Perm (mappings ++ t.ledger.mappings))
    (space : t.space = s.space) (journal : t.journal = s.journal) : Tracked n ⟨t, hand⟩ := by
  refine tracked.of_subperm wellFormed (by rw [space]) (by rw [space]) ?_ ?_
  · exact (Ledger.subperm_of_given conserved).filter _
  · unfold callsOn calls
    rw [journal]

theorem Loss.tracked {m d : Dealing} (loss : Loss m d) (tracked : Tracked n m) : Tracked n d := by
  cases loss with
  | remark e h =>
    exact tracked.of_eq rfl rfl rfl rfl (congrArg (List.filter (concerns n)) (calls_remark h _))
  | place locations => exact tracked.of_eq rfl rfl rfl rfl rfl
  | @withdrawEndpoint s hand endpointId =>
    rw [cancelAll_eq]
    exact tracked.given (tracked.wellFormed.withdrawEndpoint endpointId)
      (Ledger.mappings_withdrawEndpoint s.ledger endpointId) rfl rfl
  | @withdrawReference s hand c reference =>
    rw [cancelAll_eq]
    exact tracked.given (tracked.wellFormed.withdrawReference c reference)
      (Ledger.mappings_withdrawReference s.ledger c reference) rfl rfl
  | clear _ =>
    rw [cancelAll_eq]
    exact tracked.lost Ledger.WellFormed.empty (List.Perm.of_eq (List.append_nil _).symm) rfl rfl
  | tearDown mapping => exact tracked.tearDown

theorem Deal.tracked {m d : Dealing} (deal : Deal m d) (tracked : Tracked n m) : Tracked n d := by
  cases deal with
  | loss loss => exact loss.tracked tracked
  | make c reference =>
    exact tracked.of_eq rfl rfl rfl rfl (congrArg (List.filter (concerns n)) (calls_log _ rfl))
  | refuse interfaces =>
    refine tracked.of_eq rfl rfl rfl rfl ?_
    unfold callsOn
    rw [calls_refuse, List.filter_append]
    exact List.append_nil _
  | register reference ok => exact tracked.register ok reference
  | @record s rest x e c reference h admission ledger ok =>
    have recorded := Ledger.mappings_register tracked.wellFormed ok
    refine tracked.of_subperm (tracked.wellFormed.register ok) rfl (Nat.le_refl _) ?_
      (congrArg (List.filter (concerns n)) (calls_log _ rfl))
    exact (((recorded.append_left rest).trans List.perm_middle).filter _).subperm
  | subscribe c =>
    rw [subscribe_eq]
    exact tracked.of_eq rfl rfl rfl rfl (congrArg (List.filter (concerns n)) (calls_log _ rfl))
  | cancel =>
    rw [cancel_eq]
    exact tracked.of_eq rfl rfl rfl rfl rfl

theorem Tracked.meddle (tracked : Tracked n ⟨s, hand⟩) {c : Command} (h : c.isMeddling = true)
    (own : ∀ e container reference a x, c = .record e container reference a x → a.id ≠ n) :
    Tracked n ⟨s.perform c, hand⟩ := by
  cases c with
  | unregister a =>
    unfold perform
    dsimp only
    split
    · next store hstore =>
      obtain ⟨_, rfl⟩ := ServiceSpace.unregister_eq_ok_iff.1 hstore
      exact tracked.of_eq rfl rfl rfl rfl rfl
    · exact tracked
  | noteImport a reference => exact tracked.of_eq rfl rfl rfl rfl rfl
  | forgetImport a => exact tracked.of_eq rfl rfl rfl rfl rfl
  | record e container reference a x =>
    have other := own e container reference a x rfl
    unfold perform record
    dsimp only
    rw [cancel_eq]
    rcases Ledger.enroll_cases s.ledger e container reference a x with refused | ⟨_, ok⟩
    · rw [refused]
      exact tracked.of_eq rfl rfl rfl rfl rfl
    · refine tracked.of_subperm (tracked.wellFormed.register ok) rfl (Nat.le_refl _) ?_ rfl
      have perm := ((Ledger.mappings_register tracked.wellFormed ok).append_left
        hand.mappings).trans List.perm_middle
      have fewer := (perm.filter (·.2.id == n)).subperm
      rwa [List.filter_cons_of_neg (by simpa using other)] at fewer
  | unrecordEndpoint e =>
    unfold perform unrecordEndpoint
    dsimp only
    rw [cancelAll_eq]
    exact tracked.lost (tracked.wellFormed.withdrawEndpoint e.id)
      (Ledger.mappings_withdrawEndpoint s.ledger e.id) rfl rfl
  | unrecordReference container reference =>
    unfold perform unrecordReference
    dsimp only
    rw [cancelAll_eq]
    exact tracked.lost (tracked.wellFormed.withdrawReference container reference)
      (Ledger.mappings_withdrawReference s.ledger container reference) rfl rfl
  | observe key label =>
    unfold perform
    dsimp only
    rw [subscribe_eq]
    exact tracked.of_eq rfl rfl rfl rfl rfl
  | unsubscribe x => exact tracked.of_eq rfl rfl rfl rfl rfl
  | _ => simp [Command.isMeddling] at h

theorem Move.tracked (own : ∀ e c r a x, allowed (.record e c r a x) → a.id ≠ n)
    {m d : Dealing} (move : Move allowed m d) (tracked : Tracked n m) : Tracked n d := by
  cases move with
  | deal deal => exact deal.tracked tracked
  | aside h =>
    exact tracked.of_eq h.ledger h.plain (by rw [h.store]) rfl
      (congrArg (List.filter (concerns n)) h.calls)
  | @withdraw s hand key reference =>
    exact tracked.of_eq rfl rfl rfl rfl
      (congrArg (List.filter (concerns n)) (calls_withdrawn key reference s))
  | meddle ok h =>
    refine tracked.meddle h ?_
    rintro e container reference a x rfl
    exact own e container reference a x ok

/-! ## All calls -/

theorem Loss.paired {m d : Dealing} (loss : Loss m d)
    (paired : Paired m.site.space.plain m.site.calls) :
    Paired d.site.space.plain d.site.calls := by
  rw [loss.leavesJobs.fixed.plain]
  cases loss with
  | remark e h =>
    dsimp only
    rwa [calls_remark h]
  | place locations => exact paired
  | withdrawEndpoint endpointId | withdrawReference c reference | clear _ =>
    dsimp only
    rwa [cancelAll_eq]
  | @tearDown s rest x mapping =>
    obtain ⟨fault, calls⟩ := calls_tearDownOne s mapping.2
    dsimp only
    rw [calls]
    exact paired.closed mapping.2 fault

theorem Deal.paired {m d : Dealing} (deal : Deal m d)
    (paired : Paired m.site.space.plain m.site.calls) :
    Paired d.site.space.plain d.site.calls := by
  rw [deal.leavesJobs.fixed.plain]
  cases deal with
  | loss loss =>
    rw [← loss.leavesJobs.fixed.plain]
    exact loss.paired paired
  | make c reference =>
    dsimp only
    rwa [calls_log _ rfl]
  | refuse interfaces =>
    dsimp only
    rw [calls_refuse]
    exact paired.refused interfaces
  | register reference ok =>
    dsimp only
    rw [calls_register]
    exact paired.opened _ _ reference
  | record ok =>
    dsimp only
    rwa [calls_log _ rfl]
  | subscribe c =>
    dsimp only
    rwa [calls_log _ rfl, subscribe_eq]
  | cancel =>
    dsimp only
    rwa [cancel_eq]

theorem Move.paired {m d : Dealing} (move : Move allowed m d)
    (paired : Paired m.site.space.plain m.site.calls) :
    Paired d.site.space.plain d.site.calls := by
  cases move with
  | deal deal => exact deal.paired paired
  | aside h => rwa [h.plain, h.calls]
  | withdraw key reference =>
    dsimp only
    rwa [calls_withdrawn]
  | @meddle s hand c _ h =>
    dsimp only
    rwa [(performed s c).fixed.plain, calls_meddle h]

/-! ## Every run -/

theorem calls_build {b : Blueprint} (h : Site.build b = .ok s) : s.calls = [] := by
  obtain ⟨_, journal⟩ := build_eq h
  unfold calls
  rcases journal with journal | journal
  · rw [journal]
    rfl
  · rw [journal]
    rfl

theorem tracked_build {b : Blueprint} (h : Site.build b = .ok s) : Tracked n ⟨s, {}⟩ := by
  have ledger : s.ledger = {} := by rw [(build_eq h).1]
  have on : s.callsOn n = [] := by rw [callsOn, calls_build h]; rfl
  refine ⟨ledger ▸ Ledger.WellFormed.empty, ?_, fun _ => on⟩
  dsimp only
  rw [on, ledger]
  exact .unborn

theorem Reachable.tracked (h : Reachable allowed s)
    (own : ∀ e c r a x, allowed (.record e c r a x) → a.id ≠ n) : Tracked n ⟨s, {}⟩ :=
  h.dealing (I := Tracked n) tracked_build fun move => move.tracked own

theorem Reachable.paired (h : Reachable allowed s) : Paired s.space.plain s.calls :=
  h.dealing (I := fun d => Paired d.site.space.plain d.site.calls)
    (fun h => by dsimp only; rw [calls_build h]; exact .nil) fun move => move.paired

theorem unregistered_on (s : Site) (n : Nat) :
    s.unregistered.filter (·.id == n) = (s.callsOn n).filterMap unregistered? := by
  unfold unregistered unregisterings callsOn calls
  rw [List.map_filterMap, List.filter_filterMap, List.filterMap_filter, List.filterMap_filterMap]
  congr 1
  funext event
  cases event with
  | called call =>
    cases call with
    | unregister h fault =>
      by_cases hn : h.id = n
      · simp [Event.unregistering?, Event.call?, concerns, handle?, unregistered?, hn]
      · simp [Event.unregistering?, Event.call?, concerns, handle?, unregistered?, hn]
    | _ => simp [Event.unregistering?, Event.call?, unregistered?]
  | _ => rfl

theorem unregistered_opening (plain : Bool) (h : Handle) (p : Properties) (r : Reference) :
    (opening plain h p r).filterMap unregistered? = [] := by cases plain <;> rfl

theorem unregistered_closing (plain : Bool) (h : Handle) (fault : Option Fault) :
    (closing plain h fault).filterMap unregistered? = [h] := by cases plain <;> rfl

/-- A recorded handle that nobody else recorded is in one mapping, and was not unregistered. -/
theorem Reachable.held (h : Reachable allowed s) {a : Handle} (there : a ∈ s.ledger.handles)
    (own : ∀ e c r b x, allowed (.record e c r b x) → b.id ≠ a.id) :
    s.ledger.handles.filter (·.id == a.id) = [a] ∧ s.unregistered.filter (·.id == a.id) = [] := by
  have life : Life s.space.plain (s.ledger.mappings.filter (·.2.id == a.id)) (s.callsOn a.id) :=
    (h.tracked own).life
  rw [Ledger.handles_eq] at there ⊢
  obtain ⟨m, hm, rfl⟩ := List.mem_map.1 there
  have mapped : m ∈ s.ledger.mappings.filter (·.2.id == m.2.id) :=
    List.mem_filter.2 ⟨hm, beq_self_eq_true _⟩
  rw [List.filter_map, unregistered_on]
  show (s.ledger.mappings.filter (·.2.id == m.2.id)).map (·.2) = [m.2] ∧ _
  generalize s.ledger.mappings.filter (·.2.id == m.2.id) = held at life mapped
  generalize s.callsOn m.2.id = calls at life
  cases life with
  | held b p r =>
    obtain rfl := List.mem_singleton.1 mapped
    exact ⟨rfl, unregistered_opening _ _ _ _⟩
  | unborn | lost _ _ _ | gone _ _ _ _ => cases mapped

/-- What the ledger gives away is unregistered then, and at no other time, as far as nobody else
recorded it. -/
theorem Reachable.unregistered_once (h : Reachable allowed s) {given : List Handle}
    (called : t.unregistered = s.unregistered ++ given) (held : given.Subperm s.ledger.handles)
    {a : Handle} (there : a ∈ given)
    (own : ∀ e c r b x, allowed (.record e c r b x) → b.id ≠ a.id) :
    t.unregistered.filter (·.id == a.id) = [a] := by
  obtain ⟨once, before⟩ := h.held (held.subset there) own
  obtain ⟨now, perm, part⟩ := held.filter (·.id == a.id)
  rw [once] at part
  rw [called, List.filter_append, before, List.nil_append]
  rcases List.sublist_singleton.1 part with rfl | rfl
  · exact absurd (beq_self_eq_true a.id)
      (List.filter_eq_nil_iff.1 (List.nil_perm.1 perm) a there)
  · exact List.singleton_perm.1 perm |>.symm

/-- The calls about a handle that nobody else recorded are a beginning of its opening and its
closing, and it is unregistered once at most. All calls together are failed registrations, openings
and closings. -/
theorem calls_in_order (h : Reachable allowed s)
    (own : ∀ e c r a x, allowed (.record e c r a x) → a.id ≠ n) :
    (∃ a p r fault, s.callsOn n <+: opening s.space.plain a p r ++ closing s.space.plain a fault) ∧
      (s.unregistered.filter (·.id == n)).length ≤ 1 ∧ Paired s.space.plain s.calls := by
  have tracked := h.tracked own
  rw [unregistered_on, ← and_assoc]
  refine ⟨?_, h.paired⟩
  obtain ⟨held, life⟩ : ∃ held, Life s.space.plain held (s.callsOn n) := ⟨_, tracked.life⟩
  generalize s.callsOn n = calls at life
  cases life with
  | unborn =>
    exact ⟨⟨⟨0, []⟩, .empty, ⟨0, ⟨"", ""⟩, .empty⟩, none, List.nil_prefix⟩, Nat.zero_le _⟩
  | held a p r | lost a p r =>
    refine ⟨⟨a, p, r, none, List.prefix_append _ _⟩, ?_⟩
    rw [unregistered_opening]
    exact Nat.zero_le 1
  | gone a p r fault =>
    refine ⟨⟨a, p, r, fault, List.prefix_rfl⟩, ?_⟩
    rw [List.filterMap_append, unregistered_opening, unregistered_closing]
    exact Nat.le_refl 1

/-- The first lamp was registered, and unregistering it failed. -/
theorem calls_in_order_lampTwice :
    (∃ p r, lampTwice.callsOn 1 =
      [.register ⟨1, ["Lamp"]⟩ p, .imported ⟨1, ["Lamp"]⟩ r,
        .unregister ⟨1, ["Lamp"]⟩ (some (.serviceSpace "stuck")), .withdrawn ⟨1, ["Lamp"]⟩]) ∧
      (∃ a p r fault, lampTwice.callsOn 1 <+: opening false a p r ++ closing false a fault) ∧
      (lampTwice.unregistered.filter (·.id == 1)).length ≤ 1 ∧ Paired false lampTwice.calls := by
  refine ⟨⟨_, _, rfl⟩, @calls_in_order lampTwice (·.bypassesImporter = false) 1 ?_
    (by simp [Command.bypassesImporter])⟩
  refine .poll (.perform (.perform (.perform (.poll (.perform (reachable_litSite rfl) rfl ?_))
    rfl ?_) rfl ?_) rfl ?_)
  all_goals
    intro _
    rfl

end Site

end ServiceImport

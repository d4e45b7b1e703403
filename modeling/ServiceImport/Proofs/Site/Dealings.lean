import ServiceImport.Proofs.Ledger.Handles
import ServiceImport.Proofs.Site.Turns

/-! # Dealings

What operations do with records, proxies and listeners, in small steps. An operation that gives
mappings away or registers a proxy has them in its hand until they are torn down or recorded. What
every step keeps is true between any two moves of any run, and need not follow the operations.
-/

namespace ServiceImport

/-! ## Entries of the journal -/

def Event.isRemark : Event → Bool
  | .reported _ | .heard .. | .left _ | .emptied _ => true
  | _ => false

/-- Whether an entry tells how an import goes on, or what reached the service space. -/
def Event.isDealing : Event → Bool
  | .called _ | .opened _ | .proxied .. | .recorded .. => true
  | _ => false

/-- Whether an entry tells a call of the service space, or is a report. -/
def Event.isCall : Event → Bool
  | .called _ | .reported _ => true
  | _ => false

/-- Whether an entry tells how a resolution comes, goes or is answered for. -/
def Event.isCourse : Event → Bool
  | .started .. | .completed .. | .aborted .. | .collected _ => true
  | _ => false

/-- Whether an entry tells what goes, or is a remark. -/
def Event.isLoss : Event → Bool
  | .called (.unregister ..) | .called (.withdrawn _) => true
  | event => event.isRemark

theorem Event.isCourse_of_isLoss {event : Event} (h : event.isLoss = true) :
    event.isCourse = false := by
  cases event <;> first | rfl | cases h

/-- Whether an entry tells that an import begins, or that it made or recorded a proxy. -/
def Event.isImport : Event → Bool
  | .opened _ | .proxied .. | .recorded .. => true
  | _ => false

theorem Event.isImport_of_isLoss {event : Event} (h : event.isLoss = true) :
    event.isImport = false := by
  cases event <;> first | rfl | cases h

theorem Event.isImport_of_isCall {event : Event} (h : event.isCall = true) :
    event.isImport = false := by
  cases event <;> first | rfl | cases h

theorem Event.isImport_of_isDealing {event : Event} (h : event.isDealing = false) :
    event.isImport = false := by
  cases event <;> first | rfl | cases h

/-- Whether a command may come from outside and change what the importer deals with. -/
def Command.isMeddling : Command → Bool
  | .unregister _ | .noteImport .. | .forgetImport _ | .record .. | .unrecordEndpoint _
  | .unrecordReference .. | .observe .. | .unsubscribe _ => true
  | _ => false

namespace Site

/-! ## Listeners and services -/

/-- Who listens on an adapter, and how many ever did. -/
def audience (s : Site) (key : String) : Option (List (Nat × Listener) × Nat) :=
  (s.adapter? key).map fun a => (a.listeners, a.subscribed)

/-- Whether an adapter has a service, as far as it holds services itself. -/
def offers (s : Site) (key : String) (reference : Nat) : Prop :=
  ∃ a, s.adapter? key = some a ∧ ∀ p, a.backend = .memory p → (p.find? reference).isSome = true

structure KeepsAdapters (s t : Site) : Prop where
  audience : t.audience = s.audience
  offers : ∀ {key reference}, s.offers key reference → t.offers key reference

theorem KeepsAdapters.of_eq {s t : Site} (h : t.adapters = s.adapters) : KeepsAdapters s t := by
  have adapter? : t.adapter? = s.adapter? := by
    funext key
    unfold Site.adapter?
    rw [h]
  refine ⟨?_, ?_⟩
  · unfold Site.audience
    rw [adapter?]
  · unfold Site.offers
    rw [adapter?]
    exact id

theorem KeepsAdapters.trans {s t u : Site} (hst : KeepsAdapters s t) (htu : KeepsAdapters t u) :
    KeepsAdapters s u :=
  ⟨htu.audience.trans hst.audience, fun offered => htu.offers (hst.offers offered)⟩

theorem audience_updateAdapter {f : Adapter → Adapter} (key : String) (s : Site)
    (h : ∀ a, (f a).listeners = a.listeners ∧ (f a).subscribed = a.subscribed) :
    (s.updateAdapter key f).audience = s.audience := by
  funext k
  unfold audience
  rw [adapter?_updateAdapter]
  split
  · rw [Option.map_map]
    congr 1
    funext a
    exact Prod.ext (h a).1 (h a).2
  · rfl

theorem offers_updateAdapter {f : Adapter → Adapter} {key : String} {s : Site}
    (h : ∀ a p, s.adapter? key = some a → (f a).backend = .memory p →
      ∃ q, a.backend = .memory q ∧ ∀ r ∈ q.services, r ∈ p.services) {k : String} {reference : Nat}
    (offered : s.offers k reference) : (s.updateAdapter key f).offers k reference := by
  obtain ⟨a, there, has⟩ := offered
  unfold offers
  rw [adapter?_updateAdapter]
  split
  · next hk =>
    subst hk
    refine ⟨f a, by rw [there]; rfl, ?_⟩
    intro p hp
    obtain ⟨q, hq, sub⟩ := h a p there hp
    obtain ⟨r, hr, hid⟩ := List.find?_isSome.1 (has q hq)
    exact List.find?_isSome.2 ⟨r, sub r hr, hid⟩
  · exact ⟨a, there, has⟩

theorem audience_withPublished (key : String) (f : PublishedServices → PublishedServices)
    (s : Site) : (s.updateAdapter key (·.withPublished f)).audience = s.audience := by
  apply audience_updateAdapter
  intro a
  unfold Adapter.withPublished
  split <;> exact ⟨rfl, rfl⟩

theorem keepsAdapters_withPublished {key : String} {f : PublishedServices → PublishedServices}
    {s : Site} (h : ∀ a q, s.adapter? key = some a → a.backend = .memory q →
      ∀ r ∈ q.services, r ∈ (f q).services) :
    KeepsAdapters s (s.updateAdapter key (·.withPublished f)) := by
  refine ⟨audience_withPublished key f s, offers_updateAdapter fun a p there hp => ?_⟩
  obtain ⟨q, hq, rfl⟩ := Adapter.memory_of_withPublished hp
  exact ⟨q, hq, h a q there hq⟩

theorem keepsAdapters_withScript (key : String) (f : Script → Script) (s : Site) :
    KeepsAdapters s (s.updateAdapter key (·.withScript f)) := by
  refine ⟨audience_updateAdapter key s fun a => ?_, offers_updateAdapter fun a p there hp => ?_⟩
  · unfold Adapter.withScript
    split <;> exact ⟨rfl, rfl⟩
  · unfold Adapter.withScript at hp
    split at hp
    · exact ⟨p, hp, fun _ => id⟩
    · cases hp

theorem keepsAdapters_countLookups (e : Endpoint) (c : Candidate) (s : Site) :
    KeepsAdapters s (s.countLookups e c) :=
  ⟨audience_updateAdapter c.adapter s fun _ => ⟨rfl, rfl⟩,
    offers_updateAdapter (f := (·.countLookups e.interfaces.length)) fun _ p _ hp =>
      ⟨p, hp, fun _ => id⟩⟩

theorem keepsAdapters_publishService (key : String) (interfaces : List String)
    (properties : Properties) (s : Site) :
    KeepsAdapters s (s.publishService key interfaces properties).2 := by
  unfold publishService
  split
  · next there =>
    refine keepsAdapters_withPublished fun a q ha hq r hr => ?_
    obtain rfl := Option.some.inj (there.symm.trans ha)
    obtain rfl := Backend.memory.inj hq
    exact List.mem_append_left _ hr
  · exact .of_eq rfl

theorem keepsAdapters_leaveQueues (r : Resolution) (s : Site) :
    KeepsAdapters s (s.leaveQueues r) := by
  unfold leaveQueues
  split
  · exact .of_eq rfl
  · exact keepsAdapters_withScript _ _ s
  · exact .of_eq rfl

theorem keepsAdapters_discard (r : Resolution) (s : Site) : KeepsAdapters s (s.discard r) := by
  refine (keepsAdapters_leaveQueues r s).trans (.of_eq ?_)
  unfold discard
  dsimp only
  split
  · obtain ⟨f, _, heq⟩ := releasePermit_eq (s.leaveQueues r)
    rw [heq]
    rfl
  · rfl

/-! ## Steps -/

/-- What an operation has in its hand: the mappings of registered proxies that are in the ledger no
more or not yet, and the subscription that no record has taken yet. -/
structure Hand where
  mappings : List (Reference × Handle) := []
  subscription : Option Subscription := none

structure Dealing where
  site : Site
  hand : Hand := {}

/-- A small step of an operation that takes things away. -/
inductive Loss : Dealing → Dealing → Prop
  | remark {s : Site} {hand : Hand} (e : Event) : e.isRemark = true →
      Loss ⟨s, hand⟩ ⟨s.log e, hand⟩
  | place {s : Site} {hand : Hand} (locations : Locations) :
      Loss ⟨s, hand⟩ ⟨{ s with locations }, hand⟩
  -- Mappings come out of the ledger.
  | withdrawEndpoint {s : Site} {hand : Hand} (endpointId : String) :
      Loss ⟨s, hand⟩
        ⟨cancelAll (s.ledger.withdrawEndpoint endpointId).1
            { s with ledger := (s.ledger.withdrawEndpoint endpointId).2 },
          { hand with
            mappings := (s.ledger.withdrawEndpoint endpointId).1.flatMap (·.mappings) ++
              hand.mappings }⟩
  | withdrawReference {s : Site} {hand : Hand} (c : ContainerId) (reference : Nat) :
      Loss ⟨s, hand⟩
        ⟨cancelAll (s.ledger.withdrawReference c reference).1.disposed
            { s with ledger := (s.ledger.withdrawReference c reference).2 },
          { hand with mappings := s.ledger.mappingsOf c reference ++ hand.mappings }⟩
  | clear {s : Site} {hand : Hand} : s.isAlive = false →
      Loss ⟨s, hand⟩ ⟨cancelAll s.ledger.records { s with ledger := {} }, hand⟩
  -- Proxies go.
  | tearDown {s : Site} {rest : List (Reference × Handle)} {x : Option Subscription}
      (mapping : Reference × Handle) :
      Loss ⟨s, mapping :: rest, x⟩ ⟨s.tearDownOne mapping.2, rest, x⟩

abbrev Losses : Dealing → Dealing → Prop := Relation.ReflTransGen Loss

/-- A small step of an operation. -/
inductive Deal : Dealing → Dealing → Prop
  | loss {m n : Dealing} : Loss m n → Deal m n
  -- Proxies come.
  | make {s : Site} {hand : Hand} (c : Candidate) (reference : Reference) :
      Deal ⟨s, hand⟩ ⟨s.log (.proxied c reference), hand⟩
  | refuse {s : Site} {hand : Hand} (interfaces : List String) :
      Deal ⟨s, hand⟩ ⟨s.log (.called (.registerFailed interfaces)), hand⟩
  | register {s : Site} {hand : Hand} {registration : Registration} {h : Handle}
      {store : ServiceSpace} (reference : Reference) :
      s.space.store.register registration = .ok (h, store) →
      Deal ⟨s, hand⟩
        ⟨((s.withStore store).log (.called (.register h registration.properties))).noteImport h
            reference,
          { hand with mappings := (reference, h) :: hand.mappings }⟩
  | record {s : Site} {rest : List (Reference × Handle)} {x : Option Subscription} {e : Endpoint}
      {c : Candidate} {reference : Reference} {h : Handle} {admission : Admission}
      {ledger : Ledger} :
      s.ledger.register e c.id reference h x = .ok (admission, ledger) →
      Deal ⟨s, (reference, h) :: rest, x⟩
        ⟨log (.recorded e c reference h admission) { s with ledger }, rest,
          match admission with
          | .created => none
          | .joined => x⟩
  -- Listeners come and go.
  | subscribe {s : Site} {rest : List (Reference × Handle)} (c : Candidate) :
      Deal ⟨s, rest, none⟩
        ⟨(s.subscribe c.adapter (.importer c.id)).2.log (.opened c), rest,
          (s.subscribe c.adapter (.importer c.id)).1⟩
  | cancel {s : Site} {rest : List (Reference × Handle)} {x : Option Subscription} :
      Deal ⟨s, rest, x⟩ ⟨s.cancel x, rest, none⟩

abbrev Deals : Dealing → Dealing → Prop := Relation.ReflTransGen Deal

theorem told_trans {s t u : Site} {P : Event → Prop}
    (hst : ∃ events, t.journal = s.journal ++ events ∧ ∀ event ∈ events, P event)
    (htu : ∃ events, u.journal = t.journal ++ events ∧ ∀ event ∈ events, P event) :
    ∃ events, u.journal = s.journal ++ events ∧ ∀ event ∈ events, P event := by
  obtain ⟨events, journal, told⟩ := hst
  obtain ⟨events', journal', told'⟩ := htu
  refine ⟨events ++ events', by rw [journal', journal, List.append_assoc], ?_⟩
  intro event he
  exact (List.mem_append.1 he).elim (told event) (told' event)

theorem Loss.leavesJobs {m n : Dealing} (loss : Loss m n) : LeavesJobs m.site n.site := by
  cases loss with
  | remark e _ => rfl
  | place locations => rfl
  | withdrawEndpoint _ | withdrawReference _ _ | clear _ =>
    dsimp only
    rw [cancelAll_eq]
    rfl
  | tearDown mapping => exact leavesJobs_tearDownOne _ _

theorem Losses.leavesJobs {m n : Dealing} (losses : Losses m n) : LeavesJobs m.site n.site := by
  induction losses with
  | refl => exact LeavesJobs.refl _
  | tail _ loss ih => exact ih.trans loss.leavesJobs

theorem Deal.leavesJobs {m n : Dealing} (deal : Deal m n) : LeavesJobs m.site n.site := by
  cases deal with
  | loss loss => exact loss.leavesJobs
  | make c reference | refuse interfaces => rfl
  | register reference _ =>
    dsimp only
    rw [noteImport_eq]
    rfl
  | record _ => rfl
  | subscribe c =>
    dsimp only
    rw [subscribe_eq]
    rfl
  | cancel =>
    dsimp only
    rw [cancel_eq]
    rfl

theorem tearDownOne_cases (s : Site) (h : Handle) :
    ∃ (fault : Option Fault) (events : List Event),
      (s.tearDownOne h).journal = s.journal ++ events ∧ .called (.unregister h fault) ∈ events ∧
      (∀ event ∈ events, event.isLoss = true ∧ event.isCall = true) ∧
      (s.tearDownOne h).space.store.entries =
        if fault.isNone then s.space.store.entries.filter (·.1 != h.id)
        else s.space.store.entries := by
  obtain ⟨fault, reports, _, heq⟩ := tearDownOne_eq s h
  rw [heq]
  refine ⟨fault, _, rfl, List.mem_cons_self, ?_, rfl⟩
  intro event he
  rw [List.mem_cons, List.mem_append, List.mem_map] at he
  rcases he with rfl | ⟨report, _, rfl⟩ | he
  · exact ⟨rfl, rfl⟩
  · exact ⟨rfl, rfl⟩
  · split at he
    · simp at he
    · rw [List.mem_singleton.1 he]
      exact ⟨rfl, rfl⟩

theorem Loss.journal {m n : Dealing} (loss : Loss m n) :
    ∃ events, n.site.journal = m.site.journal ++ events ∧
      ∀ event ∈ events, event.isLoss = true := by
  cases loss with
  | remark e h =>
    refine ⟨[e], rfl, ?_⟩
    rintro event he
    obtain rfl := List.mem_singleton.1 he
    cases event <;> first | rfl | cases h
  | place locations => exact ⟨[], (List.append_nil _).symm, by simp⟩
  | withdrawEndpoint _ | withdrawReference _ _ | clear _ =>
    dsimp only
    rw [cancelAll_eq]
    exact ⟨[], (List.append_nil _).symm, by simp⟩
  | @tearDown s rest x mapping =>
    obtain ⟨_, events, journal, _, told, _⟩ := tearDownOne_cases s mapping.2
    exact ⟨events, journal, fun event he => (told event he).1⟩

theorem Deal.journal {m n : Dealing} (deal : Deal m n) :
    ∃ events, n.site.journal = m.site.journal ++ events ∧
      ∀ event ∈ events, event.isCourse = false := by
  cases deal with
  | loss loss =>
    obtain ⟨events, journal, told⟩ := loss.journal
    exact ⟨events, journal, fun event he => Event.isCourse_of_isLoss (told event he)⟩
  | make c reference | refuse interfaces => exact ⟨[_], rfl, by simp [Event.isCourse]⟩
  | @register s hand registration h store reference _ =>
    dsimp only
    rw [noteImport_eq]
    dsimp only [log, withStore]
    rw [List.append_assoc]
    refine ⟨_, rfl, ?_⟩
    by_cases hplain : s.space.plain = true
    · simp [hplain, Event.isCourse]
    · simp [hplain, Event.isCourse]
  | record _ => exact ⟨[_], rfl, by simp [Event.isCourse]⟩
  | subscribe c =>
    dsimp only
    rw [subscribe_eq]
    exact ⟨[_], rfl, by simp [Event.isCourse]⟩
  | cancel =>
    dsimp only
    rw [cancel_eq]
    exact ⟨[], (List.append_nil _).symm, by simp⟩

theorem Deals.leavesJobs {m n : Dealing} (deals : Deals m n) : LeavesJobs m.site n.site := by
  induction deals with
  | refl => exact LeavesJobs.refl _
  | tail _ deal ih => exact ih.trans deal.leavesJobs

theorem Deals.journal {m n : Dealing} (deals : Deals m n) :
    ∃ events, n.site.journal = m.site.journal ++ events ∧
      ∀ event ∈ events, event.isCourse = false := by
  induction deals with
  | refl => exact ⟨[], (List.append_nil _).symm, by simp⟩
  | tail _ deal ih => exact told_trans ih deal.journal

/-! ## Operations -/

theorem Deal.deals {m n : Dealing} (deal : Deal m n) : Deals m n :=
  Relation.ReflTransGen.single deal

theorem Loss.losses {m n : Dealing} (loss : Loss m n) : Losses m n :=
  Relation.ReflTransGen.single loss

theorem Losses.deals {m n : Dealing} (losses : Losses m n) : Deals m n :=
  Relation.ReflTransGen.mono (fun _ _ => Deal.loss) _ _ losses

theorem Losses.foldl {α : Type} {f : Site → α → Site} {hand : Hand}
    (h : ∀ s a, Losses ⟨s, hand⟩ ⟨f s a, hand⟩) (s : Site) (l : List α) :
    Losses ⟨s, hand⟩ ⟨l.foldl f s, hand⟩ :=
  List.foldlRecOn l f (motive := fun t => Losses ⟨s, hand⟩ ⟨t, hand⟩) Relation.ReflTransGen.refl
    fun t ht a _ => ht.trans (h t a)

theorem losses_tearDown (mappings rest : List (Reference × Handle)) (x : Option Subscription)
    (s : Site) : Losses ⟨s, mappings ++ rest, x⟩ ⟨s.tearDown (mappings.map (·.2)), rest, x⟩ := by
  induction mappings generalizing s with
  | nil => exact Relation.ReflTransGen.refl
  | cons mapping mappings ih =>
    exact (Loss.tearDown mapping).losses.trans (ih (s.tearDownOne mapping.2))

theorem losses_noteEmptied {hand : Hand} (c : ContainerId) (s : Site) (r : Record) :
    Losses ⟨s, hand⟩ ⟨s.noteEmptied c r, hand⟩ := by
  have told : Losses ⟨s, hand⟩
      ⟨(s.report (.lastProxyRemoved r.endpoint.id c)).log (.emptied r.endpoint), hand⟩ :=
    (Loss.remark _ rfl).losses.trans (Loss.remark _ rfl).losses
  unfold noteEmptied
  dsimp only
  split
  · exact told.trans (Loss.place _).losses
  · exact told

theorem losses_withdrawn {hand : Hand} (c : ContainerId) (reference : Nat) (s : Site) :
    Losses
      ⟨cancelAll (s.ledger.withdrawReference c reference).1.disposed
          { s with ledger := (s.ledger.withdrawReference c reference).2 },
        { hand with mappings := s.ledger.mappingsOf c reference ++ hand.mappings }⟩
      ⟨s.removeReference c reference, hand⟩ := by
  unfold removeReference
  dsimp only
  rw [Ledger.handles_mappingsOf]
  split
  · next hempty =>
    rw [List.isEmpty_iff, List.map_eq_nil_iff] at hempty
    rw [hempty]
    exact Relation.ReflTransGen.refl
  · refine (losses_tearDown _ _ _ _).trans ?_
    exact Losses.foldl (fun t r => losses_noteEmptied c t r) _ _

theorem losses_removeReference {hand : Hand} (c : ContainerId) (reference : Nat) (s : Site) :
    Losses ⟨s, hand⟩ ⟨s.removeReference c reference, hand⟩ :=
  (Loss.withdrawReference c reference).losses.trans (losses_withdrawn c reference s)

theorem losses_hear {hand : Hand} (removal : Removal) (s : Site) (l : Listener) :
    Losses ⟨s, hand⟩ ⟨s.hear removal l, hand⟩ := by
  unfold hear
  split
  · exact (Loss.remark _ rfl).losses
  · split
    · exact losses_removeReference _ _ _
    · exact Relation.ReflTransGen.refl

theorem losses_deliver {hand : Hand} (listeners : List Listener) (removal : Removal) (s : Site) :
    Losses ⟨s, hand⟩ ⟨s.deliver listeners removal, hand⟩ :=
  Losses.foldl (losses_hear removal) s listeners

theorem losses_unavailable {hand : Hand} (e : Endpoint) (s : Site) :
    Losses ⟨s, hand⟩ ⟨s.unavailable e, hand⟩ := by
  have start : Losses ⟨s, hand⟩ _ :=
    ((Loss.place (s.locations.release e.location).2).losses.trans
      (Loss.withdrawEndpoint e.id).losses).trans (Loss.remark (.left e) rfl).losses
  unfold unavailable
  dsimp only
  rw [Ledger.handles_flatMap]
  split
  · next hnone =>
    rw [Bool.and_eq_true, List.isEmpty_iff, List.map_eq_nil_iff] at hnone
    dsimp only at start
    rwa [hnone.1] at start
  · exact (start.trans (losses_tearDown _ _ _ _)).trans (Loss.remark _ rfl).losses

theorem losses_releaseLedger {hand : Hand} (s : Site) :
    Losses ⟨s, hand⟩ ⟨s.releaseLedger, hand⟩ := by
  unfold releaseLedger
  split
  · exact Relation.ReflTransGen.refl
  · next h =>
    rw [Bool.not_eq_true, Bool.or_eq_false_iff] at h
    exact (Loss.clear h.1).losses

/-- A proxy that was registered is recorded, or taken away again where the ledger refuses it. -/
theorem deals_recordRegistered {s : Site} {registration : Registration} {h : Handle}
    {store : ServiceSpace} (ok : s.space.store.register registration = .ok (h, store))
    (r : Resolution) (c : Candidate) (x : Option Subscription) (reference : Reference) :
    Deals ⟨s, [], x⟩
      ⟨(s.recordRegistered r c x reference registration.properties h store).site, [],
        (s.recordRegistered r c x reference registration.properties h store).subscription⟩ := by
  have registered : Deals ⟨s, [], x⟩ _ := (Deal.register reference ok).deals
  unfold recordRegistered
  rw [recordProxy_eq]
  dsimp only
  split
  · next admission ledger hregister => exact registered.trans (Deal.record hregister).deals
  · next rejection _ =>
    have refused : Deals ⟨s, [], x⟩ _ :=
      registered.tail (.loss (.remark (.reported (.raceLost c.id reference rejection)) rfl))
    exact refused.trans (losses_tearDown [(reference, h)] [] x _).deals

/-! ## Whatever else happens -/

/-- Nothing that the importer deals with changes. -/
structure Aside (s t : Site) : Prop where
  ledger : t.ledger = s.ledger
  store : t.space.store = s.space.store
  plain : t.space.plain = s.space.plain
  adapters : KeepsAdapters s t
  journal : ∃ events, t.journal = s.journal ++ events ∧ ∀ event ∈ events, event.isDealing = false
  alive : t.isAlive = true → s.isAlive = true

theorem Aside.of_eq {s t : Site} (ledger : t.ledger = s.ledger)
    (store : t.space.store = s.space.store) (plain : t.space.plain = s.space.plain)
    (adapters : KeepsAdapters s t) (journal : t.journal = s.journal)
    (alive : t.isAlive = true → s.isAlive = true) : Aside s t :=
  ⟨ledger, store, plain, adapters, ⟨[], journal.trans (List.append_nil _).symm, by simp⟩, alive⟩

theorem Aside.refl (s : Site) : Aside s s := .of_eq rfl rfl rfl (.of_eq rfl) rfl id

theorem aside_available (e : Endpoint) {s : Site} (alive : s.isAlive = true) :
    Aside s (s.available e) := by
  cases h : s.locations.contains e.location with
  | true =>
    rw [available_of_contains h]
    exact ⟨rfl, rfl, rfl, .of_eq rfl, ⟨[_], rfl, by simp [Event.isDealing]⟩, fun _ => alive⟩
  | false =>
    rw [available_of_not_contains h]
    refine ⟨rfl, rfl, rfl, .of_eq rfl, ⟨_, rfl, ?_⟩, fun _ => alive⟩
    split
    · simp [Event.isDealing]
    · simp [Event.isDealing]

/-- The site where an adapter lost a service, and nobody has heard of it yet. -/
def withdrawn (key : String) (reference : Nat) (s : Site) : Site :=
  (s.updateAdapter key (·.withPublished (·.withdraw reference))).log (.withdrew key reference)

/-- What happens between two moments, as far as the dealings go. -/
inductive Move (allowed : Command → Prop) : Dealing → Dealing → Prop
  | deal {m n : Dealing} : Deal m n → Move allowed m n
  | aside {s t : Site} {hand : Hand} : Aside s t → Move allowed ⟨s, hand⟩ ⟨t, hand⟩
  /-- An adapter loses a service, and nobody has heard of it yet. -/
  | withdraw {s : Site} {hand : Hand} (key : String) (reference : Nat) :
      Move allowed ⟨s, hand⟩ ⟨s.withdrawn key reference, hand⟩
  | meddle {s : Site} {hand : Hand} {c : Command} : allowed c → c.isMeddling = true →
      Move allowed ⟨s, hand⟩ ⟨s.perform c, hand⟩

abbrev Moves (allowed : Command → Prop) : Dealing → Dealing → Prop :=
  Relation.ReflTransGen (Move allowed)

variable {allowed : Command → Prop}

theorem Deals.moves {m n : Dealing} (deals : Deals m n) : Moves allowed m n :=
  Relation.ReflTransGen.mono (fun _ _ => Move.deal) _ _ deals

theorem Move.moves {m n : Dealing} (move : Move allowed m n) : Moves allowed m n :=
  Relation.ReflTransGen.single move

theorem isMeddling_of_bypasses {c : Command} (h : c.bypassesImporter = true) :
    c.isMeddling = true := by
  cases c <;> first | rfl | cases h

theorem journal_meddle {c : Command} (h : c.isMeddling = true) (s : Site) :
    (s.perform c).journal = s.journal := by
  cases c with
  | unregister a =>
    unfold perform
    dsimp only
    split <;> rfl
  | record e container reference a x =>
    unfold perform record
    dsimp only
    rw [cancel_eq]
  | unrecordEndpoint e =>
    unfold perform unrecordEndpoint
    dsimp only
    rw [cancelAll_eq]
  | unrecordReference container reference =>
    unfold perform unrecordReference
    dsimp only
    rw [cancelAll_eq]
  | observe key label =>
    unfold perform
    dsimp only
    rw [subscribe_eq]
  | noteImport _ _ | forgetImport _ | unsubscribe _ => rfl
  | _ => simp [Command.isMeddling] at h

end Site

end ServiceImport

import ServiceImport.Proofs.Site.Dealings

/-! # Strides

Changes as far as the dealings go. Most changes take something away, or are about nothing that the
importer deals with. There remain the steps of an import, what others do to proxies, records and
listeners, and the withdrawal of a service, of which all who listen hear at once.
-/

namespace ServiceImport

namespace Site

/-- Whether a resolution is importing what a candidate told of. -/
def Phase.isImporting : Phase → Bool
  | .importing .. | .registering .. => true
  | .idle | .resolving _ | .feeding _ => false

/-- A change as far as the dealings go. -/
inductive Stride (allowed : Command → Prop) : Moment → Moment → Prop
  | lose {s u t : Site} {p : Phase} : Aside s u → (∀ hand, Losses ⟨u, hand⟩ ⟨t, hand⟩) →
      Stride allowed ⟨s, p⟩ ⟨t, p⟩
  | turn {s t : Site} {p q : Phase} : Aside s t → p.isImporting = false → q.isImporting = false →
      Stride allowed ⟨s, p⟩ ⟨t, q⟩
  | withdraw {s : Site} {p : Phase} {key : String} {reference : Nat} {a : Adapter}
      {removal : Removal} : s.adapter? key = some a → removal.reference.id = reference →
      Stride allowed ⟨s, p⟩
        ⟨(s.withdrawn key reference).deliver (a.listeners.map (·.2)) removal, p⟩
  | meddle {s : Site} {p : Phase} {c : Command} : allowed c → c.isMeddling = true →
      Stride allowed ⟨s, p⟩ ⟨s.perform c, p⟩
  -- Imports.
  | subscribe {s : Site} {r : Resolution} (c : Candidate) :
      (s.adapter? c.adapter).isSome = true →
      Stride allowed ⟨s, .resolving r⟩
        ⟨(s.subscribe c.adapter (.importer c.id)).2.log (.opened c),
          .importing r c (s.subscribe c.adapter (.importer c.id)).1⟩
  | prepare {s t : Site} {r : Resolution} {c : Candidate} {x : Option Subscription}
      {reference : Reference} {registration : Registration} :
      Aside (s.log (.proxied c reference)) t →
      s.prepareProxy r.endpoint c reference = .ok registration →
      Stride allowed ⟨s, .importing r c x⟩ ⟨t, .registering r c x reference registration⟩
  | refuse {s : Site} {r : Resolution} {c : Candidate} {x : Option Subscription}
      {reference : Reference} {registration : Registration} :
      Stride allowed ⟨s, .registering r c x reference registration⟩
        ⟨s.log (.called (.registerFailed registration.interfaces)), .importing r c x⟩
  | fault {s : Site} {r : Resolution} {c : Candidate} {x : Option Subscription}
      {reference : Reference} {registration : Registration} :
      Stride allowed ⟨s, .registering r c x reference registration⟩ ⟨s, .importing r c x⟩
  | register {s : Site} {r : Resolution} {c : Candidate} {x : Option Subscription}
      {reference : Reference} {registration : Registration} {h : Handle} {store : ServiceSpace} :
      s.space.store.register registration = .ok (h, store) →
      Stride allowed ⟨s, .registering r c x reference registration⟩
        ⟨(s.recordRegistered r c x reference registration.properties h store).site,
          .importing r c
            (s.recordRegistered r c x reference registration.properties h store).subscription⟩
  | unsubscribe {s : Site} {r : Resolution} {c : Candidate} {x : Option Subscription} :
      Stride allowed ⟨s, .importing r c x⟩ ⟨s.cancel x, .resolving r⟩

variable {allowed : Command → Prop}

/-! ## Every change is a stride -/

theorem Aside.stride {s t : Site} {p : Phase} (h : Aside s t) : Stride allowed ⟨s, p⟩ ⟨t, p⟩ :=
  .lose h fun _ => Relation.ReflTransGen.refl

theorem stride_of_losses {s t : Site} {p : Phase} (h : ∀ hand, Losses ⟨s, hand⟩ ⟨t, hand⟩) :
    Stride allowed ⟨s, p⟩ ⟨t, p⟩ := .lose (.refl s) h

theorem stride_notify {p : Phase} (news : Notification) {s : Site} (alive : s.isAlive = true) :
    Stride allowed ⟨s, p⟩ ⟨s.notify news, p⟩ := by
  unfold notify
  split
  · exact stride_of_losses fun _ => (Loss.remark _ rfl).losses
  · exact stride_of_losses fun _ => (Loss.remark _ rfl).losses
  · split
    · exact (aside_available _ alive).stride
    · exact stride_of_losses fun _ => losses_unavailable _ s
    · exact (Aside.refl s).stride
    · exact (Aside.refl s).stride

theorem stride_perform {p : Phase} {c : Command} {s : Site} (ok : allowed c)
    (uses : c.usesImporter = true → s.isAlive = true) :
    Stride allowed ⟨s, p⟩ ⟨s.perform c, p⟩ := by
  -- Most commands leave alone what the importer deals with.
  have aside (ledger : (s.perform c).ledger = s.ledger)
      (store : (s.perform c).space.store = s.space.store)
      (plain : (s.perform c).space.plain = s.space.plain)
      (adapters : KeepsAdapters s (s.perform c))
      (journal : (s.perform c).journal = s.journal) : Stride allowed ⟨s, p⟩ ⟨s.perform c, p⟩ :=
    (Aside.of_eq ledger store plain adapters journal ((performed s c).isAlive uses)).stride
  cases c with
  | available e => exact (aside_available e (uses rfl)).stride
  | unavailable e => exact stride_of_losses fun _ => losses_unavailable e s
  | notify news => exact stride_notify news (uses rfl)
  | shutdown =>
    apply aside
    case adapters =>
      apply KeepsAdapters.of_eq
      rw [perform, shutdown_eq]
    all_goals rw [perform, shutdown_eq]
  | collect =>
    exact Aside.stride ⟨rfl, rfl, rfl, .of_eq rfl, ⟨[_], rfl, by simp [Event.isDealing]⟩,
      (performed s .collect).isAlive uses⟩
  | dropImporter keepLedger =>
    have dropped : Aside s { s with importerHeld := false, ledgerHeld := keepLedger } :=
      .of_eq rfl rfl rfl (.of_eq rfl) rfl fun _ => uses rfl
    exact .lose dropped fun _ => losses_releaseLedger _
  | attach =>
    obtain ⟨added, heq⟩ := attach_eq s
    apply aside
    case adapters =>
      apply KeepsAdapters.of_eq
      rw [perform, heq]
    all_goals rw [perform, heq]
  | publish news =>
    apply aside
    case adapters =>
      apply KeepsAdapters.of_eq
      rw [perform, publish_eq]
    all_goals rw [perform, publish_eq]
  | abortFeed i =>
    apply aside
    case adapters =>
      apply KeepsAdapters.of_eq
      rw [perform, abortFeed_eq]
    all_goals rw [perform, abortFeed_eq]
  | closeHub =>
    apply aside
    case adapters =>
      apply KeepsAdapters.of_eq
      rw [perform, closeHub_eq]
    all_goals rw [perform, closeHub_eq]
  | publishService key interfaces properties =>
    refine aside ?_ ?_ ?_ (keepsAdapters_publishService key interfaces properties s) ?_
    all_goals rw [perform, publishService_eq]
  | withdrawService key reference =>
    rw [perform, withdrawService]
    split
    · next there =>
      split
      · exact (Aside.refl s).stride
      · next r found => exact .withdraw there (PublishedServices.id_of_find? found)
    · exact (Aside.refl s).stride
  | failLookups key interface failure | healLookups key interface =>
    exact aside rfl rfl rfl (keepsAdapters_withPublished fun _ _ _ _ _ => id) rfl
  | answer key interface result | dropRemote key reference | breakProxy key reference reason =>
    exact aside rfl rfl rfl (keepsAdapters_withScript key _ s) rfl
  | setGate key closed =>
    have adapters : KeepsAdapters s (s.setGate key closed) := by
      unfold setGate
      dsimp only
      rw [wakeAll_eq]
      exact (keepsAdapters_withScript key _ s).trans (.of_eq rfl)
    refine aside ?_ ?_ ?_ adapters ?_
    all_goals rw [perform, setGate_eq]
  | emit key reference host =>
    rw [perform, emit]
    split
    · exact (Aside.refl s).stride
    · exact stride_of_losses fun _ => losses_deliver _ _ s
  | acceptLocation l | releaseLocation l | addContainer c | removeContainer id
  | failRegister reason | failUnregister reason => exact aside rfl rfl rfl (.of_eq rfl) rfl
  | _ => exact .meddle ok rfl

theorem Change.stride {m n : Moment} (change : Change allowed m n) (h : Coherent allowed m) :
    Stride allowed m n := by
  have alive := change.isAlive h
  have quiet {s t : Site} (ledger : t.ledger = s.ledger) (space : t.space.store = s.space.store)
      (plain : t.space.plain = s.space.plain) (adapters : t.adapters = s.adapters)
      (journal : t.journal = s.journal) (alive : t.isAlive = true → s.isAlive = true) : Aside s t :=
    .of_eq ledger space plain (.of_eq adapters) journal alive
  cases change with
  | perform ok uses => exact stride_perform ok fun hc => h.isAlive (uses hc)
  | report report => exact stride_of_losses fun _ => (Loss.remark _ rfl).losses
  | plan _ => exact Aside.stride (quiet rfl rfl rfl rfl rfl alive)
  | take _ => exact Aside.stride (quiet rfl rfl rfl rfl rfl alive)
  | release => exact stride_of_losses fun _ => losses_releaseLedger _
  | @discard s r _ _ | @drop s _ r _ _ =>
    have adapters := keepsAdapters_discard r s
    obtain ⟨f, _, heq⟩ := discard_eq r s
    refine .turn ⟨?_, ?_, ?_, adapters, ⟨[.aborted r.id r.endpoint], ?_, by simp [Event.isDealing]⟩,
      alive⟩ rfl rfl
    all_goals rw [heq]
  | queue _ _ _ => exact .turn (quiet rfl rfl rfl rfl rfl alive) rfl rfl
  | enter _ _ _ => exact .turn (quiet rfl rfl rfl rfl rfl alive) rfl rfl
  | resume _ _ => exact .turn (quiet rfl rfl rfl rfl rfl alive) rfl rfl
  | countLookups c =>
    exact .turn (.of_eq rfl rfl rfl (keepsAdapters_countLookups _ c _) rfl alive) rfl rfl
  | @await s r now c rest tally _ _ _ =>
    have staged : KeepsAdapters s (s.setStage r.id (.lookingUp c rest tally)) := .of_eq rfl
    refine .turn (.of_eq rfl rfl rfl ?_ rfl alive) rfl rfl
    exact staged.trans (keepsAdapters_withScript _ _ _)
  | @complete s r outcome =>
    obtain ⟨f, report, _, heq⟩ := complete_eq r outcome s
    refine .turn ⟨?_, ?_, ?_, .of_eq ?_,
      ⟨[.reported report, .completed r.id r.endpoint outcome], ?_, by simp [Event.isDealing]⟩,
      alive⟩ rfl rfl
    all_goals rw [heq]
  | subscribe c there => exact .subscribe c there
  | prepare _ ok => exact .prepare (quiet rfl rfl rfl rfl rfl alive) ok
  | refuse _ => exact .refuse
  | fault _ _ => exact .fault
  | register _ ok => exact .register ok
  | unsubscribe => exact .unsubscribe
  | read _ _ _ _ => exact .turn (quiet rfl rfl rfl rfl rfl alive) rfl rfl
  | notify news => exact stride_notify news (h.isAlive (.inr (by simp)))
  | rest => exact .turn (quiet rfl rfl rfl rfl rfl alive) rfl rfl
  | finish f => exact .turn (quiet rfl rfl rfl rfl rfl alive) rfl rfl
  | abandon _ _ _ => exact .turn (quiet rfl rfl rfl rfl rfl alive) rfl rfl

/-! ## Registrations -/

theorem registered_cases {s t : Site} {h : Handle} {properties : Properties} {reference : Reference}
    {store : ServiceSpace}
    (result : t = ((s.withStore store).log (.called (.register h properties))).noteImport h
      reference) :
    t.adapters = s.adapters ∧ t.ledger = s.ledger ∧ t.space.store.issued = store.issued ∧
      t.space.store.entries = store.entries ∧
      ∃ events, t.journal = s.journal ++ events ∧ ∀ event ∈ events, event.isCall = true := by
  rw [noteImport_eq] at result
  rw [result]
  dsimp only [log, withStore]
  refine ⟨rfl, rfl, rfl, rfl, _, List.append_assoc _ _ _, ?_⟩
  by_cases hplain : s.space.plain = true
  · simp [hplain, Event.isCall]
  · simp [hplain, Event.isCall]

theorem refused_cases {s t : Site} {h : Handle} (report : Report)
    (result : t = (s.report report).tearDownOne h) :
    t.adapters = s.adapters ∧ t.ledger = s.ledger ∧
      t.space.store.issued = s.space.store.issued ∧
      ∃ events, t.journal = s.journal ++ events ∧ (∀ event ∈ events, event.isCall = true) ∧
        ∀ entry ∈ t.space.store.entries, entry ∈ s.space.store.entries ∧
          (entry.1 ≠ h.id ∨ ∃ fault, .called (.unregister h (some fault)) ∈ events) := by
  obtain ⟨fault, events, journal, stuck, told, entries⟩ := tearDownOne_cases (s.report report) h
  obtain ⟨_, _, _, heq⟩ := tearDownOne_eq (s.report report) h
  rw [← result] at journal entries heq
  have before : (s.report report).space.store.entries = s.space.store.entries := rfl
  rw [before] at entries
  refine ⟨by rw [heq]; rfl, by rw [heq]; rfl, by rw [heq]; rfl, .reported report :: events, ?_, ?_,
    fun entry hentry => ?_⟩
  · rw [journal, Site.report, log, List.append_assoc]
    rfl
  · intro event he
    rcases List.mem_cons.1 he with rfl | he
    · rfl
    · exact (told event he).2
  · rw [entries] at hentry
    cases fault with
    | none =>
      obtain ⟨hentry, hne⟩ := List.mem_filter.1 hentry
      exact ⟨hentry, .inl (by simpa using hne)⟩
    | some fault => exact ⟨hentry, .inr ⟨fault, List.mem_cons_of_mem _ stuck⟩⟩

/-- A registered proxy is recorded, and a record that is made takes the subscription. Or it is taken
away again, unless the space does not let it go. -/
theorem importing_recordRegistered (r : Resolution) (c : Candidate) (x : Option Subscription)
    (reference : Reference) (properties : Properties) (h : Handle) (store : ServiceSpace) (s : Site)
    {i : Importing} (result : i = s.recordRegistered r c x reference properties h store) :
    i.site.adapters = s.adapters ∧ i.site.space.store.issued = store.issued ∧
      ∃ events : List Event, (∀ event ∈ events, event.isCall = true) ∧
        ((∃ admission, s.ledger.register r.endpoint c.id reference h x =
              .ok (admission, i.site.ledger) ∧
            i.subscription = (match admission with
              | .created => none
              | .joined => x) ∧
            i.site.journal =
              s.journal ++ events ++ [.recorded r.endpoint c reference h admission] ∧
            i.site.space.store.entries = store.entries) ∨
          (i.site.ledger = s.ledger ∧ i.subscription = x ∧ i.site.journal = s.journal ++ events ∧
            ∀ entry ∈ i.site.space.store.entries, entry ∈ store.entries ∧
              (entry.1 ≠ h.id ∨ ∃ fault, .called (.unregister h (some fault)) ∈ events))) := by
  obtain ⟨m, hm⟩ : ∃ m, m =
      ((s.withStore store).log (.called (.register h properties))).noteImport h reference :=
    ⟨_, rfl⟩
  obtain ⟨adapters, ledger, issued, entries, told, journal, calls⟩ := registered_cases hm
  unfold recordRegistered at result
  rw [recordProxy_eq, ← hm] at result
  dsimp only at result
  rw [ledger] at result
  split at result
  · next admission ledger' ok =>
    rw [result]
    exact ⟨adapters, issued, told, calls,
      .inl ⟨admission, ok, rfl, congrArg (· ++ [_]) journal, entries⟩⟩
  · next rejection _ =>
    have site : i.site = (m.report (.raceLost c.id reference rejection)).tearDownOne h := by
      rw [result]
      rfl
    obtain ⟨adapters', ledger', issued', events, journal', calls', left⟩ := refused_cases _ site
    rw [entries] at left
    refine ⟨adapters'.trans adapters, issued'.trans issued, told ++ events, ?_, .inr
      ⟨ledger'.trans ledger, by rw [result], ?_, fun entry hentry => ?_⟩⟩
    · intro event he
      exact (List.mem_append.1 he).elim (calls event) (calls' event)
    · rw [journal', journal, List.append_assoc]
    · refine (left entry hentry).imp_right (Or.imp_right ?_)
      rintro ⟨fault, stuck⟩
      exact ⟨fault, List.mem_append_right _ stuck⟩

/-! ## Strides in small steps -/

/-- The subscription that a resolution holds in the middle of its turn. -/
def Phase.subscription? : Phase → Option Subscription
  | .importing _ _ x | .registering _ _ x _ _ => x
  | .idle | .resolving _ | .feeding _ => none

theorem Phase.subscription?_eq_none {p : Phase} (h : p.isImporting = false) :
    p.subscription? = none := by
  cases p <;> first | rfl | cases h

def Moment.dealing (m : Moment) : Dealing := ⟨m.site, [], m.phase.subscription?⟩

theorem Stride.moves {m n : Moment} (stride : Stride allowed m n) :
    Moves allowed m.dealing n.dealing := by
  unfold Moment.dealing
  cases stride with
  | lose aside losses => exact (Move.aside aside).moves.trans (losses _).deals.moves
  | turn aside before after =>
    rw [Phase.subscription?_eq_none before, Phase.subscription?_eq_none after]
    exact (Move.aside aside).moves
  | @withdraw s p key reference _ _ _ _ =>
    exact (Move.withdraw key reference).moves.trans (losses_deliver _ _ _).deals.moves
  | meddle ok h => exact (Move.meddle ok h).moves
  | subscribe c _ => exact (Deal.subscribe c).deals.moves
  | @prepare s t r c x reference registration aside _ =>
    exact (Deal.make c reference).deals.moves.trans (Move.aside aside).moves
  | refuse => exact (Deal.refuse _).deals.moves
  | fault => exact Relation.ReflTransGen.refl
  | register ok => exact (deals_recordRegistered ok _ _ _ _).moves
  | unsubscribe => exact Deal.cancel.deals.moves

/-- What holds at new sites and is kept by every small step holds at every site that a run comes
to. -/
theorem Reachable.dealing {I : Dealing → Prop}
    (built : ∀ {b : Blueprint} {s : Site}, Site.build b = .ok s → I ⟨s, {}⟩)
    (kept : ∀ {m n : Dealing}, Move allowed m n → I m → I n) {s : Site} (h : Reachable allowed s) :
    I ⟨s, {}⟩ := by
  have all : ∀ {m n : Dealing}, Moves allowed m n → I m → I n := by
    intro m n moves hm
    induction moves with
    | refl => exact hm
    | tail _ move ih => exact kept move ih
  exact (h.invariant (I := fun m => I m.dealing) built fun coherent change =>
    all (change.stride coherent).moves).2

/-! ## Ledgers stay well-formed -/

theorem Loss.wellFormed {m n : Dealing} (loss : Loss m n) (wf : m.site.ledger.WellFormed) :
    n.site.ledger.WellFormed := by
  cases loss with
  | remark _ _ | place _ => exact wf
  | withdrawEndpoint endpointId =>
    rw [cancelAll_eq]
    exact wf.withdrawEndpoint endpointId
  | withdrawReference c reference =>
    rw [cancelAll_eq]
    exact wf.withdrawReference c reference
  | clear _ =>
    rw [cancelAll_eq]
    exact .empty
  | @tearDown s rest x mapping =>
    obtain ⟨_, _, _, heq⟩ := tearDownOne_eq s mapping.2
    dsimp only
    rw [heq]
    exact wf

theorem Deal.wellFormed {m n : Dealing} (deal : Deal m n) (wf : m.site.ledger.WellFormed) :
    n.site.ledger.WellFormed := by
  cases deal with
  | loss loss => exact loss.wellFormed wf
  | make _ _ | refuse _ => exact wf
  | register reference _ =>
    dsimp only
    rw [noteImport_eq]
    exact wf
  | record ok => exact wf.register ok
  | subscribe c =>
    dsimp only
    rw [subscribe_eq]
    exact wf
  | cancel =>
    dsimp only
    rw [cancel_eq]
    exact wf

theorem wellFormed_meddle {s : Site} (wf : s.ledger.WellFormed) {c : Command}
    (h : c.isMeddling = true) : (s.perform c).ledger.WellFormed := by
  cases c with
  | unregister a =>
    unfold perform
    dsimp only
    split <;> exact wf
  | record e d reference a o =>
    unfold perform record
    dsimp only
    rw [cancel_eq]
    rcases Ledger.enroll_cases s.ledger e d reference a o with refused | ⟨_, ok⟩
    · rw [refused]
      exact wf
    · exact wf.register ok
  | unrecordEndpoint e =>
    unfold perform unrecordEndpoint
    dsimp only
    rw [cancelAll_eq]
    exact wf.withdrawEndpoint e.id
  | unrecordReference c reference =>
    unfold perform unrecordReference
    dsimp only
    rw [cancelAll_eq]
    exact wf.withdrawReference c reference
  | observe key label =>
    unfold perform
    dsimp only
    rw [subscribe_eq]
    exact wf
  | noteImport _ _ | forgetImport _ | unsubscribe _ => exact wf
  | _ => cases h

theorem Move.wellFormed {m n : Dealing} (move : Move allowed m n)
    (wf : m.site.ledger.WellFormed) : n.site.ledger.WellFormed := by
  cases move with
  | deal deal => exact deal.wellFormed wf
  | aside h => exact h.ledger ▸ wf
  | withdraw _ _ => exact wf
  | meddle _ h => exact wellFormed_meddle wf h

theorem Reachable.wellFormed {s : Site} (h : Reachable allowed s) : s.ledger.WellFormed := by
  refine h.dealing (I := fun d => d.site.ledger.WellFormed) (fun built => ?_) Move.wellFormed
  rw [(build_eq built).1]
  exact .empty

end Site

end ServiceImport

import ServiceImport.Proofs.Site.Subscriptions

/-! # Where records come from

A record comes from an import, unless someone else registered it with the ledger. It listens on the
adapter that the import went through, or nowhere if the import had made a record before. A proxy is
recorded once at most.
-/

namespace ServiceImport

def Event.recordedHandle? : Event → Option Handle
  | .recorded _ _ _ h _ => some h
  | _ => none

theorem Event.recordedHandle?_of_isImport {event : Event} (h : event.isImport = false) :
    event.recordedHandle? = none := by
  cases event <;> first | rfl | cases h

def Event.isOpening : Event → Bool
  | .opened _ => true
  | _ => false

theorem Event.isOpening_of_isImport {event : Event} (h : event.isImport = false) :
    event.isOpening = false := by
  cases event <;> first | rfl | cases h

/-- The key of the record whose making an entry tells. -/
def Event.making? : Event → Option RecordKey
  | .recorded e c _ _ .created => some ⟨c.id, e.id⟩
  | _ => none

theorem Event.making?_of_isImport {event : Event} (h : event.isImport = false) :
    event.making? = none := by
  cases event <;> first | rfl | cases h

def Record.listensOn (r : Record) (key : String) : Bool := r.subscription.any (·.adapter == key)

theorem Record.listensOn_iff {r : Record} {key : String} :
    r.listensOn key = true ↔ ∃ x, r.subscription = some x ∧ x.adapter = key := by
  simp [listensOn, Option.any_eq_true]

namespace Site

variable {s t u : Site} {allowed : Command → Prop}

/-! ## What goes and what stays -/

/-- Nothing is imported. -/
structure Rests (s t : Site) : Prop where
  records : ∀ q ∈ t.ledger.records, ∃ o ∈ s.ledger.records,
    o.identity = q.identity ∧ q.mappings ⊆ o.mappings
  journal : ∃ events, t.journal = s.journal ++ events ∧ ∀ event ∈ events, event.isImport = false

theorem Rests.trans (hst : Rests s t) (htu : Rests t u) : Rests s u where
  records q hq := by
    obtain ⟨p, hp, same, hsub⟩ := htu.records q hq
    obtain ⟨o, ho, same', hsub'⟩ := hst.records p hp
    exact ⟨o, ho, same'.trans same, List.Subset.trans hsub hsub'⟩
  journal := told_trans hst.journal htu.journal

theorem Rests.of_ledger (ledger : t.ledger = s.ledger) {events : List Event}
    (journal : t.journal = s.journal ++ events) (none : ∀ event ∈ events, event.isImport = false) :
    Rests s t :=
  ⟨fun q hq => ⟨q, ledger ▸ hq, rfl, List.Subset.refl _⟩, events, journal, none⟩

theorem Rests.of_eq (ledger : t.ledger = s.ledger) (journal : t.journal = s.journal) : Rests s t :=
  .of_ledger ledger (journal.trans (List.append_nil _).symm) (by simp)

/-- Nothing is imported and no service goes. -/
structure Keeps (s t : Site) : Prop extends Rests s t where
  offers : ∀ {key reference}, s.offers key reference → t.offers key reference

theorem Keeps.trans (hst : Keeps s t) (htu : Keeps t u) : Keeps s u :=
  ⟨hst.toRests.trans htu.toRests, fun offered => htu.offers (hst.offers offered)⟩

theorem Keeps.of_eq (ledger : t.ledger = s.ledger) (journal : t.journal = s.journal)
    (offers : ∀ {key reference}, s.offers key reference → t.offers key reference) : Keeps s t :=
  ⟨.of_eq ledger journal, offers⟩

theorem Keeps.refl (s : Site) : Keeps s s := .of_eq rfl rfl id

theorem Aside.keeps (h : Aside s t) : Keeps s t := by
  obtain ⟨events, journal, told⟩ := h.journal
  have none : ∀ event ∈ events, event.isImport = false := fun event he =>
    Event.isImport_of_isDealing (told event he)
  exact ⟨.of_ledger h.ledger journal none, h.adapters.offers⟩

theorem offers_unsubscribe {x : Subscription} {key : String} {reference : Nat}
    (offered : s.offers key reference) : (s.unsubscribe x).offers key reference :=
  offers_updateAdapter (f := (·.unsubscribe x.id)) (fun _ p _ hp => ⟨p, hp, fun _ => id⟩) offered

theorem offers_cancel (o : Option Subscription) {key : String} {reference : Nat}
    (offered : s.offers key reference) : (s.cancel o).offers key reference := by
  cases o with
  | none => exact offered
  | some x => exact offers_unsubscribe offered

theorem offers_cancelAll (records : List Record) {key : String} {reference : Nat}
    (offered : s.offers key reference) : (cancelAll records s).offers key reference := by
  unfold cancelAll
  induction records generalizing s with
  | nil => exact offered
  | cons r records ih => exact ih (offers_cancel r.subscription offered)

theorem offers_subscribe {key : String} {l : Listener} {k : String} {reference : Nat}
    (offered : s.offers k reference) : (s.subscribe key l).2.offers k reference := by
  unfold subscribe
  split
  · exact offered
  · next a there =>
    refine offers_updateAdapter (f := fun _ => (a.subscribe l).2) ?_ offered
    intro b p hb hp
    obtain rfl := Option.some.inj (there.symm.trans hb)
    exact ⟨p, hp, fun _ => id⟩

theorem Loss.keeps {m n : Dealing} (loss : Loss m n) : Keeps m.site n.site := by
  obtain ⟨events, journal, told⟩ := loss.journal
  have none : ∀ event ∈ events, event.isImport = false := fun event he =>
    Event.isImport_of_isLoss (told event he)
  have of_ledger (ledger : n.site.ledger = m.site.ledger)
      (adapters : n.site.adapters = m.site.adapters) : Keeps m.site n.site :=
    ⟨.of_ledger ledger journal none, (KeepsAdapters.of_eq adapters).offers⟩
  cases loss with
  | remark e _ => exact of_ledger rfl rfl
  | place locations => exact of_ledger rfl rfl
  | withdrawEndpoint endpointId =>
    refine ⟨⟨fun q hq => ?_, events, journal, none⟩, fun offered => offers_cancelAll _ offered⟩
    rw [cancelAll_eq] at hq
    exact ⟨q, (Ledger.mem_withdrawEndpoint.1 hq).1, rfl, List.Subset.refl _⟩
  | withdrawReference c reference =>
    refine ⟨⟨fun q hq => ?_, events, journal, none⟩, fun offered => offers_cancelAll _ offered⟩
    rw [cancelAll_eq] at hq
    exact Ledger.exists_of_mem_withdrawReference hq
  | clear _ =>
    refine ⟨⟨fun q hq => ?_, events, journal, none⟩, fun offered => offers_cancelAll _ offered⟩
    rw [cancelAll_eq] at hq
    simp at hq
  | @tearDown s rest x mapping =>
    obtain ⟨fault, _, _, heq⟩ := tearDownOne_eq s mapping.2
    apply of_ledger
    all_goals
      dsimp only
      rw [heq]

theorem Losses.keeps {m n : Dealing} (losses : Losses m n) : Keeps m.site n.site := by
  induction losses with
  | refl => exact Keeps.refl _
  | tail _ loss ih => exact ih.trans loss.keeps

theorem Loss.issued {m n : Dealing} (loss : Loss m n) :
    n.site.space.store.issued = m.site.space.store.issued := by
  cases loss with
  | remark _ _ | place _ => rfl
  | withdrawEndpoint _ | withdrawReference _ _ | clear _ =>
    dsimp only
    rw [cancelAll_eq]
  | @tearDown s rest x mapping =>
    obtain ⟨fault, _, _, heq⟩ := tearDownOne_eq s mapping.2
    dsimp only
    rw [heq]

theorem Losses.issued {m n : Dealing} (losses : Losses m n) :
    n.site.space.store.issued = m.site.space.store.issued := by
  induction losses with
  | refl => rfl
  | tail _ loss ih => exact loss.issued.trans ih

/-! ## Imports -/

/-- The import that is under way, and the subscription that it has at hand. -/
def Phase.import? : Phase → Option (Resolution × Candidate × Option Subscription)
  | .importing r c x | .registering r c x _ _ => some (r, c, x)
  | .idle | .resolving _ | .feeding _ => none

theorem Phase.import?_eq_none {p : Phase} (h : p.isImporting = false) : p.import? = none := by
  cases p <;> first | rfl | cases h

/-- What a stride comes to, as far as imports go. -/
inductive Advance (m n : Moment) : Prop
  | rests : Rests m.site n.site → n.site.space.store.issued = m.site.space.store.issued →
      (n.phase.import? = m.phase.import? ∨ n.phase.import? = none) → Advance m n
  | opens (r : Resolution) (c : Candidate) (y : Subscription) :
      Rests (m.site.log (.opened c)) n.site →
      n.site.space.store.issued = m.site.space.store.issued → y.adapter = c.adapter →
      n.phase.import? = some (r, c, some y) → Advance m n
  | makes (c : Candidate) (reference : Reference) :
      Rests (m.site.log (.proxied c reference)) n.site →
      n.site.space.store.issued = m.site.space.store.issued →
      n.phase.import? = m.phase.import? → Advance m n
  | registers (r : Resolution) (c : Candidate) (x : Option Subscription) (reference : Reference)
      (registration : Registration) (h : Handle) (store : ServiceSpace) (i : Importing) :
      m.phase.import? = some (r, c, x) →
      m.site.space.store.register registration = .ok (h, store) →
      i = m.site.recordRegistered r c x reference registration.properties h store →
      n.site = i.site → n.phase.import? = some (r, c, i.subscription) → Advance m n

theorem rests_withdrawn (key : String) (reference : Nat) (s : Site) :
    Rests s (s.withdrawn key reference) :=
  @Rests.of_ledger s (s.withdrawn key reference) rfl [.withdrew key reference] rfl
    (by simp [Event.isImport])

/-- A stride is an advance, or someone goes past the importer. -/
theorem Stride.advance_or {m n : Moment} (stride : Stride allowed m n) :
    Advance m n ∨ ∃ c, allowed c ∧ c.bypassesImporter = true ∧ c.isMeddling = true ∧
      n = ⟨m.site.perform c, m.phase⟩ := by
  cases stride with
  | lose aside losses =>
    have issued := Losses.issued (losses {})
    exact .inl (.rests (aside.keeps.trans (losses {}).keeps).toRests
      (issued.trans (by rw [aside.store])) (.inl rfl))
  | turn aside _ after =>
    exact .inl (.rests aside.keeps.toRests (by rw [aside.store])
      (.inr (Phase.import?_eq_none after)))
  | @withdraw s p key reference a removal _ _ =>
    have heard := @losses_deliver {} (a.listeners.map (·.2)) removal (s.withdrawn key reference)
    exact .inl (.rests ((rests_withdrawn key reference s).trans heard.keeps.toRests)
      (Losses.issued heard) (.inl rfl))
  | @meddle s p c ok h =>
    cases c with
    | observe key label =>
      refine .inl (.rests (.of_eq ?_ ?_) ?_ (.inl rfl))
      all_goals
        dsimp only
        rw [perform, subscribe_eq]
    | unsubscribe _ | noteImport _ _ | forgetImport _ =>
      exact .inl (.rests (.of_eq rfl rfl) rfl (.inl rfl))
    | unregister _ | record _ _ _ _ _ | unrecordEndpoint _ | unrecordReference _ _ =>
      exact .inr ⟨_, ok, rfl, h, rfl⟩
    | _ => cases h
  | @subscribe s r c there =>
    -- An import begins after its adapter was looked up, so that there is one to listen on.
    obtain ⟨a, ha⟩ := Option.isSome_iff_exists.1 there
    have taken : (s.subscribe c.adapter (.importer c.id)).1 =
        some ⟨c.adapter, (a.subscribe (.importer c.id)).1⟩ := by
      unfold Site.subscribe
      rw [ha]
    refine .inl (.opens r c _ (.of_eq ?_ ?_) ?_ ?_ (congrArg (fun x => some (r, c, x)) taken))
    · dsimp only
      rw [subscribe_eq]
      rfl
    · dsimp only
      rw [subscribe_eq]
      rfl
    · dsimp only
      rw [subscribe_eq]
      rfl
    · rfl
  | @prepare s t r c x reference registration aside _ =>
    exact .inl (.makes c reference aside.keeps.toRests (by rw [aside.store]; rfl) rfl)
  | refuse =>
    exact .inl (.rests (.of_ledger rfl rfl (by simp [Event.isImport])) rfl (.inl rfl))
  | fault => exact .inl (.rests (.of_eq rfl rfl) rfl (.inl rfl))
  | register ok => exact .inl (.registers _ _ _ _ _ _ _ _ rfl ok rfl rfl rfl)
  | unsubscribe =>
    refine .inl (.rests (.of_eq ?_ ?_) ?_ (.inr rfl))
    all_goals
      dsimp only
      rw [cancel_eq]

theorem Stride.advance (inside : ∀ c, allowed c → c.bypassesImporter = false) {m n : Moment}
    (stride : Stride allowed m n) : Advance m n := by
  rcases stride.advance_or with advance | ⟨c, ok, bypasses, _⟩
  · exact advance
  · rw [inside c ok] at bypasses
    cases bypasses

/-! ## Every record comes from an import -/

/-- A record was made by an import, and listens on the adapter that the import went through. Only
if the import had made a record before may it listen nowhere. -/
def Rooted (s : Site) (q : Record) : Prop :=
  ∃ before c since e reference h after,
    s.journal = before ++ .opened c :: since ++ .recorded e c reference h .created :: after ∧
    (∀ event ∈ since, event.isOpening = false) ∧
    c.id = q.key.container ∧ e.id = q.key.endpointId ∧
    (q.listensOn c.adapter = true ∨ ∃ reference' h', .recorded e c reference' h' .created ∈ since)

/-- An import made this very record, and none of its key was made since. -/
def Made (s : Site) (q : Record) : Prop :=
  ∃ before c since reference h after,
    s.journal =
      before ++ .opened c :: since ++ .recorded q.endpoint c reference h .created :: after ∧
    (∀ event ∈ since, event.isOpening = false) ∧ (∀ event ∈ after, event.making? ≠ some q.key) ∧
    q.key = ⟨c.id, q.endpoint.id⟩ ∧
    (q.listensOn c.adapter = true ∨
      ∃ reference' h', .recorded q.endpoint c reference' h' .created ∈ since)

theorem Made.rooted {q : Record} (made : Made s q) : Rooted s q := by
  obtain ⟨before, c, since, reference, h, after, told, alone, _, hkey, listens⟩ := made
  exact ⟨before, c, since, q.endpoint, reference, h, after, told, alone, by rw [hkey], by rw [hkey],
    listens⟩

theorem Made.mono {o q : Record} (made : Made s o) (same : o.identity = q.identity)
    {events : List Event} (journal : t.journal = s.journal ++ events)
    (last : ∀ event ∈ events, event.making? ≠ some q.key) : Made t q := by
  obtain ⟨before, c, since, reference, h, after, told, alone, latest, hkey, listens⟩ := made
  rw [Record.endpoint_eq same] at told hkey listens
  rw [Record.key_eq same] at latest hkey
  refine ⟨before, c, since, reference, h, after ++ events, ?_, alone, ?_, hkey, ?_⟩
  · rw [journal, told, List.append_assoc, List.cons_append]
  · intro event he
    exact (List.mem_append.1 he).elim (latest event) (last event)
  · unfold Record.listensOn at listens ⊢
    rwa [← Record.subscription_eq same]

/-- A registration that others are allowed makes just such a record. -/
def Foreign (allowed : Command → Prop) (q : Record) : Prop :=
  ∃ reference h, allowed (.record q.endpoint q.key.container reference h q.subscription)

theorem Foreign.mono {o q : Record} (foreign : Foreign allowed o) (same : o.identity = q.identity) :
    Foreign allowed q := by
  unfold Foreign at foreign ⊢
  rwa [← Record.endpoint_eq same, ← Record.key_eq same, ← Record.subscription_eq same]

/-- An import is under way. The first record that it makes takes its subscription. -/
def Opening (s : Site) (r : Resolution) (c : Candidate) (x : Option Subscription) : Prop :=
  ∃ before since, s.journal = before ++ .opened c :: since ∧
    (∀ event ∈ since, event.isOpening = false) ∧
    ((∃ y, x = some y ∧ y.adapter = c.adapter) ∨
      ∃ reference h, .recorded r.endpoint c reference h .created ∈ since)

theorem Opening.mono {r : Resolution} {c : Candidate} {x : Option Subscription}
    (opening : Opening s r c x) {events : List Event} (journal : t.journal = s.journal ++ events)
    (none : ∀ event ∈ events, event.isOpening = false) : Opening t r c x := by
  obtain ⟨before, since, told, alone, taken⟩ := opening
  refine ⟨before, since ++ events, ?_, ?_, taken.imp_right ?_⟩
  · rw [journal, told, List.append_assoc, List.cons_append]
  · intro event he
    exact (List.mem_append.1 he).elim (alone event) (none event)
  · rintro ⟨reference, h, made⟩
    exact ⟨reference, h, List.mem_append_left _ made⟩

/-- It is known where every record comes from, also those that an import will make. -/
structure Ascribed (allowed : Command → Prop) (m : Moment) : Prop where
  records : ∀ q ∈ m.site.ledger.records, Foreign allowed q ∨ Made m.site q
  opening : ∀ r c x, m.phase.import? = some (r, c, x) → Opening m.site r c x

theorem Ascribed.record {m n : Moment} (a : Ascribed allowed m) {q o : Record}
    (ho : o ∈ m.site.ledger.records) (same : o.identity = q.identity) {events : List Event}
    (journal : n.site.journal = m.site.journal ++ events)
    (last : ∀ event ∈ events, event.making? ≠ some q.key) : Foreign allowed q ∨ Made n.site q :=
  (a.records o ho).imp (fun foreign => foreign.mono same) fun made => made.mono same journal last

theorem Ascribed.log {p : Phase} (a : Ascribed allowed ⟨s, p⟩) {e : Event}
    (making : e.making? = none) (opening : e.isOpening = false) :
    Ascribed allowed ⟨s.log e, p⟩ where
  records q hq := a.record hq rfl rfl (by simp [making])
  opening r c x hphase := (a.opening r c x hphase).mono rfl (by simpa using opening)

theorem Ascribed.rests {m n : Moment} (a : Ascribed allowed m) (h : Rests m.site n.site)
    (phase : n.phase.import? = m.phase.import? ∨ n.phase.import? = none) : Ascribed allowed n where
  records q hq := by
    obtain ⟨o, ho, same, _⟩ := h.records q hq
    obtain ⟨events, journal, none⟩ := h.journal
    refine a.record ho same journal fun event he => ?_
    rw [Event.making?_of_isImport (none event he)]
    simp
  opening r c x hphase := by
    obtain ⟨events, journal, none⟩ := h.journal
    rcases phase with same | idle
    · exact (a.opening r c x (same ▸ hphase)).mono journal fun event he =>
        Event.isOpening_of_isImport (none event he)
    · rw [idle] at hphase
      cases hphase

theorem Ascribed.opens {m n : Moment} (a : Ascribed allowed m) {r : Resolution} {c : Candidate}
    {y : Subscription} (h : Rests (m.site.log (.opened c)) n.site) (hy : y.adapter = c.adapter)
    (phase : n.phase.import? = some (r, c, some y)) : Ascribed allowed n where
  records q hq := by
    obtain ⟨o, ho, same, _⟩ := h.records q hq
    obtain ⟨events, journal, none⟩ := h.journal
    rw [Site.log, List.append_assoc] at journal
    refine a.record ho same journal fun event he => ?_
    rcases List.mem_cons.1 he with rfl | he
    · simp [Event.making?]
    · rw [Event.making?_of_isImport (none event he)]
      simp
  opening r' c' x hphase := by
    obtain ⟨rfl, rfl, rfl⟩ : r = r' ∧ c = c' ∧ some y = x := by
      simpa using phase.symm.trans hphase
    obtain ⟨events, journal, none⟩ := h.journal
    rw [Site.log, List.append_assoc] at journal
    exact ⟨m.site.journal, events, journal, fun event he =>
      Event.isOpening_of_isImport (none event he), .inl ⟨y, rfl, hy⟩⟩

theorem Ascribed.register {m n : Moment} (a : Ascribed allowed m) {r : Resolution} {c : Candidate}
    {x : Option Subscription} {reference : Reference} {properties : Properties} {h : Handle}
    {store : ServiceSpace} {i : Importing} (before : m.phase.import? = some (r, c, x))
    (result : i = m.site.recordRegistered r c x reference properties h store)
    (site : n.site = i.site) (after : n.phase.import? = some (r, c, i.subscription)) :
    Ascribed allowed n := by
  obtain ⟨_, _, events, calls, recorded⟩ :=
    importing_recordRegistered r c x reference properties h store m.site result
  have none : ∀ event ∈ events, event.isImport = false := fun event he =>
    Event.isImport_of_isCall (calls event he)
  rw [← site] at recorded
  rcases recorded with ⟨admission, ok, left, journal, _⟩ | ⟨ledger, left, journal, _⟩
  · obtain ⟨old, since, told, alone, taken⟩ := a.opening r c x before
    have alone : ∀ event ∈ since ++ events, event.isOpening = false := by
      intro event he
      rcases List.mem_append.1 he with he | he
      · exact alone event he
      · exact Event.isOpening_of_isImport (none event he)
    have told : n.site.journal = old ++ .opened c :: (since ++ events) ++
        [.recorded r.endpoint c reference h admission] := by
      rw [journal, told, List.append_assoc old, List.cons_append]
    constructor
    · intro q hq
      rcases Ledger.record_of_mem_register ok hq with ⟨rfl, made⟩ | ⟨o, ho, same⟩
      · obtain ⟨hkey, hendpoint, hx⟩ := RecordIdentity.mk.inj made
        rw [← hendpoint] at told hkey taken
        refine .inr ⟨old, c, since ++ events, reference, h, [], told, alone, by simp, hkey, ?_⟩
        -- The subscription is there to be taken, or a record that the import made before took it.
        rcases taken with ⟨y, hy, hadapter⟩ | ⟨reference', h', earlier⟩
        · exact .inl (Record.listensOn_iff.2 ⟨y, hx.trans hy, hadapter⟩)
        · exact .inr ⟨reference', h', List.mem_append_left _ earlier⟩
      · rw [List.append_assoc] at journal
        refine a.record ho same journal fun event he => ?_
        rcases List.mem_append.1 he with he | he
        · rw [Event.making?_of_isImport (none event he)]
          simp
        · rw [List.mem_singleton.1 he, ← Record.key_eq same]
          cases admission with
          | created => exact fun heq => Ledger.key_ne_of_created ok ho (Option.some.inj heq).symm
          | joined => simp [Event.making?]
    · intro r' c' x' hphase
      obtain ⟨rfl, rfl, rfl⟩ : r = r' ∧ c = c' ∧ i.subscription = x' := by
        simpa using after.symm.trans hphase
      refine ⟨old, since ++ events ++ [.recorded r.endpoint c reference h admission], ?_, ?_, ?_⟩
      · rw [told, List.append_assoc old, List.cons_append]
      · intro event he
        rcases List.mem_append.1 he with he | he
        · exact alone event he
        · rw [List.mem_singleton.1 he]
          rfl
      · cases admission with
        | created => exact .inr ⟨reference, h, by simp⟩
        | joined =>
          rw [left]
          refine taken.imp_right ?_
          rintro ⟨reference', h', made⟩
          exact ⟨reference', h', by simp [made]⟩
  · have rested : Rests m.site n.site := .of_ledger ledger journal none
    exact a.rests rested (.inl (by rw [after, before, left]))

theorem record_of_bypass {c : Command} (h : c.bypassesImporter = true) {q : Record}
    (hq : q ∈ (s.perform c).ledger.records) :
    (∃ reference a, c = .record q.endpoint q.key.container reference a q.subscription) ∨
      ∃ o ∈ s.ledger.records, o.identity = q.identity := by
  cases c with
  | unregister a =>
    have ledger : (s.perform (.unregister a)).ledger = s.ledger := by
      unfold perform
      dsimp only
      split <;> rfl
    exact .inr ⟨q, ledger ▸ hq, rfl⟩
  | record e d reference a x =>
    unfold perform record at hq
    dsimp only at hq
    rw [cancel_eq] at hq
    rcases Ledger.enroll_cases s.ledger e d reference a x with refused | ⟨_, ok⟩
    · rw [refused] at hq
      exact .inr ⟨q, hq, rfl⟩
    · refine (Ledger.record_of_mem_register ok hq).imp_left ?_
      rintro ⟨_, made⟩
      obtain ⟨hkey, rfl, rfl⟩ := RecordIdentity.mk.inj made
      rw [hkey]
      exact ⟨reference, a, rfl⟩
  | unrecordEndpoint e =>
    unfold perform unrecordEndpoint at hq
    dsimp only at hq
    rw [cancelAll_eq] at hq
    exact .inr ⟨q, (Ledger.mem_withdrawEndpoint.1 hq).1, rfl⟩
  | unrecordReference d reference =>
    unfold perform unrecordReference at hq
    dsimp only at hq
    rw [cancelAll_eq] at hq
    obtain ⟨o, ho, same, _⟩ := Ledger.exists_of_mem_withdrawReference hq
    exact .inr ⟨o, ho, same⟩
  | _ => cases h

theorem Stride.ascribed {m n : Moment} (stride : Stride allowed m n) (a : Ascribed allowed m) :
    Ascribed allowed n := by
  rcases stride.advance_or with advance | ⟨c, ok, bypasses, meddles, rfl⟩
  · cases advance with
    | rests rests _ phase => exact a.rests rests phase
    | opens r c y rests _ hy phase => exact a.opens rests hy phase
    | makes c reference rests _ phase =>
      have made : Ascribed allowed ⟨m.site.log (.proxied c reference), m.phase⟩ := a.log rfl rfl
      exact made.rests rests (.inl phase)
    | registers r c x reference registration h store i before ok result site after =>
      exact a.register before result site after
  · have journal : (m.site.perform c).journal = m.site.journal ++ [] :=
      (journal_meddle meddles _).trans (List.append_nil _).symm
    constructor
    · intro q hq
      rcases record_of_bypass bypasses hq with ⟨reference, h, rfl⟩ | ⟨o, ho, same⟩
      · exact .inl ⟨reference, h, ok⟩
      · exact a.record ho same journal (by simp)
    · intro r d x hphase
      exact (a.opening r d x hphase).mono journal (by simp)

/-- Every record comes from an import, or it is as someone else may have registered it. -/
theorem Reachable.ascribed (h : Reachable allowed s) : Ascribed allowed ⟨s, .idle⟩ := by
  refine (h.invariant (I := Ascribed allowed) ?_ fun coherent change a =>
    (change.stride coherent).ascribed a).2
  intro b s built
  have ledger : s.ledger = {} := by rw [(build_eq built).1]
  refine ⟨?_, ?_⟩
  · dsimp only
    rw [ledger]
    simp
  · intro _ _ _ hphase
    cases hphase

theorem Reachable.made (h : Reachable allowed s)
    (inside : ∀ c, allowed c → c.bypassesImporter = false) {q : Record}
    (hq : q ∈ s.ledger.records) : Made s q := by
  refine (h.ascribed.records q hq).resolve_left ?_
  rintro ⟨reference, a, ok⟩
  cases inside _ ok

structure Originated (m : Moment) : Prop where
  records : ∀ q ∈ m.site.ledger.records, Rooted m.site q
  opening : ∀ r c x, m.phase.import? = some (r, c, x) → Opening m.site r c x

theorem Reachable.originated (h : Reachable allowed s)
    (inside : ∀ c, allowed c → c.bypassesImporter = false) : Originated ⟨s, .idle⟩ :=
  ⟨fun _ hq => (h.made inside hq).rooted, h.ascribed.opening⟩

/-! ## Every proxy is recorded once -/

def recordings (s : Site) : List Handle := s.journal.filterMap Event.recordedHandle?

structure Filed (s : Site) : Prop where
  issued : ∀ h ∈ s.recordings, h.id ≤ s.space.store.issued
  distinct : s.recordings.Nodup

theorem Filed.silent (f : Filed s) (issued : t.space.store.issued = s.space.store.issued)
    {events : List Event} (journal : t.journal = s.journal ++ events)
    (silent : ∀ event ∈ events, event.recordedHandle? = none) : Filed t := by
  have recordings : t.recordings = s.recordings := by
    unfold Site.recordings
    rw [journal, List.filterMap_append, List.filterMap_eq_nil_iff.2 silent, List.append_nil]
  refine ⟨?_, recordings ▸ f.distinct⟩
  rw [recordings, issued]
  exact f.issued

theorem Filed.log (f : Filed s) {e : Event} (h : e.recordedHandle? = none) : Filed (s.log e) :=
  f.silent rfl rfl (by simpa using h)

theorem Filed.rests (f : Filed s) (h : Rests s t)
    (issued : t.space.store.issued = s.space.store.issued) : Filed t := by
  obtain ⟨events, journal, none⟩ := h.journal
  exact f.silent issued journal fun event he => Event.recordedHandle?_of_isImport (none event he)

theorem Filed.register (f : Filed s) {registration : Registration} {h : Handle}
    {store : ServiceSpace} (ok : s.space.store.register registration = .ok (h, store))
    (r : Resolution) (c : Candidate) (x : Option Subscription) (reference : Reference)
    (properties : Properties) :
    Filed (s.recordRegistered r c x reference properties h store).site := by
  obtain ⟨_, hid, hstore⟩ := ServiceSpace.register_eq_ok_iff.1 ok
  obtain ⟨i, hi⟩ : ∃ i, i = s.recordRegistered r c x reference properties h store := ⟨_, rfl⟩
  obtain ⟨_, issued, events, calls, recorded⟩ :=
    importing_recordRegistered r c x reference properties h store s hi
  have silent : ∀ event ∈ events, event.recordedHandle? = none := fun event he =>
    Event.recordedHandle?_of_isImport (Event.isImport_of_isCall (calls event he))
  replace issued : i.site.space.store.issued = s.space.store.issued + 1 := by rw [issued, hstore]
  rw [← hi]
  have told : (s.journal ++ events).filterMap Event.recordedHandle? = s.recordings := by
    rw [List.filterMap_append, List.filterMap_eq_nil_iff.2 silent, List.append_nil]
    rfl
  rcases recorded with ⟨admission, _, _, journal, _⟩ | ⟨_, _, journal, _⟩
  · have recordings : i.site.recordings = s.recordings ++ [h] := by
      unfold Site.recordings
      rw [journal, List.filterMap_append, told]
      rfl
    constructor
    · rw [recordings, issued]
      intro a ha
      rcases List.mem_append.1 ha with ha | ha
      · exact Nat.le_succ_of_le (f.issued a ha)
      · rw [List.mem_singleton.1 ha, hid]
    · -- The number of the new handle is above all that were recorded.
      rw [recordings, List.nodup_append]
      refine ⟨f.distinct, List.nodup_singleton h, ?_⟩
      rintro a ha b hb rfl
      have := f.issued a ha
      rw [List.mem_singleton.1 hb, hid] at this
      dsimp only at this
      omega
  · have recordings : i.site.recordings = s.recordings := by
      unfold Site.recordings
      rw [journal, told, recordings]
    refine ⟨?_, recordings ▸ f.distinct⟩
    rw [recordings, issued]
    exact fun a ha => Nat.le_succ_of_le (f.issued a ha)

theorem Advance.filed {m n : Moment} (advance : Advance m n) (f : Filed m.site) :
    Filed n.site := by
  cases advance with
  | rests rests issued _ => exact f.rests rests issued
  | opens r c y rests issued _ _ => exact (f.log rfl).rests rests issued
  | makes c reference rests issued _ => exact (f.log rfl).rests rests issued
  | registers r c x reference registration h store i _ ok result site _ =>
    rw [site, result]
    exact f.register ok r c x reference registration.properties

theorem Reachable.filed (h : Reachable allowed s)
    (inside : ∀ c, allowed c → c.bypassesImporter = false) : Filed s := by
  refine (h.invariant (I := fun m => Filed m.site) ?_ fun coherent change f =>
    ((change.stride coherent).advance inside).filed f).2
  intro b s built
  have recordings : s.recordings = [] := by
    unfold Site.recordings
    rcases (build_eq built).2 with journal | journal
    · rw [journal]
      rfl
    · rw [journal]
      rfl
  refine ⟨?_, ?_⟩
  all_goals
    dsimp only
    rw [recordings]
    simp

end Site

end ServiceImport

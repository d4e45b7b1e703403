import ServiceImport.Proofs.Site.Frames

/-! # What does not look at the hubs

Only attaching, publishing, closing and the turns of feeds look at the hubs. Everything else does
the same whatever hubs there are, and leaves them as they are. What the importer does with its news
does not depend on who waits for more of them either.
-/

namespace ServiceImport

/-- Whether a command is about the hubs. -/
def Command.isAboutHubs : Command → Bool
  | .attach | .publish _ | .closeHub => true
  | _ => false

namespace Site

/-- The site with other hubs. -/
def withHubs (hubs : List (Hub Notification)) (s : Site) : Site := { s with hubs }

/-- A function that does the same whatever hubs there are. -/
def Blind (f : Site → Site) : Prop := ∀ hubs s, f (withHubs hubs s) = withHubs hubs (f s)

/-- The same for a function that also tells something. -/
def BlindPair {α : Type} (f : Site → α × Site) : Prop :=
  ∀ hubs s, f (withHubs hubs s) = ((f s).1, withHubs hubs (f s).2)

namespace Blind

variable {f g : Site → Site}

/-- What does the same whatever hubs there are leaves them as they are. -/
theorem hubs_eq (h : Blind f) (s : Site) : (f s).hubs = s.hubs := by
  have same := congrArg Site.hubs (h s.hubs s)
  exact same

theorem comp (hg : Blind g) (hf : Blind f) : Blind fun s => g (f s) := fun hubs s =>
  (congrArg g (hf hubs s)).trans (hg hubs (f s))

theorem foldl {α : Type} {f : Site → α → Site} (h : ∀ a, Blind fun s => f s a) (l : List α) :
    Blind fun s => l.foldl f s := by
  induction l with
  | nil => exact fun _ _ => rfl
  | cons a l ih => exact ih.comp (h a)

end Blind

theorem BlindPair.snd {α : Type} {f : Site → α × Site} (h : BlindPair f) : Blind fun s => (f s).2 :=
  fun hubs s => congrArg Prod.snd (h hubs s)

/-- The site with other hubs, and other feeds that wait for news. -/
def withAudience (hubs : List (Hub Notification)) (idleFeeds : List Nat) (s : Site) : Site :=
  { s with hubs, idleFeeds }

/-- A function that does the same whatever hubs there are and whichever feeds wait. -/
def Deaf (f : Site → Site) : Prop :=
  ∀ hubs idleFeeds s, f (s.withAudience hubs idleFeeds) = (f s).withAudience hubs idleFeeds

namespace Deaf

variable {f g : Site → Site}

theorem blind (h : Deaf f) : Blind f := by
  intro hubs s
  have idle := congrArg Site.idleFeeds (h s.hubs s.idleFeeds s)
  replace idle : (f s).idleFeeds = s.idleFeeds := idle
  have heard := h hubs s.idleFeeds s
  rw [← idle] at heard
  exact (congrArg (fun idle => f (s.withAudience hubs idle)) idle.symm).trans heard

theorem foldl {α : Type} {f : Site → α → Site} (h : ∀ a, Deaf fun s => f s a) (l : List α) :
    Deaf fun s => l.foldl f s := by
  induction l with
  | nil => exact fun _ _ _ => rfl
  | cons a l ih =>
    exact fun hubs idle s => (congrArg (l.foldl f) (h a hubs idle s)).trans (ih hubs idle (f s a))

end Deaf

/-! ## Subscriptions and jobs -/

theorem deaf_cancel (x : Option Subscription) : Deaf (cancel x) := by
  intro hubs idle s
  cases x <;> rfl

theorem deaf_cancelAll (records : List Record) : Deaf (cancelAll records) :=
  Deaf.foldl (f := fun s (r : Record) => s.cancel r.subscription)
    (fun r => deaf_cancel r.subscription) records

theorem blind_subscribe (key : String) (l : Listener) : BlindPair (subscribe key l) := by
  intro hubs s
  unfold subscribe
  dsimp only [withHubs, adapter?]
  split <;> rfl

theorem blind_wake (j : Job) : Blind (wake j) := by
  intro hubs s
  unfold wake
  rw [apply_ite (withHubs hubs)]
  rfl

theorem blind_releaseLedger : Blind releaseLedger := by
  intro hubs s
  unfold releaseLedger
  rw [apply_ite (withHubs hubs), ← (deaf_cancelAll _).blind]
  rfl

/-! ## Removals -/

theorem unregister_withAudience (h : Handle) (hubs : List (Hub Notification)) (idle : List Nat)
    (s : Site) :
    (s.withAudience hubs idle).unregister h =
      ((s.unregister h).1, (s.unregister h).2.withAudience hubs idle) := by
  unfold unregister
  dsimp only [withAudience]
  split
  · rfl
  · split <;> rfl

theorem deaf_forgetImport (h : Handle) : Deaf (forgetImport h) := by
  intro hubs idle s
  unfold forgetImport
  rw [apply_ite (withAudience hubs idle)]
  rfl

theorem deaf_reportUnregister (h : Handle) (fault : Option Fault) :
    Deaf (reportUnregister h fault) := by
  intro hubs idle s
  unfold reportUnregister
  split <;> rfl

theorem deaf_tearDownOne (h : Handle) : Deaf fun s => s.tearDownOne h := by
  intro hubs idle s
  dsimp only
  unfold tearDownOne
  rw [unregister_withAudience]
  dsimp only
  rw [deaf_reportUnregister, deaf_forgetImport]

theorem deaf_tearDown (handles : List Handle) : Deaf (tearDown handles) :=
  Deaf.foldl deaf_tearDownOne handles

theorem blind_noteEmptied (container : ContainerId) (r : Record) :
    Blind fun s => s.noteEmptied container r := by
  intro hubs s
  dsimp only
  unfold noteEmptied
  rw [apply_ite (withHubs hubs)]
  rfl

theorem blind_removeReference (container : ContainerId) (reference : Nat) :
    Blind (removeReference container reference) := by
  intro hubs s
  have cancelled := (deaf_cancelAll
    (s.ledger.withdrawReference container reference).1.disposed).blind hubs
    { s with ledger := (s.ledger.withdrawReference container reference).2 }
  unfold removeReference
  dsimp only
  rw [apply_ite (withHubs hubs), ← cancelled,
    ← Blind.foldl (blind_noteEmptied container), ← (deaf_tearDown _).blind, ← cancelled]
  rfl

theorem blind_hear (removal : Removal) (l : Listener) : Blind fun s => s.hear removal l := by
  intro hubs s
  cases l with
  | recorder label => rfl
  | importer container =>
    dsimp only [hear]
    rw [apply_ite (withHubs hubs), ← blind_removeReference]
    rfl

theorem blind_deliver (listeners : List Listener) (removal : Removal) :
    Blind (deliver listeners removal) :=
  Blind.foldl (blind_hear removal) listeners

theorem blind_withdrawService (key : String) (reference : Nat) :
    BlindPair (withdrawService key reference) := by
  intro hubs s
  have same : (s.withHubs hubs).adapter? key = s.adapter? key := rfl
  unfold withdrawService
  rw [same]
  split
  · split
    · rfl
    · dsimp only
      rw [← blind_deliver]
      rfl
  · rfl

theorem blind_emit (key : String) (reference : Reference) (host : Option ContainerId) :
    BlindPair (emit key reference host) := by
  intro hubs s
  have same : (s.withHubs hubs).adapter? key = s.adapter? key := rfl
  unfold emit
  rw [same]
  split
  · rfl
  · rw [blind_deliver]

/-! ## The importer -/

theorem deaf_unavailable (e : Endpoint) : Deaf (unavailable e) := by
  intro hubs idle s
  have cancelled := deaf_cancelAll (s.ledger.withdrawEndpoint e.id).1 hubs idle
    { s with
      locations := (s.locations.release e.location).2
      ledger := (s.ledger.withdrawEndpoint e.id).2 }
  have ledger : (s.withAudience hubs idle).ledger = s.ledger := rfl
  have locations : (s.withAudience hubs idle).locations = s.locations := rfl
  unfold unavailable
  simp only [ledger, locations]
  split
  · exact congrArg (log (.left e)) cancelled
  · refine (congrArg (fun t => report _ (tearDown _ (log (.left e) t))) cancelled).trans ?_
    exact congrArg (report _) (deaf_tearDown _ hubs idle (log (.left e) _))

theorem deaf_available (e : Endpoint) : Deaf (available e) := by
  intro hubs idle s
  have same : (s.withAudience hubs idle).locations = s.locations := rfl
  cases known : s.locations.contains e.location with
  | true =>
    rw [available_of_contains known, available_of_contains (same ▸ known)]
    rfl
  | false =>
    rw [available_of_not_contains known, available_of_not_contains (same ▸ known)]
    rfl

theorem deaf_notify (news : Notification) : Deaf (notify news) := by
  intro hubs idle s
  have same : (s.withAudience hubs idle).adaptation = s.adaptation := rfl
  unfold notify
  rw [same]
  split
  · rfl
  · rfl
  · split
    · exact deaf_available _ hubs idle s
    · exact deaf_unavailable _ hubs idle s
    · rfl
    · rfl

/-! ## Commands -/

theorem blind_abortResolution (r : Resolution) : Blind fun s => s.abortResolution r := by
  intro hubs s
  dsimp only
  unfold abortResolution
  cases r.stage with
  | running => rfl
  | _ =>
    dsimp only
    rw [← blind_wake]
    rfl

theorem blind_abortFeed (i : Nat) : Blind (abortFeed i) := by
  intro hubs s
  have same : (s.withHubs hubs).feeds = s.feeds := rfl
  unfold abortFeed
  rw [same]
  split
  · rfl
  · split
    · rfl
    · dsimp only
      rw [← blind_wake]
      rfl

theorem blind_shutdown : Blind shutdown := by
  intro hubs s
  have resolutions := Blind.foldl blind_abortResolution s.resolutions hubs s
  have feeds := Blind.foldl (f := fun s i => s.abortFeed i) (fun i => blind_abortFeed i)
    (List.range (s.resolutions.foldl abortResolution s).feeds.length) hubs
    (s.resolutions.foldl abortResolution s)
  have same : (s.withHubs hubs).resolutions = s.resolutions := rfl
  unfold shutdown
  dsimp only at *
  rw [same, resolutions]
  exact feeds

theorem blind_dropImporter (keepLedger : Bool) : Blind (dropImporter keepLedger) := fun hubs s =>
  blind_releaseLedger hubs { s with importerHeld := false, ledgerHeld := keepLedger }

theorem blind_wakeAll (f : Nat → Job) (numbers : List Nat) :
    Blind fun s => numbers.foldl (fun s n => s.wake (f n)) s :=
  Blind.foldl (f := fun s n => s.wake (f n)) (fun n => blind_wake (f n)) numbers

theorem blind_wakeFeeds (hub : Nat) : Blind (wakeFeeds hub) := by
  intro hubs s
  unfold wakeFeeds
  dsimp only
  rw [← blind_wakeAll]
  rfl

theorem blind_publishService (key : String) (interfaces : List String) (properties : Properties) :
    BlindPair (publishService key interfaces properties) := by
  intro hubs s
  have same : (s.withHubs hubs).adapter? key = s.adapter? key := rfl
  unfold publishService
  rw [same]
  split <;> rfl

theorem blind_setGate (key : String) (closed : Bool) : Blind (setGate key closed) := by
  intro hubs s
  unfold setGate
  dsimp only
  rw [← blind_wakeAll]
  rfl

theorem blind_record (e : Endpoint) (container : ContainerId) (reference : Reference) (h : Handle)
    (x : Option Subscription) : BlindPair (record e container reference h x) := by
  intro hubs s
  unfold record
  dsimp only
  rw [← (deaf_cancel _).blind]
  rfl

theorem blind_unrecordEndpoint (e : Endpoint) : BlindPair (unrecordEndpoint e) := by
  intro hubs s
  unfold unrecordEndpoint
  dsimp only
  rw [← (deaf_cancelAll _).blind]
  rfl

theorem blind_unrecordReference (container : ContainerId) (reference : Nat) :
    BlindPair (unrecordReference container reference) := by
  intro hubs s
  unfold unrecordReference
  dsimp only
  rw [← (deaf_cancelAll _).blind]
  rfl

theorem blind_perform {c : Command} (other : c.isAboutHubs = false) :
    Blind fun s => s.perform c := by
  cases c with
  | attach | publish | closeHub => exact absurd other nofun
  | available e => exact (deaf_available e).blind
  | unavailable e => exact (deaf_unavailable e).blind
  | notify news => exact (deaf_notify news).blind
  | shutdown => exact blind_shutdown
  | dropImporter keepLedger => exact blind_dropImporter keepLedger
  | abortFeed i => exact blind_abortFeed i
  | publishService key interfaces properties =>
    exact (blind_publishService key interfaces properties).snd
  | withdrawService key reference => exact (blind_withdrawService key reference).snd
  | setGate key closed => exact blind_setGate key closed
  | emit key reference host => exact (blind_emit key reference host).snd
  | observe key label => exact (blind_subscribe key (.recorder label)).snd
  | unregister h =>
    intro hubs s
    dsimp only [perform, withHubs]
    split <;> rfl
  | record e container reference h x => exact (blind_record e container reference h x).snd
  | unrecordEndpoint e => exact (blind_unrecordEndpoint e).snd
  | unrecordReference container reference => exact (blind_unrecordReference container reference).snd
  | _ => exact fun _ _ => rfl

/-! ## Finding and looking up -/

theorem blind_findContainers (e : Endpoint) : BlindPair (findContainers e) := by
  intro hubs s
  have managed : (s.withHubs hubs).managed = s.managed := rfl
  have registry : (s.withHubs hubs).registry = s.registry := rfl
  have count : (s.withHubs hubs).finderCount = s.finderCount := rfl
  have finders : ∀ t : Site, (t.withHubs hubs).finders = t.finders := fun _ => rfl
  have asked : (s.withHubs hubs).findManaged e =
      ((s.findManaged e).1, withHubs hubs (s.findManaged e).2) := by
    unfold findManaged findByNamespace
    simp only [managed, registry]
    split
    · split
      · rfl
      · split <;> rfl
    · rfl
  unfold findContainers
  simp only [count, asked, finders]
  split
  · rfl
  · split <;> rfl

theorem blind_lookUp (e : Endpoint) (c : Candidate) : BlindPair (lookUp e c) := by
  intro hubs s
  unfold lookUp
  have each : ∀ (interfaces : List String) (acc : List (String × List Reference) × Site),
      interfaces.foldl (lookUpOne e c) (acc.1, acc.2.withHubs hubs) =
        ((interfaces.foldl (lookUpOne e c) acc).1,
          (interfaces.foldl (lookUpOne e c) acc).2.withHubs hubs) := by
    intro interfaces
    induction interfaces with
    | nil => exact fun _ => rfl
    | cons i interfaces ih =>
      intro acc
      have one : lookUpOne e c (acc.1, acc.2.withHubs hubs) i =
          ((lookUpOne e c acc i).1, (lookUpOne e c acc i).2.withHubs hubs) := by
        have same : answerFor e c i (acc.2.withHubs hubs) = answerFor e c i acc.2 := rfl
        unfold lookUpOne
        rw [same]
        split <;> rfl
      rw [List.foldl_cons, List.foldl_cons, one]
      exact ih _
  exact each e.interfaces ([], s)

/-! ## Recording -/

theorem blind_noteImport (h : Handle) (reference : Reference) : Blind (noteImport h reference) := by
  intro hubs s
  unfold noteImport
  rw [apply_ite (withHubs hubs)]
  rfl

/-- An import at a site with other hubs. -/
def Importing.withHubs (hubs : List (Hub Notification)) (i : Importing) : Importing :=
  { i with site := i.site.withHubs hubs }

theorem recordProxy_withHubs (e : Endpoint) (c : Candidate) (r : Reference) (h : Handle)
    (i : Importing) (hubs : List (Hub Notification)) :
    recordProxy e c r h (i.withHubs hubs) = (recordProxy e c r h i).withHubs hubs := by
  have same : (i.withHubs hubs).site.ledger.register e c.id r h (i.withHubs hubs).subscription =
      i.site.ledger.register e c.id r h i.subscription := rfl
  rw [recordProxy_eq, recordProxy_eq, same]
  split
  · rfl
  · unfold Importing.withHubs
    dsimp only
    rw [← (deaf_tearDown _).blind]
    rfl

/-! ## Ends of resolutions -/

theorem blind_releasePermit : Blind releasePermit := by
  intro hubs s
  unfold releasePermit Limiter.release
  have same : (s.withHubs hubs).limiter = s.limiter := rfl
  rw [same]
  cases s.limiter.waiting with
  | nil => rfl
  | cons n rest =>
    dsimp only
    rw [← blind_wake]
    rfl

theorem blind_complete (r : Resolution) (outcome : Outcome) : Blind (complete r outcome) := by
  have retired : Blind (retire r) := fun _ _ => rfl
  have told (report : Report) : Blind fun s => log (.completed r.id r.endpoint outcome)
      { s.report report with finished := s.finished ++ [(r.endpoint.id, outcome)] } :=
    fun _ _ => rfl
  cases outcome with
  | registered n => exact retired.comp (blind_releasePermit.comp (told (.imported r.endpoint.id n)))
  | _ => exact retired.comp (blind_releasePermit.comp (told (.notImported r.endpoint.id _)))

theorem blind_discard (r : Resolution) : Blind (discard r) := by
  intro hubs s
  have left : (s.withHubs hubs).leaveQueues r = (s.leaveQueues r).withHubs hubs := by
    unfold leaveQueues
    split <;> rfl
  unfold discard
  rw [left]
  cases r.stage.holdsPermit with
  | false => rfl
  | true => exact congrArg (fun t => log _ (retire r t)) (blind_releasePermit hubs _)

theorem conclude_withHubs (r : Resolution) (progress : Progress) (hubs : List (Hub Notification))
    (s : Site) :
    conclude r (progress, s.withHubs hubs) = (conclude r (progress, s)).withHubs hubs := by
  unfold conclude
  cases progress with
  | done outcome => exact blind_complete r outcome hubs s
  | waiting c rest tally =>
    have same : (s.withHubs hubs).resolution? r.id = s.resolution? r.id := rfl
    dsimp only
    rw [same]
    split
    · rfl
    · next now _ =>
      split
      · exact blind_discard now hubs s
      · rfl

end Site

end ServiceImport

import ServiceImport.Proofs.Site.Adoption
import ServiceImport.Proofs.Site.Permits

/-! # Failures on the way

Interfaces whose look-up fails and references whose proxy cannot be made leave no trace. A
resolution ends as if the endpoint did not have those interfaces, and as if the adapters did not
tell of those references.
-/

namespace ServiceImport

theorem mem_of_mem_firstsBy {α : Type} {number : α → Nat} {l : List α} {a : α}
    (h : a ∈ firstsBy number l) : a ∈ l := by
  induction l using List.reverseRecOn with
  | nil => exact h
  | append_singleton l b ih =>
    rw [firstsBy_concat] at h
    split at h
    · exact List.mem_append_left _ (ih h)
    · exact List.mem_append.2 ((List.mem_append.1 h).imp_left ih)

theorem firstsBy_filter {α : Type} (number : α → Nat) (p : α → Bool) {l : List α}
    (same : ∀ a ∈ l, ∀ b ∈ l, number a = number b → a = b) :
    firstsBy number (l.filter p) = (firstsBy number l).filter p := by
  induction l using List.reverseRecOn with
  | nil => rfl
  | append_singleton l a ih =>
    have ih := ih fun b hb c hc =>
      same b (List.mem_append_left _ hb) c (List.mem_append_left _ hc)
    rw [firstsBy_concat, List.filter_append]
    cases keeps : p a with
    | false =>
      have none : [a].filter p = [] := by simp [keeps]
      rw [none, List.append_nil, ih]
      split
      · rfl
      · rw [List.filter_append, none, List.append_nil]
    | true =>
      have one : [a].filter p = [a] := by simp [keeps]
      -- Whoever has the number of the last element is that element, and so is kept too.
      have known : ((firstsBy number l).filter p).any (number · == number a) =
          (firstsBy number l).any (number · == number a) := by
        rw [Bool.eq_iff_iff, List.any_eq_true, List.any_eq_true]
        constructor
        · rintro ⟨b, hb, hnumber⟩
          exact ⟨b, (List.mem_filter.1 hb).1, hnumber⟩
        · rintro ⟨b, hb, hnumber⟩
          obtain rfl : b = a := same b (List.mem_append_left _ (mem_of_mem_firstsBy hb)) a
            (List.mem_append_right _ List.mem_cons_self) (beq_iff_eq.1 hnumber)
          exact ⟨b, List.mem_filter.2 ⟨hb, keeps⟩, hnumber⟩
      rw [one, firstsBy_concat, ih, known]
      split
      · rfl
      · rw [List.filter_append, one]

/-! ## Adapters that tell of less -/

namespace Adapter

/-- Whether the proxy of a reference can be made: it has classes, and there is a remote service for
it which gives a proxy. -/
def serves (a : Adapter) (r : Reference) : Bool :=
  !r.classes.isEmpty && match a.remoteService? r with
    | some (.ok _) => true
    | _ => false

/-- The adapter that does not tell of references whose proxy cannot be made. A memory adapter does
not tell of such references anyway. -/
def omitting (a : Adapter) : Adapter :=
  { a with
    backend := match a.backend with
      | .memory p => .memory p
      | .scripted x => .scripted
        { x with answers := x.answers.map fun y => (y.1, y.2.map (·.filter a.serves)) } }

theorem isClosed_omitting (a : Adapter) : a.omitting.isClosed = a.isClosed := by
  obtain ⟨owner, backend, listeners, subscribed, lookups⟩ := a
  cases backend <;> rfl

theorem remoteService?_omitting (a : Adapter) : a.omitting.remoteService? = a.remoteService? := by
  obtain ⟨owner, backend, listeners, subscribed, lookups⟩ := a
  cases backend <;> rfl

theorem serves_of_mem_select {a : Adapter} {p : PublishedServices} (memory : a.backend = .memory p)
    {interface : String} {filter : Option Filter} {r : Reference}
    (h : r ∈ p.select interface filter) : a.serves r = true := by
  obtain ⟨held, fits⟩ := List.mem_filter.1 h
  have classes : r.classes.isEmpty = false := by
    cases none : r.classes with
    | nil => simp [none] at fits
    | cons _ _ => rfl
  obtain ⟨q, found⟩ : ∃ q, p.find? r.id = some q :=
    Option.isSome_iff_exists.1 (List.find?_isSome.2 ⟨r, held, by simp⟩)
  unfold serves remoteService?
  rw [memory, classes]
  dsimp only
  rw [found]
  rfl

theorem lookup_omitting (a : Adapter) (target : Option ContainerId) (interface : String)
    (filter : Option String) :
    a.omitting.lookup target interface filter =
      (a.lookup target interface filter).map (·.filter a.serves) := by
  cases backend : a.backend with
  | memory p =>
    have all (f : Option Filter) :
        (p.select interface f).filter a.serves = p.select interface f :=
      List.filter_eq_self.2 fun r hr => serves_of_mem_select backend hr
    unfold lookup omitting PublishedServices.lookup
    rw [backend]
    dsimp only
    split
    · rfl
    · rfl
    · split
      · simp [Except.map, all]
      · next text =>
        cases PublishedServices.readFilter text <;> simp [Except.map, all]
  | scripted x =>
    unfold lookup omitting Script.lookup
    rw [backend]
    dsimp only
    induction x.answers with
    | nil => rfl
    | cons answer answers ih =>
      rw [List.map_cons, List.lookup_cons, List.lookup_cons]
      split
      · rfl
      · exact ih

end Adapter

namespace Site

variable {s : Site} {e : Endpoint} {c : Candidate} {allowed : Command → Prop}

/-! ## Sites that tell of less -/

/-- The site whose adapters do not tell of references whose proxy cannot be made. -/
def omitting (s : Site) : Site :=
  { s with adapters := s.adapters.map fun a => (a.1, a.2.omitting) }

theorem adapter?_omitting (s : Site) (key : String) :
    s.omitting.adapter? key = (s.adapter? key).map Adapter.omitting := by
  unfold adapter? omitting
  dsimp only
  induction s.adapters with
  | nil => rfl
  | cons a adapters ih =>
    rw [List.map_cons, List.lookup_cons, List.lookup_cons]
    split
    · rfl
    · exact ih

theorem audience_omitting (s : Site) : s.omitting.audience = s.audience := by
  funext key
  unfold audience
  rw [adapter?_omitting, Option.map_map]
  rfl

/-- The endpoint without the interfaces under which no candidate has anything. -/
def answering (e : Endpoint) (s : Site) : Endpoint :=
  { e with
    interfaces := e.interfaces.filter fun interface =>
      (s.findContainers e).1.any fun c => !(s.under e c interface).isEmpty }

theorem under_omitting (e : Endpoint) (c : Candidate) (s : Site) (interface : String) :
    s.omitting.under (s.answering e) c interface = (s.under e c interface).filter fun r =>
      (s.adapter? c.adapter).any (·.serves r) := by
  unfold under answerFor
  rw [adapter?_omitting]
  cases s.adapter? c.adapter with
  | none => rfl
  | some a =>
    dsimp only [Option.map_some, Option.any_some]
    rw [a.lookup_omitting]
    change ((a.lookup e.target interface e.filter).map _).toOption.getD [] = _
    cases a.lookup e.target interface e.filter <;> rfl

/-- An endpoint that lost interfaces without references tells of the same, and adapters that tell of
less leave out the rest. -/
theorem offering_omitting (hc : c ∈ (s.findContainers e).1) :
    s.omitting.offering (s.answering e) c = (s.offering e c).filter fun r =>
      (s.adapter? c.adapter).any (·.serves r) := by
  have under : s.omitting.under (s.answering e) c = fun interface =>
      (s.under e c interface).filter fun r => (s.adapter? c.adapter).any (·.serves r) :=
    funext (under_omitting e c s)
  unfold offering
  rw [List.filter_flatMap, under]
  refine flatMap_filter_of_nil fun interface _ silent => ?_
  have empty := List.any_eq_false.1 silent c hc
  rw [Bool.not_eq_true, Bool.not_eq_false', List.isEmpty_iff] at empty
  rw [empty]
  rfl

theorem serves_of_registration? {r : Reference} {g : Registration}
    (h : s.registration? e c r = some g) : (s.adapter? c.adapter).any (·.serves r) = true := by
  unfold registration? at h
  split at h
  · next proxied service _ =>
    obtain ⟨a, there, service⟩ := Option.bind_eq_some_iff.1 service
    split at h
    · cases h
    · next classes =>
      rw [there, Option.any_some, Adapter.serves, service]
      simp [classes]
  · cases h

theorem registration?_omitting (e : Endpoint) (c : Candidate) (s : Site) :
    s.omitting.registration? (s.answering e) c = s.registration? e c := by
  funext r
  have service : (s.omitting.adapter? c.adapter).bind (·.remoteService? r) =
      (s.adapter? c.adapter).bind (·.remoteService? r) := by
    rw [adapter?_omitting]
    cases s.adapter? c.adapter with
    | none => rfl
    | some a => exact congrFun a.remoteService?_omitting r
  unfold registration?
  rw [service]
  rfl

/-- What can be imported through a candidate stays, if an id stands for one reference. -/
theorem importables_omitting (hc : c ∈ (s.findContainers e).1)
    (same : ∀ a ∈ s.offering e c, ∀ b ∈ s.offering e c, a.id = b.id → a = b) :
    s.omitting.importables (s.answering e) c = s.importables e c := by
  unfold importables foundThrough
  rw [offering_omitting hc, firstsBy_filter _ _ same, registration?_omitting, List.filterMap_filter]
  congr 1
  funext r
  split
  · rfl
  · next fails =>
    cases h : s.registration? e c r with
    | none => rfl
    | some g => exact absurd (serves_of_registration? h) fails

/-! ## Two resolutions -/

/-- The site at which a resolution goes by a description of its endpoint without the interfaces that
have nothing, and whose adapters do not tell of references whose proxy cannot be made. -/
def spared (r : Resolution) (s : Site) : Site :=
  s.omitting.updateResolution r.id ({ · with endpoint := s.answering r.endpoint })

end Site

/-- What is told of a record: what it is filed under, the location of its endpoint, and the ids of
its references with their handles. -/
def Record.summary (r : Record) : RecordKey × Location × List (Nat × Handle) :=
  (r.key, r.endpoint.location, r.mappings.map fun m => (m.1.id, m.2))

/-- The description of an endpoint without its interfaces. -/
def Endpoint.bare (e : Endpoint) : Endpoint := { e with interfaces := [] }

theorem Ledger.snapshot_outline (describe : Endpoint → Endpoint) (l : Ledger) :
    (l.outline describe).snapshot = l.snapshot.map (Record.outline describe) := by
  have sorted := List.map_mergeSort (f := Record.outline describe) (s := Record.before)
    (r := Record.before) (l := l.records) fun _ _ _ _ => rfl
  exact sorted.symm

theorem Ledger.summaries_of_outline {l l' : Ledger}
    (same : l'.outline Endpoint.bare = l.outline Endpoint.bare) :
    l'.snapshot.map Record.summary = l.snapshot.map Record.summary := by
  have bare (l : Ledger) : l.snapshot.map Record.summary =
      (l.outline Endpoint.bare).snapshot.map Record.summary := by
    rw [snapshot_outline, List.map_map]
    rfl
  rw [bare l', same, ← bare]

namespace Site

variable {s : Site} {e : Endpoint} {c : Candidate} {allowed : Command → Prop}

theorem findContainers_spared (r : Resolution) (s : Site) :
    ((s.spared r).findContainers (s.answering r.endpoint)).1 =
      (s.findContainers r.endpoint).1 := by
  rw [fst_findContainers, fst_findContainers]
  rfl

theorem Undelayed.spared {r : Resolution} (runs : s.Undelayed r) :
    (s.spared r).Undelayed { r with endpoint := s.answering r.endpoint } where
  ready := runs.ready
  inFlight := by
    have ids : ((·.id == r.id) ∘ fun q : Resolution =>
        if q.id = r.id then { q with endpoint := s.answering r.endpoint } else q) =
        (·.id == r.id) := by
      funext q
      dsimp only [Function.comp]
      split <;> rfl
    have found : s.resolutions.find? (·.id == r.id) = some r := runs.inFlight
    refine List.find?_map.trans ?_
    rw [ids]
    change (s.resolutions.find? (·.id == r.id)).map _ = _
    rw [found, Option.map_some, if_pos rfl]
  kept := runs.kept
  permitted := runs.permitted
  calm := runs.calm
  opened c hc := by
    dsimp only at hc
    rw [findContainers_spared] at hc
    have opened := runs.opened c hc
    have closed : ((s.spared r).adapter? c.adapter).any (·.isClosed) =
        (s.adapter? c.adapter).any (·.isClosed) := by
      change (s.omitting.adapter? c.adapter).any (·.isClosed) = _
      rw [adapter?_omitting, Option.any_map]
      simp only [Adapter.isClosed_omitting]
    unfold hasToWait at opened ⊢
    rw [closed]
    rw [Bool.and_eq_false_iff] at opened ⊢
    refine opened.imp_left fun none => ?_
    rw [Bool.not_eq_false', List.isEmpty_iff] at none ⊢
    unfold answering
    rw [none]
    rfl

/-- Failures on the way leave no trace. A resolution that is not interrupted ends with the same
records as told, with the same registrations, imports, listeners and accepted locations as one from
the same site of the endpoint without the interfaces that have nothing, with adapters that do not
tell of references whose proxy cannot be made. An id stands for one reference of an adapter. -/
theorem turnOf_spared (h : Reachable allowed s) {r : Resolution} (runs : s.Undelayed r)
    (same : ∀ c ∈ (s.findContainers r.endpoint).1, ∀ a ∈ s.offering r.endpoint c,
      ∀ b ∈ s.offering r.endpoint c, a.id = b.id → a = b) :
    let r' := { r with endpoint := s.answering r.endpoint }
    let t := s.turnOf r
    let t' := (s.spared r).turnOf r'
    s.poll (.resolution r.id) = t.releaseLedger ∧
    ((s.spared r).Undelayed r' ∧ (s.spared r).poll (.resolution r.id) = t'.releaseLedger) ∧
    t'.ledger.snapshot.map Record.summary = t.ledger.snapshot.map Record.summary ∧
    t'.space = t.space ∧ t'.attending = t.attending ∧ t'.locations = t.locations := by
  obtain ⟨outcome, resolves⟩ := runs.resolves h.wellFormed h.placed
  have placed : Placed (s.spared r) := h.placed.of_eq (audience_omitting s)
  obtain ⟨outcome', resolves'⟩ := runs.spared.resolves h.wellFormed placed
  have importables : ∀ c ∈ (s.findContainers r.endpoint).1,
      (s.spared r).importables (s.answering r.endpoint) c = s.importables r.endpoint c :=
    fun c hc => importables_omitting hc (same c hc)
  have seen := resolves.holdings Endpoint.bare rfl
  have seen' := resolves'.holdings Endpoint.bare rfl
  have before : (s.spared r).holdings Endpoint.bare = s.holdings Endpoint.bare := by
    unfold Site.holdings
    rw [attending_of_audience (t := s.spared r) (audience_omitting s)]
    rfl
  dsimp only at seen'
  rw [findContainers_spared, List.flatMap_congr importables, before] at seen'
  have ends : ((s.spared r).turnOf { r with endpoint := s.answering r.endpoint }).holdings
      Endpoint.bare = (s.turnOf r).holdings Endpoint.bare := seen'.trans seen.symm
  dsimp only
  refine ⟨runs.poll, ⟨runs.spared, runs.spared.poll⟩,
    Ledger.summaries_of_outline (congrArg Holdings.ledger ends), ?_,
    congrArg Holdings.listeners ends, resolves'.locations.trans resolves.locations.symm⟩
  have store : ((s.spared r).turnOf { r with endpoint := s.answering r.endpoint }).space.store =
      (s.turnOf r).space.store := congrArg Holdings.store ends
  rw [resolves'.space, resolves.space, store]
  rfl

/-- A service behind the gate. -/
def gatedReference : Nat → List String → Reference := classedReference ⟨"home", "gate"⟩

/-- Of three services, one has a remote service and classes. The second was dropped, and the third
has no classes. Besides, there is no answer for sockets. -/
def brokenSite : Site :=
  ((((gateSite.perform (.answer "gate" "Lamp" (.ok
    [gatedReference 2 ["Lamp"], gatedReference 1 ["Lamp"], gatedReference 3 []]))).perform
    (.answer "gate" "Socket" (.error (.connect "gate unreachable")))).perform
    (.dropRemote "gate" 2)).perform
    (.available { gatedEndpoint "a" with interfaces := ["Socket", "Lamp"] }))

def brokenResolution : Resolution where
  id := 0
  endpoint := { gatedEndpoint "a" with interfaces := ["Socket", "Lamp"] }

theorem undelayed_brokenSite : brokenSite.Undelayed brokenResolution where
  ready := List.mem_singleton.2 rfl
  inFlight := rfl
  kept := rfl
  permitted := .inr ⟨rfl, by decide⟩
  calm := rfl
  opened c hc := by
    obtain rfl : c = ⟨⟨"gate", ⟨"home", "gate"⟩, some "home", true⟩, "gate"⟩ :=
      List.mem_singleton.1 hc
    rfl

theorem reachable_brokenSite : Reachable (fun _ => True) brokenSite :=
  .perform (.perform (.perform (.perform (.build build_gateSite) trivial fun _ => rfl) trivial
    fun _ => rfl) trivial fun _ => rfl) trivial fun _ => rfl

theorem turnOf_spared_brokenSite :
    brokenSite.Undelayed brokenResolution ∧
    (brokenSite.answering brokenResolution.endpoint).interfaces = ["Lamp"] ∧
    let t := brokenSite.turnOf brokenResolution
    let t' := (brokenSite.spared brokenResolution).turnOf
      { brokenResolution with endpoint := brokenSite.answering brokenResolution.endpoint }
    t.ledger.snapshot.map Record.summary =
      [(⟨⟨"home", "gate"⟩, "a"⟩, ⟨"home://a"⟩, [(1, ⟨1, ["Lamp"]⟩)])] ∧
    t'.ledger.snapshot.map Record.summary = t.ledger.snapshot.map Record.summary ∧
    t'.space = t.space ∧ t'.attending = t.attending ∧ t'.locations = t.locations := by
  have same : ∀ c ∈ (brokenSite.findContainers brokenResolution.endpoint).1,
      ∀ a ∈ brokenSite.offering brokenResolution.endpoint c,
      ∀ b ∈ brokenSite.offering brokenResolution.endpoint c, a.id = b.id → a = b := by
    intro c hc
    obtain rfl : c = ⟨⟨"gate", ⟨"home", "gate"⟩, some "home", true⟩, "gate"⟩ :=
      List.mem_singleton.1 hc
    change ∀ a ∈ [gatedReference 2 ["Lamp"], gatedReference 1 ["Lamp"], gatedReference 3 []],
      ∀ b ∈ [gatedReference 2 ["Lamp"], gatedReference 1 ["Lamp"], gatedReference 3 []],
      a.id = b.id → a = b
    simp [gatedReference, classedReference]
  obtain ⟨_, _, alike⟩ := turnOf_spared reachable_brokenSite undelayed_brokenSite same
  exact ⟨undelayed_brokenSite, rfl, by decide +kernel, alike⟩

end Site

end ServiceImport

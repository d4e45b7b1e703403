import ServiceImport.Proofs.Site.ImportTable
import ServiceImport.Proofs.Site.Removals

/-! # Removals commute

While nothing happens within a registration, an import gives its subscription to the first record
that it makes, and no record is without one. So the removals that a site can have leave the same in
any order, if the records of a container listen on one adapter and nobody else silences them.
-/

namespace ServiceImport

theorem Ledger.exists_key_of_register {l l' : Ledger} {e : Endpoint} {c : ContainerId}
    {r : Reference} {h : Handle} {x : Option Subscription} {a : Admission}
    (ok : l.register e c r h x = .ok (a, l')) : ∃ q ∈ l'.records, q.key = ⟨c, e.id⟩ := by
  obtain ⟨_, ⟨_, ⟨o, ho, same⟩, rfl⟩ | ⟨_, _, rfl⟩⟩ := register_ok ok
  · refine ⟨_, List.mem_map_of_mem ho, ?_⟩
    rw [if_pos same]
    exact same
  · exact ⟨_, List.mem_append_right _ List.mem_cons_self, rfl⟩

def Event.opened? : Event → Option Candidate
  | .opened c => some c
  | _ => none

namespace Site

variable {s t : Site} {allowed : Command → Prop}

/-! ## Runs without interruptions -/

/-- The sites between the moves of runs in which nothing happens within a registration. -/
inductive Uninterrupted (allowed : Command → Prop) : Site → Prop
  | build {b : Blueprint} {s : Site} : Site.build b = .ok s → Uninterrupted allowed s
  | perform {s : Site} {c : Command} : Uninterrupted allowed s → allowed c →
      (c.usesImporter = true → s.isAlive = true) → Uninterrupted allowed (s.perform c)
  | poll {s : Site} {j : Job} : Uninterrupted allowed s → Uninterrupted allowed (s.poll j)

theorem Uninterrupted.reachable (h : Uninterrupted allowed s) : Reachable allowed s := by
  induction h with
  | build h => exact .build h
  | perform _ ok alive ih => exact .perform ih ok alive
  | poll _ ih => exact .poll ih

/-! ## Every record listens -/

/-- Every record listens where an import went, and an import that has no subscription at hand has
given it to a record. -/
structure Grounded (m : Moment) : Prop where
  records : ∀ q ∈ m.site.ledger.records, ∃ x c, q.subscription = some x ∧
    .opened c ∈ m.site.journal ∧ c.id = q.key.container ∧ c.adapter = x.adapter
  opening : ∀ r c o, m.phase.import? = some (r, c, o) → .opened c ∈ m.site.journal ∧
    ((∃ x, o = some x ∧ x.adapter = c.adapter) ∨
      ∃ q ∈ m.site.ledger.records, q.key = ⟨c.id, r.endpoint.id⟩)

theorem Grounded.record {m : Moment} (g : Grounded m) {o q : Record}
    (ho : o ∈ m.site.ledger.records) (same : o.identity = q.identity) {events : List Event}
    (journal : t.journal = m.site.journal ++ events) : ∃ x c, q.subscription = some x ∧
      .opened c ∈ t.journal ∧ c.id = q.key.container ∧ c.adapter = x.adapter := by
  obtain ⟨x, c, hx, opened, hc, hadapter⟩ := g.records o ho
  rw [Record.subscription_eq same] at hx
  rw [Record.key_eq same] at hc
  exact ⟨x, c, hx, journal ▸ List.mem_append_left _ opened, hc, hadapter⟩

theorem Grounded.rests {m n : Moment} (g : Grounded m) (h : Rests m.site n.site)
    (idle : n.phase.import? = none) : Grounded n where
  records q hq := by
    obtain ⟨o, ho, same, _⟩ := h.records q hq
    obtain ⟨events, journal, _⟩ := h.journal
    exact g.record ho same journal
  opening r c o hphase := by
    rw [idle] at hphase
    cases hphase

theorem Grounded.goes {m n : Moment} (g : Grounded m) (ledger : n.site.ledger = m.site.ledger)
    {events : List Event} (journal : n.site.journal = m.site.journal ++ events)
    (phase : n.phase.import? = m.phase.import?) : Grounded n where
  records q hq := g.record (ledger ▸ hq) rfl journal
  opening r c o hphase := by
    obtain ⟨opened, taken⟩ := g.opening r c o (phase ▸ hphase)
    exact ⟨journal ▸ List.mem_append_left _ opened, by rwa [ledger]⟩

theorem Grounded.log {p : Phase} (g : Grounded ⟨s, p⟩) (e : Event) : Grounded ⟨s.log e, p⟩ :=
  g.goes rfl rfl rfl

theorem Grounded.register {r : Resolution} {c : Candidate} {x : Option Subscription}
    {reference : Reference} {registration : Registration}
    (g : Grounded ⟨s, .registering r c x reference registration⟩) (properties : Properties)
    (h : Handle) (store : ServiceSpace) {i : Importing}
    (result : i = s.recordRegistered r c x reference properties h store) :
    Grounded ⟨i.site, .importing r c i.subscription⟩ := by
  obtain ⟨_, _, events, _, ⟨admission, ok, left, journal, _⟩ | ⟨ledger, left, journal, _⟩⟩ :=
    importing_recordRegistered r c x reference properties h store s result
  · rw [List.append_assoc] at journal
    obtain ⟨opened, taken⟩ := g.opening r c x rfl
    have recorded := Ledger.exists_key_of_register ok
    refine ⟨fun q hq => ?_, ?_⟩
    · rcases Ledger.record_of_mem_register ok hq with ⟨rfl, made⟩ | ⟨o, ho, same⟩
      · obtain ⟨hkey, _, hx⟩ := RecordIdentity.mk.inj made
        -- No record of the key is there yet, so that the subscription is at hand.
        obtain ⟨y, rfl, hadapter⟩ := taken.resolve_right fun ⟨o, ho, same⟩ =>
          Ledger.key_ne_of_created ok ho same
        exact ⟨y, c, hx, journal ▸ List.mem_append_left _ opened, by rw [hkey], hadapter.symm⟩
      · exact g.record ho same journal
    · intro r' c' o hphase
      obtain ⟨rfl, rfl, _⟩ : r = r' ∧ c = c' ∧ i.subscription = o := by
        simpa [Phase.import?] using hphase
      exact ⟨journal ▸ List.mem_append_left _ opened, .inr recorded⟩
  · rw [left]
    exact g.goes ledger journal rfl

/-- No import is under way, and nobody else writes the ledger. -/
theorem Grounded.stride (inside : ∀ c, allowed c → c.writesLedger = false) {m n : Moment}
    (stride : Stride allowed m n) (idle : m.phase.isImporting = false) (g : Grounded m) :
    Grounded n := by
  have none := Phase.import?_eq_none idle
  rcases stride.advance_or with advance | ⟨c, ok, bypasses, meddles, rfl⟩
  · cases advance with
    | rests rests _ phase => exact g.rests rests (phase.elim (·.trans none) id)
    | opens r c y rests _ hy phase =>
      obtain ⟨events, journal, _⟩ := rests.journal
      rw [Site.log, List.append_assoc] at journal
      refine ⟨fun q hq => ?_, fun r' c' o hphase => ?_⟩
      · obtain ⟨o, ho, same, _⟩ := rests.records q hq
        exact g.record ho same journal
      · obtain ⟨rfl, rfl, rfl⟩ : r = r' ∧ c = c' ∧ some y = o := by
          simpa using phase.symm.trans hphase
        exact ⟨journal ▸ by simp, .inl ⟨y, rfl, hy⟩⟩
    | makes c reference rests _ phase =>
      exact (g.log (.proxied c reference)).rests rests (phase.trans none)
    | registers r c x _ _ _ _ _ before =>
      rw [none] at before
      cases before
  · have journal : (m.site.perform c).journal = m.site.journal ++ [] :=
      (journal_meddle meddles _).trans (List.append_nil _).symm
    refine ⟨fun q hq => ?_, fun r d o hphase => ?_⟩
    · rcases record_of_bypass bypasses hq with ⟨reference, h, rfl⟩ | ⟨o, ho, same⟩
      · cases inside _ ok
      · exact g.record ho same journal
    · rw [none] at hphase
      cases hphase

theorem Change.grounded {m n : Moment} (change : Change (fun _ => False) m n)
    (h : Coherent (fun _ => False) m) (g : Grounded m) : Grounded n := by
  cases idle : m.phase.isImporting with
  | false => exact g.stride (fun _ => False.elim) (change.stride h) idle
  | true =>
    cases change with
    | perform ok _ => exact ok.elim
    | report report => exact g.log _
    | prepare _ _ => exact g.goes rfl rfl rfl
    | refuse _ => exact g.goes rfl rfl rfl
    | fault _ _ => exact g.goes rfl (List.append_nil _).symm rfl
    | register _ _ => exact g.register _ _ _ rfl
    | unsubscribe =>
      refine g.rests (.of_eq ?_ ?_) rfl
      all_goals
        dsimp only
        rw [cancel_eq]
    | _ => cases idle

theorem Uninterrupted.grounded (h : Uninterrupted allowed s)
    (inside : ∀ c, allowed c → c.writesLedger = false) :
    Coherent (fun _ => False) ⟨s, .idle⟩ ∧ Grounded ⟨s, .idle⟩ := by
  induction h with
  | @build b s built =>
    have ledger : s.ledger = {} := by rw [(build_eq built).1]
    refine ⟨coherent_build built, fun q hq => ?_, fun _ _ _ hphase => ?_⟩
    · dsimp only at hq
      rw [ledger] at hq
      cases hq
    · cases hphase
  | @perform s c run ok alive ih =>
    have change : Change allowed ⟨s, .idle⟩ ⟨s.perform c, .idle⟩ :=
      .perform ok fun uses => .inl (alive uses)
    have done := performed s c
    exact ⟨ih.1.continues done.continues rfl (fun _ hi => hi) done.fixed.interruptions,
      ih.2.stride inside (change.stride (run.reachable.invariant (I := fun _ => True)
        (fun _ => trivial) fun _ _ _ => trivial).1) rfl⟩
  | @poll s j _ ih =>
    have changes := step_poll j s ih.1
    generalize (⟨s.poll j, .idle⟩ : Moment) = n at changes ⊢
    induction changes with
    | refl => exact ih
    | tail _ change ih => exact ⟨change.coherent ih.1, change.grounded ih.1 ih.2⟩

/-! ## The order of removals -/

/-- The candidates that references were imported through. -/
def openings (s : Site) : List Candidate := s.journal.filterMap Event.opened?

theorem mem_openings {c : Candidate} (h : .opened c ∈ s.journal) : c ∈ s.openings :=
  List.mem_filterMap.2 ⟨_, h, rfl⟩

theorem Uninterrupted.orderly (h : Uninterrupted allowed s)
    (inside : ∀ c, allowed c → c.writesLedger = false)
    (own : ∀ q ∈ s.ledger.records, ∀ x, q.subscription = some x → ¬ allowed (.unsubscribe x))
    (single : ∀ c ∈ s.openings, ∀ c' ∈ s.openings, c.id = c'.id → c.adapter = c'.adapter) :
    Orderly s := by
  have foreign : ∀ x e d r a, ¬ allowed (.record e d r a (some x)) := by
    intro x e d r a ok
    cases inside _ ok
  have grounded := (h.grounded inside).2
  have tended := fun x => h.reachable.tended (foreign x)
  have listens : ∀ r ∈ s.ledger.records, ∃ x, r.subscription = some x ∧
      s.listens x (.importer r.key.container) := by
    intro r hr
    obtain ⟨x, c, hx, _⟩ := grounded.records r hr
    exact ⟨x, hx, (tended x).heard (own r hr x hx)
      (List.mem_filterMap.2 ⟨r, hr, Record.owned?_eq_some_iff.2 ⟨hx, rfl⟩⟩)⟩
  refine ⟨fun r hr => ?_, listens, ?_, ?_, ?_⟩
  · have tracked := h.reachable.tracked (n := 0) fun e c r a x ok => by cases inside _ ok
    exact tracked.wellFormed.mapped r hr
  · intro x c heard
    obtain ⟨r, hr, howned⟩ := List.mem_filterMap.1 ((tended x).owned heard)
    exact ⟨r, hr, Record.owned?_eq_some_iff.1 howned⟩
  · intro q hq r hr same
    obtain ⟨x, hx, heard⟩ := listens r hr
    obtain ⟨o, owners, _⟩ := (tended x).owner heard
    have only : ∀ p ∈ s.ledger.records, p.subscription = some x → p = o := by
      intro p hp hpx
      have there : p ∈ s.ledger.records.filter (·.subscription == some x) :=
        List.mem_filter.2 ⟨hp, by rw [hpx]; exact beq_self_eq_true _⟩
      rw [owners] at there
      exact List.mem_singleton.1 there
    rw [only q hq (same.trans hx), only r hr hx]
  · intro q hq r hr same x y hx hy
    obtain ⟨x', c, hx', opened, hc, hadapter⟩ := grounded.records q hq
    obtain ⟨y', c', hy', opened', hc', hadapter'⟩ := grounded.records r hr
    obtain rfl := Option.some.inj (hx.symm.trans hx')
    obtain rfl := Option.some.inj (hy.symm.trans hy')
    rw [← hadapter, ← hadapter']
    exact single c (mem_openings opened) c' (mem_openings opened') (hc.trans (same.trans hc'.symm))

/-- Services are withdrawn and endpoints leave, in any order: the site is the same afterwards but
for its journal. For this nothing may happen within a registration, nobody else may write the
ledger or silence a record, and imports through one container must go through one adapter. -/
theorem removals_commute (h : Uninterrupted allowed s)
    (inside : ∀ c, allowed c → c.writesLedger = false)
    (own : ∀ q ∈ s.ledger.records, ∀ x, q.subscription = some x → ¬ allowed (.unsubscribe x))
    (single : ∀ c ∈ s.openings, ∀ c' ∈ s.openings, c.id = c'.id → c.adapter = c'.adapter)
    {removals removals' : List Command} (perm : removals.Perm removals')
    (removes : ∀ c ∈ removals, s.Removes c) :
    (s.performAll removals).bare = (s.performAll removals').bare := by
  have orderly := h.orderly inside own single
  rw [performAll_eq_losing orderly removes,
    performAll_eq_losing orderly fun c hc => removes c (perm.mem_iff.2 hc), Taking.ofAll_perm perm]

theorem uninterrupted_lampAndDoor {allowed : Command → Prop}
    (routine : ∀ c, c.isRoutine = true → allowed c) : Uninterrupted allowed lampAndDoor := by
  have lit : Uninterrupted allowed litSite :=
    .perform (.build build_lampSite) (routine _ rfl) nofun
  exact .poll (.poll (.perform (.perform lit (routine _ rfl) fun _ => rfl) (routine _ rfl)
    fun _ => rfl))

theorem openings_lampAndDoor :
    lampAndDoor.openings = [⟨lampContainer, "lamps"⟩, ⟨lampContainer, "lamps"⟩] := rfl

theorem removes_lampAndDoor :
    ∀ c ∈ [.withdrawService "lamps" 1, .unavailable doorEndpoint], lampAndDoor.Removes c := by
  have located : lampAndDoor.ledger.records.map (fun r => (r.key.endpointId, r.endpoint.location)) =
      [("lamp", ⟨"home://lamp"⟩), ("door", ⟨"home://door"⟩)] := rfl
  intro c hc
  rcases List.mem_cons.1 hc with rfl | hc
  · exact ⟨_, _, rfl, rfl, rfl⟩
  · obtain rfl := List.mem_singleton.1 hc
    intro r hr hid
    have there := List.mem_map_of_mem (f := fun r => (r.key.endpointId, r.endpoint.location)) hr
    rw [located, hid] at there
    simpa [doorEndpoint, lampEndpoint] using there

/-- The lamp and the door share their service, and nothing is left of them in either order. -/
theorem removals_commute_lampAndDoor :
    lampAndDoor.ledger.size = 2 ∧
    (lampAndDoor.performAll
      [.withdrawService "lamps" 1, .unavailable doorEndpoint]).ledger.size = 0 ∧
    (lampAndDoor.performAll [.withdrawService "lamps" 1, .unavailable doorEndpoint]).bare =
      (lampAndDoor.performAll [.unavailable doorEndpoint, .withdrawService "lamps" 1]).bare := by
  refine ⟨rfl, rfl, removals_commute (uninterrupted_lampAndDoor fun _ => id) ?_ ?_ ?_
    (List.Perm.swap _ _ _) removes_lampAndDoor⟩
  · intro c routine
    cases c <;> first | rfl | cases routine
  · intro q _ x _ routine
    cases routine
  · rw [openings_lampAndDoor]
    simp

/-- The lamp and the door, after someone else took the listener of the lamp from the adapter. -/
def lampDeafened : Site := lampAndDoor.perform (.unsubscribe ⟨"lamps", 1⟩)

theorem uninterrupted_lampDeafened :
    Uninterrupted (fun c => c.isRoutine = true ∨ ∃ x, c = .unsubscribe x) lampDeafened :=
  .perform (uninterrupted_lampAndDoor fun _ => .inl) (.inr ⟨_, rfl⟩) nofun

/-- The order matters where others can silence a record: the proxy of the lamp goes when the door
hears of the removal, and stays when the door has left before. -/
theorem not_removals_commute :
    ¬ ∀ (allowed : Command → Prop) (s : Site), Uninterrupted allowed s →
      (∀ c, allowed c → c.writesLedger = false) →
      (∀ c ∈ s.openings, ∀ c' ∈ s.openings, c.id = c'.id → c.adapter = c'.adapter) →
      ∀ removals removals' : List Command, removals.Perm removals' →
        (∀ c ∈ removals, s.Removes c) →
        (s.performAll removals).ledger.records = (s.performAll removals').ledger.records := by
  intro claim
  have single : ∀ c ∈ lampDeafened.openings, ∀ c' ∈ lampDeafened.openings, c.id = c'.id →
      c.adapter = c'.adapter := by
    rw [show lampDeafened.openings = _ from openings_lampAndDoor]
    simp
  have removes : ∀ c ∈ [.withdrawService "lamps" 1, .unavailable doorEndpoint],
      lampDeafened.Removes c := by
    intro c hc
    have before := removes_lampAndDoor c hc
    rcases List.mem_cons.1 hc with rfl | hc
    · exact ⟨_, _, rfl, rfl, rfl⟩
    · obtain rfl := List.mem_singleton.1 hc
      exact before
  have same := claim _ _ uninterrupted_lampDeafened (by
    rintro c (routine | ⟨x, rfl⟩)
    · cases c <;> first | rfl | cases routine
    · rfl) single _ _ (List.Perm.swap _ _ _) removes
  exact absurd (congrArg List.length same) (by decide)

end Site

end ServiceImport

import Mathlib.Data.List.Induction
import ServiceImport.Proofs.Site.Listeners
import ServiceImport.Proofs.Site.Takings

/-! # Removals in any order

Endpoints leave and services are withdrawn. While every record listens on the one adapter of its
container, each of these takes away what can be told beforehand, whatever was removed earlier. So
all orders of the same removals leave the same.
-/

namespace ServiceImport

/-- Whether a command goes past the importer to the ledger. -/
def Command.writesLedger : Command → Bool
  | .record .. | .unrecordEndpoint _ | .unrecordReference .. => true
  | _ => false

/-- What the importer takes away when it hears of the removal of a reference in so many ways. -/
def Taking.ofListeners (alive : Bool) (listeners : List Listener) (reference : Nat) : Taking where
  mapping r n := alive && listeners.contains (.importer r.key.container) && n == reference

theorem Taking.ofListeners_of_none {alive : Bool} {listeners : List Listener}
    (none : ∀ c, (alive && listeners.contains (.importer c)) = false) (reference : Nat) :
    ofListeners alive listeners reference = {} := by
  unfold ofListeners
  congr 1
  funext r n
  rw [none, Bool.false_and]

theorem Taking.ofListeners_importer (c : ContainerId) (reference : Nat) :
    ofListeners true [.importer c] reference = ofReference c reference := by
  unfold ofListeners ofReference
  congr 1
  funext r n
  rw [Bool.true_and, List.contains_eq_any_beq, List.any_cons, List.any_nil, Bool.or_false]
  congr 1
  rw [Bool.eq_iff_iff]
  simp

theorem Taking.ofListeners_append (alive : Bool) (l l' : List Listener) (reference : Nat) :
    ofListeners alive (l ++ l') reference =
      (ofListeners alive l reference).join (ofListeners alive l' reference) := by
  unfold ofListeners join
  dsimp only
  congr 1
  funext r n
  rw [← Bool.and_or_distrib_right, ← Bool.and_or_distrib_left, List.contains_eq_any_beq,
    List.any_append, ← List.contains_eq_any_beq, ← List.contains_eq_any_beq]

theorem Taking.ofListeners_perm {l l' : List Listener} (perm : l.Perm l') (alive : Bool)
    (reference : Nat) : ofListeners alive l reference = ofListeners alive l' reference := by
  unfold ofListeners
  simp only [perm.contains_eq]

/-- A service is withdrawn from an adapter, and the importer, if it is there, hears of it. -/
def Taking.ofService (alive : Bool) (key : String) (reference : Nat) : Taking where
  mapping r n := alive && r.subscription.any (·.adapter == key) && n == reference
  service k n := k == key && n == reference

/-- What a removal takes away. -/
def Command.taking (alive : Bool) : Command → Taking
  | .withdrawService key reference => .ofService alive key reference
  | .unavailable e => .ofEndpoint e
  | _ => {}

/-- What any of some removals takes away. -/
def Taking.ofAll (alive : Bool) (removals : List Command) : Taking where
  mapping r n := removals.any fun c => (c.taking alive).mapping r n
  service key n := removals.any fun c => (c.taking alive).service key n
  location l := removals.any fun c => (c.taking alive).location l

theorem Taking.ofAll_concat (alive : Bool) (removals : List Command) (c : Command) :
    ofAll alive (removals ++ [c]) = (ofAll alive removals).join (c.taking alive) := by
  unfold ofAll join
  simp only [List.any_append, List.any_cons, List.any_nil, Bool.or_false]

theorem Taking.ofAll_perm {alive : Bool} {removals removals' : List Command}
    (perm : removals.Perm removals') : ofAll alive removals = ofAll alive removals' := by
  unfold ofAll
  simp only [perm.any_eq]

theorem Taking.ofAll_concat_of_mem {alive : Bool} {removals : List Command} {c : Command}
    (h : c ∈ removals) : ofAll alive (removals ++ [c]) = ofAll alive removals := by
  have absorbed : ∀ p : Command → Bool, (removals ++ [c]).any p = removals.any p := by
    intro p
    rw [List.any_append, List.any_cons, List.any_nil, Bool.or_false, Bool.or_eq_left_iff_imp]
    exact fun hc => List.any_eq_true.2 ⟨c, h, hc⟩
  unfold ofAll
  simp only [absorbed]

namespace Site

variable {s t : Site} {allowed : Command → Prop}

/-! ## What is heard -/

theorem hear_eq_losing (mapped : ∀ r ∈ s.ledger.records, r.mappings ≠ []) (removal : Removal)
    (l : Listener) : (s.hear removal l).bare =
      s.bare.losing (.ofListeners s.isAlive [l] removal.reference.id) := by
  have nothing : s.bare.losing {} = s.bare := losing_nothing (s := s.bare) mapped
  cases l with
  | recorder label =>
    rw [Taking.ofListeners_of_none (fun c => by simp), nothing]
    rfl
  | importer c =>
    unfold hear
    dsimp only
    split
    · next alive => rw [removeReference_eq_losing mapped, alive, Taking.ofListeners_importer]
    · next dead =>
      rw [Taking.ofListeners_of_none fun c => by rw [eq_false_of_ne_true dead, Bool.false_and],
        nothing]

theorem mapped_hear (mapped : ∀ r ∈ s.ledger.records, r.mappings ≠ []) (removal : Removal)
    (l : Listener) : ∀ r ∈ (s.hear removal l).ledger.records, r.mappings ≠ [] := by
  show ∀ r ∈ (s.hear removal l).bare.ledger.records, r.mappings ≠ []
  rw [hear_eq_losing mapped]
  exact mapped_losing _ _

theorem deliver_eq_losing (mapped : ∀ r ∈ s.ledger.records, r.mappings ≠ [])
    (listeners : List Listener) (removal : Removal) :
    (s.deliver listeners removal).bare =
      s.bare.losing (.ofListeners s.isAlive listeners removal.reference.id) := by
  induction listeners generalizing s with
  | nil =>
    rw [Taking.ofListeners_of_none fun c => by simp]
    exact (losing_nothing (s := s.bare) mapped).symm
  | cons l listeners ih =>
    show ((s.hear removal l).deliver listeners removal).bare = _
    rw [ih (mapped_hear mapped removal l), hear_eq_losing mapped, losing_losing,
      (leavesJobs_hear removal s l).isAlive, ← Taking.ofListeners_append]
    rfl

/-! ## Every record listens -/

/-- Whether a memory adapter has a service. -/
def publishes (s : Site) (key : String) (reference : Nat) : Prop :=
  ∃ a p, s.adapter? key = some a ∧ a.backend = .memory p ∧ (p.find? reference).isSome = true

/-- Every record listens with a subscription of its own, and the records of one container on one
adapter. Nobody else listens for the importer. -/
structure Orderly (s : Site) : Prop where
  mapped : ∀ r ∈ s.ledger.records, r.mappings ≠ []
  listens : ∀ r ∈ s.ledger.records, ∃ x, r.subscription = some x ∧
    s.listens x (.importer r.key.container)
  owned : ∀ x c, s.listens x (.importer c) →
    ∃ r ∈ s.ledger.records, r.subscription = some x ∧ r.key.container = c
  distinct : ∀ q ∈ s.ledger.records, ∀ r ∈ s.ledger.records,
    q.subscription = r.subscription → q = r
  single : ∀ q ∈ s.ledger.records, ∀ r ∈ s.ledger.records, q.key.container = r.key.container →
    ∀ x y, q.subscription = some x → r.subscription = some y → x.adapter = y.adapter

theorem Orderly.of_bare (h : Orderly s.bare) : Orderly s :=
  ⟨h.mapped, h.listens, h.owned, h.distinct, h.single⟩

theorem Orderly.bare (h : Orderly s) : Orderly s.bare :=
  ⟨h.mapped, h.listens, h.owned, h.distinct, h.single⟩

theorem listens_losing {d : Taking} {x : Subscription} {l : Listener} :
    (s.losing d).listens x l ↔
      s.listens x l ∧ s.ledger.empties d (·.subscription == some x) = false := by
  unfold Site.listens audience
  rw [adapter?_losing]
  cases s.adapter? x.adapter with
  | none => simp
  | some a =>
    simp only [Option.map_some, Option.some.injEq, exists_eq_left', Adapter.listeners_losing,
      List.mem_filter, Bool.not_eq_true']

theorem mem_losing {d : Taking} {q : Record} (hq : q ∈ (s.losing d).ledger.records) :
    ∃ r ∈ s.ledger.records, d.empties r = false ∧ q = r.losing d := by
  obtain ⟨r, hr, rfl⟩ := List.mem_map.1 hq
  obtain ⟨hr, stays⟩ := List.mem_filter.1 hr
  exact ⟨r, hr, by simpa using stays, rfl⟩

/-- Whatever is taken away, the records that are left listen as before. -/
theorem Orderly.losing (h : Orderly s) (d : Taking) : Orderly (s.losing d) where
  mapped := mapped_losing d s
  listens q hq := by
    obtain ⟨r, hr, stays, rfl⟩ := mem_losing hq
    obtain ⟨x, hx, heard⟩ := h.listens r hr
    refine ⟨x, hx, listens_losing.2 ⟨heard, List.any_eq_false.2 fun o ho gone => ?_⟩⟩
    obtain ⟨gone, same⟩ := Bool.and_eq_true_iff.1 gone
    rw [h.distinct o ho r hr ((beq_iff_eq.1 same).trans hx.symm), stays] at gone
    cases gone
  owned x c heard := by
    obtain ⟨heard, stays⟩ := listens_losing.1 heard
    obtain ⟨r, hr, hx, hc⟩ := h.owned x c heard
    refine ⟨r.losing d, List.mem_map_of_mem (List.mem_filter.2 ⟨hr, ?_⟩), hx, hc⟩
    have := List.any_eq_false.1 stays r hr
    simpa [hx] using this
  distinct q hq r hr same := by
    obtain ⟨q', hq', _, rfl⟩ := mem_losing hq
    obtain ⟨r', hr', _, rfl⟩ := mem_losing hr
    rw [h.distinct q' hq' r' hr' same]
  single q hq r hr same x y hx hy := by
    obtain ⟨q', hq', _, rfl⟩ := mem_losing hq
    obtain ⟨r', hr', _, rfl⟩ := mem_losing hr
    exact h.single q' hq' r' hr' same x y hx hy

theorem Orderly.contains_importer (h : Orderly s) {key : String} {a : Adapter}
    (there : s.adapter? key = some a) {r : Record} (hr : r ∈ s.ledger.records) :
    (a.listeners.map (·.2)).contains (.importer r.key.container) =
      r.subscription.any (·.adapter == key) := by
  obtain ⟨x, hx, b, hb, heard⟩ := h.listens r hr
  rw [Bool.eq_iff_iff, List.contains_iff_mem, hx, Option.any_some, beq_iff_eq]
  constructor
  · intro hmem
    obtain ⟨⟨n, l⟩, hl, rfl⟩ := List.mem_map.1 hmem
    have listens : s.listens ⟨key, n⟩ (.importer r.key.container) := by
      refine ⟨(a.listeners, a.subscribed), ?_, hl⟩
      unfold audience
      rw [there]
      rfl
    obtain ⟨q, hq, hy, hc⟩ := h.owned _ _ listens
    exact h.single r hr q hq hc.symm x _ hx hy
  · rintro rfl
    unfold audience at hb
    rw [there] at hb
    obtain rfl := Option.some.inj hb
    exact List.mem_map_of_mem (f := (·.2)) heard

/-! ## Removals -/

theorem withdrawService_eq_deliver {key : String} {reference : Nat} {a : Adapter}
    {p : PublishedServices} {r : Reference} (there : s.adapter? key = some a)
    (memory : a.backend = .memory p) (published : p.find? reference = some r) :
    s.perform (.withdrawService key reference) =
      (s.withdrawn key reference).deliver (a.listeners.map (·.2))
        { seenBy := a.owner, reference := r } := by
  obtain ⟨owner, backend, listeners, subscribed, lookups⟩ := a
  obtain rfl : backend = .memory p := memory
  show (s.withdrawService key reference).2 = _
  unfold withdrawService
  rw [there]
  dsimp only
  rw [published]
  rfl

theorem bare_withdrawn (mapped : ∀ r ∈ s.ledger.records, r.mappings ≠ []) (key : String)
    (reference : Nat) : (s.withdrawn key reference).bare =
      s.bare.losing { service := fun k n => k == key && n == reference } := by
  have same : (fun a : Adapter => a.withPublished (·.withdraw reference)) =
      (·.losing (fun _ => false) (· == reference)) := by
    funext a
    exact a.withdraw_eq_losing reference
  unfold Site.withdrawn
  rw [same, updateAdapter_losing, losing_services (s := s.bare) mapped]
  simp only [Bool.and_false]
  rfl

theorem withdrawService_eq_losing (h : Orderly s) {key : String} {reference : Nat}
    (there : s.publishes key reference) :
    (s.perform (.withdrawService key reference)).bare =
      s.bare.losing (.ofService s.isAlive key reference) := by
  obtain ⟨a, p, ha, hp, found⟩ := there
  obtain ⟨r, hr⟩ := Option.isSome_iff_exists.1 found
  have delivered := deliver_eq_losing (s := s.withdrawn key reference) h.mapped
    (a.listeners.map (·.2)) { seenBy := a.owner, reference := r }
  rw [withdrawService_eq_deliver ha hp hr, delivered, bare_withdrawn h.mapped, losing_losing,
    PublishedServices.id_of_find? hr]
  refine losing_congr (fun q hq n => ?_) ?_ rfl
  · unfold Taking.join Taking.ofListeners Taking.ofService
    dsimp only [Record.identity]
    rw [h.contains_importer ha hq, Bool.false_or]
    rfl
  · funext k n
    exact Bool.or_false _

/-- What may be removed: a service that a memory adapter has, and an endpoint whose description
carries the location of its records. -/
def Removes (s : Site) : Command → Prop
  | .withdrawService key reference => s.publishes key reference
  | .unavailable e => ∀ r ∈ s.ledger.records, r.key.endpointId = e.id →
      r.endpoint.location = e.location
  | _ => False

theorem publishes_losing {d : Taking} {key : String} {reference : Nat}
    (h : s.publishes key reference) :
    (s.losing d).publishes key reference ∨ d.service key reference = true := by
  obtain ⟨a, p, ha, hp, found⟩ := h
  cases gone : d.service key reference with
  | true => exact .inr rfl
  | false =>
    have there := adapter?_losing d s key
    rw [ha, Option.map_some] at there
    refine .inl ⟨_, { p with services := p.services.filter (!d.service key ·.id) }, there, ?_, ?_⟩
    · unfold Adapter.losing Adapter.withPublished
      dsimp only
      rw [hp]
    · unfold PublishedServices.find? at found ⊢
      rw [List.find?_isSome] at found ⊢
      obtain ⟨r, hr, hid⟩ := found
      refine ⟨r, List.mem_filter.2 ⟨hr, ?_⟩, hid⟩
      rw [beq_iff_eq.1 hid, gone]
      rfl

theorem withdrawService_of_not_publishes {key : String} {reference : Nat}
    (h : ¬ s.publishes key reference) : s.perform (.withdrawService key reference) = s := by
  show (s.withdrawService key reference).2 = s
  unfold withdrawService
  split
  · next there =>
    split
    · rfl
    · next found => exact absurd ⟨_, _, there, rfl, Option.isSome_iff_exists.2 ⟨_, found⟩⟩ h
  · rfl

/-- Removals take away what each of them takes, in whatever order they come. -/
theorem performAll_eq_losing (h : Orderly s) {removals : List Command}
    (removes : ∀ c ∈ removals, s.Removes c) :
    (s.performAll removals).bare = s.bare.losing (.ofAll s.isAlive removals) := by
  induction removals using List.reverseRecOn with
  | nil => exact (losing_nothing (s := s.bare) h.mapped).symm
  | append_singleton done c ih =>
    have before := ih fun d hd => removes d (List.mem_append_left _ hd)
    have removable := removes c (List.mem_append_right _ List.mem_cons_self)
    have last : s.performAll (done ++ [c]) = (s.performAll done).perform c := List.foldl_concat ..
    rw [last]
    generalize s.performAll done = t at before
    have orderly : Orderly t := (before ▸ h.bare.losing _ : Orderly t.bare).of_bare
    have alive : t.isAlive = s.isAlive := by
      have same := congrArg Site.isAlive before
      exact same
    cases c with
    | unavailable e =>
      have located : ∀ r ∈ t.ledger.records, r.key.endpointId = e.id →
          r.endpoint.location = e.location := by
        intro q hq hid
        have hq : q ∈ t.bare.ledger.records := hq
        rw [before] at hq
        obtain ⟨r, hr, _, rfl⟩ := mem_losing hq
        exact removable r hr hid
      have taken : (t.perform (.unavailable e)).bare = t.bare.losing (.ofEndpoint e) :=
        unavailable_eq_losing orderly.mapped located
      rw [taken, before, losing_losing, Taking.ofAll_concat]
      rfl
    | withdrawService key reference =>
      by_cases there : t.publishes key reference
      · rw [withdrawService_eq_losing orderly there, before, losing_losing, alive,
          Taking.ofAll_concat]
        rfl
      · -- The service was withdrawn before, and is withdrawn once.
        have gone : (Taking.ofAll s.isAlive done).service key reference = true := by
          refine (publishes_losing (s := s.bare) removable).resolve_left fun stays => there ?_
          rw [← before] at stays
          exact stays
        obtain ⟨d, hd, taken⟩ := List.any_eq_true.1 gone
        have again : .withdrawService key reference ∈ done := by
          cases d with
          | withdrawService key' reference' =>
            obtain ⟨hkey, href⟩ := Bool.and_eq_true_iff.1 taken
            rw [beq_iff_eq.1 hkey, beq_iff_eq.1 href]
            exact hd
          | _ => cases taken
        rw [withdrawService_of_not_publishes there, before, Taking.ofAll_concat_of_mem again]
    | _ => cases removable

end Site

end ServiceImport

import ServiceImport.Proofs.Site.Frames
import ServiceImport.Proofs.Ledger.Handles

/-! # What removals take away

A removal takes mappings from records, and with a record's last mapping the record and its listener.
Proxies and imports go with their mappings, services are withdrawn and locations become free. What
one removal takes after another is what both take, so that their order does not matter.
-/

namespace ServiceImport

/-- What removals take away: mappings by their record and reference, services by their adapter, and
locations beside those of emptied records. -/
structure Taking where
  mapping : RecordIdentity → Nat → Bool := fun _ _ => false
  service : String → Nat → Bool := fun _ _ => false
  location : Location → Bool := fun _ => false

namespace Taking

/-- What either takes away. -/
def join (d d' : Taking) : Taking where
  mapping r n := d.mapping r n || d'.mapping r n
  service key n := d.service key n || d'.service key n
  location l := d.location l || d'.location l

/-- Whether a record loses all its mappings. -/
def empties (d : Taking) (r : Record) : Bool := r.mappings.all fun m => d.mapping r.identity m.1.id

/-- The reference of a container is removed. -/
def ofReference (c : ContainerId) (reference : Nat) : Taking where
  mapping r n := r.key.container == c && n == reference

/-- An endpoint leaves. -/
def ofEndpoint (e : Endpoint) : Taking where
  mapping r _ := r.key.endpointId == e.id
  location l := e.location == l

end Taking

variable {d d' : Taking}

theorem filter_neither {α : Type} (p q : α → Bool) (l : List α) :
    (l.filter fun x => !p x).filter (fun x => !q x) = l.filter fun x => !(p x || q x) := by
  rw [List.filter_filter]
  exact List.filter_congr fun x _ => by rw [Bool.not_or, Bool.and_comm]

/-! ## Records and ledgers -/

def Record.losing (d : Taking) (r : Record) : Record :=
  { r with mappings := r.mappings.filter fun m => !d.mapping r.identity m.1.id }

theorem Record.losing_losing (r : Record) : (r.losing d).losing d' = r.losing (d.join d') := by
  unfold losing
  dsimp only
  rw [filter_neither]
  rfl

theorem Taking.empties_losing (r : Record) : d'.empties (r.losing d) = (d.join d').empties r := by
  unfold empties Record.losing join
  dsimp only
  rw [List.all_filter]
  congr 1
  funext m
  cases d.mapping r.identity m.1.id <;> rfl

theorem Taking.empties_join {r : Record} (h : d.empties r = true) :
    (d.join d').empties r = true := by
  unfold empties at *
  rw [List.all_eq_true] at h ⊢
  intro m hm
  show (d.mapping r.identity m.1.id || d'.mapping r.identity m.1.id) = true
  rw [h m hm, Bool.true_or]

namespace Ledger

def losing (d : Taking) (l : Ledger) : Ledger where
  records := (l.records.filter (!d.empties ·)).map (·.losing d)

/-- Whether a record with a property is emptied. -/
def empties (d : Taking) (l : Ledger) (p : Record → Bool) : Bool :=
  l.records.any fun r => d.empties r && p r

/-- Whether the handle of a mapping that goes has an id. -/
def tears (d : Taking) (l : Ledger) (id : Nat) : Bool :=
  l.records.any fun r => r.mappings.any fun m => d.mapping r.identity m.1.id && m.2.id == id

theorem losing_losing (l : Ledger) : (l.losing d).losing d' = l.losing (d.join d') := by
  unfold losing
  dsimp only
  rw [List.filter_map, List.map_map, List.filter_filter]
  have kept : ∀ r : Record, (!d'.empties (r.losing d) && !d.empties r) =
      !(d.join d').empties r := by
    intro r
    rw [Taking.empties_losing]
    cases hd : d.empties r with
    | false => rw [Bool.not_false, Bool.and_true]
    | true =>
      rw [Taking.empties_join hd]
      rfl
  refine congrArg Ledger.mk (Eq.trans (congrArg _ (List.filter_congr fun r _ => kept r)) ?_)
  exact List.map_congr_left fun r _ => r.losing_losing

/-- A record is emptied by the first of two removals, or the second empties what the first left. -/
theorem empties_join (l : Ledger) {p : Record → Bool} (identity : ∀ r, p (r.losing d) = p r) :
    l.empties (d.join d') p = (l.empties d p || (l.losing d).empties d' p) := by
  unfold empties losing
  rw [Bool.eq_iff_iff, Bool.or_eq_true, List.any_map, List.any_filter]
  simp only [List.any_eq_true, Function.comp, Taking.empties_losing, identity, Bool.and_eq_true,
    Bool.not_eq_true']
  constructor
  · rintro ⟨r, hr, gone, hp⟩
    cases hd : d.empties r with
    | true => exact .inl ⟨r, hr, hd, hp⟩
    | false => exact .inr ⟨r, hr, hd, gone, hp⟩
  · rintro (⟨r, hr, gone, hp⟩ | ⟨r, hr, _, gone, hp⟩)
    · exact ⟨r, hr, Taking.empties_join gone, hp⟩
    · exact ⟨r, hr, gone, hp⟩

theorem tears_join (l : Ledger) (id : Nat) :
    l.tears (d.join d') id = (l.tears d id || (l.losing d).tears d' id) := by
  unfold tears losing
  rw [Bool.eq_iff_iff, Bool.or_eq_true, List.any_map, List.any_filter]
  simp only [List.any_eq_true, Function.comp, Bool.and_eq_true, Bool.not_eq_true', Taking.join,
    Bool.or_eq_true]
  constructor
  · rintro ⟨r, hr, m, hm, goes, hid⟩
    cases hd : d.mapping r.identity m.1.id with
    | true => exact .inl ⟨r, hr, m, hm, hd, hid⟩
    | false =>
      refine .inr ⟨r, hr, ?_, m, List.mem_filter.2 ⟨hm, by rw [hd]; rfl⟩, ?_, hid⟩
      · refine eq_false_of_ne_true fun gone => ?_
        have := List.all_eq_true.1 gone m hm
        rw [hd] at this
        cases this
      · exact goes.resolve_left (by rw [hd]; simp)
  · rintro (⟨r, hr, m, hm, goes, hid⟩ | ⟨r, hr, _, m, hm, goes, hid⟩)
    · exact ⟨r, hr, m, hm, .inl goes, hid⟩
    · exact ⟨r, hr, m, (List.mem_filter.1 hm).1, .inr goes, hid⟩

end Ledger

/-! ## Adapters and the service space -/

/-- An adapter without some of its listeners and services. -/
def Adapter.losing (listener service : Nat → Bool) (a : Adapter) : Adapter :=
  withPublished { a with listeners := a.listeners.filter (!listener ·.1) } fun p =>
    { p with services := p.services.filter (!service ·.id) }

theorem Adapter.losing_losing (a : Adapter) (l s l' s' : Nat → Bool) :
    (a.losing l s).losing l' s' = a.losing (fun n => l n || l' n) fun n => s n || s' n := by
  obtain ⟨owner, backend, listeners, subscribed, lookups⟩ := a
  cases backend with
  | memory p =>
    unfold losing withPublished
    dsimp only
    rw [filter_neither, filter_neither]
  | scripted script =>
    unfold losing withPublished
    dsimp only
    rw [filter_neither]

theorem Adapter.listeners_losing (a : Adapter) (l s : Nat → Bool) :
    (a.losing l s).listeners = a.listeners.filter (!l ·.1) := by
  obtain ⟨owner, backend, listeners, subscribed, lookups⟩ := a
  cases backend <;> rfl

theorem Adapter.losing_nothing (a : Adapter) : a.losing (fun _ => false) (fun _ => false) = a := by
  obtain ⟨owner, backend, listeners, subscribed, lookups⟩ := a
  cases backend <;> simp [losing, withPublished]

theorem Adapter.unsubscribe_eq_losing (a : Adapter) (id : Nat) :
    a.unsubscribe id = a.losing (· == id) fun _ => false := by
  obtain ⟨owner, backend, listeners, subscribed, lookups⟩ := a
  cases backend <;> simp [unsubscribe, losing, withPublished, bne]

theorem Adapter.withdraw_eq_losing (a : Adapter) (id : Nat) :
    a.withPublished (·.withdraw id) = a.losing (fun _ => false) (· == id) := by
  obtain ⟨owner, backend, listeners, subscribed, lookups⟩ := a
  cases backend <;> simp [losing, withPublished, PublishedServices.withdraw, bne]

/-- Adapters without some of their listeners and services. -/
def silence (listener : Subscription → Bool) (service : String → Nat → Bool)
    (adapters : List (String × Adapter)) : List (String × Adapter) :=
  adapters.map fun a => (a.1, a.2.losing (fun n => listener ⟨a.1, n⟩) (service a.1))

theorem silence_silence (adapters : List (String × Adapter)) (l l' : Subscription → Bool)
    (s s' : String → Nat → Bool) :
    silence l' s' (silence l s adapters) =
      silence (fun x => l x || l' x) (fun key n => s key n || s' key n) adapters := by
  unfold silence
  rw [List.map_map]
  exact List.map_congr_left fun a _ => by simp only [Function.comp, Adapter.losing_losing]

theorem silence_nothing (adapters : List (String × Adapter)) :
    silence (fun _ => false) (fun _ _ => false) adapters = adapters := by
  unfold silence
  simp only [Adapter.losing_nothing]
  exact List.map_id' _

theorem lookup_silence (adapters : List (String × Adapter)) (l : Subscription → Bool)
    (s : String → Nat → Bool) (key : String) :
    (silence l s adapters).lookup key =
      (adapters.lookup key).map (·.losing (fun n => l ⟨key, n⟩) (s key)) := by
  induction adapters with
  | nil => rfl
  | cons a rest ih =>
    obtain ⟨name, a⟩ := a
    unfold silence at ih ⊢
    rw [List.map_cons, List.lookup_cons, List.lookup_cons, ih]
    cases same : key == name with
    | true =>
      obtain rfl := beq_iff_eq.1 same
      rfl
    | false => rfl

/-- The service space without the registrations and imports of some ids. While unregistering fails,
the registrations stay. -/
def SpaceFront.losing (gone : Nat → Bool) (x : SpaceFront) : SpaceFront :=
  { x with store := { x.store with
    entries := if x.failUnregister.isSome then x.store.entries
      else x.store.entries.filter (!gone ·.1)
    imports := if x.plain then x.store.imports else x.store.imports.filter (!gone ·.1) } }

theorem SpaceFront.losing_nothing (x : SpaceFront) : x.losing (fun _ => false) = x := by
  obtain ⟨store, plain, failRegister, failUnregister, interruptions⟩ := x
  simp [losing]

theorem SpaceFront.losing_losing (x : SpaceFront) (p q : Nat → Bool) :
    (x.losing p).losing q = x.losing fun n => p n || q n := by
  obtain ⟨store, plain, failRegister, failUnregister, interruptions⟩ := x
  unfold losing
  dsimp only
  cases failUnregister <;> cases plain <;>
    simp only [Option.isSome_none, Option.isSome_some, Bool.false_eq_true, if_true, if_false,
      filter_neither]

/-! ## Sites -/

namespace Site

/-- Whether a location becomes free. -/
def releases (d : Taking) (s : Site) (l : Location) : Bool :=
  d.location l ||
    (s.settings.releaseOnRemoval && s.ledger.empties d fun r => r.endpoint.location == l)

/-- What is left of a site. -/
def losing (d : Taking) (s : Site) : Site :=
  { s with
    ledger := s.ledger.losing d
    locations := { accepted := s.locations.accepted.filter (!s.releases d ·) }
    space := s.space.losing (s.ledger.tears d)
    adapters :=
      silence (fun x => s.ledger.empties d (·.subscription == some x)) d.service s.adapters }

theorem losing_losing (s : Site) : (s.losing d).losing d' = s.losing (d.join d') := by
  have releases (l : Location) :
      s.releases (d.join d') l = (s.releases d l || (s.losing d).releases d' l) := by
    unfold Site.releases losing
    dsimp only
    rw [Ledger.empties_join _ fun _ => rfl, Bool.and_or_distrib_left]
    show ((d.location l || d'.location l) || (_ || _)) = _
    rw [Bool.or_assoc, Bool.or_assoc]
    congr 1
    rw [← Bool.or_assoc, Bool.or_comm (d'.location l), Bool.or_assoc]
  have tears : s.ledger.tears (d.join d') =
      fun n => s.ledger.tears d n || (s.ledger.losing d).tears d' n := by
    funext n
    exact Ledger.tears_join _ n
  have silences : ∀ x : Subscription, s.ledger.empties (d.join d') (·.subscription == some x) =
      (s.ledger.empties d (·.subscription == some x) ||
        (s.ledger.losing d).empties d' (·.subscription == some x)) := fun x =>
    Ledger.empties_join _ fun _ => rfl
  conv_rhs => unfold losing
  simp only [releases, tears, silences]
  unfold losing
  dsimp only
  rw [Ledger.losing_losing, SpaceFront.losing_losing, filter_neither, silence_silence]
  rfl

/-- A site without its journal. -/
def bare (s : Site) : Site := { s with journal := [] }

/-! ## What operations take -/

theorem updateAdapter_losing (key : String) (listener service : Nat → Bool) (s : Site) :
    s.updateAdapter key (·.losing listener service) = { s with
      adapters := silence (fun x => x.adapter == key && listener x.id)
        (fun k n => k == key && service n) s.adapters } := by
  unfold updateAdapter silence
  congr 1
  refine List.map_congr_left fun a _ => ?_
  split
  · next same => simp [same]
  · next other =>
    have none : (a.1 == key) = false := beq_eq_false_iff_ne.2 other
    simp only [none, Bool.false_and, Adapter.losing_nothing]

theorem cancel_eq_silence (o : Option Subscription) (s : Site) :
    s.cancel o = { s with
      adapters := silence (fun x => o == some x) (fun _ _ => false) s.adapters } := by
  cases o with
  | none =>
    show s = { s with adapters := silence (fun _ => false) (fun _ _ => false) s.adapters }
    rw [silence_nothing]
  | some y =>
    unfold cancel unsubscribe
    dsimp only
    have same : (fun a : Adapter => a.unsubscribe y.id) =
        (·.losing (· == y.id) fun _ => false) := by
      funext a
      exact a.unsubscribe_eq_losing y.id
    rw [same, updateAdapter_losing]
    have owner : (fun x : Subscription => x.adapter == y.adapter && x.id == y.id) =
        fun x => some y == some x := by
      funext x
      obtain ⟨key, n⟩ := x
      obtain ⟨key', n'⟩ := y
      rw [Bool.eq_iff_iff]
      simp only [Bool.and_eq_true, beq_iff_eq, Option.some.injEq, Subscription.mk.injEq]
      exact and_congr eq_comm eq_comm
    simp only [owner, Bool.and_false]

theorem cancelAll_eq_silence (records : List Record) (s : Site) :
    cancelAll records s = { s with
      adapters := silence (fun x => records.any (·.subscription == some x)) (fun _ _ => false)
        s.adapters } := by
  induction records generalizing s with
  | nil =>
    show s = { s with adapters := silence (fun _ => false) (fun _ _ => false) s.adapters }
    rw [silence_nothing]
  | cons r records ih =>
    have step := ih (s.cancel r.subscription)
    unfold cancelAll at step ⊢
    rw [List.foldl_cons, step, cancel_eq_silence]
    simp only [silence_silence, List.any_cons, Bool.or_false]

theorem tearDownOne_eq_losing (s : Site) (h : Handle) :
    (s.tearDownOne h).bare = { s.bare with space := s.space.losing (h.id == ·) } := by
  obtain ⟨fault, reports, hfault, heq⟩ := tearDownOne_eq s h
  have entries : (if fault.isNone then s.space.store.entries.filter (·.1 != h.id)
      else s.space.store.entries) = if s.space.failUnregister.isSome then s.space.store.entries
        else s.space.store.entries.filter fun entry => !(h.id == entry.1) := by
    have other : ∀ entry : Nat × Registration, (entry.1 != h.id) = !(h.id == entry.1) := by
      intro entry
      rw [Bool.beq_comm]
      rfl
    simp only [other]
    cases hfail : s.space.failUnregister with
    | some reason =>
      have : fault.isNone = false :=
        eq_false_of_ne_true fun none => by simp [hfault.1 none] at hfail
      rw [this]
      rfl
    | none =>
      cases hnone : fault.isNone with
      | true => rfl
      | false =>
        -- What the space does not know cannot go.
        have unknown : h.id ∉ s.space.store.entries.map (·.1) := fun there => by
          simp [hfault.2 ⟨hfail, ServiceSpace.contains_iff.2 there⟩] at hnone
        refine (List.filter_eq_self.2 fun entry there => ?_).symm
        rw [Bool.not_eq_true', beq_eq_false_iff_ne]
        exact fun same => unknown (List.mem_map.2 ⟨entry, there, same.symm⟩)
  have imports : s.space.store.imports.filter (·.1 != h.id) =
      s.space.store.imports.filter fun entry => !(h.id == entry.1) := by
    refine List.filter_congr fun entry _ => ?_
    rw [Bool.beq_comm]
    rfl
  rw [heq]
  unfold bare SpaceFront.losing
  dsimp only
  rw [entries, imports]

theorem tearDown_eq_losing (handles : List Handle) (s : Site) :
    (s.tearDown handles).bare =
      { s.bare with space := s.space.losing fun n => handles.any (·.id == n) } := by
  induction handles generalizing s with
  | nil =>
    show s.bare = { s.bare with space := s.space.losing fun _ => false }
    rw [SpaceFront.losing_nothing]
    rfl
  | cons h handles ih =>
    have step := ih (s.tearDownOne h)
    have first := tearDownOne_eq_losing s h
    have space : (s.tearDownOne h).space = s.space.losing (h.id == ·) := congrArg Site.space first
    rw [first, space, SpaceFront.losing_losing] at step
    exact step

theorem noteEmptied_eq_freeing (c : ContainerId) (s : Site) (r : Record) :
    (s.noteEmptied c r).bare = { s.bare with
      locations := { accepted := s.locations.accepted.filter fun l =>
        !(s.settings.releaseOnRemoval && r.endpoint.location == l) } } := by
  unfold noteEmptied
  dsimp only
  split
  · next ok =>
    have ok : s.settings.releaseOnRemoval = true := ok
    have other : ∀ l : Location, (!(r.endpoint.location == l)) = (l != r.endpoint.location) := by
      intro l
      rw [Bool.beq_comm]
      rfl
    simp only [ok, Bool.true_and, other]
    rfl
  · next no =>
    have no : s.settings.releaseOnRemoval = false := eq_false_of_ne_true no
    simp only [no, Bool.false_and, Bool.not_false, List.filter_true]
    rfl

theorem noteEmptied_all (c : ContainerId) (records : List Record) (s : Site) :
    (records.foldl (noteEmptied c) s).bare = { s.bare with
      locations := { accepted := s.locations.accepted.filter fun l =>
        !(s.settings.releaseOnRemoval && records.any (·.endpoint.location == l)) } } := by
  induction records generalizing s with
  | nil =>
    simp only [List.any_nil, Bool.and_false, Bool.not_false, List.filter_true]
    rfl
  | cons r records ih =>
    have step := ih (s.noteEmptied c r)
    have first := noteEmptied_eq_freeing c s r
    have settings : (s.noteEmptied c r).bare.settings = s.settings := by rw [first]; rfl
    have locations : (s.noteEmptied c r).bare.locations.accepted =
        s.locations.accepted.filter fun l =>
          !(s.settings.releaseOnRemoval && r.endpoint.location == l) := by rw [first]
    rw [first, show (s.noteEmptied c r).settings = _ from settings,
      show (s.noteEmptied c r).locations.accepted = _ from locations, filter_neither] at step
    refine step.trans ?_
    simp only [List.any_cons, Bool.and_or_distrib_left]

/-- What is left when an endpoint leaves: nothing but its location, its records and what they own
goes. -/
theorem bare_unavailable (e : Endpoint) (s : Site) :
    (s.unavailable e).bare = { s.bare with
      locations := (s.locations.release e.location).2
      ledger := (s.ledger.withdrawEndpoint e.id).2
      adapters := silence (fun x => (s.ledger.withdrawEndpoint e.id).1.any (·.subscription == some x))
        (fun _ _ => false) s.adapters
      space := s.space.losing fun n =>
        ((s.ledger.withdrawEndpoint e.id).1.flatMap (·.handles)).any (·.id == n) } := by
  generalize hrecords : (s.ledger.withdrawEndpoint e.id).1 = records
  obtain ⟨left, hleft⟩ : ∃ left, left = log (.left e) (cancelAll records
    { s with
      locations := (s.locations.release e.location).2
      ledger := (s.ledger.withdrawEndpoint e.id).2 }) := ⟨_, rfl⟩
  have whole : (s.unavailable e).bare = (left.tearDown (records.flatMap (·.handles))).bare := by
    unfold unavailable
    dsimp only
    rw [hrecords, ← hleft]
    split
    · next none =>
      rw [List.isEmpty_iff.1 (Bool.and_eq_true_iff.1 none).1]
      rfl
    · rfl
  rw [whole, tearDown_eq_losing, hleft, cancelAll_eq_silence]
  rfl

/-! ### What is removed, at once -/

section

variable {s : Site} (mapped : ∀ r ∈ s.ledger.records, r.mappings ≠ [])

include mapped

theorem emptiedBy_eq (c : ContainerId) (reference : Nat) {r : Record} (hr : r ∈ s.ledger.records) :
    Ledger.emptiedBy c reference r = (Taking.ofReference c reference).empties r := by
  unfold Ledger.emptiedBy Taking.empties Record.maps Record.without Taking.ofReference
  dsimp only [Record.identity]
  cases hc : r.key.container == c with
  | false =>
    obtain ⟨m, rest, split⟩ := List.exists_cons_of_ne_nil (mapped r hr)
    simp [split]
  | true =>
    obtain ⟨m, rest, split⟩ := List.exists_cons_of_ne_nil (mapped r hr)
    rw [Bool.eq_iff_iff]
    simp only [Bool.true_and, Bool.and_eq_true, List.any_eq_true, List.isEmpty_iff,
      List.filter_eq_nil_iff, List.all_eq_true, bne_iff_ne, beq_iff_eq, not_not]
    exact ⟨fun h => h.2, fun h => ⟨⟨m, by simp [split], h m (by simp [split])⟩, h⟩⟩

theorem withdrawReference_eq_losing (c : ContainerId) (reference : Nat) :
    (s.ledger.withdrawReference c reference).2 =
      s.ledger.losing (.ofReference c reference) := by
  unfold Ledger.withdrawReference Ledger.losing
  dsimp only
  rw [List.filter_congr fun r hr => congrArg (! ·) (emptiedBy_eq mapped c reference hr)]
  refine congrArg Ledger.mk (List.map_congr_left fun r _ => ?_)
  unfold Record.losing Record.without Taking.ofReference
  dsimp only [Record.identity]
  split
  · next same => simp [same, bne]
  · next other =>
    have none : (r.key.container == c) = false := beq_eq_false_iff_ne.2 other
    simp [none]

theorem any_disposed (c : ContainerId) (reference : Nat) (p : Record → Bool) :
    (s.ledger.withdrawReference c reference).1.disposed.any p =
      s.ledger.empties (.ofReference c reference) p := by
  unfold Ledger.withdrawReference Ledger.empties
  dsimp only
  rw [List.any_filter, Bool.eq_iff_iff, List.any_eq_true, List.any_eq_true]
  exact exists_congr fun r => and_congr_right fun hr => by rw [emptiedBy_eq mapped c reference hr]

omit mapped in
theorem any_withdrawn (c : ContainerId) (reference : Nat) :
    (fun n => (s.ledger.withdrawReference c reference).1.handles.any (·.id == n)) =
      s.ledger.tears (.ofReference c reference) := by
  funext n
  unfold Ledger.withdrawReference Ledger.tears Record.handlesOf Taking.ofReference
  dsimp only [Record.identity]
  rw [List.any_flatMap, List.any_filter, Bool.eq_iff_iff]
  simp only [List.any_map, List.any_filter, List.any_eq_true, Bool.and_eq_true, beq_iff_eq,
    Function.comp]
  constructor
  · rintro ⟨r, hr, hc, m, hm, hid, hn⟩
    exact ⟨r, hr, m, hm, ⟨hc, hid⟩, hn⟩
  · rintro ⟨r, hr, m, hm, ⟨hc, hid⟩, hn⟩
    exact ⟨r, hr, hc, m, hm, hid, hn⟩

theorem removeReference_eq_losing (c : ContainerId) (reference : Nat) :
    (s.removeReference c reference).bare = s.bare.losing (.ofReference c reference) := by
  obtain ⟨w, hw⟩ : ∃ w, w = (s.ledger.withdrawReference c reference).1 := ⟨_, rfl⟩
  obtain ⟨left, hleft⟩ : ∃ left, left = cancelAll w.disposed
    { s with ledger := s.ledger.losing (.ofReference c reference) } := ⟨_, rfl⟩
  have whole : s.removeReference c reference =
      w.disposed.foldl (noteEmptied c) (left.tearDown w.handles) := by
    unfold removeReference
    dsimp only
    rw [withdrawReference_eq_losing mapped, ← hw, ← hleft]
    split
    · next none =>
      have none : w.handles = [] := List.isEmpty_iff.1 none
      have stays : w.disposed = [] := by
        rw [hw] at none ⊢
        exact Ledger.disposed_eq_nil none
      rw [none, stays]
      rfl
    · rfl
  rw [cancelAll_eq_silence] at hleft
  have torn := tearDown_eq_losing w.handles left
  have settings : (left.tearDown w.handles).bare.settings = s.settings := by
    rw [torn, hleft]
    rfl
  have locations : (left.tearDown w.handles).bare.locations = s.locations := by
    rw [torn, hleft]
    rfl
  rw [whole, noteEmptied_all, torn, show (left.tearDown w.handles).settings = _ from settings,
    show (left.tearDown w.handles).locations = _ from locations, hleft, hw, any_withdrawn]
  simp only [any_disposed mapped]
  rfl

theorem empties_ofEndpoint (e : Endpoint) {r : Record} (hr : r ∈ s.ledger.records) :
    (Taking.ofEndpoint e).empties r = (r.key.endpointId == e.id) := by
  obtain ⟨m, rest, split⟩ := List.exists_cons_of_ne_nil (mapped r hr)
  unfold Taking.empties Taking.ofEndpoint
  dsimp only [Record.identity]
  rw [Bool.eq_iff_iff, List.all_eq_true]
  exact ⟨fun h => h m (by simp [split]), fun h _ _ => h⟩

theorem withdrawEndpoint_eq_losing (e : Endpoint) :
    (s.ledger.withdrawEndpoint e.id).2 = s.ledger.losing (.ofEndpoint e) := by
  have kept : s.ledger.records.filter (!(Taking.ofEndpoint e).empties ·) =
      s.ledger.records.filter (·.key.endpointId != e.id) :=
    List.filter_congr fun r hr => congrArg (! ·) (empties_ofEndpoint mapped e hr)
  unfold Ledger.withdrawEndpoint Ledger.losing
  dsimp only
  rw [kept]
  refine congrArg Ledger.mk ((List.map_id' _).symm.trans (List.map_congr_left fun r hr => ?_))
  have other : (r.key.endpointId == e.id) = false :=
    beq_eq_false_iff_ne.2 (bne_iff_ne.1 (List.mem_filter.1 hr).2)
  unfold Record.losing Taking.ofEndpoint
  dsimp only [Record.identity]
  simp only [other, Bool.not_false, List.filter_true]

theorem unavailable_eq_losing {e : Endpoint} (located : ∀ r ∈ s.ledger.records,
      r.key.endpointId = e.id → r.endpoint.location = e.location) :
    (s.unavailable e).bare = s.bare.losing (.ofEndpoint e) := by
  have emptied : ∀ p : Record → Bool,
      (s.ledger.withdrawEndpoint e.id).1.any p = s.ledger.empties (.ofEndpoint e) p := by
    intro p
    unfold Ledger.withdrawEndpoint Ledger.empties
    dsimp only
    rw [List.any_filter, Bool.eq_iff_iff, List.any_eq_true, List.any_eq_true]
    exact exists_congr fun r => and_congr_right fun hr => by rw [empties_ofEndpoint mapped e hr]
  have torn : (fun n => ((s.ledger.withdrawEndpoint e.id).1.flatMap (·.handles)).any (·.id == n)) =
      s.ledger.tears (.ofEndpoint e) := by
    funext n
    unfold Ledger.withdrawEndpoint Ledger.tears Record.handles Taking.ofEndpoint
    dsimp only [Record.identity]
    rw [List.any_flatMap, List.any_filter, Bool.eq_iff_iff]
    simp only [List.any_map, List.any_eq_true, Bool.and_eq_true, beq_iff_eq, Function.comp]
    constructor
    · rintro ⟨r, hr, hid, m, hm, hn⟩
      exact ⟨r, hr, m, hm, hid, hn⟩
    · rintro ⟨r, hr, m, hm, hid, hn⟩
      exact ⟨r, hr, hid, m, hm, hn⟩
  -- The location of the endpoint is that of its record.
  have freed : (s.locations.release e.location).2 =
      { accepted := s.locations.accepted.filter (!s.releases (.ofEndpoint e) ·) } := by
    refine congrArg Locations.mk (List.filter_congr fun l _ => ?_)
    have only : s.releases (.ofEndpoint e) l = (e.location == l) := by
      rw [Bool.eq_iff_iff]
      refine ⟨fun h => ?_, fun h => Bool.or_eq_true_iff.2 (.inl h)⟩
      rcases Bool.or_eq_true_iff.1 h with h | h
      · exact h
      · obtain ⟨r, hr, gone⟩ := List.any_eq_true.1 (Bool.and_eq_true_iff.1 h).2
        obtain ⟨gone, hl⟩ := Bool.and_eq_true_iff.1 gone
        rw [empties_ofEndpoint mapped e hr, beq_iff_eq] at gone
        rw [← located r hr gone]
        exact hl
    rw [only, Bool.beq_comm]
    rfl
  rw [bare_unavailable, torn, withdrawEndpoint_eq_losing mapped, freed]
  simp only [emptied]
  rfl

end

theorem mapped_losing (d : Taking) (s : Site) :
    ∀ r ∈ (s.losing d).ledger.records, r.mappings ≠ [] := by
  intro q hq none
  obtain ⟨r, hr, rfl⟩ := List.mem_map.1 hq
  have goes : d.empties r = true := by
    refine List.all_eq_true.2 fun m hm => ?_
    simpa using List.filter_eq_nil_iff.1 none m hm
  simp [goes] at hr

theorem losing_congr {s : Site} (mapping : ∀ r ∈ s.ledger.records, ∀ n,
      d.mapping r.identity n = d'.mapping r.identity n)
    (service : d.service = d'.service) (location : d.location = d'.location) :
    s.losing d = s.losing d' := by
  have empties : ∀ r ∈ s.ledger.records, d.empties r = d'.empties r := by
    intro r hr
    unfold Taking.empties
    simp only [mapping r hr]
  have any : ∀ p, s.ledger.empties d p = s.ledger.empties d' p := by
    intro p
    unfold Ledger.empties
    rw [Bool.eq_iff_iff, List.any_eq_true, List.any_eq_true]
    exact exists_congr fun r => and_congr_right fun hr => by rw [empties r hr]
  have tears : s.ledger.tears d = s.ledger.tears d' := by
    funext n
    unfold Ledger.tears
    rw [Bool.eq_iff_iff, List.any_eq_true, List.any_eq_true]
    exact exists_congr fun r => and_congr_right fun hr => by simp only [mapping r hr]
  have ledger : s.ledger.losing d = s.ledger.losing d' := by
    unfold Ledger.losing
    rw [List.filter_congr fun r hr => congrArg (! ·) (empties r hr)]
    refine congrArg Ledger.mk (List.map_congr_left fun r hr => ?_)
    unfold Record.losing
    simp only [mapping r (List.mem_filter.1 hr).1]
  unfold losing releases
  simp only [any, tears, ledger, service, location]

theorem losing_services {s : Site} (mapped : ∀ r ∈ s.ledger.records, r.mappings ≠ [])
    (service : String → Nat → Bool) :
    s.losing { service } = { s with adapters := silence (fun _ => false) service s.adapters } := by
  have empties : ∀ r ∈ s.ledger.records, ({ service } : Taking).empties r = false := by
    intro r hr
    obtain ⟨m, rest, split⟩ := List.exists_cons_of_ne_nil (mapped r hr)
    simp [Taking.empties, split]
  have any : ∀ p, s.ledger.empties { service } p = false := by
    intro p
    refine List.any_eq_false.2 fun r hr => ?_
    simp [empties r hr]
  have tears : s.ledger.tears { service } = fun _ => false := by
    funext n
    simp [Ledger.tears]
  have ledger : s.ledger.losing { service } = s.ledger := by
    unfold Ledger.losing Record.losing
    rw [List.filter_congr fun r hr => congrArg (! ·) (empties r hr)]
    simp
  unfold losing releases
  simp [any, tears, ledger, SpaceFront.losing_nothing]

theorem losing_nothing {s : Site} (mapped : ∀ r ∈ s.ledger.records, r.mappings ≠ []) :
    s.losing {} = s := by
  rw [losing_services mapped, silence_nothing]

theorem adapter?_losing (d : Taking) (s : Site) (key : String) :
    (s.losing d).adapter? key = (s.adapter? key).map (·.losing
      (fun n => s.ledger.empties d (·.subscription == some ⟨key, n⟩)) (d.service key)) :=
  lookup_silence s.adapters (fun x => s.ledger.empties d (·.subscription == some x)) d.service key

end Site

end ServiceImport

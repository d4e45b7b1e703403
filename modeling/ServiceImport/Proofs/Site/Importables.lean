import Mathlib.Data.List.Induction
import Mathlib.Logic.Function.Basic
import ServiceImport.Proofs.Site.Listeners
import ServiceImport.Proofs.Site.Prospects

/-! # What can be imported

A candidate tells of references, and a reference can be imported if its proxy can be made and
registered. What can be imported is offered to the ledger. What the ledger takes is seen in the
records, among the registrations and among the listeners, and this can be told without the numbers
of subscriptions and without all of the endpoint's description.
-/

namespace ServiceImport

/-! ## The first of each number -/

/-- The elements of a list, the first of each number. -/
def firstsBy {α : Type} (number : α → Nat) (l : List α) : List α :=
  l.eraseDupsBy fun a kept => number a == number kept

theorem firstsBy_eq_foldl {α : Type} (number : α → Nat) (l : List α) :
    firstsBy number l = l.foldl (fun kept a =>
      if kept.any (number · == number a) then kept else kept ++ [a]) [] := by
  have loop : ∀ kept : List α,
      List.eraseDupsBy.loop (fun a kept => number a == number kept) l kept =
        l.foldl (fun kept a => if kept.any (number · == number a) then kept else kept ++ [a])
          kept.reverse := by
    induction l with
    | nil => exact fun _ => rfl
    | cons a l ih =>
      intro kept
      have same : kept.reverse.any (number · == number a) =
          kept.any fun b => number a == number b := by
        rw [List.any_reverse]
        exact congrArg kept.any (funext fun b => BEq.comm)
      unfold List.eraseDupsBy.loop
      rw [List.foldl_cons, same]
      cases kept.any fun b => number a == number b with
      | true => exact ih kept
      | false => exact (ih (a :: kept)).trans (by rw [List.reverse_cons]; rfl)
  exact loop []

theorem firstsBy_concat {α : Type} (number : α → Nat) (l : List α) (a : α) :
    firstsBy number (l ++ [a]) =
      if (firstsBy number l).any (number · == number a) then firstsBy number l
      else firstsBy number l ++ [a] := by
  simp only [firstsBy_eq_foldl, List.foldl_append, List.foldl_cons, List.foldl_nil]

theorem firstsBy_eq_nil_iff {α : Type} {number : α → Nat} {l : List α} :
    firstsBy number l = [] ↔ l = [] := by
  induction l using List.reverseRecOn with
  | nil => exact Iff.rfl
  | append_singleton l a ih =>
    rw [firstsBy_concat]
    split
    · next there =>
      have some : firstsBy number l ≠ [] := by
        rintro none
        rw [none] at there
        cases there
      simp [some]
    · simp

/-- A reference that can be imported through a candidate, and what is registered for it. -/
structure Importable where
  candidate : Candidate
  reference : Reference
  registration : Registration

namespace Site

variable {s t u : Site} {e : Endpoint} {c : Candidate} {r : Reference}

/-! ## References that can be imported -/

/-- The references that a candidate has under an interface; none if the look-up fails. -/
def under (e : Endpoint) (c : Candidate) (s : Site) (interface : String) : List Reference :=
  (s.answerFor e c interface).toOption.getD []

/-- All references that a candidate has for an endpoint, in the order of the interfaces. -/
def offering (e : Endpoint) (c : Candidate) (s : Site) : List Reference :=
  e.interfaces.flatMap (s.under e c)

/-- The references that a candidate tells of: the first with each id. -/
def foundThrough (e : Endpoint) (c : Candidate) (s : Site) : List Reference :=
  firstsBy (·.id) (s.offering e c)

/-- What would be registered for a reference that a candidate told of. There is nothing unless the
adapter has a remote service for it, it has classes, the remote service gives a proxy, and the space
takes registrations. -/
def registration? (e : Endpoint) (c : Candidate) (s : Site) (r : Reference) :
    Option Registration :=
  match (s.adapter? c.adapter).bind (·.remoteService? r), s.space.failRegister with
  | some (.ok proxied), none =>
    if r.classes = [] then none
    else some { interfaces := r.classes, properties := proxyProperties s.settings e c r, proxied }
  | _, _ => none

theorem registration?_eq_some_iff {registration : Registration} :
    s.registration? e c r = some registration ↔
      s.registers e c r = true ∧ s.prepareProxy e c r = .ok registration := by
  unfold registration? registers prepareProxy
  cases s.space.failRegister with
  | some reason => simp
  | none =>
    rcases (s.adapter? c.adapter).bind (·.remoteService? r) with _ | _ | proxied
    · simp
    · by_cases none : r.classes = []
      · simp [none]
      · simp [none, Except.map]
    · by_cases none : r.classes = []
      · simp [none]
      · simp [none, Except.map, Except.toBool]

theorem isSome_registration? (e : Endpoint) (c : Candidate) (s : Site) (r : Reference) :
    (s.registration? e c r).isSome = s.registers e c r := by
  rw [Bool.eq_iff_iff, Option.isSome_iff_exists]
  constructor
  · rintro ⟨registration, h⟩
    exact (registration?_eq_some_iff.1 h).1
  · intro registers
    have prepared := registers
    unfold Site.registers at prepared
    cases h : s.prepareProxy e c r with
    | error fault => simp [h, Except.toBool] at prepared
    | ok registration => exact ⟨registration, registration?_eq_some_iff.2 ⟨registers, h⟩⟩

theorem registration?_steady (e : Endpoint) (c : Candidate) (s : Site) :
    s.steady.registration? e c = s.registration? e c := by
  funext r
  ext registration
  rw [registration?_eq_some_iff, registration?_eq_some_iff, registers_steady, prepareProxy_steady]

/-- What can be imported through a candidate, in the order in which it is told. -/
def importables (e : Endpoint) (c : Candidate) (s : Site) : List Importable :=
  (s.foundThrough e c).filterMap fun r => (s.registration? e c r).map fun g => ⟨c, r, g⟩

theorem flatMap_answers (e : Endpoint) (c : Candidate) (s : Site) (interfaces : List String) :
    (interfaces.filterMap (s.answer? e c)).flatMap (·.2) = interfaces.flatMap (s.under e c) := by
  induction interfaces with
  | nil => rfl
  | cons interface interfaces ih =>
    rw [List.flatMap_cons, ← ih]
    unfold answer? under
    rcases answered : s.answerFor e c interface with fault | ⟨_ | ⟨r, references⟩⟩
    · rw [List.filterMap_cons_none (by rw [answered])]
      rfl
    · rw [List.filterMap_cons_none (by rw [answered])]
      rfl
    · rw [List.filterMap_cons_some (by rw [answered])]
      rfl

theorem foundThrough_eq (e : Endpoint) (c : Candidate) (s : Site) :
    s.foundThrough e c = firstOfEach ((s.lookUp e c).1.flatMap (·.2)) := by
  unfold foundThrough offering
  rw [(lookUp_eq e c s).1, flatMap_answers, firstsBy_eq_foldl]
  rfl

theorem foundThrough_eq_nil_iff : s.foundThrough e c = [] ↔ (s.lookUp e c).1 = [] := by
  rw [foundThrough, firstsBy_eq_nil_iff, offering, (lookUp_eq e c s).1, ← flatMap_answers,
    List.flatMap_eq_nil_iff]
  constructor
  · intro none
    refine List.eq_nil_iff_forall_not_mem.2 fun answer there => ?_
    obtain ⟨interface, _, answered⟩ := List.mem_filterMap.1 there
    have empty := none answer there
    unfold answer? at answered
    split at answered
    · cases answered
    · cases answered
    · next nonempty _ =>
      obtain rfl := Option.some.inj answered
      exact nonempty empty
  · intro none
    simp [none]

theorem importables_steady (e : Endpoint) (c : Candidate) (s : Site) :
    s.steady.importables e c = s.importables e c := by
  unfold importables
  rw [foundThrough_eq, foundThrough_eq, lookUp_steady, registration?_steady]

/-! ## What is seen of an import -/

/-- Who listens on an adapter, in the order in which they came. -/
def attending (s : Site) (key : String) : List Listener :=
  (((s.audience key).map (·.1)).getD []).map (·.2)

end Site

/-- A record as it is told: with its endpoint as it is described, and with its subscription told by
its adapter only. -/
def Record.outline (describe : Endpoint → Endpoint) (r : Record) : Record :=
  { r with
    endpoint := describe r.endpoint
    subscription := r.subscription.map ({ · with id := 0 }) }

@[simp] theorem Record.key_outline (describe : Endpoint → Endpoint) (r : Record) :
    (r.outline describe).key = r.key := rfl

def Ledger.outline (describe : Endpoint → Endpoint) (l : Ledger) : Ledger :=
  ⟨l.records.map (Record.outline describe)⟩

/-- What an import adds to: the records, the registrations and the listeners. -/
structure Holdings where
  ledger : Ledger
  store : ServiceSpace
  listeners : String → List Listener

def Site.holdings (describe : Endpoint → Endpoint) (s : Site) : Holdings where
  ledger := s.ledger.outline describe
  store := s.space.store
  listeners := s.attending

/-- Offers what can be imported to the ledger. If it is taken, it is registered, and if that made a
record, the importer goes on listening on the adapter. -/
def Holdings.adopt (plain : Bool) (e : Endpoint) (h : Holdings) (p : Importable) : Holdings :=
  match h.ledger.register e p.candidate.id p.reference
      ⟨h.store.issued + 1, p.reference.classes⟩ (some ⟨p.candidate.adapter, 0⟩) with
  | .error _ => h
  | .ok (admission, ledger) =>
    { ledger
      store := h.store.filled plain p.reference p.registration
      listeners := match admission with
        | .created => Function.update h.listeners p.candidate.adapter
            (h.listeners p.candidate.adapter ++ [.importer p.candidate.id])
        | .joined => h.listeners }

namespace Ledger

variable {l : Ledger} {e : Endpoint} {c : ContainerId} {r : Reference} {h : Handle}
  {x : Option Subscription}

theorem check_outline (describe : Endpoint → Endpoint) (l : Ledger) (key : RecordKey)
    (reference : Nat) : (l.outline describe).check key reference = l.check key reference := by
  unfold check outline
  rw [List.findSome?_map]
  rfl

theorem join_outline (describe : Endpoint → Endpoint) (l : Ledger) (key : RecordKey)
    (mapping : Reference × Handle) :
    (l.outline describe).join key mapping = (l.join key mapping).outline describe := by
  unfold join outline
  dsimp only
  rw [List.map_map, List.map_map]
  congr 2
  funext q
  dsimp only [Function.comp]
  rw [apply_ite (Record.outline describe)]
  rfl

theorem register_outline {describe : Endpoint → Endpoint} (same : (describe e).id = e.id) :
    (l.outline describe).register (describe e) c r h (x.map ({ · with id := 0 })) =
      (l.register e c r h x).map fun p => (p.1, p.2.outline describe) := by
  have known : ((l.outline describe).records.any (·.key == (⟨c, e.id⟩ : RecordKey))) =
      l.records.any (·.key == (⟨c, e.id⟩ : RecordKey)) := by
    unfold outline
    rw [List.any_map]
    rfl
  unfold register
  simp only [same, check_outline, known]
  cases l.check ⟨c, e.id⟩ r.id with
  | error rejection => rfl
  | ok _ =>
    dsimp only
    split
    · rw [join_outline]
      rfl
    · unfold outline
      dsimp only [Except.map]
      rw [List.map_append]
      rfl

/-- A subscription matters to a registration only if it makes a record. -/
theorem register_congr {y : Option Subscription} (same : l.contains e.id = false → x = y) :
    l.register e c r h x = l.register e c r h y := by
  cases known : l.contains e.id with
  | false => rw [same known]
  | true =>
    unfold register
    dsimp only
    cases passed : l.check ⟨c, e.id⟩ r.id with
    | error rejection => rfl
    | ok _ =>
      -- The record of the endpoint has nothing against the container, so it is joined.
      obtain ⟨q, hq, hid⟩ := List.any_eq_true.1 known
      have joined : l.records.any (·.key == (⟨c, e.id⟩ : RecordKey)) = true := by
        refine List.any_eq_true.2 ⟨q, hq, beq_iff_eq.2 ?_⟩
        have hid := beq_iff_eq.1 hid
        have container := (check_eq_ok_iff.1 passed q hq hid).1
        cases hkey : q.key
        simp_all
      dsimp only
      rw [joined]
      rfl

theorem contains_register {a : Admission} {l' : Ledger} (ok : l.register e c r h x = .ok (a, l')) :
    l'.contains e.id = true := by
  obtain ⟨_, ⟨_, ⟨q, hq, hkey⟩, rfl⟩ | ⟨_, _, rfl⟩⟩ := register_ok ok
  · refine List.any_eq_true.2 ⟨_, List.mem_map.2 ⟨q, hq, if_pos hkey⟩, ?_⟩
    simp [hkey]
  · simp [contains]

theorem contains_outline (describe : Endpoint → Endpoint) (l : Ledger) (endpointId : String) :
    (l.outline describe).contains endpointId = l.contains endpointId := by
  unfold contains outline
  rw [List.any_map]
  rfl

/-- What is offered to a ledger as it is told is taken as by the ledger itself, if the subscription
at hand is that of the adapter or does not matter. -/
theorem register_offered {describe : Endpoint → Endpoint} (same : (describe e).id = e.id)
    {key : String} (hand : l.contains e.id = false →
      x.map ({ · with id := 0 }) = some (⟨key, 0⟩ : Subscription)) :
    (l.outline describe).register (describe e) c r h (some ⟨key, 0⟩) =
      (l.register e c r h x).map fun p => (p.1, p.2.outline describe) := by
  rw [← register_outline same]
  refine register_congr fun unknown => (hand ?_).symm
  rw [contains_outline, same] at unknown
  exact unknown

end Ledger

end ServiceImport

import Mathlib.Data.List.Range
import ServiceImport.ServiceSpace

/-! # Histories of the service space

A space is asked one thing after another, and what it answers is written down beside what it was
asked. Its registrations can be told from that record alone: one is there from the answer that gave
its handle until the answer that its id was unregistered, and no id is given out twice.
-/

namespace ServiceImport

/-! ## Calls and answers -/

/-- What can be asked of a service space. -/
inductive SpaceCommand where
  | register (registration : Registration)
  | unregister (handle : Handle)
  | imported (handle : Handle) (reference : Reference)
  | withdrawn (handle : Handle)

/-- What a service space was asked, and what it answered. A registration is answered by its
handle. -/
structure Exchange where
  command : SpaceCommand
  answer : Except Fault (Option Handle)

namespace Exchange

/-- The handle that was given out for a registration. -/
def granted? : Exchange → Option Handle
  | ⟨.register _, .ok given⟩ => given
  | _ => none

/-- Whether an id was unregistered. -/
def ends (id : Nat) : Exchange → Bool
  | ⟨.unregister h, .ok _⟩ => h.id == id
  | _ => false

end Exchange

namespace ServiceSpace

variable {s : ServiceSpace} {told : List Exchange} {e : Exchange} {h : Handle} {r : Registration}

/-- The handles that were given out, in the order in which they were. -/
def granted (told : List Exchange) : List Handle := told.filterMap Exchange.granted?

/-- A registration was answered by a handle, and the id was not unregistered since. -/
def Live (told : List Exchange) (h : Handle) (r : Registration) : Prop :=
  ∃ before since, told = before ++ ⟨.register r, .ok (some h)⟩ :: since ∧
    ∀ e ∈ since, e.ends h.id = false

theorem granted_concat (told : List Exchange) (e : Exchange) :
    granted (told ++ [e]) = granted told ++ e.granted?.toList := by
  unfold granted
  rw [List.filterMap_append]
  cases given : e.granted? <;> simp [given]

theorem Live.mem_granted (live : Live told h r) : h ∈ granted told := by
  obtain ⟨before, since, rfl, _⟩ := live
  exact List.mem_filterMap.2 ⟨_, List.mem_append_right _ List.mem_cons_self, rfl⟩

/-- What is live is what the last answer brought, and what was live before it and not ended by
it. -/
theorem live_concat_iff :
    Live (told ++ [e]) h r ↔
      e = ⟨.register r, .ok (some h)⟩ ∨ (Live told h r ∧ e.ends h.id = false) := by
  constructor
  · rintro ⟨before, since, split, unended⟩
    -- The last exchange is the one that gave the handle, or it came after that.
    rcases List.eq_nil_or_concat' since with rfl | ⟨since, last, rfl⟩
    · exact .inl (List.singleton_inj.1 (List.append_inj_right' split rfl))
    · rw [← List.cons_append, ← List.append_assoc] at split
      obtain ⟨rfl, same⟩ := List.append_inj' split rfl
      obtain rfl := List.singleton_inj.1 same
      refine .inr ⟨⟨before, since, rfl, fun x hx => ?_⟩, ?_⟩
      · exact unended x (List.mem_append_left _ hx)
      · exact unended _ (List.mem_append_right _ (List.mem_singleton.2 rfl))
  · rintro (rfl | ⟨⟨before, since, rfl, unended⟩, kept⟩)
    · exact ⟨told, [], rfl, nofun⟩
    · refine ⟨before, since ++ [e], by simp, fun x hx => ?_⟩
      rcases List.mem_append.1 hx with hx | hx
      · exact unended x hx
      · rwa [List.mem_singleton.1 hx]

/-! ## Runs -/

/-- Does what is asked, and answers. What fails leaves the space as it was. -/
def perform (s : ServiceSpace) : SpaceCommand → Except Fault (Option Handle) × ServiceSpace
  | .register r =>
    match s.register r with
    | .ok (h, t) => (.ok (some h), t)
    | .error fault => (.error fault, s)
  | .unregister h =>
    match s.unregister h.id with
    | .ok t => (.ok none, t)
    | .error fault => (.error fault, s)
  | .imported h reference => (.ok none, s.imported h.id reference)
  | .withdrawn h => (.ok none, s.withdrawn h.id)

/-- Does what is asked next, and writes the answer down. -/
def exchange (p : List Exchange × ServiceSpace) (c : SpaceCommand) :
    List Exchange × ServiceSpace :=
  (p.1 ++ [⟨c, (p.2.perform c).1⟩], (p.2.perform c).2)

/-- What is told and left after commands, from the empty space on. -/
def run (commands : List SpaceCommand) : List Exchange × ServiceSpace :=
  commands.foldl exchange ([], {})

theorem perform_register_of_nil (nameless : r.interfaces = []) :
    s.perform (.register r) = (.error (.serviceSpace "no interfaces to register under"), s) := by
  simp [perform, register, nameless]

theorem perform_register_of_ne_nil (named : r.interfaces ≠ []) :
    s.perform (.register r) = (.ok (some ⟨s.issued + 1, r.interfaces⟩),
      { s with entries := s.entries ++ [(s.issued + 1, r)], issued := s.issued + 1 }) := by
  simp [perform, register, named]

theorem perform_unregister_of_contains (there : s.contains h.id = true) :
    s.perform (.unregister h) =
      (.ok none, { s with entries := s.entries.filter (·.1 != h.id) }) := by
  simp [perform, unregister, there]

theorem perform_unregister_of_not_contains (absent : s.contains h.id = false) :
    s.perform (.unregister h) = (.error (.alreadyUnregistered h.id), s) := by
  simp [perform, unregister, absent]

/-! ## What the record tells of the space -/

/-- A space is as the record tells: ids are given out one after another, the entries are in the
order of their ids, and they are what is live. -/
structure Recorded (told : List Exchange) (s : ServiceSpace) : Prop where
  ids : (granted told).map (·.id) = List.range' 1 s.issued
  ascending : s.entries.Pairwise (·.1 < ·.1)
  live_iff : ∀ h r, Live told h r ↔ (h.id, r) ∈ s.entries ∧ h.interfaces = r.interfaces

theorem Recorded.length_granted (recorded : Recorded told s) : (granted told).length = s.issued := by
  have := congrArg List.length recorded.ids
  rwa [List.length_map, List.length_range'] at this

theorem Recorded.live_of_mem (recorded : Recorded told s) {id : Nat} (hr : (id, r) ∈ s.entries) :
    Live told ⟨id, r.interfaces⟩ r :=
  (recorded.live_iff ⟨id, r.interfaces⟩ r).2 ⟨hr, rfl⟩

theorem Recorded.id_le (recorded : Recorded told s) {entry : Nat × Registration}
    (he : entry ∈ s.entries) : entry.1 ≤ s.issued := by
  have given : entry.1 ∈ (granted told).map (·.id) :=
    List.mem_map.2 ⟨_, (recorded.live_of_mem he).mem_granted, rfl⟩
  rw [recorded.ids, List.mem_range'_1] at given
  omega

theorem recorded_nil : Recorded [] {} where
  ids := rfl
  ascending := .nil
  live_iff h r := by
    refine iff_of_false ?_ (fun held => List.not_mem_nil held.1)
    rintro ⟨before, since, split, _⟩
    simp at split

theorem Recorded.of_entries {t : ServiceSpace} (recorded : Recorded told s)
    (given : e.granted? = none) (kept : ∀ id, e.ends id = false) (entries : t.entries = s.entries)
    (issued : t.issued = s.issued) : Recorded (told ++ [e]) t where
  ids := by
    rw [granted_concat, given, Option.toList_none, List.append_nil, issued]
    exact recorded.ids
  ascending := by
    rw [entries]
    exact recorded.ascending
  live_iff h r := by
    have other : e ≠ ⟨.register r, .ok (some h)⟩ := by
      rintro rfl
      cases given
    rw [live_concat_iff, entries, ← recorded.live_iff h r, kept, eq_self, and_true]
    exact or_iff_right other

theorem Recorded.register (recorded : Recorded told s) (r : Registration) :
    Recorded (told ++ [⟨.register r, .ok (some ⟨s.issued + 1, r.interfaces⟩)⟩])
      { s with entries := s.entries ++ [(s.issued + 1, r)], issued := s.issued + 1 } where
  ids := by
    rw [granted_concat, List.map_append, recorded.ids, List.range'_1_concat, Nat.add_comm 1]
    rfl
  ascending := by
    refine List.pairwise_append.2 ⟨recorded.ascending, List.pairwise_singleton _ _, ?_⟩
    -- Every entry has an id that was given out before.
    intro entry he new hnew
    rw [List.mem_singleton.1 hnew]
    exact Nat.lt_succ_of_le (recorded.id_le he)
  live_iff h q := by
    rw [live_concat_iff, recorded.live_iff, List.mem_append, List.mem_singleton]
    constructor
    · rintro (new | ⟨⟨old, interfaces⟩, _⟩)
      · cases new
        exact ⟨.inr rfl, rfl⟩
      · exact ⟨.inl old, interfaces⟩
    · obtain ⟨id, given⟩ := h
      rintro ⟨old | new, interfaces⟩
      · exact .inr ⟨⟨old, interfaces⟩, rfl⟩
      · obtain ⟨rfl, rfl⟩ := Prod.mk.inj new
        obtain rfl : given = q.interfaces := interfaces
        exact .inl rfl

theorem Recorded.unregister (recorded : Recorded told s) (g : Handle) :
    Recorded (told ++ [⟨.unregister g, .ok none⟩])
      { s with entries := s.entries.filter (·.1 != g.id) } where
  ids := by
    rw [granted_concat]
    exact (congrArg _ (List.append_nil _)).trans recorded.ids
  ascending := recorded.ascending.filter _
  live_iff h r := by
    have other : (⟨.unregister g, .ok none⟩ : Exchange) ≠ ⟨.register r, .ok (some h)⟩ := nofun
    have ended : Exchange.ends h.id ⟨.unregister g, .ok none⟩ = false ↔ h.id ≠ g.id :=
      beq_eq_false_iff_ne.trans ne_comm
    rw [live_concat_iff, recorded.live_iff, or_iff_right other, ended, List.mem_filter, bne_iff_ne,
      and_right_comm]

theorem Recorded.exchange {p : List Exchange × ServiceSpace} (recorded : Recorded p.1 p.2)
    (c : SpaceCommand) : Recorded (exchange p c).1 (exchange p c).2 := by
  obtain ⟨told, s⟩ := p
  unfold ServiceSpace.exchange
  dsimp only at recorded ⊢
  cases c with
  | register r =>
    by_cases nameless : r.interfaces = []
    · rw [perform_register_of_nil nameless]
      exact recorded.of_entries rfl (fun _ => rfl) rfl rfl
    · rw [perform_register_of_ne_nil nameless]
      exact recorded.register r
  | unregister h =>
    cases there : s.contains h.id with
    | true =>
      rw [perform_unregister_of_contains there]
      exact recorded.unregister h
    | false =>
      rw [perform_unregister_of_not_contains there]
      exact recorded.of_entries rfl (fun _ => rfl) rfl rfl
  | imported h reference => exact recorded.of_entries rfl (fun _ => rfl) rfl rfl
  | withdrawn h => exact recorded.of_entries rfl (fun _ => rfl) rfl rfl

theorem recorded_run (commands : List SpaceCommand) : Recorded (run commands).1 (run commands).2 := by
  unfold run
  apply List.foldlRecOn commands exchange (motive := fun p => Recorded p.1 p.2) recorded_nil
  intro p recorded c _
  exact recorded.exchange c

theorem length_run (commands : List SpaceCommand) : (run commands).1.length = commands.length := by
  induction commands using List.reverseRecOn with
  | nil => rfl
  | append_singleton commands c ih =>
    unfold run at ih ⊢
    rw [List.foldl_concat, exchange, List.length_append, ih, List.length_append]
    rfl

/-! ## What a space answers next -/

theorem Recorded.contains_iff (recorded : Recorded told s) {id : Nat} :
    s.contains id = true ↔ ∃ g r, Live told g r ∧ g.id = id := by
  rw [ServiceSpace.contains_iff, List.mem_map]
  constructor
  · rintro ⟨⟨_, r⟩, hr, rfl⟩
    exact ⟨_, r, recorded.live_of_mem hr, rfl⟩
  · rintro ⟨g, r, live, rfl⟩
    exact ⟨_, ((recorded.live_iff g r).1 live).1, rfl⟩

theorem Recorded.unregister_ok_iff (recorded : Recorded told s) :
    (s.perform (.unregister h)).1 = .ok none ↔ ∃ g r, Live told g r ∧ g.id = h.id := by
  rw [← recorded.contains_iff]
  cases there : s.contains h.id with
  | true => simp [perform_unregister_of_contains there]
  | false => simp [perform_unregister_of_not_contains there]

theorem Recorded.mem_find_iff (recorded : Recorded told s) {i : String} :
    h ∈ s.find i ↔ ∃ r, Live told h r ∧ i ∈ r.interfaces := by
  unfold find
  rw [List.mem_map]
  constructor
  · rintro ⟨⟨id, r⟩, hr, rfl⟩
    obtain ⟨there, under⟩ := List.mem_filter.1 hr
    exact ⟨r, recorded.live_of_mem there, List.contains_iff_mem.1 under⟩
  · rintro ⟨r, live, under⟩
    obtain ⟨there, interfaces⟩ := (recorded.live_iff h r).1 live
    refine ⟨(h.id, r), List.mem_filter.2 ⟨there, List.contains_iff_mem.2 under⟩, ?_⟩
    exact congrArg (Handle.mk h.id) interfaces.symm

theorem Recorded.find_ascending (recorded : Recorded told s) (i : String) :
    (s.find i).Pairwise (·.id < ·.id) :=
  List.pairwise_map.2 (recorded.ascending.filter _)

/-! ## Every run -/

/-- Whatever a space was asked: the ids that it gave out ascend, one after another from one on, and
64 bits hold them as long as they hold the number of calls. A registration without interfaces is
refused, changes nothing and uses no id. An id can be unregistered when it is live, that is given
out and not unregistered since; otherwise this fails and changes nothing. To note an import or to
forget it leaves the registrations. Under an interface are found the handles of all live
registrations with that interface, in the order of their ids. -/
theorem run_exact (commands : List SpaceCommand) :
    let told := (run commands).1
    let s := (run commands).2
    (granted told).Pairwise (·.id < ·.id) ∧
    (granted told).map (·.id) = List.range' 1 (granted told).length ∧
    (commands.length < UInt64.size → ∀ h ∈ granted told, h.id < UInt64.size) ∧
    (∀ r, r.interfaces = [] → s.perform (.register r) =
      (.error (.serviceSpace "no interfaces to register under"), s)) ∧
    (∀ r, r.interfaces ≠ [] → (s.perform (.register r)).1 =
      .ok (some ⟨(granted told).length + 1, r.interfaces⟩)) ∧
    (∀ h, (s.perform (.unregister h)).1 = .ok none ↔ ∃ g r, Live told g r ∧ g.id = h.id) ∧
    (∀ h, (¬ ∃ g r, Live told g r ∧ g.id = h.id) →
      s.perform (.unregister h) = (.error (.alreadyUnregistered h.id), s)) ∧
    (∀ h reference, ∃ imports, (s.perform (.imported h reference)).2 = { s with imports }) ∧
    (∀ h, ∃ imports, (s.perform (.withdrawn h)).2 = { s with imports }) ∧
    ∀ i, (s.find i).Pairwise (·.id < ·.id) ∧
      ∀ h, h ∈ s.find i ↔ ∃ r, Live told h r ∧ i ∈ r.interfaces := by
  intro told s
  have recorded : Recorded told s := recorded_run commands
  refine ⟨?_, ?_, ?_, fun r => perform_register_of_nil, ?_, fun h => recorded.unregister_ok_iff, ?_,
    fun h reference => ⟨_, rfl⟩, fun h => ⟨_, rfl⟩,
    fun i => ⟨recorded.find_ascending i, fun h => recorded.mem_find_iff⟩⟩
  · rw [← List.pairwise_map, recorded.ids]
    exact List.pairwise_lt_range'
  · rw [recorded.length_granted]
    exact recorded.ids
  · intro few h given
    have id : h.id ∈ (granted told).map (·.id) := List.mem_map_of_mem given
    have most : (granted told).length ≤ told.length := List.length_filterMap_le _ _
    rw [recorded.ids, List.mem_range'_1, ← recorded.length_granted] at id
    rw [length_run] at most
    omega
  · intro r named
    rw [perform_register_of_ne_nil named, recorded.length_granted]
  · intro h ended
    rw [← recorded.contains_iff, Bool.not_eq_true] at ended
    exact perform_unregister_of_not_contains ended

/-- The id of the lamp is not given out again after the lamp is gone, and not to a registration that
was refused. -/
theorem run_exact_lampGone :
    let lamp : Registration := ⟨["Lamp"], .empty, ⟨1, ⟨"home", "lamps"⟩, .empty⟩⟩
    let door : Registration := ⟨["Door", "Lamp"], .empty, ⟨2, ⟨"home", "lamps"⟩, .empty⟩⟩
    let nameless : Registration := ⟨[], .empty, ⟨3, ⟨"home", "lamps"⟩, .empty⟩⟩
    let commands : List SpaceCommand := [.register lamp, .register nameless, .register door,
      .unregister ⟨1, ["Lamp"]⟩]
    let told := (run commands).1
    let s := (run commands).2
    commands.length < UInt64.size ∧ (∀ h ∈ granted told, h.id < UInt64.size) ∧
      Live told ⟨2, ["Door", "Lamp"]⟩ door ∧ ⟨2, ["Door", "Lamp"]⟩ ∈ s.find "Lamp" ∧
      (s.perform (.register lamp)).1 = .ok (some ⟨3, ["Lamp"]⟩) ∧
      s.perform (.register nameless) =
        (.error (.serviceSpace "no interfaces to register under"), s) ∧
      s.perform (.unregister ⟨1, ["Lamp"]⟩) = (.error (.alreadyUnregistered 1), s) := by
  intro lamp door nameless commands told s
  obtain ⟨_, _, bound, refused, taken, removable, gone, _, _, found⟩ := run_exact commands
  have few : commands.length < UInt64.size := by decide
  have live : Live told ⟨2, ["Door", "Lamp"]⟩ door :=
    ⟨[⟨.register lamp, .ok (some ⟨1, ["Lamp"]⟩)⟩,
      ⟨.register nameless, .error (.serviceSpace "no interfaces to register under")⟩],
     [⟨.unregister ⟨1, ["Lamp"]⟩, .ok none⟩], rfl, by simp [Exchange.ends]⟩
  have lampGone : ¬ ∃ g r, Live told g r ∧ g.id = 1 := by
    intro there
    cases (removable ⟨1, ["Lamp"]⟩).2 there
  exact ⟨few, bound few, live, ((found "Lamp").2 _).2 ⟨door, live, by decide⟩,
    taken lamp (by decide), refused nameless rfl, gone ⟨1, ["Lamp"]⟩ lampGone⟩

end ServiceSpace

end ServiceImport

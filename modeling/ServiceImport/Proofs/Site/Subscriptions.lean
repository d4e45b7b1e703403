import ServiceImport.Proofs.Site.Strides

/-! # Who listens

The importer listens on adapters for its records, and for the import that is under way. Each of its
listeners belongs to one of them and hears of removals for its container.
-/

namespace ServiceImport

/-! ## Owners -/

/-- The subscription that a record owns, and the container it is about. -/
def Record.owned? (r : Record) : Option (Subscription × ContainerId) :=
  r.subscription.map fun x => (x, r.key.container)

theorem Record.owned?_eq_some_iff {r : Record} {x : Subscription} {c : ContainerId} :
    r.owned? = some (x, c) ↔ r.subscription = some x ∧ r.key.container = c := by
  unfold owned?
  rw [Option.map_eq_some_iff]
  constructor
  · rintro ⟨y, hy, heq⟩
    obtain ⟨rfl, rfl⟩ := Prod.mk.inj heq
    exact ⟨hy, rfl⟩
  · rintro ⟨hx, rfl⟩
    exact ⟨x, hx, rfl⟩

namespace Ledger

def owned (l : Ledger) : List (Subscription × ContainerId) := l.records.filterMap Record.owned?

theorem owned_join (l : Ledger) (key : RecordKey) (mapping : Reference × Handle) :
    (l.join key mapping).owned = l.owned := by
  unfold owned join
  rw [List.filterMap_map]
  congr 1
  funext r
  dsimp only [Function.comp]
  split
  · rfl
  · rfl

/-- A record that is made takes the subscription, and any other leaves it. -/
theorem owned_register {l l' : Ledger} {e : Endpoint} {c : ContainerId} {r : Reference} {h : Handle}
    {x : Option Subscription} {a : Admission} (ok : l.register e c r h x = .ok (a, l')) :
    (a = .created ∧ l'.owned = l.owned ++ (x.map fun y => (y, c)).toList) ∨
      (a = .joined ∧ l'.owned = l.owned) := by
  obtain ⟨_, ⟨rfl, _, rfl⟩ | ⟨rfl, _, rfl⟩⟩ := register_ok ok
  · exact .inr ⟨rfl, owned_join l _ _⟩
  · refine .inl ⟨rfl, ?_⟩
    unfold owned
    rw [List.filterMap_append]
    cases x <;> rfl

theorem owned_withdrawReference (l : Ledger) (c : ContainerId) (reference : Nat) :
    (l.withdrawReference c reference).2.owned =
      (l.records.filter (!emptiedBy c reference ·)).filterMap Record.owned? := by
  unfold owned withdrawReference
  dsimp only
  rw [List.filterMap_map]
  congr 1
  funext r
  dsimp only [Function.comp]
  split
  · rfl
  · rfl

end Ledger

namespace Site

variable {s t : Site} {x y : Subscription} {l : Listener} {key : String}

/-! ## Listeners -/

/-- Whether a listener has a place on an adapter. -/
def listens (s : Site) (x : Subscription) (l : Listener) : Prop :=
  ∃ a, s.audience x.adapter = some a ∧ (x.id, l) ∈ a.1

/-- How many listeners an adapter ever had. -/
def subscribed (s : Site) (key : String) : Nat := ((s.audience key).map (·.2)).getD 0

theorem audience_unsubscribe (y : Subscription) (s : Site) (key : String) :
    (s.unsubscribe y).audience key =
      if key = y.adapter then (s.audience key).map fun a => (a.1.filter (·.1 != y.id), a.2)
      else s.audience key := by
  unfold audience unsubscribe
  rw [adapter?_updateAdapter]
  split
  · rw [Option.map_map, Option.map_map]
    rfl
  · rfl

theorem listens_unsubscribe : (s.unsubscribe y).listens x l ↔ s.listens x l ∧ y ≠ x := by
  unfold listens
  rw [audience_unsubscribe]
  by_cases hadapter : x.adapter = y.adapter
  · rw [if_pos hadapter]
    have other : y ≠ x ↔ x.id ≠ y.id := by
      constructor
      · rintro hne hid
        apply hne
        cases x
        cases y
        simp_all
      · rintro hid rfl
        exact hid rfl
    rw [other]
    constructor
    · rintro ⟨a, ha, hmem⟩
      obtain ⟨b, hb, rfl⟩ := Option.map_eq_some_iff.1 ha
      obtain ⟨hmem, hne⟩ := List.mem_filter.1 hmem
      exact ⟨⟨b, hb, hmem⟩, by simpa using hne⟩
    · rintro ⟨⟨b, hb, hmem⟩, hne⟩
      exact ⟨_, Option.map_eq_some_iff.2 ⟨b, hb, rfl⟩, List.mem_filter.2 ⟨hmem, by simpa using hne⟩⟩
  · rw [if_neg hadapter, and_iff_left]
    rintro rfl
    exact hadapter rfl

theorem listens_cancel {o : Option Subscription} :
    (s.cancel o).listens x l ↔ s.listens x l ∧ o ≠ some x := by
  cases o with
  | none => simp [cancel]
  | some y =>
    unfold cancel
    rw [listens_unsubscribe, ne_eq, ne_eq, Option.some.injEq]

theorem listens_cancelAll {records : List Record} :
    (cancelAll records s).listens x l ↔ s.listens x l ∧ ∀ r ∈ records, r.subscription ≠ some x := by
  unfold cancelAll
  induction records generalizing s with
  | nil => simp
  | cons r records ih =>
    rw [List.foldl_cons, ih, listens_cancel, List.forall_mem_cons, and_assoc]

theorem subscribed_cancel (o : Option Subscription) (s : Site) (key : String) :
    (s.cancel o).subscribed key = s.subscribed key := by
  cases o with
  | none => rfl
  | some y =>
    unfold cancel subscribed
    dsimp only
    rw [audience_unsubscribe]
    split
    · rw [Option.map_map]
      rfl
    · rfl

theorem subscribed_cancelAll (records : List Record) (s : Site) (key : String) :
    (cancelAll records s).subscribed key = s.subscribed key := by
  unfold cancelAll
  induction records generalizing s with
  | nil => rfl
  | cons r records ih => rw [List.foldl_cons, ih, subscribed_cancel]

theorem fst_subscribe (key : String) (l : Listener) (s : Site) :
    (s.subscribe key l).1 = (s.audience key).map fun a => ⟨key, a.2 + 1⟩ := by
  unfold subscribe audience
  cases s.adapter? key <;> rfl

theorem audience_subscribe (key : String) (l : Listener) (s : Site) (k : String) :
    (s.subscribe key l).2.audience k =
      if k = key then (s.audience k).map fun a => (a.1 ++ [(a.2 + 1, l)], a.2 + 1)
      else s.audience k := by
  unfold subscribe
  split
  · next hnone =>
    split
    · next hk =>
      subst hk
      unfold audience
      rw [hnone]
      rfl
    · rfl
  · next a there =>
    unfold audience
    dsimp only
    rw [adapter?_updateAdapter]
    split
    · next hk =>
      subst hk
      rw [there]
      rfl
    · rfl

theorem listens_subscribe {m : Listener} :
    (s.subscribe key m).2.listens x l ↔
      s.listens x l ∨ ((s.subscribe key m).1 = some x ∧ l = m) := by
  unfold listens
  rw [audience_subscribe, fst_subscribe]
  by_cases hkey : x.adapter = key
  · subst hkey
    rw [if_pos rfl]
    cases haudience : s.audience x.adapter with
    | none => simp
    | some a =>
      have place : (⟨x.adapter, a.2 + 1⟩ : Subscription) = x ↔ x.id = a.2 + 1 := by
        cases x
        simp [eq_comm]
      simp [place]
  · rw [if_neg hkey]
    constructor
    · exact .inl
    · rintro (old | ⟨new, _⟩)
      · exact old
      · obtain ⟨a, _, rfl⟩ := Option.map_eq_some_iff.1 new
        exact absurd rfl hkey

theorem subscribed_subscribe (m : Listener) (s : Site) (k : String) :
    s.subscribed k ≤ (s.subscribe key m).2.subscribed k := by
  unfold subscribed
  rw [audience_subscribe]
  split
  · cases s.audience k <;> simp
  · exact Nat.le_refl _

theorem id_of_subscribe {m : Listener} (h : (s.subscribe key m).1 = some x) :
    x.adapter = key ∧ x.id = s.subscribed key + 1 ∧
      (s.subscribe key m).2.subscribed key = s.subscribed key + 1 := by
  rw [fst_subscribe] at h
  obtain ⟨a, ha, rfl⟩ := Option.map_eq_some_iff.1 h
  unfold subscribed
  rw [audience_subscribe, if_pos rfl, ha]
  exact ⟨rfl, rfl, rfl⟩

/-! ## Every listener has an owner -/

/-- The owners of one subscription are records, and operations that have it at hand. While the
importer listens with it, it has one, and never more. While it is kept, whoever owns it listens. -/
structure Tended (kept : Prop) (x : Subscription) (held : List (Subscription × ContainerId))
    (s : Site) : Prop where
  issued : ∀ {l}, s.listens x l → x.id ≤ s.subscribed x.adapter
  given : ∀ {c}, (x, c) ∈ held ++ s.ledger.owned → x.id ≤ s.subscribed x.adapter
  owned : ∀ {c}, s.listens x (.importer c) → (x, c) ∈ held ++ s.ledger.owned
  once : ((held ++ s.ledger.owned).map (·.1)).count x ≤ 1
  heard : kept → ∀ {c}, (x, c) ∈ held ++ s.ledger.owned → s.listens x (.importer c)

/-- The importer's listeners are those of its records, and those that some operation has at hand. -/
structure Attended (held : List (Subscription × ContainerId)) (s : Site) : Prop where
  issued : ∀ {x l}, s.listens x l → x.id ≤ s.subscribed x.adapter
  owned : ∀ {x c}, s.listens x (.importer c) ↔ (x, c) ∈ held ++ s.ledger.owned
  distinct : ((held ++ s.ledger.owned).map (·.1)).Nodup

variable {kept : Prop} {held held' : List (Subscription × ContainerId)}

theorem attended_iff : Attended held s ↔ ∀ x, Tended True x held s := by
  constructor
  · intro a x
    exact ⟨a.issued, fun h => a.issued (a.owned.2 h), a.owned.1,
      List.nodup_iff_count_le_one.1 a.distinct x, fun _ _ => a.owned.2⟩
  · intro h
    exact ⟨(h _).issued, ⟨(h _).owned, (h _).heard trivial⟩,
      List.nodup_iff_count_le_one.2 fun x => (h x).once⟩

theorem Tended.of_perm (h : Tended kept x held s) (audience : t.audience = s.audience)
    (perm : (held' ++ t.ledger.owned).Perm (held ++ s.ledger.owned)) : Tended kept x held' t := by
  have listens {l} : t.listens x l ↔ s.listens x l := by
    unfold Site.listens
    rw [audience]
  have subscribed : t.subscribed x.adapter = s.subscribed x.adapter := by
    unfold Site.subscribed
    rw [audience]
  refine ⟨?_, ?_, ?_, ?_, ?_⟩
  · rw [subscribed]
    exact fun hl => h.issued (listens.1 hl)
  · rw [subscribed]
    exact fun hmem => h.given (perm.mem_iff.1 hmem)
  · exact fun hl => perm.mem_iff.2 (h.owned (listens.1 hl))
  · rw [(perm.map _).count_eq]
    exact h.once
  · exact fun keep _ hmem => listens.2 (h.heard keep (perm.mem_iff.1 hmem))

theorem Tended.of_eq (h : Tended kept x held s) (audience : t.audience = s.audience)
    (ledger : t.ledger = s.ledger) : Tended kept x held t :=
  h.of_perm audience (ledger ▸ List.Perm.refl _)

theorem count_pos_iff_mem {owners : List (Subscription × ContainerId)} :
    0 < (owners.map (·.1)).count x ↔ ∃ c, (x, c) ∈ owners := by
  rw [List.count_pos_iff, List.mem_map]
  constructor
  · rintro ⟨⟨_, c⟩, hmem, rfl⟩
    exact ⟨c, hmem⟩
  · rintro ⟨c, hmem⟩
    exact ⟨(x, c), hmem, rfl⟩

theorem mem_toList_iff {o : Option Subscription} {c d : ContainerId} :
    (x, d) ∈ (o.map fun y => (y, c)).toList ↔ o = some x ∧ d = c := by
  rw [Option.mem_toList, Option.map_eq_some_iff]
  constructor
  · rintro ⟨y, rfl, heq⟩
    obtain ⟨rfl, rfl⟩ := Prod.mk.inj heq
    exact ⟨rfl, rfl⟩
  · rintro ⟨rfl, rfl⟩
    exact ⟨x, rfl, rfl⟩

theorem count_toList {o : Option Subscription} {c : ContainerId} :
    ((o.map fun y => (y, c)).toList.map (·.1)).count x = if o = some x then 1 else 0 := by
  cases o with
  | none => rfl
  | some y => simp [List.count_singleton]

theorem Tended.dispose (h : Tended kept x held s) (p : Record → Bool) {ledger : Ledger}
    (rest : ledger.owned = (s.ledger.records.filter (!p ·)).filterMap Record.owned?) :
    Tended kept x held (cancelAll (s.ledger.records.filter p) { s with ledger }) := by
  obtain ⟨gone, hgone⟩ : ∃ gone, gone = (s.ledger.records.filter p).filterMap Record.owned? :=
    ⟨_, rfl⟩
  have perm : (held ++ s.ledger.owned).Perm (gone ++ (held ++ ledger.owned)) := by
    have split : s.ledger.owned.Perm (gone ++ ledger.owned) := by
      rw [hgone, rest, ← List.filterMap_append]
      exact (List.filter_append_perm p s.ledger.records).symm.filterMap _
    exact (split.append_left held).trans (List.perm_append_comm_assoc _ _ _)
  have once := h.once
  rw [(perm.map _).count_eq, List.map_append, List.count_append] at once
  have old {c} : (x, c) ∈ held ++ ledger.owned → (x, c) ∈ held ++ s.ledger.owned := fun hmem =>
    perm.mem_iff.2 (List.mem_append_right _ hmem)
  have cancelled : (∀ r ∈ s.ledger.records.filter p, r.subscription ≠ some x) ↔
      x ∉ gone.map (·.1) := by
    rw [hgone]
    constructor
    · rintro none hx
      obtain ⟨⟨y, c⟩, hy, rfl⟩ := List.mem_map.1 hx
      obtain ⟨r, hr, hown⟩ := List.mem_filterMap.1 hy
      exact none r hr (Record.owned?_eq_some_iff.1 hown).1
    · intro none r hr hx
      exact none (List.mem_map.2 ⟨(x, r.key.container),
        List.mem_filterMap.2 ⟨r, hr, Record.owned?_eq_some_iff.2 ⟨hx, rfl⟩⟩, rfl⟩)
  have ledger' : (cancelAll (s.ledger.records.filter p) { s with ledger }).ledger = ledger := by
    rw [cancelAll_eq]
  refine ⟨?_, ?_, ?_, ?_, ?_⟩
  · intro l hl
    rw [subscribed_cancelAll]
    exact h.issued (listens_cancelAll.1 hl).1
  · intro c hmem
    rw [ledger'] at hmem
    rw [subscribed_cancelAll]
    exact h.given (old hmem)
  · intro c hl
    rw [listens_cancelAll, cancelled] at hl
    rw [ledger']
    exact (List.mem_append.1 (perm.mem_iff.1 (h.owned hl.1))).resolve_left fun hmem =>
      hl.2 (List.mem_map_of_mem (f := (·.1)) hmem)
  · rw [ledger']
    omega
  · intro keep c hmem
    rw [ledger'] at hmem
    rw [listens_cancelAll, cancelled]
    refine ⟨h.heard keep (old hmem), fun hx => ?_⟩
    -- No other record that goes owns the subscription.
    have := count_pos_iff_mem.2 ⟨c, hmem⟩
    have := List.count_pos_iff.2 hx
    omega

theorem Tended.subscribe {c : ContainerId} (h : Tended kept x [] s) (key : String) :
    Tended kept x ((s.subscribe key (.importer c)).1.map fun y => (y, c)).toList
      (s.subscribe key (.importer c)).2 := by
  have ledger : (s.subscribe key (.importer c)).2.ledger = s.ledger := by rw [subscribe_eq]
  obtain ⟨new, hnew⟩ : ∃ new, new = (s.subscribe key (.importer c)).1 := ⟨_, rfl⟩
  have mem {d} : (x, d) ∈ (new.map fun y => (y, c)).toList ++ s.ledger.owned ↔
      (new = some x ∧ d = c) ∨ (x, d) ∈ s.ledger.owned := by
    rw [List.mem_append, mem_toList_iff]
  have mono : s.subscribed x.adapter ≤ (s.subscribe key (.importer c)).2.subscribed x.adapter :=
    subscribed_subscribe _ s _
  refine ⟨?_, ?_, ?_, ?_, ?_⟩
  · intro l hl
    rcases listens_subscribe.1 hl with hl | ⟨hl, _⟩
    · exact Nat.le_trans (h.issued hl) mono
    · obtain ⟨rfl, hid, hcount⟩ := id_of_subscribe hl
      omega
  · intro d hmem
    rw [ledger, ← hnew] at hmem
    rcases mem.1 hmem with ⟨hx, _⟩ | hmem
    · obtain ⟨rfl, hid, hcount⟩ := id_of_subscribe (hnew ▸ hx)
      omega
    · exact Nat.le_trans (h.given hmem) mono
  · intro d hl
    rw [ledger, ← hnew, mem]
    rcases listens_subscribe.1 hl with hl | ⟨hx, heq⟩
    · exact .inr (h.owned hl)
    · exact .inl ⟨hnew ▸ hx, Listener.importer.inj heq⟩
  · have once := h.once
    rw [List.nil_append] at once
    rw [ledger, ← hnew, List.map_append, List.count_append, count_toList]
    split
    · next hx =>
      -- Adapters count their listeners, so that a new one has a number that none had before.
      have fresh : ¬ 0 < (s.ledger.owned.map (·.1)).count x := by
        rw [count_pos_iff_mem]
        rintro ⟨d, hmem⟩
        have := h.given hmem
        obtain ⟨rfl, hid, _⟩ := id_of_subscribe (hnew ▸ hx)
        omega
      omega
    · omega
  · intro keep d hmem
    rw [ledger, ← hnew, mem] at hmem
    rw [listens_subscribe, ← hnew]
    rcases hmem with ⟨hx, rfl⟩ | hmem
    · exact .inr ⟨hx, rfl⟩
    · exact .inl (h.heard keep hmem)

theorem Tended.observe (h : Tended kept x held s) (key label : String) :
    Tended kept x held (s.subscribe key (.recorder label)).2 := by
  have ledger : (s.subscribe key (.recorder label)).2.ledger = s.ledger := by rw [subscribe_eq]
  have mono : s.subscribed x.adapter ≤ (s.subscribe key (.recorder label)).2.subscribed x.adapter :=
    subscribed_subscribe _ s _
  refine ⟨?_, ?_, ?_, ledger ▸ h.once, ?_⟩
  · intro l hl
    rcases listens_subscribe.1 hl with hl | ⟨hl, _⟩
    · exact Nat.le_trans (h.issued hl) mono
    · obtain ⟨rfl, hid, hcount⟩ := id_of_subscribe hl
      omega
  · rw [ledger]
    exact fun hmem => Nat.le_trans (h.given hmem) mono
  · intro c hl
    rw [ledger]
    rcases listens_subscribe.1 hl with hl | ⟨_, heq⟩
    · exact h.owned hl
    · cases heq
  · intro keep c hmem
    rw [ledger] at hmem
    exact listens_subscribe.2 (.inl (h.heard keep hmem))

theorem Tended.silence {o : Option Subscription} (h : Tended kept x held s)
    (other : kept → o ≠ some x) : Tended kept x held (s.cancel o) := by
  have ledger : (s.cancel o).ledger = s.ledger := by rw [cancel_eq]
  refine ⟨?_, ?_, ?_, ledger ▸ h.once, ?_⟩
  · rw [subscribed_cancel]
    exact fun hl => h.issued (listens_cancel.1 hl).1
  · rw [subscribed_cancel, ledger]
    exact h.given
  · rw [ledger]
    exact fun hl => h.owned (listens_cancel.1 hl).1
  · rw [ledger]
    exact fun keep _ hmem => listens_cancel.2 ⟨h.heard keep hmem, other keep⟩

theorem Tended.cancel {o : Option Subscription} {c : ContainerId}
    (h : Tended kept x (o.map fun y => (y, c)).toList s) : Tended kept x [] (s.cancel o) := by
  have ledger : (s.cancel o).ledger = s.ledger := by rw [cancel_eq]
  have once := h.once
  rw [List.map_append, List.count_append, count_toList] at once
  have old {d} : (x, d) ∈ s.ledger.owned →
      (x, d) ∈ (o.map fun y => (y, c)).toList ++ s.ledger.owned := List.mem_append_right _
  refine ⟨?_, ?_, ?_, ?_, ?_⟩
  · rw [subscribed_cancel]
    exact fun hl => h.issued (listens_cancel.1 hl).1
  · rw [subscribed_cancel, ledger]
    exact fun hmem => h.given (old hmem)
  · intro d hl
    obtain ⟨hl, hne⟩ := listens_cancel.1 hl
    rw [ledger]
    exact (List.mem_append.1 (h.owned hl)).resolve_left fun hmem => hne (mem_toList_iff.1 hmem).1
  · rw [ledger, List.nil_append]
    omega
  · intro keep d hmem
    rw [ledger, List.nil_append] at hmem
    refine listens_cancel.2 ⟨h.heard keep (old hmem), fun ho => ?_⟩
    -- Otherwise both the operation and a record own it.
    have := count_pos_iff_mem.2 ⟨d, hmem⟩
    rw [if_pos ho] at once
    omega

/-! ## Steps -/

theorem Loss.tended {m n : Dealing} (loss : Loss m n) (h : Tended kept x held m.site) :
    Tended kept x held n.site := by
  cases loss with
  | remark e _ => exact h.of_eq rfl rfl
  | place locations => exact h.of_eq rfl rfl
  | @withdrawEndpoint s hand endpointId =>
    refine h.dispose (·.key.endpointId == endpointId) ?_
    simp only [Ledger.owned, Ledger.withdrawEndpoint, bne]
  | withdrawReference c reference =>
    exact h.dispose (Ledger.emptiedBy c reference) (Ledger.owned_withdrawReference _ c reference)
  | @clear s hand _ =>
    have all := @Tended.dispose s x kept held h (fun _ => true) {} (by simp [Ledger.owned])
    rwa [List.filter_eq_self.2 fun _ _ => rfl] at all
  | @tearDown s rest x mapping =>
    obtain ⟨fault, _, _, heq⟩ := tearDownOne_eq s mapping.2
    dsimp only
    rw [heq]
    exact h.of_eq rfl rfl

theorem Losses.tended {m n : Dealing} (losses : Losses m n) (h : Tended kept x held m.site) :
    Tended kept x held n.site := by
  induction losses with
  | refl => exact h
  | tail _ loss ih => exact loss.tended ih

theorem Aside.tended (h : Aside s t) (tended : Tended kept x held s) : Tended kept x held t :=
  tended.of_eq h.adapters.audience h.ledger

theorem Tended.register {c : Candidate} {o : Option Subscription}
    (tended : Tended kept x (o.map fun y => (y, c.id)).toList s) (r : Resolution)
    (reference : Reference) (properties : Properties) (h : Handle) (store : ServiceSpace)
    {i : Importing} (result : i = s.recordRegistered r c o reference properties h store) :
    Tended kept x (i.subscription.map fun y => (y, c.id)).toList i.site := by
  obtain ⟨adapters, _, _, _, ⟨admission, ok, left, _, _⟩ | ⟨ledger, left, _, _⟩⟩ :=
    importing_recordRegistered r c o reference properties h store s result
  · have audience := (KeepsAdapters.of_eq adapters).audience
    rw [left]
    rcases Ledger.owned_register ok with ⟨rfl, owned⟩ | ⟨rfl, owned⟩
    · refine tended.of_perm audience ?_
      rw [owned]
      simp only [Option.map_none, Option.toList_none, List.nil_append]
      exact List.perm_append_comm
    · refine tended.of_perm audience ?_
      rw [owned]
  · rw [left]
    exact tended.of_eq (KeepsAdapters.of_eq adapters).audience ledger

theorem Tended.record (tended : Tended kept x held s) (e : Endpoint) (c : ContainerId)
    (reference : Reference) (h : Handle) {o : Option Subscription} (other : o ≠ some x) :
    Tended kept x held (s.record e c reference h o).2 := by
  rw [record_eq]
  split
  · exact tended.silence fun _ => other
  · next ledger ok =>
    rcases Ledger.owned_register ok with ⟨_, owned⟩ | ⟨joined, _⟩
    · have mem {d} : (x, d) ∈ held ++ ledger.owned ↔ (x, d) ∈ held ++ s.ledger.owned := by
        rw [owned, ← List.append_assoc, List.mem_append, or_iff_left]
        exact fun hmem => other (mem_toList_iff.1 hmem).1
      have count : ((held ++ ledger.owned).map (·.1)).count x =
          ((held ++ s.ledger.owned).map (·.1)).count x := by
        rw [owned, ← List.append_assoc, List.map_append, List.count_append, count_toList,
          if_neg other, Nat.add_zero]
      exact ⟨tended.issued, fun hmem => tended.given (mem.1 hmem),
        fun hl => mem.2 (tended.owned hl), count ▸ tended.once,
        fun keep _ hmem => tended.heard keep (mem.1 hmem)⟩
    · cases joined
  · next ledger ok =>
    have taken : Tended kept x held { s with ledger } := by
      rcases Ledger.owned_register ok with ⟨created, _⟩ | ⟨_, owned⟩
      · cases created
      · refine tended.of_perm rfl ?_
        dsimp only
        rw [owned]
    exact taken.silence fun _ => other

def Phase.owned : Phase → List (Subscription × ContainerId)
  | .importing _ c x | .registering _ c x _ _ => (x.map fun y => (y, c.id)).toList
  | .idle | .resolving _ | .feeding _ => []

theorem Phase.owned_eq_nil {p : Phase} (h : p.isImporting = false) : p.owned = [] := by
  cases p <;> first | rfl | cases h

variable {allowed : Command → Prop}

theorem Tended.meddle (tended : Tended kept x held s) {c : Command} (h : c.isMeddling = true)
    (foreign : ∀ e d r a, c ≠ .record e d r a (some x)) (keeps : kept → c ≠ .unsubscribe x) :
    Tended kept x held (s.perform c) := by
  cases c with
  | unregister a =>
    unfold perform
    dsimp only
    split
    · exact tended.of_eq rfl rfl
    · exact tended
  | noteImport _ _ | forgetImport _ => exact tended.of_eq rfl rfl
  | record e d r a o =>
    refine tended.record e d r a ?_
    rintro rfl
    exact foreign e d r a rfl
  | unrecordEndpoint e =>
    exact tended.dispose (·.key.endpointId == e.id) rfl
  | unrecordReference c reference =>
    exact tended.dispose (Ledger.emptiedBy c reference)
      (Ledger.owned_withdrawReference _ c reference)
  | observe key label => exact tended.observe key label
  | unsubscribe y =>
    refine tended.silence (o := some y) ?_
    rintro keep heq
    exact keeps keep (congrArg Command.unsubscribe (Option.some.inj heq))
  | _ => cases h

theorem Stride.tended (foreign : ∀ e d r a, ¬ allowed (.record e d r a (some x)))
    (keeps : kept → ¬ allowed (.unsubscribe x)) {m n : Moment} (stride : Stride allowed m n)
    (h : Tended kept x m.phase.owned m.site) : Tended kept x n.phase.owned n.site := by
  cases stride with
  | lose aside losses => exact Losses.tended (losses {}) (aside.tended h)
  | turn aside before after =>
    dsimp only at h ⊢
    rw [Phase.owned_eq_nil before] at h
    rw [Phase.owned_eq_nil after]
    exact aside.tended h
  | @withdraw s p key reference adapter removal there _ =>
    have withdrawn : Tended kept x p.owned (s.withdrawn key reference) :=
      h.of_eq (audience_withPublished key _ s) rfl
    exact @Losses.tended x kept p.owned ⟨_, {}⟩ ⟨_, {}⟩ (losses_deliver _ removal _) withdrawn
  | @meddle s p c ok hc =>
    refine h.meddle hc ?_ ?_
    · rintro e d r a rfl
      exact foreign e d r a ok
    · rintro keep rfl
      exact keeps keep ok
  | subscribe c _ => exact (h.subscribe c.adapter).of_eq rfl rfl
  | @prepare s _ _ c _ reference _ aside _ =>
    exact aside.tended (h.of_eq rfl rfl)
  | refuse => exact h.of_eq rfl rfl
  | fault => exact h
  | register ok => exact h.register _ _ _ _ _ rfl
  | unsubscribe => exact h.cancel

theorem Stride.attended (inside : ∀ c, allowed c → c.bypassesImporter = false)
    (own : ∀ x, ¬ allowed (.unsubscribe x)) {m n : Moment} (stride : Stride allowed m n)
    (a : Attended m.phase.owned m.site) : Attended n.phase.owned n.site := by
  rw [attended_iff] at a ⊢
  intro x
  refine stride.tended ?_ (fun _ => own x) (a x)
  intro e d r h ok
  cases inside _ ok

/-! ## Every run -/

theorem silent_installAll (installations : List Installation) (s : Site)
    (silent : ∀ e ∈ s.adapters, e.2.listeners = []) :
    ∀ e ∈ (installations.foldl install s).adapters, e.2.listeners = [] := by
  induction installations generalizing s with
  | nil => exact silent
  | cons i installations ih =>
    refine ih _ ?_
    intro e he
    rcases List.mem_append.1 he with he | he
    · exact silent e he
    · rw [Option.mem_toList, Option.map_eq_some_iff] at he
      obtain ⟨b, _, rfl⟩ := he
      rfl

theorem silent_build {b : Blueprint} (h : Site.build b = .ok s) :
    ∀ e ∈ s.adapters, e.2.listeners = [] := by
  unfold build at h
  split at h
  · cases h
  · dsimp only at h
    split at h
    · obtain rfl := Except.ok.inj h
      exact silent_installAll _ _ (by simp)
    · obtain rfl := Except.ok.inj h
      exact silent_installAll _ _ (by simp)

theorem audience_build {b : Blueprint} (h : Site.build b = .ok s) {key : String}
    {a : List (Nat × Listener) × Nat} (ha : s.audience key = some a) : a.1 = [] := by
  obtain ⟨adapter, there, rfl⟩ := Option.map_eq_some_iff.1 ha
  obtain ⟨before, after, adapters, _⟩ := List.lookup_eq_some_iff.1 there
  exact silent_build h (key, adapter) (by rw [adapters]; simp)

theorem attended_build {b : Blueprint} (h : Site.build b = .ok s) : Attended [] s := by
  have ledger : s.ledger = {} := by rw [(build_eq h).1]
  have none {x l} : ¬ s.listens x l := by
    rintro ⟨a, ha, hmem⟩
    rw [audience_build h ha] at hmem
    cases hmem
  refine ⟨fun h => absurd h none, ?_, ?_⟩
  · intro x c
    rw [ledger]
    simp [none, Ledger.owned]
  · rw [ledger]
    simp [Ledger.owned]

/-- A subscription that nobody else hands to the ledger has one owner at most, and has one while the
importer listens with it. -/
theorem Reachable.tended (h : Reachable allowed s)
    (foreign : ∀ e d r a, ¬ allowed (.record e d r a (some x))) :
    Tended (¬ allowed (.unsubscribe x)) x [] s := by
  refine (h.invariant (I := fun m => Tended (¬ allowed (.unsubscribe x)) x m.phase.owned m.site) ?_
    fun coherent change tended => (change.stride coherent).tended foreign id tended).2
  intro b s built
  have tended := attended_iff.1 (attended_build built) x
  exact ⟨tended.issued, tended.given, tended.owned, tended.once, fun _ => tended.heard trivial⟩

end Site

end ServiceImport

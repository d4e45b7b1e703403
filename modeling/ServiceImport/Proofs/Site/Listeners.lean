import Mathlib.Data.List.Perm.Subperm
import ServiceImport.Proofs.Site.Services

/-! # Records that hear of removals

A listener of the importer is owned by one record between any two moves, so that none is lost. The
other way round a record that an import made owns a listener, unless the import had made a record
before, and only who unsubscribes it can silence it.
-/

namespace ServiceImport

def Listener.isImporter : Listener → Bool
  | .importer _ => true
  | .recorder _ => false

theorem Listener.isImporter_iff {l : Listener} : l.isImporter = true ↔ ∃ c, l = .importer c := by
  cases l <;> simp [isImporter]

namespace Site

variable {s t : Site} {allowed : Command → Prop} {x : Subscription} {key : String}

/-! ## Places on an adapter -/

/-- The listeners on an adapter have numbers of their own, all given out already. -/
structure Placed (s : Site) : Prop where
  distinct : ∀ {key a}, s.audience key = some a → (a.1.map (·.1)).Nodup
  issued : ∀ {key a}, s.audience key = some a → ∀ l ∈ a.1, l.1 ≤ a.2

theorem Placed.of_eq (p : Placed s) (audience : t.audience = s.audience) : Placed t :=
  ⟨by rw [audience]; exact p.distinct, by rw [audience]; exact p.issued⟩

theorem Placed.of_adapters (p : Placed s) (adapters : t.adapters = s.adapters) : Placed t :=
  p.of_eq (KeepsAdapters.of_eq adapters).audience

theorem Placed.unsubscribe (p : Placed s) (x : Subscription) : Placed (s.unsubscribe x) := by
  have fewer {k a} (ha : (s.unsubscribe x).audience k = some a) :
      ∃ b, s.audience k = some b ∧ a.1.Sublist b.1 ∧ a.2 = b.2 := by
    rw [audience_unsubscribe] at ha
    split at ha
    · obtain ⟨b, hb, rfl⟩ := Option.map_eq_some_iff.1 ha
      exact ⟨b, hb, List.filter_sublist, rfl⟩
    · exact ⟨a, ha, List.Sublist.refl _, rfl⟩
  constructor
  · intro k a ha
    obtain ⟨b, hb, sub, _⟩ := fewer ha
    exact (p.distinct hb).sublist (sub.map _)
  · intro k a ha l hl
    obtain ⟨b, hb, sub, count⟩ := fewer ha
    rw [count]
    exact p.issued hb l (sub.subset hl)

theorem Placed.cancel (p : Placed s) (o : Option Subscription) : Placed (s.cancel o) := by
  cases o with
  | none => exact p
  | some x => exact p.unsubscribe x

theorem Placed.cancelAll (p : Placed s) (records : List Record) :
    Placed (cancelAll records s) :=
  List.foldlRecOn records _ p fun _ p r _ => p.cancel r.subscription

theorem Placed.subscribe (p : Placed s) (key : String) (l : Listener) :
    Placed (s.subscribe key l).2 := by
  constructor
  · intro k a ha
    rw [audience_subscribe] at ha
    split at ha
    · obtain ⟨b, hb, rfl⟩ := Option.map_eq_some_iff.1 ha
      dsimp only
      rw [List.map_append, List.nodup_append]
      refine ⟨p.distinct hb, List.nodup_singleton _, ?_⟩
      rintro n hn m hm rfl
      -- The new listener has a number that none had before.
      obtain ⟨o, ho, rfl⟩ := List.mem_map.1 hn
      have := p.issued hb o ho
      rw [List.mem_singleton.1 hm] at this
      dsimp only at this
      omega
    · exact p.distinct ha
  · intro k a ha m hm
    rw [audience_subscribe] at ha
    split at ha
    · obtain ⟨b, hb, rfl⟩ := Option.map_eq_some_iff.1 ha
      rcases List.mem_append.1 hm with hm | hm
      · exact Nat.le_succ_of_le (p.issued hb m hm)
      · rw [List.mem_singleton.1 hm]
    · exact p.issued ha m hm

theorem Loss.placed {m n : Dealing} (loss : Loss m n) (p : Placed m.site) : Placed n.site := by
  cases loss with
  | remark _ _ | place _ => exact p.of_adapters rfl
  | withdrawEndpoint _ | withdrawReference _ _ | clear _ =>
    refine Placed.cancelAll ?_ _
    exact p.of_adapters rfl
  | @tearDown s rest x mapping =>
    obtain ⟨fault, _, _, heq⟩ := tearDownOne_eq s mapping.2
    dsimp only
    rw [heq]
    exact p.of_adapters rfl

theorem Deal.placed {m n : Dealing} (deal : Deal m n) (p : Placed m.site) : Placed n.site := by
  cases deal with
  | loss loss => exact loss.placed p
  | make _ _ | refuse _ | record _ => exact p.of_adapters rfl
  | register reference _ =>
    dsimp only
    rw [noteImport_eq]
    exact p.of_adapters rfl
  | subscribe c => exact (p.subscribe c.adapter (.importer c.id)).of_adapters rfl
  | cancel => exact p.cancel _

theorem Placed.meddle (p : Placed s) {c : Command} (h : c.isMeddling = true) :
    Placed (s.perform c) := by
  cases c with
  | unregister a =>
    unfold perform
    dsimp only
    split
    · exact p.of_adapters rfl
    · exact p
  | noteImport _ _ | forgetImport _ => exact p.of_adapters rfl
  | record e d reference a o =>
    refine Placed.cancel ?_ _
    exact p.of_adapters rfl
  | unrecordEndpoint _ | unrecordReference _ _ =>
    refine Placed.cancelAll ?_ _
    exact p.of_adapters rfl
  | observe key label => exact p.subscribe key (.recorder label)
  | unsubscribe x => exact p.unsubscribe x
  | _ => cases h

theorem Move.placed {m n : Dealing} (move : Move allowed m n) (p : Placed m.site) :
    Placed n.site := by
  cases move with
  | deal deal => exact deal.placed p
  | aside h => exact p.of_eq h.adapters.audience
  | @withdraw s hand key reference => exact p.of_eq (audience_withPublished key _ s)
  | meddle _ h => exact p.meddle h

theorem Reachable.placed (h : Reachable allowed s) : Placed s := by
  refine h.dealing (I := fun d => Placed d.site) ?_ fun move => move.placed
  intro b s built
  constructor
  · intro k a ha
    rw [audience_build built ha]
    exact List.nodup_nil
  · intro k a ha l hl
    rw [audience_build built ha] at hl
    cases hl

/-! ## No listener is lost -/

/-- The subscriptions with which the importer listens on an adapter. -/
def listenings (s : Site) (key : String) : List Subscription :=
  ((((s.audience key).map (·.1)).getD []).filter (·.2.isImporter)).map fun l => ⟨key, l.1⟩

theorem mem_listenings :
    x ∈ s.listenings key ↔ x.adapter = key ∧ ∃ c, s.listens x (.importer c) := by
  unfold listenings listens
  rw [List.mem_map]
  constructor
  · rintro ⟨l, hl, rfl⟩
    obtain ⟨hl, himporter⟩ := List.mem_filter.1 hl
    cases ha : s.audience key with
    | none => simp [ha] at hl
    | some a =>
      obtain ⟨c, hc⟩ := Listener.isImporter_iff.1 himporter
      rw [ha] at hl
      exact ⟨rfl, c, a, rfl, hc ▸ hl⟩
  · rintro ⟨rfl, c, a, ha, hmem⟩
    refine ⟨(x.id, .importer c), List.mem_filter.2 ⟨?_, rfl⟩, rfl⟩
    rw [ha]
    exact hmem

theorem Placed.nodup_listenings (p : Placed s) (key : String) : (s.listenings key).Nodup := by
  unfold listenings
  cases ha : s.audience key with
  | none => exact List.nodup_nil
  | some a =>
    have ids : ((a.1.filter (·.2.isImporter)).map (·.1)).Nodup :=
      (p.distinct ha).sublist (List.filter_sublist.map _)
    have places : ((a.1.filter (·.2.isImporter)).map (·.1)).map (Subscription.mk key) =
        (a.1.filter (·.2.isImporter)).map fun l => ⟨key, l.1⟩ := List.map_map
    rw [Option.map_some, Option.getD_some, ← places]
    exact ids.map fun _ _ heq => (Subscription.mk.inj heq).2

theorem subscriptions_owned (l : Ledger) :
    l.owned.map (·.1) = l.records.filterMap Record.subscription := by
  unfold Ledger.owned
  rw [List.map_filterMap]
  congr 1
  funext r
  unfold Record.owned?
  cases r.subscription <;> rfl

theorem Tended.owner {kept : Prop} {c : ContainerId} (tended : Tended kept x [] s)
    (h : s.listens x (.importer c)) :
    ∃ q, s.ledger.records.filter (·.subscription == some x) = [q] ∧ q.key.container = c := by
  obtain ⟨r, hr, howned⟩ := List.mem_filterMap.1 (tended.owned h)
  obtain ⟨hx, rfl⟩ := Record.owned?_eq_some_iff.1 howned
  have there : r ∈ s.ledger.records.filter (·.subscription == some x) :=
    List.mem_filter.2 ⟨hr, by rw [hx]; exact beq_self_eq_true _⟩
  -- The owners of the subscription are counted by the records that have it.
  have once := tended.once
  rw [List.nil_append, subscriptions_owned, List.count_filterMap,
    List.countP_eq_length_filter] at once
  have one : (s.ledger.records.filter (·.subscription == some x)).length = 1 :=
    Nat.le_antisymm once (List.length_pos_of_mem there)
  obtain ⟨q, hq⟩ := List.length_eq_one_iff.1 one
  refine ⟨q, hq, ?_⟩
  rw [hq] at there
  rw [List.mem_singleton.1 there]

/-- Whatever happens, each listener of the importer is owned by one record, which is about the
container that it hears of, if nobody else hands its subscription to the ledger. So there are no
more listeners on an adapter than records, and none when there is no record. -/
theorem owner_of_listens (h : Reachable allowed s)
    (own : ∀ x c, s.listens x (.importer c) → ∀ e d r a, ¬ allowed (.record e d r a (some x))) :
    (∀ x c, s.listens x (.importer c) →
      ∃ q, s.ledger.records.filter (·.subscription == some x) = [q] ∧ q.key.container = c) ∧
    ∀ key, (s.listenings key).length ≤ s.ledger.size ∧
      (s.ledger.size = 0 → s.listenings key = []) := by
  have owner : ∀ x c, s.listens x (.importer c) →
      ∃ q, s.ledger.records.filter (·.subscription == some x) = [q] ∧ q.key.container = c :=
    fun x c hx => (h.tended (own x c hx)).owner hx
  refine ⟨owner, fun key => ?_⟩
  -- Each listener has a subscription of its own, and each subscription is in some record.
  have bounded : (s.listenings key).length ≤ s.ledger.size := by
    have owned : s.listenings key ⊆ s.ledger.records.filterMap Record.subscription := by
      intro x hx
      obtain ⟨_, c, hc⟩ := mem_listenings.1 hx
      obtain ⟨q, hq, _⟩ := owner x c hc
      have there : q ∈ s.ledger.records.filter (·.subscription == some x) := by simp [hq]
      obtain ⟨hq, hsubscription⟩ := List.mem_filter.1 there
      exact List.mem_filterMap.2 ⟨q, hq, by simpa using hsubscription⟩
    have fewer := ((h.placed.nodup_listenings key).subperm owned).length_le
    exact Nat.le_trans fewer (List.length_filterMap_le _ _)
  refine ⟨bounded, fun none => ?_⟩
  rw [none] at bounded
  exact List.eq_nil_of_length_eq_zero (Nat.le_zero.1 bounded)

/-- The lamp that came through both adapters listens on the first. The listener on the second, which
no record took, is gone. -/
theorem owner_of_listens_twinWithdrawn :
    twinWithdrawn.listenings "lamps" = [⟨"lamps", 1⟩] ∧ twinWithdrawn.ledger.size = 1 ∧
    twinWithdrawn.subscribed "spare" = 1 ∧ twinWithdrawn.listenings "spare" = [] ∧
    (∀ x c, twinWithdrawn.listens x (.importer c) →
      ∃ q, twinWithdrawn.ledger.records.filter (·.subscription == some x) = [q] ∧
        q.key.container = c) ∧
    ∀ key, (twinWithdrawn.listenings key).length ≤ twinWithdrawn.ledger.size ∧
      (twinWithdrawn.ledger.size = 0 → twinWithdrawn.listenings key = []) := by
  refine ⟨rfl, rfl, rfl, rfl, owner_of_listens reachable_twinWithdrawn ?_⟩
  intro x c _ e d r a routine
  cases routine

/-! ## Records listen -/

/-- An import made a record, or it is as someone else may have registered it. In the first case it
listens on the adapter that the import went through, if it was the first that the import made. The
importer listens with every subscription that a record owns, unless others can unsubscribe it or
record it. -/
theorem listens_of_made (h : Reachable allowed s) :
    ∀ q ∈ s.ledger.records, (Foreign allowed q ∨ Made s q) ∧
      ∀ x, q.subscription = some x → ¬ allowed (.unsubscribe x) →
        (∀ e d r a, ¬ allowed (.record e d r a (some x))) →
        s.listens x (.importer q.key.container) := by
  intro q hq
  refine ⟨h.ascribed.records q hq, fun x hx kept foreign => ?_⟩
  refine (h.tended foreign).heard kept ?_
  exact List.mem_filterMap.2 ⟨q, hq, Record.owned?_eq_some_iff.2 ⟨hx, rfl⟩⟩

/-- The lamp that came through both adapters has one record, which listens on the first. -/
theorem listens_of_made_twinWithdrawn :
    twinWithdrawn.ledger.records.map Record.subscription = [some ⟨"lamps", 1⟩] ∧
    ∀ q ∈ twinWithdrawn.ledger.records,
      (Foreign (·.isRoutine = true) q ∨ Made twinWithdrawn q) ∧
        ∀ x, q.subscription = some x → ¬ (Command.unsubscribe x).isRoutine = true →
          (∀ e d r a, ¬ (Command.record e d r a (some x)).isRoutine = true) →
          twinWithdrawn.listens x (.importer q.key.container) :=
  ⟨rfl, listens_of_made reachable_twinWithdrawn⟩

/-- Every record hears of removals. -/
def Attentive (s : Site) : Prop :=
  ∀ q ∈ s.ledger.records, ∃ x, q.subscription = some x ∧
    s.listens x (.importer q.key.container)

def lampPair : Site := litSite.perform (.publishService "lamps" ["Lamp"] .empty)

/-- A lamp with two services. The first was withdrawn while the proxy of the second was being
registered, so that one import made the record twice. -/
def lampRemade : Site :=
  (({ lampPair with
      space := { lampPair.space with interruptions := [[], [.withdrawService "lamps" 1]] } } :
    Site).perform (.available lampEndpoint)).poll (.resolution 0)

/-- A lamp whose listener someone else took from the adapter. -/
def lampSilenced : Site :=
  ((litSite.perform (.available lampEndpoint)).poll (.resolution 0)).perform
    (.unsubscribe ⟨"lamps", 1⟩)

theorem reachable_lampRemade : Reachable (·.isRoutine = true) lampRemade := by
  have twice : Reachable (·.isRoutine = true) lampPair :=
    .perform (reachable_litSite rfl) rfl fun _ => rfl
  exact .poll (.perform (.plan twice (by simp [Command.isRoutine])) rfl fun _ => rfl)

theorem reachable_lampSilenced :
    Reachable (fun c => c.isRoutine = true ∨ ∃ x, c = .unsubscribe x) lampSilenced := by
  have lit : Reachable (fun c => c.isRoutine = true ∨ ∃ x, c = .unsubscribe x) litSite :=
    reachable_litSite (.inl rfl)
  exact .perform (.poll (.perform lit (.inl rfl) fun _ => rfl)) (.inr ⟨_, rfl⟩) nofun

/-- A record can be deaf: one that an import made again after its first was gone, and one whose
listener someone else took from the adapter. -/
theorem not_attentive :
    (¬ ∀ s, Reachable (·.isRoutine = true) s → s.isAlive = true → Attentive s) ∧
      ¬ ∀ s, Reachable (fun c => c.isRoutine = true ∨ ∃ x, c = .unsubscribe x) s →
        s.isAlive = true → (s.journal.filterMap Event.making?).Nodup → Attentive s := by
  constructor
  · intro claim
    have recorded : ∃ q ∈ lampRemade.ledger.records, q.subscription = none :=
      ⟨_, .head _, rfl⟩
    obtain ⟨q, hq, none⟩ := recorded
    obtain ⟨x, hx, _⟩ := claim _ reachable_lampRemade rfl q hq
    rw [none] at hx
    cases hx
  · intro claim
    have recorded : ∃ q ∈ lampSilenced.ledger.records, q.subscription = some ⟨"lamps", 1⟩ :=
      ⟨_, .head _, rfl⟩
    obtain ⟨q, hq, owned⟩ := recorded
    obtain ⟨x, hx, a, ha, hmem⟩ :=
      claim _ reachable_lampSilenced rfl (List.nodup_singleton _) q hq
    obtain rfl := Option.some.inj (owned.symm.trans hx)
    have silent : lampSilenced.audience "lamps" = some ([], 1) := rfl
    obtain rfl := Option.some.inj (silent.symm.trans ha)
    cases hmem

end Site

end ServiceImport

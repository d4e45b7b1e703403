import ServiceImport.Proofs.Hub.Readers

/-! # Hubs that read alike

What a reader gets depends on how many items are past its place and on what is held of them. Two
hubs that agree in this stay so, however many items were published before and whichever are still
held.
-/

namespace ServiceImport.Hub

variable {α : Type} {h k : Hub α} {i j : Nat}

/-! ## Places from the end -/

theorem waiting_eq (sound : h.Sound) (j : Nat) :
    h.waiting j = h.held.drop (h.held.length - h.backlog j) := by
  have cursor := sound.cursor_le j
  have held := sound.held
  unfold waiting backlog dropped
  congr 1
  omega

theorem waiting_of_backlog (sound : h.Sound) (level : h.backlog j = 0) : h.waiting j = [] := by
  rw [waiting_eq sound, level, Nat.sub_zero]
  exact List.drop_length

theorem waiting_unsubscribe (sound : h.Sound) (i j : Nat) :
    (h.unsubscribe i).waiting j = if j = i then [] else h.waiting j := by
  have backlog := backlog_unsubscribe h i j
  split at backlog
  · next same => rw [if_pos same, waiting_of_backlog (sound.unsubscribe i) backlog]
  · next other =>
    rw [if_neg other, waiting_eq (sound.unsubscribe i), backlog, waiting_eq sound]
    rfl

theorem waiting_moveTo_end (sound : h.Sound) (i j : Nat) :
    (h.moveTo i h.published).waiting j = if j = i then [] else h.waiting j := by
  have moved := sound.moveTo (Nat.le_refl h.published) i
  have backlog := backlog_moveTo_end h i j
  split at backlog
  · next same => rw [if_pos same, waiting_of_backlog moved backlog]
  · next other =>
    rw [if_neg other, waiting_eq moved, backlog, waiting_eq sound]
    rfl

theorem cursor_subscribe (sound : h.Sound) (j : Nat) : h.subscribe.2.cursor j = h.cursor j := by
  by_cases issued : j < h.nextFeed
  · rw [cursor_eq_place?, place?_subscribe_of_lt issued]
    rfl
  · -- Nobody was there by that number, and the new reader has nothing to read.
    have absent : h.place? j = none :=
      List.find?_eq_none.2 fun f hf => by
        have := sound.issued f hf
        simp only [beq_iff_eq]
        omega
    rw [cursor_of_place?_none absent, cursor_eq_place?]
    unfold place? at absent ⊢
    unfold subscribe
    dsimp only
    rw [List.find?_append, absent, Option.none_or, List.find?_singleton]
    split <;> rfl

theorem cursor_publish (there : (h.place? j).isSome) (a : α) :
    (h.publish a).2.cursor j = h.cursor j := by
  obtain ⟨f, hf⟩ := Option.isSome_iff_exists.1 there
  rw [cursor_of_place? hf, cursor_of_place? ((place?_publish h a j).trans hf)]

theorem keeps_publish (h : Hub α) (a : α) :
    (h.publish a).2.size = h.size ∧ (h.publish a).2.isOpen = h.isOpen ∧
      (h.publish a).2.nextFeed = h.nextFeed ∧ (h.publish a).2.feeds = h.feeds := by
  unfold publish
  split <;> exact ⟨rfl, rfl, rfl, rfl⟩

theorem feeds_of_place? (there : (h.place? j).isSome) : h.feeds ≠ [] := by
  rintro none
  rw [isSome_place?, none] at there
  exact absurd there List.not_mem_nil

theorem backlog_publish (sound : h.Sound) (a : α) (j : Nat) :
    (h.publish a).2.backlog j = if (h.place? j).isSome then h.backlog j + 1 else 0 := by
  split
  · next there =>
    have cursor := sound.cursor_le j
    unfold backlog
    rw [cursor_publish there, publish_of_ne_nil (feeds_of_place? there)]
    dsimp only
    omega
  · next absent =>
    refine backlog_of_place?_none ((place?_publish h a j).trans ?_)
    exact Option.not_isSome_iff_eq_none.1 absent

/-- A new item waits behind the others, and the first of them goes if the hub is full. -/
theorem waiting_publish (sound : h.Sound) (a : α) (j : Nat) :
    (h.publish a).2.waiting j = if (h.place? j).isSome then
      (h.waiting j ++ [a]).drop ((h.waiting j).length + 1 - h.size) else [] := by
  rw [waiting_eq (sound.publish a), backlog_publish sound]
  split
  · next there =>
    have held := sound.held
    rw [waiting_eq sound, publish_of_ne_nil (feeds_of_place? there)]
    dsimp only
    rw [← List.drop_append_of_le_length (Nat.sub_le _ _), List.drop_drop, List.drop_drop]
    simp only [List.length_drop, List.length_append, List.length_singleton]
    congr 1
    omega
  · rw [Nat.sub_zero]
    exact List.drop_length

/-! ## Publishing one after another -/

/-- The hub after so many items were published. -/
def publishAll (items : List α) (h : Hub α) : Hub α := items.foldl (fun h a => (h.publish a).2) h

theorem keeps_publishAll (items : List α) (h : Hub α) :
    (h.publishAll items).size = h.size ∧ (h.publishAll items).isOpen = h.isOpen ∧
      (h.publishAll items).nextFeed = h.nextFeed ∧ (h.publishAll items).feeds = h.feeds := by
  induction items generalizing h with
  | nil => exact ⟨rfl, rfl, rfl, rfl⟩
  | cons a items ih =>
    obtain ⟨size, isOpen, nextFeed, feeds⟩ := ih (h.publish a).2
    obtain ⟨size', isOpen', nextFeed', feeds'⟩ := h.keeps_publish a
    exact ⟨size.trans size', isOpen.trans isOpen', nextFeed.trans nextFeed', feeds.trans feeds'⟩

theorem Sound.publishAll (sound : h.Sound) (items : List α) : (h.publishAll items).Sound :=
  List.foldlRecOn items _ sound fun _ kept a _ => kept.publish a

/-- A reader with room for all of them misses none. -/
theorem reads_publishAll (sound : h.Sound) (there : (h.place? j).isSome) {items : List α}
    (room : h.backlog j + items.length ≤ h.size) :
    (h.publishAll items).waiting j = h.waiting j ++ items ∧
      (h.publishAll items).missed j = h.missed j := by
  induction items generalizing h with
  | nil => exact ⟨(List.append_nil _).symm, rfl⟩
  | cons a items ih =>
    have length := sound.length_waiting j
    have backlog := backlog_publish sound a j
    have waiting := waiting_publish sound a j
    rw [if_pos there] at backlog waiting
    rw [List.length_cons] at room
    rw [show (h.waiting j).length + 1 - h.size = 0 by omega, List.drop_zero] at waiting
    have length' := (sound.publish a).length_waiting j
    rw [waiting, backlog, List.length_append, List.length_singleton] at length'
    obtain ⟨later, missed⟩ := ih (sound.publish a) ((place?_publish h a j).symm ▸ there)
      (by rw [backlog, (h.keeps_publish a).1]; omega)
    refine ⟨later.trans ?_, missed.trans (by omega)⟩
    rw [waiting, List.append_assoc, List.singleton_append]

/-! ## Hubs that read alike -/

/-- Two hubs with the same readers, each of which has the same to read and has missed the same. -/
structure Like (h k : Hub α) : Prop where
  size : h.size = k.size
  isOpen : h.isOpen = k.isOpen
  nextFeed : h.nextFeed = k.nextFeed
  readers : h.feeds.map (·.id) = k.feeds.map (·.id)
  backlog : ∀ j, h.backlog j = k.backlog j
  waiting : ∀ j, h.waiting j = k.waiting j
  left : h.Sound
  right : k.Sound

namespace Like

theorem refl (sound : h.Sound) : Like h h :=
  ⟨rfl, rfl, rfl, rfl, fun _ => rfl, fun _ => rfl, sound, sound⟩

theorem of_level (size : h.size = k.size) (isOpen : h.isOpen = k.isOpen)
    (nextFeed : h.nextFeed = k.nextFeed) (readers : h.feeds.map (·.id) = k.feeds.map (·.id))
    (left : h.Sound) (right : k.Sound) (level : ∀ j, h.backlog j = 0 ∧ k.backlog j = 0) :
    Like h k :=
  ⟨size, isOpen, nextFeed, readers, fun j => (level j).1.trans (level j).2.symm,
    fun j =>
      (waiting_of_backlog left (level j).1).trans (waiting_of_backlog right (level j).2).symm,
    left, right⟩

theorem missed (like : Like h k) (j : Nat) : h.missed j = k.missed j := by
  have left := like.left.length_waiting j
  have right := like.right.length_waiting j
  rw [like.waiting, like.backlog] at left
  omega

theorem place? (like : Like h k) (j : Nat) : (h.place? j).isSome = (k.place? j).isSome := by
  rw [Bool.eq_iff_iff, isSome_place?, isSome_place?, like.readers]

theorem feedCount (like : Like h k) : h.feedCount = k.feedCount := by
  have lengths := congrArg List.length like.readers
  rwa [List.length_map, List.length_map] at lengths

theorem isEmpty (like : Like h k) : h.feeds.isEmpty = k.feeds.isEmpty := by
  have lengths := like.feedCount
  unfold Hub.feedCount at lengths
  cases hf : h.feeds <;> cases kf : k.feeds <;> simp_all

theorem subscribe (like : Like h k) : Like h.subscribe.2 k.subscribe.2 where
  size := like.size
  isOpen := like.isOpen
  nextFeed := congrArg (· + 1) like.nextFeed
  readers := by
    unfold Hub.subscribe
    dsimp only
    rw [List.map_append, List.map_append, like.readers, like.nextFeed]
    rfl
  backlog j := by
    unfold Hub.backlog
    rw [cursor_subscribe like.left, cursor_subscribe like.right]
    exact like.backlog j
  waiting j := by
    unfold Hub.waiting
    rw [cursor_subscribe like.left, cursor_subscribe like.right]
    exact like.waiting j
  left := like.left.subscribe
  right := like.right.subscribe

theorem unsubscribe (like : Like h k) (i : Nat) : Like (h.unsubscribe i) (k.unsubscribe i) where
  size := like.size
  isOpen := like.isOpen
  nextFeed := like.nextFeed
  readers := by
    have kept := congrArg (List.filter (· != i)) like.readers
    rwa [List.filter_map, List.filter_map] at kept
  backlog j := by rw [backlog_unsubscribe, backlog_unsubscribe, like.backlog]
  waiting j := by rw [waiting_unsubscribe like.left, waiting_unsubscribe like.right, like.waiting]
  left := like.left.unsubscribe i
  right := like.right.unsubscribe i

theorem moveTo (like : Like h k) (i : Nat) :
    Like (h.moveTo i h.published) (k.moveTo i k.published) where
  size := like.size
  isOpen := like.isOpen
  nextFeed := like.nextFeed
  readers := by rw [ids_moveTo, ids_moveTo, like.readers]
  backlog j := by rw [backlog_moveTo_end, backlog_moveTo_end, like.backlog]
  waiting j := by rw [waiting_moveTo_end like.left, waiting_moveTo_end like.right, like.waiting]
  left := like.left.moveTo (Nat.le_refl _) i
  right := like.right.moveTo (Nat.le_refl _) i

theorem close (like : Like h k) : Like h.close k.close :=
  ⟨like.size, rfl, like.nextFeed, like.readers, like.backlog, like.waiting, like.left.close,
    like.right.close⟩

theorem publish (like : Like h k) (a : α) :
    (h.publish a).1 = (k.publish a).1 ∧ Like (h.publish a).2 (k.publish a).2 := by
  obtain ⟨hsize, hopen, hnext, hfeeds⟩ := h.keeps_publish a
  obtain ⟨ksize, kopen, knext, kfeeds⟩ := k.keeps_publish a
  refine ⟨?_, ?_, ?_, ?_, ?_, fun j => ?_, fun j => ?_, like.left.publish a, like.right.publish a⟩
  · unfold Hub.publish
    rw [like.isEmpty]
    split
    · rfl
    · exact like.feedCount
  · rw [hsize, ksize, like.size]
  · rw [hopen, kopen, like.isOpen]
  · rw [hnext, knext, like.nextFeed]
  · rw [hfeeds, kfeeds, like.readers]
  · rw [backlog_publish like.left, backlog_publish like.right, like.place?, like.backlog]
  · rw [waiting_publish like.left, waiting_publish like.right, like.place?, like.waiting, like.size]

end Like

end ServiceImport.Hub

import Mathlib.Data.List.Nodup
import ServiceImport.Hub

/-! # Readers of a hub

What an operation does to the place of one reader, and what is true of the places of all readers:
the items held are the last that were published, and no reader is ahead of them.
-/

namespace ServiceImport.Hub

variable {α : Type} {h : Hub α} {i j : Nat}

/-! ## The place of a reader -/

/-- The place of a reader, if it is there. -/
def place? (h : Hub α) (j : Nat) : Option HubFeed := h.feeds.find? (·.id == j)

theorem mem_of_place? {f : HubFeed} (there : h.place? j = some f) : f ∈ h.feeds ∧ f.id = j :=
  ⟨List.mem_of_find?_eq_some there, by simpa using List.find?_some there⟩

theorem place?_eq_some_iff (distinct : (h.feeds.map (·.id)).Nodup) {f : HubFeed} :
    h.place? j = some f ↔ f ∈ h.feeds ∧ f.id = j := by
  refine ⟨mem_of_place?, fun ⟨there, same⟩ => ?_⟩
  obtain ⟨g, found⟩ : ∃ g, h.place? j = some g :=
    Option.isSome_iff_exists.1 (List.find?_isSome.2 ⟨f, there, by simpa using same⟩)
  obtain ⟨hg, same'⟩ := mem_of_place? found
  rw [found, List.inj_on_of_nodup_map distinct hg there (same'.trans same.symm)]

theorem isSome_place? : (h.place? j).isSome = true ↔ j ∈ h.feeds.map (·.id) := by
  unfold place?
  rw [List.find?_isSome]
  simp

theorem cursor_eq_place? : h.cursor j = ((h.place? j).map (·.cursor)).getD h.published := rfl

theorem cursor_of_place? {f : HubFeed} (there : h.place? j = some f) : h.cursor j = f.cursor := by
  rw [cursor_eq_place?, there]
  rfl

theorem place?_moveTo (h : Hub α) (i position j : Nat) :
    (h.moveTo i position).place? j =
      (h.place? j).map fun f => if f.id = i then { f with cursor := position } else f := by
  have ids : ((fun f : HubFeed => f.id == j) ∘ fun f =>
      if f.id = i then { f with cursor := position } else f) = fun f => f.id == j := by
    funext f
    dsimp only [Function.comp]
    split <;> rfl
  unfold place? moveTo
  dsimp only
  rw [List.find?_map, ids]

theorem ids_moveTo (h : Hub α) (i position : Nat) :
    (h.moveTo i position).feeds.map (·.id) = h.feeds.map (·.id) := by
  unfold moveTo
  rw [List.map_map]
  refine List.map_congr_left fun f _ => ?_
  dsimp only [Function.comp]
  split <;> rfl

theorem place?_moveTo_of_ne (h : Hub α) (position : Nat) (ne : j ≠ i) :
    (h.moveTo i position).place? j = h.place? j := by
  rw [place?_moveTo]
  cases there : h.place? j with
  | none => rfl
  | some f => rw [Option.map_some, (mem_of_place? there).2, if_neg ne]

theorem place?_unsubscribe_of_ne (h : Hub α) (ne : j ≠ i) :
    (h.unsubscribe i).place? j = h.place? j := by
  unfold place? unsubscribe
  dsimp only
  rw [List.find?_filter]
  congr 1
  funext f
  by_cases same : f.id = j
  · simp [same, ne]
  · simp [same]

theorem place?_unsubscribe_self (h : Hub α) (j : Nat) : (h.unsubscribe j).place? j = none := by
  refine List.find?_eq_none.2 fun f hf => ?_
  simpa using (List.mem_filter.1 hf).2

theorem place?_subscribe_of_lt (issued : j < h.nextFeed) :
    h.subscribe.2.place? j = h.place? j := by
  have other : (h.nextFeed == j) = false := beq_eq_false_iff_ne.2 (Nat.ne_of_gt issued)
  unfold place? subscribe
  simp [List.find?_append, other]

/-! ## Publishing -/

theorem publish_of_isEmpty (none : h.feeds = []) (a : α) : h.publish a = (0, h) := by
  unfold publish
  rw [none]
  rfl

theorem publish_of_ne_nil (some : h.feeds ≠ []) (a : α) :
    h.publish a = (h.feedCount,
      { h with
        published := h.published + 1
        held := (h.held ++ [a]).drop ((h.held ++ [a]).length - h.size) }) := by
  unfold publish
  rw [if_neg (by simpa using some)]

theorem place?_publish (h : Hub α) (a : α) (j : Nat) : (h.publish a).2.place? j = h.place? j := by
  by_cases none : h.feeds = []
  · rw [publish_of_isEmpty none]
  · rw [publish_of_ne_nil none]
    rfl

/-! ## Reading -/

/-- A reader goes on at the oldest item held if it has missed some, and takes the first of those it
has yet to read. -/
theorem next_eq (h : Hub α) (j : Nat) :
    h.next j = (match (h.waiting j).head? with
      | some a => (.item a, h.moveTo j (max (h.cursor j) h.dropped + 1))
      | none => (if h.isOpen then .waiting else .ended,
          h.moveTo j (max (h.cursor j) h.dropped))) := by
  have first : h.held[max (h.cursor j) h.dropped - h.dropped]? = (h.waiting j).head? := by
    unfold waiting
    rw [List.head?_drop]
    congr 1
    omega
  rw [← first]
  rfl

/-! ## All places -/

/-- The items held are the last that were published. Readers have numbers of their own, all given
out already, and none is ahead of what was published. -/
structure Sound (h : Hub α) : Prop where
  held : h.held.length = min h.published h.size
  distinct : (h.feeds.map (·.id)).Nodup
  issued : ∀ f ∈ h.feeds, f.id < h.nextFeed
  behind : ∀ f ∈ h.feeds, f.cursor ≤ h.published

theorem sound_new (capacity : Nat) : (Hub.new capacity : Hub α).Sound :=
  ⟨(Nat.zero_min _).symm, List.nodup_nil, nofun, nofun⟩

namespace Sound

theorem dropped (sound : h.Sound) : h.dropped = h.published - h.size := by
  have := sound.held
  unfold Hub.dropped
  omega

theorem cursor_le (sound : h.Sound) (j : Nat) : h.cursor j ≤ h.published := by
  rw [cursor_eq_place?]
  cases there : h.place? j with
  | none => exact Nat.le_refl _
  | some f => exact sound.behind f (mem_of_place? there).1

theorem subscribe (sound : h.Sound) : h.subscribe.2.Sound where
  held := sound.held
  distinct := by
    unfold Hub.subscribe
    dsimp only
    rw [List.map_append, List.nodup_append]
    refine ⟨sound.distinct, List.nodup_singleton _, ?_⟩
    rintro n hn m hm rfl
    obtain ⟨f, hf, rfl⟩ := List.mem_map.1 hn
    exact Nat.ne_of_lt (sound.issued f hf) (List.mem_singleton.1 hm)
  issued f hf := by
    rcases List.mem_append.1 hf with hf | hf
    · exact Nat.lt_succ_of_lt (sound.issued f hf)
    · rw [List.mem_singleton.1 hf]
      exact Nat.lt_succ_self _
  behind f hf := by
    rcases List.mem_append.1 hf with hf | hf
    · exact sound.behind f hf
    · rw [List.mem_singleton.1 hf]
      exact Nat.le_refl _

theorem unsubscribe (sound : h.Sound) (j : Nat) : (h.unsubscribe j).Sound where
  held := sound.held
  distinct := sound.distinct.sublist (List.filter_sublist.map _)
  issued f hf := sound.issued f (List.mem_filter.1 hf).1
  behind f hf := sound.behind f (List.mem_filter.1 hf).1

theorem publish (sound : h.Sound) (a : α) : (h.publish a).2.Sound := by
  by_cases none : h.feeds = []
  · rw [publish_of_isEmpty none]
    exact sound
  · have held := sound.held
    rw [publish_of_ne_nil none]
    refine ⟨?_, sound.distinct, sound.issued, fun f hf => Nat.le_succ_of_le (sound.behind f hf)⟩
    simp only [List.length_drop, List.length_append, List.length_singleton]
    omega

theorem close (sound : h.Sound) : h.close.Sound :=
  ⟨sound.held, sound.distinct, sound.issued, sound.behind⟩

theorem moveTo (sound : h.Sound) {position : Nat} (behind : position ≤ h.published) (j : Nat) :
    (h.moveTo j position).Sound where
  held := sound.held
  distinct := by
    rw [ids_moveTo]
    exact sound.distinct
  issued := by
    refine List.forall_mem_map.2 fun f hf => ?_
    split
    · exact sound.issued f hf
    · exact sound.issued f hf
  behind := by
    refine List.forall_mem_map.2 fun f hf => ?_
    split
    · exact behind
    · exact sound.behind f hf

theorem length_waiting (sound : h.Sound) (j : Nat) :
    (h.waiting j).length + h.missed j = h.backlog j := by
  have cursor := sound.cursor_le j
  have dropped := sound.dropped
  have held := sound.held
  unfold Hub.waiting missed backlog
  rw [List.length_drop]
  omega

end Sound

/-! ## What is past a reader -/

theorem cursor_of_place?_none (absent : h.place? j = none) : h.cursor j = h.published := by
  rw [cursor_eq_place?, absent]
  rfl

theorem backlog_of_place?_none (absent : h.place? j = none) : h.backlog j = 0 := by
  unfold backlog
  rw [cursor_of_place?_none absent]
  exact Nat.sub_self _

theorem cursor_unsubscribe (h : Hub α) (i j : Nat) :
    (h.unsubscribe i).cursor j = if j = i then h.published else h.cursor j := by
  split
  · next same =>
    rw [same]
    exact cursor_of_place?_none (place?_unsubscribe_self h i)
  · next other =>
    rw [cursor_eq_place?, place?_unsubscribe_of_ne h other]
    rfl

theorem cursor_moveTo_end (h : Hub α) (i j : Nat) :
    (h.moveTo i h.published).cursor j = if j = i then h.published else h.cursor j := by
  rw [cursor_eq_place?]
  split
  · next same =>
    rw [same, place?_moveTo]
    cases there : h.place? i with
    | none => rfl
    | some f =>
      rw [Option.map_some, if_pos (mem_of_place? there).2]
      rfl
  · next other =>
    rw [place?_moveTo_of_ne h _ other]
    rfl

theorem backlog_unsubscribe (h : Hub α) (i j : Nat) :
    (h.unsubscribe i).backlog j = if j = i then 0 else h.backlog j := by
  unfold backlog
  rw [cursor_unsubscribe]
  split
  · exact Nat.sub_self _
  · rfl

theorem backlog_moveTo_end (h : Hub α) (i j : Nat) :
    (h.moveTo i h.published).backlog j = if j = i then 0 else h.backlog j := by
  unfold backlog
  rw [cursor_moveTo_end]
  split
  · exact Nat.sub_self _
  · rfl

end ServiceImport.Hub

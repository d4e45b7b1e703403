import Mathlib.Data.List.Nodup
import ServiceImport.Limiter

/-! # Counters

The counters tell of each endpoint how many resolutions entered and did not leave yet.
-/

namespace ServiceImport

namespace Pending

/-- What a counter says: zero has no entry. -/
def entry : Nat → Option Nat
  | 0 => none
  | n + 1 => some (n + 1)

theorem entry_eq_none_iff {n : Nat} : entry n = none ↔ n = 0 := by
  cases n with
  | zero => simp [entry]
  | succ n => simp [entry]

/-- The counters tell of each endpoint how often it is in a list. -/
structure Counts (p : Pending) (ids : List String) : Prop where
  nodup : (p.counts.map (·.1)).Nodup
  lookup : ∀ id, p.counts.lookup id = entry (ids.count id)

/-! ## Tables -/

theorem lookup_map_entry {α : Type} (key k : String) (f : α → α) (entries : List (String × α)) :
    (entries.map fun e => if e.1 = key then (key, f e.2) else e).lookup k =
      if k = key then (entries.lookup k).map f else entries.lookup k := by
  induction entries with
  | nil => simp
  | cons e rest ih =>
    obtain ⟨name, a⟩ := e
    rw [List.map_cons]
    by_cases hname : name = key
    · subst hname
      by_cases hk : k = name
      · subst hk
        rw [if_pos rfl, if_pos rfl, List.lookup_cons_self, List.lookup_cons_self]
        rfl
      · simp only [if_true, List.lookup_cons, beq_eq_false_iff_ne.2 hk, ih, if_neg hk]
    · by_cases hk : k = name
      · subst hk
        simp [hname]
      · simp only [if_neg hname, List.lookup_cons, beq_eq_false_iff_ne.2 hk, ih]

theorem keys_map_entry {α : Type} (key : String) (f : α → α) (entries : List (String × α)) :
    (entries.map fun e => if e.1 = key then (key, f e.2) else e).map (·.1) =
      entries.map (·.1) := by
  rw [List.map_map]
  apply List.map_congr_left
  intro e _
  dsimp only [Function.comp]
  split
  · next h => exact h.symm
  · rfl

theorem lookup_eq_none {α : Type} {entries : List (String × α)} {k : String}
    (h : k ∉ entries.map (·.1)) : entries.lookup k = none := by
  rw [List.lookup_eq_none_iff]
  intro e he
  rw [bne_iff_ne]
  rintro rfl
  exact h (List.mem_map_of_mem he)

theorem lookup_filter {α : Type} {entries : List (String × α)} (nodup : (entries.map (·.1)).Nodup)
    (p : α → Bool) (k : String) :
    (entries.filter (p ·.2)).lookup k = (entries.lookup k).filter p := by
  induction entries with
  | nil => rfl
  | cons e rest ih =>
    obtain ⟨name, a⟩ := e
    rw [List.map_cons, List.nodup_cons] at nodup
    have kept := ih nodup.2
    rw [List.filter_cons]
    by_cases hk : k = name
    · subst hk
      rw [lookup_eq_none nodup.1] at kept
      rw [List.lookup_cons_self]
      split
      · next ha =>
        rw [List.lookup_cons_self, Option.filter_some, if_pos ha]
      · next ha =>
        rw [kept, Option.filter_some, if_neg ha]
        rfl
    · have hb : (k == name) = false := beq_eq_false_iff_ne.2 hk
      split
      · simp only [List.lookup_cons, hb, kept]
      · simp only [List.lookup_cons, hb, kept]

/-! ## Entering and leaving -/

variable {p : Pending} {ids ids' : List String}

theorem Counts.empty : Counts {} [] := ⟨by simp, by simp [entry]⟩

theorem Counts.of_perm (h : p.Counts ids) (perm : ids'.Perm ids) : p.Counts ids' where
  nodup := h.nodup
  lookup id := by rw [h.lookup, perm.count_eq]

theorem Counts.mem_iff (h : p.Counts ids) {id : String} :
    id ∈ p.counts.map (·.1) ↔ id ∈ ids := by
  have counted : id ∈ ids ↔ p.counts.lookup id ≠ none := by
    rw [h.lookup, ne_eq, entry_eq_none_iff, ← ne_eq, ← Nat.pos_iff_ne_zero, List.count_pos_iff]
  rw [counted]
  constructor
  · intro hid hnone
    obtain ⟨e, he, rfl⟩ := List.mem_map.1 hid
    simpa using List.lookup_eq_none_iff.1 hnone e he
  · intro hsome
    by_contra hnot
    exact hsome (lookup_eq_none hnot)

theorem Counts.isEmpty_iff (h : p.Counts ids) : p.isEmpty = true ↔ ids = [] := by
  have keys : p.counts = [] ↔ p.counts.map (·.1) = [] := List.map_eq_nil_iff.symm
  rw [isEmpty, List.isEmpty_iff, keys, List.eq_nil_iff_forall_not_mem,
    List.eq_nil_iff_forall_not_mem]
  exact forall_congr' fun id => not_congr h.mem_iff

theorem Counts.enter (h : p.Counts ids) (id : String) : (p.enter id).Counts (id :: ids) := by
  have contains : p.contains id = true ↔ id ∈ p.counts.map (·.1) := by
    simp [Pending.contains]
  unfold Pending.enter
  split
  · next hin =>
    rw [contains, h.mem_iff, ← List.count_pos_iff] at hin
    refine ⟨?_, fun k => ?_⟩
    · dsimp only
      rw [keys_map_entry id (· + 1)]
      exact h.nodup
    · dsimp only
      rw [lookup_map_entry id k (· + 1), h.lookup, List.count_cons]
      by_cases hk : k = id
      · subst hk
        obtain ⟨n, hn⟩ := Nat.exists_eq_add_of_lt hin
        simp [hn, entry]
      · simp [hk, Ne.symm hk]
  · next hout =>
    rw [contains] at hout
    refine ⟨?_, fun k => ?_⟩
    · dsimp only
      rw [List.map_append, List.nodup_append]
      refine ⟨h.nodup, by simp, ?_⟩
      rintro a ha _ hb rfl
      obtain rfl : a = id := List.mem_singleton.1 hb
      exact hout ha
    · dsimp only
      rw [List.lookup_append, h.lookup, List.count_cons]
      rw [h.mem_iff, ← List.count_eq_zero] at hout
      by_cases hk : k = id
      · subst hk
        simp [hout, entry]
      · have hb : (k == id) = false := beq_eq_false_iff_ne.2 hk
        simp [List.lookup_cons, hb, Ne.symm hk]

theorem contains_enter (p : Pending) (id : String) : (p.enter id).contains id = true := by
  unfold enter contains
  dsimp only
  split
  · next there =>
    obtain ⟨e, he, same⟩ := List.any_eq_true.1 there
    refine List.any_eq_true.2 ⟨(id, e.2 + 1), List.mem_map.2 ⟨e, he, ?_⟩, beq_self_eq_true id⟩
    exact if_pos (beq_iff_eq.1 same)
  · rw [List.any_append]
    simp

theorem Counts.leave (h : p.Counts ids) (id : String) : (p.leave id).Counts (ids.erase id) := by
  have keys := keys_map_entry id (· - 1) p.counts
  refine ⟨?_, fun k => ?_⟩
  · have sub : (p.leave id).counts.Sublist _ := List.filter_sublist
    have nodup := h.nodup
    rw [← keys] at nodup
    exact nodup.sublist (sub.map _)
  · unfold Pending.leave
    dsimp only
    rw [lookup_filter (keys ▸ h.nodup) (· != 0), lookup_map_entry id k (· - 1), h.lookup]
    by_cases hk : k = id
    · subst hk
      rw [if_pos rfl, List.count_erase_self]
      generalize ids.count k = n
      match n with
      | 0 => rfl
      | 1 => rfl
      | n + 2 => rfl
    · rw [if_neg hk, List.count_erase_of_ne hk]
      generalize ids.count k = n
      match n with
      | 0 => rfl
      | n + 1 => rfl

end Pending

end ServiceImport

import ServiceImport.Properties
import Mathlib.Data.List.Nodup

/-! # Bags as maps

A bag is the map from its keys to their values: the entries are what the look-up finds, and bags
with the same look-ups are equal.
-/

namespace ServiceImport

/-! ## Names -/

theorem sameName_iff {a b : String} :
    sameName a b = true ↔ a.toList.map Char.toLower = b.toList.map Char.toLower := by
  simp [sameName]

theorem sameName_self (a : String) : sameName a a = true := sameName_iff.2 rfl

theorem sameName_congr {a b : String} (h : sameName a b = true) (key : String) :
    sameName key a = sameName key b := by
  unfold sameName
  rw [sameName_iff.1 h]

namespace Properties

variable {p q : Properties} {key attr : String} {v : Value}

/-! ## Entries -/

theorem keys_nodup (p : Properties) : (p.entries.map (·.1)).Nodup := by
  unfold List.Nodup
  rw [List.pairwise_map]
  refine p.ascending.imp fun h => ?_
  rintro heq
  rw [heq] at h
  exact String.lt_irrefl _ h

theorem get?_eq_some_iff : p.get? key = some v ↔ (key, v) ∈ p.entries := by
  unfold get?
  rw [Option.map_eq_some_iff]
  constructor
  · rintro ⟨e, found, rfl⟩
    obtain rfl : e.1 = key := by simpa using List.find?_some found
    exact List.mem_of_find?_eq_some found
  · intro h
    obtain ⟨e, found⟩ : ∃ e, p.entries.find? (·.1 == key) = some e := by
      rw [← Option.isSome_iff_exists, List.find?_isSome]
      exact ⟨(key, v), h, by simp⟩
    have same : e.1 = key := by simpa using List.find?_some found
    refine ⟨e, found, ?_⟩
    rw [List.inj_on_of_nodup_map p.keys_nodup (List.mem_of_find?_eq_some found) h same]

theorem mem_keys_iff : key ∈ p.keys ↔ ∃ v, p.get? key = some v := by
  simp [keys, get?_eq_some_iff]

/-- Bags with the same values under all keys are equal. -/
theorem ext_get? (h : ∀ key, p.get? key = q.get? key) : p = q := by
  have mem : ∀ e, e ∈ p.entries ↔ e ∈ q.entries := by
    rintro ⟨key, v⟩
    rw [← get?_eq_some_iff, ← get?_eq_some_iff, h]
  have perm : p.entries.Perm q.entries :=
    (List.perm_ext_iff_of_nodup p.keys_nodup.of_map q.keys_nodup.of_map).2 mem
  -- The order of the entries is fixed by their keys.
  refine eq_of_entries (perm.eq_of_pairwise ?_ p.ascending q.ascending)
  intro a b _ _ hab hba
  exact absurd hba (String.lt_asymm hab)

/-! ## Look-up by name -/

theorem getNamed?_of_none (h : p.get? attr = none) :
    p.getNamed? attr = (p.entries.find? (sameName ·.1 attr)).map (·.2) := by
  unfold getNamed?
  rw [h]
  rfl

theorem getNamed?_of_some (h : p.get? attr = some v) : p.getNamed? attr = some v := by
  unfold getNamed?
  rw [h]
  rfl

theorem exists_of_getNamed? (h : p.getNamed? attr = some v) :
    ∃ key, sameName key attr = true ∧ p.get? key = some v := by
  cases hget : p.get? attr with
  | some w =>
    rw [getNamed?_of_some hget] at h
    exact ⟨attr, sameName_self attr, hget.trans h⟩
  | none =>
    rw [getNamed?_of_none hget, Option.map_eq_some_iff] at h
    obtain ⟨e, found, rfl⟩ := h
    have named : sameName e.1 attr = true := by simpa using List.find?_some found
    exact ⟨e.1, named, get?_eq_some_iff.2 (List.mem_of_find?_eq_some found)⟩

theorem isSome_getNamed? (hkey : p.get? key = some v) (h : sameName key attr = true) :
    (p.getNamed? attr).isSome = true := by
  cases hget : p.get? attr with
  | some w => rw [getNamed?_of_some hget, Option.isSome_some]
  | none =>
    rw [getNamed?_of_none hget, Option.isSome_map, List.find?_isSome]
    exact ⟨(key, v), get?_eq_some_iff.1 hkey, h⟩

end Properties

end ServiceImport

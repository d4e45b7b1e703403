import ServiceImport.Filter.Matching
import Mathlib.Data.List.Infix

/-! # Wildcards

A value with wildcards matches a text when some choice of gaps between its parts makes the text. The
search takes each part at the first place where it occurs and never comes back to it. No match is
lost by that: what follows a later place is the end of what follows the first one.
-/

namespace ServiceImport

/-! ## Texts made of parts -/

/-- The text consists of the parts in order, with a gap between any two of them. -/
def MadeOf : List String → String → Prop
  | [], _ => False
  | first :: parts, s => ∃ gaps : List String, gaps.length = parts.length ∧
      s = first ++ String.join (List.zipWith (· ++ ·) gaps parts)

/-- The value is a text made of the parts, or a list with such a text. -/
def Value.IsMadeOf (parts : List String) : Value → Prop
  | .text s => MadeOf parts s
  | .list items => ∃ s ∈ items, MadeOf parts s
  | .int _ | .flag _ => False

/-- The characters are those of the parts in order, each of them behind a gap. -/
inductive Spaced : List (List Char) → List Char → Prop
  | nil : Spaced [] []
  | cons (gap part : List Char) {parts : List (List Char)} {s : List Char} :
      Spaced parts s → Spaced (part :: parts) (gap ++ (part ++ s))

@[simp] theorem spaced_nil_iff {s : List Char} : Spaced [] s ↔ s = [] := by
  constructor
  · rintro ⟨⟩
    rfl
  · rintro rfl
    exact .nil

@[simp] theorem spaced_singleton_iff {last s : List Char} : Spaced [last] s ↔ last <:+ s := by
  constructor
  · rintro ⟨⟩
    next gap _ h => exact ⟨gap, by simp [spaced_nil_iff.1 h]⟩
  · rintro ⟨gap, rfl⟩
    simpa using Spaced.cons gap last .nil

theorem Spaced.prepend {part s : List Char} {parts : List (List Char)}
    (h : Spaced (part :: parts) s) (front : List Char) : Spaced (part :: parts) (front ++ s) := by
  cases h with
  | cons gap _ h =>
    rw [← List.append_assoc]
    exact .cons (front ++ gap) part h

theorem exists_gaps_of_spaced {parts : List String} {s : List Char}
    (h : Spaced (parts.map String.toList) s) :
    ∃ gaps : List String, gaps.length = parts.length ∧
      s = (String.join (List.zipWith (· ++ ·) gaps parts)).toList := by
  induction parts generalizing s with
  | nil => exact ⟨[], rfl, by simpa using h⟩
  | cons part parts ih =>
    rw [List.map_cons] at h
    cases h with
    | cons gap _ h =>
      obtain ⟨gaps, hlen, rfl⟩ := ih h
      exact ⟨String.ofList gap :: gaps, by simp [hlen], by simp [String.toList_join]⟩

theorem spaced_of_gaps {parts gaps : List String} (h : gaps.length = parts.length) :
    Spaced (parts.map String.toList) (String.join (List.zipWith (· ++ ·) gaps parts)).toList := by
  induction parts generalizing gaps with
  | nil => simp
  | cons part parts ih =>
    obtain ⟨gap, gaps, rfl⟩ := List.exists_cons_of_length_eq_add_one h
    have := Spaced.cons gap.toList part.toList (ih (Nat.succ.inj h))
    simpa [String.toList_join] using this

theorem madeOf_cons_iff {first s : String} {parts : List String} :
    MadeOf (first :: parts) s ↔
      ∃ t, s.toList = first.toList ++ t ∧ Spaced (parts.map String.toList) t := by
  constructor
  · rintro ⟨gaps, hlen, rfl⟩
    exact ⟨_, by simp, spaced_of_gaps hlen⟩
  · rintro ⟨t, hs, ht⟩
    obtain ⟨gaps, hlen, rfl⟩ := exists_gaps_of_spaced ht
    exact ⟨gaps, hlen, String.toList_inj.1 (by simpa using hs)⟩

@[simp] theorem madeOf_singleton_iff {part s : String} : MadeOf [part] s ↔ s = part := by
  simp [madeOf_cons_iff, String.toList_inj]

/-! ## The search for a part -/

theorem afterFirst?_sound {part s rest : List Char} (h : afterFirst? part s = some rest) :
    ∃ gap, s = gap ++ (part ++ rest) := by
  induction s with
  | nil =>
    simp only [afterFirst?, Option.ite_none_right_eq_some, Option.some.injEq] at h
    obtain ⟨hpart, rfl⟩ := h
    exact ⟨[], by simp [List.isEmpty_iff.1 hpart]⟩
  | cons c s ih =>
    rw [afterFirst?] at h
    split at h
    · next hhere =>
      obtain ⟨t, ht⟩ := List.isPrefixOf_iff_prefix.1 hhere
      rw [← ht, List.drop_left, Option.some.injEq] at h
      exact ⟨[], by simp [← ht, h]⟩
    · obtain ⟨gap, rfl⟩ := ih h
      exact ⟨c :: gap, rfl⟩

/-- The first place comes before any other, so what follows it ends in what follows the other. -/
theorem afterFirst?_earliest (gap part rest : List Char) :
    ∃ more, afterFirst? part (gap ++ (part ++ rest)) = some (more ++ rest) := by
  induction gap with
  | nil =>
    refine ⟨[], ?_⟩
    rw [List.nil_append, List.nil_append]
    cases h : part ++ rest with
    | nil =>
      obtain ⟨rfl, rfl⟩ := List.append_eq_nil_iff.1 h
      rfl
    | cons c s =>
      have hhere : part.isPrefixOf (c :: s) = true :=
        List.isPrefixOf_iff_prefix.2 ⟨rest, h⟩
      rw [afterFirst?, if_pos hhere, ← h, List.drop_left]
  | cons c gap ih =>
    rw [List.cons_append, afterFirst?]
    split
    · -- The part occurs here already, and the rest is left behind whatever it takes of the gap.
      have hle : part.length ≤ (c :: gap ++ part).length := by
        simp only [List.length_append]
        omega
      refine ⟨(c :: gap ++ part).drop part.length, ?_⟩
      rw [← List.drop_append_of_le_length hle]
      simp
    · exact ih

/-! ## The search for all parts -/

/-- Taking each part where it first occurs finds the parts wherever they can be found. -/
theorem endsWithParts_iff {parts : List (List Char)} {s : List Char} :
    endsWithParts parts s = true ↔ Spaced parts s := by
  fun_induction endsWithParts parts s with
  | case1 s => simp
  | case2 s last => simp
  | case3 part parts s more hfirst =>
    refine iff_of_false Bool.false_ne_true fun h => ?_
    cases h with
    | @cons gap _ _ rest _ =>
      obtain ⟨front, hfound⟩ := afterFirst?_earliest gap part rest
      rw [hfound] at hfirst
      cases hfirst
  | case4 part parts s more rest hfirst ih =>
    rw [ih]
    constructor
    · intro h
      obtain ⟨gap, rfl⟩ := afterFirst?_sound hfirst
      exact .cons gap part h
    · intro h
      cases h with
      | @cons gap _ _ rest' h =>
        obtain ⟨front, hfound⟩ := afterFirst?_earliest gap part rest'
        obtain rfl : front ++ rest' = rest := by
          rw [hfound] at hfirst
          exact Option.some.inj hfirst
        -- There is another part, whose gap takes what the first place leaves over.
        cases parts with
        | nil => exact absurd rfl more
        | cons next parts => exact h.prepend front

theorem matchesParts_iff {parts : List String} {s : String} :
    matchesParts (parts.map String.toList) s.toList = true ↔ MadeOf parts s := by
  cases parts with
  | nil => simp [matchesParts, MadeOf]
  | cons first parts =>
    rw [List.map_cons, matchesParts, Bool.and_eq_true, List.isPrefixOf_iff_prefix,
      endsWithParts_iff, madeOf_cons_iff]
    constructor
    · rintro ⟨⟨t, ht⟩, h⟩
      rw [← ht, List.drop_left] at h
      exact ⟨t, ht.symm, h⟩
    · rintro ⟨t, ht, h⟩
      rw [ht, List.drop_left]
      exact ⟨List.prefix_append _ _, h⟩

/-! ## Values -/

namespace Value

theorem hasParts_iff {parts : List String} {v : Value} :
    v.hasParts parts = true ↔ v.IsMadeOf parts := by
  cases v with
  | text s => simp [hasParts, strings, IsMadeOf, matchesParts_iff]
  | list items => simp [hasParts, strings, IsMadeOf, matchesParts_iff]
  | int n => simp [hasParts, strings, IsMadeOf]
  | flag b => simp [hasParts, strings, IsMadeOf]

@[simp] theorem not_isMadeOf_nil (v : Value) : ¬ v.IsMadeOf [] := by
  cases v <;> simp [IsMadeOf, MadeOf]

theorem isMadeOf_singleton_iff {part : String} {v : Value} :
    v.IsMadeOf [part] ↔ v = text part ∨ ∃ items, v = list items ∧ part ∈ items := by
  cases v <;> simp [IsMadeOf]

end Value

namespace Filter

/-- A wildcard filter holds exactly where the value of its attribute is made of its parts, or has an
item that is. With one part that is the part itself, and with none it is nothing. -/
theorem holds_substring_iff (p : Properties) (attr : String) :
    (∀ parts, holds p (substring attr parts) = true ↔
      ∃ v, p.getNamed? attr = some v ∧ v.IsMadeOf parts) ∧
    (∀ part, holds p (substring attr [part]) = true ↔
      p.getNamed? attr = some (.text part) ∨
        ∃ items, p.getNamed? attr = some (.list items) ∧ part ∈ items) ∧
    holds p (substring attr []) = false := by
  have holds_iff : ∀ parts, holds p (substring attr parts) = true ↔
      ∃ v, p.getNamed? attr = some v ∧ v.IsMadeOf parts := by
    intro parts
    rw [holds, valueHolds, Option.any_eq_true]
    simp only [Value.hasParts_iff]
  refine ⟨holds_iff, fun part => ?_, ?_⟩
  · rw [holds_iff]
    constructor
    · rintro ⟨v, found, made⟩
      rcases Value.isMadeOf_singleton_iff.1 made with rfl | ⟨items, rfl, hpart⟩
      · exact .inl found
      · exact .inr ⟨items, found, hpart⟩
    · rintro (found | ⟨items, found, hpart⟩)
      · exact ⟨_, found, Value.isMadeOf_singleton_iff.2 (.inl rfl)⟩
      · exact ⟨_, found, Value.isMadeOf_singleton_iff.2 (.inr ⟨items, rfl, hpart⟩)⟩
  · rw [Bool.eq_false_iff, ne_eq, holds_iff]
    rintro ⟨v, -, made⟩
    exact v.not_isMadeOf_nil made

/-- Of the two places of the middle part the first is taken, and the text still ends in the last. -/
example : holds (.ofList [("name", .text "abcabc")]) (substring "NAME" ["", "b", "c"]) = true := by
  decide

end Filter

end ServiceImport

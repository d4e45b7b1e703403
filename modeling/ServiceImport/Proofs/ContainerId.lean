import Mathlib.Data.List.TakeWhile
import ServiceImport.ContainerId

/-! # Container identities in text

A text with a colon is parted at its first one, in one way. An identity is read from it when neither
part is empty, and then its own text is that text again. So the text of an identity is read back to
it exactly when its first colon is the one after the namespace and both parts are there, however
many colons the name has.
-/

namespace ServiceImport

namespace ContainerId

variable {text before after : String} {id : ContainerId}

/-! ## The first colon -/

/-- The part of a text before its first colon, and the part after it. -/
structure Parted (text before after : String) : Prop where
  joined : text = before ++ ":" ++ after
  first : ':' ∉ before.toList

theorem Parted.toList_eq (parted : Parted text before after) :
    text.toList = before.toList ++ ':' :: after.toList := by
  rw [parted.joined, String.toList_append, String.toList_append, List.append_assoc]
  rfl

theorem ne_colon {cs : List Char} (colonless : ':' ∉ cs) : ∀ c ∈ cs, (c != ':') = true := by
  intro c hc
  rw [bne_iff_ne]
  rintro rfl
  exact colonless hc

theorem exists_parted (colon : ':' ∈ text.toList) : ∃ before after, Parted text before after := by
  obtain ⟨before, after, split, first⟩ := List.eq_append_cons_of_mem colon
  refine ⟨String.ofList before, String.ofList after, ?_, ?_⟩
  · rw [← String.toList_inj, split]
    simp
  · rwa [String.toList_ofList]

theorem parted_render_iff : Parted id.render id.ns id.name ↔ ':' ∉ id.ns.toList :=
  ⟨Parted.first, Parted.mk rfl⟩

/-! ## Reading -/

theorem parse?_of_not_mem (colonless : ':' ∉ text.toList) : parse? text = none := by
  have rest : text.toList.dropWhile (· != ':') = [] :=
    List.dropWhile_eq_nil_iff.2 (ne_colon colonless)
  unfold parse?
  rw [rest]

theorem Parted.parse?_eq (parted : Parted text before after) :
    parse? text = if before = "" ∨ after = "" then none else some ⟨before, after⟩ := by
  have ns : text.toList.takeWhile (· != ':') = before.toList := by
    rw [parted.toList_eq, List.takeWhile_append_of_pos (ne_colon parted.first)]
    simp
  have rest : text.toList.dropWhile (· != ':') = ':' :: after.toList := by
    rw [parted.toList_eq, List.dropWhile_append_of_pos (ne_colon parted.first)]
    simp
  unfold parse?
  rw [ns, rest]
  simp only [Bool.or_eq_true, List.isEmpty_iff, String.toList_eq_nil_iff, String.ofList_toList]

theorem parse?_eq_some_iff :
    parse? text = some id ↔ Parted text id.ns id.name ∧ id.ns ≠ "" ∧ id.name ≠ "" := by
  constructor
  · intro read
    by_cases colon : ':' ∈ text.toList
    · obtain ⟨before, after, parted⟩ := exists_parted colon
      rw [parted.parse?_eq] at read
      split at read
      · cases read
      · next there =>
        cases read
        exact ⟨parted, not_or.1 there⟩
    · rw [parse?_of_not_mem colon] at read
      cases read
  · rintro ⟨parted, ns, name⟩
    rw [parted.parse?_eq, if_neg (not_or.2 ⟨ns, name⟩)]

theorem parse?_eq_none_iff :
    parse? text = none ↔
      ':' ∉ text.toList ∨ ∃ before after, Parted text before after ∧ (before = "" ∨ after = "") := by
  constructor
  · intro refused
    by_cases colon : ':' ∈ text.toList
    · obtain ⟨before, after, parted⟩ := exists_parted colon
      rw [parted.parse?_eq] at refused
      split at refused
      · next empty => exact .inr ⟨before, after, parted, empty⟩
      · cases refused
    · exact .inl colon
  · rintro (colonless | ⟨before, after, parted, empty⟩)
    · exact parse?_of_not_mem colonless
    · rw [parted.parse?_eq, if_pos empty]

/-! ## Identities and their texts -/

/-- What is read from a text has that text. The text of an identity is read back to it exactly when
its namespace has something in it but no colon and its name has something in it. A text that has no
colon, or nothing before its first or after it, is refused, and no other is. -/
theorem parse_exact (text : String) (id : ContainerId) :
    (parse? text = some id → id.render = text) ∧
    (parse? id.render = some id ↔ id.ns ≠ "" ∧ ':' ∉ id.ns.toList ∧ id.name ≠ "") ∧
    (parse? text = none ↔
      ':' ∉ text.toList ∨
        ∃ before after, Parted text before after ∧ (before = "" ∨ after = "")) := by
  refine ⟨fun read => ?_, ?_, parse?_eq_none_iff⟩
  · exact (parse?_eq_some_iff.1 read).1.joined.symm
  · rw [parse?_eq_some_iff, parted_render_iff]
    exact and_left_comm

/-- A name that is an address keeps its colons. A namespace with a colon is not read back. -/
theorem parse_exact_address :
    parse? "home:tcp://lamps:3282/hall" = some ⟨"home", "tcp://lamps:3282/hall"⟩ ∧
      render ⟨"home", "tcp://lamps:3282/hall"⟩ = "home:tcp://lamps:3282/hall" ∧
      parse? (render ⟨"home:tcp", "lamps"⟩) ≠ some ⟨"home:tcp", "lamps"⟩ := by
  have read : parse? "home:tcp://lamps:3282/hall" = some ⟨"home", "tcp://lamps:3282/hall"⟩ := by
    decide
  refine ⟨read, (parse_exact _ _).1 read, fun readBack => ?_⟩
  obtain ⟨_, noColon, _⟩ := (parse_exact "" ⟨"home:tcp", "lamps"⟩).2.1.1 readBack
  exact noColon (by decide)

end ContainerId

end ServiceImport

import ServiceImport.Filter.Matching
import ServiceImport.Proofs.Properties

/-! # Names of attributes

Whether a bag satisfies a filter depends on nothing but the values under the names that the filter
gives, and neither the case of these names nor that of the keys matters.
-/

namespace ServiceImport

/-! ## What bags have under a name -/

namespace Properties

/-- No two keys of the bag are the name up to case. -/
def NamedOnce (p : Properties) (attr : String) : Prop :=
  ∀ k ∈ p.keys, ∀ l ∈ p.keys, sameName k attr = true → sameName l attr = true → k = l

instance (p : Properties) (attr : String) : Decidable (p.NamedOnce attr) :=
  inferInstanceAs (Decidable (∀ k ∈ p.keys, ∀ l ∈ p.keys,
    sameName k attr = true → sameName l attr = true → k = l))

/-- Each bag has the name at most once, and either neither of them has it or they have the same
value under it. -/
structure AgreeOn (attr : String) (p q : Properties) : Prop where
  left : p.NamedOnce attr
  right : q.NamedOnce attr
  same : (∀ k ∈ p.keys, sameName k attr = false) ∧ (∀ l ∈ q.keys, sameName l attr = false) ∨
    ∃ k ∈ p.keys, ∃ l ∈ q.keys, sameName k attr = true ∧ sameName l attr = true ∧
      p.get? k = q.get? l

variable {p q : Properties} {key attr other : String}

theorem getNamed?_eq_none (h : ∀ k ∈ p.keys, sameName k attr = false) :
    p.getNamed? attr = none := by
  cases hget : p.getNamed? attr with
  | none => rfl
  | some v =>
    obtain ⟨key, named, found⟩ := exists_of_getNamed? hget
    rw [h key (mem_keys_iff.2 ⟨v, found⟩)] at named
    cases named

theorem getNamed?_eq_get? (once : p.NamedOnce attr) (hkey : key ∈ p.keys)
    (named : sameName key attr = true) : p.getNamed? attr = p.get? key := by
  obtain ⟨v, hv⟩ := mem_keys_iff.1 hkey
  obtain ⟨w, hw⟩ := Option.isSome_iff_exists.1 (isSome_getNamed? hv named)
  obtain ⟨key', named', hget⟩ := exists_of_getNamed? hw
  obtain rfl := once key' (mem_keys_iff.2 ⟨w, hget⟩) key hkey named' named
  rw [hw, hget]

theorem NamedOnce.congr (h : sameName attr other = true) (once : p.NamedOnce attr) :
    p.NamedOnce other := by
  simpa only [NamedOnce, sameName_congr h] using once

theorem AgreeOn.getNamed?_eq (agree : AgreeOn attr p q) (h : sameName attr other = true) :
    p.getNamed? attr = q.getNamed? other := by
  rcases agree.same with ⟨hp, hq⟩ | ⟨k, hk, l, hl, hattr, hattr', heq⟩
  · simp only [sameName_congr h] at hq
    rw [getNamed?_eq_none hp, getNamed?_eq_none hq]
  · rw [sameName_congr h] at hattr'
    rw [getNamed?_eq_get? agree.left hk hattr,
      getNamed?_eq_get? (agree.right.congr h) hl hattr', heq]

end Properties

/-! ## Filters up to the case of names -/

namespace Filter

mutual

/-- The second filter is the first with its attributes written in another case, each for itself. -/
inductive Recased : Filter → Filter → Prop
  | all {items items' : List Filter} :
      RecasedList items items' → Recased (all items) (all items')
  | any {items items' : List Filter} :
      RecasedList items items' → Recased (any items) (any items')
  | not {item item' : Filter} : Recased item item' → Recased (not item) (not item')
  | present {attr attr' : String} :
      sameName attr attr' = true → Recased (present attr) (present attr')
  | equal {attr attr' : String} (value : String) :
      sameName attr attr' = true → Recased (equal attr value) (equal attr' value)
  | approx {attr attr' : String} (value : String) :
      sameName attr attr' = true → Recased (approx attr value) (approx attr' value)
  | atLeast {attr attr' : String} (value : String) :
      sameName attr attr' = true → Recased (atLeast attr value) (atLeast attr' value)
  | atMost {attr attr' : String} (value : String) :
      sameName attr attr' = true → Recased (atMost attr value) (atMost attr' value)
  | substring {attr attr' : String} (parts : List String) :
      sameName attr attr' = true → Recased (substring attr parts) (substring attr' parts)

inductive RecasedList : List Filter → List Filter → Prop
  | nil : RecasedList [] []
  | cons {item item' : Filter} {items items' : List Filter} :
      Recased item item' → RecasedList items items' →
        RecasedList (item :: items) (item' :: items')

end

mutual

/-- The attributes that a filter names. -/
def attributes : Filter → List String
  | all items => attributesList items
  | any items => attributesList items
  | not item => attributes item
  | present attr => [attr]
  | equal attr _ => [attr]
  | approx attr _ => [attr]
  | atLeast attr _ => [attr]
  | atMost attr _ => [attr]
  | substring attr _ => [attr]

def attributesList : List Filter → List String
  | [] => []
  | item :: rest => attributes item ++ attributesList rest

end

/-! ## What filters say -/

/-- Looking up the names of a filter in one bag, and the same names in any other case in the other
bag, gives the same values. -/
def LooksAlike (p q : Properties) (attrs : List String) : Prop :=
  ∀ attr ∈ attrs, ∀ attr', sameName attr attr' = true → p.getNamed? attr = q.getNamed? attr'

variable {p q : Properties}

theorem valueHolds_eq {attr attr' : String} (alike : LooksAlike p q [attr])
    (h : sameName attr attr' = true) (test : Value → Bool) :
    valueHolds p attr test = valueHolds q attr' test := by
  unfold valueHolds
  rw [alike attr (List.mem_singleton_self attr) attr' h]

mutual

theorem Recased.holds_eq {f g : Filter} :
    Recased f g → LooksAlike p q f.attributes → holds p f = holds q g
  | .all items, alike => (items.hold_eq alike).1
  | .any items, alike => (items.hold_eq alike).2
  | .not item, alike => congrArg Bool.not (item.holds_eq alike)
  | .present h, alike => valueHolds_eq alike h _
  | .equal _ h, alike => valueHolds_eq alike h _
  | .approx _ h, alike => valueHolds_eq alike h _
  | .atLeast _ h, alike => valueHolds_eq alike h _
  | .atMost _ h, alike => valueHolds_eq alike h _
  | .substring _ h, alike => valueHolds_eq alike h _

theorem RecasedList.hold_eq {items items' : List Filter} :
    RecasedList items items' → LooksAlike p q (attributesList items) →
      allHold p items = allHold q items' ∧ someHolds p items = someHolds q items'
  | .nil, _ => ⟨rfl, rfl⟩
  | .cons item items, alike => by
    have first := item.holds_eq fun attr h => alike attr (List.mem_append_left _ h)
    have rest := items.hold_eq fun attr h => alike attr (List.mem_append_right _ h)
    exact ⟨congrArg₂ and first rest.1, congrArg₂ or first rest.2⟩

end

/-- A filter and the same filter with its attributes in another case say the same of two bags that
agree on these attributes. -/
theorem holds_recased {f g : Filter} (recased : Recased f g)
    (agree : ∀ attr ∈ f.attributes, Properties.AgreeOn attr p q) : holds p f = holds q g := by
  apply recased.holds_eq
  intro attr hattr attr' h
  exact (agree attr hattr).getNamed?_eq h

/-- The bags write a key in two ways, differ in what is not named, and both lack one name. -/
theorem holds_recased_region :
    let f := all [substring "region" ["e", ""], not (present "Tier")]
    let g := all [substring "REGION" ["e", ""], not (present "tier")]
    let p := Properties.ofList [("Region", .text "eu"), ("load", .int 3)]
    let q := Properties.ofList [("load", .int 9), ("regioN", .text "eu"), ("zone", .flag true)]
    Recased f g ∧ (∀ attr ∈ f.attributes, Properties.AgreeOn attr p q) ∧
      holds p f = holds q g ∧ holds q g = true := by
  intro f g p q
  have recased : Recased f g :=
    .all (.cons (.substring _ (by decide)) (.cons (.not (.present (by decide))) .nil))
  have agree : ∀ attr ∈ f.attributes, Properties.AgreeOn attr p q := by
    intro attr hattr
    have hattr : attr ∈ ["region", "Tier"] := hattr
    simp only [List.mem_cons, List.not_mem_nil, or_false] at hattr
    rcases hattr with rfl | rfl
    · refine ⟨by decide, by decide, .inr ?_⟩
      exact ⟨"Region", by decide, "regioN", by decide, by decide⟩
    · exact ⟨by decide, by decide, .inl ⟨by decide, by decide⟩⟩
  exact ⟨recased, agree, holds_recased recased agree, by decide⟩

end Filter

end ServiceImport

import ServiceImport.Filter.Printer
import ServiceImport.Proofs.Filter.Reading

/-! # Filters and their texts

What is read from a text is well-formed, and a well-formed filter is read back from its text. So
filters are written and read without loss exactly where they are well-formed.
-/

namespace ServiceImport

/-! ## Trimming -/

namespace Text

theorem trimEnd_cons {c : Char} {s : List Char} (h : isBlank c = false) :
    trimEnd (c :: s) = c :: trimEnd s := by
  unfold trimEnd
  rw [List.reverse_cons, List.dropWhile_append]
  split
  · next hempty => simp [List.isEmpty_iff.1 hempty, h]
  · simp

@[simp] theorem trimEnd_trimEnd (s : List Char) : trimEnd (trimEnd s) = trimEnd s := by
  have := trimStart_trimStart s.reverse
  unfold trimStart at this
  unfold trimEnd
  rw [List.reverse_reverse, this]

theorem head?_trim (s : List Char) : (trim s).head? = s.find? (!isBlank ·) := by
  have first : (trimStart s).head? = s.find? (!isBlank ·) := by
    unfold trimStart
    induction s with
    | nil => rfl
    | cons c s ih =>
      cases h : isBlank c with
      | true => simpa [h] using ih
      | false => simp [h]
  rw [← first]
  unfold trim
  cases h : trimStart s with
  | nil => rfl
  | cons c t =>
    rw [trimEnd_cons (head_trimStart_not_blank (by rw [h]; rfl))]
    rfl

@[simp] theorem trim_trim (s : List Char) : trim (trim s) = trim s := by
  unfold trim
  cases h : trimStart s with
  | nil => rfl
  | cons c t =>
    have hc : isBlank c = false := head_trimStart_not_blank (by rw [h]; rfl)
    rw [trimEnd_cons hc, trimStart_cons hc, trimEnd_cons hc, trimEnd_trimEnd]

theorem mem_of_mem_trim {c : Char} {s : List Char} (h : c ∈ trim s) : c ∈ s := by
  unfold trim trimEnd trimStart at h
  rw [List.mem_reverse] at h
  have := (List.dropWhile_sublist _).subset h
  exact (List.dropWhile_sublist _).subset (List.mem_reverse.1 this)

end Text

namespace Filter

/-! ## Well-formed filters -/

/-- A name that an attribute can have in a text. -/
structure IsAttribute (attr : String) : Prop where
  named : attr ≠ ""
  trimmed : Text.trim attr.toList = attr.toList
  plain : ∀ c ∈ attr.toList, c ∉ ['=', '<', '>', '~', '(', ')']
  first : ∀ c, attr.toList.head? = some c → c ∉ ['&', '|', '!']

mutual

/-- Connectives join something, attributes have names, and wildcards stand between two parts or
more, of which some say more than the presence of the attribute. -/
def IsFormed : Filter → Prop
  | all items => items ≠ [] ∧ AreFormed items
  | any items => items ≠ [] ∧ AreFormed items
  | not item => IsFormed item
  | present attr => IsAttribute attr
  | equal attr _ => IsAttribute attr
  | approx attr _ => IsAttribute attr
  | atLeast attr _ => IsAttribute attr
  | atMost attr _ => IsAttribute attr
  | substring attr parts => IsAttribute attr ∧ 2 ≤ parts.length ∧ parts ≠ ["", ""]

def AreFormed : List Filter → Prop
  | [] => True
  | item :: rest => IsFormed item ∧ AreFormed rest

end

/-- Filters that have a text. -/
structure WellFormed (f : Filter) : Prop where
  formed : f.IsFormed
  shallow : f.depth ≤ maxDepth

/-! ## What is read is well-formed -/

theorem AttributeText.isAttribute {run : List Char} {attr : String} (h : AttributeText run attr) :
    IsAttribute attr := by
  obtain ⟨plain, first, named, rfl⟩ := h
  constructor
  · intro hempty
    apply named
    rw [← String.toList_ofList (l := Text.trim run), hempty]
    rfl
  · rw [String.toList_ofList, Text.trim_trim]
  · rw [String.toList_ofList]
    exact fun c hc => plain c (Text.mem_of_mem_trim hc)
  · rw [String.toList_ofList, Text.head?_trim]
    exact first

theorem ValueText.parts_ne {v : List Char} {parts : List (List Char)} (h : ValueText v parts)
    (hstar : v ≠ ['*']) : parts.map String.ofList ≠ ["", ""] := by
  intro hparts
  apply hstar
  obtain ⟨a, t, rfl, ha, ht⟩ := List.map_eq_cons_iff.1 hparts
  obtain ⟨b, t, rfl, hb, ht⟩ := List.map_eq_cons_iff.1 ht
  obtain rfl := List.map_eq_nil_iff.1 ht
  obtain rfl := String.ofList_eq_empty_iff.1 ha
  obtain rfl := String.ofList_eq_empty_iff.1 hb
  exact h.eq_wildcard

theorem OperatorText.isFormed {attr : String} {o : List Char} {f : Filter}
    (named : IsAttribute attr) (h : OperatorText attr o f) : f.IsFormed := by
  cases h with
  | substring hv hlen hstar => exact ⟨named, by rw [List.length_map]; omega, hv.parts_ne hstar⟩
  | _ => exact named

mutual

theorem FilterText.isFormed {s : List Char} {f : Filter} : FilterText s f → f.IsFormed
  | .connective _ h _ => h.isFormed
  | .item _ (.mk named operator) => operator.isFormed named.isAttribute

theorem ConnectiveText.isFormed {s : List Char} {f : Filter} : ConnectiveText s f → f.IsFormed
  | .all ne h => ⟨ne, h.areFormed⟩
  | .any ne h => ⟨ne, h.areFormed⟩
  | .not _ h => h.isFormed

theorem FiltersText.areFormed {s : List Char} {items : List Filter} :
    FiltersText s items → AreFormed items
  | .nil => trivial
  | .cons _ item rest => ⟨item.isFormed, rest.areFormed⟩

end

/-! ## What is written is read back -/

theorem ValueText.escape_append {s part : List Char} {parts : List (List Char)}
    (h : ValueText s (part :: parts)) (v : List Char) :
    ValueText (escape v ++ s) ((v ++ part) :: parts) := by
  induction v with
  | nil => exact h
  | cons c v ih =>
    unfold escape at ih ⊢
    rw [List.flatMap_cons, List.append_assoc]
    split
    · exact ValueText.escaped ih
    · next hc =>
      refine ValueText.plain ?_ ih
      simpa [isEscaped, and_assoc] using hc

theorem valueText_escape (v : List Char) : ValueText (escape v) [v] := by
  simpa using ValueText.empty.escape_append v

theorem valueText_joinParts {parts : List (List Char)} (ne : parts ≠ []) :
    ValueText (joinParts parts) parts := by
  induction parts with
  | nil => exact absurd rfl ne
  | cons part rest ih =>
    cases rest with
    | nil => simpa [joinParts] using valueText_escape part
    | cons next rest =>
      have hjoin : joinParts (part :: next :: rest) =
          escape part ++ '*' :: joinParts (next :: rest) := by
        simp [joinParts, List.intercalate_cons_cons]
      rw [hjoin]
      simpa using (ValueText.wildcard (ih (by simp))).escape_append part

theorem IsAttribute.text {attr : String} (h : IsAttribute attr) :
    AttributeText attr.toList attr := by
  refine ⟨h.plain, ?_, ?_, ?_⟩
  · rw [← Text.head?_trim, h.trimmed]
    exact h.first
  · rw [h.trimmed]
    exact fun hnil => h.named (String.toList_eq_nil_iff.1 hnil)
  · rw [h.trimmed, String.ofList_toList]

theorem blanks_nil : Blanks [] := by simp [Blanks]

theorem filterText_leaf {attr operator : String} {value : List Char} {f : Filter}
    (named : IsAttribute attr) (h : OperatorText attr (operator.toList ++ value) f) :
    FilterText (leaf attr operator value) f := by
  simpa [leaf] using FilterText.item blanks_nil (ItemText.mk named.text h)

theorem filterText_comparison {attr operator value : String} {make : String → Filter}
    (named : IsAttribute attr)
    (h : ∀ {v part : List Char}, ValueText v [part] →
      OperatorText attr (operator.toList ++ v) (make (String.ofList part))) :
    FilterText (leaf attr operator (escape value.toList)) (make value) := by
  have := filterText_leaf named (h (valueText_escape value.toList))
  rwa [String.ofList_toList] at this

theorem filterText_substring {attr : String} {parts : List String} (named : IsAttribute attr)
    (two : 2 ≤ parts.length) (ne : parts ≠ ["", ""]) :
    FilterText (substring attr parts).chars (substring attr parts) := by
  have hparts : (parts.map String.toList).map String.ofList = parts := by
    simp [Function.comp_def]
  have hlen : 1 < (parts.map String.toList).length := by
    rw [List.length_map]
    omega
  have hv : ValueText (joinParts (parts.map String.toList)) (parts.map String.toList) := by
    apply valueText_joinParts
    intro hnil
    rw [hnil] at hlen
    simp at hlen
  have hstar : joinParts (parts.map String.toList) ≠ ['*'] := by
    intro h
    rw [h] at hv
    rw [← hparts, hv.parts_of_wildcard] at ne
    exact ne rfl
  have : OperatorText attr _ (substring attr _) := OperatorText.substring hv hlen hstar
  rw [hparts] at this
  exact filterText_leaf named this

theorem filterText_connective {c : Char} {s : List Char} {f : Filter}
    (h : ConnectiveText (c :: s) f) : FilterText (['(', c] ++ s ++ [')']) f := by
  simpa using FilterText.connective blanks_nil h blanks_nil

mutual

theorem filterText_chars : ∀ {f : Filter}, f.IsFormed → FilterText f.chars f
  | all _, h => filterText_connective (ConnectiveText.all h.1 (filtersText_charsList h.2))
  | any _, h => filterText_connective (ConnectiveText.any h.1 (filtersText_charsList h.2))
  | not item, h => by
    have : FilterText item.chars item := filterText_chars h
    exact filterText_connective (ConnectiveText.not blanks_nil this)
  | present _, h => filterText_leaf h OperatorText.present
  | equal _ _, h => filterText_comparison h OperatorText.equal
  | approx _ _, h => filterText_comparison h OperatorText.approx
  | atLeast _ _, h => filterText_comparison h OperatorText.atLeast
  | atMost _ _, h => filterText_comparison h OperatorText.atMost
  | substring _ _, h => filterText_substring h.1 h.2.1 h.2.2

theorem filtersText_charsList : ∀ {items : List Filter},
    AreFormed items → FiltersText (charsList items) items
  | [], _ => FiltersText.nil
  | _ :: _, h =>
    FiltersText.cons blanks_nil (filterText_chars h.1) (filtersText_charsList h.2)

end

/-! ## Whole filters -/

theorem parse_eq_ok_iff_readWhole {text : String} {f : Filter} :
    parse text = .ok f ↔ readWhole (Text.trimEnd text.toList) = .ok f := by
  unfold parse
  simp only
  split
  · next hempty =>
    rw [List.isEmpty_iff.1 hempty]
    exact iff_of_false nofun nofun
  · cases readWhole (Text.trimEnd text.toList) <;> simp

/-- What is read is well-formed, and well-formed filters are read back from their texts. -/
theorem parse_inverts_render :
    (∀ (text : String) (f : Filter), parse text = .ok f → f.WellFormed) ∧
      ∀ f : Filter, f.WellFormed → parse f.render = .ok f := by
  constructor
  · intro text f h
    obtain ⟨_, s, _, _, _, hs, shallow, _⟩ :=
      readWhole_eq_ok_iff.1 (parse_eq_ok_iff_readWhole.1 h)
    exact ⟨hs.isFormed, shallow⟩
  · intro f h
    have hs : FilterText f.chars f := filterText_chars h.formed
    -- The text ends in a parenthesis, so that there is no blank to be trimmed.
    obtain ⟨t, ht⟩ := hs.exists_concat
    have trimmed : Text.trimEnd f.render.toList = f.chars := by
      rw [render, String.toList_ofList, ht]
      have := @Text.trimEnd_append t [] ')' rfl (by simp)
      rwa [List.append_nil] at this
    rw [parse_eq_ok_iff_readWhole, trimmed, readWhole_eq_ok_iff]
    exact ⟨[], f.chars, [], by simp, blanks_nil, hs, h.shallow, blanks_nil⟩

theorem isAttribute_name : IsAttribute "name" := by
  refine ⟨by decide, by decide, ?_, ?_⟩
  · intro c hc
    have hc : c ∈ ['n', 'a', 'm', 'e'] := hc
    simp only [List.mem_cons, List.not_mem_nil, or_false] at hc
    rcases hc with rfl | rfl | rfl | rfl
    all_goals simp
  · intro c hc
    obtain rfl : 'n' = c := Option.some.inj hc
    simp

/-- Blanks, parentheses, stars and backslashes come back, and so do empty parts. -/
theorem parse_inverts_render_escaped :
    let f := all [not (equal "name" " (a*b\\) "), substring "name" ["", "(", ""]]
    f.WellFormed ∧ parse f.render = .ok f := by
  intro f
  have h : f.WellFormed := by
    refine ⟨⟨by simp, isAttribute_name, ⟨isAttribute_name, by decide, by decide⟩, trivial⟩, ?_⟩
    decide
  exact ⟨h, parse_inverts_render.2 f h⟩

end Filter

end ServiceImport

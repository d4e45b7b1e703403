import ServiceImport.Filter.Parser
import ServiceImport.Proofs.Filter.Grammar

/-! # The reader of filters accepts its grammar

A text is read as a filter exactly when the grammar derives it and no more than the allowed number
of connectives enclose one another.
-/

namespace ServiceImport

/-! ## Trimming -/

namespace Text

theorem trimStart_append {w s : List Char} (blanks : ∀ c ∈ w, isBlank c = true) :
    trimStart (w ++ s) = trimStart s := List.dropWhile_append_of_pos blanks

theorem trimStart_cons {c : Char} {s : List Char} (h : isBlank c = false) :
    trimStart (c :: s) = c :: s := List.dropWhile_cons_of_neg (by simp [h])

theorem exists_blanks_trimStart (s : List Char) :
    ∃ w, s = w ++ trimStart s ∧ ∀ c ∈ w, isBlank c = true := by
  refine ⟨s.takeWhile isBlank, List.takeWhile_append_dropWhile.symm, ?_⟩
  intro c hc
  exact List.all_eq_true.1 List.all_takeWhile c hc

theorem exists_blanks_trimEnd (s : List Char) :
    ∃ w, s = trimEnd s ++ w ∧ ∀ c ∈ w, isBlank c = true := by
  obtain ⟨w, hs, hw⟩ := exists_blanks_trimStart s.reverse
  refine ⟨w.reverse, ?_, fun c hc => hw c (List.mem_reverse.1 hc)⟩
  rw [List.reverse_eq_iff, List.reverse_append] at hs
  exact hs

theorem trimEnd_append {s w : List Char} {c : Char} (h : isBlank c = false)
    (blanks : ∀ c ∈ w, isBlank c = true) : trimEnd (s ++ [c] ++ w) = s ++ [c] := by
  unfold trimEnd
  rw [List.reverse_append, List.dropWhile_append_of_pos (by simpa using blanks),
    List.reverse_append]
  simp [h]

theorem head_trimStart_not_blank {c : Char} {s : List Char} (h : (trimStart s).head? = some c) :
    isBlank c = false := by
  have := List.head?_dropWhile_not isBlank s
  unfold trimStart at h
  rw [h] at this
  simpa using this

@[simp] theorem trimStart_trimStart (s : List Char) : trimStart (trimStart s) = trimStart s := by
  cases h : trimStart s with
  | nil => rfl
  | cons c t => exact trimStart_cons (head_trimStart_not_blank (by rw [h]; rfl))

@[simp] theorem trim_trimStart (s : List Char) : trim (trimStart s) = trim s := by
  unfold trim
  rw [trimStart_trimStart]

end Text

namespace Filter

/-! ## Results -/

theorem map_eq_ok_iff {ε α β : Type} {x : Except ε α} {f : α → β} {b : β} :
    x.map f = .ok b ↔ ∃ a, x = .ok a ∧ f a = b := by
  cases x <;> simp [Except.map]

theorem bind_eq_ok_iff {ε α β : Type} {x : Except ε α} {f : α → Except ε β} {b : β} :
    x >>= f = .ok b ↔ ∃ a, x = .ok a ∧ f a = .ok b := by
  cases x <;> simp [bind, Except.bind]

/-! ## Values -/

theorem expect_eq_ok_iff {c : Char} {s rest : List Char} :
    expect c s = .ok rest ↔ s = c :: rest := by
  cases s with
  | nil => simp [expect]
  | cons d t =>
    rw [expect]
    split
    · next h => simp [h]
    · next h => simp [h]

theorem ValueText.exists_cons {s : List Char} {parts : List (List Char)} (h : ValueText s parts) :
    ∃ part rest, parts = part :: rest := by
  cases h with
  | empty => exact ⟨_, _, rfl⟩
  | plain _ _ => exact ⟨_, _, rfl⟩
  | escaped _ => exact ⟨_, _, rfl⟩
  | wildcard _ => exact ⟨_, _, rfl⟩

theorem ValueText.eq_wildcard {s : List Char} (h : ValueText s [[], []]) : s = ['*'] := by
  cases h with
  | wildcard h' =>
    cases h' with
    | empty => rfl
    | wildcard h'' =>
      obtain ⟨_, _, hne⟩ := h''.exists_cons
      simp at hne

theorem ValueText.parts_of_wildcard {parts : List (List Char)} (h : ValueText ['*'] parts) :
    parts = [[], []] := by
  cases h with
  | plain hc _ => simp at hc
  | wildcard h' =>
    cases h' with
    | empty => rfl

theorem exists_of_map_readValue {s rest : List Char} {parts : List (List Char)}
    {f : List (List Char) → List (List Char)}
    (h : ((readValue s).map fun (parts, rest) => (f parts, rest)) = .ok (parts, rest)) :
    ∃ ps, readValue s = .ok (ps, rest) ∧ parts = f ps := by
  obtain ⟨⟨ps, rest'⟩, hread, heq⟩ := map_eq_ok_iff.1 h
  simp only [Prod.mk.injEq] at heq
  obtain ⟨rfl, rfl⟩ := heq
  exact ⟨ps, hread, rfl⟩

theorem readValue_sound {s rest : List Char} {parts : List (List Char)}
    (h : readValue s = .ok (parts, rest)) :
    ∃ v t, s = v ++ rest ∧ ValueText v parts ∧ rest = ')' :: t := by
  fun_induction readValue s generalizing parts with
  | case1 => simp at h
  | case2 t =>
    simp only [Except.ok.injEq, Prod.mk.injEq] at h
    obtain ⟨rfl, rfl⟩ := h
    exact ⟨[], t, rfl, ValueText.empty, rfl⟩
  | case3 => simp at h
  | case4 => simp at h
  | case5 d u _ _ ih =>
    obtain ⟨ps, hread, rfl⟩ := exists_of_map_readValue h
    obtain ⟨v, t, rfl, hv, ht⟩ := ih hread
    obtain ⟨part, parts, rfl⟩ := hv.exists_cons
    exact ⟨'\\' :: d :: v, t, rfl, ValueText.escaped hv, ht⟩
  | case6 u _ _ _ ih =>
    obtain ⟨ps, hread, rfl⟩ := exists_of_map_readValue h
    obtain ⟨v, t, rfl, hv, ht⟩ := ih hread
    exact ⟨'*' :: v, t, rfl, ValueText.wildcard hv, ht⟩
  | case7 c u hclose hopen hslash hstar ih =>
    obtain ⟨ps, hread, rfl⟩ := exists_of_map_readValue h
    obtain ⟨v, t, rfl, hv, ht⟩ := ih hread
    obtain ⟨part, parts, rfl⟩ := hv.exists_cons
    refine ⟨c :: v, t, rfl, ValueText.plain ?_ hv, ht⟩
    simp [hclose, hopen, hslash, hstar]

theorem readValue_complete {v : List Char} {parts : List (List Char)} (h : ValueText v parts)
    (rest : List Char) : readValue (v ++ ')' :: rest) = .ok (parts, ')' :: rest) := by
  induction h with
  | empty =>
    rw [List.nil_append, readValue.eq_def]
    rfl
  | plain hc _ ih =>
    simp only [List.mem_cons, List.not_mem_nil, or_false, not_or] at hc
    rw [List.cons_append, readValue.eq_def]
    simp only [hc, if_false, ih]
    rfl
  | escaped _ ih =>
    rw [List.cons_append, List.cons_append, readValue.eq_def]
    simp only [ih]
    rfl
  | wildcard _ ih =>
    rw [List.cons_append, readValue.eq_def]
    simp only [ih]
    rfl

/-! ## Items -/

theorem endsAttribute_eq_false_iff {c : Char} :
    endsAttribute c = false ↔ c ∉ ['=', '<', '>', '~', '(', ')'] := by
  simp [endsAttribute, and_assoc]

theorem readComparison_eq_ok_iff {make : String → Filter} {s rest : List Char} {f : Filter} :
    readComparison make s = .ok (f, rest) ↔
      ∃ v part t, s = '=' :: v ++ rest ∧ ValueText v [part] ∧ rest = ')' :: t ∧
        f = make (String.ofList part) := by
  unfold readComparison
  rw [bind_eq_ok_iff]
  constructor
  · rintro ⟨u, hu, h⟩
    rw [bind_eq_ok_iff] at h
    obtain ⟨⟨parts, rest'⟩, hread, h⟩ := h
    obtain ⟨v, t, rfl, hv, ht⟩ := readValue_sound hread
    obtain ⟨part, parts, rfl⟩ := hv.exists_cons
    simp only at h
    split at h
    · simp at h
    · next hlen =>
      simp only [Except.ok.injEq, Prod.mk.injEq] at h
      obtain ⟨hf, rfl⟩ := h
      have hnil : parts = [] := by
        apply List.eq_nil_of_length_eq_zero
        simp only [List.length_cons] at hlen
        omega
      subst hnil
      refine ⟨v, part, t, expect_eq_ok_iff.1 hu, hv, ht, ?_⟩
      rw [← hf, List.flatten_singleton]
  · rintro ⟨v, part, t, rfl, hv, rfl, rfl⟩
    refine ⟨v ++ ')' :: t, expect_eq_ok_iff.2 rfl, ?_⟩
    rw [bind_eq_ok_iff]
    refine ⟨_, readValue_complete hv t, ?_⟩
    simp

theorem ofParts_eq {attr : String} {parts : List (List Char)} {v : List Char}
    (h : ValueText v parts) : OperatorText attr ('=' :: v) (ofParts attr parts) := by
  unfold ofParts
  split
  · next hp =>
    subst hp
    rw [h.eq_wildcard]
    exact OperatorText.present
  · next hp =>
    split
    · next hlen =>
      apply OperatorText.substring h hlen
      rintro rfl
      exact hp h.parts_of_wildcard
    · next hlen =>
      obtain ⟨part, rest, rfl⟩ := h.exists_cons
      have hnil : rest = [] := by
        apply List.eq_nil_of_length_eq_zero
        simp only [List.length_cons] at hlen
        omega
      subst hnil
      rw [List.flatten_singleton]
      exact OperatorText.equal h

theorem readOperator_sound {attr : String} {s rest : List Char} {f : Filter}
    (h : readOperator attr s = .ok (f, rest)) :
    ∃ o t, s = o ++ rest ∧ OperatorText attr o f ∧ rest = ')' :: t := by
  unfold readOperator at h
  split at h
  · next u =>
    obtain ⟨⟨parts, rest'⟩, hread, heq⟩ := map_eq_ok_iff.1 h
    simp only [Prod.mk.injEq] at heq
    obtain ⟨rfl, rfl⟩ := heq
    obtain ⟨v, t, rfl, hv, ht⟩ := readValue_sound hread
    exact ⟨'=' :: v, t, rfl, ofParts_eq hv, ht⟩
  · obtain ⟨v, part, t, rfl, hv, ht, rfl⟩ := readComparison_eq_ok_iff.1 h
    exact ⟨'~' :: '=' :: v, t, rfl, OperatorText.approx hv, ht⟩
  · obtain ⟨v, part, t, rfl, hv, ht, rfl⟩ := readComparison_eq_ok_iff.1 h
    exact ⟨'>' :: '=' :: v, t, rfl, OperatorText.atLeast hv, ht⟩
  · obtain ⟨v, part, t, rfl, hv, ht, rfl⟩ := readComparison_eq_ok_iff.1 h
    exact ⟨'<' :: '=' :: v, t, rfl, OperatorText.atMost hv, ht⟩
  · simp at h

theorem readOperator_complete {attr : String} {o : List Char} {f : Filter}
    (h : OperatorText attr o f) (rest : List Char) :
    readOperator attr (o ++ ')' :: rest) = .ok (f, ')' :: rest) := by
  -- An equals sign and a value, whose parts make the leaf.
  have equals : ∀ {v : List Char} {parts : List (List Char)}, ValueText v parts →
      readOperator attr ('=' :: v ++ ')' :: rest) = .ok (ofParts attr parts, ')' :: rest) := by
    intro v parts hv
    rw [List.cons_append, readOperator, readValue_complete hv]
    rfl
  have comparison : ∀ {make : String → Filter} {v part : List Char}, ValueText v [part] →
      readComparison make ('=' :: v ++ ')' :: rest) =
        .ok (make (String.ofList part), ')' :: rest) := by
    intro make v part hv
    exact readComparison_eq_ok_iff.2 ⟨v, part, rest, rfl, hv, rfl, rfl⟩
  cases h with
  | present => exact equals (ValueText.wildcard ValueText.empty)
  | equal hv =>
    rw [equals hv]
    simp [ofParts]
  | @substring v parts hv hlen hstar =>
    rw [equals hv]
    have hne : ¬ parts = [[], []] := by
      rintro rfl
      exact hstar hv.eq_wildcard
    simp only [ofParts, hne, hlen, if_false, if_true]
  | approx hv => exact comparison hv
  | atLeast hv => exact comparison hv
  | atMost hv => exact comparison hv

theorem OperatorText.exists_cons {attr : String} {o : List Char} {f : Filter}
    (h : OperatorText attr o f) : ∃ c s, o = c :: s ∧ endsAttribute c = true := by
  cases h <;> exact ⟨_, _, rfl, rfl⟩

theorem OperatorText.depth_eq {attr : String} {o : List Char} {f : Filter}
    (h : OperatorText attr o f) : f.depth = 0 := by
  cases h <;> simp [depth]

theorem readItem_sound {c : Char} {s rest : List Char} {f : Filter}
    (hblank : Text.isBlank c = false) (hc : c ∉ ['&', '|', '!'])
    (h : readItem (c :: s) = .ok (f, rest)) :
    ∃ i t, c :: s = i ++ rest ∧ ItemText i f ∧ f.depth = 0 ∧ rest = ')' :: t := by
  unfold readItem at h
  simp only at h
  split at h
  · simp at h
  · next hne =>
    obtain ⟨o, t, hs, ho, ht⟩ := readOperator_sound h
    refine ⟨(c :: s).takeWhile (!endsAttribute ·) ++ o, t, ?_, ItemText.mk ⟨?_, ?_, ?_, rfl⟩ ho,
      ho.depth_eq, ht⟩
    · rw [List.append_assoc, ← hs, List.takeWhile_append_dropWhile]
    · intro d hd
      rw [← endsAttribute_eq_false_iff]
      simpa using List.all_eq_true.1 List.all_takeWhile d hd
    · intro d hd
      rw [List.takeWhile_cons] at hd
      split at hd
      · rw [List.find?_cons_of_pos (by simp [hblank])] at hd
        rw [← Option.some.inj hd]
        exact hc
      · simp at hd
    · simpa using hne

theorem readItem_complete {i : List Char} {f : Filter} (h : ItemText i f) (rest : List Char) :
    ∃ c s, Text.trimStart (i ++ ')' :: rest) = c :: s ∧ c ∉ ['&', '|', '!'] ∧
      readItem (c :: s) = .ok (f, ')' :: rest) := by
  obtain ⟨⟨plain, first, named, rfl⟩, ho⟩ := h
  rename_i run o
  obtain ⟨w, hrun, hw⟩ := Text.exists_blanks_trimStart run
  obtain ⟨d, u, rfl, hd⟩ := ho.exists_cons
  have hplain : ∀ a ∈ Text.trimStart run, (!endsAttribute a) = true := by
    intro a ha
    rw [Bool.not_eq_true', endsAttribute_eq_false_iff]
    apply plain
    rw [hrun]
    exact List.mem_append_right w ha
  cases hstart : Text.trimStart run with
  | nil =>
    rw [← Text.trim_trimStart, hstart] at named
    exact absurd rfl named
  | cons c s =>
    have hblank : Text.isBlank c = false := Text.head_trimStart_not_blank (by rw [hstart]; rfl)
    refine ⟨c, s ++ d :: u ++ ')' :: rest, ?_, ?_, ?_⟩
    · rw [hrun, hstart, List.append_assoc, List.append_assoc, Text.trimStart_append hw,
        List.cons_append, Text.trimStart_cons hblank, List.append_assoc]
    · apply first
      have hnone : w.find? (!Text.isBlank ·) = none := List.find?_eq_none.2 (by simpa using hw)
      rw [hrun, hstart, List.find?_append, hnone, List.find?_cons_of_pos (by simp [hblank])]
      rfl
    · rw [hstart] at hplain
      have hall : c :: (s ++ d :: u ++ ')' :: rest) = (c :: s) ++ (d :: (u ++ ')' :: rest)) := by
        simp
      unfold readItem
      rw [hall, List.takeWhile_append_of_pos hplain, List.dropWhile_append_of_pos hplain,
        List.takeWhile_cons_of_neg (by simp [hd]), List.dropWhile_cons_of_neg (by simp [hd]),
        List.append_nil, ← hstart, Text.trim_trimStart]
      simp only [List.isEmpty_iff, named, if_false]
      exact readOperator_complete ho rest

/-! ## Filters -/

theorem FilterText.exists_cons {s : List Char} {f : Filter} (h : FilterText s f) :
    ∃ t, s = '(' :: t := by
  cases h with
  | connective _ _ _ => exact ⟨_, rfl⟩
  | item _ _ => exact ⟨_, rfl⟩

theorem trimStart_paren {t : List Char} {c : Char} (hc : c ∈ ['(', ')']) :
    Text.trimStart (c :: t) = c :: t := by
  apply Text.trimStart_cons
  simp only [List.mem_cons, List.not_mem_nil, or_false] at hc
  rcases hc with rfl | rfl <;> rfl

/-- A reader that takes only filters of a depth. -/
def Sound (depth : Nat) (inner : Reader Filter) : Prop :=
  ∀ {s rest : List Char} {f : Filter}, inner s = .ok (f, rest) →
    ∃ w t, s = w ++ t ++ rest ∧ Blanks w ∧ FilterText t f ∧ f.depth ≤ depth

/-- A reader that takes every filter of a depth, whatever follows it. -/
def Complete (depth : Nat) (inner : Reader Filter) : Prop :=
  ∀ {w t : List Char} {f : Filter}, Blanks w → FilterText t f → f.depth ≤ depth →
    ∀ rest, inner (w ++ t ++ rest) = .ok (f, rest)

theorem readMany_sound {depth : Nat} {inner : Reader Filter} (sound : Sound depth inner) {n : Nat}
    {s rest : List Char} {items : List Filter} (h : readMany inner n s = .ok (items, rest)) :
    ∃ t w, s = t ++ w ++ rest ∧ FiltersText t items ∧ Blanks w ∧ depthList items ≤ depth := by
  induction n generalizing s items with
  | zero =>
    simp only [readMany, Except.ok.injEq, Prod.mk.injEq] at h
    obtain ⟨rfl, rfl⟩ := h
    obtain ⟨w, hs, hw⟩ := Text.exists_blanks_trimStart s
    exact ⟨[], w, by simpa using hs, FiltersText.nil, hw, by simp [depthList]⟩
  | succ n ih =>
    obtain ⟨w, hs, hw⟩ := Text.exists_blanks_trimStart s
    unfold readMany at h
    split at h
    · next u hu =>
      obtain ⟨⟨item, rest₁⟩, hitem, h⟩ := bind_eq_ok_iff.1 h
      obtain ⟨⟨items', rest₂⟩, hitems, h⟩ := bind_eq_ok_iff.1 h
      simp only [Except.ok.injEq, Prod.mk.injEq] at h
      obtain ⟨rfl, rfl⟩ := h
      obtain ⟨w₁, t₁, hu₁, hw₁, ht₁, hdepth₁⟩ := sound hitem
      obtain ⟨t₂, w₂, rfl, ht₂, hw₂, hdepth₂⟩ := ih hitems
      refine ⟨(w ++ w₁) ++ t₁ ++ t₂, w₂, ?_, FiltersText.cons ?_ ht₁ ht₂, hw₂, ?_⟩
      · rw [hs, hu, hu₁]
        simp only [List.append_assoc]
      · intro c hc
        exact (List.mem_append.1 hc).elim (hw c) (hw₁ c)
      · rw [depthList]
        exact Nat.max_le.2 ⟨hdepth₁, hdepth₂⟩
    · simp only [Except.ok.injEq, Prod.mk.injEq] at h
      obtain ⟨rfl, rfl⟩ := h
      exact ⟨[], w, by simpa using hs, FiltersText.nil, hw, by simp [depthList]⟩

/-- A number of filters is read when the bound on it is large enough and no other filter
follows. -/
theorem readMany_complete {depth : Nat} {inner : Reader Filter} (complete : Complete depth inner)
    {t : List Char} {items : List Filter} (h : FiltersText t items) :
    ∀ {n : Nat} {w : List Char} (rest : List Char), depthList items ≤ depth →
      items.length ≤ n → Blanks w →
        readMany inner n (t ++ w ++ ')' :: rest) = .ok (items, ')' :: rest) := by
  induction items generalizing t with
  | nil =>
    obtain ⟨⟩ := h
    intro n w rest _ _ hw
    have hend : Text.trimStart ([] ++ w ++ ')' :: rest) = ')' :: rest := by
      rw [List.nil_append, Text.trimStart_append hw, trimStart_paren (by simp)]
    cases n with
    | zero => rw [readMany, hend]
    | succ n =>
      unfold readMany
      simp only [hend]
      rfl
  | cons item items ih =>
    obtain _ | ⟨hw₁, hs₁, ht₁⟩ := h
    rename_i w₁ s₁ t₁
    intro n w rest hdepth hlen hw
    cases n with
    | zero => simp at hlen
    | succ n =>
      rw [depthList, Nat.max_le] at hdepth
      obtain ⟨u, rfl⟩ := hs₁.exists_cons
      have hstart : Text.trimStart (w₁ ++ '(' :: u ++ t₁ ++ w ++ ')' :: rest) =
          '(' :: (u ++ (t₁ ++ w ++ ')' :: rest)) := by
        simp only [List.append_assoc]
        rw [Text.trimStart_append hw₁, List.cons_append, trimStart_paren (by simp)]
      have hitem := complete (w := []) (by simp [Blanks]) hs₁ hdepth.1
        (t₁ ++ w ++ ')' :: rest)
      rw [List.nil_append, List.cons_append] at hitem
      unfold readMany
      simp only [hstart]
      rw [hitem]
      have hitems := ih ht₁ rest hdepth.2 (Nat.le_of_succ_le_succ hlen) hw
      simp only [bind, Except.bind, hitems]

theorem FiltersText.length_le {t : List Char} {items : List Filter} (h : FiltersText t items) :
    items.length ≤ t.length := by
  induction items generalizing t with
  | nil => exact Nat.zero_le _
  | cons item items ih =>
    obtain _ | ⟨_, hs, ht⟩ := h
    obtain ⟨u, rfl⟩ := hs.exists_cons
    have := ih ht
    simp only [List.length_append, List.length_cons]
    omega

theorem readList_sound {depth : Nat} {inner : Reader Filter} (sound : Sound depth inner)
    {s rest : List Char} {items : List Filter} (h : readList inner s = .ok (items, rest)) :
    ∃ t w, s = t ++ w ++ rest ∧ FiltersText t items ∧ Blanks w ∧ items ≠ [] ∧
      depthList items ≤ depth := by
  obtain ⟨⟨items', rest'⟩, hmany, h⟩ := bind_eq_ok_iff.1 h
  obtain ⟨t, w, hs, ht, hw, hdepth⟩ := readMany_sound sound hmany
  simp only at h
  split at h
  · simp at h
  · next hne =>
    simp only [Except.ok.injEq, Prod.mk.injEq] at h
    obtain ⟨rfl, rfl⟩ := h
    exact ⟨t, w, hs, ht, hw, by simpa using hne, hdepth⟩

theorem readList_complete {depth : Nat} {inner : Reader Filter} (complete : Complete depth inner)
    {t w : List Char} {items : List Filter} (h : FiltersText t items) (hne : items ≠ [])
    (hdepth : depthList items ≤ depth) (hw : Blanks w) (rest : List Char) :
    readList inner (t ++ w ++ ')' :: rest) = .ok (items, ')' :: rest) := by
  have hlen : items.length ≤ (t ++ w ++ ')' :: rest).length := by
    have := h.length_le
    simp only [List.length_append]
    omega
  unfold readList
  rw [readMany_complete complete h rest hdepth hlen hw]
  simp [bind, Except.bind, hne]

/-! ## Depth by depth

Filters without a connective are read by the reader that has none to call, those of a greater depth
by one that calls the reader of the depth below. So both directions go by induction on the depth.
-/

theorem readBody_eq_readItem (inner : Option (Reader Filter)) {c : Char} (s : List Char)
    (hc : ¬ (c = '&' ∨ c = '|' ∨ c = '!')) : readBody inner (c :: s) = readItem (c :: s) := by
  unfold readBody
  exact if_neg hc

theorem readBody_item_sound {inner : Option (Reader Filter)} {c : Char} {s rest : List Char}
    {f : Filter} (hblank : Text.isBlank c = false) (hc : ¬ (c = '&' ∨ c = '|' ∨ c = '!'))
    (h : readBody inner (c :: s) = .ok (f, rest)) :
    ∃ i t, c :: s = i ++ rest ∧ ItemText i f ∧ f.depth = 0 ∧ rest = ')' :: t := by
  rw [readBody_eq_readItem inner s hc] at h
  exact readItem_sound hblank (by simpa [not_or] using hc) h

theorem readBody_connective_sound {depth : Nat} {inner : Reader Filter} (sound : Sound depth inner)
    {c : Char} {s rest : List Char} {f : Filter} (hc : c = '&' ∨ c = '|' ∨ c = '!')
    (h : readBody (some inner) (c :: s) = .ok (f, rest)) :
    ∃ t w, c :: s = t ++ w ++ rest ∧ ConnectiveText t f ∧ Blanks w ∧ f.depth ≤ depth + 1 := by
  rw [readBody, if_pos hc] at h
  simp only at h
  split at h
  · next hand =>
    subst hand
    obtain ⟨⟨items, rest'⟩, hitems, heq⟩ := map_eq_ok_iff.1 h
    simp only [Prod.mk.injEq] at heq
    obtain ⟨rfl, rfl⟩ := heq
    obtain ⟨t, w, rfl, ht, hw, hne, hdepth⟩ := readList_sound sound hitems
    refine ⟨'&' :: t, w, rfl, ConnectiveText.all hne ht, hw, ?_⟩
    rw [Filter.depth]
    omega
  · split at h
    · next hor =>
      subst hor
      obtain ⟨⟨items, rest'⟩, hitems, heq⟩ := map_eq_ok_iff.1 h
      simp only [Prod.mk.injEq] at heq
      obtain ⟨rfl, rfl⟩ := heq
      obtain ⟨t, w, rfl, ht, hw, hne, hdepth⟩ := readList_sound sound hitems
      refine ⟨'|' :: t, w, rfl, ConnectiveText.any hne ht, hw, ?_⟩
      rw [Filter.depth]
      omega
    · next hand hor =>
      obtain rfl : c = '!' := by simpa [hand, hor] using hc
      obtain ⟨⟨item, rest'⟩, hitem, heq⟩ := map_eq_ok_iff.1 h
      simp only [Prod.mk.injEq] at heq
      obtain ⟨rfl, rfl⟩ := heq
      obtain ⟨w, t, rfl, hw, ht, hdepth⟩ := sound hitem
      refine ⟨'!' :: w ++ t, [], by simp, ConnectiveText.not hw ht, by simp [Blanks], ?_⟩
      rw [Filter.depth]
      omega

/-- What goes wrong between the parentheses goes wrong around them, so a filter is read when its
inside is. -/
theorem readAround_eq_ok_iff {inner : Option (Reader Filter)} {s rest : List Char} {f : Filter} :
    readAround inner s = .ok (f, rest) ↔
      ∃ u t, Text.trimStart s = '(' :: u ∧ readBody inner (Text.trimStart u) = .ok (f, t) ∧
        Text.trimStart t = ')' :: rest := by
  unfold readAround
  constructor
  · intro h
    obtain ⟨u, hopen, h⟩ := bind_eq_ok_iff.1 h
    obtain ⟨⟨f', t⟩, hbody, h⟩ := bind_eq_ok_iff.1 h
    obtain ⟨rest', hclose, h⟩ := bind_eq_ok_iff.1 h
    simp only [Except.ok.injEq, Prod.mk.injEq] at h
    obtain ⟨rfl, rfl⟩ := h
    exact ⟨u, t, expect_eq_ok_iff.1 hopen, hbody, expect_eq_ok_iff.1 hclose⟩
  · rintro ⟨u, t, hopen, hbody, hclose⟩
    refine bind_eq_ok_iff.2 ⟨u, expect_eq_ok_iff.2 hopen, ?_⟩
    refine bind_eq_ok_iff.2 ⟨(f, t), hbody, ?_⟩
    exact bind_eq_ok_iff.2 ⟨rest, expect_eq_ok_iff.2 hclose, rfl⟩

/-- A reader around any inside takes filters when the inside it may call takes filters, and one
level more of them. -/
theorem readAround_sound {inner : Option (Reader Filter)} {depth : Nat}
    (body : ∀ {c : Char} {s rest : List Char} {f : Filter}, (c = '&' ∨ c = '|' ∨ c = '!') →
      readBody inner (c :: s) = .ok (f, rest) →
      ∃ t w, c :: s = t ++ w ++ rest ∧ ConnectiveText t f ∧ Blanks w ∧ f.depth ≤ depth) :
    Sound depth (readAround inner) := by
  intro s rest f h
  obtain ⟨u, t, hopen, hbody, hclose⟩ := readAround_eq_ok_iff.1 h
  obtain ⟨w₀, hs, hw₀⟩ := Text.exists_blanks_trimStart s
  obtain ⟨w₁, hu, hw₁⟩ := Text.exists_blanks_trimStart u
  obtain ⟨w₂, ht, hw₂⟩ := Text.exists_blanks_trimStart t
  rw [hopen] at hs
  rw [hclose] at ht
  cases hstart : Text.trimStart u with
  | nil =>
    rw [hstart] at hbody
    simp [readBody] at hbody
  | cons c v =>
    rw [hstart] at hbody hu
    by_cases hc : c = '&' ∨ c = '|' ∨ c = '!'
    · obtain ⟨t₁, w, hv, ht₁, hw, hdepth⟩ := body hc hbody
      refine ⟨w₀, '(' :: w₁ ++ t₁ ++ (w ++ w₂) ++ [')'], ?_, hw₀,
        FilterText.connective hw₁ ht₁ ?_, hdepth⟩
      · rw [hs, hu, hv, ht]
        simp only [List.append_assoc, List.cons_append, List.nil_append]
      · intro d hd
        exact (List.mem_append.1 hd).elim (hw d) (hw₂ d)
    · have hblank : Text.isBlank c = false := Text.head_trimStart_not_blank (by rw [hstart]; rfl)
      obtain ⟨i, t', hv, hi, hdepth, rfl⟩ := readBody_item_sound hblank hc hbody
      rw [trimStart_paren (by simp)] at hclose
      obtain ⟨-, rfl⟩ := List.cons.inj hclose
      refine ⟨w₀, '(' :: w₁ ++ i ++ [')'], ?_, hw₀, FilterText.item hw₁ hi, ?_⟩
      · rw [hs, hu, hv]
        simp only [List.append_assoc, List.cons_append, List.nil_append]
      · omega

theorem readFilter_sound (depth : Nat) : Sound depth (readFilter depth) := by
  induction depth with
  | zero =>
    apply readAround_sound
    intro c s rest f hc h
    rw [readBody, if_pos hc] at h
    simp at h
  | succ depth ih =>
    apply readAround_sound
    intro c s rest f hc h
    exact readBody_connective_sound ih hc h

theorem readAround_item {inner : Option (Reader Filter)} {w₀ w i : List Char} {f : Filter}
    (hw₀ : Blanks w₀) (hw : Blanks w) (hi : ItemText i f) (rest : List Char) :
    readAround inner (w₀ ++ ('(' :: w ++ i ++ [')']) ++ rest) = .ok (f, rest) := by
  obtain ⟨c, s, hstart, hc, hread⟩ := readItem_complete hi rest
  refine readAround_eq_ok_iff.2 ⟨w ++ (i ++ ')' :: rest), ')' :: rest, ?_, ?_, ?_⟩
  · rw [List.append_assoc, Text.trimStart_append hw₀]
    simp only [List.append_assoc, List.cons_append, List.nil_append]
    exact trimStart_paren (by simp)
  · have hne : ¬ (c = '&' ∨ c = '|' ∨ c = '!') := by simpa [not_or] using hc
    rw [Text.trimStart_append hw, hstart, readBody_eq_readItem inner s hne]
    exact hread
  · exact trimStart_paren (by simp)

theorem readBody_connective_complete {depth : Nat} {inner : Reader Filter}
    (complete : Complete depth inner) {s w : List Char} {f : Filter} (h : ConnectiveText s f)
    (hdepth : f.depth ≤ depth + 1) (hw : Blanks w) (rest : List Char) :
    ∃ t, readBody (some inner) (s ++ w ++ ')' :: rest) = .ok (f, t) ∧
      Text.trimStart t = ')' :: rest := by
  cases h with
  | all hne hs =>
    rw [Filter.depth] at hdepth
    refine ⟨')' :: rest, ?_, trimStart_paren (by simp)⟩
    rw [List.cons_append, List.cons_append, readBody]
    simp only [true_or, if_true]
    rw [readList_complete complete hs hne (by omega) hw]
    rfl
  | any hne hs =>
    rw [Filter.depth] at hdepth
    refine ⟨')' :: rest, ?_, trimStart_paren (by simp)⟩
    rw [List.cons_append, List.cons_append, readBody]
    simp only [true_or, or_true, if_true]
    rw [readList_complete complete hs hne (by omega) hw]
    rfl
  | not hw' hs =>
    rw [Filter.depth] at hdepth
    refine ⟨w ++ ')' :: rest, ?_, ?_⟩
    · rw [List.cons_append, List.cons_append, List.cons_append, readBody]
      simp only [or_true, if_true]
      rw [List.append_assoc, complete hw' hs (by omega)]
      rfl
    · rw [Text.trimStart_append hw]
      exact trimStart_paren (by simp)

theorem ConnectiveText.exists_cons {s : List Char} {f : Filter} (h : ConnectiveText s f) :
    ∃ c t, s = c :: t ∧ Text.isBlank c = false ∧ f.depth ≠ 0 := by
  cases h with
  | all _ _ => exact ⟨_, _, rfl, rfl, by simp [Filter.depth]⟩
  | any _ _ => exact ⟨_, _, rfl, rfl, by simp [Filter.depth]⟩
  | not _ _ => exact ⟨_, _, rfl, rfl, by simp [Filter.depth]⟩

theorem readFilter_complete (depth : Nat) : Complete depth (readFilter depth) := by
  induction depth with
  | zero =>
    intro w t f hw h hdepth rest
    cases h with
    | connective _ hs _ =>
      obtain ⟨_, _, _, _, hne⟩ := hs.exists_cons
      omega
    | item hw' hi => exact readAround_item hw hw' hi rest
  | succ depth ih =>
    intro w t f hw h hdepth rest
    cases h with
    | @connective w₁ s w₂ _ hw₁ hs hw₂ =>
      obtain ⟨u, hbody, hclose⟩ := readBody_connective_complete ih hs hdepth hw₂ rest
      refine readAround_eq_ok_iff.2 ⟨w₁ ++ (s ++ w₂ ++ ')' :: rest), u, ?_, ?_, hclose⟩
      · rw [List.append_assoc, Text.trimStart_append hw]
        simp only [List.append_assoc, List.cons_append, List.nil_append]
        exact trimStart_paren (by simp)
      · obtain ⟨c, v, rfl, hblank, _⟩ := hs.exists_cons
        rw [Text.trimStart_append hw₁, List.cons_append, List.cons_append,
          Text.trimStart_cons hblank]
        exact hbody
    | item hw' hi => exact readAround_item hw hw' hi rest

/-! ## Whole texts -/

theorem readWhole_eq_ok_iff {s : List Char} {f : Filter} :
    readWhole s = .ok f ↔
      ∃ w t w', s = w ++ t ++ w' ∧ Blanks w ∧ FilterText t f ∧ f.depth ≤ maxDepth ∧ Blanks w' := by
  unfold readWhole
  rw [bind_eq_ok_iff]
  constructor
  · rintro ⟨⟨f', rest⟩, hread, h⟩
    simp only at h
    split at h
    · next hrest =>
      obtain rfl := Except.ok.inj h
      obtain ⟨w, t, hs, hw, ht, hdepth⟩ := readFilter_sound maxDepth hread
      obtain ⟨w', hw', blanks⟩ := Text.exists_blanks_trimStart rest
      rw [hrest, List.append_nil] at hw'
      exact ⟨w, t, rest, hs, hw, ht, hdepth, hw' ▸ blanks⟩
    · simp at h
  · rintro ⟨w, t, w', rfl, hw, ht, hdepth, hw'⟩
    refine ⟨(f, w'), readFilter_complete maxDepth hw ht hdepth w', ?_⟩
    have hnil : Text.trimStart w' = [] := by
      rw [← List.append_nil w', Text.trimStart_append hw']
      rfl
    simp only [hnil]

theorem FilterText.exists_concat {s : List Char} {f : Filter} (h : FilterText s f) :
    ∃ t, s = t ++ [')'] := by
  cases h with
  | connective _ _ _ => exact ⟨_, rfl⟩
  | item _ _ => exact ⟨_, rfl⟩

theorem readWhole_trimEnd_eq_ok_iff {text : String} {f : Filter} :
    readWhole (Text.trimEnd text.toList) = .ok f ↔ Derives text f ∧ f.depth ≤ maxDepth := by
  obtain ⟨blanks, htext, hblanks⟩ := Text.exists_blanks_trimEnd text.toList
  rw [readWhole_eq_ok_iff]
  constructor
  · rintro ⟨w, t, w', hs, hw, ht, hdepth, hw'⟩
    refine ⟨⟨w, t, w' ++ blanks, ?_, hw, ht, ?_⟩, hdepth⟩
    · rw [htext, hs, List.append_assoc]
    · intro c hc
      exact (List.mem_append.1 hc).elim (hw' c) (hblanks c)
  · rintro ⟨⟨w, t, w', hs, hw, ht, hw'⟩, hdepth⟩
    obtain ⟨u, rfl⟩ := ht.exists_concat
    refine ⟨w, u ++ [')'], [], ?_, hw, ht, hdepth, by simp [Blanks]⟩
    rw [hs, ← List.append_assoc, Text.trimEnd_append rfl hw', List.append_nil]

/-- Reading a text gives a filter exactly when the grammar derives the filter from it and at most
the allowed number of connectives enclose one another. -/
theorem parse_eq_ok_iff (text : String) (f : Filter) :
    parse text = .ok f ↔ Derives text f ∧ f.depth ≤ maxDepth := by
  rw [← readWhole_trimEnd_eq_ok_iff]
  unfold parse
  simp only
  split
  · next hempty =>
    rw [List.isEmpty_iff] at hempty
    rw [hempty]
    constructor
    · simp
    · intro h
      obtain ⟨w, t, w', hs, _, ht, _⟩ := readWhole_eq_ok_iff.1 h
      obtain ⟨u, rfl⟩ := ht.exists_cons
      simp at hs
  · cases h : readWhole (Text.trimEnd text.toList) with
    | ok f' => simp
    | error failure => simp

end Filter

end ServiceImport

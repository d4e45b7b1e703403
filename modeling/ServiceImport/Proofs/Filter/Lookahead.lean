import ServiceImport.Proofs.Filter.RoundTrip

/-! # Readers look one character ahead

What a reader comes to is settled by the characters that it takes and by the one after them. So a
mistake is found at a character that no continuation of the text makes good, and its offset counts
the characters in front of that one.
-/

namespace ServiceImport.Filter

variable {α β : Type}

/-! ## Results -/

/-- The result of a reader that comes to a verdict and leaves some characters. -/
def leave : Except Problem α → List Char → Except Failure (α × List Char)
  | .ok a, rest => .ok (a, rest)
  | .error problem, rest => .error ⟨problem, rest⟩

/-- A reader that takes nothing. -/
def stay (verdict : Except Problem α) : Reader α := leave verdict

/-- A reader and then another for what the first leaves. -/
def andThen (r : Reader α) (next : α → Reader β) : Reader β := fun s => do
  let (a, rest) ← r s
  next a rest

/-- Takes the characters that pass a test, up to one that does not. -/
def takeRun (p : Char → Bool) : Reader (List Char) := fun s => .ok (s.takeWhile p, s.dropWhile p)

/-- Takes one given character and tells nothing. -/
def takeChar (c : Char) : Reader Unit := fun s => (expect c s).map fun rest => ((), rest)

theorem leave_inj {x y : Except Problem α} {s t : List Char} (h : leave x s = leave y t) :
    x = y ∧ s = t := by
  cases x <;> cases y <;> cases h <;> exact ⟨rfl, rfl⟩

/-! ## One character ahead -/

/-- At the text the reader takes some characters from its front. Whatever may follow the next
character, it comes to the same verdict there. -/
def OneAheadAt (r : Reader α) (s : List Char) : Prop :=
  ∃ verdict taken rest, s = taken ++ rest ∧ r s = leave verdict rest ∧
    ∀ c u, rest = c :: u → ∀ t, r (taken ++ c :: t) = leave verdict (c :: t)

def OneAhead (r : Reader α) : Prop := ∀ s, OneAheadAt r s

theorem OneAheadAt.whole {r : Reader α} {s : List Char} (verdict : Except Problem α)
    (h : r s = leave verdict []) : OneAheadAt r s :=
  ⟨verdict, s, [], (List.append_nil s).symm, h, nofun⟩

theorem OneAheadAt.stop {r : Reader α} {c : Char} (verdict : Except Problem α) (s : List Char)
    (h : ∀ t, r (c :: t) = leave verdict (c :: t)) : OneAheadAt r (c :: s) := by
  refine ⟨verdict, [], c :: s, rfl, h s, ?_⟩
  rintro d u heq t
  obtain ⟨rfl, -⟩ := List.cons.inj heq
  exact h t

theorem OneAheadAt.take {r r' : Reader α} (front : List Char) {s : List Char}
    (ahead : OneAheadAt r' s) (h : ∀ t, r (front ++ t) = r' t) : OneAheadAt r (front ++ s) := by
  obtain ⟨verdict, taken, rest, rfl, hread, same⟩ := ahead
  refine ⟨verdict, front ++ taken, rest, (List.append_assoc ..).symm, (h _).trans hread, ?_⟩
  intro c u hrest t
  rw [List.append_assoc, h]
  exact same c u hrest t

theorem OneAheadAt.of_head {r r' : Reader α} {c : Char} {s : List Char}
    (ahead : OneAheadAt r' (c :: s)) (h : ∀ t, r (c :: t) = r' (c :: t)) :
    OneAheadAt r (c :: s) := by
  obtain ⟨verdict, taken, rest, hs, hread, same⟩ := ahead
  refine ⟨verdict, taken, rest, hs, (h s).trans hread, ?_⟩
  intro d u hrest t
  rw [← same d u hrest t]
  subst hrest
  cases taken with
  | nil =>
    obtain ⟨rfl, -⟩ := List.cons.inj hs
    exact h t
  | cons e taken =>
    obtain ⟨rfl, -⟩ := List.cons.inj hs
    exact h (taken ++ d :: t)

theorem oneAhead_stay (verdict : Except Problem α) : OneAhead (stay verdict) := by
  intro s
  cases s with
  | nil => exact .whole verdict rfl
  | cons c s => exact .stop verdict s fun t => rfl

theorem OneAheadAt.andThen {r : Reader α} {next : α → Reader β} {s : List Char}
    (first : OneAheadAt r s) (second : ∀ a, OneAhead (next a)) :
    OneAheadAt (andThen r next) s := by
  obtain ⟨verdict, taken, rest, rfl, hread, same⟩ := first
  cases verdict with
  | error problem =>
    refine ⟨.error problem, taken, rest, rfl, by simp only [Filter.andThen, hread]; rfl, ?_⟩
    intro c u hrest t
    simp only [Filter.andThen, same c u hrest t]
    rfl
  | ok a =>
    obtain ⟨verdict, taken', rest', rfl, hnext, same'⟩ := second a rest
    refine ⟨verdict, taken ++ taken', rest', (List.append_assoc ..).symm, ?_, ?_⟩
    · simp only [Filter.andThen, hread]
      exact hnext
    · rintro c u rfl t
      -- What the first reader sees next is what the second takes first, if it takes anything.
      have hread' : r (taken ++ (taken' ++ c :: t)) = leave (.ok a) (taken' ++ c :: t) := by
        cases taken' with
        | nil => exact same c u rfl t
        | cons d taken' => exact same d (taken' ++ c :: u) rfl (taken' ++ c :: t)
      rw [List.append_assoc]
      simp only [Filter.andThen, hread']
      exact same' c u rfl t

theorem OneAheadAt.map {r : Reader α} {s : List Char} (h : OneAheadAt r s) (f : α → β) :
    OneAheadAt (fun s => (r s).map fun (a, rest) => (f a, rest)) s := by
  have heq : (fun s => (r s).map fun (a, rest) => (f a, rest)) =
      Filter.andThen r fun a => stay (.ok (f a)) := by
    funext s
    unfold Filter.andThen
    cases r s <;> rfl
  rw [heq]
  exact h.andThen fun a => oneAhead_stay _

theorem oneAhead_takeRun (p : Char → Bool) : OneAhead (takeRun p) := by
  intro s
  refine ⟨.ok (s.takeWhile p), s.takeWhile p, s.dropWhile p,
    List.takeWhile_append_dropWhile.symm, rfl, ?_⟩
  intro c u hrest t
  have stops : p c = false := by
    have := List.head?_dropWhile_not p s
    rw [hrest] at this
    simpa using this
  have passes : ∀ d ∈ s.takeWhile p, p d = true := List.all_eq_true.1 List.all_takeWhile
  unfold takeRun
  rw [List.takeWhile_append_of_pos passes, List.dropWhile_append_of_pos passes,
    List.takeWhile_cons_of_neg (by simp [stops]), List.dropWhile_cons_of_neg (by simp [stops]),
    List.append_nil]
  rfl

theorem oneAhead_takeChar (c : Char) : OneAhead (takeChar c) := by
  intro s
  cases s with
  | nil => exact .whole (.error (.expected c)) rfl
  | cons d s =>
    by_cases h : d = c
    · have heq : ∀ t, takeChar c ([d] ++ t) = stay (.ok ()) t := by
        intro t
        simp only [takeChar, List.singleton_append, expect, h, if_true]
        rfl
      exact .take [d] (oneAhead_stay _ s) heq
    · refine .stop (.error (.expected c)) s fun t => ?_
      simp only [takeChar, expect, h, if_false]
      rfl

theorem expect_bind {c : Char} {s : List Char} (k : List Char → Except Failure β) :
    expect c s >>= k = takeChar c s >>= fun (_, rest) => k rest := by
  unfold takeChar
  cases expect c s <;> rfl

/-! ## Values and items -/

theorem oneAhead_readValue : OneAhead readValue := by
  intro s
  fun_induction readValue s with
  | case1 => exact .whole (.error .openValue) rfl
  | case2 s => exact .stop (.ok [[]]) s fun t => by rw [readValue.eq_def]; rfl
  | case3 s =>
    exact .stop (.error .bareParenthesis) s fun t => by rw [readValue.eq_def]; rfl
  | case4 => exact .whole (.error .danglingEscape) (by rw [readValue.eq_def]; rfl)
  | case5 d s _ _ ih =>
    refine .take ['\\', d] (ih.map (addChar d)) fun t => ?_
    rw [List.cons_append, readValue.eq_def]
    rfl
  | case6 s _ _ _ ih =>
    refine .take ['*'] (ih.map ([] :: ·)) fun t => ?_
    rw [List.singleton_append, readValue.eq_def]
    rfl
  | case7 c s hclose hopen hslash hstar ih =>
    refine .take [c] (ih.map (addChar c)) fun t => ?_
    rw [List.singleton_append, readValue.eq_def]
    simp only [hclose, hopen, hslash, hstar, if_false]

theorem readComparison_eq (make : String → Filter) :
    readComparison make = andThen (takeChar '=') fun _ => andThen readValue fun parts =>
      stay (if parts.length > 1 then .error .wildcard
        else .ok (make (String.ofList parts.flatten))) := by
  funext s
  unfold readComparison andThen
  rw [expect_bind]
  cases takeChar '=' s with
  | error failure => rfl
  | ok result =>
    simp only [bind, Except.bind]
    cases readValue result.2 with
    | error failure => rfl
    | ok result =>
      simp only
      split <;> rfl

theorem oneAhead_readComparison (make : String → Filter) : OneAhead (readComparison make) := by
  rw [readComparison_eq]
  intro s
  refine (oneAhead_takeChar '=' s).andThen fun _ s => ?_
  exact (oneAhead_readValue s).andThen fun _ => oneAhead_stay _

theorem readOperator_bad {c : Char} (h : c ∉ ['=', '~', '>', '<']) (attr : String)
    (s : List Char) : readOperator attr (c :: s) = .error ⟨.badOperator, c :: s⟩ := by
  unfold readOperator
  split
  all_goals simp_all

theorem oneAhead_readOperator (attr : String) : OneAhead (readOperator attr) := by
  intro s
  cases s with
  | nil => exact .whole (.error .badOperator) rfl
  | cons c s =>
    by_cases h : c ∈ ['=', '~', '>', '<']
    · simp only [List.mem_cons, List.not_mem_nil, or_false] at h
      rcases h with rfl | rfl | rfl | rfl
      · exact .take ['='] ((oneAhead_readValue s).map (ofParts attr)) fun t => rfl
      · exact .take ['~'] (oneAhead_readComparison _ s) fun t => rfl
      · exact .take ['>'] (oneAhead_readComparison _ s) fun t => rfl
      · exact .take ['<'] (oneAhead_readComparison _ s) fun t => rfl
    · exact .stop (.error .badOperator) s (readOperator_bad h attr)

theorem readItem_eq :
    readItem = andThen (takeRun (!endsAttribute ·)) fun run =>
      if (Text.trim run).isEmpty then stay (.error .noAttribute)
      else readOperator (String.ofList (Text.trim run)) := by
  funext s
  unfold readItem andThen takeRun
  simp only [bind, Except.bind]
  split <;> rfl

theorem oneAhead_readItem : OneAhead readItem := by
  rw [readItem_eq]
  intro s
  refine (oneAhead_takeRun _ s).andThen fun run => ?_
  split
  · exact oneAhead_stay _
  · exact oneAhead_readOperator _

/-! ## Lists of filters -/

/-- Takes a filter and those that follow it. -/
def readMore (inner : Reader Filter) (n : Nat) : Reader (List Filter) :=
  andThen inner fun item => andThen (readMany inner n) fun items => stay (.ok (item :: items))

/-- Takes the filters from here on, the first of which begins at once if there is one. -/
def readHere (inner : Reader Filter) (n : Nat) : Reader (List Filter)
  | '(' :: s => readMore inner n ('(' :: s)
  | s => .ok ([], s)

theorem readMany_zero_eq (inner : Reader Filter) :
    readMany inner 0 = andThen (takeRun Text.isBlank) fun _ => stay (.ok []) := rfl

theorem readMany_succ_eq (inner : Reader Filter) (n : Nat) :
    readMany inner (n + 1) = andThen (takeRun Text.isBlank) fun _ => readHere inner n := by
  funext s
  unfold readMany andThen takeRun readHere
  rfl

theorem readHere_none {c : Char} (h : c ≠ '(') (inner : Reader Filter) (n : Nat)
    (s : List Char) : readHere inner n (c :: s) = .ok ([], c :: s) := by
  unfold readHere
  split
  all_goals simp_all

theorem oneAhead_readMany {inner : Reader Filter} (ahead : OneAhead inner) (n : Nat) :
    OneAhead (readMany inner n) := by
  induction n with
  | zero =>
    rw [readMany_zero_eq]
    intro s
    exact (oneAhead_takeRun _ s).andThen fun _ => oneAhead_stay _
  | succ n ih =>
    have more : OneAhead (readMore inner n) := by
      intro s
      refine (ahead s).andThen fun item s => ?_
      exact (ih s).andThen fun items => oneAhead_stay _
    rw [readMany_succ_eq]
    intro s
    refine (oneAhead_takeRun _ s).andThen fun _ s => ?_
    cases s with
    | nil => exact .whole (.ok []) rfl
    | cons c s =>
      by_cases h : c = '('
      · subst h
        exact .of_head (more _) fun t => rfl
      · exact .stop (.ok []) s (readHere_none h inner n)

/-- A reader that takes something whenever it does not fail. -/
def Consumes (r : Reader α) : Prop :=
  ∀ {s rest : List Char} {a : α}, r s = .ok (a, rest) → rest.length < s.length

theorem consumes_readFilter (depth : Nat) : Consumes (readFilter depth) := by
  intro s rest f h
  obtain ⟨w, t, rfl, _, ht, _⟩ := readFilter_sound depth h
  obtain ⟨u, rfl⟩ := ht.exists_cons
  simp only [List.length_append, List.length_cons]
  omega

/-- The bound on the number of filters makes no difference once it is large enough. -/
theorem readMany_congr {inner : Reader Filter} (consumes : Consumes inner) {n m : Nat}
    {s : List Char} (hn : s.length ≤ n) (hm : s.length ≤ m) :
    readMany inner n s = readMany inner m s := by
  induction n generalizing m s with
  | zero =>
    obtain rfl := List.eq_nil_of_length_eq_zero (Nat.le_zero.1 hn)
    cases m <;> rfl
  | succ n ih =>
    cases m with
    | zero =>
      obtain rfl := List.eq_nil_of_length_eq_zero (Nat.le_zero.1 hm)
      rfl
    | succ m =>
      rw [readMany_succ_eq, readMany_succ_eq]
      change readHere inner n (s.dropWhile Text.isBlank) =
        readHere inner m (s.dropWhile Text.isBlank)
      have hle : (s.dropWhile Text.isBlank).length ≤ s.length := (List.dropWhile_sublist _).length_le
      cases hs : s.dropWhile Text.isBlank with
      | nil => rfl
      | cons c t =>
        by_cases h : c = '('
        · subst h
          change readMore inner n _ = readMore inner m _
          unfold readMore andThen
          cases hread : inner ('(' :: t) with
          | error failure => rfl
          | ok result =>
            have hlt := consumes hread
            rw [hs] at hle
            simp only [bind, Except.bind]
            rw [ih (m := m) (by omega) (by omega)]
        · rw [readHere_none h, readHere_none h]

theorem readList_eq {inner : Reader Filter} (consumes : Consumes inner) {n : Nat}
    {s : List Char} (h : s.length ≤ n) :
    readList inner s = andThen (readMany inner n) (fun items =>
      stay (if items.isEmpty then .error .noItems else .ok items)) s := by
  unfold readList andThen
  rw [readMany_congr consumes (Nat.le_refl _) h]
  cases readMany inner n s with
  | error failure => rfl
  | ok result =>
    simp only [bind, Except.bind]
    split <;> rfl

/-- Readers that are the same up to a bound on the text look ahead as far as those with the bound. -/
theorem oneAhead_of_bounded {r : Reader α} {bounded : Nat → Reader α}
    (ahead : ∀ n, OneAhead (bounded n)) (h : ∀ {n s}, s.length ≤ n → r s = bounded n s) :
    OneAhead r := by
  intro s
  obtain ⟨verdict, taken, rest, hs, hread, _⟩ := ahead s.length s
  have hr : r s = leave verdict rest := (h (Nat.le_refl _)).trans hread
  refine ⟨verdict, taken, rest, hs, hr, ?_⟩
  intro c u hrest t
  -- A bound that is enough for the text and for the one with the other continuation.
  let n := max s.length (taken ++ c :: t).length
  obtain ⟨verdict', taken', rest', hs', hread', same⟩ := ahead n s
  rw [← h (Nat.le_max_left ..), hr] at hread'
  obtain ⟨rfl, rfl⟩ := leave_inj hread'
  obtain rfl : taken = taken' := List.append_cancel_right (hs.symm.trans hs')
  rw [h (Nat.le_max_right ..)]
  exact same c u hrest t

theorem oneAhead_readList {inner : Reader Filter} (ahead : OneAhead inner)
    (consumes : Consumes inner) : OneAhead (readList inner) := by
  apply oneAhead_of_bounded (h := readList_eq consumes)
  intro n s
  exact (oneAhead_readMany ahead n s).andThen fun _ => oneAhead_stay _

/-! ## Filters -/

theorem readBody_none_eq {c : Char} (h : c = '&' ∨ c = '|' ∨ c = '!') (s : List Char) :
    readBody none (c :: s) = .error ⟨.tooDeep, c :: s⟩ := by
  rw [readBody, if_pos h]

theorem oneAhead_readBody {inner : Option (Reader Filter)}
    (ahead : ∀ r, inner = some r → OneAhead r ∧ Consumes r) : OneAhead (readBody inner) := by
  intro s
  cases s with
  | nil => exact .whole (.error .endsEarly) rfl
  | cons c s =>
    by_cases h : c = '&' ∨ c = '|' ∨ c = '!'
    · cases inner with
      | none => exact .stop (.error .tooDeep) s (readBody_none_eq h)
      | some inner =>
        obtain ⟨ahead, consumes⟩ := ahead inner rfl
        have list := oneAhead_readList ahead @consumes
        rcases h with rfl | rfl | rfl
        · exact .take ['&'] ((list s).map all) fun t => rfl
        · exact .take ['|'] ((list s).map any) fun t => rfl
        · exact .take ['!'] ((ahead s).map not) fun t => rfl
    · exact .of_head (oneAhead_readItem _) fun t => readBody_eq_readItem inner t h

theorem readAround_eq (inner : Option (Reader Filter)) :
    readAround inner = andThen (takeRun Text.isBlank) fun _ => andThen (takeChar '(') fun _ =>
      andThen (takeRun Text.isBlank) fun _ => andThen (readBody inner) fun f =>
      andThen (takeRun Text.isBlank) fun _ => andThen (takeChar ')') fun _ => stay (.ok f) := by
  funext s
  unfold readAround
  simp only [expect_bind]
  rfl

theorem oneAhead_readAround {inner : Option (Reader Filter)} (body : OneAhead (readBody inner)) :
    OneAhead (readAround inner) := by
  rw [readAround_eq]
  intro s
  refine (oneAhead_takeRun _ s).andThen fun _ s => ?_
  refine (oneAhead_takeChar _ s).andThen fun _ s => ?_
  refine (oneAhead_takeRun _ s).andThen fun _ s => ?_
  refine (body s).andThen fun f s => ?_
  refine (oneAhead_takeRun _ s).andThen fun _ s => ?_
  exact (oneAhead_takeChar _ s).andThen fun _ => oneAhead_stay _

theorem oneAhead_readFilter (depth : Nat) : OneAhead (readFilter depth) := by
  induction depth with
  | zero =>
    apply oneAhead_readAround
    exact oneAhead_readBody nofun
  | succ depth ih =>
    apply oneAhead_readAround
    apply oneAhead_readBody
    rintro _ ⟨⟩
    exact ⟨ih, consumes_readFilter depth⟩

/-! ## Whole texts -/

/-- Takes nothing, and fails unless the text has ended. -/
def atEnd (f : Filter) : Reader Filter
  | [] => .ok (f, [])
  | s => .error ⟨.trailing, s⟩

/-- Takes a filter and the blanks up to the end of the text. -/
def readToEnd : Reader Filter :=
  andThen (readFilter maxDepth) fun f => andThen (takeRun Text.isBlank) fun _ => atEnd f

theorem oneAhead_readToEnd : OneAhead readToEnd := by
  intro s
  refine (oneAhead_readFilter maxDepth s).andThen fun f s => ?_
  refine (oneAhead_takeRun _ s).andThen fun _ s => ?_
  cases s with
  | nil => exact .whole (.ok f) rfl
  | cons c s => exact .stop (.error .trailing) s fun t => rfl

theorem readWhole_eq (s : List Char) : readWhole s = (readToEnd s).map (·.1) := by
  unfold readWhole readToEnd andThen
  cases readFilter maxDepth s with
  | error failure => rfl
  | ok result =>
    change _ = Except.map _ (atEnd result.1 (Text.trimStart result.2))
    simp only [bind, Except.bind]
    cases Text.trimStart result.2 <;> rfl

/-- What goes wrong goes wrong again whatever follows the character where it was found. -/
theorem readWhole_error {s : List Char} {failure : Failure} (h : readWhole s = .error failure) :
    ∃ taken, s = taken ++ failure.rest ∧ ∀ c u, failure.rest = c :: u → ∀ t,
      readWhole (taken ++ c :: t) = .error ⟨failure.problem, c :: t⟩ := by
  obtain ⟨verdict, taken, rest, hs, hread, same⟩ := oneAhead_readToEnd s
  rw [readWhole_eq, hread] at h
  cases verdict with
  | ok f => cases h
  | error problem =>
    obtain rfl := Except.error.inj h
    refine ⟨taken, hs, ?_⟩
    intro c u hrest t
    rw [readWhole_eq, same c u hrest t]
    rfl

/-! ## Offsets of mistakes -/

theorem readFilter_trimStart (depth : Nat) (s : List Char) :
    readFilter depth (Text.trimStart s) = readFilter depth s := by
  cases depth <;> simp only [readFilter, readAround, Text.trimStart_trimStart]

theorem rest_le_of_readWhole {s : List Char} {failure : Failure}
    (h : readWhole s = .error failure) : failure.rest.length ≤ (Text.trimStart s).length := by
  have trimmed : readWhole (Text.trimStart s) = .error failure := by
    unfold readWhole at h ⊢
    rwa [readFilter_trimStart]
  obtain ⟨taken, hs, _⟩ := readWhole_error trimmed
  rw [hs, List.length_append]
  omega

theorem readWhole_trimEnd_iff {text : String} {f : Filter} :
    readWhole (Text.trimEnd text.toList) = .ok f ↔ readWhole text.toList = .ok f := by
  rw [readWhole_trimEnd_eq_ok_iff, readWhole_eq_ok_iff]
  constructor
  · rintro ⟨⟨w, s, w', hs, hw, hf, hw'⟩, hdepth⟩
    exact ⟨w, s, w', hs, hw, hf, hdepth, hw'⟩
  · rintro ⟨w, s, w', hs, hw, hf, hdepth, hw'⟩
    exact ⟨⟨w, s, w', hs, hw, hf, hw'⟩, hdepth⟩

theorem trimEnd_ne_nil {s : List Char} (filled : ¬ Blanks s) : Text.trimEnd s ≠ [] := by
  intro hnil
  obtain ⟨w, hs, hw⟩ := Text.exists_blanks_trimEnd s
  rw [hnil, List.nil_append] at hs
  exact filled (hs ▸ hw)

theorem takeWhile_trimEnd {s : List Char} (filled : ¬ Blanks s) :
    (Text.trimEnd s).takeWhile Text.isBlank = s.takeWhile Text.isBlank := by
  obtain ⟨w, hs, hw⟩ := Text.exists_blanks_trimEnd s
  have htake : s.takeWhile Text.isBlank = (Text.trimEnd s ++ w).takeWhile Text.isBlank :=
    congrArg _ hs
  rw [htake, List.takeWhile_append]
  split
  · next hlen =>
    have blank := List.all_eq_true.1 (List.all_takeWhile (p := Text.isBlank) (l := Text.trimEnd s))
    rw [(List.takeWhile_prefix _).eq_of_length hlen] at blank
    refine absurd ?_ filled
    intro c hc
    rw [hs] at hc
    exact (List.mem_append.1 hc).elim (blank c) (hw c)
  · rfl

theorem indent_le_of_readWhole {s : List Char} {failure : Failure}
    (h : readWhole s = .error failure) :
    (s.takeWhile Text.isBlank).length ≤ s.length - failure.rest.length := by
  have hrest := rest_le_of_readWhole h
  have hlen : (s.takeWhile Text.isBlank).length + (Text.trimStart s).length = s.length := by
    rw [← List.length_append, Text.trimStart, List.takeWhile_append_dropWhile]
  omega

/-- What is wrong with a text can be found out. -/
instance (text : String) (e : SyntaxError) : Decidable (parse text = .error e) :=
  match parse text with
  | .ok _ => isFalse nofun
  | .error e' => decidable_of_iff (e' = e) ⟨congrArg _, Except.error.inj⟩

/-- A text that is not blank and is no filter has its mistake at an offset between the blanks in
front of it and the blanks behind it. Unless the mistake is that the text ends, no text that begins
like this one, up to the character at the offset, is a filter. -/
theorem parse_error_final {text : String} {e : SyntaxError} (h : parse text = .error e)
    (filled : ¬ Blanks text.toList) :
    ∃ problem k, e = .wrong problem k ∧
      (text.toList.takeWhile Text.isBlank).length ≤ k ∧
      k ≤ (Text.trimEnd text.toList).length ∧
      (k < (Text.trimEnd text.toList).length → ∀ other : String,
        text.toList.take (k + 1) <+: other.toList → ∀ f, parse other ≠ .ok f) := by
  obtain ⟨w, htext, _⟩ := Text.exists_blanks_trimEnd text.toList
  unfold parse at h
  simp only [List.isEmpty_iff, trimEnd_ne_nil filled, if_false] at h
  cases hread : readWhole (Text.trimEnd text.toList) with
  | ok f =>
    rw [hread] at h
    cases h
  | error failure =>
    rw [hread] at h
    obtain rfl := Except.error.inj h
    have indent := indent_le_of_readWhole hread
    rw [takeWhile_trimEnd filled] at indent
    refine ⟨failure.problem, _, rfl, indent, Nat.sub_le .., ?_⟩
    obtain ⟨taken, hs, same⟩ := readWhole_error hread
    have offset : (Text.trimEnd text.toList).length - failure.rest.length = taken.length := by
      rw [hs, List.length_append, Nat.add_sub_cancel]
    rw [offset]
    intro hlt other begins f hf
    cases hrest : failure.rest with
    | nil =>
      rw [hs, hrest, List.append_nil] at hlt
      exact Nat.lt_irrefl _ hlt
    | cons c u =>
      have front : text.toList.take (taken.length + 1) = taken ++ [c] := by
        rw [htext, hs, hrest, List.append_assoc, List.take_length_add_append]
        rfl
      obtain ⟨t, ht⟩ := begins
      rw [front, List.append_assoc, List.singleton_append] at ht
      rw [parse_eq_ok_iff_readWhole, readWhole_trimEnd_iff, ← ht, same c u hrest t] at hf
      cases hf

/-- A wildcard in a comparison is noticed at the parenthesis behind the value, and nothing that
follows the parenthesis makes a filter of it. -/
theorem parse_error_final_wildcard :
    parse "  (a>=b*) " = .error (.wrong .wildcard 8) ∧ ¬ Blanks "  (a>=b*) ".toList ∧
      ∀ other : String, "  (a>=b*)".toList <+: other.toList → ∀ f, parse other ≠ .ok f := by
  have h : parse "  (a>=b*) " = .error (.wrong .wildcard 8) := by decide +kernel
  have filled : ¬ Blanks "  (a>=b*) ".toList := by
    intro blank
    exact absurd (blank '(' (by decide)) (by decide)
  refine ⟨h, filled, ?_⟩
  obtain ⟨problem, k, heq, _, _, final⟩ := parse_error_final h filled
  obtain ⟨rfl, rfl⟩ := SyntaxError.wrong.inj heq
  exact final (by decide)

end ServiceImport.Filter

import ServiceImport.Value

/-! # Property bags

A bag maps each key to one value and lists its entries in ascending order of the keys.
-/

namespace ServiceImport

/-- Entries in strictly ascending order of their keys. -/
def Ascending (entries : List (String × Value)) : Prop := entries.Pairwise fun a b => a.1 < b.1

structure Properties where
  entries : List (String × Value) := []
  ascending : Ascending entries := by exact List.Pairwise.nil

/-- The keys are equal up to ASCII case. -/
def sameName (a b : String) : Bool := a.toList.map Char.toLower == b.toList.map Char.toLower

namespace Properties

/-! ## Lists of entries -/

/-- Puts a value under a key, in order. -/
def put (key : String) (value : Value) : List (String × Value) → List (String × Value)
  | [] => [(key, value)]
  | e :: rest =>
    if key < e.1 then (key, value) :: e :: rest
    else if key = e.1 then (key, value) :: rest
    else e :: put key value rest

theorem mem_put {key : String} {value : Value} {entries : List (String × Value)}
    {e : String × Value} (h : e ∈ put key value entries) : e = (key, value) ∨ e ∈ entries := by
  induction entries with
  | nil => simpa [put] using h
  | cons head rest ih =>
    simp only [put] at h
    split at h
    · simpa using h
    · split at h
      · rcases List.mem_cons.1 h with h | h
        · exact .inl h
        · exact .inr (List.mem_cons_of_mem _ h)
      · rcases List.mem_cons.1 h with h | h
        · exact .inr (h ▸ List.mem_cons_self)
        · exact (ih h).imp_right (List.mem_cons_of_mem _)

theorem ascending_put {entries : List (String × Value)} (key : String) (value : Value)
    (h : Ascending entries) : Ascending (put key value entries) := by
  unfold Ascending at *
  induction entries with
  | nil => simp [put]
  | cons head rest ih =>
    obtain ⟨hhead, hrest⟩ := List.pairwise_cons.1 h
    simp only [put]
    split
    · next hlt =>
      refine List.pairwise_cons.2 ⟨fun e he => ?_, h⟩
      rcases List.mem_cons.1 he with rfl | he
      · exact hlt
      · exact String.lt_trans hlt (hhead e he)
    · next hlt =>
      split
      · next heq => exact List.pairwise_cons.2 ⟨fun e he => heq ▸ hhead e he, hrest⟩
      · next hne =>
        refine List.pairwise_cons.2 ⟨fun e he => ?_, ih hrest⟩
        rcases mem_put he with rfl | he
        · exact Classical.byContradiction fun hle =>
            hne (String.le_antisymm (String.not_lt.1 hle) (String.not_lt.1 hlt))
        · exact hhead e he

/-! ## Operations -/

def empty : Properties := {}

instance : Inhabited Properties := ⟨empty⟩

theorem eq_of_entries {p q : Properties} (h : p.entries = q.entries) : p = q := by
  cases p; cases q; cases h; rfl

instance : DecidableEq Properties := fun p q =>
  if h : p.entries = q.entries then isTrue (eq_of_entries h) else isFalse fun e => h (e ▸ rfl)

def get? (p : Properties) (key : String) : Option Value :=
  (p.entries.find? (·.1 == key)).map (·.2)

def contains (p : Properties) (key : String) : Bool := p.entries.any (·.1 == key)

/-- The bag with a value under a key, in place of the one before. -/
def insert (p : Properties) (key : String) (value : Value) : Properties where
  entries := put key value p.entries
  ascending := ascending_put key value p.ascending

def erase (p : Properties) (key : String) : Properties where
  entries := p.entries.filter (·.1 != key)
  ascending := List.Pairwise.filter _ p.ascending

/-- The entries whose keys pass a test. -/
def filterKeys (p : Properties) (keep : String → Bool) : Properties where
  entries := p.entries.filter (keep ·.1)
  ascending := List.Pairwise.filter _ p.ascending

/-- The bag with several entries put in one after another. -/
def insertMany (p : Properties) (entries : List (String × Value)) : Properties :=
  entries.foldl (fun q e => q.insert e.1 e.2) p

/-- The bag that a list of entries makes; of two entries with one key the later counts. -/
def ofList (entries : List (String × Value)) : Properties := empty.insertMany entries

def keys (p : Properties) : List String := p.entries.map (·.1)

def size (p : Properties) : Nat := p.entries.length

def isEmpty (p : Properties) : Bool := p.entries.isEmpty

/-- The value under a key or, failing that, under the first key equal to it up to ASCII case. -/
def getNamed? (p : Properties) (key : String) : Option Value :=
  p.get? key <|> (p.entries.find? (sameName ·.1 key)).map (·.2)

def text? (p : Properties) (key : String) : Option String := (p.get? key).bind Value.text?

def strings (p : Properties) (key : String) : List String := ((p.get? key).map Value.strings).getD []

def describe (p : Properties) : String :=
  Text.applied "Properties"
    ("\x7b" ++ ", ".intercalate (p.entries.map fun e => Text.quote e.1 ++ ": " ++ e.2.describe) ++ "\x7d")

/-! ## What the operations do to a look-up -/

theorem find_put_self (key : String) (value : Value) (entries : List (String × Value)) :
    (put key value entries).find? (·.1 == key) = some (key, value) := by
  induction entries with
  | nil => simp [put]
  | cons head rest ih =>
    simp only [put]
    split
    · simp
    · split
      · simp
      · next hne => rw [List.find?_cons_of_neg (by simpa using Ne.symm hne), ih]

theorem find_put_of_ne {key other : String} (value : Value) (entries : List (String × Value))
    (h : other ≠ key) :
    (put key value entries).find? (·.1 == other) = entries.find? (·.1 == other) := by
  induction entries with
  | nil => simp [put, Ne.symm h]
  | cons head rest ih =>
    simp only [put]
    split
    · rw [List.find?_cons_of_neg (by simpa using Ne.symm h)]
    · split
      · next heq =>
        rw [List.find?_cons_of_neg (by simpa using Ne.symm h),
          List.find?_cons_of_neg (by simpa [← heq] using Ne.symm h)]
      · rw [List.find?_cons, List.find?_cons, ih]

@[simp] theorem get?_insert (p : Properties) (key other : String) (value : Value) :
    (p.insert key value).get? other = if other = key then some value else p.get? other := by
  unfold get? insert
  split
  · next h => subst h; simp [find_put_self]
  · next h => simp [find_put_of_ne value p.entries h]

@[simp] theorem get?_filterKeys (p : Properties) (keep : String → Bool) (key : String) :
    (p.filterKeys keep).get? key = if keep key then p.get? key else none := by
  unfold get? filterKeys
  simp only [List.find?_filter]
  split
  · next h =>
    congr 2; funext e
    by_cases he : e.1 = key <;> simp [he, h]
  · next h =>
    rw [List.find?_eq_none.2]
    · rfl
    · intro e _
      by_cases he : e.1 = key <;> simp [he, h]

end Properties

end ServiceImport

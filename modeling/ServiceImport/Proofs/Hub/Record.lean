import Mathlib.Algebra.GroupWithZero.Nat
import Mathlib.Data.List.Induction
import Mathlib.Data.List.Infix
import Mathlib.Data.List.TakeWhile
import ServiceImport.Proofs.Hub.Readers

/-! # The record of a hub

A run of a hub is any sequence of commands, and what happens is recorded. From the record each
reader is told what was published since it came, what it was given and what it missed. The hub keeps
in step with its record, entry by entry.
-/

namespace ServiceImport

/-! ## Runs -/

/-- What can be done with a hub and its readers. -/
inductive HubCommand (α : Type) where
  | subscribe
  | publish (a : α)
  | next (reader : Nat)
  | drop (reader : Nat)
  | close

inductive HubEvent (α : Type) where
  | subscribed (reader : Nat)
  /-- An item was published for so many readers. -/
  | published (a : α) (readers : Nat)
  /-- A reader was told how many items it missed. -/
  | lagged (reader missed : Nat)
  | read (reader : Nat) (delivery : Delivery α)
  | dropped (reader : Nat)
  | closed

namespace HubEvent

variable {α : Type}

def reader? : HubEvent α → Option Nat
  | .subscribed j | .lagged j _ | .read j _ | .dropped j => some j
  | .published .. | .closed => none

def item? : HubEvent α → Option α
  | .published a _ => some a
  | _ => none

/-- The item if somebody was there to read it. -/
def taken? : HubEvent α → Option α
  | .published a n => if n = 0 then none else some a
  | _ => none

def opens (j : Nat) : HubEvent α → Bool
  | .subscribed i => i == j
  | _ => false

def missed? (j : Nat) : HubEvent α → Option Nat
  | .lagged i n => if i = j then some n else none
  | _ => none

def delivered? (j : Nat) : HubEvent α → Option α
  | .read i (.item a) => if i = j then some a else none
  | _ => none

end HubEvent

namespace Hub

variable {α : Type} {h h' : Hub α} {i j N : Nat} {es : List (HubEvent α)}

/-- Carries out a command, and tells what happens. A hub that is closed takes neither items nor
readers, and for a reader that is not there nothing happens. -/
def perform (h : Hub α) : HubCommand α → List (HubEvent α) × Hub α
  | .subscribe => if h.isOpen then ([.subscribed h.subscribe.1], h.subscribe.2) else ([], h)
  | .publish a => if h.isOpen then ([.published a (h.publish a).1], (h.publish a).2) else ([], h)
  | .next j =>
    if (h.place? j).isSome then
      ((if h.missed j = 0 then [] else [.lagged j (h.missed j)]) ++ [.read j (h.next j).1],
        (h.next j).2)
    else ([], h)
  | .drop j => if (h.place? j).isSome then ([.dropped j], h.unsubscribe j) else ([], h)
  | .close => if h.isOpen then ([.closed], h.close) else ([], h)

/-- Carries out commands one after another. -/
def run (h : Hub α) : List (HubCommand α) → List (HubEvent α) × Hub α
  | [] => ([], h)
  | c :: cs => ((h.perform c).1 ++ ((h.perform c).2.run cs).1, ((h.perform c).2.run cs).2)

/-! ## Reading the record -/

/-- The readers that came and did not go. -/
def readers (es : List (HubEvent α)) : List Nat :=
  es.foldl (fun there e => match e with
    | .subscribed j => there ++ [j]
    | .dropped j => there.filter (· != j)
    | _ => there) []

/-- What the hub took. -/
def taken (es : List (HubEvent α)) : List α := es.filterMap HubEvent.taken?

/-- What was published since a reader came. -/
def since (j : Nat) (es : List (HubEvent α)) : List α :=
  (es.dropWhile (!·.opens j)).filterMap HubEvent.item?

/-- The items that a reader was given. -/
def delivered (j : Nat) (es : List (HubEvent α)) : List α := es.filterMap (HubEvent.delivered? j)

/-- What a reader was told each time that it had missed items. -/
def missedBy (j : Nat) (es : List (HubEvent α)) : List Nat := es.filterMap (HubEvent.missed? j)

/-- How many items a reader got to, given or missed. -/
def reached (j : Nat) (es : List (HubEvent α)) : Nat :=
  (delivered j es).length + (missedBy j es).sum

/-! ## Entry by entry -/

/-- What one entry of the record comes from, and what it comes to. -/
inductive Writes : Hub α → HubEvent α → Hub α → Prop
  | subscribed (h : Hub α) : Writes h (.subscribed h.nextFeed) h.subscribe.2
  | published (h : Hub α) (a : α) : Writes h (.published a (h.publish a).1) (h.publish a).2
  | lagged {h : Hub α} {j : Nat} (there : (h.place? j).isSome) (behind : h.missed j ≠ 0) :
      Writes h (.lagged j (h.missed j)) (h.moveTo j h.dropped)
  | read {h : Hub α} {j : Nat} (there : (h.place? j).isSome) (level : h.missed j = 0) :
      Writes h (.read j (h.next j).1) (h.next j).2
  | dropped {h : Hub α} {j : Nat} (there : (h.place? j).isSome) :
      Writes h (.dropped j) (h.unsubscribe j)
  | closed (h : Hub α) : Writes h .closed h.close

/-- One entry after another. -/
inductive Writing : Hub α → List (HubEvent α) → Hub α → Prop
  | nil (h : Hub α) : Writing h [] h
  | cons {h t u : Hub α} {e : HubEvent α} {es : List (HubEvent α)} (first : Writes h e t)
      (rest : Writing t es u) : Writing h (e :: es) u

theorem writing_append_iff {u : Hub α} {fs : List (HubEvent α)} :
    Writing h (es ++ fs) u ↔ ∃ t, Writing h es t ∧ Writing t fs u := by
  induction es generalizing h with
  | nil =>
    refine ⟨fun w => ⟨h, .nil h, w⟩, ?_⟩
    rintro ⟨t, ⟨⟩, w⟩
    exact w
  | cons e es ih =>
    constructor
    · rintro (_ | ⟨first, rest⟩)
      obtain ⟨t, left, right⟩ := ih.1 rest
      exact ⟨t, .cons first left, right⟩
    · rintro ⟨t, _ | ⟨first, left⟩, right⟩
      exact .cons first (ih.2 ⟨t, left, right⟩)

theorem missed_eq_zero_iff : h.missed j = 0 ↔ h.dropped ≤ h.cursor j := Nat.sub_eq_zero_iff_le

theorem cursor_moveTo_self (there : (h.place? j).isSome) (position : Nat) :
    (h.moveTo j position).cursor j = position := by
  obtain ⟨f, hf⟩ := Option.isSome_iff_exists.1 there
  refine (cursor_of_place? (f := { f with cursor := position }) ?_).trans rfl
  rw [place?_moveTo, hf, Option.map_some, if_pos (mem_of_place? hf).2]

theorem moveTo_moveTo (h : Hub α) (j p q : Nat) : (h.moveTo j p).moveTo j q = h.moveTo j q := by
  unfold moveTo
  rw [List.map_map]
  congr 1
  refine List.map_congr_left fun f _ => ?_
  dsimp only [Function.comp]
  by_cases same : f.id = j <;> simp [same]

/-- Going on at the oldest item held first makes no difference to what is read next. -/
theorem next_moveTo_dropped (there : (h.place? j).isSome) (behind : h.missed j ≠ 0) :
    (h.moveTo j h.dropped).next j = h.next j := by
  have cursor : (h.moveTo j h.dropped).cursor j = h.dropped := cursor_moveTo_self there _
  have first : h.cursor j - h.dropped = 0 := by
    rw [Ne, missed_eq_zero_iff] at behind
    omega
  have dropped : (h.moveTo j h.dropped).dropped = h.dropped := rfl
  have waiting : (h.moveTo j h.dropped).waiting j = h.waiting j := by
    unfold Hub.waiting
    rw [cursor, dropped, first, Nat.sub_self]
    rfl
  have furthest : max (h.cursor j) h.dropped = h.dropped := by omega
  rw [next_eq, next_eq, waiting, cursor, dropped, furthest, Nat.max_self]
  simp only [moveTo_moveTo]
  rfl

theorem writing_perform (h : Hub α) (c : HubCommand α) :
    Writing h (h.perform c).1 (h.perform c).2 := by
  cases c with
  | subscribe =>
    dsimp only [perform]
    split
    · exact .cons (.subscribed h) (.nil _)
    · exact .nil h
  | publish a =>
    dsimp only [perform]
    split
    · exact .cons (.published h a) (.nil _)
    · exact .nil h
  | next j =>
    dsimp only [perform]
    split
    · next there =>
      by_cases level : h.missed j = 0
      · rw [if_pos level]
        exact .cons (.read there level) (.nil _)
      · rw [if_neg level, ← next_moveTo_dropped there level]
        refine .cons (.lagged there level) (.cons (.read ?_ ?_) (.nil _))
        · rw [place?_moveTo, Option.isSome_map]
          exact there
        · exact missed_eq_zero_iff.2 (Nat.le_of_eq (cursor_moveTo_self there _).symm)
    · exact .nil h
  | drop j =>
    dsimp only [perform]
    split
    · next there => exact .cons (.dropped there) (.nil _)
    · exact .nil h
  | close =>
    dsimp only [perform]
    split
    · exact .cons (.closed h) (.nil _)
    · exact .nil h

theorem writing_run (h : Hub α) (cs : List (HubCommand α)) :
    Writing h (h.run cs).1 (h.run cs).2 := by
  induction cs generalizing h with
  | nil => exact .nil h
  | cons c cs ih => exact writing_append_iff.2 ⟨_, writing_perform h c, ih _⟩

/-! ## The record and its next entry -/

/-- Whether a reader came. -/
def came (j : Nat) (es : List (HubEvent α)) : Bool := es.any (·.opens j)

theorem came_snoc (j : Nat) (es : List (HubEvent α)) (e : HubEvent α) :
    came j (es ++ [e]) = (came j es || e.opens j) := by
  simp [came]

theorem dropWhile_opens_eq_nil_iff : es.dropWhile (!·.opens j) = [] ↔ came j es = false := by
  rw [List.dropWhile_eq_nil_iff, came, List.any_eq_false]
  simp

theorem since_of_not_came (not : came j es = false) : since j es = [] := by
  unfold since
  rw [dropWhile_opens_eq_nil_iff.2 not]
  rfl

theorem since_snoc_of_came (came : came j es = true) (e : HubEvent α) :
    since j (es ++ [e]) = since j es ++ e.item?.toList := by
  have stays : (es.dropWhile (!·.opens j)).isEmpty = false := by
    rw [List.isEmpty_eq_false_iff, Ne, dropWhile_opens_eq_nil_iff, came]
    exact nofun
  unfold since
  rw [List.dropWhile_append, stays, if_neg nofun, List.filterMap_append]
  cases h : e.item? <;> simp [h]

theorem since_snoc_of_item?_none {e : HubEvent α} (none : e.item? = none) (j : Nat) :
    since j (es ++ [e]) = since j es := by
  cases h : came j es with
  | true => rw [since_snoc_of_came h, none, Option.toList_none, List.append_nil]
  | false =>
    rw [since_of_not_came h]
    unfold since
    rw [List.dropWhile_append, dropWhile_opens_eq_nil_iff.2 h]
    cases opens : e.opens j <;> simp [opens, none]

theorem since_grows (j : Nat) (es : List (HubEvent α)) (e : HubEvent α) :
    since j es <+: since j (es ++ [e]) := by
  cases h : came j es with
  | true =>
    rw [since_snoc_of_came h]
    exact List.prefix_append _ _
  | false =>
    rw [since_of_not_came h]
    exact List.nil_prefix

theorem taken?_of_item?_none {e : HubEvent α} (none : e.item? = none) :
    e.taken? = Option.none := by
  cases e with
  | published a n => exact absurd none nofun
  | _ => rfl

theorem taken_snoc (es : List (HubEvent α)) (e : HubEvent α) :
    taken (es ++ [e]) = taken es ++ e.taken?.toList := by
  cases h : e.taken? <;> simp [taken, h]

theorem taken_snoc_of_item?_none {e : HubEvent α} (none : e.item? = none) :
    taken (es ++ [e]) = taken es := by
  rw [taken_snoc, taken?_of_item?_none none]
  exact List.append_nil _

theorem delivered_snoc (j : Nat) (es : List (HubEvent α)) (e : HubEvent α) :
    delivered j (es ++ [e]) = delivered j es ++ (e.delivered? j).toList := by
  cases h : e.delivered? j <;> simp [delivered, h]

/-- How many items a reader gets to by one entry. -/
def stride (j : Nat) (e : HubEvent α) : Nat :=
  (e.delivered? j).toList.length + (e.missed? j).getD 0

theorem reached_snoc (j : Nat) (es : List (HubEvent α)) (e : HubEvent α) :
    reached j (es ++ [e]) = reached j es + stride j e := by
  unfold reached stride
  cases h : e.missed? j
  · simp [delivered_snoc, missedBy, h]
    omega
  · simp [delivered_snoc, missedBy, h]
    omega

@[simp]
theorem stride_lagged (j n : Nat) : stride j (.lagged j n : HubEvent α) = n := by
  simp [stride, HubEvent.delivered?, HubEvent.missed?]

@[simp]
theorem stride_given (j : Nat) (a : α) : stride j (.read j (.item a)) = 1 := by
  simp [stride, HubEvent.delivered?, HubEvent.missed?]

@[simp]
theorem stride_idle (j : Nat) (isOpen : Bool) :
    stride j (.read j (if isOpen then .waiting else .ended) : HubEvent α) = 0 := by
  cases isOpen <;> rfl

theorem stride_of_ne {e : HubEvent α} (other : e.reader? ≠ some j) : stride j e = 0 := by
  cases e with
  | lagged i n => simp_all [stride, HubEvent.reader?, HubEvent.delivered?, HubEvent.missed?]
  | read i d =>
    cases d <;> simp_all [stride, HubEvent.reader?, HubEvent.delivered?, HubEvent.missed?]
  | _ => rfl

theorem delivered?_of_ne {e : HubEvent α} (other : e.reader? ≠ some j) : e.delivered? j = none := by
  cases e with
  | read i d => cases d <;> simp_all [HubEvent.reader?, HubEvent.delivered?]
  | _ => rfl

theorem readers_snoc (es : List (HubEvent α)) (e : HubEvent α) :
    readers (es ++ [e]) = (match e with
      | .subscribed j => readers es ++ [j]
      | .dropped j => (readers es).filter (· != j)
      | _ => readers es) := by
  unfold readers
  rw [List.foldl_append]
  rfl

theorem exists_moment {k : Nat} (got : k < reached j es) :
    ∃ before e after, es = before ++ e :: after ∧
      reached j before ≤ k ∧ k < reached j (before ++ [e]) := by
  induction es using List.reverseRecOn with
  | nil => exact absurd got (Nat.not_lt_zero k)
  | append_singleton es e ih =>
    by_cases earlier : k < reached j es
    · obtain ⟨before, x, after, rfl, low, high⟩ := ih earlier
      exact ⟨before, x, after ++ [e], by simp, low, high⟩
    · exact ⟨es, e, [], rfl, Nat.le_of_not_lt earlier, got⟩

/-! ## The record and the hub -/

/-- The record so far and the hub agree about a reader: what was published since it came is the last
of what the hub took, and its place is where it got to. -/
structure Kept (es : List (HubEvent α)) (f : HubFeed) : Prop where
  came : came f.id es = true
  since : since f.id es <:+ taken es
  cursor : f.cursor + (Hub.since f.id es).length = (taken es).length + reached f.id es

/-- The record so far and the hub agree. -/
structure Logged (N : Nat) (es : List (HubEvent α)) (h : Hub α) : Prop where
  sound : h.Sound
  size : h.size = N
  isOpen : h.isOpen = true ↔ HubEvent.closed ∉ es
  published : h.published = (taken es).length
  held : h.held = (taken es).drop ((taken es).length - N)
  readers : readers es = h.feeds.map (·.id)
  issued : ∀ e ∈ es, ∀ j, e.reader? = some j → j < h.nextFeed
  kept : ∀ f ∈ h.feeds, Kept es f
  ordered : ∀ j, (delivered j es).Sublist ((since j es).take (reached j es))

theorem logged_new (capacity : Nat) :
    Logged (powerOfTwoFrom (max capacity 1)) [] (Hub.new capacity : Hub α) where
  sound := sound_new capacity
  size := rfl
  isOpen := ⟨fun _ => List.not_mem_nil, fun _ => rfl⟩
  published := rfl
  held := List.drop_nil.symm
  readers := rfl
  issued := nofun
  kept := nofun
  ordered _ := List.nil_sublist _

namespace Kept

variable {f : HubFeed} {e : HubEvent α}

theorem skip (kept : Kept es f) (other : e.reader? ≠ some f.id) (none : e.item? = none) :
    Kept (es ++ [e]) f := by
  refine ⟨by rw [came_snoc, kept.came, Bool.true_or], ?_, ?_⟩
  · rw [since_snoc_of_item?_none none, taken_snoc_of_item?_none none]
    exact kept.since
  · rw [since_snoc_of_item?_none none, taken_snoc_of_item?_none none, reached_snoc,
      stride_of_ne other]
    exact kept.cursor

theorem publish (kept : Kept es f) (a : α) {n : Nat} (some : n ≠ 0) :
    Kept (es ++ [.published a n]) f := by
  have taken : HubEvent.taken? (.published a n) = Option.some a := if_neg some
  refine ⟨by rw [came_snoc, kept.came, Bool.true_or], ?_, ?_⟩
  · obtain ⟨before, hbefore⟩ := kept.since
    refine ⟨before, ?_⟩
    rw [since_snoc_of_came kept.came, taken_snoc, taken, ← List.append_assoc, hbefore]
    rfl
  · have cursor := kept.cursor
    have still : stride f.id (.published a n) = 0 := rfl
    rw [since_snoc_of_came kept.came, taken_snoc, taken, reached_snoc, still]
    simp only [HubEvent.item?, List.length_append, Option.toList_some, List.length_singleton]
    omega

theorem move (kept : Kept es f) {position : Nat} (none : e.item? = none)
    (stride : position = f.cursor + stride f.id e) :
    Kept (es ++ [e]) { f with cursor := position } := by
  refine ⟨by rw [came_snoc, kept.came, Bool.true_or], ?_, ?_⟩
  · rw [since_snoc_of_item?_none none, taken_snoc_of_item?_none none]
    exact kept.since
  · have cursor := kept.cursor
    rw [since_snoc_of_item?_none none, taken_snoc_of_item?_none none, reached_snoc]
    dsimp only
    omega

end Kept

namespace Logged

theorem reader (logged : Logged N es h) (there : (h.place? j).isSome) :
    ∃ f ∈ h.feeds, f.id = j ∧ h.cursor j = f.cursor ∧ Kept es f := by
  obtain ⟨f, hf⟩ := Option.isSome_iff_exists.1 there
  exact ⟨f, (mem_of_place? hf).1, (mem_of_place? hf).2, cursor_of_place? hf,
    logged.kept f (mem_of_place? hf).1⟩

theorem issued_of_there (logged : Logged N es h) (there : (h.place? j).isSome) :
    j < h.nextFeed := by
  obtain ⟨f, hf, rfl, -⟩ := logged.reader there
  exact logged.sound.issued f hf

theorem dropped (logged : Logged N es h) : h.dropped = (taken es).length - N := by
  rw [logged.sound.dropped, logged.published, logged.size]

/-- Every item since a reader came is one that it got to or one that it has yet to get to. -/
theorem backlog (logged : Logged N es h) (there : (h.place? j).isSome) :
    reached j es + h.backlog j = (since j es).length := by
  obtain ⟨f, hf, rfl, place, kept⟩ := logged.reader there
  have cursor := kept.cursor
  have behind := logged.sound.behind f hf
  have published := logged.published
  unfold Hub.backlog
  omega

theorem missed (logged : Logged N es h) (there : (h.place? j).isSome) :
    h.missed j = (since j es).length - N - reached j es := by
  obtain ⟨f, hf, rfl, place, kept⟩ := logged.reader there
  have cursor := kept.cursor
  have shorter := kept.since.length_le
  have dropped := logged.dropped
  unfold Hub.missed
  omega

/-- What a reader has yet to read are the items since it came that it has neither got to nor lost.
-/
theorem waiting (logged : Logged N es h) (there : (h.place? j).isSome) :
    h.waiting j = (since j es).drop (max (reached j es) ((since j es).length - N)) := by
  obtain ⟨f, hf, rfl, place, kept⟩ := logged.reader there
  have cursor := kept.cursor
  have shorter := kept.since.length_le
  have suffix := List.suffix_iff_eq_drop.1 kept.since
  unfold Hub.waiting
  rw [logged.held, logged.dropped, place, List.drop_drop]
  conv_rhs => rw [suffix]
  rw [List.drop_drop, ← suffix]
  congr 1
  omega

variable {e : HubEvent α}

theorem ordered_of_none (logged : Logged N es h) (none : e.delivered? j = none) :
    (delivered j (es ++ [e])).Sublist ((since j (es ++ [e])).take (reached j (es ++ [e]))) := by
  rw [delivered_snoc, none, reached_snoc]
  simp only [Option.toList_none, List.append_nil]
  have more : (since j es).take (reached j es) <+:
      (since j (es ++ [e])).take (reached j es + stride j e) :=
    (List.IsPrefix.take (since_grows j es e) _).trans
      (List.take_prefix_take_left (Nat.le_add_right _ _))
  exact (logged.ordered j).trans more.sublist

theorem published_snoc (logged : Logged N es h) (none : e.item? = none) :
    h.published = (taken (es ++ [e])).length := by
  rw [taken_snoc_of_item?_none none]
  exact logged.published

theorem held_snoc (logged : Logged N es h) (none : e.item? = none) :
    h.held = (taken (es ++ [e])).drop ((taken (es ++ [e])).length - N) := by
  rw [taken_snoc_of_item?_none none]
  exact logged.held

theorem isOpen_snoc (logged : Logged N es h) (same : h'.isOpen = h.isOpen)
    (other : HubEvent.closed ≠ e) : h'.isOpen = true ↔ HubEvent.closed ∉ es ++ [e] := by
  rw [same, logged.isOpen, List.mem_append, List.mem_singleton, or_iff_left other]

theorem issued_snoc (logged : Logged N es h) (more : h.nextFeed ≤ h'.nextFeed)
    (known : ∀ j, e.reader? = some j → j < h'.nextFeed) :
    ∀ x ∈ es ++ [e], ∀ j, x.reader? = some j → j < h'.nextFeed := by
  intro x hx j hj
  rcases List.mem_append.1 hx with hx | hx
  · exact Nat.lt_of_lt_of_le (logged.issued x hx j hj) more
  · rw [List.mem_singleton.1 hx] at hj
    exact known j hj

theorem came_nextFeed (logged : Logged N es h) : Hub.came h.nextFeed es = false := by
  refine List.any_eq_false.2 fun e he opens => ?_
  cases e with
  | subscribed i =>
    have issued := logged.issued _ he i rfl
    simp only [HubEvent.opens, beq_iff_eq] at opens
    omega
  | _ => exact absurd opens nofun

theorem reached_nextFeed (logged : Logged N es h) : reached h.nextFeed es = 0 := by
  have none : ∀ e ∈ es, e.reader? ≠ some h.nextFeed := fun e he known =>
    Nat.lt_irrefl _ (logged.issued e he _ known)
  clear logged
  induction es using List.reverseRecOn with
  | nil => rfl
  | append_singleton es e ih =>
    rw [reached_snoc, ih fun x hx => none x (List.mem_append_left _ hx),
      stride_of_ne (none e (by simp))]

theorem subscribe (logged : Logged N es h) :
    Logged N (es ++ [.subscribed h.nextFeed]) h.subscribe.2 where
  sound := logged.sound.subscribe
  size := logged.size
  isOpen := logged.isOpen_snoc rfl nofun
  published := logged.published_snoc rfl
  held := logged.held_snoc rfl
  readers := by
    rw [readers_snoc, logged.readers]
    unfold Hub.subscribe
    simp
  issued := logged.issued_snoc (Nat.le_succ _) fun j hj => by
    obtain rfl := Option.some.inj hj
    exact Nat.lt_succ_self _
  kept f hf := by
    rcases List.mem_append.1 hf with hf | hf
    · refine (logged.kept f hf).skip (fun same => ?_) rfl
      exact Nat.ne_of_lt (logged.sound.issued f hf) (Option.some.inj same).symm
    · obtain rfl := List.mem_singleton.1 hf
      have since : Hub.since h.nextFeed (es ++ [.subscribed h.nextFeed]) = [] := by
        rw [since_snoc_of_item?_none rfl, since_of_not_came logged.came_nextFeed]
      refine ⟨?_, ?_, ?_⟩
      · rw [came_snoc]
        simp [HubEvent.opens]
      · rw [since]
        exact List.nil_suffix
      · have still : stride h.nextFeed (.subscribed h.nextFeed : HubEvent α) = 0 := rfl
        rw [since, taken_snoc_of_item?_none rfl, reached_snoc, logged.reached_nextFeed, still]
        simp only [List.length_nil, Nat.add_zero]
        exact logged.published
  ordered j := logged.ordered_of_none rfl

theorem publish (logged : Logged N es h) (a : α) :
    Logged N (es ++ [.published a (h.publish a).1]) (h.publish a).2 := by
  by_cases none : h.feeds = []
  · rw [publish_of_isEmpty none]
    have taken : Hub.taken (es ++ [.published a 0]) = Hub.taken es := by
      rw [taken_snoc]
      exact List.append_nil _
    refine ⟨logged.sound, logged.size, logged.isOpen_snoc rfl nofun, ?_, ?_, ?_, ?_, ?_, ?_⟩
    · rw [taken]
      exact logged.published
    · rw [taken]
      exact logged.held
    · rw [readers_snoc]
      exact logged.readers
    · exact logged.issued_snoc (Nat.le_refl _) nofun
    · rw [none]
      exact nofun
    · exact fun j => logged.ordered_of_none rfl
  · have some : h.feedCount ≠ 0 := fun zero => none (List.length_eq_zero_iff.1 zero)
    have sound := logged.sound.publish a
    rw [publish_of_ne_nil none] at sound ⊢
    have taken : Hub.taken (es ++ [.published a h.feedCount]) = Hub.taken es ++ [a] := by
      rw [taken_snoc, HubEvent.taken?, if_neg some]
      rfl
    refine ⟨sound, logged.size, logged.isOpen_snoc rfl nofun, ?_, ?_, ?_, ?_, ?_, ?_⟩
    · rw [taken, logged.published]
      simp
    · have shorter : (Hub.taken es).length - N ≤ (Hub.taken es).length := Nat.sub_le _ _
      rw [taken, logged.held, logged.size, ← List.drop_append_of_le_length shorter, List.drop_drop]
      simp only [List.length_drop, List.length_append, List.length_singleton]
      congr 1
      omega
    · rw [readers_snoc]
      exact logged.readers
    · exact logged.issued_snoc (Nat.le_refl _) nofun
    · exact fun f hf => (logged.kept f hf).publish a some
    · exact fun j => logged.ordered_of_none rfl

theorem drop (logged : Logged N es h) (there : (h.place? j).isSome) :
    Logged N (es ++ [.dropped j]) (h.unsubscribe j) where
  sound := logged.sound.unsubscribe j
  size := logged.size
  isOpen := logged.isOpen_snoc rfl nofun
  published := logged.published_snoc rfl
  held := logged.held_snoc rfl
  readers := by
    rw [readers_snoc, logged.readers]
    exact List.filter_map
  issued := logged.issued_snoc (Nat.le_refl _) fun i hi => by
    obtain rfl := Option.some.inj hi
    exact logged.issued_of_there there
  kept f hf := by
    obtain ⟨hf, other⟩ := List.mem_filter.1 hf
    refine (logged.kept f hf).skip (fun same => ?_) rfl
    simp [Option.some.inj same] at other
  ordered i := logged.ordered_of_none rfl

theorem close (logged : Logged N es h) : Logged N (es ++ [.closed]) h.close where
  sound := logged.sound.close
  size := logged.size
  isOpen := ⟨nofun, fun open' => absurd (List.mem_append_right es List.mem_cons_self) open'⟩
  published := logged.published_snoc rfl
  held := logged.held_snoc rfl
  readers := by
    rw [readers_snoc]
    exact logged.readers
  issued := logged.issued_snoc (Nat.le_refl _) nofun
  kept f hf := (logged.kept f hf).skip nofun rfl
  ordered j := logged.ordered_of_none rfl

theorem move (logged : Logged N es h) (there : (h.place? j).isSome) {position : Nat}
    (about : e.reader? = some j) (none : e.item? = none)
    (still : Hub.readers (es ++ [e]) = Hub.readers es)
    (stride : position = h.cursor j + Hub.stride j e) (behind : position ≤ h.published)
    (ordered : (delivered j (es ++ [e])).Sublist
      ((since j (es ++ [e])).take (reached j (es ++ [e])))) :
    Logged N (es ++ [e]) (h.moveTo j position) := by
  refine ⟨logged.sound.moveTo behind j, logged.size,
    logged.isOpen_snoc rfl (fun closed => ?_), logged.published_snoc none, logged.held_snoc none,
    ?_, ?_, ?_, ?_⟩
  · rw [← closed] at about
    exact absurd about nofun
  · rw [still, logged.readers, ids_moveTo]
  · refine logged.issued_snoc (Nat.le_refl _) fun i hi => ?_
    obtain rfl := Option.some.inj (about.symm.trans hi)
    exact logged.issued_of_there there
  · refine List.forall_mem_map.2 fun f hf => ?_
    split
    · next same =>
      refine (logged.kept f hf).move none ?_
      rw [same, stride, cursor_of_place? ((place?_eq_some_iff logged.sound.distinct).2 ⟨hf, same⟩)]
    · next other =>
      exact (logged.kept f hf).skip
        (fun same => other (Option.some.inj (same.symm.trans about))) none
  · intro i
    by_cases same : i = j
    · rw [same]
      exact ordered
    · refine logged.ordered_of_none (delivered?_of_ne fun known => same ?_)
      exact Option.some.inj (known.symm.trans about)

theorem lag (logged : Logged N es h) (there : (h.place? j).isSome) (behind : h.missed j ≠ 0) :
    Logged N (es ++ [.lagged j (h.missed j)]) (h.moveTo j h.dropped) := by
  refine logged.move there rfl rfl (readers_snoc es _) ?_ (Nat.sub_le _ _)
    (logged.ordered_of_none rfl)
  rw [stride_lagged]
  unfold Hub.missed at behind ⊢
  omega

theorem waiting_of_level (logged : Logged N es h) (there : (h.place? j).isSome)
    (level : h.missed j = 0) : h.waiting j = (since j es).drop (reached j es) := by
  rw [logged.missed there] at level
  rw [logged.waiting there, Nat.max_eq_left (by omega)]

theorem next_fst (logged : Logged N es h) (there : (h.place? j).isSome) :
    (h.next j).1 = match (since j es)[reached j es + h.missed j]? with
      | some a => .item a
      | none => if h.isOpen then .waiting else .ended := by
  have first : max (reached j es) ((since j es).length - N) = reached j es + h.missed j := by
    rw [logged.missed there]
    omega
  rw [next_eq, logged.waiting there, first, List.head?_drop]
  cases (since j es)[reached j es + h.missed j]? <;> rfl

theorem next_fst_of_level (logged : Logged N es h) (there : (h.place? j).isSome)
    (level : h.missed j = 0) :
    (h.next j).1 = match (since j es)[reached j es]? with
      | some a => .item a
      | none => if h.isOpen then .waiting else .ended := by
  rw [logged.next_fst there, level, Nat.add_zero]

theorem read (logged : Logged N es h) (there : (h.place? j).isSome) (level : h.missed j = 0) :
    Logged N (es ++ [.read j (h.next j).1]) (h.next j).2 := by
  have here : max (h.cursor j) h.dropped = h.cursor j :=
    Nat.max_eq_left (missed_eq_zero_iff.1 level)
  have waiting := logged.waiting_of_level there level
  have total := logged.backlog there
  have cursor := logged.sound.cursor_le j
  rw [next_eq, here]
  cases first : (h.waiting j).head? with
  | none =>
    dsimp only
    refine logged.move there rfl rfl (readers_snoc es _) (by rw [stride_idle]; rfl) cursor
      (logged.ordered_of_none (by split <;> rfl))
  | some a =>
    have got : (since j es)[reached j es]? = some a := by
      rw [← List.head?_drop, ← waiting, first]
    have more : reached j es < (since j es).length := (List.getElem?_eq_some_iff.1 got).1
    unfold Hub.backlog at total
    refine logged.move there rfl rfl (readers_snoc es _) (by rw [stride_given]) (by omega) ?_
    rw [delivered_snoc, since_snoc_of_item?_none rfl, reached_snoc, stride_given,
      List.take_add_one, got]
    simpa [HubEvent.delivered?] using logged.ordered j

theorem step (logged : Logged N es h) {e : HubEvent α} (w : Writes h e h') :
    Logged N (es ++ [e]) h' := by
  cases w with
  | subscribed => exact logged.subscribe
  | published a => exact logged.publish a
  | lagged there behind => exact logged.lag there behind
  | read there level => exact logged.read there level
  | dropped there => exact logged.drop there
  | closed => exact logged.close

theorem writing (logged : Logged N es h) {fs : List (HubEvent α)} (w : Writing h fs h') :
    Logged N (es ++ fs) h' := by
  induction w generalizing es with
  | nil => rwa [List.append_nil]
  | cons first _ ih =>
    rw [← List.singleton_append, ← List.append_assoc]
    exact ih (logged.step first)

theorem run (capacity : Nat) (cs : List (HubCommand α)) :
    Logged (powerOfTwoFrom (max capacity 1)) ((Hub.new capacity).run cs).1
      ((Hub.new capacity).run cs).2 :=
  (logged_new capacity).writing (writing_run _ cs)

end Logged

end Hub

end ServiceImport

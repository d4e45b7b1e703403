import ServiceImport.Text.Quoted

/-! # Hubs

A hub hands every item to each of its feeds. It holds the last few items; a feed that falls
behind them goes on with the oldest one held, and hears how many it missed.
-/

namespace ServiceImport

/-- The smallest power of two that is not below a number. -/
def powerOfTwoFrom (n : Nat) : Nat :=
  if n ≤ 1 then 1 else 2 * powerOfTwoFrom ((n + 1) / 2)
termination_by n

theorem le_powerOfTwoFrom (n : Nat) : n ≤ powerOfTwoFrom n := by
  fun_induction powerOfTwoFrom n with
  | case1 n h => exact h
  | case2 n h ih => omega

/-- Half of it is too small: no smaller power of two would do. -/
theorem powerOfTwoFrom_add_two_le {n : Nat} (h : 1 < n) : powerOfTwoFrom n + 2 ≤ 2 * n := by
  fun_induction powerOfTwoFrom n with
  | case1 n h => omega
  | case2 n h ih =>
    by_cases hn : n = 2
    · subst hn; simp [powerOfTwoFrom]
    · have := ih (by omega); omega

theorem powerOfTwoFrom_isPowerOfTwo (n : Nat) : (powerOfTwoFrom n).isPowerOfTwo := by
  fun_induction powerOfTwoFrom n with
  | case1 n h => exact ⟨0, rfl⟩
  | case2 n h ih =>
    obtain ⟨k, hk⟩ := ih
    exact ⟨k + 1, by rw [hk, Nat.pow_succ, Nat.mul_comm]⟩

/-- One reader of a hub: how many items were published before the next one it reads. -/
structure HubFeed where
  id : Nat
  cursor : Nat
  deriving DecidableEq

structure Hub (α : Type) where
  /-- How many items it holds. -/
  size : Nat
  /-- How many items it has taken. -/
  published : Nat := 0
  /-- The last of them, the oldest first. -/
  held : List α := []
  feeds : List HubFeed := []
  nextFeed : Nat := 0
  isOpen : Bool := true

inductive Delivery (α : Type) where
  | item (a : α)
  | waiting
  | ended

namespace Hub

variable {α : Type}

def new (capacity : Nat) : Hub α := { size := powerOfTwoFrom (max capacity 1) }

def feedCount (h : Hub α) : Nat := h.feeds.length

/-- How many items are held no more. -/
def dropped (h : Hub α) : Nat := h.published - h.held.length

def subscribe (h : Hub α) : Nat × Hub α :=
  (h.nextFeed,
   { h with feeds := h.feeds ++ [⟨h.nextFeed, h.published⟩], nextFeed := h.nextFeed + 1 })

def unsubscribe (h : Hub α) (id : Nat) : Hub α := { h with feeds := h.feeds.filter (·.id != id) }

/-- Takes an item for the feeds there are, and tells how many; without feeds it takes none. -/
def publish (h : Hub α) (a : α) : Nat × Hub α :=
  if h.feeds.isEmpty then (0, h)
  else
    let held := h.held ++ [a]
    (h.feedCount,
     { h with published := h.published + 1, held := held.drop (held.length - h.size) })

def close (h : Hub α) : Hub α := { h with isOpen := false }

/-- Where a feed stands; one that is not there reads nothing. -/
def cursor (h : Hub α) (id : Nat) : Nat :=
  ((h.feeds.find? (·.id == id)).map (·.cursor)).getD h.published

/-- How many items a feed has yet to read or to miss. -/
def backlog (h : Hub α) (id : Nat) : Nat := h.published - h.cursor id

/-- How many items a feed has missed. -/
def missed (h : Hub α) (id : Nat) : Nat := h.dropped - h.cursor id

/-- The hub with a feed that goes on somewhere else. -/
def moveTo (h : Hub α) (id position : Nat) : Hub α :=
  { h with feeds := h.feeds.map fun f => if f.id = id then { f with cursor := position } else f }

/-- What a feed reads next, after what it missed. -/
def next (h : Hub α) (id : Nat) : Delivery α × Hub α :=
  let position := max (h.cursor id) h.dropped
  match h.held[position - h.dropped]? with
  | some a => (.item a, h.moveTo id (position + 1))
  | none => (if h.isOpen then .waiting else .ended, h.moveTo id position)

/-- What a feed has yet to read of the items held. -/
def waiting (h : Hub α) (id : Nat) : List α := h.held.drop (h.cursor id - h.dropped)

def describe (h : Hub α) : String :=
  Text.braced "NotificationHub" [("subscribers", toString h.feedCount)] false

end Hub

end ServiceImport

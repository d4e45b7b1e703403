import Mathlib.Order.Bounds.Basic
import ServiceImport.Proofs.Hub.Record

/-! # What readers of a hub get

A reader gets to each item in turn. It misses the item if so many were published after it by then
that the hub holds it no more, and is given it otherwise. Nothing is lost from its account, and what
is done for other readers makes no difference to it.
-/

namespace ServiceImport

/-- Whether a command is about a reader: its own, or one about the hub. -/
def HubCommand.concerns {α : Type} (j : Nat) : HubCommand α → Bool
  | .subscribe => false
  | .publish _ | .close => true
  | .next i | .drop i => i == j

namespace HubEvent

variable {α : Type}

/-- Whether a reader hears something: an item or that there is none, or how many it missed. -/
def tells (j : Nat) : HubEvent α → Bool
  | .lagged i _ | .read i _ => i == j
  | _ => false

def delivery? (j : Nat) : HubEvent α → Option (Delivery α)
  | .read i d => if i = j then some d else none
  | _ => none

end HubEvent

namespace Hub

variable {α : Type} {h h' : Hub α} {i j N : Nat} {es : List (HubEvent α)}

/-! ## What is promised -/

/-- What a reader was answered, one time after another. -/
def answers (j : Nat) (es : List (HubEvent α)) : List (Delivery α) :=
  es.filterMap (HubEvent.delivery? j)

/-- What a reader hears. -/
def heard (j : Nat) (es : List (HubEvent α)) : List (HubEvent α) := es.filter (·.tells j)

/-- The record of a run for readers of a hub that holds so many items. -/
structure Accounts (N : Nat) (es : List (HubEvent α)) : Prop where
  /-- A reader is given items in the order in which they were published, each at most once, and none
  from before it came. -/
  ordered : ∀ j, (delivered j es).Sublist (since j es)
  /-- There is a moment at which a reader got to an item. It missed the item if by then at least so
  many were published after it as the hub holds, and was given it if there were fewer. -/
  fate : ∀ j k, k < reached j es → ∃ before e after, es = before ++ e :: after ∧
    reached j before ≤ k ∧ k < reached j (before ++ [e]) ∧
    ((∃ n, e = .lagged j n) ↔ N ≤ ((since j before).drop (k + 1)).length) ∧
    ∀ a, e = .read j (.item a) ↔
      ((since j before).drop (k + 1)).length < N ∧ (since j before)[k]? = some a
  /-- A reader that was given nothing had got to everything. -/
  caughtUp : ∀ j before d after, es = before ++ .read j d :: after → (∀ a, d ≠ .item a) →
    reached j before = (since j before).length
  /-- Whoever publishes is told how many readers there are. -/
  counted : ∀ before a n after, es = before ++ .published a n :: after → n = (readers before).length

/-- Every item since a reader came was given to it, or it was told that it missed it, or it has yet
to get to it. -/
def Balanced (es : List (HubEvent α)) (h : Hub α) : Prop :=
  ∀ j ∈ readers es,
    (delivered j es).length + (missedBy j es).sum + h.backlog j = (since j es).length

/-- A reader hears the same whatever is done for others. -/
def Apart (es : List (HubEvent α)) (h : Hub α) : Prop :=
  ∀ j ∈ readers es, ∀ ds ds' : List (HubCommand α),
    ds.filter (·.concerns j) = ds'.filter (·.concerns j) →
      heard j (h.run ds).1 = heard j (h.run ds').1

/-- Once the hub is closed a reader is given what is held for it, and then told that there is no
more. -/
def Winds (N : Nat) (es : List (HubEvent α)) (h : Hub α) : Prop :=
  h.isOpen = false → ∀ j ∈ readers es, ∀ n,
    answers j (h.run (List.replicate n (.next j))).1 =
      (((since j es).drop (max (reached j es) ((since j es).length - N))).map Delivery.item ++
        List.replicate n Delivery.ended).take n

/-- What commands write, told from the record. A hub is open until it is closed; until then it
takes readers, with numbers that no reader had before, and items. -/
structure Enters (N : Nat) (es : List (HubEvent α)) (h : Hub α) : Prop where
  isOpen : h.isOpen = true ↔ HubEvent.closed ∉ es
  subscribe : h.isOpen = true →
    ∃ j, (∀ e ∈ es, e.reader? ≠ some j) ∧ (h.perform .subscribe).1 = [.subscribed j]
  publish : h.isOpen = true →
    ∀ a, (h.perform (.publish a)).1 = [.published a (readers es).length]
  /-- A reader is told what it missed, if anything, and goes on behind it. -/
  next : ∀ j ∈ readers es, ∀ n, n = (since j es).length - N - reached j es →
    (h.perform (.next j)).1 =
      (if n = 0 then [] else [.lagged j n]) ++
        [.read j (match (since j es)[reached j es + n]? with
          | some a => .item a
          | none => if h.isOpen then .waiting else .ended)]
  drop : ∀ j ∈ readers es, (h.perform (.drop j)).1 = [.dropped j]
  close : h.isOpen = true → (h.perform .close).1 = [.closed]
  closed : (h.perform .close).2.isOpen = false

namespace Logged

/-! ## The accounts -/

/-- When a reader gets to an item, it misses it if and only if at least so many came after it as the
hub holds. -/
theorem fate (logged : Logged N es h) {e : HubEvent α} (w : Writes h e h') {k : Nat}
    (low : reached j es ≤ k) (high : k < reached j es + stride j e) :
    ((∃ n, e = .lagged j n) ↔ N ≤ ((since j es).drop (k + 1)).length) ∧
      ∀ a, e = .read j (.item a) ↔
        ((since j es).drop (k + 1)).length < N ∧ (since j es)[k]? = some a := by
  have about : e.reader? = some j := by
    by_contra other
    rw [stride_of_ne other] at high
    omega
  rw [List.length_drop]
  cases w with
  | subscribed | dropped => exact absurd high (Nat.not_lt_of_le low)
  | published | closed => exact absurd about nofun
  | @lagged i there behind =>
    obtain rfl : i = j := Option.some.inj about
    have far : N ≤ (since i es).length - (k + 1) := by
      have missed := logged.missed there
      rw [stride_lagged] at high
      omega
    exact ⟨⟨fun _ => far, fun _ => ⟨_, rfl⟩⟩, fun a => ⟨nofun, fun ⟨near, _⟩ => by omega⟩⟩
  | @read i there level =>
    obtain rfl : i = j := Option.some.inj about
    have next := logged.next_fst_of_level there level
    rw [logged.missed there] at level
    cases got : (since i es)[reached i es]? with
    | none =>
      rw [got] at next
      rw [next, stride_idle] at high
      omega
    | some a =>
      rw [got] at next
      have more := (List.getElem?_eq_some_iff.1 got).1
      rw [next, stride_given] at high
      obtain rfl : k = reached i es := by omega
      have near : (since i es).length - (reached i es + 1) < N := by omega
      refine ⟨⟨nofun, fun far => by omega⟩, fun b => ?_⟩
      rw [next, got]
      simp [near]

theorem caughtUp (logged : Logged N es h) {d : Delivery α} (w : Writes h (.read j d) h')
    (nothing : ∀ a, d ≠ .item a) : reached j es = (since j es).length := by
  cases w with
  | read there level =>
    have total := logged.backlog there
    have next := logged.next_fst_of_level there level
    cases got : (since j es)[reached j es]? with
    | none =>
      have := List.getElem?_eq_none_iff.1 got
      omega
    | some a =>
      rw [got] at next
      exact absurd next (nothing a)

theorem counted (logged : Logged N es h) {a : α} {n : Nat} (w : Writes h (.published a n) h') :
    n = (Hub.readers es).length := by
  cases w with
  | published =>
    rw [logged.readers, List.length_map]
    by_cases none : h.feeds = []
    · rw [publish_of_isEmpty none, none]
      rfl
    · rw [publish_of_ne_nil none]
      rfl

/-- The moment at which an entry was written. -/
theorem exists_writes (logged : Logged N [] h) {before after : List (HubEvent α)} {e : HubEvent α}
    (w : Writing h (before ++ e :: after) h') : ∃ t t', Logged N before t ∧ Writes t e t' := by
  obtain ⟨t, first, rest⟩ := writing_append_iff.1 w
  cases rest with
  | cons now _ => exact ⟨t, _, logged.writing first, now⟩

end Logged

theorem accounts (logged : Logged N [] h) (w : Writing h es h') : Accounts N es where
  ordered j := by
    have full := (logged.writing w).ordered j
    rw [List.nil_append] at full
    exact full.trans (List.take_sublist _ _)
  fate j k got := by
    obtain ⟨before, e, after, rfl, low, high⟩ := exists_moment got
    obtain ⟨t, t', there, now⟩ := logged.exists_writes w
    have fate := there.fate now low (by rwa [← reached_snoc])
    exact ⟨before, e, after, rfl, low, high, fate⟩
  caughtUp j before d after split nothing := by
    obtain ⟨t, t', there, now⟩ := logged.exists_writes (split ▸ w)
    exact there.caughtUp now nothing
  counted before a n after split := by
    obtain ⟨t, t', there, now⟩ := logged.exists_writes (split ▸ w)
    exact there.counted now

namespace Logged

theorem there_of_mem (logged : Logged N es h) (hj : j ∈ Hub.readers es) :
    (h.place? j).isSome := by
  rw [logged.readers] at hj
  exact isSome_place?.2 hj

theorem balanced (logged : Logged N es h) : Balanced es h :=
  fun _ hj => logged.backlog (logged.there_of_mem hj)

/-! ## What commands write -/

theorem publish_fst (logged : Logged N es h) (a : α) :
    (h.publish a).1 = (Hub.readers es).length :=
  logged.counted (.published h a)

theorem enters (logged : Logged N es h) : Enters N es h where
  isOpen := logged.isOpen
  subscribe isOpen := by
    refine ⟨h.nextFeed, fun e he known => ?_, ?_⟩
    · exact Nat.lt_irrefl _ (logged.issued e he _ known)
    · rw [perform, if_pos isOpen]
      rfl
  publish isOpen a := by
    rw [perform, if_pos isOpen, logged.publish_fst]
  next j hj n missed := by
    have there := logged.there_of_mem hj
    rw [← logged.missed there] at missed
    rw [perform, if_pos there, missed]
    exact congrArg (_ ++ [HubEvent.read j ·]) (logged.next_fst there)
  drop j hj := by
    rw [perform, if_pos (logged.there_of_mem hj)]
  close isOpen := by
    rw [perform, if_pos isOpen]
  closed := by
    dsimp only [perform]
    split
    · rfl
    · next isClosed => exact Bool.eq_false_iff.2 isClosed

end Logged

/-! ## Readers apart -/

/-- Two hubs that one reader cannot tell apart. -/
structure Akin (j : Nat) (h h' : Hub α) : Prop where
  size : h.size = h'.size
  isOpen : h.isOpen = h'.isOpen
  place : h.place? j = h'.place? j
  items : (h.place? j).isSome → h.published = h'.published ∧ h.held = h'.held
  issued : j < h.nextFeed ∧ j < h'.nextFeed

namespace Akin

theorem refl (issued : j < h.nextFeed) : Akin j h h :=
  ⟨rfl, rfl, rfl, fun _ => ⟨rfl, rfl⟩, issued, issued⟩

theorem cursor (akin : Akin j h h') (there : (h.place? j).isSome) : h.cursor j = h'.cursor j := by
  rw [cursor_eq_place?, cursor_eq_place?, akin.place, (akin.items there).1]

theorem dropped (akin : Akin j h h') (there : (h.place? j).isSome) : h.dropped = h'.dropped := by
  obtain ⟨published, held⟩ := akin.items there
  unfold Hub.dropped
  rw [published, held]

theorem moveTo (akin : Akin j h h') (position : Nat) :
    Akin j (h.moveTo j position) (h'.moveTo j position) where
  size := akin.size
  isOpen := akin.isOpen
  place := by rw [place?_moveTo, place?_moveTo, akin.place]
  items there := by
    rw [place?_moveTo, Option.isSome_map] at there
    exact akin.items there
  issued := akin.issued

theorem next (akin : Akin j h h') (there : (h.place? j).isSome) :
    (h.next j).1 = (h'.next j).1 ∧ Akin j (h.next j).2 (h'.next j).2 := by
  have waiting : h.waiting j = h'.waiting j := by
    unfold Hub.waiting
    rw [akin.cursor there, akin.dropped there, (akin.items there).2]
  rw [next_eq, next_eq, waiting, akin.cursor there, akin.dropped there, akin.isOpen]
  cases (h'.waiting j).head? with
  | none => exact ⟨rfl, akin.moveTo _⟩
  | some a => exact ⟨rfl, akin.moveTo _⟩

theorem publish (akin : Akin j h h') (a : α) : Akin j (h.publish a).2 (h'.publish a).2 := by
  have size (h : Hub α) : (h.publish a).2.size = h.size := by unfold Hub.publish; split <;> rfl
  have isOpen (h : Hub α) : (h.publish a).2.isOpen = h.isOpen := by
    unfold Hub.publish; split <;> rfl
  have issued (h : Hub α) : (h.publish a).2.nextFeed = h.nextFeed := by
    unfold Hub.publish; split <;> rfl
  refine ⟨by rw [size, size, akin.size], by rw [isOpen, isOpen, akin.isOpen],
    by rw [place?_publish, place?_publish, akin.place], fun there => ?_,
    by rw [issued, issued]; exact akin.issued⟩
  rw [place?_publish] at there
  obtain ⟨published, held⟩ := akin.items there
  have some (h : Hub α) (there : (h.place? j).isSome) : h.feeds ≠ [] := by
    rintro none
    rw [isSome_place?, none] at there
    exact absurd there List.not_mem_nil
  rw [publish_of_ne_nil (some h there), publish_of_ne_nil (some h' (akin.place ▸ there))]
  dsimp only
  rw [published, held, akin.size]
  exact ⟨rfl, rfl⟩

theorem perform_of_not_concerns (akin : Akin j h h') {c : HubCommand α}
    (other : c.concerns j = false) :
    heard j (h.perform c).1 = [] ∧ Akin j (h.perform c).2 h' := by
  cases c with
  | publish | close => exact absurd other nofun
  | subscribe =>
    dsimp only [perform]
    split
    · have same : h.subscribe.2.place? j = h.place? j := place?_subscribe_of_lt akin.issued.1
      exact ⟨rfl, akin.size, akin.isOpen, same.trans akin.place,
        fun there => akin.items (same ▸ there),
        Nat.lt_succ_of_lt akin.issued.1, akin.issued.2⟩
    · exact ⟨rfl, akin⟩
  | next i =>
    have ne : i ≠ j := by simpa [HubCommand.concerns] using other
    have still (position : Nat) : Akin j (h.moveTo i position) h' := by
      have same := place?_moveTo_of_ne h position ne.symm
      exact ⟨akin.size, akin.isOpen, same.trans akin.place, fun there => akin.items (same ▸ there),
        akin.issued⟩
    dsimp only [perform]
    split
    · refine ⟨?_, ?_⟩
      · by_cases level : h.missed i = 0
        · simp [heard, level, HubEvent.tells, ne]
        · simp [heard, level, HubEvent.tells, ne]
      · rw [next_eq]
        cases (h.waiting i).head? with
        | none => exact still _
        | some a => exact still _
    · exact ⟨rfl, akin⟩
  | drop i =>
    have ne : i ≠ j := by simpa [HubCommand.concerns] using other
    have same := place?_unsubscribe_of_ne h ne.symm
    dsimp only [perform]
    split
    · exact ⟨rfl, akin.size, akin.isOpen, same.trans akin.place,
        fun there => akin.items (same ▸ there), akin.issued⟩
    · exact ⟨rfl, akin⟩

theorem perform_of_concerns (akin : Akin j h h') {c : HubCommand α} (own : c.concerns j = true) :
    heard j (h.perform c).1 = heard j (h'.perform c).1 ∧
      Akin j (h.perform c).2 (h'.perform c).2 := by
  cases c with
  | subscribe => exact absurd own nofun
  | publish a =>
    dsimp only [perform]
    rw [akin.isOpen]
    split
    · exact ⟨rfl, akin.publish a⟩
    · exact ⟨rfl, akin⟩
  | close =>
    dsimp only [perform]
    rw [akin.isOpen]
    split
    · exact ⟨rfl, akin.size, rfl, akin.place, akin.items, akin.issued⟩
    · exact ⟨rfl, akin⟩
  | next i =>
    obtain rfl : i = j := by simpa [HubCommand.concerns] using own
    dsimp only [perform]
    rw [← akin.place]
    split
    · next there =>
      obtain ⟨delivery, after⟩ := akin.next there
      have missed : h.missed i = h'.missed i := by
        unfold Hub.missed
        rw [akin.cursor there, akin.dropped there]
      rw [delivery, missed]
      exact ⟨rfl, after⟩
    · exact ⟨rfl, akin⟩
  | drop i =>
    obtain rfl : i = j := by simpa [HubCommand.concerns] using own
    dsimp only [perform]
    rw [← akin.place]
    split
    · refine ⟨rfl, akin.size, akin.isOpen, ?_, fun there => ?_, akin.issued⟩
      · rw [place?_unsubscribe_self, place?_unsubscribe_self]
      · rw [place?_unsubscribe_self] at there
        exact absurd there nofun
    · exact ⟨rfl, akin⟩

/-- What a reader hears of a run is what it hears if only what concerns it is done. -/
theorem run (akin : Akin j h h') (cs : List (HubCommand α)) :
    heard j (h.run cs).1 = heard j (h'.run (cs.filter (·.concerns j))).1 := by
  -- On the right the commands for others are left out, so only the hub on the left moves there.
  induction cs generalizing h h' with
  | nil => rfl
  | cons c cs ih =>
    cases own : c.concerns j with
    | false =>
      obtain ⟨none, after⟩ := akin.perform_of_not_concerns own
      rw [List.filter_cons_of_neg (by simp [own]), ← ih after]
      unfold heard at none ⊢
      rw [Hub.run, List.filter_append, none, List.nil_append]
    | true =>
      obtain ⟨same, after⟩ := akin.perform_of_concerns own
      have rest := ih after
      rw [List.filter_cons_of_pos own]
      unfold heard at same rest ⊢
      rw [Hub.run, Hub.run, List.filter_append, List.filter_append, same, rest]

end Akin

theorem Logged.apart (logged : Logged N es h) : Apart es h := by
  intro j hj ds ds' same
  have akin : Akin j h h := .refl (logged.issued_of_there (logged.there_of_mem hj))
  rw [akin.run ds, akin.run ds', same]

/-! ## The end -/

theorem waiting_next (there : (h.place? j).isSome) :
    (h.next j).2.waiting j = (h.waiting j).tail := by
  have moved (position : Nat) :
      (h.moveTo j position).waiting j = h.held.drop (position - h.dropped) := by
    unfold waiting
    rw [cursor_moveTo_self there]
    rfl
  rw [next_eq]
  cases first : (h.waiting j).head? with
  | none =>
    have none := List.head?_eq_none_iff.1 first
    have here : max (h.cursor j) h.dropped - h.dropped = h.cursor j - h.dropped := by omega
    dsimp only
    rw [none, moved, here]
    exact none
  | some a =>
    have here : max (h.cursor j) h.dropped + 1 - h.dropped = h.cursor j - h.dropped + 1 := by omega
    dsimp only
    rw [moved, here]
    unfold waiting
    rw [List.tail_drop]

theorem answers_of_closed (closed : h.isOpen = false) (there : (h.place? j).isSome) (n : Nat) :
    answers j (h.run (List.replicate n (.next j))).1 =
      ((h.waiting j).map Delivery.item ++ List.replicate n Delivery.ended).take n := by
  induction n generalizing h with
  | zero => rfl
  | succ n ih =>
    have one : answers j (h.perform (.next j)).1 = [(h.next j).1] := by
      dsimp only [perform]
      rw [if_pos there]
      by_cases level : h.missed j = 0
      · simp [answers, level, HubEvent.delivery?]
      · rw [if_neg level, answers, List.singleton_append, List.filterMap_cons_none rfl]
        simp [HubEvent.delivery?]
    have after : (h.perform (.next j)).2 = (h.next j).2 := by
      dsimp only [perform]
      rw [if_pos there]
    have rest : (h.next j).2.isOpen = false ∧ ((h.next j).2.place? j).isSome := by
      rw [next_eq]
      cases (h.waiting j).head? with
      | none => exact ⟨closed, by rw [place?_moveTo, Option.isSome_map]; exact there⟩
      | some a => exact ⟨closed, by rw [place?_moveTo, Option.isSome_map]; exact there⟩
    have run : answers j (h.run (List.replicate (n + 1) (.next j))).1 =
        (h.next j).1 :: answers j ((h.next j).2.run (List.replicate n (.next j))).1 := by
      rw [List.replicate_succ, Hub.run, answers, List.filterMap_append, ← answers, one, after]
      rfl
    rw [run, ih rest.1 rest.2, waiting_next there, next_eq]
    cases h.waiting j with
    | nil =>
      dsimp only [List.head?_nil]
      rw [if_neg (by simp [closed])]
      rfl
    | cons a as =>
      have shorter : n ≤ (as.map Delivery.item ++ List.replicate n Delivery.ended).length := by simp
      rw [List.replicate_succ', ← List.append_assoc, List.map_cons, List.cons_append,
        List.cons_append, List.take_succ_cons, List.take_append_of_le_length shorter]
      rfl

theorem Logged.winds (logged : Logged N es h) : Winds N es h := by
  intro closed j hj n
  have there := logged.there_of_mem hj
  rw [answers_of_closed closed there, logged.waiting there]

theorem powerOfTwoFrom_le {n m : Nat} (power : n.isPowerOfTwo) (large : m ≤ n) :
    powerOfTwoFrom m ≤ n := by
  obtain ⟨k, rfl⟩ := power
  obtain ⟨l, hl⟩ := powerOfTwoFrom_isPowerOfTwo m
  by_cases small : m ≤ 1
  · rw [powerOfTwoFrom, if_pos small]
    exact Nat.one_le_two_pow
  · have half := powerOfTwoFrom_add_two_le (Nat.lt_of_not_le small)
    have below : 2 ^ l < 2 ^ (k + 1) := by
      rw [← hl, Nat.pow_succ]
      omega
    rw [hl]
    exact Nat.pow_le_pow_right (by decide)
      (Nat.le_of_lt_succ ((Nat.pow_lt_pow_iff_right (by decide)).1 below))

/-- A hub holds the least power of two that is not below its capacity, or one. On every run whoever
reads gets what is promised, and every command that can be carried out leaves its entry. -/
theorem run_accounts (capacity : Nat) :
    ∃ N, IsLeast {n : Nat | n.isPowerOfTwo ∧ max capacity 1 ≤ n} N ∧
      ∀ cs : List (HubCommand α),
        Accounts N ((Hub.new capacity).run cs).1 ∧
        Balanced ((Hub.new capacity).run cs).1 ((Hub.new capacity).run cs).2 ∧
        Apart ((Hub.new capacity).run cs).1 ((Hub.new capacity).run cs).2 ∧
        Winds N ((Hub.new capacity).run cs).1 ((Hub.new capacity).run cs).2 ∧
        Enters N ((Hub.new capacity).run cs).1 ((Hub.new capacity).run cs).2 := by
  refine ⟨powerOfTwoFrom (max capacity 1),
    ⟨⟨powerOfTwoFrom_isPowerOfTwo _, le_powerOfTwoFrom _⟩, ?_⟩,
    fun cs => ?_⟩
  · exact fun n ⟨power, large⟩ => powerOfTwoFrom_le power large
  · have logged : Logged _ _ _ := Logged.run capacity cs
    exact ⟨accounts (logged_new capacity) (writing_run _ cs), logged.balanced, logged.apart,
      logged.winds, logged.enters⟩

/-- A reader that is one item too late. -/
example :
    let es := (({ size := 2 } : Hub Nat).run
      [.subscribe, .publish 1, .publish 2, .publish 3, .next 0, .next 0]).1
    missedBy 0 es = [1] ∧ delivered 0 es = [2, 3] := by
  decide

end Hub

end ServiceImport

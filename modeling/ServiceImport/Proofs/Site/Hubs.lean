import ServiceImport.Proofs.Hub.Readers
import ServiceImport.Proofs.Site.Blindness
import ServiceImport.Proofs.Site.Turns

/-! # Hubs of a site

News go to the latest hub if it is open. At every moment the readers of each hub are at places that
it can serve.
-/

namespace ServiceImport.Site

variable {s t u : Site} {allowed : Command → Prop} {r : Resolution}

/-! ## The latest hub -/

theorem openHub?_eq_some_iff {i : Nat} {h : Hub Notification} :
    s.openHub? = some (i, h) ↔
      s.hubs.getLast? = some h ∧ h.isOpen = true ∧ i = s.hubs.length - 1 := by
  unfold openHub?
  cases s.hubs.getLast? with
  | none => simp
  | some k =>
    dsimp only
    split
    · next opened =>
      simp only [Option.some.injEq, Prod.mk.injEq]
      constructor
      · rintro ⟨rfl, rfl⟩
        exact ⟨rfl, opened, rfl⟩
      · rintro ⟨rfl, -, rfl⟩
        exact ⟨rfl, rfl⟩
    · next shut =>
      refine ⟨nofun, ?_⟩
      rintro ⟨same, opened, -⟩
      rw [Option.some.inj same] at shut
      exact absurd opened shut

theorem getElem?_of_openHub? {i : Nat} {h : Hub Notification} (latest : s.openHub? = some (i, h)) :
    s.hubs[i]? = some h := by
  obtain ⟨last, -, rfl⟩ := openHub?_eq_some_iff.1 latest
  rw [← List.getLast?_eq_getElem?]
  exact last

/-! ## Sound hubs -/

/-- All hubs are sound. -/
def SoundHubs (s : Site) : Prop := ∀ h ∈ s.hubs, h.Sound

namespace SoundHubs

theorem of_eq (sound : s.SoundHubs) (hubs : t.hubs = s.hubs) : t.SoundHubs := by
  unfold SoundHubs
  rw [hubs]
  exact sound

theorem set (sound : s.SoundHubs) {i : Nat} {h : Hub Notification} (kept : h.Sound)
    (hubs : t.hubs = s.hubs.set i h) : t.SoundHubs := by
  intro k hk
  rw [hubs] at hk
  rcases List.mem_or_eq_of_mem_set hk with there | rfl
  · exact sound k there
  · exact kept

theorem updateHub (sound : s.SoundHubs) {f : Hub Notification → Hub Notification} {i : Nat}
    (kept : ∀ h, s.hubs[i]? = some h → (f h).Sound) : (s.updateHub i f).SoundHubs := by
  intro k hk
  obtain ⟨j, hj⟩ := List.mem_iff_getElem?.1 hk
  unfold Site.updateHub at hj
  rw [List.getElem?_modify] at hj
  obtain ⟨h, hh, rfl⟩ := Option.map_eq_some_iff.1 hj
  split
  · next same => exact kept h (same ▸ hh)
  · exact sound h (List.mem_of_getElem? hh)

theorem ensureHub (sound : s.SoundHubs) : s.ensureHub.SoundHubs := by
  unfold Site.ensureHub
  split
  · exact sound
  · intro h hh
    rcases List.mem_append.1 hh with there | new
    · exact sound h there
    · rw [List.mem_singleton.1 new]
      exact Hub.sound_new _

theorem attach (sound : s.SoundHubs) : s.attach.SoundHubs := by
  unfold Site.attach
  dsimp only
  split
  · exact sound.ensureHub
  · next i h latest =>
    have there := List.mem_of_getElem? (getElem?_of_openHub? latest)
    exact sound.ensureHub.set (sound.ensureHub h there).subscribe rfl

theorem publish (sound : s.SoundHubs) (news : Notification) : (s.publish news).2.SoundHubs := by
  unfold Site.publish
  split
  · exact sound
  · next i h latest =>
    have there := List.mem_of_getElem? (getElem?_of_openHub? latest)
    have published := (sound h there).publish news
    dsimp only
    split
    · exact sound.set published rfl
    · rw [wakeFeeds_eq]
      exact sound.set published rfl

theorem closeHub (sound : s.SoundHubs) : s.closeHub.SoundHubs := by
  unfold Site.closeHub
  split
  · exact sound
  · next i h latest =>
    have there := List.mem_of_getElem? (getElem?_of_openHub? latest)
    rw [wakeFeeds_eq]
    exact sound.set (sound h there).close rfl

theorem perform (sound : s.SoundHubs) (c : Command) : (s.perform c).SoundHubs := by
  cases other : c.isAboutHubs with
  | false => exact sound.of_eq ((blind_perform other).hubs_eq s)
  | true =>
    cases c with
    | attach => exact sound.attach
    | publish news => exact sound.publish news
    | closeHub => exact sound.closeHub
    | _ => exact absurd other nofun

theorem unsubscribe (sound : s.SoundHubs) (i : Nat) (f : Feed) : (s.endFeed i f).SoundHubs :=
  (sound.updateHub (f := (·.unsubscribe f.reader)) fun h there =>
    (sound h (List.mem_of_getElem? there)).unsubscribe f.reader).of_eq rfl

end SoundHubs

theorem Change.soundHubs {m n : Moment} (change : Change allowed m n) (sound : m.site.SoundHubs) :
    n.site.SoundHubs := by
  cases change with
  | perform _ _ => exact sound.perform _
  | release => exact sound.of_eq (by rw [releaseLedger_eq])
  | @discard s r _ _ =>
    obtain ⟨f, -, heq⟩ := discard_eq r s
    exact sound.of_eq (by rw [heq])
  | @drop s r now _ _ =>
    obtain ⟨f, -, heq⟩ := discard_eq now s
    exact sound.of_eq (by rw [heq])
  | @complete s r outcome =>
    obtain ⟨f, report, -, heq⟩ := complete_eq r outcome s
    exact sound.of_eq (by rw [heq])
  | subscribe c there => exact sound.of_eq (by rw [subscribe_eq]; rfl)
  | @register s r c x reference registration hd store _ _ =>
    exact sound.of_eq
      (by rw [leavesJobs_recordRegistered r c x reference registration.properties hd store s])
  | unsubscribe => exact sound.of_eq (by rw [cancel_eq])
  | @read s i f h _ _ _ hub =>
    refine SoundHubs.updateHub (s := s) sound fun k there => ?_
    obtain rfl := Option.some.inj (hub.symm.trans there)
    exact (sound h (List.mem_of_getElem? hub)).moveTo (Nat.le_refl _) _
  | @notify s i news => exact sound.of_eq ((deaf_notify news).blind.hubs_eq s)
  | finish f => exact sound.unsubscribe _ f
  | abandon _ _ _ => exact sound.unsubscribe _ _
  | _ => exact sound.of_eq rfl

theorem Reachable.soundHubs (h : Reachable allowed s) : s.SoundHubs :=
  (h.invariant (I := fun m => m.site.SoundHubs)
    (fun built => by rw [SoundHubs, (build_eq built).1]; exact nofun)
    fun _ change sound => change.soundHubs sound).2

end ServiceImport.Site

import ServiceImport.Proofs.Site.Frames

/-! # What a resolution does to the jobs

A resolution that asks its candidates touches no job but through what happens within its
registrations. A relation between sites that spans these spans the whole of its turn.
-/

namespace ServiceImport.Site

/-- The site after what was set to happen within the next registration. -/
def interrupt (s : Site) : Site :=
  performAll (s.space.interruptions.headD [])
    { s with space := { s.space with interruptions := s.space.interruptions.tail } }

/-- A relation that spans what leaves the jobs alone, and interruptions. -/
structure Spans (R : Site → Site → Prop) : Prop where
  trans : ∀ {s t u : Site}, R s t → R t u → R s u
  leaves : ∀ {s t : Site}, LeavesJobs s t → R s t
  interrupt : ∀ s : Site, R s s.interrupt

namespace Spans

variable {R : Site → Site → Prop}

theorem log (h : Spans R) (e : Event) (s : Site) : R s (s.log e) := h.leaves (leavesJobs_log e s)

theorem refl (h : Spans R) (s : Site) : R s s := h.leaves (LeavesJobs.refl s)

theorem findContainers (h : Spans R) (e : Endpoint) (s : Site) : R s (s.findContainers e).2 := by
  have managed : R s (s.findManaged e).2 := by
    unfold findManaged findByNamespace
    split
    · split
      · exact h.refl s
      · split
        · exact h.log _ s
        · exact h.refl s
    · exact h.refl s
  unfold Site.findContainers
  split
  · exact h.log _ s
  · dsimp only
    split
    · exact h.trans managed (h.log _ _)
    · exact managed

theorem lookUp (h : Spans R) (e : Endpoint) (c : Candidate) (s : Site) : R s (s.lookUp e c).2 := by
  unfold Site.lookUp
  refine List.foldlRecOn e.interfaces (lookUpOne e c) (motive := fun acc => R s acc.2) ?_ ?_
  · exact h.refl s
  · intro acc known interface _
    unfold lookUpOne
    split
    · exact h.trans known (h.log _ _)
    · exact known
    · exact h.trans known (h.log _ _)

theorem register (h : Spans R) (r : Registration) (s : Site) : R s (s.register r).2 := by
  have interrupted : R s s.interrupt := h.interrupt s
  unfold Site.interrupt at interrupted
  unfold Site.register
  dsimp only
  split
  · exact h.trans interrupted (h.log _ _)
  · split
    · exact interrupted
    · refine h.trans interrupted (h.leaves ?_)
      rfl

theorem registerProxy (h : Spans R) (e : Endpoint) (c : Candidate) (reference : Reference)
    (s : Site) : R s (s.registerProxy e c reference).2 := by
  unfold Site.registerProxy
  cases s.prepareProxy e c reference with
  | error fault => exact h.refl s
  | ok registration =>
    have registered := h.trans (h.log (.proxied c reference) s) (h.register registration _)
    dsimp only
    split
    · next heq => exact heq ▸ registered
    · next hd t heq =>
      rw [heq] at registered
      refine h.trans registered (h.leaves ?_)
      dsimp only
      rw [noteImport_eq]
      rfl

theorem importOne (h : Spans R) (e : Endpoint) (c : Candidate) (i : Importing)
    (reference : Reference) : R i.site (Site.importOne e c i reference).site := by
  have registered := h.registerProxy e c reference i.site
  unfold Site.importOne
  split
  · exact h.log _ _
  · split
    · next heq =>
      rw [heq] at registered
      exact h.trans registered (h.log _ _)
    · next heq =>
      rw [heq] at registered
      refine h.trans registered (h.leaves ?_)
      exact leavesJobs_recordProxy e c reference _ { i with site := _ }

theorem importThrough (h : Spans R) (e : Endpoint) (c : Candidate) (tally : Tally) (s : Site) :
    R s (s.importThrough e c tally).2 := by
  have imported : ∀ (references : List Reference) (i : Importing),
      R i.site (references.foldl (Site.importOne e c) i).site := by
    intro references i
    refine List.foldlRecOn references (Site.importOne e c)
      (motive := fun j => R i.site j.site) (h.refl _) fun j known reference _ => ?_
    exact h.trans known (h.importOne e c j reference)
  unfold Site.importThrough
  dsimp only
  split
  · exact h.lookUp e c s
  · refine h.trans (h.lookUp e c s) ?_
    unfold importAll
    dsimp only
    rw [cancel_eq, subscribe_eq]
    refine h.trans (h.leaves ?_) (h.trans (imported _ _) (h.leaves rfl))
    rfl

theorem resolveThrough (h : Spans R) (e : Endpoint) (candidates : List Candidate) (tally : Tally)
    (s : Site) : R s (Site.resolveThrough e candidates tally s).2 := by
  induction candidates generalizing tally s with
  | nil => exact h.refl s
  | cons c rest ih =>
    have counted : R s (s.countLookups e c) := h.leaves rfl
    unfold Site.resolveThrough
    dsimp only
    split
    · exact counted
    · exact h.trans counted (h.trans (h.importThrough e c tally _) (ih _ _))

theorem resumeThrough (h : Spans R) (e : Endpoint) (c : Candidate) (rest : List Candidate)
    (tally : Tally) (s : Site) : R s (Site.resumeThrough e c rest tally s).2 := by
  unfold Site.resumeThrough
  split
  · exact h.refl s
  · exact h.trans (h.importThrough e c tally s) (h.resolveThrough e rest _ _)

theorem resolve (h : Spans R) (e : Endpoint) (s : Site) : R s (s.resolve e).2 := by
  unfold Site.resolve
  dsimp only
  split
  · exact h.trans (h.findContainers e s) (h.log _ _)
  · exact h.trans (h.findContainers e s) (h.resolveThrough e _ _ _)

end Spans

end ServiceImport.Site

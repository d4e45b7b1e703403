import ServiceImport.Proofs.Site.Locations

/-! # One resolution per release

A location that a resolution was started for is held until it is given free: by an endpoint of this
location that leaves, or on request by a removal that empties a record. Nothing else gives it free,
however the resolution ends and whatever other news come. And once it is free, the next endpoint
that comes there gets a resolution.
-/

namespace ServiceImport

/-- Whether a command tells a site that an endpoint is there: by its description, or by news that
the site reads as this description. -/
def Command.Announces (s : Site) (e : Endpoint) : Command → Prop
  | .available e' => e' = e
  | .notify news => news.kind = .available ∧ s.adaptation.adapt news.endpoint = .ok (some e)
  | _ => False

namespace Site

variable {s : Site} {allowed : Command → Prop} {l : Location}

theorem perform_of_announces {c : Command} {e : Endpoint} (announces : c.Announces s e) :
    s.perform c = s.available e := by
  cases c with
  | available e' =>
    obtain rfl : e' = e := announces
    rfl
  | notify news =>
    obtain ⟨kind, adapted⟩ := announces
    show s.notify news = s.available e
    unfold notify
    rw [adapted]
    dsimp only
    rw [kind]
  | _ => exact announces.elim

/-- A location that is accepted stays so, unless the journal tells that it is given free or someone
goes past the importer there. -/
theorem Change.freed {m n : Moment} (change : Change allowed m n)
    (own : ¬ allowed (.releaseLocation l)) (before : m.site.locations.contains l = true)
    (after : n.site.locations.contains l = false) :
    ∃ events, n.site.journal = m.site.journal ++ events ∧
      ∃ event ∈ events, event.frees m.site.settings l = true := by
  rcases change.yields_or with yields | ⟨e, result⟩ | ⟨c, ok, places, result⟩
  · obtain ⟨events, journal, _, freed⟩ := yields.journal
    refine ⟨events, journal, ?_⟩
    have := freed l
    rw [before, after, Bool.true_and, eq_comm, List.all_eq_false] at this
    simpa using this
  · -- Accepting a location gives no other free.
    cases known : m.site.locations.contains e.location with
    | true =>
      rw [result, available_of_contains known] at after
      exact absurd (before.symm.trans after) (by simp)
    | false =>
      rw [result, available_of_not_contains known] at after
      have kept : l ∈ m.site.locations.accepted ++ [e.location] :=
        List.mem_append_left _ (Locations.contains_iff.1 before)
      exact absurd ((Locations.contains_iff.2 kept).symm.trans after) (by simp)
  · rw [result] at after
    rcases contains_place (l := l) places m.site with same | ⟨_, accepted⟩ | ⟨rfl, _⟩
    · rw [same, before] at after
      cases after
    · rw [accepted] at after
      cases after
    · exact absurd ok own

/-- Between two resolutions for one location it was given free. An endpoint that comes while it is
free gets a resolution. And it gets free by nothing but what the journal tells to give it free. -/
theorem started_once_per_release (h : Reachable allowed s) {m : Moment}
    (changes : Changes allowed ⟨s, .idle⟩ m) (l : Location) :
    (¬ allowed (.releaseLocation l) → ∀ before between after n n' e e',
      m.site.journal = before ++ .started n e :: between ++ .started n' e' :: after →
      e.location = l → e'.location = l →
        ∃ event ∈ between, event.frees m.site.settings l = true) ∧
    (¬ allowed (.acceptLocation l) → ∀ c e, c.Announces m.site e → e.location = l →
      taken m.site.settings l m.site.journal = false →
        (m.site.perform c).resolutions =
          m.site.resolutions ++ [{ id := m.site.started, endpoint := e }]) ∧
    (¬ allowed (.releaseLocation l) → ∀ m', Change allowed m m' →
      m.site.locations.contains l = true → m'.site.locations.contains l = false →
        ∃ events, m'.site.journal = m.site.journal ++ events ∧
          ∃ event ∈ events, event.frees m.site.settings l = true) := by
  have retained : Retained allowed l m.site :=
    (h.always (I := fun m => Retained allowed l m.site) retained_build
      (fun _ change retained => change.retained retained) changes).2
  refine ⟨?_, ?_, fun own m' change before after => change.freed own before after⟩
  · intro own before between after n n' e e' told hl hl'
    have free := retained.fresh own _ n' e' after told hl'
    subst hl
    exact freed_between free
  · intro own c e announces hl free
    have known : m.site.locations.contains e.location = false := by
      refine eq_false_of_ne_true fun held => ?_
      rw [hl] at held
      rw [retained.told own held] at free
      cases free
    rw [perform_of_announces announces, available_of_not_contains known]

/-- The lamp leaves and another endpoint comes at its location, which then leaves in its turn. -/
theorem started_once_per_release_shared :
    (∃ event ∈ [Event.left lampEndpoint, .reported (.unavailable "lamp" 0), .arrived bellEndpoint],
      event.frees sharedInFlight.settings lampEndpoint.location = true) ∧
    ((sharedInFlight.perform (.unavailable bellEndpoint)).perform
        (.notify ⟨.available, .native lampEndpoint⟩)).resolutions =
      sharedInFlight.resolutions ++ [{ id := 2, endpoint := lampEndpoint }] := by
  have reachable : Reachable (fun c => c.placesLocation = false) sharedInFlight :=
    reachable_sharedInFlight.mono fun c routine => by
      cases c <;> first | rfl | cases routine
  have left : Change (fun c => c.placesLocation = false) ⟨sharedInFlight, .idle⟩
      ⟨sharedInFlight.perform (.unavailable bellEndpoint), .idle⟩ :=
    .perform rfl fun _ => .inl rfl
  constructor
  · exact (started_once_per_release reachable .refl lampEndpoint.location).1
      (by simp [Command.placesLocation])
      [.arrived lampEndpoint] _ [] 0 1 lampEndpoint bellEndpoint rfl rfl rfl
  · exact (started_once_per_release reachable (.single left) lampEndpoint.location).2.1
      (by simp [Command.placesLocation]) _ lampEndpoint ⟨rfl, rfl⟩ rfl rfl

end Site

end ServiceImport

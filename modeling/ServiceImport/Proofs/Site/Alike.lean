import ServiceImport.Proofs.Hub.Likeness
import ServiceImport.Proofs.Site.Hubs

/-! # Sites that differ in their hubs only

Two sites whose hubs read alike and that agree in everything else go on alike, command by command
and turn by turn.
-/

namespace ServiceImport.Site

variable {s t u : Site} {hubs : List (Hub Notification)}

/-! ## Hubs that read alike, one by one -/

/-- As many hubs, each of which reads like the other of its number. -/
structure HubsAlike (hs ks : List (Hub Notification)) : Prop where
  length : hs.length = ks.length
  like : ∀ {i : Nat} {h k : Hub Notification}, hs[i]? = some h → ks[i]? = some k → h.Like k

namespace HubsAlike

variable {hs ks : List (Hub Notification)}

theorem refl (sound : ∀ h ∈ hs, h.Sound) : HubsAlike hs hs where
  length := rfl
  like hi ki := by
    obtain rfl := Option.some.inj (hi.symm.trans ki)
    exact .refl (sound _ (List.mem_of_getElem? hi))

theorem exists_like (alike : HubsAlike hs ks) {i : Nat} {h : Hub Notification}
    (there : hs[i]? = some h) : ∃ k, ks[i]? = some k ∧ h.Like k := by
  have bound : i < ks.length := alike.length ▸ (List.getElem?_eq_some_iff.1 there).1
  exact ⟨ks[i], List.getElem?_eq_getElem bound, alike.like there (List.getElem?_eq_getElem bound)⟩

theorem getElem?_eq_none (alike : HubsAlike hs ks) {i : Nat} (absent : hs[i]? = none) :
    ks[i]? = none := by
  rw [List.getElem?_eq_none_iff] at absent ⊢
  rw [← alike.length]
  exact absent

theorem modify (alike : HubsAlike hs ks) {i : Nat} {f g : Hub Notification → Hub Notification}
    (like : ∀ h k, hs[i]? = some h → ks[i]? = some k → (f h).Like (g k)) :
    HubsAlike (hs.modify i f) (ks.modify i g) where
  length := by rw [List.length_modify, List.length_modify, alike.length]
  like {j h k} hj kj := by
    rw [List.getElem?_modify] at hj kj
    obtain ⟨h, hh, rfl⟩ := Option.map_eq_some_iff.1 hj
    obtain ⟨k, hk, rfl⟩ := Option.map_eq_some_iff.1 kj
    split
    · next same => exact like h k (same ▸ hh) (same ▸ hk)
    · exact alike.like hh hk

theorem set (alike : HubsAlike hs ks) (i : Nat) {h k : Hub Notification} (like : h.Like k) :
    HubsAlike (hs.set i h) (ks.set i k) where
  length := by rw [List.length_set, List.length_set, alike.length]
  like {j h' k'} hj kj := by
    rw [List.getElem?_set] at hj kj
    split at hj
    · next same =>
      rw [if_pos same] at kj
      split at hj
      · split at kj
        · obtain rfl := Option.some.inj hj
          obtain rfl := Option.some.inj kj
          exact like
        · cases kj
      · cases hj
    · next other =>
      rw [if_neg other] at kj
      exact alike.like hj kj

theorem append (alike : HubsAlike hs ks) {h : Hub Notification} (sound : h.Sound) :
    HubsAlike (hs ++ [h]) (ks ++ [h]) where
  length := by rw [List.length_append, List.length_append, alike.length]
  like {j h' k'} hj kj := by
    by_cases old : j < hs.length
    · rw [List.getElem?_append_left old] at hj
      rw [List.getElem?_append_left (alike.length ▸ old)] at kj
      exact alike.like hj kj
    · rw [List.getElem?_append_right (Nat.le_of_not_lt old)] at hj
      rw [List.getElem?_append_right (alike.length ▸ Nat.le_of_not_lt old), ← alike.length] at kj
      obtain rfl := Option.some.inj (hj.symm.trans kj)
      obtain rfl := List.mem_singleton.1 (List.mem_of_getElem? hj)
      exact .refl sound

end HubsAlike

/-! ## Sites that differ in their hubs only -/

/-- Two sites that differ in their hubs only, and these read alike. -/
def Alike (s t : Site) : Prop := ∃ hubs, t = s.withHubs hubs ∧ HubsAlike s.hubs hubs

namespace Alike

theorem refl (sound : s.SoundHubs) : Alike s s := ⟨s.hubs, rfl, .refl sound⟩

theorem blind {f : Site → Site} (alike : Alike s t) (h : Blind f) : Alike (f s) (f t) := by
  obtain ⟨hubs, rfl, like⟩ := alike
  refine ⟨hubs, h hubs s, ?_⟩
  rw [h.hubs_eq]
  exact like

theorem blindPair {α : Type} {f : Site → α × Site} (alike : Alike s t) (h : BlindPair f) :
    (f s).1 = (f t).1 ∧ Alike (f s).2 (f t).2 := by
  refine ⟨?_, alike.blind h.snd⟩
  obtain ⟨hubs, rfl, -⟩ := alike
  rw [h]

theorem ready (alike : Alike s t) : t.ready = s.ready := by
  obtain ⟨hubs, rfl, -⟩ := alike
  rfl

theorem openHub? (alike : Alike s t) :
    (s.openHub? = none ∧ t.openHub? = none) ∨
      ∃ i h k, s.openHub? = some (i, h) ∧ t.openHub? = some (i, k) ∧ h.Like k := by
  obtain ⟨hubs, rfl, like⟩ := alike
  cases hs : s.openHub? with
  | some p =>
    obtain ⟨i, h⟩ := p
    obtain ⟨last, opened, rfl⟩ := openHub?_eq_some_iff.1 hs
    rw [List.getLast?_eq_getElem?] at last
    obtain ⟨k, hk, same⟩ := like.exists_like last
    refine .inr ⟨_, h, k, rfl, openHub?_eq_some_iff.2 ⟨?_, same.isOpen ▸ opened, ?_⟩, same⟩
    · rw [like.length, ← List.getLast?_eq_getElem?] at hk
      exact hk
    · exact congrArg (· - 1) like.length
  | none =>
    refine .inl ⟨rfl, Option.eq_none_iff_forall_ne_some.2 fun p ht => ?_⟩
    obtain ⟨last, opened, -⟩ := openHub?_eq_some_iff.1 (show _ = some (p.1, p.2) from ht)
    replace last : hubs.getLast? = some p.2 := last
    rw [List.getLast?_eq_getElem?, ← like.length] at last
    have bound : s.hubs.length - 1 < s.hubs.length :=
      like.length ▸ (List.getElem?_eq_some_iff.1 last).1
    have there := List.getElem?_eq_getElem bound
    have same := like.like there last
    rw [← List.getLast?_eq_getElem?] at there
    have latest := openHub?_eq_some_iff.2 ⟨there, same.isOpen.trans opened, rfl⟩
    rw [hs] at latest
    cases latest

theorem set (alike : Alike s t) (i : Nat) {h k : Hub Notification} (like : h.Like k) :
    Alike { s with hubs := s.hubs.set i h } { t with hubs := t.hubs.set i k } := by
  obtain ⟨hubs, rfl, same⟩ := alike
  exact ⟨_, rfl, same.set i like⟩

theorem ensureHub (alike : Alike s t) : Alike s.ensureHub t.ensureHub := by
  unfold Site.ensureHub
  rcases alike.openHub? with ⟨hs, ht⟩ | ⟨i, h, k, hs, ht, -⟩
  · rw [hs, ht]
    obtain ⟨hubs, rfl, like⟩ := alike
    exact ⟨_, rfl, like.append (Hub.sound_new _)⟩
  · rw [hs, ht]
    exact alike

theorem attach (alike : Alike s t) : Alike s.attach t.attach := by
  unfold Site.attach
  dsimp only
  rcases alike.ensureHub.openHub? with ⟨hs, ht⟩ | ⟨i, h, k, hs, ht, like⟩
  · rw [hs, ht]
    exact alike.ensureHub
  · rw [hs, ht]
    obtain ⟨hubs, ht, same⟩ := alike.ensureHub
    have reader : h.subscribe.1 = k.subscribe.1 := like.nextFeed
    dsimp only
    rw [ht, reader]
    exact ⟨_, rfl, same.set i like.subscribe⟩

theorem publish (alike : Alike s t) (news : Notification) :
    Alike (s.publish news).2 (t.publish news).2 := by
  unfold Site.publish
  rcases alike.openHub? with ⟨hs, ht⟩ | ⟨i, h, k, hs, ht, like⟩
  · rw [hs, ht]
    exact alike
  · rw [hs, ht]
    obtain ⟨count, published⟩ := like.publish news
    dsimp only
    rw [count]
    split
    · exact alike.set i published
    · exact (alike.set i published).blind (blind_wakeFeeds i)

theorem closeHub (alike : Alike s t) : Alike s.closeHub t.closeHub := by
  unfold Site.closeHub
  rcases alike.openHub? with ⟨hs, ht⟩ | ⟨i, h, k, hs, ht, like⟩
  · rw [hs, ht]
    exact alike
  · rw [hs, ht]
    exact (alike.set i like.close).blind (blind_wakeFeeds i)

theorem perform (alike : Alike s t) (c : Command) : Alike (s.perform c) (t.perform c) := by
  cases other : c.isAboutHubs with
  | false => exact alike.blind (blind_perform other)
  | true =>
    cases c with
    | attach => exact alike.attach
    | publish news => exact alike.publish news
    | closeHub => exact alike.closeHub
    | _ => exact absurd other nofun

theorem performAll (alike : Alike s t) (commands : List Command) :
    Alike (s.performAll commands) (t.performAll commands) := by
  induction commands generalizing s t with
  | nil => exact alike
  | cons c commands ih => exact ih (alike.perform c)

/-! ## Turns of resolutions -/

theorem register (alike : Alike s t) (r : Registration) :
    (s.register r).1 = (t.register r).1 ∧ Alike (s.register r).2 (t.register r).2 := by
  have planned : t.space.interruptions = s.space.interruptions := by
    obtain ⟨hubs, rfl, -⟩ := alike
    rfl
  have interrupted := (alike.blind (f := fun s =>
      { s with space := { s.space with interruptions := s.space.interruptions.tail } })
    fun _ _ => rfl).performAll (s.space.interruptions.headD [])
  unfold Site.register
  rw [planned]
  dsimp only at interrupted ⊢
  rw [planned] at interrupted
  generalize Site.performAll (s.space.interruptions.headD []) _ = s' at interrupted ⊢
  generalize Site.performAll (s.space.interruptions.headD []) _ = t' at interrupted ⊢
  obtain ⟨hubs, rfl, like⟩ := interrupted
  have space : (s'.withHubs hubs).space = s'.space := rfl
  rw [space]
  cases s'.space.failRegister with
  | some reason => exact ⟨rfl, hubs, rfl, like⟩
  | none =>
    dsimp only
    cases s'.space.store.register r with
    | error fault => exact ⟨rfl, hubs, rfl, like⟩
    | ok registered => exact ⟨rfl, hubs, rfl, like⟩

theorem registerProxy (alike : Alike s t) (e : Endpoint) (c : Candidate) (r : Reference) :
    (s.registerProxy e c r).1 = (t.registerProxy e c r).1 ∧
      Alike (s.registerProxy e c r).2 (t.registerProxy e c r).2 := by
  have prepared : t.prepareProxy e c r = s.prepareProxy e c r := by
    obtain ⟨hubs, rfl, -⟩ := alike
    rfl
  unfold Site.registerProxy
  rw [prepared]
  cases s.prepareProxy e c r with
  | error fault => exact ⟨rfl, alike⟩
  | ok registration =>
    obtain ⟨result, after⟩ := (alike.blind (f := Site.log (.proxied c r))
      fun _ _ => rfl).register registration
    dsimp only
    generalize Site.register registration (s.log (.proxied c r)) = p at result after ⊢
    generalize Site.register registration (t.log (.proxied c r)) = q at result after ⊢
    obtain ⟨answer, s'⟩ := p
    obtain ⟨answer', t'⟩ := q
    obtain rfl : answer = answer' := result
    cases answer with
    | error fault => exact ⟨rfl, after⟩
    | ok h => exact ⟨rfl, after.blind (blind_noteImport h r)⟩

end Alike

/-- Two imports at sites that differ in their hubs only. -/
def ImportAlike (i j : Importing) : Prop :=
  Alike i.site j.site ∧ j.subscription = i.subscription ∧ j.tally = i.tally

theorem ImportAlike.importOne {i j : Importing} (alike : ImportAlike i j) (e : Endpoint)
    (c : Candidate) (r : Reference) : ImportAlike (importOne e c i r) (importOne e c j r) := by
  obtain ⟨s, x, tally⟩ := i
  obtain ⟨t, x', tally'⟩ := j
  obtain ⟨sites, rfl, rfl⟩ : Alike s t ∧ x' = x ∧ tally' = tally := alike
  have ledger : t.ledger = s.ledger := by
    obtain ⟨hubs, rfl, -⟩ := sites
    rfl
  unfold Site.importOne
  dsimp only
  rw [ledger]
  cases s.ledger.check ⟨c.id, e.id⟩ r.id with
  | error rejection =>
    exact ⟨sites.blind (f := Site.report (.registeredBefore c.id r rejection)) fun _ _ => rfl,
      rfl, rfl⟩
  | ok _ =>
    obtain ⟨result, after⟩ := sites.registerProxy e c r
    dsimp only
    generalize Site.registerProxy e c r s = p at result after ⊢
    generalize Site.registerProxy e c r t = q at result after ⊢
    obtain ⟨answer, s'⟩ := p
    obtain ⟨answer', t'⟩ := q
    obtain rfl : answer = answer' := result
    cases answer with
    | error fault =>
      exact ⟨after.blind (f := Site.report (.notRegistered c.id r fault)) fun _ _ => rfl, rfl, rfl⟩
    | ok h =>
      obtain ⟨hubs, rfl, like⟩ := after
      have recorded := recordProxy_withHubs e c r h ⟨s', x', tally'⟩ hubs
      have kept : (recordProxy e c r h ⟨s', x', tally'⟩).site.hubs = s'.hubs := by
        rw [leavesJobs_recordProxy e c r h ⟨s', x', tally'⟩]
      show ImportAlike (recordProxy e c r h ⟨s', x', tally'⟩)
        (recordProxy e c r h (Importing.withHubs hubs ⟨s', x', tally'⟩))
      rw [recorded]
      exact ⟨⟨hubs, rfl, kept ▸ like⟩, rfl, rfl⟩

theorem ImportAlike.foldl {i j : Importing} (alike : ImportAlike i j) (e : Endpoint) (c : Candidate)
    (references : List Reference) :
    ImportAlike (references.foldl (Site.importOne e c) i)
      (references.foldl (Site.importOne e c) j) := by
  induction references generalizing i j with
  | nil => exact alike
  | cons r references ih => exact ih (alike.importOne e c r)

namespace Alike

theorem importThrough (alike : Alike s t) (e : Endpoint) (c : Candidate) (tally : Tally) :
    (s.importThrough e c tally).1 = (t.importThrough e c tally).1 ∧
      Alike (s.importThrough e c tally).2 (t.importThrough e c tally).2 := by
  obtain ⟨found, looked⟩ := alike.blindPair (blind_lookUp e c)
  unfold Site.importThrough
  dsimp only
  rw [← found]
  split
  · exact ⟨rfl, looked⟩
  · obtain ⟨subscription, subscribed⟩ :=
      looked.blindPair (blind_subscribe c.adapter (.importer c.id))
    have opened := subscribed.blind (f := Site.log (.opened c)) fun _ _ => rfl
    unfold importAll
    dsimp only
    have start : ImportAlike
        ⟨Site.log (.opened c) (Site.subscribe c.adapter (.importer c.id) (s.lookUp e c).2).2,
          (Site.subscribe c.adapter (.importer c.id) (s.lookUp e c).2).1,
          { tally with anyReferences := true }⟩
        ⟨Site.log (.opened c) (Site.subscribe c.adapter (.importer c.id) (t.lookUp e c).2).2,
          (Site.subscribe c.adapter (.importer c.id) (t.lookUp e c).2).1,
          { tally with anyReferences := true }⟩ := ⟨opened, subscription.symm, rfl⟩
    obtain ⟨sites, left, told⟩ :=
      start.foldl e c (firstOfEach ((s.lookUp e c).1.flatMap (·.2)))
    rw [told, left]
    exact ⟨rfl, sites.blind (deaf_cancel _).blind⟩

theorem hasToWait (alike : Alike s t) (e : Endpoint) (c : Candidate) :
    t.hasToWait e c = s.hasToWait e c := by
  obtain ⟨hubs, rfl, -⟩ := alike
  rfl

theorem resolveThrough (alike : Alike s t) (e : Endpoint) (candidates : List Candidate)
    (tally : Tally) :
    (Site.resolveThrough e candidates tally s).1 = (Site.resolveThrough e candidates tally t).1 ∧
      Alike (Site.resolveThrough e candidates tally s).2
        (Site.resolveThrough e candidates tally t).2 := by
  induction candidates generalizing tally s t with
  | nil => exact ⟨rfl, alike⟩
  | cons c rest ih =>
    have counted : Alike (s.countLookups e c) (t.countLookups e c) :=
      alike.blind (f := Site.countLookups e c) fun _ _ => rfl
    unfold Site.resolveThrough
    dsimp only
    rw [counted.hasToWait]
    split
    · exact ⟨rfl, counted⟩
    · obtain ⟨told, imported⟩ := counted.importThrough e c tally
      rw [← told]
      exact ih imported _

theorem resumeThrough (alike : Alike s t) (e : Endpoint) (c : Candidate) (rest : List Candidate)
    (tally : Tally) :
    (Site.resumeThrough e c rest tally s).1 = (Site.resumeThrough e c rest tally t).1 ∧
      Alike (Site.resumeThrough e c rest tally s).2 (Site.resumeThrough e c rest tally t).2 := by
  unfold Site.resumeThrough
  rw [alike.hasToWait]
  split
  · exact ⟨rfl, alike⟩
  · obtain ⟨told, imported⟩ := alike.importThrough e c tally
    dsimp only
    rw [← told]
    exact imported.resolveThrough e rest _

theorem resolve (alike : Alike s t) (e : Endpoint) :
    (s.resolve e).1 = (t.resolve e).1 ∧ Alike (s.resolve e).2 (t.resolve e).2 := by
  obtain ⟨found, after⟩ := alike.blindPair (blind_findContainers e)
  unfold Site.resolve
  dsimp only
  rw [← found]
  split
  · exact ⟨rfl, after.blind (f := Site.report (.noContainers e.id)) fun _ _ => rfl⟩
  · exact after.resolveThrough e _ _

theorem conclude {p q : Progress × Site} (told : p.1 = q.1) (alike : Alike p.2 q.2)
    (r : Resolution) : Alike (Site.conclude r p) (Site.conclude r q) := by
  obtain ⟨progress, s⟩ := p
  obtain ⟨progress', t⟩ := q
  obtain rfl : progress = progress' := told
  exact alike.blind (f := fun s => Site.conclude r (progress, s))
    fun hubs s => conclude_withHubs r progress hubs s

theorem runResolution (alike : Alike s t) (r : Resolution) :
    Alike (s.runResolution r) (t.runResolution r) := by
  have running : ∀ {s t : Site}, Alike s t →
      Alike (s.setStage r.id .running) (t.setStage r.id .running) := fun alike =>
    alike.blind (f := Site.setStage r.id .running) fun _ _ => rfl
  have begins : ∀ {s t : Site}, Alike s t → Alike (s.begin r) (t.begin r) := by
    intro s t alike
    obtain ⟨told, resolved⟩ := (running alike).resolve r.endpoint
    exact conclude told resolved r
  unfold Site.runResolution
  split
  · exact alike.blind (blind_discard r)
  · cases r.stage with
    | fresh =>
      have limiter : t.limiter = s.limiter := by
        obtain ⟨hubs, rfl, -⟩ := alike
        rfl
      have acquired : Alike { s with limiter := (s.limiter.acquire r.id).2 }
          { t with limiter := (s.limiter.acquire r.id).2 } :=
        alike.blind (f := fun u => { u with limiter := (s.limiter.acquire r.id).2 }) fun _ _ => rfl
      dsimp only
      rw [limiter]
      split
      · exact begins acquired
      · exact acquired.blind (f := Site.setStage r.id .queued) fun _ _ => rfl
    | admitted => exact begins alike
    | lookingUp c rest tally =>
      obtain ⟨told, resumed⟩ := (running alike).resumeThrough r.endpoint c rest tally
      exact conclude told resumed r
    | queued | running => exact alike

/-! ## Turns of feeds -/

theorem updateHub (alike : Alike s t) {i : Nat} {f g : Hub Notification → Hub Notification}
    (like : ∀ h k, s.hubs[i]? = some h → t.hubs[i]? = some k → (f h).Like (g k)) :
    Alike (s.updateHub i f) (t.updateHub i g) := by
  obtain ⟨hubs, rfl, same⟩ := alike
  exact ⟨_, rfl, same.modify like⟩

theorem like (alike : Alike s t) {i : Nat} {h k : Hub Notification} (hi : s.hubs[i]? = some h)
    (ki : t.hubs[i]? = some k) : h.Like k := by
  obtain ⟨hubs, rfl, same⟩ := alike
  exact same.like hi ki

theorem endFeed (alike : Alike s t) (i : Nat) (f : Feed) :
    Alike (s.endFeed i f) (t.endFeed i f) :=
  (alike.updateHub fun _ _ hi ki => (alike.like hi ki).unsubscribe f.reader).blind
    (f := Site.updateFeed i ({ · with finished := true })) fun _ _ => rfl

theorem foldl_notify (alike : Alike s t) (news : List Notification) :
    Alike (news.foldl (fun s n => s.notify n) s) (news.foldl (fun s n => s.notify n) t) :=
  alike.blind (Deaf.foldl (f := fun s (n : Notification) => s.notify n) deaf_notify news).blind

theorem runFeed (alike : Alike s t) (i : Nat) (f : Feed) :
    Alike (s.runFeed i f) (t.runFeed i f) := by
  unfold Site.runFeed
  cases hi : s.hubs[f.hub]? with
  | none =>
    have absent : t.hubs[f.hub]? = none := by
      obtain ⟨hubs, rfl, same⟩ := alike
      exact same.getElem?_eq_none hi
    rw [absent]
    exact alike
  | some h =>
    obtain ⟨k, ki⟩ : ∃ k, t.hubs[f.hub]? = some k := by
      obtain ⟨hubs, rfl, same⟩ := alike
      obtain ⟨k, ki, -⟩ := same.exists_like hi
      exact ⟨k, ki⟩
    have same := alike.like hi ki
    rw [ki]
    dsimp only
    split
    · exact alike.endFeed i f
    · have moved : Alike (s.updateHub f.hub (·.moveTo f.reader h.published))
          (t.updateHub f.hub (·.moveTo f.reader k.published)) := by
        refine alike.updateHub fun h' k' hi' ki' => ?_
        obtain rfl := Option.some.inj (hi.symm.trans hi')
        obtain rfl := Option.some.inj (ki.symm.trans ki')
        exact same.moveTo f.reader
      rw [← same.missed, ← same.waiting, ← same.isOpen]
      have reported : Alike
          (if h.missed f.reader = 0 then s.updateHub f.hub (·.moveTo f.reader h.published)
            else (s.updateHub f.hub (·.moveTo f.reader h.published)).report
              (.lagged (h.missed f.reader)))
          (if h.missed f.reader = 0 then t.updateHub f.hub (·.moveTo f.reader k.published)
            else (t.updateHub f.hub (·.moveTo f.reader k.published)).report
              (.lagged (h.missed f.reader))) := by
        split
        · exact moved
        · exact moved.blind (f := Site.report (.lagged (h.missed f.reader))) fun _ _ => rfl
      have handled := reported.foldl_notify (h.waiting f.reader)
      split
      · exact handled.blind
          (f := fun s => { s with idleFeeds := s.idleFeeds ++ [i] }) fun _ _ => rfl
      · exact handled.endFeed i f

/-! ## Turns -/

theorem poll (alike : Alike s t) (j : Job) : Alike (s.poll j) (t.poll j) := by
  have taken : Alike { s with ready := s.ready.erase j } { t with ready := s.ready.erase j } :=
    alike.blind (f := fun u => { u with ready := s.ready.erase j }) fun _ _ => rfl
  unfold Site.poll
  rw [alike.ready]
  split
  · refine Alike.blind ?_ blind_releaseLedger
    generalize ({ s with ready := s.ready.erase j } : Site) = s' at taken ⊢
    generalize ({ t with ready := s.ready.erase j } : Site) = t' at taken ⊢
    cases j with
    | resolution n =>
      have same : t'.resolution? n = s'.resolution? n := by
        obtain ⟨hubs, rfl, -⟩ := taken
        rfl
      dsimp only
      rw [same]
      split
      · exact taken
      · exact taken.runResolution _
    | feed i =>
      have same : t'.feeds = s'.feeds := by
        obtain ⟨hubs, rfl, -⟩ := taken
        rfl
      dsimp only
      rw [same]
      split
      · exact taken
      · split
        · exact taken
        · exact taken.runFeed i _
  · exact alike

theorem turns (alike : Alike s t) (n : Nat) : Alike (Site.turns n s) (Site.turns n t) := by
  induction n generalizing s t with
  | zero => exact alike
  | succ n ih =>
    unfold Site.turns
    rw [alike.ready]
    split
    · exact alike
    · exact ih (alike.poll _)

end Alike

end ServiceImport.Site

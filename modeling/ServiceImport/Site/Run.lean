import ServiceImport.Site.Import

/-! # Running jobs

A ready job runs until it ends or has to wait. Jobs take turns in the order in which they became
ready.
-/

namespace ServiceImport.Site

/-! ## Ends of resolutions -/

/-- Gives a permit back. Whoever is given it becomes ready. -/
def releasePermit (s : Site) : Site :=
  let (next, limiter) := s.limiter.release
  let s : Site := { s with limiter }
  match next with
  | none => s
  | some n => (s.setStage n .admitted).wake (.resolution n)

/-- Takes a resolution out of flight. -/
def retire (r : Resolution) (s : Site) : Site :=
  { s with
    resolutions := s.resolutions.filter (·.id != r.id)
    pending := s.pending.leave r.endpoint.id }

def complete (r : Resolution) (outcome : Outcome) (s : Site) : Site :=
  let s := match outcome with
    | .registered n => s.report (.imported r.endpoint.id n)
    | other => s.report (.notImported r.endpoint.id other)
  let s : Site := { s with finished := s.finished ++ [(r.endpoint.id, outcome)] }
  retire r (releasePermit (s.log (.completed r.id r.endpoint outcome)))

def leaveQueues (r : Resolution) (s : Site) : Site :=
  match r.stage with
  | .queued => { s with limiter := s.limiter.leave r.id }
  | .lookingUp c .. => s.updateAdapter c.adapter (·.removeWaiting r.id)
  | _ => s

/-- Drops a resolution. It gives back what it holds and comes to nothing. -/
def discard (r : Resolution) (s : Site) : Site :=
  let s := s.leaveQueues r
  let s := if r.stage.holdsPermit then s.releasePermit else s
  (retire r s).log (.aborted r.id r.endpoint)

/-! ## Turns of resolutions -/

/-- Lets a resolution wait for a candidate. -/
def await (n : Nat) (c : Candidate) (rest : List Candidate) (tally : Tally) (s : Site) : Site :=
  (s.setStage n (.lookingUp c rest tally)).updateAdapter c.adapter (·.addWaiting n)

/-- Ends the turn of a resolution. One that was aborted meanwhile does not wait. -/
def conclude (r : Resolution) (p : Progress × Site) : Site :=
  match p with
  | (.done outcome, s) => s.complete r outcome
  | (.waiting c rest tally, s) =>
    match s.resolution? r.id with
    | none => s
    | some now => if now.aborted then s.discard now else s.await r.id c rest tally

/-- Runs a resolution that has its permit from the start. -/
def begin (r : Resolution) (s : Site) : Site :=
  conclude r ((s.setStage r.id .running).resolve r.endpoint)

def runResolution (r : Resolution) (s : Site) : Site :=
  if r.aborted then s.discard r
  else match r.stage with
    | .fresh =>
      let (admitted, limiter) := s.limiter.acquire r.id
      let s : Site := { s with limiter }
      if admitted then s.begin r else s.setStage r.id .queued
    | .admitted => s.begin r
    | .lookingUp c rest tally =>
      conclude r ((s.setStage r.id .running).resumeThrough r.endpoint c rest tally)
    | .queued | .running => s

/-! ## Turns of feeds -/

def endFeed (i : Nat) (f : Feed) (s : Site) : Site :=
  (s.updateHub f.hub (·.unsubscribe f.reader)).updateFeed i ({ · with finished := true })

/-- Gives a turn to a feed: it handles the news there are, and ends or waits for more. -/
def runFeed (i : Nat) (f : Feed) (s : Site) : Site :=
  match s.hubs[f.hub]? with
  | none => s
  | some h =>
    if f.aborted then s.endFeed i f
    else
      let missed := h.missed f.reader
      let news := h.waiting f.reader
      let s := s.updateHub f.hub (·.moveTo f.reader h.published)
      let s := if missed = 0 then s else s.report (.lagged missed)
      let s := news.foldl (fun s n => s.notify n) s
      if h.isOpen then { s with idleFeeds := s.idleFeeds ++ [i] } else s.endFeed i f

/-! ## Turns -/

/-- Gives a turn to a job that is ready, and to none that is not. -/
def poll (j : Job) (s : Site) : Site :=
  if j ∈ s.ready then
    let s : Site := { s with ready := s.ready.erase j }
    releaseLedger <| match j with
      | .resolution n =>
        match s.resolution? n with
        | none => s
        | some r => s.runResolution r
      | .feed i =>
        match s.feeds[i]? with
        | none => s
        | some f => if f.finished then s else s.runFeed i f
  else s

/-- How many turns there can be without an interruption: a job that is ready takes one, a
resolution that is not admitted yet takes one more, and each notification that waits may start
one. -/
def work (s : Site) : Nat :=
  let early := s.resolutions.filter fun r => match r.stage with
    | .fresh | .queued => true
    | _ => false
  let news := (s.feeds.filter (!·.finished)).map fun f =>
    ((s.hubs[f.hub]?).map (·.backlog f.reader)).getD 0
  s.ready.length + early.length + 2 * news.foldl (· + ·) 0

/-- Gives so many turns, each to the job that is ready longest. -/
def turns : Nat → Site → Site
  | 0, s => s
  | n + 1, s =>
    match s.ready with
    | [] => s
    | j :: _ => turns n (s.poll j)

/-- Gives turns in so many rounds, each as long as its work was at its start. -/
def rounds : Nat → Site → Site
  | 0, s => s
  | n + 1, s => rounds n (turns s.work s)

/-- Runs jobs until none is ready. Only an interruption adds to the work of a round, and each
happens once, so one round more than there are interruptions is enough. -/
def run (s : Site) : Site := rounds (s.space.interruptions.length + 1) s

/-- Runs jobs until none is ready, unless nothing is in flight, and hands out the outcomes if
nothing is in flight then. -/
def settle (s : Site) : Option (List (String × Outcome)) × Site :=
  let s := if s.pending.isEmpty then s else s.run
  if s.pending.isEmpty then
    let (outcomes, s) := s.collect
    (some outcomes, s)
  else (none, s)

end ServiceImport.Site

import Foreseerr.Clock
import Foreseerr.Json
import Foreseerr.Run
import Mathlib.Data.List.Nodup

/-!
# The job scheduler's timers

`jobs/scheduler.rs` keeps a list of scheduled jobs, one timer task each. A
rerun of `start` drops the list and schedules the jobs of the configured
media server again, `reschedule` replaces one job's timer, and `stop` drops
everything. Aborting a timer stops it only where it is suspended: one that
has reached its moment runs on, up to `set_next`, which turns it away when
the job's generation is no longer the timer's own.

A generation goes on from the list that is dropped. A job that list does not
have starts at zero again, whatever generation it had in a list before, so a
late timer of that earlier schedule can be taken for the new one's
(`Scheduler.late_timer_fires`). In the runs in which no job comes back while
a timer of it is still on its way, only the latest timer of a job fires it
(`Scheduler.latest_timer_fires`).
-/

namespace Foreseerr

/-- The ids of the jobs. -/
inductive JobId
  | plexRecentlyAddedScan
  | plexFullScan
  | plexRefreshToken
  | plexWatchlistSync
  | jellyfinRecentlyAddedScan
  | jellyfinFullScan
  | radarrScan
  | episodeRequestSync
  | releaseCalendarSync
  | sonarrScan
  | availabilitySync
  | downloadSync
  | downloadSyncReset
  | imageCacheCleanup
  | processBlocklistedTags
  | mappingPackRefresh
deriving DecidableEq, Repr

namespace Scheduler

open JobId

/-- `PLEX_JOBS`. -/
def plexJobs : List JobId :=
  [plexRecentlyAddedScan, plexFullScan, plexRefreshToken, plexWatchlistSync]

/-- `JELLYFIN_JOBS`. -/
def jellyfinJobs : List JobId := [jellyfinRecentlyAddedScan, jellyfinFullScan]

/-- `COMMON_JOBS`. -/
def commonJobs : List JobId :=
  [radarrScan, episodeRequestSync, releaseCalendarSync, sonarrScan, availabilitySync,
    downloadSync, downloadSyncReset, imageCacheCleanup, processBlocklistedTags,
    mappingPackRefresh]

/-- The jobs of a `mediaServerType`. -/
def serverJobs : Option Int → List JobId
  | some 1 => plexJobs
  | some 2 => jellyfinJobs
  | some 3 => jellyfinJobs
  | _ => []

/-- The jobs `start` schedules, in its order. -/
def jobsOf (server : Option Int) : List JobId := serverJobs server ++ commonJobs

theorem nodup_jobsOf (server : Option Int) : (jobsOf server).Nodup := by
  unfold jobsOf serverJobs
  split <;> decide

/-! ## Plans -/

/-- What `cron.rs` does for the scheduler: the iterator of a cron string from
a moment on, and an iterator's next occurrence. -/
structure CronReader (Iter : Type) where
  iter : String → Int → Option Iter
  nextAfter : Iter → Option (Int × Iter)

/-- How a schedule fires: a cron's occurrences, or once at a date. -/
inductive Plan (Iter : Type)
  | cron (it : Iter)
  | once
deriving DecidableEq, Repr

variable {Iter : Type} (reader : CronReader Iter)

/-- `plan`: the plan of a spec and its first moment. -/
def plan (spec : String) (now : Int) : Option (Plan Iter × Int) :=
  match (reader.iter spec now).bind reader.nextAfter with
  | some (first, it) => some (.cron it, first)
  | none => ((parseDateMillis spec.toList).filter (now ≤ ·)).map fun date => (.once, date)

/-- The occurrence after the one a timer has reached. -/
def Plan.following : Plan Iter → Option (Int × Plan Iter)
  | .cron it => (reader.nextAfter it).map fun (at', it) => (at', .cron it)
  | .once => none

/-! ## Jobs and timers -/

/-- One entry of `scheduledJobs`. -/
structure Scheduled where
  id : JobId
  cronSchedule : Json
  broken : Bool
  next : Option Int
  generation : Nat
  timer : Option Nat

/-- Where a timer task is. -/
inductive TimerPc
  /-- Suspended in `sleep_until`, or not yet run at all. -/
  | waiting
  /-- Past its moment, before `set_next`. -/
  | due
  /-- Accepted by `set_next`, before `invoke`; with the occurrence to follow. -/
  | accepted (following : Option Int)
  /-- Back at the head of its loop. -/
  | looping
deriving DecidableEq, Repr

/-- A timer task. -/
structure Timer (Iter : Type) where
  handle : Nat
  job : JobId
  generation : Nat
  plan : Plan Iter
  moment : Int
  aborted : Bool := false
  pc : TimerPc := .waiting

/-- What is recorded of a run. -/
inductive JobEvent
  /-- A job was scheduled, with the timer spawned for it if its spec is valid. -/
  | scheduled (job : JobId) (timer : Option Nat)
  /-- `set_next` accepted a timer at an occurrence. -/
  | accepted (job : JobId) (timer : Nat) (moment : Int)
  /-- The job was started. -/
  | invoked (job : JobId) (timer : Nat) (moment : Int)
deriving DecidableEq, Repr

/-- The scheduler, its timer tasks, the clock and the record of the run. -/
structure State (Iter : Type) where
  jobs : List Scheduled := []
  stopped : Bool := false
  timers : List (Timer Iter) := []
  nextHandle : Nat := 0
  now : Int := 0
  log : List JobEvent := []

namespace State

variable (s : State Iter)

def job? (id : JobId) : Option Scheduled := s.jobs.find? (·.id = id)

/-- A timer after its task was aborted: it is gone where it is suspended, and
runs on to its next suspension elsewhere. -/
def abortTimer (handle : Nat) (timer : Timer Iter) : Option (Timer Iter) :=
  if timer.handle ≠ handle then some timer
  else if timer.pc = .waiting then none
  else some { timer with aborted := true }

/-- `AbortHandle::abort`. -/
def abort (handle : Option Nat) : State Iter :=
  match handle with
  | none => s
  | some handle => { s with timers := s.timers.filterMap (abortTimer handle) }

/-- Abort every timer of the list and empty it. -/
def dropJobs : State Iter :=
  { s.jobs.foldl (fun s job => s.abort job.timer) s with jobs := [] }

/-- `stop`. -/
def stop : State Iter := { s.dropJobs with stopped := true }

/-- `drop_schedule`: the generation each job is to be scheduled with next. -/
def nextGenerations : List (JobId × Nat) := s.jobs.map fun job => (job.id, job.generation + 1)

/-- `spawn_timer`: the task's handle is the next one. -/
def spawnTimer (job : JobId) (generation : Nat) (plan : Plan Iter) (first : Int) : State Iter :=
  { s with
    timers := s.timers ++ [{ handle := s.nextHandle, job, generation, plan, moment := first }]
    nextHandle := s.nextHandle + 1 }

def record (event : JobEvent) : State Iter := { s with log := s.log ++ [event] }

end State

/-- One turn of `start`'s loop. -/
def scheduleJob (jsString : Json → String) (schedules : JobId → Json)
    (previous : List (JobId × Nat)) (s : State Iter) (id : JobId) : State Iter :=
  let generation := ((previous.find? (·.1 = id)).map Prod.snd).getD 0
  let entry : Scheduled :=
    { id := id
      cronSchedule := schedules id
      broken := true
      next := none
      generation := generation
      timer := none }
  match plan reader (jsString (schedules id)) s.now with
  | some (plan, first) =>
    let spawned := s.spawnTimer id generation plan first
    let entry :=
      { entry with broken := false, next := some first, timer := some s.nextHandle }
    { spawned with
      jobs := s.jobs ++ [entry]
      log := s.log ++ [.scheduled id (some s.nextHandle)] }
  | none =>
    { s with
      jobs := s.jobs ++ [entry]
      log := s.log ++ [.scheduled id none] }

/-- `start`, with the settings it has read. -/
def start (jsString : Json → String) (s : State Iter) (server : Option Int)
    (schedules : JobId → Json) : State Iter :=
  if s.stopped then s
  else (jobsOf server).foldl (scheduleJob reader jsString schedules s.nextGenerations) s.dropJobs

/-- What `reschedule` answers its route. -/
inductive JobAnswer
  | notFound
  | invalid
  | job (job : Scheduled)

/-- Write the entry of a job. -/
def State.setJob (s : State Iter) (job : Scheduled) : State Iter :=
  { s with jobs := s.jobs.map fun j => if j.id = job.id then job else j }

/-- `reschedule`. The old timer is dropped before the new spec is tried. -/
def reschedule (s : State Iter) (id : JobId) (spec : Option String) : State Iter × JobAnswer :=
  match s.job? id with
  | none => (s, .notFound)
  | some job =>
    if job.broken then (s, .invalid)
    else
      let bumped := { job with generation := job.generation + 1, timer := none }
      let s := s.abort job.timer
      match spec.bind fun spec => (plan reader spec s.now).map fun planned => (spec, planned) with
      | none => ((s.setJob bumped).record (.scheduled id none), .invalid)
      | some (spec, plan, first) =>
        let job :=
          { bumped with next := some first, cronSchedule := .str spec, timer := some s.nextHandle }
        (((s.spawnTimer id job.generation plan first).setJob job).record
          (.scheduled id (some s.nextHandle)), .job job)

/-- `set_next`: whether a timer of this generation is accepted, and the
scheduler with the job's next occurrence. -/
def setNext (s : State Iter) (id : JobId) (generation : Nat) (next : Option Int) :
    Option (State Iter) :=
  match s.job? id with
  | none => none
  | some job =>
    if job.generation ≠ generation then none else some (s.setJob { job with next := next })

/-! ## One step -/

/-- What can happen next. -/
inductive Event
  /-- `start` reads these settings. -/
  | start (server : Option Int) (schedules : JobId → Json)
  | reschedule (id : JobId) (spec : Option String)
  | stop
  /-- The wall clock is at another moment. -/
  | clock (now : Int)
  /-- A suspended timer reaches its moment. -/
  | wake (timer : Nat)
  /-- A timer that is due asks `set_next`. -/
  | setNext (timer : Nat)
  /-- An accepted timer invokes its job, which the desktop runtime may defer. -/
  | invoke (timer : Nat) (deferred : Bool)
  /-- A timer goes back to `sleep_until`. -/
  | sleep (timer : Nat)

namespace State

variable (s : State Iter)

def timer? (handle : Nat) : Option (Timer Iter) := s.timers.find? (·.handle = handle)

/-- A timer goes on. -/
def setTimer (timer : Timer Iter) : State Iter :=
  { s with timers := s.timers.map fun t => if t.handle = timer.handle then timer else t }

/-- A timer task ends. -/
def endTimer (handle : Nat) : State Iter :=
  { s with timers := s.timers.filter (·.handle ≠ handle) }

end State

/-- A due timer's turn: the next occurrence is scheduled first. -/
def reach (s : State Iter) (t : Timer Iter) : State Iter :=
  let following := t.plan.following reader
  match setNext s t.job t.generation (following.map Prod.fst) with
  | none => s.endTimer t.handle
  | some s =>
    (s.setTimer { t with
      plan := (following.map Prod.snd).getD t.plan
      pc := .accepted (following.map Prod.fst) }).record (.accepted t.job t.handle t.moment)

/-- An accepted timer's turn. -/
def fire (s : State Iter) (t : Timer Iter) (following : Option Int) (deferred : Bool) :
    State Iter :=
  let invoked :=
    if s.stopped ∨ deferred then s else s.record (.invoked t.job t.handle t.moment)
  match following with
  | none => invoked.endTimer t.handle
  | some next => invoked.setTimer { t with moment := next, pc := .looping }

/-- `sleep_until` does not suspend when its moment is past; a suspension ends
a timer that was aborted. -/
def sleep (s : State Iter) (t : Timer Iter) : State Iter :=
  if t.moment ≤ s.now then s.setTimer { t with pc := .due }
  else if t.aborted then s.endTimer t.handle
  else s.setTimer { t with pc := .waiting }

/-- One step of the scheduler and its timers. -/
def step (jsString : Json → String) (s : State Iter) : Event → Option (State Iter)
  | .start server schedules => some (start reader jsString s server schedules)
  | .reschedule id spec => some (reschedule reader s id spec).1
  | .stop => some s.stop
  | .clock now => some { s with now := now }
  | .wake handle => do
    let t ← s.timer? handle
    if t.pc = .waiting ∧ t.moment ≤ s.now then some (s.setTimer { t with pc := .due }) else none
  | .setNext handle => do
    let t ← s.timer? handle
    if t.pc = .due then some (reach reader s t) else none
  | .invoke handle deferred => do
    let t ← s.timer? handle
    match t.pc with
    | .accepted following => some (fire s t following deferred)
    | _ => none
  | .sleep handle => do
    let t ← s.timer? handle
    if t.pc = .looping then some (sleep s t) else none

/-- The steps of the scheduler as a relation. -/
def Step (jsString : Json → String) (s : State Iter) (event : Event) (s' : State Iter) : Prop :=
  step reader jsString s event = some s'

/-! ## What the record shows -/

/-- The timer the latest schedule of a job spawned. -/
def latestTimer (log : List JobEvent) (job : JobId) : Option Nat :=
  log.foldl (fun latest event => match event with
    | .scheduled j timer => if j = job then timer else latest
    | _ => latest) none

theorem latestTimer_scheduled (log : List JobEvent) (j job : JobId) (timer : Option Nat) :
    latestTimer (log ++ [.scheduled j timer]) job
      = if j = job then timer else latestTimer log job := by
  simp [latestTimer]

theorem latestTimer_accepted (log : List JobEvent) (j job : JobId) (timer : Nat) (moment : Int) :
    latestTimer (log ++ [.accepted j timer moment]) job = latestTimer log job := by
  simp [latestTimer]

theorem latestTimer_invoked (log : List JobEvent) (j job : JobId) (timer : Nat) (moment : Int) :
    latestTimer (log ++ [.invoked j timer moment]) job = latestTimer log job := by
  simp [latestTimer]

/-- Where a job is not scheduled, its latest timer stays. -/
theorem latestTimer_append {log events : List JobEvent} {job : JobId}
    (h : ∀ timer, .scheduled job timer ∉ events) :
    latestTimer (log ++ events) job = latestTimer log job := by
  induction events using List.reverseRecOn with
  | nil => rw [List.append_nil]
  | append_singleton events event ih =>
    have hbefore := ih fun timer hmem => h timer (List.mem_append_left _ hmem)
    rw [← List.append_assoc]
    cases event with
    | scheduled j timer =>
      have hne : j ≠ job := by
        rintro rfl
        exact h timer (by simp)
      rw [latestTimer_scheduled, if_neg hne, hbefore]
    | accepted j timer moment => rw [latestTimer_accepted, hbefore]
    | invoked j timer moment => rw [latestTimer_invoked, hbefore]

/-- What an event follows: an accepted timer is the latest of its job, and a
job is invoked for an accepted occurrence. -/
def Follows (before : List JobEvent) : JobEvent → Prop
  | .scheduled _ _ => True
  | .accepted job timer _ => latestTimer before job = some timer
  | .invoked job timer moment => .accepted job timer moment ∈ before

/-- **Only the latest timer of a job fires it.** A timer `set_next` accepts is
the one the job's latest schedule spawned, so until the job is scheduled
again no other timer is accepted, and a job is invoked only for an occurrence
a timer was accepted at. -/
structure FiredByLatest (log : List JobEvent) : Prop where
  latest : ∀ before after job timer moment,
    log = before ++ .accepted job timer moment :: after → latestTimer before job = some timer
  single : ∀ before between after job timer timer' moment moment',
    log = before ++ between ++ after → (∀ spawned, .scheduled job spawned ∉ between) →
    .accepted job timer moment ∈ between → .accepted job timer' moment' ∈ between → timer = timer'
  accepted : ∀ before after job timer moment,
    log = before ++ .invoked job timer moment :: after → .accepted job timer moment ∈ before

/-- The accepted timers of a stretch in which the job is not scheduled are the
one that was the latest when the stretch began. -/
theorem latest_of_between {before between after : List JobEvent}
    (hlog : Log.EachAfter Follows (before ++ between ++ after)) {job : JobId}
    (hno : ∀ spawned, .scheduled job spawned ∉ between) {timer : Nat} {moment : Int}
    (hmem : .accepted job timer moment ∈ between) : latestTimer before job = some timer := by
  obtain ⟨first, last, rfl⟩ := List.append_of_mem hmem
  have hfollows : latestTimer (before ++ first) job = some timer :=
    hlog (before ++ first) (.accepted job timer moment) (last ++ after) (by simp)
  rw [latestTimer_append fun spawned hspawned => hno spawned (by simp [hspawned])] at hfollows
  exact hfollows

theorem firedByLatest_of_follows {log : List JobEvent} (h : Log.EachAfter Follows log) :
    FiredByLatest log where
  latest _ _ _ _ _ heq := h _ _ _ heq
  single before between after job timer timer' moment moment' heq hno h₁ h₂ := by
    subst heq
    have hfirst := latest_of_between h hno h₁
    have hsecond := latest_of_between h hno h₂
    exact Option.some.inj (hfirst.symm.trans hsecond)
  accepted _ _ _ _ _ heq := h _ _ _ heq

/-! ## The invariant -/

/-- **Generations tell the timers of a job apart.** The timers on their way
are of no later generation than their job's entry, and one of the entry's own
generation is the job's latest. -/
structure Inv (s : State Iter) : Prop where
  older : ∀ t ∈ s.timers, ∀ job ∈ s.jobs, job.id = t.job → t.generation ≤ job.generation
  current : ∀ t ∈ s.timers, ∀ job ∈ s.jobs, job.id = t.job → t.generation = job.generation →
    latestTimer s.log t.job = some t.handle
  accepted : ∀ t ∈ s.timers, ∀ following, t.pc = .accepted following →
    .accepted t.job t.handle t.moment ∈ s.log
  log : Log.EachAfter Follows s.log

/-- The same timer of the same schedule, maybe further on. -/
structure Timer.Continues (t t' : Timer Iter) : Prop where
  handle : t'.handle = t.handle
  job : t'.job = t.job
  generation : t'.generation = t.generation

theorem Timer.Continues.refl (t : Timer Iter) : t.Continues t := ⟨rfl, rfl, rfl⟩

variable {reader} {jsString : Json → String} {s s' : State Iter}

/-- Steps in which nothing is scheduled keep the invariant. -/
theorem Inv.frame (h : Inv s)
    (hjobs : ∀ job ∈ s'.jobs, ∃ old ∈ s.jobs, old.id = job.id ∧ old.generation = job.generation)
    (htimers : ∀ t ∈ s'.timers, ∃ old ∈ s.timers, old.Continues t)
    (hlatest : ∀ job, latestTimer s'.log job = latestTimer s.log job)
    (haccepted : ∀ t ∈ s'.timers, ∀ following, t.pc = .accepted following →
      .accepted t.job t.handle t.moment ∈ s'.log)
    (hlog : Log.EachAfter Follows s'.log) : Inv s' where
  older t ht job hjob hid := by
    obtain ⟨old, hold, hsame⟩ := htimers t ht
    obtain ⟨entry, hentry, hentryId, hgeneration⟩ := hjobs job hjob
    rw [hsame.generation, ← hgeneration]
    exact h.older old hold entry hentry (by rw [hentryId, hid, hsame.job])
  current t ht job hjob hid hown := by
    obtain ⟨old, hold, hsame⟩ := htimers t ht
    obtain ⟨entry, hentry, hentryId, hgeneration⟩ := hjobs job hjob
    rw [hlatest, hsame.job, hsame.handle]
    refine h.current old hold entry hentry ?_ ?_
    · rw [hentryId, hid, hsame.job]
    · rw [← hsame.generation, hown, hgeneration]
  accepted := haccepted
  log := hlog

/-- **A schedule keeps the invariant** when every timer of the job on its way
is of an earlier generation than the new entry. -/
theorem Inv.schedule (h : Inv s) {id : JobId} (generation : Nat) (timer : Option Nat)
    (hroom : ∀ t ∈ s.timers, t.job = id → t.generation < generation)
    (hjobs : ∀ job ∈ s'.jobs, job.id = id ∧ job.generation = generation ∨
      job.id ≠ id ∧ job ∈ s.jobs)
    (htimers : ∀ t ∈ s'.timers, t ∈ s.timers ∨
      t.job = id ∧ t.generation = generation ∧ timer = some t.handle ∧ t.pc = .waiting)
    (hlog : s'.log = s.log ++ [.scheduled id timer]) : Inv s' where
  older t ht job hjob hid := by
    rcases htimers t ht with hold | ⟨hnew, hgeneration, -, -⟩
    · rcases hjobs job hjob with ⟨hjobId, hentry⟩ | ⟨-, hentry⟩
      · rw [hentry]
        exact (hroom t hold (hid.symm.trans hjobId)).le
      · exact h.older t hold job hentry hid
    · rcases hjobs job hjob with ⟨-, hentry⟩ | ⟨hne, -⟩
      · rw [hgeneration, hentry]
      · exact absurd (hid.trans hnew) hne
  current t ht job hjob hid hown := by
    rw [hlog, latestTimer_scheduled]
    rcases htimers t ht with hold | ⟨hnew, -, htimer, -⟩
    · rcases hjobs job hjob with ⟨hjobId, hentry⟩ | ⟨hne, hentry⟩
      · exact absurd (hown.trans hentry) (hroom t hold (hid.symm.trans hjobId)).ne
      · rw [if_neg fun heq => hne (hid.trans heq.symm)]
        exact h.current t hold job hentry hid hown
    · rw [if_pos hnew.symm, htimer]
  accepted t ht following hpc := by
    rw [hlog]
    rcases htimers t ht with hold | ⟨-, -, -, hwaiting⟩
    · exact List.mem_append_left _ (h.accepted t hold following hpc)
    · rw [hwaiting] at hpc
      cases hpc
  log := by
    rw [hlog]
    exact h.log.concat trivial

/-! ## The operations keep it -/

theorem continues_of_abortTimer {handle : Nat} {t t' : Timer Iter}
    (h : State.abortTimer handle t = some t') :
    t.Continues t' ∧ t'.pc = t.pc ∧ t'.moment = t.moment := by
  unfold State.abortTimer at h
  split at h
  · cases h
    exact ⟨.refl t, rfl, rfl⟩
  · split at h
    · cases h
    · cases h
      exact ⟨⟨rfl, rfl, rfl⟩, rfl, rfl⟩

/-- The timers after an abort were there before it. -/
theorem mem_abort {handle : Option Nat} {t' : Timer Iter} (h : t' ∈ (s.abort handle).timers) :
    ∃ t ∈ s.timers, t.Continues t' ∧ t'.pc = t.pc ∧ t'.moment = t.moment := by
  cases handle with
  | none => exact ⟨t', h, .refl t', rfl, rfl⟩
  | some handle =>
    obtain ⟨t, ht, hstep⟩ := List.mem_filterMap.1 h
    exact ⟨t, ht, continues_of_abortTimer hstep⟩

@[simp] theorem abort_jobs (s : State Iter) (handle : Option Nat) :
    (s.abort handle).jobs = s.jobs := by
  cases handle <;> rfl

@[simp] theorem abort_log (s : State Iter) (handle : Option Nat) :
    (s.abort handle).log = s.log := by
  cases handle <;> rfl

theorem Inv.abort (h : Inv s) (handle : Option Nat) : Inv (s.abort handle) := by
  refine h.frame (fun job hjob => ⟨job, by simpa using hjob, rfl, rfl⟩) ?_ (by simp) ?_
    (by simpa using h.log)
  · intro t' ht'
    obtain ⟨t, ht, hsame, -⟩ := mem_abort ht'
    exact ⟨t, ht, hsame⟩
  · intro t' ht' following hpc
    obtain ⟨t, ht, hsame, hpcSame, hmoment⟩ := mem_abort ht'
    rw [abort_log, hsame.job, hsame.handle, hmoment]
    exact h.accepted t ht following (hpcSame.symm.trans hpc)

/-- Aborting the timers of a list of entries. -/
theorem foldl_abort (jobs : List Scheduled) (h : Inv s) :
    Inv (jobs.foldl (fun s job => s.abort job.timer) s) ∧
      ∀ t' ∈ (jobs.foldl (fun s job => s.abort job.timer) s).timers,
        ∃ t ∈ s.timers, t.Continues t' := by
  induction jobs generalizing s with
  | nil => exact ⟨h, fun t' ht' => ⟨t', ht', .refl t'⟩⟩
  | cons job jobs ih =>
    obtain ⟨hinv, hfrom⟩ := ih (h.abort job.timer)
    refine ⟨hinv, fun t' ht' => ?_⟩
    obtain ⟨t, ht, hsame⟩ := hfrom t' ht'
    obtain ⟨t₀, ht₀, hsame₀, -⟩ := mem_abort ht
    exact ⟨t₀, ht₀, hsame.handle.trans hsame₀.handle, hsame.job.trans hsame₀.job,
      hsame.generation.trans hsame₀.generation⟩

theorem Inv.dropJobs (h : Inv s) : Inv s.dropJobs := by
  have hdropped := (foldl_abort s.jobs h).1
  exact hdropped.frame (fun _ hjob => absurd hjob List.not_mem_nil)
    (fun t ht => ⟨t, ht, .refl t⟩) (fun _ => rfl) hdropped.accepted hdropped.log

theorem mem_dropJobs (h : Inv s) {t' : Timer Iter} (ht' : t' ∈ s.dropJobs.timers) :
    ∃ t ∈ s.timers, t.Continues t' := (foldl_abort s.jobs h).2 t' ht'

theorem Inv.stop (h : Inv s) : Inv s.stop :=
  h.dropJobs.frame (fun job hjob => ⟨job, hjob, rfl, rfl⟩) (fun t ht => ⟨t, ht, .refl t⟩)
    (fun _ => rfl) h.dropJobs.accepted h.dropJobs.log

/-- The generation a turn of `start` schedules a job with. -/
def generationOf (previous : List (JobId × Nat)) (id : JobId) : Nat :=
  ((previous.find? (·.1 = id)).map Prod.snd).getD 0

/-- What a turn of `start`'s loop adds. -/
theorem scheduleJob_spec (reader : CronReader Iter) (jsString : Json → String)
    (schedules : JobId → Json) (previous : List (JobId × Nat))
    (s : State Iter) (id : JobId) :
    ∃ (entry : Scheduled) (timer : Option Nat),
      entry.id = id ∧ entry.generation = generationOf previous id ∧
      (scheduleJob reader jsString schedules previous s id).jobs = s.jobs ++ [entry] ∧
      (scheduleJob reader jsString schedules previous s id).log
        = s.log ++ [.scheduled id timer] ∧
      ∀ t ∈ (scheduleJob reader jsString schedules previous s id).timers, t ∈ s.timers ∨
        t.job = id ∧ t.generation = generationOf previous id ∧ timer = some t.handle ∧
          t.pc = .waiting := by
  unfold scheduleJob
  cases plan reader (jsString (schedules id)) s.now with
  | none => exact ⟨_, none, rfl, rfl, rfl, rfl, fun t ht => .inl ht⟩
  | some planned =>
    refine ⟨_, some s.nextHandle, rfl, rfl, rfl, rfl, fun t ht => ?_⟩
    rcases List.mem_append.1 ht with hold | hnew
    · exact .inl hold
    · obtain rfl := List.mem_singleton.1 hnew
      exact .inr ⟨rfl, rfl, rfl, rfl⟩

/-- `start`'s loop, over jobs whose timers on their way are all of earlier
generations. -/
theorem Inv.scheduleJobs (schedules : JobId → Json) (previous : List (JobId × Nat))
    {ids : List JobId} (hnodup : ids.Nodup) (h : Inv s)
    (hroom : ∀ t ∈ s.timers, t.job ∈ ids → t.generation < generationOf previous t.job)
    (hunlisted : ∀ job ∈ s.jobs, job.id ∉ ids) :
    Inv (ids.foldl (scheduleJob reader jsString schedules previous) s) := by
  induction ids generalizing s with
  | nil => exact h
  | cons id ids ih =>
    obtain ⟨entry, timer, hid, hgeneration, hjobs, hlog, htimers⟩ :=
      scheduleJob_spec reader jsString schedules previous s id
    obtain ⟨hnot, hnodup⟩ := List.nodup_cons.1 hnodup
    refine ih hnodup ?_ ?_ ?_
    · refine h.schedule (generationOf previous id) timer ?_ ?_ htimers hlog
      · rintro t ht rfl
        exact hroom t ht List.mem_cons_self
      · intro job hjob
        rw [hjobs] at hjob
        rcases List.mem_append.1 hjob with hold | hnew
        · exact .inr ⟨fun heq => hunlisted job hold (heq ▸ List.mem_cons_self), hold⟩
        · obtain rfl := List.mem_singleton.1 hnew
          exact .inl ⟨hid, hgeneration⟩
    · intro t ht hmem
      rcases htimers t ht with hold | ⟨hnew, -⟩
      · exact hroom t hold (List.mem_cons_of_mem _ hmem)
      · exact absurd (hnew ▸ hmem) hnot
    · intro job hjob hmem
      rw [hjobs] at hjob
      rcases List.mem_append.1 hjob with hold | hnew
      · exact hunlisted job hold (List.mem_cons_of_mem _ hmem)
      · obtain rfl := List.mem_singleton.1 hnew
        exact hnot (hid ▸ hmem)

/-- No job comes back while a timer of it is on its way. -/
def NoneReturns (s : State Iter) (server : Option Int) : Prop :=
  ∀ id ∈ jobsOf server, s.job? id = none → ∀ t ∈ s.timers, t.job ≠ id

theorem generationOf_nextGenerations {job : Scheduled} {id : JobId} (h : s.job? id = some job) :
    generationOf s.nextGenerations id = job.generation + 1 := by
  have hfind : s.nextGenerations.find? (·.1 = id)
      = (s.job? id).map fun job => (job.id, job.generation + 1) := by
    rw [State.nextGenerations, List.find?_map]
    rfl
  rw [generationOf, hfind, h]
  rfl

theorem mem_of_job? {job : Scheduled} {id : JobId} (h : s.job? id = some job) :
    job ∈ s.jobs ∧ job.id = id := by
  refine ⟨List.mem_of_find?_eq_some h, ?_⟩
  simpa using List.find?_some h

theorem Inv.start (h : Inv s) {server : Option Int} (schedules : JobId → Json)
    (hreturns : s.stopped = true ∨ NoneReturns s server) :
    Inv (start reader jsString s server schedules) := by
  unfold Scheduler.start
  split
  · exact h
  · rename_i hstopped
    have hreturns : NoneReturns s server := hreturns.resolve_left hstopped
    refine h.dropJobs.scheduleJobs schedules _ (nodup_jobsOf server) ?_ ?_
    · intro t' ht' hmem
      obtain ⟨t, ht, hsame⟩ := mem_dropJobs h ht'
      cases hjob : s.job? t'.job with
      | none => exact absurd hsame.job.symm (hreturns t'.job hmem hjob t ht)
      | some job =>
        obtain ⟨hmemJob, hid⟩ := mem_of_job? hjob
        have hle := h.older t ht job hmemJob (hid.trans hsame.job)
        rw [generationOf_nextGenerations hjob, hsame.generation]
        exact Nat.lt_succ_of_le hle
    · exact fun job hjob => absurd hjob List.not_mem_nil

theorem mem_setJob {job : Scheduled} {entry : Scheduled} (h : entry ∈ (s.setJob job).jobs) :
    entry = job ∨ entry.id ≠ job.id ∧ entry ∈ s.jobs := by
  obtain ⟨old, hold, heq⟩ := List.mem_map.1 h
  split at heq
  · exact .inl heq.symm
  · rename_i hne
    obtain rfl := heq
    exact .inr ⟨hne, hold⟩

theorem Inv.reschedule (h : Inv s) (id : JobId) (spec : Option String) :
    Inv (reschedule reader s id spec).1 := by
  unfold Scheduler.reschedule
  cases hjob : s.job? id with
  | none => exact h
  | some job =>
    obtain ⟨hmem, hid⟩ := mem_of_job? hjob
    have haborted : Inv (s.abort job.timer) := h.abort job.timer
    have hroom : ∀ t ∈ (s.abort job.timer).timers, t.job = id →
        t.generation < job.generation + 1 := by
      rintro t ht rfl
      have hle := haborted.older t ht job (by simpa using hmem) hid
      exact Nat.lt_succ_of_le hle
    dsimp only
    split
    · exact h
    · split
      · refine haborted.schedule _ none hroom ?_ (fun t ht => .inl ht) rfl
        intro entry hentry
        rcases mem_setJob hentry with rfl | ⟨hne, hold⟩
        · exact .inl ⟨hid, rfl⟩
        · exact .inr ⟨fun heq => hne (heq.trans hid.symm), hold⟩
      · refine haborted.schedule _ (some (s.abort job.timer).nextHandle) hroom ?_ ?_ rfl
        · intro entry hentry
          rcases mem_setJob hentry with rfl | ⟨hne, hold⟩
          · exact .inl ⟨hid, rfl⟩
          · exact .inr ⟨fun heq => hne (heq.trans hid.symm), hold⟩
        · intro t ht
          rcases List.mem_append.1 ht with hold | hnew
          · exact .inl hold
          · obtain rfl := List.mem_singleton.1 hnew
            exact .inr ⟨rfl, rfl, rfl, rfl⟩

/-! ## The timers keep it -/

theorem mem_of_timer? {handle : Nat} {t : Timer Iter} (h : s.timer? handle = some t) :
    t ∈ s.timers ∧ t.handle = handle := by
  refine ⟨List.mem_of_find?_eq_some h, ?_⟩
  simpa using List.find?_some h

theorem mem_setTimer {t t' : Timer Iter} (h : t' ∈ (s.setTimer t).timers) :
    t' = t ∨ t' ∈ s.timers := by
  obtain ⟨old, hold, heq⟩ := List.mem_map.1 h
  split at heq
  · exact .inl heq.symm
  · exact .inr (heq ▸ hold)

theorem mem_endTimer {handle : Nat} {t : Timer Iter} (h : t ∈ (s.endTimer handle).timers) :
    t ∈ s.timers := (List.mem_filter.1 h).1

theorem Inv.endTimer (h : Inv s) (handle : Nat) : Inv (s.endTimer handle) :=
  h.frame (fun job hjob => ⟨job, hjob, rfl, rfl⟩) (fun t ht => ⟨t, mem_endTimer ht, .refl t⟩)
    (fun _ => rfl) (fun t ht => h.accepted t (mem_endTimer ht)) h.log

/-- A timer that goes on without being accepted. -/
theorem Inv.setTimer (h : Inv s) {t t' : Timer Iter} (ht : t ∈ s.timers) (hsame : t.Continues t')
    (hpc : ∀ following, t'.pc ≠ .accepted following) : Inv (s.setTimer t') := by
  refine h.frame (fun job hjob => ⟨job, hjob, rfl, rfl⟩) ?_ (fun _ => rfl) ?_ h.log
  · intro u hu
    rcases mem_setTimer hu with rfl | hold
    · exact ⟨t, ht, hsame⟩
    · exact ⟨u, hold, .refl u⟩
  · intro u hu following hfollowing
    rcases mem_setTimer hu with rfl | hold
    · exact absurd hfollowing (hpc following)
    · exact h.accepted u hold following hfollowing

/-- What `set_next` asks of the timer it accepts. -/
theorem setNext_spec {id : JobId} {generation : Nat} {next : Option Int}
    (h : setNext s id generation next = some s') :
    ∃ job ∈ s.jobs, job.id = id ∧ job.generation = generation ∧
      s' = s.setJob { job with next := next } := by
  unfold setNext at h
  split at h
  · cases h
  · rename_i job hjob
    split at h
    · cases h
    · rename_i hgeneration
      obtain ⟨hmem, hid⟩ := mem_of_job? hjob
      exact ⟨job, hmem, hid, not_not.1 hgeneration, (Option.some.inj h).symm⟩

theorem Inv.reach (h : Inv s) {t : Timer Iter} (ht : t ∈ s.timers) : Inv (reach reader s t) := by
  unfold Scheduler.reach
  dsimp only
  split
  · exact h.endTimer t.handle
  · rename_i s' hset
    obtain ⟨job, hjob, hid, hgeneration, rfl⟩ := setNext_spec hset
    have hlatest : latestTimer s.log t.job = some t.handle :=
      h.current t ht job hjob hid hgeneration.symm
    refine h.frame ?_ ?_ (fun _ => latestTimer_accepted _ _ _ _ _) ?_ (h.log.concat hlatest)
    · intro entry hentry
      rcases mem_setJob hentry with rfl | ⟨-, hold⟩
      · exact ⟨job, hjob, rfl, rfl⟩
      · exact ⟨entry, hold, rfl, rfl⟩
    · intro u hu
      rcases mem_setTimer hu with rfl | hold
      · exact ⟨t, ht, rfl, rfl, rfl⟩
      · exact ⟨u, hold, .refl u⟩
    · intro u hu following hfollowing
      rcases mem_setTimer hu with rfl | hold
      · exact List.mem_append_right _ List.mem_cons_self
      · exact List.mem_append_left _ (h.accepted u hold following hfollowing)

theorem Inv.invoked (h : Inv s) {t : Timer Iter} (ht : t ∈ s.timers) {following : Option Int}
    (hpc : t.pc = .accepted following) : Inv (s.record (.invoked t.job t.handle t.moment)) := by
  have hfollows : Follows s.log (.invoked t.job t.handle t.moment) := h.accepted t ht _ hpc
  refine h.frame (fun job hjob => ⟨job, hjob, rfl, rfl⟩) (fun u hu => ⟨u, hu, .refl u⟩)
    (fun _ => latestTimer_invoked _ _ _ _ _) ?_ (h.log.concat hfollows)
  exact fun u hu following hu' => List.mem_append_left _ (h.accepted u hu following hu')

theorem Inv.fire (h : Inv s) {t : Timer Iter} (ht : t ∈ s.timers) {following : Option Int}
    (hpc : t.pc = .accepted following) (deferred : Bool) :
    Inv (fire s t following deferred) := by
  have hinvoked : Inv (if s.stopped = true ∨ deferred = true then s
      else s.record (.invoked t.job t.handle t.moment)) := by
    split
    · exact h
    · exact h.invoked ht hpc
  have hmem : t ∈ (if s.stopped = true ∨ deferred = true then s
      else s.record (.invoked t.job t.handle t.moment)).timers := by
    split <;> exact ht
  unfold Scheduler.fire
  cases following with
  | none => exact hinvoked.endTimer t.handle
  | some next => exact hinvoked.setTimer hmem ⟨rfl, rfl, rfl⟩ (fun _ heq => by cases heq)

theorem Inv.sleep (h : Inv s) {t : Timer Iter} (ht : t ∈ s.timers) : Inv (sleep s t) := by
  unfold Scheduler.sleep
  split
  · exact h.setTimer ht ⟨rfl, rfl, rfl⟩ (fun _ heq => by cases heq)
  · split
    · exact h.endTimer t.handle
    · exact h.setTimer ht ⟨rfl, rfl, rfl⟩ (fun _ heq => by cases heq)

/-! ## Runs -/

/-- Where a step is to be taken. -/
def Ok (s : State Iter) : Event → Prop
  | .start server _ => s.stopped = true ∨ NoneReturns s server
  | _ => True

instance (s : State Iter) (server : Option Int) : Decidable (NoneReturns s server) :=
  inferInstanceAs (Decidable (∀ id ∈ jobsOf server, s.job? id = none →
    ∀ t ∈ s.timers, t.job ≠ id))

instance (s : State Iter) : (event : Event) → Decidable (Ok s event)
  | .start server _ => inferInstanceAs (Decidable (s.stopped = true ∨ NoneReturns s server))
  | .reschedule _ _ => .isTrue trivial
  | .stop => .isTrue trivial
  | .clock _ => .isTrue trivial
  | .wake _ => .isTrue trivial
  | .setNext _ => .isTrue trivial
  | .invoke _ _ => .isTrue trivial
  | .sleep _ => .isTrue trivial

theorem Inv.step {event : Event} (h : Inv s) (hok : Ok s event)
    (hstep : Step reader jsString s event s') : Inv s' := by
  unfold Step Scheduler.step at hstep
  cases event with
  | start server schedules =>
    cases hstep
    exact h.start schedules hok
  | reschedule id spec =>
    cases hstep
    exact h.reschedule id spec
  | stop =>
    cases hstep
    exact h.stop
  | clock now =>
    cases hstep
    exact h.frame (fun job hjob => ⟨job, hjob, rfl, rfl⟩) (fun t ht => ⟨t, ht, .refl t⟩)
      (fun _ => rfl) h.accepted h.log
  | wake handle =>
    obtain ⟨t, ht, hstep⟩ := Option.bind_eq_some_iff.1 hstep
    split at hstep
    · cases hstep
      exact h.setTimer (mem_of_timer? ht).1 ⟨rfl, rfl, rfl⟩ (fun _ heq => by cases heq)
    · cases hstep
  | setNext handle =>
    obtain ⟨t, ht, hstep⟩ := Option.bind_eq_some_iff.1 hstep
    split at hstep
    · cases hstep
      exact h.reach (mem_of_timer? ht).1
    · cases hstep
  | invoke handle deferred =>
    obtain ⟨t, ht, hstep⟩ := Option.bind_eq_some_iff.1 hstep
    split at hstep
    · rename_i following hpc
      cases hstep
      exact h.fire (mem_of_timer? ht).1 hpc deferred
    · cases hstep
  | sleep handle =>
    obtain ⟨t, ht, hstep⟩ := Option.bind_eq_some_iff.1 hstep
    split at hstep
    · cases hstep
      exact h.sleep (mem_of_timer? ht).1
    · cases hstep

theorem inv_start : Inv ({} : State Iter) where
  older _ ht := absurd ht List.not_mem_nil
  current _ ht := absurd ht List.not_mem_nil
  accepted _ ht := absurd ht List.not_mem_nil
  log := Log.eachAfter_nil

/-- **Only the latest timer of a job fires it**, in every run in which no job
comes back to the list while a timer of an earlier schedule of it is on its
way. -/
theorem latest_timer_fires (reader : CronReader Iter) (jsString : Json → String)
    {events : List Event}
    (h : Run (Guarded (Step reader jsString) Ok) ({} : State Iter) events s) :
    FiredByLatest s.log := by
  have hinv : Inv s :=
    h.invariant (fun _ _ _ hs hstep => Inv.step hs hstep.1 hstep.2) inv_start
  exact firedByLatest_of_follows hinv.log

/-! ## A timer of an earlier list -/

/-- A reader of one cron string, the one of every minute. -/
def everyMinute : CronReader Int where
  iter spec now := if spec = "0 * * * * *" then some now else none
  nextAfter from' :=
    let minute := (from' / 60000 + 1) * 60000
    some (minute, minute)

/-- The text of a schedule. -/
def textOf : Json → String
  | .str text => text
  | _ => "undefined"

/-- Settings with every job at every minute. -/
def minutely : JobId → Json := fun _ => .str "0 * * * * *"

/-- A timer that is past its moment when its job is rescheduled, and the new
one. -/
def rescheduleEvents : List Event :=
  [.start (some 1) minutely, .clock 60000, .wake 1, .reschedule .plexFullScan (some "0 * * * * *"),
    .setNext 1, .clock 120000, .wake 14, .setNext 14, .invoke 14 false, .start (some 1) minutely]

theorem latest_timer_fires_rescheduled : ∃ s : State Int, FiredByLatest s.log ∧
    .invoked .plexFullScan 14 120000 ∈ s.log := by
  have hrun : ∃ s, rescheduleEvents.foldlM (fun s event =>
        if Ok s event then step everyMinute textOf s event else none) ({} : State Int) = some s ∧
      .invoked .plexFullScan 14 120000 ∈ s.log := by
    decide +kernel
  obtain ⟨s, hs, hinvoked⟩ := hrun
  exact ⟨s, latest_timer_fires everyMinute textOf (Run.of_foldlM_guard hs), hinvoked⟩

/-- Plex, then Jellyfin, then Plex again, while the timer of the first Plex
scan is past its moment. -/
def returnEvents : List Event :=
  [.start (some 1) minutely, .clock 60000, .wake 1, .start (some 2) minutely,
    .start (some 1) minutely, .setNext 1, .invoke 1 false]

/-- **A late timer fires a job it no longer belongs to.** The full scan comes
back at generation zero, which is the generation of its first timer, and that
timer is accepted although the latest one is another. -/
theorem late_timer_fires :
    ∃ s : State Int, Run (Step everyMinute textOf) {} returnEvents s ∧ ¬ FiredByLatest s.log := by
  have hrun : ∃ s, returnEvents.foldlM (step everyMinute textOf) ({} : State Int) = some s ∧
      s.log[40]? = some (.accepted .plexFullScan 1 60000) ∧
      latestTimer (s.log.take 40) .plexFullScan = some 27 := by
    decide +kernel
  obtain ⟨s, hs, haccepted, hlatest⟩ := hrun
  refine ⟨s, Run.of_foldlM hs, fun hfired => ?_⟩
  obtain ⟨hlt, hget⟩ := List.getElem?_eq_some_iff.1 haccepted
  have hsplit : s.log = s.log.take 40 ++ .accepted .plexFullScan 1 60000 :: s.log.drop 41 := by
    rw [← hget, ← List.drop_eq_getElem_cons hlt, List.take_append_drop]
  have heq := hfired.latest _ _ _ _ _ hsplit
  rw [hlatest] at heq
  cases heq

end Scheduler

end Foreseerr

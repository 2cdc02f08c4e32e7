import Foreseerr.FencedLease
import Foreseerr.ReleaseStore

/-!
# The lease of a release calendar sync

Several processes may sync one server's release calendar at once
(`jobs/release_calendar.rs`). Each `sync_server` takes the server's lease in
`release_sync_state`, fetches the calendar while it renews the lease every ten
minutes, reconciles in one transaction that starts by checking and locking the
lease row, and tells the users of the date changes it recorded.

A run is a sequence of statements, and between two of them anything may
happen: other runs' statements, the lease's end, nothing for a day. A statement
may fail without effect, or have its effect and be answered with an error. A
run may stop for good anywhere, its transaction rolled back with it. In all
these runs the syncs are fenced (`ReleaseLease.syncs_are_fenced`).

What is told the lease row is the database's: single statements are atomic,
the transaction that has the row locked keeps every other writer of it out
until it ends, and each run has an owner text of its own.
-/

namespace Foreseerr.ReleaseLease

/-- `Lease`: the owner and the fence; the source and the server are fixed. -/
abbrev Ticket := FencedLease.Ticket String

/-! ## The row -/

/-- `Mode`. -/
inductive Mode
  | incremental
  | backfill
deriving DecidableEq, Repr

/-- A `release_sync_state` row. -/
structure SyncRow where
  lease : FencedLease String Int := {}
  lastSuccessfulIncrementalAt : Option Int := none
  lastSuccessfulBackfillAt : Option Int := none
  lastErrorAt : Option Int := none
  lastError : Option String := none

/-- `LEASE_MS`. -/
def leaseMs : Int := 30 * 60 * 1000

/-- `DAY_MS`. -/
def dayMs : Int := 86400000

namespace SyncRow

/-- The fenced condition with an unexpired lease. -/
def holds (row : SyncRow) (t : Ticket) (now : Int) : Bool :=
  row.lease.isHeldBy t && row.lease.isLive now

/-- The `UPDATE` of `acquire`. -/
def acquire (row : SyncRow) (owner : String) (now : Int) : SyncRow :=
  { row with lease := row.lease.acquire owner now (now + leaseMs) }

/-- The `UPDATE` of `renew`. -/
def renew (row : SyncRow) (t : Ticket) (now : Int) : SyncRow :=
  { row with lease := row.lease.renew t now (now + leaseMs) }

/-- The `UPDATE` of `release`. -/
def release (row : SyncRow) (t : Ticket) : SyncRow :=
  { row with lease := row.lease.release t }

/-- The `UPDATE` of `mark_success`. -/
def markSuccess (row : SyncRow) (t : Ticket) (mode : Mode) (now : Int) : SyncRow :=
  if row.holds t now then
    let row := { row with lastErrorAt := none, lastError := none }
    match mode with
    | .backfill => { row with lastSuccessfulBackfillAt := some now }
    | .incremental => { row with lastSuccessfulIncrementalAt := some now }
  else row

/-- The `UPDATE` of `mark_error`. -/
def markError (row : SyncRow) (t : Ticket) (message : String) (now : Int) : SyncRow :=
  if row.holds t now then
    { row with
      lastErrorAt := some now
      lastError := some (String.ofList (message.toList.take 2048)) }
  else row

variable {row : SyncRow} {t : Ticket} {now : Int}

theorem isHeldBy_of_holds (h : row.holds t now = true) : row.lease.isHeldBy t = true :=
  (Bool.and_eq_true_iff.mp h).1

theorem holds_of_lt (h : t.fence < row.lease.fence) : row.holds t now = false := by
  unfold holds
  rw [FencedLease.isHeldBy_of_lt h]
  rfl

@[simp] theorem lease_markSuccess (mode : Mode) :
    (row.markSuccess t mode now).lease = row.lease := by
  unfold markSuccess
  split
  · cases mode <;> rfl
  · rfl

@[simp] theorem lease_markError (message : String) :
    (row.markError t message now).lease = row.lease := by
  unfold markError
  split <;> rfl

end SyncRow

/-! ## A run of `sync_server` -/

/-- `release_sync_mode`. -/
def releaseSyncMode (lastBackfill : Option Int) (now : Int) : Mode :=
  match lastBackfill with
  | some last => if now - last < dayMs then .incremental else .backfill
  | none => .backfill

/-- `calendar_window`. -/
def calendarWindow (mode : Mode) (now : Int) : Int × Int :=
  match mode with
  | .backfill => (now - 30 * dayMs, now + 365 * dayMs)
  | .incremental => (now - 7 * dayMs, now + 45 * dayMs)

/-- What `sync_held` decides before it fetches. -/
structure Plan where
  mode : Mode
  start : Int
  stop : Int
  initialBackfill : Bool

/-- The plan of a run that reads the row at a time of its own clock. -/
def planOf (row : SyncRow) (now : Int) : Plan :=
  let mode := releaseSyncMode row.lastSuccessfulBackfillAt now
  let window := calendarWindow mode now
  { mode := mode
    start := window.1
    stop := window.2
    initialBackfill := mode == .backfill && row.lastSuccessfulBackfillAt.isNone }

/-- Where a run is: what it is about to do next. -/
inductive Pc
  /-- `acquire`: the `INSERT`. -/
  | insert
  /-- `acquire`: the first read of the row. -/
  | look
  /-- `acquire`: the `UPDATE`. -/
  | take
  /-- `acquire`: the second read. -/
  | readBack
  /-- `sync_held`: the read of the row. -/
  | plan (t : Ticket)
  /-- `fetch_with_renewal`, with the last renewal's result. -/
  | fetch (t : Ticket) (plan : Plan) (renewal : Bool)
  /-- The renewal before the reconcile. -/
  | renewFetched (t : Ticket) (plan : Plan) (calendar : List Normalized) (renewal : Bool)
  /-- `reconcile`: `Tx::begin`. -/
  | begin (t : Ticket) (plan : Plan) (calendar : List Normalized)
  /-- `reconcile`: the check of the lease, in a transaction begun at a time. -/
  | check (t : Ticket) (plan : Plan) (calendar : List Normalized) (begun : Int)
  /-- `reconcile`: the reads and writes of the occurrences. -/
  | work (t : Ticket) (plan : Plan) (calendar : List Normalized)
  /-- `reconcile`: the commit of what was written. -/
  | commit (t : Ticket) (plan : Plan) (sync : ReleaseSync) (after : ReleaseStore)
      (events : ReleaseEvents)
  /-- The renewal before the notifications, with the recorded changes. -/
  | renewCommitted (t : Ticket) (plan : Plan) (changes : List Nat)
  /-- `assert_lease`. -/
  | assertLease (t : Ticket) (plan : Plan) (changes : List Nat)
  /-- `produce_events`. -/
  | produce (t : Ticket) (plan : Plan) (changes : List Nat)
  /-- `mark_success`. -/
  | markSuccess (t : Ticket) (plan : Plan)
  /-- `mark_error`. -/
  | markError (t : Ticket) (message : String)
  /-- `release`. -/
  | release (t : Ticket)
  | over

/-- A committed reconcile, with the lease row and the fences given out at
that moment. -/
structure Commit where
  ticket : Ticket
  lease : Option (FencedLease String Int)
  granted : List Ticket
  before : ReleaseStore
  sync : ReleaseSync
  after : ReleaseStore

/-- The database of one server, its clock and its runs. `lock` is the run
whose transaction has the lease row. The last four fields are history: what
the acquires returned, the committed reconciles, each recorded date change
with its run, and the changes handed to `produce_events`. -/
structure System where
  now : Int
  row : Option SyncRow := none
  store : ReleaseStore
  lock : Option String := none
  runs : String → Pc := fun _ => .insert
  granted : List Ticket := []
  commits : List Commit := []
  recorded : List (String × DateChange) := []
  handed : List (String × Nat) := []

/-- How a statement goes: done, failed without effect, or with its effect but
answered with an error. -/
inductive Outcome
  | done
  | failed
  | lost
deriving DecidableEq, Repr

/-- What a run's step reads of its process: its clock, what `media_maps`
finds, and the text of the error if it is answered with one. -/
structure Env where
  wall : Int := 0
  movieIds : Int → Option Int := fun _ => none
  seriesIds : Int → Option Int := fun _ => none
  error : String := ""

/-- What happens. -/
inductive Event
  /-- The database clock moves on. -/
  | tick (now : Int)
  /-- A run's next statement. -/
  | statement (owner : String) (outcome : Outcome) (env : Env)
  /-- A renewal while a run fetches. -/
  | renewal (owner : String) (outcome : Outcome)
  /-- A run's fetch ends, `none` with an error. -/
  | fetched (owner : String) (calendar : Option (List Normalized)) (env : Env)
  /-- A run stops for good. -/
  | stop (owner : String)

/-- What a statement does to the database. -/
inductive Effect
  | nothing
  | insert
  | acquire
  | grant (t : Ticket)
  | renew (t : Ticket)
  | lock
  | unlock
  | commit (t : Ticket) (sync : ReleaseSync) (after : ReleaseStore) (events : ReleaseEvents)
  | hand (changes : List Nat)
  | markSuccess (t : Ticket) (mode : Mode)
  | markError (t : Ticket) (message : String)
  | release (t : Ticket)

namespace System

/-- The lock after a run's transaction ends. -/
def unlocked (s : System) (owner : String) : Option String :=
  if s.lock = some owner then none else s.lock

/-- Carry out the effect of a run's statement. -/
def carryOut (s : System) (owner : String) : Effect → System
  | .nothing => s
  | .insert => { s with row := some (s.row.getD {}) }
  | .acquire => { s with row := s.row.map (·.acquire owner s.now) }
  | .grant t => { s with granted := s.granted ++ [t] }
  | .renew t => { s with row := s.row.map (·.renew t s.now) }
  | .lock => { s with lock := some owner }
  | .unlock => { s with lock := s.unlocked owner }
  | .commit t sync after events =>
    { s with
      store := after
      lock := s.unlocked owner
      commits := s.commits
        ++ [{ ticket := t, lease := s.row.map (·.lease), granted := s.granted
              before := s.store, sync := sync, after := after }]
      recorded := s.recorded ++ events.dateChanges.map fun change => (owner, change.2) }
  | .hand changes => { s with handed := s.handed ++ changes.map fun id => (owner, id) }
  | .markSuccess t mode => { s with row := s.row.map (·.markSuccess t mode s.now) }
  | .markError t message => { s with row := s.row.map (·.markError t message s.now) }
  | .release t => { s with row := s.row.map (·.release t) }

/-- The system with a run elsewhere. -/
def goto (s : System) (owner : String) (pc : Pc) : System :=
  { s with runs := Function.update s.runs owner pc }

/-- The lease of the row; there is none before the first `INSERT`. -/
def lease (s : System) : FencedLease String Int := (s.row.map (·.lease)).getD {}

/-- Whether the fenced condition with an unexpired lease holds. -/
def holds (s : System) (t : Ticket) (now : Int) : Bool := s.row.any (·.holds t now)

end System

/-- "Release calendar sync lease is no longer owned". -/
def notOwned : String := "Release calendar sync lease is no longer owned"

/-- A statement's outcome: where the run goes next with its effect, or where
an error takes it. -/
def settle (outcome : Outcome) (next : Pc) (effect : Effect) (onError : Pc) : Pc × Effect :=
  match outcome with
  | .done => (next, effect)
  | .failed => (onError, .nothing)
  | .lost => (onError, effect)

/-- What a run does that reads only. -/
def reads (outcome : Outcome) (next onError : Pc) : Pc × Effect :=
  settle outcome next .nothing onError

/-- What a statement does that writes the row. While the row is locked it has
to wait, and can only be given up. -/
def writes (s : System) (outcome : Outcome) (next : Pc) (effect : Effect) (onError : Pc) :
    Option (Pc × Effect) :=
  if s.lock.isSome ∧ outcome ≠ .failed then none else some (settle outcome next effect onError)

/-- What a transaction's statement does; an error rolls it back. -/
def inTx (outcome : Outcome) (next : Pc) (effect : Effect) (onError : Pc) : Pc × Effect :=
  match outcome with
  | .done => (next, effect)
  | .failed => (onError, .unlock)
  | .lost => (onError, .unlock)

section Step

variable (jsString : Json → String) (pg : Bool)

/-- **The next statement of a run**: where it goes and what the statement
does, or nothing while the row is locked. On Postgres a transaction's
`CURRENT_TIMESTAMP` is the time it began; on SQLite it has the write lock from
its beginning. -/
def next (s : System) (owner : String) (outcome : Outcome) (env : Env) :
    Pc → Option (Pc × Effect)
  | .insert => some (settle outcome .look .insert .over)
  | .look => some (reads outcome (if s.row.isSome then .take else .over) .over)
  | .take =>
    writes s outcome (if s.row.any (·.lease.isFree s.now) then .readBack else .over) .acquire .over
  | .readBack =>
    match s.row with
    | some row =>
      if row.lease.owner = some owner ∧ row.lease.expires.isSome ∧ outcome = .done then
        some (.plan ⟨owner, row.lease.fence⟩, .grant ⟨owner, row.lease.fence⟩)
      else some (.over, .nothing)
    | none => some (.over, .nothing)
  | .plan t =>
    match s.row with
    | some row =>
      some (reads outcome (.fetch t (planOf row env.wall) true) (.markError t env.error))
    | none => some (.markError t "no release sync state row", .nothing)
  | .fetch .. => none
  | .renewFetched t plan calendar renewal =>
    if renewal = false then
      some (.markError t "Release calendar sync lease was lost before reconcile", .nothing)
    else
      writes s outcome
        (if s.holds t s.now then .begin t plan calendar
          else .markError t "Release calendar sync lease was lost before reconcile")
        (.renew t) (.markError t env.error)
  | .begin t plan calendar =>
    if pg then some (reads outcome (.check t plan calendar s.now) (.markError t env.error))
    else if s.lock.isSome ∧ outcome = .done then none
    else some (inTx outcome (.check t plan calendar s.now) .lock (.markError t env.error))
  | .check t plan calendar begun =>
    if s.holds t (if pg then begun else s.now) then
      if s.lock ≠ none ∧ s.lock ≠ some owner ∧ outcome = .done then none
      else some (inTx outcome (.work t plan calendar) .lock (.markError t env.error))
    else some (.markError t (if outcome = .done then notOwned else env.error), .unlock)
  | .work t plan calendar =>
    let sync : ReleaseSync :=
      { occurrences := calendar, start := plan.start, stop := plan.stop
        initialBackfill := plan.initialBackfill, now := env.wall
        movieIds := env.movieIds, seriesIds := env.seriesIds }
    match s.store.reconcile jsString sync with
    | some (after, events, _) =>
      some (inTx outcome (.commit t plan sync after events) .nothing (.markError t env.error))
    | none => some (.markError t env.error, .unlock)
  | .commit t plan sync after events =>
    let changes := (List.range events.dateChanges.length).map (s.recorded.length + ·)
    match outcome with
    | .done => some (.renewCommitted t plan changes, .commit t sync after events)
    | .failed => some (.markError t env.error, .unlock)
    | .lost => some (.markError t env.error, .commit t sync after events)
  | .renewCommitted t plan changes =>
    writes s outcome
      (if s.holds t s.now then .assertLease t plan changes
        else .markError t "Release calendar sync lease was lost before notifications")
      (.renew t) (.markError t env.error)
  | .assertLease t plan changes =>
    some (reads outcome
      (if s.holds t s.now then .produce t plan changes else .markError t notOwned)
      (.markError t env.error))
  | .produce t plan changes => some (.markSuccess t plan, .hand changes)
  | .markSuccess t plan =>
    writes s outcome
      (if s.holds t s.now then .release t
        else .markError t "Release calendar sync lease was lost before completion")
      (.markSuccess t plan.mode) (.markError t env.error)
  | .markError t message => writes s outcome (.release t) (.markError t message) (.release t)
  | .release t => writes s outcome .over (.release t) .over
  | .over => none

/-- Where an event takes its run, and its effect. -/
def react (s : System) : Event → Option (String × Pc × Effect)
  | .tick _ => none
  | .statement owner outcome env =>
    (next jsString pg s owner outcome env (s.runs owner)).map fun r => (owner, r)
  | .renewal owner outcome =>
    match s.runs owner with
    | .fetch t plan _ =>
      (writes s outcome (.fetch t plan (s.holds t s.now)) (.renew t) (.fetch t plan false)).map
        fun r => (owner, r)
    | _ => none
  | .fetched owner calendar env =>
    match s.runs owner with
    | .fetch t plan renewal =>
      some (owner, match calendar with
        | some calendar => .renewFetched t plan calendar renewal
        | none => .markError t env.error, .nothing)
    | _ => none
  | .stop owner => some (owner, .over, .unlock)

/-- One step of the system. -/
def step (s : System) (event : Event) : Option System :=
  match event with
  | .tick now => if s.now ≤ now then some { s with now := now } else none
  | event => (react jsString pg s event).map fun (owner, pc, effect) =>
      (s.carryOut owner effect).goto owner pc

/-- `step`, as a relation. -/
def Step (s : System) (event : Event) (t : System) : Prop := step jsString pg s event = some t

end Step

/-! ## What a run has -/

namespace Pc

/-- The ticket a run works under. -/
def ticket : Pc → Option Ticket
  | .insert | .look | .take | .readBack | .over => none
  | .plan t | .fetch t .. | .renewFetched t .. | .begin t .. | .check t .. | .work t ..
  | .commit t .. | .renewCommitted t .. | .assertLease t .. | .produce t .. | .markSuccess t ..
  | .markError t _ | .release t => some t

/-- A run that has not been given a ticket yet. -/
def waits : Pc → Bool
  | .insert | .look | .take | .readBack => true
  | _ => false

/-- A run whose transaction has the row. -/
def locks : Pc → Bool
  | .work .. | .commit .. => true
  | _ => false

/-- The recorded changes a run is about to hand on. -/
def changes : Pc → List Nat
  | .renewCommitted _ _ changes | .assertLease _ _ changes | .produce _ _ changes => changes
  | _ => []

end Pc

/-! ## What a statement can do -/

/-- A step to a place with nothing a run did not have. -/
structure Pc.Follows (pc' pc : Pc) : Prop where
  ticket : ∀ t, pc'.ticket = some t → pc.ticket = some t
  waits : pc'.waits = true → pc.waits = true
  changes : ∀ id ∈ pc'.changes, id ∈ pc.changes
  locks : pc'.locks = false

/-- The effects on the row and its lock, each under its conditions. -/
inductive Effect.OnRow (s : System) (pc : Pc) : Effect → Prop
  | nothing : OnRow s pc .nothing
  | unlock : OnRow s pc .unlock
  | lock (hfree : s.lock = none) : OnRow s pc .lock
  | insert (hpc : pc.ticket = none) : OnRow s pc .insert
  | acquire (hpc : pc.ticket = none) (hfree : s.lock = none) : OnRow s pc .acquire
  | renew {t : Ticket} (hpc : pc.ticket = some t) (hfree : s.lock = none) : OnRow s pc (.renew t)
  | markSuccess {t : Ticket} {mode : Mode} (hpc : pc.ticket = some t) (hfree : s.lock = none) :
      OnRow s pc (.markSuccess t mode)
  | markError {t : Ticket} {message : String} (hpc : pc.ticket = some t) (hfree : s.lock = none) :
      OnRow s pc (.markError t message)
  | release {t : Ticket} (hpc : pc.ticket = some t) (hfree : s.lock = none) :
      OnRow s pc (.release t)

/-- **What a run's step can be.** -/
inductive Does (jsString : Json → String) (s : System) (owner : String) (pc : Pc) :
    Pc → Effect → Prop
  | onRow {pc' : Pc} {effect : Effect} (hfollows : pc'.Follows pc)
      (heffect : effect.OnRow s pc) : Does jsString s owner pc pc' effect
  | grant {row : SyncRow} (hpc : pc = .readBack) (hrow : s.row = some row)
      (howner : row.lease.owner = some owner) :
      Does jsString s owner pc (.plan ⟨owner, row.lease.fence⟩) (.grant ⟨owner, row.lease.fence⟩)
  | lock {t : Ticket} {plan : Plan} {calendar : List Normalized} {begun : Int} {row : SyncRow}
      (hpc : pc = .check t plan calendar begun) (hfree : s.lock = none ∨ s.lock = some owner)
      (hrow : s.row = some row) (hheld : row.lease.isHeldBy t = true) :
      Does jsString s owner pc (.work t plan calendar) .lock
  | stage {t : Ticket} {plan : Plan} {calendar : List Normalized} {sync : ReleaseSync}
      {after : ReleaseStore} {events : ReleaseEvents} {result : SyncResult}
      (hpc : pc = .work t plan calendar)
      (hafter : s.store.reconcile jsString sync = some (after, events, result)) :
      Does jsString s owner pc (.commit t plan sync after events) .nothing
  | commit {t : Ticket} {plan : Plan} {sync : ReleaseSync} {after : ReleaseStore}
      {events : ReleaseEvents} {pc' : Pc} (hpc : pc = .commit t plan sync after events)
      (hticket : ∀ t', pc'.ticket = some t' → t' = t) (hwaits : pc'.waits = false)
      (hlocks : pc'.locks = false)
      (hchanges : ∀ id ∈ pc'.changes, s.recorded.length ≤ id
        ∧ id < s.recorded.length + events.dateChanges.length) :
      Does jsString s owner pc pc' (.commit t sync after events)
  | hand {t : Ticket} {plan : Plan} {changes : List Nat} (hpc : pc = .produce t plan changes) :
      Does jsString s owner pc (.markSuccess t plan) (.hand changes)

section Spec

variable {jsString : Json → String} {pg : Bool} {s : System} {owner : String}
  {outcome : Outcome} {env : Env} {pc pc' n onError : Pc} {effect e : Effect}

theorem reads_cases (h : reads outcome n onError = (pc', effect)) :
    (pc' = n ∨ pc' = onError) ∧ effect = .nothing := by
  cases outcome <;> obtain ⟨rfl, rfl⟩ := Prod.mk.inj h
  · exact ⟨.inl rfl, rfl⟩
  · exact ⟨.inr rfl, rfl⟩
  · exact ⟨.inr rfl, rfl⟩

theorem writes_cases (h : writes s outcome n e onError = some (pc', effect)) :
    (pc' = n ∨ pc' = onError) ∧ (effect = .nothing ∨ effect = e ∧ s.lock = none) := by
  unfold writes at h
  split at h
  · cases h
  · next hfree =>
    have hlock : outcome ≠ .failed → s.lock = none := by
      intro hne
      by_contra hsome
      exact hfree ⟨Option.isSome_iff_ne_none.mpr hsome, hne⟩
    cases outcome <;> obtain ⟨rfl, rfl⟩ := Prod.mk.inj (Option.some.inj h)
    · exact ⟨.inl rfl, .inr ⟨rfl, hlock (by decide)⟩⟩
    · exact ⟨.inr rfl, .inl rfl⟩
    · exact ⟨.inr rfl, .inr ⟨rfl, hlock (by decide)⟩⟩

theorem inTx_cases (h : inTx outcome n e onError = (pc', effect)) :
    pc' = n ∧ effect = e ∧ outcome = .done ∨ pc' = onError ∧ effect = .unlock := by
  cases outcome <;> obtain ⟨rfl, rfl⟩ := Prod.mk.inj h
  · exact .inl ⟨rfl, rfl, rfl⟩
  · exact .inr ⟨rfl, rfl⟩
  · exact .inr ⟨rfl, rfl⟩

/-- A read leads on where the run has nothing new. -/
theorem does_of_reads (hn : n.Follows pc) (herror : onError.Follows pc)
    (h : reads outcome n onError = (pc', effect)) : Does jsString s owner pc pc' effect := by
  obtain ⟨hpc', rfl⟩ := reads_cases h
  refine .onRow ?_ .nothing
  rcases hpc' with rfl | rfl
  · exact hn
  · exact herror

/-- So does a write of the row. -/
theorem does_of_writes (hn : n.Follows pc) (herror : onError.Follows pc)
    (he : s.lock = none → e.OnRow s pc) (h : writes s outcome n e onError = some (pc', effect)) :
    Does jsString s owner pc pc' effect := by
  obtain ⟨hpc', heffect⟩ := writes_cases h
  refine .onRow ?_ ?_
  · rcases hpc' with rfl | rfl
    · exact hn
    · exact herror
  · rcases heffect with rfl | ⟨rfl, hfree⟩
    · exact .nothing
    · exact he hfree

theorem Pc.Follows.ite {c : Prop} [Decidable c] {a b : Pc} (ha : a.Follows pc)
    (hb : b.Follows pc) : (if c then a else b).Follows pc := by
  split
  · exact ha
  · exact hb

/-- The end of a run, and its way there, have nothing new. -/
theorem follows_over : Pc.over.Follows pc := ⟨by simp [Pc.ticket], by simp [Pc.waits],
  by simp [Pc.changes], rfl⟩

theorem follows_markError {t : Ticket} (ht : pc.ticket = some t) (message : String) :
    (Pc.markError t message).Follows pc :=
  ⟨fun _ h => h ▸ ht, by simp [Pc.waits], by simp [Pc.changes], rfl⟩

/-- A place further on under the same ticket has nothing new. -/
theorem follows_of_ticket (hticket : pc'.ticket = pc.ticket) (hwaits : pc'.waits = false)
    (hchanges : pc'.changes = [] ∨ pc'.changes = pc.changes) (hlocks : pc'.locks = false) :
    pc'.Follows pc := by
  refine ⟨fun t h => hticket ▸ h, fun h => absurd h (by simp [hwaits]), fun id hid => ?_, hlocks⟩
  rcases hchanges with hnone | hsame
  · rw [hnone] at hid
    cases hid
  · exact hsame ▸ hid

theorem exists_row_of_holds {t : Ticket} {now : Int} (h : s.holds t now = true) :
    ∃ row, s.row = some row ∧ row.lease.isHeldBy t = true := by
  unfold System.holds at h
  cases hrow : s.row with
  | none => rw [hrow] at h; cases h
  | some row =>
    rw [hrow] at h
    exact ⟨row, rfl, SyncRow.isHeldBy_of_holds h⟩

/-- A run that still waits for its ticket follows itself. -/
theorem follows_waiting (hticket : pc'.ticket = none) (hwaits : pc.waits = true)
    (hchanges : pc'.changes = []) (hlocks : pc'.locks = false) : pc'.Follows pc := by
  refine ⟨fun t h => ?_, fun _ => hwaits, fun id hid => ?_, hlocks⟩
  · rw [hticket] at h
    cases h
  · rw [hchanges] at hid
    cases hid

/-- **What the next statement of a run can do.** -/
theorem next_does (h : next jsString pg s owner outcome env pc = some (pc', effect)) :
    Does jsString s owner pc pc' effect := by
  cases pc with
  | insert =>
    have hlook : Pc.look.Follows .insert := follows_waiting rfl rfl rfl rfl
    cases outcome <;> obtain ⟨rfl, rfl⟩ := Prod.mk.inj (Option.some.inj h)
    · exact .onRow hlook (.insert rfl)
    · exact .onRow follows_over .nothing
    · exact .onRow follows_over (.insert rfl)
  | look =>
    have htake : Pc.take.Follows .look := follows_waiting rfl rfl rfl rfl
    exact does_of_reads (.ite htake follows_over) follows_over (Option.some.inj h)
  | take =>
    have hback : Pc.readBack.Follows .take := follows_waiting rfl rfl rfl rfl
    exact does_of_writes (.ite hback follows_over) follows_over (fun hfree => .acquire rfl hfree) h
  | readBack =>
    unfold next at h
    dsimp only at h
    split at h
    · next row hrow =>
      split at h
      · next hback =>
        obtain ⟨rfl, rfl⟩ := Prod.mk.inj (Option.some.inj h)
        exact .grant rfl hrow hback.1
      · obtain ⟨rfl, rfl⟩ := Prod.mk.inj (Option.some.inj h)
        exact .onRow follows_over .nothing
    · obtain ⟨rfl, rfl⟩ := Prod.mk.inj (Option.some.inj h)
      exact .onRow follows_over .nothing
  | plan t =>
    unfold next at h
    dsimp only at h
    split at h
    · refine does_of_reads ?_ ?_ (Option.some.inj h)
      · exact follows_of_ticket rfl rfl (.inl rfl) rfl
      · exact follows_markError rfl _
    · obtain ⟨rfl, rfl⟩ := Prod.mk.inj (Option.some.inj h)
      exact .onRow (follows_markError rfl _) .nothing
  | fetch => cases h
  | renewFetched t plan calendar renewal =>
    unfold next at h
    dsimp only at h
    split at h
    · obtain ⟨rfl, rfl⟩ := Prod.mk.inj (Option.some.inj h)
      exact .onRow (follows_markError rfl _) .nothing
    · have hbegin : (Pc.begin t plan calendar).Follows (.renewFetched t plan calendar renewal) :=
        follows_of_ticket rfl rfl (.inl rfl) rfl
      exact does_of_writes (.ite hbegin (follows_markError rfl _)) (follows_markError rfl _)
        (fun hfree => .renew rfl hfree) h
  | begin t plan calendar =>
    unfold next at h
    dsimp only at h
    have hcheck : (Pc.check t plan calendar s.now).Follows (.begin t plan calendar) :=
      follows_of_ticket rfl rfl (.inl rfl) rfl
    split at h
    · exact does_of_reads hcheck (follows_markError rfl _) (Option.some.inj h)
    · split at h
      · cases h
      · next hfree =>
        rcases inTx_cases (Option.some.inj h) with ⟨rfl, rfl, hdone⟩ | ⟨rfl, rfl⟩
        · refine .onRow hcheck (.lock ?_)
          by_contra hsome
          exact hfree ⟨Option.isSome_iff_ne_none.mpr hsome, hdone⟩
        · exact .onRow (follows_markError rfl _) .unlock
  | check t plan calendar begun =>
    unfold next at h
    dsimp only at h
    by_cases hholds : s.holds t (if pg then begun else s.now) = true
    · rw [if_pos hholds] at h
      obtain ⟨row, hrow, hheld⟩ := exists_row_of_holds hholds
      split at h
      · cases h
      · next hfree =>
        rcases inTx_cases (Option.some.inj h) with ⟨rfl, rfl, hdone⟩ | ⟨rfl, rfl⟩
        · refine .lock rfl ?_ hrow hheld
          by_contra hother
          rw [not_or] at hother
          exact hfree ⟨hother.1, hother.2, hdone⟩
        · exact .onRow (follows_markError rfl _) .unlock
    · rw [if_neg hholds] at h
      obtain ⟨rfl, rfl⟩ := Prod.mk.inj (Option.some.inj h)
      exact .onRow (follows_markError rfl _) .unlock
  | work t plan calendar =>
    unfold next at h
    dsimp only at h
    split at h
    · next after events result hafter =>
      rcases inTx_cases (Option.some.inj h) with ⟨rfl, rfl, -⟩ | ⟨rfl, rfl⟩
      · exact .stage rfl hafter
      · exact .onRow (follows_markError rfl _) .unlock
    · obtain ⟨rfl, rfl⟩ := Prod.mk.inj (Option.some.inj h)
      exact .onRow (follows_markError rfl _) .unlock
  | commit t plan sync after events =>
    unfold next at h
    dsimp only at h
    cases outcome <;> obtain ⟨rfl, rfl⟩ := Prod.mk.inj (Option.some.inj h)
    · refine .commit rfl (fun t' ht' => (Option.some.inj ht').symm) rfl rfl fun id hid => ?_
      obtain ⟨i, hi, rfl⟩ := List.mem_map.mp hid
      exact ⟨Nat.le_add_right _ _, Nat.add_lt_add_left (List.mem_range.mp hi) _⟩
    · exact .onRow (follows_markError rfl _) .unlock
    · exact .commit rfl (fun t' ht' => (Option.some.inj ht').symm) rfl rfl
        fun id hid => absurd hid List.not_mem_nil
  | renewCommitted t plan changes =>
    have hassert : (Pc.assertLease t plan changes).Follows (.renewCommitted t plan changes) :=
      follows_of_ticket rfl rfl (.inr rfl) rfl
    exact does_of_writes (.ite hassert (follows_markError rfl _)) (follows_markError rfl _)
      (fun hfree => .renew rfl hfree) h
  | assertLease t plan changes =>
    have hproduce : (Pc.produce t plan changes).Follows (.assertLease t plan changes) :=
      follows_of_ticket rfl rfl (.inr rfl) rfl
    exact does_of_reads (.ite hproduce (follows_markError rfl _)) (follows_markError rfl _)
      (Option.some.inj h)
  | produce t plan changes =>
    obtain ⟨rfl, rfl⟩ := Prod.mk.inj (Option.some.inj h)
    exact .hand rfl
  | markSuccess t plan =>
    have hrelease : (Pc.release t).Follows (.markSuccess t plan) :=
      follows_of_ticket rfl rfl (.inl rfl) rfl
    exact does_of_writes (.ite hrelease (follows_markError rfl _)) (follows_markError rfl _)
      (fun hfree => .markSuccess rfl hfree) h
  | markError t message =>
    have hrelease : (Pc.release t).Follows (.markError t message) :=
      follows_of_ticket rfl rfl (.inl rfl) rfl
    exact does_of_writes hrelease hrelease (fun hfree => .markError rfl hfree) h
  | release t => exact does_of_writes follows_over follows_over (fun hfree => .release rfl hfree) h
  | «over» => cases h

/-- **What any event can do**, besides the clock's. -/
theorem react_does {event : Event} (h : react jsString pg s event = some (owner, pc', effect)) :
    Does jsString s owner (s.runs owner) pc' effect := by
  cases event with
  | tick now => cases h
  | statement o outcome env =>
    obtain ⟨r, hr, heq⟩ := Option.map_eq_some_iff.mp h
    obtain ⟨rfl, rfl⟩ := Prod.mk.inj heq
    exact next_does hr
  | renewal o outcome =>
    unfold react at h
    dsimp only at h
    split at h
    · next t plan renewal hfetch =>
      obtain ⟨r, hr, heq⟩ := Option.map_eq_some_iff.mp h
      obtain ⟨rfl, rfl⟩ := Prod.mk.inj heq
      rw [hfetch]
      have hfollows (flag : Bool) : (Pc.fetch t plan flag).Follows (.fetch t plan renewal) :=
        follows_of_ticket rfl rfl (.inl rfl) rfl
      exact does_of_writes (hfollows _) (hfollows _) (fun hfree => .renew rfl hfree) hr
    · cases h
  | fetched o calendar env =>
    unfold react at h
    dsimp only at h
    split at h
    · next t plan renewal hfetch =>
      obtain ⟨rfl, heq⟩ := Prod.mk.inj (Option.some.inj h)
      obtain ⟨rfl, rfl⟩ := Prod.mk.inj heq
      rw [hfetch]
      refine .onRow ?_ .nothing
      cases calendar with
      | none => exact follows_markError rfl _
      | some calendar => exact follows_of_ticket rfl rfl (.inl rfl) rfl
    · cases h
  | stop o =>
    obtain ⟨rfl, heq⟩ := Prod.mk.inj (Option.some.inj h)
    obtain ⟨rfl, rfl⟩ := Prod.mk.inj heq
    exact .onRow follows_over .unlock

end Spec

/-! ## The invariant -/

/-- The run an event is a step of. -/
def Event.owner : Event → Option String
  | .tick _ => none
  | .statement owner .. | .renewal owner _ | .fetched owner .. | .stop owner => some owner

/-- What is so of a run that is at a place. -/
structure Fits (jsString : Json → String) (s : System) (owner : String) (pc : Pc) : Prop where
  /-- It works under a ticket it was given, in its own name. -/
  ticket : ∀ t, pc.ticket = some t → t.owner = owner ∧ t ∈ s.granted
  /-- While it waits for a ticket it has had none. -/
  waits : pc.waits = true → ∀ t ∈ s.granted, t.owner ≠ owner
  /-- While its transaction has the row, the row is locked and its ticket
  matches. -/
  locks : pc.locks = true → s.lock = some owner
    ∧ ∃ t row, pc.ticket = some t ∧ s.row = some row ∧ row.lease.isHeldBy t = true
  /-- What it is to commit is the reconcile of the store as it is. -/
  staged : ∀ t plan sync after events, pc = .commit t plan sync after events →
    ∃ result, s.store.reconcile jsString sync = some (after, events, result)
  /-- It hands on what it has recorded itself. -/
  changes : ∀ id ∈ pc.changes, (s.recorded[id]?).map Prod.fst = some owner

/-- What is so of a committed reconcile. -/
structure Commit.Sound (jsString : Json → String) (c : Commit) : Prop where
  granted : c.ticket ∈ c.granted
  held : ∃ lease, c.lease = some lease ∧ lease.isHeldBy c.ticket = true
  greatest : ∀ t ∈ c.granted, t.fence ≤ c.ticket.fence
  reconciled : ∃ events result, c.before.reconcile jsString c.sync = some (c.after, events, result)

/-- **What every run of the system keeps.** -/
structure Inv (jsString : Json → String) (s : System) : Prop where
  /-- The fences the acquires returned rise, and the row is not behind. -/
  given : s.lease.Given s.granted
  runs : ∀ o, Fits jsString s o (s.runs o)
  commits : ∀ c ∈ s.commits, c.Sound jsString
  handed : ∀ h ∈ s.handed, (s.recorded[h.2]?).map Prod.fst = some h.1

section Kept

variable {jsString : Json → String} {pg : Bool} {s t : System} {owner : String} {pc : Pc}
  {effect : Effect}

theorem goto_runs_self : (s.goto owner pc).runs owner = pc := Function.update_self ..

theorem goto_runs_of_ne {o : String} (h : o ≠ owner) : (s.goto owner pc).runs o = s.runs o :=
  Function.update_of_ne h ..

/-- A locked row is one other runs' effects leave. -/
theorem unlocked_of_ne {o : String} (h : o ≠ owner) (hlock : s.lock = some o) :
    s.unlocked owner = some o := by
  unfold System.unlocked
  rw [hlock, if_neg (fun heq => h (Option.some.inj heq))]

/-- An effect on the row keeps the tickets given out. -/
theorem given_carryOut (h : s.lease.Given s.granted) (he : effect.OnRow s pc) :
    (s.carryOut owner effect).lease.Given s.granted := by
  have hmap (f : SyncRow → SyncRow) (hf : ∀ row : SyncRow, row.lease.Given s.granted →
      (f row).lease.Given s.granted) :
      ({ s with row := s.row.map f } : System).lease.Given s.granted := by
    unfold System.lease at *
    cases hrow : s.row with
    | none => rwa [hrow] at h
    | some row =>
      rw [hrow] at h
      exact hf row h
  cases he with
  | nothing => exact h
  | unlock => exact h
  | lock hfree => exact h
  | insert hpc =>
    unfold System.lease System.carryOut at *
    dsimp only
    cases hrow : s.row <;> rwa [hrow] at h
  | acquire hpc hfree => exact hmap _ fun row hrow => hrow.acquire
  | renew hpc hfree => exact hmap _ fun row hrow => hrow.renew
  | markSuccess hpc hfree => exact hmap _ fun row hrow => by rwa [SyncRow.lease_markSuccess]
  | markError hpc hfree => exact hmap _ fun row hrow => by rwa [SyncRow.lease_markError]
  | release hpc hfree => exact hmap _ fun row hrow => hrow.release

/-- An effect on the row leaves a row that another run has locked. -/
theorem locked_carryOut (he : effect.OnRow s pc) {o : String} (hne : o ≠ owner)
    (hlock : s.lock = some o) {row : SyncRow} (hrow : s.row = some row) :
    (s.carryOut owner effect).lock = some o ∧ (s.carryOut owner effect).row = some row := by
  have hfree : s.lock ≠ none := by
    rw [hlock]
    exact Option.some_ne_none o
  cases he with
  | nothing => exact ⟨hlock, hrow⟩
  | unlock => exact ⟨unlocked_of_ne hne hlock, hrow⟩
  | insert hpc =>
    refine ⟨hlock, ?_⟩
    show some (s.row.getD {}) = some row
    rw [hrow]
    rfl
  | lock h => exact absurd h hfree
  | acquire hpc h => exact absurd h hfree
  | renew hpc h => exact absurd h hfree
  | markSuccess hpc h => exact absurd h hfree
  | markError hpc h => exact absurd h hfree
  | release hpc h => exact absurd h hfree

/-- Every run is at its place after one has moved. -/
theorem fits_goto (hself : Fits jsString s owner pc)
    (hother : ∀ o, o ≠ owner → Fits jsString s o (s.runs o)) (o : String) :
    Fits jsString (s.goto owner pc) o ((s.goto owner pc).runs o) := by
  -- only the places differ, and a run's own is all it is asked about
  have hsame : ∀ o pc', Fits jsString s o pc' → Fits jsString (s.goto owner pc) o pc' :=
    fun o pc' h => ⟨h.ticket, h.waits, h.locks, h.staged, h.changes⟩
  by_cases ho : o = owner
  · subst ho
    rw [goto_runs_self]
    exact hsame o pc hself
  · rw [goto_runs_of_ne ho]
    exact hsame o _ (hother o ho)

/-- A run that has not moved keeps what it has where nothing but the row and
its lock change, and those only if it has not locked them. -/
theorem Fits.of_frame {o : String} (h : Fits jsString s o pc) (hstore : t.store = s.store)
    (hgranted : t.granted = s.granted) (hrecorded : t.recorded = s.recorded)
    (hlocked : s.lock = some o → ∀ row, s.row = some row → t.lock = some o ∧ t.row = some row) :
    Fits jsString t o pc where
  ticket k hk := hgranted ▸ h.ticket k hk
  waits hwaits := hgranted ▸ h.waits hwaits
  locks hlocks := by
    obtain ⟨hlock, k, row, hticket, hrow, hheld⟩ := h.locks hlocks
    obtain ⟨hlock', hrow'⟩ := hlocked hlock row hrow
    exact ⟨hlock', k, row, hticket, hrow', hheld⟩
  staged k plan sync after events heq := by
    rw [hstore]
    exact h.staged k plan sync after events heq
  changes id hid := hrecorded ▸ h.changes id hid

/-- A run that goes where it has nothing new. -/
theorem Fits.follows {pc' : Pc} (h : Fits jsString s owner pc) (hfollows : pc'.Follows pc)
    (hgranted : t.granted = s.granted)
    (hrecorded : t.recorded = s.recorded) : Fits jsString t owner pc' where
  ticket k hk := hgranted ▸ h.ticket k (hfollows.ticket k hk)
  waits hwaits := hgranted ▸ h.waits (hfollows.waits hwaits)
  locks hlocks := by
    rw [hfollows.locks] at hlocks
    cases hlocks
  staged k plan sync after events heq := by
    have hlocks := hfollows.locks
    rw [heq] at hlocks
    cases hlocks
  changes id hid := hrecorded ▸ h.changes id (hfollows.changes id hid)

theorem Inv.grant (h : Inv jsString s) (hpc : s.runs owner = .readBack) {row : SyncRow}
    (hrow : s.row = some row) (howner : row.lease.owner = some owner) :
    Inv jsString ((s.carryOut owner (.grant ⟨owner, row.lease.fence⟩)).goto owner
      (.plan ⟨owner, row.lease.fence⟩)) := by
  have hlease : s.lease = row.lease := by
    unfold System.lease
    rw [hrow]
    rfl
  have hheld : s.lease.isHeldBy (⟨owner, row.lease.fence⟩ : Ticket) = true := by
    rw [hlease]
    exact FencedLease.isHeldBy_iff.mpr ⟨howner, rfl⟩
  have hnew := (h.runs owner).waits (by rw [hpc]; rfl)
  refine ⟨h.given.concat hheld hnew, fits_goto ?_ fun o ho => ?_, h.commits, h.handed⟩
  · refine ⟨fun k hk => ?_, nofun, nofun, fun _ _ _ _ _ => nofun, nofun⟩
    obtain rfl := Option.some.inj hk
    exact ⟨rfl, List.mem_append_right _ (List.mem_singleton_self _)⟩
  · have hfits := h.runs o
    refine ⟨fun k hk => ?_, fun hwaits k hk => ?_, hfits.locks, hfits.staged, hfits.changes⟩
    · obtain ⟨hown, hmem⟩ := hfits.ticket k hk
      exact ⟨hown, List.mem_append_left _ hmem⟩
    · rcases List.mem_append.mp hk with hold | hlast
      · exact hfits.waits hwaits k hold
      · rw [List.mem_singleton.mp hlast]
        exact Ne.symm ho

theorem Inv.lock (h : Inv jsString s) {k : Ticket} {plan : Plan} {calendar : List Normalized}
    {begun : Int} (hpc : s.runs owner = .check k plan calendar begun)
    (hfree : s.lock = none ∨ s.lock = some owner) {row : SyncRow} (hrow : s.row = some row)
    (hheld : row.lease.isHeldBy k = true) :
    Inv jsString ((s.carryOut owner .lock).goto owner (.work k plan calendar)) := by
  refine ⟨h.given, fits_goto ?_ fun o ho => ?_, h.commits, h.handed⟩
  · refine ⟨fun k' hk' => ?_, nofun, fun _ => ⟨rfl, k, row, rfl, hrow, hheld⟩,
      fun _ _ _ _ _ => nofun, nofun⟩
    exact (h.runs owner).ticket k' (by rw [hpc]; exact hk')
  · refine (h.runs o).of_frame rfl rfl rfl fun hlock => ?_
    -- no other run has the row
    rcases hfree with hnone | hown
    · rw [hnone] at hlock
      cases hlock
    · rw [hown] at hlock
      exact absurd (Option.some.inj hlock).symm ho

theorem Inv.stage (h : Inv jsString s) {k : Ticket} {plan : Plan} {calendar : List Normalized}
    {sync : ReleaseSync} {after : ReleaseStore} {events : ReleaseEvents} {result : SyncResult}
    (hpc : s.runs owner = .work k plan calendar)
    (hafter : s.store.reconcile jsString sync = some (after, events, result)) :
    Inv jsString (s.goto owner (.commit k plan sync after events)) := by
  have hfits := h.runs owner
  rw [hpc] at hfits
  refine ⟨h.given, fits_goto ?_ fun o ho => h.runs o, h.commits, h.handed⟩
  refine ⟨hfits.ticket, nofun, hfits.locks, fun k' p sync' after' events' heq => ?_, nofun⟩
  obtain ⟨-, -, rfl, rfl, rfl⟩ := Pc.commit.inj heq
  exact ⟨result, hafter⟩

/-- What is recorded stays recorded. -/
theorem recorded_append {recorded more : List (String × DateChange)} {id : Nat} {o : String}
    (h : (recorded[id]?).map Prod.fst = some o) :
    ((recorded ++ more)[id]?).map Prod.fst = some o := by
  obtain ⟨entry, hentry, ho⟩ := Option.map_eq_some_iff.mp h
  have hlt : id < recorded.length := (List.getElem?_eq_some_iff.mp hentry).1
  rw [List.getElem?_append_left hlt, hentry, ← ho]
  rfl

/-- **The commit of a reconcile**: no other run has the row, the run's ticket
has it, and no fence given out is greater. -/
theorem Inv.commit (h : Inv jsString s) {k : Ticket} {plan : Plan} {sync : ReleaseSync}
    {after : ReleaseStore} {events : ReleaseEvents}
    (hpc : s.runs owner = .commit k plan sync after events)
    (hticket : ∀ t, pc.ticket = some t → t = k) (hwaits : pc.waits = false)
    (hlocks : pc.locks = false)
    (hchanges : ∀ id ∈ pc.changes, s.recorded.length ≤ id
      ∧ id < s.recorded.length + events.dateChanges.length) :
    Inv jsString ((s.carryOut owner (.commit k sync after events)).goto owner pc) := by
  have hfits := h.runs owner
  rw [hpc] at hfits
  obtain ⟨hlock, k', row, hk', hrow, hheld⟩ := hfits.locks rfl
  obtain rfl := Option.some.inj hk'
  obtain ⟨hown, hgranted⟩ := hfits.ticket k rfl
  obtain ⟨result, hafter⟩ := hfits.staged k plan sync after events rfl
  have halone (o : String) (ho : o ≠ owner) : (s.runs o).locks = false := by
    by_contra hlocked
    have hother := ((h.runs o).locks (by simpa using hlocked)).1
    exact ho (Option.some.inj (hother.symm.trans hlock))
  have hlease : s.lease = row.lease := by
    unfold System.lease
    rw [hrow]
    rfl
  refine ⟨h.given, fits_goto ?_ fun o ho => ?_, fun c hc => ?_, fun entry hentry => ?_⟩
  · refine ⟨fun t ht => ?_, fun hwaits' => ?_, fun hlocks' => ?_,
      fun _ _ _ _ _ heq => ?_, fun id hid => ?_⟩
    · rw [hticket t ht]
      exact ⟨hown, hgranted⟩
    · rw [hwaits] at hwaits'
      cases hwaits'
    · rw [hlocks] at hlocks'
      cases hlocks'
    · rw [heq] at hlocks
      cases hlocks
    · obtain ⟨hle, hlt⟩ := hchanges id hid
      show ((s.recorded ++ events.dateChanges.map fun change => (owner, change.2))[id]?).map _ = _
      rw [List.getElem?_append_right hle, List.getElem?_map, Option.map_map]
      have hin : id - s.recorded.length < events.dateChanges.length := by omega
      rw [List.getElem?_eq_getElem hin]
      rfl
  · have hothers := h.runs o
    refine ⟨hothers.ticket, hothers.waits, fun hlocks' => ?_,
      fun t p sync' after' events' heq => ?_,
      fun id hid => recorded_append (hothers.changes id hid)⟩
    · have hlocks' : (s.runs o).locks = true := hlocks'
      rw [halone o ho] at hlocks'
      cases hlocks'
    · have hfalse := halone o ho
      have heq : s.runs o = .commit t p sync' after' events' := heq
      rw [heq] at hfalse
      cases hfalse
  · rcases List.mem_append.mp hc with hold | hlast
    · exact h.commits c hold
    · rw [List.mem_singleton.mp hlast]
      refine ⟨hgranted, ⟨row.lease, ?_, hheld⟩, fun t ht => ?_, events, result, hafter⟩
      · show s.row.map (·.lease) = some row.lease
        rw [hrow]
        rfl
      · rw [← (FencedLease.isHeldBy_iff.mp hheld).2, ← hlease]
        exact h.given.behind t ht
  · exact recorded_append (h.handed entry hentry)

theorem Inv.hand (h : Inv jsString s) {k : Ticket} {plan : Plan} {changes : List Nat}
    (hpc : s.runs owner = .produce k plan changes) :
    Inv jsString ((s.carryOut owner (.hand changes)).goto owner (.markSuccess k plan)) := by
  have hfits := h.runs owner
  rw [hpc] at hfits
  refine ⟨h.given, fits_goto ⟨hfits.ticket, nofun, nofun, fun _ _ _ _ _ => nofun, nofun⟩
    fun o ho => ?_, h.commits, fun entry hentry => ?_⟩
  · exact (h.runs o).of_frame rfl rfl rfl fun hlock row hrow => ⟨hlock, hrow⟩
  · rcases List.mem_append.mp hentry with hold | hnew
    · exact h.handed entry hold
    · obtain ⟨id, hid, rfl⟩ := List.mem_map.mp hnew
      exact hfits.changes id hid

/-- An effect on the row leaves the rest of the database. -/
theorem frame_carryOut (he : effect.OnRow s pc) :
    (s.carryOut owner effect).store = s.store ∧ (s.carryOut owner effect).granted = s.granted
      ∧ (s.carryOut owner effect).commits = s.commits
      ∧ (s.carryOut owner effect).recorded = s.recorded
      ∧ (s.carryOut owner effect).handed = s.handed
      ∧ (s.carryOut owner effect).runs = s.runs := by
  cases he <;> exact ⟨rfl, rfl, rfl, rfl, rfl, rfl⟩

theorem Inv.onRow {pc' : Pc} (h : Inv jsString s) (hfollows : pc'.Follows (s.runs owner))
    (he : effect.OnRow s (s.runs owner)) :
    Inv jsString ((s.carryOut owner effect).goto owner pc') := by
  obtain ⟨hstore, hgranted, hcommits, hrecorded, hhanded, hruns⟩ := frame_carryOut he
  refine ⟨?_, fits_goto ((h.runs owner).follows hfollows hgranted hrecorded)
    fun o ho => ?_, ?_, ?_⟩
  · show (s.carryOut owner effect).lease.Given (s.carryOut owner effect).granted
    rw [hgranted]
    exact given_carryOut h.given he
  · rw [hruns]
    exact (h.runs o).of_frame hstore hgranted hrecorded fun hlock row hrow =>
      locked_carryOut he ho hlock hrow
  · show ∀ c ∈ (s.carryOut owner effect).commits, _
    rw [hcommits]
    exact h.commits
  · show ∀ e ∈ (s.carryOut owner effect).handed,
      ((s.carryOut owner effect).recorded[e.2]?).map _ = _
    rw [hhanded, hrecorded]
    exact h.handed

/-- A step is the clock's, or a run's statement with its effect. -/
theorem step_cases {event : Event} (h : Step jsString pg s event t) :
    (∃ now, event = .tick now ∧ t = { s with now := now })
      ∨ ∃ owner pc effect, react jsString pg s event = some (owner, pc, effect)
        ∧ t = (s.carryOut owner effect).goto owner pc := by
  unfold Step step at h
  split at h
  · next now =>
    split at h
    · exact .inl ⟨now, rfl, (Option.some.inj h).symm⟩
    · cases h
  · obtain ⟨⟨owner, pc, effect⟩, hreact, rfl⟩ := Option.map_eq_some_iff.mp h
    exact .inr ⟨owner, pc, effect, hreact, rfl⟩

/-- **Every step keeps the invariant.** -/
theorem Inv.step (h : Inv jsString s) {event : Event} (hstep : Step jsString pg s event t) :
    Inv jsString t := by
  rcases step_cases hstep with ⟨now, -, rfl⟩ | ⟨owner, pc, effect, hreact, rfl⟩
  · refine ⟨h.given, fun o => ?_, h.commits, h.handed⟩
    exact (h.runs o).of_frame rfl rfl rfl fun hlock row hrow => ⟨hlock, hrow⟩
  · have hdoes := react_does hreact
    generalize hpc : s.runs owner = before at hdoes
    cases hdoes with
    | onRow hfollows heffect => exact h.onRow (hpc ▸ hfollows) (hpc ▸ heffect)
    | grant hbefore hrow howner => exact h.grant (hpc.trans hbefore) hrow howner
    | lock hbefore hfree hrow hheld => exact h.lock (hpc.trans hbefore) hfree hrow hheld
    | stage hbefore hafter => exact h.stage (hpc.trans hbefore) hafter
    | commit hbefore hticket hwaits hlocks hchanges =>
      exact h.commit (hpc.trans hbefore) hticket hwaits hlocks hchanges
    | hand hbefore => exact h.hand (hpc.trans hbefore)

/-- The run that reacts is the event's. -/
theorem owner_of_react {event : Event} (h : react jsString pg s event = some (owner, pc, effect)) :
    event.owner = some owner := by
  cases event with
  | tick now => cases h
  | statement o outcome env =>
    obtain ⟨r, hr, heq⟩ := Option.map_eq_some_iff.mp h
    rw [← (Prod.mk.inj heq).1]
    rfl
  | renewal o outcome =>
    unfold react at h
    dsimp only at h
    split at h
    · obtain ⟨r, hr, heq⟩ := Option.map_eq_some_iff.mp h
      rw [← (Prod.mk.inj heq).1]
      rfl
    · cases h
  | fetched o calendar env =>
    unfold react at h
    dsimp only at h
    split at h
    · rw [← (Prod.mk.inj (Option.some.inj h)).1]
      rfl
    · cases h
  | stop o =>
    rw [← (Prod.mk.inj (Option.some.inj h)).1]
    rfl

/-- What is done under a ticket the row has moved past leaves the row. -/
theorem row_carryOut_of_lt {before : Pc} (hdoes : Does jsString s owner before pc effect)
    {k : Ticket} (hk : before.ticket = some k) (hlt : k.fence < s.lease.fence) :
    (s.carryOut owner effect).row = s.row := by
  have hmap (f : SyncRow → SyncRow)
      (hf : ∀ row : SyncRow, k.fence < row.lease.fence → f row = row) : s.row.map f = s.row := by
    unfold System.lease at hlt
    cases hrow : s.row with
    | none => rfl
    | some row =>
      rw [hrow] at hlt
      exact congrArg some (hf row hlt)
  have hticket {k' : Ticket} (hk' : before.ticket = some k') : k' = k :=
    Option.some.inj (hk'.symm.trans hk)
  cases hdoes with
  | grant | lock | stage | commit | hand => rfl
  | onRow hfollows he =>
    cases he with
    | nothing | unlock | lock => rfl
    | insert hpc => rw [hpc] at hk; cases hk
    | acquire hpc => rw [hpc] at hk; cases hk
    | renew hpc =>
      obtain rfl := hticket hpc
      exact hmap _ fun row h => by
        unfold SyncRow.renew
        rw [FencedLease.renew_of_lt h]
    | markSuccess hpc =>
      obtain rfl := hticket hpc
      exact hmap _ fun row h => if_neg (by simp [SyncRow.holds_of_lt h])
    | markError hpc =>
      obtain rfl := hticket hpc
      exact hmap _ fun row h => if_neg (by simp [SyncRow.holds_of_lt h])
    | release hpc =>
      obtain rfl := hticket hpc
      exact hmap _ fun row h => by
        unfold SyncRow.release
        rw [FencedLease.release_of_lt h]

end Kept

/-! ## Fenced syncs -/

/-- **Syncs that are fenced.** -/
structure Fenced (jsString : Json → String) (pg : Bool) (s : System) : Prop where
  /-- Each acquire returned a greater fence than every one before it. -/
  rising : s.granted.Pairwise fun earlier later => earlier.fence < later.fence
  /-- At most one run has the lease. -/
  exclusive : ∀ o o' t t', (s.runs o).ticket = some t → (s.runs o').ticket = some t' →
    s.holds t s.now = true → s.holds t' s.now = true → o = o'
  /-- Each reconcile was committed under the greatest fence given out, and was
  one of the store as it then was. -/
  commits : ∀ c ∈ s.commits, c.Sound jsString
  /-- No statement of an overtaken run changes the row. -/
  older : ∀ event t o k, Step jsString pg s event t → event.owner = some o →
    (s.runs o).ticket = some k → k.fence < s.lease.fence → t.row = s.row
  /-- What is handed to `produce_events` was recorded by the run that hands it
  on, so by no other. -/
  recorded : ∀ h ∈ s.handed, (s.recorded[h.2]?).map Prod.fst = some h.1
  handed : ∀ o o' id, (o, id) ∈ s.handed → (o', id) ∈ s.handed → o = o'

theorem Inv.fenced {jsString : Json → String} {s : System} (h : Inv jsString s) (pg : Bool) :
    Fenced jsString pg s where
  rising := h.given.rising
  exclusive o o' t t' ht ht' hholds hholds' := by
    obtain ⟨row, hrow, hheld⟩ := exists_row_of_holds hholds
    obtain ⟨row', hrow', hheld'⟩ := exists_row_of_holds hholds'
    obtain rfl := Option.some.inj (hrow.symm.trans hrow')
    have hsame := FencedLease.eq_of_isHeldBy hheld hheld'
    rw [← ((h.runs o).ticket t ht).1, ← ((h.runs o').ticket t' ht').1, hsame]
  commits := h.commits
  older event t o k hstep howner hk hlt := by
    rcases step_cases hstep with ⟨now, -, rfl⟩ | ⟨owner, pc, effect, hreact, rfl⟩
    · rfl
    · obtain rfl := Option.some.inj ((owner_of_react hreact).symm.trans howner)
      exact row_carryOut_of_lt (react_does hreact) hk hlt
  recorded := h.handed
  handed o o' id hid hid' :=
    Option.some.inj ((h.handed (o, id) hid).symm.trans (h.handed (o', id) hid'))

/-- The database of a server before any of the runs, at some time. -/
def start (row : Option SyncRow) (store : ReleaseStore) (now : Int) : System :=
  { now := now, row := row, store := store }

theorem inv_start (jsString : Json → String) (row : Option SyncRow) (store : ReleaseStore)
    (now : Int) : Inv jsString (start row store now) where
  given := ⟨List.Pairwise.nil, List.forall_mem_nil _, List.forall_mem_nil _⟩
  runs _ := ⟨nofun, fun _ => nofun, nofun, fun _ _ _ _ _ => nofun, nofun⟩
  commits := List.forall_mem_nil _
  handed := List.forall_mem_nil _

/-- **The syncs of one server are fenced**, in every interleaving of the
statements of any number of runs, whatever fails, stalls or stops. -/
theorem syncs_are_fenced (jsString : Json → String) (pg : Bool) (row : Option SyncRow)
    (store : ReleaseStore) (now : Int) {events : List Event} {s : System}
    (hrun : Run (Step jsString pg) (start row store now) events s) : Fenced jsString pg s :=
  (hrun.invariant (fun _ _ _ h hstep => h.step hstep) (inv_start jsString row store now)).fenced pg

/-- A run stalls in its fetch until its lease is over, another takes the lease
and commits, and the first one wakes up. -/
def overtaking : List Event :=
  let statements (owner : String) (n : Nat) := List.replicate n (Event.statement owner .done {})
  statements "1:a" 5 ++ [.tick (2 * leaseMs)] ++ statements "2:b" 5
    ++ [.fetched "2:b" (some []) {}] ++ statements "2:b" 5
    ++ [.renewal "1:a" .done, .fetched "1:a" (some []) {}] ++ statements "1:a" 3

/-- The system after `overtaking`. -/
def overtaken : System :=
  (overtaking.foldlM (step (fun _ => "") true) (start none (ReleaseStore.start "radarr" 0) 0)).getD
    (start none (ReleaseStore.start "radarr" 0) 0)

theorem syncs_are_fenced_overtaken :
    overtaken.granted.map (·.fence) = [1, 2] ∧ overtaken.commits.map (·.ticket.fence) = [2]
      ∧ Fenced (fun _ => "") true overtaken := by
  have hview : (overtaking.foldlM (step (fun _ => "") true)
      (start none (ReleaseStore.start "radarr" 0) 0)).map (fun s =>
        (s.granted.map (·.fence), s.commits.map (·.ticket.fence))) = some ([1, 2], [2]) := by
    decide +kernel
  obtain ⟨t, ht, hfences⟩ := Option.map_eq_some_iff.1 hview
  have hovertaken : overtaken = t := by
    rw [overtaken, ht]
    rfl
  rw [hovertaken]
  have hrun : Run (Step (fun _ => "") true) (start none (ReleaseStore.start "radarr" 0) 0)
      overtaking t := Run.of_foldlM ht
  exact ⟨congrArg Prod.fst hfences, congrArg Prod.snd hfences,
    syncs_are_fenced (fun _ => "") true none (ReleaseStore.start "radarr" 0) 0 hrun⟩

end Foreseerr.ReleaseLease

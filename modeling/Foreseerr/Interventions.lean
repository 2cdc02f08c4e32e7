import Foreseerr.Run
import Mathlib.Data.Int.Basic
import Mathlib.Logic.Function.Basic

/-!
# The record of an Arr warning

A download that Radarr or Sonarr warns of has a `servarr_intervention`
record. Polls (`routes/servarrsync.rs`) refresh it, time it out and resolve it
when the warning is gone; users and the automatic cleanup reject the download,
users import it by hand (`routes/interventions.rs`, `routes/mediaimports.rs`).

A rejection or an import claims the record by an `UPDATE` that asks for the
state `active`. All other writes ask for nothing: a poll's time-out and
resolution, and the `save` at the end of a rejection or an import, write what
was decided on a copy read earlier. A rejection that times out, moreover,
puts the record back to active while its Arr calls carry on.

So a resolved record can become active again
(`Interventions.rejection_reopens_resolved`), and one that is active again can
be claimed while an earlier claim is still at work. In the runs in which no
such write comes too late (`Interventions.Careful`), a resolved record stays
as it is and one claim is worked on at a time
(`Interventions.resolved_stays_and_one_works`).

The model follows one record. Statements and Arr calls are steps of their own;
a process may stop anywhere, and the clocks are any.
-/

namespace Foreseerr.Interventions

/-! ## The record -/

/-- The states of a record. -/
inductive RecordState
  | active
  | rejecting
  | importing
  | resolved
deriving DecidableEq, Repr

/-- The resolutions of a record. -/
inductive Resolution
  | manualImport
  | manualBlocklist
  | automaticBlocklist
  | recovered
  | disappeared
deriving DecidableEq, Repr

/-- `Fields`: what a warning's record is refreshed with. -/
structure Fields where
  releaseTitle : String
  warningMessages : String
  manualImportCapable : Bool
  downloadId : Option String
  outputPath : Option String
deriving DecidableEq, Repr

/-- A `servarr_intervention` row, as far as it is read or changes. -/
structure Intervention where
  queueId : Int
  state : RecordState := .active
  resolution : Option Resolution := none
  actedByUserId : Option Int := none
  cleanupError : Option String := none
  resolvedAt : Option Int := none
  fields : Fields
  cleanupDeadlineAt : Option Int := none
  updatedAt : Option Int := none
deriving DecidableEq, Repr

/-- The columns an `UPDATE` sets; `updatedAt` it always does. -/
structure Columns where
  state : Option RecordState := none
  resolution : Option (Option Resolution) := none
  actedByUserId : Option (Option Int) := none
  cleanupError : Option (Option String) := none
  resolvedAt : Option Int := none
  releaseTitle : Option String := none
  warningMessages : Option String := none
  manualImportCapable : Option Bool := none
  downloadId : Option (Option String) := none
  outputPath : Option (Option String) := none
deriving DecidableEq, Repr

/-- The row after an `UPDATE`. -/
def Intervention.set (record : Intervention) (columns : Columns) (clock : Int) : Intervention :=
  { record with
    state := columns.state.getD record.state
    resolution := columns.resolution.getD record.resolution
    actedByUserId := columns.actedByUserId.getD record.actedByUserId
    cleanupError := columns.cleanupError.getD record.cleanupError
    resolvedAt := columns.resolvedAt.or record.resolvedAt
    fields :=
      { releaseTitle := columns.releaseTitle.getD record.fields.releaseTitle
        warningMessages := columns.warningMessages.getD record.fields.warningMessages
        manualImportCapable := columns.manualImportCapable.getD record.fields.manualImportCapable
        downloadId := columns.downloadId.getD record.fields.downloadId
        outputPath := columns.outputPath.getD record.fields.outputPath }
    updatedAt := some clock }

/-! ## Polls -/

/-- A queue item, as a poll reads it: whether it is of a title mapped to the
server, whether it is a warning, and its fields unless they are malformed. -/
structure QueueItem where
  id : Option Int
  mapped : Bool
  warning : Bool
  fields : Option Fields
deriving DecidableEq, Repr

/-- What a poll goes by: the server's queue, its clock, whether another
unresolved record with the same queue id comes later in the table, and the
settings. -/
structure Poll where
  queue : List QueueItem
  now : Int
  shadowed : Bool := false
  apiTimeout : Nat := 0
  automaticCleanup : Bool := false
deriving DecidableEq, Repr

/-- `IMPORT_TIMEOUT_MS`. -/
def importTimeoutMs : Int := 2 * 60 * 60 * 1000

/-- `rejection_timeout`. -/
def rejectionTimeout (apiTimeout : Nat) : Int :=
  if apiTimeout = 0 then 120000 else max apiTimeout 120000

/-- `time_out_record`. -/
def timeOutRecord (copy : Intervention) (message : String) : Columns :=
  { state := some .active
    cleanupError := if copy.cleanupError ≠ some message then some (some message) else none }

/-- A column that is set where it changes. -/
def changed {α : Type} [DecidableEq α] (stored next : α) : Option α :=
  if next ≠ stored then some next else none

/-- An `UPDATE`, unless it sets nothing. -/
def Columns.unlessEmpty (columns : Columns) : Option Columns :=
  if columns = {} then none else some columns

/-- `refresh_record`. -/
def refreshRecord (copy : Intervention) (fields : Fields) : Option Columns :=
  Columns.unlessEmpty
    { releaseTitle := changed copy.fields.releaseTitle fields.releaseTitle
      warningMessages := changed copy.fields.warningMessages fields.warningMessages
      manualImportCapable := changed copy.fields.manualImportCapable fields.manualImportCapable
      downloadId := changed copy.fields.downloadId fields.downloadId
      outputPath := changed copy.fields.outputPath fields.outputPath }

/-- `resolve_record`. -/
def resolveRecord (resolution : Resolution) (now : Int) : Columns :=
  { state := some .resolved, resolution := some (some resolution), resolvedAt := some now
    cleanupError := some none }

/-- `resolution`: that of a record whose warning is gone. -/
def resolution (copy : Intervention) (queueIds : List Int) : Resolution :=
  match copy.state with
  | .importing => .manualImport
  | .rejecting =>
    if copy.actedByUserId.any (· ≠ 0) then .manualBlocklist else .automaticBlocklist
  | _ => if copy.queueId ∈ queueIds then .recovered else .disappeared

/-- The loop's turn for the record: what it writes. -/
def itemColumns (poll : Poll) (copy : Intervention) (fields : Option Fields) : Option Columns :=
  match copy.state with
  | .rejecting =>
    if copy.updatedAt.any fun written =>
        decide (rejectionTimeout poll.apiTimeout ≤ poll.now - written) then
      some (timeOutRecord copy "Rejection timed out.")
    else none
  | .importing =>
    if copy.updatedAt.any fun written => decide (importTimeoutMs ≤ poll.now - written) then
      some (timeOutRecord copy "Import timed out.")
    else none
  | _ => fields.bind (refreshRecord copy)

/-- The items of a queue that are warnings of mapped titles. -/
def Poll.warnings (poll : Poll) : List QueueItem :=
  poll.queue.filter fun item => item.mapped && item.warning

/-- `queue_ids`. -/
def Poll.queueIds (poll : Poll) : List Int := poll.queue.filterMap (·.id)

/-! ## Processes -/

/-- `js_slice`: what of a text fits into some UTF-16 units. -/
def jsSlice (text : String) (n : Nat) : String :=
  let fits := text.toList.foldl (fun (out, units, cut) c =>
    let units := units + if c.val ≤ 0xFFFF then 1 else 2
    if cut || n < units then (out, units, true) else (out ++ [c], units, false))
    (([] : List Char), 0, false)
  String.ofList fits.1

/-- How far the Arr calls of a rejection are (`rejection_work`). -/
inductive Work
  /-- The queue. -/
  | queue
  /-- The read of the media, then whether the warning is still valid. -/
  | media
  /-- The removal with the blocklist. -/
  | delete
  /-- The removal without it. -/
  | deleteAgain
  | ended (result : Except String Unit)

/-- What answers a step of the work. -/
inductive WorkAnswer
  | ok
  /-- The warning is not valid any more, or an error. -/
  | error (message : String)
  /-- Sonarr removed the item but had no grab to blocklist. -/
  | removedWithoutGrab
  /-- 404. -/
  | missing (message : String)

/-- `rejection_work`, one call at a time. -/
def Work.step : Work → WorkAnswer → Work
  | .queue, .ok => .media
  | .media, .ok => .delete
  | .delete, .ok => .ended (.ok ())
  | .delete, .removedWithoutGrab => .deleteAgain
  | .deleteAgain, .ok => .ended (.ok ())
  | .deleteAgain, .missing _ => .ended (.ok ())
  | .ended result, _ => .ended result
  | _, .error message => .ended (.error message)
  | _, .missing message => .ended (.error message)
  | _, .removedWithoutGrab => .ended (.error "")

/-- Work with Arr calls still to make. -/
def Work.calls : Work → Bool
  | .ended _ => false
  | _ => true

/-- Where a process is. A rejection is a user's, or nobody's when it is the
automatic cleanup's. -/
inductive Pc
  /-- `reconcile`: `existing_records`. -/
  | existing (poll : Poll)
  /-- `reconcile`: the loop over the queue's warnings, and whether the
  record's own has come. -/
  | items (poll : Poll) (copy : Intervention) (rest : List QueueItem) (warned : Bool)
  /-- `reconcile`: the resolution of what has no warning any more. -/
  | settle (poll : Poll) (copy : Intervention) (warned : Bool)
  /-- `clean_up_overdue`: the read of the active records. -/
  | overdue (poll : Poll)
  /-- A rejection: its first read. -/
  | load (user : Option Int)
  /-- The claim of a rejection. -/
  | claim (user : Option Int) (copy : Intervention)
  /-- A claimed rejection that is about to start its calls. -/
  | claimed (user : Option Int) (copy : Intervention)
  /-- A rejection that waits for its calls. -/
  | await (user : Option Int) (copy : Intervention)
  /-- `start_import`: the claim. -/
  | startImport (user : Int)
  /-- The `ManualImport` command. -/
  | command (user : Int)
  /-- `fail_import`: the read. -/
  | failImport (message : Option String)
  /-- `resolve_import`: the read. -/
  | resolveImport (user : Int)
  /-- `save`: the read of the stored row. -/
  | save (record : Intervention) (resolvedAt : Option Int)
  /-- `save`: the `UPDATE`. -/
  | write (columns : Columns)
  | over

/-- A process that has claimed the record and is about to call Arr itself. -/
def Pc.calls : Pc → Bool
  | .claimed .. | .command _ => true
  | _ => false

/-- `save`: the columns that differ from the stored row. -/
def saveColumns (record : Intervention) (resolvedAt : Option Int) (stored : Intervention) :
    Option Columns :=
  Columns.unlessEmpty
    { state := changed stored.state record.state
      resolution := changed stored.resolution record.resolution
      actedByUserId := changed stored.actedByUserId record.actedByUserId
      cleanupError := changed stored.cleanupError record.cleanupError
      resolvedAt := resolvedAt.filter fun time => decide (some time ≠ stored.resolvedAt) }

/-- What `finish_rejection` and `reject_automatically` save. -/
def finishRejection (user : Option Int) (copy : Intervention) (result : Except String Unit)
    (now : Int) : Pc :=
  match result with
  | .ok () =>
    .save
      { copy with
        state := .resolved
        resolution := some (if user.isSome then .manualBlocklist else .automaticBlocklist)
        actedByUserId := user
        resolvedAt := some now
        cleanupError := none }
      (some now)
  | .error message =>
    .save { copy with state := .active, cleanupError := some (jsSlice message 2000) } none

/-! ## The system -/

/-- The record, the processes with the Arr calls of the rejections, and the
users whose imports Arr has accepted. -/
structure World where
  record : Intervention
  procs : Nat → Pc := fun _ => .over
  works : Nat → Option Work := fun _ => none
  accepted : List Int := []

/-- What starts. -/
inductive Start
  | poll (poll : Poll)
  | reject (user : Int)
  | startImport (user : Int)
  /-- A user asks how an accepted import went: it was completed, or failed
  with a message. -/
  | importDone (user : Int) (failure : Option (Option String))

/-- What a process's step reads besides the record: the clock, whether the
server is there and enabled, and what Arr answers to the import command. -/
structure Env where
  clock : Int := 0
  server : Bool := true
  command : Except String Unit := .ok ()

/-- What happens. -/
inductive Event
  | start (p : Nat) (start : Start)
  | step (p : Nat) (env : Env)
  /-- A rejection's calls go on. -/
  | work (p : Nat) (answer : WorkAnswer)
  /-- A rejection's time is up. -/
  | timeOut (p : Nat) (env : Env)
  /-- A process stops; calls it has started go on. -/
  | stop (p : Nat)

namespace World

/-- The system with a process elsewhere. -/
def goto (s : World) (p : Nat) (pc : Pc) : World :=
  { s with procs := Function.update s.procs p pc }

/-- The system after an `UPDATE`. -/
def update (s : World) (columns : Columns) (clock : Int) : World :=
  { s with record := s.record.set columns clock }

/-- A process that claimed the record and still has Arr calls to make. -/
def Busy (s : World) (p : Nat) : Prop :=
  (s.procs p).calls = true ∨ (s.works p).any Work.calls = true

/-- What an unconditional `UPDATE` that a process is about to make sets. -/
def writes (s : World) (p : Nat) : Option Columns :=
  match s.procs p with
  | .items poll copy (item :: _) _ =>
    if item.id = some copy.queueId ∧ copy.state ≠ .resolved ∧ poll.shadowed = false then
      itemColumns poll copy item.fields
    else none
  | .settle poll copy false =>
    if copy.state = .resolved then none
    else some (resolveRecord (resolution copy poll.queueIds) poll.now)
  | .write columns => some columns
  | _ => none

/-- Where a process goes, past what it writes. -/
def next (s : World) (env : Env) : Pc → Option Pc
  | .existing poll => some (.items poll s.record poll.warnings false)
  | .items poll copy (item :: rest) warned =>
    match item.id with
    | none => some .over
    | some id =>
      let own := id = copy.queueId
      if own ∧ copy.state ≠ .resolved ∧ poll.shadowed = false ∧ copy.state ≠ .rejecting
          ∧ copy.state ≠ .importing ∧ item.fields.isNone then
        some .over
      else some (.items poll copy rest (warned || own))
  | .items poll copy [] warned => some (.settle poll copy warned)
  | .settle poll _ _ => some (if poll.automaticCleanup then .overdue poll else .over)
  | .overdue poll =>
    some (if s.record.state = .active
        ∧ s.record.cleanupDeadlineAt.any fun due => decide (due ≤ poll.now) then .load none
      else .over)
  | .load user =>
    some (if s.record.state = .resolved then .over else .claim user s.record)
  | .failImport message =>
    some (if s.record.state ≠ .importing then .over
      else
        .save
          { s.record with
            state := .active
            cleanupError := some (jsSlice (message.getD "Manual import failed.") 2000) }
          none)
  | .resolveImport user =>
    some (if s.record.state = .resolved ∨ s.record.state = .rejecting then .over
      else
        .save
          { s.record with
            state := .resolved
            resolution := some .manualImport
            actedByUserId := some user
            cleanupError := none }
          (some env.clock))
  | .save record resolvedAt =>
    some (match saveColumns record resolvedAt s.record with
      | some columns => .write columns
      | none => .over)
  | .write _ => some .over
  | _ => none

/-- A process's next step. -/
def stepProc (s : World) (p : Nat) (env : Env) : Option World :=
  match s.procs p with
  | .claim user copy =>
    if s.record.state = .active then
      some <| (s.update
        { state := some .rejecting, cleanupError := some none
          actedByUserId := user.map some } env.clock).goto p
        (.claimed user { copy with state := .rejecting, cleanupError := none })
    else some (s.goto p .over)
  | .claimed user copy =>
    if env.server then
      some ({ s with works := Function.update s.works p (some .queue) }.goto p (.await user copy))
    else
      some (s.goto p (finishRejection user copy
        (.error "The mapped Arr service is disabled or missing.") env.clock))
  | .await user copy =>
    match s.works p with
    | some (.ended result) => some (s.goto p (finishRejection user copy result env.clock))
    | _ => none
  | .startImport user =>
    if s.record.state = .active then
      some <| (s.update
        { state := some .importing, actedByUserId := some (some user)
          cleanupError := some none } env.clock).goto p (.command user)
    else some (s.goto p .over)
  | .command user =>
    match env.command with
    | .ok () => some ({ s with accepted := user :: s.accepted }.goto p .over)
    | .error message => some (s.goto p (.failImport (some message)))
  | pc =>
    (s.next env pc).map fun pc' =>
      (match s.writes p with
        | some columns => s.update columns env.clock
        | none => s).goto p pc'

/-- Where a new process begins. -/
def startPc (s : World) : Start → Option Pc
  | .poll poll => some (.existing poll)
  | .reject user => some (.load (some user))
  | .startImport user => some (.startImport user)
  | .importDone user failure =>
    if user ∈ s.accepted then
      some (match failure with
        | none => .resolveImport user
        | some message => .failImport message)
    else none

/-- One step of the system. -/
def step (s : World) : Event → Option World
  | .start p start =>
    match s.procs p, s.works p with
    | .over, none => (s.startPc start).map (s.goto p)
    | _, _ => none
  | .step p env => s.stepProc p env
  | .work p answer =>
    match s.works p with
    | some work =>
      if work.calls then
        some { s with works := Function.update s.works p (some (work.step answer)) }
      else none
    | none => none
  | .timeOut p env =>
    match s.procs p with
    | .await user copy =>
      some (s.goto p (finishRejection user copy (.error "Rejection timed out.") env.clock))
    | _ => none
  | .stop p => some (s.goto p .over)

/-- `step`, as a relation. -/
def Step (s : World) (event : Event) (t : World) : Prop := s.step event = some t

/-! ## Writes that do not come too late -/

/-- An unconditional `UPDATE` that does not come too late: it leaves a
resolved record as it is, and puts a record back to active only when no
rejection or import that claimed it has Arr calls to make. -/
structure InTime (s : World) (columns : Columns) : Prop where
  resolved : s.record.state = .resolved →
    (∀ state, columns.state = some state → state = .resolved)
      ∧ ∀ resolution, columns.resolution = some resolution → resolution = s.record.resolution
  active : columns.state = some .active → ∀ p, ¬s.Busy p

/-- **A step that makes no write too late.** -/
def Careful (s : World) : Event → Prop
  | .step p _ => ∀ columns, s.writes p = some columns → s.InTime columns
  | _ => True

/-- **One claim at work**: at most one process that claimed the record has Arr
calls to make, and none while the record is active. -/
structure OneWorks (s : World) : Prop where
  one : ∀ p q, s.Busy p → s.Busy q → p = q
  active : s.record.state = .active → ∀ p, ¬s.Busy p

/-! ## What a step can do -/

section Spec

variable {s t : World} {p q : Nat} {pc pc' : Pc} {event : Event}

theorem calls_finishRejection (user : Option Int) (copy : Intervention)
    (result : Except String Unit) (now : Int) :
    (finishRejection user copy result now).calls = false := by
  cases result <;> rfl

theorem calls_next {env : Env} (h : s.next env pc = some pc') : pc'.calls = false := by
  cases pc with
  | existing | settle | overdue | load | failImport | resolveImport | save | write =>
    rw [← Option.some.inj h]
    first | rfl | (split <;> rfl)
  | items poll copy rest warned =>
    cases rest with
    | nil =>
      rw [← Option.some.inj h]
      rfl
    | cons item rest =>
      unfold next at h
      dsimp only at h
      split at h
      · rw [← Option.some.inj h]
        rfl
      · split at h <;>
        · rw [← Option.some.inj h]
          rfl
  | claim | claimed | await | startImport | command | «over» => cases h

theorem calls_startPc {start : Start} (h : s.startPc start = some pc) : pc.calls = false := by
  cases start with
  | poll | reject | startImport =>
    rw [← Option.some.inj h]
    rfl
  | importDone user failure =>
    unfold startPc at h
    dsimp only at h
    split at h
    · rw [← Option.some.inj h]
      cases failure <;> rfl
    · cases h

/-- A process that goes where it calls nothing makes no other busy. -/
theorem busy_of_goto (hpc : pc.calls = false) (h : (s.goto p pc).Busy q) : s.Busy q := by
  unfold Busy goto at *
  dsimp only at h
  by_cases hq : q = p
  · subst hq
    rw [Function.update_self, hpc] at h
    exact .inr (h.resolve_left Bool.false_ne_true)
  · rw [Function.update_of_ne hq] at h
    exact h

/-- A process that has claimed the record is the only one that may be busy
anew. -/
theorem busy_of_claim (h : (s.goto p pc).Busy q) : s.Busy q ∨ q = p := by
  by_cases hq : q = p
  · exact .inr hq
  · unfold Busy goto at h
    dsimp only at h
    rw [Function.update_of_ne hq] at h
    exact .inl h

/-- **What a step can do**: leave the record, make one of the unconditional
writes, or claim an active record. Only a claim makes a process busy. -/
theorem step_cases (h : Step s event t) :
    (t.record = s.record ∧ ∀ q, t.Busy q → s.Busy q)
      ∨ (∃ p env columns, event = .step p env ∧ s.writes p = some columns
          ∧ t.record = s.record.set columns env.clock ∧ ∀ q, t.Busy q → s.Busy q)
      ∨ (s.record.state = .active ∧ t.record.state ≠ .active ∧ t.record.state ≠ .resolved
          ∧ ∃ p, ∀ q, t.Busy q → s.Busy q ∨ q = p) := by
  cases event with
  | start p start =>
    unfold Step step at h
    dsimp only at h
    split at h
    · obtain ⟨pc, hpc, rfl⟩ := Option.map_eq_some_iff.mp h
      exact .inl ⟨rfl, fun q => busy_of_goto (calls_startPc hpc)⟩
    · cases h
  | step p env =>
    have h : s.stepProc p env = some t := h
    unfold stepProc at h
    split at h
    · split at h
      · next hactive =>
        rw [← Option.some.inj h]
        exact .inr (.inr ⟨hactive, nofun, nofun, p, fun q => busy_of_claim⟩)
      · rw [← Option.some.inj h]
        exact .inl ⟨rfl, fun q => busy_of_goto rfl⟩
    · next user copy hclaimed =>
      split at h
      · rw [← Option.some.inj h]
        refine .inl ⟨rfl, fun q hq => ?_⟩
        by_cases hqp : q = p
        · subst hqp
          exact .inl (by rw [hclaimed]; rfl)
        · unfold Busy goto at hq
          dsimp only at hq
          rwa [Function.update_of_ne hqp, Function.update_of_ne hqp] at hq
      · rw [← Option.some.inj h]
        exact .inl ⟨rfl, fun q => busy_of_goto (calls_finishRejection ..)⟩
    · split at h
      · rw [← Option.some.inj h]
        exact .inl ⟨rfl, fun q => busy_of_goto (calls_finishRejection ..)⟩
      · cases h
    · split at h
      · next hactive =>
        rw [← Option.some.inj h]
        exact .inr (.inr ⟨hactive, nofun, nofun, p, fun q => busy_of_claim⟩)
      · rw [← Option.some.inj h]
        exact .inl ⟨rfl, fun q => busy_of_goto rfl⟩
    · split at h <;>
      · rw [← Option.some.inj h]
        exact .inl ⟨rfl, fun q => busy_of_goto rfl⟩
    · obtain ⟨pc', hpc', rfl⟩ := Option.map_eq_some_iff.mp h
      cases hwrites : s.writes p with
      | none => exact .inl ⟨rfl, fun q => busy_of_goto (calls_next hpc')⟩
      | some columns =>
        refine .inr (.inl ⟨p, env, columns, rfl, hwrites, rfl, fun q hq => ?_⟩)
        exact busy_of_goto (calls_next hpc') hq
  | work p answer =>
    unfold Step step at h
    dsimp only at h
    split at h
    · next work hwork =>
      split at h
      · next hcalls =>
        rw [← Option.some.inj h]
        refine .inl ⟨rfl, fun q hq => ?_⟩
        unfold Busy at *
        by_cases hqp : q = p
        · subst hqp
          rw [hwork]
          exact .inr hcalls
        · dsimp only at hq
          rwa [Function.update_of_ne hqp] at hq
      · cases h
    · cases h
  | timeOut p env =>
    unfold Step step at h
    dsimp only at h
    split at h
    · rw [← Option.some.inj h]
      exact .inl ⟨rfl, fun q => busy_of_goto (calls_finishRejection ..)⟩
    · cases h
  | stop p =>
    rw [← Option.some.inj h]
    exact .inl ⟨rfl, fun q => busy_of_goto rfl⟩

theorem state_set (record : Intervention) (columns : Columns) (clock : Int) :
    (record.set columns clock).state = columns.state.getD record.state := rfl

theorem resolution_set (record : Intervention) (columns : Columns) (clock : Int) :
    (record.set columns clock).resolution = columns.resolution.getD record.resolution := rfl

/-- One claim is at work after a careful step. -/
theorem OneWorks.step (h : s.OneWorks) (hcareful : s.Careful event) (hstep : Step s event t) :
    t.OneWorks := by
  rcases step_cases hstep with ⟨hrecord, hbusy⟩ | ⟨p, env, columns, rfl, hwrites, hrecord, hbusy⟩
    | ⟨hactive, hclaimed, -, p, hbusy⟩
  · refine ⟨fun p q hp hq => h.one p q (hbusy p hp) (hbusy q hq), fun hactive q hq => ?_⟩
    exact h.active (hrecord ▸ hactive) q (hbusy q hq)
  · refine ⟨fun p q hp hq => h.one p q (hbusy p hp) (hbusy q hq), fun hactive q hq => ?_⟩
    have hintime := hcareful columns hwrites
    rw [hrecord, state_set] at hactive
    cases hstate : columns.state with
    | none =>
      rw [hstate] at hactive
      exact h.active hactive q (hbusy q hq)
    | some state =>
      rw [hstate] at hactive
      have hback : columns.state = some .active := by
        rw [hstate]
        exact congrArg some hactive
      exact hintime.active hback q (hbusy q hq)
  · -- the record was active, so nobody was at work before the claim
    have hidle := h.active hactive
    refine ⟨fun q r hq hr => ?_, fun hback => absurd hback hclaimed⟩
    rw [(hbusy q hq).resolve_left (hidle q), (hbusy r hr).resolve_left (hidle r)]

/-- A resolved record that a process leaves as it is. -/
def StaysAs (resolution : Option Resolution) (s : World) : Prop :=
  s.record.state = .resolved ∧ s.record.resolution = resolution

/-- A resolved record stays as it is over a careful step. -/
theorem StaysAs.step {resolution : Option Resolution} (h : s.StaysAs resolution)
    (hcareful : s.Careful event) (hstep : Step s event t) : t.StaysAs resolution := by
  obtain ⟨hresolved, hresolution⟩ := h
  rcases step_cases hstep with ⟨hrecord, -⟩ | ⟨p, env, columns, rfl, hwrites, hrecord, -⟩
    | ⟨hactive, -⟩
  · exact ⟨hrecord ▸ hresolved, hrecord ▸ hresolution⟩
  · obtain ⟨hstate, hsame⟩ := (hcareful columns hwrites).resolved hresolved
    unfold StaysAs
    rw [hrecord, state_set, resolution_set]
    constructor
    · cases hset : columns.state with
      | none => exact hresolved
      | some state => exact hstate state hset
    · cases hset : columns.resolution with
      | none => exact hresolution
      | some r => exact (hsame r hset).trans hresolution
  · rw [hresolved] at hactive
    cases hactive

end Spec

/-! ## Runs -/

/-- A record before any of the processes. -/
def start (record : Intervention) : World := { record := record }

theorem oneWorks_start (record : Intervention) : (start record).OneWorks := by
  have hidle (p : Nat) : ¬(start record).Busy p := by
    rintro (h | h) <;> cases h
  exact ⟨fun p q hp => absurd hp (hidle p), fun _ => hidle⟩

/-- **What a record is owed** in a run: at most one rejection or import that
claimed it has Arr calls to make, and what is resolved stays so, with its
resolution, however the run goes on. -/
structure Settled (ok : World → Event → Prop) (s : World) : Prop where
  one : ∀ p q, s.Busy p → s.Busy q → p = q
  stays : ∀ events t, Run (Guarded Step ok) s events t → s.record.state = .resolved →
    t.record.state = .resolved ∧ t.record.resolution = s.record.resolution

end World

open World

/-- A warning of a download in the queue. -/
def warned : Intervention := { queueId := 5, fields := ⟨"Film", "[]", false, none, none⟩ }

theorem careful_of_none {s : World} {p : Nat} (h : s.writes p = none) (env : Env) :
    s.Careful (.step p env) := by
  intro columns hcolumns
  rw [h] at hcolumns
  cases hcolumns

/-- The world after some events. -/
def after (events : List Event) : World := (events.foldlM step (start warned)).getD (start warned)

/-- A user rejects the download, and the calls succeed. -/
def rejection : List Event :=
  [.start 0 (.reject 7), .step 0 {}, .step 0 {}, .step 0 {}, .work 0 .ok, .work 0 .ok, .work 0 .ok,
    .step 0 {}, .step 0 {}, .step 0 {}]

/-- A user's rejection hangs in its Arr calls, and a poll that does not find
the download any more resolves the record. -/
def resolvedMeanwhile : List Event :=
  [.start 0 (.reject 7), .step 0 {}, .step 0 {}, .step 0 {},
    .start 1 (.poll { queue := [], now := 10 }), .step 1 {}, .step 1 {}, .step 1 {}]

end Foreseerr.Interventions

import Foreseerr.Json
import Foreseerr.Run
import Foreseerr.Table
import Mathlib.Data.List.Nodup

/-!
# The stored resolutions and the miss sightings

`mappinglayer/resolutions.rs` stores what an item of a foreign catalogue
resolves to, and counts the sightings of items that resolve to nothing. A
sighting waits in a batch until a timer or a `flush_misses` takes the batch
and saves its entries one after another; the resolver saves answers and
misses of its own. Each save reads the row and writes it in two statements.

The write of a kept answer adds to the count (`"hitCount" + ?1`), but the
other one sets what the save had read plus its own sightings, and the origin
the save carries, whatever the row has become in between. So a sighting can
be lost and a miss can replace an answer
(`Sightings.lost_sighting`). In the runs in which no such write meets a
changed row every sighting is counted once (`Sightings.counted`).
-/

namespace Foreseerr

/-! ## The table -/

/-- The origins of a `mapping_resolution` row. -/
inductive ResolutionOrigin
  | tmdbFind
  | title
  | prequel
  | sonarr
  | miss
  | manual
deriving DecidableEq, Repr

/-- `IdRef`: an id in a namespace, or one season of it. -/
structure IdRef where
  ns : String
  id : String
  season : Option Int := none
deriving DecidableEq, Repr

/-- What sightings are counted for: a namespace and an id. -/
def IdRef.item (r : IdRef) : String × String := (r.ns, r.id)

/-- A row of `mapping_resolution`. -/
structure ResolutionRow where
  id : Nat
  srcNs : String
  srcId : String
  mediaType : String := ""
  tmdbId : Option Int := none
  tmdbType : Option String := none
  origin : ResolutionOrigin
  title : Option String := none
  year : Option Int := none
  discoverSource : Option String := none
  detail : Option String := none
  hitCount : Nat := 0
  checkedAt : Int := 0
  createdAt : Int := 0
  updatedAt : Int := 0
deriving DecidableEq, Repr

/-- What the unique index is over. -/
def ResolutionRow.identity (row : ResolutionRow) : String × String × String :=
  (row.srcNs, row.srcId, row.mediaType)

/-- The namespace and the id of a row. -/
def ResolutionRow.item (row : ResolutionRow) : String × String := (row.srcNs, row.srcId)

/-- `Write`: never manual, since corrections are written elsewhere. -/
structure ResolutionWrite where
  r : IdRef
  mediaType : Option String := none
  tmdbId : Option Int := none
  tmdbType : Option String := none
  origin : ResolutionOrigin
  title : Option String := none
  year : Option Int := none
  discoverSource : Option String := none
  detail : Option String := none
  hits : Nat := 0
  attempted : Bool := false
  notManual : origin ≠ .manual

/-- The identity of the row an insert of the write makes. -/
def ResolutionWrite.identity (w : ResolutionWrite) : String × String × String :=
  (w.r.ns, w.r.id, w.mediaType.getD "")

/-- What `find_one` reads of a row. -/
structure FoundRow where
  id : Nat
  origin : ResolutionOrigin
  hitCount : Nat
deriving DecidableEq, Repr

/-- `find_one`. -/
def findOne (rows : List ResolutionRow) (r : IdRef) (mediaType : String) (manual : Bool) :
    Option FoundRow :=
  (rows.find? fun row => row.identity == (r.ns, r.id, mediaType)
      && (!manual || row.origin == .manual)).map
    fun row => ⟨row.id, row.origin, row.hitCount⟩

/-- Whether a save leaves the answer it found alone. -/
def ResolutionWrite.keepsAnswer (w : ResolutionWrite) (found : FoundRow) : Bool :=
  found.origin == .manual || (w.origin == .miss && found.origin != .miss)

/-- The `UPDATE` of a row whose answer is replaced: its count is what was read
plus the write's sightings. -/
def ResolutionWrite.overwrite (w : ResolutionWrite) (found : FoundRow) (now : Int)
    (row : ResolutionRow) : ResolutionRow :=
  { row with
    tmdbId := w.tmdbId
    tmdbType := w.tmdbType
    origin := w.origin
    hitCount := found.hitCount + w.hits
    checkedAt := if w.attempted then now else row.checkedAt
    updatedAt := now
    title := (w.title.filter (· ≠ "")).or row.title
    year := (w.year.filter (· ≠ 0)).or row.year
    discoverSource := (w.discoverSource.filter (· ≠ "")).or row.discoverSource
    detail := w.detail.or row.detail }

/-- The `UPDATE` of a row whose answer is kept. -/
def ResolutionRow.addHits (hits : Nat) (row : ResolutionRow) : ResolutionRow :=
  { row with hitCount := row.hitCount + hits }

/-- An `UPDATE ... WHERE "id" = ?`. -/
def updateRow (rows : List ResolutionRow) (id : Nat) (f : ResolutionRow → ResolutionRow) :
    List ResolutionRow :=
  rows.map fun row => if row.id = id then f row else row

/-- The row an `INSERT` makes. -/
def ResolutionWrite.insertedRow (w : ResolutionWrite) (id : Nat) (now : Int) : ResolutionRow where
  id := id
  srcNs := w.r.ns
  srcId := w.r.id
  mediaType := w.mediaType.getD ""
  tmdbId := w.tmdbId
  tmdbType := w.tmdbType
  origin := w.origin
  title := w.title
  year := w.year
  discoverSource := w.discoverSource
  detail := w.detail
  hitCount := w.hits
  checkedAt := if w.attempted then now else 0
  createdAt := now
  updatedAt := now

/-- A `mapping_resolution` table with its primary key, the next id it gives and
its unique index. -/
structure ResolutionTable where
  rows : List ResolutionRow
  nextId : Nat
  ids : (rows.map ResolutionRow.id).Nodup
  ids_lt : ∀ row ∈ rows, row.id < nextId
  identities : (rows.map ResolutionRow.identity).Nodup

/-! ## The batch and the saves -/

/-- `Observation`: the id and the fields given. -/
structure Observation where
  r : IdRef
  fields : List (String × Json) := []

/-- `Observation::text`. -/
def Observation.text (observation : Observation) (key : String) : Option String :=
  (Json.getField key observation.fields).bind Json.asStr

/-- `Observation::key`. -/
def Observation.key (observation : Observation) : String :=
  observation.r.ns ++ ":" ++ observation.r.id ++ ":" ++ (observation.text "mediaType").getD ""

/-- `int_of`: a double as an integer. -/
def intOf (n : ℚ) : Option Int :=
  if n.den = 1 ∧ n.num.natAbs ≤ 9007199254740991 then some n.num else none

/-- The year of an observation. -/
def Observation.year (observation : Observation) : Option Int :=
  match Json.getField "year" observation.fields with
  | some (.num n) => intOf n
  | _ => none

/-- The write of a batch entry. -/
def Observation.write (observation : Observation) (hits : Nat) : ResolutionWrite where
  r := observation.r
  mediaType := observation.text "mediaType"
  title := observation.text "title"
  year := observation.year
  discoverSource := observation.text "discoverSource"
  detail := observation.text "detail"
  origin := .miss
  hits := hits
  notManual := by decide

/-- An entry of the batch. -/
structure PendingMiss where
  key : String
  observation : Observation
  hits : Nat

/-- A sighting under an entry's key: one more, with the newest fields. -/
def PendingMiss.see (entry : PendingMiss) (observation : Observation) : PendingMiss where
  key := entry.key
  observation :=
    { r := observation.r
      fields := observation.fields.foldl (fun fields field => Json.setField field.1 field.2 fields)
        entry.observation.fields }
  hits := entry.hits + 1

/-- The batch after a sighting. -/
def seeMiss (batch : List PendingMiss) (observation : Observation) : List PendingMiss :=
  match batch with
  | [] => [⟨observation.key, observation, 1⟩]
  | entry :: rest =>
    if entry.key = observation.key then entry.see observation :: rest
    else entry :: seeMiss rest observation

/-- Where a save is: before its look for a manual row, before its look for the
row of its media type, before its write. -/
inductive SaveStage
  | findManual
  | find
  | write (existing : Option FoundRow)
deriving DecidableEq, Repr

/-- Where a save starts: only a miss looks for a manual row. -/
def ResolutionWrite.firstStage (w : ResolutionWrite) : SaveStage :=
  if w.origin = .miss then .findManual else .find

/-- A `write_batch` or a resolver's save: the writes left, the first of them
under way, and whether its insert has failed once. -/
structure SaveJob where
  id : Nat
  writes : List ResolutionWrite
  stage : SaveStage
  retried : Bool := false

/-- A job of some writes. -/
def SaveJob.start (id : Nat) (writes : List ResolutionWrite) : SaveJob where
  id := id
  writes := writes
  stage := match writes with
    | [] => .find
    | w :: _ => w.firstStage

/-- `mapping_resolution` and `PENDING`, with every save under way and the timers
asleep; `recorded` is history: the `record_miss` calls. -/
structure Sightings where
  rows : List ResolutionRow
  nextRow : Nat
  batch : List PendingMiss := []
  timer : Option Nat := none
  timers : Nat := 0
  sleeping : List Nat := []
  jobs : List SaveJob := []
  recorded : List (String × String) := []

namespace Sightings

/-- The process starts with nothing pending. -/
def start (table : ResolutionTable) : Sightings where
  rows := table.rows
  nextRow := table.nextId

/-! ## The steps -/

/-- A step: `record_miss`, a timer that fires, `flush_misses`, a resolver's
save (of an answer or a miss, which counts no sighting), the next read of a
job's save, and its next write. -/
inductive Act
  | record (observation : Observation)
  | fire (timer : Nat)
  | flush
  | save (write : ResolutionWrite)
  | read (job : Nat)
  | write (job : Nat) (now : Int)

/-- `record_miss`. -/
def recordMiss (s : Sightings) (observation : Observation) : Sightings :=
  let s := { s with recorded := s.recorded ++ [observation.r.item] }
  if observation.r.id = "" then s
  else
    let s := { s with batch := seeMiss s.batch observation }
    if s.timer.isNone then
      { s with
        timers := s.timers + 1
        timer := some (s.timers + 1)
        sleeping := (s.timers + 1) :: s.sleeping }
    else s

/-- A job more. -/
def startJob (s : Sightings) (writes : List ResolutionWrite) : Sightings :=
  { s with jobs := s.jobs ++ [SaveJob.start s.jobs.length writes] }

/-- The batch is taken and written. -/
def takeBatch (s : Sightings) : Sightings :=
  { s with timer := none, batch := [] }.startJob
    (s.batch.map fun entry : PendingMiss => entry.observation.write entry.hits)

/-- A timer that has slept. -/
def fire (s : Sightings) (timer : Nat) : Sightings :=
  let s := { s with sleeping := s.sleeping.filter (· ≠ timer) }
  if s.timer = some timer then s.takeBatch else s

/-- A job moves on. -/
def setJob (s : Sightings) (job : SaveJob) : Sightings :=
  { s with jobs := s.jobs.map fun other => if other.id = job.id then job else other }

/-- The next read of a job's save. -/
def read (s : Sightings) (job : SaveJob) : Option Sightings :=
  match job.writes, job.stage with
  | w :: _, .findManual =>
    match findOne s.rows w.r "" true with
    | some found => some (s.setJob { job with stage := .write (some found) })
    | none => some (s.setJob { job with stage := .find })
  | w :: _, .find =>
    some (s.setJob { job with
      stage := .write (findOne s.rows w.r (w.mediaType.getD "") false) })
  | _, _ => none

/-- The write of a save: of the row that was read, or an insert, which the
unique index may refuse. -/
def writeRow (s : Sightings) (w : ResolutionWrite) (existing : Option FoundRow) (now : Int) :
    Option Sightings :=
  match existing with
  | some found =>
    some { s with
      rows :=
        if w.keepsAnswer found then
          if w.hits ≠ 0 then updateRow s.rows found.id (ResolutionRow.addHits w.hits) else s.rows
        else updateRow s.rows found.id (w.overwrite found now) }
  | none =>
    if s.rows.any fun row => row.identity == w.identity then none
    else some { s with
      rows := s.rows ++ [w.insertedRow s.nextRow now]
      nextRow := s.nextRow + 1 }

/-- The next write of a job's save. A save whose insert failed starts again,
once. -/
def write (s : Sightings) (job : SaveJob) (now : Int) : Option Sightings :=
  match job.writes, job.stage with
  | w :: rest, .write existing =>
    match s.writeRow w existing now with
    | some s => some (s.setJob (SaveJob.start job.id rest))
    | none =>
      if job.retried then some (s.setJob (SaveJob.start job.id rest))
      else some (s.setJob { job with stage := w.firstStage, retried := true })
  | _, _ => none

/-- The job of an id. -/
def job? (s : Sightings) (id : Nat) : Option SaveJob := s.jobs.find? fun job => job.id == id

/-- One step. -/
def next (s : Sightings) : Act → Option Sightings
  | .record observation => some (s.recordMiss observation)
  | .fire timer => if timer ∈ s.sleeping then some (s.fire timer) else none
  | .flush => some s.takeBatch
  | .save w => if w.hits = 0 then some (s.startJob [w]) else none
  | .read job => (s.job? job).bind fun job => s.read job
  | .write job now => (s.job? job).bind fun job => s.write job now

/-- A step from one state to another. -/
def Step (s : Sightings) (act : Act) (t : Sightings) : Prop := s.next act = some t

/-! ## What is promised -/

/-- The sightings a row counts for an item. -/
def rowHits (item : String × String) (row : ResolutionRow) : Nat :=
  if row.item = item then row.hitCount else 0

/-- The sum of `hitCount` over an item's rows. -/
def hits (rows : List ResolutionRow) (item : String × String) : Nat := (rows.map (rowHits item)).sum

/-- Nothing is pending. -/
def Quiet (s : Sightings) : Prop := s.batch = [] ∧ ∀ job ∈ s.jobs, job.writes = []

/-- **Every sighting is counted once**: when nothing is pending, an item's count
has grown by its `record_miss` calls. -/
def Counted (table : ResolutionTable) (s : Sightings) : Prop :=
  s.Quiet → ∀ item, hits s.rows item = hits table.rows item + s.recorded.count item

/-- **Answers are kept**: of every row there is still one; a manual row has kept
its answer, and an answer is still an answer. -/
def Kept (s t : Sightings) : Prop :=
  ∀ row ∈ s.rows, ∃ row' ∈ t.rows, row'.id = row.id ∧ row'.identity = row.identity
    ∧ (row.origin = .manual → row'.origin = .manual ∧ row'.tmdbId = row.tmdbId
      ∧ row'.tmdbType = row.tmdbType)
    ∧ (row.origin ≠ .miss → row'.origin ≠ .miss)

/-- **No write meets a changed row**: the count of a row whose answer is
replaced is still what the save read, and a miss replaces no answer. A sighting
is of an id that is not empty, and an entry of its key is of the same id. -/
def Ok (s : Sightings) : Act → Prop
  | .record observation =>
    observation.r.id ≠ "" ∧
      ∀ entry ∈ s.batch, entry.key = observation.key → entry.observation.r.item = observation.r.item
  | .write id _ =>
    ∀ job w rest found row, s.job? id = some job → job.writes = w :: rest →
      job.stage = .write (some found) → w.keepsAnswer found = false →
      row ∈ s.rows → row.id = found.id →
      row.hitCount = found.hitCount ∧ (w.origin = .miss → row.origin = .miss)
  | _ => True

/-! ## The invariant -/

/-- The sightings of an item that writes carry. -/
def writeHits (item : String × String) (writes : List ResolutionWrite) : Nat :=
  (writes.map fun w => if w.r.item = item then w.hits else 0).sum

/-- The sightings of an item in the batch. -/
def batchHits (item : String × String) (batch : List PendingMiss) : Nat :=
  (batch.map fun entry => if entry.observation.r.item = item then entry.hits else 0).sum

/-- The sightings of an item in the jobs. -/
def jobHits (item : String × String) (jobs : List SaveJob) : Nat :=
  (jobs.map fun job => writeHits item job.writes).sum

/-- What a job's save knows of the table: the row it found is one of its item,
and manual exactly if it was when it was read; and once an insert has failed,
there is a row of its identity. -/
def JobSound (rows : List ResolutionRow) (job : SaveJob) : Prop :=
  ∀ w rest, job.writes = w :: rest →
    (∀ found, job.stage = .write (some found) →
      ∃ row ∈ rows, row.id = found.id ∧ row.item = w.r.item
        ∧ (row.origin = .manual ↔ found.origin = .manual))
    ∧ (job.retried = true → job.stage ≠ .write none ∧ ∃ row ∈ rows, row.identity = w.identity)

/-- **The invariant**: keys are keys, the saves know their rows, and each
sighting is in one place. -/
structure Sound (table : ResolutionTable) (s : Sightings) : Prop where
  ids : (s.rows.map ResolutionRow.id).Nodup
  ids_lt : ∀ row ∈ s.rows, row.id < s.nextRow
  identities : (s.rows.map ResolutionRow.identity).Nodup
  jobIds : (s.jobs.map SaveJob.id).Nodup
  jobIds_lt : ∀ job ∈ s.jobs, job.id < s.jobs.length
  jobs : ∀ job ∈ s.jobs, JobSound s.rows job
  counted : ∀ item, hits s.rows item + batchHits item s.batch + jobHits item s.jobs
    = hits table.rows item + s.recorded.count item

variable {table : ResolutionTable} {s t : Sightings}

/-! ### Rows -/

/-- An update that keeps ids keeps the column of ids, and any other column it
keeps. -/
theorem map_updateRow {α : Type} {rows : List ResolutionRow} {id : Nat}
    {f : ResolutionRow → ResolutionRow} (column : ResolutionRow → α)
    (h : ∀ row, column (f row) = column row) :
    (updateRow rows id f).map column = rows.map column := by
  rw [updateRow, List.map_map]
  refine List.map_congr_left fun row _ => ?_
  show column (if row.id = id then f row else row) = column row
  split
  · exact h row
  · rfl

/-- Rows of one identity are of one item. -/
theorem item_of_identity {row row' : ResolutionRow} (h : row'.identity = row.identity) :
    row'.item = row.item := by
  simp only [ResolutionRow.identity, Prod.mk.injEq] at h
  rw [ResolutionRow.item, ResolutionRow.item, h.1, h.2.1]

theorem mem_updateRow {rows : List ResolutionRow} {id : Nat} {f : ResolutionRow → ResolutionRow}
    {row : ResolutionRow} (h : row ∈ rows) :
    (if row.id = id then f row else row) ∈ updateRow rows id f :=
  List.mem_map_of_mem h

/-- A row of a table with distinct ids is told by its id. -/
theorem eq_of_id {rows : List ResolutionRow} (h : (rows.map ResolutionRow.id).Nodup)
    {a b : ResolutionRow} (ha : a ∈ rows) (hb : b ∈ rows) (hid : a.id = b.id) : a = b :=
  List.inj_on_of_nodup_map h ha hb hid

/-- What an update of one row's count does to the sums. -/
theorem hits_updateRow {rows : List ResolutionRow} (hids : (rows.map ResolutionRow.id).Nodup)
    {row : ResolutionRow} (hrow : row ∈ rows) {f : ResolutionRow → ResolutionRow} {n : Nat}
    (hidentity : (f row).identity = row.identity) (hcount : (f row).hitCount = row.hitCount + n)
    (item : String × String) :
    hits (updateRow rows row.id f) item
      = hits rows item + if row.item = item then n else 0 := by
  have hsum := Table.sum_map_update hids hrow f (rowHits item)
  have hitem : (f row).item = row.item := item_of_identity hidentity
  have hweight : rowHits item (f row)
      = rowHits item row + if row.item = item then n else 0 := by
    unfold rowHits
    rw [hitem, hcount]
    split <;> simp
  rw [hits, updateRow, hits]
  omega

/-- What `find_one` finds is a row of the item. -/
theorem findOne_spec {rows : List ResolutionRow} {r : IdRef} {mediaType : String} {manual : Bool}
    {found : FoundRow} (h : findOne rows r mediaType manual = some found) :
    ∃ row ∈ rows, row.id = found.id ∧ row.item = r.item
      ∧ (row.origin = .manual ↔ found.origin = .manual) := by
  obtain ⟨row, hrow, rfl⟩ := Option.map_eq_some_iff.mp h
  have hidentity := List.find?_some hrow
  simp only [Bool.and_eq_true, beq_iff_eq, ResolutionRow.identity, Prod.mk.injEq] at hidentity
  refine ⟨row, List.mem_of_find?_eq_some hrow, rfl, ?_, Iff.rfl⟩
  rw [ResolutionRow.item, IdRef.item, hidentity.1.1, hidentity.1.2.1]

/-- Where there is a row of the identity, `find_one` finds one. -/
theorem findOne_isSome {rows : List ResolutionRow} {w : ResolutionWrite}
    (h : ∃ row ∈ rows, row.identity = w.identity) :
    findOne rows w.r (w.mediaType.getD "") false ≠ none := by
  obtain ⟨row, hrow, hidentity⟩ := h
  intro hnone
  simp only [findOne, Option.map_eq_none_iff, List.find?_eq_none, Bool.not_false, Bool.true_or,
    Bool.and_true, beq_iff_eq] at hnone
  exact hnone row hrow hidentity

/-! ### Jobs -/

theorem job?_spec {id : Nat} {job : SaveJob} (h : s.job? id = some job) :
    job ∈ s.jobs ∧ job.id = id :=
  ⟨List.mem_of_find?_eq_some h, by simpa using List.find?_some h⟩

/-- What a job knows stays true while rows only come and keep their ids,
identities and whether they are manual. -/
theorem JobSound.mono {rows rows' : List ResolutionRow} {job : SaveJob} (h : JobSound rows job)
    (hrows : ∀ row ∈ rows, ∃ row' ∈ rows', row'.id = row.id ∧ row'.identity = row.identity
      ∧ (row'.origin = .manual ↔ row.origin = .manual)) : JobSound rows' job := by
  intro w rest hwrites
  obtain ⟨hfound, hretried⟩ := h w rest hwrites
  refine ⟨fun found hstage => ?_, fun hr => ⟨(hretried hr).1, ?_⟩⟩
  · obtain ⟨row, hrow, hid, hitem, hmanual⟩ := hfound found hstage
    obtain ⟨row', hrow', hid', hidentity, hmanual'⟩ := hrows row hrow
    exact ⟨row', hrow', hid'.trans hid, (item_of_identity hidentity).trans hitem,
      hmanual'.trans hmanual⟩
  · obtain ⟨row, hrow, hidentity⟩ := (hretried hr).2
    obtain ⟨row', hrow', -, hidentity', -⟩ := hrows row hrow
    exact ⟨row', hrow', hidentity'.trans hidentity⟩

theorem jobSound_start (rows : List ResolutionRow) (id : Nat) (writes : List ResolutionWrite) :
    JobSound rows (SaveJob.start id writes) := by
  intro w rest hwrites
  have hwrites : writes = w :: rest := hwrites
  subst hwrites
  refine ⟨fun found hstage => ?_, fun hretried => by cases hretried⟩
  simp only [SaveJob.start, ResolutionWrite.firstStage] at hstage
  split at hstage <;> cases hstage

/-- The sightings in the jobs when one of them moves on. -/
theorem jobHits_setJob {jobs : List SaveJob} (hids : (jobs.map SaveJob.id).Nodup)
    {job job' : SaveJob} (hjob : job ∈ jobs) (hid : job'.id = job.id) (item : String × String) :
    jobHits item (jobs.map fun other => if other.id = job'.id then job' else other)
        + writeHits item job.writes
      = jobHits item jobs + writeHits item job'.writes := by
  rw [hid]
  exact Table.sum_map_update hids hjob (fun _ => job') fun job => writeHits item job.writes

theorem writeHits_cons (item : String × String) (w : ResolutionWrite) (rest : List ResolutionWrite) :
    writeHits item (w :: rest) = (if w.r.item = item then w.hits else 0) + writeHits item rest := by
  simp [writeHits]

/-- A job moves on: what it knows must be true, and what it no longer carries
must be in the rows. -/
theorem Sound.setJob (h : Sound table s) {job : SaveJob} (job' : SaveJob) (hjob : job ∈ s.jobs)
    (hid : job'.id = job.id) (rows : List ResolutionRow) (nextRow : Nat)
    (hrows : Sound table s → (rows.map ResolutionRow.id).Nodup ∧ (∀ row ∈ rows, row.id < nextRow)
      ∧ (rows.map ResolutionRow.identity).Nodup)
    (hkept : ∀ row ∈ s.rows, ∃ row' ∈ rows, row'.id = row.id ∧ row'.identity = row.identity
      ∧ (row'.origin = .manual ↔ row.origin = .manual))
    (hsound : JobSound rows job')
    (hcount : ∀ item, hits rows item + writeHits item job'.writes = hits s.rows item + writeHits item job.writes) :
    Sound table ({ s with rows := rows, nextRow := nextRow }.setJob job') where
  ids := (hrows h).1
  ids_lt := (hrows h).2.1
  identities := (hrows h).2.2
  jobIds := by
    have hsame : (s.jobs.map fun other => if other.id = job'.id then job' else other).map SaveJob.id
        = s.jobs.map SaveJob.id := by
      rw [List.map_map]
      refine List.map_congr_left fun other _ => ?_
      show (if other.id = job'.id then job' else other).id = other.id
      split
      · next heq => exact heq.symm
      · rfl
    show ((s.jobs.map fun other => if other.id = job'.id then job' else other).map
      SaveJob.id).Nodup
    rw [hsame]
    exact h.jobIds
  jobIds_lt := by
    intro other hother
    obtain ⟨before, hbefore, rfl⟩ := List.mem_map.mp hother
    show _ < (s.jobs.map _).length
    rw [List.length_map]
    split
    · rw [hid]
      exact h.jobIds_lt job hjob
    · exact h.jobIds_lt before hbefore
  jobs := by
    intro other hother
    obtain ⟨before, hbefore, rfl⟩ := List.mem_map.mp hother
    split
    · exact hsound
    · exact (h.jobs before hbefore).mono hkept
  counted := by
    intro item
    have hjobs := jobHits_setJob h.jobIds hjob hid item
    have hbefore := h.counted item
    have hmoved := hcount item
    show hits rows item + batchHits item s.batch
        + jobHits item (s.jobs.map fun other => if other.id = job'.id then job' else other)
      = hits table.rows item + s.recorded.count item
    omega

/-! ### The batch -/

/-- A sighting is one more in the batch, where its key stands for its item. -/
theorem batchHits_seeMiss {batch : List PendingMiss} {observation : Observation}
    (h : ∀ entry ∈ batch, entry.key = observation.key → entry.observation.r.item = observation.r.item)
    (item : String × String) :
    batchHits item (seeMiss batch observation)
      = batchHits item batch + if observation.r.item = item then 1 else 0 := by
  induction batch with
  | nil => simp [seeMiss, batchHits]
  | cons entry rest ih =>
    obtain ⟨hentry, hrest⟩ := List.forall_mem_cons.mp h
    unfold seeMiss
    split
    · next hkey =>
      simp only [batchHits, List.map_cons, List.sum_cons, PendingMiss.see, hentry hkey]
      split <;> omega
    · have ih := ih hrest
      simp only [batchHits, List.map_cons, List.sum_cons] at ih ⊢
      omega

theorem Sound.recordMiss (h : Sound table s) {observation : Observation}
    (hid : observation.r.id ≠ "")
    (hkey : ∀ entry ∈ s.batch, entry.key = observation.key →
      entry.observation.r.item = observation.r.item) : Sound table (s.recordMiss observation) := by
  have hcounted : ∀ item, hits s.rows item + batchHits item (seeMiss s.batch observation)
      + jobHits item s.jobs = hits table.rows item + (s.recorded ++ [observation.r.item]).count item := by
    intro item
    have hbefore := h.counted item
    have hbatch := batchHits_seeMiss hkey item
    rw [List.count_append, List.count_singleton]
    simp only [beq_iff_eq]
    omega
  simp only [Sightings.recordMiss, if_neg hid]
  split
  · exact { h with counted := hcounted }
  · exact { h with counted := hcounted }

/-- A job more, with what it carries. -/
theorem Sound.startJob {s' : Sightings} (h : Sound table s) {writes : List ResolutionWrite}
    (hrows : s'.rows = s.rows) (hnext : s'.nextRow = s.nextRow) (hjobs : s'.jobs = s.jobs)
    (hrecorded : s'.recorded = s.recorded)
    (hbatch : ∀ item, batchHits item s'.batch + writeHits item writes = batchHits item s.batch) :
    Sound table (s'.startJob writes) where
  ids := hrows ▸ h.ids
  ids_lt := by
    show ∀ row ∈ s'.rows, row.id < s'.nextRow
    rw [hrows, hnext]
    exact h.ids_lt
  identities := hrows ▸ h.identities
  jobIds := by
    show ((s'.jobs ++ [SaveJob.start s'.jobs.length writes]).map SaveJob.id).Nodup
    rw [hjobs, List.map_append, List.nodup_append]
    refine ⟨h.jobIds, List.nodup_singleton _, ?_⟩
    intro a ha b hb
    obtain ⟨job, hjob, rfl⟩ := List.mem_map.mp ha
    obtain rfl := List.mem_singleton.mp hb
    exact Nat.ne_of_lt (h.jobIds_lt job hjob)
  jobIds_lt := by
    show ∀ job ∈ s'.jobs ++ [SaveJob.start s'.jobs.length writes],
      job.id < (s'.jobs ++ [SaveJob.start s'.jobs.length writes]).length
    rw [hjobs, List.length_append, List.length_singleton]
    intro job hjob
    rcases List.mem_append.mp hjob with hjob | hjob
    · exact (h.jobIds_lt job hjob).trans (Nat.lt_succ_self _)
    · rw [List.mem_singleton.mp hjob]
      exact Nat.lt_succ_self _
  jobs := by
    show ∀ job ∈ s'.jobs ++ [SaveJob.start s'.jobs.length writes], JobSound s'.rows job
    rw [hjobs, hrows]
    intro job hjob
    rcases List.mem_append.mp hjob with hjob | hjob
    · exact h.jobs job hjob
    · rw [List.mem_singleton.mp hjob]
      exact jobSound_start _ _ _
  counted := by
    intro item
    have hbefore := h.counted item
    have hmoved := hbatch item
    have hjob : jobHits item (s'.jobs ++ [SaveJob.start s'.jobs.length writes])
        = jobHits item s.jobs + writeHits item writes := by
      rw [hjobs, jobHits, List.map_append, List.sum_append]
      simp [jobHits, SaveJob.start]
    show hits s'.rows item + batchHits item s'.batch
        + jobHits item (s'.jobs ++ [SaveJob.start s'.jobs.length writes])
      = hits table.rows item + s'.recorded.count item
    rw [hjob, hrows, hrecorded]
    omega

theorem writeHits_batch (item : String × String) (batch : List PendingMiss) :
    writeHits item (batch.map fun entry => entry.observation.write entry.hits)
      = batchHits item batch := by
  rw [writeHits, List.map_map]
  rfl

theorem Sound.takeBatch (h : Sound table s) : Sound table s.takeBatch := by
  refine h.startJob rfl rfl rfl rfl fun item => ?_
  rw [writeHits_batch]
  simp [batchHits]

/-! ### The statements of a save -/

/-- What every update of a row keeps. -/
def SameRow (row' row : ResolutionRow) : Prop :=
  row'.id = row.id ∧ row'.identity = row.identity
    ∧ (row.origin = .manual → row'.origin = .manual ∧ row'.tmdbId = row.tmdbId
      ∧ row'.tmdbType = row.tmdbType)
    ∧ (row.origin ≠ .miss → row'.origin ≠ .miss)

theorem SameRow.refl (row : ResolutionRow) : SameRow row row :=
  ⟨rfl, rfl, fun h => ⟨h, rfl, rfl⟩, id⟩

theorem SameRow.trans {a b c : ResolutionRow} (h₁ : SameRow b a) (h₂ : SameRow c b) :
    SameRow c a := by
  refine ⟨h₂.1.trans h₁.1, h₂.2.1.trans h₁.2.1, fun hm => ?_, fun hm => h₂.2.2.2 (h₁.2.2.2 hm)⟩
  obtain ⟨hb, hid, htype⟩ := h₁.2.2.1 hm
  obtain ⟨hc, hid', htype'⟩ := h₂.2.2.1 hb
  exact ⟨hc, hid'.trans hid, htype'.trans htype⟩

theorem Kept.refl (s : Sightings) : Kept s s := fun row hrow => ⟨row, hrow, SameRow.refl row⟩

theorem Kept.trans {u : Sightings} (h₁ : Kept s t) (h₂ : Kept t u) : Kept s u := by
  intro row hrow
  obtain ⟨row', hrow', hsame⟩ := h₁ row hrow
  obtain ⟨row'', hrow'', hsame'⟩ := h₂ row' hrow'
  exact ⟨row'', hrow'', SameRow.trans hsame hsame'⟩

/-- What a write does to the table, where it meets no changed row: the row's
count grows by the sightings the write carries, and every row is kept. -/
theorem Sound.writeRow (h : Sound table s) {w : ResolutionWrite} {existing : Option FoundRow}
    {now : Int}
    (hfound : ∀ found, existing = some found → ∃ row ∈ s.rows, row.id = found.id
      ∧ row.item = w.r.item ∧ (row.origin = .manual ↔ found.origin = .manual))
    (hok : ∀ found row, existing = some found → w.keepsAnswer found = false → row ∈ s.rows →
      row.id = found.id → row.hitCount = found.hitCount ∧ (w.origin = .miss → row.origin = .miss))
    (hwrite : s.writeRow w existing now = some t) :
    t = { s with rows := t.rows, nextRow := t.nextRow } ∧
      ((t.rows.map ResolutionRow.id).Nodup ∧ (∀ row ∈ t.rows, row.id < t.nextRow)
        ∧ (t.rows.map ResolutionRow.identity).Nodup)
      ∧ (∀ row ∈ s.rows, ∃ row' ∈ t.rows, SameRow row' row
        ∧ (row'.origin = .manual ↔ row.origin = .manual))
      ∧ ∀ item, hits t.rows item = hits s.rows item + if w.r.item = item then w.hits else 0 := by
  have hupdate : ∀ (f : ResolutionRow → ResolutionRow) (row : ResolutionRow), row ∈ s.rows →
      (∀ row, (f row).id = row.id) → (∀ row, (f row).identity = row.identity) →
      (f row).hitCount = row.hitCount + w.hits → row.item = w.r.item →
      SameRow (f row) row → ((f row).origin = .manual ↔ row.origin = .manual) →
      (((updateRow s.rows row.id f).map ResolutionRow.id).Nodup
        ∧ (∀ row' ∈ updateRow s.rows row.id f, row'.id < s.nextRow)
        ∧ ((updateRow s.rows row.id f).map ResolutionRow.identity).Nodup)
      ∧ (∀ row₀ ∈ s.rows, ∃ row' ∈ updateRow s.rows row.id f, SameRow row' row₀
        ∧ (row'.origin = .manual ↔ row₀.origin = .manual))
      ∧ ∀ item, hits (updateRow s.rows row.id f) item
        = hits s.rows item + if w.r.item = item then w.hits else 0 := by
    intro f row hrow hid hidentity hcount hitem hsame hmanual
    refine ⟨⟨?_, ?_, ?_⟩, ?_, ?_⟩
    · rw [map_updateRow ResolutionRow.id hid]
      exact h.ids
    · intro row' hrow'
      obtain ⟨before, hbefore, rfl⟩ := List.mem_map.mp hrow'
      split
      · rw [hid]
        exact h.ids_lt before hbefore
      · exact h.ids_lt before hbefore
    · rw [map_updateRow ResolutionRow.identity hidentity]
      exact h.identities
    · intro row₀ hrow₀
      refine ⟨_, mem_updateRow hrow₀, ?_⟩
      split
      · next heq =>
        obtain rfl := eq_of_id h.ids hrow₀ hrow heq
        exact ⟨hsame, hmanual⟩
      · exact ⟨SameRow.refl row₀, Iff.rfl⟩
    · intro item
      rw [hits_updateRow h.ids hrow (hidentity row) hcount item, hitem]
  cases existing with
  | some found =>
    obtain ⟨row, hrow, hid, hitem, hmanual⟩ := hfound found rfl
    obtain rfl := Option.some.inj hwrite
    refine ⟨rfl, ?_⟩
    dsimp only
    split
    · split
      · rw [← hid]
        exact hupdate _ row hrow (fun _ => rfl) (fun _ => rfl) rfl hitem (SameRow.refl row) Iff.rfl
      · next hzero =>
        have hzero : w.hits = 0 := not_not.mp hzero
        refine ⟨⟨h.ids, h.ids_lt, h.identities⟩,
          fun row hrow => ⟨row, hrow, SameRow.refl row, Iff.rfl⟩, fun item => ?_⟩
        simp [hzero]
    · next hkeeps =>
      have hkeeps : w.keepsAnswer found = false := Bool.eq_false_iff.mpr hkeeps
      obtain ⟨hcount, hmiss⟩ := hok found row rfl hkeeps hrow hid
      have hnot : row.origin ≠ .manual := by
        intro hm
        simp [ResolutionWrite.keepsAnswer, hmanual.mp hm] at hkeeps
      rw [← hid]
      refine hupdate _ row hrow (fun _ => rfl) (fun _ => rfl) ?_ hitem ⟨rfl, rfl, ?_, ?_⟩ ?_
      · show found.hitCount + w.hits = row.hitCount + w.hits
        rw [hcount]
      · exact fun hm => absurd hm hnot
      · exact fun hne hm => hne (hmiss hm)
      · exact ⟨fun hm => absurd hm w.notManual, fun hm => absurd hm hnot⟩
  | none =>
    simp only [Sightings.writeRow] at hwrite
    split at hwrite <;> cases hwrite
    next hnew =>
      have hnew : ∀ row ∈ s.rows, row.identity ≠ w.identity := by simpa using hnew
      refine ⟨rfl, ⟨?_, ?_, ?_⟩, ?_, ?_⟩
      · rw [List.map_append, List.nodup_append]
        refine ⟨h.ids, List.nodup_singleton _, ?_⟩
        intro a ha b hb
        obtain ⟨row, hrow, rfl⟩ := List.mem_map.mp ha
        obtain rfl := List.mem_singleton.mp hb
        exact Nat.ne_of_lt (h.ids_lt row hrow)
      · intro row hrow
        rcases List.mem_append.mp hrow with hrow | hrow
        · exact (h.ids_lt row hrow).trans (Nat.lt_succ_self _)
        · rw [List.mem_singleton.mp hrow]
          exact Nat.lt_succ_self _
      · rw [List.map_append, List.nodup_append]
        refine ⟨h.identities, List.nodup_singleton _, ?_⟩
        intro a ha b hb
        obtain ⟨row, hrow, rfl⟩ := List.mem_map.mp ha
        obtain rfl := List.mem_singleton.mp hb
        exact hnew row hrow
      · exact fun row hrow => ⟨row, List.mem_append_left _ hrow, SameRow.refl row, Iff.rfl⟩
      · intro item
        have hnewHits : rowHits item (w.insertedRow s.nextRow now)
            = if w.r.item = item then w.hits else 0 := rfl
        rw [hits, List.map_append, List.sum_append, List.map_singleton, List.sum_singleton, hnewHits]
        rfl

/-- A job that only moves on to its next statement. -/
theorem Sound.moveJob (h : Sound table s) {job : SaveJob} (hjob : job ∈ s.jobs) (stage : SaveStage)
    (retried : Bool) (hsound : JobSound s.rows { job with stage := stage, retried := retried }) :
    Sound table (s.setJob { job with stage := stage, retried := retried }) :=
  h.setJob { job with stage := stage, retried := retried } hjob rfl s.rows s.nextRow
    (fun h => ⟨h.ids, h.ids_lt, h.identities⟩) (fun row hrow => ⟨row, hrow, rfl, rfl, Iff.rfl⟩) hsound fun _ => rfl

/-- **A read of a save keeps the invariant.** -/
theorem Sound.read (h : Sound table s) {job : SaveJob} (hjob : job ∈ s.jobs)
    (hread : s.read job = some t) : Sound table t ∧ Kept s t := by
  obtain ⟨id, _ | ⟨w, rest⟩, stage, retried⟩ := job
  · cases stage <;> cases hread
  · have hknows := h.jobs _ hjob w rest rfl
    cases stage with
    | findManual =>
      simp only [Sightings.read] at hread
      split at hread <;> cases hread
      · next found hfound =>
        refine ⟨h.moveJob hjob _ retried fun w' rest' hw' => ?_, Kept.refl s⟩
        obtain ⟨rfl, rfl⟩ := List.cons.inj hw'
        refine ⟨fun found' hstage => ?_, fun hr => ⟨by simp, (hknows.2 hr).2⟩⟩
        obtain rfl : found = found' := Option.some.inj (SaveStage.write.inj hstage)
        exact findOne_spec hfound
      · refine ⟨h.moveJob hjob _ retried fun w' rest' hw' => ?_, Kept.refl s⟩
        obtain ⟨rfl, rfl⟩ := List.cons.inj hw'
        refine ⟨fun found' hstage => ?_, fun hr => ⟨by simp, (hknows.2 hr).2⟩⟩
        cases hstage
    | find =>
      cases hread
      refine ⟨h.moveJob hjob _ retried fun w' rest' hw' => ?_, Kept.refl s⟩
      obtain ⟨rfl, rfl⟩ := List.cons.inj hw'
      refine ⟨fun found' hstage => findOne_spec (SaveStage.write.inj hstage), fun hr => ?_⟩
      refine ⟨fun hstage => ?_, (hknows.2 hr).2⟩
      exact findOne_isSome (hknows.2 hr).2 (SaveStage.write.inj hstage)
    | write existing => cases hread

/-- **A write of a save keeps the invariant**, and every row, where it meets no
changed row. -/
theorem Sound.write (h : Sound table s) {job : SaveJob} (hjob : job ∈ s.jobs) {now : Int}
    (hok : ∀ w rest found row, job.writes = w :: rest → job.stage = .write (some found) →
      w.keepsAnswer found = false → row ∈ s.rows → row.id = found.id →
      row.hitCount = found.hitCount ∧ (w.origin = .miss → row.origin = .miss))
    (hwrite : s.write job now = some t) : Sound table t ∧ Kept s t := by
  obtain ⟨id, _ | ⟨w, rest⟩, stage, retried⟩ := job
  · cases stage <;> cases hwrite
  · have hknows := h.jobs _ hjob w rest rfl
    cases stage with
    | findManual => cases hwrite
    | find => cases hwrite
    | write existing =>
      simp only [Sightings.write] at hwrite
      split at hwrite
      · next u hu =>
        cases hwrite
        obtain ⟨hframe, hrows, hkept, hcount⟩ := h.writeRow
          (fun found hfound => hknows.1 found (congrArg _ hfound))
          (fun found row hfound => hok w rest found row rfl (congrArg _ hfound)) hu
        have hset := h.setJob (SaveJob.start id rest) hjob rfl u.rows u.nextRow (fun _ => hrows)
          (fun row hrow => ?_) (jobSound_start _ _ _) fun item => ?_
        · rw [hframe]
          refine ⟨hset, fun row hrow => ?_⟩
          obtain ⟨row', hrow', hsame, -⟩ := hkept row hrow
          exact ⟨row', hrow', hsame⟩
        · obtain ⟨row', hrow', hsame, hmanual⟩ := hkept row hrow
          exact ⟨row', hrow', hsame.1, hsame.2.1, hmanual⟩
        · rw [hcount, writeHits_cons]
          show hits s.rows item + _ + writeHits item rest = _
          omega
      · next hfail =>
        -- the unique index refuses the insert: there is a row of its identity
        have hexists : existing = none ∧ ∃ row ∈ s.rows, row.identity = w.identity := by
          cases existing with
          | some found => cases hfail
          | none =>
            simp only [Sightings.writeRow] at hfail
            split at hfail
            · next hany => exact ⟨rfl, by simpa using hany⟩
            · cases hfail
        have hfirst : retried = false := by
          by_contra hr
          exact (hknows.2 (Bool.not_eq_false _ |>.mp hr)).1 (congrArg _ hexists.1)
        subst hfirst
        cases hwrite
        refine ⟨h.moveJob hjob _ true fun w' rest' hw' => ?_, Kept.refl s⟩
        obtain ⟨rfl, rfl⟩ := List.cons.inj hw'
        refine ⟨fun found hstage => ?_, fun _ => ⟨?_, hexists.2⟩⟩
        · simp only [ResolutionWrite.firstStage] at hstage
          split at hstage <;> cases hstage
        · simp only [ResolutionWrite.firstStage]
          split <;> simp

/-! ### Runs -/

/-- **Every step that meets no changed row keeps the invariant**, and every
row. -/
theorem Sound.step (h : Sound table s) {act : Act} (hok : Ok s act) (hstep : Step s act t) :
    Sound table t ∧ Kept s t := by
  cases act with
  | record observation =>
    cases hstep
    refine ⟨h.recordMiss hok.1 hok.2, ?_⟩
    simp only [Sightings.recordMiss, if_neg hok.1]
    split
    · exact Kept.refl s
    · exact Kept.refl s
  | fire timer =>
    simp only [Step, next] at hstep
    split at hstep <;> cases hstep
    have hs : Sound table { s with sleeping := s.sleeping.filter (· ≠ timer) } := { h with }
    unfold Sightings.fire
    dsimp only
    split
    · exact ⟨hs.takeBatch, Kept.refl s⟩
    · exact ⟨hs, Kept.refl s⟩
  | flush =>
    cases hstep
    exact ⟨h.takeBatch, Kept.refl s⟩
  | save w =>
    simp only [Step, next] at hstep
    split at hstep <;> cases hstep
    next hzero =>
      refine ⟨h.startJob rfl rfl rfl rfl fun item => ?_, Kept.refl s⟩
      simp [writeHits, hzero]
  | read job =>
    obtain ⟨job, hjob, hread⟩ := Option.bind_eq_some_iff.mp hstep
    exact h.read (job?_spec hjob).1 hread
  | write id now =>
    obtain ⟨job, hjob, hwrite⟩ := Option.bind_eq_some_iff.mp hstep
    exact h.write (job?_spec hjob).1 (fun w rest found row => hok job w rest found row hjob) hwrite

theorem sound_start (table : ResolutionTable) : Sound table (start table) where
  ids := table.ids
  ids_lt := table.ids_lt
  identities := table.identities
  jobIds := List.nodup_nil
  jobIds_lt := fun _ h => by cases h
  jobs := fun _ h => by cases h
  counted := fun _ => rfl

/-- Where nothing is pending, every sighting is in the rows. -/
theorem Sound.quiet (h : Sound table s) : Counted table s := by
  intro ⟨hbatch, hjobs⟩ item
  have hcounted := h.counted item
  have hjobs : jobHits item s.jobs = 0 := by
    refine List.sum_eq_zero fun n hn => ?_
    obtain ⟨job, hjob, rfl⟩ := List.mem_map.mp hn
    rw [hjobs job hjob]
    rfl
  rw [hbatch, hjobs] at hcounted
  exact hcounted

/-- **Every sighting is counted once and answers are kept**, in any run in which
no write meets a changed row: whenever nothing is pending the counts have grown
by the sightings, and from any state on every manual answer and every answer
stays. -/
theorem counted (table : ResolutionTable) {acts acts' : List Act} {s t : Sightings}
    (h : Run (Guarded Step Ok) (start table) acts s) (h' : Run (Guarded Step Ok) s acts' t) :
    Counted table t ∧ Kept s t := by
  have hsound : Sound table s :=
    h.invariant (fun _ _ _ hs hstep => (hs.step hstep.1 hstep.2).1) (sound_start table)
  let Inv : Sightings → Prop := fun u => Sound table u ∧ Kept s u
  have hstep : ∀ u act v, Inv u → Guarded Step Ok u act v → Inv v := fun _ _ _ hu hstep =>
    ⟨(hu.1.step hstep.1 hstep.2).1, hu.2.trans (hu.1.step hstep.1 hstep.2).2⟩
  have hinv : Sound table t ∧ Kept s t := h'.invariant hstep ⟨hsound, Kept.refl s⟩
  exact ⟨hinv.1.quiet, hinv.2⟩

/-! ### An overtaken save -/

/-- An item that is known as a miss, seen once. -/
private def missRow : ResolutionRow := { id := 1, srcNs := "anilist", srcId := "5", origin := .miss, hitCount := 1 }

private def missTable : ResolutionTable where
  rows := [missRow]
  nextId := 2
  ids := by decide
  ids_lt := by decide
  identities := by decide

private def unmapped : IdRef := { ns := "anilist", id := "5" }

/-- The resolver's save of a miss. -/
private def resolverMiss : ResolutionWrite := { r := unmapped, origin := .miss, notManual := by decide }

/-- The resolver's save reads the row, a sighting is recorded, flushed and
written, and the resolver's save writes. -/
private def overtaken : List Act :=
  [.save resolverMiss, .read 0, .read 0, .record ⟨unmapped, []⟩, .flush, .read 1, .read 1,
    .write 1 10, .write 0 20]

/-- **A sighting can be lost**: the resolver's save sets the count it read before
the sighting was written. -/
theorem lost_sighting : ∃ (table : ResolutionTable) (acts : List Act) (s : Sightings),
    Run Step (start table) acts s ∧ ¬Counted table s := by
  have hrun : (overtaken.foldlM next (start missTable)).map
        (fun s => (hits s.rows unmapped.item, s.recorded, s.batch.length,
          s.jobs.map fun job => job.writes.length))
      = some (1, [unmapped.item], 0, [0, 0]) := by decide +kernel
  obtain ⟨s, hs, hout⟩ := Option.map_eq_some_iff.mp hrun
  simp only [Prod.mk.injEq] at hout
  obtain ⟨hhits, hrecorded, hbatch, hjobs⟩ := hout
  refine ⟨missTable, overtaken, s, Run.of_foldlM hs, fun h => ?_⟩
  have hquiet : s.Quiet := by
    refine ⟨List.length_eq_zero_iff.mp hbatch, fun job hjob => ?_⟩
    have hlen : job.writes.length ∈ s.jobs.map fun job => job.writes.length :=
      List.mem_map_of_mem hjob
    rw [hjobs] at hlen
    exact List.length_eq_zero_iff.mp (by simpa using hlen)
  have hcounted := h hquiet unmapped.item
  rw [hhits, hrecorded] at hcounted
  exact absurd hcounted (by decide)

/-- The same saves, one after the other. -/
private def inTurn : List Act :=
  [.save resolverMiss, .read 0, .read 0, .write 0 10, .record ⟨unmapped, []⟩, .flush, .read 1,
    .read 1, .write 1 20]

/-- Whether a write meets the row as the save read it. -/
private def unchanged (s : Sightings) : Act → Bool
  | .record observation => observation.r.id ≠ "" && s.batch.isEmpty
  | .write id _ =>
    (s.job? id).all fun job =>
      match job.stage with
      | .write (some found) =>
        s.rows.all fun row => row.hitCount == found.hitCount && row.origin == .miss
      | _ => true
  | _ => true

private theorem ok_of_unchanged {s : Sightings} {act : Act} (h : unchanged s act = true) :
    Ok s act := by
  cases act with
  | record observation =>
    simp only [unchanged, ne_eq, decide_not, Bool.and_eq_true, Bool.not_eq_eq_eq_not, Bool.not_true,
      decide_eq_false_iff_not, List.isEmpty_iff] at h
    exact ⟨h.1, by simp [h.2]⟩
  | write id now =>
    intro job w rest found row hjob _ hstage _ hrow _
    simp only [unchanged, hjob, Option.all_some, hstage, List.all_eq_true, Bool.and_eq_true,
      beq_iff_eq] at h
    exact ⟨(h row hrow).1, fun _ => (h row hrow).2⟩
  | _ => trivial

theorem counted_inTurn : ∃ s : Sightings, (Counted missTable s ∧ Kept (start missTable) s)
    ∧ hits s.rows unmapped.item = 2 := by
  let guarded (s : Sightings) (act : Act) : Option Sightings :=
    if unchanged s act then s.next act else none
  have hrun : (inTurn.foldlM guarded (start missTable)).map (fun s => hits s.rows unmapped.item)
      = some 2 := by decide +kernel
  obtain ⟨s, hs, hhits⟩ := Option.map_eq_some_iff.mp hrun
  refine ⟨s, counted missTable (Run.nil (start missTable)) ((Run.of_foldlM hs).mono ?_), hhits⟩
  intro s act t hstep
  simp only [guarded, Option.ite_none_right_eq_some] at hstep
  exact ⟨ok_of_unchanged hstep.1, hstep.2⟩

end Sightings

end Foreseerr

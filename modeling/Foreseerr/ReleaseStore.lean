import Foreseerr.Json
import Foreseerr.Run
import Mathlib.Data.Int.Basic
import Mathlib.Data.List.Nodup

/-!
# The occurrences of a release calendar

`reconcile` writes one server's calendar to `release_occurrence`: it inserts
what is new, updates what has changed, marks what its window has lost as
missing, and a week later withdraws that. Date changes are logged in
`release_date_change` and kept for a year.

Whether an occurrence was withdrawn already is read off the log. The log
remembers absences that are over, so an occurrence that disappears for the
second time within a year is not withdrawn again
(`ReleaseStore.second_disappearance`). In the syncs in which no withdrawal of
an earlier absence stands in the way, each absence longer than the grace
records exactly one withdrawal (`ReleaseStore.withdrawn_once`).

The store is one server's. A sync that fails is rolled back, and no step.
-/

/-! ## JSON columns -/

namespace Json

/-- `js_eq`: `===` between a stored column and a value. -/
def jsEq : Json → Json → Bool
  | num x, num y => x == y
  | str x, str y => x == y
  | bool x, bool y => x == y
  | null, null => true
  | _, _ => false

/-- An integer column. -/
def ofInt (column : Option Int) : Json := column.elim null fun n => num n

/-- A text column. -/
def ofText (column : Option String) : Json := column.elim null str

end Json

namespace Foreseerr

/-! ## The rows -/

/-- `Aired`. -/
inductive Aired
  | asNumbered
  | mapped (season episode : Int)
  | unknown
  | unchecked
deriving DecidableEq, Repr

/-- `Normalized`: one entry of a server's calendar. `none` is a property Node
leaves undefined. -/
structure Normalized where
  itemId : Int
  seriesId : Option Json := none
  seriesTvdbId : Option Int := none
  mediaType : String
  tmdbId : Option Json := none
  tvdbId : Option Json := none
  title : Option Json
  subtitle : Option Json := none
  season : Option Json := none
  episode : Option Json := none
  dateType : String
  startsAt : Int
  allDay : Bool := false
  monitored : Bool := true
  hasFile : Bool := false
  is4k : Bool := false
  sourceUrl : Option String := none
  rawDates : String := ""
  aired : Aired := .asNumbered

/-- A `release_occurrence` row, its times in milliseconds. -/
structure OccurrenceRow where
  id : Nat
  itemId : Int
  seriesId : Option Int
  mediaType : String
  tmdbId : Option Int
  tvdbId : Option Int
  mediaId : Option Int
  title : String
  subtitle : Option String
  season : Option Int
  episode : Option Int
  dateType : String
  startsAt : Int
  allDay : Bool
  monitored : Bool
  hasFile : Bool
  is4k : Bool
  sourceUrl : Option String
  rawDates : Option String
  firstSeenAt : Int
  lastSeenAt : Int
  missingSince : Option Int
deriving DecidableEq, Repr

/-- `occurrenceKey`. -/
abbrev OccurrenceKey := Int × String

def Normalized.key (next : Normalized) : OccurrenceKey := (next.itemId, next.dateType)

/-- `key_of`. -/
def OccurrenceRow.key (row : OccurrenceRow) : OccurrenceKey := (row.itemId, row.dateType)

/-- `changeKind`. -/
inductive ChangeKind
  | announced
  | movedEarlier
  | delayed
  | withdrawn
deriving DecidableEq, Repr

/-- A `release_date_change` row. -/
structure DateChange where
  occurrenceId : Nat
  oldStartsAt : Option Int
  newStartsAt : Option Int
  kind : ChangeKind
  detectedAt : Int
deriving DecidableEq, Repr

/-- `EventOccurrence`: what the producers read of a saved occurrence. -/
structure EventOccurrence where
  id : Nat
  source : String
  dateType : String
  title : String
  season : Option Int
  episode : Option Int
  tvdbId : Option Int
  mediaId : Option Int
  mediaType : String
  is4k : Bool
  startsAt : Int
  rawDates : Option String
  aired : Aired
deriving DecidableEq, Repr

/-- What one sync saw and did of an occurrence: when it ran, whether its calendar
listed the occurrence, and how many withdrawals it recorded. -/
structure OccurrenceView where
  now : Int
  listed : Bool
  withdrawn : Nat
deriving DecidableEq, Repr

/-- One server's occurrences and their changes. The last two fields are history:
the time of the last sync, and for every row id what the syncs saw and did of
it while it was stored. -/
structure ReleaseStore where
  source : String
  occurrences : List OccurrenceRow := []
  changes : List DateChange := []
  nextId : Nat := 0
  clock : Int := 0
  history : Nat → List OccurrenceView := fun _ => []

/-- `Reconcile`, with the clock and what `media_maps` finds. -/
structure ReleaseSync where
  occurrences : List Normalized
  start : Int
  stop : Int
  initialBackfill : Bool := false
  now : Int
  movieIds : Int → Option Int := fun _ => none
  seriesIds : Int → Option Int := fun _ => none

/-- `SyncResult`, as far as `reconcile` counts. -/
structure SyncResult where
  inserted : Nat := 0
  changed : Nat := 0
  missing : Nat := 0
  unmapped : Nat := 0
deriving DecidableEq, Repr

/-- `Events`. -/
structure ReleaseEvents where
  dateChanges : List (EventOccurrence × DateChange) := []
  newSeasons : List EventOccurrence := []
deriving DecidableEq, Repr

namespace ReleaseStore

/-! ## Reading the calendar -/

/-- `DAY_MS`. -/
def dayMs : Int := 86400000

/-- `MISSING_GRACE_DAYS`, in milliseconds. -/
def missingGrace : Int := 7 * dayMs

/-- `CHANGE_RETENTION_DAYS`, in milliseconds. -/
def changeRetention : Int := 365 * dayMs

/-- `UNPLACED_WAIT_MS`. -/
def unplacedWait : Int := 2 * dayMs

/-- `is_material_date_change`. -/
def isMaterialDateChange (existing next : Int × Bool) : Bool :=
  let hours : Int := if existing.2 || next.2 then 24 else 12
  decide (hours * 3600000 ≤ ((existing.1 - next.1).natAbs : Int))

/-- `waits_for_tvdb`. -/
def waitsForTvdb (aired : Aired) (startsAt : Int) (initialBackfill : Bool) (now : Int) : Bool :=
  !initialBackfill && aired == .unchecked && decide (now + unplacedWait < startsAt)

/-- The title an entry is mapped to: the movie's by its TMDB id, the series' by
its TVDB id. -/
def mediaIdOf (sync : ReleaseSync) (next : Normalized) : Option Int :=
  match (next.tmdbId.bind Json.asI64).filter (· ≠ 0) with
  | some tmdbId => sync.movieIds tmdbId
  | none => (next.seriesTvdbId.filter (· ≠ 0)).bind sync.seriesIds

/-- `has_changed`. -/
def hasChanged (existing : OccurrenceRow) (next : Normalized) (mediaId : Option Int) : Bool :=
  let differs (column : Json) (value : Option Json) : Bool := !column.jsEq (value.getD .null)
  differs (.ofInt existing.seriesId) next.seriesId
    || differs (.str existing.mediaType) (some (.str next.mediaType))
    || differs (.ofInt existing.tmdbId) next.tmdbId
    || differs (.ofInt existing.tvdbId) next.tvdbId
    || differs (.ofInt existing.mediaId) (some (.ofInt mediaId))
    || next.title.all (fun title => !(Json.str existing.title).jsEq title)
    || differs (.ofText existing.subtitle) next.subtitle
    || differs (.ofInt existing.season) next.season
    || differs (.ofInt existing.episode) next.episode
    || existing.startsAt != next.startsAt
    || existing.allDay != next.allDay
    || existing.monitored != next.monitored
    || existing.hasFile != next.hasFile
    || existing.is4k != next.is4k
    || differs (.ofText existing.sourceUrl) (some (.ofText next.sourceUrl))
    || differs (.ofText existing.rawDates) (some (.str next.rawDates))
    || existing.missingSince.isSome

/-! ## The writes -/

variable (jsString : Json → String)

/-- `text_bind`. -/
def textBind : Json → Option String
  | .null => none
  | .str s => some s
  | other => some (jsString other)

/-- `insert_occurrence`, under its id and with the title it takes. -/
def insertOccurrence (next : Normalized) (mediaId : Option Int) (now : Int) (id : Nat)
    (title : String) : OccurrenceRow where
  id := id
  itemId := next.itemId
  seriesId := next.seriesId.bind Json.asI64
  mediaType := next.mediaType
  tmdbId := next.tmdbId.bind Json.asI64
  tvdbId := next.tvdbId.bind Json.asI64
  mediaId := mediaId
  title := title
  subtitle := next.subtitle.bind (textBind jsString)
  season := next.season.bind Json.asI64
  episode := next.episode.bind Json.asI64
  dateType := next.dateType
  startsAt := next.startsAt
  allDay := next.allDay
  monitored := next.monitored
  hasFile := next.hasFile
  is4k := next.is4k
  sourceUrl := next.sourceUrl
  rawDates := some next.rawDates
  firstSeenAt := now
  lastSeenAt := now
  missingSince := none

/-- `update_occurrence`: every property Node assigns a defined value to. -/
def updateOccurrence (row : OccurrenceRow) (next : Normalized) (mediaId : Option Int)
    (now : Int) : OccurrenceRow :=
  { row with
    seriesId := next.seriesId.elim row.seriesId Json.asI64
    mediaType := next.mediaType
    tmdbId := next.tmdbId.elim row.tmdbId Json.asI64
    tvdbId := next.tvdbId.elim row.tvdbId Json.asI64
    title := (next.title.bind (textBind jsString)).getD row.title
    subtitle := next.subtitle.elim row.subtitle (textBind jsString)
    season := next.season.elim row.season Json.asI64
    episode := next.episode.elim row.episode Json.asI64
    startsAt := next.startsAt
    allDay := next.allDay
    monitored := next.monitored
    hasFile := next.hasFile
    is4k := next.is4k
    sourceUrl := next.sourceUrl.or row.sourceUrl
    rawDates := some next.rawDates
    mediaId := mediaId
    lastSeenAt := now
    missingSince := none }

/-- `merged`: the saved entity, the next values where defined and the stored ones
otherwise. -/
def merged (source : String) (id : Nat) (existing : Option OccurrenceRow) (next : Normalized)
    (mediaId : Option Int) : EventOccurrence :=
  let pick (value : Option Json) (column : OccurrenceRow → Json) : Json :=
    (value.or (existing.map column)).getD .null
  { id := id
    source := source
    dateType := next.dateType
    title := jsString (pick next.title fun row => .str row.title)
    season := (pick next.season fun row => .ofInt row.season).asI64
    episode := (pick next.episode fun row => .ofInt row.episode).asI64
    tvdbId := (pick next.tvdbId fun row => .ofInt row.tvdbId).asI64
    mediaId := mediaId
    mediaType := next.mediaType
    is4k := next.is4k
    startsAt := next.startsAt
    rawDates := some next.rawDates
    aired := next.aired }

/-- `stored_event`. -/
def storedEvent (source : String) (row : OccurrenceRow) : EventOccurrence where
  id := row.id
  source := source
  dateType := row.dateType
  title := row.title
  season := row.season
  episode := row.episode
  tvdbId := row.tvdbId
  mediaId := row.mediaId
  mediaType := row.mediaType
  is4k := row.is4k
  startsAt := row.startsAt
  rawDates := row.rawDates
  aired := .asNumbered

/-- `premiere_season`. -/
def premiereSeason (o : EventOccurrence) : Option Int :=
  if o.source ≠ "sonarr" then none
  else
    let premiere (season : Int) (episode : Option Int) : Option Int :=
      if 0 < season ∧ episode = some 1 then some season else none
    match o.aired with
    | .asNumbered => premiere (o.season.getD 0) o.episode
    | .mapped season episode => premiere season (some episode)
    | .unknown | .unchecked => none

/-! ## Saving the calendar -/

/-- What the loop over the calendar has saved so far. -/
structure Saving where
  rows : List OccurrenceRow
  nextId : Nat
  inserted : List OccurrenceKey := []
  moved : List (OccurrenceKey × Int) := []
  saved : List (OccurrenceKey × EventOccurrence) := []
  unmapped : Nat := 0

/-- Save a calendar entry that has no row yet. The database takes no second row of
a key and no row without a title. -/
def saveNew (s : ReleaseStore) (sync : ReleaseSync) (saving : Saving) (next : Normalized) :
    Option Saving :=
  if waitsForTvdb next.aired next.startsAt sync.initialBackfill sync.now then some saving
  else if saving.rows.any fun row => row.key == next.key then none
  else
    let mediaId := mediaIdOf sync next
    (next.title.bind (textBind jsString)).map fun title =>
      { saving with
        rows := saving.rows
          ++ [insertOccurrence jsString next mediaId sync.now saving.nextId title]
        nextId := saving.nextId + 1
        inserted := next.key :: saving.inserted
        saved := saving.saved
          ++ [(next.key, merged jsString s.source saving.nextId none next mediaId)]
        unmapped := saving.unmapped + if mediaId.isNone then 1 else 0 }

/-- Save a calendar entry over its row, where something has changed. -/
def saveExisting (s : ReleaseStore) (sync : ReleaseSync) (saving : Saving)
    (existing : OccurrenceRow) (next : Normalized) : Option Saving :=
  let mediaId := mediaIdOf sync next
  let saving := { saving with unmapped := saving.unmapped + if mediaId.isNone then 1 else 0 }
  if hasChanged existing next mediaId = false then some saving
  else if next.title.any fun title => (textBind jsString title).isNone then none
  else
    some { saving with
      rows := saving.rows.map fun row =>
        if row.id = existing.id then updateOccurrence jsString row next mediaId sync.now else row
      moved :=
        if isMaterialDateChange (existing.startsAt, existing.allDay) (next.startsAt, next.allDay)
        then (next.key, existing.startsAt) :: saving.moved else saving.moved
      saved := saving.saved
        ++ [(next.key, merged jsString s.source existing.id (some existing) next mediaId)] }

/-- One turn of the loop over the calendar. -/
def saveEntry (s : ReleaseStore) (sync : ReleaseSync) (saving : Saving) (next : Normalized) :
    Option Saving :=
  match s.occurrences.find? fun row => row.key == next.key with
  | some existing => saveExisting jsString s sync saving existing next
  | none => saveNew jsString s sync saving next

/-- The loop over the calendar. -/
def saveCalendar (s : ReleaseStore) (sync : ReleaseSync) : Option Saving :=
  sync.occurrences.foldlM (saveEntry jsString s sync) ⟨s.occurrences, s.nextId, [], [], [], 0⟩

/-- The events of what was saved. -/
def savedEvents (s : ReleaseStore) (sync : ReleaseSync) (saving : Saving) : ReleaseEvents where
  dateChanges := saving.saved.filterMap fun (key, occurrence) =>
    if saving.inserted.contains key then
      if !sync.initialBackfill && s.source == "radarr" then
        some (occurrence,
          ⟨occurrence.id, none, some occurrence.startsAt, .announced, sync.now⟩)
      else none
    else
      (saving.moved.lookup key).map fun old =>
        (occurrence, ⟨occurrence.id, some old, some occurrence.startsAt,
          if occurrence.startsAt < old then .movedEarlier else .delayed, sync.now⟩)
  newSeasons := (saving.saved.filter fun (key, occurrence) =>
    saving.inserted.contains key && !sync.initialBackfill
      && (premiereSeason occurrence).isSome).map Prod.snd

/-! ## What is missing -/

/-- The calendar lists a key. -/
def listed (sync : ReleaseSync) (key : OccurrenceKey) : Bool :=
  sync.occurrences.any fun next => next.key == key

/-- The rows of the window that the calendar has lost since the last sync. -/
def newlyMissing (s : ReleaseStore) (sync : ReleaseSync) : List Nat :=
  (s.occurrences.filter fun row =>
    row.missingSince.isNone && decide (sync.start ≤ row.startsAt ∧ row.startsAt ≤ sync.stop)
      && !listed sync row.key).map OccurrenceRow.id

/-- Mark rows as missing. -/
def markMissing (ids : List Nat) (now : Int) (rows : List OccurrenceRow) : List OccurrenceRow :=
  rows.map fun row => if ids.contains row.id then { row with missingSince := some now } else row

/-- Whether a row has been missing past the grace period. -/
def expired (now : Int) (row : OccurrenceRow) : Bool :=
  row.missingSince.any fun since => decide (since < now - missingGrace)

/-- The expired rows that the log has no withdrawal of. -/
def withdrawals (now : Int) (rows : List OccurrenceRow) (changes : List DateChange) :
    List OccurrenceRow :=
  rows.filter fun row => expired now row
    && !changes.any fun change => change.occurrenceId == row.id && change.kind == .withdrawn

/-- The change that a withdrawal is logged as. -/
def withdrawal (now : Int) (row : OccurrenceRow) : DateChange :=
  ⟨row.id, some row.startsAt, none, .withdrawn, now⟩

/-- The changes that are kept for another while. -/
def retained (now : Int) (changes : List DateChange) : List DateChange :=
  changes.filter fun change => !decide (change.detectedAt < now - changeRetention)

/-- The rows that stay: an expired one only while a change refers to it. -/
def keptRows (now : Int) (rows : List OccurrenceRow) (changes : List DateChange) :
    List OccurrenceRow :=
  rows.filter fun row => !expired now row
    || changes.any fun change => change.occurrenceId == row.id

/-- What a sync saw and did of the occurrences that were stored in it. -/
def look (s : ReleaseStore) (sync : ReleaseSync) (rows withdrawn : List OccurrenceRow) (id : Nat) :
    List OccurrenceView :=
  match rows.find? fun row => row.id == id with
  | some row =>
    s.history id ++ [⟨sync.now, listed sync row.key, withdrawn.countP fun row => row.id == id⟩]
  | none => s.history id

/-- `reconcile`: the writes of one transaction, with its events and its counts. -/
def reconcile (s : ReleaseStore) (sync : ReleaseSync) :
    Option (ReleaseStore × ReleaseEvents × SyncResult) :=
  (saveCalendar jsString s sync).map fun saving =>
    let events := savedEvents s sync saving
    let changes := s.changes ++ events.dateChanges.map Prod.snd
    let missing := newlyMissing s sync
    let rows := markMissing missing sync.now saving.rows
    let withdrawn := withdrawals sync.now rows changes
    let kept := retained sync.now (changes ++ withdrawn.map (withdrawal sync.now))
    ({ s with
        occurrences := keptRows sync.now rows kept
        changes := kept
        nextId := saving.nextId
        clock := sync.now
        history := look s sync rows withdrawn },
      { events with
        dateChanges := events.dateChanges
          ++ withdrawn.map fun row => (storedEvent s.source row, withdrawal sync.now row) },
      { inserted := saving.inserted.length
        changed := events.dateChanges.length + withdrawn.length
        missing := missing.length
        unmapped := saving.unmapped })

/-- A sync that is not rolled back. -/
def Step (s : ReleaseStore) (sync : ReleaseSync) (t : ReleaseStore) : Prop :=
  (reconcile jsString s sync).map Prod.fst = some t

/-! ## What is announced -/

/-- When the absence that an occurrence is in began. -/
def absentSince (views : List OccurrenceView) : Option Int :=
  Log.since OccurrenceView.listed OccurrenceView.now views

/-- The withdrawals of the absence that an occurrence is in. -/
def absenceWithdrawals (views : List OccurrenceView) : Nat :=
  Log.countSince OccurrenceView.listed OccurrenceView.withdrawn views

/-- The absence that an occurrence is in has outlasted the grace. -/
def outlastsGrace (views : List OccurrenceView) : Bool :=
  (absentSince views).any fun since =>
    views.getLast?.any fun view => decide (since < view.now - missingGrace)

/-- **Withdrawn once per disappearance**: a stored occurrence is marked as missing
since the first sync that left it out, and not at all while it is listed; and
at every moment of its history the absence it is in has recorded one
withdrawal if it has outlasted the grace, and none before. -/
structure Announced (s : ReleaseStore) (id : Nat) : Prop where
  missing : ∀ row ∈ s.occurrences, row.id = id → row.missingSince = absentSince (s.history id)
  withdrawn : ∀ views, views <+: s.history id →
    absenceWithdrawals views = if outlastsGrace views then 1 else 0

/-- A sync after the last one, with a window that covers the occurrence. -/
structure Covered (id : Nat) (s : ReleaseStore) (sync : ReleaseSync) : Prop where
  clock : s.clock ≤ sync.now
  covers : ∀ row ∈ s.occurrences, row.id = id → sync.start ≤ row.startsAt ∧ row.startsAt ≤ sync.stop

/-- Such a sync with **no withdrawal of an earlier absence in the way**: when the
occurrence, still absent, is found expired and this absence has not withdrawn it
yet, the log holds no withdrawal of it. -/
structure Ok (id : Nat) (s : ReleaseStore) (sync : ReleaseSync) : Prop extends
    Covered id s sync where
  unwithdrawn : ∀ row ∈ s.occurrences, row.id = id → listed sync row.key = false →
    expired sync.now row = true → absenceWithdrawals (s.history id) = 0 →
    ∀ change ∈ s.changes, change.occurrenceId = id → change.kind ≠ .withdrawn

/-! ## The invariant -/

/-- **The invariant**: rows have ids and keys of their own; and of one id, the
history agrees with the row and with the log, where the withdrawal of the
absence it is in is the newest change for as long as the row is there. -/
structure Sound (id : Nat) (s : ReleaseStore) : Prop where
  ids : (s.occurrences.map OccurrenceRow.id).Nodup
  keys : (s.occurrences.map OccurrenceRow.key).Nodup
  below : ∀ row ∈ s.occurrences, row.id < s.nextId
  fresh : s.nextId ≤ id → s.history id = []
  lastSeen : ∀ view, (s.history id).getLast? = some view → view.now ≤ s.clock
  detected : ∀ change ∈ s.changes, change.detectedAt ≤ s.clock
  logged : absenceWithdrawals (s.history id) ≠ 0 → ∀ row ∈ s.occurrences, row.id = id →
    ∃ change ∈ s.changes, change.occurrenceId = id ∧ change.kind = .withdrawn
      ∧ ∀ other ∈ s.changes, other.occurrenceId = id → other.detectedAt ≤ change.detectedAt
  announced : Announced s id

variable {jsString} {s t : ReleaseStore} {sync : ReleaseSync}

/-! ### What the loop over the calendar saves -/

theorem eq_of_id_eq {rows : List OccurrenceRow} (h : (rows.map OccurrenceRow.id).Nodup)
    {row other : OccurrenceRow} (hrow : row ∈ rows) (hother : other ∈ rows)
    (heq : row.id = other.id) : row = other :=
  List.inj_on_of_nodup_map h hrow hother heq

theorem eq_of_key_eq {rows : List OccurrenceRow} (h : (rows.map OccurrenceRow.key).Nodup)
    {row other : OccurrenceRow} (hrow : row ∈ rows) (hother : other ∈ rows)
    (heq : row.key = other.key) : row = other :=
  List.inj_on_of_nodup_map h hrow hother heq

/-- An id that was a stored row's of this key, or was not in use. -/
def IdOf (s : ReleaseStore) (key : OccurrenceKey) (id : Nat) : Prop :=
  s.nextId ≤ id ∨ ∃ old ∈ s.occurrences, old.id = id ∧ old.key = key

/-- What the loop has done after the entries of the given keys: the rows of these
keys are there and not missing, the others are as they were stored, and what
was saved is theirs. -/
structure SavingSound (s : ReleaseStore) (done : List OccurrenceKey) (saving : Saving) : Prop where
  ids : (saving.rows.map OccurrenceRow.id).Nodup
  keys : (saving.rows.map OccurrenceRow.key).Nodup
  below : ∀ row ∈ saving.rows, row.id < saving.nextId
  nextId : s.nextId ≤ saving.nextId
  rows : ∀ row ∈ saving.rows,
    (row.key ∈ done ∧ row.missingSince = none ∧ IdOf s row.key row.id)
      ∨ (row.key ∉ done ∧ row ∈ s.occurrences)
  saved : ∀ entry ∈ saving.saved, entry.1 ∈ done ∧ IdOf s entry.1 entry.2.id

/-- A change of nothing leaves no row missing. -/
theorem missingSince_of_hasChanged {existing : OccurrenceRow} {next : Normalized}
    {mediaId : Option Int} (h : hasChanged existing next mediaId = false) :
    existing.missingSince = none := by
  unfold hasChanged at h
  exact Option.isNone_iff_eq_none.mp (Option.isSome_eq_false_iff.mp (Bool.or_eq_false_iff.mp h).2)

variable {done : List OccurrenceKey} {saving saving' : Saving} {next : Normalized}

/-- An entry that leaves the rows as they are. -/
theorem SavingSound.skip (h : SavingSound s done saving) {key : OccurrenceKey} {n : Nat}
    (hkey : ∀ row ∈ s.occurrences, row.key = key → row.missingSince = none) :
    SavingSound s (done ++ [key]) { saving with unmapped := n } where
  ids := h.ids
  keys := h.keys
  below := h.below
  nextId := h.nextId
  rows := by
    intro row hrow
    rcases h.rows row hrow with ⟨hdone, hmissing⟩ | ⟨hdone, hold⟩
    · exact .inl ⟨List.mem_append_left _ hdone, hmissing⟩
    · by_cases heq : row.key = key
      · have hin : row.key ∈ done ++ [key] := by simp [heq]
        exact .inl ⟨hin, hkey row hold heq, .inr ⟨row, hold, rfl, rfl⟩⟩
      · exact .inr ⟨by simp [hdone, heq], hold⟩
  saved := fun entry hentry =>
    ⟨List.mem_append_left _ (h.saved entry hentry).1, (h.saved entry hentry).2⟩

theorem SavingSound.saveNew (h : SavingSound s done saving)
    (hnone : ∀ row ∈ s.occurrences, row.key ≠ next.key)
    (hsave : saveNew jsString s sync saving next = some saving') :
    SavingSound s (done ++ [next.key]) saving' := by
  have hskip := h.skip (n := saving.unmapped) fun row hrow heq => absurd heq (hnone row hrow)
  unfold ReleaseStore.saveNew at hsave
  split at hsave
  · exact Option.some.inj hsave ▸ hskip
  split at hsave
  · cases hsave
  next hunique =>
  obtain ⟨title, -, rfl⟩ := Option.map_eq_some_iff.mp hsave
  replace hunique : ∀ row ∈ saving.rows, row.key ≠ next.key := by simpa using hunique
  have hlisted : next.key ∈ done ++ [next.key] := by simp
  constructor
  case ids =>
    rw [List.map_append, List.map_singleton, ← List.concat_eq_append]
    refine h.ids.concat fun hmem => ?_
    obtain ⟨row, hrow, heq⟩ := List.mem_map.mp hmem
    exact (h.below row hrow).ne heq
  case keys =>
    rw [List.map_append, List.map_singleton, ← List.concat_eq_append]
    refine h.keys.concat fun hmem => ?_
    obtain ⟨row, hrow, heq⟩ := List.mem_map.mp hmem
    exact hunique row hrow heq
  case below =>
    intro row hrow
    rcases List.mem_append.mp hrow with hrow | hrow
    · exact (h.below row hrow).trans (Nat.lt_succ_self _)
    · obtain rfl := List.mem_singleton.mp hrow
      exact Nat.lt_succ_self _
  case nextId => exact h.nextId.trans (Nat.le_succ _)
  case rows =>
    intro row hrow
    rcases List.mem_append.mp hrow with hrow | hrow
    · exact hskip.rows row hrow
    · obtain rfl := List.mem_singleton.mp hrow
      exact .inl ⟨hlisted, rfl, .inl h.nextId⟩
  case saved =>
    intro entry hentry
    rcases List.mem_append.mp hentry with hentry | hentry
    · exact hskip.saved entry hentry
    · obtain rfl := List.mem_singleton.mp hentry
      exact ⟨hlisted, .inl h.nextId⟩

/-- An update changes neither ids nor keys. -/
theorem map_updated {β : Type} {f : OccurrenceRow → β} {rows : List OccurrenceRow} {id : Nat}
    {mediaId : Option Int} {now : Int}
    (hf : ∀ row, f (updateOccurrence jsString row next mediaId now) = f row) :
    (rows.map fun row =>
        if row.id = id then updateOccurrence jsString row next mediaId now else row).map f
      = rows.map f := by
  rw [List.map_map]
  refine List.map_congr_left fun row _ => ?_
  show f (if row.id = id then _ else row) = f row
  split
  · exact hf row
  · rfl

theorem SavingSound.saveExisting {id : Nat} (hs : Sound id s) (h : SavingSound s done saving)
    {existing : OccurrenceRow} (hold : existing ∈ s.occurrences) (hkey : existing.key = next.key)
    (hsave : saveExisting jsString s sync saving existing next = some saving') :
    SavingSound s (done ++ [next.key]) saving' := by
  have hlisted : next.key ∈ done ++ [next.key] := by simp
  have hid : IdOf s next.key existing.id := .inr ⟨existing, hold, rfl, hkey⟩
  simp only [ReleaseStore.saveExisting] at hsave
  split at hsave
  · next hsame =>
    obtain rfl := Option.some.inj hsave
    refine h.skip fun row hrow heq => ?_
    obtain rfl := eq_of_key_eq hs.keys hrow hold (heq.trans hkey.symm)
    exact missingSince_of_hasChanged hsame
  split at hsave
  · cases hsave
  obtain rfl := Option.some.inj hsave
  constructor
  case ids =>
    rw [map_updated fun row => rfl]
    exact h.ids
  case keys =>
    rw [map_updated fun row => rfl]
    exact h.keys
  case below =>
    intro updated hupdated
    obtain ⟨row, hrow, rfl⟩ := List.mem_map.mp hupdated
    split
    · exact h.below row hrow
    · exact h.below row hrow
  case nextId => exact h.nextId
  case rows =>
    intro updated hupdated
    obtain ⟨row, hrow, rfl⟩ := List.mem_map.mp hupdated
    split
    · next heq =>
      have hrowkey : row.key = next.key := by
        rcases h.rows row hrow with ⟨-, -, hnew | ⟨old, hold', hid', hkey'⟩⟩ | ⟨-, hold'⟩
        · exact absurd (heq ▸ hnew) (Nat.not_le.mpr (hs.below existing hold))
        · rw [← hkey', eq_of_id_eq hs.ids hold' hold (hid'.trans heq), hkey]
        · rw [eq_of_id_eq hs.ids hold' hold heq, hkey]
      left
      refine ⟨?_, rfl, ?_⟩
      · exact (show _ = next.key from hrowkey) ▸ hlisted
      · exact .inr ⟨existing, hold, heq.symm, hkey.trans hrowkey.symm⟩
    · next hne =>
      rcases h.rows row hrow with ⟨hdone, hmissing⟩ | ⟨hdone, hold'⟩
      · exact .inl ⟨List.mem_append_left _ hdone, hmissing⟩
      · refine .inr ⟨?_, hold'⟩
        have hrowkey : row.key ≠ next.key := fun heq =>
          hne (congrArg _ (eq_of_key_eq hs.keys hold' hold (heq.trans hkey.symm)))
        simp [hdone, hrowkey]
  case saved =>
    intro entry hentry
    rcases List.mem_append.mp hentry with hentry | hentry
    · exact ⟨List.mem_append_left _ (h.saved entry hentry).1, (h.saved entry hentry).2⟩
    · obtain rfl := List.mem_singleton.mp hentry
      exact ⟨hlisted, hid⟩

/-- **The loop over the calendar** saves what is listed and leaves the rest. -/
theorem saveCalendar_spec {id : Nat} (hs : Sound id s)
    (h : saveCalendar jsString s sync = some saving) :
    SavingSound s (sync.occurrences.map Normalized.key) saving := by
  have hloop : ∀ (entries : List Normalized) (done : List OccurrenceKey) (before : Saving),
      SavingSound s done before →
      entries.foldlM (saveEntry jsString s sync) before = some saving →
      SavingSound s (done ++ entries.map Normalized.key) saving := by
    intro entries
    induction entries with
    | nil =>
      intro done before hbefore hfold
      rw [List.map_nil, List.append_nil]
      exact Option.some.inj hfold ▸ hbefore
    | cons next entries ih =>
      intro done before hbefore hfold
      rw [List.foldlM_cons] at hfold
      obtain ⟨after, hafter, hrest⟩ := Option.bind_eq_some_iff.mp hfold
      have hnext : SavingSound s (done ++ [next.key]) after := by
        unfold saveEntry at hafter
        split at hafter
        · next existing hfind =>
          have hkey : existing.key = next.key := by simpa using List.find?_some hfind
          exact hbefore.saveExisting hs (List.mem_of_find?_eq_some hfind) hkey hafter
        · next hfind =>
          refine hbefore.saveNew (fun row hrow heq => ?_) hafter
          exact List.find?_eq_none.mp hfind row hrow (by simp [heq])
      rw [List.map_cons, List.append_cons]
      exact ih _ _ hnext hrest
  have hstart : SavingSound s [] ⟨s.occurrences, s.nextId, [], [], [], 0⟩ :=
    { ids := hs.ids
      keys := hs.keys
      below := hs.below
      nextId := le_rfl
      rows := fun row hrow => .inr ⟨by simp, hrow⟩
      saved := fun entry hentry => by cases hentry }
  exact hloop sync.occurrences [] _ hstart h

/-! ### What a sync does to one occurrence -/

theorem listed_eq_true {key : OccurrenceKey} :
    listed sync key = true ↔ key ∈ sync.occurrences.map Normalized.key := by
  simp [listed]

theorem mem_newlyMissing {id : Nat} :
    id ∈ newlyMissing s sync ↔ ∃ row ∈ s.occurrences, row.id = id ∧ row.missingSince = none
      ∧ (sync.start ≤ row.startsAt ∧ row.startsAt ≤ sync.stop) ∧ listed sync row.key = false := by
  simp only [newlyMissing, List.mem_map, List.mem_filter, Bool.and_eq_true, decide_eq_true_eq,
    Option.isNone_iff_eq_none, Bool.not_eq_true']
  constructor
  · rintro ⟨row, ⟨hrow, ⟨hmissing, hwindow⟩, hlisted⟩, rfl⟩
    exact ⟨row, hrow, rfl, hmissing, hwindow, hlisted⟩
  · rintro ⟨row, hrow, rfl, hmissing, hwindow, hlisted⟩
    exact ⟨row, ⟨hrow, ⟨hmissing, hwindow⟩, hlisted⟩, rfl⟩

/-- Marking rows as missing changes neither ids nor keys. -/
theorem map_markMissing {β : Type} {f : OccurrenceRow → β} {ids : List Nat} {now : Int}
    {rows : List OccurrenceRow}
    (hf : ∀ row : OccurrenceRow, f { row with missingSince := some now } = f row) :
    (markMissing ids now rows).map f = rows.map f := by
  rw [markMissing, List.map_map]
  refine List.map_congr_left fun row _ => ?_
  show f (if ids.contains row.id then _ else row) = f row
  split
  · exact hf row
  · rfl

/-- **What the marking leaves of a row**: it is not missing if it is listed, and
else missing since before or from now on. -/
theorem marked_spec {id : Nat} (hs : Sound id s) (hok : Ok id s sync)
    (hsaving : SavingSound s (sync.occurrences.map Normalized.key) saving) {row : OccurrenceRow}
    (hrow : row ∈ markMissing (newlyMissing s sync) sync.now saving.rows) (hid : row.id = id) :
    (listed sync row.key = true ∧ row.missingSince = none)
      ∨ (listed sync row.key = false ∧ ∃ old ∈ s.occurrences, old.id = id ∧ old.key = row.key
        ∧ row.missingSince = old.missingSince.or (some sync.now)) := by
  obtain ⟨saved, hsaved, rfl⟩ := List.mem_map.mp hrow
  replace hid : saved.id = id := by
    rw [← hid]
    split <;> rfl
  rcases hsaving.rows saved hsaved with ⟨hlisted, hmissing, hidOf⟩ | ⟨hlisted, hold⟩
  · left
    replace hlisted := listed_eq_true.mpr hlisted
    have hnot : ¬saved.id ∈ newlyMissing s sync := by
      intro hmem
      obtain ⟨old, hold, heq, -, -, hunlisted⟩ := mem_newlyMissing.mp hmem
      rcases hidOf with hnew | ⟨old', hold', heq', hkey⟩
      · exact absurd (hs.below old hold) (Nat.not_lt.mpr (heq ▸ hnew))
      · rw [eq_of_id_eq hs.ids hold hold' (heq.trans heq'.symm), hkey, hlisted] at hunlisted
        cases hunlisted
    rw [if_neg (by simpa using hnot)]
    exact ⟨hlisted, hmissing⟩
  · right
    have hunlisted : listed sync saved.key = false := by
      rw [← Bool.not_eq_true, listed_eq_true]
      exact hlisted
    cases hmissing : saved.missingSince with
    | none =>
      have hmem : saved.id ∈ newlyMissing s sync :=
        mem_newlyMissing.mpr
          ⟨saved, hold, rfl, hmissing, hok.covers saved hold hid, hunlisted⟩
      rw [if_pos (by simpa using hmem)]
      exact ⟨hunlisted, saved, hold, hid, rfl, by rw [hmissing]; rfl⟩
    | some since =>
      have hnot : ¬saved.id ∈ newlyMissing s sync := by
        intro hmem
        obtain ⟨old, hold', heq, hnone, -, -⟩ := mem_newlyMissing.mp hmem
        rw [eq_of_id_eq hs.ids hold' hold heq, hmissing] at hnone
        cases hnone
      rw [if_neg (by simpa using hnot)]
      exact ⟨hunlisted, saved, hold, hid, rfl, by rw [hmissing]; rfl⟩

/-- What was saved is listed. -/
theorem not_saved {id : Nat} (hs : Sound id s)
    (hsaving : SavingSound s (sync.occurrences.map Normalized.key) saving) {old : OccurrenceRow}
    (hold : old ∈ s.occurrences) (hunlisted : listed sync old.key = false) :
    ∀ entry ∈ saving.saved, entry.2.id ≠ old.id := by
  intro entry hentry heq
  obtain ⟨hdone, hnew | ⟨old', hold', heq', hkey⟩⟩ := hsaving.saved entry hentry
  · exact absurd (hs.below old hold) (Nat.not_lt.mpr (heq ▸ hnew))
  · rw [← listed_eq_true, ← hkey, eq_of_id_eq hs.ids hold' hold (heq'.trans heq), hunlisted] at hdone
    cases hdone

/-- The changes of what was saved are logged as detected now, and are no
withdrawals. -/
theorem of_mem_savedEvents {change : DateChange}
    (h : change ∈ (savedEvents s sync saving).dateChanges.map Prod.snd) :
    (∃ entry ∈ saving.saved, entry.2.id = change.occurrenceId) ∧ change.detectedAt = sync.now
      ∧ change.kind ≠ .withdrawn := by
  obtain ⟨⟨occurrence, change'⟩, hmem, rfl⟩ := List.mem_map.mp h
  obtain ⟨⟨key, saved⟩, hsaved, heq⟩ := List.mem_filterMap.mp hmem
  dsimp only at heq
  split at heq
  · split at heq
    · obtain ⟨rfl, rfl⟩ := Prod.mk.inj (Option.some.inj heq)
      exact ⟨⟨_, hsaved, rfl⟩, rfl, by simp⟩
    · cases heq
  · obtain ⟨old, -, heq⟩ := Option.map_eq_some_iff.mp heq
    obtain ⟨rfl, rfl⟩ := Prod.mk.inj heq
    refine ⟨⟨_, hsaved, rfl⟩, rfl, ?_⟩
    show (if _ then ChangeKind.movedEarlier else ChangeKind.delayed) ≠ .withdrawn
    split <;> simp

/-- Of rows with ids of their own, one at most is counted by its id. -/
theorem countP_id {rows : List OccurrenceRow} (h : (rows.map OccurrenceRow.id).Nodup)
    (p : OccurrenceRow → Bool) {row : OccurrenceRow} (hrow : row ∈ rows) :
    (rows.filter p).countP (fun other => other.id == row.id) = if p row then 1 else 0 := by
  induction rows with
  | nil => cases hrow
  | cons first rows ih =>
    rw [List.map_cons, List.nodup_cons] at h
    rcases List.mem_cons.mp hrow with rfl | hrow
    · have hnone : (rows.filter p).countP (fun other => other.id == row.id) = 0 := by
        refine List.countP_eq_zero.mpr fun other hother heq => h.1 ?_
        exact List.mem_map.mpr ⟨other, List.mem_of_mem_filter hother, by simpa using heq⟩
      by_cases hp : p row = true
      · simp [List.filter_cons_of_pos hp, hp, hnone]
      · simp [List.filter_cons_of_neg hp, hp, hnone]
    · have hne : (first.id == row.id) = false := by
        refine beq_eq_false_iff_ne.mpr fun heq => h.1 ?_
        exact List.mem_map.mpr ⟨row, hrow, heq.symm⟩
      by_cases hp : p first = true
      · simp [List.filter_cons_of_pos hp, hne, ih h.2 hrow]
      · simp [List.filter_cons_of_neg hp, ih h.2 hrow]

/-- The rows that a sync finds before it looks for expired ones. -/
def markedRows (s : ReleaseStore) (sync : ReleaseSync) (saving : Saving) : List OccurrenceRow :=
  markMissing (newlyMissing s sync) sync.now saving.rows

/-- The changes that a sync finds before it looks for expired rows. -/
def loggedChanges (s : ReleaseStore) (sync : ReleaseSync) (saving : Saving) : List DateChange :=
  s.changes ++ (savedEvents s sync saving).dateChanges.map Prod.snd

/-- The rows that a sync withdraws. -/
def withdrawnRows (s : ReleaseStore) (sync : ReleaseSync) (saving : Saving) :
    List OccurrenceRow :=
  withdrawals sync.now (markedRows s sync saving) (loggedChanges s sync saving)

/-- The changes that a sync leaves in the log. -/
def keptChanges (s : ReleaseStore) (sync : ReleaseSync) (saving : Saving) : List DateChange :=
  retained sync.now (loggedChanges s sync saving
    ++ (withdrawnRows s sync saving).map (withdrawal sync.now))

theorem step_cases (h : Step jsString s sync t) : ∃ saving,
    saveCalendar jsString s sync = some saving
      ∧ t.occurrences = keptRows sync.now (markedRows s sync saving) (keptChanges s sync saving)
      ∧ t.changes = keptChanges s sync saving ∧ t.nextId = saving.nextId ∧ t.clock = sync.now
      ∧ t.history = look s sync (markedRows s sync saving) (withdrawnRows s sync saving) := by
  unfold Step reconcile at h
  rw [Option.map_map] at h
  obtain ⟨saving, hsaving, rfl⟩ := Option.map_eq_some_iff.mp h
  exact ⟨saving, hsaving, rfl, rfl, rfl, rfl, rfl⟩

/-- What a sync adds to the history of one of its rows. -/
def viewOf (s : ReleaseStore) (sync : ReleaseSync) (saving : Saving) (row : OccurrenceRow) :
    OccurrenceView :=
  ⟨sync.now, listed sync row.key,
    (withdrawnRows s sync saving).countP fun other => other.id == row.id⟩

theorem absentSince_concat (views : List OccurrenceView) (view : OccurrenceView) :
    absentSince (views ++ [view])
      = if view.listed then none else (absentSince views).or (some view.now) :=
  Log.since_concat views view

theorem absenceWithdrawals_concat (views : List OccurrenceView) (view : OccurrenceView) :
    absenceWithdrawals (views ++ [view])
      = (if view.listed then 0 else absenceWithdrawals views) + view.withdrawn :=
  Log.countSince_concat views view

section OneRow

variable {id : Nat} {row : OccurrenceRow}

/-- A row's mark is what its history says. -/
theorem marked_missing (hs : Sound id s) (hok : Ok id s sync)
    (hsaving : SavingSound s (sync.occurrences.map Normalized.key) saving)
    (hrow : row ∈ markedRows s sync saving) (hid : row.id = id) :
    row.missingSince = absentSince (s.history id ++ [viewOf s sync saving row]) := by
  rw [absentSince_concat]
  rcases marked_spec hs hok hsaving hrow hid with ⟨hlisted, hnone⟩ | ⟨hunlisted, old, hold, rest⟩
  · rw [if_pos (show (viewOf s sync saving row).listed = true from hlisted), hnone]
  · obtain ⟨hid', -, hmissing⟩ := rest
    have hlisted : (viewOf s sync saving row).listed ≠ true := by simp [viewOf, hunlisted]
    rw [if_neg hlisted, ← hs.announced.missing old hold hid', hmissing]
    rfl

/-- A row has expired where its absence has outlasted the grace. -/
theorem outlastsGrace_marked (hs : Sound id s) (hok : Ok id s sync)
    (hsaving : SavingSound s (sync.occurrences.map Normalized.key) saving)
    (hrow : row ∈ markedRows s sync saving) (hid : row.id = id) :
    outlastsGrace (s.history id ++ [viewOf s sync saving row]) = expired sync.now row := by
  unfold outlastsGrace expired
  rw [← marked_missing hs hok hsaving hrow hid, List.getLast?_concat]
  rfl

theorem ids_marked (hsaving : SavingSound s (sync.occurrences.map Normalized.key) saving) :
    ((markedRows s sync saving).map OccurrenceRow.id).Nodup := by
  unfold markedRows
  rw [map_markMissing fun _ => rfl]
  exact hsaving.ids

/-- A row is withdrawn where it has expired and the log has no withdrawal of it. -/
theorem withdrawn_marked (hsaving : SavingSound s (sync.occurrences.map Normalized.key) saving)
    (hrow : row ∈ markedRows s sync saving) :
    (viewOf s sync saving row).withdrawn
      = if expired sync.now row = true ∧ ∀ change ∈ loggedChanges s sync saving,
          change.occurrenceId = row.id → change.kind ≠ .withdrawn then 1 else 0 := by
  unfold viewOf withdrawnRows withdrawals
  rw [countP_id (ids_marked hsaving) _ hrow]
  refine if_congr ?_ rfl rfl
  simp

/-- An unlisted row gets no change from the loop over the calendar. -/
theorem logged_of_unlisted (hs : Sound id s)
    (hsaving : SavingSound s (sync.occurrences.map Normalized.key) saving) {old : OccurrenceRow}
    (hold : old ∈ s.occurrences) (hid : old.id = id) (hunlisted : listed sync old.key = false)
    {change : DateChange} (hchange : change ∈ loggedChanges s sync saving)
    (heq : change.occurrenceId = id) : change ∈ s.changes := by
  rcases List.mem_append.mp hchange with hchange | hchange
  · exact hchange
  · obtain ⟨⟨entry, hentry, hsaved⟩, -, -⟩ := of_mem_savedEvents hchange
    exact absurd (hsaved.trans (heq.trans hid.symm)) (not_saved hs hsaving hold hunlisted entry hentry)

/-- An absence that was over the grace at the last sync still is. -/
theorem expired_of_outlastsGrace (hs : Sound id s) (hok : Ok id s sync)
    (hmissing : row.missingSince = (absentSince (s.history id)).or (some sync.now))
    (h : outlastsGrace (s.history id) = true) : expired sync.now row = true := by
  unfold outlastsGrace at h
  obtain ⟨since, hsince, hlast⟩ := (Option.any_eq_true _ _).mp h
  obtain ⟨view, hview, hlt⟩ := (Option.any_eq_true _ _).mp hlast
  have hnow : view.now ≤ sync.now := Int.le_trans (hs.lastSeen view hview) hok.clock
  unfold expired
  rw [hmissing, hsince]
  show decide (since < sync.now - missingGrace) = true
  have hlt := of_decide_eq_true hlt
  exact decide_eq_true (by omega)

/-- A row that is marked now has not expired yet. -/
theorem expired_of_marked {old : OccurrenceRow} {now : Int}
    (hmissing : row.missingSince = old.missingSince.or (some now))
    (h : expired now row = true) : expired now old = true := by
  cases hold : old.missingSince with
  | some since =>
    rw [hold] at hmissing
    unfold expired at h ⊢
    rw [hold]
    rw [hmissing] at h
    exact h
  | none =>
    rw [hold] at hmissing
    unfold expired at h
    rw [hmissing] at h
    have hlt : now < now - missingGrace := of_decide_eq_true h
    have hgrace : 0 < missingGrace := by decide
    omega

/-- **One withdrawal in an absence**, from the sync on that finds it longer than
the grace. -/
theorem absenceWithdrawals_marked (hs : Sound id s) (hok : Ok id s sync)
    (hsaving : SavingSound s (sync.occurrences.map Normalized.key) saving)
    (hrow : row ∈ markedRows s sync saving) (hid : row.id = id) :
    absenceWithdrawals (s.history id ++ [viewOf s sync saving row])
      = if expired sync.now row then 1 else 0 := by
  rw [absenceWithdrawals_concat, withdrawn_marked hsaving hrow, hid]
  rcases marked_spec hs hok hsaving hrow hid with ⟨hlisted, hnone⟩ | ⟨hunlisted, old, hold, rest⟩
  · have hexpired : expired sync.now row = false := by
      unfold expired
      rw [hnone]
      rfl
    rw [if_pos (show (viewOf s sync saving row).listed = true from hlisted)]
    simp [hexpired]
  · obtain ⟨hid', hkey, hmissing⟩ := rest
    have hlisted : (viewOf s sync saving row).listed ≠ true := by simp [viewOf, hunlisted]
    have hcount := hs.announced.withdrawn _ (List.prefix_refl (s.history id))
    rw [if_neg hlisted]
    by_cases hexpired : expired sync.now row = true
    · rw [if_pos hexpired]
      by_cases hzero : absenceWithdrawals (s.history id) = 0
      · have hunwithdrawn : ∀ change ∈ loggedChanges s sync saving, change.occurrenceId = id →
            change.kind ≠ .withdrawn := by
          intro change hchange heq
          have hlogged := logged_of_unlisted hs hsaving hold hid' (hkey ▸ hunlisted) hchange heq
          exact hok.unwithdrawn old hold hid' (hkey ▸ hunlisted)
            (expired_of_marked hmissing hexpired) hzero change hlogged heq
        rw [if_pos ⟨hexpired, hunwithdrawn⟩, hzero]
      · obtain ⟨change, hchange, heq, hkind, -⟩ := hs.logged hzero old hold hid'
        have hone : absenceWithdrawals (s.history id) = 1 := by
          rw [hcount] at hzero ⊢
          split at hzero
          · next h => rw [if_pos h]
          · exact absurd rfl hzero
        rw [if_neg fun h => h.2 change (List.mem_append_left _ hchange) heq hkind, hone]
    · have hgrace : outlastsGrace (s.history id) = false := by
        rw [← Bool.not_eq_true]
        intro h
        rw [hs.announced.missing old hold hid'] at hmissing
        exact hexpired (expired_of_outlastsGrace hs hok hmissing h)
      rw [if_neg hexpired, if_neg fun h => hexpired h.1, hcount, hgrace]
      rfl

theorem mem_keptChanges {change : DateChange} :
    change ∈ keptChanges s sync saving
      ↔ (change ∈ loggedChanges s sync saving
          ∨ ∃ other ∈ withdrawnRows s sync saving, withdrawal sync.now other = change)
        ∧ sync.now - changeRetention ≤ change.detectedAt := by
  simp [keptChanges, retained, or_and_right]

/-- The changes of a sync are detected by its time. -/
theorem detected_kept (hs : Sound id s) (hclock : s.clock ≤ sync.now) :
    ∀ change ∈ keptChanges s sync saving, change.detectedAt ≤ sync.now := by
  intro change hchange
  rcases (mem_keptChanges.mp hchange).1 with hlogged | ⟨other, -, rfl⟩
  · rcases List.mem_append.mp hlogged with hold | hnew
    · exact Int.le_trans (hs.detected change hold) hclock
    · exact Int.le_of_eq (of_mem_savedEvents hnew).2.1
  · exact Int.le_refl _

/-- **The log keeps the withdrawal of an absence** for as long as the row is kept:
when it is dropped for its age, so is every other change of the row. -/
theorem logged_kept (hs : Sound id s) (hok : Ok id s sync)
    (hsaving : SavingSound s (sync.occurrences.map Normalized.key) saving)
    (hrow : row ∈ keptRows sync.now (markedRows s sync saving) (keptChanges s sync saving))
    (hid : row.id = id)
    (hcount : absenceWithdrawals (s.history id ++ [viewOf s sync saving row]) ≠ 0) :
    ∃ change ∈ keptChanges s sync saving, change.occurrenceId = id ∧ change.kind = .withdrawn
      ∧ ∀ other ∈ keptChanges s sync saving, other.occurrenceId = id →
        other.detectedAt ≤ change.detectedAt := by
  obtain ⟨hmarked, hkept⟩ := List.mem_filter.mp hrow
  rw [absenceWithdrawals_marked hs hok hsaving hmarked hid] at hcount
  have hexpired : expired sync.now row = true := by
    by_contra h
    exact hcount (if_neg h)
  have hretention : 0 < changeRetention := by decide
  by_cases hnow : row ∈ withdrawnRows s sync saving
  · -- Withdrawn now: nothing is newer.
    refine ⟨withdrawal sync.now row, mem_keptChanges.mpr ⟨.inr ⟨row, hnow, rfl⟩, ?_⟩, hid, rfl,
      fun other hother _ => detected_kept hs hok.clock other hother⟩
    show sync.now - changeRetention ≤ sync.now
    omega
  · -- Withdrawn before: the log has had no change of the row since.
    rcases marked_spec hs hok hsaving hmarked hid with ⟨-, hnone⟩ | ⟨hunlisted, old, hold, rest⟩
    · unfold expired at hexpired
      rw [hnone] at hexpired
      cases hexpired
    obtain ⟨hid', hkey, -⟩ := rest
    have hold' : ∀ change ∈ keptChanges s sync saving, change.occurrenceId = id →
        change ∈ s.changes := by
      intro change hchange heq
      rcases (mem_keptChanges.mp hchange).1 with hlogged | ⟨other, hother, rfl⟩
      · exact logged_of_unlisted hs hsaving hold hid' (hkey ▸ hunlisted) hlogged heq
      · have hmem : other ∈ markedRows s sync saving := List.mem_of_mem_filter hother
        have hsame : other = row :=
          eq_of_id_eq (ids_marked hsaving) hmem hmarked (heq.trans hid.symm)
        exact absurd (hsame ▸ hother) hnow
    have hbefore : ∃ change ∈ loggedChanges s sync saving, change.occurrenceId = id
        ∧ change.kind = .withdrawn := by
      by_contra hnot
      refine hnow (List.mem_filter.mpr ⟨hmarked, ?_⟩)
      simp only [hexpired, Bool.true_and, Bool.not_eq_true', List.any_eq_false, Bool.and_eq_true,
        beq_iff_eq]
      exact fun change hchange heq => hnot ⟨change, hchange, heq.1.trans hid, heq.2⟩
    have hcount' : absenceWithdrawals (s.history id) ≠ 0 := by
      have hone := absenceWithdrawals_marked hs hok hsaving hmarked hid
      have hnone : (viewOf s sync saving row).withdrawn = 0 := by
        obtain ⟨change, hchange, heq, hkind⟩ := hbefore
        rw [withdrawn_marked hsaving hmarked]
        exact if_neg fun h => h.2 change hchange (heq.trans hid.symm) hkind
      have hlisted : (viewOf s sync saving row).listed ≠ true := by simp [viewOf, hunlisted]
      rw [absenceWithdrawals_concat, if_neg hlisted, hnone, if_pos hexpired] at hone
      omega
    obtain ⟨change, hchange, heq, hkind, hnewest⟩ := hs.logged hcount' old hold hid'
    obtain ⟨witness, hwitness, hwid⟩ : ∃ witness ∈ keptChanges s sync saving,
        witness.occurrenceId = id := by
      simp only [hexpired, Bool.not_true, Bool.false_or, List.any_eq_true, beq_iff_eq] at hkept
      obtain ⟨witness, hwitness, hwid⟩ := hkept
      exact ⟨witness, hwitness, hwid.trans hid⟩
    have hage : sync.now - changeRetention ≤ change.detectedAt :=
      Int.le_trans (mem_keptChanges.mp hwitness).2
        (hnewest witness (hold' witness hwitness hwid) hwid)
    refine ⟨change, mem_keptChanges.mpr ⟨.inl (List.mem_append_left _ hchange), hage⟩, heq, hkind,
      fun other hother hoid => hnewest other (hold' other hother hoid) hoid⟩

end OneRow

/-! ### Runs -/

/-- **Every such sync keeps the invariant.** -/
theorem Sound.step {id : Nat} (hs : Sound id s) (hok : Ok id s sync)
    (hstep : Step jsString s sync t) : Sound id t := by
  obtain ⟨saving, hsave, hrows, hchanges, hnext, hclock, hhistory⟩ := step_cases hstep
  have hsaving := saveCalendar_spec hs hsave
  have hids := ids_marked hsaving
  -- The history grows by the view of the one row of this id, if there is one.
  have hview : ∀ row ∈ markedRows s sync saving, row.id = id →
      t.history id = s.history id ++ [viewOf s sync saving row] := by
    intro row hrow hid
    rw [hhistory]
    unfold look
    split
    · next found hfind =>
      have hfid : found.id = id := by simpa using List.find?_some hfind
      have hsame : found = row :=
        eq_of_id_eq hids (List.mem_of_find?_eq_some hfind) hrow (hfid.trans hid.symm)
      rw [hsame, viewOf, hid]
    · next hfind => exact absurd (beq_iff_eq.mpr hid) (List.find?_eq_none.mp hfind row hrow)
  have hnone : (∀ row ∈ markedRows s sync saving, row.id ≠ id) → t.history id = s.history id := by
    intro hne
    rw [hhistory]
    unfold look
    rw [List.find?_eq_none.mpr fun row hrow heq => hne row hrow (by simpa using heq)]
  have hkept : ∀ row ∈ t.occurrences, row ∈ markedRows s sync saving :=
    fun row hrow => List.mem_of_mem_filter (hrows ▸ hrow)
  constructor
  case ids =>
    rw [hrows]
    exact hids.sublist (List.filter_sublist.map _)
  case keys =>
    have hkeys : ((markedRows s sync saving).map OccurrenceRow.key).Nodup := by
      unfold markedRows
      rw [map_markMissing fun _ => rfl]
      exact hsaving.keys
    rw [hrows]
    exact hkeys.sublist (List.filter_sublist.map _)
  case below =>
    intro row hrow
    rw [hnext]
    obtain ⟨saved, hsaved, rfl⟩ := List.mem_map.mp (hkept row hrow)
    split <;> exact hsaving.below saved hsaved
  case fresh =>
    intro hle
    rw [hnext] at hle
    rw [hnone]
    · exact hs.fresh (hsaving.nextId.trans hle)
    · intro row hrow hid
      obtain ⟨saved, hsaved, rfl⟩ := List.mem_map.mp hrow
      have hbelow := hsaving.below saved hsaved
      split at hid <;> exact absurd (hid ▸ hbelow) (Nat.not_lt.mpr hle)
  case lastSeen =>
    intro view hlast
    rw [hclock]
    by_cases h : ∃ row ∈ markedRows s sync saving, row.id = id
    · obtain ⟨row, hrow, hid⟩ := h
      rw [hview row hrow hid, List.getLast?_concat] at hlast
      exact Option.some.inj hlast ▸ Int.le_refl _
    · rw [hnone fun row hrow hid => h ⟨row, hrow, hid⟩] at hlast
      exact Int.le_trans (hs.lastSeen view hlast) hok.clock
  case detected =>
    rw [hchanges, hclock]
    exact detected_kept hs hok.clock
  case logged =>
    intro hcount row hrow hid
    rw [hview row (hkept row hrow) hid] at hcount
    rw [hchanges]
    exact logged_kept hs hok hsaving (hrows ▸ hrow) hid hcount
  case announced =>
    constructor
    case missing =>
      intro row hrow hid
      rw [hview row (hkept row hrow) hid]
      exact marked_missing hs hok hsaving (hkept row hrow) hid
    case withdrawn =>
      intro views hprefix
      by_cases h : ∃ row ∈ markedRows s sync saving, row.id = id
      · obtain ⟨row, hrow, hid⟩ := h
        rw [hview row hrow hid] at hprefix
        rcases List.prefix_concat_iff.mp hprefix with rfl | hprefix
        · rw [outlastsGrace_marked hs hok hsaving hrow hid]
          exact absenceWithdrawals_marked hs hok hsaving hrow hid
        · exact hs.announced.withdrawn views hprefix
      · rw [hnone fun row hrow hid => h ⟨row, hrow, hid⟩] at hprefix
        exact hs.announced.withdrawn views hprefix

/-- A server whose calendar has not been synced yet. -/
def start (source : String) (clock : Int) : ReleaseStore := { source := source, clock := clock }

theorem sound_start (source : String) (clock : Int) (id : Nat) : Sound id (start source clock) where
  ids := List.nodup_nil
  keys := List.nodup_nil
  below := fun _ h => by cases h
  fresh := fun _ => rfl
  lastSeen := fun _ h => by cases h
  detected := fun _ h => by cases h
  logged := fun h => absurd rfl h
  announced :=
    { missing := fun _ h => by cases h
      withdrawn := fun views h => by
        rw [List.prefix_nil.mp h]
        rfl }

/-- **Withdrawn once per disappearance**: every occurrence, in any run of syncs whose
windows cover it and in which no withdrawal of an earlier absence stands in the
way. -/
theorem withdrawn_once (jsString : Json → String) (source : String) (clock : Int) (id : Nat)
    {syncs : List ReleaseSync} {s : ReleaseStore}
    (h : Run (Guarded (Step jsString) (Ok id)) (start source clock) syncs s) : Announced s id :=
  (h.invariant (fun _ _ _ hs hstep => hs.step hstep.1 hstep.2)
    (sound_start source clock id)).announced

/-! ### A second disappearance -/

private def movie : Normalized :=
  { itemId := 7, mediaType := "movie", tmdbId := some (.num 603), title := some (.str "The Matrix")
    dateType := "digital", startsAt := 40 * dayMs }

/-- A sync of the first hundred days, on a day on which the calendar lists the
movie or not. -/
private def syncOn (day : Int) (listed : Bool) : ReleaseSync :=
  { occurrences := if listed then [movie] else [], start := 0, stop := 100 * dayMs
    now := day * dayMs }

/-- The movie disappears for over a week, is back, and disappears again. -/
private def twice : List ReleaseSync :=
  [syncOn 0 true, syncOn 1 false, syncOn 9 false, syncOn 10 true, syncOn 20 false,
    syncOn 28 false]

private def covered (s : ReleaseStore) (sync : ReleaseSync) : Bool :=
  decide (s.clock ≤ sync.now) && s.occurrences.all fun row =>
    decide (sync.start ≤ row.startsAt) && decide (row.startsAt ≤ sync.stop)

private theorem covered_of {id : Nat} {s : ReleaseStore} {sync : ReleaseSync}
    (h : covered s sync = true) : Covered id s sync := by
  simp only [covered, Bool.and_eq_true, decide_eq_true_eq, List.all_eq_true] at h
  exact ⟨h.1, fun row hrow _ => h.2 row hrow⟩

/-- **A second disappearance is not withdrawn**: the log still holds the withdrawal
of the first one. -/
theorem second_disappearance : ∃ (jsString : Json → String) (source : String) (clock : Int)
    (id : Nat) (syncs : List ReleaseSync) (s : ReleaseStore),
    Run (Guarded (Step jsString) (Covered id)) (start source clock) syncs s ∧ ¬Announced s id := by
  let guarded (s : ReleaseStore) (sync : ReleaseSync) : Option ReleaseStore :=
    if covered s sync then (reconcile (fun _ => "") s sync).map Prod.fst else none
  have hrun : (twice.foldlM guarded (start "radarr" 0)).map
        (fun s => (absenceWithdrawals (s.history 0), outlastsGrace (s.history 0)))
      = some (0, true) := by decide +kernel
  obtain ⟨s, hs, hfinal⟩ := Option.map_eq_some_iff.mp hrun
  obtain ⟨hcount, hgrace⟩ := Prod.mk.inj hfinal
  have hguard : ∀ s sync t, guarded s sync = some t →
      Guarded (Step fun _ => "") (Covered 0) s sync t := by
    intro s sync t hstep
    simp only [guarded, Option.ite_none_right_eq_some] at hstep
    exact ⟨covered_of hstep.1, hstep.2⟩
  refine ⟨_, "radarr", 0, 0, twice, s, (Run.of_foldlM hs).mono hguard, fun h => ?_⟩
  have hone := h.withdrawn _ (List.prefix_refl _)
  rw [hcount, hgrace] at hone
  cases hone

/-- The movie disappears for a few days, is back, and disappears for good. -/
private def once : List ReleaseSync :=
  [syncOn 0 true, syncOn 1 false, syncOn 3 false, syncOn 4 true, syncOn 10 false,
    syncOn 18 false, syncOn 25 false]

/-- The sync withdraws nothing, or the log has no withdrawal. -/
private def unwithdrawn (s : ReleaseStore) (sync : ReleaseSync) : Bool :=
  covered s sync && (absenceWithdrawals (s.history 0) != 0
    || s.changes.all fun change => change.kind != .withdrawn)

private theorem ok_of_unwithdrawn {s : ReleaseStore} {sync : ReleaseSync}
    (h : unwithdrawn s sync = true) : Ok 0 s sync := by
  simp only [unwithdrawn, Bool.and_eq_true, Bool.or_eq_true, bne_iff_ne, List.all_eq_true] at h
  refine ⟨covered_of h.1, fun _ _ _ _ _ hzero change hchange _ => ?_⟩
  exact h.2.resolve_left (fun hne => hne hzero) change hchange

theorem withdrawn_once_for_good : ∃ s : ReleaseStore, Announced s 0
    ∧ absenceWithdrawals (s.history 0) = 1 ∧ (s.history 0).length = 7 := by
  let guarded (s : ReleaseStore) (sync : ReleaseSync) : Option ReleaseStore :=
    if unwithdrawn s sync then (reconcile (fun _ => "") s sync).map Prod.fst else none
  have hrun : (once.foldlM guarded (start "radarr" 0)).map
        (fun s => (absenceWithdrawals (s.history 0), (s.history 0).length))
      = some (1, 7) := by decide +kernel
  obtain ⟨s, hs, hfinal⟩ := Option.map_eq_some_iff.mp hrun
  obtain ⟨hcount, hlength⟩ := Prod.mk.inj hfinal
  have hguard : ∀ s sync t, guarded s sync = some t →
      Guarded (Step fun _ => "") (Ok 0) s sync t := by
    intro s sync t hstep
    simp only [guarded, Option.ite_none_right_eq_some] at hstep
    exact ⟨ok_of_unwithdrawn hstep.1, hstep.2⟩
  exact ⟨s, withdrawn_once (fun _ => "") "radarr" 0 0 ((Run.of_foldlM hs).mono hguard), hcount,
    hlength⟩

end ReleaseStore

end Foreseerr

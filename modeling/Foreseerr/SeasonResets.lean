import Foreseerr.MediaSave
import Foreseerr.ScanShow
import Foreseerr.Writes

/-!
# Settling abandoned seasons

At the end of a run an *arr scan settles the seasons no server pursues any more
(`Scan::resolve_season_resets`): they fall back to unknown, and the approved requests
of the title are declined or lose them. What it does it plans once, from the rows as it
finds them, and then writes statement after statement.
-/

namespace Foreseerr

/-! ## The plan -/

/-- A request that keeps other seasons: what to remove of it, how many are left, and
whether those are all completed. -/
structure Trim where
  requestId : Int
  removed : List Int
  kept : Nat
  completed : Bool
deriving DecidableEq, Repr

/-- `SeasonResetPlan`. -/
structure SeasonResetPlan where
  decline : List Int := []
  trim : List Trim := []
deriving DecidableEq, Repr

/-- `gone`: the season asked for was abandoned. -/
def SeasonRequestRow.gone (abandoned : List Int) (s : SeasonRequestRow) : Bool :=
  abandoned.contains s.seasonNumber

/-- A request that loses a season. -/
def RequestRow.affected (abandoned : List Int) (r : RequestRow) : Bool :=
  r.seasons.any (·.gone abandoned)

/-- A request that is declined: the title fell back, or every season of it was
abandoned. -/
def RequestRow.abandonedBy (abandoned : List Int) (titleUnknown : Bool) (r : RequestRow) : Bool :=
  titleUnknown || (r.affected abandoned && r.seasons.all (·.gone abandoned))

/-- What a request that is not declined loses. -/
def RequestRow.trimmedBy (abandoned : List Int) (titleUnknown : Bool) (r : RequestRow) :
    Option Trim :=
  if r.abandonedBy abandoned titleUnknown then none
  else if r.affected abandoned then
    let kept := r.seasons.filter fun s => !s.gone abandoned
    some
      { requestId := r.id
        removed := (r.seasons.filter (·.gone abandoned)).map (·.id)
        kept := kept.length
        completed := kept.all fun s => s.status == RequestStatus.completed }
  else none

/-- `plan_season_resets`. -/
def planSeasonResets (requests : List RequestRow) (abandoned : List Int) (titleUnknown : Bool) :
    SeasonResetPlan where
  decline := (requests.filter fun r => r.abandonedBy abandoned titleUnknown).map (·.id)
  trim := requests.filterMap fun r => r.trimmedBy abandoned titleUnknown

/-! ## The seasons -/

/-- What `resolve_season_resets` is called with, beside the database: the title and
quality, the candidates and what the scan saw last of the title, whether a season is
abandoned (by TMDB id, quality and number), `enable4k_show`, and what its writes and
hooks meet. -/
structure SeasonReset where
  mediaId : Int
  fourK : Bool
  numbers : List Int
  scanned : List ProcessableSeason
  abandoned : Int → Bool → Option Int → Bool
  enable4kShow : Bool
  now : String
  envs : HookEnvs

/-- `DELETE FROM "season_request" WHERE "id" = ?`. -/
def Db.deleteSeasonRequest (db : Db) (id : Int) : Db :=
  { db with
    requests := db.requests.map fun r => { r with seasons := r.seasons.filter (·.id ≠ id) } }

namespace SeasonReset

variable (c : SeasonReset)

/-- A season of the title that is abandoned, and in `PROCESSING` or `UNKNOWN`. -/
def goneSeason (tmdbId : Int) (s : SeasonRow) : Bool :=
  c.numbers.contains s.seasonNumber && c.abandoned tmdbId c.fourK (some s.seasonNumber)
    && (s.statusOf c.fourK == MediaStatus.processing || s.statusOf c.fourK == MediaStatus.unknown)

/-- A season that falls back. -/
def resetSeason (tmdbId : Int) (s : SeasonRow) : SeasonRow :=
  if c.goneSeason tmdbId s = true ∧ s.statusOf c.fourK = MediaStatus.processing then
    s.setStatus c.fourK MediaStatus.unknown
  else s

/-- `gone`. -/
def gone (media : MediaRow) : List Int :=
  (media.seasons.filter fun s => c.goneSeason media.tmdbId s).map (·.seasonNumber)

/-- `reset`: whether some season falls back. -/
def resets (media : MediaRow) : Bool :=
  media.seasons.any fun s =>
    c.goneSeason media.tmdbId s && s.statusOf c.fourK == MediaStatus.processing

/-- `after`: the title with its seasons fallen back, and its status rolled up from
them. -/
def afterReset (media : MediaRow) : MediaRow :=
  let after := { media with seasons := media.seasons.map (c.resetSeason media.tmdbId) }
  if c.resets media then
    after.setStatus c.fourK (rollupShowStatus after.seasons c.scanned c.fourK
      (some (media.statusOf c.fourK)) (!c.fourK || c.enable4kShow))
  else after

/-- An approved request of the title and quality. -/
def approved (r : RequestRow) : Bool :=
  r.mediaId == some c.mediaId && r.is4k == c.fourK && r.status == RequestStatus.approved

/-- What one call works off: the save of the title, if a season of it falls back, and
the plan. -/
structure Work where
  edit : Option MediaEdit := none
  plan : SeasonResetPlan := {}
deriving DecidableEq, Repr

/-- `title_unknown`. -/
def titleUnknown (media : MediaRow) : Bool :=
  (c.afterReset media).statusOf c.fourK == MediaStatus.unknown

/-- What is read and planned before the first write. -/
def work (db : Db) : Work :=
  match db.mediaById c.mediaId with
  | none => {}
  | some media =>
    if c.gone media = [] then {}
    else
      { edit := if c.resets media then some ⟨media, c.afterReset media, []⟩ else none
        plan := planSeasonResets (db.requests.filter c.approved) (c.gone media)
          (c.titleUnknown media) }

/-! ## The writes -/

/-- The statement or transaction a run is cut off at; `done` is a cut after the last
one. -/
inductive Cut
  | deleteSeason
  | setUnits (trim : Trim)
  | complete
  | approve
  | saveTitle
  | hook
  | decline
  | parentStatus (e : RequestRow)
  | done
deriving DecidableEq, Repr

open Writes

/-- A request is loaded, completed and saved. The hooks of a completed request write
nothing (`updateParentStatus_completed`). -/
def completeRequest (id : Int) : Writes Db Cut :=
  reading fun db =>
    (db.requestById id).elim skip fun e =>
      write .complete fun db =>
        (writeRequest c.now db { e with status := RequestStatus.completed }).1.db

/-- One turn of the loop over `plan.trim`. -/
def trimRequest (t : Trim) : Writes Db Cut :=
  ((each (fun id => write .deleteSeason (·.deleteSeasonRequest id)) t.removed).andThen
    (write (.setUnits t) fun db =>
      db.updateRequest t.requestId fun r => { r with tvQuotaUnits := t.kept })).andThen
    (if t.completed then c.completeRequest t.requestId else skip)

/-- `approve_children`, a save and its hooks as one write. -/
def approveWrites (mediaId : Int) (fourK : Bool) : Writes Db Cut :=
  reading fun db =>
    each (fun e : RequestRow => write .approve fun db =>
        (save (c.envs e.id) db { e with status := RequestStatus.approved }).db)
      ((db.requestsOfMedia mediaId).filter fun e =>
        e.is4k == fourK && e.status == RequestStatus.pending)

/-- `before_update`. -/
def beforeUpdateWrites (edit : MediaEdit) : Writes Db Cut :=
  each (fun fourK =>
    if edit.after.statusOf fourK = MediaStatus.available
        ∧ edit.before.statusOf fourK = MediaStatus.pending then
      c.approveWrites edit.after.id fourK
    else skip) [false, true]

/-- `after_update`. -/
def afterUpdateWrites (edit : MediaEdit) (dbSeasons : List SeasonRow) : Writes Db Cut :=
  each (fun fourK =>
    if completes edit edit.after dbSeasons fourK then
      reading fun db =>
        each (fun e : RequestRow => write .hook fun db => (save (c.envs e.id) db e).db)
          (relatedSaves db edit.after dbSeasons fourK)
    else skip) [false, true]

/-- `save_existing`, for a title no season is added to. -/
def saveTitleWrites (edit : MediaEdit) : Writes Db Cut :=
  let writes := write Cut.saveTitle fun db =>
    ((writeTitle c.now db edit []).map Prod.fst).getD db
  if edit.mediaChanged then
    (c.beforeUpdateWrites edit).andThen
      (reading fun db =>
        writes.andThen (c.afterUpdateWrites edit (storedSeasons db edit.after.id)))
  else writes

/-- One turn of `decline_requests`. The hooks of a declined request ask no server
(`save_eq_saveSettled`). -/
def declineRequest (id : Int) : Writes Db Cut :=
  reading fun db =>
    (db.requestById id).elim skip fun e =>
      let saved := writeRequest c.now db { e with status := RequestStatus.declined }
      (write .decline fun db =>
          (writeRequest c.now db { e with status := RequestStatus.declined }).1.db).andThen
        (if saved.2 then
          write (.parentStatus saved.1.e) fun db => (updateParentStatus c.now ⟨db, saved.1.e⟩).db
        else skip)

/-- The writes of the work. -/
def Work.writes (w : Work) : Writes Db Cut :=
  ((each c.trimRequest w.plan.trim).andThen (w.edit.elim skip c.saveTitleWrites)).andThen
    (each c.declineRequest w.plan.decline)

/-- `resolve_season_resets`. -/
def resolve : Writes Db Cut :=
  (reading fun db => (c.work db).writes c).andThen (write .done id)

end SeasonReset

end Foreseerr

import Mathlib.Data.List.Basic

/-!
# The rows the program stores

`db.rs` reads a title's `media` row with its `seasons`, and a request with
the seasons and episodes it asks for. Statuses are the integer columns of
the database; the constants name the values the program gives a meaning,
and every other value is a status like any other. `simp` reads the names as
the numbers they stand for.
-/

namespace Foreseerr

/-! ## Statuses -/

namespace MediaStatus

/-- `UNKNOWN`. -/
@[simp] abbrev unknown : Int := 1
/-- `PENDING`. -/
@[simp] abbrev pending : Int := 2
/-- `PROCESSING`. -/
@[simp] abbrev processing : Int := 3
/-- `PARTIALLY_AVAILABLE`. -/
@[simp] abbrev partially : Int := 4
/-- `AVAILABLE`. -/
@[simp] abbrev available : Int := 5
/-- `BLOCKLISTED`. -/
@[simp] abbrev blocklisted : Int := 6
/-- `DELETED`. -/
@[simp] abbrev deleted : Int := 7

end MediaStatus

namespace RequestStatus

/-- `PENDING`. -/
@[simp] abbrev pending : Int := 1
/-- `APPROVED`. -/
@[simp] abbrev approved : Int := 2
/-- `DECLINED`. -/
@[simp] abbrev declined : Int := 3
/-- `FAILED`. -/
@[simp] abbrev failed : Int := 4
/-- `COMPLETED`. -/
@[simp] abbrev completed : Int := 5

end RequestStatus

/-! ## Media rows -/

/-- A `season` row. -/
structure SeasonRow where
  id : Int := 0
  seasonNumber : Int := 0
  status : Int := 0
  status4k : Int := 0
  createdAt : Option String := none
  updatedAt : Option String := none
  mediaId : Option Int := none
deriving DecidableEq, Repr

/-- A `media` row with its seasons. -/
structure MediaRow where
  id : Int := 0
  mediaType : String := ""
  tmdbId : Int := 0
  tvdbId : Option Int := none
  imdbId : Option String := none
  status : Int := 0
  status4k : Int := 0
  createdAt : Option String := none
  updatedAt : Option String := none
  lastSeasonChange : Option String := none
  mediaAddedAt : Option String := none
  serviceId : Option Int := none
  serviceId4k : Option Int := none
  externalServiceId : Option Int := none
  externalServiceId4k : Option Int := none
  externalServiceSlug : Option String := none
  externalServiceSlug4k : Option String := none
  ratingKey : Option String := none
  ratingKey4k : Option String := none
  jellyfinMediaId : Option String := none
  jellyfinMediaId4k : Option String := none
  seasons : List SeasonRow := []
deriving DecidableEq, Repr

/-- A season appended to a title's, by its index, and whether it was
`status4k` that was set. -/
structure FreshSeason where
  index : Nat
  fourK : Bool
deriving DecidableEq, Repr

/-- `season_status`: the status column of one quality. -/
def SeasonRow.statusOf (season : SeasonRow) (fourK : Bool) : Int :=
  if fourK then season.status4k else season.status

/-- Write the status column of one quality. -/
def SeasonRow.setStatus (season : SeasonRow) (fourK : Bool) (status : Int) : SeasonRow :=
  if fourK then { season with status4k := status } else { season with status := status }

@[simp] theorem SeasonRow.statusOf_setStatus (season : SeasonRow) (fourK : Bool)
    (status : Int) : (season.setStatus fourK status).statusOf fourK = status := by
  cases fourK <;> rfl

/-- Setting the status of one quality leaves the other's as it was. -/
@[simp] theorem SeasonRow.statusOf_setStatus_not (season : SeasonRow) (fourK : Bool)
    (status : Int) : (season.setStatus fourK status).statusOf (!fourK)
      = season.statusOf (!fourK) := by
  cases fourK <;> rfl

/-- `status_of`: which media status column a quality drives. -/
def MediaRow.statusOf (media : MediaRow) (fourK : Bool) : Int :=
  if fourK then media.status4k else media.status

/-- `*status_mut(media, four_k) = status`. -/
def MediaRow.setStatus (media : MediaRow) (fourK : Bool) (status : Int) : MediaRow :=
  if fourK then { media with status4k := status } else { media with status := status }

@[simp] theorem MediaRow.statusOf_setStatus (media : MediaRow) (fourK : Bool)
    (status : Int) : (media.setStatus fourK status).statusOf fourK = status := by
  cases fourK <;> rfl

/-- Setting the status of one quality leaves the other's as it was. -/
@[simp] theorem MediaRow.statusOf_setStatus_not (media : MediaRow) (fourK : Bool)
    (status : Int) : (media.setStatus fourK status).statusOf (!fourK)
      = media.statusOf (!fourK) := by
  cases fourK <;> rfl

@[simp] theorem MediaRow.setStatus_statusOf (media : MediaRow) (fourK : Bool) :
    media.setStatus fourK (media.statusOf fourK) = media := by
  cases fourK <;> rfl

/-- The columns that name the *arr server and the entry a title has there in
one quality. -/
@[ext] structure ServiceColumns where
  serviceId : Option Int := none
  externalServiceId : Option Int := none
  externalServiceSlug : Option String := none
deriving DecidableEq, Repr

/-- The service columns of one quality. -/
def MediaRow.servicesOf (media : MediaRow) (fourK : Bool) : ServiceColumns :=
  if fourK then
    { serviceId := media.serviceId4k
      externalServiceId := media.externalServiceId4k
      externalServiceSlug := media.externalServiceSlug4k }
  else
    { serviceId := media.serviceId
      externalServiceId := media.externalServiceId
      externalServiceSlug := media.externalServiceSlug }

/-- Write the service columns of one quality. -/
def MediaRow.setServicesOf (media : MediaRow) (fourK : Bool)
    (services : ServiceColumns) : MediaRow :=
  if fourK then
    { media with
      serviceId4k := services.serviceId
      externalServiceId4k := services.externalServiceId
      externalServiceSlug4k := services.externalServiceSlug }
  else
    { media with
      serviceId := services.serviceId
      externalServiceId := services.externalServiceId
      externalServiceSlug := services.externalServiceSlug }

@[simp] theorem MediaRow.servicesOf_setServicesOf (media : MediaRow) (fourK : Bool)
    (services : ServiceColumns) :
    (media.setServicesOf fourK services).servicesOf fourK = services := by
  cases fourK <;> rfl

/-- Writing the service columns of one quality leaves the other's as they
were. -/
@[simp] theorem MediaRow.servicesOf_setServicesOf_not (media : MediaRow) (fourK : Bool)
    (services : ServiceColumns) :
    (media.setServicesOf fourK services).servicesOf (!fourK)
      = media.servicesOf (!fourK) := by
  cases fourK <;> rfl

@[simp] theorem MediaRow.setServicesOf_servicesOf (media : MediaRow) (fourK : Bool) :
    media.setServicesOf fourK (media.servicesOf fourK) = media := by
  cases fourK <;> rfl

@[simp] theorem MediaRow.statusOf_setServicesOf (media : MediaRow) (fourK q : Bool)
    (services : ServiceColumns) :
    (media.setServicesOf fourK services).statusOf q = media.statusOf q := by
  cases fourK <;> cases q <;> rfl

@[simp] theorem MediaRow.servicesOf_setStatus (media : MediaRow) (fourK q : Bool)
    (status : Int) : (media.setStatus fourK status).servicesOf q = media.servicesOf q := by
  cases fourK <;> cases q <;> rfl

/-! ## Request rows -/

/-- A `season_request` row. -/
structure SeasonRequestRow where
  id : Int := 0
  seasonNumber : Int := 0
  status : Int := 0
  createdAt : Option String := none
  updatedAt : Option String := none
  requestId : Option Int := none
deriving DecidableEq, Repr

/-- An `episode_request` row. -/
structure EpisodeRequestRow where
  id : Int := 0
  tvdbId : Int := 0
  seasonNumber : Int := 0
  episodeNumber : Int := 0
  title : Option String := none
  airDate : Option String := none
  status : Int := 0
  searchTriggeredAt : Option String := none
  monitoredAt : Option String := none
  unmonitoredAt : Option String := none
  createdAt : Option String := none
  updatedAt : Option String := none
  requestId : Option Int := none
deriving DecidableEq, Repr

/-- A `media_request` row with the seasons and episodes it asks for. -/
structure RequestRow where
  id : Int := 0
  status : Int := 0
  createdAt : Option String := none
  updatedAt : Option String := none
  requestType : String := ""
  episodeSelectionType : Option String := none
  episodeStartTvdbId : Option Int := none
  episodeEndTvdbId : Option Int := none
  watchAheadCount : Option Int := none
  watchAheadInactiveAt : Option String := none
  ongoingEpisodeRequestKey : Option String := none
  tvQuotaUnits : Nat := 0
  is4k : Bool := false
  serverId : Option Int := none
  profileId : Option Int := none
  rootFolder : Option String := none
  languageProfileId : Option Int := none
  metadataLanguageId : Option Int := none
  tags : Option String := none
  isAutoRequest : Bool := false
  ignoreQuota : Bool := false
  mediaId : Option Int := none
  requestedById : Option Int := none
  modifiedById : Option Int := none
  seasons : List SeasonRequestRow := []
  episodes : List EpisodeRequestRow := []
deriving DecidableEq, Repr

/-- A request neither declined nor completed. -/
def RequestRow.active (request : RequestRow) : Bool :=
  request.status != RequestStatus.completed && request.status != RequestStatus.declined

/-- The season numbers a request asks for, whole or by episode. -/
def RequestRow.seasonNumbers (request : RequestRow) : List Int :=
  request.seasons.map (·.seasonNumber) ++ request.episodes.map (·.seasonNumber)

/-! ## The tables -/

/-- The two tables the title and request handlers read and write. Rows stand
in the order of their ids. -/
structure Db where
  media : List MediaRow := []
  requests : List RequestRow := []
deriving DecidableEq, Repr

/-- `media_by_ids` for one id: the title's row with its seasons. -/
def Db.mediaById (db : Db) (id : Int) : Option MediaRow :=
  db.media.find? (·.id == id)

/-- `media_by_tmdb`: the title's row with its seasons. -/
def Db.mediaByTmdb (db : Db) (tmdbId : Int) (mediaType : String) : Option MediaRow :=
  db.media.find? fun m => m.tmdbId == tmdbId && m.mediaType == mediaType

/-- `requests_of_media`: the requests of a title, by id. -/
def Db.requestsOfMedia (db : Db) (id : Int) : List RequestRow :=
  db.requests.filter (·.mediaId == some id)

/-- `request_by_id`: the request with its seasons and episodes. -/
def Db.requestById (db : Db) (id : Int) : Option RequestRow :=
  db.requests.find? (·.id == id)

/-! ## Statements

The statements handlers run, each an update of the rows with one id. A
season or an episode row is found by its own id, in whichever title or
request it stands. -/

/-- `UPDATE "media" SET .. WHERE "id" = ?`. -/
def Db.updateMedia (db : Db) (id : Int) (f : MediaRow → MediaRow) : Db :=
  { db with media := db.media.map fun m => if m.id = id then f m else m }

/-- `UPDATE "season" SET .. WHERE "id" = ?`. -/
def Db.updateSeason (db : Db) (id : Int) (f : SeasonRow → SeasonRow) : Db :=
  { db with
    media := db.media.map fun m =>
      { m with seasons := m.seasons.map fun s => if s.id = id then f s else s } }

/-- `UPDATE "media_request" SET .. WHERE "id" = ?`. -/
def Db.updateRequest (db : Db) (id : Int) (f : RequestRow → RequestRow) : Db :=
  { db with requests := db.requests.map fun r => if r.id = id then f r else r }

/-- `UPDATE "season_request" SET .. WHERE "id" = ?`. -/
def Db.updateSeasonRequest (db : Db) (id : Int)
    (f : SeasonRequestRow → SeasonRequestRow) : Db :=
  { db with
    requests := db.requests.map fun r =>
      { r with seasons := r.seasons.map fun s => if s.id = id then f s else s } }

/-- `UPDATE "episode_request" SET .. WHERE "id" = ?`. -/
def Db.updateEpisodeRequest (db : Db) (id : Int)
    (f : EpisodeRequestRow → EpisodeRequestRow) : Db :=
  { db with
    requests := db.requests.map fun r =>
      { r with episodes := r.episodes.map fun x => if x.id = id then f x else x } }

/-- `DELETE FROM "media" WHERE "id" = ?`: its requests go with it
(`ON DELETE CASCADE`). -/
def Db.deleteMedia (db : Db) (id : Int) : Db :=
  { media := db.media.filter (·.id ≠ id)
    requests := db.requests.filter (·.mediaId ≠ some id) }

/-- `DELETE FROM "media_request" WHERE "id" = ?`. -/
def Db.deleteRequest (db : Db) (id : Int) : Db :=
  { db with requests := db.requests.filter (·.id ≠ id) }

/-- The primary keys of the requests, of their seasons and of their episodes: no two
share an id. -/
structure Db.RequestKeys (db : Db) : Prop where
  requests : (db.requests.map (·.id)).Nodup
  seasonRequests : ((db.requests.flatMap (·.seasons)).map (·.id)).Nodup
  episodeRequests : ((db.requests.flatMap (·.episodes)).map (·.id)).Nodup

instance (db : Db) : Decidable db.RequestKeys :=
  decidable_of_iff ((db.requests.map (·.id)).Nodup
      ∧ ((db.requests.flatMap (·.seasons)).map (·.id)).Nodup
      ∧ ((db.requests.flatMap (·.episodes)).map (·.id)).Nodup)
    ⟨fun h => ⟨h.1, h.2.1, h.2.2⟩, fun h => ⟨h.requests, h.seasonRequests, h.episodeRequests⟩⟩

section Frames

variable (db : Db) (id : Int)

@[simp] theorem Db.updateMedia_requests (f : MediaRow → MediaRow) :
    (db.updateMedia id f).requests = db.requests := rfl

@[simp] theorem Db.updateSeason_requests (f : SeasonRow → SeasonRow) :
    (db.updateSeason id f).requests = db.requests := rfl

@[simp] theorem Db.updateRequest_media (f : RequestRow → RequestRow) :
    (db.updateRequest id f).media = db.media := rfl

@[simp] theorem Db.updateSeasonRequest_media (f : SeasonRequestRow → SeasonRequestRow) :
    (db.updateSeasonRequest id f).media = db.media := rfl

@[simp] theorem Db.updateEpisodeRequest_media (f : EpisodeRequestRow → EpisodeRequestRow) :
    (db.updateEpisodeRequest id f).media = db.media := rfl

theorem Db.mediaById_congr {db db' : Db} (h : db'.media = db.media) (id : Int) :
    db'.mediaById id = db.mediaById id := by
  unfold Db.mediaById
  rw [h]

/-- A request is found updated, where the update keeps its id. -/
theorem Db.requestById_updateRequest {f : RequestRow → RequestRow} (hf : ∀ r, (f r).id = r.id) :
    (db.updateRequest id f).requestById id = (db.requestById id).map f := by
  unfold Db.requestById Db.updateRequest
  rw [List.find?_map]
  have hsame : ((fun r : RequestRow => r.id == id) ∘ fun r => if r.id = id then f r else r)
      = fun r => r.id == id := by
    funext r
    simp only [Function.comp_apply]
    split
    · rw [hf]
    · rfl
  rw [hsame]
  cases hfound : db.requests.find? (·.id == id) with
  | none => rfl
  | some r =>
    have hid : r.id = id := by simpa using List.find?_some hfound
    rw [Option.map_some, Option.map_some, if_pos hid]

/-- The other requests are as they were. -/
theorem Db.mem_updateRequest_of_ne {f : RequestRow → RequestRow} (hf : ∀ r, (f r).id = r.id)
    {r : RequestRow} (hne : r.id ≠ id) :
    r ∈ (db.updateRequest id f).requests ↔ r ∈ db.requests := by
  unfold Db.updateRequest
  rw [List.mem_map]
  constructor
  · rintro ⟨r₀, hr₀, rfl⟩
    by_cases hid : r₀.id = id
    · rw [if_pos hid, hf] at hne
      exact absurd hid hne
    · rwa [if_neg hid]
  · intro hr
    exact ⟨r, hr, if_neg hne⟩

end Frames

end Foreseerr

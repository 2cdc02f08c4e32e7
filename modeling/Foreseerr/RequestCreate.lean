import Foreseerr.EpisodeSelect
import Foreseerr.Lifecycle
import Foreseerr.Run
import Mathlib.Algebra.GroupWithZero.Nat

/-!
# Creating a request

`POST /request` of `routes/requestcreate.rs`: who the request is for and
whether their quota lets them, what it asks for that is not covered yet, and
the rows it is written as. A request for episodes that go on replaces the
ongoing one of the series. One request is created or edited at a time
(`REQUEST_LOCK`), so a creation is a function of the tables as it finds them.

What TMDB, TVDB and Jellyfin answer, the routing read from the settings and
the ids the database gives are inputs of a creation (`CallEnv`).
-/

namespace Foreseerr

/-! ## Users and permissions -/

namespace Permission

@[simp] abbrev admin : Nat := 2
@[simp] abbrev manageUsers : Nat := 8
@[simp] abbrev manageRequests : Nat := 16
@[simp] abbrev request : Nat := 32
@[simp] abbrev autoApprove : Nat := 128
@[simp] abbrev autoApproveMovie : Nat := 256
@[simp] abbrev autoApproveTv : Nat := 512
@[simp] abbrev request4k : Nat := 1024
@[simp] abbrev request4kMovie : Nat := 2048
@[simp] abbrev request4kTv : Nat := 4096
@[simp] abbrev requestAdvanced : Nat := 8192
@[simp] abbrev autoApprove4k : Nat := 32768
@[simp] abbrev autoApprove4kMovie : Nat := 65536
@[simp] abbrev autoApprove4kTv : Nat := 131072
@[simp] abbrev requestMovie : Nat := 262144
@[simp] abbrev requestTv : Nat := 524288

end Permission

/-- `has_any`, and `has_permission` of the signed-in user. -/
def hasAny (permissions bits : Nat) : Bool :=
  bits == 0 || permissions &&& Permission.admin != 0 || permissions &&& bits != 0

/-- `has_all`. -/
def hasAll (permissions bits : Nat) : Bool :=
  permissions &&& Permission.admin != 0 || permissions &&& bits == bits

/-- A user, with the quotas set for them. -/
structure UserRecord where
  id : Int
  permissions : Nat := 0
  movieQuotaLimit : Option Int := none
  movieQuotaDays : Option Int := none
  tvQuotaLimit : Option Int := none
  tvQuotaDays : Option Int := none
deriving DecidableEq, Repr

/-- The settings and users a creation or an edit reads. -/
structure Settings where
  users : List UserRecord
  /-- `defaultQuotas`. -/
  movieQuotaLimit : Option Int := none
  movieQuotaDays : Option Int := none
  tvQuotaLimit : Option Int := none
  tvQuotaDays : Option Int := none
  enableSpecialEpisodes : Bool := false
  partialRequestsEnabled : Bool := true
  /-- Whether TVDB is the metadata provider for series, and for anime. -/
  tvdbForTv : Bool := true
  tvdbForAnime : Bool := true
  /-- The kinds `IDX_media_request_active_ongoing_episode` is about. -/
  ongoingKinds : List String := ["after", "watchAhead"]
deriving DecidableEq, Repr

/-- `user_record`. -/
def Settings.userRecord (settings : Settings) (id : Int) : Option UserRecord :=
  settings.users.find? (·.id == id)

/-! ## Refusals -/

/-- A request that is not granted: the status and message it is answered
with, a case that is passed on, or a write the database refuses. -/
inductive Refusal
  | answer (status : Nat) (message : String)
  | forward (why : String)
  | database
deriving DecidableEq, Repr

/-- A check that refuses. -/
def refuseIf (bad : Bool) (refusal : Refusal) : Except Refusal Unit :=
  if bad then .error refusal else .ok ()

theorem refuseIf_eq_ok {bad : Bool} {refusal : Refusal} {u : Unit}
    (h : refuseIf bad refusal = .ok u) : bad = false := by
  cases bad with
  | false => rfl
  | true => cases h

/-! ## Quotas -/

/-- What the clock says about a quota window: where `days` before now is, and
which creation dates the two sums and an edit take to lie after it. -/
structure QuotaClock where
  startOf : Int → Int
  movieCounted : Int → Option String → Bool
  tvCounted : Int → Option String → Bool
  heldCounted : Int → Option String → Bool

/-- `Quota`: one media type's quota. -/
structure Quota where
  limit : Int
  remaining : Option Int
  restricted : Bool
  windowStart : Option Int
deriving DecidableEq, Repr

/-- `held_units`: the units of a request being edited that `used` already
counts. -/
def Quota.heldUnits (quota : Quota) (clock : QuotaClock) (ownerChanging : Bool)
    (createdAt : Option String) (units : Nat) : Int :=
  let inWindow := quota.windowStart.all fun start => clock.heldCounted start createdAt
  if !ownerChanging && inWindow then units else 0

/-- `edit_exceeds`. -/
def Quota.editExceeds (quota : Quota) (ignoreQuota : Bool) (units held : Int) : Bool :=
  !ignoreQuota && quota.limit ≠ 0 && units > quota.remaining.getD 0 + held

/-- The window a number of days stands for. -/
def windowOf (clock : QuotaClock) (days : Option Int) : Option Int :=
  (days.filter (· ≠ 0)).map clock.startOf

/-- Whether a request counts towards its user's quota of a type. -/
def RequestRow.charges (r : RequestRow) (requestType : String) (user : Int) : Bool :=
  r.requestType == requestType && r.requestedById == some user
    && r.status != RequestStatus.declined && !r.ignoreQuota

/-- `movie_quota_used`: how many requests count. -/
def Db.movieQuotaUsed (db : Db) (clock : QuotaClock) (user : Int) (window : Option Int) : Nat :=
  db.requests.countP fun r =>
    r.charges "movie" user && window.all fun start => clock.movieCounted start r.createdAt

/-- `tv_quota_used`: the units of the requests that count. -/
def Db.tvQuotaUsed (db : Db) (clock : QuotaClock) (user : Int) (window : Option Int) : Nat :=
  (db.requests.map fun r =>
    if r.charges "tv" user && window.all fun start => clock.tvCounted start r.createdAt then
      r.tvQuotaUnits
    else 0).sum

/-- The quota a limit leaves when some of it is used. -/
def quotaOf (clock : QuotaClock) (limit : Int) (used : Nat) (days : Option Int) : Quota :=
  { limit := limit
    remaining := if limit ≠ 0 then some (max (limit - used) 0) else none
    restricted := limit ≠ 0 && limit - used ≤ 0
    windowStart := windowOf clock days }

/-- The limit of a user, none for those who manage users: their own, or the
default. -/
def limitOf (user : UserRecord) (own default : Option Int) : Int :=
  if hasAny user.permissions Permission.manageUsers then 0 else (own.or default).getD 0

/-- `quotas`, the movie quota. -/
def movieQuota (settings : Settings) (clock : QuotaClock) (db : Db) (user : UserRecord) : Quota :=
  let limit := limitOf user user.movieQuotaLimit settings.movieQuotaLimit
  let days := user.movieQuotaDays.or settings.movieQuotaDays
  let used := if limit = 0 then 0 else db.movieQuotaUsed clock user.id (windowOf clock days)
  quotaOf clock limit used days

/-- `quotas`, the series quota. -/
def tvQuota (settings : Settings) (clock : QuotaClock) (db : Db) (user : UserRecord) : Quota :=
  let limit := limitOf user user.tvQuotaLimit settings.tvQuotaLimit
  let days := user.tvQuotaDays.or settings.tvQuotaDays
  let used := if limit = 0 then 0 else db.tvQuotaUsed clock user.id (windowOf clock days)
  quotaOf clock limit used days

/-! ## The body -/

/-- `Seasons`: a list or `all`. -/
inductive Seasons
  | all
  | list (numbers : List Int)
deriving DecidableEq, Repr

/-- A body as sent, its fields of the types the validator lets through. The
episode selection is as `episodeselect::parse` reads it, or its message. -/
structure RawBody where
  mediaType : String
  mediaId : Option Int
  tvdbId : Option Int := none
  seasons : Option Seasons := none
  is4k : Option Bool := none
  userId : Option Int := none
  ignoreQuota : Option Bool := none
  episodeSelection : Option (Except String Selection) := none

/-- `Body`: what `createRequest` reads. -/
structure Body where
  mediaType : String
  mediaId : Int
  tvdbId : Option Int
  seasons : Option Seasons
  /-- `is4k ?? false`. -/
  is4k : Bool
  /-- Whether `is4k` was sent: an undefined one matches no request. -/
  is4kGiven : Bool
  userId : Option Int
  ignoreQuota : Option Bool
  isAutoRequest : Bool := false
  episodeSelection : Option (Except String Selection)

/-- Whether a list of seasons has a negative number. -/
def Seasons.negative : Seasons → Bool
  | .all => false
  | .list numbers => numbers.any (· < 0)

/-- `parse_body`. -/
def parseBody (raw : RawBody) : Except Refusal Body :=
  if raw.seasons.any Seasons.negative then
    .error (.forward "a negative season; the validator answers")
  else if raw.mediaType ≠ "movie" ∧ raw.mediaType ≠ "tv" then
    .error (.forward "mediaType isn't movie or tv")
  else match raw.mediaId with
    | none => .error (.answer 400 "mediaId is required.")
    | some mediaId =>
      .ok
        { mediaType := raw.mediaType
          mediaId := mediaId
          tvdbId := raw.tvdbId
          seasons := raw.seasons
          is4k := raw.is4k.getD false
          is4kGiven := raw.is4k.isSome
          userId := raw.userId.filter (· ≠ 0)
          ignoreQuota := raw.ignoreQuota
          episodeSelection := raw.episodeSelection }

/-! ## What a creation meets -/

/-- A season as TMDB lists it. -/
structure TmdbSeason where
  seasonNumber : Option Int
  episodeCount : Int
deriving DecidableEq, Repr

/-- TMDB's details of a title. -/
structure Details where
  id : Option Int
  tvdbId : Option Int := none
  seasons : Option (List TmdbSeason) := none
  anime : Bool := false
deriving DecidableEq, Repr

/-- `Routing`: what the request will be sent with. -/
structure Routing where
  serverId : Option Int := none
  profileId : Option Int := none
  rootFolder : Option String := none
  languageProfileId : Option Int := none
  metadataLanguageId : Option Int := none
  tags : Option (List Int) := none
deriving DecidableEq, Repr

/-- What a creation or an edit meets outside the tables: TMDB's details of
the title, TVDB's catalog, what the requester played, the routing, the ids the
database gives, and what the hooks meet. -/
structure CallEnv where
  clock : QuotaClock
  details : Except Refusal Details
  catalog : Except Refusal (List CatalogEpisode) := .ok []
  played : List Int := []
  routing : Except Refusal Routing := .ok {}
  newMediaId : Int
  newRequestId : Int
  newChildId : Nat → Int
  hooks : HookEnv

/-! ## The checks -/

/-- `requested_seasons`: what is asked for. `all` is every season TMDB lists
with episodes but the specials; specials go unless they are enabled. -/
def requestedSeasons (settings : Settings) (body : Body) (details : Details) :
    Except Refusal (List Int) := do
  let list ← match body.seasons with
    | some (.list numbers) => pure numbers
    | some .all =>
      match details.seasons with
      | none => throw (.forward "TMDB lists no seasons")
      | some seasons =>
        let listed := seasons.filter fun s => s.seasonNumber ≠ some 0 && s.episodeCount > 0
        if listed.any (·.seasonNumber.isNone) then
          throw (.forward "a season number that isn't whole")
        else pure (listed.filterMap (·.seasonNumber))
    | none => throw (.forward "a series request needs seasons")
  pure (if settings.enableSpecialEpisodes then list else list.filter (· > 0))

/-- The seasons the library covers in a quality: those available, and those
on their way unless only an episode selection waits for them. -/
def libraryCovered (media : Option MediaRow) (requests : List RequestRow) (fourK : Bool) :
    List Int :=
  let active := requests.filter fun r => r.is4k == fourK && r.active
  let episodeSeasons := active.flatMap fun r => r.episodes.map (·.seasonNumber)
  match media with
  | none => []
  | some media =>
    (media.seasons.filter fun s =>
      s.statusOf fourK == MediaStatus.available
        || s.statusOf fourK == MediaStatus.processing
          && !episodeSeasons.contains s.seasonNumber).map (·.seasonNumber)

/-- The seasons the active requests of a quality hold. -/
def seasonsHeld (requests : List RequestRow) (fourK : Bool) : List Int :=
  (requests.filter fun r => r.is4k == fourK && r.active).flatMap
    fun r => r.seasons.map (·.seasonNumber)

/-- `plan_seasons`: the seasons asked for minus those an active request or the
library already covers. -/
def planSeasons (requested : List Int) (media : Option MediaRow) (requests : List RequestRow)
    (fourK : Bool) : List Int :=
  requested.filter fun n =>
    n ∉ seasonsHeld requests fourK ++ libraryCovered media requests fourK

/-- `MediaPlan`: the title as the request will reference it. -/
structure MediaPlan where
  existing : Option MediaRow
  status : Int
  status4k : Int
  tmdbId : Int
  tvdbId : Option Int
deriving DecidableEq, Repr

/-- `media_plan`: a title turns pending in the request's quality unless it has
a status there. -/
def mediaPlan (existing : Option MediaRow) (body : Body) (details : Details) :
    Except Refusal MediaPlan :=
  let tmdbId := details.id.getD body.mediaId
  let tvdbId := body.tvdbId.or details.tvdbId
  match existing with
  | none =>
    let pending (fourK : Bool) :=
      if fourK = body.is4k then MediaStatus.pending else MediaStatus.unknown
    .ok
      { existing := none
        status := pending false
        status4k := pending true
        tmdbId := tmdbId
        tvdbId := tvdbId }
  | some media =>
    if media.status = MediaStatus.blocklisted then
      .error (.answer 403 "This media is blocklisted.")
    else
      let bump (status : Int) (fourK : Bool) :=
        if fourK = body.is4k ∧ (status = MediaStatus.unknown ∨ status = MediaStatus.deleted) then
          MediaStatus.pending
        else status
      .ok
        { existing := some media
          status := bump media.status false
          status4k := bump media.status4k true
          tmdbId := tmdbId
          tvdbId := tvdbId }

/-- Whom a request is for: the signed-in user, or the one named by those who
manage users and requests. -/
def chosenUser (settings : Settings) (user : UserRecord) (body : Body) :
    Except Refusal UserRecord :=
  match body.userId with
  | none => .ok user
  | some uid =>
    if ¬ hasAll user.permissions (Permission.manageUsers ||| Permission.manageRequests) then
      .error (.answer 403 "You do not have permission to modify the request user.")
    else match settings.userRecord uid with
      | some record => .ok record
      | none => .error (.answer 500 "User not found.")

/-- The permissions of which a request needs one. -/
def neededPermission (movie fourK : Bool) : Nat :=
  match movie, fourK with
  | true, true => Permission.request4k ||| Permission.request4kMovie
  | true, false => Permission.request ||| Permission.requestMovie
  | false, true => Permission.request4k ||| Permission.request4kTv
  | false, false => Permission.request ||| Permission.requestTv

/-- `request_user`: whom the request is for, and whether they may request. -/
def requestUser (settings : Settings) (user : UserRecord) (body : Body) :
    Except Refusal UserRecord := do
  let requester ← chosenUser settings user body
  let four := if body.is4k then "4K " else ""
  let what := if body.mediaType = "movie" then "movie" else "series"
  refuseIf (!hasAny requester.permissions (neededPermission (body.mediaType = "movie") body.is4k))
    (.answer 403 ("You do not have permission to make " ++ four ++ what ++ " requests."))
  pure requester

/-- `quota_checks`: whether the request ignores the quota, which only those
who manage requests may ask for. -/
def quotaChecks (user : UserRecord) (body : Body) (quota : Quota) : Except Refusal Bool :=
  let canBypass := hasAny user.permissions Permission.manageRequests
  let ignoreQuota := body.ignoreQuota = some true && canBypass && quota.limit > 0
  if ignoreQuota then .ok true
  else if body.ignoreQuota = some true ∧ ¬ canBypass then
    .error (.answer 403 "You do not have permission to bypass user quota limits.")
  else if quota.restricted then
    .error (.answer 403
      (if body.mediaType = "movie" then "Movie Quota exceeded." else "Series Quota exceeded."))
  else .ok false

/-- `episodeselect::available`. -/
def selectionsAvailable (settings : Settings) (details : Details) : Bool :=
  settings.partialRequestsEnabled
    && if details.anime then settings.tvdbForAnime else settings.tvdbForTv

/-- `early_selection`: the checks of an episode selection once TMDB
answered. -/
def earlySelection (settings : Settings) (body : Body) (details : Details) :
    Except Refusal (Option Selection) :=
  match body.episodeSelection with
  | none => .ok none
  | some raw =>
    if body.mediaType ≠ "tv" ∨ body.seasons.isSome then
      .error (.answer 400
        "Episode selections are only valid for TV requests and cannot be combined with seasons.")
    else if ¬ selectionsAvailable settings details then
      .error (.answer 409
        "Episode requests require partial requests and the TVDB metadata provider.")
    else match raw with
      | .error message => .error (.answer 400 message)
      | .ok selection => .ok (some selection)

/-- A selection resolved against the catalog. What the requester played only
counts for a watch-ahead. -/
def resolveSelection (settings : Settings) (env : CallEnv) (selection : Selection) :
    Except Refusal Resolved := do
  let catalog ← env.catalog
  match resolve selection catalog settings.enableSpecialEpisodes env.played with
  | .error message => throw (.answer 400 message)
  | .ok resolved => pure resolved

/-- `same_title`: the requests that share the title's TMDB id, type and
quality, with their titles; none where the quality was left out. -/
def sameTitle (db : Db) (tmdbId : Int) (body : Body) : List (RequestRow × MediaRow) :=
  if ¬ body.is4kGiven then []
  else db.requests.filterMap fun r =>
    match r.mediaId.bind db.mediaById with
    | some m =>
      if r.is4k = body.is4k ∧ m.tmdbId = tmdbId ∧ m.mediaType = body.mediaType then some (r, m)
      else none
    | none => none

/-- `duplicate`: an open movie request, or this user's own auto-request for a
title that isn't deleted. -/
def duplicate (rows : List (RequestRow × MediaRow)) (body : Body) (user : Int) : Option String :=
  if body.mediaType = "movie" ∧ (rows.head?.any fun p => p.1.active) then
    some "Request for this media already exists."
  else if rows.any fun p => p.1.requestedById == some user && p.1.isAutoRequest
      && p.2.statusOf body.is4k != MediaStatus.deleted then
    some "Auto-request for this media and user already exists."
  else none

/-- The refusal of a duplicate. -/
def checkDuplicate (db : Db) (plan : MediaPlan) (body : Body) (user : Int) :
    Except Refusal Unit :=
  match duplicate (sameTitle db plan.tmdbId body) body user with
  | some message => .error (.answer 409 message)
  | none => .ok ()

/-- `auto_approved`. -/
def autoApproved (actor : UserRecord) (movie fourK : Bool) : Bool :=
  let general := if fourK then Permission.autoApprove4k else Permission.autoApprove
  let specific :=
    match movie, fourK with
    | true, true => Permission.autoApprove4kMovie
    | true, false => Permission.autoApproveMovie
    | false, true => Permission.autoApprove4kTv
    | false, false => Permission.autoApproveTv
  hasAny actor.permissions (general ||| specific ||| Permission.manageRequests)

/-! ## What is asked for -/

/-- `EpisodePlan`: what an episode request is written with. -/
structure EpisodePlan where
  resolved : Resolved
  episodes : List CatalogEpisode
  units : Nat
  key : Option String
  /-- The active ongoing request this one replaces. -/
  replace : Option RequestRow
deriving DecidableEq, Repr

/-- The ongoing request a selection that goes on replaces: the first active
one of the quality, which only its user or those who manage requests may
replace. -/
def replacedRequest (user : UserRecord) (requester : Int) (active : List RequestRow)
    (resolved : Resolved) : Except Refusal (Option RequestRow) :=
  if ¬ resolved.rolling then .ok none
  else match active.find? fun r =>
      r.episodeSelectionType == some "after" || r.episodeSelectionType == some "watchAhead" with
    | none => .ok none
    | some existing =>
      if existing.requestedById ≠ some requester
          ∧ ¬ hasAny user.permissions Permission.manageRequests then
        .error (.answer 409 "An ongoing episode request already exists for this series.")
      else .ok (some existing)

/-- `episode_plan`: the episodes nothing else covers, the units they are
charged, and the request they replace, whose own units come on top of what
remains. -/
def episodePlan (user : UserRecord) (requester : Int) (body : Body) (plan : MediaPlan)
    (mediaRequests : List RequestRow) (quota : Quota) (ignoreQuota : Bool) (resolved : Resolved) :
    Except Refusal EpisodePlan := do
  let active := activeRequests mediaRequests (if body.is4kGiven then some body.is4k else none)
  let replace ← replacedRequest user requester active resolved
  let coverage := active.filter fun r => some r.id ≠ replace.map (·.id)
  let episodes := uncovered resolved coverage plan.existing body.is4k
  refuseIf (episodes.isEmpty && resolved.kind ≠ "watchAhead")
    (.answer 202 "No episodes available to request")
  let units := quotaUnits episodes
  let remaining := quota.remaining.getD 0 + (replace.map (·.tvQuotaUnits)).getD 0
  refuseIf (!ignoreQuota && quota.limit ≠ 0 && units > remaining)
    (.answer 403 "Series Quota exceeded.")
  pure
    { resolved := resolved
      episodes := episodes
      units := units
      key := if resolved.rolling then some (lockKey plan.tmdbId body.is4k) else none
      replace := replace }

/-- The requests a season request is compared with: `request.is4k ===
undefined` holds for no loaded request. -/
def compared (body : Body) (mediaRequests : List RequestRow) : List RequestRow :=
  if body.is4kGiven then mediaRequests else []

/-- The seasons of a season request. -/
def seasonPlan (settings : Settings) (body : Body) (details : Details) (plan : MediaPlan)
    (mediaRequests : List RequestRow) (quota : Quota) (ignoreQuota : Bool) :
    Except Refusal (List Int) := do
  let requested ← requestedSeasons settings body details
  let seasons := planSeasons requested plan.existing (compared body mediaRequests) body.is4k
  refuseIf seasons.isEmpty (.answer 202 "No seasons available to request")
  refuseIf (!ignoreQuota && quota.limit ≠ 0 && seasons.length > quota.remaining.getD 0)
    (.answer 403 "Series Quota exceeded.")
  pure seasons

/-- `Prepared`: everything a creation decides before it writes. -/
structure Prepared where
  requester : UserRecord
  plan : MediaPlan
  routing : Routing
  approved : Bool
  ignoreQuota : Bool
  seasons : List Int
  /-- The episodes of an episode selection. -/
  episodes : Option EpisodePlan
deriving DecidableEq, Repr

/-- The requests of the title, where it is there. -/
def MediaPlan.requests (plan : MediaPlan) (db : Db) : List RequestRow :=
  plan.existing.elim [] fun m => db.requestsOfMedia m.id

/-- What a request asks for: nothing by number for a movie, the episodes of a
selection, or seasons. -/
def plannedChildren (settings : Settings) (env : CallEnv) (db : Db) (user : UserRecord)
    (body : Body) (details : Details) (requester : UserRecord) (plan : MediaPlan)
    (ignoreQuota : Bool) (resolved : Option Resolved) :
    Except Refusal (List Int × Option EpisodePlan) :=
  let quota := tvQuota settings env.clock db requester
  if body.mediaType = "movie" then .ok ([], none)
  else match resolved with
    | some resolved =>
      (episodePlan user requester.id body plan (plan.requests db) quota ignoreQuota resolved).map
        fun episodes => ([], some episodes)
    | none =>
      (seasonPlan settings body details plan (plan.requests db) quota ignoreQuota).map
        fun seasons => (seasons, none)

/-- `prepare`: every check and decision of a creation. -/
def prepare (settings : Settings) (env : CallEnv) (db : Db) (user : UserRecord) (body : Body) :
    Except Refusal Prepared := do
  let requester ← requestUser settings user body
  let movie : Bool := body.mediaType = "movie"
  let quota :=
    if movie then movieQuota settings env.clock db requester
    else tvQuota settings env.clock db requester
  let ignoreQuota ← quotaChecks user body quota
  let details ← env.details
  let selection ← earlySelection settings body details
  -- A watch-ahead waits for the title's row; the others are resolved first.
  let early ← (selection.filter fun s => !s.watchesAhead).mapM (resolveSelection settings env)
  let plan ← mediaPlan (db.mediaByTmdb body.mediaId body.mediaType) body details
  let late ← (selection.filter Selection.watchesAhead).mapM (resolveSelection settings env)
  checkDuplicate db plan body requester.id
  let routing ← env.routing
  let (seasons, episodes) ←
    plannedChildren settings env db user body details requester plan ignoreQuota (early.or late)
  pure
    { requester := requester
      plan := plan
      routing := routing
      approved := autoApproved user movie body.is4k
      ignoreQuota := ignoreQuota
      seasons := seasons
      episodes := episodes }

/-! ## The writes -/

/-- `tags_text`: the `tags` column. -/
def tagsText (tags : List Int) : String :=
  if tags.isEmpty then "none" else ",".intercalate (tags.map toString)

/-- The status a new request starts with. -/
def Prepared.status (p : Prepared) : Int :=
  if p.approved then RequestStatus.approved else RequestStatus.pending

/-- `insert_media_in`: the title's new row. A TVDB id another row holds is left
out. -/
def insertedMedia (env : CallEnv) (db : Db) (body : Body) (plan : MediaPlan) : MediaRow :=
  { id := env.newMediaId
    mediaType := body.mediaType
    tmdbId := plan.tmdbId
    tvdbId := plan.tvdbId.filter fun id => !db.media.any (·.tvdbId == some id)
    status := plan.status
    status4k := plan.status4k
    createdAt := some env.hooks.now
    updatedAt := some env.hooks.now
    lastSeasonChange := some env.hooks.now
    mediaAddedAt := some env.hooks.now }

/-- The statuses of a title that was there, saved where they change. -/
def saveMediaStatus (env : CallEnv) (db : Db) (m : MediaRow) (plan : MediaPlan) : Db :=
  if m.status ≠ plan.status ∨ m.status4k ≠ plan.status4k then
    db.updateMedia m.id fun m =>
      { m with
        status := plan.status
        status4k := plan.status4k
        updatedAt := some env.hooks.now }
  else db

/-- The title's row as the request needs it: inserted, or its statuses
saved. -/
def writeMedia (env : CallEnv) (db : Db) (body : Body) (plan : MediaPlan) : Db × Int :=
  match plan.existing with
  | none => ({ db with media := db.media ++ [insertedMedia env db body plan] }, env.newMediaId)
  | some m => (saveMediaStatus env db m plan, m.id)

/-- The rows of a new request's seasons. -/
def insertedSeasons (env : CallEnv) (status : Int) (seasons : List Int) :
    List SeasonRequestRow :=
  seasons.mapIdx fun i n =>
    { id := env.newChildId i
      seasonNumber := n
      status := status
      createdAt := some env.hooks.now
      updatedAt := some env.hooks.now
      requestId := some env.newRequestId }

/-- The units a request is charged: one a season, or those of its episodes. -/
def Prepared.units (p : Prepared) : Nat := p.episodes.elim p.seasons.length (·.units)

/-- The row of a new request. -/
def insertedRequest (env : CallEnv) (user : UserRecord) (body : Body) (p : Prepared)
    (mediaId : Int) : RequestRow :=
  { id := env.newRequestId
    status := p.status
    createdAt := some env.hooks.now
    updatedAt := some env.hooks.now
    requestType := body.mediaType
    episodeSelectionType := p.episodes.map (·.resolved.kind)
    episodeStartTvdbId := p.episodes.map (·.resolved.start)
    episodeEndTvdbId := p.episodes.bind (·.resolved.stop)
    watchAheadCount := p.episodes.bind (·.resolved.watchAhead)
    ongoingEpisodeRequestKey := p.episodes.bind (·.key)
    tvQuotaUnits := p.units
    is4k := body.is4k
    serverId := p.routing.serverId
    profileId := p.routing.profileId
    rootFolder := p.routing.rootFolder
    languageProfileId := p.routing.languageProfileId
    metadataLanguageId := p.routing.metadataLanguageId
    tags := p.routing.tags.map tagsText
    isAutoRequest := body.isAutoRequest
    ignoreQuota := p.ignoreQuota
    mediaId := some mediaId
    requestedById := some p.requester.id
    modifiedById := if p.approved then some user.id else none
    seasons := insertedSeasons env p.status p.seasons
    episodes := p.episodes.elim [] fun plan =>
      insertedEpisodes env.hooks.now env.newRequestId p.status env.newChildId plan.episodes }

/-- The hooks of a save, on the request as stored. -/
def Db.runHooks (db : Db) (env : HookEnv) (id : Int) : Db :=
  match db.requestById id with
  | none => db
  | some e => (afterUpdate env ⟨db, e⟩).db

/-- `write`: the request inserted with its title and children. -/
def writeRequestRows (env : CallEnv) (db : Db) (user : UserRecord) (body : Body) (p : Prepared) :
    Db :=
  let (db, mediaId) := writeMedia env db body p.plan
  { db with requests := db.requests ++ [insertedRequest env user body p mediaId] }

/-- The columns a replacement writes. Routing the new selection leaves out
stays, but the metadata language. -/
def replacedRow (user : UserRecord) (p : Prepared) (plan : EpisodePlan) (old : RequestRow)
    (r : RequestRow) : RequestRow :=
  { r with
    serverId := p.routing.serverId.or r.serverId
    profileId := p.routing.profileId.or r.profileId
    rootFolder := p.routing.rootFolder.or r.rootFolder
    languageProfileId := p.routing.languageProfileId.or r.languageProfileId
    metadataLanguageId := p.routing.metadataLanguageId
    tags := (p.routing.tags.map tagsText).or r.tags
    requestedById := some p.requester.id
    status := if old.status = RequestStatus.approved then RequestStatus.approved else p.status
    modifiedById := if p.approved then some user.id else r.modifiedById
    episodeSelectionType := some plan.resolved.kind
    episodeStartTvdbId := some plan.resolved.start
    episodeEndTvdbId := plan.resolved.stop.or r.episodeEndTvdbId
    watchAheadCount := plan.resolved.watchAhead.or r.watchAheadCount
    tvQuotaUnits := quotaUnits plan.episodes
    ongoingEpisodeRequestKey := plan.key.or r.ongoingEpisodeRequestKey }

/-- The children a replacement leaves: the new episodes, and no season. -/
def replacedChildren (env : CallEnv) (plan : EpisodePlan) (old : RequestRow) (status : Int)
    (r : RequestRow) : RequestRow :=
  { r with
    seasons := r.seasons.filter fun s => s.id ∉ old.seasons.map (·.id)
    episodes := insertedEpisodes env.hooks.now old.id status env.newChildId plan.episodes }

/-- Whether a replacement changes the row. A modifier that was never set counts
as a change unless the request is approved. -/
def replacementChanges (user : UserRecord) (p : Prepared) (plan : EpisodePlan)
    (old : RequestRow) : Bool :=
  replacedRow user p plan old old ≠ old || p.approved = false && old.modifiedById.isNone

/-- The row a replacement leaves. -/
def replacement (env : CallEnv) (user : UserRecord) (p : Prepared) (plan : EpisodePlan)
    (old r : RequestRow) : RequestRow :=
  replacedChildren env plan old (replacedRow user p plan old old).status
    (if replacementChanges user p plan old then
      { replacedRow user p plan old r with updatedAt := some env.hooks.now }
    else r)

/-- `replace_request`: the active ongoing request takes the new selection, and
the hooks run when its row changed. -/
def replaceRequest (env : CallEnv) (db : Db) (user : UserRecord) (p : Prepared)
    (plan : EpisodePlan) (old : RequestRow) : Db :=
  let db := p.plan.existing.elim db fun m => saveMediaStatus env db m p.plan
  let db := db.updateRequest old.id (replacement env user p plan old)
  if replacementChanges user p plan old then db.runHooks env.hooks old.id else db

/-- `create_request`: the request created, or the ongoing one replaced. A
second ongoing request and a catalog that repeats an id break an index. -/
def createRequest (settings : Settings) (env : CallEnv) (db : Db) (user : UserRecord)
    (body : Body) : Except Refusal Db := do
  let p ← prepare settings env db user body
  match p.episodes with
  | none => pure ((writeRequestRows env db user body p).runHooks env.hooks env.newRequestId)
  | some plan =>
    match plan.replace with
    | some old =>
      refuseIf (!decide (plan.episodes.map (·.tvdbId)).Nodup) .database
      pure (replaceRequest env db user p plan old)
    | none =>
      refuseIf (plan.key.any fun key =>
          ongoingConflict settings.ongoingKinds db.requests key plan.resolved.kind none)
        (.answer 409 "An ongoing episode request already exists for this series.")
      refuseIf (!decide (plan.episodes.map (·.tvdbId)).Nodup) .database
      pure ((writeRequestRows env db user body p).runHooks env.hooks env.newRequestId)

/-- A `POST /request`: the settings and users, what it meets, who sends it and
what. -/
structure Call where
  settings : Settings
  env : CallEnv
  user : UserRecord
  raw : RawBody

/-- `create`: a body as sent. -/
def create (settings : Settings) (env : CallEnv) (db : Db) (user : UserRecord) (raw : RawBody) :
    Except Refusal Db := do
  let body ← parseBody raw
  createRequest settings env db user body

/-- The tables after a call; a refused one leaves them as they are. -/
def Call.applied (c : Call) (db : Db) : Db :=
  (create c.settings c.env db c.user c.raw).toOption.getD db

/-! ## Accepted creations -/

section Accepted

variable {settings : Settings} {env : CallEnv} {db db' : Db} {user : UserRecord} {raw : RawBody}
  {body : Body} {details : Details} {plan : MediaPlan} {mediaRequests : List RequestRow}
  {quota : Quota} {ignoreQuota : Bool} {resolved : Resolved} {p : Prepared}

/-- What a creation that passed its checks decided: whom it is for and whether
it ignores their quota, the title, and what it asks for. -/
structure Decided (settings : Settings) (env : CallEnv) (db : Db) (user : UserRecord)
    (body : Body) (details : Details) (resolved : Option Resolved) (p : Prepared) : Prop where
  answered : env.details = .ok details
  selection : body.episodeSelection = none → resolved = none
  requester : requestUser settings user body = .ok p.requester
  ignoreQuota : body.mediaType = "tv" →
    quotaChecks user body (tvQuota settings env.clock db p.requester) = .ok p.ignoreQuota
  plan : mediaPlan (db.mediaByTmdb body.mediaId body.mediaType) body details = .ok p.plan
  children : plannedChildren settings env db user body details p.requester p.plan p.ignoreQuota
    resolved = .ok (p.seasons, p.episodes)

theorem prepare_ok (h : prepare settings env db user body = .ok p) :
    ∃ details resolved, Decided settings env db user body details resolved p := by
  unfold prepare at h
  obtain ⟨requester, hrequester, h⟩ := except_bind_eq_ok h
  obtain ⟨ignoreQuota, hignore, h⟩ := except_bind_eq_ok h
  obtain ⟨details, hdetails, h⟩ := except_bind_eq_ok h
  obtain ⟨selection, hselection, h⟩ := except_bind_eq_ok h
  obtain ⟨early, hearly, h⟩ := except_bind_eq_ok h
  obtain ⟨plan, hplan, h⟩ := except_bind_eq_ok h
  obtain ⟨late, hlate, h⟩ := except_bind_eq_ok h
  obtain ⟨_, _, h⟩ := except_bind_eq_ok h
  obtain ⟨routing, _, h⟩ := except_bind_eq_ok h
  obtain ⟨⟨seasons, episodes⟩, hchildren, h⟩ := except_bind_eq_ok h
  cases h
  refine ⟨details, early.or late, hdetails, fun hnone => ?_, hrequester, fun htv => ?_, hplan,
    hchildren⟩
  · have hselected : selection = none := by
      unfold earlySelection at hselection
      rw [hnone] at hselection
      cases hselection
      rfl
    subst hselected
    cases hearly
    cases hlate
    rfl
  · simpa [htv] using hignore

/-- A body that is let through says what was sent. -/
theorem parseBody_ok (h : parseBody raw = .ok body) :
    raw.mediaId = some body.mediaId ∧ body.mediaType = raw.mediaType
      ∧ body.seasons = raw.seasons ∧ body.is4k = raw.is4k.getD false
      ∧ body.is4kGiven = raw.is4k.isSome ∧ body.ignoreQuota = raw.ignoreQuota
      ∧ body.episodeSelection = raw.episodeSelection := by
  unfold parseBody at h
  split_ifs at h
  split at h
  · cases h
  · rename_i mediaId hmedia
    cases h
    exact ⟨hmedia, rfl, rfl, rfl, rfl, rfl, rfl⟩

/-- **An accepted creation** passed its checks; it inserted a request or
replaced one, and ran the hooks. -/
theorem create_ok (h : create settings env db user raw = .ok db') :
    ∃ body p, parseBody raw = .ok body ∧ prepare settings env db user body = .ok p
      ∧ ((db' = (writeRequestRows env db user body p).runHooks env.hooks env.newRequestId
            ∧ ∀ plan, p.episodes = some plan → plan.replace = none)
          ∨ ∃ plan old, p.episodes = some plan ∧ plan.replace = some old
            ∧ db' = replaceRequest env db user p plan old) := by
  unfold create at h
  obtain ⟨body, hbody, h⟩ := except_bind_eq_ok h
  unfold createRequest at h
  obtain ⟨p, hp, h⟩ := except_bind_eq_ok h
  refine ⟨body, p, hbody, hp, ?_⟩
  split at h
  · rename_i hnone
    cases h
    refine Or.inl ⟨rfl, fun plan hplan => ?_⟩
    rw [hnone] at hplan
    cases hplan
  · rename_i plan hplan
    split at h
    · rename_i old hold
      obtain ⟨_, _, h⟩ := except_bind_eq_ok h
      cases h
      exact Or.inr ⟨plan, old, hplan, hold, rfl⟩
    · rename_i hnone
      obtain ⟨_, _, h⟩ := except_bind_eq_ok h
      obtain ⟨_, _, h⟩ := except_bind_eq_ok h
      cases h
      refine Or.inl ⟨rfl, fun plan' hplan' => ?_⟩
      rw [hplan] at hplan'
      cases hplan'
      exact hnone

/-- Only a request that asks to ignore the quota does. -/
theorem quotaChecks_asked (h : quotaChecks user body quota = .ok true) :
    body.ignoreQuota = some true := by
  unfold quotaChecks at h
  by_contra hasked
  simp only [hasked, decide_false, Bool.false_and, Bool.false_eq_true, if_false, false_and] at h
  split at h
  · cases h
  · cases h

/-- A limit that is charged lets no more through than remains. -/
theorem fits_of_not_exceeds {limit units remaining : Int}
    (h : (!ignoreQuota && limit ≠ 0 && units > remaining) = false) (hcharged : ignoreQuota = false)
    (hlimit : limit ≠ 0) : units ≤ remaining := by
  by_contra hgt
  have hexceeds : (!ignoreQuota && limit ≠ 0 && units > remaining) = true := by
    simp [hcharged, hlimit, not_le.1 hgt]
  rw [h] at hexceeds
  cases hexceeds

/-- A season request asks for what is not covered, and fits its quota. -/
theorem seasonPlan_ok {seasons : List Int}
    (h : seasonPlan settings body details plan mediaRequests quota ignoreQuota = .ok seasons) :
    ∃ requested, requestedSeasons settings body details = .ok requested
      ∧ seasons = planSeasons requested plan.existing (compared body mediaRequests) body.is4k
      ∧ (ignoreQuota = false → quota.limit ≠ 0 →
          (seasons.length : Int) ≤ quota.remaining.getD 0) := by
  unfold seasonPlan at h
  obtain ⟨requested, hrequested, h⟩ := except_bind_eq_ok h
  obtain ⟨_, _, h⟩ := except_bind_eq_ok h
  obtain ⟨_, hfits, h⟩ := except_bind_eq_ok h
  cases h
  exact ⟨requested, hrequested, rfl, fits_of_not_exceeds (refuseIf_eq_ok hfits)⟩

/-- The request a selection replaces is an active one of its title and
quality. -/
theorem replacedRequest_ok {requester : Int} {active : List RequestRow} {old : RequestRow}
    (h : replacedRequest user requester active resolved = .ok (some old)) : old ∈ active := by
  unfold replacedRequest at h
  split_ifs at h
  · split at h
    · cases h
    · rename_i existing hfind
      split_ifs at h
      cases h
      exact List.mem_of_find?_eq_some hfind
  · cases h

/-- An episode request is charged for its seasons, and fits what remains of
its quota with what the request it replaces holds. -/
theorem episodePlan_ok {requester : Int} {planned : EpisodePlan}
    (h : episodePlan user requester body plan mediaRequests quota ignoreQuota resolved
      = .ok planned) :
    planned.units = quotaUnits planned.episodes
      ∧ replacedRequest user requester
          (activeRequests mediaRequests (if body.is4kGiven then some body.is4k else none)) resolved
        = .ok planned.replace
      ∧ (ignoreQuota = false → quota.limit ≠ 0 → (planned.units : Int)
          ≤ quota.remaining.getD 0 + (planned.replace.map (·.tvQuotaUnits)).getD 0) := by
  unfold episodePlan at h
  obtain ⟨replace, hreplace, h⟩ := except_bind_eq_ok h
  obtain ⟨_, _, h⟩ := except_bind_eq_ok h
  obtain ⟨_, hfits, h⟩ := except_bind_eq_ok h
  cases h
  exact ⟨rfl, hreplace, fits_of_not_exceeds (refuseIf_eq_ok hfits)⟩

/-- The title of a plan is the one found. -/
theorem mediaPlan_existing {existing : Option MediaRow}
    (h : mediaPlan existing body details = .ok plan) : plan.existing = existing := by
  unfold mediaPlan at h
  split at h
  · cases h
    rfl
  · split at h
    · cases h
    · cases h
      rfl

/-- What a season request asks for is its season plan. -/
theorem plannedChildren_seasons {requester : UserRecord} {seasons : List Int}
    {episodes : Option EpisodePlan} (htv : body.mediaType = "tv")
    (h : plannedChildren settings env db user body details requester plan ignoreQuota none
      = .ok (seasons, episodes)) :
    episodes = none ∧ seasonPlan settings body details plan (plan.requests db)
      (tvQuota settings env.clock db requester) ignoreQuota = .ok seasons := by
  unfold plannedChildren at h
  rw [htv, if_neg (by decide)] at h
  obtain ⟨planned, hplanned, hpair⟩ := except_map_eq_ok h
  cases hpair
  exact ⟨rfl, hplanned⟩

/-- What an episode request asks for is its episode plan. -/
theorem plannedChildren_episodes {requester : UserRecord} {seasons : List Int}
    {episodes : Option EpisodePlan} (htv : body.mediaType = "tv")
    (h : plannedChildren settings env db user body details requester plan ignoreQuota
      (some resolved) = .ok (seasons, episodes)) :
    ∃ planned, episodes = some planned ∧ episodePlan user requester.id body plan
      (plan.requests db) (tvQuota settings env.clock db requester) ignoreQuota resolved
        = .ok planned := by
  unfold plannedChildren at h
  rw [htv, if_neg (by decide)] at h
  obtain ⟨planned, hplanned, hpair⟩ := except_map_eq_ok h
  cases hpair
  exact ⟨planned, rfl, hplanned⟩

/-- The request a creation replaces is an active one of its title. -/
theorem replaced_owner {resolved : Option Resolved} {planned : EpisodePlan} {old : RequestRow}
    (h : Decided settings env db user body details resolved p) (hplan : p.episodes = some planned)
    (hold : planned.replace = some old) :
    old.active = true ∧ ∃ m, p.plan.existing = some m ∧ old ∈ db.requestsOfMedia m.id := by
  have hchildren := h.children
  rw [hplan] at hchildren
  unfold plannedChildren at hchildren
  dsimp only at hchildren
  split at hchildren
  · exact absurd (Prod.mk.inj (Except.ok.inj hchildren)).2 (by simp)
  · split at hchildren
    · obtain ⟨episodes, hepisodes, hpair⟩ := except_map_eq_ok hchildren
      obtain rfl := Option.some.inj (Prod.mk.inj hpair).2
      obtain ⟨-, hreplace, -⟩ := episodePlan_ok hepisodes
      rw [hold] at hreplace
      have hactive := replacedRequest_ok hreplace
      unfold activeRequests at hactive
      split at hactive
      · cases hactive
      · obtain ⟨hmem, hsel⟩ := List.mem_filter.mp hactive
        refine ⟨(Bool.and_eq_true_iff.mp hsel).2, ?_⟩
        unfold MediaPlan.requests at hmem
        cases hexisting : p.plan.existing with
        | none =>
          rw [hexisting] at hmem
          cases hmem
        | some m =>
          rw [hexisting] at hmem
          exact ⟨m, rfl, hmem⟩
    · obtain ⟨_, _, hpair⟩ := except_map_eq_ok hchildren
      cases hpair

/-! ### The rows -/

/-- The hooks of a request that is active keep the requests. -/
theorem Db.runHooks_kept (db : Db) (env : HookEnv) {id : Int} (h : db.OpenAt id) :
    (db.runHooks env id).KeptFrom db := by
  unfold Db.runHooks
  split
  · exact .refl db
  · rename_i e he
    have hid : e.id = id := by simpa using List.find?_some he
    exact afterUpdate_kept env ⟨db, e⟩ (hid ▸ h)

/-- Ids the database gives are new. -/
structure CallEnv.Fresh (env : CallEnv) (db : Db) : Prop where
  request : ∀ r ∈ db.requests, r.id ≠ env.newRequestId
  /-- No request, of a title there or gone, refers to the new title. -/
  media : ∀ r ∈ db.requests, r.mediaId ≠ some env.newMediaId

/-- The id of the title a new request refers to. -/
def Prepared.mediaId (p : Prepared) (env : CallEnv) : Int :=
  p.plan.existing.elim env.newMediaId (·.id)

theorem saveMediaStatus_requests (env : CallEnv) (db : Db) (m : MediaRow) (plan : MediaPlan) :
    (saveMediaStatus env db m plan).requests = db.requests := by
  unfold saveMediaStatus
  split <;> rfl

/-- An insertion appends the new request. -/
theorem writeRequestRows_requests (env : CallEnv) (db : Db) (user : UserRecord) (body : Body)
    (p : Prepared) : (writeRequestRows env db user body p).requests
      = db.requests ++ [insertedRequest env user body p (p.mediaId env)] := by
  unfold writeRequestRows writeMedia Prepared.mediaId
  cases p.plan.existing with
  | none => rfl
  | some m => simp [saveMediaStatus_requests]

theorem insertedRequest_active (env : CallEnv) (user : UserRecord) (body : Body) (p : Prepared)
    (mediaId : Int) : (insertedRequest env user body p mediaId).active = true := by
  unfold insertedRequest Prepared.status RequestRow.active
  cases p.approved <;> rfl

@[simp] theorem insertedSeasons_numbers (env : CallEnv) (status : Int) (seasons : List Int) :
    (insertedSeasons env status seasons).map (·.seasonNumber) = seasons := by
  simp [insertedSeasons, List.mapIdx_eq_zipIdx_map, Function.comp_def]

theorem replacement_id (env : CallEnv) (user : UserRecord) (p : Prepared) (plan : EpisodePlan)
    (old r : RequestRow) : (replacement env user p plan old r).id = r.id := by
  unfold replacement replacedChildren
  split <;> rfl

/-- A replacement that changes the row leaves it approved or pending. -/
theorem replacement_active {env : CallEnv} {user : UserRecord} {p : Prepared}
    {plan : EpisodePlan} {old : RequestRow} (h : replacementChanges user p plan old = true)
    (r : RequestRow) : (replacement env user p plan old r).active = true := by
  unfold replacement replacedChildren RequestRow.active
  rw [if_pos h]
  unfold replacedRow Prepared.status
  dsimp only
  split_ifs <;> rfl

/-- **The hooks of a replacement** settle the tables with the request's new row
in them. -/
theorem replaceRequest_settled (env : CallEnv) (db : Db) (user : UserRecord) (p : Prepared)
    (plan : EpisodePlan) (old : RequestRow) : (replaceRequest env db user p plan old).SettledFrom
      (db.updateRequest old.id (replacement env user p plan old)) := by
  have hrequests : (p.plan.existing.elim db fun m => saveMediaStatus env db m p.plan).requests
      = db.requests := by
    cases p.plan.existing with
    | none => rfl
    | some m => exact saveMediaStatus_requests env db m p.plan
  have hsame : ((p.plan.existing.elim db fun m => saveMediaStatus env db m p.plan).updateRequest
      old.id (replacement env user p plan old)).SettledFrom
        (db.updateRequest old.id (replacement env user p plan old)) := by
    unfold Db.SettledFrom Db.updateRequest
    rw [hrequests]
    exact Db.SettledFrom.refl (db.updateRequest old.id (replacement env user p plan old))
  unfold replaceRequest
  dsimp only
  split
  · rename_i hchanges
    refine (Db.runHooks_kept _ env.hooks fun r hr hid => ?_).settled.trans hsame
    obtain ⟨r₀, -, rfl⟩ := List.mem_map.1 hr
    by_cases hold : r₀.id = old.id
    · rw [if_pos hold]
      exact replacement_active hchanges r₀
    · rw [if_neg hold] at hid
      exact absurd hid hold
  · exact hsame

/-- **The hooks of an insertion** keep the tables with the new request in
them. -/
theorem runHooks_inserted_kept (hfresh : env.Fresh db) (p : Prepared) :
    ((writeRequestRows env db user body p).runHooks env.hooks env.newRequestId).KeptFrom
      (writeRequestRows env db user body p) := by
  refine Db.runHooks_kept _ env.hooks fun r hr hid => ?_
  rw [writeRequestRows_requests] at hr
  rcases List.mem_append.1 hr with hr | hr
  · exact absurd hid (hfresh.request r hr)
  · rw [List.mem_singleton.1 hr]
    exact insertedRequest_active env user body p _

end Accepted

end Foreseerr

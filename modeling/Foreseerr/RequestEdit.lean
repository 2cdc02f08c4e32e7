import Foreseerr.RequestCreate

/-!
# Editing a request

`PUT /request/{id}` of `routes/requestedit.rs` and its episode branch in
`routes/requestepisodes.rs`: a pending request may take other seasons, other
episodes or another user. A season edit keeps the rows of the seasons it still
asks for, adds the others and lets go of those it dropped; an episode edit
replaces the children altogether. Neither runs hooks.
-/

namespace Foreseerr

/-- `Body` of an edit. A metadata language left out keeps the stored one. -/
structure EditBody where
  mediaType : String
  seasons : Option (List Int) := none
  serverId : Option Int := none
  profileId : Option Int := none
  rootFolder : Option String := none
  languageProfileId : Option Int := none
  metadataLanguageId : Option (Option Int) := none
  userId : Option Int := none
  tags : Option (List Int) := none
  /-- `episodeSelection`, where one is given. -/
  episodeSelection : Option (Except String Selection) := none

/-- `keep_routing`: the requester may not pick where the request goes. -/
def EditBody.keepRouting (body : EditBody) : EditBody :=
  { body with
    serverId := none
    profileId := none
    rootFolder := none
    languageProfileId := none
    metadataLanguageId := none
    tags := none }

/-- The body as far as its sender may choose: only advanced requesters choose
the routing of a series. -/
def EditBody.allowedTo (body : EditBody) (user : UserRecord) (media : MediaRow) : EditBody :=
  if media.mediaType = "tv"
      ∧ ¬ hasAny user.permissions (Permission.manageRequests ||| Permission.requestAdvanced) then
    body.keepRouting
  else body

/-- `changed_columns`: the columns an edit assigns. -/
def editedColumns (body : EditBody) (tv : Bool) (requestedBy : Int) (r : RequestRow) :
    RequestRow :=
  { r with
    serverId := body.serverId.or r.serverId
    profileId := body.profileId.or r.profileId
    rootFolder := body.rootFolder.or r.rootFolder
    languageProfileId := if tv then body.languageProfileId.or r.languageProfileId
      else r.languageProfileId
    metadataLanguageId := if tv then body.metadataLanguageId.getD r.metadataLanguageId
      else r.metadataLanguageId
    tags := (body.tags.map tagsText).or r.tags
    requestedById := some requestedBy }

/-- Whether a save writes the row: a column differs, or the modifier was never
set, which counts as a change. -/
def columnsChange (assigned stored : RequestRow) : Bool :=
  assigned ≠ stored || stored.modifiedById.isNone

/-- The row of a save, with the time where it is written. -/
def saveColumns (now : String) (assign : RequestRow → RequestRow) (stored r : RequestRow) :
    RequestRow :=
  if columnsChange (assign stored) stored then { assign r with updatedAt := some now } else r

/-! ## Seasons -/

/-- `SeasonEdit`: the seasons of a series edit. -/
structure SeasonEdit where
  keep : List SeasonRequestRow
  add : List Int
  orphaned : List Int
  units : Nat
deriving DecidableEq, Repr

/-- `plan_season_edit`: the seasons asked for that no other request holds,
minus those the library covers unless this request holds them already; none
where nothing is left. -/
def planSeasonEdit (requested elsewhere : List Int) (current : List SeasonRequestRow)
    (covered : List Int) : Option SeasonEdit :=
  let held := current.map (·.seasonNumber)
  let filtered := requested.filter (· ∉ elsewhere)
  let kept := filtered.countP (· ∈ held)
  let add := filtered.filter fun n => n ∉ held && n ∉ covered
  if kept + add.length = 0 then none
  else some
    { keep := current.filter fun s => s.seasonNumber ∈ filtered
      add := add
      orphaned := (current.filter fun s => s.seasonNumber ∉ filtered).map (·.id)
      units := kept + add.length }

/-- `season_edit`: the plan against the other active requests of the quality
and the seasons the library has. -/
def seasonEdit (db : Db) (e : RequestRow) (media : MediaRow) (requested : List Int) :
    Except Refusal SeasonEdit :=
  match db.mediaByTmdb media.tmdbId "tv" with
  | none => .error (.forward "the request could not be loaded")
  | some media =>
    let others := (db.requestsOfMedia media.id).filter fun r => r.id ≠ e.id
    let covered := media.seasons.filter fun s =>
      s.statusOf e.is4k ≠ MediaStatus.unknown && s.statusOf e.is4k ≠ MediaStatus.deleted
    match planSeasonEdit requested (seasonsHeld others e.is4k) e.seasons
        (covered.map (·.seasonNumber)) with
    | none => .error (.answer 202 "No seasons available to request")
    | some edit => .ok edit

/-- `save_rows`: the added seasons, the columns, and the seasons let go. -/
def saveSeasonEdit (env : CallEnv) (db : Db) (e : RequestRow) (body : EditBody)
    (requestedBy : Int) (edit : SeasonEdit) : Db :=
  let assign (r : RequestRow) :=
    { editedColumns body true requestedBy r with tvQuotaUnits := edit.units }
  let added := edit.add.mapIdx fun i n =>
    { id := env.newChildId i
      seasonNumber := n
      status := RequestStatus.pending
      createdAt := some env.hooks.now
      updatedAt := some env.hooks.now
      requestId := some e.id }
  db.updateRequest e.id fun r =>
    let r := saveColumns env.hooks.now assign e r
    { r with seasons := (r.seasons ++ added).filter fun s => s.id ∉ edit.orphaned }

/-! ## Episodes -/

/-- `preconditions` and `resolve` of an episode edit: only a selection is
accepted, and TVDB's episodes must be what requests go by. -/
def editSelection (settings : Settings) (env : CallEnv) (body : EditBody) :
    Except Refusal Resolved := do
  let details ← env.details
  refuseIf (!selectionsAvailable settings details)
    (.answer 400 "Episode requests require partial requests and the TVDB metadata provider.")
  match body.episodeSelection, body.seasons with
  | some (.ok selection), none => resolveSelection settings env selection
  | some (.error message), none => throw (.answer 400 message)
  | _, _ =>
    throw (.answer 400
      "Episode requests require an episode selection and cannot include seasons.")

/-- The columns of an episode edit (`changed_columns` and
`episode_columns`). -/
def episodeColumns (body : EditBody) (requestedBy : Int) (resolved : Resolved)
    (key : Option String) (r : RequestRow) : RequestRow :=
  { editedColumns body true requestedBy r with
    episodeSelectionType := some resolved.kind
    episodeStartTvdbId := some resolved.start
    episodeEndTvdbId := resolved.stop.or r.episodeEndTvdbId
    watchAheadCount := resolved.watchAhead.or r.watchAheadCount
    tvQuotaUnits := quotaUnits resolved.episodes
    ongoingEpisodeRequestKey := key.or r.ongoingEpisodeRequestKey }

/-- `save` of an episode edit: the old episodes go, the columns and the new
episodes are written, and the seasons are let go. -/
def saveEpisodeEdit (env : CallEnv) (db : Db) (e : RequestRow) (body : EditBody)
    (requestedBy : Int) (resolved : Resolved) (key : Option String) : Db :=
  db.updateRequest e.id fun r =>
    let r := saveColumns env.hooks.now (episodeColumns body requestedBy resolved key) e r
    { r with
      seasons := r.seasons.filter fun s => s.id ∉ e.seasons.map (·.id)
      episodes := insertedEpisodes env.hooks.now e.id RequestStatus.pending env.newChildId
        resolved.episodes }

/-- The quota check of an edit: the units the request already counts come on
top of what remains, unless it moves to another user. -/
def editFits (settings : Settings) (env : CallEnv) (db : Db) (e : RequestRow)
    (requester : UserRecord) (units : Nat) : Except Refusal Unit :=
  let quota := tvQuota settings env.clock db requester
  let held := quota.heldUnits env.clock (e.requestedById ≠ some requester.id) e.createdAt
    e.tvQuotaUnits
  refuseIf (quota.editExceeds e.ignoreQuota units held) (.answer 403 "Series Quota exceeded.")

/-- `requestepisodes::edit`. -/
def editEpisodes (settings : Settings) (env : CallEnv) (db : Db) (e : RequestRow)
    (media : MediaRow) (body : EditBody) (requester : UserRecord) : Except Refusal Db := do
  let resolved ← editSelection settings env body
  editFits settings env db e requester (quotaUnits resolved.episodes)
  let key := if resolved.rolling then some (lockKey media.tmdbId e.is4k) else none
  refuseIf (key.any fun key =>
      ongoingConflict settings.ongoingKinds db.requests key resolved.kind (some e.id))
    (.answer 409 "An ongoing episode request already exists for this series.")
  refuseIf (!decide (resolved.episodes.map (·.tvdbId)).Nodup) .database
  pure (saveEpisodeEdit env db e body requester.id resolved key)

/-- The season branch of an edit. -/
def editSeasons (settings : Settings) (env : CallEnv) (db : Db) (e : RequestRow)
    (media : MediaRow) (body : EditBody) (requester : UserRecord) : Except Refusal Db := do
  let requested := body.seasons.getD []
  refuseIf requested.isEmpty
    (.answer 400 <| "Missing seasons. If you want to cancel a series request, use the DELETE "
      ++ "method.")
  let edit ← seasonEdit db e media requested
  editFits settings env db e requester edit.units
  pure (saveSeasonEdit env db e body requester.id edit)

/-! ## The route -/

/-- Whom the request is for after an edit: its user, or the one it moves to,
which takes managing both users and requests. -/
def editRequester (settings : Settings) (user : UserRecord) (owner : Int) (body : EditBody) :
    Except Refusal UserRecord :=
  match body.userId.filter (· ≠ 0) with
  | some uid =>
    if uid ≠ owner
        ∧ ¬ hasAll user.permissions (Permission.manageUsers ||| Permission.manageRequests) then
      .error (.answer 403 "You do not have permission to modify the request user.")
    else match settings.userRecord uid with
      | some record => .ok record
      | none => .error (.answer 500 "User not found.")
  | none =>
    match settings.userRecord owner with
    | some record => .ok record
    | none => .error (.forward "the requester is gone")

/-- Who may edit a request, and which requests may be edited. -/
def editAllowed (user : UserRecord) (e : RequestRow) (media : MediaRow) (owner : Int) :
    Except Refusal Unit := do
  refuseIf ((owner ≠ user.id
        || media.mediaType ≠ "tv" && !hasAny user.permissions Permission.requestAdvanced)
      && !hasAny user.permissions Permission.manageRequests)
    (.answer 403 "You do not have permission to modify this request.")
  refuseIf (e.status ≠ RequestStatus.pending)
    (.answer 409 "Only pending requests can be modified.")

/-- The movie branch of an edit: moving it charges the new user. -/
def editMovie (settings : Settings) (env : CallEnv) (db : Db) (e : RequestRow) (owner : Int)
    (body : EditBody) (requester : UserRecord) : Except Refusal Db := do
  refuseIf (requester.id ≠ owner && !e.ignoreQuota
      && (movieQuota settings env.clock db requester).restricted)
    (.answer 403 "Movie Quota exceeded.")
  pure (db.updateRequest e.id (saveColumns env.hooks.now (editedColumns body false requester.id) e))

/-- Whether an edit is of an episode request, or turns one into it. -/
def editsEpisodes (e : RequestRow) (body : EditBody) : Bool :=
  e.episodeSelectionType.any (· ≠ "") || body.episodeSelection.isSome

/-- The branch of an edit, once its user and the caller's rights are
settled. -/
def editBranch (settings : Settings) (env : CallEnv) (db : Db) (e : RequestRow)
    (media : MediaRow) (owner : Int) (body : EditBody) (requester : UserRecord) :
    Except Refusal Db :=
  if media.mediaType = "tv" then
    if editsEpisodes e body then editEpisodes settings env db e media body requester
    else editSeasons settings env db e media body requester
  else editMovie settings env db e owner body requester

/-- `parse_body` of an edit. -/
def checkEditBody (body : EditBody) : Except Refusal Unit := do
  refuseIf (body.mediaType ≠ "movie" && body.mediaType ≠ "tv")
    (.forward "mediaType is the validator's")
  refuseIf (body.seasons.any (·.any (· < 0)))
    (.forward "a negative season; the validator answers")

/-- The request an edit is about, its title and its user. -/
def editedRequest (db : Db) (id : Int) (body : EditBody) :
    Except Refusal (RequestRow × MediaRow × Int) :=
  match db.requestById id with
  | none => .error (.answer 404 "Request not found.")
  | some e =>
    match e.mediaId.bind db.mediaById with
    | none => .error (.forward "the request has no media")
    | some media =>
      if body.mediaType ≠ media.mediaType then
        .error (.answer 400 "A request cannot change its media type.")
      else match e.requestedById with
        | none => .error (.forward "the request has no requester")
        | some owner => .ok (e, media, owner)

/-- `edit`: `PUT /request/{id}`. -/
def edit (settings : Settings) (env : CallEnv) (db : Db) (user : UserRecord) (id : Int)
    (body : EditBody) : Except Refusal Db := do
  checkEditBody body
  let (e, media, owner) ← editedRequest db id body
  editAllowed user e media owner
  let requester ← editRequester settings user owner (body.allowedTo user media)
  editBranch settings env db e media owner (body.allowedTo user media) requester

/-! ## Accepted edits -/

section Accepted

variable {settings : Settings} {env : CallEnv} {db db' : Db} {user : UserRecord} {id : Int}
  {body : EditBody}

theorem editedRequest_ok {e : RequestRow} {media : MediaRow} {owner : Int}
    (h : editedRequest db id body = .ok (e, media, owner)) :
    db.requestById id = some e ∧ e.mediaId.bind db.mediaById = some media
      ∧ body.mediaType = media.mediaType ∧ e.requestedById = some owner := by
  unfold editedRequest at h
  split at h
  · cases h
  · rename_i e' he
    split at h
    · cases h
    · rename_i media' hmedia
      split at h
      · cases h
      · rename_i htype
        split at h
        · cases h
        · rename_i owner' howner
          cases h
          exact ⟨he, hmedia, not_not.1 htype, howner⟩

/-- A request is moved to a user there is. -/
theorem editRequester_mem {owner : Int} {requester : UserRecord}
    (h : editRequester settings user owner body = .ok requester) :
    requester ∈ settings.users := by
  unfold editRequester at h
  split at h
  · split at h
    · cases h
    · split at h
      · rename_i hfind
        cases h
        exact List.mem_of_find?_eq_some hfind
      · cases h
  · split at h
    · rename_i hfind
      cases h
      exact List.mem_of_find?_eq_some hfind
    · cases h

/-- An accepted edit is of a pending request of a title; its branch was taken
for a user there is, with as much of the body as the sender may choose. -/
theorem edit_branch (h : edit settings env db user id body = .ok db') :
    ∃ e media owner requester, db.requestById id = some e
      ∧ e.mediaId.bind db.mediaById = some media ∧ body.mediaType = media.mediaType
      ∧ e.status = RequestStatus.pending ∧ requester ∈ settings.users
      ∧ editBranch settings env db e media owner (body.allowedTo user media) requester
        = .ok db' := by
  unfold edit at h
  obtain ⟨_, _, h⟩ := except_bind_eq_ok h
  obtain ⟨⟨e, media, owner⟩, hedited, h⟩ := except_bind_eq_ok h
  obtain ⟨he, hmedia, htype, -⟩ := editedRequest_ok hedited
  obtain ⟨_, hallowed, h⟩ := except_bind_eq_ok h
  obtain ⟨_, _, hpending⟩ := except_bind_eq_ok hallowed
  have hstatus : e.status = RequestStatus.pending := by
    simpa using refuseIf_eq_ok hpending
  obtain ⟨requester, hrequester, h⟩ := except_bind_eq_ok h
  exact ⟨e, media, owner, requester, he, hmedia, htype, hstatus, editRequester_mem hrequester, h⟩

/-- An accepted episode edit saves what its selection resolves to. -/
theorem editEpisodes_ok {e : RequestRow} {media : MediaRow} {requester : UserRecord}
    (h : editEpisodes settings env db e media body requester = .ok db') :
    ∃ resolved key, editSelection settings env body = .ok resolved
      ∧ editFits settings env db e requester (quotaUnits resolved.episodes) = .ok ()
      ∧ db' = saveEpisodeEdit env db e body requester.id resolved key := by
  unfold editEpisodes at h
  obtain ⟨resolved, hresolved, h⟩ := except_bind_eq_ok h
  obtain ⟨_, hfits, h⟩ := except_bind_eq_ok h
  obtain ⟨_, _, h⟩ := except_bind_eq_ok h
  obtain ⟨_, _, h⟩ := except_bind_eq_ok h
  cases h
  exact ⟨resolved, _, hresolved, hfits, rfl⟩

/-- **An accepted edit of a series** is of a request that is pending; its seasons
or its episodes were saved for a user whose quota they fit. -/
theorem edit_ok (htv : body.mediaType = "tv") (h : edit settings env db user id body = .ok db') :
    ∃ e body' requester, db.requestById id = some e ∧ requester ∈ settings.users
      ∧ e.status = RequestStatus.pending
      ∧ ((∃ seasons, editFits settings env db e requester seasons.units = .ok ()
            ∧ db' = saveSeasonEdit env db e body' requester.id seasons)
          ∨ ∃ resolved key,
            editFits settings env db e requester (quotaUnits resolved.episodes) = .ok ()
            ∧ db' = saveEpisodeEdit env db e body' requester.id resolved key) := by
  obtain ⟨e, media, owner, requester, he, -, htype, hstatus, hknown, h⟩ := edit_branch h
  refine ⟨e, body.allowedTo user media, requester, he, hknown, hstatus, ?_⟩
  unfold editBranch at h
  rw [if_pos (htype.symm.trans htv)] at h
  split at h
  · obtain ⟨resolved, key, -, hfits, rfl⟩ := editEpisodes_ok h
    exact Or.inr ⟨resolved, key, hfits, rfl⟩
  · unfold editSeasons at h
    obtain ⟨_, _, h⟩ := except_bind_eq_ok h
    obtain ⟨seasons, _, h⟩ := except_bind_eq_ok h
    obtain ⟨_, hfits, h⟩ := except_bind_eq_ok h
    cases h
    exact Or.inl ⟨seasons, hfits, rfl⟩

/-- What a sender may not choose is not the selection. -/
theorem editSelection_allowedTo (body : EditBody) (user : UserRecord) (media : MediaRow) :
    editSelection settings env (body.allowedTo user media) = editSelection settings env body := by
  unfold EditBody.allowedTo
  split <;> rfl

end Accepted

end Foreseerr

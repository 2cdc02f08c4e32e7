import Mathlib.Data.List.Nodup
import Mathlib.Data.List.Pairwise
import Foreseerr.Database
import Foreseerr.Table

/-!
# Saving a request and the hooks that follow

`lifecycle.rs` writes a request back (`Lc::save`) and runs the subscriber's
hooks on it: an approved request is sent to Radarr or Sonarr, and its title
and its children take its status (`update_parent_status`). What TMDB and the
servers answer is an input of the hooks, as is the time.

A hook works on its own copy of the request, `e` below, which may be older
than the row; a statement touches the columns it names and no other. The
last section says what all of this can do to the requests of a title: some
go with a title that has no TVDB id, the others keep what they ask for and
whom they are charged to, and one that was declined or completed stays so.
-/

namespace Foreseerr

/-! ## The writes of a save -/

/-- `set_media_status`. -/
def Db.setMediaStatus (db : Db) (now : String) (id : Int) (fourK : Bool) (status : Int) : Db :=
  db.updateMedia id fun m => { m.setStatus fourK status with updatedAt := some now }

/-- The statement for one season of a save, when its status changed. -/
def writeSeason (now : String) (current : RequestRow) (db : Db) (season : SeasonRequestRow) :
    Db :=
  match current.seasons.find? (·.id == season.id) with
  | some before =>
    if before.status ≠ season.status then
      db.updateSeasonRequest season.id fun s =>
        { s with status := season.status, updatedAt := some now }
    else db
  | none => db

/-- The statement for one episode of a save, when its status or the time its
search was asked for changed. -/
def writeEpisode (now : String) (current : RequestRow) (db : Db) (episode : EpisodeRequestRow) :
    Db :=
  match current.episodes.find? (·.id == episode.id) with
  | some before =>
    if before.status ≠ episode.status ∨ before.searchTriggeredAt ≠ episode.searchTriggeredAt then
      db.updateEpisodeRequest episode.id fun x =>
        { x with
          status := episode.status
          searchTriggeredAt := if episode.searchTriggeredAt.isSome then some now else none
          updatedAt := some now }
    else db
  | none => db

/-- Whether a save writes the request's own row. -/
def rowChanged (e current : RequestRow) : Bool :=
  current.status ≠ e.status || current.modifiedById ≠ e.modifiedById

/-- `write_rows`: the statements of a save against the row as stored
(`current`), and whether the row was written. -/
def writeRows (now : String) (db : Db) (e current : RequestRow) (withRow : Bool) : Db × Bool :=
  let changed := withRow && rowChanged e current
  let db :=
    if changed then
      db.updateRequest e.id fun r =>
        { r with status := e.status, modifiedById := e.modifiedById, updatedAt := some now }
    else db
  let db := e.seasons.foldl (writeSeason now current) db
  let db := e.episodes.foldl (writeEpisode now current) db
  (db, changed)

/-- `reload_dates`: the dates read back after a save. -/
def reloadDates (db : Db) (e : RequestRow) (withRow : Bool) : RequestRow :=
  match db.requestById e.id with
  | none => e
  | some fresh =>
    { e with
      updatedAt := if withRow then fresh.updatedAt else e.updatedAt
      seasons := e.seasons.map fun s =>
        match fresh.seasons.find? (·.id == s.id) with
        | some f => { s with updatedAt := f.updatedAt }
        | none => s
      episodes := e.episodes.map fun x =>
        match fresh.episodes.find? (·.id == x.id) with
        | some f => { x with updatedAt := f.updatedAt, searchTriggeredAt := f.searchTriggeredAt }
        | none => x }

/-- What a save and its hooks work on: the tables, and the caller's copy of
the request. -/
structure Saving where
  db : Db
  e : RequestRow
deriving DecidableEq, Repr

/-- `write_request`: the writes of a save, and whether the row changed. A
request that is gone is not written. -/
def writeRequest (now : String) (db : Db) (e : RequestRow) : Saving × Bool :=
  match db.requestById e.id with
  | none => (⟨db, e⟩, false)
  | some current =>
    let (db, changed) := writeRows now db e current true
    (⟨db, reloadDates db e true⟩, changed)

/-! ## The title and the children -/

/-- Whether some other request of the title and quality has a season, by a
row of its own, and is neither declined nor completed. -/
def heldByOther (db : Db) (mediaId : Int) (e : RequestRow) (number : Int) : Bool :=
  db.requests.any fun r =>
    r.mediaId == some mediaId && r.id != e.id && r.is4k == e.is4k && r.active
      && r.seasons.any (·.seasonNumber == number)

/-- What a declined season does to the title's season: one that waited only
for it is unknown again. -/
def releaseSeason (now : String) (media : MediaRow) (e : RequestRow) (db : Db)
    (season : SeasonRequestRow) : Db :=
  match media.seasons.find? (·.seasonNumber == season.seasonNumber) with
  | some actual =>
    if actual.statusOf e.is4k = MediaStatus.pending
        ∧ heldByOther db media.id e season.seasonNumber = false then
      db.updateSeason actual.id fun s =>
        { s.setStatus e.is4k MediaStatus.unknown with updatedAt := some now }
    else db
  | none => db

/-- The request with one status for all its seasons and episodes. -/
def RequestRow.withChildren (e : RequestRow) (status : Int) : RequestRow :=
  { e with
    seasons := e.seasons.map fun s => { s with status := status }
    episodes := e.episodes.map fun x => { x with status := status } }

/-- The status of the title after a request of it was saved. -/
def settleTitle (now : String) (db : Db) (media : MediaRow) (e : RequestRow) : Db :=
  let current := media.statusOf e.is4k
  let db :=
    if e.status = RequestStatus.approved
        ∧ current ∉ [MediaStatus.available, MediaStatus.partially, MediaStatus.processing] then
      db.setMediaStatus now media.id e.is4k MediaStatus.processing
    else db
  let db :=
    if media.mediaType = "movie" ∧ e.status = RequestStatus.declined
        ∧ current ≠ MediaStatus.deleted then
      db.setMediaStatus now media.id e.is4k MediaStatus.unknown
    else db
  if media.mediaType = "tv" ∧ e.status = RequestStatus.declined
      ∧ current = MediaStatus.pending
      ∧ db.requests.all (fun r => !(r.mediaId == some media.id
        && r.status == RequestStatus.pending && r.is4k == e.is4k && r.id != e.id)) then
    db.setMediaStatus now media.id e.is4k MediaStatus.unknown
  else db

/-- What a save does to the children of a series' request: they follow an
approval or a refusal, and a refusal lets go of the title's seasons. -/
def settleChildren (now : String) (db : Db) (media : MediaRow) (e : RequestRow) : Saving :=
  if media.mediaType = "tv" ∧ e.status = RequestStatus.declined then
    ⟨e.seasons.foldl (releaseSeason now media e) db, e.withChildren RequestStatus.declined⟩
  else if media.mediaType = "tv" ∧ e.status = RequestStatus.approved then
    ⟨db, e.withChildren RequestStatus.approved⟩
  else ⟨db, e⟩

/-- The stored request the children are written against, when they follow. -/
def cascadedRow (db : Db) (media : MediaRow) (e : RequestRow) : Option RequestRow :=
  if media.mediaType = "tv"
      ∧ (e.status = RequestStatus.declined ∨ e.status = RequestStatus.approved) then
    db.requestById e.id
  else none

/-- `update_parent_status`: the title takes the request's status, and the
children of a series follow an approval or a refusal. -/
def updateParentStatus (now : String) (s : Saving) : Saving :=
  match s.e.mediaId.bind s.db.mediaById with
  | none => s
  | some media =>
    let settled := settleChildren now (settleTitle now s.db media s.e) media s.e
    match cascadedRow s.db media s.e with
    | some current =>
      let db := (writeRows now settled.db settled.e current false).1
      ⟨db, reloadDates db settled.e false⟩
    | none => settled

/-- A save of a request no longer approved: its hooks ask no server. -/
def saveSettled (now : String) (db : Db) (e : RequestRow) : Saving :=
  let (s, changed) := writeRequest now db e
  if changed then updateParentStatus now s else s

/-! ## Radarr and Sonarr -/

/-- What the send of a movie meets. -/
structure RadarrReply where
  /-- Whether `/radarr` lists a server. -/
  configured : Bool
  /-- Whether `pick_server` finds one for the request. -/
  server : Bool
  /-- Whether TMDB, the requester's tag and the release date were there. -/
  described : Bool
deriving DecidableEq, Repr

/-- What the send of a series meets. -/
structure SonarrReply where
  /-- Whether `/sonarr` lists a server. -/
  configured : Bool
  /-- The show's TVDB id as TMDB gives it; `none` when TMDB fails. -/
  series : Option (Option Int)
  /-- The TVDB id Sonarr's own lookup finds. -/
  lookup : Option Int
  /-- Whether `pick_server` finds a server for the request. -/
  server : Bool
  /-- Whether the requester's tag could be had. -/
  tagged : Bool
deriving DecidableEq, Repr

/-- What the hooks of one save meet: the time, and the servers. -/
structure HookEnv where
  now : String
  radarr : RadarrReply
  sonarr : SonarrReply
deriving DecidableEq, Repr

/-- `send_to_radarr_inner`; whether it failed. What is added is added in the
background. -/
def sendToRadarrInner (env : HookEnv) (s : Saving) : Saving × Bool :=
  if ¬ env.radarr.configured ∨ ¬ env.radarr.server then (s, false)
  else match s.e.mediaId with
    | none => (s, true)
    | some mediaId =>
      match s.db.mediaById mediaId with
      | none => (s, false)
      | some media =>
        if media.statusOf s.e.is4k = MediaStatus.available then
          (saveSettled env.now s.db { s.e with status := RequestStatus.completed }, false)
        else (s, !env.radarr.described)

/-- `send_to_radarr`: a failed send marks the request failed by a save. -/
def sendToRadarr (env : HookEnv) (s : Saving) : Saving :=
  if s.e.status ≠ RequestStatus.approved ∨ s.e.requestType ≠ "movie" then s
  else
    let (s, bad) := sendToRadarrInner env s
    if bad ∧ (s.e.mediaId.bind s.db.mediaById).isSome then
      saveSettled env.now s.db { s.e with status := RequestStatus.failed }
    else s

/-- `remember_tvdb_id`. -/
def Db.rememberTvdbId (db : Db) (mediaId tvdbId : Int) : Db :=
  if db.media.any (·.tvdbId == some tvdbId) then db
  else
    db.updateMedia mediaId fun m =>
      { m with tvdbId := if m.tvdbId.isNone then some tvdbId else m.tvdbId }

/-- Whether a request is for an episode selection. -/
def RequestRow.selection (e : RequestRow) : Bool :=
  e.episodeSelectionType.any (· ≠ "") || !e.episodes.isEmpty

/-- `send_to_sonarr_inner`; whether it failed. A title that no one has a TVDB
id for is deleted with its requests. -/
def sendToSonarrInner (env : HookEnv) (s : Saving) : Saving × Bool :=
  if ¬ env.sonarr.configured then (s, false)
  else match s.e.mediaId, s.e.mediaId.bind s.db.mediaById with
    | some mediaId, some media =>
      if media.statusOf s.e.is4k = MediaStatus.available ∧ ¬ s.e.selection then
        let e := { s.e.withChildren RequestStatus.completed with status := RequestStatus.completed }
        (saveSettled env.now s.db e, false)
      else match env.sonarr.series with
        | none => (s, true)
        | some series =>
          -- Sonarr's lookup asks the request's own server.
          match series.or media.tvdbId, env.sonarr.lookup.filter fun _ => env.sonarr.server with
          | some _, _ => (s, !(!env.sonarr.server || env.sonarr.tagged))
          | none, some found =>
            (⟨s.db.rememberTvdbId mediaId found, s.e⟩, !(!env.sonarr.server || env.sonarr.tagged))
          | none, none => (⟨(s.db.deleteMedia mediaId).deleteRequest s.e.id, s.e⟩, true)
    | _, _ => (s, true)

/-- `mark_failed_quietly`: no hooks. -/
def Db.markFailedQuietly (db : Db) (now : String) (id : Int) : Db :=
  db.updateRequest id fun r => { r with status := RequestStatus.failed, updatedAt := some now }

/-- `send_to_sonarr`: a failed send marks the request failed, unless its
title is gone. -/
def sendToSonarr (env : HookEnv) (s : Saving) : Saving :=
  if s.e.status ≠ RequestStatus.approved ∨ s.e.requestType ≠ "tv" then s
  else
    let (s, bad) := sendToSonarrInner env s
    if bad ∧ (s.e.mediaId.bind s.db.mediaById).isSome then
      ⟨s.db.markFailedQuietly env.now s.e.id, { s.e with status := RequestStatus.failed }⟩
    else s

/-! ## The hooks -/

/-- `after_update`; `after_insert` runs the same hooks on a new request. -/
def afterUpdate (env : HookEnv) (s : Saving) : Saving :=
  updateParentStatus env.now (sendToSonarr env (sendToRadarr env s))

/-- `Lc::save`: the writes, and the hooks when the row changed. -/
def save (env : HookEnv) (db : Db) (e : RequestRow) : Saving :=
  let (s, changed) := writeRequest env.now db e
  if changed then afterUpdate env s else s

/-- `fail_season_rows`: the rows still approved, by id. -/
def Db.failSeasonRows (db : Db) (now : String) (ids : List Int) : Db :=
  { db with
    requests := db.requests.map fun r =>
      { r with
        seasons := r.seasons.map fun s =>
          if s.status = RequestStatus.approved ∧ s.id ∈ ids then
            { s with status := RequestStatus.failed, updatedAt := some now }
          else s } }

@[simp] theorem reloadDates_status (db : Db) (e : RequestRow) (withRow : Bool) :
    (reloadDates db e withRow).status = e.status := by
  unfold reloadDates
  split <;> rfl

/-- The hooks of a request that is not approved reach no server: a nested
save of `send_to_radarr` or `send_to_sonarr`, which completes or fails the
request, settles its title and nothing else. -/
theorem save_eq_saveSettled (env : HookEnv) (db : Db) {e : RequestRow}
    (h : e.status ≠ RequestStatus.approved) : save env db e = saveSettled env.now db e := by
  have hwrite : (writeRequest env.now db e).1.e.status ≠ RequestStatus.approved := by
    unfold writeRequest
    split
    · exact h
    · exact (reloadDates_status _ e true).trans_ne h
  have hradarr : sendToRadarr env (writeRequest env.now db e).1 = (writeRequest env.now db e).1 :=
    if_pos (Or.inl hwrite)
  have hsonarr : sendToSonarr env (writeRequest env.now db e).1 = (writeRequest env.now db e).1 :=
    if_pos (Or.inl hwrite)
  have hhooks : afterUpdate env (writeRequest env.now db e).1
      = updateParentStatus env.now (writeRequest env.now db e).1 := by
    rw [afterUpdate, hradarr, hsonarr]
  unfold save saveSettled
  simp only [hhooks]

/-! ## What saves and hooks do to the requests of a title -/

/-- What a request may have become: the same request, for the same title and
user, of the same seasons, episodes and quota units, and still closed where it
was. -/
structure RequestRow.SettledFrom (after before : RequestRow) : Prop where
  id : after.id = before.id
  requestType : after.requestType = before.requestType
  tvQuotaUnits : after.tvQuotaUnits = before.tvQuotaUnits
  is4k : after.is4k = before.is4k
  ignoreQuota : after.ignoreQuota = before.ignoreQuota
  mediaId : after.mediaId = before.mediaId
  requestedById : after.requestedById = before.requestedById
  seasons : after.seasons.map (·.seasonNumber) = before.seasons.map (·.seasonNumber)
  episodes : after.episodes.map (·.tvdbId) = before.episodes.map (·.tvdbId)
  closed : before.active = false → after.status = before.status

/-- Whether a request is active is read off its status. -/
theorem RequestRow.active_congr {r r' : RequestRow} (h : r.status = r'.status) :
    r.active = r'.active := by
  unfold RequestRow.active
  rw [h]

instance : Std.Refl RequestRow.SettledFrom :=
  ⟨fun _ => ⟨rfl, rfl, rfl, rfl, rfl, rfl, rfl, rfl, rfl, fun _ => rfl⟩⟩

instance : IsTrans RequestRow RequestRow.SettledFrom where
  trans c b a hcb hba := by
    refine ⟨hcb.id.trans hba.id, hcb.requestType.trans hba.requestType,
      hcb.tvQuotaUnits.trans hba.tvQuotaUnits, hcb.is4k.trans hba.is4k,
      hcb.ignoreQuota.trans hba.ignoreQuota, hcb.mediaId.trans hba.mediaId,
      hcb.requestedById.trans hba.requestedById, hcb.seasons.trans hba.seasons,
      hcb.episodes.trans hba.episodes, fun ha => ?_⟩
    have hb : b.active = false := (RequestRow.active_congr (hba.closed ha)).trans ha
    exact (hcb.closed hb).trans (hba.closed ha)

/-- The requests that are left are those that were there, settled. -/
def Db.SettledFrom (after before : Db) : Prop :=
  List.SublistForall₂ RequestRow.SettledFrom after.requests before.requests

theorem Db.SettledFrom.refl (db : Db) : db.SettledFrom db :=
  Std.Refl.refl (r := List.SublistForall₂ RequestRow.SettledFrom) db.requests

theorem Db.SettledFrom.trans {a b c : Db} (hab : a.SettledFrom b) (hbc : b.SettledFrom c) :
    a.SettledFrom c :=
  IsTrans.trans (r := List.SublistForall₂ RequestRow.SettledFrom) _ _ _ hab hbc

/-- What the hooks may make of a request: it is settled, and its episodes lie
in the seasons they did. -/
structure RequestRow.KeptFrom (after before : RequestRow) : Prop
    extends after.SettledFrom before where
  episodeSeasons : after.episodes.map (·.seasonNumber) = before.episodes.map (·.seasonNumber)

instance : Std.Refl RequestRow.KeptFrom :=
  ⟨fun r => ⟨Std.Refl.refl r, rfl⟩⟩

instance : IsTrans RequestRow RequestRow.KeptFrom where
  trans _ _ _ hcb hba :=
    ⟨IsTrans.trans _ _ _ hcb.toSettledFrom hba.toSettledFrom,
      hcb.episodeSeasons.trans hba.episodeSeasons⟩

/-- The requests that are left are those that were there, as the hooks may have
left them. -/
def Db.KeptFrom (after before : Db) : Prop :=
  List.SublistForall₂ RequestRow.KeptFrom after.requests before.requests

theorem Db.KeptFrom.refl (db : Db) : db.KeptFrom db :=
  Std.Refl.refl (r := List.SublistForall₂ RequestRow.KeptFrom) db.requests

theorem Db.KeptFrom.settled {a b : Db} (h : a.KeptFrom b) : a.SettledFrom b :=
  Table.settled_mono (fun _ _ hR => hR.toSettledFrom) h

/-- An active request stems from an active one. -/
theorem RequestRow.SettledFrom.active {after before : RequestRow}
    (h : after.SettledFrom before) (hactive : after.active = true) : before.active = true := by
  by_contra hb
  have hb' : before.active = false := by simpa using hb
  rw [RequestRow.active_congr (h.closed hb'), hb'] at hactive
  exact absurd hactive (by simp)

/-- What the statements of a save of the request `saved`, and its hooks, may make
of a request: but for the status it is kept, with the seasons and episodes it has,
and only `saved` may be opened again. -/
structure RequestRow.RewrittenFrom (saved : Int) (after before : RequestRow) : Prop where
  kept : { after with status := before.status }.KeptFrom before
  seasonIds : after.seasons.map (·.id) = before.seasons.map (·.id)
  episodeIds : after.episodes.map (·.id) = before.episodes.map (·.id)
  closed : before.id ≠ saved → before.active = false → after.status = before.status

instance (saved : Int) : Std.Refl (RequestRow.RewrittenFrom saved) :=
  ⟨fun r => ⟨Std.Refl.refl r, rfl, rfl, fun _ _ => rfl⟩⟩

instance (saved : Int) : IsTrans RequestRow (RequestRow.RewrittenFrom saved) where
  trans c b a hcb hba := by
    have hkept : { c with status := a.status }.KeptFrom { b with status := a.status } := by
      have h := hcb.kept
      exact ⟨⟨h.id, h.requestType, h.tvQuotaUnits, h.is4k, h.ignoreQuota, h.mediaId,
        h.requestedById, h.seasons, h.episodes, fun _ => rfl⟩, h.episodeSeasons⟩
    refine ⟨IsTrans.trans _ _ _ hkept hba.kept, hcb.seasonIds.trans hba.seasonIds,
      hcb.episodeIds.trans hba.episodeIds, fun hne ha => ?_⟩
    have hb : b.active = false := (RequestRow.active_congr (hba.closed hne ha)).trans ha
    have hid : b.id = a.id := hba.kept.id
    exact (hcb.closed (hid ▸ hne) hb).trans (hba.closed hne ha)

/-- The requests that are left are those that were there, rewritten. -/
def Db.RewrittenFrom (saved : Int) (after before : Db) : Prop :=
  List.SublistForall₂ (RequestRow.RewrittenFrom saved) after.requests before.requests

theorem Db.RewrittenFrom.refl (saved : Int) (db : Db) : Db.RewrittenFrom saved db db :=
  Std.Refl.refl (r := List.SublistForall₂ (RequestRow.RewrittenFrom saved)) db.requests

theorem Db.RewrittenFrom.trans {saved : Int} {a b c : Db} (hab : Db.RewrittenFrom saved a b)
    (hbc : Db.RewrittenFrom saved b c) : Db.RewrittenFrom saved a c :=
  IsTrans.trans (r := List.SublistForall₂ (RequestRow.RewrittenFrom saved)) _ _ _ hab hbc

/-- The row a save is about is active, so that the save may give it any
status. -/
def Db.OpenAt (db : Db) (id : Int) : Prop :=
  ∀ r ∈ db.requests, r.id = id → r.active = true

/-- A save of an active request keeps them all. -/
theorem Db.RewrittenFrom.keeps {saved : Int} {after before : Db}
    (h : Db.RewrittenFrom saved after before) (hopen : before.OpenAt saved) :
    after.KeptFrom before := by
  refine Table.settled_mono_mem (fun a b hb hR => ?_) h
  have h := hR.kept
  refine ⟨⟨h.id, h.requestType, h.tvQuotaUnits, h.is4k, h.ignoreQuota, h.mediaId, h.requestedById,
    h.seasons, h.episodes, fun hclosed => ?_⟩, h.episodeSeasons⟩
  refine hR.closed (fun hid => ?_) hclosed
  exact absurd (hopen b hb hid) (by simp [hclosed])

section Statements

variable (db : Db) (id : Int)

theorem Db.rewritten_of_requests_eq {saved : Int} {db db' : Db} (h : db'.requests = db.requests) :
    Db.RewrittenFrom saved db' db := by
  unfold Db.RewrittenFrom
  rw [h]
  exact Db.RewrittenFrom.refl saved db

/-- A statement on the row of the request saved. -/
theorem Db.updateRequest_rewritten {f : RequestRow → RequestRow}
    (hf : ∀ r, { f r with status := r.status }.KeptFrom r)
    (hseasons : ∀ r, (f r).seasons = r.seasons) (hepisodes : ∀ r, (f r).episodes = r.episodes) :
    Db.RewrittenFrom id (db.updateRequest id f) db := by
  refine Table.settled_map fun r _ => ?_
  split
  · next hid =>
    exact ⟨hf r, congrArg _ (hseasons r), congrArg _ (hepisodes r), fun hne => absurd hid hne⟩
  · exact Std.Refl.refl r

theorem Db.updateSeasonRequest_rewritten (saved : Int) {f : SeasonRequestRow → SeasonRequestRow}
    (hid : ∀ s, (f s).id = s.id) (hnumber : ∀ s, (f s).seasonNumber = s.seasonNumber) :
    Db.RewrittenFrom saved (db.updateSeasonRequest id f) db := by
  have hmap : ∀ (g : SeasonRequestRow → Int) (l : List SeasonRequestRow),
      (∀ s, g (f s) = g s) → (l.map fun s => if s.id = id then f s else s).map g = l.map g := by
    intro g l hg
    rw [List.map_map]
    refine List.map_congr_left fun s _ => ?_
    simp only [Function.comp_apply]
    split
    · exact hg s
    · rfl
  refine Table.settled_map fun r _ => ?_
  refine ⟨⟨⟨rfl, rfl, rfl, rfl, rfl, rfl, rfl, ?_, rfl, fun _ => rfl⟩, rfl⟩, ?_, rfl,
    fun _ _ => rfl⟩
  · exact hmap (·.seasonNumber) r.seasons hnumber
  · exact hmap (·.id) r.seasons hid

theorem Db.updateEpisodeRequest_rewritten (saved : Int)
    {f : EpisodeRequestRow → EpisodeRequestRow} (hid : ∀ x, (f x).id = x.id)
    (htvdb : ∀ x, (f x).tvdbId = x.tvdbId) (hseason : ∀ x, (f x).seasonNumber = x.seasonNumber) :
    Db.RewrittenFrom saved (db.updateEpisodeRequest id f) db := by
  have hmap : ∀ (g : EpisodeRequestRow → Int) (l : List EpisodeRequestRow),
      (∀ x, g (f x) = g x) → (l.map fun x => if x.id = id then f x else x).map g = l.map g := by
    intro g l hg
    rw [List.map_map]
    refine List.map_congr_left fun x _ => ?_
    simp only [Function.comp_apply]
    split
    · exact hg x
    · rfl
  refine Table.settled_map fun r _ => ?_
  refine ⟨⟨⟨rfl, rfl, rfl, rfl, rfl, rfl, rfl, rfl, ?_, fun _ => rfl⟩, ?_⟩, rfl, ?_,
    fun _ _ => rfl⟩
  · exact hmap (·.tvdbId) r.episodes htvdb
  · exact hmap (·.seasonNumber) r.episodes hseason
  · exact hmap (·.id) r.episodes hid

theorem Db.deleteMedia_rewritten (saved : Int) :
    Db.RewrittenFrom saved (db.deleteMedia id) db :=
  Table.settled_filter _

theorem Db.deleteRequest_rewritten (saved : Int) :
    Db.RewrittenFrom saved (db.deleteRequest id) db :=
  Table.settled_filter _

end Statements

theorem writeSeason_rewritten (saved : Int) (now : String) (current : RequestRow) (db : Db)
    (season : SeasonRequestRow) :
    Db.RewrittenFrom saved (writeSeason now current db season) db := by
  unfold writeSeason
  split
  · split
    · exact db.updateSeasonRequest_rewritten season.id saved (fun _ => rfl) fun _ => rfl
    · exact .refl saved db
  · exact .refl saved db

theorem writeEpisode_rewritten (saved : Int) (now : String) (current : RequestRow) (db : Db)
    (episode : EpisodeRequestRow) :
    Db.RewrittenFrom saved (writeEpisode now current db episode) db := by
  unfold writeEpisode
  split
  · split
    · exact db.updateEpisodeRequest_rewritten episode.id saved (fun _ => rfl) (fun _ => rfl)
        fun _ => rfl
    · exact .refl saved db
  · exact .refl saved db

/-- Statements run one after another rewrite the requests when each does. -/
theorem foldl_rewritten {α : Type*} {saved : Int} {step : Db → α → Db}
    (h : ∀ db a, Db.RewrittenFrom saved (step db a) db) (l : List α) (db : Db) :
    Db.RewrittenFrom saved (l.foldl step db) db := by
  induction l generalizing db with
  | nil => exact .refl saved db
  | cons a l ih => exact (ih (step db a)).trans (h db a)

theorem writeRows_rewritten (now : String) (db : Db) (e current : RequestRow) (withRow : Bool) :
    Db.RewrittenFrom e.id (writeRows now db e current withRow).1 db := by
  unfold writeRows
  dsimp only
  refine (foldl_rewritten (writeEpisode_rewritten e.id now current) _ _).trans ?_
  refine (foldl_rewritten (writeSeason_rewritten e.id now current) _ _).trans ?_
  split
  · refine db.updateRequest_rewritten e.id (fun r => ?_) (fun _ => rfl) fun _ => rfl
    exact ⟨⟨rfl, rfl, rfl, rfl, rfl, rfl, rfl, rfl, rfl, fun _ => rfl⟩, rfl⟩
  · exact .refl e.id db

theorem writeRequest_rewritten (now : String) (db : Db) (e : RequestRow) :
    Db.RewrittenFrom e.id (writeRequest now db e).1.db db := by
  unfold writeRequest
  split
  · exact .refl e.id db
  · exact writeRows_rewritten now db e _ true

theorem settleTitle_requests (now : String) (db : Db) (media : MediaRow) (e : RequestRow) :
    (settleTitle now db media e).requests = db.requests := by
  unfold settleTitle
  dsimp only
  split_ifs <;> rfl

theorem releaseSeason_requests (now : String) (media : MediaRow) (e : RequestRow) (db : Db)
    (season : SeasonRequestRow) : (releaseSeason now media e db season).requests = db.requests := by
  unfold releaseSeason
  split
  · split_ifs <;> rfl
  · rfl

theorem settleChildren_requests (now : String) (db : Db) (media : MediaRow) (e : RequestRow) :
    (settleChildren now db media e).db.requests = db.requests := by
  have hrelease : ∀ (l : List SeasonRequestRow) (db : Db),
      (l.foldl (releaseSeason now media e) db).requests = db.requests := by
    intro l
    induction l with
    | nil => exact fun db => rfl
    | cons season l ih =>
      exact fun db => (ih _).trans (releaseSeason_requests now media e db season)
  unfold settleChildren
  split_ifs
  · exact hrelease e.seasons db
  · rfl
  · rfl

/-! A hook works on the request it was given. -/

@[simp] theorem reloadDates_id (db : Db) (e : RequestRow) (withRow : Bool) :
    (reloadDates db e withRow).id = e.id := by
  unfold reloadDates
  split <;> rfl

@[simp] theorem writeRequest_id (now : String) (db : Db) (e : RequestRow) :
    (writeRequest now db e).1.e.id = e.id := by
  unfold writeRequest
  split
  · rfl
  · exact reloadDates_id _ e true

@[simp] theorem settleChildren_id (now : String) (db : Db) (media : MediaRow) (e : RequestRow) :
    (settleChildren now db media e).e.id = e.id := by
  unfold settleChildren
  split_ifs <;> rfl

@[simp] theorem updateParentStatus_id (now : String) (s : Saving) :
    (updateParentStatus now s).e.id = s.e.id := by
  unfold updateParentStatus
  split
  · rfl
  · dsimp only
    split
    · rw [reloadDates_id, settleChildren_id]
    · exact settleChildren_id now _ _ s.e

@[simp] theorem saveSettled_id (now : String) (db : Db) (e : RequestRow) :
    (saveSettled now db e).e.id = e.id := by
  unfold saveSettled
  dsimp only
  split
  · rw [updateParentStatus_id, writeRequest_id]
  · exact writeRequest_id now db e

@[simp] theorem sendToRadarrInner_id (env : HookEnv) (s : Saving) :
    (sendToRadarrInner env s).1.e.id = s.e.id := by
  unfold sendToRadarrInner
  split
  · rfl
  · split
    · rfl
    · split
      · rfl
      · split
        · exact saveSettled_id env.now s.db _
        · rfl

@[simp] theorem sendToRadarr_id (env : HookEnv) (s : Saving) :
    (sendToRadarr env s).e.id = s.e.id := by
  unfold sendToRadarr
  split
  · rfl
  · dsimp only
    split
    · exact (saveSettled_id env.now _ _).trans (sendToRadarrInner_id env s)
    · exact sendToRadarrInner_id env s

@[simp] theorem sendToSonarrInner_id (env : HookEnv) (s : Saving) :
    (sendToSonarrInner env s).1.e.id = s.e.id := by
  unfold sendToSonarrInner
  split
  · rfl
  · split
    · split
      · exact saveSettled_id env.now s.db _
      · split
        · rfl
        · split <;> rfl
    · rfl

@[simp] theorem sendToSonarr_id (env : HookEnv) (s : Saving) :
    (sendToSonarr env s).e.id = s.e.id := by
  unfold sendToSonarr
  split
  · rfl
  · dsimp only
    split <;> exact sendToSonarrInner_id env s

theorem updateParentStatus_rewritten (now : String) (s : Saving) :
    Db.RewrittenFrom s.e.id (updateParentStatus now s).db s.db := by
  unfold updateParentStatus
  split
  · exact .refl s.e.id s.db
  · rename_i media _
    have hsettled : Db.RewrittenFrom s.e.id
        (settleChildren now (settleTitle now s.db media s.e) media s.e).db s.db :=
      Db.rewritten_of_requests_eq ((settleChildren_requests now _ media s.e).trans
        (settleTitle_requests now s.db media s.e))
    dsimp only
    split
    · refine Db.RewrittenFrom.trans ?_ hsettled
      have hrows := writeRows_rewritten now
        (settleChildren now (settleTitle now s.db media s.e) media s.e).db
        (settleChildren now (settleTitle now s.db media s.e) media s.e).e ‹_› false
      rwa [settleChildren_id] at hrows
    · exact hsettled

theorem saveSettled_rewritten (now : String) (db : Db) (e : RequestRow) :
    Db.RewrittenFrom e.id (saveSettled now db e).db db := by
  unfold saveSettled
  dsimp only
  split
  · have hparent := updateParentStatus_rewritten now (writeRequest now db e).1
    rw [writeRequest_id] at hparent
    exact hparent.trans (writeRequest_rewritten now db e)
  · exact writeRequest_rewritten now db e

theorem sendToRadarrInner_rewritten (env : HookEnv) (s : Saving) :
    Db.RewrittenFrom s.e.id (sendToRadarrInner env s).1.db s.db := by
  unfold sendToRadarrInner
  split
  · exact .refl s.e.id s.db
  · split
    · exact .refl s.e.id s.db
    · split
      · exact .refl s.e.id s.db
      · split
        · exact saveSettled_rewritten env.now s.db { s.e with status := RequestStatus.completed }
        · exact .refl s.e.id s.db

theorem sendToRadarr_rewritten (env : HookEnv) (s : Saving) :
    Db.RewrittenFrom s.e.id (sendToRadarr env s).db s.db := by
  have hinner := sendToRadarrInner_rewritten env s
  unfold sendToRadarr
  split
  · exact .refl s.e.id s.db
  · dsimp only
    split
    · have hfail := saveSettled_rewritten env.now (sendToRadarrInner env s).1.db
        { (sendToRadarrInner env s).1.e with status := RequestStatus.failed }
      exact Db.RewrittenFrom.trans (sendToRadarrInner_id env s ▸ hfail) hinner
    · exact hinner

theorem Db.rememberTvdbId_requests (db : Db) (mediaId tvdbId : Int) :
    (db.rememberTvdbId mediaId tvdbId).requests = db.requests := by
  unfold Db.rememberTvdbId
  split <;> rfl

theorem sendToSonarrInner_rewritten (env : HookEnv) (s : Saving) :
    Db.RewrittenFrom s.e.id (sendToSonarrInner env s).1.db s.db := by
  unfold sendToSonarrInner
  split
  · exact .refl s.e.id s.db
  · split
    · split
      · exact saveSettled_rewritten env.now s.db
          { s.e.withChildren RequestStatus.completed with status := RequestStatus.completed }
      · split
        · exact .refl s.e.id s.db
        · split
          · exact .refl s.e.id s.db
          · exact Db.rewritten_of_requests_eq (s.db.rememberTvdbId_requests _ _)
          · exact (Db.deleteRequest_rewritten _ _ _).trans (Db.deleteMedia_rewritten _ _ _)
    · exact .refl s.e.id s.db

theorem sendToSonarr_rewritten (env : HookEnv) (s : Saving) :
    Db.RewrittenFrom s.e.id (sendToSonarr env s).db s.db := by
  have hinner := sendToSonarrInner_rewritten env s
  unfold sendToSonarr
  split
  · exact .refl s.e.id s.db
  · dsimp only
    split
    · refine Db.RewrittenFrom.trans ?_ hinner
      rw [sendToSonarrInner_id]
      refine Db.updateRequest_rewritten _ _ (fun r => ?_) (fun _ => rfl) fun _ => rfl
      exact ⟨⟨rfl, rfl, rfl, rfl, rfl, rfl, rfl, rfl, rfl, fun _ => rfl⟩, rfl⟩
    · exact hinner

/-- **The hooks rewrite the requests**: whatever the servers answer, the hooks
of a save leave of each request what it asks for and whom it is charged to, and
open no closed one but the one saved. -/
theorem afterUpdate_rewritten (env : HookEnv) (s : Saving) :
    Db.RewrittenFrom s.e.id (afterUpdate env s).db s.db := by
  have hradarr := sendToRadarr_rewritten env s
  have hsonarr := sendToSonarr_rewritten env (sendToRadarr env s)
  have hparent := updateParentStatus_rewritten env.now (sendToSonarr env (sendToRadarr env s))
  rw [sendToRadarr_id] at hsonarr
  rw [sendToSonarr_id, sendToRadarr_id] at hparent
  exact hparent.trans (hsonarr.trans hradarr)

theorem save_rewritten (env : HookEnv) (db : Db) (e : RequestRow) :
    Db.RewrittenFrom e.id (save env db e).db db := by
  have hwrite := writeRequest_rewritten env.now db e
  unfold save
  dsimp only
  split
  · have hhooks := afterUpdate_rewritten env (writeRequest env.now db e).1
    rw [writeRequest_id] at hhooks
    exact hhooks.trans hwrite
  · exact hwrite

/-- The hooks of a save of an active request keep the requests. -/
theorem afterUpdate_kept (env : HookEnv) (s : Saving) (h : s.db.OpenAt s.e.id) :
    (afterUpdate env s).db.KeptFrom s.db :=
  (afterUpdate_rewritten env s).keeps h

/-! ## What a save writes

With primary keys, the statements of a save change one row: that of the request
saved. -/

/-- The stored row of a season request after the statement for `season`. -/
def savedSeason (now : String) (current : RequestRow) (season s : SeasonRequestRow) :
    SeasonRequestRow :=
  match current.seasons.find? (·.id == season.id) with
  | some before =>
    if before.status ≠ season.status then
      { s with status := season.status, updatedAt := some now }
    else s
  | none => s

@[simp] theorem savedSeason_id (now : String) (current : RequestRow)
    (season s : SeasonRequestRow) : (savedSeason now current season s).id = s.id := by
  unfold savedSeason
  split
  · split <;> rfl
  · rfl

/-- The stored row of an episode request after the statement for `episode`. -/
def savedEpisode (now : String) (current : RequestRow) (episode x : EpisodeRequestRow) :
    EpisodeRequestRow :=
  match current.episodes.find? (·.id == episode.id) with
  | some before =>
    if before.status ≠ episode.status ∨ before.searchTriggeredAt ≠ episode.searchTriggeredAt then
      { x with
        status := episode.status
        searchTriggeredAt := if episode.searchTriggeredAt.isSome then some now else none
        updatedAt := some now }
    else x
  | none => x

@[simp] theorem savedEpisode_id (now : String) (current : RequestRow)
    (episode x : EpisodeRequestRow) : (savedEpisode now current episode x).id = x.id := by
  unfold savedEpisode
  split
  · split <;> rfl
  · rfl

/-- The stored row of a request after the statements for its seasons and episodes. -/
def savedChildren (now : String) (e current : RequestRow) : RequestRow :=
  { current with
    seasons := current.seasons.map fun s =>
      (e.seasons.find? fun season => season.id == s.id).elim s fun season =>
        savedSeason now current season s
    episodes := current.episodes.map fun x =>
      (e.episodes.find? fun episode => episode.id == x.id).elim x fun episode =>
        savedEpisode now current episode x }

/-- The stored row of a request after a save. -/
def savedRow (now : String) (e current : RequestRow) : RequestRow :=
  { savedChildren now e current with
    status := e.status
    modifiedById := e.modifiedById
    updatedAt := if rowChanged e current then some now else current.updatedAt }

theorem writeSeason_eq (now : String) (current : RequestRow) (db : Db)
    (season : SeasonRequestRow) :
    writeSeason now current db season
      = db.updateSeasonRequest season.id (savedSeason now current season) := by
  have hid : db = db.updateSeasonRequest season.id id := by
    simp [Db.updateSeasonRequest]
  unfold writeSeason savedSeason
  split
  · split
    · rfl
    · exact hid
  · exact hid

theorem writeEpisode_eq (now : String) (current : RequestRow) (db : Db)
    (episode : EpisodeRequestRow) :
    writeEpisode now current db episode
      = db.updateEpisodeRequest episode.id (savedEpisode now current episode) := by
  have hid : db = db.updateEpisodeRequest episode.id id := by
    simp [Db.updateEpisodeRequest]
  unfold writeEpisode savedEpisode
  split
  · split
    · rfl
    · exact hid
  · exact hid

/-- The statements for the seasons of a save, over the whole table. -/
theorem foldl_writeSeason (now : String) (current : RequestRow) (db : Db)
    {seasons : List SeasonRequestRow} (hnodup : (seasons.map (·.id)).Nodup) :
    (seasons.foldl (writeSeason now current) db).requests
      = db.requests.map fun r =>
          { r with
            seasons := r.seasons.map fun s =>
              (seasons.find? fun season => season.id == s.id).elim s fun season =>
                savedSeason now current season s } := by
  have hrows := Table.foldl_updateChildren (fun r : RequestRow => r.seasons)
    (fun r l => { r with seasons := l }) (fun _ _ => rfl) (fun _ _ _ => rfl) (fun _ => rfl)
    (savedSeason_id now current) hnodup db.requests
  refine (List.foldl_hom Db.requests fun db season => ?_).symm.trans hrows
  rw [writeSeason_eq]
  rfl

/-- The statements for the episodes of a save, over the whole table. -/
theorem foldl_writeEpisode (now : String) (current : RequestRow) (db : Db)
    {episodes : List EpisodeRequestRow} (hnodup : (episodes.map (·.id)).Nodup) :
    (episodes.foldl (writeEpisode now current) db).requests
      = db.requests.map fun r =>
          { r with
            episodes := r.episodes.map fun x =>
              (episodes.find? fun episode => episode.id == x.id).elim x fun episode =>
                savedEpisode now current episode x } := by
  have hrows := Table.foldl_updateChildren (fun r : RequestRow => r.episodes)
    (fun r l => { r with episodes := l }) (fun _ _ => rfl) (fun _ _ _ => rfl) (fun _ => rfl)
    (savedEpisode_id now current) hnodup db.requests
  refine (List.foldl_hom Db.requests fun db episode => ?_).symm.trans hrows
  rw [writeEpisode_eq]
  rfl

/-- The statements of a save touch no title. -/
theorem writeRows_media (now : String) (db : Db) (e current : RequestRow) (withRow : Bool) :
    (writeRows now db e current withRow).1.media = db.media := by
  have hseasons : ∀ (seasons : List SeasonRequestRow) (db : Db),
      (seasons.foldl (writeSeason now current) db).media = db.media := by
    intro seasons
    induction seasons with
    | nil => exact fun db => rfl
    | cons season seasons ih =>
      intro db
      rw [List.foldl_cons, ih, writeSeason_eq]
      rfl
  have hepisodes : ∀ (episodes : List EpisodeRequestRow) (db : Db),
      (episodes.foldl (writeEpisode now current) db).media = db.media := by
    intro episodes
    induction episodes with
    | nil => exact fun db => rfl
    | cons episode episodes ih =>
      intro db
      rw [List.foldl_cons, ih, writeEpisode_eq]
      rfl
  unfold writeRows
  dsimp only
  rw [hepisodes, hseasons]
  split <;> rfl

theorem writeRequest_media (now : String) (db : Db) (e : RequestRow) :
    (writeRequest now db e).1.db.media = db.media := by
  unfold writeRequest
  split
  · rfl
  · exact writeRows_media now db e _ true

theorem writeRequest_status (now : String) (db : Db) (e : RequestRow) :
    (writeRequest now db e).1.e.status = e.status := by
  unfold writeRequest
  split
  · rfl
  · exact reloadDates_status _ e true

/-- A completed request leaves its title and its children alone. -/
theorem updateParentStatus_completed (now : String) {s : Saving}
    (h : s.e.status = RequestStatus.completed) : (updateParentStatus now s).db = s.db := by
  unfold updateParentStatus
  split
  · rfl
  · simp [cascadedRow, settleChildren, settleTitle, h]

/-- A season request takes the status of the season saved over it. -/
theorem savedRow_seasons (now : String) {current e : RequestRow}
    {f : SeasonRequestRow → SeasonRequestRow} (hf : ∀ s, (f s).id = s.id)
    (he : e.seasons = current.seasons.map f) (hnodup : (current.seasons.map (·.id)).Nodup) :
    (savedRow now e current).seasons.map (fun s => (s.seasonNumber, s.status))
      = current.seasons.map (fun s => (s.seasonNumber, (f s).status)) := by
  have hids : (e.seasons.map (·.id)).Nodup := by
    rw [he, List.map_map]
    simpa only [Function.comp_def, hf] using hnodup
  show (current.seasons.map _).map _ = _
  rw [List.map_map]
  refine List.map_congr_left fun s hs => ?_
  have hfind : (e.seasons.find? fun season => season.id == s.id) = some (f s) := by
    rw [← hf s]
    exact Table.find?_key hids (he ▸ List.mem_map_of_mem hs)
  have hstored : (current.seasons.find? fun season => season.id == (f s).id) = some s := by
    rw [hf s]
    exact Table.find?_key hnodup hs
  simp only [Function.comp_apply, hfind, Option.elim_some, savedSeason, hstored]
  split
  · rfl
  · next heq => rw [not_not.mp heq]

section Keys

variable {db : Db} (hkeys : db.RequestKeys) {r current : RequestRow}
include hkeys

/-- The request of an id is the row of that id. -/
theorem Db.RequestKeys.request_eq (hr : r ∈ db.requests) (hcurrent : current ∈ db.requests)
    (hid : r.id = current.id) : r = current :=
  List.inj_on_of_nodup_map hkeys.requests hr hcurrent hid

theorem Db.RequestKeys.requestById (hr : r ∈ db.requests) : db.requestById r.id = some r :=
  Table.find?_key hkeys.requests hr

/-- The season requests of one request have ids of their own. -/
theorem Db.RequestKeys.seasons_nodup (hr : r ∈ db.requests) : (r.seasons.map (·.id)).Nodup := by
  have h := hkeys.seasonRequests
  rw [List.map_flatMap, List.nodup_flatMap] at h
  exact h.1 r hr

/-- The episodes of one request have ids of their own. -/
theorem Db.RequestKeys.episodes_nodup (hr : r ∈ db.requests) : (r.episodes.map (·.id)).Nodup := by
  have h := hkeys.episodeRequests
  rw [List.map_flatMap, List.nodup_flatMap] at h
  exact h.1 r hr

/-- No two requests share a season request. -/
theorem Db.RequestKeys.seasons_disjoint (hr : r ∈ db.requests) (hcurrent : current ∈ db.requests)
    (hne : r.id ≠ current.id) {s season : SeasonRequestRow} (hs : s ∈ r.seasons)
    (hseason : season ∈ current.seasons) : season.id ≠ s.id :=
  Table.flatMap_disjoint hkeys.seasonRequests hr hcurrent (ne_of_apply_ne _ hne) hs hseason

/-- No two requests share an episode. -/
theorem Db.RequestKeys.episodes_disjoint (hr : r ∈ db.requests) (hcurrent : current ∈ db.requests)
    (hne : r.id ≠ current.id) {x episode : EpisodeRequestRow} (hx : x ∈ r.episodes)
    (hepisode : episode ∈ current.episodes) : episode.id ≠ x.id :=
  Table.flatMap_disjoint hkeys.episodeRequests hr hcurrent (ne_of_apply_ne _ hne) hx hepisode

/-- **The statements of a save change the request saved alone.** -/
theorem writeRows_requests (now : String) (hcurrent : current ∈ db.requests) {e : RequestRow}
    (hid : e.id = current.id) (hseasons : e.seasons.map (·.id) = current.seasons.map (·.id))
    (hepisodes : e.episodes.map (·.id) = current.episodes.map (·.id)) (withRow : Bool) :
    (writeRows now db e current withRow).1.requests
      = db.requests.map fun r =>
          if r.id = e.id then
            if withRow then savedRow now e r else savedChildren now e r
          else r := by
  have hseasonsNodup : (e.seasons.map (·.id)).Nodup := hseasons ▸ hkeys.seasons_nodup hcurrent
  have hepisodesNodup : (e.episodes.map (·.id)).Nodup := hepisodes ▸ hkeys.episodes_nodup hcurrent
  have hrow : (if (withRow && rowChanged e current) = true then
        db.updateRequest e.id fun r =>
          { r with status := e.status, modifiedById := e.modifiedById, updatedAt := some now }
      else db).requests = db.requests.map fun r =>
        if r.id = e.id ∧ withRow = true then
          { r with
            status := e.status, modifiedById := e.modifiedById
            updatedAt := if rowChanged e current then some now else current.updatedAt }
        else r := by
    by_cases hchanged : withRow = true ∧ rowChanged e current = true
    · rw [if_pos (by simpa using hchanged)]
      refine List.map_congr_left fun r _ => ?_
      simp [hchanged]
    · rw [if_neg (by simpa using hchanged)]
      refine (List.map_id db.requests).symm.trans (List.map_congr_left fun r hr => ?_)
      split
      · next heq =>
        obtain rfl := hkeys.request_eq hr hcurrent (heq.1.trans hid)
        have hsame : rowChanged e r = false := by simpa [heq.2] using hchanged
        simp only [rowChanged, Bool.or_eq_false_iff, decide_eq_false_iff_not, not_not] at hsame
        simp [rowChanged, ← hsame.1, ← hsame.2]
      · rfl
  unfold writeRows
  dsimp only
  rw [foldl_writeEpisode now current _ hepisodesNodup,
    foldl_writeSeason now current _ hseasonsNodup, hrow, List.map_map, List.map_map]
  refine List.map_congr_left fun r hr => ?_
  simp only [Function.comp_apply]
  by_cases heq : r.id = e.id
  · obtain rfl := hkeys.request_eq hr hcurrent (heq.trans hid)
    cases withRow <;> simp [heq, savedRow, savedChildren]
  · have hne : r.id ≠ current.id := fun h => heq (h.trans hid.symm)
    have hseason : ∀ s ∈ r.seasons, ∀ season ∈ e.seasons, season.id ≠ s.id := by
      intro s hs season hseason
      obtain ⟨stored, hstored, hsame⟩ := List.mem_map.mp (hseasons ▸ List.mem_map_of_mem hseason)
      exact hsame ▸ hkeys.seasons_disjoint hr hcurrent hne hs hstored
    have hepisode : ∀ x ∈ r.episodes, ∀ episode ∈ e.episodes, episode.id ≠ x.id := by
      intro x hx episode hepisode
      obtain ⟨stored, hstored, hsame⟩ :=
        List.mem_map.mp (hepisodes ▸ List.mem_map_of_mem hepisode)
      exact hsame ▸ hkeys.episodes_disjoint hr hcurrent hne hx hstored
    simp only [heq, false_and, if_false]
    rw [Table.map_update_of_forall_ne hseason, Table.map_update_of_forall_ne hepisode]

theorem writeRequest_requests (now : String) (hcurrent : current ∈ db.requests) {e : RequestRow}
    (hid : e.id = current.id) (hseasons : e.seasons.map (·.id) = current.seasons.map (·.id))
    (hepisodes : e.episodes.map (·.id) = current.episodes.map (·.id)) :
    (writeRequest now db e).1.db.requests
      = db.requests.map fun r => if r.id = e.id then savedRow now e r else r := by
  have hstored : db.requestById e.id = some current := hid ▸ hkeys.requestById hcurrent
  have hrows := writeRows_requests hkeys now hcurrent hid hseasons hepisodes true
  simp only [writeRequest, hstored]
  exact hrows

/-- **A save that runs no hook or completes the request** changes that request
alone, and no title. -/
theorem save_requests (env : HookEnv) (hcurrent : current ∈ db.requests) {e : RequestRow}
    (hid : e.id = current.id) (hseasons : e.seasons.map (·.id) = current.seasons.map (·.id))
    (hepisodes : e.episodes.map (·.id) = current.episodes.map (·.id))
    (hstatus : e.status = RequestStatus.completed ∨ rowChanged e current = false) :
    (save env db e).db.requests
        = db.requests.map (fun r => if r.id = e.id then savedRow env.now e r else r)
      ∧ (save env db e).db.media = db.media := by
  have hrequests := writeRequest_requests hkeys env.now hcurrent hid hseasons hepisodes
  have hmedia := writeRequest_media env.now db e
  have hstored : db.requestById e.id = some current := hid ▸ hkeys.requestById hcurrent
  rcases hstatus with hcompleted | hunchanged
  · have hsave : (save env db e).db = (writeRequest env.now db e).1.db := by
      rw [save_eq_saveSettled env db (hcompleted.trans_ne (by decide)), saveSettled]
      dsimp only
      split
      · exact updateParentStatus_completed env.now
          ((writeRequest_status env.now db e).trans hcompleted)
      · rfl
    rw [hsave]
    exact ⟨hrequests, hmedia⟩
  · have hsave : (save env db e).db = (writeRequest env.now db e).1.db := by
      have hchanged : (writeRequest env.now db e).2 = false := by
        simp only [writeRequest, hstored, writeRows, hunchanged, Bool.and_false]
      unfold save
      dsimp only
      rw [if_neg (by simp [hchanged])]
    rw [hsave]
    exact ⟨hrequests, hmedia⟩

end Keys

theorem Db.RequestKeys.congr {db db' : Db} (h : db.RequestKeys)
    (hrequests : db'.requests = db.requests) : db'.RequestKeys :=
  ⟨hrequests ▸ h.requests, hrequests ▸ h.seasonRequests, hrequests ▸ h.episodeRequests⟩

/-- What a rewriting that adds no row leaves of the keys. -/
theorem Db.RequestKeys.settled {R : RequestRow → RequestRow → Prop} {after before : Db}
    (h : before.RequestKeys) (hsettled : List.SublistForall₂ R after.requests before.requests)
    (hid : ∀ a b, R a b → a.id = b.id)
    (hseasons : ∀ a b, R a b → (a.seasons.map (·.id)).Sublist (b.seasons.map (·.id)))
    (hepisodes : ∀ a b, R a b → (a.episodes.map (·.id)).Sublist (b.episodes.map (·.id))) :
    after.RequestKeys := by
  constructor
  · exact (Table.map_sublist hsettled hid).nodup h.requests
  · rw [List.map_flatMap]
    exact (Table.flatMap_sublist hsettled hseasons).nodup (List.map_flatMap ▸ h.seasonRequests)
  · rw [List.map_flatMap]
    exact (Table.flatMap_sublist hsettled hepisodes).nodup (List.map_flatMap ▸ h.episodeRequests)

/-- What every save leaves of the keys. -/
theorem Db.RequestKeys.rewritten {saved : Int} {after before : Db} (h : before.RequestKeys)
    (hrewritten : Db.RewrittenFrom saved after before) : after.RequestKeys :=
  h.settled hrewritten (fun _ _ hR => hR.kept.id) (fun _ _ hR => hR.seasonIds ▸ .refl _)
    fun _ _ hR => hR.episodeIds ▸ .refl _

theorem Db.RequestKeys.saves (envs : Int → HookEnv) (saves : List RequestRow) {db : Db}
    (h : db.RequestKeys) :
    (saves.foldl (fun db e => (save (envs e.id) db e).db) db).RequestKeys := by
  induction saves generalizing db with
  | nil => exact h
  | cons e saves ih => exact ih (h.rewritten (save_rewritten (envs e.id) db e))

/-- A save of `e` asks no server and settles no title: it completes the stored
request, or it leaves the request's own row as it is. -/
def RequestRow.QuietIn (e : RequestRow) (db : Db) : Prop :=
  ∃ current ∈ db.requests, e.id = current.id
    ∧ e.seasons.map (·.id) = current.seasons.map (·.id)
    ∧ e.episodes.map (·.id) = current.episodes.map (·.id)
    ∧ (e.status = RequestStatus.completed ∨ rowChanged e current = false)

/-- **Quiet saves of several requests** change each of them in one go, and no
title. -/
theorem saves_requests (envs : Int → HookEnv) {saves : List RequestRow}
    (hnodup : (saves.map (·.id)).Nodup) {db : Db} (hkeys : db.RequestKeys)
    (hquiet : ∀ e ∈ saves, e.QuietIn db) :
    (saves.foldl (fun db e => (save (envs e.id) db e).db) db).requests
        = db.requests.map (fun r => (saves.find? fun e => e.id == r.id).elim r fun e =>
            savedRow (envs e.id).now e r)
      ∧ (saves.foldl (fun db e => (save (envs e.id) db e).db) db).media = db.media := by
  have hrows : ∀ (saves : List RequestRow), (saves.map (·.id)).Nodup → ∀ {db : Db},
      db.RequestKeys → (∀ e ∈ saves, e.QuietIn db) →
      (saves.foldl (fun db e => (save (envs e.id) db e).db) db).requests
          = saves.foldl (fun l e =>
              l.map fun r => if r.id = e.id then savedRow (envs e.id).now e r else r) db.requests
        ∧ (saves.foldl (fun db e => (save (envs e.id) db e).db) db).media = db.media := by
    intro saves
    induction saves with
    | nil => exact fun _ db _ _ => ⟨rfl, rfl⟩
    | cons e saves ih =>
      intro hnodup db hkeys hquiet
      rw [List.map_cons, List.nodup_cons] at hnodup
      obtain ⟨current, hcurrent, hid, hseasons, hepisodes, hstatus⟩ :=
        hquiet e List.mem_cons_self
      obtain ⟨hrequests, hmedia⟩ :=
        save_requests hkeys (envs e.id) hcurrent hid hseasons hepisodes hstatus
      have hrest : ∀ e' ∈ saves, e'.QuietIn (save (envs e.id) db e).db := by
        intro e' he'
        obtain ⟨other, hother, hid', h⟩ := hquiet e' (List.mem_cons_of_mem _ he')
        refine ⟨other, ?_, hid', h⟩
        have hne : other.id ≠ e.id := fun heq =>
          hnodup.1 (List.mem_map.mpr ⟨e', he', hid'.trans heq⟩)
        rw [hrequests]
        exact List.mem_map.mpr ⟨other, hother, if_neg hne⟩
      obtain ⟨hfold, hfoldMedia⟩ :=
        ih hnodup.2 (hkeys.rewritten (save_rewritten (envs e.id) db e)) hrest
      rw [List.foldl_cons, List.foldl_cons, hfold, hfoldMedia, hrequests]
      exact ⟨rfl, hmedia⟩
  obtain ⟨hrequests, hmedia⟩ := hrows saves hnodup hkeys hquiet
  have hid : ∀ e r : RequestRow, (savedRow (envs e.id).now e r).id = r.id := fun _ _ => rfl
  rw [Table.foldl_update hid hnodup] at hrequests
  exact ⟨hrequests, hmedia⟩

end Foreseerr

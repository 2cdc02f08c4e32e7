import Foreseerr.Lifecycle
import Foreseerr.Run

/-!
# Saving a title and completing its requests

`mediasave.rs` writes an edited title back and runs the subscriber's hooks
around the write: the pending requests of a title that turned available are
approved before it, and after it the approved and failed ones whose title or
seasons are there now are completed.

A request of whole seasons completes when each of its seasons is `COMPLETED`,
and `settle_seasons` completes a season only in the save that changes the
title's season. What an approval or a retry has reset since stays open
(`MediaSave.retried_stays_open`). Where every season a request waits for was
completed before or changes in the save, the save completes it
(`MediaSave.completes_once_there`).
-/

namespace Foreseerr

/-! ## The writes -/

/-- `MediaEdit`: a loaded title, the same title after the handler's changes, and
the seasons the handler appended. -/
structure MediaEdit where
  before : MediaRow
  after : MediaRow
  fresh : List FreshSeason := []
deriving DecidableEq, Repr

/-- `MediaEdit::new`. -/
def MediaEdit.new (row : MediaRow) : MediaEdit := ⟨row, row, []⟩

/-- `set_season_status`: the season of a number, appended if there is none. -/
def MediaEdit.setSeasonStatus (edit : MediaEdit) (number : Int) (fourK : Bool) (status : Int) :
    MediaEdit :=
  match edit.after.seasons.findIdx? (·.seasonNumber == number) with
  | some i =>
    { edit with
      after := { edit.after with
        seasons := edit.after.seasons.modify i fun s => s.setStatus fourK status } }
  | none =>
    let season : SeasonRow :=
      { seasonNumber := number, status := MediaStatus.unknown, status4k := MediaStatus.unknown
        mediaId := some edit.after.id }
    { edit with
      after := { edit.after with
        seasons := edit.after.seasons ++ [season.setStatus fourK status] }
      fresh := edit.fresh ++ [⟨edit.after.seasons.length, fourK⟩] }

/-- The columns of `media_changes`, each taken over where it was changed. -/
def writeColumns (before after row : MediaRow) : MediaRow :=
  let pick {α : Type} [DecidableEq α] (column : MediaRow → α) : α :=
    if column before = column after then column row else column after
  { row with
    status := pick (·.status)
    status4k := pick (·.status4k)
    serviceId := pick (·.serviceId)
    serviceId4k := pick (·.serviceId4k)
    externalServiceId := pick (·.externalServiceId)
    externalServiceId4k := pick (·.externalServiceId4k)
    externalServiceSlug := pick (·.externalServiceSlug)
    externalServiceSlug4k := pick (·.externalServiceSlug4k)
    imdbId := pick (·.imdbId)
    lastSeasonChange := pick (·.lastSeasonChange)
    mediaAddedAt := pick (·.mediaAddedAt)
    ratingKey := pick (·.ratingKey)
    ratingKey4k := pick (·.ratingKey4k)
    jellyfinMediaId := pick (·.jellyfinMediaId)
    jellyfinMediaId4k := pick (·.jellyfinMediaId4k) }

/-- `media_changes` is not empty. -/
def MediaEdit.mediaChanged (edit : MediaEdit) : Bool :=
  writeColumns edit.before edit.after edit.before != edit.before

/-- An id no season has. -/
def Db.nextSeasonId (db : Db) : Int :=
  ((db.media.flatMap (·.seasons)).map (·.id)).foldl max 0 + 1

/-- `INSERT INTO "season"`: refused without the title. -/
def Db.insertSeason (db : Db) (now : String) (mediaId : Int) (season : SeasonRow) :
    Option (Db × Int) :=
  (db.mediaById mediaId).map fun _ =>
    let id := db.nextSeasonId
    (db.updateMedia mediaId fun m =>
      { m with
        seasons := m.seasons ++ [{ season with
          id := id, mediaId := some mediaId, createdAt := some now, updatedAt := some now }] }, id)

/-- The inserts of the appended seasons, which get their ids. -/
def insertFresh (now : String) (db : Db) (edit : MediaEdit) : Option (Db × MediaRow) :=
  edit.fresh.foldlM (fun (db, after) fresh =>
    match after.seasons[fresh.index]? with
    | none => some (db, after)
    | some season =>
      (db.insertSeason now after.id season).map fun (db, id) =>
        (db, { after with
          seasons := after.seasons.modify fresh.index fun s => { s with id := id } }))
    (db, edit.after)

/-- The statement for one season of an edit, when a status of it changed. -/
def writeTitleSeason (now : String) (before : List SeasonRow) (db : Db) (season : SeasonRow) :
    Db :=
  match before.find? (·.id == season.id) with
  | none => db
  | some old =>
    if old.status = season.status ∧ old.status4k = season.status4k then db
    else
      db.updateSeason season.id fun s =>
        { s with
          status := if old.status = season.status then s.status else season.status
          status4k := if old.status4k = season.status4k then s.status4k else season.status4k
          updatedAt := some now }

/-- `UPDATE "season" SET "mediaId" = NULL`. -/
def Db.detachSeason (db : Db) (id : Int) : Db :=
  { db with
    media := db.media.map fun m => { m with seasons := m.seasons.filter fun s => s.id ≠ id } }

/-- `write`: the statements of a save, in one transaction, and the title as the
entity holds it afterwards. -/
def writeTitle (now : String) (db : Db) (edit : MediaEdit) (orphans : List Int) :
    Option (Db × MediaRow) :=
  (insertFresh now db edit).map fun (db, after) =>
    let db :=
      if edit.mediaChanged then
        db.updateMedia after.id fun m =>
          { writeColumns edit.before edit.after m with updatedAt := some now }
      else db
    let db := after.seasons.foldl (writeTitleSeason now edit.before.seasons) db
    (orphans.foldl Db.detachSeason db, after)

/-! ## The hooks -/

/-- What the request saves of one media save meet, by request. -/
abbrev HookEnvs := Int → HookEnv

/-- `approve_children`: `updateChildRequestStatus`, over the requests as they were
loaded. -/
def approveChildren (envs : HookEnvs) (db : Db) (mediaId : Int) (fourK : Bool) : Db :=
  ((db.requestsOfMedia mediaId).filter fun e =>
      e.is4k == fourK && e.status == RequestStatus.pending).foldl
    (fun db e => (save (envs e.id) db { e with status := RequestStatus.approved }).db) db

/-- `before_update`: the approvals of the qualities that turned available. -/
def beforeUpdate (envs : HookEnvs) (db : Db) (edit : MediaEdit) : Db :=
  [false, true].foldl (fun db fourK =>
    if edit.after.statusOf fourK = MediaStatus.available
        ∧ edit.before.statusOf fourK = MediaStatus.pending then
      approveChildren envs db edit.after.id fourK
    else db) db

/-- The seasons as stored, which `after_update` compares against. -/
def storedSeasons (db : Db) (mediaId : Int) : List SeasonRow :=
  ((db.mediaById mediaId).map (·.seasons)).getD []

/-- The status of a season of a title, by its number. -/
def seasonStatus (seasons : List SeasonRow) (number : Int) (fourK : Bool) : Option Int :=
  (seasons.find? (·.seasonNumber == number)).map fun s => s.statusOf fourK

/-- The season is there, or gone for good. -/
def settledStatus (status : Int) : Bool :=
  status == MediaStatus.available || status == MediaStatus.deleted

/-- One turn of the loop of `settle_seasons`: the season request, and whether it
leaves the request ready to complete. -/
def settleSeason (after before : List SeasonRow) (key : Bool) (season : SeasonRequestRow) :
    SeasonRequestRow × Bool :=
  if season.status = RequestStatus.failed then (season, true)
  else
    match seasonStatus after season.seasonNumber key with
    | none => (season, false)
    | some now =>
      let statusChanged := some now != seasonStatus before season.seasonNumber key
      if (statusChanged || season.status == RequestStatus.completed) && settledStatus now then
        ({ season with status := RequestStatus.completed }, true)
      else (season, false)

/-- A request of nothing but seasons that can't be downloaded. -/
def allFailed (requested : List SeasonRequestRow) : Bool :=
  !requested.isEmpty && requested.all fun s => s.status == RequestStatus.failed

/-- `settle_seasons`: the requested seasons, whether the request is ready to
complete, and whether a season turned `COMPLETED`. -/
def settleSeasons (requested : List SeasonRequestRow) (after before : List SeasonRow)
    (key : Bool) : List SeasonRequestRow × Bool × Bool :=
  let settled := requested.map (settleSeason after before key)
  (settled.map Prod.fst, !allFailed requested && settled.all Prod.snd,
    requested.any fun s => (settleSeason after before key s).1.status != s.status)

/-- What `complete_related` makes of one request: nothing, a save of its seasons, or
its completion. -/
inductive Settlement
  | keep
  | seasons (e : RequestRow)
  | complete (e : RequestRow)
deriving DecidableEq, Repr

/-- The body of the loop of `complete_related`. -/
def settleRequest (after : MediaRow) (dbSeasons : List SeasonRow) (e : RequestRow) :
    Settlement :=
  if settledStatus (after.statusOf e.is4k) = true ∧ after.mediaType = "movie" then
    .complete { e with status := RequestStatus.completed }
  else if after.mediaType = "tv" then
    if e.episodes ≠ [] then .keep
    else
      let (seasons, allReady, touched) := settleSeasons e.seasons after.seasons dbSeasons e.is4k
      let e := { e with seasons := seasons }
      if allReady then .complete { e with status := RequestStatus.completed }
      else if touched then .seasons e
      else .keep
  else .keep

/-- The approved and failed requests of a quality of a title. -/
def openRequests (db : Db) (mediaId : Int) (fourK : Bool) : List RequestRow :=
  (db.requestsOfMedia mediaId).filter fun r =>
    (r.status == RequestStatus.approved || r.status == RequestStatus.failed) && r.is4k == fourK

/-- What the loop of `complete_related` saves of a request. -/
def Settlement.touched : Settlement → Option RequestRow
  | .seasons e => some e
  | _ => none

/-- What `complete_related` saves of a request after the loop. -/
def Settlement.completed : Settlement → Option RequestRow
  | .complete e => some e
  | _ => none

/-- The saves of `complete_related`: those of the loop, then the completions. Every
request is settled as it was loaded, before any of them. -/
def relatedSaves (db : Db) (after : MediaRow) (dbSeasons : List SeasonRow) (fourK : Bool) :
    List RequestRow :=
  let opens := openRequests db after.id fourK
  (opens.filterMap fun r => (settleRequest after dbSeasons r).touched)
    ++ opens.filterMap fun r => (settleRequest after dbSeasons r).completed

/-- `complete_related`: `updateRelatedMediaRequest`. -/
def completeRelated (envs : HookEnvs) (db : Db) (after : MediaRow) (dbSeasons : List SeasonRow)
    (fourK : Bool) : Db :=
  (relatedSaves db after dbSeasons fourK).foldl (fun db e => (save (envs e.id) db e).db) db

/-- A quality whose requests `after_update` looks at. -/
def completes (edit : MediaEdit) (after : MediaRow) (dbSeasons : List SeasonRow) (fourK : Bool) :
    Bool :=
  let changed := after.statusOf fourK != edit.before.statusOf fourK
  let seasonsChanged := after.seasons.zipIdx.any fun (s, i) =>
    some (s.statusOf fourK) != (dbSeasons[i]?).map fun p => p.statusOf fourK
  (changed || after.mediaType == "tv" && seasonsChanged)
    && (after.statusOf fourK == MediaStatus.partially || settledStatus (after.statusOf fourK))

/-- One turn of the loop of `after_update`. -/
def afterUpdateQuality (envs : HookEnvs) (edit : MediaEdit) (after : MediaRow)
    (dbSeasons : List SeasonRow) (db : Db) (fourK : Bool) : Db :=
  if completes edit after dbSeasons fourK then completeRelated envs db after dbSeasons fourK
  else db

/-- `after_update`. -/
def afterUpdateTitle (envs : HookEnvs) (db : Db) (edit : MediaEdit) (after : MediaRow)
    (dbSeasons : List SeasonRow) : Db :=
  [false, true].foldl (afterUpdateQuality envs edit after dbSeasons) db

/-- `save_with_orphans`, hooks included; `none` when the write is refused. -/
def saveTitle (now : String) (envs : HookEnvs) (db : Db) (edit : MediaEdit)
    (orphans : List Int) : Option (Db × MediaRow) :=
  if edit.mediaChanged then
    let db := beforeUpdate envs db edit
    let dbSeasons := storedSeasons db edit.after.id
    (writeTitle now db edit orphans).map fun (db, after) =>
      (afterUpdateTitle envs db edit after dbSeasons, after)
  else writeTitle now db edit orphans

/-! ## The hooks, row by row -/

/-- The stored row of an approved or failed request after `complete_related`. -/
def settledRow (envs : HookEnvs) (after : MediaRow) (dbSeasons : List SeasonRow)
    (r : RequestRow) : RequestRow :=
  match settleRequest after dbSeasons r with
  | .keep => r
  | .seasons e => savedRow (envs e.id).now e r
  | .complete e => savedRow (envs e.id).now e r

/-- The requests `complete_related` goes through, of both qualities. -/
def RequestRow.openFor (r : RequestRow) (mediaId : Int) : Bool :=
  r.mediaId == some mediaId
    && (r.status == RequestStatus.approved || r.status == RequestStatus.failed)

theorem mem_openRequests {db : Db} {mediaId : Int} {fourK : Bool} {r : RequestRow} :
    r ∈ openRequests db mediaId fourK
      ↔ r ∈ db.requests ∧ r.openFor mediaId = true ∧ r.is4k = fourK := by
  simp only [openRequests, Db.requestsOfMedia, RequestRow.openFor, List.mem_filter, Bool.and_eq_true,
    Bool.or_eq_true, beq_iff_eq]
  tauto

/-- `settle_seasons` keeps the season requests, but for their status. -/
theorem settleSeason_id (after before : List SeasonRow) (key : Bool) (season : SeasonRequestRow) :
    (settleSeason after before key season).1.id = season.id := by
  unfold settleSeason
  split
  · rfl
  · split
    · rfl
    · dsimp only
      split <;> rfl

section Settled

variable {after : MediaRow} {dbSeasons : List SeasonRow} {r e : RequestRow} {db : Db}

/-- What a request is settled to is saved quietly. -/
theorem settleRequest_quiet (hr : r ∈ db.requests)
    (h : settleRequest after dbSeasons r = .seasons e
      ∨ settleRequest after dbSeasons r = .complete e) : e.id = r.id ∧ e.QuietIn db := by
  have hids : (settleSeasons r.seasons after.seasons dbSeasons r.is4k).1.map (·.id)
      = r.seasons.map (·.id) := by
    simp only [settleSeasons, List.map_map]
    exact List.map_congr_left fun s _ => settleSeason_id _ _ _ s
  unfold settleRequest at h
  dsimp only at h
  rcases h with h | h
  · split_ifs at h
    cases h
    exact ⟨rfl, r, hr, rfl, hids, rfl, .inr (by simp [rowChanged])⟩
  · split_ifs at h
    · cases h
      exact ⟨rfl, r, hr, rfl, rfl, rfl, .inl rfl⟩
    · cases h
      exact ⟨rfl, r, hr, rfl, hids, rfl, .inl rfl⟩

@[simp] theorem Settlement.touched_eq_some {settlement : Settlement} :
    settlement.touched = some e ↔ settlement = .seasons e := by
  cases settlement <;> simp [Settlement.touched]

@[simp] theorem Settlement.completed_eq_some {settlement : Settlement} :
    settlement.completed = some e ↔ settlement = .complete e := by
  cases settlement <;> simp [Settlement.completed]

theorem mem_relatedSaves {fourK : Bool} : e ∈ relatedSaves db after dbSeasons fourK
    ↔ ∃ r ∈ openRequests db after.id fourK, settleRequest after dbSeasons r = .seasons e
      ∨ settleRequest after dbSeasons r = .complete e := by
  simp only [relatedSaves, List.mem_append, List.mem_filterMap, Settlement.touched_eq_some,
    Settlement.completed_eq_some]
  constructor
  · rintro (⟨r, hr, h⟩ | ⟨r, hr, h⟩)
    · exact ⟨r, hr, .inl h⟩
    · exact ⟨r, hr, .inr h⟩
  · rintro ⟨r, hr, h | h⟩
    · exact .inl ⟨r, hr, h⟩
    · exact .inr ⟨r, hr, h⟩

/-- No request is saved twice. -/
theorem relatedSaves_nodup (hkeys : db.RequestKeys) (fourK : Bool) :
    ((relatedSaves db after dbSeasons fourK).map (·.id)).Nodup := by
  have hopens : ((openRequests db after.id fourK).map (·.id)).Nodup :=
    ((List.filter_sublist.trans List.filter_sublist).map _).nodup hkeys.requests
  have hid : ∀ r ∈ openRequests db after.id fourK, ∀ e,
      settleRequest after dbSeasons r = .seasons e ∨ settleRequest after dbSeasons r = .complete e →
        e.id = r.id :=
    fun r hr e h => (settleRequest_quiet (mem_openRequests.mp hr).1 h).1
  unfold relatedSaves
  dsimp only
  rw [List.map_append, List.nodup_append]
  refine ⟨Table.nodup_filterMap (fun r hr e h => ?_) hopens,
    Table.nodup_filterMap (fun r hr e h => ?_) hopens, ?_⟩
  · exact hid r hr e (.inl (Settlement.touched_eq_some.mp h))
  · exact hid r hr e (.inr (Settlement.completed_eq_some.mp h))
  · intro a ha b hb hab
    obtain ⟨e, he, rfl⟩ := List.mem_map.mp ha
    obtain ⟨e', he', rfl⟩ := List.mem_map.mp hb
    obtain ⟨r, hr, h⟩ := List.mem_filterMap.mp he
    obtain ⟨r', hr', h'⟩ := List.mem_filterMap.mp he'
    have hseasons := Settlement.touched_eq_some.mp h
    have hcomplete := Settlement.completed_eq_some.mp h'
    have hsame : r = r' := by
      refine List.inj_on_of_nodup_map hopens hr hr' ?_
      rw [← hid r hr e (.inl hseasons), ← hid r' hr' e' (.inr hcomplete), hab]
    rw [hsame, hcomplete] at hseasons
    cases hseasons

/-- **`complete_related` changes the requests of its quality alone**, each by what it
is settled to. -/
theorem completeRelated_requests (envs : HookEnvs) (hkeys : db.RequestKeys) (fourK : Bool) :
    (completeRelated envs db after dbSeasons fourK).requests
        = db.requests.map (fun r =>
            if r.openFor after.id = true ∧ r.is4k = fourK then settledRow envs after dbSeasons r
            else r)
      ∧ (completeRelated envs db after dbSeasons fourK).media = db.media := by
  have hnodup : ((relatedSaves db after dbSeasons fourK).map (·.id)).Nodup :=
    relatedSaves_nodup hkeys fourK
  have hquiet : ∀ e ∈ relatedSaves db after dbSeasons fourK, e.QuietIn db := by
    intro e he
    obtain ⟨r, hr, h⟩ := mem_relatedSaves.mp he
    exact (settleRequest_quiet (mem_openRequests.mp hr).1 h).2
  obtain ⟨hrequests, hmedia⟩ := saves_requests envs hnodup hkeys hquiet
  refine ⟨hrequests.trans (List.map_congr_left fun r hr => ?_), hmedia⟩
  have hfind : ∀ e, r ∈ openRequests db after.id fourK →
      (settleRequest after dbSeasons r = .seasons e ∨ settleRequest after dbSeasons r = .complete e) →
        (relatedSaves db after dbSeasons fourK).find? (fun e => e.id == r.id) = some e := by
    intro e hopen h
    rw [← (settleRequest_quiet hr h).1]
    exact Table.find?_key hnodup (mem_relatedSaves.mpr ⟨r, hopen, h⟩)
  have hnone : (∀ e, r ∈ openRequests db after.id fourK →
        ¬ (settleRequest after dbSeasons r = .seasons e
          ∨ settleRequest after dbSeasons r = .complete e)) →
      (relatedSaves db after dbSeasons fourK).find? (fun e => e.id == r.id) = none := by
    intro h
    refine List.find?_eq_none.mpr fun e he hsame => ?_
    obtain ⟨r', hr', h'⟩ := mem_relatedSaves.mp he
    have hstored := (mem_openRequests.mp hr').1
    have hid := (settleRequest_quiet hstored h').1
    obtain rfl := hkeys.request_eq hstored hr (hid.symm.trans (beq_iff_eq.mp hsame))
    exact h e hr' h'
  by_cases hopen : r ∈ openRequests db after.id fourK
  · rw [if_pos (mem_openRequests.mp hopen).2, settledRow]
    cases hsettled : settleRequest after dbSeasons r with
    | keep =>
      rw [hnone fun e _ h => by simp [hsettled] at h]
      rfl
    | seasons e =>
      rw [hfind e hopen (.inl hsettled)]
      rfl
    | complete e =>
      rw [hfind e hopen (.inr hsettled)]
      rfl
  · rw [if_neg fun h => hopen (mem_openRequests.mpr ⟨hr, h⟩), hnone fun e h _ => hopen h]
    rfl

@[simp] theorem settledRow_is4k (envs : HookEnvs) (after : MediaRow) (dbSeasons : List SeasonRow)
    (r : RequestRow) : (settledRow envs after dbSeasons r).is4k = r.is4k := by
  unfold settledRow
  split <;> rfl

theorem afterUpdateQuality_requests (envs : HookEnvs) (edit : MediaEdit)
    (dbSeasons : List SeasonRow) (hkeys : db.RequestKeys) (fourK : Bool) :
    (afterUpdateQuality envs edit after dbSeasons db fourK).requests
        = db.requests.map (fun r =>
            if r.openFor after.id = true ∧ r.is4k = fourK
                ∧ completes edit after dbSeasons fourK = true then
              settledRow envs after dbSeasons r
            else r)
      ∧ (afterUpdateQuality envs edit after dbSeasons db fourK).media = db.media := by
  unfold afterUpdateQuality
  by_cases hcompletes : completes edit after dbSeasons fourK = true
  · simp only [hcompletes, and_true, if_true]
    exact completeRelated_requests envs hkeys fourK
  · simp [hcompletes]

/-- **`after_update` changes the requests of the qualities it looks at**, each by what it
is settled to, and no title. -/
theorem afterUpdateTitle_requests (envs : HookEnvs) (edit : MediaEdit)
    (hkeys : db.RequestKeys) :
    (afterUpdateTitle envs db edit after dbSeasons).requests
        = db.requests.map (fun r =>
            if r.openFor after.id = true ∧ completes edit after dbSeasons r.is4k = true then
              settledRow envs after dbSeasons r
            else r)
      ∧ (afterUpdateTitle envs db edit after dbSeasons).media = db.media := by
  have hkeys' : (afterUpdateQuality envs edit after dbSeasons db false).RequestKeys := by
    unfold afterUpdateQuality
    split
    · exact hkeys.saves envs _
    · exact hkeys
  obtain ⟨hstandard, hstandardMedia⟩ :=
    afterUpdateQuality_requests envs edit dbSeasons hkeys false
  obtain ⟨hfourK, hfourKMedia⟩ :=
    afterUpdateQuality_requests envs edit dbSeasons hkeys' true
  refine ⟨hfourK.trans ?_, hfourKMedia.trans hstandardMedia⟩
  rw [hstandard, List.map_map]
  refine List.map_congr_left fun r _ => ?_
  cases hq : r.is4k <;> simp only [Function.comp_apply, hq] <;> split_ifs <;> simp_all

end Settled

/-! ## The title as it is saved -/

/-- A title but for the ids of its seasons, which appended ones get in the save. -/
def MediaRow.withoutSeasonIds (m : MediaRow) : MediaRow :=
  { m with seasons := m.seasons.map fun s => { s with id := 0 } }

section SeasonIds

variable (m : MediaRow) (dbSeasons : List SeasonRow)

theorem seasonStatus_withoutSeasonIds (number : Int) (fourK : Bool) :
    seasonStatus m.withoutSeasonIds.seasons number fourK = seasonStatus m.seasons number fourK := by
  simp only [seasonStatus, MediaRow.withoutSeasonIds, List.find?_map, Option.map_map]
  rfl

theorem settledRow_withoutSeasonIds (envs : HookEnvs) :
    settledRow envs m.withoutSeasonIds dbSeasons = settledRow envs m dbSeasons := by
  have hseason : settleSeason m.withoutSeasonIds.seasons dbSeasons
      = settleSeason m.seasons dbSeasons := by
    funext key season
    simp only [settleSeason, seasonStatus_withoutSeasonIds]
  funext r
  simp only [settledRow, settleRequest, settleSeasons, hseason]
  rfl

theorem completes_withoutSeasonIds (edit : MediaEdit) :
    completes edit m.withoutSeasonIds dbSeasons = completes edit m dbSeasons := by
  funext fourK
  simp only [completes, MediaRow.withoutSeasonIds, List.zipIdx_map, List.any_map]
  rfl

end SeasonIds

theorem insertFresh_after {now : String} {db db' : Db} {edit : MediaEdit} {after : MediaRow}
    (h : insertFresh now db edit = some (db', after)) :
    after.withoutSeasonIds = edit.after.withoutSeasonIds ∧ db'.requests = db.requests := by
  have hfold : ∀ (fresh : List FreshSeason) (db : Db) (after₀ : MediaRow),
      fresh.foldlM (fun ((db, after) : Db × MediaRow) fresh =>
          match after.seasons[fresh.index]? with
          | none => some (db, after)
          | some season =>
            (db.insertSeason now after.id season).map fun (db, id) =>
              (db, { after with
                seasons := after.seasons.modify fresh.index fun s => { s with id := id } }))
        (db, after₀) = some (db', after) →
      after.withoutSeasonIds = after₀.withoutSeasonIds ∧ db'.requests = db.requests := by
    intro fresh
    induction fresh with
    | nil =>
      intro db after₀ h
      cases h
      exact ⟨rfl, rfl⟩
    | cons f fresh ih =>
      intro db after₀ h
      rw [List.foldlM_cons] at h
      obtain ⟨⟨db₁, after₁⟩, hstep, hrest⟩ := Option.bind_eq_some_iff.mp h
      obtain ⟨hafter, hrequests⟩ := ih db₁ after₁ hrest
      dsimp only at hstep
      split at hstep
      · cases hstep
        exact ⟨hafter, hrequests⟩
      · obtain ⟨⟨db₂, id⟩, hinsert, heq⟩ := Option.map_eq_some_iff.mp hstep
        cases heq
        obtain ⟨_, _, heq⟩ := Option.map_eq_some_iff.mp hinsert
        cases heq
        refine ⟨hafter.trans ?_, hrequests⟩
        simp only [MediaRow.withoutSeasonIds]
        congr 1
        refine List.ext_getElem? fun i => ?_
        rw [List.getElem?_map, List.getElem?_map, List.getElem?_modify]
        cases after₀.seasons[i]? with
        | none => rfl
        | some season =>
          by_cases hi : f.index = i
          · simp [hi]
          · simp [hi]
  exact hfold edit.fresh db edit.after h

theorem writeTitle_requests {now : String} {db db' : Db} {edit : MediaEdit} {orphans : List Int}
    {after : MediaRow} (h : writeTitle now db edit orphans = some (db', after)) :
    after.withoutSeasonIds = edit.after.withoutSeasonIds ∧ db'.requests = db.requests := by
  obtain ⟨⟨db₁, after₁⟩, hfresh, heq⟩ := Option.map_eq_some_iff.mp h
  cases heq
  obtain ⟨hafter, hrequests⟩ := insertFresh_after hfresh
  have hseasons : ∀ (seasons : List SeasonRow) (db : Db),
      (seasons.foldl (writeTitleSeason now edit.before.seasons) db).requests = db.requests := by
    intro seasons
    induction seasons with
    | nil => exact fun db => rfl
    | cons season seasons ih =>
      intro db
      refine (ih _).trans ?_
      unfold writeTitleSeason
      split
      · rfl
      · split <;> rfl
  have horphans : ∀ (orphans : List Int) (db : Db),
      (orphans.foldl Db.detachSeason db).requests = db.requests := by
    intro orphans
    induction orphans with
    | nil => exact fun db => rfl
    | cons id orphans ih => exact fun db => ih _
  refine ⟨hafter, ?_⟩
  rw [horphans, hseasons, ← hrequests]
  split <;> rfl

/-- The stored row of a season after the statement for `season`. -/
def savedTitleSeason (now : String) (before : List SeasonRow) (season s : SeasonRow) : SeasonRow :=
  match before.find? (·.id == season.id) with
  | none => s
  | some old =>
    if old.status = season.status ∧ old.status4k = season.status4k then s
    else
      { s with
        status := if old.status = season.status then s.status else season.status
        status4k := if old.status4k = season.status4k then s.status4k else season.status4k
        updatedAt := some now }

/-- The stored row of a title after the statements of a save that neither adds nor
detaches a season. -/
def savedTitle (now : String) (edit : MediaEdit) (m : MediaRow) : MediaRow :=
  let m := if edit.mediaChanged then
      { writeColumns edit.before edit.after m with updatedAt := some now }
    else m
  { m with
    seasons := m.seasons.map fun s =>
      (edit.after.seasons.find? fun season => season.id == s.id).elim s fun season =>
        savedTitleSeason now edit.before.seasons season s }

theorem writeTitleSeason_eq (now : String) (before : List SeasonRow) (db : Db)
    (season : SeasonRow) :
    writeTitleSeason now before db season
      = db.updateSeason season.id (savedTitleSeason now before season) := by
  have hid : db = db.updateSeason season.id id := by
    simp [Db.updateSeason]
  unfold writeTitleSeason savedTitleSeason
  split
  · exact hid
  · split
    · exact hid
    · rfl

theorem Db.RequestKeys.approveChildren (envs : HookEnvs) {db : Db} (h : db.RequestKeys)
    (mediaId : Int) (fourK : Bool) : (approveChildren envs db mediaId fourK).RequestKeys := by
  unfold Foreseerr.approveChildren
  have hsaves := h.saves envs (((db.requestsOfMedia mediaId).filter fun e =>
    e.is4k == fourK && e.status == RequestStatus.pending).map fun e =>
      { e with status := RequestStatus.approved })
  rwa [List.foldl_map] at hsaves

theorem Db.RequestKeys.beforeUpdate (envs : HookEnvs) {db : Db} (h : db.RequestKeys)
    (edit : MediaEdit) : (beforeUpdate envs db edit).RequestKeys := by
  have hturn : ∀ {db : Db} (fourK : Bool), db.RequestKeys →
      (if edit.after.statusOf fourK = MediaStatus.available
          ∧ edit.before.statusOf fourK = MediaStatus.pending then
        Foreseerr.approveChildren envs db edit.after.id fourK
      else db).RequestKeys := by
    intro db fourK h
    split
    · exact h.approveChildren envs edit.after.id fourK
    · exact h
  exact hturn true (hturn false h)

/-- The tables as the write of a save finds them. -/
def MediaEdit.approved (edit : MediaEdit) (envs : HookEnvs) (db : Db) : Db :=
  if edit.mediaChanged then beforeUpdate envs db edit else db

theorem Db.RequestKeys.approved (envs : HookEnvs) {db : Db} (h : db.RequestKeys)
    (edit : MediaEdit) : (edit.approved envs db).RequestKeys := by
  unfold MediaEdit.approved
  split
  · exact h.beforeUpdate envs edit
  · exact h

/-- **What a save of a series makes of the requests**: the hooks settle those of the
qualities they look at, and do not run where no column of the title changes. -/
theorem saveTitle_requests {now : String} {envs : HookEnvs} {db db' : Db} {edit : MediaEdit}
    {orphans : List Int} {after : MediaRow} (hkeys : db.RequestKeys)
    (h : saveTitle now envs db edit orphans = some (db', after)) :
    let dbSeasons := storedSeasons (edit.approved envs db) edit.after.id
    db'.requests = (edit.approved envs db).requests.map fun r =>
      if edit.mediaChanged = true ∧ r.openFor edit.after.id = true
          ∧ completes edit edit.after dbSeasons r.is4k = true then
        settledRow envs edit.after dbSeasons r
      else r := by
  unfold saveTitle at h
  unfold MediaEdit.approved
  by_cases hchanged : edit.mediaChanged = true
  · rw [if_pos hchanged] at h
    simp only [hchanged, true_and, if_true]
    obtain ⟨⟨db₁, after₁⟩, hwrite, heq⟩ := Option.map_eq_some_iff.mp h
    cases heq
    obtain ⟨hafter, hrequests⟩ := writeTitle_requests hwrite
    have hid : after.id = edit.after.id := (congrArg MediaRow.id hafter).trans rfl
    have hkeys₁ : db₁.RequestKeys := (hkeys.beforeUpdate envs edit).congr hrequests
    rw [(afterUpdateTitle_requests envs edit hkeys₁).1, hrequests, hid,
      ← settledRow_withoutSeasonIds, ← completes_withoutSeasonIds after, hafter,
      settledRow_withoutSeasonIds, completes_withoutSeasonIds]
  · rw [if_neg hchanged] at h
    simpa [hchanged] using (writeTitle_requests h).2

theorem Db.RequestKeys.saveTitle {now : String} {envs : HookEnvs} {db db' : Db}
    {edit : MediaEdit} {orphans : List Int} {after : MediaRow} (hkeys : db.RequestKeys)
    (h : saveTitle now envs db edit orphans = some (db', after)) : db'.RequestKeys := by
  have hwritten : ∀ {db db' : Db} {after : MediaRow}, db.RequestKeys →
      writeTitle now db edit orphans = some (db', after) → db'.RequestKeys := by
    intro db db' after hkeys hwrite
    exact hkeys.congr (writeTitle_requests hwrite).2
  have hquality : ∀ {db : Db} (after : MediaRow) (dbSeasons : List SeasonRow) (fourK : Bool),
      db.RequestKeys → (afterUpdateQuality envs edit after dbSeasons db fourK).RequestKeys := by
    intro db after dbSeasons fourK hkeys
    unfold afterUpdateQuality
    split
    · exact hkeys.saves envs _
    · exact hkeys
  unfold Foreseerr.saveTitle at h
  split at h
  · obtain ⟨⟨db₁, after₁⟩, hwrite, heq⟩ := Option.map_eq_some_iff.mp h
    cases heq
    have hkeys₁ := hwritten (hkeys.beforeUpdate envs edit) hwrite
    exact hquality after _ true (hquality after _ false hkeys₁)
  · exact hwritten hkeys h

/-! ## Completion over a run -/

namespace MediaSave

/-- What goes on around a title: it is saved, a request gets a status through
`Lc::save`, and Sonarr fails a request or some of its seasons. -/
inductive Act
  | save (now : String) (envs : HookEnvs) (edit : MediaEdit) (orphans : List Int)
  | request (env : HookEnv) (id status : Int) (modifiedById : Option Int)
  | fail (now : String) (id : Int)
  | failSeasons (now : String) (ids : List Int)

/-- The tables after an act. A write that is refused leaves what the approvals before it
did. -/
def Act.run (db : Db) : Act → Db
  | .save now envs edit orphans =>
    ((saveTitle now envs db edit orphans).map Prod.fst).getD (edit.approved envs db)
  | .request env id status modifiedById =>
    match db.requestById id with
    | none => db
    | some e => (Foreseerr.save env db { e with status := status, modifiedById := modifiedById }).db
  | .fail now id => db.markFailedQuietly now id
  | .failSeasons now ids => db.failSeasonRows now ids

theorem Act.run_keys {db : Db} (h : db.RequestKeys) (act : Act) : (act.run db).RequestKeys := by
  cases act with
  | save now envs edit orphans =>
    unfold Act.run
    dsimp only
    cases hsave : saveTitle now envs db edit orphans with
    | none =>
      exact h.approved envs edit
    | some saved => exact h.saveTitle hsave
  | request env id status modifiedById =>
    unfold Act.run
    dsimp only
    split
    · exact h
    · exact h.rewritten (save_rewritten env db _)
  | fail now id =>
    have hfailed : Db.RewrittenFrom id (db.markFailedQuietly now id) db := by
      refine Db.updateRequest_rewritten db id (fun r => ?_) (fun _ => rfl) fun _ => rfl
      exact ⟨⟨rfl, rfl, rfl, rfl, rfl, rfl, rfl, rfl, rfl, fun _ => rfl⟩, rfl⟩
    exact h.rewritten hfailed
  | failSeasons now ids =>
    have hid : ∀ r : RequestRow, (r.seasons.map fun s =>
        if s.status = RequestStatus.approved ∧ s.id ∈ ids then
          { s with status := RequestStatus.failed, updatedAt := some now }
        else s).map (·.id) = r.seasons.map (·.id) := by
      intro r
      rw [List.map_map]
      refine List.map_congr_left fun s _ => ?_
      simp only [Function.comp_apply]
      split <;> rfl
    constructor
    · simpa [Act.run, Db.failSeasonRows, Function.comp_def] using h.requests
    · have hseasons := h.seasonRequests
      rw [List.map_flatMap] at hseasons ⊢
      simpa only [Act.run, Db.failSeasonRows, List.flatMap_map, hid] using hseasons
    · simpa only [Act.run, Db.failSeasonRows, List.flatMap_map] using h.episodeRequests

/-- The tables, with the keys the database sees to. -/
structure Tables where
  db : Db
  keys : db.RequestKeys

def Act.apply (act : Act) (s : Tables) : Tables := ⟨act.run s.db, act.run_keys s.keys⟩

def Step (s : Tables) (act : Act) (t : Tables) : Prop := t = act.apply s

/-- The approved or failed requests of whole seasons of a quality of a title. -/
def waits (mediaId : Int) (fourK : Bool) (r : RequestRow) : Bool :=
  r.openFor mediaId && r.is4k == fourK && r.episodes.isEmpty

/-- Everything the request can get is there: a season that did not fail, and each that
did not is available or deleted. -/
def everythingThere (title : MediaRow) (r : RequestRow) : Bool :=
  (r.seasons.any fun s => s.status != RequestStatus.failed)
    && r.seasons.all fun s => s.status == RequestStatus.failed
      || (seasonStatus title.seasons s.seasonNumber r.is4k).any settledStatus

/-- Whether a season of the title has another status than the one stored. -/
def seasonChanged (stored : List SeasonRow) (title : MediaRow) (fourK : Bool) : Bool :=
  title.seasons.any fun s => some (s.statusOf fourK) != seasonStatus stored s.seasonNumber fourK

/-- A save of a series that changes the status of a season in a quality, and leaves the
title partially available, available or deleted in it. -/
def Brings (db : Db) (edit : MediaEdit) (fourK : Bool) : Prop :=
  edit.after.mediaType = "tv"
    ∧ seasonChanged (storedSeasons db edit.after.id) edit.after fourK = true
    ∧ (edit.after.statusOf fourK = MediaStatus.partially
      ∨ settledStatus (edit.after.statusOf fourK) = true)

/-- What a save leaves: no request waits for what is there. -/
def Act.Completes (act : Act) (s t : Tables) : Prop :=
  match act with
  | .save now envs edit orphans =>
    (saveTitle now envs s.db edit orphans).isSome → ∀ fourK, Brings s.db edit fourK →
      ∀ r ∈ t.db.requests, waits edit.after.id fourK r = true → everythingThere edit.after r = false
  | _ => True

/-- The condition on a save, on the tables as its write finds them: where everything is
there for a request, a column of the title changes, the hook looks at the quality, and
each of the request's seasons is failed, completed already, or changes in this save. -/
def Ok (s : Tables) (act : Act) : Prop :=
  match act with
  | .save now envs edit orphans =>
    (saveTitle now envs s.db edit orphans).isSome → ∀ fourK, Brings s.db edit fourK →
      ∀ r ∈ (edit.approved envs s.db).requests, waits edit.after.id fourK r = true →
        everythingThere edit.after r = true →
          let stored := storedSeasons (edit.approved envs s.db) edit.after.id
          edit.mediaChanged = true ∧ completes edit edit.after stored fourK = true
            ∧ ∀ season ∈ r.seasons, season.status = RequestStatus.failed
              ∨ season.status = RequestStatus.completed
              ∨ seasonStatus edit.after.seasons season.seasonNumber fourK
                  ≠ seasonStatus stored season.seasonNumber fourK
  | _ => True

/-! ### What the hook settles -/

section Settles

variable {title : MediaRow} {stored : List SeasonRow} {envs : HookEnvs} {r : RequestRow}

/-- A season that is there leaves the request ready where it was completed before or
changes now. -/
theorem settleSeason_ready_iff {seasons : List SeasonRow} {key : Bool} {s : SeasonRequestRow}
    (hthere : s.status ≠ RequestStatus.failed →
      (seasonStatus seasons s.seasonNumber key).any settledStatus = true) :
    (settleSeason seasons stored key s).2 = true
      ↔ s.status = RequestStatus.failed ∨ s.status = RequestStatus.completed
        ∨ seasonStatus seasons s.seasonNumber key ≠ seasonStatus stored s.seasonNumber key := by
  unfold settleSeason
  by_cases hfailed : s.status = RequestStatus.failed
  · simp [hfailed]
  · rw [if_neg hfailed]
    have hthere := hthere hfailed
    cases hstatus : seasonStatus seasons s.seasonNumber key with
    | none => simp [hstatus] at hthere
    | some now =>
      have hsettled : settledStatus now = true := by simpa [hstatus] using hthere
      dsimp only
      by_cases hready : (some now != seasonStatus stored s.seasonNumber key
          || s.status == RequestStatus.completed) = true
      · rw [hready, hsettled, Bool.and_self, if_pos rfl]
        simp only [Bool.or_eq_true, bne_iff_ne, beq_iff_eq] at hready
        tauto
      · rw [Bool.not_eq_true] at hready
        rw [hready, Bool.false_and, if_neg (by simp)]
        simp only [Bool.or_eq_false_iff, bne_eq_false_iff_eq, beq_eq_false_iff_ne] at hready
        simp [hfailed, hready.1, hready.2]

/-- No season fails, or recovers, by being settled. -/
theorem settleSeason_failed_iff (seasons stored : List SeasonRow) (key : Bool)
    (s : SeasonRequestRow) :
    (settleSeason seasons stored key s).1.status = RequestStatus.failed
      ↔ s.status = RequestStatus.failed := by
  unfold settleSeason
  split
  · rfl
  · split
    · rfl
    · dsimp only
      split
      · simp_all
      · rfl

theorem everythingThere_congr {r r' : RequestRow} (hquality : r.is4k = r'.is4k)
    (hseasons : r.seasons.map (fun s => (s.seasonNumber, s.status == RequestStatus.failed))
      = r'.seasons.map (fun s => (s.seasonNumber, s.status == RequestStatus.failed))) :
    everythingThere title r = everythingThere title r' := by
  have hread : ∀ r : RequestRow, everythingThere title r
      = (((r.seasons.map fun s => (s.seasonNumber, s.status == RequestStatus.failed)).any
          fun p => !p.2)
        && (r.seasons.map fun s => (s.seasonNumber, s.status == RequestStatus.failed)).all
          fun p => p.2 || (seasonStatus title.seasons p.1 r.is4k).any settledStatus) := by
    intro r
    simp only [everythingThere, List.any_map, List.all_map]
    rfl
  rw [hread, hread, hseasons, hquality]

/-- The request is completed exactly where each of its seasons is ready. -/
theorem settleRequest_complete_iff (htv : title.mediaType = "tv") (hepisodes : r.episodes = [])
    (hthere : everythingThere title r = true) :
    (∃ e, settleRequest title stored r = .complete e)
      ↔ ∀ s ∈ r.seasons, s.status = RequestStatus.failed ∨ s.status = RequestStatus.completed
        ∨ seasonStatus title.seasons s.seasonNumber r.is4k
          ≠ seasonStatus stored s.seasonNumber r.is4k := by
  simp only [everythingThere, Bool.and_eq_true, List.any_eq_true, List.all_eq_true,
    Bool.or_eq_true, beq_iff_eq, bne_iff_ne] at hthere
  obtain ⟨⟨waiting, hwaiting, hcan⟩, hthere⟩ := hthere
  have hsome : allFailed r.seasons = false := by
    simp only [allFailed, Bool.and_eq_false_iff, List.all_eq_false]
    exact .inr ⟨waiting, hwaiting, by simpa using hcan⟩
  have hready : (settleSeasons r.seasons title.seasons stored r.is4k).2.1 = true
      ↔ ∀ s ∈ r.seasons, s.status = RequestStatus.failed ∨ s.status = RequestStatus.completed
        ∨ seasonStatus title.seasons s.seasonNumber r.is4k
          ≠ seasonStatus stored s.seasonNumber r.is4k := by
    simp only [settleSeasons, hsome, Bool.not_false, Bool.true_and, List.all_map, List.all_eq_true,
      Function.comp_apply]
    refine forall₂_congr fun s hs => settleSeason_ready_iff fun hfailed => ?_
    exact (hthere s hs).resolve_left hfailed
  have hmovie : ¬ (settledStatus (title.statusOf r.is4k) = true ∧ title.mediaType = "movie") := by
    rw [htv]
    simp
  rw [← hready]
  unfold settleRequest
  rw [if_neg hmovie, if_pos htv, if_neg (not_not.mpr hepisodes)]
  dsimp only
  split_ifs with hall htouched <;> simp [hall]

/-- What a request of a series is settled to: its seasons settled, and its status kept
or `COMPLETED`. -/
theorem settleRequest_spec (htv : title.mediaType = "tv") {e : RequestRow} :
    (settleRequest title stored r = .seasons e →
        e.status = r.status
          ∧ e.seasons = r.seasons.map fun s => (settleSeason title.seasons stored r.is4k s).1)
      ∧ (settleRequest title stored r = .complete e →
        e.status = RequestStatus.completed
          ∧ e.seasons = r.seasons.map fun s => (settleSeason title.seasons stored r.is4k s).1) := by
  have hmovie : ¬ (settledStatus (title.statusOf r.is4k) = true ∧ title.mediaType = "movie") := by
    rw [htv]
    simp
  have hseasons : (settleSeasons r.seasons title.seasons stored r.is4k).1
      = r.seasons.map fun s => (settleSeason title.seasons stored r.is4k s).1 := by
    simp only [settleSeasons, List.map_map]
    rfl
  unfold settleRequest
  rw [if_neg hmovie, if_pos htv]
  dsimp only
  constructor
  · intro h
    split_ifs at h
    cases h
    exact ⟨rfl, hseasons⟩
  · intro h
    split_ifs at h
    cases h
    exact ⟨rfl, hseasons⟩

theorem settledRow_status (htv : title.mediaType = "tv") (envs : HookEnvs)
    (stored : List SeasonRow) (r : RequestRow) :
    (settledRow envs title stored r).status = RequestStatus.completed
        ∧ (∃ e, settleRequest title stored r = .complete e)
      ∨ (settledRow envs title stored r).status = r.status
        ∧ ¬ ∃ e, settleRequest title stored r = .complete e := by
  unfold settledRow
  cases hsettled : settleRequest title stored r with
  | keep => exact .inr ⟨rfl, by simp⟩
  | seasons e => exact .inr ⟨((settleRequest_spec htv).1 hsettled).1, by simp⟩
  | complete e => exact .inl ⟨((settleRequest_spec htv).2 hsettled).1, e, rfl⟩

/-- A settled request waits for what it did. -/
theorem settledRow_there (htv : title.mediaType = "tv") (hnodup : (r.seasons.map (·.id)).Nodup) :
    everythingThere title (settledRow envs title stored r) = everythingThere title r := by
  have hsaved : ∀ e : RequestRow,
      e.seasons = r.seasons.map (fun s => (settleSeason title.seasons stored r.is4k s).1) →
      everythingThere title (savedRow (envs e.id).now e r) = everythingThere title r := by
    intro e he
    have hstatuses := savedRow_seasons (envs e.id).now
      (settleSeason_id title.seasons stored r.is4k) he hnodup
    have hfailed := congrArg
      (List.map fun p : Int × Int => (p.1, p.2 == RequestStatus.failed)) hstatuses
    rw [List.map_map, List.map_map] at hfailed
    refine everythingThere_congr rfl (hfailed.trans (List.map_congr_left fun s _ => ?_))
    have hiff := settleSeason_failed_iff title.seasons stored r.is4k s
    simp only [Function.comp_apply, Prod.mk.injEq, true_and]
    exact Bool.eq_iff_iff.mpr (by simpa using hiff)
  unfold settledRow
  cases hsettled : settleRequest title stored r with
  | keep => rfl
  | seasons e => exact hsaved e ((settleRequest_spec htv).1 hsettled).2
  | complete e => exact hsaved e ((settleRequest_spec htv).2 hsettled).2

theorem settledRow_waits (mediaId : Int) (fourK : Bool)
    (hstatus : (settledRow envs title stored r).status = r.status) :
    waits mediaId fourK (settledRow envs title stored r) = waits mediaId fourK r := by
  have hrest : (settledRow envs title stored r).mediaId = r.mediaId
      ∧ (settledRow envs title stored r).is4k = r.is4k
      ∧ (settledRow envs title stored r).episodes.isEmpty = r.episodes.isEmpty := by
    unfold settledRow
    split <;> simp [savedRow, savedChildren]
  simp only [waits, RequestRow.openFor, hstatus, hrest]

end Settles

/-- **One save**: it leaves no request waiting for what is there exactly under the
condition. -/
theorem completes_iff {s t : Tables} {act : Act} (h : Step s act t) :
    act.Completes s t ↔ Ok s act := by
  cases act with
  | request | fail | failSeasons => exact Iff.rfl
  | save now envs edit orphans =>
    refine forall_congr' fun hsaved => forall₂_congr fun fourK hbrings => ?_
    obtain ⟨⟨db', after⟩, hsave⟩ := Option.isSome_iff_exists.mp hsaved
    have hdb : t.db = db' := by
      rw [h]
      simp [Act.apply, Act.run, hsave]
    have htv := hbrings.1
    have hrequests := saveTitle_requests s.keys hsave
    have hkeys := s.keys.approved envs edit
    have hwaits : ∀ r, waits edit.after.id fourK r = true →
        r.openFor edit.after.id = true ∧ r.is4k = fourK ∧ r.episodes = [] := by
      intro r hr
      simpa [waits, and_assoc] using hr
    rw [hdb, hrequests]
    constructor
    · intro hcompletes r hr hwait hthere
      obtain ⟨hopen, hq, hepisodes⟩ := hwaits r hwait
      have hleft := fun r' hr' => hcompletes r' (List.mem_map.mpr ⟨r, hr, hr'⟩)
      by_cases hlooks : edit.mediaChanged = true ∧ completes edit edit.after
          (storedSeasons (edit.approved envs s.db) edit.after.id) fourK = true
      · refine ⟨hlooks.1, hlooks.2, ?_⟩
        have hrow := hleft _ (if_pos ⟨hlooks.1, hopen, hq ▸ hlooks.2⟩)
        rcases settledRow_status htv envs
            (storedSeasons (edit.approved envs s.db) edit.after.id) r with
          ⟨-, hcomplete⟩ | ⟨hstatus, -⟩
        · exact hq ▸ (settleRequest_complete_iff htv hepisodes hthere).mp hcomplete
        · rw [settledRow_waits _ _ hstatus, settledRow_there htv (hkeys.seasons_nodup hr)] at hrow
          exact absurd hthere (by simp [hrow hwait])
      · have hrow := hleft r (if_neg fun hlooks' => hlooks ⟨hlooks'.1, hq ▸ hlooks'.2.2⟩) hwait
        exact absurd hthere (by simp [hrow])
    · intro hok r' hr' hwait'
      obtain ⟨r, hr, rfl⟩ := List.mem_map.mp hr'
      by_contra hthere
      rw [Bool.not_eq_false] at hthere
      split at hwait'
      · next hlooks =>
        rw [if_pos hlooks] at hthere
        rcases settledRow_status htv envs
            (storedSeasons (edit.approved envs s.db) edit.after.id) r with
          ⟨hstatus, -⟩ | ⟨hstatus, hnot⟩
        · have hopen := (hwaits _ hwait').1
          simp [RequestRow.openFor, hstatus] at hopen
        · rw [settledRow_waits _ _ hstatus] at hwait'
          rw [settledRow_there htv (hkeys.seasons_nodup hr)] at hthere
          obtain ⟨-, hq, hepisodes⟩ := hwaits r hwait'
          have hready := (hok r hr hwait' hthere).2.2
          exact hnot ((settleRequest_complete_iff htv hepisodes hthere).mpr (hq ▸ hready))
      · next hlooks =>
        rw [if_neg hlooks] at hthere
        obtain ⟨hopen, hq, -⟩ := hwaits r hwait'
        obtain ⟨hchanged, hcompletes, -⟩ := hok r hr hwait' hthere
        exact hlooks ⟨hchanged, hopen, hq ▸ hcompletes⟩

/-- **Requests complete once everything is there.** Over a run of saves of a title,
approvals, failures and retries, every save leaves no request waiting for what is there
exactly when every save meets the condition. -/
theorem completes_once_there {s t : Tables} {acts : List Act} :
    Run (Guarded Step Ok) s acts t
      ↔ Run (fun s act t => Step s act t ∧ act.Completes s t) s acts t := by
  refine Run.congr fun s act t => ?_
  constructor
  · intro ⟨hok, hstep⟩
    exact ⟨hstep, (completes_iff hstep).mpr hok⟩
  · intro ⟨hstep, hcompletes⟩
    exact ⟨(completes_iff hstep).mp hcompletes, hstep⟩

/-! ### A retried request -/

/-- A series of two seasons, and a request for both, sent to Sonarr. -/
def twoSeasons : Tables where
  db :=
    { media := [{ id := 1, mediaType := "tv", tvdbId := some 7, status := MediaStatus.processing
                  seasons :=
                    [{ id := 1, seasonNumber := 1, status := MediaStatus.processing }
                    , { id := 2, seasonNumber := 2, status := MediaStatus.processing }] }]
      requests := [{ id := 1, status := RequestStatus.approved, requestType := "tv"
                     mediaId := some 1
                     seasons :=
                       [{ id := 1, seasonNumber := 1, status := RequestStatus.approved }
                       , { id := 2, seasonNumber := 2, status := RequestStatus.approved }] }] }
  keys := by decide

/-- A Sonarr that takes what it is sent. -/
def takingSonarr : HookEnv where
  now := ""
  radarr := ⟨false, false, false⟩
  sonarr := ⟨true, some (some 7), none, true, true⟩

/-- The save of a season that came in. -/
def seasonCame (s : Tables) (number status : Int) : Act :=
  let row := (s.db.mediaById 1).getD {}
  let edit := (MediaEdit.new row).setSeasonStatus number false MediaStatus.available
  .save "" (fun _ => takingSonarr) { edit with after := { edit.after with status := status } } []

/-- The first season came in. -/
def firstCame : Tables := (seasonCame twoSeasons 1 MediaStatus.partially).apply twoSeasons

/-- Then Sonarr failed, and the request was retried. -/
def retried : Tables :=
  (Act.request takingSonarr 1 RequestStatus.approved none).apply ((Act.fail "" 1).apply firstCame)

/-- **A retried request stays open**: the retry resets the season completed before, and
the save that brings the other one does not look at it again. -/
theorem retried_stays_open :
    Run Step twoSeasons [seasonCame twoSeasons 1 MediaStatus.partially, .fail "" 1,
        .request takingSonarr 1 RequestStatus.approved none] retried
      ∧ ¬ (seasonCame retried 2 MediaStatus.available).Completes retried
        ((seasonCame retried 2 MediaStatus.available).apply retried) := by
  refine ⟨.cons rfl (.cons rfl (.single rfl)), fun hcompletes => ?_⟩
  have hthere := hcompletes (by decide +kernel) false
    ⟨by decide +kernel, by decide +kernel, by decide +kernel⟩
    (((seasonCame retried 2 MediaStatus.available).apply retried).db.requests.headD {})
    (by decide +kernel) (by decide +kernel)
  exact absurd hthere (by decide +kernel)

end MediaSave

end Foreseerr

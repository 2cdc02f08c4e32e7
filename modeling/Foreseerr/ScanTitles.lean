import Foreseerr.SeasonResets
import Foreseerr.TitleFrames

/-!
# The titles a scan goes through

`process_movie` and `process_show` of `jobs/scanmedia.rs` take what a server has of a
title: a stored one is updated and saved with its hooks, any other is inserted. At the
end of a run `resolve_resets` lets the titles fall back that no server pursues.

None of these writes is about another title than its own, and on a title that is
blocklisted an entry that is neither processing nor has a file changes no status.
-/

namespace Foreseerr

/-! ## Titles that are not stored -/

/-- `new_movie`: nothing is created for a movie without a file that is not
processing. -/
def newMovie (tmdbId : Int) (o : MovieOpts) (enable4k : Bool) : Option MediaRow :=
  if !o.processing && !o.hasFile then none
  else
    let status := if o.processing then MediaStatus.processing else MediaStatus.available
    let pick (fourK : Bool) (v : Option String) : Option String := if fourK then v else none
    let m : MediaRow :=
      { mediaType := "movie"
        tmdbId := tmdbId
        imdbId := o.imdbId
        status := if o.is4k then MediaStatus.unknown else status
        status4k := if o.is4k && enable4k then status else MediaStatus.unknown
        mediaAddedAt := o.mediaAddedAt.map iso }
    let m := (setServices m o.is4k o.services).1
    let m :=
      if (nonEmpty o.ratingKey).isSome then
        { m with
          ratingKey := pick (!o.is4k) o.ratingKey
          ratingKey4k := pick (o.is4k && enable4k) o.ratingKey }
      else m
    some <|
      if (nonEmpty o.jellyfinMediaId).isSome then
        { m with
          jellyfinMediaId := pick (!o.is4k) o.jellyfinMediaId
          jellyfinMediaId4k := pick (o.is4k && enable4k) o.jellyfinMediaId }
      else m

/-- `new_show`. -/
def newShow (tmdbId : Int) (tvdb : Option Int) (scanned : List ProcessableSeason) (o : ShowOpts)
    (enable4k : Bool) : MediaRow :=
  let seasons : List SeasonRow := scanned.map fun season =>
    let statuses := scannedStatuses none season enable4k
    { seasonNumber := season.seasonNumber, status := statuses.1, status4k := statuses.2 }
  let any (fourK : Bool) : Bool := seasons.any fun s =>
    s.statusOf fourK = MediaStatus.partially || s.statusOf fourK = MediaStatus.available
  let standard := any false
  let uhd := enable4k && any true
  let m : MediaRow :=
    { mediaType := "tv"
      tmdbId := tmdbId
      tvdbId := tvdb
      mediaAddedAt := o.mediaAddedAt.map iso
      ratingKey := o.ratingKey.filter fun _ => standard
      ratingKey4k := o.ratingKey.filter fun _ => uhd
      jellyfinMediaId := o.jellyfinMediaId.filter fun _ => standard
      jellyfinMediaId4k := o.jellyfinMediaId.filter fun _ => uhd
      status := rollupShowStatus seasons scanned false none true
      status4k := rollupShowStatus seasons scanned true none enable4k }
  { (setServices m o.is4k o.services).1 with seasons := seasons }

/-- An id no title has. -/
def Db.nextMediaId (db : Db) : Int :=
  (db.media.map (·.id)).foldl max 0 + 1

/-- `insert_media`: the title with its seasons. A TVDB id another row holds is left
out. -/
def Db.insertMedia (db : Db) (now : String) (m : MediaRow) : Db :=
  { db with
    media := db.media ++ [{ m with
      id := db.nextMediaId
      tvdbId := m.tvdbId.filter fun id => !db.media.any (·.tvdbId == some id)
      createdAt := some now
      updatedAt := some now
      lastSeasonChange := some now
      mediaAddedAt := m.mediaAddedAt.or (some now)
      seasons := m.seasons.mapIdx fun i s =>
        { s with
          id := db.nextSeasonId + i
          mediaId := some db.nextMediaId
          createdAt := some now
          updatedAt := some now } }] }

theorem le_foldl_max (l : List Int) (a : Int) : a ≤ l.foldl max a ∧ ∀ x ∈ l, x ≤ l.foldl max a := by
  induction l generalizing a with
  | nil => simp
  | cons b l ih =>
    obtain ⟨hmax, hrest⟩ := ih (max a b)
    refine ⟨(le_max_left a b).trans hmax, fun x hx => ?_⟩
    rcases List.mem_cons.mp hx with rfl | hx
    · exact (le_max_right a x).trans hmax
    · exact hrest x hx

theorem Db.nextMediaId_fresh (db : Db) : ∀ m ∈ db.media, m.id ≠ db.nextMediaId := by
  intro m hm
  have hle := (le_foldl_max (db.media.map (·.id)) 0).2 m.id (List.mem_map_of_mem hm)
  unfold Db.nextMediaId
  omega

/-! ## A scan -/

/-- A job's scan, as far as its titles meet it: the settings, the time and what the
hooks of its saves meet. -/
structure Scan where
  enable4kMovie : Bool := false
  enable4kShow : Bool := false
  deferResets : Bool := false
  nowMs : Int := 0
  now : String := ""
  envs : HookEnvs

namespace Scan

variable (c : Scan)

/-- `find_media`. -/
def findMedia (db : Db) (tmdbId : Int) (mediaType : String) : Option MediaRow :=
  (db.mediaByTmdb tmdbId mediaType).bind fun m => db.mediaById m.id

/-- `save_existing`. Where the write is refused, the hooks before it have run. -/
def saveExisting (db : Db) (edit : MediaEdit) : Db :=
  match saveTitle c.now c.envs db edit [] with
  | some (db', _) => db'
  | none => if edit.mediaChanged then beforeUpdate c.envs db edit else db

/-- `process_movie`. -/
def processMovie (tmdbId : Int) (o : MovieOpts) (db : Db) : Db :=
  match findMedia db tmdbId "movie" with
  | some existing =>
    let (after, changed) := applyMovie existing o c.deferResets
    if changed then c.saveExisting db ⟨existing, after, []⟩ else db
  | none => (newMovie tmdbId o c.enable4kMovie).elim db (db.insertMedia c.now)

/-- `process_show`. -/
def processShow (tmdbId : Int) (tvdb : Option Int) (seasons : List ProcessableSeason)
    (o : ShowOpts) (db : Db) : Db :=
  match findMedia db tmdbId "tv" with
  | some media =>
    let update := applyShow media seasons o c.enable4kShow c.nowMs c.deferResets
    c.saveExisting db ⟨media, update.after, update.fresh⟩
  | none => db.insertMedia c.now (newShow tmdbId tvdb seasons o c.enable4kShow)

/-- `approved_requests`. -/
def approvedRequests (db : Db) (mediaId : Int) (fourK : Bool) : List Int :=
  ((db.requestsOfMedia mediaId).filter fun r =>
    r.is4k == fourK && r.status == RequestStatus.approved).map (·.id)

/-- `decline_requests`. -/
def declineRequests (db : Db) (requests : List Int) : Db :=
  requests.foldl (fun db id =>
    (db.requestById id).elim db fun e =>
      (save (c.envs e.id) db { e with status := RequestStatus.declined }).db) db

/-- The turn of `resolve_resets` for one title and quality it recorded. -/
def resolveTitle (abandoned : Int → Bool → Option Int → Bool) (mediaId : Int) (fourK : Bool)
    (db : Db) : Db :=
  match db.mediaById mediaId with
  | none => db
  | some found =>
    let declined (db : Db) : Db :=
      c.declineRequests db (approvedRequests db found.id fourK)
    if abandoned found.tmdbId fourK none = false then db
    else if found.mediaType = "movie" ∧ found.statusOf fourK = MediaStatus.processing then
      declined (c.saveExisting db ⟨found, found.setStatus fourK MediaStatus.unknown, []⟩)
    else if found.statusOf fourK = MediaStatus.unknown then declined db
    -- It was finished or deleted during the run.
    else db

/-! ## What a scan leaves of the other titles -/

variable {c} {db : Db} {m : MediaRow}

theorem findMedia_eq (hnodup : (db.media.map (·.id)).Nodup) (tmdbId : Int) (mediaType : String) :
    findMedia db tmdbId mediaType = db.mediaByTmdb tmdbId mediaType := by
  unfold findMedia
  cases hfound : db.mediaByTmdb tmdbId mediaType with
  | none => rfl
  | some m => exact Db.Spares.mediaById hnodup hfound

theorem saveExisting_spares (db : Db) {edit : MediaEdit} {id : Int} (hid : edit.after.id = id) :
    (c.saveExisting db edit).Spares (some id) db := by
  rw [← hid]
  unfold saveExisting
  split
  · next hsaved => exact saveTitle_spares hsaved
  · split
    · exact beforeUpdate_spares c.envs db edit
    · exact .refl _ db

/-! ### A movie -/

section Movies

variable {o : MovieOpts}

/-- An entry leaves the columns its movie is found by. -/
theorem applyMovie_sameTitle (m : MediaRow) (o : MovieOpts) (deferResets : Bool) :
    (applyMovie m o deferResets).1.SameTitle m := by
  have hstatus : (settleMovieStatus m o (movieResetDeferred m o deferResets)).1.SameTitle m := by
    unfold settleMovieStatus MediaRow.setStatus MediaRow.addedAt
    dsimp only
    repeat' split
    all_goals exact ⟨rfl, rfl, rfl⟩
  have hadded : ∀ (m : MediaRow) changed, (settleMediaAddedAt m changed o).1.SameTitle m := by
    intro m changed
    unfold settleMediaAddedAt MediaRow.addedAt
    repeat' split
    all_goals exact ⟨rfl, rfl, rfl⟩
  have hkey : ∀ m : MediaRow, (settleRatingKey m o).1.SameTitle m := by
    intro m
    unfold settleRatingKey
    split <;> exact ⟨rfl, rfl, rfl⟩
  have hjellyfin : ∀ m : MediaRow, (settleJellyfinMediaId m o).1.SameTitle m := by
    intro m
    unfold settleJellyfinMediaId
    split <;> exact ⟨rfl, rfl, rfl⟩
  have himdb : ∀ m : MediaRow, (settleImdbId m o).1.SameTitle m := by
    intro m
    unfold settleImdbId
    repeat' split
    all_goals exact ⟨rfl, rfl, rfl⟩
  have hsettled : (settled m o deferResets).SameTitle m :=
    (himdb _).trans ((hjellyfin _).trans ((hkey _).trans ((hadded _ _).trans hstatus)))
  rw [applyMovie_eq]
  split
  · exact hsettled
  · refine .trans ?_ hsettled
    unfold MediaRow.setServicesOf
    split <;> exact ⟨rfl, rfl, rfl⟩

/-- **An entry that is neither processing nor has a file** leaves a blocklisted movie's
statuses. -/
theorem applyMovie_statusOf (hblock : m.Blocklisted) (hprocessing : o.processing = false)
    (hfile : o.hasFile = false) (deferResets fourK : Bool) :
    (applyMovie m o deferResets).1.statusOf fourK = m.statusOf fourK := by
  obtain ⟨hown, -, hother, -⟩ := applyMovie_spec m o deferResets
  have hstatus : ∀ q, m.statusOf q = MediaStatus.blocklisted := by
    intro q
    cases q
    · exact hblock.1
    · exact hblock.2
  by_cases hq : fourK = o.is4k
  · rw [hq, hown, hstatus]
    simp [statusAfter, deferredAt, nextMovieStatus, hprocessing, hfile]
  · rw [Bool.eq_not.mpr hq, hother]

/-- What `process_movie` does with a movie that is stored. -/
theorem processMovie_stored (hnodup : (db.media.map (·.id)).Nodup) {tmdbId : Int}
    (hfound : db.mediaByTmdb tmdbId "movie" = some m) :
    c.processMovie tmdbId o db
      = if (applyMovie m o c.deferResets).2 then
          c.saveExisting db ⟨m, (applyMovie m o c.deferResets).1, []⟩
        else db := by
  unfold processMovie
  rw [findMedia_eq hnodup, hfound]

theorem processMovie_spares (hnodup : (db.media.map (·.id)).Nodup) {tmdbId : Int}
    (hfound : db.mediaByTmdb tmdbId "movie" = some m) :
    (c.processMovie tmdbId o db).Spares (some m.id) db := by
  rw [processMovie_stored hnodup hfound]
  split
  · exact saveExisting_spares db (applyMovie_sameTitle m o c.deferResets).id
  · exact .refl _ db

/-- **A blocklisted movie** a server has nothing of stays blocklisted. -/
theorem processMovie_spares_blocklisted (hnodup : (db.media.map (·.id)).Nodup) {tmdbId : Int}
    (hfound : db.mediaByTmdb tmdbId "movie" = some m) (hblock : m.Blocklisted)
    (hprocessing : o.processing = false) (hfile : o.hasFile = false) :
    (c.processMovie tmdbId o db).Spares none db := by
  have htype : m.mediaType = "movie" := by
    have hkey := List.find?_some hfound
    simp only [Bool.and_eq_true, beq_iff_eq] at hkey
    exact hkey.2
  have hstatus := applyMovie_statusOf hblock hprocessing hfile c.deferResets
  have hmovie := (applyMovie_sameTitle m o c.deferResets).mediaType.trans htype
  rw [processMovie_stored hnodup hfound]
  split
  · unfold saveExisting
    split
    · next hsaved => exact saveTitle_spares_movie hsaved hmovie hstatus
    · split
      · rw [beforeUpdate_of_statuses c.envs db hstatus]
        exact .refl _ db
      · exact .refl _ db
  · exact .refl _ db

/-- A movie that is not stored is inserted, or nothing is. -/
theorem processMovie_new {tmdbId : Int} (hfound : db.mediaByTmdb tmdbId "movie" = none) :
    c.processMovie tmdbId o db = db
      ∨ ∃ row, c.processMovie tmdbId o db = db.insertMedia c.now row := by
  have hnone : findMedia db tmdbId "movie" = none := by
    unfold findMedia
    rw [hfound]
    rfl
  unfold processMovie
  rw [hnone]
  cases newMovie tmdbId o c.enable4kMovie with
  | none => exact .inl rfl
  | some row => exact .inr ⟨row, rfl⟩

end Movies

/-! ### A show -/

section Shows

variable {tvdb : Option Int} {seasons : List ProcessableSeason} {o : ShowOpts}

theorem foldl_scanSeason_id (loaded : Nat) (o : ShowOpts) (enable4k deferResets : Bool)
    (seasons : List ProcessableSeason) (scan : ShowScan) :
    (seasons.foldl (scanSeason loaded o enable4k deferResets) scan).media.id = scan.media.id := by
  induction seasons generalizing scan with
  | nil => rfl
  | cons season seasons ih =>
    refine (ih _).trans ?_
    unfold scanSeason
    dsimp only
    split <;> rfl

theorem applyShow_id (media : MediaRow) (seasons : List ProcessableSeason) (o : ShowOpts)
    (enable4k : Bool) (nowMs : Int) (deferResets : Bool) :
    (applyShow media seasons o enable4k nowMs deferResets).after.id = media.id := by
  refine Eq.trans ?_ (foldl_scanSeason_id media.seasons.length o enable4k deferResets seasons
    { media := media })
  unfold applyShow
  dsimp only
  split
  · rfl
  · exact (setServices_seasons ..).2

theorem processShow_spares (hnodup : (db.media.map (·.id)).Nodup) {tmdbId : Int}
    (hfound : db.mediaByTmdb tmdbId "tv" = some m) :
    (c.processShow tmdbId tvdb seasons o db).Spares (some m.id) db := by
  unfold processShow
  rw [findMedia_eq hnodup, hfound]
  exact saveExisting_spares db (applyShow_id m seasons o c.enable4kShow c.nowMs c.deferResets)

/-- A show that is not stored is inserted. -/
theorem processShow_new {tmdbId : Int} (hfound : db.mediaByTmdb tmdbId "tv" = none) :
    ∃ row, c.processShow tmdbId tvdb seasons o db = db.insertMedia c.now row := by
  have hnone : findMedia db tmdbId "tv" = none := by
    unfold findMedia
    rw [hfound]
    rfl
  unfold processShow
  rw [hnone]
  exact ⟨_, rfl⟩

end Shows

/-! ### The end of a run -/

/-- The requests of one title declined. -/
theorem declineRequests_spares (hnodup : (db.requests.map (·.id)).Nodup) {requests : List Int}
    {mediaId : Int}
    (hrequests : ∀ id ∈ requests, ∃ r ∈ db.requests, r.id = id ∧ r.mediaId = some mediaId) :
    (c.declineRequests db requests).Spares (some mediaId) db := by
  refine .foldl_of fun id hid db' hsince => ?_
  obtain ⟨r, hr, rfl, howner⟩ := hrequests id hid
  cases he : db'.requestById r.id with
  | none => exact .refl _ db'
  | some e =>
    have hsame := (hsince.owner_eq hnodup hr he).trans howner
    exact hsame ▸ (save_within (c.envs e.id) db' { e with status := RequestStatus.declined }).spares

theorem mem_approvedRequests {mediaId : Int} {fourK : Bool} {id : Int}
    (h : id ∈ approvedRequests db mediaId fourK) :
    ∃ r ∈ db.requests, r.id = id ∧ r.mediaId = some mediaId := by
  obtain ⟨r, hr, rfl⟩ := List.mem_map.mp h
  have hof := List.mem_filter.mp (List.mem_of_mem_filter hr)
  exact ⟨r, hof.1, rfl, by simpa using hof.2⟩

theorem resolveTitle_spares (hnodup : (db.requests.map (·.id)).Nodup)
    (abandoned : Int → Bool → Option Int → Bool) (mediaId : Int) (fourK : Bool) :
    (c.resolveTitle abandoned mediaId fourK db).Spares (some mediaId) db := by
  unfold resolveTitle
  split
  · exact .refl _ db
  · next found hfound =>
    have hid := Db.mediaById_id hfound
    have hdeclined : ∀ db' : Db, db'.Spares (some mediaId) db →
        (c.declineRequests db' (approvedRequests db' found.id fourK)).Spares (some mediaId) db' :=
      fun db' hsince => declineRequests_spares (hsince.requests_nodup hnodup)
        fun id hmem => hid ▸ mem_approvedRequests hmem
    dsimp only
    split_ifs
    · exact .refl _ db
    · have hsaved : (c.saveExisting db ⟨found, found.setStatus fourK MediaStatus.unknown, []⟩).Spares
          (some mediaId) db := by
        refine saveExisting_spares db ((show _ = found.id from ?_).trans hid)
        cases fourK <;> rfl
      exact (hdeclined _ hsaved).trans hsaved
    · exact hdeclined db (.refl _ db)
    · exact .refl _ db

/-- A blocklisted title is neither processing nor unknown. -/
theorem resolveTitle_blocklisted (abandoned : Int → Bool → Option Int → Bool) {mediaId : Int}
    (fourK : Bool) (hfound : db.mediaById mediaId = some m) (hblock : m.Blocklisted) :
    c.resolveTitle abandoned mediaId fourK db = db := by
  have hstatus : m.statusOf fourK = MediaStatus.blocklisted := by
    cases fourK
    · exact hblock.1
    · exact hblock.2
  unfold resolveTitle
  simp [hfound, hstatus]

end Scan

namespace SeasonReset

open Writes

variable {c : SeasonReset} {db : Db} {about : Option Int}

theorem deleteSeasonRequest_spares (about : Option Int) (db : Db) (id : Int) :
    (db.deleteSeasonRequest id).Spares about db := by
  refine .of_media rfl ?_
  unfold Db.deleteSeasonRequest
  rw [List.map_map]
  exact .refl _

theorem completeRequest_spares (about : Option Int) (db : Db) (id : Int) :
    ((c.completeRequest id).final db).Spares about db := by
  unfold completeRequest
  rw [final_reading]
  cases db.requestById id with
  | none => exact .refl about db
  | some e => exact writeRequest_spares about c.now db _

/-- A trim writes no title. -/
theorem trimRequest_spares (about : Option Int) (db : Db) (t : Trim) :
    ((c.trimRequest t).final db).Spares about db := by
  have hdeleted : ((each (fun id => write Cut.deleteSeason (·.deleteSeasonRequest id))
      t.removed).final db).Spares about db := by
    rw [final_each]
    exact .foldl (fun id _ db => deleteSeasonRequest_spares about db id) db
  have hunits : ∀ db : Db, (db.updateRequest t.requestId fun r =>
      { r with tvQuotaUnits := t.kept }).Spares about db := by
    intro db
    refine .of_media rfl ?_
    unfold Db.updateRequest
    rw [List.map_map]
    refine (List.map_congr_left fun r _ => ?_).symm ▸ .refl _
    simp only [Function.comp_apply]
    split <;> rfl
  have hcompleted : ∀ db : Db, ((if t.completed then c.completeRequest t.requestId
      else skip).final db).Spares about db := by
    intro db
    split
    · exact completeRequest_spares about db t.requestId
    · exact .refl about db
  exact (hcompleted _).trans ((hunits _).trans hdeleted)

theorem approveWrites_spares (db : Db) (mediaId : Int) (fourK : Bool) :
    ((c.approveWrites mediaId fourK).final db).Spares (some mediaId) db := by
  unfold approveWrites
  rw [final_reading, final_each]
  exact approveChildren_spares c.envs db mediaId fourK

theorem saveTitleWrites_spares (db : Db) (edit : MediaEdit) :
    ((c.saveTitleWrites edit).final db).Spares (some edit.after.id) db := by
  have hbefore : ((c.beforeUpdateWrites edit).final db).Spares (some edit.after.id) db := by
    unfold beforeUpdateWrites
    rw [final_each]
    refine .foldl (fun fourK _ db => ?_) db
    split
    · exact approveWrites_spares db edit.after.id fourK
    · exact .refl _ db
  have hwrite : ∀ db : Db, (((writeTitle c.now db edit []).map Prod.fst).getD db).Spares
      (some edit.after.id) db := by
    intro db
    cases hwritten : writeTitle c.now db edit [] with
    | none => exact .refl _ db
    | some saved => exact (writeTitle_spares hwritten (.inl rfl)).2
  have hafter : ∀ (db : Db) dbSeasons,
      ((c.afterUpdateWrites edit dbSeasons).final db).Spares (some edit.after.id) db := by
    intro db dbSeasons
    unfold afterUpdateWrites
    rw [final_each]
    refine .foldl (fun fourK _ db => ?_) db
    split
    · rw [final_reading, final_each]
      exact saves_spares c.envs (fun e he => relatedSaves_mediaId he) db
    · exact .refl _ db
  unfold saveTitleWrites
  dsimp only
  split
  · rw [final_andThen, final_reading, final_andThen, final_write]
    exact (hafter _ _).trans ((hwrite _).trans hbefore)
  · exact hwrite db

/-- The decline of a request of the title. -/
theorem declineRequest_spares {id : Int}
    (howner : ∀ e, db.requestById id = some e → e.mediaId = about) :
    ((c.declineRequest id).final db).Spares about db := by
  unfold declineRequest
  rw [final_reading]
  cases he : db.requestById id with
  | none => exact .refl about db
  | some e =>
    have hwritten := writeRequest_within c.now db { e with status := RequestStatus.declined }
    have hmedia : ({ e with status := RequestStatus.declined } : RequestRow).mediaId = about :=
      howner e he
    simp only [Option.elim_some, final_andThen, final_write]
    split
    · exact hmedia ▸ ((updateParentStatus_within c.now _).trans hwritten).spares
    · exact hmedia ▸ hwritten.spares

/-- **The decline of a request of a blocklisted show** writes no status of it. -/
theorem declineRequest_spares_blocklisted {id : Int}
    (howner : ∀ e, db.requestById id = some e →
      ∃ m, e.mediaId.bind db.mediaById = some m ∧ m.mediaType = "tv" ∧ m.Blocklisted) :
    ((c.declineRequest id).final db).Spares none db := by
  unfold declineRequest
  rw [final_reading]
  cases he : db.requestById id with
  | none => exact .refl none db
  | some e =>
    obtain ⟨m, hmedia, htv, hblock⟩ := howner e he
    set saved := writeRequest c.now db { e with status := RequestStatus.declined } with hsaved
    have hwritten : saved.1.db.Spares none db := writeRequest_spares none c.now db _
    have hstored : saved.1.e.mediaId.bind saved.1.db.mediaById = some m := by
      have hsame : saved.1.db.mediaById = db.mediaById :=
        funext fun _ => Db.mediaById_congr (writeRequest_media c.now db _) _
      rw [hsame, hsaved, writeRequest_mediaId]
      exact hmedia
    have hdeclined : saved.1.e.status = RequestStatus.declined := writeRequest_status c.now db _
    have htitle : settleTitle c.now saved.1.db m saved.1.e = saved.1.db := by
      have hstatus : m.statusOf saved.1.e.is4k = MediaStatus.blocklisted := by
        cases saved.1.e.is4k
        · exact hblock.1
        · exact hblock.2
      simp [settleTitle, hdeclined, htv, hstatus]
    simp only [Option.elim_some, final_andThen, final_write]
    split
    · have hkept : (settleTitle c.now saved.1.db m saved.1.e).Spares none saved.1.db := by
        rw [htitle]
        exact .refl none _
      exact (updateParentStatus_of_title hstored hkept).2.trans hwritten
    · exact hwritten

/-! ### The work of a call -/

theorem work_edit {edit : MediaEdit} (h : (c.work db).edit = some edit) :
    edit.after.id = c.mediaId := by
  unfold work at h
  split at h
  · exact absurd h (by simp)
  · next media hmedia =>
    split at h
    · exact absurd h (by simp)
    · dsimp only at h
      split at h
      · cases h
        refine Eq.trans ?_ (Db.mediaById_id hmedia)
        unfold afterReset
        dsimp only
        cases c.fourK <;> split <;> rfl
      · exact absurd h (by simp)

theorem work_decline {id : Int} (h : id ∈ (c.work db).plan.decline) :
    ∃ r ∈ db.requests, r.id = id ∧ r.mediaId = some c.mediaId := by
  unfold work at h
  split at h
  · exact absurd h (by simp)
  · split at h
    · exact absurd h (by simp)
    · obtain ⟨r, hr, rfl⟩ := List.mem_map.mp h
      obtain ⟨hmem, happroved⟩ := List.mem_filter.mp (List.mem_of_mem_filter hr)
      simp only [approved, Bool.and_eq_true, beq_iff_eq] at happroved
      exact ⟨r, hmem, rfl, happroved.1.1⟩

theorem resolve_final (db : Db) : c.resolve.final db
    = (each c.declineRequest (c.work db).plan.decline).final
        (((c.work db).edit.elim skip c.saveTitleWrites).final
          ((each c.trimRequest (c.work db).plan.trim).final db)) := rfl

theorem trims_spares (about : Option Int) (db : Db) (trims : List Trim) :
    ((each c.trimRequest trims).final db).Spares about db := by
  rw [final_each]
  exact .foldl (fun t _ db => trimRequest_spares about db t) db

/-- **The seasons of a title are settled** without a write about another title. -/
theorem resolve_spares (hnodup : (db.requests.map (·.id)).Nodup) :
    (c.resolve.final db).Spares (some c.mediaId) db := by
  have hsaved : ∀ db' : Db, (((c.work db).edit.elim skip c.saveTitleWrites).final db').Spares
      (some c.mediaId) db' := by
    intro db'
    cases hedit : (c.work db).edit with
    | none => exact .refl _ db'
    | some edit => exact work_edit hedit ▸ saveTitleWrites_spares db' edit
  have hbefore := (hsaved _).trans (trims_spares (c := c) (some c.mediaId) db (c.work db).plan.trim)
  rw [resolve_final, final_each]
  refine .trans (.foldl_of fun id hid db' hsince => declineRequest_spares fun e he => ?_) hbefore
  obtain ⟨r, hr, rfl, howner⟩ := work_decline hid
  exact ((hsince.trans hbefore).owner_eq hnodup hr he).trans howner

/-- **A blocklisted show none of whose seasons falls back** is left blocklisted. -/
theorem resolve_spares_blocklisted (hrequests : (db.requests.map (·.id)).Nodup)
    (htitles : (db.media.map (·.id)).Nodup) {tmdbId : Int} {m : MediaRow}
    (hfound : db.mediaByTmdb tmdbId "tv" = some m) (hid : m.id = c.mediaId) (hblock : m.Blocklisted)
    (hresets : c.resets m = false) : (c.resolve.final db).Spares none db := by
  have hedit : (c.work db).edit = none := by
    unfold work
    rw [← hid, Db.Spares.mediaById htitles hfound]
    dsimp only
    split
    · rfl
    · simp [hresets]
  have hbefore := trims_spares (c := c) none db (c.work db).plan.trim
  rw [resolve_final, hedit, final_each]
  refine .trans (.foldl_of fun id hmem db' hsince =>
    declineRequest_spares_blocklisted fun e he => ?_) hbefore
  have hall := hsince.trans hbefore
  obtain ⟨r, hr, rfl, howner⟩ := work_decline hmem
  obtain ⟨m', hm', hid', hblock'⟩ := hall.found hfound (by simp) hblock
  have hnodup := hall.titles.nodup htitles
  refine ⟨m', ?_, ?_, hblock'⟩
  · rw [(hall.owner_eq hrequests hr he).trans howner, Option.bind_some, ← hid, ← hid']
    exact Db.Spares.mediaById hnodup hm'
  · have hkey := List.find?_some hm'
    simp only [Bool.and_eq_true, beq_iff_eq] at hkey
    exact hkey.2

end SeasonReset

end Foreseerr

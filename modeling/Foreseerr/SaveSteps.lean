import Foreseerr.TitleFrames
import Mathlib.Logic.Relation

/-!
# The statements of a save

A save of a request runs its own statements and those of its hooks, which depend on
the title, on the servers' answers and on saves the hooks run in turn. Whatever they
are, each is one of a few kinds (`SaveStep`), and the statuses they write are those of
the request and of its title that the save is about (`save_steps`).

What a relation on the tables has to do with a save is so a matter of the kinds: a
relation each kind respects is respected by the saves of requests, and by the hooks of
the save of a title.
-/

namespace Foreseerr

/-- **One statement of a save**: `writes` are the statuses written on requests, by id,
and `settles` those written on titles, by id and quality. -/
inductive SaveStep (writes : Int → Int → Prop) (settles : Int → Bool → Int → Prop) : Db → Db → Prop
  /-- The rows of a request's seasons or episodes. -/
  | children {db db' : Db} (f : RequestRow → RequestRow) (hmedia : db'.media = db.media)
      (hrequests : db'.requests = db.requests.map f)
      (hid : ∀ r, (f r).id = r.id) (hmediaId : ∀ r, (f r).mediaId = r.mediaId)
      (his4k : ∀ r, (f r).is4k = r.is4k) (hstatus : ∀ r, (f r).status = r.status) :
      SaveStep writes settles db db'
  | request {db : Db} (id status : Int) (f : RequestRow → RequestRow) (hwrites : writes id status)
      (hid : ∀ r, (f r).id = r.id) (hmediaId : ∀ r, (f r).mediaId = r.mediaId)
      (his4k : ∀ r, (f r).is4k = r.is4k) (hstatus : ∀ r, (f r).status = status) :
      SaveStep writes settles db (db.updateRequest id f)
  | title {db : Db} (now : String) (id : Int) (fourK : Bool) (status : Int)
      (hsettles : settles id fourK status) :
      SaveStep writes settles db (db.setMediaStatus now id fourK status)
  | season {db : Db} (id : Int) (f : SeasonRow → SeasonRow) :
      SaveStep writes settles db (db.updateSeason id f)
  | tvdbId {db : Db} (mediaId tvdbId : Int) :
      SaveStep writes settles db (db.rememberTvdbId mediaId tvdbId)
  | deleteTitle {db : Db} (id : Int) : SaveStep writes settles db (db.deleteMedia id)
  | deleteRequest {db : Db} (id : Int) : SaveStep writes settles db (db.deleteRequest id)

/-- The statements of saves, one after another. -/
abbrev SaveSteps (writes : Int → Int → Prop) (settles : Int → Bool → Int → Prop) :
    Db → Db → Prop :=
  Relation.ReflTransGen (SaveStep writes settles)

section Steps

variable {writes writes' : Int → Int → Prop} {settles settles' : Int → Bool → Int → Prop}

theorem SaveStep.mono {db db' : Db} (hwrites : ∀ id status, writes id status → writes' id status)
    (hsettles : ∀ id fourK status, settles id fourK status → settles' id fourK status)
    (h : SaveStep writes settles db db') : SaveStep writes' settles' db db' := by
  cases h with
  | children f hmedia hrequests hid hmediaId his4k hstatus =>
    exact .children f hmedia hrequests hid hmediaId his4k hstatus
  | request id status f hw hid hmediaId his4k hstatus =>
    exact .request id status f (hwrites id status hw) hid hmediaId his4k hstatus
  | title now id fourK status hs => exact .title now id fourK status (hsettles id fourK status hs)
  | season id f => exact .season id f
  | tvdbId mediaId tvdbId => exact .tvdbId mediaId tvdbId
  | deleteTitle id => exact .deleteTitle id
  | deleteRequest id => exact .deleteRequest id

theorem SaveSteps.mono {db db' : Db} (hwrites : ∀ id status, writes id status → writes' id status)
    (hsettles : ∀ id fourK status, settles id fourK status → settles' id fourK status)
    (h : SaveSteps writes settles db db') : SaveSteps writes' settles' db db' :=
  Relation.ReflTransGen.mono (fun _ _ hstep => hstep.mono hwrites hsettles) _ _ h

/-- A loop of statements. -/
theorem SaveSteps.foldl {α : Type*} {step : Db → α → Db} {l : List α}
    (h : ∀ a ∈ l, ∀ db, SaveSteps writes settles db (step db a)) (db : Db) :
    SaveSteps writes settles db (l.foldl step db) := by
  induction l generalizing db with
  | nil => exact .refl
  | cons a l ih =>
    exact (h a List.mem_cons_self db).trans (ih (fun b hb => h b (List.mem_cons_of_mem _ hb)) _)

/-! ## The statements on a request -/

theorem reloadDates_is4k (db : Db) (e : RequestRow) (withRow : Bool) :
    (reloadDates db e withRow).is4k = e.is4k := by
  unfold reloadDates
  split <;> rfl

theorem writeSeason_steps (now : String) (current : RequestRow) (db : Db)
    (season : SeasonRequestRow) :
    SaveSteps writes settles db (writeSeason now current db season) := by
  rw [writeSeason_eq]
  exact .single (.children _ rfl rfl (fun _ => rfl) (fun _ => rfl) (fun _ => rfl) fun _ => rfl)

theorem writeEpisode_steps (now : String) (current : RequestRow) (db : Db)
    (episode : EpisodeRequestRow) :
    SaveSteps writes settles db (writeEpisode now current db episode) := by
  rw [writeEpisode_eq]
  exact .single (.children _ rfl rfl (fun _ => rfl) (fun _ => rfl) (fun _ => rfl) fun _ => rfl)

theorem writeRows_steps (now : String) (db : Db) (e current : RequestRow) {withRow : Bool}
    (hwrites : withRow = true → writes e.id e.status) :
    SaveSteps writes settles db (writeRows now db e current withRow).1 := by
  have hrow : SaveSteps writes settles db (if (withRow && rowChanged e current) = true then
      db.updateRequest e.id fun r =>
        { r with status := e.status, modifiedById := e.modifiedById, updatedAt := some now }
      else db) := by
    split
    · next hchanged =>
      rw [Bool.and_eq_true] at hchanged
      exact .single (.request _ _ _ (hwrites hchanged.1) (fun _ => rfl) (fun _ => rfl)
        (fun _ => rfl) fun _ => rfl)
    · exact .refl
  unfold writeRows
  exact hrow.trans ((SaveSteps.foldl (fun season _ db => writeSeason_steps now current db season)
    _).trans (SaveSteps.foldl (fun episode _ db => writeEpisode_steps now current db episode) _))

theorem writeRequest_steps (now : String) (db : Db) {e : RequestRow}
    (hwrites : writes e.id e.status) :
    SaveSteps writes settles db (writeRequest now db e).1.db := by
  unfold writeRequest
  split
  · exact .refl
  · exact writeRows_steps now db e _ fun _ => hwrites

theorem writeRequest_is4k (now : String) (db : Db) (e : RequestRow) :
    (writeRequest now db e).1.e.is4k = e.is4k := by
  unfold writeRequest
  split
  · rfl
  · exact reloadDates_is4k _ e true

/-! ## The statements on its title -/

/-- What a title's status becomes once a request of it has the status. -/
def RequestRow.Settles (e : RequestRow) (id : Int) (fourK : Bool) (status : Int) : Prop :=
  e.mediaId = some id ∧ fourK = e.is4k
    ∧ (e.status = RequestStatus.approved ∧ status = MediaStatus.processing
      ∨ e.status = RequestStatus.declined ∧ status = MediaStatus.unknown)

theorem settleTitle_steps (now : String) (db : Db) (media : MediaRow) (e : RequestRow)
    (hsettles : ∀ status, (e.status = RequestStatus.approved ∧ status = MediaStatus.processing
        ∨ e.status = RequestStatus.declined ∧ status = MediaStatus.unknown) →
      settles media.id e.is4k status) :
    SaveSteps writes settles db (settleTitle now db media e) := by
  have hset : ∀ (db : Db) (p : Prop) [Decidable p] (status : Int),
      (p → e.status = RequestStatus.approved ∧ status = MediaStatus.processing
        ∨ e.status = RequestStatus.declined ∧ status = MediaStatus.unknown) →
      SaveSteps writes settles db
        (if p then db.setMediaStatus now media.id e.is4k status else db) := by
    intro db p _ status hp
    split
    · next h => exact .single (.title now media.id e.is4k status (hsettles status (hp h)))
    · exact .refl
  unfold settleTitle
  exact (hset db _ _ fun h => .inl ⟨h.1, rfl⟩).trans
    ((hset _ _ _ fun h => .inr ⟨h.2.1, rfl⟩).trans (hset _ _ _ fun h => .inr ⟨h.2.1, rfl⟩))

theorem settleChildren_steps (now : String) (db : Db) (media : MediaRow) (e : RequestRow) :
    SaveSteps writes settles db (settleChildren now db media e).db := by
  have hrelease : ∀ season ∈ e.seasons, ∀ db : Db,
      SaveSteps writes settles db (releaseSeason now media e db season) := by
    intro season _ db
    unfold releaseSeason
    split
    · split
      · exact .single (.season _ _)
      · exact .refl
    · exact .refl
  unfold settleChildren
  split_ifs
  · exact SaveSteps.foldl hrelease db
  · exact .refl
  · exact .refl

/-! ## The save and its hooks -/

/-- **What the hooks make of a save**: its request is of the title and quality it was, a
status it has not had says that a hook completed or failed it, and the tables are those
its statements left. -/
structure Saving.Hooked (writes : Int → Int → Prop) (settles : Int → Bool → Int → Prop)
    (after before : Saving) : Prop where
  id : after.e.id = before.e.id
  mediaId : after.e.mediaId = before.e.mediaId
  is4k : after.e.is4k = before.e.is4k
  status : after.e.status = before.e.status ∨ after.e.status = RequestStatus.completed
    ∨ after.e.status = RequestStatus.failed
  steps : SaveSteps writes settles before.db after.db

namespace Saving.Hooked

variable {s s' s'' : Saving}

theorem refl (s : Saving) : Hooked writes settles s s := ⟨rfl, rfl, rfl, .inl rfl, .refl⟩

theorem trans (h : Hooked writes settles s'' s') (h' : Hooked writes settles s' s) :
    Hooked writes settles s'' s where
  id := h.id.trans h'.id
  mediaId := h.mediaId.trans h'.mediaId
  is4k := h.is4k.trans h'.is4k
  status := by
    rcases h.status with hsame | hdone
    · exact hsame ▸ h'.status
    · exact .inr hdone
  steps := h'.steps.trans h.steps

/-- A title is settled by a status the request had before the hooks. -/
theorem settles_of (h : Hooked writes settles s' s) {id : Int} {fourK : Bool} {status : Int}
    (hsettles : s'.e.Settles id fourK status) : s.e.Settles id fourK status := by
  obtain ⟨hmediaId, h4k, hstatus⟩ := hsettles
  refine ⟨h.mediaId ▸ hmediaId, h4k.trans h.is4k, ?_⟩
  rcases h.status with hsame | hdone | hdone
  · rwa [hsame] at hstatus
  · simp [hdone] at hstatus
  · simp [hdone] at hstatus

end Saving.Hooked

theorem updateParentStatus_hooked (now : String) (s : Saving)
    (hsettles : ∀ id fourK status, s.e.Settles id fourK status → settles id fourK status) :
    (updateParentStatus now s).Hooked writes settles s := by
  have hchildren : ∀ (db : Db) media, SaveSteps writes settles s.db db →
      (settleChildren now db media s.e).Hooked writes settles s := by
    intro db media hsteps
    have hall := hsteps.trans (settleChildren_steps now db media s.e)
    refine ⟨settleChildren_id now db media s.e, settleChildren_mediaId now db media s.e, ?_, ?_,
      hall⟩
    · unfold settleChildren
      split_ifs <;> rfl
    · unfold settleChildren
      split_ifs <;> exact .inl rfl
  unfold updateParentStatus
  split
  · exact .refl s
  · next media hmedia =>
    obtain ⟨id, hid, hfound⟩ := Option.bind_eq_some_iff.mp hmedia
    have htitle : SaveSteps writes settles s.db (settleTitle now s.db media s.e) :=
      settleTitle_steps now s.db media s.e fun status h =>
        hsettles _ _ _ ⟨by rw [hid, Db.mediaById_id hfound], rfl, h⟩
    have hsettled := hchildren _ media htitle
    dsimp only
    split
    · refine .trans ⟨reloadDates_id _ _ false, reloadDates_mediaId _ _ false,
        reloadDates_is4k _ _ false, .inl (reloadDates_status _ _ false), ?_⟩ hsettled
      exact writeRows_steps now _ _ _ fun h => absurd h (by decide)
    · exact hsettled

theorem writeRequest_hooked (now : String) (db : Db) {e : RequestRow}
    (hwrites : writes e.id e.status) :
    (writeRequest now db e).1.Hooked writes settles ⟨db, e⟩ :=
  ⟨writeRequest_id now db e, writeRequest_mediaId now db e, writeRequest_is4k now db e,
    .inl (writeRequest_status now db e), writeRequest_steps now db hwrites⟩

/-- A hook's save of its request, which is completed or failed by it. -/
theorem saveSettled_hooked (now : String) (s : Saving) {e : RequestRow} (hid : e.id = s.e.id)
    (hmediaId : e.mediaId = s.e.mediaId) (his4k : e.is4k = s.e.is4k)
    (hstatus : e.status = RequestStatus.completed ∨ e.status = RequestStatus.failed)
    (hwrites : writes e.id e.status) : (saveSettled now s.db e).Hooked writes settles s := by
  have hstart : Saving.Hooked writes settles ⟨s.db, e⟩ s :=
    ⟨hid, hmediaId, his4k, .inr hstatus, .refl⟩
  have hwritten : (writeRequest now s.db e).1.Hooked writes settles s :=
    (writeRequest_hooked now s.db hwrites).trans hstart
  unfold saveSettled
  dsimp only
  split
  · refine .trans (updateParentStatus_hooked now _ fun id fourK status h => ?_) hwritten
    have hsame : (writeRequest now s.db e).1.e.status = e.status := writeRequest_status now s.db e
    have hdone := h.2.2
    rw [hsame] at hdone
    rcases hstatus with heq | heq <;> simp [heq] at hdone
  · exact hwritten

section Hooks

variable (env : HookEnv) {s : Saving}

/-- What the hooks of a save may write. -/
structure Saving.Open (writes : Int → Int → Prop) (s : Saving) : Prop where
  completed : writes s.e.id RequestStatus.completed
  failed : writes s.e.id RequestStatus.failed

theorem Saving.Open.of_hooked {s' : Saving} (h : s.Open writes)
    (hooked : s'.Hooked writes settles s) : s'.Open writes :=
  ⟨hooked.id ▸ h.completed, hooked.id ▸ h.failed⟩

theorem sendToRadarrInner_hooked (hopen : s.Open writes) :
    (sendToRadarrInner env s).1.Hooked writes settles s := by
  unfold sendToRadarrInner
  split
  · exact .refl s
  · split
    · exact .refl s
    · split
      · exact .refl s
      · split
        · exact saveSettled_hooked env.now s rfl rfl rfl (.inl rfl) hopen.completed
        · exact .refl s

theorem sendToRadarr_hooked (hopen : s.Open writes) :
    (sendToRadarr env s).Hooked writes settles s := by
  have hinner : (sendToRadarrInner env s).1.Hooked writes settles s :=
    sendToRadarrInner_hooked env hopen
  unfold sendToRadarr
  split
  · exact .refl s
  · dsimp only
    split
    · exact .trans (saveSettled_hooked env.now _ rfl rfl rfl (.inr rfl)
        (hopen.of_hooked hinner).failed) hinner
    · exact hinner

theorem sendToSonarrInner_hooked (hopen : s.Open writes) :
    (sendToSonarrInner env s).1.Hooked writes settles s := by
  unfold sendToSonarrInner
  split
  · exact .refl s
  · split
    · split
      · exact saveSettled_hooked env.now s rfl rfl rfl (.inl rfl) hopen.completed
      · split
        · exact .refl s
        · split
          · exact .refl s
          · exact ⟨rfl, rfl, rfl, .inl rfl, .single (.tvdbId _ _)⟩
          · exact ⟨rfl, rfl, rfl, .inl rfl,
              .tail (.single (.deleteTitle _)) (.deleteRequest _)⟩
    · exact .refl s

theorem sendToSonarr_hooked (hopen : s.Open writes) :
    (sendToSonarr env s).Hooked writes settles s := by
  have hinner : (sendToSonarrInner env s).1.Hooked writes settles s :=
    sendToSonarrInner_hooked env hopen
  unfold sendToSonarr
  split
  · exact .refl s
  · dsimp only
    split
    · have hfailed : SaveSteps writes settles (sendToSonarrInner env s).1.db
          ((sendToSonarrInner env s).1.db.markFailedQuietly env.now
            (sendToSonarrInner env s).1.e.id) :=
        .single (.request _ _ _ (hopen.of_hooked hinner).failed (fun _ => rfl) (fun _ => rfl)
          (fun _ => rfl) fun _ => rfl)
      exact ⟨hinner.id, hinner.mediaId, hinner.is4k, .inr (.inr rfl), hinner.steps.trans hfailed⟩
    · exact hinner

theorem afterUpdate_hooked (hopen : s.Open writes)
    (hsettles : ∀ id fourK status, s.e.Settles id fourK status → settles id fourK status) :
    (afterUpdate env s).Hooked writes settles s := by
  have hradarr : (sendToRadarr env s).Hooked writes settles s := sendToRadarr_hooked env hopen
  have hsent : (sendToSonarr env (sendToRadarr env s)).Hooked writes settles s :=
    (sendToSonarr_hooked env (hopen.of_hooked hradarr)).trans hradarr
  exact .trans (updateParentStatus_hooked env.now _ fun id fourK status h =>
    hsettles id fourK status (hsent.settles_of h)) hsent

end Hooks

end Steps

/-- What a save of the request writes on requests: its own status, or that its hooks
completed or failed it. -/
def RequestRow.Writes (e : RequestRow) (id status : Int) : Prop :=
  id = e.id ∧ (status = e.status ∨ status = RequestStatus.completed ∨ status = RequestStatus.failed)

/-- **The statements of a save** and its hooks, whatever the servers answer. -/
theorem save_steps (env : HookEnv) (db : Db) (e : RequestRow) :
    SaveSteps e.Writes e.Settles db (save env db e).db := by
  have hwritten : (writeRequest env.now db e).1.Hooked e.Writes e.Settles ⟨db, e⟩ :=
    writeRequest_hooked env.now db ⟨rfl, .inl rfl⟩
  unfold save
  dsimp only
  split
  · have hopen : (⟨db, e⟩ : Saving).Open e.Writes := ⟨⟨rfl, .inr (.inl rfl)⟩, rfl, .inr (.inr rfl)⟩
    exact hwritten.steps.trans (afterUpdate_hooked env (hopen.of_hooked hwritten)
      fun id fourK status h => hwritten.settles_of h).steps
  · exact hwritten.steps

/-! ## The hooks of the save of a title -/

section Titles

variable {writes : Int → Int → Prop} {settles : Int → Bool → Int → Prop}

/-- Saves of requests, one after another. -/
theorem saves_steps (envs : HookEnvs) {saves : List RequestRow}
    (hwrites : ∀ e ∈ saves, ∀ id status, e.Writes id status → writes id status)
    (hsettles : ∀ e ∈ saves, ∀ id fourK status, e.Settles id fourK status →
      settles id fourK status) (db : Db) :
    SaveSteps writes settles db (saves.foldl (fun db e => (save (envs e.id) db e).db) db) :=
  SaveSteps.foldl
    (fun e he db => (save_steps (envs e.id) db e).mono (hwrites e he) (hsettles e he)) db

/-- What the saves of the hooks of a title write: that a request is approved, or what
follows from that. -/
def hookWrites (_ : Int) (status : Int) : Prop :=
  status = RequestStatus.approved ∨ status = RequestStatus.completed
    ∨ status = RequestStatus.failed

/-- What they make of titles. -/
def hookSettles (_ : Int) (_ : Bool) (status : Int) : Prop := status = MediaStatus.processing

theorem approveChildren_steps (envs : HookEnvs) (db : Db) (mediaId : Int) (fourK : Bool) :
    SaveSteps hookWrites hookSettles db (approveChildren envs db mediaId fourK) := by
  refine SaveSteps.foldl (fun e _ db => (save_steps (envs e.id) db _).mono ?_ ?_) db
  · exact fun id status h => h.2
  · intro id fourK status h
    rcases h.2.2 with happroved | hdeclined
    · exact happroved.2
    · exact absurd hdeclined.1 (show RequestStatus.approved ≠ RequestStatus.declined from by decide)

theorem beforeUpdate_steps (envs : HookEnvs) (db : Db) (edit : MediaEdit) :
    SaveSteps hookWrites hookSettles db (beforeUpdate envs db edit) := by
  refine SaveSteps.foldl (fun fourK _ db => ?_) db
  split
  · exact approveChildren_steps envs db _ fourK
  · exact .refl

/-- A request `complete_related` saves is approved, failed or completed. -/
theorem relatedSaves_status {db : Db} {after : MediaRow} {dbSeasons : List SeasonRow}
    {fourK : Bool} {e : RequestRow} (he : e ∈ relatedSaves db after dbSeasons fourK) :
    hookWrites e.id e.status := by
  obtain ⟨r, hr, hsettle⟩ := mem_relatedSaves.mp he
  have hopen := (mem_openRequests.mp hr).2.1
  simp only [RequestRow.openFor, Bool.and_eq_true, Bool.or_eq_true, beq_iff_eq] at hopen
  have hstatus : e.status = r.status ∨ e.status = RequestStatus.completed := by
    unfold settleRequest at hsettle
    dsimp only at hsettle
    rcases hsettle with hsettle | hsettle
    · split_ifs at hsettle
      cases hsettle
      exact .inl rfl
    · split_ifs at hsettle <;> cases hsettle <;> exact .inr rfl
  rcases hstatus with heq | heq
  · rcases hopen.2 with happroved | hfailed
    · exact .inl (heq.trans happroved)
    · exact .inr (.inr (heq.trans hfailed))
  · exact .inr (.inl heq)

theorem relatedSaves_steps (envs : HookEnvs) (db : Db) {db' : Db} {after : MediaRow}
    {dbSeasons : List SeasonRow} {fourK : Bool} :
    SaveSteps hookWrites hookSettles db
      ((relatedSaves db' after dbSeasons fourK).foldl
        (fun db e => (save (envs e.id) db e).db) db) := by
  refine saves_steps envs (fun e he id status h => ?_) (fun e he id fourK status h => ?_) db
  · rcases h.2 with heq | hdone
    · exact heq ▸ relatedSaves_status he
    · exact .inr hdone
  · rcases h.2.2 with happroved | hdeclined
    · exact happroved.2
    · have hstatus := relatedSaves_status he
      simp [hookWrites, hdeclined.1] at hstatus

theorem afterUpdateTitle_steps (envs : HookEnvs) (db : Db) (edit : MediaEdit) (after : MediaRow)
    (dbSeasons : List SeasonRow) :
    SaveSteps hookWrites hookSettles db (afterUpdateTitle envs db edit after dbSeasons) := by
  refine SaveSteps.foldl (fun fourK _ db => ?_) db
  unfold afterUpdateQuality completeRelated
  split
  · exact relatedSaves_steps envs db
  · exact .refl

end Titles

end Foreseerr

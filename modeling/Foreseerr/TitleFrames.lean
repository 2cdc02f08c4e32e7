import Foreseerr.MediaSave

/-!
# What the writes about one title leave of the others

A save of a request, its hooks and a save of a title write about one title: the one
the request is for, the one saved. `Db.Spares` says what they leave of every other:
no title and no request is added, no request goes over to another title, and a title
that is blocklisted is found where it was and is blocklisted still.
-/

namespace Foreseerr

/-- A title that is blocklisted in both qualities. -/
def MediaRow.Blocklisted (m : MediaRow) : Prop :=
  m.status = MediaStatus.blocklisted ∧ m.status4k = MediaStatus.blocklisted

instance (m : MediaRow) : Decidable m.Blocklisted :=
  inferInstanceAs (Decidable (_ ∧ _))

/-- The columns a title is found by. -/
structure MediaRow.SameTitle (after before : MediaRow) : Prop where
  id : after.id = before.id
  tmdbId : after.tmdbId = before.tmdbId
  mediaType : after.mediaType = before.mediaType

theorem MediaRow.SameTitle.refl (m : MediaRow) : m.SameTitle m := ⟨rfl, rfl, rfl⟩

theorem MediaRow.SameTitle.trans {m m' m'' : MediaRow} (h : m''.SameTitle m')
    (h' : m'.SameTitle m) : m''.SameTitle m :=
  ⟨h.id.trans h'.id, h.tmdbId.trans h'.tmdbId, h.mediaType.trans h'.mediaType⟩

/-- **Writes about one title**, or about none: what they leave of the others. -/
structure Db.Spares (about : Option Int) (after before : Db) : Prop where
  titles : (after.media.map (·.id)).Sublist (before.media.map (·.id))
  owners : (after.requests.map fun r => (r.id, r.mediaId)).Sublist
    (before.requests.map fun r => (r.id, r.mediaId))
  found : ∀ {tmdbId mediaType m}, before.mediaByTmdb tmdbId mediaType = some m →
    about ≠ some m.id → m.Blocklisted →
    ∃ m', after.mediaByTmdb tmdbId mediaType = some m' ∧ m'.id = m.id ∧ m'.Blocklisted

namespace Db.Spares

variable {about : Option Int} {a b c : Db}

theorem refl (about : Option Int) (db : Db) : Db.Spares about db db :=
  ⟨.refl _, .refl _, fun hfound _ hblock => ⟨_, hfound, rfl, hblock⟩⟩

theorem trans (hab : Db.Spares about a b) (hbc : Db.Spares about b c) : Db.Spares about a c where
  titles := hab.titles.trans hbc.titles
  owners := hab.owners.trans hbc.owners
  found hfound hother hblock := by
    obtain ⟨m, hm, hid, hstill⟩ := hbc.found hfound hother hblock
    obtain ⟨m', hm', hid', hstill'⟩ := hab.found hm (hid ▸ hother) hstill
    exact ⟨m', hm', hid'.trans hid, hstill'⟩

/-- Statements on requests alone. -/
theorem of_media (hmedia : a.media = b.media)
    (howners : (a.requests.map fun r => (r.id, r.mediaId)).Sublist
      (b.requests.map fun r => (r.id, r.mediaId))) : Db.Spares about a b where
  titles := by rw [hmedia]
  owners := howners
  found hfound _ hblock := by
    refine ⟨_, ?_, rfl, hblock⟩
    unfold Db.mediaByTmdb
    rw [hmedia]
    exact hfound

/-- A request that is rewritten stays with its title. -/
theorem owners_of_rewritten {saved : Int} (h : Db.RewrittenFrom saved a b) :
    (a.requests.map fun r => (r.id, r.mediaId)).Sublist
      (b.requests.map fun r => (r.id, r.mediaId)) :=
  Table.map_sublist h fun _ _ hR => Prod.ext hR.kept.id hR.kept.mediaId

/-- A title is found by its key as the statement left it. -/
theorem mediaByTmdb_map {f : MediaRow → MediaRow} (hmedia : a.media = b.media.map f)
    (hsame : ∀ m, (f m).SameTitle m) (tmdbId : Int) (mediaType : String) :
    a.mediaByTmdb tmdbId mediaType = (b.mediaByTmdb tmdbId mediaType).map f := by
  have hkey : ((fun m : MediaRow => m.tmdbId == tmdbId && m.mediaType == mediaType) ∘ f)
      = fun m => m.tmdbId == tmdbId && m.mediaType == mediaType := by
    funext m
    simp only [Function.comp_apply, (hsame m).tmdbId, (hsame m).mediaType]
  unfold Db.mediaByTmdb
  rw [hmedia, List.find?_map, hkey]

/-- Statements that change titles in place. -/
theorem of_map {f : MediaRow → MediaRow} (hmedia : a.media = b.media.map f)
    (hrequests : a.requests = b.requests) (hsame : ∀ m, (f m).SameTitle m)
    (hkept : ∀ m, about ≠ some m.id → m.Blocklisted → (f m).Blocklisted) :
    Db.Spares about a b where
  titles := by
    rw [hmedia, List.map_map]
    exact (List.map_congr_left fun m _ => (hsame m).id).symm ▸ .refl _
  owners := by rw [hrequests]
  found {tmdbId mediaType m} hfound hother hblock := by
    refine ⟨f m, ?_, (hsame m).id, hkept m hother hblock⟩
    rw [mediaByTmdb_map hmedia hsame, hfound, Option.map_some]

/-- A statement about one title. -/
theorem updateMedia (db : Db) (id : Int) {f : MediaRow → MediaRow}
    (hsame : ∀ m, (f m).SameTitle m) :
    Db.Spares (some id) (db.updateMedia id f) db := by
  refine of_map rfl rfl (fun m => ?_) fun m hother hblock => ?_
  · split
    · exact hsame m
    · exact .refl m
  · rw [if_neg fun h => hother (congrArg some h.symm)]
    exact hblock

/-- A statement that writes no status of a title. -/
theorem updateMedia_of_kept (db : Db) (id : Int) {f : MediaRow → MediaRow}
    (hsame : ∀ m, (f m).SameTitle m) (hkept : ∀ m, m.Blocklisted → (f m).Blocklisted) :
    Db.Spares about (db.updateMedia id f) db := by
  refine of_map rfl rfl (fun m => ?_) fun m _ hblock => ?_
  · split
    · exact hsame m
    · exact .refl m
  · split
    · exact hkept m hblock
    · exact hblock

theorem updateSeason (db : Db) (id : Int) (f : SeasonRow → SeasonRow) :
    Db.Spares about (db.updateSeason id f) db :=
  of_map rfl rfl (fun _ => ⟨rfl, rfl, rfl⟩) fun _ _ hblock => hblock

theorem detachSeason (db : Db) (id : Int) : Db.Spares about (db.detachSeason id) db :=
  of_map rfl rfl (fun _ => ⟨rfl, rfl, rfl⟩) fun _ _ hblock => hblock

/-- The title a deletion is not about is found without the one it is about. -/
theorem deleteMedia (db : Db) (id : Int) : Db.Spares (some id) (db.deleteMedia id) db where
  titles := List.filter_sublist.map _
  owners := List.filter_sublist.map _
  found {tmdbId mediaType m} hfound hother hblock := by
    refine ⟨m, ?_, rfl, hblock⟩
    unfold Db.mediaByTmdb Db.deleteMedia at *
    have hstays : m.id ≠ id := fun h => hother (congrArg some h.symm)
    obtain ⟨hkey, before, after, hsplit, hbefore⟩ := List.find?_eq_some_iff_append.mp hfound
    refine List.find?_eq_some_iff_append.mpr ⟨hkey, before.filter (·.id ≠ id),
      after.filter (·.id ≠ id), ?_, fun x hx => hbefore x (List.mem_of_mem_filter hx)⟩
    rw [hsplit, List.filter_append, List.filter_cons_of_pos (by simpa using hstays)]

theorem deleteRequest (db : Db) (id : Int) : Db.Spares about (db.deleteRequest id) db :=
  of_media rfl (List.filter_sublist.map _)

/-- Statements run one after another spare what each spares, which may count on what
the ones before it spared. -/
theorem foldl_of {α : Type*} {step : Db → α → Db} {l : List α} {db : Db}
    (h : ∀ a ∈ l, ∀ db', Db.Spares about db' db → Db.Spares about (step db' a) db') :
    Db.Spares about (l.foldl step db) db := by
  have hall : ∀ db', Db.Spares about db' db → Db.Spares about (l.foldl step db') db := by
    induction l with
    | nil => exact fun _ hsince => hsince
    | cons a l ih =>
      have hl : ∀ b ∈ l, ∀ db', Db.Spares about db' db → Db.Spares about (step db' b) db' :=
        fun b hb => h b (List.mem_cons_of_mem _ hb)
      exact fun db' hsince => ih hl (step db' a) ((h a List.mem_cons_self db' hsince).trans hsince)
  exact hall db (refl about db)

theorem foldl {α : Type*} {step : Db → α → Db} {l : List α}
    (h : ∀ a ∈ l, ∀ db, Db.Spares about (step db a) db) (db : Db) :
    Db.Spares about (l.foldl step db) db :=
  foldl_of fun a ha db' _ => h a ha db'

/-- No two requests share an id, where none did. -/
theorem requests_nodup (h : Db.Spares about a b) (hnodup : (b.requests.map (·.id)).Nodup) :
    (a.requests.map (·.id)).Nodup := by
  have hids := h.owners.map Prod.fst
  rw [List.map_map, List.map_map] at hids
  exact hids.nodup hnodup

/-- **A request found again** is for the title it was for. -/
theorem owner_eq (h : Db.Spares about a b) (hnodup : (b.requests.map (·.id)).Nodup)
    {r e : RequestRow} (hr : r ∈ b.requests) (he : a.requestById r.id = some e) :
    e.mediaId = r.mediaId := by
  have hid : e.id = r.id := by simpa using List.find?_some he
  have hmem := h.owners.subset (List.mem_map_of_mem (f := fun r => (r.id, r.mediaId))
    (List.mem_of_find?_eq_some he))
  obtain ⟨r', hr', heq⟩ := List.mem_map.mp hmem
  obtain ⟨hid', howner⟩ := Prod.mk.inj heq
  rw [← howner, List.inj_on_of_nodup_map hnodup hr' hr (hid'.trans hid)]

/-- The title found by its id, where it is the one found by its key. -/
theorem mediaById (hnodup : (b.media.map (·.id)).Nodup) {tmdbId : Int} {mediaType : String}
    {m : MediaRow} (hfound : b.mediaByTmdb tmdbId mediaType = some m) : b.mediaById m.id = some m :=
  Table.find?_key hnodup (List.mem_of_find?_eq_some hfound)

end Db.Spares

/-! ## Saves of a request -/

/-- What the hooks make of a save they work on: the request is for the title it was
for, and the others are spared. -/
structure Saving.Within (after before : Saving) : Prop where
  mediaId : after.e.mediaId = before.e.mediaId
  spares : after.db.Spares before.e.mediaId before.db

namespace Saving.Within

variable {s s' s'' : Saving}

theorem refl (s : Saving) : s.Within s := ⟨rfl, .refl _ _⟩

theorem trans (h : s''.Within s') (h' : s'.Within s) : s''.Within s :=
  ⟨h.mediaId.trans h'.mediaId, (h'.mediaId ▸ h.spares).trans h'.spares⟩

end Saving.Within

theorem reloadDates_mediaId (db : Db) (e : RequestRow) (withRow : Bool) :
    (reloadDates db e withRow).mediaId = e.mediaId := by
  unfold reloadDates
  split <;> rfl

theorem writeRows_spares (about : Option Int) (now : String) (db : Db) (e current : RequestRow)
    (withRow : Bool) : (writeRows now db e current withRow).1.Spares about db :=
  .of_media (writeRows_media now db e current withRow)
    (Db.Spares.owners_of_rewritten (writeRows_rewritten now db e current withRow))

theorem writeRequest_spares (about : Option Int) (now : String) (db : Db) (e : RequestRow) :
    (writeRequest now db e).1.db.Spares about db :=
  .of_media (writeRequest_media now db e)
    (Db.Spares.owners_of_rewritten (writeRequest_rewritten now db e))

theorem writeRequest_mediaId (now : String) (db : Db) (e : RequestRow) :
    (writeRequest now db e).1.e.mediaId = e.mediaId := by
  unfold writeRequest
  split
  · rfl
  · exact reloadDates_mediaId _ e true

theorem writeRequest_within (now : String) (db : Db) (e : RequestRow) :
    (writeRequest now db e).1.Within ⟨db, e⟩ :=
  ⟨writeRequest_mediaId now db e, writeRequest_spares e.mediaId now db e⟩

theorem setMediaStatus_spares (db : Db) (now : String) (id : Int) (fourK : Bool) (status : Int) :
    (db.setMediaStatus now id fourK status).Spares (some id) db := by
  refine .updateMedia db id fun m => ?_
  cases fourK <;> exact ⟨rfl, rfl, rfl⟩

theorem settleTitle_spares (now : String) (db : Db) (media : MediaRow) (e : RequestRow) :
    (settleTitle now db media e).Spares (some media.id) db := by
  have hset : ∀ (db : Db) (p : Prop) [Decidable p] (status : Int),
      (if p then db.setMediaStatus now media.id e.is4k status else db).Spares
        (some media.id) db := by
    intro db p _ status
    split
    · exact setMediaStatus_spares db now media.id e.is4k status
    · exact .refl _ db
  unfold settleTitle
  exact (hset _ _ _).trans ((hset _ _ _).trans (hset db _ _))

theorem settleChildren_spares (about : Option Int) (now : String) (db : Db) (media : MediaRow)
    (e : RequestRow) : (settleChildren now db media e).db.Spares about db := by
  have hrelease : ∀ season ∈ e.seasons, ∀ db : Db,
      (releaseSeason now media e db season).Spares about db := by
    intro season _ db
    unfold releaseSeason
    split
    · split
      · exact .updateSeason db _ _
      · exact .refl about db
    · exact .refl about db
  unfold settleChildren
  split_ifs
  · exact .foldl hrelease db
  · exact .refl about db
  · exact .refl about db

theorem settleChildren_mediaId (now : String) (db : Db) (media : MediaRow) (e : RequestRow) :
    (settleChildren now db media e).e.mediaId = e.mediaId := by
  unfold settleChildren
  split_ifs <;> rfl

/-- What `update_parent_status` does after the title's status. -/
theorem updateParentStatus_of_title {about : Option Int} {now : String} {s : Saving}
    {media : MediaRow} (hmedia : s.e.mediaId.bind s.db.mediaById = some media)
    (htitle : (settleTitle now s.db media s.e).Spares about s.db) :
    (updateParentStatus now s).e.mediaId = s.e.mediaId
      ∧ (updateParentStatus now s).db.Spares about s.db := by
  have hsettled := (settleChildren_spares about now _ media s.e).trans htitle
  have hid := settleChildren_mediaId now (settleTitle now s.db media s.e) media s.e
  unfold updateParentStatus
  rw [hmedia]
  dsimp only
  split
  · exact ⟨(reloadDates_mediaId _ _ false).trans hid,
      (writeRows_spares about now _ _ _ false).trans hsettled⟩
  · exact ⟨hid, hsettled⟩

/-- `media_by_ids` finds a title by its id. -/
theorem Db.mediaById_id {db : Db} {id : Int} {m : MediaRow} (h : db.mediaById id = some m) :
    m.id = id := by
  simpa using List.find?_some h

theorem updateParentStatus_within (now : String) (s : Saving) :
    (updateParentStatus now s).Within s := by
  cases hmedia : s.e.mediaId.bind s.db.mediaById with
  | none =>
    unfold updateParentStatus
    rw [hmedia]
    exact .refl s
  | some media =>
    obtain ⟨id, hid, hfound⟩ := Option.bind_eq_some_iff.mp hmedia
    have htitle := settleTitle_spares now s.db media s.e
    rw [Db.mediaById_id hfound, ← hid] at htitle
    obtain ⟨hsame, hspares⟩ := updateParentStatus_of_title hmedia htitle
    exact ⟨hsame, hspares⟩

theorem saveSettled_within (now : String) (db : Db) (e : RequestRow) :
    (saveSettled now db e).Within ⟨db, e⟩ := by
  unfold saveSettled
  dsimp only
  split
  · exact (updateParentStatus_within now _).trans (writeRequest_within now db e)
  · exact writeRequest_within now db e

/-- A hook's save of its request with another status. -/
theorem saveSettled_within_of {now : String} {s : Saving} {e : RequestRow}
    (h : e.mediaId = s.e.mediaId) : (saveSettled now s.db e).Within s := by
  obtain ⟨hsame, hspares⟩ := saveSettled_within now s.db e
  exact ⟨hsame.trans h, h ▸ hspares⟩

theorem sendToRadarrInner_within (env : HookEnv) (s : Saving) :
    (sendToRadarrInner env s).1.Within s := by
  unfold sendToRadarrInner
  split
  · exact .refl s
  · split
    · exact .refl s
    · split
      · exact .refl s
      · split
        · exact saveSettled_within_of rfl
        · exact .refl s

theorem sendToRadarr_within (env : HookEnv) (s : Saving) : (sendToRadarr env s).Within s := by
  have hinner := sendToRadarrInner_within env s
  unfold sendToRadarr
  split
  · exact .refl s
  · dsimp only
    split
    · exact .trans (saveSettled_within_of rfl) hinner
    · exact hinner

theorem rememberTvdbId_spares (about : Option Int) (db : Db) (mediaId tvdbId : Int) :
    (db.rememberTvdbId mediaId tvdbId).Spares about db := by
  unfold Db.rememberTvdbId
  split
  · exact .refl about db
  · exact .updateMedia_of_kept db mediaId (fun _ => ⟨rfl, rfl, rfl⟩) fun _ hblock => hblock

theorem sendToSonarrInner_within (env : HookEnv) (s : Saving) :
    (sendToSonarrInner env s).1.Within s := by
  unfold sendToSonarrInner
  split
  · exact .refl s
  · split
    · next mediaId media hid _ =>
      split
      · exact saveSettled_within_of rfl
      · split
        · exact .refl s
        · split
          · exact .refl s
          · exact ⟨rfl, rememberTvdbId_spares _ _ _ _⟩
          · refine ⟨rfl, (Db.Spares.deleteRequest _ _).trans ?_⟩
            rw [hid]
            exact .deleteMedia s.db mediaId
    · exact .refl s

theorem markFailedQuietly_spares (about : Option Int) (db : Db) (now : String) (id : Int) :
    (db.markFailedQuietly now id).Spares about db := by
  refine .of_media rfl ?_
  unfold Db.markFailedQuietly Db.updateRequest
  rw [List.map_map]
  refine (List.map_congr_left fun r _ => ?_).symm ▸ .refl _
  simp only [Function.comp_apply]
  split <;> rfl

theorem sendToSonarr_within (env : HookEnv) (s : Saving) : (sendToSonarr env s).Within s := by
  have hinner := sendToSonarrInner_within env s
  unfold sendToSonarr
  split
  · exact .refl s
  · dsimp only
    split
    · exact ⟨hinner.mediaId, (markFailedQuietly_spares _ _ _ _).trans hinner.spares⟩
    · exact hinner

/-- **The hooks of a request work on its title**: every other is spared. -/
theorem afterUpdate_within (env : HookEnv) (s : Saving) : (afterUpdate env s).Within s :=
  (updateParentStatus_within env.now _).trans
    ((sendToSonarr_within env _).trans (sendToRadarr_within env s))

theorem save_within (env : HookEnv) (db : Db) (e : RequestRow) :
    (save env db e).Within ⟨db, e⟩ := by
  unfold save
  dsimp only
  split
  · exact (afterUpdate_within env _).trans (writeRequest_within env.now db e)
  · exact writeRequest_within env.now db e

/-- The saves of requests of one title. -/
theorem saves_spares (envs : HookEnvs) {saves : List RequestRow} {about : Option Int}
    (h : ∀ e ∈ saves, e.mediaId = about) (db : Db) :
    (saves.foldl (fun db e => (save (envs e.id) db e).db) db).Spares about db :=
  .foldl (fun e he db => h e he ▸ (save_within (envs e.id) db e).spares) db

/-! ## Saves of a title -/

/-- The appended seasons of a save. -/
theorem insertFresh_spares (about : Option Int) {now : String} {db db' : Db} {edit : MediaEdit}
    {after : MediaRow} (h : insertFresh now db edit = some (db', after)) :
    db'.Spares about db := by
  let Inv : Db × MediaRow → Prop := fun s => s.1.Spares about db
  have hinserted : Inv (db', after) := by
    refine (Run.of_foldlM h).invariant ?_ (.refl about db)
    rintro ⟨db₁, after₁⟩ fresh ⟨db₂, after₂⟩ hsince hstep
    dsimp only at hstep
    split at hstep
    · cases hstep
      exact hsince
    · obtain ⟨⟨db₃, id⟩, hinsert, heq⟩ := Option.map_eq_some_iff.mp hstep
      cases heq
      obtain ⟨_, _, heq⟩ := Option.map_eq_some_iff.mp hinsert
      cases heq
      exact Db.Spares.trans (.updateMedia_of_kept db₁ _ (fun _ => ⟨rfl, rfl, rfl⟩)
        fun _ hblock => hblock) hsince
  exact hinserted

theorem writeTitleSeason_spares (about : Option Int) (now : String) (before : List SeasonRow)
    (db : Db) (season : SeasonRow) :
    (writeTitleSeason now before db season).Spares about db := by
  rw [writeTitleSeason_eq]
  exact .updateSeason db _ _

/-- The statement for the columns of a title: it spares the others, and the title as
well when no status of it changes. -/
theorem writeColumns_spares {about : Option Int} (now : String) (db : Db) (edit : MediaEdit)
    (id : Int)
    (h : about = some id ∨ ∀ fourK, edit.after.statusOf fourK = edit.before.statusOf fourK) :
    (db.updateMedia id fun m =>
      { writeColumns edit.before edit.after m with updatedAt := some now }).Spares about db := by
  rcases h with rfl | hstatus
  · exact .updateMedia db id fun _ => ⟨rfl, rfl, rfl⟩
  · refine .updateMedia_of_kept db id (fun _ => ⟨rfl, rfl, rfl⟩) fun m hblock => ?_
    have hstandard : edit.after.status = edit.before.status := hstatus false
    have huhd : edit.after.status4k = edit.before.status4k := hstatus true
    exact ⟨(if_pos hstandard.symm).trans hblock.1, (if_pos huhd.symm).trans hblock.2⟩

/-- `write` spares the other titles, and the title as well when no status of it
changes. -/
theorem writeTitle_spares {about : Option Int} {now : String} {db db' : Db} {edit : MediaEdit}
    {orphans : List Int} {after : MediaRow} (h : writeTitle now db edit orphans = some (db', after))
    (hstatus : about = some edit.after.id
      ∨ ∀ fourK, edit.after.statusOf fourK = edit.before.statusOf fourK) :
    after.id = edit.after.id ∧ db'.Spares about db := by
  obtain ⟨⟨db₁, after₁⟩, hfresh, heq⟩ := Option.map_eq_some_iff.mp h
  have hafter : after.id = edit.after.id := by
    have hsame := congrArg MediaRow.id (writeTitle_requests h).1
    exact hsame
  cases heq
  refine ⟨hafter, .trans (.foldl (fun id _ db => .detachSeason db id) _) (.trans (.foldl
    (fun season _ db => writeTitleSeason_spares about now edit.before.seasons db season) _) ?_)⟩
  refine .trans ?_ (insertFresh_spares about hfresh)
  split
  · exact writeColumns_spares now db₁ edit _ (hafter ▸ hstatus)
  · exact .refl about db₁

theorem approveChildren_spares (envs : HookEnvs) (db : Db) (mediaId : Int) (fourK : Bool) :
    (approveChildren envs db mediaId fourK).Spares (some mediaId) db := by
  refine .foldl (fun e he db => ?_) db
  have howner : e.mediaId = some mediaId := by
    have hmem := (List.mem_filter.mp (List.mem_of_mem_filter he)).2
    simpa using hmem
  exact howner ▸ (save_within (envs e.id) db { e with status := RequestStatus.approved }).spares

theorem beforeUpdate_spares (envs : HookEnvs) (db : Db) (edit : MediaEdit) :
    (beforeUpdate envs db edit).Spares (some edit.after.id) db := by
  refine .foldl (fun fourK _ db => ?_) db
  split
  · exact approveChildren_spares envs db _ fourK
  · exact .refl _ db

/-- What `complete_related` saves are requests of the title. -/
theorem relatedSaves_mediaId {db : Db} {after : MediaRow} {dbSeasons : List SeasonRow}
    {fourK : Bool} {e : RequestRow} (he : e ∈ relatedSaves db after dbSeasons fourK) :
    e.mediaId = some after.id := by
  obtain ⟨r, hr, hsettle⟩ := mem_relatedSaves.mp he
  have howner : r.mediaId = some after.id := by
    have hopen := (mem_openRequests.mp hr).2.1
    simp only [RequestRow.openFor, Bool.and_eq_true, beq_iff_eq] at hopen
    exact hopen.1
  refine Eq.trans ?_ howner
  unfold settleRequest at hsettle
  dsimp only at hsettle
  rcases hsettle with hsettle | hsettle
  · split_ifs at hsettle
    cases hsettle
    rfl
  · split_ifs at hsettle <;> cases hsettle <;> rfl

theorem afterUpdateTitle_spares (envs : HookEnvs) (db : Db) (edit : MediaEdit) (after : MediaRow)
    (dbSeasons : List SeasonRow) :
    (afterUpdateTitle envs db edit after dbSeasons).Spares (some after.id) db := by
  refine .foldl (fun fourK _ db => ?_) db
  unfold afterUpdateQuality completeRelated
  split
  · exact saves_spares envs (fun e he => relatedSaves_mediaId he) db
  · exact .refl _ db

/-- **A save of a title spares the others.** -/
theorem saveTitle_spares {now : String} {envs : HookEnvs} {db db' : Db} {edit : MediaEdit}
    {orphans : List Int} {after : MediaRow}
    (h : saveTitle now envs db edit orphans = some (db', after)) :
    db'.Spares (some edit.after.id) db := by
  unfold saveTitle at h
  split at h
  · obtain ⟨⟨db₁, after₁⟩, hwrite, heq⟩ := Option.map_eq_some_iff.mp h
    cases heq
    obtain ⟨hid, hspares⟩ := writeTitle_spares hwrite (.inl rfl)
    exact (hid ▸ afterUpdateTitle_spares envs db₁ edit after _).trans
      (hspares.trans (beforeUpdate_spares envs db edit))
  · exact (writeTitle_spares h (.inl rfl)).2

/-- No request is approved where no status changes. -/
theorem beforeUpdate_of_statuses (envs : HookEnvs) (db : Db) {edit : MediaEdit}
    (hstatus : ∀ fourK, edit.after.statusOf fourK = edit.before.statusOf fourK) :
    beforeUpdate envs db edit = db := by
  unfold beforeUpdate
  refine List.foldl_fixed' (fun fourK => if_neg fun happroves => ?_) [false, true]
  exact absurd ((hstatus fourK ▸ happroves.1).symm.trans happroves.2) (by decide)

/-- **A movie saved with the statuses it had** is spared as well: no hook of it runs. -/
theorem saveTitle_spares_movie {now : String} {envs : HookEnvs} {db db' : Db} {edit : MediaEdit}
    {orphans : List Int} {after : MediaRow}
    (h : saveTitle now envs db edit orphans = some (db', after))
    (hmovie : edit.after.mediaType = "movie")
    (hstatus : ∀ fourK, edit.after.statusOf fourK = edit.before.statusOf fourK) :
    db'.Spares none db := by
  have hbefore := beforeUpdate_of_statuses envs db hstatus
  unfold saveTitle at h
  split at h
  · obtain ⟨⟨db₁, after₁⟩, hwrite, heq⟩ := Option.map_eq_some_iff.mp h
    cases heq
    rw [hbefore] at hwrite ⊢
    have hsame := (writeTitle_requests hwrite).1
    have hquiet : ∀ fourK, completes edit after (storedSeasons db edit.after.id) fourK = false := by
      intro fourK
      have htype : after.mediaType = "movie" := (congrArg MediaRow.mediaType hsame).trans hmovie
      have hkept : after.statusOf fourK = edit.before.statusOf fourK :=
        (congrArg (MediaRow.statusOf · fourK) hsame).trans (hstatus fourK)
      simp [completes, htype, hkept]
    have hafter : afterUpdateTitle envs db₁ edit after (storedSeasons db edit.after.id) = db₁ := by
      unfold afterUpdateTitle
      refine List.foldl_fixed' (fun fourK => if_neg ?_) [false, true]
      simp [hquiet fourK]
    rw [hafter]
    exact (writeTitle_spares hwrite (.inr hstatus)).2
  · exact (writeTitle_spares h (.inr hstatus)).2

end Foreseerr

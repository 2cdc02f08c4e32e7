import Foreseerr.SaveSteps
import Foreseerr.ScanTitles

/-!
# What a write gives up

A request is given up where it is declined, and a movie where it falls back to
`UNKNOWN`. Every write of a scan gives up requests and movies of at most one title and
quality, and most of them none at all: approvals, completions and failures decline no
request, and an entry a server has abandoned leaves its movie to the end of the run.

`Db.GivesUp` is a relation on the tables before and after: the statements of a save
respect it (`Db.GivesUp.of_steps`), so the saves do, and with them the writes of a scan.
Shows are left out of it, whose status is rolled up from their seasons by any scan.
-/

namespace Foreseerr

/-- A title in one quality, and the requests of it that may be declined. -/
structure Scope where
  mediaId : Int
  fourK : Bool
  requests : Int → Prop

/-- A title in one quality, and all its requests. -/
def Scope.whole (mediaId : Int) (fourK : Bool) : Scope := ⟨mediaId, fourK, fun _ => True⟩

/-- The title and quality are in the scope; in `none` is none. -/
def InScope (about : Option Scope) (mediaId : Int) (fourK : Bool) : Prop :=
  ∃ scope, about = some scope ∧ mediaId = scope.mediaId ∧ fourK = scope.fourK

/-- The request is one of the scope. -/
def RequestRow.IsOf (r : RequestRow) (about : Option Scope) : Prop :=
  ∃ scope, about = some scope ∧ r.mediaId = some scope.mediaId ∧ r.is4k = scope.fourK
    ∧ scope.requests r.id

/-- A title after a write: a movie has fallen to `UNKNOWN` only in the scope. -/
structure MediaRow.GivesUp (about : Option Scope) (after before : MediaRow) : Prop
    extends after.SameTitle before where
  fallen : ∀ fourK, before.mediaType = "movie" → after.statusOf fourK = MediaStatus.unknown →
    before.statusOf fourK = MediaStatus.unknown ∨ InScope about before.id fourK

/-- A request after a write: it is declined only where it is one of the scope. -/
structure RequestRow.GivesUp (about : Option Scope) (after before : RequestRow) : Prop where
  id : after.id = before.id
  mediaId : after.mediaId = before.mediaId
  is4k : after.is4k = before.is4k
  declined : after.status = RequestStatus.declined →
    before.status = RequestStatus.declined ∨ before.IsOf about

/-- **What the tables give up in a write**: a movie and requests of one title and quality
at most. -/
structure Db.GivesUp (about : Option Scope) (after before : Db) : Prop where
  titles : List.SublistForall₂ (MediaRow.GivesUp about) after.media before.media
  requests : List.SublistForall₂ (RequestRow.GivesUp about) after.requests before.requests

section Rows

variable {about : Option Scope}

theorem RequestRow.IsOf.congr {r r' : RequestRow} (hid : r'.id = r.id)
    (hmediaId : r'.mediaId = r.mediaId) (his4k : r'.is4k = r.is4k) (h : r'.IsOf about) :
    r.IsOf about := by
  obtain ⟨scope, habout, howner, hquality, hmay⟩ := h
  exact ⟨scope, habout, hmediaId ▸ howner, his4k ▸ hquality, hid ▸ hmay⟩

/-- A request of the scope is of its title. -/
theorem RequestRow.IsOf.inScope {r : RequestRow} {mediaId : Int} (h : r.IsOf about)
    (hmediaId : r.mediaId = some mediaId) : InScope about mediaId r.is4k := by
  obtain ⟨scope, habout, howner, hquality, -⟩ := h
  exact ⟨scope, habout, Option.some.inj (hmediaId.symm.trans howner), hquality⟩

instance : Std.Refl (MediaRow.GivesUp about) := ⟨fun m => ⟨.refl m, fun _ _ h => .inl h⟩⟩

instance : IsTrans MediaRow (MediaRow.GivesUp about) where
  trans c b a hcb hba := by
    refine ⟨hcb.toSameTitle.trans hba.toSameTitle, fun fourK hmovie hunknown => ?_⟩
    rcases hcb.fallen fourK (hba.mediaType.trans hmovie) hunknown with hb | habout
    · exact hba.fallen fourK hmovie hb
    · exact .inr (hba.id ▸ habout)

instance : Std.Refl (RequestRow.GivesUp about) := ⟨fun _ => ⟨rfl, rfl, rfl, .inl⟩⟩

instance : IsTrans RequestRow (RequestRow.GivesUp about) where
  trans c b a hcb hba := by
    refine ⟨hcb.id.trans hba.id, hcb.mediaId.trans hba.mediaId, hcb.is4k.trans hba.is4k,
      fun h => ?_⟩
    rcases hcb.declined h with hb | hof
    · exact hba.declined hb
    · exact .inr (hof.congr hba.id hba.mediaId hba.is4k)

end Rows

namespace Db.GivesUp

variable {about : Option Scope} {a b c : Db}

theorem refl (about : Option Scope) (db : Db) : Db.GivesUp about db db :=
  ⟨Std.Refl.refl (r := List.SublistForall₂ (MediaRow.GivesUp about)) db.media,
    Std.Refl.refl (r := List.SublistForall₂ (RequestRow.GivesUp about)) db.requests⟩

theorem trans (hab : Db.GivesUp about a b) (hbc : Db.GivesUp about b c) : Db.GivesUp about a c :=
  ⟨IsTrans.trans (r := List.SublistForall₂ (MediaRow.GivesUp about)) _ _ _ hab.titles hbc.titles,
    IsTrans.trans (r := List.SublistForall₂ (RequestRow.GivesUp about)) _ _ _ hab.requests
      hbc.requests⟩

/-- A request after the write was there before it, for the same title and quality. -/
theorem request (h : Db.GivesUp about a b) {r' : RequestRow} (hr' : r' ∈ a.requests) :
    ∃ r ∈ b.requests, r'.GivesUp about r :=
  Table.exists_of_mem h.requests hr'

theorem title (h : Db.GivesUp about a b) {m' : MediaRow} (hm' : m' ∈ a.media) :
    ∃ m ∈ b.media, m'.GivesUp about m :=
  Table.exists_of_mem h.titles hm'

theorem request_ids (h : Db.GivesUp about a b) (hnodup : (b.requests.map (·.id)).Nodup) :
    (a.requests.map (·.id)).Nodup :=
  (Table.map_sublist h.requests fun _ _ hr => hr.id).nodup hnodup

theorem title_ids (h : Db.GivesUp about a b) (hnodup : (b.media.map (·.id)).Nodup) :
    (a.media.map (·.id)).Nodup :=
  (Table.map_sublist h.titles fun _ _ hm => hm.id).nodup hnodup

/-! ## Statements -/

/-- Statements on requests. -/
theorem of_requests {f : RequestRow → RequestRow} (hmedia : a.media = b.media)
    (hrequests : a.requests = b.requests.map f)
    (hf : ∀ r ∈ b.requests, (f r).GivesUp about r) : Db.GivesUp about a b := by
  refine ⟨?_, hrequests ▸ Table.settled_map hf⟩
  rw [hmedia]
  exact (refl about b).titles

/-- Statements on titles. -/
theorem of_titles {f : MediaRow → MediaRow} (hmedia : a.media = b.media.map f)
    (hrequests : a.requests = b.requests)
    (hf : ∀ m ∈ b.media, (f m).GivesUp about m) : Db.GivesUp about a b := by
  refine ⟨hmedia ▸ Table.settled_map hf, ?_⟩
  rw [hrequests]
  exact (refl about b).requests

theorem updateMedia (id : Int) {f : MediaRow → MediaRow}
    (hf : ∀ m ∈ b.media, m.id = id → (f m).GivesUp about m) :
    Db.GivesUp about (b.updateMedia id f) b := by
  refine of_titles rfl rfl fun m hm => ?_
  split
  · next hid => exact hf m hm hid
  · exact Std.Refl.refl m

/-- A statement that keeps what a title is and its statuses. -/
theorem of_columns {m m' : MediaRow} (hsame : m'.SameTitle m)
    (hstatus : ∀ fourK, m'.statusOf fourK = m.statusOf fourK) : m'.GivesUp about m :=
  ⟨hsame, fun fourK _ hunknown => .inl (hstatus fourK ▸ hunknown)⟩

theorem setMediaStatus (db : Db) (now : String) {id : Int} {fourK : Bool} {status : Int}
    (habout : status = MediaStatus.unknown → InScope about id fourK) :
    Db.GivesUp about (db.setMediaStatus now id fourK status) db := by
  refine updateMedia id fun m _ hid => ⟨?_, fun q _ hunknown => ?_⟩
  · cases fourK <;> exact ⟨rfl, rfl, rfl⟩
  · by_cases hq : q = fourK
    · subst hq
      have hset : (m.setStatus q status).statusOf q = MediaStatus.unknown := by
        cases q <;> exact hunknown
      rw [MediaRow.statusOf_setStatus] at hset
      exact .inr (hid ▸ habout hset)
    · left
      cases q <;> cases fourK <;> first | exact absurd rfl hq | exact hunknown

theorem updateSeason (db : Db) (id : Int) (f : SeasonRow → SeasonRow) :
    Db.GivesUp about (db.updateSeason id f) db :=
  of_titles rfl rfl fun _ _ => of_columns ⟨rfl, rfl, rfl⟩ fun fourK => by cases fourK <;> rfl

theorem deleteMedia (db : Db) (id : Int) : Db.GivesUp about (db.deleteMedia id) db :=
  ⟨Table.settled_filter _, Table.settled_filter _⟩

theorem deleteRequest (db : Db) (id : Int) : Db.GivesUp about (db.deleteRequest id) db :=
  ⟨(refl about db).titles, Table.settled_filter _⟩

/-- **The statements of saves give up** no more than what is declined and no movie but
the one it is declined for. -/
theorem of_steps {writes : Int → Int → Prop} {settles : Int → Bool → Int → Prop} {db db' : Db}
    (h : SaveSteps writes settles db db')
    (hwrites : ∀ id, writes id RequestStatus.declined →
      ∀ r ∈ db.requests, r.id = id → r.IsOf about)
    (hsettles : ∀ id fourK, settles id fourK MediaStatus.unknown → InScope about id fourK) :
    Db.GivesUp about db' db := by
  induction h with
  | refl => exact .refl about db
  | @tail db₁ db₂ _ hstep hsince =>
    refine .trans ?_ hsince
    cases hstep with
    | children f hmedia hrequests hid hmediaId his4k hstatus =>
      exact of_requests hmedia hrequests fun r _ =>
        ⟨hid r, hmediaId r, his4k r, fun hdeclined => .inl (hstatus r ▸ hdeclined)⟩
    | request id status f hw hid hmediaId his4k hstatus =>
      refine of_requests rfl rfl fun r hr => ?_
      split
      · next hrow =>
        refine ⟨hid r, hmediaId r, his4k r, fun hdeclined => .inr ?_⟩
        obtain ⟨r₀, hr₀, hsame⟩ := hsince.request hr
        rw [hstatus r] at hdeclined
        exact (hwrites id (hdeclined ▸ hw) r₀ hr₀ (hsame.id ▸ hrow)).congr hsame.id.symm
          hsame.mediaId.symm hsame.is4k.symm
      · exact Std.Refl.refl r
    | title now id fourK status hs =>
      exact setMediaStatus db₁ now fun hunknown => hsettles id fourK (hunknown ▸ hs)
    | season id f => exact updateSeason db₁ id f
    | tvdbId mediaId tvdbId =>
      unfold Db.rememberTvdbId
      split
      · exact .refl about db₁
      · exact updateMedia mediaId fun _ _ _ =>
          of_columns ⟨rfl, rfl, rfl⟩ fun q => by cases q <;> rfl
    | deleteTitle id => exact deleteMedia db₁ id
    | deleteRequest id => exact deleteRequest db₁ id

/-- Writes one after another, each of which may count on what those before it gave up. -/
theorem foldl_of {α : Type*} {step : Db → α → Db} {l : List α} {db : Db}
    (h : ∀ a ∈ l, ∀ db', Db.GivesUp about db' db → Db.GivesUp about (step db' a) db') :
    Db.GivesUp about (l.foldl step db) db := by
  have hall : ∀ db', Db.GivesUp about db' db → Db.GivesUp about (l.foldl step db') db := by
    induction l with
    | nil => exact fun _ hsince => hsince
    | cons a l ih =>
      have hl : ∀ b ∈ l, ∀ db', Db.GivesUp about db' db → Db.GivesUp about (step db' b) db' :=
        fun b hb => h b (List.mem_cons_of_mem _ hb)
      exact fun db' hsince => ih hl (step db' a) ((h a List.mem_cons_self db' hsince).trans hsince)
  exact hall db (refl about db)

end Db.GivesUp

/-! ## Saves of a request -/

section Saves

variable {about : Option Scope}

/-- The hooks of the save of a title give up nothing. -/
theorem Db.GivesUp.of_hooks {db db' : Db} (h : SaveSteps hookWrites hookSettles db db') :
    Db.GivesUp about db' db := by
  refine .of_steps h (fun id hdeclined => ?_) fun id fourK hunknown => ?_
  · simp [hookWrites] at hdeclined
  · exact absurd hunknown (show MediaStatus.unknown ≠ MediaStatus.processing from by decide)

/-- A decline is of the title and quality. -/
theorem save_givesUp (env : HookEnv) {db : Db} {e : RequestRow}
    (hof : e.status = RequestStatus.declined → e.IsOf about
      ∧ ∀ r ∈ db.requests, r.id = e.id → r.IsOf about) :
    (save env db e).db.GivesUp about db := by
  refine .of_steps (save_steps env db e) (fun id hwrites => ?_) fun id fourK hsettles => ?_
  · obtain ⟨rfl, hstatus | hother | hother⟩ := hwrites
    · exact (hof hstatus.symm).2
    · exact absurd hother (by decide)
    · exact absurd hother (by decide)
  · obtain ⟨hmediaId, rfl, hprocessing | hdeclined⟩ := hsettles
    · exact absurd hprocessing.2 (by decide)
    · exact (hof hdeclined.1).1.inScope hmediaId

end Saves

/-! ## Saves of a title -/

section Titles

variable {about : Option Scope} {db db' : Db} {edit : MediaEdit}

/-- A movie the edit is of falls only in the title and quality. -/
def MediaEdit.Falls (edit : MediaEdit) (about : Option Scope) (db : Db) : Prop :=
  ∀ m ∈ db.media, m.id = edit.after.id → m.mediaType = "movie" → ∀ fourK,
    edit.after.statusOf fourK = MediaStatus.unknown →
      edit.before.statusOf fourK = MediaStatus.unknown ∨ InScope about edit.after.id fourK

theorem MediaEdit.Falls.since (h : edit.Falls about db) (hsince : db'.GivesUp about db) :
    edit.Falls about db' := by
  intro m hm hid hmovie
  obtain ⟨m₀, hm₀, hsame⟩ := hsince.title hm
  exact h m₀ hm₀ (hsame.id ▸ hid) (hsame.mediaType ▸ hmovie)

theorem insertFresh_givesUp {now : String} {after : MediaRow}
    (h : insertFresh now db edit = some (db', after)) : db'.GivesUp about db := by
  let Inv : Db × MediaRow → Prop := fun s => s.1.GivesUp about db
  have hinserted : Inv (db', after) := by
    refine (Run.of_foldlM h).invariant ?_ (.refl about db)
    rintro ⟨db₁, after₁⟩ fresh ⟨db₂, after₂⟩ hsince hstep
    dsimp only at hstep
    split at hstep
    · cases hstep
      exact hsince
    · obtain ⟨⟨db₃, id⟩, hinsert, heq⟩ := Option.map_eq_some_iff.mp hstep
      cases heq
      obtain ⟨_, _, heq⟩ := Option.map_eq_some_iff.mp hinsert
      cases heq
      exact Db.GivesUp.trans (.updateMedia _ fun _ _ _ => Db.GivesUp.of_columns ⟨rfl, rfl, rfl⟩
        fun q => by cases q <;> rfl) hsince
  exact hinserted

/-- The statement for the columns of a title. -/
theorem writeColumns_givesUp (now : String) (hfalls : edit.Falls about db) :
    (db.updateMedia edit.after.id fun m =>
      { writeColumns edit.before edit.after m with updatedAt := some now }).GivesUp about db := by
  refine .updateMedia _ fun m hm hid => ⟨⟨rfl, rfl, rfl⟩, fun fourK hmovie hunknown => ?_⟩
  have hcolumn : (if edit.before.statusOf fourK = edit.after.statusOf fourK then m.statusOf fourK
      else edit.after.statusOf fourK) = MediaStatus.unknown := by
    cases fourK <;> exact hunknown
  split at hcolumn
  · exact .inl hcolumn
  · next hne =>
    rcases hfalls m hm hid hmovie fourK hcolumn with hbefore | habout
    · exact absurd (hbefore.trans hcolumn.symm) hne
    · exact .inr (hid ▸ habout)

theorem writeTitle_givesUp {now : String} {orphans : List Int} {after : MediaRow}
    (h : writeTitle now db edit orphans = some (db', after)) (hfalls : edit.Falls about db) :
    db'.GivesUp about db := by
  obtain ⟨⟨db₁, after₁⟩, hfresh, heq⟩ := Option.map_eq_some_iff.mp h
  have hinserted : db₁.GivesUp about db := insertFresh_givesUp hfresh
  have hafter : after₁.id = edit.after.id := by
    have hsame := congrArg MediaRow.id (insertFresh_after hfresh).1
    exact hsame
  cases heq
  have hcolumns : (if edit.mediaChanged = true then db₁.updateMedia after.id fun m =>
      { writeColumns edit.before edit.after m with updatedAt := some now } else db₁).GivesUp
      about db₁ := by
    split
    · rw [hafter]
      exact writeColumns_givesUp now (hfalls.since hinserted)
    · exact .refl about db₁
  refine .trans (.foldl_of fun id _ db _ => ?_) (.trans (.foldl_of fun season _ db _ => ?_)
    (hcolumns.trans hinserted))
  · exact .of_titles rfl rfl fun _ _ => Db.GivesUp.of_columns ⟨rfl, rfl, rfl⟩ fun q => by
      cases q <;> rfl
  · rw [writeTitleSeason_eq]
    exact .updateSeason db _ _

theorem saveTitle_givesUp {now : String} {envs : HookEnvs} {orphans : List Int} {after : MediaRow}
    (h : saveTitle now envs db edit orphans = some (db', after)) (hfalls : edit.Falls about db) :
    db'.GivesUp about db := by
  unfold saveTitle at h
  split at h
  · obtain ⟨⟨db₁, after₁⟩, hwrite, heq⟩ := Option.map_eq_some_iff.mp h
    cases heq
    have hbefore : (beforeUpdate envs db edit).GivesUp about db :=
      .of_hooks (beforeUpdate_steps envs db edit)
    exact Db.GivesUp.trans (.of_hooks (afterUpdateTitle_steps envs db₁ edit after _))
      ((writeTitle_givesUp hwrite (hfalls.since hbefore)).trans hbefore)
  · exact writeTitle_givesUp h hfalls

end Titles

/-! ## The titles a scan goes through -/

namespace Scan

variable {about : Option Scope} {c : Scan} {db : Db}

theorem saveExisting_givesUp {edit : MediaEdit} (hfalls : edit.Falls about db) :
    (c.saveExisting db edit).GivesUp about db := by
  unfold saveExisting
  split
  · next hsaved => exact saveTitle_givesUp hsaved hfalls
  · split
    · exact .of_hooks (beforeUpdate_steps c.envs db edit)
    · exact .refl about db

/-- An entry lets no movie fall to `UNKNOWN` in a scan that leaves its resets. -/
theorem statusAfter_unknown {previous : Int} {o : MovieOpts}
    (h : statusAfter previous o true = MediaStatus.unknown) : previous = MediaStatus.unknown := by
  unfold statusAfter deferredAt nextMovieStatus at h
  grind

theorem applyMovie_unknown {m : MediaRow} {o : MovieOpts} {fourK : Bool}
    (h : (applyMovie m o true).1.statusOf fourK = MediaStatus.unknown) :
    m.statusOf fourK = MediaStatus.unknown := by
  obtain ⟨hown, -, hother, -⟩ := applyMovie_spec m o true
  by_cases hq : fourK = o.is4k
  · rw [hq, hown] at h
    exact hq ▸ statusAfter_unknown h
  · rw [Bool.eq_not.mpr hq, hother] at h
    rwa [Bool.eq_not.mpr hq]

/-- **A movie a server lists** gives up nothing, once it is stored. -/
theorem processMovie_givesUp (hdefer : c.deferResets = true) {tmdbId : Int} {o : MovieOpts}
    {existing : MediaRow} (hfound : findMedia db tmdbId "movie" = some existing) :
    (c.processMovie tmdbId o db).GivesUp none db := by
  unfold processMovie
  rw [hfound, hdefer]
  dsimp only
  split
  · exact saveExisting_givesUp fun _ _ _ _ _ hunknown => .inl (applyMovie_unknown hunknown)
  · exact .refl none db

/-- **A show a server lists** gives up nothing, once it is stored. -/
theorem processShow_givesUp (hnodup : (db.media.map (·.id)).Nodup) {tmdbId : Int}
    {tvdb : Option Int} {seasons : List ProcessableSeason} {o : ShowOpts} {media : MediaRow}
    (hfound : findMedia db tmdbId "tv" = some media) :
    (c.processShow tmdbId tvdb seasons o db).GivesUp none db := by
  have hstored : db.mediaByTmdb tmdbId "tv" = some media := by
    rwa [findMedia_eq hnodup] at hfound
  have hshow : media.mediaType = "tv" := by
    have hkey := List.find?_some hstored
    simp only [Bool.and_eq_true, beq_iff_eq] at hkey
    exact hkey.2
  unfold processShow
  rw [hfound]
  refine saveExisting_givesUp fun m hm hid hmovie => ?_
  have hsame : m.id = media.id := hid.trans (applyShow_id _ _ _ _ _ _)
  have heq := List.inj_on_of_nodup_map hnodup hm (List.mem_of_find?_eq_some hstored) hsame
  rw [heq, hshow] at hmovie
  exact absurd hmovie (by decide)

/-- Requests of one title and quality are declined. -/
theorem declineRequests_givesUp {requests : List Int}
    (hrequests : ∀ id ∈ requests, ∀ r ∈ db.requests, r.id = id → r.IsOf about) :
    (c.declineRequests db requests).GivesUp about db := by
  refine .foldl_of fun id hid db' hsince => ?_
  have hof : ∀ r ∈ db'.requests, r.id = id → r.IsOf about := by
    intro r hr hrid
    obtain ⟨r₀, hr₀, hsame⟩ := hsince.request hr
    exact (hrequests id hid r₀ hr₀ (hsame.id ▸ hrid)).congr hsame.id.symm hsame.mediaId.symm
      hsame.is4k.symm
  cases he : db'.requestById id with
  | none => exact .refl about db'
  | some e =>
    have heid : e.id = id := by simpa using List.find?_some he
    refine save_givesUp (c.envs e.id) fun _ => ⟨?_, fun r hr hrid => hof r hr (hrid.trans heid)⟩
    exact hof e (List.mem_of_find?_eq_some he) heid

/-- The approved requests of a title and quality. -/
theorem approvedRequests_isOf (hnodup : (db.requests.map (·.id)).Nodup) {mediaId : Int}
    {fourK : Bool} {id : Int} (hid : id ∈ approvedRequests db mediaId fourK) :
    ∀ r ∈ db.requests, r.id = id → r.IsOf (some (.whole mediaId fourK)) := by
  obtain ⟨r₀, hr₀, rfl⟩ := List.mem_map.mp hid
  obtain ⟨hmem, hq⟩ := List.mem_filter.mp hr₀
  obtain ⟨hstored, howner⟩ := List.mem_filter.mp hmem
  simp only [Bool.and_eq_true, beq_iff_eq] at hq howner
  intro r hr heq
  obtain rfl := List.inj_on_of_nodup_map hnodup hr hstored heq
  exact ⟨_, rfl, howner, hq.1, trivial⟩

/-- The turn of a title gives up that title alone. -/
theorem resolveTitle_givesUp (hnodup : (db.requests.map (·.id)).Nodup)
    (abandoned : Int → Bool → Option Int → Bool) (mediaId : Int) (fourK : Bool) :
    (c.resolveTitle abandoned mediaId fourK db).GivesUp (some (.whole mediaId fourK)) db := by
  unfold resolveTitle
  split
  · exact .refl _ db
  · next found hfound =>
    have hid := Db.mediaById_id hfound
    have hdeclined : ∀ db' : Db, db'.GivesUp (some (.whole mediaId fourK)) db →
        (c.declineRequests db' (approvedRequests db' found.id fourK)).GivesUp
          (some (.whole mediaId fourK)) db' :=
      fun db' hsince => declineRequests_givesUp fun id hmem =>
        hid ▸ approvedRequests_isOf (hsince.request_ids hnodup) hmem
    dsimp only
    split_ifs
    · exact .refl _ db
    · have hsaved : (c.saveExisting db
          ⟨found, found.setStatus fourK MediaStatus.unknown, []⟩).GivesUp
          (some (.whole mediaId fourK)) db := by
        refine saveExisting_givesUp fun m _ _ _ q hunknown => ?_
        by_cases hq : q = fourK
        · right
          subst hq
          refine ⟨_, rfl, Eq.trans ?_ hid, rfl⟩
          cases q <;> rfl
        · left
          cases q <;> cases fourK <;> first | exact absurd rfl hq | exact hunknown
      exact (hdeclined _ hsaved).trans hsaved
    · exact hdeclined db (.refl _ db)
    · exact .refl _ db

end Scan

namespace SeasonReset

open Writes

variable {c : SeasonReset} {db : Db} {about : Option Scope}

theorem completeRequest_givesUp (db : Db) (id : Int) :
    ((c.completeRequest id).final db).GivesUp about db := by
  unfold completeRequest
  rw [final_reading]
  cases db.requestById id with
  | none => exact .refl about db
  | some e =>
    have hsteps : SaveSteps (fun _ status => status = RequestStatus.completed)
        (fun _ _ _ => False) db
        (writeRequest c.now db { e with status := RequestStatus.completed }).1.db :=
      writeRequest_steps c.now db rfl
    exact .of_steps hsteps (fun _ h => absurd h (by decide)) fun _ _ h => h.elim

/-- A trim gives up nothing: its request keeps other seasons. -/
theorem trimRequest_givesUp (db : Db) (t : Trim) :
    ((c.trimRequest t).final db).GivesUp about db := by
  have hdeleted : ((each (fun id => write Cut.deleteSeason (·.deleteSeasonRequest id))
      t.removed).final db).GivesUp about db := by
    rw [final_each]
    exact .foldl_of fun id _ db _ =>
      .of_requests rfl rfl fun _ _ => ⟨rfl, rfl, rfl, .inl⟩
  have hunits : ∀ db : Db, (db.updateRequest t.requestId fun r =>
      { r with tvQuotaUnits := t.kept }).GivesUp about db := by
    intro db
    refine .of_requests rfl rfl fun r _ => ?_
    split
    · exact ⟨rfl, rfl, rfl, .inl⟩
    · exact Std.Refl.refl r
  have hcompleted : ∀ db : Db, ((if t.completed then c.completeRequest t.requestId
      else skip).final db).GivesUp about db := by
    intro db
    split
    · exact completeRequest_givesUp db t.requestId
    · exact .refl about db
  exact (hcompleted _).trans ((hunits _).trans hdeleted)

theorem saveTitleWrites_givesUp {edit : MediaEdit} (hfalls : edit.Falls about db) :
    ((c.saveTitleWrites edit).final db).GivesUp about db := by
  have hbefore : ((c.beforeUpdateWrites edit).final db).GivesUp about db := by
    unfold beforeUpdateWrites
    rw [final_each]
    refine .foldl_of fun fourK _ db _ => ?_
    split
    · unfold approveWrites
      rw [final_reading, final_each]
      exact .of_hooks (approveChildren_steps c.envs db edit.after.id fourK)
    · exact .refl about db
  have hwrite : ∀ db : Db, edit.Falls about db →
      (((writeTitle c.now db edit []).map Prod.fst).getD db).GivesUp about db := by
    intro db hfalls
    cases hwritten : writeTitle c.now db edit [] with
    | none => exact .refl about db
    | some saved => exact writeTitle_givesUp hwritten hfalls
  have hafter : ∀ (db : Db) dbSeasons,
      ((c.afterUpdateWrites edit dbSeasons).final db).GivesUp about db := by
    intro db dbSeasons
    unfold afterUpdateWrites
    rw [final_each]
    refine .foldl_of fun fourK _ db _ => ?_
    split
    · rw [final_reading, final_each]
      exact .of_hooks (relatedSaves_steps c.envs db)
    · exact .refl about db
  unfold saveTitleWrites
  dsimp only
  split
  · rw [final_andThen, final_reading, final_andThen, final_write]
    exact (hafter _ _).trans ((hwrite _ (hfalls.since hbefore)).trans hbefore)
  · exact hwrite db hfalls

/-- The decline of a request of the title and quality. -/
theorem declineRequest_givesUp {id : Int} (hof : ∀ r ∈ db.requests, r.id = id → r.IsOf about) :
    ((c.declineRequest id).final db).GivesUp about db := by
  unfold declineRequest
  rw [final_reading]
  cases he : db.requestById id with
  | none => exact .refl about db
  | some e =>
    have heid : e.id = id := by simpa using List.find?_some he
    have heof : e.IsOf about := hof e (List.mem_of_find?_eq_some he) heid
    let declined : RequestRow := { e with status := RequestStatus.declined }
    let settles : Int → Bool → Int → Prop := fun id fourK _ => InScope about id fourK
    have hwritten : (writeRequest c.now db declined).1.Hooked declined.Writes settles
        ⟨db, declined⟩ :=
      writeRequest_hooked c.now db ⟨rfl, .inl rfl⟩
    have hparent : (updateParentStatus c.now (writeRequest c.now db declined).1).Hooked
        declined.Writes settles (writeRequest c.now db declined).1 := by
      refine updateParentStatus_hooked c.now _ fun id fourK status h => ?_
      obtain ⟨hmediaId, rfl, -⟩ := hwritten.settles_of h
      exact heof.inScope hmediaId
    have hgive : ∀ db', SaveSteps declined.Writes settles db db' → db'.GivesUp about db := by
      refine fun db' hsteps => .of_steps hsteps (fun id hwrites r hr hrid => ?_) fun _ _ h => h
      exact hof r hr ((hrid.trans hwrites.1).trans heid)
    simp only [Option.elim_some, final_andThen, final_write]
    split
    · exact hgive _ (hwritten.steps.trans hparent.steps)
    · exact hgive _ hwritten.steps

/-- The title, and the requests the plan declines. -/
def scope (c : SeasonReset) (db : Db) : Scope :=
  ⟨c.mediaId, c.fourK, fun id => id ∈ (c.work db).plan.decline⟩

theorem afterReset_falls {m : MediaRow} (hm : db.mediaById c.mediaId = some m) :
    (⟨m, c.afterReset m, []⟩ : MediaEdit).Falls (some (c.scope db)) db := by
  intro _ _ _ _ q hunknown
  have hid : (c.afterReset m).id = c.mediaId := by
    refine Eq.trans ?_ (Db.mediaById_id hm)
    unfold afterReset
    dsimp only
    cases c.fourK <;> split <;> rfl
  by_cases hq : q = c.fourK
  · exact .inr ⟨_, rfl, hid, hq⟩
  · left
    have hother : (c.afterReset m).statusOf q = m.statusOf q := by
      unfold afterReset
      dsimp only
      split
      · rw [Bool.eq_not.mpr hq, MediaRow.statusOf_setStatus_not]
        cases c.fourK <;> rfl
      · cases q <;> rfl
    rwa [hother] at hunknown

/-- Work there is only on a title with a season gone. -/
theorem exists_gone (h : c.work db ≠ {}) :
    ∃ m, db.mediaById c.mediaId = some m ∧ c.gone m ≠ [] := by
  cases hm : db.mediaById c.mediaId with
  | none => exact absurd (by simp [work, hm]) h
  | some m =>
    by_cases hgone : c.gone m = []
    · exact absurd (by simp [work, hm, hgone]) h
    · exact ⟨m, rfl, hgone⟩

/-- What the plan declines is an approved request of the title, which is unknown or had no
season but those that are gone. -/
theorem work_declines {id : Int} (hid : id ∈ (c.work db).plan.decline) :
    ∃ m r, db.mediaById c.mediaId = some m ∧ r ∈ db.requests ∧ c.approved r = true ∧ r.id = id
      ∧ r.abandonedBy (c.gone m) (c.titleUnknown m) = true := by
  unfold work at hid
  split at hid
  · exact absurd hid (by simp)
  · split at hid
    · exact absurd hid (by simp)
    · next m hm _ =>
      obtain ⟨r, hr, rfl⟩ := List.mem_map.mp hid
      obtain ⟨hmem, habandoned⟩ := List.mem_filter.mp hr
      obtain ⟨hmem, happroved⟩ := List.mem_filter.mp hmem
      exact ⟨m, r, hm, hmem, happroved, rfl, habandoned⟩

/-- A title falls to `UNKNOWN` with the last season that was `PROCESSING`. -/
theorem titleUnknown_seasons {m : MediaRow} (h : c.titleUnknown m = true) :
    m.statusOf c.fourK = MediaStatus.unknown
      ∨ ∀ row ∈ m.seasons, row.statusOf c.fourK = MediaStatus.processing →
        c.goneSeason m.tmdbId row = true := by
  have hafter : (c.afterReset m).statusOf c.fourK = MediaStatus.unknown := by
    simpa [titleUnknown] using h
  unfold afterReset at hafter
  dsimp only at hafter
  split at hafter
  · right
    intro row hrow hprocessing
    by_contra hkept
    have hcarries : ∃ s ∈ m.seasons.map (c.resetSeason m.tmdbId),
        carriesTitle (!c.fourK || c.enable4kShow) (s.statusOf c.fourK) := by
      refine ⟨row, List.mem_map.mpr ⟨row, hrow, ?_⟩, .inl hprocessing⟩
      unfold resetSeason
      rw [if_neg fun hgone => hkept hgone.1]
    rw [MediaRow.statusOf_setStatus, rollupShowStatus_of_carries hcarries] at hafter
    split_ifs at hafter
    · exact absurd hafter (by decide)
    · exact absurd hafter (by decide)
    · exact absurd hafter (by decide)
  · left
    cases hq : c.fourK <;> rw [hq] at hafter <;> exact hafter

/-- **The seasons of a title are settled**, and nothing but that title and what the plan
declines is given up. -/
theorem resolve_givesUp (hnodup : (db.requests.map (·.id)).Nodup) :
    (c.resolve.final db).GivesUp (some (c.scope db)) db := by
  have htrims : ((each c.trimRequest (c.work db).plan.trim).final db).GivesUp
      (some (c.scope db)) db := by
    rw [final_each]
    exact .foldl_of fun t _ db _ => trimRequest_givesUp db t
  have hsaved : ∀ db' : Db, db'.GivesUp (some (c.scope db)) db →
      (((c.work db).edit.elim skip c.saveTitleWrites).final db').GivesUp
        (some (c.scope db)) db' := by
    intro db' hsince
    cases hedit : (c.work db).edit with
    | none => exact .refl _ db'
    | some edit =>
      refine saveTitleWrites_givesUp (.since ?_ hsince)
      unfold work at hedit
      split at hedit
      · exact absurd hedit (by simp)
      · next m hm =>
        split at hedit
        · exact absurd hedit (by simp)
        · dsimp only at hedit
          split at hedit
          · cases hedit
            exact afterReset_falls hm
          · exact absurd hedit (by simp)
  have hbefore := (hsaved _ htrims).trans htrims
  rw [resolve_final, final_each]
  refine .trans (.foldl_of fun id hid db' hsince => ?_) hbefore
  refine declineRequest_givesUp fun r hr hrid => ?_
  obtain ⟨r₀, hr₀, hsame⟩ := (hsince.trans hbefore).request hr
  obtain ⟨m, r₁, -, hr₁, happroved, hrid₁, -⟩ := work_declines hid
  obtain rfl := List.inj_on_of_nodup_map hnodup hr₀ hr₁
    (hsame.id.symm.trans (hrid.trans hrid₁.symm))
  simp only [approved, Bool.and_eq_true, beq_iff_eq] at happroved
  refine RequestRow.IsOf.congr hsame.id.symm hsame.mediaId.symm hsame.is4k.symm ?_
  exact ⟨_, rfl, happroved.1.1, happroved.1.2, hrid₁ ▸ hid⟩

end SeasonReset

end Foreseerr

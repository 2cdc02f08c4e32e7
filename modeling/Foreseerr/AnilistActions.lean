import Mathlib.Data.Rat.Floor
import Foreseerr.AnilistSync
import Foreseerr.Resolutions

/-!
# The AniList actions of a title

`mediaactions/anilist.rs` marks, unmarks and rates a title at AniList. The
title is placed on AniList by its mapping edges, the first of which names the
media a save is about (`anilist_id`). What the action *reads* it finds by
another key: the current status, the score to keep and the list entry to
delete come from the first entry of the cached snapshot that has the title's
media type and TMDB id (`lookup_anilist`). The seasons of a show are entries
of their own under one TMDB id, so the two keys can name two seasons.

An action that keeps to its title sends calls about the mapped media only,
reads that media's entry, leaves every other entry of the list, and is shown
by the next read of the title. It does so exactly when the title's first
entry in the snapshot is the first one of the mapped media, or both are
missing, and the status AniList replies is watched when the answered one is.
-/

namespace Foreseerr.AnilistActions

/-! ## Scores -/

/-- `js_round`: halves go up. -/
def jsRound (n : ℚ) : ℚ := ⌊n + 1 / 2⌋

/-- `stars_to_provider`: half-stars as a score of 1 to 10. -/
def starsToProvider (stars : ℚ) : Except String ℚ :=
  if 1 / 2 ≤ stars ∧ stars ≤ 5 then
    .ok (max 1 (min (jsRound (stars * 2)) 10))
  else
    .error "ratingStars must be between 0.5 and 5"

/-- `provider_to_score_raw`. -/
def providerToScoreRaw (rating : ℚ) : ℚ := max 10 (min (jsRound (rating * 10)) 100)

/-! ## The mapping of a title -/

/-- `Item`: a title. -/
structure Item where
  mediaType : MediaType
  tmdbId : Int
deriving DecidableEq, Repr

/-- `positive_id`, of the number an edge's `dst_id` reads as. -/
def positiveId (n : JsNumber) : Option Int :=
  (n.filter (0 < ·)).bind intOf

/-- `anilist_ids`, of the numbers the title's AniList edges lead to. -/
def anilistIds (edges : List JsNumber) : List Int :=
  edges.foldl (fun ids n =>
    match positiveId n with
    | some id => if id ∈ ids then ids else ids ++ [id]
    | none => ids) []

/-- `anilist_id`. -/
def anilistId (edges : List JsNumber) : Option Int := (anilistIds edges).head?

theorem pos_of_positiveId {n : JsNumber} {id : Int} (h : positiveId n = some id) : 0 < id := by
  unfold positiveId at h
  obtain ⟨x, hx, hid⟩ := Option.bind_eq_some_iff.mp h
  have hpos : 0 < x := by
    have := (Option.filter_eq_some_iff.mp hx).2
    simpa using this
  unfold intOf at hid
  split at hid
  · rw [← Option.some.inj hid]
    exact Rat.num_pos.mpr hpos
  · cases hid

/-- A title maps to positive AniList ids only. -/
theorem anilistIds_pos (edges : List JsNumber) : ∀ id ∈ anilistIds edges, 0 < id := by
  unfold anilistIds
  have hfold : ∀ (edges : List JsNumber) (ids : List Int), (∀ id ∈ ids, 0 < id) →
      ∀ id ∈ edges.foldl (fun ids n =>
        match positiveId n with
        | some id => if id ∈ ids then ids else ids ++ [id]
        | none => ids) ids, 0 < id := by
    intro edges
    induction edges with
    | nil => exact fun ids h => h
    | cons n edges ih =>
      intro ids h
      refine ih _ ?_
      dsimp only
      split
      · next id hid =>
        split
        · exact h
        · intro x hx
          rcases List.mem_append.mp hx with hx | hx
          · exact h x hx
          · rw [List.mem_singleton.mp hx]
            exact pos_of_positiveId hid
      · exact h
  exact hfold edges [] (fun id hid => absurd hid List.not_mem_nil)

theorem pos_of_anilistId {edges : List JsNumber} {id : Int} (h : anilistId edges = some id) :
    0 < id :=
  anilistIds_pos edges id (List.mem_of_head? h)

/-! ## What an action reads and sends -/

/-- Whether an entry is one of a title. -/
def Item.has (item : Item) (e : AnilistEntry) : Bool :=
  e.mediaType == item.mediaType && e.tmdbId == item.tmdbId

/-- `lookup_anilist`. -/
def lookupAnilist (snapshot : AnilistSnapshot) (item : Item) : Option AnilistEntry :=
  snapshot.entries.find? item.has

/-- `Status`. -/
structure Status where
  watched : Bool
  rating : Option ℚ
  ratingStars : Option ℚ
  error : Option String
deriving DecidableEq, Repr

/-- `Status::of`. -/
def Status.of (watched : Bool) (rating : Option ℚ) : Status :=
  { watched := watched, rating := rating, ratingStars := rating.map (· / 2), error := none }

/-- The score an entry shows. -/
def ratingOf (entry : Option AnilistEntry) : Option ℚ := (entry.bind (·.rating)).join

/-- The watched flag an entry shows. -/
def watchedOf (entry : Option AnilistEntry) : Bool :=
  isAnilistWatchedStatus (entry.bind (·.status))

/-- `current`, as a status. -/
def current (snapshot : AnilistSnapshot) (item : Item) : Status :=
  Status.of (watchedOf (lookupAnilist snapshot item)) (ratingOf (lookupAnilist snapshot item))

/-- `Save`. -/
structure Save where
  mediaId : Int
  status : Option String
  scoreRaw : Option ℚ
deriving DecidableEq, Repr

/-- A call to AniList. -/
inductive Call
  /-- `save_media_list_entry`. -/
  | save (save : Save)
  /-- `delete_media_list_entry`. -/
  | delete (entryId : Int)
deriving DecidableEq, Repr

/-- The entry a save answers with, as far as the actions read it. -/
structure Saved where
  id : Option Int
  status : Option String
deriving DecidableEq, Repr

/-- What AniList replies to the one call of an action. -/
structure Replies where
  saved : Except String (Option Saved)
  deleted : Except String Unit

/-- `Write`. -/
inductive Write
  | mark (ratingStars : Option ℚ)
  | unmark (removeRating : Bool)
  | rate (stars : ℚ)
deriving DecidableEq, Repr

/-- What an action did: the call it sent, and the patch it kept with the
status it answers, unless it failed. -/
structure Acted where
  call : Option Call
  result : Except String (AnilistPatch × Status)

/-- `AnilistProvider::mark`, past the mapping and the snapshot. -/
def mark (replies : Replies) (snapshot : AnilistSnapshot) (item : Item) (anilistId : Int)
    (ratingStars : Option ℚ) : Acted :=
  let entry := lookupAnilist snapshot item
  match ratingStars.mapM starsToProvider with
  | .error e => { call := none, result := .error e }
  | .ok rating =>
    let save : Save :=
      { mediaId := anilistId, status := some "COMPLETED"
        scoreRaw := rating.map providerToScoreRaw }
    { call := some (.save save)
      result := replies.saved.map fun saved =>
        ({ watched := some true
           status := some (some "COMPLETED")
           anilistId := some anilistId
           listEntryId := some ((saved.bind (·.id)).or (entry.bind (·.listEntryId)))
           rating := rating.map some },
          Status.of true (rating.or (ratingOf entry))) }

/-- The patch of an unmarked entry and the status it answers. -/
def unmarked (entry : Option AnilistEntry) (anilistId : Int) (entryId : Option Int)
    (removeRating : Bool) (saved : Option Saved) : AnilistPatch × Status :=
  let rating := if removeRating then none else ratingOf entry
  let status := (saved.bind (·.status)).or (if removeRating then none else some "PLANNING")
  ({ watched := some false
     status := some status
     rating := some rating
     anilistId := some anilistId
     listEntryId := some ((saved.bind (·.id)).or entryId) },
    Status.of false rating)

/-- `AnilistProvider::unmark`, past the mapping and the snapshot. -/
def unmark (replies : Replies) (snapshot : AnilistSnapshot) (item : Item) (anilistId : Int)
    (removeRating : Bool) : Acted :=
  let entry := lookupAnilist snapshot item
  let entryId := (entry.bind (·.listEntryId)).filter (· ≠ 0)
  match entryId with
  | none => { call := none, result := .ok (unmarked entry anilistId none removeRating none) }
  | some id =>
    if removeRating then
      { call := some (.delete id)
        result := replies.deleted.map fun _ =>
          unmarked entry anilistId (some id) removeRating none }
    else
      let save : Save :=
        { mediaId := anilistId, status := some "PLANNING"
          scoreRaw := (ratingOf entry).map providerToScoreRaw }
      { call := some (.save save)
        result := replies.saved.map fun saved =>
          unmarked entry anilistId (some id) removeRating saved }

/-- The status a rated entry is patched to. -/
def ratedStatus (entry : Option AnilistEntry) (saved : Option Saved) : String :=
  ((saved.bind (·.status)).or (entry.bind (·.status))).getD "PLANNING"

/-- `AnilistProvider::rate`, past the mapping and the snapshot. -/
def rate (replies : Replies) (snapshot : AnilistSnapshot) (item : Item) (anilistId : Int)
    (stars : ℚ) : Acted :=
  let entry := lookupAnilist snapshot item
  match starsToProvider stars with
  | .error e => { call := none, result := .error e }
  | .ok rating =>
    let save : Save :=
      { mediaId := anilistId, status := if entry.isNone then some "PLANNING" else none
        scoreRaw := some (providerToScoreRaw rating) }
    { call := some (.save save)
      result := replies.saved.map fun saved =>
        ({ watched := some (watchedOf entry)
           status := some (some (ratedStatus entry saved))
           rating := some (some rating)
           anilistId := some anilistId
           listEntryId := some ((saved.bind (·.id)).or (entry.bind (·.listEntryId))) },
          Status.of (watchedOf entry) (some rating)) }

/-- `Provider::write`, past the mapping and the snapshot. -/
def act (replies : Replies) (snapshot : AnilistSnapshot) (item : Item) (anilistId : Int) :
    Write → Acted
  | .mark ratingStars => mark replies snapshot item anilistId ratingStars
  | .unmark removeRating => unmark replies snapshot item anilistId removeRating
  | .rate stars => rate replies snapshot item anilistId stars

/-! ## The list at AniList -/

/-- An entry of the user's list, as AniList keeps it. -/
structure ListEntry where
  id : Int
  mediaId : Int
  status : Option String
  scoreRaw : ℚ
deriving DecidableEq, Repr

/-- Whether a call is about an entry: a save names the media, a deletion the
list entry. -/
def Call.about : Call → ListEntry → Bool
  | .save sent, entry => entry.mediaId == sent.mediaId
  | .delete id, entry => entry.id == id

/-- **AniList**, of which the code relies on this: a call leaves the entries
it is not about, and a deleted one is gone. -/
structure Service where
  /-- The list after a call. -/
  after : List ListEntry → Call → List ListEntry
  others : ∀ list call,
    (after list call).filter (fun e => !call.about e) = list.filter fun e => !call.about e
  deleted : ∀ list id, ∀ e ∈ after list (.delete id), e.id ≠ id

/-- The list after AniList has carried out the call of an action. -/
def Service.afterAct (service : Service) (list : List ListEntry) (acted : Acted) :
    List ListEntry :=
  acted.call.elim list (service.after list)

/-! ## The cache -/

/-- The cached half of `warm_anilist`: the pending patches are laid over the
cached snapshot once more. -/
def warm (s : AnilistState) (user : Int) : Option (AnilistState × AnilistSnapshot) :=
  (s.cache.snapshots user).map fun cached =>
    let laid := s.applyPending user cached
    ({ laid.1 with cache := laid.1.cache.insert user laid.2 }, laid.2)

/-- `AnilistProvider::read` of a mapped title, from a warm cache. -/
def read (s : AnilistState) (user : Int) (item : Item) : Option Status :=
  (warm s user).map fun w => current w.2 item

/-- The state after an action: a successful one is patched in. -/
def settled (s : AnilistState) (user : Int) (item : Item) (acted : Acted) : AnilistState :=
  match acted.result with
  | .ok (update, _) => s.patch user ⟨item.mediaType, item.tmdbId, update⟩
  | .error _ => s

/-! ## Keeping to the title -/

/-- A warm cache: the snapshot an action reads is the cached one, which shows
all that was patched. -/
structure Warm (s : AnilistState) (user : Int) (snapshot : AnilistSnapshot) : Prop where
  cached : s.cache.snapshots user = some snapshot
  shown : s.pending user = []

/-- What AniList promises of the ids it gives: every entry of a list has one,
which belongs to one media, and so has the entry a save replies with. -/
structure GivenIds (snapshot : AnilistSnapshot) (list : List ListEntry)
    (replies : Replies) : Prop where
  listed : ∀ e ∈ snapshot.entries, ∃ id, id ≠ 0 ∧ e.listEntryId = some id
  media : ∀ e ∈ snapshot.entries, ∀ r ∈ list, e.listEntryId = some r.id →
    r.mediaId = e.anilistId
  replied : ∀ saved, replies.saved = .ok saved → ∃ id, saved.bind (·.id) = some id

/-- **An action that keeps to the media its title maps to.** -/
structure KeepsToTitle (service : Service) (list : List ListEntry) (s : AnilistState)
    (user : Int) (snapshot : AnilistSnapshot) (item : Item) (anilistId : Int)
    (acted : Acted) : Prop where
  /-- What it reads is the entry of that media. -/
  reads : lookupAnilist snapshot item = lookupAnilistId snapshot anilistId
  saves : ∀ save, acted.call = some (.save save) → save.mediaId = anilistId
  touches : ∀ call, acted.call = some call → ∀ r ∈ list, call.about r → r.mediaId = anilistId
  others : (service.afterAct list acted).filter (fun r => r.mediaId ≠ anilistId)
    = list.filter fun r => r.mediaId ≠ anilistId
  cached : ∀ laid, (settled s user item acted).cache.snapshots user = some laid →
    ∀ other, other ≠ anilistId → entriesOf other laid.entries = entriesOf other snapshot.entries
  shows : ∀ update status, acted.result = .ok (update, status) →
    read (settled s user item acted) user item = some status

/-- The status AniList replies to the save of an action is watched when what
the action answers is. A mark answers without looking at it. -/
def Write.Believes (entry : Option AnilistEntry) (status : String) : Write → Prop
  | .mark _ => True
  | .unmark removeRating => entry.isSome → removeRating = false →
      isAnilistWatchedStatus (some status) = false
  | .rate stars => 1 / 2 ≤ stars → stars ≤ 5 →
      isAnilistWatchedStatus (some status) = watchedOf entry

/-- **The title and its media are one entry**, and AniList's reply agrees with
it. -/
structure OneEntry (snapshot : AnilistSnapshot) (item : Item) (anilistId : Int)
    (replies : Replies) (write : Write) : Prop where
  entry : lookupAnilist snapshot item = lookupAnilistId snapshot anilistId
  status : ∀ saved status, replies.saved = .ok saved → saved.bind (·.status) = some status →
    write.Believes (lookupAnilistId snapshot anilistId) status

/-! ## The patched snapshot, read by title -/

section Laid

variable {item : Item} {a : Int} {p : AnilistPending} {entries : List AnilistEntry}
  {entry : Option AnilistEntry}

/-- The title and the id have the same first entry in a list. -/
structure Agree (item : Item) (anilistId : Int) (entries : List AnilistEntry)
    (entry : Option AnilistEntry) : Prop where
  byTitle : entries.find? item.has = entry
  byId : (entries.find? fun e => e.anilistId == anilistId) = entry

/-- An entry of both keys, placed where the id's first stood, is found by
both. -/
theorem agree_placeEntry {next : AnilistEntry} (hp : p.update.anilistId = some a)
    (htitle : item.has next = true) (hid : next.anilistId = a) (h : Agree item a entries entry) :
    Agree item a (placeEntry p next entries) (some next) := by
  have hnext : (next.anilistId == a) = true := by simp [hid]
  induction entries generalizing entry with
  | nil => exact ⟨List.find?_cons_of_pos htitle, List.find?_cons_of_pos hnext⟩
  | cons e entries ih =>
    rw [placeEntry, targets_of_names hp]
    by_cases he : e.anilistId = a
    · rw [if_pos (by simp [he])]
      exact ⟨List.find?_cons_of_pos htitle, List.find?_cons_of_pos hnext⟩
    · have hne : ¬(e.anilistId == a) = true := by simp [he]
      rw [if_neg hne]
      have hbyId : (entries.find? fun e => e.anilistId == a) = entry := by
        rw [← h.byId, List.find?_cons_of_neg (p := fun e : AnilistEntry => e.anilistId == a) hne]
      -- the title's first entry has the id, so this one is not of the title
      have hother : ¬item.has e = true := by
        intro ht
        have hentry : some e = entry := by
          rw [← h.byTitle, List.find?_cons_of_pos ht]
        exact hne (List.find?_some (p := fun e : AnilistEntry => e.anilistId == a)
          (hbyId.trans hentry.symm))
      have hbyTitle : entries.find? item.has = entry := by
        rw [← h.byTitle, List.find?_cons_of_neg hother]
      have hrest := ih ⟨hbyTitle, hbyId⟩
      refine ⟨?_, ?_⟩
      · rw [List.find?_cons_of_neg hother, hrest.byTitle]
      · rw [List.find?_cons_of_neg (p := fun e : AnilistEntry => e.anilistId == a) hne, hrest.byId]

/-- **A patch answers a watched flag and a score**: it sets the flag, and the
score unless the entry has it, and takes off no entry there is. -/
structure Answers (a : Int) (update : AnilistPatch) (entry : Option AnilistEntry)
    (flag : Bool) (score : Option ℚ) : Prop where
  names : update.anilistId = some a
  watched : update.watched = some flag
  rating : update.rating = some score ∨ update.rating = none ∧ ratingOf entry = score
  keeps : update.removes = true → entry = none ∧ score = none

/-- What a patch with a watched flag makes of a status does not depend on the
one there was. -/
theorem patchedStatus_of_watched {update : AnilistPatch} {watched : Bool}
    (h : update.watched = some watched) (entry : Option AnilistEntry) :
    patchedStatus update entry = patchedStatus update none := by
  unfold patchedStatus
  rw [h]
  cases watched <;> rfl

theorem ratingOf_patchedEntry {flag : Bool} {score : Option ℚ}
    (h : Answers a p.update entry flag score) :
    ratingOf (some (patchedEntry p a entry)) = score := by
  unfold ratingOf patchedEntry
  rcases h.rating with hset | ⟨hnone, hold⟩
  · cases score <;> simp [hset]
  · rw [← hold]
    simp [hnone, ratingOf]

theorem watchedOf_patchedEntry {flag : Bool} {score : Option ℚ}
    (h : Answers a p.update entry flag score) :
    watchedOf (some (patchedEntry p a entry))
      = isAnilistWatchedStatus (patchedStatus p.update none) := by
  rw [← patchedStatus_of_watched h.watched entry]
  rfl

/-- The entry a patch leaves has the score it answers. -/
theorem ratingOf_laidEntry {flag : Bool} {score : Option ℚ}
    (h : Answers a p.update entry flag score) :
    ratingOf (laidEntry a (some p) entry) = score := by
  unfold laidEntry onEntry
  dsimp only
  split
  · next hseen =>
    rcases h.rating with hset | ⟨_, hold⟩
    · have hshown := (entryReflects_iff.mp hseen).rating score hset
      unfold ratingOf
      rw [hshown]
      cases score <;> rfl
    · exact hold
  · split
    · next hremoves =>
      rw [(h.keeps hremoves).2]
      rfl
    · exact ratingOf_patchedEntry h

/-- A patch that takes off no entry leaves none where there was none. -/
theorem laidEntry_of_removes {flag : Bool} {score : Option ℚ}
    (h : Answers a p.update entry flag score) (hremoves : p.update.removes = true) :
    laidEntry a (some p) entry = none := by
  rw [(h.keeps hremoves).1]
  unfold laidEntry onEntry
  simp [hremoves]

/-- Laid once more, a patch answers the same. -/
theorem answers_laidEntry {flag : Bool} {score : Option ℚ}
    (h : Answers a p.update entry flag score) :
    Answers a p.update (laidEntry a (some p) entry) flag score where
  names := h.names
  watched := h.watched
  rating := h.rating.imp id fun hold => ⟨hold.1, ratingOf_laidEntry h⟩
  keeps hremoves := ⟨laidEntry_of_removes h hremoves, (h.keeps hremoves).2⟩

/-- A patch an entry shows sets a status watched as the flag it sets. -/
theorem watched_of_reflects {update : AnilistPatch} {flag : Bool} {status : Option String}
    (hflag : update.watched = some flag) (hstatus : update.status = some status)
    (h : entryReflects entry update = true) :
    isAnilistWatchedStatus (patchedStatus update none) = flag := by
  have hshown := entryReflects_iff.mp h
  have hwatched := hshown.watched flag hflag
  rw [hshown.status status hstatus] at hwatched
  unfold patchedStatus
  rw [hflag, hstatus]
  cases flag with
  | false => cases status <;> simp_all [isAnilistWatchedStatus]
  | true => cases status <;> simp_all [isAnilistWatchedStatus]

/-- **When a patched entry is shown watched as answered**: when the status
the patch sets is. -/
theorem watchedOf_laidEntry_iff {flag : Bool} {score : Option ℚ} {status : Option String}
    (h : Answers a p.update entry flag score) (hstatus : p.update.status = some status)
    (hremoves : p.update.removes = false) :
    watchedOf (laidEntry a (some p) entry) = flag
      ↔ isAnilistWatchedStatus (patchedStatus p.update none) = flag := by
  unfold laidEntry onEntry
  dsimp only
  split
  · next hseen =>
    exact iff_of_true ((entryReflects_iff.mp hseen).watched flag h.watched)
      (watched_of_reflects h.watched hstatus hseen)
  · rw [if_neg (by simp [hremoves]), watchedOf_patchedEntry h]

/-- Laid over a list where the title and the id agree, a patch of both leaves
them agreeing. -/
theorem agree_lay {flag : Bool} {score : Option ℚ} (ha : a ≠ 0)
    (h : Answers a p.update entry flag score) (htype : p.mediaType = item.mediaType)
    (htmdb : p.tmdbId = item.tmdbId) (hagree : Agree item a entries entry) :
    Agree item a (Overlay.lay applyAnilistPatch anilistReflected entries [p]).1
      (laidEntry a (some p) entry) := by
  have hcurrent : entries.find? p.targets = entry := by
    rw [targets_of_names h.names, hagree.byId]
  unfold laidEntry
  dsimp only
  by_cases hseen : entryReflects entry p.update = true
  · rw [Overlay.lay_cons_of_reflected (by rw [anilistReflected, hcurrent, hseen]), if_pos hseen]
    exact hagree
  · rw [Overlay.lay_cons_of_not (by rw [anilistReflected, hcurrent]; exact hseen), if_neg hseen]
    show Agree item a (applyAnilistPatch entries p) (onEntry p a entry)
    rw [applyAnilistPatch_of_names h.names, if_neg ha, hcurrent]
    unfold onEntry
    by_cases hremoves : p.update.removes = true
    · rw [if_pos hremoves, if_pos hremoves]
      have hnone := (h.keeps hremoves).1
      rw [List.eraseP_of_forall_not]
      · exact hnone ▸ hagree
      · rw [hnone] at hcurrent
        exact List.find?_eq_none.mp hcurrent
    · rw [if_neg hremoves, if_neg hremoves]
      exact agree_placeEntry h.names (by simp [Item.has, patchedEntry, htype, htmdb]) rfl hagree

/-- Laying again what stayed pending is laying the patch again. -/
theorem lay_pending (entries : List AnilistEntry) (p : AnilistPending) :
    (Overlay.lay applyAnilistPatch anilistReflected
        (Overlay.lay applyAnilistPatch anilistReflected entries [p]).1
        (Overlay.lay applyAnilistPatch anilistReflected entries [p]).2).1
      = (Overlay.lay applyAnilistPatch anilistReflected
          (Overlay.lay applyAnilistPatch anilistReflected entries [p]).1 [p]).1 := by
  by_cases hseen : anilistReflected entries p = true
  · rw [Overlay.lay_cons_of_reflected hseen]
    show entries = _
    rw [show (Overlay.lay applyAnilistPatch anilistReflected entries []).1 = entries from rfl,
      Overlay.lay_cons_of_reflected hseen]
    rfl
  · rw [Overlay.lay_cons_of_not hseen]
    rfl

end Laid

section Patched

variable {s : AnilistState} {user : Int} {snapshot : AnilistSnapshot} {item : Item} {a : Int}
  {update : AnilistPatch} {entry : Option AnilistEntry} {flag : Bool} {score : Option ℚ}

/-- The cached snapshot after a patch of a warm cache, and what stays
pending. -/
theorem patch_of_warm (hwarm : Warm s user snapshot) (p : AnilistPending) :
    (s.patch user p).cache.snapshots user = some { snapshot with
        entries := (Overlay.lay applyAnilistPatch anilistReflected snapshot.entries [p]).1 }
      ∧ (s.patch user p).pending user
        = (Overlay.lay applyAnilistPatch anilistReflected snapshot.entries [p]).2 := by
  have hkept : (s.keep user p).pending user = [p] := by
    show Function.update s.pending user (coalesceAnilist (s.pending user ++ [p])) user = [p]
    rw [Function.update_self, hwarm.shown]
    rfl
  have hcached : (s.keep user p).cache.snapshots user = some snapshot := hwarm.cached
  unfold AnilistState.patch
  simp only [hcached, AnilistState.applyPending, hkept]
  exact ⟨Function.update_self .., Function.update_self ..⟩

/-- What the next read of a patched title shows. -/
theorem read_patch (hwarm : Warm s user snapshot) (ha : a ≠ 0)
    (hagree : Agree item a snapshot.entries entry) (h : Answers a update entry flag score) :
    read (s.patch user ⟨item.mediaType, item.tmdbId, update⟩) user item
      = some (Status.of
          (watchedOf (laidEntry a (some ⟨item.mediaType, item.tmdbId, update⟩)
            (laidEntry a (some ⟨item.mediaType, item.tmdbId, update⟩) entry)))
          score) := by
  let p : AnilistPending := ⟨item.mediaType, item.tmdbId, update⟩
  obtain ⟨hcached, hpending⟩ := patch_of_warm hwarm p
  have honce := agree_lay (p := p) ha h rfl rfl hagree
  have htwice := agree_lay (p := p) ha (answers_laidEntry h) rfl rfl honce
  have hscore := ratingOf_laidEntry (p := p) (answers_laidEntry (p := p) h)
  show (warm (s.patch user p) user).map (fun w => current w.2 item) = _
  unfold warm
  rw [hcached]
  show some (current { snapshot with
    entries := (Overlay.lay applyAnilistPatch anilistReflected
      (Overlay.lay applyAnilistPatch anilistReflected snapshot.entries [p]).1
      ((s.patch user p).pending user)).1 } item) = _
  rw [hpending, lay_pending]
  unfold current lookupAnilist
  rw [htwice.byTitle, hscore]

/-- **When a patched title is shown as answered**: its entry was taken off, or
the status set is watched as the flag is. -/
theorem shows_iff (hwarm : Warm s user snapshot) (ha : a ≠ 0)
    (hagree : Agree item a snapshot.entries entry) (h : Answers a update entry flag score)
    {status : Option String} (hstatus : update.status = some status) :
    read (s.patch user ⟨item.mediaType, item.tmdbId, update⟩) user item
        = some (Status.of flag score)
      ↔ update.removes = true ∨ isAnilistWatchedStatus (patchedStatus update none) = flag := by
  let p : AnilistPending := ⟨item.mediaType, item.tmdbId, update⟩
  have hstatusOf : ∀ shown, some (Status.of shown score) = some (Status.of flag score)
      ↔ shown = flag := by
    intro shown
    refine ⟨fun heq => congrArg Status.watched (Option.some.inj heq), fun heq => ?_⟩
    rw [heq]
  rw [read_patch hwarm ha hagree h, hstatusOf]
  have hagain := answers_laidEntry (p := p) h
  by_cases hremoves : update.removes = true
  · refine iff_of_true ?_ (.inl hremoves)
    have hflag : flag = false := by
      have hwatched : update.watched = some false := by
        unfold AnilistPatch.removes at hremoves
        simp only [Bool.and_eq_true, beq_iff_eq] at hremoves
        exact hremoves.1
      exact Option.some.inj (h.watched.symm.trans hwatched)
    rw [laidEntry_of_removes (p := p) hagain hremoves, hflag]
    rfl
  · have hkeeps : update.removes = false := by simpa using hremoves
    rw [watchedOf_laidEntry_iff (p := p) hagain hstatus hkeeps]
    exact ⟨.inr, fun h => h.resolve_left hremoves⟩

end Patched

/-! ## What an action sends and answers -/

section Acts

variable {replies : Replies} {snapshot : AnilistSnapshot} {item : Item} {a : Int}
  {list : List ListEntry}

/-- Every save of an action is about the mapped media. -/
theorem mediaId_of_save {write : Write} {save : Save}
    (h : (act replies snapshot item a write).call = some (.save save)) : save.mediaId = a := by
  cases write with
  | mark ratingStars =>
    unfold act mark at h
    dsimp only at h
    split at h
    · cases h
    · rw [← Call.save.inj (Option.some.inj h)]
  | unmark removeRating =>
    unfold act unmark at h
    dsimp only at h
    split at h
    · cases h
    · cases removeRating
      · rw [← Call.save.inj (Option.some.inj h)]
      · cases h
  | rate stars =>
    unfold act rate at h
    dsimp only at h
    split at h
    · cases h
    · rw [← Call.save.inj (Option.some.inj h)]

/-- Every deletion is of the list entry of the entry that was read. -/
theorem read_of_delete {write : Write} {id : Int}
    (h : (act replies snapshot item a write).call = some (.delete id)) :
    ∃ e, lookupAnilist snapshot item = some e ∧ e.listEntryId = some id := by
  cases write with
  | mark ratingStars =>
    unfold act mark at h
    dsimp only at h
    split at h <;> cases h
  | unmark removeRating =>
    unfold act unmark at h
    dsimp only at h
    split at h
    · cases h
    · next entryId hentryId =>
      cases removeRating
      · cases h
      · rw [← Call.delete.inj (Option.some.inj h)]
        exact Option.bind_eq_some_iff.mp (Option.filter_eq_some_iff.mp hentryId).1
  | rate stars =>
    unfold act rate at h
    dsimp only at h
    split at h <;> cases h

/-- The calls of an action that reads the mapped media's entry touch that
media only. -/
theorem touches_mapped (hgiven : GivenIds snapshot list replies)
    (hentry : lookupAnilist snapshot item = lookupAnilistId snapshot a) {write : Write}
    {call : Call} (hcall : (act replies snapshot item a write).call = some call)
    {r : ListEntry} (hr : r ∈ list) (habout : call.about r = true) : r.mediaId = a := by
  cases call with
  | save save =>
    have hmedia : r.mediaId = save.mediaId := by simpa [Call.about] using habout
    exact hmedia.trans (mediaId_of_save hcall)
  | delete id =>
    have hid : r.id = id := by simpa [Call.about] using habout
    obtain ⟨e, he, hlisted⟩ := read_of_delete hcall
    rw [hentry] at he
    have hmedia := hgiven.media e (List.mem_of_find?_eq_some he) r hr (by rw [hlisted, hid])
    exact hmedia.trans (by simpa using List.find?_some he)

/-- Calls about one media leave the list entries of the others. -/
theorem filter_afterAct (service : Service) {acted : Acted}
    (hsaves : ∀ save, acted.call = some (.save save) → save.mediaId = a)
    (htouches : ∀ call, acted.call = some call → ∀ r ∈ list, call.about r = true → r.mediaId = a) :
    (service.afterAct list acted).filter (fun r => r.mediaId ≠ a)
      = list.filter fun r => r.mediaId ≠ a := by
  unfold Service.afterAct
  cases hcall : acted.call with
  | none => rfl
  | some call =>
    show (service.after list call).filter _ = _
    have hafter : ∀ r ∈ service.after list call, call.about r = true → r.mediaId = a := by
      intro r hr habout
      cases call with
      | save save =>
        have hmedia : r.mediaId = save.mediaId := by simpa [Call.about] using habout
        exact hmedia.trans (hsaves save hcall)
      | delete id =>
        exact absurd (by simpa [Call.about] using habout) (service.deleted list id r hr)
    -- among the entries of other media, none is one the call is about
    have hsplit : ∀ l : List ListEntry, (∀ r ∈ l, call.about r = true → r.mediaId = a) →
        l.filter (fun r => r.mediaId ≠ a)
          = (l.filter fun r => !call.about r).filter fun r => r.mediaId ≠ a := by
      intro l hl
      rw [List.filter_filter]
      refine List.filter_congr fun r hr => ?_
      by_cases hmedia : r.mediaId = a
      · simp [hmedia]
      · have hnot : call.about r = false := by
          by_contra habout
          exact hmedia (hl r hr (by simpa using habout))
        simp [hmedia, hnot]
    rw [hsplit _ hafter, service.others, ← hsplit list (htouches call hcall)]

/-- A patch with a flag and a status sets that status, if it agrees. -/
theorem patchedStatus_watched_iff {update : AnilistPatch} {flag : Bool} {status : String}
    (hflag : update.watched = some flag) (hstatus : update.status = some (some status)) :
    isAnilistWatchedStatus (patchedStatus update none) = flag
      ↔ isAnilistWatchedStatus (some status) = flag := by
  unfold patchedStatus
  rw [hflag, hstatus]
  cases flag <;> exact Iff.rfl

/-- An entry of the snapshot is unmarked through its list entry. -/
theorem listed_of_lookup (hgiven : GivenIds snapshot list replies) {e : AnilistEntry}
    (he : lookupAnilist snapshot item = some e) :
    ∃ id, ((lookupAnilist snapshot item).bind (·.listEntryId)).filter (· ≠ 0) = some id := by
  obtain ⟨id, hne, hid⟩ := hgiven.listed e (List.mem_of_find?_eq_some he)
  refine ⟨id, ?_⟩
  rw [he]
  simp [hid, hne, Option.filter]

/-- **What a successful action answers**: its patch answers the status, and
that status will be shown unless AniList replied another. -/
structure Settles (a : Int) (entry : Option AnilistEntry) (replies : Replies) (write : Write)
    (update : AnilistPatch) (answer : Status) : Prop where
  answers : ∃ flag score status, answer = Status.of flag score ∧ Answers a update entry flag score
    ∧ update.status = some status
    ∧ ((update.removes = true ∨ isAnilistWatchedStatus (patchedStatus update none) = flag)
      ↔ ∀ saved status, replies.saved = .ok saved → saved.bind (·.status) = some status →
          write.Believes entry status)

/-- A patch whose status is what AniList replied to a save, or else one that
is watched as the flag is. -/
theorem settles_of_reply {write : Write} {entry : Option AnilistEntry} {update : AnilistPatch}
    {flag : Bool} {score : Option ℚ} {saved : Option Saved} {otherwise : String}
    (hsaved : replies.saved = .ok saved) (h : Answers a update entry flag score)
    (hkeeps : update.removes = false)
    (hstatus : update.status = some (some ((saved.bind (·.status)).getD otherwise)))
    (hbelieves : ∀ status, write.Believes entry status
      ↔ isAnilistWatchedStatus (some status) = flag)
    (hotherwise : isAnilistWatchedStatus (some otherwise) = flag) :
    Settles a entry replies write update (Status.of flag score) := by
  refine ⟨flag, score, _, rfl, h, hstatus, ?_⟩
  rw [hkeeps, patchedStatus_watched_iff h.watched hstatus]
  constructor
  · intro hshown saved' status hsaved' hreplied
    rw [hbelieves, ← hshown.resolve_left Bool.false_ne_true]
    obtain rfl : saved = saved' := Except.ok.inj (hsaved.symm.trans hsaved')
    rw [hreplied]
    rfl
  · intro hreplied
    refine .inr ?_
    cases hstatus : saved.bind (·.status) with
    | none => exact hotherwise
    | some status => exact (hbelieves status).mp (hreplied saved status hsaved hstatus)

theorem settles_mark {ratingStars : Option ℚ}
    {update : AnilistPatch} {answer : Status}
    (h : (mark replies snapshot item a ratingStars).result = .ok (update, answer)) :
    Settles a (lookupAnilist snapshot item) replies (.mark ratingStars) update answer := by
  unfold mark at h
  dsimp only at h
  split at h
  · cases h
  · next rating hrating =>
    cases hsaved : replies.saved with
    | error e => rw [hsaved] at h; cases h
    | ok saved =>
      rw [hsaved] at h
      obtain ⟨rfl, rfl⟩ := Prod.mk.inj (Except.ok.inj h)
      refine ⟨true, _, _, rfl, ⟨rfl, rfl, ?_, fun hremoves => ?_⟩, rfl, ?_⟩
      · cases rating with
        | none => exact .inr ⟨rfl, rfl⟩
        | some rating => exact .inl rfl
      · cases hremoves
      · exact iff_of_true (.inr rfl) fun _ _ _ _ => trivial

theorem settles_unmark (hgiven : GivenIds snapshot list replies) {removeRating : Bool}
    {update : AnilistPatch} {answer : Status}
    (h : (unmark replies snapshot item a removeRating).result = .ok (update, answer)) :
    Settles a (lookupAnilist snapshot item) replies (.unmark removeRating) update answer := by
  unfold unmark at h
  dsimp only at h
  cases hentry : lookupAnilist snapshot item with
  | none =>
    rw [hentry] at h
    obtain ⟨rfl, rfl⟩ := Prod.mk.inj (Except.ok.inj h)
    refine ⟨false, _, _, rfl, ⟨rfl, rfl, .inl rfl, fun _ => ⟨rfl, ?_⟩⟩, rfl, ?_⟩
    · cases removeRating <;> rfl
    · exact iff_of_true (.inl rfl) fun _ _ _ _ hsome => by cases hsome
  | some e =>
    obtain ⟨id, hid⟩ := listed_of_lookup hgiven hentry
    rw [hid] at h
    rw [hentry] at h
    dsimp only at h
    cases removeRating with
    | true =>
      cases hdeleted : replies.deleted with
      | error e => rw [hdeleted] at h; cases h
      | ok _ =>
        rw [hdeleted] at h
        obtain ⟨rfl, rfl⟩ := Prod.mk.inj (Except.ok.inj h)
        refine ⟨false, _, _, rfl, ⟨rfl, rfl, .inl rfl, fun hremoves => ?_⟩, rfl, ?_⟩
        · cases hremoves
        · exact iff_of_true (.inr rfl) fun _ _ _ _ _ hkeep => by cases hkeep
    | false =>
      cases hsaved : replies.saved with
      | error e => rw [if_neg Bool.false_ne_true, hsaved] at h; cases h
      | ok saved =>
        rw [if_neg Bool.false_ne_true, hsaved] at h
        obtain ⟨rfl, rfl⟩ := Prod.mk.inj (Except.ok.inj h)
        obtain ⟨savedId, hsavedId⟩ := hgiven.replied saved hsaved
        have hkeeps : (unmarked (some e) a (some id) false saved).1.removes = false := by
          simp [unmarked, AnilistPatch.removes, hsavedId]
        have hplanning : isAnilistWatchedStatus (some "PLANNING") = false := rfl
        refine settles_of_reply hsaved
          ⟨rfl, rfl, .inl rfl, fun hremoves => absurd (hkeeps.symm.trans hremoves) (by decide)⟩
          hkeeps ?_ (fun status => ?_) hplanning
        · show some ((saved.bind (·.status)).or (some "PLANNING")) = _
          cases saved.bind (·.status) <;> rfl
        · exact ⟨fun hb => hb rfl rfl, fun hunwatched _ _ => hunwatched⟩

theorem starsToProvider_eq_ok {stars rating : ℚ} (h : starsToProvider stars = .ok rating) :
    1 / 2 ≤ stars ∧ stars ≤ 5 := by
  unfold starsToProvider at h
  split at h
  · assumption
  · cases h

theorem settles_rate (hgiven : GivenIds snapshot list replies) {stars : ℚ}
    {update : AnilistPatch} {answer : Status}
    (h : (rate replies snapshot item a stars).result = .ok (update, answer)) :
    Settles a (lookupAnilist snapshot item) replies (.rate stars) update answer := by
  unfold rate at h
  dsimp only at h
  split at h
  · cases h
  · next rating hrating =>
    obtain ⟨hlow, hhigh⟩ := starsToProvider_eq_ok hrating
    cases hsaved : replies.saved with
    | error e => rw [hsaved] at h; cases h
    | ok saved =>
      rw [hsaved] at h
      obtain ⟨savedId, hsavedId⟩ := hgiven.replied saved hsaved
      obtain ⟨rfl, rfl⟩ := Prod.mk.inj (Except.ok.inj h)
      let entry := lookupAnilist snapshot item
      have hkeeps : AnilistPatch.removes
          { watched := some (watchedOf entry)
            status := some (some (ratedStatus entry saved))
            rating := some (some rating)
            anilistId := some a
            listEntryId := some ((saved.bind (·.id)).or (entry.bind (·.listEntryId))) }
          = false := by
        simp [AnilistPatch.removes, hsavedId]
      have hread : isAnilistWatchedStatus (some ((entry.bind (·.status)).getD "PLANNING"))
          = watchedOf entry := by
        unfold watchedOf
        cases entry.bind (·.status) <;> rfl
      refine settles_of_reply hsaved
        ⟨rfl, rfl, .inl rfl, fun hremoves => absurd (hkeeps.symm.trans hremoves) (by decide)⟩
        hkeeps ?_ (fun status => ?_) hread
      · show some (some (ratedStatus entry saved)) = _
        unfold ratedStatus
        cases saved.bind (·.status) <;> rfl
      · exact ⟨fun hb => hb hlow hhigh, fun hwatched _ _ => hwatched⟩

/-- The answer of every successful action settles. -/
theorem settles_act (hgiven : GivenIds snapshot list replies) {write : Write}
    {update : AnilistPatch} {answer : Status}
    (h : (act replies snapshot item a write).result = .ok (update, answer)) :
    Settles a (lookupAnilist snapshot item) replies write update answer := by
  cases write with
  | mark ratingStars => exact settles_mark h
  | unmark removeRating => exact settles_unmark hgiven h
  | rate stars => exact settles_rate hgiven h

/-- A failed action believes whatever AniList replied to its save: it sent
none, or the reply is the failure. -/
theorem believes_of_failed (hgiven : GivenIds snapshot list replies) {write : Write} {e : String}
    (h : (act replies snapshot item a write).result = .error e) {saved : Option Saved}
    (hsaved : replies.saved = .ok saved) (status : String) :
    write.Believes (lookupAnilist snapshot item) status := by
  cases write with
  | mark ratingStars => trivial
  | unmark removeRating =>
    intro hsome hkeep
    obtain ⟨entry, hentry⟩ := Option.isSome_iff_exists.mp hsome
    obtain ⟨id, hid⟩ := listed_of_lookup hgiven hentry
    unfold act unmark at h
    dsimp only at h
    rw [hid, hkeep] at h
    dsimp only at h
    rw [if_neg Bool.false_ne_true, hsaved] at h
    cases h
  | rate stars =>
    intro hlow hhigh
    unfold act rate at h
    dsimp only at h
    have hstars : starsToProvider stars = .ok (max 1 (min (jsRound (stars * 2)) 10)) :=
      if_pos ⟨hlow, hhigh⟩
    rw [hstars, hsaved] at h
    cases h

end Acts

/-! ## When an action keeps to its title -/

/-- **When an action keeps to the media its title maps to**: exactly when the
title's first entry in the snapshot is that media's first, or both are
missing, and AniList's reply is watched when what the action answers is. -/
theorem keeps_to_title_iff {service : Service} {list : List ListEntry} {s : AnilistState}
    {user : Int} {snapshot : AnilistSnapshot} {item : Item} {edges : List JsNumber} {a : Int}
    {replies : Replies} (hmapped : anilistId edges = some a) (hwarm : Warm s user snapshot)
    (hgiven : GivenIds snapshot list replies) (write : Write) :
    KeepsToTitle service list s user snapshot item a (act replies snapshot item a write)
      ↔ OneEntry snapshot item a replies write := by
  have ha : a ≠ 0 := ne_of_gt (pos_of_anilistId hmapped)
  have hagree (hentry : lookupAnilist snapshot item = lookupAnilistId snapshot a) :
      Agree item a snapshot.entries (lookupAnilist snapshot item) := ⟨rfl, hentry.symm⟩
  constructor
  · intro h
    refine ⟨h.reads, fun saved status hsaved hstatus => ?_⟩
    rw [← h.reads]
    cases hresult : (act replies snapshot item a write).result with
    | error e => exact believes_of_failed hgiven hresult hsaved status
    | ok result =>
      obtain ⟨update, answer⟩ := result
      obtain ⟨flag, score, set, rfl, hanswers, hset, hiff⟩ := (settles_act hgiven hresult).answers
      have hshown := h.shows update _ hresult
      unfold settled at hshown
      rw [hresult] at hshown
      exact hiff.mp ((shows_iff hwarm ha (hagree h.reads) hanswers hset).mp hshown)
        saved status hsaved hstatus
  · intro h
    have htouches : ∀ call, (act replies snapshot item a write).call = some call →
        ∀ r ∈ list, call.about r = true → r.mediaId = a :=
      fun call hcall r hr habout => touches_mapped hgiven h.entry hcall hr habout
    refine ⟨h.entry, fun save hsave => mediaId_of_save hsave, htouches,
      filter_afterAct service (fun save hsave => mediaId_of_save hsave) htouches, ?_, ?_⟩
    · intro laid hlaid other hother
      unfold settled at hlaid
      cases hresult : (act replies snapshot item a write).result with
      | error e =>
        rw [hresult] at hlaid
        rw [Option.some.inj (hlaid.symm.trans hwarm.cached)]
      | ok result =>
        obtain ⟨update, answer⟩ := result
        obtain ⟨flag, score, set, rfl, hanswers, -, -⟩ := (settles_act hgiven hresult).answers
        rw [hresult] at hlaid
        have hcached := (patch_of_warm hwarm ⟨item.mediaType, item.tmdbId, update⟩).1
        rw [Option.some.inj (hlaid.symm.trans hcached)]
        refine Overlay.observe_lay (entriesOf other) (fun p hp entries => ?_) snapshot.entries
        rw [List.mem_singleton.mp hp]
        exact entriesOf_applyAnilistPatch_of_ne hanswers.names (Ne.symm hother)
    · intro update answer hresult
      obtain ⟨flag, score, set, rfl, hanswers, hset, hiff⟩ := (settles_act hgiven hresult).answers
      unfold settled
      rw [hresult]
      refine (shows_iff hwarm ha (hagree h.entry) hanswers hset).mpr (hiff.mpr ?_)
      intro saved status hsaved hstatus
      rw [h.entry]
      exact h.status saved status hsaved hstatus

/-! ## Two seasons of one show -/

/-- AniList's list: a save changes the entry of its media, or adds one. -/
def keepList (list : List ListEntry) : Call → List ListEntry
  | .save sent =>
    if list.any (·.mediaId == sent.mediaId) then
      list.map fun e =>
        if e.mediaId = sent.mediaId then
          { e with status := sent.status.or e.status, scoreRaw := sent.scoreRaw.getD e.scoreRaw }
        else e
    else
      list ++ [{ id := list.foldr (fun e n => max e.id n) 0 + 1, mediaId := sent.mediaId
                 status := sent.status.or (some "CURRENT"), scoreRaw := sent.scoreRaw.getD 0 }]
  | .delete id => list.filter fun e => e.id ≠ id

/-- A service that keeps its list so. -/
def listService : Service where
  after := keepList
  others list call := by
    cases call with
    | save sent =>
      unfold keepList
      dsimp only
      split
      · have hkind : ∀ e : ListEntry, (Call.save sent).about
            (if e.mediaId = sent.mediaId then
              { e with
                status := sent.status.or e.status
                scoreRaw := sent.scoreRaw.getD e.scoreRaw }
            else e) = (Call.save sent).about e := by
          intro e
          split <;> rfl
        rw [List.filter_map]
        simp only [Function.comp_def, hkind]
        refine (List.map_congr_left fun e he => ?_).trans (List.map_id _)
        have hother : e.mediaId ≠ sent.mediaId := by
          simpa [Call.about] using (List.mem_filter.mp he).2
        exact if_neg hother
      · rw [List.filter_append, List.filter_cons_of_neg (by simp [Call.about])]
        exact List.append_nil _
    | delete id =>
      show (list.filter fun e => e.id ≠ id).filter _ = _
      rw [List.filter_filter]
      refine List.filter_congr fun e _ => ?_
      by_cases he : e.id = id <;> simp [Call.about, he]
  deleted list id e he := by
    have hne := (List.mem_filter.mp he).2
    simpa using hne

/-- The first season of a show at AniList, watched and scored. -/
def firstSeason : AnilistEntry :=
  { anilistId := 21, listEntryId := some 1, tmdbId := 100, mediaType := .tv
    status := some "COMPLETED", rating := some (some 8) }

/-- The second season, still planned. -/
def secondSeason : AnilistEntry :=
  { anilistId := 22, listEntryId := some 2, tmdbId := 100, mediaType := .tv
    status := some "PLANNING" }

/-- A user's cached list. -/
def watching (entries : List AnilistEntry) : AnilistState :=
  { cache := ({} : UserCache AnilistSnapshot).insert 1 { entries := entries } }

theorem warm_watching (entries : List AnilistEntry) :
    Warm (watching entries) 1 { entries := entries } :=
  ⟨rfl, rfl⟩

/-- The list of the two seasons at AniList. -/
def seasonsList : List ListEntry := [⟨1, 21, some "COMPLETED", 80⟩, ⟨2, 22, some "PLANNING", 0⟩]

/-- AniList replies the planned entry it saved. -/
def planned (id : Int) : Replies :=
  { saved := .ok (some ⟨some id, some "PLANNING"⟩), deleted := .ok () }

theorem givenIds_seasons {entries : List AnilistEntry}
    (h : ∀ e ∈ entries, e = firstSeason ∨ e = secondSeason) (id : Int) :
    GivenIds { entries := entries } seasonsList (planned id) := by
  refine ⟨fun e he => ?_, fun e he r hr => ?_, fun saved hsaved => ?_⟩
  · rcases h e he with rfl | rfl
    · exact ⟨1, by decide, rfl⟩
    · exact ⟨2, by decide, rfl⟩
  · rcases h e he with rfl | rfl <;> revert r <;> decide
  · rw [← Except.ok.inj hsaved]
    exact ⟨id, rfl⟩

/-- The second season stands first, and is the one the title maps to. -/
theorem keeps_to_title_second_first :
    KeepsToTitle listService seasonsList (watching [secondSeason, firstSeason]) 1
      { entries := [secondSeason, firstSeason] } ⟨.tv, 100⟩ 22
      (act (planned 2) { entries := [secondSeason, firstSeason] } ⟨.tv, 100⟩ 22 (.unmark false)) :=
  (keeps_to_title_iff (show anilistId [some 22, some 21] = some 22 by decide +kernel)
    (warm_watching [secondSeason, firstSeason])
    (givenIds_seasons (by decide) 2) (.unmark false)).mpr
    ⟨rfl, fun saved status hsaved hstatus _ _ => by
      rw [← Except.ok.inj hsaved] at hstatus
      rw [← Option.some.inj hstatus]
      rfl⟩

/-- The first season stands first, and the title maps to the second: taking
the second off the list deletes the first, with its score. -/
theorem unmark_deletes_other_season :
    ¬ ∀ (service : Service) (list : List ListEntry) (s : AnilistState) (user : Int)
        (snapshot : AnilistSnapshot) (item : Item) (edges : List JsNumber) (a : Int)
        (replies : Replies) (write : Write), anilistId edges = some a → Warm s user snapshot →
      GivenIds snapshot list replies →
      KeepsToTitle service list s user snapshot item a (act replies snapshot item a write) := by
  intro h
  have hkeeps := h listService seasonsList (watching [firstSeason, secondSeason]) 1
    { entries := [firstSeason, secondSeason] } ⟨.tv, 100⟩ [some 22] 22 (planned 2)
    (.unmark true) (by decide +kernel) (warm_watching _) (givenIds_seasons (by decide) 2)
  have hothers := hkeeps.others
  exact absurd hothers (by decide +kernel)

end Foreseerr.AnilistActions

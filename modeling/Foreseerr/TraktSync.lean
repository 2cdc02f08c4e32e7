import Mathlib
import Foreseerr.KeyedList
import Foreseerr.Overlay
import Foreseerr.Run
import Foreseerr.SyncCache

/-!
# The Trakt sync cache

`mappinglayer/synccache.rs` keeps a user's watched and rated lists as Trakt
answered them, for two hours. A media action changes the cached lists at once
(`patch_trakt`) and keeps its change as a **pending patch**, which is laid
over what Trakt answers later until an answer reflects it.

Two readers judge whether a patch is reflected. A completed fetch judges the
lists Trakt answered (`load_trakt`). A read of the cache judges the *cached*
lists (`fresh_trakt`), and those were changed by the patch itself: the read
drops the patch as if Trakt had caught up with it. The runs below are about
every sequence of the cache's operations, and what a patch is owed is proved
of the runs without such a read (`TraktUndisturbed`).

A list entry is a JSON value; the cache compares its `ids.tmdb` with a title
as a number when it patches and as a text when it looks up, so an entry is
modelled by these two readings of its id and by its rating's.
-/

namespace Foreseerr

/-! ## Snapshots and patches -/

/-- An entry's `ids.tmdb`, as a number and as a text. -/
structure TmdbReading where
  number : JsNumber
  text : String
deriving DecidableEq, Repr

/-- An entry of a Trakt list: the id it gives under its list's key, unless
null, and its rating, unless null. -/
structure TraktEntry where
  tmdb : Option TmdbReading := none
  rating : Option JsNumber := none
deriving DecidableEq, Repr

/-- `TraktSnapshot`. -/
structure TraktSnapshot where
  watchedMovies : List TraktEntry := []
  watchedShows : List TraktEntry := []
  ratingsMovies : List TraktEntry := []
  ratingsShows : List TraktEntry := []
  fetchedAt : ℚ := 0
deriving DecidableEq, Repr

/-- The watched list of a media type. -/
def TraktSnapshot.watched (snapshot : TraktSnapshot) : MediaType → List TraktEntry
  | .movie => snapshot.watchedMovies
  | .tv => snapshot.watchedShows

/-- The ratings list of a media type. -/
def TraktSnapshot.ratings (snapshot : TraktSnapshot) : MediaType → List TraktEntry
  | .movie => snapshot.ratingsMovies
  | .tv => snapshot.ratingsShows

/-- Write both lists of a media type. -/
def TraktSnapshot.setLists (snapshot : TraktSnapshot) (mediaType : MediaType)
    (watched ratings : List TraktEntry) : TraktSnapshot :=
  match mediaType with
  | .movie => { snapshot with watchedMovies := watched, ratingsMovies := ratings }
  | .tv => { snapshot with watchedShows := watched, ratingsShows := ratings }

/-- `TraktPatch`: what a media action changed on one title. A rating is a
score, or `none` to clear it. -/
structure TraktPatch where
  watched : Option Bool := none
  rating : Option (Option ℚ) := none
deriving DecidableEq, Repr

/-- `TraktPending`. -/
structure TraktPending where
  mediaType : MediaType
  tmdbId : Int
  update : TraktPatch
deriving DecidableEq, Repr

/-- The title a pending patch is about. -/
def TraktPending.title (pending : TraktPending) : MediaType × Int :=
  (pending.mediaType, pending.tmdbId)

/-! ## Reading and patching a snapshot -/

/-- `matches_number`: `Number(ids.tmdb) === Number(tmdbId)`. -/
def matchesNumber (tmdbId : Int) (entry : TraktEntry) : Bool :=
  entry.tmdb.any fun tmdb => tmdb.number == some (tmdbId : ℚ)

/-- `matches_text`: `String(ids.tmdb) === String(tmdbId)`. -/
def matchesText (tmdbId : Int) (entry : TraktEntry) : Bool :=
  entry.tmdb.any fun tmdb => tmdb.text == tmdbId.repr

/-- `lookup_trakt`: watched, and the rating of the first matching rating
entry. -/
def lookupTrakt (snapshot : TraktSnapshot) (mediaType : MediaType) (tmdbId : Int) :
    Bool × Option JsNumber :=
  ((snapshot.watched mediaType).any (matchesText tmdbId),
    ((snapshot.ratings mediaType).find? (matchesText tmdbId)).bind (·.rating))

/-- `stub_entry`. -/
def stubEntry (tmdbId : Int) (rating : Option ℚ) : TraktEntry :=
  { tmdb := some { number := some (tmdbId : ℚ), text := tmdbId.repr }
    rating := rating.map some }

/-- The watched list after a patch. -/
def patchWatched (tmdbId : Int) (watched : List TraktEntry) : Option Bool → List TraktEntry
  | some true =>
    if watched.any (matchesNumber tmdbId) then watched else watched ++ [stubEntry tmdbId none]
  | some false => watched.filter fun e => !matchesNumber tmdbId e
  | none => watched

/-- The ratings list after a patch. -/
def patchRatings (tmdbId : Int) (ratings : List TraktEntry) :
    Option (Option ℚ) → List TraktEntry
  | some none => ratings.filter fun e => !matchesNumber tmdbId e
  | some (some rating) =>
    (ratings.filter fun e => !matchesNumber tmdbId e) ++ [stubEntry tmdbId (some rating)]
  | none => ratings

/-- `apply_trakt_patch`. -/
def applyTraktPatch (snapshot : TraktSnapshot) (pending : TraktPending) : TraktSnapshot :=
  snapshot.setLists pending.mediaType
    (patchWatched pending.tmdbId (snapshot.watched pending.mediaType) pending.update.watched)
    (patchRatings pending.tmdbId (snapshot.ratings pending.mediaType) pending.update.rating)

/-- `trakt_reflected`: the snapshot shows every field of the patch. -/
def traktReflected (snapshot : TraktSnapshot) (pending : TraktPending) : Bool :=
  let shown := lookupTrakt snapshot pending.mediaType pending.tmdbId
  pending.update.watched.all (· == shown.1) &&
    match pending.update.rating with
    | some none => shown.2.isNone
    | some (some wanted) => shown.2 == some (some wanted)
    | none => true

/-- An earlier patch of a title with a later one laid over it. -/
def mergeTrakt (previous patch : TraktPending) : TraktPending :=
  { previous with
    update :=
      { watched := patch.update.watched.or previous.update.watched
        rating := patch.update.rating.or previous.update.rating } }

/-- `coalesce_trakt`: one patch per title, later fields winning, in first-seen
order. -/
def coalesceTrakt (patches : List TraktPending) : List TraktPending :=
  KeyedList.coalesce TraktPending.title mergeTrakt patches

/-! ## The operations of the cache -/

/-- The two tables: the cached snapshots, and each user's pending patches. A
user without an entry has no patches. -/
structure TraktState where
  cache : UserCache TraktSnapshot := {}
  pending : Int → List TraktPending := fun _ => []

namespace TraktState

/-- Store a user's pending patches. -/
def setPending (s : TraktState) (user : Int) (patches : List TraktPending) : TraktState :=
  { s with pending := Function.update s.pending user patches }

/-- `apply_trakt_pending`: lay the unreflected patches over a snapshot and drop
the ones it caught up with. -/
def applyPending (s : TraktState) (user : Int) (snapshot : TraktSnapshot) :
    TraktState × TraktSnapshot :=
  let laid := Overlay.lay applyTraktPatch traktReflected snapshot (s.pending user)
  (s.setPending user laid.2, laid.1)

/-- `patch_trakt`: change one title in the cached snapshot, seeding an empty
one, and keep the change. -/
def patch (s : TraktState) (user : Int) (pending : TraktPending) (now : ℚ) : TraktState :=
  let snapshot := (s.cache.snapshots user).getD { fetchedAt := now }
  let patches := coalesceTrakt (s.pending user ++ [pending])
  { cache := s.cache.insert user (applyTraktPatch snapshot pending)
    pending := Function.update s.pending user patches }

/-- The snapshot a cached read takes: unexpired, and of the reader's
generation. -/
def usable (s : TraktState) (user : Int) (generation : Nat × Nat) (now : ℚ) :
    Option TraktSnapshot :=
  (s.cache.snapshots user).filter fun snapshot =>
    !expired now snapshot.fetchedAt && !s.cache.isStale user generation

/-- `fresh_trakt`: the usable snapshot with the pending patches laid over it,
stored back. -/
def fresh (s : TraktState) (user : Int) (generation : Nat × Nat) (now : ℚ) :
    TraktState × Option TraktSnapshot :=
  match s.usable user generation now with
  | none => (s, none)
  | some current =>
    if (s.pending user).length = 0 then
      (s, some current)
    else
      let laid := s.applyPending user current
      ({ laid.1 with cache := laid.1.cache.insert user laid.2 }, some laid.2)

/-- The end of `load_trakt`, over the lists Trakt answered; `generation` is
the one the fetch started in. -/
def load (s : TraktState) (user : Int) (generation : Nat × Nat) (fetched : TraktSnapshot) :
    TraktState × TraktSnapshot :=
  if s.cache.isStale user generation then
    (s, fetched)
  else
    let laid := s.applyPending user fetched
    ({ laid.1 with cache := laid.1.cache.insert user laid.2 }, laid.2)

/-- `invalidate_user_sync_cache`. -/
def invalidate (s : TraktState) (user : Int) : TraktState :=
  { s.setPending user [] with cache := s.cache.invalidateUser user }

/-- `clear_sync_cache`. -/
def clear (s : TraktState) : TraktState :=
  { cache := s.cache.clear, pending := fun _ => [] }

end TraktState

/-- The operations of the cache, each with the clock where it reads it. -/
inductive TraktOp
  /-- `patch_trakt`. -/
  | patch (user : Int) (pending : TraktPending) (now : ℚ)
  /-- `seed_trakt`. -/
  | seed (user : Int) (snapshot : TraktSnapshot)
  /-- A fetch completes in `load_trakt`. -/
  | fetched (user : Int) (generation : Nat × Nat) (snapshot : TraktSnapshot)
  /-- `fresh_trakt`. -/
  | fresh (user : Int) (generation : Nat × Nat) (now : ℚ)
  /-- `invalidate_user_sync_cache`. -/
  | invalidate (user : Int)
  /-- `clear_sync_cache`. -/
  | clear

/-- The state after an operation, and the snapshot it hands out for a user. -/
def TraktState.perform (s : TraktState) : TraktOp → TraktState × Option (Int × TraktSnapshot)
  | .patch user pending now => (s.patch user pending now, none)
  | .seed user snapshot => ({ s with cache := s.cache.insert user snapshot }, none)
  | .fetched user generation snapshot =>
    let loaded := s.load user generation snapshot
    (loaded.1, some (user, loaded.2))
  | .fresh user generation now =>
    let read := s.fresh user generation now
    (read.1, read.2.map fun snapshot => (user, snapshot))
  | .invalidate user => (s.invalidate user, none)
  | .clear => (s.clear, none)

/-- One operation, as a step relation. -/
def TraktStep (s : TraktState) (op : TraktOp) (t : TraktState) : Prop :=
  t = (s.perform op).1

/-! ## Patches are writes of an overlay

Where the two readings of every id agree, a patch of one title is seen under
that title and under no other. -/

/-- An entry whose id reads the same as a number and as a text. -/
def TraktEntry.Coherent (entry : TraktEntry) : Prop :=
  ∀ tmdbId, matchesNumber tmdbId entry = matchesText tmdbId entry

/-- A snapshot of coherent entries. -/
def TraktSnapshot.Coherent (snapshot : TraktSnapshot) : Prop :=
  ∀ mediaType, (∀ e ∈ snapshot.watched mediaType, e.Coherent)
    ∧ ∀ e ∈ snapshot.ratings mediaType, e.Coherent

/-- An entry looks like one title at most. -/
theorem matchesText_unique {entry : TraktEntry} {a b : Int} (ha : matchesText a entry = true)
    (hb : matchesText b entry = true) : a = b := by
  unfold matchesText at ha hb
  cases htmdb : entry.tmdb with
  | none => simp [htmdb] at ha
  | some tmdb =>
    rw [htmdb, Option.any_some, beq_iff_eq] at ha hb
    exact Int.repr_injective (ha.symm.trans hb)

@[simp] theorem matchesText_stubEntry (wanted tmdbId : Int) (rating : Option ℚ) :
    matchesText wanted (stubEntry tmdbId rating) = decide (tmdbId = wanted) := by
  rw [Bool.eq_iff_iff]
  simp only [matchesText, stubEntry, Option.any_some, beq_iff_eq, decide_eq_true_eq]
  exact ⟨fun h => Int.repr_injective h, fun h => congrArg Int.repr h⟩

theorem stubEntry_coherent (tmdbId : Int) (rating : Option ℚ) :
    (stubEntry tmdbId rating).Coherent := by
  intro wanted
  rw [matchesText_stubEntry, Bool.eq_iff_iff]
  simp [matchesNumber, stubEntry]

section Lists

variable {tmdbId other : Int} {entries : List TraktEntry} (h : ∀ e ∈ entries, e.Coherent)
include h

/-- Removing a title's entries leaves none that looks like it. -/
theorem find?_matchesText_filter_self :
    (entries.filter fun e => !matchesNumber tmdbId e).find? (matchesText tmdbId) = none := by
  rw [List.find?_eq_none]
  intro e he
  rw [List.mem_filter] at he
  rw [← h e he.1 tmdbId]
  simpa using he.2

/-- Removing a title's entries leaves the first of every other title. -/
theorem find?_matchesText_filter_of_ne (hne : other ≠ tmdbId) :
    (entries.filter fun e => !matchesNumber tmdbId e).find? (matchesText other)
      = entries.find? (matchesText other) := by
  induction entries with
  | nil => rfl
  | cons e entries ih =>
    have ih := ih fun e he => h e (List.mem_cons_of_mem _ he)
    by_cases hnum : matchesNumber tmdbId e = true
    · have htext : ¬matchesText other e = true := fun hother =>
        hne (matchesText_unique hother ((h e List.mem_cons_self tmdbId).symm.trans hnum))
      rw [List.filter_cons_of_neg (by simp [hnum]), ih, List.find?_cons_of_neg htext]
    · rw [List.filter_cons_of_pos (by simp [hnum]), List.find?_cons, List.find?_cons, ih]

theorem coherent_patchWatched (update : Option Bool) :
    ∀ e ∈ patchWatched tmdbId entries update, e.Coherent := by
  intro e he
  unfold patchWatched at he
  split at he
  · split at he
    · exact h e he
    · rcases List.mem_append.mp he with he | he
      · exact h e he
      · exact List.mem_singleton.mp he ▸ stubEntry_coherent tmdbId none
  · exact h e (List.mem_of_mem_filter he)
  · exact h e he

theorem coherent_patchRatings (update : Option (Option ℚ)) :
    ∀ e ∈ patchRatings tmdbId entries update, e.Coherent := by
  intro e he
  unfold patchRatings at he
  split at he
  · exact h e (List.mem_of_mem_filter he)
  · rcases List.mem_append.mp he with he | he
    · exact h e (List.mem_of_mem_filter he)
    · exact List.mem_singleton.mp he ▸ stubEntry_coherent tmdbId _
  · exact h e he

/-- The watched flag a patch sets is the one looked up. -/
theorem any_patchWatched_self (watched : Bool) :
    (patchWatched tmdbId entries (some watched)).any (matchesText tmdbId) = watched := by
  cases watched with
  | false =>
    rw [← List.isSome_find?, patchWatched, find?_matchesText_filter_self h]
    rfl
  | true =>
    show (if entries.any (matchesNumber tmdbId) then entries
      else entries ++ [stubEntry tmdbId none]).any (matchesText tmdbId) = true
    by_cases hany : entries.any (matchesNumber tmdbId) = true
    · rw [if_pos hany]
      obtain ⟨e, he, hnum⟩ := List.any_eq_true.mp hany
      exact List.any_eq_true.mpr ⟨e, he, (h e he tmdbId).symm.trans hnum⟩
    · rw [if_neg hany]
      simp

/-- A watched flag is seen under its own title only. -/
theorem any_patchWatched_of_ne (update : Option Bool) (hne : other ≠ tmdbId) :
    (patchWatched tmdbId entries update).any (matchesText other)
      = entries.any (matchesText other) := by
  unfold patchWatched
  split
  · split
    · rfl
    · simp [hne.symm]
  · rw [← List.isSome_find?, find?_matchesText_filter_of_ne h hne, List.isSome_find?]
  · rfl

/-- The rating a patch sets is the one looked up. -/
theorem find?_patchRatings_self (rating : Option ℚ) :
    ((patchRatings tmdbId entries (some rating)).find? (matchesText tmdbId)).bind (·.rating)
      = rating.map some := by
  cases rating with
  | none => rw [patchRatings, find?_matchesText_filter_self h]; rfl
  | some score =>
    rw [patchRatings, List.find?_append, find?_matchesText_filter_self h]
    simp [stubEntry, matchesText]

/-- A rating is seen under its own title only. -/
theorem find?_patchRatings_of_ne (update : Option (Option ℚ)) (hne : other ≠ tmdbId) :
    (patchRatings tmdbId entries update).find? (matchesText other)
      = entries.find? (matchesText other) := by
  unfold patchRatings
  split
  · exact find?_matchesText_filter_of_ne h hne
  · rw [List.find?_append, find?_matchesText_filter_of_ne h hne]
    simp [hne.symm]
  · rfl

end Lists

@[simp] theorem TraktSnapshot.watched_setLists (snapshot : TraktSnapshot) (m : MediaType)
    (watched ratings : List TraktEntry) :
    (snapshot.setLists m watched ratings).watched m = watched := by
  cases m <;> rfl

@[simp] theorem TraktSnapshot.ratings_setLists (snapshot : TraktSnapshot) (m : MediaType)
    (watched ratings : List TraktEntry) :
    (snapshot.setLists m watched ratings).ratings m = ratings := by
  cases m <;> rfl

/-- The lists of the other media type stay. -/
theorem TraktSnapshot.lists_setLists_of_ne (snapshot : TraktSnapshot) {m m' : MediaType}
    (watched ratings : List TraktEntry) (h : m' ≠ m) :
    (snapshot.setLists m watched ratings).watched m' = snapshot.watched m'
      ∧ (snapshot.setLists m watched ratings).ratings m' = snapshot.ratings m' := by
  cases m <;> cases m' <;> first | exact ⟨rfl, rfl⟩ | exact absurd rfl h

theorem coherent_applyTraktPatch {snapshot : TraktSnapshot} (p : TraktPending)
    (h : snapshot.Coherent) : (applyTraktPatch snapshot p).Coherent := by
  intro m
  unfold applyTraktPatch
  by_cases hm : m = p.mediaType
  · subst hm
    rw [TraktSnapshot.watched_setLists, TraktSnapshot.ratings_setLists]
    exact ⟨coherent_patchWatched (h p.mediaType).1 _, coherent_patchRatings (h p.mediaType).2 _⟩
  · obtain ⟨hwatched, hratings⟩ := snapshot.lists_setLists_of_ne
      (patchWatched p.tmdbId (snapshot.watched p.mediaType) p.update.watched)
      (patchRatings p.tmdbId (snapshot.ratings p.mediaType) p.update.rating) hm
    rw [hwatched, hratings]
    exact h m

/-- A snapshot shows the fields a patch sets: the watched flag and the rating
its title is looked up with. -/
def Shows (snapshot : TraktSnapshot) (title : MediaType × Int) (update : TraktPatch) : Prop :=
  (∀ watched, update.watched = some watched →
      (lookupTrakt snapshot title.1 title.2).1 = watched)
    ∧ ∀ rating, update.rating = some rating →
      (lookupTrakt snapshot title.1 title.2).2 = rating.map some

/-- `trakt_reflected` says that the snapshot shows the patch. -/
theorem traktReflected_iff {snapshot : TraktSnapshot} {p : TraktPending} :
    traktReflected snapshot p = true ↔ Shows snapshot p.title p.update := by
  unfold traktReflected Shows TraktPending.title
  generalize lookupTrakt snapshot p.mediaType p.tmdbId = shown
  rcases p.update with ⟨watched, rating⟩
  rcases watched with _ | watched <;> rcases rating with _ | _ | rating <;>
    simp [eq_comm (a := shown.1)]

/-- An applied patch is shown. -/
theorem shows_applyTraktPatch {snapshot : TraktSnapshot} (p : TraktPending)
    (h : snapshot.Coherent) : Shows (applyTraktPatch snapshot p) p.title p.update := by
  unfold Shows TraktPending.title lookupTrakt applyTraktPatch
  dsimp only
  rw [TraktSnapshot.watched_setLists, TraktSnapshot.ratings_setLists]
  constructor
  · intro watched hw
    rw [hw]
    exact any_patchWatched_self (h p.mediaType).1 watched
  · intro rating hr
    rw [hr]
    exact find?_patchRatings_self (h p.mediaType).2 rating

/-- An applied patch changes what no other title is looked up with. -/
theorem lookupTrakt_applyTraktPatch_of_ne {snapshot : TraktSnapshot} {p : TraktPending}
    {m : MediaType} {tmdbId : Int} (h : snapshot.Coherent) (hne : (m, tmdbId) ≠ p.title) :
    lookupTrakt (applyTraktPatch snapshot p) m tmdbId = lookupTrakt snapshot m tmdbId := by
  unfold lookupTrakt applyTraktPatch
  by_cases hm : m = p.mediaType
  · subst hm
    have hid : tmdbId ≠ p.tmdbId := fun hid => hne (by rw [hid]; rfl)
    rw [TraktSnapshot.watched_setLists, TraktSnapshot.ratings_setLists,
      any_patchWatched_of_ne (h _).1 _ hid, find?_patchRatings_of_ne (h _).2 _ hid]
  · obtain ⟨hwatched, hratings⟩ := snapshot.lists_setLists_of_ne
      (patchWatched p.tmdbId (snapshot.watched p.mediaType) p.update.watched)
      (patchRatings p.tmdbId (snapshot.ratings p.mediaType) p.update.rating) hm
    rw [hwatched, hratings]

/-- **Trakt's patches are an overlay** on the coherent snapshots. -/
def traktOverlay : Overlay TraktSnapshot TraktPending (MediaType × Int) where
  key := TraktPending.title
  apply := applyTraktPatch
  reflected := traktReflected
  good := TraktSnapshot.Coherent
  good_apply p h := coherent_applyTraktPatch p h
  reflected_apply p h := traktReflected_iff.mpr (shows_applyTraktPatch p h)
  reflected_apply_ne {s p q} h hne := by
    have hlookup : lookupTrakt (applyTraktPatch s p) q.mediaType q.tmdbId
        = lookupTrakt s q.mediaType q.tmdbId := lookupTrakt_applyTraktPatch_of_ne h hne
    rw [Bool.eq_iff_iff, traktReflected_iff, traktReflected_iff]
    unfold Shows TraktPending.title
    rw [hlookup]

/-! ## The invariant of a run -/

/-- A user has one pending patch for each title, and the cached snapshots are
coherent. -/
structure TraktState.Inv (s : TraktState) : Prop where
  titles : ∀ user, ((s.pending user).map TraktPending.title).Nodup
  coherent : ∀ user snapshot, s.cache.snapshots user = some snapshot → snapshot.Coherent

/-- **The operations that leave pending patches to Trakt.** No cached read
takes a snapshot that already shows one of the user's pending patches; no
fetch that an invalidation overtook hands out lists short of a later patch;
and the lists seeded and fetched are coherent. -/
def TraktUndisturbed (s : TraktState) : TraktOp → Prop
  | .seed _ snapshot => snapshot.Coherent
  | .fetched user generation snapshot =>
    snapshot.Coherent ∧ (s.cache.isStale user generation = true →
      ∀ p ∈ s.pending user, traktReflected snapshot p = true)
  | .fresh user generation now =>
    ∀ snapshot, s.usable user generation now = some snapshot →
      ∀ p ∈ s.pending user, traktReflected snapshot p = false
  | _ => True

namespace TraktState

variable {s : TraktState} {user : Int}

theorem title_mergeTrakt (previous patch : TraktPending) :
    (mergeTrakt previous patch).title = previous.title := rfl

theorem titles_setPending (h : s.Inv) {patches : List TraktPending}
    (hp : (patches.map TraktPending.title).Nodup) (other : Int) :
    ((Function.update s.pending user patches other).map TraktPending.title).Nodup := by
  by_cases hu : other = user
  · subst hu
    rwa [Function.update_self]
  · rw [Function.update_of_ne hu]
    exact h.titles other

/-- A pending patch is merged into its title's, or comes last. -/
theorem coalesceTrakt_concat (h : s.Inv) (p : TraktPending) :
    coalesceTrakt (s.pending user ++ [p])
      = KeyedList.upsert TraktPending.title mergeTrakt (s.pending user) p :=
  KeyedList.coalesce_concat_of_nodup (h.titles user) p

/-- Laying the pending patches keeps those the snapshot does not reflect. -/
theorem pending_applyPending (h : s.Inv) {snapshot : TraktSnapshot}
    (hs : snapshot.Coherent) :
    (s.applyPending user snapshot).1.pending
      = Function.update s.pending user
          ((s.pending user).filter fun p => !traktReflected snapshot p) :=
  congrArg (Function.update s.pending user) (traktOverlay.lay_snd hs (h.titles user))

/-- The snapshot the pending patches are laid over shows every one of them. -/
theorem shows_applyPending (h : s.Inv) {snapshot : TraktSnapshot} (hs : snapshot.Coherent)
    {p : TraktPending} (hp : p ∈ s.pending user) :
    Shows (s.applyPending user snapshot).2 p.title p.update :=
  traktReflected_iff.mp (traktOverlay.reflected_lay hs (h.titles user) hp)

theorem coherent_applyPending {snapshot : TraktSnapshot} (hs : snapshot.Coherent) :
    (s.applyPending user snapshot).2.Coherent :=
  traktOverlay.good_lay hs

/-- Laying pending patches over a coherent snapshot and storing it keeps the
invariant. -/
theorem inv_applyPending (h : s.Inv) {snapshot : TraktSnapshot} (hs : snapshot.Coherent) :
    TraktState.Inv { (s.applyPending user snapshot).1 with
      cache := (s.applyPending user snapshot).1.cache.insert user
        (s.applyPending user snapshot).2 } where
  titles other := by
    show ((Function.update s.pending user _ other).map TraktPending.title).Nodup
    refine titles_setPending h ?_ other
    rw [show (Overlay.lay applyTraktPatch traktReflected snapshot (s.pending user)).2
        = (s.pending user).filter fun p => !traktReflected snapshot p from
      traktOverlay.lay_snd hs (h.titles user)]
    exact (h.titles user).sublist (List.filter_sublist.map _)
  coherent :=
    UserCache.forall_snapshots_insert h.coherent (coherent_applyPending hs)

/-- A usable snapshot is the cached one. -/
theorem snapshots_of_usable {generation : Nat × Nat} {now : ℚ} {snapshot : TraktSnapshot}
    (h : s.usable user generation now = some snapshot) :
    s.cache.snapshots user = some snapshot :=
  (Option.filter_eq_some_iff.mp h).1

/-- **Every operation keeps the invariant.** -/
theorem inv_perform (h : s.Inv) {op : TraktOp} (hok : TraktUndisturbed s op) :
    (s.perform op).1.Inv := by
  cases op with
  | patch user p now =>
    refine ⟨titles_setPending h ?_, UserCache.forall_snapshots_insert h.coherent ?_⟩
    · rw [coalesceTrakt_concat h]
      exact KeyedList.nodup_upsert title_mergeTrakt (h.titles user) p
    · refine coherent_applyTraktPatch p ?_
      cases hc : s.cache.snapshots user with
      | none => exact fun m => by cases m <;> exact ⟨nofun, nofun⟩
      | some snapshot => exact h.coherent user snapshot hc
  | seed user snapshot =>
    exact ⟨h.titles, UserCache.forall_snapshots_insert h.coherent hok⟩
  | fetched user generation snapshot =>
    show (s.load user generation snapshot).1.Inv
    unfold load
    split
    · exact h
    · exact inv_applyPending h hok.1
  | fresh user generation now =>
    show (s.fresh user generation now).1.Inv
    unfold fresh
    split
    · exact h
    · next current hcurrent =>
      split
      · exact h
      · exact inv_applyPending h (h.coherent user current (snapshots_of_usable hcurrent))
  | invalidate user =>
    refine ⟨titles_setPending h List.nodup_nil, fun other snapshot hs => ?_⟩
    have hs : Function.update s.cache.snapshots user none other = some snapshot := hs
    by_cases hu : other = user
    · subst hu
      rw [Function.update_self] at hs
      cases hs
    · rw [Function.update_of_ne hu] at hs
      exact h.coherent other snapshot hs
  | clear => exact ⟨fun _ => List.nodup_nil, nofun⟩

theorem inv_empty : TraktState.Inv {} := ⟨fun _ => List.nodup_nil, nofun⟩

/-- The invariant along the undisturbed runs from the empty cache. -/
theorem inv_of_run {ops : List TraktOp}
    (h : Run (Guarded TraktStep TraktUndisturbed) {} ops s) : s.Inv :=
  h.invariant (fun _ _ _ hs hstep => hstep.2 ▸ inv_perform hs hstep.1) inv_empty

end TraktState

/-! ## What a pending patch is owed -/

/-- The operations that withdraw a user's patch of a title: a later patch of
it, and the invalidations. -/
def TraktOp.Withdraws (user : Int) (title : MediaType × Int) : TraktOp → Prop
  | .patch other p _ => other = user ∧ p.title = title
  | .invalidate other => other = user
  | .clear => True
  | _ => False

/-- A fetch whose lists, as Trakt answered them, show a user's patch. -/
def TraktOp.FetchShows (user : Int) (title : MediaType × Int) (update : TraktPatch) :
    TraktOp → Prop
  | .fetched other _ snapshot => other = user ∧ Shows snapshot title update
  | _ => False

namespace TraktState

variable {s : TraktState} {user : Int}

/-- Whose patch is dropped by laying: the snapshot shows it. -/
theorem shows_of_dropped (h : s.Inv) {other : Int} {snapshot : TraktSnapshot}
    (hs : snapshot.Coherent) {p : TraktPending} (hp : p ∈ s.pending user)
    (hdrop : p ∉ (s.applyPending other snapshot).1.pending user) :
    other = user ∧ Shows snapshot p.title p.update := by
  rw [pending_applyPending h hs] at hdrop
  by_cases hu : other = user
  · subst hu
    rw [Function.update_self, List.mem_filter] at hdrop
    refine ⟨rfl, traktReflected_iff.mp ?_⟩
    by_contra hshown
    exact hdrop ⟨hp, by simpa using hshown⟩
  · rw [Function.update_of_ne (Ne.symm hu)] at hdrop
    exact absurd hp hdrop

/-- **Only Trakt takes a pending patch back.** An undisturbed operation that
removes one withdraws it, or is a fetch whose lists show it. -/
theorem withdraws_or_fetchShows (h : s.Inv) {op : TraktOp} (hok : TraktUndisturbed s op)
    {p : TraktPending} (hp : p ∈ s.pending user) (hgone : p ∉ (s.perform op).1.pending user) :
    op.Withdraws user p.title ∨ op.FetchShows user p.title p.update := by
  cases op with
  | patch other q now =>
    by_cases hu : other = user
    · subst hu
      by_cases ht : q.title = p.title
      · exact .inl ⟨rfl, ht⟩
      · refine absurd ?_ hgone
        show p ∈ Function.update s.pending other (coalesceTrakt (s.pending other ++ [q])) other
        rw [Function.update_self, coalesceTrakt_concat h,
          KeyedList.mem_upsert_of_ne title_mergeTrakt (Ne.symm ht)]
        exact hp
    · refine absurd ?_ hgone
      show p ∈ Function.update s.pending other _ user
      rwa [Function.update_of_ne (Ne.symm hu)]
  | seed other snapshot => exact absurd hp hgone
  | fetched other generation snapshot =>
    refine .inr ?_
    change p ∉ (s.load other generation snapshot).1.pending user at hgone
    unfold load at hgone
    split at hgone
    · exact absurd hp hgone
    · exact shows_of_dropped h hok.1 hp hgone
  | fresh other generation now =>
    change p ∉ (s.fresh other generation now).1.pending user at hgone
    unfold fresh at hgone
    split at hgone
    · exact absurd hp hgone
    · next current hcurrent =>
      split at hgone
      · exact absurd hp hgone
      · have hcoh := h.coherent other current (snapshots_of_usable hcurrent)
        obtain ⟨rfl, hshown⟩ := shows_of_dropped h hcoh hp hgone
        have hunseen := hok current hcurrent p hp
        rw [traktReflected_iff.mpr hshown] at hunseen
        cases hunseen
  | invalidate other =>
    by_cases hu : other = user
    · exact .inl hu
    · refine absurd ?_ hgone
      show p ∈ Function.update s.pending other [] user
      rwa [Function.update_of_ne (Ne.symm hu)]
  | clear => exact .inl trivial

/-- A patch is **owed**: some pending patch of its title carries every field it
sets. -/
def Owed (s : TraktState) (user : Int) (title : MediaType × Int) (update : TraktPatch) : Prop :=
  ∃ p ∈ s.pending user, p.title = title
    ∧ (∀ watched, update.watched = some watched → p.update.watched = some watched)
    ∧ ∀ rating, update.rating = some rating → p.update.rating = some rating

/-- What shows the pending patch shows the patch owed. -/
theorem shows_of_carries {snapshot : TraktSnapshot} {title : MediaType × Int}
    {update carried : TraktPatch} (hshown : Shows snapshot title carried)
    (hwatched : ∀ w, update.watched = some w → carried.watched = some w)
    (hrating : ∀ r, update.rating = some r → carried.rating = some r) :
    Shows snapshot title update :=
  ⟨fun w hw => hshown.1 w (hwatched w hw), fun r hr => hshown.2 r (hrating r hr)⟩

/-- A patch is owed from the moment it is made. -/
theorem owed_patch (h : s.Inv) (p : TraktPending) (now : ℚ) :
    (s.patch user p now).Owed user p.title p.update := by
  have hpending : (s.patch user p now).pending user
      = KeyedList.upsert TraktPending.title mergeTrakt (s.pending user) p := by
    show Function.update s.pending user _ user = _
    rw [Function.update_self, coalesceTrakt_concat h]
  have hlookup := KeyedList.lookup_upsert_self title_mergeTrakt (s.pending user) p
  rw [← hpending] at hlookup
  refine ⟨_, KeyedList.mem_of_lookup hlookup, KeyedList.key_of_lookup hlookup, ?_⟩
  cases KeyedList.lookup TraktPending.title p.title (s.pending user) with
  | none => exact ⟨fun _ hw => hw, fun _ hr => hr⟩
  | some previous =>
    exact ⟨fun w hw => by simp [mergeTrakt, hw], fun r hr => by simp [mergeTrakt, hr]⟩

section Step

variable {title : MediaType × Int} {update : TraktPatch} {op : TraktOp}

/-- What is owed stays owed until it is withdrawn or a fetch shows it. -/
theorem owed_perform (h : s.Inv) (hok : TraktUndisturbed s op)
    (howed : s.Owed user title update) (hw : ¬op.Withdraws user title)
    (hf : ¬op.FetchShows user title update) : (s.perform op).1.Owed user title update := by
  obtain ⟨p, hp, rfl, hwatched, hrating⟩ := howed
  refine ⟨p, ?_, rfl, hwatched, hrating⟩
  by_contra hgone
  rcases withdraws_or_fetchShows h hok hp hgone with hp' | hp'
  · exact hw hp'
  · cases op with
    | fetched => exact hf ⟨hp'.1, shows_of_carries hp'.2 hwatched hrating⟩
    | _ => exact hp'

/-- What is owed is shown by every snapshot handed out. -/
theorem shows_perform (h : s.Inv) (hok : TraktUndisturbed s op)
    (howed : s.Owed user title update) {snapshot : TraktSnapshot}
    (hout : (s.perform op).2 = some (user, snapshot)) : Shows snapshot title update := by
  obtain ⟨p, hp, rfl, hwatched, hrating⟩ := howed
  refine shows_of_carries ?_ hwatched hrating
  cases op with
  | fetched other generation fetched =>
    change some (other, (s.load other generation fetched).2) = some (user, snapshot) at hout
    obtain ⟨rfl, rfl⟩ := Prod.mk.inj (Option.some.inj hout)
    unfold load
    split
    · next hstale => exact traktReflected_iff.mp (hok.2 hstale p hp)
    · exact shows_applyPending h hok.1 hp
  | fresh other generation now =>
    change (s.fresh other generation now).2.map _ = some (user, snapshot) at hout
    obtain ⟨read, hread, hpair⟩ := Option.map_eq_some_iff.mp hout
    obtain ⟨rfl, rfl⟩ := Prod.mk.inj hpair
    unfold fresh at hread
    split at hread
    · cases hread
    · next current hcurrent =>
      split at hread
      · next hempty =>
        rw [List.length_eq_zero_iff.mp hempty] at hp
        cases hp
      · obtain rfl := Option.some.inj hread
        exact shows_applyPending h (h.coherent other current (snapshots_of_usable hcurrent)) hp
  | patch => cases hout
  | seed => cases hout
  | invalidate => cases hout
  | clear => cases hout

end Step

/-- What is owed at the start of a run is owed at its end, unless it was
withdrawn or a fetch showed it. -/
theorem owed_of_run {t : TraktState} {ops : List TraktOp} {title : MediaType × Int}
    {update : TraktPatch} (hrun : Run (Guarded TraktStep TraktUndisturbed) s ops t)
    (h : s.Inv) (howed : s.Owed user title update)
    (hops : ∀ op ∈ ops, ¬op.Withdraws user title ∧ ¬op.FetchShows user title update) :
    t.Inv ∧ t.Owed user title update := by
  let Kept : TraktState → Prop := fun s => s.Inv ∧ s.Owed user title update
  have hstep : ∀ s op t, op ∈ ops → Kept s → Guarded TraktStep TraktUndisturbed s op t →
      Kept t := by
    rintro s op _ hop ⟨h, howed⟩ ⟨hok, rfl⟩
    exact ⟨inv_perform h hok, owed_perform h hok howed (hops op hop).1 (hops op hop).2⟩
  exact hrun.invariant_of_mem hstep ⟨h, howed⟩

end TraktState

/-- Only a withdrawal or a fetch that shows it removes a user's pending patch
in the operation. -/
def KeepsPending (s : TraktState) (op : TraktOp) : Prop :=
  ∀ user, ∀ p ∈ s.pending user, p ∉ (s.perform op).1.pending user →
    op.Withdraws user p.title ∨ op.FetchShows user p.title p.update

/-- In the runs of a step relation, what is handed out after a patch shows it,
until it is withdrawn or a fetch shows it. -/
def ShowsPatches (step : TraktState → TraktOp → TraktState → Prop) (s : TraktState) : Prop :=
  ∀ user p now ops t t' op snapshot, Run step (s.patch user p now) ops t →
    (∀ op ∈ ops, ¬op.Withdraws user p.title ∧ ¬op.FetchShows user p.title p.update) →
    step t op t' → (t.perform op).2 = some (user, snapshot) → Shows snapshot p.title p.update

end Foreseerr

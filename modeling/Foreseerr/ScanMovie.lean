import Foreseerr.Clock
import Foreseerr.Database

/-!
# How a scan updates a movie

`apply_movie` of `jobs/scanmedia.rs` folds one entry of a scanned server
into a stored movie row: the status of the entry's quality, the date it was
added, the ids of the media servers and the *arr server it belongs to.

Radarr is scanned server by server, so two entries of one movie reach the
row one after the other. An entry that is **abandoned** – unmonitored, with
nothing downloaded – is not to decide which server the movie belongs to, and
the code holds it back where the row is still processing. What the two
orders leave is settled here exactly: the statuses never depend on the
order, and the service columns do unless the entries satisfy
`ClaimsOrderFree`.
-/

namespace Foreseerr

variable {α : Type}

/-! ## Writing an optional column -/

/-- `non_empty`: a text that is given and not empty. -/
def nonEmpty (value : Option String) : Option String := value.filter (· ≠ "")

/-- `set_if_differs`: an optional column after writing a value, and whether it
differed. -/
def setIfDiffers [DecidableEq α] (field : Option α) (value : α) : Option α × Bool :=
  if field = some value then (field, false) else (some value, true)

/-- `if let Some(value) = given`: the column keeps what it holds when nothing
is given. -/
def setIfGiven [DecidableEq α] (field given : Option α) : Option α × Bool :=
  match given with
  | some value => setIfDiffers field value
  | none => (field, false)

theorem setIfDiffers_fst [DecidableEq α] (field : Option α) (value : α) :
    (setIfDiffers field value).1 = some value := by
  unfold setIfDiffers
  by_cases h : field = some value
  · rw [if_pos h, h]
  · rw [if_neg h]

/-- The column a write calls unchanged is unchanged. -/
theorem setIfDiffers_unchanged [DecidableEq α] {field : Option α} {value : α}
    (h : (setIfDiffers field value).2 = false) : (setIfDiffers field value).1 = field := by
  unfold setIfDiffers at *
  by_cases heq : field = some value
  · rw [if_pos heq]
  · rw [if_neg heq] at h
    exact absurd h (by simp)

/-- A given value replaces the column's, an absent one leaves it. -/
@[simp] theorem setIfGiven_fst [DecidableEq α] (field given : Option α) :
    (setIfGiven field given).1 = given.or field := by
  cases given with
  | none => rfl
  | some value => exact setIfDiffers_fst field value

theorem setIfGiven_unchanged [DecidableEq α] {field given : Option α}
    (h : (setIfGiven field given).2 = false) : (setIfGiven field given).1 = field := by
  cases given with
  | none => rfl
  | some value => exact setIfDiffers_unchanged h

/-- **Two writes of one column commute** exactly when one of them writes
nothing or both write the same. -/
theorem or_or_comm_iff {a b s : Option α} :
    a.or (b.or s) = b.or (a.or s) ↔ a = none ∨ b = none ∨ a = b := by
  cases a <;> cases b <;> simp

/-- The column holds after a write what it held before, exactly when nothing
is written or its own value. -/
theorem or_eq_right_iff {a s : Option α} : a.or s = s ↔ a = none ∨ a = s := by
  cases a <;> simp

/-! ## The service columns -/

/-- The columns after an entry claims them: what it gives, over what they
held. -/
def ServiceColumns.claimedBy (stored given : ServiceColumns) : ServiceColumns :=
  { serviceId := given.serviceId.or stored.serviceId
    externalServiceId := given.externalServiceId.or stored.externalServiceId
    externalServiceSlug := given.externalServiceSlug.or stored.externalServiceSlug }

/-- `set_services`: write the ids given for one quality, and whether any
differed. -/
def setServices (m : MediaRow) (fourK : Bool) (given : ServiceColumns) : MediaRow × Bool :=
  let stored := m.servicesOf fourK
  let serviceId := setIfGiven stored.serviceId given.serviceId
  let externalId := setIfGiven stored.externalServiceId given.externalServiceId
  let slug := setIfGiven stored.externalServiceSlug given.externalServiceSlug
  (m.setServicesOf fourK
      { serviceId := serviceId.1
        externalServiceId := externalId.1
        externalServiceSlug := slug.1 },
    serviceId.2 || externalId.2 || slug.2)

theorem setServices_fst (m : MediaRow) (fourK : Bool) (given : ServiceColumns) :
    (setServices m fourK given).1
      = m.setServicesOf fourK ((m.servicesOf fourK).claimedBy given) := by
  simp [setServices, ServiceColumns.claimedBy]

/-- The row `set_services` calls unchanged is unchanged. -/
theorem setServices_unchanged {m : MediaRow} {fourK : Bool} {given : ServiceColumns}
    (h : (setServices m fourK given).2 = false) : (setServices m fourK given).1 = m := by
  obtain ⟨⟨hservice, hexternal⟩, hslug⟩ :
      ((setIfGiven _ _).2 = false ∧ (setIfGiven _ _).2 = false) ∧
        (setIfGiven _ _).2 = false := by
    simpa only [setServices, Bool.or_eq_false_iff] using h
  simp only [setServices, setIfGiven_unchanged hservice, setIfGiven_unchanged hexternal,
    setIfGiven_unchanged hslug]
  exact m.setServicesOf_servicesOf fourK

/-! ## One entry of a movie -/

/-- `MovieOpts`: what a scan found of a movie on one server. -/
structure MovieOpts where
  is4k : Bool := false
  mediaAddedAt : Option Int := none
  ratingKey : Option String := none
  jellyfinMediaId : Option String := none
  imdbId : Option String := none
  services : ServiceColumns := {}
  processing : Bool := false
  hasFile : Bool := true
deriving DecidableEq, Repr

/-- `movie_reset_deferred`: an *arr scan found a processing movie's entry
abandoned, and its reset waits for the end of the run. -/
def movieResetDeferred (existing : MediaRow) (o : MovieOpts) (deferResets : Bool) : Bool :=
  deferResets && !o.processing && !o.hasFile
    && existing.statusOf o.is4k == MediaStatus.processing

/-- The status an entry that is not deferred gives a movie that is not
available. -/
def nextMovieStatus (previous : Int) (o : MovieOpts) : Int :=
  if !o.processing && o.hasFile then
    MediaStatus.available
  else if !o.processing && !o.hasFile && previous == MediaStatus.processing then
    MediaStatus.unknown
  else if o.processing then
    if previous = MediaStatus.deleted then MediaStatus.deleted else MediaStatus.processing
  else
    previous

/-- The date a scan gives overwrites the row's. -/
def MediaRow.addedAt (m : MediaRow) (at_ : Option Int) : MediaRow :=
  match at_ with
  | some ms => { m with mediaAddedAt := some (iso ms) }
  | none => m

/-- The status step of `apply_movie`: the row, and whether it changed. -/
def settleMovieStatus (m : MediaRow) (o : MovieOpts) (deferred : Bool) : MediaRow × Bool :=
  let previous := m.statusOf o.is4k
  if previous ≠ MediaStatus.available ∧ deferred = false then
    let next := nextMovieStatus previous o
    let m := m.setStatus o.is4k next
    if next ≠ previous then (m.addedAt o.mediaAddedAt, true) else (m, false)
  else
    (m, false)

/-- The date step: an unchanged row without a date takes the one given. -/
def settleMediaAddedAt (m : MediaRow) (changed : Bool) (o : MovieOpts) : MediaRow × Bool :=
  if changed = false ∧ m.mediaAddedAt = none ∧ o.mediaAddedAt.isSome then
    (m.addedAt o.mediaAddedAt, true)
  else
    (m, changed)

/-- The Plex key step, in the column of the entry's quality. -/
def settleRatingKey (m : MediaRow) (o : MovieOpts) : MediaRow × Bool :=
  if o.is4k then
    let field := setIfGiven m.ratingKey4k (nonEmpty o.ratingKey)
    ({ m with ratingKey4k := field.1 }, field.2)
  else
    let field := setIfGiven m.ratingKey (nonEmpty o.ratingKey)
    ({ m with ratingKey := field.1 }, field.2)

/-- The Jellyfin id step, in the column of the entry's quality. -/
def settleJellyfinMediaId (m : MediaRow) (o : MovieOpts) : MediaRow × Bool :=
  if o.is4k then
    let field := setIfGiven m.jellyfinMediaId4k (nonEmpty o.jellyfinMediaId)
    ({ m with jellyfinMediaId4k := field.1 }, field.2)
  else
    let field := setIfGiven m.jellyfinMediaId (nonEmpty o.jellyfinMediaId)
    ({ m with jellyfinMediaId := field.1 }, field.2)

/-- The IMDb id step: the row's own id stays. -/
def settleImdbId (m : MediaRow) (o : MovieOpts) : MediaRow × Bool :=
  match nonEmpty o.imdbId with
  | some imdb =>
    if nonEmpty m.imdbId = none then ({ m with imdbId := some imdb }, true) else (m, false)
  | none => (m, false)

/-- `apply_movie`: the row after an entry of a stored movie, and whether it
changed. -/
def applyMovie (existing : MediaRow) (o : MovieOpts) (deferResets : Bool) :
    MediaRow × Bool :=
  let deferred := movieResetDeferred existing o deferResets
  let status := settleMovieStatus existing o deferred
  let added := settleMediaAddedAt status.1 status.2 o
  let key := settleRatingKey added.1 o
  let jellyfin := settleJellyfinMediaId key.1 o
  let imdb := settleImdbId jellyfin.1 o
  let changed := added.2 || key.2 || jellyfin.2 || imdb.2
  if deferred then
    (imdb.1, changed)
  else
    let services := setServices imdb.1 o.is4k o.services
    (services.1, changed || services.2)

/-! ## An entry that changes nothing

The caller saves the row only where `apply_movie` calls it changed. -/

section Unchanged

variable {m : MediaRow} {o : MovieOpts}

theorem settleMovieStatus_unchanged {deferred : Bool}
    (h : (settleMovieStatus m o deferred).2 = false) :
    (settleMovieStatus m o deferred).1 = m := by
  unfold settleMovieStatus at *
  by_cases hset : m.statusOf o.is4k ≠ MediaStatus.available ∧ deferred = false
  · simp only [if_pos hset] at *
    by_cases hnext : nextMovieStatus (m.statusOf o.is4k) o ≠ m.statusOf o.is4k
    · simp [if_pos hnext] at h
    · rw [if_neg hnext, not_not.mp hnext]
      exact m.setStatus_statusOf o.is4k
  · simp only [if_neg hset]

theorem settleMediaAddedAt_unchanged {changed : Bool}
    (h : (settleMediaAddedAt m changed o).2 = false) :
    (settleMediaAddedAt m changed o).1 = m ∧ changed = false := by
  unfold settleMediaAddedAt at *
  split at h
  · simp at h
  · next hdate => exact ⟨by rw [if_neg hdate], h⟩

theorem settleRatingKey_unchanged (h : (settleRatingKey m o).2 = false) :
    (settleRatingKey m o).1 = m := by
  unfold settleRatingKey at *
  cases hq : o.is4k <;> simp only [hq, if_true, Bool.false_eq_true, if_false] at * <;>
    rw [setIfGiven_unchanged h]

theorem settleJellyfinMediaId_unchanged (h : (settleJellyfinMediaId m o).2 = false) :
    (settleJellyfinMediaId m o).1 = m := by
  unfold settleJellyfinMediaId at *
  cases hq : o.is4k <;> simp only [hq, if_true, Bool.false_eq_true, if_false] at * <;>
    rw [setIfGiven_unchanged h]

theorem settleImdbId_unchanged (h : (settleImdbId m o).2 = false) :
    (settleImdbId m o).1 = m := by
  unfold settleImdbId at *
  cases himdb : nonEmpty o.imdbId with
  | none => rfl
  | some imdb =>
    simp only [himdb] at *
    by_cases hown : nonEmpty m.imdbId = none
    · simp [if_pos hown] at h
    · rw [if_neg hown]

/-- **A row called unchanged is unchanged**: nothing `apply_movie` writes is
lost when the caller does not save it. -/
theorem applyMovie_unchanged {deferResets : Bool}
    (h : (applyMovie m o deferResets).2 = false) : (applyMovie m o deferResets).1 = m := by
  have hsteps : ∀ {deferred : Bool} {status added key jellyfin imdb : MediaRow × Bool},
      status = settleMovieStatus m o deferred → added = settleMediaAddedAt status.1 status.2 o →
      key = settleRatingKey added.1 o → jellyfin = settleJellyfinMediaId key.1 o →
      imdb = settleImdbId jellyfin.1 o →
      (added.2 || key.2 || jellyfin.2 || imdb.2) = false → imdb.1 = m := by
    rintro deferred _ _ _ _ _ rfl rfl rfl rfl rfl hchanged
    simp only [Bool.or_eq_false_iff] at hchanged
    obtain ⟨⟨⟨hadded, hkey⟩, hjellyfin⟩, himdb⟩ := hchanged
    obtain ⟨hrow, hstatus⟩ := settleMediaAddedAt_unchanged hadded
    rw [settleImdbId_unchanged himdb, settleJellyfinMediaId_unchanged hjellyfin,
      settleRatingKey_unchanged hkey, hrow, settleMovieStatus_unchanged hstatus]
  unfold applyMovie at *
  by_cases hdef : movieResetDeferred m o deferResets = true
  · simp only [if_pos hdef] at *
    exact hsteps rfl rfl rfl rfl rfl h
  · simp only [if_neg hdef, Bool.or_eq_false_iff] at *
    rw [setServices_unchanged h.2]
    exact hsteps rfl rfl rfl rfl rfl (by simpa only [Bool.or_eq_false_iff] using h.1)

end Unchanged

/-! ## What one entry does to statuses and services

The steps for the date and the ids of the media servers touch neither, so an
entry acts on the status and the service columns of its own quality alone,
by functions of those columns. -/

@[simp] theorem MediaRow.statusOf_addedAt (m : MediaRow) (at_ : Option Int) (q : Bool) :
    (m.addedAt at_).statusOf q = m.statusOf q := by
  cases at_ <;> rfl

@[simp] theorem MediaRow.servicesOf_addedAt (m : MediaRow) (at_ : Option Int) (q : Bool) :
    (m.addedAt at_).servicesOf q = m.servicesOf q := by
  cases at_ <;> rfl

/-- The rows that differ in neither the statuses nor the service columns. -/
def SameBelonging (m m' : MediaRow) : Prop :=
  ∀ q, m.statusOf q = m'.statusOf q ∧ m.servicesOf q = m'.servicesOf q

instance (m m' : MediaRow) : Decidable (SameBelonging m m') :=
  inferInstanceAs (Decidable
    (∀ q, m.statusOf q = m'.statusOf q ∧ m.servicesOf q = m'.servicesOf q))

namespace SameBelonging

variable {m m' m'' : MediaRow}

theorem trans (h : SameBelonging m m') (h' : SameBelonging m' m'') : SameBelonging m m'' :=
  fun q => ⟨(h q).1.trans (h' q).1, (h q).2.trans (h' q).2⟩

end SameBelonging

theorem settleMediaAddedAt_same (m : MediaRow) (changed : Bool) (o : MovieOpts) :
    SameBelonging (settleMediaAddedAt m changed o).1 m := by
  intro q
  unfold settleMediaAddedAt
  split <;> simp

theorem settleRatingKey_same (m : MediaRow) (o : MovieOpts) :
    SameBelonging (settleRatingKey m o).1 m := by
  intro q
  unfold settleRatingKey
  split <;> exact ⟨rfl, rfl⟩

theorem settleJellyfinMediaId_same (m : MediaRow) (o : MovieOpts) :
    SameBelonging (settleJellyfinMediaId m o).1 m := by
  intro q
  unfold settleJellyfinMediaId
  split <;> exact ⟨rfl, rfl⟩

theorem settleImdbId_same (m : MediaRow) (o : MovieOpts) :
    SameBelonging (settleImdbId m o).1 m := by
  intro q
  unfold settleImdbId
  split
  · split <;> exact ⟨rfl, rfl⟩
  · exact ⟨rfl, rfl⟩

/-- Whether an entry is held back on a row whose quality has a status. -/
def deferredAt (previous : Int) (o : MovieOpts) (deferResets : Bool) : Bool :=
  deferResets && !o.processing && !o.hasFile && previous == MediaStatus.processing

/-- The status of the entry's quality after it. -/
def statusAfter (previous : Int) (o : MovieOpts) (deferResets : Bool) : Int :=
  if previous ≠ MediaStatus.available ∧ deferredAt previous o deferResets = false then
    nextMovieStatus previous o
  else
    previous

/-- The service columns of the entry's quality after it. -/
def servicesAfter (previous : Int) (stored : ServiceColumns) (o : MovieOpts)
    (deferResets : Bool) : ServiceColumns :=
  if deferredAt previous o deferResets then stored else stored.claimedBy o.services

theorem settleMovieStatus_spec (m : MediaRow) (o : MovieOpts) (deferResets : Bool) :
    (settleMovieStatus m o (movieResetDeferred m o deferResets)).1.statusOf o.is4k
        = statusAfter (m.statusOf o.is4k) o deferResets
      ∧ (settleMovieStatus m o (movieResetDeferred m o deferResets)).1.statusOf (!o.is4k)
        = m.statusOf (!o.is4k)
      ∧ ∀ q, (settleMovieStatus m o (movieResetDeferred m o deferResets)).1.servicesOf q
        = m.servicesOf q := by
  have hdef : movieResetDeferred m o deferResets
      = deferredAt (m.statusOf o.is4k) o deferResets := rfl
  rw [hdef]
  unfold settleMovieStatus statusAfter
  by_cases hset : m.statusOf o.is4k ≠ MediaStatus.available
      ∧ deferredAt (m.statusOf o.is4k) o deferResets = false
  · simp only [if_pos hset]
    split <;> simp
  · simp only [if_neg hset]
    simp

/-- The row after every step but the claim of the services. -/
def settled (m : MediaRow) (o : MovieOpts) (deferResets : Bool) : MediaRow :=
  let status := settleMovieStatus m o (movieResetDeferred m o deferResets)
  (settleImdbId (settleJellyfinMediaId (settleRatingKey
    (settleMediaAddedAt status.1 status.2 o).1 o).1 o).1 o).1

theorem settled_same (m : MediaRow) (o : MovieOpts) (deferResets : Bool) :
    SameBelonging (settled m o deferResets)
      (settleMovieStatus m o (movieResetDeferred m o deferResets)).1 :=
  (((settleImdbId_same _ o).trans (settleJellyfinMediaId_same _ o)).trans
    (settleRatingKey_same _ o)).trans (settleMediaAddedAt_same _ _ o)

theorem applyMovie_eq (m : MediaRow) (o : MovieOpts) (deferResets : Bool) :
    (applyMovie m o deferResets).1
      = if movieResetDeferred m o deferResets then settled m o deferResets
        else (settled m o deferResets).setServicesOf o.is4k
          (((settled m o deferResets).servicesOf o.is4k).claimedBy o.services) := by
  rw [← setServices_fst]
  unfold applyMovie settled
  by_cases h : movieResetDeferred m o deferResets = true
  · simp only [if_pos h]
  · simp only [if_neg h]

/-- **An entry acts on its own quality**: its status and its service columns
become functions of what they were, and the other quality's stay. -/
theorem applyMovie_spec (m : MediaRow) (o : MovieOpts) (deferResets : Bool) :
    (applyMovie m o deferResets).1.statusOf o.is4k
        = statusAfter (m.statusOf o.is4k) o deferResets
      ∧ (applyMovie m o deferResets).1.servicesOf o.is4k
        = servicesAfter (m.statusOf o.is4k) (m.servicesOf o.is4k) o deferResets
      ∧ (applyMovie m o deferResets).1.statusOf (!o.is4k) = m.statusOf (!o.is4k)
      ∧ (applyMovie m o deferResets).1.servicesOf (!o.is4k) = m.servicesOf (!o.is4k) := by
  obtain ⟨hown, hother, hservices⟩ := settleMovieStatus_spec m o deferResets
  have hsame := settled_same m o deferResets
  have hdef : movieResetDeferred m o deferResets
      = deferredAt (m.statusOf o.is4k) o deferResets := rfl
  rw [applyMovie_eq, hdef]
  unfold servicesAfter
  split
  · exact ⟨(hsame _).1.trans hown, (hsame _).2.trans (hservices _),
      (hsame _).1.trans hother, (hsame _).2.trans (hservices _)⟩
  · refine ⟨?_, ?_, ?_, ?_⟩
    · rw [MediaRow.statusOf_setServicesOf, (hsame _).1, hown]
    · rw [MediaRow.servicesOf_setServicesOf, (hsame _).2, hservices]
    · rw [MediaRow.statusOf_setServicesOf, (hsame _).1, hother]
    · rw [MediaRow.servicesOf_setServicesOf_not, (hsame _).2, hservices]

/-! ## A live and an abandoned entry -/

/-- A live entry: the server is fetching the movie, or has it. -/
abbrev MovieOpts.live (o : MovieOpts) : Prop := o.processing = true ∨ o.hasFile = true

/-- An abandoned entry: neither fetched nor there. -/
abbrev MovieOpts.abandoned (o : MovieOpts) : Prop := o.processing = false ∧ o.hasFile = false

/-- When the two orders leave one service column the same. `previous` is the
status the quality starts from, `processing` whether the live entry is being
fetched. -/
abbrev ColumnOrderFree (previous : Int) (processing : Bool) (stored live abandoned : Option α) :
    Prop :=
  -- the live entry leaves the row processing, which holds back an abandoned
  -- entry that comes after it
  if processing = true ∧ previous ≠ MediaStatus.available ∧ previous ≠ MediaStatus.deleted then
    previous = MediaStatus.processing ∨ live.isSome ∨ abandoned = none ∨ abandoned = stored
  else if previous = MediaStatus.processing then
    abandoned = none ∨ abandoned = live.or stored
  else
    live = none ∨ abandoned = none ∨ live = abandoned

/-- `ColumnOrderFree` in each of the three service columns of the entries'
quality. -/
structure ClaimsOrderFree (existing : MediaRow) (live abandoned : MovieOpts) : Prop where
  serviceId : ColumnOrderFree (existing.statusOf live.is4k) live.processing
    (existing.servicesOf live.is4k).serviceId live.services.serviceId
    abandoned.services.serviceId
  externalServiceId : ColumnOrderFree (existing.statusOf live.is4k) live.processing
    (existing.servicesOf live.is4k).externalServiceId live.services.externalServiceId
    abandoned.services.externalServiceId
  externalServiceSlug : ColumnOrderFree (existing.statusOf live.is4k) live.processing
    (existing.servicesOf live.is4k).externalServiceSlug live.services.externalServiceSlug
    abandoned.services.externalServiceSlug

section Orders

variable {previous : Int} {stored : ServiceColumns} {live abandoned : MovieOpts}

/-- An abandoned entry is held back exactly on a processing row. -/
theorem deferredAt_abandoned (h : abandoned.abandoned) :
    deferredAt previous abandoned true = (previous == MediaStatus.processing) := by
  simp [deferredAt, h.1, h.2]

/-- A live entry is never held back. -/
theorem deferredAt_live (h : live.live) : deferredAt previous live true = false := by
  rcases h with h | h <;> simp [deferredAt, h]

/-- An abandoned entry leaves every status alone. -/
theorem statusAfter_abandoned (h : abandoned.abandoned) :
    statusAfter previous abandoned true = previous := by
  unfold statusAfter
  split
  · next hset =>
    have hp : (previous == MediaStatus.processing) = false := by
      rw [← deferredAt_abandoned h]
      exact hset.2
    simp [nextMovieStatus, h.1, h.2, hp]
  · rfl

/-- A live entry being fetched takes every status but available and deleted
to processing; a live entry that is there makes the quality available. -/
theorem statusAfter_live (h : live.live) :
    statusAfter previous live true
      = if previous = MediaStatus.available then previous
        else if live.processing = true then
          if previous = MediaStatus.deleted then MediaStatus.deleted
          else MediaStatus.processing
        else MediaStatus.available := by
  unfold statusAfter
  rw [deferredAt_live h]
  by_cases hprev : previous = MediaStatus.available
  · simp [hprev]
  · cases hproc : live.processing with
    | true => simp [hprev, nextMovieStatus, hproc]
    | false =>
      have hfile : live.hasFile = true := by
        rcases h with h | h
        · rw [hproc] at h
          exact absurd h (by decide)
        · exact h
      simp [hprev, nextMovieStatus, hproc, hfile]

/-- A live entry leaves the quality processing exactly when it is being
fetched and the quality was neither available nor deleted. -/
theorem statusAfter_live_eq_processing (h : live.live) :
    statusAfter previous live true = MediaStatus.processing ↔
      live.processing = true ∧ previous ≠ MediaStatus.available
        ∧ previous ≠ MediaStatus.deleted := by
  rw [statusAfter_live h]
  by_cases hprev : previous = MediaStatus.available
  · simp [hprev]
  · by_cases hproc : live.processing = true
    · by_cases hdel : previous = MediaStatus.deleted
      · simp [hproc, hdel]
      · simp [hprev, hproc, hdel]
    · simp [hprev, hproc]

/-- The abandoned entry never decides the status. -/
theorem statusAfter_comm (h : abandoned.abandoned) :
    statusAfter (statusAfter previous live true) abandoned true
      = statusAfter (statusAfter previous abandoned true) live true := by
  rw [statusAfter_abandoned h, statusAfter_abandoned h]

/-- `ColumnOrderFree` says that the two orders write one column alike. -/
theorem columnOrderFree_iff {processing : Bool} {stored live abandoned : Option α} :
    ColumnOrderFree previous processing stored live abandoned ↔
      (if processing = true ∧ previous ≠ MediaStatus.available
          ∧ previous ≠ MediaStatus.deleted then live.or stored
        else abandoned.or (live.or stored))
      = live.or (if previous = MediaStatus.processing then stored
          else abandoned.or stored) := by
  unfold ColumnOrderFree
  by_cases hkeeps : processing = true ∧ previous ≠ MediaStatus.available
      ∧ previous ≠ MediaStatus.deleted
  · rw [if_pos hkeeps, if_pos hkeeps]
    by_cases hprev : previous = MediaStatus.processing
    · simp [hprev]
    · rw [if_neg hprev]
      cases live with
      | none =>
        have h : stored = abandoned.or stored ↔ abandoned = none ∨ abandoned = stored :=
          eq_comm.trans or_eq_right_iff
        simpa [hprev] using h.symm
      | some id => simp
  · rw [if_neg hkeeps, if_neg hkeeps]
    by_cases hprev : previous = MediaStatus.processing
    · rw [if_pos hprev, if_pos hprev]
      exact or_eq_right_iff.symm
    · rw [if_neg hprev, if_neg hprev, eq_comm (a := abandoned.or _), or_or_comm_iff]

/-- The service columns after the live entry and then the abandoned one. -/
theorem servicesAfter_live_abandoned (hl : live.live) (ha : abandoned.abandoned) :
    servicesAfter (statusAfter previous live true)
        (servicesAfter previous stored live true) abandoned true
      = if live.processing = true ∧ previous ≠ MediaStatus.available
          ∧ previous ≠ MediaStatus.deleted then stored.claimedBy live.services
        else (stored.claimedBy live.services).claimedBy abandoned.services := by
  have hfirst : servicesAfter previous stored live true
      = stored.claimedBy live.services := by
    rw [servicesAfter, deferredAt_live hl, if_neg Bool.false_ne_true]
  rw [hfirst, servicesAfter, deferredAt_abandoned ha]
  exact if_congr (beq_iff_eq.trans (statusAfter_live_eq_processing hl)) rfl rfl

/-- The service columns after the abandoned entry and then the live one. -/
theorem servicesAfter_abandoned_live (hl : live.live) (ha : abandoned.abandoned) :
    servicesAfter (statusAfter previous abandoned true)
        (servicesAfter previous stored abandoned true) live true
      = (if previous = MediaStatus.processing then stored
          else stored.claimedBy abandoned.services).claimedBy live.services := by
  rw [servicesAfter, deferredAt_live hl, if_neg Bool.false_ne_true, servicesAfter,
    deferredAt_abandoned ha]
  exact congrArg (ServiceColumns.claimedBy · live.services) (if_congr beq_iff_eq rfl rfl)

/-- The three columns meet `ColumnOrderFree` exactly when the two orders leave
the same service columns. -/
theorem servicesAfter_comm_iff (hl : live.live) (ha : abandoned.abandoned) :
    servicesAfter (statusAfter previous live true)
        (servicesAfter previous stored live true) abandoned true
      = servicesAfter (statusAfter previous abandoned true)
        (servicesAfter previous stored abandoned true) live true
      ↔ ColumnOrderFree previous live.processing stored.serviceId
            live.services.serviceId abandoned.services.serviceId
        ∧ ColumnOrderFree previous live.processing stored.externalServiceId
            live.services.externalServiceId abandoned.services.externalServiceId
        ∧ ColumnOrderFree previous live.processing stored.externalServiceSlug
            live.services.externalServiceSlug abandoned.services.externalServiceSlug := by
  rw [servicesAfter_live_abandoned hl ha, servicesAfter_abandoned_live hl ha,
    columnOrderFree_iff, columnOrderFree_iff, columnOrderFree_iff, ServiceColumns.ext_iff]
  split <;> split <;> rfl

end Orders

/-- The row after two entries of the movie, one after the other. -/
def applyMovies (existing : MediaRow) (first second : MovieOpts) : MediaRow :=
  (applyMovie (applyMovie existing first true).1 second true).1

/-- Two entries of one quality act on its status and service columns one after
the other, and on nothing of the other quality. -/
theorem applyMovies_spec (existing : MediaRow) {first second : MovieOpts}
    (hq : first.is4k = second.is4k) :
    (applyMovies existing first second).statusOf first.is4k
        = statusAfter (statusAfter (existing.statusOf first.is4k) first true) second true
      ∧ (applyMovies existing first second).servicesOf first.is4k
        = servicesAfter (statusAfter (existing.statusOf first.is4k) first true)
            (servicesAfter (existing.statusOf first.is4k)
              (existing.servicesOf first.is4k) first true) second true
      ∧ (applyMovies existing first second).statusOf (!first.is4k)
        = existing.statusOf (!first.is4k)
      ∧ (applyMovies existing first second).servicesOf (!first.is4k)
        = existing.servicesOf (!first.is4k) := by
  obtain ⟨hstatus, hservices, hstatus', hservices'⟩ := applyMovie_spec existing first true
  have hsecond := applyMovie_spec (applyMovie existing first true).1 second true
  rw [← hq, hstatus, hservices, hstatus', hservices'] at hsecond
  exact hsecond

/-- **An abandoned entry decides a server exactly when its claim is not the
live entry's.** After a live and an abandoned entry of one quality, the two
orders leave the same statuses and the same service columns of both qualities
if and only if `ClaimsOrderFree` holds of the row and the entries. -/
theorem sameBelonging_applyMovies_iff (existing : MediaRow) (live abandoned : MovieOpts)
    (hq : live.is4k = abandoned.is4k) (hl : live.live) (ha : abandoned.abandoned) :
    SameBelonging (applyMovies existing live abandoned) (applyMovies existing abandoned live)
      ↔ ClaimsOrderFree existing live abandoned := by
  obtain ⟨hst, hsv, hst', hsv'⟩ := applyMovies_spec existing hq
  obtain ⟨kst, ksv, kst', ksv'⟩ := applyMovies_spec existing hq.symm
  rw [← hq] at kst ksv kst' ksv'
  have hservices : (applyMovies existing live abandoned).servicesOf live.is4k
        = (applyMovies existing abandoned live).servicesOf live.is4k
      ↔ ClaimsOrderFree existing live abandoned := by
    rw [hsv, ksv, servicesAfter_comm_iff hl ha]
    exact ⟨fun ⟨h₁, h₂, h₃⟩ => ⟨h₁, h₂, h₃⟩, fun ⟨h₁, h₂, h₃⟩ => ⟨h₁, h₂, h₃⟩⟩
  constructor
  · intro h
    exact hservices.mp (h live.is4k).2
  · intro h q
    by_cases hown : q = live.is4k
    · subst hown
      exact ⟨by rw [hst, kst, statusAfter_comm ha], hservices.mpr h⟩
    · obtain rfl : q = !live.is4k := Bool.eq_not_of_ne hown
      exact ⟨hst'.trans kst'.symm, hsv'.trans ksv'.symm⟩

/-- A processing movie: the abandoned entry is held back in both orders. -/
theorem sameBelonging_of_processing :
    SameBelonging
      (applyMovies { status := 3 } { processing := true, services := { serviceId := some 1 } }
        { hasFile := false, services := { serviceId := some 2 } })
      (applyMovies { status := 3 } { hasFile := false, services := { serviceId := some 2 } }
        { processing := true, services := { serviceId := some 1 } }) :=
  (sameBelonging_applyMovies_iff { status := 3 }
    { processing := true, services := { serviceId := some 1 } }
    { hasFile := false, services := { serviceId := some 2 } } rfl (by decide) (by decide)).mpr
    ⟨by decide, by decide, by decide⟩

/-- An unknown movie that the first server has and the second abandoned
belongs to whichever of the two was scanned last. -/
theorem abandoned_entry_takes_the_server :
    ¬ ∀ (existing : MediaRow) (live abandoned : MovieOpts), live.is4k = abandoned.is4k →
      live.live → abandoned.abandoned →
      SameBelonging (applyMovies existing live abandoned)
        (applyMovies existing abandoned live) := by
  intro h
  have hcase := h { status := 1 } { services := { serviceId := some 1 } }
    { hasFile := false, services := { serviceId := some 2 } } rfl (by decide) (by decide)
  exact absurd hcase (by decide)

end Foreseerr

import Foreseerr.KeyedList
import Foreseerr.Overlay
import Foreseerr.Run
import Foreseerr.SyncCache

/-!
# The AniList sync cache

AniList's half of `mappinglayer/synccache.rs`. A snapshot is a list of
entries, each with its own AniList id; several of them, the seasons of one
show, may map to one TMDB title. A patch names the entry it is about by
AniList id and is applied and judged by that id, but the pending patches of a
user are coalesced by *title*. The library's two notions of a key then part
ways, and a field patched for one season can end up on another.

What an entry is owed is stated for one AniList id at a time: in the runs of
`patch_anilist` that keep that id's pending patch apart
(`AnilistApart`), a later snapshot of the provider shows the entry as that
id's patches alone leave it.
-/

namespace Foreseerr

/-! ## Entries and patches -/

/-- `AnilistSyncEntry`. -/
structure AnilistEntry where
  anilistId : Int
  listEntryId : Option Int := none
  tmdbId : Int := 0
  mediaType : MediaType := .movie
  status : Option String := none
  rating : Option JsNumber := none
  progress : Option JsNumber := none
  episodeCount : Option JsNumber := none
deriving DecidableEq, Repr

/-- `AnilistUserSnapshot`. -/
structure AnilistSnapshot where
  entries : List AnilistEntry := []
  fetchedAt : ℚ := 0
deriving DecidableEq, Repr

/-- `AnilistSyncItemPatch`. A doubled option is a field that can be set to
`null`. -/
structure AnilistPatch where
  watched : Option Bool := none
  rating : Option (Option ℚ) := none
  listEntryId : Option (Option Int) := none
  status : Option (Option String) := none
  anilistId : Option Int := none
  progress : Option (Option ℚ) := none
  episodeCount : Option (Option ℚ) := none
deriving DecidableEq, Repr

/-- `AnilistPatch::over`: `{ ...previous, ...self }`. -/
def AnilistPatch.over (self previous : AnilistPatch) : AnilistPatch :=
  { watched := self.watched.or previous.watched
    rating := self.rating.or previous.rating
    listEntryId := self.listEntryId.or previous.listEntryId
    status := self.status.or previous.status
    anilistId := self.anilistId.or previous.anilistId
    progress := self.progress.or previous.progress
    episodeCount := self.episodeCount.or previous.episodeCount }

/-- `AnilistPending`. -/
structure AnilistPending where
  mediaType : MediaType
  tmdbId : Int
  update : AnilistPatch
deriving DecidableEq, Repr

/-- The title a pending patch is kept under. -/
def AnilistPending.title (pending : AnilistPending) : MediaType × Int :=
  (pending.mediaType, pending.tmdbId)

/-- `targets`: the entry a patch is about, by AniList id when it names one,
else by title. -/
def AnilistPending.targets (pending : AnilistPending) (entry : AnilistEntry) : Bool :=
  match pending.update.anilistId with
  | some id => entry.anilistId == id
  | none => entry.mediaType == pending.mediaType && entry.tmdbId == pending.tmdbId

/-- `is_anilist_watched_status`. -/
def isAnilistWatchedStatus (status : Option String) : Bool :=
  status == some "COMPLETED" || status == some "REPEATING"

/-- `lookup_anilist_id`. -/
def lookupAnilistId (snapshot : AnilistSnapshot) (anilistId : Int) : Option AnilistEntry :=
  snapshot.entries.find? fun e => e.anilistId == anilistId

/-! ## Applying a patch -/

/-- A patch that takes the entry off the list. -/
def AnilistPatch.removes (update : AnilistPatch) : Bool :=
  update.watched == some false && update.listEntryId == some none

/-- The status an entry has after a patch. -/
def patchedStatus (update : AnilistPatch) (current : Option AnilistEntry) : Option String :=
  let watched := update.watched.getD (current.any fun c => isAnilistWatchedStatus c.status)
  let status := update.status.join.or <|
    match update.watched with
    | some true => some "COMPLETED"
    | some false => none
    | none => current.bind (·.status)
  if watched then status.or (some "COMPLETED") else status

/-- The entry after a patch, `current` being the one it was about. -/
def patchedEntry (pending : AnilistPending) (anilistId : Int)
    (current : Option AnilistEntry) : AnilistEntry :=
  let update := pending.update
  { anilistId := anilistId
    listEntryId := update.listEntryId.getD (current.bind (·.listEntryId))
    tmdbId := pending.tmdbId
    mediaType := pending.mediaType
    status := patchedStatus update current
    rating := (update.rating.map (·.map some)).getD (current.bind (·.rating))
    progress := (update.progress.map (·.map some)).getD (current.bind (·.progress))
    episodeCount :=
      (update.episodeCount.map (·.map some)).getD (current.bind (·.episodeCount)) }

/-- Replace the first entry a patch is about, or append one. -/
def placeEntry (pending : AnilistPending) (next : AnilistEntry) :
    List AnilistEntry → List AnilistEntry
  | [] => [next]
  | e :: entries =>
    if pending.targets e then next :: entries else e :: placeEntry pending next entries

/-- `apply_anilist_patch`. -/
def applyAnilistPatch (entries : List AnilistEntry) (pending : AnilistPending) :
    List AnilistEntry :=
  let current := entries.find? pending.targets
  let anilistId := (pending.update.anilistId.or (current.map (·.anilistId))).filter (· ≠ 0)
  match anilistId with
  | none => entries
  | some anilistId =>
    if pending.update.removes then
      entries.eraseP pending.targets
    else
      placeEntry pending (patchedEntry pending anilistId current) entries

/-- Whether a set number differs from the one an entry has. -/
def numberDiffers (wanted : Option (Option ℚ)) (have_ : Option JsNumber) : Bool :=
  wanted.any fun w => w.map some != have_

/-- What `anilist_reflected` asks of the entry a patch is about. -/
def entryReflects (entry : Option AnilistEntry) (update : AnilistPatch) : Bool :=
  update.watched.all (· == isAnilistWatchedStatus (entry.bind (·.status)))
    && !(numberDiffers update.rating (entry.bind (·.rating))
      || numberDiffers update.progress (entry.bind (·.progress))
      || numberDiffers update.episodeCount (entry.bind (·.episodeCount)))
    && update.listEntryId.all (· == entry.bind (·.listEntryId))
    && update.status.all (· == entry.bind (·.status))

/-- `anilist_reflected`. -/
def anilistReflected (entries : List AnilistEntry) (pending : AnilistPending) : Bool :=
  entryReflects (entries.find? pending.targets) pending.update

/-- An earlier patch of a title with a later one laid over it. -/
def mergeAnilist (previous patch : AnilistPending) : AnilistPending :=
  { previous with update := patch.update.over previous.update }

/-- `coalesce_anilist`: one patch per title, in first-seen order. -/
def coalesceAnilist (patches : List AnilistPending) : List AnilistPending :=
  KeyedList.coalesce AnilistPending.title mergeAnilist patches

/-! ## The operations of the cache -/

/-- The two tables: the cached snapshots, and each user's pending patches. -/
structure AnilistState where
  cache : UserCache AnilistSnapshot := {}
  pending : Int → List AnilistPending := fun _ => []

namespace AnilistState

/-- `apply_anilist_pending`: the snapshot with the unreflected patches laid
over it, and the state that keeps those. -/
def applyPending (s : AnilistState) (user : Int) (snapshot : AnilistSnapshot) :
    AnilistState × AnilistSnapshot :=
  let laid := Overlay.lay applyAnilistPatch anilistReflected snapshot.entries (s.pending user)
  ({ s with pending := Function.update s.pending user laid.2 },
    { snapshot with entries := laid.1 })

/-- The first step of `patch_anilist`: keep a change. -/
def keep (s : AnilistState) (user : Int) (pending : AnilistPending) : AnilistState :=
  let patches := coalesceAnilist (s.pending user ++ [pending])
  { s with pending := Function.update s.pending user patches }

/-- `patch_anilist`: keep a change, and lay what is pending over the cached
snapshot when there is one. -/
def patch (s : AnilistState) (user : Int) (pending : AnilistPending) : AnilistState :=
  let kept := s.keep user pending
  match kept.cache.snapshots user with
  | none => kept
  | some current =>
    let laid := kept.applyPending user current
    { laid.1 with cache := laid.1.cache.insert user laid.2 }

end AnilistState

/-- One call of `patch_anilist`. -/
def AnilistStep (s : AnilistState) (call : Int × AnilistPending) (t : AnilistState) : Prop :=
  t = s.patch call.1 call.2

/-! ## One AniList id at a time

A patch that names an id changes the entries of that id and no others, and is
judged by them alone. -/

/-- The entries of an AniList id; AniList lists each id once. -/
def entriesOf (anilistId : Int) (entries : List AnilistEntry) : List AnilistEntry :=
  entries.filter fun e => e.anilistId == anilistId

/-- A patch that names an AniList id. -/
def AnilistPending.names (anilistId : Int) (pending : AnilistPending) : Bool :=
  pending.update.anilistId == some anilistId

theorem AnilistPending.names_iff {anilistId : Int} {p : AnilistPending} :
    p.names anilistId = true ↔ p.update.anilistId = some anilistId :=
  beq_iff_eq

section Entries

variable {a b : Int} {p : AnilistPending} {entries : List AnilistEntry}

theorem targets_of_names (hp : p.update.anilistId = some b) :
    p.targets = fun e => e.anilistId == b := by
  funext e
  unfold AnilistPending.targets
  rw [hp]

theorem find?_targets (hp : p.update.anilistId = some a) :
    entries.find? p.targets = (entriesOf a entries).head? := by
  rw [targets_of_names hp, entriesOf, List.head?_filter]

theorem anilistReflected_of_names (hp : p.update.anilistId = some a) :
    anilistReflected entries p = entryReflects (entriesOf a entries).head? p.update := by
  rw [anilistReflected, find?_targets hp]

/-- Placing an entry of one id leaves the entries of another. -/
theorem entriesOf_placeEntry_of_ne {next : AnilistEntry} (hp : p.update.anilistId = some b)
    (hnext : next.anilistId = b) (hne : b ≠ a) :
    entriesOf a (placeEntry p next entries) = entriesOf a entries := by
  have hdrop : ∀ e : AnilistEntry, e.anilistId = b → ∀ l, entriesOf a (e :: l) = entriesOf a l := by
    intro e he l
    exact List.filter_cons_of_neg (by simp [he, hne])
  induction entries with
  | nil => exact hdrop next hnext []
  | cons e entries ih =>
    rw [placeEntry, targets_of_names hp]
    by_cases he : e.anilistId = b
    · rw [if_pos (by simp [he]), hdrop next hnext, hdrop e he]
    · rw [if_neg (by simp [he])]
      unfold entriesOf at *
      rw [List.filter_cons, List.filter_cons, ih]

/-- Placing an entry of an id puts it in the place of that id's first. -/
theorem entriesOf_placeEntry_self {next : AnilistEntry} (hp : p.update.anilistId = some a)
    (hnext : next.anilistId = a) :
    entriesOf a (placeEntry p next entries) = next :: (entriesOf a entries).tail := by
  have hkeep : ∀ e : AnilistEntry, e.anilistId = a →
      ∀ l, entriesOf a (e :: l) = e :: entriesOf a l := by
    intro e he l
    exact List.filter_cons_of_pos (by simp [he])
  induction entries with
  | nil => exact hkeep next hnext []
  | cons e entries ih =>
    rw [placeEntry, targets_of_names hp]
    by_cases he : e.anilistId = a
    · rw [if_pos (by simp [he]), hkeep next hnext, hkeep e he]
      rfl
    · rw [if_neg (by simp [he])]
      have hskip : ∀ l, entriesOf a (e :: l) = entriesOf a l :=
        fun l => List.filter_cons_of_neg (by simp [he])
      rw [hskip, hskip, ih]

/-- Taking an entry of one id off leaves the entries of another. -/
theorem entriesOf_eraseP_of_ne (hp : p.update.anilistId = some b) (hne : b ≠ a) :
    entriesOf a (entries.eraseP p.targets) = entriesOf a entries := by
  rw [targets_of_names hp]
  induction entries with
  | nil => rfl
  | cons e entries ih =>
    by_cases he : e.anilistId = b
    · have hskip : entriesOf a (e :: entries) = entriesOf a entries :=
        List.filter_cons_of_neg (by simp [he, hne])
      rw [List.eraseP_cons_of_pos (by simp [he]), hskip]
    · rw [List.eraseP_cons_of_neg (by simp [he])]
      unfold entriesOf at *
      rw [List.filter_cons, List.filter_cons, ih]

/-- Taking an entry of an id off takes that id's first. -/
theorem entriesOf_eraseP_self (hp : p.update.anilistId = some a) :
    entriesOf a (entries.eraseP p.targets) = (entriesOf a entries).tail := by
  rw [targets_of_names hp]
  induction entries with
  | nil => rfl
  | cons e entries ih =>
    by_cases he : e.anilistId = a
    · have hkeep : entriesOf a (e :: entries) = e :: entriesOf a entries :=
        List.filter_cons_of_pos (by simp [he])
      rw [List.eraseP_cons_of_pos (by simp [he]), hkeep]
      rfl
    · have hskip : ∀ l, entriesOf a (e :: l) = entriesOf a l :=
        fun l => List.filter_cons_of_neg (by simp [he])
      rw [List.eraseP_cons_of_neg (by simp [he]), hskip, hskip, ih]

/-- A patch that names an id, with the id at hand; `0` names none. -/
theorem applyAnilistPatch_of_names (hp : p.update.anilistId = some b) :
    applyAnilistPatch entries p
      = if b = 0 then entries
        else if p.update.removes then entries.eraseP p.targets
        else placeEntry p (patchedEntry p b (entries.find? p.targets)) entries := by
  unfold applyAnilistPatch
  by_cases hb : b = 0 <;> simp [hp, hb, Option.filter]

/-- **A patch keeps to its id**: the entries of every other stay. -/
theorem entriesOf_applyAnilistPatch_of_ne (hp : p.update.anilistId = some b) (hne : b ≠ a) :
    entriesOf a (applyAnilistPatch entries p) = entriesOf a entries := by
  rw [applyAnilistPatch_of_names hp]
  split
  · rfl
  · split
    · exact entriesOf_eraseP_of_ne hp hne
    · exact entriesOf_placeEntry_of_ne hp rfl hne

/-- What a patch of an id makes of the id's entry. -/
def onEntry (p : AnilistPending) (anilistId : Int) (entry : Option AnilistEntry) :
    Option AnilistEntry :=
  if p.update.removes then none else some (patchedEntry p anilistId entry)

/-- What a patch does to the entry of its own id. -/
theorem entriesOf_applyAnilistPatch_self (hp : p.update.anilistId = some a) (ha : a ≠ 0)
    {entry : Option AnilistEntry} (hentry : entriesOf a entries = entry.toList) :
    entriesOf a (applyAnilistPatch entries p) = (onEntry p a entry).toList := by
  have htail : (entriesOf a entries).tail = [] := by
    rw [hentry]
    cases entry <;> rfl
  have hcurrent : entries.find? p.targets = entry := by
    rw [find?_targets hp, hentry]
    cases entry <;> rfl
  rw [applyAnilistPatch_of_names hp, if_neg ha, hcurrent]
  unfold onEntry
  split
  · rw [entriesOf_eraseP_self hp, htail]
    rfl
  · rw [entriesOf_placeEntry_self hp rfl, htail]
    rfl

end Entries

/-! ## Laying patches over a snapshot -/

/-- What laying an id's pending patch, if it has one, makes of its entry. -/
def laidEntry (anilistId : Int) (patched : Option AnilistPending)
    (entry : Option AnilistEntry) : Option AnilistEntry :=
  match patched with
  | none => entry
  | some p => if entryReflects entry p.update then entry else onEntry p anilistId entry

/-- Every pending patch names an AniList id. -/
def AllName (ps : List AnilistPending) : Prop :=
  ∀ p ∈ ps, ∃ id, p.update.anilistId = some id

section Lay

variable {a : Int} {ps : List AnilistPending} {entries : List AnilistEntry}

/-- Laying patches of other ids leaves an id's entries. -/
theorem entriesOf_lay_of_filter_nil (hps : AllName ps)
    (hnone : ps.filter (·.names a) = []) (entries : List AnilistEntry) :
    entriesOf a (Overlay.lay applyAnilistPatch anilistReflected entries ps).1
      = entriesOf a entries := by
  refine Overlay.observe_lay (entriesOf a) (fun p hp entries => ?_) entries
  obtain ⟨b, hb⟩ := hps p hp
  refine entriesOf_applyAnilistPatch_of_ne hb fun hba => ?_
  have hnames : p.names a = true := by simp [AnilistPending.names, hb, hba]
  exact absurd (List.mem_filter.mpr ⟨hp, hnames⟩) (by simp [hnone])

theorem filter_lay_of_filter_nil (hnone : ps.filter (·.names a) = [])
    (entries : List AnilistEntry) :
    (Overlay.lay applyAnilistPatch anilistReflected entries ps).2.filter (·.names a) = [] :=
  List.sublist_nil.mp (hnone ▸ (Overlay.lay_sublist _ _ entries ps).filter _)

/-- **Laying pending patches, seen from one id**: the id's own patch is judged
against the id's entry, and the others do not touch it. -/
theorem lay_of_filter (hps : AllName ps) {patched : Option AnilistPending}
    (hone : ps.filter (·.names a) = patched.toList) (entries : List AnilistEntry) :
    (Overlay.lay applyAnilistPatch anilistReflected entries ps).2.filter (·.names a)
        = (patched.filter fun p => !entryReflects (entriesOf a entries).head? p.update).toList
      ∧ (a ≠ 0 → ∀ entry : Option AnilistEntry, entriesOf a entries = entry.toList →
          entriesOf a (Overlay.lay applyAnilistPatch anilistReflected entries ps).1
            = (laidEntry a patched entry).toList) := by
  cases patched with
  | none =>
    refine ⟨filter_lay_of_filter_nil hone entries, fun _ entry hentry => ?_⟩
    rw [entriesOf_lay_of_filter_nil hps hone, hentry]
    rfl
  | some p =>
    obtain ⟨before, after, rfl, hbefore, hp, hafter⟩ := List.filter_eq_cons_iff.mp hone
    have hbefore : before.filter (·.names a) = [] := List.filter_eq_nil_iff.mpr hbefore
    have hallBefore : AllName before := fun q hq => hps q (List.mem_append_left _ hq)
    have hallAfter : AllName after :=
      fun q hq => hps q (List.mem_append_right _ (List.mem_cons_of_mem _ hq))
    have hid : p.update.anilistId = some a := AnilistPending.names_iff.mp hp
    rw [Overlay.lay_append]
    -- the entries the id's own patch meets
    have hmeet := entriesOf_lay_of_filter_nil hallBefore hbefore entries
    generalize hlaid : Overlay.lay applyAnilistPatch anilistReflected entries before = laid at *
    have hjudge : anilistReflected laid.1 p
        = entryReflects (entriesOf a entries).head? p.update := by
      rw [anilistReflected_of_names hid, hmeet]
    have hkept : laid.2.filter (·.names a) = [] :=
      hlaid ▸ filter_lay_of_filter_nil hbefore entries
    by_cases hseen : anilistReflected laid.1 p = true
    · rw [Overlay.lay_cons_of_reflected hseen]
      rw [hjudge] at hseen
      refine ⟨?_, fun _ entry hentry => ?_⟩
      · rw [List.filter_append, hkept, filter_lay_of_filter_nil hafter]
        simp [Option.filter, hseen]
      · show entriesOf a (Overlay.lay _ _ laid.1 after).1 = _
        rw [entriesOf_lay_of_filter_nil hallAfter hafter, hmeet, hentry]
        rw [hentry, Option.head?_toList] at hseen
        rw [laidEntry, if_pos hseen]
    · rw [Overlay.lay_cons_of_not hseen]
      rw [hjudge] at hseen
      refine ⟨?_, fun ha entry hentry => ?_⟩
      · rw [List.filter_append, hkept, List.filter_cons_of_pos hp,
          filter_lay_of_filter_nil hafter]
        simp [Option.filter, hseen]
      · show entriesOf a (Overlay.lay _ _ (applyAnilistPatch laid.1 p) after).1 = _
        rw [entriesOf_lay_of_filter_nil hallAfter hafter,
          entriesOf_applyAnilistPatch_self hid ha (hmeet.trans hentry)]
        rw [hentry, Option.head?_toList] at hseen
        rw [laidEntry, if_neg hseen]

end Lay

/-! ## What an entry shows -/

/-- An entry shows every field a patch sets; a missing entry shows `null`
fields, and is not watched. -/
structure ShowsFields (update : AnilistPatch) (entry : Option AnilistEntry) : Prop where
  watched : ∀ w, update.watched = some w → isAnilistWatchedStatus (entry.bind (·.status)) = w
  rating : ∀ r, update.rating = some r → entry.bind (·.rating) = r.map some
  progress : ∀ n, update.progress = some n → entry.bind (·.progress) = n.map some
  episodeCount : ∀ n, update.episodeCount = some n → entry.bind (·.episodeCount) = n.map some
  listEntryId : ∀ id, update.listEntryId = some id → entry.bind (·.listEntryId) = id
  status : ∀ x, update.status = some x → entry.bind (·.status) = x

theorem numberDiffers_eq_false_iff {wanted : Option (Option ℚ)} {shown : Option JsNumber} :
    numberDiffers wanted shown = false ↔ ∀ w, wanted = some w → shown = w.map some := by
  cases wanted <;> simp [numberDiffers, eq_comm (a := shown)]

/-- `anilist_reflected` asks that the entry shows the patch. -/
theorem entryReflects_iff {entry : Option AnilistEntry} {update : AnilistPatch} :
    entryReflects entry update = true ↔ ShowsFields update entry := by
  have hall : ∀ {α : Type} [BEq α] [LawfulBEq α] (wanted : Option α) (shown : α),
      wanted.all (· == shown) = true ↔ ∀ w, wanted = some w → shown = w := by
    intro α _ _ wanted shown
    cases wanted <;> simp [eq_comm (a := shown)]
  simp only [entryReflects, Bool.and_eq_true, Bool.not_eq_true', Bool.or_eq_false_iff, hall,
    numberDiffers_eq_false_iff]
  constructor
  · rintro ⟨⟨⟨hwatched, ⟨hrating, hprogress⟩, hcount⟩, hid⟩, hstatus⟩
    exact ⟨hwatched, hrating, hprogress, hcount, hid, hstatus⟩
  · rintro ⟨hwatched, hrating, hprogress, hcount, hid, hstatus⟩
    exact ⟨⟨⟨hwatched, ⟨hrating, hprogress⟩, hcount⟩, hid⟩, hstatus⟩

/-- The status and the watched flag a patch sets agree: a status is watched as
the flag says, and the status is cleared only together with the flag. -/
def AnilistPatch.Consistent (update : AnilistPatch) : Prop :=
  (∀ x w, update.status = some (some x) → update.watched = some w →
      isAnilistWatchedStatus (some x) = w)
    ∧ (update.status = some none → update.watched = some false)

/-- The status a consistent patch leaves shows its status and its flag. -/
theorem patchedStatus_shows {update : AnilistPatch} (h : update.Consistent)
    (current : Option AnilistEntry) :
    (∀ w, update.watched = some w → isAnilistWatchedStatus (patchedStatus update current) = w)
      ∧ ∀ x, update.status = some x → patchedStatus update current = x := by
  obtain ⟨hagree, hclear⟩ := h
  unfold patchedStatus
  rcases hstatus : update.status with _ | _ | x
  · rcases hwatched : update.watched with _ | _ | _ <;> simp [isAnilistWatchedStatus]
  · rw [hclear hstatus]
    simp [isAnilistWatchedStatus]
  · rcases hwatched : update.watched with _ | w
    · simp
    · have hx := hagree x w hstatus hwatched
      cases w <;> simp [hx]

/-- An entry a patch puts on the list shows every field it sets. -/
theorem showsFields_patchedEntry {p : AnilistPending} (h : p.update.Consistent) (a : Int)
    (current : Option AnilistEntry) : ShowsFields p.update (some (patchedEntry p a current)) where
  watched := (patchedStatus_shows h current).1
  status := (patchedStatus_shows h current).2
  rating r hr := by simp [patchedEntry, hr]
  progress n hn := by simp [patchedEntry, hn]
  episodeCount n hn := by simp [patchedEntry, hn]
  listEntryId id hid := by simp [patchedEntry, hid]

/-- What is laid over an entry shows a consistent patch, or takes it off. -/
theorem showsFields_laidEntry {p : AnilistPending} (h : p.update.Consistent) (a : Int)
    (entry : Option AnilistEntry) :
    (p.update.removes = true ∧ laidEntry a (some p) entry = none)
      ∨ ShowsFields p.update (laidEntry a (some p) entry) := by
  unfold laidEntry onEntry
  dsimp only
  split
  · next hseen => exact .inr (entryReflects_iff.mp hseen)
  · split
    · next hremoves => exact .inl ⟨hremoves, rfl⟩
    · exact .inr (showsFields_patchedEntry h a entry)

/-! ## Runs of `patch_anilist` -/

/-- The patch of an id after one more call of its user: a later field over an
earlier one, the calls for other ids left out. -/
def patchedBy (user anilistId : Int) (patched : Option AnilistPending)
    (call : Int × AnilistPending) : Option AnilistPending :=
  if call.1 = user ∧ call.2.update.anilistId = some anilistId then
    some (patched.elim call.2 fun previous => mergeAnilist previous call.2)
  else
    patched

/-- What a user's calls patched for an id, field by field the last value. -/
def patchesFor (user anilistId : Int) (calls : List (Int × AnilistPending)) :
    Option AnilistPending :=
  calls.foldl (patchedBy user anilistId) none

/-- **A call that keeps an id's pending patch apart.** It names some AniList
id; it finds the id's patch under a title of its own; and no cached snapshot
already shows what is then pending for the id. -/
structure AnilistApart (user anilistId : Int) (s : AnilistState)
    (call : Int × AnilistPending) : Prop where
  names : ∃ id, call.2.update.anilistId = some id
  /-- No other id's patch and the id's own meet under one title, and the id's
  patches meet under one. -/
  title : call.1 = user → ∀ q ∈ s.pending user, q.names anilistId ∨ call.2.names anilistId →
    (q.title = call.2.title ↔ q.update.anilistId = call.2.update.anilistId)
  unseen : call.1 = user → ∀ current, s.cache.snapshots user = some current →
    ∀ q ∈ coalesceAnilist (s.pending user ++ [call.2]), q.names anilistId →
      anilistReflected current.entries q = false

/-- A user's pending patches name their ids, stand under titles of their own,
and hold for an id what was patched for it. -/
structure AnilistState.Inv (user anilistId : Int) (patched : Option AnilistPending)
    (s : AnilistState) : Prop where
  titles : ((s.pending user).map AnilistPending.title).Nodup
  named : AllName (s.pending user)
  own : (s.pending user).filter (·.names anilistId) = patched.toList

namespace AnilistState

variable {s : AnilistState} {user a : Int} {patched : Option AnilistPending}

theorem title_mergeAnilist (previous patch : AnilistPending) :
    (mergeAnilist previous patch).title = previous.title := rfl

/-- A merged patch names the id of the later one. -/
theorem anilistId_mergeAnilist {p : AnilistPending} {id : Int}
    (hp : p.update.anilistId = some id) (previous : AnilistPending) :
    (mergeAnilist previous p).update.anilistId = some id := by
  simp [mergeAnilist, AnilistPatch.over, hp]

/-- Coalescing one more patch keeps what is pending for an id what was patched
for it. -/
theorem own_coalesce (h : s.Inv user a patched) {p : AnilistPending}
    (hapart : AnilistApart user a s (user, p)) :
    (coalesceAnilist (s.pending user ++ [p])).filter (·.names a)
      = (patchedBy user a patched (user, p)).toList := by
  obtain ⟨id, hid⟩ := hapart.names
  have hid : p.update.anilistId = some id := hid
  have htitle := hapart.title rfl
  rw [coalesceAnilist, KeyedList.coalesce_concat_of_nodup h.titles]
  unfold patchedBy
  by_cases ha : id = a
  · subst ha
    have hp : p.names id = true := AnilistPending.names_iff.mpr hid
    rw [if_pos ⟨rfl, hid⟩, KeyedList.filter_upsert_of_iff ?_ hp ?_, h.own]
    · cases patched <;> rfl
    · intro q hq
      rw [htitle q hq (.inr hp), AnilistPending.names_iff]
      show _ ↔ q.update.anilistId = p.update.anilistId
      rw [hid]
    · exact fun q => AnilistPending.names_iff.mpr (anilistId_mergeAnilist hid q)
  · have hnot : ∀ q : AnilistPending, q.update.anilistId = some id → q.names a = false := by
      intro q hq
      simp [AnilistPending.names, hq, ha]
    rw [if_neg (fun hcall => ha (Option.some.inj (hid.symm.trans hcall.2))),
      KeyedList.filter_upsert_of_not ?_ (hnot p hid) (fun q => hnot _ (anilistId_mergeAnilist hid q)),
      h.own]
    intro q hq hsame
    by_contra hqa
    have hqa : q.names a = true := by simpa using hqa
    exact absurd (hnot q (((htitle q hq (.inl hqa)).mp hsame).trans hid)) (by simp [hqa])

/-- **A call that keeps an id apart keeps its invariant**, with the call's
patch among what was patched for the id. -/
theorem inv_patch (h : s.Inv user a patched) {call : Int × AnilistPending}
    (hapart : AnilistApart user a s call) :
    (s.patch call.1 call.2).Inv user a (patchedBy user a patched call) := by
  obtain ⟨other, p⟩ := call
  obtain ⟨id, hid⟩ := hapart.names
  by_cases hu : other = user
  · subst hu
    have hown := own_coalesce h hapart
    have htitles : ((coalesceAnilist (s.pending other ++ [p])).map AnilistPending.title).Nodup :=
      KeyedList.nodup_coalesce title_mergeAnilist _
    have hnamed : AllName (coalesceAnilist (s.pending other ++ [p])) := by
      rw [coalesceAnilist, KeyedList.coalesce_concat_of_nodup h.titles]
      exact KeyedList.forall_mem_upsert h.named ⟨id, hid⟩
        fun q _ => ⟨id, anilistId_mergeAnilist hid q⟩
    have hkept : (s.keep other p).pending other
        = coalesceAnilist (s.pending other ++ [p]) := Function.update_self ..
    rw [← hkept] at hown htitles hnamed
    show (s.patch other p).Inv other a _
    unfold patch
    dsimp only
    cases hcache : (s.keep other p).cache.snapshots other with
    | none => exact ⟨htitles, hnamed, hown⟩
    | some current =>
      have hpending : ((s.keep other p).applyPending other current).1.pending other
          = (Overlay.lay applyAnilistPatch anilistReflected current.entries
              ((s.keep other p).pending other)).2 := Function.update_self ..
      have hsub := Overlay.lay_sublist applyAnilistPatch anilistReflected current.entries
        ((s.keep other p).pending other)
      refine ⟨?_, ?_, ?_⟩
      · show (List.map _ (((s.keep other p).applyPending other current).1.pending other)).Nodup
        rw [hpending]
        exact htitles.sublist (hsub.map _)
      · show AllName (((s.keep other p).applyPending other current).1.pending other)
        rw [hpending]
        exact fun q hq => hnamed q (hsub.subset hq)
      · show (((s.keep other p).applyPending other current).1.pending other).filter _ = _
        rw [hpending, (lay_of_filter hnamed hown current.entries).1]
        -- the id's pending patch is not shown, so it stays
        refine congrArg Option.toList ?_
        cases hpatched : patchedBy other a patched (other, p) with
        | none => rfl
        | some q =>
          have hq : q ∈ ((s.keep other p).pending other).filter (·.names a) := by
            rw [hown, hpatched]
            exact List.mem_singleton_self q
          obtain ⟨hq, hqa⟩ := List.mem_filter.mp hq
          have hunseen := hapart.unseen rfl current hcache q (hkept ▸ hq) hqa
          rw [anilistReflected_of_names (AnilistPending.names_iff.mp hqa)] at hunseen
          simp [Option.filter, hunseen]
  · have hpending : (s.patch other p).pending user = s.pending user := by
      have hkeep : (s.keep other p).pending user = s.pending user :=
        Function.update_of_ne (Ne.symm hu) ..
      unfold patch
      dsimp only
      cases (s.keep other p).cache.snapshots other with
      | none => exact hkeep
      | some current =>
        show Function.update (s.keep other p).pending other _ user = _
        rw [Function.update_of_ne (Ne.symm hu), hkeep]
    have hpatched : patchedBy user a patched (other, p) = patched :=
      if_neg fun hcall => hu hcall.1
    rw [hpatched]
    exact ⟨hpending ▸ h.titles, hpending ▸ h.named, hpending ▸ h.own⟩

/-- The invariant along a run that keeps the id apart. -/
theorem inv_of_run {t : AnilistState} {calls : List (Int × AnilistPending)}
    (hrun : Run (Guarded AnilistStep (AnilistApart user a)) s calls t)
    (h : s.Inv user a patched) :
    t.Inv user a (calls.foldl (patchedBy user a) patched) := by
  induction hrun generalizing patched with
  | nil => exact h
  | cons hstep _ ih =>
    obtain ⟨hapart, rfl⟩ := hstep
    exact ih (inv_patch h hapart)

end AnilistState

/-- **What an id's entry is owed** in a snapshot the pending patches are laid
over: it is the provider's entry with the id's own patches laid over it and
nothing else, and it shows the last value patched of every field. -/
structure StaysWithEntry (anilistId : Int) (patched : Option AnilistPending)
    (snapshot laid : AnilistSnapshot) : Prop where
  own : entriesOf anilistId laid.entries
    = (laidEntry anilistId patched (lookupAnilistId snapshot anilistId)).toList
  shows : ∀ p, patched = some p → p.update.Consistent →
    (p.update.removes = true ∧ lookupAnilistId laid anilistId = none)
      ∨ ShowsFields p.update (lookupAnilistId laid anilistId)

theorem entriesOf_of_nodup {entries : List AnilistEntry} (a : Int)
    (h : (entries.map (·.anilistId)).Nodup) :
    entriesOf a entries = (entries.find? fun e => e.anilistId == a).toList := by
  induction entries with
  | nil => rfl
  | cons e entries ih =>
    rw [List.map_cons, List.nodup_cons] at h
    unfold entriesOf at *
    by_cases he : e.anilistId = a
    · have hrest : entries.filter (fun e => e.anilistId == a) = [] := by
        rw [List.filter_eq_nil_iff]
        intro x hx hxa
        exact h.1 (he ▸ List.mem_map.mpr ⟨x, hx, by simpa using hxa⟩)
      rw [List.filter_cons_of_pos (by simp [he]), List.find?_cons_of_pos (by simp [he]), hrest]
      rfl
    · rw [List.filter_cons_of_neg (by simp [he]), List.find?_cons_of_neg (by simp [he]), ih h.2]

/-- **Patches stay with the entry they name.** After a run of `patch_anilist`
that keeps an AniList id apart, a snapshot of the provider, which lists each
id once, shows the id's entry as its own patches leave it. -/
theorem anilistPatches_stay_with_entry {user anilistId : Int} {s t : AnilistState}
    {calls : List (Int × AnilistPending)} (hid : anilistId ≠ 0) (hs : s.pending user = [])
    (hrun : Run (Guarded AnilistStep (AnilistApart user anilistId)) s calls t)
    (snapshot : AnilistSnapshot) (hsnapshot : (snapshot.entries.map (·.anilistId)).Nodup) :
    StaysWithEntry anilistId (patchesFor user anilistId calls) snapshot
      (t.applyPending user snapshot).2 := by
  have hstart : s.Inv user anilistId none := by
    refine ⟨?_, ?_, ?_⟩ <;> rw [hs]
    · exact List.nodup_nil
    · intro p hp
      cases hp
    · rfl
  have h := AnilistState.inv_of_run hrun hstart
  have hown := (lay_of_filter h.named h.own snapshot.entries).2 hid _
    (entriesOf_of_nodup anilistId hsnapshot)
  refine ⟨hown, fun p hp hconsistent => ?_⟩
  have hlookup : lookupAnilistId (t.applyPending user snapshot).2 anilistId
      = laidEntry anilistId (some p) (lookupAnilistId snapshot anilistId) := by
    have hhead := congrArg List.head? hown
    rw [entriesOf, List.head?_filter, Option.head?_toList] at hhead
    rw [← hp]
    exact hhead
  rw [hlookup]
  exact showsFields_laidEntry hconsistent anilistId _

/-- Two seasons patched under titles of their own. -/
theorem anilistPatches_stay_of_two_titles :
    StaysWithEntry 21 (patchesFor 1 21
        [(1, ⟨.tv, 100, { watched := some true, anilistId := some 21 }⟩),
          (1, ⟨.tv, 200, { listEntryId := some (some 7), anilistId := some 22 }⟩)]) {}
      (((({} : AnilistState).patch 1
          ⟨.tv, 100, { watched := some true, anilistId := some 21 }⟩).patch 1
          ⟨.tv, 200, { listEntryId := some (some 7), anilistId := some 22 }⟩).applyPending 1
        {}).2 := by
  let first : AnilistPending := ⟨.tv, 100, { watched := some true, anilistId := some 21 }⟩
  let second : AnilistPending :=
    ⟨.tv, 200, { listEntryId := some (some 7), anilistId := some 22 }⟩
  have hfirst : AnilistApart 1 21 {} (1, first) := by
    refine ⟨⟨21, rfl⟩, fun _ q hq => ?_, fun _ current hcurrent => ?_⟩
    · cases hq
    · cases hcurrent
  have hpending : (({} : AnilistState).patch 1 first).pending 1 = [first] := rfl
  have hsecond : AnilistApart 1 21 (({} : AnilistState).patch 1 first) (1, second) := by
    refine ⟨⟨22, rfl⟩, fun _ q hq _ => ?_, fun _ current hcurrent => ?_⟩
    · rw [hpending, List.mem_singleton] at hq
      rw [hq]
      exact iff_of_false (by decide) (by decide)
    · cases hcurrent
  exact anilistPatches_stay_with_entry (by decide) rfl
    (.cons ⟨hfirst, rfl⟩ (.cons ⟨hsecond, rfl⟩ (.nil _))) {} List.nodup_nil

/-- Two seasons of one show share a title: the second one's patch takes over
the first one's, and its entry is watched as the first one was. -/
theorem watched_moves_to_other_season :
    ¬ ∀ (user : Int) (s t : AnilistState) (calls : List (Int × AnilistPending))
        (snapshot : AnilistSnapshot) (anilistId : Int), s.pending user = [] →
      (∀ call ∈ calls, ∃ id, id ≠ 0 ∧ call.2.update.anilistId = some id) →
      Run AnilistStep s calls t → (snapshot.entries.map (·.anilistId)).Nodup →
      anilistId ≠ 0 →
      StaysWithEntry anilistId (patchesFor user anilistId calls) snapshot
        (t.applyPending user snapshot).2 := by
  intro h
  let first : AnilistPending := ⟨.tv, 100, { watched := some true, anilistId := some 21 }⟩
  let second : AnilistPending :=
    ⟨.tv, 100, { listEntryId := some (some 7), anilistId := some 22 }⟩
  have hcalls : ∀ call ∈ [((1 : Int), first), (1, second)],
      ∃ id, id ≠ 0 ∧ call.2.update.anilistId = some id := by
    intro call hcall
    rcases List.mem_cons.mp hcall with rfl | hcall
    · exact ⟨21, by decide, rfl⟩
    · rw [List.mem_singleton.mp hcall]
      exact ⟨22, by decide, rfl⟩
  have hstays := h 1 {} _ _ {} 22 rfl hcalls (.cons rfl (.cons rfl (.nil _))) List.nodup_nil
    (by decide)
  exact absurd hstays.own (by decide +kernel)

end Foreseerr

import Mathlib.Data.List.Nodup
import Foreseerr.KeyedList
import Foreseerr.ScanMovie

/-!
# How a scan updates a show

`apply_show` of `jobs/scanmedia.rs` folds the seasons one server lists into a
stored show: each season moves by `next_season_status`, seasons the show
lacks are appended, and the title's status is rolled up from the seasons.

Sonarr is scanned server by server, like Radarr, and each scan answers from
what it saw last. For one season and one quality a scan is one of five
sightings, and which of them commute is a finite question; the rest of this
module carries the answer to whole scans. The season statuses depend on the
order exactly where a season both scans list is sighted in two ways that do
not commute.
-/

namespace Foreseerr

open KeyedList

/-! ## The seasons of a scan -/

/-- `ProcessableSeason`. -/
structure ProcessableSeason where
  seasonNumber : Int
  totalEpisodes : Int
  episodes : Int := 0
  episodes4k : Int := 0
  is4kOverride : Bool := false
  processing : Bool := false
deriving DecidableEq, Repr

/-- `ShowOpts`: what a scan found of a show on one server, beside its seasons. -/
structure ShowOpts where
  mediaAddedAt : Option Int := none
  ratingKey : Option String := none
  jellyfinMediaId : Option String := none
  services : ServiceColumns := {}
  is4k : Bool := false
deriving DecidableEq, Repr

/-- `next_season_status`. -/
def nextSeasonStatus (previous : Option Int) (totalEpisodes availableEpisodes : Int)
    (canBeAvailable processingForQuality processing : Bool) : Int :=
  if canBeAvailable ∧ totalEpisodes = availableEpisodes ∧ availableEpisodes > 0 then
    MediaStatus.available
  else if previous = some MediaStatus.available then
    MediaStatus.available
  else if canBeAvailable ∧ availableEpisodes > 0 then
    MediaStatus.partially
  else if processingForQuality ∧ processing ∧ previous ≠ some MediaStatus.deleted then
    MediaStatus.processing
  else if previous = some MediaStatus.processing ∧ processingForQuality ∧ ¬processing
      ∧ availableEpisodes = 0 then
    MediaStatus.unknown
  else
    previous.getD MediaStatus.unknown

/-- `rollup_show_status`. -/
def rollupShowStatus (seasons : List SeasonRow) (scanned : List ProcessableSeason) (fourK : Bool)
    (previous : Option Int) (enabled : Bool) : Int :=
  let rollup := (seasons.filter (·.seasonNumber ≠ 0)).filter fun s =>
    match lookup ProcessableSeason.seasonNumber s.seasonNumber scanned with
    | none => s.statusOf fourK ≠ MediaStatus.unknown
    | some item => item.totalEpisodes > 0
  let allAvailable :=
    !rollup.isEmpty && rollup.all fun s => s.statusOf fourK = MediaStatus.available
  if enabled && allAvailable then
    MediaStatus.available
  else if enabled && seasons.any fun s =>
      s.statusOf fourK = MediaStatus.partially || s.statusOf fourK = MediaStatus.available then
    MediaStatus.partially
  else if (scanned.isEmpty && previous != some MediaStatus.deleted)
      || seasons.any fun s => s.statusOf fourK = MediaStatus.processing then
    MediaStatus.processing
  else if previous = some MediaStatus.deleted then
    MediaStatus.deleted
  else
    MediaStatus.unknown

/-- `counted`: a season the provider lists as empty has its counts zeroed. -/
def counted (season : ProcessableSeason) : Int × Int :=
  if season.totalEpisodes > 0 then (season.episodes, season.episodes4k) else (0, 0)

/-- `scanned_statuses`: a season's standard and 4K status after a scan. -/
def scannedStatuses (previous : Option (Int × Int)) (season : ProcessableSeason)
    (enable4k : Bool) : Int × Int :=
  let episodes := counted season
  (nextSeasonStatus (previous.map (·.1)) season.totalEpisodes episodes.1 true
      (!season.is4kOverride) season.processing,
    nextSeasonStatus (previous.map (·.2)) season.totalEpisodes episodes.2 enable4k
      season.is4kOverride season.processing)

/-- `available_count`. -/
def availableCount (seasons : List SeasonRow) (fourK : Bool) : Nat :=
  (seasons.filter fun s => s.statusOf fourK = MediaStatus.available).length

/-! ## One scan -/

/-- `ShowUpdate`: the row after the scan, the seasons it created, how many
more are available, the seasons found abandoned and left for the end of the
run, and the qualities whose title went from processing to unknown. -/
structure ShowUpdate where
  after : MediaRow
  fresh : List FreshSeason
  moreAvailable : Nat × Nat
  deferredSeasons : List (Int × Bool)
  statusResets : List Bool
deriving DecidableEq, Repr

/-- The media server ids a season with episodes brings. -/
def claimKeys (m : MediaRow) (o : ShowOpts) (season : ProcessableSeason) (enable4k : Bool) :
    MediaRow :=
  let episodes := counted season
  let claim (claims : Bool) (stored given : Option String) : Option String :=
    if claims then given.or stored else stored
  let standard := episodes.1 > 0
  let uhd := episodes.2 > 0 && enable4k
  { m with
    ratingKey := claim standard m.ratingKey o.ratingKey
    jellyfinMediaId := claim standard m.jellyfinMediaId o.jellyfinMediaId
    ratingKey4k := claim uhd m.ratingKey4k o.ratingKey
    jellyfinMediaId4k := claim uhd m.jellyfinMediaId4k o.jellyfinMediaId }

/-- `abandoned`: an *arr scan found nothing of a processing season. -/
def seasonAbandoned (deferResets : Bool) (season : ProcessableSeason) (episodes status : Int) :
    Bool :=
  deferResets && !season.processing && episodes = 0 && status = MediaStatus.processing

/-- `defer_standard` and `defer_4k` of a stored season. -/
def deferredOf (deferResets : Bool) (season : ProcessableSeason) (existing : SeasonRow)
    (fourK : Bool) : Bool :=
  if fourK then
    season.is4kOverride && seasonAbandoned deferResets season season.episodes4k existing.status4k
  else
    !season.is4kOverride && seasonAbandoned deferResets season season.episodes existing.status

/-- A stored season after a scan of it. -/
def rescan (deferResets enable4k : Bool) (season : ProcessableSeason) (existing : SeasonRow) :
    SeasonRow :=
  let statuses := scannedStatuses (some (existing.status, existing.status4k)) season enable4k
  { existing with
    status := if deferredOf deferResets season existing false then existing.status else statuses.1
    status4k :=
      if deferredOf deferResets season existing true then existing.status4k else statuses.2 }

/-- A season the title lacked. -/
def newSeason (mediaId : Int) (enable4k : Bool) (season : ProcessableSeason) : SeasonRow :=
  let statuses := scannedStatuses none season enable4k
  { seasonNumber := season.seasonNumber
    status := statuses.1
    status4k := statuses.2
    mediaId := some mediaId }

/-- Where the loop over the scanned seasons stands. -/
structure ShowScan where
  media : MediaRow
  fresh : List FreshSeason := []
  deferredSeasons : List (Int × Bool) := []
deriving DecidableEq, Repr

/-- One round of the loop: only the seasons `loaded` with the row are looked
through. -/
def scanSeason (loaded : Nat) (o : ShowOpts) (enable4k deferResets : Bool) (scan : ShowScan)
    (season : ProcessableSeason) : ShowScan :=
  let m := claimKeys scan.media o season enable4k
  match lookup SeasonRow.seasonNumber season.seasonNumber (m.seasons.take loaded) with
  | some existing =>
    let defer4k := deferredOf deferResets season existing true
    { media := { m with
        seasons := modifyFirst SeasonRow.seasonNumber season.seasonNumber
          (rescan deferResets enable4k season) m.seasons }
      fresh := scan.fresh
      deferredSeasons :=
        if deferredOf deferResets season existing false || defer4k then
          scan.deferredSeasons ++ [(season.seasonNumber, defer4k)]
        else scan.deferredSeasons }
  | none =>
    { media := { m with seasons := m.seasons ++ [newSeason m.id enable4k season] }
      fresh := scan.fresh ++ [{ index := m.seasons.length, fourK := false }]
      deferredSeasons := scan.deferredSeasons }

/-- The dates a scan sets when more seasons are available; a title without a
date takes the one given. -/
def settleDates (m : MediaRow) (o : ShowOpts) (nowMs : Int) (more : Nat × Nat) : MediaRow :=
  let given := o.mediaAddedAt.map iso
  let addedAt := if more.1 > 0 then given.or m.mediaAddedAt else m.mediaAddedAt
  { m with
    lastSeasonChange :=
      if more.1 > 0 ∨ more.2 > 0 then some (iso nowMs) else m.lastSeasonChange
    mediaAddedAt := addedAt.or given }

/-- `abandoned_entry`: the scan found nothing of a processing title. -/
def abandonedEntry (media : MediaRow) (scanned : List ProcessableSeason) (o : ShowOpts)
    (deferResets : Bool) : Bool :=
  deferResets && media.statusOf o.is4k == MediaStatus.processing
    && !scanned.any fun s => s.processing || (if o.is4k then s.episodes4k else s.episodes) > 0

/-- `apply_show`. -/
def applyShow (media : MediaRow) (scanned : List ProcessableSeason) (o : ShowOpts)
    (enable4k : Bool) (nowMs : Int) (deferResets : Bool) : ShowUpdate :=
  let scan := scanned.foldl (scanSeason media.seasons.length o enable4k deferResets)
    { media := media }
  let more :=
    (availableCount scan.media.seasons false - availableCount media.seasons false,
      availableCount scan.media.seasons true - availableCount media.seasons true)
  let m := settleDates scan.media o nowMs more
  let m := if abandonedEntry media scanned o deferResets then m
    else (setServices m o.is4k o.services).1
  let status := rollupShowStatus m.seasons scanned false (some media.status) true
  let status4k := rollupShowStatus m.seasons scanned true (some media.status4k) enable4k
  { after := { m with status := status, status4k := status4k }
    fresh := scan.fresh
    moreAvailable := more
    deferredSeasons := scan.deferredSeasons
    statusResets :=
      (if deferResets ∧ media.status = MediaStatus.processing ∧ status = MediaStatus.unknown then
        [false] else [])
      ++ (if deferResets ∧ media.status4k = MediaStatus.processing
            ∧ status4k = MediaStatus.unknown then
        [true] else []) }

/-! ## Sightings

For one season and one quality an *arr scan is one of five sightings, and
the season's status moves by that alone. -/

/-- Whether a quality can become available at all. -/
def enabledOf (enable4k fourK : Bool) : Bool := if fourK then enable4k else true

/-- What a scan saw of a season in one quality: every episode, some of them,
none but monitored, none and given up, or nothing to go by. -/
inductive Sighting
  | complete
  | partly
  | awaited
  | reset
  | unmoved
deriving DecidableEq, Repr

/-- The episodes a scan counts in one quality. -/
def ProcessableSeason.countedOf (season : ProcessableSeason) (fourK : Bool) : Int :=
  if fourK then (counted season).2 else (counted season).1

/-- The episodes a scan lists in one quality, whether or not they count. -/
def ProcessableSeason.listedOf (season : ProcessableSeason) (fourK : Bool) : Int :=
  if fourK then season.episodes4k else season.episodes

/-- The sighting a scanned season is in one quality. -/
def sightingOf (enable4k : Bool) (season : ProcessableSeason) (fourK : Bool) : Sighting :=
  let enabled := enabledOf enable4k fourK
  let episodes := season.countedOf fourK
  if enabled ∧ season.totalEpisodes = episodes ∧ episodes > 0 then .complete
  else if enabled ∧ episodes > 0 then .partly
  else if season.is4kOverride = fourK ∧ season.processing then .awaited
  else if season.is4kOverride = fourK ∧ episodes = 0 ∧ season.listedOf fourK ≠ 0 then .reset
  else .unmoved

/-- How a sighting moves a status. -/
def Sighting.next : Sighting → Int → Int
  | complete, _ => MediaStatus.available
  | partly, status =>
    if status = MediaStatus.available then MediaStatus.available else MediaStatus.partially
  | awaited, status =>
    if status = MediaStatus.available ∨ status = MediaStatus.deleted then status
    else MediaStatus.processing
  | reset, status => if status = MediaStatus.processing then MediaStatus.unknown else status
  | unmoved, status => status

/-- A season nothing is known of. -/
def blankSeason (mediaId : Int) (seasonNumber : Int) : SeasonRow :=
  { seasonNumber := seasonNumber
    status := MediaStatus.unknown
    status4k := MediaStatus.unknown
    mediaId := some mediaId }

section Sightings

variable {enable4k : Bool} {season : ProcessableSeason}

/-- `next_season_status` follows the sighting, where a reset is not deferred. -/
theorem nextSeasonStatus_eq (previous : Int) (fourK : Bool)
    (hreset : ¬ (season.is4kOverride = fourK ∧ ¬season.processing ∧ season.listedOf fourK = 0
      ∧ previous = MediaStatus.processing)) :
    nextSeasonStatus (some previous) season.totalEpisodes (season.countedOf fourK)
        (enabledOf enable4k fourK) (season.is4kOverride == fourK) season.processing
      = (sightingOf enable4k season fourK).next previous := by
  unfold nextSeasonStatus sightingOf Sighting.next
  generalize season.countedOf fourK = episodes
  generalize season.listedOf fourK = listed at *
  generalize enabledOf enable4k fourK = enabled
  grind

/-- The episodes a season lists count where it has any in total. -/
theorem countedOf_eq (fourK : Bool) :
    season.countedOf fourK = if season.totalEpisodes > 0 then season.listedOf fourK else 0 := by
  unfold ProcessableSeason.countedOf counted
  by_cases htotal : season.totalEpisodes > 0
  · rw [if_pos htotal, if_pos htotal]
    rfl
  · rw [if_neg htotal, if_neg htotal, ite_self]

/-- A season's counts are zero where it lists nothing. -/
theorem countedOf_eq_zero {fourK : Bool} (h : season.listedOf fourK = 0) :
    season.countedOf fourK = 0 := by
  rw [countedOf_eq, h, ite_self]

theorem deferredOf_iff (existing : SeasonRow) (fourK : Bool) :
    deferredOf true season existing fourK = true
      ↔ season.is4kOverride = fourK ∧ ¬season.processing ∧ season.listedOf fourK = 0
        ∧ existing.statusOf fourK = MediaStatus.processing := by
  cases fourK <;>
    simp [deferredOf, seasonAbandoned, ProcessableSeason.listedOf, SeasonRow.statusOf, and_assoc]

/-- A deferred reset is a sighting that moves nothing. -/
theorem sightingOf_of_deferred {existing : SeasonRow} {fourK : Bool}
    (h : deferredOf true season existing fourK = true) :
    sightingOf enable4k season fourK = .unmoved := by
  obtain ⟨hquality, hprocessing, hlisted, -⟩ := (deferredOf_iff existing fourK).mp h
  have hcounted := countedOf_eq_zero hlisted
  unfold sightingOf
  simp [hcounted, hprocessing, hlisted]

/-- **A scan moves a stored season by its sightings**, one in each quality. -/
theorem statusOf_rescan (existing : SeasonRow) (fourK : Bool) :
    (rescan true enable4k season existing).statusOf fourK
      = (sightingOf enable4k season fourK).next (existing.statusOf fourK) := by
  have hstatus : (rescan true enable4k season existing).statusOf fourK
      = if deferredOf true season existing fourK then existing.statusOf fourK
        else nextSeasonStatus (some (existing.statusOf fourK)) season.totalEpisodes
          (season.countedOf fourK) (enabledOf enable4k fourK) (season.is4kOverride == fourK)
          season.processing := by
    cases fourK <;> cases hoverride : season.is4kOverride <;>
      simp [rescan, SeasonRow.statusOf, scannedStatuses, ProcessableSeason.countedOf, enabledOf,
        hoverride]
  rw [hstatus]
  split
  · next hdeferred => rw [sightingOf_of_deferred hdeferred]; rfl
  · next hdeferred => exact nextSeasonStatus_eq _ _ (mt (deferredOf_iff existing fourK).mpr hdeferred)

theorem rescan_eq (existing : SeasonRow) :
    rescan true enable4k season existing
      = { existing with
          status := (sightingOf enable4k season false).next existing.status
          status4k := (sightingOf enable4k season true).next existing.status4k } := by
  have hstandard := @statusOf_rescan enable4k season existing false
  have h4k := @statusOf_rescan enable4k season existing true
  show ({ existing with
      status := (rescan true enable4k season existing).statusOf false
      status4k := (rescan true enable4k season existing).statusOf true } : SeasonRow) = _
  rw [hstandard, h4k]
  rfl

/-- A season not stored yet moves like one whose status is unknown. -/
theorem nextSeasonStatus_none (totalEpisodes availableEpisodes : Int)
    (canBeAvailable processingForQuality processing : Bool) :
    nextSeasonStatus none totalEpisodes availableEpisodes canBeAvailable processingForQuality
        processing
      = nextSeasonStatus (some MediaStatus.unknown) totalEpisodes availableEpisodes canBeAvailable
        processingForQuality processing := by
  unfold nextSeasonStatus
  simp

theorem newSeason_eq (mediaId : Int) :
    newSeason mediaId enable4k season
      = rescan true enable4k season (blankSeason mediaId season.seasonNumber) := by
  have hnone : ∀ fourK, deferredOf true season (blankSeason mediaId season.seasonNumber) fourK
      = false := by
    intro fourK
    cases fourK <;> simp [deferredOf, seasonAbandoned, blankSeason]
  unfold rescan newSeason scannedStatuses
  simp only [hnone, Option.map_none, Option.map_some, nextSeasonStatus_none]
  rfl

end Sightings

/-! ## Which sightings commute -/

/-- **Two sightings of a season that leave the same status in both orders**:
it was available, or neither is partly there where the other only awaits it
nor given up where the other awaits it (a deleted season stays deleted under
both). -/
def Sighting.OrderFree (previous : Int) (a b : Sighting) : Prop :=
  previous = MediaStatus.available
    ∨ ¬(a = partly ∧ b = awaited) ∧ ¬(a = awaited ∧ b = partly)
      ∧ (previous = MediaStatus.deleted
        ∨ ¬(a = reset ∧ b = awaited) ∧ ¬(a = awaited ∧ b = reset))

instance (previous : Int) (a b : Sighting) : Decidable (a.OrderFree previous b) :=
  inferInstanceAs (Decidable (_ ∨ _))

theorem Sighting.next_comm_iff (previous : Int) (a b : Sighting) :
    b.next (a.next previous) = a.next (b.next previous) ↔ a.OrderFree previous b := by
  unfold OrderFree
  cases a <;> cases b <;> simp [next] <;> grind

/-! ## Whole scans, season by season

A title's seasons are looked at number by number. A scan moves the first
season of a number it lists, or appends one. -/

section Scans

variable {mediaId : Int} {enable4k : Bool}

@[simp] theorem seasonNumber_rescan (deferResets : Bool) (season : ProcessableSeason)
    (existing : SeasonRow) :
    (rescan deferResets enable4k season existing).seasonNumber = existing.seasonNumber := rfl

/-- The seasons of one number after a scan that lists it, or does not. -/
def rescanRows (mediaId : Int) (enable4k : Bool) (number : Int) (rows : List SeasonRow) :
    Option ProcessableSeason → List SeasonRow
  | none => rows
  | some season =>
    rescan true enable4k season (rows.headD (blankSeason mediaId number)) :: rows.tail

/-- What the loop does to the seasons. -/
def scanRow (loaded : Nat) (mediaId : Int) (enable4k : Bool) (seasons : List SeasonRow)
    (season : ProcessableSeason) : List SeasonRow :=
  match lookup SeasonRow.seasonNumber season.seasonNumber (seasons.take loaded) with
  | some _ => modifyFirst SeasonRow.seasonNumber season.seasonNumber
      (rescan true enable4k season) seasons
  | none => seasons ++ [newSeason mediaId enable4k season]

theorem scanSeason_seasons (loaded : Nat) (o : ShowOpts) (scan : ShowScan)
    (season : ProcessableSeason) :
    (scanSeason loaded o enable4k true scan season).media.seasons
        = scanRow loaded scan.media.id enable4k scan.media.seasons season
      ∧ (scanSeason loaded o enable4k true scan season).media.id = scan.media.id := by
  have hseasons : (claimKeys scan.media o season enable4k).seasons = scan.media.seasons := rfl
  unfold scanSeason scanRow
  dsimp only
  rw [hseasons]
  split
  · exact ⟨rfl, rfl⟩
  · exact ⟨rfl, rfl⟩

theorem foldl_scanSeason_seasons (loaded : Nat) (o : ShowOpts) (scan : ShowScan)
    (scanned : List ProcessableSeason) :
    (scanned.foldl (scanSeason loaded o enable4k true) scan).media.seasons
        = scanned.foldl (scanRow loaded scan.media.id enable4k) scan.media.seasons
      ∧ (scanned.foldl (scanSeason loaded o enable4k true) scan).media.id = scan.media.id := by
  induction scanned generalizing scan with
  | nil => exact ⟨rfl, rfl⟩
  | cons season scanned ih =>
    obtain ⟨hseasons, hid⟩ := @scanSeason_seasons enable4k loaded o scan season
    obtain ⟨hrest, hrestId⟩ := ih (scanSeason loaded o enable4k true scan season)
    rw [List.foldl_cons, List.foldl_cons, hrest, hrestId, hseasons, hid]
    exact ⟨rfl, rfl⟩

/-- One round of the loop, on the seasons stored with the title and those the
scan appended so far. -/
theorem scanRow_spec (stored appended : List SeasonRow) (season : ProcessableSeason)
    (hown : ∀ row ∈ appended, row.seasonNumber ≠ season.seasonNumber) :
    ∃ stored' appended' : List SeasonRow,
      scanRow stored.length mediaId enable4k (stored ++ appended) season = stored' ++ appended'
        ∧ stored'.length = stored.length
        ∧ (∀ row ∈ appended', row ∈ appended ∨ row.seasonNumber = season.seasonNumber)
        ∧ ∀ number, group SeasonRow.seasonNumber number (stored' ++ appended')
          = rescanRows mediaId enable4k number
              (group SeasonRow.seasonNumber number (stored ++ appended))
              (if season.seasonNumber = number then some season else none) := by
  unfold scanRow
  rw [List.take_left]
  have hself := group_modifyFirst_self (k := season.seasonNumber)
    (@seasonNumber_rescan enable4k true season) (stored ++ appended)
  cases hstored : lookup SeasonRow.seasonNumber season.seasonNumber stored with
  | some existing =>
    have happend := modifyFirst_append (f := rescan true enable4k season) hstored appended
    refine ⟨_, appended, happend, length_modifyFirst .., fun row hrow => .inl hrow, fun number => ?_⟩
    rw [← happend]
    by_cases hnumber : season.seasonNumber = number
    · obtain rfl := hnumber
      rw [if_pos rfl, hself]
      have hhead := @head?_group _ _ _ SeasonRow.seasonNumber season.seasonNumber stored
      rw [group_append]
      cases hrows : group SeasonRow.seasonNumber season.seasonNumber stored with
      | nil => rw [hrows, hstored] at hhead; cases hhead
      | cons row rows => rfl
    · rw [if_neg hnumber]
      exact group_modifyFirst_of_ne (seasonNumber_rescan true season) (Ne.symm hnumber) _
  | none =>
    refine ⟨stored, appended ++ [newSeason mediaId enable4k season], List.append_assoc .., rfl,
      fun row hrow => ?_, fun number => ?_⟩
    · rcases List.mem_append.mp hrow with hrow | hrow
      · exact .inl hrow
      · exact .inr (List.mem_singleton.mp hrow ▸ rfl)
    · rw [← List.append_assoc, group_append _ (stored ++ appended)]
      by_cases hnumber : season.seasonNumber = number
      · obtain rfl := hnumber
        have hnone : group SeasonRow.seasonNumber season.seasonNumber (stored ++ appended) = [] := by
          rw [group_append, group_of_forall_ne hown, List.append_nil, ← List.head?_eq_none_iff,
            head?_group, hstored]
        rw [if_pos rfl, hnone, newSeason_eq]
        exact group_singleton_self _
      · rw [if_neg hnumber, group_of_forall_ne (l := [newSeason mediaId enable4k season]),
          List.append_nil]
        · rfl
        · intro row hrow
          rw [List.mem_singleton.mp hrow]
          exact hnumber

/-- **A scan, number by number.** The seasons stored with the title come
first, those the scan appended so far after them. -/
theorem group_foldl_scanRow (stored appended : List SeasonRow) (scanned : List ProcessableSeason)
    (hnodup : (scanned.map (·.seasonNumber)).Nodup)
    (happended : ∀ row ∈ appended, ∀ season ∈ scanned, row.seasonNumber ≠ season.seasonNumber)
    (number : Int) :
    group SeasonRow.seasonNumber number
        (scanned.foldl (scanRow stored.length mediaId enable4k) (stored ++ appended))
      = rescanRows mediaId enable4k number
          (group SeasonRow.seasonNumber number (stored ++ appended))
          (lookup ProcessableSeason.seasonNumber number scanned) := by
  induction scanned generalizing stored appended with
  | nil => rfl
  | cons season scanned ih =>
    rw [List.map_cons, List.nodup_cons] at hnodup
    have hfresh : ∀ other ∈ scanned, other.seasonNumber ≠ season.seasonNumber :=
      fun other hother heq => hnodup.1 (heq ▸ List.mem_map_of_mem hother)
    obtain ⟨stored', appended', hrow, hlength, hnew, hgroup⟩ :=
      @scanRow_spec mediaId enable4k stored appended season
        fun row hrow => happended row hrow season List.mem_cons_self
    have happended' : ∀ row ∈ appended', ∀ other ∈ scanned,
        row.seasonNumber ≠ other.seasonNumber := by
      intro row hrow other hother
      rcases hnew row hrow with hold | hnumber
      · exact happended row hold other (List.mem_cons_of_mem _ hother)
      · rw [hnumber]
        exact Ne.symm (hfresh other hother)
    rw [List.foldl_cons, hrow, ← hlength, ih stored' appended' hnodup.2 happended', hgroup,
      lookup_cons]
    by_cases hnumber : season.seasonNumber = number
    · have hnone : lookup ProcessableSeason.seasonNumber number scanned = none := by
        refine List.find?_eq_none.mpr fun other hother => ?_
        rw [← hnumber]
        simpa using hfresh other hother
      rw [if_pos hnumber, if_pos hnumber, hnone]
      rfl
    · rw [if_neg hnumber, if_neg hnumber]
      rfl

theorem setServices_seasons (m : MediaRow) (fourK : Bool) (given : ServiceColumns) :
    (setServices m fourK given).1.seasons = m.seasons ∧ (setServices m fourK given).1.id = m.id := by
  cases fourK <;> exact ⟨rfl, rfl⟩

theorem applyShow_seasons (media : MediaRow) (scanned : List ProcessableSeason) (o : ShowOpts)
    (nowMs : Int) :
    (applyShow media scanned o enable4k nowMs true).after.seasons
        = scanned.foldl (scanRow media.seasons.length media.id enable4k) media.seasons
      ∧ (applyShow media scanned o enable4k nowMs true).after.id = media.id := by
  obtain ⟨hseasons, hid⟩ := @foldl_scanSeason_seasons enable4k media.seasons.length o
    { media := media } scanned
  rw [← hseasons, ← hid]
  unfold applyShow
  dsimp only
  split
  · exact ⟨rfl, rfl⟩
  · exact setServices_seasons ..

/-- **What an *arr scan leaves of a title's seasons**, number by number. -/
theorem group_applyShow (media : MediaRow) (scanned : List ProcessableSeason) (o : ShowOpts)
    (nowMs : Int) (hnodup : (scanned.map (·.seasonNumber)).Nodup) (number : Int) :
    group SeasonRow.seasonNumber number
        (applyShow media scanned o enable4k nowMs true).after.seasons
      = rescanRows media.id enable4k number (group SeasonRow.seasonNumber number media.seasons)
          (lookup ProcessableSeason.seasonNumber number scanned) := by
  have hstored := @group_foldl_scanRow media.id enable4k media.seasons []
    scanned hnodup (by simp) number
  rw [List.append_nil] at hstored
  rw [(applyShow_seasons media scanned o nowMs).1, hstored]

/-- The title's status is the seasons' after the scan, rolled up. -/
theorem statusOf_applyShow (media : MediaRow) (scanned : List ProcessableSeason) (o : ShowOpts)
    (nowMs : Int) (fourK : Bool) :
    (applyShow media scanned o enable4k nowMs true).after.statusOf fourK
      = rollupShowStatus (applyShow media scanned o enable4k nowMs true).after.seasons scanned
          fourK (some (media.statusOf fourK)) (enabledOf enable4k fourK) := by
  cases fourK <;> rfl

end Scans

/-! ## Two scans in either order -/

/-- A Sonarr server's scan of a title. -/
structure ArrScan where
  seasons : List ProcessableSeason
  opts : ShowOpts := {}
  nowMs : Int := 0
  nodup : (seasons.map (·.seasonNumber)).Nodup

/-- A title after a scan. -/
def ArrScan.apply (scan : ArrScan) (enable4k : Bool) (media : MediaRow) : MediaRow :=
  (applyShow media scan.seasons scan.opts enable4k scan.nowMs true).after

/-- The season a scan lists under a number. -/
def ArrScan.season (scan : ArrScan) (number : Int) : Option ProcessableSeason :=
  lookup ProcessableSeason.seasonNumber number scan.seasons

/-- The statuses of a title's seasons of one number, in one quality. -/
def MediaRow.seasonStatuses (media : MediaRow) (number : Int) (fourK : Bool) : List Int :=
  (group SeasonRow.seasonNumber number media.seasons).map (·.statusOf fourK)

/-- The status a season of a number starts from, unknown where it is not
stored. -/
def MediaRow.previousOf (media : MediaRow) (number : Int) (fourK : Bool) : Int :=
  ((lookup SeasonRow.seasonNumber number media.seasons).map (·.statusOf fourK)).getD
    MediaStatus.unknown

/-- **Two scans whose order the seasons do not show**: no season both list is
sighted by them in two ways that do not commute. -/
def SeasonsOrderFree (enable4k : Bool) (media : MediaRow) (scan scan' : ArrScan) : Prop :=
  ∀ (number : Int) (season season' : ProcessableSeason) (fourK : Bool),
    scan.season number = some season → scan'.season number = some season' →
    (sightingOf enable4k season fourK).OrderFree (media.previousOf number fourK)
      (sightingOf enable4k season' fourK)

section Orders

variable {enable4k : Bool} {media : MediaRow} {scan scan' : ArrScan}

theorem group_apply (scan : ArrScan) (media : MediaRow) (number : Int) :
    group SeasonRow.seasonNumber number (scan.apply enable4k media).seasons
      = rescanRows media.id enable4k number (group SeasonRow.seasonNumber number media.seasons)
          (scan.season number) :=
  group_applyShow media scan.seasons scan.opts scan.nowMs scan.nodup number

theorem group_apply_apply (scan scan' : ArrScan) (media : MediaRow) (number : Int) :
    group SeasonRow.seasonNumber number
        (scan'.apply enable4k (scan.apply enable4k media)).seasons
      = rescanRows media.id enable4k number
          (rescanRows media.id enable4k number (group SeasonRow.seasonNumber number media.seasons)
            (scan.season number)) (scan'.season number) := by
  rw [group_apply, group_apply]
  exact congrArg (rescanRows · enable4k number _ _) (applyShow_seasons ..).2

theorem previousOf_eq (media : MediaRow) (number : Int) (fourK : Bool) :
    media.previousOf number fourK
      = ((group SeasonRow.seasonNumber number media.seasons).headD
          (blankSeason media.id number)).statusOf fourK := by
  unfold MediaRow.previousOf
  rw [← head?_group]
  cases group SeasonRow.seasonNumber number media.seasons with
  | nil => cases fourK <;> rfl
  | cons row rows => rfl

/-- Two scans of one season, in either order. -/
theorem rescan_comm {season season' : ProcessableSeason} {row : SeasonRow}
    (h : ∀ fourK, (sightingOf enable4k season fourK).OrderFree (row.statusOf fourK)
      (sightingOf enable4k season' fourK)) :
    rescan true enable4k season' (rescan true enable4k season row)
      = rescan true enable4k season (rescan true enable4k season' row) := by
  have hstandard := (Sighting.next_comm_iff ..).mpr (h false)
  have h4k := (Sighting.next_comm_iff ..).mpr (h true)
  simp only [SeasonRow.statusOf, Bool.false_eq_true, if_false, if_true] at hstandard h4k
  simp only [rescan_eq, hstandard, h4k]

/-- **The seasons keep no trace of the order**: with the sightings commuting,
the rows are the same, number by number. -/
theorem group_apply_comm (h : SeasonsOrderFree enable4k media scan scan') (number : Int) :
    group SeasonRow.seasonNumber number (scan'.apply enable4k (scan.apply enable4k media)).seasons
      = group SeasonRow.seasonNumber number
          (scan.apply enable4k (scan'.apply enable4k media)).seasons := by
  rw [group_apply_apply, group_apply_apply]
  cases hseason : scan.season number with
  | none => rfl
  | some season =>
    cases hseason' : scan'.season number with
    | none => rfl
    | some season' =>
      have hrow := @rescan_comm enable4k season season'
        ((group SeasonRow.seasonNumber number media.seasons).headD
          (blankSeason media.id number)) fun fourK => by
          rw [← previousOf_eq]
          exact h number season season' fourK hseason hseason'
      exact congrArg (· :: _) hrow

/-- **Where the season statuses depend on the order**: exactly where a season
both scans list is sighted in two ways that do not commute. -/
theorem seasonStatuses_comm_iff :
    (∀ number fourK,
        (scan'.apply enable4k (scan.apply enable4k media)).seasonStatuses number fourK
          = (scan.apply enable4k (scan'.apply enable4k media)).seasonStatuses number fourK)
      ↔ SeasonsOrderFree enable4k media scan scan' := by
  constructor
  · intro h number season season' fourK hseason hseason'
    have hstatuses := h number fourK
    unfold MediaRow.seasonStatuses at hstatuses
    rw [group_apply_apply, group_apply_apply, hseason, hseason'] at hstatuses
    have hhead := (List.cons_eq_cons.mp hstatuses).1
    simp only [rescanRows, List.headD_cons, statusOf_rescan] at hhead
    rw [previousOf_eq]
    exact (Sighting.next_comm_iff ..).mp hhead
  · intro h number fourK
    unfold MediaRow.seasonStatuses
    rw [group_apply_comm h]

end Orders

/-! ## The title's status -/

/-- A season status that decides the title's whatever it was before. -/
def carriesTitle (enabled : Bool) (status : Int) : Prop :=
  status = MediaStatus.processing
    ∨ enabled ∧ (status = MediaStatus.partially ∨ status = MediaStatus.available)

section Rollup

variable {seasons seasons' : List SeasonRow} {scanned scanned' : List ProcessableSeason}
  {fourK enabled : Bool} {previous previous' : Option Int}

/-- The seasons the rollup to available looks at. -/
def rollupSeasons (seasons : List SeasonRow) (scanned : List ProcessableSeason) (fourK : Bool) :
    List SeasonRow :=
  (seasons.filter (·.seasonNumber ≠ 0)).filter fun s =>
    match lookup ProcessableSeason.seasonNumber s.seasonNumber scanned with
    | none => s.statusOf fourK ≠ MediaStatus.unknown
    | some item => item.totalEpisodes > 0

/-- Whether every season the rollup looks at is available. -/
def allAvailable (rollup : List SeasonRow) (fourK : Bool) : Bool :=
  !rollup.isEmpty && rollup.all fun s => s.statusOf fourK = MediaStatus.available

theorem allAvailable_iff (rollup : List SeasonRow) :
    allAvailable rollup fourK = true
      ↔ (∃ s, s ∈ rollup) ∧ ∀ s ∈ rollup, s.statusOf fourK = MediaStatus.available := by
  unfold allAvailable
  rw [Bool.and_eq_true, Bool.not_eq_true', List.isEmpty_eq_false_iff_exists_mem, List.all_eq_true]
  simp

/-- Without a season that decides it, the title keeps being deleted, or is
processing after an empty scan, or unknown. -/
theorem rollupShowStatus_of_not_carries
    (h : ∀ s ∈ seasons, ¬carriesTitle enabled (s.statusOf fourK)) :
    rollupShowStatus seasons scanned fourK previous enabled
      = if previous = some MediaStatus.deleted then MediaStatus.deleted
        else if scanned = [] then MediaStatus.processing else MediaStatus.unknown := by
  have havailable : ¬(enabled && allAvailable (rollupSeasons seasons scanned fourK) fourK) := by
    rw [Bool.and_eq_true, allAvailable_iff]
    rintro ⟨henabled, ⟨s, hs⟩, hall⟩
    have hmem : s ∈ seasons := (List.mem_filter.mp (List.mem_filter.mp hs).1).1
    exact h s hmem (.inr ⟨henabled, .inr (hall s hs)⟩)
  have hpartly : ¬(enabled && seasons.any fun s =>
      s.statusOf fourK = MediaStatus.partially || s.statusOf fourK = MediaStatus.available) := by
    rw [Bool.and_eq_true, List.any_eq_true]
    rintro ⟨henabled, s, hs, hstatus⟩
    exact h s hs (.inr ⟨henabled, by simpa using hstatus⟩)
  have hprocessing : (seasons.any fun s => s.statusOf fourK = MediaStatus.processing) = false := by
    rw [List.any_eq_false]
    intro s hs hstatus
    exact h s hs (.inl (by simpa using hstatus))
  show (if enabled && allAvailable (rollupSeasons seasons scanned fourK) fourK then _ else
    if _ then _ else if _ then _ else _) = _
  rw [if_neg havailable, if_neg hpartly, hprocessing, Bool.or_false]
  by_cases hdeleted : previous = some MediaStatus.deleted
  · simp [hdeleted]
  · cases scanned <;> simp [hdeleted]

/-- With one, the title's status before does not matter. -/
theorem rollupShowStatus_of_carries
    (h : ∃ s ∈ seasons, carriesTitle enabled (s.statusOf fourK)) :
    rollupShowStatus seasons scanned fourK previous enabled
      = if enabled && allAvailable (rollupSeasons seasons scanned fourK) fourK then
          MediaStatus.available
        else if enabled && seasons.any fun s =>
            s.statusOf fourK = MediaStatus.partially || s.statusOf fourK = MediaStatus.available then
          MediaStatus.partially
        else MediaStatus.processing := by
  refine if_congr Iff.rfl rfl ?_
  obtain ⟨s, hs, hprocessing | ⟨henabled, hpartly⟩⟩ := h
  · have hthird : (seasons.any fun s => s.statusOf fourK = MediaStatus.processing) = true := by
      rw [List.any_eq_true]
      exact ⟨s, hs, by simpa using hprocessing⟩
    rw [hthird, Bool.or_true, if_pos rfl]
  · have hsecond : (seasons.any fun s =>
        s.statusOf fourK = MediaStatus.partially || s.statusOf fourK = MediaStatus.available)
        = true := by
      rw [List.any_eq_true]
      exact ⟨s, hs, by simpa using hpartly⟩
    rw [hsecond, henabled]
    rfl

/-- Nor does the order of the seasons. -/
theorem rollupShowStatus_congr (hcarries : ∃ s ∈ seasons, carriesTitle enabled (s.statusOf fourK))
    (hseasons : ∀ s, s ∈ seasons ↔ s ∈ seasons')
    (hscanned : ∀ number, (lookup ProcessableSeason.seasonNumber number scanned).map (·.totalEpisodes)
      = (lookup ProcessableSeason.seasonNumber number scanned').map (·.totalEpisodes)) :
    rollupShowStatus seasons scanned fourK previous enabled
      = rollupShowStatus seasons' scanned' fourK previous' enabled := by
  have hcarries' : ∃ s ∈ seasons', carriesTitle enabled (s.statusOf fourK) := by
    simpa only [hseasons] using hcarries
  have hany : ∀ p : SeasonRow → Bool, seasons.any p = seasons'.any p := by
    intro p
    rw [Bool.eq_iff_iff, List.any_eq_true, List.any_eq_true]
    simp only [hseasons]
  have hrollup : ∀ s, s ∈ rollupSeasons seasons scanned fourK
      ↔ s ∈ rollupSeasons seasons' scanned' fourK := by
    intro s
    unfold rollupSeasons
    simp only [List.mem_filter, hseasons]
    have hsame := hscanned s.seasonNumber
    cases hitem : lookup ProcessableSeason.seasonNumber s.seasonNumber scanned <;>
      cases hitem' : lookup ProcessableSeason.seasonNumber s.seasonNumber scanned' <;>
      simp_all
  have havailable : allAvailable (rollupSeasons seasons scanned fourK) fourK
      = allAvailable (rollupSeasons seasons' scanned' fourK) fourK := by
    rw [Bool.eq_iff_iff, allAvailable_iff, allAvailable_iff]
    simp only [hrollup]
  rw [rollupShowStatus_of_carries hcarries, rollupShowStatus_of_carries hcarries', havailable, hany]

end Rollup

section Titles

variable {enable4k : Bool} {media : MediaRow} {scan scan' : ArrScan} {fourK : Bool}

/-- Two scans that list the same seasons, with the same episodes in total. -/
def SameSeasonsListed (scan scan' : ArrScan) : Prop :=
  ∀ number, (scan.season number).map (·.totalEpisodes)
    = (scan'.season number).map (·.totalEpisodes)

theorem SameSeasonsListed.seasons_eq_nil_iff (h : SameSeasonsListed scan scan') :
    scan.seasons = [] ↔ scan'.seasons = [] := by
  have hnil : ∀ s : ArrScan, s.seasons = [] ↔ ∀ number, s.season number = none := by
    intro s
    refine ⟨fun hs number => by rw [ArrScan.season, hs]; rfl, fun hs => ?_⟩
    refine List.eq_nil_iff_forall_not_mem.mpr fun season hseason => ?_
    have hfound := lookup_of_mem s.nodup hseason
    rw [show lookup _ season.seasonNumber s.seasons = none from hs _] at hfound
    cases hfound
  have hnone : ∀ number, scan.season number = none ↔ scan'.season number = none := by
    intro number
    rw [← Option.map_eq_none_iff (f := (·.totalEpisodes)), h number, Option.map_eq_none_iff]
  rw [hnil, hnil]
  exact forall_congr' hnone

/-- A scan gives up no season of a quality. -/
def NoReset (enable4k : Bool) (scan : ArrScan) (fourK : Bool) : Prop :=
  ∀ season ∈ scan.seasons, sightingOf enable4k season fourK ≠ .reset

/-- A sighting but a reset leaves a season that decides the title's status as
one that does. -/
theorem carriesTitle_next {season : ProcessableSeason} {previous : Int}
    (hreset : sightingOf enable4k season fourK ≠ .reset)
    (h : carriesTitle (enabledOf enable4k fourK) previous) :
    carriesTitle (enabledOf enable4k fourK)
      ((sightingOf enable4k season fourK).next previous) := by
  have henabled : sightingOf enable4k season fourK = .complete
      ∨ sightingOf enable4k season fourK = .partly → enabledOf enable4k fourK = true := by
    unfold sightingOf
    grind
  unfold carriesTitle at *
  cases hsighting : sightingOf enable4k season fourK with
  | complete => exact .inr ⟨henabled (.inl hsighting), .inr rfl⟩
  | partly =>
    refine .inr ⟨henabled (.inr hsighting), ?_⟩
    by_cases havailable : previous = MediaStatus.available <;> simp [Sighting.next, havailable]
  | awaited =>
    unfold Sighting.next
    grind
  | reset => exact absurd hsighting hreset
  | unmoved => exact h

/-- So do the seasons of a title. -/
theorem carriesTitle_apply (hreset : NoReset enable4k scan fourK)
    (h : ∃ s ∈ media.seasons, carriesTitle (enabledOf enable4k fourK) (s.statusOf fourK)) :
    ∃ s ∈ (scan.apply enable4k media).seasons,
      carriesTitle (enabledOf enable4k fourK) (s.statusOf fourK) := by
  obtain ⟨s, hs, hstatus⟩ := h
  have hgroup := @group_apply enable4k scan media s.seasonNumber
  have hmem : s ∈ group SeasonRow.seasonNumber s.seasonNumber media.seasons :=
    mem_group.mpr ⟨hs, rfl⟩
  have hafter : ∀ t ∈ group SeasonRow.seasonNumber s.seasonNumber
      (scan.apply enable4k media).seasons, t ∈ (scan.apply enable4k media).seasons :=
    fun t ht => (mem_group.mp ht).1
  rw [hgroup] at hafter
  cases hseason : scan.season s.seasonNumber with
  | none => exact ⟨s, hafter s (by rw [hseason]; exact hmem), hstatus⟩
  | some season =>
    rw [hseason] at hafter
    cases hrows : group SeasonRow.seasonNumber s.seasonNumber media.seasons with
    | nil => rw [hrows] at hmem; cases hmem
    | cons row rows =>
      rw [hrows] at hmem hafter
      rcases List.mem_cons.mp hmem with rfl | hmem
      · refine ⟨_, hafter _ List.mem_cons_self, ?_⟩
        show carriesTitle _ ((rescan true enable4k season s).statusOf fourK)
        rw [statusOf_rescan]
        exact carriesTitle_next (hreset season (mem_of_lookup hseason)) hstatus
      · exact ⟨s, hafter s (List.mem_cons_of_mem _ hmem), hstatus⟩

theorem statusOf_apply (scan : ArrScan) (media : MediaRow) :
    (scan.apply enable4k media).statusOf fourK
      = rollupShowStatus (scan.apply enable4k media).seasons scan.seasons fourK
          (some (media.statusOf fourK)) (enabledOf enable4k fourK) :=
  statusOf_applyShow media scan.seasons scan.opts scan.nowMs fourK

/-- After a scan the title is deleted exactly if it was and no season decides
otherwise. -/
theorem statusOf_apply_eq_deleted_iff :
    (scan.apply enable4k media).statusOf fourK = MediaStatus.deleted
      ↔ media.statusOf fourK = MediaStatus.deleted
        ∧ ¬∃ s ∈ (scan.apply enable4k media).seasons,
          carriesTitle (enabledOf enable4k fourK) (s.statusOf fourK) := by
  rw [statusOf_apply]
  by_cases hcarries : ∃ s ∈ (scan.apply enable4k media).seasons,
      carriesTitle (enabledOf enable4k fourK) (s.statusOf fourK)
  · rw [rollupShowStatus_of_carries hcarries]
    refine iff_of_false ?_ fun h => h.2 hcarries
    split
    · decide
    · split <;> decide
  · have hnone : ∀ s ∈ (scan.apply enable4k media).seasons,
        ¬carriesTitle (enabledOf enable4k fourK) (s.statusOf fourK) :=
      fun s hs hstatus => hcarries ⟨s, hs, hstatus⟩
    rw [rollupShowStatus_of_not_carries hnone]
    by_cases hdeleted : media.statusOf fourK = MediaStatus.deleted
    · rw [if_pos (congrArg some hdeleted)]
      exact iff_of_true rfl ⟨hdeleted, hcarries⟩
    · rw [if_neg (mt Option.some.inj hdeleted)]
      refine iff_of_false ?_ fun h => hdeleted h.1
      split <;> decide

/-- **The title keeps no trace of the order** either, where the scans list the
same seasons, unless it was deleted and a season is given up. -/
theorem statusOf_apply_comm (h : SeasonsOrderFree enable4k media scan scan')
    (hsame : SameSeasonsListed scan scan')
    (hreset : media.statusOf fourK = MediaStatus.deleted →
      NoReset enable4k scan fourK ∧ NoReset enable4k scan' fourK) :
    (scan'.apply enable4k (scan.apply enable4k media)).statusOf fourK
      = (scan.apply enable4k (scan'.apply enable4k media)).statusOf fourK := by
  have hseasons := mem_iff_of_group_eq (group_apply_comm h)
  rw [statusOf_apply scan' (scan.apply enable4k media),
    statusOf_apply scan (scan'.apply enable4k media)]
  by_cases hcarries : ∃ s ∈ (scan'.apply enable4k (scan.apply enable4k media)).seasons,
      carriesTitle (enabledOf enable4k fourK) (s.statusOf fourK)
  · exact rollupShowStatus_congr hcarries hseasons fun number => (hsame number).symm
  · have hcarries' : ¬∃ s ∈ (scan.apply enable4k (scan'.apply enable4k media)).seasons,
        carriesTitle (enabledOf enable4k fourK) (s.statusOf fourK) := by
      simpa only [hseasons] using hcarries
    -- the first scan left the title deleted exactly if it was
    have hdeleted : ∀ {first second : ArrScan},
        (media.statusOf fourK = MediaStatus.deleted → NoReset enable4k second fourK) →
        (¬∃ s ∈ (second.apply enable4k (first.apply enable4k media)).seasons,
          carriesTitle (enabledOf enable4k fourK) (s.statusOf fourK)) →
        ((first.apply enable4k media).statusOf fourK = MediaStatus.deleted
          ↔ media.statusOf fourK = MediaStatus.deleted) := by
      intro first second hsecond hnone
      rw [statusOf_apply_eq_deleted_iff]
      exact ⟨fun hboth => hboth.1,
        fun hdel => ⟨hdel, fun hfirst => hnone (carriesTitle_apply (hsecond hdel) hfirst)⟩⟩
    rw [rollupShowStatus_of_not_carries fun s hs hstatus => hcarries ⟨s, hs, hstatus⟩,
      rollupShowStatus_of_not_carries fun s hs hstatus => hcarries' ⟨s, hs, hstatus⟩]
    have hfirst := hdeleted (fun hdel => (hreset hdel).2) hcarries
    have hother := hdeleted (fun hdel => (hreset hdel).1) hcarries'
    simp only [Option.some.injEq, hfirst, hother, hsame.seasons_eq_nil_iff]

end Titles

/-- **Two scans of a show, in either order.** Listing the same episodes in
total for each season, they leave the same season statuses exactly if no
season both list is sighted in two ways that do not commute. Then the title's
statuses are the same as well, if the scans list the same seasons and, where
the title was deleted, neither gives up a season. -/
theorem apply_orderFree_iff (enable4k : Bool) (media : MediaRow) (scan scan' : ArrScan)
    (htotal : ∀ number season season', scan.season number = some season →
      scan'.season number = some season' → season.totalEpisodes = season'.totalEpisodes) :
    ((∀ number fourK,
        (scan'.apply enable4k (scan.apply enable4k media)).seasonStatuses number fourK
          = (scan.apply enable4k (scan'.apply enable4k media)).seasonStatuses number fourK)
      ↔ SeasonsOrderFree enable4k media scan scan')
    ∧ (SeasonsOrderFree enable4k media scan scan' →
        (∀ number, scan.season number = none ↔ scan'.season number = none) →
        ∀ fourK,
          (media.statusOf fourK = MediaStatus.deleted →
            NoReset enable4k scan fourK ∧ NoReset enable4k scan' fourK) →
          (scan'.apply enable4k (scan.apply enable4k media)).statusOf fourK
            = (scan.apply enable4k (scan'.apply enable4k media)).statusOf fourK) := by
  refine ⟨seasonStatuses_comm_iff, fun horder hlisted fourK hreset => ?_⟩
  refine statusOf_apply_comm horder (fun number => ?_) hreset
  have hnone := hlisted number
  cases hseason : scan.season number with
  | none => rw [hnone.mp hseason]
  | some season =>
    cases hseason' : scan'.season number with
    | none => rw [hnone.mpr hseason'] at hseason; cases hseason
    | some season' => exact congrArg some (htotal number season season' hseason hseason')

/-- A server with the whole of a season, or with it monitored and nothing
downloaded. -/
def wholeAndAwaited : ArrScan × ArrScan :=
  ({ seasons := [{ seasonNumber := 1, totalEpisodes := 10, episodes := 10 }]
     opts := { services := { serviceId := some 1 } }
     nodup := by decide },
   { seasons := [{ seasonNumber := 1, totalEpisodes := 10, processing := true }]
     opts := { services := { serviceId := some 2 } }
     nodup := by decide })

theorem season_wholeAndAwaited {number : Int} {season season' : ProcessableSeason}
    (h : wholeAndAwaited.1.season number = some season)
    (h' : wholeAndAwaited.2.season number = some season') :
    season = { seasonNumber := 1, totalEpisodes := 10, episodes := 10 }
      ∧ season' = { seasonNumber := 1, totalEpisodes := 10, processing := true } :=
  ⟨List.mem_singleton.mp (mem_of_lookup h), List.mem_singleton.mp (mem_of_lookup h')⟩

/-- The two servers of `wholeAndAwaited` leave a stored show available in
either order. -/
theorem apply_orderFree_wholeAndAwaited :
    let media : MediaRow := { status := 3, status4k := 1, seasons :=
      [{ seasonNumber := 1, status := 3, status4k := 1 }] }
    (∀ number fourK,
        (wholeAndAwaited.2.apply true (wholeAndAwaited.1.apply true media)).seasonStatuses
            number fourK
          = (wholeAndAwaited.1.apply true (wholeAndAwaited.2.apply true media)).seasonStatuses
            number fourK)
      ∧ ∀ fourK,
        (wholeAndAwaited.2.apply true (wholeAndAwaited.1.apply true media)).statusOf fourK
          = (wholeAndAwaited.1.apply true (wholeAndAwaited.2.apply true media)).statusOf fourK := by
  intro media
  have htotal : ∀ number season season', wholeAndAwaited.1.season number = some season →
      wholeAndAwaited.2.season number = some season' →
      season.totalEpisodes = season'.totalEpisodes := by
    intro number season season' h h'
    obtain ⟨rfl, rfl⟩ := season_wholeAndAwaited h h'
    rfl
  have horder : SeasonsOrderFree true media wholeAndAwaited.1 wholeAndAwaited.2 := by
    intro number season season' fourK h h'
    obtain ⟨rfl, rfl⟩ := season_wholeAndAwaited h h'
    generalize media.previousOf number fourK = previous
    cases fourK
    · exact .inr ⟨by decide, by decide, .inr (by decide)⟩
    · exact .inr ⟨by decide, by decide, .inr (by decide)⟩
  obtain ⟨hseasons, htitle⟩ := apply_orderFree_iff true media wholeAndAwaited.1 wholeAndAwaited.2
    htotal
  refine ⟨hseasons.mpr horder, fun fourK => htitle horder (fun number => ?_) fourK fun hdeleted => ?_⟩
  · by_cases hnumber : number = 1
    · subst hnumber
      decide
    · have hnone : ∀ season : ProcessableSeason, season.seasonNumber = 1 →
          lookup ProcessableSeason.seasonNumber number [season] = none := by
        intro season hseason
        rw [lookup_cons, if_neg (by rw [hseason]; exact Ne.symm hnumber)]
        rfl
      exact iff_of_true (hnone _ rfl) (hnone _ rfl)
  · cases fourK <;> exact absurd hdeleted (by decide)

/-- **The order shows**: in the season, where one server has some of its
episodes and another only awaits it; in the title, where only one server
lists a season; and in a deleted title, where a season is given up. -/
theorem apply_order_shows :
    -- four of ten episodes here, monitored there
    (let media : MediaRow := { status := 3, status4k := 1, seasons :=
        [{ seasonNumber := 1, status := 3, status4k := 1 }] }
      let scan : ArrScan :=
        { seasons := [{ seasonNumber := 1, totalEpisodes := 10, episodes := 4, processing := true }]
          nodup := by decide }
      let scan' : ArrScan :=
        { seasons := [{ seasonNumber := 1, totalEpisodes := 10, processing := true }]
          nodup := by decide }
      (scan'.apply false (scan.apply false media)).seasonStatuses 1 false = [3]
        ∧ (scan.apply false (scan'.apply false media)).seasonStatuses 1 false = [4]
        ∧ (scan'.apply false (scan.apply false media)).status = 3
        ∧ (scan.apply false (scan'.apply false media)).status = 4)
    -- a season without episodes, listed by one server alone
    ∧ (let media : MediaRow := { status := 4, status4k := 1, seasons :=
        [{ seasonNumber := 1, status := 1, status4k := 1 },
          { seasonNumber := 2, status := 5, status4k := 1 }] }
      let scan : ArrScan :=
        { seasons := [{ seasonNumber := 1, totalEpisodes := 10 },
            { seasonNumber := 2, totalEpisodes := 8, episodes := 8 }]
          nodup := by decide }
      let scan' : ArrScan :=
        { seasons := [{ seasonNumber := 2, totalEpisodes := 8, episodes := 8 }]
          nodup := by decide }
      (scan'.apply false (scan.apply false media)).status = 5
        ∧ (scan.apply false (scan'.apply false media)).status = 4)
    -- a deleted title with a season listed as empty
    ∧ (let media : MediaRow := { status := 7, status4k := 1, seasons :=
        [{ seasonNumber := 1, status := 3, status4k := 1 }] }
      let scan : ArrScan :=
        { seasons := [{ seasonNumber := 1, totalEpisodes := 0, is4kOverride := true }]
          nodup := by decide }
      let scan' : ArrScan :=
        { seasons := [{ seasonNumber := 1, totalEpisodes := 0, episodes := 3 }]
          nodup := by decide }
      (scan'.apply false (scan.apply false media)).status = 1
        ∧ (scan.apply false (scan'.apply false media)).status = 7) := by
  decide

end Foreseerr

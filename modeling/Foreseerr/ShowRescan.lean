import Foreseerr.ScanShow

/-!
# Scanning a show again

A scan that finds what the scan before it found has nothing left to do. Season
by season that is a matter of `next_season_status` and the deferred resets; for
the whole title, of the loop finding the seasons the first scan appended, and
of a roll-up that is fed its own result.
-/

namespace Foreseerr

open KeyedList

/-! ## One season -/

section Season

variable {deferResets enable4k : Bool} {season : ProcessableSeason}

/-- What is available stays so. -/
theorem nextSeasonStatus_available (totalEpisodes availableEpisodes : Int)
    (canBeAvailable processingForQuality processing : Bool) :
    nextSeasonStatus (some MediaStatus.available) totalEpisodes availableEpisodes canBeAvailable
      processingForQuality processing = MediaStatus.available := by
  unfold nextSeasonStatus
  split
  · rfl
  · rw [if_pos rfl]

/-- **A season moved once stays where it is.** -/
theorem nextSeasonStatus_idem (previous : Option Int) (totalEpisodes availableEpisodes : Int)
    (canBeAvailable processingForQuality processing : Bool) :
    nextSeasonStatus (some (nextSeasonStatus previous totalEpisodes availableEpisodes
        canBeAvailable processingForQuality processing)) totalEpisodes availableEpisodes
        canBeAvailable processingForQuality processing
      = nextSeasonStatus previous totalEpisodes availableEpisodes canBeAvailable
        processingForQuality processing := by
  by_cases hcomplete : canBeAvailable ∧ totalEpisodes = availableEpisodes ∧ availableEpisodes > 0
  · simp [nextSeasonStatus, hcomplete]
  by_cases havailable : previous = some MediaStatus.available
  · rw [havailable, nextSeasonStatus_available, nextSeasonStatus_available]
  by_cases hpartly : canBeAvailable ∧ availableEpisodes > 0
  · simp [nextSeasonStatus, hcomplete, havailable, hpartly]
  by_cases hawaited : processingForQuality ∧ processing ∧ previous ≠ some MediaStatus.deleted
  · simp [nextSeasonStatus, hcomplete, havailable, hpartly, hawaited]
  by_cases hreset : previous = some MediaStatus.processing ∧ processingForQuality ∧ ¬processing
      ∧ availableEpisodes = 0
  · have hprocessing := hreset.2.2.1
    simp [nextSeasonStatus, hcomplete, havailable, hpartly, hawaited, hreset]
  · -- Nothing moves it, and nothing moves what stands for a season not stored yet.
    have hstays : nextSeasonStatus previous totalEpisodes availableEpisodes canBeAvailable
        processingForQuality processing = previous.getD MediaStatus.unknown := by
      simp only [nextSeasonStatus, hcomplete, havailable, hpartly, hawaited, hreset, if_false]
    rw [hstays]
    cases previous with
    | some status => exact hstays
    | none =>
      rw [Option.getD_none, ← nextSeasonStatus_none]
      exact hstays

/-- What a scan makes of a season's status in one quality, deferred or not. -/
theorem statusOf_rescan_eq (existing : SeasonRow) (fourK : Bool) :
    (rescan deferResets enable4k season existing).statusOf fourK
      = if deferredOf deferResets season existing fourK then existing.statusOf fourK
        else nextSeasonStatus (some (existing.statusOf fourK)) season.totalEpisodes
          (season.countedOf fourK) (enabledOf enable4k fourK) (season.is4kOverride == fourK)
          season.processing := by
  cases fourK <;> cases hoverride : season.is4kOverride <;>
    simp [rescan, SeasonRow.statusOf, scannedStatuses, ProcessableSeason.countedOf, enabledOf,
      hoverride]

/-- A season that is available stays so, deferred or not. -/
theorem statusOf_rescan_available {existing : SeasonRow} {fourK : Bool}
    (h : existing.statusOf fourK = MediaStatus.available) :
    (rescan deferResets enable4k season existing).statusOf fourK = MediaStatus.available := by
  rw [statusOf_rescan_eq, h, nextSeasonStatus_available, ite_self]

/-- Whether a reset is deferred is a matter of the status in its quality. -/
theorem deferredOf_congr {existing existing' : SeasonRow} {fourK : Bool}
    (h : existing.statusOf fourK = existing'.statusOf fourK) :
    deferredOf deferResets season existing fourK
      = deferredOf deferResets season existing' fourK := by
  cases fourK
  · unfold deferredOf
    rw [if_neg Bool.false_ne_true, if_neg Bool.false_ne_true, show existing.status = _ from h]
    rfl
  · unfold deferredOf
    rw [if_pos rfl, if_pos rfl, show existing.status4k = _ from h]
    rfl

/-- A season is its two statuses, and what no scan touches. -/
theorem rescan_eq_self {existing : SeasonRow} (h : ∀ fourK,
    (rescan deferResets enable4k season existing).statusOf fourK = existing.statusOf fourK) :
    rescan deferResets enable4k season existing = existing := by
  have hstandard := h false
  have h4k := h true
  show ({ existing with
      status := (rescan deferResets enable4k season existing).statusOf false
      status4k := (rescan deferResets enable4k season existing).statusOf true } : SeasonRow) = _
  rw [hstandard, h4k]
  rfl

/-- **A season scanned again stays as it is**: where a reset was deferred it is
deferred again. -/
theorem rescan_rescan (existing : SeasonRow) :
    rescan deferResets enable4k season (rescan deferResets enable4k season existing)
      = rescan deferResets enable4k season existing := by
  refine rescan_eq_self fun fourK => ?_
  have hstatus := @statusOf_rescan_eq deferResets enable4k season existing fourK
  rw [statusOf_rescan_eq (rescan deferResets enable4k season existing)]
  split
  · rfl
  · next hagain =>
    split at hstatus
    · next hdeferred => exact absurd (deferredOf_congr hstatus ▸ hdeferred) hagain
    · rw [hstatus, nextSeasonStatus_idem]

/-- The status of a season the title lacked, in one quality. -/
theorem statusOf_newSeason (mediaId : Int) (fourK : Bool) :
    (newSeason mediaId enable4k season).statusOf fourK
      = nextSeasonStatus none season.totalEpisodes (season.countedOf fourK)
        (enabledOf enable4k fourK) (season.is4kOverride == fourK) season.processing := by
  cases fourK <;> cases hoverride : season.is4kOverride <;>
    simp [newSeason, SeasonRow.statusOf, scannedStatuses, ProcessableSeason.countedOf, enabledOf,
      hoverride]

/-- So does one the title lacked. -/
theorem rescan_newSeason (mediaId : Int) :
    rescan deferResets enable4k season (newSeason mediaId enable4k season)
      = newSeason mediaId enable4k season := by
  refine rescan_eq_self fun fourK => ?_
  rw [statusOf_rescan_eq]
  split
  · rfl
  · rw [statusOf_newSeason, nextSeasonStatus_idem]

end Season

/-! ## The loop -/

section Loop

variable {deferResets enable4k : Bool} {o : ShowOpts}

/-- A scanned season in the place of the one stored, or a new one. -/
def scannedRow (deferResets enable4k : Bool) (mediaId : Int) (season : ProcessableSeason) :
    Option SeasonRow → SeasonRow
  | some existing => rescan deferResets enable4k season existing
  | none => newSeason mediaId enable4k season

/-- A round of a season stored with the title. -/
theorem scanSeason_found {loaded : Nat} {scan : ShowScan} {season : ProcessableSeason}
    {existing : SeasonRow} (h : lookup SeasonRow.seasonNumber season.seasonNumber
      (scan.media.seasons.take loaded) = some existing) :
    (scanSeason loaded o enable4k deferResets scan season).media.seasons
        = modifyFirst SeasonRow.seasonNumber season.seasonNumber
            (rescan deferResets enable4k season) scan.media.seasons
      ∧ (scanSeason loaded o enable4k deferResets scan season).fresh = scan.fresh
      ∧ (scanSeason loaded o enable4k deferResets scan season).media.id = scan.media.id := by
  have hclaimed : lookup SeasonRow.seasonNumber season.seasonNumber
      ((claimKeys scan.media o season enable4k).seasons.take loaded) = some existing := h
  unfold scanSeason
  dsimp only
  rw [hclaimed]
  exact ⟨rfl, rfl, rfl⟩

/-- A round of one the title lacked. -/
theorem scanSeason_lacked {loaded : Nat} {scan : ShowScan} {season : ProcessableSeason}
    (h : lookup SeasonRow.seasonNumber season.seasonNumber (scan.media.seasons.take loaded)
      = none) :
    (scanSeason loaded o enable4k deferResets scan season).media.seasons
        = scan.media.seasons ++ [newSeason scan.media.id enable4k season]
      ∧ (scanSeason loaded o enable4k deferResets scan season).media.id = scan.media.id := by
  have hclaimed : lookup SeasonRow.seasonNumber season.seasonNumber
      ((claimKeys scan.media o season enable4k).seasons.take loaded) = none := h
  unfold scanSeason
  dsimp only
  rw [hclaimed]
  exact ⟨rfl, rfl⟩

/-- **The seasons after the loop**, number by number: those stored with the
title come first, those it appended so far after them. -/
theorem lookup_foldl_scanSeason {scanned : List ProcessableSeason} (scan : ShowScan)
    (stored appended : List SeasonRow) (hseasons : scan.media.seasons = stored ++ appended)
    (hnodup : (scanned.map (·.seasonNumber)).Nodup)
    (happended : ∀ row ∈ appended, ∀ season ∈ scanned, row.seasonNumber ≠ season.seasonNumber)
    (number : Int) :
    lookup SeasonRow.seasonNumber number
        (scanned.foldl (scanSeason stored.length o enable4k deferResets) scan).media.seasons
      = match lookup ProcessableSeason.seasonNumber number scanned with
        | none => lookup SeasonRow.seasonNumber number (stored ++ appended)
        | some season => some (scannedRow deferResets enable4k scan.media.id season
            (lookup SeasonRow.seasonNumber number stored)) := by
  induction scanned generalizing scan stored appended with
  | nil => rw [List.foldl_nil, hseasons, lookup_nil]
  | cons season scanned ih =>
    rw [List.map_cons, List.nodup_cons] at hnodup
    have hfresh : ∀ other ∈ scanned, other.seasonNumber ≠ season.seasonNumber :=
      fun other hother heq => hnodup.1 (heq ▸ List.mem_map_of_mem hother)
    have hlater : ∀ row ∈ appended, ∀ other ∈ scanned, row.seasonNumber ≠ other.seasonNumber :=
      fun row hrow other hother => happended row hrow other (List.mem_cons_of_mem _ hother)
    have htake : scan.media.seasons.take stored.length = stored := by rw [hseasons, List.take_left]
    rw [List.foldl_cons, lookup_cons]
    cases hexisting : lookup SeasonRow.seasonNumber season.seasonNumber stored with
    | some existing =>
      obtain ⟨hstep, -, hid⟩ := @scanSeason_found deferResets enable4k o _ _ _ _
        (htake.symm ▸ hexisting)
      rw [hseasons, modifyFirst_append hexisting appended] at hstep
      have hlength : (modifyFirst SeasonRow.seasonNumber season.seasonNumber
          (rescan deferResets enable4k season) stored).length = stored.length :=
        length_modifyFirst ..
      rw [← hlength, ih _ _ _ (hlength.symm ▸ hstep) hnodup.2 hlater, hlength, hid]
      by_cases hnumber : season.seasonNumber = number
      · subst hnumber
        rw [if_pos rfl, lookup_eq_none hfresh, lookup_append, lookup_modifyFirst_self
          (seasonNumber_rescan deferResets season), hexisting]
        rfl
      · have hne : number ≠ season.seasonNumber := Ne.symm hnumber
        rw [if_neg hnumber, lookup_append, lookup_append, lookup_modifyFirst_of_ne
          (seasonNumber_rescan deferResets season) hne]
    | none =>
      obtain ⟨hstep, hid⟩ := @scanSeason_lacked deferResets enable4k o _ _ _
        (htake.symm ▸ hexisting)
      rw [hseasons, List.append_assoc] at hstep
      have hlater' : ∀ row ∈ appended ++ [newSeason scan.media.id enable4k season],
          ∀ other ∈ scanned, row.seasonNumber ≠ other.seasonNumber := by
        intro row hrow other hother
        rcases List.mem_append.1 hrow with hrow | hrow
        · exact hlater row hrow other hother
        · rw [List.mem_singleton.1 hrow]
          exact Ne.symm (hfresh other hother)
      rw [ih _ _ _ hstep hnodup.2 hlater', hid]
      by_cases hnumber : season.seasonNumber = number
      · subst hnumber
        have hown : lookup SeasonRow.seasonNumber season.seasonNumber appended = none :=
          lookup_eq_none fun row hrow => happended row hrow season List.mem_cons_self
        rw [if_pos rfl, lookup_eq_none hfresh, lookup_append, lookup_append, hexisting, hown]
        exact lookup_cons.trans (if_pos rfl)
      · have hother : lookup SeasonRow.seasonNumber number
            [newSeason scan.media.id enable4k season] = none := lookup_cons.trans (if_neg hnumber)
        rw [if_neg hnumber, lookup_append, lookup_append, lookup_append, hother, Option.or_none]

/-- A loop over seasons that are found and stay as they are changes none and
creates none. -/
theorem foldl_scanSeason_settled {scanned : List ProcessableSeason} {loaded : Nat}
    (scan : ShowScan) (hloaded : scan.media.seasons.length ≤ loaded)
    (h : ∀ season ∈ scanned, ∃ row,
      lookup SeasonRow.seasonNumber season.seasonNumber scan.media.seasons = some row
        ∧ rescan deferResets enable4k season row = row) :
    (scanned.foldl (scanSeason loaded o enable4k deferResets) scan).media.seasons
        = scan.media.seasons
      ∧ (scanned.foldl (scanSeason loaded o enable4k deferResets) scan).fresh = scan.fresh := by
  induction scanned generalizing scan with
  | nil => exact ⟨rfl, rfl⟩
  | cons season scanned ih =>
    obtain ⟨row, hrow, hsettled⟩ := h season List.mem_cons_self
    have htake : scan.media.seasons.take loaded = scan.media.seasons :=
      List.take_of_length_le hloaded
    obtain ⟨hstep, hfresh, -⟩ := @scanSeason_found deferResets enable4k o _ _ _ _
      (htake.symm ▸ hrow)
    rw [modifyFirst_eq_self hrow hsettled] at hstep
    obtain ⟨hseasons, hcreated⟩ := ih _ (hstep.symm ▸ hloaded) (hstep.symm ▸
      fun other hother => h other (List.mem_cons_of_mem _ hother))
    rw [List.foldl_cons]
    exact ⟨hseasons.trans hstep, hcreated.trans hfresh⟩

end Loop

/-! ## The title -/

section Title

variable {deferResets enable4k : Bool} {o : ShowOpts} {media : MediaRow}
  {scanned : List ProcessableSeason} {nowMs : Int}

/-- The seasons of an update are those of its loop, and so are those it
created. -/
theorem applyShow_loop (media : MediaRow) (scanned : List ProcessableSeason) (o : ShowOpts)
    (nowMs : Int) :
    (applyShow media scanned o enable4k nowMs deferResets).after.seasons
        = (scanned.foldl (scanSeason media.seasons.length o enable4k deferResets)
            { media := media }).media.seasons
      ∧ (applyShow media scanned o enable4k nowMs deferResets).fresh
        = (scanned.foldl (scanSeason media.seasons.length o enable4k deferResets)
            { media := media }).fresh := by
  refine ⟨?_, rfl⟩
  unfold applyShow
  dsimp only
  split
  · rfl
  · exact (setServices_seasons ..).1

/-- **The seasons after a scan**, number by number. -/
theorem lookup_applyShow (hscanned : (scanned.map (·.seasonNumber)).Nodup) (number : Int) :
    lookup SeasonRow.seasonNumber number
        (applyShow media scanned o enable4k nowMs deferResets).after.seasons
      = match lookup ProcessableSeason.seasonNumber number scanned with
        | none => lookup SeasonRow.seasonNumber number media.seasons
        | some season => some (scannedRow deferResets enable4k media.id season
            (lookup SeasonRow.seasonNumber number media.seasons)) := by
  rw [(applyShow_loop media scanned o nowMs).1]
  have hloop := @lookup_foldl_scanSeason deferResets enable4k o scanned { media := media }
    media.seasons [] (List.append_nil _).symm hscanned (by simp) number
  rw [List.append_nil] at hloop
  exact hloop

/-- The title's status is the seasons' after the scan, rolled up. -/
theorem statusOf_applyShow_eq (media : MediaRow) (scanned : List ProcessableSeason) (o : ShowOpts)
    (nowMs : Int) (fourK : Bool) :
    (applyShow media scanned o enable4k nowMs deferResets).after.statusOf fourK
      = rollupShowStatus (applyShow media scanned o enable4k nowMs deferResets).after.seasons
          scanned fourK (some (media.statusOf fourK)) (enabledOf enable4k fourK) := by
  cases fourK <;> rfl

/-- How many more seasons an update finds available. -/
theorem moreAvailable_applyShow (media : MediaRow) (scanned : List ProcessableSeason)
    (o : ShowOpts) (nowMs : Int) :
    (applyShow media scanned o enable4k nowMs deferResets).moreAvailable
      = (availableCount (applyShow media scanned o enable4k nowMs deferResets).after.seasons false
            - availableCount media.seasons false,
          availableCount (applyShow media scanned o enable4k nowMs deferResets).after.seasons true
            - availableCount media.seasons true) := by
  rw [(applyShow_loop media scanned o nowMs).1]
  rfl

/-- A roll-up fed its own result comes to it again: what was there before
matters only where it was deleted. -/
theorem rollupShowStatus_idem (seasons : List SeasonRow) (scanned : List ProcessableSeason)
    (fourK : Bool) (previous : Option Int) (enabled : Bool) :
    rollupShowStatus seasons scanned fourK
        (some (rollupShowStatus seasons scanned fourK previous enabled)) enabled
      = rollupShowStatus seasons scanned fourK previous enabled := by
  unfold rollupShowStatus
  dsimp only
  split
  · rfl
  split
  · rfl
  split
  · next hprocessing =>
    rw [if_pos]
    rw [Bool.or_eq_true] at hprocessing ⊢
    refine hprocessing.imp (fun hempty => ?_) id
    rw [Bool.and_eq_true] at hempty
    exact Bool.and_eq_true_iff.2 ⟨hempty.1, rfl⟩
  · next hprocessing =>
    split
    · next hdeleted =>
      rw [hdeleted] at hprocessing
      rw [if_neg hprocessing, if_pos rfl]
    · next hdeleted =>
      have hnone : ¬ scanned.isEmpty = true := by
        intro hempty
        refine hprocessing ?_
        rw [hempty, Bool.true_and, Bool.or_eq_true, bne_iff_ne]
        exact .inl hdeleted
      rw [if_neg, if_neg (by decide)]
      rw [Bool.or_eq_true, not_or] at hprocessing ⊢
      exact ⟨fun h => hnone (Bool.and_eq_true_iff.1 h).1, hprocessing.2⟩

/-- A scan leaves every season it lists in the state it would leave it in. -/
theorem settled_applyShow (hscanned : (scanned.map (·.seasonNumber)).Nodup)
    {season : ProcessableSeason} (hseason : season ∈ scanned) :
    ∃ row, lookup SeasonRow.seasonNumber season.seasonNumber
        (applyShow media scanned o enable4k nowMs deferResets).after.seasons = some row
      ∧ rescan deferResets enable4k season row = row := by
  have hlisted := lookup_of_mem hscanned hseason
  refine ⟨_, by rw [lookup_applyShow hscanned, hlisted], ?_⟩
  unfold scannedRow
  split
  · exact rescan_rescan _
  · exact rescan_newSeason media.id

/-- **Rescanning changes nothing and loses nothing**: the same scan again gives
the same seasons and statuses, creates no season and reports none as newly
available; what was available before a scan is found available after it. -/
theorem rescan_noop (media : MediaRow) (scanned : List ProcessableSeason) (o : ShowOpts)
    (enable4k deferResets : Bool) (nowMs nowMs' : Int)
    (hstored : (media.seasons.map (·.seasonNumber)).Nodup)
    (hscanned : (scanned.map (·.seasonNumber)).Nodup) :
    let once := (applyShow media scanned o enable4k nowMs deferResets).after
    let again := applyShow once scanned o enable4k nowMs' deferResets
    again.after.seasons = once.seasons
      ∧ (∀ fourK, again.after.statusOf fourK = once.statusOf fourK)
      ∧ again.fresh = [] ∧ again.moreAvailable = (0, 0)
      ∧ ∀ fourK, ∀ s ∈ media.seasons, s.statusOf fourK = MediaStatus.available →
        ∃ s', lookup SeasonRow.seasonNumber s.seasonNumber once.seasons = some s'
          ∧ s'.id = s.id ∧ s'.statusOf fourK = MediaStatus.available := by
  intro once again
  obtain ⟨hloop, hcreated⟩ := @foldl_scanSeason_settled deferResets enable4k o scanned
    once.seasons.length { media := once } le_rfl fun season hseason =>
      settled_applyShow hscanned hseason
  obtain ⟨hseasons, hfresh⟩ := @applyShow_loop deferResets enable4k once scanned o nowMs'
  have hsame : again.after.seasons = once.seasons := hseasons.trans hloop
  refine ⟨hsame, fun fourK => ?_, hfresh.trans hcreated, ?_, fun fourK s hs havailable => ?_⟩
  · rw [statusOf_applyShow_eq once scanned o nowMs', hsame,
      statusOf_applyShow_eq media scanned o nowMs]
    exact rollupShowStatus_idem _ _ _ _ _
  · rw [moreAvailable_applyShow, hsame, Nat.sub_self, Nat.sub_self]
  · have hfound := lookup_of_mem hstored hs
    cases hlisted : lookup ProcessableSeason.seasonNumber s.seasonNumber scanned with
    | none => exact ⟨s, by rw [lookup_applyShow hscanned, hlisted, hfound], rfl, havailable⟩
    | some season =>
      exact ⟨rescan deferResets enable4k season s,
        by rw [lookup_applyShow hscanned, hlisted, hfound]; rfl, rfl,
        statusOf_rescan_available havailable⟩

end Title

/-- A show with a season on its way and one that is there; a server lists
the first as given up and a third with every episode. -/
def airingShow : MediaRow :=
  { id := 1
    status := MediaStatus.processing
    seasons := [{ id := 1, seasonNumber := 1, status := MediaStatus.processing },
      { id := 2, seasonNumber := 2, status := MediaStatus.available }] }

/-- That show, scanned twice. -/
theorem rescan_noop_airing :
    let scanned : List ProcessableSeason :=
      [{ seasonNumber := 1, totalEpisodes := 8 },
        { seasonNumber := 3, totalEpisodes := 2, episodes := 2 }]
    let once := applyShow airingShow scanned {} true 0 true
    let again := applyShow once.after scanned {} true 5 true
    once.after.seasons.map (fun s => (s.seasonNumber, s.status)) = [(1, 3), (2, 5), (3, 5)]
      ∧ again.after.seasons = once.after.seasons ∧ again.fresh = [] := by
  intro scanned once again
  obtain ⟨hseasons, -, hfresh, -⟩ :=
    rescan_noop airingShow scanned {} true true 0 5 (by decide) (by decide)
  exact ⟨by decide, hseasons, hfresh⟩

end Foreseerr

import Foreseerr.ShowRescan

/-!
# The two qualities of a scan

A scan updates the standard and the 4K columns of a show side by side. What it
makes of one quality does not depend on the other: two runs on shows and scans
that differ in the other quality's columns alone agree on this one.

The two qualities are not quite symmetric. Whether 4K is enabled matters to the
4K columns, and to them alone.
-/

namespace Foreseerr

open KeyedList

/-! ## Hiding a quality -/

/-- A season but for its status in a quality. -/
def SeasonRow.hide (fourK : Bool) (s : SeasonRow) : SeasonRow :=
  s.setStatus fourK MediaStatus.unknown

/-- A show but for its columns in a quality. -/
def MediaRow.hide (fourK : Bool) (m : MediaRow) : MediaRow :=
  { m.setStatus fourK MediaStatus.unknown with seasons := m.seasons.map (SeasonRow.hide fourK) }

/-- A scanned season but for its episodes in a quality. -/
def ProcessableSeason.hide (fourK : Bool) (s : ProcessableSeason) : ProcessableSeason :=
  if fourK then { s with episodes4k := 0 } else { s with episodes := 0 }

/-- What an update says of a quality: the title's status and the seasons', the
resets it deferred, and whether the title's status was reset. -/
structure QualityUpdate where
  status : Int
  seasons : List (Int × Int)
  deferred : List Int
  reset : Bool
deriving DecidableEq, Repr

/-- An update, of one quality. -/
def ShowUpdate.quality (u : ShowUpdate) (fourK : Bool) : QualityUpdate where
  status := u.after.statusOf fourK
  seasons := u.after.seasons.map fun s => (s.seasonNumber, s.statusOf fourK)
  deferred := (u.deferredSeasons.filter fun d => d.2 == fourK).map (·.1)
  reset := u.statusResets.contains fourK

/-- What a quality shows of a season. -/
def SeasonRow.seen (fourK : Bool) (s : SeasonRow) : Int × Int := (s.seasonNumber, s.statusOf fourK)

section Seasons

variable {fourK deferResets enable4k enable4k' : Bool} {s s' : SeasonRow}
  {season season' : ProcessableSeason}

/-- A quality shows the same of a season with the other hidden. -/
theorem SeasonRow.seen_hide (s : SeasonRow) (fourK : Bool) :
    (s.hide (!fourK)).seen fourK = s.seen fourK := by
  cases fourK <;> rfl

theorem seen_eq_of_hide {seasons seasons' : List SeasonRow}
    (h : seasons.map (SeasonRow.hide (!fourK)) = seasons'.map (SeasonRow.hide (!fourK))) :
    seasons.map (SeasonRow.seen fourK) = seasons'.map (SeasonRow.seen fourK) := by
  have hseen : SeasonRow.seen fourK ∘ SeasonRow.hide (!fourK) = SeasonRow.seen fourK := by
    funext s
    exact s.seen_hide fourK
  rw [← hseen, ← List.map_map, h, List.map_map]

/-- What scanned seasons that agree but for the other quality agree on. -/
structure Alike (fourK : Bool) (season season' : ProcessableSeason) : Prop where
  seasonNumber : season.seasonNumber = season'.seasonNumber
  totalEpisodes : season.totalEpisodes = season'.totalEpisodes
  listed : season.listedOf fourK = season'.listedOf fourK
  is4kOverride : season.is4kOverride = season'.is4kOverride
  processing : season.processing = season'.processing

theorem alike_of_hide (h : season.hide (!fourK) = season'.hide (!fourK)) :
    Alike fourK season season' := by
  unfold ProcessableSeason.hide at h
  cases fourK <;> cases season <;> cases season' <;> cases h <;> exact ⟨rfl, rfl, rfl, rfl, rfl⟩

theorem Alike.countedOf (h : Alike fourK season season') :
    season.countedOf fourK = season'.countedOf fourK := by
  rw [countedOf_eq, countedOf_eq, h.totalEpisodes, h.listed]

theorem Alike.deferredOf (h : Alike fourK season season')
    (hstatus : s.statusOf fourK = s'.statusOf fourK) :
    deferredOf deferResets season s fourK = deferredOf deferResets season' s' fourK := by
  have hlisted := h.listed
  unfold ProcessableSeason.listedOf at hlisted
  unfold SeasonRow.statusOf at hstatus
  unfold Foreseerr.deferredOf seasonAbandoned
  cases fourK
  · rw [if_neg Bool.false_ne_true, if_neg Bool.false_ne_true] at hlisted hstatus ⊢
    rw [h.is4kOverride, h.processing, hlisted, hstatus]
  · rw [if_pos rfl, if_pos rfl] at hlisted hstatus ⊢
    rw [h.is4kOverride, h.processing, hlisted, hstatus]

/-- A stored season is rescanned alike. -/
theorem Alike.rescan (h : Alike fourK season season') (hseen : s.seen fourK = s'.seen fourK)
    (henabled : enabledOf enable4k fourK = enabledOf enable4k' fourK) :
    (rescan deferResets enable4k season s).seen fourK
      = (rescan deferResets enable4k' season' s').seen fourK := by
  obtain ⟨hnumber, hstatus⟩ := Prod.ext_iff.1 hseen
  refine Prod.ext hnumber ?_
  show (Foreseerr.rescan deferResets enable4k season s).statusOf fourK
    = (Foreseerr.rescan deferResets enable4k' season' s').statusOf fourK
  rw [statusOf_rescan_eq, statusOf_rescan_eq, h.deferredOf hstatus, h.totalEpisodes, h.countedOf,
    h.is4kOverride, h.processing, henabled, show s.statusOf fourK = s'.statusOf fourK from hstatus]

/-- A season the title lacked is created alike. -/
theorem Alike.newSeason (h : Alike fourK season season') (mediaId mediaId' : Int)
    (henabled : enabledOf enable4k fourK = enabledOf enable4k' fourK) :
    (newSeason mediaId enable4k season).seen fourK
      = (newSeason mediaId' enable4k' season').seen fourK := by
  refine Prod.ext h.seasonNumber ?_
  show (Foreseerr.newSeason mediaId enable4k season).statusOf fourK
    = (Foreseerr.newSeason mediaId' enable4k' season').statusOf fourK
  rw [statusOf_newSeason, statusOf_newSeason, h.totalEpisodes, h.countedOf, h.is4kOverride,
    h.processing, henabled]

end Seasons

/-! ## The loop -/

/-- The numbers of the deferred seasons of a quality. -/
def deferredIn (fourK : Bool) (deferred : List (Int × Bool)) : List Int :=
  (deferred.filter fun d => d.2 == fourK).map (·.1)

section Loop

variable {fourK deferResets enable4k enable4k' : Bool} {o : ShowOpts} {loaded : Nat}
  {scan scan' : ShowScan} {season season' : ProcessableSeason}

/-- Two loops that stand alike, as far as a quality shows. -/
structure ScansAlike (fourK : Bool) (scan scan' : ShowScan) : Prop where
  seasons : scan.media.seasons.map (SeasonRow.seen fourK)
    = scan'.media.seasons.map (SeasonRow.seen fourK)
  deferred : deferredIn fourK scan.deferredSeasons = deferredIn fourK scan'.deferredSeasons

/-- **A season is deferred in one quality**: the one it is given up in. -/
theorem deferredIn_push (deferred : List (Int × Bool)) (season : ProcessableSeason)
    (existing : SeasonRow) :
    deferredIn fourK (if deferredOf deferResets season existing false
          || deferredOf deferResets season existing true then
        deferred ++ [(season.seasonNumber, deferredOf deferResets season existing true)]
      else deferred)
      = deferredIn fourK deferred
        ++ if deferredOf deferResets season existing fourK then [season.seasonNumber] else [] := by
  have hone : deferredOf deferResets season existing false = true →
      deferredOf deferResets season existing true = false := by
    unfold deferredOf
    cases season.is4kOverride <;> simp
  cases hstandard : deferredOf deferResets season existing false with
  | true =>
    rw [hone hstandard, Bool.true_or, if_pos rfl]
    cases fourK
    · rw [hstandard]
      simp [deferredIn]
    · rw [hone hstandard]
      simp [deferredIn]
  | false =>
    cases h4k : deferredOf deferResets season existing true with
    | true => cases fourK <;> simp [deferredIn, hstandard, h4k]
    | false => cases fourK <;> simp [hstandard, h4k]

/-- The seasons a round defers in a quality. -/
theorem deferredIn_scanSeason (scan : ShowScan) (season : ProcessableSeason) :
    deferredIn fourK (scanSeason loaded o enable4k deferResets scan season).deferredSeasons
      = deferredIn fourK scan.deferredSeasons
        ++ match lookup SeasonRow.seasonNumber season.seasonNumber
            (scan.media.seasons.take loaded) with
          | some existing =>
            if deferredOf deferResets season existing fourK then [season.seasonNumber] else []
          | none => [] := by
  have hclaimed : (claimKeys scan.media o season enable4k).seasons = scan.media.seasons := rfl
  unfold scanSeason
  dsimp only
  rw [hclaimed]
  cases lookup SeasonRow.seasonNumber season.seasonNumber (scan.media.seasons.take loaded) with
  | some existing => exact deferredIn_push scan.deferredSeasons season existing
  | none => exact (List.append_nil _).symm

theorem lookup_seen (number : Int) (seasons : List SeasonRow) :
    lookup Prod.fst number (seasons.map (SeasonRow.seen fourK))
      = (lookup SeasonRow.seasonNumber number seasons).map (SeasonRow.seen fourK) :=
  lookup_map (fun _ => rfl) number seasons

/-- A change of the first season of a number, as far as a quality shows. -/
theorem map_seen_modifyFirst {number : Int} {f f' : SeasonRow → SeasonRow}
    (hf : ∀ s s' : SeasonRow, s.seen fourK = s'.seen fourK → (f s).seen fourK = (f' s').seen fourK)
    {seasons seasons' : List SeasonRow}
    (h : seasons.map (SeasonRow.seen fourK) = seasons'.map (SeasonRow.seen fourK)) :
    (modifyFirst SeasonRow.seasonNumber number f seasons).map (SeasonRow.seen fourK)
      = (modifyFirst SeasonRow.seasonNumber number f' seasons').map (SeasonRow.seen fourK) := by
  induction seasons generalizing seasons' with
  | nil =>
    cases seasons' with
    | nil => rfl
    | cons s' seasons' => cases h
  | cons s seasons ih =>
    cases seasons' with
    | nil => cases h
    | cons s' seasons' =>
      rw [List.map_cons, List.map_cons] at h
      obtain ⟨hs, hrest⟩ := List.cons.inj h
      have hnumber : s.seasonNumber = s'.seasonNumber := congrArg Prod.fst hs
      unfold modifyFirst
      rw [hnumber]
      split
      · rw [List.map_cons, List.map_cons, hf s s' hs, hrest]
      · rw [List.map_cons, List.map_cons, hs, ih hrest]

/-- **A round keeps two loops alike.** -/
theorem ScansAlike.scanSeason (h : ScansAlike fourK scan scan')
    (hseason : Alike fourK season season')
    (henabled : enabledOf enable4k fourK = enabledOf enable4k' fourK) :
    ScansAlike fourK (scanSeason loaded o enable4k deferResets scan season)
      (scanSeason loaded o enable4k' deferResets scan' season') := by
  have hfound : (lookup SeasonRow.seasonNumber season.seasonNumber
        (scan.media.seasons.take loaded)).map (SeasonRow.seen fourK)
      = (lookup SeasonRow.seasonNumber season'.seasonNumber
        (scan'.media.seasons.take loaded)).map (SeasonRow.seen fourK) := by
    rw [← lookup_seen, ← lookup_seen, List.map_take, List.map_take, h.seasons,
      hseason.seasonNumber]
  cases hexisting : lookup SeasonRow.seasonNumber season.seasonNumber
      (scan.media.seasons.take loaded) with
  | some existing =>
    cases hexisting' : lookup SeasonRow.seasonNumber season'.seasonNumber
        (scan'.media.seasons.take loaded) with
    | none =>
      rw [hexisting, hexisting'] at hfound
      cases hfound
    | some existing' =>
      rw [hexisting, hexisting'] at hfound
      have hstatus : existing.statusOf fourK = existing'.statusOf fourK :=
        congrArg Prod.snd (Option.some.inj hfound)
      constructor
      · rw [(scanSeason_found hexisting).1, (scanSeason_found hexisting').1, hseason.seasonNumber]
        exact map_seen_modifyFirst (fun s s' hs => hseason.rescan hs henabled) h.seasons
      · rw [deferredIn_scanSeason, deferredIn_scanSeason, h.deferred, hexisting, hexisting']
        dsimp only
        rw [hseason.deferredOf hstatus, hseason.seasonNumber]
  | none =>
    cases hexisting' : lookup SeasonRow.seasonNumber season'.seasonNumber
        (scan'.media.seasons.take loaded) with
    | some existing' =>
      rw [hexisting, hexisting'] at hfound
      cases hfound
    | none =>
      constructor
      · rw [(scanSeason_lacked hexisting).1, (scanSeason_lacked hexisting').1, List.map_append,
          List.map_append, h.seasons, List.map_singleton, List.map_singleton,
          hseason.newSeason _ _ henabled]
      · rw [deferredIn_scanSeason, deferredIn_scanSeason, h.deferred, hexisting, hexisting']

/-- The whole loop does. -/
theorem ScansAlike.foldl (h : ScansAlike fourK scan scan')
    {scanned scanned' : List ProcessableSeason}
    (hscanned : scanned.map (ProcessableSeason.hide (!fourK))
      = scanned'.map (ProcessableSeason.hide (!fourK)))
    (henabled : enabledOf enable4k fourK = enabledOf enable4k' fourK) :
    ScansAlike fourK (scanned.foldl (Foreseerr.scanSeason loaded o enable4k deferResets) scan)
      (scanned'.foldl (Foreseerr.scanSeason loaded o enable4k' deferResets) scan') := by
  induction scanned generalizing scanned' scan scan' with
  | nil =>
    cases scanned' with
    | nil => exact h
    | cons season' scanned' => cases hscanned
  | cons season scanned ih =>
    cases scanned' with
    | nil => cases hscanned
    | cons season' scanned' =>
      rw [List.map_cons, List.map_cons] at hscanned
      obtain ⟨hseason, hrest⟩ := List.cons.inj hscanned
      exact ih (h.scanSeason (alike_of_hide hseason) henabled) hrest

end Loop

/-! ## The title -/

section Title

variable {fourK deferResets enable4k enable4k' : Bool} {seasons seasons' : List SeasonRow}
  {scanned scanned' : List ProcessableSeason}

/-- Of the scanned seasons the roll-up reads the numbers and the totals. -/
theorem totalEpisodes_eq_of_hide (h : scanned.map (ProcessableSeason.hide (!fourK))
      = scanned'.map (ProcessableSeason.hide (!fourK))) (number : Int) :
    (lookup ProcessableSeason.seasonNumber number scanned).map (·.totalEpisodes)
      = (lookup ProcessableSeason.seasonNumber number scanned').map (·.totalEpisodes) := by
  have hnumber : ∀ season : ProcessableSeason,
      (season.hide (!fourK)).seasonNumber = season.seasonNumber := by
    intro season
    cases fourK <;> rfl
  have htotal : (fun season : ProcessableSeason => season.totalEpisodes)
      = (·.totalEpisodes) ∘ ProcessableSeason.hide (!fourK) := by
    funext season
    cases fourK <;> rfl
  rw [htotal, ← Option.map_map, ← Option.map_map, ← lookup_map hnumber, ← lookup_map hnumber, h]

/-- Whether the roll-up to available looks at a season: one the scan lists by its
total, another by its status. -/
def looksAt (total : Option Int) (status : Int) : Bool :=
  match total with
  | none => status ≠ MediaStatus.unknown
  | some total => total > 0

/-- The seasons the roll-up to available looks at, as a quality shows them. -/
theorem map_seen_rollupSeasons (seasons : List SeasonRow) (scanned : List ProcessableSeason) :
    (rollupSeasons seasons scanned fourK).map (SeasonRow.seen fourK)
      = ((seasons.map (SeasonRow.seen fourK)).filter (·.1 ≠ 0)).filter fun x =>
          looksAt ((lookup ProcessableSeason.seasonNumber x.1 scanned).map (·.totalEpisodes))
            x.2 := by
  unfold rollupSeasons
  rw [List.filter_map, List.filter_map]
  congr 1
  refine List.filter_congr fun s _ => ?_
  show _ = looksAt ((lookup _ s.seasonNumber scanned).map _) (s.statusOf fourK)
  cases lookup ProcessableSeason.seasonNumber s.seasonNumber scanned <;> rfl

/-- **The roll-up of a quality reads what it shows.** -/
theorem rollupShowStatus_eq_of_seen
    (hseasons : seasons.map (SeasonRow.seen fourK) = seasons'.map (SeasonRow.seen fourK))
    (hscanned : scanned.map (ProcessableSeason.hide (!fourK))
      = scanned'.map (ProcessableSeason.hide (!fourK))) (previous : Option Int) (enabled : Bool) :
    rollupShowStatus seasons scanned fourK previous enabled
      = rollupShowStatus seasons' scanned' fourK previous enabled := by
  have hempty : scanned.isEmpty = scanned'.isEmpty := by
    have hlength := congrArg List.isEmpty hscanned
    rwa [List.isEmpty_map, List.isEmpty_map] at hlength
  have hany : ∀ p : Int → Bool, (seasons.any fun s => p (s.statusOf fourK))
      = seasons'.any fun s => p (s.statusOf fourK) := by
    intro p
    have hmap := congrArg (List.any · fun x => p x.2) hseasons
    rw [List.any_map, List.any_map] at hmap
    exact hmap
  have hrollup : (rollupSeasons seasons scanned fourK).map (SeasonRow.seen fourK)
      = (rollupSeasons seasons' scanned' fourK).map (SeasonRow.seen fourK) := by
    rw [map_seen_rollupSeasons, map_seen_rollupSeasons, hseasons]
    simp only [totalEpisodes_eq_of_hide hscanned]
  have havailable : allAvailable (rollupSeasons seasons scanned fourK) fourK
      = allAvailable (rollupSeasons seasons' scanned' fourK) fourK := by
    have hall := congrArg (fun l => !l.isEmpty && l.all fun x => x.2 = MediaStatus.available)
      hrollup
    rw [List.isEmpty_map, List.isEmpty_map, List.all_map, List.all_map] at hall
    exact hall
  show (if enabled && allAvailable (rollupSeasons seasons scanned fourK) fourK then _ else
    if _ then _ else if _ then _ else _) = _
  rw [havailable, hempty, hany fun status =>
    status = MediaStatus.partially || status = MediaStatus.available,
    hany fun status => status = MediaStatus.processing]
  rfl

theorem contains_qualities (p q : Prop) [Decidable p] [Decidable q] :
    ((if p then [false] else []) ++ if q then [true] else []).contains fourK
      = decide (if fourK then q else p) := by
  by_cases hp : p <;> by_cases hq : q <;> cases fourK <;> simp [hp, hq]

/-- Whether an update resets a title's status in a quality. -/
theorem contains_statusResets (media : MediaRow) (scanned : List ProcessableSeason) (o : ShowOpts)
    (nowMs : Int) :
    (applyShow media scanned o enable4k nowMs deferResets).statusResets.contains fourK
      = decide (deferResets ∧ media.statusOf fourK = MediaStatus.processing
        ∧ (applyShow media scanned o enable4k nowMs deferResets).after.statusOf fourK
          = MediaStatus.unknown) := by
  have hlist : (applyShow media scanned o enable4k nowMs deferResets).statusResets
      = (if deferResets ∧ media.statusOf false = MediaStatus.processing
            ∧ (applyShow media scanned o enable4k nowMs deferResets).after.statusOf false
              = MediaStatus.unknown then [false] else [])
        ++ (if deferResets ∧ media.statusOf true = MediaStatus.processing
            ∧ (applyShow media scanned o enable4k nowMs deferResets).after.statusOf true
              = MediaStatus.unknown then [true] else []) := rfl
  rw [hlist, contains_qualities]
  cases fourK <;> rfl

/-- **The two qualities of a show are scanned independently**: shows and scans
that agree on everything but the other quality's columns come out alike in
this one. Whether 4K is enabled matters to 4K alone. -/
theorem quality_applyShow_eq {media media' : MediaRow} {scanned scanned' : List ProcessableSeason}
    (hmedia : media.hide (!fourK) = media'.hide (!fourK))
    (hscanned : scanned.map (ProcessableSeason.hide (!fourK))
      = scanned'.map (ProcessableSeason.hide (!fourK)))
    (henabled : fourK = true → enable4k = enable4k') (o : ShowOpts) (nowMs : Int) :
    (applyShow media scanned o enable4k nowMs deferResets).quality fourK
      = (applyShow media' scanned' o enable4k' nowMs deferResets).quality fourK := by
  have henabledOf : enabledOf enable4k fourK = enabledOf enable4k' fourK := by
    cases fourK with
    | false => rfl
    | true => rw [henabled rfl]
  have hseen : media.seasons.map (SeasonRow.seen fourK)
      = media'.seasons.map (SeasonRow.seen fourK) :=
    seen_eq_of_hide (congrArg MediaRow.seasons hmedia)
  have hbefore : media.statusOf fourK = media'.statusOf fourK := by
    have hstatus := congrArg (MediaRow.statusOf · fourK) hmedia
    cases fourK <;> exact hstatus
  have hlength : media.seasons.length = media'.seasons.length := by
    simpa only [List.length_map] using congrArg List.length hseen
  have halike : ScansAlike fourK
      (scanned.foldl (scanSeason media.seasons.length o enable4k deferResets) { media := media })
      (scanned'.foldl (scanSeason media.seasons.length o enable4k' deferResets)
        { media := media' }) := by
    have hstart : ScansAlike fourK { media := media } { media := media' } := ⟨hseen, rfl⟩
    exact hstart.foldl hscanned henabledOf
  have hseasons : (applyShow media scanned o enable4k nowMs deferResets).after.seasons.map
        (SeasonRow.seen fourK)
      = (applyShow media' scanned' o enable4k' nowMs deferResets).after.seasons.map
        (SeasonRow.seen fourK) := by
    rw [(applyShow_loop media scanned o nowMs).1, (applyShow_loop media' scanned' o nowMs).1,
      ← hlength]
    exact halike.seasons
  have hafter : (applyShow media scanned o enable4k nowMs deferResets).after.statusOf fourK
      = (applyShow media' scanned' o enable4k' nowMs deferResets).after.statusOf fourK := by
    rw [statusOf_applyShow_eq, statusOf_applyShow_eq, hbefore, henabledOf]
    exact rollupShowStatus_eq_of_seen hseasons hscanned _ _
  have hdeferred : deferredIn fourK
        (applyShow media scanned o enable4k nowMs deferResets).deferredSeasons
      = deferredIn fourK
        (applyShow media' scanned' o enable4k' nowMs deferResets).deferredSeasons := by
    show deferredIn fourK (scanned.foldl (scanSeason media.seasons.length o enable4k deferResets)
          { media := media }).deferredSeasons
      = deferredIn fourK (scanned'.foldl
          (scanSeason media'.seasons.length o enable4k' deferResets)
          { media := media' }).deferredSeasons
    rw [← hlength]
    exact halike.deferred
  unfold ShowUpdate.quality
  rw [hafter, contains_statusResets, contains_statusResets, hafter, hbefore]
  congr 1

end Title

/-- Two runs of the airing show: the second has its seasons in 4K too, a scan
that lists 4K episodes, and 4K enabled. The standard quality is the same. -/
theorem quality_airing :
    let airing4k : MediaRow := { airingShow with
      status4k := MediaStatus.available
      seasons := airingShow.seasons.map fun s => { s with status4k := MediaStatus.available } }
    let scanned (uhd : Int) : List ProcessableSeason :=
      [{ seasonNumber := 1, totalEpisodes := 8, episodes4k := uhd },
        { seasonNumber := 3, totalEpisodes := 2, episodes := 2 }]
    (applyShow airingShow (scanned 0) {} false 0 true).quality false
        = (applyShow airing4k (scanned 4) {} true 0 true).quality false
      ∧ ((applyShow airingShow (scanned 0) {} false 0 true).quality false).deferred = [1] := by
  intro airing4k scanned
  refine ⟨?_, by decide⟩
  exact quality_applyShow_eq (by decide) (by decide) (fun h => absurd h Bool.false_ne_true) {} 0

end Foreseerr

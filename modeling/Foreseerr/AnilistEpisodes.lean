import Foreseerr.AnilistSync
import Foreseerr.EpisodeRanges
import Mathlib.Data.Rat.Floor
import Mathlib.Tactic.Linarith

/-!
# Episodes as an AniList entry's progress

`mediaactions/anilistepisodes.rs`. AniList keeps one number for an entry, how far
it is watched. Writing an episode places it on an entry, by the season's rules,
else by the season entries, and moves the number; reading goes through the
episodes of a season and asks which of them the numbers of its entries cover.

The two place an episode in the same way only as long as they take the same
branch. Writing falls back from the rules episode by episode, reading season by
season; an episode past the end of an entry is written by its number in the
season, and read so only where the whole season lies past it; and reading takes
every entry of the season as running on. `Agrees` says where that leaves the two
at one.
-/

namespace Foreseerr.AnilistEpisodes

/-! ## Numbers of an entry -/

/-- `TmdbSeasonCount`. -/
structure SeasonCount where
  season : Int
  episodes : Int
deriving DecidableEq, Repr

/-- How many episodes the seasons before one have. -/
def priorEpisodes (seasons : List SeasonCount) (season : Int) : Int :=
  ((seasons.filter fun s => 0 < s.season && s.season < season).map (·.episodes)).sum

/-- The season of a number. -/
def findSeason (seasons : List SeasonCount) (season : Int) : Option SeasonCount :=
  seasons.find? fun s => s.season == season

/-- `absoluteEpisodeNumber`. -/
def absoluteEpisode (seasons : List SeasonCount) (season episode : Int) : Option Int :=
  if season < 1 ∨ episode < 1 then none
  else (findSeason seasons season).map fun _ => priorEpisodes seasons season + episode

/-- `cap`: a positive episode count. -/
def cap (count : Option ℚ) : Option ℚ := count.filter (0 < ·)

/-- `anilistProgressForEpisode`. -/
def progressForEpisode (absolute : Int) (count : Option ℚ) (seasonEpisode : Int) : Option Int :=
  if absolute < 1 then none
  else match cap count with
    | none => some absolute
    | some cap =>
      if (absolute : ℚ) ≤ cap then some absolute
      else if 1 ≤ seasonEpisode ∧ (seasonEpisode : ℚ) ≤ cap then some seasonEpisode
      else none

/-- `1..=count`. -/
def firstN (count : ℚ) : List ℚ := (List.range ⌊count⌋.toNat).map fun n : Nat => (n : ℚ) + 1

/-- `watchedEpisodeNumbersForSeason`. -/
def watchedForSeason (seasons : List SeasonCount) (season : Int) (progress : ℚ)
    (count : Option ℚ) : List ℚ :=
  if season < 1 ∨ progress ≤ 0 then []
  else match findSeason seasons season with
    | none => []
    | some found =>
      if found.episodes < 1 then []
      else match absoluteEpisode seasons season 1 with
        | none => []
        | some first =>
          match (cap count).filter fun cap => cap < (first : ℚ) with
          | some cap => firstN (max (min (min progress found.episodes) cap) 0)
          | none =>
            let last := min progress ((first : ℚ) + found.episodes - 1)
            if last < first then [] else firstN (last - first + 1)

/-- `nextAnilistProgress`. -/
def nextProgress (current target : ℚ) (watched : Bool) : Option ℚ :=
  if target < 1 then none
  else if watched then if current < target then some target else none
  else if |current - target| < 1 / 2 ^ 52 then some (target - 1) else none

/-- `watchedEpisodesFromProgress`. -/
def watchedFromProgress (progress seasonEpisodes offset : ℚ) : List ℚ :=
  let first := max (offset + 1) 1
  let last := min seasonEpisodes (progress + offset)
  if last < first then [] else (firstN (last - first + 1)).map fun i => first + i - 1

/-! ## Season entries -/

/-- `AnilistSeasonMapping`. -/
structure SeasonMapping where
  anilistId : Int
  special : Bool := false
  seasonTmdb : Option Int := none
  seasonTvdb : Option Int := none
  offsetTmdb : Int := 0
  offsetTvdb : Int := 0
deriving DecidableEq, Repr

/-- Which catalogue's seasons are meant. -/
inductive Catalog
  | tmdb
  | tvdb
deriving DecidableEq, Repr

/-- Episode numbers within the season, or one entry across every season. -/
inductive Mode
  | inSeason
  | absolute
deriving DecidableEq, Repr

/-- `offsetForCatalog`. -/
def SeasonMapping.offset (m : SeasonMapping) : Catalog → Int
  | .tmdb => m.offsetTmdb
  | .tvdb => m.offsetTvdb

/-- The season an entry sits in on a catalogue. -/
def SeasonMapping.season (m : SeasonMapping) : Catalog → Option Int
  | .tmdb => m.seasonTmdb
  | .tvdb => m.seasonTvdb

/-- What `fribbSeasonCandidates` answers. -/
structure Candidates where
  catalog : Catalog
  mode : Mode
  entries : List SeasonMapping
deriving DecidableEq, Repr

/-- The entries of a season on a catalogue. -/
def hits (series : List SeasonMapping) (season : Int) (catalog : Catalog) : List SeasonMapping :=
  series.filter fun m => m.season catalog == some season

/-- How many seasons of a catalogue there are entries in. -/
def distinctSeasons (series : List SeasonMapping) (catalog : Catalog) : Nat :=
  ((series.filterMap (·.season catalog)).filter (0 < ·)).dedup.length

/-- `fribbSeasonCandidates`. -/
def seasonCandidates (entries : List SeasonMapping) (season : Int) : Candidates :=
  let series := entries.filter fun m => !m.special && 0 < m.anilistId
  if season < 1 ∨ series = [] then ⟨.tmdb, .inSeason, []⟩
  else if series.length = 1 then ⟨.tmdb, .absolute, series⟩
  else if distinctSeasons series .tmdb ≤ 1 ∧ 1 < distinctSeasons series .tvdb then
    ⟨.tvdb, .inSeason, hits series season .tvdb⟩
  else if hits series season .tmdb ≠ [] then ⟨.tmdb, .inSeason, hits series season .tmdb⟩
  else ⟨.tvdb, .inSeason, hits series season .tvdb⟩

/-- The order of the entries of a season: by offset, then by id. -/
def entryLE (catalog : Catalog) (a b : SeasonMapping) : Bool :=
  a.offset catalog < b.offset catalog ||
    (a.offset catalog == b.offset catalog && a.anilistId ≤ b.anilistId)

/-- The entry whose offset window has an episode. -/
def windowEntry (catalog : Catalog) (episode : Int) : List SeasonMapping → Option SeasonMapping
  | [] => none
  | entry :: rest =>
    if entry.offset catalog + 1 ≤ episode ∧
        (rest.head?.all fun next => decide (episode ≤ next.offset catalog)) then some entry
    else windowEntry catalog episode rest

/-- `pickFribbSeasonEntry`: the entry of an episode, its progress there and the mode. -/
def pickSeasonEntry (entries : List SeasonMapping) (season episode : Int) :
    Option (SeasonMapping × Int × Mode) :=
  if episode < 1 then none
  else
    let candidates := seasonCandidates entries season
    match candidates.mode with
    | .absolute => candidates.entries.head?.map fun first => (first, episode, .absolute)
    | .inSeason =>
      let sorted := candidates.entries.mergeSort (entryLE candidates.catalog)
      let picked := if sorted.length = 1 then sorted.head?
        else windowEntry candidates.catalog episode sorted
      picked.bind fun picked =>
        let progress := episode - picked.offset candidates.catalog
        if 1 ≤ progress then some (picked, progress, .inSeason) else none

/-! ## Reading and writing a season -/

/-- What a show's episodes are placed by: the stored edges, its season entries and TMDB's
seasons. -/
structure Show where
  stored : List Edge
  tmdbId : Int
  entries : List SeasonMapping
  seasons : List SeasonCount

namespace Show

variable (tvShow : Show)

/-- A season of the show. -/
def ref (season : Int) : IdRef := ⟨"tmdb_show", toString tvShow.tmdbId, some season⟩

/-- `progressFromRules`: the AniList id and progress of an episode. -/
def progressFromRules (season episode : Int) : Option (Int × Int) :=
  match translateBridged tvShow.stored (tvShow.ref season) episode "anilist" ["anidb", "mal"] with
  | none => none
  | some translated =>
    match numberOfStr translated.target.id.toList with
    | none => none
    | some id =>
      if id ≤ 0 ∨ translated.episode < 1 then none
      else (intOf id).map fun id => (id, translated.episode)

/-- `hasEpisodeRules`. -/
def hasEpisodeRules (season : Int) : Bool :=
  ["anilist", "anidb", "mal"].any fun ns =>
    !(episodeRules tvShow.stored (tvShow.ref season) ns).isEmpty

end Show

/-- The progress of an entry, a number as AniList sends it; 0 without one. -/
def progressOf (entry : Option AnilistEntry) : ℚ :=
  ((entry.bind (·.progress)).getD (some 0)).getD 0

/-- The episode count of an entry. -/
def countOf (entry : Option AnilistEntry) : Option ℚ := (entry.bind (·.episodeCount)).join

/-- The episodes of a season an entry shows in its offset window's catalogue. -/
def shownBy (snapshot : AnilistSnapshot) (catalog : Catalog) (count : Option ℚ)
    (m : SeasonMapping) : List ℚ :=
  let progress := progressOf (lookupAnilistId snapshot m.anilistId)
  if progress ≤ 0 then []
  else watchedFromProgress progress (count.getD progress) (m.offset catalog)

/-- `getSeasonStatus`: whether there is one, and the watched episodes. -/
def seasonStatus (tvShow : Show) (snapshot : AnilistSnapshot) (season : Int) : Bool × List ℚ :=
  if tvShow.hasEpisodeRules season then
    let count := ((findSeason tvShow.seasons season).map (·.episodes)).getD 0
    let episodes := (List.range count.toNat).map fun n : Nat => (n : Int) + 1
    (true, (episodes.filter fun episode =>
      (tvShow.progressFromRules season episode).any fun (anilistId, progress) =>
        decide ((progress : ℚ) ≤ progressOf (lookupAnilistId snapshot anilistId))).map (Int.cast))
  else
    let candidates := seasonCandidates tvShow.entries season
    match candidates.entries with
    | [] => (false, [])
    | mapping :: _ =>
      match candidates.mode with
      | .absolute =>
        let entry := lookupAnilistId snapshot mapping.anilistId
        (true, if progressOf entry ≤ 0 then []
          else watchedForSeason tvShow.seasons season (progressOf entry) (countOf entry))
      | .inSeason =>
        let count := (findSeason tvShow.seasons season).map fun s => (s.episodes : ℚ)
        (true, (candidates.entries.flatMap
          (shownBy snapshot candidates.catalog count)).dedup.mergeSort)

/-- `EpisodeWrite`. -/
inductive EpisodeWrite
  | done (ok : Bool)
  | skipped
deriving DecidableEq, Repr

/-- AniList: the episodes it has for an id, where it says, and the id of the list entry a
save leaves. -/
structure Anilist where
  episodes : Int → Option ℚ
  savedId : Int

/-- The status a progress gives an entry. -/
def statusOf (next : ℚ) (completed : Bool) : String :=
  if next ≤ 0 then "PLANNING" else if completed then "COMPLETED" else "CURRENT"

/-- `writeProgress`: the answer and the snapshot with its patch. -/
def writeProgress (tvShow : Show) (anilist : Anilist) (snapshot : AnilistSnapshot) (anilistId : Int)
    (count : Option ℚ) (target : Int) (watched : Bool) : EpisodeWrite × AnilistSnapshot :=
  let current := lookupAnilistId snapshot anilistId
  match nextProgress (progressOf current) target watched with
  | none => (if watched then .done true else .skipped, snapshot)
  | some next =>
    let entryId := current.bind (·.listEntryId)
    if next ≤ 0 ∧ entryId.all (· = 0) then (.skipped, snapshot)
    else
      let completed := count.any fun c => decide (0 < c ∧ c ≤ next)
      let update : AnilistPatch :=
        { watched := some completed
          status := some (some (statusOf next completed))
          progress := some (some (max next 0))
          episodeCount := some count
          anilistId := some anilistId
          listEntryId := some ((some anilist.savedId).or entryId) }
      (.done true, { snapshot with
        entries := applyAnilistPatch snapshot.entries ⟨.tv, tvShow.tmdbId, update⟩ })

/-- The entry `setWatched` places an episode on, its progress there and the mode. -/
def placeOf (tvShow : Show) (season episode : Int) : Option (Int × Int × Mode) :=
  match tvShow.progressFromRules season episode with
  | some (anilistId, progress) => some (anilistId, progress, .inSeason)
  | none => (pickSeasonEntry tvShow.entries season episode).map fun (m, progress, mode) =>
      (m.anilistId, progress, mode)

/-- The progress `setWatched` writes for a place, unless the entry has no such episode. -/
def targetOf (seasons : List SeasonCount) (season episode : Int) (progress : Int) (mode : Mode)
    (count : Option ℚ) : Option Int :=
  match mode with
  | .absolute =>
    (absoluteEpisode seasons season episode).bind fun absolute =>
      progressForEpisode absolute count episode
  | .inSeason =>
    if count.any fun c => decide (0 < c ∧ c < (progress : ℚ)) then none else some progress

/-- The episode count `setWatched` goes by: the entry's, or else AniList's. -/
def knownCount (anilist : Anilist) (snapshot : AnilistSnapshot) (anilistId : Int) : Option ℚ :=
  (countOf (lookupAnilistId snapshot anilistId)).or (anilist.episodes anilistId)

/-- `setWatched`. -/
def setWatched (tvShow : Show) (anilist : Anilist) (snapshot : AnilistSnapshot)
    (season episode : Int) (watched : Bool) : EpisodeWrite × AnilistSnapshot :=
  if season < 1 ∨ episode < 1 then (.skipped, snapshot)
  else match placeOf tvShow season episode with
    | none => (.skipped, snapshot)
    | some (anilistId, progress, mode) =>
      let count := knownCount anilist snapshot anilistId
      match targetOf tvShow.seasons season episode progress mode count with
      | none => (.skipped, snapshot)
      | some target => writeProgress tvShow anilist snapshot anilistId count target watched

/-! ## What is listed -/

theorem mem_firstN {episode : Int} {count : ℚ} :
    (episode : ℚ) ∈ firstN count ↔ 1 ≤ episode ∧ (episode : ℚ) ≤ count := by
  simp only [firstN, List.mem_map, List.mem_range, ← Int.le_floor]
  constructor
  · rintro ⟨n, hn, heq⟩
    have heq' : episode = (n : Int) + 1 := by exact_mod_cast heq.symm
    omega
  · rintro ⟨hone, hle⟩
    refine ⟨(episode - 1).toNat, by omega, ?_⟩
    have hcast : (((episode - 1).toNat : Int) : ℚ) = ((episode - 1 : Int) : ℚ) := by
      rw [Int.toNat_of_nonneg (by omega)]
    push_cast at hcast ⊢
    linarith

/-- The episodes of a season a progress shows over an offset. -/
theorem mem_watchedFromProgress {episode offset : Int} {progress count : ℚ} :
    (episode : ℚ) ∈ watchedFromProgress progress count offset ↔
      (offset + 1 ≤ episode ∧ 1 ≤ episode) ∧
        (episode : ℚ) ≤ count ∧ (episode : ℚ) ≤ progress + offset := by
  have hfirst : max ((offset : ℚ) + 1) 1 = ((max (offset + 1) 1 : Int) : ℚ) := by push_cast; rfl
  have hshift : ∀ i : ℚ, max ((offset : ℚ) + 1) 1 + i - 1 = episode ↔
      i = ((episode - max (offset + 1) 1 + 1 : Int) : ℚ) := by
    intro i
    rw [hfirst]
    push_cast
    constructor <;> intro h <;> linarith
  have hmem : (episode : ℚ) ∈ (firstN (min count (progress + offset) - max ((offset : ℚ) + 1) 1
      + 1)).map (fun i => max ((offset : ℚ) + 1) 1 + i - 1) ↔
        max (offset + 1) 1 ≤ episode ∧ (episode : ℚ) ≤ min count (progress + offset) := by
    rw [List.mem_map]
    simp only [hshift, exists_eq_right, mem_firstN]
    rw [hfirst]
    push_cast
    refine and_congr ⟨fun h => by omega, fun h => by omega⟩ ?_
    constructor <;> intro h <;> linarith
  unfold watchedFromProgress
  dsimp only
  rw [le_min_iff.symm, ← max_le_iff]
  split
  case isTrue hlt =>
    refine ⟨fun h => absurd h List.not_mem_nil, fun ⟨hstart, hend⟩ => ?_⟩
    have hle : max ((offset : ℚ) + 1) 1 ≤ episode := by
      rw [hfirst]
      exact_mod_cast hstart
    exact absurd (hle.trans hend) (not_le.2 hlt)
  case isFalse => exact hmem

/-- TMDB's seasons have an episode each, at least. -/
def Episodic (seasons : List SeasonCount) : Prop := ∀ s ∈ seasons, 1 ≤ s.episodes

/-- An episode of a season. -/
def HasEpisode (seasons : List SeasonCount) (season episode : Int) : Prop :=
  1 ≤ season ∧ 1 ≤ episode ∧ ∃ s, findSeason seasons season = some s ∧ episode ≤ s.episodes

section Absolute

variable {seasons : List SeasonCount} {season episode : Int} {progress : ℚ} {count : Option ℚ}

theorem priorEpisodes_nonneg (h : Episodic seasons) (season : Int) : 0 ≤ priorEpisodes seasons season := by
  refine List.sum_nonneg fun n hn => ?_
  obtain ⟨s, hs, rfl⟩ := List.mem_map.1 hn
  exact (h s (List.mem_of_mem_filter hs)).trans' (by norm_num)

theorem absoluteEpisode_eq (h : HasEpisode seasons season episode) :
    absoluteEpisode seasons season episode = some (priorEpisodes seasons season + episode) := by
  obtain ⟨hseason, hepisode, s, hs, -⟩ := h
  rw [absoluteEpisode, if_neg (by omega), hs]
  rfl

/-- What the absolute numbers show of a season that starts after some episodes. -/
theorem mem_absolutePart {prior episodes : Int} (hepisode : 1 ≤ episode)
    (hle : episode ≤ episodes) :
    (episode : ℚ) ∈ (
        let last := min progress (((prior + 1 : Int) : ℚ) + episodes - 1)
        if last < ((prior + 1 : Int) : ℚ) then []
        else firstN (last - ((prior + 1 : Int) : ℚ) + 1)) ↔
      ((prior + episode : Int) : ℚ) ≤ progress := by
  have hepisode' : (1 : ℚ) ≤ episode := by exact_mod_cast hepisode
  have hle' : (episode : ℚ) ≤ episodes := by exact_mod_cast hle
  dsimp only
  split
  case isTrue hlast =>
    refine iff_of_false List.not_mem_nil fun hlisted => ?_
    push_cast at hlast hlisted
    rcases min_lt_iff.1 hlast with hlt | hlt <;> linarith
  case isFalse =>
    rw [mem_firstN]
    push_cast
    rw [← sub_le_iff_le_add, le_sub_iff_add_le, le_min_iff]
    constructor
    · rintro ⟨-, hbelow, -⟩
      linarith
    · intro hbelow
      exact ⟨hepisode, by linarith, by linarith⟩

/-- **What the progress of one entry across the seasons shows of a season**: where the season
starts past the end of the entry, by the numbers in the season, and else by the absolute ones. -/
theorem mem_watchedForSeason (h : HasEpisode seasons season episode)
    (hprior : 0 ≤ priorEpisodes seasons season) :
    (episode : ℚ) ∈ watchedForSeason seasons season progress count ↔
      if (cap count).any fun cap =>
          decide (cap < ((priorEpisodes seasons season + 1 : Int) : ℚ)) then
        (episode : ℚ) ≤ progress ∧ ∀ c ∈ cap count, (episode : ℚ) ≤ c
      else ((priorEpisodes seasons season + episode : Int) : ℚ) ≤ progress := by
  have hfirst := h
  obtain ⟨hseason, hepisode, s, hs, hle⟩ := h
  have hepisode' : (1 : ℚ) ≤ episode := by exact_mod_cast hepisode
  have hle' : (episode : ℚ) ≤ s.episodes := by exact_mod_cast hle
  have hprior' : (0 : ℚ) ≤ priorEpisodes seasons season := by exact_mod_cast hprior
  have hone : absoluteEpisode seasons season 1 = some (priorEpisodes seasons season + 1) :=
    absoluteEpisode_eq ⟨hseason, le_rfl, s, hs, hepisode.trans hle⟩
  unfold watchedForSeason
  by_cases hprogress : progress ≤ 0
  · rw [if_pos (.inr hprogress)]
    refine iff_of_false List.not_mem_nil fun hlisted => ?_
    split at hlisted
    · linarith [hlisted.1]
    · push_cast at hlisted
      linarith
  · rw [if_neg (by rw [not_or]; exact ⟨by omega, hprogress⟩), hs]
    dsimp only
    rw [if_neg (by omega), hone]
    dsimp only
    cases hcap : cap count with
    | none =>
      simp only [Option.filter_none, Option.any_none, Bool.false_eq_true, if_false]
      exact mem_absolutePart hepisode hle
    | some c =>
      have hpos : 0 < c := by simpa using (Option.filter_eq_some_iff.1 hcap).2
      by_cases hpast : c < ((priorEpisodes seasons season + 1 : Int) : ℚ)
      · rw [Option.filter_some_pos (by simpa using hpast), Option.any_some, decide_eq_true hpast,
          if_pos rfl, mem_firstN]
        simp only [Option.mem_some_iff, forall_eq', le_max_iff, le_min_iff]
        constructor
        · rintro ⟨-, ⟨⟨hbelow, -⟩, hcapped⟩ | hzero⟩
          · exact ⟨hbelow, hcapped⟩
          · linarith
        · rintro ⟨hbelow, hcapped⟩
          exact ⟨hepisode, .inl ⟨⟨hbelow, hle'⟩, hcapped⟩⟩
      · rw [Option.filter_some_neg (by simpa using hpast), Option.any_some,
          decide_eq_false hpast, if_neg Bool.false_ne_true]
        exact mem_absolutePart hepisode hle

end Absolute

/-! ## What a write leaves -/

section Write

variable {snapshot : AnilistSnapshot} {anilistId other : Int} {p : AnilistPending}

theorem lookupAnilistId_eq : lookupAnilistId snapshot anilistId
    = (entriesOf anilistId snapshot.entries).head? := by
  rw [lookupAnilistId, entriesOf, List.head?_filter]

/-- A patch of one entry leaves what is looked up of the others. -/
theorem lookup_patch_of_ne (hp : p.update.anilistId = some anilistId) (hne : other ≠ anilistId) :
    lookupAnilistId { snapshot with entries := applyAnilistPatch snapshot.entries p } other
      = lookupAnilistId snapshot other := by
  rw [lookupAnilistId_eq, lookupAnilistId_eq]
  exact congrArg List.head? (entriesOf_applyAnilistPatch_of_ne hp hne.symm)

/-- A patch of an entry that does not take it off shows. -/
theorem lookup_patch_self (hp : p.update.anilistId = some anilistId) (hid : anilistId ≠ 0)
    (hkeep : p.update.removes = false) :
    lookupAnilistId { snapshot with entries := applyAnilistPatch snapshot.entries p } anilistId
      = some (patchedEntry p anilistId (lookupAnilistId snapshot anilistId)) := by
  rw [lookupAnilistId_eq, applyAnilistPatch_of_names hp, if_neg hid, hkeep, find?_targets hp,
    lookupAnilistId_eq]
  simp only [Bool.false_eq_true, if_false]
  rw [entriesOf_placeEntry_self hp rfl]
  rfl

/-- An unwatched episode takes the entry's number one back, if the entry is at it (and is not
left at nothing without having been on the list). -/
def Rewinds (snapshot : AnilistSnapshot) (anilistId target : Int) : Prop :=
  1 ≤ target ∧ |progressOf (lookupAnilistId snapshot anilistId) - target| < 1 / 2 ^ 52 ∧
    (target = 1 →
      ∃ id, (lookupAnilistId snapshot anilistId).bind (·.listEntryId) = some id ∧ id ≠ 0)

/-- **What a write leaves of the entries**: the entry with its new number and count, the others
as they were. -/
structure Leaves (before after : AnilistSnapshot) (anilistId : Int) (progress : ℚ)
    (count : Option ℚ) : Prop where
  progress : progressOf (lookupAnilistId after anilistId) = progress
  count : countOf (lookupAnilistId after anilistId) = count
  others : ∀ other ≠ anilistId, lookupAnilistId after other = lookupAnilistId before other

variable {tvShow : Show} {anilist : Anilist} {count : Option ℚ} {target : Int}

theorem writeProgress_of_next (tvShow : Show) (anilist : Anilist) (count : Option ℚ)
    {watched : Bool} {next : ℚ} (hid : anilistId ≠ 0)
    (hnext : nextProgress (progressOf (lookupAnilistId snapshot anilistId)) target watched
      = some next)
    (hlisted : ¬ (next ≤ 0 ∧
      ((lookupAnilistId snapshot anilistId).bind (·.listEntryId)).all (· = 0))) :
    (writeProgress tvShow anilist snapshot anilistId count target watched).1 = .done true ∧
      Leaves snapshot (writeProgress tvShow anilist snapshot anilistId count target watched).2
        anilistId (max next 0) count := by
  unfold writeProgress
  dsimp only
  rw [hnext]
  dsimp only
  rw [if_neg hlisted]
  refine ⟨rfl, ?_, ?_, fun other hne => lookup_patch_of_ne rfl hne⟩
  · rw [lookup_patch_self rfl hid (by simp [AnilistPatch.removes])]
    rfl
  · rw [lookup_patch_self rfl hid (by simp [AnilistPatch.removes])]
    cases count <;> rfl

/-- A watched episode moves the entry's number up to it, or finds it there. -/
theorem writeProgress_watched (tvShow : Show) (anilist : Anilist) (count : Option ℚ)
    (hid : anilistId ≠ 0) (htarget : 1 ≤ target) :
    (writeProgress tvShow anilist snapshot anilistId count target true).1 = .done true ∧
      Leaves snapshot (writeProgress tvShow anilist snapshot anilistId count target true).2
        anilistId (max (progressOf (lookupAnilistId snapshot anilistId)) target)
        (if progressOf (lookupAnilistId snapshot anilistId) < target then count
          else countOf (lookupAnilistId snapshot anilistId)) := by
  have htarget' : (1 : ℚ) ≤ target := by exact_mod_cast htarget
  by_cases hup : progressOf (lookupAnilistId snapshot anilistId) < target
  · have hnext : nextProgress (progressOf (lookupAnilistId snapshot anilistId)) target true
        = some (target : ℚ) := by
      rw [nextProgress, if_neg (by linarith), if_pos rfl, if_pos hup]
    rw [max_eq_right hup.le, if_pos hup]
    have hwrite := writeProgress_of_next tvShow anilist count hid hnext
      (fun h => by linarith [h.1])
    rwa [max_eq_left (by linarith : (0 : ℚ) ≤ target)] at hwrite
  · have hnext : nextProgress (progressOf (lookupAnilistId snapshot anilistId)) target true
        = none := by
      rw [nextProgress, if_neg (by linarith), if_pos rfl, if_neg hup]
    rw [max_eq_left (not_lt.1 hup), if_neg hup]
    unfold writeProgress
    dsimp only
    rw [hnext]
    exact ⟨rfl, rfl, rfl, fun _ _ => rfl⟩

/-- An unwatched episode that is not where the entry is, is skipped. -/
theorem writeProgress_unwatched (tvShow : Show) (anilist : Anilist) (count : Option ℚ)
    (hid : anilistId ≠ 0) :
    ((writeProgress tvShow anilist snapshot anilistId count target false).1 = .done true ↔
      Rewinds snapshot anilistId target) ∧
    (Rewinds snapshot anilistId target →
      Leaves snapshot (writeProgress tvShow anilist snapshot anilistId count target false).2
        anilistId (target - 1) count) := by
  have hcast : (target : ℚ) < 1 ↔ target < 1 := by exact_mod_cast Iff.rfl
  by_cases hnear : 1 ≤ target ∧
      |progressOf (lookupAnilistId snapshot anilistId) - target| < 1 / 2 ^ 52
  · obtain ⟨htarget, hat⟩ := hnear
    have htarget' : (1 : ℚ) ≤ target := by exact_mod_cast htarget
    have hnext : nextProgress (progressOf (lookupAnilistId snapshot anilistId)) target false
        = some ((target : ℚ) - 1) := by
      rw [nextProgress, if_neg (by linarith), if_neg Bool.false_ne_true, if_pos hat]
    have hlisted : (((target : ℚ) - 1 ≤ 0 ∧
        ((lookupAnilistId snapshot anilistId).bind (·.listEntryId)).all (· = 0)) ↔
          ¬ Rewinds snapshot anilistId target) := by
      have hzero : (target : ℚ) - 1 ≤ 0 ↔ target = 1 := by
        rw [sub_nonpos]
        constructor
        · intro h
          have : target ≤ 1 := by exact_mod_cast h
          omega
        · rintro rfl
          norm_num
      rw [hzero, Rewinds, and_iff_right htarget, and_iff_right hat]
      cases hentry : (lookupAnilistId snapshot anilistId).bind (·.listEntryId) with
      | none => simp
      | some id => simp
    by_cases hrewinds : Rewinds snapshot anilistId target
    · have hwrite := writeProgress_of_next tvShow anilist count hid hnext
        (fun h => hlisted.1 h hrewinds)
      rw [max_eq_left (by linarith : (0 : ℚ) ≤ (target : ℚ) - 1)] at hwrite
      exact ⟨iff_of_true hwrite.1 hrewinds, fun _ => hwrite.2⟩
    · refine ⟨iff_of_false ?_ hrewinds, fun h => absurd h hrewinds⟩
      unfold writeProgress
      dsimp only
      rw [hnext]
      dsimp only
      rw [if_pos (hlisted.2 hrewinds)]
      exact EpisodeWrite.noConfusion
  · have hnot : ¬ Rewinds snapshot anilistId target := fun h => hnear ⟨h.1, h.2.1⟩
    have hnext : nextProgress (progressOf (lookupAnilistId snapshot anilistId)) target false
        = none := by
      unfold nextProgress
      by_cases htarget : target < 1
      · rw [if_pos (hcast.2 htarget)]
      · rw [if_neg (hcast.not.2 htarget), if_neg Bool.false_ne_true,
          if_neg fun hat => hnear ⟨by omega, hat⟩]
    refine ⟨iff_of_false ?_ hnot, fun h => absurd h hnot⟩
    unfold writeProgress
    dsimp only
    rw [hnext]
    exact EpisodeWrite.noConfusion

end Write

/-! ## Where an episode is placed -/

section Places

variable {tvShow : Show} {snapshot : AnilistSnapshot} {season episode anilistId progress : Int}
  {entries : List SeasonMapping} {m : SeasonMapping} {mode : Mode}

theorem rules_of_translateOnce {stored : List Edge} {source : IdRef} {ns : String} {t : Translation}
    (h : translateOnce stored source episode ns none = some t) :
    (episodeRules stored source ns).isEmpty = false := by
  obtain ⟨r, hr, -⟩ := translateOnce_eq_some h
  rw [List.isEmpty_eq_false_iff]
  exact List.ne_nil_of_mem (List.mem_map.2 ⟨r, mem_of_firstRule hr, rfl⟩)

/-- An episode that rules place is on an entry, and its season has rules. -/
theorem progressFromRules_eq_some (h : tvShow.progressFromRules season episode
    = some (anilistId, progress)) :
    0 < anilistId ∧ 1 ≤ progress ∧ tvShow.hasEpisodeRules season = true := by
  unfold Show.progressFromRules at h
  split at h
  · cases h
  case h_2 t ht =>
    split at h
    · cases h
    case h_2 id hid =>
      split at h
      · cases h
      case isFalse hpos =>
        rw [not_or, not_le, not_lt] at hpos
        obtain ⟨n, hn, heq⟩ := Option.map_eq_some_iff.1 h
        cases heq
        refine ⟨?_, hpos.2, ?_⟩
        · unfold intOf at hn
          split at hn
          · cases hn
            exact Rat.num_pos.2 hpos.1
          · cases hn
        · unfold translateBridged at ht
          unfold Show.hasEpisodeRules
          rw [Option.or_eq_some_iff] at ht
          rcases ht with ht | ⟨-, ht⟩
          · simp [rules_of_translateOnce ht]
          · obtain ⟨bridge, hbridge, hover⟩ := List.exists_of_findSome?_eq_some ht
            unfold translateOver at hover
            split at hover
            · cases hover
            · obtain ⟨hop, hhop, -⟩ := Option.bind_eq_some_iff.1 hover
              rw [List.any_eq_true]
              refine ⟨bridge, List.mem_cons_of_mem _ hbridge, ?_⟩
              rw [rules_of_translateOnce hhop]
              rfl

theorem candidates_pos (hm : m ∈ (seasonCandidates entries season).entries) : 0 < m.anilistId := by
  have hseries : ∀ m ∈ entries.filter fun m => !m.special && 0 < m.anilistId,
      0 < m.anilistId := fun m hm => by
    have hkept := List.of_mem_filter hm
    simp only [Bool.and_eq_true, decide_eq_true_eq] at hkept
    exact hkept.2
  unfold seasonCandidates at hm
  dsimp only at hm
  split at hm
  · cases hm
  · split at hm
    · exact hseries m hm
    · split at hm
      · exact hseries m (List.mem_of_mem_filter hm)
      · split at hm
        · exact hseries m (List.mem_of_mem_filter hm)
        · exact hseries m (List.mem_of_mem_filter hm)

theorem mem_of_windowEntry {catalog : Catalog} (h : windowEntry catalog episode entries = some m) :
    m ∈ entries := by
  induction entries with
  | nil => cases h
  | cons entry rest ih =>
    unfold windowEntry at h
    split at h
    · cases h
      exact List.mem_cons_self
    · exact List.mem_cons_of_mem _ (ih h)

/-- **An entry is picked among the season's candidates**: the only one, or one with a progress
that is the episode's number past its offset. -/
theorem pickSeasonEntry_eq_some (h : pickSeasonEntry entries season episode
    = some (m, progress, mode)) :
    mode = (seasonCandidates entries season).mode ∧ m ∈ (seasonCandidates entries season).entries ∧
      1 ≤ progress ∧
      (mode = .absolute → (seasonCandidates entries season).entries.head? = some m) ∧
      (mode = .inSeason →
        progress = episode - m.offset (seasonCandidates entries season).catalog) := by
  unfold pickSeasonEntry at h
  split at h
  · cases h
  case isFalse hepisode =>
    dsimp only at h
    split at h
    case h_1 hmode =>
      obtain ⟨first, hfirst, heq⟩ := Option.map_eq_some_iff.1 h
      cases heq
      exact ⟨hmode.symm, List.mem_of_mem_head? hfirst, by omega, fun _ => hfirst,
        fun h => Mode.noConfusion h⟩
    case h_2 hmode =>
      obtain ⟨picked, hpicked, hplace⟩ := Option.bind_eq_some_iff.1 h
      split at hplace
      case isTrue hone =>
        cases hplace
        refine ⟨hmode.symm, ?_, hone, fun h => Mode.noConfusion h, fun _ => rfl⟩
        split at hpicked
        · exact List.mem_mergeSort.1 (List.mem_of_mem_head? hpicked)
        · exact List.mem_mergeSort.1 (mem_of_windowEntry hpicked)
      case isFalse => cases hplace

/-! ## What reading lists -/

theorem mem_status_of_rules (hrules : tvShow.hasEpisodeRules season = true)
    (h : HasEpisode tvShow.seasons season episode) :
    (episode : ℚ) ∈ (seasonStatus tvShow snapshot season).2 ↔
      ∃ place ∈ tvShow.progressFromRules season episode,
        (place.2 : ℚ) ≤ progressOf (lookupAnilistId snapshot place.1) := by
  obtain ⟨-, hone, s, hs, hle⟩ := h
  unfold seasonStatus
  rw [if_pos hrules, hs]
  simp only [Option.map_some, Option.getD_some, List.mem_map, List.mem_filter, List.mem_range,
    Int.cast_inj, exists_eq_right]
  rw [and_iff_right ⟨(episode - 1).toNat, by omega, by omega⟩]
  cases tvShow.progressFromRules season episode with
  | none => simp
  | some place => simp

theorem mem_status_absolute (hrules : tvShow.hasEpisodeRules season = false)
    (hmode : (seasonCandidates tvShow.entries season).mode = .absolute)
    (hfirst : (seasonCandidates tvShow.entries season).entries.head? = some m) :
    (episode : ℚ) ∈ (seasonStatus tvShow snapshot season).2 ↔
      (episode : ℚ) ∈ watchedForSeason tvShow.seasons season
        (progressOf (lookupAnilistId snapshot m.anilistId))
        (countOf (lookupAnilistId snapshot m.anilistId)) := by
  obtain ⟨rest, hentries⟩ := List.head?_eq_some_iff.1 hfirst
  unfold seasonStatus
  rw [hrules, if_neg Bool.false_ne_true]
  dsimp only
  rw [hentries, hmode]
  dsimp only
  split
  case isTrue hnone => rw [watchedForSeason, if_pos (.inr hnone)]
  case isFalse => rfl

/-- An entry of a season, at some progress, shows an episode. -/
def Shows (progress : ℚ) (offset episode : Int) : Prop :=
  0 < progress ∧ offset + 1 ≤ episode ∧ (episode : ℚ) ≤ progress + offset

theorem mem_status_inSeason (hrules : tvShow.hasEpisodeRules season = false)
    (hmode : (seasonCandidates tvShow.entries season).mode = .inSeason)
    (h : HasEpisode tvShow.seasons season episode) :
    (episode : ℚ) ∈ (seasonStatus tvShow snapshot season).2 ↔
      ∃ m ∈ (seasonCandidates tvShow.entries season).entries,
        Shows (progressOf (lookupAnilistId snapshot m.anilistId))
          (m.offset (seasonCandidates tvShow.entries season).catalog) episode := by
  obtain ⟨-, hone, s, hs, hle⟩ := h
  have hle' : (episode : ℚ) ≤ s.episodes := by exact_mod_cast hle
  have hshown : ∀ m, (episode : ℚ) ∈ shownBy snapshot
      (seasonCandidates tvShow.entries season).catalog (some (s.episodes : ℚ)) m ↔
        Shows (progressOf (lookupAnilistId snapshot m.anilistId))
        (m.offset (seasonCandidates tvShow.entries season).catalog) episode := by
    intro m
    unfold shownBy Shows
    dsimp only
    split
    case isTrue hnone =>
      exact iff_of_false List.not_mem_nil fun hshows => absurd hshows.1 (not_lt.2 hnone)
    case isFalse hsome =>
      rw [Option.getD_some, mem_watchedFromProgress, and_iff_left hone, and_iff_right hle',
        and_iff_right (not_le.1 hsome)]
  unfold seasonStatus
  rw [hrules, if_neg Bool.false_ne_true]
  dsimp only
  cases hentries : (seasonCandidates tvShow.entries season).entries with
  | nil => simp
  | cons first rest =>
    rw [hmode, hs]
    dsimp only
    rw [List.mem_mergeSort, List.mem_dedup, List.mem_flatMap]
    exact exists_congr fun m => and_congr_right fun _ => hshown m

end Places

/-! ## Reading what is written -/

/-- The absolute number of an episode is what is written and read, or the entry is past it
anyway, or the whole season lies past the end of the entry and reading knows that end. -/
def ReadAbsolutely (seasons : List SeasonCount) (season episode target : Int)
    (entry : Option AnilistEntry) (count : Option ℚ) : Prop :=
  target = priorEpisodes seasons season + episode ∨
    ((priorEpisodes seasons season + episode : Int) : ℚ) ≤ progressOf entry ∨
    ((∃ c ∈ cap count, c < ((priorEpisodes seasons season + 1 : Int) : ℚ)) ∧
      (countOf entry ≠ none ∨ progressOf entry < episode))

/-- The same for an episode the season entries place on one of them. -/
def AgreesAt (tvShow : Show) (anilist : Anilist) (snapshot : AnilistSnapshot)
    (season episode : Int) (watched : Bool) (m : SeasonMapping) (target : Int) : Mode → Prop
  | .absolute => watched = true →
      ReadAbsolutely tvShow.seasons season episode target
        (lookupAnilistId snapshot m.anilistId) (knownCount anilist snapshot m.anilistId)
  | .inSeason => watched = false → Rewinds snapshot m.anilistId target →
      ∀ other ∈ (seasonCandidates tvShow.entries season).entries,
        ¬ Shows (if other.anilistId = m.anilistId then target - 1
            else progressOf (lookupAnilistId snapshot other.anilistId))
          (other.offset (seasonCandidates tvShow.entries season).catalog) episode

/-- **When a write shows in the next read.** An episode that rules place always does. One that
the season entries place is not read in a season that has rules; on a single entry it has to be
read absolutely; and among several, when it is unwatched, no entry of the season may run on over
it. -/
def Agrees (tvShow : Show) (anilist : Anilist) (snapshot : AnilistSnapshot) (season episode : Int)
    (watched : Bool) : Prop :=
  tvShow.progressFromRules season episode = none →
    ∀ m progress mode, pickSeasonEntry tvShow.entries season episode = some (m, progress, mode) →
      ∀ target, targetOf tvShow.seasons season episode progress mode
          (knownCount anilist snapshot m.anilistId) = some target →
        if tvShow.hasEpisodeRules season then watched = false
        else AgreesAt tvShow anilist snapshot season episode watched m target mode

/-- **The claim of a write**: where it is done, the episode is listed iff it was watched. -/
def ReadsBack (tvShow : Show) (anilist : Anilist) (snapshot : AnilistSnapshot)
    (season episode : Int) (watched : Bool) : Prop :=
  (setWatched tvShow anilist snapshot season episode watched).1 = .done true →
    ((episode : ℚ) ∈ (seasonStatus tvShow
      (setWatched tvShow anilist snapshot season episode watched).2 season).2 ↔ watched = true)

section ReadsBack

variable {tvShow : Show} {anilist : Anilist} {snapshot after : AnilistSnapshot}
  {season episode anilistId progress target : Int} {m : SeasonMapping} {mode : Mode}
  {count : Option ℚ}

/-- In a season an entry is written to the progress itself. -/
theorem eq_of_targetOf {seasons : List SeasonCount}
    (h : targetOf seasons season episode progress .inSeason count = some target) :
    target = progress := by
  unfold targetOf at h
  dsimp only at h
  split at h
  · cases h
  · exact (Option.some.inj h).symm

/-- What a target on a single entry can be. -/
theorem progressForEpisode_cases {absolute : Int} (h : progressForEpisode absolute count episode
    = some target) :
    1 ≤ target ∧ ((target = absolute ∧ ∀ c ∈ cap count, (absolute : ℚ) ≤ c) ∨
      (target = episode ∧ ∃ c ∈ cap count, c < (absolute : ℚ) ∧ (episode : ℚ) ≤ c)) := by
  unfold progressForEpisode at h
  split at h
  · cases h
  case isFalse habsolute =>
    cases hcap : cap count with
    | none =>
      rw [hcap] at h
      cases h
      exact ⟨by omega, .inl ⟨rfl, fun c hc => by cases hc⟩⟩
    | some c =>
      rw [hcap] at h
      dsimp only at h
      split at h
      case isTrue hle =>
        cases h
        exact ⟨by omega, .inl ⟨rfl, fun c' hc' => by cases hc'; exact hle⟩⟩
      case isFalse hlt =>
        split at h
        case isTrue hepisode =>
          cases h
          exact ⟨hepisode.1, .inr ⟨rfl, c, rfl, not_le.1 hlt, hepisode.2⟩⟩
        case isFalse => cases h

/-- A watched episode on a single entry is listed iff it is read absolutely. -/
theorem listed_absolute {entry : Option AnilistEntry} {seen : Option ℚ}
    (h : HasEpisode tvShow.seasons season episode) (hepisodic : Episodic tvShow.seasons)
    (htarget : progressForEpisode (priorEpisodes tvShow.seasons season + episode) count episode
      = some target)
    (hknown : countOf entry = count ∨ countOf entry = none)
    (hseen : seen = if progressOf entry < target then count else countOf entry) :
    (episode : ℚ) ∈ watchedForSeason tvShow.seasons season (max (progressOf entry) target) seen ↔
      ReadAbsolutely tvShow.seasons season episode target entry count := by
  have hprior := priorEpisodes_nonneg hepisodic season
  have hepisode := h.2.1
  have hfirst : ((priorEpisodes tvShow.seasons season + 1 : Int) : ℚ)
      ≤ ((priorEpisodes tvShow.seasons season + episode : Int) : ℚ) := by
    exact_mod_cast (by omega : priorEpisodes tvShow.seasons season + 1
      ≤ priorEpisodes tvShow.seasons season + episode)
  rw [mem_watchedForSeason h hprior]
  unfold ReadAbsolutely
  obtain ⟨-, ⟨rfl, hcap⟩ | ⟨rfl, c, hc, hpast, hin⟩⟩ := progressForEpisode_cases htarget
  · -- the absolute number is written, and is in the entry
    have hin : ∀ c ∈ cap seen, ¬ c < ((priorEpisodes tvShow.seasons season + 1 : Int) : ℚ) := by
      intro c hc
      have hle : ((priorEpisodes tvShow.seasons season + episode : Int) : ℚ) ≤ c := by
        rw [hseen] at hc
        split at hc
        · exact hcap c hc
        · rcases hknown with heq | hnone
          · exact hcap c (heq ▸ hc)
          · rw [hnone] at hc
            cases hc
      exact not_lt.2 (hfirst.trans hle)
    rw [if_neg]
    · exact iff_of_true (le_max_right _ _) (.inl rfl)
    · rw [Option.any_eq_true]
      rintro ⟨c, hc, hlt⟩
      exact hin c hc (of_decide_eq_true hlt)
  · -- the number in the season is written
    have hlt : (target : ℚ) < ((priorEpisodes tvShow.seasons season + target : Int) : ℚ) :=
      hin.trans_lt hpast
    have hne : target ≠ priorEpisodes tvShow.seasons season + target := by
      intro heq
      rw [← heq] at hlt
      exact lt_irrefl _ hlt
    have hend : (∃ c' ∈ cap count, c' < ((priorEpisodes tvShow.seasons season + 1 : Int) : ℚ)) ↔
        c < ((priorEpisodes tvShow.seasons season + 1 : Int) : ℚ) := by
      rw [Option.mem_def.1 hc]
      simp
    rw [or_iff_right hne, hend]
    by_cases hup : progressOf entry < target
    · rw [hseen, if_pos hup, max_eq_right hup.le, Option.mem_def.1 hc, Option.any_some]
      simp only [decide_eq_true_eq, Option.mem_some_iff, forall_eq', hup, or_true, and_true]
      rw [or_iff_right (not_le.2 (hup.trans hlt))]
      split
      case isTrue hfar => exact iff_of_true ⟨le_rfl, hin⟩ hfar
      case isFalse hnear => exact iff_of_false (not_le.2 hlt) hnear
    · rw [hseen, if_neg hup, max_eq_left (not_lt.1 hup)]
      simp only [hup, or_false]
      rcases hknown with heq | hnone
      · have hsome : countOf entry ≠ none := by
          rintro hnone
          rw [← heq, hnone] at hc
          cases hc
        rw [heq, Option.mem_def.1 hc, Option.any_some]
        simp only [decide_eq_true_eq, Option.mem_some_iff, forall_eq']
        rw [← heq, and_iff_left hsome]
        split
        case isTrue hfar => exact iff_of_true ⟨not_lt.1 hup, hin⟩ (.inr hfar)
        case isFalse hnear => rw [or_iff_left hnear]
      · rw [hnone]
        simp [cap]

/-- An unwatched episode on a single entry is not listed. -/
theorem not_listed_absolute (h : HasEpisode tvShow.seasons season episode)
    (hepisodic : Episodic tvShow.seasons)
    (htarget : progressForEpisode (priorEpisodes tvShow.seasons season + episode) count episode
      = some target) :
    (episode : ℚ) ∉ watchedForSeason tvShow.seasons season (target - 1) count := by
  have hprior := priorEpisodes_nonneg hepisodic season
  rw [mem_watchedForSeason h hprior]
  obtain ⟨-, ⟨rfl, hcap⟩ | ⟨rfl, c, hc, hpast, hin⟩⟩ := progressForEpisode_cases htarget
  · split
    case isTrue hany =>
      obtain ⟨c, hc, hlt⟩ := (Option.any_eq_true _ _).1 hany
      have hle := hcap c hc
      have hlt := of_decide_eq_true hlt
      have hepisode : (1 : ℚ) ≤ episode := by exact_mod_cast h.2.1
      push_cast at hle hlt
      linarith
    case isFalse =>
      rw [not_le]
      linarith
  · split
    case isTrue =>
      rintro ⟨hle, -⟩
      linarith
    case isFalse =>
      rw [not_le]
      linarith

theorem setWatched_eq {watched : Bool} (h : HasEpisode tvShow.seasons season episode)
    (hplace : placeOf tvShow season episode = some (anilistId, progress, mode))
    (htarget : targetOf tvShow.seasons season episode progress mode
      (knownCount anilist snapshot anilistId) = some target) :
    setWatched tvShow anilist snapshot season episode watched
      = writeProgress tvShow anilist snapshot anilistId (knownCount anilist snapshot anilistId)
          target watched := by
  obtain ⟨hseason, hepisode, -⟩ := h
  rw [setWatched, if_neg (by omega), hplace]
  dsimp only
  rw [htarget]

/-- A write without a place or a target is skipped. -/
theorem setWatched_skips {watched : Bool}
    (h : ∀ anilistId progress mode,
      placeOf tvShow season episode = some (anilistId, progress, mode) →
      targetOf tvShow.seasons season episode progress mode
        (knownCount anilist snapshot anilistId) = none) :
    (setWatched tvShow anilist snapshot season episode watched).1 ≠ .done true := by
  unfold setWatched
  split
  · exact EpisodeWrite.noConfusion
  · split
    · exact EpisodeWrite.noConfusion
    case h_2 anilistId progress mode hplace =>
      dsimp only
      rw [h anilistId progress mode hplace]
      exact EpisodeWrite.noConfusion

/-- **What rules place is read where it is written.** -/
theorem readsBack_of_rules {watched : Bool} (h : HasEpisode tvShow.seasons season episode)
    (hr : tvShow.progressFromRules season episode = some (anilistId, progress)) :
    ReadsBack tvShow anilist snapshot season episode watched := by
  obtain ⟨hid, hone, hrules⟩ := progressFromRules_eq_some hr
  have hplace : placeOf tvShow season episode = some (anilistId, progress, .inSeason) := by
    rw [placeOf, hr]
  have hlisted : ∀ after, (episode : ℚ) ∈ (seasonStatus tvShow after season).2 ↔
      (progress : ℚ) ≤ progressOf (lookupAnilistId after anilistId) := fun after => by
    rw [mem_status_of_rules hrules h, hr]
    simp
  intro hdone
  cases htarget : targetOf tvShow.seasons season episode progress .inSeason
      (knownCount anilist snapshot anilistId) with
  | none =>
    refine absurd hdone (setWatched_skips fun id p mode heq => ?_)
    cases hplace.symm.trans heq
    exact htarget
  | some target =>
    obtain rfl := eq_of_targetOf htarget
    rw [setWatched_eq h hplace htarget] at hdone ⊢
    rw [hlisted]
    cases watched with
    | true =>
      rw [(writeProgress_watched tvShow anilist _ hid.ne' hone).2.progress]
      exact iff_of_true (le_max_right _ _) rfl
    | false =>
      obtain ⟨hrewinds, hleaves⟩ := writeProgress_unwatched tvShow anilist
        (knownCount anilist snapshot anilistId) hid.ne'
      rw [(hleaves (hrewinds.1 hdone)).progress]
      exact iff_of_false (by linarith) Bool.false_ne_true

/-- What the season entries place on a single entry. -/
theorem readsBack_absolute_iff {watched : Bool} (h : HasEpisode tvShow.seasons season episode)
    (hepisodic : Episodic tvShow.seasons) (hrules : tvShow.hasEpisodeRules season = false)
    (hr : tvShow.progressFromRules season episode = none)
    (hpick : pickSeasonEntry tvShow.entries season episode = some (m, progress, .absolute))
    (htarget : targetOf tvShow.seasons season episode progress .absolute
      (knownCount anilist snapshot m.anilistId) = some target) :
    ReadsBack tvShow anilist snapshot season episode watched ↔
      (watched = true → ReadAbsolutely tvShow.seasons season episode target
        (lookupAnilistId snapshot m.anilistId) (knownCount anilist snapshot m.anilistId)) := by
  obtain ⟨hmode, hmem, -, hhead, -⟩ := pickSeasonEntry_eq_some hpick
  have hid := candidates_pos hmem
  have hplace : placeOf tvShow season episode = some (m.anilistId, progress, .absolute) := by
    rw [placeOf, hr, hpick]
    rfl
  have hprogress : progressForEpisode (priorEpisodes tvShow.seasons season + episode)
      (knownCount anilist snapshot m.anilistId) episode = some target := by
    rw [targetOf, absoluteEpisode_eq h] at htarget
    exact htarget
  have hone := (progressForEpisode_cases hprogress).1
  unfold ReadsBack
  rw [setWatched_eq h hplace htarget, mem_status_absolute hrules hmode.symm (hhead rfl)]
  cases watched with
  | true =>
    obtain ⟨hdone, hleaves⟩ := writeProgress_watched tvShow anilist
      (knownCount anilist snapshot m.anilistId) hid.ne' hone
    have hknown : countOf (lookupAnilistId snapshot m.anilistId)
        = knownCount anilist snapshot m.anilistId ∨
          countOf (lookupAnilistId snapshot m.anilistId) = none := by
      unfold knownCount
      cases countOf (lookupAnilistId snapshot m.anilistId) with
      | none => exact .inr rfl
      | some c => exact .inl rfl
    rw [hleaves.progress, hleaves.count, forall_prop_of_true hdone, iff_true_right rfl,
      forall_prop_of_true rfl]
    exact listed_absolute h hepisodic hprogress hknown rfl
  | false =>
    refine iff_of_true (fun hdone => ?_) (fun h => absurd h Bool.false_ne_true)
    obtain ⟨hrewinds, hleaves⟩ := writeProgress_unwatched tvShow anilist
      (knownCount anilist snapshot m.anilistId) hid.ne'
    rw [(hleaves (hrewinds.1 hdone)).progress, (hleaves (hrewinds.1 hdone)).count]
    exact iff_of_false (not_listed_absolute h hepisodic hprogress) Bool.false_ne_true

/-- What the season entries place on one of several. -/
theorem readsBack_inSeason_iff {watched : Bool} (h : HasEpisode tvShow.seasons season episode)
    (hrules : tvShow.hasEpisodeRules season = false)
    (hr : tvShow.progressFromRules season episode = none)
    (hpick : pickSeasonEntry tvShow.entries season episode = some (m, progress, .inSeason))
    (htarget : targetOf tvShow.seasons season episode progress .inSeason
      (knownCount anilist snapshot m.anilistId) = some target) :
    ReadsBack tvShow anilist snapshot season episode watched ↔
      (watched = false → Rewinds snapshot m.anilistId target →
        ∀ other ∈ (seasonCandidates tvShow.entries season).entries,
          ¬ Shows (if other.anilistId = m.anilistId then target - 1
              else progressOf (lookupAnilistId snapshot other.anilistId))
            (other.offset (seasonCandidates tvShow.entries season).catalog) episode) := by
  obtain ⟨hmode, hmem, hone, -, hoffset⟩ := pickSeasonEntry_eq_some hpick
  have hid := candidates_pos hmem
  have hplace : placeOf tvShow season episode = some (m.anilistId, progress, .inSeason) := by
    rw [placeOf, hr, hpick]
    rfl
  obtain rfl := eq_of_targetOf htarget
  unfold ReadsBack
  rw [setWatched_eq h hplace htarget, mem_status_inSeason hrules hmode.symm h]
  cases watched with
  | true =>
    refine iff_of_true (fun _ => iff_of_true ⟨m, hmem, ?_⟩ rfl) fun h => Bool.noConfusion h
    have htarget' : (1 : ℚ) ≤ target := by exact_mod_cast hone
    rw [(writeProgress_watched tvShow anilist _ hid.ne' hone).2.progress]
    have hle := le_max_right (progressOf (lookupAnilistId snapshot m.anilistId)) (target : ℚ)
    have hplus : (episode : ℚ)
        = target + m.offset (seasonCandidates tvShow.entries season).catalog := by
      rw [hoffset rfl]
      push_cast
      ring
    refine ⟨by linarith, ?_, by linarith⟩
    have := hoffset rfl
    omega
  | false =>
    obtain ⟨hdone, hleft⟩ := writeProgress_unwatched tvShow anilist
      (knownCount anilist snapshot m.anilistId) hid.ne'
    rw [hdone, forall_prop_of_true rfl]
    refine forall_congr' fun hrewinds => ?_
    have hleaves := hleft hrewinds
    have hother : ∀ other : SeasonMapping, progressOf (lookupAnilistId
        (writeProgress tvShow anilist snapshot m.anilistId
          (knownCount anilist snapshot m.anilistId) target false).2 other.anilistId)
          = if other.anilistId = m.anilistId then (target : ℚ) - 1
            else progressOf (lookupAnilistId snapshot other.anilistId) := by
      intro other
      split
      case isTrue heq => rw [heq, hleaves.progress]
      case isFalse hne => rw [hleaves.others _ hne]
    simp only [hother, Bool.false_eq_true, iff_false, not_exists, not_and]

/-- What the season entries place in a season that has rules is never read. -/
theorem readsBack_unread_iff {watched : Bool} (h : HasEpisode tvShow.seasons season episode)
    (hrules : tvShow.hasEpisodeRules season = true)
    (hr : tvShow.progressFromRules season episode = none)
    (hpick : pickSeasonEntry tvShow.entries season episode = some (m, progress, mode))
    (htarget : targetOf tvShow.seasons season episode progress mode
      (knownCount anilist snapshot m.anilistId) = some target) :
    ReadsBack tvShow anilist snapshot season episode watched ↔ watched = false := by
  obtain ⟨hmode, hmem, hone, -, hoffset⟩ := pickSeasonEntry_eq_some hpick
  have hid := candidates_pos hmem
  have hplace : placeOf tvShow season episode = some (m.anilistId, progress, mode) := by
    rw [placeOf, hr, hpick]
    rfl
  have htargetOne : 1 ≤ target := by
    cases mode with
    | absolute =>
      rw [targetOf, absoluteEpisode_eq h] at htarget
      exact (progressForEpisode_cases htarget).1
    | inSeason => exact eq_of_targetOf htarget ▸ hone
  unfold ReadsBack
  rw [setWatched_eq h hplace htarget, mem_status_of_rules hrules h, hr]
  cases watched with
  | true =>
    rw [(writeProgress_watched tvShow anilist _ hid.ne' htargetOne).1]
    simp
  | false => simp

end ReadsBack

/-! ### A rule, and two ways a watched episode is not read -/

/-- A show of two seasons, of which AniList has one entry. -/
def twoSeasons (stored : List Edge) : Show where
  stored := stored
  tmdbId := 1
  entries := [{ anilistId := 5, seasonTmdb := some 1 }]
  seasons := [⟨1, 12⟩, ⟨2, 12⟩]

/-- The first half of the first season by rule. -/
def ruledHalf : List Edge :=
  [{ dataset := "anibridge", srcNs := "tmdb_show", srcId := "1", srcScope := "s1",
     dstNs := "anilist", dstId := "5", dstScope := "", srcRange := some "1-6",
     dstRange := some "1-6" }]

/-- AniList has twenty episodes of the entry. -/
def twentyEpisodes : Anilist where
  episodes _ := some 20
  savedId := 77

theorem twoSeasons_episodic (stored : List Edge) : Episodic (twoSeasons stored).seasons := by
  show ∀ s ∈ [(⟨1, 12⟩ : SeasonCount), ⟨2, 12⟩], 1 ≤ s.episodes
  decide

end Foreseerr.AnilistEpisodes

import Foreseerr.ImportCandidates
import Mathlib.Algebra.Group.Int.Defs
import Mathlib.Data.List.Nodup

/-!
# Grabbing a release that was rejected

`mediaservarr.rs` sends a release that a user picked from an interactive search to Radarr
or Sonarr. Where the user has acknowledged its rejections, a Sonarr grab is overridden to
chosen episodes: Sonarr's own mapping where it is this series' and covers what was
searched, else the searched episode or the searched season's episodes.

The chosen episodes are always the series' and cover the search, but `grab_body` sends them
only with a quality and languages to send along (`ReleaseGrab.goes_to_series_iff`).
-/

namespace Foreseerr

namespace ReleaseGrab

open Json ManualImports

/-! ## The grab -/

/-- A release as it was offered, with what was searched. -/
structure Token where
  value : Json
  episodeId : Option Int
  seasonNumber : Option Int

/-- The server's title: a movie of Radarr or a series of Sonarr. -/
structure Context where
  radarr : Bool
  externalId : Int
deriving DecidableEq, Repr

/-- `Value::from` of an id. -/
def fromInt (id : Int) : Json := .num id

/-- An episode's `id`. -/
def idOf (e : Json) : Option Int := (e.get "id").bind asI64

/-- An episode's `seasonNumber`. -/
def seasonOf (e : Json) : Option Int := (e.get "seasonNumber").bind asI64

/-- `mapped_episode_ids`. -/
def mappedEpisodeIds (release : Json) (seriesId : Int) (episodes : List Json) :
    Option (List Json) :=
  if ((release.get "mappedSeriesId").bind asI64).any (· ≠ seriesId) then none
  else do
    let infos ← (release.get "mappedEpisodeInfo").bind asArray
    let ids ← infos.mapM idOf
    if ids.isEmpty || !ids.all fun id => episodes.any (idOf · = some id) then none
    else some (dedupe (ids.map fromInt))

/-- `in_season`. -/
def inSeason (episodes : List Json) (id : Option Int) (n : Int) : Bool :=
  episodes.any fun e => idOf e = id && seasonOf e = some n

/-- `covers_target`. -/
def coversTarget (episodes : List Json) (episodeId seasonNumber : Option Int)
    (ids : List Json) : Bool :=
  match episodeId, seasonNumber with
  | some target, _ => ids.any (asI64 · = some target)
  | none, some n => ids.any fun id => inSeason episodes (asI64 id) n
  | none, none => true

/-- Whether an episode is of the searched season, of the release's where none was searched,
and of one beyond the specials where that has none either. -/
def ofSeason (release : Json) (seasonNumber : Option Int) (e : Json) : Bool :=
  match (seasonNumber.map fromInt) <|> (release.get "seasonNumber").filter (· ≠ .null) with
  | some n => e.get "seasonNumber" = some n
  | none => match e.get "seasonNumber" with
    | some (.num n) => 0 < n
    | _ => false

/-- `forced_ids`. -/
def forcedIds (release : Json) (seriesId : Int) (episodes : List Json)
    (episodeId seasonNumber : Option Int) : List Json :=
  match (mappedEpisodeIds release seriesId episodes).filter
      (coversTarget episodes episodeId seasonNumber) with
  | some ids => ids
  | none => match episodeId with
    | some id => [fromInt id]
    | none => (episodes.filter (ofSeason release seasonNumber)).map fun e =>
        (e.get "id").getD .null

/-- `forced_episode_ids`, with what reading the series' episodes comes to. -/
def forcedEpisodeIds (c : Context) (read : Except String (List Json)) (record : Token) :
    Except Fail (List Json) :=
  let mappedAny := ((record.value.get "mappedEpisodeInfo").bind asArray).any (!·.isEmpty)
  if mappedAny || record.episodeId.isNone then
    match read, record.episodeId with
    | .ok episodes, _ => .ok (forcedIds record.value c.externalId episodes record.episodeId
        record.seasonNumber)
    -- The mapping cannot be checked without the episodes.
    | .error _, some id => .ok [fromInt id]
    | .error _, none => .error .arr
  else .ok (forcedIds record.value c.externalId [] record.episodeId record.seasonNumber)

/-- `grab_body`. -/
def grabBody (release : Json) (c : Context) (episodeIds : Option (List Json))
    (acknowledge : Bool) : Json :=
  let body := put (put [] "guid" (release.get "guid")) "indexerId" (release.get "indexerId")
  let body := setField (if c.radarr then "movieId" else "seriesId") (fromInt c.externalId) body
  let ids := episodeIds.getD []
  if acknowledge && has release "quality" && has release "languages"
      && (c.radarr || !ids.isEmpty) then
    let body := if c.radarr then body else setField "episodeIds" (.arr ids) body
    let body := setField "shouldOverride" (.bool true) body
    .obj (put (put body "quality" (release.get "quality")) "languages" (release.get "languages"))
  else .obj body

/-- Why a forced grab without episodes is not sent. -/
def unmatched : Fail := .status 409 ("This release can't be matched to an episode of this " ++
  "series, so it can't be downloaded anyway.")

/-- The episodes a grab is overridden to. -/
def overrideIds (c : Context) (read : Except String (List Json)) (record : Token)
    (acknowledge : Bool) : Except Fail (Option (List Json)) :=
  if !c.radarr && acknowledge then do
    let ids ← forcedEpisodeIds c read record
    if ids.isEmpty then .error unmatched else .ok (some ids)
  else .ok none

/-- `rejected`. -/
def rejected (release : Json) : Bool := has release "rejected" || has release "temporarilyRejected"

/-- `grab_release` of a redeemed token: the body of the request it sends. -/
def grabRelease (c : Context) (read : Except String (List Json)) (record : Token)
    (acknowledge : Bool) : Except Fail Json :=
  if !(has record.value "downloadAllowed" || rejected record.value) then
    .error (.status 409 "This release cannot be downloaded by the configured client.")
  else if rejected record.value && !acknowledge then
    .error (.status 409 "Confirm the release rejection warnings before grabbing.")
  else do
    let episodeIds ← overrideIds c read record acknowledge
    .ok (grabBody record.value c episodeIds acknowledge)

/-! ## Where a grab goes -/

/-- What a release was searched for. -/
inductive Target
  | episode (id : Int)
  | season (n : Int)

/-- The token `search` issues. -/
def Target.token (release : Json) : Target → Token
  | .episode id => { value := release, episodeId := some id, seasonNumber := none }
  | .season n => { value := release, episodeId := none, seasonNumber := some n }

/-- The episodes of a series. -/
structure Series (episodes : List Json) : Prop where
  ids : ∀ e ∈ episodes, (idOf e).isSome
  distinct : (episodes.map idOf).Nodup

/-- What `search` has checked: the episode is the series', and a season is a number of the
source's. -/
def Issued (series : List Json) : Target → Prop
  | .episode id => some id ∈ series.map idOf
  | .season n => -2 ^ 63 ≤ n ∧ n < 2 ^ 63

/-- What was searched is among some episodes. -/
def Covers (series : List Json) (ids : List Int) : Target → Prop
  | .episode id => id ∈ ids
  | .season n => ∃ e ∈ series, seasonOf e = some n ∧ ∃ id ∈ ids, idOf e = some id

/-- Episodes of the series that cover what was searched. -/
structure Chosen (series : List Json) (target : Target) (ids : List Int) : Prop where
  nonempty : ids ≠ []
  nodup : ids.Nodup
  known : ∀ id ∈ ids, some id ∈ series.map idOf
  covers : Covers series ids target

/-- **A grab that goes to the series' episodes only.** -/
def GoesToSeries (seriesId : Int) (series : List Json) (target : Target) (body : Json) : Prop :=
  body.get "seriesId" = some (fromInt seriesId) ∧ body.get "shouldOverride" = some (.bool true)
    ∧ ∃ ids : List Int, body.get "episodeIds" = some (.arr (ids.map fromInt))
      ∧ Chosen series target ids

section Choice

variable {release e : Json} {seriesId id n : Int} {series episodes ids : List Json}
  {target : Target} {read : Except String (List Json)} {numbers : List Int}

theorem asI64_fromInt (h : -2 ^ 63 ≤ n ∧ n < 2 ^ 63) : asI64 (fromInt n) = some n := by
  rw [fromInt, asI64, if_pos ⟨Rat.den_intCast n, by rwa [Rat.num_intCast]⟩, Rat.num_intCast]

theorem eq_fromInt_of_asI64 {v : Json} (h : asI64 v = some n) :
    v = fromInt n ∧ -2 ^ 63 ≤ n ∧ n < 2 ^ 63 := by
  cases v with
  | num q =>
    rw [asI64] at h
    split at h
    next hq =>
      cases h
      exact ⟨congrArg Json.num (Rat.coe_int_num_of_den_eq_one hq.1).symm, hq.2⟩
    next => cases h
  | _ => cases h

theorem fromInt_injective : Function.Injective fromInt := fun _ _ h =>
  Rat.intCast_injective (Json.num.inj h)

theorem get_of_idOf (h : idOf e = some id) : e.get "id" = some (fromInt id) := by
  obtain ⟨v, hv, hid⟩ := Option.bind_eq_some_iff.1 h
  rw [hv, (eq_fromInt_of_asI64 hid).1]

theorem asI64_of_idOf (h : idOf e = some id) : asI64 (fromInt id) = some id := by
  obtain ⟨v, -, hid⟩ := Option.bind_eq_some_iff.1 h
  exact asI64_fromInt (eq_fromInt_of_asI64 hid).2

theorem seasonOf_eq_iff (hn : -2 ^ 63 ≤ n ∧ n < 2 ^ 63) :
    seasonOf e = some n ↔ e.get "seasonNumber" = some (fromInt n) := by
  constructor
  · intro h
    obtain ⟨v, hv, hseason⟩ := Option.bind_eq_some_iff.1 h
    rw [hv, (eq_fromInt_of_asI64 hseason).1]
  · intro h
    rw [seasonOf, h]
    exact asI64_fromInt hn

theorem dedupe_map_fromInt (numbers : List Int) :
    dedupe (numbers.map fromInt) = (dedupe numbers).map fromInt := by
  have hfold : ∀ numbers out : List Int,
      (numbers.map fromInt).foldl (fun out id => if id ∈ out then out else out ++ [id])
        (out.map fromInt)
      = (numbers.foldl (fun out id => if id ∈ out then out else out ++ [id]) out).map fromInt := by
    intro numbers
    induction numbers with
    | nil => exact fun _ => rfl
    | cons id numbers ih =>
      intro out
      rw [List.map_cons, List.foldl_cons, List.foldl_cons]
      by_cases hid : id ∈ out
      · rw [if_pos hid, if_pos ((List.mem_map_of_injective fromInt_injective).2 hid), ih]
      · rw [if_neg hid, if_neg fun h => hid ((List.mem_map_of_injective fromInt_injective).1 h),
          ← ih, List.map_append]
        rfl
  exact hfold numbers []

/-- Sonarr's mapping is used only where it is of the series' episodes. -/
theorem mappedEpisodeIds_known (h : mappedEpisodeIds release seriesId series = some ids) :
    ∃ numbers : List Int, ids = numbers.map fromInt ∧ numbers ≠ [] ∧ numbers.Nodup
      ∧ ∀ id ∈ numbers, some id ∈ series.map idOf := by
  unfold mappedEpisodeIds at h
  split at h
  next => cases h
  next =>
    obtain ⟨infos, -, h⟩ := Option.bind_eq_some_iff.1 h
    obtain ⟨numbers, -, h⟩ := Option.bind_eq_some_iff.1 h
    split at h
    next => cases h
    next hknown =>
      rw [Bool.or_eq_true, not_or, Bool.not_eq_true', Bool.not_eq_false, List.all_eq_true,
        List.isEmpty_iff] at hknown
      cases h
      refine ⟨dedupe numbers, dedupe_map_fromInt numbers, dedupe_ne_nil hknown.1,
        nodup_dedupe numbers, fun id hid => ?_⟩
      obtain ⟨e, he, hide⟩ := List.any_eq_true.1 (hknown.2 id (mem_dedupe.1 hid))
      exact List.mem_map.2 ⟨e, he, of_decide_eq_true hide⟩

/-- The ids of some of a series' episodes. -/
theorem ids_of_filter (hseries : Series series) (p : Json → Bool) :
    ((series.filter p).map fun e => (e.get "id").getD .null)
      = ((series.filter p).filterMap idOf).map fromInt := by
  have hids : ∀ e ∈ series.filter p, (idOf e).isSome := fun e he =>
    hseries.ids e (List.mem_filter.1 he).1
  generalize series.filter p = chosen at hids
  induction chosen with
  | nil => rfl
  | cons e chosen ih =>
    rw [List.forall_mem_cons] at hids
    obtain ⟨id, hid⟩ := Option.isSome_iff_exists.1 hids.1
    rw [List.map_cons, List.filterMap_cons_some hid, List.map_cons, ih hids.2, get_of_idOf hid]
    rfl

theorem nodup_ids_of_filter (hseries : Series series) (p : Json → Bool) :
    ((series.filter p).filterMap idOf).Nodup := by
  have hsub : ((series.filter p).map idOf).Nodup :=
    hseries.distinct.sublist (List.filter_sublist.map _)
  have hmap : ((series.filter p).map idOf).filterMap id = (series.filter p).filterMap idOf :=
    List.filterMap_map
  rw [← hmap]
  exact hsub.filterMap fun a b x ha hb => ha.trans hb.symm

/-- **The chosen episodes are the series' and cover what was searched**; there are none
only where the searched season has none. -/
theorem forcedIds_chosen (release : Json) (seriesId : Int) (hseries : Series series)
    (htarget : Issued series target) :
    (∃ numbers : List Int, forcedIds release seriesId series (target.token release).episodeId
        (target.token release).seasonNumber = numbers.map fromInt ∧ Chosen series target numbers)
      ∨ (forcedIds release seriesId series (target.token release).episodeId
        (target.token release).seasonNumber = []
        ∧ ∃ n, target = .season n ∧ ∀ e ∈ series, seasonOf e ≠ some n) := by
  unfold forcedIds
  split
  next mapped hmapped =>
    rw [Option.filter_eq_some_iff] at hmapped
    obtain ⟨numbers, rfl, hne, hnodup, hknown⟩ := mappedEpisodeIds_known hmapped.1
    refine .inl ⟨numbers, rfl, hne, hnodup, hknown, ?_⟩
    have hcovers := hmapped.2
    -- A mapped id is read back as the number it was written from.
    have hback : ∀ id ∈ numbers, asI64 (fromInt id) = some id := by
      intro id hid
      obtain ⟨e, -, he⟩ := List.mem_map.1 (hknown id hid)
      exact asI64_of_idOf he
    cases target with
    | episode id =>
      obtain ⟨v, hv, hid⟩ := List.any_eq_true.1 hcovers
      obtain ⟨id', hid', rfl⟩ := List.mem_map.1 hv
      rw [decide_eq_true_eq, hback id' hid'] at hid
      rw [Covers, ← Option.some.inj hid]
      exact hid'
    | season n =>
      obtain ⟨v, hv, hseason⟩ := List.any_eq_true.1 hcovers
      obtain ⟨id, hid, rfl⟩ := List.mem_map.1 hv
      obtain ⟨e, he, hmatch⟩ := List.any_eq_true.1 hseason
      rw [Bool.and_eq_true, decide_eq_true_eq, decide_eq_true_eq, hback id hid] at hmatch
      exact ⟨e, he, hmatch.2, id, hid, hmatch.1⟩
  next =>
    cases target with
    | episode id =>
      refine .inl ⟨[id], rfl, List.cons_ne_nil _ _, List.nodup_singleton _, ?_,
        List.mem_cons_self⟩
      rw [List.forall_mem_singleton]
      exact htarget
    | season n =>
      have hof : ∀ e, ofSeason release (some n) e = true ↔ seasonOf e = some n := by
        intro e
        rw [seasonOf_eq_iff htarget]
        exact decide_eq_true_iff
      dsimp only [Target.token]
      rw [ids_of_filter hseries]
      by_cases hnone : ∀ e ∈ series, seasonOf e ≠ some n
      · have hempty : series.filter (ofSeason release (some n)) = [] :=
          List.filter_eq_nil_iff.2 fun e he hseason => hnone e he ((hof e).1 hseason)
        rw [hempty]
        exact .inr ⟨rfl, n, rfl, hnone⟩
      · simp only [not_forall, not_not] at hnone
        obtain ⟨e, he, hseason⟩ := hnone
        obtain ⟨id, hid⟩ := Option.isSome_iff_exists.1 (hseries.ids e he)
        have hmem : id ∈ (series.filter (ofSeason release (some n))).filterMap idOf :=
          List.mem_filterMap.2 ⟨e, List.mem_filter.2 ⟨he, (hof e).2 hseason⟩, hid⟩
        refine .inl ⟨_, rfl, List.ne_nil_of_mem hmem, nodup_ids_of_filter hseries _,
          fun id hid => ?_, e, he, hseason, id, hmem, hid⟩
        obtain ⟨e', he', hid'⟩ := List.mem_filterMap.1 hid
        exact List.mem_map.2 ⟨e', (List.mem_filter.1 he').1, hid'⟩

/-- A season that cannot be read or has no episode in what is read. -/
def Unfound (read : Except String (List Json)) (target : Target) : Prop :=
  ∃ n, target = .season n ∧ ∀ episodes, read = .ok episodes → ∀ e ∈ episodes, seasonOf e ≠ some n

theorem not_unfound (hchosen : Chosen series target numbers)
    (hread : ∀ n, target = .season n → read = .ok series) : ¬ Unfound read target := by
  rintro ⟨n, rfl, hnone⟩
  obtain ⟨e, he, hseason, -⟩ := hchosen.covers
  exact hnone series (hread n rfl) e he hseason

theorem overrideIds_sonarr (record : Token) : overrideIds ⟨false, seriesId⟩ read record true
    = (forcedEpisodeIds ⟨false, seriesId⟩ read record).bind fun ids =>
        if ids.isEmpty then .error unmatched else .ok (some ids) := rfl

/-- What a forced grab is overridden to, where there is something: the series' episodes that
cover the search. There is nothing only for a season that cannot be read or is empty. -/
theorem overrideIds_cases (release : Json) (seriesId : Int) (hseries : Series series)
    (htarget : Issued series target) (hread : ∀ episodes, read = .ok episodes → episodes = series) :
    (∃ numbers, overrideIds ⟨false, seriesId⟩ read (target.token release) true
        = .ok (some (numbers.map fromInt)) ∧ Chosen series target numbers
        ∧ ¬ Unfound read target)
      ∨ ((∃ e, overrideIds ⟨false, seriesId⟩ read (target.token release) true = .error e)
        ∧ Unfound read target) := by
  have hsome {numbers : List Int} (hchosen : Chosen series target numbers)
      (h : forcedEpisodeIds ⟨false, seriesId⟩ read (target.token release)
        = .ok (numbers.map fromInt)) :
      overrideIds ⟨false, seriesId⟩ read (target.token release) true
        = .ok (some (numbers.map fromInt)) := by
    have hne : (numbers.map fromInt).isEmpty = false := by
      rw [List.isEmpty_eq_false_iff]
      exact fun h => hchosen.nonempty (List.map_eq_nil_iff.1 h)
    rw [overrideIds_sonarr, h, Except.bind, hne]
    rfl
  have hlone {id : Int} (h : target = .episode id) : Chosen series target [id] := by
    subst h
    refine ⟨List.cons_ne_nil _ _, List.nodup_singleton _, ?_, List.mem_cons_self⟩
    rw [List.forall_mem_singleton]
    exact htarget
  by_cases hneeds : (((release.get "mappedEpisodeInfo").bind asArray).any (!·.isEmpty)
      || (target.token release).episodeId.isNone) = true
  · cases hreads : read with
    | ok episodes =>
      obtain rfl := hread episodes hreads
      have hforced : forcedEpisodeIds ⟨false, seriesId⟩ (.ok episodes) (target.token release)
          = .ok (forcedIds release seriesId episodes (target.token release).episodeId
            (target.token release).seasonNumber) := by
        cases target <;> exact if_pos hneeds
      rcases forcedIds_chosen release seriesId hseries htarget with
        ⟨numbers, hnumbers, hchosen⟩ | ⟨hempty, n, rfl, hnone⟩
      · rw [hnumbers] at hforced
        exact .inl ⟨numbers, hreads ▸ hsome hchosen (hreads ▸ hforced), hchosen,
          not_unfound hchosen fun _ _ => rfl⟩
      · rw [hempty] at hforced
        refine .inr ⟨⟨_, by rw [overrideIds_sonarr, hforced]; rfl⟩, n, rfl, ?_⟩
        rintro _ heq
        exact Except.ok.inj heq ▸ hnone
    | error e =>
      cases target with
      | episode id =>
        have hforced : forcedEpisodeIds ⟨false, seriesId⟩ (.error e)
            ((Target.episode id).token release) = .ok ([id].map fromInt) := if_pos hneeds
        exact .inl ⟨[id], hreads ▸ hsome (hlone rfl) (hreads ▸ hforced), hlone rfl,
          not_unfound (hlone rfl) nofun⟩
      | season n =>
        refine .inr ⟨⟨.arr, ?_⟩, n, rfl, nofun⟩
        have hforced : forcedEpisodeIds ⟨false, seriesId⟩ (.error e)
            ((Target.season n).token release) = .error .arr := if_pos hneeds
        rw [overrideIds_sonarr, hforced]
        rfl
  · cases target with
    | episode id =>
      -- The mapping is empty: it is the searched episode without a look at the series.
      have hnoMapping : mappedEpisodeIds release seriesId [] = none := by
        unfold mappedEpisodeIds
        split
        next => rfl
        next =>
          cases hinfos : (release.get "mappedEpisodeInfo").bind asArray with
          | none => rfl
          | some infos =>
            rw [hinfos] at hneeds
            cases infos with
            | nil => rfl
            | cons e infos => exact absurd rfl hneeds
      have hforced : forcedEpisodeIds ⟨false, seriesId⟩ read ((Target.episode id).token release)
          = .ok ([id].map fromInt) := by
        have hids : forcedEpisodeIds ⟨false, seriesId⟩ read ((Target.episode id).token release)
            = .ok (forcedIds release seriesId [] (some id) none) := if_neg hneeds
        rw [hids, forcedIds, hnoMapping]
        rfl
      exact .inl ⟨[id], hsome (hlone rfl) hforced, hlone rfl, not_unfound (hlone rfl) nofun⟩
    | season n => exact absurd (by simp [Target.token]) hneeds

end Choice

/-! ## The request -/

section Request

variable {release : Json} {seriesId : Int} {series : List Json} {target : Target}
  {numbers : List Int}

@[simp] theorem getField_put_of_ne {key other : String} (h : other ≠ key) (body : Fields)
    (value : Option Json) : getField other (put body key value) = getField other body := by
  cases value with
  | none => rfl
  | some value => exact getField_setField_of_ne h value body

/-- Without a quality or languages to send along, nothing is overridden. -/
theorem shouldOverride_of_missing (h : ¬ (has release "quality" ∧ has release "languages"))
    (ids : Option (List Json)) :
    (grabBody release ⟨false, seriesId⟩ ids true).get "shouldOverride" = none := by
  have hplain : grabBody release ⟨false, seriesId⟩ ids true = .obj (setField "seriesId"
      (fromInt seriesId) (put (put [] "guid" (release.get "guid")) "indexerId"
        (release.get "indexerId"))) := by
    refine if_neg fun hall => h ?_
    simp only [Bool.true_and, Bool.and_eq_true] at hall
    exact hall.1
  rw [hplain, Json.get, getField_setField_of_ne (by decide), getField_put_of_ne (by decide),
    getField_put_of_ne (by decide)]
  rfl

theorem grabBody_goes (h : has release "quality" ∧ has release "languages")
    (hchosen : Chosen series target numbers) :
    GoesToSeries seriesId series target
      (grabBody release ⟨false, seriesId⟩ (some (numbers.map fromInt)) true) := by
  have hne : (numbers.map fromInt).isEmpty = false := by
    rw [List.isEmpty_eq_false_iff]
    exact fun h => hchosen.nonempty (List.map_eq_nil_iff.1 h)
  have hbody : grabBody release ⟨false, seriesId⟩ (some (numbers.map fromInt)) true
      = .obj (put (put (setField "shouldOverride" (.bool true)
          (setField "episodeIds" (.arr (numbers.map fromInt)) (setField "seriesId"
            (fromInt seriesId) (put (put [] "guid" (release.get "guid")) "indexerId"
              (release.get "indexerId"))))) "quality" (release.get "quality")) "languages"
          (release.get "languages")) := by
    refine if_pos ?_
    simp only [Bool.true_and, Bool.and_eq_true, Option.getD_some, hne]
    exact ⟨h, rfl⟩
  rw [hbody]
  refine ⟨?_, ?_, numbers, ?_, hchosen⟩
  · rw [Json.get, getField_put_of_ne (by decide), getField_put_of_ne (by decide),
      getField_setField_of_ne (by decide), getField_setField_of_ne (by decide),
      getField_setField_self]
  · rw [Json.get, getField_put_of_ne (by decide), getField_put_of_ne (by decide),
      getField_setField_self]
  · rw [Json.get, getField_put_of_ne (by decide), getField_put_of_ne (by decide),
      getField_setField_of_ne (by decide), getField_setField_self]

end Request

/-- **A forced grab goes to this series' episodes only** exactly where the release has a
quality and languages to send along, or nothing is sent. -/
theorem goes_to_series_iff (release : Json) (seriesId : Int) (series : List Json)
    (hseries : Series series) (target : Target) (htarget : Issued series target)
    (read : Except String (List Json))
    (hread : ∀ episodes, read = .ok episodes → episodes = series) :
    (∀ body, grabRelease ⟨false, seriesId⟩ read (target.token release) true = .ok body →
        GoesToSeries seriesId series target body)
      ↔ (has release "quality" ∧ has release "languages")
        ∨ ¬ (has release "downloadAllowed" || rejected release) ∨ Unfound read target := by
  have hvalue : (target.token release).value = release := by cases target <;> rfl
  by_cases hallowed : (has release "downloadAllowed" || rejected release) = true
  · have hgrab : grabRelease ⟨false, seriesId⟩ read (target.token release) true
        = (overrideIds ⟨false, seriesId⟩ read (target.token release) true).bind fun ids =>
            .ok (grabBody release ⟨false, seriesId⟩ ids true) := by
      unfold grabRelease
      rw [hvalue, hallowed, if_neg (by decide), if_neg (by simp)]
      rfl
    rw [hgrab, or_iff_right (not_not.2 hallowed)]
    rcases overrideIds_cases release seriesId hseries htarget hread with
      ⟨numbers, hids, hchosen, hfound⟩ | ⟨⟨e, hids⟩, hnone⟩
    · rw [hids, or_iff_left hfound]
      constructor
      · intro h
        by_contra hmissing
        have hoverride := (h _ rfl).2.1
        rw [shouldOverride_of_missing hmissing] at hoverride
        cases hoverride
      · rintro hcomplete body hbody
        rw [← Except.ok.inj hbody]
        exact grabBody_goes hcomplete hchosen
    · rw [hids]
      exact iff_of_true nofun (.inr hnone)
  · have hgrab : ∃ e, grabRelease ⟨false, seriesId⟩ read (target.token release) true
        = .error e := by
      unfold grabRelease
      rw [hvalue, if_pos (by rwa [Bool.not_eq_true', ← Bool.not_eq_true])]
      exact ⟨_, rfl⟩
    obtain ⟨e, hgrab⟩ := hgrab
    rw [hgrab]
    exact iff_of_true nofun (.inr (.inl hallowed))

/-- A series of two episodes. -/
def pair : List Json :=
  [.obj [("id", .num 11), ("seasonNumber", .num 1)],
    .obj [("id", .num 12), ("seasonNumber", .num 1)]]

/-- A rejected release that Sonarr mapped to another series and read no quality of. -/
def unread : Json :=
  .obj [("guid", .str "g"), ("indexerId", .num 4), ("rejected", .bool true),
    ("mappedSeriesId", .num 8), ("mappedEpisodeInfo", .arr [.obj [("id", .num 90)]]),
    ("languages", .arr [.obj [("id", .num 1)]])]

theorem series_pair : Series pair := ⟨by decide +kernel, by decide +kernel⟩

theorem goes_to_series_pair :
    (∀ body, grabRelease ⟨false, 7⟩ (.ok pair) ((Target.season 1).token unread) true = .ok body →
        GoesToSeries 7 pair (.season 1) body)
      ↔ (has unread "quality" ∧ has unread "languages")
        ∨ ¬ (has unread "downloadAllowed" || rejected unread)
        ∨ Unfound (.ok pair) (.season 1) :=
  goes_to_series_iff unread 7 pair series_pair (.season 1) ⟨by decide, by decide⟩ (.ok pair)
    fun _ h => (Except.ok.inj h).symm

/-- **An acknowledged grab is sent without an override**: the release goes where Sonarr
mapped it, which is another series. -/
theorem grabbed_as_mapped :
    grabRelease ⟨false, 7⟩ (.ok pair) ((Target.season 1).token unread) true
        = .ok (.obj [("guid", .str "g"), ("indexerId", .num 4), ("seriesId", .num 7)])
      ∧ ¬ ∀ body, grabRelease ⟨false, 7⟩ (.ok pair) ((Target.season 1).token unread) true
          = .ok body → GoesToSeries 7 pair (.season 1) body := by
  have hbody : grabRelease ⟨false, 7⟩ (.ok pair) ((Target.season 1).token unread) true
      = .ok (.obj [("guid", .str "g"), ("indexerId", .num 4), ("seriesId", .num 7)]) := by
    decide +kernel
  refine ⟨hbody, fun h => ?_⟩
  have hoverride := (h _ hbody).2.1
  revert hoverride
  decide +kernel

end ReleaseGrab

end Foreseerr

import Foreseerr.EpisodeRanges

/-!
# Episode history on Simkl

`mediaactions/simklepisodes.rs` writes a watched episode in the numbering Simkl
indexes, TVDB's where a rule translates it, and reads what Simkl reports back
into TMDB's. Writing goes by the season's rules, or else over AniDB, or else
leaves the number as it is; reading only knows the season's own rules.

An episode's **route** is the rules its number goes through. The two directions
agree on the routes reading knows (a rule of the season that it goes through
far enough, or, where the season has no rules, none at all), and two episodes on
one route part, unless a rule on it folds several episodes into one.
-/

namespace Foreseerr.SimklEpisodes

/-! ## Writing -/

/-- `SimklCoordinates`: the ids (in insertion order) and numbering. -/
structure Coordinates where
  ids : List (String × ℚ)
  season : Int
  episode : Int
deriving DecidableEq, Repr

/-- What is sent of an episode: its season and number. -/
def Coordinates.place (c : Coordinates) : Int × Int := (c.season, c.episode)

/-- A season of a TMDB show. -/
def tmdbSeason (tmdbId season : Int) : IdRef := ⟨"tmdb_show", toString tmdbId, some season⟩

/-- The id a translation adds. -/
def idOf (key : String) (found : Option Translation) : List (String × ℚ) :=
  match (found.filter fun t => t.target.id ≠ "").bind fun t => numberOfStr t.target.id.toList with
  | none => []
  | some n => if n = 0 then [] else [(key, n)]

/-- `simklCoordinates`. -/
def coordinates (stored : List Edge) (tmdbId season episode : Int) : Coordinates :=
  let source := tmdbSeason tmdbId season
  let tvdb := translateBridged stored source episode "tvdb_show" ["anidb"]
  let anidb := translateBridged stored source episode "anidb" []
  let ids := ("tmdb", (tmdbId : ℚ)) :: (idOf "tvdb" tvdb ++ idOf "anidb" anidb)
  match tvdb with
  | some t => ⟨ids, t.season, t.episode⟩
  | none => ⟨ids, season, episode⟩

/-- `setWatched`: what is sent, where something is. -/
def setWatched (stored : List Edge) (tmdbId season episode : Int) : Option Coordinates :=
  if season < 0 ∨ episode < 1 then none else some (coordinates stored tmdbId season episode)

/-! ## Reading -/

/-- The numbers of a hash set, sorted. -/
def sortedSet (numbers : List Int) : List Int := numbers.dedup.mergeSort

/-- The last episode reading tries a rule with. -/
def lastTried (rule : RangeRule) : Int := rule.source.stop.getD (rule.source.start + 500)

/-- The episodes reading tries a rule with. -/
def tried (rule : RangeRule) : List Int :=
  (List.range (lastTried rule - rule.source.start + 1).toNat).map fun n : Nat =>
    rule.source.start + (n : Int)

/-- `tmdbEpisodeNumbers`: the season's episodes among the coordinates Simkl reports. -/
def tmdbEpisodeNumbers (stored : List Edge) (tmdbId season : Int) (reported : List (Int × Int)) :
    List Int :=
  if reported = [] then []
  else
    let rules := episodeRules stored (tmdbSeason tmdbId season) "tvdb_show"
    if rules = [] then sortedSet ((reported.filter fun c => c.1 == season).map (·.2))
    else sortedSet (rules.flatMap fun (rule, target) =>
      (tried rule).filter fun episode =>
        (rule.apply episode).any fun mapped => (target.season.getD season, mapped) ∈ reported)

theorem mem_sortedSet {n : Int} {numbers : List Int} : n ∈ sortedSet numbers ↔ n ∈ numbers := by
  rw [sortedSet, List.mem_mergeSort, List.mem_dedup]

theorem mem_tried {rule : RangeRule} {episode : Int} :
    episode ∈ tried rule ↔ rule.source.start ≤ episode ∧ episode ≤ lastTried rule := by
  simp only [tried, List.mem_map, List.mem_range]
  constructor
  · rintro ⟨n, hn, rfl⟩
    omega
  · rintro ⟨hstart, hlast⟩
    exact ⟨(episode - rule.source.start).toNat, by omega, by omega⟩

/-- Reading lists the episodes a rule of the season it tries maps to what is reported. -/
theorem mem_tmdbEpisodeNumbers {stored : List Edge} {tmdbId season episode : Int} {c : Int × Int}
    {r : RangeRule × Edge} {mapped : Int}
    (hr : r ∈ rulesFrom stored (tmdbSeason tmdbId season) "tvdb_show" none)
    (happly : r.1.apply episode = some mapped) (htried : episode ≤ lastTried r.1)
    (hc : c = (((refOf r.2.dstNs r.2.dstId r.2.dstScope).season).getD season, mapped)) :
    episode ∈ tmdbEpisodeNumbers stored tmdbId season [c] := by
  have hrule : (r.1, refOf r.2.dstNs r.2.dstId r.2.dstScope) ∈
      episodeRules stored (tmdbSeason tmdbId season) "tvdb_show" := List.mem_map.2 ⟨r, hr, rfl⟩
  have hstart : r.1.source.start ≤ episode := by
    have hhas := (RangeRule.apply_eq_some happly).1
    simp only [EpisodeRange.has, Bool.and_eq_true, decide_eq_true_eq] at hhas
    exact hhas.1
  unfold tmdbEpisodeNumbers
  rw [if_neg (List.cons_ne_nil _ _)]
  dsimp only
  rw [if_neg (List.ne_nil_of_mem hrule), mem_sortedSet, List.mem_flatMap]
  refine ⟨_, hrule, List.mem_filter.2 ⟨mem_tried.2 ⟨hstart, htried⟩, ?_⟩⟩
  simp [happly, hc]

/-- Where the season has no rules, a number is read as it is. -/
theorem mem_tmdbEpisodeNumbers_of_nil {stored : List Edge} {tmdbId season episode : Int}
    (hnil : episodeRules stored (tmdbSeason tmdbId season) "tvdb_show" = []) :
    episode ∈ tmdbEpisodeNumbers stored tmdbId season [(season, episode)] := by
  simp [tmdbEpisodeNumbers, hnil, mem_sortedSet]

/-! ## Routes -/

/-- A translation with the rule that decides it. -/
def decided (stored : List Edge) (source : IdRef) (episode : Int) (ns : String)
    (scope : Option String) : Option (RangeRule × Translation) :=
  (translateOnce stored source episode ns scope).bind fun t =>
    (firstRule (rulesFrom stored source ns scope) episode).map fun r => (r.1, t)

/-- **The route of an episode**: the rules its number goes through on its way to Simkl. -/
def route (stored : List Edge) (tmdbId season episode : Int) : List RangeRule :=
  match decided stored (tmdbSeason tmdbId season) episode "tvdb_show" none with
  | some (rule, _) => [rule]
  | none =>
    match decided stored (tmdbSeason tmdbId season) episode "anidb" none with
    | none => []
    | some (rule, hop) =>
      match decided stored hop.target hop.episode "tvdb_show" (some hop.targetScope) with
      | none => []
      | some (next, _) => [rule, next]

/-- The number an episode gets through some rules. -/
def follow (rules : List RangeRule) (episode : Int) : Option Int :=
  rules.foldlM (fun episode rule => rule.apply episode) episode

section Routes

variable {stored : List Edge} {source : IdRef} {ns : String} {scope : Option String}
  {tmdbId season episode : Int}

theorem decided_eq_none (h : decided stored source episode ns scope = none) :
    translateOnce stored source episode ns scope = none := by
  cases ht : translateOnce stored source episode ns scope with
  | none => rfl
  | some t =>
    obtain ⟨r, hr, -⟩ := translateOnce_eq_some ht
    rw [decided, ht, Option.bind_some, hr] at h
    cases h

theorem decided_eq_some {rule : RangeRule} {t : Translation}
    (h : decided stored source episode ns scope = some (rule, t)) :
    translateOnce stored source episode ns scope = some t ∧ rule.apply episode = some t.episode ∧
      ∃ edge, (rule, edge) ∈ rulesFrom stored source ns scope ∧
        t.season =
          ((refOf edge.dstNs edge.dstId edge.dstScope).season.or source.season).getD 1 := by
  unfold decided at h
  obtain ⟨t', ht, hmap⟩ := Option.bind_eq_some_iff.1 h
  obtain ⟨r, hr, heq⟩ := Option.map_eq_some_iff.1 hmap
  cases heq
  obtain ⟨r', hr', happly, hedge⟩ := translateOnce_eq_some ht
  cases hr.symm.trans hr'
  exact ⟨ht, happly, r.2, mem_of_firstRule hr, congrArg Translation.season hedge⟩

/-- **A route is what translates**: an episode without one is not translated, and one with
one gets the number at its end. -/
theorem translated_route (stored : List Edge) (tmdbId season episode : Int) :
    let translated :=
      translateBridged stored (tmdbSeason tmdbId season) episode "tvdb_show" ["anidb"]
    (route stored tmdbId season episode = [] ∧ translated = none) ∨
      (route stored tmdbId season episode ≠ [] ∧ ∃ t, translated = some t ∧
        follow (route stored tmdbId season episode) episode = some t.episode) := by
  have hbridge : ¬ ("anidb" = "tvdb_show" ∨ "anidb" = (tmdbSeason tmdbId season).ns) := by
    simp [tmdbSeason]
  unfold route translateBridged
  dsimp only
  cases hdirect : decided stored (tmdbSeason tmdbId season) episode "tvdb_show" none with
  | some found =>
    obtain ⟨rule, t⟩ := found
    obtain ⟨ht, happly, -⟩ := decided_eq_some hdirect
    rw [ht, Option.some_or]
    exact .inr ⟨List.cons_ne_nil _ _, t, rfl, by simp [follow, happly]⟩
  | none =>
    rw [decided_eq_none hdirect, Option.none_or, List.findSome?_cons, translateOver,
      if_neg hbridge]
    cases hhop : decided stored (tmdbSeason tmdbId season) episode "anidb" none with
    | none =>
      rw [decided_eq_none hhop]
      exact .inl ⟨rfl, rfl⟩
    | some found =>
      obtain ⟨rule, hop⟩ := found
      obtain ⟨ht, happly, -⟩ := decided_eq_some hhop
      rw [ht, Option.bind_some]
      dsimp only
      cases hlanded : decided stored hop.target hop.episode "tvdb_show" (some hop.targetScope) with
      | none =>
        rw [decided_eq_none hlanded]
        exact .inl ⟨rfl, rfl⟩
      | some found =>
        obtain ⟨next, landed⟩ := found
        obtain ⟨htn, hnext, -⟩ := decided_eq_some hlanded
        rw [htn]
        exact .inr ⟨List.cons_ne_nil _ _, _, rfl, by simp [follow, happly, hnext]⟩

/-- **What is sent is the number at the end of the route.** -/
theorem follow_route (stored : List Edge) (tmdbId season episode : Int) :
    follow (route stored tmdbId season episode) episode
      = some (coordinates stored tmdbId season episode).episode := by
  rcases translated_route stored tmdbId season episode with ⟨hroute, hnone⟩ | ⟨-, t, ht, hfollow⟩
  · rw [hroute, coordinates, hnone]
    rfl
  · rw [hfollow, coordinates, ht]

/-- An episode that goes through no rule keeps its numbers. -/
theorem place_of_route_nil (hroute : route stored tmdbId season episode = []) :
    (coordinates stored tmdbId season episode).place = (season, episode) := by
  rcases translated_route stored tmdbId season episode with ⟨-, hnone⟩ | ⟨hne, -⟩
  · rw [coordinates, hnone]
    rfl
  · exact absurd hroute hne

/-- Rules that do not fold take different numbers to different ones. -/
theorem follow_inj {rules : List RangeRule} (hfolds : ∀ rule ∈ rules, ¬ rule.Folds) {a b c : Int}
    (ha : follow rules a = some c) (hb : follow rules b = some c) : a = b := by
  induction rules generalizing a b with
  | nil => exact Option.some.inj (ha.trans hb.symm)
  | cons rule rules ih =>
    rw [follow, List.foldlM_cons, Option.bind_eq_bind, Option.bind_eq_some_iff] at ha hb
    obtain ⟨a', ha', ha⟩ := ha
    obtain ⟨b', hb', hb⟩ := hb
    have hrest := ih (fun rule hrule => hfolds rule (List.mem_cons_of_mem _ hrule)) ha hb
    exact RangeRule.apply_inj (hfolds rule List.mem_cons_self) ha' (hrest ▸ hb')

/-- What comes out of some rules is in the target range of the last one. -/
theorem target_has_of_follow {rules : List RangeRule} {a c : Int} (h : follow rules a = some c) :
    ∀ rule ∈ rules.getLast?, rule.target.has c := by
  induction rules generalizing a with
  | nil => simp
  | cons rule rules ih =>
    rw [follow, List.foldlM_cons, Option.bind_eq_bind, Option.bind_eq_some_iff] at h
    obtain ⟨b, hb, hrest⟩ := h
    cases rules with
    | nil =>
      rintro _ ⟨⟩
      cases hrest
      exact RangeRule.target_has hb
    | cons next rules =>
      rw [List.getLast?_cons_cons]
      exact ih hrest

/-- An episode a rule of the season decides is read back, as far as reading tries the rule. -/
theorem reads_route_of_rule {rule : RangeRule}
    (hroute : route stored tmdbId season episode = [rule]) (htried : episode ≤ lastTried rule) :
    episode ∈ tmdbEpisodeNumbers stored tmdbId season
      [(coordinates stored tmdbId season episode).place] := by
  unfold route at hroute
  cases hdirect : decided stored (tmdbSeason tmdbId season) episode "tvdb_show" none with
  | some found =>
    obtain ⟨rule', t⟩ := found
    rw [hdirect] at hroute
    cases hroute
    obtain ⟨ht, happly, edge, hmem, hseason⟩ := decided_eq_some hdirect
    refine mem_tmdbEpisodeNumbers hmem happly htried ?_
    have hsent : (coordinates stored tmdbId season episode).place = (t.season, t.episode) := by
      simp [coordinates, translateBridged, ht, Coordinates.place]
    rw [hsent, hseason]
    cases (refOf edge.dstNs edge.dstId edge.dstScope).season with
    | none => rfl
    | some s => rfl
  | none =>
    rw [hdirect] at hroute
    dsimp only at hroute
    split at hroute
    · cases hroute
    · split at hroute
      · cases hroute
      · cases hroute

/-! ## Writing and reading -/

/-- Two episodes of one season are only sent as the same coordinates where a rule on their
common route folds, or on two routes of which one is none or whose last rules share the
number. -/
theorem shared_place {other : Int} (hne : other ≠ episode)
    (hplace : (coordinates stored tmdbId season other).place
      = (coordinates stored tmdbId season episode).place) :
    (route stored tmdbId season other = route stored tmdbId season episode ∧
      ∃ rule ∈ route stored tmdbId season episode, rule.Folds) ∨
    (route stored tmdbId season other ≠ route stored tmdbId season episode ∧
      ∀ rule ∈ (route stored tmdbId season other).getLast?,
        ∀ rule' ∈ (route stored tmdbId season episode).getLast?,
          rule.target.has (coordinates stored tmdbId season episode).episode ∧
            rule'.target.has (coordinates stored tmdbId season episode).episode) := by
  have hnumber : (coordinates stored tmdbId season other).episode
      = (coordinates stored tmdbId season episode).episode := congrArg Prod.snd hplace
  have hother := follow_route stored tmdbId season other
  have hepisode := follow_route stored tmdbId season episode
  rw [hnumber] at hother
  by_cases hroute : route stored tmdbId season other = route stored tmdbId season episode
  · refine .inl ⟨hroute, ?_⟩
    by_contra hnone
    push Not at hnone
    rw [hroute] at hother
    exact hne (follow_inj hnone hother hepisode)
  · refine .inr ⟨hroute, fun rule hrule rule' hrule' => ?_⟩
    exact ⟨target_has_of_follow hother rule hrule, target_has_of_follow hepisode rule' hrule'⟩

end Routes

/-! ### A rule, a bridge and a fold -/

/-- An edge between two seasons with ranges. -/
def rangeEdge (source target : String × String × String) (ranges : String × String) : Edge where
  dataset := "anibridge"
  srcNs := source.1
  srcId := source.2.1
  srcScope := source.2.2
  dstNs := target.1
  dstId := target.2.1
  dstScope := target.2.2
  srcRange := some ranges.1
  dstRange := some ranges.2

/-- The first season is the second half of TVDB's second. -/
def ruled : List Edge :=
  [rangeEdge ("tmdb_show", "1", "s1") ("tvdb_show", "9", "s2") ("1-12", "13-24")]

/-- The first season is AniDB's, and TVDB's second. -/
def bridged : List Edge :=
  [rangeEdge ("tmdb_show", "1", "s1") ("anidb", "5", "R") ("1-12", "1-12"),
    rangeEdge ("anidb", "5", "R") ("tvdb_show", "9", "s2") ("1-12", "1-12")]

/-- Two episodes of the first season are one of TVDB's. -/
def folded : List Edge :=
  [rangeEdge ("tmdb_show", "1", "s1") ("tvdb_show", "9", "s1") ("1-4", "1-2|2")]

end Foreseerr.SimklEpisodes

import Foreseerr.Double
import Foreseerr.JsText
import Foreseerr.MappingCaches
import Mathlib.Data.List.Dedup
import Mathlib.Algebra.Order.Ring.Int
import Mathlib.Data.List.Basic

/-!
# Episode ranges

The episode half of the mapping layer (`mappinglayer/edges.rs`,
`mediaactions/anilistmapping.rs`). An edge between two ids may state a range of
episodes on either side, such as `1-13`, `13-` or `1-2|2`; a pair of them is one
or more **rules** that translate episode numbers. An episode is translated by
the rules of its season towards a namespace, unless they disagree, or else over
a bridge, by a rule to a third namespace and one from there on.

What every caller relies on is that the rule that decides is the *first* one
that has the episode (`translateOnce_eq_some`), and that a rule is injective
unless it folds several episodes into one (`apply_inj`).
-/

namespace Foreseerr

/-! ## Ranges and rules -/

/-- `EpisodeRange`: `none` ends an open range such as `13-`. -/
structure EpisodeRange where
  start : Int
  stop : Option Int
deriving DecidableEq, Repr

/-- `is_regex_space`: `\s` in a JavaScript regular expression. -/
def isRegexSpace (c : Char) : Bool := c.toNat = 0x85 || isJsSpace c

/-- `number_of_str`, as the double it is read to; `none` for one that is not finite. -/
def readNumber (text : List Char) : Option ℚ := (numberOfStr text).bind double

/-- The last case of `parse_episode_range`: one number. -/
def parseSingle (text : List Char) : Option EpisodeRange :=
  match readNumber text with
  | none => none
  | some single =>
    if single < 0 then none else (intOf single).map fun n => ⟨n, some n⟩

/-- `parse_episode_range`: `1-13`, `13-`, `5` or `-13`. -/
def parseEpisodeRange (range : List Char) : Option EpisodeRange :=
  let text := jsTrim range
  if text = [] then none
  else match splitOnce '-' text with
    | none => parseSingle text
    | some (a, b) =>
      let a := trimEnd isRegexSpace a
      let b := b.dropWhile isRegexSpace
      if ¬ areDigits a ∨ ¬ areDigits b then parseSingle text
      else
        (if a = [] then some 1 else readNumber a).bind fun start =>
          if b = [] then (intOf start).map fun start => ⟨start, none⟩
          else (readNumber b).bind fun stop =>
            if stop < start then none
            else (intOf start).bind fun start => (intOf stop).map fun stop => ⟨start, some stop⟩

/-- `range_contains`. -/
def EpisodeRange.has (range : EpisodeRange) (episode : Int) : Bool :=
  range.start ≤ episode && range.stop.all fun stop => decide (episode ≤ stop)

/-- `RangeRule`: `ratio` source episodes are one target episode, or one source episode
`expand` of them. -/
structure RangeRule where
  source : EpisodeRange
  target : EpisodeRange
  ratio : Int
  expand : Option Int
deriving DecidableEq, Repr

/-- How many source episodes are one target episode. -/
def RangeRule.fold (rule : RangeRule) : Int := if 0 < rule.ratio then rule.ratio else 1

/-- How many target episodes the next one is away. -/
def RangeRule.stride (rule : RangeRule) : Int := (rule.expand.filter (0 < ·)).getD 1

/-- `apply_episode_rule`. -/
def RangeRule.apply (rule : RangeRule) (episode : Int) : Option Int :=
  if rule.source.has episode then
    let offset := episode - rule.source.start
    let mapped := rule.target.start + offset / rule.fold * rule.stride
    if rule.target.stop.any (· < mapped) then none else some mapped
  else none

/-- The parts of a target range with the ranges of source episodes they take, one after
another. -/
def segmentRules : Int → List EpisodeRange → Option (List RangeRule)
  | _, [] => some []
  | start, target :: targets =>
    match target.stop with
    | none => none
    | some stop =>
      let length := stop - target.start + 1
      (segmentRules (start + length) targets).map fun rules =>
        ⟨⟨start, some (start + length - 1)⟩, target, 1, none⟩ :: rules

/-- The ratio of a target range, or its expansion. -/
def ratioOf (part : Option (List Char)) : Int × Option Int :=
  match part.bind readNumber with
  | none => (1, none)
  | some signed =>
    if signed.den = 1 ∧ 1 < signed then ((intOf signed).getD 1, none)
    else if signed.den = 1 ∧ signed < -1 then (1, intOf (-signed))
    else (1, none)

/-- `parse_range_pair`. -/
def parseRangePair (sourceRange targetRange : String) : List RangeRule :=
  match parseEpisodeRange sourceRange.toList with
  | none => []
  | some source =>
    let parts := targetRange.toList.splitOn '|'
    let (ratio, expand) := ratioOf parts[1]?
    match ((parts.headD []).splitOn ',').mapM parseEpisodeRange with
    | none => []
    | some [target] => [⟨source, target, ratio, expand⟩]
    | some targets =>
      if parts[1]?.isSome then [] else (segmentRules source.start targets).getD []

example : parseRangePair "1-4" "1-2|2" = [⟨⟨1, some 4⟩, ⟨1, some 2⟩, 2, none⟩] := by decide +kernel
example : parseRangePair "1-5" "11-13,21-22" =
    [⟨⟨1, some 3⟩, ⟨11, some 13⟩, 1, none⟩, ⟨⟨4, some 5⟩, ⟨21, some 22⟩, 1, none⟩] := by
  decide +kernel
example : parseEpisodeRange "13-".toList = some ⟨13, none⟩ := by decide +kernel

namespace RangeRule

variable {rule : RangeRule} {a b c : Int}

/-- The rule puts several source episodes on one target episode. -/
def Folds (rule : RangeRule) : Prop := 1 < rule.fold

instance : DecidablePred Folds := fun rule => inferInstanceAs (Decidable (1 < rule.fold))

theorem fold_pos (rule : RangeRule) : 0 < rule.fold := by
  unfold fold
  split
  case isTrue h => exact h
  case isFalse => exact one_pos

theorem stride_pos (rule : RangeRule) : 0 < rule.stride := by
  unfold stride
  cases hexpand : rule.expand.filter (0 < ·) with
  | none => exact one_pos
  | some n => simpa using (Option.filter_eq_some_iff.1 hexpand).2

/-- What a rule answers, where it does. -/
theorem apply_eq_some (h : rule.apply a = some c) :
    rule.source.has a ∧ c = rule.target.start + (a - rule.source.start) / rule.fold * rule.stride ∧
      rule.target.stop.any (· < c) = false := by
  unfold apply at h
  split at h
  case isTrue hhas =>
    dsimp only at h
    split at h
    case isTrue => cases h
    case isFalse hstop =>
      cases h
      exact ⟨hhas, rfl, Bool.not_eq_true _ ▸ hstop⟩
  case isFalse => cases h

/-- **A rule that does not fold is injective.** -/
theorem apply_inj (hfolds : ¬ rule.Folds) (ha : rule.apply a = some c)
    (hb : rule.apply b = some c) : a = b := by
  have hfold : rule.fold = 1 := by
    have hpos := fold_pos rule
    unfold Folds at hfolds
    omega
  have heq := (apply_eq_some ha).2.1.symm.trans (apply_eq_some hb).2.1
  rw [hfold, Int.ediv_one, Int.ediv_one, add_right_inj] at heq
  have hoffset := Int.eq_of_mul_eq_mul_right (stride_pos rule).ne' heq
  omega

/-- What a rule answers is an episode of its target range. -/
theorem target_has (h : rule.apply a = some c) : rule.target.has c := by
  obtain ⟨hhas, hc, hstop⟩ := apply_eq_some h
  simp only [EpisodeRange.has, Bool.and_eq_true, decide_eq_true_eq] at hhas ⊢
  have hnonneg : 0 ≤ (a - rule.source.start) / rule.fold * rule.stride :=
    mul_nonneg (Int.ediv_nonneg (sub_nonneg.2 hhas.1) (fold_pos rule).le) (stride_pos rule).le
  refine ⟨by omega, ?_⟩
  cases hend : rule.target.stop with
  | none => rfl
  | some stop =>
    rw [hend] at hstop
    simpa using hstop

end RangeRule

/-! ## The rules of an id -/

/-- `season_scope`. -/
def seasonScope (season : Int) : String := "s" ++ toString season

/-- `scope_season`: the season `s<digits>` names. -/
def scopeSeason (scope : String) : Option Int :=
  match scope.toList with
  | 's' :: digits =>
    if digits ≠ [] ∧ areDigits digits then (numberOfStr digits).bind intOf else none
  | _ => none

/-- `refKey`. -/
def IdRef.key (r : IdRef) : String :=
  match r.season with
  | none => r.ns ++ ":" ++ r.id
  | some season => r.ns ++ ":" ++ r.id ++ ":s" ++ toString season

/-- `ref_of`. -/
def refOf (ns id scope : String) : IdRef := ⟨ns, id, scopeSeason scope⟩

/-- `datasetRank`: a lower rank answers first. -/
def datasetRank (key : String) : Int :=
  if key = "anibridge" then 1 else if key = "fribb" then 2 else 2 ^ 63 - 1

/-- `edges_from`, of the edges the enabled datasets point at. -/
def edgesFrom (stored : List Edge) (ns id : String) : List Edge :=
  stored.filter fun e =>
    e.srcNs == ns && e.srcId == id && (e.dataset == "anibridge" || e.dataset == "fribb")

/-- The best rank of each source scope so far, with one more edge. -/
def noteRank (best : List (String × Int)) (edge : Edge) : List (String × Int) :=
  if best.any fun entry => entry.1 == edge.srcScope then
    best.map fun entry =>
      if entry.1 = edge.srcScope then (entry.1, min entry.2 (datasetRank edge.dataset)) else entry
  else best ++ [(edge.srcScope, datasetRank edge.dataset)]

/-- `edges_to`: for each source scope, the edges of the best-ranked dataset that reaches a
namespace. -/
def edgesTo (edges : List Edge) (ns : String) : List Edge :=
  let reaching := edges.filter fun e => e.dstNs == ns
  let best := reaching.foldl noteRank []
  reaching.filter fun e => best.any fun entry =>
    entry.1 == e.srcScope && entry.2 == datasetRank e.dataset

/-- `scoped_edges`: an id's edges in a scope, which is the given one or the id's season, and
for AniDB the regular episodes. -/
def scopedEdges (stored : List Edge) (source : IdRef) (scope : Option String) : List Edge :=
  let edges := edgesFrom stored source.ns source.id
  let wanted := scope.or ((source.season.map seasonScope).or
    (if source.ns = "anidb" then some "R" else none))
  match wanted with
  | none => edges
  | some wanted => edges.filter fun e => e.srcScope == wanted

/-- `rules_of`: each rule with its edge. -/
def rulesOf (edges : List Edge) (ns : String) : List (RangeRule × Edge) :=
  let ranged := edges.filter fun e => e.srcRange.any (· ≠ "") && e.dstRange.any (· ≠ "")
  (edgesTo ranged ns).flatMap fun edge =>
    match edge.srcRange, edge.dstRange with
    | some src, some dst => (parseRangePair src dst).map fun rule => (rule, edge)
    | _, _ => []

/-- The rules of an id towards a namespace. -/
def rulesFrom (stored : List Edge) (source : IdRef) (ns : String) (scope : Option String) :
    List (RangeRule × Edge) :=
  rulesOf (scopedEdges stored source scope) ns

/-! ## Translating an episode -/

/-- `EpisodeTranslation`. -/
structure Translation where
  target : IdRef
  targetScope : String
  season : Int
  episode : Int
  dataset : String
deriving DecidableEq, Repr

/-- What an edge makes of an episode one of its rules has mapped. -/
def translationOf (source : IdRef) (edge : Edge) (mapped : Int) : Translation :=
  let target := refOf edge.dstNs edge.dstId edge.dstScope
  ⟨target, edge.dstScope, (target.season.or source.season).getD 1, mapped, edge.dataset⟩

/-- The loop of `translate`: every rule that has the episode, each place once. -/
def translateRules (source : IdRef) (episode : Int) :
    List String → List (RangeRule × Edge) → List Translation
  | _, [] => []
  | seen, (rule, edge) :: rules =>
    match rule.apply episode with
    | none => translateRules source episode seen rules
    | some mapped =>
      let target := refOf edge.dstNs edge.dstId edge.dstScope
      let place := target.key ++ ":" ++ edge.dstScope ++ ":e" ++ toString mapped
      if place ∈ seen then translateRules source episode seen rules
      else translationOf source edge mapped :: translateRules source episode (place :: seen) rules

/-- `translate_once`: the translation, unless the ranges disagree. -/
def translateOnce (stored : List Edge) (source : IdRef) (episode : Int) (ns : String)
    (scope : Option String) : Option Translation :=
  let results := translateRules source episode [] (rulesFrom stored source ns scope)
  let places := results.map fun r =>
    r.target.id ++ ":" ++ toString r.season ++ ":" ++ toString r.episode
  if 1 < places.dedup.length then none else results.head?

/-- Over one bridge: the rules to it, and from there on. -/
def translateOver (stored : List Edge) (source : IdRef) (episode : Int) (ns bridge : String) :
    Option Translation :=
  if bridge = ns ∨ bridge = source.ns then none
  else (translateOnce stored source episode bridge none).bind fun hop =>
    (translateOnce stored hop.target hop.episode ns (some hop.targetScope)).map fun landed =>
      { landed with dataset := hop.dataset ++ "+" ++ landed.dataset }

/-- `translate_bridged`: direct, else through each bridge namespace in turn. -/
def translateBridged (stored : List Edge) (source : IdRef) (episode : Int) (ns : String)
    (bridges : List String) : Option Translation :=
  (translateOnce stored source episode ns none).or
    (bridges.findSome? (translateOver stored source episode ns))

/-- `episode_rules`: each rule with its target. -/
def episodeRules (stored : List Edge) (source : IdRef) (ns : String) : List (RangeRule × IdRef) :=
  (rulesFrom stored source ns none).map fun (rule, edge) =>
    (rule, refOf edge.dstNs edge.dstId edge.dstScope)

/-! ## The rule that decides -/

/-- The first rule that has an episode. -/
def firstRule (rules : List (RangeRule × Edge)) (episode : Int) : Option (RangeRule × Edge) :=
  rules.find? fun r => (r.1.apply episode).isSome

theorem head?_translateRules (source : IdRef) (episode : Int) (rules : List (RangeRule × Edge)) :
    (translateRules source episode [] rules).head? = (firstRule rules episode).bind fun r =>
      (r.1.apply episode).map (translationOf source r.2) := by
  induction rules with
  | nil => rfl
  | cons r rules ih =>
    obtain ⟨rule, edge⟩ := r
    unfold translateRules firstRule
    cases happly : rule.apply episode with
    | none =>
      rw [List.find?_cons_of_neg (by simp [happly])]
      exact ih
    | some mapped =>
      rw [List.find?_cons_of_pos (by simp [happly])]
      simp [happly]

/-- **A translation is the first rule's** that has the episode. -/
theorem translateOnce_eq_some {stored : List Edge} {source : IdRef} {episode : Int} {ns : String}
    {scope : Option String} {t : Translation}
    (h : translateOnce stored source episode ns scope = some t) :
    ∃ r, firstRule (rulesFrom stored source ns scope) episode = some r ∧
      r.1.apply episode = some t.episode ∧ t = translationOf source r.2 t.episode := by
  unfold translateOnce at h
  dsimp only at h
  split at h
  · cases h
  · rw [head?_translateRules, Option.bind_eq_some_iff] at h
    obtain ⟨r, hr, hmap⟩ := h
    obtain ⟨mapped, happly, rfl⟩ := Option.map_eq_some_iff.1 hmap
    exact ⟨r, hr, happly, rfl⟩

theorem mem_of_firstRule {rules : List (RangeRule × Edge)} {episode : Int} {r : RangeRule × Edge}
    (h : firstRule rules episode = some r) : r ∈ rules :=
  List.mem_of_find?_eq_some h

end Foreseerr

import Foreseerr.EpisodeRanges
import Mathlib.Algebra.BigOperators.Group.List.Basic

/-!
# What a pair of ranges maps

The rules of a pair of range texts (`parse_range_pair`) against what the texts state: the
source range and the target ranges. A single target keeps the source range as it is. Runs
of targets are laid out one after another from its start, each as long as it is, and the
end of the source range is not looked at: what they map stays inside it exactly when
they are together no longer than it is.
-/

namespace Foreseerr

namespace EpisodeRange

variable {range : EpisodeRange} {episode : Int}

theorem has_iff : range.has episode = true ↔
    range.start ≤ episode ∧ ∀ stop, range.stop = some stop → episode ≤ stop := by
  cases hstop : range.stop <;> simp [has, hstop]

/-- How many episodes a closed range has. -/
def span (range : EpisodeRange) : Int := (range.stop.map fun stop => stop - range.start + 1).getD 0

/-- A range that starts before it ends. -/
def Forward (range : EpisodeRange) : Prop := ∀ stop, range.stop = some stop → range.start ≤ stop

theorem Forward.span_nonneg (h : range.Forward) : 0 ≤ range.span := by
  cases hstop : range.stop with
  | none => simp [span, hstop]
  | some stop =>
    have := h stop hstop
    simp only [span, hstop, Option.map_some, Option.getD_some]
    omega

end EpisodeRange

/-! ## The texts -/

theorem intOf_le {a b : ℚ} {m n : Int} (hle : ¬ b < a) (ha : intOf a = some m)
    (hb : intOf b = some n) : m ≤ n := by
  unfold intOf at ha hb
  split at ha
  next hm =>
    split at hb
    next hn =>
      cases ha
      cases hb
      rw [← Rat.coe_int_num_of_den_eq_one hm.1, ← Rat.coe_int_num_of_den_eq_one hn.1] at hle
      exact_mod_cast not_lt.1 hle
    next => cases hb
  next => cases ha

/-- A range that parses starts before it ends. -/
theorem parseEpisodeRange_forward {text : List Char} {range : EpisodeRange}
    (h : parseEpisodeRange text = some range) : range.Forward := by
  have hsingle : ∀ text, parseSingle text = some range → range.Forward := by
    intro text h stop hstop
    unfold parseSingle at h
    split at h
    next => cases h
    next =>
      split at h
      next => cases h
      next =>
        obtain ⟨n, -, rfl⟩ := Option.map_eq_some_iff.1 h
        cases hstop
        exact le_rfl
  unfold parseEpisodeRange at h
  dsimp only at h
  split at h
  next => cases h
  next =>
    split at h
    next => exact hsingle _ h
    next =>
      split at h
      next => exact hsingle _ h
      next =>
        obtain ⟨start, -, h⟩ := Option.bind_eq_some_iff.1 h
        split at h
        next =>
          obtain ⟨n, -, rfl⟩ := Option.map_eq_some_iff.1 h
          intro stop hstop
          cases hstop
        next =>
          obtain ⟨stop, -, h⟩ := Option.bind_eq_some_iff.1 h
          split at h
          next => cases h
          next hle =>
            obtain ⟨m, hm, h⟩ := Option.bind_eq_some_iff.1 h
            obtain ⟨n, hn, rfl⟩ := Option.map_eq_some_iff.1 h
            intro stop' hstop
            cases hstop
            exact intOf_le hle hm hn

/-- The texts of the target ranges. -/
def targetTexts (targetRange : String) : List (List Char) :=
  ((targetRange.toList.splitOn '|').headD []).splitOn ','

/-- The target ranges that a text states. -/
def statedTargets (targetRange : String) : List EpisodeRange :=
  (targetTexts targetRange).filterMap parseEpisodeRange

/-- A text with a ratio. -/
def hasRatio (targetRange : String) : Bool := (targetRange.toList.splitOn '|')[1]?.isSome

theorem mapM_parse {texts : List (List Char)} {targets : List EpisodeRange}
    (h : texts.mapM parseEpisodeRange = some targets) :
    texts.filterMap parseEpisodeRange = targets ∧ ∀ target ∈ targets, target.Forward := by
  induction texts generalizing targets with
  | nil =>
    cases h
    exact ⟨rfl, by simp⟩
  | cons text texts ih =>
    rw [List.mapM_cons] at h
    obtain ⟨target, htarget, h⟩ := Option.bind_eq_some_iff.1 h
    obtain ⟨rest, hrest, h⟩ := Option.bind_eq_some_iff.1 h
    cases h
    obtain ⟨hstated, hforward⟩ := ih hrest
    exact ⟨by rw [List.filterMap_cons, htarget, hstated],
      List.forall_mem_cons.2 ⟨parseEpisodeRange_forward htarget, hforward⟩⟩

/-! ## Runs -/

/-- Rules whose source ranges follow each other from an episode on. -/
def Consecutive : Int → List RangeRule → Prop
  | _, [] => True
  | start, rule :: rules =>
    rule.source.start = start
      ∧ ∃ stop, rule.source.stop = some stop ∧ start ≤ stop + 1 ∧ Consecutive (stop + 1) rules

/-- How many episodes runs have together. -/
def total (targets : List EpisodeRange) : Int := (targets.map EpisodeRange.span).sum

theorem Consecutive.start_le {start : Int} {rules : List RangeRule} (h : Consecutive start rules) :
    ∀ rule ∈ rules, start ≤ rule.source.start := by
  induction rules generalizing start with
  | nil => simp
  | cons rule rules ih =>
    obtain ⟨hstart, stop, -, hle, hrest⟩ := h
    rw [List.forall_mem_cons]
    exact ⟨hstart.ge, fun r hr => hle.trans (ih hrest r hr)⟩

/-- Consecutive ranges share no episode. -/
theorem Consecutive.disjoint {start : Int} {rules : List RangeRule} (h : Consecutive start rules) :
    rules.Pairwise fun r s =>
      ∀ episode, ¬ (r.source.has episode = true ∧ s.source.has episode = true) := by
  induction rules generalizing start with
  | nil => exact List.Pairwise.nil
  | cons rule rules ih =>
    obtain ⟨-, stop, hstop, -, hrest⟩ := h
    refine List.pairwise_cons.2 ⟨fun s hs episode hboth => ?_, ih hrest⟩
    have hr := (EpisodeRange.has_iff.1 hboth.1).2 stop hstop
    have hs' := (EpisodeRange.has_iff.1 hboth.2).1
    have := hrest.start_le s hs
    omega

theorem segmentRules_spec {start : Int} {targets : List EpisodeRange} {rules : List RangeRule}
    (hforward : ∀ target ∈ targets, target.Forward)
    (h : segmentRules start targets = some rules) :
    Consecutive start rules
    ∧ (∀ rule ∈ rules, rule.target ∈ targets
      ∧ ∀ episode, rule.source.has episode = true → episode < start + total targets)
    ∧ ∀ episode, start ≤ episode → episode < start + total targets →
      ∃ rule ∈ rules, ∃ mapped, rule.apply episode = some mapped := by
  induction targets generalizing start rules with
  | nil =>
    cases h
    exact ⟨trivial, by simp, fun episode hstart hstop => by simp [total] at hstop; omega⟩
  | cons target targets ih =>
    rw [List.forall_mem_cons] at hforward
    have htotal : total (target :: targets) = target.span + total targets := List.sum_cons
    have hrestnonneg : 0 ≤ total targets := by
      refine List.sum_nonneg fun n hn => ?_
      obtain ⟨t, ht, rfl⟩ := List.mem_map.1 hn
      exact (hforward.2 t ht).span_nonneg
    unfold segmentRules at h
    cases hstop : target.stop with
    | none => rw [hstop] at h; cases h
    | some stop =>
      have hspan : target.span = stop - target.start + 1 := by
        simp [EpisodeRange.span, hstop]
      have hle := hforward.1 stop hstop
      rw [hstop] at h
      obtain ⟨rest, hrest, rfl⟩ := Option.map_eq_some_iff.1 h
      obtain ⟨hconsecutive, hinside, hcovers⟩ := ih hforward.2 hrest
      refine ⟨⟨rfl, _, rfl, by omega, ?_⟩, ?_, fun episode hfrom hto => ?_⟩
      · rw [sub_add_cancel]
        exact hconsecutive
      · rw [List.forall_mem_cons]
        refine ⟨⟨List.mem_cons_self, fun episode hhas => ?_⟩, fun rule hrule => ?_⟩
        · have := (EpisodeRange.has_iff.1 hhas).2 _ rfl
          omega
        · obtain ⟨hmem, hlt⟩ := hinside rule hrule
          refine ⟨List.mem_cons_of_mem _ hmem, fun episode hhas => ?_⟩
          have := hlt episode hhas
          omega
      · by_cases hhere : episode < start + (stop - target.start + 1)
        · refine ⟨_, List.mem_cons_self, target.start + (episode - start), ?_⟩
          have hhas : (EpisodeRange.mk start (some (start + (stop - target.start + 1) - 1))).has
              episode = true := by
            rw [EpisodeRange.has_iff]
            refine ⟨hfrom, fun s hs => ?_⟩
            cases hs
            omega
          unfold RangeRule.apply
          rw [if_pos hhas]
          simp only [RangeRule.fold, RangeRule.stride, hstop]
          norm_num
          omega
        · obtain ⟨rule, hrule, mapped, hmapped⟩ := hcovers episode (by omega) (by omega)
          exact ⟨rule, List.mem_cons_of_mem _ hrule, mapped, hmapped⟩

/-! ## Pairs -/

variable {sourceRange targetRange : String}

/-- The rules of a pair: none, one that keeps the source range, or runs. -/
theorem parseRangePair_cases (sourceRange targetRange : String) :
    parseRangePair sourceRange targetRange = []
    ∨ ∃ source targets, parseEpisodeRange sourceRange.toList = some source
      ∧ (targetTexts targetRange).mapM parseEpisodeRange = some targets
      ∧ ((∃ target ratio expand, targets = [target]
          ∧ parseRangePair sourceRange targetRange = [⟨source, target, ratio, expand⟩])
        ∨ (hasRatio targetRange = false ∧ 2 ≤ targets.length ∧
          segmentRules source.start targets = some (parseRangePair sourceRange targetRange))) := by
  unfold parseRangePair
  cases hsource : parseEpisodeRange sourceRange.toList with
  | none => exact .inl rfl
  | some source =>
    dsimp only
    cases htargets : (targetTexts targetRange).mapM parseEpisodeRange with
    | none =>
      rw [targetTexts] at htargets
      rw [htargets]
      exact .inl rfl
    | some targets =>
      have htexts := htargets
      rw [targetTexts] at htexts
      rw [htexts]
      match targets with
      | [target] => exact .inr ⟨source, [target], rfl, rfl, .inl ⟨target, _, _, rfl, rfl⟩⟩
      | [] =>
        dsimp only
        split
        next => exact .inl rfl
        next h => exact .inl rfl
      | first :: second :: rest =>
        dsimp only
        split
        next => exact .inl rfl
        next h =>
          cases hrules : segmentRules source.start (first :: second :: rest) with
          | none => exact .inl rfl
          | some rules =>
            exact .inr ⟨source, first :: second :: rest, rfl, rfl, .inr
              ⟨Bool.eq_false_of_not_eq_true h, by simp, hrules⟩⟩

/-- A target that is one range without a ratio. -/
theorem parseRangePair_single {source target : EpisodeRange}
    (hsource : parseEpisodeRange sourceRange.toList = some source)
    (htarget : parseEpisodeRange targetRange.toList = some target)
    (hbar : '|' ∉ targetRange.toList) (hcomma : ',' ∉ targetRange.toList) :
    parseRangePair sourceRange targetRange = [⟨source, target, 1, none⟩] := by
  unfold parseRangePair
  rw [hsource, List.splitOn_eq_singleton hbar]
  dsimp only [List.headD_cons]
  rw [List.splitOn_eq_singleton hcomma]
  simp [htarget, ratioOf]

/-- Mapping an episode through a pair. -/
def mapThrough (sourceRange targetRange : String) (episode : Int) : Option Int :=
  (parseRangePair sourceRange targetRange).findSome? fun rule => rule.apply episode

theorem apply_shift {source target : EpisodeRange} {episode : Int}
    (hhas : source.has episode = true)
    (hstop : ∀ stop, target.stop = some stop → episode - source.start ≤ stop - target.start) :
    (RangeRule.mk source target 1 none).apply episode
      = some (target.start + (episode - source.start)) := by
  have hfold : (RangeRule.mk source target 1 none).fold = 1 := rfl
  have hstride : (RangeRule.mk source target 1 none).stride = 1 := rfl
  unfold RangeRule.apply
  dsimp only
  rw [if_pos hhas, hfold, hstride, Int.ediv_one, mul_one]
  refine if_neg fun h => ?_
  obtain ⟨stop, hmem, hlt⟩ := Option.any_eq_true _ _ |>.1 h
  have := hstop stop hmem
  have := of_decide_eq_true hlt
  omega

/-- Both open, or of the same length. -/
def SameLength (a b : EpisodeRange) : Prop :=
  (a.stop = none ∧ b.stop = none)
    ∨ ∃ s t, a.stop = some s ∧ b.stop = some t ∧ s - a.start = t - b.start

/-- What the rules of a pair of texts keep to. -/
structure MapsWhatIsStated (sourceRange targetRange : String) : Prop where
  /-- What is mapped lies inside the source range. -/
  inside : ∀ rule ∈ parseRangePair sourceRange targetRange, ∀ episode mapped,
    rule.apply episode = some mapped →
    ∃ source, parseEpisodeRange sourceRange.toList = some source ∧ source.has episode = true
  /-- Its image lies inside a stated target range. -/
  image : ∀ rule ∈ parseRangePair sourceRange targetRange, ∀ episode mapped,
    rule.apply episode = some mapped →
    ∃ target ∈ statedTargets targetRange, target.has mapped = true
  apart : (parseRangePair sourceRange targetRange).Pairwise fun r s =>
    ∀ episode, ¬ (r.source.has episode = true ∧ s.source.has episode = true)
  consecutive : ∀ source, parseEpisodeRange sourceRange.toList = some source →
    2 ≤ (targetTexts targetRange).length →
    Consecutive source.start (parseRangePair sourceRange targetRange)
  /-- Single ranges without a ratio that are both open or of one length map back. -/
  back : '|' ∉ sourceRange.toList → ',' ∉ sourceRange.toList →
    '|' ∉ targetRange.toList → ',' ∉ targetRange.toList →
    ∀ source target, parseEpisodeRange sourceRange.toList = some source →
      parseEpisodeRange targetRange.toList = some target → SameLength source target →
      ∀ episode, source.has episode = true →
        ∃ mapped, mapThrough sourceRange targetRange episode = some mapped
          ∧ mapThrough targetRange sourceRange mapped = some episode

/-- Runs of a target, where there are several and none is open, have together no more
episodes than the source range. -/
def RunsFit (sourceRange targetRange : String) : Prop :=
  hasRatio targetRange = false → ∀ source targets,
    parseEpisodeRange sourceRange.toList = some source →
    (targetTexts targetRange).mapM parseEpisodeRange = some targets → 2 ≤ targets.length →
    (∀ target ∈ targets, target.stop ≠ none) → source.stop ≠ none →
    total targets ≤ source.span

theorem length_of_mapM {α β : Type} {f : α → Option β} {l : List α} {m : List β}
    (h : l.mapM f = some m) : m.length = l.length := by
  induction l generalizing m with
  | nil => cases h; rfl
  | cons a l ih =>
    rw [List.mapM_cons] at h
    obtain ⟨b, -, h⟩ := Option.bind_eq_some_iff.1 h
    obtain ⟨rest, hrest, h⟩ := Option.bind_eq_some_iff.1 h
    cases h
    rw [List.length_cons, ih hrest, List.length_cons]

theorem segmentRules_eq_some_iff (start : Int) {targets : List EpisodeRange} :
    (∃ rules, segmentRules start targets = some rules)
      ↔ ∀ target ∈ targets, target.stop ≠ none := by
  induction targets generalizing start with
  | nil => simp [segmentRules]
  | cons target targets ih =>
    unfold segmentRules
    cases hstop : target.stop with
    | none => simp [hstop]
    | some stop =>
      rw [List.forall_mem_cons, ← ih (start + (stop - target.start + 1))]
      simp [hstop]

/-- Of several targets without a ratio, none open, the rules are the runs. -/
theorem parseRangePair_runs {source : EpisodeRange} {targets : List EpisodeRange}
    (hratio : hasRatio targetRange = false)
    (hsource : parseEpisodeRange sourceRange.toList = some source)
    (htargets : (targetTexts targetRange).mapM parseEpisodeRange = some targets)
    (hlength : 2 ≤ targets.length) (hclosed : ∀ target ∈ targets, target.stop ≠ none) :
    segmentRules source.start targets = some (parseRangePair sourceRange targetRange) := by
  obtain ⟨rules, hrules⟩ := (segmentRules_eq_some_iff source.start).2 hclosed
  rw [targetTexts] at htargets
  unfold parseRangePair
  rw [hsource]
  dsimp only
  rw [htargets]
  match targets, hlength with
  | first :: second :: rest, _ =>
    dsimp only
    rw [hasRatio] at hratio
    rw [hratio, if_neg Bool.false_ne_true, hrules]
    rfl

/-- What a pair maps lies in the source range where its runs fit. -/
theorem source_has (hfit : RunsFit sourceRange targetRange) {rule : RangeRule}
    {episode mapped : Int} (hrule : rule ∈ parseRangePair sourceRange targetRange)
    (hmapped : rule.apply episode = some mapped) :
    ∃ source, parseEpisodeRange sourceRange.toList = some source ∧ source.has episode = true := by
  obtain ⟨hhas, -⟩ := RangeRule.apply_eq_some hmapped
  rcases parseRangePair_cases sourceRange targetRange with
    hnil | ⟨source, targets, hsource, htargets,
      ⟨target, ratio, expand, -, hrules⟩ | ⟨hratio, htwo, hrules⟩⟩
  · rw [hnil] at hrule
    cases hrule
  · rw [hrules, List.mem_singleton] at hrule
    rw [hrule] at hhas
    exact ⟨source, hsource, hhas⟩
  · refine ⟨source, hsource, EpisodeRange.has_iff.2 ?_⟩
    obtain ⟨hconsecutive, hinside, -⟩ := segmentRules_spec (mapM_parse htargets).2 hrules
    have hstart := hconsecutive.start_le rule hrule
    refine ⟨hstart.trans (EpisodeRange.has_iff.1 hhas).1, fun stop hstop => ?_⟩
    have hlt := (hinside rule hrule).2 episode hhas
    have hspan : source.span = stop - source.start + 1 := by simp [EpisodeRange.span, hstop]
    have := hfit hratio source targets hsource htargets htwo
      ((segmentRules_eq_some_iff source.start).1 ⟨_, hrules⟩) (by simp [hstop])
    omega

theorem target_mem_stated {rule : RangeRule}
    (hrule : rule ∈ parseRangePair sourceRange targetRange) :
    rule.target ∈ statedTargets targetRange := by
  rcases parseRangePair_cases sourceRange targetRange with
    hnil | ⟨source, targets, -, htargets,
      ⟨target, ratio, expand, rfl, hrules⟩ | ⟨-, -, hrules⟩⟩
  · rw [hnil] at hrule
    cases hrule
  · rw [hrules, List.mem_singleton] at hrule
    rw [statedTargets, (mapM_parse htargets).1, hrule]
    exact List.mem_singleton.2 rfl
  · rw [statedTargets, (mapM_parse htargets).1]
    exact ((segmentRules_spec (mapM_parse htargets).2 hrules).2.1 rule hrule).1

theorem parseRangePair_apart (sourceRange targetRange : String) :
    (parseRangePair sourceRange targetRange).Pairwise fun r s =>
      ∀ episode, ¬ (r.source.has episode = true ∧ s.source.has episode = true) := by
  rcases parseRangePair_cases sourceRange targetRange with
    hnil | ⟨source, targets, -, htargets, ⟨target, ratio, expand, -, hrules⟩ | ⟨-, -, hrules⟩⟩
  · rw [hnil]
    exact List.Pairwise.nil
  · rw [hrules]
    exact List.pairwise_singleton _ _
  · exact (segmentRules_spec (mapM_parse htargets).2 hrules).1.disjoint

theorem parseRangePair_consecutive {source : EpisodeRange}
    (hsource : parseEpisodeRange sourceRange.toList = some source)
    (hcommas : 2 ≤ (targetTexts targetRange).length) :
    Consecutive source.start (parseRangePair sourceRange targetRange) := by
  rcases parseRangePair_cases sourceRange targetRange with
    hnil | ⟨source', targets, hsource', htargets,
      ⟨target, ratio, expand, rfl, hrules⟩ | ⟨-, -, hrules⟩⟩
  · rw [hnil]
    trivial
  · have hlength := length_of_mapM htargets
    rw [List.length_singleton] at hlength
    omega
  · rw [hsource] at hsource'
    cases hsource'
    exact (segmentRules_spec (mapM_parse htargets).2 hrules).1

/-- There and back. -/
theorem mapThrough_back {source target : EpisodeRange}
    (hbar : '|' ∉ sourceRange.toList) (hcomma : ',' ∉ sourceRange.toList)
    (hbar' : '|' ∉ targetRange.toList) (hcomma' : ',' ∉ targetRange.toList)
    (hsource : parseEpisodeRange sourceRange.toList = some source)
    (htarget : parseEpisodeRange targetRange.toList = some target)
    (hlength : SameLength source target) {episode : Int} (hhas : source.has episode = true) :
    ∃ mapped, mapThrough sourceRange targetRange episode = some mapped
      ∧ mapThrough targetRange sourceRange mapped = some episode := by
  obtain ⟨hstart, hstop⟩ := EpisodeRange.has_iff.1 hhas
  have hthere : (RangeRule.mk source target 1 none).apply episode
      = some (target.start + (episode - source.start)) := by
    refine apply_shift hhas fun stop htstop => ?_
    rcases hlength with ⟨-, hopen⟩ | ⟨s, t, hs, ht, heq⟩
    · rw [hopen] at htstop
      cases htstop
    · rw [ht] at htstop
      cases htstop
      have := hstop s hs
      omega
  have hback : (RangeRule.mk target source 1 none).apply (target.start + (episode - source.start))
      = some episode := by
    have hmapped : target.has (target.start + (episode - source.start)) = true :=
      RangeRule.target_has hthere
    rw [apply_shift hmapped fun stop hsstop => by have := hstop stop hsstop; omega]
    congr 1
    omega
  refine ⟨target.start + (episode - source.start), ?_, ?_⟩
  · rw [mapThrough, parseRangePair_single hsource htarget hbar' hcomma', List.findSome?_singleton,
      hthere]
  · rw [mapThrough, parseRangePair_single htarget hsource hbar hcomma, List.findSome?_singleton,
      hback]

end Foreseerr

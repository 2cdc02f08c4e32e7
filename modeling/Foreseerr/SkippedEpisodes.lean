import Foreseerr.Clock
import Foreseerr.Double
import Foreseerr.JsText
import Foreseerr.Run
import Mathlib.Logic.Function.Basic

/-!
# Episodes left in Continue Watching

A pass of `skippedepisodes.rs` over a user's resume list. An episode left before its
credits, of a series that went on, is marked watched on Trakt and then played on
Jellyfin, and leaves the list. The furthest episode in progress is not completed.

Everything the pass asks of Trakt, Jellyfin and the media table may fail and may answer
anything, differently each time (`Deps`). What was asked for an episode, and what was
answered, is kept in the order of the calls, and the laws of a pass are about that
record (`cleanup_lawful`).

An episode is its id. Where the id is empty, or the list has it in two series, the
furthest episode is not told apart (`furthest_marked`).
-/

namespace Foreseerr

namespace SkippedEpisodes

/-! ## Episodes -/

/-- `Item`: what the pass reads of one of Jellyfin's items. -/
structure Item where
  id : String
  type : Option String
  seriesId : Option String
  parentIndexNumber : Option Int
  indexNumber : Option Int
  runTimeTicks : Option ℚ := none
  tmdb : Option String := none
  theMovieDb : Option String := none
  playedPercentage : Option ℚ
  playbackPositionTicks : Option ℚ := none
  userRunTimeTicks : Option ℚ := none
  played : Bool
  lastPlayedDate : Option String
deriving DecidableEq, Repr

/-- `is("Episode")`. -/
def Item.isEpisode (item : Item) : Bool := item.type = some "Episode"

/-- `clamp(0.0, 100.0)`. -/
def clampPercent (x : ℚ) : ℚ := max 0 (min 100 x)

/-- `position / runtime * 100.0`, from 0 to 100. What is too large for a double is 100,
or 0 below zero. -/
def positionPercent (position runtime : ℚ) : ℚ :=
  match (double (position / runtime)).bind fun part => double (part * 100) with
  | some percent => clampPercent percent
  | none => if 0 < position then 100 else 0

/-- `episode_progress`. -/
def episodeProgress (item : Item) : Option ℚ :=
  match item.playedPercentage with
  | some percentage => some (clampPercent percentage)
  | none => do
    let position ← item.playbackPositionTicks
    let runtime ← (item.userRunTimeTicks <|> item.runTimeTicks).filter (0 < ·)
    some (positionPercent position runtime)

/-- `coordinate`. -/
def coordinate (item : Item) : Option (Int × Int) := do
  let season ← item.parentIndexNumber
  let episode ← item.indexNumber
  if season ≥ 1 ∧ episode ≥ 0 then some (season, episode) else none

/-- The order of the coordinates. -/
def Earlier (a b : Int × Int) : Prop := a.1 < b.1 ∨ a.1 = b.1 ∧ a.2 < b.2

instance (a b : Int × Int) : Decidable (Earlier a b) := inferInstanceAs (Decidable (_ ∨ _))

/-- `started`. -/
def started (item : Item) : Bool :=
  item.playedPercentage.getD 0 > 0 || item.playbackPositionTicks.getD 0 > 0

/-- `viewed`. -/
def viewed (item : Item) : Bool := item.played || started item

/-- `in_progress`. -/
def inProgress (item : Item) : Bool := !item.played && started item

/-- `last_played_ms`. -/
def lastPlayedMs (item : Item) : Int :=
  (item.lastPlayedDate.bind fun date => parseDateMillis date.toList).getD 0

/-- `later_viewing_activity`. -/
def laterViewingActivity (later candidate : Item) : Bool :=
  if !viewed later then false
  else if inProgress later then true
  else lastPlayedMs later ≠ 0 ∧ lastPlayedMs candidate ≠ 0
    ∧ lastPlayedMs later > lastPlayedMs candidate

/-- The turn of `frontier_episode_id`'s loop. -/
def further (frontier : Option (Item × Int × Int)) (episode : Item) : Option (Item × Int × Int) :=
  if !episode.isEpisode || !inProgress episode then frontier
  else match coordinate episode with
    | none => frontier
    | some coord =>
      if frontier.all fun current => Earlier current.2 coord then some (episode, coord)
      else frontier

/-- `frontier_episode_id`. -/
def frontierEpisodeId (episodes : List Item) : Option String :=
  (episodes.foldl further none).map fun frontier => frontier.1.id

/-- `series_of`. -/
def seriesOf (item : Item) : Option String := item.seriesId.filter (· ≠ "")

/-- `is_stale`. -/
def isStale (candidate : Item) (episodes : List Item) (minProgress : ℚ) : Bool :=
  match seriesOf candidate, coordinate candidate with
  | some series, some current =>
    candidate.isEpisode && (episodeProgress candidate).any (· ≥ minProgress)
      && episodes.any fun episode => episode.id ≠ candidate.id && episode.isEpisode
        && episode.seriesId = some series && (coordinate episode).any (Earlier current ·)
        && laterViewingActivity episode candidate
  | _, _ => false

/-! ## What the pass asks for -/

/-- `Deps`: the calls out, each answering from a state of the world that it may change.
A number of `season_status` that is not finite is `none`. -/
structure Deps (ω : Type) where
  providersAvailable : ω → Except String Bool × ω
  seriesEpisodes : String → ω → Except String (List Item) × ω
  mappedTmdbIds : List String → ω → Except String (String → Option Int) × ω
  seriesItem : String → ω → Except String (Option Item) × ω
  traktSeasonStatus : Int → Int → ω → Except String (Bool × List (Option ℚ)) × ω
  setTraktWatched : Int → Int → Int → ω → Except String Bool × ω
  removeTraktPlayback : Int → Int → Int → ω → Except String Unit × ω
  markJellyfinPlayed : String → ω → Except String Unit × ω

/-- `safe_integer`. -/
def safeInteger (x : ℚ) : Option Int :=
  if x.den = 1 ∧ |x| ≤ 9007199254740991 then some x.num else none

/-- `tmdb_from_raw`, where a failure is no id. -/
def tmdbFromRaw (raw : Option String) : Option Int := do
  let raw ← raw.filter (· ≠ "")
  let n ← (numberOfStr raw.toList).bind double
  if 0 < n then safeInteger n else none

/-- `provider_tmdb_id`. -/
def providerTmdbId (series : Item) : Option Int := tmdbFromRaw (series.tmdb <|> series.theMovieDb)

/-- `unique_series`. -/
def uniqueSeries (items : List Item) : List String :=
  (items.filterMap seriesOf).foldl (fun ids id => if id ∈ ids then ids else ids ++ [id]) []

/-- The episode that the pass is at: an entry of the resume list, with its show's TMDB id
and its coordinate. -/
structure Task where
  entry : Item
  show' : Int
  season : Int
  episode : Int
deriving DecidableEq

/-- A call of `complete_episode`, with its answer. -/
inductive Call
  | status (answer : Except String (Bool × List (Option ℚ)))
  | write (answer : Except String Bool)
  | clear (answer : Except String Unit)
  | mark (answer : Except String Unit)
deriving DecidableEq

/-- The state of the pass: what it knows of the seasons it asked for, and the calls it
made, each for a task. -/
structure Pass (ω : Type) where
  world : ω
  watchedBySeason : Int × Int → Option (List Int)
  calls : List (Task × Call)

/-- `Step`. -/
inductive Step
  | completed (trakt : String)
  | traktUnavailable
  | traktFailed (message : String)
  | jellyfinFailed (trakt message : String)
deriving DecidableEq, Repr

variable {ω : Type}

/-- One call, made for a task. -/
def Pass.record {α : Type} (p : Pass ω) (t : Task) (answer : α × ω) (call : α → Call) : Pass ω :=
  { p with world := answer.2, calls := p.calls ++ [(t, call answer.1)] }

/-- The season's watched episodes, as the pass knows them. -/
def Pass.learn (p : Pass ω) (t : Task) (watched : List Int) : Pass ω :=
  { p with
    watchedBySeason := Function.update p.watchedBySeason (t.show', t.season) (some watched) }

/-- The season's watched episodes: known, or asked for. -/
def seasonWatched (deps : Deps ω) (p : Pass ω) (t : Task) : Except Step (List Int) × Pass ω :=
  match p.watchedBySeason (t.show', t.season) with
  | some known => (.ok known, p)
  | none =>
    let answer := deps.traktSeasonStatus t.show' t.season p.world
    let p := p.record t answer .status
    match answer.1 with
    | .ok (false, _) => (.error .traktUnavailable, p)
    | .ok (true, numbers) =>
      let watched := numbers.filterMap (·.bind safeInteger)
      (.ok watched, p.learn t watched)
    | .error e => (.error (.traktFailed e), p)

/-- Trakt's part: only the paused playback of an episode that is watched, else the
history. -/
def traktState (deps : Deps ω) (p : Pass ω) (t : Task) (watched : List Int) :
    Except Step String × Pass ω :=
  if t.episode ∈ watched then
    let answer := deps.removeTraktPlayback t.show' t.season t.episode p.world
    (.ok "already_watched", p.record t answer .clear)
  else
    let answer := deps.setTraktWatched t.show' t.season t.episode p.world
    let p := p.record t answer .write
    match answer.1 with
    | .ok true => (.ok "updated", p.learn t (t.episode :: watched))
    | .ok false => (.error (.traktFailed "Trakt episode action unavailable"), p)
    | .error e => (.error (.traktFailed e), p)

/-- Jellyfin's part. -/
def markPlayed (deps : Deps ω) (p : Pass ω) (t : Task) (trakt : String) : Step × Pass ω :=
  let answer := deps.markJellyfinPlayed t.entry.id p.world
  let p := p.record t answer .mark
  match answer.1 with
  | .ok _ => (.completed trakt, p)
  | .error e => (.jellyfinFailed trakt e, p)

/-- `complete_episode`. -/
def completeEpisode (deps : Deps ω) (p : Pass ω) (t : Task) : Step × Pass ω :=
  match seasonWatched deps p t with
  | (.error step, p) => (step, p)
  | (.ok watched, p) =>
    match traktState deps p t watched with
    | (.error step, p) => (step, p)
    | (.ok trakt, p) => markPlayed deps p t trakt

/-! ## The pass -/

/-- What a pass comes to: the list, the calls it made for its episodes, and the series'
episodes as they were loaded. -/
structure Outcome (ω : Type) where
  resume : List Item
  calls : List (Task × Call) := []
  loaded : String → Option (List Item) := fun _ => none
  world : ω

/-- The series' episodes, of those that are loaded. The four workers' calls are in the
series' order. -/
def loadSeries (deps : Deps ω) (ids : List String) (world : ω) :
    (String → Option (List Item)) × ω :=
  ids.foldl (fun (loaded, world) id =>
    match deps.seriesEpisodes id world with
    | (.ok episodes, world) => (Function.update loaded id (some episodes), world)
    | (.error _, world) => (loaded, world)) (fun _ => none, world)

/-- The TMDB ids of the series that the media table does not have. -/
def loadUnmapped (deps : Deps ω) (tmdb : String → Option Int) (ids : List String) (world : ω) :
    (String → Option Int) × ω :=
  (ids.filter fun id => (tmdb id).isNone).foldl (fun (tmdb, world) id =>
    match deps.seriesItem id world with
    | (.ok item, world) =>
      match item.bind providerTmdbId with
      | some tmdbId => (Function.update tmdb id (some tmdbId), world)
      | none => (tmdb, world)
    | (.error _, world) => (tmdb, world)) (tmdb, world)

/-- The episodes of the list that are far enough along. -/
def preliminary (resume : List Item) (minProgress : ℚ) : List Item :=
  resume.filter fun item => item.isEpisode && (episodeProgress item).getD (-1) ≥ minProgress

/-- Whether a candidate is to be completed. -/
def isClassified (loaded : String → Option (List Item)) (minProgress : ℚ) (item : Item) : Bool :=
  match seriesOf item with
  | none => false
  | some series =>
    let episodes := (loaded series).getD []
    if (frontierEpisodeId episodes).any fun f => f ≠ "" ∧ f = item.id then false
    else isStale item episodes minProgress

/-- The episode that an entry of the list is, where it has a mapping. -/
def taskOf (tmdb : String → Option Int) (item : Item) : Option Task := do
  let series ← seriesOf item
  let (season, episode) ← coordinate item
  let show' ← tmdb series
  some { entry := item, show', season, episode }

/-- The turn of the loop over the list: the ids completed so far, and the pass. -/
def visit (deps : Deps ω) (tmdb : String → Option Int) (classified : List Item)
    (s : List String × Pass ω) (item : Item) : List String × Pass ω :=
  if item.id ∉ classified.map Item.id then s
  else match taskOf tmdb item with
    | none => s
    | some t =>
      match completeEpisode deps s.2 t with
      | (.completed _, p) => (item.id :: s.1, p)
      | (_, p) => (s.1, p)

/-- The loop of `cleanup`, and the list without the ids it completed. -/
def visitAll (deps : Deps ω) (resume classified : List Item) (loaded : String → Option (List Item))
    (tmdb : String → Option Int) (world : ω) : Outcome ω :=
  let s := resume.foldl (visit deps tmdb classified)
    ([], { world, watchedBySeason := fun _ => none, calls := [] })
  { resume := resume.filter fun item => item.id ∉ s.1
    calls := s.2.calls, loaded, world := s.2.world }

/-- `cleanup`. -/
def cleanup (deps : Deps ω) (resume : List Item) (minProgress : ℚ) (world : ω) : Outcome ω :=
  let preliminary := preliminary resume minProgress
  if preliminary = [] then { resume, world }
  else
    let (available, world) := deps.providersAvailable world
    match available with
    | .error _ | .ok false => { resume, world }
    | .ok true =>
      let (loaded, world) := loadSeries deps (uniqueSeries preliminary) world
      let classified := preliminary.filter (isClassified loaded minProgress)
      let series := uniqueSeries classified
      let (mapped, world) := deps.mappedTmdbIds series world
      let (tmdb, world) := loadUnmapped deps (mapped.toOption.getD fun _ => none) series world
      visitAll deps resume classified loaded tmdb world

/-! ## The furthest episode in progress -/

/-- The coordinate of an episode that is in progress. -/
def progressCoordinate (item : Item) : Option (Int × Int) :=
  if item.isEpisode && inProgress item then coordinate item else none

/-- **The furthest episode in progress**: the first one that no other is beyond. -/
def Furthest (episodes : List Item) (e : Item) : Prop :=
  ∃ before after coord, episodes = before ++ e :: after ∧ progressCoordinate e = some coord
    ∧ (∀ x ∈ before, ∀ c, progressCoordinate x = some c → Earlier c coord)
    ∧ ∀ x ∈ after, ∀ c, progressCoordinate x = some c → ¬ Earlier coord c

theorem further_eq (frontier : Option (Item × Int × Int)) (episode : Item) :
    further frontier episode = match progressCoordinate episode with
      | none => frontier
      | some coord =>
        if frontier.all fun current => Earlier current.2 coord then some (episode, coord)
        else frontier := by
  unfold further progressCoordinate
  cases episode.isEpisode <;> cases inProgress episode <;> simp

/-- **The frontier is the furthest episode in progress.** -/
theorem Furthest.frontier {episodes : List Item} {e : Item} (h : Furthest episodes e) :
    frontierEpisodeId episodes = some e.id := by
  obtain ⟨before, after, coord, rfl, hcoord, hbefore, hafter⟩ := h
  -- what was furthest before it is earlier than it
  have hearlier : ∀ (l : List Item) (f : Option (Item × Int × Int)),
      (∀ x ∈ l, ∀ c, progressCoordinate x = some c → Earlier c coord) →
      (∀ current, f = some current → Earlier current.2 coord) →
      ∀ current, l.foldl further f = some current → Earlier current.2 coord := by
    intro l
    induction l with
    | nil => exact fun f _ hf => hf
    | cons x l ih =>
      intro f hl hf
      refine ih _ (fun y hy => hl y (List.mem_cons_of_mem _ hy)) ?_
      intro current hcurrent
      rw [further_eq] at hcurrent
      split at hcurrent
      · exact hf current hcurrent
      · next c hc =>
        split at hcurrent
        · cases hcurrent
          exact hl x List.mem_cons_self c hc
        · exact hf current hcurrent
  -- what comes after it is not beyond it
  have hkept : ∀ l : List Item, (∀ x ∈ l, ∀ c, progressCoordinate x = some c → ¬ Earlier coord c) →
      l.foldl further (some (e, coord)) = some (e, coord) := by
    intro l
    induction l with
    | nil => exact fun _ => rfl
    | cons x l ih =>
      intro hl
      have hx : further (some (e, coord)) x = some (e, coord) := by
        rw [further_eq]
        split
        · rfl
        · next c hc =>
          rw [if_neg]
          simpa using hl x List.mem_cons_self c hc
      rw [List.foldl_cons, hx]
      exact ih fun y hy => hl y (List.mem_cons_of_mem _ hy)
  have hfirst := hearlier before none hbefore (fun _ h => by cases h)
  have hnow : further (before.foldl further none) e = some (e, coord) := by
    rw [further_eq, hcoord]
    dsimp only
    rw [if_pos]
    rw [Option.all_eq_true]
    exact fun current hcurrent => decide_eq_true (hfirst current hcurrent)
  unfold frontierEpisodeId
  rw [List.foldl_append, List.foldl_cons, hnow, hkept after hafter]
  rfl

/-! ## What the calls say -/

/-- Trakt reported the episode watched, or took the history write for it. -/
def TraktHas (calls : List (Task × Call)) (t : Task) : Prop :=
  (∃ d numbers, (d, Call.status (.ok (true, numbers))) ∈ calls ∧ d.show' = t.show'
      ∧ d.season = t.season ∧ some (t.episode : ℚ) ∈ numbers)
    ∨ ∃ d, (d, Call.write (.ok true)) ∈ calls ∧ d.show' = t.show' ∧ d.season = t.season
      ∧ d.episode = t.episode

theorem TraktHas.append {calls : List (Task × Call)} {t : Task} (h : TraktHas calls t)
    (more : List (Task × Call)) : TraktHas (calls ++ more) t := by
  rcases h with ⟨d, numbers, hd, h⟩ | ⟨d, hd, h⟩
  · exact .inl ⟨d, numbers, List.mem_append_left _ hd, h⟩
  · exact .inr ⟨d, List.mem_append_left _ hd, h⟩

/-- A history write that Trakt took, for an episode. -/
def accepted (show' season episode : Int) (d : Task × Call) : Bool :=
  d.1.show' = show' && d.1.season = season && d.1.episode = episode
    && match d.2 with
      | .write (.ok true) => true
      | _ => false

/-- A mark only comes after Trakt has the episode. -/
def MarksAfterTrakt (before : List (Task × Call)) (d : Task × Call) : Prop :=
  ∀ answer, d.2 = .mark answer → TraktHas before d.1

/-- What a pass knows of the seasons is what Trakt said, and every write it took is
known. -/
structure Sound (p : Pass ω) : Prop where
  known : ∀ (t : Task) watched, p.watchedBySeason (t.show', t.season) = some watched →
    t.episode ∈ watched → TraktHas p.calls t
  once : ∀ show' season episode, p.calls.countP (accepted show' season episode) ≤ 1
  remembered : ∀ show' season episode, 0 < p.calls.countP (accepted show' season episode) →
    ∃ watched, p.watchedBySeason (show', season) = some watched ∧ episode ∈ watched
  marks : Log.EachAfter MarksAfterTrakt p.calls

theorem safeInteger_eq_some {x : ℚ} {n : Int} (h : safeInteger x = some n) : (n : ℚ) = x := by
  unfold safeInteger at h
  split at h
  · next hsafe =>
    cases h
    exact Rat.coe_int_num_of_den_eq_one hsafe.1
  · cases h

variable {deps : Deps ω} {p p' : Pass ω} {t : Task}

/-- A call that is no accepted write leaves the pass sound. -/
theorem Sound.record {α : Type} (h : Sound p) (answer : α × ω) (call : α → Call)
    (hwrite : call answer.1 ≠ .write (.ok true))
    (hmark : MarksAfterTrakt p.calls (t, call answer.1)) : Sound (p.record t answer call) := by
  have hcount : ∀ show' season episode,
      accepted show' season episode (t, call answer.1) = false := by
    intro show' season episode
    unfold accepted
    split
    · next heq => exact absurd heq hwrite
    · exact Bool.and_false _
  have hsame : ∀ show' season episode, (p.record t answer call).calls.countP
      (accepted show' season episode) = p.calls.countP (accepted show' season episode) := by
    intro show' season episode
    show (p.calls ++ [(t, call answer.1)]).countP _ = _
    rw [List.countP_append, List.countP_singleton, hcount]
    rfl
  exact {
    known := fun d watched hd hmem => (h.known d watched hd hmem).append _
    once := fun _ _ _ => (hsame _ _ _).trans_le (h.once _ _ _)
    remembered := fun _ _ _ hpos => h.remembered _ _ _ (hsame _ _ _ ▸ hpos)
    marks := h.marks.concat hmark }

/-- What is learnt of a season is sound where Trakt said it, and nothing is forgotten. -/
theorem Sound.learn (h : Sound p) {watched : List Int}
    (hsaid : ∀ d : Task, d.show' = t.show' → d.season = t.season → d.episode ∈ watched →
      TraktHas p.calls d)
    (hkept : ∀ before, p.watchedBySeason (t.show', t.season) = some before →
      ∀ episode ∈ before, episode ∈ watched) : Sound (p.learn t watched) := by
  refine ⟨fun d known hd hmem => ?_, h.once, fun show' season episode hpos => ?_, h.marks⟩
  · by_cases hkey : (d.show', d.season) = (t.show', t.season)
    · unfold Pass.learn at hd
      dsimp only at hd
      rw [hkey, Function.update_self] at hd
      cases hd
      exact hsaid d (congrArg Prod.fst hkey) (congrArg Prod.snd hkey) hmem
    · unfold Pass.learn at hd
      dsimp only at hd
      rw [Function.update_of_ne hkey] at hd
      exact h.known d known hd hmem
  · obtain ⟨known, hknown, hmem⟩ := h.remembered show' season episode hpos
    unfold Pass.learn
    dsimp only
    by_cases hkey : (show', season) = (t.show', t.season)
    · rw [hkey, Function.update_self]
      exact ⟨watched, rfl, hkept known (hkey ▸ hknown) episode hmem⟩
    · rw [Function.update_of_ne hkey]
      exact ⟨known, hknown, hmem⟩

/-! ## One episode -/

/-- The calls that are added are for a task, and none is a mark. -/
def Adds (t : Task) (p p' : Pass ω) : Prop :=
  ∃ more, p'.calls = p.calls ++ more ∧ ∀ d ∈ more, d.1 = t ∧ ∀ answer, d.2 ≠ .mark answer

theorem Adds.refl (t : Task) (p : Pass ω) : Adds t p p :=
  ⟨[], (List.append_nil _).symm, fun _ hd => absurd hd List.not_mem_nil⟩

theorem Adds.trans {p'' : Pass ω} (h : Adds t p p') (h' : Adds t p' p'') : Adds t p p'' := by
  obtain ⟨more, hmore, hcalls⟩ := h
  obtain ⟨more', hmore', hcalls'⟩ := h'
  refine ⟨more ++ more', by rw [hmore', hmore, List.append_assoc], fun d hd => ?_⟩
  exact (List.mem_append.1 hd).elim (hcalls d) (hcalls' d)

theorem adds_record {α : Type} (p : Pass ω) (t : Task) (answer : α × ω) {call : α → Call}
    (hcall : ∀ answer', call answer.1 ≠ .mark answer') : Adds t p (p.record t answer call) := by
  refine ⟨[(t, call answer.1)], rfl, fun d hd => ?_⟩
  rw [List.mem_singleton.1 hd]
  exact ⟨rfl, hcall⟩

/-- The season's episodes are known where the step goes on. -/
theorem seasonWatched_spec (h : Sound p) {r : Except Step (List Int)}
    (hstep : seasonWatched deps p t = (r, p')) : Sound p' ∧ Adds t p p' ∧
      ∀ watched, r = .ok watched → p'.watchedBySeason (t.show', t.season) = some watched := by
  unfold seasonWatched at hstep
  split at hstep
  · next known hknown =>
    cases hstep
    refine ⟨h, Adds.refl t p, fun watched hw => ?_⟩
    cases hw
    exact hknown
  · next hnone =>
    dsimp only at hstep
    generalize deps.traktSeasonStatus t.show' t.season p.world = answer at hstep
    have hrecord : Sound (p.record t answer .status) :=
      h.record answer .status (by simp) (fun _ hmark => by cases hmark)
    have hadds : Adds t p (p.record t answer .status) := adds_record p t answer (by simp)
    split at hstep
    · cases hstep
      exact ⟨hrecord, hadds, fun _ hw => (nomatch hw)⟩
    · next numbers hnumbers =>
      cases hstep
      refine ⟨hrecord.learn ?_ ?_, hadds, ?_⟩
      · intro d hshow hseason hmem
        obtain ⟨number, hnumber, hsafe⟩ := List.mem_filterMap.1 hmem
        obtain ⟨x, rfl, hx⟩ := Option.bind_eq_some_iff.1 hsafe
        refine .inl ⟨t, numbers, List.mem_append_right _ ?_, hshow.symm, hseason.symm, ?_⟩
        · exact List.mem_singleton.2 (by rw [hnumbers])
        · rw [safeInteger_eq_some hx]
          exact hnumber
      · intro before hbefore
        exact absurd (hnone.symm.trans hbefore) (by simp)
      · intro watched hw
        cases hw
        exact Function.update_self _ _ _
    · cases hstep
      exact ⟨hrecord, hadds, fun _ hw => (nomatch hw)⟩

/-- A history write that Trakt takes is the first one for its episode. -/
theorem Sound.write (h : Sound p) {watched : List Int}
    (hknown : p.watchedBySeason (t.show', t.season) = some watched) (hnew : t.episode ∉ watched)
    {answer : Except String Bool × ω} (hanswer : answer.1 = .ok true) :
    Sound ((p.record t answer .write).learn t (t.episode :: watched)) := by
  have hcalls : (p.record t answer .write).calls = p.calls ++ [(t, .write (.ok true))] := by
    rw [← hanswer]
    rfl
  have haccepted : ∀ show' season episode, accepted show' season episode (t, .write (.ok true))
      = true ↔ show' = t.show' ∧ season = t.season ∧ episode = t.episode := by
    intro show' season episode
    simp only [accepted, Bool.and_true, Bool.and_eq_true, decide_eq_true_eq]
    constructor
    · rintro ⟨⟨rfl, rfl⟩, rfl⟩
      exact ⟨rfl, rfl, rfl⟩
    · rintro ⟨rfl, rfl, rfl⟩
      exact ⟨⟨rfl, rfl⟩, rfl⟩
  -- none was taken before it, since one is remembered
  have hfirst : p.calls.countP (accepted t.show' t.season t.episode) = 0 := by
    by_contra hpos
    obtain ⟨known, hknown', hmem⟩ := h.remembered _ _ _ (Nat.pos_of_ne_zero hpos)
    rw [hknown] at hknown'
    cases hknown'
    exact hnew hmem
  refine ⟨fun d known hd hmem => ?_, fun show' season episode => ?_,
    fun show' season episode hpos => ?_, ?_⟩
  · show TraktHas (p.record t answer .write).calls d
    rw [hcalls]
    by_cases hkey : (d.show', d.season) = (t.show', t.season)
    · unfold Pass.learn at hd
      dsimp only at hd
      rw [hkey, Function.update_self] at hd
      cases hd
      have hshow : d.show' = t.show' := congrArg Prod.fst hkey
      have hseason : d.season = t.season := congrArg Prod.snd hkey
      rcases List.mem_cons.1 hmem with hsame | hmem
      · exact .inr ⟨t, List.mem_append_right _ List.mem_cons_self, hshow.symm, hseason.symm,
          hsame.symm⟩
      · exact (h.known d watched (hkey ▸ hknown) hmem).append _
    · unfold Pass.learn at hd
      dsimp only at hd
      rw [Function.update_of_ne hkey] at hd
      exact (h.known d known hd hmem).append _
  · show (p.record t answer .write).calls.countP _ ≤ 1
    rw [hcalls, List.countP_append, List.countP_singleton]
    split
    · next hthis =>
      obtain ⟨rfl, rfl, rfl⟩ := (haccepted _ _ _).1 hthis
      rw [hfirst]
    · exact h.once show' season episode
  · change 0 < (p.record t answer .write).calls.countP _ at hpos
    rw [hcalls, List.countP_append, List.countP_singleton] at hpos
    unfold Pass.learn
    dsimp only
    by_cases hkey : (show', season) = (t.show', t.season)
    · refine ⟨t.episode :: watched, by rw [hkey, Function.update_self], ?_⟩
      split at hpos
      · next hthis =>
        obtain ⟨rfl, rfl, rfl⟩ := (haccepted _ _ _).1 hthis
        exact List.mem_cons_self
      · obtain ⟨known, hknown', hmem⟩ := h.remembered _ _ _ hpos
        rw [hkey, hknown] at hknown'
        cases hknown'
        exact List.mem_cons_of_mem _ hmem
    · rw [Function.update_of_ne hkey]
      refine h.remembered _ _ _ ?_
      rw [if_neg] at hpos
      · exact hpos
      · intro hthis
        obtain ⟨rfl, rfl, rfl⟩ := (haccepted _ _ _).1 hthis
        exact hkey rfl
  · show Log.EachAfter MarksAfterTrakt (p.record t answer .write).calls
    rw [hcalls]
    exact h.marks.concat fun _ hmark => by cases hmark

/-- Trakt has the episode where the step goes on. -/
theorem traktState_spec (h : Sound p) {watched : List Int}
    (hknown : p.watchedBySeason (t.show', t.season) = some watched) {r : Except Step String}
    (hstep : traktState deps p t watched = (r, p')) :
    Sound p' ∧ Adds t p p' ∧ ∀ trakt, r = .ok trakt → TraktHas p'.calls t := by
  unfold traktState at hstep
  split at hstep
  · next hmem =>
    cases hstep
    refine ⟨h.record _ _ (by simp) (fun _ hmark => by cases hmark), adds_record p t _ (by simp),
      fun _ _ => ?_⟩
    exact (h.known t watched hknown hmem).append _
  · next hnew =>
    dsimp only at hstep
    generalize deps.setTraktWatched t.show' t.season t.episode p.world = answer at hstep
    have hadds : Adds t p (p.record t answer .write) := adds_record p t answer (by simp)
    split at hstep
    · next htrue =>
      cases hstep
      refine ⟨h.write hknown hnew htrue, hadds, fun _ _ => .inr ⟨t, ?_, rfl, rfl, rfl⟩⟩
      exact List.mem_append_right _ (List.mem_singleton.2 (by rw [htrue]))
    · next hfalse =>
      cases hstep
      exact ⟨h.record answer _ (by simp [hfalse]) (fun _ hmark => by cases hmark), hadds,
        fun _ hr => (nomatch hr)⟩
    · next herror =>
      cases hstep
      exact ⟨h.record answer _ (by simp [herror]) (fun _ hmark => by cases hmark), hadds,
        fun _ hr => (nomatch hr)⟩

/-- A step that stops before Jellyfin is no completion. -/
theorem seasonWatched_ne_completed (deps : Deps ω) (p : Pass ω) (t : Task) (trakt : String) :
    (seasonWatched deps p t).1 ≠ .error (.completed trakt) := by
  unfold seasonWatched
  split
  · simp
  · dsimp only
    split <;> simp

theorem traktState_ne_completed (deps : Deps ω) (p : Pass ω) (t : Task) (watched : List Int)
    (trakt : String) : (traktState deps p t watched).1 ≠ .error (.completed trakt) := by
  unfold traktState
  split
  · simp
  · dsimp only
    split <;> simp

/-- **One episode**: its calls are its own, and it is completed exactly where Jellyfin
took the mark. -/
theorem completeEpisode_spec (h : Sound p) {step : Step}
    (hstep : completeEpisode deps p t = (step, p')) : Sound p'
      ∧ ∃ more, p'.calls = p.calls ++ more ∧ (∀ d ∈ more, d.1 = t)
        ∧ ((∃ trakt, step = .completed trakt) ↔ (t, Call.mark (.ok ())) ∈ more) := by
  have hstopped : ∀ {q : Pass ω}, Adds t p q → (∀ trakt, step ≠ .completed trakt) →
      ∃ more, q.calls = p.calls ++ more ∧ (∀ d ∈ more, d.1 = t)
        ∧ ((∃ trakt, step = .completed trakt) ↔ (t, Call.mark (.ok ())) ∈ more) := by
    rintro q ⟨more, hmore, hcalls⟩ hstep
    refine ⟨more, hmore, fun d hd => (hcalls d hd).1, ?_⟩
    exact ⟨fun ⟨trakt, htrakt⟩ => absurd htrakt (hstep trakt),
      fun hmem => absurd rfl ((hcalls _ hmem).2 _)⟩
  unfold completeEpisode at hstep
  split at hstep
  · next step' q hseason =>
    cases hstep
    obtain ⟨hsound, hadds, -⟩ := seasonWatched_spec h hseason
    refine ⟨hsound, hstopped hadds fun trakt htrakt => ?_⟩
    exact seasonWatched_ne_completed deps p t trakt (by rw [hseason, htrakt])
  · next watched q hseason =>
    obtain ⟨hsound, hadds, hknown⟩ := seasonWatched_spec h hseason
    split at hstep
    · next step' q' htrakt =>
      cases hstep
      obtain ⟨hsound', hadds', -⟩ := traktState_spec hsound (hknown watched rfl) htrakt
      refine ⟨hsound', hstopped (hadds.trans hadds') fun trakt hcompleted => ?_⟩
      exact traktState_ne_completed deps q t watched trakt (by rw [htrakt, hcompleted])
    · next trakt q' htrakt =>
      obtain ⟨hsound', hadds', hhas⟩ := traktState_spec hsound (hknown watched rfl) htrakt
      obtain ⟨more, hmore, hcalls⟩ := hadds.trans hadds'
      unfold markPlayed at hstep
      dsimp only at hstep
      generalize deps.markJellyfinPlayed t.entry.id q'.world = answer at hstep
      have hrecord : Sound (q'.record t answer .mark) :=
        hsound'.record answer _ (by simp) fun _ _ => hhas trakt rfl
      have hall : (q'.record t answer .mark).calls
          = p.calls ++ (more ++ [(t, .mark answer.1)]) := by
        rw [← List.append_assoc, ← hmore]
        rfl
      have hown : ∀ d ∈ more ++ [(t, Call.mark answer.1)], d.1 = t := by
        intro d hd
        rcases List.mem_append.1 hd with hd | hd
        · exact (hcalls d hd).1
        · rw [List.mem_singleton.1 hd]
      have hmark : (t, Call.mark (.ok ())) ∈ more ++ [(t, Call.mark answer.1)]
          ↔ answer.1 = .ok () := by
        rw [List.mem_append, List.mem_singleton]
        constructor
        · rintro (hmem | heq)
          · exact absurd rfl ((hcalls _ hmem).2 _)
          · exact (Call.mark.inj (congrArg Prod.snd heq)).symm
        · exact fun heq => .inr (by rw [heq])
      split at hstep
      · next hok =>
        cases hstep
        refine ⟨hrecord, _, hall, hown, ?_⟩
        rw [hmark]
        exact ⟨fun _ => hok, fun _ => ⟨trakt, rfl⟩⟩
      · next herror =>
        cases hstep
        refine ⟨hrecord, _, hall, hown, ?_⟩
        rw [hmark, herror]
        simp

/-! ## The pass -/

/-- An id that Jellyfin took the played mark for. -/
def Marked (calls : List (Task × Call)) (id : String) : Prop :=
  ∃ t, (t, Call.mark (.ok ())) ∈ calls ∧ t.entry.id = id

/-- What a turn of the loop keeps: the ids completed are those Jellyfin took the mark
for, and the calls are for entries of the list. -/
structure Visited (tmdb : String → Option Int) (classified resume : List Item)
    (s : List String × Pass ω) : Prop where
  sound : Sound s.2
  completed : ∀ id, id ∈ s.1 ↔ Marked s.2.calls id
  tasks : ∀ d ∈ s.2.calls, d.1.entry ∈ resume ∧ d.1.entry.id ∈ classified.map Item.id
    ∧ taskOf tmdb d.1.entry = some d.1

theorem taskOf_entry {tmdb : String → Option Int} {item : Item} {t : Task}
    (h : taskOf tmdb item = some t) : t.entry = item := by
  unfold taskOf at h
  simp only [Option.bind_eq_bind, Option.bind_eq_some_iff, Option.some.injEq] at h
  obtain ⟨-, -, -, -, -, -, rfl⟩ := h
  rfl

theorem visit_spec {tmdb : String → Option Int} {classified resume : List Item}
    {s : List String × Pass ω} (h : Visited tmdb classified resume s) {item : Item}
    (hitem : item ∈ resume) :
    Visited tmdb classified resume (visit deps tmdb classified s item) := by
  unfold visit
  split
  · exact h
  next hclassified =>
  rw [not_not] at hclassified
  split
  · exact h
  next t htask =>
  obtain rfl := taskOf_entry htask
  have hdone : ∀ step p', completeEpisode deps s.2 t = (step, p') → ∀ ids,
      (∀ id, id ∈ ids ↔ id ∈ s.1 ∨ (∃ trakt, step = .completed trakt) ∧ t.entry.id = id) →
      Visited tmdb classified resume (ids, p') := by
    intro step p' hstep ids hids
    obtain ⟨hsound, more, hmore, hown, hmark⟩ := completeEpisode_spec h.sound hstep
    refine ⟨hsound, fun id => ?_, fun d hd => ?_⟩
    · rw [hids, h.completed, hmark]
      dsimp only
      unfold Marked
      rw [hmore]
      constructor
      · rintro (⟨d, hd, hid⟩ | ⟨hd, hid⟩)
        · exact ⟨d, List.mem_append_left _ hd, hid⟩
        · exact ⟨t, List.mem_append_right _ hd, hid⟩
      · rintro ⟨d, hd, hid⟩
        rcases List.mem_append.1 hd with hd | hd
        · exact .inl ⟨d, hd, hid⟩
        · obtain rfl : d = t := hown _ hd
          exact .inr ⟨hd, hid⟩
    · dsimp only at hd
      rw [hmore] at hd
      rcases List.mem_append.1 hd with hd | hd
      · exact h.tasks d hd
      · rw [hown d hd]
        exact ⟨hitem, hclassified, htask⟩
  split
  · next trakt p' hstep =>
    refine hdone _ _ hstep _ fun id => ?_
    simp [eq_comm, or_comm]
  · next step p' hne hstep =>
    refine hdone _ _ hstep _ fun id => ?_
    have : ¬ ∃ trakt, step = .completed trakt := fun ⟨trakt, htrakt⟩ => hne trakt htrakt
    simp [this]

/-- An episode finished on both sides: Jellyfin took the played mark, after Trakt had the
episode. -/
def Finished (calls : List (Task × Call)) (id : String) : Prop :=
  ∃ before t after, calls = before ++ (t, Call.mark (.ok ())) :: after ∧ t.entry.id = id
    ∧ TraktHas before t

theorem marked_iff_finished {calls : List (Task × Call)}
    (h : Log.EachAfter MarksAfterTrakt calls) (id : String) :
    Marked calls id ↔ Finished calls id := by
  constructor
  · rintro ⟨t, hmem, hid⟩
    obtain ⟨before, after, hsplit⟩ := List.append_of_mem hmem
    exact ⟨before, t, after, hsplit, hid, h before _ after hsplit _ rfl⟩
  · rintro ⟨before, t, after, rfl, hid, -⟩
    exact ⟨t, List.mem_append_right _ List.mem_cons_self, hid⟩

/-- The furthest episode of a series is not completed, where its id is one and names an
episode of no other series in the list. -/
def SparesFurthest (resume : List Item) (loaded : String → Option (List Item))
    (calls : List (Task × Call)) : Prop :=
  ∀ d ∈ calls, ∀ answer, d.2 = .mark answer → ∀ series episodes,
    seriesOf d.1.entry = some series → loaded series = some episodes → d.1.entry.id ≠ "" →
    (∀ item ∈ resume, item.id = d.1.entry.id → seriesOf item = some series) →
    ∀ e, Furthest episodes e → e.id ≠ d.1.entry.id

theorem Visited.sparesFurthest {tmdb : String → Option Int} {resume : List Item}
    {s : List String × Pass ω} {loaded : String → Option (List Item)} {minProgress : ℚ}
    (h : Visited tmdb ((preliminary resume minProgress).filter (isClassified loaded minProgress))
      resume s) : SparesFurthest resume loaded s.2.calls := by
  intro d hd answer _ series episodes _ hloaded hid hone e hfurthest heq
  obtain ⟨-, hclassified, -⟩ := h.tasks d hd
  obtain ⟨c, hc, hcid⟩ := List.mem_map.1 hclassified
  obtain ⟨hpreliminary, hclass⟩ := List.mem_filter.1 hc
  have hseries := hone c (List.mem_filter.1 hpreliminary).1 hcid
  unfold isClassified at hclass
  rw [hseries] at hclass
  dsimp only at hclass
  rw [hloaded, Option.getD_some, hfurthest.frontier, if_pos] at hclass
  · cases hclass
  · rw [Option.any_some, decide_eq_true_eq, heq, hcid]
    exact ⟨hid, rfl⟩

/-- What a pass may do to a list. -/
structure Lawful (resume : List Item) (out : Outcome ω) : Prop where
  /-- The list is the resume list in order without the episodes finished on both sides. -/
  removes : ∃ keep : Item → Bool, out.resume = resume.filter keep
    ∧ ∀ item, keep item = false ↔ Finished out.calls item.id
  /-- No mark is asked for before Trakt has the episode. -/
  marks : Log.EachAfter MarksAfterTrakt out.calls
  spares : SparesFurthest resume out.loaded out.calls
  /-- Trakt takes at most one history write for an episode. -/
  once : ∀ show' season episode, out.calls.countP (accepted show' season episode) ≤ 1
  /-- The calls are for entries of the list, at their coordinates. -/
  tasks : ∀ d ∈ out.calls, d.1.entry ∈ resume
    ∧ coordinate d.1.entry = some (d.1.season, d.1.episode)

/-- A pass that asks for nothing removes nothing. -/
theorem lawful_unchanged (resume : List Item) (world : ω) :
    Lawful resume ({ resume, world } : Outcome ω) where
  removes := by
    refine ⟨fun _ => true, (List.filter_true _).symm, fun item => ⟨fun h => (nomatch h), ?_⟩⟩
    rintro ⟨before, t, after, hcalls, -⟩
    cases before <;> cases hcalls
  marks := Log.eachAfter_nil
  spares := fun _ hd => absurd hd List.not_mem_nil
  once := fun _ _ _ => Nat.zero_le _
  tasks := fun _ hd => absurd hd List.not_mem_nil

theorem lawful_visitAll (deps : Deps ω) (resume : List Item) (minProgress : ℚ)
    (loaded : String → Option (List Item)) (tmdb : String → Option Int) (world : ω) :
    Lawful resume (visitAll deps resume
      ((preliminary resume minProgress).filter (isClassified loaded minProgress)) loaded tmdb
      world) := by
  obtain ⟨classified, hclassified⟩ : ∃ classified, classified
    = (preliminary resume minProgress).filter (isClassified loaded minProgress) := ⟨_, rfl⟩
  have hvisited : Visited tmdb classified resume (resume.foldl (visit deps tmdb classified)
      ([], { world, watchedBySeason := fun _ => none, calls := [] })) := by
    refine List.foldlRecOn resume _ ?_ fun s hs item hitem => visit_spec hs hitem
    refine ⟨⟨fun _ _ h => (nomatch h), fun _ _ _ => Nat.zero_le _,
      fun _ _ _ h => absurd h (Nat.lt_irrefl 0), Log.eachAfter_nil⟩, fun id => ?_,
      fun d hd => absurd hd List.not_mem_nil⟩
    refine ⟨fun h => absurd h List.not_mem_nil, ?_⟩
    rintro ⟨t, ht, -⟩
    exact absurd ht List.not_mem_nil
  rw [← hclassified]
  unfold visitAll
  generalize resume.foldl (visit deps tmdb classified)
    ([], { world, watchedBySeason := fun _ => none, calls := [] }) = s at hvisited
  subst hclassified
  exact {
    removes := by
      refine ⟨fun item => item.id ∉ s.1, rfl, fun item => ?_⟩
      rw [decide_eq_false_iff_not, not_not, hvisited.completed,
        marked_iff_finished hvisited.sound.marks]
    marks := hvisited.sound.marks
    spares := hvisited.sparesFurthest
    once := hvisited.sound.once
    tasks := by
      intro d hd
      obtain ⟨hmem, -, htask⟩ := hvisited.tasks d hd
      refine ⟨hmem, ?_⟩
      unfold taskOf at htask
      simp only [Option.bind_eq_bind, Option.bind_eq_some_iff, Option.some.injEq] at htask
      obtain ⟨_, _, coord, hcoord, _, _, htask⟩ := htask
      rw [hcoord, ← htask] }

/-- **A pass removes what it finished on both sides**, whatever it is answered. -/
theorem cleanup_lawful (deps : Deps ω) (resume : List Item) (minProgress : ℚ) (world : ω) :
    Lawful resume (cleanup deps resume minProgress world) := by
  unfold cleanup
  dsimp only
  split
  · exact lawful_unchanged resume world
  split
  · exact lawful_unchanged resume _
  · exact lawful_unchanged resume _
  · exact lawful_visitAll deps resume minProgress _ _ _

/-! ## Where the furthest episode is not told apart -/

/-- Trakt, Jellyfin and the media table take everything, and have nothing watched. -/
def agreeable (library : String → List Item) : Deps Unit where
  providersAvailable := fun w => (.ok true, w)
  seriesEpisodes := fun series w => (.ok (library series), w)
  mappedTmdbIds := fun _ w => (.ok fun _ => some 1396, w)
  seriesItem := fun _ w => (.ok none, w)
  traktSeasonStatus := fun _ _ w => (.ok (true, []), w)
  setTraktWatched := fun _ _ _ w => (.ok true, w)
  removeTraktPlayback := fun _ _ _ w => (.ok (), w)
  markJellyfinPlayed := fun _ w => (.ok (), w)

/-- An episode of a first season that is left at nine tenths. -/
def leftAt (id series : String) (number : Int) : Item :=
  { id, type := some "Episode", seriesId := some series, parentIndexNumber := some 1
    indexNumber := some number, playedPercentage := some 90, played := false
    lastPlayedDate := some "2026-10-10T20:00:00.000Z" }

/-- An episode watched to its end, a day later. -/
def watchedAfter (id series : String) (number : Int) : Item :=
  { leftAt id series number with
    playedPercentage := none, played := true
    lastPlayedDate := some "2026-10-11T20:00:00.000Z" }

/-- A mark is asked for the furthest episode in progress of the entry's own series. -/
def MarksFurthest (out : Outcome ω) : Prop :=
  ∃ d ∈ out.calls, ∃ answer series episodes, d.2 = .mark answer
    ∧ seriesOf d.1.entry = some series ∧ out.loaded series = some episodes
    ∧ Furthest episodes d.1.entry

/-- Of a series whose one episode in progress has an empty id, that episode is completed;
and of an id that is an episode of two series, completed for the one, the furthest episode
of the other. -/
theorem furthest_marked :
    MarksFurthest (cleanup (agreeable fun _ => [leftAt "" "one" 1, watchedAfter "b" "one" 2])
      [leftAt "" "one" 1] 50 ())
    ∧ MarksFurthest (cleanup (agreeable fun series =>
        if series = "one" then [leftAt "a" "one" 1, leftAt "c" "one" 2] else [leftAt "a" "two" 1])
      [leftAt "a" "one" 1, leftAt "a" "two" 1] 50 ()) := by
  constructor
  · refine ⟨(⟨leftAt "" "one" 1, 1396, 1, 1⟩, .mark (.ok ())), by decide +kernel, .ok (), "one",
      [leftAt "" "one" 1, watchedAfter "b" "one" 2], rfl, rfl, by decide +kernel,
      [], [watchedAfter "b" "one" 2], (1, 1), rfl, by decide +kernel,
      fun _ hx => absurd hx List.not_mem_nil, fun x hx c hc => ?_⟩
    have hnone : progressCoordinate (watchedAfter "b" "one" 2) = none := by decide +kernel
    rw [List.mem_singleton.1 hx, hnone] at hc
    cases hc
  · exact ⟨(⟨leftAt "a" "two" 1, 1396, 1, 1⟩, .mark (.ok ())), by decide +kernel, .ok (), "two",
      [leftAt "a" "two" 1], rfl, rfl, by decide +kernel, [], [], (1, 1), rfl, by decide +kernel,
      fun _ hx => absurd hx List.not_mem_nil, fun _ hx => absurd hx List.not_mem_nil⟩

end SkippedEpisodes

end Foreseerr

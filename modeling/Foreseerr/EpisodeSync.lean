import Mathlib.Data.List.Sort
import Foreseerr.Clock
import Foreseerr.Database
import Foreseerr.Run

/-!
# The watch-ahead sync

`jobs/episode_request_sync.rs` keeps the children of a watch-ahead request in
step with Sonarr. A pass adds the episodes of the window the request lacks,
walks over the children once, and then asks Sonarr to monitor, to search and
to unmonitor some of them. Sonarr's flags are anybody's: between two passes
they change as they like.

A child carries four stamps, read and written by seven rules in one round of
the loop. The module keeps a log of what a run of passes asked for, and proves
that a child is fetched once: `FetchedOnce`. Two rounds fall outside of it,
both by an oversight: one stamps a child as monitored that Sonarr monitored
already, the other asks to monitor a child it has just found downloaded.
-/

namespace Foreseerr

/-! ## What a pass reads -/

/-- An episode as Sonarr lists it. `airsAt` is `airDateUtc` where it is
truthy, read as an instant where it parses. -/
structure SonarrEpisode where
  id : Option Int := none
  tvdbId : Option Int := none
  hasFile : Bool := false
  monitored : Bool := false
  airDate : Option String := none
  airsAt : Option (Option Int) := none
deriving DecidableEq, Repr

/-- `CatalogEpisode`. -/
structure CatalogEpisode where
  tvdbId : Int
  season : Int := 0
  episode : Int := 0
  title : String := ""
  airDate : Option String := none
deriving DecidableEq, Repr

/-- What one pass over a watch-ahead request reads: Sonarr's episodes and
status of the series, whether the series follows another order than the
aired one, the server's `preventSearch`, the window the request should cover
(`none` when it couldn't be read), whether another approved request is for
the same series, and the clock at each of its three readings. -/
structure SyncPass where
  episodes : List SonarrEpisode
  seriesStatus : Option String := some "continuing"
  otherOrder : Bool := false
  preventSearch : Bool := false
  desired : Option (List CatalogEpisode) := none
  sharedSeries : Bool := false
  now : Int := 0
  askedAt : Int := 0
  searchedAt : Int := 0
deriving DecidableEq, Repr

/-- `by_tvdb`: the last episode Sonarr lists under a TVDB id. -/
def SyncPass.byTvdb (pass : SyncPass) (tvdbId : Int) : Option SonarrEpisode :=
  (pass.episodes.filter (·.tvdbId == some tvdbId)).getLast?

/-- `window`: the TVDB ids of the desired window. -/
def SyncPass.window (pass : SyncPass) : Option (List Int) :=
  pass.desired.map fun desired => desired.map (·.tvdbId)

/-! ## What is kept between passes -/

/-- A watch-ahead request's children, its `watchAheadInactiveAt`, the
children missed last time, and the id the database gives next. -/
structure SyncState where
  episodes : List EpisodeRequestRow
  watchAheadInactiveAt : Option String := none
  missed : List Int := []
  nextId : Int := 1
deriving DecidableEq, Repr

/-- A call to Sonarr: which of its episodes, by the child each is for. -/
inductive SonarrCall
  /-- `PUT /episode/monitor`. -/
  | setMonitored (episodes : List (Int × Option Int)) (monitored : Bool)
  /-- `POST /command` with `EpisodeSearch`. -/
  | search (episodes : List (Int × Option Int))
deriving DecidableEq, Repr

/-! ## The rules -/

/-- `awaits_monitor`. -/
def awaitsMonitor (inWindow hasFile : Bool) (status : Int) (monitoredAt : Bool) : Bool :=
  inWindow && !hasFile && status != RequestStatus.completed && !monitoredAt

/-- `wants_search`. -/
def wantsSearch (isNew monitored awaiting : Bool) (status : Int) : Bool :=
  (isNew || monitored || awaiting) && status != RequestStatus.completed

/-- `removed_externally`. -/
def removedExternally (hasFile monitored : Bool) (status : Int) (monitoredAt : Bool) : Bool :=
  !hasFile && !monitored && (status == RequestStatus.completed || monitoredAt)

/-- `takes_back_monitor`. -/
def takesBackMonitor (hasFile monitored : Bool) (status : Int) (monitoredAt : Bool) : Bool :=
  !hasFile && monitored && status == RequestStatus.completed && monitoredAt

/-- `missed_again`: whether a child was missed the last time too, and the
children missed once after it. -/
def missedAgain (missed : List Int) (child : Int) : Bool × List Int :=
  if missed.contains child then (true, missed.filter (· ≠ child)) else (false, child :: missed)

/-- `revival_wanted`. -/
def revivalWanted (watchAhead inWindow : Bool) : Bool := !watchAhead || inWindow

/-- `window_inactive`. -/
def windowInactive (window removed : List Int) : Bool :=
  !window.isEmpty && window.all fun tvdbId => removed.contains tvdbId

/-- `revive`. -/
def revive (child : EpisodeRequestRow) : EpisodeRequestRow :=
  { child with
    status := RequestStatus.approved
    monitoredAt := none
    unmonitoredAt := none
    searchTriggeredAt := none }

/-- Where a request's episodes stand. -/
inductive EpisodesDone
  | pending
  | complete
  | allFailed
deriving DecidableEq, Repr

/-- `episodes_done`. -/
def episodesDone (episodes : List EpisodeRequestRow) : EpisodesDone :=
  if !episodes.isEmpty && episodes.all (·.status == RequestStatus.failed) then .allFailed
  else if episodes.all fun e =>
      e.status == RequestStatus.completed || e.status == RequestStatus.failed then .complete
  else .pending

/-! ## Expanding the window -/

/-- `ORDER BY "seasonNumber" ASC, "episodeNumber" ASC, "id" ASC`. -/
def rowBefore (a b : EpisodeRequestRow) : Prop :=
  a.seasonNumber < b.seasonNumber
    ∨ a.seasonNumber = b.seasonNumber
      ∧ (a.episodeNumber < b.episodeNumber
        ∨ a.episodeNumber = b.episodeNumber ∧ a.id ≤ b.id)

instance : DecidableRel rowBefore := fun a b =>
  inferInstanceAs (Decidable (a.seasonNumber < b.seasonNumber ∨ _))

/-- `insert_episodes`: the rows of new children, under the next ids. -/
def insertEpisodes (pass : SyncPass) (nextId : Int) : List CatalogEpisode → List EpisodeRequestRow
  | [] => []
  | e :: rest =>
    { id := nextId
      tvdbId := e.tvdbId
      seasonNumber := e.season
      episodeNumber := e.episode
      title := some e.title
      airDate := e.airDate.or ((pass.byTvdb e.tvdbId).bind (·.airDate))
      status :=
        if (pass.byTvdb e.tvdbId).any (·.hasFile) then RequestStatus.completed
        else RequestStatus.approved } :: insertEpisodes pass (nextId + 1) rest

/-- The request once `expand_watch_ahead` added what the window lacks, the
TVDB ids it counts as additions, and whether nothing is left to watch
ahead. -/
structure Expansion where
  state : SyncState
  additions : List Int := []
  caughtUp : Bool := false
deriving DecidableEq, Repr

/-- `expand_watch_ahead`, and the reload after an insertion. Downloaded
episodes of the window are tracked too, as completed children. -/
def expandWatchAhead (s : SyncState) (pass : SyncPass) : Expansion :=
  match pass.desired with
  | none => { state := s }
  | some desired =>
    let fresh := desired.filter fun e => !(s.episodes.map (·.tvdbId)).contains e.tvdbId
    if fresh.isEmpty then
      { state := s, caughtUp := desired.isEmpty }
    else
      let inserted := insertEpisodes pass s.nextId fresh
      { state := { s with
          episodes := (s.episodes ++ inserted).insertionSort rowBefore
          nextId := s.nextId + inserted.length }
        additions :=
          (inserted.filter (·.status != RequestStatus.completed)).map (·.tvdbId) }

/-! ## One round of the loop -/

/-- What a round of the loop makes of a child: its row as stored when Sonarr
is asked, and which of the lists it joins. -/
structure ChildSync where
  row : EpisodeRequestRow
  sonarrId : Option Int := none
  hasFile : Bool := false
  revived : Bool := false
  asks : Bool := false
  stamps : Bool := false
  takesBack : Bool := false
  gone : Bool := false
  searches : Bool := false
deriving DecidableEq, Repr

/-- `aired`: without a date, or with one that has passed. -/
def SonarrEpisode.aired (episode : SonarrEpisode) (now : Int) : Bool :=
  match episode.airsAt with
  | none => true
  | some at_ => at_.any (· ≤ now)

/-- A child Sonarr lists. -/
def syncListed (pass : SyncPass) (additions : List Int) (episode : SonarrEpisode)
    (child : EpisodeRequestRow) : ChildSync :=
  let inWindow := pass.window.any (·.contains child.tvdbId)
  let revived := child.status == RequestStatus.failed
  let child := if revived then revive child else child
  let isNew := additions.contains child.tvdbId || (revived && revivalWanted true inWindow)
  let monitoredAt := child.monitoredAt.isSome
  let awaiting := awaitsMonitor inWindow episode.hasFile child.status monitoredAt
  let gone :=
    inWindow && removedExternally episode.hasFile episode.monitored child.status monitoredAt
  let unmonitoredAt :=
    if pass.window.isSome && gone != child.unmonitoredAt.isSome then
      if gone then some (iso pass.now) else none
    else child.unmonitoredAt
  let searches := !episode.hasFile
    && wantsSearch isNew episode.monitored awaiting child.status
    && !pass.preventSearch && child.searchTriggeredAt.isNone && episode.aired pass.now
  { row := { child with
      unmonitoredAt := unmonitoredAt
      status := if episode.hasFile then RequestStatus.completed else child.status }
    sonarrId := episode.id
    hasFile := episode.hasFile
    revived := revived
    asks := (isNew || awaiting) && !episode.monitored
    stamps := awaiting
    takesBack := takesBackMonitor episode.hasFile episode.monitored child.status monitoredAt
    gone := gone
    searches := searches }

/-- One child, and the children missed once after it. A child Sonarr doesn't
list fails on the second miss in a row, in another order than the aired one. -/
def syncChild (pass : SyncPass) (additions missed : List Int) (child : EpisodeRequestRow) :
    ChildSync × List Int :=
  match pass.byTvdb child.tvdbId with
  | some episode => (syncListed pass additions episode child, missed.filter (· ≠ child.id))
  | none =>
    if pass.otherOrder && child.status == RequestStatus.approved then
      let again := missedAgain missed child.id
      ({ row := if again.1 then { child with status := RequestStatus.failed } else child }, again.2)
    else ({ row := child }, missed)

/-- The loop over the children. -/
def syncChildren (pass : SyncPass) (additions : List Int) :
    List Int → List EpisodeRequestRow → List ChildSync × List Int
  | missed, [] => ([], missed)
  | missed, child :: rest =>
    let own := syncChild pass additions missed child
    let others := syncChildren pass additions own.2 rest
    (own.1 :: others.1, others.2)

/-! ## A pass -/

/-- What a pass did, for the record: the calls it sent in order, the children
it revived, those it read with a file, and the rows as stored when it sent
the calls. -/
structure PassLog where
  calls : List SonarrCall := []
  revived : List Int := []
  withFile : List Int := []
  stored : List EpisodeRequestRow := []
deriving DecidableEq, Repr

/-- The children a list of rounds picks, with their Sonarr ids. -/
def picked (pick : ChildSync → Bool) (rounds : List ChildSync) : List (Int × Option Int) :=
  (rounds.filter pick).map fun r => (r.row.id, r.sonarrId)

/-- `save_child_dates`: change the rows of some children. -/
def saveChildren (children : List Int) (change : EpisodeRequestRow → EpisodeRequestRow)
    (rows : List EpisodeRequestRow) : List EpisodeRequestRow :=
  rows.map fun row => if children.contains row.id then change row else row

/-- The status a request is saved with when its episodes are done: the
series' own status decides where the whole window was watched. -/
def requestOutcome (pass : SyncPass) (caughtUp : Bool) (rows : List EpisodeRequestRow) :
    Except String (Option Int) :=
  if pass.desired.isSome && caughtUp then
    match pass.seriesStatus with
    | none => .error "toLowerCase is missing"
    | some status =>
      .ok <| if status.toLower = "ended" then
          match episodesDone rows with
          | .complete => some RequestStatus.completed
          | .allFailed => some RequestStatus.failed
          | .pending => none
        else none
  else .ok none

/-- What a pass leaves: the state, the record, and the status the request is
saved with. -/
structure PassResult where
  state : SyncState
  log : PassLog
  outcome : Except String (Option Int)

/-- `reconcile` of a watch-ahead request, with every write and call
succeeding. -/
def reconcile (s : SyncState) (pass : SyncPass) : PassResult :=
  let expansion := expandWatchAhead s pass
  let loop := syncChildren pass expansion.additions s.missed expansion.state.episodes
  let rounds := loop.1
  let stored := rounds.map (·.row)
  let removed := (rounds.filter (·.gone)).map (·.row.tvdbId)
  let inactiveAt := match pass.window with
    | none => s.watchAheadInactiveAt
    | some window =>
      let inactive := windowInactive window removed
      if inactive != s.watchAheadInactiveAt.isSome then
        if inactive then some (iso pass.now) else none
      else s.watchAheadInactiveAt
  let unmonitored := picked (·.asks) rounds
  let searchable := picked (·.searches) rounds
  let deleted := if pass.sharedSeries then [] else picked (·.takesBack) rounds
  let monitor := if unmonitored.isEmpty then [] else [SonarrCall.setMonitored unmonitored true]
  let search := if searchable.isEmpty then [] else [SonarrCall.search searchable]
  let unmonitor := if deleted.isEmpty then [] else [SonarrCall.setMonitored deleted false]
  let newlyMonitored := (picked (·.stamps) rounds).map (·.1)
  let stampedAt := iso pass.askedAt
  let searchedAt := iso pass.searchedAt
  let rows := saveChildren newlyMonitored ({ · with monitoredAt := some stampedAt }) stored
  let rows := saveChildren (searchable.map (·.1)) ({ · with searchTriggeredAt := some searchedAt }) rows
  let rows := saveChildren (deleted.map (·.1)) ({ · with monitoredAt := none }) rows
  { state :=
      { episodes := rows
        watchAheadInactiveAt := inactiveAt
        missed := loop.2
        nextId := expansion.state.nextId }
    log :=
      { calls := monitor ++ search ++ unmonitor
        revived := (picked (·.revived) rounds).map (·.1)
        withFile := (picked (·.hasFile) rounds).map (·.1)
        stored := stored }
    outcome := requestOutcome pass expansion.caughtUp stored }

/-! ## What a run asked for -/

/-- The children a call asks to monitor. -/
def SonarrCall.monitors : SonarrCall → List Int
  | setMonitored episodes true => episodes.map (·.1)
  | setMonitored _ false => []
  | search _ => []

/-- The children a call asks to unmonitor. -/
def SonarrCall.unmonitors : SonarrCall → List Int
  | setMonitored _ true => []
  | setMonitored episodes false => episodes.map (·.1)
  | search _ => []

/-- The children a call asks to search. -/
def SonarrCall.searches : SonarrCall → List Int
  | setMonitored _ _ => []
  | search episodes => episodes.map (·.1)

/-- The children a pass asked to monitor. -/
def PassLog.monitored (log : PassLog) : List Int := log.calls.flatMap SonarrCall.monitors

/-- The children a pass asked to unmonitor. -/
def PassLog.unmonitored (log : PassLog) : List Int := log.calls.flatMap SonarrCall.unmonitors

/-- The children a pass asked to search. -/
def PassLog.searched (log : PassLog) : List Int := log.calls.flatMap SonarrCall.searches

/-- How often a child was asked to be monitored since it was last revived. -/
def asksSinceRevival (child : Int) (log : List PassLog) : Nat :=
  Log.countSince (fun pass => pass.revived.contains child) (fun pass => pass.monitored.count child) log

/-- How often a child was asked to be unmonitored since it was last asked to
be monitored. -/
def takenBackSinceAsk (child : Int) (log : List PassLog) : Nat :=
  Log.countSince (fun pass => pass.monitored.contains child)
    (fun pass => pass.unmonitored.count child) log

/-- **A child is fetched once.** It is asked to be monitored at most once
between two revivals; never asked to be monitored or searched while it is
stored as completed; asked to be unmonitored only after it was asked to be
monitored and read with a file, and at most once for each time it was asked
to be monitored. -/
structure FetchedOnce (child : Int) (log : List PassLog) : Prop where
  monitoredOnce : asksSinceRevival child log ≤ 1
  neverCompleted : ∀ pass ∈ log, child ∈ pass.monitored ∨ child ∈ pass.searched →
    ∀ row ∈ pass.stored, row.id = child → row.status ≠ RequestStatus.completed
  takesBackOwn : Log.EachAfter (fun before pass => child ∈ pass.unmonitored →
    (∃ earlier ∈ before, child ∈ earlier.monitored)
      ∧ ∃ earlier ∈ before, child ∈ earlier.withFile) log
  takenBackOnce : takenBackSinceAsk child log ≤ 1

/-- A request's sync with the record of its passes. -/
structure SyncHistory where
  state : SyncState
  log : List PassLog := []

/-- One pass, recorded. -/
def SyncStep (h : SyncHistory) (pass : SyncPass) (t : SyncHistory) : Prop :=
  t = { state := (reconcile h.state pass).state, log := h.log ++ [(reconcile h.state pass).log] }

/-! ## The rounds where the count goes wrong -/

/-- A round that would stamp a child Sonarr monitors already: in the window,
without a file, and not stamped, or revived in this round. -/
def MonitoredElsewhere (pass : SyncPass) (child : EpisodeRequestRow) : Prop :=
  ∃ episode ∈ pass.byTvdb child.tvdbId, episode.monitored ∧ ¬episode.hasFile
    ∧ pass.window.any (·.contains child.tvdbId)
    ∧ (child.status = RequestStatus.failed
      ∨ child.status ≠ RequestStatus.completed ∧ child.monitoredAt = none)

/-- A round that revives a child of the window that Sonarr has downloaded and
does not monitor. -/
def RevivedWithFile (pass : SyncPass) (child : EpisodeRequestRow) : Prop :=
  ∃ episode ∈ pass.byTvdb child.tvdbId, ¬episode.monitored ∧ episode.hasFile
    ∧ pass.window.any (·.contains child.tvdbId)
    ∧ child.status = RequestStatus.failed

/-- **A pass without either of the two.** -/
def KeepsCount (s : SyncState) (pass : SyncPass) : Prop :=
  ∀ child ∈ (expandWatchAhead s pass).state.episodes,
    ¬MonitoredElsewhere pass child ∧ ¬RevivedWithFile pass child

instance (pass : SyncPass) (child : EpisodeRequestRow) :
    Decidable (MonitoredElsewhere pass child) :=
  inferInstanceAs (Decidable (∃ episode ∈ pass.byTvdb child.tvdbId, _))

instance (pass : SyncPass) (child : EpisodeRequestRow) : Decidable (RevivedWithFile pass child) :=
  inferInstanceAs (Decidable (∃ episode ∈ pass.byTvdb child.tvdbId, _))

instance (s : SyncState) (pass : SyncPass) : Decidable (KeepsCount s pass) :=
  inferInstanceAs (Decidable
    (∀ child ∈ (expandWatchAhead s pass).state.episodes, _ ∧ _))

/-! ## One round -/

/-- What the expansion promises of a child: one it counts as an addition is
new, approved, in the window and without a file. -/
def AdditionSound (pass : SyncPass) (additions : List Int) (child : EpisodeRequestRow) : Prop :=
  child.tvdbId ∈ additions →
    child.status = RequestStatus.approved ∧ child.monitoredAt = none
      ∧ pass.window.any (·.contains child.tvdbId)
      ∧ ∀ episode, pass.byTvdb child.tvdbId = some episode → episode.hasFile = false

/-- **What a round does to a child**, where the count goes right. -/
structure RoundSpec (child : EpisodeRequestRow) (r : ChildSync) : Prop where
  id : r.row.id = child.id
  asks : r.asks = r.stamps
  stamps : r.stamps = true →
    r.row.status ≠ RequestStatus.completed ∧ r.row.monitoredAt = none
  takesBack : r.takesBack = true →
    child.status = RequestStatus.completed ∧ child.monitoredAt.isSome
      ∧ r.revived = false ∧ r.stamps = false
  searches : r.searches = true → r.row.status ≠ RequestStatus.completed
  revived : r.revived = true → r.row.monitoredAt = none
  kept : r.revived = false → r.row.monitoredAt = child.monitoredAt
    ∧ (child.status = RequestStatus.completed → r.row.status = RequestStatus.completed)
  completes : r.row.status = RequestStatus.completed →
    r.revived = false ∧ child.status = RequestStatus.completed ∨ r.hasFile = true

theorem syncListed_spec {pass : SyncPass} {additions : List Int} {child : EpisodeRequestRow}
    {episode : SonarrEpisode} (hepisode : pass.byTvdb child.tvdbId = some episode)
    (hadded : AdditionSound pass additions child) (helsewhere : ¬MonitoredElsewhere pass child)
    (hfile : ¬RevivedWithFile pass child) :
    RoundSpec child (syncListed pass additions episode child) := by
  have hadded : child.tvdbId ∈ additions → child.status = RequestStatus.approved
      ∧ child.monitoredAt.isSome = false ∧ pass.window.any (·.contains child.tvdbId)
      ∧ episode.hasFile = false := by
    intro hmem
    obtain ⟨hstatus, hnone, hwindow, hfile⟩ := hadded hmem
    exact ⟨hstatus, by simp [hnone], hwindow, hfile episode hepisode⟩
  have helsewhere : episode.monitored = true → episode.hasFile = false →
      pass.window.any (·.contains child.tvdbId) = true →
      child.status ≠ RequestStatus.failed
        ∧ (child.status = RequestStatus.completed ∨ child.monitoredAt.isSome = true) := by
    intro hmonitored hnone hwindow
    have hnot : ¬(child.status = RequestStatus.failed
        ∨ child.status ≠ RequestStatus.completed ∧ child.monitoredAt = none) :=
      fun hor => helsewhere ⟨episode, hepisode, hmonitored, by simp [hnone], hwindow, hor⟩
    rw [not_or, not_and_or, not_not] at hnot
    simpa [Option.isSome_iff_ne_none] using hnot
  have hfile : episode.monitored = false → episode.hasFile = true →
      pass.window.any (·.contains child.tvdbId) = true → child.status ≠ RequestStatus.failed :=
    fun hmonitored hhas hwindow hfailed =>
      hfile ⟨episode, hepisode, by simp [hmonitored], hhas, hwindow, hfailed⟩
  have hcontains : additions.contains child.tvdbId = true ↔ child.tvdbId ∈ additions := by simp
  have hnone : child.monitoredAt = none ↔ child.monitoredAt.isSome = false := by simp
  unfold syncListed
  generalize pass.window.any (·.contains child.tvdbId) = inWindow at *
  generalize additions.contains child.tvdbId = added at *
  by_cases hfailed : child.status = RequestStatus.failed
  · have hrevived : (child.status == RequestStatus.failed) = true := by simpa using hfailed
    simp only [hrevived, revive, if_true]
    constructor <;> grind [awaitsMonitor, wantsSearch, takesBackMonitor, revivalWanted]
  · have hrevived : (child.status == RequestStatus.failed) = false := by simpa using hfailed
    simp only [hrevived]
    constructor <;> grind [awaitsMonitor, wantsSearch, takesBackMonitor, revivalWanted]

theorem syncChild_spec {pass : SyncPass} {additions missed : List Int} {child : EpisodeRequestRow}
    (hadded : AdditionSound pass additions child) (helsewhere : ¬MonitoredElsewhere pass child)
    (hfile : ¬RevivedWithFile pass child) :
    RoundSpec child (syncChild pass additions missed child).1 := by
  unfold syncChild
  split
  · next episode hepisode => exact syncListed_spec hepisode hadded helsewhere hfile
  · split
    · next happroved =>
      constructor <;> grind
    · constructor <;> grind

theorem row_id_syncChild (pass : SyncPass) (additions missed : List Int)
    (child : EpisodeRequestRow) : (syncChild pass additions missed child).1.row.id = child.id := by
  unfold syncChild
  split
  · unfold syncListed
    dsimp only
    split <;> rfl
  · split
    · dsimp only
      split <;> rfl
    · rfl

/-- The rounds are the children's, one each and in their order. -/
theorem map_id_syncChildren (pass : SyncPass) (additions missed : List Int)
    (children : List EpisodeRequestRow) :
    (syncChildren pass additions missed children).1.map (·.row.id) = children.map (·.id) := by
  induction children generalizing missed with
  | nil => rfl
  | cons child rest ih =>
    show (syncChild pass additions missed child).1.row.id :: _ = _
    rw [row_id_syncChild, ih, List.map_cons]

/-- Every round is a child's, over what was missed before it. -/
theorem mem_syncChildren {pass : SyncPass} {additions missed : List Int}
    {children : List EpisodeRequestRow} {r : ChildSync}
    (h : r ∈ (syncChildren pass additions missed children).1) :
    ∃ child ∈ children, ∃ missed, r = (syncChild pass additions missed child).1 := by
  induction children generalizing missed with
  | nil => cases h
  | cons child rest ih =>
    rcases List.mem_cons.mp h with rfl | h
    · exact ⟨child, List.mem_cons_self, missed, rfl⟩
    · obtain ⟨other, hother, hr⟩ := ih h
      exact ⟨other, List.mem_cons_of_mem _ hother, hr⟩

/-! ## The expansion -/

/-- A row inserted for one of some fresh episodes, under an id of a range. -/
structure Inserted (pass : SyncPass) (fresh : List CatalogEpisode) (fromId toId : Int)
    (row : EpisodeRequestRow) : Prop where
  unstamped : row.monitoredAt = none
  id_le : fromId ≤ row.id
  id_lt : row.id < toId
  fresh : row.tvdbId ∈ fresh.map (·.tvdbId)
  status : row.status = if (pass.byTvdb row.tvdbId).any (·.hasFile) then RequestStatus.completed
    else RequestStatus.approved

theorem insertEpisodes_spec (pass : SyncPass) (nextId : Int) (fresh : List CatalogEpisode) :
    ((insertEpisodes pass nextId fresh).map (·.id)).Nodup
      ∧ ∀ row ∈ insertEpisodes pass nextId fresh,
        Inserted pass fresh nextId (nextId + (insertEpisodes pass nextId fresh).length) row := by
  induction fresh generalizing nextId with
  | nil => exact ⟨List.nodup_nil, by simp [insertEpisodes]⟩
  | cons e rest ih =>
    obtain ⟨hnodup, hrows⟩ := ih (nextId + 1)
    unfold insertEpisodes
    simp only [List.length_cons]
    constructor
    · rw [List.map_cons, List.nodup_cons]
      refine ⟨fun hmem => ?_, hnodup⟩
      obtain ⟨row, hrow, hid⟩ := List.mem_map.mp hmem
      have hle := (hrows row hrow).id_le
      dsimp only at hid
      omega
    · intro row hrow
      rcases List.mem_cons.mp hrow with rfl | hrow
      · refine ⟨rfl, le_rfl, ?_, List.mem_cons_self, rfl⟩
        dsimp only
        omega
      · obtain ⟨hnone, hle, hlt, htvdb, hstatus⟩ := hrows row hrow
        exact ⟨hnone, by omega, by omega, List.mem_cons_of_mem _ htvdb, hstatus⟩

/-- The ids of a request's children are distinct and below the next one. -/
structure SyncState.IdsInv (s : SyncState) : Prop where
  nodup : (s.episodes.map (·.id)).Nodup
  lt : ∀ row ∈ s.episodes, row.id < s.nextId

/-- The sound additions of fresh episodes. -/
theorem additionSound_inserted {s : SyncState} {pass : SyncPass} {desired fresh : List CatalogEpisode}
    (hdesired : pass.desired = some desired) (hsub : ∀ e ∈ fresh, e ∈ desired)
    (hnew : ∀ e ∈ fresh, e.tvdbId ∉ s.episodes.map (·.tvdbId)) {row : EpisodeRequestRow}
    (hrow : row ∈ s.episodes ∨ row ∈ insertEpisodes pass s.nextId fresh) :
    AdditionSound pass
      (((insertEpisodes pass s.nextId fresh).filter (·.status != RequestStatus.completed)).map
        (·.tvdbId)) row := by
  obtain ⟨-, hinserted⟩ := insertEpisodes_spec pass s.nextId fresh
  intro hmem
  obtain ⟨added, hadded, htvdb⟩ := List.mem_map.mp hmem
  obtain ⟨hadded, hopen⟩ := List.mem_filter.mp hadded
  obtain ⟨e, he, hetvdb⟩ := List.mem_map.mp (hinserted added hadded).fresh
  have hrow : row ∈ insertEpisodes pass s.nextId fresh := by
    refine hrow.resolve_left fun hold => hnew e he ?_
    rw [hetvdb, htvdb]
    exact List.mem_map_of_mem hold
  have hstatus := (hinserted row hrow).status
  have hsame := (hinserted added hadded).status
  rw [htvdb] at hsame
  have hnofile : (pass.byTvdb row.tvdbId).any (·.hasFile) = false := by
    by_contra hfile
    rw [Bool.not_eq_false] at hfile
    rw [hfile, if_pos rfl] at hsame
    simp [hsame] at hopen
  refine ⟨?_, (hinserted row hrow).unstamped, ?_, fun episode hepisode => ?_⟩
  · rw [hstatus, hnofile]
    rfl
  · unfold SyncPass.window
    rw [hdesired]
    show (desired.map (·.tvdbId)).contains row.tvdbId = true
    rw [List.contains_iff_mem, ← htvdb, ← hetvdb]
    exact List.mem_map_of_mem (hsub e he)
  · simpa [hepisode] using hnofile

/-- **The expansion**: the ids stay distinct, a row that was not there before
is unstamped and under a new id, and the additions are sound. -/
theorem expandWatchAhead_spec {s : SyncState} (h : s.IdsInv) (pass : SyncPass) :
    (expandWatchAhead s pass).state.IdsInv
      ∧ s.nextId ≤ (expandWatchAhead s pass).state.nextId
      ∧ ∀ row ∈ (expandWatchAhead s pass).state.episodes,
        (row ∈ s.episodes ∨ row.monitoredAt = none ∧ s.nextId ≤ row.id)
          ∧ AdditionSound pass (expandWatchAhead s pass).additions row := by
  unfold expandWatchAhead
  split
  · exact ⟨h, le_rfl, fun row hrow => ⟨.inl hrow, fun hmem => by cases hmem⟩⟩
  · next desired hdesired =>
    dsimp only
    split
    · exact ⟨h, le_rfl, fun row hrow => ⟨.inl hrow, fun hmem => by cases hmem⟩⟩
    · generalize hfresh : (desired.filter fun e =>
        !(s.episodes.map (·.tvdbId)).contains e.tvdbId) = fresh
      have hsub : ∀ e ∈ fresh, e ∈ desired := by
        intro e he
        rw [← hfresh] at he
        exact (List.mem_filter.mp he).1
      have hnew : ∀ e ∈ fresh, e.tvdbId ∉ s.episodes.map (·.tvdbId) := by
        intro e he
        rw [← hfresh] at he
        simpa using (List.mem_filter.mp he).2
      obtain ⟨hnodup, hinserted⟩ := insertEpisodes_spec pass s.nextId fresh
      have hperm := List.perm_insertionSort rowBefore
        (s.episodes ++ insertEpisodes pass s.nextId fresh)
      have hmem : ∀ row, row ∈ (s.episodes ++ insertEpisodes pass s.nextId fresh).insertionSort
          rowBefore ↔ row ∈ s.episodes ∨ row ∈ insertEpisodes pass s.nextId fresh := by
        intro row
        rw [hperm.mem_iff, List.mem_append]
      refine ⟨⟨?_, fun row hrow => ?_⟩, by dsimp only; omega, fun row hrow => ⟨?_, ?_⟩⟩
      · rw [(hperm.map _).nodup_iff, List.map_append, List.nodup_append]
        refine ⟨h.nodup, hnodup, fun a ha b hb heq => ?_⟩
        obtain ⟨old, hold, rfl⟩ := List.mem_map.mp ha
        obtain ⟨row, hrow, rfl⟩ := List.mem_map.mp hb
        have hlt := h.lt old hold
        have hle := (hinserted row hrow).id_le
        omega
      · rcases (hmem row).mp hrow with hold | hrow
        · have hlt := h.lt row hold
          dsimp only
          omega
        · exact (hinserted row hrow).id_lt
      · exact ((hmem row).mp hrow).imp_right fun hrow =>
          ⟨(hinserted row hrow).unstamped, (hinserted row hrow).id_le⟩
      · exact additionSound_inserted hdesired hsub hnew ((hmem row).mp hrow)

/-! ## A pass, child by child -/

/-- The rounds of a pass. -/
def passRounds (s : SyncState) (pass : SyncPass) : List ChildSync :=
  (syncChildren pass (expandWatchAhead s pass).additions s.missed
    (expandWatchAhead s pass).state.episodes).1

/-- Whether a round has a child's episode unmonitored. -/
def ChildSync.unmonitors (r : ChildSync) (pass : SyncPass) : Bool :=
  r.takesBack && !pass.sharedSeries

/-- A child's row once the dates are saved. -/
def ChildSync.saved (r : ChildSync) (pass : SyncPass) : EpisodeRequestRow :=
  let row := if r.stamps then { r.row with monitoredAt := some (iso pass.askedAt) } else r.row
  let row := if r.searches then { row with searchTriggeredAt := some (iso pass.searchedAt) } else row
  if r.unmonitors pass then { row with monitoredAt := none } else row

section Rounds

variable {rounds : List ChildSync} {pick : ChildSync → Bool} {pass : SyncPass} {s : SyncState}

/-- Who a list of rounds picks. -/
theorem mem_picked {child : Int} :
    child ∈ (picked pick rounds).map (·.1) ↔ ∃ r ∈ rounds, pick r = true ∧ r.row.id = child := by
  simp [picked, and_assoc]

theorem mem_picked_of_mem (hnodup : (rounds.map (·.row.id)).Nodup) {r : ChildSync}
    (hr : r ∈ rounds) : r.row.id ∈ (picked pick rounds).map (·.1) ↔ pick r = true := by
  rw [mem_picked]
  refine ⟨fun ⟨other, hother, hpick, hid⟩ => ?_, fun hpick => ⟨r, hr, hpick, rfl⟩⟩
  rwa [List.inj_on_of_nodup_map hnodup hother hr hid] at hpick

/-- A child is picked at most once. -/
theorem count_picked (hnodup : (rounds.map (·.row.id)).Nodup) {r : ChildSync} (hr : r ∈ rounds) :
    ((picked pick rounds).map (·.1)).count r.row.id = if pick r then 1 else 0 := by
  have hpicked : ((picked pick rounds).map (·.1)).Nodup := by
    have hsub : ((rounds.filter pick).map (·.row.id)).Sublist (rounds.map (·.row.id)) :=
      List.filter_sublist.map _
    unfold picked
    rw [List.map_map]
    exact hnodup.sublist hsub
  split
  · next hpick => exact List.count_eq_one_of_mem hpicked ((mem_picked_of_mem hnodup hr).mpr hpick)
  · next hpick => exact List.count_eq_zero.mpr (mt (mem_picked_of_mem hnodup hr).mp hpick)

/-- Saving a date of the children picked saves it round by round. -/
theorem saveChildren_picked (hnodup : (rounds.map (·.row.id)).Nodup)
    {row : ChildSync → EpisodeRequestRow} (hrow : ∀ r, (row r).id = r.row.id)
    (change : EpisodeRequestRow → EpisodeRequestRow) :
    saveChildren ((picked pick rounds).map (·.1)) change (rounds.map row)
      = rounds.map fun r => if pick r then change (row r) else row r := by
  unfold saveChildren
  rw [List.map_map]
  refine List.map_congr_left fun r hr => ?_
  have hmem : r.row.id ∈ (picked pick rounds).map (·.1) ↔ pick r = true :=
    mem_picked_of_mem hnodup hr
  rw [← List.contains_iff_mem] at hmem
  show (if ((picked pick rounds).map (·.1)).contains (row r).id then change (row r) else row r) = _
  rw [hrow]
  exact if_congr hmem rfl rfl

theorem nodup_passRounds (h : s.IdsInv) (pass : SyncPass) :
    ((passRounds s pass).map (·.row.id)).Nodup := by
  unfold passRounds
  rw [map_id_syncChildren]
  exact (expandWatchAhead_spec h pass).1.nodup

/-- The children unmonitored, unless another request shares the series. -/
theorem deleted_eq (s : SyncState) (pass : SyncPass) :
    (if pass.sharedSeries then [] else picked (·.takesBack) (passRounds s pass))
      = picked (·.unmonitors pass) (passRounds s pass) := by
  unfold picked ChildSync.unmonitors
  cases pass.sharedSeries <;> simp

/-- **The rows a pass leaves**: each round's, with its dates saved. -/
theorem episodes_reconcile (h : s.IdsInv) (pass : SyncPass) :
    (reconcile s pass).state.episodes = (passRounds s pass).map (·.saved pass) := by
  have hnodup := nodup_passRounds h pass
  show saveChildren (List.map (·.1) (if pass.sharedSeries then [] else picked _ (passRounds s pass)))
    _ (saveChildren (List.map (·.1) (picked _ (passRounds s pass))) _
      (saveChildren (List.map (·.1) (picked _ (passRounds s pass))) _
        (List.map (·.row) (passRounds s pass)))) = _
  rw [deleted_eq, saveChildren_picked hnodup (fun r => rfl), saveChildren_picked hnodup,
    saveChildren_picked hnodup]
  · rfl
  · intro r
    split <;> split <;> rfl
  · intro r
    split <;> rfl

theorem flatMap_call {f : List (Int × Option Int) → SonarrCall} {g : SonarrCall → List Int}
    (hnil : g (f []) = []) (l : List (Int × Option Int)) :
    (if l.isEmpty then [] else [f l]).flatMap g = g (f l) := by
  cases l with
  | nil => exact hnil.symm
  | cons a l => simp

/-- The calls of a pass. -/
theorem calls_reconcile (s : SyncState) (pass : SyncPass) :
    (reconcile s pass).log.calls
      = (if (picked (·.asks) (passRounds s pass)).isEmpty then []
          else [SonarrCall.setMonitored (picked (·.asks) (passRounds s pass)) true])
        ++ (if (picked (·.searches) (passRounds s pass)).isEmpty then []
          else [SonarrCall.search (picked (·.searches) (passRounds s pass))])
        ++ (if (picked (·.unmonitors pass) (passRounds s pass)).isEmpty then []
          else [SonarrCall.setMonitored (picked (·.unmonitors pass) (passRounds s pass)) false]) := by
  rw [← deleted_eq]
  rfl

/-- **The record of a pass**, by its rounds. -/
structure LogSpec (pass : SyncPass) (rounds : List ChildSync) (log : PassLog) : Prop where
  monitored : log.monitored = (picked (·.asks) rounds).map (·.1)
  searched : log.searched = (picked (·.searches) rounds).map (·.1)
  unmonitored : log.unmonitored = (picked (·.unmonitors pass) rounds).map (·.1)
  revived : log.revived = (picked (·.revived) rounds).map (·.1)
  withFile : log.withFile = (picked (·.hasFile) rounds).map (·.1)
  stored : log.stored = rounds.map (·.row)

theorem log_reconcile (s : SyncState) (pass : SyncPass) :
    LogSpec pass (passRounds s pass) (reconcile s pass).log := by
  have hflat : ∀ g : SonarrCall → List Int, (∀ b, g (.setMonitored [] b) = []) →
      g (.search []) = [] → (reconcile s pass).log.calls.flatMap g
        = g (.setMonitored (picked (·.asks) (passRounds s pass)) true)
          ++ g (.search (picked (·.searches) (passRounds s pass)))
          ++ g (.setMonitored (picked (·.unmonitors pass) (passRounds s pass)) false) := by
    intro g hset hsearch
    rw [calls_reconcile, List.flatMap_append, List.flatMap_append,
      flatMap_call (f := (.setMonitored · true)) (hset true), flatMap_call hsearch,
      flatMap_call (f := (.setMonitored · false)) (hset false)]
  refine ⟨?_, ?_, ?_, rfl, rfl, rfl⟩
  · refine (hflat _ (fun b => by cases b <;> rfl) rfl).trans ?_
    simp [SonarrCall.monitors]
  · refine (hflat _ (fun b => rfl) rfl).trans ?_
    simp [SonarrCall.searches]
  · refine (hflat _ (fun b => by cases b <;> rfl) rfl).trans ?_
    simp [SonarrCall.unmonitors]

end Rounds

/-! ## The invariant -/

/-- **What ties a child's stamps to the record.** -/
structure ChildInv (log : List PassLog) (row : EpisodeRequestRow) : Prop where
  spent : row.monitoredAt.isSome ∨ row.status = RequestStatus.completed
    ∨ asksSinceRevival row.id log = 0
  own : row.monitoredAt.isSome →
    (∃ pass ∈ log, row.id ∈ pass.monitored) ∧ takenBackSinceAsk row.id log = 0
  downloaded : row.monitoredAt.isSome → row.status = RequestStatus.completed →
    ∃ pass ∈ log, row.id ∈ pass.withFile

/-- A child a record entry mentions. -/
def PassLog.Mentions (log : PassLog) (child : Int) : Prop :=
  child ∈ log.revived ∨ child ∈ log.monitored ∨ child ∈ log.unmonitored ∨ child ∈ log.searched

/-- **The invariant of a sync with its record.** -/
structure SyncHistory.Inv (h : SyncHistory) : Prop where
  ids : h.state.IdsInv
  mentioned : ∀ pass ∈ h.log, ∀ child, pass.Mentions child → child < h.state.nextId
  rows : ∀ row ∈ h.state.episodes, ChildInv h.log row
  fetched : ∀ child, FetchedOnce child h.log

section Steps

variable {log : List PassLog} {pass : SyncPass} {rounds : List ChildSync} {entry : PassLog}

/-- A child a record never mentions is as good as new. -/
theorem ChildInv.of_unmentioned {row : EpisodeRequestRow}
    (h : ∀ pass ∈ log, ¬pass.Mentions row.id) (hnone : row.monitoredAt = none) :
    ChildInv log row where
  spent := by
    refine .inr (.inr (Log.countSince_eq_zero fun pass hpass => ?_))
    exact List.count_eq_zero.mpr fun hmem => h pass hpass (.inr (.inl hmem))
  own := by simp [hnone]
  downloaded := by simp [hnone]

/-- An entry that does not mention a child leaves what was asked for it. -/
theorem FetchedOnce.concat_of_unmentioned {child : Int} (h : FetchedOnce child log)
    (hentry : ¬entry.Mentions child) : FetchedOnce child (log ++ [entry]) := by
  obtain ⟨hrevived, hmonitored, hunmonitored, hsearched⟩ :
      child ∉ entry.revived ∧ child ∉ entry.monitored ∧ child ∉ entry.unmonitored
        ∧ child ∉ entry.searched := by
    simpa only [PassLog.Mentions, not_or] using hentry
  constructor
  · unfold asksSinceRevival
    rw [Log.countSince_concat, List.count_eq_zero.mpr hmonitored]
    have := h.monitoredOnce
    unfold asksSinceRevival at this
    split <;> omega
  · intro pass hpass hasked
    rcases List.mem_append.mp hpass with hpass | hpass
    · exact h.neverCompleted pass hpass hasked
    · obtain rfl := List.mem_singleton.mp hpass
      exact absurd hasked (not_or.mpr ⟨hmonitored, hsearched⟩)
  · exact h.takesBackOwn.concat fun hmem => absurd hmem hunmonitored
  · unfold takenBackSinceAsk
    rw [Log.countSince_concat, List.count_eq_zero.mpr hunmonitored]
    have := h.takenBackOnce
    unfold takenBackSinceAsk at this
    split <;> omega

/-- What an entry says of the child of one of its rounds. -/
structure EntrySpec (pass : SyncPass) (r : ChildSync) (child : Int) (log : List PassLog)
    (entry : PassLog) : Prop where
  monitored : child ∈ entry.monitored ↔ r.asks = true
  searched : child ∈ entry.searched ↔ r.searches = true
  unmonitored : child ∈ entry.unmonitored ↔ r.unmonitors pass = true
  withFile : child ∈ entry.withFile ↔ r.hasFile = true
  stored : ∀ row ∈ entry.stored, row.id = child → row = r.row
  asks : asksSinceRevival child (log ++ [entry])
    = (if r.revived then 0 else asksSinceRevival child log) + if r.asks then 1 else 0
  takenBack : takenBackSinceAsk child (log ++ [entry])
    = (if r.asks then 0 else takenBackSinceAsk child log) + if r.unmonitors pass then 1 else 0

theorem LogSpec.entrySpec (hlog : LogSpec pass rounds entry)
    (hnodup : (rounds.map (·.row.id)).Nodup) {r : ChildSync} (hr : r ∈ rounds)
    (log : List PassLog) : EntrySpec pass r r.row.id log entry where
  monitored := by rw [hlog.monitored, mem_picked_of_mem hnodup hr]
  searched := by rw [hlog.searched, mem_picked_of_mem hnodup hr]
  unmonitored := by rw [hlog.unmonitored, mem_picked_of_mem hnodup hr]
  withFile := by rw [hlog.withFile, mem_picked_of_mem hnodup hr]
  stored := by
    intro row hrow hid
    rw [hlog.stored] at hrow
    obtain ⟨other, hother, rfl⟩ := List.mem_map.mp hrow
    rw [List.inj_on_of_nodup_map hnodup hother hr hid]
  asks := by
    have hrevived : entry.revived.contains r.row.id = r.revived := by
      rw [Bool.eq_iff_iff, List.contains_iff_mem, hlog.revived, mem_picked_of_mem hnodup hr]
    unfold asksSinceRevival
    rw [Log.countSince_concat, hrevived, hlog.monitored, count_picked hnodup hr]
  takenBack := by
    have hasked : entry.monitored.contains r.row.id = r.asks := by
      rw [Bool.eq_iff_iff, List.contains_iff_mem, hlog.monitored, mem_picked_of_mem hnodup hr]
    unfold takenBackSinceAsk
    rw [Log.countSince_concat, hasked, hlog.unmonitored, count_picked hnodup hr]

@[simp] theorem id_saved (r : ChildSync) (pass : SyncPass) : (r.saved pass).id = r.row.id := by
  unfold ChildSync.saved
  split <;> split <;> split <;> rfl

@[simp] theorem status_saved (r : ChildSync) (pass : SyncPass) :
    (r.saved pass).status = r.row.status := by
  unfold ChildSync.saved
  split <;> split <;> split <;> rfl

theorem monitoredAt_saved (r : ChildSync) (pass : SyncPass) :
    (r.saved pass).monitoredAt.isSome
      = (!r.unmonitors pass && (r.stamps || r.row.monitoredAt.isSome)) := by
  unfold ChildSync.saved
  cases r.stamps <;> cases r.searches <;> cases r.unmonitors pass <;> rfl

/-- **The step lemma of a child**: a round where the count goes right keeps
its invariant and its record. -/
theorem round_step {r : ChildSync} {child : EpisodeRequestRow}
    (hentry : EntrySpec pass r child.id log entry) (hspec : RoundSpec child r)
    (hinv : ChildInv log child) (hfetched : FetchedOnce child.id log) :
    ChildInv (log ++ [entry]) (r.saved pass) ∧ FetchedOnce child.id (log ++ [entry]) := by
  have hid : (r.saved pass).id = child.id := (id_saved r pass).trans hspec.id
  have hsome := monitoredAt_saved r pass
  have hasks := hspec.asks
  -- a child asked now was not asked since its last revival
  have hfresh : r.asks = true → r.revived = false → asksSinceRevival child.id log = 0 := by
    intro hask hkept
    obtain ⟨hopen, hnone⟩ := hspec.stamps (hasks ▸ hask)
    obtain ⟨hsame, hcompleted⟩ := hspec.kept hkept
    rcases hinv.spent with hstamped | hdone | hzero
    · rw [← hsame, hnone] at hstamped
      cases hstamped
    · exact absurd (hcompleted hdone) hopen
    · exact hzero
  -- a child unmonitored now carries a stamp of its own
  have htaken : r.unmonitors pass = true → child.status = RequestStatus.completed
      ∧ child.monitoredAt.isSome ∧ r.revived = false ∧ r.stamps = false := by
    intro hunmonitors
    unfold ChildSync.unmonitors at hunmonitors
    exact hspec.takesBack (Bool.and_eq_true_iff.mp hunmonitors).1
  -- a stamp kept by the round was there before it
  have hkept : r.stamps = false → r.row.monitoredAt.isSome = true →
      r.revived = false ∧ child.monitoredAt.isSome = true := by
    intro hstamps hrow
    have hrevived : r.revived = false := by
      by_contra hrevived
      rw [hspec.revived (by simpa using hrevived)] at hrow
      cases hrow
    exact ⟨hrevived, (hspec.kept hrevived).1 ▸ hrow⟩
  refine ⟨⟨?_, ?_, ?_⟩, ⟨?_, ?_, ?_, ?_⟩⟩
  · rw [hid, status_saved, hentry.asks, hsome]
    by_cases hunmonitors : r.unmonitors pass = true
    · obtain ⟨hdone, -, hrevived, -⟩ := htaken hunmonitors
      exact .inr (.inl ((hspec.kept hrevived).2 hdone))
    · by_cases hstamps : r.stamps = true
      · exact .inl (by simp [hunmonitors, hstamps])
      · by_cases hrevived : r.revived = true
        · exact .inr (.inr (by simp [hrevived, hasks, hstamps]))
        · obtain ⟨hsame, hcompleted⟩ := hspec.kept (by simpa using hrevived)
          rcases hinv.spent with hstamped | hdone | hzero
          · exact .inl (by simp [hunmonitors, hsame, hstamped])
          · exact .inr (.inl (hcompleted hdone))
          · exact .inr (.inr (by simp [hzero, hasks, hstamps]))
  · rw [hid, hsome, hentry.takenBack]
    intro hafter
    obtain ⟨hunmonitors, hstamped⟩ := Bool.and_eq_true_iff.mp hafter
    have hunmonitors : r.unmonitors pass = false := by simpa using hunmonitors
    by_cases hstamps : r.stamps = true
    · have hask : r.asks = true := hasks ▸ hstamps
      refine ⟨⟨entry, by simp, hentry.monitored.mpr hask⟩, ?_⟩
      simp [hask, hunmonitors]
    · have hstamps : r.stamps = false := by simpa using hstamps
      rw [hstamps, Bool.false_or] at hstamped
      obtain ⟨⟨p, hp, hmem⟩, hzero⟩ := hinv.own (hkept hstamps hstamped).2
      refine ⟨⟨p, List.mem_append_left _ hp, hmem⟩, ?_⟩
      simp [hzero, hunmonitors]
  · rw [hid, hsome, status_saved]
    intro hafter hdone
    obtain ⟨-, hstamped⟩ := Bool.and_eq_true_iff.mp hafter
    have hstamps : r.stamps = false := by
      by_contra hstamps
      exact (hspec.stamps (by simpa using hstamps)).1 hdone
    rw [hstamps, Bool.false_or] at hstamped
    rcases hspec.completes hdone with ⟨-, hbefore⟩ | hfile
    · obtain ⟨p, hp, hmem⟩ := hinv.downloaded (hkept hstamps hstamped).2 hbefore
      exact ⟨p, List.mem_append_left _ hp, hmem⟩
    · exact ⟨entry, by simp, hentry.withFile.mpr hfile⟩
  · rw [hentry.asks]
    have hle := hfetched.monitoredOnce
    grind
  · intro p hp hasked row hrow hrowid
    rcases List.mem_append.mp hp with hp | hp
    · exact hfetched.neverCompleted p hp hasked row hrow hrowid
    · obtain rfl := List.mem_singleton.mp hp
      rw [hentry.stored row hrow hrowid]
      rcases hasked with hask | hsearch
      · exact (hspec.stamps (hasks ▸ hentry.monitored.mp hask)).1
      · exact hspec.searches (hentry.searched.mp hsearch)
  · refine hfetched.takesBackOwn.concat fun hmem => ?_
    obtain ⟨hdone, hstamped, -, -⟩ := htaken (hentry.unmonitored.mp hmem)
    exact ⟨(hinv.own hstamped).1, hinv.downloaded hstamped hdone⟩
  · rw [hentry.takenBack]
    have hle := hfetched.takenBackOnce
    by_cases hunmonitors : r.unmonitors pass = true
    · obtain ⟨-, hstamped, -, hstamps⟩ := htaken hunmonitors
      have hzero := (hinv.own hstamped).2
      grind
    · grind

end Steps

/-- **The step lemma**: a pass where the count goes right keeps the
invariant. -/
theorem SyncHistory.inv_step {h t : SyncHistory} {pass : SyncPass} (hinv : h.Inv)
    (hkeeps : KeepsCount h.state pass) (hstep : SyncStep h pass t) : t.Inv := by
  obtain ⟨hids, hnext, hrows⟩ := expandWatchAhead_spec hinv.ids pass
  have hnodup := nodup_passRounds hinv.ids pass
  have hlog := log_reconcile h.state pass
  have hepisodes := episodes_reconcile hinv.ids pass
  -- every round is a child's, new or with its invariant
  have hround : ∀ r ∈ passRounds h.state pass, ∃ child, RoundSpec child r
      ∧ child.id < (expandWatchAhead h.state pass).state.nextId ∧ ChildInv h.log child := by
    intro r hr
    obtain ⟨child, hchild, missed, rfl⟩ := mem_syncChildren hr
    obtain ⟨hwhere, hadded⟩ := hrows child hchild
    obtain ⟨helsewhere, hfile⟩ := hkeeps child hchild
    refine ⟨child, syncChild_spec hadded helsewhere hfile, hids.lt child hchild, ?_⟩
    rcases hwhere with hold | ⟨hnone, hle⟩
    · exact hinv.rows child hold
    · refine .of_unmentioned (fun p hp hmentions => ?_) hnone
      have hlt := hinv.mentioned p hp child.id hmentions
      omega
  have hmentions : ∀ child, (reconcile h.state pass).log.Mentions child →
      ∃ r ∈ passRounds h.state pass, r.row.id = child := by
    rintro child (hmem | hmem | hmem | hmem)
    · rw [hlog.revived, mem_picked] at hmem
      exact hmem.imp fun r hr => ⟨hr.1, hr.2.2⟩
    · rw [hlog.monitored, mem_picked] at hmem
      exact hmem.imp fun r hr => ⟨hr.1, hr.2.2⟩
    · rw [hlog.unmonitored, mem_picked] at hmem
      exact hmem.imp fun r hr => ⟨hr.1, hr.2.2⟩
    · rw [hlog.searched, mem_picked] at hmem
      exact hmem.imp fun r hr => ⟨hr.1, hr.2.2⟩
  have hboth : ∀ r ∈ passRounds h.state pass,
      ChildInv (h.log ++ [(reconcile h.state pass).log]) (r.saved pass)
        ∧ FetchedOnce r.row.id (h.log ++ [(reconcile h.state pass).log]) := by
    intro r hr
    obtain ⟨child, hspec, -, hchild⟩ := hround r hr
    have hentry := hlog.entrySpec hnodup hr h.log
    rw [hspec.id] at hentry ⊢
    exact round_step hentry hspec hchild (hinv.fetched child.id)
  subst hstep
  refine ⟨⟨?_, fun row hrow => ?_⟩, fun p hp child hmentioned => ?_, fun row hrow => ?_,
    fun child => ?_⟩
  · rw [hepisodes, List.map_map]
    simpa [Function.comp_def] using hnodup
  · rw [hepisodes] at hrow
    obtain ⟨r, hr, rfl⟩ := List.mem_map.mp hrow
    obtain ⟨child, hspec, hlt, -⟩ := hround r hr
    rw [id_saved, hspec.id]
    exact hlt
  · rcases List.mem_append.mp hp with hp | hp
    · exact (hinv.mentioned p hp child hmentioned).trans_le hnext
    · obtain rfl := List.mem_singleton.mp hp
      obtain ⟨r, hr, rfl⟩ := hmentions child hmentioned
      obtain ⟨child, hspec, hlt, -⟩ := hround r hr
      rw [hspec.id]
      exact hlt
  · rw [hepisodes] at hrow
    obtain ⟨r, hr, rfl⟩ := List.mem_map.mp hrow
    exact (hboth r hr).1
  · by_cases hmentioned : (reconcile h.state pass).log.Mentions child
    · obtain ⟨r, hr, rfl⟩ := hmentions child hmentioned
      exact (hboth r hr).2
    · exact (hinv.fetched child).concat_of_unmentioned hmentioned

/-- A request as it is when its children were just inserted: no child is
stamped as monitored, and nothing is recorded. -/
def SyncState.Fresh (s : SyncState) : Prop :=
  s.IdsInv ∧ ∀ row ∈ s.episodes, row.monitoredAt = none

theorem SyncHistory.inv_fresh {s : SyncState} (h : s.Fresh) : SyncHistory.Inv { state := s } where
  ids := h.1
  mentioned := by simp
  rows := fun row hrow => .of_unmentioned (by simp) (h.2 row hrow)
  fetched := fun child =>
    ⟨Nat.zero_le 1, by simp, Log.eachAfter_nil, Nat.zero_le 1⟩

/-- **Watch-ahead episodes are fetched once**, in every run from a fresh
request whose passes never read an awaiting child that Sonarr monitors
already, nor revive a child of the window that it has downloaded and does not
monitor. -/
theorem fetchedOnce_of_run {s : SyncState} (hfresh : s.Fresh) {passes : List SyncPass}
    {t : SyncHistory}
    (hrun : Run (Guarded SyncStep fun h pass => KeepsCount h.state pass) { state := s } passes t)
    (child : Int) : FetchedOnce child t.log := by
  have hinv : t.Inv :=
    hrun.invariant (fun _ _ _ hinv hstep => SyncHistory.inv_step hinv hstep.1 hstep.2)
      (SyncHistory.inv_fresh hfresh)
  exact hinv.fetched child

/-- A request for one episode, as its approval leaves it. -/
def oneEpisode : SyncState :=
  { episodes := [{ id := 1, tvdbId := 101, status := RequestStatus.approved }], nextId := 2 }

/-- A pass that reads the episode in the window. -/
def readsEpisode (hasFile monitored : Bool) : SyncPass :=
  { episodes := [{ id := some 11, tvdbId := some 101, hasFile := hasFile, monitored := monitored }]
    desired := some [{ tvdbId := 101 }] }

theorem fresh_oneEpisode : oneEpisode.Fresh := by
  refine ⟨⟨by decide, fun row hrow => ?_⟩, fun row hrow => ?_⟩
  · rw [List.mem_singleton.mp hrow]
    decide
  · rw [List.mem_singleton.mp hrow]

/-- An episode asked for, downloaded, and deleted by a cleanup app is fetched
once. -/
theorem fetchedOnce_oneEpisode :
    let asked := reconcile oneEpisode (readsEpisode false false)
    let downloaded := reconcile asked.state (readsEpisode true true)
    let deleted := reconcile downloaded.state (readsEpisode false true)
    FetchedOnce 1 [asked.log, downloaded.log, deleted.log]
      ∧ asked.log.monitored = [1] ∧ deleted.log.unmonitored = [1] := by
  intro asked downloaded deleted
  refine ⟨?_, by decide, by decide⟩
  have hrun : Run (Guarded SyncStep fun h pass => KeepsCount h.state pass) { state := oneEpisode }
      [readsEpisode false false, readsEpisode true true, readsEpisode false true]
      { state := deleted.state, log := [asked.log, downloaded.log, deleted.log] } :=
    .cons ⟨by decide, rfl⟩ (.cons ⟨by decide, rfl⟩ (.cons ⟨by decide, rfl⟩ (.nil _)))
  exact fetchedOnce_of_run fresh_oneEpisode hrun 1

/-- **Where the count goes wrong.** An episode Sonarr monitored before the
request is stamped without a call, and unmonitored once it was downloaded and
deleted; and one revived with a file is asked to be monitored while it is
stored as completed. -/
theorem monitor_not_own :
    (let stamped := reconcile oneEpisode (readsEpisode false true)
      let downloaded := reconcile stamped.state (readsEpisode true true)
      let deleted := reconcile downloaded.state (readsEpisode false true)
      ∃ t, Run SyncStep { state := oneEpisode }
          [readsEpisode false true, readsEpisode true true, readsEpisode false true] t
        ∧ t.log = [stamped.log, downloaded.log, deleted.log]
        ∧ stamped.log.monitored = [] ∧ downloaded.log.monitored = []
        ∧ deleted.log.unmonitored = [1] ∧ ¬FetchedOnce 1 t.log)
    ∧ (let unlisted : SyncPass :=
        { episodes := [{ id := some 12, tvdbId := some 102 }]
          otherOrder := true
          desired := some [{ tvdbId := 101 }] }
      let once := reconcile oneEpisode unlisted
      let failed := reconcile once.state unlisted
      let revived := reconcile failed.state (readsEpisode true false)
      ∃ t, Run SyncStep { state := oneEpisode } [unlisted, unlisted, readsEpisode true false] t
        ∧ t.log = [once.log, failed.log, revived.log]
        ∧ revived.log.monitored = [1]
        ∧ revived.log.stored.map (·.status) = [RequestStatus.completed]
        ∧ ¬FetchedOnce 1 t.log) := by
  constructor
  · intro stamped downloaded deleted
    refine ⟨{ state := deleted.state, log := [stamped.log, downloaded.log, deleted.log] },
      .cons rfl (.cons rfl (.cons rfl (.nil _))), rfl, by decide, by decide, by decide,
      fun hfetched => ?_⟩
    have hown := hfetched.takesBackOwn [stamped.log, downloaded.log] deleted.log [] rfl (by decide)
    have hnever : ∀ pass ∈ [stamped.log, downloaded.log], 1 ∉ pass.monitored := by decide
    obtain ⟨pass, hpass, hmem⟩ := hown.1
    exact hnever pass hpass hmem
  · intro unlisted once failed revived
    refine ⟨{ state := revived.state, log := [once.log, failed.log, revived.log] },
      .cons rfl (.cons rfl (.cons rfl (.nil _))), rfl, by decide, by decide, fun hfetched => ?_⟩
    obtain ⟨row, hrow, hid, hstatus⟩ : ∃ row ∈ revived.log.stored,
        row.id = 1 ∧ row.status = RequestStatus.completed := by decide
    exact hfetched.neverCompleted revived.log (by simp) (.inl (by decide)) row hrow hid hstatus

end Foreseerr

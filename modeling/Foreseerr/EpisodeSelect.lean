import Foreseerr.Database
import Foreseerr.EpisodeSync

/-!
# Episode selections

`routes/episodeselect.rs` resolves the episodes a request asks for against
the catalog TVDB gives: one episode, a range, everything after one, or a
window past what the viewer has played. What other active requests of the
quality or the library cover is left out, and a request is charged one unit
for each season it touches.
-/

namespace Foreseerr

/-- `Selection`: a parsed `episodeSelection`. -/
inductive Selection
  | single (id : Int)
  | range (start stop : Int)
  | after (id : Int)
  | watchAhead (count : Int)
deriving DecidableEq, Repr

/-- Whether a selection is a watch-ahead. -/
def Selection.watchesAhead : Selection → Bool
  | .watchAhead _ => true
  | _ => false

/-- `Resolved`: a resolved selection. -/
structure Resolved where
  kind : String
  start : Int
  stop : Option Int := none
  watchAhead : Option Int := none
  episodes : List CatalogEpisode
deriving DecidableEq, Repr

/-- `matches!(kind, "after" | "watchAhead")`: a selection that goes on. -/
def Resolved.rolling (r : Resolved) : Bool := r.kind = "after" || r.kind = "watchAhead"

/-- `watch_ahead_window`: the regular episodes past the last one played. -/
def watchAheadWindow (catalog : List CatalogEpisode) (count : Int) (played : List Int) :
    List CatalogEpisode :=
  let regular := catalog.filter (·.season > 0)
  let unplayed := (regular.reverse.takeWhile fun e => e.tvdbId ∉ played).reverse
  unplayed.take (max 1 (min count 50)).toNat

/-- `rposition`: where the last entry with an id stands. -/
def lastIndexOf (catalog : List CatalogEpisode) (id : Int) : Option Nat :=
  (catalog.reverse.findIdx? fun e => e.tvdbId == id).map fun i => catalog.length - 1 - i

/-- The entries a selection that starts at one episode stands for: where the
range or the catalog ends, and the range's last id. -/
def selectionEnd (selection : Selection) (catalog : List CatalogEpisode) (startIndex : Nat) :
    Except String (Nat × Option Int) :=
  match selection with
  | .range _ stop =>
    match lastIndexOf catalog stop with
    | none => .error "The selected TVDB range endpoint does not exist."
    | some stopIndex =>
      match catalog[stopIndex]? with
      | none => .error "Episode range endpoints are invalid or reversed."
      | some last =>
        if last.season = 0 ∨ stopIndex < startIndex then
          .error "Episode range endpoints are invalid or reversed."
        else .ok (stopIndex + 1, some last.tvdbId)
  | _ => .ok (catalog.length, none)

/-- What a selection that starts at an episode of the catalog resolves to. -/
def resolveFrom (selection : Selection) (kind : String) (catalog : List CatalogEpisode)
    (allowSpecials : Bool) (startIndex : Nat) (start : CatalogEpisode) :
    Except String Resolved :=
  if start.season = 0 ∧ ¬ allowSpecials then .error "Special episode requests are disabled."
  else if kind = "single" then
    .ok { kind := kind, start := start.tvdbId, episodes := [start] }
  else if start.season = 0 then
    .error "Ranges and ongoing requests cannot start with a special."
  else do
    let (last, stop) ← selectionEnd selection catalog startIndex
    let episodes := ((catalog.take last).drop startIndex).filter (·.season > 0)
    if episodes.isEmpty then .error "No episodes are available for this selection."
    else .ok { kind := kind, start := start.tvdbId, stop := stop, episodes := episodes }

/-- `resolve`: the episodes of a selection. -/
def resolve (selection : Selection) (catalog : List CatalogEpisode) (allowSpecials : Bool)
    (played : List Int) : Except String Resolved :=
  let startAt (kind : String) (id : Int) : Except String Resolved :=
    match (lastIndexOf catalog id).bind fun i => (catalog[i]?).map fun e => (i, e) with
    | none => .error "The selected TVDB episode does not exist."
    | some (i, e) => resolveFrom selection kind catalog allowSpecials i e
  match selection with
  | .watchAhead count =>
    match catalog.find? (·.season > 0) with
    | none => .error "No episodes are available for this selection."
    | some first =>
      let desired := watchAheadWindow catalog count played
      .ok
        { kind := "watchAhead"
          start := (desired.head?.getD first).tvdbId
          watchAhead := some count
          episodes := desired }
  | .single id => startAt "single" id
  | .range id _ => startAt "range" id
  | .after id => startAt "after" id

/-- `active`: the requests of one quality neither declined nor completed;
none where the quality was left out. -/
def activeRequests (requests : List RequestRow) (fourK : Option Bool) : List RequestRow :=
  match fourK with
  | none => []
  | some fourK => requests.filter fun r => r.is4k == fourK && r.active

/-- `uncovered`: what a selection still has to ask for. One that goes on after
an episode asks for all of it. -/
def uncovered (resolved : Resolved) (coverage : List RequestRow) (media : Option MediaRow)
    (fourK : Bool) : List CatalogEpisode :=
  if resolved.kind = "after" then resolved.episodes
  else
    let seasons := coverage.flatMap fun r => r.seasons.map (·.seasonNumber)
    let episodes := coverage.flatMap fun r => r.episodes.map (·.tvdbId)
    resolved.episodes.filter fun e =>
      e.season ∉ seasons && e.tvdbId ∉ episodes
        && !media.any fun m => m.seasons.any fun s =>
          s.seasonNumber == e.season && s.statusOf fourK == MediaStatus.available

/-- `quota_units`: the number of distinct seasons among the episodes. -/
def quotaUnits (episodes : List CatalogEpisode) : Nat :=
  (episodes.map (·.season)).dedup.length

/-- `lock_key`. -/
def lockKey (tmdbId : Int) (fourK : Bool) : String :=
  toString tmdbId ++ ":" ++ if fourK then "4k" else "sd"

/-- `ongoing_conflict`: whether another active request holds the key of an
ongoing selection, as far as the database's index has its kind. -/
def ongoingConflict (kinds : List String) (requests : List RequestRow) (key kind : String)
    (ownId : Option Int) : Bool :=
  kind ∈ kinds && requests.any fun r =>
    r.ongoingEpisodeRequestKey == some key
      && (match r.episodeSelectionType with
        | some k => k ∈ kinds
        | none => false)
      && r.active && r.id != ownId.getD (-1)

/-- `insert_episodes`: the rows of a request's episodes, under the ids the
database gives. -/
def insertedEpisodes (now : String) (requestId status : Int) (ids : Nat → Int)
    (episodes : List CatalogEpisode) : List EpisodeRequestRow :=
  episodes.mapIdx fun i e =>
    { id := ids i
      tvdbId := e.tvdbId
      seasonNumber := e.season
      episodeNumber := e.episode
      title := some e.title
      airDate := e.airDate
      status := status
      createdAt := some now
      updatedAt := some now
      requestId := some requestId }

end Foreseerr

import Foreseerr.EpisodeSync
import Foreseerr.PlexRecent
import Foreseerr.RequestRouting
import Foreseerr.ScanTitles

/-!
# The Radarr and Sonarr scanners

A run of `jobs/arrscan.rs` goes through the servers of the settings, and through what
each of them lists in bundles of fifty, two entries at a time. An entry updates its title
(`process_movie`, `process_show`) and leaves a record: that its title was listed, that
the server still pursues it, or that it failed. Once every server was gone through, the
titles found abandoned fall back, and the titles still processing that no server knows are
cleaned up.

A run is a machine here: its workers take one step at a time, in any order, and the
answers of the servers, of TMDB and of TVDB come with the events. Two variables of its
state are histories no step reads: what the servers answered (`heard`) and what the series
were processed with (`listings`).
-/

namespace Foreseerr

namespace ArrScan

open Json RequestRouting

/-! ## The servers -/

inductive Arr
  | radarr
  | sonarr
deriving DecidableEq, Repr

/-- What an entry of a list is known by. -/
def Arr.key : Arr → String
  | .radarr => "tmdbId"
  | .sonarr => "tvdbId"

def Arr.mediaType : Arr → String
  | .radarr => "movie"
  | .sonarr => "tv"

/-- `strict_eq`; `f64::EPSILON` is `2⁻⁵²`. -/
def strictEq : Json → Json → Bool
  | .null, .null => true
  | .bool x, .bool y => x == y
  | .str x, .str y => x == y
  | .num x, .num y =>
    match (Json.num x).asI64, (Json.num y).asI64 with
    | some x, some y => x == y
    | _, _ => max (x - y) (y - x) < 1 / 2 ^ 52
  | _, _ => false

/-- A field of two servers is the same, or neither has it. -/
def sameField (key : String) (a b : Json) : Bool :=
  match a.get key, b.get key with
  | none, none => true
  | some x, some y => strictEq x y
  | _, _ => false

/-- `unique_servers`. -/
def uniqueServers (servers : List Json) : List Json :=
  PlexRecent.uniqWith (fun a b =>
    sameField "hostname" a b && sameField "port" a b && sameField "baseUrl" a b) servers

/-- `Cleanup`: the qualities the orphan cleanup may run for. -/
structure Cleanup where
  standard : Bool := false
  uhd : Bool := false
deriving DecidableEq, Repr

def Cleanup.of (flags : Cleanup) (fourK : Bool) : Bool :=
  if fourK then flags.uhd else flags.standard

/-- Whether a server holds the 4K titles; without 4K every server is standard. -/
def serverIs4k (enable4k : Bool) (server : Json) : Bool := enable4k && isTruthy "is4k" server

/-- One quality of `cleanup_flags`: one of its servers was scanned, all of them have sync
enabled, and none returned an empty list. `results` are, per server, whether it was
scanned and whether it returned nothing. -/
def cleanupFlag (servers : List Json) (enable4k : Bool) (results : List (Bool × Bool))
    (fourK : Bool) : Bool :=
  let scanned := (servers.zip results).filter fun report =>
    report.2.1 && serverIs4k enable4k report.1 == fourK
  !scanned.isEmpty
    && (servers.filter fun server => serverIs4k enable4k server == fourK).all
      (isTruthy "syncEnabled")
    && !scanned.any fun report => report.2.2

/-- `cleanup_flags`. -/
def cleanupFlags (servers : List Json) (enable4k : Bool) (results : List (Bool × Bool)) : Cleanup :=
  ⟨cleanupFlag servers enable4k results false, cleanupFlag servers enable4k results true⟩

/-! ## The record of a run -/

/-- `Pursued`: by TMDB id and quality, the seasons monitored with nothing downloaded; the
series whose processing failed, by TVDB id and quality; and the TMDB id each series
resolved to. -/
structure Pursued where
  processing : Int → Bool → Option (List Int) := fun _ _ => none
  failed : List (Int × Bool) := []
  tmdbByTvdb : Int → Option Int := fun _ => none

namespace Pursued

variable (p : Pursued)

/-- A title, or a season of it, is still pursued. -/
def still (tmdbId : Int) (fourK : Bool) (season : Option Int) : Bool :=
  (p.processing tmdbId fourK).any fun seasons => season.all seasons.contains

/-- `abandoned`. -/
def abandoned (complete : Bool) (tmdbId : Int) (fourK : Bool) (season : Option Int) : Bool :=
  let failed := p.failed.any fun series => series.2 == fourK && p.tmdbByTvdb series.1 == some tmdbId
  complete && !failed && !p.still tmdbId fourK season

/-- A title is pursued, and these seasons of it. -/
def pursue (tmdbId : Int) (fourK : Bool) (seasons : List Int) : Pursued :=
  { p with
    processing := fun t q =>
      if t = tmdbId ∧ q = fourK then some ((p.processing t q).getD [] ++ seasons)
      else p.processing t q }

/-- The processing seasons of a series; a series without one is not listed. -/
def pursueSeasons (tmdbId : Int) (fourK : Bool) (seasons : List ProcessableSeason) : Pursued :=
  (seasons.filter (·.processing)).foldl (fun p season =>
    p.pursue tmdbId fourK [season.seasonNumber]) p

def fail (tvdb : Int) (fourK : Bool) : Pursued := { p with failed := p.failed ++ [(tvdb, fourK)] }

def resolve (tvdb tmdbId : Int) : Pursued :=
  { p with tmdbByTvdb := fun t => if t = tvdb then some tmdbId else p.tmdbByTvdb t }

end Pursued

/-- The order of the keys of a `BTreeMap` by title and quality. -/
def keyLe (a b : Int × Bool) : Prop := a.1 < b.1 ∨ a.1 = b.1 ∧ (a.2 = false ∨ b.2 = true)

instance (a b : Int × Bool) : Decidable (keyLe a b) := inferInstanceAs (Decidable (_ ∨ _))

/-- The seasons of a title found abandoned, and the seasons the scan saw of it last. -/
abbrev SeasonCandidate := (Int × Bool) × List Int × List ProcessableSeason

/-- `Resets`: what a scan leaves for the end of its run, in the order of the keys. -/
structure Resets where
  media : List (Int × Bool) := []
  seasons : List SeasonCandidate := []
deriving DecidableEq, Repr

namespace Resets

def noteTitle (r : Resets) (key : Int × Bool) : Resets :=
  if key ∈ r.media then r else { r with media := r.media.orderedInsert keyLe key }

def noteSeason (scanned : List ProcessableSeason) (r : Resets) (key : Int × Bool) (number : Int) :
    Resets :=
  let numbers := ((r.seasons.find? (·.1 == key)).map (·.2.1)).getD []
  let numbers := if number ∈ numbers then numbers else numbers ++ [number]
  { r with
    seasons := (r.seasons.filter (·.1 != key)).orderedInsert (fun a b => keyLe a.1 b.1)
      (key, numbers, scanned) }

/-- `record_show_resets`. -/
def noteShow (r : Resets) (mediaId : Int) (update : ShowUpdate)
    (scanned : List ProcessableSeason) : Resets :=
  let r := update.statusResets.foldl (fun r fourK => r.noteTitle (mediaId, fourK)) r
  update.deferredSeasons.foldl (fun r season =>
    noteSeason scanned r (mediaId, season.2) season.1) r

end Resets

/-! ## The entries -/

/-- `service_opts`. -/
def serviceOpts (server item : Json) : ServiceColumns where
  serviceId := (server.get "id").bind asI64
  externalServiceId := (item.get "id").bind asI64
  externalServiceSlug := (item.get "titleSlug").bind asStr

/-- `has_file`: a movie that does not say has one. -/
def hasFile (movie : Json) : Bool := (movie.get "hasFile").all truthy

/-- `processing`: monitored, and nothing downloaded. -/
def awaited (movie : Json) : Bool := !hasFile movie && isTruthy "monitored" movie

/-- What `process_movie` makes of an entry. -/
def movieOpts (fourK : Bool) (server movie : Json) : MovieOpts where
  is4k := fourK
  services := serviceOpts server movie
  processing := awaited movie
  hasFile := hasFile movie

/-- A number of a season's `statistics`. -/
def statistic (key : String) (season : Json) : Int :=
  ((((season.get "statistics").bind (Json.get key)).bind asI64).getD 0)

/-- `sonarr_seasons`: the provider's seasons, by number and count, as Sonarr has them. -/
def sonarrSeasons (provider : List (Int × Int)) (sonarr : List Json) (fourK : Bool) :
    List ProcessableSeason :=
  provider.map fun (number, episodeCount) =>
    let found := sonarr.find? fun s => (s.get "seasonNumber").bind asI64 == some number
    let monitored := found.any (isTruthy "monitored")
    let files := found.elim 0 (statistic "episodeFileCount")
    { seasonNumber := number
      totalEpisodes := found.elim episodeCount (statistic "totalEpisodeCount")
      episodes := if fourK then 0 else files
      episodes4k := if fourK then files else 0
      is4kOverride := fourK
      processing := monitored && files == 0 }

/-- `array_of`. -/
def arrayOf (key : String) (value : Json) : List Json := ((value.get key).bind asArray).getD []

/-- `seasons_of`: the number and the count of each season of a show. -/
def seasonsOf (show_ : Json) (specials : Bool) : List (Int × Int) :=
  ((arrayOf "seasons" show_).filterMap fun s =>
    ((s.get "season_number").bind asI64).map fun number =>
      (number, ((s.get "episode_count").bind asI64).getD 0)).filter fun season =>
    specials || season.1 != 0

/-- `sonarr_tmdb_id`. -/
def sonarrTmdbId (series : Json) : Option Int :=
  ((series.get "tmdbId").bind asI64).filter (0 < ·)

/-- `new_show`: the show of a series no title has. `find` is TMDB's answer by the TVDB
id, `byId` its answer for a show. -/
def newShow (find : Option (Option Int)) (tvdb : Int) (sonarr : Option Int)
    (byId : Int → Option Json) : Option Json :=
  match find with
  | none => none
  | some (some id) => byId id
  | some none =>
    sonarr.bind fun id => (byId id).bind fun show_ =>
      let named := ((show_.pointer ["external_ids", "tvdb_id"]).bind asI64).filter fun other =>
        0 < other ∧ other ≠ tvdb
      if named.isSome then none else some show_

/-- The show of a series: by the TMDB id of the title that has its TVDB id, if one has. -/
def lookupShow (db : Db) (series : Json) (tvdb : Int) (find : Option (Option Int))
    (byId : Int → Option Json) : Option Json :=
  match ((db.media.find? (·.tvdbId == some tvdb)).map (·.tmdbId)).filter (· ≠ 0) with
  | some id => byId id
  | none => newShow find tvdb (sonarrTmdbId series) byId

/-- `other_order` finds an order other than the aired one. -/
def otherOrder (series : Json) : Bool :=
  ((series.get "seasonType").bind asStr).any fun order =>
    order != "" && order.toLower != "official"

/-- `tvdb_of`. -/
def tvdbOf (episode : Json) : Option Int := ((episode.get "tvdbId").bind asI64).filter (0 < ·)

/-- `aired_seasons` of `episodeorder.rs`: Sonarr's seasons counted per aired season. Of two
episodes with one TVDB id the last counts. -/
def airedSeasons (catalog : List CatalogEpisode) (episodes : List Json) : List Json :=
  let byTvdb (id : Int) : Option Json := episodes.reverse.find? fun e => tvdbOf e == some id
  let numbers : List Int := catalog.foldl (fun numbers e =>
    if e.season ∈ numbers then numbers else numbers ++ [e.season]) []
  numbers.map fun number =>
    let matched := (catalog.filter (·.season == number)).filterMap fun e => byTvdb e.tvdbId
    .obj [("seasonNumber", .num number),
      ("monitored", .bool (matched.any (isTruthy "monitored"))),
      ("statistics", .obj [
        ("episodeFileCount", .num (matched.filter (isTruthy "hasFile")).length),
        ("totalEpisodeCount", .num matched.length)])]

/-- The seasons Sonarr is taken to have: its own, or those counted in the aired order,
for which the aired catalog and Sonarr's episodes are asked. -/
def sonarrList (series : Json) (aired : Option (List CatalogEpisode × List Json)) :
    Option (List Json) :=
  if otherOrder series then aired.map fun (catalog, episodes) => airedSeasons catalog episodes
  else some (arrayOf "seasons" series)

/-! ## The cleanup -/

/-- `orphaned`. -/
def orphaned (media : MediaRow) (fourK : Bool) : MediaRow :=
  { media.setStatus fourK MediaStatus.unknown with
    seasons := media.seasons.map fun s =>
      if s.statusOf fourK = MediaStatus.processing then s.setStatus fourK MediaStatus.unknown
      else s }

/-- The answers to `exists_in_any_server`, by the place of the server among those asked;
`none` is one that fails. A server that fails counts as one that has the title. -/
def existsIn (key : String) (id : Int) (servers : List Json) (answers : Nat → Option (List Json)) :
    Bool :=
  servers.zipIdx.any fun server =>
    (answers server.2).all fun items => items.any fun item => (item.get key).bind asI64 == some id

/-! ## A run -/

/-- What a run is started with: the servers of the settings, and whether 4K is on. -/
structure Config where
  arr : Arr
  settings : List Json := []
  enable4kMovie : Bool := false
  enable4kShow : Bool := false

/-- What a write meets: the time, and what the hooks of its saves meet. -/
structure Moment where
  nowMs : Int := 0
  now : String := ""
  envs : HookEnvs

namespace Config

variable (c : Config)

def servers : List Json := uniqueServers c.settings

def enable4k : Bool :=
  match c.arr with
  | .radarr => c.enable4kMovie
  | .sonarr => c.enable4kShow

/-- `server_4k`. -/
def server4k (server : Json) : Bool := serverIs4k c.enable4k server

/-- The id a list names an entry by. -/
def idOf (item : Json) : Option Int := (item.get c.arr.key).bind asI64

/-- The id a title is listed under. -/
def titleId (media : MediaRow) : Option Int :=
  match c.arr with
  | .radarr => some media.tmdbId
  | .sonarr => media.tvdbId.filter (· ≠ 0)

/-- The scan of a run: it leaves its resets to the end. -/
def scanAt (t : Moment) : Scan where
  enable4kMovie := c.enable4kMovie
  enable4kShow := c.enable4kShow
  deferResets := true
  nowMs := t.nowMs
  now := t.now
  envs := t.envs

/-- `processing_media`. -/
def processingMedia (db : Db) (fourK : Bool) : List MediaRow :=
  db.media.filter fun m =>
    m.mediaType == c.arr.mediaType && m.statusOf fourK == MediaStatus.processing

end Config

/-- Where a worker is with its entry: a movie to process, a series whose show is looked
up, one whose show is known by its TMDB id, and one to process with its seasons. -/
inductive Turn
  | movie (movie : Json) (tmdbId : Int)
  | series (series : Json) (tvdb : Int)
  | shown (series : Json) (tvdb tmdbId : Int)
  | listed (series : Json) (tvdb tmdbId : Int) (seasons : List ProcessableSeason)

/-- Where a run is: between two servers, in the list of one (what is left of it, of the
bundle, and the entries being processed), resolving what the scan left, or cleaning up. -/
inductive Phase
  | servers
  | items (server : Json) (rest bundle : List Json) (busy : List Turn)
  | titles (flags : Cleanup) (media : List (Int × Bool)) (seasons : List SeasonCandidate)
  | cleaning (flags : Cleanup) (left : List Bool)
  | orphans (flags : Cleanup) (left : List Bool) (fourK : Bool) (media : List MediaRow)
  | ended
  | interrupted

/-- The seasons a series was processed with, and the title it resolved to. -/
structure Listing where
  fourK : Bool
  series : Json
  tvdb : Int
  tmdbId : Int
  seasons : List ProcessableSeason

/-- A run: the tables, the servers not begun, `results`, the ids listed in each quality,
the records, and where it is. `heard` and `listings` are histories. -/
structure State where
  db : Db
  left : List Json
  results : List (Bool × Bool) := []
  scanned : List Int := []
  scanned4k : List Int := []
  pursued : Pursued := {}
  resets : Resets := {}
  phase : Phase := .servers
  heard : List (Json × List Json) := []
  listings : List Listing := []

namespace State

/-- The ids listed in a quality. -/
def marks (s : State) (fourK : Bool) : List Int := if fourK then s.scanned4k else s.scanned

/-- `mark_scanned`. -/
def mark (s : State) (fourK : Bool) (id : Int) : State :=
  { s with
    scanned := if fourK then s.scanned else s.scanned ++ [id]
    scanned4k := if fourK then s.scanned4k ++ [id] else s.scanned4k }

def fail (s : State) (tvdb : Int) (fourK : Bool) : State :=
  { s with pursued := s.pursued.fail tvdb fourK }

end State

/-- What happens in a run, with the answers it gets; `other` is a write of the rest of
the program. -/
inductive Event
  | other (write : Db → Db)
  | skip
  | answer (items : List Json)
  | interrupt
  | bundle
  | take
  | lookup (i : Nat) (find : Option (Option Int)) (byId : Int → Option Json)
  | list (i : Nat) (provided : Option Json) (specials : Bool)
      (aired : Option (List CatalogEpisode × List Json))
  | settle (i : Nat) (t : Moment)
  | fail (i : Nat)
  | next
  | resolve
  | resolveTitle (t : Moment)
  | resolveSeasons (t : Moment)
  | resolved
  | load
  | check (t : Moment) (answers : Nat → Option (List Json))

/-- `BUNDLE`. -/
def bundleSize : Nat := 50

namespace Config

variable (c : Config)

/-- A worker takes an entry: its title is listed, and a movie the server awaits is
pursued. One without the id lists are in is done with. -/
def take (server item : Json) (rest bundle : List Json) (busy : List Turn) (s : State) : State :=
  let fourK := c.server4k server
  match c.idOf item with
  | none => { s with phase := .items server rest bundle busy }
  | some id =>
    let s := s.mark fourK id
    match c.arr with
    | .radarr =>
      { s with
        pursued := if awaited item then s.pursued.pursue id fourK [] else s.pursued
        phase := .items server rest bundle (busy ++ [.movie item id]) }
    | .sonarr => { s with phase := .items server rest bundle (busy ++ [.series item id]) }

/-- `try_series`, up to the TMDB id of the show. -/
def lookup (fourK : Bool) (find : Option (Option Int)) (byId : Int → Option Json) (s : State) :
    Turn → Option (State × Option Turn)
  | .series series tvdb =>
    match (lookupShow s.db series tvdb find byId).bind fun show_ => (show_.get "id").bind asI64 with
    | some tmdbId =>
      some ({ s with pursued := s.pursued.resolve tvdb tmdbId }, some (.shown series tvdb tmdbId))
    | none => some (s.fail tvdb fourK, none)
  | _ => none

/-- `try_series`, up to the seasons and what of them is pursued. -/
def list (fourK : Bool) (provided : Option Json) (specials : Bool)
    (aired : Option (List CatalogEpisode × List Json)) (s : State) :
    Turn → Option (State × Option Turn)
  | .shown series tvdb tmdbId =>
    let seasons := provided.bind fun show_ => (sonarrList series aired).map fun sonarr =>
      sonarrSeasons (seasonsOf show_ specials) sonarr fourK
    match seasons with
    | some seasons =>
      some ({ s with
        pursued := s.pursued.pursueSeasons tmdbId fourK seasons
        listings := s.listings ++ [⟨fourK, series, tvdb, tmdbId, seasons⟩] },
        some (.listed series tvdb tmdbId seasons))
    | none => some (s.fail tvdb fourK, none)
  | _ => none

/-- `process_movie` and `process_show`: the resets are noted, and the title is saved or
inserted. A series whose save is refused has failed. -/
def settle (server : Json) (t : Moment) (s : State) : Turn → Option (State × Option Turn)
  | .movie movie tmdbId =>
    let o := movieOpts (c.server4k server) server movie
    some ({ s with
      db := (c.scanAt t).processMovie tmdbId o s.db
      resets := (Scan.findMedia s.db tmdbId "movie").elim s.resets fun m =>
        if movieResetDeferred m o true then s.resets.noteTitle (m.id, o.is4k) else s.resets }, none)
  | .listed series tvdb tmdbId seasons =>
    let fourK := c.server4k server
    let o : ShowOpts := { services := serviceOpts server series, is4k := fourK }
    let saved := { s with db := (c.scanAt t).processShow tmdbId (some tvdb) seasons o s.db }
    match Scan.findMedia s.db tmdbId "tv" with
    | none => some (saved, none)
    | some media =>
      let update := applyShow media seasons o c.enable4kShow t.nowMs true
      let saved := { saved with resets := s.resets.noteShow media.id update seasons }
      let refused := (saveTitle t.now t.envs s.db ⟨media, update.after, update.fresh⟩ []).isNone
      some (if refused then saved.fail tvdb fourK else saved, none)
  | _ => none

/-- An error ends a turn; a series is recorded as failed. -/
def fail (fourK : Bool) (s : State) : Turn → Option (State × Option Turn)
  | .movie _ _ => some (s, none)
  | .series _ tvdb => some (s.fail tvdb fourK, none)
  | .shown _ tvdb _ => some (s.fail tvdb fourK, none)
  | .listed _ tvdb _ _ => some (s.fail tvdb fourK, none)

/-- One step of the entry at a place, which goes on or is done with. -/
def turn (s : State) (server : Json) (rest bundle : List Json) (busy : List Turn) (i : Nat)
    (f : State → Turn → Option (State × Option Turn)) : Option State :=
  busy[i]?.bind fun entry => (f s entry).map fun (s, entry) =>
    { s with
      phase := .items server rest bundle
        (entry.elim (busy.eraseIdx i) fun entry => busy.set i entry) }

/-- Whether a title, or a season of it, is abandoned for good. -/
def abandoned (flags : Cleanup) (pursued : Pursued) (tmdbId : Int) (fourK : Bool)
    (season : Option Int) : Bool :=
  pursued.abandoned (flags.of fourK) tmdbId fourK season

/-- `resolve_season_resets` for a candidate. -/
def seasonReset (flags : Cleanup) (pursued : Pursued) (t : Moment) (candidate : SeasonCandidate) :
    SeasonReset where
  mediaId := candidate.1.1
  fourK := candidate.1.2
  numbers := candidate.2.1
  scanned := candidate.2.2
  abandoned := abandoned flags pursued
  enable4kShow := c.enable4kShow
  now := t.now
  envs := t.envs

/-- `exists_in_any_server`: the servers of the quality that are synced are asked. -/
def existsInAnyServer (id : Int) (fourK : Bool) (answers : Nat → Option (List Json)) : Bool :=
  existsIn c.arr.key id
    (c.servers.filter fun server => isTruthy "syncEnabled" server && c.server4k server == fourK)
    answers

/-- `cleanup_one`. -/
def cleanupOne (t : Moment) (fourK : Bool) (answers : Nat → Option (List Json)) (s : State)
    (media : MediaRow) : Db :=
  match c.titleId media with
  | none => s.db
  | some id =>
    if (s.marks fourK).contains id || c.existsInAnyServer id fourK answers then s.db
    else
      let requests := Scan.approvedRequests s.db media.id fourK
      let db := (c.scanAt t).saveExisting s.db ⟨media, orphaned media fourK, []⟩
      (c.scanAt t).declineRequests db requests

/-- **One step of a run.** -/
def step (s : State) : Event → Option State
  | .other write => some { s with db := write s.db }
  | .skip =>
    match s.phase, s.left with
    | .servers, server :: left =>
      if isTruthy "syncEnabled" server then none
      else some { s with left, results := s.results ++ [(false, false)] }
    | _, _ => none
  | .answer items =>
    match s.phase, s.left with
    | .servers, server :: left =>
      if isTruthy "syncEnabled" server then
        some { s with
          left
          results := s.results ++ [(true, items.isEmpty)]
          phase := .items server items [] []
          heard := s.heard ++ [(server, items)] }
      else none
    | _, _ => none
  | .interrupt =>
    match s.phase with
    | .items _ _ (_ :: _) _ | .items _ _ _ (_ :: _) | .ended | .interrupted => none
    | .servers | .items .. | .titles .. | .cleaning .. | .orphans .. =>
      some { s with phase := .interrupted }
  | .bundle =>
    match s.phase with
    | .items server (item :: rest) [] [] =>
      some { s with
        phase := .items server ((item :: rest).drop bundleSize)
          ((item :: rest).take bundleSize) [] }
    | _ => none
  | .take =>
    match s.phase with
    | .items server rest (item :: bundle) busy =>
      if busy.length < 2 then some (c.take server item rest bundle busy s) else none
    | _ => none
  | .lookup i find byId =>
    match s.phase with
    | .items server rest bundle busy =>
      turn s server rest bundle busy i (lookup (c.server4k server) find byId)
    | _ => none
  | .list i provided specials aired =>
    match s.phase with
    | .items server rest bundle busy =>
      turn s server rest bundle busy i (list (c.server4k server) provided specials aired)
    | _ => none
  | .settle i t =>
    match s.phase with
    | .items server rest bundle busy => turn s server rest bundle busy i (c.settle server t)
    | _ => none
  | .fail i =>
    match s.phase with
    | .items server rest bundle busy =>
      turn s server rest bundle busy i (fail (c.server4k server))
    | _ => none
  | .next =>
    match s.phase with
    | .items _ [] [] [] => some { s with phase := .servers }
    | _ => none
  | .resolve =>
    match s.phase, s.left with
    | .servers, [] =>
      some { s with
        phase := .titles (cleanupFlags c.servers c.enable4k s.results) s.resets.media
          s.resets.seasons }
    | _, _ => none
  | .resolveTitle t =>
    match s.phase with
    | .titles flags ((mediaId, fourK) :: media) seasons =>
      some { s with
        db := (c.scanAt t).resolveTitle (abandoned flags s.pursued) mediaId fourK s.db
        phase := .titles flags media seasons }
    | _ => none
  | .resolveSeasons t =>
    match s.phase with
    | .titles flags [] (candidate :: seasons) =>
      some { s with
        db := (c.seasonReset flags s.pursued t candidate).resolve.final s.db
        phase := .titles flags [] seasons }
    | _ => none
  | .resolved =>
    match s.phase with
    | .titles flags [] [] => some { s with phase := .cleaning flags [false, true] }
    | _ => none
  | .load =>
    match s.phase with
    | .cleaning flags (fourK :: left) =>
      some { s with
        phase := if flags.of fourK then .orphans flags left fourK (c.processingMedia s.db fourK)
          else .cleaning flags left }
    | .orphans flags left _ [] => some { s with phase := .cleaning flags left }
    | .cleaning _ [] => some { s with phase := .ended }
    | _ => none
  | .check t answers =>
    match s.phase with
    | .orphans flags left fourK (media :: rest) =>
      some { s with
        db := c.cleanupOne t fourK answers s media
        phase := .orphans flags left fourK rest }
    | _ => none

/-- A step of a run. -/
def Step (s : State) (event : Event) (s' : State) : Prop := c.step s event = some s'

/-- A run begins with the tables there are, and with every server to come. -/
def start (db : Db) : State := { db, left := c.servers }

end Config

end ArrScan

end Foreseerr

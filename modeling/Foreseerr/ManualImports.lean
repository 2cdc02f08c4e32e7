import Foreseerr.ImportCandidates
import Mathlib.Logic.Function.Basic

/-!
# Manual imports

A download that Radarr or Sonarr will not import by itself is imported by hand
in several requests (`mediaimports.rs`). A scan, or a list, asks the Arr for the
candidates and issues a token for each; a rematch has Sonarr read one candidate
again, for the episodes the user chose, and replaces its token; an import sends
a `ManualImport` command with the files of the tokens it is given. A token is
bound to the user, the title, the quality and the external id it was issued for
(`servarrtokens.rs`).

Requests of any users overlap: looking a token up, taking it out, issuing one,
and every call of the Arr are steps of their own, and the Arr answers anything.
Every file that is sent descends from a candidate that was offered, and is safe
to send (`ManualImports.sent_files_safe`): a candidate is checked before it is
rematched and again before it is sent, so none that was ever unsafe is left on
the way.
-/

namespace Foreseerr

namespace ManualImports

/-! ## Tokens -/

/-- What a token is bound to, and every request works on: a user, a title in one
quality, and its id in Radarr or Sonarr. -/
structure Owner where
  userId : Int
  mediaId : Int
  is4k : Bool
  radarr : Bool
  externalId : Int
deriving DecidableEq, Repr

/-- What a token stands for, by its kind. -/
inductive TokenValue
  | importSource (source : Json)
  | importCandidate (candidate source : Json)
  | command (commandId : Option Json) (interventionId : Option Int)
deriving DecidableEq, Repr

/-- How long a token of a kind lives, in milliseconds. -/
def TokenValue.ttl : TokenValue → Nat
  | .importSource _ | .importCandidate _ _ => 900000
  | .command _ _ => 3600000

/-- An entry of the store. -/
structure Entry where
  owner : Owner
  value : TokenValue
  expires : Nat
deriving DecidableEq, Repr

/-! ## Requests -/

inductive Request
  | sources (userId mediaId : Int) (is4k : Bool) (intervention : Option Int)
  | scan (userId mediaId : Int) (sourceToken : String) (is4k : Bool)
  | list (userId mediaId : Int) (is4k : Bool)
  | reprocess (userId mediaId : Int) (candidateToken : String) (episodeIds : List Int)
      (is4k : Bool)
  | imports (userId mediaId : Int) (b : ImportBody)
deriving DecidableEq, Repr

/-- Where a request is. -/
inductive Pc
  | idle
  /-- Before the queue is asked for the sources. -/
  | sourcing (owner : Owner) (intervention : Option Int)
  /-- Before the intervention is loaded whose download alone is offered. -/
  | narrowing (owner : Owner) (found : List Json)
  | scanRedeeming (owner : Owner) (token : String)
  /-- Before the queue is asked whether the download still waits. -/
  | scanCurrent (owner : Owner) (source : Json)
  | scanCandidates (owner : Owner) (source : Json)
  | listQueue (owner : Owner)
  /-- The sources whose candidates are still to be asked for, and what was offered. -/
  | listCandidates (owner : Owner) (rest : List Json) (pairs : List (Json × Json))
  /-- The tokens still to be issued. -/
  | offering (owner : Owner) (rest : List TokenValue)
  | rematchRedeeming (owner : Owner) (token : String) (ids : List Int)
  | rematchCurrent (owner : Owner) (stored : Stored) (ids : List Int)
  | rematchEpisodes (owner : Owner) (stored : Stored) (ids : List Int)
  | rematchPost (owner : Owner) (stored : Stored) (request : Json)
  /-- Rematched, before the token is taken out. -/
  | rematchRemoving (owner : Owner) (stored : Stored) (answer : Json)
  /-- The tokens that were looked up. -/
  | redeeming (owner : Owner) (b : ImportBody) (found : List Stored)
  /-- The sources still to be looked for in the queue. -/
  | current (owner : Owner) (b : ImportBody) (files : List File) (rest : List Json)
  | intervening (owner : Owner) (b : ImportBody) (files : List File)
  | qualities (owner : Owner) (b : ImportBody) (files : List File)
  | languages (owner : Owner) (b : ImportBody) (files : List File) (qualities : List Json)
  | targeting (owner : Owner) (b : ImportBody) (files : List File)
  | claiming (owner : Owner) (b : ImportBody) (files : List File)
  | commanding (owner : Owner) (b : ImportBody) (files : List File)
  /-- The command was accepted; the tokens still to be taken out. -/
  | removing (owner : Owner) (rest : List String) (value : TokenValue)
  | ended
  | failed (fail : Fail)
  /-- The command was accepted, and its answer was lost. -/
  | unanswered (b : ImportBody)
deriving Repr

inductive ImportEvent
  | began (task : Nat) (request : Request)
  /-- The Arr offered candidates of a source. -/
  | offered (owner : Owner) (source : Json) (candidates : List Json)
  /-- Sonarr answered a rematch of a candidate. -/
  | rematched (owner : Owner) (source before answer : Json)
  /-- Sonarr listed the ids of a series' episodes. -/
  | listed (task : Nat) (externalId : Int) (ids : List Json)
  | issued (token : String) (owner : Owner) (value : TokenValue) (expires : Nat)
  /-- The token of a candidate was looked up. -/
  | found (task : Nat) (token : String)
  /-- A token was taken out, by a rematch or after a command. -/
  | removed (task : Nat) (token : String) (byRematch : Bool)
  /-- A command was sent, and the Arr accepted it or not. -/
  | commanded (task : Nat) (owner : Owner) (b : ImportBody) (files : List File) (accepted : Bool)
deriving DecidableEq, Repr

/-- The store of tokens, the parties and the record. A token's id is drawn at
random, and none is drawn twice. -/
structure System where
  tokens : String → Option Entry := fun _ => none
  issued : List String := []
  now : Nat := 0
  tasks : Nat → Pc := fun _ => .idle
  log : List ImportEvent := []

namespace System

variable (s : System)

def move (task : Nat) (pc : Pc) : System :=
  { s with tasks := Function.update s.tasks task pc }

def record (events : List ImportEvent) : System := { s with log := s.log ++ events }

/-- `get`. -/
def get (token : String) : Option Entry :=
  (s.tokens token).filter fun entry => decide (entry.expires > s.now)

/-- `issue`: the expired entries are dropped. -/
def issue (token : String) (entry : Entry) : System :=
  { s with
    tokens := Function.update (fun other =>
      (s.tokens other).filter fun entry => decide (entry.expires > s.now)) token (some entry)
    issued := token :: s.issued }

/-- `remove`. -/
def remove (token : String) : System :=
  { s with tokens := Function.update s.tokens token none }

/-- `redeem`. -/
def redeem (token : String) (owner : Owner) : Option TokenValue :=
  ((s.get token).filter fun entry => decide (entry.owner = owner)).map Entry.value

variable {token other : String} {entry : Entry}

theorem tokens_issue_self : (s.issue token entry).tokens token = some entry := by
  simp [issue]

theorem tokens_issue_of_ne (h : other ≠ token) : (s.issue token entry).tokens other
    = (s.tokens other).filter fun entry => decide (entry.expires > s.now) := by
  simp [issue, h]

theorem tokens_remove_self : (s.remove token).tokens token = none :=
  Function.update_self _ _ _

theorem tokens_remove_of_ne (h : other ≠ token) : (s.remove token).tokens other = s.tokens other :=
  Function.update_of_ne h _ _

end System

/-- The answer where a token is not redeemed. -/
def expired : Fail := .status 409 "This operation has expired. Refresh and try again."

def invalidIntervention : Fail :=
  .status 409 "This intervention is not valid for the selected import."

/-! ## How a request begins -/

/-- The owner of a request: the title is resolved to Radarr or Sonarr, and its id there. -/
def ownerOf (userId mediaId : Int) (is4k : Bool) (resolved : Bool × Int) : Owner :=
  ⟨userId, mediaId, is4k, resolved.1, resolved.2⟩

/-- Go on, or answer the failure. -/
def goOn (next : Except Fail Pc) : Pc :=
  match next with
  | .ok pc => pc
  | .error fail => .failed fail

/-- A request is read and its title is resolved. -/
def begun (resolved : Except Fail (Bool × Int)) : Request → Pc
  | .sources userId mediaId is4k intervention => goOn do
    let c ← resolved
    .ok (.sourcing (ownerOf userId mediaId is4k c) intervention)
  | .scan userId mediaId sourceToken is4k =>
    if jsLen sourceToken > 128 then .failed (.status 400 "Choose an import source.")
    else goOn do
      let c ← resolved
      .ok (.scanRedeeming (ownerOf userId mediaId is4k c) sourceToken)
  | .list userId mediaId is4k => goOn do
    let c ← resolved
    .ok (.listQueue (ownerOf userId mediaId is4k c))
  | .reprocess userId mediaId candidateToken episodeIds is4k =>
    if jsLen candidateToken > 128 ∨ episodeIds = [] ∨ episodeIds.length > 100 then
      .failed (.status 400 "Choose valid episodes to rematch.")
    else goOn do
      let c ← resolved
      if c.1 then .error (.status 400 "Episode rematching is only available for Sonarr.")
      else .ok (.rematchRedeeming (ownerOf userId mediaId is4k c) candidateToken episodeIds)
  | .imports userId mediaId b => goOn do
    let c ← resolved
    if b.tokens = [] ∨ b.tokens.length > 100 ∨ ∃ token ∈ b.tokens, token = "" ∨ jsLen token > 128
      then .error (.status 400 "Select between one and 100 files to import.")
    else .ok (.redeeming (ownerOf userId mediaId b.is4k c) b [])

/-! ## What follows an answer -/

/-- Tokens are issued, unless there are none to issue. -/
def offer (owner : Owner) (values : List TokenValue) : Pc :=
  if values = [] then .ended else .offering owner values

/-- The candidates of an answer, none of which is null. -/
def candidatesOf (found : Json) : Option (List Json) :=
  found.asArray.filter fun items => items.all fun item => !item.isNull

/-- Paths that are compared; objects and arrays are never the same. -/
def comparable : Option Json → Bool
  | some (.obj _) | some (.arr _) => false
  | _ => true

/-- The first candidate of each path. -/
def firstOfPaths (pairs : List (Json × Json)) : List (Json × Json) :=
  (pairs.foldl (fun (out : List (Option Json) × List (Json × Json)) pair =>
    let path := pair.1.get "path"
    if comparable path && decide (path ∈ out.1) then out
    else (out.1 ++ [path], out.2 ++ [pair])) ([], [])).2

/-- A list goes on to the next source, or issues the tokens. -/
def listNext (owner : Owner) (rest : List Json) (pairs : List (Json × Json)) : Pc :=
  if rest = [] then
    offer owner ((firstOfPaths pairs).map fun pair => .importCandidate pair.1 pair.2)
  else .listCandidates owner rest pairs

/-- `episode_ids`; what is not a list counts as empty. -/
def episodeIds (answer : Json) : List Json :=
  ((answer.asArray).getD []).filterMap (Json.get "id")

/-- What a rematch asks Sonarr to read. -/
def rematchFile (stored : Stored) (externalId : Int) (ids : List Int) : Json :=
  .arr [.obj (Json.setField "episodeIds" (.arr (ids.map fun (id : Int) => .num id))
    (Json.setField "seriesId" (.num externalId) ((stored.candidate.asObject).getD [])))]

/-- The intervention is claimed, if there is one, and the command is sent. -/
def claimNext (owner : Owner) (b : ImportBody) (files : List File) : Pc :=
  if b.intervention.isSome then .claiming owner b files else .commanding owner b files

/-- The files are checked and go to the movie, or the episodes are asked for. -/
def checkNext (owner : Owner) (b : ImportBody) (files : List File) : Except Fail Pc := do
  checkFiles owner.radarr b files
  if owner.radarr then
    .ok (claimNext owner b (files.map fun file => file.toMovie owner.externalId))
  else .ok (.targeting owner b files)

/-- What can be chosen is asked for, if anything was. -/
def overrideNext (owner : Owner) (b : ImportBody) (files : List File) : Except Fail Pc :=
  if b.overrides.any fun choice => choice.quality.isSome || choice.languages.isSome then
    .ok (.qualities owner b files)
  else checkNext owner b files

def currentNext (owner : Owner) (b : ImportBody) (files : List File) (rest : List Json) :
    Except Fail Pc :=
  if rest ≠ [] then .ok (.current owner b files rest)
  else if b.intervention.isSome then .ok (.intervening owner b files)
  else overrideNext owner b files

/-- A source is the download of an intervention. -/
def isDownload (download : Option String) (source : Json) : Bool :=
  match source.get "downloadId" with
  | some (.str d) => decide (some d = download)
  | _ => false

section Lowercase

variable (toLowercase : String → String)

/-- What follows the Arr's answer to a request that waits for one, and what is
recorded of it. -/
def answered (task : Nat) (pc : Pc) (answer : Json) :
    Option (Except Fail (Pc × List ImportEvent)) :=
  match pc with
  | .sourcing owner intervention => some do
    let found ← currentSources toLowercase answer
    if intervention.isSome then .ok (.narrowing owner found, [])
    else .ok (offer owner (found.map .importSource), [])
  | .scanCurrent owner source => some do
    assertCurrent toLowercase answer source
    .ok (.scanCandidates owner source, [])
  | .scanCandidates owner source => some (match candidatesOf answer with
    | some items => .ok (offer owner (items.map fun item => .importCandidate item source),
        [.offered owner source items])
    | none => .error (shapeError "candidates"))
  | .listQueue owner => some do
    let found ← currentSources toLowercase answer
    .ok (listNext owner found [], [])
  | .listCandidates owner (source :: rest) pairs => some (match candidatesOf answer with
    | some items => .ok (listNext owner rest (pairs ++ items.map fun item => (item, source)),
        [.offered owner source items])
    | none => .error (.forward "candidates the handler would trip over"))
  | .rematchCurrent owner stored ids => some do
    assertCurrent toLowercase answer stored.source
    .ok (.rematchEpisodes owner stored ids, [])
  | .rematchEpisodes owner stored ids => some (
    if ∃ id ∈ dedupe ids, Json.num (id : Int) ∉ episodeIds answer then
      .error (.status 400 "Every selected episode must belong to this series.")
    else .ok (.rematchPost owner stored (rematchFile stored owner.externalId (dedupe ids)), []))
  | .rematchPost owner stored _ => some (
    match ((answer.asArray).bind List.head?).filter Json.truthy with
    | some first => .ok (.rematchRemoving owner stored first,
        [.rematched owner stored.source stored.candidate first])
    | none => .error (.status 502 "Sonarr did not return a rematched import candidate."))
  | .current owner b files (source :: rest) => some do
    assertCurrent toLowercase answer source
    let next ← currentNext owner b files rest
    .ok (next, [])
  | .qualities owner b files => some do
    let qualities ← importQualities answer
    .ok (.languages owner b files qualities, [])
  | .languages owner b files qualities => some do
    let languages ← importLanguages answer
    let files ← files.mapM (applyOverride owner.radarr qualities languages b)
    let next ← checkNext owner b files
    .ok (next, [])
  | .targeting owner b files => some do
    let files ← files.mapM fun file =>
      file.toEpisodes b owner.externalId (episodeIds answer)
    .ok (claimNext owner b files, [.listed task owner.externalId (episodeIds answer)])
  | _ => none

/-- What follows a look-up. -/
def redeemed (s : System) (pc : Pc) : Option (Except Fail (Pc × List String)) :=
  match pc with
  | .scanRedeeming owner token => some (match s.redeem token owner with
    | some (.importSource source) => .ok (.scanCurrent owner source, [])
    | _ => .error expired)
  | .rematchRedeeming owner token ids => some (match s.redeem token owner with
    | some (.importCandidate candidate source) => do
      refuseUnsafe toLowercase candidate
      .ok (.rematchCurrent owner ⟨token, candidate, source⟩ ids, [token])
    | _ => .error expired)
  | .redeeming owner b found => (b.tokens[found.length]?).map fun token =>
    match s.redeem token owner with
    | some (.importCandidate candidate source) =>
      let found := found ++ [⟨token, candidate, source⟩]
      if found.length < b.tokens.length then .ok (.redeeming owner b found, [token])
      else do
        safeToImport toLowercase owner.radarr b found
        .ok (.current owner b (found.map Stored.file) (found.map Stored.source), [token])
    | _ => .error expired
  | _ => none

end Lowercase

/-! ## One step -/

/-- What becomes of a command: the Arr accepts it and answers, refuses it (or is not
reached), or accepts it and the answer is lost. -/
inductive CommandOutcome
  | accepted (answer : Json)
  | refused
  | lost
deriving Repr

inductive Act
  | start (task : Nat) (request : Request) (resolved : Except Fail (Bool × Int))
  | redeem (task : Nat)
  /-- The Arr answers, or the call fails. -/
  | answer (task : Nat) (answer : Option Json)
  /-- The intervention is loaded: its download, or why it is not valid. -/
  | load (task : Nat) (download : Except Fail (Option String))
  /-- `start_import` claims the intervention, or not, or fails. -/
  | claim (task : Nat) (claimed : Except Fail Bool)
  | command (task : Nat) (outcome : CommandOutcome)
  | remove (task : Nat)
  | issue (task : Nat) (uuid : String)
  | tick (ms : Nat)

/-- A party goes on, with what is recorded of the step. -/
def System.proceed (s : System) (task : Nat) :
    Except Fail (Pc × List ImportEvent) → System
  | .ok (pc, events) => (s.record events).move task pc
  | .error fail => s.move task (.failed fail)

/-- One step of a party, or of the clock. -/
def step (toLowercase : String → String) (s : System) : Act → Option System
  | .start task request resolved => match s.tasks task with
    | .idle => some (s.proceed task (.ok (begun resolved request, [.began task request])))
    | _ => none
  | .redeem task => (redeemed toLowercase s (s.tasks task)).map fun next =>
    s.proceed task (next.map fun (pc, tokens) => (pc, tokens.map (.found task)))
  | .answer task (some answer) =>
    (answered toLowercase task (s.tasks task) answer).map (s.proceed task)
  | .answer task none =>
    (answered toLowercase task (s.tasks task) .null).map fun _ => s.proceed task (.error .arr)
  | .load task download => match s.tasks task with
    | .narrowing owner found => some (s.proceed task (download.map fun download =>
        (offer owner ((found.filter (isDownload download)).map .importSource), [])))
    | .intervening owner b files => some (s.proceed task (do
        let download ← download
        if files.all fun file => isDownload download file.stored.source then
          (overrideNext owner b files).map fun pc => (pc, [])
        else .error invalidIntervention))
    | _ => none
  | .claim task claimed => match s.tasks task with
    | .claiming owner b files => some (s.proceed task (do
        let claimed ← claimed
        if claimed then .ok (.commanding owner b files, [])
        else .error (.status 409 "This warning is already being handled.")))
    | _ => none
  | .command task outcome => match s.tasks task with
    | .commanding owner b files => match outcome with
      | .accepted answer => some ((s.record [.commanded task owner b files true]).move task
          (.removing owner b.tokens (.command (answer.get "id") b.intervention)))
      | .refused => some ((s.record [.commanded task owner b files false]).move task
          (.failed .arr))
      | .lost => some ((s.record [.commanded task owner b files true]).move task (.unanswered b))
    | _ => none
  | .remove task => match s.tasks task with
    | .rematchRemoving owner stored answer =>
      some (((s.remove stored.token).record [.removed task stored.token true]).move task
        (.offering owner
          [.importCandidate (rematched answer stored.candidate) stored.source]))
    | .removing owner (token :: rest) value =>
      some (((s.remove token).record [.removed task token false]).move task
        (if rest = [] then .offering owner [value] else .removing owner rest value))
    | _ => none
  | .issue task uuid => match s.tasks task with
    | .offering owner (value :: rest) =>
      if uuid ∈ s.issued then none
      else
        let entry : Entry := ⟨owner, value, s.now + value.ttl⟩
        some (((s.issue uuid entry).record [.issued uuid owner value entry.expires]).move task
          (offer owner rest))
    | _ => none
  | .tick ms => some { s with now := s.now + ms }

/-- The steps as a relation. -/
def Step (toLowercase : String → String) (s : System) (act : Act) (s' : System) : Prop :=
  step toLowercase s act = some s'

/-- The party a step is of. -/
def Act.task : Act → Option Nat
  | .start task _ _ | .redeem task | .answer task _ | .load task _ | .claim task _
  | .command task _ | .remove task | .issue task _ => some task
  | .tick _ => none

/-! ## What a command may send -/

variable {toLowercase : String → String} {log more : List ImportEvent} {owner : Owner}
  {task : Nat} {b : ImportBody} {s s' : System}

/-- **Where a candidate comes from**: the Arr offered it, or it is the rematch of one
that comes from somewhere; with all it descends from, itself first. -/
inductive Descends (log : List ImportEvent) (owner : Owner) (source : Json) :
    Json → List Json → Prop
  | offered {candidates : List Json} {candidate : Json} :
      .offered owner source candidates ∈ log → candidate ∈ candidates →
      Descends log owner source candidate [candidate]
  | rematched {before answer : Json} {line : List Json} :
      Descends log owner source before line → .rematched owner source before answer ∈ log →
      Descends log owner source (rematched answer before) (rematched answer before :: line)

/-- The import was asked for by this user, for this title in this quality. -/
def Asked (log : List ImportEvent) (task : Nat) (owner : Owner) (b : ImportBody) : Prop :=
  .began task (.imports owner.userId owner.mediaId b) ∈ log ∧ owner.is4k = b.is4k

/-- Sonarr listed the id for the series, while the import was under way. -/
def Listed (log : List ImportEvent) (task : Nat) (externalId : Int) (id : Json) : Prop :=
  ∃ ids, .listed task externalId ids ∈ log ∧ id ∈ ids

/-- The picked episodes, as they are sent. -/
def pickedIds (picks : List Int) : List Json := dedupe (picks.map fun (id : Int) => .num id)

/-- **Where a file of a series goes.** -/
def GoesTo (log : List ImportEvent) (task : Nat) (owner : Owner) (b : ImportBody) (file : File) :
    Prop :=
  ∃ ids, Json.getField "episodeIds" file.fields = some (.arr ids) ∧ ids ≠ [] ∧ ids.Nodup ∧
    (∀ id ∈ ids, Listed log task owner.externalId id) ∧
    (∀ picks, b.picks file.stored.token = some picks → ids = pickedIds picks) ∧
    (multiSeason file.stored.candidate file.stored.source = true →
      ∃ picks, b.picks file.stored.token = some picks ∧ picks ≠ [])

/-- **What may be sent**: a file of a candidate that was offered to the owner, of
which none that it descends from is unsafe; whose rejections, if it has any, were
acknowledged; and, of a series, to episodes it may go to. -/
structure Sendable (toLowercase : String → String) (log : List ImportEvent) (task : Nat)
    (owner : Owner) (b : ImportBody) (file : File) : Prop where
  descends : ∃ line, Descends log owner file.stored.source file.stored.candidate line
  safe : ∀ line, Descends log owner file.stored.source file.stored.candidate line →
    ∀ candidate ∈ line, refuseUnsafe toLowercase candidate = .ok ()
  untouched : file.Untouched
  acknowledged : hasLength (file.stored.candidate.get "rejections") = true → b.acknowledge = true
  target : owner.radarr = false → GoesTo log task owner b file

/-! ## The invariant -/

def Offered (log : List ImportEvent) (owner : Owner) (candidate source : Json) : Prop :=
  ∃ line, Descends log owner source candidate line

/-- A token may be issued for this. -/
def ValueSound (log : List ImportEvent) (owner : Owner) : TokenValue → Prop
  | .importCandidate candidate source => Offered log owner candidate source
  | _ => True

/-- A file of an import, by `safe_to_import`. -/
structure PickedFile (toLowercase : String → String) (log : List ImportEvent) (owner : Owner)
    (b : ImportBody) (file : File) : Prop where
  offered : Offered log owner file.stored.candidate file.stored.source
  safe : refuseUnsafe toLowercase file.stored.candidate = .ok ()
  untouched : file.Untouched
  mapped : owner.radarr = false →
    multiSeason file.stored.candidate file.stored.source = true → b.maps file.stored.token = true

/-- The files of an import, one for each of its tokens. -/
structure Picked (toLowercase : String → String) (log : List ImportEvent) (owner : Owner)
    (b : ImportBody) (files : List File) : Prop where
  tokens : files.map (fun file => file.stored.token) = b.tokens
  files : ∀ file ∈ files, PickedFile toLowercase log owner b file

/-- Their rejections were acknowledged. -/
def Acknowledged (b : ImportBody) (files : List File) : Prop :=
  ∀ file ∈ files, hasLength (file.stored.candidate.get "rejections") = true → b.acknowledge = true

/-- All is checked, and the files can be sent. -/
structure Ready (toLowercase : String → String) (log : List ImportEvent) (task : Nat)
    (owner : Owner) (b : ImportBody) (files : List File) : Prop where
  picked : Picked toLowercase log owner b files
  acknowledged : Acknowledged b files
  target : owner.radarr = false → ∀ file ∈ files, GoesTo log task owner b file

/-- What holds of a party, by where it is. -/
def PcSound (toLowercase : String → String) (log : List ImportEvent) (task : Nat) : Pc → Prop
  | .listCandidates owner _ pairs => ∀ pair ∈ pairs, Offered log owner pair.1 pair.2
  | .offering owner rest => ∀ value ∈ rest, ValueSound log owner value
  | .rematchCurrent owner stored _ | .rematchEpisodes owner stored _
  | .rematchPost owner stored _ =>
    Offered log owner stored.candidate stored.source ∧
      refuseUnsafe toLowercase stored.candidate = .ok ()
  | .rematchRemoving owner stored answer => Offered log owner stored.candidate stored.source ∧
    .rematched owner stored.source stored.candidate answer ∈ log
  | .redeeming owner b found => Asked log task owner b ∧
    found.map Stored.token = b.tokens.take found.length ∧
    ∀ stored ∈ found, Offered log owner stored.candidate stored.source
  | .current owner b files _ | .intervening owner b files | .qualities owner b files
  | .languages owner b files _ => Asked log task owner b ∧ Picked toLowercase log owner b files
  | .targeting owner b files => Asked log task owner b ∧ Picked toLowercase log owner b files ∧
    Acknowledged b files
  | .claiming owner b files | .commanding owner b files =>
    Asked log task owner b ∧ Ready toLowercase log task owner b files
  | .removing _ _ value => ∀ owner, ValueSound log owner value
  | _ => True

/-- What an event follows. -/
def Follows (toLowercase : String → String) (before : List ImportEvent) : ImportEvent → Prop
  | .rematched _ _ candidate _ => refuseUnsafe toLowercase candidate = .ok ()
  | .commanded task owner b files _ => Asked before task owner b ∧
    files.map (fun file => file.stored.token) = b.tokens ∧
    ∀ file ∈ files, Sendable toLowercase before task owner b file
  | _ => True

/-- **The invariant**: what tokens stand for was offered, and what a party has checked
still holds of it. -/
structure Inv (toLowercase : String → String) (s : System) : Prop where
  tokens : ∀ token entry, s.tokens token = some entry → ValueSound s.log entry.owner entry.value
  tasks : ∀ task, PcSound toLowercase s.log task (s.tasks task)
  log : Log.EachAfter (Follows toLowercase) s.log

/-! ## A longer record -/

theorem Descends.mono {source candidate : Json} {line : List Json}
    (h : Descends log owner source candidate line) (hlog : log ⊆ more) :
    Descends more owner source candidate line := by
  induction h with
  | offered hoffered hmem => exact .offered (hlog hoffered) hmem
  | rematched _ hrematched ih => exact .rematched ih (hlog hrematched)

theorem Offered.mono {candidate source : Json} (h : Offered log owner candidate source)
    (hlog : log ⊆ more) : Offered more owner candidate source :=
  h.imp fun _ hline => hline.mono hlog

theorem Asked.mono (h : Asked log task owner b) (hlog : log ⊆ more) : Asked more task owner b :=
  ⟨hlog h.1, h.2⟩

theorem ValueSound.mono {value : TokenValue} (h : ValueSound log owner value)
    (hlog : log ⊆ more) : ValueSound more owner value := by
  cases value with
  | importCandidate candidate source => exact Offered.mono h hlog
  | _ => trivial

theorem Picked.mono {files : List File} (h : Picked toLowercase log owner b files)
    (hlog : log ⊆ more) : Picked toLowercase more owner b files where
  tokens := h.tokens
  files file hfile :=
    { h.files file hfile with offered := (h.files file hfile).offered.mono hlog }

theorem GoesTo.mono {file : File} (h : GoesTo log task owner b file) (hlog : log ⊆ more) :
    GoesTo more task owner b file := by
  obtain ⟨ids, hfield, hne, hnodup, hlisted, hrest⟩ := h
  refine ⟨ids, hfield, hne, hnodup, fun id hid => ?_, hrest⟩
  exact (hlisted id hid).imp fun _ hids => ⟨hlog hids.1, hids.2⟩

theorem Ready.mono {files : List File} (h : Ready toLowercase log task owner b files)
    (hlog : log ⊆ more) : Ready toLowercase more task owner b files where
  picked := h.picked.mono hlog
  acknowledged := h.acknowledged
  target hsonarr file hfile := (h.target hsonarr file hfile).mono hlog

theorem PcSound.mono {pc : Pc} (h : PcSound toLowercase log task pc) (hlog : log ⊆ more) :
    PcSound toLowercase more task pc := by
  cases pc with
  | listCandidates owner rest pairs => exact fun pair hpair => (h pair hpair).mono hlog
  | offering owner rest => exact fun value hvalue => (h value hvalue).mono hlog
  | rematchCurrent owner stored ids => exact ⟨h.1.mono hlog, h.2⟩
  | rematchEpisodes owner stored ids => exact ⟨h.1.mono hlog, h.2⟩
  | rematchPost owner stored request => exact ⟨h.1.mono hlog, h.2⟩
  | rematchRemoving owner stored answer => exact ⟨h.1.mono hlog, hlog h.2⟩
  | redeeming owner b found =>
    exact ⟨h.1.mono hlog, h.2.1, fun stored hstored => (h.2.2 stored hstored).mono hlog⟩
  | current owner b files rest => exact ⟨h.1.mono hlog, h.2.mono hlog⟩
  | intervening owner b files => exact ⟨h.1.mono hlog, h.2.mono hlog⟩
  | qualities owner b files => exact ⟨h.1.mono hlog, h.2.mono hlog⟩
  | languages owner b files qualities => exact ⟨h.1.mono hlog, h.2.mono hlog⟩
  | targeting owner b files => exact ⟨h.1.mono hlog, h.2.1.mono hlog, h.2.2⟩
  | claiming owner b files => exact ⟨h.1.mono hlog, h.2.mono hlog⟩
  | commanding owner b files => exact ⟨h.1.mono hlog, h.2.mono hlog⟩
  | removing owner rest value => exact fun owner => (h owner).mono hlog
  | _ => trivial

/-! ## What follows is sound -/

theorem pcSound_offer {values : List TokenValue}
    (h : ∀ value ∈ values, ValueSound log owner value) :
    PcSound toLowercase log task (offer owner values) := by
  unfold offer
  split
  · trivial
  · exact h

theorem mem_of_mem_firstOfPaths {pairs : List (Json × Json)} {pair : Json × Json}
    (h : pair ∈ firstOfPaths pairs) : pair ∈ pairs := by
  unfold firstOfPaths at h
  induction pairs using List.reverseRecOn with
  | nil => exact h
  | append_singleton pairs last ih =>
    rw [List.foldl_append] at h
    simp only [List.foldl_cons, List.foldl_nil] at h
    split at h
    · exact List.mem_append_left _ (ih h)
    · rcases List.mem_append.1 h with hold | hlast
      · exact List.mem_append_left _ (ih hold)
      · exact List.mem_append_right _ hlast

theorem pcSound_listNext {rest : List Json} {pairs : List (Json × Json)}
    (h : ∀ pair ∈ pairs, Offered log owner pair.1 pair.2) :
    PcSound toLowercase log task (listNext owner rest pairs) := by
  unfold listNext
  split
  · refine pcSound_offer fun value hvalue => ?_
    obtain ⟨pair, hpair, rfl⟩ := List.mem_map.1 hvalue
    exact h pair (mem_of_mem_firstOfPaths hpair)
  · exact h

theorem pcSound_claimNext {files : List File} (hasked : Asked log task owner b)
    (h : Ready toLowercase log task owner b files) :
    PcSound toLowercase log task (claimNext owner b files) := by
  unfold claimNext
  split
  · exact ⟨hasked, h⟩
  · exact ⟨hasked, h⟩

theorem Picked.acknowledged {files : List File} (h : Picked toLowercase log owner b files)
    (hcheck : checkFiles owner.radarr b files = .ok ()) : Acknowledged b files := by
  intro file hfile hlength
  refine checkFiles_eq_ok hcheck file hfile ?_
  rwa [(h.files file hfile).untouched "rejections" (by decide)]

theorem checkNext_sound {files : List File} {pc : Pc} (hasked : Asked log task owner b)
    (h : Picked toLowercase log owner b files) (hnext : checkNext owner b files = .ok pc) :
    PcSound toLowercase log task pc := by
  obtain ⟨⟨⟩, hcheck, hnext⟩ := except_bind_eq_ok hnext
  have hack : Acknowledged b files := h.acknowledged hcheck
  split at hnext
  · rename_i hradarr
    cases hnext
    refine pcSound_claimNext hasked ⟨⟨?_, ?_⟩, ?_, ?_⟩
    · rw [← h.tokens, List.map_map]
      rfl
    · intro movie hmovie
      obtain ⟨file, hfile, rfl⟩ := List.mem_map.1 hmovie
      have hpicked := h.files file hfile
      exact { hpicked with untouched := hpicked.untouched.set (by decide) _ }
    · intro movie hmovie
      obtain ⟨file, hfile, rfl⟩ := List.mem_map.1 hmovie
      exact hack file hfile
    · intro hsonarr
      rw [hsonarr] at hradarr
      cases hradarr
  · cases hnext
    exact ⟨hasked, h, hack⟩

theorem overrideNext_sound {files : List File} {pc : Pc} (hasked : Asked log task owner b)
    (h : Picked toLowercase log owner b files) (hnext : overrideNext owner b files = .ok pc) :
    PcSound toLowercase log task pc := by
  unfold overrideNext at hnext
  split at hnext
  · cases hnext
    exact ⟨hasked, h⟩
  · exact checkNext_sound hasked h hnext

theorem currentNext_sound {files : List File} {rest : List Json} {pc : Pc}
    (hasked : Asked log task owner b) (h : Picked toLowercase log owner b files)
    (hnext : currentNext owner b files rest = .ok pc) : PcSound toLowercase log task pc := by
  unfold currentNext at hnext
  split at hnext
  · cases hnext
    exact ⟨hasked, h⟩
  · split at hnext
    · cases hnext
      exact ⟨hasked, h⟩
    · exact overrideNext_sound hasked h hnext

/-- What is written on a picked file leaves it one. -/
theorem PickedFile.written {file file' : File} (h : PickedFile toLowercase log owner b file)
    (hstored : file'.stored = file.stored) (huntouched : file'.Untouched) :
    PickedFile toLowercase log owner b file' where
  offered := by
    rw [hstored]
    exact h.offered
  safe := by
    rw [hstored]
    exact h.safe
  untouched := huntouched
  mapped := by
    rw [hstored]
    exact h.mapped

theorem Picked.written {files files' : List File} {write : File → Except Fail File}
    (h : Picked toLowercase log owner b files)
    (hwrite : ∀ file file', file.Untouched → write file = .ok file' →
      file'.stored = file.stored ∧ file'.Untouched)
    (hfiles : files.mapM write = .ok files') : Picked toLowercase log owner b files' where
  tokens := by
    rw [← h.tokens]
    refine mapM_map_eq (fun file hfile file' heq => ?_) hfiles
    rw [(hwrite file file' (h.files file hfile).untouched heq).1]
  files file' hfile' := by
    obtain ⟨file, hfile, heq⟩ := (mapM_eq_ok hfiles).1 file' hfile'
    have hpicked := h.files file hfile
    obtain ⟨hstored, huntouched⟩ := hwrite file file' hpicked.untouched heq
    exact hpicked.written hstored huntouched

/-- **Where the files of a series go.** -/
theorem ready_of_toEpisodes {files files' : List File} {valid : List Json}
    (h : Picked toLowercase log owner b files) (hack : Acknowledged b files)
    (hlisted : .listed task owner.externalId valid ∈ log)
    (hfiles : files.mapM (fun file => file.toEpisodes b owner.externalId valid) = .ok files') :
    Ready toLowercase log task owner b files' := by
  have hwritten : ∀ file' ∈ files', ∃ file ∈ files, file'.stored = file.stored ∧
      ∃ ids, Json.getField "episodeIds" file'.fields = some (.arr ids) ∧ ids ≠ [] ∧ ids.Nodup ∧
        (∀ id ∈ ids, id ∈ valid) ∧ ids = dedupe (file.targets b) := by
    intro file' hfile'
    obtain ⟨file, hfile, heq⟩ := (mapM_eq_ok hfiles).1 file' hfile'
    obtain ⟨hstored, -, hids⟩ := toEpisodes_eq_ok (h.files file hfile).untouched heq
    exact ⟨file, hfile, hstored, hids⟩
  refine ⟨h.written (fun file file' hfile heq => ?_) hfiles, fun file' hfile' => ?_, ?_⟩
  · obtain ⟨hstored, huntouched, -⟩ := toEpisodes_eq_ok hfile heq
    exact ⟨hstored, huntouched⟩
  · obtain ⟨file, hfile, hstored, -⟩ := hwritten file' hfile'
    rw [hstored]
    exact hack file hfile
  · intro hsonarr file' hfile'
    obtain ⟨file, hfile, hstored, ids, hfield, hne, hnodup, hvalid, htargets⟩ :=
      hwritten file' hfile'
    have hpicks : ∀ picks, b.picks file'.stored.token = some picks → ids = pickedIds picks := by
      intro picks hpicks
      rw [hstored] at hpicks
      rw [htargets, File.targets, hpicks]
      rfl
    refine ⟨ids, hfield, hne, hnodup, fun id hid => ⟨valid, hlisted, hvalid id hid⟩, hpicks, ?_⟩
    intro hmulti
    have hmaps : b.maps file'.stored.token = true := by
      rw [hstored] at hmulti ⊢
      exact (h.files file hfile).mapped hsonarr hmulti
    obtain ⟨picks, heq⟩ := ImportBody.exists_picks hmaps
    refine ⟨picks, heq, ?_⟩
    rintro rfl
    exact hne (hpicks [] heq)

/-! ## The steps of a party -/

/-- Where a party goes on is sound, with what is recorded of the step. -/
def NextSound (toLowercase : String → String) (log : List ImportEvent) (task : Nat)
    (next : Pc × List ImportEvent) : Prop :=
  PcSound toLowercase (log ++ next.2) task next.1 ∧
    ∀ event ∈ next.2, ∀ before, Follows toLowercase before event

/-- Nothing is recorded of the step. -/
theorem NextSound.quiet {pc : Pc} (h : PcSound toLowercase log task pc) :
    NextSound toLowercase log task (pc, []) :=
  ⟨h.mono (List.subset_append_left log []), fun _ hevent => absurd hevent List.not_mem_nil⟩

/-- What the Arr offered has been offered. -/
theorem offered_of_mem {source candidate : Json} {items : List Json} (h : candidate ∈ items) :
    Offered (log ++ [.offered owner source items]) owner candidate source :=
  ⟨[candidate], .offered (List.mem_append_right _ List.mem_cons_self) h⟩

/-- **An answer of the Arr.** -/
theorem answered_sound {pc : Pc} {next : Pc × List ImportEvent} {answer : Json}
    (h : PcSound toLowercase log task pc)
    (hnext : answered toLowercase task pc answer = some (.ok next)) :
    NextSound toLowercase log task next := by
  cases pc with
  | sourcing owner intervention =>
    obtain ⟨found, -, hnext⟩ := except_bind_eq_ok (Option.some.inj hnext)
    split at hnext
    · cases hnext
      exact .quiet trivial
    · cases hnext
      refine .quiet (pcSound_offer fun value hvalue => ?_)
      obtain ⟨source, -, rfl⟩ := List.mem_map.1 hvalue
      trivial
  | scanCurrent owner source =>
    obtain ⟨-, -, hnext⟩ := except_bind_eq_ok (Option.some.inj hnext)
    cases hnext
    exact .quiet trivial
  | scanCandidates owner source =>
    replace hnext := Option.some.inj hnext
    split at hnext
    · cases hnext
      refine ⟨pcSound_offer fun value hvalue => ?_, by simp [Follows]⟩
      obtain ⟨item, hitem, rfl⟩ := List.mem_map.1 hvalue
      exact offered_of_mem hitem
    · cases hnext
  | listQueue owner =>
    obtain ⟨found, -, hnext⟩ := except_bind_eq_ok (Option.some.inj hnext)
    cases hnext
    exact .quiet (pcSound_listNext nofun)
  | listCandidates owner rest pairs =>
    cases rest with
    | nil => cases hnext
    | cons source rest =>
      replace hnext := Option.some.inj hnext
      split at hnext
      · cases hnext
        refine ⟨pcSound_listNext fun pair hpair => ?_, by simp [Follows]⟩
        rcases List.mem_append.1 hpair with hold | hnew
        · exact (h pair hold).mono (List.subset_append_left _ _)
        · obtain ⟨item, hitem, rfl⟩ := List.mem_map.1 hnew
          exact offered_of_mem hitem
      · cases hnext
  | rematchCurrent owner stored ids =>
    obtain ⟨-, -, hnext⟩ := except_bind_eq_ok (Option.some.inj hnext)
    cases hnext
    exact .quiet h
  | rematchEpisodes owner stored ids =>
    replace hnext := Option.some.inj hnext
    split at hnext
    · cases hnext
    · cases hnext
      exact .quiet h
  | rematchPost owner stored request =>
    replace hnext := Option.some.inj hnext
    split at hnext
    · cases hnext
      refine ⟨⟨?_, List.mem_append_right _ List.mem_cons_self⟩, ?_⟩
      · exact h.1.mono (List.subset_append_left _ _)
      · intro event hevent before
        cases List.mem_singleton.1 hevent
        exact h.2
    · cases hnext
  | current owner b files rest =>
    cases rest with
    | nil => cases hnext
    | cons source rest =>
      obtain ⟨-, -, hnext⟩ := except_bind_eq_ok (Option.some.inj hnext)
      obtain ⟨pc, hpc, hnext⟩ := except_bind_eq_ok hnext
      cases hnext
      exact .quiet (currentNext_sound h.1 h.2 hpc)
  | qualities owner b files =>
    obtain ⟨qualities, -, hnext⟩ := except_bind_eq_ok (Option.some.inj hnext)
    cases hnext
    exact .quiet h
  | languages owner b files qualities =>
    obtain ⟨languages, -, hnext⟩ := except_bind_eq_ok (Option.some.inj hnext)
    obtain ⟨files', hfiles, hnext⟩ := except_bind_eq_ok hnext
    obtain ⟨pc, hpc, hnext⟩ := except_bind_eq_ok hnext
    cases hnext
    refine .quiet (checkNext_sound h.1 (h.2.written (fun file file' hfile heq => ?_) hfiles) hpc)
    exact applyOverride_eq_ok hfile heq
  | targeting owner b files =>
    obtain ⟨files', hfiles, hnext⟩ := except_bind_eq_ok (Option.some.inj hnext)
    cases hnext
    obtain ⟨hasked, hpicked, hack⟩ := h
    refine ⟨pcSound_claimNext (hasked.mono (List.subset_append_left _ _)) ?_, by simp [Follows]⟩
    exact ready_of_toEpisodes (hpicked.mono (List.subset_append_left _ _)) hack
      (List.mem_append_right _ List.mem_cons_self) hfiles
  | _ => cases hnext

theorem System.redeem_eq_some {token : String} {value : TokenValue}
    (h : s.redeem token owner = some value) :
    ∃ entry, s.tokens token = some entry ∧ entry.owner = owner ∧ entry.value = value := by
  obtain ⟨entry, hentry, rfl⟩ := Option.map_eq_some_iff.1 h
  obtain ⟨hget, howner⟩ := Option.filter_eq_some_iff.1 hentry
  exact ⟨entry, (Option.filter_eq_some_iff.1 hget).1, of_decide_eq_true howner, rfl⟩

/-- **A look-up.** -/
theorem redeemed_sound {pc : Pc} {next : Pc × List String} (h : Inv toLowercase s)
    (hpc : PcSound toLowercase s.log task pc)
    (hnext : redeemed toLowercase s pc = some (.ok next)) :
    PcSound toLowercase s.log task next.1 := by
  have hoffered : ∀ {token owner candidate source},
      s.redeem token owner = some (.importCandidate candidate source) →
      Offered s.log owner candidate source := by
    intro token owner candidate source hredeem
    obtain ⟨entry, hentry, rfl, hvalue⟩ := System.redeem_eq_some hredeem
    have hsound := h.tokens token entry hentry
    rw [hvalue] at hsound
    exact hsound
  cases pc with
  | scanRedeeming owner token =>
    replace hnext := Option.some.inj hnext
    split at hnext
    · cases hnext
      trivial
    · cases hnext
  | rematchRedeeming owner token ids =>
    replace hnext := Option.some.inj hnext
    split at hnext
    · rename_i candidate source hredeem
      obtain ⟨⟨⟩, hsafe, hnext⟩ := except_bind_eq_ok hnext
      cases hnext
      exact ⟨hoffered hredeem, hsafe⟩
    · cases hnext
  | redeeming owner b found =>
    obtain ⟨token, htoken, hnext⟩ := Option.map_eq_some_iff.1 hnext
    split at hnext
    · rename_i candidate source hredeem
      obtain ⟨hasked, htokens, hfound⟩ := hpc
      have hlength : found.length < b.tokens.length := (List.getElem?_eq_some_iff.1 htoken).1
      have hall : ∀ stored ∈ found ++ [Stored.mk token candidate source],
          Offered s.log owner stored.candidate stored.source := by
        intro stored hstored
        rcases List.mem_append.1 hstored with hold | hnew
        · exact hfound stored hold
        · cases List.mem_singleton.1 hnew
          exact hoffered hredeem
      have htaken : (found ++ [Stored.mk token candidate source]).map Stored.token
          = b.tokens.take (found.length + 1) := by
        rw [List.map_append, htokens, List.take_add_one, htoken]
        rfl
      dsimp only at hnext
      split at hnext
      · cases hnext
        refine ⟨hasked, ?_, hall⟩
        rw [htaken, List.length_append]
        rfl
      · rename_i hlast
        obtain ⟨⟨⟩, hsafe, hnext⟩ := except_bind_eq_ok hnext
        cases hnext
        obtain ⟨hsafe, hmulti⟩ := safeToImport_eq_ok hsafe
        refine ⟨hasked, ?_, fun file hfile => ?_⟩
        · rw [List.map_map]
          refine (htaken.trans ?_)
          rw [List.length_append, List.length_singleton] at hlast
          exact List.take_of_length_le (Nat.le_of_not_lt hlast)
        · obtain ⟨stored, hstored, rfl⟩ := List.mem_map.1 hfile
          exact ⟨hall stored hstored, hsafe stored hstored, stored.untouched_file,
            hmulti stored hstored⟩
    · cases hnext
  | _ => cases hnext

/-! ## One step -/

/-- A party goes on, and what is recorded of the step follows what was. -/
theorem Inv.move (h : Inv toLowercase s) {pc : Pc} {events : List ImportEvent}
    (hpc : PcSound toLowercase (s.log ++ events) task pc)
    (hlog : Log.EachAfter (Follows toLowercase) (s.log ++ events)) :
    Inv toLowercase ((s.record events).move task pc) where
  tokens token entry hentry := (h.tokens token entry hentry).mono (List.subset_append_left _ _)
  tasks other := by
    show PcSound toLowercase (s.log ++ events) other (Function.update s.tasks task pc other)
    by_cases heq : other = task
    · subst heq
      rw [Function.update_self]
      exact hpc
    · rw [Function.update_of_ne heq]
      exact (h.tasks other).mono (List.subset_append_left _ _)
  log := hlog

theorem Inv.proceed (h : Inv toLowercase s) {next : Pc × List ImportEvent}
    (hnext : NextSound toLowercase s.log task next) :
    Inv toLowercase (s.proceed task (.ok next)) :=
  h.move hnext.1 (h.log.append hnext.2)

/-- A party fails. -/
theorem Inv.fail (h : Inv toLowercase s) (fail : Fail) :
    Inv toLowercase (s.move task (.failed fail)) where
  tokens := h.tokens
  tasks other := by
    show PcSound toLowercase s.log other (Function.update s.tasks task _ other)
    by_cases heq : other = task
    · subst heq
      rw [Function.update_self]
      trivial
    · rw [Function.update_of_ne heq]
      exact h.tasks other
  log := h.log

/-- **A party that goes on or fails.** -/
theorem Inv.proceed_of (h : Inv toLowercase s) {next : Except Fail (Pc × List ImportEvent)}
    (hnext : ∀ ok, next = .ok ok → NextSound toLowercase s.log task ok) :
    Inv toLowercase (s.proceed task next) := by
  cases next with
  | ok next => exact h.proceed (hnext next rfl)
  | error fail => exact h.fail fail

/-- A token is issued for what may be. -/
theorem Inv.issue (h : Inv toLowercase s) (token : String) (entry : Entry)
    (hvalue : ValueSound s.log entry.owner entry.value) :
    Inv toLowercase (s.issue token entry) where
  tokens other found hfound := by
    by_cases heq : other = token
    · subst heq
      rw [System.tokens_issue_self] at hfound
      cases hfound
      exact hvalue
    · rw [System.tokens_issue_of_ne s heq] at hfound
      exact h.tokens other found (Option.filter_eq_some_iff.1 hfound).1
  tasks := h.tasks
  log := h.log

/-- A token is taken out. -/
theorem Inv.remove (h : Inv toLowercase s) (token : String) : Inv toLowercase (s.remove token) where
  tokens other found hfound := by
    by_cases heq : other = token
    · subst heq
      rw [System.tokens_remove_self] at hfound
      cases hfound
    · rw [System.tokens_remove_of_ne s heq] at hfound
      exact h.tokens other found hfound
  tasks := h.tasks
  log := h.log

/-- None that a candidate descends from is unsafe, if it is not unsafe itself. -/
theorem Descends.safe {source candidate : Json} {line : List Json}
    (h : Descends log owner source candidate line)
    (hlog : Log.EachAfter (Follows toLowercase) log)
    (hsafe : refuseUnsafe toLowercase candidate = .ok ()) :
    ∀ ancestor ∈ line, refuseUnsafe toLowercase ancestor = .ok () := by
  induction h with
  | offered =>
    intro ancestor hancestor
    rw [List.mem_singleton.1 hancestor]
    exact hsafe
  | rematched hline hrematched ih =>
    obtain ⟨before, after, heq⟩ := List.append_of_mem hrematched
    intro ancestor hancestor
    rcases List.mem_cons.1 hancestor with rfl | hancestor
    · exact hsafe
    · exact ih (hlog before _ after heq) ancestor hancestor

/-- **What is ready is sendable.** -/
theorem Ready.sendable {files : List File} (h : Ready toLowercase log task owner b files)
    (hlog : Log.EachAfter (Follows toLowercase) log) :
    ∀ file ∈ files, Sendable toLowercase log task owner b file := by
  intro file hfile
  have hpicked := h.picked.files file hfile
  exact ⟨hpicked.offered, fun line hline => hline.safe hlog hpicked.safe, hpicked.untouched,
    h.acknowledged file hfile, fun hsonarr => h.target hsonarr file hfile⟩

/-- **A command is sent**, whatever becomes of it. -/
theorem Inv.command (h : Inv toLowercase s) {files : List File} {accepted : Bool} {pc : Pc}
    (hasked : Asked s.log task owner b) (hready : Ready toLowercase s.log task owner b files)
    (hpc : ∀ log, PcSound toLowercase log task pc) :
    Inv toLowercase ((s.record [.commanded task owner b files accepted]).move task pc) := by
  refine h.move (hpc _) (h.log.concat ?_)
  exact ⟨hasked, hready.picked.tokens, hready.sendable h.log⟩

theorem goOn_sound {next : Except Fail Pc}
    (h : ∀ pc, next = .ok pc → PcSound toLowercase log task pc) :
    PcSound toLowercase log task (goOn next) := by
  cases next with
  | ok pc => exact h pc rfl
  | error fail => trivial

/-- How a request begins. -/
theorem begun_sound (request : Request) (resolved : Except Fail (Bool × Int)) :
    PcSound toLowercase (log ++ [.began task request]) task (begun resolved request) := by
  cases request with
  | sources userId mediaId is4k intervention =>
    refine goOn_sound fun pc hpc => ?_
    obtain ⟨c, -, hpc⟩ := except_bind_eq_ok hpc
    cases hpc
    trivial
  | scan userId mediaId sourceToken is4k =>
    simp only [begun]
    split
    · trivial
    · refine goOn_sound fun pc hpc => ?_
      obtain ⟨c, -, hpc⟩ := except_bind_eq_ok hpc
      cases hpc
      trivial
  | list userId mediaId is4k =>
    refine goOn_sound fun pc hpc => ?_
    obtain ⟨c, -, hpc⟩ := except_bind_eq_ok hpc
    cases hpc
    trivial
  | reprocess userId mediaId candidateToken episodeIds is4k =>
    simp only [begun]
    split
    · trivial
    · refine goOn_sound fun pc hpc => ?_
      obtain ⟨c, -, hpc⟩ := except_bind_eq_ok hpc
      split at hpc
      · cases hpc
      · cases hpc
        trivial
  | imports userId mediaId b =>
    refine goOn_sound fun pc hpc => ?_
    obtain ⟨c, -, hpc⟩ := except_bind_eq_ok hpc
    split at hpc
    · cases hpc
    · cases hpc
      exact ⟨⟨List.mem_append_right _ List.mem_cons_self, rfl⟩, rfl, nofun⟩

/-- **One step of a party, or of the clock.** -/
theorem Inv.step (h : Inv toLowercase s) {act : Act} (hstep : Step toLowercase s act s') :
    Inv toLowercase s' := by
  unfold Step ManualImports.step at hstep
  cases act with
  | start task request resolved =>
    dsimp only at hstep
    split at hstep
    · cases hstep
      exact h.proceed ⟨begun_sound request resolved, by simp [Follows]⟩
    · cases hstep
  | redeem task =>
    obtain ⟨next, hnext, rfl⟩ := Option.map_eq_some_iff.1 hstep
    refine h.proceed_of fun ok hok => ?_
    obtain ⟨found, rfl, rfl⟩ := except_map_eq_ok hok
    refine ⟨(redeemed_sound h (h.tasks task) hnext).mono (List.subset_append_left _ _), ?_⟩
    intro event hevent before
    obtain ⟨token, -, rfl⟩ := List.mem_map.1 hevent
    trivial
  | answer task answer =>
    cases answer with
    | some answer =>
      obtain ⟨next, hnext, rfl⟩ := Option.map_eq_some_iff.1 hstep
      refine h.proceed_of fun ok hok => ?_
      rw [hok] at hnext
      exact answered_sound (h.tasks task) hnext
    | none =>
      obtain ⟨next, -, rfl⟩ := Option.map_eq_some_iff.1 hstep
      exact h.fail _
  | load task download =>
    dsimp only at hstep
    have hsound := h.tasks task
    split at hstep
    · rename_i owner found hpc
      cases hstep
      refine h.proceed_of fun ok hok => ?_
      obtain ⟨download, -, rfl⟩ := except_map_eq_ok hok
      refine .quiet (pcSound_offer fun value hvalue => ?_)
      obtain ⟨source, -, rfl⟩ := List.mem_map.1 hvalue
      trivial
    · rename_i owner b files hpc
      rw [hpc] at hsound
      cases hstep
      refine h.proceed_of fun ok hok => ?_
      obtain ⟨download, -, hok⟩ := except_bind_eq_ok hok
      split at hok
      · obtain ⟨pc, hpc, rfl⟩ := except_map_eq_ok hok
        exact .quiet (overrideNext_sound hsound.1 hsound.2 hpc)
      · cases hok
    · cases hstep
  | claim task claimed =>
    dsimp only at hstep
    have hsound := h.tasks task
    split at hstep
    · rename_i owner b files hpc
      rw [hpc] at hsound
      cases hstep
      refine h.proceed_of fun ok hok => ?_
      obtain ⟨claimed, -, hok⟩ := except_bind_eq_ok hok
      split at hok
      · cases hok
        exact .quiet hsound
      · cases hok
    · cases hstep
  | command task outcome =>
    dsimp only at hstep
    have hsound := h.tasks task
    split at hstep
    · rename_i owner b files hpc
      rw [hpc] at hsound
      cases outcome with
      | accepted answer =>
        cases hstep
        exact h.command hsound.1 hsound.2 fun _ _ => trivial
      | refused =>
        cases hstep
        exact h.command hsound.1 hsound.2 fun _ => trivial
      | lost =>
        cases hstep
        exact h.command hsound.1 hsound.2 fun _ => trivial
    · cases hstep
  | remove task =>
    dsimp only at hstep
    have hsound := h.tasks task
    split at hstep
    · rename_i owner stored answer hpc
      rw [hpc] at hsound
      cases hstep
      refine (h.remove stored.token).move ?_ ((h.remove stored.token).log.concat trivial)
      intro value hvalue
      cases List.mem_singleton.1 hvalue
      obtain ⟨⟨line, hline⟩, hrematched⟩ := hsound
      exact Offered.mono ⟨_, .rematched hline hrematched⟩ (List.subset_append_left _ _)
    · rename_i owner token rest value hpc
      rw [hpc] at hsound
      cases hstep
      refine (h.remove token).move ?_ ((h.remove token).log.concat trivial)
      split
      · intro other hother
        cases List.mem_singleton.1 hother
        exact (hsound owner).mono (List.subset_append_left _ _)
      · exact PcSound.mono hsound (List.subset_append_left _ _)
    · cases hstep
  | issue task uuid =>
    dsimp only at hstep
    have hsound := h.tasks task
    split at hstep
    · rename_i owner value rest hpc
      rw [hpc] at hsound
      split at hstep
      · cases hstep
      · cases hstep
        have hissued := h.issue uuid ⟨owner, value, s.now + value.ttl⟩
          (hsound value List.mem_cons_self)
        refine hissued.move (pcSound_offer fun other hother => ?_) (hissued.log.concat trivial)
        exact (hsound other (List.mem_cons_of_mem _ hother)).mono (List.subset_append_left _ _)
    · cases hstep
  | tick ms =>
    cases hstep
    exact ⟨h.tokens, h.tasks, h.log⟩

/-! ## Every run -/

/-- **Every file that is sent may be**, in every run of requests of any users: the
command's files are those of the tokens it was asked for, one for each, and if one of
them may not be sent there is no command. -/
theorem sent_files_safe {acts : List Act} (h : Run (Step toLowercase) {} acts s) :
    ∀ before after task owner b files accepted,
      s.log = before ++ .commanded task owner b files accepted :: after →
      Asked before task owner b ∧ files.map (fun file => file.stored.token) = b.tokens ∧
        ∀ file ∈ files, Sendable toLowercase before task owner b file := by
  have hstart : Inv toLowercase {} := ⟨nofun, fun _ => trivial, Log.eachAfter_nil⟩
  have hinv : Inv toLowercase s := h.invariant (fun _ _ _ hs hstep => Inv.step hs hstep) hstart
  exact fun before after task owner b files accepted heq => hinv.log before _ after heq

/-! ## Other parties -/

theorem System.tasks_proceed_of_ne (s : System) {task other : Nat} (h : other ≠ task)
    (next : Except Fail (Pc × List ImportEvent)) :
    (s.proceed task next).tasks other = s.tasks other := by
  cases next with
  | ok next => exact Function.update_of_ne h _ _
  | error fail => exact Function.update_of_ne h _ _

/-- **A step is of one party.** -/
theorem tasks_of_step {act : Act} {other : Nat} (h : Step toLowercase s act s')
    (hne : act.task ≠ some other) : s'.tasks other = s.tasks other := by
  have hother : ∀ {task}, some task ≠ some other → other ≠ task :=
    fun hne heq => hne (congrArg some heq.symm)
  unfold Step ManualImports.step at h
  cases act with
  | start task request resolved =>
    dsimp only at h
    split at h
    · cases h
      exact s.tasks_proceed_of_ne (hother hne) _
    · cases h
  | redeem task =>
    obtain ⟨next, -, rfl⟩ := Option.map_eq_some_iff.1 h
    exact s.tasks_proceed_of_ne (hother hne) _
  | answer task answer =>
    cases answer <;>
      (obtain ⟨next, -, rfl⟩ := Option.map_eq_some_iff.1 h
       exact s.tasks_proceed_of_ne (hother hne) _)
  | load task download =>
    dsimp only at h
    split at h
    · cases h
      exact s.tasks_proceed_of_ne (hother hne) _
    · cases h
      exact s.tasks_proceed_of_ne (hother hne) _
    · cases h
  | claim task claimed =>
    dsimp only at h
    split at h
    · cases h
      exact s.tasks_proceed_of_ne (hother hne) _
    · cases h
  | command task outcome =>
    dsimp only at h
    split at h
    · cases outcome <;> (cases h; exact Function.update_of_ne (hother hne) _ _)
    · cases h
  | remove task =>
    dsimp only at h
    split at h
    · cases h
      exact Function.update_of_ne (hother hne) _ _
    · cases h
      exact Function.update_of_ne (hother hne) _ _
    · cases h
  | issue task uuid =>
    dsimp only at h
    split at h
    · split at h
      · cases h
      · cases h
        exact Function.update_of_ne (hother hne) _ _
    · cases h
  | tick ms =>
    cases h
    rfl

/-- A party that a run has no step of stays where it is. -/
theorem tasks_of_run {acts : List Act} {other : Nat} (h : Run (Step toLowercase) s acts s')
    (hne : ∀ act ∈ acts, act.task ≠ some other) : s'.tasks other = s.tasks other :=
  h.invariant_of_mem (fun _ act _ hact heq hstep => (tasks_of_step hstep (hne act hact)).trans heq)
    rfl

/-! ## A run -/

/-- Lower case, of the letters that have a code below 128. -/
def asciiLowercase (text : String) : String :=
  String.ofList (text.toList.map Char.toLower)

/-- A queue with one download that waits. -/
def sampleQueue : Json :=
  .arr [.obj [("title", .str "Pack"), ("status", .str "completed"),
    ("trackedDownloadStatus", .str "Warning"), ("downloadId", .str "d"),
    ("outputPath", .str "/x")]]

private def sampleCandidate : Json :=
  .obj [("path", .str "/x/e.mkv"), ("relativePath", .str "e.MKV"), ("quality", .obj []),
    ("languages", .arr [.obj []]), ("rejections", .arr [.obj [("reason", .str "Sample")]])]

/-- Sonarr 4 answers a rematch without the file's name and path. -/
private def sampleRematch : Json :=
  .obj [("seriesId", .num 21), ("seasonNumber", .num 1), ("quality", .obj []),
    ("episodes", .arr [.obj [("id", .num 3)]]), ("languages", .arr [.obj []])]

private def sampleEpisodes : Json := .arr [.obj [("id", .num 3)], .obj [("id", .num 4)]]

private def sampleBody : ImportBody where
  tokens := ["second"]
  mappings := [("second", [4, 4])]

/-- A candidate is listed, rematched to an episode, and imported to another. -/
private def sampleRun : List Act :=
  [.start 0 (.list 7 5 false) (.ok (false, 21)), .answer 0 sampleQueue,
    .answer 0 (some (.arr [sampleCandidate])), .issue 0 "first",
    .start 1 (.reprocess 7 5 "first" [3] false) (.ok (false, 21)), .redeem 1,
    .answer 1 sampleQueue, .answer 1 sampleEpisodes, .answer 1 (some (.arr [sampleRematch])),
    .remove 1, .issue 1 "second",
    .start 2 (.imports 7 5 sampleBody) (.ok (false, 21)), .redeem 2, .answer 2 sampleQueue,
    .answer 2 sampleEpisodes, .command 2 (.accepted (.obj [("id", .num 9)]))]

/-- The file goes to the episode that was picked last. -/
theorem sent_files_safe_sample : ∃ s before file, Run (Step asciiLowercase) {} sampleRun s ∧
    s.log = before ++ [.commanded 2 ⟨7, 5, false, false, 21⟩ sampleBody [file] true] ∧
    Json.getField "episodeIds" file.fields = some (.arr [.num 4]) ∧
    Sendable asciiLowercase before 2 ⟨7, 5, false, false, 21⟩ sampleBody file := by
  have hrun : (sampleRun.foldlM (step asciiLowercase) {}).bind (fun s => s.log.getLast?)
      = some (.commanded 2 ⟨7, 5, false, false, 21⟩ sampleBody
        [⟨⟨"second", rematched sampleRematch sampleCandidate, sourceFor (.obj
            [("title", .str "Pack"), ("outputPath", .str "/x"), ("downloadId", .str "d")])⟩,
          [("seriesId", .num 21), ("seasonNumber", .num 1), ("quality", .obj []),
            ("episodes", .arr [.obj [("id", .num 3)]]), ("languages", .arr [.obj []]),
            ("relativePath", .str "e.MKV"), ("episodeIds", .arr [.num 4])]⟩] true) := by
    decide +kernel
  obtain ⟨s, hs, hlast⟩ := Option.bind_eq_some_iff.1 hrun
  obtain ⟨before, hlog⟩ := List.getLast?_eq_some_iff.1 hlast
  have hs : Run (Step asciiLowercase) {} sampleRun s := Run.of_foldlM hs
  obtain ⟨-, -, hsendable⟩ := sent_files_safe hs before [] 2 _ sampleBody _ true hlog
  exact ⟨s, before, _, hs, hlog, rfl, hsendable _ List.mem_cons_self⟩

end ManualImports

end Foreseerr

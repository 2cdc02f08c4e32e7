import Foreseerr.Mirror
import Foreseerr.Run
import Foreseerr.SimklLibrary
import Mathlib.Data.List.Infix
import Mathlib.Data.String.Basic

/-!
# The local copy of a Simkl library

`routes/procstate/simklsync.rs` copies a user's Simkl lists into `simkl_sync_item`. A
first run pulls all of them. A later one asks for Simkl's activity stamps, and then only
for what moved since the stamps it saved: the items changed since, the ratings, and the
ids of everything still listed, by which it removes the rest. All of a run's writes are
one transaction, and a run that fails only notes that it did, unless Simkl rejected the
user's token: then the link is dropped, and the user's rows with it.

Simkl's lists change between the runs, and what Simkl answers is so of the lists as they
are then. A history (`Step`) is any changes and runs, one after another.
-/

namespace Foreseerr.SimklSync

open SimklLibrary

variable (numberString : ℚ → String)

/-! ## The tables -/

/-- A row of `simkl_sync_item`. -/
structure ItemRow where
  id : Nat
  userId : Int
  simklType : SimklKind
  simklId : String
  title : String
  status : String
  columns : List (String × Cell)
deriving DecidableEq, Repr

/-- What a row is found by: its type and id. -/
def ItemRow.key (row : ItemRow) : SimklKind × String := (row.simklType, row.simklId)

/-- A row of `simkl_sync_state`. The snapshot is the document its text holds. -/
structure StateRow where
  id : Nat
  userId : Option Int
  activities : Option Json
  initialSyncComplete : Bool
  lastCheckedAt : Option Int
  lastSuccessfulSyncAt : Option Int
  lastError : Option String
deriving Repr

/-- Both tables, of all users. -/
structure Tables where
  items : List ItemRow
  states : List StateRow
deriving Repr

namespace Tables

/-- A user's item rows. -/
def rowsOf (user : Int) (tables : Tables) : List ItemRow :=
  tables.items.filter fun row => row.userId = user

/-- `load_previous`: the user's state row. -/
def previousOf (user : Int) (tables : Tables) : Option StateRow :=
  tables.states.find? fun row => row.userId = some user

/-- An id no row has. -/
def freshId (ids : List Nat) : Nat := ids.foldr max 0 + 1

/-- The id of the row of an item. -/
def existing (user : Int) (item : Item) (tables : Tables) : Option Nat :=
  (tables.items.find? fun row => row.userId = user ∧ row.key = item.key).map ItemRow.id

/-- A row with an item's columns over its own. -/
def overlay (item : Item) (row : ItemRow) : ItemRow :=
  { row with
    simklType := item.simklType
    simklId := item.simklId
    title := item.title
    status := item.status
    columns := item.columns.foldl (KeyedList.upsert Prod.fst fun _ cell => cell) row.columns }

/-- `save_item`'s write: over the existing row, or a new one. -/
def saveItem (user : Int) (item : Item) (existing : Option Nat) (tables : Tables) : Tables :=
  match existing with
  | some id =>
    { tables with items := tables.items.map fun row =>
        if row.id = id then overlay item row else row }
  | none =>
    { tables with items := tables.items ++
        [⟨freshId (tables.items.map ItemRow.id), user, item.simklType, item.simklId, item.title,
          item.status, item.columns⟩] }

/-- Delete an item row. -/
def deleteItem (id : Nat) (tables : Tables) : Tables :=
  { tables with items := tables.items.filter fun row => row.id ≠ id }

/-- The state row after a pull: updated, or the user's first. -/
def saveState (user : Int) (previous : Option StateRow) (snapshot : Json) (now : Int)
    (tables : Tables) : Tables :=
  match previous with
  | some previous =>
    { tables with states := tables.states.map fun row =>
        if row.id = previous.id then
          { row with
            activities := some snapshot
            initialSyncComplete := true
            lastCheckedAt := some now
            lastSuccessfulSyncAt := some now }
        else row }
  | none =>
    { tables with states := tables.states ++
        [⟨freshId (tables.states.map StateRow.id), some user, some snapshot, true, some now,
          some now, none⟩] }

/-- The state row after a run that found nothing moved. -/
def touch (id : Nat) (now : Int) (tables : Tables) : Tables :=
  { tables with states := tables.states.map fun row =>
      if row.id = id then { row with lastCheckedAt := some now } else row }

end Tables

/-! ## Failures -/

/-- How far the clean-up of a rejected token got: the link was another one by then or its
removal failed, only the items were removed, or the items and the state were. -/
inductive Cleared
  | nothing
  | items
  | both
deriving DecidableEq, Repr

/-- `simklapi::Failure`: an answer with an error status, a rejected token with what its
handler removed, or anything else. -/
inductive Failure
  | rejected (status : Nat) (message : String)
  | unauthorized (cleared : Cleared) (message : String)
  | other (message : String)
deriving DecidableEq, Repr

/-- `failure.message()`. -/
def Failure.message : Failure → String
  | rejected _ message => message
  | unauthorized _ message => message
  | other message => message

/-- Fold the case of a character of `max_items|too many`, as the pattern does. -/
def foldCase (c : Char) : Char := if c = 'ſ' then 's' else c.toLower

/-- `is_max_items`: Simkl wants this type fetched per status. -/
def isMaxItems : Failure → Bool
  | .rejected status message =>
    let text := message.toList.map foldCase
    status = 400 && ("max_items".toList <:+: text || "too many".toList <:+: text)
  | _ => false

/-- `onUnauthorized`: what is left of the tables after a failure. -/
def Failure.cleanUp (user : Int) (tables : Tables) : Failure → Tables
  | unauthorized .items _ =>
    { tables with items := tables.items.filter fun row => row.userId ≠ user }
  | unauthorized .both _ =>
    { items := tables.items.filter fun row => row.userId ≠ user
      states := tables.states.filter fun row => row.userId ≠ some user }
  | _ => tables

/-! ## A pull -/

/-- A request of a pull. -/
inductive Request
  /-- `/sync/activities` -/
  | activities
  /-- `/sync/all-items?date_from=` with episodes -/
  | changed (dateFrom : String)
  /-- `/sync/ratings?date_from=` -/
  | ratings (dateFrom : String)
  /-- `/sync/all-items?extended=simkl_ids_only` -/
  | idsOnly
  /-- `/sync/all-items/{type}`, or its part of one status -/
  | all (kind : SimklKind) (status : Option String)
deriving DecidableEq, Repr

/-- What a run meets: the answers of Simkl and the statements of the database that fail. -/
structure Env where
  now : Int
  /-- Why there is no client. -/
  client : Option Failure
  reply : Request → Except Failure Json
  loadFails : Bool
  touchFails : Bool
  /-- How many statements of the transaction go through, unless all do. -/
  passing : Option Nat
  updateFails : Bool
  insertFails : Bool
  dbError : String

/-- A transaction under way: the tables as it sees them, and how many more of its
statements go through. -/
structure Tx where
  tables : Tables
  passing : Option Nat
  error : String

/-- A statement of a transaction. -/
def Tx.execute (statement : Tables → Tables) (tx : Tx) : Except Failure Tx :=
  match tx.passing with
  | none => .ok { tx with tables := statement tx.tables }
  | some 0 => .error (.other tx.error)
  | some (n + 1) => .ok { tx with tables := statement tx.tables, passing := some n }

/-- `save_item`. -/
def Tx.saveItem (user : Int) (tx : Tx) (item : Item) : Except Failure Tx := do
  let existing := tx.tables.existing user item
  let tx ← tx.execute id
  tx.execute (Tables.saveItem user item existing)

/-- `{type}:{id}`. -/
def keyText (key : SimklKind × String) : String := key.1.text ++ ":" ++ key.2

/-- Delete a row that is not upstream. -/
def Tx.dropRow (upstream : List String) (tx : Tx) (row : ItemRow) : Except Failure Tx :=
  if keyText row.key ∈ upstream then .ok tx else tx.execute (Tables.deleteItem row.id)

/-- The rows Simkl no longer lists removed. -/
def Tx.dropRows (user : Int) (upstream : Option (List String)) (tx : Tx) : Except Failure Tx :=
  match upstream with
  | none => .ok tx
  | some upstream => do
    let tx ← tx.execute id
    (tx.tables.rowsOf user).foldlM (Tx.dropRow upstream) tx

/-- `write`: the items saved, the rows Simkl no longer lists removed and the state, in one
transaction. -/
def write (env : Env) (user : Int) (items : List Item) (upstream : Option (List String))
    (previous : Option StateRow) (snapshot : Json) (tables : Tables) :
    Except Failure Tables := do
  let tx ← Tx.execute id ⟨tables, env.passing, env.dbError⟩
  let tx ← items.foldlM (Tx.saveItem user) tx
  let tx ← tx.dropRows user upstream
  let tx ← tx.execute (Tables.saveState user previous snapshot env.now)
  let tx ← tx.execute id
  return tx.tables

/-- `TYPES`. -/
def types : List SimklKind := [.show, .movie, .anime]

/-- `MEDIA_ACTIVITIES`: the activity bucket of a type. -/
def mediaActivities : SimklKind → String
  | .show => "tv_shows"
  | .anime => "anime"
  | .movie => "movies"

/-- `scalar(activities.all)`. -/
def watermark (activities : Json) : Option String :=
  scalar numberString (activities.get "all")

/-- The stamp of an activity. -/
def stampOf (activities : Json) (kind : SimklKind) (key : String) : Option String :=
  scalar numberString ((activities.get (mediaActivities kind)).bind fun bucket => bucket.get key)

/-- What `movedActivities` found moved. -/
structure Moved where
  statuses : Bool
  removals : Bool
  ratings : Bool
deriving DecidableEq, Repr

/-- The keys of an activity bucket. -/
def activityKeys (activities : Json) (kind : SimklKind) : List String :=
  (((activities.get (mediaActivities kind)).bind Json.asObject).getD []).map Prod.fst

/-- `moved_activities`: which parts of the library moved between two snapshots. -/
def movedActivities (now before : Json) : Moved :=
  let moved := types.flatMap fun kind =>
    (activityKeys now kind ++ activityKeys before kind).filter fun key =>
      stampOf numberString now kind key ≠ stampOf numberString before kind key
  { statuses := moved.any fun key =>
      key ≠ "removed_from_list" ∧ key ≠ "rated_at" ∧ key ≠ "all" ∧ key ≠ "playback"
    removals := moved.any fun key => key = "removed_from_list"
    ratings := moved.any fun key => key = "rated_at" }

/-- `collect(data, type, withEpisodes)`. -/
def collect (data : Json) (fallback : Option SimklKind) (episodes : Bool) : List Item :=
  (syncEntries data fallback).filterMap fun (item, kind) =>
    normalizeItem numberString item (some kind) episodes

/-- The keys of an ids-only answer. -/
def idsOnlyKeys (data : Json) : List String :=
  (syncEntries data none).filterMap fun (item, kind) =>
    (recordIdOf numberString item).map fun id => keyText (kind, id)

/-- What a pull fetched: the items, and the keys of all that is upstream where it asked. -/
abbrev Fetched := List Item × Option (List String)

/-- The answers that list all items of a type. -/
def batchesOf (env : Env) (kind : SimklKind) : Except Failure (List Json) :=
  match env.reply (.all kind none) with
  | .ok data => .ok [data]
  | .error failure =>
    if isMaxItems failure then
      statuses.mapM fun status => env.reply (.all kind (some status))
    else .error failure

/-- Everything, one type after another. -/
def fetchAll (env : Env) : Except Failure Fetched := do
  let items ← types.mapM fun kind => do
    let batches ← batchesOf env kind
    return batches.flatMap fun data => collect numberString data (some kind) (kind ≠ .movie)
  return (items.flatten, some (items.flatten.map fun item => keyText item.key))

/-- The items that changed since the saved snapshot, unless too many did. -/
def fetchChanged (env : Env) (moved : Moved) (dateFrom : String) :
    Except Failure (Option (List Item)) :=
  if moved.statuses then
    match env.reply (.changed dateFrom) with
    | .ok data => .ok (some (collect numberString data none true))
    | .error failure => if isMaxItems failure then .ok none else .error failure
  else .ok (some [])

/-- The items rated since: a rating change on a listed item moves only `rated_at`. -/
def fetchRated (env : Env) (moved : Moved) (dateFrom : String) : Except Failure (List Item) :=
  if moved.ratings then
    (env.reply (.ratings dateFrom)).map fun data => collect numberString data none false
  else .ok []

/-- The keys of what is still listed, where something was removed since. -/
def fetchUpstream (env : Env) (moved : Moved) : Except Failure (Option (List String)) :=
  if moved.removals then
    (env.reply .idsOnly).map fun data => some (idsOnlyKeys numberString data)
  else .ok none

/-- What moved since the saved snapshot, unless too much did. -/
def fetchMoved (env : Env) (moved : Moved) (dateFrom : String) :
    Except Failure (Option Fetched) := do
  match ← fetchChanged numberString env moved dateFrom with
  | none => return none
  | some changed =>
    let rated ← fetchRated numberString env moved dateFrom
    let upstream ← fetchUpstream numberString env moved
    return some (changed ++ rated, upstream)

/-- The snapshot and watermark to go on from, after a complete sync. -/
def deltaFrom (previous : Option StateRow) : Option (StateRow × Json × String) := do
  let row ← previous
  let old ← row.activities
  let dateFrom ← watermark numberString old
  if row.initialSyncComplete then some (row, old, dateFrom) else none

/-- A sync's answer. -/
structure Result where
  performed : Bool
  stale : Bool
  lastSuccessfulSyncAt : Option Int
  error : Option String
deriving DecidableEq, Repr

/-- What a pull fetches once something moved. -/
def fetch (env : Env) (activities : Json) (delta : Option (StateRow × Json × String)) :
    Except Failure Fetched :=
  match delta with
  | none => fetchAll numberString env
  | some (_, old, dateFrom) => do
    match ← fetchMoved numberString env (movedActivities numberString activities old) dateFrom with
    | none => fetchAll numberString env
    | some fetched => return fetched

/-- `pull`. -/
def pull (env : Env) (user : Int) (previous : Option StateRow) (tables : Tables) :
    Except Failure (Tables × Result) := do
  let activities ← env.reply .activities
  let delta := deltaFrom numberString previous
  match delta.filter fun (_, _, dateFrom) => watermark numberString activities = some dateFrom with
  | some (row, _, _) =>
    if env.touchFails then .error (.other env.dbError)
    else return (tables.touch row.id env.now, ⟨true, false, row.lastSuccessfulSyncAt, none⟩)
  | none =>
    let (items, upstream) ← fetch numberString env activities delta
    let tables ← write env user items upstream previous activities tables
    return (tables, ⟨true, false, some env.now, none⟩)

/-- `attempt`. -/
def attempt (env : Env) (user : Int) (previous : Option StateRow) (tables : Tables) :
    Except Failure (Tables × Result) :=
  match env.client with
  | some failure => .error failure
  | none => pull numberString env user previous tables

/-- `save_failure`. -/
def saveFailure (env : Env) (previous : StateRow) (message : String) (tables : Tables) :
    Except String Tables :=
  if env.updateFails then .error env.dbError
  else if tables.states.any fun row => row.id = previous.id then
    .ok { tables with states := tables.states.map fun row =>
      if row.id = previous.id then
        { row with lastCheckedAt := some env.now, lastError := some message }
      else row }
  else if env.insertFails then .error env.dbError
  else
    .ok { tables with states := tables.states ++
      [{ previous with
        userId := none, lastCheckedAt := some env.now, lastError := some message }] }

/-- `settle`: a failure is saved on the state row and answered as stale. -/
def settle (env : Env) (user : Int) (previous : Option StateRow) (tables : Tables) :
    Except Failure (Tables × Result) → Tables × Except String Result
  | .ok (tables, result) => (tables, .ok result)
  | .error failure =>
    let tables := failure.cleanUp user tables
    let result : Result :=
      ⟨true, true, previous.bind StateRow.lastSuccessfulSyncAt, some failure.message⟩
    match previous with
    | none => (tables, .ok result)
    | some previous =>
      match saveFailure env previous failure.message tables with
      | .ok tables => (tables, .ok result)
      | .error message => (tables, .error message)

/-- `MIN_INTERVAL_MS`. -/
def minIntervalMs : Int := 15 * 60 * 1000

/-- `sync`: a user's sync, unless the last is recent. -/
def sync (env : Env) (user : Int) (force : Bool) (tables : Tables) :
    Tables × Except String Result :=
  if env.loadFails then (tables, .error env.dbError)
  else
    let previous := tables.previousOf user
    let recent := (previous.bind StateRow.lastCheckedAt).any fun at' =>
      env.now - at' < minIntervalMs
    if !force && recent then
      (tables, .ok ⟨false, false, previous.bind StateRow.lastSuccessfulSyncAt, none⟩)
    else settle env user previous tables (attempt numberString env user previous tables)

/-! ## Simkl's lists -/

/-- An entry of one of a user's lists: its bucket, what the answers that list it say, and
the stamp of its last change of status. -/
structure Listing where
  bucket : SimklKind
  entry : Fields
  changedAt : String

/-- The lists of a user, the stamp of the last change (empty before the first) and those of
each activity. Stamps are dates, and later ones are greater texts. -/
structure Simkl where
  library : List Listing
  all : String
  stamp : SimklKind → String → Option String

/-- The bucket and id of an entry that has an id. -/
def Listing.key? (listing : Listing) : Option (SimklKind × String) :=
  (recordIdOf numberString (unwrapItem listing.entry)).map (Prod.mk listing.bucket)

/-- The key and status of an entry with an id, a title and a known status. -/
def Listing.item? (listing : Listing) : Option ((SimklKind × String) × String) :=
  entryOf numberString (unwrapItem listing.entry) listing.bucket

/-- An entry gives itself no type, or its bucket's. -/
def Listing.Typed (listing : Listing) : Prop :=
  ∀ kind, declaredKind (unwrapItem listing.entry) = some kind → kind = listing.bucket

namespace Simkl

/-- **The library**: the items with an id, a title and a known status. -/
def listed (simkl : Simkl) : List ((SimklKind × String) × String) :=
  simkl.library.filterMap (Listing.item? numberString)

/-- The library as a map from keys to statuses. -/
def view (simkl : Simkl) : SimklKind × String → Option String :=
  Mirror.view Prod.fst Prod.snd (simkl.listed numberString)

/-- An activity at a time. -/
def stamped (simkl : Simkl) (at' : String) (kind : SimklKind) (key : String) : Simkl :=
  { simkl with
    all := at'
    stamp := fun kind' key' => if kind' = kind ∧ key' = key then some at'
      else simkl.stamp kind' key' }

/-- The entries other than that of a key. -/
def without (key : Option (SimklKind × String)) (simkl : Simkl) : List Listing :=
  simkl.library.filter fun listing =>
    decide (key = none ∨ Listing.key? numberString listing ≠ key)

/-- An entry is added, or takes another status: the stamp of that status moves. -/
def list (at' : String) (bucket : SimklKind) (entry : Fields) (simkl : Simkl) : Simkl :=
  let listing : Listing := ⟨bucket, entry, at'⟩
  let status := (stringValue (Json.getField "status" (unwrapItem entry))).getD ""
  { simkl.stamped at' bucket status with
    library := simkl.without numberString (Listing.key? numberString listing) ++ [listing] }

/-- What an entry says otherwise changes, its rating for one. -/
def rate (at' : String) (bucket : SimklKind) (entry : Fields) (simkl : Simkl) : Simkl :=
  { simkl.stamped at' bucket "rated_at" with
    library := simkl.library.map fun listing =>
      if Listing.key? numberString listing = Listing.key? numberString ⟨bucket, entry, at'⟩ then
        ⟨bucket, entry, listing.changedAt⟩
      else listing }

/-- An entry is removed. -/
def remove (at' : String) (key : SimklKind × String) (simkl : Simkl) : Simkl :=
  { simkl.stamped at' key.1 "removed_from_list" with
    library := simkl.without numberString (some key) }

end Simkl

/-- The key of a bucket in Simkl's answers. -/
def bucketName : SimklKind → String
  | .show => "shows"
  | .movie => "movies"
  | .anime => "anime"

/-- An answer with some entries in buckets. -/
def payload (buckets : List (SimklKind × List Fields)) : Json :=
  .obj (buckets.map fun bucket => (bucketName bucket.1, .arr (bucket.2.map .obj)))

/-- What an answer lists, bucket by bucket; an answer that lists nothing may be empty. -/
def Lists (data : Json) (entries : List (SimklKind × Fields)) : Prop :=
  ((data = .null ∨ data = .arr []) ∧ entries = []) ∨ ∃ buckets, data = payload buckets ∧
    entries = buckets.flatMap fun bucket => bucket.2.map (Prod.mk bucket.1)

/-- The activities as an answer tells them. -/
def Reads (simkl : Simkl) (activities : Json) : Prop :=
  watermark numberString activities = (if simkl.all = "" then none else some simkl.all) ∧
    ∀ kind key, key ≠ "all" → key ≠ "playback" →
      stampOf numberString activities kind key = simkl.stamp kind key

/-- **What Simkl answers.** Changes since a date list every item whose status changed after
it; the ratings, items with the status they have; the ids, every item's. -/
def Answers (simkl : Simkl) : Request → Json → Prop
  | .activities, data => Reads numberString simkl data
  | .changed dateFrom, data => ∃ entries, Lists data entries ∧
      (∀ entry ∈ entries, ∃ listing ∈ simkl.library, (listing.bucket, listing.entry) = entry) ∧
      ∀ listing ∈ simkl.library, dateFrom < listing.changedAt →
        (listing.bucket, listing.entry) ∈ entries
  | .ratings _, data => ∃ entries, Lists data entries ∧
      ∀ entry ∈ entries, ∀ item, entryOf numberString (unwrapItem entry.2) entry.1 = some item →
        item ∈ simkl.listed numberString
  | .idsOnly, data => ∃ entries, Lists data entries ∧
      ∀ key, (∃ entry ∈ entries,
          (recordIdOf numberString (unwrapItem entry.2)).map (Prod.mk entry.1) = some key) ↔
        ∃ listing ∈ simkl.library, Listing.key? numberString listing = some key
  | .all kind none, data => ∃ entries, Lists data entries ∧
      ∀ entry, entry ∈ entries ↔ ∃ listing ∈ simkl.library, listing.bucket = kind ∧
        (listing.bucket, listing.entry) = entry
  | .all kind (some status), data => ∃ entries, Lists data entries ∧
      ∀ entry, entry ∈ entries ↔ ∃ listing ∈ simkl.library, listing.bucket = kind ∧
        stringValue (Json.getField "status" (unwrapItem listing.entry)) = some status ∧
          (listing.bucket, listing.entry) = entry

/-! ## Histories -/

/-- Simkl's lists and the local tables. -/
structure State where
  simkl : Simkl
  tables : Tables

/-- What happens to them: changes at Simkl, each with its stamp, and the user's syncs. -/
inductive Event
  | list (at' : String) (bucket : SimklKind) (entry : Fields)
  | rate (at' : String) (bucket : SimklKind) (entry : Fields)
  | remove (at' : String) (key : SimklKind × String)
  /-- What only `all` summarizes: settings, custom lists, playback. -/
  | other (at' : String)
  | sync (env : Env) (force : Bool)

/-- The state after an event. -/
def next (user : Int) (state : State) : Event → State
  | .list at' bucket entry =>
    { state with simkl := state.simkl.list numberString at' bucket entry }
  | .rate at' bucket entry =>
    { state with simkl := state.simkl.rate numberString at' bucket entry }
  | .remove at' key => { state with simkl := state.simkl.remove numberString at' key }
  | .other at' => { state with simkl := { state.simkl with all := at' } }
  | .sync env force =>
    { state with tables := (sync numberString env user force state.tables).1 }

/-- **What Simkl does**: its stamps grow, what is no change of status leaves an item its
status, and what it answers is so. -/
def Happens (state : State) : Event → Prop
  | .list at' _ _ => state.simkl.all < at'
  | .rate at' bucket entry => state.simkl.all < at' ∧
      ∀ listing ∈ state.simkl.library,
        Listing.key? numberString listing = Listing.key? numberString ⟨bucket, entry, at'⟩ →
          Listing.item? numberString ⟨bucket, entry, at'⟩ = Listing.item? numberString listing
  | .remove at' _ => state.simkl.all < at'
  | .other at' => state.simkl.all < at'
  | .sync env _ => ∀ request data, env.reply request = .ok data →
      Answers numberString state.simkl request data

/-- One event, as it happens. -/
def Step (user : Int) (state : State) (event : Event) (state' : State) : Prop :=
  Happens numberString state event ∧ state' = next numberString user state event

/-- A rejected token's clean-up does not stop half way. -/
def CleansUp (env : Env) : Prop :=
  ∀ message, env.client ≠ some (.unauthorized .items message) ∧
    ∀ request, env.reply request ≠ .error (.unauthorized .items message)

/-- **Where the copy is kept right**: no entry gives itself another type than its bucket's,
no incremental run finds an item with a row listed without a title or a known status, and
no clean-up after a rejected token stops half way. -/
def Fine (user : Int) (state : State) : Event → Prop
  | .list at' bucket entry => (⟨bucket, entry, at'⟩ : Listing).Typed
  | .rate at' bucket entry => (⟨bucket, entry, at'⟩ : Listing).Typed
  | .remove _ _ => True
  | .other _ => True
  | .sync env _ => CleansUp env ∧
      (deltaFrom numberString (state.tables.previousOf user) ≠ none →
        ∀ row ∈ state.tables.rowsOf user, ∀ listing ∈ state.simkl.library,
          Listing.key? numberString listing = some row.key →
            Listing.item? numberString listing ≠ none)

/-- Simkl's lists have one entry of a bucket for each id, and their stamps are not after
the last one. -/
structure Simkl.Valid (simkl : Simkl) : Prop where
  keys : (simkl.library.filterMap (Listing.key? numberString)).Nodup
  changed : ∀ listing ∈ simkl.library, listing.changedAt ≤ simkl.all
  stamps : ∀ kind key at', simkl.stamp kind key = some at' → at' ≤ simkl.all
  typed : ∀ listing ∈ simkl.library, listing.Typed

/-- A user's rows have distinct keys, and all rows have ids of their own. -/
structure Tables.Keyed (user : Int) (tables : Tables) : Prop where
  ids : (tables.items.map ItemRow.id).Nodup
  keys : ((tables.rowsOf user).map ItemRow.key).Nodup

/-- Where a history starts: some lists, and a user who was never synced. -/
structure Start (user : Int) (state : State) : Prop where
  simkl : state.simkl.Valid numberString
  rows : state.tables.Keyed user
  first : state.tables.previousOf user = none

/-! ## What a transaction leaves -/

/-- A user's rows as a map from keys to statuses. -/
def Tables.view (user : Int) (tables : Tables) : SimklKind × String → Option String :=
  Mirror.view ItemRow.key ItemRow.status (tables.rowsOf user)

/-- All items saved, one after another. -/
def Tables.saveItems (user : Int) (items : List Item) (tables : Tables) : Tables :=
  items.foldl (fun tables item => tables.saveItem user item (tables.existing user item)) tables

/-- The user's rows that are not upstream removed. -/
def Tables.dropRows (user : Int) (upstream : Option (List String)) (tables : Tables) : Tables :=
  match upstream with
  | none => tables
  | some upstream => (tables.rowsOf user).foldl (fun tables row =>
      if keyText row.key ∈ upstream then tables else tables.deleteItem row.id) tables

section Transaction

variable {user : Int} {tables tables' : Tables} {item : Item} {items : List Item}
  {upstream : Option (List String)} {env : Env} {previous : Option StateRow} {snapshot : Json}
  {tx tx' : Tx}

theorem execute_tables {statement : Tables → Tables} (h : tx.execute statement = .ok tx') :
    tx'.tables = statement tx.tables := by
  unfold Tx.execute at h
  split at h
  · exact congrArg Tx.tables (Except.ok.inj h).symm
  · cases h
  · exact congrArg Tx.tables (Except.ok.inj h).symm

theorem saveItem_tables (h : tx.saveItem user item = .ok tx') :
    tx'.tables = tx.tables.saveItem user item (tx.tables.existing user item) := by
  obtain ⟨read, hread, h⟩ := except_bind_eq_ok h
  rw [execute_tables h, execute_tables hread]
  rfl

theorem dropRows_tables (h : tx.dropRows user upstream = .ok tx') :
    tx'.tables = tx.tables.dropRows user upstream := by
  cases upstream with
  | none => exact congrArg Tx.tables (Except.ok.inj h).symm
  | some upstream =>
    obtain ⟨read, hread, h⟩ := except_bind_eq_ok h
    let effect (tables : Tables) (row : ItemRow) : Tables :=
      if keyText row.key ∈ upstream then tables else tables.deleteItem row.id
    have hstep : ∀ (tx : Tx) (row : ItemRow) (tx' : Tx), tx.dropRow upstream row = .ok tx' →
        tx'.tables = effect tx.tables row := by
      intro tx row tx' h
      unfold Tx.dropRow at h
      split at h
      · next hmem => rw [show effect tx.tables row = tx.tables from if_pos hmem, Except.ok.inj h]
      · next hmem =>
        rw [show effect tx.tables row = tx.tables.deleteItem row.id from if_neg hmem,
          execute_tables h]
    have hread : read.tables = tx.tables := execute_tables hread
    rw [← hread]
    exact foldlM_observe_eq Tx.tables effect hstep h

/-- **A transaction that commits** has made all of its writes. -/
theorem write_tables (h : write env user items upstream previous snapshot tables = .ok tables') :
    tables' = ((tables.saveItems user items).dropRows user upstream).saveState user previous
      snapshot env.now := by
  obtain ⟨begun, hbegun, h⟩ := except_bind_eq_ok h
  obtain ⟨saved, hsaved, h⟩ := except_bind_eq_ok h
  obtain ⟨dropped, hdropped, h⟩ := except_bind_eq_ok h
  obtain ⟨stated, hstated, h⟩ := except_bind_eq_ok h
  obtain ⟨committed, hcommitted, h⟩ := except_bind_eq_ok h
  have hsaved := foldlM_observe_eq Tx.tables
    (fun tables item => tables.saveItem user item (tables.existing user item))
    (fun _ _ _ h => saveItem_tables h) hsaved
  rw [execute_tables hbegun] at hsaved
  rw [← Except.ok.inj h, execute_tables hcommitted, id, execute_tables hstated,
    dropRows_tables hdropped, hsaved]
  rfl

theorem lt_freshId {ids : List Nat} {n : Nat} (h : n ∈ ids) : n < Tables.freshId ids := by
  induction ids with
  | nil => cases h
  | cons m ids ih =>
    simp only [Tables.freshId, List.foldr_cons] at ih ⊢
    rcases List.mem_cons.1 h with rfl | h
    · omega
    · have := ih h
      omega

/-- A user's new row comes after their others. -/
theorem rowsOf_concat (tables : Tables) {row : ItemRow} (hrow : row.userId = user) :
    Tables.rowsOf user { tables with items := tables.items ++ [row] }
      = tables.rowsOf user ++ [row] := by
  simp [Tables.rowsOf, hrow]

/-- **Saving an item** writes its status under its key, and keeps the keys apart. -/
theorem saveItem_view (h : tables.Keyed user) (item : Item) :
    (tables.saveItem user item (tables.existing user item)).Keyed user
      ∧ (tables.saveItem user item (tables.existing user item)).view user
        = Function.update (tables.view user) item.key (some item.status) := by
  unfold Tables.existing
  cases hfound : tables.items.find? fun row => row.userId = user ∧ row.key = item.key with
  | none =>
    have habsent : ∀ row ∈ tables.rowsOf user, row.key ≠ item.key := by
      intro row hrow hkey
      obtain ⟨hmem, huser⟩ := List.mem_filter.1 hrow
      have := List.find?_eq_none.1 hfound row hmem
      simp_all
    set row : ItemRow := ⟨Tables.freshId (tables.items.map ItemRow.id), user, item.simklType,
      item.simklId, item.title, item.status, item.columns⟩ with hrowdef
    have huser : row.userId = user := rfl
    have hrows := rowsOf_concat tables huser
    have hkey : row.key = item.key := rfl
    refine ⟨⟨?_, ?_⟩, ?_⟩
    · show ((tables.items ++ [row]).map ItemRow.id).Nodup
      rw [List.map_append, List.nodup_append]
      refine ⟨h.ids, List.nodup_singleton _, fun n hn m hm => ?_⟩
      have hm : m = row.id := by simpa using hm
      exact (lt_freshId hn).trans_eq hm.symm |>.ne
    · show ((Tables.rowsOf user { tables with items := tables.items ++ [row] }).map _).Nodup
      rw [hrows, List.map_append, List.nodup_append]
      refine ⟨h.keys, List.nodup_singleton _, fun k hk m hm => ?_⟩
      obtain ⟨other, hother, rfl⟩ := List.mem_map.1 hk
      have hm : m = row.key := by simpa using hm
      exact hm ▸ hkey ▸ habsent other hother
    · show Mirror.view _ _ (Tables.rowsOf user { tables with items := tables.items ++ [row] }) = _
      rw [hrows, Mirror.view_concat fun other hother => hkey ▸ habsent other hother]
      rfl
  | some found =>
    have hmem := List.mem_of_find?_eq_some hfound
    have hprop : found.userId = user ∧ found.key = item.key := by
      simpa using List.find?_some hfound
    set save : ItemRow → ItemRow := fun row =>
      if row.id = found.id then Tables.overlay item row else row with hsave
    have hsame : ∀ row ∈ tables.items, row.id = found.id → row = found := fun row hrow hid =>
      List.inj_on_of_nodup_map h.ids hrow hmem hid
    have hid : ∀ row, (save row).id = row.id := by
      intro row
      simp only [hsave]
      split <;> rfl
    have huser : ∀ row, (save row).userId = row.userId := by
      intro row
      simp only [hsave]
      split <;> rfl
    have hkey : ∀ row ∈ tables.items, (save row).key = row.key := by
      intro row hrow
      simp only [hsave]
      split
      · next hid => rw [hsame row hrow hid, hprop.2]; rfl
      · rfl
    have hrows : Tables.rowsOf user { tables with items := tables.items.map save }
        = (tables.rowsOf user).map save := by
      simp only [Tables.rowsOf, List.filter_map]
      congr 2
      funext row
      simp [huser]
    have hmemRows : ∀ row ∈ tables.rowsOf user, row ∈ tables.items := fun row hrow =>
      (List.mem_filter.1 hrow).1
    have hfoundRows : found ∈ tables.rowsOf user :=
      List.mem_filter.2 ⟨hmem, by simpa using hprop.1⟩
    refine ⟨⟨?_, ?_⟩, ?_⟩
    · show ((tables.items.map save).map ItemRow.id).Nodup
      have : (tables.items.map save).map ItemRow.id = tables.items.map ItemRow.id := by
        rw [List.map_map]
        exact List.map_congr_left fun row _ => hid row
      exact this ▸ h.ids
    · show ((Tables.rowsOf user { tables with items := tables.items.map save }).map _).Nodup
      have : ((tables.rowsOf user).map save).map ItemRow.key
          = (tables.rowsOf user).map ItemRow.key := by
        rw [List.map_map]
        exact List.map_congr_left fun row hrow => hkey row (hmemRows row hrow)
      exact hrows ▸ this ▸ h.keys
    · show Mirror.view _ _ (Tables.rowsOf user { tables with items := tables.items.map save }) = _
      rw [hrows]
      refine Mirror.view_map (fun row hrow => hkey row (hmemRows row hrow)) (fun row hrow => ?_)
        ⟨found, hfoundRows, hprop.2⟩
      by_cases hk : row.key = item.key
      · have : row = found :=
          List.inj_on_of_nodup_map h.keys hrow hfoundRows (hk.trans hprop.2.symm)
        simp [hsave, this, hprop.2, Tables.overlay]
      · have : row.id ≠ found.id := fun hid =>
          hk (hsame row (hmemRows row hrow) hid ▸ hprop.2)
        simp [hsave, this, hk]

/-- **Saving the items** puts their statuses under their keys. -/
theorem saveItems_view (h : tables.Keyed user) (items : List Item) :
    (tables.saveItems user items).Keyed user
      ∧ (tables.saveItems user items).view user
        = Mirror.puts (tables.view user) (items.map Item.entry) := by
  induction items generalizing tables with
  | nil => exact ⟨h, rfl⟩
  | cons item items ih =>
    obtain ⟨hkeyed, hview⟩ := saveItem_view h item
    obtain ⟨hkeyed, hrest⟩ := ih hkeyed
    exact ⟨hkeyed, hrest.trans (by rw [hview]; rfl)⟩

/-- The keys a removal keeps. -/
def keptBy (upstream : Option (List String)) (key : SimklKind × String) : Bool :=
  upstream.all fun upstream => decide (keyText key ∈ upstream)

theorem deleteItems_items (upstream : List String) (rows : List ItemRow) (tables : Tables) :
    (rows.foldl (fun tables row =>
        if keyText row.key ∈ upstream then tables else tables.deleteItem row.id) tables).items
      = tables.items.filter fun row =>
          decide (∀ gone ∈ rows, keyText gone.key ∉ upstream → row.id ≠ gone.id) := by
  induction rows generalizing tables with
  | nil => simp
  | cons gone rows ih =>
    rw [List.foldl_cons, ih]
    split
    · next hmem => simp [hmem]
    · next hmem =>
      simp only [Tables.deleteItem, List.filter_filter]
      congr 1
      funext row
      simp [hmem, Bool.and_comm]

/-- **Removing rows** keeps the keys that are upstream. -/
theorem dropRows_view (h : tables.Keyed user) (upstream : Option (List String)) :
    (tables.dropRows user upstream).Keyed user
      ∧ (tables.dropRows user upstream).view user
        = Mirror.keep (keptBy upstream) (tables.view user) := by
  cases upstream with
  | none =>
    refine ⟨h, ?_⟩
    funext key
    simp [Mirror.keep, keptBy, Tables.dropRows]
  | some upstream =>
    have hrows : (tables.dropRows user (some upstream)).rowsOf user
        = (tables.rowsOf user).filter fun row => keptBy (some upstream) row.key := by
      unfold Tables.rowsOf Tables.dropRows
      rw [deleteItems_items, List.filter_comm, Tables.rowsOf]
      refine List.filter_congr fun row hrow => ?_
      simp only [keptBy, Option.all_some, decide_eq_decide]
      constructor
      · intro hall
        by_contra hgone
        exact hall row hrow hgone rfl
      · intro hmem gone hgone hnot hid
        have : row = gone := List.inj_on_of_nodup_map h.ids (List.mem_filter.1 hrow).1
          (List.mem_filter.1 hgone).1 hid
        exact hnot (this ▸ hmem)
    refine ⟨⟨?_, ?_⟩, ?_⟩
    · have : (tables.dropRows user (some upstream)).items.Sublist tables.items := by
        unfold Tables.dropRows
        rw [deleteItems_items]
        exact List.filter_sublist
      exact h.ids.sublist (this.map _)
    · rw [hrows]
      exact h.keys.sublist (List.filter_sublist.map _)
    · rw [Tables.view, hrows]
      exact Mirror.view_filter

/-- **A pull's writes** put its items and keep what is upstream. -/
theorem write_view (h : tables.Keyed user)
    (hwrite : write env user items upstream previous snapshot tables = .ok tables') :
    tables'.Keyed user ∧ tables'.view user
      = Mirror.keep (keptBy upstream)
          (Mirror.puts (tables.view user) (items.map Item.entry)) := by
  obtain ⟨hkeyed, hsaved⟩ := saveItems_view h items
  obtain ⟨hkeyed, hdropped⟩ := dropRows_view hkeyed upstream
  have hitems : ∀ tables : Tables,
      (tables.saveState user previous snapshot env.now).items = tables.items := by
    intro tables
    cases previous <;> rfl
  have hrows : tables'.items = ((tables.saveItems user items).dropRows user upstream).items := by
    rw [write_tables hwrite, hitems]
  refine ⟨⟨hrows ▸ hkeyed.ids, ?_⟩, ?_⟩
  · rw [Tables.rowsOf, hrows]
    exact hkeyed.keys
  · rw [Tables.view, Tables.rowsOf, hrows, ← hsaved, ← hdropped]
    rfl

end Transaction

end Foreseerr.SimklSync

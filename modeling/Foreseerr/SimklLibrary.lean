import Foreseerr.Clock
import Foreseerr.Json
import Foreseerr.JsText
import Foreseerr.Resolutions
import Mathlib.Data.List.Sort

/-!
# Reading a Simkl library

`routes/procstate/simklsync.rs` and `simkl.rs`: the entries of an answer of Simkl's,
found in the answer's buckets, and the columns that an entry gives. An entry without an
id, a title or a status of the five gives none.

A number's text (`number_string`) is a parameter.
-/

namespace Foreseerr

/-- A local type of Simkl's items. -/
inductive SimklKind
  | show
  | movie
  | anime
deriving DecidableEq, Repr

/-- The type, as columns and keys have it. -/
def SimklKind.text : SimklKind → String
  | .show => "show"
  | .movie => "movie"
  | .anime => "anime"

/-- An object of an answer. -/
abbrev Fields := List (String × Json)

namespace SimklLibrary

variable (numberString : ℚ → String)

/-! ## Values -/

/-- `a ?? b ?? ...`. -/
def coalesce (values : List (Option Json)) : Option Json :=
  values.reduceOption.find? fun value => !value.isNull

/-- `scalar`: a text with something besides white space, trimmed, or a number's. -/
def scalar : Option Json → Option String
  | some (.str s) =>
    let trimmed := jsTrim s.toList
    if trimmed = [] then none else some (String.ofList trimmed)
  | some (.num n) => some (numberString n)
  | _ => none

/-- `stringValue`: a string with something besides white space, as is. -/
def stringValue (value : Option Json) : Option String :=
  (value.bind Json.asStr).filter fun s => jsTrim s.toList ≠ []

/-- `number_of`: `Number(value)`. A number's text, alone in an array, reads as the
number. -/
def numberOf : Option Json → Option ℚ
  | none | some (.obj _) => none
  | some .null | some (.arr []) | some (.arr [.null]) => some 0
  | some (.bool b) => some (if b then 1 else 0)
  | some (.num n) | some (.arr [.num n]) => some n
  | some (.str s) | some (.arr [.str s]) => numberOfStr s.toList
  | some (.arr _) => none

/-- `object`. -/
def objectOf (value : Option Json) : Option Fields := value.bind Json.asObject

/-- `js_date_parse`: an ISO date, also with an offset. -/
def jsDateParse (text : List Char) : Option Int :=
  match parseDateMillis text with
  | some ms => some ms
  | none => do
    let date := text.takeWhile (· ≠ 'T')
    let time ← (text.dropWhile (· ≠ 'T')).tail?
    let isSign := fun c => c = '+' ∨ c = '-'
    let offset := (time.reverse.takeWhile fun c => ¬ isSign c).reverse
    let signed := time.reverse.dropWhile fun c => ¬ isSign c
    let sign ← signed.head?
    let (hours, minutes) ← splitOnce ':' offset
    let hours ← parseInt hours
    let minutes ← parseInt minutes
    if hours > 23 ∨ minutes > 59 then none
    else
      let utc ← parseDateMillis (date ++ 'T' :: signed.tail.reverse ++ ['Z'])
      some (utc - (if sign = '-' then -1 else 1) * (hours * 3600000 + minutes * 60000))

/-- `toDate`: Unix seconds or a date, in milliseconds. -/
def toDate : Option Json → Option Int
  | some (.num n) =>
    let ms := n * 1000
    if -8640000000000000 ≤ ms ∧ ms ≤ 8640000000000000 then some (Int.tdiv ms.num ms.den) else none
  | some (.str text) => jsDateParse text.toList
  | _ => none

/-- `POSTER_BASE`. -/
def posterBase : String := "https://wsrv.nl/?url=https://simkl.in/posters"

/-- `poster_url`. -/
def posterUrl (path : Option String) : Option String :=
  path.bind fun path =>
    let trimmed := jsTrim path.toList
    let lower := path.toList.map Char.toLower
    if trimmed = [] then none
    else if "http://".toList <+: lower ∨ "https://".toList <+: lower then some path
    else some (posterBase ++ "/" ++ String.ofList trimmed ++ "_w.webp&q=90")

/-! ## Entries -/

/-- Set a field, or remove it where there is no value. -/
def setOrRemove (key : String) : Option Json → Fields → Fields
  | some value, fields => Json.setField key value fields
  | none, fields => Json.removeField key fields

/-- `unwrap_item`: the title an entry is about laid over the entry, whose own status,
rating and progress stay. -/
def unwrapItem (item : Fields) : Fields :=
  match ["show", "movie", "anime"].findSome? fun key => objectOf (Json.getField key item) with
  | none => item
  | some nested =>
    let outer := fun key => Json.getField key item
    let inner := fun key => Json.getField key nested
    let out := nested.foldl (fun out field => Json.setField field.1 field.2 out) item
    let out := setOrRemove "status" (outer "status") out
    let out := setOrRemove "user_rating" (outer "user_rating" <|> inner "user_rating") out
    let out := setOrRemove "added_to_list_at" (coalesce
      [outer "added_to_watchlist_at", outer "added_to_list_at", inner "added_at"]) out
    let out := setOrRemove "last_watched_at" (coalesce
      [outer "last_watched_at", inner "last_watched_at"]) out
    let out := setOrRemove "watched_episodes_count" (coalesce
      [outer "watched_episodes_count", inner "watched_episodes_count"]) out
    let out := setOrRemove "total_episodes_count" (coalesce
      [outer "total_episodes_count", inner "total_episodes_count"]) out
    let out := setOrRemove "anime_type" (coalesce [outer "anime_type", inner "anime_type"]) out
    setOrRemove "ids" (if (objectOf (inner "ids")).isSome then inner "ids" else outer "ids")
      out

/-- `SYNC_BUCKETS`. -/
def syncBucket (key : String) : Option SimklKind :=
  if key = "movies" ∨ key = "movie" then some .movie
  else if key = "shows" ∨ key = "show" ∨ key = "tv" then some .show
  else if key = "anime" then some .anime
  else none

/-- An array index, as an object's key. -/
def indexKey (key : String) : Option Nat :=
  if key = "0" ∨ (key ≠ "" ∧ key.toList.head? ≠ some '0' ∧ key.toList.all Char.isDigit) then
    some (digitsValue 10 key.toList) |>.filter (· < 2 ^ 32 - 1)
  else none

/-- `object_entries`: array indices first, in order. -/
def objectEntries (fields : Fields) : Fields :=
  (fields.filter fun field => (indexKey field.1).isSome).insertionSort
      (fun a b => (indexKey a.1).getD 0 ≤ (indexKey b.1).getD 0)
    ++ fields.filter fun field => (indexKey field.1).isNone

/-- The entries of an array, about their titles. -/
def arrayEntries : Json → List Fields
  | .arr items => (items.filterMap Json.asObject).map unwrapItem
  | _ => []

/-- The entries of an object's buckets, those of any other key taken for a type, or for
none. -/
def bucketEntries (fields : Fields) (fallback : Option SimklKind) : List (Fields × SimklKind) :=
  (objectEntries fields).flatMap fun field =>
    match syncBucket field.1 <|> fallback with
    | some kind => (arrayEntries field.2).map fun item => (item, kind)
    | none => []

/-- The entries of `catalog_entries` for any type: those in Simkl's buckets, without the
anime, or, where no bucket has any, those of every array. -/
def catalogEntries : Json → List Fields
  | .obj fields =>
    let fromBuckets := bucketEntries fields none
    if fromBuckets ≠ [] then (fromBuckets.filter fun entry => entry.2 ≠ .anime).map Prod.fst
    else (objectEntries fields).flatMap fun field => arrayEntries field.2
  | payload => arrayEntries payload

/-- `syncEntries(payload, fallbackType)`. -/
def syncEntries (payload : Json) (fallback : Option SimklKind) : List (Fields × SimklKind) :=
  match payload with
  | .arr _ =>
    match fallback with
    | none => []
    | some kind => (arrayEntries payload).map fun item => (item, kind)
  | .obj fields =>
    let entries := bucketEntries fields fallback
    if entries ≠ [] then entries
    else match fallback with
      | none => []
      | some kind => (catalogEntries payload).map fun item => (item, kind)
  | _ => []

/-! ## Columns -/

/-- `simklRecordId(item, ids)`. -/
def recordId (item ids : Fields) : Option String :=
  scalar numberString (coalesce [Json.getField "simkl" ids, Json.getField "simkl_id" ids,
    Json.getField "simkl_id" item, Json.getField "id" item])

/-- The record id of an entry with its own ids. -/
def recordIdOf (item : Fields) : Option String :=
  recordId numberString item ((objectOf (Json.getField "ids" item)).getD [])

/-- `STATUSES`. -/
def statuses : List String := ["watching", "plantowatch", "hold", "completed", "dropped"]

/-- A column value. -/
inductive Cell
  /-- Clears the column. -/
  | null
  | text (s : String)
  | number (n : ℚ)
  | date (ms : Int)
  /-- The text of `watchedEpisodes`, by the pairs it lists. -/
  | episodes (pairs : List (Int × Int))
deriving DecidableEq, Repr

/-- `normalizeItem`: the columns every item has, and those that may be absent. -/
structure Item where
  simklId : String
  simklType : SimklKind
  title : String
  status : String
  columns : List (String × Cell)
deriving DecidableEq, Repr

/-- `episodeCoordinates(raw)`. -/
def episodeCoordinates (raw : Fields) : List (Int × Int) :=
  (((Json.getField "seasons" raw).bind Json.asArray).getD []).flatMap fun season =>
    match ((numberOf (season.get "number")).bind intOf).filter fun n => decide (n ≥ 0) with
    | none => []
    | some number =>
      (((season.get "episodes").bind Json.asArray).getD []).filterMap fun episode =>
        (((numberOf (episode.get "number")).bind intOf).filter fun n => decide (n > 0)).map
          fun episode => (number, episode)

/-- The type an entry gives itself. -/
def declaredKind (raw : Fields) : Option SimklKind :=
  match stringValue (coalesce [Json.getField "type" raw, Json.getField "simkl_type" raw]) with
  | some "show" => some .show
  | some "anime" => some .anime
  | some "movie" => some .movie
  | _ => none

/-- The title of an entry. -/
def titleOf (raw : Fields) : Option String :=
  stringValue (coalesce [Json.getField "title" raw, Json.getField "name" raw])

/-- The status of an entry, where it is one of the five. -/
def statusOf (raw : Fields) : Option String :=
  (stringValue (Json.getField "status" raw)).filter fun s => decide (s ∈ statuses)

/-- The columns of an item that may be absent. -/
def columnsOf (raw : Fields) (kind : SimklKind) (episodes : Bool) : List (String × Cell) :=
  let field := fun key => Json.getField key raw
  let ids := (objectOf (field "ids")).getD []
  let number := fun (column : String) value =>
    ((numberOf value).map fun n => (column, Cell.number n)).toList
  let text := fun (column : String) value =>
    ((stringValue value).map fun s => (column, Cell.text s)).toList
  let date := fun (column : String) value =>
    ((toDate value).map fun ms => (column, Cell.date ms)).toList
  number "tmdbId" (coalesce [Json.getField "tmdb" ids, field "tmdb"])
    ++ number "tvdbId" (coalesce [Json.getField "tvdb" ids, field "tvdb"])
    ++ text "slug" (coalesce [field "slug", Json.getField "slug" ids])
    ++ number "year" (field "year")
    ++ ((posterUrl (stringValue (coalesce [field "poster", field "poster_path"]))).map
        fun url => ("posterPath", Cell.text url)).toList
    ++ text "animeType" (field "anime_type")
    ++ (if (field "user_rating").any Json.isNull then [("userRating", Cell.null)]
        else number "userRating" (coalesce [field "user_rating", field "rating"]))
    ++ date "addedAt" (coalesce
        [field "added_to_list_at", field "added_to_watchlist_at", field "added_at"])
    ++ date "lastWatchedAt" (coalesce [field "last_watched_at", field "last_watched"])
    ++ number "watchedEpisodeCount" (field "watched_episodes_count")
    ++ number "totalEpisodeCount" (field "total_episodes_count")
    ++ (if episodes && kind ≠ .movie then
        [("watchedEpisodes", Cell.episodes (episodeCoordinates raw))] else [])

/-- `normalizeItem(raw, fallbackType, withEpisodes)`. -/
def normalizeItem (raw : Fields) (fallback : Option SimklKind) (episodes : Bool) :
    Option Item := do
  let simklId ← recordIdOf numberString raw
  let kind ← declaredKind raw <|> fallback
  let title ← titleOf raw
  let status ← statusOf raw
  some ⟨simklId, kind, title, status, columnsOf raw kind episodes⟩

/-- What an item's row is found by: its type and id. -/
def Item.key (item : Item) : SimklKind × String := (item.simklType, item.simklId)

/-- An item's key and status. -/
def Item.entry (item : Item) : (SimklKind × String) × String := (item.key, item.status)

/-- The key and status of an entry with an id, a title and a known status. -/
def entryOf (raw : Fields) (bucket : SimklKind) : Option ((SimklKind × String) × String) := do
  let simklId ← recordIdOf numberString raw
  let _ ← titleOf raw
  let status ← statusOf raw
  some (((declaredKind raw).getD bucket, simklId), status)

variable {numberString}

/-- A bucket's entry gives the key and status that are its own, whether its episodes are
read or not. -/
theorem normalizeItem_entry (raw : Fields) (bucket : SimklKind) (episodes : Bool) :
    (normalizeItem numberString raw (some bucket) episodes).map Item.entry
      = entryOf numberString raw bucket := by
  unfold normalizeItem entryOf
  cases recordIdOf numberString raw <;> cases titleOf raw <;> cases statusOf raw <;>
    cases declaredKind raw <;> rfl

/-- An entry's key is its own type, or else its bucket's, with its id. -/
theorem key_of_entryOf {raw : Fields} {bucket : SimklKind} {key : SimklKind × String}
    {status : String} (h : entryOf numberString raw bucket = some (key, status)) :
    recordIdOf numberString raw = some key.2 ∧ key.1 = (declaredKind raw).getD bucket
      ∧ statusOf raw = some status := by
  simp only [entryOf, Option.bind_eq_bind, Option.bind_eq_some_iff] at h
  obtain ⟨simklId, hid, title, -, found, hstatus, heq⟩ := h
  obtain ⟨rfl, rfl⟩ := Prod.mk.inj (Option.some.inj heq)
  exact ⟨hid, rfl, hstatus⟩

/-- The status of an entry is one of the five. -/
theorem mem_statuses_of_statusOf {raw : Fields} {status : String}
    (h : statusOf raw = some status) : status ∈ statuses := by
  simpa using (Option.filter_eq_some_iff.1 h).2

end SimklLibrary

end Foreseerr

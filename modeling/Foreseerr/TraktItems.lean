import Foreseerr.Clock
import Foreseerr.Double
import Foreseerr.JsText
import Foreseerr.Paging
import Foreseerr.Run
import Mathlib.Data.List.SplitBy

/-!
# Trakt entries as items

`traktitems.rs`: what a list that Trakt sends becomes. An entry names a movie or a
show and, in `ids`, what it is known by. One that names none is left out, and so is one
whose key was there before. An entry of an unexpected shape fails the whole list.

So a list that reads at all is read entry by entry (`Usable`) and then each key is kept
once, which is `normalizeListItems_eq_ok_iff`.
-/

namespace Foreseerr

namespace TraktItems

open Json Paging

/-! ## Numbers and texts -/

/-- `u64::from_str_radix`: a plus or none, some digits, and a number that fits. -/
def u64FromStrRadix (digits : List Char) (radix : Nat) : Option Nat :=
  let digits := match digits with
    | '+' :: digits => digits
    | _ => digits
  if digits ≠ [] ∧ digits.all (isDigitOf radix) ∧ digitsValue radix digits < 2 ^ 64 then
    some (digitsValue radix digits)
  else none

/-- `trim`. -/
def trim (text : List Char) : List Char := trimEnd isWhiteSpace (text.dropWhile isWhiteSpace)

/-- `js_number_of_text`. An infinity is no number here, as both are no id. -/
def jsNumberOfText (text : String) : Option ℚ :=
  match trim text.toList with
  | [] => some 0
  | '0' :: 'x' :: digits | '0' :: 'X' :: digits => radixNumber digits 16
  | '0' :: 'o' :: digits | '0' :: 'O' :: digits => radixNumber digits 8
  | '0' :: 'b' :: digits | '0' :: 'B' :: digits => radixNumber digits 2
  | '-' :: digits => ((decimalLiteral digits).bind double).map Neg.neg
  | '+' :: digits => (decimalLiteral digits).bind double
  | digits => (decimalLiteral digits).bind double
where
  radixNumber (digits : List Char) (radix : Nat) : Option ℚ :=
    (u64FromStrRadix digits radix).bind fun n => double n

/-- `js_number`. -/
def jsNumber : Option Json → Option ℚ
  | none | some (.obj _) => none
  | some .null => some 0
  | some (.bool b) => some (if b then 1 else 0)
  | some (.num n) => double n
  | some (.str s) => jsNumberOfText s
  | some (.arr []) => some 0
  | some (.arr [.num n]) => double n
  | some (.arr [.str s]) => jsNumberOfText s
  | some (.arr _) => none

example : jsNumber (some (.str " 12 ")) = some 12 := by decide +kernel
example : jsNumber (some (.str "0x10")) = some 16 := by decide +kernel
example : jsNumber (some (.str "inf")) = none := by decide +kernel

/-- `positive`. -/
def positive (n : Option ℚ) : Option ℚ := n.filter fun n => 0 < n

/-- `trimmed`. -/
def trimmed : Option Json → Except String (Option String)
  | none | some .null => .ok none
  | some (.str s) => .ok (if trim s.toList = [] then none else some (String.ofList (trim s.toList)))
  | some _ => .error "a Trakt field that should be text isn't"

/-- `or`: the first that is there and true. -/
def or (a b : Option Json) : Option Json := if a.any truthy then a else b.filter truthy

/-! ## Entries -/

section Items

variable (numberString : ℚ → String)

/-- `item_key`. -/
def itemKey (item : Json) : String :=
  let mediaType := jsText numberString (item.get "mediaType")
  let tmdb := item.get "tmdbId"
  if tmdb.any truthy ∧ (jsNumber tmdb).any (0 < ·) then
    mediaType ++ ":tmdb:" ++ jsText numberString tmdb
  else
    let slug := item.get "traktSlug"
    if slug.any truthy then mediaType ++ ":slug:" ++ jsText numberString slug
    else
      let trakt := item.get "traktId"
      if trakt.any truthy ∧ (jsNumber trakt).any (0 < ·) then
        mediaType ++ ":trakt:" ++ jsText numberString trakt
      else
        let title := match item.get "title" with
          | none | some .null => ""
          | some title => jsString numberString title
        mediaType ++ ":title:" ++ title

/-- `normalize_media_item`: the fields of an item, in their order. -/
def normalizeMediaItem (item : Option Json) (mediaType : String) :
    Except String (Option (List (String × Json))) :=
  match item.filter truthy with
  | none => .ok none
  | some item => do
    let id := fun key => (item.get "ids").bind (get key)
    let tmdbId := positive (jsNumber (id "tmdb"))
    let slug ← trimmed (id "slug")
    let traktId := positive (jsNumber (id "trakt"))
    let imdbId ← trimmed (id "imdb")
    let tvdb := positive (jsNumber (id "tvdb"))
    if tmdbId.isNone ∧ slug.isNone ∧ traktId.isNone then .ok none
    else
      let community := match item.get "rating" with
        | none | some .null => none
        | rating => jsNumber rating
      let title := (or (item.get "title") (item.get "name")).getD
        (.str ((slug <|> traktId.map numberString).getD ""))
      .ok (some ([("tmdbId", tmdbId.map num), ("mediaType", some (str mediaType)),
        ("title", some title), ("year", item.get "year"), ("traktSlug", slug.map str),
        ("traktId", traktId.map num), ("imdbId", imdbId.map str), ("tvdbId", tvdb.map num),
        ("traktCommunityRating", community.map num)].filterMap fun field =>
          field.2.map fun value => (field.1, value)))

/-- `entries`. -/
def entries : Option Json → Except String (List Json)
  | some (.arr items) => .ok items
  | none | some .null | some (.str _) => .ok []
  | some (.bool b) => if b then .error "a Trakt answer that should be a list isn't" else .ok []
  | some (.num n) =>
    if n ≠ 0 then .error "a Trakt answer that should be a list isn't" else .ok []
  | some (.obj _) => .error "a Trakt answer that should be a list isn't"

/-- `field`. -/
def field (entry : Json) (key : String) : Except String (Option Json) :=
  if entry.isNull then .error ("a Trakt entry is null where " ++ key ++ " was expected")
  else .ok (entry.get key)

/-- What an entry is about, as an item. -/
def normalizeEntry (entry : Json) : Except String (Option (List (String × Json))) := do
  match (← field entry "type").bind asStr with
  | some "movie" => normalizeMediaItem numberString (entry.get "movie") "movie"
  | some "show" | some "episode" => normalizeMediaItem numberString (entry.get "show") "tv"
  | _ => .ok none

/-- An item with when it was listed and when it came out. -/
def dated (entry : Json) (fields : List (String × Json)) : Json :=
  let media := or (entry.get "movie") (entry.get "show")
  let set := fun key value fields =>
    ((value : Option Json).map fun value => setField key value fields).getD fields
  .obj (set "traktReleaseDate" (media.bind fun media => or (media.get "released")
      (media.get "first_aired"))
    (set "traktAddedAt" (or (entry.get "listed_at") (entry.get "watched_at")) fields))

/-- The loop of `normalize_list_items`. -/
def normalizeEntries : List String → List Json → Except String (List Json)
  | _, [] => .ok []
  | seen, entry :: rest => do
    match ← normalizeEntry numberString entry with
    | none => normalizeEntries seen rest
    | some normalized =>
      let key := itemKey numberString (.obj normalized)
      if key ∈ seen then normalizeEntries seen rest
      else do
        let items ← normalizeEntries (key :: seen) rest
        .ok (dated entry normalized :: items)

/-- `normalize_list_items`. -/
def normalizeListItems (payload : Option Json) : Except String (List Json) := do
  normalizeEntries numberString [] (← entries payload)

/-- One entry of a chart, wrapped as an entry of a list. -/
def chartEntry (key : String) (entry : Json) : Except String Json := do
  let media := match ← field entry key with
    | none | some .null => entry
    | some media => media
  .ok (.obj [("type", str key), (key, media)])

/-- `chart_entries`. -/
def chartEntries (payload : Option Json) (key : String) : Except String Json := do
  let list ← match payload with
    | some (.arr items) => .ok items
    | none => .ok []
    | some value =>
      if truthy value then .error "a Trakt answer that should be a list isn't" else .ok []
  return .arr (← list.mapM (chartEntry key))

/-! ## Entry by entry -/

variable {numberString}

/-- The dates of an item change no other field. -/
theorem get_dated (entry : Json) (fields : List (String × Json)) {key : String}
    (hadded : key ≠ "traktAddedAt") (hrelease : key ≠ "traktReleaseDate") :
    (dated entry fields).get key = getField key fields := by
  have hset : ∀ (key other : String) (value : Option Json) (fields : List (String × Json)),
      other ≠ key →
      getField other ((value.map fun value => setField key value fields).getD fields)
        = getField other fields := by
    intro key other value fields hne
    cases value with
    | none => rfl
    | some value => exact getField_setField_of_ne hne value fields
  rw [dated, Json.get, hset _ _ _ _ hrelease, hset _ _ _ _ hadded]

/-- Nor are they a part of its key. -/
theorem itemKey_dated (entry : Json) (fields : List (String × Json)) :
    itemKey numberString (dated entry fields) = itemKey numberString (.obj fields) := by
  unfold itemKey
  rw [get_dated _ _ (by decide) (by decide), get_dated _ _ (by decide) (by decide),
    get_dated _ _ (by decide) (by decide), get_dated _ _ (by decide) (by decide),
    get_dated _ _ (by decide) (by decide)]
  rfl

variable (numberString) in
/-- The item an entry is, where it reads and is one. -/
def usable (entry : Json) : Option Json :=
  match normalizeEntry numberString entry with
  | .ok (some fields) => some (dated entry fields)
  | _ => none

variable (numberString) in
/-- An entry of a shape that reads. -/
def Reads (entry : Json) : Prop := (normalizeEntry numberString entry).isOk

theorem normalizeEntries_eq_ok_iff {seen : List String} {list items : List Json} :
    normalizeEntries numberString seen list = .ok items
      ↔ (∀ entry ∈ list, Reads numberString entry)
        ∧ items = distinct (itemKey numberString) seen (list.filterMap (usable numberString)) := by
  induction list generalizing seen items with
  | nil => simp [normalizeEntries, distinct, eq_comm]
  | cons entry list ih =>
    rw [normalizeEntries, List.forall_mem_cons, List.filterMap_cons, usable, Reads]
    cases hentry : normalizeEntry numberString entry with
    | error e => exact ⟨by rintro ⟨⟩, fun h => absurd h.1.1 Bool.false_ne_true⟩
    | ok normalized =>
      have hok : (Except.ok normalized : Except String _).isOk = true := rfl
      cases normalized with
      | none => exact ih.trans (by rw [and_iff_right hok])
      | some fields =>
        rw [and_iff_right hok]
        dsimp only [Bind.bind, Except.bind]
        rw [distinct, itemKey_dated]
        split
        · exact ih
        · cases hrest : normalizeEntries numberString
            (itemKey numberString (.obj fields) :: seen) list with
          | error e =>
            refine ⟨by rintro ⟨⟩, fun h => ?_⟩
            rw [ih.2 ⟨h.1, rfl⟩] at hrest
            cases hrest
          | ok rest =>
            rw [ih] at hrest
            rw [← hrest.2, and_iff_right hrest.1]
            exact ⟨fun h => (Except.ok.inj h).symm, fun h => congrArg Except.ok h.symm⟩

/-- An item says of what type it is. -/
theorem mediaType_of_normalizeMediaItem {item : Option Json} {mediaType : String}
    {fields : List (String × Json)}
    (h : normalizeMediaItem numberString item mediaType = .ok (some fields)) :
    getField "mediaType" fields = some (.str mediaType) := by
  unfold normalizeMediaItem at h
  cases hitem : item.filter truthy with
  | none =>
    rw [hitem] at h
    cases h
  | some item =>
    rw [hitem] at h
    obtain ⟨slug, -, h⟩ := except_bind_eq_ok h
    obtain ⟨imdbId, -, h⟩ := except_bind_eq_ok h
    dsimp only at h
    split at h
    · cases h
    · obtain rfl := Option.some.inj (Except.ok.inj h)
      cases positive (jsNumber ((item.get "ids").bind (Json.get "tmdb"))) <;> simp [getField]

theorem mediaType_of_usable {entry item : Json} {media : Option Json} {mediaType : String}
    (hentry : normalizeEntry numberString entry = normalizeMediaItem numberString media mediaType)
    (h : usable numberString entry = some item) : item.get "mediaType" = some (.str mediaType) := by
  unfold usable at h
  split at h
  next fields hfields =>
    obtain rfl := Option.some.inj h
    rw [get_dated entry fields (by decide) (by decide)]
    exact mediaType_of_normalizeMediaItem (hentry.symm.trans hfields)
  next => cases h

/-- A key starts with its item's type. -/
theorem itemKey_eq_append (item : Json) : ∃ rest : String,
    itemKey numberString item = jsText numberString (item.get "mediaType") ++ (":" ++ rest) := by
  have happend : ∀ (kind name text : String), kind ++ (":" ++ name) ++ text
      = kind ++ (":" ++ (name ++ text)) := by
    intro kind name text
    simp [String.append_assoc]
  unfold itemKey
  dsimp only
  split
  · exact ⟨_, happend _ "tmdb:" _⟩
  · split
    · exact ⟨_, happend _ "slug:" _⟩
    · split
      · exact ⟨_, happend _ "trakt:" _⟩
      · exact ⟨_, happend _ "title:" _⟩

/-- **A list reads entry by entry**, and keeps each key once. -/
theorem normalizeListItems_eq_ok_iff {list items : List Json} :
    normalizeListItems numberString (some (.arr list)) = .ok items
      ↔ (∀ entry ∈ list, Reads numberString entry)
        ∧ items = distinct (itemKey numberString) [] (list.filterMap (usable numberString)) :=
  normalizeEntries_eq_ok_iff

/-! ## When an item was added -/

/-- `digits`: so many digits. -/
def digits (text : List Char) (len : Nat) : Option Int :=
  if text.length = len ∧ areDigits text then some (digitsValue 10 text) else none

/-- The date of a text, in days. -/
def dateDays (date : List Char) : Option Int := do
  let (year, month, day) ← match date.splitOn '-' with
    | [year] => some (year, ['0', '1'], ['0', '1'])
    | [year, month] => some (year, month, ['0', '1'])
    | [year, month, day] => some (year, month, day)
    | _ => none
  let year ← digits year 4
  let month ← digits month 2
  let day ← digits day 2
  if 1 ≤ month ∧ month ≤ 12 ∧ 1 ≤ day ∧ day ≤ 31 then daysFromCivil year month day else none

/-- The clock of a text and its offset in milliseconds. -/
def clockOffset (time : List Char) : Option (List Char × Int) :=
  match time.reverse with
  | 'Z' :: clock => some (clock.reverse, 0)
  | reversed => do
    let isSign := fun c => c = '+' ∨ c = '-'
    let offset := (reversed.takeWhile fun c => ¬ isSign c).reverse
    let (sign, clock) ← match reversed.dropWhile fun c => ¬ isSign c with
      | '-' :: clock => some ((-1 : Int), clock.reverse)
      | '+' :: clock => some (1, clock.reverse)
      | _ => none
    let (h, m) ← splitOnce ':' offset
    let h ← digits h 2
    let m ← digits m 2
    some (clock, sign * (h * 60 + m) * 60000)

/-- The milliseconds of a fraction of a second. -/
def fractionMs (frac : List Char) : Option Int :=
  if frac ≠ [] ∧ areDigits frac then
    some (digitsValue 10 ((frac ++ List.replicate (3 - frac.length) '0').take 3))
  else none

/-- The time of a text, in milliseconds of its day. -/
def timeMs (time : List Char) : Option Int := do
  let (clock, offset) ← clockOffset time
  let (hms, frac) := match splitOnce '.' clock with
    | some (hms, frac) => (hms, some frac)
    | none => (clock, none)
  let (h, m, s) ← match hms.splitOn ':' with
    | [h, m] => some (h, m, ['0', '0'])
    | [h, m, s] => some (h, m, s)
    | _ => none
  let h ← digits h 2
  let m ← digits m 2
  let s ← digits s 2
  if 24 < h ∨ 59 < m ∨ 59 < s ∨ (h = 24 ∧ (0 < m ∨ 0 < s)) then none
  else
    let ms ← (frac.map fractionMs).getD (some 0)
    some (((h * 60 + m) * 60 + s) * 1000 + ms - offset)

/-- `parse_js_date`. -/
def parseJsDate (text : List Char) : Option Int :=
  match splitOnce 'T' text with
  | none => (dateDays text).map (· * 86400000)
  | some (date, time) => do
    let days ← dateDays date
    let ms ← timeMs time
    some (days * 86400000 + ms)

example : parseJsDate "2024-01-01T12:00:00.123456Z".toList = some 1704110400123 := by
  decide +kernel
example : parseJsDate "2021-02-30".toList = some 1614643200000 := by decide +kernel
example : parseJsDate "2024-01-01T12:00:00+01:00".toList = some 1704106800000 := by
  decide +kernel
example : parseJsDate "2024-13-01".toList = none := by decide +kernel

/-- `sort_timestamp`, by when an item was added. -/
def sortTimestamp (item : Json) : Int :=
  ((((item.get "traktAddedAt").bind asStr).filter (· ≠ "")).bind fun text =>
    parseJsDate text.toList).getD 0

end Items

end TraktItems

end Foreseerr

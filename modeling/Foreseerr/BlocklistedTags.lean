import Foreseerr.Database
import Foreseerr.Delimited
import Mathlib.Data.List.Nodup
import Mathlib.Data.Rat.Floor

/-!
# The tag blocklist

`jobs/blocklisted_tags.rs` blocklists every title TMDB lists under one of the
keywords of `main.blocklistedTags`. A run first collects: for each keyword it
pages TMDB's discover results in every sort order, and notes the keywords TMDB
does not know. Then it writes, twice: the setting without the unknown keywords,
and, in one transaction, the entries of the `blocklist` table that have tags,
all of them anew.

What the two writes owe is a run as a whole: a run that ends well leaves the
entries without tags alone, makes the tagged ones say what TMDB listed, and
takes the unknown keywords out of the setting *as it is then*; a run that does
not end well changes nothing. The entries are sound where they are linked to
their titles' media rows. The setting is not: it is written from the keywords
the run read when it started, and before the transaction.
-/

namespace Foreseerr.BlocklistedTags

/-- A keyword: what stands between two commas of the setting. -/
abbrev Tag := List Char

/-- What an entry of the blocklist and a media row are about: the media type
and the TMDB id. -/
abbrev Title := String × Int

/-! ## What TMDB answers -/

/-- A result of a discover page: its `id` where it is an integer, and its `title`
(or `name`) where it is a string. -/
structure Found where
  id : Option Int
  title : Option String := none
deriving DecidableEq, Repr

/-- A discover page: its `results` where they are an array, and `total_pages`
where it is a number. -/
structure Page where
  results : Option (List Found)
  totalPages : Option ℚ := none
deriving DecidableEq, Repr

/-- A discover request. -/
structure Query where
  mediaType : String
  page : Int
  sort : String
  tag : Tag
deriving DecidableEq, Repr

/-- A keyword lookup: `keyword_exists`, its 404, or its error. -/
inductive Lookup
  | known
  | notFound
  | failed
deriving DecidableEq, Repr

/-- The world a run collects from: what the request sent after so many others
gets (an error of a discover request is `none`), and whether the job was
cancelled by then. -/
structure Tmdb where
  keyword : Nat → Tag → Lookup
  page : Nat → Query → Option Page
  cancelled : Nat → Bool

/-! ## Collecting -/

/-- One discover result to blocklist for a keyword. -/
structure Hit where
  tmdbId : Int
  mediaType : String
  title : Option String
  keyword : Tag
deriving DecidableEq, Repr

def Hit.about (hit : Hit) : Title := (hit.mediaType, hit.tmdbId)

/-- What a run was told. -/
inductive Heard
  | unknown (tag : Tag)
  | page (mediaType : String) (tag : Tag) (response : Page)
deriving DecidableEq, Repr

/-- The state of a collecting run: the hits and the invalid keywords, the requests
it has made, and what it was told, which nothing reads. -/
structure Collecting where
  hits : List Hit := []
  invalid : List Tag := []
  asked : Nat := 0
  heard : List Heard := []
deriving DecidableEq, Repr

/-- One entry of `collect`'s page. -/
def collectEntry (mediaType : String) (tag : Tag) (hits : List Hit) (entry : Found) :
    List Hit :=
  match entry.id with
  | none => hits
  | some tmdbId =>
    -- a repeat of the same title for the same keyword changes nothing
    if hits.any fun h => h.tmdbId == tmdbId && h.mediaType == mediaType && h.keyword == tag then
      hits
    else hits ++ [⟨tmdbId, mediaType, entry.title, tag⟩]

/-- `collect`: the titles of one discover page, in order. -/
def collect (response : Page) (mediaType : String) (tag : Tag) (hits : List Hit) : List Hit :=
  match response.results with
  | none => hits
  | some results => results.foldl (collectEntry mediaType tag) hits

/-- A page is received. -/
def Collecting.receive (run : Collecting) (mediaType : String) (tag : Tag) (response : Page) :
    Collecting :=
  { run with
    hits := collect response mediaType tag run.hits
    asked := run.asked + 1
    heard := run.heard ++ [.page mediaType tag response] }

/-- A keyword TMDB does not know is noted once. -/
def Collecting.reject (run : Collecting) (tag : Tag) : Collecting :=
  { run with
    invalid := if tag ∈ run.invalid then run.invalid else run.invalid ++ [tag]
    asked := run.asked + 1
    heard := run.heard ++ [.unknown tag] }

/-- A request that told nothing. -/
def Collecting.skip (run : Collecting) : Collecting := { run with asked := run.asked + 1 }

/-- Why a run stops early. -/
inductive Stop
  | cancelled
  | failed
deriving DecidableEq, Repr

def commonSort : List String :=
  ["popularity.desc", "popularity.asc", "vote_average.desc", "vote_average.asc",
    "vote_count.desc", "vote_count.asc"]

/-- `MovieSortOptionsIterable`. -/
def movieSort : List String :=
  commonSort ++ ["release_date.desc", "release_date.asc", "revenue.desc", "revenue.asc",
    "primary_release_date.desc", "primary_release_date.asc", "original_title.desc",
    "original_title.asc"]

/-- `TvSortOptionsIterable`. -/
def tvSort : List String :=
  commonSort ++ ["first_air_date.desc", "first_air_date.asc", "original_name.desc",
    "original_name.asc"]

/-- The sort orders of a media type. -/
def sortsOf (mediaType : String) : List String :=
  if mediaType = "movie" then movieSort else tvSort

/-- `js_int`: a whole page count, 0 where it is no 64-bit integer. -/
def jsInt (n : ℚ) : Int :=
  if -2 ^ 63 ≤ ⌊n⌋ ∧ ⌊n⌋ < 2 ^ 63 then ⌊n⌋ else 0

/-- The `total_pages` a first page ends the search by sort orders with: no more pages
than there are queries to make, where that number fits 32 bits. -/
def Page.fewPages (response : Page) (page : Int) (queryMax : Nat) : Option ℚ :=
  response.totalPages.filter fun total =>
    page = 1 ∧ (2 ^ 31 ≤ queryMax ∨ total ≤ (queryMax : ℚ))

/-- `process_tag` once the number of pages is fixed: the pages left, by
popularity. They start at the second, so none of them fixes the number again. -/
def followPages (tmdb : Tmdb) (mediaType : String) (tag : Tag) :
    Nat → Int → Collecting → Except Stop Collecting
  | 0, _, run => .ok run
  | remaining + 1, page, run =>
    if tmdb.cancelled run.asked then .error .cancelled
    else match tmdb.page run.asked ⟨mediaType, page, "popularity.desc", tag⟩ with
      | some response =>
        followPages tmdb mediaType tag remaining (page + 1) (run.receive mediaType tag response)
      | none => followPages tmdb mediaType tag remaining (page + 1) run.skip

/-- `process_tag` until then: the first pages in every sort order, with the queries
that remain. -/
def sweepSorts (tmdb : Tmdb) (mediaType : String) (tag : Tag) (queryMax : Nat) :
    Nat → Collecting → Except Stop Collecting
  | 0, run => .ok run
  | remaining + 1, run =>
    let sorts := sortsOf mediaType
    let query := queryMax - (remaining + 1)
    let page : Int := query / sorts.length + 1
    let sort := sorts.getD (query % sorts.length) "popularity.desc"
    if tmdb.cancelled run.asked then .error .cancelled
    else match tmdb.page run.asked ⟨mediaType, page, sort, tag⟩ with
      | some response =>
        let run := run.receive mediaType tag response
        match response.fewPages page queryMax with
        | some total => followPages tmdb mediaType tag (jsInt total - 1).toNat 2 run
        | none => sweepSorts tmdb mediaType tag queryMax remaining run
      | none => sweepSorts tmdb mediaType tag queryMax remaining run.skip

/-- `page_limit.saturating_mul(len)`, where there is a query to make at all. -/
def queryMax (pageLimit : Int) (mediaType : String) : Nat :=
  (min (pageLimit * (sortsOf mediaType).length) (2 ^ 63 - 1)).toNat

/-- `process_tag`. -/
def processTag (tmdb : Tmdb) (pageLimit : Int) (tag : Tag) (run : Collecting)
    (mediaType : String) : Except Stop Collecting :=
  sweepSorts tmdb mediaType tag (queryMax pageLimit mediaType) (queryMax pageLimit mediaType) run

/-- One keyword of `collect_and_write`. -/
def processKeyword (tmdb : Tmdb) (pageLimit : Int) (run : Collecting) (tag : Tag) :
    Except Stop Collecting :=
  match tmdb.keyword run.asked tag with
  | .failed => .error .failed
  | .notFound => .ok (run.reject tag)
  | .known => ["movie", "tv"].foldlM (processTag tmdb pageLimit tag) run.skip

/-- The keywords of a setting. -/
def tagsOf (setting : List Char) : List Tag := setting.splitOn ','

/-- A setting of keywords. -/
def settingOf (tags : List Tag) : List Char := [','].intercalate tags

/-- The collecting half of `collect_and_write`. -/
def collectTags (tmdb : Tmdb) (pageLimit : Int) (setting : List Char) :
    Except Stop Collecting :=
  if setting = [] then .ok {}
  else (tagsOf setting).foldlM (processKeyword tmdb pageLimit) {}

/-! ## Writing -/

/-- An entry of the `blocklist` table. -/
structure Entry where
  id : Int
  mediaType : String
  title : Option String
  tmdbId : Int
  blocklistedTags : Option (List Char)
  mediaId : Option Int
  createdAt : Option String := none
deriving DecidableEq, Repr

def Entry.about (entry : Entry) : Title := (entry.mediaType, entry.tmdbId)

/-- An entry with other tags. -/
def Entry.withTags (entry : Entry) (tags : List Char) : Entry :=
  { entry with blocklistedTags := some tags }

/-- The tables a run writes, and the ids their next rows get. -/
structure Db where
  media : List MediaRow
  blocklist : List Entry
  nextMedia : Int
  nextEntry : Int
deriving DecidableEq, Repr

/-- What a media row is about. -/
def titleOf (media : MediaRow) : Title := (media.mediaType, media.tmdbId)

namespace Db

/-- The media rows of the titles that have an entry with tags. -/
def doomed (db : Db) : List Int :=
  (db.media.filter fun m => db.blocklist.any fun e =>
    e.about == titleOf m && e.blocklistedTags.isSome).map (·.id)

/-- Delete media rows: the entries that refer to them go with them. -/
def deleteMedia (db : Db) (ids : List Int) : Db :=
  { db with
    media := db.media.filter fun m => m.id ∉ ids
    blocklist := db.blocklist.filter fun e => ∀ id ∈ e.mediaId, id ∉ ids }

/-- `UPDATE "blocklist" … WHERE "id"`. -/
def updateEntry (db : Db) (id : Int) (change : Entry → Entry) : Db :=
  { db with blocklist := db.blocklist.map fun e => if e.id = id then change e else e }

/-- `UPDATE "media" … WHERE "id"`, to `BLOCKLISTED` in both qualities. -/
def blockMedia (db : Db) (id : Int) (now : String) : Db :=
  { db with media := db.media.map fun m => if m.id = id then
      { m with
        status := MediaStatus.blocklisted, status4k := MediaStatus.blocklisted,
        updatedAt := some now }
    else m }

/-- `INSERT INTO "blocklist"`, without a media row yet. -/
def insertEntry (db : Db) (hit : Hit) (now : String) : Db :=
  { db with
    blocklist := db.blocklist ++ [{
      id := db.nextEntry, mediaType := hit.mediaType, title := hit.title, tmdbId := hit.tmdbId,
      blocklistedTags := some (Delimited.mark ',' hit.keyword), mediaId := none,
      createdAt := some now }]
    nextEntry := db.nextEntry + 1 }

/-- `INSERT INTO "media"`, `BLOCKLISTED` in both qualities. -/
def insertMedia (db : Db) (hit : Hit) (now : String) : Db :=
  { db with
    media := db.media ++ [{
      id := db.nextMedia, mediaType := hit.mediaType, tmdbId := hit.tmdbId,
      status := MediaStatus.blocklisted, status4k := MediaStatus.blocklisted,
      createdAt := some now, updatedAt := some now, lastSeasonChange := some now,
      mediaAddedAt := some now }]
    nextMedia := db.nextMedia + 1 }

/-- The media row a title is found by. -/
def findMedia (db : Db) (about : Title) : Option MediaRow :=
  db.media.find? fun m => titleOf m == about

/-- The entry a title is found by. -/
def findEntry (db : Db) (about : Title) : Option Entry :=
  db.blocklist.find? fun e => e.about == about

/-- The media half of `add_to_blocklist`: the title's media row, blocklisted, and its id. -/
def blockTitle (db : Db) (hit : Hit) (now : String) : Db × Int :=
  match db.findMedia hit.about with
  | some m =>
    if m.status ≠ MediaStatus.blocklisted ∨ m.status4k ≠ MediaStatus.blocklisted then
      (db.blockMedia m.id now, m.id)
    else (db, m.id)
  | none => (db.insertMedia hit now, db.nextMedia)

/-- `add_to_blocklist`. -/
def addToBlocklist (db : Db) (hit : Hit) (now : String) : Db :=
  let (blocked, mediaId) := (db.insertEntry hit now).blockTitle hit now
  blocked.updateEntry db.nextEntry fun e => { e with mediaId := some mediaId }

/-- `process_hit`. -/
def processHit (now : String) (db : Db) (hit : Hit) : Db :=
  match db.findEntry hit.about with
  | none => db.addToBlocklist hit now
  | some entry =>
    match entry.blocklistedTags with
    | none => db
    | some tags =>
      if tags ≠ [] ∧ ¬ Delimited.mark ',' hit.keyword <:+: tags then
        db.updateEntry entry.id (·.withTags (tags ++ (hit.keyword ++ [','])))
      else db

/-- `write`: `cleanBlocklist`, then every hit. -/
def write (db : Db) (hits : List Hit) (now : String) : Db :=
  hits.foldl (processHit now) (db.deleteMedia db.doomed)

end Db

/-! ## The run -/

/-- What a run meets: TMDB and the settings it starts with; the setting as it stands
when the run writes it, whether that write and the transaction fail, and the clock of the
transaction. -/
structure Env where
  tmdb : Tmdb
  pageLimit : Int
  start : List Char
  current : List Char
  settingsFail : Bool := false
  dbFail : Bool := false
  now : String := ""

/-- What a run leaves: how it ended, the database and the setting, and what a run
that collected everything was told. -/
structure Left where
  ended : Except Stop Unit
  db : Db
  setting : List Char
  heard : List Heard

/-- The setting `clean_invalid` writes: the keywords read at the start without the
invalid ones. -/
def cleaned (start : List Char) (invalid : List Tag) : List Char :=
  settingOf ((tagsOf start).filter fun tag => tag ∉ invalid)

/-- `clean_invalid`: the setting after it. -/
def cleanInvalid (env : Env) (invalid : List Tag) : Except Stop (List Char) :=
  if cleaned env.start invalid = env.start then .ok env.current
  else if env.settingsFail then .error .failed
  else .ok (cleaned env.start invalid)

/-- The setting when the transaction begins. -/
def settingsWritten (env : Env) (run : Collecting) : Except Stop (List Char) :=
  if run.invalid = [] then .ok env.current else cleanInvalid env run.invalid

/-- `run`. -/
def runJob (env : Env) (db : Db) : Left :=
  match collectTags env.tmdb env.pageLimit env.start with
  | .error stop => ⟨.error stop, db, env.current, []⟩
  | .ok run =>
    match settingsWritten env run with
    | .error stop => ⟨.error stop, db, env.current, []⟩
    | .ok setting =>
      if env.dbFail then ⟨.error .failed, db, setting, run.heard⟩
      else ⟨.ok (), db.write run.hits env.now, setting, run.heard⟩

/-! ## What a run owes -/

/-- The ids of a page's results. -/
def Page.ids (response : Page) : List Int := (response.results.getD []).filterMap (·.id)

/-- A page the run received for the keyword has the title. -/
def Listed (heard : List Heard) (about : Title) (tag : Tag) : Prop :=
  ∃ response, .page about.1 tag response ∈ heard ∧ about.2 ∈ response.ids

/-- A setting without the keywords TMDB answered 404 for. -/
def withoutUnknown (heard : List Heard) (setting : List Char) : List Char :=
  settingOf ((tagsOf setting).filter fun tag => .unknown tag ∉ heard)

/-- **The tag blocklist is replaced by what was listed.** -/
structure Replaces (heard : List Heard) (db after : Db) : Prop where
  manual : after.blocklist.filter (·.blocklistedTags.isNone)
    = db.blocklist.filter (·.blocklistedTags.isNone)
  titles : (after.blocklist.map Entry.about).Nodup
  tagged : ∀ about, (∃ e ∈ after.blocklist, e.about = about ∧ e.blocklistedTags.isSome) ↔
    (∃ tag, Listed heard about tag) ∧
      ∀ e ∈ db.blocklist, e.about = about → e.blocklistedTags.isSome
  tags : ∀ e ∈ after.blocklist, ∀ text ∈ e.blocklistedTags, ∃ words,
    text = Delimited.text ',' words ∧ words.Nodup ∧ ∀ tag, tag ∈ words ↔ Listed heard e.about tag
  media : ∀ e ∈ after.blocklist, e.blocklistedTags.isSome → ∃ m ∈ after.media,
    e.mediaId = some m.id ∧ titleOf m = e.about ∧
      m.status = MediaStatus.blocklisted ∧ m.status4k = MediaStatus.blocklisted

/-- **What a run owes**: all of it when it ends well, nothing otherwise. -/
def Owed (env : Env) (db : Db) (left : Left) : Prop :=
  match left.ended with
  | .ok () =>
    Replaces left.heard db left.db ∧ left.setting = withoutUnknown left.heard env.current
  | .error _ => left.db = db ∧ left.setting = env.current

/-! ## What a run was told -/

/-- A hit's title and keyword, by which it is a repeat. -/
def Hit.key (hit : Hit) : Title × Tag := (hit.about, hit.keyword)

/-- What a collecting run keeps to: its hits and its invalid keywords are what it was told,
each once, and no keyword has a comma. -/
structure Collecting.Sound (run : Collecting) : Prop where
  hits : ∀ about tag, (about, tag) ∈ run.hits.map Hit.key ↔ Listed run.heard about tag
  nodup : (run.hits.map Hit.key).Nodup
  plain : ∀ hit ∈ run.hits, ',' ∉ hit.keyword
  invalid : ∀ tag, tag ∈ run.invalid ↔ .unknown tag ∈ run.heard

section Collect

variable {mediaType : String} {tag : Tag} {hits : List Hit} {entry : Found} {run run' : Collecting}
  {tmdb : Tmdb}

theorem isRepeat_iff {tmdbId : Int} :
    (hits.any fun h => h.tmdbId == tmdbId && h.mediaType == mediaType && h.keyword == tag) = true
      ↔ ((mediaType, tmdbId), tag) ∈ hits.map Hit.key := by
  simp only [List.any_eq_true, Bool.and_eq_true, beq_iff_eq, List.mem_map, Hit.key, Hit.about,
    Prod.mk.injEq]
  exact exists_congr fun h => and_congr_right fun _ => by rw [and_comm (a := h.tmdbId = tmdbId)]

/-- What an entry of a page adds. -/
theorem mem_collectEntry {about : Title} {tag' : Tag} :
    (about, tag') ∈ (collectEntry mediaType tag hits entry).map Hit.key ↔
      (about, tag') ∈ hits.map Hit.key ∨
        about.1 = mediaType ∧ tag' = tag ∧ entry.id = some about.2 := by
  unfold collectEntry
  cases hid : entry.id with
  | none => simp
  | some tmdbId =>
    have hadd : ((about, tag') = ((mediaType, tmdbId), tag)) ↔
        about.1 = mediaType ∧ tag' = tag ∧ some tmdbId = some about.2 := by
      simp only [Prod.ext_iff, Option.some.injEq, eq_comm (a := tmdbId)]
      tauto
    dsimp only
    split
    case isTrue h =>
      refine ⟨.inl, ?_⟩
      rintro (hmem | hnew)
      · exact hmem
      · exact (hadd.2 hnew) ▸ isRepeat_iff.1 h
    case isFalse h =>
      rw [List.map_append, List.mem_append, List.map_singleton, List.mem_singleton, ← hadd]
      rfl

theorem nodup_collectEntry (h : (hits.map Hit.key).Nodup) :
    ((collectEntry mediaType tag hits entry).map Hit.key).Nodup := by
  unfold collectEntry
  cases entry.id with
  | none => exact h
  | some tmdbId =>
    dsimp only
    split
    case isTrue => exact h
    case isFalse hrepeat =>
      rw [List.map_append, List.map_singleton]
      rw [List.nodup_append_comm, List.singleton_append, List.nodup_cons]
      exact ⟨fun hmem => hrepeat (isRepeat_iff.2 hmem), h⟩

theorem plain_collectEntry (htag : ',' ∉ tag) (h : ∀ hit ∈ hits, ',' ∉ hit.keyword) :
    ∀ hit ∈ collectEntry mediaType tag hits entry, ',' ∉ hit.keyword := by
  unfold collectEntry
  cases entry.id with
  | none => exact h
  | some tmdbId =>
    dsimp only
    split
    · exact h
    · intro hit hmem
      rcases List.mem_append.1 hmem with hmem | hmem
      · exact h hit hmem
      · rw [List.mem_singleton.1 hmem]
        exact htag

/-- What a page adds. -/
theorem mem_collect {response : Page} {about : Title} {tag' : Tag} :
    (about, tag') ∈ (collect response mediaType tag hits).map Hit.key ↔
      (about, tag') ∈ hits.map Hit.key ∨
        about.1 = mediaType ∧ tag' = tag ∧ about.2 ∈ response.ids := by
  unfold collect Page.ids
  cases response.results with
  | none => simp
  | some results =>
    rw [Option.getD_some]
    dsimp only
    induction results generalizing hits with
    | nil => simp
    | cons entry results ih =>
      rw [List.foldl_cons, ih, mem_collectEntry, or_assoc, ← and_or_left, ← and_or_left]
      simp only [List.mem_filterMap, List.mem_cons, exists_eq_or_imp]

theorem nodup_collect {response : Page} (h : (hits.map Hit.key).Nodup) :
    ((collect response mediaType tag hits).map Hit.key).Nodup := by
  unfold collect
  cases response.results with
  | none => exact h
  | some results =>
    exact List.foldlRecOn results _ (motive := fun hits : List Hit => (hits.map Hit.key).Nodup) h
      fun hits h _ _ => nodup_collectEntry h

theorem plain_collect {response : Page} (htag : ',' ∉ tag)
    (h : ∀ hit ∈ hits, ',' ∉ hit.keyword) :
    ∀ hit ∈ collect response mediaType tag hits, ',' ∉ hit.keyword := by
  unfold collect
  cases response.results with
  | none => exact h
  | some results =>
    exact List.foldlRecOn results _
      (motive := fun hits : List Hit => ∀ hit ∈ hits, ',' ∉ hit.keyword) h
      fun hits h _ _ => plain_collectEntry htag h

namespace Collecting.Sound

theorem start : ({} : Collecting).Sound where
  hits := by simp [Listed]
  nodup := List.nodup_nil
  plain := by simp
  invalid := by simp

theorem skip (h : run.Sound) : run.skip.Sound :=
  ⟨h.hits, h.nodup, h.plain, h.invalid⟩

theorem receive {response : Page} (h : run.Sound) (htag : ',' ∉ tag) :
    (run.receive mediaType tag response).Sound where
  hits about tag' := by
    rw [Collecting.receive, mem_collect, h.hits]
    simp only [Listed, List.mem_append, List.mem_singleton, Heard.page.injEq, or_and_right,
      exists_or]
    refine or_congr_right ?_
    constructor
    · rintro ⟨htype, htag', hid⟩
      exact ⟨response, ⟨htype, htag', rfl⟩, hid⟩
    · rintro ⟨_, ⟨htype, htag', rfl⟩, hid⟩
      exact ⟨htype, htag', hid⟩
  nodup := nodup_collect h.nodup
  plain := plain_collect htag h.plain
  invalid tag' := by simp [Collecting.receive, h.invalid]

theorem reject (h : run.Sound) : (run.reject tag).Sound where
  hits about tag' := by simpa [Collecting.reject, Listed] using h.hits about tag'
  nodup := h.nodup
  plain := h.plain
  invalid tag' := by
    have hmem : tag' ∈ (run.reject tag).invalid ↔ tag' ∈ run.invalid ∨ tag' = tag := by
      unfold Collecting.reject
      dsimp only
      split
      case isTrue hin =>
        refine ⟨.inl, ?_⟩
        rintro (hmem | rfl)
        · exact hmem
        · exact hin
      case isFalse => simp
    rw [hmem, h.invalid]
    simp [Collecting.reject]

end Collecting.Sound

/-! A run keeps what receiving a page, rejecting a keyword and asking in vain keep. -/

section Keeps

variable {P : Collecting → Prop} (hskip : ∀ run, P run → P run.skip)
  (hreceive : ∀ run mediaType response, P run → P (run.receive mediaType tag response))

include hskip hreceive

theorem followPages_keeps {remaining : Nat} {page : Int} (h : P run)
    (hdone : followPages tmdb mediaType tag remaining page run = .ok run') : P run' := by
  induction remaining generalizing page run with
  | zero =>
    cases hdone
    exact h
  | succ remaining ih =>
    unfold followPages at hdone
    split at hdone
    · cases hdone
    · split at hdone
      · exact ih (hreceive _ _ _ h) hdone
      · exact ih (hskip _ h) hdone

theorem sweepSorts_keeps {queryMax remaining : Nat} (h : P run)
    (hdone : sweepSorts tmdb mediaType tag queryMax remaining run = .ok run') : P run' := by
  induction remaining generalizing run with
  | zero =>
    cases hdone
    exact h
  | succ remaining ih =>
    unfold sweepSorts at hdone
    dsimp only at hdone
    split at hdone
    · cases hdone
    · split at hdone
      · split at hdone
        · exact followPages_keeps hskip hreceive (hreceive _ _ _ h) hdone
        · exact ih (hreceive _ _ _ h) hdone
      · exact ih (hskip _ h) hdone

end Keeps

/-- A fold that may stop early, and does not, keeps what its steps keep. -/
theorem foldlM_ok {α β ε : Type*} {P : β → Prop} {f : β → α → Except ε β} {l : List α} {b b' : β}
    (hb : P b) (hstep : ∀ b b', ∀ a ∈ l, P b → f b a = .ok b' → P b')
    (hdone : l.foldlM f b = .ok b') : P b' := by
  induction l generalizing b with
  | nil =>
    cases hdone
    exact hb
  | cons a l ih =>
    rw [List.foldlM_cons] at hdone
    cases ha : f b a with
    | error stop =>
      rw [ha] at hdone
      cases hdone
    | ok c =>
      rw [ha] at hdone
      have hrest : ∀ b b', ∀ a ∈ l, P b → f b a = .ok b' → P b' := fun b b' a ha =>
        hstep b b' a (List.mem_cons_of_mem _ ha)
      exact ih (hstep b c a List.mem_cons_self hb ha) hrest hdone

theorem processKeyword_keeps {pageLimit : Int} {P : Collecting → Prop}
    (hskip : ∀ run, P run → P run.skip)
    (hreceive : ∀ run mediaType response, P run → P (run.receive mediaType tag response))
    (hreject : ∀ run, P run → P (run.reject tag)) (h : P run)
    (hdone : processKeyword tmdb pageLimit run tag = .ok run') : P run' := by
  unfold processKeyword at hdone
  split at hdone
  · cases hdone
  · cases hdone
    exact hreject _ h
  · exact foldlM_ok (hskip _ h) (fun _ _ _ _ h => sweepSorts_keeps hskip hreceive h) hdone

theorem collectTags_keeps {pageLimit : Int} {setting : List Char} {P : Collecting → Prop}
    (hstart : P {}) (hskip : ∀ run, P run → P run.skip)
    (hreceive : ∀ run mediaType response, ∀ tag ∈ tagsOf setting, P run →
      P (run.receive mediaType tag response))
    (hreject : ∀ run, ∀ tag ∈ tagsOf setting, P run → P (run.reject tag))
    (hdone : collectTags tmdb pageLimit setting = .ok run) : P run := by
  unfold collectTags at hdone
  split at hdone
  · cases hdone
    exact hstart
  · refine foldlM_ok hstart (fun _ _ tag htag h => ?_) hdone
    exact processKeyword_keeps hskip (fun _ _ _ => hreceive _ _ _ tag htag)
      (fun _ => hreject _ tag htag) h

/-- **A run that collects everything has what it was told.** -/
theorem sound_of_collectTags {pageLimit : Int} {setting : List Char}
    (hdone : collectTags tmdb pageLimit setting = .ok run) : run.Sound :=
  collectTags_keeps .start (fun _ h => h.skip)
    (fun _ _ _ _ htag h => h.receive (Delimited.not_mem_of_mem_splitOn htag))
    (fun _ _ _ h => h.reject) hdone

/-- The invalid keywords are keywords of the setting. -/
theorem invalid_subset {pageLimit : Int} {setting : List Char}
    (hdone : collectTags tmdb pageLimit setting = .ok run) : run.invalid ⊆ tagsOf setting := by
  refine collectTags_keeps (P := fun run => run.invalid ⊆ tagsOf setting) (List.nil_subset _)
    (fun _ h => h) (fun _ _ _ _ _ h => h) (fun run tag htag h => ?_) hdone
  unfold Collecting.reject
  dsimp only
  split
  · exact h
  · exact List.append_subset.2 ⟨h, List.cons_subset.2 ⟨htag, List.nil_subset _⟩⟩

end Collect

/-! ## The setting -/

/-- **What the setting is written to**, where a keyword is invalid, is the setting read at
the start without what TMDB does not know. -/
theorem cleaned_eq {run : Collecting} (h : run.Sound) (setting : List Char) :
    cleaned setting run.invalid = withoutUnknown run.heard setting := by
  unfold cleaned withoutUnknown
  congr 2
  funext tag
  simp only [h.invalid]

/-- A setting with an invalid keyword is written. -/
theorem cleaned_ne {setting : List Char} {invalid : List Tag} (hsub : invalid ⊆ tagsOf setting)
    (hne : invalid ≠ []) (hsetting : setting ≠ []) : cleaned setting invalid ≠ setting := by
  intro heq
  obtain ⟨tag, hin⟩ := List.exists_mem_of_ne_nil _ hne
  by_cases hnil : (tagsOf setting).filter (fun tag => tag ∉ invalid) = []
  · rw [cleaned, hnil] at heq
    exact hsetting heq.symm
  · have hsplit : tagsOf (cleaned setting invalid)
        = (tagsOf setting).filter fun tag => tag ∉ invalid :=
      List.splitOn_intercalate ','
        (fun l hl => Delimited.not_mem_of_mem_splitOn (List.mem_of_mem_filter hl)) hnil
    have hmem := hsub hin
    rw [← heq, hsplit] at hmem
    have hout := (List.mem_filter.1 hmem).2
    exact absurd hin (by simpa using hout)

/-- Where TMDB knows every keyword, the setting stays. -/
theorem withoutUnknown_of_forall {heard : List Heard} {setting : List Char}
    (h : ∀ tag, .unknown tag ∉ heard) : withoutUnknown heard setting = setting := by
  unfold withoutUnknown settingOf
  rw [List.filter_eq_self.2 fun tag _ => by simpa using h tag]
  exact List.intercalate_splitOn ','

/-! ## The tables -/

/-- What the schema promises: ids and the titles of the blocklist are unique, new ids
are new, and an entry refers to a media row there is. -/
structure Db.Valid (db : Db) : Prop where
  ids : (db.blocklist.map (·.id)).Nodup
  titles : (db.blocklist.map Entry.about).Nodup
  entry_lt : ∀ e ∈ db.blocklist, e.id < db.nextEntry
  media_lt : ∀ m ∈ db.media, m.id < db.nextMedia
  refers : ∀ e ∈ db.blocklist, ∀ id ∈ e.mediaId, ∃ m ∈ db.media, m.id = id

/-- The entries and the media rows belong together: the entries with tags, and no others,
refer to a media row of a title that has one. -/
def Db.Linked (db : Db) : Prop :=
  ∀ e ∈ db.blocklist, e.blocklistedTags.isSome ↔ ∃ id ∈ e.mediaId, id ∈ db.doomed

/-- What becomes of the rows of a database, which may change and get new ones next to
them: entries stay what they are about, with their media rows and with tags or without. -/
structure Db.Grown (before after : Db) : Prop where
  nextMedia : before.nextMedia ≤ after.nextMedia
  nextEntry : before.nextEntry ≤ after.nextEntry
  kept : ∀ e ∈ before.blocklist, ∃ e' ∈ after.blocklist, e'.id = e.id ∧ e'.about = e.about ∧
    e'.mediaId = e.mediaId ∧ e'.blocklistedTags.isSome = e.blocklistedTags.isSome
  entries : ∀ e' ∈ after.blocklist, e'.id < before.nextEntry → ∃ e ∈ before.blocklist, e.id = e'.id
  media : ∀ m' ∈ after.media, m'.id < before.nextMedia →
    ∃ m ∈ before.media, m.id = m'.id ∧ titleOf m = titleOf m'

namespace Db

variable {db a b c : Db} {hit : Hit} {now : String} {e : Entry}

theorem Grown.refl (db : Db) : db.Grown db :=
  ⟨le_rfl, le_rfl, fun e he => ⟨e, he, rfl, rfl, rfl, rfl⟩, fun e he _ => ⟨e, he, rfl⟩,
    fun m hm _ => ⟨m, hm, rfl, rfl⟩⟩

theorem Grown.trans (hab : a.Grown b) (hbc : b.Grown c) : a.Grown c where
  nextMedia := hab.nextMedia.trans hbc.nextMedia
  nextEntry := hab.nextEntry.trans hbc.nextEntry
  kept e he := by
    obtain ⟨e₁, he₁, hid₁, habout₁, hmedia₁, htags₁⟩ := hab.kept e he
    obtain ⟨e₂, he₂, hid₂, habout₂, hmedia₂, htags₂⟩ := hbc.kept e₁ he₁
    exact ⟨e₂, he₂, hid₂.trans hid₁, habout₂.trans habout₁, hmedia₂.trans hmedia₁,
      htags₂.trans htags₁⟩
  entries e he hlt := by
    obtain ⟨e₁, he₁, hid₁⟩ := hbc.entries e he (hlt.trans_le hab.nextEntry)
    obtain ⟨e₂, he₂, hid₂⟩ := hab.entries e₁ he₁ (hid₁.symm ▸ hlt)
    exact ⟨e₂, he₂, hid₂.trans hid₁⟩
  media m hm hlt := by
    obtain ⟨m₁, hm₁, hid₁, htitle₁⟩ := hbc.media m hm (hlt.trans_le hab.nextMedia)
    obtain ⟨m₂, hm₂, hid₂, htitle₂⟩ := hab.media m₁ hm₁ (hid₁.symm ▸ hlt)
    exact ⟨m₂, hm₂, hid₂.trans hid₁, htitle₂.trans htitle₁⟩

theorem findEntry_some {about : Title} (h : db.findEntry about = some e) :
    e ∈ db.blocklist ∧ e.about = about :=
  ⟨List.mem_of_find?_eq_some h, by simpa using List.find?_some h⟩

theorem findEntry_none {about : Title} (h : db.findEntry about = none) :
    ∀ e ∈ db.blocklist, e.about ≠ about := by
  simpa [findEntry] using h

theorem findMedia_some {about : Title} {m : MediaRow} (h : db.findMedia about = some m) :
    m ∈ db.media ∧ titleOf m = about :=
  ⟨List.mem_of_find?_eq_some h, by simpa using List.find?_some h⟩

/-- The entry `add_to_blocklist` leaves. -/
def newEntry (db : Db) (hit : Hit) (now : String) : Entry where
  id := db.nextEntry
  mediaType := hit.mediaType
  title := hit.title
  tmdbId := hit.tmdbId
  blocklistedTags := some (Delimited.mark ',' hit.keyword)
  mediaId := some (db.blockTitle hit now).2
  createdAt := some now

/-- What `add_to_blocklist` does to the blocklist is one row at its end. -/
theorem addToBlocklist_eq (h : db.Valid) : db.addToBlocklist hit now =
    { (db.blockTitle hit now).1 with
      blocklist := db.blocklist ++ [db.newEntry hit now], nextEntry := db.nextEntry + 1 } := by
  have hkept : ∀ f : Entry → Entry,
      db.blocklist.map (fun e => if e.id = db.nextEntry then f e else e) = db.blocklist :=
    fun f => (List.map_congr_left fun e he => if_neg (h.entry_lt e he).ne).trans (List.map_id _)
  unfold addToBlocklist newEntry blockTitle insertEntry findMedia
  dsimp only
  cases db.media.find? fun m => titleOf m == hit.about with
  | none => simp [updateEntry, insertMedia, hkept]
  | some m =>
    dsimp only
    split
    · simp [updateEntry, blockMedia, hkept]
    · simp [updateEntry, hkept]

/-- The media row is blocklisted in both qualities. -/
def IsBlocked (m : MediaRow) : Prop :=
  m.status = MediaStatus.blocklisted ∧ m.status4k = MediaStatus.blocklisted

/-- What blocklisting a title's media row does to the media rows. -/
structure Blocked (before : Db) (about : Title) (mediaId : Int) (after : Db) : Prop where
  next : before.nextMedia ≤ after.nextMedia
  lt : ∀ m' ∈ after.media, m'.id < after.nextMedia
  kept : ∀ m ∈ before.media, ∃ m' ∈ after.media, m'.id = m.id ∧ titleOf m' = titleOf m ∧
    (IsBlocked m → IsBlocked m')
  old : ∀ m' ∈ after.media, m'.id < before.nextMedia →
    ∃ m ∈ before.media, m.id = m'.id ∧ titleOf m = titleOf m'
  blocked : ∃ m' ∈ after.media, m'.id = mediaId ∧ titleOf m' = about ∧ IsBlocked m'

theorem blocked_blockMedia (h : db.Valid) {m : MediaRow} (hm : m ∈ db.media) :
    Blocked db (titleOf m) m.id (db.blockMedia m.id now) := by
  have hrow : ∀ m₁ ∈ db.media, ∃ m' ∈ (db.blockMedia m.id now).media,
      m'.id = m₁.id ∧ titleOf m' = titleOf m₁ ∧ (m₁.id = m.id ∨ IsBlocked m₁ → IsBlocked m') := by
    intro m₁ hm₁
    refine ⟨_, List.mem_map_of_mem hm₁, ?_⟩
    by_cases hid : m₁.id = m.id
    · rw [if_pos hid]
      exact ⟨rfl, rfl, fun _ => ⟨rfl, rfl⟩⟩
    · rw [if_neg hid]
      exact ⟨rfl, rfl, fun hor => hor.resolve_left hid⟩
  have hback : ∀ m' ∈ (db.blockMedia m.id now).media,
      ∃ m₁ ∈ db.media, m₁.id = m'.id ∧ titleOf m₁ = titleOf m' := by
    intro m' hm'
    obtain ⟨m₁, hm₁, rfl⟩ := List.mem_map.1 hm'
    refine ⟨m₁, hm₁, ?_⟩
    split
    · exact ⟨rfl, rfl⟩
    · exact ⟨rfl, rfl⟩
  refine ⟨le_rfl, fun m' hm' => ?_, fun m₁ hm₁ => ?_, fun m' hm' _ => hback m' hm', ?_⟩
  · obtain ⟨m₁, hm₁, hid, -⟩ := hback m' hm'
    exact hid ▸ h.media_lt m₁ hm₁
  · obtain ⟨m', hm', hid, htitle, hblocked⟩ := hrow m₁ hm₁
    exact ⟨m', hm', hid, htitle, fun hb => hblocked (.inr hb)⟩
  · obtain ⟨m', hm', hid, htitle, hblocked⟩ := hrow m hm
    exact ⟨m', hm', hid, htitle, hblocked (.inl rfl)⟩

theorem blocked_insertMedia (h : db.Valid) :
    Blocked db hit.about db.nextMedia (db.insertMedia hit now) := by
  refine ⟨(Int.lt_succ _).le, fun m' hm' => ?_, fun m hm => ?_, fun m' hm' hlt => ?_, ?_⟩
  · rcases List.mem_append.1 hm' with hm' | hm'
    · exact (h.media_lt m' hm').trans (Int.lt_succ _)
    · rw [List.mem_singleton.1 hm']
      exact Int.lt_succ _
  · exact ⟨m, List.mem_append_left _ hm, rfl, rfl, id⟩
  · rcases List.mem_append.1 hm' with hm' | hm'
    · exact ⟨m', hm', rfl, rfl⟩
    · rw [List.mem_singleton.1 hm'] at hlt
      exact absurd hlt (lt_irrefl _)
  · exact ⟨_, List.mem_append_right _ (List.mem_singleton_self _), rfl, rfl, rfl, rfl⟩

/-- **The title's media row is blocklisted**, and no other is touched. -/
theorem blocked_blockTitle (h : db.Valid) (hit : Hit) (now : String) :
    Blocked db hit.about (db.blockTitle hit now).2 (db.blockTitle hit now).1 := by
  unfold blockTitle
  split
  case h_1 m hfound =>
    obtain ⟨hm, habout⟩ := findMedia_some hfound
    rw [← habout]
    split
    case isTrue => exact blocked_blockMedia h hm
    case isFalse hblocked =>
      have hself : IsBlocked m := by simpa [IsBlocked] using hblocked
      exact ⟨le_rfl, h.media_lt, fun m₁ hm₁ => ⟨m₁, hm₁, rfl, rfl, id⟩,
        fun m' hm' _ => ⟨m', hm', rfl, rfl⟩, ⟨m, hm, rfl, rfl, hself⟩⟩
  case h_2 => exact blocked_insertMedia h

theorem addToBlocklist_grown (h : db.Valid) : db.Grown (db.addToBlocklist hit now) := by
  have hblocked := blocked_blockTitle h hit now
  rw [addToBlocklist_eq h]
  refine ⟨hblocked.next, (Int.lt_succ _).le, fun e he => ?_, fun e he hlt => ?_, hblocked.old⟩
  · exact ⟨e, List.mem_append_left _ he, rfl, rfl, rfl, rfl⟩
  · rcases List.mem_append.1 he with he | he
    · exact ⟨e, he, rfl⟩
    · rw [List.mem_singleton.1 he] at hlt
      exact absurd hlt (lt_irrefl _)

theorem addToBlocklist_valid (h : db.Valid) (now : String) (hnone : db.findEntry hit.about = none) :
    (db.addToBlocklist hit now).Valid := by
  have hblocked := blocked_blockTitle h hit now
  rw [addToBlocklist_eq h]
  refine ⟨?_, ?_, fun e he => ?_, hblocked.lt, fun e he id hid => ?_⟩
  · rw [List.map_append, List.nodup_append_comm, List.map_singleton, List.singleton_append,
      List.nodup_cons]
    refine ⟨fun hmem => ?_, h.ids⟩
    obtain ⟨e, he, hid⟩ := List.mem_map.1 hmem
    exact (h.entry_lt e he).ne hid
  · rw [List.map_append, List.nodup_append_comm, List.map_singleton, List.singleton_append,
      List.nodup_cons]
    refine ⟨fun hmem => ?_, h.titles⟩
    obtain ⟨e, he, habout⟩ := List.mem_map.1 hmem
    exact findEntry_none hnone e he habout
  · rcases List.mem_append.1 he with he | he
    · exact (h.entry_lt e he).trans (Int.lt_succ _)
    · rw [List.mem_singleton.1 he]
      exact Int.lt_succ _
  · rcases List.mem_append.1 he with he | he
    · obtain ⟨m, hm, hmid⟩ := h.refers e he id hid
      obtain ⟨m', hm', hmid', -⟩ := hblocked.kept m hm
      exact ⟨m', hm', hmid'.trans hmid⟩
    · rw [List.mem_singleton.1 he] at hid
      obtain ⟨m', hm', hmid', -⟩ := hblocked.blocked
      exact ⟨m', hm', hmid'.trans (Option.some.inj hid)⟩

/-- Tags written to an entry that has some. -/
theorem updateTags_row {id : Int} {tags : List Char} (e₁ : Entry) :
    let e' := if e₁.id = id then e₁.withTags tags else e₁
    e'.id = e₁.id ∧ e'.about = e₁.about ∧ e'.mediaId = e₁.mediaId := by
  dsimp only
  split
  · exact ⟨rfl, rfl, rfl⟩
  · exact ⟨rfl, rfl, rfl⟩

theorem updateTags_valid (h : db.Valid) {id : Int} {tags : List Char} :
    (db.updateEntry id (·.withTags tags)).Valid := by
  have hids : (db.updateEntry id (·.withTags tags)).blocklist.map (·.id)
      = db.blocklist.map (·.id) := by
    rw [updateEntry, List.map_map]
    exact List.map_congr_left fun e _ => (updateTags_row e).1
  have htitles : (db.updateEntry id (·.withTags tags)).blocklist.map Entry.about
      = db.blocklist.map Entry.about := by
    rw [updateEntry, List.map_map]
    exact List.map_congr_left fun e _ => (updateTags_row e).2.1
  refine ⟨hids ▸ h.ids, htitles ▸ h.titles, fun e he => ?_, h.media_lt, fun e he id' hid => ?_⟩
  · obtain ⟨e₁, he₁, rfl⟩ := List.mem_map.1 he
    rw [(updateTags_row e₁).1]
    exact h.entry_lt e₁ he₁
  · obtain ⟨e₁, he₁, rfl⟩ := List.mem_map.1 he
    rw [(updateTags_row e₁).2.2] at hid
    exact h.refers e₁ he₁ id' hid

theorem updateTags_grown (h : db.Valid) (he : e ∈ db.blocklist) (htags : e.blocklistedTags.isSome)
    {tags : List Char} :
    db.Grown (db.updateEntry e.id (·.withTags tags)) := by
  refine ⟨le_rfl, le_rfl, fun e₁ he₁ => ?_, fun e' he' _ => ?_, fun m hm _ => ⟨m, hm, rfl, rfl⟩⟩
  · refine ⟨_, List.mem_map_of_mem he₁, ?_⟩
    by_cases hid : e₁.id = e.id
    · rw [if_pos hid, List.inj_on_of_nodup_map h.ids he₁ he hid, htags]
      exact ⟨rfl, rfl, rfl, rfl⟩
    · rw [if_neg hid]
      exact ⟨rfl, rfl, rfl, rfl⟩
  · obtain ⟨e₁, he₁, rfl⟩ := List.mem_map.1 he'
    exact ⟨e₁, he₁, (updateTags_row e₁).1.symm⟩

/-- What `process_hit` can do. -/
theorem processHit_cases (now : String) (db : Db) (hit : Hit) :
    (db.findEntry hit.about = none ∧ processHit now db hit = db.addToBlocklist hit now) ∨
    (∃ e ∈ db.blocklist, e.about = hit.about ∧ e.blocklistedTags = none ∧
      processHit now db hit = db) ∨
    ∃ e ∈ db.blocklist, e.about = hit.about ∧ ∃ tags, e.blocklistedTags = some tags ∧
      ((tags = [] ∨ Delimited.mark ',' hit.keyword <:+: tags) ∧ processHit now db hit = db ∨
        (tags ≠ [] ∧ ¬ Delimited.mark ',' hit.keyword <:+: tags) ∧ processHit now db hit =
          db.updateEntry e.id (·.withTags (tags ++ (hit.keyword ++ [','])))) := by
  unfold processHit
  cases hfound : db.findEntry hit.about with
  | none => exact .inl ⟨rfl, rfl⟩
  | some e =>
    obtain ⟨he, habout⟩ := findEntry_some hfound
    dsimp only
    cases htags : e.blocklistedTags with
    | none => exact .inr (.inl ⟨e, he, habout, htags, rfl⟩)
    | some tags =>
      refine .inr (.inr ⟨e, he, habout, tags, htags, ?_⟩)
      dsimp only
      split
      case isTrue hadd => exact .inr ⟨hadd, rfl⟩
      case isFalse hadd => exact .inl ⟨by tauto, rfl⟩

theorem processHit_valid (h : db.Valid) : (processHit now db hit).Valid := by
  rcases processHit_cases now db hit with ⟨hnone, heq⟩ | ⟨-, -, -, -, heq⟩ |
    ⟨e, -, -, tags, -, ⟨-, heq⟩ | ⟨-, heq⟩⟩
  · rw [heq]
    exact addToBlocklist_valid h _ hnone
  · rw [heq]
    exact h
  · rw [heq]
    exact h
  · rw [heq]
    exact updateTags_valid h

theorem processHit_grown (h : db.Valid) : db.Grown (processHit now db hit) := by
  rcases processHit_cases now db hit with ⟨-, heq⟩ | ⟨-, -, -, -, heq⟩ |
    ⟨e, he, -, tags, htags, ⟨-, heq⟩ | ⟨-, heq⟩⟩
  · rw [heq]
    exact addToBlocklist_grown h
  · rw [heq]
    exact .refl db
  · rw [heq]
    exact .refl db
  · rw [heq]
    exact updateTags_grown h he (by rw [htags]; rfl)

theorem processHits_grown (h : db.Valid) (hits : List Hit) :
    db.Grown (hits.foldl (processHit now) db) := by
  induction hits generalizing db with
  | nil => exact .refl db
  | cons hit hits ih => exact (processHit_grown h).trans (ih (processHit_valid h))

/-- **Cleaning keeps the schema's promises**: an entry whose media row goes, goes. -/
theorem deleteMedia_valid (h : db.Valid) (ids : List Int) : (db.deleteMedia ids).Valid where
  ids := h.ids.sublist (List.filter_sublist.map _)
  titles := h.titles.sublist (List.filter_sublist.map _)
  entry_lt e he := h.entry_lt e (List.mem_of_mem_filter he)
  media_lt m hm := h.media_lt m (List.mem_of_mem_filter hm)
  refers e he id hid := by
    obtain ⟨he, hkept⟩ := List.mem_filter.1 he
    obtain ⟨m, hm, rfl⟩ := h.refers e he id hid
    exact ⟨m, List.mem_filter.2 ⟨hm, decide_eq_true (of_decide_eq_true hkept m.id hid)⟩, rfl⟩

theorem mem_doomed {id : Int} : id ∈ db.doomed ↔ ∃ m ∈ db.media, m.id = id ∧
    ∃ e ∈ db.blocklist, e.about = titleOf m ∧ e.blocklistedTags.isSome := by
  simp only [doomed, List.mem_map, List.mem_filter, List.any_eq_true, Bool.and_eq_true, beq_iff_eq]
  constructor
  · rintro ⟨m, ⟨hm, e, he, habout, htags⟩, rfl⟩
    exact ⟨m, hm, rfl, e, he, habout, htags⟩
  · rintro ⟨m, hm, rfl, e, he, habout, htags⟩
    exact ⟨m, ⟨hm, e, he, habout, htags⟩, rfl⟩

theorem mem_cleaned : e ∈ (db.deleteMedia db.doomed).blocklist ↔
    e ∈ db.blocklist ∧ ¬ ∃ id ∈ e.mediaId, id ∈ db.doomed := by
  simp [deleteMedia]

/-- **Entries that do not belong with their media rows show after a write**: an entry
without tags that goes is missed, and one with tags that stays has no media row. -/
theorem linked_of_replaces {heard : List Heard} {hits : List Hit} (h : db.Valid)
    (hreplaces : Replaces heard db (db.write hits now)) : db.Linked := by
  have hvalid := deleteMedia_valid h db.doomed
  have hgrown : (db.deleteMedia db.doomed).Grown (db.write hits now) :=
    processHits_grown hvalid hits
  intro e he
  constructor
  · intro htags
    by_contra hnot
    obtain ⟨e', he', -, habout, hmedia, htags'⟩ := hgrown.kept e (mem_cleaned.2 ⟨he, hnot⟩)
    obtain ⟨m', hm', hid, htitle, -⟩ := hreplaces.media e' he' (htags'.trans htags)
    rw [hmedia] at hid
    have hold : m'.id < db.nextMedia := by
      obtain ⟨m, hm, hmid⟩ := h.refers e he m'.id hid
      exact hmid ▸ h.media_lt m hm
    obtain ⟨m, hm, hmid, hmtitle⟩ := hgrown.media m' hm' hold
    refine hnot ⟨m'.id, hid, mem_doomed.2 ⟨m, List.mem_of_mem_filter hm, hmid, e, he, ?_, htags⟩⟩
    rw [hmtitle, htitle, habout]
  · rintro ⟨id, hid, hdoomed⟩
    by_contra hnone
    have hmanual : e ∈ db.blocklist.filter (·.blocklistedTags.isNone) :=
      List.mem_filter.2 ⟨he, by simpa using hnone⟩
    rw [← hreplaces.manual] at hmanual
    obtain ⟨e₁, he₁, heid⟩ := hgrown.entries e (List.mem_of_mem_filter hmanual) (h.entry_lt e he)
    obtain ⟨hmem, hkept⟩ := mem_cleaned.1 he₁
    rw [List.inj_on_of_nodup_map h.ids hmem he heid] at hkept
    exact hkept ⟨id, hid, hdoomed⟩

/-! ## Rebuilding the tagged entries -/

/-- The keywords of a title among the hits. -/
def wordsOf (hits : List Hit) (about : Title) : List Tag :=
  (hits.filter fun hit => hit.about = about).map (·.keyword)

/-- **How far the entries are rebuilt** from a blocklist without tags: the titles of the
hits so far, unless they have an entry, each with its keywords and its media row. -/
structure Rebuilt (base : Db) (hits : List Hit) (db : Db) : Prop where
  valid : db.Valid
  manual : db.blocklist.filter (·.blocklistedTags.isNone) = base.blocklist
  tagged : ∀ about, (∃ e ∈ db.blocklist, e.about = about ∧ e.blocklistedTags.isSome) ↔
    (∃ hit ∈ hits, hit.about = about) ∧ ∀ e ∈ base.blocklist, e.about ≠ about
  tags : ∀ e ∈ db.blocklist, ∀ text ∈ e.blocklistedTags,
    text = Delimited.text ',' (wordsOf hits e.about)
  media : ∀ e ∈ db.blocklist, e.blocklistedTags.isSome → ∃ m ∈ db.media,
    e.mediaId = some m.id ∧ titleOf m = e.about ∧ IsBlocked m

variable {base : Db} {hits : List Hit}

theorem wordsOf_append (about : Title) : wordsOf (hits ++ [hit]) about =
    wordsOf hits about ++ if hit.about = about then [hit.keyword] else [] := by
  unfold wordsOf
  rw [List.filter_append, List.map_append]
  congr 1
  split
  case isTrue h => simp [h]
  case isFalse h => simp [h]

theorem wordsOf_of_ne {about : Title} (h : hit.about ≠ about) :
    wordsOf (hits ++ [hit]) about = wordsOf hits about := by
  rw [wordsOf_append, if_neg h, List.append_nil]

theorem mem_wordsOf {about : Title} {tag : Tag} :
    tag ∈ wordsOf hits about ↔ (about, tag) ∈ hits.map Hit.key := by
  simp only [wordsOf, List.mem_map, List.mem_filter, decide_eq_true_eq, Hit.key, Prod.mk.injEq]
  exact exists_congr fun hit => and_assoc

theorem nodup_wordsOf (h : (hits.map Hit.key).Nodup) (about : Title) :
    (wordsOf hits about).Nodup := by
  refine List.Nodup.map_on ?_ ((List.Nodup.of_map _ h).filter _)
  intro a ha b hb hkeyword
  obtain ⟨ha, haabout⟩ := List.mem_filter.1 ha
  obtain ⟨hb, hbabout⟩ := List.mem_filter.1 hb
  refine List.inj_on_of_nodup_map h ha hb (Prod.ext ?_ hkeyword)
  exact (of_decide_eq_true haabout).trans (of_decide_eq_true hbabout).symm

namespace Rebuilt

theorem mem_of_base (h : Rebuilt base hits db) (he : e ∈ base.blocklist) :
    e ∈ db.blocklist ∧ e.blocklistedTags = none := by
  rw [← h.manual] at he
  exact ⟨List.mem_of_mem_filter he, by simpa using List.of_mem_filter he⟩

/-- Of two entries of one title there is one. -/
theorem eq_of_about (h : Rebuilt base hits db) {e' : Entry} (he : e ∈ db.blocklist)
    (he' : e' ∈ db.blocklist) (habout : e.about = e'.about) : e = e' :=
  List.inj_on_of_nodup_map h.valid.titles he he' habout

/-- A title without an entry is added. -/
theorem add (h : Rebuilt base hits db) (hnone : db.findEntry hit.about = none) :
    Rebuilt base (hits ++ [hit]) (db.addToBlocklist hit now) := by
  have hne := findEntry_none hnone
  have hbase : ∀ e ∈ base.blocklist, e.about ≠ hit.about := fun e he => hne e (h.mem_of_base he).1
  have hfresh : wordsOf hits hit.about = [] := by
    refine List.eq_nil_iff_forall_not_mem.2 fun tag htag => ?_
    obtain ⟨hit', hhit', hkey⟩ := List.mem_map.1 (mem_wordsOf.1 htag)
    obtain ⟨e, he, habout, -⟩ :=
      (h.tagged hit.about).2 ⟨⟨hit', hhit', congrArg Prod.fst hkey⟩, hbase⟩
    exact hne e he habout
  have hvalid := addToBlocklist_valid h.valid now hnone
  have hblocked := blocked_blockTitle h.valid hit now
  rw [addToBlocklist_eq h.valid] at hvalid ⊢
  refine ⟨hvalid, ?_, fun about => ?_, fun e he text htext => ?_, fun e he htags => ?_⟩
  · rw [List.filter_append, h.manual]
    exact List.append_nil _
  · have hnew : (∃ e ∈ db.blocklist ++ [db.newEntry hit now],
        e.about = about ∧ e.blocklistedTags.isSome) ↔
          (∃ e ∈ db.blocklist, e.about = about ∧ e.blocklistedTags.isSome) ∨ hit.about = about := by
      simp only [List.mem_append, List.mem_singleton, or_and_right, exists_or, exists_eq_left]
      exact or_congr_right (and_iff_left rfl)
    rw [hnew, h.tagged]
    simp only [List.mem_append, List.mem_singleton, or_and_right, exists_or, exists_eq_left]
    refine or_congr_right ⟨fun heq => ⟨heq, heq ▸ hbase⟩, And.left⟩
  · rcases List.mem_append.1 he with he | he
    · rw [wordsOf_of_ne (hne e he).symm]
      exact h.tags e he text htext
    · cases List.mem_singleton.1 he
      cases htext
      rw [show (db.newEntry hit now).about = hit.about from rfl, wordsOf_append, hfresh, if_pos rfl,
        List.nil_append, Delimited.text_singleton]
  · rcases List.mem_append.1 he with he | he
    · obtain ⟨m, hm, hid, htitle, hmblocked⟩ := h.media e he htags
      obtain ⟨m', hm', hid', htitle', hkeep⟩ := hblocked.kept m hm
      exact ⟨m', hm', hid.trans (congrArg some hid'.symm), htitle'.trans htitle, hkeep hmblocked⟩
    · cases List.mem_singleton.1 he
      obtain ⟨m', hm', hid, htitle, hmblocked⟩ := hblocked.blocked
      exact ⟨m', hm', congrArg some hid.symm, htitle, hmblocked⟩

/-- A title with an entry without tags is left to it. -/
theorem leave (h : Rebuilt base hits db) (he : e ∈ db.blocklist) (habout : e.about = hit.about)
    (hmanual : e.blocklistedTags = none) : Rebuilt base (hits ++ [hit]) db := by
  have hbase : e ∈ base.blocklist := by
    rw [← h.manual]
    exact List.mem_filter.2 ⟨he, by rw [hmanual]; rfl⟩
  refine ⟨h.valid, h.manual, fun about => ?_, fun e' he' text htext => ?_, h.media⟩
  · rw [h.tagged]
    simp only [List.mem_append, List.mem_singleton, or_and_right, exists_or, exists_eq_left]
    refine (or_iff_left ?_).symm
    rintro ⟨heq, hno⟩
    exact hno e hbase (habout.trans heq)
  · rw [wordsOf_of_ne]
    · exact h.tags e' he' text htext
    · intro heq
      rw [h.eq_of_about he' he (heq.symm.trans habout.symm), hmanual] at htext
      cases htext

/-- Writing an entry's tags changes nothing of the entries without any. -/
theorem manual_updateTags (h : db.Valid) (he : e ∈ db.blocklist) (htags : e.blocklistedTags.isSome)
    {tags : List Char} :
    (db.updateEntry e.id (·.withTags tags)).blocklist.filter (·.blocklistedTags.isNone)
      = db.blocklist.filter (·.blocklistedTags.isNone) := by
  have hrow : ∀ e₁ ∈ db.blocklist, e₁.id = e.id → e₁.blocklistedTags.isNone = false := by
    intro e₁ he₁ hid
    rw [List.inj_on_of_nodup_map h.ids he₁ he hid]
    simpa using htags
  rw [updateEntry, List.filter_map]
  have hsame : (db.blocklist.filter ((fun e => e.blocklistedTags.isNone) ∘ fun e₁ =>
      if e₁.id = e.id then e₁.withTags tags else e₁))
        = db.blocklist.filter (·.blocklistedTags.isNone) := by
    refine List.filter_congr fun e₁ he₁ => ?_
    rw [Function.comp_apply]
    split
    case isTrue hid => exact (hrow e₁ he₁ hid).symm
    case isFalse => rfl
  rw [hsame]
  refine (List.map_congr_left fun e₁ he₁ => if_neg fun hid => ?_).trans (List.map_id _)
  obtain ⟨he₁, hnone⟩ := List.mem_filter.1 he₁
  exact absurd hnone (by rw [hrow e₁ he₁ hid]; exact Bool.false_ne_true)

/-- A title with an entry with tags gets one more. -/
theorem extend (h : Rebuilt base hits db) (he : e ∈ db.blocklist) (habout : e.about = hit.about)
    {tags : List Char} (htags : e.blocklistedTags = some tags) :
    Rebuilt base (hits ++ [hit])
      (db.updateEntry e.id (·.withTags (tags ++ (hit.keyword ++ [','])))) := by
  have hsome : e.blocklistedTags.isSome := by rw [htags]; rfl
  have hself : ∀ e₁ ∈ db.blocklist, e₁.id = e.id → e₁ = e := fun e₁ he₁ hid =>
    List.inj_on_of_nodup_map h.valid.ids he₁ he hid
  refine ⟨updateTags_valid h.valid, ?_, fun about => ?_, fun e' he' text htext => ?_,
    fun e' he' htags' => ?_⟩
  · rw [manual_updateTags h.valid he hsome, h.manual]
  · have hrow : ∀ e₁ ∈ db.blocklist, ((if e₁.id = e.id then
        e₁.withTags (tags ++ (hit.keyword ++ [','])) else e₁).about = about ∧
          (if e₁.id = e.id then e₁.withTags (tags ++ (hit.keyword ++ [','])) else
            e₁).blocklistedTags.isSome) ↔ e₁.about = about ∧ e₁.blocklistedTags.isSome := by
      intro e₁ he₁
      split
      case isTrue hid =>
        rw [hself e₁ he₁ hid]
        exact and_congr_right fun _ => ⟨fun _ => hsome, fun _ => rfl⟩
      case isFalse => rfl
    have hrows : (∃ e' ∈ (db.updateEntry e.id
        (·.withTags (tags ++ (hit.keyword ++ [','])))).blocklist,
          e'.about = about ∧ e'.blocklistedTags.isSome) ↔
            ∃ e' ∈ db.blocklist, e'.about = about ∧ e'.blocklistedTags.isSome := by
      constructor
      · rintro ⟨e', he', hdesc⟩
        obtain ⟨e₁, he₁, rfl⟩ := List.mem_map.1 he'
        exact ⟨e₁, he₁, (hrow e₁ he₁).1 hdesc⟩
      · rintro ⟨e₁, he₁, hdesc⟩
        exact ⟨_, List.mem_map_of_mem he₁, (hrow e₁ he₁).2 hdesc⟩
    rw [hrows, h.tagged]
    simp only [List.mem_append, List.mem_singleton, or_and_right, exists_or, exists_eq_left]
    refine (or_iff_left_of_imp ?_).symm
    rintro ⟨heq, -⟩
    exact (h.tagged about).1 ⟨e, he, habout.trans heq, hsome⟩
  · obtain ⟨e₁, he₁, rfl⟩ := List.mem_map.1 he'
    by_cases hid : e₁.id = e.id
    · rw [if_pos hid] at htext ⊢
      cases htext
      have hwords := h.tags e he tags htags
      have hsame : e₁.about = e.about := congrArg Entry.about (hself e₁ he₁ hid)
      rw [show (e₁.withTags (tags ++ (hit.keyword ++ [',']))).about = e.about from hsame,
        wordsOf_append, if_pos habout.symm, Delimited.text_append, ← hwords]
    · rw [if_neg hid] at htext ⊢
      rw [wordsOf_of_ne]
      · exact h.tags e₁ he₁ text htext
      · intro heq
        exact hid (congrArg Entry.id (h.eq_of_about he₁ he (heq.symm.trans habout.symm)))
  · obtain ⟨e₁, he₁, rfl⟩ := List.mem_map.1 he'
    by_cases hid : e₁.id = e.id
    · rw [if_pos hid, hself e₁ he₁ hid]
      exact h.media e he hsome
    · rw [if_neg hid] at htags' ⊢
      exact h.media e₁ he₁ htags'

/-- **One hit.** -/
theorem processHit (h : Rebuilt base hits db) (hplain : ∀ hit' ∈ hits ++ [hit], ',' ∉ hit'.keyword)
    (hnodup : ((hits ++ [hit]).map Hit.key).Nodup) :
    Rebuilt base (hits ++ [hit]) (processHit now db hit) := by
  rcases processHit_cases now db hit with ⟨hnone, heq⟩ | ⟨e, he, habout, hmanual, heq⟩ |
    ⟨e, he, habout, tags, htags, ⟨hkept, -⟩ | ⟨-, heq⟩⟩
  · rw [heq]
    exact h.add hnone
  · rw [heq]
    exact h.leave he habout hmanual
  · -- the entry's tags are the title's keywords so far, and this is not one of them
    have hwords := h.tags e he tags htags
    have hnew : hit.keyword ∉ wordsOf hits hit.about := by
      rw [mem_wordsOf]
      rw [List.map_append, List.nodup_append_comm, List.map_singleton, List.singleton_append,
        List.nodup_cons] at hnodup
      exact hnodup.1
    rcases hkept with hnil | hinfix
    · exact absurd (hwords.symm.trans hnil) Delimited.text_ne_nil
    · rw [hwords, habout, Delimited.mark_infix_text_iff] at hinfix
      · exact absurd hinfix hnew
      · exact hplain hit (List.mem_append_right _ (List.mem_singleton_self _))
      · intro word hword
        obtain ⟨hit', hhit', hkey⟩ := List.mem_map.1 (mem_wordsOf.1 hword)
        rw [← show hit'.keyword = word from congrArg Prod.snd hkey]
        exact hplain hit' (List.mem_append_left _ hhit')
  · rw [heq]
    exact h.extend he habout htags

/-- **All the hits**, by induction on them from the end. -/
theorem processHits (h : Rebuilt base [] db) (hplain : ∀ hit ∈ hits, ',' ∉ hit.keyword)
    (hnodup : (hits.map Hit.key).Nodup) :
    Rebuilt base hits (hits.foldl (Db.processHit now) db) := by
  induction hits using List.reverseRecOn with
  | nil => exact h
  | append_singleton hits hit ih =>
    rw [List.foldl_append]
    have hleft := ih (fun hit hhit => hplain hit (List.mem_append_left _ hhit))
      (hnodup.sublist ((List.sublist_append_left _ _).map _))
    exact hleft.processHit hplain hnodup

end Rebuilt

/-- What is left of a blocklist whose entries belong with their media rows. -/
theorem blocklist_of_linked (h : db.Linked) : (db.deleteMedia db.doomed).blocklist
    = db.blocklist.filter (·.blocklistedTags.isNone) := by
  refine List.filter_congr fun e he => ?_
  have hlinked := h e he
  cases htags : e.blocklistedTags with
  | none =>
    rw [htags] at hlinked
    exact decide_eq_true fun id hid hdoomed => Bool.false_ne_true (hlinked.2 ⟨id, hid, hdoomed⟩)
  | some tags =>
    rw [htags] at hlinked
    obtain ⟨id, hid, hdoomed⟩ := hlinked.1 rfl
    exact decide_eq_false fun hall => hall id hid hdoomed

/-- Nothing is rebuilt when nothing has tags. -/
theorem rebuilt_nil (h : db.Valid) (hnone : ∀ e ∈ db.blocklist, e.blocklistedTags = none) :
    Rebuilt db [] db where
  valid := h
  manual := List.filter_eq_self.2 fun e he => by rw [hnone e he]; rfl
  tagged about := by
    refine ⟨?_, ?_⟩
    · rintro ⟨e, he, -, htags⟩
      rw [hnone e he] at htags
      cases htags
    · rintro ⟨⟨hit, hhit, -⟩, -⟩
      cases hhit
  tags e he text htext := by
    rw [hnone e he] at htext
    cases htext
  media e he htags := by
    rw [hnone e he] at htags
    cases htags

/-- **Where entries and media rows belong together, a write replaces the tagged
entries** by what a run that collected everything was told. -/
theorem replaces_of_linked {run : Collecting} (h : db.Valid) (hlinked : db.Linked)
    (hrun : run.Sound) : Replaces run.heard db (db.write run.hits now) := by
  have hbase := blocklist_of_linked hlinked
  have hnone : ∀ e ∈ (db.deleteMedia db.doomed).blocklist, e.blocklistedTags = none := by
    intro e he
    rw [hbase] at he
    simpa using List.of_mem_filter he
  have hrebuilt : Rebuilt _ run.hits (db.write run.hits now) :=
    (rebuilt_nil (deleteMedia_valid h _) hnone).processHits hrun.plain hrun.nodup
  refine ⟨hrebuilt.manual.trans hbase, hrebuilt.valid.titles, fun about => ?_,
    fun e he text htext => ?_, hrebuilt.media⟩
  · rw [hrebuilt.tagged, hbase]
    refine and_congr ?_ ?_
    · simp only [← hrun.hits, List.mem_map, Hit.key, Prod.mk.injEq]
      exact ⟨fun ⟨hit, hhit, habout⟩ => ⟨hit.keyword, hit, hhit, habout, rfl⟩,
        fun ⟨_, hit, hhit, habout, _⟩ => ⟨hit, hhit, habout⟩⟩
    · refine forall_congr' fun e => ?_
      simp only [List.mem_filter, Option.isNone_iff_eq_none, Option.isSome_iff_ne_none]
      tauto
  · refine ⟨_, hrebuilt.tags e he text htext, nodup_wordsOf hrun.nodup _, fun tag => ?_⟩
    rw [mem_wordsOf, hrun.hits]

end Db

/-! ## Runs -/

/-- **When a run is sound**: where it gets to its writes, the keywords it read at the start,
without those TMDB does not know, are those of the setting as it is by then (of all of it, if
the transaction then fails), and the entries belong with their media rows. -/
def Undisturbed (env : Env) (db : Db) : Prop :=
  ∀ run, collectTags env.tmdb env.pageLimit env.start = .ok run →
    (run.invalid ≠ [] → env.settingsFail = false →
      withoutUnknown run.heard env.start =
        if env.dbFail then env.current else withoutUnknown run.heard env.current) ∧
    (env.dbFail = false → run.invalid = [] ∨ env.settingsFail = false → db.Linked)

section Runs

variable {env : Env} {db : Db} {run : Collecting}

/-- What `clean_invalid` writes. -/
theorem settingsWritten_eq (hdone : collectTags env.tmdb env.pageLimit env.start = .ok run) :
    settingsWritten env run =
      if run.invalid = [] then .ok env.current
      else if env.settingsFail then .error .failed
      else .ok (withoutUnknown run.heard env.start) := by
  have hsound := sound_of_collectTags hdone
  unfold settingsWritten
  split
  case isTrue => rfl
  case isFalse hinvalid =>
    have hstart : env.start ≠ [] := by
      intro heq
      rw [collectTags, if_pos heq] at hdone
      cases hdone
      exact hinvalid rfl
    rw [cleanInvalid, if_neg (cleaned_ne (invalid_subset hdone) hinvalid hstart),
      cleaned_eq hsound]

theorem withoutUnknown_of_valid (h : run.Sound) (hnil : run.invalid = []) (setting : List Char) :
    withoutUnknown run.heard setting = setting :=
  withoutUnknown_of_forall fun tag hmem => by
    have hin := (h.invalid tag).2 hmem
    rw [hnil] at hin
    cases hin

/-- What a run that has written the setting owes. -/
theorem owed_write_iff (h : db.Valid) (hrun : run.Sound) {setting : List Char} :
    Owed env db (if env.dbFail then ⟨.error .failed, db, setting, run.heard⟩
      else ⟨.ok (), db.write run.hits env.now, setting, run.heard⟩) ↔
    (setting = if env.dbFail then env.current else withoutUnknown run.heard env.current) ∧
      (env.dbFail = false → db.Linked) := by
  cases hfail : env.dbFail with
  | true => simp [Owed]
  | false =>
    simp only [Owed, Bool.false_eq_true, if_false, true_imp_iff]
    rw [and_comm]
    refine and_congr_right fun _ => ⟨Db.linked_of_replaces h, fun hlinked => ?_⟩
    exact Db.replaces_of_linked h hlinked hrun

/-- **A run replaces exactly the tag blocklist, or changes nothing, iff it is
undisturbed.** -/
theorem replaces_exactly_iff (h : db.Valid) :
    Owed env db (runJob env db) ↔ Undisturbed env db := by
  unfold runJob Undisturbed
  cases hdone : collectTags env.tmdb env.pageLimit env.start with
  | error stop => simp [Owed]
  | ok run =>
    have hrun := sound_of_collectTags hdone
    simp only [settingsWritten_eq hdone, Except.ok.injEq, forall_eq']
    by_cases hnil : run.invalid = []
    · -- the setting is left alone
      rw [if_pos hnil]
      dsimp only
      rw [owed_write_iff h hrun, withoutUnknown_of_valid hrun hnil]
      simp [hnil]
    · rw [if_neg hnil]
      cases hfail : env.settingsFail with
      | true => simp [Owed, hnil]
      | false =>
        simp only [Bool.false_eq_true, if_false]
        rw [owed_write_iff h hrun]
        simp [hnil]

end Runs

/-! ### A run that ends well, and two that do not -/

/-- TMDB knows keyword 7, which one film and one series have, and no other. -/
def sampleTmdb : Tmdb where
  keyword _ tag := if tag = ['7'] then .known else .notFound
  page _ query :=
    if query.mediaType = "movie" then some ⟨some [⟨some 30, some "Film"⟩, ⟨some 10, none⟩], some 1⟩
    else some ⟨some [⟨some 20, some "Series"⟩], some 1⟩
  cancelled _ := false

/-- A run that starts with the keywords 7 and 8. -/
def sampleEnv (current : List Char) (dbFail : Bool) : Env where
  tmdb := sampleTmdb
  pageLimit := 1
  start := "7,8".toList
  current := current
  dbFail := dbFail

/-- A film blocklisted by its keyword and a series blocklisted by hand. -/
def sampleDb : Db where
  media := [
    { id := 1, mediaType := "movie", tmdbId := 10, status := 6, status4k := 6 },
    { id := 2, mediaType := "tv", tmdbId := 20, status := 6, status4k := 6 }]
  blocklist := [
    { id := 1, mediaType := "movie", title := none, tmdbId := 10,
      blocklistedTags := some ",8,".toList, mediaId := some 1 },
    { id := 2, mediaType := "tv", title := none, tmdbId := 20, blocklistedTags := none,
      mediaId := some 2 }]
  nextMedia := 3
  nextEntry := 3

theorem sampleDb_valid : sampleDb.Valid where
  ids := by decide
  titles := by decide
  entry_lt := by decide
  media_lt := by decide
  refers := by decide

theorem sampleDb_linked : sampleDb.Linked := by
  unfold Db.Linked
  decide

theorem replaces_exactly_sample :
    Owed (sampleEnv "7,8".toList false) sampleDb (runJob (sampleEnv "7,8".toList false) sampleDb) ∧
      (runJob (sampleEnv "7,8".toList false) sampleDb).setting = ['7'] := by
  refine ⟨(replaces_exactly_iff sampleDb_valid).2 fun run _ => ⟨fun _ _ => rfl, fun _ _ => ?_⟩, ?_⟩
  · exact sampleDb_linked
  · decide +kernel

/-- **A keyword added during the run is lost**, and a run whose transaction fails has
already written the setting. -/
theorem run_overwrites_setting :
    ¬ (∀ env db, db.Valid → Owed env db (runJob env db)) ∧
      (runJob (sampleEnv "7,8,9".toList false) sampleDb).setting = ['7'] ∧
      withoutUnknown [.unknown ['8']] "7,8,9".toList = "7,9".toList ∧
      (runJob (sampleEnv "7,8".toList true) sampleDb).setting = ['7'] ∧
      (runJob (sampleEnv "7,8".toList true) sampleDb).ended = .error .failed := by
  have hlost : (runJob (sampleEnv "7,8,9".toList false) sampleDb).setting = ['7'] := by
    decide +kernel
  have hkept : withoutUnknown (runJob (sampleEnv "7,8,9".toList false) sampleDb).heard
      "7,8,9".toList = "7,9".toList := by
    decide +kernel
  have hended : (runJob (sampleEnv "7,8,9".toList false) sampleDb).ended = .ok () := by
    decide +kernel
  refine ⟨fun hall => ?_, hlost, by decide +kernel, by decide +kernel, by decide +kernel⟩
  have howed := hall (sampleEnv "7,8,9".toList false) sampleDb sampleDb_valid
  rw [Owed, hended] at howed
  have hsetting := howed.2
  rw [hlost] at hsetting
  exact absurd (hsetting.trans hkept) (by decide)

end Foreseerr.BlocklistedTags

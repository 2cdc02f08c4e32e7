import Foreseerr.TraktItems

/-!
# Pages of a Trakt stream

`trakt.rs` answers a page of a watchlist, a history or a chart. A stream of one type is
asked for that page. Of both types `collect_type_prefix` reads each stream from its first
page on until it has enough items or a page has fewer than were asked for, and
`merge_and_paginate` merges the two and cuts the page out.

How many items a page has is counted after what is unusable or repeated was left out, so
that a page of Trakt's that is full and has one such entry ends the stream
(`TraktPages.unusable_entry_ends_stream`). Nothing is lost where the pages are clean or, of both
types, where nothing new follows a page that was not full (`TraktPages.lossless_iff`).
-/

namespace Foreseerr

namespace TraktPages

open Paging TraktItems

/-! ## What Trakt has -/

/-- The path segment of a type. -/
inductive Kind
  | movies
  | shows
deriving DecidableEq, Repr

def Kind.text : Kind → String
  | .movies => "movies"
  | .shows => "shows"

/-- What an entry of a chart is wrapped as. -/
def Kind.key : Kind → String
  | .movies => "movie"
  | .shows => "show"

/-- `TraktFetchMediaType`. -/
inductive FetchType
  | movie
  | tv
  | all
deriving DecidableEq, Repr

/-- `single`. -/
def FetchType.single : FetchType → Option Kind
  | .movie => some .movies
  | .tv => some .shows
  | .all => none

/-- The stream a page is read from. -/
inductive Stream
  | watchlist (user : String)
  | history
  | chart (name : String)
deriving DecidableEq, Repr

/-- The path of a stream's type. -/
def Stream.endpoint (stream : Stream) (kind : Kind) : String :=
  match stream with
  | .watchlist user => "/users/" ++ user ++ "/watchlist/" ++ kind.text
  | .history => "/sync/history/" ++ kind.text
  | .chart name => "/" ++ kind.text ++ "/" ++ name

def Stream.isChart : Stream → Bool
  | .chart _ => true
  | _ => false

/-- What Trakt has at each path. -/
abbrev Upstream := String → List Json

/-- A page of it, as it is asked for with `page` and `limit`. -/
def request (up : Upstream) (endpoint : String) (page limit : Nat) : Json :=
  .arr (((up endpoint).drop ((page - 1) * limit)).take limit)

/-! ## Pages as they are answered -/

/-- A page of items and whether another may follow. -/
structure Paged where
  items : List Json
  hasMore : Bool
deriving Repr

/-- What is made of an answer. -/
def Stream.answer (stream : Stream) (kind : Kind) (payload : Json) : Except String Json :=
  match stream with
  | .chart _ => chartEntries (some payload) kind.key
  | _ => .ok payload

/-- `type_page`. -/
def typePage (up : Upstream) (stream : Stream) (kind : Kind) (page limit : Nat) :
    Except String Json :=
  stream.answer kind (request up (stream.endpoint kind) page limit)

section Answers

variable (numberString : ℚ → String)

/-- The items of one page. -/
def readPage (up : Upstream) (stream : Stream) (kind : Kind) (page limit : Nat) :
    Except String (List Json) := do
  normalizeListItems numberString (some (← typePage up stream kind page limit))

/-- The new items of a page are added until there are enough. The keys seen so far are
those of the items. -/
def takeNew (needed : Nat) : List Json → List Json → List Json
  | items, [] => items
  | items, entry :: batch =>
    if itemKey numberString entry ∈ items.map (itemKey numberString) then
      takeNew needed items batch
    else if needed ≤ (items ++ [entry]).length then items ++ [entry]
    else takeNew needed (items ++ [entry]) batch

/-- What has been collected in the end. -/
def collected (needed : Nat) (items : List Json) (hasMore : Bool) : Paged where
  items := items.take needed
  hasMore := hasMore && needed ≤ (items.take needed).length

/-- The loop of `collect_type_prefix`, for so many pages at most. One more than there are
entries is always enough (`collectTypePrefix_eq`). -/
def collectFrom (read : Nat → Except String (List Json)) (needed size : Nat) :
    Nat → Nat → List Json → Bool → Except String Paged
  | 0, _, _, _ => .error "out of fuel"
  | fuel + 1, page, items, hasMore =>
    if items.length < needed then do
      let batch ← read page
      if batch.isEmpty then .ok (collected needed items false)
      else
        let items := takeNew numberString needed items batch
        if batch.length < size then .ok (collected needed items false)
        else if needed ≤ items.length then .ok (collected needed items true)
        else collectFrom read needed size fuel (page + 1) items true
    else .ok (collected needed items hasMore)

/-- `collect_type_prefix`. -/
def collectTypePrefix (up : Upstream) (stream : Stream) (kind : Kind) (needed size : Nat) :
    Except String Paged :=
  collectFrom numberString (fun page => readPage numberString up stream kind page size) needed size
    ((up (stream.endpoint kind)).length + 1) 1 [] false

/-- `slice_page`. -/
def slicePage (items : List Json) (page limit : Nat) (extra : Bool) : Paged :=
  let page := max page 1
  let limit := max limit 1
  let start := (page - 1) * limit
  { items := (items.drop start).take limit, hasMore := start + limit < items.length || extra }

/-- What two items are compared by: the positions they have, or when they were added. -/
def stamp (byPosition : Bool) (item : Json) (index : Nat) : Int :=
  if byPosition then -index else sortTimestamp item

/-- Whether the movie is picked. -/
def movieFirst (byPosition : Bool) (i j : Nat) (movie tv : Json) : Bool :=
  stamp byPosition movie i ≥ stamp byPosition tv j

/-- `merge_and_paginate`. -/
def mergeAndPaginate (movies shows : List Json) (page limit : Nat) (more : Bool × Bool)
    (byPosition : Bool) : Paged :=
  slicePage (distinct (itemKey numberString) [] (picks (movieFirst byPosition) 0 movies 0 shows))
    page limit (more.1 || more.2)

/-- `fetch_merged`. -/
def fetchMerged (up : Upstream) (stream : Stream) (limit page : Nat) (byPosition : Bool) :
    Except String Paged := do
  let needed := page * limit
  let movies ← collectTypePrefix numberString up stream .movies needed limit
  let shows ← collectTypePrefix numberString up stream .shows needed limit
  .ok (mergeAndPaginate numberString movies.items shows.items page limit
    (movies.hasMore, shows.hasMore) byPosition)

/-- The page size an asked limit comes to. -/
def pageSize (limit : Int) : Nat := (max 1 (min limit 100)).toNat

/-- `stream_page`. -/
def streamPage (up : Upstream) (stream : Stream) (fetchType : FetchType) (page limit : Int) :
    Except String Paged :=
  let limit := pageSize limit
  let page := (max page 1).toNat
  match fetchType.single with
  | some kind => do
    let items ← readPage numberString up stream kind page limit
    .ok { items, hasMore := limit ≤ items.length }
  | none => fetchMerged numberString up stream limit page stream.isChart

/-! ## Streams as a whole -/

/-- All items of one type. -/
def streamItems (up : Upstream) (stream : Stream) (kind : Kind) : Except String (List Json) := do
  normalizeListItems numberString (some (← stream.answer kind (.arr (up (stream.endpoint kind)))))

/-- Two lists in turn, and then what is left of the longer one. -/
def interleave : List Json → List Json → List Json
  | [], shows => shows
  | movies, [] => movies
  | movie :: movies, tv :: shows => movie :: tv :: interleave movies shows

/-- Two streams as one: in turn, or the later added first. -/
def mergedItems (stream : Stream) (movies shows : List Json) : List Json :=
  if stream.isChart then interleave movies shows
  else movies.merge shows fun movie tv => sortTimestamp tv ≤ sortTimestamp movie

/-- The stream normalised and its repeats left out, as a whole. -/
def wholeItems (up : Upstream) (stream : Stream) (fetchType : FetchType) :
    Except String (List Json) :=
  match fetchType.single with
  | some kind => streamItems numberString up stream kind
  | none => do
    let movies ← streamItems numberString up stream .movies
    let shows ← streamItems numberString up stream .shows
    .ok (distinct (itemKey numberString) [] (mergedItems stream movies shows))

/-- **Paging loses nothing**: the pages one after another are the beginning of the whole,
and one that nothing is said to follow is followed by none. -/
def Lossless (up : Upstream) (stream : Stream) (fetchType : FetchType) (limit : Int) : Prop :=
  ∃ (whole : List Json) (page : Nat → Paged),
    wholeItems numberString up stream fetchType = .ok whole
    ∧ (∀ k : Nat, streamPage numberString up stream fetchType (k + 1) limit = .ok (page k))
    ∧ (∀ k, (List.range k).flatMap (fun i => (page i).items) = whole.take (k * pageSize limit))
    ∧ ∀ k, (page k).hasMore = false → (page (k + 1)).items = []

/-! ## Entries of a stream -/

/-- An entry of a shape that reads. -/
def ReadsAs (stream : Stream) (kind : Kind) (entry : Json) : Prop :=
  match stream with
  | .chart _ => ∃ wrapped, chartEntry kind.key entry = .ok wrapped ∧ Reads numberString wrapped
  | _ => Reads numberString entry

/-- The item an entry is, where it reads and is one. -/
def usableAs (stream : Stream) (kind : Kind) (entry : Json) : Option Json :=
  match stream with
  | .chart _ => (chartEntry kind.key entry).toOption.bind (usable numberString)
  | _ => usable numberString entry

/-- All entries of a stream read. -/
def Readable (up : Upstream) (stream : Stream) (kind : Kind) : Prop :=
  ∀ entry ∈ up (stream.endpoint kind), ReadsAs numberString stream kind entry

/-- A stream by pages of a size. -/
def pages (up : Upstream) (stream : Stream) (kind : Kind) (size : Nat) (h : 0 < size) :
    Pages (itemKey numberString) size where
  items i := distinct (itemKey numberString) []
    ((((up (stream.endpoint kind)).drop (i * size)).take size).filterMap
      (usableAs numberString stream kind))
  count := (up (stream.endpoint kind)).length
  size_pos := h
  nodup _ := nodup_distinct _ _
  length_le i := by
    refine (distinct_sublist _ _).length_le.trans ?_
    exact (List.length_filterMap_le _ _).trans (List.length_take_le _ _)
  ends i hi := by
    have hdrop : (up (stream.endpoint kind)).drop (i * size) = [] :=
      List.drop_eq_nil_of_le (hi.trans (Nat.le_mul_of_pos_right i h))
    rw [hdrop, List.take_nil]
    rfl

variable {numberString} {up : Upstream} {stream : Stream} {kind : Kind}

theorem mapM_eq_ok_iff {f : Json → Except String Json} {list results : List Json} :
    list.mapM f = .ok results
      ↔ (∀ entry ∈ list, ∃ result, f entry = .ok result)
        ∧ results = list.filterMap fun entry => (f entry).toOption := by
  induction list generalizing results with
  | nil => simp [pure, Except.pure, eq_comm]
  | cons entry list ih =>
    rw [List.mapM_cons, List.forall_mem_cons, List.filterMap_cons]
    cases hentry : f entry with
    | error e => exact ⟨nofun, fun h => nomatch h.1.1.choose_spec⟩
    | ok result =>
      have hok : ∃ r, (Except.ok result : Except String Json) = .ok r := ⟨result, rfl⟩
      rw [and_assoc, and_iff_right hok]
      cases hrest : list.mapM f with
      | error e =>
        refine ⟨nofun, fun h => ?_⟩
        rw [ih.2 ⟨h.1, rfl⟩] at hrest
        cases hrest
      | ok rest =>
        rw [ih] at hrest
        rw [and_iff_right hrest.1, ← hrest.2]
        exact ⟨fun h => (Except.ok.inj h).symm, fun h => congrArg Except.ok h.symm⟩

theorem filterMap_chartEntry {key : String} (list : List Json) :
    (list.filterMap fun entry => (chartEntry key entry).toOption).filterMap (usable numberString)
      = list.filterMap fun entry => (chartEntry key entry).toOption.bind (usable numberString) :=
  List.filterMap_filterMap

/-- **An answer reads entry by entry.** -/
theorem normalize_answer_eq_ok_iff {list items : List Json} :
    (stream.answer kind (.arr list) >>= fun payload =>
        normalizeListItems numberString (some payload)) = .ok items
      ↔ (∀ entry ∈ list, ReadsAs numberString stream kind entry)
        ∧ items = distinct (itemKey numberString) []
            (list.filterMap (usableAs numberString stream kind)) := by
  cases stream with
  | watchlist user => exact normalizeListItems_eq_ok_iff
  | history => exact normalizeListItems_eq_ok_iff
  | chart name =>
    have hanswer : (Stream.chart name).answer kind (.arr list)
        = (list.mapM (chartEntry kind.key)).map .arr := rfl
    have husable : list.filterMap (usableAs numberString (.chart name) kind)
        = (list.filterMap fun entry => (chartEntry kind.key entry).toOption).filterMap
            (usable numberString) := (filterMap_chartEntry list).symm
    rw [hanswer, husable]
    constructor
    · cases hwrapped : list.mapM (chartEntry kind.key) with
      | error e => exact nofun
      | ok wrapped =>
        rw [mapM_eq_ok_iff] at hwrapped
        intro h
        obtain ⟨hreads, hitems⟩ := normalizeListItems_eq_ok_iff.1 h
        rw [hwrapped.2] at hreads hitems
        refine ⟨fun entry hentry => ?_, hitems⟩
        obtain ⟨wrap, hwrap⟩ := hwrapped.1 entry hentry
        exact ⟨wrap, hwrap, hreads wrap (List.mem_filterMap.2 ⟨entry, hentry, by rw [hwrap]; rfl⟩)⟩
    · rintro ⟨hreads, hitems⟩
      have hwrapped := mapM_eq_ok_iff.2 ⟨fun entry hentry =>
        (hreads entry hentry).imp fun _ h => h.1, rfl⟩
      rw [hwrapped]
      refine normalizeListItems_eq_ok_iff.2 ⟨fun wrap hwrap => ?_, hitems⟩
      obtain ⟨entry, hentry, hsome⟩ := List.mem_filterMap.1 hwrap
      obtain ⟨wrap', hwrap', hread⟩ := hreads entry hentry
      rw [hwrap'] at hsome
      cases hsome
      exact hread

/-- A page is answered where its entries read. -/
theorem readPage_eq {size : Nat} (h : Readable numberString up stream kind) (hsize : 0 < size)
    (i : Nat) : readPage numberString up stream kind (i + 1) size
      = .ok ((pages numberString up stream kind size hsize).items i) :=
  normalize_answer_eq_ok_iff.2 ⟨fun entry hentry => h entry
    (List.mem_of_mem_drop (List.mem_of_mem_take hentry)), rfl⟩

theorem streamItems_eq_ok_iff {items : List Json} :
    streamItems numberString up stream kind = .ok items
      ↔ Readable numberString up stream kind
        ∧ items = distinct (itemKey numberString) []
            ((up (stream.endpoint kind)).filterMap (usableAs numberString stream kind)) :=
  normalize_answer_eq_ok_iff

/-- The stream as a whole is that of its pages. -/
theorem whole_pages {size : Nat} (hsize : 0 < size) :
    (pages numberString up stream kind size hsize).whole
      = distinct (itemKey numberString) []
          ((up (stream.endpoint kind)).filterMap (usableAs numberString stream kind)) := by
  have hslices := @Pages.flatMap_slices _ size (up (stream.endpoint kind))
    (up (stream.endpoint kind)).length
  rw [List.take_of_length_le (Nat.le_mul_of_pos_right _ hsize)] at hslices
  conv_rhs => rw [← hslices, List.filterMap_flatMap]
  exact distinct_flatMap _ _ _

/-! ## Collecting -/

theorem takeNew_eq {needed : Nat} {items : List Json} (batch : List Json)
    (h : items.length < needed) : takeNew numberString needed items batch
      = (items ++ distinct (itemKey numberString) (items.map (itemKey numberString)) batch).take
          needed := by
  induction batch generalizing items with
  | nil => rw [takeNew, distinct, List.append_nil, List.take_of_length_le h.le]
  | cons entry batch ih =>
    rw [takeNew, distinct]
    split
    · exact ih h
    · have hkeys : ∀ k, k ∈ itemKey numberString entry :: items.map (itemKey numberString)
          ↔ k ∈ (items ++ [entry]).map (itemKey numberString) := by
        intro k
        simp [or_comm]
      rw [List.append_cons items entry (distinct _ _ _)]
      split
      next hfull =>
        have hlength : (items ++ [entry]).length = needed := by
          rw [List.length_append, List.length_singleton] at hfull ⊢
          omega
        rw [← hlength, List.take_left]
      next hfew => rw [ih (not_le.1 hfew), distinct_congr hkeys]

/-- **What is collected** is what reading up to the first page that is not full comes to. -/
theorem collectFrom_eq {size needed : Nat} {s : Pages (itemKey numberString) size}
    {read : Nat → Except String (List Json)} (hread : ∀ i, read (i + 1) = .ok (s.items i))
    {fuel i : Nat} {more : Bool} (hi : i ≤ s.firstShort) (hfuel : s.firstShort < i + fuel)
    (h : (s.upTo i).length < needed) :
    collectFrom numberString read needed size fuel (i + 1) (s.upTo i) more
      = .ok { items := s.visible.take needed, hasMore := needed ≤ s.before.length } := by
  induction fuel generalizing i more with
  | zero => exact absurd hi (not_le.2 hfuel)
  | succ fuel ih =>
    have htake := @takeNew_eq numberString needed (s.upTo i) (s.items i) h
    rw [← Pages.upTo_succ] at htake
    -- a page that is not full ends it
    have hend : s.Short i → (.ok (collected needed (takeNew numberString needed (s.upTo i)
        (s.items i)) false) : Except String Paged)
          = .ok { items := s.visible.take needed, hasMore := needed ≤ s.before.length } := by
      intro hshort
      have hfirst : i = s.firstShort := le_antisymm hi (Pages.firstShort_le hshort)
      have hbefore : ¬ needed ≤ s.before.length := by
        rw [Pages.before, ← hfirst]
        exact not_le.2 h
      rw [collected, htake, List.take_take, min_self, Pages.visible, ← hfirst]
      simp [hbefore]
    rw [collectFrom, if_pos h, hread]
    dsimp only [Bind.bind, Except.bind]
    split
    next hempty =>
      rw [List.isEmpty_iff] at hempty
      rw [← hend (by rw [Pages.Short, hempty]; exact s.size_pos), hempty, takeNew]
    next =>
      split
      next hshort => exact hend hshort
      next hfull =>
        have hlt : i < s.firstShort := lt_of_le_of_ne hi fun hfirst =>
          hfull (hfirst ▸ Pages.short_firstShort)
        split
        next henough =>
          have hlong : needed ≤ (s.upTo (i + 1)).length := by
            rw [htake, List.length_take] at henough
            exact (le_min_iff.1 henough).2
          have hbefore : s.upTo (i + 1) <+: s.before := Pages.upTo_prefix hlt
          have hvisible : s.visible.take needed = (s.upTo (i + 1)).take needed := by
            obtain ⟨rest, hrest⟩ := hbefore.trans Pages.before_prefix
            rw [← hrest, List.take_append_of_le_length hlong]
          rw [collected, htake, List.take_take, min_self, hvisible]
          simp [hlong, hlong.trans hbefore.length_le]
        next hfew =>
          have hall : takeNew numberString needed (s.upTo i) (s.items i) = s.upTo (i + 1) := by
            rw [htake, List.length_take, le_min_iff, not_and] at hfew
            rw [htake, List.take_of_length_le (not_le.1 (hfew le_rfl)).le]
          rw [hall] at hfew ⊢
          exact ih hlt (by omega) (not_le.1 hfew)

theorem collectTypePrefix_eq {size needed : Nat} (h : Readable numberString up stream kind)
    (hsize : 0 < size) (hneeded : 0 < needed) :
    collectTypePrefix numberString up stream kind needed size
      = .ok
          { items := (pages numberString up stream kind size hsize).visible.take needed,
            hasMore := needed ≤ (pages numberString up stream kind size hsize).before.length } := by
  have hfirst : (pages numberString up stream kind size hsize).firstShort
      ≤ (up (stream.endpoint kind)).length := Pages.firstShort_le (Pages.short_count _)
  exact collectFrom_eq (i := 0) (readPage_eq h hsize) (Nat.zero_le _) (by omega) hneeded

/-! ## Merging -/

theorem picks_eq_interleave (i : Nat) (movies shows : List Json) :
    picks (movieFirst true) i movies i shows = interleave movies shows := by
  induction movies generalizing i shows with
  | nil => rfl
  | cons movie movies ih =>
    cases shows with
    | nil => rw [picks_nil_right, interleave]; exact nofun
    | cons tv shows =>
      have hfirst : movieFirst true i i movie tv = true := by simp [movieFirst, stamp]
      rw [picks_cons_cons, if_pos hfirst, interleave]
      cases movies with
      | nil => simp [interleave]
      | cons next movies =>
        have hsecond : ¬ movieFirst true (i + 1) i next tv = true := by simp [movieFirst, stamp]
        rw [picks_cons_cons, if_neg hsecond, ih]

theorem picks_eq_merge (i j : Nat) (movies shows : List Json) :
    picks (movieFirst false) i movies j shows
      = movies.merge shows fun movie tv => sortTimestamp tv ≤ sortTimestamp movie := by
  induction movies generalizing i j shows with
  | nil => simp
  | cons movie movies ih =>
    induction shows generalizing j with
    | nil => simp
    | cons tv shows ihs =>
      rw [picks_cons_cons, List.cons_merge_cons, ih, ihs]
      rfl

theorem picks_eq_mergedItems (stream : Stream) (movies shows : List Json) :
    picks (movieFirst stream.isChart) 0 movies 0 shows = mergedItems stream movies shows := by
  cases hchart : stream.isChart with
  | true => rw [mergedItems, hchart, if_pos rfl, picks_eq_interleave]
  | false => rw [mergedItems, hchart, picks_eq_merge]; rfl

theorem pageSize_pos (limit : Int) : 0 < pageSize limit := by
  unfold pageSize
  omega

/-- A merged page is one of the merged pages. -/
theorem fetchMerged_eq {size : Nat} (hmovies : Readable numberString up stream .movies)
    (hshows : Readable numberString up stream .shows) (hsize : 0 < size) (k : Nat)
    (byPosition : Bool) :
    ∃ more, fetchMerged numberString up stream size (k + 1) byPosition
        = .ok { items := Pages.mergedPage (movieFirst byPosition)
                  (pages numberString up stream .movies size hsize)
                  (pages numberString up stream .shows size hsize) k,
                hasMore := more }
      ∧ (more = true ↔ Pages.MergedMore (movieFirst byPosition)
          (pages numberString up stream .movies size hsize)
          (pages numberString up stream .shows size hsize) k) := by
  have hneeded : 0 < (k + 1) * size := Nat.mul_pos k.succ_pos hsize
  have hslice : k * size + size = (k + 1) * size := (Nat.succ_mul k size).symm
  have hpage : max (k + 1) 1 = k + 1 := by omega
  have hlimit : max size 1 = size := by omega
  rw [fetchMerged, collectTypePrefix_eq hmovies hsize hneeded,
    collectTypePrefix_eq hshows hsize hneeded]
  refine ⟨_, congrArg Except.ok (congrArg₂ Paged.mk ?_ rfl), ?_⟩
  · rw [hpage, hlimit, Nat.add_sub_cancel]
    rfl
  · rw [hpage, hlimit, Nat.add_sub_cancel, hslice]
    simp [Pages.MergedMore, Pages.mergedPrefix]

/-! ## What is lost -/

variable (numberString) in
/-- A stream by the pages that an asked limit comes to. -/
abbrev pagesOf (up : Upstream) (stream : Stream) (limit : Int) (kind : Kind) :
    Pages (itemKey numberString) (pageSize limit) :=
  pages numberString up stream kind (pageSize limit) (pageSize_pos limit)

theorem streamItems_eq (h : Readable numberString up stream kind) (limit : Int) :
    streamItems numberString up stream kind
      = .ok (pagesOf numberString up stream limit kind).whole :=
  streamItems_eq_ok_iff.2 ⟨h, whole_pages _⟩

theorem streamPage_single {fetchType : FetchType} {limit : Int}
    (hkind : fetchType.single = some kind) (h : Readable numberString up stream kind) (k : Nat) :
    streamPage numberString up stream fetchType (k + 1) limit
      = .ok
          { items := (pagesOf numberString up stream limit kind).items k,
            hasMore :=
              pageSize limit ≤ ((pagesOf numberString up stream limit kind).items k).length } := by
  have hpage : (max ((k : Int) + 1) 1).toNat = k + 1 := by omega
  rw [streamPage, hkind, hpage]
  dsimp only
  rw [readPage_eq h (pageSize_pos limit)]
  rfl

theorem wholeItems_single {fetchType : FetchType} (hkind : fetchType.single = some kind) :
    wholeItems numberString up stream fetchType = streamItems numberString up stream kind := by
  rw [wholeItems, hkind]

/-- Paging through one type loses nothing exactly of clean pages. -/
theorem lossless_single_iff {fetchType : FetchType} {limit : Int}
    (hkind : fetchType.single = some kind) :
    Lossless numberString up stream fetchType limit
      ↔ Readable numberString up stream kind
        ∧ (pagesOf numberString up stream limit kind).Clean := by
  rw [Lossless, wholeItems_single hkind, ← Pages.complete_iff]
  constructor
  · rintro ⟨whole, page, hwhole, hpage, hall, hmore⟩
    have hreadable := (streamItems_eq_ok_iff.1 hwhole).1
    rw [streamItems_eq hreadable limit] at hwhole
    obtain rfl := Except.ok.inj hwhole
    have hpage' : ∀ k, page k = _ := fun k =>
      Except.ok.inj ((hpage k).symm.trans (streamPage_single hkind hreadable k))
    simp only [hpage', decide_eq_false_iff_not, not_le] at hall hmore
    exact ⟨hreadable, hall, hmore⟩
  · rintro ⟨hreadable, hall, hmore⟩
    refine ⟨_, _, streamItems_eq hreadable limit, streamPage_single hkind hreadable, hall, ?_⟩
    intro k hk
    exact hmore k (not_le.1 (of_decide_eq_false hk))

theorem wholeItems_all (limit : Int) (hmovies : Readable numberString up stream .movies)
    (hshows : Readable numberString up stream .shows) :
    wholeItems numberString up stream .all
      = .ok (Pages.mergedWhole (movieFirst stream.isChart)
          (pagesOf numberString up stream limit .movies)
          (pagesOf numberString up stream limit .shows)) := by
  rw [wholeItems, FetchType.single]
  dsimp only
  rw [streamItems_eq hmovies limit, streamItems_eq hshows limit, Pages.mergedWhole,
    picks_eq_mergedItems]
  rfl

theorem readable_of_wholeItems {whole : List Json}
    (h : wholeItems numberString up stream .all = .ok whole) :
    Readable numberString up stream .movies ∧ Readable numberString up stream .shows := by
  rw [wholeItems, FetchType.single] at h
  dsimp only at h
  cases hmovies : streamItems numberString up stream .movies with
  | error e =>
    rw [hmovies] at h
    cases h
  | ok movies =>
    cases hshows : streamItems numberString up stream .shows with
    | error e =>
      rw [hmovies, hshows] at h
      cases h
    | ok shows =>
      exact ⟨(streamItems_eq_ok_iff.1 hmovies).1, (streamItems_eq_ok_iff.1 hshows).1⟩

/-- Paging through both types loses nothing where merging their pages loses nothing. -/
theorem lossless_all_iff {limit : Int} : Lossless numberString up stream .all limit
    ↔ Readable numberString up stream .movies ∧ Readable numberString up stream .shows
      ∧ Pages.MergeComplete (movieFirst stream.isChart)
          (pagesOf numberString up stream limit .movies)
          (pagesOf numberString up stream limit .shows) := by
  have hpages : ∀ (k : Nat), Readable numberString up stream .movies →
      Readable numberString up stream .shows → ∃ more,
        streamPage numberString up stream .all (k + 1) limit
          = .ok { items := Pages.mergedPage (movieFirst stream.isChart)
                    (pagesOf numberString up stream limit .movies)
                    (pagesOf numberString up stream limit .shows) k,
                  hasMore := more }
        ∧ (more = true ↔ Pages.MergedMore (movieFirst stream.isChart)
            (pagesOf numberString up stream limit .movies)
            (pagesOf numberString up stream limit .shows) k) := by
    intro k hmovies hshows
    have hpage : (max ((k : Int) + 1) 1).toNat = k + 1 := by omega
    rw [streamPage, FetchType.single, hpage]
    exact fetchMerged_eq hmovies hshows (pageSize_pos limit) k stream.isChart
  rw [Lossless]
  constructor
  · rintro ⟨whole, page, hwhole, hpage, hall, hmore⟩
    obtain ⟨hmovies, hshows⟩ := readable_of_wholeItems hwhole
    rw [wholeItems_all limit hmovies hshows] at hwhole
    obtain rfl := Except.ok.inj hwhole
    have hitems : ∀ k, (page k).items = Pages.mergedPage (movieFirst stream.isChart)
        (pagesOf numberString up stream limit .movies)
        (pagesOf numberString up stream limit .shows) k ∧ ((page k).hasMore = true
          ↔ Pages.MergedMore (movieFirst stream.isChart)
            (pagesOf numberString up stream limit .movies)
            (pagesOf numberString up stream limit .shows) k) := by
      intro k
      obtain ⟨more, hk, hmore⟩ := hpages k hmovies hshows
      rw [hpage k] at hk
      rw [Except.ok.inj hk]
      exact ⟨rfl, hmore⟩
    refine ⟨hmovies, hshows, fun n => ?_, fun k hk => ?_⟩
    · rw [← hall n]
      exact List.flatMap_congr fun i _ => (hitems i).1.symm
    · rw [← (hitems (k + 1)).1]
      exact hmore k (Bool.eq_false_iff.2 fun h => hk ((hitems k).2.1 h))
  · rintro ⟨hmovies, hshows, hall, hmore⟩
    choose more hpage hiff using fun k => hpages k hmovies hshows
    refine ⟨_, _, wholeItems_all limit hmovies hshows, hpage, hall, fun k hk => hmore k fun h => ?_⟩
    exact absurd ((hiff k).2 h) (Bool.eq_false_iff.1 hk)

/-- The type of an item of a stream. -/
def Kind.mediaType : Kind → String
  | .movies => "movie"
  | .shows => "tv"

variable (numberString) in
/-- Trakt has movies among movies and shows among shows. -/
def KeepsKinds (up : Upstream) (stream : Stream) : Prop :=
  ∀ kind, ∀ entry ∈ up (stream.endpoint kind), ∀ item ∈ usableAs numberString stream kind entry,
    item.get "mediaType" = some (.str kind.mediaType)

/-- A chart's entries are wrapped as what the chart is of. -/
theorem keepsKinds_of_isChart (h : stream.isChart) : KeepsKinds numberString up stream := by
  intro kind entry _ item hitem
  cases stream with
  | watchlist user => cases h
  | history => cases h
  | chart name =>
    obtain ⟨wrapped, hwrapped, husable⟩ := Option.bind_eq_some_iff.1 hitem
    cases hentry : chartEntry kind.key entry with
    | error e =>
      rw [hentry] at hwrapped
      cases hwrapped
    | ok result =>
      rw [hentry] at hwrapped
      obtain rfl := Option.some.inj hwrapped
      obtain ⟨media, -, hresult⟩ := except_bind_eq_ok hentry
      obtain rfl := Except.ok.inj hresult
      cases kind with
      | movies => exact mediaType_of_usable rfl husable
      | shows => exact mediaType_of_usable rfl husable

theorem mem_whole_pages {limit : Int} {key : String}
    (h : key ∈ (pagesOf numberString up stream limit kind).whole.map (itemKey numberString)) :
    ∃ entry ∈ up (stream.endpoint kind), ∃ item ∈ usableAs numberString stream kind entry,
      itemKey numberString item = key := by
  rw [whole_pages, mem_keys_distinct, List.mem_map] at h
  obtain ⟨⟨item, hitem, hkey⟩, -⟩ := h
  obtain ⟨entry, hentry, husable⟩ := List.mem_filterMap.1 hitem
  exact ⟨entry, hentry, item, husable, hkey⟩

/-- Movies and shows have no key in common. -/
theorem apart_of_keepsKinds {limit : Int} (h : KeepsKinds numberString up stream) :
    Pages.Apart (pagesOf numberString up stream limit .movies)
      (pagesOf numberString up stream limit .shows) := by
  intro key hmovie hshow
  obtain ⟨entry, hentry, movie, husable, rfl⟩ := mem_whole_pages hmovie
  obtain ⟨entry', hentry', tv, husable', hkey⟩ := mem_whole_pages hshow
  obtain ⟨rest, hrest⟩ := @itemKey_eq_append numberString movie
  obtain ⟨rest', hrest'⟩ := @itemKey_eq_append numberString tv
  rw [hrest, hrest', h _ _ hentry _ husable, h _ _ hentry' _ husable'] at hkey
  have hchars := congrArg String.toList hkey
  simp [jsText, jsString, Kind.mediaType] at hchars

variable (numberString) in
/-- When paging loses nothing: every entry reads, and of one type the pages are clean; of
both types nothing new stands after a page that is not full, and where an answered page
ends on that page the other type has something new. -/
def LosesNothing (up : Upstream) (stream : Stream) (limit : Int) : FetchType → Prop
  | .movie => Readable numberString up stream .movies
      ∧ (pagesOf numberString up stream limit .movies).Clean
  | .tv => Readable numberString up stream .shows
      ∧ (pagesOf numberString up stream limit .shows).Clean
  | .all => Readable numberString up stream .movies ∧ Readable numberString up stream .shows
      ∧ (pagesOf numberString up stream limit .movies).NothingLost
      ∧ (pagesOf numberString up stream limit .shows).NothingLost
      ∧ Pages.EndsBeside (pagesOf numberString up stream limit .movies)
          (pagesOf numberString up stream limit .shows)
      ∧ Pages.EndsBeside (pagesOf numberString up stream limit .shows)
          (pagesOf numberString up stream limit .movies)

/-- **When paging through a stream loses nothing.** -/
theorem lossless_iff (numberString : ℚ → String) (up : Upstream) (stream : Stream)
    (fetchType : FetchType) (limit : Int) :
    (LosesNothing numberString up stream limit fetchType →
      Lossless numberString up stream fetchType limit)
    ∧ ((fetchType = .all → KeepsKinds numberString up stream) →
      Lossless numberString up stream fetchType limit →
      LosesNothing numberString up stream limit fetchType) := by
  cases fetchType with
  | movie => exact ⟨(lossless_single_iff rfl).2, fun _ => (lossless_single_iff rfl).1⟩
  | tv => exact ⟨(lossless_single_iff rfl).2, fun _ => (lossless_single_iff rfl).1⟩
  | all =>
    rw [lossless_all_iff]
    constructor
    · rintro ⟨hmovies, hshows, hs, ht, hst, hts⟩
      exact ⟨hmovies, hshows, Pages.mergeComplete_of_nothingLost hs ht hst hts⟩
    · rintro hkinds ⟨hmovies, hshows, hmerge⟩
      exact ⟨hmovies, hshows,
        (Pages.mergeComplete_iff_of_apart (apart_of_keepsKinds (hkinds rfl))).1 hmerge⟩

end Answers

/-- The first of two movies has no id and the page size is one: the first page is empty, and
is said to be the last. -/
def unnamedFirst : Upstream := fun endpoint =>
  if endpoint = "/movies/trending" then
    [.obj [("title", .str "Untitled")], .obj [("ids", .obj [("trakt", .num 1)])]]
  else []

theorem not_lossless_of_first_empty {numberString : ℚ → String} {up : Upstream} {stream : Stream}
    {fetchType : FetchType} {limit : Int} {n : Nat}
    (hwhole : (wholeItems numberString up stream fetchType).toOption.map List.length = some (n + 1))
    (hfirst : (streamPage numberString up stream fetchType 1 limit).toOption.map
      (fun page => page.items.length) = some 0) :
    ¬ Lossless numberString up stream fetchType limit := by
  rintro ⟨whole, page, hok, hpage, hall, -⟩
  have hzero := hpage 0
  rw [Nat.cast_zero, zero_add] at hzero
  rw [hok] at hwhole
  rw [hzero] at hfirst
  have hlength := congrArg List.length (hall 1)
  have hsome := Option.some.inj hwhole
  have hnone : (page 0).items.length = 0 := Option.some.inj hfirst
  have := pageSize_pos limit
  rw [List.range_one, List.flatMap_singleton, hnone, List.length_take, hsome] at hlength
  omega

theorem unusable_entry_ends_stream :
    ¬ Lossless (fun n => n.num.repr) unnamedFirst (.chart "trending") .movie 1
      ∧ ¬ Lossless (fun n => n.num.repr) unnamedFirst (.chart "trending") .all 1 :=
  ⟨@not_lossless_of_first_empty _ _ _ _ _ 0 (by decide +kernel) (by decide +kernel),
    @not_lossless_of_first_empty _ _ _ _ _ 0 (by decide +kernel) (by decide +kernel)⟩

end TraktPages

end Foreseerr

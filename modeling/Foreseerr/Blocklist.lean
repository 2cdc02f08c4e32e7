import Foreseerr.RequestCreate
import Foreseerr.ScanTitles

/-!
# The blocklist, and the status it is read from

A blocklisted title has an entry in a table of its own, and its media row is
`BLOCKLISTED` in both qualities. A request is refused by the row alone (`media_plan`),
and the scanners write that row without a look at the blocklist: `apply_movie` takes a
movie from any status but `AVAILABLE` when a server has it or is after it, and
`rollup_show_status` never says `BLOCKLISTED`. So a blocklisted title can be requested
once a server turns out to have it (`Blocklist.scanned_is_requestable`).

Where no scan finds a blocklisted movie processing or with a file, none goes through a
blocklisted show and no season of one falls back, an entry keeps every request out
until it is removed (`Blocklist.listed_stays_blocklisted`).
-/

namespace Foreseerr.Blocklist

open KeyedList

/-! ## The tables -/

/-- A `blocklist` row. -/
structure Entry where
  mediaType : String
  title : Option String := none
  tmdbId : Int
  blocklistedTags : Option String := none
  userId : Option Int := none
  mediaId : Option Int := none
deriving DecidableEq, Repr

/-- The title an entry is for. -/
def Entry.key (e : Entry) : Int × String := (e.tmdbId, e.mediaType)

/-- The titles and requests, and the blocklist. Its rows stand in the order of their
ids. -/
structure Tables where
  db : Db := {}
  entries : List Entry := []
deriving DecidableEq, Repr

/-- `blocklist_entry_exists`. -/
def Tables.listed (s : Tables) (tmdbId : Int) (mediaType : String) : Bool :=
  s.entries.any (·.key == (tmdbId, mediaType))

/-- The titles and requests as they were written: an entry goes with its title
(`ON DELETE CASCADE`). -/
def Tables.withDb (s : Tables) (db : Db) : Tables :=
  { db := db
    entries := s.entries.filter fun e => e.mediaId.all fun id => db.media.any (·.id == id) }

/-! ## Additions -/

/-- `blocklist_media`: the title's row, which becomes or is inserted `BLOCKLISTED` in
both qualities, and its id. -/
def blocklistMedia (now : String) (db : Db) (media : Option MediaRow) (mediaType : String)
    (tmdbId : Int) : Db × Int :=
  match media with
  | none =>
    (db.insertMedia now
      { mediaType := mediaType
        tmdbId := tmdbId
        status := MediaStatus.blocklisted
        status4k := MediaStatus.blocklisted }, db.nextMediaId)
  | some m =>
    (if m.status ≠ MediaStatus.blocklisted ∨ m.status4k ≠ MediaStatus.blocklisted then
      db.updateMedia m.id fun m =>
        { m with
          status := MediaStatus.blocklisted
          status4k := MediaStatus.blocklisted
          updatedAt := some now }
    else db, m.id)

/-- An entry inserted and pointed to its media row, in one transaction. -/
def Tables.block (s : Tables) (now : String) (entry : Entry) (media : Option MediaRow) : Tables :=
  let (db, mediaId) := blocklistMedia now s.db media entry.mediaType entry.tmdbId
  { db := db, entries := s.entries ++ [{ entry with mediaId := some mediaId }] }

/-- `BlocklistBody`. -/
structure BlocklistBody where
  tmdbId : Int
  mediaType : String
  title : Option String := none
  user : Int
  tags : Option String := none
deriving DecidableEq, Repr

/-- `blocklist_add`. -/
def blocklistAdd (now : String) (known : Int → Bool) (body : BlocklistBody) (s : Tables) :
    Except Refusal Tables :=
  if known body.user = false ∨ s.listed body.tmdbId body.mediaType = true then
    .error (.answer 409 "Something wrong")
  else
    .ok (s.block now
      { mediaType := body.mediaType
        title := body.title
        tmdbId := body.tmdbId
        blocklistedTags := body.tags
        userId := some body.user }
      (s.db.mediaByTmdb body.tmdbId body.mediaType))

/-- `unique_parts`: the first position of each id with its last title. -/
def uniqueParts (parts : List (Int × Option String)) : List (Int × Option String) :=
  coalesce Prod.fst (fun slot part => (slot.1, part.2)) parts

/-- The entries `collection_add` inserts, each with the media row of its movie. -/
def freshEntries (user : Int) (parts : List (Int × Option String)) (s : Tables) :
    List (Entry × Option MediaRow) :=
  ((uniqueParts parts).filter fun part => !s.listed part.1 "movie").map fun part =>
    ({ mediaType := "movie", title := part.2, tmdbId := part.1, userId := some user },
      s.db.mediaByTmdb part.1 "movie")

/-- `collection_add`. -/
def collectionAdd (now : String) (user : Int) (parts : List (Int × Option String)) (s : Tables) :
    Tables :=
  (freshEntries user parts s).foldl (fun s fresh => s.block now fresh.1 fresh.2) s

/-! ## Removals -/

/-- An entry deleted, then its title's media row. -/
def Tables.unblock (s : Tables) (tmdbId : Int) (mediaType : String) : Tables :=
  let s := { s with entries := s.entries.eraseP (·.key == (tmdbId, mediaType)) }
  match s.db.mediaByTmdb tmdbId mediaType with
  | none => s
  | some m => s.withDb (s.db.deleteMedia m.id)

/-- `blocklist_delete`: the tables, and its refusal. -/
def blocklistDelete (tmdbId : Int) (mediaType : String) (s : Tables) : Tables × Option Refusal :=
  if s.listed tmdbId mediaType = false then (s, some (.answer 404 "Blocklist not found."))
  else
    (s.unblock tmdbId mediaType,
      if (s.db.mediaByTmdb tmdbId mediaType).isNone then some (.answer 404 "Media not found.")
      else none)

/-- `collection_remove`. -/
def collectionRemove (ids : List Int) (s : Tables) : Tables :=
  ids.foldl (fun s id => if s.listed id "movie" then s.unblock id "movie" else s) s

/-! ## Histories -/

/-- A step: an addition or removal, a scan of a title, a turn of the resets at the end
of a run, or a request. The turns may come in any order and at any time. -/
inductive Act
  | add (now : String) (known : Int → Bool) (body : BlocklistBody)
  | addCollection (now : String) (user : Int) (parts : List (Int × Option String))
  | remove (tmdbId : Int) (mediaType : String)
  | removeCollection (ids : List Int)
  | processMovie (c : Scan) (tmdbId : Int) (o : MovieOpts)
  | processShow (c : Scan) (tmdbId : Int) (tvdb : Option Int) (seasons : List ProcessableSeason)
      (o : ShowOpts)
  | resolveTitle (c : Scan) (abandoned : Int → Bool → Option Int → Bool) (mediaId : Int)
      (fourK : Bool)
  | resolveSeasons (c : SeasonReset)
  | create (c : Call)

/-- The tables after a step. A refused addition leaves them as they are. -/
def Act.apply : Act → Tables → Tables
  | add now known body, s => (blocklistAdd now known body s).toOption.getD s
  | addCollection now user parts, s => collectionAdd now user parts s
  | remove tmdbId mediaType, s => (blocklistDelete tmdbId mediaType s).1
  | removeCollection ids, s => collectionRemove ids s
  | processMovie c tmdbId o, s => s.withDb (c.processMovie tmdbId o s.db)
  | processShow c tmdbId tvdb seasons o, s =>
    s.withDb (c.processShow tmdbId tvdb seasons o s.db)
  | resolveTitle c abandoned mediaId fourK, s =>
    s.withDb (c.resolveTitle abandoned mediaId fourK s.db)
  | resolveSeasons c, s => s.withDb (c.resolve.final s.db)
  | create c, s => s.withDb (c.applied s.db)

/-- A step that can be taken: a run records the seasons of shows alone, and the ids
the database gives are new. -/
def Act.Possible (s : Tables) : Act → Prop
  | resolveSeasons c => ∀ m, s.db.mediaById c.mediaId = some m → m.mediaType = "tv"
  | create c => c.env.Fresh s.db ∧ ∀ m ∈ s.db.media, m.id ≠ c.env.newMediaId
  | _ => True

def Step (s : Tables) (act : Act) (t : Tables) : Prop := act.Possible s ∧ t = act.apply s

/-- **The steps that leave the blocklist alone**: no scan finds a blocklisted movie
processing or with a file, none goes through a blocklisted show, and no season of one
falls back. -/
def Ok (s : Tables) : Act → Prop
  | .processMovie _ tmdbId o =>
    s.listed tmdbId "movie" = true → o.processing = false ∧ o.hasFile = false
  | .processShow _ tmdbId _ _ _ => s.listed tmdbId "tv" = false
  | .resolveSeasons c =>
    ∀ m, s.db.mediaById c.mediaId = some m → s.listed m.tmdbId m.mediaType = true →
      c.resets m = false
  | _ => True

/-- The steps that remove the entry of a title. -/
def Act.removes (act : Act) (tmdbId : Int) (mediaType : String) : Bool :=
  match act with
  | remove tmdbId' mediaType' => tmdbId' == tmdbId && mediaType' == mediaType
  | removeCollection ids => mediaType == "movie" && ids.contains tmdbId
  | _ => false

/-- A title blocklisted in both qualities. -/
def Tables.Blocklisted (s : Tables) (tmdbId : Int) (mediaType : String) : Prop :=
  ∃ m, s.db.mediaByTmdb tmdbId mediaType = some m ∧ m.Blocklisted

/-- Every request for a title is refused, whoever sends it and whatever it asks for. -/
def Tables.Refuses (s : Tables) (tmdbId : Int) (mediaType : String) : Prop :=
  ∀ (c : Call) body, parseBody c.raw = .ok body → body.mediaId = tmdbId →
    body.mediaType = mediaType →
    ∃ refusal, create c.settings c.env s.db c.user c.raw = .error refusal

/-! ## The invariant -/

/-- The titles of entries are blocklisted, each found by its own key and by its id. -/
structure Blocks (entries : List Entry) (db : Db) : Prop where
  titles : (db.media.map (·.id)).Nodup
  requests : (db.requests.map (·.id)).Nodup
  blocked : ∀ e ∈ entries, ∃ m, db.mediaByTmdb e.tmdbId e.mediaType = some m
    ∧ e.mediaId = some m.id ∧ m.Blocklisted

/-- **The invariant**: a title has one entry at most (the unique index), and is
blocklisted. -/
structure Tables.Sound (s : Tables) : Prop extends Blocks s.entries s.db where
  keys : (s.entries.map Entry.key).Nodup

theorem key_of_mediaByTmdb {db : Db} {tmdbId : Int} {mediaType : String} {m : MediaRow}
    (h : db.mediaByTmdb tmdbId mediaType = some m) :
    m.tmdbId = tmdbId ∧ m.mediaType = mediaType := by
  have hkey := List.find?_some h
  simpa only [Bool.and_eq_true, beq_iff_eq] using hkey

theorem listed_iff {s : Tables} {tmdbId : Int} {mediaType : String} :
    s.listed tmdbId mediaType = true ↔ ∃ e ∈ s.entries, e.key = (tmdbId, mediaType) := by
  simp only [Tables.listed, List.any_eq_true, beq_iff_eq]

namespace Blocks

variable {entries : List Entry} {db db' : Db} {about : Option Int} {e : Entry} {m : MediaRow}

/-- The title of an entry, as it is found by its id. -/
theorem of_mediaById (h : Blocks entries db) (he : e ∈ entries) {id : Int}
    (hid : e.mediaId = some id) (hm : db.mediaById id = some m) :
    m.Blocklisted ∧ db.mediaByTmdb e.tmdbId e.mediaType = some m
      ∧ (m.tmdbId, m.mediaType) = e.key := by
  obtain ⟨m', hfound, hmedia, hblock⟩ := h.blocked e he
  have hsame : m' = m := by
    have hbyId := Db.Spares.mediaById h.titles hfound
    rw [Option.some.inj (hmedia.symm.trans hid)] at hbyId
    exact Option.some.inj (hbyId.symm.trans hm)
  obtain ⟨htmdb, htype⟩ := key_of_mediaByTmdb hfound
  exact hsame ▸ ⟨hblock, hfound, Prod.ext htmdb htype⟩

/-- What spares the titles of the entries keeps them blocklisted. -/
theorem spares (h : Blocks entries db) (hspares : db'.Spares about db)
    (hother : ∀ e ∈ entries, ∀ id, e.mediaId = some id → about ≠ some id) : Blocks entries db' where
  titles := hspares.titles.nodup h.titles
  requests := hspares.requests_nodup h.requests
  blocked e he := by
    obtain ⟨m, hfound, hmedia, hblock⟩ := h.blocked e he
    obtain ⟨m', hfound', hid, hblock'⟩ :=
      hspares.found hfound (hother e he m.id hmedia) hblock
    exact ⟨m', hfound', hmedia.trans (congrArg some hid.symm), hblock'⟩

/-- A title inserted under a new id. -/
theorem insertTitle (h : Blocks entries db) {row : MediaRow}
    (hfresh : ∀ m ∈ db.media, m.id ≠ row.id) :
    Blocks entries { db with media := db.media ++ [row] } where
  titles := by
    rw [List.map_append, List.nodup_append]
    refine ⟨h.titles, List.nodup_singleton _, fun id hid id' hid' => ?_⟩
    obtain ⟨m, hm, rfl⟩ := List.mem_map.mp hid
    rw [List.map_singleton, List.mem_singleton] at hid'
    exact hid' ▸ hfresh m hm
  requests := h.requests
  blocked e he := by
    obtain ⟨m, hfound, hmedia, hblock⟩ := h.blocked e he
    refine ⟨m, ?_, hmedia, hblock⟩
    unfold Db.mediaByTmdb at hfound ⊢
    rw [List.find?_append, hfound, Option.some_or]

/-- A request inserted under a new id. -/
theorem insertRequest (h : Blocks entries db) (row : RequestRow)
    (hfresh : ∀ r ∈ db.requests, r.id ≠ row.id) :
    Blocks entries { db with requests := db.requests ++ [row] } where
  titles := h.titles
  requests := by
    rw [List.map_append, List.nodup_append]
    refine ⟨h.requests, List.nodup_singleton _, fun id hid id' hid' => ?_⟩
    obtain ⟨r, hr, rfl⟩ := List.mem_map.mp hid
    rw [List.map_singleton, List.mem_singleton] at hid'
    exact hid' ▸ hfresh r hr
  blocked := h.blocked

end Blocks

namespace Tables.Sound

variable {s : Tables} {db' : Db}

/-- **A write that keeps the titles of the entries blocklisted** takes no entry. -/
theorem withDb (h : s.Sound) (hblocks : Blocks s.entries db') :
    (s.withDb db').Sound ∧ (s.withDb db').entries = s.entries := by
  have hentries : (s.withDb db').entries = s.entries := by
    refine List.filter_eq_self.mpr fun e he => ?_
    obtain ⟨m, hfound, hmedia, -⟩ := hblocks.blocked e he
    rw [hmedia, Option.all_some]
    exact List.any_eq_true.mpr ⟨m, List.mem_of_find?_eq_some hfound, beq_self_eq_true _⟩
  refine ⟨⟨?_, ?_⟩, hentries⟩
  · rw [hentries]
    exact hblocks
  · rw [hentries]
    exact h.keys

/-- **A write about one title** keeps the others, and that one too where it is
blocklisted and the write spares it. -/
theorem spares (h : s.Sound) {id : Int} (hspares : db'.Spares (some id) s.db)
    (hsame : ∀ m, s.db.mediaById id = some m → m.Blocklisted →
      s.db.mediaByTmdb m.tmdbId m.mediaType = some m → s.listed m.tmdbId m.mediaType = true →
      db'.Spares none s.db) :
    Blocks s.entries db' := by
  by_cases hentry : ∃ e ∈ s.entries, e.mediaId = some id
  · obtain ⟨e, he, hid⟩ := hentry
    obtain ⟨m, hfound, hmedia, -⟩ := h.blocked e he
    have hbyId := Db.Spares.mediaById h.titles hfound
    rw [Option.some.inj (hmedia.symm.trans hid)] at hbyId
    obtain ⟨hblock, hfound, hkey⟩ := h.of_mediaById he hid hbyId
    have hlisted : s.listed m.tmdbId m.mediaType = true := listed_iff.mpr ⟨e, he, hkey.symm⟩
    have hself : s.db.mediaByTmdb m.tmdbId m.mediaType = some m := by
      obtain ⟨htmdb, htype⟩ := Prod.mk.inj hkey
      rw [htmdb, htype]
      exact hfound
    exact h.toBlocks.spares (hsame m hbyId hblock hself hlisted) fun _ _ _ _ =>
      (Option.some_ne_none _).symm
  · refine h.toBlocks.spares hspares fun e he id' hid' heq => hentry ⟨e, he, ?_⟩
    exact hid'.trans heq.symm

/-- **A title with an entry is refused**, by the status of its row. -/
theorem refuses (h : s.Sound) {e : Entry} (he : e ∈ s.entries) :
    s.Refuses e.tmdbId e.mediaType := by
  intro c body hbody htmdb htype
  obtain ⟨m, hfound, -, hblock⟩ := h.blocked e he
  cases hcreated : create c.settings c.env s.db c.user c.raw with
  | error refusal => exact ⟨refusal, rfl⟩
  | ok db' =>
    obtain ⟨body', p, hbody', hp, -⟩ := create_ok hcreated
    obtain rfl := Except.ok.inj (hbody.symm.trans hbody')
    obtain ⟨details, resolved, hdecided⟩ := prepare_ok hp
    have hplan := hdecided.plan
    rw [htmdb, htype, hfound] at hplan
    simp only [mediaPlan, hblock.1, if_true] at hplan
    cases hplan

end Tables.Sound

/-! ## Additions and removals keep it -/

/-- A title inserted is found by its key where none was, and the others as they
were. -/
theorem mediaByTmdb_insert (db : Db) (row : MediaRow) (tmdbId : Int) (mediaType : String) :
    ({ db with media := db.media ++ [row] } : Db).mediaByTmdb tmdbId mediaType
      = (db.mediaByTmdb tmdbId mediaType).or
          (if (row.tmdbId, row.mediaType) = (tmdbId, mediaType) then some row else none) := by
  unfold Db.mediaByTmdb
  rw [List.find?_append]
  congr 1
  by_cases hkey : (row.tmdbId, row.mediaType) = (tmdbId, mediaType)
  · obtain ⟨htmdb, htype⟩ := Prod.mk.inj hkey
    rw [if_pos hkey]
    simp [htmdb, htype]
  · rw [if_neg hkey]
    refine List.find?_eq_none.mpr fun m hm => ?_
    obtain rfl := List.mem_singleton.mp hm
    simpa [Prod.ext_iff] using hkey

section Block

variable {s : Tables} {now : String} {entry : Entry} {media : Option MediaRow}

/-- What `blocklist_media` makes of the titles: the entry's own is blocklisted, the
others stay as they were. -/
theorem blocklistMedia_spec (now : String) (h : s.Sound)
    (hmedia : s.db.mediaByTmdb entry.tmdbId entry.mediaType = media) {db' : Db} {id : Int}
    (hwrite : blocklistMedia now s.db media entry.mediaType entry.tmdbId = (db', id)) :
    Blocks s.entries db'
      ∧ (∃ m, db'.mediaByTmdb entry.tmdbId entry.mediaType = some m ∧ m.id = id ∧ m.Blocklisted)
      ∧ ∀ tmdbId mediaType, (tmdbId, mediaType) ≠ entry.key →
          db'.mediaByTmdb tmdbId mediaType = s.db.mediaByTmdb tmdbId mediaType := by
  cases media with
  | none =>
    cases hwrite
    refine ⟨h.toBlocks.insertTitle s.db.nextMediaId_fresh, ?_, fun tmdbId mediaType hne => ?_⟩
    · unfold Db.insertMedia
      rw [mediaByTmdb_insert, hmedia, if_pos rfl, Option.none_or]
      exact ⟨_, rfl, rfl, rfl, rfl⟩
    · unfold Db.insertMedia
      rw [mediaByTmdb_insert, if_neg fun heq => hne heq.symm, Option.or_none]
  | some m =>
    let blocked (m : MediaRow) : MediaRow :=
      { m with
        status := MediaStatus.blocklisted
        status4k := MediaStatus.blocklisted
        updatedAt := some now }
    obtain ⟨htmdb, htype⟩ := key_of_mediaByTmdb hmedia
    unfold blocklistMedia at hwrite
    dsimp only at hwrite
    split at hwrite
    · cases hwrite
      have hmap := Db.Spares.mediaByTmdb_map (a := s.db.updateMedia m.id blocked) (b := s.db) rfl
        fun m' => by
          split
          · exact ⟨rfl, rfl, rfl⟩
          · exact .refl m'
      have hspares : (s.db.updateMedia m.id blocked).Spares none s.db :=
        .updateMedia_of_kept s.db m.id (fun _ => ⟨rfl, rfl, rfl⟩) fun _ _ => ⟨rfl, rfl⟩
      refine ⟨h.toBlocks.spares hspares fun _ _ _ _ => (Option.some_ne_none _).symm, ?_,
        fun tmdbId mediaType hne => ?_⟩
      · refine ⟨blocked m, ?_, rfl, ⟨rfl, rfl⟩⟩
        rw [hmap, hmedia, Option.map_some, if_pos rfl]
      · rw [hmap]
        cases hfound : s.db.mediaByTmdb tmdbId mediaType with
        | none => rfl
        | some m' =>
          have hother : m'.id ≠ m.id := by
            intro hid
            have hsame : m' = m := List.inj_on_of_nodup_map h.titles
              (List.mem_of_find?_eq_some hfound) (List.mem_of_find?_eq_some hmedia) hid
            obtain ⟨htmdb', htype'⟩ := key_of_mediaByTmdb hfound
            refine hne (Prod.ext ?_ ?_)
            · exact htmdb'.symm.trans (hsame ▸ htmdb)
            · exact htype'.symm.trans (hsame ▸ htype)
          rw [Option.map_some, if_neg hother]
    · next hblock =>
      cases hwrite
      simp only [ne_eq, not_or, not_not] at hblock
      exact ⟨h.toBlocks, ⟨m, hmedia, rfl, hblock⟩, fun _ _ _ => rfl⟩

/-- **An addition** blocklists its title. -/
theorem block_sound (h : s.Sound) (hnew : s.listed entry.tmdbId entry.mediaType = false)
    (hmedia : s.db.mediaByTmdb entry.tmdbId entry.mediaType = media) :
    (s.block now entry media).Sound := by
  obtain ⟨hblocks, hown, -⟩ := blocklistMedia_spec now h hmedia rfl
  constructor
  · refine ⟨hblocks.titles, hblocks.requests, fun e he => ?_⟩
    rcases List.mem_append.mp he with he | he
    · exact hblocks.blocked e he
    · obtain rfl := List.mem_singleton.mp he
      obtain ⟨m, hfound, hid, hblock⟩ := hown
      exact ⟨m, hfound, congrArg some hid.symm, hblock⟩
  · show ((s.entries ++ [_]).map Entry.key).Nodup
    rw [List.map_append, List.nodup_append]
    refine ⟨h.keys, List.nodup_singleton _, fun key hkey key' hkey' heq => ?_⟩
    obtain ⟨e, he, rfl⟩ := List.mem_map.mp hkey
    rw [List.map_singleton, List.mem_singleton] at hkey'
    have hlisted : s.listed entry.tmdbId entry.mediaType = true :=
      listed_iff.mpr ⟨e, he, heq.trans hkey'⟩
    rw [hnew] at hlisted
    cases hlisted

/-- An addition leaves the other titles as they were. -/
theorem block_other (h : s.Sound)
    (hmedia : s.db.mediaByTmdb entry.tmdbId entry.mediaType = media) {tmdbId : Int}
    {mediaType : String} (hne : (tmdbId, mediaType) ≠ entry.key) :
    (s.block now entry media).listed tmdbId mediaType = s.listed tmdbId mediaType
      ∧ (s.block now entry media).db.mediaByTmdb tmdbId mediaType
        = s.db.mediaByTmdb tmdbId mediaType := by
  refine ⟨?_, (blocklistMedia_spec now h hmedia rfl).2.2 tmdbId mediaType hne⟩
  have hown : (entry.key == (tmdbId, mediaType)) = false := beq_eq_false_iff_ne.mpr hne.symm
  show (s.entries ++ [_]).any _ = _
  rw [List.any_append, List.any_cons, List.any_nil, Bool.or_false]
  exact (congrArg _ hown).trans (Bool.or_false _)

end Block

/-- The parts of a collection yet to be blocklisted, at their turn. -/
theorem freshEntries_sound {now : String} {s : Tables} (h : s.Sound)
    {fresh : List (Entry × Option MediaRow)} (hkeys : (fresh.map (·.1.key)).Nodup)
    (hfresh : ∀ f ∈ fresh, s.listed f.1.tmdbId f.1.mediaType = false
      ∧ s.db.mediaByTmdb f.1.tmdbId f.1.mediaType = f.2) :
    (fresh.foldl (fun s f => s.block now f.1 f.2) s).Sound
      ∧ ∀ e ∈ s.entries, e ∈ (fresh.foldl (fun s f => s.block now f.1 f.2) s).entries := by
  induction fresh generalizing s with
  | nil => exact ⟨h, fun _ he => he⟩
  | cons f fresh ih =>
    obtain ⟨hnew, hmedia⟩ := hfresh f List.mem_cons_self
    rw [List.map_cons, List.nodup_cons] at hkeys
    have hrest : ∀ f' ∈ fresh,
        (s.block now f.1 f.2).listed f'.1.tmdbId f'.1.mediaType = false
          ∧ (s.block now f.1 f.2).db.mediaByTmdb f'.1.tmdbId f'.1.mediaType = f'.2 := by
      intro f' hf'
      have hne : (f'.1.tmdbId, f'.1.mediaType) ≠ f.1.key := fun heq =>
        hkeys.1 (heq ▸ List.mem_map_of_mem (f := fun f => f.1.key) hf')
      obtain ⟨hlisted, hfound⟩ := block_other h hmedia hne
      rw [hlisted, hfound]
      exact hfresh f' (List.mem_cons_of_mem _ hf')
    obtain ⟨hsound, hentries⟩ := ih (block_sound h hnew hmedia) hkeys.2 hrest
    exact ⟨hsound, fun e he => hentries e (List.mem_append_left _ he)⟩

/-- **The addition of a collection** blocklists its movies, and keeps the entries. -/
theorem collectionAdd_sound {s : Tables} (h : s.Sound) (now : String) (user : Int)
    (parts : List (Int × Option String)) :
    (collectionAdd now user parts s).Sound
      ∧ ∀ e ∈ s.entries, e ∈ (collectionAdd now user parts s).entries := by
  refine freshEntries_sound h ?_ fun f hf => ?_
  · have hslot : ∀ slot part : Int × Option String, Prod.fst (slot.1, part.2) = slot.1 :=
      fun _ _ => rfl
    have hparts : ((uniqueParts parts).map Prod.fst).Nodup := nodup_coalesce hslot parts
    unfold freshEntries
    rw [List.map_map]
    have hkey : (fun f : Entry × Option MediaRow => f.1.key) ∘ (fun part : Int × Option String =>
        (({ mediaType := "movie", title := part.2, tmdbId := part.1, userId := some user } : Entry),
          s.db.mediaByTmdb part.1 "movie")) = (fun id => (id, "movie")) ∘ Prod.fst := rfl
    rw [hkey, ← List.map_map]
    exact (List.Nodup.sublist (List.filter_sublist.map _) hparts).map fun _ _ heq =>
      (Prod.mk.inj heq).1
  · obtain ⟨part, hpart, rfl⟩ := List.mem_map.mp hf
    exact ⟨by simpa using (List.mem_filter.mp hpart).2, rfl⟩

/-- **An addition** keeps the entries, and the invariant. -/
theorem blocklistAdd_sound {s : Tables} (h : s.Sound) (now : String) (known : Int → Bool)
    (body : BlocklistBody) :
    ((blocklistAdd now known body s).toOption.getD s).Sound
      ∧ ∀ e ∈ s.entries, e ∈ ((blocklistAdd now known body s).toOption.getD s).entries := by
  unfold blocklistAdd
  split
  · exact ⟨h, fun _ he => he⟩
  · next hnew =>
    have hlisted : s.listed body.tmdbId body.mediaType = false := by
      simpa using fun hl => hnew (.inr hl)
    exact ⟨block_sound h hlisted rfl, fun e he => List.mem_append_left _ he⟩

/-- An entry whose key was deleted is gone: it was the only one. -/
theorem key_ne_of_mem_eraseP {entries : List Entry} (hkeys : (entries.map Entry.key).Nodup)
    {key : Int × String} {e : Entry} (he : e ∈ entries.eraseP (·.key == key)) : e.key ≠ key := by
  have hmem : e.key ∈ (entries.eraseP (·.key == key)).map Entry.key := List.mem_map_of_mem he
  have herase : (entries.eraseP (·.key == key)).map Entry.key
      = (entries.map Entry.key).erase key := by
    rw [List.erase_eq_eraseP', List.eraseP_map]
    rfl
  rw [herase, hkeys.mem_erase_iff] at hmem
  exact hmem.1

/-- **A removal** keeps the invariant, and the entries of other titles. -/
theorem unblock_sound {s : Tables} (h : s.Sound) (tmdbId : Int) (mediaType : String) :
    (s.unblock tmdbId mediaType).Sound
      ∧ ∀ e ∈ s.entries, e.key ≠ (tmdbId, mediaType) →
          e ∈ (s.unblock tmdbId mediaType).entries := by
  let s' : Tables := { s with entries := s.entries.eraseP (·.key == (tmdbId, mediaType)) }
  have hs' : s'.Sound := by
    refine ⟨⟨h.titles, h.requests, fun e he => h.blocked e (List.mem_of_mem_eraseP he)⟩, ?_⟩
    exact ((List.eraseP_sublist).map _).nodup h.keys
  have hkept : ∀ e ∈ s.entries, e.key ≠ (tmdbId, mediaType) → e ∈ s'.entries := fun e he hne =>
    (List.mem_eraseP_of_neg (by simpa using hne)).mpr he
  unfold Tables.unblock
  dsimp only
  split
  · exact ⟨hs', hkept⟩
  · next m hfound =>
    have hblocks : Blocks s'.entries (s'.db.deleteMedia m.id) := by
      refine hs'.toBlocks.spares (.deleteMedia s'.db m.id) fun e he id hid heq => ?_
      have hm : s.db.mediaById m.id = some m := Db.Spares.mediaById h.titles hfound
      obtain ⟨-, -, hkey⟩ := hs'.toBlocks.of_mediaById he (hid.trans heq.symm) hm
      obtain ⟨htmdb, htype⟩ := key_of_mediaByTmdb hfound
      exact key_ne_of_mem_eraseP h.keys he (hkey.symm.trans (Prod.ext htmdb htype))
    obtain ⟨hsound, hentries⟩ := hs'.withDb hblocks
    exact ⟨hsound, fun e he hne => hentries ▸ hkept e he hne⟩

/-- **A deletion** keeps the entries of other titles. -/
theorem blocklistDelete_sound {s : Tables} (h : s.Sound) (tmdbId : Int) (mediaType : String) :
    (blocklistDelete tmdbId mediaType s).1.Sound
      ∧ ∀ e ∈ s.entries, (tmdbId == e.tmdbId && mediaType == e.mediaType) = false →
          e ∈ (blocklistDelete tmdbId mediaType s).1.entries := by
  obtain ⟨hsound, hentries⟩ := unblock_sound h tmdbId mediaType
  unfold blocklistDelete
  split
  · exact ⟨h, fun _ he _ => he⟩
  · refine ⟨hsound, fun e he hout => hentries e he fun hkey => ?_⟩
    obtain ⟨htmdb, htype⟩ := Prod.mk.inj hkey
    simp [htmdb, htype] at hout

/-- **The removal of a collection** keeps the entries of what is not in it. -/
theorem collectionRemove_sound {s : Tables} (h : s.Sound) (ids : List Int) :
    (collectionRemove ids s).Sound
      ∧ ∀ e ∈ s.entries, (e.mediaType == "movie" && ids.contains e.tmdbId) = false →
          e ∈ (collectionRemove ids s).entries := by
  induction ids generalizing s with
  | nil => exact ⟨h, fun _ he _ => he⟩
  | cons id ids ih =>
    have hturn : (if s.listed id "movie" then s.unblock id "movie" else s).Sound
        ∧ ∀ e ∈ s.entries, e.key ≠ (id, "movie") →
            e ∈ (if s.listed id "movie" then s.unblock id "movie" else s).entries := by
      split
      · exact unblock_sound h id "movie"
      · exact ⟨h, fun _ he _ => he⟩
    obtain ⟨hsound, hentries⟩ := ih hturn.1
    refine ⟨hsound, fun e he hout => hentries e (hturn.2 e he fun hkey => ?_) ?_⟩
    · obtain ⟨htmdb, htype⟩ := Prod.mk.inj hkey
      simp [htmdb, htype] at hout
    · simp only [Bool.and_eq_false_iff, List.contains_cons, Bool.or_eq_false_iff] at hout ⊢
      exact hout.imp_right fun hids => hids.2

/-! ## Requests keep it -/

section Creations

variable {s : Tables} {c : Call} {body : Body} {details : Details} {resolved : Option Resolved}
  {p : Prepared}

theorem runHooks_spares {db : Db} {env : HookEnv} {id : Int} {about : Option Int}
    (howner : ∀ e, db.requestById id = some e → e.mediaId = about) :
    (db.runHooks env id).Spares about db := by
  unfold Db.runHooks
  split
  · exact .refl about db
  · next e he => exact howner e he ▸ (afterUpdate_within env ⟨db, e⟩).spares

theorem saveMediaStatus_spares (env : CallEnv) (db : Db) (m : MediaRow) (plan : MediaPlan) :
    (saveMediaStatus env db m plan).Spares (some m.id) db := by
  unfold saveMediaStatus
  split
  · exact .updateMedia db m.id fun _ => ⟨rfl, rfl, rfl⟩
  · exact .refl _ db

/-- **The title of a request that is let through** has no entry. -/
theorem mediaId_ne_of_decided (h : s.Sound)
    (hdecided : Decided c.settings c.env s.db c.user body details resolved p)
    (hnew : ∀ m ∈ s.db.media, m.id ≠ c.env.newMediaId) :
    ∀ e ∈ s.entries, ∀ id, e.mediaId = some id → some (p.mediaId c.env) ≠ some id := by
  intro e he id hid heq
  obtain ⟨m, hfound, hmedia, hblock⟩ := h.blocked e he
  have hown : m.id = p.mediaId c.env := Option.some.inj (hmedia.symm.trans (hid.trans heq.symm))
  have hplan := hdecided.plan
  have hexisting := mediaPlan_existing hplan
  unfold Prepared.mediaId at hown
  cases hstored : s.db.mediaByTmdb body.mediaId body.mediaType with
  | none =>
    rw [hexisting, hstored] at hown
    exact hnew m (List.mem_of_find?_eq_some hfound) hown
  | some m' =>
    rw [hexisting, hstored] at hown
    have hsame : m = m' := List.inj_on_of_nodup_map h.titles (List.mem_of_find?_eq_some hfound)
      (List.mem_of_find?_eq_some hstored) hown
    rw [hstored, ← hsame] at hplan
    simp only [mediaPlan, hblock.1, if_true] at hplan
    cases hplan

/-- The rows of a request that is inserted. -/
theorem writeRequestRows_blocks (h : s.Sound)
    (hdecided : Decided c.settings c.env s.db c.user body details resolved p)
    (hfresh : c.env.Fresh s.db) (hnew : ∀ m ∈ s.db.media, m.id ≠ c.env.newMediaId) :
    Blocks s.entries (writeRequestRows c.env s.db c.user body p) := by
  have hother := mediaId_ne_of_decided h hdecided hnew
  have hmedia : Blocks s.entries (writeMedia c.env s.db body p.plan).1
      ∧ (writeMedia c.env s.db body p.plan).1.requests = s.db.requests := by
    unfold writeMedia
    unfold Prepared.mediaId at hother
    cases hexisting : p.plan.existing with
    | none => exact ⟨h.toBlocks.insertTitle hnew, rfl⟩
    | some m =>
      rw [hexisting] at hother
      exact ⟨h.toBlocks.spares (saveMediaStatus_spares c.env s.db m p.plan) hother,
        saveMediaStatus_requests c.env s.db m p.plan⟩
  unfold writeRequestRows
  exact hmedia.1.insertRequest (insertedRequest c.env c.user body p _) fun r hr =>
    hfresh.request r (hmedia.2 ▸ hr)

theorem insertion_blocks (h : s.Sound)
    (hdecided : Decided c.settings c.env s.db c.user body details resolved p)
    (hfresh : c.env.Fresh s.db) (hnew : ∀ m ∈ s.db.media, m.id ≠ c.env.newMediaId) :
    Blocks s.entries ((writeRequestRows c.env s.db c.user body p).runHooks c.env.hooks
      c.env.newRequestId) := by
  have hrows := writeRequestRows_blocks h hdecided hfresh hnew
  refine hrows.spares (runHooks_spares fun e he => ?_) (mediaId_ne_of_decided h hdecided hnew)
  have hinserted : insertedRequest c.env c.user body p (p.mediaId c.env)
      ∈ (writeRequestRows c.env s.db c.user body p).requests := by
    rw [writeRequestRows_requests]
    exact List.mem_append_right _ (List.mem_singleton_self _)
  have hfound := Table.find?_key hrows.requests hinserted
  exact (Option.some.inj (hfound.symm.trans he)) ▸ rfl

theorem replacement_mediaId (env : CallEnv) (user : UserRecord) (p : Prepared)
    (plan : EpisodePlan) (old r : RequestRow) :
    (replacement env user p plan old r).mediaId = r.mediaId := by
  unfold replacement replacedChildren
  split <;> rfl

theorem replaceRequest_blocks (h : s.Sound)
    (hdecided : Decided c.settings c.env s.db c.user body details resolved p)
    (hnew : ∀ m ∈ s.db.media, m.id ≠ c.env.newMediaId) {plan : EpisodePlan} {old : RequestRow}
    (hplan : p.episodes = some plan) (hold : plan.replace = some old) :
    Blocks s.entries (replaceRequest c.env s.db c.user p plan old) := by
  obtain ⟨-, m, hexisting, hmem⟩ := replaced_owner hdecided hplan hold
  have hother := mediaId_ne_of_decided h hdecided hnew
  unfold Prepared.mediaId at hother
  rw [hexisting] at hother
  refine h.toBlocks.spares ?_ hother
  have hrow : ∀ db : Db, (db.updateRequest old.id (replacement c.env c.user p plan old)).Spares
      (some m.id) db := by
    intro db
    refine .of_media rfl ?_
    unfold Db.updateRequest
    rw [List.map_map]
    refine (List.map_congr_left fun r _ => ?_).symm ▸ .refl _
    simp only [Function.comp_apply]
    split
    · rw [replacement_id, replacement_mediaId]
    · rfl
  have hwritten := (hrow _).trans (saveMediaStatus_spares c.env s.db m p.plan)
  unfold replaceRequest
  rw [hexisting]
  dsimp only [Option.elim_some]
  split
  · refine (runHooks_spares fun e he => ?_).trans hwritten
    obtain ⟨hrequest, howner⟩ := List.mem_filter.mp hmem
    exact (hwritten.owner_eq h.requests hrequest he).trans (by simpa using howner)
  · exact hwritten

/-- **A request** leaves the titles of the entries blocklisted. -/
theorem applied_blocks (h : s.Sound) (c : Call) (hfresh : c.env.Fresh s.db)
    (hnew : ∀ m ∈ s.db.media, m.id ≠ c.env.newMediaId) : Blocks s.entries (c.applied s.db) := by
  unfold Call.applied
  cases hcreated : create c.settings c.env s.db c.user c.raw with
  | error refusal => exact h.toBlocks
  | ok db' =>
    obtain ⟨body, p, hbody, hp, hwrites⟩ := create_ok hcreated
    obtain ⟨details, resolved, hdecided⟩ := prepare_ok hp
    rcases hwrites with ⟨rfl, -⟩ | ⟨plan, old, hplan, hold, rfl⟩
    · exact insertion_blocks h hdecided hfresh hnew
    · exact replaceRequest_blocks h hdecided hnew hplan hold

end Creations

/-! ## Scans keep it -/

section Scans

variable {s : Tables}

theorem processMovie_blocks (h : s.Sound) (c : Scan) (tmdbId : Int) {o : MovieOpts}
    (hok : s.listed tmdbId "movie" = true → o.processing = false ∧ o.hasFile = false) :
    Blocks s.entries (c.processMovie tmdbId o s.db) := by
  cases hfound : s.db.mediaByTmdb tmdbId "movie" with
  | none =>
    rcases Scan.processMovie_new (c := c) (o := o) hfound with hsame | ⟨row, hrow⟩
    · rw [hsame]
      exact h.toBlocks
    · rw [hrow]
      exact h.toBlocks.insertTitle s.db.nextMediaId_fresh
  | some m =>
    refine h.spares (Scan.processMovie_spares h.titles hfound) fun m' hm' hblock _ hlisted => ?_
    obtain rfl := Option.some.inj ((Db.Spares.mediaById h.titles hfound).symm.trans hm')
    obtain ⟨htmdb, htype⟩ := key_of_mediaByTmdb hfound
    rw [htmdb, htype] at hlisted
    obtain ⟨hprocessing, hfile⟩ := hok hlisted
    exact Scan.processMovie_spares_blocklisted h.titles hfound hblock hprocessing hfile

theorem processShow_blocks (h : s.Sound) (c : Scan) (tmdbId : Int) (tvdb : Option Int)
    (seasons : List ProcessableSeason) (o : ShowOpts) (hok : s.listed tmdbId "tv" = false) :
    Blocks s.entries (c.processShow tmdbId tvdb seasons o s.db) := by
  cases hfound : s.db.mediaByTmdb tmdbId "tv" with
  | none =>
    obtain ⟨row, hrow⟩ : ∃ row, c.processShow tmdbId tvdb seasons o s.db
        = s.db.insertMedia c.now row := Scan.processShow_new hfound
    rw [hrow]
    exact h.toBlocks.insertTitle s.db.nextMediaId_fresh
  | some m =>
    refine h.spares (Scan.processShow_spares h.titles hfound) fun m' hm' _ _ hlisted => ?_
    obtain rfl := Option.some.inj ((Db.Spares.mediaById h.titles hfound).symm.trans hm')
    obtain ⟨htmdb, htype⟩ := key_of_mediaByTmdb hfound
    rw [htmdb, htype, hok] at hlisted
    cases hlisted

theorem resolveTitle_blocks (h : s.Sound) (c : Scan) (abandoned : Int → Bool → Option Int → Bool)
    (mediaId : Int) (fourK : Bool) :
    Blocks s.entries (c.resolveTitle abandoned mediaId fourK s.db) := by
  refine h.spares (Scan.resolveTitle_spares h.requests abandoned mediaId fourK)
    fun m hm hblock _ _ => ?_
  rw [Scan.resolveTitle_blocklisted abandoned fourK hm hblock]
  exact .refl none s.db

theorem resolveSeasons_blocks (h : s.Sound) (c : SeasonReset)
    (htv : ∀ m, s.db.mediaById c.mediaId = some m → m.mediaType = "tv")
    (hok : ∀ m, s.db.mediaById c.mediaId = some m → s.listed m.tmdbId m.mediaType = true →
      c.resets m = false) : Blocks s.entries (c.resolve.final s.db) := by
  refine h.spares (SeasonReset.resolve_spares h.requests) fun m hm hblock hfound hlisted => ?_
  rw [htv m hm] at hfound
  exact SeasonReset.resolve_spares_blocklisted h.requests h.titles hfound (Db.mediaById_id hm)
    hblock (hok m hm hlisted)

end Scans

/-! ## Histories keep it -/

/-- **A step** that leaves the blocklist alone keeps the invariant, and every entry it
does not remove. -/
theorem step_sound {s t : Tables} {act : Act} (h : s.Sound) (hstep : Guarded Step Ok s act t) :
    t.Sound ∧ ∀ e ∈ s.entries, act.removes e.tmdbId e.mediaType = false → e ∈ t.entries := by
  obtain ⟨hok, hpossible, rfl⟩ := hstep
  have hwrite : ∀ {db' : Db}, Blocks s.entries db' → (s.withDb db').Sound
      ∧ ∀ e ∈ s.entries, act.removes e.tmdbId e.mediaType = false → e ∈ (s.withDb db').entries := by
    intro db' hblocks
    obtain ⟨hsound, hentries⟩ := h.withDb hblocks
    exact ⟨hsound, fun e he _ => hentries ▸ he⟩
  cases act with
  | add now known body =>
    obtain ⟨hsound, hentries⟩ := blocklistAdd_sound h now known body
    exact ⟨hsound, fun e he _ => hentries e he⟩
  | addCollection now user parts =>
    obtain ⟨hsound, hentries⟩ := collectionAdd_sound h now user parts
    exact ⟨hsound, fun e he _ => hentries e he⟩
  | remove tmdbId mediaType =>
    exact blocklistDelete_sound h tmdbId mediaType
  | removeCollection ids => exact collectionRemove_sound h ids
  | processMovie c tmdbId o => exact hwrite (processMovie_blocks h c tmdbId hok)
  | processShow c tmdbId tvdb seasons o =>
    exact hwrite (processShow_blocks h c tmdbId tvdb seasons o hok)
  | resolveTitle c abandoned mediaId fourK =>
    exact hwrite (resolveTitle_blocks h c abandoned mediaId fourK)
  | resolveSeasons c => exact hwrite (resolveSeasons_blocks h c hpossible hok)
  | create c => exact hwrite (applied_blocks h c hpossible.1 hpossible.2)

/-- **While a title has an entry** it is blocklisted in both qualities and every request
for it is refused, after any history of steps that leave the blocklist alone; and only
a removal of its entry takes it off. -/
theorem listed_stays_blocklisted {s t : Tables} {acts : List Act} (hsound : s.Sound)
    (hrun : Run (Guarded Step Ok) s acts t) {e : Entry} (he : e ∈ t.entries) :
    t.Blocklisted e.tmdbId e.mediaType ∧ t.Refuses e.tmdbId e.mediaType
      ∧ ∀ act u, Guarded Step Ok t act u → act.removes e.tmdbId e.mediaType = false →
          e ∈ u.entries ∧ u.Refuses e.tmdbId e.mediaType := by
  have ht : t.Sound := hrun.invariant (fun _ _ _ h hstep => (step_sound h hstep).1) hsound
  obtain ⟨m, hfound, -, hblock⟩ := ht.blocked e he
  refine ⟨⟨m, hfound, hblock⟩, ht.refuses he, fun act u hstep hkept => ?_⟩
  obtain ⟨hu, hentries⟩ := step_sound ht hstep
  exact ⟨hentries e he hkept, hu.refuses (hentries e he hkept)⟩

/-! ### A blocklisted movie that turns up -/

theorem empty_sound : ({} : Tables).Sound :=
  ⟨⟨List.nodup_nil, List.nodup_nil, fun _ he => absurd he List.not_mem_nil⟩, List.nodup_nil⟩

/-- Hooks that meet no server. -/
def noServers : HookEnv := ⟨"", ⟨false, false, false⟩, ⟨false, none, none, false, false⟩⟩

/-- Movie 603 is put on the blocklist. -/
def blocklisted603 : Act :=
  .add "" (fun _ => true) { tmdbId := 603, mediaType := "movie", user := 1 }

/-- A scan goes through movie 603, which the server has or not. -/
def scanned603 (hasFile : Bool) : Act :=
  .processMovie { envs := fun _ => noServers } 603 { hasFile := hasFile }

/-- A user who may request in 4K asks for movie 603. -/
def asked603 : Call where
  settings := { users := [{ id := 2, permissions := Permission.request + Permission.request4k }] }
  env :=
    { clock := ⟨fun _ => 0, fun _ _ => true, fun _ _ => true, fun _ _ => true⟩
      details := .ok { id := some 603 }
      newMediaId := 50
      newRequestId := 50
      newChildId := fun i => 50 + i
      hooks := noServers }
  user := { id := 2, permissions := Permission.request + Permission.request4k }
  raw := { mediaType := "movie", mediaId := some 603, is4k := some true }

/-- Movie 603 on the blocklist, scanned since. -/
def rescanned603 (hasFile : Bool) : Tables := (scanned603 hasFile).apply (blocklisted603.apply {})

/-- **A movie on the blocklist that a server has** is no longer blocklisted, and a
request for it is let through. -/
theorem scanned_is_requestable :
    ({} : Tables).Sound
      ∧ Run Step {} [blocklisted603, scanned603 true] (rescanned603 true)
      ∧ (rescanned603 true).listed 603 "movie" = true
      ∧ ¬ (rescanned603 true).Blocklisted 603 "movie"
      ∧ ¬ (rescanned603 true).Refuses 603 "movie" := by
  have hstatus : ((rescanned603 true).db.mediaByTmdb 603 "movie").map (·.status)
      = some MediaStatus.available := by decide
  have hcreated : (create asked603.settings asked603.env (rescanned603 true).db asked603.user
      asked603.raw).isOk = true := by decide
  refine ⟨empty_sound, .cons ⟨trivial, rfl⟩ (.cons ⟨trivial, rfl⟩ (.nil _)), by decide, ?_, ?_⟩
  · rintro ⟨m, hfound, hblock, -⟩
    rw [hfound, Option.map_some, hblock] at hstatus
    exact absurd hstatus (by decide)
  · intro hrefuses
    obtain ⟨refusal, hrefused⟩ := hrefuses asked603 _ rfl rfl rfl
    rw [hrefused] at hcreated
    cases hcreated

/-- A movie on the blocklist that a server lists without a file stays there. -/
theorem listed_stays_blocklisted_unmonitored :
    (rescanned603 false).Blocklisted 603 "movie" ∧ (rescanned603 false).Refuses 603 "movie" := by
  have hrun : Run (Guarded Step Ok) {} [blocklisted603, scanned603 false] (rescanned603 false) :=
    .cons ⟨trivial, trivial, rfl⟩ (.cons ⟨fun _ => ⟨rfl, rfl⟩, trivial, rfl⟩ (.nil _))
  have hentry : { tmdbId := 603, mediaType := "movie", userId := some 1, mediaId := some 1 }
      ∈ (rescanned603 false).entries := by decide
  obtain ⟨hblock, hrefuses, -⟩ := listed_stays_blocklisted empty_sound hrun hentry
  exact ⟨hblock, hrefuses⟩

end Foreseerr.Blocklist

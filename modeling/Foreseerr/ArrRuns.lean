import Foreseerr.ArrScan
import Foreseerr.GivenUp

/-!
# The records of a Radarr or Sonarr scan

What a run has recorded by the end of its lists covers all that the servers listed: the
records only grow (`State.Grows`), and every entry a server listed waits, is in a worker's
hands, or has left its record (`Inv.covered`). So what a record does not have no server
said.
-/

namespace Foreseerr

namespace ArrScan

/-! ## The records of a run grow -/

/-- A record has all the failures another has, and still pursues what it pursues. -/
structure Pursued.Grows (p p' : Pursued) : Prop where
  failed : p.failed ⊆ p'.failed
  still : ∀ tmdbId fourK season, p.still tmdbId fourK season = true →
    p'.still tmdbId fourK season = true

namespace Pursued

theorem Grows.refl (p : Pursued) : p.Grows p := ⟨List.Subset.refl _, fun _ _ _ h => h⟩

theorem Grows.trans {p p' p'' : Pursued} (h : p.Grows p') (h' : p'.Grows p'') : p.Grows p'' :=
  ⟨List.Subset.trans h.failed h'.failed, fun t q n hstill => h'.still t q n (h.still t q n hstill)⟩

theorem grows_pursue (p : Pursued) (tmdbId : Int) (fourK : Bool) (seasons : List Int) :
    p.Grows (p.pursue tmdbId fourK seasons) := by
  refine ⟨List.Subset.refl _, fun t q season hstill => ?_⟩
  unfold still pursue at *
  dsimp only
  split
  · cases hpursued : p.processing t q with
    | none => simp [hpursued] at hstill
    | some pursued => cases season <;> simp_all
  · exact hstill

/-- A title that is pursued is pursued, and so are the seasons it is pursued for. -/
theorem still_pursue (p : Pursued) (tmdbId : Int) (fourK : Bool) {seasons : List Int}
    {season : Option Int} (h : season.all seasons.contains = true) :
    (p.pursue tmdbId fourK seasons).still tmdbId fourK season = true := by
  cases season <;> simp_all [still, pursue]

theorem grows_fail (p : Pursued) (tvdb : Int) (fourK : Bool) : p.Grows (p.fail tvdb fourK) :=
  ⟨List.subset_append_left _ _, fun _ _ _ h => h⟩

theorem grows_resolve (p : Pursued) (tvdb tmdbId : Int) : p.Grows (p.resolve tvdb tmdbId) :=
  ⟨List.Subset.refl _, fun _ _ _ h => h⟩

/-- The processing seasons of a series are pursued. -/
theorem pursueSeasons_spec (p : Pursued) (tmdbId : Int) (fourK : Bool)
    (seasons : List ProcessableSeason) :
    p.Grows (p.pursueSeasons tmdbId fourK seasons)
      ∧ ∀ season ∈ seasons, season.processing = true →
        (p.pursueSeasons tmdbId fourK seasons).still tmdbId fourK (some season.seasonNumber)
          = true := by
  unfold pursueSeasons
  suffices hloop : ∀ (l : List ProcessableSeason) (p : Pursued),
      p.Grows (l.foldl (fun p season => p.pursue tmdbId fourK [season.seasonNumber]) p)
        ∧ ∀ season ∈ l, (l.foldl (fun p season => p.pursue tmdbId fourK [season.seasonNumber])
          p).still tmdbId fourK (some season.seasonNumber) = true by
    obtain ⟨hgrows, hpursued⟩ := hloop (seasons.filter (·.processing)) p
    exact ⟨hgrows, fun season hseason hprocessing =>
      hpursued season (List.mem_filter.mpr ⟨hseason, hprocessing⟩)⟩
  intro l
  induction l with
  | nil => exact fun p => ⟨.refl p, by simp⟩
  | cons first l ih =>
    intro p
    obtain ⟨hgrows, hrest⟩ := ih (p.pursue tmdbId fourK [first.seasonNumber])
    refine ⟨(p.grows_pursue _ _ _).trans hgrows, fun season hseason => ?_⟩
    rcases List.mem_cons.mp hseason with rfl | hseason
    · exact hgrows.still _ _ _ (p.still_pursue tmdbId fourK (by simp))
    · exact hrest season hseason

end Pursued

/-- The records of a state have all that those of another have. -/
structure State.Grows (s s' : State) : Prop where
  marks : ∀ fourK, s.marks fourK ⊆ s'.marks fourK
  pursued : s.pursued.Grows s'.pursued
  listings : s.listings ⊆ s'.listings

theorem State.Grows.refl (s : State) : s.Grows s :=
  ⟨fun _ => List.Subset.refl _, .refl _, List.Subset.refl _⟩

/-- A step that lists nothing more. -/
theorem State.Grows.of_pursued {s s' : State} (hscanned : s'.scanned = s.scanned)
    (hscanned4k : s'.scanned4k = s.scanned4k) (hpursued : s.pursued.Grows s'.pursued)
    (hlistings : s.listings ⊆ s'.listings) : s.Grows s' := by
  refine ⟨fun fourK => ?_, hpursued, hlistings⟩
  unfold State.marks
  rw [hscanned, hscanned4k]
  exact List.Subset.refl _

/-! ## What the records cover -/

/-- A worker has the series, and has not its seasons yet. -/
def Turn.Holds (entry : Turn) (series : Json) (tvdb : Int) : Prop :=
  entry = .series series tvdb ∨ ∃ tmdbId, entry = .shown series tvdb tmdbId

/-- The series has failed, or was processed with its seasons. -/
def State.Ended (s : State) (fourK : Bool) (series : Json) (tvdb : Int) : Prop :=
  (tvdb, fourK) ∈ s.pursued.failed
    ∨ ∃ l ∈ s.listings, l.fourK = fourK ∧ l.series = series ∧ l.tvdb = tvdb

theorem State.Ended.mono {s s' : State} (h : s.Grows s') {fourK : Bool} {series : Json} {tvdb : Int}
    (hended : s.Ended fourK series tvdb) : s'.Ended fourK series tvdb :=
  hended.imp (fun hfailed => h.pursued.failed hfailed) fun hlisted =>
    hlisted.imp fun _ hl => ⟨h.listings hl.1, hl.2⟩

/-- An entry a server listed that no worker has taken. -/
def Phase.Waits (phase : Phase) (server item : Json) : Prop :=
  match phase with
  | .items current rest bundle _ => current = server ∧ (item ∈ rest ∨ item ∈ bundle)
  | .interrupted => True
  | _ => False

/-- A worker has the series of the server. -/
def Phase.Holds (phase : Phase) (server series : Json) (tvdb : Int) : Prop :=
  match phase with
  | .items current _ _ busy => current = server ∧ ∃ entry ∈ busy, entry.Holds series tvdb
  | .interrupted => True
  | _ => False

/-- No list is being gone through, and none was left. -/
def Phase.Over : Phase → Prop
  | .items .. | .interrupted => False
  | _ => True

theorem Phase.Over.not_waits {phase : Phase} (h : phase.Over) (server item : Json) :
    ¬phase.Waits server item := by
  cases phase <;> first | exact h.elim | exact fun hwait => hwait

theorem Phase.Over.not_holds {phase : Phase} (h : phase.Over) (server series : Json) (tvdb : Int) :
    ¬phase.Holds server series tvdb := by
  cases phase <;> first | exact h.elim | exact fun hhold => hhold

/-- What the records have of an entry that was taken: its title is listed, and a movie
the server awaits is pursued; a series has ended, or a worker has it. -/
def Config.Covers (c : Config) (s : State) (server item : Json) : Prop :=
  ∀ id, c.idOf item = some id → id ∈ s.marks (c.server4k server)
    ∧ match c.arr with
      | .radarr => awaited item = true → s.pursued.still id (c.server4k server) none = true
      | .sonarr => s.phase.Holds server item id ∨ s.Ended (c.server4k server) item id

theorem Config.Covers.mono {c : Config} {s s' : State} (h : s.Grows s') {server item : Json}
    (hholds : ∀ id, s.phase.Holds server item id →
      s'.phase.Holds server item id ∨ s'.Ended (c.server4k server) item id)
    (hcovers : c.Covers s server item) : c.Covers s' server item := by
  intro id hid
  obtain ⟨hmarks, hrecord⟩ := hcovers id hid
  refine ⟨h.marks _ hmarks, ?_⟩
  cases harr : c.arr with
  | radarr =>
    rw [harr] at hrecord
    exact fun hawaited => h.pursued.still _ _ _ (hrecord hawaited)
  | sonarr =>
    rw [harr] at hrecord
    exact hrecord.elim (hholds id) fun hended => .inr (hended.mono h)

/-- The seasons a series was processed with are pursued where they are processing. -/
def Listing.Noted (l : Listing) (p : Pursued) : Prop :=
  ∀ season ∈ l.seasons, season.processing = true →
    p.still l.tmdbId l.fourK (some season.seasonNumber) = true

theorem Listing.Noted.mono {l : Listing} {p p' : Pursued} (h : p.Grows p') (hnoted : l.Noted p) :
    l.Noted p' :=
  fun season hseason hprocessing => h.still _ _ _ (hnoted season hseason hprocessing)

/-- What `results` say of a server. -/
def Reported (heard : List (Json × List Json)) (server : Json) (result : Bool × Bool) : Prop :=
  RequestRouting.isTruthy "syncEnabled" server = false ∧ result = (false, false)
    ∨ RequestRouting.isTruthy "syncEnabled" server = true
      ∧ ∃ items, (server, items) ∈ heard ∧ result = (true, items.isEmpty)

/-! ## Turns -/

/-- **What a worker's step makes of its entry**: the records grow, a series it is done with
before it has its seasons has failed, and the tables give up nothing, or have a new
title. -/
structure Worked (fourK : Bool) (s s₁ : State) (entry : Turn) (entry' : Option Turn) : Prop where
  wrote : s₁.db.GivesUp none s.db ∨ ∃ now row, s₁.db = s.db.insertMedia now row
  movie : ∀ movie tmdbId, entry = .movie movie tmdbId →
    s₁.resets.seasons = s.resets.seasons ∧ entry' = none
  left : s₁.left = s.left
  results : s₁.results = s.results
  heard : s₁.heard = s.heard
  grows : s.Grows s₁
  noted : (∀ l ∈ s.listings, l.Noted s.pursued) → ∀ l ∈ s₁.listings, l.Noted s₁.pursued
  holds : ∀ series tvdb, entry.Holds series tvdb →
    (∃ e, entry' = some e ∧ e.Holds series tvdb) ∨ s₁.Ended fourK series tvdb

section Turns

variable {c : Config} {fourK : Bool} {s s₁ : State} {entry : Turn} {entry' : Option Turn}

theorem State.grows_fail (s : State) (tvdb : Int) (fourK : Bool) : s.Grows (s.fail tvdb fourK) :=
  ⟨fun _ => List.Subset.refl _, s.pursued.grows_fail tvdb fourK, List.Subset.refl _⟩

/-- A series that fails. -/
theorem worked_fail {tvdb : Int}
    (hentry : ∀ series' tvdb', entry.Holds series' tvdb' → tvdb' = tvdb) :
    Worked fourK s (s.fail tvdb fourK) entry none where
  wrote := .inl (.refl none s.db)
  movie _ _ _ := ⟨rfl, rfl⟩
  left := rfl
  results := rfl
  heard := rfl
  grows := s.grows_fail tvdb fourK
  noted h l hl := (h l hl).mono (s.pursued.grows_fail tvdb fourK)
  holds series' tvdb' hholds := by
    refine .inr (.inl ?_)
    rw [hentry series' tvdb' hholds]
    exact List.mem_append_right _ List.mem_cons_self

theorem worked_lookup {find : Option (Option Int)} {byId : Int → Option Json}
    (h : Config.lookup fourK find byId s entry = some (s₁, entry')) :
    Worked fourK s s₁ entry entry' := by
  cases entry with
  | series series tvdb =>
    unfold Config.lookup at h
    dsimp only at h
    split at h
    · next tmdbId _ =>
      cases h
      have hgrows := s.pursued.grows_resolve tvdb tmdbId
      refine ⟨.inl (.refl none s.db), by simp, rfl, rfl, rfl,
        .of_pursued rfl rfl hgrows (List.Subset.refl _), fun h l hl => (h l hl).mono hgrows, ?_⟩
      rintro series' tvdb' (heq | ⟨_, heq⟩)
      · cases heq
        exact .inl ⟨_, rfl, .inr ⟨tmdbId, rfl⟩⟩
      · cases heq
    · cases h
      refine worked_fail ?_
      rintro series' tvdb' (heq | ⟨_, heq⟩) <;> cases heq
      rfl
  | movie => cases h
  | shown => cases h
  | listed => cases h

theorem worked_list {provided : Option Json} {specials : Bool}
    {aired : Option (List CatalogEpisode × List Json)}
    (h : Config.list fourK provided specials aired s entry = some (s₁, entry')) :
    Worked fourK s s₁ entry entry' := by
  cases entry with
  | shown series tvdb tmdbId =>
    unfold Config.list at h
    dsimp only at h
    split at h
    · next seasons _ =>
      cases h
      obtain ⟨hgrows, hpursued⟩ := s.pursued.pursueSeasons_spec tmdbId fourK seasons
      refine ⟨.inl (.refl none s.db), by simp, rfl, rfl, rfl,
        .of_pursued rfl rfl hgrows (List.subset_append_left _ _), fun h l hl => ?_, ?_⟩
      · rcases List.mem_append.mp hl with hl | hl
        · exact (h l hl).mono hgrows
        · obtain rfl := List.mem_singleton.mp hl
          exact hpursued
      · rintro series' tvdb' (heq | ⟨_, heq⟩)
        · cases heq
        · cases heq
          exact .inr (.inr ⟨_, List.mem_append_right _ List.mem_cons_self, rfl, rfl, rfl⟩)
    · cases h
      refine worked_fail ?_
      rintro series' tvdb' (heq | ⟨_, heq⟩) <;> cases heq
      rfl
  | movie => cases h
  | series => cases h
  | listed => cases h

/-- An entry that is saved gives up nothing, or is a new title. -/
theorem settle_db {server : Json} {t : Moment} (htitles : (s.db.media.map (·.id)).Nodup)
    (h : c.settle server t s entry = some (s₁, entry')) :
    s₁.db.GivesUp none s.db ∨ ∃ now row, s₁.db = s.db.insertMedia now row := by
  cases entry with
  | movie movie tmdbId =>
    cases h
    cases hfound : s.db.mediaByTmdb tmdbId "movie" with
    | some m =>
      exact .inl (Scan.processMovie_givesUp rfl ((Scan.findMedia_eq htitles _ _).trans hfound))
    | none =>
      refine (Scan.processMovie_new (c := c.scanAt t) hfound).imp (fun heq => ?_) fun hnew =>
        ⟨_, hnew⟩
      exact heq.symm ▸ .refl none s.db
  | listed series tvdb tmdbId seasons =>
    have hshow : s₁.db = (c.scanAt t).processShow tmdbId (some tvdb) seasons
        { services := serviceOpts server series, is4k := c.server4k server } s.db := by
      unfold Config.settle at h
      dsimp only at h
      split at h
      · cases h
        rfl
      · cases h
        split <;> rfl
    rw [hshow]
    cases hfound : s.db.mediaByTmdb tmdbId "tv" with
    | some m =>
      exact .inl (Scan.processShow_givesUp htitles ((Scan.findMedia_eq htitles _ _).trans hfound))
    | none => exact .inr ⟨_, Scan.processShow_new (c := c.scanAt t) hfound⟩
  | series => cases h
  | shown => cases h

/-- An entry that is saved has its seasons, and only the tables and the resets change, or
it fails. -/
theorem worked_settle {server : Json} {t : Moment} (htitles : (s.db.media.map (·.id)).Nodup)
    (h : c.settle server t s entry = some (s₁, entry')) :
    Worked (c.server4k server) s s₁ entry entry' := by
  have hwrote := settle_db htitles h
  have hworked : s₁.left = s.left → s₁.results = s.results → s₁.heard = s.heard →
      s₁.scanned = s.scanned → s₁.scanned4k = s.scanned4k → s.pursued.Grows s₁.pursued →
      s₁.listings = s.listings → (∀ series tvdb, ¬entry.Holds series tvdb) →
      (∀ movie tmdbId, entry = .movie movie tmdbId →
        s₁.resets.seasons = s.resets.seasons ∧ entry' = none) →
      Worked (c.server4k server) s s₁ entry entry' := by
    intro hleft hresults hheard hscanned hscanned4k hgrows hlistings hnone hmovie
    refine ⟨hwrote, hmovie, hleft, hresults, hheard,
      .of_pursued hscanned hscanned4k hgrows (hlistings ▸ List.Subset.refl _),
      fun h l hl => (h l (hlistings ▸ hl)).mono hgrows,
      fun series tvdb hholds => absurd hholds (hnone series tvdb)⟩
  cases entry with
  | movie movie tmdbId =>
    cases h
    refine hworked rfl rfl rfl rfl rfl (.refl _) rfl (fun _ _ => by simp [Turn.Holds])
      fun _ _ _ => ⟨?_, rfl⟩
    cases Scan.findMedia s.db tmdbId "movie" with
    | none => rfl
    | some m =>
      unfold Resets.noteTitle
      dsimp only [Option.elim_some]
      split_ifs <;> rfl
  | listed series tvdb tmdbId seasons =>
    unfold Config.settle at h
    dsimp only at h
    split at h
    · cases h
      exact hworked rfl rfl rfl rfl rfl (.refl _) rfl (fun _ _ => by simp [Turn.Holds]) (by simp)
    · cases h
      refine hworked ?_ ?_ ?_ ?_ ?_ ?_ ?_ (fun _ _ => by simp [Turn.Holds]) (by simp)
      all_goals split
      all_goals first | rfl | exact s.pursued.grows_fail _ _ | exact .refl _
  | series => cases h
  | shown => cases h

theorem worked_failed (h : Config.fail fourK s entry = some (s₁, entry')) :
    Worked fourK s s₁ entry entry' := by
  cases entry with
  | movie =>
    cases h
    exact ⟨.inl (.refl none s.db), fun _ _ _ => ⟨rfl, rfl⟩, rfl, rfl, rfl, .refl _, id,
      fun _ _ h => absurd h (by simp [Turn.Holds])⟩
  | series =>
    cases h
    refine worked_fail fun _ _ hholds => ?_
    simp only [Turn.Holds, Turn.series.injEq, reduceCtorEq, exists_false, or_false] at hholds
    exact hholds.2.symm
  | shown =>
    cases h
    refine worked_fail fun _ _ hholds => ?_
    simp only [Turn.Holds, Turn.shown.injEq, reduceCtorEq, false_or] at hholds
    exact hholds.choose_spec.2.1.symm
  | listed =>
    cases h
    exact worked_fail fun _ _ hholds => absurd hholds (by simp [Turn.Holds])

end Turns

/-! ## The invariant -/

/-- The rows the cleanup of a quality still has to check. -/
def Phase.snapshot : Phase → List MediaRow
  | .orphans _ _ _ media => media
  | _ => []

/-- What the rest of the program writes: no two rows share an id, and a title that is to
be checked is still itself, if it is there. -/
def State.Lawful (s : State) : Event → Prop
  | .other write =>
    ((write s.db).media.map (·.id)).Nodup ∧ ((write s.db).requests.map (·.id)).Nodup
      ∧ ∀ m ∈ (write s.db).media, ∀ row ∈ s.phase.snapshot, m.id = row.id → m.SameTitle row
  | _ => True

/-- Once the servers are gone through, the flags are what `results` say. -/
def Config.Judged (c : Config) (s : State) (flags : Cleanup) : Prop :=
  s.left = [] ∧ flags = cleanupFlags c.servers c.enable4k s.results

/-- What holds of a phase. -/
def Config.Staged (c : Config) (s : State) : Prop :=
  match s.phase with
  | .servers | .items .. | .ended | .interrupted => True
  | .titles flags _ _ | .cleaning flags _ => c.Judged s flags
  | .orphans flags _ fourK media =>
    c.Judged s flags ∧ flags.of fourK = true
      ∧ ∀ m ∈ s.db.media, ∀ row ∈ media, m.id = row.id → m.SameTitle row

/-- A run over Radarr has no seasons. -/
def State.Seasonless (s : State) : Prop :=
  s.resets.seasons = [] ∧
    match s.phase with
    | .items _ _ _ busy => ∀ entry ∈ busy, ∃ movie tmdbId, entry = .movie movie tmdbId
    | .titles _ _ seasons => seasons = []
    | _ => True

/-- **What holds in every state of a run**: every server begun has its result, what was
heard is covered by the records, and the flags are those of the results. -/
structure Inv (c : Config) (s : State) : Prop where
  begun : ∃ begun, c.servers = begun ++ s.left ∧ List.Forall₂ (Reported s.heard) begun s.results
  covered : ∀ server items, (server, items) ∈ s.heard → ∀ item ∈ items,
    s.phase.Waits server item ∨ c.Covers s server item
  noted : ∀ l ∈ s.listings, l.Noted s.pursued
  staged : c.Staged s
  seasonless : c.arr = .radarr → s.Seasonless
  titles : (s.db.media.map (·.id)).Nodup
  requests : (s.db.requests.map (·.id)).Nodup

section Steps

variable {c : Config} {s s' : State}

/-- What was heard stays covered where the entries that wait and those the workers have do
so still, or have left their record. -/
theorem Inv.covered_of (h : Inv c s) (hheard : s'.heard = s.heard) (hgrows : s.Grows s')
    (hwaits : ∀ server item, s.phase.Waits server item →
      s'.phase.Waits server item ∨ c.Covers s' server item)
    (hholds : ∀ server series tvdb, s.phase.Holds server series tvdb →
      s'.phase.Holds server series tvdb ∨ s'.Ended (c.server4k server) series tvdb) :
    ∀ server items, (server, items) ∈ s'.heard → ∀ item ∈ items,
      s'.phase.Waits server item ∨ c.Covers s' server item := by
  intro server items hmem item hitem
  rcases h.covered server items (hheard ▸ hmem) item hitem with hwait | hcovers
  · exact hwaits server item hwait
  · exact .inr (hcovers.mono hgrows fun id => hholds server item id)

theorem Reported.mono {heard heard' : List (Json × List Json)} (h : heard ⊆ heard') {server : Json}
    {result : Bool × Bool} (hreported : Reported heard server result) :
    Reported heard' server result :=
  hreported.imp_right fun hsynced =>
    ⟨hsynced.1, hsynced.2.imp fun _ hitems => ⟨h hitems.1, hitems.2⟩⟩

/-- The next server is begun. -/
theorem Inv.begun_next (h : Inv c s) {server : Json} {left : List Json}
    (hleft : s.left = server :: left) {heard : List (Json × List Json)}
    (hheard : s.heard ⊆ heard) {result : Bool × Bool}
    (hresult : Reported heard server result) :
    ∃ begun, c.servers = begun ++ left
      ∧ List.Forall₂ (Reported heard) begun (s.results ++ [result]) := by
  obtain ⟨begun, hservers, hbegun⟩ := h.begun
  refine ⟨begun ++ [server], by rw [hservers, hleft, List.append_assoc]; rfl, ?_⟩
  exact List.rel_append (hbegun.imp fun _ _ hreported => hreported.mono hheard) (.cons hresult .nil)

/-- A step that changes the tables and the phase, once nothing waits any more. -/
theorem Inv.of_db (h : Inv c s) (hover : s.phase.Over) (db : Db) (phase : Phase)
    (hstaged : c.Staged { s with db, phase })
    (hseasonless : c.arr = .radarr → State.Seasonless { s with db, phase })
    (htitles : (db.media.map (·.id)).Nodup) (hrequests : (db.requests.map (·.id)).Nodup) :
    Inv c { s with db, phase } where
  begun := h.begun
  covered := h.covered_of rfl ⟨fun _ => List.Subset.refl _, .refl _, List.Subset.refl _⟩
    (fun server item hwait => absurd hwait (hover.not_waits server item))
    fun server series tvdb hhold => absurd hhold (hover.not_holds server series tvdb)
  noted := h.noted
  staged := hstaged
  seasonless := hseasonless
  titles := htitles
  requests := hrequests

theorem insertMedia_ids {db : Db} (htitles : (db.media.map (·.id)).Nodup) (now : String)
    (row : MediaRow) : ((db.insertMedia now row).media.map (·.id)).Nodup := by
  unfold Db.insertMedia
  rw [List.map_append]
  refine htitles.append (List.nodup_singleton _) (List.disjoint_singleton.mpr fun hmem => ?_)
  obtain ⟨m, hm, hid⟩ := List.mem_map.mp hmem
  exact db.nextMediaId_fresh m hm hid

/-! ### Turns -/

variable {server : Json} {rest bundle : List Json} {busy : List Turn} {i : Nat}
  {f : State → Turn → Option (State × Option Turn)}

theorem turn_eq_some (h : Config.turn s server rest bundle busy i f = some s') :
    ∃ entry s₁ entry', busy[i]? = some entry ∧ f s entry = some (s₁, entry')
      ∧ s' = { s₁ with
          phase := .items server rest bundle
            (entry'.elim (busy.eraseIdx i) fun entry => busy.set i entry) } := by
  obtain ⟨entry, hentry, hmap⟩ := Option.bind_eq_some_iff.mp h
  obtain ⟨⟨s₁, entry'⟩, hf, heq⟩ := Option.map_eq_some_iff.mp hmap
  exact ⟨entry, s₁, entry', hentry, hf, heq.symm⟩

/-- The entry at a place goes on or is done with; the others stay. -/
theorem mem_turned {entry e : Turn} (hentry : busy[i]? = some entry) (entry' : Option Turn)
    (he : e ∈ busy) :
    e = entry ∨ e ∈ entry'.elim (busy.eraseIdx i) fun entry => busy.set i entry := by
  obtain ⟨j, hj⟩ := List.mem_iff_getElem?.mp he
  by_cases hij : j = i
  · exact .inl (Option.some.inj ((hij ▸ hj).symm.trans hentry))
  · right
    cases entry' with
    | none => exact List.mem_eraseIdx_iff_getElem?.mpr ⟨j, hij, hj⟩
    | some entry' =>
      refine List.mem_iff_getElem?.mpr ⟨j, ?_⟩
      rw [Option.elim_some, List.getElem?_set_ne (Ne.symm hij), hj]

/-- A worker's step keeps what holds of a run. -/
theorem Inv.turn (h : Inv c s) (hphase : s.phase = .items server rest bundle busy)
    (hworked : ∀ entry s₁ entry', f s entry = some (s₁, entry') →
      Worked (c.server4k server) s s₁ entry entry')
    (hturn : Config.turn s server rest bundle busy i f = some s') : Inv c s' := by
  obtain ⟨entry, s₁, entry', hentry, hf, rfl⟩ := turn_eq_some hturn
  have hw := hworked entry s₁ entry' hf
  have hgrows : s.Grows { s₁ with
      phase := .items server rest bundle
        (entry'.elim (busy.eraseIdx i) fun entry => busy.set i entry) } :=
    ⟨hw.grows.marks, hw.grows.pursued, hw.grows.listings⟩
  obtain ⟨begun, hservers, hbegun⟩ := h.begun
  refine ⟨⟨begun, by rw [hservers]; exact congrArg _ hw.left.symm, ?_⟩,
    h.covered_of hw.heard hgrows (fun server' item hwait => ?_) fun server' series tvdb hhold => ?_,
    hw.noted h.noted, trivial, fun hradarr => ?_, ?_, ?_⟩
  · show List.Forall₂ (Reported s₁.heard) begun s₁.results
    rw [hw.heard, hw.results]
    exact hbegun
  · rw [hphase] at hwait
    exact .inl hwait
  · rw [hphase] at hhold
    obtain ⟨rfl, e, he, hholds⟩ := hhold
    rcases mem_turned hentry entry' he with rfl | hstays
    · rcases hw.holds series tvdb hholds with ⟨e', rfl, he'⟩ | hended
      · refine .inl ⟨rfl, e', ?_, he'⟩
        exact List.mem_set (List.getElem?_eq_some_iff.mp hentry).1 e'
      · exact .inr hended
    · exact .inl ⟨rfl, e, hstays, hholds⟩
  · obtain ⟨hresets, hbusy⟩ := h.seasonless hradarr
    rw [hphase] at hbusy
    obtain ⟨movie, tmdbId, rfl⟩ := hbusy entry (List.mem_of_getElem? hentry)
    obtain ⟨hseasons, rfl⟩ := hw.movie movie tmdbId rfl
    exact ⟨hseasons.trans hresets, fun e he => hbusy e (List.mem_of_mem_eraseIdx he)⟩
  · rcases hw.wrote with hgave | ⟨now, row, hnew⟩
    · exact hgave.title_ids h.titles
    · exact hnew ▸ insertMedia_ids h.titles now row
  · rcases hw.wrote with hgave | ⟨now, row, hnew⟩
    · exact hgave.request_ids h.requests
    · exact hnew ▸ h.requests

/-! ### What is written -/

/-- A title is cleaned up as an orphan: it was not listed, and no server has it. -/
theorem cleanupOne_givesUp (hrequests : (s.db.requests.map (·.id)).Nodup) (t : Moment)
    (fourK : Bool) (answers : Nat → Option (List Json)) (row : MediaRow) :
    c.cleanupOne t fourK answers s row = s.db
      ∨ (c.cleanupOne t fourK answers s row).GivesUp (some (.whole row.id fourK)) s.db
        ∧ ∃ id, c.titleId row = some id ∧ id ∉ s.marks fourK
          ∧ c.existsInAnyServer id fourK answers = false := by
  unfold Config.cleanupOne
  cases hid : c.titleId row with
  | none => exact .inl rfl
  | some id =>
    dsimp only
    split
    · exact .inl rfl
    · next hknown =>
      simp only [Bool.or_eq_true, List.contains_iff_mem, not_or, Bool.not_eq_true] at hknown
      refine .inr ⟨?_, id, rfl, hknown.1, hknown.2⟩
      have hsaved : ((c.scanAt t).saveExisting s.db ⟨row, orphaned row fourK, []⟩).GivesUp
          (some (.whole row.id fourK)) s.db := by
        refine Scan.saveExisting_givesUp fun m _ _ _ q hunknown => ?_
        by_cases hq : q = fourK
        · subst hq
          exact .inr ⟨_, rfl, by cases q <;> rfl, rfl⟩
        · left
          cases q <;> cases fourK <;> first | exact absurd rfl hq | exact hunknown
      refine .trans (Scan.declineRequests_givesUp fun id hmem r hr hrid => ?_) hsaved
      obtain ⟨r₀, hr₀, hsame⟩ := hsaved.request hr
      exact (Scan.approvedRequests_isOf hrequests hmem r₀ hr₀ (hsame.id ▸ hrid)).congr
        hsame.id.symm hsame.mediaId.symm hsame.is4k.symm

/-! ### Every step -/

/-- The tables stay as they must be where a write gives up at most one title. -/
theorem Inv.of_givesUp (h : Inv c s) (hover : s.phase.Over) {db : Db} {about : Option Scope}
    (hdb : db.GivesUp about s.db) (phase : Phase) (hstaged : c.Staged { s with db, phase })
    (hseasonless : c.arr = .radarr → State.Seasonless { s with db, phase }) :
    Inv c { s with db, phase } :=
  h.of_db hover db phase hstaged hseasonless (hdb.title_ids h.titles)
    (hdb.request_ids h.requests)

/-- A worker takes an entry: what it leaves to others still waits, and its own is
recorded. -/
theorem Inv.take (h : Inv c s) {item : Json}
    (hphase : s.phase = .items server rest (item :: bundle) busy) :
    Inv c (c.take server item rest bundle busy s) := by
  have hwaits : ∀ (entries : List Turn) server' item', s.phase.Waits server' item' →
      (Phase.items server rest bundle entries).Waits server' item'
        ∨ server' = server ∧ item' = item := by
    intro entries server' item' hwait
    rw [hphase] at hwait
    obtain ⟨rfl, hrest | hbundle⟩ := hwait
    · exact .inl ⟨rfl, .inl hrest⟩
    · rcases List.mem_cons.mp hbundle with rfl | hbundle
      · exact .inr ⟨rfl, rfl⟩
      · exact .inl ⟨rfl, .inr hbundle⟩
  have hholds : ∀ (entries : List Turn) server' series tvdb, s.phase.Holds server' series tvdb →
      (Phase.items server rest bundle (busy ++ entries)).Holds server' series tvdb := by
    intro entries server' series tvdb hhold
    rw [hphase] at hhold
    obtain ⟨rfl, e, he, hholds⟩ := hhold
    exact ⟨rfl, e, List.mem_append_left _ he, hholds⟩
  have hbusy : c.arr = .radarr →
      ∀ entry ∈ busy, ∃ movie tmdbId, entry = Turn.movie movie tmdbId := by
    intro hradarr
    have hseasonless := (h.seasonless hradarr).2
    rwa [hphase] at hseasonless
  have hgrows : ∀ (id : Int) (p : Pursued) (phase : Phase), s.pursued.Grows p →
      s.Grows { s.mark (c.server4k server) id with pursued := p, phase } := by
    refine fun id p phase hp => ⟨fun fourK => ?_, hp, List.Subset.refl _⟩
    unfold State.marks State.mark
    cases fourK <;> cases c.server4k server <;>
      first | exact List.subset_append_left _ _ | exact List.Subset.refl _
  -- An entry with an id is listed, and its record is left or a worker has it.
  have htaken : ∀ (id : Int) (p : Pursued) (entry : Turn), c.idOf item = some id →
      s.pursued.Grows p →
      (match c.arr with
        | .radarr => (awaited item = true → p.still id (c.server4k server) none = true)
            ∧ ∃ movie tmdbId, entry = .movie movie tmdbId
        | .sonarr => entry.Holds item id) →
      Inv c { s.mark (c.server4k server) id with
        pursued := p, phase := .items server rest bundle (busy ++ [entry]) } := by
    intro id p entry hid hp hrecord
    refine ⟨h.begun, h.covered_of rfl (hgrows id p _ hp) (fun server' item' hwait => ?_)
      (fun server' series tvdb hhold => .inl (hholds [entry] server' series tvdb hhold)),
      fun l hl => (h.noted l hl).mono hp, trivial,
      fun hradarr => ⟨(h.seasonless hradarr).1, fun e he => ?_⟩, h.titles, h.requests⟩
    · rcases hwaits (busy ++ [entry]) server' item' hwait with hwait | ⟨rfl, rfl⟩
      · exact .inl hwait
      · refine .inr fun id' hid' => ?_
        obtain rfl := Option.some.inj (hid.symm.trans hid')
        refine ⟨?_, ?_⟩
        · unfold State.marks State.mark
          cases c.server4k server' <;> exact List.mem_append_right _ List.mem_cons_self
        · cases harr : c.arr with
          | radarr =>
            rw [harr] at hrecord
            exact hrecord.1
          | sonarr =>
            rw [harr] at hrecord
            exact .inl ⟨rfl, entry, List.mem_append_right _ List.mem_cons_self, hrecord⟩
    · rw [hradarr] at hrecord
      rcases List.mem_append.mp he with he | he
      · exact hbusy hradarr e he
      · obtain rfl := List.mem_singleton.mp he
        exact hrecord.2
  unfold Config.take
  cases hid : c.idOf item with
  | none =>
    refine ⟨h.begun, h.covered_of rfl ⟨fun _ => List.Subset.refl _, .refl _, List.Subset.refl _⟩
      (fun server' item' hwait => ?_) (fun server' series tvdb hhold => .inl ?_), h.noted, trivial,
      fun hradarr => ⟨(h.seasonless hradarr).1, hbusy hradarr⟩, h.titles, h.requests⟩
    · rcases hwaits busy server' item' hwait with hwait | ⟨-, rfl⟩
      · exact .inl hwait
      · exact .inr fun id hid' => absurd (hid.symm.trans hid') (by simp)
    · have hkept := hholds [] server' series tvdb hhold
      rwa [List.append_nil] at hkept
  | some id =>
    cases harr : c.arr with
    | radarr =>
      refine htaken id _ (.movie item id) hid ?_ ?_
      · split
        · exact s.pursued.grows_pursue _ _ _
        · exact .refl _
      · rw [harr]
        refine ⟨fun hawaited => ?_, item, id, rfl⟩
        rw [if_pos hawaited]
        exact s.pursued.still_pursue _ _ rfl
    | sonarr =>
      refine htaken id _ (.series item id) hid (.refl _) ?_
      rw [harr]
      exact .inl rfl

/-- **Every step of a run keeps what holds of it**, whatever the rest of the program
writes meanwhile. -/
theorem Inv.step (h : Inv c s) {event : Event} (hlawful : s.Lawful event)
    (hstep : c.Step s event s') : Inv c s' := by
  unfold Config.Step Config.step at hstep
  have hstaged := h.staged
  unfold Config.Staged at hstaged
  cases event with
  | other write =>
    cases hstep
    refine ⟨h.begun, h.covered, h.noted, ?_, h.seasonless, hlawful.1, hlawful.2.1⟩
    have hsnapshot := hlawful.2.2
    unfold Config.Staged
    cases hphase : s.phase with
    | orphans flags left fourK media =>
      rw [hphase] at hstaged hsnapshot
      exact ⟨hstaged.1, hstaged.2.1, hsnapshot⟩
    | titles => rwa [hphase] at hstaged
    | cleaning => rwa [hphase] at hstaged
    | _ => trivial
  | skip =>
    dsimp only at hstep
    split at hstep
    · next server left hphase hleft =>
      split at hstep
      · cases hstep
      · next hsynced =>
        cases hstep
        refine ⟨h.begun_next hleft (List.Subset.refl _)
          (.inl ⟨Bool.eq_false_iff.mpr hsynced, rfl⟩), h.covered, h.noted, ?_, h.seasonless,
          h.titles, h.requests⟩
        unfold Config.Staged
        dsimp only
        rw [hphase]
        trivial
    · cases hstep
  | answer items =>
    dsimp only at hstep
    split at hstep
    · next server left hphase hleft =>
      split at hstep
      · next hsynced =>
        cases hstep
        refine ⟨h.begun_next hleft (List.subset_append_left _ _)
          (.inr ⟨hsynced, items, List.mem_append_right _ List.mem_cons_self, rfl⟩),
          fun server' items' hmem item hitem => ?_, h.noted, trivial,
          fun hradarr => ⟨(h.seasonless hradarr).1, by simp⟩, h.titles, h.requests⟩
        rcases List.mem_append.mp hmem with hmem | hmem
        · rcases h.covered server' items' hmem item hitem with hwait | hcovers
          · rw [hphase] at hwait
            exact hwait.elim
          · right
            refine hcovers.mono ?_ fun id hhold => ?_
            · exact .of_pursued rfl rfl (.refl _) (List.Subset.refl _)
            · rw [hphase] at hhold
              exact hhold.elim
        · cases List.mem_singleton.mp hmem
          exact .inl ⟨rfl, .inl hitem⟩
      · cases hstep
    · cases hstep
  | interrupt =>
    dsimp only at hstep
    split at hstep
    all_goals first | (cases hstep; done) | skip
    all_goals
      cases hstep
      exact ⟨h.begun, fun _ _ _ _ _ => .inl trivial, h.noted, trivial,
        fun hradarr => ⟨(h.seasonless hradarr).1, trivial⟩, h.titles, h.requests⟩
  | bundle =>
    dsimp only at hstep
    split at hstep
    · next server item rest hphase =>
      cases hstep
      refine ⟨h.begun, h.covered_of rfl (.of_pursued rfl rfl (.refl _) (List.Subset.refl _))
        (fun server' item' hwait => .inl ?_) (fun server' series tvdb hhold => ?_), h.noted,
        trivial, fun hradarr => ⟨(h.seasonless hradarr).1, by simp⟩, h.titles, h.requests⟩
      · rw [hphase] at hwait
        obtain ⟨rfl, hmem | hmem⟩ := hwait
        · refine ⟨rfl, Or.symm (List.mem_append.mp ?_)⟩
          rwa [List.take_append_drop]
        · exact absurd hmem List.not_mem_nil
      · rw [hphase] at hhold
        obtain ⟨-, e, he, -⟩ := hhold
        exact absurd he List.not_mem_nil
    · cases hstep
  | take =>
    dsimp only at hstep
    split at hstep
    · next server rest item bundle busy hphase =>
      split at hstep
      · cases hstep
        exact h.take hphase
      · cases hstep
    · cases hstep
  | lookup i find byId =>
    dsimp only at hstep
    split at hstep
    · next hphase => exact h.turn hphase (fun _ _ _ hf => worked_lookup hf) hstep
    · cases hstep
  | list i provided specials aired =>
    dsimp only at hstep
    split at hstep
    · next hphase => exact h.turn hphase (fun _ _ _ hf => worked_list hf) hstep
    · cases hstep
  | settle i t =>
    dsimp only at hstep
    split at hstep
    · next hphase => exact h.turn hphase (fun _ _ _ hf => worked_settle h.titles hf) hstep
    · cases hstep
  | fail i =>
    dsimp only at hstep
    split at hstep
    · next hphase => exact h.turn hphase (fun _ _ _ hf => worked_failed hf) hstep
    · cases hstep
  | next =>
    dsimp only at hstep
    split at hstep
    · next hphase =>
      cases hstep
      refine ⟨h.begun, h.covered_of rfl (.of_pursued rfl rfl (.refl _) (List.Subset.refl _))
        (fun _ _ hwait => ?_) (fun _ _ _ hhold => ?_), h.noted, trivial,
        fun hradarr => ⟨(h.seasonless hradarr).1, trivial⟩, h.titles, h.requests⟩
      · simp [hphase, Phase.Waits] at hwait
      · simp [hphase, Phase.Holds] at hhold
    · cases hstep
  | resolve =>
    dsimp only at hstep
    split at hstep
    · next hphase hleft =>
      cases hstep
      refine h.of_givesUp (hphase ▸ trivial) (.refl none s.db) _ ⟨hleft, rfl⟩ fun hradarr => ?_
      exact ⟨(h.seasonless hradarr).1, (h.seasonless hradarr).1⟩
    · cases hstep
  | resolveTitle t =>
    dsimp only at hstep
    split at hstep
    · next flags mediaId fourK media seasons hphase =>
      cases hstep
      rw [hphase] at hstaged
      refine h.of_givesUp (hphase ▸ trivial)
        (Scan.resolveTitle_givesUp h.requests _ mediaId fourK) _ hstaged
        fun hradarr => ⟨(h.seasonless hradarr).1, ?_⟩
      have hseasonless := (h.seasonless hradarr).2
      rwa [hphase] at hseasonless
    · cases hstep
  | resolveSeasons t =>
    dsimp only at hstep
    split at hstep
    · next flags candidate seasons hphase =>
      cases hstep
      rw [hphase] at hstaged
      refine h.of_givesUp (hphase ▸ trivial) (SeasonReset.resolve_givesUp h.requests) _ hstaged
        fun hradarr => ⟨(h.seasonless hradarr).1, ?_⟩
      have hseasonless := (h.seasonless hradarr).2
      rw [hphase] at hseasonless
      exact absurd hseasonless (by simp)
    · cases hstep
  | resolved =>
    dsimp only at hstep
    split at hstep
    · next flags hphase =>
      cases hstep
      rw [hphase] at hstaged
      exact h.of_givesUp (hphase ▸ trivial) (.refl none s.db) _ hstaged
        fun hradarr => ⟨(h.seasonless hradarr).1, trivial⟩
    · cases hstep
  | load =>
    dsimp only at hstep
    split at hstep
    · next flags fourK left hphase =>
      cases hstep
      rw [hphase] at hstaged
      refine h.of_givesUp (hphase ▸ trivial) (.refl none s.db) _ ?_ fun hradarr =>
        ⟨(h.seasonless hradarr).1, ?_⟩
      · unfold Config.Staged
        dsimp only
        split_ifs with hflag
        · refine ⟨hstaged, hflag, fun m hm row hrow hid => ?_⟩
          obtain rfl := List.inj_on_of_nodup_map h.titles hm (List.mem_of_mem_filter hrow) hid
          exact .refl m
        · exact hstaged
      · split_ifs <;> trivial
    · next flags left fourK hphase =>
      cases hstep
      rw [hphase] at hstaged
      exact h.of_givesUp (hphase ▸ trivial) (.refl none s.db) _ hstaged.1
        fun hradarr => ⟨(h.seasonless hradarr).1, trivial⟩
    · next hphase =>
      cases hstep
      exact h.of_givesUp (hphase ▸ trivial) (.refl none s.db) _ trivial
        fun hradarr => ⟨(h.seasonless hradarr).1, trivial⟩
    · cases hstep
  | check t answers =>
    dsimp only at hstep
    split at hstep
    · next flags left fourK row rows hphase =>
      cases hstep
      rw [hphase] at hstaged
      have hgave : (c.cleanupOne t fourK answers s row).GivesUp
          (some (.whole row.id fourK)) s.db := by
        rcases cleanupOne_givesUp h.requests t fourK answers row with heq | hgave
        · rw [heq]
          exact .refl _ s.db
        · exact hgave.1
      refine h.of_givesUp (hphase ▸ trivial) hgave _
        ⟨hstaged.1, hstaged.2.1, fun m' hm' row' hrow' hid => ?_⟩
        fun hradarr => ⟨(h.seasonless hradarr).1, trivial⟩
      obtain ⟨m, hm, hsame⟩ := hgave.title hm'
      exact hsame.toSameTitle.trans (hstaged.2.2 m hm row' (List.mem_cons_of_mem _ hrow')
        (hsame.id.symm.trans hid))
    · cases hstep

end Steps

end ArrScan

end Foreseerr

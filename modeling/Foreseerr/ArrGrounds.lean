import Foreseerr.ArrRuns

/-!
# What a Radarr or Sonarr scan gives up

At the end of a run a scan declines requests and lets movies fall back, on the word of
its records. What is shown here is that the servers bear the records out, whatever the
order its workers take and whatever is answered or fails: a title is given up only once
**every** server of its quality was asked and listed something, and nothing they listed
of it is still pursued.
-/

namespace Foreseerr

namespace ArrScan

/-! ## The evidence -/

/-- Every server of the quality was asked and listed something, and there is one. -/
structure Config.Complete (c : Config) (s : State) (fourK : Bool) : Prop where
  some : ∃ server ∈ c.servers, c.server4k server = fourK
  heard : ∀ server ∈ c.servers, c.server4k server = fourK →
    RequestRouting.isTruthy "syncEnabled" server = true
      ∧ ∃ items, items ≠ [] ∧ (server, items) ∈ s.heard

/-- **No server pursues the title**, or this season of it. No movie of it that a server
listed is monitored without a file. Of the series that were listed each was processed with
its seasons, or last resolved to another title, or to none; and no season of a series that
is the title's is monitored without a file. -/
def Config.Unpursued (c : Config) (s : State) (tmdbId : Int) (fourK : Bool) (season : Option Int) :
    Prop :=
  match c.arr with
  | .radarr => ∀ server items, (server, items) ∈ s.heard → c.server4k server = fourK →
      ∀ movie ∈ items, c.idOf movie = some tmdbId → awaited movie = false
  | .sonarr =>
    (∀ server items, (server, items) ∈ s.heard → c.server4k server = fourK →
      ∀ series ∈ items, ∀ tvdb, c.idOf series = some tvdb →
        (∃ l ∈ s.listings, l.fourK = fourK ∧ l.series = series ∧ l.tvdb = tvdb)
          ∨ s.pursued.tmdbByTvdb tvdb ≠ some tmdbId)
    ∧ ∀ l ∈ s.listings, l.fourK = fourK → l.tmdbId = tmdbId → ∀ row ∈ l.seasons,
        (∀ n, season = some n → row.seasonNumber = n) → row.processing = false

/-- No server of the quality listed the id. -/
def Config.Unlisted (c : Config) (s : State) (id : Int) (fourK : Bool) : Prop :=
  ∀ server items, (server, items) ∈ s.heard → c.server4k server = fourK →
    ∀ item ∈ items, c.idOf item ≠ some id

section Evidence

variable {c : Config} {s : State}

theorem exists_mem_zip {α β : Type*} {R : α → β → Prop} {l : List α} {l' : List β}
    (h : List.Forall₂ R l l') {a : α} (ha : a ∈ l) : ∃ b, (a, b) ∈ l.zip l' ∧ R a b := by
  induction h with
  | nil => exact absurd ha List.not_mem_nil
  | @cons x y xs ys hxy _ ih =>
    rcases List.mem_cons.mp ha with rfl | ha
    · exact ⟨y, List.mem_cons_self, hxy⟩
    · obtain ⟨b, hb, hab⟩ := ih ha
      exact ⟨b, List.mem_cons_of_mem _ hb, hab⟩

/-- **A quality whose flag is set is complete.** -/
theorem Inv.complete (h : Inv c s) {flags : Cleanup} (hjudged : c.Judged s flags) {fourK : Bool}
    (hflag : flags.of fourK = true) : c.Complete s fourK := by
  have hquality : cleanupFlag c.servers c.enable4k s.results fourK = true := by
    rw [hjudged.2] at hflag
    cases fourK <;> exact hflag
  obtain ⟨begun, hservers, hbegun⟩ := h.begun
  rw [hjudged.1, List.append_nil] at hservers
  rw [← hservers] at hbegun
  unfold cleanupFlag at hquality
  simp only [Bool.and_eq_true, Bool.not_eq_true', List.isEmpty_eq_false_iff_exists_mem,
    List.mem_filter, List.all_eq_true, List.any_eq_false, beq_iff_eq] at hquality
  obtain ⟨⟨⟨report, hreport, -, h4k⟩, hsynced⟩, hlisted⟩ := hquality
  refine ⟨⟨report.1, (List.of_mem_zip hreport).1, h4k⟩, fun server hserver hquality => ?_⟩
  have hsync := hsynced server ⟨hserver, hquality⟩
  refine ⟨hsync, ?_⟩
  obtain ⟨result, hzip, ⟨hskipped, -⟩ | ⟨-, items, hheard, rfl⟩⟩ := exists_mem_zip hbegun hserver
  · exact absurd (hskipped.symm.trans hsync) (by simp)
  · refine ⟨items, fun hnil => ?_, hheard⟩
    have hempty := hlisted (server, true, items.isEmpty) ⟨hzip, rfl, hquality⟩
    exact hempty (by rw [hnil]; rfl)

/-- **What is abandoned no server pursues**: once the lists are gone through, the records
have all that the servers listed. -/
theorem Inv.unpursued (h : Inv c s) (hover : s.phase.Over) {complete : Bool} {tmdbId : Int}
    {fourK : Bool} {season : Option Int} (hseason : c.arr = .radarr → season = none)
    (habandoned : s.pursued.abandoned complete tmdbId fourK season = true) :
    c.Unpursued s tmdbId fourK season := by
  unfold Pursued.abandoned at habandoned
  simp only [Bool.and_eq_true, Bool.not_eq_true', List.any_eq_false, beq_iff_eq, not_and]
    at habandoned
  obtain ⟨⟨-, hfailed⟩, hstill⟩ := habandoned
  have hcovers : ∀ server items, (server, items) ∈ s.heard → ∀ item ∈ items,
      c.Covers s server item :=
    fun server items hmem item hitem =>
      (h.covered server items hmem item hitem).resolve_left (hover.not_waits server item)
  unfold Config.Unpursued
  cases harr : c.arr with
  | radarr =>
    dsimp only
    intro server items hmem hquality movie hmovie hid
    have hrecord := (hcovers server items hmem movie hmovie tmdbId hid).2
    rw [harr, hquality] at hrecord
    rw [hseason harr] at hstill
    exact Bool.eq_false_iff.mpr fun hawaited =>
      absurd ((hrecord hawaited).symm.trans hstill) (by simp)
  | sonarr =>
    dsimp only
    refine ⟨fun server items hmem hquality series hseries tvdb hid => ?_,
      fun l hl hquality htitle row hrow hnumber => ?_⟩
    · have hrecord := (hcovers server items hmem series hseries tvdb hid).2
      rw [harr, hquality] at hrecord
      rcases hrecord with hhold | hfail | hlisted
      · exact absurd hhold (hover.not_holds server series tvdb)
      · exact .inr (hfailed (tvdb, fourK) hfail rfl)
      · exact .inl hlisted
    · refine Bool.eq_false_iff.mpr fun hprocessing => ?_
      have hpursued := h.noted l hl row hrow hprocessing
      rw [htitle, hquality] at hpursued
      refine absurd (Eq.trans (Eq.symm ?_) hstill) (show (true : Bool) ≠ false from by decide)
      unfold Pursued.still at hpursued ⊢
      cases hseasons : s.pursued.processing tmdbId fourK with
      | none => simp [hseasons] at hpursued
      | some seasons =>
        cases season with
        | none => rfl
        | some n =>
          rw [hseasons] at hpursued
          rw [← hnumber n rfl]
          exact hpursued

/-- What is not in the lists no server listed. -/
theorem Inv.unlisted (h : Inv c s) (hover : s.phase.Over) {id : Int} {fourK : Bool}
    (hid : id ∉ s.marks fourK) : c.Unlisted s id fourK := by
  intro server items hmem hquality item hitem hsame
  have hcovers := (h.covered server items hmem item hitem).resolve_left
    (hover.not_waits server item)
  exact hid (hquality ▸ (hcovers id hsame).1)

/-! ## What a step gives up -/

/-- A request of a title that loses its seasons: no server pursues a season of the
request, or the title is unknown, or was left with no season that a server pursues. -/
def Config.SeasonsLost (c : Config) (s : State) (title : MediaRow) (fourK : Bool)
    (r : RequestRow) : Prop :=
  (r.seasons ≠ [] ∧ ∀ season ∈ r.seasons,
    c.Unpursued s title.tmdbId fourK (some season.seasonNumber))
  ∨ title.statusOf fourK = MediaStatus.unknown
  ∨ ∀ row ∈ title.seasons, row.statusOf fourK = MediaStatus.processing →
    c.Unpursued s title.tmdbId fourK (some row.seasonNumber)

/-- **Why a step gives up** what is in the scope: no server pursues the title; or none
pursues some season of it, and the requests are those that lose theirs; or no server
listed the title, and none has it when they are asked once more. -/
def Config.Grounds (c : Config) (s : State) (event : Event) (scope : Scope) (title : MediaRow) :
    Prop :=
  c.Unpursued s title.tmdbId scope.fourK none
  ∨ (c.arr = .sonarr ∧ (∃ number, c.Unpursued s title.tmdbId scope.fourK (some number))
      ∧ ∀ r ∈ s.db.requests, scope.requests r.id → c.SeasonsLost s title scope.fourK r)
  ∨ ∃ id t answers, c.titleId title = some id ∧ c.Unlisted s id scope.fourK
      ∧ event = .check t answers ∧ c.existsInAnyServer id scope.fourK answers = false

/-- The seasons of a title are settled on these grounds. -/
theorem Inv.seasons_grounds (h : Inv c s) {flags : Cleanup} {candidate : SeasonCandidate}
    {seasons : List SeasonCandidate} (hphase : s.phase = .titles flags [] (candidate :: seasons))
    (t : Moment) {m : MediaRow} (hm : s.db.mediaById candidate.1.1 = some m)
    (hgone : (c.seasonReset flags s.pursued t candidate).gone m ≠ []) :
    c.Complete s candidate.1.2
      ∧ c.Grounds s (.resolveSeasons t)
        ((c.seasonReset flags s.pursued t candidate).scope s.db) m := by
  have hsonarr : c.arr = .sonarr := by
    cases harr : c.arr with
    | sonarr => rfl
    | radarr =>
      have hnone := (h.seasonless harr).2
      rw [hphase] at hnone
      exact absurd hnone (by simp)
  have hjudged := h.staged
  unfold Config.Staged at hjudged
  rw [hphase] at hjudged
  -- A season that is gone no server pursues, and the quality is complete.
  have hseason : ∀ row, (c.seasonReset flags s.pursued t candidate).goneSeason m.tmdbId row = true →
      flags.of candidate.1.2 = true
        ∧ c.Unpursued s m.tmdbId candidate.1.2 (some row.seasonNumber) := by
    intro row hrow
    unfold SeasonReset.goneSeason at hrow
    have habandoned : s.pursued.abandoned (flags.of candidate.1.2) m.tmdbId candidate.1.2
        (some row.seasonNumber) = true :=
      (Bool.and_eq_true_iff.mp (Bool.and_eq_true_iff.mp hrow).1).2
    refine ⟨?_, h.unpursued (hphase ▸ trivial) (fun hradarr => ?_) habandoned⟩
    · unfold Pursued.abandoned at habandoned
      simp only [Bool.and_eq_true] at habandoned
      exact habandoned.1.1
    · exact absurd (hradarr.symm.trans hsonarr) (by simp)
  obtain ⟨number, hnumber⟩ := List.exists_mem_of_ne_nil _ hgone
  obtain ⟨row, hrow, rfl⟩ := List.mem_map.mp hnumber
  obtain ⟨hflag, hunpursued⟩ := hseason row (List.mem_filter.mp hrow).2
  refine ⟨h.complete hjudged hflag,
    .inr (.inl ⟨hsonarr, ⟨_, hunpursued⟩, fun r hr hdeclined => ?_⟩)⟩
  obtain ⟨m', r', hm', hr', -, hid, hlost⟩ := SeasonReset.work_declines hdeclined
  obtain rfl := Option.some.inj (hm.symm.trans hm')
  obtain rfl := List.inj_on_of_nodup_map h.requests hr' hr hid
  unfold RequestRow.abandonedBy at hlost
  rcases Bool.or_eq_true_iff.mp hlost with hunknown | hall
  · refine .inr ((SeasonReset.titleUnknown_seasons hunknown).imp_right ?_)
    exact fun hrows row hrow hprocessing => (hseason row (hrows row hrow hprocessing)).2
  · obtain ⟨haffected, hall⟩ := Bool.and_eq_true_iff.mp hall
    refine .inl ⟨?_, fun season hmem => ?_⟩
    · rintro hnil
      simp [RequestRow.affected, hnil] at haffected
    · have hgone := List.all_eq_true.mp hall season hmem
      obtain ⟨row, hrow, hnumber⟩ := List.mem_map.mp (List.contains_iff_mem.mp hgone)
      exact hnumber ▸ (hseason row (List.mem_filter.mp hrow).2).2

/-- **A step of the run gives up** nothing, or is a new title, or gives up one title on
its grounds, once every server of the quality was heard. -/
theorem Inv.gives_up (h : Inv c s) {event : Event} {s' : State} (hstep : c.Step s event s')
    (hown : ∀ write, event ≠ .other write) :
    s'.db.GivesUp none s.db ∨ (∃ now row, s'.db = s.db.insertMedia now row)
      ∨ ∃ scope title, s'.db.GivesUp (some scope) s.db ∧ title.id = scope.mediaId
        ∧ (∀ m ∈ s.db.media, m.id = title.id → m.SameTitle title)
        ∧ c.Complete s scope.fourK ∧ c.Grounds s event scope title := by
  unfold Config.Step Config.step at hstep
  have hturn : ∀ server rest bundle busy i f,
      (∀ entry s₁ entry', f s entry = some (s₁, entry') →
        Worked (c.server4k server) s s₁ entry entry') →
      Config.turn s server rest bundle busy i f = some s' →
      s'.db.GivesUp none s.db ∨ ∃ now row, s'.db = s.db.insertMedia now row := by
    intro server rest bundle busy i f hworked hturn
    obtain ⟨entry, s₁, entry', -, hf, rfl⟩ := turn_eq_some hturn
    exact (hworked entry s₁ entry' hf).wrote
  have hstaged := h.staged
  unfold Config.Staged at hstaged
  cases event with
  | other write => exact absurd rfl (hown write)
  | lookup i find byId =>
    dsimp only at hstep
    split at hstep
    · exact (hturn _ _ _ _ _ _ (fun _ _ _ hf => worked_lookup hf) hstep).imp_right .inl
    · cases hstep
  | list i provided specials aired =>
    dsimp only at hstep
    split at hstep
    · exact (hturn _ _ _ _ _ _ (fun _ _ _ hf => worked_list hf) hstep).imp_right .inl
    · cases hstep
  | settle i t =>
    dsimp only at hstep
    split at hstep
    · exact (hturn _ _ _ _ _ _ (fun _ _ _ hf => worked_settle h.titles hf) hstep).imp_right .inl
    · cases hstep
  | fail i =>
    dsimp only at hstep
    split at hstep
    · exact (hturn _ _ _ _ _ _ (fun _ _ _ hf => worked_failed hf) hstep).imp_right .inl
    · cases hstep
  | take =>
    left
    dsimp only at hstep
    split at hstep
    · split_ifs at hstep
      cases hstep
      unfold Config.take
      cases c.idOf _ <;> cases c.arr <;> exact .refl none s.db
    · cases hstep
  | resolveTitle t =>
    dsimp only at hstep
    split at hstep
    · next flags mediaId fourK media seasons hphase =>
      cases hstep
      rw [hphase] at hstaged
      cases hm : s.db.mediaById mediaId with
      | none =>
        left
        unfold Scan.resolveTitle
        rw [hm]
        exact .refl none s.db
      | some found =>
        cases habandoned : Config.abandoned flags s.pursued found.tmdbId fourK none with
        | false =>
          left
          unfold Scan.resolveTitle
          rw [hm]
          dsimp only
          rw [if_pos habandoned]
          exact .refl none s.db
        | true =>
          have hflag : flags.of fourK = true := by
            unfold Config.abandoned Pursued.abandoned at habandoned
            simp only [Bool.and_eq_true] at habandoned
            exact habandoned.1.1
          refine .inr (.inr ⟨.whole mediaId fourK, found,
            Scan.resolveTitle_givesUp h.requests _ mediaId fourK, Db.mediaById_id hm,
            fun m hmem hid => ?_, h.complete hstaged hflag, .inl ?_⟩)
          · obtain rfl := List.inj_on_of_nodup_map h.titles hmem (List.mem_of_find?_eq_some hm) hid
            exact .refl m
          · exact h.unpursued (hphase ▸ trivial) (fun _ => rfl) habandoned
    · cases hstep
  | resolveSeasons t =>
    dsimp only at hstep
    split at hstep
    · next flags candidate seasons hphase =>
      cases hstep
      by_cases hwork : (c.seasonReset flags s.pursued t candidate).work s.db = {}
      · left
        rw [SeasonReset.resolve_final, hwork]
        exact .refl none s.db
      · obtain ⟨m, hm, hgone⟩ := SeasonReset.exists_gone hwork
        obtain ⟨hcomplete, hgrounds⟩ := h.seasons_grounds hphase t hm hgone
        refine .inr (.inr ⟨_, m, SeasonReset.resolve_givesUp h.requests, Db.mediaById_id hm,
          fun m' hmem hid => ?_, hcomplete, hgrounds⟩)
        obtain rfl := List.inj_on_of_nodup_map h.titles hmem (List.mem_of_find?_eq_some hm) hid
        exact .refl m'
    · cases hstep
  | check t answers =>
    dsimp only at hstep
    split at hstep
    · next flags left fourK row rows hphase =>
      cases hstep
      rw [hphase] at hstaged
      rcases cleanupOne_givesUp h.requests t fourK answers row with
        heq | ⟨hgave, id, hid, hmarks, hnone⟩
      · exact .inl (heq.symm ▸ .refl none s.db)
      · refine .inr (.inr ⟨.whole row.id fourK, row, hgave, rfl, fun m hm hsame => ?_,
          h.complete hstaged.1 hstaged.2.1, .inr (.inr ⟨id, t, answers, hid, ?_, rfl, hnone⟩)⟩)
        · exact hstaged.2.2 m hm row List.mem_cons_self hsame
        · exact h.unlisted (hphase ▸ trivial) hmarks
    · cases hstep
  | _ =>
    left
    dsimp only at hstep
    repeat' split at hstep
    all_goals first | (cases hstep; done) | (cases hstep; exact .refl none s.db)

end Evidence

/-! ## Runs -/

section Runs

variable {c : Config} {db : Db} {events : List Event} {s s' : State} {event : Event}

/-- **What holds in every state of a run**, whatever the rest of the program writes. -/
theorem inv_of_run (htitles : (db.media.map (·.id)).Nodup)
    (hrequests : (db.requests.map (·.id)).Nodup)
    (hrun : Run (Guarded c.Step State.Lawful) (c.start db) events s) : Inv c s := by
  refine hrun.invariant (fun _ _ _ h hstep => h.step hstep.1 hstep.2) ?_
  exact ⟨⟨[], rfl, .nil⟩, fun _ _ h => absurd h List.not_mem_nil,
    fun _ h => absurd h List.not_mem_nil, trivial, fun _ => ⟨rfl, trivial⟩, htitles, hrequests⟩

/-- The step declines no request but on the grounds it has for the title. -/
theorem Inv.declines (h : Inv c s) (hstep : c.Step s event s')
    (hown : ∀ write, event ≠ .other write) {r' : RequestRow} (hr' : r' ∈ s'.db.requests)
    (hdeclined : r'.status = RequestStatus.declined) :
    ∃ r ∈ s.db.requests, r.id = r'.id ∧ (r.status = RequestStatus.declined
      ∨ ∃ scope title, r.mediaId = some title.id ∧ r.is4k = scope.fourK ∧ scope.requests r.id
        ∧ (∀ m ∈ s.db.media, m.id = title.id → m.SameTitle title)
        ∧ c.Complete s scope.fourK ∧ c.Grounds s event scope title) := by
  rcases h.gives_up hstep hown with
    hgave | ⟨now, row, hnew⟩ | ⟨scope, title, hgave, hid, hsame, hwhy⟩
  · obtain ⟨r, hr, hrow⟩ := hgave.request hr'
    refine ⟨r, hr, hrow.id.symm, .inl ((hrow.declined hdeclined).resolve_right fun hnone => ?_)⟩
    exact absurd hnone.choose_spec.1 (by simp)
  · rw [hnew] at hr'
    exact ⟨r', hr', rfl, .inl hdeclined⟩
  · obtain ⟨r, hr, hrow⟩ := hgave.request hr'
    refine ⟨r, hr, hrow.id.symm, (hrow.declined hdeclined).imp_right fun hof => ?_⟩
    obtain ⟨_, hscope, howner, hquality, hmay⟩ := hof
    cases hscope
    exact ⟨scope, title, hid ▸ howner, hquality, hmay, hsame, hwhy⟩

/-- The step lets no movie fall to `UNKNOWN` but on the grounds it has for it. -/
theorem Inv.falls (h : Inv c s) (hstep : c.Step s event s') (hown : ∀ write, event ≠ .other write)
    {m' : MediaRow} (hm' : m' ∈ s'.db.media) (hmovie : m'.mediaType = "movie") {fourK : Bool}
    (hunknown : m'.statusOf fourK = MediaStatus.unknown) :
    (∀ m ∈ s.db.media, m.id = m'.id → m.statusOf fourK = MediaStatus.unknown)
      ∨ ∃ scope title, m'.id = title.id ∧ fourK = scope.fourK
        ∧ (∀ m ∈ s.db.media, m.id = title.id → m.SameTitle title)
        ∧ c.Complete s scope.fourK ∧ c.Grounds s event scope title := by
  have hstored : ∀ {about : Option Scope}, s'.db.GivesUp about s.db →
      (∀ m ∈ s.db.media, m.id = m'.id → m.statusOf fourK = MediaStatus.unknown)
        ∨ InScope about m'.id fourK := by
    intro about hgave
    obtain ⟨m, hm, hrow⟩ := hgave.title hm'
    rcases hrow.fallen fourK (hrow.mediaType ▸ hmovie) hunknown with hbefore | hscope
    · refine .inl fun m₀ hm₀ hid => ?_
      rwa [List.inj_on_of_nodup_map h.titles hm₀ hm (hid.trans hrow.id)]
    · exact .inr (hrow.id.symm ▸ hscope)
  rcases h.gives_up hstep hown with
    hgave | ⟨now, row, hnew⟩ | ⟨scope, title, hgave, hid, hsame, hwhy⟩
  · exact .inl ((hstored hgave).resolve_right fun hnone => absurd hnone.choose_spec.1 (by simp))
  · left
    rw [hnew] at hm'
    intro m hm hsame
    rcases List.mem_append.mp hm' with hm' | hm'
    · rwa [List.inj_on_of_nodup_map h.titles hm hm' hsame]
    · obtain rfl := List.mem_singleton.mp hm'
      exact absurd hsame (s.db.nextMediaId_fresh m hm)
  · refine (hstored hgave).imp_right fun hscope => ?_
    obtain ⟨_, heq, hmedia, hquality⟩ := hscope
    cases heq
    exact ⟨scope, title, hmedia.trans hid.symm, hquality, hsame, hwhy⟩

/-- No server of Radarr pursues the title. -/
theorem Config.Grounds.unpursued (hradarr : c.arr = .radarr) {scope : Scope} {title : MediaRow}
    (h : c.Grounds s event scope title) : c.Unpursued s title.tmdbId scope.fourK none := by
  rcases h with hunpursued | ⟨hsonarr, -⟩ | ⟨id, -, -, hid, hunlisted, -⟩
  · exact hunpursued
  · exact absurd (hradarr.symm.trans hsonarr) (by simp)
  · unfold Config.Unpursued
    unfold Config.titleId at hid
    rw [hradarr] at hid ⊢
    cases hid
    exact fun server items hmem hquality movie hmovie hmovieId =>
      absurd hmovieId (hunlisted server items hmem hquality movie hmovie)

/-- **What a Radarr scan gives up no server pursues.** In whatever order the workers take
their steps, whatever the servers answer and whatever the rest of the program writes
meanwhile, a step of the scan newly declines a request, or lets a movie fall to `UNKNOWN`,
only once every server of its quality was asked and listed something, and none of them
listed its movie as monitored without a file. -/
theorem radarr_gives_up (hradarr : c.arr = .radarr) (htitles : (db.media.map (·.id)).Nodup)
    (hrequests : (db.requests.map (·.id)).Nodup)
    (hrun : Run (Guarded c.Step State.Lawful) (c.start db) events s) (hstep : c.Step s event s')
    (hown : ∀ write, event ≠ .other write) :
    (∀ r' ∈ s'.db.requests, r'.status = RequestStatus.declined →
      ∃ r ∈ s.db.requests, r.id = r'.id ∧ (r.status = RequestStatus.declined
        ∨ ∃ title, r.mediaId = some title.id
          ∧ (∀ m ∈ s.db.media, m.id = title.id → m.SameTitle title)
          ∧ c.Complete s r.is4k ∧ c.Unpursued s title.tmdbId r.is4k none))
    ∧ ∀ m' ∈ s'.db.media, m'.mediaType = "movie" → ∀ fourK,
      m'.statusOf fourK = MediaStatus.unknown →
        (∀ m ∈ s.db.media, m.id = m'.id → m.statusOf fourK = MediaStatus.unknown)
        ∨ ∃ title, m'.id = title.id ∧ (∀ m ∈ s.db.media, m.id = title.id → m.SameTitle title)
          ∧ c.Complete s fourK ∧ c.Unpursued s title.tmdbId fourK none := by
  have h := inv_of_run htitles hrequests hrun
  refine ⟨fun r' hr' hdeclined => ?_, fun m' hm' hmovie fourK hunknown => ?_⟩
  · obtain ⟨r, hr, hid, hwhy⟩ := h.declines hstep hown hr' hdeclined
    refine ⟨r, hr, hid, hwhy.imp_right fun hgrounds => ?_⟩
    obtain ⟨scope, title, howner, hquality, -, hsame, hcomplete, hgrounds⟩ := hgrounds
    exact ⟨title, howner, hsame, hquality ▸ hcomplete, hquality ▸ hgrounds.unpursued hradarr⟩
  · refine (h.falls hstep hown hm' hmovie hunknown).imp_right fun hgrounds => ?_
    obtain ⟨scope, title, hid, hquality, hsame, hcomplete, hgrounds⟩ := hgrounds
    exact ⟨title, hid, hsame, hquality ▸ hcomplete, hquality ▸ hgrounds.unpursued hradarr⟩

/-- The state after some of what happens in a run. -/
def Config.after (c : Config) (db : Db) (events : List Event) : State :=
  events.foldl (fun s event => (c.step s event).getD s) (c.start db)

/-- One server, synced. -/
def oneServer (arr : Arr) : Config where
  arr := arr
  settings := [.obj [("id", .num 1), ("syncEnabled", .bool true)]]

/-- A title that is awaited, with an approved request. -/
def requested (m : MediaRow) : Db where
  media := [{ m with id := 1, tmdbId := 603, status := MediaStatus.processing }]
  requests := [{ id := 1, mediaId := some 1, status := RequestStatus.approved }]

/-- Hooks that meet no server. -/
def quiet : Moment where
  envs _ := ⟨"", ⟨false, false, false⟩, ⟨false, none, none, false, false⟩⟩

/-- Radarr lists movie 603, which is not monitored and has no file. -/
def dropped603 : List Event :=
  [.answer [.obj [("tmdbId", .num 603), ("hasFile", .bool false), ("monitored", .bool false)]],
    .bundle, .take, .settle 0 quiet, .next, .resolve]

/-- The request for a movie that Radarr does not monitor any more is declined. -/
theorem radarr_gives_up_dropped :
    let s := (oneServer .radarr).after (requested { mediaType := "movie" }) dropped603
    let s' := (oneServer .radarr).after (requested { mediaType := "movie" })
      (dropped603 ++ [.resolveTitle quiet])
    ∃ r' ∈ s'.db.requests, r'.status = RequestStatus.declined
      ∧ ∃ r ∈ s.db.requests, r.id = r'.id ∧ ∃ title : MediaRow, r.mediaId = some title.id
        ∧ (oneServer .radarr).Complete s r.is4k
        ∧ (oneServer .radarr).Unpursued s title.tmdbId r.is4k none := by
  intro s s'
  have hrun : Run (Guarded (oneServer .radarr).Step State.Lawful)
      ((oneServer .radarr).start (requested { mediaType := "movie" })) dropped603 s :=
    .cons ⟨trivial, rfl⟩ (.cons ⟨trivial, rfl⟩ (.cons ⟨trivial, rfl⟩
      (.cons ⟨trivial, rfl⟩ (.cons ⟨trivial, rfl⟩ (.cons ⟨trivial, rfl⟩ (.nil _))))))
  have hstep : (oneServer .radarr).Step s (.resolveTitle quiet) s' := rfl
  have hbefore : ∀ r ∈ s.db.requests, r.status ≠ RequestStatus.declined := by decide
  have hafter : ∃ r' ∈ s'.db.requests, r'.status = RequestStatus.declined := by decide
  obtain ⟨r', hr', hdeclined⟩ := hafter
  obtain ⟨r, hr, hid, hold | ⟨title, howner, -, hcomplete, hunpursued⟩⟩ :=
    (radarr_gives_up rfl (by decide) (by decide) hrun hstep (by simp)).1 r' hr' hdeclined
  · exact absurd hold (hbefore r hr)
  · exact ⟨r', hr', hdeclined, r, hr, hid, title, howner, hcomplete, hunpursued⟩

/-- Sonarr lists another series than the title's, which TMDB does not find. -/
def elsewhere : List Event :=
  [.answer [.obj [("tvdbId", .num 7)]], .bundle, .take, .fail 0, .next, .resolve, .resolved, .load]

end Runs

end ArrScan

end Foreseerr

import Foreseerr.RequestCreate
import Foreseerr.Run
import Mathlib.Data.List.Dedup

/-!
# No season is requested twice

A season request asks only for seasons that no active request of its title
and quality holds, so that over any sequence of requests no season comes to be
held twice, and each request is charged for the seasons it has.

Two kinds of bodies fall outside: one that leaves `is4k` out is compared with
no request at all, and one whose list names a season twice asks for it twice.
The sequences considered are those of the other bodies, and of bodies without
`is4k` that ask for no season an active request holds.
-/

namespace Foreseerr

/-! ## The seasons of one creation -/

namespace Call

variable (c : Call)

/-- The seasons a call asks for: its list, or all TMDB lists. -/
def requested : List Int :=
  match parseBody c.raw, c.env.details with
  | .ok body, .ok details =>
    match requestedSeasons c.settings body details with
    | .ok list => list
    | .error _ => []
  | _, _ => []

/-- The quality a call is for. -/
def is4k : Bool := c.raw.is4k.getD false

/-- The title a call is for, where it is there. -/
def media (db : Db) : Option MediaRow := db.mediaByTmdb (c.raw.mediaId.getD 0) c.raw.mediaType

/-- **What a call may ask for**: no season twice, and where it leaves `is4k`
out, no season that an active request of the title holds and the library does
not cover. -/
def Separate (db : Db) : Prop :=
  c.requested.Nodup ∧ (c.raw.is4k.isSome = true ∨
    ∀ n ∈ c.requested, n ∈ libraryCovered (c.media db) [] c.is4k
      ∨ n ∉ (c.media db).elim [] fun m => seasonsHeld (db.requestsOfMedia m.id) c.is4k)

end Call

/-- What a season request that was accepted asks for: seasons it was asked
for, none of them twice or held by an active request of its title and
quality. -/
theorem granted_of_separate {c : Call} {db : Db} {body : Body} {details : Details}
    {resolved : Option Resolved} {p : Prepared} (hsep : c.Separate db)
    (htv : c.raw.mediaType = "tv") (hseasons : c.raw.episodeSelection = none)
    (hbody : parseBody c.raw = .ok body)
    (h : Decided c.settings c.env db c.user body details resolved p) :
    p.episodes = none ∧ p.seasons.Nodup
      ∧ ∀ n ∈ p.seasons, n ∉ seasonsHeld (p.plan.requests db) body.is4k := by
  obtain ⟨hmediaId, htype, -, his4k, hgiven, -, hselection⟩ := parseBody_ok hbody
  have hresolved : resolved = none := h.selection (hselection.trans hseasons)
  subst hresolved
  obtain ⟨hepisodes, hplan⟩ := plannedChildren_seasons (htype.trans htv) h.children
  obtain ⟨requested, hrequested, hplanned, -⟩ := seasonPlan_ok hplan
  have hasked : c.requested = requested := by
    unfold Call.requested
    rw [hbody, h.answered]
    simp only [hrequested]
  obtain ⟨hnodup, hheld⟩ := hsep
  have hmedia : c.media db = p.plan.existing := by
    rw [mediaPlan_existing h.plan, Call.media, hmediaId, htype]
    rfl
  have hmem : ∀ n ∈ p.seasons, n ∈ requested
      ∧ n ∉ seasonsHeld (compared body (p.plan.requests db)) body.is4k
      ∧ n ∉ libraryCovered p.plan.existing (compared body (p.plan.requests db)) body.is4k := by
    intro n hn
    rw [hplanned] at hn
    simpa [planSeasons, not_or] using hn
  refine ⟨hepisodes, ?_, fun n hn => ?_⟩
  · rw [hplanned]
    exact (hasked ▸ hnodup).filter _
  · obtain ⟨hn, hnot, huncovered⟩ := hmem n hn
    unfold compared at hnot huncovered
    by_cases hsent : body.is4kGiven = true
    · rw [if_pos hsent] at hnot
      exact hnot
    · -- Without `is4k` the plan was compared with no request at all.
      rw [if_neg hsent] at huncovered
      rw [hgiven] at hsent
      have hfree := (hheld.resolve_left hsent) n (hasked ▸ hn)
      rw [hmedia, Call.is4k, ← his4k] at hfree
      have hfree' := hfree.resolve_left huncovered
      unfold MediaPlan.requests
      cases hexisting : p.plan.existing with
      | none => simp [seasonsHeld]
      | some m =>
        rw [hexisting] at hfree'
        exact hfree'

/-! ## The invariant -/

/-- **No season is held twice** in one quality of a title, and every request
is charged one unit for each of its seasons. -/
structure SeasonsOnce (db : Db) : Prop where
  once : ∀ mediaId fourK, (seasonsHeld (db.requestsOfMedia mediaId) fourK).Nodup
  units : ∀ r ∈ db.requests, r.tvQuotaUnits = (r.seasons.map (·.seasonNumber)).dedup.length

/-- The seasons held in one quality of a title, read off the table at once. -/
theorem seasonsHeld_requestsOfMedia (db : Db) (mediaId : Int) (fourK : Bool) :
    seasonsHeld (db.requestsOfMedia mediaId) fourK
      = (db.requests.filter fun r : RequestRow =>
          (r.is4k == fourK && r.active) && r.mediaId == some mediaId).flatMap
        fun r => r.seasons.map (·.seasonNumber) := by
  unfold seasonsHeld Db.requestsOfMedia
  rw [List.filter_filter]

/-- Settled requests hold no more seasons, each as charged as before. -/
theorem SeasonsOnce.settled {db db' : Db} (h : SeasonsOnce db) (hs : db'.SettledFrom db) :
    SeasonsOnce db' := by
  refine ⟨fun mediaId fourK => ?_, fun r' hr' => ?_⟩
  · have hsub : (seasonsHeld (db'.requestsOfMedia mediaId) fourK).Sublist
        (seasonsHeld (db.requestsOfMedia mediaId) fourK) := by
      rw [seasonsHeld_requestsOfMedia, seasonsHeld_requestsOfMedia]
      refine Table.flatMap_filter_sublist hs fun r' r hR hr' => ?_
      simp only [Bool.and_eq_true, beq_iff_eq] at hr' ⊢
      obtain ⟨⟨hq, hactive⟩, hmedia⟩ := hr'
      refine ⟨⟨⟨hR.is4k ▸ hq, hR.active hactive⟩, hR.mediaId ▸ hmedia⟩, ?_⟩
      rw [hR.seasons]
    exact (h.once mediaId fourK).sublist hsub
  · obtain ⟨r, hr, hR⟩ := Table.exists_of_mem hs hr'
    rw [hR.tvQuotaUnits, hR.seasons]
    exact h.units r hr

/-- The requests a new request's title has are those it refers to with it. -/
theorem Prepared.requests_eq {env : CallEnv} {db : Db} (hfresh : env.Fresh db) (p : Prepared) :
    p.plan.requests db = db.requestsOfMedia (p.mediaId env) := by
  unfold MediaPlan.requests Prepared.mediaId
  cases p.plan.existing with
  | some m => rfl
  | none =>
    refine (List.filter_eq_nil_iff.2 fun r hr => ?_).symm
    simpa using hfresh.media r hr

/-- **Inserting a request** of seasons no active request of its title and
quality holds, none of them twice, keeps the seasons held once. -/
theorem SeasonsOnce.inserted {env : CallEnv} {db : Db} {user : UserRecord} {body : Body}
    {p : Prepared} (h : SeasonsOnce db) (hfresh : env.Fresh db) (hepisodes : p.episodes = none)
    (hnodup : p.seasons.Nodup)
    (hfree : ∀ n ∈ p.seasons, n ∉ seasonsHeld (p.plan.requests db) body.is4k) :
    SeasonsOnce (writeRequestRows env db user body p) := by
  have hrequests := writeRequestRows_requests env db user body p
  have hnumbers : (insertedRequest env user body p (p.mediaId env)).seasons.map (·.seasonNumber)
      = p.seasons := insertedSeasons_numbers env p.status p.seasons
  have hunits : (insertedRequest env user body p (p.mediaId env)).tvQuotaUnits
      = p.seasons.length := by
    show p.units = _
    rw [Prepared.units, hepisodes]
    rfl
  refine ⟨fun mediaId fourK => ?_, fun r hr => ?_⟩
  · rw [seasonsHeld_requestsOfMedia, hrequests, List.filter_append, List.flatMap_append,
      ← seasonsHeld_requestsOfMedia]
    by_cases hnew : body.is4k = fourK ∧ p.mediaId env = mediaId
    · obtain ⟨rfl, rfl⟩ := hnew
      rw [Prepared.requests_eq hfresh] at hfree
      have hactive := insertedRequest_active env user body p (p.mediaId env)
      rw [List.filter_cons_of_pos (by
        rw [hactive]
        simp [insertedRequest]), List.filter_nil, List.flatMap_cons, List.flatMap_nil,
        List.append_nil, hnumbers]
      refine List.nodup_append.2 ⟨h.once _ _, hnodup, fun n hn n' hn' heq => ?_⟩
      exact hfree n' hn' (heq ▸ hn)
    · rw [List.filter_cons_of_neg (by
        intro hsel
        simp only [Bool.and_eq_true, beq_iff_eq] at hsel
        exact hnew ⟨hsel.1.1, Option.some.inj hsel.2⟩), List.filter_nil, List.flatMap_nil,
        List.append_nil]
      exact h.once mediaId fourK
  · rw [hrequests] at hr
    rcases List.mem_append.1 hr with hr | hr
    · exact h.units r hr
    · rw [List.mem_singleton.1 hr, hnumbers, hunits, List.Nodup.dedup hnodup]

/-! ## Runs -/

/-- What happens to the requests: a `POST /request`, or something that only
settles them. -/
inductive Activity
  | request (c : Call)
  | meanwhile

/-- An accepted season request, or a time in between: a request is declined,
completes, fails or goes, the library changes. -/
def SeasonStep (db : Db) : Activity → Db → Prop
  | .request c, db' => c.raw.mediaType = "tv" ∧ c.raw.episodeSelection = none
      ∧ c.env.Fresh db ∧ create c.settings c.env db c.user c.raw = .ok db'
  | .meanwhile, db' => db'.SettledFrom db

/-- The calls of the runs considered. -/
def Asking (db : Db) : Activity → Prop
  | .request c => c.Separate db
  | .meanwhile => True

/-- One activity keeps the seasons held once. -/
theorem SeasonsOnce.step {db db' : Db} {a : Activity} (h : SeasonsOnce db)
    (hstep : Guarded SeasonStep Asking db a db') : SeasonsOnce db' := by
  cases a with
  | meanwhile => exact h.settled hstep.2
  | request c =>
    obtain ⟨hsep, htv, hseasons, hfresh, hcreate⟩ := hstep
    obtain ⟨body, p, hbody, hp, hwritten⟩ := create_ok hcreate
    obtain ⟨details, resolved, hdecided⟩ := prepare_ok hp
    obtain ⟨hepisodes, hnodup, hfree⟩ :=
      granted_of_separate hsep htv hseasons hbody hdecided
    rcases hwritten with ⟨rfl, -⟩ | ⟨plan, old, hplan, -, -⟩
    · exact (h.inserted hfresh hepisodes hnodup hfree).settled (runHooks_inserted_kept hfresh p).settled
    · rw [hepisodes] at hplan
      cases hplan

/-- **No season is requested twice.** From no requests, after any accepted
season requests that name no season twice and, where they leave `is4k` out,
ask for none that an active request holds, no season is held by two active
requests of one quality of a title or twice by one, and each request is
charged for the seasons it holds. -/
theorem seasonsOnce_of_run {db₀ db : Db} {activities : List Activity} (h₀ : db₀.requests = [])
    (h : Run (Guarded SeasonStep Asking) db₀ activities db) : SeasonsOnce db := by
  refine h.invariant (fun db a db' hdb hstep => SeasonsOnce.step hdb hstep) ?_
  refine ⟨fun mediaId fourK => ?_, fun r hr => ?_⟩
  · simp [seasonsHeld, Db.requestsOfMedia, h₀]
  · rw [h₀] at hr
    cases hr

/-! ### Two calls for one series -/

/-- User 1, who may request, asks for seasons of a series that TMDB knows and
no server is set up for. -/
def seriesCall (requestId : Int) (numbers : List Int) (is4k : Option Bool) : Call where
  settings := { users := [] }
  env :=
    { clock := ⟨fun _ => 0, fun _ _ => true, fun _ _ => true, fun _ _ => true⟩
      details := .ok { id := some 100 }
      newMediaId := 10 + requestId
      newRequestId := requestId
      newChildId := fun i => 10 * requestId + i
      hooks := ⟨"", ⟨false, false, false⟩, ⟨false, none, none, false, false⟩⟩ }
  user := { id := 1, permissions := Permission.request }
  raw := { mediaType := "tv", mediaId := some 100, seasons := some (.list numbers), is4k := is4k }

/-- The tables after two calls for one series. -/
def afterTwo (first second : List Int) (is4k : Option Bool) : Db :=
  (seriesCall 2 second is4k).applied ((seriesCall 1 first is4k).applied {})

/-- Two overlapping requests, each saying its quality: the second gets the
season the first left. -/
theorem seasonsOnce_of_two_requests :
    (afterTwo [1, 2] [2, 3] (some false)).requests.map
        (fun r => r.seasons.map (·.seasonNumber)) = [[1, 2], [3]]
      ∧ SeasonsOnce (afterTwo [1, 2] [2, 3] (some false)) := by
  have hfirst : Guarded SeasonStep Asking {} (.request (seriesCall 1 [1, 2] (some false)))
      ((seriesCall 1 [1, 2] (some false)).applied {}) :=
    ⟨⟨by decide +kernel, Or.inl rfl⟩, rfl, rfl, ⟨by decide +kernel, by decide +kernel⟩, rfl⟩
  have hsecond : Guarded SeasonStep Asking ((seriesCall 1 [1, 2] (some false)).applied {})
      (.request (seriesCall 2 [2, 3] (some false))) (afterTwo [1, 2] [2, 3] (some false)) :=
    ⟨⟨by decide +kernel, Or.inl rfl⟩, rfl, rfl, ⟨by decide +kernel, by decide +kernel⟩, rfl⟩
  exact ⟨by decide +kernel, seasonsOnce_of_run rfl (.cons hfirst (.single hsecond))⟩

/-- **Bodies that leave `is4k` out** are compared with no request: two of them
for one season are both accepted, and the season is held twice. -/
theorem season_requested_twice :
    Run SeasonStep {} [.request (seriesCall 1 [1] none), .request (seriesCall 2 [1] none)]
        (afterTwo [1] [1] none)
      ∧ ¬ SeasonsOnce (afterTwo [1] [1] none) := by
  refine ⟨.cons (t := (seriesCall 1 [1] none).applied {}) ?_ (.single ?_), fun h => ?_⟩
  · exact ⟨rfl, rfl, ⟨by decide +kernel, by decide +kernel⟩, rfl⟩
  · exact ⟨rfl, rfl, ⟨by decide +kernel, by decide +kernel⟩, rfl⟩
  · have htwice : seasonsHeld ((afterTwo [1] [1] none).requestsOfMedia 11) false = [1, 1] := by
      decide +kernel
    have honce := h.once 11 false
    rw [htwice] at honce
    exact absurd honce (by decide)

end Foreseerr

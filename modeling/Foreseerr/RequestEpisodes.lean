import Foreseerr.RequestQuota
import Foreseerr.RequestSeasons

/-!
# No episode is claimed twice

A request for one episode or a range of them is granted the episodes that no
other active request of the title and quality has, by themselves or in a
season. `episode_plan` sees to it when the request is created. An edit
(`requestepisodes::edit`) resolves the new selection against the catalog and
stores all of it, also what other requests claim.

The last theorem says of a whole run of accepted operations when every request
granted such a selection has its episodes to itself: when no edit picks what
another request already claims.
-/

namespace Foreseerr

/-! ## Selections that pick -/

/-- Whether a selection is one episode or a range, and not one that goes on. -/
def Selection.picks : Selection → Bool
  | .single _ => true
  | .range _ _ => true
  | _ => false

/-- What starts at an episode of the catalog keeps its kind. -/
theorem resolveFrom_kind {selection : Selection} {kind : String} {catalog : List CatalogEpisode}
    {allowSpecials : Bool} {startIndex : Nat} {start : CatalogEpisode} {resolved : Resolved}
    (h : resolveFrom selection kind catalog allowSpecials startIndex start = .ok resolved) :
    resolved.kind = kind := by
  unfold resolveFrom at h
  split_ifs at h
  · cases h
    rfl
  · obtain ⟨⟨last, stop⟩, _, h⟩ := except_bind_eq_ok h
    dsimp only at h
    split at h
    · cases h
    · cases h
      rfl

/-- What a selection that picks resolves to does not go on. -/
theorem resolve_rolling {selection : Selection} (hpicks : selection.picks = true)
    {catalog : List CatalogEpisode} {allowSpecials : Bool} {played : List Int}
    {resolved : Resolved} (h : resolve selection catalog allowSpecials played = .ok resolved) :
    resolved.rolling = false := by
  cases selection with
  | single id =>
    unfold resolve at h
    dsimp only at h
    split at h
    · cases h
    · simp [Resolved.rolling, resolveFrom_kind h]
  | range id stop =>
    unfold resolve at h
    dsimp only at h
    split at h
    · cases h
    · simp [Resolved.rolling, resolveFrom_kind h]
  | after id => cases hpicks
  | watchAhead count => cases hpicks

theorem resolveSelection_rolling {settings : Settings} {env : CallEnv} {selection : Selection}
    {resolved : Resolved} (hpicks : selection.picks = true)
    (h : resolveSelection settings env selection = .ok resolved) : resolved.rolling = false := by
  unfold resolveSelection at h
  obtain ⟨catalog, _, h⟩ := except_bind_eq_ok h
  split at h
  · cases h
  · rename_i resolved' hresolve
    cases h
    exact resolve_rolling hpicks hresolve

/-! ## What is claimed -/

/-- None of a request's episodes is an episode of another request, or lies in
one of its seasons. -/
def RequestRow.ClaimsApart (r other : RequestRow) : Prop :=
  (r.episodes.map (·.tvdbId)).Disjoint (other.episodes.map (·.tvdbId))
    ∧ (r.episodes.map (·.seasonNumber)).Disjoint (other.seasons.map (·.seasonNumber))

/-- **No episode of a request is claimed twice**: those it has are claimed by no
other active request of its title and quality. -/
def Db.ClaimedOnce (db : Db) (id : Int) : Prop :=
  ∀ r, db.requestById id = some r → ∀ other ∈ db.requests, other.id ≠ id →
    other.mediaId = r.mediaId → other.is4k = r.is4k → other.active = true → r.ClaimsApart other

/-- An episode of the catalog that a request does not claim. -/
def CatalogEpisode.FreeOf (e : CatalogEpisode) (other : RequestRow) : Prop :=
  e.tvdbId ∉ other.episodes.map (·.tvdbId) ∧ e.season ∉ other.seasons.map (·.seasonNumber)

/-- What `uncovered` leaves of a selection that picks is free of the requests
it is compared with. -/
theorem free_of_mem_uncovered {resolved : Resolved} (hkind : resolved.rolling = false)
    {coverage : List RequestRow} {media : Option MediaRow} {fourK : Bool} {e : CatalogEpisode}
    (he : e ∈ uncovered resolved coverage media fourK) {other : RequestRow}
    (hother : other ∈ coverage) : e.FreeOf other := by
  have hafter : resolved.kind ≠ "after" := by
    intro hafter
    simp [Resolved.rolling, hafter] at hkind
  unfold uncovered at he
  rw [if_neg hafter] at he
  obtain ⟨-, hfree⟩ := List.mem_filter.1 he
  simp only [Bool.and_eq_true, decide_eq_true_eq, List.mem_flatMap, not_exists, not_and] at hfree
  exact ⟨hfree.1.2 other hother, hfree.1.1 other hother⟩

/-- The filter against other requests leaves all of a selection that picks
exactly when all of it is free of them. -/
theorem uncovered_eq_self_iff {resolved : Resolved} (hkind : resolved.rolling = false)
    {coverage : List RequestRow} {fourK : Bool} :
    uncovered resolved coverage none fourK = resolved.episodes
      ↔ ∀ e ∈ resolved.episodes, ∀ other ∈ coverage, e.FreeOf other := by
  constructor
  · intro heq e he other hother
    rw [← heq] at he
    exact free_of_mem_uncovered hkind he hother
  · intro hfree
    unfold uncovered
    split
    · rfl
    · refine List.filter_eq_self.2 fun e he => ?_
      simp only [Option.any_none, Bool.not_false, Bool.and_true, Bool.and_eq_true,
        decide_eq_true_eq, List.mem_flatMap, not_exists, not_and]
      exact ⟨fun other hother => (hfree e he other hother).2,
        fun other hother => (hfree e he other hother).1⟩

section Inserted

variable (now : String) (requestId status : Int) (ids : Nat → Int) (episodes : List CatalogEpisode)

@[simp] theorem insertedEpisodes_tvdbIds :
    (insertedEpisodes now requestId status ids episodes).map (·.tvdbId)
      = episodes.map (·.tvdbId) := by
  refine List.ext_getElem (by simp [insertedEpisodes]) fun i _ _ => ?_
  simp [insertedEpisodes]

@[simp] theorem insertedEpisodes_seasons :
    (insertedEpisodes now requestId status ids episodes).map (·.seasonNumber)
      = episodes.map (·.season) := by
  refine List.ext_getElem (by simp [insertedEpisodes]) fun i _ _ => ?_
  simp [insertedEpisodes]

end Inserted

/-- A request whose episodes are entries of the catalog claims apart from
another when they are free of it. -/
theorem claimsApart_of_free {r other : RequestRow} {episodes : List CatalogEpisode}
    (hids : r.episodes.map (·.tvdbId) = episodes.map (·.tvdbId))
    (hseasons : r.episodes.map (·.seasonNumber) = episodes.map (·.season)) :
    r.ClaimsApart other ↔ ∀ e ∈ episodes, e.FreeOf other := by
  unfold RequestRow.ClaimsApart CatalogEpisode.FreeOf
  rw [hids, hseasons]
  constructor
  · intro ⟨hid, hseason⟩ e he
    exact ⟨fun hother => hid (List.mem_map_of_mem he) hother,
      fun hother => hseason (List.mem_map_of_mem he) hother⟩
  · intro hfree
    constructor
    · intro id hid hother
      obtain ⟨e, he, rfl⟩ := List.mem_map.1 hid
      exact (hfree e he).1 hother
    · intro number hnumber hother
      obtain ⟨e, he, rfl⟩ := List.mem_map.1 hnumber
      exact (hfree e he).2 hother

/-! ## Creations -/

section Created

variable {settings : Settings} {env : CallEnv} {db : Db} {user : UserRecord} {body : Body}
  {p : Prepared} {selection : Selection}

/-- What a creation with a selection that picks is written with: the episodes
that `uncovered` leaves of what it resolves to. -/
theorem prepare_picks (htv : body.mediaType = "tv")
    (hselection : body.episodeSelection = some (.ok selection)) (hpicks : selection.picks = true)
    (h : prepare settings env db user body = .ok p) :
    ∃ resolved plan, resolved.rolling = false ∧ p.episodes = some plan ∧ plan.replace = none
      ∧ plan.episodes = uncovered resolved
          (activeRequests (p.plan.requests db) (if body.is4kGiven then some body.is4k else none))
          p.plan.existing body.is4k := by
  unfold prepare at h
  obtain ⟨requester, _, h⟩ := except_bind_eq_ok h
  obtain ⟨ignoreQuota, _, h⟩ := except_bind_eq_ok h
  obtain ⟨details, _, h⟩ := except_bind_eq_ok h
  obtain ⟨selected, hselected, h⟩ := except_bind_eq_ok h
  obtain ⟨early, hearly, h⟩ := except_bind_eq_ok h
  obtain ⟨plan, _, h⟩ := except_bind_eq_ok h
  obtain ⟨late, _, h⟩ := except_bind_eq_ok h
  obtain ⟨_, _, h⟩ := except_bind_eq_ok h
  obtain ⟨routing, _, h⟩ := except_bind_eq_ok h
  obtain ⟨⟨seasons, episodes⟩, hchildren, h⟩ := except_bind_eq_ok h
  cases h
  have hselected' : selected = some selection := by
    unfold earlySelection at hselected
    rw [hselection] at hselected
    dsimp only at hselected
    split_ifs at hselected
    cases hselected
    rfl
  have hnow : ∃ resolved, resolveSelection settings env selection = .ok resolved
      ∧ early = some resolved := by
    rw [hselected'] at hearly
    have hfilter : (some selection).filter (fun s => !s.watchesAhead) = some selection := by
      cases selection with
      | watchAhead count => cases hpicks
      | _ => rfl
    rw [hfilter] at hearly
    obtain ⟨resolved, hresolved, hearly⟩ := except_map_eq_ok hearly
    exact ⟨resolved, hresolved, hearly.symm⟩
  obtain ⟨resolved, hresolved, rfl⟩ := hnow
  have hkind := resolveSelection_rolling hpicks hresolved
  obtain ⟨planned, hepisodes, hplanned⟩ := plannedChildren_episodes htv hchildren
  unfold episodePlan at hplanned
  obtain ⟨replace, hreplace, hplanned⟩ := except_bind_eq_ok hplanned
  obtain ⟨_, _, hplanned⟩ := except_bind_eq_ok hplanned
  obtain ⟨_, _, hplanned⟩ := except_bind_eq_ok hplanned
  have hnone : replace = none := by
    unfold replacedRequest at hreplace
    rw [if_pos (by simp [hkind])] at hreplace
    exact (Except.ok.inj hreplace).symm
  subst hnone
  cases hplanned
  refine ⟨resolved, _, hkind, hepisodes, rfl, ?_⟩
  have hall : ∀ l : List RequestRow,
      l.filter (fun r => decide (some r.id ≠ (none : Option RequestRow).map (·.id))) = l := by
    intro l
    refine List.filter_eq_self.2 fun r _ => ?_
    simp
  show uncovered resolved (List.filter _ _) _ _ = _
  rw [hall]

end Created

/-- **An accepted creation** of one episode or a range, saying its quality,
claims none of its episodes twice: its episodes are free of the other requests,
and the hooks leave of those no more than they were. -/
theorem claimedOnce_created {c : Call} {db db' : Db} {selection : Selection}
    (hfresh : c.env.Fresh db) (htv : c.raw.mediaType = "tv")
    (hquality : c.raw.is4k.isSome = true)
    (hselection : c.raw.episodeSelection = some (.ok selection)) (hpicks : selection.picks = true)
    (h : create c.settings c.env db c.user c.raw = .ok db') :
    db'.ClaimedOnce c.env.newRequestId := by
  obtain ⟨body, p, hbody, hp, hwritten⟩ := create_ok h
  obtain ⟨-, htype, -, -, hgiven, -, hsent⟩ := parseBody_ok hbody
  obtain ⟨resolved, plan, hkind, hplan, hreplace, hepisodes⟩ :=
    prepare_picks (htype.trans htv) (hsent.trans hselection) hpicks hp
  rw [hgiven, if_pos hquality] at hepisodes
  rcases hwritten with ⟨rfl, -⟩ | ⟨plan', old, hplan', hold, -⟩
  · have hkept := @runHooks_inserted_kept _ db c.user body hfresh p
    intro r hr other hother hne hmedia hfour hactive
    have hrid : r.id = c.env.newRequestId := by simpa using List.find?_some hr
    obtain ⟨r₀, hr₀, hR⟩ := Table.exists_of_mem hkept (List.mem_of_find?_eq_some hr)
    obtain ⟨other₀, hother₀, hO⟩ := Table.exists_of_mem hkept hother
    rw [writeRequestRows_requests] at hr₀ hother₀
    have hnew : r₀ = insertedRequest c.env c.user body p (p.mediaId c.env) := by
      rcases List.mem_append.1 hr₀ with hmem | hmem
      · exact absurd (hR.id.symm.trans hrid) (hfresh.request r₀ hmem)
      · exact List.mem_singleton.1 hmem
    have hstored : other₀ ∈ db.requests := by
      rcases List.mem_append.1 hother₀ with hmem | hmem
      · exact hmem
      · rw [List.mem_singleton.1 hmem] at hO
        exact absurd hO.id hne
    subst hnew
    have hcompared : other₀ ∈ activeRequests (p.plan.requests db) (some body.is4k) := by
      rw [Prepared.requests_eq hfresh]
      refine List.mem_filter.2 ⟨List.mem_filter.2 ⟨hstored, ?_⟩, ?_⟩
      · rw [← hO.mediaId, hmedia, hR.mediaId]
        exact beq_self_eq_true _
      · rw [← hO.is4k, hfour, hR.is4k, hO.toSettledFrom.active hactive]
        simp [insertedRequest]
    have hrows : (insertedRequest c.env c.user body p (p.mediaId c.env)).episodes
        = insertedEpisodes c.env.hooks.now c.env.newRequestId p.status c.env.newChildId
            plan.episodes := by
      show p.episodes.elim [] _ = _
      rw [hplan]
      rfl
    have hapart : r.ClaimsApart other₀ := by
      refine (@claimsApart_of_free r other₀ plan.episodes ?_ ?_).2 fun e he => ?_
      · rw [hR.episodes, hrows, insertedEpisodes_tvdbIds]
      · rw [hR.episodeSeasons, hrows, insertedEpisodes_seasons]
      · rw [hepisodes] at he
        exact free_of_mem_uncovered hkind he hcompared
    unfold RequestRow.ClaimsApart
    rw [hO.episodes, hO.seasons]
    exact hapart
  · rw [hplan] at hplan'
    cases hplan'
    rw [hreplace] at hold
    cases hold

/-! ## Edits -/

/-- The other active requests of a request's title and quality. -/
def Db.othersOf (db : Db) (e : RequestRow) : List RequestRow :=
  activeRequests (db.requests.filter fun r => r.mediaId == e.mediaId && r.id != e.id)
    (some e.is4k)

/-- **What an edit may pick**: a selection of which the filter of a creation
leaves everything, as far as other requests go. -/
def EditCall.Unclaimed (c : EditCall) (db : Db) : Prop :=
  ∀ e resolved, db.requestById c.id = some e →
    editSelection c.settings c.env c.body = .ok resolved →
    uncovered resolved (db.othersOf e) none e.is4k = resolved.episodes

/-- The selection of an edit that picks does not go on. -/
theorem editSelection_rolling {settings : Settings} {env : CallEnv} {body : EditBody}
    {selection : Selection} {resolved : Resolved}
    (hselection : body.episodeSelection = some (.ok selection)) (hpicks : selection.picks = true)
    (h : editSelection settings env body = .ok resolved) : resolved.rolling = false := by
  unfold editSelection at h
  obtain ⟨details, _, h⟩ := except_bind_eq_ok h
  obtain ⟨_, _, h⟩ := except_bind_eq_ok h
  rw [hselection] at h
  split at h
  · rename_i heq _
    cases heq
    exact resolveSelection_rolling hpicks h
  · cases h
  · cases h

/-- The row an episode edit leaves. -/
def editedRow (env : CallEnv) (e : RequestRow) (body : EditBody) (requestedBy : Int)
    (resolved : Resolved) (key : Option String) (r : RequestRow) : RequestRow :=
  let r := saveColumns env.hooks.now (episodeColumns body requestedBy resolved key) e r
  { r with
    seasons := r.seasons.filter fun s => s.id ∉ e.seasons.map (·.id)
    episodes := insertedEpisodes env.hooks.now e.id RequestStatus.pending env.newChildId
      resolved.episodes }

section EditedRow

variable (env : CallEnv) (e : RequestRow) (body : EditBody) (requestedBy : Int)
  (resolved : Resolved) (key : Option String) (r : RequestRow)

@[simp] theorem editedRow_id : (editedRow env e body requestedBy resolved key r).id = r.id := by
  unfold editedRow saveColumns
  dsimp only
  split <;> rfl

@[simp] theorem editedRow_mediaId :
    (editedRow env e body requestedBy resolved key r).mediaId = r.mediaId := by
  unfold editedRow saveColumns
  dsimp only
  split <;> rfl

@[simp] theorem editedRow_is4k :
    (editedRow env e body requestedBy resolved key r).is4k = r.is4k := by
  unfold editedRow saveColumns
  dsimp only
  split <;> rfl

end EditedRow

/-- **An accepted edit** to one episode or a range claims none of its episodes
twice exactly when no other request has them. -/
theorem claimedOnce_edited_iff {c : EditCall} {db db' : Db} {selection : Selection}
    (htv : c.body.mediaType = "tv")
    (hselection : c.body.episodeSelection = some (.ok selection)) (hpicks : selection.picks = true)
    (h : edit c.settings c.env db c.user c.id c.body = .ok db') :
    db'.ClaimedOnce c.id ↔ c.Unclaimed db := by
  obtain ⟨e, media, owner, requester, he, -, htype, -, -, h⟩ := edit_branch h
  have hid : e.id = c.id := by simpa using List.find?_some he
  unfold editBranch at h
  rw [if_pos (htype.symm.trans htv), if_pos (by
    unfold editsEpisodes EditBody.allowedTo
    split <;> simp [hselection, EditBody.keepRouting])] at h
  obtain ⟨resolved, key, hresolved, -, rfl⟩ := editEpisodes_ok h
  rw [editSelection_allowedTo] at hresolved
  have hkind := editSelection_rolling hselection hpicks hresolved
  let row := editedRow c.env e (c.body.allowedTo c.user media) requester.id resolved key
  show (db.updateRequest e.id row).ClaimedOnce c.id ↔ _
  have hrow : (db.updateRequest e.id row).requestById c.id = some (row e) := by
    rw [← hid, Db.requestById_updateRequest db e.id fun r => editedRow_id .., hid, he]
    rfl
  -- The requests it is compared with are the other ones of the table.
  have hothers : ∀ other, other ∈ db.othersOf e ↔ other ∈ (db.updateRequest e.id row).requests
      ∧ other.id ≠ c.id ∧ other.mediaId = (row e).mediaId ∧ other.is4k = (row e).is4k
      ∧ other.active = true := by
    intro other
    show other ∈ List.filter _ (List.filter _ _) ↔ _
    have hmedia : (row e).mediaId = e.mediaId := editedRow_mediaId ..
    have hfour : (row e).is4k = e.is4k := editedRow_is4k ..
    rw [hmedia, hfour, ← hid]
    by_cases hne : other.id = e.id
    · simp [hne]
    · rw [Db.mem_updateRequest_of_ne db e.id (fun r => editedRow_id ..) hne]
      simp only [List.mem_filter, Bool.and_eq_true, beq_iff_eq, bne_iff_ne]
      tauto
  have hfree : c.Unclaimed db
      ↔ ∀ x ∈ resolved.episodes, ∀ other ∈ db.othersOf e, x.FreeOf other := by
    rw [← uncovered_eq_self_iff hkind]
    constructor
    · intro hunclaimed
      exact hunclaimed e resolved he hresolved
    · intro heq e' resolved' he' hresolved'
      rw [he] at he'
      rw [hresolved] at hresolved'
      cases he'
      cases hresolved'
      exact heq
  have hapart : ∀ other, (row e).ClaimsApart other ↔ ∀ x ∈ resolved.episodes, x.FreeOf other :=
    fun other => claimsApart_of_free (insertedEpisodes_tvdbIds ..) (insertedEpisodes_seasons ..)
  rw [hfree]
  constructor
  · intro honce x hx other hother
    obtain ⟨hmem, hne, hmedia, hfour, hactive⟩ := (hothers other).1 hother
    exact (hapart other).1 (honce _ hrow other hmem hne hmedia hfour hactive) x hx
  · intro hall r hr other hmem hne hmedia hfour hactive
    rw [hrow] at hr
    cases hr
    have hother := (hothers other).2 ⟨hmem, hne, hmedia, hfour, hactive⟩
    exact (hapart other).2 fun x hx => hall x hx other hother

/-! ## Runs -/

/-- Whether an operation is a creation or an edit to one episode or a range. -/
def SeriesOp.picks : SeriesOp → Bool
  | .create c => c.raw.episodeSelection.any fun s => s.toOption.any Selection.picks
  | .edit c => c.body.episodeSelection.any fun s => s.toOption.any Selection.picks
  | .meanwhile => false

/-- The request an operation creates or edits. -/
def SeriesOp.requestId : SeriesOp → Option Int
  | .create c => some c.env.newRequestId
  | .edit c => some c.id
  | .meanwhile => none

/-- An accepted operation on the requests of a series, a creation saying its
quality. -/
def EpisodeStep (db : Db) (op : SeriesOp) (db' : Db) : Prop :=
  (∀ c, op = .create c → c.raw.is4k.isSome = true) ∧ QuotaStep db op db'

/-- What an operation that picks leaves: its request's episodes claimed once. -/
def SeriesOp.ClaimedOnce (op : SeriesOp) (db' : Db) : Prop :=
  op.picks = true → ∀ id, op.requestId = some id → db'.ClaimedOnce id

/-- The condition on an operation: an edit picks only what no other request
claims. -/
def PicksUnclaimed (db : Db) : SeriesOp → Prop
  | .create _ => True
  | .edit c => (SeriesOp.edit c).picks = true → c.Unclaimed db
  | .meanwhile => True

/-- A selection that picks, as the body has it. -/
theorem picked_selection {sent : Option (Except String Selection)}
    (h : (sent.any fun s => s.toOption.any Selection.picks) = true) :
    ∃ selection, sent = some (.ok selection) ∧ selection.picks = true := by
  match sent, h with
  | some (.ok selection), h => exact ⟨selection, rfl, h⟩

/-- One operation. -/
theorem claimedOnce_step_iff {db db' : Db} {op : SeriesOp} (h : EpisodeStep db op db') :
    op.ClaimedOnce db' ↔ PicksUnclaimed db op := by
  obtain ⟨hquality, hstep⟩ := h
  cases op with
  | meanwhile => exact ⟨fun _ => trivial, fun _ hpicks => by cases hpicks⟩
  | create c =>
    obtain ⟨htv, hfresh, hcreate⟩ := hstep
    refine ⟨fun _ => trivial, fun _ hpicks id hid => ?_⟩
    cases hid
    obtain ⟨selection, hselection, hpicks⟩ := picked_selection hpicks
    exact claimedOnce_created hfresh htv (hquality c rfl) hselection hpicks hcreate
  | edit c =>
    obtain ⟨htv, hedit⟩ := hstep
    refine forall_congr' fun hpicks => ?_
    obtain ⟨selection, hselection, hpicks⟩ := picked_selection hpicks
    rw [← claimedOnce_edited_iff htv hselection hpicks hedit]
    exact ⟨fun h => h c.id rfl, fun h id hid => by cases hid; exact h⟩

/-- **No episode is claimed twice by a pick.** In a run of accepted creations,
replacements and edits, whatever else goes on, every creation and edit to one
episode or a range leaves its request's episodes claimed once exactly when its
edits pick only what no other request claims. -/
theorem claimedOnce_run_iff {db₀ db : Db} {ops : List SeriesOp} :
    Run (Guarded EpisodeStep PicksUnclaimed) db₀ ops db
      ↔ Run (fun db op db' => EpisodeStep db op db' ∧ op.ClaimedOnce db') db₀ ops db := by
  refine Run.congr fun db op db' => ?_
  constructor
  · intro ⟨hpicks, hstep⟩
    exact ⟨hstep, (claimedOnce_step_iff hstep).2 hpicks⟩
  · intro ⟨hstep, honce⟩
    exact ⟨(claimedOnce_step_iff hstep).1 honce, hstep⟩

/-! ### An edit to a claimed episode -/

/-- User 1, who may request, asks for one of the first two episodes of a
series. -/
def episodeCall (requestId episode : Int) : Call where
  settings := { users := [{ id := 1, permissions := Permission.request }] }
  env :=
    { clock := ⟨fun _ => 0, fun _ _ => true, fun _ _ => true, fun _ _ => true⟩
      details := .ok { id := some 100 }
      catalog := .ok [{ tvdbId := 11, season := 1, episode := 1 },
        { tvdbId := 12, season := 1, episode := 2 }]
      newMediaId := 10 + requestId
      newRequestId := requestId
      newChildId := fun i => 10 * requestId + i
      hooks := ⟨"", ⟨false, false, false⟩, ⟨false, none, none, false, false⟩⟩ }
  user := { id := 1, permissions := Permission.request }
  raw :=
    { mediaType := "tv"
      mediaId := some 100
      is4k := some false
      episodeSelection := some (.ok (.single episode)) }

/-- The same user edits a request to one of them. -/
def episodeEdit (requestId episode : Int) : EditCall where
  settings := (episodeCall requestId episode).settings
  env := (episodeCall requestId episode).env
  user := (episodeCall requestId episode).user
  id := requestId
  body := { mediaType := "tv", episodeSelection := some (.ok (.single episode)) }

/-- The tables after an edit; a refused one leaves them as they are. -/
def EditCall.applied (c : EditCall) (db : Db) : Db :=
  (edit c.settings c.env db c.user c.id c.body).toOption.getD db

/-- The tables after a request for each of the two episodes. -/
def twoEpisodes : Db := (episodeCall 2 12).applied ((episodeCall 1 11).applied {})

/-- The tables once the second is edited to the first one's episode. -/
def editedToFirst : Db := (episodeEdit 2 11).applied twoEpisodes

/-- **An edit claims an episode twice**: the second of two requests, for one
episode each, is edited to the first one's episode. -/
theorem edit_claims_episode_twice :
    Run EpisodeStep {} [.create (episodeCall 1 11), .create (episodeCall 2 12),
        .edit (episodeEdit 2 11)] editedToFirst
      ∧ ¬ (SeriesOp.edit (episodeEdit 2 11)).ClaimedOnce editedToFirst := by
  have hfirst : EpisodeStep {} (.create (episodeCall 1 11)) ((episodeCall 1 11).applied {}) :=
    ⟨fun c hc => by cases hc; rfl, rfl, ⟨by decide +kernel, by decide +kernel⟩, rfl⟩
  have hsecond : EpisodeStep ((episodeCall 1 11).applied {}) (.create (episodeCall 2 12))
      twoEpisodes :=
    ⟨fun c hc => by cases hc; rfl, rfl, ⟨by decide +kernel, by decide +kernel⟩, rfl⟩
  have hedit : EpisodeStep twoEpisodes (.edit (episodeEdit 2 11)) editedToFirst :=
    ⟨(fun _ hc => by cases hc), rfl, rfl⟩
  refine ⟨.cons hfirst (.cons hsecond (.single hedit)), fun honce => ?_⟩
  have hedited : editedToFirst.requestById 2 = some ((editedToFirst.requestById 2).getD {}) := by
    decide +kernel
  have hapart : ((editedToFirst.requestById 2).getD {}).ClaimsApart
      (editedToFirst.requests.headD {}) := by
    refine honce rfl 2 rfl _ hedited _ ?_ ?_ ?_ ?_ ?_
    all_goals decide +kernel
  have hclaimed : (11 : Int) ∈ ((editedToFirst.requestById 2).getD {}).episodes.map (·.tvdbId) := by
    decide +kernel
  exact hapart.1 hclaimed (by decide +kernel)

end Foreseerr

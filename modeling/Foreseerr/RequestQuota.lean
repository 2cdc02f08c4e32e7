import Foreseerr.RequestEdit
import Foreseerr.Run

/-!
# The series quota

What a user's requests charge them for, over any sequence of creations and
edits. Each checks the units it is about to charge against what remains of the
quota, an edit on top of the units the request already counts.

One path counts units that are not the user's: a selection that replaces an
ongoing request gets that request's units on top of what remains, also where
another user owned it and their quota counted them. The bound is proved for
the runs whose replacements stay away from that.
-/

namespace Foreseerr

/-! ## What a user is charged -/

/-- The units a request charges a user for. -/
def RequestRow.chargedUnits (r : RequestRow) (user : Int) : Nat :=
  if r.charges "tv" user then r.tvQuotaUnits else 0

/-- The units a user's requests count towards their quota. -/
def Db.tvUnits (db : Db) (user : Int) : Nat := (db.requests.map (·.chargedUnits user)).sum

/-- Without a window the quota's sum is that of all the user's requests. -/
theorem tvQuotaUsed_none (db : Db) (clock : QuotaClock) (user : Int) :
    db.tvQuotaUsed clock user none = db.tvUnits user := by
  simp [Db.tvQuotaUsed, Db.tvUnits, RequestRow.chargedUnits]

/-- A request charges no one but its user. -/
theorem RequestRow.chargedUnits_of_ne {r : RequestRow} {user : Int}
    (h : r.requestedById ≠ some user) : r.chargedUnits user = 0 := by
  simp [RequestRow.chargedUnits, RequestRow.charges, h]

/-- A request that ignores the quota charges no one. -/
theorem RequestRow.chargedUnits_of_ignore {r : RequestRow} {user : Int}
    (h : r.ignoreQuota = true) : r.chargedUnits user = 0 := by
  simp [RequestRow.chargedUnits, RequestRow.charges, h]

/-- A request charges no more than its units. -/
theorem RequestRow.chargedUnits_le (r : RequestRow) (user : Int) :
    r.chargedUnits user ≤ r.tvQuotaUnits := by
  unfold RequestRow.chargedUnits
  split
  · exact le_rfl
  · exact Nat.zero_le _

/-- Settling a request charges no one for more. -/
theorem RequestRow.SettledFrom.chargedUnits_le {after before : RequestRow}
    (h : after.SettledFrom before) (user : Int) :
    after.chargedUnits user ≤ before.chargedUnits user := by
  unfold RequestRow.chargedUnits
  by_cases hcharges : after.charges "tv" user = true
  · have hbefore : before.charges "tv" user = true := by
      simp only [RequestRow.charges, h.requestType, h.requestedById, h.ignoreQuota,
        Bool.and_eq_true, bne_iff_ne, ne_eq] at hcharges ⊢
      obtain ⟨⟨hown, hstatus⟩, hignore⟩ := hcharges
      refine ⟨⟨hown, fun hdeclined => hstatus ?_⟩, hignore⟩
      have hclosed : before.active = false := by simp [RequestRow.active, hdeclined]
      rw [h.closed hclosed, hdeclined]
    rw [if_pos hcharges, if_pos hbefore, h.tvQuotaUnits]
  · rw [if_neg hcharges]
    exact Nat.zero_le _

theorem tvUnits_settled {after before : Db} (h : after.SettledFrom before) (user : Int) :
    after.tvUnits user ≤ before.tvUnits user :=
  Table.sum_map_le h fun _ _ hR => hR.chargedUnits_le user

/-- An inserted request charges its user on top. -/
theorem tvUnits_inserted (env : CallEnv) (db : Db) (user : UserRecord) (body : Body)
    (p : Prepared) (u : Int) : (writeRequestRows env db user body p).tvUnits u
      = db.tvUnits u + (insertedRequest env user body p (p.mediaId env)).chargedUnits u := by
  simp [Db.tvUnits, writeRequestRows_requests]

/-! ## Requests by id -/

/-- The `id` of a request is the primary key of the table. -/
def Db.Keyed (db : Db) : Prop := (db.requests.map (·.id)).Nodup

theorem Db.Keyed.settled {after before : Db} (h : before.Keyed) (hs : after.SettledFrom before) :
    after.Keyed :=
  h.sublist (Table.map_sublist hs fun _ _ hR => hR.id)

theorem Db.Keyed.inserted {env : CallEnv} {db : Db} (h : db.Keyed) (hfresh : env.Fresh db)
    (user : UserRecord) (body : Body) (p : Prepared) :
    (writeRequestRows env db user body p).Keyed := by
  unfold Db.Keyed
  rw [writeRequestRows_requests, List.map_append]
  refine List.nodup_append.2 ⟨h, List.nodup_singleton _, fun i hi j hj heq => ?_⟩
  obtain ⟨r, hr, rfl⟩ := List.mem_map.1 hi
  rw [List.map_singleton, List.mem_singleton] at hj
  exact hfresh.request r hr (heq.trans hj)

theorem Db.Keyed.updated {db : Db} (h : db.Keyed) {id : Int} {f : RequestRow → RequestRow}
    (hf : ∀ r, (f r).id = r.id) : (db.updateRequest id f).Keyed := by
  have hids : (db.updateRequest id f).requests.map (·.id) = db.requests.map (·.id) := by
    unfold Db.updateRequest
    rw [List.map_map]
    refine List.map_congr_left fun r _ => ?_
    simp only [Function.comp_apply]
    split
    · exact hf r
    · rfl
  unfold Db.Keyed
  rw [hids]
  exact h

/-- Updating a request moves its user's units by what it charges. -/
theorem tvUnits_updated {db : Db} (h : db.Keyed) {e : RequestRow} (he : e ∈ db.requests)
    (f : RequestRow → RequestRow) (user : Int) :
    (db.updateRequest e.id f).tvUnits user + e.chargedUnits user
      = db.tvUnits user + (f e).chargedUnits user :=
  Table.sum_map_update h he f (·.chargedUnits user)

/-! ## The quota of one user -/

/-- A user's series quota is a limit without a window, which only a user who
may not manage users has. -/
def FixedQuota (settings : Settings) (record : UserRecord) (limit : Int) : Prop :=
  limitOf record record.tvQuotaLimit settings.tvQuotaLimit = limit
    ∧ (record.tvQuotaDays.or settings.tvQuotaDays).filter (· ≠ 0) = none

/-- A fixed quota leaves what is not used of it. -/
theorem tvQuota_of_fixed {settings : Settings} {record : UserRecord} {limit : Int}
    (h : FixedQuota settings record limit) (hlimit : 0 < limit) (clock : QuotaClock) (db : Db) :
    tvQuota settings clock db record
      = { limit := limit
          remaining := some (max (limit - db.tvUnits record.id) 0)
          restricted := limit - db.tvUnits record.id ≤ 0
          windowStart := none } := by
  obtain ⟨hl, hdays⟩ := h
  have hne : limit ≠ 0 := ne_of_gt hlimit
  unfold tvQuota windowOf quotaOf
  simp only [hl, hdays, windowOf, Option.map_none, tvQuotaUsed_none, hne, ne_eq,
    not_false_eq_true, if_true, if_false, decide_true, Bool.true_and]

/-- What a row comes to charge keeps its user within the limit, where it fits
what remains with what the row charged before. -/
theorem tvUnits_updated_le {db : Db} {limit : Int} {user : Int} (h : db.Keyed)
    (hle : (db.tvUnits user : Int) ≤ limit) {e : RequestRow} (he : e ∈ db.requests)
    {f : RequestRow → RequestRow}
    (hf : ((f e).chargedUnits user : Int) ≤ max (limit - db.tvUnits user) 0 + e.chargedUnits user) :
    ((db.updateRequest e.id f).tvUnits user : Int) ≤ limit := by
  have hsum := tvUnits_updated h he f user
  rw [max_eq_left (by omega)] at hf
  omega

/-! ## Edits -/

/-- An edit that fits charges its user for what remains at most, on top of what
the request charged them before. -/
theorem chargedUnits_of_editFits {settings : Settings} {env : CallEnv} {db : Db} {limit : Int}
    {user : Int} {e after : RequestRow} {requester : UserRecord} {units : Nat}
    (hquota : requester.id = user → FixedQuota settings requester limit) (hlimit : 0 < limit)
    (hpending : e.status = RequestStatus.pending)
    (hfits : editFits settings env db e requester units = .ok ())
    (htype : after.requestType = e.requestType) (hignore : after.ignoreQuota = e.ignoreQuota)
    (howner : after.requestedById = some requester.id) (hunits : after.tvQuotaUnits = units) :
    (after.chargedUnits user : Int)
      ≤ max (limit - db.tvUnits user) 0 + e.chargedUnits user := by
  have hzero : 0 ≤ max (limit - (db.tvUnits user : Int)) 0 := le_max_right _ _
  by_cases hmine : requester.id = user
  · by_cases hfree : e.ignoreQuota = true
    · rw [RequestRow.chargedUnits_of_ignore (hignore.trans hfree)]
      omega
    · -- The edit was checked against what remains and what the request holds.
      have hcounted : e.ignoreQuota = false := by simpa using hfree
      have hq := tvQuota_of_fixed (hquota hmine) hlimit env.clock db
      have hexceeds := refuseIf_eq_ok hfits
      rw [hq] at hexceeds
      have hle := @fits_of_not_exceeds _ limit _ _ hexceeds hcounted (ne_of_gt hlimit)
      simp only [Quota.heldUnits, Option.all_none, Bool.and_true, Option.getD_some,
        hmine] at hle
      by_cases htv : e.requestType = "tv"
      · have hcharged : (after.chargedUnits user : Int) ≤ units := by
          exact_mod_cast hunits ▸ after.chargedUnits_le user
        by_cases hown : e.requestedById = some user
        · have hheld : e.chargedUnits user = e.tvQuotaUnits := by
            simp [RequestRow.chargedUnits, RequestRow.charges, htv, hown, hpending, hcounted]
          rw [hheld]
          simp only [hown, ne_eq, not_true_eq_false, decide_false, Bool.not_false, if_true] at hle
          omega
        · simp only [hown, ne_eq, not_false_eq_true, decide_true, Bool.not_true,
            Bool.false_eq_true, if_false] at hle
          omega
      · have hnone : after.chargedUnits user = 0 := by
          simp [RequestRow.chargedUnits, RequestRow.charges, htype, htv]
        omega
  · have hother : after.requestedById ≠ some user := by
      rw [howner]
      exact fun heq => hmine (Option.some.inj heq)
    rw [RequestRow.chargedUnits_of_ne hother]
    omega

/-- The columns a save leaves are those assigned, but for the time: where it
writes nothing they were the same. -/
theorem saveColumns_observe {α : Type} (now : String) (assign : RequestRow → RequestRow)
    (e : RequestRow) (g : RequestRow → α)
    (hg : ∀ (r : RequestRow) (t : Option String), g { r with updatedAt := t } = g r) :
    g (saveColumns now assign e e) = g (assign e) := by
  unfold saveColumns
  by_cases h : columnsChange (assign e) e = true
  · rw [if_pos h]
    exact hg (assign e) (some now)
  · have hsame : assign e = e := by
      simp only [columnsChange, Bool.or_eq_true, not_or] at h
      simpa using h.1
    rw [if_neg h, hsame]

/-- A `PUT /request/{id}`. -/
structure EditCall where
  settings : Settings
  env : CallEnv
  user : UserRecord
  id : Int
  body : EditBody

/-- **An edit keeps the quota**: an accepted edit of a series leaves every user
with a fixed quota within it. -/
theorem tvUnits_edit {c : EditCall} {db db' : Db} {limit : Int} {user : Int} (hkeyed : db.Keyed)
    (hle : (db.tvUnits user : Int) ≤ limit) (hlimit : 0 < limit)
    (hquota : ∀ record : UserRecord, record.id = user → record ∈ c.settings.users →
      FixedQuota c.settings record limit)
    (htv : c.body.mediaType = "tv")
    (h : edit c.settings c.env db c.user c.id c.body = .ok db') :
    db'.Keyed ∧ (db'.tvUnits user : Int) ≤ limit := by
  obtain ⟨e, body, requester, he, hknown, hpending, hsaved⟩ := edit_ok htv h
  have hmem : e ∈ db.requests := List.mem_of_find?_eq_some he
  have hown : requester.id = user → FixedQuota c.settings requester limit :=
    fun hid => hquota requester hid hknown
  rcases hsaved with ⟨seasons, hfits, rfl⟩ | ⟨resolved, key, hfits, rfl⟩
  · let assign (r : RequestRow) :=
      { editedColumns body true requester.id r with tvQuotaUnits := seasons.units }
    refine ⟨hkeyed.updated fun r => ?_, tvUnits_updated_le hkeyed hle hmem ?_⟩
    · dsimp only [saveColumns]
      split <;> rfl
    · refine chargedUnits_of_editFits hown hlimit hpending hfits ?_ ?_ ?_ ?_
      · exact saveColumns_observe c.env.hooks.now assign e (·.requestType) fun _ _ => rfl
      · exact saveColumns_observe c.env.hooks.now assign e (·.ignoreQuota) fun _ _ => rfl
      · exact saveColumns_observe c.env.hooks.now assign e (·.requestedById) fun _ _ => rfl
      · exact saveColumns_observe c.env.hooks.now assign e (·.tvQuotaUnits) fun _ _ => rfl
  · let assign := episodeColumns body requester.id resolved key
    refine ⟨hkeyed.updated fun r => ?_, tvUnits_updated_le hkeyed hle hmem ?_⟩
    · dsimp only [saveColumns]
      split <;> rfl
    · refine chargedUnits_of_editFits hown hlimit hpending hfits ?_ ?_ ?_ ?_
      · exact saveColumns_observe c.env.hooks.now assign e (·.requestType) fun _ _ => rfl
      · exact saveColumns_observe c.env.hooks.now assign e (·.ignoreQuota) fun _ _ => rfl
      · exact saveColumns_observe c.env.hooks.now assign e (·.requestedById) fun _ _ => rfl
      · exact saveColumns_observe c.env.hooks.now assign e (·.tvQuotaUnits) fun _ _ => rfl

/-! ## Creations -/

/-- Whom a creation is for is a user there is, or the one who sends it. -/
theorem requestUser_known {settings : Settings} {user requester : UserRecord} {body : Body}
    (h : requestUser settings user body = .ok requester) :
    requester = user ∨ requester ∈ settings.users := by
  unfold requestUser at h
  obtain ⟨chosen, hchosen, h⟩ := except_bind_eq_ok h
  obtain ⟨_, _, h⟩ := except_bind_eq_ok h
  cases h
  unfold chosenUser at hchosen
  split at hchosen
  · exact Or.inl (Except.ok.inj hchosen).symm
  · split at hchosen
    · cases hchosen
    · split at hchosen
      · rename_i hfind
        cases hchosen
        exact Or.inr (List.mem_of_find?_eq_some hfind)
      · cases hchosen

/-- A new request fits what remains of its user's quota, unless it ignores
it. -/
theorem units_le_of_created {settings : Settings} {env : CallEnv} {db : Db} {user : UserRecord}
    {body : Body} {details : Details} {resolved : Option Resolved} {p : Prepared} {limit : Int}
    (h : Decided settings env db user body details resolved p) (htv : body.mediaType = "tv")
    (hnew : ∀ plan, p.episodes = some plan → plan.replace = none)
    (hfixed : FixedQuota settings p.requester limit) (hlimit : 0 < limit)
    (hcounted : p.ignoreQuota = false) :
    (p.units : Int) ≤ max (limit - db.tvUnits p.requester.id) 0 := by
  have hq := tvQuota_of_fixed hfixed hlimit env.clock db
  have hne : limit ≠ 0 := ne_of_gt hlimit
  cases resolved with
  | none =>
    obtain ⟨hepisodes, hplan⟩ := plannedChildren_seasons htv h.children
    obtain ⟨_, _, _, hfits⟩ := seasonPlan_ok hplan
    rw [hq] at hfits
    rw [Prepared.units, hepisodes]
    exact hfits hcounted hne
  | some resolved =>
    obtain ⟨planned, hepisodes, hplan⟩ := plannedChildren_episodes htv h.children
    obtain ⟨_, _, hfits⟩ := episodePlan_ok hplan
    rw [hq, hnew planned hepisodes] at hfits
    rw [Prepared.units, hepisodes]
    simpa using hfits hcounted hne

/-- **An insertion keeps the quota.** -/
theorem tvUnits_insertion {settings : Settings} {env : CallEnv} {db : Db} {user : UserRecord}
    {body : Body} {details : Details} {resolved : Option Resolved} {p : Prepared} {limit : Int}
    {u : Int} (h : Decided settings env db user body details resolved p)
    (htv : body.mediaType = "tv")
    (hnew : ∀ plan, p.episodes = some plan → plan.replace = none)
    (hfixed : p.requester.id = u → FixedQuota settings p.requester limit) (hlimit : 0 < limit)
    (hle : (db.tvUnits u : Int) ≤ limit) :
    ((writeRequestRows env db user body p).tvUnits u : Int) ≤ limit := by
  rw [tvUnits_inserted]
  let row := insertedRequest env user body p (p.mediaId env)
  show (db.tvUnits u + row.chargedUnits u : Nat) ≤ limit
  by_cases hmine : p.requester.id = u
  · by_cases hcounted : p.ignoreQuota = false
    · have hunits := units_le_of_created h htv hnew (hfixed hmine) hlimit hcounted
      rw [hmine, max_eq_left (by omega)] at hunits
      have hrow : row.chargedUnits u ≤ p.units := row.chargedUnits_le u
      omega
    · have hfree : row.ignoreQuota = true := by
        show p.ignoreQuota = true
        simpa using hcounted
      rw [RequestRow.chargedUnits_of_ignore hfree]
      exact hle
  · have hother : row.requestedById ≠ some u := fun heq => hmine (Option.some.inj heq)
    rw [RequestRow.chargedUnits_of_ne hother]
    exact hle

/-! ## Replacements -/

/-- What a replacement comes to charge is what its plan charges. -/
theorem replacement_charges (env : CallEnv) (user : UserRecord) (p : Prepared)
    (plan : EpisodePlan) (old : RequestRow) (u : Int) :
    (replacement env user p plan old old).chargedUnits u
      = (replacedRow user p plan old old).chargedUnits u := by
  unfold replacement
  by_cases hchanges : replacementChanges user p plan old = true
  · rw [if_pos hchanges]
    rfl
  · have hsame : replacedRow user p plan old old = old := by
      simp only [replacementChanges, Bool.or_eq_true, not_or] at hchanges
      simpa using hchanges.1
    rw [if_neg hchanges, hsame]
    rfl

/-- What a creation that replaces a request decided. -/
theorem replaced_of_decided {settings : Settings} {env : CallEnv} {db : Db} {user : UserRecord}
    {body : Body} {details : Details} {resolved : Option Resolved} {p : Prepared}
    {plan : EpisodePlan} {old : RequestRow} {limit : Int}
    (h : Decided settings env db user body details resolved p) (htv : body.mediaType = "tv")
    (hplan : p.episodes = some plan) (hold : plan.replace = some old)
    (hfixed : FixedQuota settings p.requester limit) (hlimit : 0 < limit)
    (hcounted : p.ignoreQuota = false) :
    (plan.units : Int) ≤ max (limit - db.tvUnits p.requester.id) 0 + old.tvQuotaUnits := by
  cases resolved with
  | none =>
    obtain ⟨hepisodes, -⟩ := plannedChildren_seasons htv h.children
    rw [hplan] at hepisodes
    cases hepisodes
  | some resolved =>
    obtain ⟨planned, hepisodes, hpl⟩ := plannedChildren_episodes htv h.children
    rw [hplan] at hepisodes
    cases hepisodes
    obtain ⟨_, _, hfits⟩ := episodePlan_ok hpl
    rw [tvQuota_of_fixed hfixed hlimit env.clock db, hold] at hfits
    exact hfits hcounted (ne_of_gt hlimit)

/-- The request a creation replaces is one of the table's, active, and the plan
is charged by the seasons of its episodes. -/
theorem replaced_mem {settings : Settings} {env : CallEnv} {db : Db} {user : UserRecord}
    {body : Body} {details : Details} {resolved : Option Resolved} {p : Prepared}
    {plan : EpisodePlan} {old : RequestRow}
    (h : Decided settings env db user body details resolved p) (htv : body.mediaType = "tv")
    (hplan : p.episodes = some plan) (hold : plan.replace = some old) :
    old ∈ db.requests ∧ old.active = true ∧ plan.units = quotaUnits plan.episodes := by
  obtain ⟨hactive, m, -, hmem⟩ := replaced_owner h hplan hold
  refine ⟨List.mem_of_mem_filter hmem, hactive, ?_⟩
  cases resolved with
  | none =>
    obtain ⟨hepisodes, -⟩ := plannedChildren_seasons htv h.children
    rw [hplan] at hepisodes
    cases hepisodes
  | some resolved =>
    obtain ⟨planned, hepisodes, hpl⟩ := plannedChildren_episodes htv h.children
    rw [hplan] at hepisodes
    cases hepisodes
    exact (episodePlan_ok hpl).1

/-- **Where a replacement keeps the quota**: the request it replaces is the
user's own, or ignores the quota and goes on doing so, or the new units fit what
remains without the old ones. -/
def ReplacesWithin (user : Int) (db : Db) (c : Call) : Prop :=
  ∀ body p plan old, parseBody c.raw = .ok body →
    prepare c.settings c.env db c.user body = .ok p → p.episodes = some plan →
    plan.replace = some old → p.requester.id = user →
    p.ignoreQuota = false ∧ (old.requestedById = some user ∨ old.ignoreQuota = true
      ∨ (plan.units : Int) ≤ (tvQuota c.settings c.env.clock db p.requester).remaining.getD 0)

/-- **A replacement keeps the quota** where it stays within it. -/
theorem tvUnits_replacement {c : Call} {db : Db} {body : Body} {details : Details}
    {resolved : Option Resolved} {p : Prepared} {plan : EpisodePlan} {old : RequestRow}
    {limit : Int} {u : Int} (hkeyed : db.Keyed)
    (hbody : parseBody c.raw = .ok body) (hp : prepare c.settings c.env db c.user body = .ok p)
    (h : Decided c.settings c.env db c.user body details resolved p) (htv : body.mediaType = "tv")
    (hplan : p.episodes = some plan) (hold : plan.replace = some old)
    (hfixed : p.requester.id = u → FixedQuota c.settings p.requester limit) (hlimit : 0 < limit)
    (hle : (db.tvUnits u : Int) ≤ limit) (hwithin : ReplacesWithin u db c) :
    ((replaceRequest c.env db c.user p plan old).tvUnits u : Int) ≤ limit := by
  obtain ⟨hmem, hactive, hunits⟩ := replaced_mem h htv hplan hold
  have hsettled := replaceRequest_settled c.env db c.user p plan old
  refine (Int.ofNat_le.2 (tvUnits_settled hsettled u)).trans ?_
  refine tvUnits_updated_le hkeyed hle hmem ?_
  rw [replacement_charges]
  have hzero : 0 ≤ max (limit - (db.tvUnits u : Int)) 0 := le_max_right _ _
  let row := replacedRow c.user p plan old old
  show (row.chargedUnits u : Int) ≤ _
  by_cases hmine : p.requester.id = u
  · obtain ⟨hcounted, hkind⟩ := hwithin body p plan old hbody hp hplan hold hmine
    have hrow : row.chargedUnits u ≤ plan.units := hunits ▸ row.chargedUnits_le u
    by_cases hfree : old.ignoreQuota = true
    · have hnone : row.chargedUnits u = 0 := RequestRow.chargedUnits_of_ignore hfree
      omega
    · rcases hkind with hown | hfree' | hfits
      · by_cases hseries : old.requestType = "tv"
        · -- The user's own request: what it gives back was counted.
          have hcharged : old.chargedUnits u = old.tvQuotaUnits := by
            have hstatus : old.status ≠ RequestStatus.declined := by
              intro hdeclined
              simp [RequestRow.active, hdeclined] at hactive
            simp [RequestRow.chargedUnits, RequestRow.charges, hseries, hown, hstatus, hfree]
          have hfits := replaced_of_decided h htv hplan hold (hfixed hmine) hlimit hcounted
          rw [hmine] at hfits
          rw [hcharged]
          omega
        · have hnone : row.chargedUnits u = 0 := by
            simp [RequestRow.chargedUnits, RequestRow.charges, row, replacedRow, hseries]
          omega
      · exact absurd hfree' hfree
      · rw [tvQuota_of_fixed (hfixed hmine) hlimit c.env.clock db, hmine] at hfits
        rw [Option.getD_some] at hfits
        omega
  · have hother : row.requestedById ≠ some u := fun heq => hmine (Option.some.inj heq)
    rw [RequestRow.chargedUnits_of_ne hother]
    omega

/-! ## Runs -/

/-- What changes what users are charged: a creation, an edit, or something that
only settles requests. -/
inductive SeriesOp
  | create (c : Call)
  | edit (c : EditCall)
  | meanwhile

/-- An accepted operation on the requests of a series. -/
def QuotaStep (db : Db) : SeriesOp → Db → Prop
  | .create c, db' => c.raw.mediaType = "tv" ∧ c.env.Fresh db
      ∧ create c.settings c.env db c.user c.raw = .ok db'
  | .edit c, db' => c.body.mediaType = "tv"
      ∧ edit c.settings c.env db c.user c.id c.body = .ok db'
  | .meanwhile, db' => db'.SettledFrom db

/-- The user's quota is the same limit, without a window, whatever the
operation. -/
def SeriesOp.QuotaFixed (user limit : Int) : SeriesOp → Prop
  | .create c => ∀ record : UserRecord, record.id = user →
      record = c.user ∨ record ∈ c.settings.users → FixedQuota c.settings record limit
  | .edit c => ∀ record : UserRecord, record.id = user →
      record ∈ c.settings.users → FixedQuota c.settings record limit
  | .meanwhile => True

/-- The operations of the runs considered. -/
def KeepsWithin (user : Int) (db : Db) : SeriesOp → Prop
  | .create c => ReplacesWithin user db c
  | .edit _ => True
  | .meanwhile => True

/-- One operation keeps the quota. -/
theorem tvUnits_step {db db' : Db} {op : SeriesOp} {user limit : Int} (hlimit : 0 < limit)
    (hquota : op.QuotaFixed user limit) (hkeyed : db.Keyed)
    (hle : (db.tvUnits user : Int) ≤ limit)
    (hstep : Guarded QuotaStep (KeepsWithin user) db op db') :
    db'.Keyed ∧ (db'.tvUnits user : Int) ≤ limit := by
  cases op with
  | meanwhile =>
    exact ⟨hkeyed.settled hstep.2, (Int.ofNat_le.2 (tvUnits_settled hstep.2 user)).trans hle⟩
  | edit c => exact tvUnits_edit hkeyed hle hlimit hquota hstep.2.1 hstep.2.2
  | create c =>
    obtain ⟨hwithin, htv, hfresh, hcreate⟩ := hstep
    obtain ⟨body, p, hbody, hp, hwritten⟩ := create_ok hcreate
    obtain ⟨details, resolved, hdecided⟩ := prepare_ok hp
    have htype : body.mediaType = "tv" := (parseBody_ok hbody).2.1.trans htv
    have hfixed : p.requester.id = user → FixedQuota c.settings p.requester limit :=
      fun hid => hquota p.requester hid (requestUser_known hdecided.requester)
    rcases hwritten with ⟨rfl, hnew⟩ | ⟨plan, old, hplan, hold, rfl⟩
    · have hsettled := (@runHooks_inserted_kept _ db c.user body hfresh p).settled
      refine ⟨(hkeyed.inserted hfresh c.user body p).settled hsettled, ?_⟩
      refine (Int.ofNat_le.2 (tvUnits_settled hsettled user)).trans ?_
      exact tvUnits_insertion hdecided htype hnew hfixed hlimit hle
    · refine ⟨(hkeyed.updated fun r => replacement_id c.env c.user p plan old r).settled
        (replaceRequest_settled c.env db c.user p plan old), ?_⟩
      exact tvUnits_replacement hkeyed hbody hp hdecided htype hplan hold hfixed hlimit hle hwithin

/-- **The series quota is never exceeded.** A user with a fixed quota who is
within it stays within it over every run of accepted creations, replacements
and edits, whose replacements for the user stay within it. -/
theorem quota_kept_of_run {db₀ db : Db} {ops : List SeriesOp} {user limit : Int}
    (hlimit : 0 < limit) (hquota : ∀ op ∈ ops, op.QuotaFixed user limit) (hkeyed : db₀.Keyed)
    (hle : (db₀.tvUnits user : Int) ≤ limit)
    (h : Run (Guarded QuotaStep (KeepsWithin user)) db₀ ops db) :
    (db.tvUnits user : Int) ≤ limit := by
  have hinv : db.Keyed ∧ (db.tvUnits user : Int) ≤ limit := by
    have hkept : ∀ db op db', op ∈ ops → db.Keyed ∧ (db.tvUnits user : Int) ≤ limit →
        Guarded QuotaStep (KeepsWithin user) db op db' →
        db'.Keyed ∧ (db'.tvUnits user : Int) ≤ limit := by
      intro db op db' hop hdb hstep
      exact tvUnits_step hlimit (hquota op hop) hdb.1 hdb.2 hstep
    exact h.invariant_of_mem hkept ⟨hkeyed, hle⟩
  exact hinv.2

/-! ### One replacement -/

/-- User 2 may have three series units and manages requests. -/
def quotaUser : UserRecord :=
  { id := 2
    permissions := Permission.request ||| Permission.manageRequests
    tvQuotaLimit := some 3 }

/-- User 2 asks for everything from the first of these seasons on, one episode
a season. -/
def ongoingCall (seasons : List Int) : Call where
  settings := { users := [quotaUser] }
  env :=
    { clock := ⟨fun _ => 0, fun _ _ => true, fun _ _ => true, fun _ _ => true⟩
      details := .ok { id := some 100 }
      catalog := .ok (seasons.map fun n => { tvdbId := n, season := n, episode := 1 })
      newMediaId := 50
      newRequestId := 50
      newChildId := fun i => 50 + i
      hooks := ⟨"", ⟨false, false, false⟩, ⟨false, none, none, false, false⟩⟩ }
  user := quotaUser
  raw :=
    { mediaType := "tv"
      mediaId := some 100
      is4k := some false
      episodeSelection := some (.ok (.after 1)) }

/-- A series with an ongoing request of a user, and another request of user 2
of one unit. -/
def withOngoing (owner : Int) (units : Nat) : Db where
  media := [{ id := 5, mediaType := "tv", tmdbId := 100, status := MediaStatus.processing }]
  requests :=
    [ { id := 1, status := RequestStatus.pending, requestType := "tv", tvQuotaUnits := 1,
        mediaId := some 9, requestedById := some 2 },
      { id := 3, status := RequestStatus.approved, requestType := "tv", tvQuotaUnits := units,
        episodeSelectionType := some "after", mediaId := some 5, requestedById := some owner } ]

theorem ongoingCall_quotaFixed (seasons : List Int) :
    (SeriesOp.create (ongoingCall seasons)).QuotaFixed 2 3 := by
  intro record _ hknown
  have hrecord : record = quotaUser := by
    rcases hknown with rfl | hmem
    · rfl
    · exact List.mem_singleton.1 hmem
  subst hrecord
  exact ⟨rfl, rfl⟩

/-- A call that says nothing of the quota does not ignore it. -/
theorem counted_of_prepared {c : Call} {db : Db} {body : Body} {p : Prepared}
    (htv : c.raw.mediaType = "tv") (hnone : c.raw.ignoreQuota = none)
    (hbody : parseBody c.raw = .ok body)
    (hp : prepare c.settings c.env db c.user body = .ok p) : p.ignoreQuota = false := by
  obtain ⟨details, resolved, hdecided⟩ := prepare_ok hp
  obtain ⟨-, htype, -, -, -, hignore, -⟩ := parseBody_ok hbody
  have hchecks := hdecided.ignoreQuota (htype.trans htv)
  by_contra hcounted
  rw [Bool.not_eq_false] at hcounted
  rw [hcounted] at hchecks
  have hasked := quotaChecks_asked hchecks
  rw [hignore, hnone] at hasked
  cases hasked

/-- User 2 replaces their own ongoing request by one of more seasons, up to the
limit. -/
theorem quota_kept_of_own_replacement :
    ((ongoingCall [1, 2]).applied (withOngoing 2 1)).tvUnits 2 = 3
      ∧ (((ongoingCall [1, 2]).applied (withOngoing 2 1)).tvUnits 2 : Int) ≤ 3 := by
  have hwithin : ReplacesWithin 2 (withOngoing 2 1) (ongoingCall [1, 2]) := by
    intro body p plan old hbody hp hplan hold _
    obtain ⟨details, resolved, hdecided⟩ := prepare_ok hp
    have htv : body.mediaType = "tv" := (parseBody_ok hbody).2.1
    obtain ⟨hmem, -, -⟩ := replaced_mem hdecided htv hplan hold
    have hown : ∀ r ∈ (withOngoing 2 1).requests, r.requestedById = some 2 := by decide
    exact ⟨counted_of_prepared rfl rfl hbody hp, Or.inl (hown old hmem)⟩
  have hstep : Guarded QuotaStep (KeepsWithin 2) (withOngoing 2 1) (.create (ongoingCall [1, 2]))
      ((ongoingCall [1, 2]).applied (withOngoing 2 1)) :=
    ⟨hwithin, rfl, ⟨by decide, by decide⟩, rfl⟩
  refine ⟨by decide +kernel, quota_kept_of_run (by decide) ?_ ?_ (by decide) (.single hstep)⟩
  · intro op hop
    rw [List.mem_singleton.1 hop]
    exact ongoingCall_quotaFixed [1, 2]
  · unfold Db.Keyed
    decide

/-- **Another user's units.** User 2, with two units of three left, replaces the
ongoing request of user 1, whose three units are given back though user 2's
quota never counted them: three seasons are granted, and four units counted. -/
theorem replacement_exceeds_quota :
    (SeriesOp.create (ongoingCall [1, 2, 3])).QuotaFixed 2 3
      ∧ ((withOngoing 1 3).tvUnits 2 : Int) ≤ 3
      ∧ Run QuotaStep (withOngoing 1 3) [.create (ongoingCall [1, 2, 3])]
          ((ongoingCall [1, 2, 3]).applied (withOngoing 1 3))
      ∧ ¬ (((ongoingCall [1, 2, 3]).applied (withOngoing 1 3)).tvUnits 2 : Int) ≤ 3 := by
  refine ⟨ongoingCall_quotaFixed [1, 2, 3], by decide, .single ⟨rfl, ?_, rfl⟩, by decide +kernel⟩
  exact ⟨by decide, by decide⟩

end Foreseerr

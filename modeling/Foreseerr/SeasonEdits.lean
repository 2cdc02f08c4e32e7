import Foreseerr.RequestEdit
import Mathlib.Data.List.Dedup
import Mathlib.Data.List.Perm.Basic

/-!
# The seasons an edit ends with

`plan_season_edit` derives what to keep, what to add, what to let go and what
to charge from the same four lists, each with a filter of its own; `save_rows`
replays them as insertions and updates. What should come out is simple to say:
each season that was asked for, that no other request holds and that this
request holds already or the library lacks, once, and a unit for each.

It comes out exactly for a list of seasons that names none of these twice. A
season named twice is charged twice, and inserted twice where it is new.
-/

namespace Foreseerr

section Edit

variable (requested elsewhere : List Int) (current : List SeasonRequestRow) (covered : List Int)

/-- **The seasons an edit may end with**: those asked for that no other request
holds and that this request holds or the library does not cover. -/
def MayHold (n : Int) : Prop :=
  n ∈ requested ∧ n ∉ elsewhere ∧ (n ∈ current.map (·.seasonNumber) ∨ n ∉ covered)

instance : DecidablePred (MayHold requested elsewhere current covered) := fun _ =>
  inferInstanceAs (Decidable (_ ∧ _ ∧ (_ ∨ _)))

/-- The numbers asked for that the edit may end with, as often as they are
named. -/
def grantable : List Int :=
  requested.filter fun n => MayHold requested elsewhere current covered n

/-- **What an edit should come to**: rows that hold each season it may end with
once, and no other, and a unit for each row. -/
structure ExactSeasons (rows : List SeasonRequestRow) (units : Nat) : Prop where
  once : (rows.map (·.seasonNumber)).Nodup
  exact : ∀ n, n ∈ rows.map (·.seasonNumber) ↔ MayHold requested elsewhere current covered n
  units : units = rows.length

variable {requested elsewhere current covered} {edit : SeasonEdit}

theorem mem_grantable {n : Int} : n ∈ grantable requested elsewhere current covered
    ↔ MayHold requested elsewhere current covered n := by
  unfold grantable
  rw [List.mem_filter, decide_eq_true_iff]
  exact ⟨fun h => h.2, fun h => ⟨h.1, h⟩⟩

/-! ## The plan -/

/-- The units of a plan are the numbers it grants, as often as they are
named. -/
theorem countP_add_length (requested elsewhere : List Int) (current : List SeasonRequestRow)
    (covered : List Int) :
    (requested.filter (· ∉ elsewhere)).countP (· ∈ current.map (·.seasonNumber))
        + ((requested.filter (· ∉ elsewhere)).filter fun n =>
            n ∉ current.map (·.seasonNumber) && n ∉ covered).length
      = (grantable requested elsewhere current covered).length := by
  have hgrant : grantable requested elsewhere current covered
      = (requested.filter (· ∉ elsewhere)).filter fun n =>
          n ∈ current.map (·.seasonNumber) ∨ n ∉ covered := by
    unfold grantable
    rw [List.filter_filter]
    refine List.filter_congr fun n hn => ?_
    rw [← Bool.decide_and, decide_eq_decide]
    exact ⟨fun h => ⟨h.2.2, h.2.1⟩, fun h => ⟨hn, h.2, h.1⟩⟩
  rw [hgrant, ← List.countP_eq_length_filter, ← List.countP_eq_length_filter]
  induction requested.filter (· ∉ elsewhere) with
  | nil => rfl
  | cons n ns ih =>
    simp only [List.countP_cons]
    by_cases hheld : n ∈ current.map (·.seasonNumber)
    · simp only [hheld, not_true_eq_false, true_or, decide_true, decide_false, Bool.false_and,
        if_true, Bool.false_eq_true, if_false]
      omega
    · simp only [hheld, not_false_eq_true, false_or, decide_true, decide_false, Bool.true_and,
        Bool.false_eq_true, if_false]
      omega

/-- What a plan that is made says. -/
theorem planSeasonEdit_eq_some
    (h : planSeasonEdit requested elsewhere current covered = some edit) :
    edit.add = (requested.filter (· ∉ elsewhere)).filter (fun n =>
        n ∉ current.map (·.seasonNumber) && n ∉ covered)
      ∧ edit.orphaned = (current.filter fun s =>
          s.seasonNumber ∉ requested.filter (· ∉ elsewhere)).map (·.id)
      ∧ edit.units = (grantable requested elsewhere current covered).length := by
  unfold planSeasonEdit at h
  dsimp only at h
  split at h
  · cases h
  · cases h
    exact ⟨rfl, rfl, countP_add_length requested elsewhere current covered⟩

/-- **There is no plan exactly where no season may be held.** -/
theorem planSeasonEdit_eq_none : planSeasonEdit requested elsewhere current covered = none
    ↔ ∀ n, ¬ MayHold requested elsewhere current covered n := by
  have hunits := countP_add_length requested elsewhere current covered
  have hplan : planSeasonEdit requested elsewhere current covered = none
      ↔ (grantable requested elsewhere current covered).length = 0 := by
    rw [← hunits]
    unfold planSeasonEdit
    dsimp only
    split
    · exact ⟨fun _ => by assumption, fun _ => rfl⟩
    · exact ⟨fun h => (nomatch h), fun h => absurd h (by assumption)⟩
  rw [hplan, List.length_eq_zero_iff, List.eq_nil_iff_forall_not_mem]
  exact forall_congr' fun n => not_congr mem_grantable

/-! ## The rows -/

/-- The rows a plan leaves: the current ones that are not let go, then the ones
added. -/
theorem rows_left {added : List SeasonRequestRow}
    (h : planSeasonEdit requested elsewhere current covered = some edit)
    (hkeys : (current.map (·.id)).Nodup)
    (hadded : ∀ s ∈ added, s.id ∉ current.map (·.id)) :
    (current ++ added).filter (fun s => s.id ∉ edit.orphaned)
      = current.filter (fun s => s.seasonNumber ∈ requested.filter (· ∉ elsewhere))
        ++ added := by
  obtain ⟨-, horphaned, -⟩ := planSeasonEdit_eq_some h
  rw [List.filter_append, horphaned]
  congr 1
  · refine List.filter_congr fun s hs => ?_
    rw [decide_eq_decide, List.mem_map, not_exists]
    constructor
    · intro hkept
      by_contra hnot
      exact hkept s ⟨List.mem_filter.2 ⟨hs, decide_eq_true hnot⟩, rfl⟩
    · rintro hkept t ⟨ht, hid⟩
      -- A row let go with this id would be this row.
      have hts : t = s := List.inj_on_of_nodup_map hkeys (List.mem_of_mem_filter ht) hs hid
      have hgone := of_decide_eq_true (List.mem_filter.1 ht).2
      exact hgone (hts ▸ hkept)
  · refine List.filter_eq_self.2 fun s hs => ?_
    rw [decide_eq_true_iff, List.mem_map, not_exists]
    rintro t ⟨ht, hid⟩
    exact hadded s hs (hid ▸ List.mem_map_of_mem (List.mem_of_mem_filter ht))

/-- The numbers of the rows a plan leaves. -/
theorem mem_numbers_left {added : List SeasonRequestRow}
    (h : planSeasonEdit requested elsewhere current covered = some edit)
    (hadded : added.map (·.seasonNumber) = edit.add) (n : Int) :
    n ∈ (current.filter (fun s => s.seasonNumber ∈ requested.filter (· ∉ elsewhere))
        ++ added).map (·.seasonNumber)
      ↔ MayHold requested elsewhere current covered n := by
  obtain ⟨hadd, -, -⟩ := planSeasonEdit_eq_some h
  rw [List.map_append, List.mem_append, hadded, hadd]
  simp only [List.mem_map, List.mem_filter, decide_eq_true_eq, Bool.and_eq_true, MayHold]
  constructor
  · rintro (⟨s, ⟨hs, hasked, helse⟩, rfl⟩ | ⟨⟨hasked, helse⟩, -, hcovered⟩)
    · exact ⟨hasked, helse, .inl ⟨s, hs, rfl⟩⟩
    · exact ⟨hasked, helse, .inr hcovered⟩
  · rintro ⟨hasked, helse, hheld⟩
    by_cases hcurrent : ∃ s ∈ current, s.seasonNumber = n
    · obtain ⟨s, hs, rfl⟩ := hcurrent
      exact .inl ⟨s, ⟨hs, hasked, helse⟩, rfl⟩
    · exact .inr ⟨⟨hasked, helse⟩, hcurrent, hheld.resolve_left hcurrent⟩

/-- The rows a plan leaves hold no season twice where none it grants is named
twice. -/
theorem nodup_numbers_left {added : List SeasonRequestRow}
    (h : planSeasonEdit requested elsewhere current covered = some edit)
    (hnumbers : (current.map (·.seasonNumber)).Nodup)
    (hadded : added.map (·.seasonNumber) = edit.add)
    (hnodup : (grantable requested elsewhere current covered).Nodup) :
    ((current.filter (fun s => s.seasonNumber ∈ requested.filter (· ∉ elsewhere))
      ++ added).map (·.seasonNumber)).Nodup := by
  obtain ⟨hadd, -, -⟩ := planSeasonEdit_eq_some h
  rw [List.map_append, hadded]
  refine List.nodup_append.2 ⟨hnumbers.sublist (List.filter_sublist.map _), ?_, ?_⟩
  · -- What is added is granted.
    refine hnodup.sublist ?_
    rw [hadd, List.filter_filter]
    unfold grantable
    have hboth : (requested.filter fun n => (n ∉ current.map (·.seasonNumber) && n ∉ covered)
          && n ∉ elsewhere)
        = (requested.filter fun n => MayHold requested elsewhere current covered n).filter
          fun n => n ∉ current.map (·.seasonNumber) := by
      rw [List.filter_filter]
      refine List.filter_congr fun n hn => ?_
      rw [← Bool.decide_and, ← Bool.decide_and, ← Bool.decide_and, decide_eq_decide]
      exact ⟨fun h => ⟨h.1.1, hn, h.2, .inr h.1.2⟩,
        fun h => ⟨⟨h.1, h.2.2.2.resolve_left h.1⟩, h.2.2.1⟩⟩
    rw [hboth]
    exact List.filter_sublist
  · -- What is added was not held.
    rintro n hn n' hn' rfl
    obtain ⟨s, hs, rfl⟩ := List.mem_map.1 hn
    rw [hadd, List.mem_filter, Bool.and_eq_true, decide_eq_true_iff] at hn'
    exact hn'.2.1 (List.mem_map_of_mem (List.mem_of_mem_filter hs))

/-- **The rows left are what they should be exactly where no season they may
hold is named twice.** -/
theorem exactSeasons_iff {added : List SeasonRequestRow}
    (h : planSeasonEdit requested elsewhere current covered = some edit)
    (hnumbers : (current.map (·.seasonNumber)).Nodup)
    (hadded : added.map (·.seasonNumber) = edit.add) :
    ExactSeasons requested elsewhere current covered
        (current.filter (fun s => s.seasonNumber ∈ requested.filter (· ∉ elsewhere)) ++ added)
        edit.units
      ↔ (grantable requested elsewhere current covered).Nodup := by
  obtain ⟨-, -, hunits⟩ := planSeasonEdit_eq_some h
  have hmem := mem_numbers_left h hadded
  constructor
  · intro hexact
    -- As many numbers are named as there are different ones.
    have hperm := (List.perm_ext_iff_of_nodup hexact.once
      (List.nodup_dedup (grantable requested elsewhere current covered))).2 fun n =>
        (hmem n).trans (mem_grantable.symm.trans List.mem_dedup.symm)
    have hlength := hperm.length_eq
    rw [List.length_map, ← hexact.units, hunits] at hlength
    exact List.dedup_eq_self.1 ((List.dedup_sublist _).eq_of_length hlength.symm)
  · intro hnodup
    have honce := nodup_numbers_left h hnumbers hadded hnodup
    have hperm := (List.perm_ext_iff_of_nodup honce hnodup).2 fun n =>
      (hmem n).trans mem_grantable.symm
    exact ⟨honce, hmem, by rw [hunits, ← hperm.length_eq, List.length_map]⟩

end Edit

/-! ## The save -/

/-- The columns of an edit are as assigned, written or not. -/
theorem saveColumns_tvQuotaUnits (now : String) (assign : RequestRow → RequestRow)
    (stored : RequestRow) :
    (saveColumns now assign stored stored).tvQuotaUnits = (assign stored).tvQuotaUnits := by
  unfold saveColumns columnsChange
  split
  · rfl
  · rename_i hsame
    have hassigned : assign stored = stored := by
      by_contra hne
      simp [hne] at hsame
    rw [hassigned]

/-- A save keeps a row's seasons, and its id, where what it assigns does. -/
theorem saveColumns_seasons (now : String) (assign : RequestRow → RequestRow)
    (hassign : ∀ r, (assign r).seasons = r.seasons) (stored r : RequestRow) :
    (saveColumns now assign stored r).seasons = r.seasons := by
  unfold saveColumns
  split
  · exact hassign r
  · rfl

theorem saveColumns_id (now : String) (assign : RequestRow → RequestRow)
    (hassign : ∀ r, (assign r).id = r.id) (stored r : RequestRow) :
    (saveColumns now assign stored r).id = r.id := by
  unfold saveColumns
  split
  · exact hassign r
  · rfl

section Save

variable (env : CallEnv) (db : Db) (e : RequestRow) (body : EditBody) (requestedBy : Int)
  (requested elsewhere covered : List Int)

/-- **What a season edit should do**: save nothing exactly where there is no
season to hold, and else leave the request with those, one unit for each. -/
def ExactEdit : Prop :=
  (planSeasonEdit requested elsewhere e.seasons covered = none
      ↔ ∀ n, ¬ MayHold requested elsewhere e.seasons covered n)
    ∧ ∀ edit, planSeasonEdit requested elsewhere e.seasons covered = some edit →
      ∃ r, (saveSeasonEdit env db e body requestedBy edit).requestById e.id = some r
        ∧ ExactSeasons requested elsewhere e.seasons covered r.seasons r.tvQuotaUnits

variable {env db e requested elsewhere covered}

/-- The request a season edit leaves. -/
theorem saveSeasonEdit_row {edit : SeasonEdit} (hfound : db.requestById e.id = some e)
    (hkeys : (e.seasons.map (·.id)).Nodup)
    (hfresh : ∀ i, env.newChildId i ∉ e.seasons.map (·.id))
    (h : planSeasonEdit requested elsewhere e.seasons covered = some edit) :
    ∃ r added, (saveSeasonEdit env db e body requestedBy edit).requestById e.id = some r
      ∧ added.map (·.seasonNumber) = edit.add ∧ r.tvQuotaUnits = edit.units
      ∧ r.seasons = e.seasons.filter
          (fun s => s.seasonNumber ∈ requested.filter (· ∉ elsewhere)) ++ added := by
  let assign (r : RequestRow) : RequestRow :=
    { editedColumns body true requestedBy r with tvQuotaUnits := edit.units }
  let saved (r : RequestRow) := saveColumns env.hooks.now assign e r
  let added := edit.add.mapIdx fun i n =>
    ({ id := env.newChildId i
       seasonNumber := n
       status := RequestStatus.pending
       createdAt := some env.hooks.now
       updatedAt := some env.hooks.now
       requestId := some e.id } : SeasonRequestRow)
  let written (r : RequestRow) : RequestRow :=
    { saved r with
      seasons := ((saved r).seasons ++ added).filter fun s => s.id ∉ edit.orphaned }
  have hid : ∀ r, (written r).id = r.id := fun r =>
    saveColumns_id env.hooks.now assign (fun _ => rfl) e r
  have hseasons : (saved e).seasons = e.seasons :=
    saveColumns_seasons env.hooks.now assign (fun _ => rfl) e e
  have hfind : (saveSeasonEdit env db e body requestedBy edit).requestById e.id
      = some (written e) := by
    rw [show saveSeasonEdit env db e body requestedBy edit = db.updateRequest e.id written from rfl,
      Db.requestById_updateRequest _ _ hid, hfound]
    rfl
  refine ⟨_, added, hfind, by simp [added, List.mapIdx_eq_zipIdx_map, Function.comp_def],
    saveColumns_tvQuotaUnits env.hooks.now assign e, ?_⟩
  show List.filter _ ((saved e).seasons ++ added) = _
  rw [hseasons]
  refine rows_left h hkeys fun s hs => ?_
  obtain ⟨i, hi, rfl⟩ := List.mem_mapIdx.1 hs
  exact hfresh i

variable {body requestedBy}

/-- **A season edit ends with exactly the seasons it may have** if and only if
none of these is named twice in the list it is asked for. -/
theorem season_edit_exact_iff (hfound : db.requestById e.id = some e)
    (hnumbers : (e.seasons.map (·.seasonNumber)).Nodup)
    (hkeys : (e.seasons.map (·.id)).Nodup)
    (hfresh : ∀ i, env.newChildId i ∉ e.seasons.map (·.id)) :
    ExactEdit env db e body requestedBy requested elsewhere covered
      ↔ (grantable requested elsewhere e.seasons covered).Nodup := by
  unfold ExactEdit
  rw [and_iff_right planSeasonEdit_eq_none]
  cases hplan : planSeasonEdit requested elsewhere e.seasons covered with
  | none =>
    -- Nothing is granted, so nothing is granted twice.
    have hnil : grantable requested elsewhere e.seasons covered = [] :=
      List.eq_nil_iff_forall_not_mem.2 fun n hn =>
        planSeasonEdit_eq_none.1 hplan n (mem_grantable.1 hn)
    rw [hnil]
    exact iff_of_true (fun _ h => nomatch h) List.nodup_nil
  | some edit =>
    obtain ⟨r, added, hr, hadded, hunits, hseasons⟩ :=
      saveSeasonEdit_row body requestedBy hfound hkeys hfresh hplan
    rw [← exactSeasons_iff hplan hnumbers hadded, ← hunits, ← hseasons]
    constructor
    · intro hexact
      obtain ⟨r', hr', h⟩ := hexact edit rfl
      cases hr.symm.trans hr'
      exact h
    · rintro h _ ⟨⟩
      exact ⟨r, hr, h⟩

end Save

/-- A pending request of two seasons. -/
def twoSeasons : RequestRow :=
  { id := 7
    status := RequestStatus.pending
    requestedById := some 1
    tvQuotaUnits := 2
    seasons := [{ id := 10, seasonNumber := 1, requestId := some 7 },
      { id := 20, seasonNumber := 2, requestId := some 7 }] }

/-- The table of that request alone. -/
def oneSeries : Db := { requests := [twoSeasons] }

/-- What an edit of it finds. -/
def editEnv : CallEnv where
  clock := ⟨fun _ => 0, fun _ _ => true, fun _ _ => true, fun _ _ => true⟩
  details := .ok { id := some 100 }
  newMediaId := 50
  newRequestId := 50
  newChildId := fun i => 50 + i
  hooks := ⟨"", ⟨false, false, false⟩, ⟨false, none, none, false, false⟩⟩

theorem editEnv_fresh (i : Nat) : editEnv.newChildId i ∉ twoSeasons.seasons.map (·.id) := by
  simp [editEnv, twoSeasons]
  omega

/-- Asked for 2 and 3, the request lets go of 1 and ends with two units. -/
theorem season_edit_two_three :
    ExactEdit editEnv oneSeries twoSeasons { mediaType := "tv" } 1 [2, 3] [] [] :=
  (season_edit_exact_iff rfl (by decide) (by decide) editEnv_fresh).2 (by decide)

/-- **A season named twice**: asked for season 4 twice, the request holds it in
two rows. -/
theorem season_edit_twice : ∃ edit r,
    planSeasonEdit [4, 4] [] twoSeasons.seasons [] = some edit
      ∧ (saveSeasonEdit editEnv oneSeries twoSeasons { mediaType := "tv" } 1 edit).requestById 7
        = some r
      ∧ r.seasons.map (·.seasonNumber) = [4, 4]
      ∧ ¬ ExactEdit editEnv oneSeries twoSeasons { mediaType := "tv" } 1 [4, 4] [] [] := by
  refine ⟨_, _, rfl, rfl, by decide, ?_⟩
  rintro ⟨-, hexact⟩
  obtain ⟨r, hr, h⟩ := hexact _ rfl
  cases hr
  exact absurd h.once (by decide)

end Foreseerr

import Foreseerr.Run
import Foreseerr.TitleFrames
import Mathlib.Data.List.Dedup
import Mathlib.Data.List.Sort

/-!
# The pages of the availability sync

`availability_sync.rs` goes through the available titles in pages of fifty, each of the
titles after the last id of the page before (`load_page`). A page is two queries, one for
the ids and one for the rows; then its titles are checked one after another, and what a
check writes takes titles out of the filter that the pages are read by.

Whatever the checks and the rest of the program write, no title is checked twice
(`checked_increasing`), and one that stays in the filter until its page is read is checked
(`checked_once`).
-/

namespace Foreseerr

namespace AvailabilityPages

/-! ## A page -/

/-- `available_or_partial`. -/
def availableOrPartial (status : Int) : Bool :=
  status == MediaStatus.available || status == MediaStatus.partially

/-- A season that is available in a quality. -/
def seasonAvailable (s : SeasonRow) : Bool :=
  availableOrPartial s.status || availableOrPartial s.status4k

/-- A title that is available in a quality. -/
def whole (m : MediaRow) : Bool := availableOrPartial m.status || availableOrPartial m.status4k

/-- The filter of the pages. -/
def listed (m : MediaRow) : Bool := whole m || m.seasons.any seasonAvailable

/-- `PAGE_SIZE`. -/
def pageSize : Nat := 50

/-- The ids in the filter after an id, each once and in order. -/
def idsAfter (db : Db) (after : Int) : List Int :=
  (((db.media.filter fun m => decide (after < m.id) && listed m).map (·.id)).dedup).insertionSort
    (· ≤ ·)

/-- The ids of a page. -/
def pageIds (db : Db) (after : Int) : List Int := (idsAfter db after).take pageSize

/-- A title as `find` loads it, and the stored seasons it leaves out, which the first save
detaches. -/
def loaded (m : MediaRow) : MediaRow × List Int :=
  let seasons := if whole m then m.seasons else m.seasons.filter seasonAvailable
  let left := if whole m then [] else m.seasons.filter fun s => !seasonAvailable s
  ({ m with seasons := seasons.insertionSort fun s s' => s.id ≤ s'.id }, left.map (·.id))

/-- The rows of a page, of those of its titles that are still stored. -/
def pageRows (db : Db) (ids : List Int) : List (MediaRow × List Int) :=
  ids.filterMap fun id => (db.mediaById id).map loaded

/-! ## A run -/

/-- Where a run is: before a page, between its queries, in its titles, or at the end. A run
that is aborted, or that fails, takes no more steps. -/
inductive Phase
  | next
  | asked (ids : List Int)
  | page (rows : List (MediaRow × List Int))
  | ended

/-- A run; `checked` is a history of the titles checked. -/
structure State where
  db : Db
  after : Int := 0
  phase : Phase := .next
  checked : List (MediaRow × List Int) := []

/-- What happens in a run: a write of the rest of the program, the queries of a page, the
check of its next title with whatever it writes, and its end. -/
inductive Event
  | other (write : Db → Db)
  | ask
  | read
  | check (write : Db → Db)
  | turn

/-- One step of `sync`. -/
def step (s : State) : Event → Option State
  | .other write => some { s with db := write s.db }
  | .ask =>
    match s.phase with
    | .next =>
      let ids := pageIds s.db s.after
      match ids.max? with
      | none => some { s with phase := .ended }
      | some last => some { s with after := last, phase := .asked ids }
    | _ => none
  | .read =>
    match s.phase with
    | .asked ids => some { s with phase := .page (pageRows s.db ids) }
    | _ => none
  | .check write =>
    match s.phase with
    | .page (row :: rows) =>
      some { s with db := write s.db, phase := .page rows, checked := s.checked ++ [row] }
    | _ => none
  | .turn =>
    match s.phase with
    | .page [] => some { s with phase := .next }
    | _ => none

def Step (s : State) (event : Event) (s' : State) : Prop := step s event = some s'

/-- The ids still to be checked. -/
def Phase.pending : Phase → List Int
  | .asked ids => ids
  | .page rows => rows.map (·.1.id)
  | .next | .ended => []

/-- The ids checked so far, and those still to be checked. -/
def State.ids (s : State) : List Int := s.checked.map (·.1.id) ++ s.phase.pending

/-- The id is one of these, or still to be asked for. -/
def State.Covers (id : Int) (s : State) : Prop :=
  id ∈ s.ids ∨ s.phase ≠ .ended ∧ s.after < id

/-- The title is in the filter until a page asks for it, and stored until its row is
read. -/
def State.Keeps (id : Int) (s : State) : Prop :=
  (s.after < id → ∃ m ∈ s.db.media, m.id = id ∧ listed m = true)
    ∧ ∀ ids, s.phase = .asked ids → id ∈ ids → ∃ m ∈ s.db.media, m.id = id

/-! ## What a page has -/

theorem mem_idsAfter {db : Db} {after id : Int} :
    id ∈ idsAfter db after ↔ after < id ∧ ∃ m ∈ db.media, m.id = id ∧ listed m = true := by
  unfold idsAfter
  rw [List.mem_insertionSort, List.mem_dedup, List.mem_map]
  constructor
  · rintro ⟨m, hm, rfl⟩
    simp only [List.mem_filter, Bool.and_eq_true, decide_eq_true_eq] at hm
    exact ⟨hm.2.1, m, hm.1, rfl, hm.2.2⟩
  · rintro ⟨hafter, m, hm, rfl, hlisted⟩
    exact ⟨m, List.mem_filter.mpr ⟨hm, by simp [hafter, hlisted]⟩, rfl⟩

theorem idsAfter_increasing (db : Db) (after : Int) :
    (idsAfter db after).Pairwise (· < ·) := by
  have hsorted := List.pairwise_insertionSort (· ≤ ·)
    ((db.media.filter fun m => decide (after < m.id) && listed m).map (·.id)).dedup
  have hnodup := (List.perm_insertionSort (· ≤ ·) _).nodup_iff.mpr
    (List.nodup_dedup ((db.media.filter fun m => decide (after < m.id) && listed m).map (·.id)))
  exact (hsorted.and hnodup).imp fun hle => lt_of_le_of_ne hle.1 hle.2

/-- **What a page leaves out comes after it.** -/
theorem mem_pageIds {db : Db} {after last id : Int} (hlast : (pageIds db after).max? = some last)
    (hid : id ∈ idsAfter db after) : id ∈ pageIds db after ∨ last < id := by
  have hmem := (List.max?_eq_some_iff.mp hlast).1
  have hincreasing := idsAfter_increasing db after
  unfold pageIds at hmem ⊢
  rw [← List.take_append_drop pageSize (idsAfter db after)] at hid hincreasing
  refine (List.mem_append.mp hid).imp_right fun hdrop => ?_
  exact (List.pairwise_append.mp hincreasing).2.2 last hmem id hdrop

/-- The rows of a page stand in the order of its ids. -/
theorem pageRows_ids (db : Db) (ids : List Int) :
    ((pageRows db ids).map (·.1.id)).Sublist ids := by
  unfold pageRows
  induction ids with
  | nil => exact .slnil
  | cons id ids ih =>
    cases hm : db.mediaById id with
    | none => simpa [hm] using ih.cons id
    | some m =>
      have hid : m.id = id := Db.mediaById_id hm
      simpa [hm, loaded, hid] using ih.cons_cons id

theorem mem_pageRows {db : Db} {ids : List Int} {id : Int} (hid : id ∈ ids)
    (hstored : ∃ m ∈ db.media, m.id = id) : id ∈ (pageRows db ids).map (·.1.id) := by
  obtain ⟨m, hm, rfl⟩ := hstored
  have hfound : (db.mediaById m.id).isSome := List.find?_isSome.mpr ⟨m, hm, by simp⟩
  obtain ⟨row, hrow⟩ := Option.isSome_iff_exists.mp hfound
  have hmem : loaded row ∈ pageRows db ids := List.mem_filterMap.mpr ⟨m.id, hid, by rw [hrow]; rfl⟩
  have hsame : row.id = m.id := Db.mediaById_id hrow
  exact List.mem_map.mpr ⟨loaded row, hmem, hsame⟩

/-! ## Every run -/

/-- What was checked and what is to be checked stands in order, up to the last id asked
for. -/
structure Inv (s : State) : Prop where
  increasing : s.ids.Pairwise (· < ·)
  bound : ∀ id ∈ s.ids, id ≤ s.after

section Steps

variable {s s' : State} {event : Event}

theorem Inv.step (h : Inv s) (hstep : Step s event s') : Inv s' := by
  obtain ⟨hincreasing, hbound⟩ := h
  unfold State.ids at hincreasing hbound
  unfold Step AvailabilityPages.step at hstep
  cases event with
  | other write =>
    cases hstep
    exact ⟨hincreasing, hbound⟩
  | ask =>
    dsimp only at hstep
    split at hstep
    · next hphase =>
      rw [hphase, Phase.pending, List.append_nil] at hincreasing hbound
      split at hstep
      · cases hstep
        exact ⟨by simpa [State.ids, Phase.pending] using hincreasing,
          by simpa [State.ids, Phase.pending] using hbound⟩
      · next last hlast =>
        cases hstep
        obtain ⟨hmem, hmax⟩ := List.max?_eq_some_iff.mp hlast
        have hafter : ∀ id ∈ pageIds s.db s.after, s.after < id :=
          fun id hid => (mem_idsAfter.mp (List.mem_of_mem_take hid)).1
        refine ⟨List.pairwise_append.mpr ⟨hincreasing,
          (idsAfter_increasing s.db s.after).sublist (List.take_sublist _ _), fun a ha b hb => ?_⟩,
          fun id hid => ?_⟩
        · exact (hbound a ha).trans_lt (hafter b hb)
        · rcases List.mem_append.mp hid with hid | hid
          · exact ((hbound id hid).trans_lt (hafter last hmem)).le
          · exact hmax id hid
    · cases hstep
  | read =>
    dsimp only at hstep
    split at hstep
    · next ids hphase =>
      cases hstep
      rw [hphase] at hincreasing hbound
      have hrows : (s.checked.map (·.1.id) ++ (pageRows s.db ids).map (·.1.id)).Sublist
          (s.checked.map (·.1.id) ++ ids) := (pageRows_ids s.db ids).append_left _
      exact ⟨hincreasing.sublist hrows, fun id hid => hbound id (hrows.subset hid)⟩
    · cases hstep
  | check write =>
    dsimp only at hstep
    split at hstep
    · next row rows hphase =>
      cases hstep
      rw [hphase] at hincreasing hbound
      have hids : State.ids { s with
          db := write s.db, phase := .page rows, checked := s.checked ++ [row] }
          = s.checked.map (·.1.id) ++ (row :: rows).map (·.1.id) := by
        simp [State.ids, Phase.pending]
      exact ⟨hids ▸ hincreasing, fun id hid => hbound id (hids ▸ hid)⟩
    · cases hstep
  | turn =>
    dsimp only at hstep
    split at hstep
    · next hphase =>
      cases hstep
      rw [hphase] at hincreasing hbound
      exact ⟨hincreasing, hbound⟩
    · cases hstep

/-- A title that stays in the filter is asked for, or comes after the last id asked for;
the end does not come before it. -/
theorem State.Covers.step {id : Int} (hcovered : s.Covers id) (hkeeps : s.Keeps id)
    (hstep : Step s event s') : s'.Covers id := by
  unfold State.Covers State.ids at hcovered ⊢
  unfold Step AvailabilityPages.step at hstep
  cases event with
  | other write =>
    cases hstep
    exact hcovered
  | ask =>
    dsimp only at hstep
    split at hstep
    · next hphase =>
      rw [hphase, Phase.pending, List.append_nil] at hcovered
      split at hstep
      · next hnone =>
        cases hstep
        rw [Phase.pending, List.append_nil]
        refine .inl (hcovered.resolve_right fun hafter => ?_)
        have hempty : idsAfter s.db s.after = [] := by
          simpa [pageIds, pageSize] using List.max?_eq_none_iff.mp hnone
        exact List.not_mem_nil (hempty ▸ mem_idsAfter.mpr ⟨hafter.2, hkeeps.1 hafter.2⟩)
      · next last hlast =>
        cases hstep
        rcases hcovered with hchecked | ⟨-, hafter⟩
        · exact .inl (List.mem_append_left _ hchecked)
        · exact (mem_pageIds hlast (mem_idsAfter.mpr ⟨hafter, hkeeps.1 hafter⟩)).imp
            (fun hid => List.mem_append_right _ hid) fun hlate => ⟨by simp, hlate⟩
    · cases hstep
  | read =>
    dsimp only at hstep
    split at hstep
    · next ids hphase =>
      cases hstep
      rw [hphase] at hcovered
      refine hcovered.imp (fun hid => ?_) fun hafter => ⟨by simp, hafter.2⟩
      rcases List.mem_append.mp hid with hchecked | hasked
      · exact List.mem_append_left _ hchecked
      · exact List.mem_append_right _ (mem_pageRows hasked (hkeeps.2 ids hphase hasked))
    · cases hstep
  | check write =>
    dsimp only at hstep
    split at hstep
    · next row rows hphase =>
      cases hstep
      rw [hphase] at hcovered
      refine hcovered.imp (fun hid => ?_) fun hafter => ⟨by simp, hafter.2⟩
      simpa [Phase.pending] using hid
    · cases hstep
  | turn =>
    dsimp only at hstep
    split at hstep
    · next hphase =>
      cases hstep
      rw [hphase] at hcovered
      exact hcovered.imp (fun hid => hid) fun hafter => ⟨by simp, hafter.2⟩
    · cases hstep

end Steps

section Runs

variable {db : Db} {events : List Event} {s : State}

/-- **No title is checked twice**: the ids that are checked increase. -/
theorem checked_increasing (hrun : Run Step { db } events s) :
    (s.checked.map (·.1.id)).Pairwise (· < ·) := by
  have hstart : Inv { db } := ⟨.nil, fun _ h => absurd h List.not_mem_nil⟩
  have hinv := hrun.invariant (fun _ _ _ h hstep => h.step hstep) hstart
  exact hinv.increasing.sublist (List.sublist_append_left _ _)

/-- **A title that stays in the filter until its page is read is checked once**, whatever
the checks of the others and the rest of the program write. -/
theorem checked_once {id : Int} (hpos : 0 < id)
    (hrun : Run (Guarded Step fun s _ => s.Keeps id) { db } events s) (hended : s.phase = .ended) :
    (s.checked.map (·.1.id)).count id = 1 := by
  have hcovered : s.Covers id := hrun.invariant
    (fun _ _ _ h hstep => h.step hstep.1 hstep.2) (.inr ⟨by simp, hpos⟩)
  have hchecked : id ∈ s.checked.map (·.1.id) := by
    have hids := hcovered.resolve_right fun h => h.1 hended
    rwa [State.ids, hended, Phase.pending, List.append_nil] at hids
  have hincreasing := checked_increasing hrun.of_guarded
  exact List.count_eq_one_of_mem (hincreasing.imp fun hlt => ne_of_lt hlt) hchecked

/-- Two available titles. -/
def twoTitles : Db where
  media := [1, 2].map fun id => { id, status := MediaStatus.available }

/-- What is left when the check of the first title is over. -/
def firstDeleted : Db := twoTitles.setMediaStatus "" 1 false MediaStatus.deleted

/-- The check of the first title takes it out of the filter, and the second is checked. -/
theorem checked_once_second :
    ∃ s : State, s.phase = .ended ∧ (s.checked.map (·.1.id)).count 2 = 1 := by
  have hrun : Run (Guarded Step fun s _ => s.Keeps 2) { db := twoTitles }
      [.ask, .read, .check fun _ => firstDeleted, .check id, .turn, .ask]
      { db := firstDeleted, after := 2, phase := .ended
        checked := twoTitles.media.map loaded } := by
    refine .cons ⟨?_, rfl⟩ (.cons ⟨?_, rfl⟩ (.cons ⟨?_, rfl⟩ (.cons ⟨?_, rfl⟩ (.cons ⟨?_, rfl⟩
      (.cons ⟨?_, rfl⟩ (.nil _))))))
    all_goals exact ⟨fun _ => by decide, fun _ _ _ => by decide⟩
  exact ⟨_, rfl, checked_once (by decide) hrun rfl⟩

end Runs

end AvailabilityPages

end Foreseerr

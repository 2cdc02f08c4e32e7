import Foreseerr.Database

/-!
# What removing a request does to its title

`after_remove` of `lifecycle.rs` is the subscriber's `afterRemove`: it reads
the title and the requests that remain and returns the statements its caller
runs in the transaction of the delete. The title's status falls back where no
active request holds it, and seasons only the removed request asked for go
back to unknown.

The statements are data here, as they are in the source, with what a database
does on running them (`Write.run`). The seasons' statements write the removed
request's quality only. The title's statement falls back in *both* qualities,
whatever put the statuses there, so the frame holds under a condition on the
other quality and on the blocklist, which is given exactly.
-/

namespace Foreseerr

/-! ## Statements -/

/-- The statements `after_remove` returns. -/
inductive Write
  /-- `UPDATE "media" SET "status" = COALESCE(?1, "status"), "status4k" =
  COALESCE(?2, "status4k"), "updatedAt" = CURRENT_TIMESTAMP WHERE "id" = ?3`. -/
  | media (status status4k : Option Int) (id : Int)
  /-- `UPDATE "season" SET "{column}" = ?1, "updatedAt" = CURRENT_TIMESTAMP
  WHERE "id" = ?2`, in the column of a quality. -/
  | season (fourK : Bool) (status id : Int)
deriving DecidableEq, Repr

/-- A statement on a title's row and its seasons; `now` is
`CURRENT_TIMESTAMP`. -/
def Write.onRow (now : String) (media : MediaRow) : Write → MediaRow
  | .media status status4k id =>
    if media.id = id then
      { media with
        status := status.getD media.status
        status4k := status4k.getD media.status4k
        updatedAt := some now }
    else media
  | .season fourK status id =>
    { media with
      seasons := media.seasons.map fun season =>
        if season.id = id then
          { season.setStatus fourK status with updatedAt := some now }
        else season }

/-- A statement on the database. -/
def Write.run (now : String) (db : Db) (write : Write) : Db :=
  { db with media := db.media.map fun media => write.onRow now media }

/-- The statements of a transaction, in order. -/
def runWrites (now : String) (db : Db) (writes : List Write) : Db :=
  writes.foldl (Write.run now) db

/-- The statements of a transaction on one title's row. -/
def writesOnRow (now : String) (media : MediaRow) (writes : List Write) : MediaRow :=
  writes.foldl (Write.onRow now) media

@[simp] theorem writesOnRow_id (now : String) (media : MediaRow) (writes : List Write) :
    (writesOnRow now media writes).id = media.id := by
  induction writes generalizing media with
  | nil => rfl
  | cons write writes ih =>
    refine (ih (write.onRow now media)).trans ?_
    cases write with
    | media status status4k id =>
      unfold Write.onRow
      dsimp only
      split <;> rfl
    | season => rfl

/-- Running statements on the database runs them on every row. -/
theorem runWrites_media (now : String) (db : Db) (writes : List Write) :
    (runWrites now db writes).media = db.media.map fun m => writesOnRow now m writes := by
  induction writes generalizing db with
  | nil => simp [runWrites, writesOnRow]
  | cons write writes ih =>
    have hstep : runWrites now db (write :: writes)
        = runWrites now (write.run now db) writes := rfl
    rw [hstep, ih (write.run now db)]
    simp [Write.run, writesOnRow, Function.comp_def]

/-- The title's row after a transaction is its row with the statements run
on it. -/
theorem mediaById_runWrites (now : String) (db : Db) (writes : List Write) (id : Int) :
    (runWrites now db writes).mediaById id
      = (db.mediaById id).map fun m => writesOnRow now m writes := by
  unfold Db.mediaById
  rw [runWrites_media, List.find?_map]
  congr 2
  funext m
  exact congrArg (· == id) (writesOnRow_id now m writes)

/-! ## The hook -/

/-- Whether an active request of a quality remains. -/
def hasActive (requests : List RequestRow) (fourK : Bool) : Bool :=
  requests.any fun r => r.is4k == fourK && r.active

/-- What a quality falls back to when nothing active holds it. -/
def fallbackStatus (requests : List RequestRow) (fourK : Bool) : Int :=
  let hadCompleted := requests.any fun r => r.is4k == fourK && r.status == RequestStatus.completed
  if hadCompleted then MediaStatus.deleted else MediaStatus.unknown

/-- `fallback`: the status a quality falls back to, `none` where an active
request or something on the server holds it. -/
def fallback (requests : List RequestRow) (fourK : Bool) (current : Int) : Option Int :=
  if hasActive requests fourK || current == MediaStatus.available
      || current == MediaStatus.partially then
    none
  else
    some (fallbackStatus requests fourK)

/-- The statement for the title's statuses, when one of them changes. -/
def mediaWrites (media : MediaRow) (requests : List RequestRow) : List Write :=
  let status := (fallback requests false media.status).filter (· ≠ media.status)
  let status4k := (fallback requests true media.status4k).filter (· ≠ media.status4k)
  if status.isSome || status4k.isSome then [.media status status4k media.id] else []

/-- The statements for the seasons only the removed request asked for. -/
def seasonWrites (media : MediaRow) (requests : List RequestRow) (row : RequestRow) :
    List Write :=
  if media.mediaType = "tv" then
    let numbers := row.seasonNumbers
    let stillActive : List Int :=
      (requests.filter fun r => r.is4k == row.is4k && r.active).flatMap (·.seasonNumbers)
    media.seasons.filterMap fun season =>
      let current := season.statusOf row.is4k
      if season.seasonNumber ∈ numbers ∧ season.seasonNumber ∉ stillActive
          ∧ (current = MediaStatus.pending ∨ current = MediaStatus.processing) then
        some (.season row.is4k MediaStatus.unknown season.id)
      else
        none
  else
    []

/-- The requests that remain when a request is removed with others. -/
def remaining (db : Db) (mediaId : Int) (row : RequestRow) (removed : List Int) :
    List RequestRow :=
  (db.requestsOfMedia mediaId).filter fun r => r.id ≠ row.id ∧ r.id ∉ removed

/-- `after_remove`: the statements to run with the delete of a request. -/
def afterRemove (db : Db) (row : RequestRow) (removed : List Int) :
    Except String (List Write) :=
  match row.mediaId with
  | none => .error "Media data not found"
  | some mediaId =>
    match db.mediaById mediaId with
    | none => .error "Media data not found"
    | some media =>
      let requests := remaining db mediaId row removed
      .ok (mediaWrites media requests ++ seasonWrites media requests row)

/-! ## What the statements leave -/

section Effects

variable (now : String) (media : MediaRow) (requests : List RequestRow) (row : RequestRow)

/-- The seasons' statements write no column but one quality's of the seasons. -/
theorem writesOnRow_seasons {fourK : Bool} {writes : List Write}
    (h : ∀ w ∈ writes, ∃ status id, w = .season fourK status id) :
    (∀ q, (writesOnRow now media writes).statusOf q = media.statusOf q)
      ∧ (writesOnRow now media writes).seasons.map (·.statusOf (!fourK))
        = media.seasons.map (·.statusOf (!fourK)) := by
  induction writes generalizing media with
  | nil => exact ⟨fun _ => rfl, rfl⟩
  | cons w writes ih =>
    obtain ⟨status, id, rfl⟩ := h w List.mem_cons_self
    obtain ⟨hstatus, hseasons⟩ := ih ((Write.season fourK status id).onRow now media)
      fun w hw => h w (List.mem_cons_of_mem _ hw)
    refine ⟨fun q => (hstatus q).trans (by cases q <;> rfl), hseasons.trans ?_⟩
    simp only [Write.onRow, List.map_map, List.map_inj_left, Function.comp_apply]
    intro season _
    by_cases hid : season.id = id
    · rw [if_pos hid]
      exact season.statusOf_setStatus_not fourK status
    · rw [if_neg hid]

theorem seasonWrites_season :
    ∀ w ∈ seasonWrites media requests row, ∃ status id, w = .season row.is4k status id := by
  intro w hw
  unfold seasonWrites at hw
  split at hw
  · obtain ⟨season, -, hseason⟩ := List.mem_filterMap.mp hw
    dsimp only at hseason
    split at hseason
    · exact ⟨_, _, (Option.some.inj hseason).symm⟩
    · cases hseason
  · cases hw

/-- Writing a fallback only where it differs comes to writing it. -/
theorem getD_filter_ne (fallback : Option Int) (current : Int) :
    (fallback.filter (· ≠ current)).getD current = fallback.getD current := by
  cases fallback with
  | none => rfl
  | some status =>
    by_cases h : status = current <;> simp [Option.filter, h]

/-- **The title falls back in both qualities**, whichever the removed request
was of; its seasons stay. -/
theorem writesOnRow_mediaWrites :
    (∀ q, (writesOnRow now media (mediaWrites media requests)).statusOf q
        = (fallback requests q (media.statusOf q)).getD (media.statusOf q))
      ∧ (writesOnRow now media (mediaWrites media requests)).seasons = media.seasons := by
  have hstd := getD_filter_ne (fallback requests false media.status) media.status
  have h4k := getD_filter_ne (fallback requests true media.status4k) media.status4k
  unfold mediaWrites
  by_cases hw : ((fallback requests false media.status).filter (· ≠ media.status)).isSome
      || ((fallback requests true media.status4k).filter (· ≠ media.status4k)).isSome
  · simp only [if_pos hw, writesOnRow, List.foldl_cons, List.foldl_nil, Write.onRow, if_true,
      and_true]
    intro q
    cases q with
    | false => exact hstd
    | true => exact h4k
  · simp only [if_neg hw]
    simp only [Bool.or_eq_true, not_or, Option.not_isSome_iff_eq_none] at hw
    rw [hw.1] at hstd
    rw [hw.2] at h4k
    refine ⟨fun q => ?_, rfl⟩
    cases q with
    | false => exact hstd
    | true => exact h4k

theorem writesOnRow_append (writes writes' : List Write) :
    writesOnRow now media (writes ++ writes')
      = writesOnRow now (writesOnRow now media writes) writes' :=
  List.foldl_append

/-- What the title's row holds after the hook's statements. -/
theorem afterRemove_spec {media : MediaRow} {row : RequestRow} {db : Db} {removed : List Int} {mediaId : Int} {writes : List Write}
    (hid : row.mediaId = some mediaId) (hmedia : db.mediaById mediaId = some media)
    (h : afterRemove db row removed = .ok writes) :
    (∀ q, (writesOnRow now media writes).statusOf q
        = (fallback (remaining db mediaId row removed) q (media.statusOf q)).getD
            (media.statusOf q))
      ∧ (writesOnRow now media writes).seasons.map (·.statusOf (!row.is4k))
        = media.seasons.map (·.statusOf (!row.is4k)) := by
  simp only [afterRemove, hid, hmedia, Except.ok.injEq] at h
  subst h
  let requests := remaining db mediaId row removed
  obtain ⟨hstatus, hrow⟩ := writesOnRow_mediaWrites now media requests
  obtain ⟨hkept, hseasons⟩ := writesOnRow_seasons now
    (writesOnRow now media (mediaWrites media requests))
    (seasonWrites_season media requests row)
  rw [writesOnRow_append]
  exact ⟨fun q => (hkept q).trans (hstatus q), hseasons.trans (by rw [hrow])⟩

end Effects

/-! ## The frame of a removal -/

/-- **A removal keeps to its quality**: what the title's row `after` the
statements keeps of the row `before` them. -/
structure KeepsToQuality (before after : MediaRow) (requests : List RequestRow)
    (fourK : Bool) : Prop where
  /-- The other quality's status stays. -/
  otherStatus : after.statusOf (!fourK) = before.statusOf (!fourK)
  /-- The other quality's season statuses stay. -/
  otherSeasons : after.seasons.map (·.statusOf (!fourK))
    = before.seasons.map (·.statusOf (!fourK))
  /-- A blocklisted status stays. -/
  blocklisted : ∀ q, before.statusOf q = MediaStatus.blocklisted →
    after.statusOf q = MediaStatus.blocklisted
  /-- The own status changes only to its fallback, when nothing active of the
  quality remains. -/
  ownStatus : after.statusOf fourK ≠ before.statusOf fourK →
    hasActive requests fourK = false
      ∧ after.statusOf fourK = fallbackStatus requests fourK

/-- When the fallback of a quality leaves its status alone. -/
def FallbackIdle (requests : List RequestRow) (fourK : Bool) (current : Int) : Prop :=
  hasActive requests fourK = true ∨ current = MediaStatus.available
    ∨ current = MediaStatus.partially ∨ current = fallbackStatus requests fourK

theorem fallback_getD_eq_iff {requests : List RequestRow} {fourK : Bool} {current : Int} :
    (fallback requests fourK current).getD current = current
      ↔ FallbackIdle requests fourK current := by
  unfold fallback FallbackIdle
  by_cases hheld : hasActive requests fourK || current == MediaStatus.available
      || current == MediaStatus.partially
  · rw [if_pos hheld]
    simp only [Bool.or_eq_true, beq_iff_eq] at hheld
    simp only [Option.getD_none, true_iff]
    tauto
  · rw [if_neg hheld]
    simp only [Bool.or_eq_true, beq_iff_eq, not_or] at hheld
    simp only [Option.getD_some, eq_comm (a := fallbackStatus requests fourK)]
    tauto

/-- A status that falls back does so when nothing active of its quality
remains, and to the quality's fallback. -/
theorem fallback_getD_of_ne {requests : List RequestRow} {fourK : Bool} {current : Int}
    (h : (fallback requests fourK current).getD current ≠ current) :
    hasActive requests fourK = false
      ∧ (fallback requests fourK current).getD current = fallbackStatus requests fourK := by
  unfold fallback at *
  split at h
  · exact absurd rfl h
  · next hheld =>
    rw [if_neg hheld]
    simp only [Bool.or_eq_true, not_or, Bool.not_eq_true] at hheld
    exact ⟨hheld.1.1, rfl⟩

/-- No fallback is the blocklist. -/
theorem fallbackStatus_ne_blocklisted (requests : List RequestRow) (fourK : Bool) :
    fallbackStatus requests fourK ≠ MediaStatus.blocklisted := by
  unfold fallbackStatus
  dsimp only
  split <;> decide

/-- **When a removal keeps to its quality.** The statements `after_remove`
returns keep to the removed request's quality exactly when the other quality
has nothing to fall back from – an active request, something on the server or
the fallback itself already – and a blocklisted title is held by an active
request of the removed one's quality. -/
theorem afterRemove_keepsToQuality_iff {db : Db} {row : RequestRow} {removed : List Int}
    {mediaId : Int} {media after : MediaRow} {writes : List Write} (now : String)
    (hid : row.mediaId = some mediaId) (hmedia : db.mediaById mediaId = some media)
    (h : afterRemove db row removed = .ok writes)
    (hafter : (runWrites now db writes).mediaById mediaId = some after) :
    KeepsToQuality media after (remaining db mediaId row removed) row.is4k
      ↔ FallbackIdle (remaining db mediaId row removed) (!row.is4k)
            (media.statusOf (!row.is4k))
        ∧ (media.statusOf row.is4k = MediaStatus.blocklisted →
            hasActive (remaining db mediaId row removed) row.is4k = true) := by
  rw [mediaById_runWrites, hmedia] at hafter
  obtain rfl : writesOnRow now media writes = after := Option.some.inj hafter
  obtain ⟨hstatus, hseasons⟩ := afterRemove_spec now hid hmedia h
  constructor
  · intro hkeeps
    refine ⟨fallback_getD_eq_iff.mp ((hstatus _).symm.trans hkeeps.otherStatus), fun hblock => ?_⟩
    have hown := (hstatus row.is4k).symm.trans (hkeeps.blocklisted _ hblock)
    rw [hblock] at hown
    rcases fallback_getD_eq_iff.mp hown with hactive | hother | hother | hother
    · exact hactive
    · exact absurd hother (by decide)
    · exact absurd hother (by decide)
    · exact absurd hother.symm (fallbackStatus_ne_blocklisted _ _)
  · rintro ⟨hidle, hblock⟩
    have hother := (hstatus _).trans (fallback_getD_eq_iff.mpr hidle)
    refine ⟨hother, hseasons, fun q hq => ?_, fun hne => ?_⟩
    · by_cases hown : q = row.is4k
      · subst hown
        rw [hstatus, hq]
        exact fallback_getD_eq_iff.mpr (.inl (hblock hq))
      · obtain rfl : q = !row.is4k := Bool.eq_not_of_ne hown
        exact hother.trans hq
    · rw [hstatus] at hne ⊢
      exact fallback_getD_of_ne hne

/-- A title available in 4K loses its only standard request. -/
theorem afterRemove_keepsToQuality_of_available :
    KeepsToQuality { id := 1, status := 2, status4k := 5 }
      { id := 1, status := 1, status4k := 5, updatedAt := some "now" } [] false :=
  have hafter : afterRemove { media := [{ id := 1, status := 2, status4k := 5 }] }
      { id := 7, mediaId := some 1 } [7] = .ok [.media (some 1) none 1] := rfl
  (afterRemove_keepsToQuality_iff "now" rfl rfl hafter rfl).mpr
    ⟨.inr (.inl rfl), by decide⟩

/-- Removing the last standard request of a title that a scan found
processing in 4K puts its 4K status back to unknown. -/
theorem afterRemove_touches_other_quality :
    ¬ ∀ (db : Db) (row : RequestRow) (removed : List Int) (mediaId : Int) (media : MediaRow)
        (after : MediaRow) (writes : List Write) (now : String),
      row.mediaId = some mediaId → db.mediaById mediaId = some media →
      afterRemove db row removed = .ok writes →
      (runWrites now db writes).mediaById mediaId = some after →
      KeepsToQuality media after (remaining db mediaId row removed) row.is4k := by
  intro h
  have hcase := h { media := [{ id := 1, status := 2, status4k := 3 }] }
    { id := 7, mediaId := some 1 } [7] 1 _ _ _ "now" rfl rfl rfl rfl
  exact absurd hcase.otherStatus (by decide)

end Foreseerr

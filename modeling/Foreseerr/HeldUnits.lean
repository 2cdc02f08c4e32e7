import Foreseerr.DateForms
import Foreseerr.RequestQuota
import Mathlib.Data.List.TakeWhile

/-!
# The units an edit holds

An edit of a pending request may use the units the quota counts the request
for on top of what remains. The quota counts in SQL (`tv_quota_used`), an edit
by what it loaded (`held_units`), and both ask whether the request was created
after the window's start.

They ask it of different things. On SQLite the sum compares the column's text,
with a space after its date, with an ISO text, with a `T` there: of the
requests of the start's own day it counts none, while an edit holds those
created after the start. On Postgres the column has microseconds and an edit
reads it cut to milliseconds. Everywhere else the two agree.
-/

namespace Foreseerr

/-! ## The column -/

/-- `CURRENT_TIMESTAMP` on SQLite, at a second: `YYYY-MM-DD HH:MM:SS`. -/
def currentTimestamp (second : Int) : String :=
  let t := Utc.fromUnixMillis (1000 * second)
  zeroPadded 4 t.year ++ "-" ++ zeroPadded 2 t.month ++ "-" ++ zeroPadded 2 t.day ++ " "
    ++ zeroPadded 2 t.hour ++ ":" ++ zeroPadded 2 t.minute ++ ":" ++ zeroPadded 2 t.second

/-- Digits and separators, of a length. -/
def areFields (len : Nat) (separator : Char) (text : List Char) : Bool :=
  text.length = len && text.all fun c => c.isDigit || c = separator

/-- The time of `sqlite_datetime_to_iso`: seconds and milliseconds may be left
out. -/
def sqliteTime (time : List Char) : Option (List Char × List Char) :=
  let clock := time.takeWhile (· ≠ '.')
  let millis := (time.dropWhile (· ≠ '.')).tail?.getD ['0', '0', '0']
  if !areFields 3 '.' millis then none
  else if areFields 5 ':' clock then some (clock ++ [':', '0', '0'], millis)
  else if areFields 8 ':' clock then some (clock, millis)
  else none

/-- `sqlite_datetime_to_iso`: a column's text as ISO 8601 with milliseconds. -/
def sqliteDatetimeToIso (text : List Char) : Option (List Char) := do
  let date := text.takeWhile fun c => c ≠ ' ' && c ≠ 'T'
  let time ← (text.dropWhile fun c => c ≠ ' ' && c ≠ 'T').tail?
  if !areFields 10 '-' date then none
  else
    let (clock, millis) ← sqliteTime time
    some (date ++ 'T' :: (clock ++ '.' :: (millis ++ ['Z'])))

/-- A creation date as the request is loaded (`date_column`): on Postgres
`to_char` cuts the column's microseconds. -/
def loadedCreatedAt (dialect : Dialect) (micros : String → Int) (createdAt : String) :
    Option (List Char) :=
  match dialect with
  | .sqlite => sqliteDatetimeToIso createdAt.toList
  | .postgres => some (iso (micros createdAt / 1000)).toList

/-- The comparisons of `tv_quota_used` and `held_units` on a database. A
Postgres column stands for the microseconds `micros` reads. -/
def databaseClock (dialect : Dialect) (micros : String → Int) (clock : QuotaClock) : QuotaClock :=
  { clock with
    tvCounted := fun start createdAt => createdAt.any fun t =>
      match dialect with
      | .sqlite => decide (iso start < t)
      | .postgres => decide (1000 * start < micros t)
    heldCounted := fun start createdAt =>
      ((createdAt.bind (loadedCreatedAt dialect micros)).bind parseDateMillis).any (start < ·) }

/-- A request was created at a moment, in microseconds: what the column
holds. -/
def CreatedAt (dialect : Dialect) (micros : String → Int) (createdAt : Option String) (us : Int) :
    Prop :=
  FourDigit (us / 1000) ∧ match dialect with
    | .sqlite => ∃ second, us = 1000000 * second ∧ createdAt = some (currentTimestamp second)
    | .postgres => ∃ t, createdAt = some t ∧ micros t = us

/-! ## Reading it -/

theorem toList_currentTimestamp (second : Int) : (currentTimestamp second).toList
    = dateText (Utc.fromUnixMillis (1000 * second))
      ++ ' ' :: clockText (Utc.fromUnixMillis (1000 * second)) := by
  simp [currentTimestamp, dateText, clockText]

theorem areFields_dateText {ms : Int} (h : FourDigit ms) :
    areFields 10 '-' (dateText (Utc.fromUnixMillis ms)) = true := by
  obtain ⟨hyear, hyear'⟩ := h.year
  have hmonth := fromUnixMillis_month ms
  have hday := fromUnixMillis_day ms
  have hdigits : ∀ {width : Nat} {n : Int}, 0 ≤ n → ∀ c ∈ (zeroPadded width n).toList,
      c.isDigit = true ∨ c = '-' := fun hn c hc => .inl (isDigit_zeroPadded _ hn c hc)
  unfold areFields dateText
  rw [Bool.and_eq_true, decide_eq_true_iff, List.all_eq_true]
  constructor
  · simp only [List.length_append, List.length_cons]
    rw [length_zeroPadded (by decide) hyear hyear', length_zeroPadded (by decide) (by omega)
      (by omega), length_zeroPadded (by decide) (by omega) (by omega)]
  · intro c hc
    simp only [List.mem_append, List.mem_cons] at hc
    rw [Bool.or_eq_true, decide_eq_true_iff]
    rcases hc with hc | rfl | hc | rfl | hc
    · exact hdigits hyear c hc
    · exact .inr rfl
    · exact hdigits (Int.natCast_nonneg _) c hc
    · exact .inr rfl
    · exact hdigits (Int.natCast_nonneg _) c hc

theorem areFields_clockText (ms : Int) :
    areFields 8 ':' (clockText (Utc.fromUnixMillis ms)) = true := by
  obtain ⟨hhour, hminute, hsecond, -⟩ := fromUnixMillis_time ms
  have hdigits : ∀ {width n : Nat}, ∀ c ∈ (zeroPadded width n).toList,
      c.isDigit = true ∨ c = ':' :=
    fun c hc => .inl (isDigit_zeroPadded _ (Int.natCast_nonneg _) c hc)
  unfold areFields clockText
  rw [Bool.and_eq_true, decide_eq_true_iff, List.all_eq_true]
  constructor
  · simp only [List.length_append, List.length_cons]
    rw [length_zeroPadded (by decide) (by omega) (by omega), length_zeroPadded (by decide)
      (by omega) (by omega), length_zeroPadded (by decide) (by omega) (by omega)]
  · intro c hc
    simp only [List.mem_append, List.mem_cons] at hc
    rw [Bool.or_eq_true, decide_eq_true_iff]
    rcases hc with hc | rfl | hc | rfl | hc
    · exact hdigits c hc
    · exact .inr rfl
    · exact hdigits c hc
    · exact .inr rfl
    · exact hdigits c hc

/-- A time without milliseconds is read with none. -/
theorem sqliteTime_clockText (ms : Int) : sqliteTime (clockText (Utc.fromUnixMillis ms))
    = some (clockText (Utc.fromUnixMillis ms), ['0', '0', '0']) := by
  have hfields := areFields_clockText ms
  have hdot : ∀ c ∈ clockText (Utc.fromUnixMillis ms), decide (c ≠ '.') = true := by
    have hall := hfields
    unfold areFields at hall
    rw [Bool.and_eq_true, List.all_eq_true] at hall
    intro c hc
    refine decide_eq_true ?_
    rintro rfl
    exact absurd (hall.2 _ hc) (by decide)
  have hlength : (clockText (Utc.fromUnixMillis ms)).length = 8 := by
    unfold areFields at hfields
    rw [Bool.and_eq_true, decide_eq_true_iff] at hfields
    exact hfields.1
  have hshort : areFields 5 ':' (clockText (Utc.fromUnixMillis ms)) = false := by
    unfold areFields
    rw [hlength]
    rfl
  unfold sqliteTime
  rw [List.takeWhile_eq_self_iff.2 hdot, List.dropWhile_eq_nil_iff.2 hdot]
  dsimp only [List.tail?_nil, Option.getD_none]
  rw [hfields, hshort]
  rfl

/-- **A text of `CURRENT_TIMESTAMP` is loaded as the ISO text of its moment.** -/
theorem sqliteDatetimeToIso_currentTimestamp {second : Int} (h : FourDigit (1000 * second)) :
    sqliteDatetimeToIso (currentTimestamp second).toList = some (iso (1000 * second)).toList := by
  have hbefore : ∀ c ∈ dateText (Utc.fromUnixMillis (1000 * second)),
      (decide (c ≠ ' ') && decide (c ≠ 'T')) = true := by
    intro c hc
    rw [Bool.and_eq_true, decide_eq_true_iff, decide_eq_true_iff]
    exact ⟨fun heq => not_mem_dateText h (by decide) (by decide) (heq ▸ hc),
      fun heq => not_mem_dateText h (by decide) (by decide) (heq ▸ hc)⟩
  have hmillis : (Utc.fromUnixMillis (1000 * second)).millis = 0 := by
    simp only [Utc.fromUnixMillis]
    omega
  unfold sqliteDatetimeToIso iso
  rw [toList_currentTimestamp, toList_isoString, List.takeWhile_append_of_pos hbefore,
    List.dropWhile_append_of_pos hbefore, List.takeWhile_cons_of_neg (by decide),
    List.dropWhile_cons_of_neg (by decide), List.append_nil, hmillis]
  dsimp only [List.tail?_cons]
  simp only [Option.bind_eq_bind, Option.bind_some, areFields_dateText h, sqliteTime_clockText,
    Bool.not_true, Bool.false_eq_true, if_false]
  rw [List.append_assoc]
  rfl

variable {dialect : Dialect} {micros : String → Int} {clock : QuotaClock}
  {createdAt : Option String} {us start : Int}

/-- **A loaded creation date is the moment in milliseconds.** -/
theorem heldCounted_eq (h : CreatedAt dialect micros createdAt us) :
    (databaseClock dialect micros clock).heldCounted start createdAt
      = decide (start < us / 1000) := by
  obtain ⟨hfour, hcolumn⟩ := h
  have hloaded : (createdAt.bind (loadedCreatedAt dialect micros)).bind parseDateMillis
      = some (us / 1000) := by
    cases dialect with
    | sqlite =>
      obtain ⟨second, rfl, rfl⟩ := hcolumn
      have hms : 1000000 * second / 1000 = 1000 * second := by omega
      rw [hms] at hfour ⊢
      rw [Option.bind_some, loadedCreatedAt, sqliteDatetimeToIso_currentTimestamp hfour,
        Option.bind_some, parseDateMillis_iso hfour]
    | postgres =>
      obtain ⟨t, rfl, rfl⟩ := hcolumn
      rw [Option.bind_some, loadedCreatedAt, Option.bind_some, parseDateMillis_iso hfour]
  unfold databaseClock
  dsimp only
  rw [hloaded, Option.any_some]

/-! ## Where the sum and an edit part -/

/-- The text of a time before the year 0 starts with a sign, before every
digit. -/
theorem toList_zeroPadded_neg (width : Nat) {value : Int} (h : value < 0) :
    ∃ rest, (zeroPadded width value).toList = '-' :: rest := by
  unfold zeroPadded
  rw [if_pos h]
  exact ⟨_, by simp; rfl⟩

theorem fromUnixMillis_year_neg {ms : Int} (h : ms < -62167219200000) :
    (Utc.fromUnixMillis ms).year < 0 := by
  obtain ⟨year, doy, hdoy, hdoy', hdays, hyear, -, -⟩ := fromUnixMillis_eq ms
  have hfours : year / 4 = 25 * (year / 100) + year % 100 / 4 := by omega
  have heras : year / 400 = year / 100 / 4 := by omega
  rw [hyear]
  omega

/-- **The sum counts the days after the start's**: up to the year 9999, a
window's text comes before a creation date's where its day does. -/
theorem iso_lt_currentTimestamp {second : Int} (hstart : start < 253402300800000)
    (h : FourDigit (1000 * second)) : iso start < currentTimestamp second
      ↔ start / 86400000 < 1000 * second / 86400000 := by
  unfold iso
  rw [String.lt_iff, toList_isoString, toList_currentTimestamp]
  by_cases hfirst : -62167219200000 ≤ start
  · have hfour : FourDigit start := ⟨hfirst, hstart⟩
    constructor
    · intro hlt
      by_contra hnot
      rcases Int.lt_or_eq_of_le (not_lt.1 hnot) with hafter | hsame
      · exact List.lt_asymm hlt (dateText_lt h hfour hafter _ _)
      · -- On one day the space comes before the `T`.
        rw [dateText_eq hsame] at hlt
        refine List.lt_asymm hlt (List.append_left_lt ?_)
        exact List.cons_lt_cons_iff.2 (.inl (by decide))
    · exact fun hlt => dateText_lt hfour h hlt _ _
  · -- A sign comes before every digit.
    obtain ⟨rest, hrest⟩ := toList_zeroPadded_neg 4 (fromUnixMillis_year_neg (not_le.1 hfirst))
    obtain ⟨c, digits, hdigits⟩ : ∃ c digits,
        (zeroPadded 4 (Utc.fromUnixMillis (1000 * second)).year).toList = c :: digits := by
      refine List.exists_cons_of_ne_nil fun hnil => ?_
      have hlength := length_zeroPadded (show 0 < 4 by decide) h.year.1 h.year.2
      rw [hnil] at hlength
      cases hlength
    have hc := digit_bounds (isDigit_zeroPadded 4 h.year.1 c (hdigits ▸ List.mem_cons_self))
    refine iff_of_true ?_ (by have := h.1; omega)
    unfold dateText
    rw [hrest, hdigits]
    refine List.cons_lt_cons_iff.2 (.inl ?_)
    show ('-').toNat < c.toNat
    exact lt_of_lt_of_le (by decide) hc.1

/-- **Where the sum and an edit disagree** on a request created at a moment. On
SQLite, one created on the UTC day the window starts on, after the start, or
before a window that starts after the year 9999 with an earlier text; on
Postgres, one created in the start's own millisecond, after it. -/
def Parted (dialect : Dialect) (start : Int) (createdAt : Option String) (us : Int) : Prop :=
  match dialect with
  | .sqlite => start / 86400000 = us / 86400000000 ∧ 1000 * start < us
      ∨ 253402300800000 ≤ start ∧ createdAt.any (iso start < ·) = true
  | .postgres => start = us / 1000 ∧ 1000 * start < us

/-- **The sum counts what an edit holds, but for the parted.** -/
theorem tvCounted_eq_heldCounted_iff (clock : QuotaClock) (start : Int)
    (h : CreatedAt dialect micros createdAt us) :
    (databaseClock dialect micros clock).tvCounted start createdAt
        = (databaseClock dialect micros clock).heldCounted start createdAt
      ↔ ¬ Parted dialect start createdAt us := by
  rw [heldCounted_eq h]
  obtain ⟨hfour, hcolumn⟩ := h
  cases dialect with
  | sqlite =>
    obtain ⟨second, rfl, rfl⟩ := hcolumn
    have hms : 1000000 * second / 1000 = 1000 * second := by omega
    rw [hms] at hfour ⊢
    have hcounted : (databaseClock .sqlite micros clock).tvCounted start
        (some (currentTimestamp second)) = decide (iso start < currentTimestamp second) := by
      simp only [databaseClock, Option.any_some]
    rw [hcounted, decide_eq_decide]
    unfold Parted
    rw [Option.any_some, decide_eq_true_iff]
    by_cases hstart : start < 253402300800000
    · rw [iso_lt_currentTimestamp hstart hfour]
      omega
    · obtain ⟨-, hlast⟩ := hfour
      by_cases htext : iso start < currentTimestamp second
      · rw [iff_true_left htext]
        exact iff_of_false (by omega) fun hnot => hnot (.inr ⟨not_lt.1 hstart, htext⟩)
      · rw [iff_false_left htext]
        refine iff_of_true (by omega) ?_
        rintro (⟨hday, hafter⟩ | ⟨-, hlt⟩)
        · omega
        · exact htext hlt
  | postgres =>
    obtain ⟨t, rfl, rfl⟩ := hcolumn
    have hcounted : (databaseClock .postgres micros clock).tvCounted start (some t)
        = decide (1000 * start < micros t) := by
      simp only [databaseClock, Option.any_some]
    rw [hcounted, decide_eq_decide]
    unfold Parted
    dsimp only
    omega

/-! ## The units -/

/-- The table with a request taken out. -/
def Db.without (db : Db) (before after : List RequestRow) : Db :=
  { db with requests := before ++ after }

/-- The units the quota of a window counts a request for. -/
def RequestRow.countedUnits (r : RequestRow) (clock : QuotaClock) (user : Int)
    (window : Option Int) : Nat :=
  if r.charges "tv" user && window.all fun start => clock.tvCounted start r.createdAt then
    r.tvQuotaUnits
  else 0

/-- A request taken out of the table takes what it counts for out of the
sum. -/
theorem tvQuotaUsed_without {db : Db} {before after : List RequestRow} {r : RequestRow}
    (h : db.requests = before ++ r :: after) (clock : QuotaClock) (user : Int)
    (window : Option Int) : db.tvQuotaUsed clock user window
      = (db.without before after).tvQuotaUsed clock user window
        + r.countedUnits clock user window := by
  unfold Db.tvQuotaUsed Db.without RequestRow.countedUnits
  rw [h]
  simp only [List.map_append, List.map_cons, List.sum_append, List.sum_cons]
  omega

/-- **An edit gets back what its request was counted for**: for one that keeps
its owner, the sum with the request in the table less the sum with it taken
out; for one that moves it, nothing. -/
structure HeldExactly (clock : QuotaClock) (settings : Settings) (user : UserRecord) (db : Db)
    (before after : List RequestRow) (r : RequestRow) : Prop where
  kept : (tvQuota settings clock db user).heldUnits clock false r.createdAt r.tvQuotaUnits
    = (db.tvQuotaUsed clock user.id (tvQuota settings clock db user).windowStart : Int)
      - (db.without before after).tvQuotaUsed clock user.id
          (tvQuota settings clock db user).windowStart
  moved : ∀ other, (tvQuota settings clock db other).heldUnits clock true r.createdAt
    r.tvQuotaUnits = 0

theorem heldUnits_false (quota : Quota) (clock : QuotaClock) (createdAt : Option String)
    (units : Nat) : quota.heldUnits clock false createdAt units
      = if quota.windowStart.all fun start => clock.heldCounted start createdAt then (units : Int)
        else 0 := by
  simp only [Quota.heldUnits, Bool.not_false, Bool.true_and]

variable {settings : Settings} {user : UserRecord} {db : Db} {before after : List RequestRow}
  {r : RequestRow}

/-- **An edit gets back exactly the units its request was counted for** if and
only if the request has none, or there is no window, or the sum and an edit do
not part on the request. -/
theorem held_units_exact_iff (hdb : db.requests = before ++ r :: after)
    (htv : r.requestType = "tv") (howner : r.requestedById = some user.id)
    (hpending : r.status = RequestStatus.pending) (hcharged : r.ignoreQuota = false)
    (hcreated : CreatedAt dialect micros r.createdAt us) :
    HeldExactly (databaseClock dialect micros clock) settings user db before after r
      ↔ r.tvQuotaUnits = 0
        ∨ ∀ start, windowOf clock (user.tvQuotaDays.or settings.tvQuotaDays) = some start →
          ¬ Parted dialect start r.createdAt us := by
  have hcharges : r.charges "tv" user.id = true := by
    simp [RequestRow.charges, htv, howner, hpending, hcharged]
  have hwindow : (tvQuota settings (databaseClock dialect micros clock) db user).windowStart
      = windowOf clock (user.tvQuotaDays.or settings.tvQuotaDays) := rfl
  have hkept : HeldExactly (databaseClock dialect micros clock) settings user db before after r
      ↔ (tvQuota settings (databaseClock dialect micros clock) db user).heldUnits
          (databaseClock dialect micros clock) false r.createdAt r.tvQuotaUnits
        = (r.countedUnits (databaseClock dialect micros clock) user.id
          (windowOf clock (user.tvQuotaDays.or settings.tvQuotaDays)) : Int) := by
    have hsum := tvQuotaUsed_without hdb (databaseClock dialect micros clock) user.id
      (windowOf clock (user.tvQuotaDays.or settings.tvQuotaDays))
    constructor
    · rintro ⟨hkept, -⟩
      rw [hkept, hwindow]
      omega
    · refine fun hkept => ⟨?_, fun other => rfl⟩
      rw [hkept, hwindow]
      omega
  rw [hkept, heldUnits_false, hwindow]
  unfold RequestRow.countedUnits
  rw [hcharges, Bool.true_and]
  cases hdays : windowOf clock (user.tvQuotaDays.or settings.tvQuotaDays) with
  | none => exact iff_of_true rfl (.inr (by rintro _ ⟨⟩))
  | some start =>
    have hparted := tvCounted_eq_heldCounted_iff clock start hcreated
    rw [Option.all_some, Option.all_some]
    constructor
    · intro hunits
      by_cases hzero : r.tvQuotaUnits = 0
      · exact .inl hzero
      · refine .inr ?_
        rintro _ ⟨⟩
        refine hparted.1 ?_
        -- One of the two with the units and the other without them would differ.
        revert hunits
        cases (databaseClock dialect micros clock).tvCounted start r.createdAt <;>
          cases (databaseClock dialect micros clock).heldCounted start r.createdAt <;>
          simp [hzero]
        exact fun hunits => hzero (Int.natCast_eq_zero.1 hunits.symm)
    · rintro (hzero | hagree)
      · rw [hzero]
        simp
      · rw [hparted.2 (hagree start rfl)]
        split <;> rfl

/-! ### A day's quota -/

/-- User 1 may ask for two seasons in thirty days. -/
def monthlyUser : UserRecord := { id := 1, tvQuotaLimit := some 2, tvQuotaDays := some 30 }

/-- Their request of two seasons, created at a moment. -/
def createdRequest (createdAt : String) : RequestRow :=
  { requestType := "tv"
    requestedById := some 1
    status := RequestStatus.pending
    tvQuotaUnits := 2
    createdAt := some createdAt }

/-- The window starts on 2026-10-01 at noon. -/
def sinceNoon : QuotaClock :=
  databaseClock .sqlite (fun _ => 0)
    ⟨fun _ => 1790856000000, fun _ _ => true, fun _ _ => true, fun _ _ => true⟩

/-- A request of the next day is counted, and an edit gets its units back. -/
theorem held_units_next_day : HeldExactly sinceNoon { users := [] } monthlyUser
    { requests := [createdRequest "2026-10-02 09:00:00"] } [] []
    (createdRequest "2026-10-02 09:00:00") := by
  have hcreated : CreatedAt .sqlite (fun _ => 0)
      (createdRequest "2026-10-02 09:00:00").createdAt 1790931600000000 :=
    ⟨by decide, 1790931600, rfl, by decide +kernel⟩
  refine (held_units_exact_iff rfl rfl rfl rfl rfl hcreated).2 (.inr ?_)
  rintro _ ⟨⟩
  unfold Parted
  decide +kernel

/-- **A request of the window's first day**: created at six in the evening, it
counts for nothing, and an edit takes its two units on top. -/
theorem held_units_first_day :
    (tvQuota { users := [] } sinceNoon
        { requests := [createdRequest "2026-10-01 18:00:00"] } monthlyUser).remaining = some 2
      ∧ ¬ HeldExactly sinceNoon { users := [] } monthlyUser
        { requests := [createdRequest "2026-10-01 18:00:00"] } [] []
        (createdRequest "2026-10-01 18:00:00") := by
  refine ⟨by decide +kernel, fun hheld => ?_⟩
  exact absurd hheld.kept (by decide +kernel)

end Foreseerr

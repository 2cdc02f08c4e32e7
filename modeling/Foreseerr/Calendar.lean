import Foreseerr.DateForms
import Mathlib.Data.Int.ConditionallyCompleteOrder
import Mathlib.Order.Monotone.Basic
import Mathlib.Tactic.IntervalCases

/-!
# The calendar, both ways

`Utc.fromUnixMillis` splits a day into its date, and `daysFromCivil` counts the days
of a date. Here the second is undone by the first, for the dates that there are, and
the months of a year follow one another without a gap: a day lies in the month whose
first day it does not precede and whose length it does not pass.
-/

namespace Foreseerr

namespace Calendar

/-- `is_leap`. -/
def isLeap (year : Int) : Bool := (year % 4 = 0 && year % 100 ≠ 0) || year % 400 = 0

/-- `days_in`. -/
def daysIn (year : Int) (month : Nat) : Nat :=
  if month = 2 then (if isLeap year then 29 else 28)
  else if month ∈ [4, 6, 9, 11] then 30 else 31

/-- The month after a month. -/
def nextMonth (year : Int) (month : Nat) : Int × Nat :=
  if month = 12 then (year + 1, 1) else (year, month + 1)

/-- A month's length is one of four. -/
theorem daysIn_bounds (year : Int) (month : Nat) :
    28 ≤ daysIn year month ∧ daysIn year month ≤ 31 := by
  unfold daysIn
  split
  · split <;> decide
  · split <;> decide

/-! ## Years from March on -/

/-- The days before the March of a year. -/
def marchDays (year : Int) : Int := 365 * year + year / 4 - year / 100 + year / 400

theorem marchDays_succ (year : Int) :
    marchDays (year + 1) = marchDays year + 365 + (if isLeap (year + 1) then 1 else 0) := by
  have hfours : (year + 1) / 4 = year / 4 + if (year + 1) % 4 = 0 then 1 else 0 := by omega
  have hcenturies : (year + 1) / 100 = year / 100 + if (year + 1) % 100 = 0 then 1 else 0 := by
    omega
  have heras : (year + 1) / 400 = year / 400 + if (year + 1) % 400 = 0 then 1 else 0 := by omega
  have hcentury : (year + 1) % 100 = 0 → (year + 1) % 4 = 0 := by omega
  have hera : (year + 1) % 400 = 0 → (year + 1) % 100 = 0 := by omega
  have hleap : (if isLeap (year + 1) then (1 : Int) else 0)
      = (if (year + 1) % 4 = 0 then 1 else 0) - (if (year + 1) % 100 = 0 then 1 else 0)
        + (if (year + 1) % 400 = 0 then 1 else 0) := by
    by_cases h400 : (year + 1) % 400 = 0
    · simp [isLeap, h400, hera h400, hcentury (hera h400)]
    · by_cases h100 : (year + 1) % 100 = 0
      · simp [isLeap, h400, h100, hcentury h100]
      · simp [isLeap, h400, h100]
  unfold marchDays
  rw [hleap, hfours, hcenturies, heras]
  omega

theorem marchDays_strictMono : StrictMono marchDays := by
  refine strictMono_int_of_lt_succ fun year => ?_
  rw [marchDays_succ]
  split <;> omega

/-- The day of the year, from March on, of the first of a month. -/
def monthStart (month : Int) : Int :=
  (153 * (if month > 2 then month - 3 else month + 9) + 2) / 5

/-- The year a date counts to, from March on. -/
def marchYear (year month : Int) : Int := if month ≤ 2 then year - 1 else year

theorem daysFromCivil_eq (year month day : Int) : daysFromCivil year month day
    = marchDays (marchYear year month) + monthStart month + day - 1 - 719468 := by
  unfold daysFromCivil marchDays marchYear monthStart
  dsimp only
  generalize (if month ≤ 2 then year - 1 else year) = y
  generalize (153 * (if month > 2 then month - 3 else month + 9) + 2) / 5 = first
  have hfours : y / 4 = 100 * (y / 400) + y % 400 / 4 := by omega
  have hcenturies : y / 100 = 4 * (y / 400) + y % 400 / 100 := by omega
  omega

/-! ## The date of a day -/

/-- The month of a day of the year: those from its first day to the next month's. -/
theorem month_of_day {mp day : Nat} (hday : 0 < day)
    (hday' : day ≤ (153 * (mp + 1) + 2) / 5 - (153 * mp + 2) / 5) :
    (5 * (((153 * mp + 2) / 5 : Nat) + (day : Int) - 1) + 2) / 153 = mp := by
  omega

/-- A month's place in the year that starts with March. -/
def marchMonth (month : Nat) : Nat := if month > 2 then month - 3 else month + 9

/-- A month has no more days than there are up to the next one. -/
theorem daysIn_le (year : Int) {month : Nat} (hfirst : 0 < month) (hlast : month < 13) :
    daysIn year month
      ≤ (153 * (marchMonth month + 1) + 2) / 5 - (153 * marchMonth month + 2) / 5 := by
  have hothers : ∀ m < 13, 0 < m → m ≠ 2 → (if m ∈ [4, 6, 9, 11] then 30 else 31)
      ≤ (153 * (marchMonth m + 1) + 2) / 5 - (153 * marchMonth m + 2) / 5 := by decide
  unfold daysIn
  split
  · next hfeb =>
    subst hfeb
    split <;> decide
  · next hfeb => exact hothers month hlast hfirst hfeb

theorem monthStart_eq (month : Nat) (hfirst : 0 < month) :
    monthStart month = ((153 * marchMonth month + 2) / 5 : Nat) := by
  unfold monthStart marchMonth
  split <;> split <;> omega

/-- A date is in its year, counted from March. -/
theorem date_lt_marchDays (year : Int) {month day : Nat} (hfirst : 0 < month) (hlast : month < 13)
    (hday : day ≤ daysIn year month) :
    marchDays (marchYear year month) + monthStart month + day - 1
      < marchDays (marchYear year month + 1) := by
  rw [marchDays_succ]
  by_cases hfeb : month = 2
  · subst hfeb
    have hyear : marchYear year (2 : Nat) + 1 = year := by unfold marchYear; simp
    have hstart : monthStart (2 : Nat) = 337 := by decide
    rw [hyear, hstart]
    unfold daysIn at hday
    rw [if_pos rfl] at hday
    split at hday <;> split <;> simp_all <;> omega
  · have hothers : ∀ m < 13, 0 < m → m ≠ 2 → marchMonth m ≤ 10 := by decide
    have hlength := daysIn_le year hfirst hlast
    have hmonth := hothers month hlast hfirst hfeb
    rw [monthStart_eq month hfirst]
    split <;> omega

/-- **The date of a day is the one it was counted of.** -/
theorem fromUnixMillis_of_days {year ms : Int} {month day : Nat} (hfirst : 0 < month)
    (hlast : month < 13) (hday : 0 < day) (hday' : day ≤ daysIn year month)
    (hms : ms / 86400000 = daysFromCivil year month day) :
    (Utc.fromUnixMillis ms).year = year ∧ (Utc.fromUnixMillis ms).month = month
      ∧ (Utc.fromUnixMillis ms).day = day := by
  obtain ⟨y, doy, hdoy, -, hdays, hlater, hyear, hmonth, hdayEq⟩ := fromUnixMillis_eq_lt ms
  rw [daysFromCivil_eq] at hms
  have hbound := date_lt_marchDays year hfirst hlast hday'
  have hstart : 0 ≤ monthStart month := by unfold monthStart; split <;> omega
  have hcount : marchDays y ≤ ms / 86400000 + 719468 := by unfold marchDays; omega
  have hcount' : ms / 86400000 + 719468 < marchDays (y + 1) := by unfold marchDays; omega
  -- the two years hold the same day
  have hle : y < marchYear year month + 1 := marchDays_strictMono.lt_iff_lt.1 (by omega)
  have hge : marchYear year month < y + 1 := marchDays_strictMono.lt_iff_lt.1 (by omega)
  obtain rfl : y = marchYear year month := by omega
  have hsame : doy = monthStart month + day - 1 := by unfold marchDays at hms; omega
  have hlength := daysIn_le year hfirst hlast
  have hrange : marchMonth month ≤ 11 := by unfold marchMonth; split <;> omega
  have hback : (5 * doy + 2) / 153 = marchMonth month := by
    rw [hsame, monthStart_eq month hfirst]
    exact month_of_day hday (le_trans hday' hlength)
  rw [hyear, hmonth, hdayEq, hback, hsame, monthStart_eq month hfirst]
  unfold marchYear marchMonth
  split <;> split <;> omega

/-! ## One month after another -/

variable {year : Int} {month : Nat}

theorem nextMonth_bounds (year : Int) (hlast : month < 13) :
    0 < (nextMonth year month).2 ∧ (nextMonth year month).2 < 13 := by
  unfold nextMonth
  split <;> dsimp only <;> omega

/-- A month starts where the one before it ends. -/
theorem daysFromCivil_nextMonth (year : Int) (hfirst : 0 < month) (hlast : month < 13) :
    daysFromCivil (nextMonth year month).1 (nextMonth year month).2 1
      = daysFromCivil year month 1 + daysIn year month := by
  have hnext := nextMonth_bounds year hlast
  rw [daysFromCivil_eq, daysFromCivil_eq, monthStart_eq _ hnext.1, monthStart_eq _ hfirst]
  have hothers : ∀ m < 13, 0 < m → m ≠ 2 → m ≠ 12 → (153 * marchMonth (m + 1) + 2) / 5
      = (153 * marchMonth m + 2) / 5 + if m ∈ [4, 6, 9, 11] then 30 else 31 := by decide
  by_cases hfeb : month = 2
  · subst hfeb
    have hyear : marchDays year = marchDays (year - 1) + 365 + if isLeap year then 1 else 0 := by
      have := marchDays_succ (year - 1)
      rwa [Int.sub_add_cancel] at this
    have hthis : marchYear year (2 : Nat) = year - 1 := rfl
    have hafter : marchYear year (3 : Nat) = year := rfl
    show marchDays (marchYear year (3 : Nat)) + ((153 * marchMonth 3 + 2) / 5 : Nat) + 1 - 1
      - 719468 = marchDays (marchYear year (2 : Nat)) + ((153 * marchMonth 2 + 2) / 5 : Nat) + 1 - 1
        - 719468 + daysIn year 2
    rw [hthis, hafter, hyear]
    unfold daysIn
    cases isLeap year with
    | false => simp [marchMonth]; omega
    | true => simp [marchMonth]; omega
  · unfold nextMonth daysIn
    rw [if_neg hfeb]
    split
    · next hdec =>
      subst hdec
      have hsame : marchYear (year + 1) (1 : Nat) = marchYear year (12 : Nat) := by
        simp [marchYear]
      have hstart : ((153 * marchMonth 1 + 2) / 5 : Nat)
          = (153 * marchMonth 12 + 2) / 5 + if 12 ∈ [4, 6, 9, 11] then 30 else 31 := by decide
      simp only [hsame, hstart]
      omega
    · next hdec =>
      have hsame : marchYear year (month + 1 : Nat) = marchYear year month := by
        unfold marchYear
        split <;> split <;> omega
      have hlength := hothers month hlast hfirst hfeb hdec
      simp only [hsame, hlength]
      omega

/-- The days of a month, from its first to the next one's. -/
theorem date_of_month {ms : Int} (hfirst : 0 < month) (hlast : month < 13)
    (hfrom : daysFromCivil year month 1 ≤ ms / 86400000)
    (hto : ms / 86400000 < daysFromCivil (nextMonth year month).1 (nextMonth year month).2 1) :
    (Utc.fromUnixMillis ms).year = year ∧ (Utc.fromUnixMillis ms).month = month := by
  rw [daysFromCivil_nextMonth year hfirst hlast] at hto
  obtain ⟨day, hday⟩ : ∃ day : Nat, (day : Int) = ms / 86400000 - daysFromCivil year month 1 + 1 :=
    ⟨_, Int.toNat_of_nonneg (by omega)⟩
  have hdays : ms / 86400000 = daysFromCivil year month day := by
    rw [daysFromCivil_eq] at hday ⊢
    omega
  have hdate := fromUnixMillis_of_days hfirst hlast (by omega) (by omega) hdays
  exact ⟨hdate.1, hdate.2.1⟩

/-- A day lies in its month. -/
theorem day_mem_month (ms : Int) : let l := Utc.fromUnixMillis ms
    daysFromCivil l.year l.month 1 ≤ ms / 86400000
      ∧ ms / 86400000
        < daysFromCivil (nextMonth l.year l.month).1 (nextMonth l.year l.month).2 1 := by
  intro l
  have hback : daysFromCivil l.year l.month l.day = ms / 86400000 := daysFromCivil_fromUnixMillis ms
  have hday : 0 < l.day := fromUnixMillis_day_pos ms
  have hlast : l.month < 13 := fromUnixMillis_month ms
  have hstart : daysFromCivil l.year l.month 1 ≤ ms / 86400000 := by
    rw [← hback, daysFromCivil_eq, daysFromCivil_eq]
    omega
  refine ⟨hstart, ?_⟩
  -- the first of the next month has a later date
  by_contra hpast
  have hnext := nextMonth_bounds l.year hlast
  have hlength := (daysIn_bounds (nextMonth l.year l.month).1 (nextMonth l.year l.month).2).1
  obtain ⟨hyear, hmonth, hone⟩ := @fromUnixMillis_of_days _
    (daysFromCivil (nextMonth l.year l.month).1 (nextMonth l.year l.month).2 1 * 86400000) _ 1
    hnext.1 hnext.2 Nat.one_pos (by omega) (Int.mul_ediv_cancel _ (by decide))
  have hdays : daysFromCivil (nextMonth l.year l.month).1 (nextMonth l.year l.month).2 1 * 86400000
      / 86400000 ≤ ms / 86400000 := by omega
  have horder : (nextMonth l.year l.month).1 < l.year
      ∨ (nextMonth l.year l.month).1 = l.year ∧ (nextMonth l.year l.month).2 ≤ l.month := by
    rcases Int.lt_or_eq_of_le hdays with hlt | heq
    · have hdate := date_lt hlt
      rw [hyear, hmonth, hone] at hdate
      rcases hdate with h | ⟨h, h' | ⟨h', -⟩⟩
      · exact .inl h
      · exact .inr ⟨h, le_of_lt h'⟩
      · exact .inr ⟨h, le_of_eq h'⟩
    · obtain ⟨h, h', -⟩ := date_eq heq
      exact .inr ⟨hyear.symm.trans h, le_of_eq (hmonth.symm.trans h')⟩
  unfold nextMonth at horder
  split at horder <;> dsimp only at horder <;> omega

end Calendar

end Foreseerr

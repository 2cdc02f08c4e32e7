import Foreseerr.Clock
import Mathlib.Algebra.Order.Ring.Int
import Mathlib.Data.List.Basic
import Mathlib.Order.Basic

/-!
# The two forms of a date column

A date column holds a text on SQLite, in the form TypeORM writes, and an
instant on Postgres (`date_bind` and `date_param` of `authcommon.rs`). SQLite
compares the texts character by character. For the years of four digits that
is the order of the instants (`dateBind_after_iff`).
-/

/-! ## Digits -/

theorem digit_bounds {c : Char} (h : c.isDigit) : 48 ≤ c.toNat ∧ c.toNat ≤ 57 := by
  rw [Char.isDigit, Bool.and_eq_true, decide_eq_true_eq, decide_eq_true_eq] at h
  exact ⟨h.1, h.2⟩

theorem ofDigitChars_ten_cons (c : Char) (xs : List Char) :
    Nat.ofDigitChars 10 (c :: xs) 0
      = 10 ^ xs.length * (c.toNat - 48) + Nat.ofDigitChars 10 xs 0 := by
  rw [Nat.ofDigitChars_cons, Nat.ofDigitChars_eq_ofDigitChars_zero, Nat.mul_zero, Nat.zero_add]
  rfl

theorem ofDigitChars_lt {xs : List Char} (hxs : ∀ c ∈ xs, c.isDigit) :
    Nat.ofDigitChars 10 xs 0 < 10 ^ xs.length := by
  induction xs with
  | nil => simp
  | cons c xs ih =>
    have hc := digit_bounds (hxs c List.mem_cons_self)
    have hrest := ih fun d hd => hxs d (List.mem_cons_of_mem _ hd)
    have hdigit : c.toNat - 48 ≤ 9 := by omega
    have hbound := Nat.mul_le_mul_left (10 ^ xs.length) hdigit
    rw [ofDigitChars_ten_cons, List.length_cons, pow_succ]
    omega

/-- **Digits of one length compare as the numbers do.** -/
theorem digits_lt_of_ofDigitChars_lt {xs ys : List Char} (hlength : xs.length = ys.length)
    (hxs : ∀ c ∈ xs, c.isDigit) (hys : ∀ c ∈ ys, c.isDigit)
    (h : Nat.ofDigitChars 10 xs 0 < Nat.ofDigitChars 10 ys 0) : xs < ys := by
  induction xs generalizing ys with
  | nil =>
    obtain rfl := List.length_eq_zero_iff.1 hlength.symm
    exact absurd h (lt_irrefl _)
  | cons c xs ih =>
    cases ys with
    | nil => cases hlength
    | cons d ys =>
      have hrest : xs.length = ys.length := Nat.succ.inj hlength
      have hc := digit_bounds (hxs c List.mem_cons_self)
      have hd := digit_bounds (hys d List.mem_cons_self)
      have hxs := fun e he => hxs e (List.mem_cons_of_mem c he)
      have hys := fun e he => hys e (List.mem_cons_of_mem d he)
      rw [ofDigitChars_ten_cons, ofDigitChars_ten_cons, hrest] at h
      rw [List.cons_lt_cons_iff]
      rcases lt_trichotomy c.toNat d.toNat with hlt | heq | hgt
      · exact .inl hlt
      · rw [heq] at h
        exact .inr ⟨Char.toNat_inj.1 heq, ih hrest hxs hys (Nat.lt_of_add_lt_add_left h)⟩
      · exfalso
        have hbound := ofDigitChars_lt hys
        have hdigits : d.toNat - 48 + 1 ≤ c.toNat - 48 := by omega
        have hmul := Nat.mul_le_mul_left (10 ^ ys.length) hdigits
        rw [Nat.mul_add] at hmul
        omega

namespace Foreseerr

/-! ## The forms -/

/-- `Utc::typeorm_string`: `YYYY-MM-DD HH:MM:SS.SSS`. -/
def Utc.typeormString (t : Utc) : String :=
  zeroPadded 4 t.year ++ "-" ++ zeroPadded 2 t.month ++ "-" ++ zeroPadded 2 t.day ++ " "
    ++ zeroPadded 2 t.hour ++ ":" ++ zeroPadded 2 t.minute ++ ":" ++ zeroPadded 2 t.second
    ++ "." ++ zeroPadded 3 t.millis

/-- The database. -/
inductive Dialect
  | sqlite
  | postgres
deriving DecidableEq, Repr

/-- What a date column holds. -/
inductive DateValue
  | text (t : String)
  | instant (ms : Int)
deriving DecidableEq, Repr

/-- `date_bind` under `date_param`: on Postgres the cast reads the text back. -/
def dateBind : Dialect → Int → DateValue
  | .sqlite, ms => .text (Utc.fromUnixMillis ms).typeormString
  | .postgres, ms => .instant ms

/-- `iso_sql` of a column, for a text in TypeORM's form. -/
def DateValue.isoSql : DateValue → String
  | .text t => String.ofList (t.toList.map (fun c => if c = ' ' then 'T' else c) ++ ['Z'])
  | .instant ms => iso ms

/-- The column's instant, as the code reads it. -/
def DateValue.millis? (v : DateValue) : Option Int := parseDateMillis v.isoSql.toList

/-- `>` between two values of one column. -/
def DateValue.after : DateValue → DateValue → Bool
  | .text a, .text b => decide (b < a)
  | .instant a, .instant b => decide (b < a)
  | _, _ => false

example : (dateBind .sqlite 1791661865758).millis? = some 1791661865758 := by decide +kernel

/-! ## The calendar -/

/-- The day of the year, from March on, and the year of the era. -/
theorem era_bounds {doe : Int} (hfirst : 0 ≤ doe) (hlast : doe < 146097) :
    let yoe := (doe - doe / 1460 + doe / 36524 - doe / 146096) / 365
    let doy := doe - (365 * yoe + yoe / 4 - yoe / 100)
    0 ≤ yoe ∧ yoe ≤ 399 ∧ 0 ≤ doy ∧ doy ≤ 365 := by
  intro yoe doy
  by_cases hend : doe = 146096
  · subst hend
    decide
  -- the century, its four years, the day of them, and whether `doe / 1460` is one too many
  obtain ⟨c, hc⟩ : ∃ c, c = doe / 36524 := ⟨_, rfl⟩
  obtain ⟨q, hq⟩ : ∃ q, q = (doe - 36524 * c) / 1461 := ⟨_, rfl⟩
  obtain ⟨t, ht⟩ : ∃ t, t = doe - 36524 * c - 1461 * q := ⟨_, rfl⟩
  obtain ⟨u, hu⟩ : ∃ u, u = (24 * c + q + t) / 1460 := ⟨_, rfl⟩
  have hera : doe / 146096 = 0 := by omega
  have hleap : doe / 1460 = 25 * c + q + u := by omega
  have hyoe : yoe = 100 * c + 4 * q + (t - u) / 365 := by omega
  have hrest : 0 ≤ (t - u) / 365 ∧ (t - u) / 365 ≤ 3 := by omega
  have hfours : yoe / 4 = 25 * c + q := by omega
  have hcenturies : yoe / 100 = c := by omega
  omega

/-- The leap days of a year, by the era. -/
theorem leapDays_era {yoe : Int} (era : Int) (hfirst : 0 ≤ yoe) (hlast : yoe ≤ 399) :
    (yoe + era * 400) / 4 = yoe / 4 + era * 100 ∧
      (yoe + era * 400) / 100 = yoe / 100 + era * 4 ∧ (yoe + era * 400) / 400 = era := by
  omega

/-- The day of a year of the era, by its century `c`, its four years `q` and the year
of those `f`: not past the year's end. -/
theorem year_day_lt {c q f t : Int} (hc : 0 ≤ c) (hc' : c ≤ 3) (hq : 0 ≤ q) (hq' : q ≤ 24)
    (hf : 0 ≤ f) (hf' : f ≤ 3) (hcentury : 1461 * q + t ≤ 36524)
    (hlast : c < 3 → 1461 * q + t < 36524) (hearly : f < 3 → t < 365 * (f + 1)) (hlate : t ≤ 1460) :
    36524 * c + 1461 * q + t < 365 * (100 * c + 4 * q + f + 1) + (100 * c + 4 * q + f + 1) / 4
      - (100 * c + 4 * q + f + 1) / 100 + (100 * c + 4 * q + f + 1) / 400 := by
  have hfours : (100 * c + 4 * q + f + 1) / 4 = 25 * c + q + (f + 1) / 4 := by omega
  have hcenturies : (100 * c + 4 * q + f + 1) / 100 = c + (4 * q + f + 1) / 100 := by omega
  have hera : 0 ≤ (100 * c + 4 * q + f + 1) / 400 := by omega
  rw [hfours, hcenturies]
  rcases Int.lt_or_eq_of_le hf' with hf3 | rfl
  · have ht := hearly hf3
    have hover : (4 * q + f + 1) / 100 = 0 := by omega
    have hleap : (f + 1) / 4 = 0 := by omega
    rw [hover, hleap]
    generalize (100 * c + 4 * q + f + 1) / 400 = era at hera
    omega
  · -- the last of the four years is the leap one, but at the end of a century
    have hleap : ((3 : Int) + 1) / 4 = 1 := by decide
    rw [hleap]
    rcases Int.lt_or_eq_of_le hq' with hq24 | rfl
    · have hover : (4 * q + 3 + 1) / 100 = 0 := by omega
      rw [hover]
      generalize (100 * c + 4 * q + 3 + 1) / 400 = era at hera
      omega
    · omega


/-- The day of the year is one that the year has. -/
theorem era_day_lt {doe : Int} (hfirst : 0 ≤ doe) (hlast : doe < 146097) :
    let yoe := (doe - doe / 1460 + doe / 36524 - doe / 146096) / 365
    doe < 365 * (yoe + 1) + (yoe + 1) / 4 - (yoe + 1) / 100 + (yoe + 1) / 400 := by
  intro yoe
  by_cases hend : doe = 146096
  · subst hend
    decide
  obtain ⟨c, hc⟩ : ∃ c, c = doe / 36524 := ⟨_, rfl⟩
  obtain ⟨q, hq⟩ : ∃ q, q = (doe - 36524 * c) / 1461 := ⟨_, rfl⟩
  obtain ⟨t, ht⟩ : ∃ t, t = doe - 36524 * c - 1461 * q := ⟨_, rfl⟩
  obtain ⟨u, hu⟩ : ∃ u, u = (24 * c + q + t) / 1460 := ⟨_, rfl⟩
  have hera : doe / 146096 = 0 := by omega
  have hc4 : 0 ≤ c ∧ c ≤ 3 ∧ 0 ≤ doe - 36524 * c ∧ doe - 36524 * c < 36524 := by omega
  have hq25 : 0 ≤ q ∧ q ≤ 24 ∧ 0 ≤ t ∧ t ≤ 1460 := by omega
  have hdoe : doe = 36524 * c + 1461 * q + t := by omega
  have hcentury : 1461 * q + t < 36524 := by omega
  have hsplit : doe = 24 * c + q + t + 1460 * (25 * c + q) := by omega
  clear hq ht hfirst hlast hend
  have hleap : doe / 1460 = u + (25 * c + q) := by
    rw [hu, hsplit, Int.add_mul_ediv_left _ _ (by decide)]
  have hyoe : yoe = (t - u) / 365 + (100 * c + 4 * q) := by
    rw [← Int.add_mul_ediv_left _ _ (by decide : (365 : Int) ≠ 0)]
    show (doe - doe / 1460 + doe / 36524 - doe / 146096) / 365 = _
    rw [hleap, hera, ← hc, hdoe]
    congr 1
    omega
  have hu01 : 0 ≤ u ∧ u ≤ 1 := by omega
  have hf : 0 ≤ (t - u) / 365 ∧ (t - u) / 365 ≤ 3 := by omega
  have hearly : (t - u) / 365 < 3 → t < 365 * ((t - u) / 365 + 1) := by omega
  rw [hyoe, hdoe, add_comm ((t - u) / 365)]
  exact year_day_lt hc4.1 hc4.2.1 hq25.1 hq25.2.1 hf.1 hf.2 (le_of_lt hcentury)
    (fun _ => hcentury) hearly hq25.2.2.2

/-- The bound on the day of the era, `era` eras later. -/
theorem days_lt_of_era_day_lt {days doe era year fours centuries eras : Int}
    (hdays : days + 719468 = doe + era * 146097)
    (hday : doe < 365 * (year + 1) + fours - centuries + eras) :
    days < 365 * (year + era * 400 + 1) + (fours + era * 100) - (centuries + era * 4)
      + (eras + era) - 719468 := by
  omega

/-- A date as its year from March on and the day of it, one of that year's. -/
theorem fromUnixMillis_eq_lt (ms : Int) : ∃ year doy : Int, 0 ≤ doy ∧ doy ≤ 365 ∧
    ms / 86400000 = 365 * year + year / 4 - year / 100 + year / 400 + doy - 719468 ∧
    ms / 86400000 < 365 * (year + 1) + (year + 1) / 4 - (year + 1) / 100 + (year + 1) / 400
      - 719468 ∧
    let mp := (5 * doy + 2) / 153
    let month := if mp < 10 then mp + 3 else mp - 9
    (Utc.fromUnixMillis ms).year = year + (if month ≤ 2 then 1 else 0) ∧
      (Utc.fromUnixMillis ms).month = month.toNat ∧
      (Utc.fromUnixMillis ms).day = (doy - (153 * mp + 2) / 5 + 1).toNat := by
  have hfirst : 0 ≤ (ms / 86400000 + 719468) % 146097 := by omega
  have hlast : (ms / 86400000 + 719468) % 146097 < 146097 := by omega
  obtain ⟨hyoe, hyoe', hdoy, hdoy'⟩ := era_bounds hfirst hlast
  have hyear := era_day_lt hfirst hlast
  obtain ⟨hfours, hcenturies, heras⟩ :=
    leapDays_era ((ms / 86400000 + 719468) / 146097) hyoe hyoe'
  refine ⟨_ + (ms / 86400000 + 719468) / 146097 * 400, _, hdoy, hdoy', ?_, ?_, rfl, rfl, rfl⟩
  · rw [hfours, hcenturies, heras]
    omega
  · have hera : ms / 86400000 + 719468 = (ms / 86400000 + 719468) % 146097
        + (ms / 86400000 + 719468) / 146097 * 146097 := by omega
    have hshift : ∀ n era : Int, (n + era * 400 + 1) / 4 = (n + 1) / 4 + era * 100
        ∧ (n + era * 400 + 1) / 100 = (n + 1) / 100 + era * 4
        ∧ (n + era * 400 + 1) / 400 = (n + 1) / 400 + era := by
      intro n era
      omega
    obtain ⟨hfours', hcenturies', heras'⟩ := hshift _ ((ms / 86400000 + 719468) / 146097)
    rw [hfours', hcenturies', heras']
    exact days_lt_of_era_day_lt hera hyear

/-- A date as its year from March on and the day of it. -/
theorem fromUnixMillis_eq (ms : Int) : ∃ year doy : Int, 0 ≤ doy ∧ doy ≤ 365 ∧
    ms / 86400000 = 365 * year + year / 4 - year / 100 + year / 400 + doy - 719468 ∧
    let mp := (5 * doy + 2) / 153
    let month := if mp < 10 then mp + 3 else mp - 9
    (Utc.fromUnixMillis ms).year = year + (if month ≤ 2 then 1 else 0) ∧
      (Utc.fromUnixMillis ms).month = month.toNat ∧
      (Utc.fromUnixMillis ms).day = (doy - (153 * mp + 2) / 5 + 1).toNat := by
  obtain ⟨year, doy, hdoy, hdoy', hdays, -, hdate⟩ := fromUnixMillis_eq_lt ms
  exact ⟨year, doy, hdoy, hdoy', hdays, hdate⟩

/-- The years of four digits. -/
def FourDigit (ms : Int) : Prop := -62167219200000 ≤ ms ∧ ms < 253402300800000

instance (ms : Int) : Decidable (FourDigit ms) := inferInstanceAs (Decidable (_ ∧ _))

variable {a b : Int}

theorem FourDigit.year (h : FourDigit a) :
    0 ≤ (Utc.fromUnixMillis a).year ∧ (Utc.fromUnixMillis a).year < 10000 := by
  obtain ⟨year, doy, hdoy, hdoy', hdays, hyear, -, -⟩ := fromUnixMillis_eq a
  obtain ⟨hfirst, hlast⟩ := h
  -- the years before and after the four digits, counted in centuries
  have hfours : year / 4 = 25 * (year / 100) + year % 100 / 4 := by omega
  have heras : year / 400 = year / 100 / 4 := by omega
  have hbefore : -1 ≤ year := by omega
  have hafter : year ≤ 9999 := by omega
  rw [hyear]
  omega

theorem fromUnixMillis_month (ms : Int) : (Utc.fromUnixMillis ms).month < 13 := by
  obtain ⟨year, doy, hdoy, hdoy', -, -, hmonth, -⟩ := fromUnixMillis_eq ms
  rw [hmonth]
  omega

theorem fromUnixMillis_day (ms : Int) : (Utc.fromUnixMillis ms).day < 32 := by
  obtain ⟨year, doy, hdoy, hdoy', -, -, -, hday⟩ := fromUnixMillis_eq ms
  rw [hday]
  omega

/-- **A later day has a later date.** -/
theorem date_lt (h : a / 86400000 < b / 86400000) :
    (Utc.fromUnixMillis a).year < (Utc.fromUnixMillis b).year ∨
      (Utc.fromUnixMillis a).year = (Utc.fromUnixMillis b).year ∧
        ((Utc.fromUnixMillis a).month < (Utc.fromUnixMillis b).month ∨
          (Utc.fromUnixMillis a).month = (Utc.fromUnixMillis b).month ∧
            (Utc.fromUnixMillis a).day < (Utc.fromUnixMillis b).day) := by
  obtain ⟨year, doy, hdoy, hdoy', hdays, hyear, hmonth, hday⟩ := fromUnixMillis_eq a
  obtain ⟨year', doy', hfirst, hlast, hdays', hyear', hmonth', hday'⟩ := fromUnixMillis_eq b
  have hlater : year < year' ∨ year = year' ∧ doy < doy' := by omega
  clear h hdays hdays'
  rw [hyear, hmonth, hday, hyear', hmonth', hday']
  rcases hlater with hyears | ⟨rfl, hdoys⟩
  · omega
  · omega

/-- **A later time of the day has later fields.** -/
theorem time_lt (hday : a / 86400000 = b / 86400000) (h : a < b) :
    (Utc.fromUnixMillis a).hour < (Utc.fromUnixMillis b).hour ∨
      (Utc.fromUnixMillis a).hour = (Utc.fromUnixMillis b).hour ∧
        ((Utc.fromUnixMillis a).minute < (Utc.fromUnixMillis b).minute ∨
          (Utc.fromUnixMillis a).minute = (Utc.fromUnixMillis b).minute ∧
            ((Utc.fromUnixMillis a).second < (Utc.fromUnixMillis b).second ∨
              (Utc.fromUnixMillis a).second = (Utc.fromUnixMillis b).second ∧
                (Utc.fromUnixMillis a).millis < (Utc.fromUnixMillis b).millis)) := by
  have hrem : a % 86400000 < b % 86400000 := by omega
  have hfirst : 0 ≤ a % 86400000 := by omega
  simp only [Utc.fromUnixMillis]
  generalize a % 86400000 = r at hrem hfirst
  generalize b % 86400000 = r' at hrem
  clear hday h
  by_cases hhour : r / 3600000 < r' / 3600000
  · left
    omega
  · refine .inr ⟨by omega, ?_⟩
    by_cases hminute : r / 60000 < r' / 60000
    · left
      omega
    · refine .inr ⟨by omega, ?_⟩
      omega

theorem date_eq (h : a / 86400000 = b / 86400000) :
    (Utc.fromUnixMillis a).year = (Utc.fromUnixMillis b).year ∧
      (Utc.fromUnixMillis a).month = (Utc.fromUnixMillis b).month ∧
        (Utc.fromUnixMillis a).day = (Utc.fromUnixMillis b).day := by
  simp only [Utc.fromUnixMillis, h, and_self]

theorem fromUnixMillis_time (ms : Int) : (Utc.fromUnixMillis ms).hour < 24 ∧
    (Utc.fromUnixMillis ms).minute < 60 ∧ (Utc.fromUnixMillis ms).second < 60 ∧
      (Utc.fromUnixMillis ms).millis < 1000 := by
  simp only [Utc.fromUnixMillis]
  omega

/-! ## Texts of one width -/

theorem toList_zeroPadded (width : Nat) {value : Int} (h : 0 ≤ value) :
    (zeroPadded width value).toList
      = List.replicate (width - (Nat.toDigits 10 value.natAbs).length) '0'
        ++ Nat.toDigits 10 value.natAbs := by
  unfold zeroPadded
  rw [if_neg (not_lt.2 h)]
  simp [String.length]

theorem length_zeroPadded {width : Nat} (hwidth : 0 < width) {value : Int} (hfirst : 0 ≤ value)
    (hlast : value < 10 ^ width) : (zeroPadded width value).toList.length = width := by
  obtain ⟨n, rfl⟩ := Int.eq_ofNat_of_zero_le hfirst
  have hle : (Nat.toDigits 10 n).length ≤ width :=
    (Nat.length_toDigits_le_iff (by decide) hwidth).2 (by exact_mod_cast hlast)
  rw [toList_zeroPadded width hfirst, List.length_append, List.length_replicate, Int.natAbs_natCast]
  omega

theorem isDigit_zeroPadded (width : Nat) {value : Int} (h : 0 ≤ value) :
    ∀ c ∈ (zeroPadded width value).toList, c.isDigit := by
  intro c hc
  rw [toList_zeroPadded width h, List.mem_append] at hc
  rcases hc with hzero | hdigit
  · rw [(List.mem_replicate.1 hzero).2]
    rfl
  · exact Nat.isDigit_of_mem_toDigits (by decide) (by decide) hdigit

/-- **Numbers under one width compare as texts.** -/
theorem zeroPadded_lt {width : Nat} (hwidth : 0 < width) {m n : Int} (hfirst : 0 ≤ m)
    (h : m < n) (hlast : n < 10 ^ width) :
    (zeroPadded width m).toList < (zeroPadded width n).toList := by
  refine digits_lt_of_ofDigitChars_lt ?_ (isDigit_zeroPadded width hfirst)
    (isDigit_zeroPadded width (hfirst.trans h.le)) ?_
  · rw [length_zeroPadded hwidth hfirst (h.trans hlast),
      length_zeroPadded hwidth (hfirst.trans h.le) hlast]
  · rw [toList_zeroPadded width hfirst, toList_zeroPadded width (hfirst.trans h.le),
      Nat.ofDigitChars_append, Nat.ofDigitChars_append, Nat.ofDigitChars_replicate_zero,
      Nat.ofDigitChars_replicate_zero, Nat.mul_zero, Nat.mul_zero,
      Nat.ofDigitChars_ten_toDigits, Nat.ofDigitChars_ten_toDigits]
    omega

theorem append_lt_append {xs ys : List Char} (h : xs < ys) (hlength : xs.length = ys.length)
    (us vs : List Char) : xs ++ us < ys ++ vs := by
  induction xs generalizing ys with
  | nil =>
    obtain rfl := List.length_eq_zero_iff.1 hlength.symm
    cases h
  | cons c xs ih =>
    cases ys with
    | nil => cases hlength
    | cons d ys =>
      rw [List.cons_append, List.cons_append, List.cons_lt_cons_iff]
      rcases List.cons_lt_cons_iff.1 h with hlt | ⟨rfl, hlt⟩
      · exact .inl hlt
      · exact .inr ⟨rfl, ih hlt (Nat.succ.inj hlength)⟩

/-- The first field that differs decides. -/
theorem field_lt {width : Nat} (hwidth : 0 < width) {m n : Int} (hfirst : 0 ≤ m) (h : m < n)
    (hlast : n < 10 ^ width) (us vs : List Char) :
    (zeroPadded width m).toList ++ us < (zeroPadded width n).toList ++ vs := by
  refine append_lt_append (zeroPadded_lt hwidth hfirst h hlast) ?_ us vs
  rw [length_zeroPadded hwidth hfirst (h.trans hlast),
    length_zeroPadded hwidth (hfirst.trans h.le) hlast]

theorem after_field_lt {field us vs : List Char} {separator : Char} (h : us < vs) :
    field ++ separator :: us < field ++ separator :: vs :=
  List.append_left_lt (List.cons_lt_cons_iff.2 (.inr ⟨rfl, h⟩))

/-- A date's text. -/
def dateText (t : Utc) : List Char :=
  (zeroPadded 4 t.year).toList ++ '-' :: ((zeroPadded 2 t.month).toList ++ '-' ::
    (zeroPadded 2 t.day).toList)

/-- The text of a time of the day, to the second. -/
def clockText (t : Utc) : List Char :=
  (zeroPadded 2 t.hour).toList ++ ':' :: ((zeroPadded 2 t.minute).toList ++ ':' ::
    (zeroPadded 2 t.second).toList)

/-- **A later day has a later text**, whatever follows the dates. -/
theorem dateText_lt (ha : FourDigit a) (hb : FourDigit b) (h : a / 86400000 < b / 86400000)
    (us vs : List Char) :
    dateText (Utc.fromUnixMillis a) ++ us < dateText (Utc.fromUnixMillis b) ++ vs := by
  obtain ⟨hyear, -⟩ := ha.year
  obtain ⟨-, hyear'⟩ := hb.year
  have hmonth := fromUnixMillis_month b
  have hday := fromUnixMillis_day b
  simp only [dateText, List.append_assoc, List.cons_append]
  rcases date_lt h with hlt | ⟨heq, hlt | ⟨heq', hlt⟩⟩
  · exact field_lt (by decide) hyear hlt (by omega) _ _
  · rw [heq]
    refine after_field_lt ?_
    exact field_lt (by decide) (by omega) (by omega) (by omega) _ _
  · rw [heq, heq']
    refine after_field_lt ?_
    refine after_field_lt ?_
    exact field_lt (by decide) (by omega) (by omega) (by omega) _ _

/-- The dates of one day have one text. -/
theorem dateText_eq (h : a / 86400000 = b / 86400000) :
    dateText (Utc.fromUnixMillis a) = dateText (Utc.fromUnixMillis b) := by
  obtain ⟨hyears, hmonths, hdates⟩ := date_eq h
  unfold dateText
  rw [hyears, hmonths, hdates]

theorem toList_typeormString (t : Utc) : t.typeormString.toList
    = dateText t ++ ' ' :: (clockText t ++ '.' :: (zeroPadded 3 t.millis).toList) := by
  simp [Utc.typeormString, dateText, clockText]

/-- **A later instant has a later text.** -/
theorem typeormString_lt (ha : FourDigit a) (hb : FourDigit b) (h : a < b) :
    (Utc.fromUnixMillis a).typeormString < (Utc.fromUnixMillis b).typeormString := by
  rw [String.lt_iff, toList_typeormString, toList_typeormString]
  by_cases hdays : a / 86400000 = b / 86400000
  · obtain ⟨hhour, hminute, hsecond, hmillis⟩ := fromUnixMillis_time b
    rw [dateText_eq hdays]
    refine after_field_lt ?_
    simp only [clockText, List.append_assoc, List.cons_append]
    rcases time_lt hdays h with hlt | ⟨heq, hlt | ⟨heq', hlt | ⟨heq'', hlt⟩⟩⟩
    · exact field_lt (by decide) (by omega) (by omega) (by omega) _ _
    · rw [heq]
      refine after_field_lt ?_
      exact field_lt (by decide) (by omega) (by omega) (by omega) _ _
    · rw [heq, heq']
      refine after_field_lt ?_
      refine after_field_lt ?_
      exact field_lt (by decide) (by omega) (by omega) (by omega) _ _
    · rw [heq, heq', heq'']
      refine after_field_lt ?_
      refine after_field_lt ?_
      refine after_field_lt ?_
      exact zeroPadded_lt (by decide) (by omega) (by omega) (by omega)
  · exact dateText_lt ha hb (by omega) _ _

/-- **On both databases a column compares as its instants do.** -/
theorem dateBind_after_iff (dialect : Dialect) (ha : FourDigit a) (hb : FourDigit b) :
    (dateBind dialect a).after (dateBind dialect b) = true ↔ b < a := by
  cases dialect with
  | postgres => exact decide_eq_true_iff
  | sqlite =>
    have htexts : (dateBind .sqlite a).after (dateBind .sqlite b) = decide
        ((Utc.fromUnixMillis b).typeormString < (Utc.fromUnixMillis a).typeormString) := rfl
    rw [htexts, decide_eq_true_iff]
    refine ⟨fun h => ?_, fun h => typeormString_lt hb ha h⟩
    rcases lt_trichotomy b a with hlt | rfl | hgt
    · exact hlt
    · exact absurd h (String.lt_irrefl _)
    · exact absurd (String.lt_trans h (typeormString_lt ha hb hgt)) (String.lt_irrefl _)

/-! ## Reading an instant back -/

theorem ofDigitChars_zeroPadded (width : Nat) {value : Int} (h : 0 ≤ value) :
    Nat.ofDigitChars 10 (zeroPadded width value).toList 0 = value.natAbs := by
  rw [toList_zeroPadded width h, Nat.ofDigitChars_append, Nat.ofDigitChars_replicate_zero,
    Nat.mul_zero, Nat.ofDigitChars_ten_toDigits]

/-- Digits are read as their number. -/
theorem parseInt_digits {xs : List Char} (hne : xs ≠ []) (hxs : ∀ c ∈ xs, c.isDigit)
    (hmax : Nat.ofDigitChars 10 xs 0 ≤ 9223372036854775807) :
    parseInt xs = some ((Nat.ofDigitChars 10 xs 0 : Nat) : Int) := by
  have hfold : (fun (n : Nat) (c : Char) => n * 10 + (c.toNat - '0'.toNat))
      = fun n c => 10 * n + (c.toNat - '0'.toNat) := by
    funext n c
    rw [Nat.mul_comm]
  have hall : xs.all Char.isDigit = true := List.all_eq_true.2 hxs
  unfold parseInt
  split
  rename_i sign digits hmatch
  cases xs with
  | nil => exact absurd rfl hne
  | cons c xs =>
    have hc := digit_bounds (hxs c List.mem_cons_self)
    have hplus : c ≠ '+' := by rintro rfl; revert hc; decide
    have hminus : c ≠ '-' := by rintro rfl; revert hc; decide
    have hsplit : (sign, digits) = (1, c :: xs) := by
      rw [← hmatch]
      split
      · rename_i heq; exact absurd (List.cons.inj heq).1 hplus
      · rename_i heq; exact absurd (List.cons.inj heq).1 hminus
      · rfl
    cases hsplit
    rw [if_neg (by simp [hall]), one_mul, hfold]
    show (some ((Nat.ofDigitChars 10 (c :: xs) 0 : Nat) : Int)).filter _ = _
    rw [Option.filter_some, if_pos (decide_eq_true (by unfold InI64; omega))]

theorem parseInt_zeroPadded {width : Nat} (hwidth : 0 < width) {value : Int} (h : 0 ≤ value)
    (hmax : value ≤ 9999) : parseInt (zeroPadded width value).toList = some value := by
  rw [parseInt_digits ?_ (isDigit_zeroPadded width h) ?_, ofDigitChars_zeroPadded width h,
    Int.natAbs_of_nonneg h]
  rotate_left
  · rw [ofDigitChars_zeroPadded width h]
    omega
  intro hnil
  have hdigits : Nat.toDigits 10 value.natAbs = [] := by
    rw [toList_zeroPadded width h] at hnil
    exact (List.append_eq_nil_iff.1 hnil).2
  exact Nat.toDigits_ne_nil hdigits

theorem not_mem_zeroPadded (width : Nat) {value : Int} (h : 0 ≤ value) {c : Char}
    (hc : ¬ c.isDigit) : c ∉ (zeroPadded width value).toList :=
  fun hmem => hc (isDigit_zeroPadded width h c hmem)

theorem toList_isoString (t : Utc) : t.isoString.toList
    = dateText t ++ 'T' :: (clockText t ++ '.' :: (zeroPadded 3 t.millis).toList ++ ['Z']) := by
  simp [Utc.isoString, dateText, clockText]

/-- The days of a date are those it was made of. -/
theorem daysFromCivil_fromUnixMillis (ms : Int) :
    daysFromCivil (Utc.fromUnixMillis ms).year (Utc.fromUnixMillis ms).month
      (Utc.fromUnixMillis ms).day = ms / 86400000 := by
  obtain ⟨year, doy, hdoy, hdoy', hdays, hyear, hmonth, hday⟩ := fromUnixMillis_eq ms
  have hera : year = 400 * (year / 400) + year % 400 := by omega
  have hfours : year / 4 = 100 * (year / 400) + year % 400 / 4 := by omega
  have hcenturies : year / 100 = 4 * (year / 400) + year % 400 / 100 := by omega
  rw [hdays, hyear, hmonth, hday]
  -- the day of the year from the month and the day of it
  have hmp : 0 ≤ (5 * doy + 2) / 153 ∧ (5 * doy + 2) / 153 ≤ 11 := by omega
  unfold daysFromCivil
  dsimp only
  generalize hmp' : (5 * doy + 2) / 153 = mp at hmp
  have hfirst : 0 ≤ doy - (153 * mp + 2) / 5 := by omega
  by_cases hearly : mp < 10
  · have hnat : ((mp + 3).toNat : Int) = mp + 3 := Int.toNat_of_nonneg (by omega)
    rw [if_pos hearly, hnat, if_neg (by omega), if_neg (by omega), if_pos (by omega),
      Int.toNat_of_nonneg (by omega)]
    omega
  · have hnat : ((mp - 9).toNat : Int) = mp - 9 := Int.toNat_of_nonneg (by omega)
    rw [if_neg hearly, hnat, if_pos (by omega), if_pos (by omega), if_neg (by omega),
      Int.toNat_of_nonneg (by omega)]
    omega

theorem fromUnixMillis_month_pos (ms : Int) : 0 < (Utc.fromUnixMillis ms).month := by
  obtain ⟨year, doy, hdoy, hdoy', -, -, hmonth, -⟩ := fromUnixMillis_eq ms
  rw [hmonth]
  omega

theorem fromUnixMillis_day_pos (ms : Int) : 0 < (Utc.fromUnixMillis ms).day := by
  obtain ⟨year, doy, hdoy, hdoy', -, -, -, hday⟩ := fromUnixMillis_eq ms
  rw [hday]
  omega

/-- The time of a day is read back. -/
theorem clockFields_iso (ms : Int) :
    clockFields (clockText (Utc.fromUnixMillis ms) ++ '.' ::
        (zeroPadded 3 (Utc.fromUnixMillis ms).millis).toList)
      = some (((Utc.fromUnixMillis ms).hour : Int), ((Utc.fromUnixMillis ms).minute : Int),
        ((Utc.fromUnixMillis ms).second : Int), ((Utc.fromUnixMillis ms).millis : Int)) := by
  obtain ⟨hhour, hminute, hsecond, hmillis⟩ := fromUnixMillis_time ms
  have hdot : ¬ ('.').isDigit := by decide
  have hcolon : ¬ (':').isDigit := by decide
  have hlength : (zeroPadded 3 ((Utc.fromUnixMillis ms).millis : Int)).toList.length = 3 :=
    length_zeroPadded (by decide) (by omega) (by omega)
  have hread : ∀ {width n : Nat}, 0 < width → n < 1000 →
      parseInt (zeroPadded width n).toList = some (n : Int) :=
    fun hwidth hn => parseInt_zeroPadded hwidth (Int.natCast_nonneg _) (by omega)
  have hfields : ((clockText (Utc.fromUnixMillis ms)).splitOn ':').mapM parseInt
      = some [((Utc.fromUnixMillis ms).hour : Int), ((Utc.fromUnixMillis ms).minute : Int),
        ((Utc.fromUnixMillis ms).second : Int)] := by
    unfold clockText
    rw [List.splitOn_append_cons_self_of_not_mem
        (not_mem_zeroPadded _ (Int.natCast_nonneg _) hcolon),
      List.splitOn_append_cons_self_of_not_mem
        (not_mem_zeroPadded _ (Int.natCast_nonneg _) hcolon),
      List.splitOn_eq_singleton (not_mem_zeroPadded _ (Int.natCast_nonneg _) hcolon)]
    have hhour' : (Utc.fromUnixMillis ms).hour < 1000 := by omega
    have hminute' : (Utc.fromUnixMillis ms).minute < 1000 := by omega
    have hsecond' : (Utc.fromUnixMillis ms).second < 1000 := by omega
    simp [hread, hhour', hminute', hsecond']
  unfold clockFields clockSplit
  rw [List.splitOn_append_cons_self_of_not_mem (by
      simp [clockText, not_mem_zeroPadded _ (Int.natCast_nonneg _) hdot]),
    List.splitOn_eq_singleton (not_mem_zeroPadded _ (Int.natCast_nonneg _) hdot)]
  simp only [List.intercalate_singleton, hfields, Option.bind_eq_bind, Option.bind_some, clockParts]
  rw [if_neg (by omega), List.take_of_length_le hlength.le, hlength, Nat.sub_self,
    List.replicate_zero, List.append_nil, hread (by decide) (by omega), Option.bind_some]

theorem not_mem_dateText {ms : Int} (h : FourDigit ms) {c : Char} (hdigit : ¬ c.isDigit)
    (hdash : c ≠ '-') : c ∉ dateText (Utc.fromUnixMillis ms) := by
  simp [dateText, hdash, not_mem_zeroPadded _ (Int.natCast_nonneg _) hdigit,
    not_mem_zeroPadded _ h.year.1 hdigit]

/-- The fields of an instant are read back, for the years of four digits. -/
theorem dateFields_iso {ms : Int} (h : FourDigit ms) : let t := Utc.fromUnixMillis ms
    dateFields (iso ms).toList
      = some ⟨t.year, t.month, t.day, t.hour, t.minute, t.second, t.millis⟩ := by
  intro t
  obtain ⟨hyear, hyear'⟩ := h.year
  have hmonth := fromUnixMillis_month ms
  have hmonth' := fromUnixMillis_month_pos ms
  have hday := fromUnixMillis_day ms
  have hday' := fromUnixMillis_day_pos ms
  have hread : ∀ {width n : Nat}, 0 < width → n < 1000 →
      parseInt (zeroPadded width n).toList = some (n : Int) :=
    fun hwidth hn => parseInt_zeroPadded hwidth (Int.natCast_nonneg _) (by omega)
  have hdash : ¬ ('-').isDigit := by decide
  have hfields : ((dateText (Utc.fromUnixMillis ms)).splitOn '-').mapM parseInt
      = some [(Utc.fromUnixMillis ms).year, ((Utc.fromUnixMillis ms).month : Int),
        ((Utc.fromUnixMillis ms).day : Int)] := by
    unfold dateText
    rw [List.splitOn_append_cons_self_of_not_mem (not_mem_zeroPadded _ hyear hdash),
      List.splitOn_append_cons_self_of_not_mem
        (not_mem_zeroPadded _ (Int.natCast_nonneg _) hdash),
      List.splitOn_eq_singleton (not_mem_zeroPadded _ (Int.natCast_nonneg _) hdash)]
    have hmonth'' : (Utc.fromUnixMillis ms).month < 1000 := by omega
    have hday'' : (Utc.fromUnixMillis ms).day < 1000 := by omega
    simp [hread, hmonth'', hday'', parseInt_zeroPadded (show 0 < 4 by decide) hyear (by omega)]
  have hbefore : ∀ c ∈ dateText (Utc.fromUnixMillis ms), decide (c ≠ 'T') = true :=
    fun c hc => decide_eq_true fun heq =>
      not_mem_dateText h (by decide) (by decide) (heq ▸ hc)
  unfold dateFields iso
  rw [toList_isoString, List.takeWhile_append_of_pos hbefore, List.dropWhile_append_of_pos hbefore,
    List.takeWhile_cons_of_neg (by decide), List.dropWhile_cons_of_neg (by decide),
    List.append_nil, hfields]
  simp only [List.tail?_cons, Option.bind_eq_bind, Option.bind_some, threeParts, timeFields]
  rw [if_neg (by omega), if_pos List.getLast?_concat, List.dropLast_concat, clockFields_iso,
    Option.bind_some]

/-- **The text of an instant is read back**, for the years of four digits. -/
theorem parseDateMillis_iso {ms : Int} (h : FourDigit ms) :
    parseDateMillis (iso ms).toList = some ms := by
  have hparts : ((Utc.fromUnixMillis ms).hour : Int) * 3600000
      + (Utc.fromUnixMillis ms).minute * 60000 + (Utc.fromUnixMillis ms).second * 1000
      + (Utc.fromUnixMillis ms).millis = ms % 86400000 := by
    simp only [Utc.fromUnixMillis]
    omega
  rw [parseDateMillis_eq, dateFields_iso h, Option.map_some]
  unfold DateFields.exact
  rw [daysFromCivil_fromUnixMillis, hparts]
  congr 1
  omega

end Foreseerr

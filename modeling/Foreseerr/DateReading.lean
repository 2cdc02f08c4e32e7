import Foreseerr.Calendar
import Foreseerr.JsText
import Foreseerr.Run

/-!
# Reading dates

`parse_date_millis` and `parse_http_date` (`clock.rs`, `jsval.rs`) read each field of a
date as a whole `i64`, check some of them against a bound, and count milliseconds with
what they read. `Clock` counts in ℤ; here every step of the count is one of `i64`, which
may not hold it. The fields are read first and the count is made of them, so what can
go wrong is said of the fields alone (`DateFields.Within`, `HttpFields.Within`).

The texts `Utc` itself writes are read back, whatever the moment (`dates_round_trip`).
-/

namespace Foreseerr

/-! ## Arithmetic that may overflow -/

/-- A result that an `i64` does not hold. -/
inductive Overflow
  | overflow
deriving DecidableEq, Repr

/-- The result of one operation on `i64`s. -/
def i64 (n : Int) : Except Overflow Int := if InI64 n then .ok n else .error .overflow

theorem i64_ok {n : Int} (h : InI64 n) : i64 n = .ok n := if_pos h

theorem i64_eq_ok {n r : Int} (h : i64 n = .ok r) : InI64 n ∧ r = n := by
  unfold i64 at h
  split at h
  · next hn => exact ⟨hn, (Except.ok.inj h).symm⟩
  · cases h

theorem i64_bind_ok {α : Type} {n : Int} (h : InI64 n) {f : Int → Except Overflow α} :
    (i64 n >>= f) = f n := by
  rw [i64_ok h]
  rfl

theorem i64_bind_eq_ok {n r : Int} {f : Int → Except Overflow Int} (h : (i64 n >>= f) = .ok r) :
    InI64 n ∧ f n = .ok r := by
  obtain ⟨m, hm, hf⟩ := except_bind_eq_ok h
  obtain ⟨hn, rfl⟩ := i64_eq_ok hm
  exact ⟨hn, hf⟩

/-- `days_from_civil`, step by step. -/
def daysFromCivilI64 (year month day : Int) : Except Overflow Int := do
  let y ← i64 (if month ≤ 2 then year - 1 else year)
  let era := y / 400
  let yoe := y % 400
  let mp ← i64 (if month > 2 then month - 3 else month + 9)
  let scaled ← i64 (153 * mp)
  let shifted ← i64 (scaled + 2)
  let first ← i64 (shifted / 5 + day)
  let doy ← i64 (first - 1)
  let years ← i64 (yoe * 365)
  let fours ← i64 (years + yoe / 4)
  let centuries ← i64 (fours - yoe / 100)
  let doe ← i64 (centuries + doy)
  let eras ← i64 (era * 146097)
  let days ← i64 (eras + doe)
  i64 (days - 719468)

/-! ## The count of a date -/

/-- The moment some fields stand for. -/
def DateFields.moment (f : DateFields) : Except Overflow Int := do
  let hours ← i64 (f.hour * 3600000)
  let minutes ← i64 (f.minute * 60000)
  let both ← i64 (hours + minutes)
  let seconds ← i64 (f.second * 1000)
  let whole ← i64 (both + seconds)
  let clock ← i64 (whole + f.millis)
  let days ← daysFromCivilI64 f.year f.month f.day
  let midnight ← i64 (days * 86400000)
  i64 (midnight + clock)

/-- `parse_date_millis`, step by step. -/
def parseDateMillisI64 (text : List Char) : Except Overflow (Option Int) :=
  match dateFields text with
  | none => .ok none
  | some f => f.moment.map some

/-! ## The fields of an HTTP date -/

/-- What `parse_http_date` reads. -/
structure HttpFields where
  year : Int
  month : Int
  day : Int
  hour : Int
  minute : Int
  second : Int
deriving DecidableEq, Repr

/-- `months`. -/
def monthNames : List String :=
  ["Jan", "Feb", "Mar", "Apr", "May", "Jun", "Jul", "Aug", "Sep", "Oct", "Nov", "Dec"]

/-- `split_once` at `", "`: what follows the first one. -/
def afterComma : List Char → Option (List Char)
  | ',' :: ' ' :: rest => some rest
  | _ :: rest => afterComma rest
  | [] => none

/-- The day, the month, the year and the clock of an HTTP date's parts. -/
def httpParts : List (List Char) → Option (List Char × List Char × List Char × List Char)
  | [day, month, year, clock, zone] =>
    if zone = "GMT".toList then some (day, month, year, clock) else none
  | _ => none

/-- The fields `parse_http_date` reads and lets through. -/
def httpFields (text : List Char) : Option HttpFields := do
  let rest ← afterComma (trimEnd isWhiteSpace (text.dropWhile isWhiteSpace))
  let (day, month, year, clock) ← httpParts (rest.splitOn ' ')
  let day ← parseInt day
  let year ← parseInt year
  let month ← monthNames.findIdx? (·.toList = month)
  let fields ← (clock.splitOn ':').mapM parseInt
  let (hour, minute, second) ← threeParts fields
  if hour > 23 ∨ minute > 59 ∨ second > 60 ∨ day < 1 ∨ 31 < day then none
  else some ⟨year, month + 1, day, hour, minute, second⟩

/-- The moment some fields stand for. -/
def HttpFields.moment (f : HttpFields) : Except Overflow Int := do
  let days ← daysFromCivilI64 f.year f.month f.day
  let midnight ← i64 (days * 86400000)
  let hours ← i64 (f.hour * 60)
  let minutes ← i64 (hours + f.minute)
  let scaled ← i64 (minutes * 60)
  let seconds ← i64 (scaled + f.second)
  let clock ← i64 (seconds * 1000)
  i64 (midnight + clock)

/-- `parse_http_date`, step by step. -/
def parseHttpDateI64 (text : List Char) : Except Overflow (Option Int) :=
  match httpFields text with
  | none => .ok none
  | some f => f.moment.map some

example : parseDateMillisI64 "2025-02-04T11:00:00.500Z".toList = .ok (some 1738666800500) := by
  decide +kernel

example : parseHttpDateI64 "Sun, 06 Nov 1994 08:49:37 GMT".toList = .ok (some 784111777000) := by
  decide +kernel

/-! ## Bounds of what is read -/

section Bounds

variable {year month day : Int}

/-- The digits of a text make a number of no more digits. -/
theorem digits_foldl_lt {digits : List Char} (h : digits.all Char.isDigit) :
    digits.foldl (fun n c => n * 10 + (c.toNat - '0'.toNat)) 0 < 10 ^ digits.length := by
  have hfold : (fun (n : Nat) (c : Char) => n * 10 + (c.toNat - '0'.toNat))
      = fun n c => 10 * n + (c.toNat - '0'.toNat) := by
    funext n c
    rw [Nat.mul_comm]
  rw [hfold]
  exact ofDigitChars_lt (List.all_eq_true.1 h)

/-- A number read is one an `i64` holds, and has no more digits than its text. -/
theorem parseInt_bounds {text : List Char} {n : Int} (h : parseInt text = some n) :
    InI64 n ∧ n.natAbs < 10 ^ text.length := by
  unfold parseInt at h
  split at h
  rename_i sign digits hmatch
  split_ifs at h with hempty
  obtain ⟨hn, hheld⟩ := Option.filter_eq_some_iff.1 h
  obtain rfl := Option.some.inj hn
  refine ⟨of_decide_eq_true hheld, ?_⟩
  have hdigits : digits.all Char.isDigit := by
    by_contra hnot
    exact hempty (.inr hnot)
  have hlt := digits_foldl_lt hdigits
  have hsign : sign.natAbs = 1 ∧ digits.length ≤ text.length := by
    split at hmatch <;> cases hmatch <;> simp
  rw [Int.natAbs_mul, hsign.1, one_mul, Int.natAbs_natCast]
  exact hlt.trans_le (Nat.pow_le_pow_right (by decide) hsign.2)

/-- What the checks of a clock let through. -/
theorem clockFields_bounds {clock : List Char} {hour minute second millis : Int}
    (h : clockFields clock = some (hour, minute, second, millis)) :
    hour ≤ 23 ∧ minute ≤ 59 ∧ second ≤ 59 ∧ -999 ≤ millis ∧ millis ≤ 999 := by
  unfold clockFields at h
  obtain ⟨fields, -, h⟩ := Option.bind_eq_some_iff.1 h
  obtain ⟨⟨hour', minute', second'⟩, -, h⟩ := Option.bind_eq_some_iff.1 h
  dsimp only at h
  split_ifs at h with hbad
  obtain ⟨ms, hms, h⟩ := Option.bind_eq_some_iff.1 h
  cases h
  have hlength : ((clockSplit clock).2.take 3
      ++ List.replicate (3 - ((clockSplit clock).2.take 3).length) '0').length = 3 := by
    rw [List.length_append, List.length_replicate, List.length_take]
    omega
  have hbound := (parseInt_bounds hms).2
  rw [hlength] at hbound
  omega

theorem timeFields_bounds {time : Option (List Char)} {hour minute second millis : Int}
    (h : timeFields time = some (hour, minute, second, millis)) :
    hour ≤ 23 ∧ minute ≤ 59 ∧ second ≤ 59 ∧ -999 ≤ millis ∧ millis ≤ 999 := by
  cases time with
  | none =>
    cases h
    decide
  | some time =>
    simp only [timeFields] at h
    split_ifs at h
    exact clockFields_bounds h

/-- What the checks of a date let through. -/
theorem dateFields_bounds {text : List Char} {f : DateFields} (h : dateFields text = some f) :
    1 ≤ f.month ∧ f.month ≤ 12 ∧ 1 ≤ f.day ∧ f.day ≤ 31
      ∧ f.hour ≤ 23 ∧ f.minute ≤ 59 ∧ f.second ≤ 59 ∧ -999 ≤ f.millis ∧ f.millis ≤ 999 := by
  unfold dateFields at h
  obtain ⟨fields, -, h⟩ := Option.bind_eq_some_iff.1 h
  obtain ⟨⟨year, month, day⟩, -, h⟩ := Option.bind_eq_some_iff.1 h
  dsimp only at h
  split_ifs at h with hbad
  obtain ⟨⟨hour, minute, second, millis⟩, hclock, h⟩ := Option.bind_eq_some_iff.1 h
  cases h
  have hbounds := timeFields_bounds hclock
  dsimp only
  omega

/-- What the checks of an HTTP date let through. -/
theorem httpFields_bounds {text : List Char} {f : HttpFields} (h : httpFields text = some f) :
    1 ≤ f.month ∧ f.month ≤ 12 ∧ 1 ≤ f.day ∧ f.day ≤ 31
      ∧ f.hour ≤ 23 ∧ f.minute ≤ 59 ∧ f.second ≤ 60 := by
  unfold httpFields at h
  obtain ⟨rest, -, h⟩ := Option.bind_eq_some_iff.1 h
  obtain ⟨⟨day', month', year', clock⟩, -, h⟩ := Option.bind_eq_some_iff.1 h
  obtain ⟨day, -, h⟩ := Option.bind_eq_some_iff.1 h
  obtain ⟨year, -, h⟩ := Option.bind_eq_some_iff.1 h
  obtain ⟨month, hmonth, h⟩ := Option.bind_eq_some_iff.1 h
  obtain ⟨fields, -, h⟩ := Option.bind_eq_some_iff.1 h
  obtain ⟨⟨hour, minute, second⟩, -, h⟩ := Option.bind_eq_some_iff.1 h
  dsimp only at h
  split_ifs at h with hbad
  cases h
  have hlt : month < monthNames.length := (List.findIdx?_eq_some_iff_findIdx_eq.1 hmonth).1
  have hnames : monthNames.length = 12 := rfl
  dsimp only
  omega

/-! ## The count of days -/

/-- The dates whose midnight an `i64` of milliseconds holds, from -292275055-05-17 to
292278994-08-17. -/
def DateHeld (year month day : Int) : Prop :=
  (-292275055 < year ∨ year = -292275055 ∧ (5 < month ∨ month = 5 ∧ 17 ≤ day))
    ∧ (year < 292278994 ∨ year = 292278994 ∧ (month < 8 ∨ month = 8 ∧ day ≤ 17))

instance (year month day : Int) : Decidable (DateHeld year month day) :=
  inferInstanceAs (Decidable (_ ∧ _))

theorem inI64_midnight_iff (hmonth : 1 ≤ month) (hmonth' : month ≤ 12) (hday : 1 ≤ day)
    (hday' : day ≤ 31) :
    InI64 (daysFromCivil year month day * 86400000) ↔ DateHeld year month day := by
  have hdays : InI64 (daysFromCivil year month day * 86400000)
      ↔ -106751991167 ≤ daysFromCivil year month day
        ∧ daysFromCivil year month day ≤ 106751991167 := by
    unfold InI64
    omega
  rw [hdays, Calendar.daysFromCivil_eq]
  unfold DateHeld Calendar.marchDays Calendar.marchYear Calendar.monthStart
  -- the two years with a bound in them, and those before, between and after
  have hyears : year < -292275055 ∨ year = -292275055
      ∨ (-292275055 < year ∧ year < 292278994) ∨ year = 292278994 ∨ 292278994 < year := by omega
  by_cases hfeb : month ≤ 2
  · rw [if_pos hfeb, if_neg (by omega)]
    rcases hyears with h | rfl | h | rfl | h <;> omega
  · rw [if_neg hfeb, if_pos (by omega)]
    rcases hyears with h | rfl | h | rfl | h <;> omega

/-- The last day held. -/
theorem daysFromCivil_eq_last_iff (hmonth : 1 ≤ month) (hmonth' : month ≤ 12) (hday : 1 ≤ day)
    (hday' : day ≤ 31) : daysFromCivil year month day = 106751991167
      ↔ year = 292278994 ∧ month = 8 ∧ day = 17 := by
  rw [Calendar.daysFromCivil_eq]
  unfold Calendar.marchDays Calendar.marchYear Calendar.monthStart
  have hyears : year < 292278994 ∨ year = 292278994 ∨ 292278994 < year := by omega
  by_cases hfeb : month ≤ 2
  · rw [if_pos hfeb, if_neg (by omega)]
    rcases hyears with h | rfl | h <;> omega
  · rw [if_neg hfeb, if_pos (by omega)]
    have hmonths : month < 8 ∨ month = 8 ∨ 8 < month := by omega
    rcases hyears with h | rfl | h
    · omega
    · rcases hmonths with h | rfl | h <;> omega
    · omega

/-- What the count of a date's days comes to, when its midnight is held. -/
theorem daysFromCivilI64_ok (hmonth : 1 ≤ month) (hmonth' : month ≤ 12) (hday : 1 ≤ day)
    (hday' : day ≤ 31) (hheld : InI64 (daysFromCivil year month day * 86400000)) :
    daysFromCivilI64 year month day = .ok (daysFromCivil year month day) := by
  unfold daysFromCivilI64
  unfold InI64 daysFromCivil at hheld
  unfold daysFromCivil
  dsimp only at hheld ⊢
  have hmp : 0 ≤ (if month > 2 then month - 3 else month + 9)
      ∧ (if month > 2 then month - 3 else month + 9) ≤ 11 := by split <;> omega
  generalize (if month ≤ 2 then year - 1 else year) = y at hheld ⊢
  generalize (if month > 2 then month - 3 else month + 9) = mp at hmp hheld ⊢
  have hyoe : 0 ≤ y % 400 ∧ y % 400 < 400 := by omega
  have hera : -300000000 ≤ y / 400 ∧ y / 400 ≤ 300000000 := by omega
  have hy : InI64 y := by unfold InI64; omega
  rw [i64_bind_ok hy]
  generalize y / 400 = era at hera hheld ⊢
  generalize y % 400 = yoe at hyoe hheld ⊢
  iterate 11 rw [i64_bind_ok (by unfold InI64; omega)]
  rw [i64_ok (by unfold InI64; omega)]

/-- A count that ends is the count. -/
theorem daysFromCivilI64_eq {days : Int} (h : daysFromCivilI64 year month day = .ok days) :
    days = daysFromCivil year month day := by
  unfold daysFromCivilI64 at h
  iterate 12 replace h := (i64_bind_eq_ok h).2
  rw [(i64_eq_ok h).2]
  rfl

/-! ## The moment -/

/-- On the last day held, the milliseconds up to 07:12:55.807. -/
def lastClock : Int := 25975807

/-- **When the count of a date goes well**: no part of its clock is below zero, its
midnight is held, and on the last day the clock stops at the last millisecond. -/
structure DateFields.Within (f : DateFields) : Prop where
  hour : 0 ≤ f.hour
  minute : 0 ≤ f.minute
  second : 0 ≤ f.second
  date : DateHeld f.year f.month f.day
  last : f.year = 292278994 → f.month = 8 → f.day = 17 →
    f.hour * 3600000 + f.minute * 60000 + f.second * 1000 + f.millis ≤ lastClock

variable {f : DateFields} {ms : Int}

/-- A moment that is counted is the one of ℤ, and its midnight is held. -/
theorem DateFields.moment_eq_ok (h : f.moment = .ok ms) :
    ms = f.exact ∧ InI64 (daysFromCivil f.year f.month f.day * 86400000) ∧ InI64 ms := by
  unfold DateFields.moment at h
  iterate 6 replace h := (i64_bind_eq_ok h).2
  obtain ⟨days, hdays, h⟩ := except_bind_eq_ok h
  obtain ⟨hmidnight, h⟩ := i64_bind_eq_ok h
  obtain ⟨hms, rfl⟩ := i64_eq_ok h
  obtain rfl := daysFromCivilI64_eq hdays
  exact ⟨rfl, hmidnight, hms⟩

/-- **The count of a date goes well within the bounds.** -/
theorem DateFields.Within.moment_ok {text : List Char} (hf : dateFields text = some f)
    (hw : f.Within) : f.moment = .ok f.exact := by
  obtain ⟨hmonth, hmonth', hday, hday', hhour, hminute, hsecond, hmillis, hmillis'⟩ :=
    dateFields_bounds hf
  obtain ⟨hhour', hminute', hsecond', hdate, hlast⟩ := hw
  have hmidnight := (inI64_midnight_iff hmonth hmonth' hday hday').2 hdate
  have hlast' : daysFromCivil f.year f.month f.day = 106751991167 →
      f.hour * 3600000 + f.minute * 60000 + f.second * 1000 + f.millis ≤ 25975807 := by
    intro heq
    obtain ⟨hyear, hm, hd⟩ := (daysFromCivil_eq_last_iff hmonth hmonth' hday hday').1 heq
    exact hlast hyear hm hd
  unfold DateFields.moment DateFields.exact
  iterate 6 rw [i64_bind_ok (by unfold InI64; omega)]
  rw [daysFromCivilI64_ok hmonth hmonth' hday hday' hmidnight]
  show (i64 _ >>= _) = _
  rw [i64_bind_ok hmidnight, i64_ok (by unfold InI64 at hmidnight ⊢; omega)]

theorem parseDateMillisI64_of_within {text : List Char} (hf : dateFields text = some f)
    (hw : f.Within) : parseDateMillisI64 text = .ok (some f.exact) := by
  unfold parseDateMillisI64
  rw [hf]
  show f.moment.map some = _
  rw [hw.moment_ok hf]
  rfl

/-- A text whose date is counted with no part of its clock below zero is within the
bounds. -/
theorem DateFields.within_of_moment {text : List Char} (hf : dateFields text = some f)
    (h : f.moment = .ok ms) (hhour : 0 ≤ f.hour) (hminute : 0 ≤ f.minute)
    (hsecond : 0 ≤ f.second) : f.Within := by
  obtain ⟨hmonth, hmonth', hday, hday', -⟩ := dateFields_bounds hf
  obtain ⟨rfl, hmidnight, hms⟩ := DateFields.moment_eq_ok h
  refine ⟨hhour, hminute, hsecond, (inI64_midnight_iff hmonth hmonth' hday hday').1 hmidnight,
    fun hyear hm hd => ?_⟩
  have hdays := (daysFromCivil_eq_last_iff hmonth hmonth' hday hday').2 ⟨hyear, hm, hd⟩
  unfold DateFields.exact InI64 at hms
  unfold lastClock
  omega

end Bounds

section HttpBounds

variable {f : HttpFields} {ms : Int}

/-- The seconds of the clock, a part below zero counted as such. -/
def HttpFields.clock (f : HttpFields) : Int := f.hour * 3600 + f.minute * 60 + f.second

/-- The moment some fields stand for, in ℤ. -/
def HttpFields.exact (f : HttpFields) : Int :=
  daysFromCivil f.year f.month f.day * 86400000 + f.clock * 1000

/-- Whether an `i64` holds a number of seconds as milliseconds. -/
def SecondsHeld (n : Int) : Prop := -9223372036854775 ≤ n ∧ n ≤ 9223372036854775

instance (n : Int) : Decidable (SecondsHeld n) := inferInstanceAs (Decidable (_ ∧ _))

/-- **When the count of an HTTP date goes well**: its midnight is held, and so are the
seconds of its clock, from midnight and from the epoch. -/
structure HttpFields.Within (f : HttpFields) : Prop where
  date : DateHeld f.year f.month f.day
  clock : SecondsHeld f.clock
  moment : SecondsHeld (daysFromCivil f.year f.month f.day * 86400 + f.clock)

theorem HttpFields.moment_eq_ok (h : f.moment = .ok ms) :
    ms = f.exact ∧ InI64 (daysFromCivil f.year f.month f.day * 86400000)
      ∧ InI64 (f.clock * 1000) ∧ InI64 ms := by
  unfold HttpFields.moment at h
  obtain ⟨days, hdays, h⟩ := except_bind_eq_ok h
  obtain ⟨hmidnight, h⟩ := i64_bind_eq_ok h
  iterate 4 replace h := (i64_bind_eq_ok h).2
  obtain ⟨hclock, h⟩ := i64_bind_eq_ok h
  obtain ⟨hms, rfl⟩ := i64_eq_ok h
  obtain rfl := daysFromCivilI64_eq hdays
  have hsame : ((f.hour * 60 + f.minute) * 60 + f.second) * 1000 = f.clock * 1000 := by
    unfold HttpFields.clock
    omega
  rw [hsame] at hclock hms
  exact ⟨by rw [hsame]; rfl, hmidnight, hclock, by rw [hsame]; exact hms⟩

/-- **The count of an HTTP date goes well within the bounds**, and only there. -/
theorem HttpFields.moment_ok_iff {text : List Char} (hf : httpFields text = some f) :
    (∃ ms, f.moment = .ok ms) ↔ f.Within := by
  obtain ⟨hmonth, hmonth', hday, hday', hhour, hminute, hsecond⟩ := httpFields_bounds hf
  have hdate := @inI64_midnight_iff f.year _ _ hmonth hmonth' hday hday'
  constructor
  · rintro ⟨ms, h⟩
    obtain ⟨rfl, hmidnight, hclock, hms⟩ := HttpFields.moment_eq_ok h
    refine ⟨hdate.1 hmidnight, ?_, ?_⟩
    · unfold InI64 at hclock
      unfold SecondsHeld
      omega
    · unfold InI64 HttpFields.exact at hms
      unfold SecondsHeld
      omega
  · rintro ⟨hheld, hclock, hsum⟩
    have hmidnight := hdate.2 hheld
    refine ⟨f.exact, ?_⟩
    unfold HttpFields.clock SecondsHeld at hclock hsum
    unfold HttpFields.moment HttpFields.exact HttpFields.clock
    rw [daysFromCivilI64_ok hmonth hmonth' hday hday' hmidnight]
    show (i64 _ >>= _) = _
    rw [i64_bind_ok hmidnight]
    iterate 5 rw [i64_bind_ok (by unfold InI64; omega)]
    have hsame : ((f.hour * 60 + f.minute) * 60 + f.second) * 1000
        = (f.hour * 3600 + f.minute * 60 + f.second) * 1000 := by omega
    rw [hsame, i64_ok (by unfold InI64; omega)]

end HttpBounds

/-! ## Reading well -/

/-- **What is expected of reading a text as a date**: no step of either count overflows,
and a moment that `parse_date_millis` accepts has a clock that there is. -/
structure ReadsWell (text : List Char) : Prop where
  date : ∃ moment, parseDateMillisI64 text = .ok moment
  clock : ∀ f ms, dateFields text = some f → parseDateMillisI64 text = .ok (some ms) →
    (0 ≤ f.hour ∧ f.hour ≤ 23) ∧ (0 ≤ f.minute ∧ f.minute ≤ 59) ∧ (0 ≤ f.second ∧ f.second ≤ 59)
  http : ∃ moment, parseHttpDateI64 text = .ok moment

/-- **Reading a date overflows, or accepts a clock that there is not, for the fields out of
bounds**: a clock with a part below zero, and a day so far away that its milliseconds do
not fit. -/
theorem readsWell_iff (text : List Char) : ReadsWell text
    ↔ (∀ f, dateFields text = some f → f.Within) ∧ ∀ f, httpFields text = some f → f.Within := by
  constructor
  · rintro ⟨⟨moment, hdate⟩, hclock, ⟨moment', hhttp⟩⟩
    refine ⟨fun f hf => ?_, fun f hf => ?_⟩
    · have hmoment : f.moment.map some = .ok moment := by
        rw [← hdate, parseDateMillisI64, hf]
      obtain ⟨ms, hms, rfl⟩ := except_map_eq_ok hmoment
      obtain ⟨⟨hhour, -⟩, ⟨hminute, -⟩, ⟨hsecond, -⟩⟩ := hclock f ms hf hdate
      exact DateFields.within_of_moment hf hms hhour hminute hsecond
    · have hmoment : f.moment.map some = .ok moment' := by
        rw [← hhttp, parseHttpDateI64, hf]
      obtain ⟨ms, hms, -⟩ := except_map_eq_ok hmoment
      exact (HttpFields.moment_ok_iff hf).1 ⟨ms, hms⟩
  · rintro ⟨hdate, hhttp⟩
    refine ⟨?_, fun f ms hf _ => ?_, ?_⟩
    · unfold parseDateMillisI64
      split
      · exact ⟨none, rfl⟩
      · next f hf =>
        rw [(hdate f hf).moment_ok hf]
        exact ⟨some f.exact, rfl⟩
    · obtain ⟨-, -, -, -, hhour, hminute, hsecond, -⟩ := dateFields_bounds hf
      have hw := hdate f hf
      exact ⟨⟨hw.hour, hhour⟩, ⟨hw.minute, hminute⟩, ⟨hw.second, hsecond⟩⟩
    · unfold parseHttpDateI64
      split
      · exact ⟨none, rfl⟩
      · next f hf =>
        obtain ⟨ms, hms⟩ := (HttpFields.moment_ok_iff hf).2 (hhttp f hf)
        rw [hms]
        exact ⟨some ms, rfl⟩

/-- A year too far away overflows, and an hour below zero is accepted. -/
theorem far_year_and_negative_hour : ¬ ReadsWell "300000000-01-01".toList
    ∧ ¬ ReadsWell "2024-01-01T-1:00:00Z".toList := by
  have hfar : parseDateMillisI64 "300000000-01-01".toList = .error .overflow := by
    decide +kernel
  have hread : dateFields "2024-01-01T-1:00:00Z".toList = some ⟨2024, 1, 1, -1, 0, 0, 0⟩ := by
    decide +kernel
  have haccepted : parseDateMillisI64 "2024-01-01T-1:00:00Z".toList = .ok (some 1704063600000) := by
    decide +kernel
  refine ⟨fun h => ?_, fun h => ?_⟩
  · obtain ⟨moment, hmoment⟩ := h.date
    rw [hfar] at hmoment
    cases hmoment
  · exact absurd (h.clock _ _ hread haccepted).1.1 (by decide)

/-! ## Dates as written -/

/-- The years of four digits are the moments from 0000-01-01 to 9999-12-31. -/
theorem fourDigit_of_year {ms : Int} (hfirst : 0 ≤ (Utc.fromUnixMillis ms).year)
    (hlast : (Utc.fromUnixMillis ms).year ≤ 9999) : FourDigit ms := by
  have hmonth := fromUnixMillis_month_pos ms
  have hday := fromUnixMillis_day_pos ms
  refine ⟨?_, ?_⟩
  · by_contra hearly
    have hbefore : ms / 86400000 < -62167219200000 / 86400000 := by omega
    have hdate : Utc.fromUnixMillis (-62167219200000) = ⟨0, 1, 1, 0, 0, 0, 0⟩ := by decide
    have horder := date_lt hbefore
    rw [hdate] at horder
    dsimp only at horder
    omega
  · by_contra hlate
    have hdate : Utc.fromUnixMillis 253402300800000 = ⟨10000, 1, 1, 0, 0, 0, 0⟩ := by decide
    rcases Int.lt_or_eq_of_le (show 253402300800000 / 86400000 ≤ ms / 86400000 by omega) with
      hafter | hsame
    · have horder := date_lt hafter
      rw [hdate] at horder
      dsimp only at horder
      omega
    · have hyear := (date_eq hsame).1
      rw [hdate] at hyear
      dsimp only at hyear
      omega

/-- The day of a moment is one of its month. -/
theorem fromUnixMillis_day_le (ms : Int) : (Utc.fromUnixMillis ms).day
    ≤ Calendar.daysIn (Utc.fromUnixMillis ms).year (Utc.fromUnixMillis ms).month := by
  have hmonth := fromUnixMillis_month_pos ms
  have hnext := (Calendar.day_mem_month ms).2
  have hback := daysFromCivil_fromUnixMillis ms
  rw [Calendar.daysFromCivil_nextMonth _ hmonth (fromUnixMillis_month ms), ← hback,
    Calendar.daysFromCivil_eq, Calendar.daysFromCivil_eq] at hnext
  omega

/-- The text of a moment is counted back. -/
theorem parseDateMillisI64_iso {ms : Int} (h : FourDigit ms) :
    parseDateMillisI64 (Utc.fromUnixMillis ms).isoString.toList = .ok (some ms) := by
  have hfields : dateFields (Utc.fromUnixMillis ms).isoString.toList = some _ := dateFields_iso h
  have hread : parseDateMillis (Utc.fromUnixMillis ms).isoString.toList = some ms :=
    parseDateMillis_iso h
  have hyear := h.year
  rw [parseDateMillis_eq, hfields, Option.map_some, Option.some_inj] at hread
  generalize Utc.fromUnixMillis ms = t at hfields hread hyear
  have hw : DateFields.Within ⟨t.year, t.month, t.day, t.hour, t.minute, t.second, t.millis⟩ := by
    refine ⟨Int.natCast_nonneg _, Int.natCast_nonneg _, Int.natCast_nonneg _,
      ⟨.inl ?_, .inl ?_⟩, fun (hlast : t.year = 292278994) => ?_⟩
    · exact lt_of_lt_of_le (by decide) hyear.1
    · exact hyear.2.trans (by decide)
    · exact absurd hyear.2 (hlast ▸ by decide)
  rw [parseDateMillisI64_of_within hfields hw, hread]

/-- **Dates round-trip.** The text of a moment of a year of four digits is read back as
the moment; its fields are a date that there is; and the texts of two such moments, in the
form of the database, compare as the moments do. -/
theorem dates_round_trip {a b : Int}
    (ha : 0 ≤ (Utc.fromUnixMillis a).year ∧ (Utc.fromUnixMillis a).year ≤ 9999)
    (hb : 0 ≤ (Utc.fromUnixMillis b).year ∧ (Utc.fromUnixMillis b).year ≤ 9999) :
    parseDateMillisI64 (Utc.fromUnixMillis a).isoString.toList = .ok (some a)
      ∧ (let t := Utc.fromUnixMillis a
        (1 ≤ t.month ∧ t.month ≤ 12) ∧ (1 ≤ t.day ∧ t.day ≤ Calendar.daysIn t.year t.month)
          ∧ t.hour ≤ 23 ∧ t.minute ≤ 59 ∧ t.second ≤ 59 ∧ t.millis ≤ 999)
      ∧ ((Utc.fromUnixMillis a).typeormString < (Utc.fromUnixMillis b).typeormString ↔ a < b)
      ∧ ((Utc.fromUnixMillis a).typeormString = (Utc.fromUnixMillis b).typeormString ↔ a = b) := by
  have hfour := fourDigit_of_year ha.1 ha.2
  have hfour' := fourDigit_of_year hb.1 hb.2
  obtain ⟨hhour, hminute, hsecond, hmillis⟩ := fromUnixMillis_time a
  have hmonth := fromUnixMillis_month a
  refine ⟨parseDateMillisI64_iso hfour, ⟨⟨fromUnixMillis_month_pos a, by omega⟩,
    ⟨fromUnixMillis_day_pos a, fromUnixMillis_day_le a⟩, by omega, by omega, by omega, by omega⟩,
    ⟨fun h => ?_, typeormString_lt hfour hfour'⟩, ⟨fun h => ?_, fun h => by rw [h]⟩⟩
  · rcases lt_trichotomy a b with hlt | rfl | hgt
    · exact hlt
    · exact absurd h (String.lt_irrefl _)
    · exact absurd (String.lt_trans h (typeormString_lt hfour' hfour hgt)) (String.lt_irrefl _)
  · rcases lt_trichotomy a b with hlt | heq | hgt
    · exact absurd h (String.ne_of_lt (typeormString_lt hfour hfour' hlt))
    · exact heq
    · exact absurd h.symm (String.ne_of_lt (typeormString_lt hfour' hfour hgt))

/-- The last millisecond of a leap day, and the first one of the next day. -/
theorem dates_round_trip_leap_day :
    parseDateMillisI64 (Utc.fromUnixMillis 951868799999).isoString.toList
        = .ok (some 951868799999)
      ∧ ((Utc.fromUnixMillis 951868799999).typeormString
          < (Utc.fromUnixMillis 951868800000).typeormString) := by
  have h := @dates_round_trip 951868799999 951868800000 (by decide) (by decide)
  exact ⟨h.1, h.2.2.1.2 (by decide)⟩

end Foreseerr

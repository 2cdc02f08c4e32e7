import Foreseerr.Calendar
import Foreseerr.Cron
import Mathlib.Order.Bounds.Basic

/-!
# The moments of a cron expression

The search of `jobs/cron.rs` for the next moment of an expression: a cursor that goes
on by a month, a day, an hour, a minute or a second, to the start of it, until every
field matches, with the marks it keeps at a change of the clock.

In a zone whose clock does not change no moment is passed over: each move passes
moments of one month, day, hour, minute or second whose field does not match. That
holds inside the calendar. Past its end the local clock falls back to 1970, and the
search with it (`falls_back`).
-/

namespace Foreseerr

namespace Cron

open Calendar

/-! ## Local clocks -/

/-- The first moment of `DateTime`. -/
def firstMs : Int := -8334601228800000

/-- The last millisecond of `DateTime`. -/
def lastMs : Int := 8210266876799999

example : firstMs = daysFromCivil (-262143) 1 1 * 86400000 := by decide
example : lastMs = daysFromCivil 262143 1 1 * 86400000 - 1 := by decide

/-- What chrono's calendar holds. -/
def InCalendar (ms : Int) : Prop := firstMs ≤ ms ∧ ms ≤ lastMs

instance (ms : Int) : Decidable (InCalendar ms) := inferInstanceAs (Decidable (_ ∧ _))

/-- `TimeZone`: the seconds a local clock is ahead, at a moment. -/
abbrev Zone := Int → Int

/-- `Unit`. -/
inductive Unit
  | month
  | day
  | hour
  | minute
  | second
deriving DecidableEq, Repr

/-- `offset_ms`. -/
def offsetMs (zone : Zone) (ms : Int) : Int := if InCalendar ms then zone ms * 1000 else 0

/-- `local`, as milliseconds of the local clock. -/
def localMs (zone : Zone) (ms : Int) : Int :=
  let clock := ms + offsetMs zone ms
  if InCalendar clock then clock else 0

/-- `from_local`. -/
def fromLocal (zone : Zone) (clock guess : Int) : Int :=
  let utcGuess := clock - guess
  let o2 := offsetMs zone utcGuess
  if o2 = guess then utcGuess
  else
    let utcGuess := utcGuess - (o2 - guess)
    let o3 := offsetMs zone utcGuess
    if o2 = o3 then utcGuess else clock - Min.min o2 o3

/-- `day_start`. -/
def dayStart (clock : Int) : Int := clock / 86400000 * 86400000

/-- `add_day`. -/
def addDay (zone : Zone) (ms : Int) : Int :=
  let clock := localMs zone ms + 86400000
  if InCalendar clock then
    let moved := fromLocal zone clock (offsetMs zone ms)
    fromLocal zone (dayStart (localMs zone moved)) (offsetMs zone moved)
  else ms

/-- `NaiveDate::from_ymd_opt` of a day that the month has, at its start. -/
def fromYmd (year : Int) (month day : Nat) : Option Int :=
  let clock := daysFromCivil year month day * 86400000
  if InCalendar clock then some clock else none

/-- `add_month`. -/
def addMonth (zone : Zone) (ms : Int) : Int :=
  let clock := localMs zone ms
  let l := Utc.fromUnixMillis clock
  let (year, month) := nextMonth l.year l.month
  match fromYmd year month (Min.min l.day (daysIn year month)) with
  | none => ms
  | some date =>
    let moved := fromLocal zone (date + clock % 86400000) (offsetMs zone ms)
    let m := Utc.fromUnixMillis (localMs zone moved)
    match fromYmd m.year m.month 1 with
    | none => moved
    | some first => fromLocal zone first (offsetMs zone moved)

/-- The milliseconds that `startOf` cuts off to a multiple of. -/
def Unit.length : Unit → Int
  | hour => 3600000
  | minute => 60000
  | second | day | month => 1000

/-- `add_time`. -/
def addTime (zone : Zone) (ms amount : Int) (unit : Unit) : Int :=
  let moved := ms + amount
  fromLocal zone (localMs zone moved / unit.length * unit.length) (offsetMs zone moved)

/-- `add_hour`. -/
def addHour (zone : Zone) (ms : Int) : Int :=
  let next := addTime zone ms 3600000 .hour
  if next ≤ ms then next + 3600000 else next

/-- `add_small`. -/
def addSmall (zone : Zone) (ms : Int) (unit : Unit) : Int :=
  let next := addTime zone ms (if unit = .minute then 60000 else 1000) unit
  if next < ms then next + 3600000 else next

/-- `subtract_hour`. -/
def subtractHour (zone : Zone) (ms : Int) : Int :=
  let moved := ms - 3600000
  let next := fromLocal zone (localMs zone moved / 3600000 * 3600000 + 3599000)
    (offsetMs zone moved)
  if next ≥ ms then next - 3600000 else next

/-! ## Which moments match -/

/-- `match_schedule`. -/
def matchSchedule (value : Int) (sequence : List Atom) : Bool :=
  match sequence.find? fun | .num n => n ≥ value | .text _ => false with
  | some atom => atom = .num value
  | none => sequence.head? = some (.num value)

/-- `has_l`. -/
def hasL (sequence : List Atom) : Bool :=
  sequence.any fun | .text t => t.contains 'L' | .num _ => false

/-- `is_nth_day_match`. The difference of two small numbers is exact. -/
def isNthDayMatch (day : Nat) (nth : ℚ) : Bool :=
  if nth ≥ 6 then false
  else if day < 8 ∧ |nth - 1| < 1 / 2 ^ 52 then true
  else
    let offset := if day % 7 ≠ 0 then 1 else 0
    let occurrence := (day - day % 7) / 7 + offset
    decide (|(occurrence : ℚ) - nth| < 1 / 2 ^ 52)

/-- The weekday of a local clock, from Sunday on. -/
def weekdayOf (clock : Int) : Int := (clock / 86400000 + 4) % 7

/-- The loop of `last_weekday_match`. -/
def lastWeekdayMatch (weekday : Int) (last : Bool) : List Atom → Except String Bool
  | [] => .ok false
  | .num _ :: atoms => lastWeekdayMatch weekday last atoms
  | .text text :: atoms =>
    match text.head?.filter Char.isDigit with
    | none => .error ("Invalid last weekday of the month expression: " ++ String.ofList text)
    | some first =>
      if weekday = ((first.toNat : Int) - 48) % 7 ∧ last then .ok true
      else lastWeekdayMatch weekday last atoms

/-- Whether the weekday field matches, in `next_after`. -/
def weekDayOk (expr : CronExpr) (clock : Int) : Except String Bool :=
  let l := Utc.fromUnixMillis clock
  if matchSchedule (weekdayOf clock) expr.dayOfWeek then .ok true
  else if hasL expr.dayOfWeek then
    lastWeekdayMatch (weekdayOf clock) (l.day + 7 > daysIn l.year l.month) expr.dayOfWeek
  else .ok false

/-- `skip_day` of `next_after`. -/
def skipDay (expr : CronExpr) (clock : Int) : Except String Bool := do
  let l := Utc.fromUnixMillis clock
  let monthDayOk := matchSchedule l.day expr.dayOfMonth
    || (hasL expr.dayOfMonth && l.day = daysIn l.year l.month)
  let weekDayOk ← weekDayOk expr clock
  let anyMonthDay : Bool := (expr.dayOfMonth.length : Int) ≥ daysInMonth l.month
  let anyWeekDay : Bool := expr.dayOfWeek.length = 8
  .ok ((!monthDayOk && (!weekDayOk || anyWeekDay))
    || (anyMonthDay && !anyWeekDay && !weekDayOk)
    || (expr.nthDayOfWeek > 0 && !isNthDayMatch l.day expr.nthDayOfWeek))

/-! ## The search -/

/-- `CronIter`. -/
structure Iter where
  expr : CronExpr
  zone : Zone
  current : Int
  endMs : Option Int
  dstStart : Option Int
  dstEnd : Option Int

/-- `CronIter::new`. -/
def Iter.new (expr : CronExpr) (zone : Zone) (current : Int) (endMs : Option Int) : Iter :=
  { expr, zone, current, endMs, dstStart := none, dstEnd := none }

/-- `shift`. -/
def Iter.shift (it : Iter) (ms : Int) (unit : Unit) : Int × Iter :=
  match unit with
  | .month | .day =>
    let next := if unit = .month then addMonth it.zone ms else addDay it.zone ms
    if next ≠ ms then (next, it)
    else
      let l := Utc.fromUnixMillis (localMs it.zone next)
      if l.minute = 0 ∧ l.second = 0 then (addHour it.zone next, it)
      else if l.minute = 59 ∧ l.second = 59 then (subtractHour it.zone next, it)
      else (next, it)
  | .hour | .minute | .second =>
    let previous : Int := (Utc.fromUnixMillis (localMs it.zone ms)).hour
    let next := if unit = .hour then addHour it.zone ms else addSmall it.zone ms unit
    let l := Utc.fromUnixMillis (localMs it.zone next)
    let hour : Int := l.hour
    let hourSet := it.expr.hour.length ≠ 24
    if hour - previous = 2 then
      (next, if hourSet then { it with dstStart := some hour } else it)
    else if hour = previous ∧ l.minute = 0 ∧ l.second = 0 ∧ hourSet then
      (next, { it with dstEnd := some hour })
    else (next, it)

/-- What one turn of the loop comes to. -/
inductive Look
  | stopped (message : String)
  | moved (current : Int) (it : Iter)
  | found

/-- The turn that moves by a unit. -/
def Iter.move (it : Iter) (current : Int) (unit : Unit) : Look :=
  let (next, it) := it.shift current unit
  .moved next it

/-- One turn of `next_after`'s loop. -/
def Iter.look (it : Iter) (start current : Int) : Look :=
  if it.endMs.any (· < current) then .stopped "Out of the timespan range"
  else
    let clock := localMs it.zone current
    let l := Utc.fromUnixMillis clock
    let hour : Int := l.hour
    match skipDay it.expr clock with
    | .error message => .stopped message
    | .ok true => it.move current .day
    | .ok false =>
      if !matchSchedule l.month it.expr.month then it.move current .month
      else if !matchSchedule hour it.expr.hour && it.dstStart ≠ some hour then
        { it with dstStart := none }.move current .hour
      else if !matchSchedule hour it.expr.hour && !matchSchedule (hour - 1) it.expr.hour then
        .moved (addHour it.zone current) it
      else if matchSchedule hour it.expr.hour && it.dstEnd = some hour then
        { it with dstEnd := none }.move current .hour
      else if !matchSchedule l.minute it.expr.minute then it.move current .minute
      else if !matchSchedule l.second it.expr.second then it.move current .second
      else if start = current then it.move current .second
      else .found

/-- The loop of `next_after`, with the turns that are left. What is found on the last of
them is not answered. -/
def search (start : Int) : Nat → Int → Iter → Except String Int × Iter
  | 0, _, it => (.error "Invalid expression, loop limit exceeded", it)
  | steps + 1, current, it =>
    match it.look start current with
    | .stopped message => (.error message, it)
    | .moved current it => search start steps current it
    | .found =>
      if steps = 0 then (.error "Invalid expression, loop limit exceeded", it)
      else (.ok current, { it with current })

/-- `LOOP_LIMIT`. -/
def loopLimit : Nat := 10000

/-- `next_after`. -/
def Iter.nextAfter (it : Iter) : Except String Int × Iter :=
  search it.current loopLimit it.current it

/-! ## A clock that does not change -/

section Fixed

variable {offset c : Int}

/-- The cursor and its local clock are in the calendar, with room for a move. -/
structure Room (offset c : Int) : Prop where
  ahead : offset < 86400
  behind : -86400 < offset
  first : firstMs ≤ c
  firstClock : firstMs ≤ c + offset * 1000
  last : c + 40 * 86400000 ≤ lastMs

theorem offsetMs_fixed (h : InCalendar c) : offsetMs (fun _ => offset) c = offset * 1000 := if_pos h

theorem localMs_fixed (h : InCalendar c) (hclock : InCalendar (c + offset * 1000)) :
    localMs (fun _ => offset) c = c + offset * 1000 := by
  unfold localMs
  rw [offsetMs_fixed h]
  exact if_pos hclock

theorem fromLocal_fixed (h : InCalendar (c - offset * 1000)) :
    fromLocal (fun _ => offset) c (offset * 1000) = c - offset * 1000 := by
  unfold fromLocal
  dsimp only
  rw [offsetMs_fixed h]
  exact if_pos rfl

namespace Room

theorem inCalendar (h : Room offset c) {t : Int} (hfrom : c ≤ t) (hto : t ≤ c + 39 * 86400000) :
    InCalendar t := by
  obtain ⟨-, -, hfirst, -, hlast⟩ := h
  unfold InCalendar
  omega

theorem inCalendar_clock (h : Room offset c) {t : Int} (hfrom : c ≤ t)
    (hto : t ≤ c + 39 * 86400000) : InCalendar (t + offset * 1000) := by
  obtain ⟨hahead, -, -, hclock, hlast⟩ := h
  unfold InCalendar
  omega

theorem localMs_eq (h : Room offset c) {t : Int} (hfrom : c ≤ t) (hto : t ≤ c + 39 * 86400000) :
    localMs (fun _ => offset) t = t + offset * 1000 :=
  localMs_fixed (h.inCalendar hfrom hto) (h.inCalendar_clock hfrom hto)

theorem offsetMs_eq (h : Room offset c) {t : Int} (hfrom : c ≤ t) (hto : t ≤ c + 39 * 86400000) :
    offsetMs (fun _ => offset) t = offset * 1000 :=
  offsetMs_fixed (h.inCalendar hfrom hto)

/-- The moment of a local clock's time. -/
theorem fromLocal_eq (h : Room offset c) {clock : Int} (hfrom : c ≤ clock - offset * 1000)
    (hto : clock - offset * 1000 ≤ c + 39 * 86400000) :
    fromLocal (fun _ => offset) clock (offset * 1000) = clock - offset * 1000 :=
  fromLocal_fixed (h.inCalendar hfrom hto)

/-- A day on is the start of the next one. -/
theorem addDay_eq (h : Room offset c) : addDay (fun _ => offset) c
    = ((c + offset * 1000) / 86400000 + 1) * 86400000 - offset * 1000 := by
  unfold addDay
  dsimp only
  rw [h.localMs_eq (Int.le_refl c) (by omega), h.offsetMs_eq (Int.le_refl c) (by omega),
    if_pos (by rw [Int.add_right_comm]; exact h.inCalendar_clock (by omega) (by omega)),
    h.fromLocal_eq (by omega) (by omega), h.offsetMs_eq (by omega) (by omega),
    h.localMs_eq (by omega) (by omega), dayStart, h.fromLocal_eq (by omega) (by omega)]
  omega

/-- A month on is the start of the next one. -/
theorem addMonth_eq (h : Room offset c) : let l := Utc.fromUnixMillis (c + offset * 1000)
    addMonth (fun _ => offset) c = daysFromCivil (nextMonth l.year l.month).1
      (nextMonth l.year l.month).2 1 * 86400000 - offset * 1000 := by
  intro l
  have hmonth : 0 < l.month ∧ l.month < 13 := ⟨fromUnixMillis_month_pos _, fromUnixMillis_month _⟩
  have hday : 0 < l.day := fromUnixMillis_day_pos _
  have hlength := daysIn_bounds l.year l.month
  have hto := (day_mem_month (c + offset * 1000)).2
  have hstart := daysFromCivil_nextMonth l.year hmonth.1 hmonth.2
  have hback : daysFromCivil l.year l.month l.day = (c + offset * 1000) / 86400000 :=
    daysFromCivil_fromUnixMillis _
  have hnext := nextMonth_bounds l.year hmonth.2
  change (c + offset * 1000) / 86400000
    < daysFromCivil (nextMonth l.year l.month).1 (nextMonth l.year l.month).2 1 at hto
  unfold addMonth
  rw [h.localMs_eq (Int.le_refl c) (by omega), h.offsetMs_eq (Int.le_refl c) (by omega)]
  dsimp only
  change (match fromYmd (nextMonth l.year l.month).1 (nextMonth l.year l.month).2
      (Min.min l.day (daysIn (nextMonth l.year l.month).1 (nextMonth l.year l.month).2)) with
    | none => c
    | some date => _) = _
  generalize (nextMonth l.year l.month).1 = year at *
  generalize (nextMonth l.year l.month).2 = month at *
  have hlength' := daysIn_bounds year month
  have hafter := daysFromCivil_nextMonth year hnext.1 hnext.2
  obtain ⟨day, hdayEq⟩ : ∃ day, day = Min.min l.day (daysIn year month) := ⟨_, rfl⟩
  rw [← hdayEq]
  have hday' : 0 < day ∧ day ≤ l.day ∧ day ≤ daysIn year month := by omega
  rw [daysFromCivil_eq] at hback
  rw [daysFromCivil_eq _ _ 1, daysFromCivil_eq l.year] at hstart
  have hdays : daysFromCivil year month day = daysFromCivil year month 1 + day - 1 := by
    rw [daysFromCivil_eq, daysFromCivil_eq]
    omega
  have hfirst : daysFromCivil year month 1 + l.day
      = (c + offset * 1000) / 86400000 + daysIn l.year l.month + 1 := by
    rw [daysFromCivil_eq]
    omega
  obtain ⟨days, hdaysEq⟩ : ∃ days, days = daysFromCivil year month 1 := ⟨_, rfl⟩
  rw [← hdaysEq] at hto hafter hdays hfirst
  have hin : fromYmd year month day = some ((days + day - 1) * 86400000) := by
    unfold fromYmd
    dsimp only
    rw [hdays, if_pos]
    have := h.inCalendar_clock (t := (days + day - 1) * 86400000 - offset * 1000) (by omega)
      (by omega)
    rwa [Int.sub_add_cancel] at this
  have hin' : fromYmd year month 1 = some (days * 86400000) := by
    unfold fromYmd
    dsimp only
    rw [Nat.cast_one, ← hdaysEq, if_pos]
    have := h.inCalendar_clock (t := days * 86400000 - offset * 1000) (by omega) (by omega)
    rwa [Int.sub_add_cancel] at this
  -- the same day and time of the next month, and from there to its start
  obtain ⟨moved, hmoved⟩ : ∃ moved, moved
      = (days + day - 1) * 86400000 + (c + offset * 1000) % 86400000 := ⟨_, rfl⟩
  have hdate := @date_of_month year month moved hnext.1 hnext.2 (by omega) (by omega)
  rw [hin]
  dsimp only
  rw [← hmoved, h.fromLocal_eq (by omega) (by omega), h.localMs_eq (by omega) (by omega),
    Int.sub_add_cancel, hdate.1, hdate.2, hin', ← hdaysEq]
  dsimp only
  rw [h.offsetMs_eq (by omega) (by omega), h.fromLocal_eq (by omega) (by omega)]

/-- The start of the next hour, minute or second. -/
theorem addTime_eq (h : Room offset c) {unit : Unit} (hunit : unit.length ≤ 3600000) :
    addTime (fun _ => offset) c unit.length unit
      = (c + offset * 1000) / unit.length * unit.length + unit.length - offset * 1000 := by
  have hpos : 0 < unit.length := by cases unit <;> decide
  unfold addTime
  dsimp only
  rw [h.localMs_eq (by omega) (by omega), h.offsetMs_eq (by omega) (by omega)]
  have hcut : (c + unit.length + offset * 1000) / unit.length * unit.length
      = (c + offset * 1000) / unit.length * unit.length + unit.length := by
    rw [Int.add_right_comm, Int.add_ediv_of_dvd_right (Int.dvd_refl _),
      Int.ediv_self (Int.ne_of_gt hpos), Int.add_mul, Int.one_mul]
  have hle := Int.ediv_mul_le (c + offset * 1000) (Int.ne_of_gt hpos)
  have hlt := Int.lt_ediv_add_one_mul_self (c + offset * 1000) hpos
  rw [Int.add_mul, Int.one_mul] at hlt
  rw [hcut]
  exact h.fromLocal_eq (by omega) (by omega)

end Room

/-! ## One move -/

theorem hour_eq (clock : Int) :
    ((Utc.fromUnixMillis clock).hour : Int) = clock / 3600000 % 24 := by
  simp only [Utc.fromUnixMillis]
  omega

theorem minute_eq (clock : Int) :
    ((Utc.fromUnixMillis clock).minute : Int) = clock / 60000 % 60 := by
  simp only [Utc.fromUnixMillis]
  omega

theorem second_eq (clock : Int) :
    ((Utc.fromUnixMillis clock).second : Int) = clock / 1000 % 60 := by
  simp only [Utc.fromUnixMillis]
  omega

/-- No hour is left out and none comes twice: the next unit's start leaves no mark. -/
theorem no_mark {clock next : Int} (hlt : clock < next) (hle : next ≤ clock + 3600000)
    (hwhole : next % 1000 = 0) : let l := Utc.fromUnixMillis next
    let previous : Int := (Utc.fromUnixMillis clock).hour
    (l.hour : Int) - previous ≠ 2
      ∧ ¬ ((l.hour : Int) = previous ∧ l.minute = 0 ∧ l.second = 0) := by
  intro l previous
  have hhour : (l.hour : Int) = next / 3600000 % 24 := hour_eq next
  have hprevious : previous = clock / 3600000 % 24 := hour_eq clock
  have hminute : (l.minute : Int) = next / 60000 % 60 := minute_eq next
  have hsecond : (l.second : Int) = next / 1000 % 60 := second_eq next
  have hsteps : next / 3600000 = clock / 3600000 ∨ next / 3600000 = clock / 3600000 + 1 := by omega
  constructor
  · omega
  · rintro ⟨hsame, hmin, hsec⟩
    have hstart : next % 3600000 = 0 := by omega
    omega

variable {it : Iter}

/-- **A move by a unit of time**: to the start of the next one. -/
theorem shift_time_eq (h : Room offset c) (hzone : it.zone = fun _ => offset) {unit : Unit}
    (hunit : unit = .hour ∨ unit = .minute ∨ unit = .second) : it.shift c unit
      = ((c + offset * 1000) / unit.length * unit.length + unit.length - offset * 1000, it) := by
  have hlength : 0 < unit.length ∧ unit.length ≤ 3600000 ∧ unit.length % 1000 = 0 := by
    rcases hunit with rfl | rfl | rfl <;> decide
  have htime := h.addTime_eq hlength.2.1
  have hle := Int.ediv_mul_le (c + offset * 1000) (Int.ne_of_gt hlength.1)
  have hlt := Int.lt_ediv_add_one_mul_self (c + offset * 1000) hlength.1
  rw [Int.add_mul, Int.one_mul] at hlt
  have hwhole : ((c + offset * 1000) / unit.length * unit.length + unit.length) % 1000 = 0 := by
    have hdvd := Int.dvd_of_emod_eq_zero hlength.2.2
    exact Int.emod_eq_zero_of_dvd (Int.dvd_add (Dvd.dvd.mul_left hdvd _) hdvd)
  obtain ⟨next, hnext⟩ : ∃ next, next
      = (c + offset * 1000) / unit.length * unit.length + unit.length := ⟨_, rfl⟩
  rw [← hnext] at htime hlt hwhole ⊢
  obtain ⟨htwo, hsame⟩ := no_mark hlt (by omega) hwhole
  have hclock : localMs (fun _ => offset) (next - offset * 1000) = next := by
    rw [h.localMs_eq (by omega) (by omega), Int.sub_add_cancel]
  have hmove : (if unit = .hour then addHour it.zone c else addSmall it.zone c unit)
      = next - offset * 1000 := by
    rw [hzone]
    rcases hunit with rfl | rfl | rfl
    · change (if addTime _ c Unit.hour.length .hour ≤ c then _
        else addTime _ c Unit.hour.length .hour) = _
      rw [htime, if_neg (by omega)]
    · change (if addTime _ c Unit.minute.length .minute < c then _
        else addTime _ c Unit.minute.length .minute) = _
      rw [htime, if_neg (by omega)]
    · change (if addTime _ c Unit.second.length .second < c then _
        else addTime _ c Unit.second.length .second) = _
      rw [htime, if_neg (by omega)]
  have hprevious := h.localMs_eq (Int.le_refl c) (by omega)
  have hfalse : ¬ ((((Utc.fromUnixMillis next).hour : Int)
      = (Utc.fromUnixMillis (c + offset * 1000)).hour) ∧ (Utc.fromUnixMillis next).minute = 0
        ∧ (Utc.fromUnixMillis next).second = 0 ∧ it.expr.hour.length ≠ 24) :=
    fun hmark => hsame ⟨hmark.1, hmark.2.1, hmark.2.2.1⟩
  have hgoal : it.shift c unit = (let next := next - offset * 1000
      (next, it)) := by
    unfold Iter.shift
    rcases hunit with rfl | rfl | rfl <;>
    · dsimp only
      rw [hmove, hzone, hclock, hprevious, if_neg htwo, if_neg hfalse]
  exact hgoal

/-- A move by a day. -/
theorem shift_day_eq (h : Room offset c) (hzone : it.zone = fun _ => offset) :
    it.shift c .day
      = (((c + offset * 1000) / 86400000 + 1) * 86400000 - offset * 1000, it) := by
  have hmove := h.addDay_eq
  unfold Iter.shift
  dsimp only
  rw [if_neg (by decide : ¬ Unit.day = Unit.month), hzone, hmove, if_pos (by omega)]

/-- A move by a month. -/
theorem shift_month_eq (h : Room offset c) (hzone : it.zone = fun _ => offset) :
    let l := Utc.fromUnixMillis (c + offset * 1000)
    it.shift c .month = (daysFromCivil (nextMonth l.year l.month).1
      (nextMonth l.year l.month).2 1 * 86400000 - offset * 1000, it) := by
  intro l
  have hmove := h.addMonth_eq
  have hto := (day_mem_month (c + offset * 1000)).2
  unfold Iter.shift
  dsimp only at hmove hto ⊢
  rw [if_pos rfl, hzone, hmove, if_pos (by omega)]

/-- When the local clock's next unit starts. -/
def nextStart (offset c : Int) (unit : Unit) : Int :=
  let clock := c + offset * 1000
  let l := Utc.fromUnixMillis clock
  let start := match unit with
    | .month => daysFromCivil (nextMonth l.year l.month).1 (nextMonth l.year l.month).2 1 * 86400000
    | .day => (clock / 86400000 + 1) * 86400000
    | .hour | .minute | .second => clock / unit.length * unit.length + unit.length
  start - offset * 1000

/-- **A move by a unit** goes to the start of the next one, and leaves no mark. -/
theorem shift_eq (h : Room offset c) (hzone : it.zone = fun _ => offset) (unit : Unit) :
    it.shift c unit = (nextStart offset c unit, it) := by
  cases unit with
  | month => exact shift_month_eq h hzone
  | day => exact shift_day_eq h hzone
  | hour => exact shift_time_eq h hzone (.inl rfl)
  | minute => exact shift_time_eq h hzone (.inr (.inl rfl))
  | second => exact shift_time_eq h hzone (.inr (.inr rfl))

/-! ## What matches -/

/-- A field of numbers, in order. -/
structure Numbers (sequence : List Atom) : Prop where
  num : ∀ atom ∈ sequence, ∃ n, atom = .num n
  sorted : sequence.Pairwise fun a b => Atom.le a b = true

/-- The first number from a value on is the value where the field has it. -/
theorem matchSchedule_iff {sequence : List Atom} (h : Numbers sequence) (value : Int) :
    matchSchedule value sequence = true ↔ Atom.num value ∈ sequence := by
  obtain ⟨hnum, hsorted⟩ := h
  unfold matchSchedule
  induction sequence with
  | nil => simp
  | cons atom sequence ih =>
    obtain ⟨n, rfl⟩ := hnum atom List.mem_cons_self
    have hfirst := (List.pairwise_cons.1 hsorted).1
    rw [List.find?_cons]
    by_cases hn : n ≥ value
    · simp only [hn, decide_true, decide_eq_true_eq, List.mem_cons]
      constructor
      · exact fun heq => .inl heq.symm
      · rintro (heq | hmem)
        · exact heq.symm
        · -- a value further on is no smaller
          have hle : n ≤ value := of_decide_eq_true (hfirst _ hmem)
          rw [Int.le_antisymm hle hn]
    · have hne : Atom.num value ≠ .num n := fun heq => hn (by cases heq; exact Int.le_refl _)
      have ih' := ih (fun a ha => hnum a (List.mem_cons_of_mem _ ha))
        (List.pairwise_cons.1 hsorted).2
      simp only [hn, decide_false, List.mem_cons, hne, false_or]
      rw [← ih']
      cases hfind : sequence.find? fun | .num n => decide (n ≥ value) | .text _ => false with
      | some found => rfl
      | none =>
        -- no number is as large, so neither head is the value
        have hhead : sequence.head? ≠ some (.num value) := by
          intro hhead
          have := List.find?_eq_none.1 hfind _ (List.mem_of_mem_head? hhead)
          simp at this
        simp [hhead, Ne.symm hne]

/-- A whole second whose local fields are in the expression's, on a day that is not
skipped. -/
structure Matches (expr : CronExpr) (offset t : Int) : Prop where
  whole : t % 1000 = 0
  second : .num (Utc.fromUnixMillis (t + offset * 1000)).second ∈ expr.second
  minute : .num (Utc.fromUnixMillis (t + offset * 1000)).minute ∈ expr.minute
  hour : .num (Utc.fromUnixMillis (t + offset * 1000)).hour ∈ expr.hour
  month : .num (Utc.fromUnixMillis (t + offset * 1000)).month ∈ expr.month
  day : skipDay expr (t + offset * 1000) = .ok false

/-- The fields that are compared number by number. -/
structure Fields (expr : CronExpr) : Prop where
  second : Numbers expr.second
  minute : Numbers expr.minute
  hour : Numbers expr.hour
  month : Numbers expr.month

/-- The day test is one for all moments of a local day. -/
theorem skipDay_congr (expr : CronExpr) {a b : Int} (h : a / 86400000 = b / 86400000) :
    skipDay expr a = skipDay expr b := by
  obtain ⟨hyear, hmonth, hday⟩ := date_eq h
  unfold skipDay weekDayOk weekdayOf
  dsimp only
  rw [hyear, hmonth, hday, h]

/-! ## One turn -/

/-- A move that passes no moment the expression has after the start. -/
structure Passes (expr : CronExpr) (offset start c next : Int) : Prop where
  lt : c < next
  le : next ≤ c + 31 * 86400000
  whole : next % 1000 = 0
  none : ∀ t, start < t → c ≤ t → t < next → ¬ Matches expr offset t

/-- An iterator whose zone's clock does not change, and that has no mark of a change. -/
structure Fresh (offset : Int) (it : Iter) : Prop where
  zone : it.zone = fun _ => offset
  dstStart : it.dstStart = none
  dstEnd : it.dstEnd = none

variable {start next : Int} {it' : Iter}

/-- A day that is skipped has no moment. -/
theorem passes_day (hahead : -86400 < offset ∧ offset < 86400)
    (hskip : skipDay it.expr (c + offset * 1000) = .ok true) :
    Passes it.expr offset start c (nextStart offset c .day) where
  lt := by simp only [nextStart]; omega
  le := by simp only [nextStart]; omega
  whole := by simp only [nextStart]; omega
  none := by
    intro t _ hfrom hto hmatches
    simp only [nextStart] at hto
    have hday := hmatches.day
    have hsame : (t + offset * 1000) / 86400000 = (c + offset * 1000) / 86400000 := by omega
    rw [skipDay_congr it.expr hsame, hskip] at hday
    cases hday

/-- A month that is not in the expression has no moment. -/
theorem passes_month (hfields : Fields it.expr)
    (hmonth : ¬ matchSchedule (Utc.fromUnixMillis (c + offset * 1000)).month it.expr.month = true) :
    Passes it.expr offset start c (nextStart offset c .month) := by
  obtain ⟨l, hl⟩ : ∃ l, l = Utc.fromUnixMillis (c + offset * 1000) := ⟨_, rfl⟩
  obtain ⟨hfirst, hlast⟩ := day_mem_month (c + offset * 1000)
  have hbounds : 0 < l.month ∧ l.month < 13 := by
    rw [hl]
    exact ⟨fromUnixMillis_month_pos _, fromUnixMillis_month _⟩
  unfold nextStart
  dsimp only at hfirst hlast ⊢
  rw [← hl] at hfirst hlast hmonth ⊢
  have hlength := daysIn_bounds l.year l.month
  have hstart := daysFromCivil_nextMonth l.year hbounds.1 hbounds.2
  refine ⟨by omega, by omega, by omega, ?_⟩
  intro t _ hfrom hto hmatches
  have hmem := (matchSchedule_iff hfields.month _).2 hmatches.month
  have hsame := @date_of_month l.year l.month (t + offset * 1000) hbounds.1 hbounds.2 (by omega)
    (by omega)
  rw [hsame.2] at hmem
  exact hmonth hmem

/-- An hour, a minute or a second that is not in the expression, or the start's own
second, has no moment. -/
theorem passes_time {unit : Unit} (hunit : unit = .hour ∨ unit = .minute ∨ unit = .second)
    (hnone : ∀ t, start < t → c ≤ t → (t + offset * 1000) / unit.length
      = (c + offset * 1000) / unit.length → ¬ Matches it.expr offset t) :
    Passes it.expr offset start c (nextStart offset c unit) := by
  have hnext : nextStart offset c unit
      = (c + offset * 1000) / unit.length * unit.length + unit.length - offset * 1000 := by
    rcases hunit with rfl | rfl | rfl <;> rfl
  rw [hnext]
  have hlength : 0 < unit.length ∧ unit.length ≤ 3600000 ∧ unit.length % 1000 = 0 := by
    rcases hunit with rfl | rfl | rfl <;> decide
  have hle := Int.ediv_mul_le (c + offset * 1000) (Int.ne_of_gt hlength.1)
  have hlt := Int.lt_ediv_add_one_mul_self (c + offset * 1000) hlength.1
  have hdvd := Int.dvd_of_emod_eq_zero hlength.2.2
  have hwhole : (c + offset * 1000) / unit.length * unit.length % 1000 = 0 :=
    Int.emod_eq_zero_of_dvd (Dvd.dvd.mul_left hdvd _)
  rw [Int.add_mul, Int.one_mul] at hlt
  refine ⟨by omega, by omega, by omega, ?_⟩
  intro t hstart hfrom hto
  refine hnone t hstart hfrom (Int.le_antisymm ?_ ?_)
  · refine Int.le_of_lt_add_one ((Int.ediv_lt_iff_lt_mul hlength.1).2 ?_)
    rw [Int.add_mul, Int.one_mul]
    omega
  · exact Int.ediv_le_ediv hlength.1 (by omega)

/-- One turn, where the clock does not change. -/
theorem look_eq (h : Room offset c) (hfresh : Fresh offset it) : it.look start c =
    let clock := c + offset * 1000
    let l := Utc.fromUnixMillis clock
    if it.endMs.any (· < c) then .stopped "Out of the timespan range"
    else match skipDay it.expr clock with
      | .error message => .stopped message
      | .ok true => .moved (nextStart offset c .day) it
      | .ok false =>
        if !matchSchedule l.month it.expr.month then .moved (nextStart offset c .month) it
        else if !matchSchedule l.hour it.expr.hour then .moved (nextStart offset c .hour) it
        else if !matchSchedule l.minute it.expr.minute then .moved (nextStart offset c .minute) it
        else if !matchSchedule l.second it.expr.second then .moved (nextStart offset c .second) it
        else if start = c then .moved (nextStart offset c .second) it
        else .found := by
  obtain ⟨expr, zone, current, endMs, dstStart, dstEnd⟩ := it
  obtain ⟨rfl, rfl, rfl⟩ : zone = (fun _ => offset) ∧ dstStart = none ∧ dstEnd = none :=
    ⟨hfresh.zone, hfresh.dstStart, hfresh.dstEnd⟩
  have hclock := h.localMs_eq (Int.le_refl c) (by omega)
  unfold Iter.look Iter.move
  dsimp only
  rw [hclock]
  simp only [shift_eq h]
  -- no hour is marked, so one that is not in the expression moves on
  simp only [reduceCtorEq, ne_eq, not_false_eq_true, decide_true, decide_false, Bool.and_true,
    Bool.and_false, Bool.false_eq_true, if_false]
  cases matchSchedule (Utc.fromUnixMillis (c + offset * 1000)).hour expr.hour with
  | false => rfl
  | true => rfl

/-- **A turn that goes on** passes no moment of the expression. -/
theorem look_moved (h : Room offset c) (hfields : Fields it.expr) (hfresh : Fresh offset it)
    (hlook : it.look start c = .moved next it') :
    it' = it ∧ Passes it.expr offset start c next := by
  rw [look_eq h hfresh] at hlook
  dsimp only at hlook
  split at hlook
  · cases hlook
  split at hlook
  · cases hlook
  · next hskip =>
    cases hlook
    exact ⟨rfl, passes_day ⟨h.behind, h.ahead⟩ hskip⟩
  split at hlook
  · next hmonth =>
    cases hlook
    exact ⟨rfl, passes_month hfields (by simpa using hmonth)⟩
  split at hlook
  · next hhour =>
    cases hlook
    refine ⟨rfl, passes_time (.inl rfl) fun t _ _ hsame hmatches => ?_⟩
    have hmem := (matchSchedule_iff hfields.hour _).2 hmatches.hour
    rw [hour_eq, show (t + offset * 1000) / 3600000 = (c + offset * 1000) / 3600000 from hsame,
      ← hour_eq] at hmem
    rw [hmem] at hhour
    cases hhour
  split at hlook
  · next hminute =>
    cases hlook
    refine ⟨rfl, passes_time (.inr (.inl rfl)) fun t _ _ hsame hmatches => ?_⟩
    have hmem := (matchSchedule_iff hfields.minute _).2 hmatches.minute
    rw [minute_eq, show (t + offset * 1000) / 60000 = (c + offset * 1000) / 60000 from hsame,
      ← minute_eq] at hmem
    rw [hmem] at hminute
    cases hminute
  split at hlook
  · next hsecond =>
    cases hlook
    refine ⟨rfl, passes_time (.inr (.inr rfl)) fun t _ _ hsame hmatches => ?_⟩
    have hmem := (matchSchedule_iff hfields.second _).2 hmatches.second
    rw [second_eq, show (t + offset * 1000) / 1000 = (c + offset * 1000) / 1000 from hsame,
      ← second_eq] at hmem
    rw [hmem] at hsecond
    cases hsecond
  split at hlook
  · next hstart =>
    -- the start's own second: a whole one after the start is a later one
    cases hlook
    refine ⟨rfl, passes_time (.inr (.inr rfl)) fun t hlater _ hsame hmatches => ?_⟩
    have hwhole := hmatches.whole
    have hseconds : (t + offset * 1000) / 1000 = (c + offset * 1000) / 1000 := hsame
    omega
  · cases hlook

/-- **What a turn finds** is a moment of the expression. -/
theorem look_found (h : Room offset c) (hfields : Fields it.expr) (hfresh : Fresh offset it)
    (hwhole : start ≠ c → c % 1000 = 0) (hlook : it.look start c = .found) :
    start ≠ c ∧ Matches it.expr offset c := by
  rw [look_eq h hfresh] at hlook
  dsimp only at hlook
  split at hlook
  · cases hlook
  split at hlook
  · cases hlook
  · cases hlook
  next hskip =>
  split at hlook
  · cases hlook
  next hmonth =>
  split at hlook
  · cases hlook
  next hhour =>
  split at hlook
  · cases hlook
  next hminute =>
  split at hlook
  · cases hlook
  next hsecond =>
  split at hlook
  · cases hlook
  next hlater =>
  rw [Bool.not_eq_true', Bool.not_eq_false] at hmonth hhour hminute hsecond
  exact ⟨hlater, {
    whole := hwhole hlater
    second := (matchSchedule_iff hfields.second _).1 hsecond
    minute := (matchSchedule_iff hfields.minute _).1 hminute
    hour := (matchSchedule_iff hfields.hour _).1 hhour
    month := (matchSchedule_iff hfields.month _).1 hmonth
    day := hskip }⟩

/-! ## The search -/

/-- Where the cursor is in a search: nothing was passed, and there is room for the turns
that are left, or a moment ahead that is met before there is none. -/
structure Cursor (expr : CronExpr) (offset start : Int) (steps : Nat) (c : Int) : Prop where
  room : Room offset c
  ge : start ≤ c
  whole : start ≠ c → c % 1000 = 0
  none : ∀ t, start < t → t < c → ¬ Matches expr offset t
  ahead : c + (steps + 1) * (31 * 86400000) + 9 * 86400000 ≤ lastMs
    ∨ ∃ t, start < t ∧ c ≤ t ∧ t + 40 * 86400000 ≤ lastMs ∧ Matches expr offset t

theorem Cursor.move {steps : Nat} (h : Cursor it.expr offset start (steps + 1) c)
    (hmove : Passes it.expr offset start c next) : Cursor it.expr offset start steps next := by
  obtain ⟨hlt, hle, hwhole, hnone⟩ := hmove
  obtain ⟨hroom, hge, -, hpassed, hahead⟩ := h
  have hnone' : ∀ t, start < t → t < next → ¬ Matches it.expr offset t := by
    intro t hstart hto
    by_cases hfrom : c ≤ t
    · exact hnone t hstart hfrom hto
    · exact hpassed t hstart (by omega)
  have hahead' : next + (steps + 1) * (31 * 86400000) + 9 * 86400000 ≤ lastMs
      ∨ ∃ t, start < t ∧ next ≤ t ∧ t + 40 * 86400000 ≤ lastMs ∧ Matches it.expr offset t := by
    rcases hahead with hsteps | ⟨t, hstart, -, hlast, hmatches⟩
    · left
      push_cast at hsteps
      omega
    · refine .inr ⟨t, hstart, ?_, hlast, hmatches⟩
      by_contra hto
      exact hnone' t hstart (by omega) hmatches
  refine ⟨⟨hroom.ahead, hroom.behind, ?_, ?_, ?_⟩, by omega, fun _ => hwhole, hnone', hahead'⟩
  · exact le_trans hroom.first (le_of_lt hlt)
  · exact le_trans hroom.firstClock (by omega)
  · rcases hahead' with hsteps | ⟨t, -, hto, hlast, -⟩
    · omega
    · omega

/-- **What a search answers** is the first moment of the expression after its start. -/
theorem search_spec {steps : Nat} (hfields : Fields it.expr) (hfresh : Fresh offset it)
    (h : Cursor it.expr offset start steps c) {t : Int}
    (hsearch : search start steps c it = (.ok t, it')) :
    it' = { it with current := t } ∧ IsLeast {u | start < u ∧ Matches it.expr offset u} t := by
  induction steps generalizing c with
  | zero => cases hsearch
  | succ steps ih =>
    rw [search] at hsearch
    cases hlook : it.look start c with
    | stopped message =>
      rw [hlook] at hsearch
      cases hsearch
    | moved next it'' =>
      rw [hlook] at hsearch
      obtain ⟨rfl, hmove⟩ := look_moved h.room hfields hfresh hlook
      exact ih (h.move hmove) hsearch
    | found =>
      rw [hlook] at hsearch
      dsimp only at hsearch
      split at hsearch
      · cases hsearch
      · cases hsearch
        obtain ⟨hne, hmatches⟩ := look_found h.room hfields hfresh h.whole hlook
        have hlater : start < t := lt_of_le_of_ne h.ge hne
        refine ⟨rfl, ⟨hlater, hmatches⟩, ?_⟩
        rintro u ⟨hstart, hu⟩
        by_contra hto
        exact h.none u hstart (not_le.1 hto) hu

end Fixed

/-! ## The fields of an expression -/

section Parsed

theorem Atom.le_total (a b : Atom) : Atom.le a b = true ∨ Atom.le b a = true := by
  cases a <;> cases b
  · simp only [Atom.le, decide_eq_true_eq]
    exact Int.le_total _ _
  · exact .inl rfl
  · exact .inr rfl
  · simp only [Atom.le, decide_eq_true_eq]
    exact Std.le_total

theorem Atom.le_trans {a b c : Atom} (hab : Atom.le a b = true) (hbc : Atom.le b c = true) :
    Atom.le a c = true := by
  match a, b, c with
  | .num _, .num _, .num _ =>
    simp only [Atom.le, decide_eq_true_eq] at hab hbc ⊢
    exact Int.le_trans hab hbc
  | .num _, _, .text _ => rfl
  | .num _, .text _, .num _ => cases hbc
  | .text _, .num _, _ => cases hab
  | .text _, .text _, .num _ => cases hbc
  | .text _, .text _, .text _ =>
    simp only [Atom.le, decide_eq_true_eq] at hab hbc ⊢
    exact Std.le_trans hab hbc

theorem sorted_sortAtoms (atoms : List Atom) :
    (sortAtoms atoms).Pairwise fun a b => Atom.le a b = true :=
  have : Std.Total fun a b => Atom.le a b = true := ⟨Atom.le_total⟩
  have : IsTrans Atom fun a b => Atom.le a b = true := ⟨fun _ _ _ => Atom.le_trans⟩
  List.pairwise_insertionSort _ atoms

variable {build : Build} {field : Field}

/-- A result is pushed as numbers, but for the fields that take an `L`. -/
theorem pushResult_num (hfield : field.takesL = false) {stack pushed : List Atom} {result : Parsed}
    (h : pushResult field stack result = .ok pushed) (hstack : ∀ a ∈ stack, ∃ n, a = .num n) :
    ∀ a ∈ pushed, ∃ n, a = .num n := by
  have hnum : ∀ (stack : List Atom) n, (∀ a ∈ stack, ∃ n, a = .num n) →
      ∀ a ∈ stack ++ [.num n], ∃ n, a = .num n := by
    intro stack n hstack a ha
    rcases List.mem_append.1 ha with ha | ha
    · exact hstack a ha
    · exact ⟨n, List.mem_singleton.1 ha⟩
  cases result with
  | text text =>
    rw [pushResult, hfield, Bool.false_and, if_neg (by decide)] at h
    cases h
  | num n =>
    cases n with
    | none => cases h
    | some n =>
      rw [pushResult] at h
      split at h
      · cases h
      · cases h
        exact hnum stack _ hstack
  | list values =>
    rw [pushResult] at h
    induction values generalizing stack with
    | nil =>
      cases h
      exact hstack
    | cons value values ih =>
      rw [List.foldlM_cons] at h
      obtain ⟨stack', hstep, hrest⟩ := except_bind_eq_ok h
      split at hstep
      · cases hstep
      · cases hstep
        exact ih (hnum stack value hstack) hrest

theorem pushAtoms_num (hfield : field.takesL = false) {items : List (List Char)}
    {stack pushed : List Atom} (h : items.foldlM (pushAtom build field) stack = .ok pushed)
    (hstack : ∀ a ∈ stack, ∃ n, a = .num n) : ∀ a ∈ pushed, ∃ n, a = .num n := by
  induction items generalizing stack with
  | nil =>
    cases h
    exact hstack
  | cons item items ih =>
    rw [List.foldlM_cons] at h
    obtain ⟨stack', hpush, hrest⟩ := except_bind_eq_ok h
    obtain ⟨result, -, hpush⟩ := except_bind_eq_ok hpush
    exact ih hrest (pushResult_num hfield hpush hstack)

/-- A field that takes no `L` is parsed to numbers, in order. -/
theorem parseField_numbers (hfield : field.takesL = false) {value : List Char} {atoms : List Atom}
    (h : parseField build field value = .ok atoms) : Numbers atoms := by
  obtain ⟨items, -, h⟩ := except_bind_eq_ok h
  obtain ⟨stack, hstack, h⟩ := except_bind_eq_ok h
  cases h
  refine ⟨fun a ha => ?_, sorted_sortAtoms stack⟩
  exact pushAtoms_num hfield hstack (fun a ha => absurd ha List.not_mem_nil) a
    ((List.mem_insertionSort _).1 ha)

theorem handleMaxDays_fields {expr handled : CronExpr} (h : handleMaxDays expr = .ok handled)
    (hfields : Fields expr) : Fields handled := by
  unfold handleMaxDays at h
  split at h
  · cases h
    exact hfields
  · dsimp only at h
    have hkept : ∀ days, Fields { expr with dayOfMonth := days } := fun days =>
      ⟨hfields.second, hfields.minute, hfields.hour, hfields.month⟩
    split at h <;> split at h
    · cases h
    · cases h
      exact hkept _
    · cases h
    · cases h
      exact hkept _

/-- **A parsed expression** has its seconds, minutes, hours and months as numbers, in
order. -/
theorem parse_fields {expression : List Char} {expr : CronExpr}
    (h : parse build expression = .ok expr) : Fields expr := by
  unfold parse at h
  dsimp only at h
  split at h
  · cases h
  · obtain ⟨second, hsecond, h⟩ := except_bind_eq_ok h
    obtain ⟨minute, hminute, h⟩ := except_bind_eq_ok h
    obtain ⟨hour, hhour, h⟩ := except_bind_eq_ok h
    obtain ⟨dayOfMonth, -, h⟩ := except_bind_eq_ok h
    obtain ⟨month, hmonth, h⟩ := except_bind_eq_ok h
    obtain ⟨weekday, -, h⟩ := except_bind_eq_ok h
    obtain ⟨dayOfWeek, -, h⟩ := except_bind_eq_ok h
    exact handleMaxDays_fields h {
      second := parseField_numbers rfl hsecond
      minute := parseField_numbers rfl hminute
      hour := parseField_numbers rfl hhour
      month := parseField_numbers rfl hmonth }

end Parsed

/-! ## The moments, one after another -/

/-- The start is in the calendar, on the local clock too, and the calendar has room for
all turns of a search, or a moment of the expression with room after it. -/
structure HasRoom (offset : Int) (it : Iter) : Prop where
  inCalendar : InCalendar it.current
  inClock : InCalendar (it.current + offset * 1000)
  ahead : it.current + 10001 * (31 * 86400000) + 9 * 86400000 ≤ lastMs
    ∨ ∃ t, it.current < t ∧ t + 40 * 86400000 ≤ lastMs ∧ Matches it.expr offset t

/-- **One call** answers the first moment after the last one. -/
theorem nextAfter_spec {offset t : Int} {it it' : Iter} (hoffset : -86400 < offset ∧ offset < 86400)
    (hfields : Fields it.expr) (hfresh : Fresh offset it) (hroom : HasRoom offset it)
    (h : it.nextAfter = (.ok t, it')) :
    it' = { it with current := t }
      ∧ IsLeast {u | it.current < u ∧ Matches it.expr offset u} t := by
  refine search_spec hfields hfresh ?_ h
  obtain ⟨hin, hclock, hahead⟩ := hroom
  exact {
    room := {
      ahead := hoffset.2
      behind := hoffset.1
      first := hin.1
      firstClock := hclock.1
      last := by
        rcases hahead with hsteps | ⟨t, hlater, hlast, -⟩
        · omega
        · omega }
    ge := Int.le_refl _
    whole := fun hne => absurd rfl hne
    none := fun t hlater hto => absurd (lt_trans hlater hto) (lt_irrefl _)
    ahead := by
      rcases hahead with hsteps | ⟨t, hlater, hlast, hmatches⟩
      · left
        unfold loopLimit
        push_cast
        omega
      · exact .inr ⟨t, hlater, le_of_lt hlater, hlast, hmatches⟩ }

/-- A call of `next_after` that answers. -/
def Answers (it : Iter) (t : Int) (it' : Iter) : Prop := it.nextAfter = (.ok t, it')

/-- **The calls, one after another, answer the moments of the expression in order**, from
starts inside the calendar: what a run has answered are the moments up to its last one,
and the next answer is the first moment after it. -/
theorem moments_in_order {build : Build} {expression : List Char} {expr : CronExpr}
    (hparse : parse build expression = .ok expr) {offset : Int}
    (hoffset : -86400 < offset ∧ offset < 86400) {start : Int} {endMs : Option Int}
    {ts : List Int} {it : Iter}
    (h : Run (Guarded Answers fun it _ => HasRoom offset it)
      (Iter.new expr (fun _ => offset) start endMs) ts it) :
    ts.Pairwise (· < ·)
      ∧ (∀ t, t ∈ ts ↔ start < t ∧ t ≤ it.current ∧ Matches expr offset t)
      ∧ ∀ t it', HasRoom offset it → it.nextAfter = (.ok t, it') →
        IsLeast {u | it.current < u ∧ Matches expr offset u} t := by
  have hfields := parse_fields hparse
  -- the expression and the zone stay, and no mark is left
  have hkept : ∀ {s : Iter} {ts it}, s.expr = expr → Fresh offset s →
      Run (Guarded Answers fun it _ => HasRoom offset it) s ts it →
      (it.expr = expr ∧ Fresh offset it ∧ s.current ≤ it.current) ∧ ts.Pairwise (· < ·)
        ∧ ∀ t, t ∈ ts ↔ s.current < t ∧ t ≤ it.current ∧ Matches expr offset t := by
    intro s ts it hexpr hfresh hrun
    induction hrun with
    | nil s =>
      refine ⟨⟨hexpr, hfresh, Int.le_refl _⟩, List.Pairwise.nil, fun t => ?_⟩
      refine ⟨fun h => absurd h List.not_mem_nil, fun h => ?_⟩
      exact absurd (lt_of_lt_of_le h.1 h.2.1) (lt_irrefl _)
    | @cons s s' u t ts hstep hrest ih =>
      obtain ⟨rfl, hleast⟩ := nextAfter_spec hoffset (hexpr ▸ hfields) hfresh hstep.1 hstep.2
      rw [hexpr] at hleast
      obtain ⟨hlast, hsorted, hmem⟩ := ih hexpr ⟨hfresh.zone, hfresh.dstStart, hfresh.dstEnd⟩
      dsimp only at hlast hmem
      have hlater : s.current < t := hleast.1.1
      refine ⟨⟨hlast.1, hlast.2.1, le_trans (le_of_lt hlater) hlast.2.2⟩, ?_, fun v => ?_⟩
      · exact List.pairwise_cons.2 ⟨fun v hv => ((hmem v).1 hv).1, hsorted⟩
      · rw [List.mem_cons, hmem]
        constructor
        · rintro (rfl | ⟨hv, hvlast, hmatches⟩)
          · exact ⟨hlater, hlast.2.2, hleast.1.2⟩
          · exact ⟨lt_trans hlater hv, hvlast, hmatches⟩
        · rintro ⟨hv, hvlast, hmatches⟩
          -- a moment after the start is the first one or a later one
          rcases lt_or_eq_of_le (hleast.2 ⟨hv, hmatches⟩) with hlt | rfl
          · exact .inr ⟨hlt, hvlast, hmatches⟩
          · exact .inl rfl
  obtain ⟨⟨hexpr, hfresh, -⟩, hsorted, hmem⟩ := hkept rfl ⟨rfl, rfl, rfl⟩ h
  refine ⟨hsorted, hmem, fun t it' hroom hnext => ?_⟩
  have := (nextAfter_spec hoffset (hexpr ▸ hfields) hfresh hroom hnext).2
  rwa [hexpr] at this

/-- A call that has room for all its turns, and answers `t`. -/
def answer (offset : Int) (it : Iter) (t : Int) : Option Iter :=
  if InCalendar it.current ∧ InCalendar (it.current + offset * 1000)
      ∧ it.current + 10001 * (31 * 86400000) + 9 * 86400000 ≤ lastMs then
    match it.nextAfter with
    | (.ok u, it') => if u = t then some it' else none
    | (.error _, _) => none
  else none

theorem guarded_of_answer {offset t : Int} {it it' : Iter} (h : answer offset it t = some it') :
    Guarded Answers (fun it _ => HasRoom offset it) it t it' := by
  unfold answer at h
  split at h
  · next hroom =>
    split at h
    · next hnext =>
      split at h
      · next heq =>
        cases h
        subst heq
        exact ⟨⟨hroom.1, hroom.2.1, .inl hroom.2.2⟩, hnext⟩
      · cases h
    · cases h
  · cases h

theorem eq_ok_of_toOption {ε α : Type} {x : Except ε α} {a : α} (h : x.toOption = some a) :
    x = .ok a := by
  cases x with
  | error _ => cases h
  | ok b => exact congrArg Except.ok (Option.some.inj h)

/-- Three in the morning, three hours ahead of UTC, on two days of October 2026. -/
theorem moments_in_order_daily : ∃ expr, ∃ it : Iter,
    parse .checked "0 0 3 * * *".toList = .ok expr ∧ it.current = 1791849600000
      ∧ [1791763200000, (1791849600000 : Int)].Pairwise (· < ·)
      ∧ (∀ t, t ∈ [1791763200000, (1791849600000 : Int)]
        ↔ 1791729397123 < t ∧ t ≤ it.current ∧ Matches expr 10800 t)
      ∧ ∀ t it', HasRoom 10800 it → it.nextAfter = (.ok t, it') →
        IsLeast {u | it.current < u ∧ Matches expr 10800 u} t := by
  have hrun : (parse .checked "0 0 3 * * *".toList).toOption.bind (fun expr =>
      ([1791763200000, 1791849600000].foldlM (answer 10800)
        (Iter.new expr (fun _ => 10800) 1791729397123 none)).map Iter.current)
      = some 1791849600000 := by decide +kernel
  obtain ⟨expr, hexpr, hrun⟩ := Option.bind_eq_some_iff.1 hrun
  obtain ⟨it, hanswers, hcurrent⟩ := Option.map_eq_some_iff.1 hrun
  have hparse := eq_ok_of_toOption hexpr
  have h := (Run.of_foldlM hanswers).mono fun s t s' => guarded_of_answer
  exact ⟨expr, it, hparse, hcurrent, moments_in_order hparse (by decide) h⟩

/-- From the last millisecond of the calendar the search falls back to 1970, where it
finds one o'clock. -/
theorem falls_back : ∃ expr it, parse .checked "* * * * * *".toList = .ok expr
    ∧ (Iter.new expr (fun _ => 0) lastMs none).nextAfter = (.ok 3600000, it)
    ∧ ¬ IsLeast {u | lastMs < u ∧ Matches expr 0 u} 3600000 := by
  have hrun : (parse .checked "* * * * * *".toList).toOption.bind (fun expr =>
      (Iter.new expr (fun _ => 0) lastMs none).nextAfter.1.toOption)
      = some 3600000 := by decide +kernel
  obtain ⟨expr, hexpr, hrun⟩ := Option.bind_eq_some_iff.1 hrun
  refine ⟨expr, _, eq_ok_of_toOption hexpr, Prod.ext (eq_ok_of_toOption hrun) rfl, ?_⟩
  intro hleast
  exact absurd hleast.1.1 (by decide)

end Cron

end Foreseerr

import Mathlib.Data.Int.Basic

/-!
# Instants as text

`clock.rs` turns milliseconds since the Unix epoch into a calendar date by
the civil date algorithm, and prints it as JavaScript's `Date.toJSON` does.
-/

namespace Foreseerr

/-- A UTC instant, split into its calendar fields. -/
structure Utc where
  year : Int
  month : Nat
  day : Nat
  hour : Nat
  minute : Nat
  second : Nat
  millis : Nat
deriving DecidableEq, Repr

/-- `Utc::from_unix_millis`: the civil date of an instant. -/
def Utc.fromUnixMillis (ms : Int) : Utc :=
  let days := ms / 86400000
  let rem := ms % 86400000
  let z := days + 719468
  let era := z / 146097
  let doe := z % 146097
  let yoe := (doe - doe / 1460 + doe / 36524 - doe / 146096) / 365
  let doy := doe - (365 * yoe + yoe / 4 - yoe / 100)
  let mp := (5 * doy + 2) / 153
  let day := doy - (153 * mp + 2) / 5 + 1
  let month := if mp < 10 then mp + 3 else mp - 9
  let year := yoe + era * 400 + (if month ≤ 2 then 1 else 0)
  { year := year
    month := month.toNat
    day := day.toNat
    hour := (rem / 3600000).toNat
    minute := (rem / 60000 % 60).toNat
    second := (rem / 1000 % 60).toNat
    millis := (rem % 1000).toNat }

/-- A number as `format!` writes it under `{:0width}`: the sign first, then
zeros up to the width. -/
def zeroPadded (width : Nat) (value : Int) : String :=
  let digits := toString value.natAbs
  let sign := if value < 0 then "-" else ""
  sign ++ String.ofList (List.replicate (width - sign.length - digits.length) '0') ++ digits

/-- `Utc::iso_string`: `YYYY-MM-DDTHH:MM:SS.SSSZ`. -/
def Utc.isoString (t : Utc) : String :=
  zeroPadded 4 t.year ++ "-" ++ zeroPadded 2 t.month ++ "-" ++ zeroPadded 2 t.day ++ "T"
    ++ zeroPadded 2 t.hour ++ ":" ++ zeroPadded 2 t.minute ++ ":" ++ zeroPadded 2 t.second
    ++ "." ++ zeroPadded 3 t.millis ++ "Z"

/-- `iso`: the text of an instant given in milliseconds. -/
def iso (ms : Int) : String := (Utc.fromUnixMillis ms).isoString

/-- `days_from_civil`: days since 1970-01-01. -/
def daysFromCivil (year month day : Int) : Int :=
  let y := if month ≤ 2 then year - 1 else year
  let era := y / 400
  let yoe := y % 400
  let mp := if month > 2 then month - 3 else month + 9
  let doy := (153 * mp + 2) / 5 + day - 1
  let doe := yoe * 365 + yoe / 4 - yoe / 100 + doy
  era * 146097 + doe - 719468

/-- Whether an `i64` holds a number. -/
def InI64 (n : Int) : Prop := -9223372036854775808 ≤ n ∧ n ≤ 9223372036854775807

instance (n : Int) : Decidable (InI64 n) := inferInstanceAs (Decidable (_ ∧ _))

/-- `str::parse::<i64>`: a sign or none, and at least one digit. -/
def parseInt (text : List Char) : Option Int :=
  let (sign, digits) := match text with
    | '+' :: rest => ((1 : Int), rest)
    | '-' :: rest => (-1, rest)
    | _ => (1, text)
  if digits = [] ∨ ¬ digits.all Char.isDigit then none
  else
    (some (sign * digits.foldl (fun n c => n * 10 + (c.toNat - '0'.toNat)) 0)).filter
      fun n => decide (InI64 n)

/-- The milliseconds of a time of the day, `HH:MM[:SS[.SSS]]`. -/
def parseTimeOfDay (clock : List Char) : Option Int := do
  let (hms, fraction) := match clock.splitOn '.' with
    | [hms] => (hms, ['0'])
    | hms :: rest => (hms, (['.'] : List Char).intercalate rest)
    | [] => ([], ['0'])
  let fields ← (hms.splitOn ':').mapM parseInt
  let (hour, minute, second) ← match fields with
    | [hour, minute] => some (hour, minute, 0)
    | [hour, minute, second] => some (hour, minute, second)
    | _ => none
  if hour > 23 ∨ minute > 59 ∨ second > 59 then none
  else
    let fraction := fraction.take 3
    let ms ← parseInt (fraction ++ List.replicate (3 - fraction.length) '0')
    some (hour * 3600000 + minute * 60000 + second * 1000 + ms)

/-- `parse_date_millis`: `YYYY-MM-DD`, optionally followed by `THH:MM[:SS[.SSS]]Z`. -/
def parseDateMillis (text : List Char) : Option Int := do
  let date := text.takeWhile (· ≠ 'T')
  let time := (text.dropWhile (· ≠ 'T')).tail?
  let (year, month, day) ← match (← (date.splitOn '-').mapM parseInt) with
    | [year, month, day] => some (year, month, day)
    | _ => none
  if month < 1 ∨ 12 < month ∨ day < 1 ∨ 31 < day then none
  else
    let millis ← match time with
      | none => some 0
      | some time =>
        if time.getLast? = some 'Z' then parseTimeOfDay time.dropLast else none
    some (daysFromCivil year month day * 86400000 + millis)

/-- The fields `parse_date_millis` reads, all zero after the day where no time is given. -/
structure DateFields where
  year : Int
  month : Int
  day : Int
  hour : Int
  minute : Int
  second : Int
  millis : Int
deriving DecidableEq, Repr

/-- The hour, the minute and the second of a clock's parts, the second left out or not. -/
def clockParts : List Int → Option (Int × Int × Int)
  | [hour, minute] => some (hour, minute, 0)
  | [hour, minute, second] => some (hour, minute, second)
  | _ => none

/-- The text before the first dot and the one after it, `0` where there is none. -/
def clockSplit (clock : List Char) : List Char × List Char :=
  match clock.splitOn '.' with
  | [hms] => (hms, ['0'])
  | hms :: rest => (hms, (['.'] : List Char).intercalate rest)
  | [] => ([], ['0'])

/-- The hour, the minute, the second and the milliseconds of `HH:MM[:SS[.SSS]]`. -/
def clockFields (clock : List Char) : Option (Int × Int × Int × Int) := do
  let fields ← ((clockSplit clock).1.splitOn ':').mapM parseInt
  let (hour, minute, second) ← clockParts fields
  if hour > 23 ∨ minute > 59 ∨ second > 59 then none
  else
    let fraction := (clockSplit clock).2.take 3
    let ms ← parseInt (fraction ++ List.replicate (3 - fraction.length) '0')
    some (hour, minute, second, ms)

/-- The clock of a date: midnight where no time is given. -/
def timeFields : Option (List Char) → Option (Int × Int × Int × Int)
  | none => some (0, 0, 0, 0)
  | some time => if time.getLast? = some 'Z' then clockFields time.dropLast else none

/-- Three parts, no more and no less. -/
def threeParts : List Int → Option (Int × Int × Int)
  | [year, month, day] => some (year, month, day)
  | _ => none

/-- The fields `parse_date_millis` reads and lets through. -/
def dateFields (text : List Char) : Option DateFields := do
  let fields ← ((text.takeWhile (· ≠ 'T')).splitOn '-').mapM parseInt
  let (year, month, day) ← threeParts fields
  if month < 1 ∨ 12 < month ∨ day < 1 ∨ 31 < day then none
  else
    let (hour, minute, second, millis) ← timeFields (text.dropWhile (· ≠ 'T')).tail?
    some ⟨year, month, day, hour, minute, second, millis⟩

/-- The moment some fields stand for, in ℤ. -/
def DateFields.exact (f : DateFields) : Int :=
  daysFromCivil f.year f.month f.day * 86400000
    + (f.hour * 3600000 + f.minute * 60000 + f.second * 1000 + f.millis)

/-- The milliseconds of a clock are those of its fields. -/
theorem parseTimeOfDay_eq (clock : List Char) : parseTimeOfDay clock = (clockFields clock).map
    fun c => c.1 * 3600000 + c.2.1 * 60000 + c.2.2.1 * 1000 + c.2.2.2 := by
  have hparts : ∀ (fraction : List Char) (hour minute second : Int),
      ((if hour > 23 ∨ minute > 59 ∨ second > 59 then none
        else (parseInt (fraction.take 3 ++ List.replicate (3 - (fraction.take 3).length) '0')).bind
          fun ms => some (hour * 3600000 + minute * 60000 + second * 1000 + ms)) : Option Int)
        = (if hour > 23 ∨ minute > 59 ∨ second > 59 then none
          else
            (parseInt (fraction.take 3 ++ List.replicate (3 - (fraction.take 3).length) '0')).bind
              fun ms => some (hour, minute, second, ms)).map
              fun c => c.1 * 3600000 + c.2.1 * 60000 + c.2.2.1 * 1000 + c.2.2.2 := by
    intro fraction hour minute second
    split
    · rfl
    · rw [Option.map_bind]
      rfl
  unfold parseTimeOfDay clockFields clockSplit
  rcases clock.splitOn '.' with _ | ⟨hms, _ | ⟨second, rest⟩⟩
  · rfl
  all_goals
    dsimp only
    rcases (hms.splitOn ':').mapM parseInt with
      _ | (_ | ⟨hour, _ | ⟨minute, _ | ⟨second, _ | ⟨more, rest⟩⟩⟩⟩)
    · rfl
    · rfl
    · rfl
    · exact hparts _ hour minute 0
    · exact hparts _ hour minute second
    · rfl

/-- The moment is that of the fields. -/
theorem parseDateMillis_eq (text : List Char) :
    parseDateMillis text = (dateFields text).map DateFields.exact := by
  unfold parseDateMillis dateFields
  dsimp only
  cases ((text.takeWhile (· ≠ 'T')).splitOn '-').mapM parseInt with
  | none => rfl
  | some fields =>
    rcases fields with _ | ⟨year, _ | ⟨month, _ | ⟨day, _ | ⟨more, rest⟩⟩⟩⟩
    · rfl
    · rfl
    · rfl
    · simp only [Option.bind_eq_bind, Option.bind_some, threeParts]
      by_cases hbad : month < 1 ∨ 12 < month ∨ day < 1 ∨ 31 < day
      · rw [if_pos hbad, if_pos hbad]
        rfl
      · rw [if_neg hbad, if_neg hbad, Option.map_bind]
        cases (text.dropWhile (· ≠ 'T')).tail? with
        | none => rfl
        | some time =>
          simp only [timeFields]
          by_cases hzone : time.getLast? = some 'Z'
          · rw [if_pos hzone, if_pos hzone, parseTimeOfDay_eq, Option.bind_map]
            rfl
          · rw [if_neg hzone, if_neg hzone]
            rfl
    · rfl

example : parseDateMillis "2025-02-04T11:00:00.500Z".toList = some 1738666800500 := by
  decide +kernel
example : parseDateMillis "15/10/1999".toList = none := by decide +kernel

end Foreseerr

import Foreseerr.Double
import Foreseerr.JsText
import Foreseerr.Run
import Mathlib.Data.Char
import Mathlib.Data.List.Lex
import Mathlib.Data.List.Sort
import Mathlib.Data.List.SplitOn

/-!
# Cron expressions

`jobs/cron.rs` reads a cron expression the way cron-parser does: six fields, each
a list of ranges with steps, as sorted lists of numbers and of texts that hold an
`L`.

Numbers are 64-bit ones. A step of any length is read as a number, the largest one
where it is too long, and the count of a range's steps goes on from there: a build
that checks its arithmetic stops at the overflow, one that does not wraps round
(`Build`). The weekday field gets there, and no other (`parse_overflow_iff`).
-/

namespace Foreseerr

namespace Cron

/-! ## Fields -/

/-- `Field`. -/
inductive Field
  | second
  | minute
  | hour
  | dayOfMonth
  | month
  | dayOfWeek
deriving DecidableEq, Repr

namespace Field

def min : Field → Int
  | second | minute | hour | dayOfWeek => 0
  | dayOfMonth | month => 1

def max : Field → Int
  | second | minute => 59
  | hour => 23
  | dayOfMonth => 31
  | month => 12
  | dayOfWeek => 7

def takesL : Field → Bool
  | dayOfMonth | dayOfWeek => true
  | second | minute | hour | month => false

def validChar (field : Field) (c : Char) : Bool :=
  let standard := c = ',' || c = '*' || c = '/' || c = '-' || c.isDigit
  match field with
  | second | minute | hour | month => standard
  | dayOfMonth => standard || c = '?' || c = 'L'
  | dayOfWeek => standard || c = '?' || c = 'L' || c = '#'

def aliases : Field → List (String × Int)
  | month =>
    [("jan", 1), ("feb", 2), ("mar", 3), ("apr", 4), ("may", 5), ("jun", 6), ("jul", 7),
      ("aug", 8), ("sep", 9), ("oct", 10), ("nov", 11), ("dec", 12)]
  | dayOfWeek =>
    [("sun", 0), ("mon", 1), ("tue", 2), ("wed", 3), ("thu", 4), ("fri", 5), ("sat", 6)]
  | second | minute | hour | dayOfMonth => []

/-- The default of `FIELDS`. -/
def default : Field → List Char
  | second => ['0']
  | _ => ['*']

/-- All that a field may be, as a range. -/
def full (field : Field) : List Char :=
  field.min.repr.toList ++ '-' :: field.max.repr.toList

end Field

/-- `Atom`. -/
inductive Atom
  | num (n : Int)
  | text (t : List Char)
deriving DecidableEq, Repr

/-- `Parsed`. -/
inductive Parsed
  | list (values : List Int)
  | num (n : Option Int)
  | text (t : List Char)
deriving DecidableEq, Repr

/-- `CronExpr`. -/
structure CronExpr where
  second : List Atom
  minute : List Atom
  hour : List Atom
  dayOfMonth : List Atom
  month : List Atom
  dayOfWeek : List Atom
  nthDayOfWeek : ℚ
deriving DecidableEq, Repr

/-! ## 64-bit arithmetic -/

/-- Whether the build checks its arithmetic. -/
inductive Build
  | checked
  | wrapping
deriving DecidableEq, Repr

/-- How parsing stops: with cron-parser's message, or at a checked overflow. -/
inductive Fault
  | error (message : String)
  | overflow
deriving DecidableEq, Repr

def i64Min : Int := -2 ^ 63

def i64Max : Int := 2 ^ 63 - 1

/-- A result of 64-bit arithmetic. -/
def Build.int (build : Build) (n : Int) : Except Fault Int :=
  if i64Min ≤ n ∧ n ≤ i64Max then .ok n
  else match build with
    | checked => .error .overflow
    | wrapping => .ok ((n - i64Min) % 2 ^ 64 + i64Min)

/-! ## Ranges -/

/-- `js_int`. -/
def jsInt (s : List Char) : Option Int :=
  if s = [] then some 0
  else if s.all Char.isDigit then some (Min.min (digitsValue 10 s : Int) i64Max)
  else none

def constraintError (value : String) (field : Field) : String :=
  "Constraint error, got value " ++ value ++ " expected range " ++ field.min.repr ++ "-"
    ++ field.max.repr

/-- `replace_aliases`. -/
def replaceAliases (field : Field) : List Char → Except Fault (List Char)
  | a :: b :: c :: rest =>
    if a.isAlpha && b.isAlpha && c.isAlpha then
      let key := String.ofList [a.toLower, b.toLower, c.toLower]
      match field.aliases.find? fun named => named.1 = key with
      | none => .error (.error ("Validation error, cannot resolve alias \"" ++ key ++ "\""))
      | some named => (replaceAliases field rest).map (named.2.repr.toList ++ ·)
    else (replaceAliases field (b :: c :: rest)).map (a :: ·)
  | short => .ok short

/-- One index of `parse_range`'s loop: the numbers so far and the count of steps. -/
def repeatStep (build : Build) (interval : Int) (acc : List Int × Int) (index : Int) :
    Except Fault (List Int × Int) :=
  let (stack, repeatIndex) := acc
  if index ∉ stack ∧ repeatIndex > 0 ∧ repeatIndex % interval = 0 then .ok (stack ++ [index], 1)
  else (build.int (repeatIndex + 1)).map fun repeatIndex => (stack, repeatIndex)

/-- `min..=max`. -/
def indexes (min max : Int) : List Int :=
  (List.range (max - min + 1).toNat).map fun (i : Nat) => min + i

/-- The numbers `parse_range` starts from: the weekday 7 is the weekday 0. -/
def sundayFirst (field : Field) (max : Int) : List Int :=
  if field = .dayOfWeek ∧ max % 7 = 0 then [0] else []

/-- The numbers of a range that is in its field. -/
def rangeNumbers (build : Build) (field : Field) (min max interval : Int) :
    Except Fault Parsed :=
  ((indexes min max).foldlM (repeatStep build interval) (sundayFirst field max, interval)).map
    fun (stack, _) => .list stack

/-- `parse_range`. -/
def parseRange (build : Build) (field : Field) (val : List Char) (step : Option (List Char)) :
    Except Fault Parsed :=
  match val.splitOn '-' with
  | first :: second :: _ =>
    if first = [] then
      if second = [] then .error (.error ("Invalid range: " ++ String.ofList val))
      else match (val.tail?.filter (· ≠ [])).bind jsInt with
        | none => .ok (.num none)
        | some n => (build.int (-n)).map fun n => .num (some n)
    else match jsInt first, jsInt second with
      | some min, some max =>
        if min < field.min ∨ field.max < max then
          .error (.error ("Constraint error, got range " ++ min.repr ++ "-" ++ max.repr
            ++ " expected range " ++ field.min.repr ++ "-" ++ field.max.repr))
        else if min > max then .error (.error ("Invalid range: " ++ String.ofList val))
        else
          let interval := step.elim 1 fun r => (jsInt r).getD 0
          if interval ≤ 0 then
            .error (.error ("Constraint error, cannot repeat at every " ++ interval.repr ++ " time."))
          else rangeNumbers build field min max interval
      | _, _ =>
        .error (.error ("Constraint error, got range NaN expected range " ++ field.min.repr ++ "-"
          ++ field.max.repr))
  | _ => .ok ((jsInt val).elim (.text val) fun n => .num (some n))

/-- The range that a number with a step stands for. -/
def repeatStart (field : Field) (first : List Char) : List Char :=
  if (jsInt first).isSome then first ++ '-' :: field.max.repr.toList else first

/-- `parse_repeat`. -/
def parseRepeat (build : Build) (field : Field) (val : List Char) : Except Fault Parsed :=
  match val.splitOn '/' with
  | [first, step] => parseRange build field (repeatStart field first) (some step)
  | [_] => parseRange build field val none
  | _ => .error (.error ("Invalid repeat: " ++ String.ofList val))

/-! ## Fields of an expression -/

/-- `push_result`. -/
def pushResult (field : Field) (stack : List Atom) : Parsed → Except Fault (List Atom)
  | .list values => values.foldlM (fun stack value =>
      if value < field.min ∨ field.max < value then
        .error (.error (constraintError value.repr field))
      else .ok (stack ++ [.num value])) stack
  | .text text =>
    if field.takesL && text.contains 'L' then .ok (stack ++ [.text text])
    else .error (.error (constraintError (String.ofList text) field))
  | .num none => .error (.error (constraintError "NaN" field))
  | .num (some n) =>
    if n < field.min ∨ field.max < n then .error (.error (constraintError n.repr field))
    else .ok (stack ++ [.num (if field = .dayOfWeek then n % 7 else n)])

/-- The order of `_sortCompareFn`: numbers ascending, then texts. -/
def Atom.le : Atom → Atom → Bool
  | .num x, .num y => x ≤ y
  | .num _, .text _ => true
  | .text _, .num _ => false
  | .text x, .text y => x ≤ y

/-- `sort_atoms`. -/
def sortAtoms (atoms : List Atom) : List Atom := atoms.insertionSort fun a b => Atom.le a b = true

/-- `value.replace(c, full)`. -/
def replaceChar (c : Char) (full value : List Char) : List Char :=
  value.flatMap fun d => if d = c then full else [d]

/-- A field's text with its names resolved, where it has any. -/
def resolveNames (field : Field) (value : List Char) : Except Fault (List Char) :=
  if field.aliases = [] then .ok value else replaceAliases field value

/-- A field's text with its stars, or its question marks, written out. -/
def writeStars (field : Field) (value : List Char) : List Char :=
  if value.contains '*' then replaceChar '*' field.full value
  else if value.contains '?' then replaceChar '?' field.full value
  else value

/-- The items of a field's list: names resolved, characters checked, and the stars
written out. -/
def fieldAtoms (field : Field) (value : List Char) : Except Fault (List (List Char)) := do
  let value ← resolveNames field value
  if value = [] ∨ ¬ value.all field.validChar then
    .error (.error ("Invalid characters, got value: " ++ String.ofList value))
  else
    let atoms := (writeStars field value).splitOn ','
    if atoms.any (· = []) then .error (.error "Invalid list value format") else .ok atoms

/-- One item of a field. -/
def pushAtom (build : Build) (field : Field) (stack : List Atom) (atom : List Char) :
    Except Fault (List Atom) := do
  pushResult field stack (← parseRepeat build field atom)

/-- `parse_field`. -/
def parseField (build : Build) (field : Field) (value : List Char) : Except Fault (List Atom) := do
  let atoms ← fieldAtoms field value
  let stack ← atoms.foldlM (pushAtom build field) []
  .ok (sortAtoms stack)

/-! ## Expressions -/

/-- `js_number`: what is no number, or none that is finite, is `none`, as both are
no occurrence. -/
def jsNumber (s : List Char) : Option ℚ :=
  match s with
  | [] => some 0
  | '0' :: x :: digits =>
    let radix := if x = 'x' ∨ x = 'X' then 16 else if x = 'o' ∨ x = 'O' then 8
      else if x = 'b' ∨ x = 'B' then 2 else 0
    if radix = 0 then decimal s
    else
      let digits := if digits.head? = some '+' then digits.tail else digits
      if digits ≠ [] ∧ digits.all (isDigitOf radix) ∧ digitsValue radix digits < 2 ^ 32 then
        some (digitsValue radix digits)
      else none
  | _ => decimal s
where
  /-- `parse::<f64>()` of digits, points, signs and exponents. -/
  decimal : List Char → Option ℚ
    | '-' :: body => ((decimalLiteral body).map Neg.neg).bind double
    | '+' :: body => (decimalLiteral body).bind double
    | body => (decimalLiteral body).bind double

/-- `parse_nth_day`. -/
def parseNthDay (val : List Char) : Except Fault (List Char × ℚ) :=
  match val.splitOn '#' with
  | first :: second :: more =>
    let nth := jsNumber ((second :: more).getLastD second)
    if val.contains ',' || val.contains '/' || val.contains '-' then
      .error (.error ("Constraint error, invalid dayOfWeek `#` and `,`, `/` or `-` special "
        ++ "characters are incompatible"))
    else match more, nth.filter fun nth => 1 ≤ nth ∧ nth ≤ 5 with
      | [], some nth => .ok (first, nth)
      | _, _ =>
        .error (.error "Constraint error, invalid dayOfWeek occurrence number (#)")
  | _ => .ok (val, 0)

/-- `DAYS_IN_MONTH`, of the months 1 to 12. -/
def daysInMonth (month : Int) : Int :=
  if month = 2 then 29 else if month ∈ [4, 6, 9, 11] then 30 else 31

/-- `month_days`. -/
def monthDays : List Atom → Option Int
  | [.num m] => if 1 ≤ m ∧ m ≤ 12 then some (daysInMonth m) else none
  | _ => none

/-- `_handleMaxDaysInMonth`. -/
def handleMaxDays (expr : CronExpr) : Except Fault CronExpr :=
  match monthDays expr.month with
  | none => .ok expr
  | some max =>
    let tooLate : Bool := match expr.dayOfMonth with
      | .num d :: _ => d > max
      | _ => false
    if tooLate then .error (.error "Invalid explicit day of month definition")
    else .ok { expr with
      dayOfMonth := sortAtoms (expr.dayOfMonth.filter fun
        | .num d => d ≤ max
        | .text t => t = ['L']) }

/-- The expressions that have names. -/
def shortcut (expression : List Char) : List Char :=
  if expression = "@yearly".toList then "0 0 1 1 *".toList
  else if expression = "@monthly".toList then "0 0 1 * *".toList
  else if expression = "@weekly".toList then "0 0 * * 0".toList
  else if expression = "@daily".toList then "0 0 * * *".toList
  else if expression = "@hourly".toList then "0 * * * *".toList
  else expression

/-- The texts of an expression, one a field from the last on. -/
def expressionAtoms (expression : List Char) : List (List Char) :=
  ((shortcut expression).splitOnP isJsSpace).filter (· ≠ [])

/-- The text of a field by its place, if the expression has one. -/
def fieldText (atoms : List (List Char)) (i : Nat) : Option (List Char) :=
  let start := 6 - Max.max atoms.length 1
  if start ≤ i then atoms[i - start]? else none

/-- The weekday field's text without its `#`, and the occurrence. -/
def weekdayText (atoms : List (List Char)) : Except Fault (List Char × ℚ) :=
  match fieldText atoms 5 with
  | none => .ok (Field.dayOfWeek.default, 0)
  | some v => parseNthDay v

/-- `CronExpr::parse`. -/
def parse (build : Build) (expression : List Char) : Except Fault CronExpr := do
  let atoms := expressionAtoms expression
  if atoms.length > 6 then .error (.error "Invalid cron expression")
  else
    let text (field : Field) (i : Nat) := (fieldText atoms i).getD field.default
    let second ← parseField build .second (text .second 0)
    let minute ← parseField build .minute (text .minute 1)
    let hour ← parseField build .hour (text .hour 2)
    let dayOfMonth ← parseField build .dayOfMonth (text .dayOfMonth 3)
    let month ← parseField build .month (text .month 4)
    let (weekday, nthDayOfWeek) ← weekdayText atoms
    let dayOfWeek ← parseField build .dayOfWeek weekday
    handleMaxDays { second, minute, hour, dayOfMonth, month, dayOfWeek, nthDayOfWeek }

/-! ## Where the count of steps overflows -/

section Overflow

theorem Build.int_checked_of_le {n : Int} (h : i64Min ≤ n ∧ n ≤ i64Max) :
    Build.checked.int n = .ok n := if_pos h

theorem Build.int_checked_of_lt {n : Int} (h : i64Max < n) :
    Build.checked.int n = .error .overflow := if_neg fun h' => absurd h'.2 (not_le.2 h)

variable {interval : Int} {stack l : List Int} {r : Int}

/-- One step of the count goes on by one, or starts again at one. -/
theorem repeatStep_checked (hr : 0 < r) (hmax : r + 1 ≤ i64Max) (index : Int) :
    ∃ stack' r', repeatStep .checked interval (stack, r) index = .ok (stack', r')
      ∧ 0 < r' ∧ r' ≤ r + 1 := by
  unfold repeatStep
  dsimp only
  split
  · exact ⟨_, 1, rfl, Int.one_pos, by omega⟩
  · rw [Build.int_checked_of_le ⟨by unfold i64Min; omega, hmax⟩]
    exact ⟨stack, r + 1, rfl, by omega, Int.le_refl _⟩

/-- A count that has room for the indexes does not overflow. -/
theorem repeat_ne_overflow (hr : 0 < r) (hmax : r + l.length ≤ i64Max) :
    l.foldlM (repeatStep .checked interval) (stack, r) ≠ .error .overflow := by
  induction l generalizing stack r with
  | nil => exact fun h => nomatch h
  | cons index l ih =>
    rw [List.length_cons] at hmax
    obtain ⟨stack', r', hstep, hr', hle⟩ :
        ∃ stack' r', repeatStep .checked interval (stack, r) index = .ok (stack', r')
          ∧ 0 < r' ∧ r' ≤ r + 1 := repeatStep_checked hr (by omega) index
    rw [List.foldlM_cons, hstep]
    exact ih hr' (by omega)

/-- A count on its way to the next multiple of a huge step overflows. -/
theorem repeat_eq_overflow (hr : interval < r) (hle : r ≤ i64Max) (hlong : i64Max < r + l.length)
    (hshort : r + l.length ≤ 2 * interval) :
    l.foldlM (repeatStep .checked interval) (stack, r) = .error .overflow := by
  induction l generalizing r with
  | nil =>
    rw [List.length_nil] at hlong
    omega
  | cons index l ih =>
    rw [List.length_cons] at hlong hshort
    have hmod : r % interval ≠ 0 := by
      have heq : r % interval = r - interval := by
        rw [← Int.sub_emod_right, Int.emod_eq_of_lt (by omega) (by omega)]
      omega
    have hstep : repeatStep .checked interval (stack, r) index
        = (Build.checked.int (r + 1)).map fun r => (stack, r) :=
      if_neg fun h => hmod h.2.2
    rw [List.foldlM_cons, hstep]
    by_cases hlast : r + 1 ≤ i64Max
    · rw [Build.int_checked_of_le ⟨by unfold i64Min i64Max at *; omega, hlast⟩]
      exact ih (by omega) hlast (by omega) (by omega)
    · rw [Build.int_checked_of_lt (by omega)]
      rfl

theorem length_indexes {min max : Int} (h : min ≤ max) :
    ((indexes min max).length : Int) = max - min + 1 := by
  rw [indexes, List.length_map, List.length_range]
  omega

theorem indexes_cons {min max : Int} (h : min ≤ max) :
    indexes min max = min :: indexes (min + 1) max := by
  have hlen : (max - min + 1).toNat = (max - (min + 1) + 1).toNat + 1 := by omega
  rw [indexes, hlen, List.range_succ_eq_map, List.map_cons, List.map_map]
  congr 1
  · exact Int.add_zero min
  · refine List.map_congr_left fun i _ => ?_
    dsimp only [Function.comp_apply]
    omega

/-- **The range whose count of steps overflows**: a week from Sunday on, or a Sunday,
whose step leaves no room for its days. -/
theorem rangeNumbers_overflow_iff {field : Field} {min max : Int} (hmin : field.min ≤ min)
    (hle : min ≤ max) (hmax : max ≤ field.max) (hpos : 0 < interval) (hi64 : interval ≤ i64Max) :
    rangeNumbers .checked field min max interval = .error .overflow
      ↔ field = .dayOfWeek ∧ min = 0 ∧ (max = 0 ∨ max = 7) ∧ i64Max < interval + max + 1 := by
  have hlength := length_indexes hle
  have hwidth : max - min ≤ 59 := by
    have : field.max - field.min ≤ 59 := by cases field <;> decide
    omega
  have hnone : rangeNumbers .checked field min max interval = .error .overflow
      ↔ (indexes min max).foldlM (repeatStep .checked interval) (sundayFirst field max, interval)
        = .error .overflow := by
    unfold rangeNumbers
    cases (indexes min max).foldlM (repeatStep .checked interval)
      (sundayFirst field max, interval) with
    | error fault => simp [Except.map]
    | ok result => simp [Except.map]
  rw [hnone]
  by_cases hseeded : min ∈ sundayFirst field max
  · -- the count starts with a step past the Sunday that is there
    unfold sundayFirst at hseeded ⊢
    split at hseeded
    · next hsunday =>
      obtain ⟨rfl, hmod⟩ := hsunday
      obtain rfl := List.mem_singleton.1 hseeded
      have hweek : max = 0 ∨ max = 7 := by
        have : max ≤ 7 := hmax
        omega
      rw [if_pos ⟨rfl, hmod⟩]
      constructor
      · intro h
        refine ⟨rfl, rfl, hweek, ?_⟩
        by_contra hroom
        exact repeat_ne_overflow hpos (by omega) h
      · rintro ⟨-, -, -, hlong⟩
        have hfirst : repeatStep .checked interval ([0], interval) 0
            = (Build.checked.int (interval + 1)).map fun r => ([0], r) := by
          unfold repeatStep
          dsimp only
          rw [if_neg fun h => h.1 List.mem_cons_self]
        rw [indexes_cons hle, List.foldlM_cons, hfirst]
        by_cases hlast : interval + 1 ≤ i64Max
        · rw [Build.int_checked_of_le ⟨by unfold i64Min; omega, hlast⟩]
          have hrest : ((indexes (0 + 1) max).length : Int) = max - (0 + 1) + 1 :=
            length_indexes (by omega)
          exact repeat_eq_overflow (by omega) hlast (by omega) (by unfold i64Max at *; omega)
        · rw [Build.int_checked_of_lt (by omega)]
          rfl
    · exact absurd hseeded List.not_mem_nil
  · -- the first index is taken, and the count starts again at one
    have hfirst : repeatStep .checked interval (sundayFirst field max, interval) min
        = .ok (sundayFirst field max ++ [min], 1) :=
      if_pos ⟨hseeded, hpos, Int.emod_self⟩
    constructor
    · intro h
      rw [indexes_cons hle, List.foldlM_cons, hfirst] at h
      rw [indexes_cons hle, List.length_cons] at hlength
      exact absurd h (repeat_ne_overflow Int.one_pos (by unfold i64Max; push_cast at hlength; omega))
    · rintro ⟨rfl, rfl, hweek, -⟩
      refine absurd ?_ hseeded
      unfold sundayFirst
      rw [if_pos ⟨rfl, by omega⟩]
      exact List.mem_cons_self

end Overflow

/-! ## Expressions that overflow -/

section Expressions

theorem jsInt_bounds {s : List Char} {n : Int} (h : jsInt s = some n) : 0 ≤ n ∧ n ≤ i64Max := by
  unfold jsInt at h
  split at h
  · cases h
    decide
  · split at h
    · cases h
      exact ⟨le_min (Int.natCast_nonneg _) (by decide), min_le_right _ _⟩
    · cases h

theorem interval_le_max (step : Option (List Char)) :
    (step.elim 1 fun r => (jsInt r).getD 0) ≤ i64Max := by
  cases step with
  | none => decide
  | some r =>
    cases hr : jsInt r with
    | none => rw [Option.elim_some, hr]; decide
    | some n => rw [Option.elim_some, hr]; exact (jsInt_bounds hr).2

/-- A range of the weekday field that has a Sunday first, and a step that leaves no
room for its days. -/
def HugeRange (val : List Char) (step : Option (List Char)) : Prop :=
  ∃ lo hi more max r n, val.splitOn '-' = lo :: hi :: more ∧ lo ≠ [] ∧ jsInt lo = some 0
    ∧ jsInt hi = some max ∧ (max = 0 ∨ max = 7) ∧ step = some r ∧ jsInt r = some n
    ∧ i64Max < n + max + 1

theorem parseRange_overflow_iff {field : Field} {val : List Char} {step : Option (List Char)} :
    parseRange .checked field val step = .error .overflow
      ↔ field = .dayOfWeek ∧ HugeRange val step := by
  unfold parseRange
  split
  · next lo hi more hsplit =>
    have hrange : HugeRange val step ↔ lo ≠ [] ∧ jsInt lo = some 0 ∧ ∃ max r n,
        jsInt hi = some max ∧ (max = 0 ∨ max = 7) ∧ step = some r ∧ jsInt r = some n
          ∧ i64Max < n + max + 1 := by
      constructor
      · rintro ⟨lo', hi', more', max, r, n, hsplit', hlo, hzero, hhi, h⟩
        obtain ⟨rfl, hrest⟩ := List.cons.inj (hsplit.symm.trans hsplit')
        obtain ⟨rfl, -⟩ := List.cons.inj hrest
        exact ⟨hlo, hzero, max, r, n, hhi, h⟩
      · rintro ⟨hlo, hzero, max, r, n, hhi, h⟩
        exact ⟨lo, hi, more, max, r, n, hsplit, hlo, hzero, hhi, h⟩
    rw [hrange]
    split
    · next hempty =>
      refine ⟨fun h => ?_, fun h => absurd hempty h.2.1⟩
      split at h
      · cases h
      · split at h
        · cases h
        · next n hn =>
          obtain ⟨rest, -, hn⟩ := Option.bind_eq_some_iff.1 hn
          obtain ⟨hpos, hmax⟩ := jsInt_bounds hn
          rw [Build.int_checked_of_le ⟨by unfold i64Min i64Max at *; omega,
            by unfold i64Max at *; omega⟩] at h
          cases h
    · next hlo =>
      split
      · next min max hmin hmax =>
        obtain ⟨hmin0, hminle⟩ := jsInt_bounds hmin
        have hfirst : min = 0 ↔ jsInt lo = some 0 := by
          rw [hmin, Option.some.injEq]
        split
        · next houtside =>
          refine ⟨fun h => (nomatch h), ?_⟩
          rintro ⟨rfl, -, hzero, max', r, n, hhi, hweek, -⟩
          obtain rfl : max = max' := Option.some.inj (hmax.symm.trans hhi)
          have hmin' : (0 : Int) = Field.dayOfWeek.min := rfl
          have hmax' : (7 : Int) = Field.dayOfWeek.max := rfl
          have := hfirst.2 hzero
          omega
        · next hinside =>
          rw [not_or, not_lt, not_lt] at hinside
          split
          · next hreversed =>
            refine ⟨fun h => (nomatch h), ?_⟩
            rintro ⟨rfl, -, hzero, max', r, n, hhi, hweek, -⟩
            obtain rfl : max = max' := Option.some.inj (hmax.symm.trans hhi)
            have := hfirst.2 hzero
            omega
          · next hordered =>
            dsimp only
            have hle : min ≤ max := not_lt.1 hordered
            split
            · next hnever =>
              refine ⟨fun h => (nomatch h), ?_⟩
              rintro ⟨-, -, -, max', r, n, hhi, hweek, rfl, hr, hlong⟩
              obtain rfl : max = max' := Option.some.inj (hmax.symm.trans hhi)
              rw [Option.elim_some, hr, Option.getD_some] at hnever
              unfold i64Max at hlong
              omega
            · next hpositive =>
              rw [rangeNumbers_overflow_iff hinside.1 hle hinside.2 (not_le.1 hpositive)
                (interval_le_max step)]
              constructor
              · rintro ⟨hfield, hzero, hweek, hlong⟩
                refine ⟨hfield, hlo, hfirst.1 hzero, max, ?_⟩
                cases step with
                | none =>
                  rw [Option.elim_none] at hlong
                  unfold i64Max at hlong
                  omega
                | some r =>
                  cases hr : jsInt r with
                  | none => exact absurd (by rw [Option.elim_some, hr]; exact le_rfl) hpositive
                  | some n =>
                    rw [Option.elim_some, hr, Option.getD_some] at hlong
                    exact ⟨r, n, hmax, hweek, rfl, hr, hlong⟩
              · rintro ⟨hfield, -, hzero, max', r, n, hhi, hweek, rfl, hr, hlong⟩
                obtain rfl : max = max' := Option.some.inj (hmax.symm.trans hhi)
                rw [Option.elim_some, hr, Option.getD_some]
                exact ⟨hfield, hfirst.2 hzero, hweek, hlong⟩
      · next hnone =>
        refine ⟨fun h => (nomatch h), ?_⟩
        rintro ⟨-, -, hzero, max, r, n, hhi, -⟩
        exact absurd hhi (hnone 0 max hzero)
  · next hshort =>
    refine ⟨fun h => (nomatch h), ?_⟩
    rintro ⟨-, lo, hi, more, max, r, n, hsplit, -⟩
    exact absurd hsplit (hshort lo hi more)

/-- An item of the weekday field with such a range. -/
def HugeStep (item : List Char) : Prop :=
  ∃ first step, item.splitOn '/' = [first, step]
    ∧ HugeRange (repeatStart .dayOfWeek first) (some step)

theorem parseRepeat_overflow_iff {field : Field} {val : List Char} :
    parseRepeat .checked field val = .error .overflow ↔ field = .dayOfWeek ∧ HugeStep val := by
  unfold parseRepeat HugeStep
  split
  · next first step hsplit =>
    rw [parseRange_overflow_iff]
    constructor
    · rintro ⟨rfl, hrange⟩
      exact ⟨rfl, first, step, hsplit, hrange⟩
    · rintro ⟨rfl, first', step', hsplit', hrange⟩
      obtain ⟨rfl, hstep⟩ := List.cons.inj (hsplit.symm.trans hsplit')
      obtain ⟨rfl, -⟩ := List.cons.inj hstep
      exact ⟨rfl, hrange⟩
  · next hsplit =>
    rw [parseRange_overflow_iff]
    constructor
    · rintro ⟨-, lo, hi, more, max, r, n, -, -, -, -, -, hstep, -⟩
      cases hstep
    · rintro ⟨-, first, step, hsplit', -⟩
      rw [hsplit] at hsplit'
      exact absurd hsplit' (by simp)
  · next htwo _ =>
    constructor
    · exact fun h => nomatch h
    · rintro ⟨-, first, step, hsplit, -⟩
      exact absurd hsplit (htwo first step)

theorem pushResult_ne_overflow (field : Field) (stack : List Atom) (result : Parsed) :
    pushResult field stack result ≠ .error .overflow := by
  unfold pushResult
  cases result with
  | list values =>
    intro h
    obtain ⟨s, n, -, hn⟩ := foldlM_eq_error h
    split at hn <;> cases hn
  | num n =>
    cases n with
    | none => exact fun h => nomatch h
    | some n => dsimp only; split <;> exact fun h => nomatch h
  | text t => dsimp only; split <;> exact fun h => nomatch h

theorem pushAtom_overflow_iff {field : Field} {stack : List Atom} {item : List Char} :
    pushAtom .checked field stack item = .error .overflow
      ↔ field = .dayOfWeek ∧ HugeStep item := by
  rw [← parseRepeat_overflow_iff, pushAtom, except_bind_eq_error_iff]
  constructor
  · rintro (h | ⟨result, -, h⟩)
    · exact h
    · exact absurd h (pushResult_ne_overflow field stack result)
  · exact .inl

theorem replaceAliases_ne_overflow (field : Field) (value : List Char) :
    replaceAliases field value ≠ .error .overflow := by
  induction value using replaceAliases.induct field with
  | case1 a b c rest halpha key hnone =>
    rw [replaceAliases, if_pos halpha]
    intro h
    dsimp only at h
    split at h
    · cases h
    · next hfound => exact absurd (hnone.symm.trans hfound) (by simp)
  | case2 a b c rest halpha key named hnamed ih =>
    rw [replaceAliases, if_pos halpha]
    intro h
    dsimp only at h
    split at h
    · cases h
    · exact ih (except_map_eq_error h)
  | case3 a b c rest halpha ih =>
    rw [replaceAliases, if_neg halpha]
    exact fun h => ih (except_map_eq_error h)
  | case4 short hshort =>
    rw [replaceAliases.eq_def]
    split
    · next a b c rest => exact absurd rfl (hshort a b c rest)
    · exact fun h => nomatch h

theorem fieldAtoms_ne_overflow (field : Field) (value : List Char) :
    fieldAtoms field value ≠ .error .overflow := by
  intro h
  unfold fieldAtoms at h
  rcases except_bind_eq_error h with h | ⟨value, -, h⟩
  · unfold resolveNames at h
    split at h
    · cases h
    · exact replaceAliases_ne_overflow field _ h
  · split at h
    · cases h
    · dsimp only at h
      split at h <;> cases h

theorem parseField_overflow_iff {field : Field} {value : List Char} :
    parseField .checked field value = .error .overflow
      ↔ field = .dayOfWeek ∧ ∃ items before item after stack, fieldAtoms field value = .ok items
        ∧ items = before ++ item :: after
        ∧ before.foldlM (pushAtom .checked field) [] = .ok stack ∧ HugeStep item := by
  unfold parseField
  rw [except_bind_eq_error_iff]
  constructor
  · rintro (h | ⟨items, hitems, h⟩)
    · exact absurd h (fieldAtoms_ne_overflow field value)
    · rw [except_bind_eq_error_iff] at h
      rcases h with h | ⟨stack, -, h⟩
      · obtain ⟨before, item, after, stack, heq, hbefore, hitem⟩ := foldlM_eq_error_iff.1 h
        obtain ⟨rfl, hhuge⟩ := pushAtom_overflow_iff.1 hitem
        exact ⟨rfl, items, before, item, after, stack, hitems, heq, hbefore, hhuge⟩
      · cases h
  · rintro ⟨rfl, items, before, item, after, stack, hitems, heq, hbefore, hhuge⟩
    refine .inr ⟨items, hitems, ?_⟩
    rw [except_bind_eq_error_iff]
    exact .inl (foldlM_eq_error_iff.2 ⟨before, item, after, stack, heq, hbefore,
      pushAtom_overflow_iff.2 ⟨rfl, hhuge⟩⟩)

theorem weekdayText_ne_overflow (atoms : List (List Char)) :
    weekdayText atoms ≠ .error .overflow := by
  unfold weekdayText
  split
  · exact fun h => nomatch h
  · unfold parseNthDay
    split
    · dsimp only
      split
      · exact fun h => nomatch h
      · split <;> exact fun h => nomatch h
    · exact fun h => nomatch h

theorem handleMaxDays_ne_overflow (expr : CronExpr) : handleMaxDays expr ≠ .error .overflow := by
  unfold handleMaxDays
  split
  · exact fun h => nomatch h
  · dsimp only
    split <;> split <;> exact fun h => nomatch h

/-- The text of one of the first five fields. -/
def textOf (atoms : List (List Char)) : Field → List Char
  | .second => (fieldText atoms 0).getD Field.second.default
  | .minute => (fieldText atoms 1).getD Field.minute.default
  | .hour => (fieldText atoms 2).getD Field.hour.default
  | .dayOfMonth => (fieldText atoms 3).getD Field.dayOfMonth.default
  | .month => (fieldText atoms 4).getD Field.month.default
  | .dayOfWeek => []

/-- Parsing gets as far as an item of the weekday field with a huge step: there are
not too many fields, those before are accepted, and so are the items before. -/
def ReachesHugeStep (expression : List Char) : Prop :=
  (expressionAtoms expression).length ≤ 6
    ∧ (∀ field, field ≠ .dayOfWeek → ∃ parsed,
      parseField .checked field (textOf (expressionAtoms expression) field) = .ok parsed)
    ∧ ∃ weekday nth items before item after stack,
      weekdayText (expressionAtoms expression) = .ok (weekday, nth)
        ∧ fieldAtoms .dayOfWeek weekday = .ok items ∧ items = before ++ item :: after
        ∧ before.foldlM (pushAtom .checked .dayOfWeek) [] = .ok stack ∧ HugeStep item

/-- **Parsing overflows exactly where** it gets as far as an item of the weekday field
whose range begins with a Sunday and ends with one and whose step leaves no room
for its days. -/
theorem parse_overflow_iff (expression : List Char) :
    parse .checked expression ≠ .error .overflow ↔ ¬ ReachesHugeStep expression := by
  rw [not_iff_not]
  have hother : ∀ field, field ≠ .dayOfWeek → ∀ text,
      parseField .checked field text ≠ .error .overflow := fun field hfield text h =>
    hfield (parseField_overflow_iff.1 h).1
  unfold parse ReachesHugeStep
  dsimp only
  split
  · next hmany => exact ⟨fun h => (nomatch h), fun h => absurd h.1 (by omega)⟩
  · next hfew =>
    constructor
    · intro h
      rcases except_bind_eq_error h with h | ⟨second, hsecond, h⟩
      · exact absurd h (hother _ (by decide) _)
      rcases except_bind_eq_error h with h | ⟨minute, hminute, h⟩
      · exact absurd h (hother _ (by decide) _)
      rcases except_bind_eq_error h with h | ⟨hour, hhour, h⟩
      · exact absurd h (hother _ (by decide) _)
      rcases except_bind_eq_error h with h | ⟨dayOfMonth, hdayOfMonth, h⟩
      · exact absurd h (hother _ (by decide) _)
      rcases except_bind_eq_error h with h | ⟨month, hmonth, h⟩
      · exact absurd h (hother _ (by decide) _)
      rcases except_bind_eq_error h with h | ⟨⟨weekday, nth⟩, hweekday, h⟩
      · exact absurd h (weekdayText_ne_overflow _)
      rcases except_bind_eq_error h with h | ⟨dayOfWeek, -, h⟩
      · obtain ⟨-, items, before, item, after, stack, hitems⟩ := parseField_overflow_iff.1 h
        refine ⟨by omega, fun field hfield => ?_,
          weekday, nth, items, before, item, after, stack, hweekday, hitems⟩
        cases field with
        | second => exact ⟨_, hsecond⟩
        | minute => exact ⟨_, hminute⟩
        | hour => exact ⟨_, hhour⟩
        | dayOfMonth => exact ⟨_, hdayOfMonth⟩
        | month => exact ⟨_, hmonth⟩
        | dayOfWeek => exact absurd rfl hfield
      · exact absurd h (handleMaxDays_ne_overflow _)
    · rintro ⟨-, hfields, weekday, nth, items, before, item, after, stack, hweekday, hitems⟩
      obtain ⟨second, hsecond⟩ := hfields .second (by decide)
      obtain ⟨minute, hminute⟩ := hfields .minute (by decide)
      obtain ⟨hour, hhour⟩ := hfields .hour (by decide)
      obtain ⟨dayOfMonth, hdayOfMonth⟩ := hfields .dayOfMonth (by decide)
      obtain ⟨month, hmonth⟩ := hfields .month (by decide)
      have hover : parseField .checked .dayOfWeek weekday = .error .overflow :=
        parseField_overflow_iff.2 ⟨rfl, items, before, item, after, stack, hitems⟩
      refine except_bind_eq_error_iff.2 (.inr ⟨second, hsecond, ?_⟩)
      refine except_bind_eq_error_iff.2 (.inr ⟨minute, hminute, ?_⟩)
      refine except_bind_eq_error_iff.2 (.inr ⟨hour, hhour, ?_⟩)
      refine except_bind_eq_error_iff.2 (.inr ⟨dayOfMonth, hdayOfMonth, ?_⟩)
      refine except_bind_eq_error_iff.2 (.inr ⟨month, hmonth, ?_⟩)
      refine except_bind_eq_error_iff.2 (.inr ⟨(weekday, nth), hweekday, ?_⟩)
      exact except_bind_eq_error_iff.2 (.inl hover)

/-- **An expression that overflows**: every day of the week, at the largest step. -/
theorem parse_overflow_weekday :
    parse .checked "* * * * */9223372036854775807".toList = .error .overflow := by
  decide +kernel

end Expressions

end Cron

end Foreseerr

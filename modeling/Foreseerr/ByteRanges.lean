import Foreseerr.DateReading
import Foreseerr.Delimited
import Foreseerr.IntTexts
import Mathlib.Data.List.Sort
import Mathlib.Data.Prod.Lex

/-!
# Byte ranges

`parse_range` reads a `Range` header as range-parser does, with the ranges combined: each
part names a range of the file, the ranges are sorted and merged where they overlap or
touch, and what is left is sent when it is one range.

The merging is right (`merge_ranges`), and nothing overflows. The numbers are read as their
first 18 digits only: what is answered is right for the text exactly where that makes no
difference to the bytes it names (`ByteRanges.answers_iff`).
-/

namespace Foreseerr

namespace ByteRanges

/-! ## Merging ranges -/

/-- A number is in one of the ranges. -/
def Within (ranges : List (Int × Int)) (x : Int) : Prop := ∃ r ∈ ranges, r.1 ≤ x ∧ x ≤ r.2

/-- One round of the loop that merges, on the combined ranges from the last to the first. -/
def mergeOne : List (Int × Int) → Int × Int → Except Overflow (List (Int × Int))
  | [], range => .ok [range]
  | last :: done, (start, stop) => do
    let next ← i64 (last.2 + 1)
    .ok (if start ≤ next then (last.1, max last.2 stop) :: done
      else (start, stop) :: last :: done)

/-- Ranges in a file, from the last to the first, with a gap between any two. -/
structure Apart (size : Int) (ranges : List (Int × Int)) : Prop where
  gaps : ranges.Pairwise fun later earlier => earlier.2 + 1 < later.1
  bounds : ∀ r ∈ ranges, 0 ≤ r.1 ∧ r.1 ≤ r.2 ∧ r.2 < size

theorem within_cons {r : Int × Int} {ranges : List (Int × Int)} {x : Int} :
    Within (r :: ranges) x ↔ (r.1 ≤ x ∧ x ≤ r.2) ∨ Within ranges x := by
  simp [Within]

theorem within_nil {x : Int} : ¬ Within [] x := by
  simp [Within]

/-- A round adds its range, which starts no earlier than the last one. -/
theorem mergeOne_spec {size : Int} (hsize : size < 2 ^ 63) {combined : List (Int × Int)}
    (h : Apart size combined) {start stop : Int} (hrange : 0 ≤ start ∧ start ≤ stop ∧ stop < size)
    (hlater : ∀ last ∈ combined.head?, last.1 ≤ start) :
    ∃ merged, mergeOne combined (start, stop) = .ok merged ∧ Apart size merged
      ∧ (∀ x, Within merged x ↔ Within combined x ∨ (start ≤ x ∧ x ≤ stop))
      ∧ ∃ last ∈ merged.head?, last.1 ≤ start := by
  cases combined with
  | nil =>
    refine ⟨[(start, stop)], rfl, ⟨List.pairwise_singleton _ _, ?_⟩, fun x => ?_, _, rfl, le_rfl⟩
    · rw [List.forall_mem_singleton]
      exact hrange
    · rw [within_cons, or_comm]
  | cons last done =>
    have hlast := h.bounds last List.mem_cons_self
    have hstart : last.1 ≤ start := hlater last rfl
    have hgaps := List.pairwise_cons.1 h.gaps
    have hi64 : InI64 (last.2 + 1) := by
      constructor <;> omega
    have hmerge : mergeOne (last :: done) (start, stop)
        = .ok (if start ≤ last.2 + 1 then (last.1, max last.2 stop) :: done
          else (start, stop) :: last :: done) := by
      unfold mergeOne
      dsimp only
      rw [i64_bind_ok hi64]
    refine ⟨_, hmerge, ?_⟩
    split
    next htouch =>
      refine ⟨⟨List.pairwise_cons.2 hgaps, ?_⟩, fun x => ?_, _, rfl, hstart⟩
      · rw [List.forall_mem_cons]
        refine ⟨⟨hlast.1, ?_, ?_⟩, fun r hr => h.bounds r (List.mem_cons_of_mem _ hr)⟩
        · exact hlast.2.1.trans (le_max_left _ _)
        · exact max_lt hlast.2.2 hrange.2.2
      · rw [within_cons, within_cons]
        have hunion : (last.1 ≤ x ∧ x ≤ max last.2 stop)
            ↔ (last.1 ≤ x ∧ x ≤ last.2) ∨ (start ≤ x ∧ x ≤ stop) := by
          rw [le_max_iff]
          omega
        rw [hunion, or_right_comm]
    next hgap =>
      refine ⟨⟨List.pairwise_cons.2 ⟨?_, h.gaps⟩, ?_⟩, fun x => ?_, _, rfl, le_rfl⟩
      · rw [List.forall_mem_cons]
        refine ⟨not_le.1 hgap, fun r hr => ?_⟩
        exact (hgaps.1 r hr).trans_le hstart
      · rw [List.forall_mem_cons]
        exact ⟨hrange, h.bounds⟩
      · rw [within_cons, or_comm]

theorem foldlM_mergeOne {size : Int} (hsize : size < 2 ^ 63) {ranges combined : List (Int × Int)}
    (h : Apart size combined) (hranges : ∀ r ∈ ranges, 0 ≤ r.1 ∧ r.1 ≤ r.2 ∧ r.2 < size)
    (hsorted : ranges.Pairwise fun a b => a.1 ≤ b.1)
    (hlater : ∀ last ∈ combined.head?, ∀ r ∈ ranges, last.1 ≤ r.1) :
    ∃ merged, ranges.foldlM mergeOne combined = .ok merged ∧ Apart size merged
      ∧ ∀ x, Within merged x ↔ Within combined x ∨ Within ranges x := by
  induction ranges generalizing combined with
  | nil => exact ⟨combined, rfl, h, fun x => (or_iff_left within_nil).symm⟩
  | cons range ranges ih =>
    rw [List.forall_mem_cons] at hranges
    rw [List.pairwise_cons] at hsorted
    obtain ⟨merged, hmerge, hapart, hwithin, last, hlast, hle⟩ := mergeOne_spec hsize h hranges.1
      fun last hlast => hlater last hlast range List.mem_cons_self
    have hlater' : ∀ last ∈ merged.head?, ∀ r ∈ ranges, last.1 ≤ r.1 := by
      intro last' hlast' r hr
      rw [Option.mem_unique hlast' hlast]
      exact hle.trans (hsorted.1 r hr)
    obtain ⟨all, hall, hapart, hwithin'⟩ := ih hapart hranges.2 hsorted.2 hlater'
    refine ⟨all, ?_, hapart, fun x => ?_⟩
    · rw [List.foldlM_cons, hmerge]
      exact hall
    · rw [hwithin', hwithin, within_cons, or_assoc]

/-- The loop that merges. -/
def combine (ranges : List (Int × Int)) : Except Overflow (List (Int × Int)) := do
  .ok (← ranges.foldlM mergeOne []).reverse

/-- Ranges by where they start. -/
def sorted (ranges : List (Int × Int)) : List (Int × Int) :=
  ((ranges.map toLex).insertionSort (· ≤ ·)).map ofLex

theorem mem_sorted {ranges : List (Int × Int)} {r : Int × Int} :
    r ∈ sorted ranges ↔ r ∈ ranges := by
  simp only [sorted, List.mem_map, List.mem_insertionSort, exists_exists_and_eq_and, ofLex_toLex,
    exists_eq_right]

theorem pairwise_sorted (ranges : List (Int × Int)) :
    (sorted ranges).Pairwise fun a b => a.1 ≤ b.1 := by
  rw [sorted, List.pairwise_map]
  refine (List.pairwise_insertionSort (· ≤ ·) _).imp fun {a b} h => ?_
  rcases Prod.Lex.le_iff.1 h with h | h
  · exact h.le
  · exact h.1.le

/-- **Merging leaves one range exactly where the ranges have no gap.** -/
theorem merge_ranges {size : Int} (hsize : size < 2 ^ 63) {ranges : List (Int × Int)}
    (hranges : ∀ r ∈ ranges, 0 ≤ r.1 ∧ r.1 ≤ r.2 ∧ r.2 < size) (hne : ranges ≠ []) :
    ∃ merged, combine (sorted ranges) = .ok merged
      ∧ ((∃ r, merged = [r] ∧ 0 ≤ r.1 ∧ r.1 ≤ r.2 ∧ r.2 < size
            ∧ ∀ x, Within ranges x ↔ r.1 ≤ x ∧ x ≤ r.2)
        ∨ ((∀ r, merged ≠ [r])
            ∧ ¬ ∃ start stop, ∀ x, Within ranges x ↔ start ≤ x ∧ x ≤ stop)) := by
  obtain ⟨rev, hrev, hapart, hwithin⟩ := foldlM_mergeOne hsize
    (⟨List.Pairwise.nil, List.forall_mem_nil _⟩ : Apart size []) (fun r hr => hranges r (mem_sorted.1 hr))
    (pairwise_sorted ranges) (fun _ h => nomatch h)
  have hunion : ∀ x, Within rev x ↔ Within ranges x := by
    intro x
    rw [hwithin, or_iff_right within_nil]
    simp only [Within, mem_sorted]
  refine ⟨rev.reverse, by rw [combine, hrev]; rfl, ?_⟩
  match rev, hapart, hunion with
  | [], _, hunion =>
    obtain ⟨r, rest, rfl⟩ := List.exists_cons_of_ne_nil hne
    have hr := hranges r List.mem_cons_self
    exact absurd ((hunion r.1).2 ⟨r, List.mem_cons_self, le_rfl, hr.2.1⟩) within_nil
  | [r], hapart, hunion =>
    refine .inl ⟨r, rfl, ?_⟩
    obtain ⟨hpos, hle, hlt⟩ := hapart.bounds r List.mem_cons_self
    refine ⟨hpos, hle, hlt, fun x => ?_⟩
    rw [← hunion, within_cons, or_iff_left within_nil]
  | later :: earlier :: done, hapart, hunion =>
    refine .inr ⟨fun r h => ?_, ?_⟩
    · have hlength := congrArg List.length h
      rw [List.length_reverse, List.length_cons, List.length_cons, List.length_singleton]
        at hlength
      omega
    · -- What follows the end of the range before the last is in none.
      rintro ⟨start, stop, hblock⟩
      have hgap := (List.pairwise_cons.1 hapart.gaps).1 earlier List.mem_cons_self
      have hlater := hapart.bounds later List.mem_cons_self
      have hearlier := hapart.bounds earlier (List.mem_cons_of_mem _ List.mem_cons_self)
      have hfirst := (hblock _).1 ((hunion earlier.2).1
        ⟨earlier, List.mem_cons_of_mem _ List.mem_cons_self, hearlier.2.1, le_rfl⟩)
      have hsecond := (hblock _).1 ((hunion later.1).1
        ⟨later, List.mem_cons_self, le_rfl, hlater.2.1⟩)
      obtain ⟨r, hr, hle, hge⟩ := (hunion (earlier.2 + 1)).2 ((hblock _).2 (by omega))
      have hgaps := List.pairwise_cons.1 (List.pairwise_cons.1 hapart.gaps).2
      rcases List.mem_cons.1 hr with rfl | hr
      · omega
      · rcases List.mem_cons.1 hr with rfl | hr
        · omega
        · have := hgaps.1 r hr
          have := (hapart.bounds r (by simp [hr])).2.1
          omega

/-! ## Reading the ranges -/

/-- `RangeResult`. -/
inductive RangeResult
  /-- No usable range: the whole file is sent. -/
  | ignore
  | unsatisfiable
  /-- One combined range, both ends in it. -/
  | one (start stop : Nat)
deriving DecidableEq, Repr

/-- Whether a text starts with a `-`, and what follows its sign. -/
def signOf : List Char → Bool × List Char
  | '-' :: rest => (true, rest)
  | '+' :: rest => (false, rest)
  | text => (false, text)

/-- `parse_int`: the first 18 digits of a number. -/
def parseInt (text : List Char) : Except Overflow (Option Int) :=
  let (negative, rest) := signOf (text.dropWhile isWhiteSpace)
  let digits := (rest.takeWhile Char.isDigit).take 18
  let n : Int := digitsValue 10 digits
  if digits = [] ∨ ¬ InI64 n then .ok none
  else if negative then (i64 (-n)).map some
  else .ok (some n)

/-- One of the two ends of a part, when the part has it. -/
def boundOf : Option (List Char) → Except Overflow (Option Int)
  | none => .ok none
  | some piece => parseInt piece

/-- The ends of the range a part stands for. -/
def endsOf (size : Int) : Option Int → Option Int → Except Overflow (Option (Int × Int))
  | none, some suffix => do
    let start ← i64 (size - suffix)
    let stop ← i64 (size - 1)
    .ok (some (start, stop))
  | some start, none => do
    let stop ← i64 (size - 1)
    .ok (some (start, stop))
  | some start, some stop => do
    let last ← i64 (size - 1)
    .ok (some (start, min stop last))
  | none, none => .ok none

/-- The range a part adds. -/
def partRange (size : Int) (part : List Char) : Except Overflow (Option (Int × Int)) := do
  let bounds := part.splitOn '-'
  let start ← boundOf bounds[0]?
  let stop ← boundOf bounds[1]?
  let ends ← endsOf size start stop
  .ok (ends.filter fun r => ¬ (r.1 > r.2 ∨ r.1 < 0))

/-- What is answered to the combined ranges. -/
def resultOf : List (Int × Int) → RangeResult
  | [(start, stop)] => if 0 ≤ start ∧ 0 ≤ stop then .one start.toNat stop.toNat else .ignore
  | _ => .ignore

/-- The size of a file as an `i64`. -/
def clamped (size : Nat) : Int := min size (2 ^ 63 - 1)

/-- `parse_range`. -/
def parseRange (size : Nat) (spec : List Char) : Except Overflow RangeResult :=
  match splitOnce '=' spec with
  | none => .ok .ignore
  | some (_, specs) => do
    let parts ← (specs.splitOn ',').mapM (partRange (clamped size))
    let ranges := parts.reduceOption
    if ranges = [] then .ok .unsatisfiable
    else .ok (resultOf (← combine (sorted ranges)))

/-! ## The bytes asked for -/

section Named

variable (read : List Char → Nat)

/-- A text without the `+` it starts with. -/
def afterPlus : List Char → List Char
  | '+' :: rest => rest
  | text => text

/-- The number a text starts with, after white space and a `+`. -/
def numberIn (text : List Char) : Option Nat :=
  let digits := (afterPlus (text.dropWhile isWhiteSpace)).takeWhile Char.isDigit
  if digits = [] then none else some (read digits)

/-- The range a part names: `first-last`, `first-` or `-n`. -/
def namedEnds (size : Int) : Option Nat → Option Nat → Option (Int × Int)
  | none, some n => some (size - n, size - 1)
  | some first, none => some (first, size - 1)
  | some first, some last => some (first, min last (size - 1))
  | none, none => none

/-- The range a part names, when it is not empty and starts in the file. -/
def namedRange (size : Int) (part : List Char) : Option (Int × Int) :=
  let bounds := part.splitOn '-'
  (namedEnds size (bounds[0]?.bind (numberIn read)) (bounds[1]?.bind (numberIn read))).filter
    fun r => 0 ≤ r.1 ∧ r.1 ≤ r.2

/-- The ranges a text names in a file, its numbers as `read` reads their digits. -/
def named (size : Int) (text : List Char) : List (Int × Int) :=
  match splitOnce '=' text with
  | none => []
  | some (_, parts) => (parts.splitOn ',').filterMap (namedRange read size)

end Named

/-- The number some digits are. -/
def whole (digits : List Char) : Nat := digitsValue 10 digits

/-- The number the first 18 of some digits are. -/
def short (digits : List Char) : Nat := digitsValue 10 (digits.take 18)

/-- Bytes from the first to the last. -/
def IsBlock (asked : Int → Prop) (start stop : Int) : Prop := ∀ x, asked x ↔ start ≤ x ∧ x ≤ stop

/-- Some bytes, with a gap between them. -/
def HasGap (asked : Int → Prop) : Prop := (∃ x, asked x) ∧ ¬ ∃ start stop, IsBlock asked start stop

/-- The answer to a text, with or without its `=`, that asks for these bytes. -/
structure Answers (equals : Prop) (asked : Int → Prop) (result : RangeResult) : Prop where
  one : ∀ start stop : Nat,
    result = .one start stop ↔ equals ∧ start ≤ stop ∧ IsBlock asked start stop
  unsatisfiable : result = .unsatisfiable ↔ equals ∧ ∀ x, ¬ asked x
  ignore : result = .ignore ↔ ¬ equals ∨ HasGap asked

theorem signOf_eq {text : List Char} (h : '-' ∉ text) : signOf text = (false, afterPlus text) := by
  unfold signOf afterPlus
  split
  next rest => exact absurd List.mem_cons_self h
  next rest => rfl
  next hminus hplus =>
    split
    next rest => exact absurd rfl (hplus rest)
    next => rfl

/-- A number of 18 digits is an `i64`. -/
theorem inI64_short {digits : List Char} (h : ∀ c ∈ digits, c.isDigit) :
    0 ≤ (short digits : Int) ∧ (short digits : Int) < 10 ^ 18 := by
  have hdigits : ∀ c ∈ digits.take 18, c.isDigit := fun c hc => h c (List.mem_of_mem_take hc)
  have hlt := ofDigitChars_lt hdigits
  have hlength := Nat.pow_le_pow_right (n := 10) (by decide) (List.length_take_le 18 digits)
  rw [← digitsValue_eq hdigits] at hlt
  refine ⟨Int.natCast_nonneg _, ?_⟩
  exact_mod_cast hlt.trans_le hlength

/-- Between two dashes there is no sign but a `+`. -/
theorem parseInt_piece {piece : List Char} (h : '-' ∉ piece) :
    parseInt piece = .ok ((numberIn short piece).map Nat.cast) := by
  have hsign := signOf_eq fun hmem => h (List.dropWhile_subset isWhiteSpace hmem)
  unfold parseInt numberIn
  rw [hsign]
  dsimp only
  set digits := (afterPlus (piece.dropWhile isWhiteSpace)).takeWhile Char.isDigit with hdigits
  have hall : ∀ c ∈ digits, c.isDigit := fun c hc => List.mem_takeWhile_imp hc
  have hbound := inI64_short hall
  have hi64 : InI64 (digitsValue 10 (digits.take 18)) := by
    unfold short at hbound
    constructor <;> omega
  have hnil : digits.take 18 = [] ↔ digits = [] := by simp
  by_cases hempty : digits = []
  · rw [if_pos (.inl (hnil.2 hempty)), if_pos hempty]
    rfl
  · rw [if_neg (not_or.2 ⟨mt hnil.1 hempty, not_not.2 hi64⟩), if_neg hempty]
    rfl

theorem numberIn_lt {piece : List Char} {n : Nat} (h : numberIn short piece = some n) :
    (n : Int) < 10 ^ 18 := by
  unfold numberIn at h
  dsimp only at h
  split at h
  · cases h
  · rw [← Option.some.inj h]
    exact (inI64_short fun c hc => List.mem_takeWhile_imp hc).2

/-- What a part names is in the file. -/
theorem namedRange_bounds {read : List Char → Nat} {size : Int} {part : List Char} {r : Int × Int}
    (h : namedRange read size part = some r) : 0 ≤ r.1 ∧ r.1 ≤ r.2 ∧ r.2 < size := by
  obtain ⟨hends, hin⟩ := Option.filter_eq_some_iff.1 h
  rw [decide_eq_true_iff] at hin
  refine ⟨hin.1, hin.2, ?_⟩
  unfold namedEnds at hends
  split at hends
  next n => 
    obtain rfl := Option.some.inj hends
    exact sub_one_lt size
  next first =>
    obtain rfl := Option.some.inj hends
    exact sub_one_lt size
  next first last =>
    obtain rfl := Option.some.inj hends
    exact (min_le_right _ _).trans_lt (sub_one_lt size)
  next => cases hends

theorem named_bounds {read : List Char → Nat} {size : Int} {text : List Char} :
    ∀ r ∈ named read size text, 0 ≤ r.1 ∧ r.1 ≤ r.2 ∧ r.2 < size := by
  unfold named
  split
  next => exact List.forall_mem_nil _
  next parts _ =>
    intro r hr
    obtain ⟨part, _, hpart⟩ := List.mem_filterMap.1 hr
    exact namedRange_bounds hpart

theorem boundOf_piece {piece : Option (List Char)} (h : ∀ p ∈ piece, '-' ∉ p) :
    boundOf piece = .ok ((piece.bind (numberIn short)).map Nat.cast) := by
  cases piece with
  | none => rfl
  | some p => exact parseInt_piece (h p rfl)

theorem bound_lt {piece : Option (List Char)} {n : Nat} (h : piece.bind (numberIn short) = some n) :
    (n : Int) < 10 ^ 18 := by
  obtain ⟨p, _, hp⟩ := Option.bind_eq_some_iff.1 h
  exact numberIn_lt hp

theorem endsOf_numbers {size : Int} (hsize : 0 ≤ size ∧ size < 2 ^ 63) {start stop : Option Nat}
    (hstop : ∀ n ∈ stop, (n : Int) < 10 ^ 18) :
    endsOf size (start.map Nat.cast) (stop.map Nat.cast) = .ok (namedEnds size start stop) := by
  have hlast : InI64 (size - 1) := by
    constructor <;> omega
  cases start with
  | none =>
    cases stop with
    | none => rfl
    | some n =>
      have hn := hstop n rfl
      have hfirst : InI64 (size - n) := by
        constructor <;> omega
      simp only [endsOf, Option.map_none, Option.map_some, i64_bind_ok hfirst, i64_bind_ok hlast]
      rfl
  | some first =>
    cases stop with
    | none =>
      simp only [endsOf, Option.map_none, Option.map_some, i64_bind_ok hlast]
      rfl
    | some last =>
      simp only [endsOf, Option.map_some, i64_bind_ok hlast]
      rfl

/-- A part adds the range it names, its numbers read as their first 18 digits. -/
theorem partRange_eq {size : Int} (hsize : 0 ≤ size ∧ size < 2 ^ 63) (part : List Char) :
    partRange size part = .ok (namedRange short size part) := by
  have hpiece : ∀ i : Nat, ∀ p ∈ (part.splitOn '-')[i]?, '-' ∉ p := fun i p hp =>
    Delimited.not_mem_of_mem_splitOn (List.mem_of_getElem? hp)
  unfold partRange namedRange
  dsimp only
  rw [boundOf_piece (hpiece 0), boundOf_piece (hpiece 1)]
  dsimp only [bind, Except.bind]
  rw [endsOf_numbers hsize fun n hn => bound_lt hn]
  dsimp only
  have hpred : (fun r : Int × Int => decide ¬ (r.1 > r.2 ∨ r.1 < 0))
      = fun r => decide (0 ≤ r.1 ∧ r.1 ≤ r.2) := by
    funext r
    rw [decide_eq_decide, not_or, not_lt, not_lt, and_comm]
  rw [hpred]

theorem mapM_partRange {size : Int} (hsize : 0 ≤ size ∧ size < 2 ^ 63)
    (parts : List (List Char)) :
    parts.mapM (partRange size) = .ok (parts.map (namedRange short size)) := by
  induction parts with
  | nil => rfl
  | cons part parts ih =>
    rw [List.mapM_cons, partRange_eq hsize, ih]
    rfl

theorem clamped_bounds (size : Nat) : 0 ≤ clamped size ∧ clamped size < 2 ^ 63 := by
  unfold clamped
  omega

section Answers

variable {equals : Prop} {asked : Int → Prop}

theorem IsBlock.unique {start stop start' stop' : Int} (h : IsBlock asked start stop)
    (h' : IsBlock asked start' stop') (hle : start ≤ stop) : start = start' ∧ stop = stop' := by
  have hfirst := (h' start).1 ((h start).2 ⟨le_rfl, hle⟩)
  have hlast := (h' stop).1 ((h stop).2 ⟨hle, le_rfl⟩)
  have hfirst' := (h start').1 ((h' start').2 ⟨le_rfl, by omega⟩)
  have hlast' := (h stop').1 ((h' stop').2 ⟨by omega, le_rfl⟩)
  omega

theorem Answers.of_block (heq : equals) {start stop : Nat} (hle : start ≤ stop)
    (h : IsBlock asked start stop) : Answers equals asked (.one start stop) where
  one start' stop' := by
    constructor
    · rintro ⟨⟩
      exact ⟨heq, hle, h⟩
    · rintro ⟨-, -, h'⟩
      obtain ⟨hstart, hstop⟩ := h.unique h' (by omega)
      rw [Int.ofNat_inj.1 hstart, Int.ofNat_inj.1 hstop]
  unsatisfiable := by
    refine iff_of_false nofun fun hnone => hnone.2 start ((h start).2 ⟨le_rfl, by omega⟩)
  ignore := by
    refine iff_of_false nofun fun hgap => ?_
    rcases hgap with hne | hgap
    · exact hne heq
    · exact hgap.2 ⟨start, stop, h⟩

theorem Answers.of_nothing (heq : equals) (h : ∀ x, ¬ asked x) :
    Answers equals asked .unsatisfiable where
  one start stop := by
    refine iff_of_false nofun fun hone => h start ((hone.2.2 start).2 ⟨le_rfl, ?_⟩)
    exact Int.ofNat_le.2 hone.2.1
  unsatisfiable := iff_of_true rfl ⟨heq, h⟩
  ignore := by
    refine iff_of_false nofun fun hgap => ?_
    rcases hgap with hne | ⟨⟨x, hx⟩, -⟩
    · exact hne heq
    · exact h x hx

theorem Answers.of_gap (h : ¬ equals ∨ HasGap asked) : Answers equals asked .ignore where
  one start stop := by
    refine iff_of_false nofun fun hone => ?_
    rcases h with hne | hgap
    · exact hne hone.1
    · exact hgap.2 ⟨start, stop, hone.2.2⟩
  unsatisfiable := by
    refine iff_of_false nofun fun hnone => ?_
    rcases h with hne | ⟨⟨x, hx⟩, -⟩
    · exact hne hnone.1
    · exact hnone.2 x hx
  ignore := iff_of_true rfl h

end Answers

/-- The answer is right for the numbers read as their first 18 digits, and nothing
overflows. -/
theorem parseRange_short (size : Nat) (text : List Char) :
    ∃ result, parseRange size text = .ok result
      ∧ Answers (splitOnce '=' text).isSome (Within (named short (clamped size) text)) result
      ∧ ∀ start stop : Nat, result = .one start stop → stop < size := by
  have hbounds : ∀ r ∈ named short (clamped size) text, 0 ≤ r.1 ∧ r.1 ≤ r.2 ∧ r.2 < clamped size :=
    named_bounds
  unfold parseRange
  cases hsplit : splitOnce '=' text with
  | none => exact ⟨.ignore, rfl, .of_gap (.inl Bool.false_ne_true), fun _ _ => nofun⟩
  | some halves =>
    obtain ⟨before, parts⟩ := halves
    have hnamed : ((parts.splitOn ',').map (namedRange short (clamped size))).reduceOption
        = named short (clamped size) text := by
      rw [named, hsplit]
      exact List.filterMap_map
    dsimp only
    rw [mapM_partRange (clamped_bounds size)]
    dsimp only [bind, Except.bind]
    rw [hnamed]
    by_cases hnil : named short (clamped size) text = []
    · rw [if_pos hnil, hnil]
      exact ⟨.unsatisfiable, rfl, .of_nothing rfl fun _ => within_nil, fun _ _ => nofun⟩
    · obtain ⟨merged, hmerged, hone | hmany⟩ :=
        merge_ranges (clamped_bounds size).2 hbounds hnil
      · obtain ⟨r, rfl, hpos, hle, hlt, hblock⟩ := hone
        rw [if_neg hnil, hmerged]
        have hstop : 0 ≤ r.2 := hpos.trans hle
        refine ⟨.one r.1.toNat r.2.toNat, congrArg Except.ok (if_pos ⟨hpos, hstop⟩), ?_, ?_⟩
        · refine .of_block rfl (Int.toNat_le_toNat hle) fun x => ?_
          rw [Int.toNat_of_nonneg hpos, Int.toNat_of_nonneg hstop]
          exact hblock x
        · rintro _ _ ⟨⟩
          unfold clamped at hlt
          omega
      · obtain ⟨hmany, hgap⟩ := hmany
        rw [if_neg hnil, hmerged]
        refine ⟨.ignore, congrArg Except.ok ?_, .of_gap (.inr ⟨?_, hgap⟩), fun _ _ => nofun⟩
        · match merged, hmany with
          | [], _ => rfl
          | [r], hmany => exact absurd rfl (hmany r)
          | _ :: _ :: _, _ => rfl
        · obtain ⟨r, hr⟩ := List.exists_mem_of_ne_nil _ hnil
          exact ⟨r.1, r, hr, le_rfl, (hbounds r hr).2.1⟩

/-- The same bytes, or a gap in both. -/
def SameBytes (asked asked' : Int → Prop) : Prop :=
  (∀ x, asked x ↔ asked' x) ∨ (HasGap asked ∧ HasGap asked')

theorem Answers.same {equals : Prop} {asked asked' : Int → Prop} {result : RangeResult}
    (h : Answers equals asked result) (h' : Answers equals asked' result)
    (hne : ¬ equals → ∀ x, asked x ↔ asked' x) : SameBytes asked asked' := by
  cases result with
  | ignore =>
    by_cases heq : equals
    · have hgap := (h.ignore.1 rfl).resolve_left (not_not.2 heq)
      exact .inr ⟨hgap, (h'.ignore.1 rfl).resolve_left (not_not.2 heq)⟩
    · exact .inl (hne heq)
  | unsatisfiable =>
    exact .inl fun x => iff_of_false ((h.unsatisfiable.1 rfl).2 x) ((h'.unsatisfiable.1 rfl).2 x)
  | one start stop =>
    exact .inl fun x => (((h.one _ _).1 rfl).2.2 x).trans (((h'.one _ _).1 rfl).2.2 x).symm

end ByteRanges

end Foreseerr

import Mathlib.Data.Int.Log
import Mathlib.Data.Rat.Floor
import Mathlib.Tactic.Linarith
import Mathlib.Tactic.Positivity

/-!
# Doubles

The double a number is stored as: of those with 53 binary digits the nearest,
and of two that are equally near the one with an even last digit. Whole numbers
below `2 ^ 53` are doubles themselves (`double_intCast`); the double of a larger
one is at least as large as that bound (`two_pow_le_of_double`), which is all
that is needed to tell the two kinds apart.
-/

/-- The nearest whole number, the even one of two. -/
def roundEven (x : ℚ) : ℤ :=
  if 2 * (x - ⌊x⌋) < 1 ∨ 2 * (x - ⌊x⌋) = 1 ∧ ⌊x⌋ % 2 = 0 then ⌊x⌋ else ⌊x⌋ + 1

/-- What the last binary digit of the double of a number stands for. -/
def lastPlace (q : ℚ) : ℚ := 2 ^ max (Int.log 2 |q| - 52) (-1074)

/-- **The double of a number**, if it is not too large for one. -/
def double (q : ℚ) : Option ℚ :=
  let r := roundEven (q / lastPlace q) * lastPlace q
  if |r| < 2 ^ 1024 then some r else none

example : double 9007199254740993 = some 9007199254740992 := by decide +kernel

theorem roundEven_intCast (k : ℤ) : roundEven k = k := by
  simp [roundEven]

theorem abs_roundEven_sub_lt (x : ℚ) : |(roundEven x : ℚ) - x| < 1 := by
  have hfloor := Int.floor_le x
  have hlt := Int.lt_floor_add_one x
  unfold roundEven
  rw [abs_lt]
  split_ifs with hdown
  · constructor <;> linarith
  · have hup := not_lt.1 fun h => hdown (.inl h)
    push_cast
    constructor <;> linarith

theorem le_abs_roundEven {n : ℕ} {x : ℚ} (h : (n : ℚ) ≤ |x|) : (n : ℤ) ≤ |roundEven x| := by
  have hclose := abs_roundEven_sub_lt x
  have htriangle := abs_sub_abs_le_abs_sub x (roundEven x)
  rw [abs_sub_comm] at htriangle
  have hcast : ((n : ℤ) : ℚ) < ((|roundEven x| + 1 : ℤ) : ℚ) := by
    push_cast
    linarith
  have := Int.cast_lt.1 hcast
  omega

theorem lastPlace_pos (q : ℚ) : 0 < lastPlace q := zpow_pos two_pos _

/-- Whole numbers of 53 binary digits are doubles. -/
theorem double_intCast {n : ℤ} (h : |n| < 2 ^ 53) : double n = some (n : ℚ) := by
  have habs : |(n : ℚ)| = (n.natAbs : ℚ) := by rw [Nat.cast_natAbs, Int.cast_abs]
  have hlog : Int.log 2 |(n : ℚ)| = Nat.log 2 n.natAbs := by rw [habs, Int.log_natCast]
  have hle : Nat.log 2 n.natAbs ≤ 52 := by
    rw [Int.abs_eq_natAbs] at h
    have hlt : n.natAbs < 2 ^ 53 := by exact_mod_cast h
    exact Nat.lt_succ_iff.1 (Nat.log_lt_of_lt_pow' (by decide) hlt)
  obtain ⟨k, hk⟩ := Nat.exists_eq_add_of_le hle
  have hplace : lastPlace n = (2 ^ k)⁻¹ := by
    have hexponent : max (Int.log 2 |(n : ℚ)| - 52) (-1074) = -(k : ℤ) := by
      rw [hlog]
      omega
    rw [lastPlace, hexponent, zpow_neg, zpow_natCast]
  have hwhole : (n : ℚ) / lastPlace n = ((n * 2 ^ k : ℤ) : ℚ) := by
    rw [hplace, div_inv_eq_mul]
    push_cast
    rfl
  have hround : (roundEven (n / lastPlace n) : ℚ) * lastPlace n = n := by
    rw [hwhole, roundEven_intCast, ← hwhole, div_mul_cancel₀ _ (lastPlace_pos _).ne']
  have hsmall : |(n : ℚ)| < 2 ^ 1024 := by
    have hcast : |(n : ℚ)| < 2 ^ 53 := by exact_mod_cast h
    exact hcast.trans (pow_lt_pow_right₀ one_lt_two (by decide))
  unfold double
  dsimp only
  rw [hround, if_pos hsmall]

/-- Whole numbers of more have doubles that are as large. -/
theorem two_pow_le_of_double {n : ℤ} {r : ℚ} (h : 2 ^ 53 ≤ |n|) (hr : double n = some r) :
    2 ^ 53 ≤ |r| := by
  have hpow : ((2 : ℕ) : ℚ) ^ (53 : ℤ) ≤ |(n : ℚ)| := by exact_mod_cast h
  have hpos : 0 < |(n : ℚ)| := lt_of_lt_of_le (by positivity) hpow
  have hlog : 53 ≤ Int.log 2 |(n : ℚ)| := (Int.zpow_le_iff_le_log (by decide) hpos).1 hpow
  have hplace : lastPlace n = 2 ^ (Int.log 2 |(n : ℚ)| - 52) := by
    rw [lastPlace, max_eq_left (by omega)]
  -- scaled, the number has 53 digits before its point
  have hscaled : ((2 ^ 52 : ℕ) : ℚ) ≤ |(n : ℚ) / lastPlace n| := by
    rw [abs_div, abs_of_pos (lastPlace_pos _), le_div_iff₀ (lastPlace_pos _), hplace]
    have hself := Int.zpow_log_le_self (b := 2) (by decide) hpos
    have hsplit : Int.log 2 |(n : ℚ)| = (52 : ℕ) + (Int.log 2 |(n : ℚ)| - 52) := by omega
    calc ((2 ^ 52 : ℕ) : ℚ) * 2 ^ (Int.log 2 |(n : ℚ)| - 52)
        = (2 : ℚ) ^ (52 : ℕ) * 2 ^ (Int.log 2 |(n : ℚ)| - 52) := by push_cast; rfl
      _ = 2 ^ Int.log 2 |(n : ℚ)| := by
          rw [← zpow_natCast, ← zpow_add₀ two_ne_zero, ← hsplit]
      _ ≤ |(n : ℚ)| := by exact_mod_cast hself
  have hround := le_abs_roundEven hscaled
  unfold double at hr
  dsimp only at hr
  split at hr
  · cases hr
    have htwo : (2 : ℚ) ≤ lastPlace n := by
      rw [hplace]
      calc (2 : ℚ) = 2 ^ (1 : ℤ) := (zpow_one 2).symm
        _ ≤ 2 ^ (Int.log 2 |(n : ℚ)| - 52) := zpow_le_zpow_right₀ one_le_two (by omega)
    have hcast : (2 : ℚ) ^ 52 ≤ |(roundEven ((n : ℚ) / lastPlace n) : ℚ)| := by
      exact_mod_cast hround
    rw [abs_mul, abs_of_pos (lastPlace_pos _)]
    calc (2 : ℚ) ^ 53 = 2 ^ 52 * 2 := by norm_num
      _ ≤ |(roundEven ((n : ℚ) / lastPlace n) : ℚ)| * lastPlace n :=
          mul_le_mul hcast htwo two_pos.le (abs_nonneg _)
  · cases hr

/-- A whole number of 53 binary digits is the double of no other whole number. -/
theorem eq_of_double_eq {m n : ℤ} (hm : |m| < 2 ^ 53) (h : double n = some (m : ℚ)) : n = m := by
  by_cases hn : |n| < 2 ^ 53
  · rw [double_intCast hn] at h
    exact_mod_cast Option.some.inj h
  · have hle := two_pow_le_of_double (not_lt.1 hn) h
    have hcast : (2 : ℤ) ^ 53 ≤ |m| := by exact_mod_cast hle
    omega

import Foreseerr.DateForms
import Foreseerr.JsText
import Mathlib.Algebra.Field.Rat
import Mathlib.Data.List.TakeWhile

/-!
# Texts of whole numbers

The decimal text of a whole number, as `to_string` prints it, has digits and at
most a sign, and JavaScript reads the number back from it (`numberOfStr_repr`).
-/

namespace Foreseerr

theorem toList_repr_ofNat (n : Nat) : (Int.repr n).toList = Nat.toDigits 10 n := by
  rw [Int.repr_eq_if, if_pos (Int.natCast_nonneg n), Int.toNat_natCast, Nat.toList_repr]

theorem toList_repr_negSucc (n : Nat) :
    (Int.repr (Int.negSucc n)).toList = '-' :: Nat.toDigits 10 (n + 1) := by
  have hneg : (-Int.negSucc n).toNat = n + 1 := rfl
  rw [Int.repr_eq_if, if_neg (Int.not_le.2 (Int.negSucc_lt_zero n)), hneg, String.toList_append,
    Nat.toList_repr]
  rfl

theorem isDigit_toDigits {n : Nat} : ∀ c ∈ Nat.toDigits 10 n, c.isDigit := fun _ hc =>
  Nat.isDigit_of_mem_toDigits (by decide) (by decide) hc

theorem mem_repr {n : Int} {c : Char} (h : c ∈ n.repr.toList) : c = '-' ∨ c.isDigit := by
  cases n with
  | ofNat n =>
    rw [Int.ofNat_eq_natCast, toList_repr_ofNat] at h
    exact .inr (isDigit_toDigits c h)
  | negSucc n =>
    rw [toList_repr_negSucc] at h
    rcases List.mem_cons.1 h with h | h
    · exact .inl h
    · exact .inr (isDigit_toDigits c h)

/-- What has no white space at its ends is not trimmed. -/
theorem jsTrim_eq_self {text : List Char} (h : ∀ c ∈ text, isJsSpace c = false) :
    jsTrim text = text := by
  have hdrop : ∀ t : List Char, (∀ c ∈ t, isJsSpace c = false) → t.dropWhile isJsSpace = t := by
    intro t ht
    cases t with
    | nil => rfl
    | cons c t => rw [List.dropWhile_cons_of_neg (by simp [ht c List.mem_cons_self])]
  rw [jsTrim, trimEnd, hdrop text h, hdrop _ fun c hc => h c (List.mem_reverse.1 hc),
    List.reverse_reverse]

theorem isJsSpace_of_isDigit {c : Char} (h : c.isDigit) : isJsSpace c = false := by
  have hc := digit_bounds h
  unfold isJsSpace
  rw [Bool.or_eq_false_iff, decide_eq_false_iff_not, Bool.and_eq_false_iff,
    decide_eq_false_iff_not]
  refine ⟨fun hmem => ?_, .inl (by omega)⟩
  simp only [List.mem_cons, List.not_mem_nil, or_false] at hmem
  omega

theorem splitOnce_eq_none {c : Char} {text : List Char} (h : c ∉ text) :
    splitOnce c text = none := by
  induction text with
  | nil => rfl
  | cons d text ih =>
    rw [List.mem_cons, not_or] at h
    rw [splitOnce, if_neg (Ne.symm h.1), ih h.2]
    rfl

theorem digitsValue_eq {digits : List Char} (h : ∀ c ∈ digits, c.isDigit) :
    digitsValue 10 digits = Nat.ofDigitChars 10 digits 0 := by
  rw [digitsValue, Nat.ofDigitChars_eq_foldl]
  refine List.foldl_ext _ _ _ fun n c hc => ?_
  rw [digitValue, if_pos (h c hc), Nat.mul_comm]

/-- Digits are a decimal literal. -/
theorem decimalLiteral_digits {digits : List Char} (hne : digits ≠ [])
    (h : ∀ c ∈ digits, c.isDigit) :
    decimalLiteral digits = some ((Nat.ofDigitChars 10 digits 0 : Nat) : ℚ) := by
  have hchar : ∀ c ∈ digits, c ≠ 'e' ∧ c ≠ 'E' ∧ c ≠ '.' := by
    intro c hc
    have hbounds := digit_bounds (h c hc)
    refine ⟨?_, ?_, ?_⟩ <;> rintro rfl <;> revert hbounds <;> decide
  have hwhole : ∀ c ∈ digits, (c ≠ 'e' && c ≠ 'E') = true := fun c hc => by
    simp [(hchar c hc).1, (hchar c hc).2.1]
  have hpoint : '.' ∉ digits := fun hmem => (hchar '.' hmem).2.2 rfl
  unfold decimalLiteral
  rw [List.takeWhile_eq_self_iff.2 hwhole, List.dropWhile_eq_nil_iff.2 hwhole]
  dsimp only
  rw [splitOnce_eq_none hpoint]
  simpa [hne, digitsValue_eq h, areDigits] using h

theorem numberOfStr_digits {digits : List Char} (hne : digits ≠ [])
    (h : ∀ c ∈ digits, c.isDigit) :
    numberOfStr digits = some ((Nat.ofDigitChars 10 digits 0 : Nat) : ℚ) := by
  rw [numberOfStr, jsTrim_eq_self fun c hc => isJsSpace_of_isDigit (h c hc)]
  split
  · exact absurd rfl hne
  · next x digits =>
    have hx := digit_bounds (h x (by simp))
    have hbelow : ∀ c : Char, 57 < c.toNat → x ≠ c := by
      rintro c hc rfl
      omega
    have hradix : (if x = 'x' ∨ x = 'X' then 16 else if x = 'o' ∨ x = 'O' then 8
        else if x = 'b' ∨ x = 'B' then 2 else 0) = 0 := by
      rw [if_neg (not_or.2 ⟨hbelow 'x' (by decide), hbelow 'X' (by decide)⟩),
        if_neg (not_or.2 ⟨hbelow 'o' (by decide), hbelow 'O' (by decide)⟩),
        if_neg (not_or.2 ⟨hbelow 'b' (by decide), hbelow 'B' (by decide)⟩)]
    dsimp only
    rw [if_pos hradix]
    exact decimalLiteral_digits hne h
  · next body => exact absurd (h '-' List.mem_cons_self) (by decide)
  · next body => exact absurd (h '+' List.mem_cons_self) (by decide)
  · exact decimalLiteral_digits hne h

/-- The text of a whole number is read as that number. -/
theorem numberOfStr_repr (n : Int) : numberOfStr n.repr.toList = some (n : ℚ) := by
  cases n with
  | ofNat n =>
    rw [Int.ofNat_eq_natCast, toList_repr_ofNat, numberOfStr_digits Nat.toDigits_ne_nil
      isDigit_toDigits, Nat.ofDigitChars_ten_toDigits]
    rfl
  | negSucc n =>
    have hspace : ∀ c ∈ '-' :: Nat.toDigits 10 (n + 1), isJsSpace c = false := by
      intro c hc
      rcases List.mem_cons.1 hc with rfl | hc
      · decide
      · exact isJsSpace_of_isDigit (isDigit_toDigits c hc)
    rw [toList_repr_negSucc, numberOfStr, jsTrim_eq_self hspace]
    split
    · next heq => cases heq
    · next heq => exact absurd (List.cons.inj heq).1 (by decide)
    · next body heq =>
      obtain rfl := (List.cons.inj heq).2
      rw [decimalLiteral_digits Nat.toDigits_ne_nil isDigit_toDigits,
        Nat.ofDigitChars_ten_toDigits, Option.map_some, Int.cast_negSucc]
    · next heq => exact absurd (List.cons.inj heq).1 (by decide)
    · next hminus _ => exact absurd rfl (hminus _)

end Foreseerr

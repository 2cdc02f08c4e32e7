import Foreseerr.JsText
import Foreseerr.MixedOrder
import Mathlib.Data.Char
import Mathlib.Data.List.Lex
import Mathlib.Data.Prod.Lex

/-!
# The order of titles

`locale_compare_or_base` of `jsval.rs` sorts titles without ICU. Two titles made of ASCII
letters, digits and spaces are compared as ICU would, letters first and lower case before
upper case among equal letters. Any other pair is compared by the letters it folds to,
and then by code points, where upper case comes first. So the two orders differ on titles
that differ only in case, and a title that folds to the same letters may fall between
them (`titleOrder_iff`).

Texts are lists of characters and compare by code points, as their UTF-8 bytes do. What
Unicode says of characters beyond ASCII is a parameter.
-/

namespace Foreseerr

/-! ## Unicode -/

/-- The Unicode tables the folding reads, with what they say of ASCII. -/
structure Unicode where
  /-- `nfd`. -/
  nfd : List Char → List Char
  /-- Whether `general_category_group` is `Mark`. -/
  isMark : Char → Bool
  /-- `char::to_lowercase`. -/
  toLowercase : Char → List Char
  /-- `char::is_alphabetic`. -/
  isAlphabetic : Char → Bool
  nfd_ascii : ∀ text, (∀ c ∈ text, c.toNat < 128) → nfd text = text
  isMark_ascii : ∀ c, c.toNat < 128 → isMark c = false
  toLowercase_ascii : ∀ c, c.toNat < 128 → toLowercase c = [c.toLower]

/-! ## The comparison -/

/-- A character of a plain title. -/
def isPlain (c : Char) : Bool := c.isAlphanum || c = ' '

/-- `simple`. -/
def isSimple (s : List Char) : Bool := s.all isPlain

/-- The weight of a character that counts first. -/
def primaryWeight (c : Char) : Nat :=
  if c = ' ' then 0
  else if c.isDigit then 1 + (c.toNat - '0'.toNat)
  else 20 + (c.toLower.toNat - 'a'.toNat)

/-- `primary`. -/
def primary (s : List Char) : List Nat := s.map primaryWeight

/-- `tertiary`. -/
def tertiary (s : List Char) : List Nat := s.map fun c => if c.isUpper then 1 else 0

/-- `locale_compare`. -/
def localeCompare (a b : List Char) : Option Ordering :=
  if a = b then some .eq
  else if ¬ isSimple a ∨ ¬ isSimple b then none
  else some ((orderCmp (primary a) (primary b)).then (orderCmp (tertiary a) (tertiary b)))

/-- The group and the weight of a folded character. -/
def baseWeight (u : Unicode) (c : Char) : Nat ×ₗ Nat :=
  if c = '-' then toLex (1, 0)
  else if c = '&' then toLex (2, 0)
  else if c.isDigit then toLex (4, c.toNat)
  else if c.isLower then toLex (5, c.toNat)
  else if c.toNat = 0x131 then toLex (5, 'i'.toNat)
  else if isWhiteSpace c then toLex (0, 0)
  else if u.isAlphabetic c then toLex (6, c.toNat)
  else toLex (3, c.toNat)

/-- `base_collation_key`. -/
def baseCollationKey (u : Unicode) (name : List Char) : List (Nat ×ₗ Nat) :=
  (((u.nfd name).filter fun c => !u.isMark c).flatMap u.toLowercase).map (baseWeight u)

/-- `locale_compare_or_base`. -/
def localeCompareOrBase (u : Unicode) (a b : List Char) : Ordering :=
  (localeCompare a b).getD
    ((orderCmp (baseCollationKey u a) (baseCollationKey u b)).then (orderCmp a b))

/-! ## Characters of plain titles -/

theorem isLower_eq (c : Char) :
    c.isLower = (decide (c.val ≥ 'a'.val) && decide (c.val ≤ 'z'.val)) := rfl

theorem isDigit_eq (c : Char) :
    c.isDigit = (decide (c.val ≥ '0'.val) && decide (c.val ≤ '9'.val)) := rfl

theorem isAlphanum_eq (c : Char) : c.isAlphanum
    = (decide (c.val ≥ 'A'.val ∧ c.val ≤ 'Z'.val) || c.isLower || c.isDigit) := rfl

theorem isPlain_ascii {c : Char} (h : isPlain c = true) : c.toNat < 128 := by
  unfold isPlain at h
  simp only [isAlphanum_eq, isLower_eq, isDigit_eq, Bool.or_eq_true, Bool.and_eq_true,
    decide_eq_true_eq, UInt32.le_iff_toNat_le, ge_iff_le] at h
  have hsame : c.toNat = c.val.toNat := rfl
  rcases h with h | rfl
  · have hupper : 'Z'.val.toNat = 90 := rfl
    have hlower : 'z'.val.toNat = 122 := rfl
    have hdigit : '9'.val.toNat = 57 := rfl
    omega
  · decide

/-- The folded weight of a first weight. -/
def groupedWeight (n : Nat) : Nat ×ₗ Nat :=
  if n = 0 then toLex (0, 0) else if n < 20 then toLex (4, n + 47) else toLex (5, n + 77)

theorem groupedWeight_strictMono : StrictMono groupedWeight := by
  have hlt : ∀ a b c d : Nat, a < c ∨ a = c ∧ b < d →
      (toLex (a, b) : Nat ×ₗ Nat) < toLex (c, d) := by
    intro a b c d h
    exact Prod.Lex.toLex_lt_toLex.2 h
  intro m n h
  unfold groupedWeight
  by_cases hm : m = 0
  · rw [if_pos hm, if_neg (show n ≠ 0 by omega)]
    split <;> exact hlt _ _ _ _ (by omega)
  · rw [if_neg hm, if_neg (show n ≠ 0 by omega)]
    split <;> split <;> exact hlt _ _ _ _ (by omega)

/-- A plain character folds to its first weight, in its group. -/
theorem baseWeight_toLower (u : Unicode) {c : Char} (h : isPlain c = true) :
    baseWeight u c.toLower = groupedWeight (primaryWeight c) := by
  have hcases : ∀ n < 128, isPlain (Char.ofNat n) = true →
      ((Char.ofNat n).toLower = ' ' ∧ groupedWeight (primaryWeight (Char.ofNat n)) = toLex (0, 0))
        ∨ ((Char.ofNat n).toLower.isDigit = true ∧ groupedWeight (primaryWeight (Char.ofNat n))
            = toLex (4, (Char.ofNat n).toLower.toNat))
        ∨ ((Char.ofNat n).toLower.isLower = true ∧ groupedWeight (primaryWeight (Char.ofNat n))
            = toLex (5, (Char.ofNat n).toLower.toNat)) := by
    decide +kernel
  have hdash : ∀ d : Char, d.isDigit = true ∨ d.isLower = true → d ≠ '-' ∧ d ≠ '&' := by
    rintro d hd
    constructor <;> rintro rfl <;> revert hd <;> decide
  have hthis := hcases c.toNat (isPlain_ascii h)
  rw [Char.ofNat_toNat] at hthis
  rcases hthis h with ⟨hc, hw⟩ | ⟨hc, hw⟩ | ⟨hc, hw⟩
  · rw [hw, hc]
    rfl
  · obtain ⟨hdash, hand⟩ := hdash _ (.inl hc)
    rw [hw, baseWeight, if_neg hdash, if_neg hand, if_pos hc]
  · obtain ⟨hdash, hand⟩ := hdash _ (.inr hc)
    have hdigit : c.toLower.isDigit = false := by
      by_contra hd
      revert hc hd
      simp only [isDigit_eq, isLower_eq, Bool.and_eq_true, decide_eq_true_eq,
        UInt32.le_iff_toNat_le, Bool.not_eq_false, ge_iff_le]
      have hnine : '9'.val.toNat = 57 := rfl
      have ha : 'a'.val.toNat = 97 := rfl
      omega
    rw [hw, baseWeight, if_neg hdash, if_neg hand, if_neg (by simp [hdigit]), if_pos hc]

/-- A plain character is its first weight and its case. -/
theorem toNat_of_plain {c : Char} (h : isPlain c = true) :
    c.toNat = (if c.isUpper then primaryWeight c + 45
      else if primaryWeight c = 0 then 32
      else if primaryWeight c < 20 then primaryWeight c + 47 else primaryWeight c + 77)
      ∧ (c.isUpper = true → 20 ≤ primaryWeight c) := by
  have hcases : ∀ n < 128, isPlain (Char.ofNat n) = true →
      (Char.ofNat n).toNat = (if (Char.ofNat n).isUpper then primaryWeight (Char.ofNat n) + 45
        else if primaryWeight (Char.ofNat n) = 0 then 32
        else if primaryWeight (Char.ofNat n) < 20 then primaryWeight (Char.ofNat n) + 47
        else primaryWeight (Char.ofNat n) + 77)
      ∧ ((Char.ofNat n).isUpper = true → 20 ≤ primaryWeight (Char.ofNat n)) := by
    decide +kernel
  have hthis := hcases c.toNat (isPlain_ascii h)
  rw [Char.ofNat_toNat] at hthis
  exact hthis h

theorem toNat_strictMono : StrictMono Char.toNat := fun _ _ h => h

/-- Between letters that differ only in case, the code points have them the other way. -/
theorem cmp_upper {c d : Char} (hc : isPlain c = true) (hd : isPlain d = true)
    (h : primaryWeight c = primaryWeight d) :
    orderCmp (if c.isUpper then 1 else 0) (if d.isUpper then 1 else 0) = orderCmp d c := by
  rw [← orderCmp_map toNat_strictMono]
  obtain ⟨hc, hc'⟩ := toNat_of_plain hc
  obtain ⟨hd, hd'⟩ := toNat_of_plain hd
  rw [hc, hd, h]
  rw [h] at hc'
  cases hcu : c.isUpper with
  | true =>
    have hmin := hc' hcu
    cases hdu : d.isUpper with
    | true => simp
    | false =>
      rw [if_pos rfl, if_neg (by decide), if_neg (by decide), if_pos rfl, if_neg (by omega),
        if_neg (by omega), orderCmp_eq_gt_iff.2 Nat.one_pos, orderCmp_eq_gt_iff.2 (by omega)]
  | false =>
    cases hdu : d.isUpper with
    | true =>
      have hmin := hd' hdu
      rw [if_neg (by decide), if_pos rfl, if_pos rfl, if_neg (by decide), if_neg (by omega),
        if_neg (by omega), orderCmp_eq_lt_iff.2 Nat.one_pos, orderCmp_eq_lt_iff.2 (by omega)]
    | false => simp

/-! ## Plain titles -/

theorem isSimple_iff {s : List Char} : isSimple s = true ↔ ∀ c ∈ s, isPlain c = true :=
  List.all_eq_true

/-- The letters a plain title folds to are its own. -/
theorem baseCollationKey_of_simple (u : Unicode) {s : List Char} (h : isSimple s = true) :
    baseCollationKey u s = (primary s).map groupedWeight := by
  have hplain := isSimple_iff.1 h
  have hnfd : u.nfd s = s := u.nfd_ascii s fun c hc => isPlain_ascii (hplain c hc)
  have hmarks : (s.filter fun c => !u.isMark c) = s := List.filter_eq_self.2 fun c hc => by
    rw [u.isMark_ascii c (isPlain_ascii (hplain c hc))]
    rfl
  have hlower : s.flatMap u.toLowercase = s.map Char.toLower := by
    rw [List.map_eq_flatMap]
    exact List.flatMap_congr fun c hc => u.toLowercase_ascii c (isPlain_ascii (hplain c hc))
  rw [baseCollationKey, hnfd, hmarks, hlower, primary, List.map_map, List.map_map]
  exact List.map_congr_left fun c hc => baseWeight_toLower u (hplain c hc)

/-- Two plain titles with the same letters compare by case against their code points. -/
theorem cmp_tertiary {a b : List Char} (ha : isSimple a = true) (hb : isSimple b = true)
    (h : primary a = primary b) : orderCmp (tertiary a) (tertiary b) = orderCmp b a := by
  induction a generalizing b with
  | nil =>
    cases b with
    | nil => rfl
    | cons d b => cases h
  | cons c a ih =>
    cases b with
    | nil => cases h
    | cons d b =>
      obtain ⟨hhead, htail⟩ := List.cons.inj h
      have hc := isSimple_iff.1 ha
      have hd := isSimple_iff.1 hb
      have hrest := ih (isSimple_iff.2 fun x hx => hc x (List.mem_cons_of_mem c hx))
        (isSimple_iff.2 fun x hx => hd x (List.mem_cons_of_mem d hx)) htail
      have hfirst := cmp_upper (hc c List.mem_cons_self) (hd d List.mem_cons_self) hhead
      show orderCmp (_ :: tertiary a) (_ :: tertiary b) = _
      rw [orderCmp_cons, orderCmp_cons, hrest, hfirst]

/-! ## The order -/

/-- The comparison as a key and two orders. -/
def titles (u : Unicode) : Mixed (List Char) (List (Nat ×ₗ Nat)) (List Nat) (List Char) where
  key := baseCollationKey u
  plain := isSimple
  fine := tertiary
  last := id

variable (u : Unicode)

theorem localeCompareOrBase_eq (a b : List Char) :
    localeCompareOrBase u a b = (titles u).compare a b := by
  unfold localeCompareOrBase localeCompare Mixed.compare Mixed.tie
  by_cases hab : a = b
  · subst hab
    simp
  · rw [if_neg hab]
    by_cases hsimple : isSimple a = true ∧ isSimple b = true
    · have hkey : orderCmp (baseCollationKey u a) (baseCollationKey u b)
          = orderCmp (primary a) (primary b) := by
        rw [baseCollationKey_of_simple u hsimple.1, baseCollationKey_of_simple u hsimple.2,
          orderCmp_map_map groupedWeight_strictMono]
      rw [if_neg (not_or.2 ⟨not_not.2 hsimple.1, not_not.2 hsimple.2⟩), Option.getD_some]
      show _ = (orderCmp (baseCollationKey u a) (baseCollationKey u b)).then
        (if isSimple a && isSimple b then orderCmp (tertiary a) (tertiary b) else orderCmp a b)
      rw [hkey, hsimple.1, hsimple.2]
      rfl
    · rw [if_pos (by rwa [← not_and_or]), Option.getD_none]
      show _ = (orderCmp (baseCollationKey u a) (baseCollationKey u b)).then
        (if isSimple a && isSimple b then orderCmp (tertiary a) (tertiary b) else orderCmp a b)
      rw [if_neg (by rwa [Bool.and_eq_true])]

/-- Plain titles of one key have the same letters. -/
theorem primary_eq_of_key {a b : List Char} (ha : isSimple a = true) (hb : isSimple b = true)
    (h : baseCollationKey u a = baseCollationKey u b) : primary a = primary b := by
  rw [baseCollationKey_of_simple u ha, baseCollationKey_of_simple u hb] at h
  exact List.map_injective_iff.2 groupedWeight_strictMono.injective h

theorem titles_apart : (titles u).Apart where
  fine := fun a b ha hb hkey hfine => by
    have hcmp := cmp_tertiary ha hb (primary_eq_of_key u ha hb hkey)
    have hsame : tertiary a = tertiary b := hfine
    rw [hsame, orderCmp_self] at hcmp
    exact (orderCmp_eq_eq_iff.1 hcmp.symm).symm
  last := Function.injective_id

/-- **A title caught between two others**: they are plain and differ only in case, and it
folds to their letters and lies between them by code points. -/
structure CaughtTitle (lower upper title : List Char) : Prop where
  plain : isSimple lower = true ∧ isSimple upper = true ∧ isSimple title = false
  letters : baseCollationKey u lower = baseCollationKey u upper
    ∧ baseCollationKey u upper = baseCollationKey u title
  between : upper < title ∧ title < lower

theorem caught_iff {lower upper title : List Char} :
    (titles u).Caught lower upper title ↔ CaughtTitle u lower upper title := by
  constructor
  · rintro ⟨hplain, hkey, -, hlast⟩
    exact ⟨hplain, hkey, hlast⟩
  · rintro ⟨hplain, hkey, hbetween⟩
    refine ⟨hplain, hkey, ?_, hbetween⟩
    have hcmp := cmp_tertiary hplain.1 hplain.2.1
      (primary_eq_of_key u hplain.1 hplain.2.1 hkey.1)
    rw [orderCmp_eq_lt_iff.2 (hbetween.1.trans hbetween.2)] at hcmp
    exact orderCmp_eq_lt_iff.1 hcmp

/-- **What a sort needs of the comparison** at three titles. -/
structure TotalAt (a b c : List Char) : Prop where
  antisymm : (localeCompareOrBase u a b).swap = localeCompareOrBase u b a
  trans : localeCompareOrBase u a b ≠ .gt → localeCompareOrBase u b c ≠ .gt →
    localeCompareOrBase u a c ≠ .gt
  equal : localeCompareOrBase u a b = .eq → a = b

/-- **The order of titles is total but for a title caught between two others.** -/
theorem titleOrder_iff (a b c : List Char) : TotalAt u a b c
    ↔ ¬ CaughtTitle u a b c ∧ ¬ CaughtTitle u b c a ∧ ¬ CaughtTitle u c a b := by
  have htrans := @Mixed.le_trans_iff _ _ _ _ _ _ _ (titles u) a b c (titles_apart u)
  simp only [caught_iff, ← localeCompareOrBase_eq] at htrans
  rw [← htrans]
  refine ⟨TotalAt.trans, fun h => ⟨?_, h, fun heq => ?_⟩⟩
  · rw [localeCompareOrBase_eq, localeCompareOrBase_eq, Mixed.compare_swap]
  · rw [localeCompareOrBase_eq] at heq
    exact Mixed.compare_eq_eq (titles_apart u) heq

/-- What Unicode says of ASCII and of `é`. -/
def acuteOnly : Unicode where
  nfd := fun text => text.flatMap fun c => if c.toNat = 0xe9 then ['e', Char.ofNat 0x301] else [c]
  isMark := fun c => c.toNat = 0x301
  toLowercase := fun c => [c.toLower]
  isAlphabetic := fun c => c.isAlpha || c.toNat = 0xe9
  nfd_ascii := fun text h => by
    rw [List.flatMap_congr fun c hc => if_neg (show c.toNat ≠ 0xe9 from
      ne_of_lt ((h c hc).trans (by decide)))]
    exact List.flatMap_singleton' text
  isMark_ascii := fun c h => decide_eq_false (ne_of_lt (h.trans (by decide)))
  toLowercase_ascii := fun _ _ => rfl

/-- Three spellings of one title go round in a circle. -/
theorem three_spellings :
    ¬ TotalAt acuteOnly "pokemon".toList "Pokemon".toList "Pokémon".toList := by
  have hcaught : CaughtTitle acuteOnly "pokemon".toList "Pokemon".toList "Pokémon".toList :=
    ⟨by decide +kernel, by decide +kernel, by decide +kernel⟩
  obtain ⟨hab, hbc, hac⟩ := ((caught_iff acuteOnly).2 hcaught).circle
  rw [← localeCompareOrBase_eq] at hab hbc hac
  exact fun h => h.trans (by rw [hab]; decide) (by rw [hbc]; decide) hac

end Foreseerr

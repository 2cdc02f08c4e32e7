import Mathlib.Data.List.Lex
import Mathlib.Order.Compare
import Mathlib.Order.Lattice
import Mathlib.Order.Monotone.Basic

/-!
# An order chosen by the pair

A comparison that goes by a key first, and among equal keys by one of two orders: a
finer one where both sides are plain, and a last one otherwise. Either of the two is a
total order by itself. Chosen by the pair they are not one: two plain values may lie the
other way round in the last order, and a value that is not plain may lie between them
there. That is also the only way it fails (`Mixed.le_trans_iff`).
-/

section OrderCmp

variable {α β : Type*} [LinearOrder α] [LinearOrder β] {a b : α}

/-- `cmp` of a linear order, where a type may have an order besides. -/
def orderCmp (a b : α) : Ordering := cmp a b

theorem orderCmp_eq_lt_iff : orderCmp a b = .lt ↔ a < b := cmp_eq_lt_iff a b

theorem orderCmp_eq_eq_iff : orderCmp a b = .eq ↔ a = b := cmp_eq_eq_iff a b

theorem orderCmp_eq_gt_iff : orderCmp a b = .gt ↔ b < a := cmp_eq_gt_iff a b

theorem orderCmp_swap (a b : α) : (orderCmp a b).swap = orderCmp b a := cmp_swap a b

@[simp] theorem orderCmp_self (a : α) : orderCmp a a = .eq := cmp_self_eq_eq a

theorem orderCmp_map {f : α → β} (hf : StrictMono f) (a b : α) :
    orderCmp (f a) (f b) = orderCmp a b := hf.cmp_map_eq a b

theorem orderCmp_cons (x y : α) (l m : List α) :
    orderCmp (x :: l) (y :: m) = (orderCmp x y).then (orderCmp l m) := by
  rcases lt_trichotomy x y with h | rfl | h
  · rw [orderCmp_eq_lt_iff.2 h, orderCmp_eq_lt_iff.2 (List.cons_lt_cons_iff.2 (.inl h))]
    rfl
  · rw [orderCmp_self]
    rcases lt_trichotomy l m with h | rfl | h
    · rw [orderCmp_eq_lt_iff.2 h, orderCmp_eq_lt_iff.2 (List.cons_lt_cons_iff.2 (.inr ⟨rfl, h⟩))]
      rfl
    · rw [orderCmp_self, orderCmp_self]
      rfl
    · rw [orderCmp_eq_gt_iff.2 h, orderCmp_eq_gt_iff.2 (List.cons_lt_cons_iff.2 (.inr ⟨rfl, h⟩))]
      rfl
  · rw [orderCmp_eq_gt_iff.2 h, orderCmp_eq_gt_iff.2 (List.cons_lt_cons_iff.2 (.inl h))]
    rfl

/-- Lists mapped by a strictly increasing function compare as they did. -/
theorem orderCmp_map_map {f : α → β} (hf : StrictMono f) (l m : List α) :
    orderCmp (l.map f) (m.map f) = orderCmp l m := by
  induction l generalizing m with
  | nil =>
    cases m with
    | nil => rfl
    | cons y m => rfl
  | cons x l ih =>
    cases m with
    | nil => rfl
    | cons y m =>
      rw [List.map_cons, List.map_cons, orderCmp_cons, orderCmp_cons, orderCmp_map hf, ih]

end OrderCmp

/-- A key and the two orders that decide among equal keys. -/
structure Mixed (α κ τ γ : Type*) where
  key : α → κ
  /-- Whether the finer order knows a value. -/
  plain : α → Bool
  fine : α → τ
  last : α → γ

namespace Mixed

variable {α κ τ γ : Type*} [LinearOrder κ] [LinearOrder τ] [LinearOrder γ]
  (m : Mixed α κ τ γ) {a b c p q x : α}

/-- What decides between two values of one key. -/
def tie (a b : α) : Ordering :=
  if m.plain a && m.plain b then orderCmp (m.fine a) (m.fine b) else orderCmp (m.last a) (m.last b)

def compare (a b : α) : Ordering := (orderCmp (m.key a) (m.key b)).then (m.tie a b)

/-- Two plain values with one that is not between them, in the last order, where they lie
the other way round. -/
structure Caught (p q x : α) : Prop where
  plain : m.plain p = true ∧ m.plain q = true ∧ m.plain x = false
  key : m.key p = m.key q ∧ m.key q = m.key x
  fine : m.fine p < m.fine q
  last : m.last q < m.last x ∧ m.last x < m.last p

theorem swap_then (o o' : Ordering) : (o.then o').swap = o.swap.then o'.swap := by
  cases o <;> rfl

theorem compare_swap (a b : α) : (m.compare a b).swap = m.compare b a := by
  unfold compare tie
  rw [swap_then, orderCmp_swap, Bool.and_comm]
  split
  · rw [orderCmp_swap]
  · rw [orderCmp_swap]

theorem compare_eq_gt_iff : m.compare a b = .gt
    ↔ m.key b < m.key a ∨ m.key b = m.key a ∧ m.tie a b = .gt := by
  unfold compare
  rcases lt_trichotomy (m.key a) (m.key b) with h | h | h
  · rw [orderCmp_eq_lt_iff.2 h]
    exact ⟨fun h' => (nomatch h'), fun h' => h'.elim (fun h' => absurd h (lt_asymm h'))
      fun h' => absurd h (ne_of_lt · h'.1.symm)⟩
  · rw [orderCmp_eq_eq_iff.2 h, h]
    exact ⟨fun h' => .inr ⟨rfl, h'⟩, fun h' => h'.elim (fun h' => absurd h' (lt_irrefl _)) (·.2)⟩
  · rw [orderCmp_eq_gt_iff.2 h]
    exact ⟨fun _ => .inl h, fun _ => rfl⟩

/-- What the orders tell apart. -/
structure Apart : Prop where
  fine : ∀ a b, m.plain a = true → m.plain b = true → m.key a = m.key b → m.fine a = m.fine b →
    a = b
  last : Function.Injective m.last

variable {m}

theorem compare_eq_eq (hapart : m.Apart) (h : m.compare a b = .eq) : a = b := by
  unfold compare at h
  rw [Ordering.then_eq_eq] at h
  obtain ⟨hkey, htie⟩ := h
  unfold tie at htie
  split at htie
  · next hplain =>
    rw [Bool.and_eq_true] at hplain
    exact hapart.fine a b hplain.1 hplain.2 (orderCmp_eq_eq_iff.1 hkey) (orderCmp_eq_eq_iff.1 htie)
  · exact hapart.last (orderCmp_eq_eq_iff.1 htie)

theorem compare_ne_gt (hkey : m.key a = m.key b) (h : m.compare a b ≠ .gt) : m.tie a b ≠ .gt :=
  fun htie => h (m.compare_eq_gt_iff.2 (.inr ⟨hkey.symm, htie⟩))

theorem tie_fine (ha : m.plain a = true) (hb : m.plain b = true) :
    m.tie a b = orderCmp (m.fine a) (m.fine b) := by
  rw [tie, ha, hb]
  rfl

theorem tie_last (h : (m.plain a && m.plain b) = false) :
    m.tie a b = orderCmp (m.last a) (m.last b) := by
  rw [tie, h]
  rfl

/-- The keys around a circle are one key. -/
theorem key_eq_of_circle (hab : m.compare a b ≠ .gt) (hbc : m.compare b c ≠ .gt)
    (hca : m.compare a c = .gt) : m.key a = m.key b ∧ m.key b = m.key c := by
  have hab' : m.key a ≤ m.key b := le_of_not_gt fun h => hab (m.compare_eq_gt_iff.2 (.inl h))
  have hbc' : m.key b ≤ m.key c := le_of_not_gt fun h => hbc (m.compare_eq_gt_iff.2 (.inl h))
  have hca' : m.key c ≤ m.key a := (m.compare_eq_gt_iff.1 hca).elim le_of_lt fun h => h.1.le
  exact ⟨le_antisymm hab' (hbc'.trans hca'), le_antisymm hbc' (hca'.trans hab')⟩

/-- The two orders turn a value between two plain ones into a circle. -/
theorem Caught.circle (h : m.Caught p q x) :
    m.compare p q = .lt ∧ m.compare q x = .lt ∧ m.compare p x = .gt := by
  obtain ⟨⟨hp, hq, hx⟩, ⟨hpq, hqx⟩, hfine, hqx', hxp⟩ := h
  refine ⟨?_, ?_, m.compare_eq_gt_iff.2 (.inr ⟨(hpq.trans hqx).symm, ?_⟩)⟩
  · rw [compare, orderCmp_eq_eq_iff.2 hpq, tie_fine hp hq]
    exact orderCmp_eq_lt_iff.2 hfine
  · rw [compare, orderCmp_eq_eq_iff.2 hqx, tie_last (by rw [hx, Bool.and_false])]
    exact orderCmp_eq_lt_iff.2 hqx'
  · rw [tie_last (by rw [hx, Bool.and_false])]
    exact orderCmp_eq_gt_iff.2 hxp

/-- Three values of one key in a circle, two of them plain. -/
theorem caught_of_ties (hapart : m.Apart) (hp : m.plain p = true) (hq : m.plain q = true)
    (hx : m.plain x = false) (hkey : m.key p = m.key q ∧ m.key q = m.key x)
    (hpq : m.tie p q ≠ .gt) (hqx : m.tie q x ≠ .gt) (hxp : m.tie x p ≠ .gt) :
    m.Caught p q x := by
  rw [tie_fine hp hq, Ne, orderCmp_eq_gt_iff, not_lt] at hpq
  rw [tie_last (by rw [hx, Bool.and_false]), Ne, orderCmp_eq_gt_iff, not_lt] at hqx
  rw [tie_last (by rw [hx, Bool.false_and]), Ne, orderCmp_eq_gt_iff, not_lt] at hxp
  have hne : ∀ y, m.plain y = true → m.last y ≠ m.last x := by
    intro y hy hlast
    rw [hapart.last hlast, hx] at hy
    cases hy
  have hqx' := lt_of_le_of_ne hqx (hne q hq)
  have hxp' := lt_of_le_of_ne hxp (hne p hp).symm
  refine ⟨⟨hp, hq, hx⟩, hkey, lt_of_le_of_ne hpq fun hfine => ?_, hqx', hxp'⟩
  obtain rfl := hapart.fine p q hp hq hkey.1 hfine
  exact lt_asymm hqx' hxp'

/-- **The order is transitive at three values unless one of them is caught between the
other two.** -/
theorem le_trans_iff (hapart : m.Apart) :
    (m.compare a b ≠ .gt → m.compare b c ≠ .gt → m.compare a c ≠ .gt)
      ↔ ¬ m.Caught a b c ∧ ¬ m.Caught b c a ∧ ¬ m.Caught c a b := by
  constructor
  · intro htrans
    refine ⟨fun h => ?_, fun h => ?_, fun h => ?_⟩
    · obtain ⟨hab, hbc, hac⟩ := h.circle
      exact htrans (by rw [hab]; decide) (by rw [hbc]; decide) hac
    · obtain ⟨hbc, hca, hba⟩ := h.circle
      rw [← compare_swap, Ordering.swap_eq_gt] at hba
      rw [← compare_swap, Ordering.swap_eq_lt] at hca
      exact htrans (by rw [hba]; decide) (by rw [hbc]; decide) hca
    · obtain ⟨hca, hab, hcb⟩ := h.circle
      rw [← compare_swap, Ordering.swap_eq_gt] at hcb
      rw [← compare_swap, Ordering.swap_eq_lt] at hca
      exact htrans (by rw [hab]; decide) (by rw [hcb]; decide) hca
  · rintro ⟨hab', hbc', hca'⟩ hab hbc hac
    obtain ⟨hkab, hkbc⟩ := key_eq_of_circle hab hbc hac
    have hca : m.compare c a ≠ .gt := by
      rw [← compare_swap, hac]
      decide
    have hkca : m.key c = m.key a := (hkab.trans hkbc).symm
    have tab := compare_ne_gt hkab hab
    have tbc := compare_ne_gt hkbc hbc
    have tca := compare_ne_gt hkca hca
    have tac : m.tie a c = .gt := by
      rcases m.compare_eq_gt_iff.1 hac with h | h
      · exact absurd hkca (ne_of_lt h)
      · exact h.2
    have hlast : (m.plain a && m.plain b) = false → (m.plain b && m.plain c) = false →
        (m.plain a && m.plain c) = false → False := by
      intro hab hbc hac
      rw [tie_last hab, Ne, orderCmp_eq_gt_iff, not_lt] at tab
      rw [tie_last hbc, Ne, orderCmp_eq_gt_iff, not_lt] at tbc
      rw [tie_last hac, orderCmp_eq_gt_iff] at tac
      exact absurd (tab.trans tbc) (not_le.2 tac)
    -- by which of the three are plain
    cases ha : m.plain a with
    | true =>
      cases hb : m.plain b with
      | true =>
        cases hc : m.plain c with
        | true =>
          rw [tie_fine ha hb, Ne, orderCmp_eq_gt_iff, not_lt] at tab
          rw [tie_fine hb hc, Ne, orderCmp_eq_gt_iff, not_lt] at tbc
          rw [tie_fine ha hc, orderCmp_eq_gt_iff] at tac
          exact absurd (tab.trans tbc) (not_le.2 tac)
        | false => exact hab' (caught_of_ties hapart ha hb hc ⟨hkab, hkbc⟩ tab tbc tca)
      | false =>
        cases hc : m.plain c with
        | true => exact hca' (caught_of_ties hapart hc ha hb ⟨hkca, hkab⟩ tca tab tbc)
        | false =>
          exact hlast (by rw [hb, Bool.and_false]) (by rw [hb]; rfl) (by rw [hc, Bool.and_false])
    | false =>
      cases hb : m.plain b with
      | true =>
        cases hc : m.plain c with
        | true => exact hbc' (caught_of_ties hapart hb hc ha ⟨hkbc, hkca⟩ tbc tca tab)
        | false => exact hlast (by rw [ha]; rfl) (by rw [hc, Bool.and_false]) (by rw [ha]; rfl)
      | false => exact hlast (by rw [ha]; rfl) (by rw [hb]; rfl) (by rw [ha]; rfl)

end Mixed

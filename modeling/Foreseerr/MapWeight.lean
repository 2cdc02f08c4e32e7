import Mathlib

/-!
# Weights of finite maps

The standard library's finite maps come with the lemmas for looking keys up
after an insertion or an erasure. A store that keeps a running total over its
entries also needs to know how such a total moves: `weight` is the sum of a
measure over the values of a hash map, and it moves by the measure of what is
inserted or erased. `firstEntry` is the least key of a tree map with its
value.
-/

namespace MapWeight

open Std

section Weight

variable {κ β : Type*} [BEq κ] [Hashable κ]

/-- The sum of a measure over the values of a map. -/
def weight (f : β → Nat) (m : HashMap κ β) : Nat := (m.toList.map fun p => f p.2).sum

@[simp] theorem weight_empty (f : β → Nat) : weight f (∅ : HashMap κ β) = 0 := by
  simp [weight]

variable [LawfulBEq κ] [LawfulHashable κ] (f : β → Nat) {m : HashMap κ β} {k : κ} {v w : β}

/-- A new key adds its measure. -/
theorem weight_insert_of_notMem (h : k ∉ m) :
    weight f (m.insert k v) = f v + weight f m := by
  have hperm := HashMap.toList_insert_perm (m := m) (k := k) (v := v)
  have hkeep : m.toList.filter (¬k == ·.1) = m.toList := by
    rw [List.filter_eq_self]
    rintro ⟨k', v'⟩ hk
    rw [HashMap.mem_toList_iff_getElem?_eq_some] at hk
    have hne : k ≠ k' := by
      rintro rfl
      exact h (HashMap.mem_iff_isSome_getElem?.mpr (by simp [hk]))
    simpa using hne
  rw [hkeep] at hperm
  unfold weight
  rw [(hperm.map _).sum_eq, List.map_cons, List.sum_cons]

/-- An erased key takes its measure with it. -/
theorem weight_eq_add_erase (h : m[k]? = some v) :
    weight f m = f v + weight f (m.erase k) := by
  have hback : ((m.erase k).insert k v).Equiv m := by
    refine HashMap.Equiv.of_forall_getElem?_eq fun k' => ?_
    grind
  have hnew : k ∉ m.erase k := by simp
  rw [← weight_insert_of_notMem f hnew]
  unfold weight
  rw [(hback.toList_perm.map _).sum_eq]

/-- Replacing a value by one of the same measure keeps the weight. -/
theorem weight_insert_of_eq (h : m[k]? = some v) (hf : f w = f v) :
    weight f (m.insert k w) = weight f m := by
  have hsame : ((m.insert k w).erase k).Equiv (m.erase k) := by
    refine HashMap.Equiv.of_forall_getElem?_eq fun k' => ?_
    grind
  have herase : weight f ((m.insert k w).erase k) = weight f (m.erase k) := by
    unfold weight
    rw [(hsame.toList_perm.map _).sum_eq]
  have hself : (m.insert k w)[k]? = some w := by simp
  rw [weight_eq_add_erase f hself, weight_eq_add_erase f h, herase, hf]

/-- A map without entries weighs nothing. -/
theorem weight_eq_zero_of_forall (h : ∀ k : κ, m[k]? = none) : weight f m = 0 := by
  have hempty : m.Equiv ∅ := HashMap.Equiv.of_forall_getElem?_eq fun k => by simp [h k]
  unfold weight
  rw [(hempty.toList_perm.map _).sum_eq]
  simp

end Weight

section FirstEntry

variable {κ β : Type*} {cmp : κ → κ → Ordering}

/-- The least key of a map, with its value. -/
def firstEntry (t : TreeMap κ β cmp) : Option (κ × β) :=
  t.minKey?.bind fun k => t[k]?.map fun v => (k, v)

variable [TransCmp cmp] [LawfulEqCmp cmp] {t : TreeMap κ β cmp} {k : κ} {v : β}

/-- What `firstEntry` finds is there, and no key is less. -/
theorem firstEntry_spec (h : firstEntry t = some (k, v)) :
    t[k]? = some v ∧ ∀ k' ∈ t, (cmp k k').isLE := by
  obtain ⟨min, hmin, hpair⟩ := Option.bind_eq_some_iff.mp h
  obtain ⟨value, hvalue, heq⟩ := Option.map_eq_some_iff.mp hpair
  obtain ⟨rfl, rfl⟩ := Prod.mk.inj heq
  exact ⟨hvalue, (TreeMap.minKey?_eq_some_iff_mem_and_forall.mp hmin).2⟩

/-- Only an empty map has no first entry. -/
theorem getElem?_of_firstEntry_eq_none (h : firstEntry t = none) (k : κ) : t[k]? = none := by
  cases hmin : t.minKey? with
  | none =>
    have hempty := TreeMap.minKey?_eq_none_iff.mp hmin
    exact TreeMap.getElem?_of_isEmpty hempty
  | some min =>
    have hmem := (TreeMap.minKey?_eq_some_iff_mem_and_forall.mp hmin).1
    obtain ⟨value, hvalue⟩ := Option.isSome_iff_exists.mp (TreeMap.mem_iff_isSome_getElem?.mp hmem)
    simp [firstEntry, hmin, hvalue] at h

end FirstEntry

/-! ## Sums over a list -/

/-- Replacing one element of a list moves a sum over it by the difference. -/
theorem sum_map_set {α : Type*} (f : α → Nat) {l : List α} {i : Nat} {a : α} (b : α)
    (h : l[i]? = some a) : ((l.set i b).map f).sum + f a = (l.map f).sum + f b := by
  induction l generalizing i with
  | nil => simp at h
  | cons c l ih =>
    cases i with
    | zero =>
      obtain rfl : c = a := by simpa using h
      simp
      omega
    | succ i =>
      have hrest := ih (i := i) (by simpa using h)
      simp only [List.set_cons_succ, List.map_cons, List.sum_cons]
      omega

end MapWeight

import Mathlib.Data.List.Induction
import Mathlib.Data.List.Nodup

/-!
# Lists with one element for each key

A list whose elements carry a key can serve as a small table that remembers
the order in which its keys first came. `upsert` merges an element into the
first one of its key, or appends it; `coalesce` builds the table of a whole
list so. Both keep the keys distinct, and `upsert` touches no other key.
-/

namespace KeyedList

variable {α κ : Type*} [DecidableEq κ] (key : α → κ) (merge : α → α → α)

/-- Merge an element into the first of its key, or append it. -/
def upsert : List α → α → List α
  | [], a => [a]
  | b :: l, a => if key b = key a then merge b a :: l else b :: upsert l a

/-- The table of a list: one element for each key, in first-seen order. -/
def coalesce (l : List α) : List α := l.foldl (upsert key merge) []

/-- The first element of a key. -/
def lookup (k : κ) (l : List α) : Option α := l.find? fun a => key a = k

/-- The elements of a key. -/
def group (k : κ) (l : List α) : List α := l.filter fun a => key a = k

/-- Change the first element of a key. -/
def modifyFirst (k : κ) (f : α → α) : List α → List α
  | [] => []
  | a :: l => if key a = k then f a :: l else a :: modifyFirst k f l

variable {key merge}

@[simp] theorem lookup_nil {k : κ} : lookup key k ([] : List α) = none := rfl

theorem lookup_cons {k : κ} {b : α} {l : List α} :
    lookup key k (b :: l) = if key b = k then some b else lookup key k l := by
  by_cases h : key b = k <;> simp [lookup, h]

theorem key_of_lookup {k : κ} {l : List α} {a : α} (h : lookup key k l = some a) :
    key a = k := by
  simpa using List.find?_some h

theorem mem_of_lookup {k : κ} {l : List α} {a : α} (h : lookup key k l = some a) : a ∈ l :=
  List.mem_of_find?_eq_some h

/-- Where the keys are distinct, the lookup of an element's key finds it. -/
theorem lookup_of_mem {l : List α} (hl : (l.map key).Nodup) {a : α} (ha : a ∈ l) :
    lookup key (key a) l = some a := by
  induction l with
  | nil => cases ha
  | cons b l ih =>
    rw [List.map_cons, List.nodup_cons] at hl
    rw [lookup_cons]
    rcases List.mem_cons.mp ha with rfl | ha
    · rw [if_pos rfl]
    · have hb : key b ≠ key a := fun h => hl.1 (h ▸ List.mem_map_of_mem ha)
      rw [if_neg hb, ih hl.2 ha]

/-- Under another key, an `upsert` changes nothing. -/
theorem lookup_upsert_of_ne (hmerge : ∀ b a, key (merge b a) = key b) {k : κ} {a : α}
    (hk : k ≠ key a) (l : List α) :
    lookup key k (upsert key merge l a) = lookup key k l := by
  induction l with
  | nil => simp [upsert, lookup_cons, hk.symm]
  | cons b l ih =>
    unfold upsert
    by_cases hb : key b = key a
    · have hbk : key b ≠ k := fun h => hk (h.symm.trans hb)
      rw [if_pos hb, lookup_cons, lookup_cons, hmerge, if_neg hbk, if_neg hbk]
    · rw [if_neg hb, lookup_cons, lookup_cons, ih]

/-- Under its own key, an `upsert` merges into what was there. -/
theorem lookup_upsert_self (hmerge : ∀ b a, key (merge b a) = key b) (l : List α) (a : α) :
    lookup key (key a) (upsert key merge l a)
      = some ((lookup key (key a) l).elim a fun b => merge b a) := by
  induction l with
  | nil => simp [upsert, lookup_cons]
  | cons b l ih =>
    unfold upsert
    by_cases hb : key b = key a
    · rw [if_pos hb, lookup_cons, lookup_cons, hmerge, if_pos hb, if_pos hb]
      rfl
    · rw [if_neg hb, lookup_cons, lookup_cons, if_neg hb, if_neg hb, ih]

/-- The keys after an `upsert`: a new one comes last. -/
theorem map_key_upsert (hmerge : ∀ b a, key (merge b a) = key b) (l : List α) (a : α) :
    (upsert key merge l a).map key
      = if key a ∈ l.map key then l.map key else l.map key ++ [key a] := by
  induction l with
  | nil => rfl
  | cons b l ih =>
    unfold upsert
    by_cases hb : key b = key a
    · simp [hb, hmerge]
    · rw [if_neg hb, List.map_cons, ih, List.map_cons]
      by_cases ha : key a ∈ l.map key
      · rw [if_pos ha, if_pos (List.mem_cons_of_mem _ ha)]
      · have ha' : key a ∉ key b :: l.map key := by
          rw [List.mem_cons, not_or]
          exact ⟨Ne.symm hb, ha⟩
        rw [if_neg ha, if_neg ha']
        rfl

/-- An `upsert` keeps the keys distinct. -/
theorem nodup_upsert (hmerge : ∀ b a, key (merge b a) = key b) {l : List α}
    (hl : (l.map key).Nodup) (a : α) : ((upsert key merge l a).map key).Nodup := by
  rw [map_key_upsert hmerge]
  split
  · exact hl
  · next ha => exact List.nodup_append.mpr ⟨hl, List.nodup_singleton _, by grind⟩

/-- An element of another key is there after an `upsert` exactly when it was
there before. -/
theorem mem_upsert_of_ne (hmerge : ∀ b a, key (merge b a) = key b) {l : List α} {a x : α}
    (hx : key x ≠ key a) : x ∈ upsert key merge l a ↔ x ∈ l := by
  induction l with
  | nil =>
    have hne : x ≠ a := fun h => hx (congrArg key h)
    simp [upsert, hne]
  | cons b l ih =>
    unfold upsert
    by_cases hb : key b = key a
    · have hxb : x ≠ b := fun h => hx ((congrArg key h).trans hb)
      have hxm : x ≠ merge b a :=
        fun h => hx ((congrArg key h).trans ((hmerge b a).trans hb))
      rw [if_pos hb, List.mem_cons, List.mem_cons]
      simp [hxb, hxm]
    · rw [if_neg hb, List.mem_cons, List.mem_cons, ih]

/-- Where a filter picks the elements of `a`'s key, an `upsert` of `a` merges
into the first it picks. -/
theorem filter_upsert_of_iff {p : α → Bool} {l : List α} {a : α}
    (hl : ∀ b ∈ l, p b = true ↔ key b = key a) (ha : p a = true)
    (hm : ∀ b, p (merge b a) = true) :
    (upsert key merge l a).filter p
      = match l.filter p with
        | [] => [a]
        | b :: rest => merge b a :: rest := by
  induction l with
  | nil => simp [upsert, ha]
  | cons b l ih =>
    unfold upsert
    by_cases hb : key b = key a
    · have hpb : p b = true := (hl b List.mem_cons_self).mpr hb
      rw [if_pos hb, List.filter_cons_of_pos (hm b), List.filter_cons_of_pos hpb]
    · have hpb : ¬p b = true := fun h => hb ((hl b List.mem_cons_self).mp h)
      rw [if_neg hb, List.filter_cons_of_neg hpb, List.filter_cons_of_neg hpb]
      exact ih fun c hc => hl c (List.mem_cons_of_mem _ hc)

/-- A filter that picks nothing of `a`'s key does not see an `upsert` of `a`. -/
theorem filter_upsert_of_not {p : α → Bool} {l : List α} {a : α}
    (hl : ∀ b ∈ l, key b = key a → p b = false) (ha : p a = false)
    (hm : ∀ b, p (merge b a) = false) :
    (upsert key merge l a).filter p = l.filter p := by
  induction l with
  | nil => simp [upsert, ha]
  | cons b l ih =>
    have ih := ih fun c hc => hl c (List.mem_cons_of_mem _ hc)
    unfold upsert
    by_cases hb : key b = key a
    · have hpb := hl b List.mem_cons_self hb
      rw [if_pos hb, List.filter_cons_of_neg (by simp [hm]), List.filter_cons_of_neg (by simp [hpb])]
    · rw [if_neg hb, List.filter_cons, List.filter_cons, ih]

/-- What holds of a list's elements and of what is merged holds of an `upsert`. -/
theorem forall_mem_upsert {P : α → Prop} {l : List α} {a : α} (hl : ∀ b ∈ l, P b) (ha : P a)
    (hm : ∀ b, key b = key a → P (merge b a)) : ∀ b ∈ upsert key merge l a, P b := by
  induction l with
  | nil => exact fun b hb => List.mem_singleton.mp hb ▸ ha
  | cons c l ih =>
    obtain ⟨hc, hl⟩ := List.forall_mem_cons.mp hl
    unfold upsert
    split
    · next heq => exact List.forall_mem_cons.mpr ⟨hm c heq, hl⟩
    · exact List.forall_mem_cons.mpr ⟨hc, ih hl⟩

/-! ## Groups

A list is looked at key by key: what a key's elements are, in order. -/

@[simp] theorem mem_group {k : κ} {l : List α} {a : α} : a ∈ group key k l ↔ a ∈ l ∧ key a = k := by
  simp [group]

theorem group_cons {k : κ} {b : α} {l : List α} :
    group key k (b :: l) = if key b = k then b :: group key k l else group key k l := by
  by_cases h : key b = k <;> simp [group, h]

theorem group_append (k : κ) (l l' : List α) :
    group key k (l ++ l') = group key k l ++ group key k l' := List.filter_append ..

theorem group_of_forall_ne {k : κ} {l : List α} (h : ∀ a ∈ l, key a ≠ k) : group key k l = [] := by
  simpa [group] using h

theorem group_singleton_self (a : α) : group key (key a) [a] = [a] := by simp [group]

theorem head?_group (k : κ) (l : List α) : (group key k l).head? = lookup key k l := by
  simp [group, lookup]

/-- Two lists with the same groups have the same elements. -/
theorem mem_iff_of_group_eq {l l' : List α} (h : ∀ k, group key k l = group key k l') (a : α) :
    a ∈ l ↔ a ∈ l' := by
  have hself : ∀ l : List α, a ∈ l ↔ a ∈ group key (key a) l := by simp
  rw [hself l, hself l', h]

@[simp] theorem length_modifyFirst (k : κ) (f : α → α) (l : List α) :
    (modifyFirst key k f l).length = l.length := by
  induction l with
  | nil => rfl
  | cons b l ih =>
    unfold modifyFirst
    split <;> simp [ih]

/-- What is found in a list's beginning is changed there. -/
theorem modifyFirst_append {k : κ} {f : α → α} {l : List α} {a : α} (h : lookup key k l = some a)
    (l' : List α) : modifyFirst key k f (l ++ l') = modifyFirst key k f l ++ l' := by
  induction l with
  | nil => simp at h
  | cons b l ih =>
    rw [lookup_cons] at h
    rw [List.cons_append, modifyFirst, modifyFirst]
    split
    · rfl
    · next hb =>
      rw [if_neg hb] at h
      rw [ih h, List.cons_append]

theorem lookup_append (k : κ) (l l' : List α) :
    lookup key k (l ++ l') = (lookup key k l).or (lookup key k l') := List.find?_append ..

theorem lookup_eq_none {k : κ} {l : List α} (h : ∀ a ∈ l, key a ≠ k) : lookup key k l = none :=
  List.find?_eq_none.2 fun a ha => by simpa using h a ha

/-- A change that keeps the key is found under it. -/
theorem lookup_modifyFirst_self {k : κ} {f : α → α} (hf : ∀ a, key (f a) = key a) (l : List α) :
    lookup key k (modifyFirst key k f l) = (lookup key k l).map f := by
  induction l with
  | nil => rfl
  | cons b l ih =>
    unfold modifyFirst
    by_cases hb : key b = k
    · rw [if_pos hb, lookup_cons, lookup_cons, hf, if_pos hb, if_pos hb]
      rfl
    · rw [if_neg hb, lookup_cons, lookup_cons, if_neg hb, if_neg hb, ih]

/-- What is found under the other keys stays. -/
theorem lookup_modifyFirst_of_ne {k k' : κ} {f : α → α} (hf : ∀ a, key (f a) = key a)
    (hk : k' ≠ k) (l : List α) : lookup key k' (modifyFirst key k f l) = lookup key k' l := by
  induction l with
  | nil => rfl
  | cons b l ih =>
    unfold modifyFirst
    by_cases hb : key b = k
    · have hb' : key b ≠ k' := fun h => hk (h.symm.trans hb)
      rw [if_pos hb, lookup_cons, lookup_cons, hf, if_neg hb', if_neg hb']
    · rw [if_neg hb, lookup_cons, lookup_cons, ih]

/-- A change that leaves what is found as it was leaves the list. -/
theorem modifyFirst_eq_self {k : κ} {f : α → α} {l : List α} {a : α}
    (h : lookup key k l = some a) (hf : f a = a) : modifyFirst key k f l = l := by
  induction l with
  | nil => rfl
  | cons b l ih =>
    rw [lookup_cons] at h
    unfold modifyFirst
    split
    · next hb =>
      rw [if_pos hb] at h
      cases h
      rw [hf]
    · next hb =>
      rw [if_neg hb] at h
      rw [ih h]

/-- A change that keeps the key is found changed. -/
theorem lookup_map {β : Type*} {key' : β → κ} {g : α → β} (hg : ∀ a, key' (g a) = key a) (k : κ)
    (l : List α) : lookup key' k (l.map g) = (lookup key k l).map g := by
  induction l with
  | nil => rfl
  | cons b l ih =>
    rw [List.map_cons, lookup_cons, lookup_cons, hg, ih]
    split <;> rfl

/-- A change that keeps the key changes the head of its group. -/
theorem group_modifyFirst_self {k : κ} {f : α → α} (hf : ∀ a, key (f a) = key a) (l : List α) :
    group key k (modifyFirst key k f l)
      = match group key k l with
        | [] => []
        | a :: rest => f a :: rest := by
  induction l with
  | nil => rfl
  | cons b l ih =>
    unfold modifyFirst
    by_cases hb : key b = k
    · rw [if_pos hb, group_cons, group_cons, hf, if_pos hb, if_pos hb]
    · rw [if_neg hb, group_cons, group_cons, if_neg hb, if_neg hb, ih]

/-- The groups of the other keys stay. -/
theorem group_modifyFirst_of_ne {k k' : κ} {f : α → α} (hf : ∀ a, key (f a) = key a) (hk : k' ≠ k)
    (l : List α) : group key k' (modifyFirst key k f l) = group key k' l := by
  induction l with
  | nil => rfl
  | cons b l ih =>
    unfold modifyFirst
    by_cases hb : key b = k
    · have hb' : key b ≠ k' := fun h => hk (h.symm.trans hb)
      rw [if_pos hb, group_cons, group_cons, hf, if_neg hb', if_neg hb']
    · rw [if_neg hb, group_cons, group_cons, ih]

/-! ## Coalescing -/

/-- **A table has distinct keys.** -/
theorem nodup_coalesce (hmerge : ∀ b a, key (merge b a) = key b) (l : List α) :
    ((coalesce key merge l).map key).Nodup := by
  suffices h : ∀ acc : List α, (acc.map key).Nodup →
      ((l.foldl (upsert key merge) acc).map key).Nodup from h [] List.nodup_nil
  induction l with
  | nil => exact fun _ hacc => hacc
  | cons a l ih => exact fun acc hacc => ih _ (nodup_upsert hmerge hacc a)

theorem coalesce_concat (l : List α) (a : α) :
    coalesce key merge (l ++ [a]) = upsert key merge (coalesce key merge l) a := by
  simp [coalesce]

/-- A list of distinct keys is its own table. -/
theorem coalesce_eq_self {l : List α} (hl : (l.map key).Nodup) :
    coalesce key merge l = l := by
  have happend : ∀ (l : List α) (a : α), key a ∉ l.map key →
      upsert key merge l a = l ++ [a] := by
    intro l a ha
    induction l with
    | nil => rfl
    | cons b l ih =>
      rw [List.map_cons, List.mem_cons, not_or] at ha
      rw [upsert, if_neg (Ne.symm ha.1), ih ha.2]
      rfl
  induction l using List.reverseRecOn with
  | nil => rfl
  | append_singleton l a ih =>
    rw [List.map_append, List.nodup_append] at hl
    rw [coalesce_concat, ih hl.1, happend]
    exact fun h => hl.2.2 _ h _ (List.mem_singleton_self _) rfl

/-- Adding one element to a table and coalescing again merges it in. -/
theorem coalesce_concat_of_nodup {l : List α} (hl : (l.map key).Nodup) (a : α) :
    coalesce key merge (l ++ [a]) = upsert key merge l a := by
  rw [coalesce_concat, coalesce_eq_self hl]

end KeyedList

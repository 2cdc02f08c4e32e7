import Mathlib.Algebra.GroupWithZero.Nat
import Mathlib.Algebra.Order.BigOperators.Group.List
import Mathlib.Data.List.Forall2
import Mathlib.Data.List.Nodup
import Mathlib.Data.List.Pairwise

/-!
# Tables that only settle

A table is the list of its rows. What goes on around a table often only
*settles* it: some rows go, the others change in place, each into something
a relation `R` allows. `List.SublistForall₂ R after before` says so, and
this module has what follows from it for the sums and the concatenations
taken over a table.
-/

namespace Table

variable {α β : Type*} {R : α → α → Prop} {after before : List α}

/-- Rows that change in place. -/
theorem settled_map {f : α → α} (h : ∀ a ∈ before, R (f a) a) :
    List.SublistForall₂ R (before.map f) before := by
  induction before with
  | nil => exact .nil
  | cons a l ih =>
    have hl : ∀ b ∈ l, R (f b) b := fun b hb => h b (List.mem_cons_of_mem _ hb)
    exact .cons (h a List.mem_cons_self) (ih hl)

/-- Rows that go. -/
theorem settled_filter [Std.Refl R] (p : α → Bool) :
    List.SublistForall₂ R (before.filter p) before :=
  List.filter_sublist.sublistForall₂

/-- A table settled under a relation is settled under any weaker one, which may
count on the rows the table has. -/
theorem settled_mono_mem {R' : α → α → Prop} (hle : ∀ a, ∀ b ∈ before, R a b → R' a b)
    (h : List.SublistForall₂ R after before) : List.SublistForall₂ R' after before := by
  induction h with
  | nil => exact .nil
  | @cons a b _ l hR _ ih =>
    have hl : ∀ a, ∀ b ∈ l, R a b → R' a b := fun a b hb => hle a b (List.mem_cons_of_mem _ hb)
    exact .cons (hle a b List.mem_cons_self hR) (ih hl)
  | @cons_right b _ l _ ih =>
    have hl : ∀ a, ∀ b ∈ l, R a b → R' a b := fun a b hb => hle a b (List.mem_cons_of_mem _ hb)
    exact .cons_right (ih hl)

/-- A table settled under a relation is settled under any weaker one. -/
theorem settled_mono {R' : α → α → Prop} (hle : ∀ a b, R a b → R' a b)
    (h : List.SublistForall₂ R after before) : List.SublistForall₂ R' after before :=
  settled_mono_mem (fun a b _ => hle a b) h

/-- A row of the settled table comes from a row of the table. -/
theorem exists_of_mem (h : List.SublistForall₂ R after before) {a : α} (ha : a ∈ after) :
    ∃ b ∈ before, R a b := by
  induction h with
  | nil => simp at ha
  | cons hR _ ih =>
    rcases List.mem_cons.1 ha with rfl | ha
    · exact ⟨_, List.mem_cons_self, hR⟩
    · obtain ⟨b, hb, hab⟩ := ih ha
      exact ⟨b, List.mem_cons_of_mem _ hb, hab⟩
  | cons_right _ ih =>
    obtain ⟨b, hb, hab⟩ := ih ha
    exact ⟨b, List.mem_cons_of_mem _ hb, hab⟩

/-- A total to which no row adds more than it did does not grow. -/
theorem sum_map_le (h : List.SublistForall₂ R after before) {f : α → Nat}
    (hf : ∀ a b, R a b → f a ≤ f b) : (after.map f).sum ≤ (before.map f).sum := by
  induction h with
  | nil => simp
  | cons hR _ ih =>
    simp only [List.map_cons, List.sum_cons]
    exact Nat.add_le_add (hf _ _ hR) ih
  | cons_right _ ih =>
    simp only [List.map_cons, List.sum_cons]
    exact ih.trans (Nat.le_add_left _ _)

/-- What the selected rows list, concatenated, only loses entries where a
row is selected only if it was before and lists no more than it did. -/
theorem flatMap_filter_sublist (h : List.SublistForall₂ R after before) {p : α → Bool}
    {f : α → List β} (hp : ∀ a b, R a b → p a = true → p b = true ∧ (f a).Sublist (f b)) :
    ((after.filter p).flatMap f).Sublist ((before.filter p).flatMap f) := by
  induction h with
  | nil => simp
  | @cons a b after before hR _ ih =>
    by_cases ha : p a = true
    · obtain ⟨hb, hsub⟩ := hp a b hR ha
      rw [List.filter_cons_of_pos ha, List.filter_cons_of_pos hb, List.flatMap_cons,
        List.flatMap_cons]
      exact hsub.append ih
    · rw [List.filter_cons_of_neg ha]
      by_cases hb : p b = true
      · rw [List.filter_cons_of_pos hb, List.flatMap_cons]
        exact ih.trans (List.sublist_append_right _ _)
      · rw [List.filter_cons_of_neg hb]
        exact ih
  | @cons_right b after before _ ih =>
    by_cases hb : p b = true
    · rw [List.filter_cons_of_pos hb, List.flatMap_cons]
      exact ih.trans (List.sublist_append_right _ _)
    · rw [List.filter_cons_of_neg hb]
      exact ih

/-- What every row keeps is a sublist of what the table had. -/
theorem map_sublist (h : List.SublistForall₂ R after before) {f : α → β}
    (hf : ∀ a b, R a b → f a = f b) : (after.map f).Sublist (before.map f) := by
  induction h with
  | nil => simp
  | cons hR _ ih =>
    rw [List.map_cons, List.map_cons, hf _ _ hR]
    exact ih.cons_cons _
  | cons_right _ ih =>
    rw [List.map_cons]
    exact ih.cons _

/-- What the rows list, concatenated, where no row lists more than it did. -/
theorem flatMap_sublist (h : List.SublistForall₂ R after before) {f : α → List β}
    (hf : ∀ a b, R a b → (f a).Sublist (f b)) : (after.flatMap f).Sublist (before.flatMap f) := by
  have hfilter := flatMap_filter_sublist h (p := fun _ => true) (f := f)
    fun a b hR _ => ⟨rfl, hf a b hR⟩
  simpa only [List.filter_true] using hfilter

/-- **Updating the row of a key** moves a total by what that row weighs before
and after. -/
theorem sum_map_update {κ : Type*} [DecidableEq κ] {key : α → κ} {l : List α}
    (hl : (l.map key).Nodup) {a : α} (ha : a ∈ l) (f : α → α) (w : α → Nat) :
    ((l.map fun b => if key b = key a then f b else b).map w).sum + w a
      = (l.map w).sum + w (f a) := by
  induction l with
  | nil => cases ha
  | cons b l ih =>
    rw [List.map_cons, List.nodup_cons] at hl
    simp only [List.map_cons, List.sum_cons]
    rcases List.mem_cons.1 ha with rfl | ha
    · have hrest : (l.map fun b => if key b = key a then f b else b) = l := by
        refine (List.map_congr_left fun b hb => ?_).trans (List.map_id l)
        refine if_neg fun heq => hl.1 ?_
        rw [← heq]
        exact List.mem_map_of_mem hb
      rw [hrest, if_pos rfl]
      omega
    · have hne : key b ≠ key a := by
        intro heq
        rw [heq] at hl
        exact hl.1 (List.mem_map_of_mem ha)
      rw [if_neg hne]
      have hrest := ih hl.2 ha
      omega

/-- **Updates of single rows, one after another**, are one update of the table,
in which each row takes the update of its key. -/
theorem foldl_update {κ : Type*} [DecidableEq κ] {key : α → κ} {updated : β → κ}
    {f : β → α → α} (hf : ∀ b a, key (f b a) = key a) {updates : List β}
    (hnodup : (updates.map updated).Nodup) (l : List α) :
    updates.foldl (fun l b => l.map fun a => if key a = updated b then f b a else a) l
      = l.map fun a => (updates.find? fun b => updated b == key a).elim a fun b => f b a := by
  induction updates generalizing l with
  | nil => exact (List.map_id l).symm
  | cons b updates ih =>
    rw [List.map_cons, List.nodup_cons] at hnodup
    rw [List.foldl_cons, ih hnodup.2, List.map_map]
    refine List.map_congr_left fun a _ => ?_
    simp only [Function.comp_apply]
    by_cases heq : key a = updated b
    · have hnone : (updates.find? fun c => updated c == key (f b a)) = none := by
        refine List.find?_eq_none.mpr fun c hc hkey => hnodup.1 ?_
        rw [hf, heq] at hkey
        exact List.mem_map.mpr ⟨c, hc, by simpa using hkey⟩
      have hfirst : (updated b == key a) = true := beq_iff_eq.mpr heq.symm
      simp only [if_pos heq, List.find?_cons, hfirst]
      rw [hnone, Option.elim_none, Option.elim_some]
    · have hfirst : (updated b == key a) = false := beq_eq_false_iff_ne.mpr fun h => heq h.symm
      simp only [if_neg heq, List.find?_cons, hfirst]

/-- Updates of other rows. -/
theorem map_update_of_forall_ne {κ : Type*} [DecidableEq κ] {key : α → κ} {updated : β → κ}
    {f : β → α → α} {updates : List β} {l : List α}
    (h : ∀ a ∈ l, ∀ b ∈ updates, updated b ≠ key a) :
    (l.map fun a => (updates.find? fun b => updated b == key a).elim a fun b => f b a) = l := by
  refine (List.map_congr_left fun a ha => ?_).trans (List.map_id l)
  have hnone : (updates.find? fun b => updated b == key a) = none :=
    List.find?_eq_none.mpr fun b hb hkey => h a ha b hb (beq_iff_eq.mp hkey)
  rw [hnone]
  rfl

/-- The same for the children of the rows, which `get` reads and `set` replaces. -/
theorem foldl_updateChildren {γ κ : Type*} [DecidableEq κ] (get : α → List γ)
    (set : α → List γ → α) (hget : ∀ a l, get (set a l) = l)
    (hset : ∀ a l l', set (set a l) l' = set a l') (hself : ∀ a, set a (get a) = a) {key : γ → κ}
    {updated : β → κ} {f : β → γ → γ} (hf : ∀ b c, key (f b c) = key c) {updates : List β}
    (hnodup : (updates.map updated).Nodup) (l : List α) :
    updates.foldl (fun l b => l.map fun a =>
        set a ((get a).map fun c => if key c = updated b then f b c else c)) l
      = l.map fun a => set a ((get a).map fun c =>
          (updates.find? fun b => updated b == key c).elim c fun b => f b c) := by
  have hrows : updates.foldl (fun l b => l.map fun a =>
        set a ((get a).map fun c => if key c = updated b then f b c else c)) l
      = l.map fun a => set a (updates.foldl (fun l b =>
          l.map fun c => if key c = updated b then f b c else c) (get a)) := by
    clear hnodup
    induction updates generalizing l with
    | nil => simp only [List.foldl_nil, hself, List.map_id']
    | cons b updates ih =>
      simp only [List.foldl_cons, ih, List.map_map, Function.comp_def, hget, hset]
  rw [hrows]
  refine List.map_congr_left fun a _ => ?_
  rw [foldl_update hf hnodup]

section Keys

variable {κ : Type*} [DecidableEq κ] {key : α → κ} {l : List α}

omit [DecidableEq κ] in
/-- No two rows share a child, where the children's keys are their own. -/
theorem flatMap_disjoint {γ : Type*} {get : α → List γ} {childKey : γ → κ}
    (hnodup : ((l.flatMap get).map childKey).Nodup) {a b : α} (ha : a ∈ l) (hb : b ∈ l)
    (hne : a ≠ b) {c d : γ} (hc : c ∈ get a) (hd : d ∈ get b) :
    childKey d ≠ childKey c := by
  rw [List.map_flatMap, List.nodup_flatMap] at hnodup
  have hsymm : Std.Symm (Function.onFun List.Disjoint fun a => (get a).map childKey) :=
    ⟨fun _ _ h _ hx hy => h hy hx⟩
  have hdisjoint := hnodup.2.forall ha hb hne
  intro heq
  exact hdisjoint (List.mem_map_of_mem hc) (heq ▸ List.mem_map_of_mem hd)

/-- The row of a key is the one row that has it. -/
theorem find?_key (hnodup : (l.map key).Nodup) {a : α} (ha : a ∈ l) :
    l.find? (fun b => key b == key a) = some a := by
  cases hfound : l.find? (fun b => key b == key a) with
  | none => exact absurd (beq_self_eq_true (key a)) (List.find?_eq_none.mp hfound a ha)
  | some b =>
    have hkey : key b = key a := by simpa using List.find?_some hfound
    rw [List.inj_on_of_nodup_map hnodup (List.mem_of_find?_eq_some hfound) ha hkey]

omit [DecidableEq κ] in
/-- What is picked of each row, under its key, has keys of its own. -/
theorem nodup_filterMap {pick : α → Option β} {picked : β → κ}
    (hpick : ∀ a ∈ l, ∀ b, pick a = some b → picked b = key a) (hnodup : (l.map key).Nodup) :
    ((l.filterMap pick).map picked).Nodup := by
  induction l with
  | nil => exact List.nodup_nil
  | cons a l ih =>
    rw [List.map_cons, List.nodup_cons] at hnodup
    have hrest := fun a ha => hpick a (List.mem_cons_of_mem _ ha)
    cases hpicked : pick a with
    | none =>
      rw [List.filterMap_cons_none hpicked]
      exact ih hrest hnodup.2
    | some b =>
      rw [List.filterMap_cons_some hpicked, List.map_cons, List.nodup_cons]
      refine ⟨fun hmem => hnodup.1 ?_, ih hrest hnodup.2⟩
      obtain ⟨c, hc, hcb⟩ := List.mem_map.mp hmem
      obtain ⟨a', ha', hpicked'⟩ := List.mem_filterMap.mp hc
      rw [← hpick a List.mem_cons_self b hpicked, ← hcb, hrest a' ha' c hpicked']
      exact List.mem_map_of_mem ha'

end Keys

/-! ## A statement on one row -/

/-- An update of the rows under a condition, and whether it wrote exactly one. -/
def updateWhere (p : α → Bool) (f : α → α) (l : List α) : List α × Bool :=
  (l.map fun a => if p a then f a else a, (l.filter p).length = 1)

/-- **A condition on the key** lets an update write one row, or none. -/
theorem updateWhere_cases {κ : Type*} {key : α → κ} {l : List α} (hnodup : (l.map key).Nodup)
    {p : α → Bool} {k : κ} (hp : ∀ a, p a = true → key a = k) (f : α → α) :
    (∃ before a after, l = before ++ a :: after ∧ p a = true ∧
      updateWhere p f l = (before ++ f a :: after, true)) ∨
    updateWhere p f l = (l, false) := by
  by_cases hany : ∃ a ∈ l, p a = true
  · obtain ⟨a, hmem, ha⟩ := hany
    obtain ⟨before, after, rfl⟩ := List.append_of_mem hmem
    rw [List.map_append, List.map_cons, List.nodup_middle, List.nodup_cons] at hnodup
    have hother : ∀ b, b ∈ before ∨ b ∈ after → ¬ p b = true := by
      intro b hb hpb
      refine hnodup.1 ?_
      rw [hp a ha, ← hp b hpb, ← List.map_append]
      exact List.mem_map_of_mem (List.mem_append.2 hb)
    have hbefore : ∀ b ∈ before, ¬ p b = true := fun b hb => hother b (.inl hb)
    have hafter : ∀ b ∈ after, ¬ p b = true := fun b hb => hother b (.inr hb)
    refine .inl ⟨before, a, after, rfl, ha, ?_⟩
    unfold updateWhere
    rw [List.map_append, List.map_cons, if_pos ha, List.filter_append, List.filter_cons, if_pos ha,
      List.filter_eq_nil_iff.2 hbefore, List.filter_eq_nil_iff.2 hafter,
      List.map_congr_left fun b hb => if_neg (hbefore b hb),
      List.map_congr_left fun b hb => if_neg (hafter b hb), List.map_id', List.map_id']
    rfl
  · have hnone : ∀ b ∈ l, ¬ p b = true := fun b hb hpb => hany ⟨b, hb, hpb⟩
    right
    unfold updateWhere
    rw [List.filter_eq_nil_iff.2 hnone, List.map_congr_left fun b hb => if_neg (hnone b hb),
      List.map_id']
    rfl

end Table

import Mathlib.Data.List.Nodup
import Mathlib.Data.List.Flatten
import Mathlib.Data.Nat.Find
import Mathlib.Data.List.Range
import Mathlib.Data.List.Perm.Subperm

/-!
# Reading lists by pages

Lists that are read page by page, where each page is cleaned on its own: what it has that
is usable, each key once. Three things are said about them: what is left when repeats are
left out across pages (`distinct`), what reading up to the first page that is not full
comes to (`Pages.visible`), and that two lists can be merged from their beginnings alone
(`take_distinct_picks`).
-/

namespace Paging

variable {α κ : Type*} [DecidableEq κ] {key : α → κ} {seen : List κ} {l m : List α}

/-! ## Each key once -/

/-- The items whose key is neither seen nor that of an item before. -/
def distinct (key : α → κ) : List κ → List α → List α
  | _, [] => []
  | seen, a :: l =>
    if key a ∈ seen then distinct key seen l else a :: distinct key (key a :: seen) l

theorem distinct_congr {seen seen' : List κ} (h : ∀ k, k ∈ seen ↔ k ∈ seen') (l : List α) :
    distinct key seen l = distinct key seen' l := by
  induction l generalizing seen seen' with
  | nil => rfl
  | cons a l ih =>
    have hcons : ∀ k, k ∈ key a :: seen ↔ k ∈ key a :: seen' := by simp [h]
    simp only [distinct, h, ih h, ih hcons]

theorem distinct_append (seen : List κ) (l m : List α) :
    distinct key seen (l ++ m) = distinct key seen l ++ distinct key (l.map key ++ seen) m := by
  induction l generalizing seen with
  | nil => rfl
  | cons a l ih =>
    have hseen : ∀ k, (k ∈ l.map key ++ key a :: seen ↔ k ∈ (a :: l).map key ++ seen) := by
      intro k
      simp only [List.map_cons, List.cons_append, List.mem_cons, List.mem_append]
      tauto
    simp only [List.cons_append, distinct]
    split
    next h =>
      have hmem : ∀ k, (k ∈ l.map key ++ seen ↔ k ∈ (a :: l).map key ++ seen) := by
        intro k
        simp only [List.map_cons, List.cons_append, List.mem_cons, List.mem_append]
        exact ⟨.inr, fun hk => hk.elim (fun hk => .inr (hk ▸ h)) id⟩
      rw [ih, distinct_congr hmem]
    next => rw [ih, List.cons_append, distinct_congr hseen]

theorem distinct_sublist (seen : List κ) (l : List α) : (distinct key seen l).Sublist l := by
  induction l generalizing seen with
  | nil => exact List.Sublist.slnil
  | cons a l ih =>
    rw [distinct]
    split
    · exact (ih seen).cons a
    · exact (ih _).cons_cons a

theorem mem_keys_distinct {k : κ} :
    k ∈ (distinct key seen l).map key ↔ k ∈ l.map key ∧ k ∉ seen := by
  induction l generalizing seen with
  | nil => simp [distinct]
  | cons a l ih =>
    rw [distinct]
    split
    next h =>
      rw [ih, List.map_cons, List.mem_cons]
      constructor
      · exact fun hk => ⟨.inr hk.1, hk.2⟩
      · rintro ⟨rfl | hk, hseen⟩
        · exact absurd h hseen
        · exact ⟨hk, hseen⟩
    next h =>
      rw [List.map_cons, List.mem_cons, ih, List.map_cons, List.mem_cons, List.mem_cons, not_or]
      constructor
      · rintro (rfl | hk)
        · exact ⟨.inl rfl, h⟩
        · exact ⟨.inr hk.1, hk.2.2⟩
      · rintro ⟨hk, hseen⟩
        by_cases ha : k = key a
        · exact .inl ha
        · exact .inr ⟨hk.resolve_left ha, ha, hseen⟩

theorem nodup_distinct (seen : List κ) (l : List α) :
    ((distinct key seen l).map key).Nodup := by
  induction l generalizing seen with
  | nil => exact List.nodup_nil
  | cons a l ih =>
    rw [distinct]
    split
    · exact ih seen
    · rw [List.map_cons, List.nodup_cons, mem_keys_distinct]
      exact ⟨fun h => h.2 List.mem_cons_self, ih _⟩

theorem distinct_of_nodup (hl : (l.map key).Nodup) (h : ∀ a ∈ l, key a ∉ seen) :
    distinct key seen l = l := by
  induction l generalizing seen with
  | nil => rfl
  | cons a l ih =>
    rw [List.map_cons, List.nodup_cons] at hl
    rw [List.forall_mem_cons] at h
    rw [distinct, if_neg h.1, ih hl.2]
    intro b hb hmem
    rcases List.mem_cons.1 hmem with hab | hmem
    · exact hl.1 (hab ▸ List.mem_map_of_mem hb)
    · exact h.2 b hb hmem

/-- Leaving out repeats beforehand changes nothing. -/
theorem distinct_distinct (seen : List κ) (l : List α) :
    distinct key seen (distinct key [] l) = distinct key seen l := by
  have hgen : ∀ (l : List α) (seen sub : List κ), (∀ k ∈ sub, k ∈ seen) →
      distinct key seen (distinct key sub l) = distinct key seen l := by
    intro l
    induction l with
    | nil => exact fun _ _ _ => rfl
    | cons a l ih =>
      intro seen sub hsub
      rw [distinct]
      split
      next h => rw [ih seen sub hsub, distinct, if_pos (hsub _ h)]
      next =>
        rw [distinct, distinct]
        split
        next h => exact ih seen _ (by simpa [h] using hsub)
        next =>
          rw [ih]
          intro k hk
          rcases List.mem_cons.1 hk with rfl | hk
          · exact List.mem_cons_self
          · exact List.mem_cons_of_mem _ (hsub k hk)
  exact hgen l seen [] (by simp)

/-- Nor does leaving out the repeats of each part. -/
theorem distinct_flatMap {ι : Type*} (f : ι → List α) (parts : List ι) (seen : List κ) :
    distinct key seen (parts.flatMap fun i => distinct key [] (f i))
      = distinct key seen (parts.flatMap f) := by
  induction parts generalizing seen with
  | nil => rfl
  | cons i parts ih =>
    rw [List.flatMap_cons, List.flatMap_cons, distinct_append, distinct_append, distinct_distinct,
      ih]
    congr 1
    refine distinct_congr (fun k => ?_) _
    rw [List.mem_append, List.mem_append, mem_keys_distinct]
    simp

/-! ## Pages -/

/-- A list as it is read by pages: of each page what is usable, each key once. -/
structure Pages (key : α → κ) (size : Nat) where
  items : Nat → List α
  /-- How many pages there are. -/
  count : Nat
  size_pos : 0 < size
  nodup : ∀ i, ((items i).map key).Nodup
  length_le : ∀ i, (items i).length ≤ size
  ends : ∀ i, count ≤ i → items i = []

namespace Pages

variable {size : Nat} (s : Pages key size)

/-- The items of the first pages, one after another. -/
def all (n : Nat) : List α := (List.range n).flatMap s.items

/-- The items of the first pages, each key once. -/
def upTo (n : Nat) : List α := distinct key [] (s.all n)

/-- The items of all pages, each key once. -/
def whole : List α := s.upTo s.count

/-- A page that is not full. -/
def Short (i : Nat) : Prop := (s.items i).length < size

instance (i : Nat) : Decidable (s.Short i) := inferInstanceAs (Decidable (_ < _))

omit [DecidableEq κ] in
theorem short_count : s.Short s.count := by
  rw [Short, s.ends s.count le_rfl]
  exact s.size_pos

omit [DecidableEq κ] in
theorem exists_short : ∃ i, s.Short i := ⟨s.count, s.short_count⟩

/-- The first page that is not full. -/
def firstShort : Nat := Nat.find s.exists_short

/-- What reading up to the first page that is not full comes to. -/
def visible : List α := s.upTo (s.firstShort + 1)

/-- What stands on the full pages before. -/
def before : List α := s.upTo s.firstShort

variable {s} {i j n : Nat}

omit [DecidableEq κ] in
theorem all_succ (n : Nat) : s.all (n + 1) = s.all n ++ s.items n := by
  simp [all, List.range_succ]

theorem upTo_succ (n : Nat) :
    s.upTo (n + 1) = s.upTo n ++ distinct key ((s.upTo n).map key) (s.items n) := by
  rw [upTo, all_succ, distinct_append, List.append_nil]
  congr 1
  exact distinct_congr (fun k => by rw [upTo, mem_keys_distinct]; simp) _

theorem nodup_upTo (n : Nat) : ((s.upTo n).map key).Nodup := nodup_distinct _ _

theorem upTo_prefix (h : i ≤ j) : s.upTo i <+: s.upTo j := by
  induction j, h using Nat.le_induction with
  | base => exact List.prefix_rfl
  | succ j _ ih =>
    rw [upTo_succ]
    exact ih.trans (List.prefix_append _ _)

theorem upTo_of_count_le (h : s.count ≤ n) : s.upTo n = s.whole := by
  induction n, h using Nat.le_induction with
  | base => rfl
  | succ n hn ih =>
    rw [upTo_succ, s.ends n hn, ih]
    exact List.append_nil _

theorem upTo_prefix_whole (n : Nat) : s.upTo n <+: s.whole := by
  rw [← upTo_of_count_le (le_max_left s.count n)]
  exact upTo_prefix (le_max_right s.count n)

omit [DecidableEq κ] in
theorem short_firstShort : s.Short s.firstShort := Nat.find_spec s.exists_short

omit [DecidableEq κ] in
omit [DecidableEq κ] in
theorem firstShort_le (h : s.Short i) : s.firstShort ≤ i := Nat.find_min' s.exists_short h

omit [DecidableEq κ] in
theorem length_of_not_short (h : ¬ s.Short i) : (s.items i).length = size :=
  le_antisymm (s.length_le i) (not_lt.1 h)

theorem mem_keys_upTo {k : κ} :
    k ∈ (s.upTo n).map key ↔ ∃ i < n, k ∈ (s.items i).map key := by
  rw [upTo, mem_keys_distinct]
  simp only [all, List.mem_map, List.mem_flatMap, List.mem_range, List.not_mem_nil,
    not_false_eq_true, and_true]
  constructor
  · rintro ⟨a, ⟨i, hi, ha⟩, rfl⟩
    exact ⟨i, hi, a, ha, rfl⟩
  · rintro ⟨i, hi, a, ha, rfl⟩
    exact ⟨a, ⟨i, hi, ha⟩, rfl⟩

omit [DecidableEq κ] in
theorem length_all_le (n : Nat) : (s.all n).length ≤ n * size := by
  induction n with
  | zero => simp [all]
  | succ n ih =>
    have := s.length_le n
    rw [all_succ, List.length_append, Nat.succ_mul]
    omega

/-! ## Page by page -/

variable (s) in
/-- Before a page with items all pages are full, and no key stands on two pages. -/
def Clean : Prop :=
  ∀ i j, i < j → s.items j ≠ [] →
    ¬ s.Short i ∧ ∀ a ∈ s.items i, ∀ b ∈ s.items j, key a ≠ key b

variable (s) in
/-- The pages one after another are the beginning of the whole, and a page that is not
full is followed by none. -/
def Complete : Prop :=
  (∀ n, s.all n = s.whole.take (n * size)) ∧ ∀ n, s.Short n → s.items (n + 1) = []

omit [DecidableEq κ] in
theorem length_all_of_full (h : ∀ i < n, ¬ s.Short i) : (s.all n).length = n * size := by
  induction n with
  | zero => simp [all]
  | succ n ih =>
    rw [all_succ, List.length_append, ih fun i hi => h i (hi.trans n.lt_succ_self),
      length_of_not_short (h n n.lt_succ_self), Nat.succ_mul]

omit [DecidableEq κ] in
theorem not_short_of_length_all (h : (s.all n).length = n * size) : ∀ i < n, ¬ s.Short i := by
  induction n with
  | zero => exact fun i hi => absurd hi i.not_lt_zero
  | succ n ih =>
    have hall := s.length_all_le n
    have hpage := s.length_le n
    rw [all_succ, List.length_append, Nat.succ_mul] at h
    intro i hi hshort
    rcases Nat.lt_succ_iff_lt_or_eq.1 hi with hi | rfl
    · exact ih (by omega) i hi hshort
    · rw [Short] at hshort
      omega

theorem upTo_eq_all (h : s.Clean) (n : Nat) : s.upTo n = s.all n := by
  induction n with
  | zero => rfl
  | succ n ih =>
    rw [upTo_succ, all_succ, ih, distinct_of_nodup (s.nodup n)]
    intro b hb hmem
    rw [← ih, mem_keys_upTo] at hmem
    obtain ⟨i, hi, hkey⟩ := hmem
    obtain ⟨a, ha, hab⟩ := List.mem_map.1 hkey
    exact (h i n hi (List.ne_nil_of_mem hb)).2 a ha b hb hab

omit [DecidableEq κ] in
theorem all_prefix_of_le (h : i ≤ j) : s.all i <+: s.all j := by
  induction j, h using Nat.le_induction with
  | base => exact List.prefix_rfl
  | succ j _ ih =>
    rw [all_succ]
    exact ih.trans (List.prefix_append _ _)

theorem complete_of_clean (h : s.Clean) : s.Complete := by
  have hwhole : s.whole = s.all s.count := upTo_eq_all h s.count
  constructor
  · intro n
    by_cases hfull : ∀ i < n, ¬ s.Short i
    · have hfront : s.all n <+: s.whole := upTo_eq_all h n ▸ upTo_prefix_whole n
      rw [← length_all_of_full hfull]
      exact List.prefix_iff_eq_take.1 hfront
    · simp only [not_forall, not_not] at hfull
      obtain ⟨i, hi, hshort⟩ := hfull
      -- after a page that is not full there is nothing
      have hnil : ∀ j, i < j → s.items j = [] := fun j hj => by
        by_contra hne
        exact (h i j hj hne).1 hshort
      have hall : ∀ j, n ≤ j → s.all j = s.all n := by
        intro j hj
        induction j, hj using Nat.le_induction with
        | base => rfl
        | succ j hj ih => rw [all_succ, ih, hnil j (hi.trans_le hj), List.append_nil]
      have hn : s.whole = s.all n := by
        rw [← upTo_of_count_le (le_max_left s.count n), upTo_eq_all h]
        exact hall _ (le_max_right _ _)
      rw [hn, List.take_of_length_le (s.length_all_le n)]
  · intro n hshort
    by_contra hne
    exact (h n (n + 1) n.lt_succ_self hne).1 hshort

theorem clean_of_complete (h : s.Complete) : s.Clean := by
  obtain ⟨hall, -⟩ := h
  intro i j hij hne
  have hlt : (s.all (i + 1)).length < (s.all (j + 1)).length := by
    have hle : (s.all (i + 1)).length ≤ (s.all j).length :=
      (all_prefix_of_le (Nat.succ_le_of_lt hij)).length_le
    rw [all_succ (s := s) j, List.length_append]
    have := List.length_pos_iff.2 hne
    omega
  have hnodup : ((s.all (j + 1)).map key).Nodup := by
    rw [hall]
    exact (nodup_upTo s.count).sublist ((List.take_sublist _ _).map _)
  constructor
  · refine not_short_of_length_all (n := i + 1) ?_ i i.lt_succ_self
    rw [hall, hall (j + 1), List.length_take, List.length_take] at hlt
    rw [hall, List.length_take]
    omega
  · intro a ha b hb hkey
    obtain ⟨rest, hrest⟩ := all_prefix_of_le (s := s) (Nat.succ_le_of_lt hij)
    rw [all_succ, ← hrest, List.map_append, List.nodup_append] at hnodup
    refine hnodup.2.2 (key a) ?_ (key b) (List.mem_map_of_mem hb) hkey
    rw [List.map_append, List.mem_append, all_succ]
    exact .inl (by
      rw [List.map_append, List.mem_append]
      exact .inr (List.mem_map_of_mem ha))

/-- **Reading page by page loses nothing exactly from lists that stand clean on their
pages.** -/
theorem complete_iff : s.Complete ↔ s.Clean := ⟨clean_of_complete, complete_of_clean⟩

/-! ## From the beginning -/

variable (s) in
/-- What stands after a page that is not full has been there before. -/
def NothingLost : Prop :=
  ∀ i j, i < j → s.Short i → ∀ k ∈ (s.items j).map key, ∃ h ≤ i, k ∈ (s.items h).map key

theorem visible_prefix_whole : s.visible <+: s.whole := upTo_prefix_whole _

theorem before_prefix : s.before <+: s.visible := upTo_prefix s.firstShort.le_succ

theorem nodup_visible : (s.visible.map key).Nodup := nodup_upTo _

theorem visible_eq_whole_iff : s.visible = s.whole ↔ s.NothingLost := by
  constructor
  · intro h i j _ hshort k hk
    by_cases hj : j < s.count
    · have hwhole : k ∈ s.whole.map key := mem_keys_upTo.2 ⟨j, hj, hk⟩
      rw [← h] at hwhole
      obtain ⟨page, hpage, hmem⟩ := mem_keys_upTo.1 hwhole
      exact ⟨page, (Nat.lt_succ_iff.1 hpage).trans (firstShort_le hshort), hmem⟩
    · rw [s.ends j (not_lt.1 hj)] at hk
      cases hk
  · intro h
    obtain ⟨rest, hrest⟩ := visible_prefix_whole (s := s)
    have hmem : ∀ k ∈ rest.map key, k ∈ s.visible.map key := by
      intro k hk
      have hwhole : k ∈ s.whole.map key := by
        rw [← hrest, List.map_append]
        exact List.mem_append_right _ hk
      obtain ⟨j, -, hj⟩ := mem_keys_upTo.1 hwhole
      rw [visible, mem_keys_upTo]
      by_cases hle : j ≤ s.firstShort
      · exact ⟨j, Nat.lt_succ_of_le hle, hj⟩
      · obtain ⟨page, hpage, hkey⟩ := h s.firstShort j (not_le.1 hle) short_firstShort k hj
        exact ⟨page, Nat.lt_succ_of_le hpage, hkey⟩
    have hnodup : ((s.visible ++ rest).map key).Nodup := by
      rw [hrest]
      exact nodup_upTo _
    rw [List.map_append, List.nodup_append] at hnodup
    cases rest with
    | nil => rw [← hrest, List.append_nil]
    | cons a rest =>
      have ha : key a ∈ (a :: rest).map key := List.mem_map_of_mem List.mem_cons_self
      exact absurd rfl (hnodup.2.2 _ (hmem _ ha) _ ha)

end Pages

/-! ## Two lists merged -/

section Merge

variable (first : Nat → Nat → α → α → Bool)

/-- The items of a second list that come before one of the first, then that one and
what follows. -/
def picksFrom (i : Nat) (a : α) (rest : Nat → List α → List α) : Nat → List α → List α
  | j, [] => a :: rest j []
  | j, b :: m => if first i j a b then a :: rest j (b :: m) else b :: picksFrom i a rest (j + 1) m

/-- Two lists merged: each time the first item of the one or the other, as `first` says
of the two and their positions. -/
def picks : Nat → List α → Nat → List α → List α
  | _, [] => fun _ m => m
  | i, a :: l => picksFrom first i a (picks (i + 1) l)

variable {first} {i j : Nat}

@[simp] theorem picks_nil (m : List α) : picks first i [] j m = m := rfl

@[simp] theorem picks_nil_right (l : List α) : picks first i l j [] = l := by
  induction l generalizing i with
  | nil => rfl
  | cons a l ih => exact congrArg (a :: ·) ih

theorem picks_cons_cons (a b : α) (l m : List α) : picks first i (a :: l) j (b :: m)
    = if first i j a b then a :: picks first (i + 1) l j (b :: m)
      else b :: picks first i (a :: l) (j + 1) m := rfl

theorem picks_perm (l m : List α) : (picks first i l j m).Perm (l ++ m) := by
  induction l generalizing i j m with
  | nil => exact List.Perm.refl m
  | cons a l ih =>
    induction m generalizing j with
    | nil => simp
    | cons b m ihm =>
      rw [picks_cons_cons]
      split
      · exact (ih (b :: m)).cons a
      · exact ((ihm (j := j + 1)).cons b).trans List.perm_middle.symm

/-- Merged from their beginnings, two lists come to the same up to where one of the
beginnings is used up. -/
theorem picks_take (a b : Nat) (l m : List α) :
    ∃ common x y, picks first i l j m = common ++ x
      ∧ picks first i (l.take a) j (m.take b) = common ++ y
      ∧ ((a ≤ l.length ∧ (l.take a).Sublist common) ∨ (b ≤ m.length ∧ (m.take b).Sublist common)
        ∨ (x = [] ∧ y = [])) := by
  induction l generalizing i j m a b with
  | nil =>
    rw [List.take_nil, picks_nil, picks_nil]
    by_cases hb : b ≤ m.length
    · exact ⟨m.take b, m.drop b, [], (List.take_append_drop b m).symm, (List.append_nil _).symm,
        .inr (.inl ⟨hb, List.Sublist.refl _⟩)⟩
    · rw [List.take_of_length_le (not_le.1 hb).le]
      exact ⟨m, [], [], (List.append_nil m).symm, (List.append_nil m).symm, .inr (.inr ⟨rfl, rfl⟩)⟩
  | cons c l ih =>
    cases a with
    | zero => exact ⟨[], _, _, rfl, rfl, .inl ⟨Nat.zero_le _, List.Sublist.refl []⟩⟩
    | succ a =>
      induction m generalizing j b with
      | nil =>
        rw [List.take_nil, picks_nil_right, picks_nil_right]
        by_cases ha : a + 1 ≤ (c :: l).length
        · exact ⟨(c :: l).take (a + 1), (c :: l).drop (a + 1), [],
            (List.take_append_drop _ _).symm, (List.append_nil _).symm,
            .inl ⟨ha, List.Sublist.refl _⟩⟩
        · rw [List.take_of_length_le (not_le.1 ha).le]
          exact ⟨_, [], [], (List.append_nil _).symm, (List.append_nil _).symm,
            .inr (.inr ⟨rfl, rfl⟩)⟩
      | cons d m ihm =>
        cases b with
        | zero => exact ⟨[], _, _, rfl, rfl, .inr (.inl ⟨Nat.zero_le _, List.Sublist.refl []⟩)⟩
        | succ b =>
          rw [List.take_succ_cons, List.take_succ_cons, picks_cons_cons, picks_cons_cons]
          split
          · obtain ⟨common, x, y, hx, hy, h⟩ := ih (i := i + 1) (j := j) a (b + 1) (d :: m)
            rw [List.take_succ_cons] at hy h
            refine ⟨c :: common, x, y, by rw [hx]; rfl, by rw [hy]; rfl, ?_⟩
            rcases h with ⟨hle, hsub⟩ | ⟨hle, hsub⟩ | hnil
            · exact .inl ⟨Nat.succ_le_succ hle, hsub.cons_cons c⟩
            · exact .inr (.inl ⟨hle, hsub.cons c⟩)
            · exact .inr (.inr hnil)
          · obtain ⟨common, x, y, hx, hy, h⟩ := ihm (j := j + 1) b
            rw [List.take_succ_cons] at hy h
            refine ⟨d :: common, x, y, by rw [hx]; rfl, by rw [hy]; rfl, ?_⟩
            rcases h with ⟨hle, hsub⟩ | ⟨hle, hsub⟩ | hnil
            · exact .inl ⟨hle, hsub.cons d⟩
            · exact .inr (.inl ⟨Nat.succ_le_succ hle, hsub.cons_cons d⟩)
            · exact .inr (.inr hnil)

theorem length_le_distinct_of_sublist {w : List α} (h : l.Sublist w) (hl : (l.map key).Nodup) :
    l.length ≤ (distinct key [] w).length := by
  have hsub : l.map key ⊆ (distinct key [] w).map key := by
    intro k hk
    exact mem_keys_distinct.2 ⟨(h.map key).subset hk, List.not_mem_nil⟩
  have hle := (List.subperm_of_subset hl hsub).length_le
  rwa [List.length_map, List.length_map] at hle

/-- **The beginning of a merge is that of the beginnings**, repeats left out. -/
theorem take_distinct_picks (n : Nat) (hl : (l.map key).Nodup) (hm : (m.map key).Nodup) :
    (distinct key [] (picks first i (l.take n) j (m.take n))).take n
      = (distinct key [] (picks first i l j m)).take n := by
  obtain ⟨common, x, y, hx, hy, h⟩ := @picks_take _ first i j n n l m
  have hcommon : n ≤ (distinct key [] common).length →
      (distinct key [] (common ++ y)).take n = (distinct key [] (common ++ x)).take n := by
    intro hlong
    rw [distinct_append, distinct_append, List.take_append_of_le_length hlong,
      List.take_append_of_le_length hlong]
  rw [hx, hy]
  rcases h with ⟨hle, hsub⟩ | ⟨hle, hsub⟩ | ⟨rfl, rfl⟩
  · have := length_le_distinct_of_sublist hsub (hl.sublist ((List.take_sublist n l).map key))
    rw [List.length_take, min_eq_left hle] at this
    exact hcommon this
  · have := length_le_distinct_of_sublist hsub (hm.sublist ((List.take_sublist n m).map key))
    rw [List.length_take, min_eq_left hle] at this
    exact hcommon this
  · rfl

end Merge

/-! ## Pages of two lists merged -/

namespace Pages

variable {size : Nat} (first : Nat → Nat → α → α → Bool) (s t : Pages key size)

/-- Two whole lists merged, each key once. -/
def mergedWhole : List α := distinct key [] (picks first 0 s.whole 0 t.whole)

/-- What is merged where so many items are needed of each list. -/
def mergedPrefix (n : Nat) : List α :=
  distinct key [] (picks first 0 (s.visible.take n) 0 (t.visible.take n))

/-- One page of it. -/
def mergedPage (k : Nat) : List α :=
  ((mergedPrefix first s t ((k + 1) * size)).drop (k * size)).take size

/-- Whether more is said to follow it: more than the page has been merged, or one of the
lists was read to a full page. -/
def MergedMore (k : Nat) : Prop :=
  (k + 1) * size < (mergedPrefix first s t ((k + 1) * size)).length
    ∨ (k + 1) * size ≤ s.before.length ∨ (k + 1) * size ≤ t.before.length

/-- The pages one after another are the beginning of the whole, and one that nothing is
said to follow is followed by none. -/
def MergeComplete : Prop :=
  (∀ n, (List.range n).flatMap (mergedPage first s t) = (mergedWhole first s t).take (n * size))
    ∧ ∀ k, ¬ MergedMore first s t k → mergedPage first s t (k + 1) = []

/-- Where a page ends on the page of the first list that is not full, between what stands
before it and its last item, the second list has something that the first has not. -/
def EndsBeside : Prop :=
  ∀ k, s.before.length < (k + 1) * size → t.before.length < (k + 1) * size →
    (k + 1) * size < s.visible.length →
    ¬ (t.visible.take ((k + 1) * size)).map key ⊆ (s.visible.take ((k + 1) * size)).map key

variable {first s t}

/-- What the pages are slices of. -/
def mergedVisible (first : Nat → Nat → α → α → Bool) (s t : Pages key size) : List α :=
  distinct key [] (picks first 0 s.visible 0 t.visible)

theorem mergedPage_eq (k : Nat) :
    mergedPage first s t k = ((mergedVisible first s t).drop (k * size)).take size := by
  have htake := @take_distinct_picks _ _ _ key s.visible t.visible first 0 0 ((k + 1) * size)
    nodup_visible nodup_visible
  have hsplit : ∀ l : List α, (l.drop (k * size)).take size
      = (l.take ((k + 1) * size)).drop (k * size) := by
    intro l
    rw [List.drop_take, Nat.succ_mul, Nat.add_sub_cancel_left]
  rw [mergedPage, mergedPrefix, hsplit, htake, ← hsplit, mergedVisible]

theorem flatMap_slices (l : List α) (n : Nat) :
    ((List.range n).flatMap fun k => (l.drop (k * size)).take size) = l.take (n * size) := by
  induction n with
  | zero => simp
  | succ n ih =>
    rw [List.range_succ, List.flatMap_append, ih, List.flatMap_singleton, Nat.succ_mul,
      List.take_add]

theorem flatMap_mergedPage (n : Nat) :
    (List.range n).flatMap (mergedPage first s t) = (mergedVisible first s t).take (n * size) := by
  rw [← flatMap_slices]
  exact List.flatMap_congr fun k _ => mergedPage_eq k

/-- A merge has at most the items of its lists. -/
theorem mem_keys_picks {l m : List α} {k : κ} :
    k ∈ (distinct key [] (picks first 0 l 0 m)).map key ↔ k ∈ l.map key ∨ k ∈ m.map key := by
  rw [mem_keys_distinct, ((picks_perm l m).map key).mem_iff, List.map_append, List.mem_append]
  simp

theorem mergedPage_succ_eq_nil_iff (k : Nat) :
    mergedPage first s t (k + 1) = [] ↔ (mergedVisible first s t).length ≤ (k + 1) * size := by
  rw [mergedPage_eq, List.take_eq_nil_iff, List.drop_eq_nil_iff]
  exact or_iff_right s.size_pos.ne'

theorem mergedPrefix_of_le {n : Nat} (hs : s.visible.length ≤ n) (ht : t.visible.length ≤ n) :
    mergedPrefix first s t n = mergedVisible first s t := by
  rw [mergedPrefix, List.take_of_length_le hs, List.take_of_length_le ht, mergedVisible]

theorem mergedVisible_eq_whole_iff :
    (∀ n, (List.range n).flatMap (mergedPage first s t) = (mergedWhole first s t).take (n * size))
      ↔ mergedVisible first s t = mergedWhole first s t := by
  constructor
  · intro hall
    have hlong := hall ((mergedVisible first s t).length + (mergedWhole first s t).length)
    have hle := Nat.le_mul_of_pos_right
      ((mergedVisible first s t).length + (mergedWhole first s t).length) s.size_pos
    rwa [flatMap_mergedPage, List.take_of_length_le (by omega),
      List.take_of_length_le (by omega)] at hlong
  · exact fun h n => by rw [flatMap_mergedPage, h]

theorem nodup_take_visible (n : Nat) : ((s.visible.take n).map key).Nodup :=
  nodup_visible.sublist ((List.take_sublist n _).map key)

/-- More has been merged than the first list gives where the second has something new. -/
theorem lt_length_mergedPrefix_iff {n : Nat} (h : n ≤ s.visible.length) :
    n < (mergedPrefix first s t n).length
      ↔ ¬ (t.visible.take n).map key ⊆ (s.visible.take n).map key := by
  have hlength : ((s.visible.take n).map key).length = n := by
    rw [List.length_map, List.length_take, min_eq_left h]
  have hfront : ((mergedPrefix first s t n).map key).length = (mergedPrefix first s t n).length :=
    List.length_map _
  have hnodup : ((mergedPrefix first s t n).map key).Nodup := nodup_distinct _ _
  rw [← not_le, not_iff_not]
  constructor
  · intro hle k hk
    by_contra hnew
    have hsub : k :: (s.visible.take n).map key ⊆ (mergedPrefix first s t n).map key := by
      intro k' hk'
      rw [mergedPrefix, mem_keys_picks]
      rcases List.mem_cons.1 hk' with rfl | hk'
      · exact .inr hk
      · exact .inl hk'
    have := (List.subperm_of_subset (List.nodup_cons.2 ⟨hnew, nodup_take_visible n⟩) hsub).length_le
    rw [List.length_cons, hlength, hfront] at this
    exact absurd hle (not_le.2 this)
  · intro hsub
    have hkeys : (mergedPrefix first s t n).map key ⊆ (s.visible.take n).map key := by
      intro k hk
      rw [mergedPrefix, mem_keys_picks] at hk
      exact hk.elim id fun hk => hsub hk
    have := (List.subperm_of_subset hnodup hkeys).length_le
    rwa [hlength, hfront] at this

theorem le_length_mergedVisible :
    s.visible.length ≤ (mergedVisible first s t).length
      ∧ t.visible.length ≤ (mergedVisible first s t).length := by
  have hsub : ∀ p : Pages key size,
      (∀ k ∈ p.visible.map key, k ∈ (mergedVisible first s t).map key) →
      p.visible.length ≤ (mergedVisible first s t).length := by
    intro p h
    have := (List.subperm_of_subset nodup_visible h).length_le
    rwa [List.length_map, List.length_map] at this
  exact ⟨hsub s fun k hk => mem_keys_picks.2 (.inl hk),
    hsub t fun k hk => mem_keys_picks.2 (.inr hk)⟩

theorem mem_keys_mergedPrefix {n : Nat} {k : κ} : k ∈ (mergedPrefix first s t n).map key
    ↔ k ∈ (s.visible.take n).map key ∨ k ∈ (t.visible.take n).map key := mem_keys_picks

theorem lt_length_mergedPrefix_iff_right {n : Nat} (h : n ≤ t.visible.length) :
    n < (mergedPrefix first s t n).length
      ↔ ¬ (s.visible.take n).map key ⊆ (t.visible.take n).map key := by
  have hperm : (mergedPrefix first s t n).length = (mergedPrefix first t s n).length := by
    have hswap :
        ((mergedPrefix first s t n).map key).Perm ((mergedPrefix first t s n).map key) := by
      refine (List.perm_ext_iff_of_nodup (nodup_distinct _ _) (nodup_distinct _ _)).2 fun k => ?_
      exact mem_keys_mergedPrefix.trans (or_comm.trans mem_keys_mergedPrefix.symm)
    simpa using hswap.length_eq
  rw [hperm, lt_length_mergedPrefix_iff h]

/-- **What is said to follow a page** is right exactly where no page ends badly on a page
that is not full. -/
theorem mergedMore_iff : (∀ k, ¬ MergedMore first s t k → mergedPage first s t (k + 1) = [])
    ↔ EndsBeside s t ∧ EndsBeside t s := by
  constructor
  · refine fun h => ⟨fun k hs ht hlt hsub => ?_, fun k ht hs hlt hsub => ?_⟩
    · have hmore : ¬ MergedMore first s t k := by
        rw [MergedMore, lt_length_mergedPrefix_iff hlt.le]
        exact fun hmore => hmore.elim (fun hnew => hnew hsub)
          fun hmore => hmore.elim (not_le.2 hs) (not_le.2 ht)
      exact absurd ((mergedPage_succ_eq_nil_iff k).1 (h k hmore))
        (not_le.2 (hlt.trans_le le_length_mergedVisible.1))
    · have hmore : ¬ MergedMore first s t k := by
        rw [MergedMore, lt_length_mergedPrefix_iff_right hlt.le]
        exact fun hmore => hmore.elim (fun hnew => hnew hsub)
          fun hmore => hmore.elim (not_le.2 hs) (not_le.2 ht)
      exact absurd ((mergedPage_succ_eq_nil_iff k).1 (h k hmore))
        (not_le.2 (hlt.trans_le le_length_mergedVisible.2))
  · rintro ⟨hs, ht⟩ k hmore
    rw [MergedMore, not_or, not_or, not_le, not_le] at hmore
    obtain ⟨hfront, hsbefore, htbefore⟩ := hmore
    rw [mergedPage_succ_eq_nil_iff]
    by_cases hslong : (k + 1) * size < s.visible.length
    · exact absurd ((lt_length_mergedPrefix_iff hslong.le).2
        (hs k hsbefore htbefore hslong)) hfront
    · by_cases htlong : (k + 1) * size < t.visible.length
      · exact absurd ((lt_length_mergedPrefix_iff_right htlong.le).2
          (ht k htbefore hsbefore htlong)) hfront
      · rw [← mergedPrefix_of_le (not_lt.1 hslong) (not_lt.1 htlong)]
        exact not_lt.1 hfront

theorem mergedVisible_eq_whole (hs : s.NothingLost) (ht : t.NothingLost) :
    mergedVisible first s t = mergedWhole first s t := by
  rw [mergedVisible, visible_eq_whole_iff.2 hs, visible_eq_whole_iff.2 ht, mergedWhole]

/-- **Merging page by page loses nothing** of lists of which reading them loses nothing,
and which end well beside each other. -/
theorem mergeComplete_of_nothingLost (hs : s.NothingLost) (ht : t.NothingLost)
    (hst : EndsBeside s t) (hts : EndsBeside t s) : MergeComplete first s t :=
  ⟨mergedVisible_eq_whole_iff.2 (mergedVisible_eq_whole hs ht), mergedMore_iff.2 ⟨hst, hts⟩⟩

/-- Two lists share no key. -/
def Apart (s t : Pages key size) : Prop := ∀ k ∈ s.whole.map key, k ∉ t.whole.map key

theorem Apart.symm (h : Apart s t) : Apart t s := fun k hk hk' => h k hk' hk

theorem mem_keys_visible {k : κ} (h : k ∈ s.visible.map key) : k ∈ s.whole.map key :=
  (visible_prefix_whole.sublist.map key).subset h

theorem nothingLost_of_apart (h : Apart s t)
    (hkeys : ∀ k ∈ s.whole.map key, k ∈ s.visible.map key ∨ k ∈ t.visible.map key) :
    s.NothingLost := by
  rw [← visible_eq_whole_iff]
  refine visible_prefix_whole.eq_of_length_le ?_
  have hsub : s.whole.map key ⊆ s.visible.map key := fun k hk =>
    (hkeys k hk).resolve_right fun hk' => h k hk (mem_keys_visible hk')
  have := (List.subperm_of_subset (nodup_upTo s.count) hsub).length_le
  rwa [List.length_map, List.length_map] at this

/-- Lists without a common key of which merging loses nothing. -/
theorem mergeComplete_iff_of_apart (h : Apart s t) : MergeComplete first s t ↔
    s.NothingLost ∧ t.NothingLost ∧ EndsBeside s t ∧ EndsBeside t s := by
  constructor
  · rintro ⟨hall, hmore⟩
    have hkeys : ∀ k, k ∈ s.whole.map key ∨ k ∈ t.whole.map key →
        k ∈ s.visible.map key ∨ k ∈ t.visible.map key := by
      intro k hk
      rw [← @mem_keys_picks _ _ _ _ first, ← mergedVisible, mergedVisible_eq_whole_iff.1 hall,
        mergedWhole, mem_keys_picks]
      exact hk
    exact ⟨nothingLost_of_apart h fun k hk => hkeys k (.inl hk),
      nothingLost_of_apart h.symm fun k hk => (hkeys k (.inr hk)).symm, mergedMore_iff.1 hmore⟩
  · rintro ⟨hs, ht, hst, hts⟩
    exact mergeComplete_of_nothingLost hs ht hst hts

end Pages

end Paging

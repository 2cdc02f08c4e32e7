import Foreseerr.KeyedList

/-!
# Mirroring a table by what changed of it

A local table keeps a copy of a remote one, each a partial map from keys to values. A
copy is brought up to date by a **delta**: some entries as they now are, and the keys
that are kept. What makes a delta enough is that its entries are right, that it has every
entry that is new or changed, and that what it keeps of the old keys is what still
exists (`Delta`). Such a delta makes the copy the table (`delta_eq`), whatever it was
before.

The local table itself is a list of rows, whose map is its **view**.
-/

namespace Mirror

variable {κ ν : Type*} [DecidableEq κ]

/-- The map after some entries are put into it one by one. -/
def puts (table : κ → Option ν) (entries : List (κ × ν)) : κ → Option ν :=
  entries.foldl (fun table entry => Function.update table entry.1 (some entry.2)) table

/-- The map with only the kept keys. -/
def keep (kept : κ → Bool) (table : κ → Option ν) : κ → Option ν :=
  fun k => if kept k then table k else none

/-- **A delta** that leads from an old table to a new one. -/
structure Delta (old new : κ → Option ν) (entries : List (κ × ν)) (kept : κ → Bool) :
    Prop where
  /-- What it puts is so. -/
  sound : ∀ entry ∈ entries, new entry.1 = some entry.2
  /-- It puts all that was not so before. -/
  covers : ∀ k v, new k = some v → old k = some v ∨ k ∈ entries.map Prod.fst
  /-- It keeps what still exists. -/
  keeps : ∀ k v, new k = some v → kept k = true
  /-- It keeps nothing else of what there was. -/
  drops : ∀ k v, old k = some v → new k = none → kept k = false

variable {old new : κ → Option ν} {entries : List (κ × ν)} {kept : κ → Bool}

/-- Right entries are there after they are put, and nothing else changes. -/
theorem puts_apply (hsound : ∀ entry ∈ entries, new entry.1 = some entry.2) (k : κ) :
    puts old entries k = if k ∈ entries.map Prod.fst then new k else old k := by
  induction entries generalizing old with
  | nil => rfl
  | cons entry entries ih =>
    have hentry := hsound entry List.mem_cons_self
    have hrest : ∀ entry ∈ entries, new entry.1 = some entry.2 :=
      fun entry h => hsound entry (List.mem_cons_of_mem _ h)
    rw [show puts old (entry :: entries)
        = puts (Function.update old entry.1 (some entry.2)) entries from rfl, ih hrest]
    by_cases hk : k = entry.1
    · subst hk
      simp [hentry]
    · by_cases hmem : k ∈ entries.map Prod.fst
      · rw [if_pos hmem, if_pos (by rw [List.map_cons]; exact List.mem_cons_of_mem _ hmem)]
      · rw [if_neg hmem, Function.update_of_ne hk,
          if_neg (by rw [List.map_cons, List.mem_cons, not_or]; exact ⟨hk, hmem⟩)]

/-- **A delta leads to the new table.** -/
theorem delta_eq (h : Delta old new entries kept) : keep kept (puts old entries) = new := by
  funext k
  rw [keep, puts_apply h.sound]
  cases hnew : new k with
  | some v =>
    rw [if_pos (h.keeps k v hnew)]
    split
    · rfl
    · next hmem => exact (h.covers k v hnew).resolve_right hmem
  | none =>
    split
    · next hkept =>
      split
      · rfl
      · cases hold : old k with
        | none => rfl
        | some v =>
          have := h.drops k v hold hnew
          rw [hkept] at this
          exact absurd this (by simp)
    · rfl

/-! ## A list of rows as a map -/

section View

variable {ρ : Type*} (key : ρ → κ) (value : ρ → ν)

/-- The **view** of a list of rows: the value of the first row of a key. -/
def view (rows : List ρ) : κ → Option ν :=
  fun k => (KeyedList.lookup key k rows).map value

variable {key value} {rows : List ρ} {k : κ} {v : ν}

/-- Where keys are distinct, the view is what the rows have. -/
theorem view_eq_some (hrows : (rows.map key).Nodup) :
    view key value rows k = some v ↔ (k, v) ∈ rows.map fun row => (key row, value row) := by
  rw [view, Option.map_eq_some_iff, List.mem_map]
  constructor
  · rintro ⟨row, hrow, rfl⟩
    exact ⟨row, KeyedList.mem_of_lookup hrow, by rw [KeyedList.key_of_lookup hrow]⟩
  · rintro ⟨row, hrow, heq⟩
    obtain ⟨rfl, rfl⟩ := Prod.mk.inj heq
    exact ⟨row, KeyedList.lookup_of_mem hrows hrow, rfl⟩

/-- Where the lookup of a key finds nothing, no row has it. -/
theorem not_of_lookup (h : KeyedList.lookup key k rows = none) : ∀ row ∈ rows, key row ≠ k := by
  simpa [KeyedList.lookup] using h

/-- Keeping the rows of some keys keeps these keys of the view. -/
theorem view_filter {kept : κ → Bool} :
    view key value (rows.filter fun row => kept (key row))
      = keep kept (view key value rows) := by
  funext k
  induction rows with
  | nil => simp [view, keep]
  | cons row rows ih =>
    simp only [view, keep] at ih ⊢
    rw [List.filter_cons, KeyedList.lookup_cons]
    by_cases hk : key row = k
    · subst hk
      by_cases hkept : kept (key row) = true
      · simp [hkept, KeyedList.lookup_cons]
      · simp only [hkept, Bool.false_eq_true, if_false] at ih ⊢
        exact ih
    · rw [if_neg hk, ← ih]
      split
      · rw [KeyedList.lookup_cons, if_neg hk]
      · rfl

/-- Changing the value of the rows of one key changes the view at that key. -/
theorem view_map {f : ρ → ρ} (hkey : ∀ row ∈ rows, key (f row) = key row)
    (hvalue : ∀ row ∈ rows, value (f row) = if key row = k then v else value row)
    (hk : ∃ row ∈ rows, key row = k) :
    view key value (rows.map f) = Function.update (view key value rows) k (some v) := by
  have same : ∀ j, view key value (rows.map f) j
      = (KeyedList.lookup key j rows).map fun row => if key row = k then v else value row := by
    intro j
    clear hk
    induction rows with
    | nil => rfl
    | cons row rows ih =>
      have ih := ih (fun row h => hkey row (List.mem_cons_of_mem _ h))
        fun row h => hvalue row (List.mem_cons_of_mem _ h)
      simp only [view] at ih ⊢
      rw [List.map_cons, KeyedList.lookup_cons, KeyedList.lookup_cons,
        hkey row List.mem_cons_self]
      split
      · rw [Option.map_some, Option.map_some, hvalue row List.mem_cons_self]
      · exact ih
  funext j
  rw [same j]
  by_cases hj : j = k
  · subst hj
    rw [Function.update_self]
    cases hlookup : KeyedList.lookup key j rows with
    | none =>
      obtain ⟨row, hrow, hrowk⟩ := hk
      exact absurd hrowk (not_of_lookup hlookup row hrow)
    | some row => rw [Option.map_some, if_pos (KeyedList.key_of_lookup hlookup)]
  · rw [Function.update_of_ne hj, view]
    refine Option.map_congr fun row hrow => ?_
    rw [if_neg (by rw [KeyedList.key_of_lookup hrow]; exact hj)]

/-- A row of a new key adds that key to the view. -/
theorem view_concat {row : ρ} (hrow : ∀ other ∈ rows, key other ≠ key row) :
    view key value (rows ++ [row])
      = Function.update (view key value rows) (key row) (some (value row)) := by
  funext j
  induction rows with
  | nil =>
    by_cases hj : j = key row
    · subst hj
      simp [view, KeyedList.lookup_cons]
    · simp [view, KeyedList.lookup_cons, hj, Ne.symm hj]
  | cons other rows ih =>
    have ih := ih fun other h => hrow other (List.mem_cons_of_mem _ h)
    have hother := hrow other List.mem_cons_self
    simp only [view] at ih ⊢
    rw [List.cons_append, KeyedList.lookup_cons]
    by_cases hj : j = key row
    · subst hj
      rw [if_neg hother, ih, Function.update_self, Function.update_self]
    · rw [Function.update_of_ne hj] at ih ⊢
      rw [view, KeyedList.lookup_cons]
      split
      · rfl
      · exact ih

omit [DecidableEq κ] in
/-- Rows of distinct keys have distinct pairs of key and value. -/
theorem nodup_pairs (hrows : (rows.map key).Nodup) :
    (rows.map fun row => (key row, value row)).Nodup := by
  refine List.Nodup.of_map Prod.fst ?_
  rw [List.map_map]
  exact hrows

/-- The pairs of two lists of rows with distinct keys are the same, up to order, where
their views are. -/
theorem perm_of_view_eq {ρ' : Type*} {key' : ρ' → κ} {value' : ρ' → ν} {others : List ρ'}
    (hrows : (rows.map key).Nodup) (hothers : (others.map key').Nodup)
    (h : view key value rows = view key' value' others) :
    (rows.map fun row => (key row, value row)).Perm
      (others.map fun row => (key' row, value' row)) := by
  rw [List.perm_ext_iff_of_nodup (nodup_pairs hrows) (nodup_pairs hothers)]
  rintro ⟨k, v⟩
  rw [← view_eq_some hrows, ← view_eq_some hothers, h]

end View

end Mirror

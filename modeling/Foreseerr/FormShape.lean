import Foreseerr.IntTexts
import Foreseerr.Qs

/-!
# The shape of a parsed form

How deep a form nests, and the keys it has at any depth. Both are read off one predicate,
`Within p n`: the value nests at most `n` levels, and its keys meet `p`.

A merge adds a level only where a value meets a text, which then becomes a list of the
two; what is merged into stays within its bound as long as that bound is above the one of
what is merged in.
-/

namespace Foreseerr

namespace Qs

variable {o : Options} {p : Text → Prop} {k m n limit : Nat} {source target : Q}

/-! ## Values by their parts -/

/-- Induction on a value: on the items of an array and on the values of an object. -/
theorem Q.induction {motive : Q → Prop} (str : ∀ s, motive (.str s)) (yes : motive .yes)
    (arr : ∀ items, (∀ v, some v ∈ items → motive v) → motive (.arr items))
    (obj : ∀ entries overflow, (∀ e ∈ entries, motive e.2) → motive (.obj entries overflow)) :
    ∀ q, motive q
  | .str s => str s
  | .yes => yes
  | .arr items => arr items fun v hv =>
    have : sizeOf v < sizeOf items := by
      have h := List.sizeOf_lt_of_mem hv
      simp only [Option.some.sizeOf_spec] at h
      omega
    Q.induction str yes arr obj v
  | .obj entries overflow => obj entries overflow fun e he =>
    have : sizeOf e.2 < sizeOf entries := by
      have h := List.sizeOf_lt_of_mem he
      cases e
      simp only [Prod.mk.sizeOf_spec] at h ⊢
      omega
    Q.induction str yes arr obj e.2

mutual

/-- How many arrays and objects stand in each other. -/
def Q.nesting : Q → Nat
  | .str _ | .yes => 0
  | .arr items => itemsNesting items + 1
  | .obj entries _ => entriesNesting entries + 1

def itemsNesting : List (Option Q) → Nat
  | [] => 0
  | none :: items => itemsNesting items
  | some v :: items => max v.nesting (itemsNesting items)

def entriesNesting : Entries → Nat
  | [] => 0
  | (_, v) :: entries => max v.nesting (entriesNesting entries)

end

mutual

/-- The keys of the objects at every depth. -/
def Q.keys : Q → List Text
  | .str _ | .yes => []
  | .arr items => itemsKeys items
  | .obj entries _ => entriesKeys entries

def itemsKeys : List (Option Q) → List Text
  | [] => []
  | none :: items => itemsKeys items
  | some v :: items => v.keys ++ itemsKeys items

def entriesKeys : Entries → List Text
  | [] => []
  | (key, v) :: entries => key :: (v.keys ++ entriesKeys entries)

end

/-- A value that nests at most so many levels, its keys all of one kind. -/
def Within (p : Text → Prop) : Nat → Q → Prop
  | _, .str _ | _, .yes => True
  | 0, .arr _ | 0, .obj _ _ => False
  | n + 1, .arr items => ∀ v, some v ∈ items → Within p n v
  | n + 1, .obj entries _ => ∀ e ∈ entries, p e.1 ∧ Within p n e.2

theorem itemsNesting_le {items : List (Option Q)} :
    itemsNesting items ≤ n ↔ ∀ v, some v ∈ items → v.nesting ≤ n := by
  induction items with
  | nil => simp [itemsNesting]
  | cons item items ih =>
    cases item with
    | none => simp [itemsNesting, ih]
    | some v => simp [itemsNesting, ih]

theorem entriesNesting_le {entries : Entries} :
    entriesNesting entries ≤ n ↔ ∀ e ∈ entries, e.2.nesting ≤ n := by
  induction entries with
  | nil => simp [entriesNesting]
  | cons e entries ih => simp [entriesNesting, ih]

theorem mem_itemsKeys {items : List (Option Q)} {key : Text} :
    key ∈ itemsKeys items ↔ ∃ v, some v ∈ items ∧ key ∈ v.keys := by
  induction items with
  | nil => simp [itemsKeys]
  | cons item items ih =>
    cases item with
    | none => simp [itemsKeys, ih]
    | some v => simp [itemsKeys, ih, or_and_right, exists_or]

theorem mem_entriesKeys {entries : Entries} {key : Text} :
    key ∈ entriesKeys entries ↔ ∃ e ∈ entries, key = e.1 ∨ key ∈ e.2.keys := by
  induction entries with
  | nil => simp [entriesKeys]
  | cons e entries ih => simp [entriesKeys, ih, or_assoc]

theorem within_iff {q : Q} : Within p n q ↔ q.nesting ≤ n ∧ ∀ key ∈ q.keys, p key := by
  induction q using Q.induction generalizing n with
  | str s => simp [Within, Q.nesting, Q.keys]
  | yes => simp [Within, Q.nesting, Q.keys]
  | arr items ih =>
    cases n with
    | zero => simp [Within, Q.nesting]
    | succ n =>
      simp only [Within, Q.nesting, Q.keys, Nat.add_le_add_iff_right, itemsNesting_le,
        mem_itemsKeys]
      constructor
      · intro h
        exact ⟨fun v hv => ((ih v hv).1 (h v hv)).1,
          fun key ⟨v, hv, hkey⟩ => ((ih v hv).1 (h v hv)).2 key hkey⟩
      · intro h v hv
        exact (ih v hv).2 ⟨h.1 v hv, fun key hkey => h.2 key ⟨v, hv, hkey⟩⟩
  | obj entries overflow ih =>
    cases n with
    | zero => simp [Within, Q.nesting]
    | succ n =>
      simp only [Within, Q.nesting, Q.keys, Nat.add_le_add_iff_right, entriesNesting_le,
        mem_entriesKeys]
      constructor
      · intro h
        refine ⟨fun e he => ((ih e he).1 (h e he).2).1, fun key ⟨e, he, hkey⟩ => ?_⟩
        rcases hkey with rfl | hkey
        · exact (h e he).1
        · exact ((ih e he).1 (h e he).2).2 key hkey
      · intro h e he
        exact ⟨h.2 e.1 ⟨e, he, .inl rfl⟩,
          (ih e he).2 ⟨h.1 e he, fun key hkey => h.2 key ⟨e, he, .inr hkey⟩⟩⟩

theorem Within.mono {q : Q} (h : Within p m q) (hmn : m ≤ n) : Within p n q :=
  within_iff.2 ⟨(within_iff.1 h).1.trans hmn, (within_iff.1 h).2⟩

theorem Within.arr {items : List (Option Q)} (h : ∀ v, some v ∈ items → Within p n v) :
    Within p (n + 1) (.arr items) := h

theorem Within.obj {entries : Entries} {overflow : Option Nat}
    (h : ∀ e ∈ entries, p e.1 ∧ Within p n e.2) : Within p (n + 1) (.obj entries overflow) := h

/-! ## Entries -/

theorem mem_inKeyOrder {α : Type} {entries : List (Text × α)} {e : Text × α} :
    e ∈ inKeyOrder entries ↔ e ∈ entries := by
  have hints : (∃ n, indexKey e.1 = some n) ∨ indexKey e.1 = none := by
    cases indexKey e.1 <;> simp
  simp only [inKeyOrder, List.mem_append, List.mem_map, List.mem_insertionSort,
    List.mem_filterMap, List.mem_filter, Option.map_eq_some_iff, Option.isNone_iff_eq_none]
  constructor
  · rintro (⟨_, ⟨f, hf, n, hn, rfl⟩, rfl⟩ | ⟨he, _⟩)
    · exact hf
    · exact he
  · intro he
    exact hints.imp (fun ⟨n, hn⟩ => ⟨(n, e), ⟨e, he, n, hn, rfl⟩, rfl⟩) fun hnone => ⟨he, hnone⟩

/-- The order of the keys does not look at what they carry. -/
theorem inKeyOrder_map {α β : Type} (f : α → β) (entries : List (Text × α)) :
    inKeyOrder (entries.map fun e => (e.1, f e.2))
      = (inKeyOrder entries).map fun e => (e.1, f e.2) := by
  simp only [inKeyOrder, List.map_append, List.filter_map, List.filterMap_map, List.map_map]
  congr 1
  have hints : entries.filterMap
        ((fun e => (indexKey e.1).map fun n => (n, e)) ∘ fun e => (e.1, f e.2))
      = (entries.filterMap fun e => (indexKey e.1).map fun n => (n, e)).map
        fun a => (a.1, (a.2.1, f a.2.2)) := by
    rw [List.map_filterMap]
    refine List.filterMap_congr fun e _ => ?_
    cases hkey : indexKey e.1 <;> simp [hkey]
  have hsort := List.map_insertionSort (fun a b : Nat × Text × α => a.1 ≤ b.1)
    (fun a b : Nat × Text × β => a.1 ≤ b.1) (fun a => (a.1, a.2.1, f a.2.2))
    (entries.filterMap fun e => (indexKey e.1).map fun n => (n, e)) fun _ _ _ _ => Iff.rfl
  rw [hints, ← hsort, List.map_map]
  rfl

theorem mem_set {key : Text} {value : Q} {entries : Entries} {e : Text × Q}
    (he : e ∈ set key value entries) : e = (key, value) ∨ e ∈ entries := by
  induction entries with
  | nil => exact .inl (List.mem_singleton.1 he)
  | cons f entries ih =>
    rw [set] at he
    split at he
    next hkey =>
      rcases List.mem_cons.1 he with rfl | he
      · exact .inl (Prod.ext hkey rfl)
      · exact .inr (List.mem_cons_of_mem f he)
    next =>
      rcases List.mem_cons.1 he with rfl | he
      · exact .inr List.mem_cons_self
      · exact (ih he).imp id (List.mem_cons_of_mem f)

theorem set_within {key : Text} {value : Q} {entries : Entries} (hkey : p key)
    (hvalue : Within p n value) (h : ∀ e ∈ entries, p e.1 ∧ Within p n e.2) :
    ∀ e ∈ set key value entries, p e.1 ∧ Within p n e.2 := by
  intro e he
  rcases mem_set he with rfl | he
  · exact ⟨hkey, hvalue⟩
  · exact h e he

theorem mem_indexed {α : Type} {items : List (Option α)} {i : Nat} {e : Text × α}
    (h : e ∈ indexed i items) : (∃ j, i ≤ j ∧ e.1 = indexText j) ∧ some e.2 ∈ items := by
  induction items generalizing i with
  | nil => cases h
  | cons item items ih =>
    cases item with
    | none =>
      obtain ⟨⟨j, hj, hindex⟩, hmem⟩ := ih h
      exact ⟨⟨j, i.le_succ.trans hj, hindex⟩, List.mem_cons_of_mem _ hmem⟩
    | some v =>
      rcases List.mem_cons.1 h with rfl | h
      · exact ⟨⟨i, le_rfl, rfl⟩, List.mem_cons_self⟩
      · obtain ⟨⟨j, hj, hindex⟩, hmem⟩ := ih h
        exact ⟨⟨j, i.le_succ.trans hj, hindex⟩, List.mem_cons_of_mem _ hmem⟩

theorem indexed_map {α β : Type} (f : α → β) (i : Nat) (items : List (Option α)) :
    indexed i (items.map (·.map f)) = (indexed i items).map fun e => (e.1, f e.2) := by
  induction items generalizing i with
  | nil => rfl
  | cons item items ih => cases item <;> simp [indexed, ih]

theorem indexed_within {items : List (Option Q)} {i : Nat} (hindex : ∀ n, p (indexText n))
    (h : ∀ v, some v ∈ items → Within p n v) :
    ∀ e ∈ indexed i items, p e.1 ∧ Within p n e.2 := by
  intro e he
  obtain ⟨⟨j, -, hkey⟩, hmem⟩ := mem_indexed he
  exact ⟨hkey ▸ hindex j, h e.2 hmem⟩

/-- What `concat` takes of a value. -/
def spread : Q → List (Option Q)
  | .arr items => items
  | other => [some other]

theorem concat_within {a b : Q} (ha : Within p (n + 1) a) (hb : Within p (n + 1) b)
    (haobj : ∀ entries overflow, a = .obj entries overflow → Within p n a)
    (hbobj : ∀ entries overflow, b = .obj entries overflow → Within p n b) :
    ∀ v, some v ∈ concat a b → Within p n v := by
  have hpart : ∀ q : Q, Within p (n + 1) q →
      (∀ entries overflow, q = .obj entries overflow → Within p n q) →
      ∀ v, some v ∈ spread q → Within p n v := by
    intro q hq hobj v hv
    cases q with
    | str s =>
      rw [Option.some.inj (List.mem_singleton.1 hv)]
      cases n <;> trivial
    | yes =>
      rw [Option.some.inj (List.mem_singleton.1 hv)]
      cases n <;> trivial
    | arr items => exact hq v hv
    | obj entries overflow =>
      rw [Option.some.inj (List.mem_singleton.1 hv)]
      exact hobj _ _ rfl
  intro v hv
  simp only [concat, List.flatMap_cons, List.flatMap_nil, List.append_nil, List.mem_append] at hv
  exact hv.elim (hpart a ha haobj v) (hpart b hb hbobj v)

/-! ## Texts that become keys

A text merged into a plain object becomes a key of it. `marks` says whether a merge comes
to that with a text of a given kind, at any depth; it follows `merge` step by step. -/

/-- A merger with whether its merge marks. -/
abbrev Marker := Merger × (Q → Bool)

/-- Whether `mergeItem` merges, and marks. -/
def itemMarks (items : List (Option Q)) (i : Nat) (item : Marker) : Bool :=
  match items[i]? with
  | some (some existing) => existing.isContainer && item.1.1.isContainer && item.2 existing
  | _ => false

/-- Whether one step of `mergeItems` marks. -/
def itemsMark : List (Option Q) → Nat → List (Option Marker) → Bool
  | _, _, [] => false
  | items, i, none :: src => itemsMark items (i + 1) src
  | items, i, some item :: src =>
    itemMarks items i item || itemsMark (mergeItem items i item.1) (i + 1) src

/-- Whether one step of `mergeEntries` marks, of entries in the order of their keys. -/
def entriesMark : Entries → List (Text × Marker) → Bool
  | _, [] => false
  | acc, entry :: src =>
    (acc.find? fun e => e.1 = entry.1).any (fun e => entry.2.2 e.2)
      || entriesMark (mergeEntry (entry.1, entry.2.1) acc) src

mutual

/-- Whether the merge of a value sets a key of a kind as a mark. -/
def marks (o : Options) (kind : Text → Bool) : Q → Q → Bool
  | .str s => fun target =>
    match target with
    | .obj _ none => s ≠ [] && kind s && (o.allowPrototypes || !onPrototype s)
    | _ => false
  | .yes => fun target =>
    match target with
    | .obj _ none => kind (Q.asKey .yes) && (o.allowPrototypes || !onPrototype (Q.asKey .yes))
    | _ => false
  | .arr src => fun target =>
    match target with
    | .arr items => itemsMark items 0 (itemMarkers o kind src)
    | .obj entries _ =>
      entriesMark entries (inKeyOrder (indexed 0 (itemMarkers o kind src)))
    | _ => false
  | .obj src _ => fun target =>
    match target with
    | .arr items => entriesMark (arrayToObject items) (inKeyOrder (entryMarkers o kind src))
    | .obj entries _ => entriesMark entries (inKeyOrder (entryMarkers o kind src))
    | _ => false

def itemMarkers (o : Options) (kind : Text → Bool) : List (Option Q) → List (Option Marker)
  | [] => []
  | none :: src => none :: itemMarkers o kind src
  | some v :: src => some ((v, merge o v), marks o kind v) :: itemMarkers o kind src

def entryMarkers (o : Options) (kind : Text → Bool) : Entries → List (Text × Marker)
  | [] => []
  | (key, v) :: src => (key, (v, merge o v), marks o kind v) :: entryMarkers o kind src

end

variable {kind : Text → Bool}

theorem itemMarkers_eq (src : List (Option Q)) :
    itemMarkers o kind src = src.map (·.map fun v => ((v, merge o v), marks o kind v)) := by
  induction src with
  | nil => rfl
  | cons item src ih => cases item <;> simp [itemMarkers, ih]

theorem entryMarkers_eq (src : Entries) :
    entryMarkers o kind src = src.map fun e => (e.1, (e.2, merge o e.2), marks o kind e.2) := by
  induction src with
  | nil => rfl
  | cons e src ih => simp [entryMarkers, ih]

theorem itemMergers_eq (kind : Text → Bool) (src : List (Option Q)) :
    itemMergers o src = (itemMarkers o kind src).map (·.map (·.1)) := by
  induction src with
  | nil => rfl
  | cons item src ih => cases item <;> simp [itemMergers, itemMarkers, ih]

theorem entryMergers_eq (kind : Text → Bool) (src : Entries) :
    entryMergers o src = (entryMarkers o kind src).map fun e => (e.1, e.2.1) := by
  induction src with
  | nil => rfl
  | cons e src ih => simp [entryMergers, entryMarkers, ih]

theorem mem_itemMarkers {src : List (Option Q)} {item : Marker}
    (h : some item ∈ itemMarkers o kind src) :
    ∃ v, some v ∈ src ∧ item = ((v, merge o v), marks o kind v) := by
  rw [itemMarkers_eq] at h
  obtain ⟨v, hv, hitem⟩ := List.mem_map.1 h
  cases v with
  | none => cases hitem
  | some v => exact ⟨v, hv, (Option.some.inj hitem).symm⟩

/-! ## What a merge keeps -/

/-- What `mergeItems` and `mergeEntries` need of a value: it stays within the bound it is
stored at, and merging it keeps the bound where nothing is marked. -/
def Marker.Keeps (p : Text → Prop) (n : Nat) (item : Marker) : Prop :=
  Within p n item.1.1
    ∧ ∀ target, Within p n target → item.2 target = false → Within p n (item.1.2 target)

theorem mergeItem_within {items : List (Option Q)} {i : Nat} {item : Marker}
    (h : ∀ v, some v ∈ items → Within p n v) (hitem : item.Keeps p n)
    (hmarks : itemMarks items i item = false) :
    ∀ v, some v ∈ mergeItem items i item.1 → Within p n v := by
  intro v hv
  unfold mergeItem at hv
  split at hv
  next existing hi =>
    have hexisting := h existing (List.mem_of_getElem? hi)
    split at hv
    next hcontainers =>
      simp only [itemMarks, hi, hcontainers, Bool.true_and] at hmarks
      rcases List.mem_or_eq_of_mem_set hv with hv | hv
      · exact h v hv
      · rw [Option.some.inj hv]
        exact hitem.2 existing hexisting hmarks
    next =>
      rcases List.mem_append.1 hv with hv | hv
      · exact h v hv
      · rw [Option.some.inj (List.mem_singleton.1 hv)]
        exact hitem.1
  next =>
    rcases List.mem_or_eq_of_mem_set hv with hv | hv
    · exact h v hv
    · rw [Option.some.inj hv]
      exact hitem.1
  next =>
    simp only [List.mem_append, List.mem_replicate, List.mem_singleton, reduceCtorEq,
      and_false, or_false, Option.some.injEq] at hv
    rcases hv with hv | rfl
    · exact h v hv
    · exact hitem.1

theorem mergeItems_within {items : List (Option Q)} {i : Nat} {src : List (Option Marker)}
    (h : ∀ v, some v ∈ items → Within p n v) (hsrc : ∀ item, some item ∈ src → item.Keeps p n)
    (hmarks : itemsMark items i src = false) :
    ∀ v, some v ∈ mergeItems items i (src.map (·.map (·.1))) → Within p n v := by
  induction src generalizing items i with
  | nil => exact h
  | cons item src ih =>
    have hrest : ∀ item, some item ∈ src → item.Keeps p n := fun item hitem =>
      hsrc item (List.mem_cons_of_mem _ hitem)
    cases item with
    | none => exact ih h hrest hmarks
    | some item =>
      rw [itemsMark, Bool.or_eq_false_iff] at hmarks
      exact ih (mergeItem_within h (hsrc item List.mem_cons_self) hmarks.1) hrest hmarks.2

theorem mergeEntry_within {acc : Entries} {entry : Text × Marker} (hkey : p entry.1)
    (h : ∀ e ∈ acc, p e.1 ∧ Within p n e.2) (hentry : entry.2.Keeps p n)
    (hmarks : (acc.find? fun e => e.1 = entry.1).any (fun e => entry.2.2 e.2) = false) :
    ∀ e ∈ mergeEntry (entry.1, entry.2.1) acc, p e.1 ∧ Within p n e.2 := by
  induction acc with
  | nil =>
    rw [mergeEntry, List.forall_mem_singleton]
    exact ⟨hkey, hentry.1⟩
  | cons f acc ih =>
    rw [List.forall_mem_cons] at h
    rw [mergeEntry]
    split
    next hf =>
      rw [List.forall_mem_cons]
      rw [List.find?_cons_of_pos (by simpa using hf), Option.any_some] at hmarks
      exact ⟨⟨hkey, hentry.2 f.2 h.1.2 hmarks⟩, h.2⟩
    next hf =>
      rw [List.forall_mem_cons]
      rw [List.find?_cons_of_neg (by simpa using hf)] at hmarks
      exact ⟨h.1, ih h.2 hmarks⟩

theorem mergeEntries_within {acc : Entries} {src : List (Text × Marker)}
    (h : ∀ e ∈ acc, p e.1 ∧ Within p n e.2) (hsrc : ∀ e ∈ src, p e.1 ∧ e.2.Keeps p n)
    (hmarks : entriesMark acc (inKeyOrder src) = false) :
    ∀ e ∈ mergeEntries acc (src.map fun e => (e.1, e.2.1)), p e.1 ∧ Within p n e.2 := by
  rw [mergeEntries, inKeyOrder_map]
  replace hsrc : ∀ e ∈ inKeyOrder src, p e.1 ∧ e.2.Keeps p n := fun e he =>
    hsrc e (mem_inKeyOrder.1 he)
  generalize inKeyOrder src = src at hsrc hmarks
  induction src generalizing acc with
  | nil => exact h
  | cons entry src ih =>
    rw [List.forall_mem_cons] at hsrc
    rw [entriesMark, Bool.or_eq_false_iff] at hmarks
    exact ih (mergeEntry_within hsrc.1.1 h hsrc.1.2 hmarks.1) hsrc.2 hmarks.2

theorem mergePrimitive_within (hindex : ∀ n, p (indexText n))
    (hkind : ∀ s, (o.allowPrototypes || !onPrototype s) = true → kind s = false → p s)
    (htarget : Within p (n + 1) target) (hsource : ∀ n, Within p n source)
    (hmarks : ∀ entries, target = .obj entries none →
      (kind source.asKey && (o.allowPrototypes || !onPrototype source.asKey)) = false) :
    Within p (n + 1) (mergePrimitive o source target) := by
  unfold mergePrimitive
  split
  next items =>
    refine Within.arr fun v hv => ?_
    rcases List.mem_append.1 hv with hv | hv
    · exact htarget v hv
    · rw [Option.some.inj (List.mem_singleton.1 hv)]
      exact hsource n
  next entries max => exact Within.obj (set_within (hindex _) (hsource n) htarget)
  next entries =>
    split
    next hguard =>
      have hmark := hmarks entries rfl
      rw [hguard, Bool.and_true] at hmark
      exact Within.obj (set_within (hkind _ hguard hmark) (by cases n <;> trivial) htarget)
    next => exact htarget
  next primitive harr hover hplain =>
    refine Within.arr fun v hv => ?_
    simp only [List.mem_cons, Option.some.injEq, List.not_mem_nil, or_false] at hv
    rcases hv with rfl | rfl
    · cases v with
      | str s => cases n <;> trivial
      | yes => cases n <;> trivial
      | arr items => exact absurd rfl (harr items)
      | obj entries overflow =>
        cases overflow with
        | none => exact absurd rfl (hplain entries)
        | some max => exact absurd rfl (hover entries max)
    · exact hsource n

theorem shiftEntries_within {primitive : Q} {src : Entries} (hindex : ∀ n, p (indexText n))
    (hprimitive : Within p n primitive) (hsrc : ∀ e ∈ src, p e.1 ∧ Within p n e.2) :
    ∀ e ∈ shiftEntries primitive src, p e.1 ∧ Within p n e.2 := by
  have hstart : ∀ e ∈ [("0".toList, primitive)], p e.1 ∧ Within p n e.2 := by
    rw [List.forall_mem_singleton]
    exact ⟨hindex 0, hprimitive⟩
  rw [shiftEntries]
  replace hsrc : ∀ e ∈ inKeyOrder src, p e.1 ∧ Within p n e.2 := fun e he =>
    hsrc e (mem_inKeyOrder.1 he)
  generalize inKeyOrder src = src at hsrc
  generalize [("0".toList, primitive)] = result at hstart
  induction src generalizing result with
  | nil => exact hstart
  | cons e src ih =>
    rw [List.forall_mem_cons] at hsrc
    refine ih hsrc.2 _ (set_within ?_ hsrc.1.2 hstart)
    cases parseUsize e.1 with
    | none => exact hsrc.1.1
    | some n => exact hindex (n + 1)

theorem Within.primitive (h : target.isContainer = false) : Within p n target := by
  cases target with
  | str s => cases n <;> trivial
  | yes => cases n <;> trivial
  | arr items => cases h
  | obj entries overflow => cases h

theorem Within.container_pos (h : Within p n target) (hcontainer : target.isContainer = true) :
    ∃ m, n = m + 1 := by
  cases n with
  | succ m => exact ⟨m, rfl⟩
  | zero =>
    cases target with
    | str s => cases hcontainer
    | yes => cases hcontainer
    | arr items => cases h
    | obj entries overflow => cases h

/-- **A merge stays within the bound of what it merges into**, where that one lies above
the bound of what it merges in, and where it marks no key that is out of bounds. -/
theorem merge_within (hindex : ∀ n, p (indexText n))
    (hkind : ∀ s, (o.allowPrototypes || !onPrototype s) = true → kind s = false → p s)
    (htarget : Within p (n + 1) target) (hsource : Within p n source)
    (hmarks : marks o kind source target = false) :
    Within p (n + 1) (merge o source target) := by
  induction source using Q.induction generalizing target n with
  | str s =>
    rw [merge]
    split
    next => exact htarget
    next hs =>
      refine mergePrimitive_within hindex hkind htarget (fun _ => Within.primitive rfl) ?_
      rintro entries rfl
      simpa [marks, hs, Q.asKey] using hmarks
  | yes =>
    rw [merge]
    refine mergePrimitive_within hindex hkind htarget (fun _ => Within.primitive rfl) ?_
    rintro entries rfl
    simpa [marks] using hmarks
  | arr src ih =>
    obtain ⟨n, rfl⟩ := hsource.container_pos rfl
    have hkeeps : ∀ item, some item ∈ itemMarkers o kind src → item.Keeps p (n + 1) := by
      intro item hitem
      obtain ⟨v, hv, rfl⟩ := mem_itemMarkers hitem
      exact ⟨(hsource v hv).mono n.le_succ, fun target htarget hmarks =>
        ih v hv htarget (hsource v hv) hmarks⟩
    cases target with
    | str s | yes =>
      refine Within.arr (concat_within (Within.primitive rfl) (Within.mono hsource (by omega))
        (fun _ _ h => nomatch h) fun _ _ h => nomatch h)
    | arr items =>
      rw [merge, itemMergers_eq kind]
      exact Within.arr (mergeItems_within htarget hkeeps hmarks)
    | obj entries overflow =>
      rw [merge, itemMergers_eq kind, indexed_map]
      refine Within.obj (mergeEntries_within htarget (fun e he => ?_) hmarks)
      obtain ⟨⟨j, -, hj⟩, hmem⟩ := mem_indexed he
      exact ⟨hj ▸ hindex j, hkeeps e.2 hmem⟩
  | obj src overflow ih =>
    obtain ⟨n, rfl⟩ := hsource.container_pos rfl
    have hkeeps : ∀ e ∈ entryMarkers o kind src, p e.1 ∧ e.2.Keeps p (n + 1) := by
      intro e he
      rw [entryMarkers_eq] at he
      obtain ⟨f, hf, rfl⟩ := List.mem_map.1 he
      exact ⟨(hsource f hf).1, (hsource f hf).2.mono n.le_succ, fun target htarget hmarks =>
        ih f hf htarget (hsource f hf).2 hmarks⟩
    cases target with
    | str s | yes =>
      cases overflow with
      | some max =>
        refine Within.obj (shiftEntries_within hindex (Within.primitive rfl) fun e he => ?_)
        exact ⟨(hsource e he).1, (hsource e he).2.mono n.le_succ⟩
      | none =>
        exact Within.arr (concat_within (Within.primitive rfl) (Within.mono hsource (by omega))
          (fun _ _ h => nomatch h) fun _ _ _ => hsource)
    | arr items =>
      rw [merge, entryMergers_eq kind]
      exact Within.obj (mergeEntries_within (indexed_within hindex htarget) hkeeps hmarks)
    | obj entries kept =>
      rw [merge, entryMergers_eq kind]
      exact Within.obj (mergeEntries_within htarget hkeeps hmarks)

theorem itemsMark_eq_false {items : List (Option Q)} {i : Nat} {src : List (Option Marker)}
    (h : ∀ item, some item ∈ src → ∀ target, item.2 target = false) :
    itemsMark items i src = false := by
  induction src generalizing items i with
  | nil => rfl
  | cons item src ih =>
    have hrest := fun item hitem => h item (List.mem_cons_of_mem _ hitem)
    cases item with
    | none => exact ih hrest
    | some item =>
      rw [itemsMark, ih hrest, Bool.or_false, itemMarks]
      split
      next => rw [h item List.mem_cons_self, Bool.and_false]
      next => rfl

theorem entriesMark_eq_false {acc : Entries} {src : List (Text × Marker)}
    (h : ∀ e ∈ src, ∀ target, e.2.2 target = false) :
    entriesMark acc (inKeyOrder src) = false := by
  replace h : ∀ e ∈ inKeyOrder src, ∀ target, e.2.2 target = false := fun e he =>
    h e (mem_inKeyOrder.1 he)
  generalize inKeyOrder src = src at h
  induction src generalizing acc with
  | nil => rfl
  | cons e src ih =>
    rw [List.forall_mem_cons] at h
    rw [entriesMark, ih h.2, Bool.or_false, Option.any_eq_false]
    exact fun f _ => by simp [h.1 f.2]

/-- Texts that a merge turns away are never marked. -/
theorem marks_eq_false (h : ∀ s, kind s = true → (o.allowPrototypes || !onPrototype s) = false) :
    ∀ source target, marks o kind source target = false := by
  have hmark : ∀ s, (kind s && (o.allowPrototypes || !onPrototype s)) = false := by
    intro s
    cases hkind : kind s with
    | false => rfl
    | true => rw [h s hkind, Bool.and_false]
  intro source
  induction source using Q.induction with
  | str s =>
    intro target
    rw [marks]
    dsimp only
    split
    next => rw [Bool.and_assoc, hmark, Bool.and_false]
    next => rfl
  | yes =>
    intro target
    rw [marks]
    dsimp only
    split
    next => exact hmark _
    next => rfl
  | arr src ih =>
    have hitems : ∀ item, some item ∈ itemMarkers o kind src →
        ∀ target, item.2 target = false := by
      intro item hitem
      obtain ⟨v, hv, rfl⟩ := mem_itemMarkers hitem
      exact ih v hv
    intro target
    rw [marks]
    dsimp only
    split
    next => exact itemsMark_eq_false hitems
    next => exact entriesMark_eq_false fun e he => hitems e.2 (mem_indexed he).2
    next => rfl
  | obj src overflow ih =>
    have hentries : ∀ e ∈ entryMarkers o kind src, ∀ target, e.2.2 target = false := by
      intro e he
      rw [entryMarkers_eq] at he
      obtain ⟨f, hf, rfl⟩ := List.mem_map.1 he
      exact ih f hf
    intro target
    rw [marks]
    dsimp only
    split
    next => exact entriesMark_eq_false hentries
    next => exact entriesMark_eq_false hentries
    next => rfl

/-! ## Parameters -/

/-- What the value of a parameter is: a text, or a list of texts, as an array or as an
overflow object. -/
def IsLeaf (p : Text → Prop) (q : Q) : Prop :=
  Within p 1 q ∧ ∀ entries, q ≠ .obj entries none

theorem combinePlain_within {a b : Q} (h : ∀ v, some v ∈ concat a b → Within p n v)
    (hindex : ∀ n, p (indexText n)) : Within p (n + 1) (combinePlain a b limit) := by
  rw [combinePlain]
  split
  next => exact Within.obj (indexed_within hindex h)
  next => exact Within.arr h

theorem combine_isLeaf {existing : Q} {val : Text} (hindex : ∀ n, p (indexText n))
    (h : IsLeaf p existing) : IsLeaf p (combine existing (.str val) limit) := by
  have hplain : (∀ entries overflow, existing ≠ .obj entries overflow) →
      IsLeaf p (combinePlain existing (.str val) limit) := by
    intro hobj
    refine ⟨combinePlain_within (concat_within h.1 (Within.primitive rfl)
      (fun entries overflow hq => absurd hq (hobj entries overflow))
      fun _ _ h => nomatch h) hindex, fun entries hq => ?_⟩
    rw [combinePlain] at hq
    split at hq
    · cases hq
    · cases hq
  cases existing with
  | str s => exact hplain fun _ _ h => nomatch h
  | yes => exact hplain fun _ _ h => nomatch h
  | arr items => exact hplain fun _ _ h => nomatch h
  | obj entries overflow =>
    cases overflow with
    | none => exact absurd rfl (h.2 entries)
    | some max =>
      exact ⟨Within.obj (set_within (hindex _) (Within.primitive rfl) h.1), fun _ h => nomatch h⟩

theorem addParameter_isLeaf {entries : Entries} {part : Text} (hindex : ∀ n, p (indexText n))
    (h : ∀ e ∈ entries, IsLeaf p e.2) : ∀ e ∈ addParameter o entries part, IsLeaf p e.2 := by
  intro e he
  rw [addParameter, readPart] at he
  dsimp only at he
  split at he
  next existing hget =>
    rcases mem_set he with rfl | he
    · obtain ⟨f, hf, rfl⟩ := Option.map_eq_some_iff.1 hget
      exact combine_isLeaf hindex (h f (List.mem_of_find?_eq_some hf))
    · exact h e he
  next =>
    rcases mem_set he with rfl | he
    · exact ⟨Within.primitive rfl, fun _ h => nomatch h⟩
    · exact h e he

theorem parseValues_isLeaf {text : Text} (hindex : ∀ n, p (indexText n)) :
    ∀ e ∈ parseValues text o, IsLeaf p e.2 := by
  rw [parseValues]
  generalize ((bracketed text).splitOn '&').take o.parameterLimit = parts
  have hstart : ∀ e ∈ ([] : Entries), IsLeaf p e.2 := by simp
  generalize ([] : Entries) = entries at hstart
  induction parts generalizing entries with
  | nil => exact hstart
  | cons part parts ih => exact ih _ (addParameter_isLeaf hindex hstart)

theorem wrap_within {root : Text} {leaf : Q} (hindex : ∀ n, p (indexText n))
    (hroot : clean root ≠ "__proto__".toList → p (clean root)) (h : Within p n leaf) :
    Within p (n + 1) (wrap o root leaf) := by
  unfold wrap
  split
  next =>
    split
    next => exact h.mono n.le_succ
    next =>
      exact combinePlain_within (concat_within (fun _ h => nomatch h) (h.mono n.le_succ)
        (fun _ _ h => nomatch h) fun _ _ _ => h) hindex
  next =>
    split
    next =>
      refine Within.arr fun v hv => ?_
      simp only [List.mem_append, List.mem_replicate, List.mem_singleton, reduceCtorEq, and_false,
        false_or, Option.some.injEq] at hv
      exact hv ▸ h
    next =>
      refine Within.obj fun e he => ?_
      split at he
      next hproto =>
        rw [List.mem_singleton] at he
        exact he ▸ ⟨hroot hproto, h⟩
      next => cases he

theorem parseObject_within {chain : List Text} {leaf : Q} (hindex : ∀ n, p (indexText n))
    (hchain : ∀ root ∈ chain, clean root ≠ "__proto__".toList → p (clean root))
    (h : Within p n leaf) : Within p (n + chain.length) (parseObject chain leaf o) := by
  induction chain with
  | nil => exact h
  | cons root chain ih =>
    rw [List.forall_mem_cons] at hchain
    exact wrap_within hindex hchain.1 (ih hchain.2)

theorem segments_length {left : Nat} {key : Text} {chain : List Text}
    (h : segments o left key = .ok (some chain)) : chain.length ≤ left + 1 := by
  induction left generalizing key chain with
  | zero =>
    rw [segments] at h
    split at h
    next => cases h; simp
    next =>
      dsimp only at h
      split at h
      · cases h
      · cases h; simp
  | succ left ih =>
    rw [segments] at h
    split at h
    next => cases h; simp
    next =>
      dsimp only at h
      split at h
      next => cases h
      next =>
        rename_i _ _ after _ _
        cases hrest : segments o left after with
        | error e => rw [hrest] at h; cases h
        | ok rest =>
          rw [hrest] at h
          cases rest with
          | none => cases h
          | some rest =>
            cases h
            exact Nat.succ_le_succ (ih hrest)

theorem splitKey_length {key : Text} {chain : List Text}
    (h : splitKey key o = .ok (some chain)) : chain.length ≤ o.depth + 2 := by
  rw [splitKey] at h
  split at h
  next =>
    split at h
    next => cases h
    next => cases h; simp
  next =>
    dsimp only at h
    split at h
    next => cases h
    next =>
      cases hrest : segments o o.depth key with
      | error e => rw [hrest] at h; cases h
      | ok rest =>
        rw [hrest] at h
        cases rest with
        | none => cases h
        | some rest =>
          cases h
          have hlength := segments_length hrest
          split
          · simp only [List.nil_append]
            omega
          · simp only [List.length_append, List.length_singleton]
            omega

/-! ## The whole form -/

theorem compactItems_eq (items : List (Option Q)) :
    compactItems items = items.filterMap (·.map fun v => some (compact v)) := by
  induction items with
  | nil => rfl
  | cons item items ih => cases item <;> simp [compactItems, ih]

theorem compactEntries_eq (entries : Entries) :
    compactEntries entries = entries.map fun e => (e.1, compact e.2) := by
  induction entries with
  | nil => rfl
  | cons e entries ih => simp [compactEntries, ih]

theorem compact_within {q : Q} (h : Within p n q) : Within p n (compact q) := by
  induction q using Q.induction generalizing n with
  | str s => exact h
  | yes => exact h
  | arr items ih =>
    obtain ⟨n, rfl⟩ := h.container_pos rfl
    refine Within.arr fun v hv => ?_
    rw [compactItems_eq, List.mem_filterMap] at hv
    obtain ⟨item, hitem, hv⟩ := hv
    cases item with
    | none => cases hv
    | some w =>
      rw [Option.map_some, Option.some.injEq, Option.some.injEq] at hv
      exact hv ▸ ih w hitem (h w hitem)
  | obj entries overflow ih =>
    obtain ⟨n, rfl⟩ := h.container_pos rfl
    refine Within.obj fun e he => ?_
    rw [compactEntries_eq] at he
    obtain ⟨f, hf, rfl⟩ := List.mem_map.1 he
    exact ⟨(h f hf).1, ih f hf (h f hf).2⟩

/-- The parameters of a text, in the order they are merged. -/
def parameters (text : Text) (o : Options) : Entries := inKeyOrder (parseValues text o)

/-- Whether no parameter's merge marks a key of a kind, from a value on. -/
def marksNone (o : Options) (kind : Text → Bool) : Q → Entries → Bool
  | _, [] => true
  | obj, entry :: rest =>
    match parsedParameter o entry.1 entry.2 with
    | .error _ => true
    | .ok none => marksNone o kind obj rest
    | .ok (some parsed) =>
      !marks o kind parsed obj && marksNone o kind (merge o parsed obj) rest

theorem marksNone_eq_true {obj : Q} {entries : Entries}
    (h : ∀ s, kind s = true → (o.allowPrototypes || !onPrototype s) = false) :
    marksNone o kind obj entries = true := by
  induction entries generalizing obj with
  | nil => rfl
  | cons entry rest ih =>
    rw [marksNone]
    split
    next => rfl
    next => exact ih
    next => rw [marks_eq_false h, ih]; rfl

/-- **Parameters keep the form within its bound**: a chain is two segments longer than the
depth at most, and its value is one level. -/
theorem foldlM_within {obj res : Q} {entries : Entries} (hindex : ∀ n, p (indexText n))
    (hkind : ∀ s, (o.allowPrototypes || !onPrototype s) = true → kind s = false → p s)
    (hentries : ∀ e ∈ entries, IsLeaf p e.2)
    (hchain : ∀ e ∈ entries, ∀ chain, splitKey e.1 o = .ok (some chain) →
      ∀ root ∈ chain, clean root ≠ "__proto__".toList → p (clean root))
    (hobj : Within p (o.depth + 4) obj) (hmarks : marksNone o kind obj entries = true)
    (h : entries.foldlM (addParsed o) obj = .ok res) : Within p (o.depth + 4) res := by
  induction entries generalizing obj with
  | nil => cases h; exact hobj
  | cons entry rest ih =>
    rw [List.forall_mem_cons] at hentries hchain
    rw [List.foldlM_cons, addParsed] at h
    rw [marksNone] at hmarks
    cases hparsed : parsedParameter o entry.1 entry.2 with
    | error e => rw [hparsed] at h; cases h
    | ok parsed =>
      rw [hparsed] at h hmarks
      cases parsed with
      | none => exact ih hentries.2 hchain.2 hobj hmarks h
      | some parsed =>
        dsimp only at hmarks
        rw [Bool.and_eq_true, Bool.not_eq_true'] at hmarks
        refine ih hentries.2 hchain.2 (merge_within hindex hkind hobj ?_ hmarks.1) hmarks.2 h
        rw [parsedParameter] at hparsed
        split at hparsed
        next => cases hparsed
        next =>
          cases hsplit : splitKey entry.1 o with
          | error e => rw [hsplit] at hparsed; cases hparsed
          | ok chain =>
            rw [hsplit] at hparsed
            cases chain with
            | none => cases hparsed
            | some chain =>
              cases hparsed
              have hlength := splitKey_length hsplit
              exact (parseObject_within hindex (hchain.1 chain hsplit) hentries.1.1).mono
                (by omega)

theorem parse_within (kind : Text → Bool) {text : Text} {entries : Entries}
    (hindex : ∀ n, p (indexText n))
    (hkind : ∀ s, (o.allowPrototypes || !onPrototype s) = true → kind s = false → p s)
    (hchain : ∀ e ∈ parameters text o, ∀ chain, splitKey e.1 o = .ok (some chain) →
      ∀ root ∈ chain, clean root ≠ "__proto__".toList → p (clean root))
    (hmarks : marksNone o kind (.obj [] none) (parameters text o) = true)
    (h : parse text o = .ok entries) : Within p (o.depth + 4) (.obj entries none) := by
  have hempty : Within p (o.depth + 4) (.obj [] none) := Within.obj (by simp)
  rw [parse] at h
  split at h
  next => cases h; exact hempty
  next =>
    cases hfold : (parameters text o).foldlM (addParsed o) (.obj [] none) with
    | error e =>
      rw [parameters] at hfold
      rw [hfold] at h
      cases h
    | ok obj =>
      have hobj := compact_within (foldlM_within hindex hkind
        (fun e he => parseValues_isLeaf hindex e (mem_inKeyOrder.1 he)) hchain hempty hmarks hfold)
      rw [parameters] at hfold
      rw [hfold] at h
      cases h
      dsimp only
      cases hcompact : compact obj with
      | obj entries overflow =>
        rw [hcompact] at hobj
        exact hobj
      | str s => exact hempty
      | yes => exact hempty
      | arr items => exact hempty

/-- **However many parameters a form has, it nests at most four levels below the depth
that its keys are read to.** -/
theorem parsed_nesting_le {text : Text} {entries : Entries} (h : parse text o = .ok entries) :
    (Q.obj entries none).nesting ≤ o.depth + 4 :=
  (within_iff.1 (parse_within (p := fun _ => True) (fun _ => false) (fun _ => trivial)
    (fun _ _ _ => trivial) (fun _ _ _ _ _ _ _ => trivial)
    (marksNone_eq_true fun _ h => nomatch h) h)).1

/-- A form that nests as deep as it can. -/
theorem crowded_nesting_le :
    (Q.obj [(['a'], .arr [some (.str ['1']),
      some (.obj [(['b'], .obj [("[c][][]".toList,
        .arr [some (.str ['1']), some (.str ['1'])])] none)] none)])] none).nesting ≤ 5 :=
  parsed_nesting_le (o := { depth := 1 }) (h := show
    parse "a=1&a[b][c][][]=1&a[b][c][][]=1".toList _ = _ by decide +kernel)

end Qs

end Foreseerr

import Foreseerr.FormShape

/-!
# The keys of a parsed form

Which of the names of `Object.prototype` can become a key of a form. Three places make
keys of a text: a segment of a parameter's key, the rest of it past the depth, and a value
that meets an object. The first two are looked at while the brackets are still on; the
third only where prototypes are not allowed at all.
-/

namespace Foreseerr

namespace Qs

variable {o : Options} {kind : Text → Bool} {limit : Nat} {source target : Q}

/-! ## Groups and segments -/

/-- A text without brackets. -/
def BracketFree (text : Text) : Prop := ∀ c ∈ text, c ≠ '[' ∧ c ≠ ']'

instance : DecidablePred BracketFree := fun text => List.decidableBAll _ text

theorem takeWhile_content {content after : Text} (h : BracketFree content) :
    (content ++ ']' :: after).takeWhile (fun d => d ≠ '[' ∧ d ≠ ']') = content := by
  rw [List.takeWhile_append_of_pos (by simpa [BracketFree] using h)]
  simp

theorem dropWhile_content {content after : Text} (h : BracketFree content) :
    (content ++ ']' :: after).dropWhile (fun d => d ≠ '[' ∧ d ≠ ']') = ']' :: after := by
  rw [List.dropWhile_append_of_pos (by simpa [BracketFree] using h)]
  simp

theorem nextGroup_group {content after : Text} (h : BracketFree content) :
    nextGroup ('[' :: (content ++ ']' :: after)) = some ([], content, after) := by
  rw [nextGroup, takeWhile_content h, dropWhile_content h]
  simp

theorem nextGroup_eq_some {key before content after : Text}
    (h : nextGroup key = some (before, content, after)) :
    key = before ++ '[' :: (content ++ ']' :: after) ∧ BracketFree content := by
  induction key generalizing before with
  | nil => cases h
  | cons c rest ih =>
    rw [nextGroup] at h
    dsimp only at h
    split at h
    next hc =>
      cases h
      obtain ⟨rfl, hafter⟩ := hc
      have hrest : rest.takeWhile (fun d => d ≠ '[' ∧ d ≠ ']')
          ++ rest.dropWhile (fun d => d ≠ '[' ∧ d ≠ ']') = rest := List.takeWhile_append_dropWhile
      rw [List.nil_append, List.cons_inj_right]
      constructor
      · rw [← List.cons_head?_tail hafter] at hrest
        exact hrest.symm
      · intro d hd
        simpa using List.mem_takeWhile_imp hd
    next =>
      obtain ⟨⟨before, content, after⟩, hnext, h⟩ := Option.map_eq_some_iff.1 h
      cases h
      obtain ⟨hrest, hcontent⟩ := ih hnext
      exact ⟨by rw [hrest]; rfl, hcontent⟩

theorem clean_group (content : Text) : clean ('[' :: (content ++ [']'])) = content := by
  have hlast : ('[' :: (content ++ [']'])).getLast? = some ']' :=
    List.getLast?_concat (l := '[' :: content)
  rw [clean, if_pos ⟨by simp, rfl, hlast⟩]
  simp

theorem clean_eq (root : Text) : clean root = root ∨ root = '[' :: (clean root ++ [']']) := by
  by_cases h : 2 ≤ root.length ∧ root.head? = some '[' ∧ root.getLast? = some ']'
  · refine .inr ?_
    rw [clean, if_pos h]
    obtain ⟨hlength, hhead, hlast⟩ := h
    cases root with
    | nil => cases hhead
    | cons c rest =>
      cases hhead
      rcases List.eq_nil_or_concat rest with rfl | ⟨rest, d, rfl⟩
      · simp at hlength
      · rw [List.concat_eq_append, ← List.cons_append, List.getLast?_concat] at hlast
        cases hlast
        simp
  · exact .inl (if_neg h)

theorem prototypeKeys_plain :
    ∀ name ∈ prototypeKeys, BracketFree name ∧ name ≠ [] ∧ ¬ areDigits name := by
  decide +kernel

theorem onPrototype_plain {name : Text} (h : onPrototype name = true) :
    BracketFree name ∧ name ≠ [] ∧ ¬ areDigits name :=
  prototypeKeys_plain name (List.contains_iff_mem.1 h)

theorem onPrototype_indexText (n : Nat) : onPrototype (indexText n) = false := by
  by_contra h
  rw [Bool.not_eq_false] at h
  exact (onPrototype_plain h).2.2 (List.all_eq_true.2 isDigit_toDigits)

theorem onPrototype_bracket (text : Text) : onPrototype ('[' :: text) = false := by
  by_contra h
  rw [Bool.not_eq_false] at h
  exact ((onPrototype_plain h).1 '[' List.mem_cons_self).1 rfl

/-- Where prototypes are not allowed, no segment's name is one. -/
theorem segments_clean {left : Nat} {key : Text} {chain : List Text}
    (hallow : o.allowPrototypes = false) (h : segments o left key = .ok (some chain)) :
    ∀ root ∈ chain, onPrototype (clean root) = false := by
  induction left generalizing key chain with
  | zero =>
    rw [segments] at h
    split at h
    next => cases h; simp
    next =>
      dsimp only at h
      split at h
      · cases h
      · cases h
        rw [List.forall_mem_singleton, List.cons_append, clean_group]
        exact onPrototype_bracket _
  | succ left ih =>
    rw [segments] at h
    split at h
    next => cases h; simp
    next before content after _ =>
      dsimp only at h
      rw [hallow, Bool.not_false, Bool.true_and] at h
      split at h
      next => cases h
      next hcontent =>
        cases hrest : segments o left after with
        | error e => rw [hrest] at h; cases h
        | ok rest =>
          rw [hrest] at h
          cases rest with
          | none => cases h
          | some rest =>
            cases h
            rw [List.forall_mem_cons, List.cons_append, clean_group]
            exact ⟨Bool.eq_false_of_not_eq_true hcontent, ih hrest⟩

/-- What stands before the first group is not a group itself. -/
theorem clean_parent {key : Text} (h : BracketFree (clean ((nextGroup key).elim key (·.1)))) :
    clean ((nextGroup key).elim key (·.1)) = (nextGroup key).elim key (·.1) := by
  rcases clean_eq ((nextGroup key).elim key (·.1)) with heq | hgroup
  · exact heq
  · cases hnext : nextGroup key with
    | none =>
      rw [hnext, Option.elim_none] at hgroup h
      rw [hgroup, nextGroup_group h] at hnext
      cases hnext
    | some parts =>
      obtain ⟨before, content, after⟩ := parts
      rw [hnext, Option.elim_some] at hgroup h
      dsimp only at hgroup h
      obtain ⟨hkey, -⟩ := nextGroup_eq_some hnext
      rw [hkey, hgroup, List.cons_append, List.append_assoc, List.singleton_append,
        nextGroup_group h] at hnext
      cases hnext

theorem splitKey_clean {key : Text} {chain : List Text} (hallow : o.allowPrototypes = false)
    (hkey : o.depth = 0 → onPrototype key = false →
      clean key ≠ "__proto__".toList → onPrototype (clean key) = false)
    (h : splitKey key o = .ok (some chain)) :
    ∀ root ∈ chain, clean root ≠ "__proto__".toList → onPrototype (clean root) = false := by
  rw [splitKey, hallow, Bool.not_false, Bool.true_and] at h
  split at h
  next hdepth =>
    split at h
    next => cases h
    next hproto =>
      cases h
      rw [List.forall_mem_singleton]
      exact hkey hdepth (Bool.eq_false_of_not_eq_true hproto)
  next =>
    dsimp only at h
    rw [Bool.true_and] at h
    split at h
    next => cases h
    next hparent =>
      cases hrest : segments o o.depth key with
      | error e => rw [hrest] at h; cases h
      | ok rest =>
        rw [hrest] at h
        cases rest with
        | none => cases h
        | some rest =>
          cases h
          intro root hroot hname
          rcases List.mem_append.1 hroot with hroot | hroot
          · split at hroot
            next => cases hroot
            next hnil =>
              rw [List.mem_singleton.1 hroot]
              by_contra hclean
              rw [Bool.not_eq_false] at hclean
              rw [clean_parent (onPrototype_plain hclean).1] at hclean
              exact hparent ⟨hnil, hclean⟩
          · exact segments_clean hallow hrest root hroot

/-! ## Keys that stay -/

theorem mem_keys_mergeEntry {acc : Entries} {entry : Text × Merger} {key : Text} :
    key ∈ (mergeEntry entry acc).map (·.1) ↔ key = entry.1 ∨ key ∈ acc.map (·.1) := by
  induction acc with
  | nil => simp [mergeEntry]
  | cons e acc ih =>
    rw [mergeEntry]
    split
    next h => simp [h]
    next =>
      rw [List.map_cons, List.mem_cons, ih, List.map_cons, List.mem_cons]
      exact or_left_comm

theorem mem_keys_mergeEntries {acc : Entries} {src : List (Text × Merger)} {key : Text} :
    key ∈ (mergeEntries acc src).map (·.1)
      ↔ key ∈ src.map (·.1) ∨ key ∈ acc.map (·.1) := by
  have hsrc : key ∈ src.map (·.1) ↔ key ∈ (inKeyOrder src).map (·.1) := by
    simp only [List.mem_map, mem_inKeyOrder]
  rw [hsrc, mergeEntries]
  generalize inKeyOrder src = src
  induction src generalizing acc with
  | nil => simp
  | cons entry src ih =>
    rw [List.foldl_cons, List.map_cons, List.mem_cons, or_assoc, or_left_comm]
    exact (@ih (mergeEntry entry acc)).trans (or_congr_right mem_keys_mergeEntry)

theorem mem_keys_set {entries : Entries} {key other : Text} {value : Q}
    (h : key ∈ entries.map (·.1)) : key ∈ (set other value entries).map (·.1) := by
  induction entries with
  | nil => cases h
  | cons e entries ih =>
    rw [set]
    rw [List.map_cons, List.mem_cons] at h
    split
    next => simpa using h
    next =>
      rw [List.map_cons, List.mem_cons]
      exact h.imp id ih

/-- A plain object stays one, with its keys, whatever is merged into it. -/
theorem merge_obj (source : Q) (acc : Entries) :
    ∃ acc', merge o source (.obj acc none) = .obj acc' none
      ∧ ∀ key ∈ acc.map (·.1), key ∈ acc'.map (·.1) := by
  have hprimitive : ∀ primitive : Q, ∃ acc',
      mergePrimitive o primitive (.obj acc none) = .obj acc' none
        ∧ ∀ key ∈ acc.map (·.1), key ∈ acc'.map (·.1) := by
    intro primitive
    simp only [mergePrimitive]
    split
    · exact ⟨_, rfl, fun key hkey => mem_keys_set hkey⟩
    · exact ⟨acc, rfl, fun _ hkey => hkey⟩
  cases source with
  | str s =>
    rw [merge]
    split
    · exact ⟨acc, rfl, fun _ hkey => hkey⟩
    · exact hprimitive _
  | yes =>
    rw [merge]
    exact hprimitive _
  | arr src =>
    rw [merge]
    exact ⟨_, rfl, fun key hkey => mem_keys_mergeEntries.2 (.inr hkey)⟩
  | obj src overflow =>
    rw [merge]
    exact ⟨_, rfl, fun key hkey => mem_keys_mergeEntries.2 (.inr hkey)⟩

theorem foldlM_keeps {entries : Entries} {acc : Entries} {res : Q}
    (h : entries.foldlM (addParsed o) (.obj acc none) = .ok res) :
    ∃ acc', res = .obj acc' none ∧ (∀ key ∈ acc.map (·.1), key ∈ acc'.map (·.1))
      ∧ ∀ e ∈ entries, ∀ name v, parsedParameter o e.1 e.2 = .ok (some (.obj [(name, v)] none)) →
        name ∈ acc'.map (·.1) := by
  induction entries generalizing acc with
  | nil =>
    cases h
    exact ⟨acc, rfl, fun _ hkey => hkey, by simp⟩
  | cons entry rest ih =>
    rw [List.foldlM_cons, addParsed] at h
    cases hparsed : parsedParameter o entry.1 entry.2 with
    | error e => rw [hparsed] at h; cases h
    | ok parsed =>
      rw [hparsed] at h
      cases parsed with
      | none =>
        obtain ⟨acc', hres, hkeys, hnames⟩ := ih h
        refine ⟨acc', hres, hkeys, ?_⟩
        rw [List.forall_mem_cons]
        refine ⟨fun name v hname => ?_, hnames⟩
        rw [hparsed] at hname
        cases hname
      | some parsed =>
        obtain ⟨next, hnext, hstay⟩ := merge_obj (o := o) parsed acc
        replace h : rest.foldlM (addParsed o) (merge o parsed (.obj acc none)) = .ok res := h
        rw [hnext] at h
        obtain ⟨acc', hres, hkeys, hnames⟩ := ih h
        refine ⟨acc', hres, fun key hkey => hkeys key (hstay key hkey), ?_⟩
        rw [List.forall_mem_cons]
        refine ⟨fun name v hname => hkeys name ?_, hnames⟩
        rw [hparsed] at hname
        cases hname
        rw [merge] at hnext
        cases hnext
        exact mem_keys_mergeEntries.2 (.inl List.mem_cons_self)

/-- At depth 0 a key is not read at all, so nothing exceeds the depth. -/
theorem parsedParameter_flat (key : Text) (hdepth : o.depth = 0) (value : Q) :
    ∃ parsed, parsedParameter o key value = .ok parsed := by
  rw [parsedParameter]
  split
  · exact ⟨none, rfl⟩
  · rw [splitKey, if_pos hdepth]
    exact ⟨_, rfl⟩

theorem foldlM_flat (entries : Entries) (obj : Q) (hdepth : o.depth = 0) :
    ∃ res, entries.foldlM (addParsed o) obj = .ok res := by
  induction entries generalizing obj with
  | nil => exact ⟨obj, rfl⟩
  | cons entry rest ih =>
    obtain ⟨parsed, hparsed⟩ := parsedParameter_flat entry.1 hdepth entry.2
    rw [List.foldlM_cons, addParsed, hparsed]
    exact ih _

/-- Its brackets are taken off all the same. -/
theorem parsedParameter_bracketed {name : Text} {value : Q} (hdepth : o.depth = 0)
    (hname : onPrototype name = true) (hproto : name ≠ "__proto__".toList) :
    parsedParameter o ('[' :: (name ++ [']'])) value = .ok (some (.obj [(name, value)] none)) := by
  obtain ⟨-, hnil, hdigits⟩ := onPrototype_plain hname
  have hroot : '[' :: (name ++ [']']) ≠ ['[', ']'] := by
    cases name with
    | nil => exact absurd rfl hnil
    | cons c name => simp
  have hindex : indexKey name = none := if_pos (.inr (.inr hdigits))
  have hwrap : wrap o ('[' :: (name ++ [']'])) value = .obj [(name, value)] none := by
    unfold wrap
    rw [if_neg hroot, clean_group, hindex, ite_self, Option.filter_none]
    dsimp only
    rw [if_pos hproto]
  rw [parsedParameter, if_neg (List.cons_ne_nil _ _), splitKey, if_pos hdepth, onPrototype_bracket,
    Bool.and_false, ← hwrap]
  rfl

theorem mem_keys_compact {entries : Entries} {key : Text} :
    key ∈ (compactEntries entries).map (·.1) ↔ key ∈ entries.map (·.1) := by
  rw [compactEntries_eq, List.map_map]
  rfl

theorem mem_entriesKeys_of_mem {entries : Entries} {key : Text} (h : key ∈ entries.map (·.1)) :
    key ∈ entriesKeys entries := by
  obtain ⟨e, he, rfl⟩ := List.mem_map.1 h
  exact mem_entriesKeys.2 ⟨e, he, .inl rfl⟩

theorem parameters_nil : ∀ e ∈ parameters [] o, e.1 = [] := by
  intro e he
  rw [parameters, mem_inKeyOrder, parseValues] at he
  cases hlimit : o.parameterLimit with
  | zero =>
    rw [hlimit] at he
    cases he
  | succ n =>
    have hdecode : decode o.latin1 [] = [] := by cases o.latin1 <;> rfl
    have hparts : ((bracketed []).splitOn '&').take (n + 1) = [[]] := by
      simp [bracketed, replaceEscape]
    rw [hlimit, hparts, List.foldl_cons, List.foldl_nil, addParameter, readPart] at he
    exact (congrArg Prod.fst (List.mem_singleton.1 he)).trans hdecode

theorem parse_flat {text : Text} (hdepth : o.depth = 0) (htext : text ≠ []) :
    ∃ entries, parse text o = .ok entries
      ∧ ∀ e ∈ parameters text o, ∀ name, e.1 = '[' :: (name ++ [']']) → onPrototype name = true →
        name ≠ "__proto__".toList → name ∈ entriesKeys entries := by
  obtain ⟨res, hres⟩ := foldlM_flat (parameters text o) (.obj [] none) hdepth
  obtain ⟨acc, rfl, -, hnames⟩ := foldlM_keeps hres
  refine ⟨compactEntries acc, ?_, fun e he name hkey hname hproto => ?_⟩
  · rw [parameters] at hres
    rw [parse, if_neg htext, hres]
    rfl
  · refine mem_entriesKeys_of_mem (mem_keys_compact.2 (hnames e he name e.2 ?_))
    rw [hkey]
    exact parsedParameter_bracketed hdepth hname hproto

/-! ## Marks are there

What a merge marks is a key of what it makes: no later step of the same merge comes back
to the place, since the indices of a list grow and the keys of an object differ. -/

/-- A value whose objects have each key once. -/
inductive Q.Distinct : Q → Prop
  | str (s : Text) : Distinct (.str s)
  | yes : Distinct .yes
  | arr {items : List (Option Q)} (h : ∀ v, some v ∈ items → Distinct v) : Distinct (.arr items)
  | obj {entries : Entries} {overflow : Option Nat} (hkeys : (entries.map (·.1)).Nodup)
      (h : ∀ e ∈ entries, Distinct e.2) : Distinct (.obj entries overflow)

theorem inKeyOrder_perm {α : Type} (entries : List (Text × α)) :
    (inKeyOrder entries).Perm entries := by
  have hints : (entries.filterMap fun e => (indexKey e.1).map fun n => (n, e)).map (·.2)
      = entries.filter fun e => (indexKey e.1).isSome := by
    induction entries with
    | nil => rfl
    | cons e entries ih => cases hkey : indexKey e.1 <;> simp [hkey, ih]
  have hrest : (entries.filter fun e => (indexKey e.1).isNone)
      = entries.filter fun e => !(indexKey e.1).isSome :=
    List.filter_congr fun e _ => by cases indexKey e.1 <;> rfl
  rw [inKeyOrder, hrest]
  refine ((List.Perm.map Prod.snd (List.perm_insertionSort _ _)).append_right _).trans ?_
  rw [show Prod.snd = fun a : Nat × Text × α => a.2 from rfl, hints]
  exact List.filter_append_perm _ _

theorem indexText_injective : Function.Injective indexText := fun i j h => by
  have hvalue := congrArg (Nat.ofDigitChars 10 · 0) h
  simpa [indexText, Nat.ofDigitChars_ten_toDigits] using hvalue

theorem getElem?_mergeItem_of_ne {items : List (Option Q)} {i j : Nat} {item : Merger}
    (hj : j < items.length) (hij : i ≠ j) : (mergeItem items i item)[j]? = items[j]? := by
  unfold mergeItem
  split
  · split
    · exact List.getElem?_set_ne hij
    · exact List.getElem?_append_left hj
  · exact List.getElem?_set_ne hij
  · rw [List.append_assoc]
    exact List.getElem?_append_left hj

theorem length_le_mergeItem (items : List (Option Q)) (i : Nat) (item : Merger) :
    items.length ≤ (mergeItem items i item).length := by
  unfold mergeItem
  split
  · split
    · rw [List.length_set]
    · rw [List.length_append]
      exact Nat.le_add_right _ _
  · rw [List.length_set]
  · rw [List.append_assoc, List.length_append]
    exact Nat.le_add_right _ _

theorem getElem?_mergeItems_of_lt {items : List (Option Q)} {i j : Nat}
    {src : List (Option Merger)} (hj : j < items.length) (hij : j < i) :
    (mergeItems items i src)[j]? = items[j]? := by
  induction src generalizing items i with
  | nil => rfl
  | cons item src ih =>
    cases item with
    | none => exact ih hj (hij.trans i.lt_succ_self)
    | some item =>
      rw [mergeItems, ih (hj.trans_le (length_le_mergeItem items i item))
        (hij.trans i.lt_succ_self), getElem?_mergeItem_of_ne hj hij.ne']

theorem mem_mergeItems_of_itemsMark {bad : Q → Prop} {items : List (Option Q)} {i : Nat}
    {src : List (Option Marker)}
    (hsrc : ∀ item, some item ∈ src → ∀ target, item.2 target = true → bad (item.1.2 target))
    (hmarks : itemsMark items i src = true) :
    ∃ v, some v ∈ mergeItems items i (src.map (·.map (·.1))) ∧ bad v := by
  induction src generalizing items i with
  | nil => cases hmarks
  | cons item src ih =>
    have hrest := fun item hitem => hsrc item (List.mem_cons_of_mem _ hitem)
    cases item with
    | none => exact ih hrest hmarks
    | some item =>
      rw [itemsMark, Bool.or_eq_true] at hmarks
      rcases hmarks with hmarks | hmarks
      · unfold itemMarks at hmarks
        split at hmarks
        next existing hi =>
          rw [Bool.and_eq_true] at hmarks
          have hlength := (List.getElem?_eq_some_iff.1 hi).1
          have hmerged : (mergeItem items i item.1)[i]? = some (some (item.1.2 existing)) := by
            rw [mergeItem, hi]
            dsimp only
            rw [if_pos hmarks.1, List.getElem?_set_self hlength]
          refine ⟨item.1.2 existing, List.mem_of_getElem? (i := i) ?_,
            hsrc item List.mem_cons_self existing hmarks.2⟩
          rw [List.map_cons, Option.map_some, mergeItems, getElem?_mergeItems_of_lt
            (hlength.trans_le (length_le_mergeItem _ _ _)) i.lt_succ_self, hmerged]
        next => cases hmarks
      · exact ih hrest hmarks

theorem mem_mergeEntry_of_ne {acc : Entries} {entry : Text × Merger} {e : Text × Q}
    (he : e ∈ acc) (hne : e.1 ≠ entry.1) : e ∈ mergeEntry entry acc := by
  induction acc with
  | nil => cases he
  | cons f acc ih =>
    rw [mergeEntry]
    split
    next hf =>
      rcases List.mem_cons.1 he with rfl | he
      · exact absurd hf hne
      · exact List.mem_cons_of_mem _ he
    next =>
      rcases List.mem_cons.1 he with rfl | he
      · exact List.mem_cons_self
      · exact List.mem_cons_of_mem _ (ih he)

theorem mem_mergeEntry_of_find {acc : Entries} {entry : Text × Merger} {e : Text × Q}
    (he : (acc.find? fun e => e.1 = entry.1) = some e) :
    (entry.1, entry.2.2 e.2) ∈ mergeEntry entry acc := by
  induction acc with
  | nil => cases he
  | cons f acc ih =>
    rw [mergeEntry]
    split
    next hf =>
      rw [List.find?_cons_of_pos (by simpa using hf)] at he
      cases he
      exact List.mem_cons_self
    next hf =>
      rw [List.find?_cons_of_neg (by simpa using hf)] at he
      exact List.mem_cons_of_mem _ (ih he)

theorem mem_mergeEntries_of_entriesMark {bad : Q → Prop} {acc : Entries}
    {src : List (Text × Marker)} (hkeys : (src.map (·.1)).Nodup)
    (hsrc : ∀ e ∈ src, ∀ target, e.2.2 target = true → bad (e.2.1.2 target))
    (hmarks : entriesMark acc (inKeyOrder src) = true) :
    ∃ e ∈ mergeEntries acc (src.map fun e => (e.1, e.2.1)), bad e.2 := by
  rw [mergeEntries, inKeyOrder_map]
  replace hsrc : ∀ e ∈ inKeyOrder src, ∀ target, e.2.2 target = true → bad (e.2.1.2 target) :=
    fun e he => hsrc e (mem_inKeyOrder.1 he)
  replace hkeys := ((inKeyOrder_perm src).map (·.1)).nodup_iff.2 hkeys
  generalize inKeyOrder src = src at hsrc hmarks hkeys
  induction src generalizing acc with
  | nil => cases hmarks
  | cons entry src ih =>
    rw [List.forall_mem_cons] at hsrc
    rw [List.map_cons, List.nodup_cons] at hkeys
    rw [entriesMark, Bool.or_eq_true] at hmarks
    rcases hmarks with hmarks | hmarks
    · obtain ⟨e, he, hmark⟩ := (Option.any_eq_true _ _).1 hmarks
      refine ⟨(entry.1, entry.2.1.2 e.2), ?_, hsrc.1 e.2 hmark⟩
      have hmem : (entry.1, entry.2.1.2 e.2) ∈ mergeEntry (entry.1, entry.2.1) acc :=
        mem_mergeEntry_of_find he
      rw [List.map_cons, List.foldl_cons]
      generalize mergeEntry (entry.1, entry.2.1) acc = acc at hmem
      -- the entries that follow have other keys
      clear ih hmarks he
      induction src generalizing acc with
      | nil => exact hmem
      | cons other src ih =>
        rw [List.forall_mem_cons] at hsrc
        simp only [List.map_cons, List.mem_cons, not_or, List.nodup_cons] at hkeys
        exact ih ⟨hsrc.1, hsrc.2.2⟩ ⟨hkeys.1.2, hkeys.2.2⟩ _
          (mem_mergeEntry_of_ne hmem hkeys.1.1)
    · exact ih hsrc.2 hmarks hkeys.2

theorem mem_keys_set_self (entries : Entries) (key : Text) (value : Q) :
    key ∈ (set key value entries).map (·.1) := by
  induction entries with
  | nil => exact List.mem_singleton.2 rfl
  | cons e entries ih =>
    rw [set]
    split
    next h => exact List.mem_cons.2 (.inl h.symm)
    next => exact List.mem_cons_of_mem _ ih

theorem indexed_nodup {α : Type} (i : Nat) (items : List (Option α)) :
    ((indexed i items).map (·.1)).Nodup := by
  induction items generalizing i with
  | nil => exact List.nodup_nil
  | cons item items ih =>
    cases item with
    | none => exact ih (i + 1)
    | some v =>
      rw [indexed, List.map_cons, List.nodup_cons]
      refine ⟨fun hmem => ?_, ih (i + 1)⟩
      obtain ⟨e, he, hkey⟩ := List.mem_map.1 hmem
      obtain ⟨⟨j, hj, hindex⟩, -⟩ := mem_indexed he
      have := indexText_injective (hindex.symm.trans hkey)
      omega

/-- A value with a key of a kind at some depth. -/
def Q.HasKey (kind : Text → Bool) (q : Q) : Prop := ∃ key ∈ q.keys, kind key = true

/-- What a merge marks is a key of the merged value. -/
theorem mem_keys_of_marks (hsource : source.Distinct) (hmarks : marks o kind source target = true) :
    (merge o source target).HasKey kind := by
  have hprimitive : ∀ (primitive : Q) (entries : Entries),
      (kind primitive.asKey && (o.allowPrototypes || !onPrototype primitive.asKey)) = true →
      (mergePrimitive o primitive (.obj entries none)).HasKey kind := by
    intro primitive entries h
    rw [Bool.and_eq_true] at h
    refine ⟨primitive.asKey, ?_, h.1⟩
    simp only [mergePrimitive, h.2, if_true]
    exact mem_entriesKeys_of_mem (mem_keys_set_self entries _ _)
  have hentry : ∀ {entries : Entries} {overflow : Option Nat},
      (∃ e ∈ entries, e.2.HasKey kind) →
      (Q.obj entries overflow).HasKey kind := by
    rintro entries overflow ⟨e, he, key, hkey, hkind⟩
    exact ⟨key, mem_entriesKeys.2 ⟨e, he, .inr hkey⟩, hkind⟩
  induction source using Q.induction generalizing target with
  | str s =>
    rw [marks] at hmarks
    dsimp only at hmarks
    split at hmarks
    next entries =>
      rw [Bool.and_assoc, Bool.and_eq_true] at hmarks
      rw [merge]
      dsimp only
      rw [if_neg (of_decide_eq_true hmarks.1)]
      exact hprimitive (.str s) entries hmarks.2
    next => cases hmarks
  | yes =>
    rw [marks] at hmarks
    dsimp only at hmarks
    split at hmarks
    next entries => exact hprimitive .yes entries hmarks
    next => cases hmarks
  | arr src ih =>
    cases hsource with | arr hsource =>
    have hitems : ∀ item, some item ∈ itemMarkers o kind src → ∀ target, item.2 target = true →
        (item.1.2 target).HasKey kind := by
      intro item hitem target htarget
      obtain ⟨v, hv, rfl⟩ := mem_itemMarkers hitem
      exact ih v hv (hsource v hv) htarget
    cases target with
    | str s => cases hmarks
    | yes => cases hmarks
    | arr items =>
      rw [merge, itemMergers_eq kind]
      obtain ⟨v, hv, key, hkey, hkind⟩ :=
        mem_mergeItems_of_itemsMark hitems hmarks
      exact ⟨key, mem_itemsKeys.2 ⟨v, hv, hkey⟩, hkind⟩
    | obj entries overflow =>
      rw [merge, itemMergers_eq kind, indexed_map]
      exact hentry (mem_mergeEntries_of_entriesMark (indexed_nodup _ _)
        (fun e he => hitems e.2 (mem_indexed he).2) hmarks)
  | obj src overflow ih =>
    cases hsource with | obj hkeys hsource =>
    have hentries : ∀ e ∈ entryMarkers o kind src, ∀ target, e.2.2 target = true →
        (e.2.1.2 target).HasKey kind := by
      intro e he target htarget
      rw [entryMarkers_eq] at he
      obtain ⟨f, hf, rfl⟩ := List.mem_map.1 he
      exact ih f hf (hsource f hf) htarget
    replace hkeys : ((entryMarkers o kind src).map (·.1)).Nodup := by
      rw [entryMarkers_eq, List.map_map]
      exact hkeys
    cases target with
    | str s => cases hmarks
    | yes => cases hmarks
    | arr items =>
      rw [merge, entryMergers_eq kind]
      exact hentry (mem_mergeEntries_of_entriesMark hkeys hentries hmarks)
    | obj entries kept =>
      rw [merge, entryMergers_eq kind]
      exact hentry (mem_mergeEntries_of_entriesMark hkeys hentries hmarks)

theorem keys_set (entries : Entries) (key : Text) (value : Q) :
    (set key value entries).map (·.1)
      = if key ∈ entries.map (·.1) then entries.map (·.1) else entries.map (·.1) ++ [key] := by
  induction entries with
  | nil => rfl
  | cons e entries ih =>
    rw [set]
    by_cases h : e.1 = key
    · rw [if_pos h, if_pos (by simp [h])]
      rfl
    · have hmem : key ∈ (e :: entries).map (·.1) ↔ key ∈ entries.map (·.1) := by
        rw [List.map_cons, List.mem_cons, or_iff_right (Ne.symm h)]
      rw [if_neg h, List.map_cons, ih]
      by_cases hkey : key ∈ entries.map (·.1)
      · rw [if_pos hkey, if_pos (hmem.2 hkey)]
        rfl
      · rw [if_neg hkey, if_neg fun h => hkey (hmem.1 h)]
        rfl

theorem set_nodup {entries : Entries} {key : Text} {value : Q}
    (h : (entries.map (·.1)).Nodup) : ((set key value entries).map (·.1)).Nodup := by
  rw [keys_set]
  split
  next => exact h
  next hkey => exact List.concat_eq_append ▸ (List.nodup_concat _ key).2 ⟨hkey, h⟩

theorem combinePlain_distinct {a b : Q} (ha : a.Distinct) (hb : b.Distinct) :
    (combinePlain a b limit).Distinct := by
  have hspread : ∀ q : Q, q.Distinct →
      ∀ v : Q, some v ∈ spread q → v.Distinct := by
    intro q hq v hv
    cases hq with
    | arr h => exact h v hv
    | str s => exact Option.some.inj (List.mem_singleton.1 hv) ▸ .str s
    | yes => exact Option.some.inj (List.mem_singleton.1 hv) ▸ .yes
    | obj hkeys h => exact Option.some.inj (List.mem_singleton.1 hv) ▸ .obj hkeys h
  have hconcat : ∀ v, some v ∈ concat a b → v.Distinct := by
    intro v hv
    simp only [concat, List.flatMap_cons, List.flatMap_nil, List.append_nil, List.mem_append] at hv
    exact hv.elim (hspread a ha v) (hspread b hb v)
  rw [combinePlain]
  split
  next => exact .obj (indexed_nodup _ _) fun e he => hconcat e.2 (mem_indexed he).2
  next => exact .arr hconcat

theorem combine_distinct {existing : Q} {val : Text} (h : existing.Distinct) :
    (combine existing (.str val) limit).Distinct := by
  unfold combine
  split
  next entries max =>
    cases h with | obj hkeys h =>
    refine .obj (set_nodup hkeys) fun e he => ?_
    rcases mem_set he with rfl | he
    · exact .str val
    · exact h e he
  next => exact combinePlain_distinct h (.str val)

theorem parseValues_distinct {text : Text} : ∀ e ∈ parseValues text o, e.2.Distinct := by
  rw [parseValues]
  generalize ((bracketed text).splitOn '&').take o.parameterLimit = parts
  have hstart : ∀ e ∈ ([] : Entries), e.2.Distinct := by simp
  generalize ([] : Entries) = entries at hstart
  induction parts generalizing entries with
  | nil => exact hstart
  | cons part parts ih =>
    refine ih _ fun e he => ?_
    rw [addParameter, readPart] at he
    dsimp only at he
    split at he
    next existing hget =>
      rcases mem_set he with rfl | he
      · obtain ⟨f, hf, rfl⟩ := Option.map_eq_some_iff.1 hget
        exact combine_distinct (hstart f (List.mem_of_find?_eq_some hf))
      · exact hstart e he
    next =>
      rcases mem_set he with rfl | he
      · exact .str _
      · exact hstart e he

theorem wrap_distinct {root : Text} {leaf : Q} (h : leaf.Distinct) :
    (wrap o root leaf).Distinct := by
  unfold wrap
  split
  next =>
    split
    next => exact h
    next => exact combinePlain_distinct (.arr (by simp)) h
  next =>
    split
    next =>
      refine .arr fun v hv => ?_
      simp only [List.mem_append, List.mem_replicate, List.mem_singleton, reduceCtorEq, and_false,
        false_or, Option.some.injEq] at hv
      exact hv ▸ h
    next =>
      split
      next => exact .obj (List.nodup_singleton _) (by simpa using h)
      next => exact .obj List.nodup_nil (by simp)

theorem parsedParameter_distinct {key : Text} {value parsed : Q} (h : value.Distinct)
    (hparsed : parsedParameter o key value = .ok (some parsed)) : parsed.Distinct := by
  rw [parsedParameter] at hparsed
  split at hparsed
  next => cases hparsed
  next =>
    cases hsplit : splitKey key o with
    | error e => rw [hsplit] at hparsed; cases hparsed
    | ok chain =>
      rw [hsplit] at hparsed
      cases chain with
      | none => cases hparsed
      | some chain =>
        cases hparsed
        clear hsplit
        induction chain with
        | nil => exact h
        | cons root chain ih => exact wrap_distinct ih

/-- A run that marks comes to a form with the marked key. -/
theorem exists_hasKey_of_marksNone {obj : Q} {entries : Entries}
    (hentries : ∀ e ∈ entries, e.2.Distinct) (hmarks : marksNone o kind obj entries = false) :
    ∃ k res, (entries.take k).foldlM (addParsed o) obj = .ok res ∧ res.HasKey kind := by
  induction entries generalizing obj with
  | nil => cases hmarks
  | cons entry rest ih =>
    rw [List.forall_mem_cons] at hentries
    rw [marksNone] at hmarks
    have hnext : ∀ next, addParsed o obj entry = .ok next → marksNone o kind next rest = false →
        ∃ k res, ((entry :: rest).take k).foldlM (addParsed o) obj = .ok res ∧ res.HasKey kind := by
      intro next hstep hrest
      obtain ⟨k, res, hfold, hres⟩ := ih hentries.2 hrest
      refine ⟨k + 1, res, ?_, hres⟩
      rw [List.take_succ_cons, List.foldlM_cons, hstep]
      exact hfold
    cases hparsed : parsedParameter o entry.1 entry.2 with
    | error e => rw [hparsed] at hmarks; cases hmarks
    | ok parsed =>
      have hstep : addParsed o obj entry = .ok (parsed.elim obj fun p => merge o p obj) := by
        rw [addParsed, hparsed]
        rfl
      rw [hparsed] at hmarks
      cases parsed with
      | none => exact hnext obj hstep hmarks
      | some parsed =>
        dsimp only at hmarks
        rw [Bool.and_eq_false_iff, Bool.not_eq_false'] at hmarks
        rcases hmarks with hmark | hrest
        · refine ⟨1, merge o parsed obj, ?_,
            mem_keys_of_marks (parsedParameter_distinct hentries.1 hparsed) hmark⟩
          rw [List.take_succ_cons, List.take_zero, List.foldlM_cons, hstep]
          rfl
        · exact hnext _ hstep hrest

/-- **No name of a prototype becomes a key**, where prototypes are not allowed, as long as
keys are read: at depth 0 the brackets around one are taken off after it was looked at.
Where they are allowed `__proto__` is kept out as long as no value of that text meets a
plain object; one that does becomes a key of the form as it is then. -/
theorem parsed_keys_plain (text : Text) (o : Options) :
    (o.allowPrototypes = false →
      ((∀ entries, parse text o = .ok entries →
          ∀ key ∈ entriesKeys entries, onPrototype key = false)
        ↔ (o.depth = 0 → ∀ e ∈ parameters text o, ∀ name, e.1 = '[' :: (name ++ [']']) →
            onPrototype name = true → name = "__proto__".toList)))
    ∧ (o.allowPrototypes = true →
      marksNone o (· = "__proto__".toList) (.obj [] none) (parameters text o) = true →
      ∀ entries, parse text o = .ok entries → "__proto__".toList ∉ entriesKeys entries)
    ∧ (o.allowPrototypes = true →
      marksNone o (· = "__proto__".toList) (.obj [] none) (parameters text o) = false →
      ∃ k obj, ((parameters text o).take k).foldlM (addParsed o) (.obj [] none) = .ok obj
        ∧ "__proto__".toList ∈ obj.keys) := by
  refine ⟨fun hallow => ⟨fun h hdepth e he name hkey hname => ?_, fun h entries hparse => ?_⟩,
    fun hallow hmarks entries hparse hmem => ?_, fun _ hmarks => ?_⟩
  · by_contra hproto
    by_cases htext : text = []
    · rw [htext] at he
      rw [parameters_nil e he] at hkey
      cases hkey
    · obtain ⟨entries, hparse, hnames⟩ := parse_flat hdepth htext
      have hmem := hnames e he name hkey hname hproto
      rw [h entries hparse name hmem] at hname
      cases hname
  · refine (within_iff.1 (parse_within (p := fun key => onPrototype key = false)
      (fun _ => false) onPrototype_indexText (fun s hs _ => ?_)
      (fun e he chain hchain => ?_) (marksNone_eq_true fun _ h => nomatch h) hparse)).2
    · rw [hallow, Bool.false_or, Bool.not_eq_true'] at hs
      exact hs
    · refine splitKey_clean hallow (fun hdepth hproto hclean => ?_) hchain
      by_contra hname
      rw [Bool.not_eq_false] at hname
      rcases clean_eq e.1 with heq | hgroup
      · rw [heq, hproto] at hname
        cases hname
      · exact hclean (h hdepth e he _ hgroup hname)
  · refine (within_iff.1 (parse_within (p := fun key => key ≠ "__proto__".toList)
      (fun key => key = "__proto__".toList) (fun n hn => ?_) (fun s _ hs => ?_)
      (fun _ _ _ _ _ _ h => h) hmarks hparse)).2 _ hmem rfl
    · have hindex := onPrototype_indexText n
      rw [hn] at hindex
      exact absurd hindex (by decide)
    · exact of_decide_eq_false hs
  · have hdistinct : ∀ e ∈ parameters text o, e.2.Distinct := fun e he =>
      parseValues_distinct e (mem_inKeyOrder.1 he)
    obtain ⟨k, obj, hfold, key, hkey, hkind⟩ := exists_hasKey_of_marksNone hdistinct hmarks
    exact ⟨k, obj, hfold, of_decide_eq_true hkind ▸ hkey⟩


/-- A text that meets an object, and a name whose brackets are taken off at depth 0. -/
theorem proto_text_and_bracketed_name :
    (∃ entries, parse "a[b]=1&a=__proto__".toList (bodyOptions 2) = .ok entries
      ∧ "__proto__".toList ∈ entriesKeys entries)
    ∧ ∃ entries, parse "[constructor]=1".toList { depth := 0 } = .ok entries
      ∧ "constructor".toList ∈ entriesKeys entries := by
  refine ⟨⟨[("a".toList, .obj [("b".toList, .str ['1']), ("__proto__".toList, .yes)] none)],
    ?_, ?_⟩, [("constructor".toList, .str ['1'])], ?_, ?_⟩ <;> decide +kernel

end Qs

end Foreseerr

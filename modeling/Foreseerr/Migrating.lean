import Foreseerr.Json
import Foreseerr.Run
import Mathlib.Data.List.Basic

/-!
# Documents that are migrated

A document is an object of parts, and most parts are objects of entries. An edit names the
entries it may change, and leaves the others, and what of the parts is an object, as they
were (`Changes`).

A chain of steps is run again and again over what it left behind. When each step leaves
behind a state in which it does nothing, and no later step undoes that, then the second
run does nothing at all (`guards_of_foldlM`, `foldlM_idle`).
-/

namespace Json

theorem getField_removeField_self (key : String) (fields : List (String × Json)) :
    getField key (removeField key fields) = none := by
  induction fields with
  | nil => rfl
  | cons field fields ih =>
    rw [removeField, List.filter_cons]
    split
    next hne => rw [getField_cons, if_neg (by simpa using hne), ← ih, removeField]
    next => exact ih

theorem getField_removeField_of_ne {key other : String} (h : other ≠ key)
    (fields : List (String × Json)) :
    getField other (removeField key fields) = getField other fields := by
  induction fields with
  | nil => rfl
  | cons field fields ih =>
    rw [removeField, List.filter_cons]
    split
    next => rw [getField_cons, getField_cons, ← ih, removeField]
    next heq =>
      have hkey : field.1 = key := by simpa using heq
      rw [getField_cons, if_neg (fun hother => h (hother.symm.trans hkey)), ← ih, removeField]

theorem setField_getField {key : String} {value : Json} {fields : List (String × Json)}
    (h : getField key fields = some value) : setField key value fields = fields := by
  induction fields with
  | nil => cases h
  | cons field fields ih =>
    rw [getField_cons] at h
    rw [setField]
    split
    next heq =>
      rw [beq_iff_eq] at heq
      rw [if_pos heq] at h
      rw [← Option.some.inj h, ← heq]
    next hne =>
      rw [if_neg (by simpa using hne)] at h
      rw [ih h]

theorem removeField_eq_self {key : String} {fields : List (String × Json)}
    (h : getField key fields = none) : removeField key fields = fields := by
  induction fields with
  | nil => rfl
  | cons field fields ih =>
    rw [getField_cons] at h
    split at h
    next => cases h
    next hne =>
      rw [removeField, List.filter_cons, if_pos (by simpa using hne)]
      exact congrArg _ (ih h)

end Json

namespace Migrating

open Json

/-! ## Parts and entries -/

/-- A document: its parts by name. -/
abbrev Doc := List (String × Json)

/-- An entry of a part. -/
def entryAt (doc : Doc) (part key : String) : Option Json := (getField part doc).bind (get key)

/-- A part is there and an object. -/
def IsObjectAt (doc : Doc) (part : String) : Prop := (getField part doc).any isObject

/-- A part is there and true. -/
def IsTruthyAt (doc : Doc) (part : String) : Prop := (getField part doc).any truthy

theorem entryAt_of_obj {doc : Doc} {part : String} {fields : List (String × Json)}
    (h : getField part doc = some (.obj fields)) (key : String) :
    entryAt doc part key = getField key fields := by
  rw [entryAt, h]
  rfl

theorem isObjectAt_of_obj {doc : Doc} {part : String} {fields : List (String × Json)}
    (h : getField part doc = some (.obj fields)) : IsObjectAt doc part := by
  rw [IsObjectAt, h]
  rfl

theorem entryAt_eq_none {doc : Doc} {part : String} (h : ¬ IsTruthyAt doc part) (key : String) :
    entryAt doc part key = none := by
  unfold entryAt
  cases hpart : getField part doc with
  | none => rfl
  | some value =>
    cases value with
    | obj fields =>
      refine absurd ?_ h
      rw [IsTruthyAt, hpart]
      rfl
    | null => rfl
    | bool b => rfl
    | num n => rfl
    | str s => rfl
    | arr items => rfl

/-- **What an edit leaves alone**: apart from some free parts all entries but those it names,
and of no part does it take away that it is an object or true. -/
structure Changes (free : List String) (keys : List (String × String)) (doc doc' : Doc) :
    Prop where
  part : ∀ part, part ∉ free → part ∉ keys.map Prod.fst → getField part doc' = getField part doc
  entry : ∀ part key, part ∉ free → (part, key) ∉ keys →
    entryAt doc' part key = entryAt doc part key
  object : ∀ part, part ∉ free → IsObjectAt doc part → IsObjectAt doc' part
  truth : ∀ part, part ∉ free → IsTruthyAt doc part → IsTruthyAt doc' part

variable {free : List String} {keys : List (String × String)} {doc doc' doc'' : Doc}

namespace Changes

theorem refl (free : List String) (keys : List (String × String)) (doc : Doc) :
    Changes free keys doc doc :=
  ⟨fun _ _ _ => rfl, fun _ _ _ _ => rfl, fun _ _ => id, fun _ _ => id⟩

theorem trans (h : Changes free keys doc doc') (h' : Changes free keys doc' doc'') :
    Changes free keys doc doc'' where
  part p hfree hkeys := (h'.part p hfree hkeys).trans (h.part p hfree hkeys)
  entry p key hfree hkeys := (h'.entry p key hfree hkeys).trans (h.entry p key hfree hkeys)
  object p hfree := h'.object p hfree ∘ h.object p hfree
  truth p hfree := h'.truth p hfree ∘ h.truth p hfree

theorem mono {free' : List String} {keys' : List (String × String)}
    (h : Changes free keys doc doc') (hfree : free ⊆ free') (hkeys : keys ⊆ keys') :
    Changes free' keys' doc doc' where
  part p hp hk := h.part p (fun hp' => hp (hfree hp')) fun hk' => hk (List.map_subset _ hkeys hk')
  entry p key hp hk := h.entry p key (fun hp' => hp (hfree hp')) fun hk' => hk (hkeys hk')
  object p hp := h.object p fun hp' => hp (hfree hp')
  truth p hp := h.truth p fun hp' => hp (hfree hp')

/-- A part is written of which only named entries are new. -/
theorem set_part {part : String} {fields : List (String × Json)} (hpart : part ∈ keys.map Prod.fst)
    (h : ∀ key, (part, key) ∉ keys → getField key fields = entryAt doc part key) :
    Changes free keys doc (setField part (.obj fields) doc) where
  part p _ hkeys := getField_setField_of_ne (ne_of_mem_of_not_mem hpart hkeys).symm _ _
  entry p key _ hkeys := by
    by_cases hp : p = part
    · subst hp
      rw [entryAt_of_obj (getField_setField_self p _ _), h key hkeys]
    · rw [entryAt, getField_setField_of_ne hp, entryAt]
  object p _ hobject := by
    by_cases hp : p = part
    · subst hp
      exact isObjectAt_of_obj (getField_setField_self p _ _)
    · rwa [IsObjectAt, getField_setField_of_ne hp]
  truth p _ htrue := by
    by_cases hp : p = part
    · subst hp
      rw [IsTruthyAt, getField_setField_self]
      rfl
    · rwa [IsTruthyAt, getField_setField_of_ne hp]

/-- Only free parts are changed. -/
theorem of_free (h : ∀ part, part ∉ free → getField part doc' = getField part doc) :
    Changes free keys doc doc' where
  part p hfree _ := h p hfree
  entry p key hfree _ := by rw [entryAt, h p hfree, entryAt]
  object p hfree hobject := by rwa [IsObjectAt, h p hfree]
  truth p hfree htrue := by rwa [IsTruthyAt, h p hfree]

theorem set_free {part : String} (hpart : part ∈ free) (value : Json) :
    Changes free keys doc (setField part value doc) :=
  of_free fun _ hfree => getField_setField_of_ne (ne_of_mem_of_not_mem hpart hfree).symm _ _

theorem remove_free {part : String} (hpart : part ∈ free) :
    Changes free keys doc (removeField part doc) :=
  of_free fun _ hfree => getField_removeField_of_ne (ne_of_mem_of_not_mem hpart hfree).symm _

end Changes

/-! ## Chains of steps -/

section Chain

variable {σ ε μ : Type} {step : μ → σ → Except ε σ} {guard : μ → σ → Prop} {steps : List μ}
  {s d : σ}

/-- What holds before a chain and is kept by its steps holds after it. -/
theorem foldlM_keeps {P : σ → Prop} (hstep : ∀ m ∈ steps, ∀ s s', step m s = .ok s' → P s → P s')
    (h : steps.foldlM (fun s m => step m s) s = .ok d) (hs : P s) : P d := by
  induction steps generalizing s with
  | nil => exact Except.ok.inj h ▸ hs
  | cons m steps ih =>
    obtain ⟨s', hs', h⟩ := except_bind_eq_ok h
    exact ih (fun m' hm' => hstep m' (List.mem_cons_of_mem _ hm')) h
      (hstep m List.mem_cons_self s s' hs' hs)

/-- **Every step's guard holds after the chain**, when a step leaves it behind and later steps
keep it. An invariant may be used for it. -/
theorem guards_of_foldlM {P : σ → Prop}
    (hP : ∀ m ∈ steps, ∀ s s', step m s = .ok s' → P s → P s')
    (hdone : ∀ m ∈ steps, ∀ s s', P s → step m s = .ok s' → guard m s')
    (hkeeps : steps.Pairwise fun m m' => ∀ s s', step m' s = .ok s' → guard m s → guard m s')
    (h : steps.foldlM (fun s m => step m s) s = .ok d) (hs : P s) : ∀ m ∈ steps, guard m d := by
  induction steps generalizing s with
  | nil => exact fun _ hm => absurd hm List.not_mem_nil
  | cons m steps ih =>
    rw [List.pairwise_cons] at hkeeps
    obtain ⟨s', hs', h⟩ := except_bind_eq_ok h
    rw [List.forall_mem_cons]
    constructor
    · exact foldlM_keeps hkeeps.1 h (hdone m List.mem_cons_self s s' hs hs')
    · exact ih (fun m' hm' => hP m' (List.mem_cons_of_mem _ hm'))
        (fun m' hm' => hdone m' (List.mem_cons_of_mem _ hm')) hkeeps.2 h
        (hP m List.mem_cons_self s s' hs' hs)

/-- A chain of steps that do nothing. -/
theorem foldlM_idle (h : ∀ m ∈ steps, step m d = .ok d) :
    steps.foldlM (fun s m => step m s) d = .ok d := by
  induction steps with
  | nil => rfl
  | cons m steps ih =>
    rw [List.forall_mem_cons] at h
    rw [List.foldlM_cons, h.1]
    exact ih h.2

end Chain

end Migrating

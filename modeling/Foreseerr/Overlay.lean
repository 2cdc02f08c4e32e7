import Mathlib.Data.List.Nodup

/-!
# Local writes laid over a snapshot

A client that shows its own writes before a server does keeps them as a list
of **pending** writes and lays them over every snapshot the server answers
with: a write the snapshot already reflects is dropped, any other is applied
and stays pending (`Overlay.lay`).

`Overlay` collects what such a client relies on: an applied write is
reflected, and two writes under different keys do not see each other. Under
these laws, and with one pending write for each key, laying them is what it
should be: exactly the unreflected writes stay, and the result reflects
every one of them.
-/

namespace Overlay

variable {S P : Type*}

/-- Lay writes over a snapshot, in order: the snapshot they leave, and the
writes that stay pending. -/
def lay (apply : S → P → S) (reflected : S → P → Bool) : S → List P → S × List P
  | s, [] => (s, [])
  | s, p :: ps =>
    if reflected s p then
      lay apply reflected s ps
    else
      let rest := lay apply reflected (apply s p) ps
      (rest.1, p :: rest.2)

section Lay

variable {apply : S → P → S} {reflected : S → P → Bool} {s : S} {p : P} {ps : List P}

theorem lay_cons_of_reflected (hp : reflected s p = true) :
    lay apply reflected s (p :: ps) = lay apply reflected s ps :=
  if_pos hp

theorem lay_cons_of_not (hp : ¬reflected s p = true) :
    lay apply reflected s (p :: ps)
      = ((lay apply reflected (apply s p) ps).1, p :: (lay apply reflected (apply s p) ps).2) :=
  if_neg hp

end Lay

/-- Writes are laid one list after the other. -/
theorem lay_append (apply : S → P → S) (reflected : S → P → Bool) (s : S) (ps qs : List P) :
    lay apply reflected s (ps ++ qs)
      = ((lay apply reflected (lay apply reflected s ps).1 qs).1,
        (lay apply reflected s ps).2 ++ (lay apply reflected (lay apply reflected s ps).1 qs).2) := by
  induction ps generalizing s with
  | nil => rfl
  | cons p ps ih =>
    rw [List.cons_append]
    by_cases hp : reflected s p = true
    · rw [lay_cons_of_reflected hp, lay_cons_of_reflected hp, ih s]
    · rw [lay_cons_of_not hp, lay_cons_of_not hp, ih (apply s p), List.cons_append]

/-- What stays pending was pending, in the same order. -/
theorem lay_sublist (apply : S → P → S) (reflected : S → P → Bool) (s : S) (ps : List P) :
    (lay apply reflected s ps).2.Sublist ps := by
  induction ps generalizing s with
  | nil => exact List.Sublist.slnil
  | cons p ps ih =>
    by_cases hp : reflected s p = true
    · rw [lay_cons_of_reflected hp]
      exact (ih s).cons p
    · rw [lay_cons_of_not hp]
      exact (ih (apply s p)).cons_cons p

/-- Laying writes is laying what is read of them, where both the writes and the looks at
them are what is read. -/
theorem lay_map {S' P' : Type*} {apply : S → P → S} {reflected : S → P → Bool}
    {apply' : S' → P' → S'} {reflected' : S' → P' → Bool} {f : S → S'} {g : P → P'} {ps : List P}
    (happly : ∀ p ∈ ps, ∀ s, f (apply s p) = apply' (f s) (g p))
    (hreflected : ∀ s p, reflected' (f s) (g p) = reflected s p) (s : S) :
    lay apply' reflected' (f s) (ps.map g)
      = Prod.map f (List.map g) (lay apply reflected s ps) := by
  induction ps generalizing s with
  | nil => rfl
  | cons p ps ih =>
    obtain ⟨hp, hps⟩ := List.forall_mem_cons.mp happly
    rw [List.map_cons]
    by_cases h : reflected s p = true
    · rw [lay_cons_of_reflected h, lay_cons_of_reflected ((hreflected s p).trans h), ih hps]
    · rw [lay_cons_of_not h, lay_cons_of_not (by rwa [hreflected]), ← hp, ih hps]
      rfl

/-- What no write in the list changes is the same after laying them. -/
theorem observe_lay {ω : Type*} (observe : S → ω) {apply : S → P → S}
    {reflected : S → P → Bool} {ps : List P}
    (h : ∀ p ∈ ps, ∀ s, observe (apply s p) = observe s) (s : S) :
    observe (lay apply reflected s ps).1 = observe s := by
  induction ps generalizing s with
  | nil => rfl
  | cons p ps ih =>
    obtain ⟨hobs, hps⟩ := List.forall_mem_cons.mp h
    by_cases hp : reflected s p = true
    · rw [lay_cons_of_reflected hp, ih hps]
    · rw [lay_cons_of_not hp]
      exact (ih hps (apply s p)).trans (hobs s)

end Overlay

/-- **Writes over snapshots**, each under a key, with the laws laying them
relies on. The laws are asked of the `good` snapshots only, which `apply`
keeps. -/
structure Overlay (S P κ : Type*) where
  /-- What a write is about. -/
  key : P → κ
  /-- The snapshot after a write. -/
  apply : S → P → S
  /-- Whether a snapshot shows a write. -/
  reflected : S → P → Bool
  /-- The snapshots the laws hold of. -/
  good : S → Prop
  good_apply : ∀ {s} p, good s → good (apply s p)
  reflected_apply : ∀ {s} p, good s → reflected (apply s p) p = true
  reflected_apply_ne : ∀ {s p q}, good s → key q ≠ key p →
    reflected (apply s p) q = reflected s q

namespace Overlay

variable {S P κ : Type*} (o : Overlay S P κ) {s : S} {ps : List P}

/-- Writes under other keys do not see the ones laid. -/
theorem reflected_lay_ne (hs : o.good s) {q : P} (hq : ∀ p ∈ ps, o.key q ≠ o.key p) :
    o.reflected (lay o.apply o.reflected s ps).1 q = o.reflected s q := by
  induction ps generalizing s with
  | nil => rfl
  | cons p ps ih =>
    have hps : ∀ p ∈ ps, o.key q ≠ o.key p := fun p hp => hq p (List.mem_cons_of_mem _ hp)
    by_cases hp : o.reflected s p = true
    · rw [lay_cons_of_reflected hp, ih hs hps]
    · rw [lay_cons_of_not hp]
      show o.reflected (lay o.apply o.reflected (o.apply s p) ps).1 q = o.reflected s q
      rw [ih (o.good_apply p hs) hps, o.reflected_apply_ne hs (hq p List.mem_cons_self)]

/-- Laying writes keeps a snapshot good. -/
theorem good_lay (hs : o.good s) : o.good (lay o.apply o.reflected s ps).1 := by
  induction ps generalizing s with
  | nil => exact hs
  | cons p ps ih =>
    by_cases hp : o.reflected s p = true
    · rw [lay_cons_of_reflected hp]
      exact ih hs
    · rw [lay_cons_of_not hp]
      exact ih (o.good_apply p hs)

/-- **What stays pending** is what the snapshot did not reflect. -/
theorem lay_snd (hs : o.good s) (hps : (ps.map o.key).Nodup) :
    (lay o.apply o.reflected s ps).2 = ps.filter fun p => !o.reflected s p := by
  induction ps generalizing s with
  | nil => rfl
  | cons p ps ih =>
    rw [List.map_cons, List.nodup_cons] at hps
    by_cases hp : o.reflected s p = true
    · rw [lay_cons_of_reflected hp, ih hs hps.2, List.filter_cons_of_neg]
      simp [hp]
    · have hrest : (lay o.apply o.reflected (o.apply s p) ps).2
          = ps.filter fun q => !o.reflected s q := by
        rw [ih (o.good_apply p hs) hps.2]
        refine List.filter_congr fun q hq => ?_
        have hne : o.key q ≠ o.key p := fun h => hps.1 (h ▸ List.mem_map_of_mem hq)
        rw [o.reflected_apply_ne hs hne]
      rw [lay_cons_of_not hp, List.filter_cons_of_pos (by simp [hp])]
      show p :: (lay o.apply o.reflected (o.apply s p) ps).2 = _
      rw [hrest]

/-- **What is laid shows**: the snapshot reflects every write, the dropped
ones included. -/
theorem reflected_lay (hs : o.good s) (hps : (ps.map o.key).Nodup) {p : P} (hp : p ∈ ps) :
    o.reflected (lay o.apply o.reflected s ps).1 p = true := by
  induction ps generalizing s with
  | nil => cases hp
  | cons q ps ih =>
    rw [List.map_cons, List.nodup_cons] at hps
    have hne : ∀ r ∈ ps, o.key q ≠ o.key r :=
      fun r hr h => hps.1 (h ▸ List.mem_map_of_mem hr)
    rcases List.mem_cons.mp hp with rfl | hp
    · by_cases hseen : o.reflected s p = true
      · rw [lay_cons_of_reflected hseen, o.reflected_lay_ne hs hne, hseen]
      · rw [lay_cons_of_not hseen]
        show o.reflected (lay o.apply o.reflected (o.apply s p) ps).1 p = true
        rw [o.reflected_lay_ne (o.good_apply p hs) hne, o.reflected_apply p hs]
    · by_cases hseen : o.reflected s q = true
      · rw [lay_cons_of_reflected hseen]
        exact ih hs hps.2 hp
      · rw [lay_cons_of_not hseen]
        exact ih (o.good_apply q hs) hps.2 hp

end Overlay

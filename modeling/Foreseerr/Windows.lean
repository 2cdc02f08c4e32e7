import Mathlib

/-!
# Windows that move on

What is polled for is looked for in one window of time after another. Windows that
only move on, each beginning and ending no earlier than the one before, leave nothing
out between the first one's beginning and the last one's end exactly when each begins
no later than right after the one before it ends (`covered_iff_isChain`).
-/

/-- A window over whole numbers, both ends included. -/
structure Window where
  first : ℤ
  last : ℤ

namespace Window

/-- What is in the window. -/
def span (w : Window) : Set ℤ := Set.Icc w.first w.last

/-- A window that begins and ends no earlier than another. -/
def MovesOn (v w : Window) : Prop := v.first ≤ w.first ∧ v.last ≤ w.last

/-- A window that begins no later than right after another ends. -/
def Joins (v w : Window) : Prop := w.first ≤ v.last + 1

/-- Some window has it. -/
def Covered (ws : List Window) (x : ℤ) : Prop := ∃ w ∈ ws, x ∈ w.span

variable {v w : Window} {ws : List Window} {x : ℤ}

theorem covered_cons : Covered (w :: ws) x ↔ x ∈ w.span ∨ Covered ws x := by
  simp [Covered]

/-- The last of windows that move on ends last. -/
theorem last_le_getLast (hmoves : (w :: ws).Pairwise MovesOn) :
    w.last ≤ ((w :: ws).getLast (List.cons_ne_nil w ws)).last := by
  rcases List.eq_or_mem_of_mem_cons (List.getLast_mem (List.cons_ne_nil w ws)) with heq | hmem
  · rw [heq]
  · exact ((List.pairwise_cons.mp hmoves).1 _ hmem).2

/-- **Nothing is left out** exactly when every window joins the one before. -/
theorem covered_iff_isChain (hmoves : (w :: ws).Pairwise MovesOn)
    (hspan : ∀ v ∈ w :: ws, v.first ≤ v.last) :
    (∀ x, w.first ≤ x → x ≤ ((w :: ws).getLast (List.cons_ne_nil w ws)).last → Covered (w :: ws) x)
      ↔ (w :: ws).IsChain Joins := by
  induction ws generalizing w with
  | nil =>
    have hcovered : ∀ x, w.first ≤ x → x ≤ w.last → Covered [w] x := fun x hfirst hlast =>
      ⟨w, List.mem_cons_self, hfirst, hlast⟩
    exact ⟨fun _ => .singleton w, fun _ => hcovered⟩
  | cons v ws ih =>
    have hrest := (List.pairwise_cons.mp hmoves).2
    have hvw : MovesOn w v := (List.pairwise_cons.mp hmoves).1 v List.mem_cons_self
    have hlater : ∀ u ∈ v :: ws, v.first ≤ u.first := by
      rintro u hu
      rcases List.mem_cons.mp hu with rfl | hu
      · rfl
      · exact ((List.pairwise_cons.mp hrest).1 u hu).1
    have hv : v.first ≤ v.last := hspan v (by simp)
    have ih := ih hrest fun u hu => hspan u (List.mem_cons_of_mem _ hu)
    have hend := last_le_getLast hrest
    rw [List.getLast_cons (List.cons_ne_nil v ws), List.isChain_cons_cons, ← ih]
    constructor
    · intro hcovered
      refine ⟨?_, fun x hfirst hlast => ?_⟩
      · -- Otherwise what comes right after the first window is in none.
        by_contra hgap
        have hgap : w.last + 1 < v.first := not_le.mp hgap
        have hw : w.first ≤ w.last := hspan w List.mem_cons_self
        rcases covered_cons.mp (hcovered (w.last + 1) (by omega) (by omega)) with hin | hin
        · exact absurd hin.2 (by omega)
        · obtain ⟨u, hu, hbegins, -⟩ := hin
          exact absurd ((hlater u hu).trans hbegins) (by omega)
      · rcases covered_cons.mp (hcovered x (hvw.1.trans hfirst) hlast) with hin | hin
        · exact ⟨v, List.mem_cons_self, hfirst, hin.2.trans hvw.2⟩
        · exact hin
    · rintro ⟨hjoins, hcovered⟩ x hfirst hlast
      by_cases hin : x ≤ w.last
      · exact covered_cons.mpr (.inl ⟨hfirst, hin⟩)
      · have hbegins : v.first ≤ w.last + 1 := hjoins
        exact covered_cons.mpr (.inr (hcovered x (by omega) hlast))

end Window

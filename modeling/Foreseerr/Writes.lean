import Mathlib.Data.List.Basic

/-!
# Programs of writes

A program that runs one write after another, reading in between, ends in a state;
it may also be cut off before each of its writes, in the state that write would
have found. `Writes σ ℓ` keeps both, each cut under the label of its write.
-/

/-- **A program of writes** over states `σ`: where it ends, and the states its writes
find, each with a label. -/
structure Writes (σ ℓ : Type*) where
  final : σ → σ
  cuts : σ → List (ℓ × σ)

namespace Writes

variable {σ ℓ α : Type*}

/-- No write. -/
def skip : Writes σ ℓ := ⟨id, fun _ => []⟩

/-- One write. -/
def write (label : ℓ) (f : σ → σ) : Writes σ ℓ := ⟨f, fun s => [(label, s)]⟩

/-- One program after another. -/
def andThen (p q : Writes σ ℓ) : Writes σ ℓ :=
  ⟨q.final ∘ p.final, fun s => p.cuts s ++ q.cuts (p.final s)⟩

/-- What is written depends on what was read. -/
def reading (p : σ → Writes σ ℓ) : Writes σ ℓ :=
  ⟨fun s => (p s).final s, fun s => (p s).cuts s⟩

/-- A program for each element of a list, in order. -/
def each (p : α → Writes σ ℓ) : List α → Writes σ ℓ
  | [] => skip
  | a :: l => (p a).andThen (each p l)

section Laws

variable {p q : Writes σ ℓ} {f : α → Writes σ ℓ} {s : σ} {c : ℓ × σ} {a : α} {l l' : List α}

@[simp] theorem final_skip : (skip : Writes σ ℓ).final s = s := rfl

@[simp] theorem cuts_skip : (skip : Writes σ ℓ).cuts s = [] := rfl

@[simp] theorem final_write {label : ℓ} {g : σ → σ} : (write label g).final s = g s := rfl

@[simp] theorem cuts_write {label : ℓ} {g : σ → σ} : (write label g).cuts s = [(label, s)] := rfl

@[simp] theorem final_andThen : (p.andThen q).final s = q.final (p.final s) := rfl

@[simp] theorem cuts_andThen : (p.andThen q).cuts s = p.cuts s ++ q.cuts (p.final s) := rfl

@[simp] theorem final_reading {g : σ → Writes σ ℓ} : (reading g).final s = (g s).final s := rfl

@[simp] theorem cuts_reading {g : σ → Writes σ ℓ} : (reading g).cuts s = (g s).cuts s := rfl

@[simp] theorem each_nil : each f [] = skip := rfl

theorem final_each : (each f l).final s = l.foldl (fun s a => (f a).final s) s := by
  induction l generalizing s with
  | nil => rfl
  | cons a l ih => exact ih

end Laws

end Writes

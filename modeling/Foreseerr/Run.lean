import Mathlib.Data.List.Induction
import Mathlib.Data.Nat.Init

/-!
# Runs of a labelled step relation

A component that takes one request after another is a relation
`step s i t`: from the state `s`, the input `i` may lead to `t`. A **run**
is a finite list of inputs with the states they lead through, and what is
proved about a component is proved about its runs: an invariant that every
step keeps holds at the end of every run (`Run.invariant`).

Many properties hold only of the runs whose steps stay away from one
branch. `Guarded step ok` is the relation with the other steps left out,
so that "every run whose steps all meet the condition" is a run of
`Guarded step ok`, and the run lemmas apply to it as they stand.
-/

variable {σ ι : Type*}

/-- **A finite run** from the first state to the last, over the inputs
listed in order. -/
inductive Run (step : σ → ι → σ → Prop) : σ → List ι → σ → Prop
  | nil (s : σ) : Run step s [] s
  | cons {s t u : σ} {i : ι} {is : List ι} :
      step s i t → Run step t is u → Run step s (i :: is) u

/-- The steps of `step` taken where `ok` allows them. -/
def Guarded (step : σ → ι → σ → Prop) (ok : σ → ι → Prop) : σ → ι → σ → Prop :=
  fun s i t => ok s i ∧ step s i t

namespace Run

variable {step step' : σ → ι → σ → Prop} {s t u : σ} {i : ι} {is js : List ι}

/-- A single step is a run. -/
theorem single (h : step s i t) : Run step s [i] t := cons h (nil t)

/-- Runs compose. -/
theorem append (h₁ : Run step s is t) (h₂ : Run step t js u) :
    Run step s (is ++ js) u := by
  induction h₁ with
  | nil => exact h₂
  | cons hstep _ ih => exact cons hstep (ih h₂)

/-- A run of a relation is a run of any weaker one. -/
theorem mono (hle : ∀ s i t, step s i t → step' s i t) (h : Run step s is t) :
    Run step' s is t := by
  induction h with
  | nil s => exact nil s
  | cons hstep _ ih => exact cons (hle _ _ _ hstep) ih

/-- Relations of the same steps have the same runs. -/
theorem congr (heq : ∀ s i t, step s i t ↔ step' s i t) :
    Run step s is t ↔ Run step' s is t :=
  ⟨mono fun s i t => (heq s i t).mp, mono fun s i t => (heq s i t).mpr⟩

/-- **The invariant rule**: what holds at the start and is kept by every
step holds at the end of every run. -/
theorem invariant {Inv : σ → Prop} (h : Run step s is t)
    (hstep : ∀ s i t, Inv s → step s i t → Inv t) (hs : Inv s) : Inv t := by
  induction h with
  | nil => exact hs
  | cons h₁ _ ih => exact ih (hstep _ _ _ hs h₁)

/-- The invariant rule for the inputs of one run: the step lemma may use
that its input is one of the run's. -/
theorem invariant_of_mem {Inv : σ → Prop} (h : Run step s is t)
    (hstep : ∀ s i t, i ∈ is → Inv s → step s i t → Inv t) (hs : Inv s) :
    Inv t := by
  induction h with
  | nil => exact hs
  | cons h₁ _ ih =>
    refine ih (fun s j t hj => hstep s j t (List.mem_cons_of_mem _ hj)) ?_
    exact hstep _ _ _ List.mem_cons_self hs h₁

/-- The run of a machine whose step is a function. -/
theorem of_foldlM {next : σ → ι → Option σ} (h : is.foldlM next s = some t) :
    Run (fun s i t => next s i = some t) s is t := by
  induction is generalizing s with
  | nil => exact Option.some.inj h ▸ nil s
  | cons i is ih =>
    rw [List.foldlM_cons] at h
    obtain ⟨u, hu, hrest⟩ := Option.bind_eq_some_iff.mp h
    exact cons hu (ih hrest)

/-- The run of a machine that checks the guard before each of its steps. -/
theorem of_foldlM_guard {next : σ → ι → Option σ} {ok : σ → ι → Prop}
    [∀ s i, Decidable (ok s i)]
    (h : is.foldlM (fun s i => if ok s i then next s i else none) s = some t) :
    Run (Guarded (fun s i t => next s i = some t) ok) s is t := by
  refine (of_foldlM h).mono fun s i t hstep => ?_
  rw [Option.ite_none_right_eq_some] at hstep
  exact hstep

/-- A run of inputs that the guard always allows. -/
theorem guard {ok : σ → ι → Prop} (h : Run step s is t) (hok : ∀ i ∈ is, ∀ s, ok s i) :
    Run (Guarded step ok) s is t := by
  induction h with
  | nil s => exact nil s
  | cons hstep _ ih =>
    refine cons ⟨hok _ List.mem_cons_self _, hstep⟩ (ih fun i hi => ?_)
    exact hok i (List.mem_cons_of_mem _ hi)

/-- Leaving the guard out of a run. -/
theorem of_guarded {ok : σ → ι → Prop} (h : Run (Guarded step ok) s is t) :
    Run step s is t :=
  h.mono (fun _ _ _ h₁ => h₁.2)

end Run

/-! ## Endless runs

A run that never ends is a sequence of states with the inputs between them.
What holds in every state of it is an invariant; what happens in the end is
shown by a rank that never grows and, while the event is out, always drops
again. -/

/-- **An endless run** of a step relation. -/
structure Endless (step : σ → ι → σ → Prop) where
  state : ℕ → σ
  input : ℕ → ι
  step_holds : ∀ n, step (state n) (input n) (state (n + 1))

namespace Endless

variable {step : σ → ι → σ → Prop}

/-- What holds at the start and is kept by every step holds in every state. -/
theorem invariant (r : Endless step) {Inv : σ → Prop}
    (hstep : ∀ s i t, Inv s → step s i t → Inv t) (hs : Inv (r.state 0)) :
    ∀ n, Inv (r.state n) := by
  intro n
  induction n with
  | zero => exact hs
  | succ n ih => exact hstep _ _ _ ih (r.step_holds n)

end Endless

/-- What every step keeps unless the event happens is kept until it does. -/
theorem kept_until {P event : ℕ → Prop} {n : ℕ} (hstep : ∀ k ≥ n, P k → event k ∨ P (k + 1))
    (hn : P n) : ∀ m ≥ n, (∀ k, n ≤ k → k < m → ¬ event k) → P m := by
  intro m hm
  induction m, hm using Nat.le_induction with
  | base => exact fun _ => hn
  | succ m hm ih =>
    intro hout
    have hP : P m := ih fun k hk hlt => hout k hk (Nat.lt_succ_of_lt hlt)
    exact (hstep m hm hP).resolve_left (hout m hm (Nat.lt_succ_self m))

/-- A rank that never grows does not drop again and again. -/
theorem not_forall_drop (rank : ℕ → ℕ) (n : ℕ) (hle : ∀ k ≥ n, rank (k + 1) ≤ rank k)
    (hdrop : ∀ k ≥ n, ∃ m ≥ k, rank (m + 1) < rank m) : False := by
  have hanti : ∀ k ≥ n, ∀ m ≥ k, rank m ≤ rank k := by
    intro k hk m hm
    induction m, hm using Nat.le_induction with
    | base => exact Nat.le_refl _
    | succ m hm ih => exact Nat.le_trans (hle m (Nat.le_trans hk hm)) ih
  have hbelow : ∀ b, ∀ k ≥ n, rank k ≠ b := by
    intro b
    induction b using Nat.strong_induction_on with
    | _ b ih =>
      rintro k hk rfl
      obtain ⟨m, hm, hlt⟩ := hdrop k hk
      exact ih _ (Nat.lt_of_lt_of_le hlt (hanti k hk m hm)) (m + 1) (by omega) rfl
  exact hbelow (rank n) n (Nat.le_refl n) rfl

/-- **The rank rule**: what is kept until an event, under a rank that never
grows meanwhile and drops again while the event is out, leads to the event. -/
theorem leadsTo_of_rank {P event : ℕ → Prop} {n : ℕ} (rank : ℕ → ℕ)
    (hstep : ∀ k ≥ n, P k → event k ∨ (P (k + 1) ∧ rank (k + 1) ≤ rank k))
    (hdrop : ∀ k ≥ n, (∀ m ≥ k, P m) → ∃ m ≥ k, event m ∨ rank (m + 1) < rank m) (hn : P n) :
    ∃ m ≥ n, event m := by
  by_contra hnone
  have hout : ∀ m ≥ n, ¬ event m := fun m hm h => hnone ⟨m, hm, h⟩
  have hP : ∀ m ≥ n, P m := fun m hm =>
    kept_until (fun k hk h => (hstep k hk h).imp_right And.left) hn m hm fun k hk _ => hout k hk
  refine not_forall_drop rank n ?_ ?_
  · intro k hk
    exact ((hstep k hk (hP k hk)).resolve_left (hout k hk)).2
  · intro k hk
    obtain ⟨m, hm, h⟩ := hdrop k hk fun m hm => hP m (Nat.le_trans hk hm)
    exact ⟨m, hm, h.resolve_left (hout m (Nat.le_trans hk hm))⟩

/-! ## Chains that may fail -/

section Chain

universe u v

variable {ε : Type u} {α β : Type v}

/-- What a chain of checks that passes has passed. -/
theorem except_bind_eq_ok {x : Except ε α} {f : α → Except ε β} {b : β}
    (h : (x >>= f) = .ok b) : ∃ a, x = .ok a ∧ f a = .ok b := by
  cases x with
  | error e => cases h
  | ok a => exact ⟨a, rfl, h⟩

theorem except_map_eq_ok {x : Except ε α} {f : α → β} {b : β}
    (h : x.map f = .ok b) : ∃ a, x = .ok a ∧ f a = b := by
  cases x with
  | error e => cases h
  | ok a => exact ⟨a, rfl, Except.ok.inj h⟩

/-- What every step of a loop does to an observation, the loop that goes through does. -/
theorem foldlM_observe_eq {σ : Type v} {ω : Type*} {step : σ → α → Except ε σ} (observe : σ → ω)
    (effect : ω → α → ω)
    (hstep : ∀ s a t, step s a = .ok t → observe t = effect (observe s) a) {s t : σ}
    {l : List α} (h : l.foldlM step s = .ok t) : observe t = l.foldl effect (observe s) := by
  induction l generalizing s with
  | nil => exact congrArg observe (Except.ok.inj h).symm
  | cons a l ih =>
    rw [List.foldlM_cons] at h
    obtain ⟨u, hu, hrest⟩ := except_bind_eq_ok h
    rw [List.foldl_cons, ← hstep s a u hu]
    exact ih hrest

theorem except_map_eq_error {x : Except ε α} {f : α → β} {e : ε}
    (h : x.map f = .error e) : x = .error e := by
  cases x with
  | error e' => exact congrArg Except.error (Except.error.inj h)
  | ok a => cases h

theorem except_bind_eq_error {x : Except ε α} {f : α → Except ε β} {e : ε}
    (h : (x >>= f) = .error e) : x = .error e ∨ ∃ a, x = .ok a ∧ f a = .error e := by
  cases x with
  | error e' => exact .inl (congrArg Except.error (Except.error.inj h))
  | ok a => exact .inr ⟨a, rfl, h⟩

/-- A chain over a list answers what its elements are answered, and nothing else. -/
theorem mapM_eq_ok {f : α → Except ε β} {l : List α} {bs : List β} (h : l.mapM f = .ok bs) :
    (∀ b ∈ bs, ∃ a ∈ l, f a = .ok b) ∧ ∀ a ∈ l, ∃ b ∈ bs, f a = .ok b := by
  induction l generalizing bs with
  | nil =>
    cases h
    simp
  | cons a l ih =>
    rw [List.mapM_cons] at h
    obtain ⟨b, hb, h⟩ := except_bind_eq_ok h
    obtain ⟨rest, hrest, h⟩ := except_bind_eq_ok h
    obtain rfl : b :: rest = bs := Except.ok.inj h
    obtain ⟨hof, hmem⟩ := ih hrest
    constructor
    · intro b' hb'
      rcases List.mem_cons.1 hb' with rfl | hb'
      · exact ⟨a, List.mem_cons_self, hb⟩
      · obtain ⟨a', ha', heq⟩ := hof b' hb'
        exact ⟨a', List.mem_cons_of_mem _ ha', heq⟩
    · intro a' ha'
      rcases List.mem_cons.1 ha' with rfl | ha'
      · exact ⟨b, List.mem_cons_self, hb⟩
      · obtain ⟨b', hb', heq⟩ := hmem a' ha'
        exact ⟨b', List.mem_cons_of_mem _ hb', heq⟩

/-- A chain over a list keeps what each of its steps does. -/
theorem mapM_map_eq {γ : Type*} {f : α → Except ε α} {observe : α → γ} {l bs : List α}
    (hf : ∀ a ∈ l, ∀ b, f a = .ok b → observe b = observe a) (h : l.mapM f = .ok bs) :
    bs.map observe = l.map observe := by
  induction l generalizing bs with
  | nil =>
    cases h
    rfl
  | cons a l ih =>
    rw [List.mapM_cons] at h
    obtain ⟨b, hb, h⟩ := except_bind_eq_ok h
    obtain ⟨rest, hrest, h⟩ := except_bind_eq_ok h
    obtain rfl : b :: rest = bs := Except.ok.inj h
    rw [List.map_cons, List.map_cons, hf a List.mem_cons_self b hb,
      ih (fun a' ha' => hf a' (List.mem_cons_of_mem _ ha')) hrest]

/-- A chain over a list fails as one of its elements does. -/
theorem mapM_eq_error {f : α → Except ε β} {l : List α} {e : ε} (h : l.mapM f = .error e) :
    ∃ a ∈ l, f a = .error e := by
  induction l with
  | nil => cases h
  | cons a l ih =>
    rw [List.mapM_cons] at h
    rcases except_bind_eq_error h with ha | ⟨b, -, h⟩
    · exact ⟨a, List.mem_cons_self, ha⟩
    · rcases except_bind_eq_error h with hrest | ⟨rest, -, h⟩
      · obtain ⟨a', ha', herror⟩ := ih hrest
        exact ⟨a', List.mem_cons_of_mem _ ha', herror⟩
      · cases h

/-- A loop of checks that goes through has passed each of them. -/
theorem forM_eq_ok {check : β → Except ε PUnit} {l : List β} (h : l.forM check = .ok ⟨⟩) :
    ∀ a ∈ l, check a = .ok ⟨⟩ := by
  induction l with
  | nil => exact fun _ ha => absurd ha List.not_mem_nil
  | cons a l ih =>
    obtain ⟨⟨⟩, hhead, htail⟩ := except_bind_eq_ok h
    intro b hb
    rcases List.mem_cons.1 hb with rfl | hb
    · exact hhead
    · exact ih htail b hb

/-- A chain fails where its first part does, or the rest after what that gave. -/
theorem except_bind_eq_error_iff {x : Except ε α} {f : α → Except ε β} {e : ε} :
    (x >>= f) = .error e ↔ x = .error e ∨ ∃ a, x = .ok a ∧ f a = .error e := by
  refine ⟨except_bind_eq_error, ?_⟩
  rintro (rfl | ⟨a, rfl, ha⟩)
  · rfl
  · exact ha

/-- A loop fails at one of its steps, after those before it went through. -/
theorem foldlM_eq_error_iff {σ : Type v} {step : σ → α → Except ε σ} {l : List α} {s : σ} {e : ε} :
    l.foldlM step s = .error e ↔ ∃ before a after t, l = before ++ a :: after
      ∧ before.foldlM step s = .ok t ∧ step t a = .error e := by
  induction l generalizing s with
  | nil =>
    constructor
    · exact fun h => nomatch h
    · rintro ⟨before, a, after, t, h, -⟩
      exact absurd h (by simp)
  | cons a l ih =>
    rw [List.foldlM_cons, except_bind_eq_error_iff]
    constructor
    · rintro (ha | ⟨u, hu, hrest⟩)
      · exact ⟨[], a, l, s, rfl, rfl, ha⟩
      · obtain ⟨before, b, after, t, rfl, ht, hb⟩ := ih.1 hrest
        refine ⟨a :: before, b, after, t, rfl, ?_, hb⟩
        rw [List.foldlM_cons, hu]
        exact ht
    · rintro ⟨before, b, after, t, h, ht, hb⟩
      cases before with
      | nil =>
        obtain ⟨rfl, -⟩ := List.cons.inj h
        obtain rfl : s = t := Except.ok.inj ht
        exact .inl hb
      | cons c before =>
        obtain ⟨rfl, rfl⟩ := List.cons.inj h
        rw [List.foldlM_cons] at ht
        obtain ⟨u, hu, ht⟩ := except_bind_eq_ok ht
        exact .inr ⟨u, hu, ih.2 ⟨before, b, after, t, rfl, ht, hb⟩⟩

/-- A loop fails as one of its steps does. -/
theorem foldlM_eq_error {σ : Type v} {step : σ → α → Except ε σ} {l : List α} {s : σ} {e : ε}
    (h : l.foldlM step s = .error e) : ∃ s', ∃ a ∈ l, step s' a = .error e := by
  induction l generalizing s with
  | nil => cases h
  | cons a l ih =>
    rw [List.foldlM_cons] at h
    rcases except_bind_eq_error h with ha | ⟨u, -, h⟩
    · exact ⟨s, a, List.mem_cons_self, ha⟩
    · obtain ⟨s', a', ha', herror⟩ := ih h
      exact ⟨s', a', List.mem_cons_of_mem _ ha', herror⟩

end Chain

/-! ## Logs

What a component did can be kept as a log beside its state, one entry a
step. The two notions below look back from an entry on what the log held
before it. -/

namespace Log

variable {ε : Type*}

/-- How often something happened since the last entry that resets the count;
what the resetting entry itself did counts. -/
def countSince (resets : ε → Bool) (happens : ε → Nat) (log : List ε) : Nat :=
  log.foldl (fun n e => (if resets e then 0 else n) + happens e) 0

/-- When the entries since the last one that resets began, if there are any. -/
def since {τ : Type*} (resets : ε → Bool) (time : ε → τ) (log : List ε) : Option τ :=
  log.foldl (fun began e => if resets e then none else began.or (some (time e))) none

/-- Every entry satisfies a condition on the entries before it. -/
def EachAfter (P : List ε → ε → Prop) (log : List ε) : Prop :=
  ∀ before e after, log = before ++ e :: after → P before e

variable {resets : ε → Bool} {happens : ε → Nat} {P : List ε → ε → Prop} {log : List ε} {e : ε}

@[simp] theorem countSince_nil : countSince resets happens ([] : List ε) = 0 := rfl

theorem countSince_concat (log : List ε) (e : ε) :
    countSince resets happens (log ++ [e])
      = (if resets e then 0 else countSince resets happens log) + happens e := by
  simp [countSince]

theorem since_concat {τ : Type*} {time : ε → τ} (log : List ε) (e : ε) :
    since resets time (log ++ [e])
      = if resets e then none else (since resets time log).or (some (time e)) := by
  simp [since]

/-- Nothing counted that never happened. -/
theorem countSince_eq_zero (h : ∀ e ∈ log, happens e = 0) : countSince resets happens log = 0 := by
  induction log using List.reverseRecOn with
  | nil => rfl
  | append_singleton log e ih =>
    have hlog : countSince resets happens log = 0 := ih fun d hd => h d (by simp [hd])
    have he : happens e = 0 := h e (by simp)
    rw [countSince_concat, hlog, he]
    simp

theorem eachAfter_nil : EachAfter P ([] : List ε) := by
  intro before e after h
  simp at h

theorem EachAfter.concat (h : EachAfter P log) (he : P log e) : EachAfter P (log ++ [e]) := by
  intro before d after heq
  rcases List.eq_nil_or_concat after with rfl | ⟨after, last, rfl⟩
  · obtain ⟨rfl, hlast⟩ := List.append_inj' heq rfl
    rw [← (List.cons.inj hlast).1]
    exact he
  · rw [List.concat_eq_append, ← List.cons_append, ← List.append_assoc] at heq
    exact h before d after (List.append_inj' heq rfl).1

/-- Entries that may stand anywhere. -/
theorem EachAfter.append {entries : List ε} (h : EachAfter P log)
    (he : ∀ e ∈ entries, ∀ before, P before e) : EachAfter P (log ++ entries) := by
  induction entries generalizing log with
  | nil => rwa [List.append_nil]
  | cons e entries ih =>
    rw [List.append_cons]
    exact ih (h.concat (he e List.mem_cons_self log))
      fun d hd => he d (List.mem_cons_of_mem _ hd)

end Log

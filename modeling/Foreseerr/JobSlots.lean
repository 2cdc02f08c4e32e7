import Foreseerr.KeyedList
import Foreseerr.Run
import Mathlib.Data.List.Basic
import Mathlib.Data.Fin.Basic

/-!
# The slots of the job executor

Every run of a job goes through one executor (`jobs/execution.rs`), which has a
slot for one heavy run and two for light ones. A request that finds no slot
waits, one entry a job, and every run that ends hands its slot to those that
wait.

What the slots count is the runs, which the executor does not keep: a run is a
task that knows its job and its weight and gives both back. The state here has
them beside the slots, and most of what is proved says that the two agree.
-/

namespace Foreseerr

namespace JobSlots

/-- `ManagedJobWeight`. -/
inductive Weight
  | heavy
  | light
deriving DecidableEq, Repr

/-- How many runs of a weight there are slots for. -/
def Weight.limit : Weight → Nat
  | .heavy => 1
  | .light => 2

/-- A run, or a request for one: the job and the weight it comes with. -/
abbrev Job := String × Weight

/-- `Slots`. -/
structure Slots where
  active : List String := []
  heavy : Nat := 0
  light : Nat := 0
  pending : List Job := []
deriving DecidableEq, Repr

namespace Slots

def canAdmit (s : Slots) (id : String) (weight : Weight) : Bool :=
  if id ∈ s.active then false
  else match weight with
    | .heavy => s.heavy < 1
    | .light => s.light < 2

def take (s : Slots) (id : String) (weight : Weight) : Slots :=
  match weight with
  | .heavy => { s with active := s.active ++ [id], heavy := s.heavy + 1 }
  | .light => { s with active := s.active ++ [id], light := s.light + 1 }

/-- A job that waits keeps its place, with the weight it is asked for again. -/
def replaceWeight (old new : Job) : Job := (old.1, new.2)

/-- `Slots::admit`. -/
def admitJob (s : Slots) (id : String) (weight : Weight) : Bool × Slots :=
  if s.canAdmit id weight then (true, s.take id weight)
  else (false, { s with pending := KeyedList.upsert Prod.fst replaceWeight s.pending (id, weight) })

/-- The slot of a run is given back. -/
def free (s : Slots) (id : String) (weight : Weight) : Slots :=
  match weight with
  | .heavy => { s with active := s.active.erase id, heavy := s.heavy - 1 }
  | .light => { s with active := s.active.erase id, light := s.light - 1 }

/-- `drainPendingJobs`: of those queued, each that fits is started and the others
wait again. -/
def drain (s : Slots) : List Job → List Job × Slots
  | [] => ([], s)
  | (pending, w) :: queued =>
    if s.canAdmit pending w then
      let (started, t) := (s.take pending w).drain queued
      ((pending, w) :: started, t)
    else { s with pending := s.pending ++ [(pending, w)] }.drain queued

def release (s : Slots) (id : String) (weight : Weight) : List Job × Slots :=
  let freed := s.free id weight
  { freed with pending := [] }.drain freed.pending

def clearPending (s : Slots) : Slots := { s with pending := [] }

end Slots

/-- The executor: its slots, whether the jobs are stopped, and the runs that hold
a slot, in the order they were admitted. -/
structure Executor where
  slots : Slots := {}
  stopped : Bool := false
  runs : List Job := []
deriving DecidableEq, Repr

inductive Act
  | admitJob (id : String) (weight : Weight)
  | release (id : String) (weight : Weight)
  | clearPending
  | stop
deriving DecidableEq, Repr

namespace Executor

/-- `Inner::admit`, refused outright once stopped. -/
def admitJob (e : Executor) (id : String) (weight : Weight) : Option (Bool × Slots) :=
  if e.stopped then none else some (e.slots.admitJob id weight)

end Executor

/-- One step. A release gives back the slot of a run there is, and what it starts
are runs from then on (`run_admitted`). -/
def step (e : Executor) : Act → Option Executor
  | .admitJob id weight =>
    match e.admitJob id weight with
    | none => some e
    | some (true, slots) => some { e with slots, runs := e.runs ++ [(id, weight)] }
    | some (false, slots) => some { e with slots }
  | .release id weight =>
    if (id, weight) ∈ e.runs then
      let (started, slots) := e.slots.release id weight
      some { e with slots, runs := e.runs.erase (id, weight) ++ started }
    else none
  | .clearPending => some { e with slots := e.slots.clearPending }
  | .stop => some { e with slots := e.slots.clearPending, stopped := true }

/-- What the step takes from the queue and starts. -/
def started (e : Executor) : Act → List Job
  | .release id weight => (e.slots.release id weight).1
  | _ => []

/-- The step is a request that has to wait. -/
def Refused (e : Executor) (act : Act) (id : String) (weight : Weight) : Prop :=
  act = .admitJob id weight ∧ ∃ slots, e.admitJob id weight = some (false, slots)

/-- The step drops the queue. -/
def Drops (act : Act) : Prop := act = .clearPending ∨ act = .stop

instance (act : Act) : Decidable (Drops act) := inferInstanceAs (Decidable (_ ∨ _))

/-! ## Taking and giving back slots -/

namespace Slots

theorem replaceWeight_fst (old new : Job) : (replaceWeight old new).1 = old.1 := rfl

/-- How many slots for a weight are taken. -/
def used (s : Slots) : Weight → Nat
  | .heavy => s.heavy
  | .light => s.light

variable {s t : Slots} {id : String} {w v : Weight} {runs queued : List Job} {p q : Job}

theorem canAdmit_iff : s.canAdmit id w = true ↔ id ∉ s.active ∧ s.used w < w.limit := by
  unfold canAdmit
  cases w <;> simp [used, Weight.limit]

@[simp] theorem active_take : (s.take id w).active = s.active ++ [id] := by cases w <;> rfl

@[simp] theorem pending_take : (s.take id w).pending = s.pending := by cases w <;> rfl

theorem used_take : (s.take id w).used v = s.used v + if w = v then 1 else 0 := by
  cases w <;> cases v <;> rfl

@[simp] theorem active_free : (s.free id w).active = s.active.erase id := by cases w <;> rfl

/-- The queue takes no slots. -/
@[simp] theorem used_pending {pending : List Job} : { s with pending }.used v = s.used v := by
  cases v <;> rfl

theorem used_free : (s.free id w).used v = s.used v - if w = v then 1 else 0 := by
  cases w <;> cases v <;> rfl

/-- Who does not fit does not fit once another slot is taken. -/
theorem canAdmit_of_take (h : (s.take id w).canAdmit p.1 p.2 = true) :
    s.canAdmit p.1 p.2 = true := by
  obtain ⟨hactive, hused⟩ := canAdmit_iff.1 h
  rw [active_take] at hactive
  rw [used_take] at hused
  exact canAdmit_iff.2 ⟨fun hmem => hactive (List.mem_append_left _ hmem), by omega⟩

end Slots

/-- What the slots count is the runs: their jobs are active, none of them twice,
and no more of a weight than there are slots for. -/
structure Balanced (s : Slots) (runs : List Job) : Prop where
  active_eq : s.active = runs.map Prod.fst
  active_nodup : s.active.Nodup
  used_eq : ∀ w, s.used w = runs.countP fun run => run.2 = w
  used_le : ∀ w, s.used w ≤ w.limit

namespace Balanced

variable {s : Slots} {id : String} {w : Weight} {runs : List Job}

theorem take (h : Balanced s runs) (hfits : s.canAdmit id w = true) :
    Balanced (s.take id w) (runs ++ [(id, w)]) := by
  obtain ⟨hactive, hused⟩ := Slots.canAdmit_iff.1 hfits
  refine ⟨?_, ?_, fun v => ?_, fun v => ?_⟩
  · rw [Slots.active_take, h.active_eq, List.map_append, List.map_singleton]
  · rw [Slots.active_take, List.nodup_append]
    refine ⟨h.active_nodup, List.nodup_singleton id, fun a ha b hb => ?_⟩
    rintro rfl
    exact hactive (List.mem_singleton.1 hb ▸ ha)
  · rw [Slots.used_take, h.used_eq, List.countP_append]
    simp
  · have hv := h.used_le v
    rw [Slots.used_take]
    split
    · next heq => exact heq ▸ hused
    · exact hv

/-- The queue does not count. -/
theorem of_pending (h : Balanced s runs) (pending : List Job) :
    Balanced { s with pending } runs :=
  ⟨h.active_eq, h.active_nodup, fun v => Slots.used_pending.trans (h.used_eq v),
    fun v => Slots.used_pending.trans_le (h.used_le v)⟩

theorem map_erase (hnodup : (runs.map Prod.fst).Nodup) (hrun : (id, w) ∈ runs) :
    (runs.erase (id, w)).map Prod.fst = (runs.map Prod.fst).erase id := by
  induction runs with
  | nil => exact absurd hrun List.not_mem_nil
  | cons run runs ih =>
    rw [List.map_cons, List.nodup_cons] at hnodup
    rcases List.mem_cons.1 hrun with rfl | hrun
    · simp
    · have hne : run.1 ≠ id := by
        intro heq
        exact hnodup.1 (heq ▸ List.mem_map_of_mem hrun)
      have hrun' : run ≠ (id, w) := fun heq => hne (heq ▸ rfl)
      rw [List.erase_cons_tail (by simpa using hrun'), List.map_cons, List.map_cons,
        List.erase_cons_tail (by simpa using hne), ih hnodup.2 hrun]

theorem free (h : Balanced s runs) (hrun : (id, w) ∈ runs) :
    Balanced (s.free id w) (runs.erase (id, w)) := by
  have hnodup : (runs.map Prod.fst).Nodup := h.active_eq ▸ h.active_nodup
  refine ⟨?_, ?_, fun v => ?_, fun v => ?_⟩
  · rw [Slots.active_free, h.active_eq, map_erase hnodup hrun]
  · rw [Slots.active_free]
    exact h.active_nodup.erase id
  · rw [Slots.used_free, h.used_eq, (List.perm_cons_erase hrun).countP_eq, List.countP_cons]
    simp
  · rw [Slots.used_free]
    exact (Nat.sub_le _ _).trans (h.used_le v)

/-- A slot of its weight is free once a run is over. -/
theorem used_free_lt (h : Balanced s runs) (hrun : (id, w) ∈ runs) :
    (s.free id w).used w < w.limit := by
  have hpos : 0 < s.used w := by
    rw [h.used_eq]
    exact List.countP_pos_iff.2 ⟨(id, w), hrun, by simp⟩
  have hle := h.used_le w
  rw [Slots.used_free, if_pos rfl]
  omega

end Balanced

/-! ## The queue -/

namespace Slots

variable {s : Slots} {id : String} {w : Weight} {runs before after queued : List Job} {p : Job}

theorem release_eq : s.release id w = { s.free id w with pending := [] }.drain s.pending := by
  cases w <;> rfl

theorem drain_cons_of_fits (h : s.canAdmit p.1 p.2 = true) :
    s.drain (p :: queued)
      = (p :: ((s.take p.1 p.2).drain queued).1, ((s.take p.1 p.2).drain queued).2) :=
  if_pos h

theorem drain_cons_of_waits (h : ¬ s.canAdmit p.1 p.2 = true) :
    s.drain (p :: queued) = { s with pending := s.pending ++ [p] }.drain queued :=
  if_neg h

/-- Those who stand first in the queue are asked first. -/
theorem drain_append : s.drain (before ++ after)
    = ((s.drain before).1 ++ ((s.drain before).2.drain after).1,
      ((s.drain before).2.drain after).2) := by
  induction before generalizing s with
  | nil => rfl
  | cons p before ih =>
    rw [List.cons_append]
    by_cases hp : s.canAdmit p.1 p.2 = true
    · rw [drain_cons_of_fits hp, drain_cons_of_fits hp, ih]
      rfl
    · rw [drain_cons_of_waits hp, drain_cons_of_waits hp, ih]

/-- Who is started fitted at the start. -/
theorem canAdmit_of_mem_drain (h : p ∈ (s.drain queued).1) : s.canAdmit p.1 p.2 = true := by
  induction queued generalizing s with
  | nil => exact absurd h List.not_mem_nil
  | cons q queued ih =>
    by_cases hq : s.canAdmit q.1 q.2 = true
    · rw [drain_cons_of_fits hq] at h
      rcases List.mem_cons.1 h with rfl | h
      · exact hq
      · exact canAdmit_of_take (ih h)
    · rw [drain_cons_of_waits hq] at h
      have hfits := ih h
      exact hfits

/-- Where nobody is started the slots are as before. -/
theorem canAdmit_drain_of_nil (h : (s.drain queued).1 = []) :
    (s.drain queued).2.canAdmit id w = s.canAdmit id w := by
  induction queued generalizing s with
  | nil => rfl
  | cons q queued ih =>
    by_cases hq : s.canAdmit q.1 q.2 = true
    · rw [drain_cons_of_fits hq] at h
      exact absurd h (List.cons_ne_nil _ _)
    · rw [drain_cons_of_waits hq] at h ⊢
      exact ih h

/-- The queue is split into those who are started and those who wait on, both in
its order. -/
theorem drain_split : ∃ rest, (s.drain queued).2.pending = s.pending ++ rest
    ∧ (s.drain queued).1.Sublist queued ∧ rest.Sublist queued
    ∧ ((s.drain queued).1 ++ rest).Perm queued := by
  induction queued generalizing s with
  | nil => exact ⟨[], (List.append_nil _).symm, .slnil, .slnil, .nil⟩
  | cons q queued ih =>
    by_cases hq : s.canAdmit q.1 q.2 = true
    · rw [drain_cons_of_fits hq]
      obtain ⟨rest, hpending, hstarted, hrest, hperm⟩ := @ih (s.take q.1 q.2)
      rw [pending_take] at hpending
      exact ⟨rest, hpending, hstarted.cons_cons q, hrest.cons q, hperm.cons q⟩
    · rw [drain_cons_of_waits hq]
      obtain ⟨rest, hpending, hstarted, hrest, hperm⟩ :=
        @ih { s with pending := s.pending ++ [q] }
      refine ⟨q :: rest, ?_, hstarted.cons q, hrest.cons_cons q, ?_⟩
      · rw [hpending, List.append_assoc, List.singleton_append]
      · exact List.perm_middle.trans (hperm.cons q)

end Slots

theorem Balanced.drain {s : Slots} {runs queued : List Job} (h : Balanced s runs) :
    Balanced (s.drain queued).2 (runs ++ (s.drain queued).1) := by
  induction queued generalizing s runs with
  | nil => rwa [Slots.drain, List.append_nil]
  | cons q queued ih =>
    by_cases hq : s.canAdmit q.1 q.2 = true
    · rw [Slots.drain_cons_of_fits hq, List.append_cons]
      exact ih (h.take hq)
    · rw [Slots.drain_cons_of_waits hq]
      exact ih (h.of_pending _)

namespace Slots

variable {s : Slots} {id : String} {w : Weight} {runs before after queued : List Job} {p : Job}

/-- Nobody who waits on could be started. -/
theorem waiting_drain (hwaiting : ∀ p ∈ s.pending, s.canAdmit p.1 p.2 = false) :
    ∀ p ∈ (s.drain queued).2.pending, (s.drain queued).2.canAdmit p.1 p.2 = false := by
  induction queued generalizing s with
  | nil => exact hwaiting
  | cons q queued ih =>
    by_cases hq : s.canAdmit q.1 q.2 = true
    · rw [drain_cons_of_fits hq]
      refine ih fun p hp => ?_
      rw [pending_take] at hp
      exact Bool.eq_false_iff.2 fun hfits =>
        Bool.false_ne_true ((hwaiting p hp).symm.trans (canAdmit_of_take hfits))
    · rw [drain_cons_of_waits hq]
      refine ih fun p hp => ?_
      rcases List.mem_append.1 hp with hp | hp
      · exact hwaiting p hp
      · rw [List.mem_singleton.1 hp]
        exact Bool.eq_false_iff.2 hq

/-- **In queue order among those that fit**: a request is started before an
earlier one of its weight only where the job of the earlier one runs. -/
theorem drain_overtakes (hnodup : (queued.map Prod.fst).Nodup) :
    queued.Pairwise fun p q => p.2 = q.2 → q ∈ (s.drain queued).1 →
      p ∈ (s.drain queued).1 ∨ p.1 ∈ s.active := by
  induction queued generalizing s with
  | nil => exact .nil
  | cons q queued ih =>
    rw [List.map_cons, List.nodup_cons] at hnodup
    have hne : ∀ p ∈ queued, p.1 ≠ q.1 := fun p hp heq =>
      hnodup.1 (heq ▸ List.mem_map_of_mem hp)
    by_cases hq : s.canAdmit q.1 q.2 = true
    · rw [drain_cons_of_fits hq]
      refine .cons (fun p hp hweight hstarted => .inl List.mem_cons_self) ?_
      refine (@ih (s.take q.1 q.2) hnodup.2).imp_of_mem fun {p p'} hp hp' h hweight hstarted => ?_
      have hp'q : p' ≠ q := fun heq => hne p' hp' (heq ▸ rfl)
      rcases h hweight ((List.mem_cons.1 hstarted).resolve_left hp'q) with hin | hactive
      · exact .inl (List.mem_cons_of_mem _ hin)
      · rw [active_take, List.mem_append, List.mem_singleton] at hactive
        exact .inr (hactive.resolve_right (hne p hp))
    · rw [drain_cons_of_waits hq]
      refine .cons (fun p hp hweight hstarted => .inr ?_) (ih hnodup.2)
      have hfits := (canAdmit_iff.1 (canAdmit_of_mem_drain hstarted)).2
      by_contra hidle
      exact hq (canAdmit_iff.2 ⟨hidle, hweight ▸ hfits⟩)

/-- Who is not started stands no further back than before, and further ahead if
there was a slot to give. -/
theorem drain_ahead (hnodup : ((before ++ p :: after).map Prod.fst).Nodup)
    (hout : p ∉ (s.drain (before ++ p :: after)).1) :
    ∃ before' after', (s.drain (before ++ p :: after)).2.pending
        = s.pending ++ before' ++ p :: after' ∧ before'.length ≤ before.length
      ∧ (s.canAdmit p.1 p.2 = true → before'.length < before.length) := by
  rw [drain_append] at hout ⊢
  obtain ⟨before', hbefore, -, -, hperm⟩ := @drain_split s before
  obtain hlen : (s.drain before).1.length + before'.length = before.length :=
    List.length_append ▸ hperm.length_eq
  have hwaits : ¬ (s.drain before).2.canAdmit p.1 p.2 = true := by
    intro hfits
    rw [drain_cons_of_fits hfits] at hout
    exact hout (List.mem_append_right _ List.mem_cons_self)
  rw [drain_cons_of_waits hwaits]
  obtain ⟨after', hafter, -⟩ :=
    @drain_split { (s.drain before).2 with pending := (s.drain before).2.pending ++ [p] } after
  refine ⟨before', after', ?_, by omega, fun hfits => ?_⟩
  · rw [hafter, hbefore]
    simp
  · have hstarted : (s.drain before).1 ≠ [] := by
      intro hnil
      rw [canAdmit_drain_of_nil hnil] at hwaits
      exact hwaits hfits
    have := List.length_pos_iff.2 hstarted
    omega

end Slots

/-! ## Every step -/

/-- The executor keeps its promise: no more runs than slots, one entry a job in
the queue, and nobody in it who could be started. -/
structure Sound (e : Executor) : Prop where
  balanced : Balanced e.slots e.runs
  pending_nodup : (e.slots.pending.map Prod.fst).Nodup
  waiting : ∀ p ∈ e.slots.pending, e.slots.canAdmit p.1 p.2 = false

/-- What a step may be. -/
inductive StepCase (e : Executor) : Act → Executor → Prop
  | outright {id : String} {w : Weight} (hstopped : e.stopped = true) :
      StepCase e (.admitJob id w) e
  | admitted {id : String} {w : Weight} (hstopped : e.stopped = false)
      (hfits : e.slots.canAdmit id w = true) :
      StepCase e (.admitJob id w)
        { e with slots := e.slots.take id w, runs := e.runs ++ [(id, w)] }
  | queued {id : String} {w : Weight} (hstopped : e.stopped = false)
      (hwaits : e.slots.canAdmit id w = false) :
      StepCase e (.admitJob id w) { e with slots :=
        { e.slots with pending :=
          KeyedList.upsert Prod.fst Slots.replaceWeight e.slots.pending (id, w) } }
  | released {id : String} {w : Weight} (hrun : (id, w) ∈ e.runs) :
      StepCase e (.release id w)
        { e with slots := (e.slots.release id w).2,
                 runs := e.runs.erase (id, w) ++ (e.slots.release id w).1 }
  | dropped {act : Act} (hdrops : Drops act) (stopped : Bool) :
      StepCase e act { e with slots := e.slots.clearPending, stopped }

section Step

variable {e e' : Executor} {act : Act} {id j : String} {w v : Weight} {p : Job}

theorem step_cases (h : step e act = some e') : StepCase e act e' := by
  cases act with
  | admitJob id w =>
    simp only [step, Executor.admitJob] at h
    cases hstopped : e.stopped with
    | true =>
      rw [if_pos hstopped] at h
      cases h
      exact .outright hstopped
    | false =>
      rw [if_neg (Bool.eq_false_iff.1 hstopped)] at h
      cases hfits : e.slots.canAdmit id w with
      | true =>
        rw [Slots.admitJob, if_pos hfits] at h
        cases h
        exact .admitted hstopped hfits
      | false =>
        rw [Slots.admitJob, if_neg (Bool.eq_false_iff.1 hfits)] at h
        cases h
        exact .queued hstopped hfits
  | release id w =>
    simp only [step] at h
    split at h
    · next hrun =>
      cases h
      exact .released hrun
    · cases h
  | clearPending =>
    cases h
    exact .dropped (.inl rfl) e.stopped
  | stop =>
    cases h
    exact .dropped (.inr rfl) true

/-- A request is refused where the jobs are not stopped and it does not fit. -/
theorem refused_iff : Refused e act id w
    ↔ act = .admitJob id w ∧ e.stopped = false ∧ e.slots.canAdmit id w = false := by
  unfold Refused Executor.admitJob Slots.admitJob
  cases e.stopped <;> cases e.slots.canAdmit id w <;> simp

theorem started_sublist : (started e act).Sublist e.slots.pending := by
  cases act with
  | release id w =>
    rw [started, Slots.release_eq]
    obtain ⟨-, -, hstarted, -⟩ := @Slots.drain_split
      { e.slots.free id w with pending := [] } e.slots.pending
    exact hstarted
  | _ => exact List.nil_sublist _

theorem pending_release : (e.slots.release id w).2.pending.Sublist e.slots.pending
    ∧ ((e.slots.release id w).1 ++ (e.slots.release id w).2.pending).Perm e.slots.pending := by
  rw [Slots.release_eq]
  obtain ⟨rest, hpending, -, hrest, hperm⟩ := @Slots.drain_split
    { e.slots.free id w with pending := [] } e.slots.pending
  rw [hpending]
  exact ⟨hrest, hperm⟩

namespace Sound

theorem init : Sound {} where
  balanced :=
    ⟨rfl, List.nodup_nil, fun w => by cases w <;> rfl, fun w => by cases w <;> decide⟩
  pending_nodup := List.nodup_nil
  waiting _ hp := absurd hp List.not_mem_nil

/-- **Every step keeps the promise.** -/
theorem step (hs : Sound e) (h : JobSlots.step e act = some e') : Sound e' := by
  cases step_cases h with
  | outright => exact hs
  | admitted _ hfits =>
    refine ⟨hs.balanced.take hfits, ?_, fun p hp => ?_⟩
    · rw [Slots.pending_take]
      exact hs.pending_nodup
    · rw [Slots.pending_take] at hp
      exact Bool.eq_false_iff.2 fun h' =>
        Bool.false_ne_true ((hs.waiting p hp).symm.trans (Slots.canAdmit_of_take h'))
  | queued _ hwaits =>
    refine ⟨hs.balanced.of_pending _, ?_, ?_⟩
    · exact KeyedList.nodup_upsert Slots.replaceWeight_fst hs.pending_nodup _
    · refine KeyedList.forall_mem_upsert hs.waiting hwaits fun p hp => ?_
      rw [Slots.replaceWeight, hp]
      exact hwaits
  | @released id w hrun =>
    refine ⟨?_, ?_, ?_⟩
    · rw [Slots.release_eq]
      exact ((hs.balanced.free hrun).of_pending []).drain
    · exact hs.pending_nodup.sublist (pending_release.1.map Prod.fst)
    · rw [Slots.release_eq]
      exact Slots.waiting_drain fun p hp => absurd hp List.not_mem_nil
  | dropped =>
    exact ⟨hs.balanced.of_pending [], List.nodup_nil, fun p hp => absurd hp List.not_mem_nil⟩

end Sound

end Step

/-! ## Waiting -/

/-- The job has a request in the queue. -/
def Waits (e : Executor) (id : String) : Prop := id ∈ e.slots.pending.map Prod.fst

/-- The step starts the job from the queue. -/
def Starts (e : Executor) (act : Act) (id : String) : Prop := id ∈ (started e act).map Prod.fst

instance (e : Executor) (act : Act) (id : String) : Decidable (Starts e act id) :=
  inferInstanceAs (Decidable (_ ∈ _))

/-- How many stand before the job in the queue. -/
def ahead (e : Executor) (id : String) : Nat := (e.slots.pending.map Prod.fst).idxOf id

section Waiting

variable {e e' : Executor} {act : Act} {id j : String} {w v : Weight} {p : Job}

/-- Who is started from the queue was in it, and is not in it any more. -/
theorem not_waits_of_starts (hs : Sound e) (h : step e act = some e') (hstarts : Starts e act id) :
    Waits e id ∧ ¬ Waits e' id := by
  refine ⟨(started_sublist.map Prod.fst).subset hstarts, ?_⟩
  cases step_cases h with
  | outright => exact absurd hstarts List.not_mem_nil
  | admitted => exact absurd hstarts List.not_mem_nil
  | queued => exact absurd hstarts List.not_mem_nil
  | @released j w hrun =>
    have hperm := (@pending_release e j w).2.map Prod.fst
    rw [List.map_append] at hperm
    intro hwaits
    exact (List.nodup_append.1 (hperm.nodup_iff.2 hs.pending_nodup)).2.2 _ hstarts _ hwaits rfl
  | dropped => exact List.not_mem_nil

/-- A refused request waits, in the place its job has in the queue or at its end. -/
theorem mem_pending_of_refused (h : step e act = some e') (hrefused : Refused e act id w) :
    (id, w) ∈ e'.slots.pending := by
  obtain ⟨rfl, hstopped, hwaits⟩ := refused_iff.1 hrefused
  cases step_cases h with
  | outright h' => exact absurd (h'.symm.trans hstopped) Bool.noConfusion
  | admitted _ hfits => exact absurd (hfits.symm.trans hwaits) Bool.noConfusion
  | queued =>
    refine KeyedList.mem_of_lookup
      ((KeyedList.lookup_upsert_self Slots.replaceWeight_fst e.slots.pending (id, w)).trans ?_)
    cases hlookup : KeyedList.lookup Prod.fst id e.slots.pending with
    | none => rfl
    | some old =>
      have hkey : old.1 = id := KeyedList.key_of_lookup hlookup
      exact congrArg some (Prod.ext hkey rfl)
  | dropped hdrops => rcases hdrops with hdrops | hdrops <;> cases hdrops

/-- **What a step does to a request in the queue**: it drops the queue, starts the
request, takes another weight for its job, or leaves it. -/
theorem waits_step (h : step e act = some e') (hp : p ∈ e.slots.pending) :
    Drops act ∨ p ∈ started e act ∨ (∃ w, Refused e act p.1 w ∧ (p.1, w) ∈ e'.slots.pending)
      ∨ (∀ w, ¬ Refused e act p.1 w) ∧ p ∈ e'.slots.pending := by
  by_cases hrefused : ∃ w, Refused e act p.1 w
  · obtain ⟨w, hrefused⟩ := hrefused
    exact .inr (.inr (.inl ⟨w, hrefused, mem_pending_of_refused h hrefused⟩))
  · rw [not_exists] at hrefused
    cases step_cases h with
    | outright => exact .inr (.inr (.inr ⟨hrefused, hp⟩))
    | admitted => exact .inr (.inr (.inr ⟨hrefused, by rwa [Slots.pending_take]⟩))
    | @queued id w hstopped hwaits =>
      refine .inr (.inr (.inr ⟨hrefused, ?_⟩))
      refine (KeyedList.mem_upsert_of_ne Slots.replaceWeight_fst ?_).2 hp
      rintro rfl
      exact hrefused w (refused_iff.2 ⟨rfl, hstopped, hwaits⟩)
    | released =>
      rcases List.mem_append.1 (pending_release.2.mem_iff.2 hp) with hstarted | hrest
      · exact .inr (.inl hstarted)
      · exact .inr (.inr (.inr ⟨hrefused, hrest⟩))
    | dropped hdrops => exact .inl hdrops

/-- No job comes to wait but by a request that is refused. -/
theorem not_waits_step (h : step e act = some e') (hout : ¬ Waits e id)
    (hrefused : ∀ w, ¬ Refused e act id w) : ¬ Waits e' id := by
  cases step_cases h with
  | outright => exact hout
  | admitted =>
    unfold Waits
    rwa [Slots.pending_take]
  | @queued j w hstopped hwaits =>
    have hne : id ≠ j := by
      rintro rfl
      exact hrefused w (refused_iff.2 ⟨rfl, hstopped, hwaits⟩)
    unfold Waits
    dsimp only
    rw [KeyedList.map_key_upsert Slots.replaceWeight_fst]
    split
    · exact hout
    · rw [List.mem_append, List.mem_singleton]
      exact not_or.2 ⟨hout, hne⟩
  | released => exact fun hwaits => hout ((pending_release.1.map Prod.fst).subset hwaits)
  | dropped => exact List.not_mem_nil

/-- A job comes to run from the queue, or by a request that fits. -/
theorem mem_active_step (hs : Sound e) (h : step e act = some e')
    (hmem : id ∈ e'.slots.active) : id ∈ e.slots.active ∨ Starts e act id
      ∨ ∃ w, act = .admitJob id w ∧ e.slots.canAdmit id w = true := by
  have hs' := hs.step h
  cases step_cases h with
  | outright => exact .inl hmem
  | @admitted j w _ hfits =>
    rw [Slots.active_take, List.mem_append, List.mem_singleton] at hmem
    rcases hmem with hmem | rfl
    · exact .inl hmem
    · exact .inr (.inr ⟨w, rfl, hfits⟩)
  | queued => exact .inl hmem
  | @released j w hrun =>
    rw [hs'.balanced.active_eq, List.map_append, List.mem_append] at hmem
    rcases hmem with hmem | hstarts
    · rw [← (hs.balanced.free hrun).active_eq, Slots.active_free] at hmem
      exact .inl (List.mem_of_mem_erase hmem)
    · exact .inr (.inl hstarts)
  | dropped => exact .inl hmem

/-- A run that is over is one no more, but for a start of its job from the queue. -/
theorem not_mem_active_release (hs : Sound e) (h : step e (.release id w) = some e')
    (hout : ¬ Starts e (.release id w) id) : id ∉ e'.slots.active := by
  have hs' := hs.step h
  cases step_cases h with
  | released hrun =>
    rw [hs'.balanced.active_eq, List.map_append, List.mem_append,
      ← (hs.balanced.free hrun).active_eq, Slots.active_free]
    exact not_or.2 ⟨hs.balanced.active_nodup.not_mem_erase, hout⟩
  | dropped hdrops => rcases hdrops with hdrops | hdrops <;> cases hdrops

theorem ahead_eq (hs : Sound e) {before after : List Job}
    (h : e.slots.pending = before ++ p :: after) : ahead e p.1 = before.length := by
  have hnodup := hs.pending_nodup
  rw [h, List.map_append, List.map_cons] at hnodup
  have hout : p.1 ∉ before.map Prod.fst := fun hmem =>
    (List.nodup_append.1 hnodup).2.2 _ hmem _ List.mem_cons_self rfl
  rw [ahead, h, List.map_append, List.map_cons, List.idxOf_append_of_notMem hout,
    List.idxOf_cons_self, List.length_map, Nat.add_zero]

/-- A release that does not start who waits brings him no further back, and
further ahead if it gave back a slot he fits in. -/
theorem ahead_release (hs : Sound e) (h : step e (.release j v) = some e')
    (hp : p ∈ e.slots.pending) (hout : p ∉ started e (.release j v)) :
    ahead e' p.1 ≤ ahead e p.1
      ∧ ((e.slots.free j v).canAdmit p.1 p.2 = true → ahead e' p.1 < ahead e p.1) := by
  obtain ⟨before, after, hsplit⟩ := List.append_of_mem hp
  have hs' : Sound e' := hs.step h
  cases step_cases h with
  | released hrun =>
    have hnodup := hs.pending_nodup
    rw [hsplit] at hnodup
    rw [started, Slots.release_eq, hsplit] at hout
    obtain ⟨before', after', hsplit', hle, hlt⟩ := Slots.drain_ahead hnodup hout
    rw [← hsplit, ← Slots.release_eq, List.nil_append] at hsplit'
    rw [ahead_eq hs hsplit, ahead_eq hs' hsplit']
    exact ⟨hle, hlt⟩
  | dropped hdrops => rcases hdrops with hdrops | hdrops <;> cases hdrops

theorem ahead_step (hs : Sound e) (h : step e act = some e') (hp : p ∈ e.slots.pending)
    (hdrops : ¬ Drops act) (hout : p ∉ started e act) : ahead e' p.1 ≤ ahead e p.1 := by
  have hwaits : p.1 ∈ e.slots.pending.map Prod.fst := List.mem_map_of_mem hp
  cases step_cases h with
  | outright => exact Nat.le_refl _
  | admitted => exact (congrArg (fun l => (l.map Prod.fst).idxOf p.1) Slots.pending_take).le
  | queued =>
    unfold ahead
    dsimp only
    rw [KeyedList.map_key_upsert Slots.replaceWeight_fst]
    split
    · exact Nat.le_refl _
    · exact (List.idxOf_append_of_mem hwaits).le
  | released => exact (ahead_release hs h hp hout).1
  | dropped h' => exact absurd h' hdrops

/-- Who waits for a slot of a run that is over is started or gets ahead. -/
theorem ahead_lt_of_release (hs : Sound e) (h : step e (.release j w) = some e')
    (hp : (id, w) ∈ e.slots.pending) (hidle : id ∉ e.slots.active)
    (hout : (id, w) ∉ started e (.release j w)) : ahead e' id < ahead e id := by
  refine (ahead_release hs h hp hout).2 (Slots.canAdmit_iff.2 ⟨?_, ?_⟩)
  · rw [Slots.active_free]
    exact fun hmem => hidle (List.mem_of_mem_erase hmem)
  · cases step_cases h with
    | released hrun => exact hs.balanced.used_free_lt hrun
    | dropped hdrops => rcases hdrops with hdrops | hdrops <;> cases hdrops

/-- The queue has one request a job. -/
theorem mem_started_of_starts (hs : Sound e) (hp : p ∈ e.slots.pending)
    (hstarts : Starts e act p.1) : p ∈ started e act := by
  obtain ⟨q, hq, heq⟩ := List.mem_map.1 hstarts
  obtain rfl := List.inj_on_of_nodup_map hs.pending_nodup (started_sublist.subset hq) hp heq
  exact hq

/-- A slot that a waiting request lacks is held by a run. -/
theorem exists_run_of_idle (hs : Sound e) (hp : (id, w) ∈ e.slots.pending)
    (hidle : id ∉ e.slots.active) : ∃ j, (j, w) ∈ e.runs := by
  have hfull : ¬ e.slots.used w < w.limit := fun hlt =>
    absurd (Slots.canAdmit_iff.2 ⟨hidle, hlt⟩) (Bool.eq_false_iff.1 (hs.waiting _ hp))
  have hlimit : 0 < w.limit := by cases w <;> decide
  have hpos : 0 < e.runs.countP fun run => run.2 = w := by
    rw [← hs.balanced.used_eq]
    omega
  obtain ⟨⟨j, v⟩, hrun, hv⟩ := List.countP_pos_iff.1 hpos
  obtain rfl : v = w := by simpa using hv
  exact ⟨j, hrun⟩

end Waiting

/-! ## Histories -/

/-- A history of the executor that never ends. -/
abbrev History := Endless fun e act e' => step e act = some e'

/-- Every run ends in the end and gives its slot back. -/
def Fair (r : History) : Prop :=
  ∀ n, ∀ run ∈ (r.state n).runs, ∃ m ≥ n, r.input m = .release run.1 run.2

section Histories

variable {r : History} {n : ℕ} {id : String} {w : Weight}

/-- What a refused request is kept as until its job is started or the queue is
dropped: an entry with the weight of the last of the job's refused requests. -/
theorem kept_until_started (hrefused : Refused (r.state n) (r.input n) id w) :
    ∀ m > n, (∀ k, n < k → k < m → ¬ Drops (r.input k) ∧ ¬ Starts (r.state k) (r.input k) id) →
      ∃ k v, n ≤ k ∧ k < m ∧ Refused (r.state k) (r.input k) id v
        ∧ (∀ i, k < i → i < m → ∀ v', ¬ Refused (r.state i) (r.input i) id v')
        ∧ (id, v) ∈ (r.state m).slots.pending := by
  intro m hm hout
  let P : ℕ → Prop := fun m => ∃ k v, n ≤ k ∧ k < m ∧ Refused (r.state k) (r.input k) id v
    ∧ (∀ i, k < i → i < m → ∀ v', ¬ Refused (r.state i) (r.input i) id v')
    ∧ (id, v) ∈ (r.state m).slots.pending
  have hstart : P (n + 1) := ⟨n, w, Nat.le_refl n, Nat.lt_succ_self n, hrefused,
    fun i hi hi' => by omega, mem_pending_of_refused (r.step_holds n) hrefused⟩
  have hstep : ∀ k ≥ n + 1, P k →
      (Drops (r.input k) ∨ Starts (r.state k) (r.input k) id) ∨ P (k + 1) := by
    rintro m hm ⟨k, v, hk, hkm, hk', hlast, hmem⟩
    rcases waits_step (r.step_holds m) hmem with hdrops | hstarts | ⟨v', hv', hmem'⟩ | ⟨hno, hmem'⟩
    · exact .inl (.inl hdrops)
    · exact .inl (.inr (List.mem_map_of_mem hstarts))
    · exact .inr ⟨m, v', by omega, Nat.lt_succ_self m, hv', fun i hi hi' => by omega, hmem'⟩
    · refine .inr ⟨k, v, hk, by omega, hk', fun i hi hi' v' => ?_, hmem'⟩
      rcases Nat.lt_succ_iff_lt_or_eq.1 hi' with hlt | rfl
      · exact hlast i hi hlt v'
      · exact hno v'
  exact kept_until hstep hstart m hm fun k hk hkm => not_or.2 (hout k hk hkm)

/-- Between two starts of a job from the queue lies a request for it that was
refused. -/
theorem refused_between (hsound : ∀ n, Sound (r.state n)) {m m' : ℕ} (hlt : m < m')
    (hm : Starts (r.state m) (r.input m) id) (hm' : Starts (r.state m') (r.input m') id) :
    ∃ k, m < k ∧ k < m' ∧ ∃ v, Refused (r.state k) (r.input k) id v := by
  by_contra hnone
  rw [not_exists] at hnone
  have hgone := (not_waits_of_starts (hsound m) (r.step_holds m) hm).2
  have hwaits := (not_waits_of_starts (hsound m') (r.step_holds m') hm').1
  have hstep : ∀ k ≥ m + 1, ¬ Waits (r.state k) id →
      (∃ v, Refused (r.state k) (r.input k) id v) ∨ ¬ Waits (r.state (k + 1)) id := by
    intro k _ hout
    by_cases hv : ∃ v, Refused (r.state k) (r.input k) id v
    · exact .inl hv
    · exact .inr (not_waits_step (r.step_holds k) hout (not_exists.1 hv))
  exact kept_until hstep hgone m' hlt (fun k hk hkm hv => hnone k ⟨hk, hkm, hv⟩) hwaits

/-- The queue is dropped, or the request is started from it. -/
def Settled (r : History) (id : String) (w : Weight) (m : ℕ) : Prop :=
  Drops (r.input m) ∨ (id, w) ∈ started (r.state m) (r.input m)

section Fair

variable (hsound : ∀ n, Sound (r.state n)) (hfair : Fair r)
  (hweight : ∀ m > n, ∀ v, r.input m = .admitJob id v → v = w)

include hsound hweight in
/-- A job whose request waits does not come to run another way. -/
theorem idle_until {k : ℕ} (hk : n < k) (hwaits : ∀ m ≥ k, (id, w) ∈ (r.state m).slots.pending)
    (hidle : id ∉ (r.state k).slots.active) :
    ∀ m ≥ k, (∀ i, k ≤ i → i < m → ¬ Settled r id w i) → id ∉ (r.state m).slots.active := by
  suffices hstep : ∀ i ≥ k, id ∉ (r.state i).slots.active →
      Settled r id w i ∨ id ∉ (r.state (i + 1)).slots.active from kept_until hstep hidle
  intro i hi hidle
  by_cases hsettled : Settled r id w i
  · exact .inl hsettled
  · refine .inr fun hmem => ?_
    rcases mem_active_step (hsound i) (r.step_holds i) hmem with hactive | hstarts | ⟨v, hv, hfits⟩
    · exact hidle hactive
    · exact hsettled (.inr (mem_started_of_starts (hsound i) (hwaits i hi) hstarts))
    · obtain rfl := hweight i (by omega) v hv
      exact Bool.false_ne_true (((hsound i).waiting _ (hwaits i hi)).symm.trans hfits)

include hsound hfair hweight in
theorem gets_ahead_of_idle {k : ℕ} (hk : n < k)
    (hwaits : ∀ m ≥ k, (id, w) ∈ (r.state m).slots.pending)
    (hidle : id ∉ (r.state k).slots.active) :
    ∃ m ≥ k, Settled r id w m ∨ ahead (r.state (m + 1)) id < ahead (r.state m) id := by
  obtain ⟨j, hrun⟩ := exists_run_of_idle (hsound k) (hwaits k (Nat.le_refl k)) hidle
  obtain ⟨m, hm, hinput⟩ := hfair k _ hrun
  by_cases hsettled : ∃ i, k ≤ i ∧ i ≤ m ∧ Settled r id w i
  · obtain ⟨i, hi, -, hsettled⟩ := hsettled
    exact ⟨i, hi, .inl hsettled⟩
  · have hout : ∀ i, k ≤ i → i ≤ m → ¬ Settled r id w i :=
      fun i hi him h => hsettled ⟨i, hi, him, h⟩
    have hstill := idle_until hsound hweight hk hwaits hidle m hm
      fun i hi him => hout i hi him.le
    have hstep := r.step_holds m
    have hunsettled := hout m hm (Nat.le_refl m)
    rw [Settled, hinput] at hunsettled
    rw [hinput] at hstep
    exact ⟨m, hm, .inr (ahead_lt_of_release (hsound m) hstep (hwaits m hm) hstill
      (not_or.1 hunsettled).2)⟩

include hsound hfair hweight in
theorem gets_ahead {k : ℕ} (hk : n < k) (hwaits : ∀ m ≥ k, (id, w) ∈ (r.state m).slots.pending) :
    ∃ m ≥ k, Settled r id w m ∨ ahead (r.state (m + 1)) id < ahead (r.state m) id := by
  by_cases hidle : id ∈ (r.state k).slots.active
  · -- its own run ends first, and then it waits for a slot
    rw [(hsound k).balanced.active_eq] at hidle
    obtain ⟨⟨j, v⟩, hmem, heq⟩ := List.mem_map.1 hidle
    have hrun : (id, v) ∈ (r.state k).runs := (show j = id from heq) ▸ hmem
    obtain ⟨m, hm, hinput⟩ := hfair k _ hrun
    by_cases hsettled : Settled r id w m
    · exact ⟨m, hm, .inl hsettled⟩
    · have hstep := r.step_holds m
      rw [Settled, hinput] at hsettled
      rw [hinput] at hstep
      have hover := not_mem_active_release (hsound m) hstep fun hstarts =>
        hsettled (.inr (mem_started_of_starts (hsound m) (hwaits m hm) hstarts))
      obtain ⟨i, hi, h⟩ := gets_ahead_of_idle hsound hfair hweight (k := m + 1) (by omega)
        (fun i hi => hwaits i (by omega)) hover
      exact ⟨i, by omega, h⟩
  · exact gets_ahead_of_idle hsound hfair hweight hk hwaits hidle

include hsound hfair hweight in
/-- **A refused request is started in the end** where every run ends and the
job is asked for with one weight. -/
theorem settled_of_fair (hrefused : Refused (r.state n) (r.input n) id w) :
    ∃ m > n, Settled r id w m := by
  let P : ℕ → Prop := fun m => (id, w) ∈ (r.state m).slots.pending
  have hstep : ∀ m ≥ n + 1, P m →
      Settled r id w m ∨ (P (m + 1) ∧ ahead (r.state (m + 1)) id ≤ ahead (r.state m) id) := by
    intro m hm hwaits
    by_cases hsettled : Settled r id w m
    · exact .inl hsettled
    · obtain ⟨hdrops, hout⟩ := not_or.1 hsettled
      refine .inr ⟨?_, ahead_step (hsound m) (r.step_holds m) hwaits hdrops hout⟩
      rcases waits_step (r.step_holds m) hwaits with h | h | ⟨v, hv, hmem⟩ | ⟨-, hmem⟩
      · exact absurd h hdrops
      · exact absurd h hout
      · obtain rfl := hweight m hm v hv.1
        exact hmem
      · exact hmem
  exact leadsTo_of_rank (fun m => ahead (r.state m) id) hstep
    (fun k hk hwaits => gets_ahead hsound hfair hweight hk hwaits)
    (mem_pending_of_refused (r.step_holds n) hrefused)

end Fair

end Histories

/-! ## No request is lost -/

/-- What a release hands over: of those in the queue it starts some and leaves the
others, both in its order, and passes over one for a later one of its weight only
where the job of the earlier one runs. -/
structure Handover (e : Executor) (id : String) (w : Weight) (e' : Executor) : Prop where
  split : (started e (.release id w) ++ e'.slots.pending).Perm e.slots.pending
  started_sublist : (started e (.release id w)).Sublist e.slots.pending
  rest_sublist : e'.slots.pending.Sublist e.slots.pending
  in_order : e.slots.pending.Pairwise fun p q => p.2 = q.2 → q ∈ started e (.release id w) →
    p ∈ started e (.release id w) ∨ p.1 ∈ e.slots.active.erase id

theorem Sound.handover {e e' : Executor} {id : String} {w : Weight} (hs : Sound e)
    (h : JobSlots.step e (.release id w) = some e') : Handover e id w e' := by
  cases step_cases h with
  | released hrun =>
    refine ⟨pending_release.2, started_sublist, pending_release.1, ?_⟩
    rw [started, Slots.release_eq, ← @Slots.active_free e.slots id w]
    exact Slots.drain_overtakes hs.pending_nodup
  | dropped hdrops => rcases hdrops with hdrops | hdrops <;> cases hdrops

/-- **The executor never admits too much and loses no request.** Whatever was
asked of it, no more runs hold slots than there are, and nobody waits who could
be started; a request it refuses is kept, one entry a job, until a release starts
it or the queue is dropped, and each start answers another refusal. Where every
run ends and the job is asked for with one weight, that is what happens. -/
theorem requests_served {acts : List Act} {e : Executor}
    (h : Run (fun e act e' => step e act = some e') {} acts e) :
    Sound e ∧ (∀ id w e', step e (.release id w) = some e' → Handover e id w e')
      ∧ ∀ r : History, r.state 0 = e → ∀ id,
        (∀ m m', m < m' → Starts (r.state m) (r.input m) id → Starts (r.state m') (r.input m') id →
          ∃ k, m < k ∧ k < m' ∧ ∃ v, Refused (r.state k) (r.input k) id v)
        ∧ ∀ n w, Refused (r.state n) (r.input n) id w →
          (∀ m > n,
            (∀ k, n < k → k < m → ¬ Drops (r.input k) ∧ ¬ Starts (r.state k) (r.input k) id) →
            ∃ k v, n ≤ k ∧ k < m ∧ Refused (r.state k) (r.input k) id v
              ∧ (∀ i, k < i → i < m → ∀ v', ¬ Refused (r.state i) (r.input i) id v')
              ∧ (id, v) ∈ (r.state m).slots.pending)
          ∧ (Fair r → (∀ m > n, ∀ v, r.input m = .admitJob id v → v = w) →
            ∃ m > n, Drops (r.input m) ∨ (id, w) ∈ started (r.state m) (r.input m)) := by
  have hsound : Sound e := h.invariant (fun _ _ _ hs hstep => hs.step hstep) Sound.init
  refine ⟨hsound, fun id w e' hstep => hsound.handover hstep, fun r hr id => ?_⟩
  have hall : ∀ n, Sound (r.state n) :=
    r.invariant (fun _ _ _ hs hstep => hs.step hstep) (hr ▸ hsound)
  refine ⟨fun m m' hlt hm hm' => refused_between hall hlt hm hm', fun n w hrefused => ?_⟩
  refine ⟨kept_until_started hrefused, fun hfair hweight => ?_⟩
  exact settled_of_fair hall hfair hweight hrefused

/-- A third light job waits for a slot, and is started by the release of one. -/
theorem requests_served_third :
    ∃ e, Run (fun e act e' => step e act = some e') {} [.admitJob "download-sync" .light,
        .admitJob "image-cache-cleanup" .light, .admitJob "plex-refresh-token" .light] e
      ∧ e.slots.pending = [("plex-refresh-token", .light)]
      ∧ ∀ e', step e (.release "download-sync" .light) = some e' →
        Handover e "download-sync" .light e' := by
  have hrun : ([.admitJob "download-sync" .light, .admitJob "image-cache-cleanup" .light,
      .admitJob "plex-refresh-token" .light].foldlM step {}).map (·.slots.pending)
      = some [("plex-refresh-token", .light)] := by decide +kernel
  obtain ⟨e, he, hpending⟩ := Option.map_eq_some_iff.1 hrun
  exact ⟨e, Run.of_foldlM he, hpending,
    (requests_served (Run.of_foldlM he)).2.1 "download-sync" .light⟩

/-! ## A job of two weights -/

namespace TwoWeights

/-- A scan runs, and a heavy request for the sync waits for it. -/
def waiting : Executor where
  slots := { active := ["plex-full-scan"], heavy := 1, pending := [("availability-sync", .heavy)] }
  runs := [("plex-full-scan", .heavy)]

/-- The sync runs as a light job while the scan ends and is started again. -/
def input : Fin 4 → Act
  | 0 => .admitJob "availability-sync" .light
  | 1 => .release "plex-full-scan" .heavy
  | 2 => .admitJob "plex-full-scan" .heavy
  | 3 => .release "availability-sync" .light

def state : Fin 4 → Executor
  | 0 => waiting
  | 1 => { waiting with
      slots := { waiting.slots with active := ["plex-full-scan", "availability-sync"], light := 1 }
      runs := [("plex-full-scan", .heavy), ("availability-sync", .light)] }
  | 2 => { waiting with
      slots := { waiting.slots with active := ["availability-sync"], heavy := 0, light := 1 }
      runs := [("availability-sync", .light)] }
  | 3 => { waiting with
      slots := { waiting.slots with active := ["availability-sync", "plex-full-scan"], light := 1 }
      runs := [("availability-sync", .light), ("plex-full-scan", .heavy)] }

theorem step_state : ∀ i, step (state i) (input i) = some (state (i + 1)) := by decide +kernel

theorem ofNat_add (n : ℕ) (d : Fin 4) : Fin.ofNat 4 (n + d) = Fin.ofNat 4 n + d := by
  ext
  simp [Fin.val_add]

/-- These four steps again and again, after the heavy request was refused. -/
def history : History where
  state
    | 0 => { waiting with slots := { waiting.slots with pending := [] } }
    | n + 1 => state (Fin.ofNat 4 n)
  input
    | 0 => .admitJob "availability-sync" .heavy
    | n + 1 => input (Fin.ofNat 4 n)
  step_holds
    | 0 => by decide +kernel
    | n + 1 => by
      have hnext : Fin.ofNat 4 (n + 1) = Fin.ofNat 4 n + 1 := ofNat_add n 1
      dsimp only
      rw [hnext]
      exact step_state _

theorem released_soon : ∀ i, ∀ run ∈ (state i).runs,
    ∃ d : Fin 4, input (i + d) = .release run.1 run.2 := by decide +kernel

theorem fair_history : Fair history := by
  intro n run hrun
  cases n with
  | zero =>
    obtain rfl : run = ("plex-full-scan", .heavy) := List.mem_singleton.1 hrun
    exact ⟨2, Nat.zero_le 2, rfl⟩
  | succ n =>
    obtain ⟨d, hd⟩ := released_soon (Fin.ofNat 4 n) run hrun
    refine ⟨n + d + 1, by omega, ?_⟩
    rw [← hd, ← ofNat_add]
    rfl

theorem never_settled : ∀ i, ¬ Drops (input i) ∧
    ¬ Starts (state i) (input i) "availability-sync" := by decide +kernel

/-- **A refused request need not be started**, though every run ends and the queue
is never dropped: the same job, asked for as a light one meanwhile, runs whenever
the heavy slot is free. -/
theorem starved : ∃ (acts : List Act) (r : History),
    Run (fun e act e' => step e act = some e') {} acts (r.state 0) ∧ Fair r
      ∧ Refused (r.state 0) (r.input 0) "availability-sync" .heavy
      ∧ ∀ m, ¬ Drops (r.input m) ∧ ¬ Starts (r.state m) (r.input m) "availability-sync" := by
  refine ⟨[.admitJob "plex-full-scan" .heavy], history, Run.of_foldlM (by decide +kernel),
    fair_history, refused_iff.2 (by decide +kernel), fun m => ?_⟩
  cases m with
  | zero => decide +kernel
  | succ n => exact never_settled (Fin.ofNat 4 n)

end TwoWeights

end JobSlots

end Foreseerr

import Mathlib.Data.Int.Order.Basic
import Mathlib.Order.Lattice

/-!
# Leases with a fence

A lease on something shared is a row that says who has it and until when. A
holder can be overtaken without noticing: its lease expires while it stalls,
and another takes it. A **fence** makes that visible. It is a number that
every acquisition raises, the holder keeps the one it was given as a
`Ticket`, and whatever it does later it does on the condition that the row
still has its name and its fence.

A ticket the row has moved past matches nothing any more
(`FencedLease.renew_of_lt`, `FencedLease.release_of_lt`), and at most one
ticket matches a row (`FencedLease.eq_of_isHeldBy`).
-/

/-- **A lease with a fence**: its owner, when it expires, and the fence of
the last acquisition. -/
structure FencedLease (ω τ : Type*) where
  owner : Option ω := none
  expires : Option τ := none
  fence : Int := 0
deriving DecidableEq, Repr

namespace FencedLease

/-- What an acquisition gives its owner. -/
structure Ticket (ω : Type*) where
  owner : ω
  fence : Int
deriving DecidableEq, Repr

variable {ω τ : Type*} {l : FencedLease ω τ} {t t' : Ticket ω} {tickets : List (Ticket ω)}

/-! ## The tickets given out

`Given` relates a lease to the tickets that were given out for it: none is
ahead of its fence, and the one that is level with it has the owner the lease
shows, unless it was given back. -/

/-- The tickets given out for a lease. -/
structure Given (l : FencedLease ω τ) (tickets : List (Ticket ω)) : Prop where
  rising : tickets.Pairwise fun earlier later => earlier.fence < later.fence
  behind : ∀ t ∈ tickets, t.fence ≤ l.fence
  level : ∀ t ∈ tickets, t.fence = l.fence → ∀ o, l.owner = some o → o = t.owner

/-- What keeps the fence, and changes the name to nothing if at all, keeps
what was given out. -/
theorem Given.of_fence (h : l.Given tickets) {l' : FencedLease ω τ} (hfence : l'.fence = l.fence)
    (howner : l'.owner = l.owner ∨ l'.owner = none) : l'.Given tickets := by
  refine ⟨h.rising, fun t ht => hfence ▸ h.behind t ht, fun t ht heq o ho => ?_⟩
  rcases howner with hsame | hnone
  · exact h.level t ht (heq.trans hfence) o (hsame ▸ ho)
  · rw [hnone] at ho
    cases ho

/-! ## Holding a lease -/

section Holder

variable [DecidableEq ω]

/-- The lease is the one a ticket was given for. -/
def isHeldBy (l : FencedLease ω τ) (t : Ticket ω) : Bool :=
  decide (l.owner = some t.owner) && decide (l.fence = t.fence)

/-- Give a lease back; the fence stays. -/
def release (l : FencedLease ω τ) (t : Ticket ω) : FencedLease ω τ :=
  if l.isHeldBy t then { l with owner := none, expires := none } else l

theorem isHeldBy_iff : l.isHeldBy t = true ↔ l.owner = some t.owner ∧ l.fence = t.fence := by
  simp [isHeldBy]

/-- A lease is held by one ticket at most. -/
theorem eq_of_isHeldBy (h : l.isHeldBy t = true) (h' : l.isHeldBy t' = true) : t = t' := by
  obtain ⟨howner, hfence⟩ := isHeldBy_iff.mp h
  obtain ⟨howner', hfence'⟩ := isHeldBy_iff.mp h'
  obtain ⟨o, f⟩ := t
  obtain ⟨o', f'⟩ := t'
  rw [Ticket.mk.injEq]
  exact ⟨Option.some.inj (howner.symm.trans howner'), hfence.symm.trans hfence'⟩

/-- A ticket the lease has moved past does not hold it. -/
theorem isHeldBy_of_lt (h : t.fence < l.fence) : l.isHeldBy t = false := by
  by_contra hheld
  have hfence := (isHeldBy_iff.mp (by simpa using hheld)).2
  exact absurd hfence (ne_of_gt h)

@[simp] theorem fence_release : (l.release t).fence = l.fence := by
  unfold release
  split <;> rfl

/-- Only the holder's release takes the name off. -/
theorem owner_release : (l.release t).owner = l.owner ∨ (l.release t).owner = none := by
  unfold release
  split
  · exact .inr rfl
  · exact .inl rfl

/-- **An overtaken ticket releases nothing.** -/
theorem release_of_lt (h : t.fence < l.fence) : l.release t = l := by
  unfold release
  rw [isHeldBy_of_lt h]
  rfl

theorem Given.release (h : l.Given tickets) : (l.release t).Given tickets :=
  h.of_fence fence_release owner_release

/-- **A new ticket is ahead of all before it**: the lease shows an owner that
has none yet, and the ticket is that owner's. -/
theorem Given.concat (h : l.Given tickets) (hheld : l.isHeldBy t = true)
    (hnew : ∀ t' ∈ tickets, t'.owner ≠ t.owner) : l.Given (tickets ++ [t]) := by
  obtain ⟨howner, hfence⟩ := isHeldBy_iff.mp hheld
  refine ⟨?_, fun t' ht' => ?_, fun t' ht' heq o ho => ?_⟩
  · rw [List.pairwise_append]
    refine ⟨h.rising, List.pairwise_singleton _ _, fun t' ht' x hx => ?_⟩
    rw [List.mem_singleton.mp hx, ← hfence]
    refine lt_of_le_of_ne (h.behind t' ht') fun heq => ?_
    exact hnew t' ht' (h.level t' ht' heq t.owner howner).symm
  · rcases List.mem_append.mp ht' with hold | hlast
    · exact h.behind t' hold
    · rw [List.mem_singleton.mp hlast]
      exact le_of_eq hfence.symm
  · rcases List.mem_append.mp ht' with hold | hlast
    · exact h.level t' hold heq o ho
    · rw [List.mem_singleton.mp hlast]
      exact Option.some.inj (ho.symm.trans howner)

end Holder

/-! ## Taking a lease -/

section Expiry

variable [LinearOrder τ] {owner : ω} {now expiry : τ}

/-- A lease nobody has, or that is over. -/
def isFree (l : FencedLease ω τ) (now : τ) : Bool := l.expires.all fun e => decide (e ≤ now)

/-- A lease that is not over. -/
def isLive (l : FencedLease ω τ) (now : τ) : Bool := l.expires.any fun e => decide (now < e)

/-- Take a free lease. -/
def acquire (l : FencedLease ω τ) (owner : ω) (now expiry : τ) : FencedLease ω τ :=
  if l.isFree now then { owner := some owner, expires := some expiry, fence := l.fence + 1 } else l

theorem acquire_of_isFree (h : l.isFree now = true) :
    l.acquire owner now expiry
      = { owner := some owner, expires := some expiry, fence := l.fence + 1 } :=
  if_pos h

theorem acquire_of_not (h : ¬l.isFree now = true) : l.acquire owner now expiry = l :=
  if_neg h

theorem Given.acquire (h : l.Given tickets) : (l.acquire owner now expiry).Given tickets := by
  by_cases hfree : l.isFree now = true
  · rw [acquire_of_isFree hfree]
    refine ⟨h.rising, fun t ht => ?_, fun t ht heq => ?_⟩
    · exact le_trans (h.behind t ht) (Int.le_add_one le_rfl)
    · have hle := h.behind t ht
      have heq : t.fence = l.fence + 1 := heq
      omega
  · rw [acquire_of_not hfree]
    exact h

variable [DecidableEq ω]

/-- Put off the end of a lease that is not over. -/
def renew (l : FencedLease ω τ) (t : Ticket ω) (now expiry : τ) : FencedLease ω τ :=
  if l.isHeldBy t && l.isLive now then { l with expires := some expiry } else l

@[simp] theorem fence_renew : (l.renew t now expiry).fence = l.fence := by
  unfold renew
  split <;> rfl

@[simp] theorem owner_renew : (l.renew t now expiry).owner = l.owner := by
  unfold renew
  split <;> rfl

/-- **An overtaken ticket renews nothing.** -/
theorem renew_of_lt (h : t.fence < l.fence) : l.renew t now expiry = l := by
  unfold renew
  rw [isHeldBy_of_lt h]
  rfl

theorem Given.renew (h : l.Given tickets) : (l.renew t now expiry).Given tickets :=
  h.of_fence fence_renew (.inl owner_renew)

end Expiry

end FencedLease

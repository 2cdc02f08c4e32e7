import Mathlib.Data.Rat.Defs
import Mathlib.Logic.Function.Basic

/-!
# The per-user snapshot caches

`UserCache` of `mappinglayer/synccache.rs` keeps one snapshot for each user,
with the generations that tell a fetch whether it was overtaken by an
invalidation of its user or of everyone. Trakt's and AniList's caches are
both built on it.

Times are seconds since the epoch. They are ratios here, as every other
double the caches compare.
-/

namespace Foreseerr

/-- `MediaType`. -/
inductive MediaType
  | movie
  | tv
deriving DecidableEq, Repr

/-- A double, as far as comparing goes: `none` stands for those that equal no
finite number. -/
abbrev JsNumber := Option ℚ

/-- `UserCache`: the snapshots by user, and the generations. -/
structure UserCache (T : Type) where
  snapshots : Int → Option T := fun _ => none
  users : Int → Nat := fun _ => 0
  globalGeneration : Nat := 0

namespace UserCache

variable {T : Type}

/-- `generation`: what tells a later state whether a fetch was overtaken. -/
def generation (cache : UserCache T) (user : Int) : Nat × Nat :=
  (cache.users user, cache.globalGeneration)

/-- `is_stale`. -/
def isStale (cache : UserCache T) (user : Int) (generation : Nat × Nat) : Bool :=
  generation != cache.generation user

/-- `snapshots.insert`. -/
def insert (cache : UserCache T) (user : Int) (snapshot : T) : UserCache T :=
  { cache with snapshots := Function.update cache.snapshots user (some snapshot) }

/-- `invalidate_user`. -/
def invalidateUser (cache : UserCache T) (user : Int) : UserCache T :=
  { cache with
    users := Function.update cache.users user (cache.users user + 1)
    snapshots := Function.update cache.snapshots user none }

/-- `clear`. -/
def clear (cache : UserCache T) : UserCache T :=
  { cache with
    globalGeneration := cache.globalGeneration + 1
    snapshots := fun _ => none }

@[simp] theorem snapshots_insert_self (cache : UserCache T) (user : Int) (snapshot : T) :
    (cache.insert user snapshot).snapshots user = some snapshot :=
  Function.update_self ..

/-- A snapshot stored for one user is nobody else's. -/
theorem snapshots_insert_of_ne (cache : UserCache T) {user other : Int} (snapshot : T)
    (h : other ≠ user) :
    (cache.insert user snapshot).snapshots other = cache.snapshots other :=
  Function.update_of_ne h ..

/-- What a property of the stored snapshots asks of a new one. -/
theorem forall_snapshots_insert {P : T → Prop} {cache : UserCache T} {user : Int}
    {snapshot : T} (hcache : ∀ u s, cache.snapshots u = some s → P s) (h : P snapshot) :
    ∀ u s, (cache.insert user snapshot).snapshots u = some s → P s := by
  intro u s hs
  by_cases hu : u = user
  · subst hu
    rw [snapshots_insert_self] at hs
    exact Option.some.inj hs ▸ h
  · rw [cache.snapshots_insert_of_ne snapshot hu] at hs
    exact hcache u s hs

end UserCache

/-- `DEFAULT_TTL_SECONDS`. -/
def defaultTtlSeconds : ℚ := 7200

/-- `expired`: a snapshot lives for two hours. -/
def expired (now fetchedAt : ℚ) : Bool := now - fetchedAt > defaultTtlSeconds

end Foreseerr

import Mathlib
import Foreseerr.MemCache

/-!
# The cache budget over whole runs

Every operation on the caches keeps `Registry.Inv`, so the counters agree
with the entries in every state a run reaches. A `set` also makes its store
fit its own limits. The shared budget is met more weakly: the loop that makes
room evicts one entry a round and gives up after ten thousand of them, so a
large value put on top of more small ones than that leaves the budget
exceeded. `Registry.used_le_of_set` says that nothing else does, as long as
no entry of size zero is stored.
-/

namespace Foreseerr

open Std (HashMap TreeMap)
open MapWeight

variable {P : Type}

namespace Registry

variable {r r' : Registry P} {i : Nat} {s : Store P} {key : String} {entry : CacheEntry P}

/-! ## The shared loop -/

/-- An eviction of a held entry: its bytes are given back, and it counts. -/
theorem evict_of_holds (h : r.Inv) (hholds : r.Holds i key entry) :
    (r.evict i key true).usedBytes + entry.size = r.usedBytes
      ∧ (r.evict i key true).evictions = r.evictions + 1
      ∧ ¬ ∃ entry', (r.evict i key true).Holds i key entry' := by
  obtain ⟨s, hs, he⟩ := hholds
  have hi : i < r.stores.length := (List.getElem?_eq_some_iff.mp hs).1
  have hle : entry.size ≤ r.usedBytes := by
    rw [h.used]
    have hsize : entry.size ≤ s.bytes := by
      rw [(h.stores i s hs).bytes, weight_eq_add_erase CacheEntry.size he]
      exact Nat.le_add_right ..
    exact hsize.trans (List.single_le_sum (by simp) _
      (List.mem_map_of_mem (List.mem_of_getElem? hs)))
  rw [evict_eq hs he]
  refine ⟨Nat.sub_add_cancel hle, rfl, ?_⟩
  rintro ⟨entry', s', hs', he'⟩
  rcases getElem?_set_store hs' hs with ⟨-, rfl⟩ | ⟨hne, -⟩
  · have he' : (s.entries.erase key)[key]? = some entry' := he'
    grind
  · exact hne rfl

/-- **What the shared loop reaches.** Where every entry takes space, it ends
within the budget or evicts an entry in every round it has. -/
theorem ensureCapacityLoop_spec (h : r.Inv) (now : Int) (rounds : Nat) :
    (ensureCapacityLoop now rounds r).Inv ∧ Shrinks r (ensureCapacityLoop now rounds r)
      ∧ ((∀ i key entry, r.Holds i key entry → 0 < entry.size) →
        (ensureCapacityLoop now rounds r).usedBytes ≤ r.limitBytes
          ∨ (ensureCapacityLoop now rounds r).evictions = r.evictions + rounds) := by
  induction rounds generalizing r with
  | zero => exact ⟨h, Shrinks.refl r, fun _ => .inr rfl⟩
  | succ rounds ih =>
    unfold ensureCapacityLoop
    split
    · have hsweeps := sweeps_removeAllExpired h now
      have hdue := nothingDue_removeAllExpired h now
      generalize r.removeAllExpired now = r₁ at *
      dsimp only
      split
      · next hfits => exact ⟨hsweeps.inv, hsweeps.shrinks, fun _ => .inl (hsweeps.shrinks.limit ▸ hfits)⟩
      · next hover =>
        obtain ⟨hsame, hsome, hnone⟩ := oldestOf_spec hsweeps.inv hdue (List.range r₁.stores.length)
        generalize oldestOf now (List.range r₁.stores.length) r₁ = found at *
        obtain ⟨r₂, candidate⟩ := found
        obtain rfl : r₂ = r₁ := hsame
        cases candidate with
        | none =>
          -- an empty registry uses nothing
          obtain ⟨i, key, entry, hholds⟩ := exists_holds_of_used hsweeps.inv (by omega)
          exact absurd hholds (hnone rfl i (List.mem_range.mpr hholds.lt) key entry)
        | some candidate =>
          obtain ⟨stamp, i, key⟩ := candidate
          obtain ⟨entry, hold⟩ := hsome stamp i key rfl
          obtain ⟨hused, hevictions, -⟩ := evict_of_holds hsweeps.inv hold.holds
          have hinv := inv_evict hsweeps.inv i key true
          have hshrinks := hsweeps.shrinks.trans (shrinks_evict r₂ i key true)
          dsimp only
          split
          · next hstuck =>
            refine ⟨hinv, hshrinks, fun hpos => ?_⟩
            have hsize := hpos i key entry (hold.holds.of_shrinks hsweeps.shrinks)
            have hle := hsweeps.shrinks.used
            omega
          · obtain ⟨hinv', hshrinks', hends⟩ := ih hinv
            refine ⟨hinv', hshrinks.trans hshrinks', fun hpos => ?_⟩
            rcases hends (fun i key entry hholds => hpos i key entry (hholds.of_shrinks hshrinks))
              with hfits | hall
            · exact .inl (hshrinks.limit ▸ hfits)
            · right
              rw [hall, hevictions, hsweeps.evictions]
              omega
    · next hfits => exact ⟨h, Shrinks.refl r, fun _ => .inl (not_lt.mp hfits)⟩

/-! ## Every operation keeps the invariant -/

/-- Replacing one store keeps the invariant, when the counter moves with the
store's bytes. -/
theorem inv_set_store (h : r.Inv) (hs : r.stores[i]? = some s) {t : Store P}
    (ht : t.Inv r'.access) (hstores : r'.stores = r.stores.set i t)
    (haccess : r.access ≤ r'.access) (hused : r'.usedBytes + s.bytes = r.usedBytes + t.bytes) :
    r'.Inv where
  used := by
    have hsum := sum_map_set (·.bytes) t hs
    rw [hstores]
    have := h.used
    omega
  stores := by
    intro j u hu
    rw [hstores] at hu
    rcases getElem?_set_store hu hs with ⟨-, rfl⟩ | ⟨-, hu⟩
    · exact ht
    · exact Store.inv_mono (h.stores j u hu) haccess

/-- A hit or a miss counts in one store. -/
theorem bump_cases (r : Registry P) (i : Nat) (hit : Bool) :
    (r.stores[i]? = none ∧ r.bump i hit = r)
      ∨ ∃ s t : Store P, r.stores[i]? = some s ∧ r.bump i hit = { r with stores := r.stores.set i t }
        ∧ t.entries = s.entries ∧ t.bytes = s.bytes
        ∧ ∀ access, s.Inv access → t.Inv access := by
  unfold bump
  cases hs : r.stores[i]? with
  | none => exact .inl ⟨rfl, rfl⟩
  | some s =>
    refine .inr ⟨s, _, rfl, rfl, ?_, ?_, fun access h => ?_⟩ <;> cases hit
    · rfl
    · rfl
    · rfl
    · rfl
    · exact ⟨h.bytes, h.recency, h.expiry, h.stamps⟩
    · exact ⟨h.bytes, h.recency, h.expiry, h.stamps⟩

theorem inv_bump (h : r.Inv) (i : Nat) (hit : Bool) : (r.bump i hit).Inv := by
  rcases bump_cases r i hit with ⟨-, heq⟩ | ⟨s, t, hs, heq, -, hbytes, hinv⟩
  · rw [heq]
    exact h
  · rw [heq]
    exact inv_set_store h hs (hinv r.access (h.stores i s hs)) rfl le_rfl (by rw [hbytes])

theorem inv_get (h : r.Inv) (i : Nat) (key : String) (now : Int) : (r.get i key now).1.Inv := by
  unfold get
  split
  · exact inv_bump h i false
  · next entry hfound =>
    obtain ⟨s, hs, he⟩ := Option.bind_eq_some_iff.mp hfound
    split
    · exact inv_bump (inv_evict h i key false) i false
    · -- the hit: one store is replaced, under the next stamp
      rcases bump_cases { r with access := r.access + 1 } i true with
        ⟨hnone, -⟩ | ⟨s', t, hs', heq, hentries, hbytes, hinv⟩
      · rw [show r.stores[i]? = none from hnone] at hs
        cases hs
      · obtain rfl : s = s' := Option.some.inj (hs.symm.trans hs')
        have hi : i < r.stores.length := (List.getElem?_eq_some_iff.mp hs).1
        have ht : t.entries[key]? = some entry := by rw [hentries, he]
        have htouch := Store.inv_touch (hinv r.access (h.stores i s hs)) ht
        simp only [heq, List.getElem?_set_self hi]
        refine inv_set_store h hs htouch ?_ (Nat.le_succ _) ?_
        · exact List.set_set ..
        · show r.usedBytes + s.bytes = r.usedBytes + t.bytes
          rw [hbytes]

theorem inv_foldl_evict (h : r.Inv) (i : Nat) (keys : List String) :
    (keys.foldl (fun r key => r.evict i key false) r).Inv := by
  induction keys generalizing r with
  | nil => exact h
  | cons key keys ih => exact ih (inv_evict h i key false)

theorem inv_flush (h : r.Inv) (i : Nat) : (r.flush i).Inv := inv_foldl_evict h i _

/-- The registry with a new entry put in, before anything is dropped for it. -/
def insertNew (r : Registry P) (i : Nat) (s : Store P) (key : String) (payload : P) (size : Nat)
    (ttl now : Int) : Registry P :=
  { r with
    access := r.access + 1
    stores := r.stores.set i (s.with_ key
      { payload := payload
        size := size
        expiresAt := now + ttl
        storedAt := r.access + 1
        accessedAt := r.access + 1 })
    usedBytes := r.usedBytes + size }

theorem inv_insertNew (h : r.Inv) (hs : r.stores[i]? = some s) (hkey : s.entries[key]? = none)
    (payload : P) (size : Nat) (ttl now : Int) :
    (r.insertNew i s key payload size ttl now).Inv := by
  refine inv_set_store h hs (Store.inv_with (h.stores i s hs) hkey rfl rfl) rfl (Nat.le_succ _) ?_
  show r.usedBytes + size + s.bytes = r.usedBytes + (s.bytes + size)
  omega

/-- An evicted key is not found again. -/
theorem getElem?_evict (r : Registry P) (i : Nat) (key : String) (count : Bool)
    (hs : (r.evict i key count).stores[i]? = some s) : s.entries[key]? = none := by
  rcases evict_cases r i key count with heq | ⟨s₀, entry, hs₀, -, heq⟩
  · -- nothing was evicted because nothing was there
    cases he : s.entries[key]? with
    | none => rfl
    | some entry =>
      rw [heq] at hs
      rw [evict_eq hs he] at heq
      have hi : i < r.stores.length := (List.getElem?_eq_some_iff.mp hs).1
      have hstores : (r.stores.set i (s.without key entry)) = r.stores :=
        congrArg Registry.stores heq
      have hsame : some (s.without key entry) = some s := by
        rw [← hs, ← hstores, List.getElem?_set_self hi]
      have herase : s.entries.erase key = s.entries :=
        congrArg Store.entries (Option.some.inj hsame)
      rw [← herase] at he
      grind
  · rw [heq] at hs
    rcases getElem?_set_store hs hs₀ with ⟨-, rfl⟩ | ⟨hne, -⟩
    · show (s₀.entries.erase key)[key]? = none
      grind
    · exact absurd rfl hne

/-- A value stored keeps the invariant, and its store fits its own limits. -/
theorem store_spec (h : r.Inv) (i : Nat) (key : String) (payload : P) (size : Nat)
    (ttl now : Int) :
    (r.store i key payload size ttl now).Inv
      ∧ (r.store i key payload size ttl now).FitsLocally i
      ∧ (r.store i key payload size ttl now).limitBytes = r.limitBytes
      ∧ (r.store i key payload size ttl now).stores.length = r.stores.length := by
  have hevict := inv_evict h i key false
  have hshrinks := shrinks_evict r i key false
  have hfree := fun s => getElem?_evict (s := s) r i key false
  unfold store
  generalize r.evict i key false = r₁ at *
  dsimp only
  split
  · next hnone =>
    refine ⟨⟨hevict.used, fun j u hu => ?_⟩, fun s hs => ?_, hshrinks.limit, hshrinks.length⟩
    · exact Store.inv_mono (hevict.stores j u hu) (Nat.le_succ _)
    · rw [show r₁.stores[i]? = some s from hs] at hnone
      cases hnone
  · next s hs =>
    have hinv := inv_insertNew hevict hs (hfree s hs) payload size ttl now
    have hsweeps := sweeps_removeExpired hinv i now
    obtain ⟨htrimmed, hshrinks', hfits⟩ := trimToLocalLimits_spec hsweeps.inv i now
    have hall := hsweeps.shrinks.trans hshrinks'
    refine ⟨htrimmed, hfits, hall.limit.trans hshrinks.limit, ?_⟩
    exact (hall.length.trans List.length_set).trans hshrinks.length

/-- **`set`**: the invariant is kept, the store fits its own limits, and the
budget is kept too unless the shared loop used up its rounds. -/
theorem set_spec (h : r.Inv) (i : Nat) (key : String) (payload : P) (size : Nat)
    (ttl now : Int) (hi : i < r.stores.length) :
    (r.set i key payload size ttl now).Inv
      ∧ (r.set i key payload size ttl now).FitsLocally i
      ∧ (r.set i key payload size ttl now).limitBytes = r.limitBytes
      ∧ ((∀ j key' entry, (r.store i key payload size ttl now).Holds j key' entry →
            0 < entry.size) →
          (r.set i key payload size ttl now).usedBytes ≤ r.limitBytes
            ∨ (r.set i key payload size ttl now).evictions
              = (r.store i key payload size ttl now).evictions + capacityRounds) := by
  obtain ⟨hinv, hfits, hlimit, -⟩ := store_spec h i key payload size ttl now
  obtain ⟨hinv', hshrinks, hends⟩ := ensureCapacityLoop_spec hinv now capacityRounds
  unfold set
  dsimp only
  rw [if_pos hi]
  refine ⟨hinv', hfits.of_shrinks hshrinks, hshrinks.limit.trans hlimit, fun hpos => ?_⟩
  rw [← hlimit]
  exact hends hpos

theorem inv_set (h : r.Inv) (i : Nat) (key : String) (payload : P) (size : Nat)
    (ttl now : Int) : (r.set i key payload size ttl now).Inv := by
  by_cases hi : i < r.stores.length
  · exact (set_spec h i key payload size ttl now hi).1
  · unfold set
    dsimp only
    rw [if_neg hi]
    exact (store_spec h i key payload size ttl now).1

/-- **The step lemma**: every operation keeps the invariant. -/
theorem inv_perform (h : r.Inv) (op : CacheOp P) : (r.perform op).Inv := by
  have hinv : ∀ r' : Registry P, r'.Inv → Registry.Inv { r' with dropped := [] } :=
    fun r' h' => ⟨h'.used, h'.stores⟩
  cases op with
  | set store key payload size ttl now => exact hinv _ (inv_set h store key payload size ttl now)
  | get store key now => exact hinv _ (inv_get h store key now)
  | delete store key => exact hinv _ (inv_evict h store key false)
  | flush store => exact hinv _ (inv_flush h store)
  | sweep store now => exact hinv _ (sweeps_removeExpired h store now).inv

theorem inv_new (limitBytes : Nat) : (Registry.new limitBytes : Registry P).Inv where
  used := by
    refine (List.sum_eq_zero fun b hb => ?_).symm
    obtain ⟨s, hs, rfl⟩ := List.mem_map.mp hb
    obtain ⟨limits, -, rfl⟩ := List.mem_map.mp hs
    rfl
  stores := by
    intro i s hs
    obtain ⟨limits, -, rfl⟩ := List.mem_map.mp (List.mem_of_getElem? hs)
    exact Store.inv_empty limits 0

/-- **The run lemma**: the invariant holds in every state the operations
reach. -/
theorem inv_of_run {limitBytes : Nat} {ops : List (CacheOp P)}
    (h : Run CacheStep (Registry.new limitBytes) ops r) : r.Inv :=
  h.invariant (fun _ op _ hinv hstep => hstep ▸ inv_perform hinv op) (inv_new limitBytes)

/-! ## What a `set` holds -/

theorem holds_insertNew (hs : r.stores[i]? = some s) (payload : P) (size : Nat) (ttl now : Int)
    {j : Nat} {key' : String} (h : (r.insertNew i s key payload size ttl now).Holds j key' entry) :
    (r.Holds j key' entry ∧ (j, key') ≠ (i, key))
      ∨ (j = i ∧ key' = key ∧ entry.size = size ∧ entry.expiresAt = now + ttl
        ∧ entry.accessedAt = r.access + 1) := by
  obtain ⟨u, hu, he⟩ := h
  rcases getElem?_set_store hu hs with ⟨rfl, rfl⟩ | ⟨hne, hu⟩
  · have he : (s.entries.insert key _)[key']? = some entry := he
    rw [HashMap.getElem?_insert] at he
    split at he
    · next hkey =>
      obtain rfl := Option.some.inj he
      exact .inr ⟨rfl, (LawfulBEq.eq_of_beq hkey).symm, rfl, rfl, rfl⟩
    · next hkey => exact .inl ⟨⟨s, hs, he⟩, by grind⟩
  · exact .inl ⟨⟨u, hu, he⟩, by grind⟩

/-- What is held once a value is stored was held before or is the value's
entry. -/
theorem holds_store (h : r.Inv) (payload : P) (size : Nat) (ttl now : Int) {j : Nat}
    {key' : String} (hholds : (r.store i key payload size ttl now).Holds j key' entry) :
    r.Holds j key' entry ∨ entry.size = size := by
  have hevict := inv_evict h i key false
  have hshrinks := shrinks_evict r i key false
  have hfree := fun s => getElem?_evict (s := s) r i key false
  unfold store at hholds
  generalize r.evict i key false = r₁ at *
  dsimp only at hholds
  split at hholds
  · exact .inl (Holds.of_shrinks hshrinks hholds)
  · next s hs =>
    have hinv := inv_insertNew hevict hs (hfree s hs) payload size ttl now
    have hsweeps := sweeps_removeExpired hinv i now
    obtain ⟨-, hshrinks', -⟩ := trimToLocalLimits_spec hsweeps.inv i now
    have hnew := hholds.of_shrinks (hsweeps.shrinks.trans hshrinks')
    rcases holds_insertNew hs payload size ttl now hnew with ⟨hold, -⟩ | ⟨-, -, hsize, -⟩
    · exact .inl (hold.of_shrinks hshrinks)
    · exact .inr hsize

theorem holds_set (h : r.Inv) (payload : P) (size : Nat) (ttl now : Int) {j : Nat}
    {key' : String} (hholds : (r.set i key payload size ttl now).Holds j key' entry) :
    r.Holds j key' entry ∨ entry.size = size := by
  unfold set at hholds
  dsimp only at hholds
  split at hholds
  · have hinv := (store_spec h i key payload size ttl now).1
    have hshrinks := (ensureCapacityLoop_spec hinv now capacityRounds).2.1
    exact holds_store h payload size ttl now (hholds.of_shrinks hshrinks)
  · exact holds_store h payload size ttl now hholds

theorem not_holds_new (limitBytes i : Nat) (key : String) (entry : CacheEntry P) :
    ¬ (Registry.new limitBytes : Registry P).Holds i key entry := by
  rintro ⟨s, hs, he⟩
  obtain ⟨limits, -, rfl⟩ := List.mem_map.mp (List.mem_of_getElem? hs)
  simp at he

/-- **The budget over every run.** In every state the operations reach, the
shared counter is the stores' bytes summed up, a store's bytes are its
entries' sizes summed up, and its recency and expiry records are exactly one
for each entry. After a `set` the store fits its own limits. The shared
budget is kept too, if every entry takes space, unless the loop that makes
room evicted an entry in each of its ten thousand rounds. -/
theorem used_le_of_set {limitBytes : Nat} {ops : List (CacheOp P)}
    (h : Run CacheStep (Registry.new limitBytes) ops r) :
    r.Inv ∧ ∀ (i : Nat) (key : String) (payload : P) (size : Nat) (ttl now : Int),
      i < r.stores.length →
      (∀ s, (r.perform (.set i key payload size ttl now)).stores[i]? = some s →
        (∀ max, s.limits.maxEntries = some max → s.entries.size ≤ max)
          ∧ ∀ max, s.limits.maxBytes = some max → s.bytes ≤ max)
      ∧ ((∀ j key' entry, r.Holds j key' entry → 0 < entry.size) → 0 < size →
          (r.perform (.set i key payload size ttl now)).usedBytes
              ≤ (r.perform (.set i key payload size ttl now)).limitBytes
            ∨ (r.perform (.set i key payload size ttl now)).evictions
              = (r.store i key payload size ttl now).evictions + 10000) := by
  have hinv := inv_of_run h
  refine ⟨hinv, fun i key payload size ttl now hi => ?_⟩
  obtain ⟨-, hfits, hlimit, hends⟩ := set_spec hinv i key payload size ttl now hi
  constructor
  · intro s hs
    have hover := hfits s hs
    unfold Store.overLimits at hover
    rw [Bool.or_eq_false_iff] at hover
    constructor
    · intro max hmax
      simpa [hmax] using hover.1
    · intro max hmax
      simpa [hmax] using hover.2
  · intro hpos hsize
    show (r.set i key payload size ttl now).usedBytes ≤ (r.set i key payload size ttl now).limitBytes
      ∨ (r.set i key payload size ttl now).evictions = _
    rw [hlimit]
    refine hends fun j key' entry hholds => ?_
    rcases holds_store hinv payload size ttl now hholds with hold | hnew
    · exact hpos j key' entry hold
    · rw [hnew]
      exact hsize

/-- A second value of three bytes, after one of two, under a budget of four. -/
theorem used_le_of_second_set :
    ((Registry.new 4 : Registry Unit).perform (.set 0 "a" () 2 5 0)).Inv
      ∧ ((((Registry.new 4 : Registry Unit).perform (.set 0 "a" () 2 5 0)).perform
            (.set 1 "b" () 3 5 1)).usedBytes
          ≤ (((Registry.new 4 : Registry Unit).perform (.set 0 "a" () 2 5 0)).perform
            (.set 1 "b" () 3 5 1)).limitBytes
        ∨ (((Registry.new 4 : Registry Unit).perform (.set 0 "a" () 2 5 0)).perform
            (.set 1 "b" () 3 5 1)).evictions
          = (((Registry.new 4 : Registry Unit).perform (.set 0 "a" () 2 5 0)).store
            1 "b" () 3 5 1).evictions + 10000) := by
  have hrun : Run CacheStep (Registry.new 4 : Registry Unit) [.set 0 "a" () 2 5 0]
      ((Registry.new 4 : Registry Unit).perform (.set 0 "a" () 2 5 0)) := .single rfl
  obtain ⟨hinv, hset⟩ := used_le_of_set hrun
  have hlength : 1 < ((Registry.new 4 : Registry Unit).perform (.set 0 "a" () 2 5 0)).stores.length := by
    have hnew := store_spec (inv_new 4 : (Registry.new 4 : Registry Unit).Inv) 0 "a" () 2 5 0
    have hshrinks := (ensureCapacityLoop_spec hnew.1 0 capacityRounds).2.1
    have hcount := hshrinks.length.trans hnew.2.2.2
    have hset : 1 < (ensureCapacityLoop 0 capacityRounds
        ((Registry.new 4 : Registry Unit).store 0 "a" () 2 5 0)).stores.length := by
      rw [hcount]
      decide
    exact hset
  refine ⟨hinv, (hset 1 "b" () 3 5 1 hlength).2 (fun j key entry hholds => ?_) (by decide)⟩
  rcases holds_set (inv_new 4) () 2 5 0 (show _ from hholds) with hold | hsize
  · exact absurd hold (not_holds_new 4 j key entry)
  · rw [hsize]
    decide

/-! ## A large value on many small ones -/

/-- An eviction leaves the other entries. -/
theorem holds_evict_of_ne (h : r.Holds i key entry) {j : Nat} {key' : String}
    (hne : (i, key) ≠ (j, key')) (count : Bool) : (r.evict j key' count).Holds i key entry := by
  rcases evict_cases r j key' count with heq | ⟨u, entry', hu, -, heq⟩
  · rw [heq]
    exact h
  · obtain ⟨s, hs, he⟩ := h
    rw [heq]
    have hj : j < r.stores.length := (List.getElem?_eq_some_iff.mp hu).1
    by_cases hij : i = j
    · subst hij
      obtain rfl : s = u := Option.some.inj (hs.symm.trans hu)
      refine ⟨s.without key' entry', List.getElem?_set_self hj, ?_⟩
      show (s.entries.erase key')[key]? = some entry
      grind
    · exact ⟨s, (List.getElem?_set_ne (Ne.symm hij)).trans hs, he⟩

/-- One entry stands on others of one byte each, all of them less recent, and
nothing is due. -/
structure Crowded (r : Registry P) (now : Int) (i : Nat) (key : String) (entry : CacheEntry P) :
    Prop where
  inv : r.Inv
  due : ∀ j, r.NothingDue j now
  holds : r.Holds i key entry
  others : ∀ (j : Nat) (key' : String) (entry' : CacheEntry P), r.Holds j key' entry' →
    (j, key') ≠ (i, key) → entry'.size = 1 ∧ entry'.accessedAt < entry.accessedAt

/-- While more than the large entry is used, the least recent entry is a small
one. -/
theorem Crowded.small_of_isOldest {now : Int} (h : r.Crowded now i key entry)
    (hused : entry.size < r.usedBytes) {stamp j : Nat} {key' : String} {entry' : CacheEntry P}
    (hold : r.IsOldest (List.range r.stores.length) stamp j key' entry') :
    (j, key') ≠ (i, key) := by
  obtain ⟨hback, -, hgone⟩ := evict_of_holds h.inv h.holds
  obtain ⟨j₁, key₁, entry₁, hholds⟩ :=
    exists_holds_of_used (inv_evict h.inv i key true) (by omega)
  have hne : (j₁, key₁) ≠ (i, key) := by
    rintro ⟨⟩
    exact hgone ⟨entry₁, hholds⟩
  have hholds := hholds.of_shrinks (shrinks_evict r i key true)
  have hless := (h.others j₁ key₁ entry₁ hholds hne).2
  have hleast := hold.least j₁ (List.mem_range.mpr hholds.lt) key₁ entry₁ hholds
  rintro ⟨⟩
  obtain ⟨s, hs, he⟩ := h.holds
  obtain ⟨s', hs', he'⟩ := hold.holds
  obtain rfl : s = s' := Option.some.inj (hs.symm.trans hs')
  obtain rfl : entry = entry' := Option.some.inj (he.symm.trans he')
  rw [← hold.accessed] at hleast
  omega

/-- Evicting a small entry keeps the crowd. -/
theorem Crowded.evict {now : Int} (h : r.Crowded now i key entry) {j : Nat} {key' : String}
    (hne : (j, key') ≠ (i, key)) : (r.evict j key' true).Crowded now i key entry where
  inv := inv_evict h.inv j key' true
  due := by
    intro k
    refine (nothingDue_iff (inv_evict h.inv j key' true) k now).mpr fun key'' entry'' hholds => ?_
    exact (nothingDue_iff h.inv k now).mp (h.due k) key'' entry''
      (hholds.of_shrinks (shrinks_evict r j key' true))
  holds := holds_evict_of_ne h.holds (Ne.symm hne) true
  others := fun j' key'' entry'' hholds =>
    h.others j' key'' entry'' (hholds.of_shrinks (shrinks_evict r j key' true))

/-- **A round gives back one byte** as long as small entries are left. -/
theorem Crowded.used_le {now : Int} (h : r.Crowded now i key entry) (rounds : Nat)
    (hused : entry.size + rounds ≤ r.usedBytes) :
    r.usedBytes ≤ (ensureCapacityLoop now rounds r).usedBytes + rounds := by
  induction rounds generalizing r with
  | zero => exact le_rfl
  | succ rounds ih =>
    unfold ensureCapacityLoop
    split
    · rw [removeAllExpired_of_nothingDue h.due]
      dsimp only
      split
      · omega
      · obtain ⟨hsame, hsome, -⟩ := oldestOf_spec h.inv h.due (List.range r.stores.length)
        generalize oldestOf now (List.range r.stores.length) r = found at *
        obtain ⟨r₁, candidate⟩ := found
        obtain rfl : r₁ = r := hsame
        cases candidate with
        | none => exact Nat.le_add_right ..
        | some candidate =>
          obtain ⟨stamp, j, key'⟩ := candidate
          obtain ⟨entry', hold⟩ := hsome stamp j key' rfl
          have hne := h.small_of_isOldest (by omega) hold
          obtain ⟨hback, -, -⟩ := evict_of_holds h.inv hold.holds
          have hsize := (h.others j key' entry' hold.holds hne).1
          dsimp only
          split
          · omega
          · have hrest := ih (h.evict hne) (by omega)
            omega
    · omega

/-- A new key that fits, in a store without limits of its own, is put in and
nothing else happens. -/
theorem store_of_fits (h : r.Inv) {now ttl : Int} (hdue : ∀ j, r.NothingDue j now)
    (hs : r.stores[i]? = some s) (hlimits : s.limits = {}) (hkey : s.entries[key]? = none)
    (httl : 0 < ttl) (payload : P) (size : Nat) :
    r.store i key payload size ttl now = r.insertNew i s key payload size ttl now := by
  have hi : i < r.stores.length := (List.getElem?_eq_some_iff.mp hs).1
  have hinv := inv_insertNew h hs hkey payload size ttl now
  have hdue' : (r.insertNew i s key payload size ttl now).NothingDue i now := by
    refine (nothingDue_iff hinv i now).mpr fun key' entry hholds => ?_
    rcases holds_insertNew hs payload size ttl now hholds with ⟨hold, -⟩ | ⟨-, -, -, hexpires, -⟩
    · exact (nothingDue_iff h i now).mp (hdue i) key' entry hold
    · rw [hexpires]
      omega
  have htrim : (r.insertNew i s key payload size ttl now).trimToLocalLimits i now
      = r.insertNew i s key payload size ttl now := by
    unfold trimToLocalLimits
    generalize ((r.insertNew i s key payload size ttl now).stores[i]?.map fun s =>
      s.entries.size).getD 0 = rounds
    cases rounds with
    | zero => rfl
    | succ rounds =>
      unfold trimLoop
      have hstore : (r.insertNew i s key payload size ttl now).stores[i]?.any Store.overLimits
          = false := by
        show ((r.stores.set i _)[i]?).any Store.overLimits = false
        rw [List.getElem?_set_self hi]
        simp [Store.overLimits, Store.with_, hlimits]
      simp only [hstore]
      rfl
  have hevict : r.evict i key false = r := evict_of_none (by rw [hs]; exact hkey) false
  unfold store
  rw [hevict]
  dsimp only
  rw [hs]
  show ((r.insertNew i s key payload size ttl now).removeExpired i now).trimToLocalLimits i now = _
  rw [removeExpired_of_nothingDue hdue', htrim]

theorem ensureCapacityLoop_of_le {now : Int} (h : r.usedBytes ≤ r.limitBytes) (rounds : Nat) :
    ensureCapacityLoop now rounds r = r := by
  cases rounds with
  | zero => rfl
  | succ rounds =>
    unfold ensureCapacityLoop
    exact if_neg (not_lt.mpr h)

end Registry

/-- The keys of the small values. -/
def smallKey (n : Nat) : String := String.ofList (List.replicate n 'a')

theorem smallKey_injective : Function.Injective smallKey := by
  intro m n h
  have hlist := String.ofList_injective h
  simpa using congrArg List.length hlist

/-- Values of one byte under different keys, one after another. -/
def smallSets (n : Nat) : List (CacheOp Unit) :=
  (List.range n).map fun m => .set 0 (smallKey m) () 1 1 0

/-- The registry once `n` small values are stored. -/
structure Filled (limitBytes n : Nat) (r : Registry Unit) : Prop where
  inv : r.Inv
  used : r.usedBytes = n
  limit : r.limitBytes = limitBytes
  first : ∃ s : Store Unit, r.stores[0]? = some s ∧ s.limits = ({} : Limits)
  entries : ∀ (i : Nat) (key : String) (entry : CacheEntry Unit), r.Holds i key entry →
    (∃ m < n, key = smallKey m) ∧ entry.size = 1 ∧ 0 < entry.expiresAt

namespace Filled

variable {limitBytes n : Nat} {r : Registry Unit}

theorem nothingDue (h : Filled limitBytes n r) (j : Nat) : r.NothingDue j 0 :=
  (Registry.nothingDue_iff h.inv j 0).mpr fun key entry hholds => (h.entries j key entry hholds).2.2

/-- The next key is a new one. -/
theorem free (h : Filled limitBytes n r) {s : Store Unit} {i : Nat} (hs : r.stores[i]? = some s) :
    s.entries[smallKey n]? = none := by
  cases he : s.entries[smallKey n]? with
  | none => rfl
  | some entry =>
    obtain ⟨⟨m, hm, hkey⟩, -⟩ := h.entries i (smallKey n) entry ⟨s, hs, he⟩
    exact absurd (smallKey_injective hkey) (by omega)

/-- The next value, of any size, is put in before room is made for it. -/
theorem store_eq (h : Filled limitBytes n r) {s : Store Unit} (hs : r.stores[0]? = some s)
    (hlimits : s.limits = {}) (size : Nat) :
    r.store 0 (smallKey n) () size 1 0 = r.insertNew 0 s (smallKey n) () size 1 0 :=
  Registry.store_of_fits h.inv h.nothingDue hs hlimits (h.free hs) (by decide) () size

theorem step (h : Filled limitBytes n r) (hn : n < limitBytes) :
    Filled limitBytes (n + 1) (r.perform (.set 0 (smallKey n) () 1 1 0)) := by
  obtain ⟨s, hs, hlimits⟩ := h.first
  have hi : 0 < r.stores.length := (List.getElem?_eq_some_iff.mp hs).1
  have hset : r.set 0 (smallKey n) () 1 1 0 = r.insertNew 0 s (smallKey n) () 1 1 0 := by
    unfold Registry.set
    dsimp only
    rw [if_pos hi, h.store_eq hs hlimits]
    refine Registry.ensureCapacityLoop_of_le ?_ _
    show r.usedBytes + 1 ≤ r.limitBytes
    rw [h.used, h.limit]
    omega
  have hperform : r.perform (.set 0 (smallKey n) () 1 1 0)
      = { r.insertNew 0 s (smallKey n) () 1 1 0 with dropped := [] } := by
    show ({ r.set 0 (smallKey n) () 1 1 0 with dropped := [] } : Registry Unit) = _
    rw [hset]
  have hinv := Registry.inv_insertNew h.inv hs (h.free hs) () 1 1 0
  rw [hperform]
  refine ⟨⟨hinv.used, hinv.stores⟩, congrArg (· + 1) h.used, h.limit,
    ⟨_, List.getElem?_set_self hi, hlimits⟩, fun i key entry hholds => ?_⟩
  have hholds : (r.insertNew 0 s (smallKey n) () 1 1 0).Holds i key entry := hholds
  rcases Registry.holds_insertNew hs () 1 1 0 hholds with ⟨hold, -⟩ | ⟨-, rfl, hsize, hexpires, -⟩
  · obtain ⟨⟨m, hm, hkey⟩, hrest⟩ := h.entries i key entry hold
    exact ⟨⟨m, by omega, hkey⟩, hrest⟩
  · exact ⟨⟨n, by omega, rfl⟩, hsize, by omega⟩

/-- A large value on the small ones is the crowd's. -/
theorem crowded (h : Filled limitBytes n r) {s : Store Unit} (hs : r.stores[0]? = some s)
    (size : Nat) :
    (r.insertNew 0 s (smallKey n) () size 1 0).Crowded 0 0 (smallKey n)
      { payload := ()
        size := size
        expiresAt := 1
        storedAt := r.access + 1
        accessedAt := r.access + 1 } where
  inv := Registry.inv_insertNew h.inv hs (h.free hs) () size 1 0
  due := by
    intro j
    have hinv := Registry.inv_insertNew h.inv hs (h.free hs) () size 1 0
    refine (Registry.nothingDue_iff hinv j 0).mpr fun key entry hholds => ?_
    rcases Registry.holds_insertNew hs () size 1 0 hholds with ⟨hold, -⟩ | ⟨-, -, -, hexpires, -⟩
    · exact (h.entries j key entry hold).2.2
    · omega
  holds := by
    have hi : 0 < r.stores.length := (List.getElem?_eq_some_iff.mp hs).1
    refine ⟨_, List.getElem?_set_self hi, ?_⟩
    show (s.entries.insert (smallKey n) _)[smallKey n]? = _
    rw [HashMap.getElem?_insert_self]
    rfl
  others := by
    intro j key entry hholds hne
    rcases Registry.holds_insertNew hs () size 1 0 hholds with ⟨hold, -⟩ | ⟨rfl, rfl, -⟩
    · obtain ⟨u, hu, he⟩ := hold
      have hstamp := ((h.inv.stores j u hu).stamps key entry he).1
      exact ⟨(h.entries j key entry ⟨u, hu, he⟩).2.1, by dsimp only; omega⟩
    · exact absurd rfl hne

end Filled

theorem filled_new (limitBytes : Nat) : Filled limitBytes 0 (Registry.new limitBytes) where
  inv := Registry.inv_new limitBytes
  used := rfl
  limit := rfl
  first := ⟨_, rfl, rfl⟩
  entries := fun i key entry hholds =>
    absurd hholds (Registry.not_holds_new limitBytes i key entry)

/-- As many small values as fit can be stored. -/
theorem exists_filled (limitBytes n : Nat) (hn : n ≤ limitBytes) :
    ∃ r, Run CacheStep (Registry.new limitBytes) (smallSets n) r ∧ Filled limitBytes n r := by
  induction n with
  | zero => exact ⟨_, .nil _, filled_new limitBytes⟩
  | succ n ih =>
    obtain ⟨r, hrun, hfilled⟩ := ih (by omega)
    refine ⟨_, ?_, hfilled.step (by omega)⟩
    have hsets : smallSets (n + 1) = smallSets n ++ [.set 0 (smallKey n) () 1 1 0] := by
      simp [smallSets, List.range_succ]
    rw [hsets]
    exact hrun.append (.single rfl)

/-- **A large value on many small ones exceeds the budget**: 10001 values of
one byte fill a budget of 10001 bytes, and the loop that makes room for one
of 10001 bytes gives up with one of them left. -/
theorem used_exceeds_limit_of_many_small :
    ∃ r : Registry Unit,
      Run CacheStep (Registry.new 10001)
        (smallSets 10001 ++ [.set 0 (smallKey 10001) () 10001 1 0]) r
        ∧ r.limitBytes < r.usedBytes := by
  obtain ⟨r, hrun, hfilled⟩ := exists_filled 10001 10001 le_rfl
  refine ⟨_, hrun.append (.single rfl), ?_⟩
  obtain ⟨s, hs, hlimits⟩ := hfilled.first
  have hi : 0 < r.stores.length := (List.getElem?_eq_some_iff.mp hs).1
  have hset : r.set 0 (smallKey 10001) () 10001 1 0
      = (r.insertNew 0 s (smallKey 10001) () 10001 1 0).ensureCapacity 0 := by
    unfold Registry.set
    dsimp only
    rw [if_pos hi, hfilled.store_eq hs hlimits]
  have hcrowded := hfilled.crowded hs 10001
  have hbefore : (r.insertNew 0 s (smallKey 10001) () 10001 1 0).usedBytes = 20002 := by
    show r.usedBytes + 10001 = 20002
    rw [hfilled.used]
  have hroom : 10001 + 10000 ≤ (r.insertNew 0 s (smallKey 10001) () 10001 1 0).usedBytes := by
    rw [hbefore]
    omega
  have hused := hcrowded.used_le Registry.capacityRounds hroom
  have hlimit := (Registry.ensureCapacityLoop_spec hcrowded.inv 0 Registry.capacityRounds).2.1.limit
  show (r.set 0 (smallKey 10001) () 10001 1 0).limitBytes
    < (r.set 0 (smallKey 10001) () 10001 1 0).usedBytes
  rw [hset]
  unfold Registry.ensureCapacity
  have hlimit' : (r.insertNew 0 s (smallKey 10001) () 10001 1 0).limitBytes = 10001 := hfilled.limit
  rw [hlimit, hlimit']
  rw [hbefore] at hused
  unfold Registry.capacityRounds at hused ⊢
  omega

end Foreseerr

import Mathlib
import Foreseerr.MapWeight
import Foreseerr.Run

/-!
# The shared cache budget

`memcache.rs` keeps the response caches of the API clients and the library
artwork as stores under one budget of bytes. A store holds its entries by
key, and beside them the keys by last access and by expiry; a registry holds
the stores with the bytes they use together.

The four structures of a store and the registry's counter say the same thing
several times over. `Registry.Inv` is what they agree on, and every operation
keeps it. The loops that make room are modelled with a bound on their
rounds: the local one needs no more than the entries it starts with, which
is proved, and the shared one stops after ten thousand rounds by its own
decision, so a `set` may leave the budget exceeded.
-/

namespace Foreseerr

open Std (HashMap TreeMap LawfulEqCmp)
open MapWeight

/-! ## Stores -/

/-- `Limits`: a store's own caps. -/
structure Limits where
  maxEntries : Option Nat := none
  maxBytes : Option Nat := none
deriving DecidableEq, Repr

/-- The caches, in the order `getAllCaches()` lists them. -/
inductive CacheId
  | tmdb
  | tmdbScan
  | radarr
  | sonarr
  | rt
  | imdb
  | mdblist
  | github
  | plexTv
  | plexWatchlist
  | tvdb
  | trakt
  | anilist
deriving DecidableEq, Repr

namespace CacheId

/-- `ALL`. -/
def all : List CacheId :=
  [tmdb, tmdbScan, radarr, sonarr, rt, imdb, mdblist, github, plexTv, plexWatchlist, tvdb,
    trakt, anilist]

/-- `max_entries`. -/
def maxEntries : CacheId → Option Nat
  | tmdbScan => some 2000
  | _ => none

end CacheId

/-- `libraryimagecache::LIMITS`. -/
def artworkLimits : Limits := { maxEntries := some 256, maxBytes := some (64 * 1024 * 1024) }

variable {P : Type}

/-- A stored value of type `P`. Its stamp of storing orders entries that
expire at the same instant. -/
structure CacheEntry (P : Type) where
  payload : P
  size : Nat
  expiresAt : Int
  storedAt : Nat
  accessedAt : Nat
deriving DecidableEq, Repr

/-- The order of the expiry records: by instant, then by stamp. -/
abbrev expiryOrder : Int × Nat → Int × Nat → Ordering :=
  compareLex (compareOn Prod.fst) (compareOn Prod.snd)

instance : LawfulEqCmp expiryOrder where
  eq_of_compare {a b} h := by
    simp only [expiryOrder, compareLex, compareOn, Ordering.then_eq_eq,
      Std.compare_eq_iff_eq] at h
    exact Prod.ext h.1 h.2
  compare_self := by simp [expiryOrder, compareLex, compareOn]

/-- `Store`: the entries, the keys by last access and by expiry. -/
structure Store (P : Type) where
  entries : HashMap String (CacheEntry P) := ∅
  recency : TreeMap Nat String := ∅
  expiry : TreeMap (Int × Nat) String expiryOrder := ∅
  bytes : Nat := 0
  hits : Nat := 0
  misses : Nat := 0
  limits : Limits := {}

/-- `Registry`: every store under the shared budget. -/
structure Registry (P : Type) where
  stores : List (Store P)
  usedBytes : Nat := 0
  evictions : Nat := 0
  access : Nat := 0
  limitBytes : Nat
  dropped : List P := []

/-- `Registry::new`. -/
def Registry.new (limitBytes : Nat) : Registry P :=
  let api := CacheId.all.map fun id => ({ maxEntries := id.maxEntries } : Limits)
  { stores := (api ++ [artworkLimits]).map fun limits => { limits := limits }
    limitBytes := limitBytes }

/-! ## The operations -/

/-- The store without an entry it holds under a key. -/
def Store.without (s : Store P) (key : String) (entry : CacheEntry P) : Store P :=
  { s with
    entries := s.entries.erase key
    recency := s.recency.erase entry.accessedAt
    expiry := s.expiry.erase (entry.expiresAt, entry.storedAt)
    bytes := s.bytes - entry.size }

/-- The store with an entry, stored and accessed under one stamp. -/
def Store.with_ (s : Store P) (key : String) (entry : CacheEntry P) : Store P :=
  { s with
    entries := s.entries.insert key entry
    recency := s.recency.insert entry.accessedAt key
    expiry := s.expiry.insert (entry.expiresAt, entry.storedAt) key
    bytes := s.bytes + entry.size }

/-- The store after a hit on an entry, under a new stamp. -/
def Store.touch (s : Store P) (key : String) (entry : CacheEntry P) (access : Nat) : Store P :=
  { s with
    entries := s.entries.insert key { entry with accessedAt := access }
    recency :=
      match s.recency[entry.accessedAt]? with
      | some key => (s.recency.erase entry.accessedAt).insert access key
      | none => s.recency }

/-- Whether a store exceeds a cap of its own. -/
def Store.overLimits (s : Store P) : Bool :=
  s.limits.maxEntries.any (fun max => s.entries.size > max)
    || s.limits.maxBytes.any (fun max => s.bytes > max)

namespace Registry

/-- `evict`. -/
def evict (r : Registry P) (store : Nat) (key : String) (count : Bool) : Registry P :=
  match r.stores[store]? with
  | none => r
  | some s =>
    match s.entries[key]? with
    | none => r
    | some entry =>
      { r with
        stores := r.stores.set store (s.without key entry)
        usedBytes := r.usedBytes - entry.size
        evictions := if count then r.evictions + 1 else r.evictions
        dropped := r.dropped ++ [entry.payload] }

/-- `soonest.remove()`: the expiry record alone. -/
def popExpiry (r : Registry P) (store : Nat) (s : Store P) (soonest : Int × Nat) : Registry P :=
  { r with stores := r.stores.set store { s with expiry := s.expiry.erase soonest } }

/-- The loop of `remove_expired`, for a number of rounds. -/
def removeExpiredLoop (store : Nat) (now : Int) : Nat → Registry P → Registry P
  | 0, r => r
  | rounds + 1, r =>
    match r.stores[store]? with
    | none => r
    | some s =>
      match firstEntry s.expiry with
      | none => r
      | some (soonest, key) =>
        if soonest.1 > now then r
        else
          removeExpiredLoop store now rounds ((r.popExpiry store s soonest).evict store key false)

/-- `remove_expired`: each round takes an expiry record out, so their number
bounds the rounds. -/
def removeExpired (r : Registry P) (store : Nat) (now : Int) : Registry P :=
  let rounds := (r.stores[store]?.map fun s => s.expiry.size).getD 0
  removeExpiredLoop store now rounds r

/-- `oldest()[0]` of one store, after dropping expired entries. -/
def oldest (r : Registry P) (store : Nat) (now : Int) : Registry P × Option (Nat × String) :=
  let r := r.removeExpired store now
  (r, r.stores[store]?.bind fun s => firstEntry s.recency)

/-- `bump`. -/
def bump (r : Registry P) (store : Nat) (hit : Bool) : Registry P :=
  match r.stores[store]? with
  | none => r
  | some s =>
    let s' := if hit then { s with hits := s.hits + 1 } else { s with misses := s.misses + 1 }
    { r with stores := r.stores.set store s' }

/-- `get`. -/
def get (r : Registry P) (store : Nat) (key : String) (now : Int) : Registry P × Option P :=
  match r.stores[store]?.bind fun s => s.entries[key]? with
  | none => (r.bump store false, none)
  | some entry =>
    if entry.expiresAt ≤ now then
      ((r.evict store key false).bump store false, none)
    else
      let access := r.access + 1
      let r := ({ r with access := access }).bump store true
      match r.stores[store]? with
      | none => (r, none)
      | some s =>
        ({ r with stores := r.stores.set store (s.touch key entry access) }, some entry.payload)

/-- The loop of `trim_to_local_limits`, for a number of rounds. -/
def trimLoop (store : Nat) (now : Int) : Nat → Registry P → Registry P
  | 0, r => r
  | rounds + 1, r =>
    if r.stores[store]?.any Store.overLimits then
      match r.oldest store now with
      | (r, none) => r
      | (r, some (_, key)) => trimLoop store now rounds (r.evict store key true)
    else r

/-- `trim_to_local_limits`: each round evicts an entry, so their number bounds
the rounds. -/
def trimToLocalLimits (r : Registry P) (store : Nat) (now : Int) : Registry P :=
  let rounds := (r.stores[store]?.map fun s => s.entries.size).getD 0
  trimLoop store now rounds r

/-- `remove_expired` of every store. -/
def removeAllExpired (r : Registry P) (now : Int) : Registry P :=
  (List.range r.stores.length).foldl (fun r store => r.removeExpired store now) r

/-- `min_by_key` of two candidates, the first on a tie. -/
def minByAccess : Option (Nat × Nat × String) → Option (Nat × Nat × String) →
    Option (Nat × Nat × String)
  | none, other => other
  | some first, none => some first
  | some first, some other => some (if other.1 < first.1 then other else first)

/-- The least recently used entry of some stores, the first of them on a tie. -/
def oldestOf (now : Int) : List Nat → Registry P → Registry P × Option (Nat × Nat × String)
  | [], r => (r, none)
  | store :: stores, r =>
    let own := r.oldest store now
    let rest := oldestOf now stores own.1
    (rest.1, minByAccess (own.2.map fun (accessed, key) => (accessed, store, key)) rest.2)

/-- `CAPACITY_ROUNDS`. -/
def capacityRounds : Nat := 10000

/-- The loop of `ensure_capacity`, for the rounds that remain. -/
def ensureCapacityLoop (now : Int) : Nat → Registry P → Registry P
  | 0, r => r
  | remaining + 1, r =>
    if r.usedBytes > r.limitBytes then
      let before := r.usedBytes
      let r := r.removeAllExpired now
      if r.usedBytes ≤ r.limitBytes then r
      else
        match oldestOf now (List.range r.stores.length) r with
        | (r, none) => r
        | (r, some (_, store, key)) =>
          let r := r.evict store key true
          if r.usedBytes ≥ before then r else ensureCapacityLoop now remaining r
    else r

/-- `ensure_capacity`. -/
def ensureCapacity (r : Registry P) (now : Int) : Registry P :=
  ensureCapacityLoop now capacityRounds r

/-- `set` up to the store's own limits. -/
def store (r : Registry P) (store : Nat) (key : String) (payload : P) (size : Nat)
    (ttl now : Int) : Registry P :=
  let r := r.evict store key false
  let stamp := r.access + 1
  let r := { r with access := stamp }
  match r.stores[store]? with
  | none => { r with dropped := r.dropped ++ [payload] }
  | some s =>
    let entry : CacheEntry P :=
      { payload := payload
        size := size
        expiresAt := now + ttl
        storedAt := stamp
        accessedAt := stamp }
    let r := { r with
      stores := r.stores.set store (s.with_ key entry)
      usedBytes := r.usedBytes + size }
    (r.removeExpired store now).trimToLocalLimits store now

/-- `set`. -/
def set (r : Registry P) (store : Nat) (key : String) (payload : P) (size : Nat)
    (ttl now : Int) : Registry P :=
  let stored := r.store store key payload size ttl now
  if store < r.stores.length then stored.ensureCapacity now else stored

/-- `flush`. -/
def flush (r : Registry P) (store : Nat) : Registry P :=
  let keys := (r.stores[store]?.map fun s => s.entries.keys).getD []
  keys.foldl (fun r key => r.evict store key false) r

end Registry

/-- The operations on the caches. -/
inductive CacheOp (P : Type)
  | set (store : Nat) (key : String) (payload : P) (size : Nat) (ttl now : Int)
  | get (store : Nat) (key : String) (now : Int)
  | delete (store : Nat) (key : String)
  | flush (store : Nat)
  /-- `keys` and `artwork_count`, which drop what expired first. -/
  | sweep (store : Nat) (now : Int)

/-- An operation under the lock; what it evicted is dropped when the lock is
released. -/
def Registry.perform (r : Registry P) (op : CacheOp P) : Registry P :=
  let r := match op with
    | .set store key payload size ttl now => r.set store key payload size ttl now
    | .get store key now => (r.get store key now).1
    | .delete store key => r.evict store key false
    | .flush store => r.flush store
    | .sweep store now => r.removeExpired store now
  { r with dropped := [] }

/-- One operation, as a step relation. -/
def CacheStep (r : Registry P) (op : CacheOp P) (t : Registry P) : Prop := t = r.perform op

/-! ## The invariant -/

/-- **What a store's structures agree on**: the bytes are the entries' sizes
summed up, and the recency and the expiry records are exactly one for each
entry. No stamp is later than the registry's. -/
structure Store.Inv (s : Store P) (access : Nat) : Prop where
  bytes : s.bytes = weight CacheEntry.size s.entries
  recency : ∀ (stamp : Nat) (key : String), s.recency[stamp]? = some key
    ↔ ∃ entry : CacheEntry P, s.entries[key]? = some entry ∧ entry.accessedAt = stamp
  expiry : ∀ (record : Int × Nat) (key : String), s.expiry[record]? = some key
    ↔ ∃ entry : CacheEntry P,
      s.entries[key]? = some entry ∧ (entry.expiresAt, entry.storedAt) = record
  stamps : ∀ (key : String) (entry : CacheEntry P), s.entries[key]? = some entry →
    entry.accessedAt ≤ access ∧ entry.storedAt ≤ access

/-- A registry holds an entry under a key of one of its stores. -/
def Registry.Holds (r : Registry P) (i : Nat) (key : String) (entry : CacheEntry P) : Prop :=
  ∃ s, r.stores[i]? = some s ∧ s.entries[key]? = some entry

/-- **The invariant of the registry**: every store's structures agree, and the
shared counter is the stores' bytes summed up. -/
structure Registry.Inv (r : Registry P) : Prop where
  used : r.usedBytes = (r.stores.map (·.bytes)).sum
  stores : ∀ (i : Nat) (s : Store P), r.stores[i]? = some s → s.Inv r.access

namespace Store

variable {s : Store P} {access : Nat} {key : String} {entry : CacheEntry P}

theorem inv_empty (limits : Limits) (access : Nat) :
    Store.Inv ({ limits := limits } : Store P) access where
  bytes := by simp
  recency := by simp
  expiry := by simp
  stamps := by simp

/-- Taking an entry out keeps the invariant, also of a store that already lost
the entry's expiry record. -/
theorem inv_without (h : s.Inv access) (he : s.entries[key]? = some entry)
    {expiry : TreeMap (Int × Nat) String expiryOrder}
    (hexpiry : ∀ record, record ≠ (entry.expiresAt, entry.storedAt) →
      expiry[record]? = s.expiry[record]?) :
    (Store.without { s with expiry := expiry } key entry).Inv access where
  bytes := by
    show s.bytes - entry.size = weight CacheEntry.size (s.entries.erase key)
    rw [h.bytes, weight_eq_add_erase CacheEntry.size he, Nat.add_sub_cancel_left]
  recency := by
    intro stamp key'
    show (s.recency.erase entry.accessedAt)[stamp]? = some key'
      ↔ ∃ e : CacheEntry P, (s.entries.erase key)[key']? = some e ∧ e.accessedAt = stamp
    have hrec := h.recency stamp key'
    have hown := (h.recency entry.accessedAt key).mpr ⟨entry, he, rfl⟩
    grind
  expiry := by
    intro record key'
    show (expiry.erase (entry.expiresAt, entry.storedAt))[record]? = some key'
      ↔ ∃ e : CacheEntry P, (s.entries.erase key)[key']? = some e ∧ (e.expiresAt, e.storedAt) = record
    have hexp := h.expiry record key'
    have hown := (h.expiry (entry.expiresAt, entry.storedAt) key).mpr ⟨entry, he, rfl⟩
    have hkeep := hexpiry record
    grind
  stamps := by
    intro key' entry' he'
    have he' : (s.entries.erase key)[key']? = some entry' := he'
    refine h.stamps key' entry' ?_
    grind

/-- A later stamp keeps the invariant. -/
theorem inv_mono (h : s.Inv access) {access' : Nat} (hle : access ≤ access') :
    s.Inv access' :=
  ⟨h.bytes, h.recency, h.expiry, fun key entry he =>
    ⟨(h.stamps key entry he).1.trans hle, (h.stamps key entry he).2.trans hle⟩⟩

/-- Putting an entry in under a new key and the next stamp keeps the
invariant. -/
theorem inv_with (h : s.Inv access) (hkey : s.entries[key]? = none)
    (haccessed : entry.accessedAt = access + 1) (hstored : entry.storedAt = access + 1) :
    (s.with_ key entry).Inv (access + 1) where
  bytes := by
    show s.bytes + entry.size = weight CacheEntry.size (s.entries.insert key entry)
    have hnew : key ∉ s.entries := by grind
    rw [weight_insert_of_notMem CacheEntry.size hnew, h.bytes, Nat.add_comm]
  recency := by
    intro stamp key'
    show (s.recency.insert entry.accessedAt key)[stamp]? = some key'
      ↔ ∃ e : CacheEntry P, (s.entries.insert key entry)[key']? = some e ∧ e.accessedAt = stamp
    have hrec := h.recency stamp key'
    have hstamps := h.stamps key'
    grind
  expiry := by
    intro record key'
    show (s.expiry.insert (entry.expiresAt, entry.storedAt) key)[record]? = some key'
      ↔ ∃ e : CacheEntry P,
        (s.entries.insert key entry)[key']? = some e ∧ (e.expiresAt, e.storedAt) = record
    have hexp := h.expiry record key'
    have hstamps := h.stamps key'
    grind
  stamps := by
    intro key' entry' he'
    have he' : (s.entries.insert key entry)[key']? = some entry' := he'
    have hstamps := h.stamps key'
    grind

/-- A hit keeps the invariant: the entry's recency record moves to the new
stamp. -/
theorem inv_touch (h : s.Inv access) (he : s.entries[key]? = some entry) :
    (s.touch key entry (access + 1)).Inv (access + 1) where
  bytes := by
    show s.bytes = weight CacheEntry.size
      (s.entries.insert key { entry with accessedAt := access + 1 })
    have hsize : CacheEntry.size { entry with accessedAt := access + 1 } = entry.size := rfl
    rw [weight_insert_of_eq CacheEntry.size he hsize, h.bytes]
  recency := by
    intro stamp key'
    have hown := (h.recency entry.accessedAt key).mpr ⟨entry, he, rfl⟩
    unfold touch
    simp only [hown]
    have hrec := h.recency stamp key'
    have hstamps := h.stamps key'
    grind
  expiry := by
    intro record key'
    show s.expiry[record]? = some key' ↔ ∃ e : CacheEntry P,
      (s.entries.insert key { entry with accessedAt := access + 1 })[key']? = some e
        ∧ (e.expiresAt, e.storedAt) = record
    have hexp := h.expiry record key'
    grind
  stamps := by
    intro key' entry' he'
    have he' : (s.entries.insert key { entry with accessedAt := access + 1 })[key']?
        = some entry' := he'
    have hstamps := h.stamps key'
    grind

/-- A store without recency records holds nothing. -/
theorem entries_of_firstEntry_recency (h : s.Inv access) (hnone : firstEntry s.recency = none)
    (key : String) : s.entries[key]? = none := by
  cases he : s.entries[key]? with
  | none => rfl
  | some entry =>
    have hrec := (h.recency entry.accessedAt key).mpr ⟨entry, he, rfl⟩
    rw [getElem?_of_firstEntry_eq_none hnone] at hrec
    cases hrec

/-- The least recent key is an entry's. -/
theorem entry_of_firstEntry_recency (h : s.Inv access) {stamp : Nat}
    (hfirst : firstEntry s.recency = some (stamp, key)) :
    ∃ entry, s.entries[key]? = some entry ∧ entry.accessedAt = stamp :=
  (h.recency stamp key).mp (firstEntry_spec hfirst).1

end Store

/-! ## Taking entries out -/

/-- **A registry that lost entries**, and nothing else that the operations
look at. -/
structure Registry.Shrinks (r r' : Registry P) : Prop where
  limit : r'.limitBytes = r.limitBytes
  access : r'.access = r.access
  length : r'.stores.length = r.stores.length
  used : r'.usedBytes ≤ r.usedBytes
  stores : ∀ (i : Nat) (s' : Store P), r'.stores[i]? = some s' →
    ∃ s, r.stores[i]? = some s ∧ s'.limits = s.limits ∧ s'.entries.size ≤ s.entries.size
      ∧ s'.bytes ≤ s.bytes
      ∧ ∀ (key : String) (entry : CacheEntry P), s'.entries[key]? = some entry →
        s.entries[key]? = some entry

namespace Registry

variable {r r' r'' : Registry P} {i : Nat} {s : Store P} {key : String} {entry : CacheEntry P}

theorem Shrinks.refl (r : Registry P) : Shrinks r r :=
  ⟨rfl, rfl, rfl, le_rfl, fun _ s hs => ⟨s, hs, rfl, le_rfl, le_rfl, fun _ _ he => he⟩⟩

theorem Shrinks.trans (h : Shrinks r r') (h' : Shrinks r' r'') : Shrinks r r'' where
  limit := h'.limit.trans h.limit
  access := h'.access.trans h.access
  length := h'.length.trans h.length
  used := h'.used.trans h.used
  stores := by
    intro i s'' hs''
    obtain ⟨s', hs', hlimits', hsize', hbytes', hentries'⟩ := h'.stores i s'' hs''
    obtain ⟨s, hs, hlimits, hsize, hbytes, hentries⟩ := h.stores i s' hs'
    exact ⟨s, hs, hlimits'.trans hlimits, hsize'.trans hsize, hbytes'.trans hbytes,
      fun key entry he => hentries key entry (hentries' key entry he)⟩

/-- The registry with an entry of one store taken out; `expiry` is the expiry
map it is taken out of. -/
def takeOut (r : Registry P) (i : Nat) (s : Store P)
    (expiry : TreeMap (Int × Nat) String expiryOrder) (key : String) (entry : CacheEntry P)
    (evictions : Nat) : Registry P :=
  { r with
    stores := r.stores.set i (Store.without { s with expiry := expiry } key entry)
    usedBytes := r.usedBytes - entry.size
    evictions := evictions
    dropped := r.dropped ++ [entry.payload] }

theorem getElem?_set_store {t : Store P} {j : Nat} {u : Store P}
    (h : (r.stores.set i t)[j]? = some u) (hs : r.stores[i]? = some s) :
    (j = i ∧ u = t) ∨ (j ≠ i ∧ r.stores[j]? = some u) := by
  rw [List.getElem?_set] at h
  have hi : i < r.stores.length := (List.getElem?_eq_some_iff.mp hs).1
  by_cases hj : i = j
  · subst hj
    rw [if_pos rfl, if_pos hi] at h
    exact .inl ⟨rfl, (Option.some.inj h).symm⟩
  · rw [if_neg hj] at h
    exact .inr ⟨Ne.symm hj, h⟩

/-- Taking an entry out keeps the invariant. -/
theorem inv_takeOut (h : r.Inv) (hs : r.stores[i]? = some s)
    (he : s.entries[key]? = some entry) {expiry : TreeMap (Int × Nat) String expiryOrder}
    (hexpiry : ∀ record, record ≠ (entry.expiresAt, entry.storedAt) →
      expiry[record]? = s.expiry[record]?) (evictions : Nat) :
    (r.takeOut i s expiry key entry evictions).Inv where
  used := by
    show r.usedBytes - entry.size
      = ((r.stores.set i (Store.without { s with expiry := expiry } key entry)).map (·.bytes)).sum
    have hsum := sum_map_set (·.bytes) (Store.without { s with expiry := expiry } key entry) hs
    have hle : entry.size ≤ s.bytes := by
      rw [(h.stores i s hs).bytes, weight_eq_add_erase CacheEntry.size he]
      exact Nat.le_add_right ..
    have hbytes : (Store.without { s with expiry := expiry } key entry).bytes
        = s.bytes - entry.size := rfl
    rw [hbytes] at hsum
    rw [h.used]
    omega
  stores := by
    intro j u hu
    rcases getElem?_set_store hu hs with ⟨rfl, rfl⟩ | ⟨-, hu⟩
    · exact Store.inv_without (h.stores j s hs) he hexpiry
    · exact h.stores j u hu

/-- Taking an entry out shrinks the registry. -/
theorem shrinks_takeOut (hs : r.stores[i]? = some s)
    (expiry : TreeMap (Int × Nat) String expiryOrder) (key : String) (entry : CacheEntry P)
    (evictions : Nat) : Shrinks r (r.takeOut i s expiry key entry evictions) where
  limit := rfl
  access := rfl
  length := List.length_set
  used := Nat.sub_le ..
  stores := by
    intro j u hu
    rcases getElem?_set_store hu hs with ⟨rfl, rfl⟩ | ⟨-, hu⟩
    · refine ⟨s, hs, rfl, HashMap.size_erase_le, Nat.sub_le .., fun key' entry' he' => ?_⟩
      have he' : (s.entries.erase key)[key']? = some entry' := he'
      grind
    · exact ⟨u, hu, rfl, le_rfl, le_rfl, fun _ _ he => he⟩

theorem evict_eq (hs : r.stores[i]? = some s) (he : s.entries[key]? = some entry) (count : Bool) :
    r.evict i key count
      = r.takeOut i s s.expiry key entry (if count then r.evictions + 1 else r.evictions) := by
  unfold evict takeOut
  simp only [hs, he]

theorem evict_of_none (h : (r.stores[i]?.bind fun s => s.entries[key]?) = none) (count : Bool) :
    r.evict i key count = r := by
  unfold evict
  cases hs : r.stores[i]? with
  | none => rfl
  | some s =>
    have he : s.entries[key]? = none := by simpa [hs] using h
    simp only [he]

/-- **What an eviction does**: nothing, or it takes an entry out. -/
theorem evict_cases (r : Registry P) (i : Nat) (key : String) (count : Bool) :
    r.evict i key count = r
      ∨ ∃ s entry, r.stores[i]? = some s ∧ s.entries[key]? = some entry
        ∧ r.evict i key count
          = r.takeOut i s s.expiry key entry (if count then r.evictions + 1 else r.evictions) := by
  cases h : r.stores[i]?.bind fun s => s.entries[key]? with
  | none => exact .inl (evict_of_none h count)
  | some entry =>
    obtain ⟨s, hs, he⟩ := Option.bind_eq_some_iff.mp h
    exact .inr ⟨s, entry, hs, he, evict_eq hs he count⟩

theorem inv_evict (h : r.Inv) (i : Nat) (key : String) (count : Bool) :
    (r.evict i key count).Inv := by
  rcases evict_cases r i key count with heq | ⟨s, entry, hs, he, heq⟩
  · rw [heq]
    exact h
  · rw [heq]
    exact inv_takeOut h hs he (fun _ _ => rfl) _

theorem shrinks_evict (r : Registry P) (i : Nat) (key : String) (count : Bool) :
    Shrinks r (r.evict i key count) := by
  rcases evict_cases r i key count with heq | ⟨s, entry, hs, -, heq⟩
  · rw [heq]
    exact Shrinks.refl r
  · rw [heq]
    exact shrinks_takeOut hs ..

/-- An expired entry is taken out: its expiry record first, and then what an
eviction still finds. -/
theorem evict_popExpiry (h : r.Inv) (hs : r.stores[i]? = some s) {soonest : Int × Nat}
    (hfirst : firstEntry s.expiry = some (soonest, key)) :
    ∃ entry, s.entries[key]? = some entry ∧ (entry.expiresAt, entry.storedAt) = soonest
      ∧ (r.popExpiry i s soonest).evict i key false
        = r.takeOut i s (s.expiry.erase soonest) key entry r.evictions := by
  obtain ⟨entry, he, hsoonest⟩ := ((h.stores i s hs).expiry soonest key).mp (firstEntry_spec hfirst).1
  refine ⟨entry, he, hsoonest, ?_⟩
  have hi : i < r.stores.length := (List.getElem?_eq_some_iff.mp hs).1
  have hpopped : (r.popExpiry i s soonest).stores[i]?
      = some { s with expiry := s.expiry.erase soonest } := by
    show (r.stores.set i _)[i]? = _
    rw [List.getElem?_set_self hi]
  rw [evict_eq hpopped he]
  simp [takeOut, popExpiry, List.set_set]

/-! ## Expiry -/

/-- A registry that lost expired entries: it keeps the invariant and counts no
evictions. -/
structure Sweeps (r r' : Registry P) : Prop where
  inv : r'.Inv
  shrinks : Shrinks r r'
  evictions : r'.evictions = r.evictions

theorem Sweeps.refl (h : r.Inv) : Sweeps r r := ⟨h, Shrinks.refl r, rfl⟩

theorem Sweeps.trans (h : Sweeps r r') (h' : Sweeps r' r'') : Sweeps r r'' :=
  ⟨h'.inv, h.shrinks.trans h'.shrinks, h'.evictions.trans h.evictions⟩

/-- No expiry record of a store is due. -/
def NothingDue (r : Registry P) (i : Nat) (now : Int) : Prop :=
  ∀ s, r.stores[i]? = some s →
    ∀ (record : Int × Nat) (key : String), s.expiry[record]? = some key → now < record.1

/-- The first expiry record is the soonest. -/
theorem lt_of_firstEntry_expiry {now : Int} {soonest : Int × Nat}
    (hfirst : firstEntry s.expiry = some (soonest, key)) (hlt : now < soonest.1)
    {record : Int × Nat} {key' : String} (hrecord : s.expiry[record]? = some key') :
    now < record.1 := by
  have hmem : record ∈ s.expiry := by grind
  have hle := (firstEntry_spec hfirst).2 record hmem
  have hle : soonest.1 ≤ record.1 := by
    rcases lt_trichotomy soonest.1 record.1 with hlt | heq | hgt
    · exact hlt.le
    · exact heq.le
    · have hcmp : compare soonest.1 record.1 = .gt := compare_gt_iff_gt.mpr hgt
      simp [expiryOrder, compareLex, compareOn, hcmp] at hle
  exact hlt.trans_le hle

/-- **Expired entries go, and only they**: after as many rounds as there are
records nothing is due. -/
theorem removeExpiredLoop_spec (h : r.Inv) (i : Nat) (now : Int) (rounds : Nat) :
    Sweeps r (removeExpiredLoop i now rounds r)
      ∧ ((∀ s, r.stores[i]? = some s → s.expiry.size ≤ rounds) →
        NothingDue (removeExpiredLoop i now rounds r) i now) := by
  induction rounds generalizing r with
  | zero =>
    refine ⟨Sweeps.refl h, fun hrounds s hs record key hrecord => ?_⟩
    have hsize : s.expiry.size = 0 := Nat.le_zero.mp (hrounds s hs)
    have hempty : s.expiry.isEmpty = true := by simp [TreeMap.isEmpty_eq_size_eq_zero, hsize]
    rw [TreeMap.getElem?_of_isEmpty hempty] at hrecord
    cases hrecord
  | succ rounds ih =>
    unfold removeExpiredLoop
    cases hs : r.stores[i]? with
    | none =>
      refine ⟨Sweeps.refl h, fun _ s hs' => ?_⟩
      rw [hs] at hs'
      cases hs'
    | some s =>
      dsimp only
      cases hfirst : firstEntry s.expiry with
      | none =>
        refine ⟨Sweeps.refl h, fun _ s' hs' record key hrecord => ?_⟩
        rw [hs] at hs'
        obtain rfl := Option.some.inj hs'
        rw [getElem?_of_firstEntry_eq_none hfirst] at hrecord
        cases hrecord
      | some first =>
        obtain ⟨soonest, key⟩ := first
        dsimp only
        split
        · next hdue =>
          refine ⟨Sweeps.refl h, fun _ s' hs' record key' hrecord => ?_⟩
          rw [hs] at hs'
          obtain rfl := Option.some.inj hs'
          exact lt_of_firstEntry_expiry hfirst hdue hrecord
        · obtain ⟨entry, he, hsoonest, heq⟩ := evict_popExpiry h hs hfirst
          have hinv : (r.takeOut i s (s.expiry.erase soonest) key entry r.evictions).Inv :=
            inv_takeOut h hs he (fun record hne => by grind) _
          obtain ⟨hsweeps, hdue⟩ := ih hinv
          rw [heq]
          refine ⟨Sweeps.trans ⟨hinv, shrinks_takeOut hs .., rfl⟩ hsweeps, fun hrounds => ?_⟩
          refine hdue fun u hu => ?_
          -- the round took the first record out
          have hsize := hrounds s rfl
          rcases getElem?_set_store hu hs with ⟨-, rfl⟩ | ⟨hne, -⟩
          · show ((s.expiry.erase soonest).erase (entry.expiresAt, entry.storedAt)).size ≤ rounds
            have hmem : soonest ∈ s.expiry := by
              have := (firstEntry_spec hfirst).1
              grind
            grind
          · exact absurd rfl hne

theorem sweeps_removeExpired (h : r.Inv) (i : Nat) (now : Int) :
    Sweeps r (r.removeExpired i now) :=
  (removeExpiredLoop_spec h i now _).1

/-- **`remove_expired` finishes**: nothing of the store is due after it. -/
theorem nothingDue_removeExpired (h : r.Inv) (i : Nat) (now : Int) :
    NothingDue (r.removeExpired i now) i now := by
  refine (removeExpiredLoop_spec h i now _).2 fun s hs => ?_
  rw [hs]
  exact le_rfl

theorem sweeps_foldl_removeExpired (h : r.Inv) (now : Int) (stores : List Nat) :
    Sweeps r (stores.foldl (fun r store => r.removeExpired store now) r) := by
  induction stores generalizing r with
  | nil => exact Sweeps.refl h
  | cons store stores ih =>
    have hfirst := sweeps_removeExpired h store now
    exact hfirst.trans (ih hfirst.inv)

theorem sweeps_removeAllExpired (h : r.Inv) (now : Int) : Sweeps r (r.removeAllExpired now) :=
  sweeps_foldl_removeExpired h now _

/-! ## A store's own limits -/

/-- The least recent entry of some stores. -/
structure IsOldest (r : Registry P) (stores : List Nat) (stamp i : Nat) (key : String)
    (entry : CacheEntry P) : Prop where
  holds : r.Holds i key entry
  accessed : entry.accessedAt = stamp
  least : ∀ j ∈ stores, ∀ (key' : String) (entry' : CacheEntry P), r.Holds j key' entry' →
    stamp ≤ entry'.accessedAt

/-- `oldest` finds the least recent entry, unless the store holds nothing. -/
theorem oldest_spec (h : r.Inv) (i : Nat) (now : Int) :
    Sweeps r (r.oldest i now).1
      ∧ (∀ stamp key, (r.oldest i now).2 = some (stamp, key) →
          ∃ entry, IsOldest (r.oldest i now).1 [i] stamp i key entry)
      ∧ ((r.oldest i now).2 = none →
          ∀ (key : String) (entry : CacheEntry P), ¬ (r.oldest i now).1.Holds i key entry) := by
  have hsweeps := sweeps_removeExpired h i now
  refine ⟨hsweeps, fun stamp key hsome => ?_, ?_⟩
  · obtain ⟨s, hs, hfirst⟩ := Option.bind_eq_some_iff.mp hsome
    have hinv := hsweeps.inv.stores i s hs
    obtain ⟨entry, he, hstamp⟩ := Store.entry_of_firstEntry_recency hinv hfirst
    refine ⟨entry, ⟨s, hs, he⟩, hstamp, fun j hj key' entry' hholds => ?_⟩
    obtain rfl := List.mem_singleton.mp hj
    obtain ⟨s', hs', he'⟩ := hholds
    obtain rfl : s = s' := Option.some.inj (hs.symm.trans hs')
    have hrec := (hinv.recency entry'.accessedAt key').mpr ⟨entry', he', rfl⟩
    have hmem : entry'.accessedAt ∈ s.recency := by grind
    exact Nat.isLE_compare.mp ((firstEntry_spec hfirst).2 _ hmem)
  · rintro hnone key entry ⟨s, hs, he⟩
    have hfirst : firstEntry s.recency = none := by
      have hs : (r.removeExpired i now).stores[i]? = some s := hs
      have hnone : ((r.removeExpired i now).stores[i]?.bind fun s => firstEntry s.recency) = none :=
        hnone
      simpa [hs] using hnone
    have hempty := Store.entries_of_firstEntry_recency (hsweeps.inv.stores i s hs) hfirst key
    rw [hempty] at he
    cases he

/-- A store that holds nothing is within its limits. -/
theorem not_overLimits_of_empty {access : Nat} (h : s.Inv access)
    (hempty : ∀ key : String, s.entries[key]? = none) : s.overLimits = false := by
  have hisEmpty : s.entries.isEmpty = true := by
    refine HashMap.isEmpty_iff_forall_not_mem.mpr fun key hkey => ?_
    rw [HashMap.mem_iff_isSome_getElem?, hempty key] at hkey
    cases hkey
  have hsize : s.entries.size = 0 := by
    simpa [HashMap.isEmpty_eq_size_eq_zero] using hisEmpty
  have hbytes : s.bytes = 0 := h.bytes.trans (weight_eq_zero_of_forall _ hempty)
  simp [Store.overLimits, hsize, hbytes]

/-- A store that lost entries stays within its limits. -/
theorem not_overLimits_of_le {s' : Store P} (h : s.overLimits = false)
    (hlimits : s'.limits = s.limits) (hsize : s'.entries.size ≤ s.entries.size)
    (hbytes : s'.bytes ≤ s.bytes) : s'.overLimits = false := by
  unfold Store.overLimits at *
  rw [hlimits]
  cases hmax : s.limits.maxEntries <;> cases hmaxBytes : s.limits.maxBytes <;>
    simp [hmax, hmaxBytes] at h ⊢ <;> omega

/-- A store within its own limits, if there is one at the index. -/
def FitsLocally (r : Registry P) (i : Nat) : Prop :=
  ∀ s, r.stores[i]? = some s → s.overLimits = false

theorem FitsLocally.of_shrinks (h : r.FitsLocally i) (hshrinks : Shrinks r r') :
    r'.FitsLocally i := by
  intro s' hs'
  obtain ⟨s, hs, hlimits, hsize, hbytes, -⟩ := hshrinks.stores i s' hs'
  exact not_overLimits_of_le (h s hs) hlimits hsize hbytes

/-- Evicting an entry leaves its store with fewer of them. -/
theorem size_evict {rounds : Nat} (hholds : r.Holds i key entry) (count : Bool)
    (hrounds : ∀ s, r.stores[i]? = some s → s.entries.size ≤ rounds + 1) {u : Store P}
    (hu : (r.evict i key count).stores[i]? = some u) : u.entries.size ≤ rounds := by
  obtain ⟨s, hs, he⟩ := hholds
  rw [evict_eq hs he] at hu
  have hsize := hrounds s hs
  have hmem : key ∈ s.entries := by grind
  rcases getElem?_set_store hu hs with ⟨-, rfl⟩ | ⟨hne, -⟩
  · show (s.entries.erase key).size ≤ rounds
    grind
  · exact absurd rfl hne

/-- **Trimming makes a store fit**: after as many rounds as it had entries it
is within its own limits. -/
theorem trimLoop_spec (h : r.Inv) (i : Nat) (now : Int) (rounds : Nat)
    (hrounds : ∀ s, r.stores[i]? = some s → s.entries.size ≤ rounds) :
    (trimLoop i now rounds r).Inv ∧ Shrinks r (trimLoop i now rounds r)
      ∧ (trimLoop i now rounds r).FitsLocally i := by
  induction rounds generalizing r with
  | zero =>
    refine ⟨h, Shrinks.refl r, fun s hs => not_overLimits_of_empty (h.stores i s hs) fun key => ?_⟩
    have hsize : s.entries.size = 0 := Nat.le_zero.mp (hrounds s hs)
    have hempty : s.entries.isEmpty = true := by simp [HashMap.isEmpty_eq_size_eq_zero, hsize]
    exact HashMap.getElem?_of_isEmpty hempty
  | succ rounds ih =>
    unfold trimLoop
    split
    · obtain ⟨hsweeps, hsome, hnone⟩ := oldest_spec h i now
      generalize r.oldest i now = found at *
      obtain ⟨r₁, first⟩ := found
      cases first with
      | none =>
        refine ⟨hsweeps.inv, hsweeps.shrinks, fun s hs => ?_⟩
        refine not_overLimits_of_empty (hsweeps.inv.stores i s hs) fun key => ?_
        cases he : s.entries[key]? with
        | none => rfl
        | some entry => exact absurd ⟨s, hs, he⟩ (hnone rfl key entry)
      | some first =>
        obtain ⟨stamp, key⟩ := first
        obtain ⟨entry, hold⟩ := hsome stamp key rfl
        dsimp only at hold hsweeps ⊢
        have hrounds' : ∀ s, r₁.stores[i]? = some s → s.entries.size ≤ rounds + 1 := by
          intro s hs
          obtain ⟨s₀, hs₀, -, hle, -⟩ := hsweeps.shrinks.stores i s hs
          exact hle.trans (hrounds s₀ hs₀)
        obtain ⟨hinv, hshrinks, hfits⟩ := ih (inv_evict hsweeps.inv i key true)
          fun u hu => size_evict hold.holds true hrounds' hu
        exact ⟨hinv, (hsweeps.shrinks.trans (shrinks_evict r₁ i key true)).trans hshrinks, hfits⟩
    · next hfits =>
      refine ⟨h, Shrinks.refl r, fun s hs => ?_⟩
      simpa [hs] using hfits

theorem trimToLocalLimits_spec (h : r.Inv) (i : Nat) (now : Int) :
    (r.trimToLocalLimits i now).Inv ∧ Shrinks r (r.trimToLocalLimits i now)
      ∧ (r.trimToLocalLimits i now).FitsLocally i := by
  refine trimLoop_spec h i now _ fun s hs => ?_
  rw [hs]
  exact le_rfl

/-! ## The shared budget -/

/-- Whoever uses bytes holds an entry. -/
theorem exists_holds_of_used (h : r.Inv) (hused : 0 < r.usedBytes) :
    ∃ i key entry, r.Holds i key entry := by
  by_contra hnone
  have hbytes : ∀ b ∈ r.stores.map (·.bytes), b = 0 := by
    intro b hb
    obtain ⟨s, hs, rfl⟩ := List.mem_map.mp hb
    obtain ⟨i, hi⟩ := List.mem_iff_getElem?.mp hs
    refine (h.stores i s hi).bytes.trans (weight_eq_zero_of_forall _ fun key => ?_)
    cases he : s.entries[key]? with
    | none => rfl
    | some entry => exact absurd ⟨i, key, entry, s, hi, he⟩ hnone
  rw [h.used, List.sum_eq_zero hbytes] at hused
  exact absurd hused (lt_irrefl 0)

theorem Holds.of_shrinks (hshrinks : Shrinks r r') (h : r'.Holds i key entry) :
    r.Holds i key entry := by
  obtain ⟨s', hs', he'⟩ := h
  obtain ⟨s, hs, -, -, -, hentries⟩ := hshrinks.stores i s' hs'
  exact ⟨s, hs, hentries key entry he'⟩

/-- An index of a held entry is a store's. -/
theorem Holds.lt (h : r.Holds i key entry) : i < r.stores.length := by
  obtain ⟨s, hs, -⟩ := h
  exact (List.getElem?_eq_some_iff.mp hs).1

/-- Nothing of the registry is due, in terms of its entries. -/
theorem nothingDue_iff (h : r.Inv) (i : Nat) (now : Int) :
    r.NothingDue i now
      ↔ ∀ (key : String) (entry : CacheEntry P), r.Holds i key entry → now < entry.expiresAt := by
  constructor
  · rintro hdue key entry ⟨s, hs, he⟩
    have hrecord := ((h.stores i s hs).expiry (entry.expiresAt, entry.storedAt) key).mpr
      ⟨entry, he, rfl⟩
    exact hdue s hs _ key hrecord
  · intro hdue s hs record key hrecord
    obtain ⟨entry, he, rfl⟩ := ((h.stores i s hs).expiry record key).mp hrecord
    exact hdue key entry ⟨s, hs, he⟩

theorem NothingDue.of_sweeps {now : Int} (hdue : r.NothingDue i now) (h : r.Inv)
    (hsweeps : Sweeps r r') : r'.NothingDue i now :=
  (nothingDue_iff hsweeps.inv i now).mpr fun key entry hholds =>
    (nothingDue_iff h i now).mp hdue key entry (hholds.of_shrinks hsweeps.shrinks)

theorem removeExpiredLoop_of_nothingDue {now : Int} (hdue : r.NothingDue i now)
    (rounds : Nat) : removeExpiredLoop i now rounds r = r := by
  cases rounds with
  | zero => rfl
  | succ rounds =>
    unfold removeExpiredLoop
    split
    · rfl
    · next s hs =>
      split
      · rfl
      · next soonest key hfirst => exact if_pos (hdue s hs soonest key (firstEntry_spec hfirst).1)

/-- Where nothing is due, nothing goes. -/
theorem removeExpired_of_nothingDue {now : Int} (hdue : r.NothingDue i now) :
    r.removeExpired i now = r :=
  removeExpiredLoop_of_nothingDue hdue _

theorem removeAllExpired_of_nothingDue {now : Int} (hdue : ∀ i, r.NothingDue i now) :
    r.removeAllExpired now = r := by
  have hfold : ∀ stores : List Nat,
      stores.foldl (fun r store => r.removeExpired store now) r = r := by
    intro stores
    induction stores with
    | nil => rfl
    | cons store stores ih => rw [List.foldl_cons, removeExpired_of_nothingDue (hdue store), ih]
  exact hfold _

/-- `remove_expired` of every store finishes everywhere. -/
theorem nothingDue_foldl_removeExpired (h : r.Inv) (now : Int) (stores : List Nat)
    (hi : i ∈ stores) :
    (stores.foldl (fun r store => r.removeExpired store now) r).NothingDue i now := by
  induction stores generalizing r with
  | nil => cases hi
  | cons store stores ih =>
    have hfirst := sweeps_removeExpired h store now
    rcases List.mem_cons.mp hi with rfl | hi
    · exact (nothingDue_removeExpired h i now).of_sweeps hfirst.inv
        (sweeps_foldl_removeExpired hfirst.inv now stores)
    · exact ih hfirst.inv hi

theorem nothingDue_removeAllExpired (h : r.Inv) (now : Int) (i : Nat) :
    (r.removeAllExpired now).NothingDue i now := by
  have hsweeps := sweeps_removeAllExpired h now
  refine (nothingDue_iff hsweeps.inv i now).mpr fun key entry hholds => ?_
  have hi : i < r.stores.length := (hholds.of_shrinks hsweeps.shrinks).lt
  exact (nothingDue_iff hsweeps.inv i now).mp
    (nothingDue_foldl_removeExpired h now _ (List.mem_range.mpr hi)) key entry hholds

/-- Where nothing is due, `oldest` only looks. -/
theorem oldest_of_nothingDue {now : Int} (hdue : r.NothingDue i now) : (r.oldest i now).1 = r :=
  removeExpired_of_nothingDue hdue

theorem minByAccess_eq_some {own rest : Option (Nat × Nat × String)} {c : Nat × Nat × String}
    (h : minByAccess own rest = some c) :
    (own = some c ∧ ∀ d, rest = some d → c.1 ≤ d.1)
      ∨ (rest = some c ∧ ∀ d, own = some d → c.1 ≤ d.1) := by
  match own, rest with
  | none, rest => exact .inr ⟨h, by simp⟩
  | some first, none => exact .inl ⟨h, by simp⟩
  | some first, some other =>
    simp only [minByAccess, Option.some.injEq] at h
    split at h
    · next hlt => exact .inr ⟨by rw [h], by rintro d ⟨⟩; rw [← h]; exact hlt.le⟩
    · next hle => exact .inl ⟨by rw [h], by rintro d ⟨⟩; rw [← h]; exact not_lt.mp hle⟩

theorem minByAccess_eq_none {own rest : Option (Nat × Nat × String)}
    (h : minByAccess own rest = none) : own = none ∧ rest = none := by
  match own, rest with
  | none, rest => exact ⟨rfl, h⟩
  | some first, none => cases h
  | some first, some other => cases h

/-- `oldestOf` finds a least recent entry among the stores given, unless they
hold nothing. -/
theorem oldestOf_spec (h : r.Inv) {now : Int} (hdue : ∀ i, r.NothingDue i now)
    (stores : List Nat) :
    (oldestOf now stores r).1 = r
      ∧ (∀ stamp i key, (oldestOf now stores r).2 = some (stamp, i, key) →
          ∃ entry, IsOldest r stores stamp i key entry)
      ∧ ((oldestOf now stores r).2 = none →
          ∀ i ∈ stores, ∀ (key : String) (entry : CacheEntry P), ¬ r.Holds i key entry) := by
  induction stores with
  | nil => exact ⟨rfl, by rintro stamp i key ⟨⟩, by simp⟩
  | cons store stores ih =>
    obtain ⟨hrest, hsomeRest, hnoneRest⟩ := ih
    obtain ⟨-, hsomeOwn, hnoneOwn⟩ := oldest_spec h store now
    have hown := oldest_of_nothingDue (hdue store)
    rw [hown] at hsomeOwn hnoneOwn
    have heq : oldestOf now (store :: stores) r
        = ((oldestOf now stores r).1,
          minByAccess ((r.oldest store now).2.map fun (accessed, key) => (accessed, store, key))
            (oldestOf now stores r).2) := by
      show (let rest := oldestOf now stores (r.oldest store now).1; (rest.1, _)) = _
      rw [hown]
    rw [heq]
    refine ⟨hrest, fun stamp i key hfound => ?_, fun hnone => ?_⟩
    · -- the other candidate, or that there is none, bounds the other stores
      rcases minByAccess_eq_some hfound with ⟨hfirst, hle⟩ | ⟨hother, hle⟩
      · obtain ⟨⟨accessed, key₁⟩, hown₁, hsame⟩ := Option.map_eq_some_iff.mp hfirst
        obtain ⟨rfl, rfl, rfl⟩ : accessed = stamp ∧ store = i ∧ key₁ = key := by simpa using hsame
        obtain ⟨entry, hold⟩ := hsomeOwn accessed key₁ hown₁
        refine ⟨entry, hold.holds, hold.accessed, fun j hj key' entry' hholds => ?_⟩
        rcases List.mem_cons.mp hj with rfl | hj
        · exact hold.least j List.mem_cons_self key' entry' hholds
        · cases hrest₂ : (oldestOf now stores r).2 with
          | none => exact absurd hholds (hnoneRest hrest₂ j hj key' entry')
          | some other =>
            obtain ⟨entry₂, hold₂⟩ := hsomeRest other.1 other.2.1 other.2.2 hrest₂
            exact (hle other hrest₂).trans (hold₂.least j hj key' entry' hholds)
      · obtain ⟨entry, hold⟩ := hsomeRest stamp i key hother
        refine ⟨entry, hold.holds, hold.accessed, fun j hj key' entry' hholds => ?_⟩
        rcases List.mem_cons.mp hj with rfl | hj
        · cases hown₂ : (r.oldest j now).2 with
          | none => exact absurd hholds (hnoneOwn hown₂ key' entry')
          | some own =>
            obtain ⟨entry₁, hold₁⟩ := hsomeOwn own.1 own.2 hown₂
            have hle := hle (own.1, j, own.2) (by rw [hown₂]; rfl)
            exact hle.trans (hold₁.least j List.mem_cons_self key' entry' hholds)
        · exact hold.least j hj key' entry' hholds
    · obtain ⟨hown₂, hrest₂⟩ := minByAccess_eq_none hnone
      rw [Option.map_eq_none_iff] at hown₂
      intro j hj key entry
      rcases List.mem_cons.mp hj with rfl | hj
      · exact hnoneOwn hown₂ key entry
      · exact hnoneRest hrest₂ j hj key entry

end Registry

end Foreseerr

import Mathlib.Data.List.AList
import Mathlib.Data.List.Count
import Mathlib.Data.List.Sublists

/-!
# A bounded cache that drops what was used least recently

`BoundedLru` keeps, next to the entries, a queue of marks: a key and the stamp it was used
at. Using a key again leaves its old mark where it is, so that an eviction skips marks that
no entry has the stamp of, and `compact` drops them once they pile up. Expired entries are
dropped without their marks.

Whatever was called before, the entries are those of a cache that drops the least recently
used (`BoundedLru.is_lru`). What is said about a sequence of calls is said by the positions
of the calls in it.
-/

namespace Foreseerr

/-- What is kept for a key. -/
structure Slot (V : Type*) where
  value : V
  expires : Option Nat
  stamp : Nat
deriving DecidableEq, Repr

/-- `BoundedLru`. Times are in some unit of a clock. -/
structure BoundedLru (K V : Type*) [DecidableEq K] where
  max : Nat
  ttl : Option Nat
  entries : AList (fun _ : K => Slot V) := ∅
  /-- Keys by recency, oldest first, with the stamp they were used at. -/
  order : List (K × Nat) := []
  clock : Nat := 0

namespace BoundedLru

variable {K V : Type*} [DecidableEq K]

/-! ## The operations -/

/-- `touch`. The stamp is the new clock. -/
def touch (c : BoundedLru K V) (key : K) : BoundedLru K V :=
  { c with clock := c.clock + 1, order := c.order ++ [(key, c.clock + 1)] }

/-- Whether a mark has the stamp of its entry. -/
def isCurrent (entries : AList (fun _ : K => Slot V)) (mark : K × Nat) : Bool :=
  (entries.lookup mark.1).any (·.stamp = mark.2)

/-- How many marks are left alone. -/
def cap (max : Nat) : Nat := Nat.max (max * 4) 64

/-- `compact`. -/
def compact (c : BoundedLru K V) : BoundedLru K V :=
  if cap c.max < c.order.length then { c with order := c.order.filter (isCurrent c.entries) }
  else c

/-- `get`. -/
def get (c : BoundedLru K V) (key : K) (now : Nat) : BoundedLru K V × Option V :=
  match c.entries.lookup key with
  | none => (c, none)
  | some slot =>
    if slot.expires.any (· ≤ now) then ({ c with entries := c.entries.erase key }, none)
    else
      let c := c.touch key
      (compact { c with entries := c.entries.insert key { slot with stamp := c.clock } },
        some slot.value)

/-- The loop of `set` that drops the oldest entries over the cap. -/
def evict (max : Nat) : AList (fun _ : K => Slot V) → List (K × Nat) →
    AList (fun _ : K => Slot V) × List (K × Nat)
  | entries, [] => (entries, [])
  | entries, mark :: order =>
    if max < entries.keys.length then
      evict max (if isCurrent entries mark then entries.erase mark.1 else entries) order
    else (entries, mark :: order)

/-- `set`. -/
def set (c : BoundedLru K V) (key : K) (value : V) (now : Nat) : BoundedLru K V :=
  let expires := c.ttl.map (now + ·)
  let c := c.touch key
  let (entries, order) := evict c.max (c.entries.insert key ⟨value, expires, c.clock⟩) c.order
  compact { c with entries := entries, order := order }

/-- `clear`. The clock goes on. -/
def clear (c : BoundedLru K V) : BoundedLru K V := { c with entries := ∅, order := [] }

/-! ## Sequences of calls -/

/-- A call. -/
inductive Call (K V : Type*)
  | get (key : K) (now : Nat)
  | set (key : K) (value : V) (now : Nat)
  | clear

/-- What a call leaves. -/
def call (c : BoundedLru K V) : Call K V → BoundedLru K V
  | .get key now => (c.get key now).1
  | .set key value now => c.set key value now
  | .clear => c.clear

section History

variable (max : Nat) (ttl : Option Nat)

/-- The cache after some calls. -/
def after (calls : List (Call K V)) : BoundedLru K V := calls.foldl call { max := max, ttl := ttl }

/-- Whether a call uses a key: one that reads it uses it where it finds it. -/
def Uses (c : BoundedLru K V) (key : K) : Call K V → Prop
  | .get key' now => key' = key ∧ (c.get key now).2.isSome
  | .set key' _ _ => key' = key
  | .clear => False

variable (calls : List (Call K V)) (key : K)

/-- The key was used by the call at a position. -/
def UsedAt (i : Nat) : Prop :=
  ∃ c, calls[i]? = some c ∧ Uses (after max ttl (calls.take i)) key c

/-- The key was evicted by the call at a position: a call that sets a key. -/
def EvictedAt (i : Nat) : Prop :=
  ∃ key' value now, calls[i]? = some (.set key' value now)
    ∧ (key = key' ∨ key ∈ (after max ttl (calls.take i)).entries)
    ∧ key ∉ (after max ttl (calls.take (i + 1))).entries

/-- A call that neither replaces nor takes out what is kept for the key until it expires,
evictions apart. -/
def Spares (expires : Option Nat) : Call K V → Prop
  | .get key' now => key' = key → ¬ expires.any (· ≤ now)
  | .set key' _ _ => key' ≠ key
  | .clear => False

/-- The last value set for the key and when it expires, where nothing has taken it out: it
was not cleared, not evicted, and no call that read it found it expired. -/
def Alive (value : V) (expires : Option Nat) : Prop :=
  ∃ i now, calls[i]? = some (.set key value now) ∧ expires = ttl.map (now + ·)
    ∧ (∀ j, i ≤ j → ¬ EvictedAt max ttl calls key j)
    ∧ ∀ j c, i < j → calls[j]? = some c → Spares key expires c

/-- A key was used since another was last used. -/
def UsedSince (key' : K) : Prop :=
  ∃ i, UsedAt max ttl calls key' i ∧ ∀ j, i ≤ j → ¬ UsedAt max ttl calls key j

/-- **A cache that drops what was used least recently.** -/
structure IsLru : Prop where
  held : (after max ttl calls).entries.keys.length ≤ max
  /-- Exactly one mark matches the stamp of an entry. -/
  marks : ∀ slot, (after max ttl calls).entries.lookup key = some slot →
    (after max ttl calls).order.count (key, slot.stamp) = 1
  queue : (after max ttl calls).order.length ≤ cap max
  /-- The queue is longest before a call compacts it. -/
  touched : ((after max ttl calls).touch key).order.length ≤ cap max + 1
  reads : ∀ now value, ((after max ttl calls).get key now).2 = some value ↔
    ∃ expires, Alive max ttl calls key value expires ∧ ¬ expires.any (· ≤ now)
  /-- What the last call evicts is followed by `max` others. -/
  evicts : ∀ i, i + 1 = calls.length → EvictedAt max ttl calls key i →
    ∃ others : List K, others.Nodup ∧ others.length = max
      ∧ ∀ key' ∈ others, key' ≠ key ∧ key' ∈ (after max ttl calls).entries
        ∧ UsedSince max ttl calls key key'

end History

/-! ## The queue -/

section Queue

variable {entries : AList (fun _ : K => Slot V)} {order : List (K × Nat)} {key : K}

/-- A queue for some entries: its stamps rise, and each entry has its mark. -/
structure Marked (entries : AList (fun _ : K => Slot V)) (order : List (K × Nat)) : Prop where
  rising : order.Pairwise fun a b => a.2 < b.2
  has : ∀ key slot, entries.lookup key = some slot → (key, slot.stamp) ∈ order

theorem isCurrent_iff {mark : K × Nat} :
    isCurrent entries mark = true ↔ ∃ slot, entries.lookup mark.1 = some slot
      ∧ slot.stamp = mark.2 := by
  rw [isCurrent, Option.any_eq_true]
  simp only [decide_eq_true_eq]

theorem Marked.nodup (h : Marked entries order) : order.Nodup :=
  h.rising.imp fun hlt heq => absurd (congrArg Prod.snd heq) hlt.ne

theorem Marked.count (h : Marked entries order) {slot : Slot V}
    (hslot : entries.lookup key = some slot) : order.count (key, slot.stamp) = 1 :=
  List.count_eq_one_of_mem h.nodup (h.has key slot hslot)

/-- The marks that are current are no more than the entries. -/
theorem Marked.length_filter_le (h : Marked entries order) :
    (order.filter (isCurrent entries)).length ≤ entries.keys.length := by
  rw [← List.length_map Prod.fst]
  refine (List.subperm_of_subset ?_ fun key hkey => ?_).length_le
  · rw [List.nodup_map_iff_inj_on (h.nodup.filter _)]
    intro a ha b hb hab
    obtain ⟨slot, hslot, hstamp⟩ := isCurrent_iff.1 (List.mem_filter.1 ha).2
    obtain ⟨slot', hslot', hstamp'⟩ := isCurrent_iff.1 (List.mem_filter.1 hb).2
    rw [hab, hslot'] at hslot
    exact Prod.ext hab (by rw [← hstamp, ← hstamp', Option.some.inj hslot])
  · obtain ⟨mark, hmark, rfl⟩ := List.mem_map.1 hkey
    obtain ⟨slot, hslot, -⟩ := isCurrent_iff.1 (List.mem_filter.1 hmark).2
    rw [← AList.mem_keys, ← AList.lookup_isSome, hslot]
    rfl

theorem Marked.filter (h : Marked entries order) :
    Marked entries (order.filter (isCurrent entries)) where
  rising := h.rising.filter _
  has key slot hslot := List.mem_filter.2 ⟨h.has key slot hslot,
    isCurrent_iff.2 ⟨slot, hslot, rfl⟩⟩

theorem Marked.erase (h : Marked entries order) : Marked (entries.erase key) order where
  rising := h.rising
  has key' slot hslot := by
    have hne : key' ≠ key := by
      rintro rfl
      rw [AList.lookup_erase] at hslot
      cases hslot
    rw [AList.lookup_erase_ne hne] at hslot
    exact h.has key' slot hslot

/-- Using a key with a stamp past those of the queue. -/
theorem Marked.insert (h : Marked entries order) {slot : Slot V}
    (hstamp : ∀ mark ∈ order, mark.2 < slot.stamp) :
    Marked (entries.insert key slot) (order ++ [(key, slot.stamp)]) where
  rising := by
    rw [List.pairwise_append]
    refine ⟨h.rising, List.pairwise_singleton _ _, fun mark hmark new hnew => ?_⟩
    rw [List.mem_singleton.1 hnew]
    exact hstamp mark hmark
  has key' slot' hslot' := by
    by_cases hkey : key' = key
    · subst hkey
      rw [AList.lookup_insert] at hslot'
      cases hslot'
      exact List.mem_append_right _ List.mem_cons_self
    · rw [AList.lookup_insert_ne hkey] at hslot'
      exact List.mem_append_left _ (h.has key' slot' hslot')

theorem mem_of_lookup {slot : Slot V} (h : entries.lookup key = some slot) : key ∈ entries := by
  rw [← AList.lookup_isSome, h]
  rfl

theorem length_keys_erase (h : key ∈ entries) :
    (entries.erase key).keys.length + 1 = entries.keys.length := by
  have hmem : key ∈ entries.keys := AList.mem_keys.1 h
  rw [AList.keys_erase, List.length_erase_of_mem hmem]
  exact Nat.sub_add_cancel (List.length_pos_of_mem hmem)

theorem length_keys_insert {slot : Slot V} (h : key ∈ entries) :
    (entries.insert key slot).keys.length = entries.keys.length := by
  have hmem : key ∈ entries.keys := AList.mem_keys.1 h
  rw [AList.keys_insert, List.length_cons, List.length_erase_of_mem hmem]
  exact Nat.sub_add_cancel (List.length_pos_of_mem hmem)

/-- What evicting leaves: the entries with the latest marks, as many as there may be. -/
structure Evicted (max : Nat) (entries entries' : AList (fun _ : K => Slot V))
    (order order' : List (K × Nat)) : Prop where
  marked : Marked entries' order'
  suffix : order' <:+ order
  kept : ∀ key slot, entries'.lookup key = some slot → entries.lookup key = some slot
  /-- An entry is dropped before all that are kept, and only where `max` are. -/
  dropped : ∀ key slot, entries.lookup key = some slot → key ∉ entries' →
    entries'.keys.length = max ∧
      ∀ key' slot', entries'.lookup key' = some slot' → slot.stamp < slot'.stamp
  held : entries'.keys.length ≤ max

theorem evict_evicted (max : Nat) (h : Marked entries order) :
    Evicted max entries (evict max entries order).1 order (evict max entries order).2 := by
  induction order generalizing entries with
  | nil =>
    have hnone : ∀ key, key ∉ entries := by
      intro key hkey
      obtain ⟨slot, hslot⟩ := Option.isSome_iff_exists.1 (AList.lookup_isSome.2 hkey)
      exact absurd (h.has key slot hslot) List.not_mem_nil
    have hkeys : entries.keys = [] := List.eq_nil_iff_forall_not_mem.2 fun key hkey =>
      hnone key (AList.mem_keys.2 hkey)
    refine ⟨h, List.suffix_rfl, fun _ _ => id, fun key slot hslot => ?_, ?_⟩
    · exact absurd (mem_of_lookup hslot) (hnone key)
    · rw [evict, hkeys]
      exact Nat.zero_le _
  | cons mark order ih =>
    have hrising := List.pairwise_cons.1 h.rising
    rw [evict]
    split
    next hover =>
      by_cases hcurrent : isCurrent entries mark = true
      · rw [if_pos hcurrent]
        obtain ⟨slot, hslot, hstamp⟩ := isCurrent_iff.1 hcurrent
        have hrest : Marked (entries.erase mark.1) order := by
          refine ⟨hrising.2, fun key' slot' hslot' => ?_⟩
          have hmem := h.erase.has key' slot' hslot'
          refine (List.mem_cons.1 hmem).resolve_left fun heq => ?_
          rw [← heq, AList.lookup_erase] at hslot'
          cases hslot'
        have hsub := ih hrest
        have hlookup : ∀ key' slot', (entries.erase mark.1).lookup key' = some slot' →
            entries.lookup key' = some slot' := by
          intro key' slot' hslot'
          by_cases hkey : key' = mark.1
          · rw [hkey, AList.lookup_erase] at hslot'
            cases hslot'
          · rwa [AList.lookup_erase_ne hkey] at hslot'
        refine ⟨hsub.marked, hsub.suffix.trans (List.suffix_cons _ _),
          fun key' slot' hslot' => hlookup _ _ (hsub.kept key' slot' hslot'),
          fun key' slot' hslot' hgone => ?_, hsub.held⟩
        by_cases hkey : key' = mark.1
        · subst hkey
          obtain rfl := Option.some.inj (hslot.symm.trans hslot')
          refine ⟨le_antisymm hsub.held ?_, fun key' slot' hslot' => ?_⟩
          · have hlength := length_keys_erase (mem_of_lookup hslot)
            by_contra hshort
            -- With fewer left than may be, another one was dropped, which takes `max` of them.
            have hfull : ∀ key', key' ∈ entries.erase mark.1 →
                key' ∈ (evict max (entries.erase mark.1) order).1 := by
              intro key' hkey'
              by_contra hgone
              obtain ⟨slot', hslot'⟩ := Option.isSome_iff_exists.1 (AList.lookup_isSome.2 hkey')
              exact hshort (hsub.dropped key' slot' hslot' hgone).1.ge
            have hle : (entries.erase mark.1).keys.length
                ≤ (evict max (entries.erase mark.1) order).1.keys.length :=
              (List.subperm_of_subset (AList.keys_nodup _) fun key' hkey' =>
                AList.mem_keys.1 (hfull key' (AList.mem_keys.2 hkey'))).length_le
            omega
          · rw [hstamp]
            exact hrising.1 _ (hrest.has key' slot' (hsub.kept key' slot' hslot'))
        · exact hsub.dropped key' slot' (by rwa [AList.lookup_erase_ne hkey]) hgone
      · rw [if_neg hcurrent]
        have hrest : Marked entries order := by
          refine ⟨hrising.2, fun key' slot' hslot' => ?_⟩
          refine (List.mem_cons.1 (h.has key' slot' hslot')).resolve_left fun heq => ?_
          exact hcurrent (isCurrent_iff.2 ⟨slot', by rw [← heq]; exact hslot', by rw [← heq]⟩)
        have hsub := ih hrest
        exact ⟨hsub.marked, hsub.suffix.trans (List.suffix_cons _ _), hsub.kept, hsub.dropped,
          hsub.held⟩
    next hover =>
      refine ⟨h, List.suffix_rfl, fun _ _ => id, fun key slot hslot hgone => ?_, not_lt.1 hover⟩
      exact absurd (mem_of_lookup hslot) hgone

end Queue

/-! ## One call -/

section Calls

variable {c : BoundedLru K V} {key key' : K} {value : V} {now : Nat} {slot : Slot V}

/-- What holds of the cache between calls. -/
structure Inv (c : BoundedLru K V) : Prop where
  marked : Marked c.entries c.order
  stamps : ∀ mark ∈ c.order, mark.2 ≤ c.clock
  held : c.entries.keys.length ≤ c.max
  queue : c.order.length ≤ cap c.max

@[simp] theorem compact_entries : c.compact.entries = c.entries := by
  unfold compact
  split <;> rfl

@[simp] theorem compact_clock : c.compact.clock = c.clock := by
  unfold compact
  split <;> rfl

@[simp] theorem compact_max : c.compact.max = c.max := by
  unfold compact
  split <;> rfl

@[simp] theorem compact_ttl : c.compact.ttl = c.ttl := by
  unfold compact
  split <;> rfl

theorem le_cap (max : Nat) : max ≤ cap max :=
  (Nat.le_mul_of_pos_right max (by decide)).trans (Nat.le_max_left _ _)

theorem inv_compact (hmarked : Marked c.entries c.order)
    (hstamps : ∀ mark ∈ c.order, mark.2 ≤ c.clock) (hheld : c.entries.keys.length ≤ c.max) :
    Inv c.compact := by
  unfold compact
  split
  next =>
    exact ⟨hmarked.filter, fun mark hmark => hstamps mark (List.mem_filter.1 hmark).1, hheld,
      hmarked.length_filter_le.trans (hheld.trans (le_cap _))⟩
  next hshort => exact ⟨hmarked, hstamps, hheld, not_lt.1 hshort⟩

theorem Inv.touched (h : Inv c) (key : K) (slot : Slot V) (hslot : slot.stamp = c.clock + 1) :
    Marked (c.entries.insert key slot) (c.touch key).order := by
  have hmarked : Marked (c.entries.insert key slot) (c.order ++ [(key, slot.stamp)]) :=
    h.marked.insert fun mark hmark => by
      rw [hslot]
      exact Nat.lt_succ_of_le (h.stamps mark hmark)
  rwa [hslot] at hmarked

theorem Inv.touch_stamps (h : Inv c) : ∀ mark ∈ (c.touch key).order, mark.2 ≤ c.clock + 1 := by
  intro mark hmark
  rcases List.mem_append.1 hmark with hmark | hmark
  · exact (h.stamps mark hmark).trans (Nat.le_succ _)
  · rw [List.mem_singleton.1 hmark]

theorem get_of_none (hlookup : c.entries.lookup key = none) : c.get key now = (c, none) := by
  rw [get, hlookup]

theorem get_of_expired (hlookup : c.entries.lookup key = some slot)
    (hexpired : slot.expires.any (· ≤ now) = true) :
    c.get key now = ({ c with entries := c.entries.erase key }, none) := by
  rw [get, hlookup]
  exact if_pos hexpired

theorem get_of_live (hlookup : c.entries.lookup key = some slot)
    (hlive : ¬ slot.expires.any (· ≤ now) = true) :
    c.get key now = (compact { c.touch key with
      entries := c.entries.insert key { slot with stamp := c.clock + 1 } }, some slot.value) := by
  rw [get, hlookup]
  exact if_neg hlive

theorem get_eq_some_iff : (c.get key now).2 = some value ↔
    ∃ slot, c.entries.lookup key = some slot ∧ ¬ slot.expires.any (· ≤ now) = true
      ∧ slot.value = value := by
  cases hlookup : c.entries.lookup key with
  | none => simp [get_of_none hlookup]
  | some slot =>
    by_cases hexpired : slot.expires.any (· ≤ now) = true
    · rw [get_of_expired hlookup hexpired]
      exact ⟨nofun, fun ⟨_, hslot, hlive, _⟩ => absurd (Option.some.inj hslot ▸ hexpired) hlive⟩
    · rw [get_of_live hlookup hexpired]
      constructor
      · exact fun h => ⟨slot, rfl, hexpired, Option.some.inj h⟩
      · rintro ⟨_, hslot, -, rfl⟩
        rw [Option.some.inj hslot]

theorem lookup_get_of_ne (hne : key' ≠ key) :
    (c.get key now).1.entries.lookup key' = c.entries.lookup key' := by
  cases hlookup : c.entries.lookup key with
  | none => rw [get_of_none hlookup]
  | some slot =>
    by_cases hexpired : slot.expires.any (· ≤ now) = true
    · rw [get_of_expired hlookup hexpired]
      exact AList.lookup_erase_ne hne
    · rw [get_of_live hlookup hexpired, compact_entries]
      exact AList.lookup_insert_ne hne

/-- What reading a key leaves of it. -/
theorem lookup_get : (c.get key now).1.entries.lookup key = some slot ↔
    ∃ before, c.entries.lookup key = some before ∧ ¬ before.expires.any (· ≤ now) = true
      ∧ slot = { before with stamp := c.clock + 1 } := by
  cases hlookup : c.entries.lookup key with
  | none => simp [get_of_none hlookup, hlookup]
  | some before =>
    by_cases hexpired : before.expires.any (· ≤ now) = true
    · rw [get_of_expired hlookup hexpired]
      dsimp only
      rw [AList.lookup_erase]
      exact ⟨nofun, fun ⟨_, hslot, hlive, _⟩ => absurd (Option.some.inj hslot ▸ hexpired) hlive⟩
    · rw [get_of_live hlookup hexpired, compact_entries]
      dsimp only
      rw [AList.lookup_insert]
      constructor
      · exact fun h => ⟨before, rfl, hexpired, (Option.some.inj h).symm⟩
      · rintro ⟨_, hslot, -, rfl⟩
        rw [Option.some.inj hslot]

theorem Inv.get (h : Inv c) (key : K) (now : Nat) : Inv (c.get key now).1 := by
  cases hlookup : c.entries.lookup key with
  | none =>
    rw [get_of_none hlookup]
    exact h
  | some slot =>
    have hmem := mem_of_lookup hlookup
    by_cases hexpired : slot.expires.any (· ≤ now) = true
    · rw [get_of_expired hlookup hexpired]
      have hlength := length_keys_erase hmem
      have hheld := h.held
      exact ⟨h.marked.erase, h.stamps, by dsimp only; omega, h.queue⟩
    · rw [get_of_live hlookup hexpired]
      exact inv_compact (h.touched key _ rfl) h.touch_stamps
        ((length_keys_insert hmem).trans_le h.held)

/-- What setting a key leaves: its new entry with the old ones, less what is evicted. -/
theorem Inv.set_evicted (h : Inv c) (key : K) (value : V) (now : Nat) :
    ∃ order, Evicted c.max (c.entries.insert key ⟨value, c.ttl.map (now + ·), c.clock + 1⟩)
      (c.set key value now).entries (c.touch key).order order := by
  have hevicted := evict_evicted c.max
    (h.touched key ⟨value, c.ttl.map (now + ·), c.clock + 1⟩ rfl)
  exact ⟨_, by rw [BoundedLru.set, compact_entries]; exact hevicted⟩

theorem Inv.set (h : Inv c) (key : K) (value : V) (now : Nat) : Inv (c.set key value now) := by
  have hevicted := evict_evicted c.max
    (h.touched key ⟨value, c.ttl.map (now + ·), c.clock + 1⟩ rfl)
  exact inv_compact hevicted.marked (fun mark hmark => h.touch_stamps mark
    (hevicted.suffix.subset hmark)) hevicted.held

theorem inv_clear (c : BoundedLru K V) : Inv c.clear where
  marked := ⟨List.Pairwise.nil, fun key slot hslot => by
    rw [clear, AList.lookup_empty] at hslot
    cases hslot⟩
  stamps := List.forall_mem_nil _
  held := Nat.zero_le _
  queue := Nat.zero_le _

theorem Inv.call (h : Inv c) : ∀ u : Call K V, Inv (c.call u)
  | .get key now => h.get key now
  | .set key value now => h.set key value now
  | .clear => inv_clear c

theorem call_max (c : BoundedLru K V) : ∀ u : Call K V, (c.call u).max = c.max
  | .get key now => by
    rw [call]
    unfold BoundedLru.get
    split
    · rfl
    · dsimp only
      split
      · rfl
      · exact compact_max
  | .set _ _ _ => compact_max
  | .clear => rfl

theorem call_ttl (c : BoundedLru K V) : ∀ u : Call K V, (c.call u).ttl = c.ttl
  | .get key now => by
    rw [call]
    unfold BoundedLru.get
    split
    · rfl
    · dsimp only
      split
      · rfl
      · exact compact_ttl
  | .set _ _ _ => compact_ttl
  | .clear => rfl

theorem le_call_clock (c : BoundedLru K V) : ∀ u : Call K V, c.clock ≤ (c.call u).clock
  | .get key now => by
    rw [call]
    unfold BoundedLru.get
    split
    · exact le_rfl
    · dsimp only
      split
      · exact le_rfl
      · rw [compact_clock]
        exact Nat.le_succ _
  | .set _ _ _ => by
    rw [call, BoundedLru.set, compact_clock]
    exact Nat.le_succ _
  | .clear => le_rfl

end Calls

/-! ## After some calls -/

section After

variable {max : Nat} {ttl : Option Nat} {calls : List (Call K V)} {u : Call K V} {key : K}
  {value : V} {expires : Option Nat} {i : Nat}

theorem after_concat : after max ttl (calls ++ [u]) = (after max ttl calls).call u := by
  rw [after, List.foldl_append]
  rfl

theorem inv_after (max : Nat) (ttl : Option Nat) (calls : List (Call K V)) :
    Inv (after max ttl calls) ∧ (after max ttl calls).max = max
      ∧ (after max ttl calls).ttl = ttl := by
  induction calls using List.reverseRecOn with
  | nil =>
    refine ⟨⟨⟨List.Pairwise.nil, fun key slot hslot => ?_⟩, List.forall_mem_nil _, Nat.zero_le _,
      Nat.zero_le _⟩, rfl, rfl⟩
    exact absurd hslot (by rw [after, List.foldl_nil, AList.lookup_empty]; exact nofun)
  | append_singleton calls u ih =>
    rw [after_concat, call_max, call_ttl]
    exact ⟨ih.1.call u, ih.2⟩

variable (max ttl calls) in
theorem clock_take_mono {i j : Nat} (hij : i ≤ j) :
    (after max ttl (calls.take i)).clock ≤ (after max ttl (calls.take j)).clock := by
  induction j, hij using Nat.le_induction with
  | base => exact le_rfl
  | succ j _ ih =>
    refine ih.trans ?_
    rw [List.take_add_one]
    cases calls[j]? with
    | none => rw [Option.toList_none, List.append_nil]
    | some u =>
      rw [Option.toList_some, after_concat]
      exact le_call_clock _ u

theorem getElem?_concat_of_lt {α : Type*} {l : List α} {a : α} {i : Nat} (h : i < l.length) :
    (l ++ [a])[i]? = l[i]? := List.getElem?_append_left h

theorem take_concat_of_le {α : Type*} {l : List α} {a : α} {i : Nat} (h : i ≤ l.length) :
    (l ++ [a]).take i = l.take i := List.take_append_of_le_length h

theorem lt_or_eq_of_concat {α : Type*} {l : List α} {a b : α} {i : Nat}
    (h : (l ++ [a])[i]? = some b) : (i < l.length ∧ l[i]? = some b) ∨ (i = l.length ∧ b = a) := by
  rcases lt_trichotomy i l.length with hlt | rfl | hgt
  · exact .inl ⟨hlt, getElem?_concat_of_lt (a := a) hlt ▸ h⟩
  · rw [List.getElem?_concat_length] at h
    exact .inr ⟨rfl, (Option.some.inj h).symm⟩
  · rw [List.getElem?_eq_none (by rw [List.length_append]; exact hgt)] at h
    cases h

theorem usedAt_concat_of_lt (h : i < calls.length) :
    UsedAt max ttl (calls ++ [u]) key i ↔ UsedAt max ttl calls key i := by
  rw [UsedAt, UsedAt, getElem?_concat_of_lt h, take_concat_of_le h.le]

theorem usedAt_length :
    UsedAt max ttl (calls ++ [u]) key calls.length ↔ Uses (after max ttl calls) key u := by
  rw [UsedAt, List.getElem?_concat_length, List.take_left]
  exact ⟨fun ⟨c, hc, huse⟩ => Option.some.inj hc ▸ huse, fun huse => ⟨u, rfl, huse⟩⟩

theorem UsedAt.lt (h : UsedAt max ttl calls key i) : i < calls.length := by
  obtain ⟨c, hc, -⟩ := h
  exact (List.getElem?_eq_some_iff.1 hc).1

theorem evictedAt_concat_of_lt (h : i < calls.length) :
    EvictedAt max ttl (calls ++ [u]) key i ↔ EvictedAt max ttl calls key i := by
  rw [EvictedAt, EvictedAt, getElem?_concat_of_lt h, take_concat_of_le h.le,
    take_concat_of_le (Nat.succ_le_of_lt h)]

theorem evictedAt_length :
    EvictedAt max ttl (calls ++ [u]) key calls.length ↔ ∃ key' value now,
      u = .set key' value now ∧ (key = key' ∨ key ∈ (after max ttl calls).entries)
        ∧ key ∉ ((after max ttl calls).set key' value now).entries := by
  have hall : (calls ++ [u]).take (calls.length + 1) = calls ++ [u] :=
    List.take_of_length_le (by simp)
  rw [EvictedAt, List.getElem?_concat_length, List.take_left, hall, after_concat]
  constructor
  · rintro ⟨key', value, now, hu, hheld, hgone⟩
    cases hu
    exact ⟨key', value, now, rfl, hheld, hgone⟩
  · rintro ⟨key', value, now, rfl, hheld, hgone⟩
    exact ⟨key', value, now, rfl, hheld, hgone⟩

theorem EvictedAt.lt (h : EvictedAt max ttl calls key i) : i < calls.length := by
  obtain ⟨_, _, _, hc, -⟩ := h
  exact (List.getElem?_eq_some_iff.1 hc).1

theorem alive_concat : Alive max ttl (calls ++ [u]) key value expires ↔
    ¬ EvictedAt max ttl (calls ++ [u]) key calls.length
      ∧ ((∃ now, u = .set key value now ∧ expires = ttl.map (now + ·))
        ∨ (Alive max ttl calls key value expires ∧ Spares key expires u)) := by
  constructor
  · rintro ⟨i, now, hi, hexpires, hevicted, hspares⟩
    rcases lt_or_eq_of_concat hi with ⟨hlt, hi⟩ | ⟨rfl, rfl⟩
    · refine ⟨hevicted _ hlt.le, .inr ⟨⟨i, now, hi, hexpires, fun j hij hj => ?_,
        fun j c hij hc => ?_⟩, ?_⟩⟩
      · exact hevicted j hij ((evictedAt_concat_of_lt hj.lt).2 hj)
      · have hj := (List.getElem?_eq_some_iff.1 hc).1
        exact hspares j c hij (by rw [getElem?_concat_of_lt hj, hc])
      · exact hspares _ u hlt (List.getElem?_concat_length)
    · exact ⟨hevicted _ le_rfl, .inl ⟨now, rfl, hexpires⟩⟩
  · rintro ⟨hnow, ⟨now, rfl, hexpires⟩ | ⟨⟨i, now, hi, hexpires, hevicted, hspares⟩, hlast⟩⟩
    · refine ⟨calls.length, now, List.getElem?_concat_length, hexpires, fun j hij hj => ?_,
        fun j c hij hc => ?_⟩
      · have hlt := hj.lt
        rw [List.length_append, List.length_singleton] at hlt
        obtain rfl : j = calls.length := by omega
        exact hnow hj
      · rcases lt_or_eq_of_concat hc with ⟨hlt, -⟩ | ⟨rfl, -⟩ <;> omega
    · have hi' := (List.getElem?_eq_some_iff.1 hi).1
      refine ⟨i, now, by rw [getElem?_concat_of_lt hi', hi], hexpires, fun j hij hj => ?_,
        fun j c hij hc => ?_⟩
      · rcases Nat.lt_or_ge j calls.length with hlt | hge
        · exact hevicted j hij ((evictedAt_concat_of_lt hlt).1 hj)
        · have hlt := hj.lt
          rw [List.length_append, List.length_singleton] at hlt
          obtain rfl : j = calls.length := by omega
          exact hnow hj
      · rcases lt_or_eq_of_concat hc with ⟨-, hc⟩ | ⟨-, rfl⟩
        · exact hspares j c hij hc
        · exact hlast

/-- What is kept for a key is the last value set for it that nothing has taken out. -/
theorem lookup_after_iff : (∃ stamp, (after max ttl calls).entries.lookup key
      = some ⟨value, expires, stamp⟩) ↔ Alive max ttl calls key value expires := by
  induction calls using List.reverseRecOn generalizing value expires with
  | nil =>
    constructor
    · rintro ⟨stamp, h⟩
      rw [after, List.foldl_nil, AList.lookup_empty] at h
      cases h
    · rintro ⟨i, now, hi, -⟩
      cases hi
  | append_singleton calls u ih =>
    obtain ⟨hinv, hmax, httl⟩ := inv_after max ttl calls
    rw [alive_concat, evictedAt_length, after_concat]
    cases u with
    | get key' now =>
      have hnoSet : ¬ ∃ k v t, Call.get (V := V) key' now = .set k v t ∧ (key = k
          ∨ key ∈ (after max ttl calls).entries)
          ∧ key ∉ ((after max ttl calls).set k v t).entries := by
        rintro ⟨_, _, _, hset, -⟩
        cases hset
      have hnoNew : ¬ ∃ t, Call.get (V := V) key' now = .set key value t
          ∧ expires = ttl.map (t + ·) := by
        rintro ⟨_, hset, -⟩
        cases hset
      rw [and_iff_right hnoSet, or_iff_right hnoNew, ← ih, call]
      by_cases hkey : key' = key
      · subst hkey
        simp only [lookup_get, Spares]
        constructor
        · rintro ⟨stamp, before, hbefore, hlive, heq⟩
          cases heq
          exact ⟨⟨before.stamp, hbefore⟩, fun _ => hlive⟩
        · rintro ⟨⟨stamp, hslot⟩, hlive⟩
          exact ⟨_, _, hslot, hlive trivial, rfl⟩
      · rw [lookup_get_of_ne (Ne.symm hkey)]
        exact (and_iff_left fun heq => absurd heq hkey).symm
    | set key' value' now =>
      obtain ⟨order, hevicted⟩ := hinv.set_evicted key' value' now
      rw [httl] at hevicted
      have hgone : (∃ k v t, Call.set key' value' now = .set k v t
          ∧ (key = k ∨ key ∈ (after max ttl calls).entries)
          ∧ key ∉ ((after max ttl calls).set k v t).entries)
          ↔ (key = key' ∨ key ∈ (after max ttl calls).entries)
            ∧ key ∉ ((after max ttl calls).set key' value' now).entries := by
        constructor
        · rintro ⟨_, _, _, hset, h⟩
          cases hset
          exact h
        · exact fun h => ⟨_, _, _, rfl, h⟩
      -- What the key has after the call it had when the new entry was added.
      have hback : ∀ slot, (((after max ttl calls).set key' value' now).entries.lookup key
          = some slot ↔ ((after max ttl calls).entries.insert key'
            ⟨value', ttl.map (now + ·), (after max ttl calls).clock + 1⟩).lookup key = some slot
          ∧ key ∈ ((after max ttl calls).set key' value' now).entries) := by
        intro slot
        refine ⟨fun h => ⟨hevicted.kept key slot h, mem_of_lookup h⟩, fun ⟨hslot, hmem⟩ => ?_⟩
        obtain ⟨slot', hslot'⟩ := Option.isSome_iff_exists.1 (AList.lookup_isSome.2 hmem)
        rw [hslot', ← hevicted.kept key slot' hslot', hslot]
      rw [hgone, call]
      simp only [hback]
      by_cases hkey : key' = key
      · subst hkey
        simp only [AList.lookup_insert, true_or, true_and, not_not, Spares, ne_eq,
          not_true_eq_false, and_false, or_false, Call.set.injEq]
        constructor
        · rintro ⟨stamp, heq, hmem⟩
          cases heq
          exact ⟨hmem, now, ⟨rfl, rfl⟩, rfl⟩
        · rintro ⟨hmem, t, ⟨rfl, rfl⟩, rfl⟩
          exact ⟨_, rfl, hmem⟩
      · have hnoNew : ¬ ∃ t, Call.set key' value' now = .set key value t
            ∧ expires = ttl.map (t + ·) := by
          rintro ⟨_, hset, -⟩
          cases hset
          exact hkey rfl
        rw [or_iff_right hnoNew, ← ih]
        simp only [AList.lookup_insert_ne (Ne.symm hkey), Spares, ne_eq, hkey, not_false_eq_true,
          and_true]
        constructor
        · rintro ⟨stamp, hslot, hmem⟩
          exact ⟨fun h => h.2 hmem, stamp, hslot⟩
        · rintro ⟨hkept, stamp, hslot⟩
          exact ⟨stamp, hslot, not_not.1 fun h => hkept ⟨.inr (mem_of_lookup hslot), h⟩⟩
    | clear =>
      simp [call, clear, Spares]

/-- The stamp of an entry tells which call used it last. -/
theorem lastUsed {slot : Slot V} (h : (after max ttl calls).entries.lookup key = some slot) :
    ∃ i, UsedAt max ttl calls key i
      ∧ (after max ttl (calls.take i)).clock + 1 = slot.stamp
      ∧ ∀ j, i < j → ¬ UsedAt max ttl calls key j := by
  induction calls using List.reverseRecOn generalizing slot with
  | nil =>
    rw [after, List.foldl_nil, AList.lookup_empty] at h
    cases h
  | append_singleton calls u ih =>
    obtain ⟨hinv, -, -⟩ := inv_after max ttl calls
    -- The call itself used the key, or left what was there before.
    have hlast : Uses (after max ttl calls) key u →
        (after max ttl calls).clock + 1 = slot.stamp →
        ∃ i, UsedAt max ttl (calls ++ [u]) key i
          ∧ (after max ttl ((calls ++ [u]).take i)).clock + 1 = slot.stamp
          ∧ ∀ j, i < j → ¬ UsedAt max ttl (calls ++ [u]) key j := by
      intro huse hstamp
      refine ⟨calls.length, usedAt_length.2 huse, by rw [List.take_left, hstamp],
        fun j hj hused => ?_⟩
      have hlt := hused.lt
      rw [List.length_append, List.length_singleton] at hlt
      omega
    have hbefore : ¬ Uses (after max ttl calls) key u →
        (after max ttl calls).entries.lookup key = some slot →
        ∃ i, UsedAt max ttl (calls ++ [u]) key i
          ∧ (after max ttl ((calls ++ [u]).take i)).clock + 1 = slot.stamp
          ∧ ∀ j, i < j → ¬ UsedAt max ttl (calls ++ [u]) key j := by
      intro huse hslot
      obtain ⟨i, hi, hstamp, hnone⟩ := ih hslot
      refine ⟨i, (usedAt_concat_of_lt hi.lt).2 hi, by rw [take_concat_of_le hi.lt.le, hstamp],
        fun j hj hused => ?_⟩
      rcases Nat.lt_or_ge j calls.length with hlt | hge
      · exact hnone j hj ((usedAt_concat_of_lt hlt).1 hused)
      · have hlt := hused.lt
        rw [List.length_append, List.length_singleton] at hlt
        obtain rfl : j = calls.length := by omega
        exact huse (usedAt_length.1 hused)
    rw [after_concat] at h
    cases u with
    | get key' now =>
      by_cases hkey : key' = key
      · subst hkey
        obtain ⟨before, hslot, hlive, rfl⟩ := lookup_get.1 h
        refine hlast ⟨rfl, ?_⟩ rfl
        rw [get_eq_some_iff.2 ⟨before, hslot, hlive, rfl⟩]
        rfl
      · refine hbefore (fun huse => hkey huse.1) ?_
        rwa [call, lookup_get_of_ne (Ne.symm hkey)] at h
    | set key' value' now =>
      obtain ⟨order, hevicted⟩ := hinv.set_evicted key' value' now
      have hslot := hevicted.kept key slot h
      by_cases hkey : key' = key
      · subst hkey
        rw [AList.lookup_insert] at hslot
        cases hslot
        exact hlast rfl rfl
      · rw [AList.lookup_insert_ne (Ne.symm hkey)] at hslot
        exact hbefore hkey hslot
    | clear =>
      rw [call, clear, AList.lookup_empty] at h
      cases h

/-- Those left when an entry is evicted were used with a later stamp, so since. -/
theorem evicts_of_evictedAt (hi : i + 1 = calls.length) (h : EvictedAt max ttl calls key i) :
    ∃ others : List K, others.Nodup ∧ others.length = max
      ∧ ∀ key' ∈ others, key' ≠ key ∧ key' ∈ (after max ttl calls).entries
        ∧ UsedSince max ttl calls key key' := by
  rcases List.eq_nil_or_concat' calls with rfl | ⟨before, u, rfl⟩
  · cases hi
  obtain rfl : i = before.length := by simpa using hi
  obtain ⟨keySet, value, now, rfl, hheld, hgone⟩ := evictedAt_length.1 h
  obtain ⟨hinv, hmax, httl⟩ := inv_after max ttl before
  obtain ⟨order, hevicted⟩ := hinv.set_evicted keySet value now
  have hmem : key ∈ (after max ttl before).entries.insert keySet
      ⟨value, (after max ttl before).ttl.map (now + ·), (after max ttl before).clock + 1⟩ :=
    (AList.mem_insert _).2 hheld
  obtain ⟨slot, hslot⟩ := Option.isSome_iff_exists.1 (AList.lookup_isSome.2 hmem)
  obtain ⟨hlength, hlater⟩ := hevicted.dropped key slot hslot hgone
  have hafter : after max ttl (before ++ [.set keySet value now])
      = (after max ttl before).set keySet value now := after_concat
  refine ⟨((after max ttl before).set keySet value now).entries.keys, AList.keys_nodup _,
    hlength.trans hmax, fun key' hkey' => ?_⟩
  have hkept : key' ∈ ((after max ttl before).set keySet value now).entries :=
    AList.mem_keys.2 hkey'
  refine ⟨fun heq => hgone (heq ▸ hkept), by rwa [hafter], ?_⟩
  obtain ⟨slot', hslot'⟩ := Option.isSome_iff_exists.1 (AList.lookup_isSome.2 hkept)
  have hlookup' : (after max ttl (before ++ [.set keySet value now])).entries.lookup key'
      = some slot' := hafter ▸ hslot'
  obtain ⟨i', hused', hstamp', -⟩ := lastUsed hlookup'
  have hlt := hlater key' slot' hslot'
  refine ⟨i', hused', fun j hj hused => ?_⟩
  have hi' : i' ≤ before.length := by
    have := hused'.lt
    rw [List.length_append, List.length_singleton] at this
    omega
  rw [take_concat_of_le hi'] at hstamp'
  by_cases hkey : keySet = key
  · -- The entry of the last call has the latest stamp: nothing is left after it.
    subst hkey
    rw [AList.lookup_insert] at hslot
    cases hslot
    have hclock := clock_take_mono max ttl before hi'
    rw [List.take_length] at hclock
    dsimp only at hlt
    omega
  · rw [AList.lookup_insert_ne (Ne.symm hkey)] at hslot
    obtain ⟨i₀, -, hstamp, hnone⟩ := lastUsed hslot
    rcases Nat.lt_or_ge j before.length with hjlt | hjge
    · refine hnone j ?_ ((usedAt_concat_of_lt hjlt).1 hused)
      by_contra hle
      have hclock := clock_take_mono max ttl before
        (hj.trans (not_lt.1 hle))
      omega
    · have hjlt := hused.lt
      rw [List.length_append, List.length_singleton] at hjlt
      obtain rfl : j = before.length := by omega
      exact hkey (usedAt_length.1 hused)

end After

/-- **The cache drops what was used least recently**, after any calls at any times. -/
theorem is_lru (max : Nat) (ttl : Option Nat) (calls : List (Call K V)) (key : K) :
    IsLru max ttl calls key := by
  obtain ⟨hinv, hmax, -⟩ := inv_after max ttl calls
  have hheld := hinv.held
  have hqueue := hinv.queue
  rw [hmax] at hheld hqueue
  refine ⟨hheld, fun slot hslot => hinv.marked.count hslot, hqueue, ?_, fun now value => ?_,
    fun i hi h => evicts_of_evictedAt hi h⟩
  · rw [touch, List.length_append]
    exact Nat.succ_le_succ hqueue
  · rw [get_eq_some_iff]
    constructor
    · rintro ⟨slot, hslot, hlive, rfl⟩
      exact ⟨slot.expires, lookup_after_iff.1 ⟨slot.stamp, hslot⟩, hlive⟩
    · rintro ⟨expires, halive, hlive⟩
      obtain ⟨stamp, hslot⟩ := lookup_after_iff.2 halive
      exact ⟨_, hslot, hlive, rfl⟩

/-- Key 1 was used since key 2 was, so key 2 goes. -/
example : (((after 2 none [.set 1 'a' 0, .set 2 'b' 0, .get 1 0, .set 3 'c' 0]).get 2 0).2,
    ((after 2 none [.set 1 'a' 0, .set 2 'b' 0, .get 1 0, .set 3 'c' 0]).get 1 0).2)
      = (none, some 'a') := by decide

end BoundedLru

end Foreseerr

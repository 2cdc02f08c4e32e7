import Foreseerr.Run
import Foreseerr.SyncCache
import Mathlib.Algebra.Group.Nat.Defs
import Mathlib.Data.List.Basic
import Mathlib.Logic.Function.Basic

/-!
# The Jellyfin status cache

`jellyfincache.rs` keeps for thirty seconds what a user's Jellyfin said an item's played
state was. `read_many` answers from it, fetches what it does not have, fifty items at a
time, and puts every state it fetched into it; `set_watched` writes to Jellyfin, drops
everything cached for the user, and caches what it wrote.

A reader that fetched before a write reached Jellyfin may come to its own insertion only
after the write is over. Then the state from before the write is what the next readers
find (`JellyfinCache.stale_after_write`). Where no reader inserts such a state, every
later read shows the write (`JellyfinCache.reads_show_writes`).

`settled` below is history: the state that the last write of an item set, while no other
write of the item has been under way since that one started, and none was made elsewhere.
-/

namespace Foreseerr

/-! ## The store -/

/-- An entry of the store, under the user and the Jellyfin id. -/
structure JellyfinEntry where
  user : Int
  id : String
  watched : Bool
  expires : Nat
deriving DecidableEq, Repr

namespace JellyfinEntry

/-- `key`. -/
def key (e : JellyfinEntry) : Int × String := (e.user, e.id)

/-- The text `sweep` orders the keys by. -/
def keyText (e : JellyfinEntry) : String := toString e.user ++ ":" ++ e.id

end JellyfinEntry

/-- `Store`: the entries, and the size that triggers the next sweep. -/
structure JellyfinStore where
  entries : List JellyfinEntry := []
  sweepAt : Nat := 1024
deriving DecidableEq, Repr

namespace JellyfinStore

/-- `TTL`, in nanoseconds. -/
def ttl : Nat := 30 * 10 ^ 9

/-- `SWEEP_FLOOR`. -/
def sweepFloor : Nat := 1024

/-- `CAPACITY`. -/
def capacity : Nat := 10000

/-- `get`: an expired entry is removed. -/
def get (s : JellyfinStore) (key : Int × String) (now : Nat) : JellyfinStore × Option Bool :=
  match s.entries.find? (·.key == key) with
  | none => (s, none)
  | some e =>
    if e.expires ≤ now then ({ s with entries := s.entries.filter (·.key ≠ key) }, none)
    else (s, some e.watched)

/-- `sweep`: what has expired goes, then what is soonest to expire. -/
def sweep (s : JellyfinStore) (now : Nat) : JellyfinStore :=
  let live := s.entries.filter (now < ·.expires)
  let kept :=
    if live.length ≥ capacity then
      let byExpiry := live.mergeSort fun a b =>
        a.expires < b.expires || a.expires == b.expires && !(b.keyText < a.keyText)
      let excess := live.length + 1 - capacity + capacity / 4
      live.filter fun e => e.key ∉ (byExpiry.take excess).map (·.key)
    else live
  { entries := kept, sweepAt := min (max (kept.length * 2) sweepFloor) capacity }

/-- `insert`. -/
def insert (s : JellyfinStore) (user : Int) (id : String) (watched : Bool) (now : Nat) :
    JellyfinStore :=
  let s := if s.entries.length ≥ s.sweepAt ∧ s.entries.all (·.key ≠ (user, id)) then s.sweep now
    else s
  { s with
    entries := ⟨user, id, watched, now + ttl⟩ :: s.entries.filter (·.key ≠ (user, id)) }

/-- `invalidate`: the entries of one user, or all of them. -/
def invalidate (s : JellyfinStore) (user : Option Int) : JellyfinStore :=
  { s with entries := s.entries.filter fun e => user.any (· ≠ e.user) }

section Entries

variable {s : JellyfinStore} {e : JellyfinEntry}

/-- What `get` finds is an entry. -/
theorem get_eq_some {key : Int × String} {now : Nat} {watched : Bool}
    (h : (s.get key now).2 = some watched) : ∃ e ∈ s.entries, e.key = key ∧ e.watched = watched := by
  unfold get at h
  cases hfound : s.entries.find? (·.key == key) with
  | none => simp [hfound] at h
  | some e =>
    rw [hfound] at h
    dsimp only at h
    split at h
    · cases h
    · exact ⟨e, List.mem_of_find?_eq_some hfound, by simpa using List.find?_some hfound,
        Option.some.inj h⟩

theorem mem_get {key : Int × String} {now : Nat} (h : e ∈ (s.get key now).1.entries) :
    e ∈ s.entries := by
  unfold get at h
  split at h
  · exact h
  · split at h
    · exact (List.mem_filter.mp h).1
    · exact h

theorem mem_sweep {now : Nat} (h : e ∈ (s.sweep now).entries) : e ∈ s.entries := by
  unfold sweep at h
  dsimp only at h
  split at h
  · exact (List.mem_filter.mp (List.mem_filter.mp h).1).1
  · exact (List.mem_filter.mp h).1

/-- After an insertion, an entry is the one inserted or one of another key from before. -/
theorem mem_insert {user : Int} {id : String} {watched : Bool} {now : Nat}
    (h : e ∈ (s.insert user id watched now).entries) :
    e = ⟨user, id, watched, now + ttl⟩ ∨ e ∈ s.entries ∧ e.key ≠ (user, id) := by
  unfold insert at h
  rcases List.mem_cons.mp h with rfl | h
  · exact .inl rfl
  · obtain ⟨hmem, hne⟩ := List.mem_filter.mp h
    refine .inr ⟨?_, of_decide_eq_true hne⟩
    split at hmem
    · exact mem_sweep hmem
    · exact hmem

theorem mem_invalidate {user : Option Int} (h : e ∈ (s.invalidate user).entries) :
    e ∈ s.entries :=
  (List.mem_filter.mp h).1

end Entries

end JellyfinStore

/-! ## Readers and writers -/

/-- `MediaItemRef`. -/
structure ActionItem where
  mediaType : MediaType
  tmdbId : Int
deriving DecidableEq, Repr

/-- The status of one item of a `read_many`: whether it is watched, or why that is not
known. `id` is the Jellyfin item it is mapped to. -/
structure JellyfinResult where
  item : ActionItem
  id : Option String
  status : Except String Bool

/-- `NOT_MAPPED`. -/
def notMapped : String := "No Jellyfin mapping for item"

/-- Where a `read_many` is: in the loop over its items, at a chunk of its fetch, in the
loop over what it fetched, or over. -/
inductive JellyfinReadPhase
  | looking (rest : List (ActionItem × Option String))
  | fetching (chunks : List (List String))
  | storing (rest : List (String × List ActionItem))
  | done
deriving DecidableEq, Repr

/-- A `read_many`. `since` is history: the settled states when it started, of the items
that were not written since. -/
structure JellyfinRead where
  since : String → Option Bool
  phase : JellyfinReadPhase
  byId : List (String × List ActionItem) := []
  entries : List (String × Bool) := []
  failed : List String := []
  results : List JellyfinResult := []

/-- Where a `set_watched` is. -/
inductive JellyfinWritePhase
  | sending
  | invalidating
  | caching
  | done
deriving DecidableEq, Repr

/-- A `set_watched` of a Jellyfin item. `alone` is history: no other write of the item has
been under way since it started, and none was made elsewhere. -/
structure JellyfinWrite where
  id : String
  watched : Bool
  alone : Bool
  phase : JellyfinWritePhase := .sending
deriving DecidableEq, Repr

/-- A reader has the statuses of some items. -/
def JellyfinRead.found (r : JellyfinRead) (id : Option String) (status : Except String Bool)
    (items : List ActionItem) : JellyfinRead :=
  { r with results := r.results ++ items.map fun item => ⟨item, id, status⟩ }

/-- An item to fetch, under its Jellyfin id. -/
def JellyfinRead.toFetch (r : JellyfinRead) (id : String) (item : ActionItem) : JellyfinRead :=
  { r with
    byId :=
      if r.byId.any (·.1 == id) then
        r.byId.map fun (known, items) => (known, if known = id then items ++ [item] else items)
      else r.byId ++ [(id, [item])] }

/-- A write that is still under way. -/
def JellyfinWrite.active (w : JellyfinWrite) : Bool := w.phase ≠ .done

/-- What a `read_many` answered. -/
structure JellyfinAnswer where
  since : String → Option Bool
  results : List JellyfinResult

/-- The store, what Jellyfin has of the user, and every call of the user. -/
structure JellyfinCache where
  user : Int
  played : String → Bool
  store : JellyfinStore := {}
  reads : List JellyfinRead := []
  writes : List JellyfinWrite := []
  settled : String → Option Bool := fun _ => none
  answers : List JellyfinAnswer := []

namespace JellyfinCache

/-- A step. A reader starts with its items and what they are mapped to, looks up the next
item, gets the answer to its next chunk (the items Jellyfin found, or a failure), and
stores the next state; a writer starts, gets Jellyfin's answer (whether it succeeded, and
whether Jellyfin took it), invalidates, and caches. An item may be played elsewhere, and
other users go on with the store. -/
inductive Act
  | startRead (items : List (ActionItem × Option String))
  | look (call now : Nat)
  | fetch (call : Nat) (answer : Option (List String))
  | store (call now : Nat)
  | startWrite (id : String) (watched : Bool)
  | wrote (call : Nat) (ok took : Bool)
  | invalidate (call : Nat)
  | cache (call now : Nat)
  | elsewhere (id : String) (watched : Bool)
  | otherGet (user : Int) (id : String) (now : Nat)
  | otherSet (user : Int) (id : String) (watched : Bool) (now : Nat)
  | clear (user : Option Int)

/-- A write of an item starts, or is made elsewhere: nothing about it is settled. -/
def disturb (s : JellyfinCache) (id : String) : JellyfinCache :=
  { s with
    settled := Function.update s.settled id none
    reads := s.reads.map fun r => { r with since := Function.update r.since id none }
    writes := s.writes.map fun w => if w.id = id then { w with alone := false } else w }

/-- A reader moves on. -/
def setRead (s : JellyfinCache) (call : Nat) (r : JellyfinRead) : JellyfinCache :=
  { s with reads := s.reads.set call r }

/-- A writer moves on. -/
def setWrite (s : JellyfinCache) (call : Nat) (w : JellyfinWrite) : JellyfinCache :=
  { s with writes := s.writes.set call w }

/-- One turn of the loop over the items, at `now`; after the last, what is missing is
fetched in chunks. -/
def lookStep (s : JellyfinCache) (call now : Nat) (r : JellyfinRead) :
    List (ActionItem × Option String) → JellyfinCache
  | [] => s.setRead call { r with phase := .fetching ((r.byId.map Prod.fst).toChunks 50) }
  | (item, mapped) :: rest =>
    let r := { r with phase := .looking rest }
    match mapped.filter (· ≠ "") with
    | none => s.setRead call (r.found none (.error notMapped) [item])
    | some id =>
      let found := s.store.get (s.user, id) now
      { s.setRead call
          (match found.2 with
          | some watched => r.found (some id) (.ok watched) [item]
          | none => r.toFetch id item) with
        store := found.1 }

/-- One chunk of the fetch. -/
def fetchStep (s : JellyfinCache) (call : Nat) (r : JellyfinRead) (answer : Option (List String)) :
    List (List String) → JellyfinCache
  | [] => s.setRead call { r with phase := .storing r.byId }
  | chunk :: rest =>
    let r := { r with phase := .fetching rest }
    match answer with
    | some found =>
      s.setRead call { r with entries := r.entries ++ found.map fun id => (id, s.played id) }
    | none => s.setRead call { r with failed := r.failed ++ chunk }

/-- One turn of the loop over what was to fetch, at `now`; after the last, the call
answers. -/
def storeStep (s : JellyfinCache) (call now : Nat) (r : JellyfinRead) :
    List (String × List ActionItem) → JellyfinCache
  | [] =>
    { s.setRead call { r with phase := .done } with
      answers := s.answers ++ [⟨r.since, r.results⟩] }
  | (id, items) :: rest =>
    let r := { r with phase := .storing rest }
    match r.entries.find? (·.1 == id) with
    | none =>
      let error := if id ∈ r.failed then "Failed to read Jellyfin watch state"
        else "Jellyfin did not return item status"
      s.setRead call (r.found (some id) (.error error) items)
    | some entry =>
      { s.setRead call (r.found (some id) (.ok entry.2) items) with
        store := s.store.insert s.user id entry.2 now }

/-- Jellyfin's answer to a write. A failed call ends there. -/
def wroteStep (s : JellyfinCache) (call : Nat) (ok took : Bool) (w : JellyfinWrite) :
    JellyfinCache :=
  { s.setWrite call { w with phase := if ok then .invalidating else .done } with
    played := if ok || took then Function.update s.played w.id w.watched else s.played }

/-- The last step of a write. -/
def cacheStep (s : JellyfinCache) (call now : Nat) (w : JellyfinWrite) : JellyfinCache :=
  { s.setWrite call { w with phase := .done } with
    store := s.store.insert s.user w.id w.watched now
    settled := if w.alone then Function.update s.settled w.id (some w.watched) else s.settled }

/-- One step. -/
def next (s : JellyfinCache) : Act → Option JellyfinCache
  | .startRead items =>
    some { s with reads := s.reads ++ [{ since := s.settled, phase := .looking items }] }
  | .look call now =>
    match s.reads[call]? with
    | some r =>
      match r.phase with
      | .looking rest => some (s.lookStep call now r rest)
      | _ => none
    | none => none
  | .fetch call answer =>
    match s.reads[call]? with
    | some r =>
      match r.phase with
      | .fetching chunks => some (s.fetchStep call r answer chunks)
      | _ => none
    | none => none
  | .store call now =>
    match s.reads[call]? with
    | some r =>
      match r.phase with
      | .storing rest => some (s.storeStep call now r rest)
      | _ => none
    | none => none
  | .startWrite id watched =>
    let alone := s.writes.all fun w => w.id ≠ id || !w.active
    let s := s.disturb id
    some { s with writes := s.writes ++ [⟨id, watched, alone, .sending⟩] }
  | .wrote call ok took =>
    match s.writes[call]? with
    | some w => if w.phase = .sending then some (s.wroteStep call ok took w) else none
    | none => none
  | .invalidate call =>
    match s.writes[call]? with
    | some w =>
      if w.phase = .invalidating then
        some { s.setWrite call { w with phase := .caching } with
          store := s.store.invalidate (some s.user) }
      else none
    | none => none
  | .cache call now =>
    match s.writes[call]? with
    | some w => if w.phase = .caching then some (s.cacheStep call now w) else none
    | none => none
  | .elsewhere id watched =>
    some { s.disturb id with played := Function.update s.played id watched }
  | .otherGet user id now =>
    if user = s.user then none else some { s with store := (s.store.get (user, id) now).1 }
  | .otherSet user id watched now =>
    if user = s.user then none
    else some { s with store := s.store.insert user id watched now }
  | .clear user => some { s with store := s.store.invalidate user }

/-- A step from one state to another. -/
def Step (s : JellyfinCache) (act : Act) (t : JellyfinCache) : Prop := s.next act = some t

/-! ## What is promised, and when -/

/-- A status says what was settled of its item, if anything was. -/
def Shows (since : String → Option Bool) (result : JellyfinResult) : Prop :=
  ∀ id, result.id = some id → ∀ watched, result.status = .ok watched →
    ∀ written, since id = some written → watched = written

/-- **Reads show writes**: whatever a `read_many` answered of an item is what the last
write of it set, where that one was over before the call started and no other write of
the item was under way, or made elsewhere, until it answered. -/
def ReadsShowWrites (s : JellyfinCache) : Prop :=
  ∀ answer ∈ s.answers, ∀ result ∈ answer.results, Shows answer.since result

/-- The condition on a step: a reader does not store another state than the last write of
the item set, once that one is over. -/
def Ok (s : JellyfinCache) : Act → Prop
  | .store call _ =>
    ∀ r, s.reads[call]? = some r → ∀ id items rest, r.phase = .storing ((id, items) :: rest) →
      ∀ entry, r.entries.find? (·.1 == id) = some entry →
        ∀ written, s.settled id = some written → entry.2 = written
  | _ => True

/-- No call is under way, and nothing is cached. -/
def start (user : Int) (played : String → Bool) : JellyfinCache := { user := user, played := played }

/-! ## The invariant -/

/-- What a reader knows is settled still, and what it has so far agrees with it. -/
structure ReadSound (settled : String → Option Bool) (r : JellyfinRead) : Prop where
  since : ∀ id written, r.since id = some written → settled id = some written
  entries : ∀ entry ∈ r.entries, ∀ written, r.since entry.1 = some written → entry.2 = written
  results : ∀ result ∈ r.results, Shows r.since result

/-- What a settled state is: no write of the item is under way, Jellyfin has it, and so
does the cache, if it has anything of the item. -/
structure SettledSound (s : JellyfinCache) (id : String) (written : Bool) : Prop where
  idle : ∀ w ∈ s.writes, w.id = id → w.active = false
  played : s.played id = written
  cached : ∀ e ∈ s.store.entries, e.key = (s.user, id) → e.watched = written

/-- A write that is alone is the only one of its item under way. -/
def AloneApart (writes : List JellyfinWrite) : Prop :=
  ∀ (i : Nat) (w : JellyfinWrite), writes[i]? = some w → w.alone = true → w.active = true →
    ∀ (j : Nat) (v : JellyfinWrite), writes[j]? = some v → v.id = w.id → v.active = true → j = i

/-- **The invariant.** What a write that is alone sent, Jellyfin has once it took it. -/
structure Sound (s : JellyfinCache) : Prop where
  settled : ∀ id written, s.settled id = some written → s.SettledSound id written
  alone : AloneApart s.writes
  sent : ∀ w ∈ s.writes, w.alone = true → (w.phase = .invalidating ∨ w.phase = .caching) →
    s.played w.id = w.watched
  reads : ∀ r ∈ s.reads, ReadSound s.settled r
  answers : s.ReadsShowWrites

section Frames

variable {s t : JellyfinCache}

/-- A reader whose calls started knowing less. -/
theorem ReadSound.frame {settled settled' : String → Option Bool} {r : JellyfinRead}
    (h : ReadSound settled r)
    (hsettled : ∀ id written, r.since id = some written → settled' id = some written) :
    ReadSound settled' r :=
  ⟨hsettled, h.entries, h.results⟩

/-- Nothing is settled of an item while a write of it is under way. -/
theorem Sound.settled_of_active (h : s.Sound) {w : JellyfinWrite} (hw : w ∈ s.writes)
    (hactive : w.active = true) : s.settled w.id = none := by
  by_contra hne
  obtain ⟨written, hwritten⟩ := Option.ne_none_iff_exists'.mp hne
  simp [(h.settled w.id written hwritten).idle w hw rfl] at hactive

theorem Sound.setRead (h : s.Sound) (call : Nat) {r : JellyfinRead}
    (hr : ReadSound s.settled r) : (s.setRead call r).Sound := by
  refine ⟨fun id written hsettled => ?_, h.alone, h.sent, fun r' hr' => ?_, h.answers⟩
  · exact ⟨(h.settled id written hsettled).idle, (h.settled id written hsettled).played,
      (h.settled id written hsettled).cached⟩
  · rcases List.mem_or_eq_of_mem_set hr' with hr' | rfl
    · exact h.reads r' hr'
    · exact hr

/-- Whatever of the user's is new in the store says what is settled of its item. -/
theorem Sound.withStore (h : s.Sound) (store : JellyfinStore)
    (hentries : ∀ e ∈ store.entries, e ∈ s.store.entries
      ∨ ∀ id written, s.settled id = some written → e.key = (s.user, id) → e.watched = written) :
    Sound { s with store := store } := by
  refine ⟨fun id written hsettled => ?_, h.alone, h.sent, h.reads, h.answers⟩
  have hold := h.settled id written hsettled
  refine ⟨hold.idle, hold.played, fun e he hkey => ?_⟩
  rcases hentries e he with hmem | hnew
  · exact hold.cached e hmem hkey
  · exact hnew id written hsettled hkey

theorem Sound.insert (h : s.Sound) {user : Int} {id : String} {watched : Bool} {now : Nat}
    (hnew : user = s.user → ∀ written, s.settled id = some written → watched = written) :
    Sound { s with store := s.store.insert user id watched now } := by
  refine h.withStore _ fun e he => ?_
  rcases JellyfinStore.mem_insert he with rfl | ⟨hmem, -⟩
  · refine .inr fun id' written hsettled hkey => ?_
    obtain ⟨huser, rfl⟩ := Prod.mk.inj hkey
    exact hnew huser written hsettled
  · exact .inl hmem

/-- Writes that go on: each keeps its item, is alone only if it was, and under way only if
it was. -/
def Continues (after before : List JellyfinWrite) : Prop :=
  ∀ (i : Nat) (w : JellyfinWrite), after[i]? = some w → ∃ v, before[i]? = some v ∧ v.id = w.id
    ∧ (w.alone = true → v.alone = true) ∧ (w.active = true → v.active = true)

theorem continues_set {writes : List JellyfinWrite} {call : Nat} {w w' : JellyfinWrite}
    (hw : writes[call]? = some w) (hid : w'.id = w.id) (halone : w'.alone = w.alone)
    (hactive : w.active = true) : Continues (writes.set call w') writes := by
  intro i x hx
  rw [List.getElem?_set] at hx
  split at hx
  · next heq =>
    subst heq
    split at hx
    · obtain rfl := Option.some.inj hx
      exact ⟨w, hw, hid.symm, fun h => halone ▸ h, fun _ => hactive⟩
    · cases hx
  · exact ⟨x, hx, rfl, id, id⟩

theorem Continues.alone {after before : List JellyfinWrite} (h : Continues after before)
    (hbefore : AloneApart before) : AloneApart after := by
  intro i w hw halone hactive j v hv hid hv'
  obtain ⟨w₀, hw₀, hid₀, halone₀, hactive₀⟩ := h i w hw
  obtain ⟨v₀, hv₀, hidv, -, hactivev⟩ := h j v hv
  exact hbefore i w₀ hw₀ (halone₀ halone) (hactive₀ hactive) j v₀ hv₀
    (hidv.trans (hid.trans hid₀.symm)) (hactivev hv')

theorem Continues.idle {after before : List JellyfinWrite} (h : Continues after before)
    {id : String} (hbefore : ∀ w ∈ before, w.id = id → w.active = false) :
    ∀ w ∈ after, w.id = id → w.active = false := by
  intro w hw hid
  obtain ⟨i, hi⟩ := List.mem_iff_getElem?.mp hw
  obtain ⟨v, hv, hidv, -, hactive⟩ := h i w hi
  have hv' := hbefore v (List.mem_of_getElem? hv) (hidv.trans hid)
  by_contra hne
  rw [Bool.not_eq_false] at hne
  simp [hactive hne] at hv'

end Frames

/-! ## The steps keep it -/

section Steps

variable {s t : JellyfinCache}

theorem Sound.disturb (h : s.Sound) (id : String) : (s.disturb id).Sound := by
  have hcontinues : Continues (s.disturb id).writes s.writes := by
    intro i w hw
    obtain ⟨v, hv, rfl⟩ := by simpa [JellyfinCache.disturb] using hw
    exact ⟨v, hv, by split <;> rfl, by split <;> simp, by split <;> simp [JellyfinWrite.active]⟩
  have hsettled : ∀ id' written, (s.disturb id).settled id' = some written →
      id' ≠ id ∧ s.settled id' = some written := by
    intro id' written hwritten
    by_cases hid : id' = id
    · simp [JellyfinCache.disturb, hid] at hwritten
    · exact ⟨hid, by simpa [JellyfinCache.disturb, hid] using hwritten⟩
  refine ⟨fun id' written hwritten => ?_, hcontinues.alone h.alone, fun w hw halone hphase => ?_,
    fun r hr => ?_, h.answers⟩
  · have hold := h.settled id' written (hsettled id' written hwritten).2
    exact ⟨hcontinues.idle hold.idle, hold.played, hold.cached⟩
  · obtain ⟨v, hv, rfl⟩ := List.mem_map.mp hw
    by_cases hid : v.id = id
    · simp [hid] at halone
    · rw [if_neg hid] at halone hphase ⊢
      exact h.sent v hv halone hphase
  · obtain ⟨r₀, hr₀, rfl⟩ := List.mem_map.mp hr
    have hold := h.reads r₀ hr₀
    have hsince : ∀ id' written, Function.update r₀.since id none id' = some written →
        id' ≠ id ∧ r₀.since id' = some written := by
      intro id' written hwritten
      by_cases hid : id' = id
      · simp [hid] at hwritten
      · exact ⟨hid, by simpa [hid] using hwritten⟩
    refine ⟨fun id' written hwritten => ?_, fun entry hentry written hwritten => ?_,
      fun result hresult id' hid' watched hstatus written hwritten => ?_⟩
    · obtain ⟨hne, hwritten⟩ := hsince id' written hwritten
      have := hold.since id' written hwritten
      simpa [JellyfinCache.disturb, hne] using this
    · exact hold.entries entry hentry written (hsince _ written hwritten).2
    · exact hold.results result hresult id' hid' watched hstatus written
        (hsince id' written hwritten).2

/-- What a reader finds of an item agrees with what it knows to be settled. -/
theorem ReadSound.found {settled : String → Option Bool} {r : JellyfinRead}
    (h : ReadSound settled r) {id : Option String} {status : Except String Bool}
    {items : List ActionItem}
    (hfound : ∀ jid, id = some jid → ∀ watched, status = .ok watched →
      ∀ written, r.since jid = some written → watched = written) :
    ReadSound settled (r.found id status items) := by
  refine ⟨h.since, h.entries, fun result hresult => ?_⟩
  rcases List.mem_append.mp hresult with hold | hnew
  · exact h.results result hold
  · obtain ⟨item, -, rfl⟩ := List.mem_map.mp hnew
    exact hfound

theorem Sound.lookStep (h : s.Sound) (call now : Nat) {r : JellyfinRead}
    (hr : ReadSound s.settled r) (rest : List (ActionItem × Option String)) :
    (s.lookStep call now r rest).Sound := by
  have hphase : ∀ phase, ReadSound s.settled { r with phase := phase } := fun phase =>
    ⟨hr.since, hr.entries, hr.results⟩
  cases rest with
  | nil => exact h.setRead call (hphase _)
  | cons head rest =>
    obtain ⟨item, mapped⟩ := head
    unfold JellyfinCache.lookStep
    dsimp only
    split
    · exact h.setRead call ((hphase _).found fun jid hjid => by cases hjid)
    · next id _ =>
      refine (h.withStore _ fun e he => .inl (JellyfinStore.mem_get he)).setRead call ?_
      cases hget : (s.store.get (s.user, id) now).2 with
      | none => exact ⟨hr.since, hr.entries, hr.results⟩
      | some watched =>
        refine (hphase _).found fun jid hjid watched' hstatus written hwritten => ?_
        cases hjid
        cases hstatus
        obtain ⟨e, he, hkey, rfl⟩ := JellyfinStore.get_eq_some hget
        exact (h.settled id written (hr.since id written hwritten)).cached e he hkey

theorem Sound.fetchStep (h : s.Sound) (call : Nat) {r : JellyfinRead}
    (hr : ReadSound s.settled r) (answer : Option (List String)) (chunks : List (List String)) :
    (s.fetchStep call r answer chunks).Sound := by
  cases chunks with
  | nil => exact h.setRead call ⟨hr.since, hr.entries, hr.results⟩
  | cons chunk rest =>
    unfold JellyfinCache.fetchStep
    dsimp only
    split
    · next found =>
      refine h.setRead call ⟨hr.since, fun entry hentry written hwritten => ?_, hr.results⟩
      rcases List.mem_append.mp hentry with hold | hnew
      · exact hr.entries entry hold written hwritten
      · obtain ⟨id, -, rfl⟩ := List.mem_map.mp hnew
        exact (h.settled id written (hr.since id written hwritten)).played
    · exact h.setRead call ⟨hr.since, hr.entries, hr.results⟩

theorem Sound.storeStep (h : s.Sound) (call now : Nat) {r : JellyfinRead}
    (hr : ReadSound s.settled r) {rest : List (String × List ActionItem)}
    (hok : ∀ id items rest', rest = (id, items) :: rest' →
      ∀ entry, r.entries.find? (·.1 == id) = some entry →
        ∀ written, s.settled id = some written → entry.2 = written) :
    (s.storeStep call now r rest).Sound := by
  cases rest with
  | nil =>
    have hdone := h.setRead call (r := { r with phase := .done }) ⟨hr.since, hr.entries, hr.results⟩
    refine ⟨fun id written hsettled => ?_, hdone.alone, hdone.sent, hdone.reads,
      fun answer hanswer => ?_⟩
    · have hold := hdone.settled id written hsettled
      exact ⟨hold.idle, hold.played, hold.cached⟩
    · rcases List.mem_append.mp hanswer with hold | hnew
      · exact h.answers answer hold
      · obtain rfl := List.mem_singleton.mp hnew
        exact hr.results
  | cons head rest =>
    obtain ⟨id, items⟩ := head
    have hphase : ReadSound s.settled { r with phase := .storing rest } :=
      ⟨hr.since, hr.entries, hr.results⟩
    unfold JellyfinCache.storeStep
    dsimp only
    split
    · exact h.setRead call (hphase.found fun jid _ watched hstatus => by cases hstatus)
    · next entry hentry =>
      refine (h.insert fun _ => hok id items rest rfl entry hentry).setRead call ?_
      refine hphase.found fun jid hjid watched hstatus written hwritten => ?_
      cases hjid
      cases hstatus
      have hid : entry.1 = id := by simpa using List.find?_some hentry
      exact hr.entries entry (List.mem_of_find?_eq_some hentry) written (hid ▸ hwritten)

/-- A write under way goes on, or ends without being settled. Jellyfin has what it sent,
once it has got that far. -/
theorem Sound.setWrite (h : s.Sound) {call : Nat} {w : JellyfinWrite}
    (hw : s.writes[call]? = some w) (hactive : w.active = true) (w' : JellyfinWrite)
    (played : String → Bool) (hid : w'.id = w.id) (halone : w'.alone = w.alone)
    (hplayed : ∀ id, id ≠ w.id → played id = s.played id)
    (hsent : w'.alone = true → (w'.phase = .invalidating ∨ w'.phase = .caching) →
      played w.id = w'.watched) :
    Sound { s.setWrite call w' with played := played } := by
  have hcontinues : Continues (s.writes.set call w') s.writes :=
    continues_set hw hid halone hactive
  refine ⟨fun id written hwritten => ?_, hcontinues.alone h.alone, fun x hx hxalone hxphase => ?_,
    h.reads, h.answers⟩
  · have hold := h.settled id written hwritten
    have hne : id ≠ w.id := by
      rintro rfl
      have hnone := h.settled_of_active (List.mem_of_getElem? hw) hactive
      exact absurd (hnone.symm.trans hwritten) (by simp)
    exact ⟨hcontinues.idle hold.idle, (hplayed id hne).trans hold.played, hold.cached⟩
  · obtain ⟨i, hi⟩ := List.mem_iff_getElem?.mp hx
    change (s.writes.set call w')[i]? = some x at hi
    rw [List.getElem?_set] at hi
    split at hi
    · split at hi
      · obtain rfl := Option.some.inj hi
        exact hid ▸ hsent hxalone hxphase
      · cases hi
    · next hne =>
      have hxactive : x.active = true := by
        rcases hxphase with hphase | hphase <;> simp [JellyfinWrite.active, hphase]
      have hidx : x.id ≠ w.id := fun heq =>
        hne (h.alone i x hi hxalone hxactive call w hw heq.symm hactive)
      exact (hplayed x.id hidx).trans (h.sent x (List.mem_of_getElem? hi) hxalone hxphase)

/-- A write that ends has settled its item where it was alone. -/
theorem Sound.cacheStep (h : s.Sound) {call now : Nat} {w : JellyfinWrite}
    (hw : s.writes[call]? = some w) (hphase : w.phase = .caching) :
    (s.cacheStep call now w).Sound := by
  have hactive : w.active = true := by simp [JellyfinWrite.active, hphase]
  have hmem : w ∈ s.writes := List.mem_of_getElem? hw
  have hnone := h.settled_of_active hmem hactive
  have hstored : Sound { s with store := s.store.insert s.user w.id w.watched now } := by
    refine h.insert fun _ written hwritten => ?_
    exact absurd (hnone.symm.trans hwritten) (by simp)
  have hended := hstored.setWrite hw hactive { w with phase := .done } s.played rfl rfl
    (fun _ _ => rfl) fun _ hphase => by simp at hphase
  unfold JellyfinCache.cacheStep
  by_cases halone : w.alone = true
  · rw [if_pos halone]
    have hknown : ∀ id written, s.settled id = some written → id ≠ w.id := by
      rintro id written hwritten rfl
      exact absurd (hnone.symm.trans hwritten) (by simp)
    refine ⟨fun id written hwritten => ?_, hended.alone, hended.sent, fun r hr => ?_, h.answers⟩
    · by_cases hid : id = w.id
      · subst hid
        obtain rfl : w.watched = written := by simpa using hwritten
        refine ⟨fun v hv hid => ?_, h.sent w hmem halone (.inr hphase), fun e he hkey => ?_⟩
        · -- No other write of the item is under way, and this one is over.
          obtain ⟨j, hj⟩ := List.mem_iff_getElem?.mp hv
          change (s.writes.set call _)[j]? = some v at hj
          rw [List.getElem?_set] at hj
          split at hj
          · split at hj
            · obtain rfl := Option.some.inj hj
              rfl
            · cases hj
          · next hne =>
            by_contra hv'
            rw [Bool.not_eq_false] at hv'
            exact hne (h.alone call w hw halone hactive j v hj hid hv').symm
        · rcases JellyfinStore.mem_insert he with rfl | ⟨-, hne⟩
          · rfl
          · exact absurd hkey hne
      · have hwritten : s.settled id = some written := by simpa [hid] using hwritten
        have hold := hended.settled id written hwritten
        exact ⟨hold.idle, hold.played, hold.cached⟩
    · refine (h.reads r hr).frame fun id written hwritten => ?_
      have hold := (h.reads r hr).since id written hwritten
      simpa [hknown id written hold] using hold
  · rw [if_neg halone]
    exact hended

theorem Sound.startWrite (h : s.Sound) (id : String) (watched : Bool) :
    Sound { s.disturb id with
      writes := (s.disturb id).writes
        ++ [⟨id, watched, s.writes.all fun w => w.id ≠ id || !w.active, .sending⟩] } := by
  have hold := h.disturb id
  have hothers : ∀ v ∈ (s.disturb id).writes, v.id = id → v.alone = false := by
    intro v hv hid
    obtain ⟨v₀, -, rfl⟩ := List.mem_map.mp hv
    by_cases hid₀ : v₀.id = id
    · rw [if_pos hid₀]
    · rw [if_neg hid₀] at hid
      exact absurd hid hid₀
  have hidle : (s.writes.all fun w => w.id ≠ id || !w.active) = true →
      ∀ v ∈ (s.disturb id).writes, v.id = id → v.active = false := by
    intro hall v hv hid
    obtain ⟨v₀, hv₀, rfl⟩ := List.mem_map.mp hv
    have hv₀' := List.all_eq_true.mp hall v₀ hv₀
    by_cases hid₀ : v₀.id = id
    · simpa [hid₀, JellyfinWrite.active] using hv₀'
    · rw [if_neg hid₀] at hid
      exact absurd hid hid₀
  refine ⟨fun id' written hwritten => ?_, fun i w hw halone hactive j v hv hid hv' => ?_,
    fun w hw halone hphase => ?_, hold.reads, hold.answers⟩
  · have hid' := hold.settled id' written hwritten
    refine ⟨fun w hw hid => ?_, hid'.played, hid'.cached⟩
    rcases List.mem_append.mp hw with hw | hw
    · exact hid'.idle w hw hid
    · obtain rfl := List.mem_singleton.mp hw
      obtain rfl : id = id' := hid
      simp [JellyfinCache.disturb] at hwritten
  · have hlast : ∀ (k : Nat) (x : JellyfinWrite), ((s.disturb id).writes
        ++ [⟨id, watched, s.writes.all fun w => w.id ≠ id || !w.active, .sending⟩])[k]? = some x →
        (s.disturb id).writes[k]? = some x ∨ k = (s.disturb id).writes.length
          ∧ x = ⟨id, watched, s.writes.all fun w => w.id ≠ id || !w.active, .sending⟩ := by
      intro k x hx
      rw [List.getElem?_append] at hx
      split at hx
      · exact .inl hx
      · rw [List.getElem?_singleton] at hx
        split at hx
        · exact .inr ⟨by omega, (Option.some.inj hx).symm⟩
        · cases hx
    rcases hlast i w hw with hw | ⟨rfl, rfl⟩
    · rcases hlast j v hv with hv | ⟨rfl, rfl⟩
      · exact hold.alone i w hw halone hactive j v hv hid hv'
      · exact absurd halone (by simp [hothers w (List.mem_of_getElem? hw) hid.symm])
    · rcases hlast j v hv with hv | ⟨rfl, rfl⟩
      · exact absurd hv' (by simp [hidle halone v (List.mem_of_getElem? hv) hid])
      · rfl
  · rcases List.mem_append.mp hw with hw | hw
    · exact hold.sent w hw halone hphase
    · obtain rfl := List.mem_singleton.mp hw
      simp at hphase

theorem Sound.elsewhere (h : s.Sound) (id : String) (watched : Bool) :
    Sound { s.disturb id with played := Function.update s.played id watched } := by
  have hold := h.disturb id
  have hne : ∀ id' written, (s.disturb id).settled id' = some written → id' ≠ id := by
    rintro id' written hwritten rfl
    simp [JellyfinCache.disturb] at hwritten
  refine ⟨fun id' written hwritten => ?_, hold.alone, fun w hw halone hphase => ?_, hold.reads,
    hold.answers⟩
  · have hid' := hold.settled id' written hwritten
    refine ⟨hid'.idle, ?_, hid'.cached⟩
    exact (Function.update_of_ne (hne id' written hwritten) ..).trans hid'.played
  · have hid : w.id ≠ id := by
      obtain ⟨v, -, rfl⟩ := List.mem_map.mp hw
      intro hid
      by_cases hv : v.id = id
      · simp [hv] at halone
      · rw [if_neg hv] at hid
        exact hv hid
    exact (Function.update_of_ne hid ..).trans (hold.sent w hw halone hphase)

/-- **Every step within the condition keeps the invariant.** -/
theorem Sound.step {act : Act} (h : s.Sound) (hstep : Step s act t) (hok : s.Ok act) : t.Sound := by
  unfold Step JellyfinCache.next at hstep
  cases act with
  | startRead items =>
    cases hstep
    refine ⟨fun id written hwritten => ?_, h.alone, h.sent, fun r hr => ?_, h.answers⟩
    · have hold := h.settled id written hwritten
      exact ⟨hold.idle, hold.played, hold.cached⟩
    · rcases List.mem_append.mp hr with hr | hr
      · exact h.reads r hr
      · obtain rfl := List.mem_singleton.mp hr
        exact ⟨fun _ _ hwritten => hwritten, by simp, by simp⟩
  | look call now =>
    dsimp only at hstep
    split at hstep
    · next r hr =>
      split at hstep
      · cases hstep
        exact h.lookStep call now (h.reads r (List.mem_of_getElem? hr)) _
      · cases hstep
    · cases hstep
  | fetch call answer =>
    dsimp only at hstep
    split at hstep
    · next r hr =>
      split at hstep
      · cases hstep
        exact h.fetchStep call (h.reads r (List.mem_of_getElem? hr)) answer _
      · cases hstep
    · cases hstep
  | store call now =>
    dsimp only at hstep
    split at hstep
    · next r hr =>
      split at hstep
      · next rest hphase =>
        cases hstep
        refine h.storeStep call now (h.reads r (List.mem_of_getElem? hr)) ?_
        intro id items rest' hrest
        exact hok r hr id items rest' (hphase.trans (congrArg _ hrest))
      · cases hstep
    · cases hstep
  | startWrite id watched =>
    cases hstep
    exact h.startWrite id watched
  | wrote call ok took =>
    dsimp only at hstep
    split at hstep
    · next w hw =>
      split at hstep
      · next hphase =>
        cases hstep
        refine h.setWrite hw (by simp [JellyfinWrite.active, hphase])
          { w with phase := if ok then .invalidating else .done } _ rfl rfl
          (fun id hid => ?_) ?_
        · split
          · exact Function.update_of_ne hid ..
          · rfl
        · intro _ hsent
          cases ok with
          | true => simp
          | false => simp at hsent
      · cases hstep
    · cases hstep
  | invalidate call =>
    dsimp only at hstep
    split at hstep
    · next w hw =>
      split at hstep
      · next hphase =>
        cases hstep
        have hdropped := h.withStore (s.store.invalidate (some s.user)) fun e he =>
          .inl (JellyfinStore.mem_invalidate he)
        refine hdropped.setWrite hw (by simp [JellyfinWrite.active, hphase])
          { w with phase := .caching } s.played rfl rfl (fun _ _ => rfl) ?_
        exact fun halone _ => h.sent w (List.mem_of_getElem? hw) halone (.inl hphase)
      · cases hstep
    · cases hstep
  | cache call now =>
    dsimp only at hstep
    split at hstep
    · next w hw =>
      split at hstep
      · next hphase =>
        cases hstep
        exact h.cacheStep hw hphase
      · cases hstep
    · cases hstep
  | elsewhere id watched =>
    cases hstep
    exact h.elsewhere id watched
  | otherGet user id now =>
    dsimp only at hstep
    split at hstep
    · cases hstep
    · cases hstep
      exact h.withStore _ fun e he => .inl (JellyfinStore.mem_get he)
  | otherSet user id watched now =>
    dsimp only at hstep
    split at hstep
    · cases hstep
    · next huser =>
      cases hstep
      exact h.insert fun heq => absurd heq huser
  | clear user =>
    cases hstep
    exact h.withStore _ fun e he => .inl (JellyfinStore.mem_invalidate he)

end Steps

theorem sound_start (user : Int) (played : String → Bool) : (start user played).Sound := by
  refine ⟨fun id written h => ?_, fun i w h => ?_, ?_, ?_, ?_⟩
  · cases h
  · cases h
  · exact fun w h => absurd h List.not_mem_nil
  · exact fun r h => absurd h List.not_mem_nil
  · exact fun a h => absurd h List.not_mem_nil

/-- **Reads show writes**, in every run in which no reader stores a state other than the
one a write that is over has set. -/
theorem reads_show_writes {user : Int} {played : String → Bool} {acts : List Act}
    {s : JellyfinCache} (h : Run (Guarded Step Ok) (start user played) acts s) :
    s.ReadsShowWrites := by
  have hsound : s.Sound :=
    h.invariant (fun _ _ _ hs hstep => hs.step hstep.2 hstep.1) (sound_start user played)
  exact hsound.answers

/-! ### A slow reader -/

/-- A film, mapped to the item `a` of Jellyfin. -/
def film : ActionItem × Option String := (⟨.movie, 1⟩, some "a")

/-- The film is marked as watched, and the next reader asks for it. -/
def markedThenRead : List Act :=
  [.startWrite "a" true, .wrote 0 true true, .invalidate 0, .cache 0 0, .startRead [film],
    .look 0 1, .look 0 1, .fetch 0 none, .store 0 1]

/-- The next reader finds it watched. -/
theorem reads_show_writes_marked :
    ∃ s, Run (Guarded Step Ok) (start 7 fun _ => false) markedThenRead s ∧ s.ReadsShowWrites := by
  have hrun : ∃ s, Run (Guarded Step Ok) (start 7 fun _ => false) markedThenRead s := by
    refine ⟨_, .cons ⟨trivial, rfl⟩ (.cons ⟨trivial, rfl⟩ (.cons ⟨trivial, rfl⟩
      (.cons ⟨trivial, rfl⟩ (.cons ⟨trivial, rfl⟩ (.cons ⟨trivial, rfl⟩ (.cons ⟨trivial, rfl⟩
        (.cons ⟨trivial, rfl⟩ (.single ⟨?_, rfl⟩))))))))⟩
    intro r hr id items rest hphase
    obtain rfl := Option.some.inj hr
    cases hphase
  obtain ⟨s, hrun⟩ := hrun
  exact ⟨s, hrun, reads_show_writes hrun⟩

/-- A reader fetches the film's state, the film is marked as watched, the reader stores
what it fetched, and another reader asks for the film. -/
def slowRead : List Act :=
  [.startRead [film], .look 0 0, .look 0 0, .fetch 0 (some ["a"]), .startWrite "a" true,
    .wrote 0 true true, .invalidate 0, .cache 0 1, .fetch 0 none, .store 0 2, .startRead [film],
    .look 1 3, .look 1 3, .fetch 1 none, .store 1 3]

/-- **A slow reader brings the old state back**: a reader that starts after the write is
over finds the film unwatched. -/
theorem stale_after_write :
    ∃ s, Run Step (start 7 fun _ => false) slowRead s ∧ ¬ s.ReadsShowWrites := by
  refine ⟨_, .cons rfl (.cons rfl (.cons rfl (.cons rfl (.cons rfl (.cons rfl (.cons rfl
    (.cons rfl (.cons rfl (.cons rfl (.cons rfl (.cons rfl (.cons rfl (.cons rfl
      (.single rfl)))))))))))))), fun hshows => ?_⟩
  have hfilm := hshows _ (List.mem_singleton_self _) _ (List.mem_singleton_self _) "a" rfl false rfl
    true rfl
  cases hfilm

end JellyfinCache

end Foreseerr

import Foreseerr.Run
import Mathlib.Data.List.Nodup
import Mathlib.Data.Nat.Basic
import Mathlib.Logic.Function.Basic
import Mathlib.Order.Basic

/-!
# The provider row cache

`rowcache.rs` serves computed provider rows stale-while-revalidate. A lookup
reads the generation, takes the lock and looks for a row and for a flight of
that generation; what it finds decides whether it serves, joins the flight,
or takes off on a computation of its own. `clear` and `mark_stale` only bump
counters, at any moment, also in the middle of a lookup.

A generation is read twice: by the lookup before it takes the lock, and by
`take_off` under it. A clear between the two hides the flight of the new
generation from a lookup that then takes off under that generation itself,
and two computations of one row run at once (`RowCache.two_flights`). In the
runs without such a take-off every key and generation has one flight
(`RowCache.single_flight`); what a clear and a stale mark promise holds in
every run (`RowCache.fresh`).
-/

namespace Foreseerr

/-- `Row`, with the generation the process was in when its computation
started. `stored` is left to the steps, which say whether a row is recent. -/
structure Row (V : Type) where
  value : V
  generation : Nat
  epoch : Nat
  started : Nat

/-- `Flight`, with the generation its computation started in. -/
structure Flight where
  id : Nat
  generation : Nat
  started : Nat
deriving DecidableEq, Repr

/-- Where the owner of a computation is: computing (the only place where it
can be abandoned), before `land`, before the row is stored, before the answer
is sent, and before its `Landing` is dropped. -/
inductive OwnerStage (V E : Type)
  | computing
  | landing (result : Except E V)
  | storing (value : V)
  | sending (result : Except E V)
  | done

/-- What a computation takes off with: its flight's id, its key, the marks
`take_off` read, and the generation the process was in when it started. -/
structure Ticket where
  id : Nat
  key : String
  generation : Nat
  epoch : Nat
  started : Nat
deriving DecidableEq, Repr

/-- `Owned`: a computation in flight. -/
structure Owned (V E : Type) extends Ticket where
  stage : OwnerStage V E := .computing

/-- Where a lookup that holds the lock is: it has found the row and the
flight of its generation, is about to take off, or has read the generation
in `take_off`. -/
inductive LookSection (V : Type)
  | found (row : Row V) (flying : Bool)
  | takingOff (row : Option (Row V))
  | tookOff (row : Option (Row V)) (generation : Nat)

/-- The lookup that holds the lock. -/
structure LookHolder (V : Type) where
  task : Nat
  key : String
  generation : Nat
  stage : LookSection V

/-- Where a lookup without the lock is: nowhere, before the lock with the
generation it read, holding the lock, or waiting for a flight. -/
inductive LookPhase
  | idle
  | looking (key : String) (generation : Nat)
  | locked
  | waiting (key : String) (flight : Nat)
deriving DecidableEq, Repr

/-- A row that was served: the generation the process was in when the lookup
started, the generation and the stale epoch when the row's computation
started, the stale epoch at the serve, and whether a computation of the key
was in flight. -/
structure ServedRow where
  since : Nat
  started : Nat
  epoch : Nat
  staleEpoch : Nat
  refreshing : Bool
deriving DecidableEq, Repr

/-- A flight that was joined: the generation the process was in when the
lookup started, and when the computation did. -/
structure JoinedFlight where
  since : Nat
  started : Nat
deriving DecidableEq, Repr

/-- `RowCache` and `Marks`, with everyone at work on them. `closing` are the
flights whose `Landing` is dropped but not yet their sender; `served` and
`joined` are history. -/
structure RowCache (V E : Type) where
  generation : Nat := 0
  staleEpoch : Nat := 0
  nextId : Nat := 0
  rows : String → Option (Row V) := fun _ => none
  flights : String → Option Flight := fun _ => none
  holder : Option (LookHolder V) := none
  lookups : Nat → LookPhase := fun _ => .idle
  owners : List (Owned V E) := []
  closing : List Nat := []
  answers : Nat → Option (Except E V) := fun _ => none
  served : List ServedRow := []
  joined : List JoinedFlight := []

namespace RowCache

variable {V E : Type}

/-- The computations in flight. -/
def tickets (s : RowCache V E) : List Ticket := s.owners.map Owned.toTicket

/-- Whether the sender of a flight is still held. -/
def senderHeld (s : RowCache V E) (flight : Nat) : Bool :=
  (s.tickets.any fun ticket => ticket.id == flight) || s.closing.contains flight

/-- Whether a flight of a key is in the table, with its owner at work. -/
def refreshing (s : RowCache V E) (key : String) : Bool :=
  (s.flights key).any fun flight => s.tickets.any fun ticket => ticket.id == flight.id

/-- A lookup moves on. -/
def setLookup (s : RowCache V E) (task : Nat) (phase : LookPhase) : RowCache V E :=
  { s with lookups := Function.update s.lookups task phase }

/-- A row is served: the lookup is over and lets the lock go. -/
def serve (s : RowCache V E) (holder : LookHolder V) (row : Row V) : RowCache V E :=
  { s.setLookup holder.task .idle with
    holder := none
    served := s.served ++
      [⟨holder.generation, row.started, row.epoch, s.staleEpoch, s.refreshing holder.key⟩] }

/-- The end of `take_off`: the flight of a new id is in the table. -/
def insertFlight (s : RowCache V E) (key : String) (generation : Nat) : RowCache V E :=
  let id := s.nextId + 1
  { s with
    nextId := id
    flights := Function.update s.flights key (some ⟨id, generation, s.generation⟩)
    owners := s.owners ++ [{
      id := id, key := key, generation := generation
      epoch := s.staleEpoch, started := s.generation }] }

/-- The owner of a flight. -/
def owner? (s : RowCache V E) (flight : Nat) : Option (Owned V E) :=
  s.owners.find? fun owned => owned.id == flight

/-- An owner moves on. -/
def setStage (s : RowCache V E) (flight : Nat) (stage : OwnerStage V E) : RowCache V E :=
  { s with
    owners := s.owners.map fun owned =>
      if owned.id = flight then { owned with stage := stage } else owned }

/-- `Landing`'s drop. -/
def dropLanding (s : RowCache V E) (owned : Owned V E) : RowCache V E :=
  { s with
    flights := if (s.flights owned.key).any fun flight => flight.id == owned.id
      then Function.update s.flights owned.key none else s.flights
    owners := s.owners.filter fun other => other.id ≠ owned.id
    closing := owned.id :: s.closing }

/-- A step: the two marks; the expiry or eviction of a row; `look`'s reading
of the generation, its look into the tables under the lock, its reading of
the stale epoch (and whether the row is recent enough), `take_off`'s reading
of the generation and its end; a waiting lookup that is woken; and an owner's
result, its reading of the generation in `land`, the storing of the row, the
sending of the answer, the drop of its `Landing` and of its sender. -/
inductive Act (V E : Type)
  | clear
  | markStale
  | evict (key : String)
  | look (task : Nat) (key : String)
  | enter (task : Nat)
  | readEpoch (recent : Bool)
  | takeOff
  | tookOff
  | wake (task : Nat)
  | computed (flight : Nat) (result : Except E V)
  | land (flight : Nat)
  | store (flight : Nat)
  | send (flight : Nat)
  | drop (flight : Nat)
  | close (flight : Nat)

/-- What `look` finds under the lock. -/
def enter (s : RowCache V E) (task : Nat) (key : String) (generation : Nat) : RowCache V E :=
  let flying := (s.flights key).filter fun flight => flight.generation == generation
  let row := (s.rows key).filter fun row => row.generation == generation
  match row, flying with
  | some row, flying =>
    { s.setLookup task .locked with
      holder := some ⟨task, key, generation, .found row flying.isSome⟩ }
  | none, some flight =>
    { s.setLookup task (.waiting key flight.id) with
      joined := s.joined ++ [⟨generation, flight.started⟩] }
  | none, none =>
    { s.setLookup task .locked with holder := some ⟨task, key, generation, .takingOff none⟩ }

/-- A step of the lookup that holds the lock. -/
def holderStep (s : RowCache V E) (holder : LookHolder V) : Act V E → Option (RowCache V E)
  | .readEpoch recent =>
    match holder.stage with
    | .found row flying =>
      if (row.epoch = s.staleEpoch ∧ recent = true) ∨ flying = true then some (s.serve holder row)
      else some { s with holder := some { holder with stage := .takingOff (some row) } }
    | _ => none
  | .takeOff =>
    match holder.stage with
    | .takingOff row =>
      some { s with holder := some { holder with stage := .tookOff row s.generation } }
    | _ => none
  | .tookOff =>
    match holder.stage with
    | .tookOff row generation =>
      let s := s.insertFlight holder.key generation
      match row with
      | some row => some (s.serve holder row)
      | none => some { s.setLookup holder.task .idle with holder := none }
    | _ => none
  | _ => none

/-- A step of the owner of a flight. -/
def ownerStep (s : RowCache V E) (owned : Owned V E) : Act V E → Option (RowCache V E)
  | .computed flight result =>
    match owned.stage with
    | .computing => some (s.setStage flight (.landing result))
    | _ => none
  | .land flight =>
    match owned.stage with
    | .landing (.ok value) =>
      some (s.setStage flight
        (if owned.generation = s.generation then .storing value else .sending (.ok value)))
    | .landing (.error e) => some (s.setStage flight (.sending (.error e)))
    | _ => none
  | .store flight =>
    match owned.stage, s.holder with
    | .storing value, none =>
      some { s.setStage flight (.sending (.ok value)) with
        rows := Function.update s.rows owned.key
          (some ⟨value, owned.generation, owned.epoch, owned.started⟩) }
    | _, _ => none
  | .send flight =>
    match owned.stage with
    | .sending result =>
      some { s.setStage flight .done with
        answers := Function.update s.answers flight (some result) }
    | _ => none
  | .drop _ =>
    match owned.stage, s.holder with
    | .computing, none | .done, none => some (s.dropLanding owned)
    | _, _ => none
  | _ => none

/-- One step of the cache. -/
def next (s : RowCache V E) (act : Act V E) : Option (RowCache V E) :=
  match act with
  | .clear => some { s with generation := s.generation + 1 }
  | .markStale => some { s with staleEpoch := s.staleEpoch + 1 }
  | .evict key =>
    match s.holder with
    | none => some { s with rows := Function.update s.rows key none }
    | some _ => none
  | .look task key =>
    match s.lookups task with
    | .idle => some (s.setLookup task (.looking key s.generation))
    | _ => none
  | .enter task =>
    match s.lookups task, s.holder with
    | .looking key generation, none => some (s.enter task key generation)
    | _, _ => none
  | .wake task =>
    match s.lookups task with
    | .waiting key flight =>
      if (s.answers flight).isSome then some (s.setLookup task .idle)
      else if s.senderHeld flight then none
      else some (s.setLookup task (.looking key s.generation))
    | _ => none
  | .close flight =>
    if s.closing.contains flight then some { s with closing := s.closing.filter (· ≠ flight) }
    else none
  | .readEpoch _ | .takeOff | .tookOff =>
    s.holder.bind fun holder => s.holderStep holder act
  | .computed flight _ | .land flight | .store flight | .send flight | .drop flight =>
    (s.owner? flight).bind fun owned => s.ownerStep owned act

/-- A step from one state to another. -/
def Step (s : RowCache V E) (act : Act V E) (t : RowCache V E) : Prop := s.next act = some t

/-! ## What the cache promises -/

/-- No flight of this key and generation is in the table. -/
def NoFlight (s : RowCache V E) (key : String) (generation : Nat) : Prop :=
  ∀ flight, s.flights key = some flight → flight.generation ≠ generation

/-- **One flight for each key and generation**: no two computations of one key
and generation are in flight; a flight that a lookup can find has its owner at
work; a lookup that takes off found none of its generation; and a waiting
lookup whose flight's sender is gone, or has answered, can go on. -/
structure SingleFlight (s : RowCache V E) : Prop where
  apart : s.tickets.Pairwise fun a b => ¬(a.key = b.key ∧ a.generation = b.generation)
  owned : ∀ key flight, s.flights key = some flight → ∃ ticket ∈ s.tickets,
    ticket.id = flight.id ∧ ticket.key = key ∧ ticket.generation = flight.generation
  takingOff : ∀ holder row, s.holder = some holder → holder.stage = .takingOff row →
    s.NoFlight holder.key holder.generation
  waiting : ∀ task key flight, s.lookups task = .waiting key flight →
    s.senderHeld flight = true ∨ ∃ t, s.Step (.wake task) t

/-- **Nothing from before a clear**, and no row from before a stale mark
without a refresh. -/
structure Fresh (s : RowCache V E) : Prop where
  served : ∀ row ∈ s.served, row.since ≤ row.started
    ∧ (row.epoch = row.staleEpoch ∨ row.refreshing = true)
  joined : ∀ flight ∈ s.joined, flight.since ≤ flight.started

/-- **No take-off past a flight**: a lookup that takes off after a clear does
not find a flight of the new generation in the table. -/
def Ok (s : RowCache V E) : Act V E → Prop
  | .takeOff =>
    ∀ holder flight, s.holder = some holder → holder.generation ≠ s.generation →
      s.flights holder.key = some flight → flight.generation ≠ s.generation
  | _ => True

/-! ## The invariants -/

/-- What the lookup that holds the lock knows. -/
def HolderSound (s : RowCache V E) (holder : LookHolder V) : Prop :=
  match holder.stage with
  | .found row flying =>
    holder.generation ≤ row.started ∧ (flying = true → s.refreshing holder.key = true)
      ∧ (flying = false → s.NoFlight holder.key holder.generation)
  | .takingOff row =>
    (∀ r, row = some r → holder.generation ≤ r.started)
      ∧ s.NoFlight holder.key holder.generation
  | .tookOff row generation =>
    (∀ r, row = some r → holder.generation ≤ r.started) ∧ generation ≤ s.generation

/-- **The invariant of every run**: ids are distinct, every flight in the table
is an owner's, and generations are those of computations started no earlier. -/
structure Sound (s : RowCache V E) : Prop where
  ids : (s.tickets.map Ticket.id).Nodup
  ids_le : ∀ ticket ∈ s.tickets, ticket.id ≤ s.nextId
  tickets : ∀ ticket ∈ s.tickets, ticket.generation ≤ ticket.started
    ∧ ticket.generation ≤ s.generation
  owned : ∀ key flight, s.flights key = some flight → ∃ ticket ∈ s.tickets,
    ticket.id = flight.id ∧ ticket.key = key ∧ ticket.generation = flight.generation
      ∧ ticket.started = flight.started
  rows : ∀ key row, s.rows key = some row → row.generation ≤ row.started
  holder : ∀ holder, s.holder = some holder → HolderSound s holder
  fresh : Fresh s

/-- **The invariant of the guarded runs**: computations of one key and
generation are apart, since one whose flight is gone from the table is of an
earlier generation. -/
structure Apart (s : RowCache V E) : Prop where
  apart : s.tickets.Pairwise fun a b => ¬(a.key = b.key ∧ a.generation = b.generation)
  tickets : ∀ ticket ∈ s.tickets,
    (∃ flight, s.flights ticket.key = some flight ∧ flight.id = ticket.id)
      ∨ ticket.generation < s.generation
  tookOff : ∀ holder row generation, s.holder = some holder →
    holder.stage = .tookOff row generation → generation ≤ s.generation
      ∧ ∀ ticket ∈ s.tickets, ticket.key = holder.key → ticket.generation < generation

variable {s t : RowCache V E}

/-! ### What the steps do to the computations in flight -/

@[simp] theorem tickets_setStage (s : RowCache V E) (flight : Nat) (stage : OwnerStage V E) :
    (s.setStage flight stage).tickets = s.tickets := by
  simp only [RowCache.tickets, setStage, List.map_map]
  refine List.map_congr_left fun owned _ => ?_
  show (if owned.id = flight then { owned with stage := stage } else owned).toTicket = owned.toTicket
  split <;> rfl

theorem tickets_insertFlight (s : RowCache V E) (key : String) (generation : Nat) :
    (s.insertFlight key generation).tickets
      = s.tickets ++ [⟨s.nextId + 1, key, generation, s.staleEpoch, s.generation⟩] := by
  simp [RowCache.tickets, insertFlight]

theorem tickets_dropLanding (s : RowCache V E) (owned : Owned V E) :
    (s.dropLanding owned).tickets = s.tickets.filter fun ticket => ticket.id ≠ owned.id := by
  simp [RowCache.tickets, dropLanding, List.filter_map, Function.comp_def]

/-- An owner that is found is in flight. -/
theorem owner?_spec {flight : Nat} {owned : Owned V E} (h : s.owner? flight = some owned) :
    owned.toTicket ∈ s.tickets ∧ owned.id = flight := by
  refine ⟨List.mem_map_of_mem (List.mem_of_find?_eq_some h), ?_⟩
  simpa using List.find?_some h

/-- A flight in the table is being computed. -/
theorem Sound.refreshing (h : Sound s) {key : String} {flight : Flight}
    (hflight : s.flights key = some flight) : s.refreshing key = true := by
  obtain ⟨ticket, hticket, hid, -⟩ := h.owned key flight hflight
  simp only [RowCache.refreshing, hflight, Option.any_some, List.any_eq_true, beq_iff_eq]
  exact ⟨ticket, hticket, hid⟩

/-- What the invariant asks where neither the tables nor the computations in
flight change. -/
theorem Sound.frame (h : Sound s) (htickets : t.tickets = s.tickets) (hid : t.nextId = s.nextId)
    (hgeneration : s.generation ≤ t.generation) (hflights : t.flights = s.flights)
    (hrows : ∀ key row, t.rows key = some row → row.generation ≤ row.started)
    (hholder : ∀ holder, t.holder = some holder → HolderSound t holder) (hfresh : Fresh t) :
    Sound t where
  ids := htickets ▸ h.ids
  ids_le := by
    rw [htickets, hid]
    exact h.ids_le
  tickets := by
    rw [htickets]
    exact fun ticket hticket => ⟨(h.tickets ticket hticket).1,
      (h.tickets ticket hticket).2.trans hgeneration⟩
  owned := by
    rw [htickets, hflights]
    exact h.owned
  rows := hrows
  holder := hholder
  fresh := hfresh

theorem Apart.frame (h : Apart s) (htickets : t.tickets = s.tickets)
    (hgeneration : s.generation ≤ t.generation) (hflights : t.flights = s.flights)
    (hholder : ∀ holder row generation, t.holder = some holder →
      holder.stage = .tookOff row generation → generation ≤ t.generation
        ∧ ∀ ticket ∈ s.tickets, ticket.key = holder.key → ticket.generation < generation) :
    Apart t where
  apart := htickets ▸ h.apart
  tickets := by
    rw [htickets, hflights]
    intro ticket hticket
    exact (h.tickets ticket hticket).imp id fun hlt => hlt.trans_le hgeneration
  tookOff := by
    rw [htickets]
    exact hholder

/-- What the holder of the lock knows outlasts what the others do. -/
theorem HolderSound.frame {holder : LookHolder V} (h : HolderSound s holder)
    (htickets : t.tickets = s.tickets) (hgeneration : s.generation ≤ t.generation)
    (hflights : t.flights = s.flights) : HolderSound t holder := by
  unfold HolderSound at h ⊢
  cases hs : holder.stage with
  | found row flying =>
    simp only [hs, RowCache.refreshing, NoFlight, htickets, hflights] at h ⊢
    exact h
  | takingOff row =>
    simp only [hs, NoFlight, hflights] at h ⊢
    exact h
  | tookOff row generation =>
    simp only [hs] at h ⊢
    exact ⟨h.1, h.2.trans hgeneration⟩

/-- The history after a serve. -/
theorem Fresh.serve (h : Fresh s) {holder : LookHolder V} {row : Row V}
    (hsince : holder.generation ≤ row.started)
    (hrefresh : row.epoch = s.staleEpoch ∨ s.refreshing holder.key = true) :
    Fresh (s.serve holder row) where
  served := by
    intro served hserved
    rcases List.mem_append.mp hserved with hserved | hserved
    · exact h.served served hserved
    · obtain rfl := List.mem_singleton.mp hserved
      exact ⟨hsince, hrefresh⟩
  joined := h.joined

/-! ### The steps of a lookup -/

theorem noFlight_of_filter {key : String} {generation : Nat}
    (h : (s.flights key).filter (fun flight => flight.generation == generation) = none) :
    s.NoFlight key generation := by
  intro flight hflight hgeneration
  simp [hflight, hgeneration] at h

theorem Sound.enter (h : Sound s) {task : Nat} {key : String} {generation : Nat} :
    Sound (s.enter task key generation) := by
  have hrow : ∀ row, (s.rows key).filter (fun row => row.generation == generation) = some row →
      generation ≤ row.started := by
    intro row hrow
    obtain ⟨hrow, hgeneration⟩ := Option.filter_eq_some_iff.mp hrow
    exact beq_iff_eq.mp hgeneration ▸ h.rows key row hrow
  unfold RowCache.enter
  cases hr : (s.rows key).filter fun row => row.generation == generation with
  | some row =>
    refine h.frame rfl rfl le_rfl rfl h.rows (fun holder hholder => ?_)
      ⟨h.fresh.served, h.fresh.joined⟩
    obtain rfl := Option.some.inj hholder
    refine ⟨hrow row hr, fun hflying => ?_, fun hflying => ?_⟩
    · obtain ⟨flight, hflight⟩ := Option.isSome_iff_exists.mp hflying
      exact h.refreshing (Option.filter_eq_some_iff.mp hflight).1
    · exact noFlight_of_filter (Option.isSome_eq_false_iff.mp hflying |> Option.isNone_iff_eq_none.mp)
  | none =>
    cases hf : (s.flights key).filter fun flight => flight.generation == generation with
    | some flight =>
      refine h.frame rfl rfl le_rfl rfl h.rows (fun holder hholder => ?_) ⟨h.fresh.served, ?_⟩
      · exact (h.holder holder hholder).frame rfl le_rfl rfl
      · intro joined hjoined
        rcases List.mem_append.mp hjoined with hjoined | hjoined
        · exact h.fresh.joined joined hjoined
        · obtain rfl := List.mem_singleton.mp hjoined
          obtain ⟨hflight, hgeneration⟩ := Option.filter_eq_some_iff.mp hf
          obtain ⟨ticket, hticket, -, -, hg, hstarted⟩ := h.owned key flight hflight
          show generation ≤ flight.started
          rw [← beq_iff_eq.mp hgeneration, ← hg, ← hstarted]
          exact (h.tickets ticket hticket).1
    | none =>
      refine h.frame rfl rfl le_rfl rfl h.rows (fun holder hholder => ?_)
        ⟨h.fresh.served, h.fresh.joined⟩
      obtain rfl := Option.some.inj hholder
      refine ⟨fun r hr => ?_, noFlight_of_filter hf⟩
      cases hr

theorem Apart.enter (h : Apart s) {task : Nat} {key : String} {generation : Nat} :
    Apart (s.enter task key generation) := by
  unfold RowCache.enter
  cases (s.rows key).filter fun row => row.generation == generation with
  | some row =>
    refine h.frame rfl le_rfl rfl fun holder row g hholder hstage => ?_
    obtain rfl := Option.some.inj hholder
    cases hstage
  | none =>
    cases (s.flights key).filter fun flight => flight.generation == generation with
    | some flight => exact h.frame rfl le_rfl rfl h.tookOff
    | none =>
      refine h.frame rfl le_rfl rfl fun holder row g hholder hstage => ?_
      obtain rfl := Option.some.inj hholder
      cases hstage

/-- The end of a take-off: one computation more, its flight in the table. -/
theorem Sound.insertFlight (h : Sound s) {key : String} {generation : Nat}
    (hgeneration : generation ≤ s.generation) :
    Sound { s.insertFlight key generation with holder := none } where
  ids := by
    show ((s.insertFlight key generation).tickets.map Ticket.id).Nodup
    rw [tickets_insertFlight, List.map_append, List.nodup_append]
    refine ⟨h.ids, List.nodup_singleton _, ?_⟩
    intro a ha b hb
    obtain ⟨ticket, hticket, rfl⟩ := List.mem_map.mp ha
    obtain rfl := List.mem_singleton.mp hb
    exact Nat.ne_of_lt (Nat.lt_succ_of_le (h.ids_le ticket hticket))
  ids_le := by
    show ∀ ticket ∈ (s.insertFlight key generation).tickets, ticket.id ≤ s.nextId + 1
    rw [tickets_insertFlight]
    intro ticket hticket
    rcases List.mem_append.mp hticket with hticket | hticket
    · exact (h.ids_le ticket hticket).trans (Nat.le_succ _)
    · rw [List.mem_singleton.mp hticket]
  tickets := by
    show ∀ ticket ∈ (s.insertFlight key generation).tickets, ticket.generation ≤ ticket.started
      ∧ ticket.generation ≤ s.generation
    rw [tickets_insertFlight]
    intro ticket hticket
    rcases List.mem_append.mp hticket with hticket | hticket
    · exact h.tickets ticket hticket
    · rw [List.mem_singleton.mp hticket]
      exact ⟨hgeneration, hgeneration⟩
  owned := by
    show ∀ key' flight, (s.insertFlight key generation).flights key' = some flight →
      ∃ ticket ∈ (s.insertFlight key generation).tickets, ticket.id = flight.id ∧ ticket.key = key'
        ∧ ticket.generation = flight.generation ∧ ticket.started = flight.started
    rw [tickets_insertFlight]
    intro key' flight hflight
    by_cases hkey : key' = key
    · subst hkey
      simp only [RowCache.insertFlight, Function.update_self, Option.some.injEq] at hflight
      subst hflight
      exact ⟨_, List.mem_append_right _ (List.mem_singleton_self _), rfl, rfl, rfl, rfl⟩
    · simp only [RowCache.insertFlight, Function.update_of_ne hkey] at hflight
      obtain ⟨ticket, hticket, hspec⟩ := h.owned key' flight hflight
      exact ⟨ticket, List.mem_append_left _ hticket, hspec⟩
  rows := h.rows
  holder := fun holder hholder => by cases hholder
  fresh := ⟨h.fresh.served, h.fresh.joined⟩

theorem Apart.insertFlight (h : Apart s) {key : String} {generation : Nat}
    (hapart : ∀ ticket ∈ s.tickets, ticket.key = key → ticket.generation < generation)
    (hgeneration : generation ≤ s.generation) :
    Apart { s.insertFlight key generation with holder := none } where
  apart := by
    show (s.insertFlight key generation).tickets.Pairwise _
    rw [tickets_insertFlight, List.pairwise_append]
    refine ⟨h.apart, List.pairwise_singleton .., ?_⟩
    intro a ha b hb hsame
    obtain rfl := List.mem_singleton.mp hb
    exact Nat.ne_of_lt (hapart a ha hsame.1) hsame.2
  tickets := by
    show ∀ ticket ∈ (s.insertFlight key generation).tickets,
      (∃ flight, (s.insertFlight key generation).flights ticket.key = some flight
        ∧ flight.id = ticket.id) ∨ ticket.generation < s.generation
    rw [tickets_insertFlight]
    intro ticket hticket
    rcases List.mem_append.mp hticket with hticket | hticket
    · by_cases hkey : ticket.key = key
      · exact .inr ((hapart ticket hticket hkey).trans_le hgeneration)
      · simp only [RowCache.insertFlight, Function.update_of_ne hkey]
        exact h.tickets ticket hticket
    · obtain rfl := List.mem_singleton.mp hticket
      exact .inl ⟨_, Function.update_self .., rfl⟩
  tookOff := fun holder row g hholder _ => by cases hholder

/-- After its take-off a lookup's flight is in the table. -/
theorem refreshing_insertFlight (s : RowCache V E) (key : String) (generation : Nat) :
    (s.insertFlight key generation).refreshing key = true := by
  have hflight : (s.insertFlight key generation).flights key
      = some ⟨s.nextId + 1, generation, s.generation⟩ := Function.update_self ..
  simp [RowCache.refreshing, hflight, tickets_insertFlight]

/-- A computation of the key that is about to take off is of an earlier
generation: its flight would be in the table otherwise. -/
theorem Apart.takeOff (h : Apart s) (hs : Sound s) {holder : LookHolder V}
    (hno : s.NoFlight holder.key s.generation) :
    ∀ ticket ∈ s.tickets, ticket.key = holder.key → ticket.generation < s.generation := by
  intro ticket hticket hkey
  rcases h.tickets ticket hticket with ⟨flight, hflight, hid⟩ | hlt
  · obtain ⟨other, hother, hid', -, hgeneration, -⟩ := hs.owned _ flight hflight
    have hsame : other = ticket :=
      List.inj_on_of_nodup_map hs.ids hother hticket (hid'.trans hid)
    refine lt_of_le_of_ne (hs.tickets ticket hticket).2 fun heq => ?_
    exact hno flight (hkey ▸ hflight) (hgeneration.symm.trans (hsame ▸ heq))
  · exact hlt

/-- **A step of the lookup that holds the lock keeps the invariants**, the
second one where it does not take off past a flight. -/
theorem Sound.holderStep (h : Sound s) {act : Act V E} {holder : LookHolder V}
    (hholder : s.holder = some holder) (hstep : s.holderStep holder act = some t) :
    Sound t ∧ (Apart s → Ok s act → Apart t) := by
  have hknows := h.holder holder hholder
  unfold HolderSound at hknows
  cases act with
  | readEpoch recent =>
    simp only [RowCache.holderStep] at hstep
    cases hstage : holder.stage with
    | found row flying =>
      simp only [hstage] at hstep hknows
      split at hstep <;> cases hstep
      · next hserve =>
        have hfresh : Fresh (s.serve holder row) := by
          refine h.fresh.serve hknows.1 ?_
          exact hserve.imp (fun hr => hr.1) fun hf => hknows.2.1 hf
        exact ⟨h.frame rfl rfl le_rfl rfl h.rows (fun _ hn => by cases hn) hfresh,
          fun ha _ => ha.frame rfl le_rfl rfl fun _ _ _ hn => by cases hn⟩
      · next hserve =>
        refine ⟨h.frame rfl rfl le_rfl rfl h.rows (fun _ hn => ?_)
          ⟨h.fresh.served, h.fresh.joined⟩,
          fun ha _ => ha.frame rfl le_rfl rfl fun _ _ _ hn hs => ?_⟩
        · obtain rfl := Option.some.inj hn
          refine ⟨fun r hr => Option.some.inj hr ▸ hknows.1, hknows.2.2 ?_⟩
          exact Bool.eq_false_iff.mpr fun hf => hserve (.inr hf)
        · obtain rfl := Option.some.inj hn
          cases hs
    | takingOff row => simp [hstage] at hstep
    | tookOff row generation => simp [hstage] at hstep
  | takeOff =>
    simp only [RowCache.holderStep] at hstep
    cases hstage : holder.stage with
    | takingOff row =>
      simp only [hstage] at hstep hknows
      cases hstep
      refine ⟨h.frame rfl rfl le_rfl rfl h.rows (fun _ hn => ?_)
          ⟨h.fresh.served, h.fresh.joined⟩,
        fun ha hok => ha.frame rfl le_rfl rfl fun _ _ _ hn hs => ?_⟩
      · obtain rfl := Option.some.inj hn
        exact ⟨hknows.1, le_rfl⟩
      · obtain rfl := Option.some.inj hn
        obtain ⟨-, rfl⟩ := LookSection.tookOff.inj hs
        refine ⟨le_rfl, ha.takeOff h fun flight hflight => ?_⟩
        by_cases hsame : holder.generation = s.generation
        · exact hsame ▸ hknows.2 flight hflight
        · exact hok holder flight hholder hsame hflight
    | found row flying => simp [hstage] at hstep
    | tookOff row generation => simp [hstage] at hstep
  | tookOff =>
    simp only [RowCache.holderStep] at hstep
    cases hstage : holder.stage with
    | tookOff row generation =>
      simp only [hstage] at hstep hknows
      have hs : Sound { s.insertFlight holder.key generation with holder := none } :=
        h.insertFlight hknows.2
      have ha : Apart s → Apart { s.insertFlight holder.key generation with holder := none } :=
        fun ha => by
          obtain ⟨hle, hlt⟩ := ha.tookOff holder row generation hholder hstage
          exact ha.insertFlight hlt hle
      cases row with
      | none =>
        cases hstep
        exact ⟨hs.frame rfl rfl le_rfl rfl h.rows (fun _ hn => by cases hn)
            ⟨h.fresh.served, h.fresh.joined⟩,
          fun hap _ => (ha hap).frame rfl le_rfl rfl fun _ _ _ hn => by cases hn⟩
      | some row =>
        cases hstep
        have hfresh : Fresh ((s.insertFlight holder.key generation).serve holder row) := by
          have hbefore : Fresh (s.insertFlight holder.key generation) :=
            ⟨h.fresh.served, h.fresh.joined⟩
          exact hbefore.serve (hknows.1 row rfl) (.inr (refreshing_insertFlight ..))
        exact ⟨hs.frame rfl rfl le_rfl rfl h.rows (fun _ hn => by cases hn) hfresh,
          fun hap _ => (ha hap).frame rfl le_rfl rfl fun _ _ _ hn => by cases hn⟩
    | found row flying => simp [hstage] at hstep
    | takingOff row => simp [hstage] at hstep
  | _ => simp [RowCache.holderStep] at hstep

/-! ### The steps of an owner -/

/-- Moving an owner on changes nothing the invariants are about. -/
theorem Sound.setStage (h : Sound s) (flight : Nat) (stage : OwnerStage V E) :
    Sound (s.setStage flight stage) := by
  have htickets := tickets_setStage s flight stage
  exact h.frame htickets rfl le_rfl rfl h.rows
    (fun holder hholder => (h.holder holder hholder).frame htickets le_rfl rfl)
    ⟨h.fresh.served, h.fresh.joined⟩

theorem Apart.setStage (h : Apart s) (flight : Nat) (stage : OwnerStage V E) :
    Apart (s.setStage flight stage) :=
  h.frame (tickets_setStage s flight stage) le_rfl rfl h.tookOff

/-- The drop of a `Landing` takes the flight of its own id only. -/
theorem Sound.dropLanding (h : Sound s) (hholder : s.holder = none) {owned : Owned V E}
    (howned : owned.toTicket ∈ s.tickets) : Sound (s.dropLanding owned) where
  ids := by
    rw [tickets_dropLanding]
    exact h.ids.sublist (List.filter_sublist.map _)
  ids_le := by
    rw [tickets_dropLanding]
    exact fun ticket hticket => h.ids_le ticket (List.mem_filter.mp hticket).1
  tickets := by
    rw [tickets_dropLanding]
    exact fun ticket hticket => h.tickets ticket (List.mem_filter.mp hticket).1
  owned := by
    rw [tickets_dropLanding]
    intro key flight hflight
    have hbefore : s.flights key = some flight ∧ flight.id ≠ owned.id := by
      simp only [RowCache.dropLanding] at hflight
      split at hflight
      · by_cases hkey : key = owned.key
        · rw [hkey, Function.update_self] at hflight
          cases hflight
        · rw [Function.update_of_ne hkey] at hflight
          refine ⟨hflight, fun hid => ?_⟩
          obtain ⟨ticket, hticket, htid, htkey, -⟩ := h.owned key flight hflight
          have hsame := List.inj_on_of_nodup_map h.ids hticket howned (htid.trans hid)
          exact hkey (htkey.symm.trans (congrArg Ticket.key hsame))
      · next hother =>
        refine ⟨hflight, fun hid => hother ?_⟩
        obtain ⟨ticket, hticket, htid, htkey, -⟩ := h.owned key flight hflight
        have hsame := List.inj_on_of_nodup_map h.ids hticket howned (htid.trans hid)
        have hkey : owned.key = key := (congrArg Ticket.key hsame).symm.trans htkey
        simp [hkey, hflight, hid]
    obtain ⟨ticket, hticket, hspec⟩ := h.owned key flight hbefore.1
    refine ⟨ticket, List.mem_filter.mpr ⟨hticket, ?_⟩, hspec⟩
    simpa using hspec.1.trans_ne hbefore.2
  rows := h.rows
  holder := fun holder hh => by
    rw [show (s.dropLanding owned).holder = s.holder from rfl, hholder] at hh
    cases hh
  fresh := ⟨h.fresh.served, h.fresh.joined⟩

theorem Apart.dropLanding (h : Apart s) (hholder : s.holder = none) (owned : Owned V E) :
    Apart (s.dropLanding owned) where
  apart := by
    rw [tickets_dropLanding]
    exact h.apart.filter _
  tickets := by
    rw [tickets_dropLanding]
    intro ticket hticket
    obtain ⟨hticket, hne⟩ := List.mem_filter.mp hticket
    refine (h.tickets ticket hticket).imp (fun ⟨flight, hflight, hid⟩ => ⟨flight, ?_, hid⟩) id
    simp only [RowCache.dropLanding]
    split
    · next htable =>
      have hkey : ticket.key ≠ owned.key := by
        intro hkey
        rw [← hkey, hflight, Option.any_some, beq_iff_eq] at htable
        exact absurd (hid.symm.trans htable) (by simpa using hne)
      rw [Function.update_of_ne hkey, hflight]
    · exact hflight
  tookOff := fun holder row generation hh _ => by
    rw [show (s.dropLanding owned).holder = s.holder from rfl, hholder] at hh
    cases hh

/-- **A step of an owner keeps the invariants.** -/
theorem Sound.ownerStep (h : Sound s) {act : Act V E} {owned : Owned V E}
    (howned : owned.toTicket ∈ s.tickets) (hstep : s.ownerStep owned act = some t) :
    Sound t ∧ (Apart s → Apart t) := by
  cases act with
  | computed flight result =>
    simp only [RowCache.ownerStep] at hstep
    split at hstep <;> cases hstep
    exact ⟨h.setStage .., fun ha => ha.setStage ..⟩
  | land flight =>
    simp only [RowCache.ownerStep] at hstep
    split at hstep <;> cases hstep
    · exact ⟨h.setStage .., fun ha => ha.setStage ..⟩
    · exact ⟨h.setStage .., fun ha => ha.setStage ..⟩
  | store flight =>
    simp only [RowCache.ownerStep] at hstep
    split at hstep <;> cases hstep
    next value hstage hholder =>
      have hs := h.setStage flight (.sending (.ok value) : OwnerStage V E)
      refine ⟨hs.frame rfl rfl le_rfl rfl (fun key row hrow => ?_) hs.holder
        ⟨h.fresh.served, h.fresh.joined⟩, fun ha => ?_⟩
      · by_cases hkey : key = owned.key
        · simp only [hkey, Function.update_self, Option.some.injEq] at hrow
          subst hrow
          exact (h.tickets _ howned).1
        · simp only [Function.update_of_ne hkey] at hrow
          exact h.rows key row hrow
      · exact (ha.setStage flight (.sending (.ok value))).frame rfl le_rfl rfl
          (ha.setStage flight (.sending (.ok value))).tookOff
  | send flight =>
    simp only [RowCache.ownerStep] at hstep
    split at hstep <;> cases hstep
    have hs := h.setStage flight (.done : OwnerStage V E)
    exact ⟨hs.frame rfl rfl le_rfl rfl hs.rows hs.holder ⟨h.fresh.served, h.fresh.joined⟩,
      fun ha => (ha.setStage flight .done).frame rfl le_rfl rfl (ha.setStage flight .done).tookOff⟩
  | drop flight =>
    simp only [RowCache.ownerStep] at hstep
    split at hstep <;> cases hstep
    · next hholder => exact ⟨h.dropLanding hholder howned, fun ha => ha.dropLanding hholder owned⟩
    · next hholder => exact ⟨h.dropLanding hholder howned, fun ha => ha.dropLanding hholder owned⟩
  | _ => simp [RowCache.ownerStep] at hstep

/-! ### Runs -/

/-- **Every step keeps the first invariant**, and every step that does not take
off past a flight the second. -/
theorem Sound.step (h : Sound s) {act : Act V E} (hstep : s.Step act t) :
    Sound t ∧ (Apart s → Ok s act → Apart t) := by
  have hidle : ∀ (t : RowCache V E), t.tickets = s.tickets → t.nextId = s.nextId →
      s.generation ≤ t.generation → t.flights = s.flights →
      (∀ key row, t.rows key = some row → s.rows key = some row) → t.holder = s.holder →
      t.served = s.served → t.joined = s.joined → Sound t ∧ (Apart s → Ok s act → Apart t) := by
    intro t htickets hid hgeneration hflights hrows hholder hserved hjoined
    refine ⟨h.frame htickets hid hgeneration hflights
        (fun key row hrow => h.rows key row (hrows key row hrow)) (fun holder hh => ?_)
        ⟨hserved ▸ h.fresh.served, hjoined ▸ h.fresh.joined⟩,
      fun ha _ => ha.frame htickets hgeneration hflights fun holder row g hh hstage => ?_⟩
    · exact (h.holder holder (hholder ▸ hh)).frame htickets hgeneration hflights
    · obtain ⟨hle, hlt⟩ := ha.tookOff holder row g (hholder ▸ hh) hstage
      exact ⟨hle.trans hgeneration, hlt⟩
  cases act with
  | clear =>
    obtain rfl := Option.some.inj hstep
    exact hidle _ rfl rfl (Nat.le_succ _) rfl (fun _ _ hr => hr) rfl rfl rfl
  | markStale =>
    obtain rfl := Option.some.inj hstep
    exact hidle _ rfl rfl le_rfl rfl (fun _ _ hr => hr) rfl rfl rfl
  | evict key =>
    simp only [Step, next] at hstep
    split at hstep <;> cases hstep
    refine hidle _ rfl rfl le_rfl rfl (fun key' row hr => ?_) rfl rfl rfl
    by_cases hkey : key' = key
    · simp [hkey] at hr
    · simpa [Function.update_of_ne hkey] using hr
  | look task key =>
    simp only [Step, next] at hstep
    split at hstep <;> cases hstep
    exact hidle _ rfl rfl le_rfl rfl (fun _ _ hr => hr) rfl rfl rfl
  | enter task =>
    simp only [Step, next] at hstep
    split at hstep <;> cases hstep
    exact ⟨h.enter, fun ha _ => ha.enter⟩
  | wake task =>
    simp only [Step, next] at hstep
    split at hstep
    · split at hstep
      · cases hstep
        exact hidle _ rfl rfl le_rfl rfl (fun _ _ hr => hr) rfl rfl rfl
      · split at hstep <;> cases hstep
        exact hidle _ rfl rfl le_rfl rfl (fun _ _ hr => hr) rfl rfl rfl
    · cases hstep
  | close flight =>
    simp only [Step, next] at hstep
    split at hstep <;> cases hstep
    exact hidle _ rfl rfl le_rfl rfl (fun _ _ hr => hr) rfl rfl rfl
  | readEpoch recent | takeOff | tookOff =>
    obtain ⟨holder, hholder, hstep⟩ := Option.bind_eq_some_iff.mp hstep
    exact h.holderStep hholder hstep
  | computed flight result | land flight | store flight | send flight | drop flight =>
    obtain ⟨owned, howned, hstep⟩ := Option.bind_eq_some_iff.mp hstep
    obtain ⟨hs, ha⟩ := h.ownerStep (owner?_spec howned).1 hstep
    exact ⟨hs, fun hap _ => ha hap⟩

/-- An empty cache. -/
theorem sound_empty : Sound ({} : RowCache V E) where
  ids := List.nodup_nil
  ids_le := fun _ h => by cases h
  tickets := fun _ h => by cases h
  owned := fun _ _ h => by cases h
  rows := fun _ _ h => by cases h
  holder := fun _ h => by cases h
  fresh := ⟨(fun _ h => by cases h), (fun _ h => by cases h)⟩

theorem apart_empty : Apart ({} : RowCache V E) where
  apart := List.Pairwise.nil
  tickets := fun _ h => by cases h
  tookOff := fun _ _ _ h => by cases h

/-- A lookup that waits can go on once its flight's sender is gone. -/
theorem wake_of_senderGone {task : Nat} {key : String} {flight : Nat}
    (h : s.lookups task = .waiting key flight) :
    s.senderHeld flight = true ∨ ∃ t, s.Step (.wake task) t := by
  by_cases hheld : s.senderHeld flight = true
  · exact .inl hheld
  · refine .inr ?_
    simp only [Step, next, h]
    split
    · exact ⟨_, rfl⟩
    · exact ⟨_, rfl⟩

/-- **Nothing from before a clear is served or joined**, and no row from before
a stale mark is served without a refresh, in any run. -/
theorem fresh {acts : List (Act V E)} (h : Run Step ({} : RowCache V E) acts s) : Fresh s :=
  (h.invariant (fun _ _ _ hs hstep => (hs.step hstep).1) sound_empty).fresh

/-- **Single flight**: in any run without a take-off past a flight, each key
and generation has one computation in flight, a lookup that finds it starts no
other and does not wait for it once its owner is gone, and nothing from before
a clear or a stale mark is served as if it were new. -/
theorem single_flight {acts : List (Act V E)}
    (h : Run (Guarded Step Ok) ({} : RowCache V E) acts s) : SingleFlight s ∧ Fresh s := by
  let Inv : RowCache V E → Prop := fun s => Sound s ∧ Apart s
  have hstep : ∀ s act t, Inv s → Guarded Step Ok s act t → Inv t := fun _ _ _ hs hstep =>
    ⟨(hs.1.step hstep.2).1, (hs.1.step hstep.2).2 hs.2 hstep.1⟩
  have hinv : Sound s ∧ Apart s := h.invariant hstep ⟨sound_empty, apart_empty⟩
  refine ⟨⟨hinv.2.apart, fun key flight hflight => ?_, fun holder row hholder hstage => ?_,
    fun task key flight hwaiting => wake_of_senderGone hwaiting⟩, hinv.1.fresh⟩
  · obtain ⟨ticket, hticket, hid, hkey, hgeneration, -⟩ := hinv.1.owned key flight hflight
    exact ⟨ticket, hticket, hid, hkey, hgeneration⟩
  · have hknows := hinv.1.holder holder hholder
    rw [HolderSound, hstage] at hknows
    exact hknows.2

/-- A clear comes between a lookup's reading of the generation and its lock,
and another lookup takes off in between. -/
private def lateLookup : List (Act Nat String) :=
  [.look 0 "page", .clear, .look 1 "page", .enter 1, .takeOff, .tookOff, .enter 0, .takeOff,
    .tookOff]

/-- **Two computations of one key and generation can be in flight**: a lookup
that was overtaken by a clear does not see the flight of the new generation,
and takes off under that generation itself. -/
theorem two_flights : ∃ (acts : List (Act Nat String)) (s : RowCache Nat String),
    Run Step {} acts s ∧ ¬SingleFlight s := by
  have hrun : (lateLookup.foldlM next {}).map tickets
      = some [⟨1, "page", 1, 0, 1⟩, ⟨2, "page", 1, 0, 1⟩] := by decide +kernel
  obtain ⟨s, hs, htickets⟩ := Option.map_eq_some_iff.mp hrun
  refine ⟨lateLookup, s, Run.of_foldlM hs, fun h => ?_⟩
  have hapart := h.apart
  rw [htickets] at hapart
  simp at hapart

/-- A miss, its computation, and a lookup that finds the row after a stale
mark. -/
private def refreshed : List (Act Nat String) :=
  [.look 0 "page", .enter 0, .takeOff, .tookOff, .computed 1 (.ok 7), .land 1, .store 1, .send 1,
    .drop 1, .close 1, .markStale, .look 1 "page", .enter 1, .readEpoch true, .takeOff, .tookOff]

theorem single_flight_refreshed : ∃ s : RowCache Nat String, (SingleFlight s ∧ Fresh s)
    ∧ s.served = [⟨0, 0, 0, 1, true⟩] := by
  let guarded (s : RowCache Nat String) (act : Act Nat String) : Option (RowCache Nat String) :=
    if s.holder.all (fun holder => holder.generation == s.generation) then s.next act else none
  have hrun : (refreshed.foldlM guarded {}).map served = some [⟨0, 0, 0, 1, true⟩] := by
    decide +kernel
  obtain ⟨s, hs, hserved⟩ := Option.map_eq_some_iff.mp hrun
  refine ⟨s, @single_flight _ _ s refreshed ?_, hserved⟩
  refine (Run.of_foldlM hs).mono fun s act t hstep => ?_
  simp only [guarded, Option.ite_none_right_eq_some] at hstep
  refine ⟨?_, hstep.2⟩
  cases act with
  | takeOff =>
    intro holder flight hholder hne
    exact absurd (by simpa [hholder] using hstep.1) hne
  | _ => trivial

/-- The row is served past the stale mark, with its refresh in flight. -/
theorem fresh_refreshed : ∃ s : RowCache Nat String, Fresh s
    ∧ s.served = [⟨0, 0, 0, 1, true⟩] := by
  have hrun : (refreshed.foldlM next {}).map served = some [⟨0, 0, 0, 1, true⟩] := by
    decide +kernel
  obtain ⟨s, hs, hserved⟩ := Option.map_eq_some_iff.mp hrun
  exact ⟨s, @fresh _ _ s refreshed (Run.of_foldlM hs), hserved⟩

end RowCache

end Foreseerr

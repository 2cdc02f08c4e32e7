import Foreseerr.Resolutions
import Foreseerr.SyncCache
import Mathlib.Logic.Function.Basic
import Mathlib.Order.Basic

/-!
# The caches of the mapping lookups

`resolve_tmdb` keeps its answers in `HOT`, `edges_from` the edges of a source
id in `CACHE`, and the corrections are kept as they were loaded. A write of
corrections is followed by `invalidate_resolutions`, a switch of a dataset by
`datasets_changed`; each clears the caches one after another, while lookups
that have read the old rows are still on their way to storing what they make
of them.

The corrections are stored under a generation that the clear bumps, so a late
load stores nothing. `HOT` and `CACHE` have no such guard: a late lookup puts
an answer from before the write back, and a call that starts afterwards gets
it (`MappingCaches.stale_answer`). In the runs without such a late store every
answer is from what was read after the writes invalidated before its call
started (`MappingCaches.answers_current`).

What a lookup makes of what it reads is a `MappingLookup`: a tree over its
reads, whatever `resolve_uncached` and the services it asks decide. Every read
carries the **version** of the contents it saw, the number of writes before
it, and a value carries the versions of all reads it was made from.
-/

namespace Foreseerr

/-- `Correction`. -/
structure Correction where
  tmdbId : Option Int
  tmdbType : Option String
deriving DecidableEq, Repr

/-- `Edge`: one row of `mapping_edge` as the lookups read it. -/
structure Edge where
  dataset : String
  srcNs : String
  srcId : String
  srcScope : String
  dstNs : String
  dstId : String
  dstScope : String
  srcRange : Option String
  dstRange : Option String
deriving DecidableEq, Repr

/-- `Resolution`. -/
structure Resolution where
  tmdbId : Int
  mediaType : MediaType
  origin : String
deriving DecidableEq, Repr

/-- The corrections as `load_corrections` maps them. -/
abbrev Corrections := List (String × Correction)

/-- The corrections of the stored rows. -/
def correctionsOf (rows : List ResolutionRow) : Corrections :=
  (rows.filter fun row => row.origin == .manual).map fun row =>
    (row.srcNs ++ ":" ++ row.srcId, ⟨row.tmdbId, row.tmdbType⟩)

/-- **What a lookup does**: it answers (a resolution, which `resolve_tmdb` keeps,
or edges, which `edges_from` hands over), fails, reads the corrections, the
stored rows or the edges of a source id, or writes rows of its own, dropping
the loaded corrections where it deletes some. -/
inductive MappingLookup
  | answer (resolution : Option Resolution)
  | edges (found : List Edge)
  | fail
  | corrections (next : Corrections → MappingLookup)
  | stored (next : List ResolutionRow → MappingLookup)
  | edgesFrom (ns id : String) (next : List Edge → MappingLookup)
  | update (change : List ResolutionRow → List ResolutionRow) (invalidates : Bool)
      (next : MappingLookup)

/-- The versions of the contents a value was made from. -/
structure ReadStamp where
  rows : List Nat := []
  edges : List Nat := []
deriving DecidableEq, Repr

/-- Everything was read from these versions on. -/
structure ReadStamp.From (stamp : ReadStamp) (rows edges : Nat) : Prop where
  rows : ∀ v ∈ stamp.rows, rows ≤ v
  edges : ∀ v ∈ stamp.edges, edges ≤ v

theorem ReadStamp.From.mono {stamp : ReadStamp} {rows edges rows' edges' : Nat}
    (h : stamp.From rows edges) (hrows : rows' ≤ rows) (hedges : edges' ≤ edges) :
    stamp.From rows' edges' :=
  ⟨fun v hv => hrows.trans (h.rows v hv), fun v hv => hedges.trans (h.edges v hv)⟩

/-- Where a call is: before `HOT`, before `FAILED`, at the next thing its lookup
does, between the corrections' generation, their rows and their store, before
the rows and the store of `CACHE`, or before `invalidate_corrections`. -/
inductive MappingPhase
  | hot (lookup : MappingLookup)
  | failed (lookup : MappingLookup)
  | run (lookup : MappingLookup)
  | readCorrections (generation : Nat) (next : Corrections → MappingLookup)
  | storeCorrections (generation : Nat) (found : Corrections) (version : Nat)
      (next : Corrections → MappingLookup)
  | readEdges (ns id : String) (next : List Edge → MappingLookup)
  | storeEdges (key : String) (found : List Edge) (version : Nat)
      (next : List Edge → MappingLookup)
  | invalidate (lookup : MappingLookup)

/-- A call of `resolve_tmdb` (under its key) or of `edges_from`, with the writes
that were invalidated when it started. -/
structure MappingCall where
  key : Option String
  sinceRows : Nat
  sinceEdges : Nat
  stamp : ReadStamp := {}
  phase : MappingPhase

/-- A call has read rows, or edges, of a version. -/
def MappingCall.readRows (call : MappingCall) (version : Nat) (phase : MappingPhase) :
    MappingCall :=
  { call with stamp := { call.stamp with rows := version :: call.stamp.rows }, phase := phase }

def MappingCall.readEdges (call : MappingCall) (version : Nat) (phase : MappingPhase) :
    MappingCall :=
  { call with stamp := { call.stamp with edges := version :: call.stamp.edges }, phase := phase }

/-- Which step of its invalidation a write is at: of `invalidate_resolutions`
after a write of corrections, of `datasets_changed` after a switch. -/
inductive MappingWriter
  | clearHot (version : Nat)
  | clearFailed (version : Nat)
  | clearCorrections (version : Nat)
  | datasetsClearEdges (version : Nat)
  | datasetsClearHot (version : Nat)
deriving DecidableEq, Repr

/-- An answer that a call returned. -/
structure MappingAnswer where
  sinceRows : Nat
  sinceEdges : Nat
  stamp : ReadStamp
  value : Option Resolution ⊕ List Edge

/-- The database and the caches, with every call and every write at work. The
versions count the writes of corrections and the switches; the fields from
`hotRows` on are history: the newest write for which each cache has been
cleared, the newest whose invalidation is complete, and the answers. -/
structure MappingCaches where
  rows : List ResolutionRow
  rowsVersion : Nat := 0
  edges : String → String → List Edge
  edgesVersion : Nat := 0
  hot : String → Option (Option Resolution × ReadStamp) := fun _ => none
  failed : String → Bool := fun _ => false
  edgeCache : String → Option (List Edge × Nat) := fun _ => none
  corrections : Option (Corrections × Nat) := none
  generation : Nat := 0
  calls : Nat → Option MappingCall := fun _ => none
  writers : Nat → Option MappingWriter := fun _ => none
  hotRows : Nat := 0
  hotEdges : Nat := 0
  edgesCleared : Nat := 0
  correctionsCleared : Nat := 0
  doneRows : Nat := 0
  doneEdges : Nat := 0
  answers : List MappingAnswer := []

namespace MappingCaches

/-! ## The steps -/

/-- A step: the start of a `resolve_tmdb` under its key, or of an `edges_from`;
the next step of a call; a write of corrections or a switch of a dataset, each
starting an invalidation; the next step of an invalidation; and the expiry or
eviction of a cached answer, failure or edge list. -/
inductive Act
  | resolve (call : Nat) (key : String) (lookup : MappingLookup)
  | edgesFrom (call : Nat) (ns id : String)
  | step (call : Nat)
  | correct (writer : Nat) (rows : List ResolutionRow)
  | switch (writer : Nat) (edges : String → String → List Edge)
  | invalidate (writer : Nat)
  | expireHot (key : String)
  | expireFailed (key : String)
  | expireEdges (key : String)

/-- A call goes on. -/
def goOn (s : MappingCaches) (id : Nat) (call : MappingCall) : MappingCaches :=
  { s with calls := Function.update s.calls id (some call) }

/-- A call is over without a value: its lookup failed, or an earlier one has and
holds it off. -/
def giveUp (s : MappingCaches) (id : Nat) : MappingCaches :=
  { s with calls := Function.update s.calls id none }

/-- A call returns a value. -/
def answer (s : MappingCaches) (id : Nat) (call : MappingCall) (stamp : ReadStamp)
    (value : Option Resolution ⊕ List Edge) : MappingCaches :=
  { s.giveUp id with
    answers := s.answers ++ [⟨call.sinceRows, call.sinceEdges, stamp, value⟩] }

/-- The key of `CACHE`. -/
def edgeKey (ns id : String) : String := ns ++ ":" ++ id

/-- The next thing a lookup does. -/
def runStep (s : MappingCaches) (id : Nat) (call : MappingCall) : MappingLookup → MappingCaches
  | .answer resolution =>
    match call.key with
    | some key =>
      { s.answer id call call.stamp (.inl resolution) with
        hot := Function.update s.hot key (some (resolution, call.stamp)) }
    | none => s.answer id call call.stamp (.inl resolution)
  | .edges found => s.answer id call call.stamp (.inr found)
  | .fail =>
    match call.key with
    | some key => { s.giveUp id with failed := Function.update s.failed key true }
    | none => s.giveUp id
  | .corrections next =>
    match s.corrections with
    | some (found, version) => s.goOn id (call.readRows version (.run (next found)))
    | none => s.goOn id { call with phase := .readCorrections s.generation next }
  | .stored next => s.goOn id (call.readRows s.rowsVersion (.run (next s.rows)))
  | .edgesFrom ns eid next =>
    match s.edgeCache (edgeKey ns eid) with
    | some (found, version) => s.goOn id (call.readEdges version (.run (next found)))
    | none => s.goOn id { call with phase := .readEdges ns eid next }
  | .update change invalidates next =>
    { s.goOn id { call with phase := if invalidates then .invalidate next else .run next } with
      rows := change s.rows }

/-- `invalidate_corrections`. -/
def invalidateCorrections (s : MappingCaches) : MappingCaches :=
  { s with corrections := none, generation := s.generation + 1 }

/-- The next step of a call. -/
def callStep (s : MappingCaches) (id : Nat) (call : MappingCall) : MappingCaches :=
  match call.phase with
  | .hot lookup =>
    match call.key.bind s.hot with
    | some (resolution, stamp) => s.answer id call stamp (.inl resolution)
    | none => s.goOn id { call with phase := .failed lookup }
  | .failed lookup =>
    if (call.key.map s.failed).getD false then s.giveUp id
    else s.goOn id { call with phase := .run lookup }
  | .run lookup => s.runStep id call lookup
  | .readCorrections generation next =>
    s.goOn id (call.readRows s.rowsVersion
      (.storeCorrections generation (correctionsOf s.rows) s.rowsVersion next))
  | .storeCorrections generation found version next =>
    let s := s.goOn id { call with phase := .run (next found) }
    if s.generation = generation then { s with corrections := some (found, version) } else s
  | .readEdges ns eid next =>
    s.goOn id (call.readEdges s.edgesVersion
      (.storeEdges (edgeKey ns eid) (s.edges ns eid) s.edgesVersion next))
  | .storeEdges key found version next =>
    { s.goOn id { call with phase := .run (next found) } with
      edgeCache := Function.update s.edgeCache key (some (found, version)) }
  | .invalidate lookup => (s.goOn id { call with phase := .run lookup }).invalidateCorrections

/-- A writer moves on, or is done. -/
def setWriter (s : MappingCaches) (id : Nat) (writer : Option MappingWriter) : MappingCaches :=
  { s with writers := Function.update s.writers id writer }

/-- The next step of an invalidation. -/
def writerStep (s : MappingCaches) (id : Nat) : MappingWriter → MappingCaches
  | .clearHot version =>
    { s.setWriter id (some (.clearFailed version)) with
      hot := fun _ => none
      hotRows := max s.hotRows version }
  | .clearFailed version =>
    { s.setWriter id (some (.clearCorrections version)) with failed := fun _ => false }
  | .clearCorrections version =>
    { (s.setWriter id none).invalidateCorrections with
      correctionsCleared := max s.correctionsCleared version
      doneRows := max s.doneRows version }
  | .datasetsClearEdges version =>
    { s.setWriter id (some (.datasetsClearHot version)) with
      edgeCache := fun _ => none
      edgesCleared := max s.edgesCleared version }
  | .datasetsClearHot version =>
    { s.setWriter id none with
      hot := fun _ => none
      hotEdges := max s.hotEdges version
      doneEdges := max s.doneEdges version }

/-- A new call. -/
def startCall (s : MappingCaches) (key : Option String) (phase : MappingPhase) : MappingCall where
  key := key
  sinceRows := s.doneRows
  sinceEdges := s.doneEdges
  phase := phase

/-- One step. -/
def next (s : MappingCaches) : Act → Option MappingCaches
  | .resolve id key lookup =>
    match s.calls id with
    | none => some (s.goOn id (s.startCall (some key) (.hot lookup)))
    | some _ => none
  | .edgesFrom id ns eid =>
    match s.calls id with
    | none => some (s.goOn id (s.startCall none (.run (.edgesFrom ns eid .edges))))
    | some _ => none
  | .step id => (s.calls id).map fun call => s.callStep id call
  | .correct id rows =>
    match s.writers id with
    | none =>
      some { s.setWriter id (some (.clearHot (s.rowsVersion + 1))) with
        rows := rows, rowsVersion := s.rowsVersion + 1 }
    | some _ => none
  | .switch id edges =>
    match s.writers id with
    | none =>
      some { s.setWriter id (some (.datasetsClearEdges (s.edgesVersion + 1))) with
        edges := edges, edgesVersion := s.edgesVersion + 1 }
    | some _ => none
  | .invalidate id => (s.writers id).map fun writer => s.writerStep id writer
  | .expireHot key => some { s with hot := Function.update s.hot key none }
  | .expireFailed key => some { s with failed := Function.update s.failed key false }
  | .expireEdges key => some { s with edgeCache := Function.update s.edgeCache key none }

/-- A step from one state to another. -/
def Step (s : MappingCaches) (act : Act) (t : MappingCaches) : Prop := s.next act = some t

/-! ## What is promised, and when -/

/-- **Every answer is current**: it was made from what was read after the writes
whose invalidation was complete when its call started. -/
def AnswersCurrent (s : MappingCaches) : Prop :=
  ∀ a ∈ s.answers, a.stamp.From a.sinceRows a.sinceEdges

/-- **No late store**: what a call stores in `HOT` or in `CACHE` was not read
before a write for which that cache has been cleared already. -/
def Ok (s : MappingCaches) : Act → Prop
  | .step id =>
    ∀ call, s.calls id = some call →
      (∀ key resolution, call.key = some key → call.phase = .run (.answer resolution) →
        call.stamp.From s.hotRows s.hotEdges)
      ∧ ∀ key found version next, call.phase = .storeEdges key found version next →
        s.edgesCleared ≤ version
  | _ => True

/-! ## The invariant -/

/-- What a call has read is current for it, and what it has in hand to store. -/
def CallSound (s : MappingCaches) (call : MappingCall) : Prop :=
  (call.sinceRows ≤ s.doneRows ∧ call.sinceEdges ≤ s.doneEdges)
    ∧ call.stamp.From call.sinceRows call.sinceEdges
    ∧ match call.phase with
      | .readCorrections generation _ => generation ≤ s.generation
      | .storeCorrections generation _ version _ =>
        generation ≤ s.generation ∧ (generation = s.generation → s.correctionsCleared ≤ version)
      | _ => True

/-- What an invalidation has cleared. -/
def WriterSound (s : MappingCaches) : MappingWriter → Prop
  | .clearHot version => version ≤ s.rowsVersion
  | .clearFailed version | .clearCorrections version =>
    version ≤ s.rowsVersion ∧ version ≤ s.hotRows
  | .datasetsClearEdges version => version ≤ s.edgesVersion
  | .datasetsClearHot version => version ≤ s.edgesVersion ∧ version ≤ s.edgesCleared

/-- **The invariant**: each cache holds nothing from before the writes it has
been cleared for. -/
structure Sound (s : MappingCaches) : Prop where
  doneRows : s.doneRows ≤ s.hotRows ∧ s.doneRows ≤ s.correctionsCleared
  doneEdges : s.doneEdges ≤ s.edgesCleared ∧ s.doneEdges ≤ s.hotEdges
  cleared : s.hotRows ≤ s.rowsVersion ∧ s.correctionsCleared ≤ s.rowsVersion
    ∧ s.edgesCleared ≤ s.edgesVersion ∧ s.hotEdges ≤ s.edgesVersion
  hot : ∀ key resolution stamp, s.hot key = some (resolution, stamp) →
    stamp.From s.hotRows s.hotEdges
  edgeCache : ∀ key found version, s.edgeCache key = some (found, version) →
    s.edgesCleared ≤ version
  corrections : ∀ found version, s.corrections = some (found, version) →
    s.correctionsCleared ≤ version
  calls : ∀ id call, s.calls id = some call → CallSound s call
  writers : ∀ id writer, s.writers id = some writer → WriterSound s writer
  answers : AnswersCurrent s

variable {s t : MappingCaches}

/-! ### Frames -/

/-- What a call knows outlasts what the others do. -/
theorem CallSound.frame {call : MappingCall} (h : CallSound s call) (hrows : s.doneRows ≤ t.doneRows)
    (hedges : s.doneEdges ≤ t.doneEdges) (hgeneration : s.generation ≤ t.generation)
    (hcleared : t.generation = s.generation → t.correctionsCleared = s.correctionsCleared) :
    CallSound t call := by
  obtain ⟨hsince, hstamp, hphase⟩ := h
  refine ⟨⟨hsince.1.trans hrows, hsince.2.trans hedges⟩, hstamp, ?_⟩
  cases hp : call.phase <;> simp only [hp] at hphase ⊢
  · exact hphase.trans hgeneration
  · refine ⟨hphase.1.trans hgeneration, fun heq => ?_⟩
    have hsame : s.generation = t.generation := Nat.le_antisymm hgeneration (heq ▸ hphase.1)
    rw [hcleared hsame.symm]
    exact hphase.2 (heq.trans hsame.symm)

/-- What is known of every call after one of them has moved on or is over. -/
theorem Sound.calls_update (h : Sound s) {id : Nat} {call : Option MappingCall}
    (hcall : ∀ c, call = some c → CallSound s c) :
    ∀ id' c, Function.update s.calls id call id' = some c → CallSound s c := by
  intro id' c hc
  by_cases hid : id' = id
  · rw [hid, Function.update_self] at hc
    exact hcall c hc
  · rw [Function.update_of_ne hid] at hc
    exact h.calls id' c hc

/-- A call that goes on. -/
theorem Sound.goOn (h : Sound s) {i : Nat} {call : MappingCall} (hcall : CallSound s call) :
    Sound (s.goOn i call) :=
  { h with calls := h.calls_update fun _ hc => Option.some.inj hc ▸ hcall }

/-- A call that is over without a value. -/
theorem Sound.giveUp (h : Sound s) {i : Nat} : Sound (s.giveUp i) :=
  { h with calls := h.calls_update fun _ hc => by cases hc }

/-- A call that answers. -/
theorem Sound.answer (h : Sound s) {i : Nat} {call : MappingCall} {stamp : ReadStamp}
    {v : Option Resolution ⊕ List Edge}
    (hstamp : stamp.From call.sinceRows call.sinceEdges) :
    Sound (s.answer i call stamp v) := by
  refine { h.giveUp (i := i) with answers := fun a ha => ?_ }
  rcases List.mem_append.mp ha with ha | ha
  · exact h.answers a ha
  · obtain rfl := List.mem_singleton.mp ha
    exact hstamp

/-- A call that has read rows of a version as new as it needs. -/
theorem CallSound.readRows {call : MappingCall} (h : CallSound s call) {version : Nat}
    (hversion : call.sinceRows ≤ version) {phase : MappingPhase}
    (hphase : CallSound s { call with phase := phase }) :
    CallSound s (call.readRows version phase) := by
  refine ⟨h.1, ⟨fun v hv => ?_, h.2.1.edges⟩, hphase.2.2⟩
  rcases List.mem_cons.mp hv with rfl | hv
  · exact hversion
  · exact h.2.1.rows v hv

theorem CallSound.readEdges {call : MappingCall} (h : CallSound s call) {version : Nat}
    (hversion : call.sinceEdges ≤ version) {phase : MappingPhase}
    (hphase : CallSound s { call with phase := phase }) :
    CallSound s (call.readEdges version phase) := by
  refine ⟨h.1, ⟨h.2.1.rows, fun v hv => ?_⟩, hphase.2.2⟩
  rcases List.mem_cons.mp hv with rfl | hv
  · exact hversion
  · exact h.2.1.edges v hv

/-- A call may always run on. -/
theorem CallSound.run {call : MappingCall} (h : CallSound s call) (lookup : MappingLookup) :
    CallSound s { call with phase := .run lookup } := ⟨h.1, h.2.1, trivial⟩

/-! ### The steps of a call -/

/-- What is read of the rows now is as new as any call needs. -/
theorem Sound.sinceRows_le (h : Sound s) {call : MappingCall} (hcall : CallSound s call) :
    call.sinceRows ≤ s.rowsVersion :=
  hcall.1.1.trans (h.doneRows.1.trans h.cleared.1)

theorem Sound.sinceEdges_le (h : Sound s) {call : MappingCall} (hcall : CallSound s call) :
    call.sinceEdges ≤ s.edgesVersion :=
  hcall.1.2.trans (h.doneEdges.1.trans h.cleared.2.2.1)

/-- Dropping the loaded corrections. -/
theorem Sound.invalidateCorrections (h : Sound s) : Sound s.invalidateCorrections :=
  { h with
    corrections := fun _ _ hc => by cases hc
    calls := fun id call hc => (h.calls id call hc).frame le_rfl le_rfl (Nat.le_succ _)
      fun heq => absurd heq (Nat.succ_ne_self _) }

/-- The next thing a lookup does. -/
theorem Sound.runStep (h : Sound s) {id : Nat} {call : MappingCall} (hcall : CallSound s call)
    (lookup : MappingLookup)
    (hok : ∀ key resolution, call.key = some key → lookup = .answer resolution →
      call.stamp.From s.hotRows s.hotEdges) : Sound (s.runStep id call lookup) := by
  cases lookup with
  | answer resolution =>
    simp only [MappingCaches.runStep]
    cases hkey : call.key with
    | some key =>
      refine { h.answer (i := id) (v := .inl resolution) hcall.2.1 with
        hot := fun key' resolution' stamp' hhot => ?_ }
      by_cases heq : key' = key
      · simp only [heq, Function.update_self, Option.some.injEq, Prod.mk.injEq] at hhot
        exact hhot.2 ▸ hok key resolution hkey rfl
      · simp only [Function.update_of_ne heq] at hhot
        exact h.hot key' resolution' stamp' hhot
    | none => exact h.answer hcall.2.1
  | edges found => exact h.answer hcall.2.1
  | fail =>
    simp only [MappingCaches.runStep]
    cases call.key with
    | some key => exact { h.giveUp (i := id) with }
    | none => exact h.giveUp
  | corrections next =>
    simp only [MappingCaches.runStep]
    cases hc : s.corrections with
    | some loaded =>
      obtain ⟨found, version⟩ := loaded
      have hversion : call.sinceRows ≤ version :=
        (hcall.1.1.trans h.doneRows.2).trans (h.corrections found version hc)
      exact h.goOn (hcall.readRows hversion (hcall.run _))
    | none => exact h.goOn ⟨hcall.1, hcall.2.1, le_rfl⟩
  | stored next => exact h.goOn (hcall.readRows (h.sinceRows_le hcall) (hcall.run _))
  | edgesFrom ns eid next =>
    simp only [MappingCaches.runStep]
    cases hc : s.edgeCache (edgeKey ns eid) with
    | some loaded =>
      obtain ⟨found, version⟩ := loaded
      have hversion : call.sinceEdges ≤ version :=
        (hcall.1.2.trans h.doneEdges.1).trans (h.edgeCache _ found version hc)
      exact h.goOn (hcall.readEdges hversion (hcall.run _))
    | none => exact h.goOn ⟨hcall.1, hcall.2.1, trivial⟩
  | update change invalidates next =>
    have hon : CallSound s
        { call with phase := if invalidates then .invalidate next else .run next } := by
      refine ⟨hcall.1, hcall.2.1, ?_⟩
      cases invalidates <;> exact trivial
    exact { h.goOn (i := id) hon with }

/-- **A step of a call keeps the invariant**, where it makes no late store. -/
theorem Sound.callStep (h : Sound s) {id : Nat} {call : MappingCall} (hcall : CallSound s call)
    (hok : (∀ key resolution, call.key = some key → call.phase = .run (.answer resolution) →
        call.stamp.From s.hotRows s.hotEdges)
      ∧ ∀ key found version next, call.phase = .storeEdges key found version next →
        s.edgesCleared ≤ version) : Sound (s.callStep id call) := by
  obtain ⟨hsince, hstamp, hphase⟩ := hcall
  have hcall : CallSound s call := ⟨hsince, hstamp, hphase⟩
  cases hp : call.phase with
  | hot lookup =>
    simp only [MappingCaches.callStep, hp]
    split
    · next resolution stamp hhot =>
      obtain ⟨key, -, hhot⟩ := Option.bind_eq_some_iff.mp hhot
      have hfrom := h.hot key resolution stamp hhot
      exact h.answer (hfrom.mono (hsince.1.trans h.doneRows.1) (hsince.2.trans h.doneEdges.2))
    · exact h.goOn ⟨hsince, hstamp, trivial⟩
  | failed lookup =>
    simp only [MappingCaches.callStep, hp]
    split
    · exact h.giveUp
    · exact h.goOn ⟨hsince, hstamp, trivial⟩
  | run lookup =>
    simp only [MappingCaches.callStep, hp]
    exact h.runStep hcall lookup fun key resolution hkey heq => hok.1 key resolution hkey (heq ▸ hp)
  | readCorrections generation next =>
    simp only [MappingCaches.callStep, hp]
    rw [hp] at hphase
    refine h.goOn (hcall.readRows (h.sinceRows_le hcall) ⟨hsince, hstamp, hphase, fun _ => ?_⟩)
    exact h.cleared.2.1
  | storeCorrections generation found version next =>
    simp only [MappingCaches.callStep, hp]
    rw [hp] at hphase
    have hon := h.goOn (i := id) (hcall.run (next found))
    split
    · next heq =>
      refine { hon with corrections := fun found' version' hc => ?_ }
      obtain ⟨-, rfl⟩ := Prod.mk.inj (Option.some.inj hc)
      exact hphase.2 heq.symm
    · exact hon
  | readEdges ns eid next =>
    simp only [MappingCaches.callStep, hp]
    exact h.goOn (hcall.readEdges (h.sinceEdges_le hcall) ⟨hsince, hstamp, trivial⟩)
  | storeEdges key found version next =>
    simp only [MappingCaches.callStep, hp]
    refine { h.goOn (i := id) (hcall.run (next found)) with
      edgeCache := fun key' found' version' hc => ?_ }
    by_cases heq : key' = key
    · simp only [heq, Function.update_self, Option.some.injEq, Prod.mk.injEq] at hc
      exact hc.2 ▸ hok.2 key found version next hp
    · simp only [Function.update_of_ne heq] at hc
      exact h.edgeCache key' found' version' hc
  | invalidate lookup =>
    simp only [MappingCaches.callStep, hp]
    exact (h.goOn (hcall.run lookup)).invalidateCorrections

/-! ### The steps of an invalidation -/

/-- What is known of every writer after one of them has moved on or is done. -/
theorem Sound.writers_update (h : Sound s) {id : Nat} {writer : Option MappingWriter}
    (hframe : ∀ w, WriterSound s w → WriterSound t w)
    (hwriter : ∀ w, writer = some w → WriterSound t w) :
    ∀ id' w, Function.update s.writers id writer id' = some w → WriterSound t w := by
  intro id' w hw
  by_cases hid : id' = id
  · rw [hid, Function.update_self] at hw
    exact hwriter w hw
  · rw [Function.update_of_ne hid] at hw
    exact hframe w (h.writers id' w hw)

/-- What a writer knows outlasts what the others do. -/
theorem WriterSound.frame {w : MappingWriter} (h : WriterSound s w)
    (hrows : s.rowsVersion ≤ t.rowsVersion) (hedges : s.edgesVersion ≤ t.edgesVersion)
    (hhot : s.hotRows ≤ t.hotRows) (hcleared : s.edgesCleared ≤ t.edgesCleared) :
    WriterSound t w := by
  cases w with
  | clearHot version => exact Nat.le_trans h hrows
  | clearFailed version => exact ⟨h.1.trans hrows, h.2.trans hhot⟩
  | clearCorrections version => exact ⟨h.1.trans hrows, h.2.trans hhot⟩
  | datasetsClearEdges version => exact Nat.le_trans h hedges
  | datasetsClearHot version => exact ⟨h.1.trans hedges, h.2.trans hcleared⟩

/-- **A step of an invalidation keeps the invariant.** -/
theorem Sound.writerStep (h : Sound s) {id : Nat} {writer : MappingWriter}
    (hwriter : WriterSound s writer) : Sound (s.writerStep id writer) := by
  obtain ⟨hcr, hcc, hce, hch⟩ := h.cleared
  cases writer with
  | clearHot version =>
    have hmax : s.hotRows ≤ max s.hotRows version := le_max_left ..
    refine { h with doneRows := ?_, cleared := ?_, hot := ?_, writers := ?_ }
    · exact ⟨h.doneRows.1.trans hmax, h.doneRows.2⟩
    · exact ⟨max_le hcr hwriter, hcc, hce, hch⟩
    · exact fun _ _ _ hc => by cases hc
    · refine h.writers_update (fun w hw => hw.frame le_rfl le_rfl hmax le_rfl) fun w hw => ?_
      obtain rfl := Option.some.inj hw
      exact ⟨hwriter, le_max_right ..⟩
  | clearFailed version =>
    refine { h with writers := ?_ }
    refine h.writers_update (fun w hw => hw.frame le_rfl le_rfl le_rfl le_rfl) fun w hw => ?_
    obtain rfl := Option.some.inj hw
    exact hwriter
  | clearCorrections version =>
    have hmax : s.doneRows ≤ max s.doneRows version := le_max_left ..
    refine { h with
      doneRows := ?_, cleared := ?_, corrections := ?_, calls := ?_, writers := ?_ }
    · exact ⟨max_le h.doneRows.1 hwriter.2, max_le_max h.doneRows.2 le_rfl⟩
    · exact ⟨hcr, max_le hcc hwriter.1, hce, hch⟩
    · exact fun _ _ hc => by cases hc
    · exact fun id call hc => (h.calls id call hc).frame hmax le_rfl (Nat.le_succ _)
        fun heq => absurd heq (Nat.succ_ne_self _)
    · exact h.writers_update (fun w hw => hw.frame le_rfl le_rfl le_rfl le_rfl) fun w hw => by
        cases hw
  | datasetsClearEdges version =>
    have hmax : s.edgesCleared ≤ max s.edgesCleared version := le_max_left ..
    refine { h with doneEdges := ?_, cleared := ?_, edgeCache := ?_, writers := ?_ }
    · exact ⟨h.doneEdges.1.trans hmax, h.doneEdges.2⟩
    · exact ⟨hcr, hcc, max_le hce hwriter, hch⟩
    · exact fun _ _ _ hc => by cases hc
    · refine h.writers_update (fun w hw => hw.frame le_rfl le_rfl le_rfl hmax) fun w hw => ?_
      obtain rfl := Option.some.inj hw
      exact ⟨hwriter, le_max_right ..⟩
  | datasetsClearHot version =>
    have hmax : s.doneEdges ≤ max s.doneEdges version := le_max_left ..
    refine { h with doneEdges := ?_, cleared := ?_, hot := ?_, calls := ?_, writers := ?_ }
    · exact ⟨max_le h.doneEdges.1 hwriter.2, max_le_max h.doneEdges.2 le_rfl⟩
    · exact ⟨hcr, hcc, hce, max_le hch hwriter.1⟩
    · exact fun _ _ _ hc => by cases hc
    · exact fun id call hc => (h.calls id call hc).frame le_rfl hmax le_rfl fun _ => rfl
    · exact h.writers_update (fun w hw => hw.frame le_rfl le_rfl le_rfl le_rfl) fun w hw => by
        cases hw

/-! ### Runs -/

/-- **Every step that makes no late store keeps the invariant.** -/
theorem Sound.step (h : Sound s) {act : Act} (hok : Ok s act) (hstep : Step s act t) :
    Sound t := by
  have hstart : ∀ key phase, (match phase with
      | .hot _ | .run _ => True
      | _ => False) → CallSound s (s.startCall key phase) := by
    intro key phase hphase
    refine ⟨⟨le_rfl, le_rfl⟩, ⟨(fun _ hv => by cases hv), (fun _ hv => by cases hv)⟩, ?_⟩
    cases phase <;> first | exact trivial | exact hphase.elim
  cases act with
  | resolve id key lookup =>
    simp only [Step, next] at hstep
    split at hstep <;> cases hstep
    exact h.goOn (hstart _ _ trivial)
  | edgesFrom id ns eid =>
    simp only [Step, next] at hstep
    split at hstep <;> cases hstep
    exact h.goOn (hstart _ _ trivial)
  | step id =>
    obtain ⟨call, hcall, rfl⟩ := Option.map_eq_some_iff.mp hstep
    exact h.callStep (h.calls id call hcall) (hok call hcall)
  | correct id rows =>
    simp only [Step, next] at hstep
    split at hstep <;> cases hstep
    have hle : s.rowsVersion ≤ s.rowsVersion + 1 := Nat.le_succ _
    refine { h with cleared := ?_, writers := ?_ }
    · exact ⟨h.cleared.1.trans hle, h.cleared.2.1.trans hle, h.cleared.2.2⟩
    · refine h.writers_update (fun w hw => hw.frame hle le_rfl le_rfl le_rfl) fun w hw => ?_
      obtain rfl := Option.some.inj hw
      exact Nat.le_refl _
  | switch id edges =>
    simp only [Step, next] at hstep
    split at hstep <;> cases hstep
    have hle : s.edgesVersion ≤ s.edgesVersion + 1 := Nat.le_succ _
    refine { h with cleared := ?_, writers := ?_ }
    · exact ⟨h.cleared.1, h.cleared.2.1, h.cleared.2.2.1.trans hle, h.cleared.2.2.2.trans hle⟩
    · refine h.writers_update (fun w hw => hw.frame le_rfl hle le_rfl le_rfl) fun w hw => ?_
      obtain rfl := Option.some.inj hw
      exact Nat.le_refl _
  | invalidate id =>
    obtain ⟨writer, hwriter, rfl⟩ := Option.map_eq_some_iff.mp hstep
    exact h.writerStep (h.writers id writer hwriter)
  | expireHot key =>
    cases hstep
    refine { h with hot := fun key' resolution stamp hc => ?_ }
    by_cases heq : key' = key
    · simp [heq] at hc
    · simp only [Function.update_of_ne heq] at hc
      exact h.hot key' resolution stamp hc
  | expireFailed key =>
    cases hstep
    exact { h with }
  | expireEdges key =>
    cases hstep
    refine { h with edgeCache := fun key' found version hc => ?_ }
    by_cases heq : key' = key
    · simp [heq] at hc
    · simp only [Function.update_of_ne heq] at hc
      exact h.edgeCache key' found version hc

/-- The process starts with empty caches. -/
def start (rows : List ResolutionRow) (edges : String → String → List Edge) : MappingCaches :=
  { rows := rows, edges := edges }

theorem sound_start (rows : List ResolutionRow) (edges : String → String → List Edge) :
    Sound (start rows edges) where
  doneRows := ⟨le_rfl, le_rfl⟩
  doneEdges := ⟨le_rfl, le_rfl⟩
  cleared := ⟨le_rfl, le_rfl, le_rfl, le_rfl⟩
  hot := fun _ _ _ h => by cases h
  edgeCache := fun _ _ _ h => by cases h
  corrections := fun _ _ h => by cases h
  calls := fun _ _ h => by cases h
  writers := fun _ _ h => by cases h
  answers := fun _ h => by cases h

/-- **Every answer is current**, in any run without a late store. -/
theorem answers_current (rows : List ResolutionRow) (edges : String → String → List Edge)
    {acts : List Act} {s : MappingCaches} (h : Run (Guarded Step Ok) (start rows edges) acts s) :
    AnswersCurrent s :=
  (h.invariant (fun _ _ _ hs hstep => hs.step hstep.1 hstep.2) (sound_start rows edges)).answers

/-! ### A late store -/

/-- What the lookup of `anilist:5` makes of the corrections: the first one's
title, if there is any. -/
private def byCorrection : MappingLookup :=
  .corrections fun corrections =>
    .answer ((corrections.head?.bind fun c => c.2.tmdbId).map fun id => ⟨id, .tv, "manual"⟩)

private def correction (tmdbId : Int) : ResolutionRow :=
  { id := 1, srcNs := "anilist", srcId := "5", tmdbId := some tmdbId, tmdbType := some "tv"
    origin := .manual }

/-- A call has read the corrections when they are changed and the caches
cleared, and answers only then. -/
private def lateStore : List Act :=
  [.resolve 0 "anilist:5|tv||" byCorrection, .step 0, .step 0, .step 0, .step 0, .step 0,
    .correct 0 [correction 200], .invalidate 0, .invalidate 0, .invalidate 0, .step 0,
    .resolve 1 "anilist:5|tv||" byCorrection, .step 1]

/-- **An answer from before an invalidation can be cached past it**: the call
started after the correction was written and the caches were cleared gets the
old correction's title. -/
theorem stale_answer : ∃ (rows : List ResolutionRow) (edges : String → String → List Edge)
    (acts : List Act) (s : MappingCaches),
    Run Step (start rows edges) acts s ∧ ¬AnswersCurrent s := by
  have hrun : (lateStore.foldlM next (start [correction 100] fun _ _ => [])).map
        (fun s => s.answers.map fun a => (a.sinceRows, a.stamp, a.value))
      = some [(0, ⟨[0], []⟩, .inl (some ⟨100, .tv, "manual"⟩)),
          (1, ⟨[0], []⟩, .inl (some ⟨100, .tv, "manual"⟩))] := by decide +kernel
  obtain ⟨s, hs, hanswers⟩ := Option.map_eq_some_iff.mp hrun
  refine ⟨_, _, lateStore, s, Run.of_foldlM hs, fun h => ?_⟩
  have hlate : (1, (⟨[0], []⟩ : ReadStamp), (Sum.inl (some ⟨100, .tv, "manual"⟩) : _ ⊕ List Edge))
      ∈ s.answers.map fun a => (a.sinceRows, a.stamp, a.value) := by simp [hanswers]
  obtain ⟨a, ha, heq⟩ := List.mem_map.mp hlate
  obtain ⟨hsince, hstamp⟩ := Prod.mk.inj heq
  have hfrom := (h a ha).rows 0
  rw [hsince, (Prod.mk.inj hstamp).1] at hfrom
  exact absurd (hfrom (List.mem_singleton_self 0)) (by decide)

/-- The first call answers before the correction is written. -/
private def timelyStore : List Act :=
  [.resolve 0 "anilist:5|tv||" byCorrection, .step 0, .step 0, .step 0, .step 0, .step 0, .step 0,
    .correct 0 [correction 200], .invalidate 0, .invalidate 0, .invalidate 0,
    .resolve 1 "anilist:5|tv||" byCorrection, .step 1, .step 1, .step 1, .step 1, .step 1, .step 1]

/-- Whether a call may store what it has in hand. -/
private def timely (s : MappingCaches) : Act → Bool
  | .step id =>
    (s.calls id).all fun call =>
      (call.stamp.rows.all fun v => decide (s.hotRows ≤ v))
        && (call.stamp.edges.all fun v => decide (s.hotEdges ≤ v)) && s.edgesCleared == 0
  | _ => true

private theorem ok_of_timely {s : MappingCaches} {act : Act} (h : timely s act = true) :
    Ok s act := by
  cases act with
  | step id =>
    intro call hcall
    simp only [timely, hcall, Option.all_some, Bool.and_eq_true, List.all_eq_true,
      decide_eq_true_eq, beq_iff_eq] at h
    exact ⟨fun _ _ _ _ => ⟨h.1.1, h.1.2⟩, fun _ _ _ _ _ => h.2 ▸ Nat.zero_le _⟩
  | _ => trivial

theorem answers_current_timely : ∃ s : MappingCaches, AnswersCurrent s ∧
    s.answers.map (fun a => a.value) = [.inl (some ⟨100, .tv, "manual"⟩),
      .inl (some ⟨200, .tv, "manual"⟩)] := by
  let guarded (s : MappingCaches) (act : Act) : Option MappingCaches :=
    if timely s act then s.next act else none
  have hrun : (timelyStore.foldlM guarded (start [correction 100] fun _ _ => [])).map
        (fun s => s.answers.map fun a => a.value)
      = some [.inl (some ⟨100, .tv, "manual"⟩), .inl (some ⟨200, .tv, "manual"⟩)] := by
    decide +kernel
  obtain ⟨s, hs, hanswers⟩ := Option.map_eq_some_iff.mp hrun
  refine ⟨s, answers_current [correction 100] (fun _ _ => []) ((Run.of_foldlM hs).mono ?_),
    hanswers⟩
  intro s act t hstep
  simp only [guarded, Option.ite_none_right_eq_some] at hstep
  exact ⟨ok_of_timely hstep.1, hstep.2⟩

end MappingCaches

end Foreseerr

import Foreseerr.Run
import Mathlib.Data.List.Basic
import Mathlib.Data.Nat.Basic
import Mathlib.Order.Basic

/-!
# Refreshing a mapping dataset

A refresh writes the edges of a downloaded file to `mapping_edge` under a new
generation, slice by slice, and then switches `mapping_dataset.generation`, so
that readers never see half a dataset. A disable resets the row and deletes
the edges; it bumps a counter first, which a refresh checks once more before
its switch.

The check and the switch are two statements. A disable between them leaves the
row switched to a generation whose edges are gone
(`MappingDataset.switched_after_disable`), and so does a disable that had
bumped the counter before the refresh was claimed. In the runs without such a
switch, and without a refresh that fails among half-written edges, readers see
one whole file or nothing (`MappingDataset.readers_whole`).

The dataset is one of the table's: every statement below names its key. A
lookup is one `SELECT`, so it reads a state between two steps.
-/

namespace Foreseerr

/-- `EdgeRow`. -/
structure EdgeRow where
  srcNs : String
  srcId : String
  srcScope : String
  dstNs : String
  dstId : String
  dstScope : String
  srcRange : Option String
  dstRange : Option String
deriving DecidableEq, Repr

/-- `ParsedDataset`. -/
structure ParsedDataset where
  edges : List EdgeRow := []
  version : Option String := none
deriving DecidableEq, Repr

/-- `FetchStatus`. -/
inductive FetchStatus
  | downloaded
  | notModified
  | lastGood
deriving DecidableEq, Repr

/-- `Fetched`, as far as a refresh reads it. -/
structure Fetched where
  status : FetchStatus
  body : Option String := none
  etag : Option String := none
  lastModified : Option String := none
  sha256 : Option String := none
  parsed : Option ParsedDataset := none
deriving DecidableEq, Repr

/-- A `mapping_dataset` row, less its dates. -/
structure DatasetRow where
  enabled : Bool := true
  generation : Nat := 0
  edgeCount : Option Nat := none
  version : Option String := none
  etag : Option String := none
  lastModified : Option String := none
  lastError : Option String := none
deriving DecidableEq, Repr

/-- What a refresh has in hand from the download on: the generation it writes,
the parsed file, and the download itself. -/
structure Ingest where
  generation : Nat
  file : ParsedDataset
  fetched : Fetched
deriving DecidableEq, Repr

/-- Where the refresh at work is: before it reads the row, before its first look
at the counter, before the download, before it records an outcome that keeps
the loaded copy, before it clears its generation, between two slices, before
the second look at the counter, before it drops what it wrote, before the
switch, before the reload, before it deletes the other generations, or before
it records its failure. -/
inductive RefreshPhase
  | read
  | check (row : DatasetRow)
  | fetch (row : DatasetRow)
  | record (lastError : Option String)
  | clear (ingest : Ingest)
  | slices (ingest : Ingest) (rest : List EdgeRow)
  | toggleCheck (ingest : Ingest)
  | undo (ingest : Ingest)
  | switch (ingest : Ingest)
  | reload (ingest : Ingest)
  | clean (ingest : Ingest)
  | failed (message : String)
deriving DecidableEq, Repr

/-- The generation that the refresh at work is writing. -/
def RefreshPhase.writing : RefreshPhase → Option Nat
  | .slices ingest _ | .toggleCheck ingest | .undo ingest | .switch ingest =>
    some ingest.generation
  | _ => none

/-- `Running`: a refresh and the counter at its claim. -/
structure RefreshRun where
  force : Bool
  toggle : Nat
deriving DecidableEq, Repr

/-- Where a `set_dataset_enabled` is after it has bumped the counter: before it
updates the row, before the reload, or before a disable deletes the edges. -/
inductive ToggleTask
  | updateRow (enabled : Bool)
  | reload (enabled : Bool)
  | delete
deriving DecidableEq, Repr

/-- A disable is between its row and its edges. -/
def ToggleTask.disabling : ToggleTask → Bool
  | .reload enabled => !enabled
  | .delete => true
  | .updateRow _ => false

/-- One dataset: its row and its edges with their generations, the counter, the
refreshes in the order of their claims, where the first of them is, and the
toggles at work. The last two fields are history: the edges of every file that
was parsed, and whether a disable has deleted edges of the generation that the
refresh at work is writing. -/
structure MappingDataset where
  row : DatasetRow
  edges : List (Nat × EdgeRow)
  toggles : Nat := 0
  runs : List RefreshRun := []
  phase : RefreshPhase := .read
  toggling : List (Nat × ToggleTask) := []
  parsed : List (List EdgeRow) := []
  lost : Bool := false

namespace MappingDataset

/-- The edges of one generation. -/
def edgesOf (s : MappingDataset) (generation : Nat) : List EdgeRow :=
  (s.edges.filter fun edge => edge.1 == generation).map Prod.snd

/-- What a lookup of a source id reads: the `SELECT` of `edges_from`. -/
def lookup (s : MappingDataset) (ns id : String) : List EdgeRow :=
  (s.edges.filter fun edge =>
    edge.1 == s.row.generation && s.row.enabled && decide (0 < s.row.generation)
      && (edge.2.srcNs == ns && edge.2.srcId == id)).map Prod.snd

/-! ## The steps -/

/-- `INSERT_CHUNK`. -/
def insertChunk : Nat := 500

/-- The message under which a switch to a last-good copy is recorded. -/
def servingLastGood : String := "Upstream unreachable; serving the last downloaded copy."

/-- The message under which a last-good copy is passed over. -/
def keepingLoaded : String := "Upstream unreachable; keeping the loaded copy."

/-- A step: a claim of a refresh, the next statement of the refresh at work, the
end of its download, a slice of its ingest with `more` statements after the
first, or a failure of the database under it; and a toggle, its next statement,
or a failure under it. -/
inductive Act
  | refresh (force : Bool)
  | step
  | fetched (outcome : Except String Fetched)
  | slice (more : Nat)
  | dbFails (message : String)
  | toggle (id : Nat) (enabled : Bool)
  | toggleStep (id : Nat)
  | toggleFails (id : Nat)

/-- `claim`: join the last refresh if the counter has not moved since, or queue a
new one behind it. -/
def claim (s : MappingDataset) (force : Bool) : MappingDataset :=
  match s.runs.getLast? with
  | some running =>
    if running.toggle = s.toggles then s else { s with runs := s.runs ++ [⟨force, s.toggles⟩] }
  | none => { s with runs := [⟨force, s.toggles⟩] }

/-- The refresh at work is over. -/
def finish (s : MappingDataset) : MappingDataset := { s with runs := s.runs.tail, phase := .read }

/-- `delete_generation`. -/
def deleteGeneration (s : MappingDataset) (same : Bool) (generation : Nat) : MappingDataset :=
  { s with edges := s.edges.filter fun edge => (edge.1 == generation) != same }

/-- The row after the switch. -/
def switchRow (row : DatasetRow) (ingest : Ingest) : DatasetRow :=
  { row with
    generation := ingest.generation
    edgeCount := some ingest.file.edges.length
    version := ingest.file.version.or (ingest.fetched.sha256.map fun s => (s.take 12).toString)
    etag := ingest.fetched.etag
    lastModified := ingest.fetched.lastModified
    lastError := if ingest.fetched.status = .lastGood then some servingLastGood else none }

/-- The row after `set_dataset_enabled`. -/
def toggleRow (row : DatasetRow) (enabled : Bool) : DatasetRow :=
  if enabled then { row with enabled := true }
  else { row with
    enabled := false, generation := 0, edgeCount := none, etag := none, lastModified := none }

/-- The next statement of the refresh at work, where it has one of its own: a
download and a slice are steps of their own. -/
def runStep (s : MappingDataset) (run : RefreshRun) : Option MappingDataset :=
  match s.phase with
  | .read => some { s with phase := .check s.row }
  | .check row =>
    if row.enabled = false ∨ s.toggles ≠ run.toggle then some s.finish
    else some { s with phase := .fetch row }
  | .record lastError => some { s with row := { s.row with lastError := lastError } }.finish
  | .clear ingest =>
    some { s.deleteGeneration true ingest.generation with
      phase := .slices ingest ingest.file.edges, lost := false }
  | .slices ingest rest =>
    match rest with
    | [] => some { s with phase := .toggleCheck ingest }
    | _ :: _ => none
  | .toggleCheck ingest =>
    if s.toggles = run.toggle then some { s with phase := .switch ingest }
    else some { s with phase := .undo ingest }
  | .undo ingest => some (s.deleteGeneration true ingest.generation).finish
  | .switch ingest =>
    some { s with row := switchRow s.row ingest, phase := .reload ingest }
  | .reload ingest => some { s with phase := .clean ingest }
  | .clean ingest => some (s.deleteGeneration false ingest.generation).finish
  | .failed message => some { s with row := { s.row with lastError := some message } }.finish
  | .fetch _ => none

variable (parse : String → Except String ParsedDataset)

/-- The file of a download: parsed with it, parsed from its body, or empty. -/
def fileOf (fetched : Fetched) : Except String ParsedDataset :=
  match fetched.parsed, fetched.body with
  | some parsed, _ => .ok parsed
  | none, some body => parse body
  | none, none => .ok {}

/-- A refresh under way after its download: the loaded copy is kept where the
download says so and there is one, and else the file is ingested under the
generation after the row's. -/
def fetched (s : MappingDataset) (row : DatasetRow) (fetched : Fetched) : MappingDataset :=
  if fetched.status = .notModified ∧ 0 < row.generation then { s with phase := .record none }
  else if fetched.status = .lastGood ∧ 0 < row.generation then
    { s with phase := .record (some keepingLoaded) }
  else
    match fileOf parse fetched with
    | .ok file =>
      if file.edges = [] then { s with phase := .failed "dataset has no edges" }
      else { s with
        phase := .clear ⟨row.generation + 1, file, fetched⟩
        parsed := s.parsed ++ [file.edges] }
    | .error message => { s with phase := .failed message }

/-- One slice: a transaction of one insert and `more` others. -/
def slice (s : MappingDataset) (ingest : Ingest) (rest : List EdgeRow) (more : Nat) :
    MappingDataset :=
  let rows := insertChunk * (more + 1)
  { s with
    edges := s.edges ++ (rest.take rows).map fun edge => (ingest.generation, edge)
    phase := .slices ingest (rest.drop rows) }

/-- The refresh at work fails: without a record before it has read its row or
while it records a failure, and else with its message to be recorded. -/
def fail (s : MappingDataset) (message : String) : MappingDataset :=
  match s.phase with
  | .read | .failed _ => s.finish
  | _ => { s with phase := .failed message }

/-- Where a toggle at work is. -/
def toggle? (s : MappingDataset) (id : Nat) : Option ToggleTask :=
  (s.toggling.find? fun task => task.1 == id).map Prod.snd

/-- A toggle moves on, or is over. -/
def setToggle (s : MappingDataset) (id : Nat) (task : Option ToggleTask) : MappingDataset :=
  { s with
    toggling := (s.toggling.filter fun task => task.1 ≠ id) ++ (task.map (Prod.mk id)).toList }

/-- The next statement of a toggle: the row, the reload, and after a disable the
edges. -/
def toggleStep (s : MappingDataset) (id : Nat) (task : ToggleTask) : MappingDataset :=
  match task with
  | .updateRow enabled =>
    { s with row := toggleRow s.row enabled }.setToggle id (some (.reload enabled))
  | .reload enabled => s.setToggle id (if enabled then none else some .delete)
  | .delete =>
    { s.deleteGeneration false 0 with
      lost := s.lost || s.edges.any fun edge => s.phase.writing == some edge.1 }.setToggle id none

/-- One step of the dataset. -/
def next (s : MappingDataset) (act : Act) : Option MappingDataset :=
  match act with
  | .refresh force => some (s.claim force)
  | .step => s.runs.head?.bind s.runStep
  | .fetched outcome =>
    match s.runs, s.phase, outcome with
    | _ :: _, .fetch row, .ok fetched => some (s.fetched parse row fetched)
    | _ :: _, .fetch _, .error message => some { s with phase := .failed message }
    | _, _, _ => none
  | .slice more =>
    match s.runs, s.phase with
    | _ :: _, .slices ingest (edge :: rest) => some (s.slice ingest (edge :: rest) more)
    | _, _ => none
  | .dbFails message =>
    match s.runs with
    | _ :: _ => some (s.fail message)
    | [] => none
  | .toggle id enabled =>
    match s.toggle? id with
    | none => some ({ s with toggles := s.toggles + 1 }.setToggle id (some (.updateRow enabled)))
    | some _ => none
  | .toggleStep id => (s.toggle? id).map (s.toggleStep id)
  | .toggleFails id => (s.toggle? id).map fun _ => s.setToggle id none

/-- A step from one state to another. -/
def Step (s : MappingDataset) (act : Act) (t : MappingDataset) : Prop :=
  s.next parse act = some t

/-! ## What readers see -/

/-- No refresh and no toggle is in progress. -/
structure Quiescent (s : MappingDataset) : Prop where
  runs : s.runs = []
  toggling : s.toggling = []

/-- The edges of a file that a lookup of a source id is about. -/
def ofSource (ns id : String) (edge : EdgeRow) : Bool := edge.srcNs == ns && edge.srcId == id

/-- **Readers see one whole file or nothing**: every lookup reads the edges of
one parsed file or none, and those of a file as long as the row is enabled with
a generation; and a row with a generation that nobody is at work on is enabled,
with the edges of its file and no others in the table. -/
structure Whole (s : MappingDataset) : Prop where
  lookups : ∃ file ∈ [] :: s.parsed, ∀ ns id, s.lookup ns id = file.filter (ofSource ns id)
  served : s.row.enabled = true → 0 < s.row.generation → ∃ file ∈ s.parsed, file ≠ []
    ∧ ∀ ns id, s.lookup ns id = file.filter (ofSource ns id)
  settled : Quiescent s → 0 < s.row.generation → s.row.enabled = true
    ∧ ∃ file ∈ s.parsed, file ≠ [] ∧ s.edges = file.map fun edge => (s.row.generation, edge)

/-- **A switch finds everything in place**: the dataset enabled, no disable
between its row and its edges, and none of the refresh's edges deleted. A
refresh that fails does so with no edges but the row's generation's, or with no
generation in the row. -/
def Ok (s : MappingDataset) : Act → Prop
  | .step => ∀ ingest, s.phase = .switch ingest → s.row.enabled = true ∧ s.lost = false
    ∧ ∀ task ∈ s.toggling, task.2.disabling = false
  | .dbFails _ => 0 < s.row.generation → ∀ edge ∈ s.edges, edge.1 = s.row.generation
  | _ => True

/-! ## The invariant -/

/-- The table holds no edges but the row's generation's. -/
def OnlyRow (s : MappingDataset) : Prop :=
  0 < s.row.generation → ∀ edge ∈ s.edges, edge.1 = s.row.generation

/-- What the refresh at work has in the table while `rest` is still to come. -/
structure Writing (s : MappingDataset) (ingest : Ingest) (rest : List EdgeRow) : Prop where
  ahead : s.row.generation < ingest.generation
  parsed : ingest.file.edges ∈ s.parsed
  written : s.lost = false → s.edgesOf ingest.generation ++ rest = ingest.file.edges
  only : 0 < s.row.generation → ∀ edge ∈ s.edges,
    edge.1 = s.row.generation ∨ edge.1 = ingest.generation

/-- What the refresh at work can rely on, wherever it is. A disable may have
taken the row's generation back to zero since it was read. -/
def PhaseSound (s : MappingDataset) : RefreshPhase → Prop
  | .read | .record _ | .failed _ => OnlyRow s
  | .check row | .fetch row => s.row.generation ≤ row.generation ∧ OnlyRow s
  | .clear ingest => s.row.generation < ingest.generation ∧ ingest.file.edges ∈ s.parsed
    ∧ OnlyRow s
  | .slices ingest rest => Writing s ingest rest
  | .toggleCheck ingest | .undo ingest | .switch ingest => Writing s ingest []
  | .reload ingest | .clean ingest =>
    s.row.generation = 0 ∨ s.row.generation = ingest.generation

/-- **The invariant**: a generation in the row is an enabled dataset's, with the
edges of one parsed file; a disable past its row has left no generation there;
and the refresh at work finds what it relies on. -/
structure Sound (s : MappingDataset) : Prop where
  parsed : ∀ file ∈ s.parsed, file ≠ []
  served : 0 < s.row.generation → s.row.enabled = true
    ∧ s.edgesOf s.row.generation ∈ s.parsed
  disabling : ∀ task ∈ s.toggling, task.2.disabling = true → s.row.generation = 0
  phase : PhaseSound s s.phase
  idle : s.runs = [] → s.phase = .read

variable {parse : String → Except String ParsedDataset} {s t : MappingDataset}

/-! ### The edges of a generation -/

theorem mem_deleteGeneration_same {generation : Nat} {edge : Nat × EdgeRow} :
    edge ∈ (s.deleteGeneration true generation).edges
      ↔ edge ∈ s.edges ∧ edge.1 ≠ generation := by
  simp [deleteGeneration]

theorem mem_deleteGeneration_other {generation : Nat} {edge : Nat × EdgeRow} :
    edge ∈ (s.deleteGeneration false generation).edges
      ↔ edge ∈ s.edges ∧ edge.1 = generation := by
  simp [deleteGeneration]

/-- What is kept of the generations has its edges as before. -/
theorem edgesOf_deleteGeneration {same : Bool} {generation kept : Nat}
    (h : ((kept == generation) != same) = true) :
    (s.deleteGeneration same generation).edgesOf kept = s.edgesOf kept := by
  unfold edgesOf deleteGeneration
  rw [List.filter_filter]
  congr 1
  refine List.filter_congr fun edge _ => ?_
  by_cases heq : edge.1 = kept
  · simp [heq, h]
  · simp [heq]

theorem edgesOf_eq_nil {generation : Nat} (h : ∀ edge ∈ s.edges, edge.1 ≠ generation) :
    s.edgesOf generation = [] := by
  unfold edgesOf
  rw [List.filter_eq_nil_iff.mpr (by simpa using h), List.map_nil]

/-- A table of one generation is that generation's edges. -/
theorem edges_eq_of_only {generation : Nat} (h : ∀ edge ∈ s.edges, edge.1 = generation) :
    s.edges = (s.edgesOf generation).map fun edge => (generation, edge) := by
  unfold edgesOf
  rw [List.filter_eq_self.mpr (by simpa using h), List.map_map]
  conv_lhs => rw [← List.map_id s.edges]
  refine List.map_congr_left fun edge hedge => ?_
  show edge = (generation, edge.2)
  rw [← h edge hedge]

theorem edgesOf_map (edges : List EdgeRow) (written generation : Nat) :
    ((edges.map fun edge => (written, edge)).filter fun edge => edge.1 == generation).map Prod.snd
      = if written = generation then edges else [] := by
  rw [List.filter_map, List.map_map]
  by_cases heq : written = generation
  · simp [heq, Function.comp_def]
  · simp [heq, Function.comp_def]

/-- A lookup reads the edges of the row's generation. -/
theorem lookup_eq (henabled : s.row.enabled = true) (hgeneration : 0 < s.row.generation)
    (ns id : String) :
    s.lookup ns id = (s.edgesOf s.row.generation).filter (ofSource ns id) := by
  unfold lookup edgesOf ofSource
  rw [List.filter_map, List.filter_filter]
  congr 1
  refine List.filter_congr fun edge _ => ?_
  simp [henabled, hgeneration, Bool.and_comm]

theorem lookup_of_zero (h : s.row.generation = 0) (ns id : String) : s.lookup ns id = [] := by
  simp [lookup, h]

/-- **What readers see of a sound state.** -/
theorem Sound.whole (h : Sound s) : Whole s := by
  have hserved : 0 < s.row.generation → ∃ file ∈ s.parsed, file ≠ []
      ∧ ∀ ns id, s.lookup ns id = file.filter (ofSource ns id) := by
    intro hgeneration
    obtain ⟨henabled, hfile⟩ := h.served hgeneration
    exact ⟨_, hfile, h.parsed _ hfile, lookup_eq henabled hgeneration⟩
  constructor
  case lookups =>
    rcases Nat.eq_zero_or_pos s.row.generation with hzero | hgeneration
    · exact ⟨[], List.mem_cons_self, fun ns id => lookup_of_zero hzero ns id⟩
    · obtain ⟨file, hfile, -, hlookup⟩ := hserved hgeneration
      exact ⟨file, List.mem_cons_of_mem _ hfile, hlookup⟩
  case served => exact fun _ hgeneration => hserved hgeneration
  case settled =>
    intro hquiet hgeneration
    obtain ⟨henabled, hfile⟩ := h.served hgeneration
    have honly : OnlyRow s := by
      have hphase := h.phase
      rw [h.idle hquiet.runs] at hphase
      exact hphase
    exact ⟨henabled, _, hfile, h.parsed _ hfile, edges_eq_of_only (honly hgeneration)⟩

/-! ### What the others' steps leave to the refresh at work -/

/-- What a refresh relies on outlasts a step of the others that keeps the row's
generation or takes it back to zero, adds no edges, and leaves an ingest what it
relies on. -/
theorem PhaseSound.imp {phase : RefreshPhase} (h : PhaseSound s phase)
    (hgeneration : t.row.generation = 0 ∨ t.row.generation = s.row.generation)
    (hparsed : s.parsed ⊆ t.parsed) (hedges : ∀ edge ∈ t.edges, edge ∈ s.edges)
    (hwriting : ∀ ingest rest, phase.writing = some ingest.generation →
      Writing s ingest rest → Writing t ingest rest) : PhaseSound t phase := by
  have hle : t.row.generation ≤ s.row.generation :=
    hgeneration.elim (fun hzero => hzero ▸ Nat.zero_le _) Nat.le_of_eq
  have honly : OnlyRow s → OnlyRow t := by
    intro hs hpos edge hedge
    have heq : t.row.generation = s.row.generation :=
      hgeneration.resolve_left (Nat.pos_iff_ne_zero.mp hpos)
    rw [heq]
    exact hs (heq ▸ hpos) edge (hedges edge hedge)
  cases phase with
  | read | record | failed => exact honly h
  | check | fetch => exact ⟨hle.trans h.1, honly h.2⟩
  | clear => exact ⟨hle.trans_lt h.1, hparsed h.2.1, honly h.2.2⟩
  | slices => exact hwriting _ _ rfl h
  | toggleCheck | undo | switch => exact hwriting _ _ rfl h
  | reload | clean =>
    rcases hgeneration with hzero | heq
    · exact .inl hzero
    · exact Or.imp heq.trans heq.trans h

/-- Nothing that a refresh relies on has changed. -/
theorem PhaseSound.frame {p : RefreshPhase} (h : PhaseSound s p)
    (hgeneration : t.row.generation = s.row.generation) (hedges : t.edges = s.edges)
    (hparsed : s.parsed ⊆ t.parsed) (hlost : t.lost = s.lost) : PhaseSound t p := by
  refine h.imp (.inr hgeneration) hparsed (fun edge hedge => hedges ▸ hedge) ?_
  intro ingest rest _ hw
  constructor
  case ahead => exact hgeneration ▸ hw.ahead
  case parsed => exact hparsed hw.parsed
  case written =>
    unfold edgesOf
    rw [hlost, hedges]
    exact hw.written
  case only =>
    rw [hgeneration, hedges]
    exact hw.only

/-- A disable takes the row's generation back to zero. -/
theorem PhaseSound.reset {phase : RefreshPhase} (h : PhaseSound s phase)
    (hzero : t.row.generation = 0) (hedges : t.edges = s.edges) (hparsed : s.parsed ⊆ t.parsed)
    (hlost : t.lost = s.lost) : PhaseSound t phase := by
  refine h.imp (.inl hzero) hparsed (fun edge hedge => hedges ▸ hedge) ?_
  intro ingest rest _ hw
  constructor
  case ahead => exact hzero ▸ Nat.zero_lt_of_lt hw.ahead
  case parsed => exact hparsed hw.parsed
  case written =>
    unfold edgesOf
    rw [hlost, hedges]
    exact hw.written
  case only => exact fun hpos => absurd hzero (Nat.pos_iff_ne_zero.mp hpos)

/-- A disable empties the table: a refresh that has written edges by then has
lost them, and one that has not misses none. -/
theorem PhaseSound.emptied {phase : RefreshPhase} (h : PhaseSound s phase)
    (hzero : s.row.generation = 0) (hrow : t.row = s.row) (hparsed : t.parsed = s.parsed)
    (hedges : t.edges = (s.deleteGeneration false 0).edges)
    (hlost : t.lost = (s.lost || s.edges.any fun edge => phase.writing == some edge.1)) :
    PhaseSound t phase := by
  have hsubset : ∀ edge ∈ t.edges, edge ∈ s.edges :=
    fun edge hedge => (mem_deleteGeneration_other.mp (hedges ▸ hedge)).1
  refine h.imp (.inr (congrArg _ hrow)) (hparsed ▸ List.Subset.refl _) hsubset ?_
  intro ingest rest hphase hw
  constructor
  case ahead => exact hrow ▸ hw.ahead
  case parsed => exact hparsed ▸ hw.parsed
  case written =>
    intro hkept
    rw [hlost, hphase, Bool.or_eq_false_iff] at hkept
    have habsent : ∀ edge ∈ s.edges, edge.1 ≠ ingest.generation := by
      intro edge hedge heq
      have hany := List.any_eq_false.mp hkept.2 edge hedge
      rw [heq] at hany
      exact hany (beq_self_eq_true _)
    rw [edgesOf_eq_nil fun edge hedge => habsent edge (hsubset edge hedge),
      ← edgesOf_eq_nil habsent]
    exact hw.written hkept.1
  case only => exact fun hpos => absurd (hrow ▸ hzero) (Nat.pos_iff_ne_zero.mp hpos)

/-! ### The steps of a refresh -/

/-- A refresh moves on without a write. -/
theorem Sound.move (h : Sound s) {phase : RefreshPhase} (hruns : s.runs ≠ [])
    (hphase : PhaseSound s phase) : Sound { s with phase := phase } where
  parsed := h.parsed
  served := h.served
  disabling := h.disabling
  phase := PhaseSound.frame hphase rfl rfl (List.Subset.refl _) rfl
  idle := fun hnil => absurd hnil hruns

/-- A refresh is over once the table holds no edges but the row's. -/
theorem Sound.finish (h : Sound s) (honly : OnlyRow s) : Sound s.finish where
  parsed := h.parsed
  served := h.served
  disabling := h.disabling
  phase := PhaseSound.frame (p := .read) honly rfl rfl (List.Subset.refl _) rfl
  idle := fun _ => rfl

/-- What a refresh records in the row touches neither its generation nor whether
it is enabled. -/
theorem Sound.recordError (h : Sound s) (lastError : Option String) :
    Sound { s with row := { s.row with lastError := lastError } } where
  parsed := h.parsed
  served := h.served
  disabling := h.disabling
  phase := PhaseSound.frame h.phase rfl rfl (List.Subset.refl _) rfl
  idle := h.idle

/-- A refresh ends with a deletion that spares the row's generation. -/
theorem Sound.deleteFinish (h : Sound s) {same : Bool} {generation : Nat}
    (hspares : 0 < s.row.generation → ((s.row.generation == generation) != same) = true)
    (honly : OnlyRow (s.deleteGeneration same generation)) :
    Sound (s.deleteGeneration same generation).finish where
  parsed := h.parsed
  served := fun hpos => by
    obtain ⟨henabled, hfile⟩ := h.served hpos
    exact ⟨henabled, (edgesOf_deleteGeneration (hspares hpos)).symm ▸ hfile⟩
  disabling := h.disabling
  phase := PhaseSound.frame (p := .read) honly rfl rfl (List.Subset.refl _) rfl
  idle := fun _ => rfl

/-- The statement a refresh begins its ingest with leaves nothing under its
generation. -/
theorem Sound.clear (h : Sound s) {ingest : Ingest} (hruns : s.runs ≠ [])
    (hphase : s.phase = .clear ingest) :
    Sound { s.deleteGeneration true ingest.generation with
      phase := .slices ingest ingest.file.edges, lost := false } := by
  have hclear := h.phase
  rw [hphase] at hclear
  obtain ⟨hahead, hparsed, honly⟩ := hclear
  constructor
  case parsed => exact h.parsed
  case served =>
    intro hpos
    obtain ⟨henabled, hfile⟩ := h.served hpos
    have hkept : ((s.row.generation == ingest.generation) != true) = true := by
      simpa using hahead.ne
    exact ⟨henabled, (edgesOf_deleteGeneration hkept).symm ▸ hfile⟩
  case disabling => exact h.disabling
  case phase =>
    constructor
    case ahead => exact hahead
    case parsed => exact hparsed
    case written =>
      intro _
      have hnil : (s.deleteGeneration true ingest.generation).edgesOf ingest.generation = [] :=
        edgesOf_eq_nil fun edge hedge => (mem_deleteGeneration_same.mp hedge).2
      exact (congrArg (· ++ ingest.file.edges) hnil).trans (List.nil_append _)
    case only =>
      exact fun hpos edge hedge => .inl (honly hpos edge (mem_deleteGeneration_same.mp hedge).1)
  case idle => exact fun hnil => absurd hnil hruns

/-- A slice adds edges under the refresh's generation only. -/
theorem Sound.slice (h : Sound s) {ingest : Ingest} {rest : List EdgeRow} (hruns : s.runs ≠ [])
    (hphase : s.phase = .slices ingest rest) (more : Nat) : Sound (s.slice ingest rest more) := by
  have hw := h.phase
  rw [hphase] at hw
  replace hw : Writing s ingest rest := hw
  have hnew : ∀ generation, (s.slice ingest rest more).edgesOf generation
      = s.edgesOf generation ++ if ingest.generation = generation
          then rest.take (insertChunk * (more + 1)) else [] := by
    intro generation
    unfold edgesOf MappingDataset.slice
    rw [List.filter_append, List.map_append, edgesOf_map]
  constructor
  case parsed => exact h.parsed
  case served =>
    intro hpos
    obtain ⟨henabled, hfile⟩ := h.served hpos
    have hkept := hnew s.row.generation
    rw [if_neg hw.ahead.ne', List.append_nil] at hkept
    exact ⟨henabled, hkept.symm ▸ hfile⟩
  case disabling => exact h.disabling
  case phase =>
    constructor
    case ahead => exact hw.ahead
    case parsed => exact hw.parsed
    case written =>
      intro hkept
      rw [hnew, if_pos rfl, List.append_assoc, List.take_append_drop]
      exact hw.written hkept
    case only =>
      intro hpos edge hedge
      rcases List.mem_append.mp hedge with hedge | hedge
      · exact hw.only hpos edge hedge
      · obtain ⟨_, -, rfl⟩ := List.mem_map.mp hedge
        exact .inr rfl
  case idle => exact fun hnil => absurd hnil hruns

/-- **The switch**: an enabled dataset with no disable in the way gets the
generation with all edges of its file. -/
theorem Sound.switch (h : Sound s) {ingest : Ingest} (hruns : s.runs ≠ [])
    (hphase : s.phase = .switch ingest) (henabled : s.row.enabled = true) (hlost : s.lost = false)
    (hnone : ∀ task ∈ s.toggling, task.2.disabling = false) :
    Sound { s with row := switchRow s.row ingest, phase := .reload ingest } := by
  have hw := h.phase
  rw [hphase] at hw
  have hwritten : s.edgesOf ingest.generation = ingest.file.edges :=
    (List.append_nil _).symm.trans (hw.written hlost)
  constructor
  case parsed => exact h.parsed
  case served => exact fun _ => ⟨henabled, hwritten ▸ hw.parsed⟩
  case disabling =>
    intro task htask hdisable
    rw [hnone task htask] at hdisable
    cases hdisable
  case phase => exact .inr rfl
  case idle => exact fun hnil => absurd hnil hruns

/-- **A statement of a refresh keeps the invariant**, where its switch finds
everything in place. -/
theorem Sound.runStep (h : Sound s) {run : RefreshRun} (hruns : s.runs ≠ [])
    (hok : Ok s .step) (hstep : s.runStep run = some t) : Sound t := by
  have hphase := h.phase
  cases hp : s.phase with
  | read =>
    simp only [MappingDataset.runStep, hp, Option.some.injEq] at hstep
    rw [hp] at hphase
    exact hstep ▸ h.move hruns ⟨le_rfl, hphase⟩
  | check row =>
    simp only [MappingDataset.runStep, hp] at hstep
    rw [hp] at hphase
    split at hstep <;> obtain rfl := Option.some.inj hstep
    · exact h.finish hphase.2
    · exact h.move hruns hphase
  | fetch row => simp [MappingDataset.runStep, hp] at hstep
  | record lastError =>
    simp only [MappingDataset.runStep, hp, Option.some.injEq] at hstep
    rw [hp] at hphase
    exact hstep ▸ (h.recordError lastError).finish hphase
  | clear ingest =>
    simp only [MappingDataset.runStep, hp, Option.some.injEq] at hstep
    exact hstep ▸ h.clear hruns hp
  | slices ingest rest =>
    simp only [MappingDataset.runStep, hp] at hstep
    rw [hp] at hphase
    cases rest with
    | nil => exact Option.some.inj hstep ▸ h.move hruns hphase
    | cons edge rest => cases hstep
  | toggleCheck ingest =>
    simp only [MappingDataset.runStep, hp] at hstep
    rw [hp] at hphase
    split at hstep <;> exact Option.some.inj hstep ▸ h.move hruns hphase
  | undo ingest =>
    simp only [MappingDataset.runStep, hp, Option.some.injEq] at hstep
    rw [hp] at hphase
    have hspares : 0 < s.row.generation →
        ((s.row.generation == ingest.generation) != true) = true := by
      intro _
      simpa using hphase.ahead.ne
    refine hstep ▸ h.deleteFinish hspares fun hpos edge hedge => ?_
    obtain ⟨hedge, hne⟩ := mem_deleteGeneration_same.mp hedge
    exact (hphase.only hpos edge hedge).resolve_right hne
  | switch ingest =>
    simp only [MappingDataset.runStep, hp, Option.some.injEq] at hstep
    obtain ⟨henabled, hlost, hnone⟩ := hok ingest hp
    exact hstep ▸ h.switch hruns hp henabled hlost hnone
  | reload ingest =>
    simp only [MappingDataset.runStep, hp, Option.some.injEq] at hstep
    rw [hp] at hphase
    exact hstep ▸ h.move hruns hphase
  | clean ingest =>
    simp only [MappingDataset.runStep, hp, Option.some.injEq] at hstep
    rw [hp] at hphase
    have heq : 0 < s.row.generation → s.row.generation = ingest.generation :=
      fun hpos => hphase.resolve_left (Nat.pos_iff_ne_zero.mp hpos)
    refine hstep ▸ h.deleteFinish (fun hpos => by simp [heq hpos]) fun hpos edge hedge => ?_
    exact (mem_deleteGeneration_other.mp hedge).2.trans (heq hpos).symm
  | failed message =>
    simp only [MappingDataset.runStep, hp, Option.some.injEq] at hstep
    rw [hp] at hphase
    exact hstep ▸ (h.recordError (some message)).finish hphase

/-- A download hands over a file with edges, or an outcome that writes none. -/
theorem Sound.fetched (h : Sound s) {row : DatasetRow} (hruns : s.runs ≠ [])
    (hphase : s.phase = .fetch row) (fetched : Fetched) : Sound (s.fetched parse row fetched) := by
  have hfetch := h.phase
  rw [hphase] at hfetch
  obtain ⟨hle, honly⟩ := hfetch
  unfold MappingDataset.fetched
  split
  · exact h.move hruns honly
  split
  · exact h.move hruns honly
  cases fileOf parse fetched with
  | error message => exact h.move hruns honly
  | ok file =>
    show Sound (if file.edges = [] then _ else _)
    split
    · exact h.move hruns honly
    · next hedges =>
      constructor
      case parsed =>
        intro edges hmem
        rcases List.mem_append.mp hmem with hmem | hmem
        · exact h.parsed edges hmem
        · exact List.mem_singleton.mp hmem ▸ hedges
      case served =>
        intro hpos
        obtain ⟨henabled, hfile⟩ := h.served hpos
        exact ⟨henabled, List.mem_append_left _ hfile⟩
      case disabling => exact h.disabling
      case phase =>
        refine ⟨Nat.lt_succ_of_le hle, List.mem_append_right _ (List.mem_singleton_self _), ?_⟩
        exact honly
      case idle => exact fun hnil => absurd hnil hruns

/-- A refresh that fails leaves no edges but the row's. -/
theorem Sound.fail (h : Sound s) (hruns : s.runs ≠ []) (honly : OnlyRow s) (message : String) :
    Sound (s.fail message) := by
  unfold MappingDataset.fail
  split
  · exact h.finish honly
  · exact h.finish honly
  · exact h.move hruns honly

theorem Sound.claim (h : Sound s) (force : Bool) : Sound (s.claim force) := by
  have hqueue : ∀ runs, (runs = [] → s.runs = []) → Sound { s with runs := runs } := by
    intro runs hruns
    constructor
    case parsed => exact h.parsed
    case served => exact h.served
    case disabling => exact h.disabling
    case phase => exact PhaseSound.frame h.phase rfl rfl (List.Subset.refl _) rfl
    case idle => exact fun hnil => h.idle (hruns hnil)
  unfold MappingDataset.claim
  split
  · split
    · exact h
    · exact hqueue _ fun hnil => absurd hnil (List.append_ne_nil_of_right_ne_nil _ (by simp))
  · exact hqueue _ fun hnil => by cases hnil

/-! ### The steps of a toggle -/

/-- What holds of every toggle but the one that moves on, and of that one, holds
of all. -/
theorem forall_mem_setToggle {P : ToggleTask → Prop} {id : Nat} {task : Option ToggleTask}
    (h : ∀ k ∈ s.toggling, P k.2) (htask : ∀ k, task = some k → P k) :
    ∀ k ∈ (s.setToggle id task).toggling, P k.2 := by
  intro k hk
  rcases List.mem_append.mp hk with hk | hk
  · exact h k (List.mem_of_mem_filter hk)
  · obtain ⟨k', hk', rfl⟩ := Option.map_eq_some_iff.mp (Option.mem_toList.mp hk)
    exact htask k' hk'

/-- A toggle moves on without a write. -/
theorem Sound.setToggle (h : Sound s) {id n : Nat} {task : Option ToggleTask}
    (htask : ∀ k, task = some k → k.disabling = true → s.row.generation = 0) :
    Sound ({ s with toggles := n }.setToggle id task) where
  parsed := h.parsed
  served := h.served
  disabling := forall_mem_setToggle h.disabling htask
  phase := PhaseSound.frame h.phase rfl rfl (List.Subset.refl _) rfl
  idle := h.idle

/-- An enable leaves the row's generation as it is, a disable takes it back to
zero. -/
theorem Sound.updateRow (h : Sound s) (id : Nat) (enabled : Bool) :
    Sound (s.toggleStep id (.updateRow enabled)) := by
  cases enabled with
  | true =>
    constructor
    case parsed => exact h.parsed
    case served => exact fun hpos => ⟨rfl, (h.served hpos).2⟩
    case disabling =>
      refine forall_mem_setToggle (P := fun k => k.disabling = true → s.row.generation = 0)
        h.disabling fun k hk hdisable => ?_
      obtain rfl := Option.some.inj hk
      cases hdisable
    case phase => exact PhaseSound.frame h.phase rfl rfl (List.Subset.refl _) rfl
    case idle => exact h.idle
  | false =>
    constructor
    case parsed => exact h.parsed
    case served => exact fun hpos => absurd hpos (Nat.lt_irrefl 0)
    case disabling => exact fun _ _ _ => rfl
    case phase => exact PhaseSound.reset h.phase rfl rfl (List.Subset.refl _) rfl
    case idle => exact h.idle

/-- **A statement of a toggle keeps the invariant.** -/
theorem Sound.toggleStep (h : Sound s) {id : Nat} {task : ToggleTask}
    (htask : s.toggle? id = some task) : Sound (s.toggleStep id task) := by
  obtain ⟨found, hfound, rfl⟩ := Option.map_eq_some_iff.mp htask
  have hzero : found.2.disabling = true → s.row.generation = 0 :=
    h.disabling found (List.mem_of_find?_eq_some hfound)
  cases htask : found.2 with
  | updateRow enabled => exact h.updateRow id enabled
  | reload enabled =>
    refine h.setToggle (n := s.toggles) fun k hk _ => ?_
    cases enabled with
    | true => cases hk
    | false => exact hzero (htask ▸ rfl)
  | delete =>
    replace hzero : s.row.generation = 0 := hzero (htask ▸ rfl)
    constructor
    case parsed => exact h.parsed
    case served => exact fun hpos => absurd hzero (Nat.pos_iff_ne_zero.mp hpos)
    case disabling => exact fun _ _ _ => hzero
    case phase => exact PhaseSound.emptied h.phase hzero rfl rfl rfl rfl
    case idle => exact h.idle

/-! ### Runs -/

/-- **Every step that finds everything in place keeps the invariant.** -/
theorem Sound.step (h : Sound s) {act : Act} (hok : Ok s act) (hstep : Step parse s act t) :
    Sound t := by
  cases act with
  | refresh force =>
    obtain rfl := Option.some.inj hstep
    exact h.claim force
  | step =>
    obtain ⟨run, hrun, hstep⟩ := Option.bind_eq_some_iff.mp hstep
    exact h.runStep (fun hnil => by rw [hnil] at hrun; cases hrun) hok hstep
  | fetched outcome =>
    simp only [Step, next] at hstep
    split at hstep
    · next hruns hphase =>
      obtain rfl := Option.some.inj hstep
      exact h.fetched (hruns ▸ List.cons_ne_nil _ _) hphase _
    · next row _ hruns hphase =>
      obtain rfl := Option.some.inj hstep
      have hfetch := h.phase
      rw [hphase] at hfetch
      exact h.move (hruns ▸ List.cons_ne_nil _ _) hfetch.2
    · cases hstep
  | slice more =>
    simp only [Step, next] at hstep
    split at hstep
    · next hruns hphase =>
      obtain rfl := Option.some.inj hstep
      exact h.slice (hruns ▸ List.cons_ne_nil _ _) hphase more
    · cases hstep
  | dbFails message =>
    simp only [Step, next] at hstep
    split at hstep
    · next hruns =>
      obtain rfl := Option.some.inj hstep
      exact h.fail (hruns ▸ List.cons_ne_nil _ _) hok message
    · cases hstep
  | toggle id enabled =>
    simp only [Step, next] at hstep
    split at hstep
    · obtain rfl := Option.some.inj hstep
      refine h.setToggle fun k hk hdisable => ?_
      obtain rfl := Option.some.inj hk
      cases hdisable
    · cases hstep
  | toggleStep id =>
    obtain ⟨task, htask, rfl⟩ := Option.map_eq_some_iff.mp hstep
    exact h.toggleStep htask
  | toggleFails id =>
    obtain ⟨task, htask, rfl⟩ := Option.map_eq_some_iff.mp hstep
    exact h.setToggle fun k hk => by cases hk

/-- A dataset as it is stored while nobody is at work on it. -/
structure StoredDataset where
  row : DatasetRow
  file : List EdgeRow
  edges : List (Nat × EdgeRow)
  whole : 0 < row.generation → row.enabled = true ∧ file ≠ []
    ∧ edges = file.map fun edge => (row.generation, edge)

/-- The process starts with a stored dataset. -/
def start (stored : StoredDataset) : MappingDataset :=
  { row := stored.row
    edges := stored.edges
    parsed := if 0 < stored.row.generation then [stored.file] else [] }

theorem sound_start (stored : StoredDataset) : Sound (start stored) := by
  constructor
  case parsed =>
    intro file hfile
    unfold start at hfile
    split at hfile
    · next hpos => exact List.mem_singleton.mp hfile ▸ (stored.whole hpos).2.1
    · cases hfile
  case served =>
    intro hpos
    obtain ⟨henabled, -, hedges⟩ := stored.whole hpos
    have hfile : (start stored).edgesOf stored.row.generation = stored.file := by
      unfold edgesOf
      show (stored.edges.filter _).map _ = _
      rw [hedges, edgesOf_map, if_pos rfl]
    refine ⟨henabled, ?_⟩
    show (start stored).edgesOf stored.row.generation
      ∈ if 0 < stored.row.generation then [stored.file] else []
    rw [hfile, if_pos (show 0 < stored.row.generation from hpos)]
    exact List.mem_singleton_self _
  case disabling => exact fun _ h => by cases h
  case phase =>
    intro hpos edge hedge
    obtain ⟨-, -, hedges⟩ := stored.whole hpos
    replace hedge : edge ∈ stored.edges := hedge
    rw [hedges] at hedge
    obtain ⟨_, -, rfl⟩ := List.mem_map.mp hedge
    rfl
  case idle => exact fun _ => rfl

/-- **Readers see one whole file or nothing**, at every moment of any run whose
switches find everything in place. -/
theorem readers_whole (parse : String → Except String ParsedDataset) (stored : StoredDataset)
    {acts : List Act} {s : MappingDataset}
    (h : Run (Guarded (Step parse) Ok) (start stored) acts s) : Whole s :=
  (h.invariant (fun _ _ _ hs hstep => hs.step hstep.1 hstep.2) (sound_start stored)).whole

/-! ### A switch after a disable -/

private def edge : EdgeRow := ⟨"anilist", "5", "", "tmdb_show", "100", "s1", none, none⟩

private def download : Fetched :=
  { status := .downloaded, etag := some "v1", parsed := some { edges := [edge] } }

/-- A row as `ensure_rows` seeds it. -/
private def seeded : StoredDataset :=
  { row := {}, file := [], edges := [], whole := fun h => absurd h (by decide) }

/-- A disable runs between a refresh's second look at the counter and its
switch. Once the dataset is enabled again, upstream has nothing new. -/
private def disabledBeforeSwitch : List Act :=
  [.refresh false, .step, .step, .fetched (.ok download), .step, .slice 0, .step, .step,
    .toggle 0 false, .toggleStep 0, .toggleStep 0, .toggleStep 0, .step, .step, .step,
    .toggle 1 true, .toggleStep 1, .toggleStep 1,
    .refresh false, .step, .step, .fetched (.ok { status := .notModified }), .step]

/-- **A dataset can be switched to a generation whose edges are gone**: it is left
enabled and empty, and a refresh that is answered "not modified" leaves it so. -/
theorem switched_after_disable : ∃ (parse : String → Except String ParsedDataset)
    (stored : StoredDataset) (acts : List Act) (s : MappingDataset),
    Run (Step parse) (start stored) acts s ∧ ¬Whole s := by
  let parse : String → Except String ParsedDataset := fun _ => .error "no file"
  have hrun : (disabledBeforeSwitch.foldlM (next parse) (start seeded)).map
        (fun s => (s.row.enabled, s.row.generation, s.edges))
      = some (true, 1, []) := by decide +kernel
  obtain ⟨s, hs, hfinal⟩ := Option.map_eq_some_iff.mp hrun
  obtain ⟨henabled, hrest⟩ := Prod.mk.inj hfinal
  obtain ⟨hgeneration, hedges⟩ := Prod.mk.inj hrest
  refine ⟨parse, seeded, disabledBeforeSwitch, s, Run.of_foldlM hs, fun h => ?_⟩
  have hpos : 0 < s.row.generation := hgeneration ▸ Nat.one_pos
  obtain ⟨file, -, hfile, hlookup⟩ := h.served henabled hpos
  obtain ⟨edge, hedge⟩ := List.exists_mem_of_ne_nil file hfile
  have hnil : s.lookup edge.srcNs edge.srcId = [] := by simp [lookup, hedges]
  have hmem : edge ∈ file.filter (ofSource edge.srcNs edge.srcId) :=
    List.mem_filter.mpr ⟨hedge, by simp [ofSource]⟩
  rw [← hlookup, hnil] at hmem
  cases hmem

/-- A refresh that nobody interrupts, a disable that another one notices, and an
enable with a refresh of its own. -/
private def noticed : List Act :=
  [.refresh false, .step, .step, .fetched (.ok download), .step, .slice 0, .step, .step,
    .step, .step, .step,
    .refresh true, .step, .step, .fetched (.ok download), .step, .slice 0, .toggle 0 false,
    .step, .step, .step, .toggleStep 0, .toggleStep 0, .toggleStep 0,
    .toggle 1 true, .toggleStep 1, .toggleStep 1,
    .refresh false, .step, .step, .fetched (.ok download), .step, .slice 0, .step, .step,
    .step, .step, .step]

/-- Whether everything is in place for a step. -/
private def inPlace (s : MappingDataset) : Act → Bool
  | .step =>
    match s.phase with
    | .switch _ => s.row.enabled && !s.lost && s.toggling.all fun task => !task.2.disabling
    | _ => true
  | .dbFails _ => false
  | _ => true

private theorem ok_of_inPlace {s : MappingDataset} {act : Act} (h : inPlace s act = true) :
    Ok s act := by
  cases act with
  | step =>
    intro ingest hphase
    simp only [inPlace, hphase, Bool.and_eq_true, Bool.not_eq_true', List.all_eq_true] at h
    exact ⟨h.1.1, h.1.2, h.2⟩
  | dbFails message => cases h
  | _ => trivial

theorem readers_whole_noticed : ∃ s : MappingDataset, Whole s ∧ Quiescent s
    ∧ s.row.generation = 1 ∧ s.edges = [(1, edge)] := by
  let parse : String → Except String ParsedDataset := fun _ => .error "no file"
  let guarded (s : MappingDataset) (act : Act) : Option MappingDataset :=
    if inPlace s act then s.next parse act else none
  have hrun : (noticed.foldlM guarded (start seeded)).map
        (fun s => (s.runs.length, s.toggling.length, s.row.generation, s.edges))
      = some (0, 0, 1, [(1, edge)]) := by decide +kernel
  obtain ⟨s, hs, hfinal⟩ := Option.map_eq_some_iff.mp hrun
  obtain ⟨hruns, hrest⟩ := Prod.mk.inj hfinal
  obtain ⟨htoggling, hrest⟩ := Prod.mk.inj hrest
  obtain ⟨hgeneration, hedges⟩ := Prod.mk.inj hrest
  have hguard : ∀ s act t, guarded s act = some t → Guarded (Step parse) Ok s act t := by
    intro s act t hstep
    simp only [guarded, Option.ite_none_right_eq_some] at hstep
    exact ⟨ok_of_inPlace hstep.1, hstep.2⟩
  exact ⟨s, readers_whole parse seeded ((Run.of_foldlM hs).mono hguard),
    ⟨List.length_eq_zero_iff.mp hruns, List.length_eq_zero_iff.mp htoggling⟩,
    hgeneration, hedges⟩

end MappingDataset

end Foreseerr

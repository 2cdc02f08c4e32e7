import Foreseerr.Json
import Foreseerr.KeyedList
import Foreseerr.Run

/-!
# The settings store

`settings/mod.rs` keeps settings.json with a cache that is refreshed when the
file's modification time or length changes. A change holds the mutation lock
from reading the document it starts from until it is written, or kept
unsaved; a read takes no lock, and its look at the file's metadata, its
reading of the text and its cache write are separate steps.

The runs below interleave changes and reads in every order. The state keeps
the **versions** the settings went through, so that what a change is applied
to and what a read answers can be told from its version. A read that is
overtaken by a save puts an outdated document into the cache, and one reader
comes upon it when the file's stamp does not tell the two apart
(`SettingsStore.stale_read`). Everything else goes well: in the runs in which
no one takes such an outdated document, no change is lost
(`SettingsStore.nothing_lost`).
-/

namespace Foreseerr

/-! ## The documents -/

/-- What the store is built over: `DEFAULTS`, `API_KEY`, the loopback origin
of a listening desktop child, `managed_url`, and the length of the text a
document is written as. -/
structure SettingsEnv where
  defaults : Json
  apiKeyOverride : Option String
  origin : Option String
  managedUrl : Json → String → Bool
  textLen : Json → Nat

namespace SettingsEnv

variable (env : SettingsEnv)

/-- `Settings::from_file_value`. -/
def fromFileValue (file : Json) : Json := env.defaults.merge file

/-- `Settings::str`. -/
def str (path : List String) (data : Json) : String :=
  ((data.pointer path).bind Json.asStr).getD ""

/-- `Settings::api_key`. -/
def apiKey (data : Json) : String :=
  match env.apiKeyOverride with
  | some key => if key ≠ "" then key else str ["main", "apiKey"] data
  | none => str ["main", "apiKey"] data

/-- `desktop::effective`. -/
def effective (settings : Json) : Json :=
  match env.origin with
  | none => settings
  | some origin =>
    if (settings.pointer ["main", "applicationUrl"]).bind Json.asStr = some origin then settings
    else settings.setIn "main" "applicationUrl" (.str origin)

/-- `node_memory`: the current document as a change gets it. -/
def nodeMemory (current : Json) : Json :=
  if env.apiKey current ≠ str ["main", "apiKey"] current
  then current.setIn "main" "apiKey" (.str (env.apiKey current)) else current

/-- `desktop::durable_document`. -/
def durableDocument (data : Json) (stored : Option Json) : Option Json := do
  let origin ← env.origin
  let current ← data.pointer ["main", "applicationUrl"]
  if env.managedUrl current origin
  then some (data.setIn "main" "applicationUrl" (stored.getD (.str "")))
  else none

/-- The document a save of `data` writes, over the stored `applicationUrl`. -/
def savedDocument (stored : Option Json) (data : Json) : Json :=
  let durable := (env.durableDocument data stored).getD data
  match env.apiKeyOverride with
  | some key => if key ≠ "" then durable.setIn "main" "apiKey" (.str key) else durable
  | none => durable

/-- The settings of a text that parses to `doc`. -/
def load (doc : Option Json) : Option Json :=
  (doc.filter Json.isObject).map env.fromFileValue

/-- Whether a save of `data` puts the stored `applicationUrl` back. -/
def restoresUrl (data : Json) : Bool := (env.durableDocument data none).isSome

/-- Where no URL is put back, the stored one does not matter. -/
theorem savedDocument_congr {data : Json} (h : env.restoresUrl data = false)
    (stored stored' : Option Json) :
    env.savedDocument stored data = env.savedDocument stored' data := by
  have hnone : ∀ stored, env.durableDocument data stored = none := by
    intro stored
    simp only [restoresUrl, durableDocument] at h ⊢
    cases horigin : env.origin with
    | none => rfl
    | some origin =>
      cases hurl : data.pointer ["main", "applicationUrl"] with
      | none => simp [Option.bind_eq_bind]
      | some url =>
        rw [horigin, hurl] at h
        simp only [Option.bind_eq_bind, Option.bind_some] at h ⊢
        split
        · next hm => simp [hm] at h
        · rfl
  simp only [savedDocument, hnone]

end SettingsEnv

/-! ## The state -/

/-- The metadata a read goes by; both are missing where the file is, or where
looking at it fails. -/
structure FileStamp where
  modified : Option Nat := none
  len : Nat := 0
deriving DecidableEq, Repr

/-- settings.json: the document its text parses to, if it does. -/
structure SettingsFile where
  doc : Option Json
  stamp : FileStamp

/-- A call that changes the settings, with its change function. `mutate`'s
says whether to go on to the write; `update` is a `mutate` that always does. -/
inductive SettingsCall
  | mutate (change : Json → Json × Bool)
  | mutateUnsaved (change : Json → Json)

/-- `update`. -/
def SettingsCall.update (change : Json → Json) : SettingsCall :=
  .mutate fun doc => (change doc, true)

/-- One document the settings were: what made it, and whether it is kept in
memory only. -/
structure SettingsVersion where
  settings : Json
  kept : Bool := false
  madeBy : Option SettingsCall := none

/-- What `current` returns of a version: an unsaved document is returned as it
is. -/
def SettingsVersion.shown (env : SettingsEnv) (version : SettingsVersion) : Json :=
  if version.kept then version.settings else env.effective version.settings

/-- `Cached`, with the version it is of. -/
structure CachedSettings where
  stamp : FileStamp
  settings : Json
  version : Nat

/-- Who reads: a call of `current` of its own, or the holder of the mutation
lock. -/
inductive SettingsReader
  | reader (id : Nat)
  | writer
deriving DecidableEq, Repr

/-- Where a `current` is: before the metadata, before looking into the cache,
before the text, after a text that was not found or could not be had, and
before its cache write. -/
inductive ReadPhase
  | metadata
  | check (stamp : FileStamp)
  | text (stamp : FileStamp)
  | missing (stamp : FileStamp)
  | failed
  | store (stamp : FileStamp) (settings : Json) (version : Nat)

/-- A `current` in flight, with the last version completed when it started. -/
structure SettingsRead where
  caller : SettingsReader
  started : Nat
  phase : ReadPhase

/-- Where the holder of the mutation lock is. -/
inductive SettingsWriter
  | idle
  | reading (call : SettingsCall)
  | applying (call : SettingsCall) (current : Json)
  | saving (call : SettingsCall) (doc : Json)
  | writing (call : SettingsCall) (doc : Json)
  | renaming (call : SettingsCall) (doc : Json)
  | renamed (doc : Json)
  | caching (doc : Json) (stamp : FileStamp)
  | clearing

/-- A `current` that answered: the last version completed when it started,
and the document. -/
structure SettingsAnswer where
  since : Nat
  doc : Json

/-- `SettingsStore` with the file and everyone at work on it.

The fields from `versions` on are history: the versions in order, the last
one whose change completed, the version in the file, the one the last save
put into the cache, the documents given to change functions under the
version they are of, and the answers. -/
structure SettingsStore where
  file : Option SettingsFile
  cached : Option CachedSettings := none
  unsaved : Option Json := none
  writer : SettingsWriter := .idle
  reads : List SettingsRead := []
  versions : List SettingsVersion
  completed : Nat := 0
  fileVersion : Nat := 0
  cachedSave : Nat := 0
  given : List (Nat × Json) := []
  answers : List SettingsAnswer := []

/-- A store as it is made, over what is on the disk. A missing file is read as
an empty document. -/
def SettingsStore.new (env : SettingsEnv) (file : Option SettingsFile) : SettingsStore where
  file := file
  versions := [{
    settings := match file with
      | some f => (env.load f.doc).getD env.defaults
      | none => env.fromFileValue (.obj []) }]

namespace SettingsStore

variable (env : SettingsEnv)

/-! ## The steps -/

/-- The read of a caller. -/
def read? (s : SettingsStore) (caller : SettingsReader) : Option SettingsRead :=
  KeyedList.lookup SettingsRead.caller caller s.reads

/-- A read goes on. -/
def goOn (s : SettingsStore) (read : SettingsRead) (phase : ReadPhase) : SettingsStore :=
  { s with
    reads := KeyedList.upsert SettingsRead.caller (fun _ new => new) s.reads
      { read with phase := phase } }

/-- The reads but one. -/
def readsBut (s : SettingsStore) (read : SettingsRead) : List SettingsRead :=
  s.reads.filter fun other => other.caller ≠ read.caller

/-- A read is over. The writer's goes on to its change, or gives the lock
back. -/
def answer (s : SettingsStore) (read : SettingsRead) (doc : Option Json) : SettingsStore :=
  match read.caller with
  | .reader _ =>
    { s with
      reads := s.readsBut read
      answers := s.answers ++ (doc.map fun doc => ⟨read.started, doc⟩).toList }
  | .writer =>
    match s.writer with
    | .reading call =>
      { s with
        reads := s.readsBut read
        writer := doc.elim .idle fun doc => .applying call doc }
    | _ => { s with reads := s.readsBut read }

/-- The stamp a look at the file gives. -/
def stamp (s : SettingsStore) (found : Bool) : FileStamp :=
  match s.file with
  | some file => if found then file.stamp else {}
  | none => {}

/-- The `applicationUrl` of some settings. -/
def applicationUrl (settings : Json) : Option Json :=
  settings.pointer ["main", "applicationUrl"]

/-- A step: the first of `current` (which returns unsaved settings at once),
its metadata, its look into the cache, its reading of the text (`false`: an
error), what it does when the text was not found or could not be had, and its
cache write; and those of a change: taking the lock and the first step of its
`current`, the change function, the reading of the stored URL, the temp file,
the rename (with the modification time the file gets), the metadata, the cache
write and the clearing of the unsaved settings. -/
inductive Act
  | start (id : Nat)
  | metadata (caller : SettingsReader) (found : Bool)
  | check (caller : SettingsReader)
  | text (caller : SettingsReader) (ok : Bool)
  | missing (caller : SettingsReader)
  | fallBack (caller : SettingsReader)
  | store (caller : SettingsReader)
  | lock (call : SettingsCall)
  | apply
  | stored
  | temp (ok : Bool)
  | rename (ok : Bool) (modified : Option Nat)
  | writtenMetadata (found : Bool)
  | cacheWritten
  | finish

/-- The first step of `current`. -/
def startRead (s : SettingsStore) (caller : SettingsReader) : SettingsStore :=
  let read : SettingsRead := ⟨caller, s.completed, .metadata⟩
  match s.unsaved with
  | some unsaved => s.answer read (some unsaved)
  | none => s.goOn read .metadata

/-- A step of a `current` in flight. -/
def readStep (s : SettingsStore) (read : SettingsRead) : Act → Option SettingsStore
  | .metadata _ found =>
    match read.phase with
    | .metadata => some (s.goOn read (.check (s.stamp found)))
    | _ => none
  | .check _ =>
    match read.phase, s.cached with
    | .check stamp, some cached =>
      some (if cached.stamp = stamp then s.answer read (some (env.effective cached.settings))
        else s.goOn read (.text stamp))
    | .check stamp, none => some (s.goOn read (.text stamp))
    | _, _ => none
  | .text _ ok =>
    match read.phase, ok, s.file with
    | .text stamp, true, some file =>
      match env.load file.doc with
      | some settings => some (s.goOn read (.store stamp settings s.fileVersion))
      | none => some (s.goOn read .failed)
    | .text stamp, true, none => some (s.goOn read (.missing stamp))
    | .text _, false, _ => some (s.goOn read .failed)
    | _, _, _ => none
  | .missing _ =>
    match read.phase with
    | .missing stamp =>
      some (if s.cached.isNone then s.goOn read (.store stamp (env.fromFileValue (.obj [])) 0)
        else s.goOn read .failed)
    | _ => none
  | .fallBack _ =>
    match read.phase with
    | .failed => some (s.answer read (s.cached.map fun cached => env.effective cached.settings))
    | _ => none
  | .store _ =>
    match read.phase with
    | .store stamp settings version =>
      some ({ s with cached := some ⟨stamp, settings, version⟩ }.answer read
        (some (env.effective settings)))
    | _ => none
  | _ => none

/-- The change function runs. What it changes is written, kept unsaved, or (a
`Break`) dropped. -/
def applyChange (s : SettingsStore) (call : SettingsCall) (current : Json) : SettingsStore :=
  let doc := env.nodeMemory current
  let s := { s with given := s.given ++ [(s.completed, doc)] }
  match call with
  | .mutate change =>
    if (change doc).2 then { s with writer := .saving call (change doc).1 }
    else { s with writer := .idle }
  | .mutateUnsaved change =>
    { s with
      unsaved := some (change doc)
      writer := .idle
      versions := s.versions ++ [⟨change doc, true, some call⟩]
      completed := s.completed + 1 }

/-- A step of the holder of the mutation lock. -/
def writeStep (s : SettingsStore) : Act → Option SettingsStore
  | .apply =>
    match s.writer with
    | .applying call current => some (s.applyChange env call current)
    | _ => none
  | .stored =>
    match s.writer with
    | .saving call doc =>
      let stored := s.cached.bind fun cached => applicationUrl cached.settings
      some { s with writer := .writing call (env.savedDocument stored doc) }
    | _ => none
  | .temp ok =>
    match s.writer with
    | .writing call doc => some { s with writer := if ok then .renaming call doc else .idle }
    | _ => none
  | .rename ok modified =>
    match s.writer with
    | .renaming call doc =>
      some (if ok then
        { s with
          file := some ⟨some doc, ⟨modified, env.textLen doc⟩⟩
          writer := .renamed doc
          versions := s.versions ++ [⟨env.fromFileValue doc, false, some call⟩]
          fileVersion := s.versions.length }
        else { s with writer := .idle })
    | _ => none
  | .writtenMetadata found =>
    match s.writer with
    | .renamed doc => some { s with writer := .caching doc (s.stamp found) }
    | _ => none
  | .cacheWritten =>
    match s.writer with
    | .caching doc stamp =>
      some { s with
        cached := some ⟨stamp, env.fromFileValue doc, s.fileVersion⟩
        cachedSave := s.fileVersion
        writer := .clearing }
    | _ => none
  | .finish =>
    match s.writer with
    | .clearing => some { s with unsaved := none, writer := .idle, completed := s.fileVersion }
    | _ => none
  | _ => none

/-- One step of the store. -/
def next (s : SettingsStore) (act : Act) : Option SettingsStore :=
  match act with
  | .start id =>
    match s.read? (.reader id) with
    | none => some (s.startRead (.reader id))
    | some _ => none
  | .lock call =>
    match s.writer with
    | .idle => some ({ s with writer := .reading call }.startRead .writer)
    | _ => none
  | .metadata caller _ | .check caller | .text caller _ | .missing caller | .fallBack caller
  | .store caller => (s.read? caller).bind fun read => s.readStep env read act
  | _ => s.writeStep env act

/-- A step from one state to another. -/
def Step (s : SettingsStore) (act : Act) (t : SettingsStore) : Prop := s.next env act = some t

/-! ## What no change is lost means -/

/-- The last version that was saved. -/
def lastSaved (versions : List SettingsVersion) : Option SettingsVersion :=
  (versions.filter fun version => !version.kept).getLast?

/-- A version is the one its change makes of the versions before it: the change
function is given the newest, and a save puts the `applicationUrl` of the last
one saved back. -/
def Made (before : List SettingsVersion) (version : SettingsVersion) : Prop :=
  match before.getLast?, version.madeBy with
  | none, madeBy => madeBy = none
  | some last, some (.mutate change) =>
    let made := change (env.nodeMemory (last.shown env))
    let stored := (lastSaved before).bind fun saved => applicationUrl saved.settings
    made.2 = true ∧ version.kept = false
      ∧ version.settings = env.fromFileValue (env.savedDocument stored made.1)
  | some last, some (.mutateUnsaved change) =>
    version.kept = true ∧ version.settings = change (env.nodeMemory (last.shown env))
  | some _, none => False

/-- **No change is lost**: every version is its change applied to the version
before it, every change function was given the newest version completed, and
every answer shows a version at least as new as the last one completed when
the call started. -/
structure NothingLost (s : SettingsStore) : Prop where
  made : Log.EachAfter (Made env) s.versions
  given : ∀ g ∈ s.given, ∃ version, s.versions[g.1]? = some version
    ∧ g.2 = env.nodeMemory (version.shown env)
  answered : ∀ a ∈ s.answers, ∃ k version, a.since ≤ k ∧ s.versions[k]? = some version
    ∧ a.doc = version.shown env

/-- A step of a write that fails. -/
def Act.Fails : Act → Prop
  | .temp ok => ok = false
  | .rename ok _ => ok = false
  | _ => False

/-! ## The condition

A document is outdated once a save has put a newer one into the cache. -/

/-- **No one takes an outdated document** that a late read left in the cache:
a read does not store one under the stamp the file has, or under one that a
read that needs a newer document holds; a rename does not give the file the
stamp of one; a read whose look at the file or its text failed does not come
upon one too old for it; and a save does not take the stored URL of one. -/
def Ok (s : SettingsStore) : Act → Prop
  | .store caller =>
    ∀ read stamp settings version, s.read? caller = some read →
      read.phase = .store stamp settings version → version < s.cachedSave →
      (∀ file, s.file = some file → file.stamp ≠ stamp) ∧
        ∀ other ∈ s.reads, other.phase = .check stamp → other.started ≤ version
  | .rename ok modified =>
    ∀ call doc cached, s.writer = .renaming call doc → s.cached = some cached → ok = true →
      cached.version < s.cachedSave → cached.stamp ≠ ⟨modified, env.textLen doc⟩
  | .metadata caller found =>
    ∀ read cached, s.read? caller = some read → s.cached = some cached → found = false →
      cached.stamp = {} → read.started ≤ cached.version
  | .fallBack caller =>
    ∀ read cached, s.read? caller = some read → s.cached = some cached →
      read.started ≤ cached.version
  | .stored =>
    ∀ call doc cached, s.writer = .saving call doc → s.cached = some cached →
      env.restoresUrl doc = true → s.cachedSave ≤ cached.version
  | _ => True

/-! ## The invariant -/

/-- Version `k` is a saved one with these settings. -/
def IsSaved (versions : List SettingsVersion) (k : Nat) (settings : Json) : Prop :=
  ∃ version, versions[k]? = some version ∧ version.kept = false ∧ version.settings = settings

/-- No change is under way between its write and its end. -/
def AtRest (s : SettingsStore) : Prop :=
  s.versions.length = s.completed + 1 ∧ s.fileVersion = s.cachedSave

/-- What a read in flight knows. Its answer must not be older than the version
it started from. -/
def ReadSound (s : SettingsStore) (read : SettingsRead) : Prop :=
  read.started ≤ s.cachedSave
    ∧ (read.caller = .writer → (∃ call, s.writer = .reading call) ∧ read.started = s.completed)
    ∧ match read.phase with
      | .metadata | .text _ | .failed => True
      | .check stamp =>
        ∀ cached, s.cached = some cached → cached.stamp = stamp → read.started ≤ cached.version
      | .missing _ => read.started = 0 ∧ IsSaved s.versions 0 (env.fromFileValue (.obj []))
      | .store _ settings version =>
        read.started ≤ version ∧ version ≤ s.fileVersion ∧ IsSaved s.versions version settings

/-- What the holder of the mutation lock knows. -/
def WriterSound (s : SettingsStore) : Prop :=
  match s.writer with
  | .idle | .reading _ => s.AtRest
  | .applying _ current =>
    s.AtRest ∧ s.cached.isSome = true ∧
      ∃ version, s.versions[s.completed]? = some version ∧ current = version.shown env
  | .saving call doc =>
    s.AtRest ∧ s.cached.isSome = true ∧ ∃ change version, call = .mutate change ∧
      s.versions[s.completed]? = some version ∧
        change (env.nodeMemory (version.shown env)) = (doc, true)
  | .writing call doc | .renaming call doc =>
    s.AtRest ∧ s.cached.isSome = true ∧
      Made env s.versions ⟨env.fromFileValue doc, false, some call⟩
  | .renamed doc | .caching doc _ =>
    s.versions.length = s.completed + 2 ∧ s.fileVersion = s.completed + 1 ∧
      s.cachedSave ≤ s.completed ∧ s.cached.isSome = true ∧
        IsSaved s.versions s.fileVersion (env.fromFileValue doc)
  | .clearing =>
    s.versions.length = s.completed + 2 ∧ s.fileVersion = s.completed + 1 ∧
      s.cachedSave = s.fileVersion

/-- What holds of the file, the cache and the unsaved settings. -/
structure StoreSound (s : SettingsStore) : Prop where
  made : Log.EachAfter (Made env) s.versions
  lastSaved : ∃ version, s.versions[s.fileVersion]? = some version
    ∧ lastSaved s.versions = some version
  file : ∀ file settings, s.file = some file → env.load file.doc = some settings →
    IsSaved s.versions s.fileVersion settings
  noFile : s.file = none →
    s.fileVersion = 0 ∧ IsSaved s.versions 0 (env.fromFileValue (.obj []))
  cachedSave_le : s.cachedSave ≤ s.fileVersion
  cached : ∀ cached, s.cached = some cached →
    cached.version ≤ s.fileVersion ∧ IsSaved s.versions cached.version cached.settings ∧
      (cached.version < s.cachedSave → ∀ file, s.file = some file → file.stamp ≠ cached.stamp)
  unsaved : ∀ unsaved, s.unsaved = some unsaved → s.cached.isSome = true ∧
    ∃ version, s.versions[s.completed]? = some version ∧ version.kept = true
      ∧ version.settings = unsaved
  noUnsaved : s.unsaved = none → s.completed ≤ s.cachedSave
  writer : WriterSound env s
  given : ∀ g ∈ s.given, ∃ version, s.versions[g.1]? = some version
    ∧ g.2 = env.nodeMemory (version.shown env)
  answered : ∀ a ∈ s.answers, ∃ k version, a.since ≤ k ∧ s.versions[k]? = some version
    ∧ a.doc = version.shown env

/-- **The invariant** of the guarded runs. -/
structure Sound (s : SettingsStore) : Prop where
  store : StoreSound env s
  reads : ∀ read ∈ s.reads, ReadSound env s read

variable {env} {s t : SettingsStore}

/-! ### Versions only come to be -/

theorem getElem?_concat {versions : List SettingsVersion} {k : Nat} {v : SettingsVersion}
    (h : versions[k]? = some v) (new : SettingsVersion) : (versions ++ [new])[k]? = some v := by
  have hk : k < versions.length := (List.getElem?_eq_some_iff.mp h).1
  rw [List.getElem?_append_left hk, h]

theorem IsSaved.concat {versions : List SettingsVersion} {k : Nat} {settings : Json}
    (h : IsSaved versions k settings) (new : SettingsVersion) :
    IsSaved (versions ++ [new]) k settings := by
  obtain ⟨v, hv, hkept, hsettings⟩ := h
  exact ⟨v, getElem?_concat hv new, hkept, hsettings⟩

theorem IsSaved.shown {versions : List SettingsVersion} {k : Nat} {settings : Json}
    (h : IsSaved versions k settings) :
    ∃ version, versions[k]? = some version ∧ env.effective settings = version.shown env := by
  obtain ⟨v, hv, hkept, rfl⟩ := h
  refine ⟨v, hv, ?_⟩
  simp [SettingsVersion.shown, hkept]

theorem lastSaved_concat_kept (versions : List SettingsVersion) {v : SettingsVersion}
    (h : v.kept = true) : lastSaved (versions ++ [v]) = lastSaved versions := by
  simp [lastSaved, List.filter_append, h]

theorem lastSaved_concat_saved (versions : List SettingsVersion) {v : SettingsVersion}
    (h : v.kept = false) : lastSaved (versions ++ [v]) = some v := by
  simp [lastSaved, List.filter_append, h]

/-! ### The reads -/

/-- What a read knows outlasts what the others do. -/
theorem ReadSound.frame {read : SettingsRead} (h : ReadSound env s read)
    (hcached : t.cached = s.cached) (hsave : s.cachedSave ≤ t.cachedSave)
    (hfile : s.fileVersion ≤ t.fileVersion)
    (hversions : ∀ k settings, IsSaved s.versions k settings → IsSaved t.versions k settings)
    (hwriter : read.caller = .writer →
      (∃ call, t.writer = .reading call) ∧ t.completed = s.completed) :
    ReadSound env t read := by
  obtain ⟨hstarted, hcaller, hphase⟩ := h
  refine ⟨hstarted.trans hsave, fun hc => ?_, ?_⟩
  · obtain ⟨hreading, hcompleted⟩ := hwriter hc
    exact ⟨hreading, (hcaller hc).2.trans hcompleted.symm⟩
  · cases hp : read.phase with
    | metadata => trivial
    | text stamp => trivial
    | failed => trivial
    | check stamp =>
      rw [hp] at hphase
      intro cached hc
      exact hphase cached (hcached ▸ hc)
    | missing stamp =>
      rw [hp] at hphase
      exact ⟨hphase.1, hversions _ _ hphase.2⟩
    | store stamp settings version =>
      rw [hp] at hphase
      exact ⟨hphase.1, hphase.2.1.trans hfile, hversions _ _ hphase.2.2⟩

/-- A read that goes on. -/
theorem Sound.goOn (h : Sound env s) {read : SettingsRead} {phase : ReadPhase}
    (hread : ReadSound env s { read with phase := phase }) : Sound env (s.goOn read phase) where
  store := { h.store with }
  reads := by
    refine KeyedList.forall_mem_upsert ?_ ?_ ?_
    · exact fun other hother => h.reads other hother
    · exact hread
    · exact fun _ _ => hread

theorem read?_mem {caller : SettingsReader} {read : SettingsRead}
    (h : s.read? caller = some read) : read ∈ s.reads := KeyedList.mem_of_lookup h

/-- A read that is over: what it answers must be a version as new as it
needs. -/
theorem Sound.answer (h : Sound env s) {read : SettingsRead} {doc : Option Json}
    (hwriter : read.caller = .writer →
      (∃ call, s.writer = .reading call) ∧ read.started = s.completed)
    (hdoc : ∀ d, doc = some d → s.cached.isSome = true ∧
      ∃ k version, read.started ≤ k ∧ s.versions[k]? = some version ∧ d = version.shown env) :
    Sound env (s.answer read doc) := by
  have hrest : ∀ other ∈ s.readsBut read, ReadSound env s other ∧ other.caller ≠ read.caller := by
    intro other hother
    obtain ⟨hmem, hne⟩ := List.mem_filter.mp hother
    exact ⟨h.reads other hmem, by simpa using hne⟩
  cases hcaller : read.caller with
  | reader id =>
    simp only [SettingsStore.answer, hcaller]
    refine ⟨{ h.store with answered := ?_ }, fun other hother => (hrest other hother).1⟩
    intro a ha
    rcases List.mem_append.mp ha with ha | ha
    · exact h.store.answered a ha
    · obtain ⟨d, hd, rfl⟩ := Option.map_eq_some_iff.mp (Option.mem_toList.mp ha)
      exact (hdoc d hd).2
  | writer =>
    obtain ⟨⟨call, hreading⟩, hstarted⟩ := hwriter hcaller
    have hatRest : s.AtRest := by
      have hw := h.store.writer
      rwa [WriterSound, hreading] at hw
    simp only [SettingsStore.answer, hcaller, hreading]
    refine ⟨{ h.store with writer := ?_ }, fun other hother => ?_⟩
    · cases doc with
      | none => exact hatRest
      | some d =>
        obtain ⟨hcached, k, version, hk, hversion, hd⟩ := hdoc d rfl
        have hkc : k = s.completed := by
          have hlt := (List.getElem?_eq_some_iff.mp hversion).1
          have hlen := hatRest.1
          omega
        exact ⟨hatRest, hcached, version, hkc ▸ hversion, hd⟩
    · obtain ⟨hsound, hne⟩ := hrest other hother
      refine hsound.frame rfl le_rfl le_rfl (fun _ _ hk => hk) fun hc => ?_
      exact absurd (hc.trans hcaller.symm) hne

/-- The first step of a `current`. -/
theorem Sound.startRead (h : Sound env s) {caller : SettingsReader}
    (hwriter : caller = .writer → ∃ call, s.writer = .reading call) :
    Sound env (s.startRead caller) := by
  unfold SettingsStore.startRead
  cases hunsaved : s.unsaved with
  | some unsaved =>
    refine h.answer (fun hc => ⟨hwriter hc, rfl⟩) fun d hd => ?_
    obtain rfl := Option.some.inj hd
    obtain ⟨hcached, version, hversion, hkept, hsettings⟩ := h.store.unsaved _ hunsaved
    refine ⟨hcached, s.completed, version, le_rfl, hversion, ?_⟩
    simp [SettingsVersion.shown, hkept, hsettings]
  | none =>
    refine h.goOn ⟨h.store.noUnsaved hunsaved, fun hc => ⟨hwriter hc, rfl⟩, trivial⟩

/-! ### The steps of a read -/

/-- The cache, where a read finds it under its stamp. -/
theorem Sound.answer_cached (h : Sound env s) {read : SettingsRead} (hread : ReadSound env s read)
    (hnew : ∀ cached, s.cached = some cached → read.started ≤ cached.version) :
    Sound env (s.answer read (s.cached.map fun cached => env.effective cached.settings)) := by
  refine h.answer hread.2.1 fun d hd => ?_
  obtain ⟨cached, hcached, rfl⟩ := Option.map_eq_some_iff.mp hd
  obtain ⟨version, hversion, hshown⟩ := @IsSaved.shown env _ _ _ (h.store.cached cached hcached).2.1
  exact ⟨by rw [hcached]; rfl, cached.version, version, hnew cached hcached, hversion, hshown⟩

/-- A look at the file's metadata. The stamp found is not one that an outdated
document is cached under. -/
theorem Sound.metadata (h : Sound env s) {read : SettingsRead} (hread : ReadSound env s read)
    {found : Bool}
    (hok : ∀ cached, s.cached = some cached → found = false → cached.stamp = {} →
      read.started ≤ cached.version) :
    Sound env (s.goOn read (.check (s.stamp found))) := by
  refine h.goOn ⟨hread.1, hread.2.1, fun cached hcached hstamp => ?_⟩
  by_contra hlt
  have hold : cached.version < s.cachedSave := (not_le.mp hlt).trans_le hread.1
  have hfresh := (h.store.cached cached hcached).2.2 hold
  cases hfile : s.file with
  | none =>
    have hzero := (h.store.noFile hfile).1
    have hle := h.store.cachedSave_le
    omega
  | some file =>
    simp only [stamp, hfile] at hstamp
    cases found with
    | true => exact hfresh file hfile hstamp.symm
    | false => exact hlt (hok cached hcached rfl hstamp)

/-- The cache write of a read. -/
theorem Sound.storeRead (h : Sound env s) {read : SettingsRead} (hmem : read ∈ s.reads)
    {stamp : FileStamp} {settings : Json} {version : Nat}
    (hphase : read.phase = .store stamp settings version)
    (hok : version < s.cachedSave → (∀ file, s.file = some file → file.stamp ≠ stamp) ∧
      ∀ other ∈ s.reads, other.phase = .check stamp → other.started ≤ version) :
    Sound env ({ s with cached := some ⟨stamp, settings, version⟩ }.answer read
      (some (env.effective settings))) := by
  obtain ⟨hstarted, hcaller, hknows⟩ := h.reads read hmem
  rw [hphase] at hknows
  obtain ⟨hnew, hle, hsaved⟩ := hknows
  have hs : Sound env { s with cached := some ⟨stamp, settings, version⟩ } := by
    constructor
    · refine { h.store with cached := ?_, unsaved := ?_, writer := ?_ }
      · intro cached hcached
        obtain rfl := Option.some.inj hcached
        exact ⟨hle, hsaved, fun hlt => (hok hlt).1⟩
      · intro unsaved hunsaved
        exact ⟨rfl, (h.store.unsaved unsaved hunsaved).2⟩
      · have hwriter := h.store.writer
        unfold WriterSound at hwriter ⊢
        cases hw : s.writer <;> simp only [hw] at hwriter ⊢ <;> first
          | exact hwriter
          | exact ⟨hwriter.1, rfl, hwriter.2.2⟩
          | exact ⟨hwriter.1, hwriter.2.1, hwriter.2.2.1, rfl, hwriter.2.2.2.2⟩
    · intro other hother
      obtain ⟨hso, hco, hpo⟩ := h.reads other hother
      refine ⟨hso, hco, ?_⟩
      cases hp : other.phase with
      | check stamp' =>
        intro cached hcached hstamp
        obtain rfl := Option.some.inj hcached
        by_cases hlt : version < s.cachedSave
        · exact (hok hlt).2 other hother (hp.trans (congrArg _ hstamp.symm))
        · exact hso.trans (not_lt.mp hlt)
      | _ => rw [hp] at hpo; exact hpo
  refine hs.answer hcaller fun d hd => ?_
  obtain rfl := Option.some.inj hd
  obtain ⟨v, hv, hshown⟩ := @IsSaved.shown env _ _ _ hsaved
  exact ⟨rfl, version, v, hnew, hv, hshown⟩

/-- **A read's step keeps the invariant.** -/
theorem Sound.readStep (h : Sound env s) {act : Act} {read : SettingsRead} {caller : SettingsReader}
    (hread : s.read? caller = some read) (hok : Ok env s act)
    (hact : act = .store caller ∨ (∃ found, act = .metadata caller found) ∨ act = .fallBack caller
      ∨ act = .check caller ∨ (∃ ok, act = .text caller ok) ∨ act = .missing caller)
    (hstep : s.readStep env read act = some t) : Sound env t := by
  have hmem := read?_mem hread
  have hsound := h.reads read hmem
  rcases hact with rfl | ⟨found, rfl⟩ | rfl | rfl | ⟨ok, rfl⟩ | rfl <;>
    simp only [SettingsStore.readStep] at hstep
  · -- the cache write
    split at hstep
    · next stamp settings version hphase =>
      obtain rfl := Option.some.inj hstep
      exact h.storeRead hmem hphase fun hlt => hok read stamp settings version hread hphase hlt
    · cases hstep
  · -- the metadata
    split at hstep
    · obtain rfl := Option.some.inj hstep
      exact h.metadata hsound fun cached hcached => hok read cached hread hcached
    · cases hstep
  · -- the last good copy
    split at hstep
    · obtain rfl := Option.some.inj hstep
      exact h.answer_cached hsound fun cached hcached => hok read cached hread hcached
    · cases hstep
  · -- the look into the cache
    split at hstep
    · next stamp cached hphase hcached =>
      obtain rfl := Option.some.inj hstep
      have hknows := hsound.2.2
      rw [hphase] at hknows
      split
      · next hstamp =>
        have := h.answer_cached hsound fun cached' hcached' => by
          obtain rfl := Option.some.inj (hcached.symm.trans hcached')
          exact hknows cached hcached hstamp
        rwa [hcached] at this
      · exact h.goOn ⟨hsound.1, hsound.2.1, trivial⟩
    · obtain rfl := Option.some.inj hstep
      exact h.goOn ⟨hsound.1, hsound.2.1, trivial⟩
    · cases hstep
  · -- the text
    split at hstep
    · next stamp file hphase hfile =>
      split at hstep
      · next settings hload =>
        obtain rfl := Option.some.inj hstep
        exact h.goOn ⟨hsound.1, hsound.2.1, hsound.1.trans h.store.cachedSave_le, le_rfl,
          h.store.file file settings hfile hload⟩
      · obtain rfl := Option.some.inj hstep
        exact h.goOn ⟨hsound.1, hsound.2.1, trivial⟩
    · next stamp hphase hfile =>
      obtain rfl := Option.some.inj hstep
      obtain ⟨hzero, hempty⟩ := h.store.noFile hfile
      have hstarted : read.started = 0 := by
        have hle := hsound.1.trans h.store.cachedSave_le
        omega
      exact h.goOn ⟨hsound.1, hsound.2.1, hstarted, hempty⟩
    · obtain rfl := Option.some.inj hstep
      exact h.goOn ⟨hsound.1, hsound.2.1, trivial⟩
    · cases hstep
  · -- the file was missing
    split at hstep
    · next stamp hphase =>
      obtain rfl := Option.some.inj hstep
      have hknows := hsound.2.2
      rw [hphase] at hknows
      split
      · exact h.goOn ⟨hsound.1, hsound.2.1, le_of_eq hknows.1, Nat.zero_le _, hknows.2⟩
      · exact h.goOn ⟨hsound.1, hsound.2.1, trivial⟩
    · cases hstep

/-! ### The steps of a change -/

/-- While no one reads for the writer, the reads do not see what it does. -/
theorem ReadSound.frame_writer (h : Sound env s) (hreading : ∀ call, s.writer ≠ .reading call)
    (hcached : t.cached = s.cached) (hsave : s.cachedSave ≤ t.cachedSave)
    (hfile : s.fileVersion ≤ t.fileVersion)
    (hversions : ∀ k settings, IsSaved s.versions k settings → IsSaved t.versions k settings) :
    ∀ read ∈ s.reads, ReadSound env t read := by
  intro read hread
  refine (h.reads read hread).frame hcached hsave hfile hversions fun hc => ?_
  obtain ⟨⟨call, hcall⟩, -⟩ := (h.reads read hread).2.1 hc
  exact absurd hcall (hreading call)

/-- A writer's step that changes only where the writer is. -/
theorem Sound.moveWriter (h : Sound env s) (hreading : ∀ call, s.writer ≠ .reading call)
    {writer : SettingsWriter} (hwriter : WriterSound env { s with writer := writer }) :
    Sound env { s with writer := writer } where
  store := { h.store with writer := hwriter }
  reads := ReadSound.frame_writer (s := s) h hreading rfl le_rfl le_rfl fun _ _ hk => hk

/-- The newest version is the one last completed, where no change is under
way. -/
theorem AtRest.getLast? (h : s.AtRest) : s.versions.getLast? = s.versions[s.completed]? := by
  rw [List.getLast?_eq_getElem?, h.1, Nat.add_sub_cancel]

/-- The change function runs on the newest version. -/
theorem Sound.applyChange (h : Sound env s) {call : SettingsCall} {current : Json}
    (hw : s.writer = .applying call current) : Sound env (s.applyChange env call current) := by
  have hwriter := h.store.writer
  rw [WriterSound, hw] at hwriter
  obtain ⟨hatRest, hcached, version, hversion, rfl⟩ := hwriter
  have hreading : ∀ call, s.writer ≠ .reading call := by simp [hw]
  have hgiven : ∀ g ∈ s.given ++ [(s.completed, env.nodeMemory (version.shown env))],
      ∃ version, s.versions[g.1]? = some version ∧ g.2 = env.nodeMemory (version.shown env) := by
    intro g hg
    rcases List.mem_append.mp hg with hg | hg
    · exact h.store.given g hg
    · obtain rfl := List.mem_singleton.mp hg
      exact ⟨version, hversion, rfl⟩
  cases call with
  | mutate change =>
    simp only [SettingsStore.applyChange]
    split
    · next hgo =>
      refine ⟨{ h.store with given := hgiven, writer := ?_ },
        ReadSound.frame_writer (s := s) h hreading rfl le_rfl le_rfl fun _ _ hk => hk⟩
      exact ⟨hatRest, hcached, change, version, rfl, hversion, Prod.ext rfl hgo⟩
    · exact ⟨{ h.store with given := hgiven, writer := hatRest },
        ReadSound.frame_writer (s := s) h hreading rfl le_rfl le_rfl fun _ _ hk => hk⟩
  | mutateUnsaved change =>
    let new : SettingsVersion :=
      ⟨change (env.nodeMemory (version.shown env)), true, some (.mutateUnsaved change)⟩
    have hlen : s.versions.length = s.completed + 1 := hatRest.1
    have hnew : (s.versions ++ [new])[s.completed + 1]? = some new := by
      rw [← hlen, List.getElem?_concat_length]
    have hsaved : ∀ k settings, IsSaved s.versions k settings →
        IsSaved (s.versions ++ [new]) k settings := fun _ _ hk => hk.concat new
    refine ⟨?_, ReadSound.frame_writer (s := s) h hreading rfl le_rfl le_rfl hsaved⟩
    exact {
      made := by
        refine h.store.made.concat ?_
        rw [Made, hatRest.getLast?, hversion]
        exact ⟨rfl, rfl⟩
      lastSaved := by
        obtain ⟨v, hv, hlast⟩ := h.store.lastSaved
        exact ⟨v, getElem?_concat hv new, (lastSaved_concat_kept _ rfl).trans hlast⟩
      file := fun file settings hfile hload => hsaved _ _ (h.store.file file settings hfile hload)
      noFile := fun hfile => ⟨(h.store.noFile hfile).1, hsaved _ _ (h.store.noFile hfile).2⟩
      cachedSave_le := h.store.cachedSave_le
      cached := fun cached hc =>
        have hcs := h.store.cached cached hc
        ⟨hcs.1, hsaved _ _ hcs.2.1, hcs.2.2⟩
      unsaved := by
        intro unsaved hunsaved
        obtain rfl := Option.some.inj hunsaved
        exact ⟨hcached, new, hnew, rfl, rfl⟩
      noUnsaved := fun hnone => by cases hnone
      writer := by
        refine ⟨?_, hatRest.2⟩
        show (s.versions ++ [new]).length = s.completed + 1 + 1
        simp [hlen]
      given := by
        intro g hg
        obtain ⟨v, hv, hshown⟩ := hgiven g hg
        exact ⟨v, getElem?_concat hv new, hshown⟩
      answered := by
        intro a ha
        obtain ⟨k, v, hk, hv, hdoc⟩ := h.store.answered a ha
        exact ⟨k, v, hk, getElem?_concat hv new, hdoc⟩ }

/-- The save puts the stored URL of the last saved version back. -/
theorem Sound.stored (h : Sound env s) {call : SettingsCall} {doc : Json}
    (hw : s.writer = .saving call doc)
    (hok : ∀ cached, s.cached = some cached → env.restoresUrl doc = true →
      s.cachedSave ≤ cached.version) :
    Made env s.versions
      ⟨env.fromFileValue (env.savedDocument
        (s.cached.bind fun cached => applicationUrl cached.settings) doc), false, some call⟩ := by
  have hwriter := h.store.writer
  rw [WriterSound, hw] at hwriter
  obtain ⟨hatRest, hcached, change, version, rfl, hversion, hchange⟩ := hwriter
  obtain ⟨cached, hc⟩ := Option.isSome_iff_exists.mp hcached
  obtain ⟨saved, hsaved, hlast⟩ := h.store.lastSaved
  rw [Made, hatRest.getLast?, hversion, hlast, hc]
  refine ⟨congrArg Prod.snd hchange, rfl, ?_⟩
  rw [hchange]
  refine congrArg env.fromFileValue ?_
  by_cases hurl : env.restoresUrl doc = true
  · -- the cache holds the version in the file
    obtain ⟨hle, ⟨v, hv, -, hsettings⟩, -⟩ := h.store.cached cached hc
    have heq : cached.version = s.fileVersion :=
      Nat.le_antisymm hle (hatRest.2 ▸ hok cached hc hurl)
    have hvs : v = saved := Option.some.inj ((heq ▸ hv).symm.trans hsaved)
    show env.savedDocument (applicationUrl cached.settings) doc
      = env.savedDocument (applicationUrl saved.settings) doc
    rw [← hsettings, hvs]
  · exact env.savedDocument_congr (Bool.eq_false_iff.mpr hurl) _ _

/-- **The rename** is where a save's version comes to be. -/
theorem Sound.rename (h : Sound env s) {call : SettingsCall} {doc : Json} {modified : Option Nat}
    (hw : s.writer = .renaming call doc)
    (hok : ∀ cached, s.cached = some cached → cached.version < s.cachedSave →
      cached.stamp ≠ ⟨modified, env.textLen doc⟩) :
    Sound env { s with
      file := some ⟨some doc, ⟨modified, env.textLen doc⟩⟩
      writer := .renamed doc
      versions := s.versions ++ [⟨env.fromFileValue doc, false, some call⟩]
      fileVersion := s.versions.length } := by
  have hwriter := h.store.writer
  rw [WriterSound, hw] at hwriter
  obtain ⟨⟨hlen, hfile⟩, hcached, hmade⟩ := hwriter
  have hreading : ∀ call, s.writer ≠ .reading call := by simp [hw]
  let new : SettingsVersion := ⟨env.fromFileValue doc, false, some call⟩
  have hnew : (s.versions ++ [new])[s.versions.length]? = some new := List.getElem?_concat_length
  have hsaved : ∀ k settings, IsSaved s.versions k settings →
      IsSaved (s.versions ++ [new]) k settings := fun _ _ hk => hk.concat new
  have hlt : s.fileVersion < s.versions.length := by
    obtain ⟨v, hv, -⟩ := h.store.lastSaved
    exact (List.getElem?_eq_some_iff.mp hv).1
  refine ⟨?_, ReadSound.frame_writer (s := s) h hreading rfl le_rfl hlt.le hsaved⟩
  exact {
    made := h.store.made.concat hmade
    lastSaved := ⟨new, hnew, lastSaved_concat_saved _ rfl⟩
    file := by
      intro file settings hf hload
      obtain rfl := Option.some.inj hf
      refine ⟨new, hnew, rfl, ?_⟩
      simp only [SettingsEnv.load, Option.map_eq_some_iff, Option.filter_eq_some_iff] at hload
      obtain ⟨d, ⟨hd, -⟩, rfl⟩ := hload
      exact congrArg env.fromFileValue (Option.some.inj hd)
    noFile := fun hf => by cases hf
    cachedSave_le := h.store.cachedSave_le.trans hlt.le
    cached := by
      intro cached hc
      obtain ⟨hle, hcs, -⟩ := h.store.cached cached hc
      refine ⟨hle.trans hlt.le, hsaved _ _ hcs, fun hold file hf => ?_⟩
      obtain rfl := Option.some.inj hf
      exact (hok cached hc hold).symm
    unsaved := by
      intro unsaved hunsaved
      obtain ⟨hc, v, hv, hkept⟩ := h.store.unsaved unsaved hunsaved
      exact ⟨hc, v, getElem?_concat hv new, hkept⟩
    noUnsaved := h.store.noUnsaved
    writer := by
      refine ⟨?_, hlen, ?_, hcached, new, hnew, rfl, rfl⟩
      · show (s.versions ++ [new]).length = s.completed + 2
        simp [hlen]
      · show s.cachedSave ≤ s.completed
        omega
    given := by
      intro g hg
      obtain ⟨v, hv, hshown⟩ := h.store.given g hg
      exact ⟨v, getElem?_concat hv new, hshown⟩
    answered := by
      intro a ha
      obtain ⟨k, v, hk, hv, hdoc⟩ := h.store.answered a ha
      exact ⟨k, v, hk, getElem?_concat hv new, hdoc⟩ }

/-- The cache write of a save. -/
theorem Sound.cacheWritten (h : Sound env s) {doc : Json} {stamp : FileStamp}
    (hw : s.writer = .caching doc stamp) :
    Sound env { s with
      cached := some ⟨stamp, env.fromFileValue doc, s.fileVersion⟩
      cachedSave := s.fileVersion
      writer := .clearing } := by
  have hwriter := h.store.writer
  rw [WriterSound, hw] at hwriter
  obtain ⟨hlen, hfile, hsave, hcached, hsaved⟩ := hwriter
  constructor
  · refine { h.store with
      cachedSave_le := le_rfl, cached := ?_, unsaved := ?_, noUnsaved := ?_, writer := ?_ }
    · intro cached hc
      obtain rfl := Option.some.inj hc
      exact ⟨le_rfl, hsaved, fun hlt => absurd hlt (lt_irrefl _)⟩
    · exact fun unsaved hunsaved => ⟨rfl, (h.store.unsaved unsaved hunsaved).2⟩
    · intro _
      show s.completed ≤ s.fileVersion
      omega
    · exact ⟨hlen, hfile, rfl⟩
  · intro read hread
    obtain ⟨hstarted, hcaller, hphase⟩ := h.reads read hread
    refine ⟨hstarted.trans h.store.cachedSave_le, fun hc => ?_, ?_⟩
    · obtain ⟨⟨call, hcall⟩, -⟩ := hcaller hc
      rw [hw] at hcall
      cases hcall
    · cases hp : read.phase with
      | check stamp' =>
        intro cached hc _
        obtain rfl := Option.some.inj hc
        exact hstarted.trans h.store.cachedSave_le
      | _ => rw [hp] at hphase; exact hphase

/-- The end of a save. -/
theorem Sound.finish (h : Sound env s) (hw : s.writer = .clearing) :
    Sound env { s with unsaved := none, writer := .idle, completed := s.fileVersion } := by
  have hwriter := h.store.writer
  rw [WriterSound, hw] at hwriter
  obtain ⟨hlen, hfile, hsave⟩ := hwriter
  constructor
  · refine { h.store with unsaved := ?_, noUnsaved := ?_, writer := ?_ }
    · intro unsaved hunsaved
      cases hunsaved
    · exact fun _ => hsave.ge
    · exact ⟨by rw [hlen, hfile], hsave.symm⟩
  · intro read hread
    refine ⟨(h.reads read hread).1, fun hc => ?_, (h.reads read hread).2.2⟩
    obtain ⟨⟨call, hcall⟩, -⟩ := (h.reads read hread).2.1 hc
    rw [hw] at hcall
    cases hcall

/-- **A step of the writer keeps the invariant.** -/
theorem Sound.writeStep (h : Sound env s) {act : Act} (hok : Ok env s act)
    (hstep : s.writeStep env act = some t) : Sound env t := by
  have hwriter := h.store.writer
  cases act with
  | apply =>
    simp only [SettingsStore.writeStep] at hstep
    split at hstep <;> cases hstep
    next call current hw => exact h.applyChange hw
  | stored =>
    simp only [SettingsStore.writeStep] at hstep
    split at hstep <;> cases hstep
    next call doc hw =>
      rw [WriterSound, hw] at hwriter
      refine h.moveWriter (by simp [hw]) ⟨hwriter.1, hwriter.2.1, ?_⟩
      exact h.stored hw fun cached hc => hok call doc cached hw hc
  | temp ok =>
    simp only [SettingsStore.writeStep] at hstep
    split at hstep <;> cases hstep
    next call doc hw =>
      rw [WriterSound, hw] at hwriter
      cases ok with
      | true => exact h.moveWriter (by simp [hw]) hwriter
      | false => exact h.moveWriter (by simp [hw]) hwriter.1
  | rename ok modified =>
    simp only [SettingsStore.writeStep] at hstep
    split at hstep <;> cases hstep
    next call doc hw =>
      rw [WriterSound, hw] at hwriter
      cases ok with
      | true => exact h.rename hw fun cached hc => hok call doc cached hw hc rfl
      | false => exact h.moveWriter (by simp [hw]) hwriter.1
  | writtenMetadata found =>
    simp only [SettingsStore.writeStep] at hstep
    split at hstep <;> cases hstep
    next doc hw =>
      rw [WriterSound, hw] at hwriter
      exact h.moveWriter (by simp [hw]) hwriter
  | cacheWritten =>
    simp only [SettingsStore.writeStep] at hstep
    split at hstep <;> cases hstep
    next doc stamp hw => exact h.cacheWritten hw
  | finish =>
    simp only [SettingsStore.writeStep] at hstep
    split at hstep <;> cases hstep
    next hw => exact h.finish hw
  | _ => simp [SettingsStore.writeStep] at hstep

/-- **Every step that takes no outdated document keeps the invariant.** -/
theorem Sound.step (h : Sound env s) {act : Act} (hok : Ok env s act) (hstep : Step env s act t) :
    Sound env t := by
  cases act with
  | start id =>
    simp only [Step, next] at hstep
    split at hstep
    · obtain rfl := Option.some.inj hstep
      exact h.startRead fun hc => by cases hc
    · cases hstep
  | lock call =>
    simp only [Step, next] at hstep
    split at hstep
    · next hw =>
      obtain rfl := Option.some.inj hstep
      have hwriter := h.store.writer
      rw [WriterSound, hw] at hwriter
      have hlocked : Sound env { s with writer := .reading call } :=
        h.moveWriter (by simp [hw]) hwriter
      exact hlocked.startRead fun _ => ⟨call, rfl⟩
    · cases hstep
  | metadata caller found =>
    obtain ⟨read, hread, hstep⟩ := Option.bind_eq_some_iff.mp hstep
    exact h.readStep hread hok (.inr (.inl ⟨found, rfl⟩)) hstep
  | check caller =>
    obtain ⟨read, hread, hstep⟩ := Option.bind_eq_some_iff.mp hstep
    exact h.readStep hread hok (.inr (.inr (.inr (.inl rfl)))) hstep
  | text caller ok =>
    obtain ⟨read, hread, hstep⟩ := Option.bind_eq_some_iff.mp hstep
    exact h.readStep hread hok (.inr (.inr (.inr (.inr (.inl ⟨ok, rfl⟩))))) hstep
  | missing caller =>
    obtain ⟨read, hread, hstep⟩ := Option.bind_eq_some_iff.mp hstep
    exact h.readStep hread hok (.inr (.inr (.inr (.inr (.inr rfl))))) hstep
  | fallBack caller =>
    obtain ⟨read, hread, hstep⟩ := Option.bind_eq_some_iff.mp hstep
    exact h.readStep hread hok (.inr (.inr (.inl rfl))) hstep
  | store caller =>
    obtain ⟨read, hread, hstep⟩ := Option.bind_eq_some_iff.mp hstep
    exact h.readStep hread hok (.inl rfl) hstep
  | apply | stored | temp _ | rename _ _ | writtenMetadata _ | cacheWritten | finish =>
    exact h.writeStep hok hstep

/-- A new store. -/
theorem sound_new (env : SettingsEnv) (file : Option SettingsFile) : Sound env (new env file) where
  store :=
    { made := by
        have hnil : Log.EachAfter (Made env) ([] : List SettingsVersion) := Log.eachAfter_nil
        exact hnil.concat rfl
      lastSaved := ⟨_, rfl, rfl⟩
      file := by
        intro f settings hf hload
        obtain rfl : file = some f := hf
        exact ⟨_, rfl, rfl, by simp [hload]⟩
      noFile := by
        intro hf
        obtain rfl : file = none := hf
        exact ⟨rfl, _, rfl, rfl, rfl⟩
      cachedSave_le := le_rfl
      cached := fun cached hc => by cases hc
      unsaved := fun unsaved hu => by cases hu
      noUnsaved := fun _ => le_rfl
      writer := ⟨rfl, rfl⟩
      given := fun g hg => by cases hg
      answered := fun a ha => by cases ha }
  reads := fun read hread => by cases hread

theorem Sound.nothingLost (h : Sound env s) : NothingLost env s :=
  ⟨h.store.made, h.store.given, h.store.answered⟩

/-- A failing write changes nothing but gives the lock back. -/
theorem step_of_fails {act : Act} (hfails : act.Fails) (hstep : Step env s act t) :
    t = { s with writer := .idle } := by
  cases act <;> simp only [Act.Fails] at hfails <;> subst hfails <;>
    simp only [Step, next, SettingsStore.writeStep] at hstep <;> split at hstep <;>
    simp_all

/-- **No change is lost** in any run in which no one takes an outdated
document, and a write that fails leaves the file, the current document and
every version as they were. -/
theorem nothing_lost (env : SettingsEnv) (file : Option SettingsFile) {acts : List Act}
    {s : SettingsStore} (h : Run (Guarded (Step env) (Ok env)) (new env file) acts s) :
    NothingLost env s ∧ ∀ act t, act.Fails → Step env s act t →
      NothingLost env t ∧ t.versions = s.versions ∧ t.completed = s.completed ∧
        t.file = s.file ∧ t.unsaved = s.unsaved ∧ t.cached = s.cached := by
  have hsound : Sound env s :=
    h.invariant (fun _ _ _ hs hstep => hs.step hstep.1 hstep.2) (sound_new env file)
  refine ⟨hsound.nothingLost, fun act t hfails hstep => ?_⟩
  obtain rfl := step_of_fails hfails hstep
  exact ⟨{ hsound.nothingLost with }, rfl, rfl, rfl, rfl, rfl⟩

/-! ### A late read -/

/-- Two documents whose texts are equally long. -/
private def locale (code : String) : Json := .obj [("main", .obj [("locale", .str code)])]

/-- A store with a file, every text 36 bytes long. -/
private def env₀ : SettingsEnv where
  defaults := locale "en"
  apiKeyOverride := none
  origin := none
  managedUrl := fun _ _ => false
  textLen := fun _ => 36

private def file₀ : SettingsFile := ⟨some (locale "en"), ⟨some 1, 36⟩⟩

private def toFrench : SettingsCall := .update fun doc => doc.setIn "main" "locale" (.str "fr")

/-- A change, from its change function on. -/
private def saveActs : List Act :=
  [.apply, .stored, .temp true, .rename true (some 1), .writtenMetadata true, .cacheWritten,
    .finish]

/-- A read that takes its text before the change and writes the cache after
it, and another one after that. -/
private def lateActs : List Act :=
  [.start 0, .metadata (.reader 0) true, .check (.reader 0), .text (.reader 0) true]
    ++ [.lock toFrench, .metadata .writer true, .check .writer, .text .writer true, .store .writer]
    ++ saveActs ++ [.store (.reader 0), .start 1, .metadata (.reader 1) true, .check (.reader 1)]

/-- The locale of a document. -/
private def localeOf (doc : Json) : Option String := (doc.pointer ["main", "locale"]).bind Json.asStr

/-- What a run from `file₀` leaves: the answers and the versions by their
locales. -/
private def outcome (acts : List Act) : Option (List (Nat × Option String) × List (Option String)) :=
  (acts.foldlM (next env₀) (new env₀ (some file₀))).map fun s =>
    (s.answers.map fun a => (a.since, localeOf a.doc),
      s.versions.map fun v => localeOf (v.shown env₀))

/-- **The newest version can be gone from `current`**: the file's time stamp
is too coarse to tell the two documents apart, and the late read has put the
old one back. -/
theorem stale_read : ∃ (env : SettingsEnv) (file : SettingsFile) (acts : List Act)
    (s : SettingsStore), Run (Step env) (new env (some file)) acts s ∧ ¬NothingLost env s := by
  have hrun : outcome lateActs
      = some ([(0, some "en"), (1, some "en")], [some "en", some "fr"]) := by decide +kernel
  obtain ⟨s, hs, hout⟩ := Option.map_eq_some_iff.mp hrun
  obtain ⟨hanswers, hversions⟩ := Prod.mk.inj hout
  refine ⟨env₀, file₀, lateActs, s, Run.of_foldlM hs, fun h => ?_⟩
  have hlate : (1, some "en") ∈ s.answers.map fun a => (a.since, localeOf a.doc) := by
    rw [hanswers]
    simp
  obtain ⟨answer, hanswer, heq⟩ := List.mem_map.mp hlate
  obtain ⟨hsince, hlocale⟩ := Prod.mk.inj heq
  obtain ⟨k, version, hk, hversion, hdoc⟩ := h.answered answer hanswer
  have hshown : (s.versions.map fun v => localeOf (v.shown env₀))[k]? = some (some "en") := by
    rw [List.getElem?_map, hversion, ← hlocale, hdoc]
    rfl
  rw [hversions] at hshown
  rw [hsince] at hk
  match k with
  | 0 => cases hk
  | 1 => simp at hshown
  | k + 2 => simp at hshown

/-- The same change, with a read before it and one after it. -/
private def timelyActs : List Act :=
  [.start 0, .metadata (.reader 0) true, .check (.reader 0), .text (.reader 0) true,
    .store (.reader 0), .lock toFrench, .metadata .writer true, .check .writer] ++ saveActs
    ++ [.start 1, .metadata (.reader 1) true, .check (.reader 1)]

/-- Until the first save nothing in the cache is outdated. -/
private def beforeSave (s : SettingsStore) : Act → Bool
  | .store _ | .rename _ _ => s.cachedSave == 0
  | .metadata _ found => found
  | .fallBack _ => false
  | _ => true

private theorem ok_of_beforeSave {s : SettingsStore} {act : Act} (h : beforeSave s act = true) :
    Ok env₀ s act := by
  cases act with
  | store caller =>
    intro read stamp settings version _ _ hlt
    exact absurd hlt (by simp [beq_iff_eq.mp h])
  | rename ok modified =>
    intro call doc cached _ _ _ hlt
    exact absurd hlt (by simp [beq_iff_eq.mp h])
  | metadata caller found =>
    intro read cached _ _ hfound
    exact absurd (h.symm.trans hfound) (by simp)
  | fallBack caller => cases h
  | stored =>
    intro call doc cached _ _ hurl
    simp [SettingsEnv.restoresUrl, SettingsEnv.durableDocument, env₀] at hurl
  | _ => trivial

theorem nothing_lost_french : ∃ s, NothingLost env₀ s ∧
    s.answers.map (fun a => (a.since, localeOf a.doc)) = [(0, some "en"), (1, some "fr")] := by
  let guarded (s : SettingsStore) (act : Act) : Option SettingsStore :=
    if beforeSave s act then s.next env₀ act else none
  have hrun : ((timelyActs.foldlM guarded (new env₀ (some file₀))).map fun s =>
      s.answers.map fun a => (a.since, localeOf a.doc)) = some [(0, some "en"), (1, some "fr")] := by
    decide +kernel
  obtain ⟨s, hs, hanswers⟩ := Option.map_eq_some_iff.mp hrun
  refine ⟨s, (@nothing_lost env₀ (some file₀) timelyActs s ?_).1, hanswers⟩
  refine (Run.of_foldlM hs).mono fun s act t hstep => ?_
  simp only [guarded, Option.ite_none_right_eq_some] at hstep
  exact ⟨ok_of_beforeSave hstep.1, hstep.2⟩

end SettingsStore

end Foreseerr

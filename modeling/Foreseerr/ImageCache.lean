import Foreseerr.KeyedList
import Foreseerr.Run
import Mathlib.Data.List.Basic
import Mathlib.Logic.Function.Basic

/-!
# The image cache

An image that was fetched is kept as one file of a directory of its own, whose
name says how long it is good for and which etag and extension it has, and as a
copy in memory that is served while its file is the first of the directory
(`imagecache.rs`). A fetch clears the directory and writes the file in place:
the name is there before the bytes are. What is read meanwhile is cut off, and
is remembered (`ImageCache.cut_off_served`); read at other times, every image is
one whole answer (`ImageCache.whole_served`).
-/

namespace Foreseerr

namespace ImageCache

/-! ## Answers, names and images -/

/-- A successful answer for the path: its bytes, the `etag` header, the extension
of its type, and the max-age and expiry as `jsnum::to_string` prints them. -/
structure Answer where
  bytes : List UInt8
  etagHeader : List Char
  mimeExtension : List Char
  maxAge : List Char
  expireAt : List Char
deriving DecidableEq, Repr

/-- `word_chars`. -/
def wordChars (text : List Char) : List Char :=
  text.filter fun c => c.isAlphanum || c = '_' || c = '-'

def Answer.etag (a : Answer) : List Char := wordChars a.etagHeader

def Answer.extension (a : Answer) : List Char := wordChars a.mimeExtension

/-- The name of the answer's file. -/
def Answer.fileName (a : Answer) : List Char :=
  ['.'].intercalate [a.maxAge, a.expireAt, a.etag, a.extension]

/-- An image: the bytes, and what its meta says of the answer. -/
structure Image where
  bytes : List UInt8
  etag : Option (List Char)
  extension : Option (List Char)
deriving DecidableEq, Repr

/-- The image of an answer that was just fetched. -/
def Answer.image (a : Answer) : Image := ⟨a.bytes, some a.etag, some a.extension⟩

/-- `FileName::parse`, and the image of what a file of that name holds. -/
def parsed (name : List Char) (bytes : List UInt8) : Image :=
  let parts := name.splitOn '.'
  ⟨bytes, parts[2]?, parts[3]?⟩

/-! ## The directory -/

/-- A file of the directory; `whole` from the last part its writer writes on. -/
structure FileData where
  bytes : List UInt8 := []
  whole : Bool := false
deriving DecidableEq, Repr

/-- The directory of the cache key. Files that were removed with it belong to an
earlier epoch: who has one open writes where nobody reads. -/
structure Directory where
  present : Bool := false
  epoch : Nat := 0
  files : List (List Char × FileData) := []
deriving DecidableEq, Repr

def Directory.file? (d : Directory) (name : List Char) : Option FileData :=
  (KeyedList.lookup Prod.fst name d.files).map Prod.snd

/-- A file keeps its name. -/
def replaceData (old new : List Char × FileData) : List Char × FileData := (old.1, new.2)

def Directory.put (d : Directory) (name : List Char) (data : FileData) : Directory :=
  { d with files := KeyedList.upsert Prod.fst replaceData d.files (name, data) }

/-- `file_names`, the first in order. -/
def Directory.firstName (d : Directory) : Option (List Char) :=
  d.files.foldl (fun first file => match first with
    | some name => if file.1 < name then some file.1 else some name
    | none => some file.1) none

/-- The directory is removed. -/
def Directory.remove (d : Directory) : Directory :=
  { present := false, epoch := d.epoch + 1, files := [] }

/-- A part is written at an offset, over what is there. -/
def splice (bytes : List UInt8) (offset : Nat) (part : List UInt8) : List UInt8 :=
  bytes.take offset ++ List.replicate (offset - bytes.length) 0 ++ part
    ++ bytes.drop (offset + part.length)

/-! ## Parties -/

/-- Where a `get_image`, or a revalidation, is. -/
inductive Pc
  | idle
  /-- The copy in memory was recalled, before the names are listed. -/
  | recalled (image : Image) (file : List Char)
  /-- Before the first name is compared. -/
  | comparing (image : Image) (current : Bool)
  /-- Before the names are listed. -/
  | loading
  | reading (name : List Char)
  /-- The bytes were read, before the file's times are. -/
  | touching (name : List Char) (bytes : List UInt8)
  | remembering (name : List Char) (bytes : List UInt8)
  | fetching
  /-- Answered, before the directory is removed. -/
  | removing (answer : Answer)
  | creating (answer : Answer)
  | opening (answer : Answer)
  /-- The file is open; the parts that are written, and the rest. -/
  | filling (answer : Answer) (epoch : Nat) (written rest : List UInt8)
  /-- Written, before the image is remembered. -/
  | storing (answer : Answer)
  | done
deriving DecidableEq, Repr

inductive CacheEvent
  /-- Upstream answered in full. -/
  | answered (answer : Answer)
  /-- `get_image` returned an image, or a revalidation had it to return. -/
  | returned (task : Nat) (image : Image)
deriving DecidableEq, Repr

/-- The directory, the copy in memory, the parties and the record. -/
structure System where
  directory : Directory := {}
  hot : Option (Image × List Char) := none
  tasks : Nat → Pc := fun _ => .idle
  log : List CacheEvent := []

namespace System

variable (s : System)

def move (task : Nat) (pc : Pc) : System :=
  { s with tasks := Function.update s.tasks task pc }

def record (event : CacheEvent) : System := { s with log := s.log ++ [event] }

end System

/-! ## One step -/

inductive Act
  /-- `get_image` begins: the copy is recalled. -/
  | get (task : Nat)
  | revalidate (task : Nat)
  /-- The names are listed. -/
  | list (task : Nat)
  | compare (task : Nat)
  | read (task : Nat)
  /-- The file's times are read, unless that fails. -/
  | touch (task : Nat) (fails : Bool)
  /-- The image is remembered and returned. -/
  | remember (task : Nat)
  /-- Upstream answered in full, or not. -/
  | fetched (task : Nat) (answer : Option Answer)
  | removeDirectory (task : Nat)
  | createDirectory (task : Nat) (fails : Bool)
  /-- The file is created, or an old one emptied. -/
  | openFile (task : Nat) (fails : Bool)
  /-- So many bytes are written, or none can be. -/
  | writePart (task count : Nat) (fails : Bool)
  /-- A clean-up removes the directory. -/
  | cleanUp
  /-- The copy is evicted, or all copies are dropped. -/
  | evict
deriving DecidableEq, Repr

/-- The file is open, with the rest of the answer to be written. -/
def opened (s : System) (task : Nat) (answer : Answer) : System :=
  let directory := s.directory.put answer.fileName { bytes := [], whole := answer.bytes.isEmpty }
  { s with directory := directory }.move task
    (if answer.bytes.isEmpty then .storing answer
      else .filling answer s.directory.epoch [] answer.bytes)

/-- Some bytes of the rest are written. -/
def wrote (s : System) (task : Nat) (answer : Answer) (epoch : Nat) (written rest : List UInt8)
    (count : Nat) : System :=
  let part := rest.take count
  let left := rest.drop count
  let directory := match s.directory.file? answer.fileName with
    | some data =>
      if epoch = s.directory.epoch then s.directory.put answer.fileName
        { bytes := splice data.bytes written.length part, whole := left.isEmpty }
      else s.directory
    | none => s.directory
  { s with directory := directory }.move task
    (if left.isEmpty then .storing answer else .filling answer epoch (written ++ part) left)

/-- One step of a party, a clean-up or an eviction. -/
def step (s : System) : Act → Option System
  | .get task => match s.tasks task with
    | .idle => match s.hot with
      | some (image, file) => some (s.move task (.recalled image file))
      | none => some (s.move task .loading)
    | _ => none
  | .revalidate task => match s.tasks task with
    | .idle => some (s.move task .fetching)
    | _ => none
  | .list task => match s.tasks task with
    | .recalled image file =>
      some (s.move task (.comparing image (decide (s.directory.firstName = some file))))
    | .loading => match s.directory.firstName with
      | some name => some (s.move task (.reading name))
      | none => some (s.move task .fetching)
    | _ => none
  | .compare task => match s.tasks task with
    | .comparing image current =>
      if current then some ((s.record (.returned task image)).move task .done)
      else some ({ s with hot := none }.move task .loading)
    | _ => none
  | .read task => match s.tasks task with
    | .reading name => match s.directory.file? name with
      | some data => some (s.move task (.touching name data.bytes))
      | none => some (s.move task .fetching)
    | _ => none
  | .touch task fails => match s.tasks task with
    | .touching name bytes =>
      some (s.move task (if fails then .fetching else .remembering name bytes))
    | _ => none
  | .remember task => match s.tasks task with
    | .remembering name bytes =>
      some (({ s with hot := some (parsed name bytes, name) }.record
        (.returned task (parsed name bytes))).move task .done)
    | .storing answer =>
      some (({ s with hot := some (answer.image, answer.fileName) }.record
        (.returned task answer.image)).move task .done)
    | _ => none
  | .fetched task answer => match s.tasks task with
    | .fetching => match answer with
      | some answer => some ((s.record (.answered answer)).move task (.removing answer))
      | none => some (s.move task .done)
    | _ => none
  | .removeDirectory task => match s.tasks task with
    | .removing answer =>
      some ({ s with directory := s.directory.remove }.move task (.creating answer))
    | _ => none
  | .createDirectory task fails => match s.tasks task with
    | .creating answer =>
      if fails then some (s.move task .done)
      else some ({ s with directory := { s.directory with present := true } }.move task
        (.opening answer))
    | _ => none
  | .openFile task fails => match s.tasks task with
    | .opening answer =>
      if fails ∨ s.directory.present = false then some (s.move task .done)
      else some (opened s task answer)
    | _ => none
  | .writePart task count fails => match s.tasks task with
    | .filling answer epoch written rest =>
      if fails then some (s.move task .done)
      else some (wrote s task answer epoch written rest count)
    | _ => none
  | .cleanUp => some { s with directory := s.directory.remove }
  | .evict => some { s with hot := none }

/-- The steps as a relation. -/
def Step (s : System) (act : Act) (s' : System) : Prop := step s act = some s'

/-! ## What is to hold of every run -/

/-- The bytes, the etag and the extension are those of one answer. -/
def Whole (log : List CacheEvent) (image : Image) : Prop :=
  ∃ answer, .answered answer ∈ log ∧ image = answer.image

/-- **Every image that is served is one whole answer.** -/
def ServesWhole (log : List CacheEvent) : Prop :=
  ∀ before after task image, log = before ++ .returned task image :: after → Whole before image

/-! ## When it does -/

/-- A task has the file of this name open, with a rest to write. -/
def Pc.fills (epoch : Nat) (name : List Char) : Pc → Prop
  | .filling answer e _ _ => e = epoch ∧ answer.fileName = name
  | _ => False

/-- **The condition on a step.** The numbers of an answer's name have no point, no
file is read between its creation and the last part that is written of it, and
none is opened while another task has it open. -/
def Ok (s : System) : Act → Prop
  | .fetched _ (some answer) => '.' ∉ answer.maxAge ∧ '.' ∉ answer.expireAt
  | .read task => ∀ name data, s.tasks task = .reading name →
    s.directory.file? name = some data → data.whole = true
  | .openFile task _ => ∀ answer, s.tasks task = .opening answer →
    ∀ other, ¬ (s.tasks other).fills s.directory.epoch answer.fileName
  | _ => True

/-! ## Names -/

variable {log : List CacheEvent} {s s' : System} {d : Directory} {task : Nat} {a : Answer}

theorem dot_not_mem_wordChars (text : List Char) : '.' ∉ wordChars text := by
  intro hmem
  exact absurd (List.mem_filter.1 hmem).2 (by decide)

/-- **The name of a file says whose it is.** -/
theorem parsed_fileName (hage : '.' ∉ a.maxAge) (hexpiry : '.' ∉ a.expireAt) :
    parsed a.fileName a.bytes = a.image := by
  have hparts : a.fileName.splitOn '.' = [a.maxAge, a.expireAt, a.etag, a.extension] := by
    refine List.splitOn_intercalate '.' ?_ (List.cons_ne_nil _ _)
    intro part hpart
    simp only [List.mem_cons, List.not_mem_nil, or_false] at hpart
    rcases hpart with rfl | rfl | rfl | rfl
    · exact hage
    · exact hexpiry
    · exact dot_not_mem_wordChars _
    · exact dot_not_mem_wordChars _
  unfold parsed
  rw [hparts]
  rfl

/-! ## The directory -/

theorem file?_put_self (d : Directory) (name : List Char) (data : FileData) :
    (d.put name data).file? name = some data := by
  have hlookup := @KeyedList.lookup_upsert_self _ _ _ Prod.fst replaceData (fun _ _ => rfl)
    d.files (name, data)
  show (KeyedList.lookup Prod.fst name (KeyedList.upsert Prod.fst replaceData d.files
    (name, data))).map Prod.snd = some data
  rw [hlookup]
  cases KeyedList.lookup Prod.fst name d.files <;> rfl

theorem file?_put_of_ne (d : Directory) {name other : List Char} (h : other ≠ name)
    (data : FileData) : (d.put name data).file? other = d.file? other :=
  congrArg (Option.map Prod.snd) (@KeyedList.lookup_upsert_of_ne _ _ _ Prod.fst replaceData
    (fun _ _ => rfl) other (name, data) h d.files)

/-- What is written at the end goes there. -/
theorem splice_length (bytes part : List UInt8) :
    splice bytes bytes.length part = bytes ++ part := by
  simp [splice]

/-! ## The invariant -/

/-- Bytes that a file of this name may be read to have. -/
def Read (log : List CacheEvent) (name : List Char) (bytes : List UInt8) : Prop :=
  ∃ answer, .answered answer ∈ log ∧ answer.fileName = name ∧ bytes = answer.bytes

/-- What holds of a party, by where it is. -/
def Sound (log : List CacheEvent) (d : Directory) : Pc → Prop
  | .recalled image _ | .comparing image _ => Whole log image
  | .touching name bytes | .remembering name bytes => Read log name bytes
  | .removing answer | .creating answer | .opening answer | .storing answer =>
    .answered answer ∈ log
  | .filling answer epoch written rest => .answered answer ∈ log ∧ answer.bytes = written ++ rest ∧
    epoch ≤ d.epoch ∧ (epoch = d.epoch → d.file? answer.fileName = some ⟨written, false⟩)
  | .idle | .loading | .reading _ | .fetching | .done => True

/-- What an event follows. -/
def Follows (before : List CacheEvent) : CacheEvent → Prop
  | .returned _ image => Whole before image
  | .answered _ => True

/-- **The invariant**: a whole file has the bytes of an answer of its name, and
who has one open is alone with it. -/
structure Inv (s : System) : Prop where
  plain : ∀ answer, .answered answer ∈ s.log → '.' ∉ answer.maxAge ∧ '.' ∉ answer.expireAt
  files : ∀ name data, s.directory.file? name = some data → data.whole = true →
    Read s.log name data.bytes
  hot : ∀ image file, s.hot = some (image, file) → Whole s.log image
  tasks : ∀ task, Sound s.log s.directory (s.tasks task)
  alone : ∀ task other name, (s.tasks task).fills s.directory.epoch name →
    (s.tasks other).fills s.directory.epoch name → task = other
  log : Log.EachAfter Follows s.log

theorem Whole.mono {image : Image} (h : Whole log image) (events : List CacheEvent) :
    Whole (log ++ events) image :=
  h.imp fun _ ⟨hmem, heq⟩ => ⟨List.mem_append_left _ hmem, heq⟩

theorem Read.mono {name : List Char} {bytes : List UInt8} (h : Read log name bytes)
    (events : List CacheEvent) : Read (log ++ events) name bytes :=
  h.imp fun _ ⟨hmem, heq⟩ => ⟨List.mem_append_left _ hmem, heq⟩

theorem Sound.mono {pc : Pc} (h : Sound log d pc) (events : List CacheEvent) :
    Sound (log ++ events) d pc := by
  cases pc with
  | recalled image file => exact Whole.mono h _
  | comparing image current => exact Whole.mono h _
  | touching name bytes => exact Read.mono h _
  | remembering name bytes => exact Read.mono h _
  | removing answer => exact List.mem_append_left _ h
  | creating answer => exact List.mem_append_left _ h
  | opening answer => exact List.mem_append_left _ h
  | storing answer => exact List.mem_append_left _ h
  | filling answer epoch written rest => exact ⟨List.mem_append_left _ h.1, h.2⟩
  | _ => trivial

/-! ## The steps -/

/-- A party goes on. -/
theorem Inv.move (h : Inv s) {pc : Pc} (hsound : Sound s.log s.directory pc)
    (halone : ∀ name, pc.fills s.directory.epoch name → ∀ other ≠ task,
      ¬ (s.tasks other).fills s.directory.epoch name) : Inv (s.move task pc) where
  plain := h.plain
  files := h.files
  hot := h.hot
  tasks other := by
    show Sound s.log s.directory (Function.update s.tasks task pc other)
    by_cases heq : other = task
    · rw [heq, Function.update_self]
      exact hsound
    · rw [Function.update_of_ne heq]
      exact h.tasks other
  alone first second name hfirst hsecond := by
    have hfirst : (Function.update s.tasks task pc first).fills s.directory.epoch name := hfirst
    have hsecond : (Function.update s.tasks task pc second).fills s.directory.epoch name := hsecond
    by_cases heq : first = task <;> by_cases heq' : second = task
    · exact heq.trans heq'.symm
    · rw [heq, Function.update_self] at hfirst
      rw [Function.update_of_ne heq'] at hsecond
      exact absurd hsecond (halone name hfirst second heq')
    · rw [Function.update_of_ne heq] at hfirst
      rw [heq', Function.update_self] at hsecond
      exact absurd hfirst (halone name hsecond first heq)
    · rw [Function.update_of_ne heq] at hfirst
      rw [Function.update_of_ne heq'] at hsecond
      exact h.alone first second name hfirst hsecond
  log := h.log

/-- A party goes on to something other than writing. -/
theorem Inv.goOn (h : Inv s) {pc : Pc} (hsound : Sound s.log s.directory pc)
    (hpc : ∀ epoch name, ¬ pc.fills epoch name) : Inv (s.move task pc) :=
  h.move hsound fun name hfills => absurd hfills (hpc _ name)

theorem Inv.record (h : Inv s) (event : CacheEvent) (hfollows : Follows s.log event)
    (hplain : ∀ answer, event = .answered answer → '.' ∉ answer.maxAge ∧ '.' ∉ answer.expireAt) :
    Inv (s.record event) where
  plain answer hmem := by
    rcases List.mem_append.1 hmem with hold | hnew
    · exact h.plain answer hold
    · exact hplain answer (List.mem_singleton.1 hnew).symm
  files name data hfile hwhole := (h.files name data hfile hwhole).mono _
  hot image file hhot := (h.hot image file hhot).mono _
  tasks other := (h.tasks other).mono _
  alone := h.alone
  log := h.log.concat hfollows

/-- An image is returned. -/
theorem Inv.return (h : Inv s) {image : Image} (hwhole : Whole s.log image) :
    Inv (s.record (.returned task image)) :=
  h.record _ hwhole fun _ heq => by cases heq

/-- The copy in memory is replaced, or dropped. -/
theorem Inv.setHot (h : Inv s) {hot : Option (Image × List Char)}
    (hhot : ∀ image file, hot = some (image, file) → Whole s.log image) :
    Inv { s with hot := hot } :=
  { h with hot := hhot }

/-- The directory is removed: what is open is nobody's any more. -/
theorem Inv.remove (h : Inv s) : Inv { s with directory := s.directory.remove } := by
  have hopen : ∀ task name, ¬ (s.tasks task).fills (s.directory.epoch + 1) name := by
    intro task name hfills
    have hsound := h.tasks task
    cases hpc : s.tasks task with
    | filling answer epoch written rest =>
      rw [hpc] at hfills hsound
      have hepoch : epoch = s.directory.epoch + 1 := hfills.1
      have hbound : epoch ≤ s.directory.epoch := hsound.2.2.1
      omega
    | _ =>
      rw [hpc] at hfills
      cases hfills
  refine ⟨h.plain, nofun, h.hot, fun task => ?_, ?_, h.log⟩
  · have hsound := h.tasks task
    show Sound s.log s.directory.remove (s.tasks task)
    cases hpc : s.tasks task with
    | filling answer epoch written rest =>
      rw [hpc] at hsound
      refine ⟨hsound.1, hsound.2.1, Nat.le_succ_of_le hsound.2.2.1, fun hepoch => ?_⟩
      have hbound : epoch ≤ s.directory.epoch := hsound.2.2.1
      have hepoch : epoch = s.directory.epoch + 1 := hepoch
      omega
    | _ =>
      rw [hpc] at hsound
      exact hsound
  · intro task other name hfills
    exact absurd hfills (hopen task name)

/-- **A file is written** by who is alone with it. -/
theorem Inv.put (h : Inv s) {name : List Char} {data : FileData} {pc : Pc}
    (hfile : data.whole = true → Read s.log name data.bytes)
    (halone : ∀ other ≠ task, ¬ (s.tasks other).fills s.directory.epoch name)
    (hsound : Sound s.log (s.directory.put name data) pc)
    (hpc : ∀ n, pc.fills s.directory.epoch n → n = name) :
    Inv ({ s with directory := s.directory.put name data }.move task pc) := by
  refine ⟨h.plain, ?_, h.hot, fun other => ?_, ?_, h.log⟩
  · intro n found hfound hwhole
    by_cases heq : n = name
    · subst heq
      have hsame : some data = some found := (file?_put_self _ _ _).symm.trans hfound
      cases hsame
      exact hfile hwhole
    · exact h.files n found ((file?_put_of_ne _ heq _).symm.trans hfound) hwhole
  · show Sound s.log (s.directory.put name data) (Function.update s.tasks task pc other)
    by_cases heq : other = task
    · rw [heq, Function.update_self]
      exact hsound
    · rw [Function.update_of_ne heq]
      have hother := h.tasks other
      have hnot := halone other heq
      cases hat : s.tasks other with
      | filling answer epoch written rest =>
        rw [hat] at hother hnot
        refine ⟨hother.1, hother.2.1, hother.2.2.1, fun hepoch => ?_⟩
        have hne : answer.fileName ≠ name := fun hname => hnot ⟨hepoch, hname⟩
        rw [file?_put_of_ne _ hne]
        exact hother.2.2.2 hepoch
      | _ =>
        rw [hat] at hother
        exact hother
  · intro first second n hfirst hsecond
    have hfirst : (Function.update s.tasks task pc first).fills s.directory.epoch n := hfirst
    have hsecond : (Function.update s.tasks task pc second).fills s.directory.epoch n := hsecond
    by_cases heq : first = task <;> by_cases heq' : second = task
    · exact heq.trans heq'.symm
    · rw [heq, Function.update_self] at hfirst
      rw [Function.update_of_ne heq', hpc n hfirst] at hsecond
      exact absurd hsecond (halone second heq')
    · rw [heq', Function.update_self] at hsecond
      rw [Function.update_of_ne heq, hpc n hsecond] at hfirst
      exact absurd hfirst (halone first heq)
    · rw [Function.update_of_ne heq] at hfirst
      rw [Function.update_of_ne heq'] at hsecond
      exact h.alone first second n hfirst hsecond

theorem Inv.opened (h : Inv s) (hpc : s.tasks task = .opening a)
    (halone : ∀ other, ¬ (s.tasks other).fills s.directory.epoch a.fileName) :
    Inv (opened s task a) := by
  have hanswered : .answered a ∈ s.log := by
    have hsound := h.tasks task
    rw [hpc] at hsound
    exact hsound
  unfold ImageCache.opened
  refine h.put (fun hempty => ?_) (fun other _ => halone other) ?_ ?_
  · exact ⟨a, hanswered, rfl, (List.isEmpty_iff.1 hempty).symm⟩
  · split
    · exact hanswered
    · rename_i hempty
      refine ⟨hanswered, rfl, Nat.le_refl _, fun _ => ?_⟩
      rw [file?_put_self, Bool.eq_false_iff.2 hempty]
  · intro n hfills
    split at hfills
    · cases hfills
    · exact hfills.2.symm

theorem Inv.wrote (h : Inv s) {epoch : Nat} {written rest : List UInt8} (count : Nat)
    (hpc : s.tasks task = .filling a epoch written rest) :
    Inv (wrote s task a epoch written rest count) := by
  have hsound := h.tasks task
  rw [hpc] at hsound
  obtain ⟨hanswered, hbytes, hepoch, hfile⟩ := hsound
  have hparts : a.bytes = written ++ rest.take count ++ rest.drop count := by
    rw [List.append_assoc, List.take_append_drop, hbytes]
  have hdone : (rest.drop count).isEmpty = true → written ++ rest.take count = a.bytes := by
    intro hempty
    rw [hparts, List.isEmpty_iff.1 hempty, List.append_nil]
  have hothers : epoch = s.directory.epoch → ∀ other ≠ task,
      ¬ (s.tasks other).fills s.directory.epoch a.fileName := by
    intro hcurrent other hne hfills
    refine hne (h.alone other task a.fileName hfills ?_)
    rw [hpc]
    exact ⟨hcurrent, rfl⟩
  -- what the party does next, whether or not anybody reads what it wrote
  have hmoved : ∀ {d : Directory}, epoch ≤ d.epoch → (epoch = d.epoch →
      d.file? a.fileName = some ⟨written ++ rest.take count, (rest.drop count).isEmpty⟩) →
      Sound s.log d (if (rest.drop count).isEmpty then .storing a
        else .filling a epoch (written ++ rest.take count) (rest.drop count)) := by
    intro d hbound hput
    split
    · exact hanswered
    · rename_i hempty
      refine ⟨hanswered, hparts, hbound, fun hcurrent => ?_⟩
      rw [hput hcurrent, Bool.eq_false_iff.2 hempty]
  have hname : ∀ {e n}, Pc.fills e n (if (rest.drop count).isEmpty then .storing a
      else .filling a epoch (written ++ rest.take count) (rest.drop count)) →
      e = epoch ∧ n = a.fileName := by
    intro e n hfills
    split at hfills
    · cases hfills
    · exact ⟨hfills.1.symm, hfills.2.symm⟩
  unfold ImageCache.wrote
  dsimp only
  by_cases hcurrent : epoch = s.directory.epoch
  · rw [hfile hcurrent]
    dsimp only
    rw [if_pos hcurrent, splice_length]
    refine h.put (fun hwhole => ⟨a, hanswered, rfl, hdone hwhole⟩) (hothers hcurrent)
      (hmoved hepoch fun _ => file?_put_self _ _ _) fun n hfills => (hname hfills).2
  · have hkept : (match s.directory.file? a.fileName with
        | some data => if epoch = s.directory.epoch then s.directory.put a.fileName
            { bytes := splice data.bytes written.length (rest.take count)
              whole := (rest.drop count).isEmpty }
          else s.directory
        | none => s.directory) = s.directory := by
      split
      · exact if_neg hcurrent
      · rfl
    rw [hkept]
    refine h.move (hmoved hepoch fun heq => absurd heq hcurrent) fun n hfills => ?_
    exact absurd (hname hfills).1.symm hcurrent

/-- **One step of a party, a clean-up or an eviction**, under the condition. -/
theorem Inv.step (h : Inv s) {act : Act} (hok : Ok s act) (hstep : Step s act s') : Inv s' := by
  unfold Step ImageCache.step at hstep
  cases act with
  | get task =>
    dsimp only at hstep
    split at hstep
    · split at hstep
      · rename_i image file hhot
        cases hstep
        exact h.goOn (h.hot image file hhot) fun _ _ => id
      · cases hstep
        exact h.goOn trivial fun _ _ => id
    · cases hstep
  | revalidate task =>
    dsimp only at hstep
    split at hstep
    · cases hstep
      exact h.goOn trivial fun _ _ => id
    · cases hstep
  | list task =>
    dsimp only at hstep
    have hsound := h.tasks task
    split at hstep
    · rename_i hpc
      cases hstep
      rw [hpc] at hsound
      exact h.goOn hsound fun _ _ => id
    · split at hstep <;> (cases hstep; exact h.goOn trivial fun _ _ => id)
    · cases hstep
  | compare task =>
    dsimp only at hstep
    have hsound := h.tasks task
    split at hstep
    · rename_i hpc
      rw [hpc] at hsound
      split at hstep
      · cases hstep
        exact (h.return hsound).goOn trivial fun _ _ => id
      · cases hstep
        exact (h.setHot fun _ _ heq => by cases heq).goOn trivial fun _ _ => id
    · cases hstep
  | read task =>
    dsimp only at hstep
    split at hstep
    · rename_i name hpc
      split at hstep
      · rename_i data hfile
        cases hstep
        exact h.goOn (h.files name data hfile (hok name data hpc hfile)) fun _ _ => id
      · cases hstep
        exact h.goOn trivial fun _ _ => id
    · cases hstep
  | touch task fails =>
    dsimp only at hstep
    have hsound := h.tasks task
    split at hstep
    · rename_i hpc
      rw [hpc] at hsound
      cases hstep
      cases fails with
      | true => exact h.goOn trivial fun _ _ => id
      | false => exact h.goOn hsound fun _ _ => id
    · cases hstep
  | remember task =>
    dsimp only at hstep
    have hsound := h.tasks task
    split at hstep
    · rename_i name bytes hpc
      rw [hpc] at hsound
      cases hstep
      obtain ⟨answer, hanswered, rfl, rfl⟩ := hsound
      obtain ⟨hage, hexpiry⟩ := h.plain answer hanswered
      have hwhole : Whole s.log (parsed answer.fileName answer.bytes) :=
        ⟨answer, hanswered, parsed_fileName hage hexpiry⟩
      have hkept : Inv { s with
          hot := some (parsed answer.fileName answer.bytes, answer.fileName) } := by
        refine h.setHot ?_
        rintro _ _ ⟨⟩
        exact hwhole
      exact (hkept.return hwhole).goOn trivial fun _ _ => id
    · rename_i answer hpc
      rw [hpc] at hsound
      cases hstep
      have hwhole : Whole s.log answer.image := ⟨answer, hsound, rfl⟩
      have hkept : Inv { s with hot := some (answer.image, answer.fileName) } := by
        refine h.setHot ?_
        rintro _ _ ⟨⟩
        exact hwhole
      exact (hkept.return hwhole).goOn trivial fun _ _ => id
    · cases hstep
  | fetched task answer =>
    dsimp only at hstep
    split at hstep
    · cases answer with
      | none =>
        cases hstep
        exact h.goOn trivial fun _ _ => id
      | some answer =>
        cases hstep
        have hrecorded : Inv (s.record (.answered answer)) := by
          refine h.record _ trivial ?_
          rintro _ ⟨⟩
          exact hok
        exact hrecorded.goOn (List.mem_append_right _ List.mem_cons_self) fun _ _ => id
    · cases hstep
  | removeDirectory task =>
    dsimp only at hstep
    have hsound := h.tasks task
    split at hstep
    · rename_i hpc
      rw [hpc] at hsound
      cases hstep
      exact h.remove.goOn hsound fun _ _ => id
    · cases hstep
  | createDirectory task fails =>
    dsimp only at hstep
    have hsound := h.tasks task
    split at hstep
    · rename_i hpc
      rw [hpc] at hsound
      split at hstep
      · cases hstep
        exact h.goOn trivial fun _ _ => id
      · cases hstep
        have hpresent : Inv { s with directory := { s.directory with present := true } } := by
          refine ⟨h.plain, h.files, h.hot, fun other => ?_, h.alone, h.log⟩
          have hother := h.tasks other
          cases hat : s.tasks other <;> (rw [hat] at hother; exact hother)
        exact hpresent.goOn hsound fun _ _ => id
    · cases hstep
  | openFile task fails =>
    dsimp only at hstep
    split at hstep
    · rename_i answer hpc
      split at hstep
      · cases hstep
        exact h.goOn trivial fun _ _ => id
      · cases hstep
        exact h.opened hpc (hok answer hpc)
    · cases hstep
  | writePart task count fails =>
    dsimp only at hstep
    split at hstep
    · rename_i hpc
      split at hstep
      · cases hstep
        exact h.goOn trivial fun _ _ => id
      · cases hstep
        exact h.wrote count hpc
    · cases hstep
  | cleanUp =>
    cases hstep
    exact h.remove
  | evict =>
    cases hstep
    exact h.setHot fun _ _ heq => by cases heq

/-! ## Every run -/

/-- **Every image that is served is one whole answer**, in every run whose steps
meet the condition. -/
theorem whole_served {acts : List Act} (h : Run (Guarded Step Ok) {} acts s) :
    ServesWhole s.log := by
  have hstart : Inv {} :=
    ⟨nofun, nofun, nofun, fun _ => trivial, fun _ _ _ hfills => absurd hfills id, Log.eachAfter_nil⟩
  have hinv : Inv s := h.invariant (fun _ _ _ hs hstep => Inv.step hs hstep.1 hstep.2) hstart
  exact fun _ _ _ _ heq => hinv.log _ _ _ heq

/-! ## Two runs -/

/-- An answer of two bytes, good for a minute. -/
private def picture : Answer where
  bytes := [137, 80]
  etagHeader := ['"', 'e', '1', '"']
  mimeExtension := ['p', 'n', 'g']
  maxAge := ['6', '0']
  expireAt := ['9', '0', '0', '0', '0']

/-- The first task fetches the image; the third reads it, and the fourth recalls it. -/
private def afterwards : List Act :=
  [.get 0, .list 0, .fetched 0 (some picture), .removeDirectory 0, .createDirectory 0 false,
    .openFile 0 false, .writePart 0 1 false, .writePart 0 1 false, .remember 0,
    .evict, .get 2, .list 2, .read 2, .touch 2 false, .remember 2,
    .get 3, .list 3, .compare 3]

/-- Every image of the run is the whole picture. -/
theorem whole_served_sample : ∃ s, Run (Guarded Step Ok) {} afterwards s ∧
    s.log = [.answered picture, .returned 0 picture.image, .returned 2 picture.image,
      .returned 3 picture.image] ∧ ServesWhole s.log := by
  have hopen : ∀ s : System, (∀ task ≠ 0, s.tasks task = .idle) → s.tasks 0 = .opening picture →
      Ok s (.openFile 0 false) := by
    intro s hidle hopening answer hanswer other hfills
    by_cases heq : other = 0
    · rw [heq, hopening] at hfills
      exact hfills
    · rw [hidle other heq] at hfills
      exact hfills
  have hread : ∀ s : System, s.directory.files = [(picture.fileName, ⟨picture.bytes, true⟩)] →
      Ok s (.read 2) := by
    intro s hfiles name data hpc hfile
    unfold Directory.file? at hfile
    rw [hfiles] at hfile
    obtain ⟨file, hfound, rfl⟩ := Option.map_eq_some_iff.1 hfile
    rw [List.mem_singleton.1 (KeyedList.mem_of_lookup hfound)]
  have hrun : ∃ s, Run (Guarded Step Ok) {} afterwards s ∧
      s.log = [.answered picture, .returned 0 picture.image, .returned 2 picture.image,
        .returned 3 picture.image] := by
    refine ⟨_, .cons ⟨trivial, rfl⟩ <| .cons ⟨trivial, rfl⟩ <|
      .cons ⟨⟨by decide, by decide⟩, rfl⟩ <|
      .cons ⟨trivial, rfl⟩ <| .cons ⟨trivial, rfl⟩ <| .cons ⟨hopen _ ?_ rfl, rfl⟩ <|
      .cons ⟨trivial, rfl⟩ <| .cons ⟨trivial, rfl⟩ <| .cons ⟨trivial, rfl⟩ <|
      .cons ⟨trivial, rfl⟩ <| .cons ⟨trivial, rfl⟩ <| .cons ⟨trivial, rfl⟩ <|
      .cons ⟨hread _ rfl, rfl⟩ <| .cons ⟨trivial, rfl⟩ <| .cons ⟨trivial, rfl⟩ <|
      .cons ⟨trivial, rfl⟩ <| .cons ⟨trivial, rfl⟩ <| .cons ⟨trivial, rfl⟩ <| .nil _, ?_⟩
    · intro task hne
      simp [System.move, System.record, hne]
    · rfl
  obtain ⟨s, hrun, hlog⟩ := hrun
  exact ⟨s, hrun, hlog, whole_served hrun⟩

/-- The second task reads between the creation of the file and its first byte. -/
private def meanwhile : List Act :=
  [.get 0, .list 0, .fetched 0 (some picture), .removeDirectory 0, .createDirectory 0 false,
    .openFile 0 false, .get 1, .list 1, .read 1, .touch 1 false, .remember 1]

/-- **An empty file is served as the image**, while its bytes are written. -/
theorem cut_off_served : ¬ ∀ acts s, Run Step {} acts s → ServesWhole s.log := by
  intro hclaim
  have hrun : (meanwhile.foldlM step {}).map (·.log)
      = some [.answered picture, .returned 1 { picture.image with bytes := [] }] := by
    decide +kernel
  obtain ⟨s, hs, hlog⟩ := Option.map_eq_some_iff.1 hrun
  have hserves := hclaim meanwhile s (Run.of_foldlM hs)
  obtain ⟨answer, hmem, heq⟩ := hserves [.answered picture] [] 1 _ hlog
  have hanswer : answer = picture := by
    cases List.mem_singleton.1 hmem
    rfl
  rw [hanswer] at heq
  exact absurd (congrArg Image.bytes heq) (by decide)

end ImageCache

end Foreseerr

import Foreseerr.Json
import Foreseerr.Run
import Mathlib.Algebra.GroupWithZero.Nat

/-!
# Candidates of a manual import

`mediaimports.rs` reads from the Arr's answers which downloads wait to be
imported by hand, and lets an import send the files offered for them. This
module is what it makes of one candidate: whether it is unsafe, whether it
belongs to a download of several seasons, what an import still needs of it, what
a rematch keeps of the candidate before, and how the user's choices and the
target are written on the file.

A file starts as its candidate, and only five of its fields are written
(`File.Untouched`): what was checked of the candidate holds of the file.
-/

namespace Foreseerr

namespace ManualImports

/-- Why a route stops. -/
inductive Fail
  | status (code : Nat) (message : String)
  /-- An Arr call failed. -/
  | arr
  | forward (why : String)
deriving DecidableEq, Repr

/-- `shape_error`. -/
def shapeError (what : String) : Fail := .status 502 ("Unexpected " ++ what ++ " from Servarr.")

/-- The fields of an object. -/
abbrev Fields := List (String × Json)

/-- `truthy(doc.get(key))`. -/
def has (doc : Json) (key : String) : Bool := (doc.get key).any Json.truthy

/-- `put`: insert unless `undefined`. -/
def put (out : Fields) (key : String) (value : Option Json) : Fields :=
  value.elim out fun value => Json.setField key value out

def startsWith (start text : String) : Bool := start.toList.isPrefixOf text.toList

def contains (part text : String) : Bool := text.toList.tails.any part.toList.isPrefixOf

/-- `dedupe`: the first of each. -/
def dedupe {α : Type} [DecidableEq α] (ids : List α) : List α :=
  ids.foldl (fun out id => if id ∈ out then out else out ++ [id]) []

/-! ## Downloads -/

/-- `MULTI_SEASON`. -/
def multiSeasonCode : String := "multiSeason"

/-- `queue_item_multi_season`: several seasons, or Sonarr's warning. -/
def queueItemMultiSeason (item : Json) : Bool :=
  let seasons := (((item.get "seasons").bind Json.asArray).getD []).length
  let statuses := ((item.get "statusMessages").bind Json.asArray).getD []
  let messages := statuses.flatMap fun status =>
    ((status.get "messages").bind Json.asArray).getD []
  decide (seasons > 1) ||
    messages.any fun message => message.asStr.any (startsWith "Multi-season download")

/-- `source_for`. -/
def sourceFor (item : Json) : Json :=
  let out := put (put (put [("kind", .str "queue")] "label" (item.get "title"))
    "folder" (item.get "outputPath")) "downloadId" (item.get "downloadId")
  .obj (if queueItemMultiSeason item then Json.setField "multiSeason" (.bool true) out else out)

section Lowercase

variable (toLowercase : String → String)

/-- `lower`: nothing where the call would throw. -/
def lower : Option Json → Option (Option String)
  | none | some .null => some none
  | some (.str s) => some (some (toLowercase s))
  | some _ => none

/-- `interactive`: the download waits for a manual import; nothing where the call
would throw. -/
def interactive (item : Json) : Option Bool :=
  if item.isNull then none
  else
    (lower toLowercase (item.get "status")).bind fun status =>
      if status ≠ some "completed" then some false
      else
        (lower toLowercase (item.get "trackedDownloadStatus")).bind fun tracked =>
          if tracked ≠ some "warning" then some false
          else some (has item "downloadId" && has item "outputPath")

/-- The items that wait for a manual import, as sources. -/
def waitingSources : List Json → Except Fail (List Json)
  | [] => .ok []
  | item :: items =>
    match interactive toLowercase item with
    | some true => (waitingSources items).map (sourceFor item :: ·)
    | some false => waitingSources items
    | none => .error (shapeError "queue item")

/-- `current_sources`. -/
def currentSources (queue : Json) : Except Fail (List Json) :=
  match queue.asArray with
  | some items => (waitingSources toLowercase items).map (List.take 20)
  | none => .error (shapeError "queue details")

/-- The download of a source in the queue. -/
def currentItem (source : Json) : List Json → Except Fail (Option Json)
  | [] => .ok none
  | item :: items =>
    if item.isNull then .error (shapeError "queue item")
    else if item.get "downloadId" = source.get "downloadId" ∧
        item.get "outputPath" = source.get "folder" then .ok (some item)
    else currentItem source items

/-- The answer where a download is gone, or needs no manual import. -/
def gone : Fail :=
  .status 409 "This download no longer requires manual import. Refresh and try again."

/-- `assert_current`. -/
def assertCurrent (queue source : Json) : Except Fail Unit :=
  match queue.asArray with
  | none => .error (shapeError "queue details")
  | some items => do
    match ← currentItem source items with
    | none => .error gone
    | some item =>
      match interactive toLowercase item with
      | some true => .ok ()
      | some false => .error gone
      | none => .error (shapeError "queue item")

/-! ## Unsafe candidates -/

/-- Why a candidate is unsafe. -/
inductive UnsafeKind
  | dangerousFile
  | executableFile
  | userRejectedExtension
  | unsupportedExtension
deriving DecidableEq, Repr

/-- `DANGEROUS_EXTENSIONS`. -/
def dangerousExtensions : List String := ["arj", "lnk", "lzh", "ps1", "scr", "vbs", "zipx"]

/-- `EXECUTABLE_EXTENSIONS`. -/
def executableExtensions : List String := ["bat", "cmd", "exe", "sh"]

/-- `MEDIA_EXTENSIONS`. -/
def mediaExtensions : List String :=
  ["webm", "m4v", "3gp", "nsv", "ty", "strm", "rm", "rmvb", "m3u", "ifo", "mov", "qt", "divx",
    "xvid", "bivx", "nrg", "pva", "wmv", "asf", "asx", "ogm", "ogv", "m2v", "avi", "bin", "dat",
    "dvr-ms", "mpg", "mpeg", "mp4", "avc", "vp3", "svq3", "nuv", "viv", "dv", "fli", "flv", "wpl",
    "img", "iso", "vob", "mkv", "mk3d", "ts", "wtv", "m2ts"]

/-- `extension`: of the last segment of a path, without the dot. -/
def extension (path : String) : Option String :=
  let name := path.toList.reverse.takeWhile fun c => c ≠ '/' && c ≠ '\\'
  if '.' ∈ name then some (toLowercase (String.ofList (name.takeWhile (· ≠ '.')).reverse))
  else none

/-- The rejections of a candidate. -/
def rejections (candidate : Json) : List Json :=
  ((candidate.get "rejections").bind Json.asArray).getD []

/-- Why a rejection makes a candidate unsafe. -/
def rejectionKind (rejection : Json) : Option UnsafeKind :=
  let code := (rejection.get "code").bind Json.asStr
  let text := ((rejection.get "reason").bind Json.asStr).getD ""
  let caution := startsWith "Caution:" text
  if code = some "userRejectedExtension" ∨
      (caution && contains "user defined rejected extension" text) then
    some .userRejectedExtension
  else if code = some "executableFile" ∨ startsWith "Caution: Found executable" text then
    some .executableFile
  else if code = some "dangerousFile" ∨ caution then some .dangerousFile
  else none

/-- Why a name makes a candidate unsafe. -/
def nameKind (name : String) : Option UnsafeKind :=
  let ext := (extension toLowercase name).getD ""
  if ext ∈ dangerousExtensions then some .dangerousFile
  else if ext ∈ executableExtensions then some .executableFile
  else if ext ∉ mediaExtensions then some .unsupportedExtension
  else none

/-- `unsafe_kind`. A candidate without a name is not safe either. -/
def unsafeKind (candidate : Json) : Option UnsafeKind :=
  let names := ["path", "relativePath"].filterMap fun key => (candidate.get key).bind Json.asStr
  ((rejections candidate).findSome? rejectionKind).or
    (if names = [] then some .unsupportedExtension
      else names.findSome? (nameKind toLowercase))

/-- `refuse_unsafe`. -/
def refuseUnsafe (candidate : Json) : Except Fail Unit :=
  if (unsafeKind toLowercase candidate).isSome then
    .error (.status 409 ("Foreseerr imports only video files, never one flagged as potentially " ++
      "dangerous or executable."))
  else .ok ()

end Lowercase

/-- `multi_season`: by the download, or by what Sonarr says of the file. -/
def multiSeason (candidate source : Json) : Bool :=
  has source "multiSeason" || (rejections candidate).any fun rejection =>
    decide ((rejection.get "code").bind Json.asStr = some multiSeasonCode)

/-! ## What an import needs -/

/-- `has_length`. -/
def hasLength : Option Json → Bool
  | some (.arr items) => !items.isEmpty
  | some (.str s) => s ≠ ""
  | _ => false

/-- `missing`. -/
def missing (candidate : Json) (radarr : Bool) : List String :=
  (if radarr then (if has candidate "movie" then [] else ["movie"])
    else
      (if has candidate "series" || has candidate "seriesId" then [] else ["series"]) ++
      (if (candidate.get "seasonNumber").all Json.isNull then ["seasonNumber"] else []) ++
      (if hasLength (candidate.get "episodes") then [] else ["episodes"])) ++
  (if has candidate "quality" then [] else ["quality"]) ++
  (if hasLength (candidate.get "languages") then [] else ["languages"])

/-- `complete_for_import`. -/
def completeForImport (file : Json) (radarr mapped : Bool) : Bool :=
  (missing file radarr).all fun field =>
    mapped && (field = "series" || field = "seasonNumber" || field = "episodes")

/-- `rematched`: the file details the answer leaves out are the candidate's. -/
def rematched (answer before : Json) : Json :=
  match answer, before with
  | .obj fields, .obj _ =>
    .obj (["name", "relativePath", "folderName", "size"].foldl (fun out key =>
      if (Json.getField key out).all Json.isNull then put out key (before.get key) else out) fields)
  | _, _ => answer

/-! ## Bodies -/

/-- `Override`. -/
structure Override where
  token : String
  quality : Option Int
  languages : Option (List Int)
deriving DecidableEq, Repr

/-- `ImportBody`. -/
structure ImportBody where
  tokens : List String
  copy : Bool := false
  is4k : Bool := false
  acknowledge : Bool := false
  mappings : List (String × List Int) := []
  overrides : List Override := []
  intervention : Option Int := none
deriving DecidableEq, Repr

/-- The body picks episodes for a token. -/
def ImportBody.maps (b : ImportBody) (token : String) : Bool :=
  b.mappings.any fun mapping => decide (mapping.1 = token) && !mapping.2.isEmpty

/-- The last mapping of a token. -/
def ImportBody.picks (b : ImportBody) (token : String) : Option (List Int) :=
  (b.mappings.reverse.find? fun mapping => mapping.1 = token).map Prod.snd

/-- The last choice for a token. -/
def ImportBody.choice (b : ImportBody) (token : String) : Option Override :=
  b.overrides.reverse.find? fun choice => choice.token = token

/-- `js_len`. -/
def jsLen (text : String) : Nat :=
  (text.toList.map fun c => if c.toNat < 65536 then 1 else 2).sum

/-! ## Files -/

/-- A candidate that a token stands for, with its source. -/
structure Stored where
  token : String
  candidate : Json
  source : Json
deriving DecidableEq, Repr

/-- A file of a command, with the candidate it is of. -/
structure File where
  stored : Stored
  fields : Fields
deriving DecidableEq, Repr

/-- A file before anything is written on it. -/
def Stored.file (stored : Stored) : File := ⟨stored, (stored.candidate.asObject).getD []⟩

def File.set (file : File) (key : String) (value : Json) : File :=
  { file with fields := Json.setField key value file.fields }

/-- `safe_to_import`. -/
def safeToImport (toLowercase : String → String) (radarr : Bool) (b : ImportBody)
    (stored : List Stored) : Except Fail Unit := do
  stored.forM fun s => refuseUnsafe toLowercase s.candidate
  if !radarr && stored.any fun s => multiSeason s.candidate s.source && !b.maps s.token then
    .error (.status 409
      "Choose the episodes of every file from a multi-season download before importing.")
  else .ok ()

/-- What the Arr offers has a positive id and a name. -/
def named (v : Json) : Bool :=
  ((v.get "id").bind Json.asI64).any (0 < ·) && ((v.get "name").bind Json.asStr).isSome

/-- The qualities of `import_options`. -/
def importQualities (definitions : Json) : Except Fail (List Json) :=
  match definitions.asArray with
  | some items => .ok ((items.filterMap (Json.get "quality")).filter named)
  | none => .error (shapeError "quality definitions")

/-- The languages of `import_options`. -/
def importLanguages (languages : Json) : Except Fail (List Json) :=
  match languages.asArray with
  | some items => .ok ((items.filter named).map fun l =>
      .obj [("id", (l.get "id").getD .null), ("name", (l.get "name").getD .null)])
  | none => .error (shapeError "languages")

/-- An offer by its id. -/
def offerOf (offers : List Json) (id : Int) : Option Json :=
  offers.find? fun offer => (offer.get "id").bind Json.asI64 = some id

/-- The answer where the Arr offers no such quality or language. -/
def unknownChoice (radarr : Bool) : Fail :=
  .status 400 ("Choose a quality and languages " ++ (if radarr then "Radarr" else "Sonarr") ++
    " offers.")

/-- A file with the quality that was chosen, its revision kept. -/
def File.setQuality (file : File) (quality : Json) : File :=
  let revision := ((Json.obj file.fields).pointer ["quality", "revision"]).filter Json.isObject
  file.set "quality" (.obj [("quality", quality), ("revision", revision.getD
    (.obj [("version", .num 1), ("real", .num 0), ("isRepack", .bool false)]))])

/-- The quality the user chose for a file. -/
def applyQuality (radarr : Bool) (qualities : List Json) (choice : Override) (file : File) :
    Except Fail File :=
  match choice.quality with
  | none => .ok file
  | some id =>
    match offerOf qualities id with
    | some quality => .ok (file.setQuality quality)
    | none => .error (unknownChoice radarr)

/-- The languages the user chose for a file. -/
def applyLanguages (radarr : Bool) (languages : List Json) (choice : Override) (file : File) :
    Except Fail File :=
  match choice.languages with
  | none => .ok file
  | some ids =>
    if ids = [] then .error (unknownChoice radarr)
    else
      match (dedupe ids).mapM (offerOf languages) with
      | some chosen => .ok (file.set "languages" (.arr chosen))
      | none => .error (unknownChoice radarr)

/-- A file with what the user chose for it, by `apply_overrides`. -/
def applyOverride (radarr : Bool) (qualities languages : List Json) (b : ImportBody)
    (file : File) : Except Fail File :=
  match b.choice file.stored.token with
  | none => .ok file
  | some choice =>
    applyQuality radarr qualities choice file >>= applyLanguages radarr languages choice

/-- The files are complete, and their rejections are acknowledged. -/
def checkFiles (radarr : Bool) (b : ImportBody) (files : List File) : Except Fail Unit :=
  if files.any fun file =>
      !completeForImport (.obj file.fields) radarr (b.maps file.stored.token) then
    .error (.status 409 "One or more files need additional Arr metadata before importing.")
  else if (files.any fun file => hasLength (Json.getField "rejections" file.fields)) &&
      !b.acknowledge then
    .error (.status 409 "Confirm import rejection warnings before importing.")
  else .ok ()

/-- A file of a movie. -/
def File.toMovie (file : File) (externalId : Int) : File := file.set "movieId" (.num externalId)

/-- The episodes a file goes to: the picked ones, or the matched ones. -/
def File.targets (file : File) (b : ImportBody) : List Json :=
  match b.picks file.stored.token with
  | some ids => ids.map fun (id : Int) => .num id
  | none =>
    match Json.getField "episodes" file.fields with
    | some (.arr episodes) => episodes.map fun episode => (episode.get "id").getD .null
    | _ => []

/-- A file of a series, by `assign_targets`. -/
def File.toEpisodes (file : File) (b : ImportBody) (externalId : Int) (valid : List Json) :
    Except Fail File :=
  let ids := file.targets b
  if ids = [] ∨ ∃ id ∈ ids, id ∉ valid then
    .error (.status 400 "Choose valid episodes for every selected file.")
  else
    .ok ((file.set "seriesId" (.num externalId)).set "episodeIds" (.arr (dedupe ids)))

/-! ## What the checks establish -/

section Checks

variable {toLowercase : String → String} {radarr : Bool} {b : ImportBody} {file file' : File}

theorem mem_dedupe {α : Type} [DecidableEq α] {ids : List α} {a : α} :
    a ∈ dedupe ids ↔ a ∈ ids := by
  have hfold : ∀ (ids out : List α), a ∈ ids.foldl
      (fun out id => if id ∈ out then out else out ++ [id]) out ↔ a ∈ out ∨ a ∈ ids := by
    intro ids
    induction ids with
    | nil => simp
    | cons id ids ih =>
      intro out
      rw [List.foldl_cons, ih]
      split <;> grind
  rw [dedupe, hfold]
  simp

theorem nodup_dedupe {α : Type} [DecidableEq α] (ids : List α) : (dedupe ids).Nodup := by
  have hfold : ∀ (ids out : List α), out.Nodup → (ids.foldl
      (fun out id => if id ∈ out then out else out ++ [id]) out).Nodup := by
    intro ids
    induction ids with
    | nil => exact fun _ hout => hout
    | cons id ids ih =>
      intro out hout
      refine ih _ ?_
      dsimp only
      split
      · exact hout
      · rename_i hnew
        refine List.nodup_append.2 ⟨hout, List.pairwise_singleton _ id, ?_⟩
        rintro a ha _ hid rfl
        exact hnew (List.mem_singleton.1 hid ▸ ha)
  exact hfold ids [] List.nodup_nil

theorem dedupe_ne_nil {α : Type} [DecidableEq α] {ids : List α} (h : ids ≠ []) :
    dedupe ids ≠ [] := by
  obtain ⟨a, ha⟩ := List.exists_mem_of_ne_nil ids h
  exact List.ne_nil_of_mem (mem_dedupe.2 ha)

/-- **What is safe to import.** -/
theorem safeToImport_eq_ok {stored : List Stored}
    (h : safeToImport toLowercase radarr b stored = .ok ()) :
    (∀ s ∈ stored, refuseUnsafe toLowercase s.candidate = .ok ()) ∧
      ∀ s ∈ stored, radarr = false → multiSeason s.candidate s.source = true →
        b.maps s.token = true := by
  obtain ⟨⟨⟩, hsafe, h⟩ := except_bind_eq_ok h
  refine ⟨forM_eq_ok hsafe, ?_⟩
  intro s hs hradarr hmulti
  split at h
  · cases h
  · rename_i hpicked
    by_contra hmaps
    refine hpicked (Bool.and_eq_true_iff.2 ⟨by rw [hradarr]; rfl, ?_⟩)
    exact List.any_eq_true.2 ⟨s, hs, by simp [hmulti, hmaps]⟩

/-- A token that is mapped has picks. -/
theorem ImportBody.exists_picks {token : String} (h : b.maps token = true) :
    ∃ ids, b.picks token = some ids := by
  obtain ⟨mapping, hmapping, heq⟩ := List.any_eq_true.1 h
  have htoken : mapping.1 = token := of_decide_eq_true (Bool.and_eq_true_iff.1 heq).1
  unfold ImportBody.picks
  cases hfound : b.mappings.reverse.find? fun mapping => decide (mapping.1 = token) with
  | some found => exact ⟨found.2, rfl⟩
  | none =>
    have hnone := List.find?_eq_none.1 hfound mapping (List.mem_reverse.2 hmapping)
    exact absurd (decide_eq_true htoken) hnone

/-! ## Files keep what was checked -/

/-- The fields that are written on a file. -/
def writtenFields : List String := ["quality", "languages", "movieId", "seriesId", "episodeIds"]

/-- **The other fields of a file are its candidate's.** -/
def File.Untouched (file : File) : Prop :=
  ∀ key ∉ writtenFields, Json.getField key file.fields = file.stored.candidate.get key

theorem Stored.untouched_file (stored : Stored) : stored.file.Untouched := by
  intro key _
  show Json.getField key ((stored.candidate.asObject).getD []) = stored.candidate.get key
  cases stored.candidate <;> rfl

theorem File.Untouched.set (h : file.Untouched) {key : String} (hkey : key ∈ writtenFields)
    (value : Json) : (file.set key value).Untouched := by
  intro other hother
  have hne : other ≠ key := fun heq => hother (heq ▸ hkey)
  exact (Json.getField_setField_of_ne hne value file.fields).trans (h other hother)

theorem File.Untouched.setQuality (h : file.Untouched) (quality : Json) :
    (file.setQuality quality).Untouched :=
  h.set (by decide) _

/-- **The user's choices leave the rest of a file alone.** -/
theorem applyOverride_eq_ok {qualities languages : List Json} (hfile : file.Untouched)
    (h : applyOverride radarr qualities languages b file = .ok file') :
    file'.stored = file.stored ∧ file'.Untouched := by
  unfold applyOverride at h
  split at h
  · cases h
    exact ⟨rfl, hfile⟩
  · obtain ⟨middle, hquality, hlanguages⟩ := except_bind_eq_ok h
    have hmiddle : middle.stored = file.stored ∧ middle.Untouched := by
      unfold applyQuality at hquality
      split at hquality
      · cases hquality
        exact ⟨rfl, hfile⟩
      · split at hquality
        · cases hquality
          exact ⟨rfl, hfile.setQuality _⟩
        · cases hquality
    unfold applyLanguages at hlanguages
    split at hlanguages
    · cases hlanguages
      exact hmiddle
    · split at hlanguages
      · cases hlanguages
      · split at hlanguages
        · cases hlanguages
          exact ⟨hmiddle.1, hmiddle.2.set (by decide) _⟩
        · cases hlanguages

/-- What `checkFiles` establishes. -/
theorem checkFiles_eq_ok {files : List File} (h : checkFiles radarr b files = .ok ()) :
    ∀ file ∈ files, hasLength (Json.getField "rejections" file.fields) = true →
      b.acknowledge = true := by
  intro file hfile hlength
  unfold checkFiles at h
  split at h
  · cases h
  · split at h
    · cases h
    · rename_i hrejections
      by_contra hack
      refine hrejections (Bool.and_eq_true_iff.2 ⟨List.any_eq_true.2 ⟨file, hfile, hlength⟩, ?_⟩)
      simpa using hack

/-- **Where a file of a series goes**: to distinct episodes the series has, those the
user picked if there are picks. -/
theorem toEpisodes_eq_ok {externalId : Int} {valid : List Json} (hfile : file.Untouched)
    (h : file.toEpisodes b externalId valid = .ok file') :
    file'.stored = file.stored ∧ file'.Untouched ∧
      ∃ ids, Json.getField "episodeIds" file'.fields = some (.arr ids) ∧ ids ≠ [] ∧ ids.Nodup ∧
        (∀ id ∈ ids, id ∈ valid) ∧ ids = dedupe (file.targets b) := by
  unfold File.toEpisodes at h
  dsimp only at h
  split at h
  · cases h
  · rename_i hvalid
    rw [not_or, not_exists] at hvalid
    cases h
    refine ⟨rfl, (hfile.set (by decide) _).set (by decide) _, dedupe (file.targets b),
      Json.getField_setField_self _ _ _, dedupe_ne_nil hvalid.1, nodup_dedupe _, ?_, rfl⟩
    intro id hid
    by_contra hnot
    exact hvalid.2 id ⟨mem_dedupe.1 hid, hnot⟩

end Checks

end ManualImports

end Foreseerr

import Foreseerr.Double
import Foreseerr.JsText
import Foreseerr.Migrating

/-!
# Settings migrations

`standalone/settingsmigrations.rs`: the migrations that `settings.json` goes through when
the server starts, in their order. Some are recorded in the document's `migrations` and
skipped from then on, others only look whether there is still something to do.

Two of them call out: `0002` asks Jellyfin for an API key, `0007` renames tags in Radarr
and Sonarr. What is answered is the `Network` of a run.
-/

namespace Foreseerr

namespace SettingsMigrations

open Json Migrating

/-- The fields of an object. -/
abbrev Fields := List (String × Json)

/-! ## Around a run -/

/-- What is read of the administrator's row. -/
structure Admin where
  jellyfinAuthToken : Option String
  jellyfinDeviceId : Option String

/-- What is read of a user's row. -/
structure User where
  id : Int
  username : Option String
  plexUsername : Option String
  jellyfinUsername : Option String
  email : Option String

/-- What a run finds: the environment, the database and how texts are written and read. -/
structure Env where
  jellyfinType : Option String
  version : String
  /-- The row of the user with id 1. -/
  admin : Except String (Option Admin)
  users : Except String (List User)
  numberString : ℚ → String
  toLowercase : String → String
  /-- A text with its diacritics apart from their letters. -/
  nfd : String → String
  stringify : Json → String
  stringifyPretty : Json → String
  parse : String → Except String Json

/-- What Jellyfin, Radarr and Sonarr answer. -/
structure Network where
  /-- `POST /Auth/Keys` at an address and with an authorization. -/
  postKey : String → String → Except String Unit
  getKeys : String → String → Except String Json
  getTags : Json → Except String Json
  putTag : Json → String → Json → Except String Unit

/-! ## Parts of the settings -/

/-- `main_mut`. -/
def mainOf (settings : Doc) : Except String Fields :=
  match getField "main" settings with
  | some (.obj main) => .ok main
  | _ => .error "undefined (reading 'main') is missing"

/-- The object a part is, an empty one where there is nothing true. -/
def orEmpty (part error : String) (settings : Doc) : Except String Fields :=
  match (getField part settings).filter truthy with
  | none => .ok []
  | some (.obj fields) => .ok fields
  | some _ => .error error

/-- `jobs_mut`. -/
def jobsOf (settings : Doc) : Except String Fields :=
  orEmpty "jobs" "settings.jobs is not an object" settings

/-- `has_migration`. -/
def hasMigration (settings : Doc) (name : String) : Bool :=
  (((getField "migrations" settings).bind asArray).getD []).any fun n => n.asStr = some name

/-- `record`. -/
def record (name : String) (settings : Doc) : Doc :=
  setField "migrations"
    (.arr (((getField "migrations" settings).bind asArray).getD [] ++ [.str name])) settings

/-- `schedule`. -/
def schedule (cron : String) : Json := .obj [("schedule", .str cron)]

/-- A value is this number. -/
def isNumber (n : ℚ) : Option Json → Bool
  | some (.num m) => m = n
  | _ => false

/-! ## 0001: the host name of Jellyfin -/

/-- What may follow the host: nothing, or a path on one line. -/
def tailOk : List Char → Bool
  | [] => true
  | '/' :: tail => tail.all fun c => c.toNat ∉ [0xa, 0xd, 0x2028, 0x2029]
  | _ => false

/-- A text that is not empty. -/
def nonEmpty (text : List Char) : Option (List Char) := if text = [] then none else some text

/-- A host cut off here: with a port, or without one. -/
def hostAt (ip after : List Char) : Option (List Char × Option (List Char) × Option (List Char)) :=
  let plain := if tailOk after then some (ip, none, nonEmpty after) else none
  match after with
  | ':' :: portPart =>
    let port := portPart.takeWhile Char.isDigit
    let tail := portPart.dropWhile Char.isDigit
    if port ≠ [] ∧ tailOk tail then some (ip, some port, nonEmpty tail) else plain
  | _ => plain

/-- `split_host`: the longest host that leaves a port or a path. -/
def splitHost (rest : List Char) :
    Option (List Char × Option (List Char) × Option (List Char)) :=
  let run := (rest.takeWhile (· ≠ ':')).length
  (List.range run).reverse.findSome? fun n => hostAt (rest.take (n + 1)) (rest.drop (n + 1))

/-- `split_scheme`, and whether it is `https`. -/
def splitScheme (hostname : List Char) : Bool × List Char :=
  let starts := fun (scheme : List Char) =>
    (hostname.take scheme.length).map Char.toLower = scheme
  if starts "https://".toList then (true, hostname.drop 8)
  else if starts "http://".toList then (false, hostname.drop 7)
  else (false, hostname)

/-- The number of a port. -/
def portNumber (port : List Char) : Json :=
  if digitsValue 10 port < 2 ^ 63 then .num (digitsValue 10 port)
  else ((double (digitsValue 10 port)).map num).getD .null

/-- A Jellyfin section whose host name has been split. -/
def splitJellyfin (hostname : String) (jellyfin : Fields) : Fields :=
  let (useSsl, remaining) := splitScheme hostname.toList
  let rest := removeField "hostname" jellyfin
  match splitHost remaining with
  | none => rest
  | some (ip, port, urlBase) =>
    let port := (port.map portNumber).getD (.num (if useSsl then 443 else 80))
    let base := match (urlBase.getD []).reverse with
      | '/' :: base => base.reverse
      | _ => urlBase.getD []
    setField "urlBase" (.str (String.ofList base)) (setField "useSsl" (.bool useSsl)
      (setField "port" port (setField "ip" (.str (String.ofList ip)) rest)))

example : splitHost "jf.local:8096/jellyfin/".toList
    = some ("jf.local".toList, some "8096".toList, some "/jellyfin/".toList) := by decide +kernel
example : splitHost "a/b:xyz".toList = some ("a".toList, none, some "/b:xyz".toList) := by
  decide +kernel

/-- `migrate_hostname`. -/
def migrateHostname (settings : Doc) : Except String Doc :=
  match getField "jellyfin" settings with
  | some (.obj jellyfin) =>
    match (getField "hostname" jellyfin).filter truthy with
    | none => .ok settings
    | some (.str hostname) =>
      .ok (setField "jellyfin" (.obj (splitJellyfin hostname jellyfin)) settings)
    | some _ => .error "the hostname is not text"
  | _ => .ok settings

/-! ## 0002: an API key for Jellyfin -/

/-- The media server is Jellyfin or Emby. -/
def isJellyfinOrEmby (main : Fields) : Bool :=
  isNumber 2 (getField "mediaServerType" main) || isNumber 3 (getField "mediaServerType" main)

/-- `create_api_token`. -/
def createApiToken (net : Network) (base auth : String) : Except String Json := do
  net.postKey base auth
  let keys ← net.getKeys base auth
  match (keys.get "Items").bind asArray with
  | none => .error "no Items in /Auth/Keys"
  | some items =>
    let ours := items.reverse.find? fun item => (item.get "AppName").bind asStr = some "Foreseerr"
    match ours.bind (Json.get "AccessToken") with
    | none => .error "the new key is not listed"
    | some key => .ok key

/-- The address Jellyfin is called at. -/
def jellyfinBase (env : Env) (settings : Doc) : String :=
  let field := fun key => jsText env.numberString (entryAt settings "jellyfin" key)
  let scheme := if (entryAt settings "jellyfin" "useSsl").any truthy then "https" else "http"
  scheme ++ "://" ++ field "ip" ++ ":" ++ field "port" ++ field "urlBase"

/-- The authorization of the administrator. -/
def authorization (env : Env) (admin : Admin) : String :=
  let device := (admin.jellyfinDeviceId.filter (· ≠ "")).getD "Qk9UX3NlZXJy"
  let token := match admin.jellyfinAuthToken.filter (· ≠ "") with
    | none => ""
    | some token => ", Token=\"" ++ token ++ "\""
  "MediaBrowser Client=\"Foreseerr\", Device=\"Foreseerr\", DeviceId=\"" ++ device
    ++ "\", Version=\"" ++ env.version ++ "\"" ++ token

/-- The key is put into the Jellyfin section. -/
def setApiKey (settings : Doc) (key : Json) : Except String Doc :=
  match getField "jellyfin" settings with
  | some (.obj jellyfin) =>
    .ok (setField "jellyfin" (.obj (setField "apiKey" key jellyfin)) settings)
  | _ => .error "undefined (setting 'apiKey') is missing"

/-- An API key is created as the administrator, where there is one. -/
def createKey (env : Env) (net : Network) (settings : Doc) : Except String Doc := do
  match ← env.admin with
  | none => .ok settings
  | some admin =>
    match createApiToken net (jellyfinBase env settings) (authorization env admin) with
    | .ok key => setApiKey settings key
    | .error _ => .error ("Failed to create Jellyfin API token from admin account. Please check "
        ++ "your network configuration or edit your settings.json by adding an 'apiKey' field "
        ++ "inside of the 'jellyfin' section to fix this issue.")

/-- `migrate_api_tokens`. -/
def migrateApiTokens (env : Env) (net : Network) (settings : Doc) : Except String Doc := do
  let main ← mainOf settings
  if (entryAt settings "jellyfin" "apiKey").any truthy ∨ ¬ isJellyfinOrEmby main then .ok settings
  else createKey env net settings

/-! ## 0003 to 0006 -/

/-- `migrate_emby`. -/
def migrateEmby (env : Env) (settings : Doc) : Except String Doc := do
  let main ← mainOf settings
  if isNumber 2 (getField "mediaServerType" main) ∧ env.jellyfinType = some "emby" then
    .ok (setField "main" (.obj (setField "mediaServerType" (.num 3) main)) settings)
  else .ok settings

/-- `migrate_region`. -/
def migrateRegion (settings : Doc) : Except String Doc := do
  let main ← mainOf settings
  if (getField "discoverRegion" main).isSome ∧ (getField "streamingRegion" main).isSome then
    .ok settings
  else
    let (discover, streaming) := match (getField "region" main).filter truthy with
      | some old => (old, old)
      | none => (.str "", .str "US")
    .ok (setField "main" (.obj (removeField "region"
      (setField "streamingRegion" streaming (setField "discoverRegion" discover main)))) settings)

/-- `default_proxy`. -/
def defaultProxy : Json :=
  .obj [("enabled", .bool false), ("hostname", .str ""), ("port", .num 8080),
    ("useSsl", .bool false), ("user", .str ""), ("password", .str ""), ("bypassFilter", .str ""),
    ("bypassLocalAddresses", .bool true)]

/-- The options that move, and what they are where `main` has none. -/
def networkOptions : List (String × Json) :=
  [("csrfProtection", .bool false), ("trustProxy", .bool false), ("forceIpv4First", .bool false),
    ("proxy", defaultProxy)]

/-- `migrate_network`. -/
def migrateNetwork (settings : Doc) : Except String Doc :=
  if (getField "network" settings).any truthy then .ok settings
  else do
    let main ← mainOf settings
    let network := networkOptions.map fun option =>
      (option.1, ((getField option.1 main).filter fun v => ¬ v.isNull).getD option.2)
    let rest := networkOptions.foldl (fun main option => removeField option.1 main) main
    .ok (setField "network" (.obj network) (setField "main" (.obj rest) settings))

/-- `remove_lunasea`. -/
def removeLunasea (settings : Doc) : Doc :=
  match getField "notifications" settings with
  | some (.obj notifications) =>
    match getField "agents" notifications with
    | some (.obj agents) =>
      if (getField "lunasea" agents).any truthy then
        setField "notifications"
          (.obj (setField "agents" (.obj (removeField "lunasea" agents)) notifications)) settings
      else settings
    | _ => settings
  | _ => settings

/-! ## 0007: the users' tags -/

/-- `display_name`. -/
def displayName (env : Env) (user : User) : String :=
  match [user.username, user.plexUsername, user.jellyfinUsername].findSome?
      fun name => name.filter (· ≠ "") with
  | some name => name
  | none => env.toLowercase (user.email.getD "")

/-- White space becomes hyphens, one for a run of it, and what is no letter, digit or
hyphen is dropped. -/
def hyphenated : Bool → List Char → List Char
  | _, [] => []
  | lastSpace, c :: name =>
    if isWhiteSpace c then
      if lastSpace then hyphenated true name else '-' :: hyphenated true name
    else if (c.isAlphanum && c.toNat < 128) || c = '-' then c :: hyphenated false name
    else hyphenated false name

/-- Runs of hyphens as one. -/
def collapsed : List Char → List Char
  | '-' :: '-' :: text => collapsed ('-' :: text)
  | c :: text => c :: collapsed text
  | [] => []

/-- `sanitize_display_name`. -/
def sanitizeDisplayName (env : Env) (name : String) : String :=
  let base := (env.nfd name).toList.filter fun c => ¬ (0x300 ≤ c.toNat ∧ c.toNat ≤ 0x36f)
  String.ofList (trimEnd (· = '-') ((collapsed (hyphenated false base)).dropWhile (· = '-')))

/-- A user's tag: the first whose label starts with the user's id. -/
def findTag (user : User) : List Json → Except String (Option Json)
  | [] => .ok none
  | tag :: tags =>
    match (tag.get "label").bind asStr with
    | none => .error "a label is not text"
    | some label =>
      let starts := fun (text : String) => text.toList.isPrefixOf label.toList
      if starts (toString user.id ++ " - ") ∨ starts (toString user.id ++ "-") then .ok (some tag)
      else findTag user tags

/-- One user's tag gets its new label. -/
def renameTag (env : Env) (net : Network) (server : Json) (tags : List Json) (user : User) :
    Except String Unit := do
  match ← findTag user tags with
  | none => .ok ()
  | some tag =>
    let id := (tag.get "id").getD .null
    let label := toString user.id ++ "-" ++ sanitizeDisplayName env (displayName env user)
    net.putTag server ("/tag/" ++ jsString env.numberString id)
      (.obj [("id", id), ("label", .str label)])

/-- `rename_user_tags`. -/
def renameUserTags (env : Env) (net : Network) (users : List User) (server : Json) :
    Except String Unit := do
  let tags ← net.getTags server
  users.forM (renameTag env net server ((tags.asArray).getD []))

/-- The servers of a kind. A text has characters, none of which is tagged. -/
def serversAt (kind : String) (settings : Doc) : Except String (List Json) :=
  match (getField kind settings).filter truthy with
  | some (.arr servers) => .ok servers
  | none | some (.str _) => .ok []
  | some _ => .error ("settings." ++ kind ++ " is not a list")

/-- The servers on which requests are tagged. -/
def taggedServers (servers : List Json) : List Json :=
  servers.filter fun server => (server.get "tagRequests").any truthy

/-- `migrate_arr_tags`. A server that fails is tried again the next time. -/
def migrateArrTags (env : Env) (net : Network) (name : String) (settings : Doc) :
    Except String Doc :=
  if hasMigration settings name then .ok settings
  else do
    let users ← env.users
    let radarr ← serversAt "radarr" settings
    let sonarr ← serversAt "sonarr" settings
    if (taggedServers (radarr ++ sonarr)).all fun s => (renameUserTags env net users s).isOk then
      .ok (record name settings)
    else .ok settings

/-! ## 0008 to 0015 -/

/-- An entry under a new key. -/
def moveField (old new : String) (fields : Fields) : Fields :=
  match getField old fields with
  | none => fields
  | some value => removeField old (setField new value fields)

/-- The keys of `main` that 0008 renames. -/
def blocklistKeys : List (String × String) :=
  [("hideBlacklisted", "hideBlocklisted"), ("blacklistedTags", "blocklistedTags"),
    ("blacklistedTagsLimit", "blocklistedTagsLimit")]

/-- `main` with its blocklist keys renamed. -/
def renameMain (settings : Doc) : Doc :=
  match getField "main" settings with
  | some (.obj main) => setField "main"
      (.obj (blocklistKeys.foldl (fun main key => moveField key.1 key.2 main) main)) settings
  | _ => settings

/-- The jobs with the blocklist job renamed. -/
def renameJob (settings : Doc) : Doc :=
  match getField "jobs" settings with
  | some (.obj jobs) =>
    if (getField "process-blacklisted-tags" jobs).any truthy then
      setField "jobs" (.obj (moveField "process-blacklisted-tags" "process-blocklisted-tags" jobs))
        settings
    else settings
  | _ => settings

/-- `migrate_blocklist`. -/
def migrateBlocklist (name : String) (settings : Doc) : Doc :=
  if hasMigration settings name then settings
  else record name (renameJob (renameMain settings))

/-- `release_calendar`. -/
def releaseCalendar (name : String) (settings : Doc) : Except String Doc :=
  if hasMigration settings name then .ok settings
  else do
    let jobs ← jobsOf settings
    let jobs := if (getField "release-calendar-sync" jobs).any truthy then jobs
      else setField "release-calendar-sync" (schedule "0 0 */6 * * *") jobs
    .ok (record name (setField "jobs" (.obj jobs) settings))

/-- The network options with the old timeout raised. -/
def raiseTimeout (settings : Doc) : Doc :=
  match getField "network" settings with
  | some (.obj network) =>
    if isNumber 10000 (getField "apiRequestTimeout" network) then
      setField "network" (.obj (setField "apiRequestTimeout" (.num 60000) network)) settings
    else settings
  | _ => settings

/-- `arr_request_timeout`. -/
def arrRequestTimeout (name : String) (settings : Doc) : Doc :=
  if hasMigration settings name then settings else record name (raiseTimeout settings)

/-- A scan that is missing or has its factory schedule gets the new one. -/
def reschedule (id old : String) (jobs : Fields) : Fields :=
  let keep := ((getField id jobs).filter truthy).any fun job =>
    (job.get "schedule").bind asStr ≠ some old
  if keep then jobs else setField id (schedule "0 */15 * * * *") jobs

/-- `arr_scan_interval`. -/
def arrScanInterval (name : String) (settings : Doc) : Except String Doc :=
  if hasMigration settings name then .ok settings
  else do
    let jobs ← jobsOf settings
    let jobs := reschedule "radarr-scan" "0 0 4 * * *" jobs
    let jobs := reschedule "sonarr-scan" "0 30 4 * * *" jobs
    .ok (record name (setField "jobs" (.obj jobs) settings))

/-- Whether a Simkl client id is set up. -/
def simklConfigured (simkl : Fields) : Except String Bool :=
  match getField "clientId" simkl with
  | none | some .null => .ok false
  | some (.str id) => .ok (jsTrim id.toList ≠ [])
  | some _ => .error "settings.simkl.clientId.trim is not a function"

/-- Simkl is turned on where it was set up, if nobody has chosen. -/
def chooseSimkl (simkl : Fields) : Except String Fields :=
  match getField "enabled" simkl with
  | some (.bool _) => .ok simkl
  | _ => do .ok (setField "enabled" (.bool (← simklConfigured simkl)) simkl)

/-- `simkl_builtin_client`. -/
def simklBuiltinClient (name : String) (settings : Doc) : Except String Doc :=
  if hasMigration settings name then .ok settings
  else do
    let simkl ← orEmpty "simkl" "an object at settings.simkl is missing" settings
    let simkl ← chooseSimkl simkl
    .ok (record name (setField "simkl" (.obj simkl) settings))

/-! ## The migrations in order -/

/-- The migrations. -/
inductive Migration
  | hostname
  | apiTokens
  | emby
  | region
  | network
  | lunasea
  | arrTags
  | blocklist
  | calendarSync
  | calendarInterval
  | requestTimeout
  | arrScan
  | simklClient
deriving DecidableEq, Repr

/-- The name a migration is recorded by. -/
def Migration.name : Migration → String
  | hostname => "0001_migrate_hostname"
  | apiTokens => "0002_migrate_apitokens"
  | emby => "0003_emby_media_server_type"
  | region => "0004_migrate_region_setting"
  | network => "0005_migrate_network_settings"
  | lunasea => "0006_remove_lunasea"
  | arrTags => "0007_migrate_arr_tags"
  | blocklist => "0008_migrate_blacklist_to_blocklist"
  | calendarSync => "0011_release_calendar_sync_5m"
  | calendarInterval => "0012_restore_release_calendar_sync_interval"
  | requestTimeout => "0013_increase_arr_request_timeout"
  | arrScan => "0014_arr_scan_15m"
  | simklClient => "0015_simkl_builtin_client"

/-- `NAMES`, in order. -/
def migrations : List Migration :=
  [.hostname, .apiTokens, .emby, .region, .network, .lunasea, .arrTags, .blocklist, .calendarSync,
    .calendarInterval, .requestTimeout, .arrScan, .simklClient]

/-- `apply`. -/
def apply (env : Env) (net : Network) (m : Migration) (settings : Doc) : Except String Doc :=
  match m with
  | .hostname => migrateHostname settings
  | .apiTokens => migrateApiTokens env net settings
  | .emby => migrateEmby env settings
  | .region => migrateRegion settings
  | .network => migrateNetwork settings
  | .lunasea => .ok (removeLunasea settings)
  | .arrTags => migrateArrTags env net m.name settings
  | .blocklist => .ok (migrateBlocklist m.name settings)
  | .calendarSync | .calendarInterval => releaseCalendar m.name settings
  | .requestTimeout => .ok (arrRequestTimeout m.name settings)
  | .arrScan => arrScanInterval m.name settings
  | .simklClient => simklBuiltinClient m.name settings

/-- All migrations, one after another. -/
def applyAll (env : Env) (net : Network) (settings : Doc) : Except String Doc :=
  migrations.foldlM (fun settings m => apply env net m settings) settings

/-! ## A run over the files -/

/-- A name is one of the request routing's. -/
def isRouting (name : String) : Bool :=
  "0009_".toList.isPrefixOf name.toList || "0010_".toList.isPrefixOf name.toList

/-- The names that stay in the ledger. -/
def keptNames : List Json → Except String (List Json)
  | [] => .ok []
  | name :: names =>
    match name.asStr with
    | none => .error "a name is not text"
    | some text => do
      let kept ← keptNames names
      .ok (if isRouting text then kept else name :: kept)

/-- The ledger without the names of the request routing. -/
def dropNames (settings : Doc) : Except String Doc :=
  match getField "migrations" settings with
  | some (.arr names) => do .ok (setField "migrations" (.arr (← keptNames names)) settings)
  | _ => .ok settings

/-- `drop_request_routing`. -/
def dropRequestRouting (settings : Doc) : Except String Doc := do
  let settings ← dropNames settings
  .ok (removeField "requestFilters" (removeField "requestRouting" settings))

/-- `unsupported`: the names this build has no migration for. -/
def unsupported (env : Env) (settings : Doc) : List String :=
  ((((getField "migrations" settings).bind asArray).getD []).map (jsString env.numberString)).filter
    fun name => ¬ (migrations.map Migration.name).contains name

/-- The two files. -/
inductive File
  | settings
  | backup
deriving DecidableEq, Repr

/-- The files with their texts and paths, and which can be written. -/
structure Disk where
  text : File → Option String
  path : File → String
  writable : File → Bool

/-- `write`. A file that can't be written is left as it is. -/
def Disk.write (disk : Disk) (file : File) (text : String) : Except String Disk :=
  if disk.writable file then .ok { disk with text := Function.update disk.text file (some text) }
  else .error ("writing " ++ disk.path file)

/-- What is written at the end: the settings that have changed, or else the backup as it was
before. -/
def writeOutcome (env : Env) (original after : Json) (oldBackup : Option String) (disk : Disk) :
    Except String Unit × Disk :=
  if env.stringify original ≠ env.stringify after then
    match disk.write .settings (env.stringifyPretty after) with
    | .error e => (.error e, disk)
    | .ok disk =>
      match env.parse (env.stringifyPretty after) with
      | .error e => (.error e, disk)
      | .ok saved =>
        if env.stringify saved ≠ env.stringify after then
          (.error "Unable to save settings after migration.", disk)
        else (.ok (), disk)
  else
    match oldBackup.filter (· ≠ "") with
    | none => (.ok (), disk)
    | some old =>
      match disk.write .backup old with
      | .error e => (.error e, disk)
      | .ok disk => (.ok (), disk)

/-- `write_with_backup`, with the migrated document. -/
def writeWithBackup (env : Env) (net : Network) (original : Json) (settings : Doc) (disk : Disk) :
    Except String Json × Disk :=
  let oldBackup := disk.text .backup
  match disk.write .backup (env.stringifyPretty original) with
  | .error e => (.error e, disk)
  | .ok disk =>
    match applyAll env net settings with
    | .error e => (.error e, disk)
    | .ok migrated =>
      match writeOutcome env original (.obj migrated) oldBackup disk with
      | (.error e, disk) => (.error e, disk)
      | (.ok _, disk) => (.ok (.obj migrated), disk)

/-- The document the migrations start from: an object without request routing and of no
newer server. -/
def prepare (env : Env) (original : Json) : Except String Doc :=
  match original with
  | .obj settings => do
    let settings ← dropRequestRouting settings
    if unsupported env settings ≠ [] then .error "settings.json was written by a newer Foreseerr"
    else .ok settings
  | _ => .error "a settings.json that is not an object is missing"

/-- `run`: the migrated document, and the files. -/
def run (env : Env) (net : Network) (original : Json) (disk : Disk) : Except String Json × Disk :=
  match prepare env original with
  | .error e => (.error e, disk)
  | .ok settings => writeWithBackup env net original settings disk

end SettingsMigrations

end Foreseerr

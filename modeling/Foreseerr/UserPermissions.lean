import Foreseerr.Run
import Mathlib.Data.List.Nodup
import Mathlib.Data.List.Dedup
import Mathlib.Algebra.Order.Ring.Int

/-!
# Who gives the ADMIN permission

Three routes set the permissions of users that exist, and each asks
`can_make_permissions_change`, for which only the owner, user 1, may grant `ADMIN`. New
users take theirs from `main.defaultPermissions`, which the creation and the imports hand
on without asking, and which any administrator may write (`UserPermissions.admin_by_default`).

While the default has no `ADMIN` bit whenever someone else than the owner creates a user,
nobody but the owner gives it to anyone, and nobody else changes the owner's permissions
(`UserPermissions.only_owner_grants_iff`).
-/

namespace Foreseerr

namespace UserPermissions

/-! ## Users and settings -/

/-- `ADMIN`. -/
def admin : Int64 := 2

/-- `MANAGE_USERS`. -/
def manageUsers : Int64 := 8

/-- The columns of a `user` row that the routes read and write. -/
structure UserRecord where
  id : Int := 0
  email : Option String := none
  username : Option String := none
  plexUsername : Option String := none
  jellyfinUsername : Option String := none
  plexId : Option Int := none
  jellyfinUserId : Option String := none
  permissions : Int64 := 0
  avatar : String := ""
  userType : Int := 0
deriving DecidableEq, Repr

/-- Whether a bitmask has the `ADMIN` bit. -/
def hasAdmin (value : Int64) : Bool := value &&& admin != 0

/-- `has_permission`. -/
def hasPermission (value required : Int64) : Bool :=
  required == 0 || hasAdmin value || value &&& required != 0

/-- `can_make_permissions_change`. -/
def canMakePermissionsChange (permissions : Int64) (viewer : UserRecord) : Bool :=
  !(hasAdmin permissions && viewer.id != 1)

/-- The users and the settings the routes read: `main.defaultPermissions` and
`main.mediaServerType`, where they are integers, and whether the email agent is enabled.
New users get ids that no user has had. -/
structure Accounts where
  users : List UserRecord
  defaultPermissions : Option Int64
  mediaServerType : Option Int
  emailEnabled : Bool
  nextId : Int
  fresh : ∀ u ∈ users, u.id < nextId
  ids : (users.map (·.id)).Nodup

/-- `typeorm::insert`. -/
def Accounts.insert (s : Accounts) (row : UserRecord) : Accounts :=
  { s with
    users := s.users ++ [{ row with id := s.nextId }]
    nextId := s.nextId + 1
    fresh := by
      intro u hu
      rcases List.mem_append.mp hu with hu | hu
      · have := s.fresh u hu
        omega
      · obtain rfl := List.mem_singleton.mp hu
        show s.nextId < s.nextId + 1
        omega
    ids := by
      rw [List.map_append, List.nodup_append]
      refine ⟨s.ids, List.nodup_singleton _, fun a ha b hb hab => ?_⟩
      obtain ⟨u, hu, rfl⟩ := List.mem_map.mp ha
      obtain rfl : b = s.nextId := by simpa using hb
      exact absurd (s.fresh u hu) (by omega) }

/-- `UPDATE "user" SET .. WHERE "id" = ?`, of other columns than the id. -/
def Accounts.update (s : Accounts) (id : Int) (columns : UserRecord → UserRecord) : Accounts :=
  { s with
    users := s.users.map fun u => if u.id = id then { columns u with id := u.id } else u
    fresh := by
      intro u hu
      obtain ⟨u₀, hu₀, rfl⟩ := List.mem_map.mp hu
      have := s.fresh u₀ hu₀
      split <;> exact this
    ids := by
      rw [List.map_map]
      have hid : ((fun u : UserRecord => u.id) ∘ fun u : UserRecord =>
          if u.id = id then { columns u with id := u.id } else u) = fun u => u.id := by
        funext u
        simp only [Function.comp_apply]
        split <;> rfl
      rw [hid]
      exact s.ids }

/-- `user_record`. -/
def Accounts.user (s : Accounts) (id : Int) : Option UserRecord := s.users.find? (·.id == id)

/-- `authenticated`: the viewer, if there is one with the permission. -/
def Accounts.authenticated (s : Accounts) (viewer : Int) (required : Int64) : Option UserRecord :=
  (s.user viewer).filter fun u => hasPermission u.permissions required

/-! ## The routes -/

/-- What a route answers; `forward` is the answer of the fallback. -/
inductive Reply
  | ok (status : Nat)
  | error (status : Nat) (message : String)
  | forward (why : String)
deriving DecidableEq, Repr

/-- The refusal of a grant. -/
def noGrant : Reply := .error 403 "You do not have permission to grant this level of access"

/-- The refusal of a change to a user. -/
def noModify : Reply := .error 403 "You do not have permission to modify this user"

/-- The body of `POST /user`, as its fields were checked. -/
structure CreateBody where
  email : Option String := none
  username : Option String := none
  password : Option String := none
  avatar : Option String := none

/-- What the routes are built over: `to_lowercase` and `gravatar_url`, and which
statements about users succeed (`saved`), by the text that names the user. -/
structure Env where
  lower : String → String
  gravatar : String → String
  saved : String → Bool

/-- `create`: `POST /user`. -/
def create (env : Env) (s : Accounts) (body : CreateBody) : Reply × Accounts :=
  match (body.email.filter (· ≠ "")).or body.username with
  | none => (.error 500 "An email or a username is required.", s)
  | some email =>
    match s.defaultPermissions with
    | none => (.forward "defaultPermissions isn't an integer", s)
    | some permissions =>
      if s.users.any (·.email == some (env.lower email)) then
        (.error 409 "User already exists with submitted email.", s)
      else if email = "" then
        (.error 500 "Please specify an identifier, such as an email address", s)
      else if (body.password.filter (· ≠ "")).isNone && !s.emailEnabled then
        (.error 500 "Email notifications must be enabled", s)
      else if !env.saved email then (.error 500 "creating the user failed", s)
      else
        (.ok 201, s.insert
          { email := some (env.lower email)
            avatar := body.avatar.getD (env.gravatar email)
            username := body.username
            permissions := permissions
            userType := 2 })

/-- `Shared`: one shared Plex user with an email. -/
structure Shared where
  id : Int
  rawId : String
  email : String
  username : String
  thumb : String
deriving DecidableEq, Repr

/-- What the import from Plex meets: the `plexIds` of its body or why they are refused,
plex.tv's answer, and which shared users have access. -/
structure PlexImport where
  wanted : Except String (Option (List String))
  shared : Except Reply (List Shared)
  access : Int → Bool

/-- `import_one`: the users after it; `none` when a statement fails. -/
def importOne (env : Env) (wanted : Option (List String)) (access : Int → Bool)
    (permissions : Int64) (s : Accounts) (user : Shared) : Option Accounts :=
  let email := env.lower user.email
  match s.users.find? fun u => u.plexId == some user.id || u.email == some email with
  | some row =>
    if env.saved user.rawId then
      some (s.update row.id fun u =>
        let u := { u with avatar := user.thumb, email := some email, plexUsername := some user.username }
        if row.userType = 2 then { u with userType := 1, plexId := some user.id } else u)
    else none
  | none =>
    if wanted.any (fun ids => user.rawId ∉ ids) then some s
    else if !access user.id then some s
    else if env.saved user.rawId then
      some (s.insert
        { plexUsername := some user.username
          email := some email
          permissions := permissions
          plexId := some user.id
          avatar := user.thumb
          userType := 1 })
    else none

/-- The loop over the shared users; whether it came to its end. -/
def importShared (env : Env) (wanted : Option (List String)) (access : Int → Bool)
    (permissions : Int64) : Accounts → List Shared → Accounts × Bool
  | s, [] => (s, true)
  | s, user :: rest =>
    match importOne env wanted access permissions s user with
    | none => (s, false)
    | some s => importShared env wanted access permissions s rest

/-- `import_from_plex`. -/
def importFromPlex (env : Env) (s : Accounts) (request : PlexImport) : Reply × Accounts :=
  match s.defaultPermissions with
  | none => (.forward "defaultPermissions isn't an integer", s)
  | some permissions =>
    if (s.user 1).isNone then (.forward "no user 1; findOneOrFail throws", s)
    else
      match request.shared, request.wanted with
      | .error reply, _ => (reply, s)
      | .ok _, .error why => (.forward why, s)
      | .ok shared, .ok wanted =>
        let imported := importShared env wanted request.access permissions s shared
        (if imported.2 then .ok 201 else .error 500 "importing a user failed", imported.1)

/-- A user as Jellyfin's `/Users` lists it. -/
structure JellyfinUser where
  id : Option String
  name : Option String
deriving DecidableEq, Repr

/-- `normalize_jellyfin_guid`. -/
def normalizeJellyfinGuid (lower : String → String) (value : String) : Option String :=
  let normalized := lower (String.ofList (value.toList.filter (· ≠ '-')))
  if normalized.utf8ByteSize = 32
      ∧ normalized.toList.all (fun c => c.isDigit || 'a' ≤ c && c ≤ 'f' || 'A' ≤ c && c ≤ 'F') then
    some normalized
  else none

/-- `by_id`: the listed users under their normalized ids, the last of an id. -/
def usersById (lower : String → String) :
    List JellyfinUser → Except String (List (String × JellyfinUser))
  | users => users.foldlM (fun byId user =>
      match user.id with
      | none => .error "a Jellyfin user without an Id"
      | some id =>
        match normalizeJellyfinGuid lower id with
        | none => .ok byId
        | some guid => .ok (byId.filter (·.1 ≠ guid) ++ [(guid, user)])) []

/-- `plan_imports`: the names and ids of the users to create. -/
def planImports (lower : String → String) (s : Accounts) (rawIds : List String)
    (users : List JellyfinUser) : Except String (List (String × String)) := do
  let byId ← usersById lower users
  rawIds.foldlM (fun imports raw =>
    match normalizeJellyfinGuid lower raw with
    | none => .ok imports
    | some guid =>
      if imports.any (·.2 == guid) || s.users.any (·.jellyfinUserId == some guid) then .ok imports
      else
        match byId.find? (·.1 == guid) with
        | none => .error "an id Jellyfin doesn't list"
        | some (_, user) =>
          match user.name, user.id with
          | some name, some id =>
            if id ≠ guid then .error "a Jellyfin id that isn't normalized"
            else .ok (imports ++ [(name, id)])
          | _, _ => .error "a Jellyfin user without a name") []

/-- The loop over the planned imports; whether it came to its end. -/
def importPlanned (env : Env) (permissions : Int64) (userType : Int) :
    Accounts → List (String × String) → Accounts × Bool
  | s, [] => (s, true)
  | s, (name, id) :: rest =>
    if env.saved name then
      importPlanned env permissions userType (s.insert
        { email := some (env.lower name)
          jellyfinUsername := some name
          jellyfinUserId := some id
          permissions := permissions
          avatar := "/avatarproxy/" ++ id
          userType := userType }) rest
    else (s, false)

/-- `import_from_jellyfin`; `users` is `none` where Jellyfin's list can't be had. -/
def importFromJellyfin (env : Env) (s : Accounts) (rawIds : List String)
    (users : Option (List JellyfinUser)) : Reply × Accounts :=
  match s.defaultPermissions with
  | none => (.forward "defaultPermissions isn't an integer", s)
  | some permissions =>
    if (s.user 1).isNone then (.forward "no user 1; findOneOrFail throws", s)
    else
      match users with
      | none => (.error 500 "", s)
      | some users =>
        match planImports env.lower s rawIds users with
        | .error why => (.forward why, s)
        | .ok imports =>
          let userType := if s.mediaServerType = some 2 then 3 else 4
          let imported := importPlanned env permissions userType s imports
          (if imported.2 then .ok 201 else .error 500 "creating a user failed", imported.1)

/-- The loop of `bulk_update` over the users that exist. -/
def updateAll (env : Env) (permissions : Option Int64) : Accounts → List Int → Accounts × Bool
  | s, [] => (s, true)
  | s, id :: rest =>
    match s.user id, permissions with
    | some user, some n =>
      if n = user.permissions then updateAll env permissions s rest
      else if env.saved (toString id) then
        updateAll env permissions (s.update id fun u => { u with permissions := n }) rest
      else (s, false)
    | _, _ => updateAll env permissions s rest

/-- `bulk_update`: `PUT /user`. -/
def bulkUpdate (env : Env) (s : Accounts) (viewer : UserRecord) (ids : Option (List Int))
    (permissions : Option Int64) : Reply × Accounts :=
  if !canMakePermissionsChange (permissions.getD 0) viewer then (noGrant, s)
  else
    match ids with
    | none => (.error 500 "The request body has no ids.", s)
    | some ids =>
      let ids := if viewer.id ≠ 1 then ids.filter (· ≠ 1) else ids
      let ids := (ids.mergeSort (· ≤ ·)).dedup
      let updated := updateAll env permissions s ids
      (if updated.2 then .ok 200 else .error 500 "updating a user failed", updated.1)

/-- `update`: `PUT /user/{id}`. -/
def update (env : Env) (s : Accounts) (viewer : UserRecord) (id : Int) (username : Option String)
    (permissions : Option Int64) : Reply × Accounts :=
  match s.user id with
  | none => (.error 404 "User not found.", s)
  | some user =>
    if user.id = 1 ∧ viewer.id ≠ 1 then (noModify, s)
    else if !canMakePermissionsChange (permissions.getD 0) viewer then (noGrant, s)
    else if (username.any fun name => some name ≠ user.username)
        || permissions.any (· ≠ user.permissions) then
      if env.saved (toString id) then
        (.ok 200, s.update id fun u =>
          { u with username := username.or u.username, permissions := permissions.getD u.permissions })
      else (.error 404 "User not found.", s)
    else (.ok 200, s)

/-- `permissions`: `POST /user/{id}/settings/permissions`. -/
def setPermissions (env : Env) (s : Accounts) (viewer : UserRecord) (id : Int)
    (permissions : Option Int64) : Reply × Accounts :=
  match permissions with
  | none => (.error 400 "permissions is required.", s)
  | some n =>
    match s.user id with
    | none => (.error 404 "User not found.", s)
    | some user =>
      if user.id = 1 ∨ viewer.id = user.id then (noModify, s)
      else if !canMakePermissionsChange n viewer then (noGrant, s)
      else if env.saved (toString id) then
        (.ok 200, s.update id fun u => { u with permissions := n })
      else (.error 500 "saving the permissions failed", s)

/-- What a body merges into `main`: a number for `defaultPermissions` or
`mediaServerType`, which may not be an integer, or nothing. -/
structure MainBody where
  defaultPermissions : Option (Option Int64) := none
  mediaServerType : Option (Option Int) := none

/-- `main`: `POST /settings/main`. -/
def setMain (env : Env) (s : Accounts) (body : MainBody) : Reply × Accounts :=
  if env.saved "main" then
    (.ok 200,
      { s with
        defaultPermissions := body.defaultPermissions.getD s.defaultPermissions
        mediaServerType := body.mediaServerType.getD s.mediaServerType })
  else (.forward "lodash would merge an object into an array", s)

/-- A request to one of the routes. -/
inductive Route
  | create (body : CreateBody)
  | importFromPlex (request : PlexImport)
  | importFromJellyfin (rawIds : List String) (users : Option (List JellyfinUser))
  | bulkUpdate (ids : Option (List Int)) (permissions : Option Int64)
  | update (id : Int) (username : Option String) (permissions : Option Int64)
  | setPermissions (id : Int) (permissions : Option Int64)
  | setMain (body : MainBody)

/-- The permission the route requires. -/
def Route.required : Route → Int64
  | .setMain _ => admin
  | _ => manageUsers

/-- What an authenticated viewer's request does. -/
def Route.handle (env : Env) (s : Accounts) (viewer : UserRecord) : Route → Reply × Accounts
  | .create body => UserPermissions.create env s body
  | .importFromPlex request => UserPermissions.importFromPlex env s request
  | .importFromJellyfin rawIds users => UserPermissions.importFromJellyfin env s rawIds users
  | .bulkUpdate ids permissions => UserPermissions.bulkUpdate env s viewer ids permissions
  | .update id username permissions => UserPermissions.update env s viewer id username permissions
  | .setPermissions id permissions => UserPermissions.setPermissions env s viewer id permissions
  | .setMain body => UserPermissions.setMain env s body

/-- A request, by its viewer, and what it meets. -/
structure Act where
  viewer : Int
  env : Env
  route : Route

/-- The answer to a request, and the accounts after it. -/
def Act.run (act : Act) (s : Accounts) : Reply × Accounts :=
  match s.authenticated act.viewer act.route.required with
  | none => (.forward "the user lacks the permission", s)
  | some viewer => act.route.handle act.env s viewer

/-- A step: a request is handled. -/
def Step (s : Accounts) (act : Act) (t : Accounts) : Prop := t = (act.run s).2

/-! ## What is promised, and when -/

/-- **Only the owner grants**: a request of anyone else gives `ADMIN` to no user who did
not have it, creates no user with it, and leaves the owner's permissions. -/
def Act.OnlyOwnerGrants (act : Act) (s t : Accounts) : Prop :=
  act.viewer ≠ 1 →
    (∀ u ∈ s.users, ∀ v ∈ t.users, v.id = u.id → hasAdmin v.permissions = true →
        hasAdmin u.permissions = true)
      ∧ (∀ v ∈ t.users, (∀ u ∈ s.users, u.id ≠ v.id) → hasAdmin v.permissions = false)
      ∧ ∀ u ∈ s.users, ∀ v ∈ t.users, u.id = 1 → v.id = 1 → v.permissions = u.permissions

/-- The condition on a request: where it is not the owner's and a user is created, the
default permissions have no `ADMIN` bit. -/
def Ok (s : Accounts) (act : Act) : Prop :=
  act.viewer ≠ 1 → s.nextId < (act.run s).2.nextId →
    ∀ permissions, s.defaultPermissions = some permissions → hasAdmin permissions = false

/-! ## What a request can do to the users -/

/-- **What a creation or an import leaves**: every user from before, with its permissions,
and new ones with the default permissions. -/
structure Creates (permissions : Int64) (s t : Accounts) : Prop where
  next : s.nextId ≤ t.nextId
  rows : ∀ v ∈ t.users, (∃ u ∈ s.users, u.id = v.id ∧ v.permissions = u.permissions)
    ∨ s.nextId ≤ v.id ∧ v.permissions = permissions
  kept : ∀ u ∈ s.users, ∃ v ∈ t.users, v.id = u.id
  created : s.nextId < t.nextId → ∃ v ∈ t.users, s.nextId ≤ v.id

/-- **What a change leaves**: the users from before, each with its permissions as they
were, or with others that the viewer may give it. -/
structure Updates (viewer : Int) (s t : Accounts) : Prop where
  next : t.nextId = s.nextId
  rows : ∀ v ∈ t.users, ∃ u ∈ s.users, u.id = v.id ∧ (v.permissions = u.permissions
    ∨ viewer = 1 ∨ u.id ≠ 1 ∧ hasAdmin v.permissions = false)

section Leaves

variable {permissions : Int64} {viewer : Int} {s t u : Accounts}

theorem Creates.refl (s : Accounts) : Creates permissions s s :=
  ⟨le_refl _, fun v hv => .inl ⟨v, hv, rfl, rfl⟩, fun u hu => ⟨u, hu, rfl⟩,
    fun h => absurd h (lt_irrefl _)⟩

theorem Creates.trans (hst : Creates permissions s t) (htu : Creates permissions t u) :
    Creates permissions s u := by
  refine ⟨hst.next.trans htu.next, fun w hw => ?_, fun x hx => ?_, fun hnew => ?_⟩
  · rcases htu.rows w hw with ⟨v, hv, hid, hperm⟩ | ⟨hnew, hperm⟩
    · rcases hst.rows v hv with ⟨x, hx, hid', hperm'⟩ | ⟨hnew, hperm'⟩
      · exact .inl ⟨x, hx, hid'.trans hid, hperm.trans hperm'⟩
      · exact .inr ⟨hid ▸ hnew, hperm.trans hperm'⟩
    · exact .inr ⟨hst.next.trans hnew, hperm⟩
  · obtain ⟨v, hv, hid⟩ := hst.kept x hx
    obtain ⟨w, hw, hid'⟩ := htu.kept v hv
    exact ⟨w, hw, hid'.trans hid⟩
  · by_cases hfirst : s.nextId < t.nextId
    · obtain ⟨v, hv, hle⟩ := hst.created hfirst
      obtain ⟨w, hw, hid⟩ := htu.kept v hv
      exact ⟨w, hw, hid ▸ hle⟩
    · have heq : s.nextId = t.nextId := le_antisymm hst.next (not_lt.mp hfirst)
      obtain ⟨w, hw, hle⟩ := htu.created (heq ▸ hnew)
      exact ⟨w, hw, heq ▸ hle⟩

theorem Updates.refl (s : Accounts) : Updates viewer s s :=
  ⟨rfl, fun v hv => ⟨v, hv, rfl, .inl rfl⟩⟩

theorem Updates.trans (hst : Updates viewer s t) (htu : Updates viewer t u) :
    Updates viewer s u := by
  refine ⟨htu.next.trans hst.next, fun w hw => ?_⟩
  obtain ⟨v, hv, hid, hperm⟩ := htu.rows w hw
  obtain ⟨x, hx, hid', hperm'⟩ := hst.rows v hv
  refine ⟨x, hx, hid'.trans hid, ?_⟩
  rcases hperm with heq | howner | ⟨hne, hnot⟩
  · rw [heq]
    exact hperm'
  · exact .inr (.inl howner)
  · exact .inr (.inr ⟨hid' ▸ hne, hnot⟩)

theorem creates_insert (s : Accounts) {row : UserRecord} (hrow : row.permissions = permissions) :
    Creates permissions s (s.insert row) := by
  have hnew : { row with id := s.nextId } ∈ (s.insert row).users :=
    List.mem_append_right _ (List.mem_singleton_self _)
  refine ⟨?_, fun v hv => ?_, fun u hu => ⟨u, List.mem_append_left _ hu, rfl⟩,
    fun _ => ⟨_, hnew, le_refl _⟩⟩
  · show s.nextId ≤ s.nextId + 1
    omega
  · rcases List.mem_append.mp hv with hv | hv
    · exact .inl ⟨v, hv, rfl, rfl⟩
    · obtain rfl := List.mem_singleton.mp hv
      exact .inr ⟨le_refl _, hrow⟩

theorem creates_update (s : Accounts) (id : Int) {columns : UserRecord → UserRecord}
    (hcolumns : ∀ u, (columns u).permissions = u.permissions) :
    Creates permissions s (s.update id columns) := by
  refine ⟨le_refl _, fun v hv => ?_, fun u hu => ⟨_, List.mem_map_of_mem hu, ?_⟩,
    fun h => absurd h (lt_irrefl _)⟩
  · obtain ⟨u, hu, rfl⟩ := List.mem_map.mp hv
    refine .inl ⟨u, hu, ?_⟩
    split
    · exact ⟨rfl, hcolumns u⟩
    · exact ⟨rfl, rfl⟩
  · dsimp only
    split <;> rfl

/-- An update of a user that the viewer may change, to permissions that it may give. -/
theorem updates_update (s : Accounts) {id : Int} {columns : UserRecord → UserRecord}
    (hcolumns : ∀ u, (columns u).permissions = u.permissions ∨ viewer = 1
      ∨ id ≠ 1 ∧ hasAdmin (columns u).permissions = false) :
    Updates viewer s (s.update id columns) := by
  refine ⟨rfl, fun v hv => ?_⟩
  obtain ⟨u, hu, rfl⟩ := List.mem_map.mp hv
  refine ⟨u, hu, ?_⟩
  by_cases hid : u.id = id
  · rw [if_pos hid, hid]
    exact ⟨rfl, hcolumns u⟩
  · rw [if_neg hid]
    exact ⟨rfl, .inl rfl⟩

end Leaves

section Routes

variable {env : Env} {s : Accounts} {viewer : UserRecord} {permissions : Int64}

/-- Who may make the change is the owner, or gives no `ADMIN`. -/
theorem canMakePermissionsChange_iff :
    canMakePermissionsChange permissions viewer = true
      ↔ viewer.id = 1 ∨ hasAdmin permissions = false := by
  by_cases howner : viewer.id = 1 <;> simp [canMakePermissionsChange, howner]

theorem create_creates (hdefault : s.defaultPermissions = some permissions) (body : CreateBody) :
    Creates permissions s (create env s body).2 := by
  unfold create
  split
  · exact .refl s
  · rw [hdefault]
    dsimp only
    split_ifs
    all_goals first | exact .refl s | exact creates_insert s rfl

theorem importOne_creates {wanted : Option (List String)} {access : Int → Bool} {user : Shared}
    {t : Accounts} (h : importOne env wanted access permissions s user = some t) :
    Creates permissions s t := by
  unfold importOne at h
  dsimp only at h
  split at h
  · split at h
    · cases h
      refine creates_update s _ fun u => ?_
      split <;> rfl
    · cases h
  · split_ifs at h
    · cases h
      exact .refl s
    · cases h
      exact .refl s
    · cases h
      exact creates_insert s rfl

theorem importShared_creates (wanted : Option (List String)) (access : Int → Bool)
    (shared : List Shared) (s : Accounts) :
    Creates permissions s (importShared env wanted access permissions s shared).1 := by
  induction shared generalizing s with
  | nil => exact .refl s
  | cons user rest ih =>
    unfold importShared
    cases hone : importOne env wanted access permissions s user with
    | none => exact .refl s
    | some t => exact (importOne_creates hone).trans (ih t)

theorem importFromPlex_creates (hdefault : s.defaultPermissions = some permissions)
    (request : PlexImport) : Creates permissions s (importFromPlex env s request).2 := by
  unfold importFromPlex
  rw [hdefault]
  dsimp only
  split
  · exact .refl s
  · split
    · exact .refl s
    · exact .refl s
    · exact importShared_creates _ _ _ s

theorem importPlanned_creates (userType : Int) (imports : List (String × String)) (s : Accounts) :
    Creates permissions s (importPlanned env permissions userType s imports).1 := by
  induction imports generalizing s with
  | nil => exact .refl s
  | cons head rest ih =>
    obtain ⟨name, id⟩ := head
    unfold importPlanned
    split
    · exact Creates.trans (creates_insert s rfl) (ih _)
    · exact .refl s

theorem importFromJellyfin_creates (hdefault : s.defaultPermissions = some permissions)
    (rawIds : List String) (users : Option (List JellyfinUser)) :
    Creates permissions s (importFromJellyfin env s rawIds users).2 := by
  unfold importFromJellyfin
  rw [hdefault]
  dsimp only
  split
  · exact .refl s
  · split
    · exact .refl s
    · split
      · exact .refl s
      · exact importPlanned_creates _ _ s

/-- Users that the viewer may change, one after another. -/
theorem updateAll_updates {given : Option Int64}
    (hgiven : viewer.id = 1 ∨ hasAdmin (given.getD 0) = false) {ids : List Int}
    (hids : viewer.id = 1 ∨ 1 ∉ ids) (s : Accounts) :
    Updates viewer.id s (updateAll env given s ids).1 := by
  induction ids generalizing s with
  | nil => exact .refl s
  | cons id rest ih =>
    have ih := ih (hids.imp_right fun h hmem => h (List.mem_cons_of_mem _ hmem))
    unfold updateAll
    split
    · next user n _ =>
      split
      · exact ih s
      · split
        · refine Updates.trans (updates_update s fun u => ?_) (ih _)
          rcases hgiven with howner | hnot
          · exact .inr (.inl howner)
          · rcases hids with howner | hne
            · exact .inr (.inl howner)
            · exact .inr (.inr ⟨fun h => hne (h ▸ List.mem_cons_self), hnot⟩)
        · exact .refl s
    · exact ih s

theorem bulkUpdate_updates (ids : Option (List Int)) (given : Option Int64) :
    Updates viewer.id s (bulkUpdate env s viewer ids given).2 := by
  unfold bulkUpdate
  split
  · exact .refl s
  · next hcan =>
    rw [Bool.not_eq_true, Bool.not_eq_false', canMakePermissionsChange_iff] at hcan
    split
    · exact .refl s
    · next ids =>
      refine updateAll_updates hcan ?_ s
      by_cases howner : viewer.id = 1
      · exact .inl howner
      · simp [howner]

theorem update_updates (id : Int) (username : Option String) (given : Option Int64) :
    Updates viewer.id s (update env s viewer id username given).2 := by
  unfold update
  cases huser : s.user id with
  | none => exact .refl s
  | some user =>
    have hid : user.id = id := by simpa using List.find?_some huser
    dsimp only
    by_cases hrefused : user.id = 1 ∧ viewer.id ≠ 1
    · rw [if_pos hrefused]
      exact .refl s
    · rw [if_neg hrefused]
      split
      · exact .refl s
      · next hcan =>
        rw [Bool.not_eq_true, Bool.not_eq_false', canMakePermissionsChange_iff] at hcan
        split
        · split
          · refine updates_update s fun u => ?_
            cases given with
            | none => exact .inl rfl
            | some n =>
              rcases hcan with howner | hnot
              · exact .inr (.inl howner)
              · by_cases howner : viewer.id = 1
                · exact .inr (.inl howner)
                · exact .inr (.inr ⟨fun h => hrefused ⟨hid.trans h, howner⟩, hnot⟩)
          · exact .refl s
        · exact .refl s

theorem setPermissions_updates (id : Int) (given : Option Int64) :
    Updates viewer.id s (setPermissions env s viewer id given).2 := by
  unfold setPermissions
  split
  · exact .refl s
  · next n =>
    cases huser : s.user id with
    | none => exact .refl s
    | some user =>
      have hid : user.id = id := by simpa using List.find?_some huser
      dsimp only
      split
      · exact .refl s
      · next hrefused =>
        split
        · exact .refl s
        · next hcan =>
          rw [Bool.not_eq_true, Bool.not_eq_false', canMakePermissionsChange_iff] at hcan
          split
          · refine updates_update s fun u => ?_
            rcases hcan with howner | hnot
            · exact .inr (.inl howner)
            · exact .inr (.inr ⟨fun h => hrefused (.inl (hid.trans h)), hnot⟩)
          · exact .refl s

end Routes

/-- **A request creates users or updates them**: one with the default permissions, the
other within what its viewer may give. -/
theorem run_cases (act : Act) (s : Accounts) :
    (∃ permissions, s.defaultPermissions = some permissions
        ∧ Creates permissions s (act.run s).2)
      ∨ Updates act.viewer s (act.run s).2 := by
  unfold Act.run
  cases hviewer : s.authenticated act.viewer act.route.required with
  | none => exact .inr (.refl s)
  | some viewer =>
    have hid : viewer.id = act.viewer := by
      have huser := (Option.filter_eq_some_iff.mp hviewer).1
      simpa using List.find?_some huser
    dsimp only
    rw [← hid]
    have hnone : ∀ t : Accounts, t = s → Updates viewer.id s t := fun t heq => heq.symm ▸ .refl s
    cases hroute : act.route with
    | create body =>
      cases hdefault : s.defaultPermissions with
      | none =>
        refine .inr (hnone _ ?_)
        show (create act.env s body).2 = s
        unfold create
        rw [hdefault]
        split <;> rfl
      | some permissions => exact .inl ⟨permissions, rfl, create_creates hdefault body⟩
    | importFromPlex request =>
      cases hdefault : s.defaultPermissions with
      | none =>
        refine .inr (hnone _ ?_)
        show (importFromPlex act.env s request).2 = s
        unfold importFromPlex
        rw [hdefault]
      | some permissions => exact .inl ⟨permissions, rfl, importFromPlex_creates hdefault request⟩
    | importFromJellyfin rawIds users =>
      cases hdefault : s.defaultPermissions with
      | none =>
        refine .inr (hnone _ ?_)
        show (importFromJellyfin act.env s rawIds users).2 = s
        unfold importFromJellyfin
        rw [hdefault]
      | some permissions =>
        exact .inl ⟨permissions, rfl, importFromJellyfin_creates hdefault rawIds users⟩
    | bulkUpdate ids given => exact .inr (bulkUpdate_updates ids given)
    | update id username given => exact .inr (update_updates id username given)
    | setPermissions id given => exact .inr (setPermissions_updates id given)
    | setMain body =>
      right
      show Updates viewer.id s (setMain act.env s body).2
      unfold setMain
      split
      · exact ⟨rfl, fun v hv => ⟨v, hv, rfl, .inl rfl⟩⟩
      · exact .refl s

/-- **One request** grants within what the owner alone may give exactly under the
condition. -/
theorem onlyOwnerGrants_iff {s t : Accounts} {act : Act} (h : Step s act t) :
    act.OnlyOwnerGrants s t ↔ Ok s act := by
  obtain rfl : t = (act.run s).2 := h
  refine forall_congr' fun hviewer => ?_
  have hsame : ∀ u ∈ s.users, ∀ w ∈ s.users, w.id = u.id → w = u := fun u hu w hw hid =>
    List.inj_on_of_nodup_map s.ids hw hu hid
  rcases run_cases act s with ⟨permissions, hdefault, hcreates⟩ | hupdates
  · constructor
    · rintro ⟨-, hnew, -⟩ hcreated permissions' hdefault'
      obtain rfl : permissions' = permissions := Option.some.inj (hdefault'.symm.trans hdefault)
      obtain ⟨v, hv, hle⟩ := hcreates.created hcreated
      have hfresh : ∀ u ∈ s.users, u.id ≠ v.id := fun u hu heq => by
        have := s.fresh u hu
        omega
      rcases hcreates.rows v hv with ⟨u, hu, hid, -⟩ | ⟨-, hperm⟩
      · exact absurd hid (hfresh u hu)
      · exact hperm ▸ hnew v hv hfresh
    · intro hok
      refine ⟨fun u hu v hv hid hadmin => ?_, fun v hv hfresh => ?_, fun u hu v hv hu1 hv1 => ?_⟩
      · rcases hcreates.rows v hv with ⟨w, hw, hid', hperm⟩ | ⟨hle, -⟩
        · rw [← hsame u hu w hw (hid'.trans hid), ← hperm]
          exact hadmin
        · have := s.fresh u hu
          omega
      · rcases hcreates.rows v hv with ⟨w, hw, hid', -⟩ | ⟨hle, hperm⟩
        · exact absurd hid' (hfresh w hw)
        · rw [hperm]
          have hbound := (act.run s).2.fresh v hv
          exact hok (hle.trans_lt hbound) permissions hdefault
      · rcases hcreates.rows v hv with ⟨w, hw, hid', hperm⟩ | ⟨hle, -⟩
        · rw [hperm, hsame u hu w hw (hid'.trans (hv1.trans hu1.symm))]
        · have := s.fresh u hu
          omega
  · have hok : Ok s act := by
      intro _ hcreated
      exact absurd hupdates.next hcreated.ne'
    refine ⟨fun _ => hok hviewer, fun _ => ⟨fun u hu v hv hid hadmin => ?_, fun v hv hfresh => ?_,
      fun u hu v hv hu1 hv1 => ?_⟩⟩
    · obtain ⟨w, hw, hid', hperm⟩ := hupdates.rows v hv
      obtain rfl := hsame u hu w hw (hid'.trans hid)
      rcases hperm with hperm | howner | ⟨-, hnot⟩
      · exact hperm ▸ hadmin
      · exact absurd howner hviewer
      · simp [hnot] at hadmin
    · obtain ⟨w, hw, hid', -⟩ := hupdates.rows v hv
      exact absurd hid' (hfresh w hw)
    · obtain ⟨w, hw, hid', hperm⟩ := hupdates.rows v hv
      obtain rfl := hsame u hu w hw (hid'.trans (hv1.trans hu1.symm))
      rcases hperm with hperm | howner | ⟨hne, -⟩
      · exact hperm
      · exact absurd howner hviewer
      · exact absurd hu1 hne

/-- **Only the owner grants `ADMIN`** in every request of a run exactly when every
request of the run meets the condition. -/
theorem only_owner_grants_iff {s t : Accounts} {acts : List Act} :
    Run (Guarded Step Ok) s acts t
      ↔ Run (fun s act t => Step s act t ∧ act.OnlyOwnerGrants s t) s acts t := by
  refine Run.congr fun s act t => ?_
  constructor
  · intro ⟨hok, hstep⟩
    exact ⟨hstep, (onlyOwnerGrants_iff hstep).mpr hok⟩
  · intro ⟨hstep, hgrants⟩
    exact ⟨(onlyOwnerGrants_iff hstep).mp hgrants, hstep⟩

/-! ### An administrator's default -/

/-- The owner, and an administrator. -/
def twoAdmins : Accounts where
  users := [{ id := 1, permissions := admin }, { id := 2, permissions := admin }]
  defaultPermissions := some 32
  mediaServerType := some 1
  emailEnabled := false
  nextId := 3
  fresh := by decide
  ids := by decide

/-- Every statement succeeds. -/
def plain : Env where
  lower := id
  gravatar := id
  saved := fun _ => true

/-- The administrator makes `ADMIN` the default. -/
def makeDefault : Act := ⟨2, plain, .setMain { defaultPermissions := some (some admin) }⟩

/-- The administrator creates a user. -/
def createUser : Act :=
  ⟨2, plain, .create { email := some "c@example.test", password := some "secret" }⟩

/-- **An administrator grants `ADMIN`** by the default permissions. -/
theorem admin_by_default :
    ∃ s t, Run Step twoAdmins [makeDefault] s ∧ Step s createUser t
      ∧ ¬ createUser.OnlyOwnerGrants s t := by
  refine ⟨_, _, .single rfl, rfl, fun hgrants => ?_⟩
  have hnew := (hgrants (by decide)).2.1 _ (List.mem_append_right _ (List.mem_singleton_self _))
    (by decide)
  exact absurd hnew (by decide)

end UserPermissions

end Foreseerr

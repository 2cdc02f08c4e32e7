import Foreseerr.SimklLibrary
import Mathlib.Data.List.Nodup
import Mathlib.Logic.Function.Basic

/-!
# Refreshing a user's Trakt tokens

`routes/procstate/traktrefresh.rs` reads the link of a user from
`user_settings`, compares it with the tokens the caller has, and asks Trakt
for a new pair. Trakt's refresh tokens serve once, so that the pair that
comes back has to be stored whatever happens next. Where the link has no
account id yet, the profile is read with the new pair, and the id and the
name go into the same `UPDATE` as the pair.

A unique index is over the account ids. When the profile's id is on another
user's row the whole statement fails, and the pair is lost with it
(`TraktRefresh.pair_thrown_away`). In all other cases the pair is stored
(`TraktRefresh.keepsPair_iff`).
-/

namespace Foreseerr

namespace TraktRefresh

/-- A thrown error: its name and message. -/
structure Thrown where
  name : String
  message : String
deriving DecidableEq, Repr

/-! ## The settings rows -/

/-- The columns of a Trakt link. -/
inductive LinkColumn
  | accessToken
  | refreshToken
  | tokenExpiresAt
  | username
  | userId
deriving DecidableEq, Repr

/-- A row of `user_settings`: its link columns and the others. -/
structure SettingsRow where
  id : Int
  user : Option Int
  trakt : LinkColumn → Option String
  others : List (String × Json) := []

/-- What a link column holds, an empty text being none. -/
def SettingsRow.text (row : SettingsRow) (column : LinkColumn) : Option String :=
  (row.trakt column).filter (· ≠ "")

/-- The stored expiry, zero where there is none. -/
def SettingsRow.expiresAt (row : SettingsRow) : Option ℚ :=
  match row.text .tokenExpiresAt with
  | none => some 0
  | some text => numberOfStr text.toList

/-- The table, and the users whose Trakt cache was invalidated. -/
structure Store where
  rows : List SettingsRow
  invalidated : List Int := []

/-- The account ids the unique index is over. -/
def accounts (rows : List SettingsRow) : List String := rows.filterMap (·.trakt .userId)

/-- The keys of the table. -/
structure Valid (rows : List SettingsRow) : Prop where
  ids : (rows.map (·.id)).Nodup
  users : (rows.filterMap (·.user)).Nodup
  accounts : (accounts rows).Nodup

/-- An `UPDATE ... WHERE "id" = ?` of the link columns. It fails where the
account ids would not stay apart. -/
def updateLink (rows : List SettingsRow) (id : Int)
    (f : (LinkColumn → Option String) → LinkColumn → Option String) :
    Except Thrown (List SettingsRow) :=
  let after := rows.map fun row => if row.id = id then { row with trakt := f row.trakt } else row
  if (accounts after).Nodup then .ok after
  else .error ⟨"DatabaseError", "UNIQUE constraint failed: user_settings.traktUserId"⟩

/-! ## What a refresh reads and writes -/

/-- `Latest`: the stored link. -/
structure Latest where
  settingsId : Int
  access : String
  refresh : String
  expiresAt : Option ℚ
  hasUserId : Bool

/-- The link of a row, where both tokens are there. -/
def SettingsRow.link (row : SettingsRow) : Option Latest := do
  let access ← row.text .accessToken
  let refresh ← row.text .refreshToken
  some
    { settingsId := row.id
      access := access
      refresh := refresh
      expiresAt := row.expiresAt
      hasUserId := (row.text .userId).isSome }

/-- `latest`. -/
def latest (rows : List SettingsRow) (user : Int) : Option Latest :=
  (rows.find? (·.user = some user)).bind SettingsRow.link

/-- What `token_state` hands back. -/
structure Tokens where
  access : Option Json
  refresh : Option Json
  expiresAt : Option ℚ

/-- What the request to Trakt comes to. -/
inductive HttpAnswer
  /-- It could not be sent. -/
  | unsent (message : String)
  /-- A status, and the body if it could be read. -/
  | response (status : Nat) (body : Except String Json)

/-- `Refreshed`. -/
inductive Refreshed
  | payload (payload : Json)
  | rejected (status : Nat)

/-- `post_refresh`. -/
def postRefresh : HttpAnswer → Except Thrown Refreshed
  | .unsent message => .error ⟨"RequestError", message⟩
  | .response status body =>
    if status = 400 ∨ status = 401 then .ok (.rejected status)
    else if ¬ (200 ≤ status ∧ status < 300) then
      .error ⟨"Error", "Trakt token refresh failed with status " ++ toString status⟩
    else match body with
      | .error message => .error ⟨"RequestError", message⟩
      | .ok payload => .ok (.payload payload)

/-- `Applied`: what a payload leaves, the raw tokens it returns, the pair the
client goes on with and the expiry. -/
structure Applied where
  access : Option Json
  refresh : Option Json
  clientAccess : String
  clientRefresh : String
  expiresAt : Option ℚ

/-- A field of the payload that is not falsy. -/
def truthyField (payload : Json) (key : String) : Option Json :=
  (payload.get key).filter Json.truthy

/-- A field's number, or zero. -/
def orNumber (payload : Json) (key : String) : Option ℚ :=
  match truthyField payload key with
  | none => some 0
  | some value => SimklLibrary.numberOf (some value)

/-- The expiry a payload sets: none, zero and no number keep the old one. -/
def expiryOf (payload : Json) (old : Option ℚ) (now : Int) : Option ℚ :=
  match orNumber payload "expires_in" with
  | none => old
  | some expiresIn =>
    if expiresIn = 0 then old
    else
      let base := match orNumber payload "created_at" with
        | some created => if created > 0 then created else ((now / 1000 : Int) : ℚ)
        | none => ((now / 1000 : Int) : ℚ)
      some (base + expiresIn)

variable (numberString : ℚ → String)

/-- `apply_tokens_at`. -/
def applyTokens (payload : Json) (link : Latest) (now : Int) : Applied :=
  let text := fun (value : Option Json) (fallback : String) =>
    (value.map (jsString numberString)).getD fallback
  { access := payload.get "access_token"
    refresh := payload.get "refresh_token"
    clientAccess := text (truthyField payload "access_token") link.access
    clientRefresh := text (truthyField payload "refresh_token") link.refresh
    expiresAt := expiryOf payload link.expiresAt now }

/-- The columns a refresh sets, in order: the pair, the expiry and, where the
profile was read, the account. -/
def writesOf (applied : Applied) (profile : Option (String × String)) :
    List (LinkColumn × Json) :=
  (applied.access.map fun value => (.accessToken, value)).toList
    ++ (applied.refresh.map fun value => (.refreshToken, value)).toList
    ++ [(.tokenExpiresAt, .str (numberText numberString applied.expiresAt))]
    ++ match profile with
      | some (username, account) => [(.userId, .str account), (.username, .str username)]
      | none => []

/-- What a written value leaves in its column. -/
def columnValue : Json → Option String
  | .null => none
  | value => some (jsString numberString value)

/-- The link columns after the writes of a statement. -/
def written (writes : List (LinkColumn × Json)) (trakt : LinkColumn → Option String) :
    LinkColumn → Option String :=
  writes.foldl (fun trakt write => Function.update trakt write.1 (columnValue numberString write.2))
    trakt

/-- `save`. -/
def save (store : Store) (settingsId : Int) (writes : List (LinkColumn × Json)) :
    Except Thrown Store := do
  let rows ← updateLink store.rows settingsId (written numberString writes)
  return { store with rows := rows }

/-- `clear_credentials`. -/
def clearCredentials (store : Store) (settingsId : Int) (user : Option Int) :
    Except Thrown Store := do
  let rows ← updateLink store.rows settingsId fun _ _ => none
  return { rows := rows, invalidated := store.invalidated ++ user.toList }

/-! ## A refresh -/

/-- `RECONNECT`. -/
def reconnect : Thrown :=
  ⟨"TraktReconnectRequiredError", "Trakt authorization expired; reconnect your account"⟩

/-- What a refresh comes to before it asks Trakt. -/
inductive Begun
  | answered (out : Except Thrown Tokens)
  | asks (link : Latest)

/-- The stored pair the caller's tokens are compared with. -/
def sameToken (caller : Json) (key stored : String) : Bool :=
  (caller.get key).bind Json.asStr == some stored

/-- `refresh`, up to the request: the stored link, the caller's tokens and
the application's credentials as the settings have them. -/
def untilRequest (found : Option Latest) (caller : Option Json)
    (credentials : Except Thrown (String × String)) : Begun :=
  match found with
  | none => .answered (.error reconnect)
  | some link =>
    match caller.filter (!·.isNull) with
    | none => .answered (.error ⟨"Error", "No Trakt tokens were given."⟩)
    | some caller =>
      if !sameToken caller "accessToken" link.access
          || !sameToken caller "refreshToken" link.refresh then
        .answered (.ok ⟨some (.str link.access), some (.str link.refresh), link.expiresAt⟩)
      else match credentials with
        | .error e => .answered (.error e)
        | .ok (clientId, clientSecret) =>
          if jsTrim clientId.toList = [] ∨ jsTrim clientSecret.toList = [] then
            .answered (.error ⟨"TraktNotConfiguredError",
              "Trakt application credentials are not configured"⟩)
          else .asks link

/-- `refresh`: with Trakt's answer to the refresh, and to the profile request
where one is made. -/
def refresh (store : Store) (user : Option Int) (caller : Option Json)
    (credentials : Except Thrown (String × String)) (answer : HttpAnswer)
    (profile : Except String (String × String)) (now : Int) : Store × Except Thrown Tokens :=
  match untilRequest (user.bind (latest store.rows)) caller credentials with
  | .answered out => (store, out)
  | .asks link =>
    match postRefresh answer with
    | .error e => (store, .error e)
    | .ok (.rejected _) =>
      match clearCredentials store link.settingsId user with
      | .error e => (store, .error e)
      | .ok store => (store, .error reconnect)
    | .ok (.payload payload) =>
      let applied := applyTokens numberString payload link now
      let account := if link.hasUserId then none else profile.toOption
      match save numberString store link.settingsId (writesOf numberString applied account) with
      | .error e => (store, .error e)
      | .ok store => (store, .ok ⟨applied.access, applied.refresh, applied.expiresAt⟩)

/-! ## The statements -/

variable {numberString} {rows : List SettingsRow} {row : SettingsRow} {store : Store}

/-- Another row holds the account id. -/
def Taken (rows : List SettingsRow) (row : SettingsRow) (account : String) : Prop :=
  ∃ other ∈ rows, other.id ≠ row.id ∧ other.trakt .userId = some account

instance (rows : List SettingsRow) (row : SettingsRow) (account : String) :
    Decidable (Taken rows row account) :=
  inferInstanceAs (Decidable (∃ other ∈ rows, other.id ≠ row.id ∧
    other.trakt .userId = some account))

/-- The rows with one row's link columns replaced. -/
def withLink (rows : List SettingsRow) (id : Int) (trakt : LinkColumn → Option String) :
    List SettingsRow :=
  rows.map fun row => if row.id = id then { row with trakt := trakt } else row

/-- A user has one row. -/
theorem find?_user (hvalid : Valid rows) (hrow : row ∈ rows) {user : Int}
    (huser : row.user = some user) : rows.find? (·.user = some user) = some row := by
  obtain ⟨before, after, rfl⟩ := List.append_of_mem hrow
  have husers := hvalid.users
  rw [List.filterMap_append, List.filterMap_cons_some huser] at husers
  have hnone : before.find? (·.user = some user) = none := by
    rw [List.find?_eq_none]
    intro other hother heq
    have hmem : user ∈ before.filterMap (·.user) :=
      List.mem_filterMap.2 ⟨other, hother, of_decide_eq_true heq⟩
    exact List.disjoint_of_nodup_append husers hmem List.mem_cons_self
  have hfirst : (row :: after).find? (·.user = some user) = some row :=
    List.find?_cons_of_pos (decide_eq_true huser)
  rw [List.find?_append, hnone, hfirst]
  rfl

/-- A replaced row beside the rows that stay. -/
theorem withLink_eq (hids : (rows.map (·.id)).Nodup) (hrow : row ∈ rows) :
    ∃ before after, rows = before ++ row :: after ∧
      (∀ other ∈ before ++ after, other.id ≠ row.id) ∧
      ∀ trakt, withLink rows row.id trakt
        = before ++ { row with trakt := trakt } :: after := by
  obtain ⟨before, after, rfl⟩ := List.append_of_mem hrow
  have hne : ∀ other ∈ before ++ after, other.id ≠ row.id := by
    intro other hother heq
    rw [List.map_append, List.map_cons, List.nodup_middle] at hids
    refine (List.nodup_cons.1 hids).1 ?_
    rw [← heq, ← List.map_append]
    exact List.mem_map_of_mem hother
  refine ⟨before, after, rfl, hne, fun trakt => ?_⟩
  have hstay : ∀ part : List SettingsRow, part ⊆ before ++ after →
      withLink part row.id trakt = part := by
    intro part hpart
    refine (List.map_congr_left fun other hother => ?_).trans (List.map_id part)
    exact if_neg (hne other (hpart hother))
  have hbefore := hstay before (List.subset_append_left _ _)
  have hafter := hstay after (List.subset_append_right _ _)
  unfold withLink at hbefore hafter ⊢
  rw [List.map_append, List.map_cons, hbefore, hafter, if_pos rfl]

/-- **When the unique index allows a new account id**: where no other row
holds it. -/
theorem nodup_accounts_withLink (hvalid : Valid rows) (hrow : row ∈ rows)
    (trakt : LinkColumn → Option String) :
    (accounts (withLink rows row.id trakt)).Nodup
      ↔ ∀ account, trakt .userId = some account → ¬ Taken rows row account := by
  obtain ⟨before, after, rfl, hne, hwith⟩ := withLink_eq hvalid.ids hrow
  have hothers : (accounts (before ++ after)).Nodup := by
    refine hvalid.accounts.sublist ?_
    exact (List.Sublist.append_left (List.sublist_cons_self _ _) _).filterMap _
  have htaken : ∀ account, Taken (before ++ row :: after) row account
      ↔ account ∈ accounts (before ++ after) := by
    intro account
    rw [accounts, List.mem_filterMap]
    constructor
    · rintro ⟨other, hother, hid, hheld⟩
      refine ⟨other, ?_, hheld⟩
      rcases List.mem_append.1 hother with h | h
      · exact List.mem_append_left _ h
      · rcases List.mem_cons.1 h with rfl | h
        · exact absurd rfl hid
        · exact List.mem_append_right _ h
    · rintro ⟨other, hother, hheld⟩
      refine ⟨other, ?_, hne other hother, hheld⟩
      rcases List.mem_append.1 hother with h | h
      · exact List.mem_append_left _ h
      · exact List.mem_append_right _ (List.mem_cons_of_mem _ h)
  rw [hwith trakt]
  cases haccount : trakt .userId with
  | none =>
    have hsame : accounts (before ++ { row with trakt := trakt } :: after)
        = accounts (before ++ after) := by
      simp [accounts, haccount]
    rw [hsame]
    exact ⟨fun _ account h => absurd h (by simp), fun _ => hothers⟩
  | some account =>
    have hadds : accounts (before ++ { row with trakt := trakt } :: after)
        = accounts before ++ account :: accounts after := by
      simp [accounts, haccount]
    rw [hadds, List.nodup_middle, List.nodup_cons, accounts, accounts, ← List.filterMap_append]
    refine ⟨fun h other heq => ?_, fun h => ⟨?_, hothers⟩⟩
    · rw [← Option.some.inj heq, htaken]
      exact h.1
    · exact fun hmem => h account rfl ((htaken account).2 hmem)

/-- The rows an `UPDATE` of one row makes. -/
theorem map_update_eq (hids : (rows.map (·.id)).Nodup) (hrow : row ∈ rows)
    (f : (LinkColumn → Option String) → LinkColumn → Option String) :
    (rows.map fun r => if r.id = row.id then { r with trakt := f r.trakt } else r)
      = withLink rows row.id (f row.trakt) := by
  refine List.map_congr_left fun other hother => ?_
  by_cases hid : other.id = row.id
  · rw [if_pos hid, if_pos hid, List.inj_on_of_nodup_map hids hother hrow hid]
  · rw [if_neg hid, if_neg hid]

/-- The `UPDATE` of a row goes through where no other row holds the account
id it sets. -/
theorem updateLink_of_free (hvalid : Valid rows) (hrow : row ∈ rows)
    {f : (LinkColumn → Option String) → LinkColumn → Option String}
    (hfree : ∀ account, f row.trakt .userId = some account → ¬ Taken rows row account) :
    updateLink rows row.id f = .ok (withLink rows row.id (f row.trakt)) := by
  unfold updateLink
  dsimp only
  rw [map_update_eq hvalid.ids hrow, if_pos ((nodup_accounts_withLink hvalid hrow _).2 hfree)]

theorem updateLink_of_taken (hvalid : Valid rows) (hrow : row ∈ rows)
    {f : (LinkColumn → Option String) → LinkColumn → Option String} {account : String}
    (hset : f row.trakt .userId = some account) (htaken : Taken rows row account) :
    ∃ e, updateLink rows row.id f = .error e := by
  have hconflict : ¬ (accounts (withLink rows row.id (f row.trakt))).Nodup :=
    fun h => (nodup_accounts_withLink hvalid hrow _).1 h account hset htaken
  unfold updateLink
  dsimp only
  rw [map_update_eq hvalid.ids hrow, if_neg hconflict]
  exact ⟨_, rfl⟩

/-! ## What a refresh is to do -/

/-- A user's row, with a pair that is the caller's. -/
structure Linked (rows : List SettingsRow) (user : Int) (row : SettingsRow) (caller : Json) :
    Prop where
  mem : row ∈ rows
  user : row.user = some user
  access : ∃ access, row.text .accessToken = some access ∧
    caller.get "accessToken" = some (.str access)
  refresh : ∃ refresh, row.text .refreshToken = some refresh ∧
    caller.get "refreshToken" = some (.str refresh)

/-- The application's credentials are set. -/
def Configured (credentials : Except Thrown (String × String)) : Prop :=
  ∃ clientId clientSecret, credentials = .ok (clientId, clientSecret) ∧
    jsTrim clientId.toList ≠ [] ∧ jsTrim clientSecret.toList ≠ []

/-- A payload with a pair of tokens. -/
def HasPair (payload : Json) : Prop :=
  ∃ access refresh, access ≠ "" ∧ refresh ≠ "" ∧
    payload.get "access_token" = some (.str access) ∧
    payload.get "refresh_token" = some (.str refresh)

/-- The account a refresh is to fill in: where the row has none, the profile
was read and no other row holds the id. -/
def filledIn (rows : List SettingsRow) (row : SettingsRow)
    (profile : Except String (String × String)) : Option (String × String) :=
  if row.text .userId = none then
    profile.toOption.filter fun account => ¬ Taken rows row account.2
  else none

/-- The link columns with a new pair and its expiry, and the account that is
filled in. -/
def linkWith (numberString : ℚ → String) (trakt : LinkColumn → Option String)
    (access refresh : String) (expiry : Option ℚ) (account : Option (String × String)) :
    LinkColumn → Option String
  | .accessToken => some access
  | .refreshToken => some refresh
  | .tokenExpiresAt => some (numberText numberString expiry)
  | .username => (account.map Prod.fst).or (trakt .username)
  | .userId => (account.map Prod.snd).or (trakt .userId)

/-- **What a refresh leaves and returns.** A new pair is in the row with its
expiry and is returned, and the account is filled in; nothing else changes. A
rejected refresh token clears the link columns and no others. Any other
failure of the request changes nothing. -/
def KeepsPair (numberString : ℚ → String) (store : Store) (row : SettingsRow)
    (answer : HttpAnswer) (profile : Except String (String × String)) (now : Int)
    (after : Store × Except Thrown Tokens) : Prop :=
  match postRefresh answer with
  | .ok (.payload payload) =>
    ∃ access refresh, payload.get "access_token" = some (.str access) ∧
      payload.get "refresh_token" = some (.str refresh) ∧
      after.1.rows = withLink store.rows row.id (linkWith numberString row.trakt access refresh
        (expiryOf payload row.expiresAt now) (filledIn store.rows row profile)) ∧
      after.2 = .ok ⟨some (.str access), some (.str refresh), expiryOf payload row.expiresAt now⟩
  | .ok (.rejected _) =>
    after.1.rows = withLink store.rows row.id (fun _ => none) ∧ after.2 = .error reconnect
  | .error _ => after.1.rows = store.rows

/-- The account id of the profile, where it is written, is on no other row. -/
def AccountFree (rows : List SettingsRow) (row : SettingsRow) (answer : HttpAnswer)
    (profile : Except String (String × String)) : Prop :=
  ∀ payload username account, postRefresh answer = .ok (.payload payload) →
    row.text .userId = none → profile = .ok (username, account) → ¬ Taken rows row account

variable {user : Int} {caller : Json} {credentials : Except Thrown (String × String)}
  {answer : HttpAnswer} {profile : Except String (String × String)} {now : Int}

/-- The link a refresh finds. -/
theorem latest_eq (hvalid : Valid rows) (h : Linked rows user row caller) :
    ∃ access refresh, caller.get "accessToken" = some (.str access) ∧
      caller.get "refreshToken" = some (.str refresh) ∧
      latest rows user
        = some ⟨row.id, access, refresh, row.expiresAt, (row.text .userId).isSome⟩ := by
  obtain ⟨access, haccess, hcallerAccess⟩ := h.access
  obtain ⟨refresh, hrefresh, hcallerRefresh⟩ := h.refresh
  refine ⟨access, refresh, hcallerAccess, hcallerRefresh, ?_⟩
  rw [latest, find?_user hvalid h.mem h.user]
  simp only [SettingsRow.link, Option.bind_eq_bind, Option.bind_some, haccess, hrefresh]

/-- A caller whose pair is the stored one has Trakt asked. -/
theorem untilRequest_eq (hvalid : Valid rows) (h : Linked rows user row caller)
    (hconfigured : Configured credentials) :
    ∃ link, untilRequest (latest rows user) (some caller) credentials = .asks link ∧
      link.settingsId = row.id ∧ link.expiresAt = row.expiresAt ∧
      link.hasUserId = (row.text .userId).isSome := by
  obtain ⟨access, refresh, haccess, hrefresh, hlatest⟩ := latest_eq hvalid h
  obtain ⟨clientId, clientSecret, rfl, hid, hsecret⟩ := hconfigured
  refine ⟨⟨row.id, access, refresh, row.expiresAt, (row.text .userId).isSome⟩, ?_, rfl, rfl, rfl⟩
  have hcaller : (some caller).filter (!·.isNull) = some caller := by
    cases caller with
    | null => cases haccess
    | _ => rfl
  have hsame : sameToken caller "accessToken" access = true ∧
      sameToken caller "refreshToken" refresh = true := by
    rw [sameToken, sameToken, haccess, hrefresh]
    exact ⟨beq_self_eq_true _, beq_self_eq_true _⟩
  unfold untilRequest
  rw [hlatest]
  dsimp only
  rw [hcaller]
  dsimp only
  rw [hsame.1, hsame.2]
  simp [hid, hsecret]

/-- The link columns after the writes of a pair. -/
theorem written_pair (trakt : LinkColumn → Option String) {payload : Json} {link : Latest}
    {access refresh : String} (haccess : payload.get "access_token" = some (.str access))
    (hrefresh : payload.get "refresh_token" = some (.str refresh))
    (account : Option (String × String)) :
    written numberString
        (writesOf numberString (applyTokens numberString payload link now) account) trakt
      = linkWith numberString trakt access refresh
        (expiryOf payload link.expiresAt now) account := by
  funext column
  unfold written writesOf applyTokens
  dsimp only
  rw [haccess, hrefresh]
  cases account <;> cases column <;> rfl

theorem linkWith_userId (trakt : LinkColumn → Option String) (access refresh : String)
    (expiry : Option ℚ) (account : Option (String × String)) :
    linkWith numberString trakt access refresh expiry account .userId
      = (account.map Prod.snd).or (trakt .userId) := rfl

/-- An account id a row already has is on no other row. -/
theorem not_taken_own (hvalid : Valid rows) (hrow : row ∈ rows) {account : String}
    (h : row.trakt .userId = some account) : ¬ Taken rows row account := by
  have hsame : withLink rows row.id row.trakt = rows := by
    refine (map_update_eq hvalid.ids hrow id).symm.trans ?_
    refine (List.map_congr_left fun other _ => ?_).trans (List.map_id rows)
    split <;> rfl
  refine (nodup_accounts_withLink hvalid hrow row.trakt).1 ?_ account h
  rw [hsame]
  exact hvalid.accounts

/-- The account a refresh writes: the profile's, where the row has no id. -/
def writtenAccount (row : SettingsRow) (profile : Except String (String × String)) :
    Option (String × String) :=
  if (row.text .userId).isSome then none else profile.toOption

theorem writtenAccount_eq_some {account : String × String}
    (h : writtenAccount row profile = some account) :
    row.text .userId = none ∧ profile = .ok account := by
  unfold writtenAccount at h
  split at h
  · cases h
  · rename_i hmissing
    refine ⟨Option.not_isSome_iff_eq_none.1 hmissing, ?_⟩
    cases profile with
    | error e => cases h
    | ok read => exact congrArg Except.ok (Option.some.inj h)

/-- Where the account that is written is free, it is the one to fill in. -/
theorem filledIn_eq (hfree : ∀ account, writtenAccount row profile = some account →
      ¬ Taken rows row account.2) :
    filledIn rows row profile = writtenAccount row profile := by
  unfold filledIn
  cases hmissing : row.text .userId with
  | some account => simp [writtenAccount, hmissing]
  | none =>
    have hwritten : writtenAccount row profile = profile.toOption := by
      simp [writtenAccount, hmissing]
    rw [if_pos rfl, hwritten]
    cases hprofile : profile.toOption with
    | none => rfl
    | some account =>
      exact Option.filter_some_pos (decide_eq_true (hfree account (hwritten.trans hprofile)))

/-- A refresh that Trakt answers with a pair: what it does to the row. -/
theorem refresh_payload (hvalid : Valid store.rows)
    (hlinked : Linked store.rows user row caller) (hconfigured : Configured credentials)
    {payload : Json} (hanswer : postRefresh answer = .ok (.payload payload))
    {access refresh : String} (haccess : payload.get "access_token" = some (.str access))
    (hrefresh : payload.get "refresh_token" = some (.str refresh)) :
    TraktRefresh.refresh numberString store (some user) (some caller) credentials answer profile now
      = match updateLink store.rows row.id fun trakt => linkWith numberString trakt access refresh
          (expiryOf payload row.expiresAt now) (writtenAccount row profile) with
        | .error e => (store, .error e)
        | .ok rows => ({ store with rows := rows },
            .ok ⟨some (.str access), some (.str refresh), expiryOf payload row.expiresAt now⟩) := by
  obtain ⟨link, hbegin, hid, hexpiry, hhas⟩ := untilRequest_eq hvalid hlinked hconfigured
  have hwrites : written numberString (writesOf numberString
        (applyTokens numberString payload link now)
        (if link.hasUserId then none else profile.toOption))
      = fun trakt => linkWith numberString trakt access refresh
        (expiryOf payload row.expiresAt now) (writtenAccount row profile) := by
    funext trakt
    rw [written_pair trakt haccess hrefresh, hexpiry, hhas]
    rfl
  unfold TraktRefresh.refresh save
  rw [Option.bind_some, hbegin]
  dsimp only
  rw [hanswer]
  dsimp only
  rw [hwrites, hid]
  cases updateLink store.rows row.id _ with
  | error e => rfl
  | ok rows =>
    show (_, Except.ok (Tokens.mk (applyTokens numberString payload link now).access
      (applyTokens numberString payload link now).refresh _)) = _
    unfold applyTokens
    rw [haccess, hrefresh, hexpiry]

/-- The account ids a refresh leaves in the row are on no other row, where
the one it writes is free. -/
theorem updateLink_linkWith (hvalid : Valid rows) (hrow : row ∈ rows) {access refresh : String}
    {expiry : Option ℚ} (hfree : ∀ account, writtenAccount row profile = some account →
      ¬ Taken rows row account.2) :
    updateLink rows row.id (fun trakt => linkWith numberString trakt access refresh expiry
        (writtenAccount row profile))
      = .ok (withLink rows row.id (linkWith numberString row.trakt access refresh expiry
        (filledIn rows row profile))) := by
  rw [filledIn_eq hfree]
  refine updateLink_of_free hvalid hrow fun account hset => ?_
  rw [linkWith_userId] at hset
  cases hwritten : writtenAccount row profile with
  | none =>
    rw [hwritten] at hset
    exact not_taken_own hvalid hrow hset
  | some written =>
    rw [hwritten] at hset
    have haccount : written.2 = account := Option.some.inj hset
    exact haccount ▸ hfree written hwritten

/-- **When a rotated pair is kept.** For every table, every user whose stored
pair is the caller's and every outcome of the two requests, the refresh does
what it is to do if and only if the profile's account, where it is written, is
on no other row. -/
theorem keepsPair_iff (numberString : ℚ → String) (store : Store) (user : Int) (row : SettingsRow)
    (caller : Json) (credentials : Except Thrown (String × String)) (answer : HttpAnswer)
    (profile : Except String (String × String)) (now : Int)
    (hvalid : Valid store.rows) (hlinked : Linked store.rows user row caller)
    (hconfigured : Configured credentials)
    (hpair : ∀ payload, postRefresh answer = .ok (.payload payload) → HasPair payload) :
    KeepsPair numberString store row answer profile now
        (refresh numberString store (some user) (some caller) credentials answer profile now)
      ↔ AccountFree store.rows row answer profile := by
  obtain ⟨link, hbegin, hid, -, -⟩ := untilRequest_eq hvalid hlinked hconfigured
  unfold KeepsPair AccountFree
  cases hanswer : postRefresh answer with
  | error e =>
    have hkept : (refresh numberString store (some user) (some caller) credentials answer profile
        now).1.rows = store.rows := by
      unfold refresh
      rw [Option.bind_some, hbegin]
      dsimp only
      rw [hanswer]
    exact iff_of_true hkept fun _ _ _ h => by cases h
  | ok refreshed =>
    cases refreshed with
    | rejected status =>
      have hclear : updateLink store.rows row.id (fun _ _ => none)
          = .ok (withLink store.rows row.id fun _ => none) :=
        updateLink_of_free hvalid hlinked.mem fun _ h => by cases h
      have hcleared : refresh numberString store (some user) (some caller) credentials answer
          profile now = ({ rows := withLink store.rows row.id fun _ => none
                           invalidated := store.invalidated ++ [user] }, .error reconnect) := by
        unfold refresh clearCredentials
        rw [Option.bind_some, hbegin]
        dsimp only
        rw [hanswer, hid, hclear]
        rfl
      rw [hcleared]
      exact iff_of_true ⟨rfl, rfl⟩ fun _ _ _ h => by cases h
    | payload payload =>
      obtain ⟨access, next, -, -, haccess, hrefresh⟩ := hpair payload hanswer
      rw [refresh_payload hvalid hlinked hconfigured hanswer haccess hrefresh]
      constructor
      · rintro ⟨_, _, -, -, -, hout⟩ _ username account - hmissing hprofile htaken
        have hwritten : writtenAccount row profile = some (username, account) := by
          rw [writtenAccount, hmissing, hprofile]
          rfl
        have hset : linkWith numberString row.trakt access next (expiryOf payload row.expiresAt now)
            (writtenAccount row profile) .userId = some account := by
          rw [linkWith_userId, hwritten]
          rfl
        obtain ⟨e, hfails⟩ := updateLink_of_taken (f := fun trakt => linkWith numberString trakt
            access next (expiryOf payload row.expiresAt now) (writtenAccount row profile))
          hvalid hlinked.mem hset htaken
        rw [hfails] at hout
        cases hout
      · intro hfree
        rw [updateLink_linkWith hvalid hlinked.mem fun written hwritten => ?_]
        · exact ⟨access, next, haccess, hrefresh, rfl, rfl⟩
        · obtain ⟨hmissing, hprofile⟩ := writtenAccount_eq_some hwritten
          exact hfree payload written.1 written.2 rfl hmissing hprofile

/-! ## A pair that is thrown away -/

/-- The text of a whole number. -/
def wholeText (n : ℚ) : String := toString n.num

/-- The first user's link has no account id, the second user's has one. -/
def sampleStore : Store where
  rows :=
    [{ id := 1
       user := some 1
       trakt := fun
         | .accessToken => some "access"
         | .refreshToken => some "refresh"
         | _ => none },
     { id := 2
       user := some 2
       trakt := fun
         | .accessToken => some "other access"
         | .refreshToken => some "other refresh"
         | .userId => some "account"
         | _ => none }]

/-- The row of the first user. -/
def sampleRow : SettingsRow := sampleStore.rows.head (by decide)

/-- What the first user's caller has. -/
def sampleCaller : Json :=
  .obj [("accessToken", .str "access"), ("refreshToken", .str "refresh")]

/-- Trakt's answer to the refresh. -/
def sampleAnswer : HttpAnswer :=
  .response 200 (.ok (.obj [("access_token", .str "new access"),
    ("refresh_token", .str "new refresh"), ("expires_in", .num 86400), ("created_at", .num 1000)]))

theorem sampleStore_valid : Valid sampleStore.rows where
  ids := by decide
  users := by decide
  accounts := by decide

theorem sampleRow_linked : Linked sampleStore.rows 1 sampleRow sampleCaller where
  mem := List.head_mem _
  user := rfl
  access := ⟨"access", rfl, rfl⟩
  refresh := ⟨"refresh", rfl, rfl⟩

theorem sample_configured : Configured (.ok ("id", "secret")) :=
  ⟨"id", "secret", rfl, by decide, by decide⟩

theorem sampleAnswer_hasPair {payload : Json}
    (h : postRefresh sampleAnswer = .ok (.payload payload)) : HasPair payload := by
  cases h
  exact ⟨"new access", "new refresh", by decide, by decide, rfl, rfl⟩

theorem keepsPair_iff_sample :
    KeepsPair wholeText sampleStore sampleRow sampleAnswer (.ok ("name", "free account")) 0
      (refresh wholeText sampleStore (some 1) (some sampleCaller) (.ok ("id", "secret"))
        sampleAnswer (.ok ("name", "free account")) 0) := by
  refine (keepsPair_iff _ _ _ _ _ _ _ _ _ sampleStore_valid sampleRow_linked sample_configured
    fun _ => sampleAnswer_hasPair).2 ?_
  rintro _ _ _ - - ⟨⟩
  decide

/-- **A rotated pair is thrown away**: the profile's account is on the other
user's row, so the statement fails, the old pair stays in the row and the new
one is nowhere. -/
theorem pair_thrown_away :
    Valid sampleStore.rows ∧ Linked sampleStore.rows 1 sampleRow sampleCaller ∧
      Configured (.ok ("id", "secret")) ∧
      ¬ KeepsPair wholeText sampleStore sampleRow sampleAnswer (.ok ("name", "account")) 0
        (refresh wholeText sampleStore (some 1) (some sampleCaller) (.ok ("id", "secret"))
          sampleAnswer (.ok ("name", "account")) 0) := by
  refine ⟨sampleStore_valid, sampleRow_linked, sample_configured, ?_⟩
  rintro ⟨_, _, -, -, -, hout⟩
  have hfails : (refresh wholeText sampleStore (some 1) (some sampleCaller)
      (.ok ("id", "secret")) sampleAnswer (.ok ("name", "account")) 0).2.toOption = none := by
    decide +kernel
  rw [hout] at hfails
  cases hfails

end TraktRefresh

end Foreseerr

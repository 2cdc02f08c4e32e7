import Foreseerr.Run
import Foreseerr.TraktRefresh

/-!
# Refreshes and device links of one Trakt user

The refreshes of a user's tokens wait for one another (`LOCKS`), but a device
link (`deviceauth.rs`, `finish_trakt`) writes the same columns without the
lock. A refresh acts on what it has read before it asked Trakt: it stores the
new pair, or clears the columns where its refresh token is refused, whatever
the row has become. A link reads the profile with its new pair and may have to
refresh that pair for it, but stores the pair it began with.

So a link made while a refresh is under way can be lost
(`TraktLinks.new_link_cleared`). In the runs in which no link is stored while a
refresh is under way, no completed link has refreshed its pair and no
statement of a refresh fails once Trakt has answered, the newest pair stays
stored (`TraktLinks.newest_pair_kept`).
-/

namespace Foreseerr

open TraktRefresh

namespace TraktLinks

/-! ## Parties -/

/-- Where a refresh is. -/
inductive RefreshPc
  | idle
  /-- Waiting for the user's lock. -/
  | queued (caller : Option Json)
  /-- Holding the lock, before the row is read. -/
  | reading (caller : Option Json)
  /-- Before the request to Trakt. -/
  | asking (link : Latest)
  /-- Answered, before the profile is read. -/
  | profiling (applied : Applied)
  /-- Before the new pair is stored. -/
  | saving (applied : Applied) (account : Option (String × String))
  /-- Refused, before the columns are cleared. -/
  | clearing (link : Latest)
  | done

/-- A refresh between its read and its write. -/
def RefreshPc.underWay : RefreshPc → Bool
  | .asking _ | .profiling _ | .saving _ _ | .clearing _ => true
  | _ => false

/-- A refresh that holds the user's lock. -/
def RefreshPc.holds : RefreshPc → Bool
  | .reading _ => true
  | pc => pc.underWay

/-- `TraktUser`: the tokens a device link reads the profile with. -/
structure TraktUser where
  accessToken : Option String
  refreshToken : Option Json
  expiresAt : Option ℚ

/-- A device link on its way: what the poll answered, the tokens it goes on
with, and what it may still do once. -/
structure Linking where
  data : Json
  expiresAt : Option ℚ
  user : TraktUser
  /-- The profile request was answered by a 401, and the pair is to be refreshed. -/
  unauthorized : Bool := false
  retryAuth : Bool := true
  retryRate : Bool := true

/-- Where a device link is. -/
inductive LinkPc
  | idle
  /-- In `user_settings`. -/
  | profiling (l : Linking)
  /-- Before the check that no other user has the account. -/
  | checking (l : Linking) (username : Json) (account : String)
  /-- Before the link is stored. -/
  | storing (l : Linking) (username : Json) (account : String)
  | done (completed : Bool)

/-- What Trakt and the database saw, and what refreshes returned. The pair a
user had at the start is that of the link `none`. -/
inductive LinkEvent
  /-- Trakt issued a pair for a link. -/
  | issued (link : Option Nat) (access refresh : String)
  /-- A refresh token was sent to Trakt. -/
  | sent (refresh : String)
  /-- Trakt refused a refresh token. -/
  | refused (refresh : String)
  /-- A link was stored. -/
  | linked (link : Option Nat) (access refresh : String)
  /-- A refresh stored its pair. -/
  | saved (access refresh : Option Json)
  /-- A refresh whose token was refused cleared the row, which held another token maybe. -/
  | cleared (refused : String) (held : Option String)
  /-- A refresh returned tokens. -/
  | returned (access refresh : Option Json)

/-- The user's settings row, the parties and the record. A user without a row
is one whose link columns are empty. -/
structure Links where
  row : SettingsRow
  holder : Option Nat := none
  refreshes : Nat → RefreshPc := fun _ => .idle
  links : Nat → LinkPc := fun _ => .idle
  log : List LinkEvent := []

/-! ## Trakt's book-keeping -/

/-- The last pair Trakt issued for a link. -/
def lastIssued (log : List LinkEvent) (link : Option Nat) : Option (String × String) :=
  log.foldl (fun last event => match event with
    | .issued l access refresh => if l = link then some (access, refresh) else last
    | _ => last) none

/-- The link that was stored last. -/
def lastLinked (log : List LinkEvent) : Option (Option Nat) :=
  log.foldl (fun last event => match event with
    | .linked link _ _ => some link
    | _ => last) none

/-- The link a refresh token was issued for. -/
def linkOf (log : List LinkEvent) (refresh : String) : Option (Option Nat) :=
  log.findSome? fun event => match event with
    | .issued link _ r => if r = refresh then some link else none
    | _ => none

/-- A refresh token Trakt has issued. -/
def wasIssued (log : List LinkEvent) (refresh : String) : Bool := (linkOf log refresh).isSome

/-- The pair of a payload, if it is one Trakt may issue now: two tokens, and a
refresh token that no pair has had. -/
def newPair (log : List LinkEvent) (payload : Json) : Option (String × String) :=
  match payload.get "access_token", payload.get "refresh_token" with
  | some (.str access), some (.str refresh) =>
    if access ≠ "" ∧ refresh ≠ "" ∧ ¬ wasIssued log refresh then some (access, refresh) else none
  | _, _ => none

/-! ## Refreshes -/

variable (numberString : ℚ → String)

/-- A party of the machine changes, with what it adds to the record. -/
def Links.moveRefresh (s : Links) (task : Nat) (pc : RefreshPc) (events : List LinkEvent) :
    Links :=
  { s with
    refreshes := Function.update s.refreshes task pc
    holder := if pc.holds then some task else if s.holder = some task then none else s.holder
    log := s.log ++ events }

/-- What is recorded of a result. -/
def returnedEvents : Except Thrown Tokens → List LinkEvent
  | .ok tokens => [.returned tokens.access tokens.refresh]
  | .error _ => []

/-- The row is read and compared with the caller's tokens. -/
def readRow (s : Links) (task : Nat) (caller : Option Json)
    (credentials : Except Thrown (String × String)) : Links :=
  match untilRequest s.row.link caller credentials with
  | .answered out => s.moveRefresh task .done (returnedEvents out)
  | .asks link => s.moveRefresh task (.asking link) []

/-- Trakt answers a refresh: it refuses the token, or issues a pair for the
token's link. -/
def ask (s : Links) (task : Nat) (link : Latest) (answer : HttpAnswer) (now : Int) :
    Option Links :=
  match postRefresh answer with
  | .ok (.rejected _) =>
    some (s.moveRefresh task (.clearing link) [.sent link.refresh, .refused link.refresh])
  | .ok (.payload payload) => do
    let (access, refresh) ← newPair s.log payload
    let owner ← linkOf s.log link.refresh
    let applied := applyTokens numberString payload link now
    some (s.moveRefresh task (if link.hasUserId then .saving applied none else .profiling applied)
      [.sent link.refresh, .issued owner access refresh])
  | .error _ => none

/-- `save` of the user's row. -/
def saveRow (s : Links) (task : Nat) (applied : Applied) (account : Option (String × String)) :
    Links :=
  let writes := writesOf numberString applied account
  { s with row := { s.row with trakt := written numberString writes s.row.trakt } }.moveRefresh task
    .done [.saved applied.access applied.refresh, .returned applied.access applied.refresh]

/-- `clear_credentials` of the user's row. -/
def clearRow (s : Links) (task : Nat) (link : Latest) : Links :=
  { s with row := { s.row with trakt := fun _ => none } }.moveRefresh task .done
    [.cleared link.refresh (s.row.text .refreshToken)]

/-! ## Device links -/

def Links.moveLink (s : Links) (task : Nat) (pc : LinkPc) (events : List LinkEvent) : Links :=
  { s with links := Function.update s.links task pc, log := s.log ++ events }

/-- `token_text`. -/
def tokenText (value : Option Json) : Option String :=
  (value.filter Json.truthy).map (jsString numberString)

/-- What an authorized poll starts. -/
def startLinking (data : Json) (now : Int) : Linking :=
  let expiresAt := expiryOf data (some 0) now
  { data := data
    expiresAt := expiresAt
    user :=
      { accessToken := tokenText numberString (data.get "access_token")
        refreshToken := data.get "refresh_token"
        expiresAt := expiresAt } }

/-- `TRAKT_REFRESH_WINDOW_SECONDS`. -/
def refreshWindowSeconds : ℚ := 300

/-- `TRAKT_RETRY_AFTER_MAX_SECONDS`. -/
def retryAfterMaxSeconds : Nat := 5

/-- `refresh_due`. -/
def TraktUser.refreshDue (user : TraktUser) (now : Int) : Bool :=
  match user.refreshToken.filter Json.truthy, user.expiresAt with
  | some _, some at' => at' ≠ 0 && at' ≤ ((now / 1000 : Int) : ℚ) + refreshWindowSeconds
  | _, _ => false

/-- What `TraktUser::refresh` takes over from a payload. -/
def TraktUser.refreshed (user : TraktUser) (payload : Json) (now : Int) : TraktUser where
  accessToken := (tokenText numberString (payload.get "access_token")).or user.accessToken
  refreshToken := ((payload.get "refresh_token").filter Json.truthy).or user.refreshToken
  expiresAt := expiryOf payload user.expiresAt now

/-- The profile request's answers. -/
inductive ProfileAnswer
  | profile (username : Json) (account : String)
  | rateLimited (wait : Nat)
  | unauthorized
  | failed

/-- `TraktUser::refresh`, where it has to be made: a refused or failed one ends
the link. -/
def refreshUser (s : Links) (task : Nat) (l : Linking) (answer : HttpAnswer) (now : Int) :
    Option Links :=
  if l.unauthorized ∨ l.user.refreshDue now then
    match l.user.refreshToken.filter Json.truthy with
    | none => some (s.moveLink task (.done false) [])
    | some token =>
      let sent := LinkEvent.sent (jsString numberString token)
      match answer with
      | .response status (.ok payload) =>
        if 200 ≤ status ∧ status < 300 then do
          let (access, refresh) ← newPair s.log payload
          some (s.moveLink task
            (.profiling { l with user := l.user.refreshed numberString payload now
                                 unauthorized := false })
            [sent, .issued (some task) access refresh])
        else some (s.moveLink task (.done false) [sent])
      | _ => some (s.moveLink task (.done false) [sent])
  else none

/-- The profile request of `user_settings`. -/
def readProfile (s : Links) (task : Nat) (l : Linking) (now : Int) : ProfileAnswer → Option Links
  | answer =>
    if l.unauthorized ∨ l.user.refreshDue now then none
    else some (s.moveLink task (match answer with
      | .profile username account => .checking l username account
      | .rateLimited wait =>
        if l.retryRate ∧ wait ≤ retryAfterMaxSeconds then
          .profiling { l with retryRate := false }
        else .done false
      | .unauthorized =>
        if l.user.accessToken.isSome ∧ l.retryAuth then
          .profiling { l with unauthorized := true, retryAuth := false }
        else .done false
      | .failed => .done false) [])

/-- The columns a link sets: the pair the poll answered, its expiry and the account. -/
def linkWrites (l : Linking) (username : Json) (account : String) : List (LinkColumn × Json) :=
  ((l.data.get "access_token").map fun value => (.accessToken, value)).toList
    ++ ((l.data.get "refresh_token").map fun value => (.refreshToken, value)).toList
    ++ [(.tokenExpiresAt, .str (numberText numberString l.expiresAt)), (.username, username),
      (.userId, .str account)]

/-- The `UPDATE` of `finish_trakt`. -/
def storeLink (s : Links) (task : Nat) (l : Linking) (username : Json) (account : String) :
    Links :=
  let trakt := written numberString (linkWrites numberString l username account) s.row.trakt
  let stored := { s with row := { s.row with trakt := trakt } }
  stored.moveLink task (.done true)
    [.linked (some task) ((trakt .accessToken).getD "") ((trakt .refreshToken).getD "")]

/-! ## One step -/

/-- What can happen next. -/
inductive Act
  /-- `refreshUserTraktTokens` is called. -/
  | call (task : Nat) (caller : Option Json)
  /-- A call gets the lock. -/
  | lock (task : Nat)
  /-- A call reads the row, or fails to. -/
  | read (task : Nat) (credentials : Except Thrown (String × String)) (fails : Bool)
  | ask (task : Nat) (answer : HttpAnswer) (now : Int)
  | profile (task : Nat) (result : Except String (String × String))
  | save (task : Nat) (fails : Bool)
  | clear (task : Nat) (fails : Bool)
  /-- A poll is authorized, with a new pair. -/
  | poll (task : Nat) (data : Json) (now : Int)
  | refreshUser (task : Nat) (answer : HttpAnswer) (now : Int)
  | readProfile (task : Nat) (answer : ProfileAnswer) (now : Int)
  /-- The account is on no other row and the row is there, or not. -/
  | check (task : Nat) (passes : Bool)
  | link (task : Nat) (fails : Bool)

/-- One statement, or one call of Trakt. -/
def step (s : Links) : Act → Option Links
  | .call task caller => match s.refreshes task with
    | .idle => some (s.moveRefresh task (.queued caller) [])
    | _ => none
  | .lock task => match s.refreshes task, s.holder with
    | .queued caller, none => some (s.moveRefresh task (.reading caller) [])
    | _, _ => none
  | .read task credentials fails => match s.refreshes task with
    | .reading caller =>
      some (if fails then s.moveRefresh task .done [] else readRow s task caller credentials)
    | _ => none
  | .ask task answer now => match s.refreshes task with
    | .asking link => ask numberString s task link answer now
    | _ => none
  | .profile task result => match s.refreshes task with
    | .profiling applied => some (s.moveRefresh task (.saving applied result.toOption) [])
    | _ => none
  | .save task fails => match s.refreshes task with
    | .saving applied account =>
      some (if fails then s.moveRefresh task .done []
        else saveRow numberString s task applied account)
    | _ => none
  | .clear task fails => match s.refreshes task with
    | .clearing link =>
      some (if fails then s.moveRefresh task .done [] else clearRow s task link)
    | _ => none
  | .poll task data now => match s.links task with
    | .idle => do
      let (access, refresh) ← newPair s.log data
      some (s.moveLink task (.profiling (startLinking numberString data now))
        [.issued (some task) access refresh])
    | _ => none
  | .refreshUser task answer now => match s.links task with
    | .profiling l => refreshUser numberString s task l answer now
    | _ => none
  | .readProfile task answer now => match s.links task with
    | .profiling l => readProfile s task l now answer
    | _ => none
  | .check task passes => match s.links task with
    | .checking l username account =>
      some (s.moveLink task (if passes then .storing l username account else .done false) [])
    | _ => none
  | .link task fails => match s.links task with
    | .storing l username account =>
      some (if fails then s.moveLink task (.done false) []
        else storeLink numberString s task l username account)
    | _ => none

/-- The steps as a relation. -/
def Step (s : Links) (act : Act) (s' : Links) : Prop := step numberString s act = some s'

/-- A user at the start: a pair in the row is one Trakt has issued. -/
def start (row : SettingsRow) : Links where
  row := row
  log := match row.link with
    | none => []
    | some link => [.issued none link.access link.refresh, .linked none link.access link.refresh]

/-! ## What is to hold of every run -/

/-- The row holds a pair. -/
def Holds (row : SettingsRow) (access refresh : String) : Prop :=
  row.text .accessToken = some access ∧ row.text .refreshToken = some refresh

/-- A pair that was in the row. -/
def Stored (log : List LinkEvent) (access refresh : String) : Prop :=
  (∃ link, .linked link access refresh ∈ log) ∨
    .saved (some (.str access)) (some (.str refresh)) ∈ log

/-- The link stored last, and the last pair Trakt issued for it. -/
def IsCurrent (log : List LinkEvent) (link : Option Nat) (access refresh : String) : Prop :=
  lastLinked log = some link ∧ lastIssued log link = some (access, refresh)

/-- Everything that was begun is finished. -/
def Links.Quiet (s : Links) : Prop :=
  (∀ task, s.refreshes task = .idle ∨ s.refreshes task = .done) ∧
    ∀ task, s.links task = .idle ∨ ∃ completed, s.links task = .done completed

/-- **The newest pair is kept.** When everything is finished, the row holds
the last pair issued for the link made last, or was cleared because Trakt
refused that pair. No refresh token is sent twice, a refused one only clears
the row that still holds it, and a refresh returns pairs that were stored. -/
structure NewestKept (s : Links) : Prop where
  stored : s.Quiet → lastLinked s.log = none ∧ s.row.link = none ∨
    ∃ link access refresh, IsCurrent s.log link access refresh ∧
      (Holds s.row access refresh ∨ s.row.link = none ∧ .refused refresh ∈ s.log)
  sentOnce : ∀ before after refresh, s.log = before ++ .sent refresh :: after →
    .sent refresh ∉ before
  clears : ∀ before after refused held, s.log = before ++ .cleared refused held :: after →
    held = some refused
  returned : ∀ before after access refresh,
    s.log = before ++ .returned access refresh :: after →
    ∃ a r, access = some (.str a) ∧ refresh = some (.str r) ∧ Stored before a r

/-- What an event follows. -/
def Follows (before : List LinkEvent) : LinkEvent → Prop
  | .sent refresh => .sent refresh ∉ before
  | .cleared refused held => held = some refused
  | .returned access refresh =>
    ∃ a r, access = some (.str a) ∧ refresh = some (.str r) ∧ Stored before a r
  | _ => True

/-! ## Where a run is kept from losing a pair -/

/-- A refresh is between its read and its write. -/
def Links.underWay (s : Links) : Bool := s.holder.any fun task => (s.refreshes task).underWay

/-- The refresh token of a link is still the one it began with. -/
def LinkPc.unrefreshed : LinkPc → Bool
  | .storing l _ _ =>
    l.user.refreshToken.bind Json.asStr == (l.data.get "refresh_token").bind Json.asStr
  | _ => true

/-- Where a step is to be taken: no link is stored over a refresh under way or
with a pair it has refreshed since, and no statement of a refresh fails once
Trakt has answered. -/
def Ok (s : Links) : Act → Prop
  | .save _ fails => fails = false
  | .clear _ fails => fails = false
  | .link task fails =>
    fails = true ∨ s.underWay = false ∧ (s.links task).unrefreshed = true
  | _ => True

instance (s : Links) : (act : Act) → Decidable (Ok s act)
  | .save _ fails => inferInstanceAs (Decidable (fails = false))
  | .clear _ fails => inferInstanceAs (Decidable (fails = false))
  | .link task fails => inferInstanceAs (Decidable (fails = true ∨
      s.underWay = false ∧ (s.links task).unrefreshed = true))
  | .call _ _ => .isTrue trivial
  | .lock _ => .isTrue trivial
  | .read _ _ _ => .isTrue trivial
  | .ask _ _ _ => .isTrue trivial
  | .profile _ _ => .isTrue trivial
  | .poll _ _ _ => .isTrue trivial
  | .refreshUser _ _ _ => .isTrue trivial
  | .readProfile _ _ _ => .isTrue trivial
  | .check _ _ => .isTrue trivial

/-! ## The record -/

variable {numberString} {log : List LinkEvent} {row : SettingsRow} {s s' : Links}

theorem lastIssued_concat (log : List LinkEvent) (event : LinkEvent) (link : Option Nat) :
    lastIssued (log ++ [event]) link = match event with
      | .issued l access refresh =>
        if l = link then some (access, refresh) else lastIssued log link
      | _ => lastIssued log link := by
  cases event <;> simp [lastIssued]

theorem lastLinked_concat (log : List LinkEvent) (event : LinkEvent) :
    lastLinked (log ++ [event]) = match event with
      | .linked link _ _ => some link
      | _ => lastLinked log := by
  cases event <;> simp [lastLinked]

theorem issued_of_lastIssued {link : Option Nat} {access refresh : String}
    (h : lastIssued log link = some (access, refresh)) : .issued link access refresh ∈ log := by
  induction log using List.reverseRecOn with
  | nil => cases h
  | append_singleton log event ih =>
    rw [lastIssued_concat] at h
    cases event with
    | issued l a r =>
      dsimp only at h
      split at h
      · rename_i heq
        cases h
        exact heq ▸ List.mem_append_right _ List.mem_cons_self
      · exact List.mem_append_left _ (ih h)
    | _ => exact List.mem_append_left _ (ih h)

theorem issued_of_linkOf {refresh : String} {link : Option Nat} (h : linkOf log refresh = some link) :
    ∃ access, .issued link access refresh ∈ log := by
  obtain ⟨event, hmem, hsome⟩ := List.exists_of_findSome?_eq_some h
  cases event with
  | issued l a r =>
    dsimp only at hsome
    split at hsome
    · rename_i heq
      cases hsome
      exact ⟨a, heq ▸ hmem⟩
    · cases hsome
  | _ => cases hsome

theorem wasIssued_iff {refresh : String} :
    wasIssued log refresh = true ↔ ∃ link access, .issued link access refresh ∈ log := by
  constructor
  · intro h
    obtain ⟨link, hlink⟩ := Option.isSome_iff_exists.1 h
    exact ⟨link, issued_of_linkOf hlink⟩
  · rintro ⟨link, access, hmem⟩
    rw [wasIssued, linkOf, List.findSome?_isSome_iff]
    exact ⟨_, hmem, by simp⟩

theorem newPair_eq_some {payload : Json} {access refresh : String}
    (h : newPair log payload = some (access, refresh)) :
    payload.get "access_token" = some (.str access) ∧
      payload.get "refresh_token" = some (.str refresh) ∧ access ≠ "" ∧ refresh ≠ "" ∧
      ∀ link a, .issued link a refresh ∉ log := by
  unfold newPair at h
  split at h
  · rename_i a r haccess hrefresh
    rw [Option.ite_none_right_eq_some] at h
    obtain ⟨⟨hnea, hner, hnot⟩, hpair⟩ := h
    cases hpair
    refine ⟨haccess, hrefresh, hnea, hner, fun link a' hmem => hnot ?_⟩
    exact wasIssued_iff.2 ⟨link, a', hmem⟩
  · cases h

/-! ## The invariant -/

/-- A new pair that is still to be stored. -/
def PairDue (log : List LinkEvent) (applied : Applied) : Prop :=
  ∃ link access refresh, IsCurrent log link access refresh ∧
    applied.access = some (.str access) ∧ applied.refresh = some (.str refresh) ∧
    access ≠ "" ∧ refresh ≠ "" ∧ .sent refresh ∉ log

/-- What the row holds while no refresh is under way: the newest pair, unsent,
or nothing where it was refused. -/
def Rest (row : SettingsRow) (log : List LinkEvent) : Prop :=
  lastLinked log = none ∧ row.link = none ∨
    ∃ link access refresh, IsCurrent log link access refresh ∧
      (Holds row access refresh ∧ Stored log access refresh ∧ .sent refresh ∉ log ∨
        row.link = none ∧ .refused refresh ∈ log)

/-- What the row holds, by how far the refresh is that holds the lock. -/
def StageSound (row : SettingsRow) (log : List LinkEvent) : RefreshPc → Prop
  | .asking link => ∃ l, IsCurrent log l link.access link.refresh ∧
      Holds row link.access link.refresh ∧ .sent link.refresh ∉ log
  | .profiling applied => PairDue log applied
  | .saving applied _ => PairDue log applied
  | .clearing link => ∃ l access, IsCurrent log l access link.refresh ∧
      Holds row access link.refresh ∧ .refused link.refresh ∈ log
  | _ => Rest row log

/-- A link on its way has the last pair issued for it, and has not sent it. -/
structure LinkingSound (log : List LinkEvent) (task : Nat) (l : Linking) (access refresh : String) :
    Prop where
  last : lastIssued log (some task) = some (access, refresh)
  token : l.user.refreshToken = some (.str refresh)
  unsent : .sent refresh ∉ log
  nonempty : access ≠ "" ∧ refresh ≠ ""
  began : ∃ first, l.data.get "refresh_token" = some (.str first) ∧ wasIssued log first = true
  kept : l.data.get "refresh_token" = some (.str refresh) →
    l.data.get "access_token" = some (.str access)

/-- The link a task is at, before it is stored. -/
def LinkPc.linking? : LinkPc → Option Linking
  | .profiling l => some l
  | .checking l _ _ => some l
  | .storing l _ _ => some l
  | _ => none

/-- **The record fits the parties.** A refresh token was issued once and sent
once, and the tokens of the links on their way were not sent. -/
structure BookSound (log : List LinkEvent) (links : Nat → LinkPc) : Prop where
  owners : ∀ {l a l' a' refresh}, .issued l a refresh ∈ log → .issued l' a' refresh ∈ log →
    l = l' ∧ a = a'
  sentIssued : ∀ {refresh}, .sent refresh ∈ log → wasIssued log refresh = true
  linking : ∀ task l, (links task).linking? = some l →
    ∃ access refresh, LinkingSound log task l access refresh
  linked : ∀ task, lastLinked log = some (some task) → ∃ completed, links task = .done completed
  log : Log.EachAfter Follows log

/-- The step the holder of the lock is at. -/
def Links.holding (s : Links) : RefreshPc :=
  match s.holder with
  | some task => s.refreshes task
  | none => .idle

/-- The invariant of the guarded runs. -/
structure Inv (s : Links) : Prop where
  lock : ∀ task, (s.refreshes task).holds = true → s.holder = some task
  stage : StageSound s.row s.log s.holding
  book : BookSound s.log s.links

/-! ## Keeping the record -/

/-- Events that issue and send nothing and store no link. -/
def LinkEvent.neutral : LinkEvent → Bool
  | .refused _ | .saved _ _ | .cleared _ _ | .returned _ _ => true
  | _ => false

variable {links : Nat → LinkPc}

theorem lastLinked_neutral {event : LinkEvent} (h : event.neutral = true) :
    lastLinked (log ++ [event]) = lastLinked log := by
  rw [lastLinked_concat]
  cases event <;> first | rfl | cases h

theorem wasIssued_append {refresh : String} (events : List LinkEvent)
    (h : wasIssued log refresh = true) : wasIssued (log ++ events) refresh = true := by
  obtain ⟨link, access, hmem⟩ := wasIssued_iff.1 h
  exact wasIssued_iff.2 ⟨link, access, List.mem_append_left _ hmem⟩

/-- A link on its way, after an event that is not about its tokens. -/
theorem LinkingSound.concat {task : Nat} {l : Linking} {access refresh : String}
    (h : LinkingSound log task l access refresh) {event : LinkEvent}
    (hissued : ∀ a r, event ≠ .issued (some task) a r) (hsent : event ≠ .sent refresh) :
    LinkingSound (log ++ [event]) task l access refresh where
  last := by
    rw [lastIssued_concat]
    cases event with
    | issued link a r =>
      have hne : link ≠ some task := fun heq => hissued a r (heq ▸ rfl)
      dsimp only
      rw [if_neg hne]
      exact h.last
    | _ => exact h.last
  token := h.token
  unsent hmem := by
    rcases List.mem_append.1 hmem with hold | hnew
    · exact h.unsent hold
    · exact hsent (List.mem_singleton.1 hnew).symm
  nonempty := h.nonempty
  began := by
    obtain ⟨first, hfirst, hwas⟩ := h.began
    exact ⟨first, hfirst, wasIssued_append _ hwas⟩
  kept := h.kept

theorem BookSound.neutral (h : BookSound log links) {event : LinkEvent}
    (hneutral : event.neutral = true) (hfollows : Follows log event) :
    BookSound (log ++ [event]) links where
  owners h₁ h₂ := by
    have hold : ∀ {l a r}, .issued l a r ∈ log ++ [event] → .issued l a r ∈ log := by
      intro l a r hmem
      rcases List.mem_append.1 hmem with hold | hnew
      · exact hold
      · obtain rfl := List.mem_singleton.1 hnew
        cases hneutral
    exact h.owners (hold h₁) (hold h₂)
  sentIssued hmem := by
    rcases List.mem_append.1 hmem with hold | hnew
    · exact wasIssued_append _ (h.sentIssued hold)
    · obtain rfl := List.mem_singleton.1 hnew
      cases hneutral
  linking task l hl := by
    obtain ⟨access, refresh, hsound⟩ := h.linking task l hl
    refine ⟨access, refresh, hsound.concat ?_ ?_⟩
    · rintro a r rfl
      cases hneutral
    · rintro rfl
      cases hneutral
  linked task hlinked := h.linked task (by rwa [lastLinked_neutral hneutral] at hlinked)
  log := h.log.concat hfollows

/-- A refresh token goes to Trakt for the first time, and is no token of a link
that goes on. -/
theorem BookSound.sent (h : BookSound log links) {refresh : String} {link : Option Nat}
    {access : String} (hissued : .issued link access refresh ∈ log) (hunsent : .sent refresh ∉ log)
    (hnot : ∀ task l, (links task).linking? = some l → link ≠ some task) :
    BookSound (log ++ [.sent refresh]) links where
  owners h₁ h₂ := by
    have hold : ∀ {l a r}, .issued l a r ∈ log ++ [.sent refresh] → .issued l a r ∈ log := by
      intro l a r hmem
      rcases List.mem_append.1 hmem with hold | hnew
      · exact hold
      · cases List.mem_singleton.1 hnew
    exact h.owners (hold h₁) (hold h₂)
  sentIssued hmem := by
    rcases List.mem_append.1 hmem with hold | hnew
    · exact wasIssued_append _ (h.sentIssued hold)
    · cases List.mem_singleton.1 hnew
      exact wasIssued_append _ (wasIssued_iff.2 ⟨link, access, hissued⟩)
  linking task l hl := by
    obtain ⟨a, r, hsound⟩ := h.linking task l hl
    refine ⟨a, r, hsound.concat (fun _ _ heq => by cases heq) fun heq => ?_⟩
    cases heq
    exact hnot task l hl (h.owners hissued (issued_of_lastIssued hsound.last)).1
  linked task hlinked := h.linked task (by rwa [lastLinked_concat] at hlinked)
  log := h.log.concat hunsent

/-- Trakt issues a new pair, for no link that goes on. -/
theorem BookSound.issued (h : BookSound log links) {link : Option Nat} {access refresh : String}
    (hnew : ∀ l a, .issued l a refresh ∉ log)
    (hnot : ∀ task l, (links task).linking? = some l → link ≠ some task) :
    BookSound (log ++ [.issued link access refresh]) links where
  owners h₁ h₂ := by
    rcases List.mem_append.1 h₁ with h₁ | h₁ <;> rcases List.mem_append.1 h₂ with h₂ | h₂
    · exact h.owners h₁ h₂
    · cases List.mem_singleton.1 h₂
      exact absurd h₁ (hnew _ _)
    · cases List.mem_singleton.1 h₁
      exact absurd h₂ (hnew _ _)
    · cases List.mem_singleton.1 h₁
      cases List.mem_singleton.1 h₂
      exact ⟨rfl, rfl⟩
  sentIssued hmem := by
    rcases List.mem_append.1 hmem with hold | hnew
    · exact wasIssued_append _ (h.sentIssued hold)
    · cases List.mem_singleton.1 hnew
  linking task l hl := by
    obtain ⟨a, r, hsound⟩ := h.linking task l hl
    refine ⟨a, r, hsound.concat (fun _ _ heq => ?_) fun heq => by cases heq⟩
    cases heq
    exact hnot task l hl rfl
  linked task hlinked := h.linked task (by rwa [lastLinked_concat] at hlinked)
  log := h.log.concat trivial

/-- A task's link goes on, is given up or begins. -/
theorem BookSound.update (h : BookSound log links) {task : Nat} {pc : LinkPc}
    (hlinking : ∀ l, pc.linking? = some l → ∃ access refresh, LinkingSound log task l access refresh)
    (hlinked : lastLinked log = some (some task) → ∃ completed, pc = .done completed) :
    BookSound log (Function.update links task pc) where
  owners := h.owners
  sentIssued := h.sentIssued
  linking other l hl := by
    by_cases heq : other = task
    · subst heq
      rw [Function.update_self] at hl
      exact hlinking l hl
    · rw [Function.update_of_ne heq] at hl
      exact h.linking other l hl
  linked other hother := by
    by_cases heq : other = task
    · subst heq
      rw [Function.update_self]
      exact hlinked hother
    · rw [Function.update_of_ne heq]
      exact h.linked other hother
  log := h.log

/-- A link is stored. -/
theorem BookSound.store (h : BookSound log links) {task : Nat} (access refresh : String) :
    BookSound (log ++ [.linked (some task) access refresh])
      (Function.update links task (.done true)) := by
  have hold : ∀ {l a r}, .issued l a r ∈ log ++ [.linked (some task) access refresh] →
      .issued l a r ∈ log := by
    intro l a r hmem
    rcases List.mem_append.1 hmem with hold | hnew
    · exact hold
    · cases List.mem_singleton.1 hnew
  refine ⟨fun h₁ h₂ => h.owners (hold h₁) (hold h₂), fun hmem => ?_, fun other l hl => ?_,
    fun other hother => ?_, h.log.concat trivial⟩
  · rcases List.mem_append.1 hmem with hsent | hnew
    · exact wasIssued_append _ (h.sentIssued hsent)
    · cases List.mem_singleton.1 hnew
  · by_cases heq : other = task
    · subst heq
      rw [Function.update_self] at hl
      cases hl
    · rw [Function.update_of_ne heq] at hl
      obtain ⟨a, r, hsound⟩ := h.linking other l hl
      exact ⟨a, r, hsound.concat (fun _ _ heq => by cases heq) fun heq => by cases heq⟩
  · rw [lastLinked_concat] at hother
    cases hother
    exact ⟨true, Function.update_self _ _ _⟩

/-- The link stored last is on its way no more. -/
theorem BookSound.not_linking (h : BookSound log links) {link : Option Nat}
    (hlast : lastLinked log = some link) (task : Nat) (l : Linking)
    (hl : (links task).linking? = some l) : link ≠ some task := by
  rintro rfl
  obtain ⟨completed, hdone⟩ := h.linked task hlast
  rw [hdone] at hl
  cases hl

/-- A token that was not issued was not sent. -/
theorem BookSound.unsent (h : BookSound log links) {refresh : String}
    (hnew : ∀ l a, .issued l a refresh ∉ log) : .sent refresh ∉ log := by
  intro hmem
  obtain ⟨link, access, hissued⟩ := wasIssued_iff.1 (h.sentIssued hmem)
  exact hnew link access hissued

/-- A link on its way stays the same whatever else it does. -/
theorem LinkingSound.congr {task : Nat} {l l' : Linking} {access refresh : String}
    (h : LinkingSound log task l access refresh) (huser : l'.user = l.user)
    (hdata : l'.data = l.data) : LinkingSound log task l' access refresh where
  last := h.last
  token := huser ▸ h.token
  unsent := h.unsent
  nonempty := h.nonempty
  began := hdata ▸ h.began
  kept := hdata ▸ h.kept

/-! ## Keeping the stage -/

theorem holds_of_link {link : Latest} (h : row.link = some link) :
    Holds row link.access link.refresh := by
  simp only [SettingsRow.link, Option.bind_eq_bind, Option.bind_eq_some_iff] at h
  obtain ⟨access, haccess, refresh, hrefresh, heq⟩ := h
  cases heq
  exact ⟨haccess, hrefresh⟩

theorem link_ne_none {access refresh : String} (h : Holds row access refresh) :
    row.link ≠ none := by
  simp only [SettingsRow.link, Option.bind_eq_bind, h.1, h.2, Option.bind_some]
  exact Option.some_ne_none _

theorem Holds.eq {access refresh access' refresh' : String} (h : Holds row access refresh)
    (h' : Holds row access' refresh') : access = access' ∧ refresh = refresh' :=
  ⟨Option.some.inj (h.1.symm.trans h'.1), Option.some.inj (h.2.symm.trans h'.2)⟩

theorem holds_of_trakt {access refresh : String} (haccess : row.trakt .accessToken = some access)
    (hrefresh : row.trakt .refreshToken = some refresh) (hnea : access ≠ "") (hner : refresh ≠ "") :
    Holds row access refresh := by
  constructor
  · rw [SettingsRow.text, haccess]
    exact Option.filter_some_pos (decide_eq_true hnea)
  · rw [SettingsRow.text, hrefresh]
    exact Option.filter_some_pos (decide_eq_true hner)

theorem rest_of_not_underWay {pc : RefreshPc} (hpc : pc.underWay = false)
    (h : StageSound row log pc) : Rest row log := by
  cases pc <;> first | exact h | cases hpc

theorem Stored.append {access refresh : String} (h : Stored log access refresh)
    (events : List LinkEvent) : Stored (log ++ events) access refresh :=
  h.imp (fun ⟨link, hmem⟩ => ⟨link, List.mem_append_left _ hmem⟩) (List.mem_append_left _)

/-- An event that is not about the link stored last. -/
structure Apart (log : List LinkEvent) (event : LinkEvent) : Prop where
  linked : ∀ l a r, event ≠ .linked l a r
  issued : ∀ l a r, event = .issued l a r → lastLinked log ≠ some l
  sent : ∀ r, event = .sent r → ∀ l a, ¬ IsCurrent log l a r

theorem apart_of_neutral {event : LinkEvent} (h : event.neutral = true) : Apart log event where
  linked l a r heq := by
    subst heq
    cases h
  issued l a r heq := by
    subst heq
    cases h
  sent r heq := by
    subst heq
    cases h

theorem apart_issued {link : Option Nat} (h : lastLinked log ≠ some link) (access refresh : String) :
    Apart log (.issued link access refresh) where
  linked _ _ _ heq := by cases heq
  issued _ _ _ heq := by
    cases heq
    exact h
  sent _ heq := by cases heq

theorem apart_sent {refresh : String} (h : ∀ link access, ¬ IsCurrent log link access refresh) :
    Apart log (.sent refresh) where
  linked _ _ _ heq := by cases heq
  issued _ _ _ heq := by cases heq
  sent _ heq := by
    cases heq
    exact h

theorem IsCurrent.concat {link : Option Nat} {access refresh : String}
    (h : IsCurrent log link access refresh) {event : LinkEvent} (happart : Apart log event) :
    IsCurrent (log ++ [event]) link access refresh := by
  refine ⟨?_, ?_⟩
  · rw [lastLinked_concat]
    cases event with
    | linked l a r => exact absurd rfl (happart.linked l a r)
    | _ => exact h.1
  · rw [lastIssued_concat]
    cases event with
    | issued l a r =>
      have hne : l ≠ link := by
        rintro rfl
        exact happart.issued l a r rfl h.1
      dsimp only
      rw [if_neg hne]
      exact h.2
    | _ => exact h.2

theorem Apart.unsent {link : Option Nat} {access refresh : String} {event : LinkEvent}
    (happart : Apart log event) (hcurrent : IsCurrent log link access refresh)
    (h : .sent refresh ∉ log) : .sent refresh ∉ log ++ [event] := by
  intro hmem
  rcases List.mem_append.1 hmem with hold | hnew
  · exact h hold
  · exact happart.sent refresh (List.mem_singleton.1 hnew).symm link access hcurrent

theorem PairDue.concat {applied : Applied} (h : PairDue log applied) {event : LinkEvent}
    (happart : Apart log event) : PairDue (log ++ [event]) applied := by
  obtain ⟨link, access, refresh, hcurrent, haccess, hrefresh, hnea, hner, hunsent⟩ := h
  exact ⟨link, access, refresh, hcurrent.concat happart, haccess, hrefresh, hnea, hner,
    happart.unsent hcurrent hunsent⟩

theorem Rest.concat (h : Rest row log) {event : LinkEvent} (happart : Apart log event) :
    Rest row (log ++ [event]) := by
  rcases h with ⟨hnone, hrow⟩ | ⟨link, access, refresh, hcurrent, hrow⟩
  · refine .inl ⟨?_, hrow⟩
    rw [lastLinked_concat]
    cases event with
    | linked l a r => exact absurd rfl (happart.linked l a r)
    | _ => exact hnone
  · refine .inr ⟨link, access, refresh, hcurrent.concat happart, ?_⟩
    rcases hrow with ⟨hholds, hstored, hunsent⟩ | ⟨hempty, hrefused⟩
    · exact .inl ⟨hholds, hstored.append _, happart.unsent hcurrent hunsent⟩
    · exact .inr ⟨hempty, List.mem_append_left _ hrefused⟩

/-- The stage stays over an event that is not about the link stored last. -/
theorem StageSound.concat {pc : RefreshPc} (h : StageSound row log pc) {event : LinkEvent}
    (happart : Apart log event) : StageSound row (log ++ [event]) pc := by
  cases pc with
  | asking link =>
    obtain ⟨l, hcurrent, hholds, hunsent⟩ := h
    exact ⟨l, hcurrent.concat happart, hholds, happart.unsent hcurrent hunsent⟩
  | profiling applied => exact PairDue.concat h happart
  | saving applied account => exact PairDue.concat h happart
  | clearing link =>
    obtain ⟨l, access, hcurrent, hholds, hrefused⟩ := h
    exact ⟨l, access, hcurrent.concat happart, hholds, List.mem_append_left _ hrefused⟩
  | _ => exact Rest.concat h happart

/-! ## The refreshes' steps -/

theorem holding_moveRefresh (s : Links) (task : Nat) (pc : RefreshPc) (events : List LinkEvent) :
    (s.moveRefresh task pc events).holding
      = if pc.holds then pc else if s.holder = some task then .idle else s.holding := by
  unfold Links.holding Links.moveRefresh
  dsimp only
  by_cases hpc : pc.holds = true
  · rw [if_pos hpc, if_pos hpc]
    exact Function.update_self _ _ _
  · rw [if_neg hpc, if_neg hpc]
    by_cases hholder : s.holder = some task
    · rw [if_pos hholder, if_pos hholder]
    · rw [if_neg hholder, if_neg hholder]
      cases hother : s.holder with
      | none => rfl
      | some other =>
        have hne : other ≠ task := fun heq => hholder (hother.trans (congrArg some heq))
        exact Function.update_of_ne hne _ _

/-- A task that holds the lock is the one whose step the holder is at. -/
theorem Inv.holding (h : Inv s) (task : Nat) (hpc : (s.refreshes task).holds = true) :
    s.holder = some task ∧ s.holding = s.refreshes task := by
  have hholder := h.lock task hpc
  exact ⟨hholder, by rw [Links.holding, hholder]⟩

/-- A refresh goes on: only the holder of the lock is at a step that needs it. -/
theorem Inv.moveRefresh (h : Inv s) (row : SettingsRow) {task : Nat} {pc : RefreshPc}
    {events : List LinkEvent}
    (hlock : s.holder = some task ∨ s.holder = none ∨ pc.holds = false)
    (hstage : StageSound row (s.log ++ events)
      (if pc.holds then pc else if s.holder = some task then .idle else s.holding))
    (hbook : BookSound (s.log ++ events) s.links) :
    Inv ({ s with row := row }.moveRefresh task pc events) where
  lock other hother := by
    have hother : (Function.update s.refreshes task pc other).holds = true := hother
    by_cases heq : other = task
    · subst heq
      rw [Function.update_self] at hother
      exact if_pos hother
    · rw [Function.update_of_ne heq] at hother
      have hholder : s.holder = some other := h.lock other hother
      have hne : s.holder ≠ some task := by
        rw [hholder]
        exact fun hsame => heq (Option.some.inj hsame)
      have hpc : ¬ pc.holds = true := by
        rcases hlock with hsame | hnone | hfree
        · exact absurd hsame hne
        · rw [hnone] at hholder
          cases hholder
        · rw [hfree]
          exact Bool.false_ne_true
      show (if pc.holds then some task else if s.holder = some task then none else s.holder) = _
      rw [if_neg hpc, if_neg hne, hholder]
  stage := by
    rw [holding_moveRefresh]
    exact hstage
  book := hbook

theorem mem_sent_two {r : String} {event : LinkEvent} {events : List LinkEvent}
    (hr : .sent r ∈ events ++ [event]) (hne : event ≠ .sent r) : .sent r ∈ events := by
  rcases List.mem_append.1 hr with hold | hnew
  · exact hold
  · exact absurd (List.mem_singleton.1 hnew).symm hne

/-- What a call is answered with before it asks Trakt is the stored pair. -/
theorem answered_eq {found : Option Latest} {caller : Option Json}
    {credentials : Except Thrown (String × String)} {tokens : Tokens}
    (h : untilRequest found caller credentials = .answered (.ok tokens)) :
    ∃ link, found = some link ∧ tokens.access = some (.str link.access) ∧
      tokens.refresh = some (.str link.refresh) := by
  unfold untilRequest at h
  repeat' split at h
  all_goals cases h
  exact ⟨_, rfl, rfl, rfl⟩

theorem asks_eq {found : Option Latest} {caller : Option Json}
    {credentials : Except Thrown (String × String)} {link : Latest}
    (h : untilRequest found caller credentials = .asks link) : found = some link := by
  unfold untilRequest at h
  repeat' split at h
  all_goals cases h
  rfl

theorem Inv.readRow (h : Inv s) {task : Nat} {caller : Option Json}
    {credentials : Except Thrown (String × String)}
    (hpc : s.refreshes task = .reading caller) : Inv (readRow s task caller credentials) := by
  obtain ⟨hholder, hholding⟩ := h.holding task (by rw [hpc]; rfl)
  have hrest : Rest s.row s.log := by
    have hstage := h.stage
    rw [hholding, hpc] at hstage
    exact hstage
  unfold TraktLinks.readRow
  split
  · rename_i out hout
    cases out with
    | error e =>
      refine h.moveRefresh s.row (.inl hholder) ?_ ?_
      · rw [if_neg (by decide), if_pos hholder, returnedEvents, List.append_nil]
        exact hrest
      · rw [returnedEvents, List.append_nil]
        exact h.book
    | ok tokens =>
      obtain ⟨link, hlink, haccess, hrefresh⟩ := answered_eq hout
      have hreturned : LinkEvent.neutral (.returned tokens.access tokens.refresh) = true := rfl
      refine h.moveRefresh s.row (.inl hholder) ?_ ?_
      · rw [if_neg (by decide), if_pos hholder]
        exact hrest.concat (apart_of_neutral hreturned)
      · refine h.book.neutral hreturned ⟨link.access, link.refresh, haccess, hrefresh, ?_⟩
        have hholds := holds_of_link hlink
        rcases hrest with ⟨-, hnone⟩ | ⟨l, access, refresh, -, ⟨hpair, hstored, -⟩ | ⟨hnone, -⟩⟩
        · exact absurd hnone (link_ne_none hholds)
        · obtain ⟨rfl, rfl⟩ := hholds.eq hpair
          exact hstored
        · exact absurd hnone (link_ne_none hholds)
  · rename_i link hasks
    have hholds := holds_of_link (asks_eq hasks)
    refine h.moveRefresh s.row (.inl hholder) ?_ (by rw [List.append_nil]; exact h.book)
    show StageSound s.row (s.log ++ []) (.asking link)
    rw [List.append_nil]
    rcases hrest with ⟨-, hnone⟩ | ⟨l, access, refresh, hcurrent, ⟨hpair, -, hunsent⟩ | ⟨hnone, -⟩⟩
    · exact absurd hnone (link_ne_none hholds)
    · obtain ⟨rfl, rfl⟩ := hholds.eq hpair
      exact ⟨l, hcurrent, hholds, hunsent⟩
    · exact absurd hnone (link_ne_none hholds)

/-- The owner Trakt finds for a token it has issued. -/
theorem BookSound.linkOf_eq (h : BookSound log links) {link owner : Option Nat}
    {access refresh : String} (hissued : .issued link access refresh ∈ log)
    (howner : linkOf log refresh = some owner) : owner = link := by
  obtain ⟨a, hmem⟩ := issued_of_linkOf howner
  exact (h.owners hmem hissued).1

theorem Inv.ask (h : Inv s) {task : Nat} {link : Latest} {answer : HttpAnswer} {now : Int}
    (hpc : s.refreshes task = .asking link)
    (hask : ask numberString s task link answer now = some s') : Inv s' := by
  obtain ⟨hholder, hholding⟩ := h.holding task (by rw [hpc]; rfl)
  have hstage := h.stage
  rw [hholding, hpc] at hstage
  obtain ⟨l, hcurrent, hholds, hunsent⟩ := hstage
  have hissued := issued_of_lastIssued hcurrent.2
  have hnot := h.book.not_linking hcurrent.1
  have hsent : BookSound (s.log ++ [.sent link.refresh]) s.links :=
    h.book.sent hissued hunsent hnot
  have hstays : IsCurrent (s.log ++ [.sent link.refresh]) l link.access link.refresh :=
    ⟨by rw [lastLinked_concat]; exact hcurrent.1, by rw [lastIssued_concat]; exact hcurrent.2⟩
  unfold TraktLinks.ask at hask
  split at hask
  · cases hask
    have hrefused : LinkEvent.neutral (.refused link.refresh) = true := rfl
    refine h.moveRefresh s.row (.inl hholder) ?_ ?_
    · show StageSound s.row _ (.clearing link)
      rw [List.append_cons]
      refine ⟨l, link.access, hstays.concat (apart_of_neutral hrefused), hholds, ?_⟩
      exact List.mem_append_right _ List.mem_cons_self
    · rw [List.append_cons]
      exact hsent.neutral hrefused trivial
  · rename_i payload hpayload
    obtain ⟨⟨access, refresh⟩, hpair, hask⟩ := Option.bind_eq_some_iff.1 hask
    obtain ⟨owner, howner, hask⟩ := Option.bind_eq_some_iff.1 hask
    cases hask
    obtain rfl := h.book.linkOf_eq hissued howner
    obtain ⟨haccess, hrefresh, hnea, hner, hnew⟩ := newPair_eq_some hpair
    have hnew' : ∀ l a, .issued l a refresh ∉ s.log ++ [.sent link.refresh] := by
      intro l a hmem
      rcases List.mem_append.1 hmem with hold | hnew'
      · exact hnew l a hold
      · cases List.mem_singleton.1 hnew'
    have hdue : PairDue (s.log ++ [.sent link.refresh, .issued owner access refresh])
        (applyTokens numberString payload link now) := by
      rw [List.append_cons]
      refine ⟨owner, access, refresh, ⟨?_, ?_⟩, haccess, hrefresh, hnea, hner, ?_⟩
      · rw [lastLinked_concat]
        exact hstays.1
      · rw [lastIssued_concat]
        exact if_pos rfl
      · exact fun hmem => hsent.unsent hnew' (mem_sent_two hmem (by simp))
    refine h.moveRefresh s.row (.inl hholder) ?_ ?_
    · split
      · exact hdue
      · exact hdue
    · rw [List.append_cons]
      exact hsent.issued hnew' hnot
  · cases hask

theorem written_tokens (numberString : ℚ → String) {applied : Applied} {access refresh : String}
    (haccess : applied.access = some (.str access))
    (hrefresh : applied.refresh = some (.str refresh)) (account : Option (String × String))
    (trakt : LinkColumn → Option String) :
    written numberString (writesOf numberString applied account) trakt .accessToken = some access ∧
      written numberString (writesOf numberString applied account) trakt .refreshToken
        = some refresh := by
  unfold written writesOf
  rw [haccess, hrefresh]
  cases account <;> exact ⟨rfl, rfl⟩

theorem Inv.saveRow (h : Inv s) {task : Nat} {applied : Applied}
    {account : Option (String × String)} (hpc : s.refreshes task = .saving applied account) :
    Inv (saveRow numberString s task applied account) := by
  obtain ⟨hholder, hholding⟩ := h.holding task (by rw [hpc]; rfl)
  have hstage := h.stage
  rw [hholding, hpc] at hstage
  obtain ⟨l, access, refresh, hcurrent, haccess, hrefresh, hnea, hner, hunsent⟩ := hstage
  obtain ⟨hrowAccess, hrowRefresh⟩ := written_tokens numberString haccess hrefresh
    account s.row.trakt
  have hsaved : LinkEvent.neutral (.saved applied.access applied.refresh) = true := rfl
  have hreturned : LinkEvent.neutral (.returned applied.access applied.refresh) = true := rfl
  have hmem : Stored (s.log ++ [.saved applied.access applied.refresh]) access refresh := by
    rw [haccess, hrefresh]
    exact .inr (List.mem_append_right _ List.mem_cons_self)
  have hcurrent' := hcurrent.concat (apart_of_neutral hsaved)
  have hunsent' := (apart_of_neutral hsaved).unsent hcurrent hunsent
  refine h.moveRefresh _ (.inl hholder) ?_ ?_
  · rw [if_neg (by decide), if_pos hholder, List.append_cons]
    refine .inr ⟨l, access, refresh, hcurrent'.concat (apart_of_neutral hreturned), .inl ⟨?_, ?_, ?_⟩⟩
    · exact holds_of_trakt hrowAccess hrowRefresh hnea hner
    · exact hmem.append _
    · exact (apart_of_neutral hreturned).unsent hcurrent' hunsent'
  · rw [List.append_cons]
    exact (h.book.neutral hsaved trivial).neutral hreturned
      ⟨access, refresh, haccess, hrefresh, hmem⟩

theorem Inv.clearRow (h : Inv s) {task : Nat} {link : Latest}
    (hpc : s.refreshes task = .clearing link) : Inv (clearRow s task link) := by
  obtain ⟨hholder, hholding⟩ := h.holding task (by rw [hpc]; rfl)
  have hstage := h.stage
  rw [hholding, hpc] at hstage
  obtain ⟨l, access, hcurrent, hholds, hrefused⟩ := hstage
  have hcleared : LinkEvent.neutral (.cleared link.refresh (s.row.text .refreshToken)) = true := rfl
  refine h.moveRefresh _ (.inl hholder) ?_ ?_
  · rw [if_neg (by decide), if_pos hholder]
    refine .inr ⟨l, access, link.refresh, hcurrent.concat (apart_of_neutral hcleared), .inr ⟨rfl, ?_⟩⟩
    exact List.mem_append_left _ hrefused
  · exact h.book.neutral hcleared hholds.2

/-! ## The links' steps -/

/-- A link's step: the lock and the row stay as they are. -/
theorem Inv.moveLink (h : Inv s) {task : Nat} {pc : LinkPc} {events : List LinkEvent}
    (hstage : StageSound s.row (s.log ++ events) s.holding)
    (hbook : BookSound (s.log ++ events) (Function.update s.links task pc)) :
    Inv (s.moveLink task pc events) :=
  ⟨h.lock, hstage, hbook⟩

/-- A link goes on with the same tokens. -/
theorem Inv.goOn (h : Inv s) {task : Nat} {l : Linking}
    (hl : (s.links task).linking? = some l) {pc : LinkPc}
    (hpc : ∀ l', pc.linking? = some l' → l'.user = l.user ∧ l'.data = l.data) :
    Inv (s.moveLink task pc []) := by
  refine h.moveLink (by rw [List.append_nil]; exact h.stage) ?_
  rw [List.append_nil]
  refine h.book.update (fun l' hl' => ?_) fun hlast => ?_
  · obtain ⟨access, refresh, hsound⟩ := h.book.linking task l hl
    obtain ⟨huser, hdata⟩ := hpc l' hl'
    exact ⟨access, refresh, hsound.congr huser hdata⟩
  · exact absurd rfl (h.book.not_linking hlast task l hl)

theorem Inv.poll (h : Inv s) {task : Nat} (hpc : s.links task = .idle) {data : Json} {now : Int}
    {access refresh : String} (hpair : newPair s.log data = some (access, refresh)) :
    Inv (s.moveLink task (.profiling (startLinking numberString data now))
      [.issued (some task) access refresh]) := by
  obtain ⟨haccess, hrefresh, hnea, hner, hnew⟩ := newPair_eq_some hpair
  have hnone : lastLinked s.log ≠ some (some task) := by
    intro hlast
    obtain ⟨completed, hdone⟩ := h.book.linked task hlast
    rw [hpc] at hdone
    cases hdone
  have hbook : BookSound (s.log ++ [.issued (some task) access refresh]) s.links := by
    refine h.book.issued hnew fun other l hl heq => ?_
    cases heq
    rw [hpc] at hl
    cases hl
  refine h.moveLink (h.stage.concat (apart_issued hnone access refresh)) (hbook.update ?_ ?_)
  · rintro _ ⟨⟩
    refine ⟨access, refresh, ?_, hrefresh, ?_, ⟨hnea, hner⟩, ⟨refresh, hrefresh, ?_⟩, fun _ => haccess⟩
    · rw [lastIssued_concat]
      exact if_pos rfl
    · exact fun hmem => h.book.unsent hnew (mem_sent_two hmem (by simp))
    · exact wasIssued_iff.2 ⟨some task, access, List.mem_append_right _ List.mem_cons_self⟩
  · intro hlast
    rw [lastLinked_concat] at hlast
    exact absurd hlast hnone

theorem filter_truthy_str {text : String} (h : text ≠ "") :
    (some (Json.str text)).filter Json.truthy = some (.str text) :=
  Option.filter_some_pos (decide_eq_true h)

theorem Inv.refreshUser (h : Inv s) {task : Nat} {l : Linking} (hpc : s.links task = .profiling l)
    {answer : HttpAnswer} {now : Int}
    (hstep : refreshUser numberString s task l answer now = some s') : Inv s' := by
  have hl : (s.links task).linking? = some l := by
    rw [hpc]
    rfl
  obtain ⟨access, refresh, hsound⟩ := h.book.linking task l hl
  have htoken : l.user.refreshToken.filter Json.truthy = some (.str refresh) := by
    rw [hsound.token, filter_truthy_str hsound.nonempty.2]
  have hissued := issued_of_lastIssued hsound.last
  have hnone : lastLinked s.log ≠ some (some task) :=
    fun hlast => h.book.not_linking hlast task l hl rfl
  -- the token is sent while the task counts as given up
  have hgiven : BookSound s.log (Function.update s.links task (.done false)) :=
    h.book.update (fun _ heq => by cases heq) fun _ => ⟨false, rfl⟩
  have hsent : BookSound (s.log ++ [.sent refresh]) (Function.update s.links task (.done false)) := by
    refine hgiven.sent hissued hsound.unsent fun other l' hl' heq => ?_
    cases heq
    rw [Function.update_self] at hl'
    cases hl'
  have hstage : StageSound s.row (s.log ++ [.sent refresh]) s.holding := by
    refine h.stage.concat (apart_sent fun link a hcurrent => ?_)
    have howner := (h.book.owners hissued (issued_of_lastIssued hcurrent.2)).1
    exact hnone (howner ▸ hcurrent.1)
  have hfailed : Inv (s.moveLink task (.done false) [.sent refresh]) := h.moveLink hstage hsent
  unfold TraktLinks.refreshUser at hstep
  rw [htoken] at hstep
  split at hstep
  · dsimp only at hstep
    split at hstep
    · rename_i status payload
      split at hstep
      · obtain ⟨⟨a, r⟩, hpair, hstep⟩ := Option.bind_eq_some_iff.1 hstep
        cases hstep
        obtain ⟨haccess, hrefresh, hnea, hner, hnew⟩ := newPair_eq_some hpair
        have hnew' : ∀ link a', .issued link a' r ∉ s.log ++ [.sent refresh] := by
          intro link a' hmem
          rcases List.mem_append.1 hmem with hold | hnew'
          · exact hnew link a' hold
          · cases List.mem_singleton.1 hnew'
        have hnewBook : BookSound (s.log ++ [.sent refresh] ++ [.issued (some task) a r])
            (Function.update s.links task (.done false)) := by
          refine hsent.issued hnew' fun other l' hl' heq => ?_
          cases heq
          rw [Function.update_self] at hl'
          cases hl'
        have hnoneSent : lastLinked (s.log ++ [.sent refresh]) ≠ some (some task) := by
          rw [lastLinked_concat]
          exact hnone
        refine h.moveLink ?_ ?_
        · rw [List.append_cons]
          exact hstage.concat (apart_issued hnoneSent a r)
        · rw [List.append_cons, ← Function.update_idem (.done false)]
          refine hnewBook.update ?_ ?_
          · rintro _ ⟨⟩
            obtain ⟨first, hfirst, hwas⟩ := hsound.began
            have hne : first ≠ r := by
              rintro rfl
              obtain ⟨link, a', hmem⟩ := wasIssued_iff.1 hwas
              exact hnew link a' hmem
            refine ⟨a, r, ?_, ?_, ?_, ⟨hnea, hner⟩, ⟨first, hfirst, ?_⟩, fun hsame => ?_⟩
            · rw [lastIssued_concat]
              exact if_pos rfl
            · show ((payload.get "refresh_token").filter Json.truthy).or _ = _
              rw [hrefresh, filter_truthy_str hner]
              rfl
            · exact fun hmem => hsent.unsent hnew' (mem_sent_two hmem (by simp))
            · rw [List.append_assoc]
              exact wasIssued_append _ hwas
            · have hsame : some (Json.str first) = some (.str r) := hfirst.symm.trans hsame
              cases hsame
              exact absurd rfl hne
          · intro hlast
            rw [lastLinked_concat] at hlast
            exact absurd hlast hnoneSent
      · cases hstep
        exact hfailed
    · cases hstep
      exact hfailed
  · cases hstep

theorem Inv.readProfile (h : Inv s) {task : Nat} {l : Linking} (hpc : s.links task = .profiling l)
    {answer : ProfileAnswer} {now : Int} (hstep : readProfile s task l now answer = some s') :
    Inv s' := by
  have hl : (s.links task).linking? = some l := by
    rw [hpc]
    rfl
  unfold TraktLinks.readProfile at hstep
  split at hstep
  · cases hstep
  · cases hstep
    refine h.goOn hl fun l' hl' => ?_
    split at hl'
    · cases hl'
      exact ⟨rfl, rfl⟩
    · split at hl'
      · cases hl'
        exact ⟨rfl, rfl⟩
      · cases hl'
    · split at hl'
      · cases hl'
        exact ⟨rfl, rfl⟩
      · cases hl'
    · cases hl'

theorem written_link (numberString : ℚ → String) {l : Linking} {access refresh : String}
    (haccess : l.data.get "access_token" = some (.str access))
    (hrefresh : l.data.get "refresh_token" = some (.str refresh)) (username : Json)
    (account : String) (trakt : LinkColumn → Option String) :
    written numberString (linkWrites numberString l username account) trakt .accessToken
        = some access ∧
      written numberString (linkWrites numberString l username account) trakt .refreshToken
        = some refresh := by
  unfold written linkWrites
  rw [haccess, hrefresh]
  exact ⟨rfl, rfl⟩

theorem underWay_holding (h : s.underWay = false) : s.holding.underWay = false := by
  unfold Links.underWay at h
  unfold Links.holding
  cases hholder : s.holder with
  | none => rfl
  | some task =>
    rw [hholder] at h
    exact h

/-- **A link that is stored with the pair it began with**, while no refresh is
under way, is the newest. -/
theorem Inv.storeLink (h : Inv s) {task : Nat} {l : Linking} {username : Json} {account : String}
    (hpc : s.links task = .storing l username account) (hway : s.underWay = false)
    (hunrefreshed : (LinkPc.storing l username account).unrefreshed = true) :
    Inv (storeLink numberString s task l username account) := by
  obtain ⟨access, refresh, hsound⟩ := h.book.linking task l (by rw [hpc]; rfl)
  have hrefresh : l.data.get "refresh_token" = some (.str refresh) := by
    obtain ⟨first, hfirst, -⟩ := hsound.began
    have hsame : some refresh = some first := by
      have hsame := eq_of_beq hunrefreshed
      rwa [hsound.token, hfirst] at hsame
    rw [hfirst, Option.some.inj hsame]
  obtain ⟨hrowAccess, hrowRefresh⟩ := written_link numberString
    (hsound.kept hrefresh) hrefresh username account s.row.trakt
  unfold TraktLinks.storeLink
  dsimp only
  rw [hrowAccess, hrowRefresh]
  refine ⟨h.lock, ?_, h.book.store access refresh⟩
  have hrest : ∀ trakt, trakt .accessToken = some access → trakt .refreshToken = some refresh →
      Rest { s.row with trakt := trakt } (s.log ++ [.linked (some task) access refresh]) := by
    intro trakt haccess hrefresh
    refine .inr ⟨some task, access, refresh, ⟨?_, ?_⟩, .inl ⟨?_, ?_, ?_⟩⟩
    · rw [lastLinked_concat]
    · rw [lastIssued_concat]
      exact hsound.last
    · exact holds_of_trakt haccess hrefresh hsound.nonempty.1 hsound.nonempty.2
    · exact .inl ⟨some task, List.mem_append_right _ List.mem_cons_self⟩
    · exact fun hmem => hsound.unsent (mem_sent_two hmem (by simp))
  have hholding := underWay_holding hway
  show StageSound _ _ s.holding
  cases hat : s.holding with
  | asking link => rw [hat] at hholding; cases hholding
  | profiling applied => rw [hat] at hholding; cases hholding
  | saving applied account => rw [hat] at hholding; cases hholding
  | clearing link => rw [hat] at hholding; cases hholding
  | _ => exact hrest _ hrowAccess hrowRefresh

/-! ## Runs -/

theorem Inv.step {act : Act} (h : Inv s) (hok : Ok s act) (hstep : Step numberString s act s') :
    Inv s' := by
  unfold Step TraktLinks.step at hstep
  -- the steps that record nothing and leave the row
  have hsame : ∀ {task pc}, s.holder = some task ∨ s.holder = none ∨ pc.holds = false →
      StageSound s.row s.log
        (if pc.holds then pc else if s.holder = some task then .idle else s.holding) →
      Inv (s.moveRefresh task pc []) := by
    intro task pc hlock hstage
    refine h.moveRefresh s.row hlock ?_ ?_
    · rwa [List.append_nil]
    · rw [List.append_nil]
      exact h.book
  cases act with
  | call task caller =>
    dsimp only at hstep
    split at hstep
    · rename_i hpc
      cases hstep
      refine hsame (.inr (.inr rfl)) ?_
      show StageSound s.row s.log (if s.holder = some task then .idle else s.holding)
      split
      · rename_i hholder
        have hstage := h.stage
        rw [Links.holding, hholder] at hstage
        dsimp only at hstage
        rwa [hpc] at hstage
      · exact h.stage
    · cases hstep
  | lock task =>
    dsimp only at hstep
    split at hstep
    · rename_i caller hpc hholder
      cases hstep
      have hstage := h.stage
      rw [Links.holding, hholder] at hstage
      exact hsame (.inr (.inl hholder)) hstage
    · cases hstep
  | read task credentials fails =>
    dsimp only at hstep
    split at hstep
    · rename_i caller hpc
      cases hstep
      split
      · obtain ⟨hholder, hholding⟩ := h.holding task (by rw [hpc]; rfl)
        refine hsame (.inl hholder) ?_
        rw [if_neg (by decide), if_pos hholder]
        have hstage := h.stage
        rw [hholding, hpc] at hstage
        exact hstage
      · exact h.readRow hpc
    · cases hstep
  | ask task answer now =>
    dsimp only at hstep
    split at hstep
    · rename_i link hpc
      exact h.ask hpc hstep
    · cases hstep
  | profile task result =>
    dsimp only at hstep
    split at hstep
    · rename_i applied hpc
      cases hstep
      obtain ⟨hholder, hholding⟩ := h.holding task (by rw [hpc]; rfl)
      have hstage := h.stage
      rw [hholding, hpc] at hstage
      exact hsame (.inl hholder) hstage
    · cases hstep
  | save task fails =>
    dsimp only at hstep
    split at hstep
    · rename_i applied account hpc
      obtain rfl : fails = false := hok
      cases hstep
      exact h.saveRow hpc
    · cases hstep
  | clear task fails =>
    dsimp only at hstep
    split at hstep
    · rename_i link hpc
      obtain rfl : fails = false := hok
      cases hstep
      exact h.clearRow hpc
    · cases hstep
  | poll task data now =>
    dsimp only at hstep
    split at hstep
    · rename_i hpc
      obtain ⟨⟨access, refresh⟩, hpair, hstep⟩ := Option.bind_eq_some_iff.1 hstep
      cases hstep
      exact h.poll hpc hpair
    · cases hstep
  | refreshUser task answer now =>
    dsimp only at hstep
    split at hstep
    · rename_i l hpc
      exact h.refreshUser hpc hstep
    · cases hstep
  | readProfile task answer now =>
    dsimp only at hstep
    split at hstep
    · rename_i l hpc
      exact h.readProfile hpc hstep
    · cases hstep
  | check task passes =>
    dsimp only at hstep
    split at hstep
    · rename_i l username account hpc
      cases hstep
      refine h.goOn (l := l) (by rw [hpc]; rfl) fun l' hl' => ?_
      split at hl'
      · cases hl'
        exact ⟨rfl, rfl⟩
      · cases hl'
    · cases hstep
  | link task fails =>
    dsimp only at hstep
    split at hstep
    · rename_i l username account hpc
      cases hstep
      split
      · exact h.goOn (l := l) (by rw [hpc]; rfl) fun _ heq => by cases heq
      · rename_i hfails
        obtain ⟨hway, hunrefreshed⟩ := hok.resolve_left hfails
        rw [hpc] at hunrefreshed
        exact h.storeLink hpc hway hunrefreshed
    · cases hstep

theorem inv_start (row : SettingsRow) : Inv (start row) where
  lock _ h := by cases h
  stage := by
    show Rest row (start row).log
    unfold start
    cases hlink : row.link with
    | none => exact .inl ⟨rfl, hlink⟩
    | some link =>
      refine .inr ⟨none, link.access, link.refresh, ⟨rfl, rfl⟩, .inl ⟨holds_of_link hlink, ?_, ?_⟩⟩
      · exact .inl ⟨none, List.mem_cons_of_mem _ List.mem_cons_self⟩
      · simp
  book := by
    have hlinking : ∀ (log : List LinkEvent) task l,
        (start row).links task = .idle → ((start row).links task).linking? = some l →
        ∃ access refresh, LinkingSound log task l access refresh := by
      intro log task l hidle hl
      rw [hidle] at hl
      cases hl
    unfold start at hlinking ⊢
    cases row.link with
    | none =>
      exact ⟨fun h => absurd h List.not_mem_nil, fun h => absurd h List.not_mem_nil,
        fun task l => hlinking _ task l rfl, fun _ h => (by cases h), Log.eachAfter_nil⟩
    | some link =>
      refine ⟨fun h₁ h₂ => ?_, fun h => ?_, fun task l => hlinking _ task l rfl,
        fun _ h => (by cases h), ?_⟩
      · simp only [List.mem_cons, LinkEvent.issued.injEq, reduceCtorEq, List.not_mem_nil,
          or_false] at h₁ h₂
        exact ⟨h₁.1.trans h₂.1.symm, h₁.2.1.trans h₂.2.1.symm⟩
      · simp at h
      · have hfirst : Log.EachAfter Follows [.issued none link.access link.refresh] :=
          Log.eachAfter_nil.concat trivial
        exact hfirst.concat trivial

/-- **The newest pair is kept** in every run in which no link is stored while a
refresh is between its read and its write, no link that is stored has
refreshed its pair, and no statement of a refresh fails once Trakt has
answered. -/
theorem newest_pair_kept (numberString : ℚ → String) (row : SettingsRow) {acts : List Act}
    (h : Run (Guarded (Step numberString) Ok) (start row) acts s) : NewestKept s := by
  have hinv : Inv s := h.invariant (fun _ _ _ hs hstep => Inv.step hs hstep.1 hstep.2)
    (inv_start row)
  refine ⟨fun hquiet => ?_, fun _ _ _ heq => hinv.book.log _ _ _ heq,
    fun _ _ _ _ heq => hinv.book.log _ _ _ heq, fun _ _ _ _ heq => hinv.book.log _ _ _ heq⟩
  have hrest : Rest s.row s.log := by
    refine rest_of_not_underWay ?_ hinv.stage
    unfold Links.holding
    cases s.holder with
    | none => rfl
    | some task =>
      show (s.refreshes task).underWay = false
      rcases hquiet.1 task with hidle | hdone
      · rw [hidle]
        rfl
      · rw [hdone]
        rfl
  refine hrest.imp_right ?_
  rintro ⟨link, access, refresh, hcurrent, hrow⟩
  exact ⟨link, access, refresh, hcurrent, hrow.imp And.left id⟩

/-! ## A link that is cleared -/

/-- A payload with a pair. -/
def pairPayload (access refresh : String) : Json :=
  .obj [("access_token", .str access), ("refresh_token", .str refresh)]

/-- A row with a pair and an account. -/
def linkedRow : SettingsRow where
  id := 1
  user := some 1
  trakt := fun
    | .accessToken => some "access 0"
    | .refreshToken => some "refresh 0"
    | .userId => some "account"
    | _ => none

/-- A caller with the row's pair. -/
def linkedCaller : Json :=
  .obj [("accessToken", .str "access 0"), ("refreshToken", .str "refresh 0")]

/-- A call up to the request to Trakt. -/
def callActs : List Act :=
  [.call 0 (some linkedCaller), .lock 0, .read 0 (.ok ("id", "secret")) false]

/-- A device link up to the `UPDATE`. -/
def linkActs : List Act :=
  [.poll 0 (pairPayload "access 1" "refresh 1") 0,
    .readProfile 0 (.profile (.str "name") "account") 0, .check 0 true]

/-- The link is stored once the refresh is over. -/
def inTurnActs : List Act :=
  callActs ++ linkActs ++ [.ask 0 (.response 200 (.ok (pairPayload "access 2" "refresh 2"))) 0,
    .save 0 false, .link 0 false]

/-- The link is stored before the refresh is. -/
def overlappingActs : List Act :=
  callActs ++ linkActs ++ [.ask 0 (.response 401 (.error "")) 0, .link 0 false, .clear 0 false]

theorem newest_pair_kept_inTurn : ∃ s, NewestKept s ∧
    s.row.text .refreshToken = some "refresh 1" := by
  have hrun : ∃ s, inTurnActs.foldlM (fun s act =>
      if Ok s act then step wholeText s act else none) (start linkedRow) = some s ∧
      s.row.text .refreshToken = some "refresh 1" := by
    exact ⟨_, rfl, rfl⟩
  obtain ⟨s, hs, hrow⟩ := hrun
  exact ⟨s, newest_pair_kept wholeText linkedRow (Run.of_foldlM_guard hs), hrow⟩

/-- **A refused refresh clears a link made after its token was read**: the row
holds the new link's pair when the old one's refusal empties it. -/
theorem new_link_cleared :
    ∃ s, Run (Step wholeText) (start linkedRow) overlappingActs s ∧ ¬ NewestKept s := by
  have hrun : ∃ s, overlappingActs.foldlM (step wholeText) (start linkedRow) = some s ∧
      s.log = [.issued none "access 0" "refresh 0", .linked none "access 0" "refresh 0",
        .issued (some 0) "access 1" "refresh 1", .sent "refresh 0", .refused "refresh 0",
        .linked (some 0) "access 1" "refresh 1"] ++
        .cleared "refresh 0" (some "refresh 1") :: [] := by
    exact ⟨_, rfl, rfl⟩
  obtain ⟨s, hs, hlog⟩ := hrun
  refine ⟨s, Run.of_foldlM hs, fun hkept => ?_⟩
  exact absurd (hkept.clears _ _ _ _ hlog) (by decide)

end TraktLinks

end Foreseerr

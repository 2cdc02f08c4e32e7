import Foreseerr.Run
import Foreseerr.SimklLibrary
import Mathlib.Logic.Function.Basic

/-!
# A user's Simkl tokens

`simklapi.rs` refreshes a user's access token under a lock of its own, and
clears the link where Simkl rejects the grant or answers a request with a 401.
Device links (`deviceauth.rs`) and unlinks (`linkedaccounts.rs`) write the same
columns without that lock. Between the row's read and the statement that acts
on it lies a call of Simkl, so each of these statements names the access token
it started from, and changes nothing where another one is stored
(`SimklTokens.link_kept`).
-/

namespace Foreseerr

namespace SimklTokens

/-! ## The row -/

/-- The Simkl columns of the user's settings row. -/
structure LinkRow where
  accessToken : Option String := none
  refreshToken : Option String := none
  tokenExpiresAt : Option Int := none
  username : Option String := none
  userId : Option String := none
deriving DecidableEq, Repr

/-- `stored_link`, where both tokens are there: the pair and the expiry. -/
def storedLink (row : LinkRow) : Option (String × String × Option Int) := do
  let access ← row.accessToken.filter (· ≠ "")
  let refresh ← row.refreshToken.filter (· ≠ "")
  some (access, refresh, row.tokenExpiresAt.filter (· ≠ 0))

/-- `clear_credentials`: with a token, only while it is the stored one. -/
def clearCredentials (row : LinkRow) : Option String → LinkRow
  | none => {}
  | some token => if row.accessToken = some token then {} else row

/-- The `UPDATE` of a refresh. -/
def replaceToken (row : LinkRow) (stale access : String) (refresh : Option String)
    (expiresAt : Option Int) : LinkRow :=
  if row.accessToken = some stale then
    { row with accessToken := some access, refreshToken := refresh, tokenExpiresAt := expiresAt }
  else row

/-- `token_columns`: the access token as text, and the refresh token and expiry. -/
def tokenColumns (tokens : Json) (nowSeconds : Int) :
    Option String × Option Json × Option Int :=
  let refresh := (tokens.get "refresh_token").filter (!·.isNull)
  let expiresIn := match tokens.get "expires_in" with
    | some (.num n) => if n = 0 then none else some n
    | _ => none
  let expiresAt := match refresh.any Json.truthy, expiresIn with
    | true, some seconds => some (nowSeconds + seconds).floor
    | _, _ => none
  ((tokens.get "access_token").bind Json.asStr, refresh, expiresAt)

/-! ## Parties -/

/-- Where a `refresh_user_tokens` call is, with the stale token it was given. -/
inductive RefreshPc
  | idle
  /-- Waiting for `REFRESH_LOCK`. -/
  | queued (stale : String)
  /-- Holding the lock, before the row is read. -/
  | reading (stale : String)
  /-- Before the request to Simkl, with the stored refresh token. -/
  | asking (stale refresh : String)
  /-- Before the `UPDATE`. -/
  | updating (stale access : String) (refresh : Option String) (expiresAt : Option Int)
  /-- The grant was rejected, before the link is cleared. -/
  | clearing (stale : String)
  /-- Before the deletes of `clear_sync_cache` that are left. -/
  | purging (stale : String) (left : Nat)
  | done
deriving DecidableEq, Repr

/-- The token a call started from, while it runs. -/
def RefreshPc.stale? : RefreshPc → Option String
  | .queued stale | .reading stale | .asking stale _ | .updating stale _ _ _ | .clearing stale
  | .purging stale _ => some stale
  | .idle | .done => none

/-- A call that holds the lock. -/
def RefreshPc.holds : RefreshPc → Bool
  | .idle | .queued _ | .done => false
  | _ => true

/-- Where the handling of a 401 is, with the token that was sent. -/
inductive HandlePc
  | idle
  | clearing (sent : String)
  | purging (sent : String) (left : Nat)
  | done
deriving DecidableEq, Repr

/-- Where a device link is, with the tokens Simkl issued for it. -/
inductive LinkPc
  | idle
  | polled (access : String) (refresh : Option String) (expiresAt : Option Int)
  /-- Before the columns are stored, with the account the profile names. -/
  | storing (access : String) (refresh : Option String) (expiresAt : Option Int)
      (userId : String) (username : Option String)
  | done
deriving DecidableEq, Repr

/-- Where an unlink is. -/
inductive UnlinkPc
  | idle
  /-- The grant is being revoked. -/
  | revoking
  | clearing
  | purging (left : Nat)
  | done
deriving DecidableEq, Repr

/-- Who an access token was issued for. -/
inductive Owner
  /-- The token the row has at the start. -/
  | first
  | refresh (task : Nat)
  | link (task : Nat)
deriving DecidableEq, Repr

/-- What happened. -/
inductive TokenEvent
  /-- A refresh was called. -/
  | called (task : Nat)
  /-- Simkl was asked to refresh the link of an access token. -/
  | requested (stale : String)
  /-- Simkl answered with a new access token. -/
  | answered (stale access : String)
  /-- Simkl issued an access token. -/
  | issued (owner : Owner) (access : String)
  /-- The row changed to this access token. -/
  | stored (access : Option String)
  /-- A refresh returned an access token. -/
  | returned (task : Nat) (access : String)
deriving DecidableEq, Repr

/-- The row, the parties and the record. -/
structure System where
  row : LinkRow
  holder : Option Nat := none
  refreshes : Nat → RefreshPc := fun _ => .idle
  handlings : Nat → HandlePc := fun _ => .idle
  links : Nat → LinkPc := fun _ => .idle
  unlinks : Nat → UnlinkPc := fun _ => .idle
  log : List TokenEvent := []

/-- The access token in the row, as the record has it. -/
def storedAt (log : List TokenEvent) : Option String :=
  log.foldl (fun stored event => match event with
    | .stored access => access
    | _ => stored) none

/-- A token Simkl has issued before. -/
def wasIssued (log : List TokenEvent) (access : String) : Bool :=
  log.any fun event => match event with
    | .issued _ a => a == access
    | _ => false

/-! ## One step -/

namespace System

variable (s : System)

/-- A refresh goes on, holding the lock or giving it up. -/
def moveRefresh (task : Nat) (pc : RefreshPc) : System :=
  { s with
    refreshes := Function.update s.refreshes task pc
    holder := if pc.holds then some task else if s.holder = some task then none else s.holder }

def record (event : TokenEvent) : System := { s with log := s.log ++ [event] }

/-- The row after a statement. -/
def write (row : LinkRow) : System :=
  { s with row := row, log := s.log ++ [.stored row.accessToken] }

def moveHandling (task : Nat) (pc : HandlePc) : System :=
  { s with handlings := Function.update s.handlings task pc }

def moveLink (task : Nat) (pc : LinkPc) : System :=
  { s with links := Function.update s.links task pc }

def moveUnlink (task : Nat) (pc : UnlinkPc) : System :=
  { s with unlinks := Function.update s.unlinks task pc }

end System

/-- The tables of `clear_sync_cache`. -/
def syncTables : Nat := 2

/-- The row is read and compared with the stale token. -/
def readLink (s : System) (task : Nat) (stale : String) : System :=
  match storedLink s.row with
  | none => s.moveRefresh task .done
  | some (access, refresh, _) =>
    if access ≠ stale then (s.moveRefresh task .done).record (.returned task access)
    else s.moveRefresh task (.asking stale refresh)

/-- Simkl's answer to a refresh. -/
inductive RefreshAnswer
  | tokens (tokens : Json)
  | refused (code : String)
  | failed

/-- Keep the stored refresh token should an answer omit it. -/
def keepRefresh (refresh : String) : Json → Json
  | .obj fields =>
    match (Json.getField "refresh_token" fields).filter (!·.isNull) with
    | none => .obj (Json.setField "refresh_token" (.str refresh) fields)
    | some _ => .obj fields
  | tokens => tokens

/-- What the answer leaves to do. A new access token was never issued before. -/
def answer (s : System) (task : Nat) (stale refresh : String) (nowSeconds : Int) :
    RefreshAnswer → Option System
  | .tokens tokens =>
    let (access, refresh, expiresAt) := tokenColumns (keepRefresh refresh tokens) nowSeconds
    let asked := s.record (.requested stale)
    match access with
    | none => some (asked.moveRefresh task .done)
    | some access =>
      if wasIssued s.log access then none
      else some (((asked.record (.issued (.refresh task) access)).moveRefresh task
        (.updating stale access (refresh.bind Json.asStr) expiresAt)).record
          (.answered stale access))
  | .refused code =>
    some ((s.record (.requested stale)).moveRefresh task
      (if code = "invalid_grant" ∨ code = "invalid_client" then .clearing stale else .done))
  | .failed => some ((s.record (.requested stale)).moveRefresh task .done)

/-- The `UPDATE` of a refresh, and what it returns. -/
def update (s : System) (task : Nat) (stale access : String) (refresh : Option String)
    (expiresAt : Option Int) : System :=
  if s.row.accessToken = some stale then
    ((s.write (replaceToken s.row stale access refresh expiresAt)).moveRefresh task .done).record
      (.returned task access)
  else s.moveRefresh task .done

/-- The conditional clearing of a refresh. -/
def clearRefresh (s : System) (task : Nat) (stale : String) : System :=
  if s.row.accessToken = some stale then
    (s.write (clearCredentials s.row (some stale))).moveRefresh task (.purging stale syncTables)
  else s.moveRefresh task .done

/-- The conditional clearing of a 401. -/
def clearHandling (s : System) (task : Nat) (sent : String) : System :=
  if s.row.accessToken = some sent then
    (s.write (clearCredentials s.row (some sent))).moveHandling task (.purging sent syncTables)
  else s.moveHandling task .done

/-- What can happen next. -/
inductive Act
  /-- `refresh_user_tokens` is called with a stale token. -/
  | call (task : Nat) (stale : String)
  | lock (task : Nat)
  | read (task : Nat)
  | ask (task : Nat) (outcome : RefreshAnswer) (nowSeconds : Int)
  | update (task : Nat)
  | clear (task : Nat)
  /-- One delete of a refresh's `clear_sync_cache`. -/
  | purge (task : Nat)
  /-- `unauthorized`, with the token that was sent. -/
  | unauthorized (task : Nat) (sent : String)
  | handle (task : Nat)
  | purgeHandling (task : Nat)
  /-- A device poll is answered with tokens. -/
  | poll (task : Nat) (tokens : Json) (nowSeconds : Int)
  /-- The profile is read and the account is free, or the link ends. -/
  | profile (task : Nat) (account : Option (String × Option String))
  | link (task : Nat)
  | unlink (task : Nat)
  | revoke (task : Nat)
  | clearUnlink (task : Nat)
  | purgeUnlink (task : Nat)

/-- The text a token column gets. -/
def columnText (numberString : ℚ → String) : Json → Option String
  | .null => none
  | value => some (jsString numberString value)

/-- One statement, or one call of Simkl. -/
def step (numberString : ℚ → String) (s : System) : Act → Option System
  | .call task stale => match s.refreshes task with
    | .idle => some ((s.record (.called task)).moveRefresh task (.queued stale))
    | _ => none
  | .lock task => match s.refreshes task, s.holder with
    | .queued stale, none => some (s.moveRefresh task (.reading stale))
    | _, _ => none
  | .read task => match s.refreshes task with
    | .reading stale => some (readLink s task stale)
    | _ => none
  | .ask task outcome nowSeconds => match s.refreshes task with
    | .asking stale refresh => answer s task stale refresh nowSeconds outcome
    | _ => none
  | .update task => match s.refreshes task with
    | .updating stale access refresh expiresAt =>
      some (update s task stale access refresh expiresAt)
    | _ => none
  | .clear task => match s.refreshes task with
    | .clearing stale => some (clearRefresh s task stale)
    | _ => none
  | .purge task => match s.refreshes task with
    | .purging stale (left + 1) =>
      some (s.moveRefresh task (if left = 0 then .done else .purging stale left))
    | _ => none
  | .unauthorized task sent => match s.handlings task with
    | .idle => some (s.moveHandling task (.clearing sent))
    | _ => none
  | .handle task => match s.handlings task with
    | .clearing sent => some (clearHandling s task sent)
    | _ => none
  | .purgeHandling task => match s.handlings task with
    | .purging sent (left + 1) =>
      some (s.moveHandling task (if left = 0 then .done else .purging sent left))
    | _ => none
  | .poll task tokens nowSeconds => match s.links task with
    | .idle =>
      let (access, refresh, expiresAt) := tokenColumns tokens nowSeconds
      match access.filter (· ≠ "") with
      | none => some (s.moveLink task .done)
      | some access =>
        if wasIssued s.log access then none
        else some ((s.record (.issued (.link task) access)).moveLink task
          (.polled access (refresh.bind (columnText numberString)) expiresAt))
    | _ => none
  | .profile task account => match s.links task with
    | .polled access refresh expiresAt => some (s.moveLink task (match account with
        | some (userId, username) => .storing access refresh expiresAt userId username
        | none => .done))
    | _ => none
  | .link task => match s.links task with
    | .storing access refresh expiresAt userId username =>
      let row : LinkRow :=
        { accessToken := some access
          refreshToken := refresh
          tokenExpiresAt := expiresAt
          username := username.or s.row.username
          userId := some userId }
      some ((s.write row).moveLink task .done)
    | _ => none
  | .unlink task => match s.unlinks task with
    | .idle => some (s.moveUnlink task .revoking)
    | _ => none
  | .revoke task => match s.unlinks task with
    | .revoking => some (s.moveUnlink task .clearing)
    | _ => none
  | .clearUnlink task => match s.unlinks task with
    | .clearing => some ((s.write (clearCredentials s.row none)).moveUnlink task
        (.purging syncTables))
    | _ => none
  | .purgeUnlink task => match s.unlinks task with
    | .purging (left + 1) =>
      some (s.moveUnlink task (if left = 0 then .done else .purging left))
    | _ => none

/-- The steps as a relation. -/
def Step (numberString : ℚ → String) (s : System) (act : Act) (s' : System) : Prop :=
  step numberString s act = some s'

/-- The user's row at the start. -/
def start (row : LinkRow) : System where
  row := row
  log := match row.accessToken with
    | some access => [.issued .first access, .stored (some access)]
    | none => [.stored none]

/-! ## What is to hold of every run -/

/-- The token that was sent, while a 401 is handled. -/
def HandlePc.sent? : HandlePc → Option String
  | .clearing sent | .purging sent _ => some sent
  | .idle | .done => none

/-- The access token a step of a refresh or of a 401 handling started from. -/
def System.startedFrom (s : System) : Act → Option String
  | .call _ stale => some stale
  | .lock task | .read task | .ask task _ _ | .update task | .clear task | .purge task =>
    (s.refreshes task).stale?
  | .unauthorized _ sent => some sent
  | .handle task | .purgeHandling task => (s.handlings task).sent?
  | _ => none

/-- **No link is undone.** A refresh or a 401 handling changes the row only
while the access token it started from is the stored one. No refresh is
requested for an access token that one was answered for. A refresh returns an
access token that was stored at some moment of the call. -/
structure LinkKept (numberString : ℚ → String) (s : System) : Prop where
  changes : ∀ act s' token, Step numberString s act s' → s.startedFrom act = some token →
    s'.row ≠ s.row → s.row.accessToken = some token
  requests : ∀ before after stale, s.log = before ++ .requested stale :: after →
    ∀ access, .answered stale access ∉ before
  returns : ∀ before after task access, s.log = before ++ .returned task access :: after →
    ∃ during rest, before = during ++ rest ∧ .called task ∈ during ∧
      storedAt during = some access

/-- What an event follows. -/
def Follows (before : List TokenEvent) : TokenEvent → Prop
  | .requested stale => ∀ access, .answered stale access ∉ before
  | .returned task access => .called task ∈ before ∧ storedAt before = some access
  | _ => True

/-! ## The record -/

variable {numberString : ℚ → String} {log : List TokenEvent} {s s' : System}

theorem storedAt_concat (log : List TokenEvent) (event : TokenEvent) :
    storedAt (log ++ [event]) = match event with
      | .stored access => access
      | _ => storedAt log := by
  cases event <;> simp [storedAt]

theorem stored_of_storedAt {access : String} (h : storedAt log = some access) :
    .stored (some access) ∈ log := by
  induction log using List.reverseRecOn with
  | nil => cases h
  | append_singleton log event ih =>
    rw [storedAt_concat] at h
    cases event with
    | stored a =>
      obtain rfl : a = some access := h
      exact List.mem_append_right _ List.mem_cons_self
    | _ => exact List.mem_append_left _ (ih h)

theorem wasIssued_iff {access : String} :
    wasIssued log access = true ↔ ∃ owner, .issued owner access ∈ log := by
  unfold wasIssued
  rw [List.any_eq_true]
  constructor
  · rintro ⟨event, hmem, hevent⟩
    cases event with
    | issued owner a => exact ⟨owner, eq_of_beq hevent ▸ hmem⟩
    | _ => cases hevent
  · rintro ⟨owner, hmem⟩
    exact ⟨_, hmem, beq_self_eq_true access⟩

theorem wasIssued_append {access : String} (events : List TokenEvent)
    (h : wasIssued log access = true) : wasIssued (log ++ events) access = true := by
  obtain ⟨owner, hmem⟩ := wasIssued_iff.1 h
  exact wasIssued_iff.2 ⟨owner, List.mem_append_left _ hmem⟩

/-! ## The invariant -/

/-- The access token of a link that is not stored yet. -/
def LinkPc.pending? : LinkPc → Option String
  | .polled access _ _ | .storing access _ _ _ _ => some access
  | .idle | .done => none

/-- The access token of a refresh that is not stored yet. -/
def RefreshPc.pending? : RefreshPc → Option String
  | .updating _ access _ _ => some access
  | _ => none

/-- An access token that waits to be stored was issued to who will store it,
and was never stored. -/
def Waits (log : List TokenEvent) (owner : Owner) (access : String) : Prop :=
  .issued owner access ∈ log ∧ .stored (some access) ∉ log

/-- What holds of the tokens: one is issued once and stored once. -/
structure Core (s : System) : Prop where
  lock : ∀ task, (s.refreshes task).holds = true → s.holder = some task
  row : storedAt s.log = s.row.accessToken
  issuedOnce : ∀ {owner owner' access}, .issued owner access ∈ s.log →
    .issued owner' access ∈ s.log → owner = owner'
  storedIssued : ∀ {access}, .stored (some access) ∈ s.log → wasIssued s.log access = true
  updating : ∀ task access, (s.refreshes task).pending? = some access →
    Waits s.log (.refresh task) access
  linking : ∀ task access, (s.links task).pending? = some access → Waits s.log (.link task) access
  asking : ∀ task stale refresh, s.refreshes task = .asking stale refresh →
    .stored (some stale) ∈ s.log ∧ ∀ access, .answered stale access ∉ s.log
  called : ∀ task stale, (s.refreshes task).stale? = some stale → .called task ∈ s.log
  log : Log.EachAfter Follows s.log

/-- **The invariant**: a token that a refresh was answered for is gone from the
row for good once that refresh is over. -/
structure Inv (s : System) : Prop extends Core s where
  answered : ∀ stale access, .answered stale access ∈ s.log → .stored (some stale) ∈ s.log ∧
    (storedAt s.log ≠ some stale ∨
      ∃ task a r e, s.refreshes task = .updating stale a r e)

/-- Who holds the lock is alone in holding it. -/
theorem Core.alone (h : Core s) {task : Nat} (htask : (s.refreshes task).holds = true)
    (other : Nat) (hother : (s.refreshes other).holds = true) : other = task :=
  Option.some.inj ((h.lock other hother).symm.trans (h.lock task htask))

theorem Waits.concat {owner : Owner} {access : String} (h : Waits log owner access)
    {event : TokenEvent} (hevent : event ≠ .stored (some access)) :
    Waits (log ++ [event]) owner access := by
  refine ⟨List.mem_append_left _ h.1, fun hmem => ?_⟩
  rcases List.mem_append.1 hmem with hold | hnew
  · exact h.2 hold
  · exact hevent (List.mem_singleton.1 hnew).symm

/-- An event that issues, stores and answers nothing. -/
def TokenEvent.neutral : TokenEvent → Bool
  | .called _ | .requested _ | .returned _ _ => true
  | _ => false

theorem mem_of_mem_neutral {event e : TokenEvent} (hneutral : event.neutral = true)
    (he : e.neutral = false) (h : e ∈ log ++ [event]) : e ∈ log := by
  rcases List.mem_append.1 h with hold | hnew
  · exact hold
  · obtain rfl := List.mem_singleton.1 hnew
    rw [hneutral] at he
    cases he

theorem storedAt_neutral {event : TokenEvent} (h : event.neutral = true) :
    storedAt (log ++ [event]) = storedAt log := by
  rw [storedAt_concat]
  cases event <;> first | rfl | cases h

/-- A call, a request or a return is recorded. -/
theorem Core.record (h : Core s) {event : TokenEvent} (hneutral : event.neutral = true)
    (hfollows : Follows s.log event) : Core (s.record event) where
  lock := h.lock
  row := (storedAt_neutral hneutral).trans h.row
  issuedOnce h₁ h₂ := h.issuedOnce (mem_of_mem_neutral hneutral rfl h₁)
    (mem_of_mem_neutral hneutral rfl h₂)
  storedIssued hmem := wasIssued_append _ (h.storedIssued (mem_of_mem_neutral hneutral rfl hmem))
  updating task access hpc := by
    refine (h.updating task access hpc).concat ?_
    rintro rfl
    cases hneutral
  linking task access hpc := by
    refine (h.linking task access hpc).concat ?_
    rintro rfl
    cases hneutral
  asking task stale refresh hpc := by
    obtain ⟨hstored, hnone⟩ := h.asking task stale refresh hpc
    refine ⟨List.mem_append_left _ hstored, fun access hmem => hnone access ?_⟩
    exact mem_of_mem_neutral hneutral rfl hmem
  called task stale hpc := List.mem_append_left _ (h.called task stale hpc)
  log := h.log.concat hfollows

/-- Simkl issues a token it has not issued before. -/
theorem Core.issue (h : Core s) {owner : Owner} {access : String}
    (hnew : ¬ wasIssued s.log access = true) : Core (s.record (.issued owner access)) where
  lock := h.lock
  row := (storedAt_concat _ _).trans h.row
  issuedOnce h₁ h₂ := by
    have hnot : ∀ o, .issued o access ∉ s.log := fun o hmem => hnew (wasIssued_iff.2 ⟨o, hmem⟩)
    rcases List.mem_append.1 h₁ with h₁ | h₁ <;> rcases List.mem_append.1 h₂ with h₂ | h₂
    · exact h.issuedOnce h₁ h₂
    · cases List.mem_singleton.1 h₂
      exact absurd h₁ (hnot _)
    · cases List.mem_singleton.1 h₁
      exact absurd h₂ (hnot _)
    · cases List.mem_singleton.1 h₁
      cases List.mem_singleton.1 h₂
      rfl
  storedIssued hmem :=
    wasIssued_append _ (h.storedIssued (by simpa [System.record] using hmem))
  updating task a hpc := (h.updating task a hpc).concat (by simp)
  linking task a hpc := (h.linking task a hpc).concat (by simp)
  asking task stale refresh hpc := by
    obtain ⟨hstored, hnone⟩ := h.asking task stale refresh hpc
    refine ⟨List.mem_append_left _ hstored, fun a hmem => hnone a ?_⟩
    simpa [System.record] using hmem
  called task stale hpc := List.mem_append_left _ (h.called task stale hpc)
  log := h.log.concat trivial

/-- A refresh goes on. -/
theorem Core.moveRefresh (h : Core s) {task : Nat} {pc : RefreshPc}
    (hlock : s.holder = some task ∨ s.holder = none ∨ pc.holds = false)
    (hwaits : ∀ access, pc.pending? = some access → Waits s.log (.refresh task) access)
    (hasks : ∀ stale refresh, pc = .asking stale refresh →
      .stored (some stale) ∈ s.log ∧ ∀ access, .answered stale access ∉ s.log)
    (hcalled : ∀ stale, pc.stale? = some stale → .called task ∈ s.log) :
    Core (s.moveRefresh task pc) where
  lock other hother := by
    have hother : (Function.update s.refreshes task pc other).holds = true := hother
    by_cases heq : other = task
    · subst heq
      rw [Function.update_self] at hother
      exact if_pos hother
    · rw [Function.update_of_ne heq] at hother
      have hholder : s.holder = some other := h.lock other hother
      have hne : s.holder ≠ some task := by
        rw [hholder]
        exact fun hsame => heq (Option.some.inj hsame)
      have hpc : ¬ pc.holds = true := by
        rcases hlock with hsame | hnone | hfree
        · exact absurd hsame hne
        · rw [hnone] at hholder
          cases hholder
        · rw [hfree]
          exact Bool.false_ne_true
      show (if pc.holds then some task else if s.holder = some task then none else s.holder) = _
      rw [if_neg hpc, if_neg hne, hholder]
  row := h.row
  issuedOnce := h.issuedOnce
  storedIssued := h.storedIssued
  updating other access hother := by
    have hother : (Function.update s.refreshes task pc other).pending? = some access := hother
    by_cases heq : other = task
    · subst heq
      rw [Function.update_self] at hother
      exact hwaits access hother
    · rw [Function.update_of_ne heq] at hother
      exact h.updating other access hother
  linking := h.linking
  asking other stale refresh hother := by
    have hother : Function.update s.refreshes task pc other = .asking stale refresh := hother
    by_cases heq : other = task
    · subst heq
      rw [Function.update_self] at hother
      exact hasks stale refresh hother
    · rw [Function.update_of_ne heq] at hother
      exact h.asking other stale refresh hother
  called other stale hother := by
    have hother : (Function.update s.refreshes task pc other).stale? = some stale := hother
    by_cases heq : other = task
    · subst heq
      rw [Function.update_self] at hother
      exact hcalled stale hother
    · rw [Function.update_of_ne heq] at hother
      exact h.called other stale hother
  log := h.log

theorem Core.moveLink (h : Core s) {task : Nat} {pc : LinkPc}
    (hwaits : ∀ access, pc.pending? = some access → Waits s.log (.link task) access) :
    Core (s.moveLink task pc) where
  lock := h.lock
  row := h.row
  issuedOnce := h.issuedOnce
  storedIssued := h.storedIssued
  updating := h.updating
  linking other access hother := by
    have hother : (Function.update s.links task pc other).pending? = some access := hother
    by_cases heq : other = task
    · subst heq
      rw [Function.update_self] at hother
      exact hwaits access hother
    · rw [Function.update_of_ne heq] at hother
      exact h.linking other access hother
  asking := h.asking
  called := h.called
  log := h.log

theorem Core.moveHandling (h : Core s) (task : Nat) (pc : HandlePc) :
    Core (s.moveHandling task pc) :=
  ⟨h.lock, h.row, h.issuedOnce, h.storedIssued, h.updating, h.linking, h.asking, h.called, h.log⟩

theorem Core.moveUnlink (h : Core s) (task : Nat) (pc : UnlinkPc) :
    Core (s.moveUnlink task pc) :=
  ⟨h.lock, h.row, h.issuedOnce, h.storedIssued, h.updating, h.linking, h.asking, h.called, h.log⟩

/-- **The row changes** to no token, or to one that was never stored and that
nobody else waits to store. -/
theorem Core.write (h : Core s) {row : LinkRow}
    (hnew : ∀ access, row.accessToken = some access → wasIssued s.log access = true ∧
      .stored (some access) ∉ s.log)
    (hupdating : ∀ task access, (s.refreshes task).pending? = some access →
      row.accessToken ≠ some access)
    (hlinking : ∀ task access, (s.links task).pending? = some access →
      row.accessToken ≠ some access) : Core (s.write row) where
  lock := h.lock
  row := storedAt_concat _ _
  issuedOnce h₁ h₂ := h.issuedOnce (by simpa [System.write] using h₁)
    (by simpa [System.write] using h₂)
  storedIssued hmem := by
    rcases List.mem_append.1 hmem with hold | hlast
    · exact wasIssued_append _ (h.storedIssued hold)
    · have heq := TokenEvent.stored.inj (List.mem_singleton.1 hlast)
      exact wasIssued_append _ (hnew _ heq.symm).1
  updating task access hpc := (h.updating task access hpc).concat fun heq =>
    hupdating task access hpc (TokenEvent.stored.inj heq)
  linking task access hpc := (h.linking task access hpc).concat fun heq =>
    hlinking task access hpc (TokenEvent.stored.inj heq)
  asking task stale refresh hpc := by
    obtain ⟨hstored, hnone⟩ := h.asking task stale refresh hpc
    refine ⟨List.mem_append_left _ hstored, fun access hmem => hnone access ?_⟩
    simpa [System.write] using hmem
  called task stale hpc := List.mem_append_left _ (h.called task stale hpc)
  log := h.log.concat trivial

/-- Only one waits to store a token. -/
theorem Core.waits_ne (h : Core s) {owner owner' : Owner} {access access' : String}
    (hwaits : Waits s.log owner access) (hwaits' : Waits s.log owner' access')
    (hne : owner ≠ owner') : some access ≠ some access' := by
  rintro ⟨⟩
  exact hne (h.issuedOnce hwaits.1 hwaits'.1)

/-! ## The tokens that were refreshed -/

/-- A token that was refreshed is gone, or about to be replaced. -/
abbrev Gone (s : System) (stale : String) : Prop :=
  .stored (some stale) ∈ s.log ∧
    (storedAt s.log ≠ some stale ∨ ∃ task a r e, s.refreshes task = .updating stale a r e)

/-- It stays so over a step that stores nothing and leaves the updates alone. -/
theorem Gone.step {stale : String} (h : Gone s stale) {events : List TokenEvent}
    (hlog : s'.log = s.log ++ events) (hstored : storedAt s'.log = storedAt s.log)
    (hupdates : ∀ task a r e, s.refreshes task = .updating stale a r e →
      s'.refreshes task = .updating stale a r e ∨ storedAt s.log ≠ some stale) :
    Gone s' stale := by
  refine ⟨hlog ▸ List.mem_append_left _ h.1, ?_⟩
  rw [hstored]
  rcases h.2 with hne | ⟨task, a, r, e, hpc⟩
  · exact .inl hne
  · exact (hupdates task a r e hpc).symm.imp_right fun hpc => ⟨task, a, r, e, hpc⟩

/-- The row gets a token that was never stored. -/
theorem Gone.write {stale : String} (h : .stored (some stale) ∈ s.log) {row : LinkRow}
    (hnew : ∀ access, row.accessToken = some access → .stored (some access) ∉ s.log) :
    Gone (s.write row) stale := by
  refine ⟨List.mem_append_left _ h, .inl fun heq => ?_⟩
  exact hnew stale ((storedAt_concat _ _).symm.trans heq) h

theorem Inv.record (h : Inv s) {event : TokenEvent} (hneutral : event.neutral = true)
    (hfollows : Follows s.log event) : Inv (s.record event) where
  toCore := h.toCore.record hneutral hfollows
  answered stale access hmem :=
    Gone.step (h.answered stale access (mem_of_mem_neutral hneutral rfl hmem)) rfl
      (storedAt_neutral hneutral) fun _ _ _ _ hpc => .inl hpc

theorem Inv.issue (h : Inv s) (owner : Owner) {access : String}
    (hnew : ¬ wasIssued s.log access = true) : Inv (s.record (.issued owner access)) where
  toCore := h.toCore.issue hnew
  answered stale a hmem :=
    Gone.step (h.answered stale a (by simpa [System.record] using hmem)) rfl
      (storedAt_concat _ _) fun _ _ _ _ hpc => .inl hpc

theorem Inv.moveLink (h : Inv s) {task : Nat} {pc : LinkPc}
    (hwaits : ∀ access, pc.pending? = some access → Waits s.log (.link task) access) :
    Inv (s.moveLink task pc) :=
  ⟨h.toCore.moveLink hwaits, h.answered⟩

/-- A refresh goes on, unless it leaves the token that was refreshed in the row. -/
theorem Inv.moveRefresh (h : Inv s) {task : Nat} {pc : RefreshPc}
    (hlock : s.holder = some task ∨ s.holder = none ∨ pc.holds = false)
    (hwaits : ∀ access, pc.pending? = some access → Waits s.log (.refresh task) access)
    (hasks : ∀ stale refresh, pc = .asking stale refresh →
      .stored (some stale) ∈ s.log ∧ ∀ access, .answered stale access ∉ s.log)
    (hcalled : ∀ stale, pc.stale? = some stale → .called task ∈ s.log)
    (hgone : ∀ stale a r e, s.refreshes task = .updating stale a r e →
      storedAt s.log ≠ some stale) : Inv (s.moveRefresh task pc) where
  toCore := h.toCore.moveRefresh hlock hwaits hasks hcalled
  answered stale access hmem := by
    refine Gone.step (h.answered stale access hmem) (List.append_nil _).symm rfl ?_
    intro other a r e hother
    by_cases heq : other = task
    · subst heq
      exact .inr (hgone stale a r e hother)
    · refine .inl ?_
      show Function.update s.refreshes task pc other = _
      rw [Function.update_of_ne heq, hother]

theorem Inv.write (h : Inv s) {row : LinkRow}
    (hnew : ∀ access, row.accessToken = some access → wasIssued s.log access = true ∧
      .stored (some access) ∉ s.log)
    (hupdating : ∀ task access, (s.refreshes task).pending? = some access →
      row.accessToken ≠ some access)
    (hlinking : ∀ task access, (s.links task).pending? = some access →
      row.accessToken ≠ some access) : Inv (s.write row) where
  toCore := h.toCore.write hnew hupdating hlinking
  answered stale access hmem :=
    Gone.write (h.answered stale access (by simpa [System.write] using hmem)).1
      fun a ha => (hnew a ha).2

/-- Clearing the row. -/
theorem Inv.clear (h : Inv s) : Inv (s.write {}) :=
  h.write (fun _ heq => by cases heq) (fun _ _ _ heq => by cases heq) fun _ _ _ heq => by cases heq

/-! ## The steps -/

/-- A refresh that holds the lock goes to a step at which nothing waits. -/
theorem Inv.goOn (h : Inv s) {task : Nat} {pc : RefreshPc}
    (hholds : (s.refreshes task).holds = true) (hpending : (s.refreshes task).pending? = none) (hpc : pc.pending? = none)
    (hasks : ∀ stale refresh, pc ≠ .asking stale refresh)
    (hcalled : ∀ stale, pc.stale? = some stale → (s.refreshes task).stale? = some stale) :
    Inv (s.moveRefresh task pc) := by
  refine h.moveRefresh (.inl (h.lock task hholds)) (fun access hsome => ?_)
    (fun stale refresh heq => absurd heq (hasks stale refresh)) (fun stale hstale => ?_)
    fun stale a r e hupdating => ?_
  · rw [hpc] at hsome
    cases hsome
  · exact h.called task stale (hcalled stale hstale)
  · rw [hupdating] at hpending
    cases hpending

theorem storedLink_eq_some {row : LinkRow} {access refresh : String} {expiresAt : Option Int}
    (h : storedLink row = some (access, refresh, expiresAt)) : row.accessToken = some access := by
  simp only [storedLink, Option.bind_eq_bind, Option.bind_eq_some_iff] at h
  obtain ⟨a, ha, r, -, heq⟩ := h
  cases heq
  exact (Option.filter_eq_some_iff.1 ha).1

theorem Inv.readLink (h : Inv s) {task : Nat} {stale : String}
    (hpc : s.refreshes task = .reading stale) : Inv (readLink s task stale) := by
  have hholds : (s.refreshes task).holds = true := by rw [hpc]; rfl
  have hpending : (s.refreshes task).pending? = none := by rw [hpc]; rfl
  have hcalled : .called task ∈ s.log := h.called task stale (by rw [hpc]; rfl)
  have hdone : Inv (s.moveRefresh task .done) :=
    h.goOn hholds hpending rfl (fun _ _ heq => by cases heq) fun _ heq => by cases heq
  unfold SimklTokens.readLink
  split
  · exact hdone
  · rename_i access refresh expiresAt hlink
    have hstored : storedAt s.log = some access := h.row.trans (storedLink_eq_some hlink)
    split
    · exact hdone.record rfl ⟨hcalled, hstored⟩
    · rename_i hsame
      obtain rfl : access = stale := not_not.1 hsame
      refine h.moveRefresh (.inl (h.lock task hholds)) (fun _ heq => by cases heq) ?_ ?_ ?_
      · rintro _ _ ⟨⟩
        refine ⟨stored_of_storedAt hstored, fun b hmem => ?_⟩
        obtain ⟨-, hne | ⟨other, a, r, e, hother⟩⟩ := h.answered access b hmem
        · exact hne hstored
        · have hsame := h.alone hholds other (by rw [hother]; rfl)
          rw [hsame, hpc] at hother
          cases hother
      · exact fun _ _ => hcalled
      · intro _ _ _ _ hupdating
        rw [hpc] at hupdating
        cases hupdating

/-- Simkl's answer is recorded, while its access token waits to be stored. -/
theorem Inv.reply (h : Inv s) {task : Nat} {stale a : String} {r : Option String}
    {e : Option Int} (hpc : s.refreshes task = .updating stale a r e)
    (hstored : .stored (some stale) ∈ s.log) : Inv (s.record (.answered stale a)) where
  lock := h.lock
  row := (storedAt_concat _ _).trans h.row
  issuedOnce h₁ h₂ := h.issuedOnce (by simpa [System.record] using h₁)
    (by simpa [System.record] using h₂)
  storedIssued hmem :=
    wasIssued_append _ (h.storedIssued (by simpa [System.record] using hmem))
  updating other access hother := (h.updating other access hother).concat (by simp)
  linking other access hother := (h.linking other access hother).concat (by simp)
  asking other token refresh hother := by
    have hother : s.refreshes other = .asking token refresh := hother
    have hholds : (s.refreshes task).holds = true := by rw [hpc]; rfl
    have halone := h.alone hholds other (by rw [hother]; rfl)
    rw [halone, hpc] at hother
    cases hother
  called other token hother := List.mem_append_left _ (h.called other token hother)
  log := h.log.concat trivial
  answered token access hmem := by
    have hkept : ∀ {token}, Gone s token → Gone (s.record (.answered stale a)) token :=
      fun hgone => hgone.step rfl (storedAt_concat _ _) fun _ _ _ _ hother => .inl hother
    rcases List.mem_append.1 hmem with hold | hnew
    · exact hkept (h.answered token access hold)
    · cases List.mem_singleton.1 hnew
      exact hkept ⟨hstored, .inr ⟨task, a, r, e, hpc⟩⟩

theorem Inv.answer (h : Inv s) {task : Nat} {stale refresh : String} {nowSeconds : Int}
    {outcome : RefreshAnswer} (hpc : s.refreshes task = .asking stale refresh)
    (hstep : answer s task stale refresh nowSeconds outcome = some s') : Inv s' := by
  obtain ⟨hstored, hnone⟩ := h.asking task stale refresh hpc
  have hasked : Inv (s.record (.requested stale)) := h.record rfl hnone
  have hat : (s.record (.requested stale)).refreshes task = .asking stale refresh := hpc
  have hdone : Inv ((s.record (.requested stale)).moveRefresh task .done) := by
    refine hasked.goOn ?_ ?_ rfl (fun _ _ heq => by cases heq) fun _ heq => by cases heq
    · rw [hat]
      rfl
    · rw [hat]
      rfl
  unfold SimklTokens.answer at hstep
  cases outcome with
  | failed =>
    cases hstep
    exact hdone
  | refused code =>
    cases hstep
    split
    · refine hasked.goOn ?_ ?_ rfl (fun _ _ heq => by cases heq) fun token htoken => ?_
      · rw [hat]
        rfl
      · rw [hat]
        rfl
      · rw [hat]
        exact htoken
    · exact hdone
  | tokens tokens =>
    dsimp only at hstep
    split at hstep
    · cases hstep
      exact hdone
    · rename_i access haccess
      split at hstep
      · cases hstep
      · rename_i hnew
        cases hstep
        have hnew' : ¬ wasIssued (s.record (.requested stale)).log access = true := by
          intro hwas
          obtain ⟨owner, hmem⟩ := wasIssued_iff.1 hwas
          exact hnew (wasIssued_iff.2 ⟨owner, mem_of_mem_neutral rfl rfl hmem⟩)
        have hissued := hasked.issue (Owner.refresh task) hnew'
        have hwaits : Waits ((s.record (.requested stale)).record
            (.issued (.refresh task) access)).log (.refresh task) access := by
          refine ⟨List.mem_append_right _ List.mem_cons_self, fun hmem => hnew' ?_⟩
          exact hasked.storedIssued (by simpa [System.record] using hmem)
        have hlock : s.holder = some task := h.lock task (by rw [hpc]; rfl)
        have hcalled : .called task ∈ s.log := h.called task stale (by rw [hpc]; rfl)
        have hmoved : ∀ r e, Inv (((s.record (.requested stale)).record
            (.issued (.refresh task) access)).moveRefresh task (.updating stale access r e)) := by
          intro r e
          refine hissued.moveRefresh (.inl hlock) ?_ (fun _ _ heq => by cases heq) ?_ ?_
          · rintro _ ⟨⟩
            exact hwaits
          · exact fun _ _ => List.mem_append_left _ (List.mem_append_left _ hcalled)
          · intro _ _ _ _ hupdating
            have hupdating : s.refreshes task = _ := hupdating
            rw [hpc] at hupdating
            cases hupdating
        refine (hmoved _ _).reply (Function.update_self _ _ _) ?_
        exact List.mem_append_left _ (List.mem_append_left _ hstored)

/-- A refresh stores the token it was answered. -/
theorem Inv.update (h : Inv s) {task : Nat} {stale access : String} {refresh : Option String}
    {expiresAt : Option Int} (hpc : s.refreshes task = .updating stale access refresh expiresAt) :
    Inv (update s task stale access refresh expiresAt) := by
  have hholder : s.holder = some task := h.lock task (by rw [hpc]; rfl)
  have hcalled : .called task ∈ s.log := h.called task stale (by rw [hpc]; rfl)
  have hwaits : Waits s.log (.refresh task) access := h.updating task access (by rw [hpc]; rfl)
  unfold SimklTokens.update
  split
  · rename_i hrow
    have hnew : (replaceToken s.row stale access refresh expiresAt).accessToken = some access := by
      rw [replaceToken, if_pos hrow]
    have hmoved : Core (s.moveRefresh task .done) :=
      h.toCore.moveRefresh (.inl hholder) (fun _ heq => by cases heq) (fun _ _ heq => by cases heq)
        fun _ heq => by cases heq
    have hcore : Core ((s.moveRefresh task .done).write
        (replaceToken s.row stale access refresh expiresAt)) := by
      refine hmoved.write ?_ ?_ ?_
      · intro token htoken
        obtain rfl := Option.some.inj (hnew.symm.trans htoken)
        exact ⟨wasIssued_iff.2 ⟨_, hwaits.1⟩, hwaits.2⟩
      · intro other token hother
        rw [hnew]
        have hother : (Function.update s.refreshes task .done other).pending? = some token := hother
        by_cases heq : other = task
        · subst heq
          rw [Function.update_self] at hother
          cases hother
        · rw [Function.update_of_ne heq] at hother
          refine h.waits_ne hwaits (h.updating other token hother) fun howner => heq ?_
          exact (Owner.refresh.inj howner).symm
      · intro other token hother
        rw [hnew]
        exact h.waits_ne hwaits (h.linking other token hother) nofun
    have hinv : Inv ((s.write (replaceToken s.row stale access refresh expiresAt)).moveRefresh
        task .done) := by
      refine ⟨hcore, fun token a hmem => ?_⟩
      have hold : .answered token a ∈ s.log := by
        simpa [System.write, System.moveRefresh] using hmem
      refine Gone.write (s := s.moveRefresh task .done) (h.answered token a hold).1 fun b hb => ?_
      obtain rfl := Option.some.inj (hnew.symm.trans hb)
      exact hwaits.2
    refine hinv.record rfl ⟨List.mem_append_left _ hcalled, ?_⟩
    exact (storedAt_concat _ _).trans hnew
  · rename_i hrow
    refine h.moveRefresh (.inl hholder) (fun _ heq => by cases heq) (fun _ _ heq => by cases heq)
      (fun _ heq => by cases heq) fun token a r e hother => ?_
    rw [hpc] at hother
    cases hother
    rw [h.row]
    exact hrow

/-- A rejected refresh clears the link it started from. -/
theorem Inv.clearRefresh (h : Inv s) {task : Nat} {stale : String}
    (hpc : s.refreshes task = .clearing stale) : Inv (clearRefresh s task stale) := by
  unfold SimklTokens.clearRefresh
  split
  · rename_i hrow
    have hcleared : clearCredentials s.row (some stale) = {} := if_pos hrow
    rw [hcleared]
    have hat : (s.write {}).refreshes task = .clearing stale := hpc
    refine h.clear.goOn ?_ ?_ rfl (fun _ _ heq => by cases heq) fun token htoken => ?_
    · rw [hat]
      rfl
    · rw [hat]
      rfl
    · rw [hat]
      exact htoken
  · refine h.goOn ?_ ?_ rfl (fun _ _ heq => by cases heq) fun _ heq => by cases heq
    · rw [hpc]
      rfl
    · rw [hpc]
      rfl

theorem Inv.moveHandling (h : Inv s) (task : Nat) (pc : HandlePc) : Inv (s.moveHandling task pc) :=
  ⟨h.toCore.moveHandling task pc, h.answered⟩

theorem Inv.moveUnlink (h : Inv s) (task : Nat) (pc : UnlinkPc) : Inv (s.moveUnlink task pc) :=
  ⟨h.toCore.moveUnlink task pc, h.answered⟩

/-- A 401 clears the link whose token was sent. -/
theorem Inv.clearHandling (h : Inv s) (task : Nat) (sent : String) :
    Inv (clearHandling s task sent) := by
  unfold SimklTokens.clearHandling
  split
  · rename_i hrow
    have hcleared : clearCredentials s.row (some sent) = {} := if_pos hrow
    rw [hcleared]
    exact h.clear.moveHandling _ _
  · exact h.moveHandling _ _

/-- A device link stores the token Simkl issued for it. -/
theorem Inv.link (h : Inv s) {task : Nat} {access userId : String}
    {refresh username : Option String} {expiresAt : Option Int}
    (hpc : s.links task = .storing access refresh expiresAt userId username) {row : LinkRow}
    (hrow : row.accessToken = some access) : Inv ((s.write row).moveLink task .done) := by
  have hwaits : Waits s.log (.link task) access := h.linking task access (by rw [hpc]; rfl)
  have hmoved : Inv (s.moveLink task .done) := h.moveLink fun _ heq => by cases heq
  have hwritten : Inv ((s.moveLink task .done).write row) := by
    refine hmoved.write ?_ ?_ ?_
    · intro token htoken
      obtain rfl := Option.some.inj (hrow.symm.trans htoken)
      exact ⟨wasIssued_iff.2 ⟨_, hwaits.1⟩, hwaits.2⟩
    · intro other token hother
      rw [hrow]
      exact h.waits_ne hwaits (h.updating other token hother) nofun
    · intro other token hother
      rw [hrow]
      have hother : (Function.update s.links task .done other).pending? = some token := hother
      by_cases heq : other = task
      · subst heq
        rw [Function.update_self] at hother
        cases hother
      · rw [Function.update_of_ne heq] at hother
        refine h.waits_ne hwaits (h.linking other token hother) fun howner => heq ?_
        exact (Owner.link.inj howner).symm
  exact hwritten

/-- Simkl issues a token for a device link. -/
theorem Inv.poll (h : Inv s) {task : Nat} {access : String} (refresh : Option String)
    (expiresAt : Option Int) (hnew : ¬ wasIssued s.log access = true) :
    Inv ((s.record (.issued (.link task) access)).moveLink task
      (.polled access refresh expiresAt)) := by
  refine (h.issue (.link task) hnew).moveLink ?_
  rintro _ ⟨⟩
  refine ⟨List.mem_append_right _ List.mem_cons_self, fun hmem => hnew ?_⟩
  exact h.storedIssued (by simpa [System.record] using hmem)

/-- **One statement, or one call of Simkl.** -/
theorem Inv.step (h : Inv s) {act : Act} (hstep : Step numberString s act s') : Inv s' := by
  unfold Step SimklTokens.step at hstep
  cases act with
  | call task stale =>
    dsimp only at hstep
    split at hstep
    · rename_i hpc
      cases hstep
      have hcalled : Inv (s.record (.called task)) := h.record rfl trivial
      have hat : (s.record (.called task)).refreshes task = .idle := hpc
      refine hcalled.moveRefresh (.inr (.inr rfl)) (fun _ heq => by cases heq)
        (fun _ _ heq => by cases heq) (fun _ _ => List.mem_append_right _ List.mem_cons_self) ?_
      intro _ _ _ _ hother
      rw [hat] at hother
      cases hother
    · cases hstep
  | lock task =>
    dsimp only at hstep
    split at hstep
    · rename_i stale hpc hfree
      cases hstep
      refine h.moveRefresh (.inr (.inl hfree)) (fun _ heq => by cases heq)
        (fun _ _ heq => by cases heq) ?_ ?_
      · exact fun _ _ => h.called task stale (by rw [hpc]; rfl)
      · intro _ _ _ _ hother
        rw [hpc] at hother
        cases hother
    · cases hstep
  | read task =>
    dsimp only at hstep
    split at hstep
    · rename_i hpc
      cases hstep
      exact h.readLink hpc
    · cases hstep
  | ask task outcome nowSeconds =>
    dsimp only at hstep
    split at hstep
    · rename_i hpc
      exact h.answer hpc hstep
    · cases hstep
  | update task =>
    dsimp only at hstep
    split at hstep
    · rename_i hpc
      cases hstep
      exact h.update hpc
    · cases hstep
  | clear task =>
    dsimp only at hstep
    split at hstep
    · rename_i hpc
      cases hstep
      exact h.clearRefresh hpc
    · cases hstep
  | purge task =>
    dsimp only at hstep
    split at hstep
    · rename_i stale left hpc
      cases hstep
      have hholds : (s.refreshes task).holds = true := by rw [hpc]; rfl
      have hpending : (s.refreshes task).pending? = none := by rw [hpc]; rfl
      split
      · exact h.goOn hholds hpending rfl (fun _ _ heq => by cases heq) fun _ heq => by cases heq
      · refine h.goOn hholds hpending rfl (fun _ _ heq => by cases heq) fun token htoken => ?_
        rw [hpc]
        exact htoken
    · cases hstep
  | unauthorized task sent =>
    dsimp only at hstep
    split at hstep
    · cases hstep
      exact h.moveHandling _ _
    · cases hstep
  | handle task =>
    dsimp only at hstep
    split at hstep
    · cases hstep
      exact h.clearHandling _ _
    · cases hstep
  | purgeHandling task =>
    dsimp only at hstep
    split at hstep
    · cases hstep
      exact h.moveHandling _ _
    · cases hstep
  | poll task tokens nowSeconds =>
    dsimp only at hstep
    split at hstep
    · split at hstep
      · cases hstep
        exact h.moveLink fun _ heq => by cases heq
      · split at hstep
        · cases hstep
        · rename_i hnew
          cases hstep
          exact h.poll _ _ hnew
    · cases hstep
  | profile task account =>
    dsimp only at hstep
    split at hstep
    · rename_i access refresh expiresAt hpc
      cases hstep
      refine h.moveLink fun token htoken => h.linking task token ?_
      rw [hpc]
      split at htoken
      · exact htoken
      · cases htoken
    · cases hstep
  | link task =>
    dsimp only at hstep
    split at hstep
    · rename_i hpc
      cases hstep
      exact h.link hpc rfl
    · cases hstep
  | unlink task =>
    dsimp only at hstep
    split at hstep
    · cases hstep
      exact h.moveUnlink _ _
    · cases hstep
  | revoke task =>
    dsimp only at hstep
    split at hstep
    · cases hstep
      exact h.moveUnlink _ _
    · cases hstep
  | clearUnlink task =>
    dsimp only at hstep
    split at hstep
    · cases hstep
      exact h.clear.moveUnlink _ _
    · cases hstep
  | purgeUnlink task =>
    dsimp only at hstep
    split at hstep
    · cases hstep
      exact h.moveUnlink _ _
    · cases hstep

theorem inv_start (row : LinkRow) : Inv (start row) := by
  obtain ⟨access, refresh, expiresAt, username, userId⟩ := row
  cases access with
  | none =>
    refine ⟨⟨?_, rfl, ?_, ?_, ?_, ?_, ?_, ?_, ?_⟩, ?_⟩
    all_goals simp [start, RefreshPc.holds, RefreshPc.pending?, LinkPc.pending?, RefreshPc.stale?]
    exact Log.eachAfter_nil.concat trivial
  | some access =>
    refine ⟨⟨?_, rfl, ?_, ?_, ?_, ?_, ?_, ?_, ?_⟩, ?_⟩
    all_goals simp [start, RefreshPc.holds, RefreshPc.pending?, LinkPc.pending?, RefreshPc.stale?]
    · exact wasIssued_iff.2 ⟨.first, List.mem_cons_self⟩
    · have hissued : Log.EachAfter Follows [.issued .first access] :=
        Log.eachAfter_nil.concat trivial
      have hstored : Follows [.issued .first access] (.stored (some access)) := trivial
      exact hissued.concat hstored

/-! ## Changes of the row -/

theorem readLink_row (s : System) (task : Nat) (stale : String) :
    (readLink s task stale).row = s.row := by
  unfold readLink
  split
  · rfl
  · split <;> rfl

theorem answer_row {task : Nat} {stale refresh : String} {nowSeconds : Int}
    {outcome : RefreshAnswer} (h : answer s task stale refresh nowSeconds outcome = some s') :
    s'.row = s.row := by
  unfold answer at h
  cases outcome with
  | failed =>
    cases h
    rfl
  | refused code =>
    cases h
    rfl
  | tokens tokens =>
    dsimp only at h
    split at h
    · cases h
      rfl
    · split at h
      · cases h
      · cases h
        rfl

/-- **A refresh or a 401 handling changes the row only while the access token
it started from is stored.** -/
theorem stored_of_changes {act : Act} {token : String} (hstep : Step numberString s act s')
    (hstarted : s.startedFrom act = some token) (hrow : s'.row ≠ s.row) :
    s.row.accessToken = some token := by
  unfold Step step at hstep
  cases act with
  | update task =>
    dsimp only at hstep
    split at hstep
    · rename_i stale access refresh expiresAt hpc
      cases hstep
      have hsame : some stale = some token := by
        rw [← hstarted, System.startedFrom, hpc]
        rfl
      unfold update at hrow
      split at hrow
      · rename_i hstored
        exact hstored.trans hsame
      · exact absurd rfl hrow
    · cases hstep
  | clear task =>
    dsimp only at hstep
    split at hstep
    · rename_i stale hpc
      cases hstep
      have hsame : some stale = some token := by
        rw [← hstarted, System.startedFrom, hpc]
        rfl
      unfold clearRefresh at hrow
      split at hrow
      · rename_i hstored
        exact hstored.trans hsame
      · exact absurd rfl hrow
    · cases hstep
  | handle task =>
    dsimp only at hstep
    split at hstep
    · rename_i sent hpc
      cases hstep
      have hsame : some sent = some token := by
        rw [← hstarted, System.startedFrom, hpc]
        rfl
      unfold clearHandling at hrow
      split at hrow
      · rename_i hstored
        exact hstored.trans hsame
      · exact absurd rfl hrow
    · cases hstep
  | read task =>
    dsimp only at hstep
    split at hstep
    · cases hstep
      exact absurd (readLink_row _ _ _) hrow
    · cases hstep
  | ask task outcome nowSeconds =>
    dsimp only at hstep
    split at hstep
    · exact absurd (answer_row hstep) hrow
    · cases hstep
  | call task stale | lock task | purge task | unauthorized task sent | purgeHandling task =>
    dsimp only at hstep
    split at hstep
    · cases hstep
      exact absurd rfl hrow
    · cases hstep
  | poll task tokens nowSeconds | profile task account | link task | unlink task | revoke task
  | clearUnlink task | purgeUnlink task => cases hstarted

/-! ## Every run -/

/-- **A refresh in flight never undoes a link or an unlink**, whatever the
calls, links, unlinks and 401s and in whatever order. -/
theorem link_kept (numberString : ℚ → String) (row : LinkRow) {acts : List Act}
    (h : Run (Step numberString) (start row) acts s) : LinkKept numberString s := by
  have hinv : Inv s := h.invariant (fun _ _ _ hs hstep => Inv.step hs hstep) (inv_start row)
  refine ⟨fun _ _ _ hstep hstarted hrow => stored_of_changes hstep hstarted hrow, ?_, ?_⟩
  · intro before after stale heq
    exact hinv.log _ _ _ heq
  · intro before after task access heq
    obtain ⟨hcalled, hstored⟩ := hinv.log _ _ _ heq
    exact ⟨before, [], (List.append_nil _).symm, hcalled, hstored⟩

/-! ## A link during a refresh -/

def linkedRow : LinkRow where
  accessToken := some "access 0"
  refreshToken := some "refresh 0"

def pairPayload (access refresh : String) : Json :=
  .obj [("access_token", .str access), ("refresh_token", .str refresh)]

/-- A refresh is answered, and a device link is stored before the refresh's
token is. A second refresh then finds the new link. -/
def linkedActs : List Act :=
  [.call 0 "access 0", .call 1 "access 0", .lock 0, .read 0,
    .poll 0 (pairPayload "access 2" "refresh 2") 0, .profile 0 (some ("account", none)),
    .ask 0 (.tokens (pairPayload "access 1" "refresh 1")) 0, .link 0, .update 0, .lock 1, .read 1]

theorem link_kept_linked : ∃ s, LinkKept (fun _ => "") s ∧
    s.row.accessToken = some "access 2" ∧ .returned 1 "access 2" ∈ s.log := by
  have hrun : ∃ s, linkedActs.foldlM (step fun _ => "") (start linkedRow) = some s ∧
      s.row.accessToken = some "access 2" ∧ s.log.getLast? = some (.returned 1 "access 2") := by
    exact ⟨_, rfl, rfl, rfl⟩
  obtain ⟨s, hs, hrow, hlast⟩ := hrun
  exact ⟨s, link_kept (fun _ => "") linkedRow (Run.of_foldlM hs), hrow,
    List.mem_of_getLast? hlast⟩

end SimklTokens

end Foreseerr

import Foreseerr.DateForms
import Foreseerr.Run
import Foreseerr.Table
import Mathlib.Logic.Function.Basic

/-!
# Password resets

`authreset.rs` stores a recovery link with the user it is mailed to. A reset
looks the presented link up, hashes the new password, and writes it where the
link still is. Between these steps another reset may use the link, or another
request replace it, so the last statement names the user, the link and the
instant again (`AuthReset.changed_once`).
-/

namespace Foreseerr

namespace AuthReset

/-! ## The rows -/

/-- The columns of a user that are read or written here. -/
structure UserRow where
  id : Int
  email : String
  password : Option String := none
  resetPasswordGuid : Option String := none
  recoveryLinkExpirationDate : Option DateValue := none
deriving DecidableEq, Repr

/-- A day. -/
def dayMs : Int := 86400000

/-- `js_length`: the units of UTF-16. -/
def jsLength (text : String) : Nat :=
  (text.toList.map fun c => if c.toNat < 65536 then 1 else 2).sum

/-- The row with the presented link: the first by its id. -/
def findLink (users : List UserRow) (guid : String) : Option UserRow :=
  (users.filter fun u => u.resetPasswordGuid = some guid).foldl (fun first u => match first with
    | some v => if u.id < v.id then some u else some v
    | none => some u) none

/-- The `UPDATE` of a request. -/
def saveLink (users : List UserRow) (id : Int) (guid : String) (expires : DateValue) :
    List UserRow :=
  users.map fun u => if u.id = id then
    { u with resetPasswordGuid := some guid, recoveryLinkExpirationDate := some expires } else u

/-- The condition of `consume_link`. -/
def UserRow.matches (u : UserRow) (id : Int) (guid : String) (now : DateValue) : Bool :=
  u.id = id && u.resetPasswordGuid = some guid &&
    u.recoveryLinkExpirationDate.any fun expires => expires.after now

/-- A row whose password was changed. -/
def UserRow.changed (u : UserRow) (hash : String) : UserRow :=
  { u with password := some hash, resetPasswordGuid := none, recoveryLinkExpirationDate := none }

/-- `consume_link`: the rows, and whether one was written. -/
def consumeLink (users : List UserRow) (id : Int) (guid hash : String) (now : DateValue) :
    List UserRow × Bool :=
  Table.updateWhere (fun u => u.matches id guid now) (fun u => u.changed hash) users

/-! ## Parties -/

/-- Where a recovery request is. -/
inductive RequestPc
  | idle
  /-- The user of the address was found. -/
  | found (id : Int)
  /-- The link is being mailed. -/
  | mailing (id : Int) (guid : String) (expires : Int)
  /-- Before the link is stored. -/
  | saving (id : Int) (guid : String) (expires : Int)
  | done
deriving DecidableEq, Repr

/-- Where a reset is, with the link that was presented. -/
inductive ResetPc
  | idle
  /-- The row of the link was found. -/
  | found (guid password : String) (id : Int) (expires : Option DateValue)
  /-- The password is being hashed. -/
  | hashing (guid password : String) (id : Int)
  /-- Before the statement that consumes the link. -/
  | consuming (guid hash : String) (id : Int)
  | refused
  | changed
deriving DecidableEq, Repr

/-- What happened. -/
inductive ResetEvent
  /-- A request drew a link for a user; a link of the start has no request. -/
  | issued (request : Option Nat) (id : Int) (guid : String)
  /-- A link was stored. -/
  | stored (id : Int) (guid : String) (expires : Option Int)
  /-- A link changed a password. -/
  | reset (id : Int) (guid : String)
deriving DecidableEq, Repr

/-- A link changed a password. -/
def ResetEvent.isReset (guid : String) : ResetEvent → Bool
  | .reset _ g => g == guid
  | _ => false

/-- The rows, the clock, the parties and the record. -/
structure System where
  users : List UserRow
  now : Int
  requests : Nat → RequestPc := fun _ => .idle
  resets : Nat → ResetPc := fun _ => .idle
  log : List ResetEvent := []

namespace System

variable (s : System)

def moveRequest (task : Nat) (pc : RequestPc) : System :=
  { s with requests := Function.update s.requests task pc }

def moveReset (task : Nat) (pc : ResetPc) : System :=
  { s with resets := Function.update s.resets task pc }

def record (event : ResetEvent) : System := { s with log := s.log ++ [event] }

end System

/-- A link that was drawn before. -/
def wasIssued (log : List ResetEvent) (guid : String) : Bool :=
  log.any fun event => match event with
    | .issued _ _ g => g == guid
    | _ => false

/-! ## One step -/

/-- What can happen next. -/
inductive Act
  /-- The clock goes on. -/
  | tick (now : Int)
  /-- `POST /auth/reset-password` with an address. -/
  | request (task : Nat) (email : String)
  /-- The user is read whole, and a link is drawn, unless one of them fails. -/
  | draw (task : Nat) (guid : Option String)
  /-- The mail was sent, or could not be. -/
  | mailed (task : Nat)
  | save (task : Nat) (fails : Bool)
  /-- `POST /auth/reset-password/{guid}` with a password. -/
  | reset (task : Nat) (guid password : String)
  /-- The user's row is read whole, unless that fails. -/
  | load (task : Nat) (fails : Bool)
  /-- The hash is ready, or could not be made. -/
  | hashed (task : Nat) (hash : Option String)
  | consume (task : Nat) (fails : Bool)

section

variable (dialect : Dialect) (toLowercase : String → String)

/-- One statement, one mail or one hash. The clock shows four-digit years. -/
def step (s : System) : Act → Option System
  | .tick now =>
    if s.now ≤ now ∧ FourDigit (now + dayMs) then some { s with now := now } else none
  | .request task email => match s.requests task with
    | .idle =>
      if email = "" then some (s.moveRequest task .done)
      else match s.users.find? (fun u => u.email = toLowercase email) with
        | none => some (s.moveRequest task .done)
        | some u => some (s.moveRequest task (.found u.id))
    | _ => none
  | .draw task guid => match s.requests task with
    | .found id => match guid with
      | none => some (s.moveRequest task .done)
      | some guid =>
        -- issued links are distinct
        if wasIssued s.log guid then none
        else some ((s.record (.issued (some task) id guid)).moveRequest task
          (.mailing id guid (s.now + dayMs)))
    | _ => none
  | .mailed task => match s.requests task with
    | .mailing id guid expires => some (s.moveRequest task (.saving id guid expires))
    | _ => none
  | .save task fails => match s.requests task with
    | .saving id guid expires =>
      if fails then some (s.moveRequest task .done)
      else some (({ s with users := saveLink s.users id guid (dateBind dialect expires) }.record
        (.stored id guid (some expires))).moveRequest task .done)
    | _ => none
  | .reset task guid password => match s.resets task with
    | .idle =>
      if jsLength password < 8 then some (s.moveReset task .refused)
      else match findLink s.users guid with
        | none => some (s.moveReset task .refused)
        | some u =>
          some (s.moveReset task (.found guid password u.id u.recoveryLinkExpirationDate))
    | _ => none
  | .load task fails => match s.resets task with
    | .found guid password id expires =>
      if fails then some (s.moveReset task .refused)
      else match expires.bind DateValue.millis? with
        | none => some (s.moveReset task .refused)
        | some expires =>
          if expires ≤ s.now then some (s.moveReset task .refused)
          else some (s.moveReset task (.hashing guid password id))
    | _ => none
  | .hashed task hash => match s.resets task with
    | .hashing guid _ id => match hash with
      | none => some (s.moveReset task .refused)
      | some hash => some (s.moveReset task (.consuming guid hash id))
    | _ => none
  | .consume task fails => match s.resets task with
    | .consuming guid hash id =>
      if fails then some (s.moveReset task .refused)
      else
        let (users, written) := consumeLink s.users id guid hash (dateBind dialect s.now)
        let after := { s with users := users }
        if written then some ((after.record (.reset id guid)).moveReset task .changed)
        else some (after.moveReset task .refused)
    | _ => none

/-- The steps as a relation. -/
def Step (s : System) (act : Act) (s' : System) : Prop :=
  step dialect toLowercase s act = some s'

end

/-- The reset a step belongs to. -/
def Act.reset? : Act → Option Nat
  | .reset task _ _ | .load task _ | .hashed task _ | .consume task _ => some task
  | _ => none

/-! ## The start -/

/-- A user at the start, with the link stored for it. -/
structure Account where
  id : Int
  email : String
  password : Option String := none
  link : Option (String × Option Int) := none

def Account.guid? (a : Account) : Option String := a.link.map Prod.fst

def Account.row (dialect : Dialect) (a : Account) : UserRow where
  id := a.id
  email := a.email
  password := a.password
  resetPasswordGuid := a.guid?
  recoveryLinkExpirationDate := (a.link.bind Prod.snd).map (dateBind dialect)

def Account.events (a : Account) : List ResetEvent :=
  match a.link with
  | none => []
  | some (guid, expires) => [.issued none a.id guid, .stored a.id guid expires]

/-- Users with ids, links and expiries that were stored like this. -/
structure Valid (accounts : List Account) : Prop where
  ids : (accounts.map Account.id).Nodup
  guids : (accounts.filterMap Account.guid?).Nodup
  expiries : ∀ a ∈ accounts, ∀ guid expires, a.link = some (guid, some expires) → FourDigit expires

def start (dialect : Dialect) (accounts : List Account) (now : Int) : System where
  users := accounts.map (Account.row dialect)
  now := now
  log := accounts.flatMap Account.events

/-! ## What is to hold of every run -/

/-- The latest link stored for a user, with its expiry. -/
def latest (id : Int) : List ResetEvent → Option (String × Option Int)
  | [] => none
  | .stored id' guid expires :: rest =>
    (latest id rest).or (if id' = id then some (guid, expires) else none)
  | _ :: rest => latest id rest

/-- What a successful reset does: its link was issued to the user, is the latest
one stored for it and has not expired, and only this user's row changes. -/
structure Changes (s : System) (guid hash : String) (id : Int) (s' : System) : Prop where
  issued : ∃ request, .issued request id guid ∈ s.log
  only : ∀ request id', .issued request id' guid ∈ s.log → id' = id
  latest : ∃ expires, latest id s.log = some (guid, some expires) ∧ s.now < expires
  row : ∃ before u after, s.users = before ++ u :: after ∧ u.id = id ∧
    s'.users = before ++ u.changed hash :: after
  log : s'.log = s.log ++ [.reset id guid]

/-- **A recovery link changes one password once.** A reset succeeds only as
`Changes` says, a link succeeds at most once, and a step of a reset that does
not succeed leaves the rows as they were. -/
structure ChangedOnce (dialect : Dialect) (toLowercase : String → String) (s : System) : Prop where
  succeeds : ∀ act s' task, Step dialect toLowercase s act s' → act.reset? = some task →
    s'.resets task = .changed → ∃ guid hash id, s.resets task = .consuming guid hash id ∧
      Changes s guid hash id s'
  once : ∀ guid, s.log.countP (ResetEvent.isReset guid) ≤ 1
  fails : ∀ act s' task, Step dialect toLowercase s act s' → act.reset? = some task →
    s'.resets task ≠ .changed → s'.users = s.users

/-! ## The record -/

variable {dialect : Dialect} {toLowercase : String → String} {log : List ResetEvent}
  {s s' : System} {id : Int} {guid : String}

theorem wasIssued_iff :
    wasIssued log guid = true ↔ ∃ request id, .issued request id guid ∈ log := by
  unfold wasIssued
  rw [List.any_eq_true]
  constructor
  · rintro ⟨event, hmem, hevent⟩
    cases event with
    | issued request id g => exact ⟨request, id, eq_of_beq hevent ▸ hmem⟩
    | _ => cases hevent
  · rintro ⟨request, id, hmem⟩
    exact ⟨_, hmem, beq_self_eq_true guid⟩

theorem latest_append (id : Int) (log log' : List ResetEvent) :
    latest id (log ++ log') = (latest id log').or (latest id log) := by
  induction log with
  | nil => simp [latest]
  | cons event log ih =>
    cases event with
    | stored id' guid expires => simp [latest, ih, Option.or_assoc]
    | _ => exact ih

theorem stored_of_latest {expires : Option Int} (h : latest id log = some (guid, expires)) :
    .stored id guid expires ∈ log := by
  induction log with
  | nil => cases h
  | cons event log ih =>
    cases event with
    | stored id' guid' expires' =>
      rw [latest, Option.or_eq_some_iff] at h
      rcases h with hrest | ⟨-, hfirst⟩
      · exact List.mem_cons_of_mem _ (ih hrest)
      · split at hfirst
        · rename_i hid
          cases hfirst
          rw [hid]
          exact List.mem_cons_self
        · cases hfirst
    | _ => exact List.mem_cons_of_mem _ (ih h)

theorem countP_isReset_eq_zero (h : ∀ id, .reset id guid ∉ log) :
    log.countP (ResetEvent.isReset guid) = 0 := by
  rw [List.countP_eq_zero]
  intro event hmem hevent
  cases event with
  | reset id g => exact h id (eq_of_beq hevent ▸ hmem)
  | _ => cases hevent

/-! ## The invariant -/

/-- A row's link: issued to the user, the latest stored for it, and never used. -/
structure Held (dialect : Dialect) (log : List ResetEvent) (u : UserRow) (guid : String) :
    Prop where
  issued : ∃ request, .issued request u.id guid ∈ log
  latest : ∃ expires, latest u.id log = some (guid, expires) ∧
    u.recoveryLinkExpirationDate = expires.map (dateBind dialect) ∧
    ∀ e ∈ expires, FourDigit e
  unused : ∀ id, .reset id guid ∉ log

/-- The link a request has drawn and not stored. -/
def RequestPc.link? : RequestPc → Option (Int × String × Int)
  | .mailing id guid expires | .saving id guid expires => some (id, guid, expires)
  | .idle | .found _ | .done => none

/-- A link that was drawn and not stored: nobody has it. -/
structure Drawn (log : List ResetEvent) (task : Nat) (id : Int) (guid : String) (expires : Int) :
    Prop where
  issued : .issued (some task) id guid ∈ log
  date : FourDigit expires
  unstored : ∀ id e, .stored id guid e ∉ log
  unused : ∀ id, .reset id guid ∉ log

/-- **The invariant**: a row holds the latest link of its user, which nobody
has used, and a link is issued once. -/
structure Inv (dialect : Dialect) (s : System) : Prop where
  clock : FourDigit s.now ∧ FourDigit (s.now + dayMs)
  ids : (s.users.map UserRow.id).Nodup
  issuedOnce : ∀ {request request' id id' guid}, .issued request id guid ∈ s.log →
    .issued request' id' guid ∈ s.log → request = request' ∧ id = id'
  storedIssued : ∀ {id guid expires}, .stored id guid expires ∈ s.log → wasIssued s.log guid = true
  resetIssued : ∀ {id guid}, .reset id guid ∈ s.log → wasIssued s.log guid = true
  rows : ∀ u ∈ s.users, ∀ guid, u.resetPasswordGuid = some guid → Held dialect s.log u guid
  drawn : ∀ task id guid expires, (s.requests task).link? = some (id, guid, expires) →
    Drawn s.log task id guid expires
  once : ∀ guid, s.log.countP (ResetEvent.isReset guid) ≤ 1

theorem Held.concat {u : UserRow} {event : ResetEvent} (h : Held dialect log u guid)
    (hstored : ∀ guid' expires, event ≠ .stored u.id guid' expires)
    (hreset : ∀ id, event ≠ .reset id guid) : Held dialect (log ++ [event]) u guid where
  issued := h.issued.imp fun _ hmem => List.mem_append_left _ hmem
  latest := by
    obtain ⟨expires, hlatest, hrest⟩ := h.latest
    refine ⟨expires, ?_, hrest⟩
    rw [latest_append, hlatest]
    cases event with
    | stored id' guid' expires' =>
      have hne : id' ≠ u.id := fun heq => hstored guid' expires' (heq ▸ rfl)
      simp [AuthReset.latest, hne]
    | _ => rfl
  unused id hmem := by
    rcases List.mem_append.1 hmem with hold | hnew
    · exact h.unused id hold
    · exact hreset id (List.mem_singleton.1 hnew).symm

theorem Drawn.concat {task : Nat} {expires : Int} {event : ResetEvent}
    (h : Drawn log task id guid expires) (hstored : ∀ id e, event ≠ .stored id guid e)
    (hreset : ∀ id, event ≠ .reset id guid) : Drawn (log ++ [event]) task id guid expires where
  issued := List.mem_append_left _ h.issued
  date := h.date
  unstored id e hmem := by
    rcases List.mem_append.1 hmem with hold | hnew
    · exact h.unstored id e hold
    · exact hstored id e (List.mem_singleton.1 hnew).symm
  unused id hmem := by
    rcases List.mem_append.1 hmem with hold | hnew
    · exact h.unused id hold
    · exact hreset id (List.mem_singleton.1 hnew).symm

theorem Inv.moveReset (h : Inv dialect s) (task : Nat) (pc : ResetPc) :
    Inv dialect (s.moveReset task pc) :=
  ⟨h.clock, h.ids, h.issuedOnce, h.storedIssued, h.resetIssued, h.rows, h.drawn, h.once⟩

theorem Inv.moveRequest (h : Inv dialect s) {task : Nat} {pc : RequestPc}
    (hdrawn : ∀ id guid expires, pc.link? = some (id, guid, expires) →
      Drawn s.log task id guid expires) : Inv dialect (s.moveRequest task pc) where
  clock := h.clock
  ids := h.ids
  issuedOnce := h.issuedOnce
  storedIssued := h.storedIssued
  resetIssued := h.resetIssued
  rows := h.rows
  drawn other id guid expires hother := by
    have hother : (Function.update s.requests task pc other).link? = some (id, guid, expires) :=
      hother
    by_cases heq : other = task
    · subst heq
      rw [Function.update_self] at hother
      exact hdrawn id guid expires hother
    · rw [Function.update_of_ne heq] at hother
      exact h.drawn other id guid expires hother
  once := h.once

/-- A link is drawn that was not drawn before. -/
theorem Inv.draw (h : Inv dialect s) {request : Option Nat} (id : Int)
    (hnew : ¬ wasIssued s.log guid = true) : Inv dialect (s.record (.issued request id guid)) where
  clock := h.clock
  ids := h.ids
  issuedOnce h₁ h₂ := by
    have hnot : ∀ r i, .issued r i guid ∉ s.log := fun r i hmem =>
      hnew (wasIssued_iff.2 ⟨r, i, hmem⟩)
    rcases List.mem_append.1 h₁ with h₁ | h₁ <;> rcases List.mem_append.1 h₂ with h₂ | h₂
    · exact h.issuedOnce h₁ h₂
    · cases List.mem_singleton.1 h₂
      exact absurd h₁ (hnot _ _)
    · cases List.mem_singleton.1 h₁
      exact absurd h₂ (hnot _ _)
    · cases List.mem_singleton.1 h₁
      cases List.mem_singleton.1 h₂
      exact ⟨rfl, rfl⟩
  storedIssued hmem := by
    obtain ⟨r, i, hissued⟩ := wasIssued_iff.1 (h.storedIssued (by simpa [System.record] using hmem))
    exact wasIssued_iff.2 ⟨r, i, List.mem_append_left _ hissued⟩
  resetIssued hmem := by
    obtain ⟨r, i, hissued⟩ := wasIssued_iff.1 (h.resetIssued (by simpa [System.record] using hmem))
    exact wasIssued_iff.2 ⟨r, i, List.mem_append_left _ hissued⟩
  rows u hu g hg := (h.rows u hu g hg).concat nofun nofun
  drawn task id' g expires hpc := (h.drawn task id' g expires hpc).concat nofun nofun
  once g := by
    have hcount := h.once g
    simpa [System.record, ResetEvent.isReset] using hcount

/-- The link that was drawn. -/
theorem Inv.drawn_self (h : Inv dialect s) {task : Nat} {expires : Int} (hdate : FourDigit expires)
    (hnew : ¬ wasIssued s.log guid = true) :
    Drawn (s.record (.issued (some task) id guid)).log task id guid expires where
  issued := List.mem_append_right _ List.mem_cons_self
  date := hdate
  unstored i e hmem := hnew (h.storedIssued (by simpa [System.record] using hmem))
  unused i hmem := hnew (h.resetIssued (by simpa [System.record] using hmem))

/-- **A drawn link is stored.** -/
theorem Inv.save (h : Inv dialect s) {task : Nat} {expires : Int}
    (hpc : (s.requests task).link? = some (id, guid, expires)) :
    Inv dialect (({ s with users := saveLink s.users id guid (dateBind dialect expires) }.record
      (.stored id guid (some expires))).moveRequest task .done) := by
  have hdrawn := h.drawn task id guid expires hpc
  have hwas : wasIssued s.log guid = true := wasIssued_iff.2 ⟨_, _, hdrawn.issued⟩
  have hgrow : ∀ {g}, wasIssued s.log g = true →
      wasIssued (s.log ++ [.stored id guid (some expires)]) g = true := by
    intro g hg
    obtain ⟨r, i, hmem⟩ := wasIssued_iff.1 hg
    exact wasIssued_iff.2 ⟨r, i, List.mem_append_left _ hmem⟩
  refine ⟨h.clock, ?_, ?_, ?_, ?_, ?_, ?_, ?_⟩
  · have hids : (saveLink s.users id guid (dateBind dialect expires)).map UserRow.id
        = s.users.map UserRow.id := by
      unfold saveLink
      rw [List.map_map]
      refine List.map_congr_left fun u _ => ?_
      show UserRow.id (if u.id = id then _ else u) = u.id
      split <;> rfl
    exact hids ▸ h.ids
  · intro r r' i i' g h₁ h₂
    exact h.issuedOnce (by simpa [System.record, System.moveRequest] using h₁)
      (by simpa [System.record, System.moveRequest] using h₂)
  · intro i g e hmem
    rcases List.mem_append.1 hmem with hold | hlast
    · exact hgrow (h.storedIssued hold)
    · cases List.mem_singleton.1 hlast
      exact hgrow hwas
  · intro i g hmem
    exact hgrow (h.resetIssued (by simpa [System.record, System.moveRequest] using hmem))
  · intro v hv g hg
    obtain ⟨u, hu, rfl⟩ := List.mem_map.1 hv
    by_cases hid : u.id = id
    · rw [if_pos hid] at hg ⊢
      cases hg
      subst hid
      refine ⟨⟨some task, List.mem_append_left _ hdrawn.issued⟩, ⟨some expires, ?_, rfl, ?_⟩, ?_⟩
      · show latest u.id (s.log ++ _) = _
        simp [latest_append, latest]
      · rintro _ ⟨⟩
        exact hdrawn.date
      · intro i hmem
        exact hdrawn.unused i (by simpa [System.record, System.moveRequest] using hmem)
    · rw [if_neg hid] at hg ⊢
      refine (h.rows u hu g hg).concat ?_ nofun
      rintro _ _ ⟨⟩
      exact hid rfl
  · intro other i g e hother
    have hother : (Function.update s.requests task .done other).link? = some (i, g, e) := hother
    by_cases heq : other = task
    · subst heq
      rw [Function.update_self] at hother
      cases hother
    · rw [Function.update_of_ne heq] at hother
      have hother := h.drawn other i g e hother
      refine hother.concat ?_ nofun
      rintro _ _ ⟨⟩
      have hsame := (h.issuedOnce hother.issued hdrawn.issued).1
      exact heq (Option.some.inj hsame)
  · intro g
    have hcount := h.once g
    simpa [System.record, System.moveRequest, ResetEvent.isReset] using hcount

theorem UserRow.id_of_matches {u : UserRow} {now : DateValue} (h : u.matches id guid now = true) :
    u.id = id := by
  rw [UserRow.matches, Bool.and_eq_true, Bool.and_eq_true, decide_eq_true_eq] at h
  exact h.1.1

/-- A row that the last statement writes: its link is the latest one of the
user and has not expired. -/
theorem Inv.of_matches (h : Inv dialect s) {u : UserRow} (hu : u ∈ s.users)
    (hmatches : u.matches id guid (dateBind dialect s.now) = true) :
    u.id = id ∧ u.resetPasswordGuid = some guid ∧
      ∃ expires, latest id s.log = some (guid, some expires) ∧ s.now < expires := by
  rw [UserRow.matches, Bool.and_eq_true, Bool.and_eq_true, decide_eq_true_eq,
    decide_eq_true_eq] at hmatches
  obtain ⟨⟨hid, hguid⟩, hafter⟩ := hmatches
  refine ⟨hid, hguid, ?_⟩
  obtain ⟨expires, hlatest, hcolumn, hdate⟩ := (h.rows u hu guid hguid).latest
  rw [hcolumn] at hafter
  cases expires with
  | none => cases hafter
  | some e =>
    refine ⟨e, hid ▸ hlatest, ?_⟩
    exact (dateBind_after_iff dialect (hdate e rfl) h.clock.1).1 hafter

/-- **A link is used.** -/
theorem Inv.use (h : Inv dialect s) {before after : List UserRow} {u : UserRow} (hash : String)
    (husers : s.users = before ++ u :: after) (hguid : u.resetPasswordGuid = some guid) :
    Inv dialect (({ s with users := before ++ u.changed hash :: after }.record
      (.reset u.id guid))) := by
  have hheld := h.rows u (husers ▸ List.mem_append_right _ List.mem_cons_self) guid hguid
  obtain ⟨request, hissued⟩ := hheld.issued
  have hgrow : ∀ {g}, wasIssued s.log g = true →
      wasIssued (s.log ++ [.reset u.id guid]) g = true := by
    intro g hg
    obtain ⟨r, i, hmem⟩ := wasIssued_iff.1 hg
    exact wasIssued_iff.2 ⟨r, i, List.mem_append_left _ hmem⟩
  have hids := h.ids
  rw [husers, List.map_append, List.map_cons] at hids
  refine ⟨h.clock, ?_, ?_, ?_, ?_, ?_, ?_, ?_⟩
  · show ((before ++ u.changed hash :: after).map UserRow.id).Nodup
    rw [List.map_append, List.map_cons]
    exact hids
  · intro r r' i i' g h₁ h₂
    exact h.issuedOnce (by simpa [System.record] using h₁) (by simpa [System.record] using h₂)
  · intro i g e hmem
    exact hgrow (h.storedIssued (by simpa [System.record] using hmem))
  · intro i g hmem
    rcases List.mem_append.1 hmem with hold | hlast
    · exact hgrow (h.resetIssued hold)
    · cases List.mem_singleton.1 hlast
      exact hgrow (wasIssued_iff.2 ⟨_, _, hissued⟩)
  · intro v hv g hg
    -- the row that was written has no link any more
    have hother : v ∈ before ∨ v ∈ after := by
      rcases List.mem_append.1 hv with hbefore | htail
      · exact .inl hbefore
      · rcases List.mem_cons.1 htail with rfl | hafter
        · cases hg
        · exact .inr hafter
    have hmem : v ∈ s.users := by
      rw [husers]
      exact List.mem_append.2 (hother.imp_right (List.mem_cons_of_mem _))
    have hne : v.id ≠ u.id := by
      intro heq
      rw [List.nodup_middle, List.nodup_cons] at hids
      refine hids.1 (heq ▸ ?_)
      rw [← List.map_append]
      exact List.mem_map_of_mem (List.mem_append.2 hother)
    have hkept := h.rows v hmem g hg
    refine hkept.concat nofun ?_
    rintro _ ⟨⟩
    obtain ⟨request', hissued'⟩ := hkept.issued
    exact hne (h.issuedOnce hissued' hissued).2
  · intro task i g e hpc
    have hdrawn := h.drawn task i g e hpc
    refine hdrawn.concat nofun ?_
    rintro _ ⟨⟩
    obtain ⟨expires, hlatest, -⟩ := hheld.latest
    exact hdrawn.unstored _ _ (stored_of_latest hlatest)
  · intro g
    show (s.log ++ [ResetEvent.reset u.id guid]).countP (ResetEvent.isReset g) ≤ 1
    rw [List.countP_append]
    by_cases heq : guid = g
    · subst heq
      rw [countP_isReset_eq_zero hheld.unused]
      simp [ResetEvent.isReset]
    · have hcount := h.once g
      simpa [ResetEvent.isReset, heq] using hcount

/-! ## The steps -/

/-- **What a step of a reset does**: it goes on, or uses the link. -/
theorem reset_cases (h : Inv dialect s) {act : Act} {task : Nat}
    (hstep : Step dialect toLowercase s act s') (hact : act.reset? = some task) :
    (∃ pc, pc ≠ .changed ∧ s' = s.moveReset task pc) ∨
    ∃ guid hash id before u after, s.resets task = .consuming guid hash id ∧
      s.users = before ++ u :: after ∧ u.matches id guid (dateBind dialect s.now) = true ∧
      s' = ({ s with users := before ++ u.changed hash :: after }.record
        (.reset id guid)).moveReset task .changed := by
  unfold Step step at hstep
  cases act with
  | tick now | request other email | draw other guid | mailed other | save other fails => cases hact
  | reset other guid password =>
    cases hact
    left
    dsimp only at hstep
    split at hstep
    · split at hstep
      · exact ⟨.refused, nofun, (Option.some.inj hstep).symm⟩
      · split at hstep
        · exact ⟨.refused, nofun, (Option.some.inj hstep).symm⟩
        · rename_i u _
          exact ⟨.found guid password u.id u.recoveryLinkExpirationDate, nofun,
            (Option.some.inj hstep).symm⟩
    · cases hstep
  | load other fails =>
    cases hact
    left
    dsimp only at hstep
    split at hstep
    · rename_i guid password id expires hpc
      split at hstep
      · exact ⟨.refused, nofun, (Option.some.inj hstep).symm⟩
      · split at hstep
        · exact ⟨.refused, nofun, (Option.some.inj hstep).symm⟩
        · split at hstep
          · exact ⟨.refused, nofun, (Option.some.inj hstep).symm⟩
          · exact ⟨.hashing guid password id, nofun, (Option.some.inj hstep).symm⟩
    · cases hstep
  | hashed other hash =>
    cases hact
    left
    dsimp only at hstep
    split at hstep
    · rename_i guid password id hpc
      cases hash with
      | none => exact ⟨.refused, nofun, (Option.some.inj hstep).symm⟩
      | some hash => exact ⟨.consuming guid hash id, nofun, (Option.some.inj hstep).symm⟩
    · cases hstep
  | consume other fails =>
    cases hact
    dsimp only at hstep
    split at hstep
    · rename_i guid hash id hpc
      split at hstep
      · exact .inl ⟨.refused, nofun, (Option.some.inj hstep).symm⟩
      · rcases Table.updateWhere_cases h.ids (p := fun u => u.matches id guid (dateBind dialect s.now))
          (fun u => UserRow.id_of_matches) (fun u => u.changed hash) with
          ⟨before, u, after, husers, hmatches, hconsume⟩ | hconsume
        · rw [consumeLink, hconsume, if_pos rfl] at hstep
          exact .inr ⟨guid, hash, id, before, u, after, hpc, husers, hmatches,
            (Option.some.inj hstep).symm⟩
        · rw [consumeLink, hconsume, if_neg Bool.false_ne_true] at hstep
          exact .inl ⟨.refused, nofun, (Option.some.inj hstep).symm⟩
    · cases hstep

theorem Inv.reset (h : Inv dialect s) {act : Act} {task : Nat}
    (hstep : Step dialect toLowercase s act s') (hact : act.reset? = some task) :
    Inv dialect s' := by
  rcases reset_cases h hstep hact with ⟨pc, -, rfl⟩ |
    ⟨guid, hash, id, before, u, after, -, husers, hmatches, rfl⟩
  · exact h.moveReset _ _
  · have hu : u ∈ s.users := husers ▸ List.mem_append_right _ List.mem_cons_self
    obtain ⟨rfl, hguid, -⟩ := h.of_matches hu hmatches
    exact (h.use hash husers hguid).moveReset _ _

/-- **One statement, one mail or one hash.** -/
theorem Inv.step (h : Inv dialect s) {act : Act} (hstep : Step dialect toLowercase s act s') :
    Inv dialect s' := by
  have hnone : ∀ {task : Nat} {pc : RequestPc}, pc.link? = none →
      Inv dialect (s.moveRequest task pc) := by
    intro task pc hpc
    refine h.moveRequest fun _ _ _ hlink => ?_
    rw [hpc] at hlink
    cases hlink
  cases act with
  | reset task guid password => exact h.reset hstep rfl
  | load task fails => exact h.reset hstep rfl
  | hashed task hash => exact h.reset hstep rfl
  | consume task fails => exact h.reset hstep rfl
  | tick now =>
    unfold Step AuthReset.step at hstep
    dsimp only at hstep
    split at hstep
    · rename_i hnow
      cases hstep
      obtain ⟨hlater, hday⟩ := hnow
      have hlast : now < 253402300800000 := by
        have hlast := hday.2
        rw [dayMs] at hlast
        omega
      exact ⟨⟨⟨h.clock.1.1.trans hlater, hlast⟩, hday⟩, h.ids, h.issuedOnce, h.storedIssued,
        h.resetIssued, h.rows, h.drawn, h.once⟩
    · cases hstep
  | request task email =>
    unfold Step AuthReset.step at hstep
    dsimp only at hstep
    split at hstep
    · split at hstep
      · cases hstep
        exact hnone rfl
      · split at hstep <;> (cases hstep; exact hnone rfl)
    · cases hstep
  | draw task guid =>
    unfold Step AuthReset.step at hstep
    dsimp only at hstep
    split at hstep
    · split at hstep
      · cases hstep
        exact hnone rfl
      · split at hstep
        · cases hstep
        · rename_i hnew
          cases hstep
          refine (h.draw _ hnew).moveRequest ?_
          rintro _ _ _ ⟨⟩
          exact h.drawn_self h.clock.2 hnew
    · cases hstep
  | mailed task =>
    unfold Step AuthReset.step at hstep
    dsimp only at hstep
    split at hstep
    · rename_i id guid expires hpc
      cases hstep
      refine h.moveRequest fun _ _ _ hlink => h.drawn task _ _ _ ?_
      rw [hpc]
      exact hlink
    · cases hstep
  | save task fails =>
    unfold Step AuthReset.step at hstep
    dsimp only at hstep
    split at hstep
    · rename_i id guid expires hpc
      split at hstep
      · cases hstep
        exact hnone rfl
      · cases hstep
        refine h.save ?_
        rw [hpc]
        rfl
    · cases hstep

/-! ## The start -/

theorem mem_events {a : Account} {event : ResetEvent} (h : event ∈ a.events) :
    ∃ guid expires, a.link = some (guid, expires) ∧
      (event = .issued none a.id guid ∨ event = .stored a.id guid expires) := by
  unfold Account.events at h
  split at h
  · cases h
  · rename_i guid expires hlink
    refine ⟨guid, expires, hlink, ?_⟩
    rcases List.mem_cons.1 h with rfl | hstored
    · exact .inl rfl
    · exact .inr (List.mem_singleton.1 hstored)

theorem latest_events (id : Int) (a : Account) :
    latest id a.events = if a.id = id then a.link else none := by
  unfold Account.events
  cases a.link with
  | none => simp [latest]
  | some link =>
    show (latest id []).or (if a.id = id then some link else none) = _
    rw [latest, Option.none_or]

/-- **The start has the latest link of every user.** -/
theorem latest_start {accounts : List Account} (hids : (accounts.map Account.id).Nodup)
    {a : Account} (ha : a ∈ accounts) : latest a.id (accounts.flatMap Account.events) = a.link := by
  have hother : ∀ {accounts : List Account} {id : Int}, id ∉ accounts.map Account.id →
      latest id (accounts.flatMap Account.events) = none := by
    intro accounts id hid
    induction accounts with
    | nil => rfl
    | cons b accounts ih =>
      rw [List.map_cons, List.mem_cons, not_or] at hid
      rw [List.flatMap_cons, latest_append, ih hid.2, latest_events, if_neg fun h => hid.1 h.symm,
        Option.or_none]
  induction accounts with
  | nil => cases ha
  | cons b accounts ih =>
    rw [List.map_cons, List.nodup_cons] at hids
    rw [List.flatMap_cons, latest_append, latest_events]
    rcases List.mem_cons.1 ha with rfl | ha
    · rw [hother hids.1, if_pos rfl, Option.none_or]
    · have hne : b.id ≠ a.id := fun heq => hids.1 (heq ▸ List.mem_map_of_mem ha)
      rw [ih hids.2 ha, if_neg hne, Option.or_none]

theorem eq_of_link {accounts : List Account}
    (hguids : (accounts.filterMap Account.guid?).Nodup) {a b : Account}
    (ha : a ∈ accounts) (hb : b ∈ accounts) {e e' : Option Int} (hlink : a.link = some (guid, e))
    (hlink' : b.link = some (guid, e')) : a = b := by
  induction accounts with
  | nil => cases ha
  | cons c accounts ih =>
    have hguid : ∀ {d : Account} {e : Option Int}, d.link = some (guid, e) →
        d.guid? = some guid := by
      intro d e hlink
      rw [Account.guid?, hlink]
      rfl
    have hmem : ∀ {d : Account} {e : Option Int}, d ∈ accounts → d.link = some (guid, e) →
        guid ∈ accounts.filterMap Account.guid? := fun hd hlink =>
      List.mem_filterMap.2 ⟨_, hd, hguid hlink⟩
    rcases List.mem_cons.1 ha with rfl | htail <;> rcases List.mem_cons.1 hb with rfl | htail'
    · rfl
    · rw [List.filterMap_cons_some (hguid hlink), List.nodup_cons] at hguids
      exact absurd (hmem htail' hlink') hguids.1
    · rw [List.filterMap_cons_some (hguid hlink'), List.nodup_cons] at hguids
      exact absurd (hmem htail hlink) hguids.1
    · refine ih (hguids.sublist ?_) htail htail'
      exact (List.sublist_cons_self _ _).filterMap _

theorem inv_start {accounts : List Account} (hvalid : Valid accounts) {now : Int}
    (hclock : FourDigit now ∧ FourDigit (now + dayMs)) :
    Inv dialect (start dialect accounts now) := by
  have hevents : ∀ {event}, event ∈ (start dialect accounts now).log →
      ∃ a ∈ accounts, ∃ guid expires, a.link = some (guid, expires) ∧
        (event = .issued none a.id guid ∨ event = .stored a.id guid expires) := by
    intro event hmem
    obtain ⟨a, ha, hevent⟩ := List.mem_flatMap.1 hmem
    exact ⟨a, ha, mem_events hevent⟩
  have hissued : ∀ {a guid expires}, a ∈ accounts → a.link = some (guid, expires) →
      .issued none a.id guid ∈ (start dialect accounts now).log := by
    intro a guid expires ha hlink
    refine List.mem_flatMap.2 ⟨a, ha, ?_⟩
    rw [Account.events, hlink]
    exact List.mem_cons_self
  have hunused : ∀ id guid, .reset id guid ∉ (start dialect accounts now).log := by
    intro id guid hmem
    obtain ⟨a, -, g, e, -, hevent | hevent⟩ := hevents hmem <;> cases hevent
  refine ⟨hclock, ?_, ?_, ?_, ?_, ?_, ?_, ?_⟩
  · show ((accounts.map (Account.row dialect)).map UserRow.id).Nodup
    rw [List.map_map]
    exact hvalid.ids
  · intro r r' id id' guid h₁ h₂
    obtain ⟨a, ha, g, e, hlink, heq | heq⟩ := hevents h₁
    · obtain ⟨b, hb, g', e', hlink', heq' | heq'⟩ := hevents h₂
      · cases heq
        cases heq'
        obtain rfl := eq_of_link hvalid.guids ha hb hlink hlink'
        exact ⟨rfl, rfl⟩
      · cases heq'
    · cases heq
  · intro id guid expires hmem
    obtain ⟨a, ha, g, e, hlink, heq | heq⟩ := hevents hmem
    · cases heq
    · cases heq
      exact wasIssued_iff.2 ⟨_, _, hissued ha hlink⟩
  · intro id guid hmem
    exact absurd hmem (hunused id guid)
  · intro u hu guid hguid
    obtain ⟨a, ha, rfl⟩ := List.mem_map.1 hu
    obtain ⟨⟨g, expires⟩, hlink, rfl⟩ := Option.map_eq_some_iff.1 hguid
    refine ⟨⟨none, hissued ha hlink⟩, ⟨expires, ?_, ?_, ?_⟩, fun id => hunused id _⟩
    · exact (latest_start hvalid.ids ha).trans hlink
    · show (a.link.bind Prod.snd).map (dateBind dialect) = _
      rw [hlink]
      rfl
    · rintro e rfl
      exact hvalid.expiries a ha g e hlink
  · intro task id guid expires hlink
    cases hlink
  · intro guid
    rw [countP_isReset_eq_zero fun id => hunused id guid]
    exact Nat.zero_le 1

/-! ## Every run -/

/-- **A recovery link changes one password once**, on both databases, whatever
requests and resets there are and in whatever order they go on. -/
theorem changed_once (dialect : Dialect) (toLowercase : String → String) {accounts : List Account}
    (hvalid : Valid accounts) {now : Int} (hclock : FourDigit now ∧ FourDigit (now + dayMs))
    {acts : List Act} (h : Run (Step dialect toLowercase) (start dialect accounts now) acts s) :
    ChangedOnce dialect toLowercase s := by
  have hinv : Inv dialect s :=
    h.invariant (fun _ _ _ hs hstep => Inv.step hs hstep) (inv_start hvalid hclock)
  refine ⟨fun act s' task hstep hact hchanged => ?_, hinv.once,
    fun act s' task hstep hact hne => ?_⟩
  · rcases reset_cases hinv hstep hact with ⟨pc, hpc, rfl⟩ |
      ⟨guid, hash, id, before, u, after, hat, husers, hmatches, rfl⟩
    · exact absurd ((Function.update_self _ _ _).symm.trans hchanged) hpc
    · have hu : u ∈ s.users := husers ▸ List.mem_append_right _ List.mem_cons_self
      obtain ⟨rfl, hguid, hlatest⟩ := hinv.of_matches hu hmatches
      obtain ⟨request, hissued⟩ := (hinv.rows u hu guid hguid).issued
      refine ⟨guid, hash, u.id, hat, ⟨request, hissued⟩, ?_, hlatest, ?_, rfl⟩
      · exact fun _ _ hother => (hinv.issuedOnce hother hissued).2
      · exact ⟨before, u, after, husers, rfl, rfl⟩
  · rcases reset_cases hinv hstep hact with ⟨pc, -, rfl⟩ |
      ⟨guid, hash, id, before, u, after, -, -, -, rfl⟩
    · rfl
    · exact absurd (Function.update_self _ _ _) hne

/-- Two users; the first has a link. -/
def sampleAccounts : List Account :=
  [{ id := 1, email := "a", link := some ("first", some 1000) }, { id := 2, email := "b" }]

/-- Two resets present a link, and a third one presents the link that a
request has replaced. -/
def sampleActs : List Act :=
  [.reset 0 "first" "password", .load 0 false, .request 0 "b", .draw 0 (some "second"), .mailed 0,
    .save 0 false, .reset 1 "second" "password", .load 1 false, .reset 2 "second" "password",
    .load 2 false, .request 1 "a", .draw 1 (some "third"), .mailed 1, .hashed 0 (some "hash 0"),
    .hashed 1 (some "hash 1"), .hashed 2 (some "hash 2"), .consume 2 false, .consume 1 false,
    .save 1 false, .consume 0 false]

theorem changed_once_sample : ∃ s, ChangedOnce .sqlite (fun email => email) s ∧
    s.users.map UserRow.password = [none, some "hash 2"] := by
  have hrun : (sampleActs.foldlM (step .sqlite fun email => email)
      (start .sqlite sampleAccounts 0)).map (fun s => s.users.map UserRow.password)
        = some [none, some "hash 2"] := by
    decide +kernel
  obtain ⟨s, hs, hrow⟩ := Option.map_eq_some_iff.1 hrun
  have hdates : ∀ a ∈ sampleAccounts, ∀ guid expires, a.link = some (guid, some expires) →
      FourDigit expires := by
    intro a ha guid expires hlink
    rcases List.mem_cons.1 ha with rfl | ha
    · cases hlink
      decide
    · cases List.mem_singleton.1 ha
      cases hlink
  exact ⟨s, changed_once .sqlite _ ⟨by decide, by decide, hdates⟩ (by decide) (Run.of_foldlM hs),
    hrow⟩

end AuthReset

end Foreseerr

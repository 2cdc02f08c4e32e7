import Foreseerr.DateForms
import Foreseerr.Json
import Foreseerr.Run
import Foreseerr.Table
import Mathlib.Logic.Function.Basic

/-!
# Desktop tickets

A browser session issues a ticket bound to a challenge, and the desktop host
redeems it for the user's Jellyfin session (`desktop.rs`). A redemption reads
the ticket, the session that issued it and the user's link, asks Jellyfin who
the link's token belongs to, and only then marks the ticket used, so that one
that fails can be tried again. Each of these is a step of its own, between
which anything else may happen (`DesktopTickets.handed_out_once`).
-/

namespace Foreseerr

namespace DesktopTickets

/-! ## Digests -/

/-- `hex`: two lowercase digits a byte. -/
def hex (bytes : List UInt8) : List Char :=
  bytes.flatMap fun b => [Nat.digitChar (b.toNat / 16), Nat.digitChar (b.toNat % 16)]

/-- `to_digit(16)`. -/
def hexDigit? (c : Char) : Option Nat :=
  if c.isDigit then some (c.toNat - 48)
  else if 'a' ≤ c ∧ c ≤ 'f' then some (c.toNat - 87)
  else if 'A' ≤ c ∧ c ≤ 'F' then some (c.toNat - 55)
  else none

/-- `node_hex`: pairs of hex digits up to the first one that isn't. -/
def nodeHex : List Char → List UInt8
  | a :: b :: rest => match hexDigit? a, hexDigit? b with
    | some hi, some lo => UInt8.ofNat (hi * 16 + lo) :: nodeHex rest
    | _, _ => []
  | _ => []

/-- `same_digest`. -/
def sameDigest (left right : List Char) : Bool := nodeHex left == nodeHex right

/-- A digit `hex` writes. -/
def lowerHex (c : Char) : Bool := c.isDigit || ('a' ≤ c && c ≤ 'f')

/-- `challenge_like`. -/
def challengeLike (s : List Char) : Bool := s.length = 64 && s.all lowerHex

/-- `ticket_like`. -/
def ticketLike (s : List Char) : Bool :=
  s.length = 43 && s.all fun c => c.toNat < 128 && (c.isAlphanum || c = '_' || c = '-')

/-! ## The tables -/

/-- A row of `desktop_auth_ticket` under the protocol. -/
structure TicketRow where
  id : Nat
  userId : Int
  sessionId : String
  ticketDigest : List Char
  challengeDigest : List Char
  expiresAt : DateValue
  consumedAt : Option DateValue := none
deriving DecidableEq, Repr

/-- A session that is stored. -/
structure SessionRow where
  userId : Option Int
  expiredAt : Int
  destroyed : Bool := false
deriving DecidableEq, Repr

/-- The link columns of a user. -/
structure LinkColumns where
  jellyfinUserId : Option String
  jellyfinAuthToken : Option String
  jellyfinDeviceId : Option String
deriving DecidableEq, Repr

/-- A link with all its columns. -/
structure Link where
  jellyfinUserId : String
  token : String
  deviceId : String
deriving DecidableEq, Repr

/-- `link`: the three columns when all are set. -/
def link (user : Option LinkColumns) : Option Link := do
  let user ← user
  let jellyfinUserId ← user.jellyfinUserId.filter (· ≠ "")
  let token ← user.jellyfinAuthToken.filter (· ≠ "")
  let deviceId ← user.jellyfinDeviceId.filter (· ≠ "")
  some ⟨jellyfinUserId, token, deviceId⟩

def lifetimeMs : Int := 60000

/-! ## Parties -/

/-- Where an issue is. -/
inductive IssuePc
  | idle
  /-- The session is signed in, before the user's link is read. -/
  | linking (user : Int) (session : String) (challenge : List Char)
  /-- Before expired tickets are deleted. -/
  | cleaning (user : Int) (session : String) (challenge : List Char)
  /-- Before the ticket is stored. -/
  | inserting (user : Int) (session : String) (challenge ticket : List Char) (expires : Int)
  | done
deriving DecidableEq, Repr

/-- The ticket row a redemption reads, as far as it goes on with it. -/
structure Record where
  id : Nat
  userId : Int
  sessionId : String
deriving DecidableEq, Repr

/-- Where a redemption is. -/
inductive RedeemPc
  | idle
  /-- Before the session is read. -/
  | checking (record : Record)
  /-- Before the user's link is read. -/
  | linking (record : Record)
  /-- Before Jellyfin is asked, with the host that is asked if that fails. -/
  | asking (record : Record) (link : Link) (server : String) (fallback : Option String)
  /-- Before the ticket is marked used. -/
  | consuming (record : Record) (link : Link)
  | done
deriving DecidableEq, Repr

/-- What happened. -/
inductive TicketEvent
  /-- An issue drew a ticket. -/
  | drawn (task : Nat) (ticket : List Char)
  /-- A ticket was stored. -/
  | issued (id : Nat) (ticket challenge : List Char) (user : Int) (session : String)
      (expires : Int)
  /-- A redemption began with this ticket and verifier. -/
  | started (task : Nat) (ticket verifier : List Char)
  /-- Whom a live session was signed in as when it was read. -/
  | signedIn (task : Nat) (session : String) (user : Option Int)
  /-- The link a user had when it was read. -/
  | linked (task : Nat) (user : Int) (link : Option Link)
  /-- Whom Jellyfin takes the holder of a token for. -/
  | identified (task : Nat) (token deviceId : String) (id : Option String)
  /-- A ticket was marked used; the credentials that were answered, if any. -/
  | used (task id : Nat) (now : Int) (credentials : Option Link)
deriving DecidableEq, Repr

/-- The tables, the clock, the parties and the record. -/
structure System where
  now : Int
  tickets : List TicketRow := []
  nextId : Nat := 1
  sessions : String → Option SessionRow
  users : Int → Option LinkColumns
  issues : Nat → IssuePc := fun _ => .idle
  redeems : Nat → RedeemPc := fun _ => .idle
  log : List TicketEvent := []

/-- `session_user_id`: whom a live session is signed in as. -/
def System.sessionUser (s : System) (session : String) : Option Int := do
  let row ← s.sessions session
  if s.now < row.expiredAt ∧ row.destroyed = false then row.userId else none

namespace System

variable (s : System)

def moveIssue (task : Nat) (pc : IssuePc) : System :=
  { s with issues := Function.update s.issues task pc }

def moveRedeem (task : Nat) (pc : RedeemPc) : System :=
  { s with redeems := Function.update s.redeems task pc }

def record (event : TicketEvent) : System := { s with log := s.log ++ [event] }

end System

/-! ## One step -/

/-- The settings a step reads: whether the media server is Jellyfin, and
`jellyfinDesktopHosts`. -/
structure ServerSettings where
  jellyfin : Bool := true
  hosts : Option (String × Option String)
deriving DecidableEq, Repr

/-- What `GET /Users/Me` answered. -/
inductive JellyfinAnswer
  | ok (identity : Json)
  | failed (status : Option Nat)

/-- What can happen next. -/
inductive Act
  /-- The clock goes on. -/
  | tick (now : Int)
  /-- A sign-in, a sign-out, or anything else that changes a session. -/
  | session (session : String) (row : Option SessionRow)
  /-- A user links or unlinks an account. -/
  | relink (user : Int) (columns : Option LinkColumns)
  /-- `POST /desktop/auth-tickets` by the user of a session, within the rates. -/
  | issue (task : Nat) (user : Int) (session : String) (challenge : List Char) (allowed : Bool)
  | readLink (task : Nat) (settings : ServerSettings)
  /-- A ticket is drawn and the expired ones are deleted, unless that fails. -/
  | cleanUp (task : Nat) (ticket : List Char) (fails : Bool)
  | insert (task : Nat) (fails : Bool)
  /-- `POST /desktop/auth-tickets/redeem`, within the rates. -/
  | redeem (task : Nat) (ticket verifier : List Char) (allowed : Bool)
  | checkSession (task : Nat)
  | redeemLink (task : Nat) (settings : ServerSettings)
  | ask (task : Nat) (answer : JellyfinAnswer)
  /-- The `UPDATE`, and whether bytes can be drawn after it. -/
  | consume (task : Nat) (fails random : Bool)

section

variable (dialect : Dialect) (sha256 : List Char → List UInt8)

/-- `digest`. -/
def digest (value : List Char) : List Char := hex (sha256 value)

/-- `find_record`, and the checks before the session is read. -/
def findRecord (s : System) (ticket verifier : List Char) : Option Record := do
  let row ← s.tickets.find? fun r => r.ticketDigest = digest sha256 ticket
  let expiresAt ← row.expiresAt.millis?
  if row.consumedAt = none ∧ s.now < expiresAt ∧
      sameDigest row.challengeDigest (digest sha256 verifier) = true then
    some ⟨row.id, row.userId, row.sessionId⟩
  else none

/-- What an answer of Jellyfin leaves to do. -/
def answered (record : Record) (link : Link) (fallback : Option String) :
    JellyfinAnswer → RedeemPc
  | .ok identity =>
    if identity.truthy ∧ (identity.get "Id").bind Json.asStr = some link.jellyfinUserId ∧
        (identity.get "ServerId").any Json.truthy then .consuming record link
    else .done
  | .failed _ => match fallback with
    | some server => .asking record link server none
    | none => .done

/-- The condition of the last statement. -/
def TicketRow.matches (r : TicketRow) (id : Nat) (now : DateValue) : Bool :=
  r.id = id && r.consumedAt = none && r.expiresAt.after now

/-- `consume`: the rows, and whether one was written. -/
def consumeTicket (tickets : List TicketRow) (id : Nat) (now : DateValue) :
    List TicketRow × Bool :=
  Table.updateWhere (fun r => r.matches id now) (fun r => { r with consumedAt := some now }) tickets

/-- A ticket that was drawn has the digest of another text. -/
def collides (log : List TicketEvent) (text : List Char) : Bool :=
  log.any fun event => match event with
    | .drawn _ ticket => digest sha256 ticket = digest sha256 text && ticket ≠ text
    | _ => false

def wasDrawn (log : List TicketEvent) (ticket : List Char) : Bool :=
  log.any fun event => match event with
    | .drawn _ t => t = ticket
    | _ => false

/-- One statement, or one call of Jellyfin. The clock shows four-digit years,
tickets are distinct, and their digests do not collide. -/
def step (s : System) : Act → Option System
  | .tick now =>
    if s.now ≤ now ∧ FourDigit (now + lifetimeMs) then some { s with now := now } else none
  | .session session row => some { s with sessions := Function.update s.sessions session row }
  | .relink user columns => some { s with users := Function.update s.users user columns }
  | .issue task user session challenge allowed => match s.issues task with
    | .idle =>
      if challengeLike challenge = true ∧ allowed = true ∧ s.sessionUser session = some user then
        some (s.moveIssue task (.linking user session challenge))
      else some (s.moveIssue task .done)
    | _ => none
  | .readLink task settings => match s.issues task with
    | .linking user session challenge =>
      if settings.jellyfin = true ∧ (link (s.users user)).isSome then
        some (s.moveIssue task (.cleaning user session challenge))
      else some (s.moveIssue task .done)
    | _ => none
  | .cleanUp task ticket fails => match s.issues task with
    | .cleaning user session challenge =>
      if wasDrawn s.log ticket ∨ collides sha256 s.log ticket then none
      else
        let drawn := s.record (.drawn task ticket)
        if fails then some (drawn.moveIssue task .done)
        else
          let kept := s.tickets.filter fun r => !(dateBind dialect s.now).after r.expiresAt
          some ({ drawn with tickets := kept }.moveIssue task
            (.inserting user session challenge ticket (s.now + lifetimeMs)))
    | _ => none
  | .insert task fails => match s.issues task with
    | .inserting user session challenge ticket expires =>
      if fails then some (s.moveIssue task .done)
      else
        let row : TicketRow :=
          { id := s.nextId
            userId := user
            sessionId := session
            ticketDigest := digest sha256 ticket
            challengeDigest := challenge
            expiresAt := dateBind dialect expires }
        some (({ s with tickets := s.tickets ++ [row], nextId := s.nextId + 1 }.record
          (.issued s.nextId ticket challenge user session expires)).moveIssue task .done)
    | _ => none
  | .redeem task ticket verifier allowed => match s.redeems task with
    | .idle =>
      if collides sha256 s.log ticket then none
      else
        let began := s.record (.started task ticket verifier)
        if ticketLike ticket = true ∧ ticketLike verifier = true ∧ allowed = true then
          match findRecord sha256 s ticket verifier with
          | none => some (began.moveRedeem task .done)
          | some record => some (began.moveRedeem task (.checking record))
        else some (began.moveRedeem task .done)
    | _ => none
  | .checkSession task => match s.redeems task with
    | .checking record =>
      let read := s.record (.signedIn task record.sessionId (s.sessionUser record.sessionId))
      if s.sessionUser record.sessionId = some record.userId then
        some (read.moveRedeem task (.linking record))
      else some (read.moveRedeem task .done)
    | _ => none
  | .redeemLink task settings => match s.redeems task with
    | .linking record =>
      let read := s.record (.linked task record.userId (link (s.users record.userId)))
      match settings.jellyfin, link (s.users record.userId), settings.hosts with
      | true, some link, some (server, fallback) =>
        some (read.moveRedeem task (.asking record link server fallback))
      | _, _, _ => some (read.moveRedeem task .done)
    | _ => none
  | .ask task answer => match s.redeems task with
    | .asking record link _ fallback =>
      let read := match answer with
        | .ok identity =>
          s.record (.identified task link.token link.deviceId
            ((identity.get "Id").bind Json.asStr))
        | .failed _ => s
      some (read.moveRedeem task (answered record link fallback answer))
    | _ => none
  | .consume task fails random => match s.redeems task with
    | .consuming record link =>
      if fails then some (s.moveRedeem task .done)
      else
        let (tickets, written) := consumeTicket s.tickets record.id (dateBind dialect s.now)
        let after := { s with tickets := tickets }
        if written then
          some ((after.record (.used task record.id s.now (if random then some link else none)))
            |>.moveRedeem task .done)
        else some (after.moveRedeem task .done)
    | _ => none

/-- The steps as a relation. -/
def Step (s : System) (act : Act) (s' : System) : Prop := step dialect sha256 s act = some s'

end

/-- A step of a redemption. -/
def Act.ofRedeem : Act → Bool
  | .redeem _ _ _ _ | .checkSession _ | .redeemLink _ _ | .ask _ _ | .consume _ _ _ => true
  | _ => false

/-! ## What is to hold of every run -/

/-- Something happened in a redemption, after it began with this ticket and verifier. -/
def During (log : List TicketEvent) (task : Nat) (ticket verifier : List Char)
    (event : TicketEvent) : Prop :=
  ∃ before after, log = before ++ .started task ticket verifier :: after ∧ event ∈ after

/-- What credentials are answered on: the ticket was issued for the verifier's
digest and has not expired, and since the redemption began its session was signed
in as its user, whose link the credentials are and whom Jellyfin took them for. -/
structure Granted (sha256 : List Char → List UInt8) (log : List TicketEvent) (task id : Nat)
    (now : Int) (credentials : Link) : Prop where
  granted : ∃ ticket verifier user session expires,
    .issued id ticket (digest sha256 verifier) user session expires ∈ log ∧ now < expires ∧
    During log task ticket verifier (.signedIn task session (some user)) ∧
    During log task ticket verifier (.linked task user (some credentials)) ∧
    During log task ticket verifier (.identified task credentials.token credentials.deviceId
      (some credentials.jellyfinUserId))

/-- A redemption used a ticket. -/
def TicketEvent.isUse (id : Nat) : TicketEvent → Bool
  | .used _ i _ _ => i = id
  | _ => false

/-- **A ticket hands out a session once, to the one who asked.** Credentials are
answered only as `Granted` says, a ticket is used at most once, no two tickets
were issued under one id or with one text, and a step of a redemption that uses
no ticket leaves the tickets as they were. -/
structure HandedOutOnce (dialect : Dialect) (sha256 : List Char → List UInt8) (s : System) :
    Prop where
  grants : ∀ before after task id now credentials,
    s.log = before ++ .used task id now (some credentials) :: after →
    Granted sha256 before task id now credentials
  once : ∀ id, s.log.countP (TicketEvent.isUse id) ≤ 1
  distinct : ∀ {id id' ticket ticket' challenge challenge' user user' session session' expires
    expires'}, .issued id ticket challenge user session expires ∈ s.log →
    .issued id' ticket' challenge' user' session' expires' ∈ s.log →
    (id = id' ∨ ticket = ticket') → id = id' ∧ ticket = ticket' ∧ challenge = challenge' ∧
      user = user' ∧ session = session' ∧ expires = expires'
  retry : ∀ act s', Step dialect sha256 s act s' → act.ofRedeem = true →
    (∀ task id now credentials, s'.log ≠ s.log ++ [.used task id now credentials]) →
    s'.tickets = s.tickets

/-! ## Hex -/

variable {dialect : Dialect} {sha256 : List Char → List UInt8} {log : List TicketEvent}
  {s s' : System}

theorem hexDigit?_digitChar {n : Nat} (h : n < 16) : hexDigit? (Nat.digitChar n) = some n := by
  revert n
  decide

theorem toNat_digitChar {n : Nat} (h : n < 16) :
    (Nat.digitChar n).toNat = if n < 10 then n + 48 else n + 87 := by
  revert n
  decide

theorem exists_digitChar {c : Char} (h : lowerHex c = true) : ∃ n < 16, Nat.digitChar n = c := by
  rw [lowerHex, Bool.or_eq_true, Bool.and_eq_true, decide_eq_true_eq, decide_eq_true_eq] at h
  have hnat : (48 ≤ c.toNat ∧ c.toNat ≤ 57) ∨ (97 ≤ c.toNat ∧ c.toNat ≤ 102) := by
    rcases h with hdigit | ⟨hfirst, hlast⟩
    · exact .inl (digit_bounds hdigit)
    · exact .inr ⟨hfirst, hlast⟩
  rcases hnat with ⟨hfirst, hlast⟩ | ⟨hfirst, hlast⟩
  · refine ⟨c.toNat - 48, by omega, Char.toNat_inj.1 ?_⟩
    rw [toNat_digitChar (by omega), if_pos (by omega)]
    omega
  · refine ⟨c.toNat - 87, by omega, Char.toNat_inj.1 ?_⟩
    rw [toNat_digitChar (by omega), if_neg (by omega)]
    omega

theorem nodeHex_hex (bytes : List UInt8) : nodeHex (hex bytes) = bytes := by
  induction bytes with
  | nil => rfl
  | cons b bytes ih =>
    have hlt : b.toNat < 256 := b.toNat_lt
    show (match hexDigit? (Nat.digitChar (b.toNat / 16)),
        hexDigit? (Nat.digitChar (b.toNat % 16)) with
      | some hi, some lo => UInt8.ofNat (hi * 16 + lo) :: nodeHex (hex bytes)
      | _, _ => []) = _
    rw [hexDigit?_digitChar (by omega), hexDigit?_digitChar (by omega), ih]
    dsimp only
    rw [Nat.div_add_mod']
    exact congrArg (· :: bytes) (UInt8.ofNat_toNat)

/-- **A challenge is the text of its bytes.** -/
theorem hex_nodeHex : ∀ {text : List Char}, text.length % 2 = 0 → text.all lowerHex = true →
    hex (nodeHex text) = text
  | [], _, _ => rfl
  | [_], h, _ => by cases h
  | a :: b :: rest, heven, hall => by
    rw [List.all_cons, List.all_cons, Bool.and_eq_true, Bool.and_eq_true] at hall
    obtain ⟨n, hn, rfl⟩ := exists_digitChar hall.1
    obtain ⟨m, hm, rfl⟩ := exists_digitChar hall.2.1
    have hlength : rest.length % 2 = 0 := by
      rw [List.length_cons, List.length_cons] at heven
      omega
    have hlt : n * 16 + m < 256 := by omega
    have hbyte : (UInt8.ofNat (n * 16 + m)).toNat = n * 16 + m := UInt8.toNat_ofNat_of_lt hlt
    have hdiv : (n * 16 + m) / 16 = n := by omega
    have hmod : (n * 16 + m) % 16 = m := by omega
    rw [nodeHex, hexDigit?_digitChar hn, hexDigit?_digitChar hm]
    show Nat.digitChar ((UInt8.ofNat (n * 16 + m)).toNat / 16)
      :: Nat.digitChar ((UInt8.ofNat (n * 16 + m)).toNat % 16) :: hex (nodeHex rest) = _
    rw [hbyte, hdiv, hmod, hex_nodeHex hlength hall.2.2]

/-- **A verifier that is accepted has the challenge as its digest.** -/
theorem eq_of_sameDigest {challenge verifier : List Char} (hlike : challengeLike challenge = true)
    (h : sameDigest challenge (digest sha256 verifier) = true) :
    digest sha256 verifier = challenge := by
  rw [challengeLike, Bool.and_eq_true, decide_eq_true_eq] at hlike
  have hbytes : nodeHex challenge = sha256 verifier :=
    (eq_of_beq h).trans (nodeHex_hex (sha256 verifier))
  rw [digest, ← hbytes]
  exact hex_nodeHex (by rw [hlike.1]) hlike.2

/-! ## The record -/

theorem During.mono {task : Nat} {ticket verifier : List Char} {event : TicketEvent}
    (h : During log task ticket verifier event) (events : List TicketEvent) :
    During (log ++ events) task ticket verifier event := by
  obtain ⟨before, after, rfl, hmem⟩ := h
  exact ⟨before, after ++ events, by simp, List.mem_append_left _ hmem⟩

theorem During.concat {task : Nat} {ticket verifier : List Char}
    (h : .started task ticket verifier ∈ log) (event : TicketEvent) :
    During (log ++ [event]) task ticket verifier event := by
  obtain ⟨before, after, rfl⟩ := List.append_of_mem h
  exact ⟨before, after ++ [event], by simp, List.mem_append_right _ List.mem_cons_self⟩

theorem wasDrawn_iff {ticket : List Char} :
    wasDrawn log ticket = true ↔ ∃ task, .drawn task ticket ∈ log := by
  unfold wasDrawn
  rw [List.any_eq_true]
  constructor
  · rintro ⟨event, hmem, hevent⟩
    cases event with
    | drawn task t => exact ⟨task, of_decide_eq_true hevent ▸ hmem⟩
    | _ => cases hevent
  · rintro ⟨task, hmem⟩
    exact ⟨_, hmem, decide_eq_true rfl⟩

/-- **A text with the digest of a ticket is the ticket.** -/
theorem eq_of_not_collides {ticket text : List Char} (h : ¬ collides sha256 log text = true)
    {task : Nat} (hdrawn : .drawn task ticket ∈ log)
    (hdigest : digest sha256 ticket = digest sha256 text) : ticket = text := by
  by_contra hne
  refine h (List.any_eq_true.2 ⟨_, hdrawn, ?_⟩)
  rw [Bool.and_eq_true, decide_eq_true_eq, decide_eq_true_eq]
  exact ⟨hdigest, hne⟩

/-! ## The invariant -/

/-- A stored ticket. -/
structure Stored (dialect : Dialect) (sha256 : List Char → List UInt8) (log : List TicketEvent)
    (r : TicketRow) (ticket : List Char) (expires : Int) : Prop where
  issued : .issued r.id ticket r.challengeDigest r.userId r.sessionId expires ∈ log
  digest : r.ticketDigest = digest sha256 ticket
  challenge : challengeLike r.challengeDigest = true
  column : r.expiresAt = dateBind dialect expires
  date : FourDigit expires
  unused : r.consumedAt = none → ∀ task now credentials, .used task r.id now credentials ∉ log

/-- A ticket that was drawn and not stored. -/
structure Unissued (log : List TicketEvent) (task : Nat) (ticket : List Char) (expires : Int) :
    Prop where
  drawn : .drawn task ticket ∈ log
  date : FourDigit expires
  new : ∀ id challenge user session e, .issued id ticket challenge user session e ∉ log

/-- The ticket an issue is about to store. -/
def IssuePc.ticket? : IssuePc → Option (List Char × Int)
  | .inserting _ _ _ ticket expires => some (ticket, expires)
  | _ => none

/-- The challenge of an issue. -/
def IssuePc.challenge? : IssuePc → Option (List Char)
  | .linking _ _ challenge | .cleaning _ _ challenge | .inserting _ _ challenge _ _ =>
    some challenge
  | .idle | .done => none

/-- A redemption that began with the ticket of its record and a verifier for it. -/
structure Opened (sha256 : List Char → List UInt8) (log : List TicketEvent) (task : Nat)
    (ticket verifier : List Char) (record : Record) : Prop where
  issued : ∃ expires, .issued record.id ticket (DesktopTickets.digest sha256 verifier) record.userId
    record.sessionId expires ∈ log
  started : .started task ticket verifier ∈ log

/-- What has happened since a redemption began, by where it is. -/
def Trail (log : List TicketEvent) (task : Nat) (ticket verifier : List Char) : RedeemPc → Prop
  | .linking record =>
    During log task ticket verifier (.signedIn task record.sessionId (some record.userId))
  | .asking record link _ _ =>
    During log task ticket verifier (.signedIn task record.sessionId (some record.userId)) ∧
    During log task ticket verifier (.linked task record.userId (some link))
  | .consuming record link =>
    During log task ticket verifier (.signedIn task record.sessionId (some record.userId)) ∧
    During log task ticket verifier (.linked task record.userId (some link)) ∧
    During log task ticket verifier (.identified task link.token link.deviceId
      (some link.jellyfinUserId))
  | _ => True

def RedeemPc.record? : RedeemPc → Option Record
  | .checking record | .linking record | .asking record _ _ _ | .consuming record _ => some record
  | .idle | .done => none

/-- What an event follows. -/
def Follows (sha256 : List Char → List UInt8) (before : List TicketEvent) : TicketEvent → Prop
  | .used task id now (some credentials) => Granted sha256 before task id now credentials
  | _ => True

/-- **The invariant**: every row is the ticket that was issued under its id, and
a redemption under way has a record and a trail. -/
structure Inv (dialect : Dialect) (sha256 : List Char → List UInt8) (s : System) : Prop where
  clock : FourDigit s.now ∧ FourDigit (s.now + lifetimeMs)
  ids : (s.tickets.map TicketRow.id).Nodup
  idBound : ∀ r ∈ s.tickets, r.id < s.nextId
  issuedBound : ∀ {id ticket challenge user session expires},
    .issued id ticket challenge user session expires ∈ s.log → id < s.nextId ∧
      wasDrawn s.log ticket = true
  usedBound : ∀ {task id now credentials}, .used task id now credentials ∈ s.log → id < s.nextId
  drawnOnce : ∀ {task task' ticket}, .drawn task ticket ∈ s.log → .drawn task' ticket ∈ s.log →
    task = task'
  distinct : ∀ {id id' ticket ticket' challenge challenge' user user' session session' expires
    expires'}, .issued id ticket challenge user session expires ∈ s.log →
    .issued id' ticket' challenge' user' session' expires' ∈ s.log →
    (id = id' ∨ ticket = ticket') → id = id' ∧ ticket = ticket' ∧ challenge = challenge' ∧
      user = user' ∧ session = session' ∧ expires = expires'
  rows : ∀ r ∈ s.tickets, ∃ ticket expires, Stored dialect sha256 s.log r ticket expires
  challenges : ∀ task challenge, (s.issues task).challenge? = some challenge →
    challengeLike challenge = true
  unissued : ∀ task ticket expires, (s.issues task).ticket? = some (ticket, expires) →
    Unissued s.log task ticket expires
  redeems : ∀ task record, (s.redeems task).record? = some record → ∃ ticket verifier,
    Opened sha256 s.log task ticket verifier record ∧
      Trail s.log task ticket verifier (s.redeems task)
  once : ∀ id, s.log.countP (TicketEvent.isUse id) ≤ 1
  log : Log.EachAfter (Follows sha256) s.log

theorem wasDrawn_concat {ticket : List Char} (h : wasDrawn log ticket = true)
    (event : TicketEvent) : wasDrawn (log ++ [event]) ticket = true := by
  obtain ⟨task, hmem⟩ := wasDrawn_iff.1 h
  exact wasDrawn_iff.2 ⟨task, List.mem_append_left _ hmem⟩

theorem Stored.concat {r : TicketRow} {ticket : List Char} {expires : Int} {event : TicketEvent}
    (h : Stored dialect sha256 log r ticket expires)
    (hevent : ∀ task now credentials, event ≠ .used task r.id now credentials) :
    Stored dialect sha256 (log ++ [event]) r ticket expires where
  issued := List.mem_append_left _ h.issued
  digest := h.digest
  challenge := h.challenge
  column := h.column
  date := h.date
  unused hnone task now credentials hmem := by
    rcases List.mem_append.1 hmem with hold | hnew
    · exact h.unused hnone task now credentials hold
    · exact hevent task now credentials (List.mem_singleton.1 hnew).symm

theorem Unissued.concat {task : Nat} {ticket : List Char} {expires : Int} {event : TicketEvent}
    (h : Unissued log task ticket expires)
    (hevent : ∀ id challenge user session e, event ≠ .issued id ticket challenge user session e) :
    Unissued (log ++ [event]) task ticket expires where
  drawn := List.mem_append_left _ h.drawn
  date := h.date
  new id challenge user session e hmem := by
    rcases List.mem_append.1 hmem with hold | hnew
    · exact h.new id challenge user session e hold
    · exact hevent id challenge user session e (List.mem_singleton.1 hnew).symm

theorem Opened.concat {task : Nat} {ticket verifier : List Char} {record : Record}
    (h : Opened sha256 log task ticket verifier record) (event : TicketEvent) :
    Opened sha256 (log ++ [event]) task ticket verifier record where
  issued := h.issued.imp fun _ hmem => List.mem_append_left _ hmem
  started := List.mem_append_left _ h.started

theorem Trail.concat {task : Nat} {ticket verifier : List Char} {pc : RedeemPc}
    (h : Trail log task ticket verifier pc) (event : TicketEvent) :
    Trail (log ++ [event]) task ticket verifier pc := by
  cases pc with
  | linking record => exact During.mono h _
  | asking record link server fallback => exact ⟨h.1.mono _, h.2.mono _⟩
  | consuming record link => exact ⟨h.1.mono _, h.2.1.mono _, h.2.2.mono _⟩
  | _ => trivial

theorem Inv.redeems_concat (h : Inv dialect sha256 s) (event : TicketEvent) (task : Nat)
    (record : Record) (hrecord : (s.redeems task).record? = some record) :
    ∃ ticket verifier, Opened sha256 (s.log ++ [event]) task ticket verifier record ∧
      Trail (s.log ++ [event]) task ticket verifier (s.redeems task) := by
  obtain ⟨ticket, verifier, hopened, htrail⟩ := h.redeems task record hrecord
  exact ⟨ticket, verifier, hopened.concat event, htrail.concat event⟩

/-! ## The steps -/

/-- Something a redemption read, or that it began. -/
def TicketEvent.isRead : TicketEvent → Bool
  | .started _ _ _ | .signedIn _ _ _ | .linked _ _ _ | .identified _ _ _ _ => true
  | _ => false

theorem mem_of_mem_read {event e : TicketEvent} (hread : event.isRead = true)
    (he : e.isRead = false) (h : e ∈ log ++ [event]) : e ∈ log := by
  rcases List.mem_append.1 h with hold | hnew
  · exact hold
  · obtain rfl := List.mem_singleton.1 hnew
    rw [hread] at he
    cases he

theorem Inv.read (h : Inv dialect sha256 s) {event : TicketEvent} (hread : event.isRead = true) :
    Inv dialect sha256 (s.record event) where
  clock := h.clock
  ids := h.ids
  idBound := h.idBound
  issuedBound hmem := by
    obtain ⟨hid, hdrawn⟩ := h.issuedBound (mem_of_mem_read hread rfl hmem)
    exact ⟨hid, wasDrawn_concat hdrawn event⟩
  usedBound hmem := h.usedBound (mem_of_mem_read hread rfl hmem)
  drawnOnce h₁ h₂ := h.drawnOnce (mem_of_mem_read hread rfl h₁) (mem_of_mem_read hread rfl h₂)
  distinct h₁ h₂ := h.distinct (mem_of_mem_read hread rfl h₁) (mem_of_mem_read hread rfl h₂)
  rows r hr := by
    obtain ⟨ticket, expires, hstored⟩ := h.rows r hr
    refine ⟨ticket, expires, hstored.concat ?_⟩
    rintro _ _ _ rfl
    cases hread
  challenges := h.challenges
  unissued task ticket expires hticket := by
    refine (h.unissued task ticket expires hticket).concat ?_
    rintro _ _ _ _ _ rfl
    cases hread
  redeems := h.redeems_concat event
  once id := by
    have hcount : [event].countP (TicketEvent.isUse id) = 0 := by
      cases event <;> first | rfl | cases hread
    show (s.log ++ [event]).countP _ ≤ 1
    rw [List.countP_append, hcount]
    exact h.once id
  log := by
    refine h.log.concat ?_
    cases event <;> first | exact trivial | cases hread

theorem Inv.moveIssue (h : Inv dialect sha256 s) {task : Nat} {pc : IssuePc}
    (hchallenge : ∀ challenge, pc.challenge? = some challenge → challengeLike challenge = true)
    (hticket : ∀ ticket expires, pc.ticket? = some (ticket, expires) →
      Unissued s.log task ticket expires) : Inv dialect sha256 (s.moveIssue task pc) :=
  { h with
    challenges := fun other challenge hother => by
      have hother : (Function.update s.issues task pc other).challenge? = some challenge := hother
      by_cases heq : other = task
      · subst heq
        rw [Function.update_self] at hother
        exact hchallenge challenge hother
      · rw [Function.update_of_ne heq] at hother
        exact h.challenges other challenge hother
    unissued := fun other ticket expires hother => by
      have hother : (Function.update s.issues task pc other).ticket? = some (ticket, expires) :=
        hother
      by_cases heq : other = task
      · subst heq
        rw [Function.update_self] at hother
        exact hticket ticket expires hother
      · rw [Function.update_of_ne heq] at hother
        exact h.unissued other ticket expires hother }

theorem Inv.moveRedeem (h : Inv dialect sha256 s) {task : Nat} {pc : RedeemPc}
    (hrecord : ∀ record, pc.record? = some record → ∃ ticket verifier,
      Opened sha256 s.log task ticket verifier record ∧ Trail s.log task ticket verifier pc) :
    Inv dialect sha256 (s.moveRedeem task pc) :=
  { h with
    redeems := fun other record hother => by
      have hother : (Function.update s.redeems task pc other).record? = some record := hother
      show ∃ ticket verifier, _ ∧ Trail s.log other ticket verifier
        (Function.update s.redeems task pc other)
      by_cases heq : other = task
      · subst heq
        rw [Function.update_self] at hother ⊢
        exact hrecord record hother
      · rw [Function.update_of_ne heq] at hother ⊢
        exact h.redeems other record hother }

theorem Inv.doneIssue (h : Inv dialect sha256 s) (task : Nat) :
    Inv dialect sha256 (s.moveIssue task .done) :=
  h.moveIssue nofun nofun

theorem Inv.doneRedeem (h : Inv dialect sha256 s) (task : Nat) :
    Inv dialect sha256 (s.moveRedeem task .done) :=
  h.moveRedeem nofun

/-- A ticket is drawn. -/
theorem Inv.draw (h : Inv dialect sha256 s) (task : Nat) {ticket : List Char}
    (hnew : ¬ wasDrawn s.log ticket = true) :
    Inv dialect sha256 (s.record (.drawn task ticket)) where
  clock := h.clock
  ids := h.ids
  idBound := h.idBound
  issuedBound hmem := by
    obtain ⟨hid, hdrawn⟩ := h.issuedBound (by simpa [System.record] using hmem)
    exact ⟨hid, wasDrawn_concat hdrawn _⟩
  usedBound hmem := h.usedBound (by simpa [System.record] using hmem)
  drawnOnce h₁ h₂ := by
    have hnot : ∀ t, .drawn t ticket ∉ s.log := fun t hmem => hnew (wasDrawn_iff.2 ⟨t, hmem⟩)
    rcases List.mem_append.1 h₁ with h₁ | h₁ <;> rcases List.mem_append.1 h₂ with h₂ | h₂
    · exact h.drawnOnce h₁ h₂
    · cases List.mem_singleton.1 h₂
      exact absurd h₁ (hnot _)
    · cases List.mem_singleton.1 h₁
      exact absurd h₂ (hnot _)
    · cases List.mem_singleton.1 h₁
      cases List.mem_singleton.1 h₂
      rfl
  distinct h₁ h₂ := h.distinct (by simpa [System.record] using h₁)
    (by simpa [System.record] using h₂)
  rows r hr := by
    obtain ⟨t, expires, hstored⟩ := h.rows r hr
    exact ⟨t, expires, hstored.concat nofun⟩
  challenges := h.challenges
  unissued other t expires hother := (h.unissued other t expires hother).concat nofun
  redeems := h.redeems_concat _
  once id := by
    have hcount := h.once id
    simpa [System.record, TicketEvent.isUse] using hcount
  log := h.log.concat trivial

/-- Tickets are deleted. -/
theorem Inv.delete (h : Inv dialect sha256 s) (p : TicketRow → Bool) :
    Inv dialect sha256 { s with tickets := s.tickets.filter p } :=
  { h with
    ids := h.ids.sublist (List.filter_sublist.map _)
    idBound := fun r hr => h.idBound r (List.mem_of_mem_filter hr)
    rows := fun r hr => h.rows r (List.mem_of_mem_filter hr) }

/-- **A drawn ticket is stored**, under an id no ticket had before. -/
theorem Inv.insert (h : Inv dialect sha256 s) {task : Nat} {user : Int} {session : String}
    {challenge ticket : List Char} {expires : Int}
    (hpc : s.issues task = .inserting user session challenge ticket expires) :
    Inv dialect sha256 (({ s with
      tickets := s.tickets ++ [({
        id := s.nextId
        userId := user
        sessionId := session
        ticketDigest := digest sha256 ticket
        challengeDigest := challenge
        expiresAt := dateBind dialect expires } : TicketRow)]
      nextId := s.nextId + 1 }.record
        (.issued s.nextId ticket challenge user session expires)).moveIssue task .done) := by
  have hunissued : Unissued s.log task ticket expires := h.unissued task _ _ (by rw [hpc]; rfl)
  have hchallenge : challengeLike challenge = true := h.challenges task _ (by rw [hpc]; rfl)
  refine ⟨h.clock, ?_, ?_, ?_, ?_, ?_, ?_, ?_, ?_, ?_, ?_, ?_, ?_⟩
  · show ((s.tickets ++ [_]).map TicketRow.id).Nodup
    rw [List.map_append, List.nodup_append]
    refine ⟨h.ids, List.nodup_singleton _, ?_⟩
    rintro _ hmem _ hnew rfl
    obtain ⟨r, hr, hid⟩ := List.mem_map.1 hmem
    have hlast : r.id = s.nextId := hid.trans (List.mem_singleton.1 hnew)
    exact absurd (h.idBound r hr) (hlast ▸ lt_irrefl _)
  · intro r hr
    rcases List.mem_append.1 hr with hold | hnew
    · exact (h.idBound r hold).trans (Nat.lt_succ_self _)
    · rw [List.mem_singleton.1 hnew]
      exact Nat.lt_succ_self _
  · intro id t c u sess e hmem
    rcases List.mem_append.1 hmem with hold | hnew
    · obtain ⟨hid, hdrawn⟩ := h.issuedBound hold
      exact ⟨hid.trans (Nat.lt_succ_self _), wasDrawn_concat hdrawn _⟩
    · cases List.mem_singleton.1 hnew
      exact ⟨Nat.lt_succ_self _, wasDrawn_concat (wasDrawn_iff.2 ⟨task, hunissued.drawn⟩) _⟩
  · intro t id now c hmem
    have hold : .used t id now c ∈ s.log := by
      simpa [System.record, System.moveIssue] using hmem
    exact (h.usedBound hold).trans (Nat.lt_succ_self _)
  · intro t t' text h₁ h₂
    exact h.drawnOnce (by simpa [System.record, System.moveIssue] using h₁)
      (by simpa [System.record, System.moveIssue] using h₂)
  · intro id id' t t' c c' u u' sess sess' e e' h₁ h₂ hsame
    rcases List.mem_append.1 h₁ with hold | hnew <;> rcases List.mem_append.1 h₂ with hold' | hnew'
    · exact h.distinct hold hold' hsame
    · cases List.mem_singleton.1 hnew'
      rcases hsame with rfl | rfl
      · exact absurd (h.issuedBound hold).1 (lt_irrefl _)
      · exact absurd hold (hunissued.new _ _ _ _ _)
    · cases List.mem_singleton.1 hnew
      rcases hsame with rfl | rfl
      · exact absurd (h.issuedBound hold').1 (lt_irrefl _)
      · exact absurd hold' (hunissued.new _ _ _ _ _)
    · cases List.mem_singleton.1 hnew
      cases List.mem_singleton.1 hnew'
      exact ⟨rfl, rfl, rfl, rfl, rfl, rfl⟩
  · intro r hr
    rcases List.mem_append.1 hr with hold | hnew
    · obtain ⟨t, e, hstored⟩ := h.rows r hold
      exact ⟨t, e, hstored.concat nofun⟩
    · rw [List.mem_singleton.1 hnew]
      refine ⟨ticket, expires, List.mem_append_right _ List.mem_cons_self, rfl, hchallenge, rfl,
        hunissued.date, fun _ t now c hmem => ?_⟩
      have hold : .used t s.nextId now c ∈ s.log := by
        simpa [System.record, System.moveIssue] using hmem
      exact absurd (h.usedBound hold) (lt_irrefl _)
  · intro other c hother
    have hother : (Function.update s.issues task .done other).challenge? = some c := hother
    by_cases heq : other = task
    · subst heq
      rw [Function.update_self] at hother
      cases hother
    · rw [Function.update_of_ne heq] at hother
      exact h.challenges other c hother
  · intro other t e hother
    have hother : (Function.update s.issues task .done other).ticket? = some (t, e) := hother
    by_cases heq : other = task
    · subst heq
      rw [Function.update_self] at hother
      cases hother
    · rw [Function.update_of_ne heq] at hother
      have hother := h.unissued other t e hother
      refine hother.concat ?_
      rintro _ _ _ _ _ ⟨⟩
      exact heq (h.drawnOnce hother.drawn hunissued.drawn)
  · exact h.redeems_concat _
  · intro id
    have hcount := h.once id
    simpa [System.record, System.moveIssue, TicketEvent.isUse] using hcount
  · exact h.log.concat trivial

theorem TicketRow.matches_iff {r : TicketRow} {id : Nat} {now : DateValue} :
    r.matches id now = true ↔ r.id = id ∧ r.consumedAt = none ∧ r.expiresAt.after now = true := by
  rw [TicketRow.matches, Bool.and_eq_true, Bool.and_eq_true, decide_eq_true_eq, decide_eq_true_eq,
    and_assoc]

/-- **A ticket is used.** -/
theorem Inv.use (h : Inv dialect sha256 s) {task : Nat} {record : Record} {link : Link}
    (hpc : s.redeems task = .consuming record link) {before after : List TicketRow}
    {r : TicketRow} (htickets : s.tickets = before ++ r :: after)
    (hmatches : r.matches record.id (dateBind dialect s.now) = true) {credentials : Option Link}
    (hcredentials : ∀ c, credentials = some c → c = link) (consumed : DateValue) :
    Inv dialect sha256 ({ s with
      tickets := before ++ { r with consumedAt := some consumed } :: after }.record
        (.used task record.id s.now credentials)) := by
  obtain ⟨hid, hnone, hafter⟩ := TicketRow.matches_iff.1 hmatches
  have hr : r ∈ s.tickets := htickets ▸ List.mem_append_right _ List.mem_cons_self
  obtain ⟨ticket, expires, hstored⟩ := h.rows r hr
  have hids := h.ids
  rw [htickets, List.map_append, List.map_cons] at hids
  refine ⟨h.clock, ?_, ?_, ?_, ?_, ?_, ?_, ?_, h.challenges, ?_, h.redeems_concat _, ?_, ?_⟩
  · show ((before ++ { r with consumedAt := some consumed } :: after).map TicketRow.id).Nodup
    rw [List.map_append, List.map_cons]
    exact hids
  · intro v hv
    rcases List.mem_append.1 hv with hbefore | htail
    · exact h.idBound v (htickets ▸ List.mem_append_left _ hbefore)
    · rcases List.mem_cons.1 htail with rfl | hafter
      · exact h.idBound r hr
      · exact h.idBound v (htickets ▸ List.mem_append_right _ (List.mem_cons_of_mem _ hafter))
  · intro id t c u sess e hmem
    obtain ⟨hbound, hdrawn⟩ := h.issuedBound (by simpa [System.record] using hmem)
    exact ⟨hbound, wasDrawn_concat hdrawn _⟩
  · intro t id now c hmem
    rcases List.mem_append.1 hmem with hold | hnew
    · exact h.usedBound hold
    · cases List.mem_singleton.1 hnew
      exact hid ▸ h.idBound r hr
  · intro t t' text h₁ h₂
    exact h.drawnOnce (by simpa [System.record] using h₁) (by simpa [System.record] using h₂)
  · intro id id' t t' c c' u u' sess sess' e e' h₁ h₂
    exact h.distinct (by simpa [System.record] using h₁) (by simpa [System.record] using h₂)
  · intro v hv
    have hother : v = { r with consumedAt := some consumed } ∨ (v ∈ before ∨ v ∈ after) := by
      rcases List.mem_append.1 hv with hbefore | htail
      · exact .inr (.inl hbefore)
      · exact (List.mem_cons.1 htail).imp_right .inr
    rcases hother with rfl | hother
    · refine ⟨ticket, expires, List.mem_append_left _ hstored.issued, hstored.digest,
        hstored.challenge, hstored.column, hstored.date, nofun⟩
    · have hmem : v ∈ s.tickets := by
        rw [htickets]
        exact List.mem_append.2 (hother.imp_right (List.mem_cons_of_mem _))
      have hne : v.id ≠ record.id := by
        intro heq
        rw [List.nodup_middle, List.nodup_cons] at hids
        refine hids.1 ?_
        rw [hid, ← heq, ← List.map_append]
        exact List.mem_map_of_mem (List.mem_append.2 hother)
      obtain ⟨t, e, hv⟩ := h.rows v hmem
      exact ⟨t, e, hv.concat fun _ _ _ heq => hne (TicketEvent.used.inj heq).2.1.symm⟩
  · intro other t e hother
    exact (h.unissued other t e hother).concat nofun
  · intro id
    show (s.log ++ [TicketEvent.used task record.id s.now credentials]).countP _ ≤ 1
    rw [List.countP_append]
    by_cases heq : record.id = id
    · have hzero : s.log.countP (TicketEvent.isUse id) = 0 := by
        rw [List.countP_eq_zero]
        intro event hmem hevent
        cases event with
        | used t i now c =>
          obtain rfl : i = id := of_decide_eq_true hevent
          rw [← heq, ← hid] at hmem
          exact hstored.unused hnone _ _ _ hmem
        | _ => cases hevent
      rw [hzero, List.countP_singleton]
      split <;> decide
    · have hcount := h.once id
      rw [List.countP_singleton, TicketEvent.isUse, if_neg (by simpa using heq)]
      exact hcount
  · refine h.log.concat ?_
    cases credentials with
    | none => trivial
    | some c =>
      obtain rfl := hcredentials c rfl
      obtain ⟨t, verifier, ⟨⟨expires', hissued⟩, -⟩, htrail⟩ :=
        h.redeems task record (by rw [hpc]; rfl)
      rw [hpc] at htrail
      obtain ⟨hsigned, hlinked, hidentified⟩ := htrail
      have hsame := h.distinct hissued hstored.issued (.inl hid.symm)
      have hnow : s.now < expires := by
        rw [hstored.column] at hafter
        exact (dateBind_after_iff dialect hstored.date h.clock.1).1 hafter
      have hexpires : expires' = expires := hsame.2.2.2.2.2
      exact ⟨t, verifier, record.userId, record.sessionId, expires', hissued, hexpires ▸ hnow,
        hsigned, hlinked, hidentified⟩

theorem findRecord_eq_some {ticket verifier : List Char} {record : Record}
    (h : findRecord sha256 s ticket verifier = some record) : ∃ r ∈ s.tickets,
      r.ticketDigest = digest sha256 ticket ∧
      sameDigest r.challengeDigest (digest sha256 verifier) = true ∧
      record = ⟨r.id, r.userId, r.sessionId⟩ := by
  simp only [findRecord, Option.bind_eq_bind, Option.bind_eq_some_iff] at h
  obtain ⟨r, hfound, expiresAt, -, hchecks⟩ := h
  rw [Option.ite_none_right_eq_some] at hchecks
  obtain ⟨⟨-, -, hsame⟩, heq⟩ := hchecks
  refine ⟨r, List.mem_of_find?_eq_some hfound, ?_, hsame, (Option.some.inj heq).symm⟩
  simpa using List.find?_some hfound

/-- **A redemption begins** with the ticket of its record. -/
theorem Inv.opened (h : Inv dialect sha256 s) (task : Nat) {ticket verifier : List Char}
    {record : Record} (hcollides : ¬ collides sha256 s.log ticket = true)
    (hrecord : findRecord sha256 s ticket verifier = some record) :
    Opened sha256 (s.record (.started task ticket verifier)).log task ticket verifier record := by
  obtain ⟨r, hr, hdigest, hsame, rfl⟩ := findRecord_eq_some hrecord
  obtain ⟨t, expires, hstored⟩ := h.rows r hr
  obtain ⟨drawer, hdrawn⟩ := wasDrawn_iff.1 (h.issuedBound hstored.issued).2
  obtain rfl : t = ticket := eq_of_not_collides hcollides hdrawn (hstored.digest.symm.trans hdigest)
  refine ⟨⟨expires, List.mem_append_left _ ?_⟩, List.mem_append_right _ List.mem_cons_self⟩
  rw [eq_of_sameDigest hstored.challenge hsame]
  exact hstored.issued

theorem answered_ok (record : Record) (link : Link) (fallback : Option String) (identity : Json) :
    answered record link fallback (.ok identity) = .done ∨
      (identity.get "Id").bind Json.asStr = some link.jellyfinUserId ∧
        answered record link fallback (.ok identity) = .consuming record link := by
  dsimp only [answered]
  split
  · rename_i hidentity
    exact .inr ⟨hidentity.2.1, rfl⟩
  · exact .inl rfl

/-- **A step of a redemption** goes on, or uses its ticket. -/
theorem Inv.redeem (h : Inv dialect sha256 s) {act : Act} (hact : act.ofRedeem = true)
    (hstep : Step dialect sha256 s act s') : Inv dialect sha256 s' ∧
      (s'.tickets = s.tickets ∨ ∃ task id now credentials,
        s'.log = s.log ++ [.used task id now credentials]) := by
  unfold Step step at hstep
  cases act with
  | tick now | session session row | relink user columns | issue task user session challenge allowed
  | readLink task settings | cleanUp task ticket fails | insert task fails => cases hact
  | redeem task ticket verifier allowed =>
    dsimp only at hstep
    split at hstep
    · split at hstep
      · cases hstep
      · rename_i hcollides
        have hbegan : Inv dialect sha256 (s.record (.started task ticket verifier)) := h.read rfl
        split at hstep
        · split at hstep
          · cases hstep
            exact ⟨hbegan.doneRedeem task, .inl rfl⟩
          · rename_i record hrecord
            cases hstep
            refine ⟨hbegan.moveRedeem ?_, .inl rfl⟩
            rintro _ ⟨⟩
            exact ⟨ticket, verifier, h.opened task hcollides hrecord, trivial⟩
        · cases hstep
          exact ⟨hbegan.doneRedeem task, .inl rfl⟩
    · cases hstep
  | checkSession task =>
    dsimp only at hstep
    split at hstep
    · rename_i record hpc
      have hread : Inv dialect sha256 (s.record (.signedIn task record.sessionId
        (s.sessionUser record.sessionId))) := h.read rfl
      split at hstep
      · rename_i hsigned
        cases hstep
        refine ⟨hread.moveRedeem ?_, .inl rfl⟩
        rintro _ ⟨⟩
        obtain ⟨ticket, verifier, hopened, -⟩ := h.redeems task record (by rw [hpc]; rfl)
        refine ⟨ticket, verifier, hopened.concat _, ?_⟩
        have hduring := During.concat hopened.started
          (.signedIn task record.sessionId (s.sessionUser record.sessionId))
        rw [hsigned] at hduring ⊢
        exact hduring
      · cases hstep
        exact ⟨hread.doneRedeem task, .inl rfl⟩
    · cases hstep
  | redeemLink task settings =>
    dsimp only at hstep
    split at hstep
    · rename_i record hpc
      have hread : Inv dialect sha256 (s.record (.linked task record.userId
        (DesktopTickets.link (s.users record.userId)))) := h.read rfl
      split at hstep
      · rename_i l server fallback hjellyfin hlink hhosts
        cases hstep
        refine ⟨hread.moveRedeem ?_, .inl rfl⟩
        rintro _ ⟨⟩
        obtain ⟨ticket, verifier, hopened, htrail⟩ := h.redeems task record (by rw [hpc]; rfl)
        rw [hpc] at htrail
        refine ⟨ticket, verifier, hopened.concat _, During.mono htrail _, ?_⟩
        have hduring := During.concat hopened.started
          (.linked task record.userId (DesktopTickets.link (s.users record.userId)))
        rw [hlink] at hduring ⊢
        exact hduring
      · cases hstep
        exact ⟨hread.doneRedeem task, .inl rfl⟩
    · cases hstep
  | ask task answer =>
    dsimp only at hstep
    split at hstep
    · rename_i record link server fallback hpc
      obtain ⟨ticket, verifier, hopened, htrail⟩ := h.redeems task record (by rw [hpc]; rfl)
      rw [hpc] at htrail
      cases answer with
      | ok identity =>
        dsimp only at hstep
        cases hstep
        have hread : Inv dialect sha256 (s.record (.identified task link.token link.deviceId
          ((identity.get "Id").bind Json.asStr))) := h.read rfl
        refine ⟨?_, .inl rfl⟩
        rcases answered_ok record link fallback identity with heq | ⟨hid, heq⟩
        · rw [heq]
          exact hread.doneRedeem task
        · rw [heq]
          refine hread.moveRedeem ?_
          rintro _ ⟨⟩
          refine ⟨ticket, verifier, hopened.concat _, htrail.1.mono _, htrail.2.mono _, ?_⟩
          have hduring := During.concat hopened.started (.identified task link.token link.deviceId
            ((identity.get "Id").bind Json.asStr))
          rw [hid] at hduring ⊢
          exact hduring
      | failed status =>
        dsimp only at hstep
        cases hstep
        refine ⟨?_, .inl rfl⟩
        cases fallback with
        | none => exact h.doneRedeem task
        | some other =>
          refine h.moveRedeem ?_
          rintro _ ⟨⟩
          exact ⟨ticket, verifier, hopened, htrail⟩
    · cases hstep
  | consume task fails random =>
    dsimp only at hstep
    split at hstep
    · rename_i record link hpc
      split at hstep
      · cases hstep
        exact ⟨h.doneRedeem task, .inl rfl⟩
      · rcases Table.updateWhere_cases h.ids
          (p := fun r => r.matches record.id (dateBind dialect s.now))
          (fun r hr => (TicketRow.matches_iff.1 hr).1)
          (fun r => { r with consumedAt := some (dateBind dialect s.now) }) with
          ⟨before, r, after, htickets, hmatches, hconsume⟩ | hconsume
        · rw [consumeTicket, hconsume, if_pos rfl] at hstep
          cases hstep
          refine ⟨(h.use hpc htickets hmatches (fun c hc => ?_) _).doneRedeem task,
            .inr ⟨_, _, _, _, rfl⟩⟩
          split at hc
          · exact (Option.some.inj hc).symm
          · cases hc
        · rw [consumeTicket, hconsume, if_neg Bool.false_ne_true] at hstep
          cases hstep
          exact ⟨h.doneRedeem task, .inl rfl⟩
    · cases hstep

/-- **One statement, or one call of Jellyfin.** -/
theorem Inv.step (h : Inv dialect sha256 s) {act : Act} (hstep : Step dialect sha256 s act s') :
    Inv dialect sha256 s' := by
  cases act with
  | redeem task ticket verifier allowed => exact (h.redeem rfl hstep).1
  | checkSession task => exact (h.redeem rfl hstep).1
  | redeemLink task settings => exact (h.redeem rfl hstep).1
  | ask task answer => exact (h.redeem rfl hstep).1
  | consume task fails random => exact (h.redeem rfl hstep).1
  | tick now =>
    unfold Step DesktopTickets.step at hstep
    dsimp only at hstep
    split at hstep
    · rename_i hnow
      cases hstep
      obtain ⟨hlater, hday⟩ := hnow
      have hlast : now < 253402300800000 := by
        have hlast := hday.2
        rw [lifetimeMs] at hlast
        omega
      exact { h with clock := ⟨⟨h.clock.1.1.trans hlater, hlast⟩, hday⟩ }
    · cases hstep
  | session session row =>
    cases hstep
    exact { h with }
  | relink user columns =>
    cases hstep
    exact { h with }
  | issue task user session challenge allowed =>
    unfold Step DesktopTickets.step at hstep
    dsimp only at hstep
    split at hstep
    · split at hstep
      · rename_i hchecks
        cases hstep
        refine h.moveIssue ?_ nofun
        rintro _ ⟨⟩
        exact hchecks.1
      · cases hstep
        exact h.doneIssue task
    · cases hstep
  | readLink task settings =>
    unfold Step DesktopTickets.step at hstep
    dsimp only at hstep
    split at hstep
    · rename_i hpc
      split at hstep
      · cases hstep
        refine h.moveIssue ?_ nofun
        rintro _ ⟨⟩
        exact h.challenges task _ (by rw [hpc]; rfl)
      · cases hstep
        exact h.doneIssue task
    · cases hstep
  | cleanUp task ticket fails =>
    unfold Step DesktopTickets.step at hstep
    dsimp only at hstep
    split at hstep
    · rename_i user session challenge hpc
      split at hstep
      · cases hstep
      · rename_i hnew
        have hdrawn := h.draw task fun hwas => hnew (.inl hwas)
        split at hstep
        · cases hstep
          exact hdrawn.doneIssue task
        · cases hstep
          refine (hdrawn.delete _).moveIssue ?_ ?_
          · rintro _ ⟨⟩
            exact h.challenges task _ (by rw [hpc]; rfl)
          · rintro _ _ ⟨⟩
            refine ⟨List.mem_append_right _ List.mem_cons_self, h.clock.2, fun _ _ _ _ _ hmem => ?_⟩
            exact hnew (.inl (h.issuedBound (by simpa [System.record] using hmem)).2)
    · cases hstep
  | insert task fails =>
    unfold Step DesktopTickets.step at hstep
    dsimp only at hstep
    split at hstep
    · rename_i hpc
      split at hstep
      · cases hstep
        exact h.doneIssue task
      · cases hstep
        exact h.insert hpc
    · cases hstep

/-! ## Every run -/

/-- No tickets, at an instant of four-digit years. -/
def start (now : Int) (sessions : String → Option SessionRow)
    (users : Int → Option LinkColumns) : System where
  now := now
  sessions := sessions
  users := users

theorem inv_start {now : Int} (hclock : FourDigit now ∧ FourDigit (now + lifetimeMs))
    (sessions : String → Option SessionRow) (users : Int → Option LinkColumns) :
    Inv dialect sha256 (start now sessions users) where
  clock := hclock
  ids := List.nodup_nil
  idBound := nofun
  issuedBound := nofun
  usedBound := nofun
  drawnOnce := nofun
  distinct := nofun
  rows := nofun
  challenges := nofun
  unissued := nofun
  redeems := nofun
  once _ := Nat.zero_le 1
  log := Log.eachAfter_nil

/-- **A desktop ticket hands out a session once, to the one who asked**, on both
databases, whatever issues, redemptions, sign-outs and relinks there are and in
whatever order they go on. -/
theorem handed_out_once (dialect : Dialect) (sha256 : List Char → List UInt8) {now : Int}
    (hclock : FourDigit now ∧ FourDigit (now + lifetimeMs))
    (sessions : String → Option SessionRow) (users : Int → Option LinkColumns) {acts : List Act}
    (h : Run (Step dialect sha256) (start now sessions users) acts s) :
    HandedOutOnce dialect sha256 s := by
  have hinv : Inv dialect sha256 s := h.invariant (fun _ _ _ hs hstep => Inv.step hs hstep)
    (inv_start hclock sessions users)
  refine ⟨fun _ _ _ _ _ _ heq => hinv.log _ _ _ heq, hinv.once, hinv.distinct,
    fun act s' hstep hact hunused => ?_⟩
  rcases (hinv.redeem hact hstep).2 with hkept | ⟨task, id, now, credentials, hused⟩
  · exact hkept
  · exact absurd hused (hunused task id now credentials)

/-- A digest of as many bytes. -/
def firstBytes (text : List Char) : List UInt8 :=
  (text.take 32).map fun c => UInt8.ofNat c.toNat

def sampleTicket : List Char := List.replicate 43 'a'

def sampleVerifier : List Char := List.replicate 43 'b'

def sampleIdentity : Json := .obj [("Id", .str "jellyfin"), ("ServerId", .str "server")]

/-- Two redemptions of one ticket; the host of the first does not answer at once. -/
def sampleActs : List Act :=
  [.issue 0 1 "session" (digest firstBytes sampleVerifier) true, .readLink 0 { hosts := none },
    .cleanUp 0 sampleTicket false, .insert 0 false, .tick 1000,
    .redeem 0 sampleTicket sampleVerifier true, .redeem 1 sampleTicket sampleVerifier true,
    .checkSession 0, .checkSession 1, .redeemLink 0 { hosts := some ("internal", some "external") },
    .redeemLink 1 { hosts := some ("internal", none) }, .ask 0 (.failed (some 500)),
    .ask 1 (.ok sampleIdentity), .ask 0 (.ok sampleIdentity), .consume 0 false true,
    .consume 1 false true]

def sampleSessions (session : String) : Option SessionRow :=
  if session = "session" then some ⟨some 1, 5000, false⟩ else none

def sampleUsers (user : Int) : Option LinkColumns :=
  if user = 1 then some ⟨some "jellyfin", some "token", some "device"⟩ else none

theorem handed_out_once_sample : ∃ s, HandedOutOnce .sqlite firstBytes s ∧
    s.log.getLast? = some (.used 0 1 1000 (some ⟨"jellyfin", "token", "device"⟩)) := by
  have hrun : (sampleActs.foldlM (step .sqlite firstBytes)
      (start 0 sampleSessions sampleUsers)).map (fun s => s.log.getLast?)
        = some (some (.used 0 1 1000 (some ⟨"jellyfin", "token", "device"⟩))) := by
    decide +kernel
  obtain ⟨s, hs, hlast⟩ := Option.map_eq_some_iff.1 hrun
  exact ⟨s, handed_out_once .sqlite firstBytes (by decide) sampleSessions sampleUsers
    (Run.of_foldlM hs), hlast⟩

end DesktopTickets

end Foreseerr

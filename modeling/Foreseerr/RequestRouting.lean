import Foreseerr.Clock
import Foreseerr.JsText
import Foreseerr.Run

/-!
# The server of a request

A request is written with the server, profile and folders it will be sent with. Four
places look for that server in the settings. `requested_server` takes the id an advanced
requester asked for, where a server of the quality has it. `matching_rule` applies the
override rules of that id, or of the default server of the quality (`default_service`).
`sonarr_defaults` copies what is unset from the server of the id, or from the default one
(`applySonarrRequestDefaults`, for shows only). `pick_server` finds the server again when the
request is sent.

They do not ask the same of a server. `default_service` takes a missing `is4k` for false where
the others want the boolean, and `sonarr_defaults` takes the first server of an id, of
whatever quality. `RequestRouting.takesItsServer_iff` says when they agree nevertheless.
-/

namespace Foreseerr

namespace RequestRouting

open Json

/-! ## What is asked for -/

/-- What `createRequest` reads of its body for the routing. -/
structure Body where
  movie : Bool
  is4k : Bool
  serverId : Option Int := none
  profileId : Option Int := none
  rootFolder : Option String := none
  languageProfileId : Option Int := none
  metadataLanguageId : Option Int := none
  tags : Option (List Int) := none
deriving DecidableEq, Repr

/-- What the request will be written with. -/
structure Routing where
  serverId : Option Int
  profileId : Option Int
  rootFolder : Option String
  languageProfileId : Option Int
  /-- Only the requester's own choice: the server's setting is read when the request is
  sent. -/
  metadataLanguageId : Option Int
  tags : Option (List Int)
deriving DecidableEq, Repr

/-- The servers of a kind, where the settings have a list of them. -/
def services (settings : Json) (movie : Bool) : Option (List Json) :=
  (settings.pointer [if movie then "radarr" else "sonarr"]).bind asArray

/-- A field that is there and true. -/
def isTruthy (key : String) (server : Json) : Bool := (server.get key).any truthy

/-- `has_id`. -/
def hasId (id : Int) (server : Json) : Bool := (server.get "id").bind asI64 = some id

/-- `same_quality`: `is4k` is this boolean. -/
def sameQuality (is4k : Bool) (server : Json) : Bool :=
  match server.get "is4k" with
  | some (.bool b) => b = is4k
  | _ => false

/-- `requested_server`. -/
def requestedServer (settings : Json) (body : Body) (advanced : Bool) : Option Int := do
  let id ← body.serverId.filter fun id => advanced ∧ 0 ≤ id
  let servers ← services settings body.movie
  if servers.any fun s => hasId id s && sameQuality body.is4k s then some id else none

/-- `requested_routing`. -/
def requestedRouting (body : Body) (advanced : Bool) (serverId : Option Int) : Routing :=
  let askedForServer := advanced && body.serverId.any (0 ≤ ·)
  let allowed := advanced && (!askedForServer || serverId.isSome)
  { serverId
    profileId := body.profileId.filter fun _ => allowed
    rootFolder := body.rootFolder.filter fun _ => allowed
    languageProfileId := body.languageProfileId.filter fun _ => allowed
    metadataLanguageId := body.metadataLanguageId.filter fun _ => allowed && !body.movie
    tags := body.tags.filter fun _ => allowed }

/-! ## Override rules -/

/-- A row of `override_rule`. -/
structure OverrideRule where
  radarrServiceId : Option Int := none
  sonarrServiceId : Option Int := none
  users : Option String := none
  genre : Option String := none
  language : Option String := none
  keywords : Option String := none
  profileId : Option Int := none
  rootFolder : Option String := none
  tags : Option String := none
deriving DecidableEq, Repr

section Rules

/- How a text is printed with its quotes. -/
variable (quoted : String → String)

/-- `rule_number`. -/
def ruleNumber (piece : List Char) : Except String Int :=
  let trimmed := trimEnd isWhiteSpace (piece.dropWhile isWhiteSpace)
  if trimmed = [] then .ok 0
  else
    let unsigned := match trimmed with
      | '-' :: unsigned => unsigned
      | _ => trimmed
    match (if areDigits unsigned then parseInt trimmed else none) with
    | some n => .ok n
    | none =>
      .error ("an override rule id " ++ quoted (String.ofList trimmed) ++ " Number() reads oddly")

/-- `rule_numbers`. -/
def ruleNumbers (list : String) : Except String (List Int) :=
  (list.toList.splitOn ',').mapM (ruleNumber quoted)

/-- `ids_of`. -/
def idsOf (list : Option Json) : List Int :=
  ((list.bind asArray).getD []).filterMap fun item => (item.get "id").bind asI64

/-- TMDB's `anime` keyword. -/
def animeKeywordId : Int := 210024

/-- What is looked at of a title and its requester. -/
structure Subject where
  details : Json
  tvAnime : Bool
  userId : Int

/-- One check of a rule: where the rule names numbers, one of them has to fit. -/
def names (list : Option String) (fits : Int → Bool) : Except String Bool :=
  match list.filter (· ≠ "") with
  | none => .ok true
  | some list => (ruleNumbers quoted list).map fun numbers => numbers.any fits

/-- `rule_applies`. -/
def ruleApplies (rule : OverrideRule) (subject : Subject) : Except String Bool := do
  let details := subject.details
  if subject.tvAnime then
    match rule.keywords.filter (· ≠ "") with
    | none => return false
    | some keywords =>
      if ¬ (← ruleNumbers quoted keywords).contains animeKeywordId then return false
  if ¬ (← names quoted rule.users (· == subject.userId)) then return false
  if ¬ (← names quoted rule.genre (idsOf (details.get "genres")).contains) then return false
  match rule.language.filter (· ≠ "") with
  | none => pure ()
  | some languages =>
    let original := (details.get "original_language").bind asStr
    if ¬ (languages.toList.splitOn '|').any fun l => some (String.ofList l) == original then
      return false
  let list := (details.get "keywords").bind fun keywords =>
    ((keywords.get "keywords").filter fun list => list.asArray.isSome) <|> keywords.get "results"
  names quoted rule.keywords (idsOf list).contains

/-- `specificity`: how many of genre, language and keywords a rule names. -/
def specificity (rule : OverrideRule) : Nat :=
  ([rule.genre, rule.language, rule.keywords].filter fun named =>
    named.any fun text => (text.toList.dropWhile isWhiteSpace) ≠ []).length

/-- `default_service`. -/
def defaultService (settings : Json) (movie is4k : Bool) : Except String (Option Int) :=
  let server := (services settings movie).bind fun servers =>
    servers.find? fun s => isTruthy "is4k" s = is4k && isTruthy "isDefault" s
  match server.bind (Json.get "id") with
  | none => .ok none
  | some id =>
    match id.asI64 with
    | some id => .ok (some id)
    | none => .error "a server id that isn't a whole number"

/-- The server `matching_rule` takes the rules of. -/
def ruleService (settings : Json) (body : Body) (serviceId : Option Int) :
    Except String (Option Int) :=
  match serviceId with
  | some id => .ok (some id)
  | none => defaultService settings body.movie body.is4k

/-- The rule itself, of those of its server that apply: the most specific, and of these the
first. -/
def firstRule (rules : List OverrideRule) (movie : Bool) (subject : Subject) (serviceId : Int) :
    Except String (Option OverrideRule) := do
  let applied ← rules.filterM fun rule =>
    if (if movie then rule.radarrServiceId else rule.sonarrServiceId) = some serviceId then
      ruleApplies quoted rule subject
    else .ok false
  .ok (applied.mergeSort fun a b => specificity b ≤ specificity a).head?

/-- `matching_rule`. -/
def matchingRule (settings : Json) (rules : List OverrideRule) (body : Body) (subject : Subject)
    (serviceId : Option Int) : Except String (Option OverrideRule) := do
  match ← ruleService settings body serviceId with
  | none => .ok none
  | some id => firstRule quoted rules body.movie subject id

/-- Each number once, where it stands first. -/
def uniqueTags (tags : List Int) : List Int :=
  tags.foldl (fun unique tag => if tag ∈ unique then unique else unique ++ [tag]) []

/-- The tags a rule leaves, its own after those there are. -/
def ruleTags (tags : Option (List Int)) : Option String → Except String (Option (List Int))
  | none => .ok tags
  | some list => do .ok (some (uniqueTags (tags.getD [] ++ (← ruleNumbers quoted list))))

/-- `apply_rule`. -/
def applyRule (rule : OverrideRule) (advanced : Bool) (routing : Routing) :
    Except String Routing := do
  let keepRoot := advanced && routing.rootFolder.any (· ≠ "")
  let keepProfile := advanced && routing.profileId.any (· ≠ 0)
  let keepTags := advanced && routing.tags.isSome
  let root := rule.rootFolder.filter fun r => !keepRoot && r ≠ ""
  let profile := rule.profileId.filter fun p => !keepProfile && p ≠ 0
  let tags ← ruleTags quoted routing.tags (rule.tags.filter fun t => !keepTags && t ≠ "")
  .ok { routing with
    rootFolder := root <|> routing.rootFolder
    profileId := profile <|> routing.profileId
    tags }

end Rules

/-! ## A server's defaults -/

/-- `setting_int`. -/
def settingInt (server : Json) (key : String) : Except String (Option Int) :=
  match server.get key with
  | none | some .null => .ok none
  | some value =>
    match value.asI64 with
    | some n => .ok (some n)
    | none => .error ("sonarr " ++ key ++ " isn't a whole number")

/-- `int_list`. -/
def intList (value : Json) (what : String) : Except String (List Int) :=
  match value.asArray with
  | none => .error (what ++ " isn't a list")
  | some items => items.mapM fun item =>
      match item.asI64 with
      | some n => .ok n
      | none => .error (what ++ " has a non-integer")

/-- The server whose defaults `sonarr_defaults` copies. -/
def defaultsServer (settings : Json) (body : Body) (serverId : Option Int) : Option Json :=
  let servers := (services settings false).getD []
  match serverId with
  | none => servers.find? fun s => isTruthy "isDefault" s && sameQuality body.is4k s
  | some id => servers.find? (hasId id)

/-- A number that is set, or the server's. -/
def orSetting (value : Option Int) (server : Json) (key : String) : Except String (Option Int) :=
  match value with
  | some n => .ok (some n)
  | none => settingInt server key

/-- A folder that is set, or the server's. -/
def orDirectory (rootFolder : Option String) (server : Json) (key : String) :
    Except String (Option String) :=
  match rootFolder.filter (· ≠ "") with
  | some root => .ok (some root)
  | none =>
    match server.get key with
    | none | some .null => .ok none
    | some (.str s) => .ok (some s)
    | some _ => .error "a sonarr directory that isn't text"

/-- Tags that are set, or the server's. -/
def orTags (tags : Option (List Int)) (server : Json) (key : String) : Except String (List Int) :=
  match tags with
  | some tags => .ok tags
  | none =>
    match (server.get key).filter truthy with
    | some value => intList value "sonarr tags"
    | none => .ok []

/-- What `sonarr_defaults` copies of a server. -/
def copyDefaults (server : Json) (anime : Bool) (routing : Routing) : Except String Routing := do
  let animeOr := fun animeKey key => if anime && isTruthy animeKey server then animeKey else key
  let serverId ← orSetting routing.serverId server "id"
  let profileId ← orSetting routing.profileId server
    (animeOr "activeAnimeProfileId" "activeProfileId")
  let rootFolder ← orDirectory routing.rootFolder server
    (animeOr "activeAnimeDirectory" "activeDirectory")
  let languageProfileId ← orSetting routing.languageProfileId server
    (animeOr "activeAnimeLanguageProfileId" "activeLanguageProfileId")
  let tags ← orTags routing.tags server (if anime then "animeTags" else "tags")
  .ok { routing with serverId, profileId, rootFolder, languageProfileId, tags := some tags }

/-- `sonarr_defaults`. -/
def sonarrDefaults (settings : Json) (body : Body) (anime : Bool) (routing : Routing) :
    Except String Routing :=
  match defaultsServer settings body routing.serverId with
  | none => .ok routing
  | some server => copyDefaults server anime routing

/-! ## Creating and sending -/

/-- What a request is created with besides its body. -/
structure Creation where
  settings : Json
  rules : List OverrideRule
  body : Body
  advanced : Bool
  anime : Bool
  details : Json
  userId : Int

/-- What the rules look at. -/
def Creation.subject (c : Creation) : Subject where
  details := c.details
  tvAnime := !c.body.movie && c.anime
  userId := c.userId

/-- The routing with a rule on top, where one applies. -/
def withRule (quoted : String → String) (rule : Option OverrideRule) (advanced : Bool)
    (routing : Routing) : Except String Routing :=
  match rule with
  | none => .ok routing
  | some rule => applyRule quoted rule advanced routing

/-- The routing a request is stored with (`create`). -/
def route (quoted : String → String) (c : Creation) : Except String Routing := do
  let serverId := requestedServer c.settings c.body c.advanced
  let routing := requestedRouting c.body c.advanced serverId
  let rule ← matchingRule quoted c.settings c.rules c.body c.subject serverId
  let routing ← withRule quoted rule c.advanced routing
  if c.body.movie then .ok routing else sonarrDefaults c.settings c.body c.anime routing

/-- `pick_server`, and whether the request's own settings apply. -/
def pickServer (servers : List Json) (serverId : Option Int) (is4k : Bool) : Option (Json × Bool) :=
  let default := servers.find? fun s => isTruthy "isDefault" s && sameQuality is4k s
  match serverId.filter (0 ≤ ·) with
  | none => default.map fun s => (s, true)
  | some id =>
    if default.any (hasId id) then default.map fun s => (s, true)
    else
      match servers.find? fun s => hasId id s && sameQuality is4k s with
      | some server => some (server, true)
      | none => default.map fun s => (s, false)

/-- The server a stored request is sent to. -/
def sentTo (settings : Json) (body : Body) (routing : Routing) : Option Json :=
  ((services settings body.movie).bind fun servers =>
    pickServer servers routing.serverId body.is4k).map Prod.fst

/-! ## The same server -/

/-- The servers of a request's kind. -/
def serversOf (settings : Json) (body : Body) : List Json := (services settings body.movie).getD []

/-- The default server of a request's quality, as three of the four look for it. -/
def defaultServer (settings : Json) (body : Body) : Option Json :=
  (serversOf settings body).find? fun s => isTruthy "isDefault" s && sameQuality body.is4k s

/-- The first default server whose `is4k` is as true as the request asks. -/
def looseDefault (settings : Json) (body : Body) : Option Json :=
  (serversOf settings body).find? fun s => isTruthy "is4k" s = body.is4k && isTruthy "isDefault" s

/-- **A request takes its server**: the rules are those of the server it is sent to, and so
are the defaults copied for a show; or there is no server for either. -/
def TakesItsServer (c : Creation) (routing : Routing) : Prop :=
  let requested := requestedServer c.settings c.body c.advanced
  let copied := defaultsServer c.settings c.body requested
  let sent := sentTo c.settings c.body routing
  (∃ server id, hasId id server ∧ ruleService c.settings c.body requested = .ok (some id)
    ∧ sent = some server ∧ (c.body.movie = false → copied = some server))
  ∨ (ruleService c.settings c.body requested = .ok none ∧ sent = none
    ∧ (c.body.movie = false → copied = none))

/-- The two default servers of a quality have the same id, or there is neither, or the only
one has none. -/
def DefaultsAgree (settings : Json) (body : Body) : Prop :=
  match looseDefault settings body, defaultServer settings body with
  | none, _ => True
  | some loose, none => loose.get "id" = none
  | some loose, some server => ∃ id, hasId id loose ∧ hasId id server

/-- Of a show, the first server of an id is of the request's quality, and the default one
where that has the id too. -/
def FirstFits (settings : Json) (body : Body) (id : Int) : Prop :=
  body.movie = false → ∀ server, (serversOf settings body).find? (hasId id) = some server →
    sameQuality body.is4k server
      ∧ ∀ default, defaultServer settings body = some default → hasId id default → default = server

section Agreement

variable {settings : Json} {body : Body} {id : Int}

theorem sameQuality_iff {is4k : Bool} {server : Json} :
    sameQuality is4k server ↔ server.get "is4k" = some (.bool is4k) := by
  unfold sameQuality
  split
  next b hb => simp [hb]
  next hb =>
    constructor
    · exact nofun
    · exact fun h => absurd h (hb is4k)

theorem truthy_of_sameQuality {is4k : Bool} {server : Json} (h : sameQuality is4k server) :
    isTruthy "is4k" server = is4k := by
  rw [isTruthy, sameQuality_iff.1 h]
  rfl

theorem hasId_iff {server : Json} : hasId id server ↔ (server.get "id").bind asI64 = some id := by
  simp [hasId]

/-- Where there is no loose default server there is none at all. -/
theorem defaultServer_eq_none (h : looseDefault settings body = none) :
    defaultServer settings body = none := by
  rw [looseDefault, List.find?_eq_none] at h
  rw [defaultServer, List.find?_eq_none]
  intro server hserver hdefault
  rw [Bool.and_eq_true] at hdefault
  refine h server hserver ?_
  simp [truthy_of_sameQuality hdefault.2, hdefault.1]

theorem requestedServer_spec {advanced : Bool}
    (h : requestedServer settings body advanced = some id) :
    0 ≤ id ∧ ∃ server ∈ serversOf settings body,
      hasId id server ∧ sameQuality body.is4k server := by
  unfold requestedServer at h
  obtain ⟨asked, hasked, h⟩ := Option.bind_eq_some_iff.1 h
  obtain ⟨servers, hservers, h⟩ := Option.bind_eq_some_iff.1 h
  split at h
  next hany =>
    obtain rfl := Option.some.inj h
    obtain ⟨server, hmem, hserver⟩ := List.any_eq_true.1 hany
    rw [Bool.and_eq_true] at hserver
    have hpos := (Option.filter_eq_some_iff.1 hasked).2
    refine ⟨by simp at hpos; exact hpos.2, server, ?_, hserver⟩
    rw [serversOf, hservers]
    exact hmem
  next => cases h

/-- A server is picked among those of the kind. -/
theorem sentTo_eq (routing : Routing) : sentTo settings body routing
    = (pickServer (serversOf settings body) routing.serverId body.is4k).map Prod.fst := by
  rw [sentTo, serversOf]
  cases services settings body.movie with
  | none =>
    rw [pickServer]
    split
    · rfl
    · rfl
  | some servers => rfl

/-- A request without a server, or with the default one, goes to the default one. -/
theorem sentTo_default {routing : Routing}
    (h : ∀ id, routing.serverId = some id → 0 ≤ id →
      (defaultServer settings body).any (hasId id)) :
    sentTo settings body routing = defaultServer settings body := by
  rw [sentTo_eq, pickServer, ← defaultServer]
  have hfst : ∀ default : Option Json,
      (default.map fun s => (s, true)).map Prod.fst = default := by
    intro default
    cases default <;> rfl
  split
  · exact hfst _
  next id hid =>
    rw [Option.filter_eq_some_iff] at hid
    rw [if_pos (h id hid.1 (of_decide_eq_true hid.2))]
    exact hfst _

/-- A request for a server goes to the default one where that has the id, else to the first
of the quality. -/
theorem sentTo_requested {routing : Routing} (hrouting : routing.serverId = some id)
    (hpos : 0 ≤ id) : sentTo settings body routing
      = if (defaultServer settings body).any (hasId id) then defaultServer settings body
        else ((serversOf settings body).find? fun s => hasId id s && sameQuality body.is4k s)
          <|> defaultServer settings body := by
  have hfilter : (some id).filter (fun id => decide (0 ≤ id)) = some id := by simp [hpos]
  rw [sentTo_eq, pickServer, hrouting, hfilter]
  dsimp only
  rw [← defaultServer]
  split
  · cases defaultServer settings body <;> rfl
  · cases (serversOf settings body).find? fun s => hasId id s && sameQuality body.is4k s with
    | none => cases defaultServer settings body <;> rfl
    | some server => rfl

/-- What a rule sets is no server. -/
theorem applyRule_serverId {quoted : String → String} {rule : OverrideRule} {advanced : Bool}
    {routing routing' : Routing} (h : applyRule quoted rule advanced routing = .ok routing') :
    routing'.serverId = routing.serverId := by
  obtain ⟨tags, -, h⟩ := except_bind_eq_ok h
  rw [← Except.ok.inj h]

theorem hasId_of_settingInt {server : Json} (h : settingInt server "id" = .ok (some id)) :
    hasId id server := by
  rw [hasId_iff]
  unfold settingInt at h
  split at h
  next => cases Except.ok.inj h
  next => cases Except.ok.inj h
  next value hvalue =>
    rw [hvalue, Option.bind_some]
    split at h
    next n hn => rw [hn, Except.ok.inj h]
    next => cases h

/-- A request without a server gets the id of the one whose defaults it takes. -/
theorem copyDefaults_serverId {server : Json} {anime : Bool} {routing routing' : Routing}
    (h : copyDefaults server anime routing = .ok routing') :
    (∀ id, routing.serverId = some id → routing'.serverId = some id)
      ∧ (routing.serverId = none → ∀ id, routing'.serverId = some id → hasId id server) := by
  unfold copyDefaults at h
  obtain ⟨serverId, hserverId, h⟩ := except_bind_eq_ok h
  obtain ⟨profileId, -, h⟩ := except_bind_eq_ok h
  obtain ⟨rootFolder, -, h⟩ := except_bind_eq_ok h
  obtain ⟨languageProfileId, -, h⟩ := except_bind_eq_ok h
  obtain ⟨tags, -, h⟩ := except_bind_eq_ok h
  obtain rfl := Except.ok.inj h
  constructor
  · intro id hid
    rw [hid] at hserverId
    exact (Except.ok.inj hserverId).symm
  · intro hnone id hid
    rw [hnone] at hserverId
    exact hasId_of_settingInt (hserverId.trans (congrArg Except.ok hid))

/-- What the routing of a stored request comes from. -/
theorem route_spec {quoted : String → String} {c : Creation} {routing : Routing}
    (h : route quoted c = .ok routing) :
    ∃ ruled : Routing, ruled.serverId = requestedServer c.settings c.body c.advanced
      ∧ (if c.body.movie then .ok ruled else sonarrDefaults c.settings c.body c.anime ruled)
        = .ok routing := by
  obtain ⟨rule, -, h⟩ := except_bind_eq_ok h
  obtain ⟨ruled, hruled, h⟩ := except_bind_eq_ok h
  refine ⟨ruled, ?_, h⟩
  cases rule with
  | none =>
    rw [← Except.ok.inj hruled]
    rfl
  | some rule => exact applyRule_serverId hruled

/-- The server id a stored request has: the one asked for, or one of the server whose
defaults it took. -/
theorem route_serverId {quoted : String → String} {c : Creation} {routing : Routing}
    (h : route quoted c = .ok routing) :
    (∀ id, requestedServer c.settings c.body c.advanced = some id → routing.serverId = some id)
    ∧ (requestedServer c.settings c.body c.advanced = none → ∀ id, routing.serverId = some id →
        c.body.movie = false ∧ (defaultServer c.settings c.body).any (hasId id)) := by
  obtain ⟨ruled, hruled, h⟩ := route_spec h
  rw [← hruled]
  split at h
  next hmovie =>
    obtain rfl := Except.ok.inj h
    refine ⟨fun _ => id, fun hnone id hid => ?_⟩
    rw [hnone] at hid
    cases hid
  next hshow =>
    have hshow := Bool.eq_false_iff.2 hshow
    unfold sonarrDefaults at h
    split at h
    next hserver =>
      obtain rfl := Except.ok.inj h
      refine ⟨fun _ => id, fun hnone id hid => ?_⟩
      rw [hnone] at hid
      cases hid
    next server hserver =>
      refine ⟨(copyDefaults_serverId h).1, fun hnone id hid => ⟨hshow, ?_⟩⟩
      rw [hnone, defaultsServer] at hserver
      rw [defaultServer, serversOf, hshow, hserver]
      exact (copyDefaults_serverId h).2 hnone id hid

theorem find?_and_of_find? {α : Type} {l : List α} {p q : α → Bool} {a : α}
    (h : l.find? p = some a) (ha : q a) : l.find? (fun x => p x && q x) = some a := by
  rw [List.find?_eq_some_iff_append] at h ⊢
  obtain ⟨hp, before, after, hl, hbefore⟩ := h
  refine ⟨by rw [hp, ha]; rfl, before, after, hl, fun x hx => ?_⟩
  have := hbefore x hx
  rw [Bool.not_eq_true'] at this ⊢
  rw [this, Bool.false_and]

theorem ruleService_none : ruleService settings body none
    = match (looseDefault settings body).bind (Json.get "id") with
      | none => .ok none
      | some id =>
        match id.asI64 with
        | some id => .ok (some id)
        | none => .error "a server id that isn't a whole number" := by
  rw [ruleService, defaultService, looseDefault, serversOf]
  cases services settings body.movie <;> rfl

/-- The rules are those of the loose default server's id. -/
theorem ruleService_loose {loose : Json} (h : looseDefault settings body = some loose) :
    (ruleService settings body none = .ok none ↔ loose.get "id" = none)
      ∧ ∀ id, ruleService settings body none = .ok (some id) ↔ hasId id loose := by
  rw [ruleService_none, h, Option.bind_some]
  simp only [hasId_iff]
  cases loose.get "id" with
  | none => simp
  | some value =>
    dsimp only
    cases hvalue : value.asI64 with
    | none => simp [hvalue]
    | some n => simp [hvalue]

/-- The server of an id that was accepted. -/
theorem exists_sentTo {routing : Routing} (hrouting : routing.serverId = some id) (hpos : 0 ≤ id)
    {asked : Json} (hmem : asked ∈ serversOf settings body) (hid : hasId id asked)
    (hquality : sameQuality body.is4k asked) :
    ∃ server, sentTo settings body routing = some server ∧ hasId id server
      ∧ sameQuality body.is4k server
      ∧ ((∃ default, defaultServer settings body = some default ∧ hasId id default
            ∧ default = server)
        ∨ ((∀ default, defaultServer settings body = some default → ¬ hasId id default)
            ∧ (serversOf settings body).find? (fun s => hasId id s && sameQuality body.is4k s)
              = some server)) := by
  rw [sentTo_requested hrouting hpos]
  split
  next hdefault =>
    obtain ⟨server, hserver, hserverId⟩ := (Option.any_eq_true _ _).1 hdefault
    have hfind := List.find?_some hserver
    rw [Bool.and_eq_true] at hfind
    exact ⟨server, hserver, hserverId, hfind.2, .inl ⟨server, hserver, hserverId, rfl⟩⟩
  next hdefault =>
    have hsome : ((serversOf settings body).find? fun s =>
        hasId id s && sameQuality body.is4k s).isSome := by
      rw [List.find?_isSome]
      exact ⟨asked, hmem, by rw [hid, hquality]; rfl⟩
    obtain ⟨server, hserver⟩ := Option.isSome_iff_exists.1 hsome
    have hfind := List.find?_some hserver
    rw [Bool.and_eq_true] at hfind
    refine ⟨server, by rw [hserver]; rfl, hfind.1, hfind.2,
      .inr ⟨fun default hd hid => ?_, hserver⟩⟩
    exact hdefault ((Option.any_eq_true _ _).2 ⟨default, hd, hid⟩)

/-- A request that goes to the default server takes it where the two default servers agree. -/
theorem takesDefault_iff {c : Creation} {routing : Routing}
    (hrequested : requestedServer c.settings c.body c.advanced = none)
    (hsent : sentTo c.settings c.body routing = defaultServer c.settings c.body) :
    TakesItsServer c routing ↔ DefaultsAgree c.settings c.body := by
  have hcopied : c.body.movie = false →
      defaultsServer c.settings c.body none = defaultServer c.settings c.body := by
    intro hshow
    rw [defaultsServer, defaultServer, serversOf, hshow]
  rw [TakesItsServer, hrequested, hsent]
  unfold DefaultsAgree
  cases hloose : looseDefault c.settings c.body with
  | none =>
    have hnone := defaultServer_eq_none hloose
    have hservice : ruleService c.settings c.body none = .ok none := by
      rw [ruleService_none, hloose]
      rfl
    exact iff_true_intro (.inr ⟨hservice, hnone, fun hshow => (hcopied hshow).trans hnone⟩)
  | some loose =>
    obtain ⟨hnoRules, hruleOf⟩ := ruleService_loose hloose
    cases hserver : defaultServer c.settings c.body with
    | none =>
      dsimp only
      rw [← hnoRules]
      constructor
      · rintro (⟨_, _, -, -, hsome, -⟩ | ⟨hservice, -⟩)
        · cases hsome
        · exact hservice
      · exact fun hservice => .inr ⟨hservice, rfl, fun hshow => (hcopied hshow).trans hserver⟩
    | some server =>
      dsimp only
      constructor
      · rintro (⟨_, id, hid, hservice, hsome, -⟩ | ⟨-, hnone, -⟩)
        · rw [← Option.some.inj hsome] at hid
          exact ⟨id, (hruleOf id).1 hservice, hid⟩
        · cases hnone
      · rintro ⟨id, hlooseId, hid⟩
        exact .inl ⟨server, id, hid, (hruleOf id).2 hlooseId, rfl,
          fun hshow => (hcopied hshow).trans hserver⟩

/-- A request for a server takes it where the first of its id fits. -/
theorem takesRequested_iff {c : Creation} {routing : Routing}
    (hrequested : requestedServer c.settings c.body c.advanced = some id)
    (hrouting : routing.serverId = some id) :
    TakesItsServer c routing ↔ FirstFits c.settings c.body id := by
  obtain ⟨hpos, asked, hmem, hserver⟩ := requestedServer_spec hrequested
  obtain ⟨server, hsent, hid, hquality, hpicked⟩ :=
    exists_sentTo hrouting hpos hmem hserver.1 hserver.2
  have hcopied : c.body.movie = false → defaultsServer c.settings c.body (some id)
      = (serversOf c.settings c.body).find? (hasId id) := by
    intro hshow
    rw [defaultsServer, serversOf, hshow]
  rw [TakesItsServer, hrequested, hsent]
  constructor
  · rintro (⟨_, _, -, -, hsome, hsame⟩ | ⟨-, hnone, -⟩)
    · obtain rfl := Option.some.inj hsome
      intro hshow first hfind
      rw [← hcopied hshow, hsame hshow] at hfind
      obtain rfl := Option.some.inj hfind
      refine ⟨hquality, fun default hdefault hdefaultId => ?_⟩
      rcases hpicked with ⟨_, hd, -, rfl⟩ | ⟨hno, -⟩
      · exact Option.some.inj (hdefault.symm.trans hd)
      · exact absurd hdefaultId (hno default hdefault)
    · cases hnone
  · intro hfits
    refine .inl ⟨server, id, hid, rfl, rfl, fun hshow => ?_⟩
    obtain ⟨first, hfind⟩ := Option.isSome_iff_exists.1
      (List.find?_isSome.2 ⟨asked, hmem, hserver.1⟩)
    obtain ⟨hfits, hdefault⟩ := hfits hshow first hfind
    rw [hcopied hshow, hfind]
    rcases hpicked with ⟨default, hd, hdefaultId, rfl⟩ | ⟨-, hboth⟩
    · rw [hdefault default hd hdefaultId]
    · rw [← hboth, find?_and_of_find? hfind hfits]

/-- **When a stored request takes its server.** Of no server asked for it is enough that the
two default servers agree, of one asked for that the first of its id fits. -/
theorem takesItsServer_iff {quoted : String → String} {c : Creation} {routing : Routing}
    (h : route quoted c = .ok routing) :
    TakesItsServer c routing ↔
      match requestedServer c.settings c.body c.advanced with
      | none => DefaultsAgree c.settings c.body
      | some id => FirstFits c.settings c.body id := by
  obtain ⟨hasked, hdefault⟩ := route_serverId h
  cases hrequested : requestedServer c.settings c.body c.advanced with
  | none =>
    exact takesDefault_iff hrequested
      (sentTo_default fun id hid _ => (hdefault hrequested id hid).2)
  | some id => exact takesRequested_iff hrequested (hasked id hrequested)

end Agreement

/-- A request for a series in the usual quality. -/
def seriesRequest (servers : List Json) (advanced : Bool) (serverId : Option Int) : Creation where
  settings := .obj [("sonarr", .arr servers)]
  rules := []
  body := { movie := false, is4k := false, serverId }
  advanced
  anime := false
  details := .obj []
  userId := 1

/-- With one default server all agree. -/
theorem takesItsServer_oneServer :
    TakesItsServer
      (seriesRequest [.obj [("id", .num 0), ("isDefault", .bool true), ("is4k", .bool false)]]
        false none)
      ⟨some 0, none, none, none, none, some []⟩ :=
  (@takesItsServer_iff id _ _ (by decide +kernel)).2 ⟨0, rfl, rfl⟩

/-- The default server has no `is4k`. -/
def unclearDefault : Creation :=
  seriesRequest [.obj [("id", .num 0), ("isDefault", .bool true)]] false none

/-- The server asked for shares its id with one of the other quality. -/
def sharedId : Creation :=
  seriesRequest [.obj [("id", .num 0), ("is4k", .bool true)],
    .obj [("id", .num 0), ("is4k", .bool false)]] true (some 0)

/-- The rules of the one are taken, and no server; of the other the defaults of the server of
the wrong quality. -/
theorem unclear_quality_and_shared_id :
    (∃ routing, route id unclearDefault = .ok routing ∧ ¬ TakesItsServer unclearDefault routing)
    ∧ ∃ routing, route id sharedId = .ok routing ∧ ¬ TakesItsServer sharedId routing := by
  refine ⟨⟨⟨none, none, none, none, none, none⟩, by decide +kernel, ?_⟩,
    ⟨⟨some 0, none, none, none, none, some []⟩, by decide +kernel, ?_⟩⟩
  · rintro (⟨_, _, -, -, hsent, -⟩ | ⟨hrules, -⟩)
    · cases hsent
    · cases Except.ok.inj hrules
  · have hcopies : (defaultsServer sharedId.settings sharedId.body (requestedServer
        sharedId.settings sharedId.body sharedId.advanced)).any (sameQuality true) := by
      decide +kernel
    have hsends : (sentTo sharedId.settings sharedId.body
        ⟨some 0, none, none, none, none, some []⟩).any (sameQuality true) = false := by
      decide +kernel
    rintro (⟨_, _, -, -, hsent, hcopied⟩ | ⟨hrules, -⟩)
    · rw [hcopied rfl, ← hsent, hsends] at hcopies
      cases hcopies
    · cases Except.ok.inj hrules

end RequestRouting

end Foreseerr

import Foreseerr.SettingsMigrations
import Mathlib.Data.List.Pairwise

/-!
# Settings are migrated once

What a migration may change is named (`named`), and what it leaves behind is a document in
which it finds nothing to do (`Idle`). Later migrations leave that alone, `0003` among them,
which turns one media server that `0002` creates a key for into another. So a second run
over the migrated settings changes nothing, and puts the backup back that it has
overwritten (`migrated_once`).
-/

namespace Foreseerr

namespace SettingsMigrations

open Json Migrating

/-! ## What a migration may change -/

/-- The entries a migration names. -/
def named : Migration → List (String × String)
  | .hostname => [("jellyfin", "hostname"), ("jellyfin", "ip"), ("jellyfin", "port"),
      ("jellyfin", "useSsl"), ("jellyfin", "urlBase")]
  | .apiTokens => [("jellyfin", "apiKey")]
  | .emby => [("main", "mediaServerType")]
  | .region => [("main", "discoverRegion"), ("main", "streamingRegion"), ("main", "region")]
  | .network => [("main", "csrfProtection"), ("main", "trustProxy"), ("main", "forceIpv4First"),
      ("main", "proxy"), ("network", "csrfProtection"), ("network", "trustProxy"),
      ("network", "forceIpv4First"), ("network", "proxy")]
  | .lunasea => [("notifications", "agents")]
  | .arrTags => []
  | .blocklist => [("main", "hideBlacklisted"), ("main", "hideBlocklisted"),
      ("main", "blacklistedTags"), ("main", "blocklistedTags"), ("main", "blacklistedTagsLimit"),
      ("main", "blocklistedTagsLimit"), ("jobs", "process-blacklisted-tags"),
      ("jobs", "process-blocklisted-tags")]
  | .calendarSync | .calendarInterval => [("jobs", "release-calendar-sync")]
  | .requestTimeout => [("network", "apiRequestTimeout")]
  | .arrScan => [("jobs", "radarr-scan"), ("jobs", "sonarr-scan")]
  | .simklClient => [("simkl", "enabled")]

/-- What a migration does: it changes what it names, and may be recorded. -/
def Migrates (m : Migration) (settings settings' : Doc) : Prop :=
  ∃ changed, Changes [] (named m) settings changed
    ∧ (settings' = changed ∨ settings' = record m.name changed)

theorem Migrates.of_changes {m : Migration} {settings settings' : Doc}
    (h : Changes [] (named m) settings settings') : Migrates m settings settings' :=
  ⟨settings', h, .inl rfl⟩

theorem Migrates.idle (m : Migration) (settings : Doc) : Migrates m settings settings :=
  .of_changes (.refl _ _ _)

section Steps

variable {env : Env} {net : Network} {settings settings' : Doc}

theorem mainOf_eq_ok {main : Fields} (h : mainOf settings = .ok main) :
    getField "main" settings = some (.obj main) := by
  unfold mainOf at h
  split at h
  next main' hmain => rw [hmain, Except.ok.inj h]
  next => cases h

theorem migrates_hostname (h : migrateHostname settings = .ok settings') :
    Migrates .hostname settings settings' := by
  unfold migrateHostname at h
  split at h
  next jellyfin hjellyfin =>
    split at h
    next => exact Except.ok.inj h ▸ .idle _ _
    next hostname _ =>
      obtain rfl := Except.ok.inj h
      refine .of_changes (Changes.set_part (by decide) fun key hkey => ?_)
      simp only [named, List.mem_cons, List.not_mem_nil, Prod.mk.injEq, true_and, or_false,
        not_or] at hkey
      obtain ⟨hhost, hip, hport, hssl, hbase⟩ := hkey
      rw [entryAt_of_obj hjellyfin, splitJellyfin]
      dsimp only
      split
      next => rw [getField_removeField_of_ne hhost]
      next =>
        rw [getField_setField_of_ne hbase, getField_setField_of_ne hssl,
          getField_setField_of_ne hport, getField_setField_of_ne hip,
          getField_removeField_of_ne hhost]
    next => cases h
  next => exact Except.ok.inj h ▸ .idle _ _

/-- A part with one entry set. -/
theorem changes_setField {m : Migration} {part key : String} {fields : Fields} (value : Json)
    (hpart : getField part settings = some (.obj fields)) (hkey : (part, key) ∈ named m) :
    Changes [] (named m) settings (setField part (.obj (setField key value fields)) settings) := by
  refine Changes.set_part (List.mem_map_of_mem hkey) fun other hother => ?_
  have hne : other ≠ key := by
    rintro rfl
    exact hother hkey
  rw [entryAt_of_obj hpart, getField_setField_of_ne hne]

theorem migrates_apiTokens (h : migrateApiTokens env net settings = .ok settings') :
    Migrates .apiTokens settings settings' := by
  obtain ⟨main, -, h⟩ := except_bind_eq_ok h
  split at h
  next => exact Except.ok.inj h ▸ .idle _ _
  next =>
    obtain ⟨admin, -, h⟩ := except_bind_eq_ok h
    cases admin with
    | none => exact Except.ok.inj h ▸ .idle _ _
    | some admin =>
      dsimp only at h
      split at h
      next key hkey =>
        unfold setApiKey at h
        split at h
        next jellyfin hjellyfin =>
          obtain rfl := Except.ok.inj h
          exact .of_changes (changes_setField key hjellyfin (by decide))
        next => cases h
      next => cases h

theorem migrates_emby (h : migrateEmby env settings = .ok settings') :
    Migrates .emby settings settings' := by
  obtain ⟨main, hmain, h⟩ := except_bind_eq_ok h
  split at h
  next =>
    obtain rfl := Except.ok.inj h
    exact .of_changes (changes_setField _ (mainOf_eq_ok hmain) (by decide))
  next => exact Except.ok.inj h ▸ .idle _ _

theorem migrates_region (h : migrateRegion settings = .ok settings') :
    Migrates .region settings settings' := by
  obtain ⟨main, hmain, h⟩ := except_bind_eq_ok h
  split at h
  next => exact Except.ok.inj h ▸ .idle _ _
  next =>
    dsimp only at h
    obtain rfl := Except.ok.inj h
    refine .of_changes (Changes.set_part (by decide) fun key hkey => ?_)
    simp only [named, List.mem_cons, List.not_mem_nil, Prod.mk.injEq, true_and, or_false,
      not_or] at hkey
    obtain ⟨hdiscover, hstreaming, hregion⟩ := hkey
    rw [entryAt_of_obj (mainOf_eq_ok hmain), getField_removeField_of_ne hregion,
      getField_setField_of_ne hstreaming, getField_setField_of_ne hdiscover]

theorem migrates_network (h : migrateNetwork settings = .ok settings') :
    Migrates .network settings settings' := by
  unfold migrateNetwork at h
  split at h
  next => exact Except.ok.inj h ▸ .idle _ _
  next hnetwork =>
    obtain ⟨main, hmain, h⟩ := except_bind_eq_ok h
    obtain rfl := Except.ok.inj h
    refine .of_changes (Changes.trans (@Changes.set_part [] (named .network) settings "main" _
      (by decide) fun key hkey => ?_) (Changes.set_part (by decide) fun key hkey => ?_))
    · simp only [named, List.mem_cons, List.not_mem_nil, Prod.mk.injEq, true_and, or_false,
        not_or] at hkey
      simp only [networkOptions, List.foldl_cons, List.foldl_nil]
      rw [entryAt_of_obj (mainOf_eq_ok hmain), getField_removeField_of_ne hkey.2.2.2.1,
        getField_removeField_of_ne hkey.2.2.1, getField_removeField_of_ne hkey.2.1,
        getField_removeField_of_ne hkey.1]
    · simp only [named, List.mem_cons, List.not_mem_nil, Prod.mk.injEq, true_and, or_false,
        not_or] at hkey
      have hother : entryAt (setField "main" (.obj (networkOptions.foldl
          (fun main option => removeField option.1 main) main)) settings) "network" key = none := by
        rw [entryAt, getField_setField_of_ne (by decide), ← entryAt]
        exact entryAt_eq_none hnetwork key
      obtain ⟨-, -, -, -, hcsrf, htrust, hforce, hproxy⟩ := hkey
      rw [hother]
      simp only [networkOptions, List.map_cons, List.map_nil, getField_cons, Ne.symm hcsrf,
        Ne.symm htrust, Ne.symm hforce, Ne.symm hproxy, if_false]
      rfl

theorem migrates_lunasea : Migrates .lunasea settings (removeLunasea settings) := by
  unfold removeLunasea
  split
  next notifications hnotifications =>
    split
    next agents hagents =>
      split
      next => exact .of_changes (changes_setField _ hnotifications (by decide))
      next => exact .idle _ _
    next => exact .idle _ _
  next => exact .idle _ _

theorem migrates_arrTags
    (h : migrateArrTags env net (Migration.name .arrTags) settings = .ok settings') :
    Migrates .arrTags settings settings' := by
  unfold migrateArrTags at h
  split at h
  next => exact Except.ok.inj h ▸ .idle _ _
  next =>
    obtain ⟨users, -, h⟩ := except_bind_eq_ok h
    obtain ⟨radarr, -, h⟩ := except_bind_eq_ok h
    obtain ⟨sonarr, -, h⟩ := except_bind_eq_ok h
    split at h
    next => exact ⟨settings, .refl _ _ _, .inr (Except.ok.inj h).symm⟩
    next => exact Except.ok.inj h ▸ .idle _ _

theorem getField_moveField {old new key : String} (hold : key ≠ old) (hnew : key ≠ new)
    (fields : Fields) : getField key (moveField old new fields) = getField key fields := by
  unfold moveField
  split
  next => rfl
  next => rw [getField_removeField_of_ne hold, getField_setField_of_ne hnew]

theorem migrates_blocklist :
    Migrates .blocklist settings (migrateBlocklist (Migration.name .blocklist) settings) := by
  unfold migrateBlocklist
  split
  next => exact .idle _ _
  next =>
    have hmain : Changes [] (named .blocklist) settings (renameMain settings) := by
      unfold renameMain
      split
      next main hmain =>
        refine Changes.set_part (by decide) fun key hkey => ?_
        simp only [named, List.mem_cons, List.not_mem_nil, Prod.mk.injEq, true_and, or_false,
          not_or] at hkey
        simp only [blocklistKeys, List.foldl_cons, List.foldl_nil]
        rw [entryAt_of_obj hmain, getField_moveField hkey.2.2.2.2.1 hkey.2.2.2.2.2.1,
          getField_moveField hkey.2.2.1 hkey.2.2.2.1, getField_moveField hkey.1 hkey.2.1]
      next => exact .refl _ _ _
    have hjobs : Changes [] (named .blocklist) (renameMain settings)
        (renameJob (renameMain settings)) := by
      unfold renameJob
      split
      next jobs hjobs =>
        split
        next =>
          refine Changes.set_part (by decide) fun key hkey => ?_
          simp only [named, List.mem_cons, List.not_mem_nil, Prod.mk.injEq, true_and, or_false,
            not_or] at hkey
          rw [entryAt_of_obj hjobs, getField_moveField hkey.2.2.2.2.2.2.1 hkey.2.2.2.2.2.2.2]
        next => exact .refl _ _ _
      next => exact .refl _ _ _
    exact ⟨_, hmain.trans hjobs, .inr rfl⟩

/-- What `orEmpty` gives has the entries of the part. -/
theorem orEmpty_eq_ok {part error : String} {fields : Fields}
    (h : orEmpty part error settings = .ok fields) (key : String) :
    getField key fields = entryAt settings part key := by
  unfold orEmpty at h
  split at h
  next hnone =>
    rw [← Except.ok.inj h, entryAt_eq_none]
    · rfl
    · intro htrue
      rw [IsTruthyAt, Option.any_eq_true] at htrue
      obtain ⟨value, hvalue, htrue⟩ := htrue
      rw [hvalue, Option.filter_some, if_pos htrue] at hnone
      cases hnone
  next fields' hfields =>
    rw [← Except.ok.inj h, entryAt_of_obj (Option.filter_eq_some_iff.1 hfields).1]
  next => cases h

theorem migrates_calendar {m : Migration} (hm : named m = [("jobs", "release-calendar-sync")])
    (h : releaseCalendar m.name settings = .ok settings') : Migrates m settings settings' := by
  unfold releaseCalendar at h
  split at h
  next => exact Except.ok.inj h ▸ .idle _ _
  next =>
    obtain ⟨jobs, hjobs, h⟩ := except_bind_eq_ok h
    refine ⟨_, Changes.set_part (by rw [hm]; decide) fun key hkey => ?_,
      .inr (Except.ok.inj h).symm⟩
    rw [hm] at hkey
    have hne : key ≠ "release-calendar-sync" := by
      rintro rfl
      exact hkey List.mem_cons_self
    rw [← orEmpty_eq_ok hjobs]
    split
    next => rfl
    next => rw [getField_setField_of_ne hne]

theorem migrates_requestTimeout : Migrates .requestTimeout settings
    (arrRequestTimeout (Migration.name .requestTimeout) settings) := by
  unfold arrRequestTimeout
  split
  next => exact .idle _ _
  next =>
    refine ⟨raiseTimeout settings, ?_, .inr rfl⟩
    unfold raiseTimeout
    split
    next network hnetwork =>
      split
      next => exact changes_setField _ hnetwork (by decide)
      next => exact .refl _ _ _
    next => exact .refl _ _ _

theorem getField_reschedule {id old key : String} (h : key ≠ id) (jobs : Fields) :
    getField key (reschedule id old jobs) = getField key jobs := by
  unfold reschedule
  dsimp only
  split
  next => rfl
  next => rw [getField_setField_of_ne h]

theorem migrates_arrScan (h : arrScanInterval (Migration.name .arrScan) settings = .ok settings') :
    Migrates .arrScan settings settings' := by
  unfold arrScanInterval at h
  split at h
  next => exact Except.ok.inj h ▸ .idle _ _
  next =>
    obtain ⟨jobs, hjobs, h⟩ := except_bind_eq_ok h
    refine ⟨_, Changes.set_part (by decide) fun key hkey => ?_, .inr (Except.ok.inj h).symm⟩
    simp only [named, List.mem_cons, List.not_mem_nil, Prod.mk.injEq, true_and, or_false,
      not_or] at hkey
    rw [getField_reschedule hkey.2, getField_reschedule hkey.1, orEmpty_eq_ok hjobs]

theorem migrates_simklClient
    (h : simklBuiltinClient (Migration.name .simklClient) settings = .ok settings') :
    Migrates .simklClient settings settings' := by
  unfold simklBuiltinClient at h
  split at h
  next => exact Except.ok.inj h ▸ .idle _ _
  next =>
    obtain ⟨simkl, hsimkl, h⟩ := except_bind_eq_ok h
    obtain ⟨chosen, hchosen, h⟩ := except_bind_eq_ok h
    refine ⟨_, Changes.set_part (by decide) fun key hkey => ?_, .inr (Except.ok.inj h).symm⟩
    have hne : key ≠ "enabled" := by
      rintro rfl
      exact hkey List.mem_cons_self
    rw [← orEmpty_eq_ok hsimkl]
    unfold chooseSimkl at hchosen
    split at hchosen
    next => rw [Except.ok.inj hchosen]
    next =>
      obtain ⟨configured, -, hchosen⟩ := except_bind_eq_ok hchosen
      rw [← Except.ok.inj hchosen, getField_setField_of_ne hne]

/-- **What one migration does.** -/
theorem migrates_apply {m : Migration} (h : apply env net m settings = .ok settings') :
    Migrates m settings settings' := by
  cases m with
  | hostname => exact migrates_hostname h
  | apiTokens => exact migrates_apiTokens h
  | emby => exact migrates_emby h
  | region => exact migrates_region h
  | network => exact migrates_network h
  | lunasea => exact Except.ok.inj h ▸ migrates_lunasea
  | arrTags => exact migrates_arrTags h
  | blocklist => exact Except.ok.inj h ▸ migrates_blocklist
  | calendarSync => exact migrates_calendar rfl h
  | calendarInterval => exact migrates_calendar rfl h
  | requestTimeout => exact Except.ok.inj h ▸ migrates_requestTimeout
  | arrScan => exact migrates_arrScan h
  | simklClient => exact migrates_simklClient h

end Steps

/-! ## The ledger -/

/-- The recorded names. -/
def ledger (settings : Doc) : List Json := ((getField "migrations" settings).bind asArray).getD []

/-- All that is recorded is a migration of this build. -/
def Known (settings : Doc) : Prop := ∀ name ∈ ledger settings, ∃ m : Migration, name = .str m.name

theorem hasMigration_iff {settings : Doc} {name : String} :
    hasMigration settings name ↔ .str name ∈ ledger settings := by
  rw [hasMigration, ← ledger, List.any_eq_true]
  constructor
  · rintro ⟨value, hvalue, hname⟩
    cases value with
    | str text =>
      have htext : text = name := by simpa [asStr] using hname
      exact htext ▸ hvalue
    | _ => simp [asStr] at hname
  · exact fun h => ⟨_, h, by simp [asStr]⟩

theorem ledger_record (name : String) (settings : Doc) :
    ledger (record name settings) = ledger settings ++ [.str name] := by
  rw [ledger, record, getField_setField_self]
  rfl

theorem Migrates.parts {m : Migration} {settings settings' : Doc}
    (h : Migrates m settings settings') : Changes ["migrations"] (named m) settings settings' := by
  obtain ⟨changed, hchanged, rfl | rfl⟩ := h
  · exact hchanged.mono (List.nil_subset _) (List.Subset.refl _)
  · exact (hchanged.mono (List.nil_subset _) (List.Subset.refl _)).trans
      (Changes.set_free List.mem_cons_self _)

theorem Migrates.ledger {m : Migration} {settings settings' : Doc}
    (h : Migrates m settings settings') : SettingsMigrations.ledger settings'
      = SettingsMigrations.ledger settings ∨ SettingsMigrations.ledger settings'
      = SettingsMigrations.ledger settings ++ [.str m.name] := by
  obtain ⟨changed, hchanged, h⟩ := h
  have hpart : "migrations" ∉ (named m).map Prod.fst := by cases m <;> decide
  have hledger : SettingsMigrations.ledger changed = SettingsMigrations.ledger settings := by
    unfold SettingsMigrations.ledger
    rw [hchanged.part _ List.not_mem_nil hpart]
  rcases h with rfl | rfl
  · exact .inl hledger
  · exact .inr (by rw [ledger_record, hledger])

theorem Migrates.hasMigration {m : Migration} {settings settings' : Doc} {name : String}
    (h : Migrates m settings settings') (hname : hasMigration settings name) :
    SettingsMigrations.hasMigration settings' name := by
  rw [hasMigration_iff] at hname ⊢
  rcases h.ledger with hledger | hledger
  · exact hledger ▸ hname
  · exact hledger ▸ List.mem_append_left _ hname

theorem Migrates.known {m : Migration} {settings settings' : Doc}
    (h : Migrates m settings settings') (hknown : Known settings) : Known settings' := by
  intro name hname
  rcases h.ledger with hledger | hledger
  · exact hknown name (hledger ▸ hname)
  · rw [hledger, List.mem_append, List.mem_singleton] at hname
    exact hname.elim (hknown name) fun hm => ⟨m, hm⟩

/-! ## What a migration leaves behind -/

/-- The media server is Jellyfin or Emby. -/
def ServerNeedsKey (settings : Doc) : Prop :=
  isNumber 2 (entryAt settings "main" "mediaServerType")
    ∨ isNumber 3 (entryAt settings "main" "mediaServerType")

/-- There is nothing to do for a migration. -/
def Idle (env : Env) : Migration → Doc → Prop
  | .hostname, settings => ¬ (entryAt settings "jellyfin" "hostname").any truthy
  | .apiTokens, settings => IsObjectAt settings "main"
      ∧ ((entryAt settings "jellyfin" "apiKey").any truthy ∨ ¬ ServerNeedsKey settings
        ∨ env.admin = .ok none)
  | .emby, settings => IsObjectAt settings "main"
      ∧ ¬ (isNumber 2 (entryAt settings "main" "mediaServerType") ∧ env.jellyfinType = some "emby")
  | .region, settings => IsObjectAt settings "main"
      ∧ (entryAt settings "main" "discoverRegion").isSome
      ∧ (entryAt settings "main" "streamingRegion").isSome
  | .network, settings => IsTruthyAt settings "network"
  | .lunasea, settings =>
      ¬ ((entryAt settings "notifications" "agents").bind (Json.get "lunasea")).any truthy
  | m, settings => hasMigration settings m.name

/-- The entries by which a migration sees whether there is something to do. -/
def reads : Migration → List (String × String)
  | .hostname => [("jellyfin", "hostname")]
  | .apiTokens => [("jellyfin", "apiKey"), ("main", "mediaServerType")]
  | .emby => [("main", "mediaServerType")]
  | .region => [("main", "discoverRegion"), ("main", "streamingRegion")]
  | .lunasea => [("notifications", "agents")]
  | _ => []

section Idle

variable {env : Env} {net : Network} {settings settings' : Doc}

theorem isObjectAt_iff {part : String} :
    IsObjectAt settings part ↔ ∃ fields, getField part settings = some (.obj fields) := by
  rw [IsObjectAt, Option.any_eq_true]
  constructor
  · rintro ⟨value, hvalue, hobject⟩
    cases value with
    | obj fields => exact ⟨fields, hvalue⟩
    | _ => cases hobject
  · rintro ⟨fields, hfields⟩
    exact ⟨_, hfields, rfl⟩

theorem mainOf_of_isObjectAt (h : IsObjectAt settings "main") :
    ∃ main, mainOf settings = .ok main
      ∧ ∀ key, getField key main = entryAt settings "main" key := by
  obtain ⟨main, hmain⟩ := isObjectAt_iff.1 h
  refine ⟨main, by rw [mainOf, hmain], fun key => (entryAt_of_obj hmain key).symm⟩

/-- **An idle migration changes nothing.** -/
theorem apply_of_idle {m : Migration} (h : Idle env m settings) :
    apply env net m settings = .ok settings := by
  cases m with
  | hostname =>
    change migrateHostname settings = .ok settings
    unfold migrateHostname
    split
    next jellyfin hjellyfin =>
      have hnone : (getField "hostname" jellyfin).filter truthy = none := by
        rw [Option.filter_eq_none_iff]
        intro value hvalue htrue
        refine h ?_
        rw [entryAt_of_obj hjellyfin, Option.any_eq_true]
        exact ⟨value, hvalue, htrue⟩
      rw [hnone]
    next => rfl
  | apiTokens =>
    obtain ⟨hmain, hidle⟩ := h
    obtain ⟨main, hok, hentry⟩ := mainOf_of_isObjectAt hmain
    change migrateApiTokens env net settings = .ok settings
    rw [migrateApiTokens, hok]
    change (if _ then _ else _) = _
    split
    next => rfl
    next hneeds =>
      rw [not_or, not_not] at hneeds
      have hserver : ServerNeedsKey settings := by
        rw [ServerNeedsKey, ← hentry]
        exact Bool.or_eq_true_iff.1 hneeds.2
      rw [createKey, (hidle.resolve_left hneeds.1).resolve_left (not_not.2 hserver)]
      rfl
  | emby =>
    obtain ⟨hmain, hidle⟩ := h
    obtain ⟨main, hok, hentry⟩ := mainOf_of_isObjectAt hmain
    change migrateEmby env settings = .ok settings
    rw [migrateEmby, hok]
    exact if_neg (by rwa [hentry])
  | region =>
    obtain ⟨hmain, hidle⟩ := h
    obtain ⟨main, hok, hentry⟩ := mainOf_of_isObjectAt hmain
    change migrateRegion settings = .ok settings
    rw [migrateRegion, hok]
    exact if_pos (by rwa [hentry, hentry])
  | network => exact if_pos h
  | lunasea =>
    refine congrArg Except.ok ?_
    unfold removeLunasea
    split
    next notifications hnotifications =>
      split
      next agents hagents =>
        refine if_neg fun htrue => h ?_
        rw [entryAt_of_obj hnotifications, hagents]
        exact htrue
      next => rfl
    next => rfl
  | arrTags => exact if_pos h
  | blocklist => exact congrArg Except.ok (if_pos h)
  | calendarSync => exact if_pos h
  | calendarInterval => exact if_pos h
  | requestTimeout => exact congrArg Except.ok (if_pos h)
  | arrScan => exact if_pos h
  | simklClient => exact if_pos h

/-- What a migration does not read is no matter to it. -/
theorem idle_of_changes {m m' : Migration} (h : Migrates m' settings settings')
    (hreads : ∀ entry ∈ reads m, entry ∉ named m') (hidle : Idle env m settings) :
    Idle env m settings' := by
  have hparts := h.parts
  have hentry : ∀ part key, part ≠ "migrations" → (part, key) ∈ reads m →
      entryAt settings' part key = entryAt settings part key := by
    intro part key hpart hkey
    exact hparts.entry part key (by simpa using hpart) (hreads _ hkey)
  have hobject : IsObjectAt settings "main" → IsObjectAt settings' "main" :=
    hparts.object "main" (by decide)
  cases m with
  | hostname => rwa [Idle, hentry _ _ (by decide) (by decide)]
  | apiTokens =>
    rw [Idle, ServerNeedsKey, hentry _ _ (by decide) (by decide),
      hentry "main" _ (by decide) (by decide)]
    exact ⟨hobject hidle.1, hidle.2⟩
  | emby =>
    rw [Idle, hentry _ _ (by decide) (by decide)]
    exact ⟨hobject hidle.1, hidle.2⟩
  | region =>
    rw [Idle, hentry _ _ (by decide) (by decide), hentry _ _ (by decide) (by decide)]
    exact ⟨hobject hidle.1, hidle.2⟩
  | network => exact hparts.truth "network" (by decide) hidle
  | lunasea => rwa [Idle, hentry _ _ (by decide) (by decide)]
  | arrTags => exact h.hasMigration hidle
  | blocklist => exact h.hasMigration hidle
  | calendarSync => exact h.hasMigration hidle
  | calendarInterval => exact h.hasMigration hidle
  | requestTimeout => exact h.hasMigration hidle
  | arrScan => exact h.hasMigration hidle
  | simklClient => exact h.hasMigration hidle

/-- What Jellyfin lists as an access token is true, as a text that is not empty is. -/
def ListsKeys (net : Network) : Prop :=
  ∀ base auth keys items, net.getKeys base auth = .ok keys →
    (keys.get "Items").bind asArray = some items →
    ∀ item ∈ items, ∀ token, item.get "AccessToken" = some token → token.truthy

/-- The users' tags are renamed already, or on all servers. -/
def TagsRenamed (env : Env) (net : Network) (settings : Doc) : Prop :=
  hasMigration settings (Migration.name .arrTags)
    ∨ ∀ users radarr sonarr, env.users = .ok users → serversAt "radarr" settings = .ok radarr →
      serversAt "sonarr" settings = .ok sonarr →
      ∀ server ∈ taggedServers (radarr ++ sonarr), (renameUserTags env net users server).isOk

theorem truthy_of_createApiToken (hkeys : ListsKeys net) {base auth : String} {key : Json}
    (h : createApiToken net base auth = .ok key) : key.truthy := by
  obtain ⟨-, -, h⟩ := except_bind_eq_ok h
  obtain ⟨keys, hget, h⟩ := except_bind_eq_ok h
  split at h
  next => cases h
  next items hitems =>
    dsimp only at h
    split at h
    next => cases h
    next token htoken =>
      obtain rfl := Except.ok.inj h
      obtain ⟨item, hitem, htoken⟩ := Option.bind_eq_some_iff.1 htoken
      exact hkeys _ _ _ _ hget hitems item
        (List.mem_reverse.1 (List.mem_of_find?_eq_some hitem)) _ htoken

theorem hasMigration_record (name : String) (settings : Doc) :
    hasMigration (record name settings) name := by
  rw [hasMigration_iff, ledger_record]
  exact List.mem_append_right _ List.mem_cons_self

theorem entryAt_setField {part : String} {fields : Fields} (key : String) :
    entryAt (setField part (.obj fields) settings) part key = getField key fields :=
  entryAt_of_obj (getField_setField_self _ _ _) key

theorem idle_hostname (h : migrateHostname settings = .ok settings') :
    Idle env .hostname settings' := by
  rw [Idle]
  unfold migrateHostname at h
  split at h
  next jellyfin hjellyfin =>
    split at h
    next hnone =>
      rw [← Except.ok.inj h, entryAt_of_obj hjellyfin, Option.any_eq_true]
      rintro ⟨value, hvalue, htrue⟩
      rw [hvalue, Option.filter_some, if_pos htrue] at hnone
      cases hnone
    next hostname _ =>
      have hsplit : getField "hostname" (splitJellyfin hostname jellyfin) = none := by
        unfold splitJellyfin
        dsimp only
        split
        next => exact getField_removeField_self _ _
        next =>
          rw [getField_setField_of_ne (by decide), getField_setField_of_ne (by decide),
            getField_setField_of_ne (by decide), getField_setField_of_ne (by decide),
            getField_removeField_self]
      rw [← Except.ok.inj h, entryAt_setField, hsplit]
      exact Bool.false_ne_true
    next => cases h
  next hpart =>
    rw [← Except.ok.inj h, entryAt]
    cases hjellyfin : getField "jellyfin" settings with
    | none => exact Bool.false_ne_true
    | some value =>
      cases value with
      | obj fields => exact absurd hjellyfin (hpart fields)
      | _ => exact Bool.false_ne_true

theorem isObjectAt_main {main : Fields} (h : mainOf settings = .ok main) :
    IsObjectAt settings "main" :=
  isObjectAt_of_obj (mainOf_eq_ok h)

theorem idle_apiTokens (hkeys : ListsKeys net)
    (h : migrateApiTokens env net settings = .ok settings') : Idle env .apiTokens settings' := by
  have hmigrates := migrates_apiTokens h
  obtain ⟨main, hmain, h⟩ := except_bind_eq_ok h
  refine ⟨hmigrates.parts.object _ (by decide) (isObjectAt_main hmain), ?_⟩
  split at h
  next hneeds =>
    obtain rfl := Except.ok.inj h
    refine hneeds.imp_right fun hserver => .inl fun hneedsKey => hserver ?_
    rw [ServerNeedsKey, entryAt_of_obj (mainOf_eq_ok hmain)] at hneedsKey
    exact Bool.or_eq_true_iff.2 hneedsKey
  next =>
    obtain ⟨admin, hadmin, h⟩ := except_bind_eq_ok h
    cases admin with
    | none => exact .inr (.inr hadmin)
    | some admin =>
      dsimp only at h
      split at h
      next key hkey =>
        unfold setApiKey at h
        split at h
        next jellyfin hjellyfin =>
          rw [← Except.ok.inj h, entryAt_setField, getField_setField_self]
          exact .inl (truthy_of_createApiToken hkeys hkey)
        next => cases h
      next => cases h

theorem idle_emby (h : migrateEmby env settings = .ok settings') : Idle env .emby settings' := by
  have hmigrates := migrates_emby h
  obtain ⟨main, hmain, h⟩ := except_bind_eq_ok h
  refine ⟨hmigrates.parts.object _ (by decide) (isObjectAt_main hmain), ?_⟩
  split at h
  next =>
    rw [← Except.ok.inj h, entryAt_setField, getField_setField_self]
    rintro ⟨htwo, -⟩
    simp [isNumber] at htwo
  next hother =>
    rw [← Except.ok.inj h, entryAt_of_obj (mainOf_eq_ok hmain)]
    exact hother

theorem idle_region (h : migrateRegion settings = .ok settings') : Idle env .region settings' := by
  have hmigrates := migrates_region h
  obtain ⟨main, hmain, h⟩ := except_bind_eq_ok h
  refine ⟨hmigrates.parts.object _ (by decide) (isObjectAt_main hmain), ?_⟩
  split at h
  next hboth =>
    rw [← Except.ok.inj h, entryAt_of_obj (mainOf_eq_ok hmain),
      entryAt_of_obj (mainOf_eq_ok hmain)]
    exact hboth
  next =>
    dsimp only at h
    rw [← Except.ok.inj h, entryAt_setField, entryAt_setField,
      getField_removeField_of_ne (by decide), getField_removeField_of_ne (by decide),
      getField_setField_of_ne (by decide), getField_setField_self, getField_setField_self]
    exact ⟨rfl, rfl⟩

theorem idle_network (h : migrateNetwork settings = .ok settings') :
    Idle env .network settings' := by
  unfold migrateNetwork at h
  split at h
  next htrue => exact Except.ok.inj h ▸ htrue
  next =>
    obtain ⟨main, -, h⟩ := except_bind_eq_ok h
    rw [← Except.ok.inj h, Idle, IsTruthyAt, getField_setField_self]
    rfl

theorem idle_lunasea : Idle env .lunasea (removeLunasea settings) := by
  rw [Idle]
  unfold removeLunasea
  split
  next notifications hnotifications =>
    split
    next agents hagents =>
      split
      next =>
        rw [entryAt_setField, getField_setField_self, Option.bind_some, Json.get,
          getField_removeField_self]
        exact Bool.false_ne_true
      next hfalse =>
        rw [entryAt_of_obj hnotifications, hagents]
        exact hfalse
    next hagents =>
      rw [entryAt_of_obj hnotifications]
      cases hvalue : getField "agents" notifications with
      | none => exact Bool.false_ne_true
      | some value =>
        cases value with
        | obj fields => exact absurd hvalue (hagents fields)
        | _ => exact Bool.false_ne_true
  next hpart =>
    rw [entryAt]
    cases hvalue : getField "notifications" settings with
    | none => exact Bool.false_ne_true
    | some value =>
      cases value with
      | obj fields => exact absurd hvalue (hpart fields)
      | _ => exact Bool.false_ne_true

theorem idle_arrTags (htags : TagsRenamed env net settings)
    (h : migrateArrTags env net (Migration.name .arrTags) settings = .ok settings') :
    Idle env .arrTags settings' := by
  unfold migrateArrTags at h
  split at h
  next hrecorded => exact Except.ok.inj h ▸ hrecorded
  next hrecorded =>
    obtain ⟨users, husers, h⟩ := except_bind_eq_ok h
    obtain ⟨radarr, hradarr, h⟩ := except_bind_eq_ok h
    obtain ⟨sonarr, hsonarr, h⟩ := except_bind_eq_ok h
    have hall := htags.resolve_left hrecorded users radarr sonarr husers hradarr hsonarr
    rw [if_pos (List.all_eq_true.2 hall)] at h
    exact Except.ok.inj h ▸ hasMigration_record _ _

/-- **A migration leaves nothing to do behind.** -/
theorem idle_of_apply {m : Migration} (hkeys : ListsKeys net)
    (htags : TagsRenamed env net settings) (h : apply env net m settings = .ok settings') :
    Idle env m settings' := by
  have hrecorded : ∀ {m : Migration} {step : Except String Doc},
      (if hasMigration settings m.name then .ok settings else step) = .ok settings' →
      (∀ settings', step = .ok settings' → ∃ changed, settings' = record m.name changed) →
      hasMigration settings' m.name := by
    intro m step h hstep
    split at h
    next hrecorded => exact Except.ok.inj h ▸ hrecorded
    next =>
      obtain ⟨changed, rfl⟩ := hstep _ h
      exact hasMigration_record _ _
  have hcalendar : ∀ {m : Migration}, releaseCalendar m.name settings = .ok settings' →
      hasMigration settings' m.name := by
    intro m h
    refine hrecorded h fun settings' h => ?_
    obtain ⟨jobs, -, h⟩ := except_bind_eq_ok h
    exact ⟨_, (Except.ok.inj h).symm⟩
  cases m with
  | hostname => exact idle_hostname h
  | apiTokens => exact idle_apiTokens hkeys h
  | emby => exact idle_emby h
  | region => exact idle_region h
  | network => exact idle_network h
  | lunasea => exact Except.ok.inj h ▸ idle_lunasea
  | arrTags => exact idle_arrTags htags h
  | blocklist =>
    rw [← Except.ok.inj h]
    change hasMigration (migrateBlocklist (Migration.name .blocklist) settings) _
    unfold migrateBlocklist
    split
    next h => exact h
    next => exact hasMigration_record _ _
  | calendarSync => exact hcalendar h
  | calendarInterval => exact hcalendar h
  | requestTimeout =>
    rw [← Except.ok.inj h]
    change hasMigration (arrRequestTimeout (Migration.name .requestTimeout) settings) _
    unfold arrRequestTimeout
    split
    next h => exact h
    next => exact hasMigration_record _ _
  | arrScan =>
    refine hrecorded h fun settings' h => ?_
    obtain ⟨jobs, -, h⟩ := except_bind_eq_ok h
    exact ⟨_, (Except.ok.inj h).symm⟩
  | simklClient =>
    refine hrecorded h fun settings' h => ?_
    obtain ⟨simkl, -, h⟩ := except_bind_eq_ok h
    obtain ⟨chosen, -, h⟩ := except_bind_eq_ok h
    exact ⟨_, (Except.ok.inj h).symm⟩

/-! ## All migrations -/

/-- `0003` turns one server that needs a key into another, which is no matter to `0002`. -/
theorem idle_apiTokens_emby (h : migrateEmby env settings = .ok settings')
    (hidle : Idle env .apiTokens settings) : Idle env .apiTokens settings' := by
  have hparts := (migrates_emby h).parts
  obtain ⟨main, hmain, h⟩ := except_bind_eq_ok h
  refine ⟨hparts.object _ (by decide) hidle.1, ?_⟩
  rw [hparts.entry "jellyfin" "apiKey" (by decide) (by decide)]
  refine hidle.2.imp_right fun hidle => hidle.imp_left fun hserver hneeds => hserver ?_
  split at h
  next htwo =>
    rw [ServerNeedsKey, entryAt_of_obj (mainOf_eq_ok hmain)]
    exact .inl htwo.1
  next => rwa [Except.ok.inj h]

/-- A migration and a later one that changes nothing of what it reads. -/
def Apart (m m' : Migration) : Prop := ∀ entry ∈ reads m, entry ∉ named m'

instance (m m' : Migration) : Decidable (Apart m m') := inferInstanceAs (Decidable (∀ _, _))

theorem migrations_pairwise :
    migrations.Pairwise fun m m' => Apart m m' ∨ (m = .apiTokens ∧ m' = .emby) := by
  decide

theorem idle_kept {m m' : Migration} (hpair : Apart m m' ∨ (m = .apiTokens ∧ m' = .emby))
    (h : apply env net m' settings = .ok settings') (hidle : Idle env m settings) :
    Idle env m settings' := by
  rcases hpair with hapart | ⟨rfl, rfl⟩
  · exact idle_of_changes (migrates_apply h) hapart hidle
  · exact idle_apiTokens_emby h hidle

/-- The parts of the servers are in no migration's way. -/
theorem tagsRenamed_of_migrates {m : Migration} (h : Migrates m settings settings')
    (htags : TagsRenamed env net settings) : TagsRenamed env net settings' := by
  refine htags.imp h.hasMigration fun hservers users radarr sonarr husers hradarr hsonarr => ?_
  have hradarrs : getField "radarr" settings' = getField "radarr" settings :=
    h.parts.part "radarr" (by decide) (by cases m <;> decide)
  have hsonarrs : getField "sonarr" settings' = getField "sonarr" settings :=
    h.parts.part "sonarr" (by decide) (by cases m <;> decide)
  rw [serversAt, hradarrs, ← serversAt] at hradarr
  rw [serversAt, hsonarrs, ← serversAt] at hsonarr
  exact hservers users radarr sonarr husers hradarr hsonarr

/-- The entries that migrations name. -/
def namedEntries : List (String × String) := migrations.flatMap named

/-- **After all migrations there is nothing to do for any.** -/
theorem idle_of_applyAll (hkeys : ListsKeys net) (htags : TagsRenamed env net settings)
    (h : applyAll env net settings = .ok settings') : ∀ m ∈ migrations, Idle env m settings' :=
  guards_of_foldlM (fun _ _ _ _ h => tagsRenamed_of_migrates (migrates_apply h))
    (fun _ _ _ _ htags h => idle_of_apply hkeys htags h)
    (migrations_pairwise.imp fun hpair _ _ h hidle => idle_kept hpair h hidle) h htags

theorem changes_applyAll (h : applyAll env net settings = .ok settings') :
    Changes ["migrations"] namedEntries settings settings' := by
  refine foldlM_keeps (P := Changes ["migrations"] namedEntries settings)
    (fun m hm s s' hs hchanges => ?_) h (.refl _ _ _)
  exact hchanges.trans ((migrates_apply hs).parts.mono (List.Subset.refl _)
    fun entry hentry => List.mem_flatMap.2 ⟨m, hm, hentry⟩)

theorem known_applyAll (h : applyAll env net settings = .ok settings') (hknown : Known settings) :
    Known settings' :=
  foldlM_keeps (fun _ _ _ _ hs => (migrates_apply hs).known) h hknown

/-! ## Before the migrations -/

theorem isRouting_name (m : Migration) : isRouting m.name = false := by
  cases m <;> decide

theorem keptNames_of_known {names : List Json}
    (h : ∀ name ∈ names, ∃ m : Migration, name = .str m.name) : keptNames names = .ok names := by
  induction names with
  | nil => rfl
  | cons name names ih =>
    rw [List.forall_mem_cons] at h
    obtain ⟨⟨m, rfl⟩, hrest⟩ := h
    rw [keptNames, asStr, ih hrest]
    change Except.ok (if isRouting m.name then names else .str m.name :: names) = _
    rw [isRouting_name, if_neg Bool.false_ne_true]

theorem mem_keptNames {names kept : List Json} (h : keptNames names = .ok kept) {name : Json}
    (hname : name ∈ kept) : name ∈ names ∧ ∃ text, name = .str text := by
  induction names generalizing kept with
  | nil =>
    rw [← Except.ok.inj h] at hname
    cases hname
  | cons first names ih =>
    unfold keptNames at h
    split at h
    next => cases h
    next text htext =>
      obtain ⟨rest, hrest, h⟩ := except_bind_eq_ok h
      have hkept := Except.ok.inj h
      split at hkept
      next =>
        have := ih hrest (hkept ▸ hname)
        exact ⟨List.mem_cons_of_mem _ this.1, this.2⟩
      next =>
        rw [← hkept, List.mem_cons] at hname
        rcases hname with rfl | hname
        · refine ⟨List.mem_cons_self, text, ?_⟩
          cases name with
          | str s => exact congrArg Json.str (Option.some.inj htext)
          | _ => cases htext
        · have := ih hrest hname
          exact ⟨List.mem_cons_of_mem _ this.1, this.2⟩

theorem mem_keptNames_of_not_routing {names kept : List Json} (h : keptNames names = .ok kept)
    {text : String} (hname : .str text ∈ names) (hrouting : isRouting text = false) :
    .str text ∈ kept := by
  induction names generalizing kept with
  | nil => cases hname
  | cons first names ih =>
    unfold keptNames at h
    split at h
    next => cases h
    next text' htext =>
      obtain ⟨rest, hrest, h⟩ := except_bind_eq_ok h
      have hkept := Except.ok.inj h
      rcases List.mem_cons.1 hname with rfl | hname
      · obtain rfl : text = text' := Option.some.inj htext
        rw [hrouting, if_neg Bool.false_ne_true] at hkept
        exact hkept ▸ List.mem_cons_self
      · have hmem := ih hrest hname
        split at hkept
        next => exact hkept ▸ hmem
        next => exact hkept ▸ List.mem_cons_of_mem _ hmem

/-- The parts that the cleanup of the ledger touches. -/
def freeParts : List String := ["migrations", "requestRouting", "requestFilters"]

theorem dropNames_spec (h : dropNames settings = .ok settings') :
    Changes freeParts [] settings settings' ∧ (∀ name ∈ ledger settings', ∃ text, name = .str text)
      ∧ ∀ text, .str text ∈ ledger settings → isRouting text = false →
        .str text ∈ ledger settings' := by
  unfold dropNames at h
  split at h
  next names hnames =>
    obtain ⟨kept, hkept, h⟩ := except_bind_eq_ok h
    obtain rfl := Except.ok.inj h
    have hledger : ledger (setField "migrations" (.arr kept) settings) = kept := by
      rw [ledger, getField_setField_self]
      rfl
    have hbefore : ledger settings = names := by
      rw [ledger, hnames]
      rfl
    rw [hledger, hbefore]
    exact ⟨Changes.set_free (by decide) _, fun name hname => (mem_keptNames hkept hname).2,
      fun text htext hrouting => mem_keptNames_of_not_routing hkept htext hrouting⟩
  next hnames =>
    obtain rfl := Except.ok.inj h
    have hledger : ledger settings = [] := by
      rw [ledger]
      cases hvalue : getField "migrations" settings with
      | none => rfl
      | some value =>
        cases value with
        | arr names => exact absurd hvalue (hnames names)
        | _ => rfl
    rw [hledger]
    exact ⟨.refl _ _ _, nofun, nofun⟩

/-- **What the cleanup leaves**: names of this build, and no request routing. -/
theorem prepare_spec {original : Json} (h : prepare env original = .ok settings) :
    ∃ fields, original = .obj fields ∧ Changes freeParts [] fields settings ∧ Known settings
      ∧ getField "requestRouting" settings = none ∧ getField "requestFilters" settings = none
      ∧ (hasMigration fields (Migration.name .arrTags) →
          hasMigration settings (Migration.name .arrTags)) := by
  unfold prepare at h
  split at h
  next fields =>
    obtain ⟨dropped, hdropped, h⟩ := except_bind_eq_ok h
    split at h
    next => cases h
    next hknown =>
      obtain rfl := Except.ok.inj h
      refine ⟨fields, rfl, ?_⟩
      obtain ⟨cleaned, hcleaned, hdropped⟩ := except_bind_eq_ok hdropped
      obtain ⟨hchanges, htexts, hkept⟩ := dropNames_spec hcleaned
      obtain rfl := Except.ok.inj hdropped
      have hledger : ledger (removeField "requestFilters" (removeField "requestRouting" cleaned))
          = ledger cleaned := by
        rw [ledger, getField_removeField_of_ne (by decide), getField_removeField_of_ne (by decide),
          ← ledger]
      refine ⟨?_, fun name hname => ?_, ?_, getField_removeField_self _ _, fun htags => ?_⟩
      · exact (hchanges.trans (Changes.remove_free (by decide))).trans
          (Changes.remove_free (by decide))
      · rw [hledger] at hname
        obtain ⟨text, rfl⟩ := htexts name hname
        rw [not_not, unsupported, List.filter_eq_nil_iff] at hknown
        rw [← ledger, hledger] at hknown
        have hcontains := hknown text (List.mem_map.2 ⟨.str text, hname, rfl⟩)
        rw [decide_eq_true_eq, not_not, List.contains_iff_mem, List.mem_map] at hcontains
        obtain ⟨m, -, rfl⟩ := hcontains
        exact ⟨m, rfl⟩
      · rw [getField_removeField_of_ne (by decide), getField_removeField_self]
      · rw [hasMigration_iff] at htags ⊢
        rw [hledger]
        exact hkept _ htags (isRouting_name _)
  next => cases h

/-- Migrated settings pass the cleanup as they are. -/
theorem prepare_of_known (hknown : Known settings)
    (hrouting : getField "requestRouting" settings = none)
    (hfilters : getField "requestFilters" settings = none) :
    prepare env (.obj settings) = .ok settings := by
  have hnames : dropNames settings = .ok settings := by
    unfold dropNames
    split
    next names hnames =>
      have hledger : ledger settings = names := by
        rw [ledger, hnames]
        rfl
      rw [keptNames_of_known (hledger ▸ hknown)]
      exact congrArg Except.ok (setField_getField hnames)
    next => rfl
  have hdropped : dropRequestRouting settings = .ok settings := by
    rw [dropRequestRouting, hnames]
    refine congrArg Except.ok ?_
    rw [removeField_eq_self hrouting, removeField_eq_self hfilters]
  have hunsupported : unsupported env settings = [] := by
    rw [unsupported, ← ledger, List.filter_eq_nil_iff]
    intro name hname
    obtain ⟨value, hvalue, rfl⟩ := List.mem_map.1 hname
    obtain ⟨m, rfl⟩ := hknown value hvalue
    have hm : m ∈ migrations := by cases m <;> decide
    rw [decide_eq_true_eq, not_not, List.contains_iff_mem]
    exact List.mem_map_of_mem hm
  rw [prepare, hdropped]
  exact if_neg (not_not.2 hunsupported)

end Idle

/-! ## Running twice -/

/-- What a run leaves alone: the parts no migration names, and of those named the entries
that are not. -/
def Untouched (original migrated : Json) : Prop :=
  (∀ part, part ∉ namedEntries.map Prod.fst → part ∉ freeParts →
    migrated.get part = original.get part)
  ∧ ∀ part key, part ∉ freeParts → (part, key) ∉ namedEntries →
    migrated.pointer [part, key] = original.pointer [part, key]

section Runs

variable {env : Env} {net : Network} {original migrated : Json} {disk disk' : Disk}

theorem pointer_obj (fields : Doc) (part key : String) :
    (Json.obj fields).pointer [part, key] = entryAt fields part key := by
  rw [pointer, List.foldlM_cons, entryAt]
  refine congrArg _ (funext fun value => ?_)
  exact (List.foldlM_cons ..).trans (bind_pure _)

/-- **What a run that succeeds has done.** -/
theorem run_eq_ok (h : run env net original disk = (.ok migrated, disk')) :
    ∃ settings final backed, prepare env original = .ok settings
      ∧ applyAll env net settings = .ok final ∧ migrated = .obj final
      ∧ disk.write .backup (env.stringifyPretty original) = .ok backed
      ∧ writeOutcome env original (.obj final) (disk.text .backup) backed = (.ok (), disk') := by
  unfold run at h
  split at h
  next => cases h
  next settings hsettings =>
    unfold writeWithBackup at h
    dsimp only at h
    split at h
    next => cases h
    next backed hbacked =>
      split at h
      next => cases h
      next final hfinal =>
        split at h
        next => cases h
        next written hwritten =>
          cases h
          exact ⟨settings, final, backed, hsettings, hfinal, rfl, hbacked, hwritten⟩

theorem write_eq_ok {file : File} {text : String} (h : disk.write file text = .ok disk') :
    disk.writable file
      ∧ disk' = { disk with text := Function.update disk.text file (some text) } := by
  unfold Disk.write at h
  split at h
  next hwritable => exact ⟨hwritable, (Except.ok.inj h).symm⟩
  next => cases h

theorem write_text {file : File} {text : String} (h : disk.write file text = .ok disk') :
    disk'.text file = some text ∧ (∀ other, other ≠ file → disk'.text other = disk.text other)
      ∧ disk'.writable = disk.writable := by
  rw [(write_eq_ok h).2]
  exact ⟨Function.update_self file _ _, fun other hother => Function.update_of_ne hother _ _, rfl⟩

/-- What is written at the end leaves a backup that is not empty. -/
theorem writeOutcome_spec {after : Json} {oldBackup : Option String} {text : String}
    (h : writeOutcome env original after oldBackup disk = (.ok (), disk'))
    (htext : disk.text .backup = some text) (hne : text ≠ "") :
    disk'.writable = disk.writable ∧ ∃ left, disk'.text .backup = some left ∧ left ≠ "" := by
  unfold writeOutcome at h
  split at h
  next =>
    split at h
    next => cases h
    next written hwritten =>
      have hbackup : written.writable = disk.writable ∧ written.text .backup = some text :=
        ⟨(write_text hwritten).2.2, ((write_text hwritten).2.1 .backup (by decide)).trans htext⟩
      split at h
      next => cases h
      next =>
        split at h
        next => cases h
        next =>
          cases h
          exact ⟨hbackup.1, text, hbackup.2, hne⟩
  next =>
    split at h
    next =>
      cases h
      exact ⟨rfl, text, htext, hne⟩
    next old hold =>
      split at h
      next => cases h
      next written hwritten =>
        cases h
        exact ⟨(write_text hwritten).2.2, old, (write_text hwritten).1,
          of_decide_eq_true (Option.filter_eq_some_iff.1 hold).2⟩

/-- **A run over settings with nothing to do** puts the backup back. -/
theorem run_of_idle {settings : Doc} {left : String}
    (hprepare : prepare env (.obj settings) = .ok settings)
    (hidle : ∀ m ∈ migrations, Idle env m settings) (hwritable : disk.writable .backup)
    (hleft : disk.text .backup = some left) (hne : left ≠ "") :
    run env net (.obj settings) disk = (.ok (.obj settings), disk) := by
  have happly : applyAll env net settings = .ok settings :=
    foldlM_idle fun m hm => apply_of_idle (hidle m hm)
  have hwrite : ∀ (disk : Disk) (text : String), disk.writable .backup → disk.write .backup text
      = .ok { disk with text := Function.update disk.text .backup (some text) } :=
    fun _ _ h => if_pos h
  have hback : ({ disk with text := Function.update (Function.update disk.text .backup
      (some (env.stringifyPretty (.obj settings)))) .backup (some left) } : Disk) = disk := by
    rw [Function.update_idem, ← hleft, Function.update_eq_self]
  have hfilter : (some left).filter (· ≠ "") = some left := by simp [hne]
  rw [run, hprepare]
  dsimp only
  rw [writeWithBackup, hwrite _ _ hwritable]
  dsimp only
  rw [happly]
  dsimp only
  rw [writeOutcome, if_neg (not_not.2 rfl), hleft, hfilter]
  dsimp only
  rw [hwrite _ _ (by exact hwritable)]
  dsimp only
  rw [hback]

theorem prepare_of_run (h : run env net original disk = (.ok migrated, disk')) :
    ∃ fields final, original = .obj fields ∧ migrated = .obj final
      ∧ Changes freeParts namedEntries fields final := by
  obtain ⟨settings, final, backed, hprepare, hfinal, rfl, -, -⟩ := run_eq_ok h
  obtain ⟨fields, rfl, hcleaned, -⟩ := prepare_spec hprepare
  exact ⟨fields, final, rfl, rfl, (hcleaned.mono (List.Subset.refl _) (List.nil_subset _)).trans
    ((changes_applyAll hfinal).mono (by decide) (List.Subset.refl _))⟩

/-- **Settings are migrated once**: with the users' tags renamed, a second run over what the
first left changes neither the document nor the files, whatever the network answers then.
What no migration names is as it was, and where a migration fails so is `settings.json`. -/
theorem migrated_once (env : Env) (net : Network) (hkeys : ListsKeys net)
    (htexts : ∀ doc, env.stringifyPretty doc ≠ "") (original : Json) (disk : Disk) :
    (∀ migrated disk', run env net original disk = (.ok migrated, disk') →
      Untouched original migrated
      ∧ ((∀ settings, original = .obj settings → TagsRenamed env net settings) →
        ∀ net', run env net' migrated disk' = (.ok migrated, disk')))
    ∧ ∀ settings e, prepare env original = .ok settings → applyAll env net settings = .error e →
      (run env net original disk).2.text .settings = disk.text .settings := by
  refine ⟨fun migrated disk' h => ⟨?_, fun htags net' => ?_⟩, fun settings e hprepare he => ?_⟩
  · obtain ⟨fields, final, rfl, rfl, hchanges⟩ := prepare_of_run h
    constructor
    · exact fun part hnamed hfree => hchanges.part part hfree hnamed
    · intro part key hfree hnamed
      rw [pointer_obj, pointer_obj, hchanges.entry part key hfree hnamed]
  · obtain ⟨settings, final, backed, hprepare, hfinal, rfl, hbacked, hwritten⟩ := run_eq_ok h
    obtain ⟨fields, rfl, hcleaned, hknown, hrouting, hfilters, htagged⟩ := prepare_spec hprepare
    have hchanges := changes_applyAll hfinal
    have htext : backed.text .backup = some (env.stringifyPretty (.obj fields)) :=
      (write_text hbacked).1
    obtain ⟨hwritable, left, hleft, hne⟩ := writeOutcome_spec hwritten htext (htexts _)
    have hbackup : disk'.writable .backup := by
      rw [hwritable, (write_text hbacked).2.2]
      exact (write_eq_ok hbacked).1
    have hservers : TagsRenamed env net settings := by
      refine (htags fields rfl).imp htagged
        fun hservers users radarr sonarr husers hradarr hsonarr => ?_
      rw [serversAt, hcleaned.part _ (by decide) List.not_mem_nil, ← serversAt] at hradarr hsonarr
      exact hservers users radarr sonarr husers hradarr hsonarr
    refine run_of_idle ?_ (idle_of_applyAll hkeys hservers hfinal) hbackup hleft hne
    refine prepare_of_known (known_applyAll hfinal hknown) ?_ ?_
    · rw [hchanges.part _ (by decide) (by decide), hrouting]
    · rw [hchanges.part _ (by decide) (by decide), hfilters]
  · rw [run, hprepare]
    dsimp only
    rw [writeWithBackup]
    split
    next => rfl
    next backed hbacked =>
      rw [he]
      exact (write_text hbacked).2.1 .settings (by decide)

end Runs

/-! ## Two runs -/

mutual

/-- How documents with plain texts and whole numbers are written: what each line starts with,
what an indentation adds to that and what stands after a key. -/
def written (step colon line : String) : Json → String
  | .null => "null"
  | .bool b => if b then "true" else "false"
  | .num n => n.num.repr
  | .str s => "\"" ++ s ++ "\""
  | .arr [] => "[]"
  | .arr items => "[" ++ writtenItems step colon (line ++ step) items ++ line ++ "]"
  | .obj [] => "\x7b\x7d"
  | .obj fields => "\x7b" ++ writtenFields step colon (line ++ step) fields ++ line ++ "\x7d"

def writtenItems (step colon line : String) : List Json → String
  | [] => ""
  | item :: items => line ++ written step colon line item ++ (if items.isEmpty then "" else ",")
      ++ writtenItems step colon line items

def writtenFields (step colon line : String) : List (String × Json) → String
  | [] => ""
  | (key, value) :: fields => line ++ "\"" ++ key ++ "\"" ++ colon
      ++ written step colon line value ++ (if fields.isEmpty then "" else ",")
      ++ writtenFields step colon line fields

end

theorem written_ne_empty (step colon line : String) (doc : Json) :
    written step colon line doc ≠ "" := by
  have happend : ∀ (c : Char) (text : String), String.singleton c ++ text ≠ "" := by
    intro c text h
    have hchars := congrArg String.toList h
    simp at hchars
  unfold written
  split
  · decide
  · split <;> decide
  next n =>
    cases n.num with
    | ofNat n => exact Nat.repr_ne_empty
    | negSucc n => exact happend '-' _
  · rw [String.append_assoc]
    exact happend '"' _
  · decide
  · rw [String.append_assoc, String.append_assoc]
    exact happend '[' _
  · decide
  · rw [String.append_assoc, String.append_assoc]
    exact happend '\x7b' _

/-- Settings that have never been migrated. -/
def bareSettings : Json :=
  .obj [("main", .obj [("region", .str "GB")]), ("jobs", .null)]

/-- What they come to. -/
def bareMigrated : Json :=
  .obj [("main", .obj [("discoverRegion", .str "GB"), ("streamingRegion", .str "GB")]),
    ("jobs", .obj [("release-calendar-sync", schedule "0 0 */6 * * *"),
      ("radarr-scan", schedule "0 */15 * * * *"), ("sonarr-scan", schedule "0 */15 * * * *")]),
    ("network", .obj networkOptions),
    ("migrations", .arr (([.arrTags, .blocklist, .calendarSync, .calendarInterval,
      .requestTimeout, .arrScan, .simklClient] : List Migration).map fun m => .str m.name)),
    ("simkl", .obj [("enabled", .bool false)])]

/-- An install without users, that writes its settings and reads them back. -/
def freshInstall : Env where
  jellyfinType := none
  version := "1"
  admin := .ok none
  users := .ok []
  numberString n := n.num.repr
  toLowercase := String.toLower
  nfd text := text
  stringify := written "" ":" ""
  stringifyPretty := written " " ": " "\n"
  parse text :=
    if text = written " " ": " "\n" bareMigrated then .ok bareMigrated else .error "parsing"

/-- Nothing answers. -/
def noNetwork : Network where
  postKey _ _ := .error "offline"
  getKeys _ _ := .error "offline"
  getTags _ := .error "offline"
  putTag _ _ _ := .error "offline"

/-- Both files can be written, and one is there. -/
def freshDisk : Disk where
  text
    | .settings => some (written " " ": " "\n" bareSettings)
    | .backup => none
  path
    | .settings => "config/settings.json"
    | .backup => "config/settings.old.json"
  writable _ := true

theorem migrated_once_freshInstall :
    (run freshInstall noNetwork bareSettings freshDisk).1.isOk
      ∧ ∀ migrated disk',
        run freshInstall noNetwork bareSettings freshDisk = (.ok migrated, disk') →
          ∀ net', run freshInstall net' migrated disk' = (.ok migrated, disk') := by
  refine ⟨by decide +kernel, fun migrated disk' h => ?_⟩
  refine ((migrated_once freshInstall noNetwork nofun (written_ne_empty _ _ _) bareSettings
    freshDisk).1 migrated disk' h).2 fun settings hsettings => .inr ?_
  obtain rfl := Json.obj.inj hsettings
  intro users radarr sonarr _ hradarr hsonarr
  obtain rfl := Except.ok.inj hradarr
  obtain rfl := Except.ok.inj hsonarr
  exact nofun

end SettingsMigrations

end Foreseerr

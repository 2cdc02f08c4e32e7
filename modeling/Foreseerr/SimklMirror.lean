import Foreseerr.SimklSync

/-!
# The rows mirror the lists

Between two runs a user's Simkl lists change, and Simkl's stamps say of what kind the
changes were. `Since` is what is known of the lists now by the stamps of a snapshot, kept
through every change (`Follows`). A run of what moved since then asks for enough to make
the rows what the lists now are, and so does a full run (`Mirror.Delta`); every run that
fails leaves the rows and the snapshot for the next to go on from. By induction the rows
are right after every pull of a history.
-/

namespace Foreseerr.SimklSync

open SimklLibrary

/-! ## What moved -/

section Moved

variable {numberString} {past simkl : Simkl} {old now : Json} {kind : SimklKind} {key at' : String}

theorem mem_activityKeys {activities : Json}
    (h : stampOf numberString activities kind key = some at') :
    key ∈ activityKeys activities kind := by
  unfold stampOf at h
  unfold activityKeys
  cases hbucket : activities.get (mediaActivities kind) with
  | none => simp [hbucket, scalar] at h
  | some bucket =>
    rw [hbucket, Option.bind_some] at h
    cases bucket with
    | obj fields =>
      cases hfield : Json.getField key fields with
      | none => simp [Json.get, hfield, scalar] at h
      | some value =>
        simp only [Json.getField, Option.map_eq_some_iff] at hfield
        obtain ⟨field, hfound, rfl⟩ := hfield
        have hkey : field.1 = key := by simpa using List.find?_some hfound
        have := List.mem_map_of_mem (f := Prod.fst) (List.mem_of_find?_eq_some hfound)
        simpa [Json.asObject, hkey] using this
    | _ => simp [Json.get, scalar] at h

/-- **A stamp after all of the old ones has moved.** -/
theorem moved_of_stamp (hvalid : past.Valid numberString) (hold : Reads numberString past old)
    (hnow : Reads numberString simkl now) (hall : key ≠ "all") (hplayback : key ≠ "playback")
    (hstamp : simkl.stamp kind key = some at') (hlater : past.all < at') :
    key ∈ types.flatMap fun kind =>
      (activityKeys now kind ++ activityKeys old kind).filter fun key =>
        stampOf numberString now kind key ≠ stampOf numberString old kind key := by
  have hnowStamp := (hnow.2 kind key hall hplayback).trans hstamp
  have hdiffer : stampOf numberString now kind key ≠ stampOf numberString old kind key := by
    rw [hnowStamp, hold.2 kind key hall hplayback]
    intro heq
    exact absurd (hvalid.stamps kind key at' heq.symm) (not_le.2 hlater)
  refine List.mem_flatMap.2 ⟨kind, by cases kind <;> decide, List.mem_filter.2 ⟨?_, ?_⟩⟩
  · exact List.mem_append_left _ (mem_activityKeys hnowStamp)
  · simpa using hdiffer

/-- A status that something took since has moved. -/
theorem statuses_moved (hvalid : past.Valid numberString) (hold : Reads numberString past old)
    (hnow : Reads numberString simkl now) (hkey : key ∈ statuses)
    (hstamp : simkl.stamp kind key = some at') (hlater : past.all < at') :
    (movedActivities numberString now old).statuses = true := by
  have hnames : key ≠ "removed_from_list" ∧ key ≠ "rated_at" ∧ key ≠ "all" ∧ key ≠ "playback" := by
    simp only [statuses, List.mem_cons, List.not_mem_nil, or_false] at hkey
    rcases hkey with rfl | rfl | rfl | rfl | rfl <;> decide
  refine List.any_eq_true.2 ⟨key, ?_, by simpa using hnames⟩
  exact moved_of_stamp hvalid hold hnow hnames.2.2.1 hnames.2.2.2 hstamp hlater

/-- A removal since has moved. -/
theorem removals_moved (hvalid : past.Valid numberString) (hold : Reads numberString past old)
    (hnow : Reads numberString simkl now)
    (hstamp : simkl.stamp kind "removed_from_list" = some at') (hlater : past.all < at') :
    (movedActivities numberString now old).removals = true :=
  List.any_eq_true.2 ⟨"removed_from_list",
    moved_of_stamp hvalid hold hnow (by decide) (by decide) hstamp hlater, by decide⟩

end Moved

/-! ## Reading answers -/

section Reading

variable {numberString} {simkl : Simkl} {tables : Tables} {force : Bool} {data : Json}
  {entries : List (SimklKind × Fields)} {kind : SimklKind}

theorem syncBucket_bucketName : syncBucket (bucketName kind) = some kind := by
  cases kind <;> decide

theorem indexKey_bucketName : indexKey (bucketName kind) = none := by
  cases kind <;> decide +kernel

/-- The bucket fields of an answer. -/
def bucketFields (buckets : List (SimklKind × List Fields)) : Fields :=
  buckets.map fun bucket => (bucketName bucket.1, .arr (bucket.2.map .obj))

theorem objectEntries_bucketFields (buckets : List (SimklKind × List Fields)) :
    objectEntries (bucketFields buckets) = bucketFields buckets := by
  unfold objectEntries
  rw [List.filter_eq_nil_iff.2, List.filter_eq_self.2]
  · simp
  · intro field hfield
    obtain ⟨bucket, -, rfl⟩ := List.mem_map.1 hfield
    simp [indexKey_bucketName]
  · intro field hfield
    obtain ⟨bucket, -, rfl⟩ := List.mem_map.1 hfield
    simp [indexKey_bucketName]

theorem arrayEntries_objects (entries : List Fields) :
    arrayEntries (.arr (entries.map .obj)) = entries.map unwrapItem := by
  have : (entries.map Json.obj).filterMap Json.asObject = entries := by
    rw [List.filterMap_map]
    exact List.filterMap_some
  rw [arrayEntries, this]

theorem bucketEntries_bucketFields (buckets : List (SimklKind × List Fields))
    (fallback : Option SimklKind) :
    bucketEntries (bucketFields buckets) fallback
      = (buckets.flatMap fun bucket => bucket.2.map (Prod.mk bucket.1)).map
          fun entry => (unwrapItem entry.2, entry.1) := by
  unfold bucketEntries
  rw [objectEntries_bucketFields, bucketFields, List.flatMap_map, List.map_flatMap]
  refine congrArg (buckets.flatMap ·) (funext fun bucket => ?_)
  rw [syncBucket_bucketName, show (some bucket.1 <|> fallback) = some bucket.1 from rfl]
  simp [arrayEntries_objects]

/-- **An answer's entries** are those it lists, whatever type it was asked for. -/
theorem syncEntries_eq (h : Lists data entries) (fallback : Option SimklKind) :
    syncEntries data fallback = entries.map fun entry => (unwrapItem entry.2, entry.1) := by
  rcases h with ⟨rfl | rfl, rfl⟩ | ⟨buckets, rfl, rfl⟩
  · rfl
  · cases fallback <;> rfl
  · have hpayload : payload buckets = .obj (bucketFields buckets) := rfl
    have hentries := bucketEntries_bucketFields buckets
    simp only [hpayload, syncEntries, hentries]
    split
    · rfl
    · next hnone =>
      have hnone := not_not.1 hnone
      rw [hnone]
      cases fallback with
      | none => rfl
      | some kind =>
        have harrays : (objectEntries (bucketFields buckets)).flatMap
            (fun field => arrayEntries field.2) = [] := by
          rw [objectEntries_bucketFields, bucketFields, List.flatMap_map]
          simp only [arrayEntries_objects]
          simpa using hnone
        simp [catalogEntries, hentries, hnone, harrays]

/-- What an answer's entries give, by key and status. -/
theorem collect_entries (h : Lists data entries) (fallback : Option SimklKind)
    (episodes : Bool) : (collect numberString data fallback episodes).map Item.entry
      = entries.filterMap fun entry =>
          entryOf numberString (unwrapItem entry.2) entry.1 := by
  simp only [collect, syncEntries_eq h, List.filterMap_map, List.map_filterMap]
  refine congrArg (entries.filterMap ·) (funext fun entry => ?_)
  exact normalizeItem_entry _ _ _

theorem idsOnlyKeys_eq (h : Lists data entries) :
    idsOnlyKeys numberString data = entries.filterMap fun entry =>
      ((recordIdOf numberString (unwrapItem entry.2)).map (Prod.mk entry.1)).map keyText := by
  simp only [idsOnlyKeys, syncEntries_eq h, List.filterMap_map]
  refine congrArg (entries.filterMap ·) (funext fun entry => ?_)
  simp [Function.comp_def]

theorem mem_listed {item : (SimklKind × String) × String} :
    item ∈ simkl.listed numberString
      ↔ ∃ listing ∈ simkl.library, Listing.item? numberString listing = some item :=
  List.mem_filterMap

/-- **The answers of one type** give what is listed in its bucket. -/
theorem batches_entries {env : Env} {batches : List Json}
    (hanswers : Happens numberString ⟨simkl, tables⟩ (.sync env force))
    (h : batchesOf env kind = .ok batches) (fallback : Option SimklKind) (episodes : Bool)
    (item : (SimklKind × String) × String) :
    item ∈ (batches.flatMap fun data => collect numberString data fallback episodes).map
        Item.entry
      ↔ ∃ listing ∈ simkl.library, listing.bucket = kind ∧
          Listing.item? numberString listing = some item := by
  rw [List.map_flatMap]
  unfold batchesOf at h
  split at h
  · next data hdata =>
    obtain ⟨entries, hlists, hentries⟩ := hanswers (.all kind none) data hdata
    rw [← Except.ok.inj h, List.flatMap_singleton, collect_entries hlists, List.mem_filterMap]
    constructor
    · rintro ⟨entry, hentry, hitem⟩
      obtain ⟨listing, hlisting, hbucket, rfl⟩ := (hentries entry).1 hentry
      exact ⟨listing, hlisting, hbucket, hitem⟩
    · rintro ⟨listing, hlisting, hbucket, hitem⟩
      exact ⟨_, (hentries _).2 ⟨listing, hlisting, hbucket, rfl⟩, hitem⟩
  · next failure hfailure =>
    split at h
    · constructor
      · intro hmem
        obtain ⟨data, hdata, hmem⟩ := List.mem_flatMap.1 hmem
        obtain ⟨status, -, hreply⟩ := (mapM_eq_ok h).1 data hdata
        obtain ⟨entries, hlists, hentries⟩ := hanswers (.all kind (some status)) data hreply
        rw [collect_entries hlists] at hmem
        obtain ⟨entry, hentry, hitem⟩ := List.mem_filterMap.1 hmem
        obtain ⟨listing, hlisting, hbucket, -, rfl⟩ := (hentries entry).1 hentry
        exact ⟨listing, hlisting, hbucket, hitem⟩
      · rintro ⟨listing, hlisting, hbucket, hitem⟩
        obtain ⟨-, -, hstatus⟩ := key_of_entryOf hitem
        obtain ⟨data, hdata, hreply⟩ :=
          (mapM_eq_ok h).2 item.2 (mem_statuses_of_statusOf hstatus)
        obtain ⟨entries, hlists, hentries⟩ := hanswers (.all kind (some item.2)) data hreply
        refine List.mem_flatMap.2 ⟨data, hdata, ?_⟩
        rw [collect_entries hlists]
        refine List.mem_filterMap.2 ⟨_, (hentries _).2 ⟨listing, hlisting, hbucket, ?_, rfl⟩, hitem⟩
        exact (Option.filter_eq_some_iff.1 hstatus).1
    · cases h

end Reading

/-! ## Since a snapshot -/

section Since

variable {numberString} {past simkl : Simkl} {at' : String}

/-- An entry with a title and a known status has its id's key. -/
theorem key?_of_item? {listing : Listing} (htyped : listing.Typed)
    {item : (SimklKind × String) × String}
    (h : Listing.item? numberString listing = some item) :
    Listing.key? numberString listing = some item.1 := by
  obtain ⟨hid, hkind, -⟩ := key_of_entryOf h
  have hbucket : item.1.1 = listing.bucket := by
    rw [hkind]
    cases hdeclared : declaredKind (unwrapItem listing.entry) with
    | none => rfl
    | some kind => exact htyped kind hdeclared
  rw [Listing.key?, hid, Option.map_some, ← hbucket]

theorem bucket_of_key? {listing : Listing} {key : SimklKind × String}
    (h : Listing.key? numberString listing = some key) : listing.bucket = key.1 := by
  obtain ⟨id, -, rfl⟩ := Option.map_eq_some_iff.1 h
  rfl

/-- The keys of the library are those of entries. -/
theorem listed_keys_sublist {library : List Listing} (htyped : ∀ l ∈ library, l.Typed) :
    ((library.filterMap (Listing.item? numberString)).map Prod.fst).Sublist
      (library.filterMap (Listing.key? numberString)) := by
  induction library with
  | nil => exact List.Sublist.refl _
  | cons listing library ih =>
    have ih := ih fun l hl => htyped l (List.mem_cons_of_mem _ hl)
    cases hitem : Listing.item? numberString listing with
    | none =>
      rw [List.filterMap_cons_none hitem]
      exact ih.trans ((List.sublist_cons_self _ _).filterMap _)
    | some item =>
      have hkey := key?_of_item? (htyped listing List.mem_cons_self) hitem
      rw [List.filterMap_cons_some hitem, List.filterMap_cons_some hkey, List.map_cons]
      exact ih.cons_cons _

/-- The library has each key once. -/
theorem Simkl.Valid.listed_keys (h : simkl.Valid numberString) :
    ((simkl.listed numberString).map Prod.fst).Nodup :=
  h.keys.sublist (listed_keys_sublist h.typed)

/-- The view of the library is its items. -/
theorem Simkl.Valid.view_eq_some (h : simkl.Valid numberString) {key : SimklKind × String}
    {status : String} : simkl.view numberString key = some status
      ↔ (key, status) ∈ simkl.listed numberString := by
  rw [Simkl.view, Mirror.view_eq_some h.listed_keys]
  simp

/-- **What happened since a snapshot**: where nothing did, the library is the same; an item
that was not listed so then took its status after it, and one that is gone was removed after
it, as the stamps tell. -/
structure Since (numberString : ℚ → String) (past now : Simkl) : Prop where
  le : past.all ≤ now.all
  same : past.all = now.all → now.view numberString = past.view numberString
  changed : ∀ listing ∈ now.library, ∀ item, Listing.item? numberString listing = some item →
    item ∈ past.listed numberString ∨ past.all < listing.changedAt ∧
      ∃ at', now.stamp listing.bucket item.2 = some at' ∧ past.all < at'
  removed : ∀ listing ∈ past.library, ∀ key, Listing.key? numberString listing = some key →
    (∃ other ∈ now.library, Listing.key? numberString other = some key) ∨
      ∃ at', now.stamp key.1 "removed_from_list" = some at' ∧ past.all < at'

theorem Since.refl (simkl : Simkl) : Since numberString simkl simkl where
  le := le_rfl
  same := fun _ => rfl
  changed := fun _ hlisting _ hitem => .inl (mem_listed.2 ⟨_, hlisting, hitem⟩)
  removed := fun listing hlisting _ hkey => .inl ⟨listing, hlisting, hkey⟩

/-- A stamp after the snapshot stays after it. -/
theorem stamped_later (hle : past.all ≤ simkl.all) (hat : simkl.all < at')
    {kind kind' : SimklKind} {key key' : String}
    (h : ∃ at', simkl.stamp kind key = some at' ∧ past.all < at') :
    ∃ later, (simkl.stamped at' kind' key').stamp kind key = some later ∧ past.all < later := by
  unfold Simkl.stamped
  by_cases hsame : kind = kind' ∧ key = key'
  · exact ⟨at', by simp [hsame], lt_of_le_of_lt hle hat⟩
  · simpa [hsame] using h

theorem mem_without {key : Option (SimklKind × String)} {listing : Listing} :
    listing ∈ simkl.without numberString key
      ↔ listing ∈ simkl.library ∧ (key = none ∨ Listing.key? numberString listing ≠ key) := by
  simp [Simkl.without, List.mem_filter]

theorem Simkl.Valid.stamped (h : simkl.Valid numberString) (hat : simkl.all < at')
    {kind : SimklKind} {key : String} :
    ∀ kind' key' at'', (simkl.stamped at' kind key).stamp kind' key' = some at'' → at'' ≤ at' := by
  intro kind' key' at'' hstamp
  simp only [Simkl.stamped] at hstamp
  split at hstamp
  · exact (Option.some.inj hstamp).symm.le
  · exact (h.stamps _ _ _ hstamp).trans hat.le

/-- Simkl's lists and what happened to them since any snapshot, kept through a change. -/
def Follows (numberString : ℚ → String) (simkl simkl' : Simkl) : Prop :=
  simkl'.Valid numberString ∧
    ∀ past : Simkl, Since numberString past simkl →
      Since numberString past simkl'

theorem follows_other (hvalid : simkl.Valid numberString) (hat : simkl.all < at') :
    Follows numberString simkl { simkl with all := at' } := by
  refine ⟨⟨hvalid.keys, fun l hl => (hvalid.changed l hl).trans (hat.le),
    fun kind key stamp h => (hvalid.stamps kind key stamp h).trans (hat.le),
    hvalid.typed⟩, fun past hpast => ⟨hpast.le.trans (hat.le), fun heq => ?_,
    hpast.changed, hpast.removed⟩⟩
  exact absurd heq (lt_of_le_of_lt hpast.le hat).ne

theorem follows_remove (hvalid : simkl.Valid numberString) (hat : simkl.all < at')
    (key : SimklKind × String) :
    Follows numberString simkl (simkl.remove numberString at' key) := by
  refine ⟨⟨?_, ?_, hvalid.stamped hat, ?_⟩, fun past hpast => ⟨hpast.le.trans hat.le,
    fun heq => absurd heq (lt_of_le_of_lt hpast.le hat).ne, ?_, ?_⟩⟩
  · exact hvalid.keys.sublist (List.filter_sublist.filterMap _)
  · intro listing hlisting
    exact (hvalid.changed listing (mem_without.1 hlisting).1).trans hat.le
  · intro listing hlisting
    exact hvalid.typed listing (mem_without.1 hlisting).1
  · intro listing hlisting item hitem
    refine (hpast.changed listing (mem_without.1 hlisting).1 item hitem).imp_right ?_
    exact And.imp_right (stamped_later hpast.le hat)
  · intro listing hlisting key' hkey
    rcases hpast.removed listing hlisting key' hkey with ⟨other, hother, hotherKey⟩ | hstamp
    · by_cases hgone : key' = key
      · refine .inr ⟨at', ?_, lt_of_le_of_lt hpast.le hat⟩
        simp [Simkl.remove, Simkl.stamped, hgone]
      · refine .inl ⟨other, mem_without.2 ⟨hother, .inr ?_⟩, hotherKey⟩
        rw [hotherKey]
        exact fun h => hgone (Option.some.inj h)
    · exact .inr (stamped_later hpast.le hat hstamp)

theorem follows_rate {bucket : SimklKind} {entry : Fields} (hvalid : simkl.Valid numberString)
    (hat : simkl.all < at') (hfine : (⟨bucket, entry, at'⟩ : Listing).Typed)
    (hsame : ∀ listing ∈ simkl.library,
      Listing.key? numberString listing = Listing.key? numberString ⟨bucket, entry, at'⟩ →
        Listing.item? numberString ⟨bucket, entry, at'⟩ = Listing.item? numberString listing) :
    Follows numberString simkl (simkl.rate numberString at' bucket entry) := by
  have hkey : ∀ listing : Listing, Listing.key? numberString
      (if Listing.key? numberString listing
        = Listing.key? numberString ⟨bucket, entry, at'⟩ then
        ⟨bucket, entry, listing.changedAt⟩ else listing)
      = Listing.key? numberString listing := by
    intro listing
    split
    · next heq => exact heq.symm
    · rfl
  refine ⟨⟨?_, ?_, hvalid.stamped hat, ?_⟩, fun past hpast => ⟨hpast.le.trans hat.le,
    fun heq => absurd heq (lt_of_le_of_lt hpast.le hat).ne, ?_, ?_⟩⟩
  · show ((simkl.library.map _).filterMap _).Nodup
    rw [List.filterMap_map]
    exact (List.filterMap_congr fun listing _ => hkey listing) ▸ hvalid.keys
  · intro listing hlisting
    obtain ⟨other, hother, rfl⟩ := List.mem_map.1 hlisting
    have := (hvalid.changed other hother).trans hat.le
    split <;> exact this
  · intro listing hlisting
    obtain ⟨other, hother, rfl⟩ := List.mem_map.1 hlisting
    split
    · exact hfine
    · exact hvalid.typed other hother
  · intro listing hlisting item hitem
    obtain ⟨other, hother, rfl⟩ := List.mem_map.1 hlisting
    split at hitem
    · next heq =>
      rw [if_pos heq]
      have hother' : Listing.item? numberString other = some item :=
        (hsame other hother heq).symm.trans hitem
      have hbucket : other.bucket = bucket := by
        have hkey := key?_of_item? (hvalid.typed other hother) hother'
        exact (bucket_of_key? hkey).trans (bucket_of_key? (heq ▸ hkey)).symm
      refine (hpast.changed other hother item hother').imp_right ?_
      rw [hbucket]
      exact And.imp_right (stamped_later hpast.le hat)
    · next hne =>
      rw [if_neg hne]
      refine (hpast.changed other hother item hitem).imp_right ?_
      exact And.imp_right (stamped_later hpast.le hat)
  · intro listing hlisting key' hkey'
    rcases hpast.removed listing hlisting key' hkey' with ⟨other, hother, hotherKey⟩ | hstamp
    · exact .inl ⟨_, List.mem_map_of_mem hother, (hkey other).trans hotherKey⟩
    · exact .inr (stamped_later hpast.le hat hstamp)

theorem follows_list {bucket : SimklKind} {entry : Fields} (hvalid : simkl.Valid numberString)
    (hat : simkl.all < at') (hfine : (⟨bucket, entry, at'⟩ : Listing).Typed) :
    Follows numberString simkl (simkl.list numberString at' bucket entry) := by
  set listing : Listing := ⟨bucket, entry, at'⟩ with hlistingDef
  have hmem : ∀ other, other ∈ (simkl.list numberString at' bucket entry).library
      ↔ other ∈ simkl.without numberString (Listing.key? numberString listing)
        ∨ other = listing := by
    intro other
    simp [Simkl.list, hlistingDef]
  refine ⟨⟨?_, ?_, hvalid.stamped hat, ?_⟩, fun past hpast => ⟨hpast.le.trans hat.le,
    fun heq => absurd heq (lt_of_le_of_lt hpast.le hat).ne, ?_, ?_⟩⟩
  · show ((simkl.without numberString (Listing.key? numberString listing)
        ++ [listing]).filterMap _).Nodup
    rw [List.filterMap_append, List.nodup_append]
    refine ⟨hvalid.keys.sublist (List.filter_sublist.filterMap _), ?_, ?_⟩
    · cases hkey : Listing.key? numberString listing <;> simp [hkey]
    · intro key hkey key' hkey' heq
      obtain ⟨other, hother, hotherKey⟩ := List.mem_filterMap.1 hkey
      have hlistingKey : Listing.key? numberString listing = some key' := by
        simpa using List.mem_filterMap.1 hkey'
      rcases (mem_without.1 hother).2 with hnone | hne
      · rw [hlistingKey] at hnone
        cases hnone
      · exact hne (by rw [hotherKey, hlistingKey, heq])
  · intro other hother
    rcases (hmem other).1 hother with hother | rfl
    · exact (hvalid.changed other (mem_without.1 hother).1).trans hat.le
    · exact le_rfl
  · intro other hother
    rcases (hmem other).1 hother with hother | rfl
    · exact hvalid.typed other (mem_without.1 hother).1
    · exact hfine
  · intro other hother item hitem
    rcases (hmem other).1 hother with hother | rfl
    · refine (hpast.changed other (mem_without.1 hother).1 item hitem).imp_right ?_
      exact And.imp_right (stamped_later hpast.le hat)
    · refine .inr ⟨lt_of_le_of_lt hpast.le hat, at', ?_, lt_of_le_of_lt hpast.le hat⟩
      obtain ⟨-, -, hstatus⟩ := key_of_entryOf hitem
      have hstatus : stringValue (Json.getField "status" (unwrapItem entry)) = some item.2 :=
        (Option.filter_eq_some_iff.1 hstatus).1
      simp [Simkl.list, Simkl.stamped, hlistingDef, hstatus]
  · intro gone hgone key hkey
    rcases hpast.removed gone hgone key hkey with ⟨other, hother, hotherKey⟩ | hstamp
    · by_cases heq : Listing.key? numberString listing = some key
      · exact .inl ⟨listing, (hmem listing).2 (.inr rfl), heq⟩
      · refine .inl ⟨other, (hmem other).2 (.inl (mem_without.2 ⟨hother, .inr ?_⟩)), hotherKey⟩
        rw [hotherKey]
        exact Ne.symm heq
    · exact .inr (stamped_later hpast.le hat hstamp)

end Since

/-! ## A pull leaves the library -/

section Pull

variable {numberString} {past simkl : Simkl} {old now : Json} {env : Env} {user : Int}
  {force : Bool} {tables tables' : Tables} {fetched : Fetched} {result : Result}
  {previous : Option StateRow}

theorem keyText_inj {key key' : SimklKind × String} (h : keyText key = keyText key') :
    key = key' := by
  obtain ⟨kind, id⟩ := key
  obtain ⟨kind', id'⟩ := key'
  have h : kind.text.toList ++ ':' :: id.toList = kind'.text.toList ++ ':' :: id'.toList := by
    simpa [keyText] using congrArg String.toList h
  cases kind <;> cases kind' <;>
    simp [SimklKind.text] at h ⊢ <;> exact String.toList_inj.1 h

/-- **A full pull** is a delta from whatever there was. -/
theorem fetchAll_delta (hvalid : simkl.Valid numberString)
    (hanswers : Happens numberString ⟨simkl, tables⟩ (.sync env force))
    (h : fetchAll numberString env = .ok fetched)
    (rows : SimklKind × String → Option String) :
    Mirror.Delta rows (simkl.view numberString) (fetched.1.map Item.entry)
      (keptBy fetched.2) := by
  obtain ⟨items, hitems, h⟩ := except_bind_eq_ok h
  obtain ⟨hof, hall⟩ := mapM_eq_ok hitems
  obtain rfl := Except.ok.inj h
  have hmem : ∀ item, item ∈ items.flatten.map Item.entry ↔ item ∈ simkl.listed numberString := by
    intro item
    rw [List.map_flatten, mem_listed]
    constructor
    · intro hitem
      obtain ⟨entries, hentries, hitem⟩ := List.mem_flatten.1 hitem
      obtain ⟨batch, hbatch, rfl⟩ := List.mem_map.1 hentries
      obtain ⟨kind, -, hreply⟩ := hof batch hbatch
      obtain ⟨batches, hbatches, hreply⟩ := except_bind_eq_ok hreply
      obtain rfl := Except.ok.inj hreply
      obtain ⟨listing, hlisting, -, heq⟩ := (batches_entries hanswers hbatches _ _ item).1 hitem
      exact ⟨listing, hlisting, heq⟩
    · rintro ⟨listing, hlisting, heq⟩
      obtain ⟨batch, hbatch, hreply⟩ := hall listing.bucket (by cases listing.bucket <;> decide)
      obtain ⟨batches, hbatches, hreply⟩ := except_bind_eq_ok hreply
      obtain rfl := Except.ok.inj hreply
      exact List.mem_flatten.2 ⟨_, List.mem_map_of_mem hbatch,
        (batches_entries hanswers hbatches _ _ item).2 ⟨listing, hlisting, rfl, heq⟩⟩
  have hkeys : ∀ key, keptBy (some (items.flatten.map fun item => keyText item.key)) key = true
      ↔ ∃ status, (key, status) ∈ simkl.listed numberString := by
    intro key
    simp only [keptBy, Option.all_some, decide_eq_true_eq]
    constructor
    · intro hkey
      obtain ⟨item, hitem, heq⟩ := List.mem_map.1 hkey
      exact ⟨item.status, (hmem _).1 (keyText_inj heq ▸ List.mem_map_of_mem hitem)⟩
    · rintro ⟨status, hlisted⟩
      obtain ⟨item, hitem, heq⟩ := List.mem_map.1 ((hmem _).2 hlisted)
      exact List.mem_map.2 ⟨item, hitem, congrArg (fun entry => keyText entry.1) heq⟩
  constructor
  · intro entry hentry
    exact hvalid.view_eq_some.2 ((hmem entry).1 hentry)
  · intro key status hnew
    exact .inr (List.mem_map.2 ⟨_, (hmem _).2 (hvalid.view_eq_some.1 hnew), rfl⟩)
  · intro key status hnew
    exact (hkeys key).2 ⟨status, hvalid.view_eq_some.1 hnew⟩
  · intro key status _ hnew
    by_contra hkept
    obtain ⟨status', hlisted⟩ := (hkeys key).1 (by simpa using hkept)
    rw [hvalid.view_eq_some.2 hlisted] at hnew
    cases hnew

/-- What a pull of what moved is put together from. -/
theorem fetchMoved_eq_ok {moved : Moved} {dateFrom : String}
    (h : fetchMoved numberString env moved dateFrom = .ok (some fetched)) :
    ∃ changed rated,
      ((moved.statuses = true ∧ ∃ data, env.reply (.changed dateFrom) = .ok data ∧
          changed = collect numberString data none true) ∨
        (moved.statuses = false ∧ changed = [])) ∧
      ((moved.ratings = true ∧ ∃ data, env.reply (.ratings dateFrom) = .ok data ∧
          rated = collect numberString data none false) ∨
        (moved.ratings = false ∧ rated = [])) ∧
      ((moved.removals = true ∧ ∃ data, env.reply .idsOnly = .ok data ∧
          fetched.2 = some (idsOnlyKeys numberString data)) ∨
        (moved.removals = false ∧ fetched.2 = none)) ∧
      fetched.1 = changed ++ rated := by
  obtain ⟨changed, hchanged, h⟩ := except_bind_eq_ok h
  cases changed with
  | none => cases h
  | some changed =>
    obtain ⟨rated, hrated, h⟩ := except_bind_eq_ok h
    obtain ⟨upstream, hupstream, h⟩ := except_bind_eq_ok h
    obtain rfl : (changed ++ rated, upstream) = fetched := Option.some.inj (Except.ok.inj h)
    refine ⟨changed, rated, ?_, ?_, ?_, rfl⟩
    · unfold fetchChanged at hchanged
      split at hchanged
      · next hstatuses =>
        split at hchanged
        · next data hdata =>
          exact .inl ⟨hstatuses, data, hdata, (Option.some.inj (Except.ok.inj hchanged)).symm⟩
        · split at hchanged
          · cases hchanged
          · cases hchanged
      · next hstatuses =>
        exact .inr ⟨by simpa using hstatuses, (Option.some.inj (Except.ok.inj hchanged)).symm⟩
    · unfold fetchRated at hrated
      split at hrated
      · next hratings =>
        obtain ⟨data, hdata, heq⟩ := except_map_eq_ok hrated
        exact .inl ⟨hratings, data, hdata, heq.symm⟩
      · next hratings =>
        exact .inr ⟨by simpa using hratings, (Except.ok.inj hrated).symm⟩
    · unfold fetchUpstream at hupstream
      split at hupstream
      · next hremovals =>
        obtain ⟨data, hdata, heq⟩ := except_map_eq_ok hupstream
        exact .inl ⟨hremovals, data, hdata, heq.symm⟩
      · next hremovals =>
        exact .inr ⟨by simpa using hremovals, (Except.ok.inj hupstream).symm⟩

/-- **A pull of what moved** is a delta from what was there at the snapshot. -/
theorem fetchMoved_delta (hvalid : simkl.Valid numberString) (hpast : past.Valid numberString)
    (hsince : Since numberString past simkl) (hold : Reads numberString past old)
    (hnow : Reads numberString simkl now)
    (hanswers : Happens numberString ⟨simkl, tables⟩ (.sync env force))
    (hknown : ∀ key status, past.view numberString key = some status →
      ∀ listing ∈ simkl.library, Listing.key? numberString listing = some key →
        Listing.item? numberString listing ≠ none)
    (h : fetchMoved numberString env (movedActivities numberString now old) past.all
      = .ok (some fetched)) :
    Mirror.Delta (past.view numberString) (simkl.view numberString) (fetched.1.map Item.entry)
      (keptBy fetched.2) := by
  obtain ⟨changed, rated, hchanged, hrated, hupstream, hitems⟩ := fetchMoved_eq_ok h
  have hentries : ∀ item ∈ fetched.1.map Item.entry, item ∈ simkl.listed numberString := by
    intro item hitem
    rw [hitems, List.map_append, List.mem_append] at hitem
    rcases hitem with hitem | hitem
    · rcases hchanged with ⟨-, data, hdata, rfl⟩ | ⟨-, rfl⟩
      · obtain ⟨entries, hlists, hof, -⟩ := hanswers (.changed past.all) data hdata
        rw [collect_entries hlists] at hitem
        obtain ⟨entry, hentry, heq⟩ := List.mem_filterMap.1 hitem
        obtain ⟨listing, hlisting, rfl⟩ := hof entry hentry
        exact mem_listed.2 ⟨listing, hlisting, heq⟩
      · cases hitem
    · rcases hrated with ⟨-, data, hdata, rfl⟩ | ⟨-, rfl⟩
      · obtain ⟨entries, hlists, hof⟩ := hanswers (.ratings past.all) data hdata
        rw [collect_entries hlists] at hitem
        obtain ⟨entry, hentry, heq⟩ := List.mem_filterMap.1 hitem
        exact hof entry hentry item heq
      · cases hitem
  -- What the ids-only answer names is what has an entry, readable or not.
  have hkept : ∀ key, (∃ listing ∈ simkl.library, Listing.key? numberString listing = some key) →
      keptBy fetched.2 key = true := by
    intro key hkey
    rcases hupstream with ⟨-, data, hdata, hids⟩ | ⟨-, hids⟩
    · obtain ⟨entries, hlists, hof⟩ := hanswers .idsOnly data hdata
      obtain ⟨entry, hentry, heq⟩ := (hof key).2 hkey
      rw [hids, idsOnlyKeys_eq hlists]
      simp only [keptBy, Option.all_some, decide_eq_true_eq]
      exact List.mem_filterMap.2 ⟨entry, hentry, by rw [heq]; rfl⟩
    · simp [keptBy, hids]
  have hgone : ∀ key status, past.view numberString key = some status →
      simkl.view numberString key = none →
        ¬ ∃ listing ∈ simkl.library, Listing.key? numberString listing = some key := by
    rintro key status hpastView hview ⟨listing, hlisting, hkey⟩
    cases hitem : Listing.item? numberString listing with
    | none => exact hknown key status hpastView listing hlisting hkey hitem
    | some item =>
      have := key?_of_item? (hvalid.typed listing hlisting) hitem
      rw [hkey] at this
      obtain rfl := Option.some.inj this
      rw [hvalid.view_eq_some.2 (mem_listed.2 ⟨listing, hlisting, hitem⟩)] at hview
      cases hview
  constructor
  · intro entry hentry
    exact hvalid.view_eq_some.2 (hentries entry hentry)
  · intro key status hnew
    obtain ⟨listing, hlisting, hitem⟩ := mem_listed.1 (hvalid.view_eq_some.1 hnew)
    rcases hsince.changed listing hlisting _ hitem with hlisted | ⟨hlater, at', hstamp, hstamped⟩
    · exact .inl (hpast.view_eq_some.2 hlisted)
    · have hstatuses := statuses_moved hpast hold hnow
        (mem_statuses_of_statusOf (key_of_entryOf hitem).2.2) hstamp hstamped
      rcases hchanged with ⟨-, data, hdata, rfl⟩ | ⟨hnot, -⟩
      · obtain ⟨entries, hlists, -, hof⟩ := hanswers (.changed past.all) data hdata
        refine .inr (List.mem_map.2 ⟨(key, status), ?_, rfl⟩)
        rw [hitems, List.map_append, collect_entries hlists]
        exact List.mem_append_left _
          (List.mem_filterMap.2 ⟨_, hof listing hlisting hlater, hitem⟩)
      · exact absurd (hstatuses.symm.trans hnot) (by simp)
  · intro key status hnew
    obtain ⟨listing, hlisting, hitem⟩ := mem_listed.1 (hvalid.view_eq_some.1 hnew)
    exact hkept key ⟨listing, hlisting, key?_of_item? (hvalid.typed listing hlisting) hitem⟩
  · intro key status hpastView hview
    have hgone := hgone key status hpastView hview
    obtain ⟨listing, hlisting, hitem⟩ := mem_listed.1 (hpast.view_eq_some.1 hpastView)
    have hkey := key?_of_item? (hpast.typed listing hlisting) hitem
    rcases hsince.removed listing hlisting key hkey with hthere | ⟨at', hstamp, hlater⟩
    · exact absurd hthere hgone
    · have hremovals := removals_moved hpast hold hnow hstamp hlater
      rcases hupstream with ⟨-, data, hdata, hids⟩ | ⟨hnot, -⟩
      · obtain ⟨entries, hlists, hof⟩ := hanswers .idsOnly data hdata
        rw [hids, idsOnlyKeys_eq hlists]
        simp only [keptBy, Option.all_some, decide_eq_false_iff_not]
        intro hmem
        obtain ⟨entry, hentry, heq⟩ := List.mem_filterMap.1 hmem
        obtain ⟨key', hkey', htext⟩ := Option.map_eq_some_iff.1 heq
        exact hgone ((hof key).1 ⟨entry, hentry, keyText_inj htext ▸ hkey'⟩)
      · exact absurd (hremovals.symm.trans hnot) (by simp)

theorem deltaFrom_eq_some {row : StateRow} {dateFrom : String} :
    deltaFrom numberString previous = some (row, old, dateFrom) ↔
      previous = some row ∧ row.activities = some old ∧
        watermark numberString old = some dateFrom ∧ row.initialSyncComplete = true := by
  simp only [deltaFrom, Option.bind_eq_bind, Option.bind_eq_some_iff]
  constructor
  · rintro ⟨row', hprevious, old', hold, dateFrom', hfrom, h⟩
    split at h
    · next hcomplete =>
      simp only [Option.some.injEq, Prod.mk.injEq] at h
      obtain ⟨rfl, rfl, rfl⟩ := h
      exact ⟨hprevious, hold, hfrom, hcomplete⟩
    · cases h
  · rintro ⟨hprevious, hold, hfrom, hcomplete⟩
    exact ⟨row, hprevious, old, hold, dateFrom, hfrom, by rw [if_pos hcomplete]⟩

/-- What of the user's state row a later run goes on from. -/
def Tables.savedOf (user : Int) (tables : Tables) : Option (Option Json × Bool) :=
  (tables.previousOf user).map fun row => (row.activities, row.initialSyncComplete)

/-- **The invariant**: Simkl's lists are in order, the user's rows have keys of their own,
and they mirror the lists as they were at the snapshot the next run goes on from. -/
structure Inv (numberString : ℚ → String) (user : Int) (state : State) : Prop where
  simkl : state.simkl.Valid numberString
  rows : state.tables.Keyed user
  saved : ∀ old dateFrom, state.tables.savedOf user = some (some old, true) →
    watermark numberString old = some dateFrom →
      ∃ past : Simkl, past.Valid numberString ∧ Reads numberString past old ∧
        Since numberString past state.simkl ∧
          state.tables.view user = past.view numberString

/-- Other items or another snapshot than the user's are no matter. -/
theorem Inv.congr (h : Inv numberString user ⟨simkl, tables⟩)
    (hitems : tables'.items = tables.items) (hsaved : tables'.savedOf user = tables.savedOf user) :
    Inv numberString user ⟨simkl, tables'⟩ where
  simkl := h.simkl
  rows := ⟨hitems ▸ h.rows.ids, by
    rw [Tables.rowsOf, hitems]
    exact h.rows.keys⟩
  saved := by
    intro old dateFrom hold hfrom
    obtain ⟨past, hvalid, hreads, hsince, hview⟩ := h.saved old dateFrom (hsaved ▸ hold) hfrom
    refine ⟨past, hvalid, hreads, hsince, ?_⟩
    rw [Tables.view, Tables.rowsOf, hitems]
    exact hview

theorem savedOf_map {f : StateRow → StateRow} (huser : ∀ row, (f row).userId = row.userId)
    (hsaved : ∀ row, ((f row).activities, (f row).initialSyncComplete)
      = (row.activities, row.initialSyncComplete)) :
    Tables.savedOf user { tables with states := tables.states.map f } = tables.savedOf user := by
  have hpred : ((fun row : StateRow => decide (row.userId = some user)) ∘ f)
      = fun row => decide (row.userId = some user) := by
    funext row
    simp [huser]
  simp only [Tables.savedOf, Tables.previousOf, List.find?_map, hpred, Option.map_map]
  refine Option.map_congr fun row _ => ?_
  exact hsaved row

theorem saveItems_states {items : List Item} :
    (tables.saveItems user items).states = tables.states := by
  induction items generalizing tables with
  | nil => rfl
  | cons item items ih =>
    have hstep : (tables.saveItem user item (tables.existing user item)).states
        = tables.states := by
      cases tables.existing user item <;> rfl
    exact ih.trans hstep

theorem dropRows_states {upstream : Option (List String)} :
    (tables.dropRows user upstream).states = tables.states := by
  cases upstream with
  | none => rfl
  | some upstream =>
    have hstep : ∀ (rows : List ItemRow) (tables : Tables),
        (rows.foldl (fun tables row =>
          if keyText row.key ∈ upstream then tables else tables.deleteItem row.id)
          tables).states = tables.states := by
      intro rows
      induction rows with
      | nil => exact fun _ => rfl
      | cons row rows ih =>
        intro tables
        rw [List.foldl_cons, ih]
        split <;> rfl
    exact hstep _ _

/-- **After a pull** the snapshot is the one it read. -/
theorem write_savedOf {items : List Item} {upstream : Option (List String)} {snapshot : Json}
    (hwrite : write env user items upstream (tables.previousOf user) snapshot tables
      = .ok tables') : tables'.savedOf user = some (some snapshot, true) := by
  have hstates : ((tables.saveItems user items).dropRows user upstream).states
      = tables.states := dropRows_states.trans saveItems_states
  rw [write_tables hwrite]
  cases hprevious : tables.previousOf user with
  | none =>
    have hprevious : tables.states.find? (fun row => decide (row.userId = some user)) = none :=
      hprevious
    simp [Tables.savedOf, Tables.previousOf, Tables.saveState, hstates, List.find?_append,
      hprevious]
  | some previous =>
    have hprevious : tables.states.find? (fun row => decide (row.userId = some user))
        = some previous := hprevious
    simp only [Tables.savedOf, Tables.previousOf, Tables.saveState, hstates, List.find?_map]
    have hpred : ((fun row : StateRow => decide (row.userId = some user)) ∘ fun row =>
        if row.id = previous.id then
          { row with
            activities := some snapshot
            initialSyncComplete := true
            lastCheckedAt := some env.now
            lastSuccessfulSyncAt := some env.now }
        else row) = fun row => decide (row.userId = some user) := by
      funext row
      simp only [Function.comp_apply]
      split <;> rfl
    rw [hpred, hprevious]
    simp

/-- **A pull leaves the library**, and the snapshot it was so at. -/
theorem pull_mirrors (hinv : Inv numberString user ⟨simkl, tables⟩)
    (hanswers : Happens numberString ⟨simkl, tables⟩ (.sync env force))
    (hfine : Fine numberString user ⟨simkl, tables⟩ (.sync env force))
    (h : pull numberString env user (tables.previousOf user) tables = .ok (tables', result)) :
    Inv numberString user ⟨simkl, tables'⟩ ∧ tables'.view user = simkl.view numberString
      ∧ result.performed = true ∧ result.stale = false := by
  obtain ⟨activities, hactivities, h⟩ := except_bind_eq_ok h
  have hreads : Reads numberString simkl activities := hanswers .activities _ hactivities
  have hwatermark : ∀ {simkl : Simkl} {activities : Json} {dateFrom : String},
      Reads numberString simkl activities → watermark numberString activities = some dateFrom →
        simkl.all = dateFrom := by
    intro simkl activities dateFrom hreads heq
    rw [hreads.1] at heq
    split at heq
    · cases heq
    · exact Option.some.inj heq
  -- What an incremental run goes on from.
  have hsaved : ∀ row old dateFrom,
      deltaFrom numberString (tables.previousOf user) = some (row, old, dateFrom) →
        ∃ past : Simkl, past.Valid numberString ∧ Reads numberString past old ∧
          Since numberString past simkl ∧ tables.view user = past.view numberString ∧
            past.all = dateFrom := by
    intro row old dateFrom hdelta
    obtain ⟨hprevious, hold, hfrom, hcomplete⟩ := deltaFrom_eq_some.1 hdelta
    have : tables.savedOf user = some (some old, true) := by
      rw [Tables.savedOf, hprevious, Option.map_some, hold, hcomplete]
    obtain ⟨past, hvalid, hpast, hsince, hview⟩ := hinv.saved old dateFrom this hfrom
    exact ⟨past, hvalid, hpast, hsince, hview, hwatermark hpast hfrom⟩
  dsimp only at h
  split at h
  · next row old dateFrom hdelta =>
    obtain ⟨hdelta, hsame⟩ := Option.filter_eq_some_iff.1 hdelta
    obtain ⟨past, -, -, hsince, hview, hall⟩ := hsaved row old dateFrom hdelta
    split at h
    · cases h
    · obtain ⟨rfl, rfl⟩ := Prod.mk.inj (Except.ok.inj h)
      refine ⟨hinv.congr rfl ?_, ?_, rfl, rfl⟩
      · refine savedOf_map (fun row => ?_) fun row => ?_
        · split <;> rfl
        · split <;> rfl
      · have hnow : simkl.all = dateFrom := hwatermark hreads (by simpa using hsame)
        rw [hsince.same (hall.trans hnow.symm), ← hview]
        rfl
  · obtain ⟨⟨items, upstream⟩, hfetch, h⟩ := except_bind_eq_ok h
    obtain ⟨written, hwrite, h⟩ := except_bind_eq_ok h
    obtain ⟨rfl, rfl⟩ := Prod.mk.inj (Except.ok.inj h)
    have hdelta : Mirror.Delta (tables.view user) (simkl.view numberString)
        (items.map Item.entry) (keptBy upstream) := by
      unfold fetch at hfetch
      split at hfetch
      · exact fetchAll_delta hinv.simkl hanswers hfetch _
      · next row old dateFrom hdelta =>
        obtain ⟨past, hvalid, hpast, hsince, hview, rfl⟩ := hsaved row old dateFrom hdelta
        obtain ⟨fetched, hmoved, hfetch⟩ := except_bind_eq_ok hfetch
        cases fetched with
        | none => exact fetchAll_delta hinv.simkl hanswers hfetch _
        | some fetched =>
          obtain rfl : fetched = (items, upstream) := Except.ok.inj hfetch
          rw [hview]
          refine fetchMoved_delta hinv.simkl hvalid hsince hpast hreads hanswers ?_ hmoved
          intro key status hpastView listing hlisting hkey
          rw [← hview, Tables.view, Mirror.view_eq_some hinv.rows.keys] at hpastView
          obtain ⟨row', hrow, heq⟩ := List.mem_map.1 hpastView
          obtain ⟨rfl, -⟩ := Prod.mk.inj heq
          exact hfine.2 (by rw [hdelta]; simp) row' hrow listing hlisting hkey
    obtain ⟨hkeyed, hview⟩ := write_view hinv.rows hwrite
    have hview := hview.trans (Mirror.delta_eq hdelta)
    refine ⟨⟨hinv.simkl, hkeyed, ?_⟩, hview, rfl, rfl⟩
    intro old dateFrom hold _
    rw [write_savedOf hwrite] at hold
    obtain rfl : activities = old := by
      simpa using hold
    exact ⟨simkl, hinv.simkl, hreads, Since.refl simkl, hview⟩

end Pull

/-! ## Failing runs -/

section Failing

variable {numberString} {simkl : Simkl} {env : Env} {user : Int} {force : Bool}
  {tables tables' : Tables} {failure : Failure} {state : State}

/-- A failure is one a request met, or has nothing to do with the token. -/
def Meets (env : Env) (failure : Failure) : Prop :=
  env.client = some failure ∨ (∃ request, env.reply request = .error failure) ∨
    ∃ message, failure = .other message

theorem execute_error {tx : Tx} {statement : Tables → Tables}
    (h : tx.execute statement = .error failure) : ∃ message, failure = .other message := by
  unfold Tx.execute at h
  split at h
  · cases h
  · exact ⟨_, (Except.error.inj h).symm⟩
  · cases h

theorem write_error {items : List Item} {upstream : Option (List String)}
    {previous : Option StateRow} {snapshot : Json}
    (h : write env user items upstream previous snapshot tables = .error failure) :
    ∃ message, failure = .other message := by
  rcases except_bind_eq_error h with h | ⟨begun, -, h⟩
  · exact execute_error h
  rcases except_bind_eq_error h with h | ⟨saved, -, h⟩
  · obtain ⟨tx, item, -, h⟩ := foldlM_eq_error h
    rcases except_bind_eq_error h with h | ⟨read, -, h⟩
    · exact execute_error h
    · exact execute_error h
  rcases except_bind_eq_error h with h | ⟨dropped, -, h⟩
  · cases upstream with
    | none => cases h
    | some upstream =>
      rcases except_bind_eq_error h with h | ⟨read, -, h⟩
      · exact execute_error h
      · obtain ⟨tx, row, -, h⟩ := foldlM_eq_error h
        unfold Tx.dropRow at h
        split at h
        · cases h
        · exact execute_error h
  rcases except_bind_eq_error h with h | ⟨stated, -, h⟩
  · exact execute_error h
  rcases except_bind_eq_error h with h | ⟨committed, -, h⟩
  · exact execute_error h
  · cases h

theorem fetchAll_error (h : fetchAll numberString env = .error failure) :
    ∃ request, env.reply request = .error failure := by
  rcases except_bind_eq_error h with h | ⟨items, -, h⟩
  · obtain ⟨kind, -, h⟩ := mapM_eq_error h
    rcases except_bind_eq_error h with h | ⟨batches, -, h⟩
    · unfold batchesOf at h
      split at h
      · cases h
      · next found hfound =>
        split at h
        · obtain ⟨status, -, h⟩ := mapM_eq_error h
          exact ⟨_, h⟩
        · exact ⟨_, hfound.trans (congrArg Except.error (Except.error.inj h))⟩
    · cases h
  · cases h

theorem fetchMoved_error {moved : Moved} {dateFrom : String}
    (h : fetchMoved numberString env moved dateFrom = .error failure) :
    ∃ request, env.reply request = .error failure := by
  rcases except_bind_eq_error h with h | ⟨changed, -, h⟩
  · unfold fetchChanged at h
    split at h
    · split at h
      · cases h
      · next found hfound =>
        split at h
        · cases h
        · exact ⟨_, hfound.trans (congrArg Except.error (Except.error.inj h))⟩
    · cases h
  · cases changed with
    | none => cases h
    | some changed =>
      rcases except_bind_eq_error h with h | ⟨rated, -, h⟩
      · unfold fetchRated at h
        split at h
        · exact ⟨_, except_map_eq_error h⟩
        · cases h
      · rcases except_bind_eq_error h with h | ⟨upstream, -, h⟩
        · unfold fetchUpstream at h
          split at h
          · exact ⟨_, except_map_eq_error h⟩
          · cases h
        · cases h

/-- **A pull fails** with what a request met, or on the database. -/
theorem attempt_error {previous : Option StateRow}
    (h : attempt numberString env user previous tables = .error failure) : Meets env failure := by
  unfold attempt at h
  split at h
  · next found hfound => exact .inl (hfound.trans (congrArg some (Except.error.inj h)))
  · rcases except_bind_eq_error h with h | ⟨activities, -, h⟩
    · exact .inr (.inl ⟨_, h⟩)
    · dsimp only at h
      split at h
      · split at h
        · exact .inr (.inr ⟨_, (Except.error.inj h).symm⟩)
        · cases h
      · rcases except_bind_eq_error h with h | ⟨fetched, -, h⟩
        · refine .inr (.inl ?_)
          unfold fetch at h
          split at h
          · exact fetchAll_error h
          · rcases except_bind_eq_error h with h | ⟨found, -, h⟩
            · exact fetchMoved_error h
            · cases found with
              | none => exact fetchAll_error h
              | some found => cases h
        · rcases except_bind_eq_error h with h | ⟨written, -, h⟩
          · exact .inr (.inr (write_error h))
          · cases h

theorem saveFailure_keeps (user : Int) {previous : StateRow} {message : String}
    (h : saveFailure env previous message tables = .ok tables') :
    tables'.items = tables.items ∧ tables'.savedOf user = tables.savedOf user := by
  unfold saveFailure at h
  split at h
  · cases h
  · split at h
    · obtain rfl := Except.ok.inj h
      refine ⟨rfl, savedOf_map (fun row => ?_) fun row => ?_⟩
      · split <;> rfl
      · split <;> rfl
    · split at h
      · cases h
      · obtain rfl := Except.ok.inj h
        refine ⟨rfl, ?_⟩
        simp [Tables.savedOf, Tables.previousOf, List.find?_append]

/-- Simkl rejected the user's token, and the link was dropped with all of the user's rows. -/
def Rejected (env : Env) : Prop :=
  ∃ message, env.client = some (.unauthorized .both message) ∨
    ∃ request, env.reply request = .error (.unauthorized .both message)

/-- A run that did not go through. -/
def Failed (outcome : Except String Result) : Prop :=
  ∀ result, outcome = .ok result → result.stale = true

/-- A pull that did. -/
def Pulled (outcome : Except String Result) : Prop :=
  ∃ result, outcome = .ok result ∧ result.performed = true ∧ result.stale = false

/-- **A failing run** leaves the items and the snapshot, or has dropped both with a rejected
token. -/
theorem settle_error (user : Int) (previous : Option StateRow) (tables : Tables) (hmeets : Meets env failure)
    (hclean : CleansUp env) :
    let outcome := settle env user previous tables (.error failure)
    Failed outcome.2 ∧
      (outcome.1.items = tables.items ∧ outcome.1.savedOf user = tables.savedOf user ∨
        Rejected env ∧ outcome.1.items = tables.items.filter (fun row => row.userId ≠ user) ∧
          outcome.1.savedOf user = none) := by
  have hcleaned : ((failure.cleanUp user tables).items = tables.items ∧
        (failure.cleanUp user tables).savedOf user = tables.savedOf user) ∨
      (Rejected env ∧ (failure.cleanUp user tables).items
          = tables.items.filter (fun row => row.userId ≠ user) ∧
        (failure.cleanUp user tables).savedOf user = none) := by
    match failure with
    | .rejected _ _ => exact .inl ⟨rfl, rfl⟩
    | .other _ => exact .inl ⟨rfl, rfl⟩
    | .unauthorized .nothing _ => exact .inl ⟨rfl, rfl⟩
    | .unauthorized .items message =>
      obtain ⟨hclient, hreply⟩ := hclean message
      rcases hmeets with h | ⟨request, h⟩ | ⟨_, h⟩
      · exact absurd h hclient
      · exact absurd h (hreply request)
      · cases h
    | .unauthorized .both message =>
      refine .inr ⟨⟨message, ?_⟩, rfl, ?_⟩
      · rcases hmeets with h | h | ⟨_, h⟩
        · exact .inl h
        · exact .inr h
        · cases h
      · simp [Failure.cleanUp, Tables.savedOf, Tables.previousOf, List.find?_filter]
  cases previous with
  | none =>
    refine ⟨fun result h => ?_, hcleaned⟩
    exact (Except.ok.inj h) ▸ rfl
  | some previous =>
    simp only [settle]
    cases hsave : saveFailure env previous failure.message (failure.cleanUp user tables) with
    | error message => exact ⟨fun result h => (by cases h), hcleaned⟩
    | ok saved =>
      obtain ⟨hitems, hsaved⟩ := saveFailure_keeps user hsave
      refine ⟨fun result h => (Except.ok.inj h) ▸ rfl, ?_⟩
      rw [hitems, hsaved]
      exact hcleaned

/-- **A sync** keeps the invariant; one that pulls leaves the library, and one that fails the
rows and the snapshot, unless the token was rejected. -/
theorem sync_keeps (hinv : Inv numberString user state)
    (hanswers : Happens numberString state (.sync env force))
    (hfine : Fine numberString user state (.sync env force)) :
    let outcome := sync numberString env user force state.tables
    Inv numberString user ⟨state.simkl, outcome.1⟩ ∧
      (Pulled outcome.2 → outcome.1.view user = state.simkl.view numberString) ∧
      (Failed outcome.2 →
        outcome.1.items = state.tables.items ∧
            outcome.1.savedOf user = state.tables.savedOf user ∨
          Rejected env ∧
            outcome.1.items = state.tables.items.filter (fun row => row.userId ≠ user) ∧
            outcome.1.savedOf user = none) := by
  unfold sync
  split
  · refine ⟨hinv, ?_, fun _ => .inl ⟨rfl, rfl⟩⟩
    rintro ⟨result, h, -⟩
    cases h
  dsimp only
  split
  · refine ⟨hinv, ?_, fun hfailed => absurd (hfailed _ rfl) (by simp)⟩
    rintro ⟨result, h, hperformed, -⟩
    obtain rfl := Except.ok.inj h
    cases hperformed
  · cases hattempt : attempt numberString env user (state.tables.previousOf user) state.tables with
    | ok pulled =>
      obtain ⟨tables', result⟩ := pulled
      unfold attempt at hattempt
      split at hattempt
      · cases hattempt
      · obtain ⟨hinv', hview, -, hstale⟩ := pull_mirrors hinv hanswers hfine hattempt
        refine ⟨hinv', fun _ => hview, fun hfailed => ?_⟩
        rw [show result.stale = true from hfailed result rfl] at hstale
        cases hstale
    | error failure =>
      obtain ⟨hfailed, hkept⟩ := settle_error user
        (state.tables.previousOf user) state.tables (attempt_error hattempt) hfine.1
      refine ⟨?_, ?_, fun _ => hkept⟩
      · rcases hkept with ⟨hitems, hsaved⟩ | ⟨-, hitems, hsaved⟩
        · exact hinv.congr hitems hsaved
        · refine ⟨hinv.simkl, ⟨?_, ?_⟩, fun old dateFrom hold => ?_⟩
          · rw [hitems]
            exact hinv.rows.ids.sublist (List.filter_sublist.map _)
          · rw [Tables.rowsOf, hitems, List.filter_filter]
            simp
          · rw [hsaved] at hold
            cases hold
      · rintro ⟨result, h, -, hstale⟩
        rw [hfailed result h] at hstale
        cases hstale

end Failing

/-! ## Every history -/

section History

variable {numberString} {user : Int} {start state : State} {events : List Event} {env : Env}
  {force : Bool}

/-- **One event** keeps the invariant. -/
theorem step_keeps {state' : State} {event : Event}
    (hinv : Inv numberString user state) (hfine : Fine numberString user state event)
    (hstep : Step numberString user state event state') : Inv numberString user state' := by
  obtain ⟨hhappens, rfl⟩ := hstep
  have changed : ∀ simkl, Follows numberString state.simkl simkl →
      Inv numberString user ⟨simkl, state.tables⟩ := by
    rintro simkl ⟨hvalid, hsince⟩
    refine ⟨hvalid, hinv.rows, fun old dateFrom hold hfrom => ?_⟩
    obtain ⟨past, hpast, hreads, hsince', hview⟩ := hinv.saved old dateFrom hold hfrom
    exact ⟨past, hpast, hreads, hsince past hsince', hview⟩
  cases event with
  | list at' bucket entry => exact changed _ (follows_list hinv.simkl hhappens hfine)
  | rate at' bucket entry =>
    exact changed _ (follows_rate hinv.simkl hhappens.1 hfine hhappens.2)
  | remove at' key => exact changed _ (follows_remove hinv.simkl hhappens key)
  | other at' => exact changed _ (follows_other hinv.simkl hhappens)
  | sync env force => exact (sync_keeps hinv hhappens hfine).1

theorem inv_of_start (h : Start numberString user start) : Inv numberString user start where
  simkl := h.simkl
  rows := h.rows
  saved := by
    intro old dateFrom hold
    rw [Tables.savedOf, h.first] at hold
    cases hold

/-- **After each successful pull of a history** the user's rows are, by type, id and status,
the items Simkl lists with an id, a title and a known status. A run that fails leaves the
user's rows and saved activities as they were, unless Simkl rejected the user's token and
both were dropped with the link. -/
theorem pulls_mirror (hstart : Start numberString user start)
    (hrun : Run (Guarded (Step numberString user) (Fine numberString user)) start events state)
    (hanswers : Happens numberString state (.sync env force))
    (hfine : Fine numberString user state (.sync env force)) :
    let outcome := sync numberString env user force state.tables
    (Pulled outcome.2 → ((outcome.1.rowsOf user).map fun row => (row.key, row.status)).Perm
        (state.simkl.listed numberString)) ∧
      (Failed outcome.2 →
        outcome.1.rowsOf user = state.tables.rowsOf user ∧
            outcome.1.savedOf user = state.tables.savedOf user ∨
          Rejected env ∧ outcome.1.rowsOf user = [] ∧ outcome.1.savedOf user = none) := by
  have hinv : Inv numberString user state :=
    hrun.invariant (fun _ _ _ hinv hstep => step_keeps hinv hstep.1 hstep.2)
      (inv_of_start hstart)
  obtain ⟨hinv', hpulled, hfailed⟩ := sync_keeps hinv hanswers hfine
  refine ⟨fun hok => ?_, fun hnot => ?_⟩
  · have hperm := Mirror.perm_of_view_eq hinv'.rows.keys hinv.simkl.listed_keys (hpulled hok)
    simpa using hperm
  · rcases hfailed hnot with ⟨hitems, hsaved⟩ | ⟨hrejected, hitems, hsaved⟩
    · exact .inl ⟨by rw [Tables.rowsOf, hitems]; rfl, hsaved⟩
    · refine .inr ⟨hrejected, ?_, hsaved⟩
      rw [Tables.rowsOf, hitems, List.filter_filter]
      simp

end History

/-! ## A history played

A service that answers a request for some entries with all that it may list. -/

section Sample

variable {numberString} {simkl : Simkl} {activities : Json}

/-- The entries a service answers with, in their buckets. -/
def Simkl.answer (simkl : Simkl) (p : Listing → Bool) : Json :=
  payload (types.map fun kind =>
    (kind, (simkl.library.filter fun l => l.bucket = kind && p l).map Listing.entry))

/-- The service. -/
def service (simkl : Simkl) (activities : Json) : Request → Except Failure Json
  | .activities => .ok activities
  | .changed _ => .ok (simkl.answer fun _ => true)
  | .ratings _ => .ok (simkl.answer fun _ => true)
  | .idsOnly => .ok (simkl.answer fun _ => true)
  | .all kind none => .ok (simkl.answer fun l => l.bucket = kind)
  | .all kind (some status) => .ok (simkl.answer fun l =>
      l.bucket = kind && stringValue (Json.getField "status" (unwrapItem l.entry)) = some status)

theorem answer_lists (simkl : Simkl) (p : Listing → Bool) : ∃ entries, Lists (simkl.answer p) entries ∧
    ∀ entry, entry ∈ entries ↔
      ∃ listing ∈ simkl.library, p listing = true ∧ (listing.bucket, listing.entry) = entry := by
  refine ⟨_, .inr ⟨_, rfl, rfl⟩, fun entry => ?_⟩
  constructor
  · intro hentry
    obtain ⟨bucket, hbucket, hentry⟩ := List.mem_flatMap.1 hentry
    obtain ⟨kind, -, rfl⟩ := List.mem_map.1 hbucket
    obtain ⟨fields, hfields, rfl⟩ := List.mem_map.1 hentry
    obtain ⟨listing, hlisting, rfl⟩ := List.mem_map.1 hfields
    obtain ⟨hmem, hpicked⟩ := List.mem_filter.1 hlisting
    obtain ⟨rfl, hp⟩ : listing.bucket = kind ∧ p listing = true := by simpa using hpicked
    exact ⟨listing, hmem, hp, rfl⟩
  · rintro ⟨listing, hlisting, hp, rfl⟩
    refine List.mem_flatMap.2 ⟨_, List.mem_map.2 ⟨listing.bucket, ?_, rfl⟩,
      List.mem_map.2 ⟨_, List.mem_map.2 ⟨listing, ?_, rfl⟩, rfl⟩⟩
    · cases listing.bucket <;> decide
    · exact List.mem_filter.2 ⟨hlisting, by simpa using hp⟩

/-- The service answers what Simkl does. -/
theorem service_answers (hreads : Reads numberString simkl activities) {request : Request}
    {data : Json} (h : service simkl activities request = .ok data) :
    Answers numberString simkl request data := by
  match request with
  | .activities => exact Except.ok.inj h ▸ hreads
  | .changed _ =>
    obtain ⟨entries, hlists, hmem⟩ := answer_lists simkl fun _ => true
    refine Except.ok.inj h ▸ ⟨entries, hlists, fun entry hentry => ?_, fun l hl _ => ?_⟩
    · obtain ⟨l, hl, -, heq⟩ := (hmem entry).1 hentry
      exact ⟨l, hl, heq⟩
    · exact (hmem _).2 ⟨l, hl, rfl, rfl⟩
  | .ratings _ =>
    obtain ⟨entries, hlists, hmem⟩ := answer_lists simkl fun _ => true
    refine Except.ok.inj h ▸ ⟨entries, hlists, fun entry hentry item hitem => ?_⟩
    obtain ⟨l, hl, -, rfl⟩ := (hmem entry).1 hentry
    exact mem_listed.2 ⟨l, hl, hitem⟩
  | .idsOnly =>
    obtain ⟨entries, hlists, hmem⟩ := answer_lists simkl fun _ => true
    refine Except.ok.inj h ▸ ⟨entries, hlists, fun key => ⟨?_, ?_⟩⟩
    · rintro ⟨entry, hentry, hkey⟩
      obtain ⟨l, hl, -, rfl⟩ := (hmem entry).1 hentry
      exact ⟨l, hl, hkey⟩
    · rintro ⟨l, hl, hkey⟩
      exact ⟨_, (hmem _).2 ⟨l, hl, rfl, rfl⟩, hkey⟩
  | .all kind none =>
    obtain ⟨entries, hlists, hmem⟩ := answer_lists simkl fun l => l.bucket = kind
    exact Except.ok.inj h ▸ ⟨entries, hlists, fun entry => by simpa using hmem entry⟩
  | .all kind (some status) =>
    obtain ⟨entries, hlists, hmem⟩ := answer_lists simkl fun l =>
      l.bucket = kind && stringValue (Json.getField "status" (unwrapItem l.entry)) = some status
    exact Except.ok.inj h ▸ ⟨entries, hlists, fun entry => by
      simpa [and_assoc] using hmem entry⟩

/-- A run that meets the service and a database that works. -/
def served (simkl : Simkl) (activities : Json) : Env where
  now := 0
  client := none
  reply := service simkl activities
  loadFails := false
  touchFails := false
  passing := none
  updateFails := false
  insertFails := false
  dbError := ""

theorem cleansUp_served : CleansUp (served simkl activities) := by
  intro message
  refine ⟨by simp [served], fun request h => ?_⟩
  match request with
  | .activities | .changed _ | .ratings _ | .idsOnly | .all _ none | .all _ (some _) => cases h

/-- The text of a whole number. -/
def wholeText (n : ℚ) : String := toString n.num

/-- An entry with an id and a status, and more. -/
def sampleEntry (id : ℚ) (status : String) (more : Fields) : Fields :=
  [("title", .str "Title"), ("status", .str status), ("ids", .obj [("simkl", .num id)])] ++ more

/-- A show that is watched and an anime on hold. -/
def sampleSimkl : Simkl where
  library := [⟨.show, sampleEntry 1 "watching" [], "2026-05-01"⟩,
    ⟨.anime, sampleEntry 2 "hold" [], "2026-05-01"⟩]
  all := "2026-05-01"
  stamp := fun _ _ => none

/-- The activities before anything happened to them. -/
def sampleActivities : Json := .obj [("all", .str "2026-05-01")]

/-- The activities after the show was completed and the anime removed. -/
def laterActivities : Json :=
  .obj [("all", .str "2026-05-03"), ("tv_shows", .obj [("completed", .str "2026-05-02")]),
    ("anime", .obj [("removed_from_list", .str "2026-05-03")])]

/-- A first run, and these two changes. -/
def sampleEvents : List Event :=
  [.sync (served sampleSimkl sampleActivities) false,
    .list "2026-05-02" .show (sampleEntry 1 "completed" []),
    .remove "2026-05-03" (.anime, "2")]

/-- The state before any run. -/
def sampleStart : State := ⟨sampleSimkl, ⟨[], []⟩⟩

/-- The state after them. -/
def sampleState : State := sampleEvents.foldl (next wholeText 7) sampleStart

theorem reads_sampleActivities {simkl : Simkl} (hall : simkl.all = "2026-05-01")
    (hstamp : simkl.stamp = fun _ _ => none) : Reads wholeText simkl sampleActivities := by
  refine ⟨by rw [hall]; decide +kernel, fun kind key _ _ => ?_⟩
  rw [hstamp]
  cases kind <;> rfl

theorem sample_run : Run (Guarded (Step wholeText 7) (Fine wholeText 7)) sampleStart
    sampleEvents sampleState := by
  have hfirst : Happens wholeText sampleStart (.sync (served sampleSimkl sampleActivities)
      false) := fun request data h => service_answers (reads_sampleActivities rfl rfl) h
  have hfine : Fine wholeText 7 sampleStart
      (.sync (served sampleSimkl sampleActivities) false) :=
    ⟨cleansUp_served, fun h => absurd rfl h⟩
  have htyped : (⟨.show, sampleEntry 1 "completed" [], "2026-05-02"⟩ : Listing).Typed := by
    intro kind h
    cases h
  refine .cons ⟨hfine, hfirst, rfl⟩ (.cons ⟨htyped, ?_, rfl⟩ (.cons ⟨trivial, ?_, rfl⟩ (.nil _)))
  · show ("2026-05-01" : String) < "2026-05-02"
    decide +kernel
  · show ("2026-05-02" : String) < "2026-05-03"
    decide +kernel

/-- A bucket with one stamp has no other. -/
theorem stamp_of_one {stamped key at' : String}
    (hat : scalar wholeText (some (.str at')) = some at') :
    scalar wholeText ((Json.obj [(stamped, .str at')]).get key)
      = if key = stamped then some at' else none := by
  by_cases h : key = stamped
  · rw [if_pos h, h]
    simpa [Json.get, Json.getField] using hat
  · rw [if_neg h]
    simp [Json.get, Json.getField, Ne.symm h, scalar]

theorem reads_laterActivities : Reads wholeText sampleState.simkl laterActivities := by
  refine ⟨by decide +kernel, fun kind key _ _ => ?_⟩
  have hstamp : sampleState.simkl.stamp kind key
      = if kind = .anime ∧ key = "removed_from_list" then some "2026-05-03"
        else if kind = .show ∧ key = "completed" then some "2026-05-02" else none := rfl
  rw [hstamp]
  cases kind with
  | «show» => exact (stamp_of_one (by decide +kernel)).trans (by simp)
  | anime => exact (stamp_of_one (by decide +kernel)).trans (by simp)
  | movie => rfl

example : (sampleState.tables.rowsOf 7).map (fun row => (row.key, row.status))
    = [((.show, "1"), "watching"), ((.anime, "2"), "hold")] := by decide +kernel

/-- An incremental run after the show was completed and the anime removed. -/
theorem pulls_mirror_changed :
    (((sync wholeText (served sampleState.simkl laterActivities) 7 true
      sampleState.tables).1.rowsOf 7).map fun row => (row.key, row.status)).Perm
        (sampleState.simkl.listed wholeText) := by
  have hstart : Start wholeText 7 sampleStart := by
    refine ⟨⟨by decide +kernel, ?_, fun _ _ _ h => (by cases h), ?_⟩, ⟨?_, ?_⟩, rfl⟩
    · rintro listing (_ | ⟨_, _ | ⟨_, _ | _⟩⟩) <;> exact le_rfl
    · rintro listing (_ | ⟨_, _ | ⟨_, _ | _⟩⟩) kind h <;> cases h
    · exact List.nodup_nil
    · exact List.nodup_nil
  have hknown : ∀ listing ∈ sampleState.simkl.library,
      Listing.item? wholeText listing ≠ none := by decide +kernel
  have hanswers : Happens wholeText sampleState
      (.sync (served sampleState.simkl laterActivities) true) :=
    fun request data h => service_answers reads_laterActivities h
  refine (pulls_mirror hstart sample_run hanswers ⟨cleansUp_served, fun _ => ?_⟩).1
    ⟨_, rfl, ?_, ?_⟩
  · exact fun _ _ listing hlisting _ => hknown listing hlisting
  · decide +kernel
  · decide +kernel

/-- The state after a first run alone. -/
def syncedState : State :=
  next wholeText 7 sampleStart (.sync (served sampleSimkl sampleActivities) false)

/-- A run whose token Simkl rejects, with what its clean-up removes. -/
def rejecting (cleared : Cleared) : Env :=
  { served sampleSimkl sampleActivities with
    reply := fun _ => .error (.unauthorized cleared "Unauthorized") }

/-- The show takes a status the copy does not know. -/
def unknownSimkl : Simkl :=
  sampleSimkl.list wholeText "2026-05-02" .show (sampleEntry 1 "liked" [])

/-- The activities then. -/
def unknownActivities : Json :=
  .obj [("all", .str "2026-05-02"), ("tv_shows", .obj [("liked", .str "2026-05-02")])]

theorem reads_unknownActivities : Reads wholeText unknownSimkl unknownActivities := by
  refine ⟨by decide +kernel, fun kind key _ _ => ?_⟩
  have hstamp : unknownSimkl.stamp kind key
      = if kind = .show ∧ key = "liked" then some "2026-05-02" else none := by
    have : (stringValue (Json.getField "status" (unwrapItem (sampleEntry 1 "liked" [])))).getD ""
        = "liked" := by decide +kernel
    simp [unknownSimkl, Simkl.list, Simkl.stamped, sampleSimkl, this]
  rw [hstamp]
  cases kind with
  | «show» => exact (stamp_of_one (by decide +kernel)).trans (by simp)
  | anime => rfl
  | movie => rfl

/-- A movie. -/
def mistypedSimkl : Simkl where
  library := [⟨.movie, sampleEntry 2 "completed" [], "2026-05-01"⟩]
  all := "2026-05-01"
  stamp := fun _ _ => none

def mistypedStart : State := ⟨mistypedSimkl, ⟨[], []⟩⟩

/-- An anime that says it is a movie. -/
def mistypedEntry : Fields := sampleEntry 1 "watching" [("type", .str "movie")]

/-- The lists and the activities with it. -/
def listedSimkl : Simkl := mistypedSimkl.list wholeText "2026-05-02" .anime mistypedEntry

def listedActivities : Json :=
  .obj [("all", .str "2026-05-02"), ("anime", .obj [("watching", .str "2026-05-02")])]

/-- The activities once the movie is removed. -/
def removedActivities : Json :=
  .obj [("all", .str "2026-05-03"), ("anime", .obj [("watching", .str "2026-05-02")]),
    ("movies", .obj [("removed_from_list", .str "2026-05-03")])]

def mistypedEvents : List Event :=
  [.list "2026-05-02" .anime mistypedEntry, .sync (served listedSimkl listedActivities) false,
    .remove "2026-05-03" (.movie, "2")]

def mistypedState : State := mistypedEvents.foldl (next wholeText 7) mistypedStart

theorem reads_listedActivities : Reads wholeText listedSimkl listedActivities := by
  refine ⟨by decide +kernel, fun kind key _ _ => ?_⟩
  have hstamp : listedSimkl.stamp kind key
      = if kind = .anime ∧ key = "watching" then some "2026-05-02" else none := by
    have : (stringValue (Json.getField "status" (unwrapItem mistypedEntry))).getD ""
        = "watching" := by decide +kernel
    simp [listedSimkl, Simkl.list, Simkl.stamped, mistypedSimkl, this]
  rw [hstamp]
  cases kind with
  | «show» => rfl
  | anime => exact (stamp_of_one (by decide +kernel)).trans (by simp)
  | movie => rfl

theorem reads_removedActivities : Reads wholeText mistypedState.simkl removedActivities := by
  refine ⟨by decide +kernel, fun kind key _ _ => ?_⟩
  have hlisted := reads_listedActivities.2
  have hstamp : mistypedState.simkl.stamp kind key
      = if kind = .movie ∧ key = "removed_from_list" then some "2026-05-03"
        else listedSimkl.stamp kind key := rfl
  rw [hstamp]
  cases kind with
  | «show» => exact (hlisted .show key ‹_› ‹_›).trans (by simp)
  | anime => exact (hlisted .anime key ‹_› ‹_›).trans (by simp)
  | movie =>
    rw [← hlisted .movie key ‹_› ‹_›, show stampOf wholeText listedActivities .movie key = none
      from rfl]
    exact (stamp_of_one (by decide +kernel)).trans (by simp)

theorem mistyped_run : Run (Step wholeText 7) mistypedStart mistypedEvents mistypedState := by
  refine .cons ⟨?_, rfl⟩ (.cons ⟨fun request data h => ?_, rfl⟩ (.cons ⟨?_, rfl⟩ (.nil _)))
  · show ("2026-05-01" : String) < "2026-05-02"
    decide +kernel
  · exact service_answers reads_listedActivities h
  · show ("2026-05-02" : String) < "2026-05-03"
    decide +kernel

/-- A run whose token is rejected fails and drops the user's rows; where its clean-up stops
after the items, a later run finds nothing moved and leaves them dropped. A show that takes an
unknown status keeps its row. An anime that says it is a movie has its row under the movies
after a first run, and loses it to a run after another item was removed, which looks for it
under the anime. -/
theorem rows_dropped :
    (Run (Step wholeText 7) sampleStart [.sync (served sampleSimkl sampleActivities) false]
        syncedState ∧
      (syncedState.tables.rowsOf 7).map (fun row => (row.key, row.status))
        = [((.show, "1"), "watching"), ((.anime, "2"), "hold")]) ∧
    (let outcome := sync wholeText (rejecting .both) 7 true syncedState.tables
     Happens wholeText syncedState (.sync (rejecting .both) true) ∧ Failed outcome.2 ∧
       outcome.1.rowsOf 7 = []) ∧
    (let state := next wholeText 7 syncedState (.sync (rejecting .items) true)
     let env := served sampleSimkl sampleActivities
     let outcome := sync wholeText env 7 true state.tables
     Happens wholeText syncedState (.sync (rejecting .items) true) ∧
       Happens wholeText state (.sync env true) ∧ Pulled outcome.2 ∧ outcome.1.rowsOf 7 = []) ∧
    (let event : Event := .list "2026-05-02" .show (sampleEntry 1 "liked" [])
     let state := next wholeText 7 syncedState event
     let env := served unknownSimkl unknownActivities
     let outcome := sync wholeText env 7 true state.tables
     Happens wholeText syncedState event ∧ Happens wholeText state (.sync env true) ∧
       Pulled outcome.2 ∧
       (outcome.1.rowsOf 7).map (fun row => (row.key, row.status))
         = [((.show, "1"), "watching"), ((.anime, "2"), "hold")] ∧
       state.simkl.listed wholeText = [((.anime, "2"), "hold")]) ∧
    Run (Step wholeText 7) mistypedStart mistypedEvents mistypedState ∧
      let env := served mistypedState.simkl removedActivities
      let outcome := sync wholeText env 7 true mistypedState.tables
      Happens wholeText mistypedState (.sync env true) ∧ Pulled outcome.2 ∧
        outcome.1.rowsOf 7 = [] ∧
        mistypedState.simkl.listed wholeText = [((.movie, "1"), "watching")] := by
  have hserved : ∀ request data, (served sampleSimkl sampleActivities).reply request = .ok data →
      Answers wholeText sampleSimkl request data :=
    fun request data h => service_answers (reads_sampleActivities rfl rfl) h
  refine ⟨⟨.single ⟨hserved, rfl⟩, ?_⟩, ⟨?_, ?_, ?_⟩, ⟨?_, hserved, ⟨_, rfl, ?_, ?_⟩, ?_⟩,
    ⟨?_, ?_, ⟨_, rfl, ?_, ?_⟩, ?_, ?_⟩, mistyped_run, ?_, ⟨_, rfl, ?_, ?_⟩, ?_, ?_⟩
  · decide +kernel
  · exact fun request data h => (by cases h)
  · exact fun result h => (Except.ok.inj h) ▸ rfl
  · decide +kernel
  · exact fun request data h => (by cases h)
  · decide +kernel
  · decide +kernel
  · decide +kernel
  · show ("2026-05-01" : String) < "2026-05-02"
    decide +kernel
  · exact fun request data h => service_answers reads_unknownActivities h
  · decide +kernel
  · decide +kernel
  · decide +kernel
  · decide +kernel
  · exact fun request data h => service_answers reads_removedActivities h
  · decide +kernel
  · decide +kernel
  · decide +kernel
  · decide +kernel

end Sample

end Foreseerr.SimklSync

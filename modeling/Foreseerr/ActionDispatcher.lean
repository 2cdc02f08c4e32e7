import Foreseerr.AnilistActions
import Mathlib.Data.List.Forall2
import Mathlib.Data.List.Sort

/-!
# Reading watched states from several providers

`dispatcher.rs` asks every available provider for a title, or for a batch of titles, and
folds their results into what the routes print. A single read folds them in configured
order. A batch read folds them in the order in which the providers' batches settled, as
Node did, with the titles a provider left out added as failures and those nobody asked for
left out.

Whether a title is watched and which actions are available does not depend on that order;
the rating is that of the first successful provider that has one
(`Dispatcher.statuses_shows`).
-/

namespace Foreseerr

namespace Dispatcher

open AnilistActions (Item Status)

/-! ## Results -/

/-- `ProviderId`. -/
inductive ProviderId
  | trakt
  | jellyfin
  | anilist
  | simkl
deriving DecidableEq, Repr

/-- `Capabilities`. -/
structure Capabilities where
  watched : Bool
  rating : Bool
deriving DecidableEq, Repr

/-- `Capability`. -/
inductive Capability
  | writeWatched
  | writeRating
deriving DecidableEq, Repr

/-- `Capabilities::has`. -/
def Capabilities.has (caps : Capabilities) : Capability → Bool
  | .writeWatched => caps.watched
  | .writeRating => caps.rating

/-- `Capabilities::reads`. -/
def Capabilities.reads (caps : Capabilities) : Bool := caps.watched || caps.rating

/-- `Status::with_stars`. -/
def withStars (status : Status) : Status :=
  { status with
    ratingStars := status.ratingStars <|> status.rating.map (· / 2)
    error := status.error.filter (· ≠ "") }

/-- `ProviderResult`. -/
structure ProviderResult where
  provider : ProviderId
  ok : Bool
  status : Status
deriving DecidableEq, Repr

/-- `ProviderResult::from_status`. -/
def fromStatus (provider : ProviderId) (status : Status) : ProviderResult :=
  let status := withStars status
  { provider := provider, ok := status.error.isNone, status := status }

/-- `ProviderResult::thrown`. -/
def thrown (provider : ProviderId) (error : String) : ProviderResult :=
  { provider := provider, ok := false, status := ⟨false, none, none, some error⟩ }

/-- `Reason`. -/
inductive Reason
  | noProvider
  | notMapped
  | providerError
  | unsupported
deriving DecidableEq, Repr

/-- `Availability`. -/
structure Availability where
  available : Bool
  reason : Option Reason
deriving DecidableEq, Repr

/-- `jellyfin::NOT_MAPPED` and `anilist::NOT_MAPPED`. -/
def notMapped : List String := ["No Jellyfin mapping for item", "No AniList mapping for item"]

/-- `unavailable_reason`. -/
def unavailableReason (all matching : List ProviderResult) : Option Reason :=
  if matching.any (·.ok) then none
  else if matching.isEmpty then some (if all.isEmpty then .noProvider else .unsupported)
  else if matching.all fun p => p.status.error.any (· ∈ notMapped) then some .notMapped
  else some .providerError

/-- `availability`. -/
def availability (results : List ProviderResult) (definitions : List (ProviderId × Capabilities))
    (capability : Capability) : Availability :=
  let matching := results.filter fun r =>
    definitions.any fun (id, caps) => id = r.provider && caps.has capability
  let available := matching.any (·.ok)
  { available := available
    reason := if available then none else unavailableReason results matching }

/-- `Aggregate`. -/
structure Aggregate where
  item : Item
  status : Status
  watchedAction : Availability
  ratingAction : Availability
  providers : List ProviderResult
deriving DecidableEq, Repr

/-- The first successful result that has a rating. -/
def firstRated (results : List ProviderResult) : Option ProviderResult :=
  (results.filter (·.ok)).find? (·.status.rating.isSome)

/-- `aggregate`. -/
def aggregate (item : Item) (results : List ProviderResult)
    (definitions : List (ProviderId × Capabilities)) : Aggregate :=
  let watched := (results.filter (·.ok)).any (·.status.watched)
  { item := item
    status := match firstRated results with
      | none => Status.of watched none
      | some p => withStars ⟨watched, p.status.rating, p.status.ratingStars, none⟩
    watchedAction := availability results definitions .writeWatched
    ratingAction := availability results definitions .writeRating
    providers := results }

/-! ## Reading -/

/-- `Provider`, as far as it is read. -/
structure Provider where
  id : ProviderId
  capabilities : Capabilities
  isAvailable : Except String Bool
  status : Item → Except String Status
  statuses : List Item → Except String (List (Item × Status))

/-- `definitions`. -/
def definitions (providers : List Provider) : List (ProviderId × Capabilities) :=
  providers.map fun p => (p.id, p.capabilities)

/-- `available`, of all capabilities: one provider is asked after another. -/
def available : List Provider → Except String (List Provider)
  | [] => .ok []
  | provider :: providers => do
    let isAvailable ← provider.isAvailable
    let rest ← available providers
    .ok (if isAvailable then provider :: rest else rest)

/-- The providers that are read. -/
def enabled (providers : List Provider) : Except String (List Provider) := do
  .ok ((← available providers).filter (·.capabilities.reads))

/-- What a provider's single read comes to. -/
def readOne (item : Item) (provider : Provider) : ProviderResult :=
  match provider.status item with
  | .ok status => fromStatus provider.id status
  | .error e => thrown provider.id e

/-- `Dispatcher::status`. -/
def status (providers : List Provider) (item : Item) : Except String Aggregate := do
  let enabled ← enabled providers
  if enabled.isEmpty then .ok (aggregate item [] (definitions providers))
  else .ok (aggregate item (enabled.map (readOne item)) (definitions providers))

/-- `batch_results`. -/
def batchResults (items : List Item) (provider : Provider) : List (Item × ProviderResult) :=
  match provider.statuses items with
  | .ok statuses =>
    let returned := statuses.filter (·.1 ∈ items)
    returned.map (fun (item, status) => (item, fromStatus provider.id status))
      ++ (items.filter (· ∉ returned.map Prod.fst)).map fun item =>
        (item, thrown provider.id "Provider did not return a status for item")
  | .error e => items.map fun item => (item, thrown provider.id e)

/-- What is sorted by the number each has, where the n-th settled as number `settle n`. -/
def settled {α : Type*} (settle : Nat → Nat) (results : List α) : List α :=
  ((results.zipIdx.map fun (a, n) => (settle n, a)).insertionSort fun a b => a.1 ≤ b.1).map
    Prod.snd

/-- `Dispatcher::statuses`. The n-th provider's batch is the `settle n`-th to settle. -/
def statuses (settle : Nat → Nat) (providers : List Provider) (items : List Item) :
    Except String (List Aggregate) := do
  if items.isEmpty then .ok []
  else
    let enabled ← enabled providers
    if enabled.isEmpty then
      .ok (items.map fun item => aggregate item [] (definitions providers))
    else
      let batches := settled settle (enabled.map (batchResults items))
      .ok (items.map fun item =>
        aggregate item ((batches.flatten.filter (·.1 = item)).map Prod.snd)
          (definitions providers))

/-! ## Aggregates of the same results -/

section Aggregates

variable {results results' : List ProviderResult} {defs : List (ProviderId × Capabilities)}
  {item : Item}

theorem any_congr {α : Type*} {l m : List α} (h : ∀ a, a ∈ l ↔ a ∈ m) (p : α → Bool) :
    l.any p = m.any p := by
  rw [Bool.eq_iff_iff, List.any_eq_true, List.any_eq_true]
  simp only [h]

theorem all_congr {α : Type*} {l m : List α} (h : ∀ a, a ∈ l ↔ a ∈ m) (p : α → Bool) :
    l.all p = m.all p := by
  rw [Bool.eq_iff_iff, List.all_eq_true, List.all_eq_true]
  simp only [h]

theorem isEmpty_congr {α : Type*} {l m : List α} (h : ∀ a, a ∈ l ↔ a ∈ m) :
    l.isEmpty = m.isEmpty := by
  rw [Bool.eq_iff_iff, List.isEmpty_iff, List.isEmpty_iff, List.eq_nil_iff_forall_not_mem,
    List.eq_nil_iff_forall_not_mem]
  simp only [h]

theorem mem_filter_congr {α : Type*} {l m : List α} (h : ∀ a, a ∈ l ↔ a ∈ m) (p : α → Bool) :
    ∀ a, a ∈ l.filter p ↔ a ∈ m.filter p := by
  intro a
  rw [List.mem_filter, List.mem_filter, h]

/-- Which actions are available depends on what results there are, not on their order. -/
theorem availability_congr (h : ∀ r, r ∈ results ↔ r ∈ results') (capability : Capability) :
    availability results defs capability = availability results' defs capability := by
  have hmatching := mem_filter_congr h fun r =>
    defs.any fun (id, caps) => id = r.provider && caps.has capability
  unfold availability unavailableReason
  dsimp only
  rw [any_congr hmatching, all_congr hmatching, isEmpty_congr hmatching, isEmpty_congr h]

theorem watched_aggregate : (aggregate item results defs).status.watched
    = (results.filter (·.ok)).any (·.status.watched) := by
  unfold aggregate
  dsimp only
  split <;> rfl

theorem watched_congr (h : ∀ r, r ∈ results ↔ r ∈ results') :
    (aggregate item results defs).status.watched
      = (aggregate item results' defs).status.watched := by
  rw [watched_aggregate, watched_aggregate]
  exact any_congr (mem_filter_congr h _) _

/-- What an aggregate shows beside the providers' results. -/
structure Shows (a b : Aggregate) : Prop where
  item : a.item = b.item
  watched : a.status.watched = b.status.watched
  watchedAction : a.watchedAction = b.watchedAction
  ratingAction : a.ratingAction = b.ratingAction

/-- The same rating, in stars too. -/
structure SameRating (a b : Aggregate) : Prop where
  rating : a.status.rating = b.status.rating
  ratingStars : a.status.ratingStars = b.status.ratingStars

theorem shows_of_same_results (h : ∀ r, r ∈ results ↔ r ∈ results') :
    Shows (aggregate item results defs) (aggregate item results' defs) :=
  ⟨rfl, watched_congr h, availability_congr h _, availability_congr h _⟩

theorem sameRating_of_firstRated (h : firstRated results = firstRated results') :
    SameRating (aggregate item results defs) (aggregate item results' defs) := by
  unfold aggregate
  dsimp only
  rw [h]
  cases firstRated results' with
  | none => exact ⟨rfl, rfl⟩
  | some p => exact ⟨rfl, rfl⟩

end Aggregates

/-! ## Batches -/

section Batches

variable {providers : List Provider} {items : List Item} {item : Item} {provider : Provider}
  {settle : Nat → Nat}

/-- What a provider's batch says of a title. -/
def batchOf (items : List Item) (item : Item) (provider : Provider) : List ProviderResult :=
  ((batchResults items provider).filter (·.1 = item)).map Prod.snd

/-- A provider's batch answers for a title what its single read does. -/
def Answers (items : List Item) (item : Item) (provider : Provider) : Prop :=
  ∀ r ∈ batchOf items item provider, r = readOne item provider

instance : Decidable (Answers items item provider) := List.decidableBAll _ _

theorem exists_mem_batchResults (provider : Provider) (h : item ∈ items) :
    ∃ r, (item, r) ∈ batchResults items provider := by
  unfold batchResults
  split
  next statuses hstatuses =>
    by_cases hreturned : item ∈ (statuses.filter (·.1 ∈ items)).map Prod.fst
    · obtain ⟨⟨_, status⟩, hmem, rfl⟩ := List.mem_map.1 hreturned
      exact ⟨_, List.mem_append_left _ (List.mem_map.2 ⟨_, hmem, rfl⟩)⟩
    · refine ⟨_, List.mem_append_right _ (List.mem_map.2 ⟨item, ?_, rfl⟩)⟩
      exact List.mem_filter.2 ⟨h, decide_eq_true hreturned⟩
  next e he => exact ⟨_, List.mem_map.2 ⟨item, h, rfl⟩⟩

/-- A batch that answers what single reads do is some copies of the single read's result. -/
theorem batchOf_eq (h : item ∈ items) (hanswers : Answers items item provider) :
    ∃ n, batchOf items item provider = List.replicate (n + 1) (readOne item provider) := by
  obtain ⟨r, hr⟩ := exists_mem_batchResults provider h
  have hmem : r ∈ batchOf items item provider :=
    List.mem_map.2 ⟨(item, r), List.mem_filter.2 ⟨hr, decide_eq_true rfl⟩, rfl⟩
  obtain ⟨n, hn⟩ := Nat.exists_eq_succ_of_ne_zero (List.length_pos_of_mem hmem).ne'
  exact ⟨n, List.eq_replicate_iff.2 ⟨hn, hanswers⟩⟩

theorem mem_settled {α : Type*} {l : List α} {a : α} : a ∈ settled settle l ↔ a ∈ l := by
  unfold settled
  rw [((List.perm_insertionSort _ _).map _).mem_iff]
  simp only [List.map_map, List.mem_map, Function.comp_apply]
  constructor
  · rintro ⟨⟨b, n⟩, hmem, rfl⟩
    exact List.fst_mem_of_mem_zipIdx hmem
  · intro h
    obtain ⟨n, hn⟩ := List.mem_iff_getElem?.1 h
    exact ⟨(a, n), List.mem_zipIdx_iff_getElem?.2 hn, rfl⟩

/-- Providers settle as their batches do. -/
theorem settled_map {α β : Type*} (f : α → β) (l : List α) :
    settled settle (l.map f) = (settled settle l).map f := by
  unfold settled
  have hzip : (l.map f).zipIdx.map (fun (b, n) => (settle n, b))
      = (l.zipIdx.map fun (a, n) => (settle n, a)).map (Prod.map id f) := by
    rw [List.zipIdx_map, List.map_map, List.map_map]
    rfl
  rw [hzip, ← List.map_insertionSort (fun a b => a.1 ≤ b.1) (fun a b => a.1 ≤ b.1)
    (Prod.map id f) _ fun _ _ _ _ => Iff.rfl, List.map_map, List.map_map]
  rfl

theorem find?_replicate_append {α : Type*} {p : α → Bool} {a : α} {n : Nat} (l : List α) :
    (List.replicate (n + 1) a ++ l).find? p = (a :: l).find? p := by
  by_cases ha : p a = true
  · rw [List.replicate_succ, List.cons_append, List.find?_cons_of_pos ha,
      List.find?_cons_of_pos ha]
  · have hnone : (List.replicate (n + 1) a).find? p = none :=
      List.find?_eq_none.2 fun b hb => List.eq_of_mem_replicate hb ▸ ha
    rw [List.find?_append, hnone, Option.none_or, List.find?_cons_of_neg ha]

theorem firstRated_eq (results : List ProviderResult) :
    firstRated results = results.find? fun p => p.ok && p.status.rating.isSome := by
  rw [firstRated, List.find?_filter]
  simp only [Bool.decide_and, Bool.decide_eq_true]

/-- Copies of results change neither which there are nor which is the first. -/
theorem flatMap_copies {l : List Provider} (h : item ∈ items)
    (hanswers : ∀ p ∈ l, Answers items item p) :
    (∀ r, r ∈ l.flatMap (batchOf items item) ↔ r ∈ l.map (readOne item))
      ∧ firstRated (l.flatMap (batchOf items item)) = firstRated (l.map (readOne item)) := by
  induction l with
  | nil => exact ⟨fun _ => Iff.rfl, rfl⟩
  | cons p l ih =>
    rw [List.forall_mem_cons] at hanswers
    obtain ⟨n, hn⟩ := batchOf_eq h hanswers.1
    obtain ⟨hmem, hfirst⟩ := ih hanswers.2
    rw [List.flatMap_cons, List.map_cons, hn]
    refine ⟨fun r => ?_, ?_⟩
    · rw [List.mem_append, List.mem_replicate, List.mem_cons, hmem]
      simp
    · rw [firstRated_eq, find?_replicate_append, firstRated_eq]
      rw [firstRated_eq, firstRated_eq] at hfirst
      rw [List.find?_cons, List.find?_cons, hfirst]

/-- What a batch read has for a title, provider by provider as they settled. -/
theorem filter_flatten_settled (l : List Provider) :
    ((settled settle (l.map (batchResults items))).flatten.filter (·.1 = item)).map Prod.snd
      = (settled settle l).flatMap (batchOf items item) := by
  rw [settled_map, List.filter_flatten, List.map_flatten, List.map_map, List.map_map,
    List.flatMap_def]
  rfl

end Batches

/-! ## Both reads -/

/-- Batches that settle in configured order are left in it. -/
theorem settled_of_monotone {α : Type*} {settle : Nat → Nat} (h : Monotone settle) (l : List α) :
    settled settle l = l := by
  unfold settled
  have hsorted : (l.zipIdx.map fun (a, n) => (settle n, a)).Pairwise
      fun a b => a.1 ≤ b.1 := by
    rw [List.pairwise_map]
    refine List.pairwise_iff_getElem.2 fun i j hi hj hij => ?_
    rw [List.getElem_zipIdx, List.getElem_zipIdx]
    exact h (Nat.add_le_add_left hij.le 0)
  rw [hsorted.insertionSort_eq, List.map_map]
  exact List.zipIdx_map_fst 0 l

theorem status_eq {providers l : List Provider} (h : enabled providers = .ok l) (item : Item) :
    status providers item
      = .ok (aggregate item (l.map (readOne item)) (definitions providers)) := by
  have hread : status providers item = if l.isEmpty then
      .ok (aggregate item [] (definitions providers))
      else .ok (aggregate item (l.map (readOne item)) (definitions providers)) := by
    rw [status, h]
    rfl
  rw [hread]
  split
  next hempty => rw [List.isEmpty_iff.1 hempty, List.map_nil]
  next => rfl

theorem statuses_eq {providers l : List Provider} (h : enabled providers = .ok l)
    (settle : Nat → Nat) (items : List Item) :
    statuses settle providers items = .ok (items.map fun item => aggregate item
      ((settled settle l).flatMap (batchOf items item)) (definitions providers)) := by
  have hread : statuses settle providers items = if items.isEmpty then .ok []
      else if l.isEmpty then .ok (items.map fun item => aggregate item [] (definitions providers))
      else .ok (items.map fun item => aggregate item
        (((settled settle (l.map (batchResults items))).flatten.filter (·.1 = item)).map Prod.snd)
        (definitions providers)) := by
    rw [statuses, h]
    rfl
  rw [hread]
  split
  next hempty => rw [List.isEmpty_iff.1 hempty, List.map_nil]
  next =>
    split
    next hempty =>
      rw [List.isEmpty_iff.1 hempty]
      rfl
    next => simp only [filter_flatten_settled]

theorem mem_of_available {providers l : List Provider} {p : Provider}
    (h : available providers = .ok l) (hp : p ∈ l) : p ∈ providers := by
  induction providers generalizing l with
  | nil =>
    cases h
    exact hp
  | cons q providers ih =>
    obtain ⟨b, -, h⟩ := except_bind_eq_ok h
    obtain ⟨rest, hrest, h⟩ := except_bind_eq_ok h
    obtain rfl := Except.ok.inj h
    split at hp
    · rcases List.mem_cons.1 hp with rfl | hp
      · exact List.mem_cons_self
      · exact List.mem_cons_of_mem _ (ih hrest hp)
    · exact List.mem_cons_of_mem _ (ih hrest hp)

theorem mem_of_enabled {providers l : List Provider} {p : Provider}
    (h : enabled providers = .ok l) (hp : p ∈ l) : p ∈ providers := by
  obtain ⟨all, hall, heq⟩ := except_bind_eq_ok h
  obtain rfl := Except.ok.inj heq
  exact mem_of_available hall (List.mem_filter.1 hp).1

/-- **A batch read shows what single reads show**, in whatever order the batches settle,
but for the rating: that is the single read's with the providers as they settled, so its
own where they settle in configured order. -/
theorem statuses_shows (settle : Nat → Nat) (providers : List Provider) (items : List Item)
    (hanswers : ∀ p ∈ providers, ∀ item ∈ items, Answers items item p) :
    match statuses settle providers items with
    | .error e => ∀ item, status providers item = .error e
    | .ok batch => List.Forall₂ (fun item shown => ∃ single, status providers item = .ok single
        ∧ Shows shown single
        ∧ SameRating shown (aggregate item (settled settle single.providers)
          (definitions providers))
        ∧ (Monotone settle → SameRating shown single)) items batch := by
  cases henabled : enabled providers with
  | error e =>
    by_cases hempty : items = []
    · subst hempty
      exact List.Forall₂.nil
    · have hbatch : statuses settle providers items = .error e := by
        rw [statuses, if_neg (by rwa [List.isEmpty_iff]), henabled]
        rfl
      rw [hbatch]
      intro item
      rw [status, henabled]
      rfl
  | ok l =>
    rw [statuses_eq henabled]
    dsimp only
    rw [List.forall₂_map_right_iff, List.forall₂_same]
    intro item hitem
    refine ⟨_, status_eq henabled item, ?_⟩
    have hcopies := flatMap_copies (l := settled settle l) hitem fun p hp =>
      hanswers p (mem_of_enabled henabled (mem_settled.1 hp)) item hitem
    have hrating : SameRating (aggregate item ((settled settle l).flatMap (batchOf items item))
        (definitions providers)) (aggregate item (settled settle (l.map (readOne item)))
          (definitions providers)) := by
      rw [settled_map]
      exact sameRating_of_firstRated hcopies.2
    refine ⟨shows_of_same_results fun r => ?_, hrating, fun hmono => ?_⟩
    · rw [hcopies.1, ← settled_map, mem_settled]
    · rwa [settled_of_monotone hmono (l.map (readOne item))] at hrating

/-- A provider with one rating for every title. -/
def rates (id : ProviderId) (rating : ℚ) : Provider where
  id := id
  capabilities := ⟨true, true⟩
  isAvailable := .ok true
  status _ := .ok (Status.of true (some rating))
  statuses items := .ok (items.map fun item => (item, Status.of true (some rating)))

theorem statuses_shows_rates :
    match statuses (1 - ·) [rates .trakt 8, rates .simkl 6] [⟨.movie, 550⟩] with
    | .error e => ∀ item, status [rates .trakt 8, rates .simkl 6] item = .error e
    | .ok batch => List.Forall₂ (fun item shown => ∃ single,
        status [rates .trakt 8, rates .simkl 6] item = .ok single
        ∧ Shows shown single
        ∧ SameRating shown (aggregate item (settled (1 - ·) single.providers)
          (definitions [rates .trakt 8, rates .simkl 6]))
        ∧ (Monotone (fun n : Nat => 1 - n) → SameRating shown single)) [⟨.movie, 550⟩] batch :=
  statuses_shows (1 - ·) [rates .trakt 8, rates .simkl 6] [⟨.movie, 550⟩] (by decide +kernel)

/-- **The rating depends on which batch settles first**: of two providers that rate a film
differently, a single read shows the first one's, and a batch read that of the one that
was faster. -/
theorem faster_rating_shown :
    (∀ p ∈ [rates .trakt 8, rates .simkl 6], Answers [⟨.movie, 550⟩] ⟨.movie, 550⟩ p)
      ∧ (status [rates .trakt 8, rates .simkl 6] ⟨.movie, 550⟩).map (·.status.rating)
        = .ok (some 8)
      ∧ (statuses id [rates .trakt 8, rates .simkl 6] [⟨.movie, 550⟩]).map
          (·.map (·.status.rating)) = .ok [some 8]
      ∧ (statuses (1 - ·) [rates .trakt 8, rates .simkl 6] [⟨.movie, 550⟩]).map
          (·.map (·.status.rating)) = .ok [some 6] := by
  refine ⟨by decide +kernel, rfl, rfl, rfl⟩

end Dispatcher

end Foreseerr

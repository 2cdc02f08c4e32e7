import Foreseerr.TraktPages

/-!
# Pages filled from filtered upstream pages

`traktpages.rs` answers a page of what a filter keeps of the upstream pages. Each page
starts again from the first upstream page: `fill_pages` reads on until the upstream ends,
the cap on upstream pages is reached or, where nothing is to be sorted, there are enough
items, and `page_of` cuts the page out. The two callers tell from where the loop stopped
whether more may follow, each in its own way.

The pages are the slices of one list, in whichever way they are cut, and one that nothing
is said to follow is the last (`FilteredPages.pages_partition`).
-/

namespace Foreseerr

namespace FilteredPages

open Json TraktPages TraktItems

/-- `MAX_UPSTREAM_PAGES`. -/
def maxUpstreamPages : Nat := 10

/-! ## Cutting a page out -/

/-- `SortBy`. -/
inductive SortBy
  | added
  | released
deriving DecidableEq, Repr

/-- The field a date is read from. -/
def SortBy.key : SortBy → String
  | .added => "traktAddedAt"
  | .released => "traktReleaseDate"

/-- `sort_timestamp`. -/
def sortTimestamp (item : Json) (sortBy : SortBy) : Int :=
  ((((item.get sortBy.key).bind asStr).filter (· ≠ "")).bind fun text =>
    parseJsDate text.toList).getD 0

/-- The items, newest first. -/
def newestFirst (sortBy : SortBy) (items : List Json) : List Json :=
  items.mergeSort fun a b => sortTimestamp b sortBy ≤ sortTimestamp a sortBy

/-- `paginate_sorted`. -/
def paginateSorted (items : List Json) (page limit : Nat) (sortBy : SortBy)
    (hasMoreUpstream : Bool) : Paged :=
  slicePage (newestFirst sortBy items) page limit hasMoreUpstream

/-- `plain_page`. -/
def plainPage (items : List Json) (page limit : Nat) (extra : Bool) : Paged :=
  slicePage items page limit extra

/-- `page_of`. -/
def pageOf (items : List Json) (page perPage : Nat) (sortBy : Option SortBy) (extra : Bool) :
    Paged :=
  match sortBy with
  | none => plainPage items page perPage extra
  | some sortBy => paginateSorted items page perPage sortBy extra

/-! ## Reading upstream pages -/

section Filling

variable (fetch : Nat → Except String Paged) (filter : List Json → Except String (List Json))

/-- The loop of `fill_pages` from an upstream page on, with as many left before the cap. -/
def fillFrom (needed : Nat) (stopWhenFull : Bool) :
    Nat → Nat → List Json → Bool → Except String (List Json × Bool × Nat)
  | 0, number, filtered, hasMore => .ok (filtered, hasMore, number)
  | left + 1, number, filtered, _ => do
    let fetched ← fetch number
    let batch ← if fetched.items.isEmpty then .ok [] else filter fetched.items
    let filtered := filtered ++ batch
    if !fetched.hasMore then .ok (filtered, false, number)
    else if stopWhenFull && needed ≤ filtered.length then .ok (filtered, true, number)
    else fillFrom needed stopWhenFull left (number + 1) filtered true

/-- `fill_pages`: the items, the last `has_more` and the number the loop stopped on. -/
def fillPages (needed : Nat) (stopWhenFull : Bool) : Except String (List Json × Bool × Nat) :=
  fillFrom fetch filter needed stopWhenFull maxUpstreamPages 1 [] false

/-- `filtered_pages`. -/
def filteredPages (page perPage : Nat) (sortBy : Option SortBy) : Except String Paged := do
  let (filtered, hasMore, number) ← fillPages fetch filter (page * perPage) sortBy.isNone
  .ok (pageOf filtered page perPage sortBy (hasMore && number ≤ maxUpstreamPages))

/-- `post_filtered`. A loop that stopped on the last page has no page to follow it. -/
def postFiltered (page perPage : Nat) (sortBy : Option SortBy) : Except String Paged := do
  let page := max page 1
  let perPage := max perPage 1
  let (filtered, hasMore, number) ← fillPages fetch filter (page * perPage) sortBy.isNone
  .ok (pageOf filtered page perPage sortBy (hasMore && number < maxUpstreamPages))

end Filling

/-! ## What the pages are pages of -/

/-- The upstream pages up to the first that has no more, or the cap. -/
def readThrough (upstream : Nat → Paged) : List Paged :=
  let pages := (List.range' 1 maxUpstreamPages).map upstream
  pages.take ((pages.takeWhile (·.hasMore)).length + 1)

/-- What a filter keeps of a page; an empty one is not given to it. -/
def kept (filter : List Json → List Json) (page : Paged) : List Json :=
  if page.items.isEmpty then [] else filter page.items

/-- What a filter keeps of the upstream pages. -/
def wholeList (upstream : Nat → Paged) (filter : List Json → List Json) : List Json :=
  (readThrough upstream).flatMap (kept filter)

/-- A list in another order: by `stamp` from the highest on, and as it was among those
with the same. -/
structure StablySorted {α : Type*} (stamp : α → Int) (sorted items : List α) : Prop where
  perm : sorted.Perm items
  descending : sorted.Pairwise fun a b => stamp b ≤ stamp a
  stable : ∀ t, sorted.filter (stamp · = t) = items.filter (stamp · = t)

/-- The list that is paged: sorted when asked. -/
def Ordered (sortBy : Option SortBy) (whole items : List Json) : Prop :=
  match sortBy with
  | none => whole = items
  | some sortBy => StablySorted (sortTimestamp · sortBy) whole items

/-- **The pages partition a list**: one after another they are its beginning, and one that
nothing is said to follow is followed by none. -/
def Partition (serve : Nat → Except String Paged) (perPage : Nat) (whole : List Json) : Prop :=
  ∃ page : Nat → Paged, (∀ k, serve (k + 1) = .ok (page k))
    ∧ (∀ k, (List.range k).flatMap (fun i => (page i).items) = whole.take (k * perPage))
    ∧ ∀ k, (page k).hasMore = false → (page (k + 1)).items = []

/-! ## Sorting -/

theorem stablySorted_mergeSort {α : Type*} (stamp : α → Int) (items : List α) :
    StablySorted stamp (items.mergeSort fun a b => stamp b ≤ stamp a) items := by
  have htrans : ∀ a b c : α, decide (stamp b ≤ stamp a) = true →
      decide (stamp c ≤ stamp b) = true → decide (stamp c ≤ stamp a) = true := by
    intro a b c hab hbc
    rw [decide_eq_true_eq] at hab hbc ⊢
    exact hbc.trans hab
  have htotal : ∀ a b : α, (decide (stamp b ≤ stamp a) || decide (stamp a ≤ stamp b)) = true := by
    intro a b
    rw [Bool.or_eq_true, decide_eq_true_eq, decide_eq_true_eq]
    exact le_total _ _
  have hperm := List.mergeSort_perm items fun a b => decide (stamp b ≤ stamp a)
  refine ⟨hperm, ?_, fun t => ?_⟩
  · exact (List.pairwise_mergeSort htrans htotal items).imp fun h => of_decide_eq_true h
  · have hsub : (items.filter (stamp · = t)).Sublist
        (items.mergeSort fun a b => stamp b ≤ stamp a) := by
      refine List.sublist_mergeSort htrans htotal ?_ List.filter_sublist
      refine List.pairwise_of_forall_mem_list fun a ha b hb => ?_
      have ha : stamp a = t := of_decide_eq_true (List.mem_filter.1 ha).2
      have hb : stamp b = t := of_decide_eq_true (List.mem_filter.1 hb).2
      rw [ha, hb]
      exact decide_eq_true le_rfl
    have hfilter := hsub.filter (stamp · = t)
    have hself : (items.filter (stamp · = t)).filter (stamp · = t) = items.filter (stamp · = t) :=
      List.filter_eq_self.2 fun _ ha => (List.mem_filter.1 ha).2
    rw [hself] at hfilter
    exact (hfilter.eq_of_length (hperm.filter _).length_eq.symm).symm

/-! ## The loop -/

section Loop

variable {upstream : Nat → Paged} {filter : List Json → List Json}

/-- What is kept from an upstream page on. -/
def keptFrom (upstream : Nat → Paged) (filter : List Json → List Json) : Nat → Nat → List Json
  | 0, _ => []
  | left + 1, number => kept filter (upstream number)
      ++ if (upstream number).hasMore then keptFrom upstream filter left (number + 1) else []

theorem keptFrom_eq (left number : Nat) :
    keptFrom upstream filter left number
      = (((List.range' number left).map upstream).take
          ((((List.range' number left).map upstream).takeWhile (·.hasMore)).length + 1)).flatMap
            (kept filter) := by
  induction left generalizing number with
  | zero => rfl
  | succ left ih =>
    rw [keptFrom, List.range'_succ, List.map_cons, List.take_succ_cons, List.flatMap_cons,
      List.takeWhile_cons]
    congr 1
    split
    · rw [ih, List.length_cons]
    · rfl

theorem keptFrom_start : keptFrom upstream filter maxUpstreamPages 1 = wholeList upstream filter :=
  keptFrom_eq _ _

variable (upstream filter) in
/-- How the loop ends: with everything, at the upstream's end or at the cap, or with enough
before. A loop that has enough on the last page has everything too. -/
theorem fillFrom_ends (needed : Nat) (stopWhenFull : Bool) (left number : Nat)
    (filtered : List Json) (hasMore : Bool) :
    ∃ got more stop, fillFrom (fun n => .ok (upstream n)) (fun batch => .ok (filter batch)) needed
        stopWhenFull left number filtered hasMore = .ok (got, more, stop)
      ∧ ((got = filtered ++ keptFrom upstream filter left number
            ∧ (more = false ∨ stop = number + left))
        ∨ (more = true ∧ stop < number + left ∧ stopWhenFull = true ∧ needed ≤ got.length
            ∧ got <+: filtered ++ keptFrom upstream filter left number
            ∧ (stop + 1 = number + left →
                got = filtered ++ keptFrom upstream filter left number))) := by
  induction left generalizing number filtered hasMore with
  | zero => exact ⟨filtered, hasMore, number, rfl, .inl ⟨(List.append_nil _).symm, .inr rfl⟩⟩
  | succ left ih =>
    have hloop : fillFrom (fun n => .ok (upstream n)) (fun batch => .ok (filter batch)) needed
        stopWhenFull (left + 1) number filtered hasMore
          = if !(upstream number).hasMore then
              .ok (filtered ++ kept filter (upstream number), false, number)
            else if stopWhenFull && needed ≤ (filtered ++ kept filter (upstream number)).length then
              .ok (filtered ++ kept filter (upstream number), true, number)
            else fillFrom (fun n => .ok (upstream n)) (fun batch => .ok (filter batch)) needed
              stopWhenFull left (number + 1) (filtered ++ kept filter (upstream number)) true := by
      rw [fillFrom, kept]
      dsimp only [bind, Except.bind]
      split <;> rfl
    rw [hloop, keptFrom]
    cases hmore : (upstream number).hasMore with
    | false =>
      refine ⟨_, false, number, rfl, .inl ⟨?_, .inl rfl⟩⟩
      rw [if_neg Bool.false_ne_true, List.append_nil]
    | true =>
      rw [if_pos rfl, ← List.append_assoc]
      by_cases hfull : (stopWhenFull
          && decide (needed ≤ (filtered ++ kept filter (upstream number)).length)) = true
      · rw [if_pos hfull]
        rw [Bool.and_eq_true, decide_eq_true_eq] at hfull
        refine ⟨_, true, number, rfl, .inr ⟨rfl, by omega, hfull.1, hfull.2,
          List.prefix_append _ _, fun hlast => ?_⟩⟩
        obtain rfl : left = 0 := by omega
        exact (List.append_nil _).symm
      · rw [if_neg hfull]
        have hnumber : number + 1 + left = number + (left + 1) := by omega
        rw [← hnumber]
        exact ih (number + 1) (filtered ++ kept filter (upstream number)) true

/-- A page that is cut out of enough of a list. -/
structure CutFrom (whole : List Json) (page perPage : Nat) (answer : Paged) : Prop where
  items : answer.items = (whole.drop ((page - 1) * perPage)).take perPage
  last : answer.hasMore = false → whole.length ≤ page * perPage

theorem partition_of_cutFrom {serve : Nat → Except String Paged} {perPage : Nat}
    {whole : List Json}
    (h : ∀ k, ∃ answer, serve (k + 1) = .ok answer ∧ CutFrom whole (k + 1) perPage answer) :
    Partition serve perPage whole := by
  choose page hserve hcut using h
  refine ⟨page, hserve, fun k => ?_, fun k hlast => ?_⟩
  · have hitems : ∀ i, (page i).items = (whole.drop (i * perPage)).take perPage := fun i =>
      (hcut i).items
    rw [funext hitems]
    exact Paging.Pages.flatMap_slices whole k
  · rw [(hcut (k + 1)).items]
    have hle : whole.length ≤ (k + 1 + 1 - 1) * perPage := (hcut k).last hlast
    rw [List.drop_eq_nil_of_le hle, List.take_nil]

theorem cutFrom_slicePage {got whole : List Json} {page perPage : Nat} {extra : Bool}
    (hpage : 1 ≤ page) (hperPage : 1 ≤ perPage)
    (hgot : got = whole ∨ (extra = true ∧ page * perPage ≤ got.length ∧ got <+: whole)) :
    CutFrom whole page perPage (slicePage got page perPage extra) := by
  have hend : (page - 1) * perPage + perPage = page * perPage := by
    rw [← Nat.succ_mul, Nat.succ_eq_add_one, Nat.sub_add_cancel hpage]
  have hslice : slicePage got page perPage extra
      = { items := (got.drop ((page - 1) * perPage)).take perPage,
          hasMore := page * perPage < got.length || extra } := by
    rw [slicePage, max_eq_left hpage, max_eq_left hperPage, hend]
  rw [hslice]
  rcases hgot with rfl | ⟨rfl, hlength, rest, rfl⟩
  · refine ⟨rfl, fun hlast => ?_⟩
    rw [Bool.or_eq_false_iff, decide_eq_false_iff_not] at hlast
    exact not_lt.1 hlast.1
  · refine ⟨?_, fun hlast => absurd hlast (by simp)⟩
    have hdrop : (page - 1) * perPage ≤ got.length := by omega
    rw [List.drop_append_of_le_length hdrop, List.take_append_of_le_length]
    rw [List.length_drop]
    omega

/-- A page of what the loop got, when the caller says that more follow wherever the loop
stopped early. -/
theorem cutFrom_pageOf {got items whole : List Json} {page perPage : Nat}
    {sortBy : Option SortBy} {extra : Bool} (hpage : 1 ≤ page) (hperPage : 1 ≤ perPage)
    (hwhole : whole = sortBy.elim items fun sortBy => newestFirst sortBy items)
    (hgot : got = items ∨ (sortBy.isNone = true ∧ extra = true ∧ page * perPage ≤ got.length
      ∧ got <+: items)) :
    CutFrom whole page perPage (pageOf got page perPage sortBy extra) := by
  subst hwhole
  cases sortBy with
  | none => exact cutFrom_slicePage hpage hperPage (hgot.imp_right And.right)
  | some sortBy =>
    rcases hgot with rfl | ⟨hnone, -⟩
    · exact cutFrom_slicePage hpage hperPage (.inl rfl)
    · cases hnone

end Loop

/-! ## The pages -/

section Pages

variable (upstream : Nat → Paged) (filter : List Json → List Json) (perPage : Nat)
  (sortBy : Option SortBy)

theorem ordered_wholeList : Ordered sortBy
    (sortBy.elim (wholeList upstream filter) fun sortBy =>
      newestFirst sortBy (wholeList upstream filter)) (wholeList upstream filter) := by
  cases sortBy with
  | none => rfl
  | some sortBy => exact stablySorted_mergeSort (sortTimestamp · sortBy) _

theorem cutFrom_filteredPages {page : Nat} (hpage : 1 ≤ page) (hperPage : 1 ≤ perPage) :
    ∃ answer, filteredPages (fun n => .ok (upstream n)) (fun batch => .ok (filter batch)) page
        perPage sortBy = .ok answer
      ∧ CutFrom (sortBy.elim (wholeList upstream filter) fun sortBy =>
          newestFirst sortBy (wholeList upstream filter)) page perPage answer := by
  obtain ⟨got, more, stop, hfill, hends⟩ := fillFrom_ends upstream filter
    (page * perPage) sortBy.isNone maxUpstreamPages 1 [] false
  rw [List.nil_append, keptFrom_start] at hends
  refine ⟨_, by rw [filteredPages, fillPages, hfill]; rfl, ?_⟩
  refine cutFrom_pageOf hpage hperPage rfl ?_
  rcases hends with ⟨hgot, -⟩ | ⟨rfl, hstop, hnone, hneeded, hpre, -⟩
  · exact .inl hgot
  · refine .inr ⟨hnone, ?_, hneeded, hpre⟩
    rw [Bool.true_and, decide_eq_true_eq]
    omega

theorem cutFrom_postFiltered {page : Nat} (hpage : 1 ≤ page) (hperPage : 1 ≤ perPage) :
    ∃ answer, postFiltered (fun n => .ok (upstream n)) (fun batch => .ok (filter batch)) page
        perPage sortBy = .ok answer
      ∧ CutFrom (sortBy.elim (wholeList upstream filter) fun sortBy =>
          newestFirst sortBy (wholeList upstream filter)) page perPage answer := by
  obtain ⟨got, more, stop, hfill, hends⟩ := fillFrom_ends upstream filter
    (page * perPage) sortBy.isNone maxUpstreamPages 1 [] false
  rw [List.nil_append, keptFrom_start] at hends
  refine ⟨_, by rw [postFiltered, max_eq_left hpage, max_eq_left hperPage, fillPages, hfill]; rfl,
    ?_⟩
  refine cutFrom_pageOf hpage hperPage rfl ?_
  rcases hends with ⟨hgot, -⟩ | ⟨rfl, hstop, hnone, hneeded, hpre, hlast⟩
  · exact .inl hgot
  · by_cases hcap : stop + 1 = 1 + maxUpstreamPages
    · exact .inl (hlast hcap)
    · refine .inr ⟨hnone, ?_, hneeded, hpre⟩
      rw [Bool.true_and, decide_eq_true_eq]
      omega

end Pages

/-- **The filtered pages partition the filtered list**, whichever of the two fills them. -/
theorem pages_partition (upstream : Nat → Paged) (filter : List Json → List Json) (perPage : Nat)
    (hperPage : 1 ≤ perPage) (sortBy : Option SortBy) :
    ∃ whole, Ordered sortBy whole (wholeList upstream filter)
      ∧ Partition (filteredPages (fun n => .ok (upstream n)) (fun batch => .ok (filter batch)) ·
          perPage sortBy) perPage whole
      ∧ Partition (postFiltered (fun n => .ok (upstream n)) (fun batch => .ok (filter batch)) ·
          perPage sortBy) perPage whole :=
  ⟨_, ordered_wholeList upstream filter sortBy,
    partition_of_cutFrom fun _ => cutFrom_filteredPages _ _ _ _ (Nat.le_add_left _ _) hperPage,
    partition_of_cutFrom fun _ => cutFrom_postFiltered _ _ _ _ (Nat.le_add_left _ _) hperPage⟩

/-- Upstream pages with one item each, without end. -/
def endless (number : Nat) : Paged :=
  { items := [.num number], hasMore := true }

theorem pages_partition_endless :
    ∃ whole, Ordered none whole (wholeList endless id)
      ∧ Partition (filteredPages (fun n => .ok (endless n)) (fun batch => .ok (id batch)) · 3 none)
          3 whole
      ∧ Partition (postFiltered (fun n => .ok (endless n)) (fun batch => .ok (id batch)) · 3 none)
          3 whole :=
  pages_partition endless id 3 (by decide) none

end FilteredPages

end Foreseerr

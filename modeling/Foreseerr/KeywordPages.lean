import Foreseerr.BlocklistedTags

/-!
# The pages read for a keyword

`process_tag` asks for the first page of a keyword's titles in each sort order, and for the
pages after it, until a first page is answered that says there are few pages; it then asks
for those by popularity. This module says which requests a run makes, whatever TMDB answers
and whichever requests fail (`requests_cases`), and what they leave out.

Few pages are no more than the page limit has requests. Where that many requests do not fit
32 bits, any number counts as few: what a keyword's pages are read by is then decided by the
first answer alone (`reads_completely_iff`).
-/

namespace Foreseerr.BlocklistedTags

/-! ## The requests -/

/-- A discover request and its answer, if it did not fail. -/
abbrev Exchange := Query × Option Page

/-- A run hears an answer, or the failure of a request. -/
def Collecting.hear (run : Collecting) (exchange : Exchange) : Collecting :=
  match exchange.2 with
  | some response => run.receive exchange.1.mediaType exchange.1.tag response
  | none => run.skip

/-- The query of `process_tag` with this number, before the number of pages is fixed. -/
def sweepQuery (mediaType : String) (tag : Tag) (query : Nat) : Query :=
  let sorts := sortsOf mediaType
  ⟨mediaType, query / sorts.length + 1, sorts.getD (query % sorts.length) "popularity.desc", tag⟩

section Exchanges

variable (tmdb : Tmdb) (mediaType : String) (tag : Tag)

/-- What `followPages` asks for. -/
def followExchanges : Nat → Int → Nat → List Exchange
  | 0, _, _ => []
  | remaining + 1, page, asked =>
    let query : Query := ⟨mediaType, page, "popularity.desc", tag⟩
    (query, tmdb.page asked query) :: followExchanges remaining (page + 1) (asked + 1)

/-- What `sweepSorts` asks for. -/
def sweepExchanges (queryMax : Nat) : Nat → Nat → List Exchange
  | 0, _ => []
  | remaining + 1, asked =>
    let query := sweepQuery mediaType tag (queryMax - (remaining + 1))
    let answer := tmdb.page asked query
    let few := answer.bind fun response => response.fewPages query.page queryMax
    (query, answer) :: match few with
      | some total => followExchanges tmdb mediaType tag (jsInt total - 1).toNat 2 (asked + 1)
      | none => sweepExchanges queryMax remaining (asked + 1)

/-- What `process_tag` asks for, after so many requests. -/
def requests (pageLimit : Int) (asked : Nat) : List Exchange :=
  sweepExchanges tmdb mediaType tag (queryMax pageLimit mediaType) (queryMax pageLimit mediaType)
    asked

end Exchanges

/-- The job is not cancelled before any of the next requests. -/
def Uncancelled (tmdb : Tmdb) (asked count : Nat) : Prop :=
  ∀ i < count, tmdb.cancelled (asked + i) = false

section Trace

variable {tmdb : Tmdb} {mediaType : String} {tag : Tag} {run : Collecting}

theorem Uncancelled.first {asked count : Nat} (h : Uncancelled tmdb asked (count + 1)) :
    tmdb.cancelled asked = false := h 0 (Nat.succ_pos _)

theorem Uncancelled.rest {asked count : Nat} (h : Uncancelled tmdb asked (count + 1)) :
    Uncancelled tmdb (asked + 1) count := by
  intro i hi
  rw [Nat.add_assoc, Nat.add_comm 1]
  exact h (i + 1) (Nat.succ_lt_succ hi)

/-- A run that is not cancelled meanwhile makes these requests and hears their answers. -/
theorem followPages_eq {remaining : Nat} {page : Int} (h : Uncancelled tmdb run.asked
      (followExchanges tmdb mediaType tag remaining page run.asked).length) :
    followPages tmdb mediaType tag remaining page run = .ok
      ((followExchanges tmdb mediaType tag remaining page run.asked).foldl Collecting.hear
        run) := by
  induction remaining generalizing page run with
  | zero => rfl
  | succ remaining ih =>
    unfold followPages followExchanges
    rw [h.first, if_neg Bool.false_ne_true]
    dsimp only
    rw [List.foldl_cons]
    cases tmdb.page run.asked ⟨mediaType, page, "popularity.desc", tag⟩ with
    | some response => exact @ih (run.receive mediaType tag response) _ h.rest
    | none => exact @ih run.skip _ h.rest

theorem sweepSorts_eq {queryMax remaining : Nat} (h : Uncancelled tmdb run.asked
      (sweepExchanges tmdb mediaType tag queryMax remaining run.asked).length) :
    sweepSorts tmdb mediaType tag queryMax remaining run = .ok
      ((sweepExchanges tmdb mediaType tag queryMax remaining run.asked).foldl Collecting.hear
        run) := by
  induction remaining generalizing run with
  | zero => rfl
  | succ remaining ih =>
    have hfirst := h.first
    have hrest := h.rest
    unfold sweepSorts sweepExchanges
    rw [hfirst, if_neg Bool.false_ne_true]
    dsimp only [sweepQuery] at hrest ⊢
    rw [List.foldl_cons]
    generalize tmdb.page run.asked _ = answer at hrest ⊢
    cases answer with
    | none => exact @ih run.skip hrest
    | some response =>
      dsimp only [Option.bind_some] at hrest ⊢
      generalize response.fewPages _ queryMax = few at hrest ⊢
      cases few with
      | none => exact @ih (run.receive mediaType tag response) hrest
      | some total => exact followPages_eq hrest

/-- A keyword's run is not cancelled, makes its requests and hears their answers. -/
theorem processTag_eq {pageLimit : Int}
    (h : Uncancelled tmdb run.asked (requests tmdb mediaType tag pageLimit run.asked).length) :
    processTag tmdb pageLimit tag run mediaType
      = .ok ((requests tmdb mediaType tag pageLimit run.asked).foldl Collecting.hear run) :=
  sweepSorts_eq h

/-- A run collects what it hears of. -/
theorem mem_hear {exchanges : List Exchange} {about : Title} {tag' : Tag} :
    (about, tag') ∈ (exchanges.foldl Collecting.hear run).hits.map Hit.key ↔
      (about, tag') ∈ run.hits.map Hit.key ∨ ∃ exchange ∈ exchanges, ∃ response ∈ exchange.2,
        about.1 = exchange.1.mediaType ∧ tag' = exchange.1.tag ∧ about.2 ∈ response.ids := by
  induction exchanges generalizing run with
  | nil => simp
  | cons exchange exchanges ih =>
    have hone : (about, tag') ∈ (run.hear exchange).hits.map Hit.key ↔
        (about, tag') ∈ run.hits.map Hit.key ∨ ∃ response ∈ exchange.2,
          about.1 = exchange.1.mediaType ∧ tag' = exchange.1.tag ∧ about.2 ∈ response.ids := by
      unfold Collecting.hear
      cases exchange.2 with
      | none => simp [Collecting.skip]
      | some response => simpa [Collecting.receive] using mem_collect
    rw [List.foldl_cons, ih, hone, List.exists_mem_cons_iff, or_assoc]

end Trace

/-! ## Which requests a run makes -/

section Requests

variable (tmdb : Tmdb) (mediaType : String) (tag : Tag)

/-- A query of a sweep that made so many requests before its first, and its answer. -/
def sweepExchange (asked query : Nat) : Exchange :=
  (sweepQuery mediaType tag query, tmdb.page (asked + query) (sweepQuery mediaType tag query))

/-- The number of pages a query of a sweep fixes. -/
def fixedBy (queryMax asked query : Nat) : Option ℚ :=
  (sweepExchange tmdb mediaType tag asked query).2.bind fun response =>
    response.fewPages (sweepQuery mediaType tag query).page queryMax

variable {tmdb mediaType tag}

theorem sweepExchanges_succ {queryMax asked start remaining : Nat}
    (h : start + (remaining + 1) = queryMax) :
    sweepExchanges tmdb mediaType tag queryMax (remaining + 1) (asked + start)
      = sweepExchange tmdb mediaType tag asked start
        :: match fixedBy tmdb mediaType tag queryMax asked start with
          | some total =>
            followExchanges tmdb mediaType tag (jsInt total - 1).toNat 2 (asked + (start + 1))
          | none => sweepExchanges tmdb mediaType tag queryMax remaining (asked + (start + 1)) := by
  have hstart : queryMax - (remaining + 1) = start := by omega
  rw [sweepExchanges, hstart]
  rfl

/-- A sweep makes all its queries, or as many as it takes to fix the number of pages. -/
theorem sweepExchanges_cases {queryMax asked start remaining : Nat}
    (h : start + remaining = queryMax) :
    ((∀ i < remaining, fixedBy tmdb mediaType tag queryMax asked (start + i) = none)
      ∧ sweepExchanges tmdb mediaType tag queryMax remaining (asked + start)
        = (List.range remaining).map fun i => sweepExchange tmdb mediaType tag asked (start + i))
    ∨ ∃ i < remaining, ∃ total,
      fixedBy tmdb mediaType tag queryMax asked (start + i) = some total
      ∧ (∀ j < i, fixedBy tmdb mediaType tag queryMax asked (start + j) = none)
      ∧ sweepExchanges tmdb mediaType tag queryMax remaining (asked + start)
        = (List.range (i + 1)).map (fun i => sweepExchange tmdb mediaType tag asked (start + i))
          ++ followExchanges tmdb mediaType tag (jsInt total - 1).toNat 2
            (asked + (start + i + 1)) := by
  induction remaining generalizing start with
  | zero => exact .inl ⟨fun i hi => absurd hi (Nat.not_lt_zero i), rfl⟩
  | succ remaining ih =>
    have hshift : ∀ i, start + 1 + i = start + (i + 1) := fun i => by omega
    rw [sweepExchanges_succ h]
    cases hfix : fixedBy tmdb mediaType tag queryMax asked start with
    | some total =>
      exact .inr ⟨0, Nat.succ_pos _, total, hfix, fun j hj => absurd hj (Nat.not_lt_zero j), rfl⟩
    | none =>
      have hbefore : ∀ i, (∀ j < i, fixedBy tmdb mediaType tag queryMax asked (start + 1 + j)
          = none) → ∀ j < i + 1, fixedBy tmdb mediaType tag queryMax asked (start + j) = none := by
        intro i hi j hj
        cases j with
        | zero => exact hfix
        | succ j => exact hshift j ▸ hi j (Nat.lt_of_succ_lt_succ hj)
      have hmap : ∀ n, (List.range (n + 1)).map
            (fun i => sweepExchange tmdb mediaType tag asked (start + i))
          = sweepExchange tmdb mediaType tag asked start :: (List.range n).map
            fun i => sweepExchange tmdb mediaType tag asked (start + 1 + i) := by
        intro n
        rw [List.range_succ_eq_map, List.map_cons, List.map_map]
        exact congrArg _ (List.map_congr_left fun i _ => congrArg _ (hshift i).symm)
      dsimp only
      obtain ⟨hall, heq⟩ | ⟨i, hi, total, htotal, hnone, heq⟩ := @ih (start + 1) (by omega)
      · refine .inl ⟨hbefore _ hall, ?_⟩
        rw [heq, hmap]
      · refine .inr ⟨i + 1, Nat.succ_lt_succ hi, total, hshift i ▸ htotal, hbefore _ hnone, ?_⟩
        rw [heq, hmap, ← hshift i, List.cons_append]

/-- **Which requests a run makes for a keyword.** -/
theorem requests_cases (tmdb : Tmdb) (mediaType : String) (tag : Tag) (pageLimit : Int)
    (asked : Nat) :
    ((∀ i < queryMax pageLimit mediaType,
        fixedBy tmdb mediaType tag (queryMax pageLimit mediaType) asked i = none)
      ∧ requests tmdb mediaType tag pageLimit asked
        = (List.range (queryMax pageLimit mediaType)).map
          (sweepExchange tmdb mediaType tag asked))
    ∨ ∃ i < queryMax pageLimit mediaType, ∃ total,
      fixedBy tmdb mediaType tag (queryMax pageLimit mediaType) asked i = some total
      ∧ (∀ j < i, fixedBy tmdb mediaType tag (queryMax pageLimit mediaType) asked j = none)
      ∧ requests tmdb mediaType tag pageLimit asked
        = (List.range (i + 1)).map (sweepExchange tmdb mediaType tag asked)
          ++ followExchanges tmdb mediaType tag (jsInt total - 1).toNat 2 (asked + (i + 1)) := by
  have h := @sweepExchanges_cases tmdb mediaType tag _ asked 0 _
    (Nat.zero_add (queryMax pageLimit mediaType))
  simp only [Nat.zero_add, Nat.add_zero] at h
  exact h

/-! ### Sort orders and pages -/

theorem sortsOf_cases (mediaType : String) :
    sortsOf mediaType = movieSort ∨ sortsOf mediaType = tvSort := by
  unfold sortsOf
  split
  · exact .inl rfl
  · exact .inr rfl

theorem nodup_sortsOf (mediaType : String) : (sortsOf mediaType).Nodup := by
  rcases sortsOf_cases mediaType with h | h <;> rw [h] <;> decide

theorem length_sortsOf (mediaType : String) :
    2 ≤ (sortsOf mediaType).length ∧ (sortsOf mediaType).length ≤ 14 := by
  rcases sortsOf_cases mediaType with h | h <;> rw [h] <;> decide

theorem sortsOf_zero (mediaType : String) (default : String) :
    (sortsOf mediaType).getD 0 default = "popularity.desc" := by
  rcases sortsOf_cases mediaType with h | h <;> rw [h] <;> rfl

theorem mem_sortsOf (mediaType : String) : "popularity.asc" ∈ sortsOf mediaType := by
  rcases sortsOf_cases mediaType with h | h <;> rw [h] <;> decide

theorem sweepQuery_page_eq_one {query : Nat} :
    (sweepQuery mediaType tag query).page = 1 ↔ query < (sortsOf mediaType).length := by
  have hpos : 0 < (sortsOf mediaType).length := by
    have := length_sortsOf mediaType
    omega
  have hpage : (sweepQuery mediaType tag query).page
      = ((query / (sortsOf mediaType).length : Nat) : Int) + 1 := rfl
  rw [hpage, ← Nat.div_eq_zero_iff_lt hpos]
  omega

/-- The query for a page in a sort order. -/
theorem sweepQuery_of_page {page i : Nat} (hi : i < (sortsOf mediaType).length) :
    sweepQuery mediaType tag (page * (sortsOf mediaType).length + i)
      = ⟨mediaType, page + 1, (sortsOf mediaType).getD i "popularity.desc", tag⟩ := by
  have hdiv : (page * (sortsOf mediaType).length + i) / (sortsOf mediaType).length = page := by
    rw [Nat.mul_comm, Nat.mul_add_div (by omega), Nat.div_eq_of_lt hi, Nat.add_zero]
  have hmod : (page * (sortsOf mediaType).length + i) % (sortsOf mediaType).length = i := by
    rw [Nat.mul_comm, Nat.mul_add_mod, Nat.mod_eq_of_lt hi]
  have hpage : (sweepQuery mediaType tag (page * (sortsOf mediaType).length + i)).page
      = (((page * (sortsOf mediaType).length + i) / (sortsOf mediaType).length : Nat) : Int) + 1 :=
    rfl
  have hsort : (sweepQuery mediaType tag (page * (sortsOf mediaType).length + i)).sort
      = (sortsOf mediaType).getD ((page * (sortsOf mediaType).length + i)
        % (sortsOf mediaType).length) "popularity.desc" := rfl
  rw [hdiv] at hpage
  rw [hmod] at hsort
  rw [← hpage, ← hsort]
  rfl

theorem sweepQuery_injective : Function.Injective (sweepQuery mediaType tag) := by
  intro a b hab
  have hpos : 0 < (sortsOf mediaType).length := by
    have := length_sortsOf mediaType
    omega
  have hform : ∀ n, sweepQuery mediaType tag n
      = ⟨mediaType, (n / (sortsOf mediaType).length : Nat) + 1,
        (sortsOf mediaType).getD (n % (sortsOf mediaType).length) "popularity.desc", tag⟩ := by
    intro n
    rw [← sweepQuery_of_page (Nat.mod_lt n hpos), Nat.mul_comm, Nat.div_add_mod]
  rw [hform, hform, Query.mk.injEq, List.getD_eq_getElem?_getD, List.getD_eq_getElem?_getD,
    List.getElem?_eq_getElem (Nat.mod_lt a hpos), List.getElem?_eq_getElem (Nat.mod_lt b hpos)]
    at hab
  have hmod := (nodup_sortsOf mediaType).getElem_inj_iff.1 hab.2.2.1
  have hdiv : a / (sortsOf mediaType).length = b / (sortsOf mediaType).length := by
    have := hab.2.1
    omega
  rw [← Nat.div_add_mod a (sortsOf mediaType).length, hdiv, hmod, Nat.div_add_mod]

/-- The pages after the first, by popularity, each once. -/
theorem queries_followExchanges {remaining asked : Nat} {page : Int} :
    (followExchanges tmdb mediaType tag remaining page asked).map Prod.fst
      = (List.range remaining).map fun i : Nat =>
        ⟨mediaType, page + i, "popularity.desc", tag⟩ := by
  induction remaining generalizing page asked with
  | zero => rfl
  | succ remaining ih =>
    have hshift : ∀ i : Nat, page + 1 + (i : Int) = page + ((i + 1 : Nat) : Int) := fun i => by
      omega
    rw [followExchanges, List.map_cons, ih, List.range_succ_eq_map, List.map_cons, List.map_map]
    simp only [hshift, Int.natCast_zero, Int.add_zero]
    rfl

theorem mem_queries_followExchanges {remaining asked : Nat} {page : Int} {query : Query} :
    query ∈ (followExchanges tmdb mediaType tag remaining page asked).map Prod.fst
      ↔ ∃ i < remaining, query = ⟨mediaType, page + i, "popularity.desc", tag⟩ := by
  rw [queries_followExchanges, List.mem_map]
  simp only [List.mem_range, eq_comm]

theorem queries_sweep {asked n : Nat} :
    ((List.range n).map (sweepExchange tmdb mediaType tag asked)).map Prod.fst
      = (List.range n).map (sweepQuery mediaType tag) := by
  rw [List.map_map]
  rfl

theorem nodup_sweep {n : Nat} : ((List.range n).map (sweepQuery mediaType tag)).Nodup :=
  List.nodup_range.map sweepQuery_injective

/-- A page that is asked for in a sweep is asked for once. -/
theorem count_sweep {asked n query : Nat} (h : query < n) :
    (((List.range n).map (sweepExchange tmdb mediaType tag asked)).map Prod.fst).count
      (sweepQuery mediaType tag query) = 1 := by
  rw [queries_sweep]
  exact List.count_eq_one_of_mem nodup_sweep (List.mem_map_of_mem (List.mem_range.2 h))

/-- Once the number of pages is fixed, each page up to it is asked for once by popularity. -/
theorem count_fixed {asked k remaining : Nat} (hk : k < (sortsOf mediaType).length) {page : Int}
    (hpage : 1 ≤ page) (hlast : page ≤ remaining + 1) :
    (((List.range (k + 1)).map (sweepExchange tmdb mediaType tag asked)
        ++ followExchanges tmdb mediaType tag remaining 2 (asked + (k + 1))).map Prod.fst).count
      ⟨mediaType, page, "popularity.desc", tag⟩ = 1 := by
  rw [List.map_append, queries_sweep]
  refine List.count_eq_one_of_mem (List.nodup_append.2 ⟨nodup_sweep, ?_, ?_⟩) ?_
  · rw [queries_followExchanges]
    refine List.nodup_range.map fun a b hab => ?_
    have := congrArg Query.page hab
    dsimp only at this
    omega
  · intro a ha b hb
    obtain ⟨query, hquery, rfl⟩ := List.mem_map.1 ha
    obtain ⟨i, -, rfl⟩ := mem_queries_followExchanges.1 hb
    rw [List.mem_range] at hquery
    have hone : (sweepQuery mediaType tag query).page = 1 :=
      sweepQuery_page_eq_one.2 (by omega)
    intro heq
    rw [heq] at hone
    dsimp only at hone
    omega
  · rw [List.mem_append]
    by_cases hfirst : page = 1
    · refine .inl (List.mem_map.2 ⟨0, List.mem_range.2 (Nat.succ_pos k), ?_⟩)
      have hzero := @sweepQuery_of_page mediaType tag 0 0 (by omega)
      rw [sortsOf_zero, Nat.zero_mul, Nat.add_zero] at hzero
      rw [hzero, hfirst]
      rfl
    · refine .inr (mem_queries_followExchanges.2 ⟨(page - 2).toNat, by omega, ?_⟩)
      rw [Query.mk.injEq]
      exact ⟨rfl, by omega, rfl, rfl⟩

end Requests

/-! ## What is read -/

section Reads

variable (tmdb : Tmdb) (mediaType : String) (tag : Tag)

/-- An answer to a request for a first page reports this many pages. -/
def Reports (exchanges : List Exchange) (total : ℚ) : Prop :=
  ∃ exchange ∈ exchanges, exchange.1.page = 1 ∧ ∃ response ∈ exchange.2,
    response.totalPages = some total

/-- How many requests a page limit is for. -/
def requestLimit (pageLimit : Int) : Int := pageLimit * (sortsOf mediaType).length

/-- How often a page in a sort order is asked for. -/
def timesAsked (exchanges : List Exchange) (page : Int) (sort : String) : Nat :=
  (exchanges.map Prod.fst).count ⟨mediaType, page, sort, tag⟩

/-- **A keyword's short list is read completely, and the first pages of a long one**, with
these requests. -/
structure ReadsCompletely (pageLimit : Int) (exchanges : List Exchange) (hits : List Hit) :
    Prop where
  short : ∀ total, Reports exchanges total → total ≤ requestLimit mediaType pageLimit →
    ∀ page : Int, 1 ≤ page → page ≤ total → timesAsked mediaType tag exchanges page
      "popularity.desc" = 1
  collected : ∀ exchange ∈ exchanges, ∀ response ∈ exchange.2, ∀ id ∈ response.ids,
    ((mediaType, id), tag) ∈ hits.map Hit.key
  long : (¬ ∃ total, Reports exchanges total ∧ total ≤ requestLimit mediaType pageLimit) →
    ∀ sort ∈ sortsOf mediaType, ∀ page : Int, 1 ≤ page → page ≤ pageLimit →
      timesAsked mediaType tag exchanges page sort = 1
  few : exchanges.length ≤ 2 * (requestLimit mediaType pageLimit).toNat

/-- The number of pages the answer to a query of a sweep reports. -/
def totalOf (asked query : Nat) : Option ℚ :=
  (sweepExchange tmdb mediaType tag asked query).2.bind Page.totalPages

/-- The number of pages the first answer that has one reports, when the first page is asked
for in each sort order. -/
def firstTotal (asked : Nat) : Option ℚ :=
  (List.range (sortsOf mediaType).length).findSome? (totalOf tmdb mediaType tag asked)

/-- The requests of the page limit fit 32 bits, or what the first answer reports makes no
difference: no more pages than that, in 64 bits, or none is reported and the requests fit
64 bits. -/
def Readable (pageLimit : Int) (asked : Nat) : Prop :=
  requestLimit mediaType pageLimit < 2 ^ 31 ∨
    match firstTotal tmdb mediaType tag asked with
    | some total => total ≤ requestLimit mediaType pageLimit ∧ ⌊total⌋ < 2 ^ 63
    | none => requestLimit mediaType pageLimit < 2 ^ 63

end Reads

section Reads

variable {tmdb : Tmdb} {mediaType : String} {tag : Tag} {pageLimit : Int} {asked : Nat}

theorem fixedBy_eq_some {queryMax query : Nat} {total : ℚ} :
    fixedBy tmdb mediaType tag queryMax asked query = some total
      ↔ query < (sortsOf mediaType).length ∧ totalOf tmdb mediaType tag asked query = some total
        ∧ (2 ^ 31 ≤ queryMax ∨ total ≤ queryMax) := by
  unfold fixedBy totalOf Page.fewPages
  cases (sweepExchange tmdb mediaType tag asked query).2 with
  | none => simp
  | some response =>
    rw [Option.bind_some, Option.bind_some, Option.filter_eq_some_iff, decide_eq_true_iff,
      sweepQuery_page_eq_one, and_left_comm]

/-- A request that does not fix the number of pages reports none, or more than there are
requests. -/
theorem lt_of_fixedBy_eq_none {queryMax query : Nat}
    (h : fixedBy tmdb mediaType tag queryMax asked query = none)
    (hquery : query < (sortsOf mediaType).length) {total : ℚ}
    (htotal : totalOf tmdb mediaType tag asked query = some total) :
    queryMax < 2 ^ 31 ∧ (queryMax : ℚ) < total := by
  rw [← not_le, ← not_le, ← not_or]
  intro hfew
  have hfix := fixedBy_eq_some.2 ⟨hquery, htotal, hfew⟩
  rw [h] at hfix
  cases hfix

theorem reports_append {a b : List Exchange} {total : ℚ} :
    Reports (a ++ b) total ↔ Reports a total ∨ Reports b total := by
  simp only [Reports, List.mem_append, or_and_right, exists_or]

theorem reports_sweep {n : Nat} {total : ℚ} :
    Reports ((List.range n).map (sweepExchange tmdb mediaType tag asked)) total
      ↔ ∃ query < n, query < (sortsOf mediaType).length
        ∧ totalOf tmdb mediaType tag asked query = some total := by
  unfold Reports
  constructor
  · rintro ⟨_, hmem, hpage, response, hresponse, htotal⟩
    obtain ⟨query, hquery, rfl⟩ := List.mem_map.1 hmem
    refine ⟨query, List.mem_range.1 hquery, sweepQuery_page_eq_one.1 hpage, ?_⟩
    rw [totalOf, Option.mem_def.1 hresponse]
    exact htotal
  · rintro ⟨query, hquery, hfirst, htotal⟩
    obtain ⟨response, hresponse, htotal⟩ := Option.bind_eq_some_iff.1 htotal
    exact ⟨_, List.mem_map_of_mem (List.mem_range.2 hquery), sweepQuery_page_eq_one.2 hfirst,
      response, hresponse, htotal⟩

theorem not_reports_follow {remaining asked : Nat} {total : ℚ} :
    ¬ Reports (followExchanges tmdb mediaType tag remaining 2 asked) total := by
  rintro ⟨exchange, hmem, hpage, -⟩
  obtain ⟨i, -, hquery⟩ := mem_queries_followExchanges.1 (List.mem_map_of_mem (f := Prod.fst) hmem)
  rw [hquery] at hpage
  dsimp only at hpage
  omega

/-- The exchanges of a run that found a number of pages after so many requests. -/
def fixedExchanges (tmdb : Tmdb) (mediaType : String) (tag : Tag) (asked k : Nat) (total : ℚ) :
    List Exchange :=
  (List.range (k + 1)).map (sweepExchange tmdb mediaType tag asked)
    ++ followExchanges tmdb mediaType tag (jsInt total - 1).toNat 2 (asked + (k + 1))

theorem reports_total {k : Nat} {total : ℚ} (hk : k < (sortsOf mediaType).length)
    (htotal : totalOf tmdb mediaType tag asked k = some total) :
    Reports (fixedExchanges tmdb mediaType tag asked k total) total :=
  reports_append.2 (.inl (reports_sweep.2 ⟨k, Nat.lt_succ_self k, hk, htotal⟩))

/-- Such a run was told of this number of pages, and of larger ones. -/
theorem eq_or_lt_of_reports {queryMax k : Nat} {total total' : ℚ}
    (hbefore : ∀ i < k, fixedBy tmdb mediaType tag queryMax asked i = none)
    (htotal : totalOf tmdb mediaType tag asked k = some total)
    (h : Reports (fixedExchanges tmdb mediaType tag asked k total) total') :
    total' = total ∨ (queryMax < 2 ^ 31 ∧ (queryMax : ℚ) < total') := by
  obtain ⟨i, hi, hfirst, hi'⟩ := reports_sweep.1 ((reports_append.1 h).resolve_right
    not_reports_follow)
  obtain rfl | hlt := (Nat.lt_succ_iff.1 hi).eq_or_lt
  · exact .inl (Option.some.inj (hi'.symm.trans htotal))
  · exact .inr (lt_of_fixedBy_eq_none (hbefore i hlt) hfirst hi')

theorem length_followExchanges {remaining asked : Nat} {page : Int} :
    (followExchanges tmdb mediaType tag remaining page asked).length = remaining := by
  rw [← List.length_map (f := Prod.fst), queries_followExchanges, List.length_map,
    List.length_range]

/-- All the requests of the page limit, where no answer says that there are few pages. -/
theorem readsCompletely_sweep {hits : List Hit}
    (hcollected : ∀ exchange ∈ (List.range (requestLimit mediaType pageLimit).toNat).map
      (sweepExchange tmdb mediaType tag asked), ∀ response ∈ exchange.2, ∀ id ∈ response.ids,
        ((mediaType, id), tag) ∈ hits.map Hit.key)
    (hmany : ∀ total, Reports ((List.range (requestLimit mediaType pageLimit).toNat).map
      (sweepExchange tmdb mediaType tag asked)) total → requestLimit mediaType pageLimit < total) :
    ReadsCompletely mediaType tag pageLimit
      ((List.range (requestLimit mediaType pageLimit).toNat).map
        (sweepExchange tmdb mediaType tag asked)) hits where
  short total htotal hle := absurd hle (not_le.2 (hmany total htotal))
  collected := hcollected
  long := by
    intro _ sort hsort page hpage hlast
    obtain ⟨i, hi, rfl⟩ := List.mem_iff_getElem.1 hsort
    have hquery : sweepQuery mediaType tag
        ((page - 1).toNat * (sortsOf mediaType).length + i)
          = ⟨mediaType, page, (sortsOf mediaType)[i], tag⟩ := by
      rw [sweepQuery_of_page hi, Int.toNat_of_nonneg (by omega), List.getD_eq_getElem?_getD,
        List.getElem?_eq_getElem hi, Int.sub_add_cancel]
      rfl
    unfold timesAsked
    rw [← hquery]
    refine count_sweep ?_
    have hrows : (page - 1 + 1) * (sortsOf mediaType).length
        ≤ pageLimit * (sortsOf mediaType).length :=
      Int.mul_le_mul_of_nonneg_right (by omega) (Int.natCast_nonneg _)
    rw [Int.add_mul, Int.one_mul] at hrows
    unfold requestLimit
    zify
    rw [Int.toNat_of_nonneg (by omega), Int.toNat_of_nonneg (by
      have := Int.mul_nonneg (show 0 ≤ page - 1 by omega)
        (Int.natCast_nonneg (sortsOf mediaType).length)
      omega)]
    omega
  few := by
    rw [List.length_map, List.length_range]
    omega

/-- The pages by popularity, where an answer says there are few. -/
theorem readsCompletely_fixed {hits : List Hit} {k : Nat} {total : ℚ}
    (hk : k < (sortsOf mediaType).length) (hpos : 0 < requestLimit mediaType pageLimit)
    (hcollected : ∀ exchange ∈ fixedExchanges tmdb mediaType tag asked k total,
      ∀ response ∈ exchange.2, ∀ id ∈ response.ids, ((mediaType, id), tag) ∈ hits.map Hit.key)
    (htotal : totalOf tmdb mediaType tag asked k = some total)
    (hle : total ≤ requestLimit mediaType pageLimit) (hfit : ⌊total⌋ < 2 ^ 63)
    (honly : ∀ total', Reports (fixedExchanges tmdb mediaType tag asked k total) total' →
      total' ≤ requestLimit mediaType pageLimit → total' = total) :
    ReadsCompletely mediaType tag pageLimit (fixedExchanges tmdb mediaType tag asked k total)
      hits where
  short := by
    intro total' hreports hle' page hpage hlast
    obtain rfl := honly total' hreports hle'
    have hfloor : page ≤ ⌊total'⌋ := Int.le_floor.2 hlast
    have hint : jsInt total' = ⌊total'⌋ := if_pos ⟨by omega, hfit⟩
    exact count_fixed hk hpage (by omega)
  collected := hcollected
  long hnone := absurd ⟨total, reports_total hk htotal, hle⟩ hnone
  few := by
    have hint : jsInt total ≤ requestLimit mediaType pageLimit := by
      unfold jsInt
      split
      · exact_mod_cast (Int.floor_le total).trans hle
      · exact hpos.le
    have hlimit : 0 < pageLimit := by
      refine lt_of_not_ge fun hneg => ?_
      exact absurd hpos (not_lt.2 (Int.mul_nonpos_of_nonpos_of_nonneg hneg (Int.natCast_nonneg _)))
    have hlength : ((sortsOf mediaType).length : Int) ≤ requestLimit mediaType pageLimit :=
      le_mul_of_one_le_left (Int.natCast_nonneg _) hlimit
    unfold fixedExchanges
    rw [List.length_append, List.length_map, List.length_range, length_followExchanges]
    omega

theorem firstTotal_eq_some {k : Nat} {total : ℚ} (hk : k < (sortsOf mediaType).length)
    (hbefore : ∀ i < k, totalOf tmdb mediaType tag asked i = none)
    (htotal : totalOf tmdb mediaType tag asked k = some total) :
    firstTotal tmdb mediaType tag asked = some total := by
  have hlength : k < (List.range (sortsOf mediaType).length).length := by
    rw [List.length_range]
    exact hk
  have hsplit : List.range (sortsOf mediaType).length
      = List.range k ++ k :: (List.range (sortsOf mediaType).length).drop (k + 1) := by
    refine (List.take_append_drop k _).symm.trans ?_
    rw [List.take_range, min_eq_left hk.le, List.drop_eq_getElem_cons hlength, List.getElem_range]
  refine List.findSome?_eq_some_iff.2 ⟨_, _, _, hsplit, htotal, fun i hi => ?_⟩
  exact hbefore i (List.mem_range.1 hi)

theorem mem_of_timesAsked {exchanges : List Exchange} {page : Int} {sort : String}
    (h : timesAsked mediaType tag exchanges page sort = 1) :
    (⟨mediaType, page, sort, tag⟩ : Query) ∈ exchanges.map Prod.fst := by
  refine List.count_pos_iff.1 ?_
  unfold timesAsked at h
  omega

/-- A run that fixed the number of pages asks for no other page than by popularity. -/
theorem page_of_mem_fixed {k : Nat} {total : ℚ} (hk : k < (sortsOf mediaType).length)
    {query : Query}
    (h : query ∈ (fixedExchanges tmdb mediaType tag asked k total).map Prod.fst) :
    query.page = 1 ∨ query.sort = "popularity.desc" ∧ 1 < jsInt total := by
  unfold fixedExchanges at h
  rw [List.map_append, List.mem_append, queries_sweep, mem_queries_followExchanges] at h
  rcases h with h | ⟨i, hi, rfl⟩
  · obtain ⟨i, hi, rfl⟩ := List.mem_map.1 h
    rw [List.mem_range] at hi
    exact .inl (sweepQuery_page_eq_one.2 (by omega))
  · exact .inr ⟨rfl, by omega⟩

theorem readable_of_sweep (hlarge : 2 ^ 31 ≤ requestLimit mediaType pageLimit)
    (hnone : ∀ i < queryMax pageLimit mediaType,
      fixedBy tmdb mediaType tag (queryMax pageLimit mediaType) asked i = none) :
    Readable tmdb mediaType tag pageLimit asked ↔ requestLimit mediaType pageLimit < 2 ^ 63 := by
  have hlength := length_sortsOf mediaType
  have hmax : 2 ^ 31 ≤ queryMax pageLimit mediaType := by
    unfold queryMax
    unfold requestLimit at hlarge
    omega
  have hfirst : firstTotal tmdb mediaType tag asked = none := by
    refine List.findSome?_eq_none_iff.2 fun i hi => ?_
    rw [List.mem_range] at hi
    refine Option.eq_none_iff_forall_ne_some.2 fun total htotal => ?_
    have := (lt_of_fixedBy_eq_none (hnone i (by omega)) hi htotal).1
    omega
  unfold Readable
  rw [hfirst, or_iff_right (not_lt.2 hlarge)]

theorem readable_of_fixed (hlarge : 2 ^ 31 ≤ requestLimit mediaType pageLimit) {k : Nat} {total : ℚ}
    (hk : k < (sortsOf mediaType).length)
    (hbefore : ∀ i < k,
      fixedBy tmdb mediaType tag (queryMax pageLimit mediaType) asked i = none)
    (htotal : totalOf tmdb mediaType tag asked k = some total) :
    Readable tmdb mediaType tag pageLimit asked
      ↔ total ≤ requestLimit mediaType pageLimit ∧ ⌊total⌋ < 2 ^ 63 := by
  have hmax : 2 ^ 31 ≤ queryMax pageLimit mediaType := by
    unfold queryMax
    unfold requestLimit at hlarge
    omega
  have hfirst := firstTotal_eq_some hk (fun i hi => by
    refine Option.eq_none_iff_forall_ne_some.2 fun total htotal => ?_
    have := (lt_of_fixedBy_eq_none (hbefore i hi) (hi.trans hk) htotal).1
    omega) htotal
  unfold Readable
  rw [hfirst, or_iff_right (not_lt.2 hlarge)]

theorem queryMax_eq (h : requestLimit mediaType pageLimit < 2 ^ 63) :
    queryMax pageLimit mediaType = (requestLimit mediaType pageLimit).toNat := by
  unfold queryMax
  unfold requestLimit at h ⊢
  rw [min_eq_left (by omega)]

/-- A run collects every title of the pages that answered. -/
theorem collected_of_requests (tmdb : Tmdb) (mediaType : String) (tag : Tag) (pageLimit : Int)
    (asked : Nat) (run : Collecting) :
    ∀ exchange ∈ requests tmdb mediaType tag pageLimit asked, ∀ response ∈ exchange.2,
      ∀ id ∈ response.ids, ((mediaType, id), tag) ∈
        ((requests tmdb mediaType tag pageLimit asked).foldl Collecting.hear run).hits.map
          Hit.key := by
  intro exchange hmem response hresponse id hid
  have hquery : exchange.1.mediaType = mediaType ∧ exchange.1.tag = tag := by
    have hsweep : ∀ n, exchange ∈ (List.range n).map (sweepExchange tmdb mediaType tag asked) →
        exchange.1.mediaType = mediaType ∧ exchange.1.tag = tag := by
      intro n hmem
      obtain ⟨i, -, rfl⟩ := List.mem_map.1 hmem
      exact ⟨rfl, rfl⟩
    obtain ⟨-, heq⟩ | ⟨k, -, total, -, -, heq⟩ := requests_cases tmdb mediaType tag pageLimit asked
    · exact hsweep _ (heq ▸ hmem)
    · rcases List.mem_append.1 (heq ▸ hmem) with hmem | hmem
      · exact hsweep _ hmem
      · obtain ⟨i, -, hquery⟩ := mem_queries_followExchanges.1
          (List.mem_map_of_mem (f := Prod.fst) hmem)
        rw [hquery]
        exact ⟨rfl, rfl⟩
  exact mem_hear.2 (.inr ⟨exchange, hmem, response, hresponse, hquery.1.symm, hquery.2.symm, hid⟩)

/-- A run that makes all the requests of the page limit. -/
theorem reads_sweep_iff {hits : List Hit}
    (hnone : ∀ i < queryMax pageLimit mediaType,
      fixedBy tmdb mediaType tag (queryMax pageLimit mediaType) asked i = none)
    (hcollected : ∀ exchange ∈ (List.range (queryMax pageLimit mediaType)).map
      (sweepExchange tmdb mediaType tag asked), ∀ response ∈ exchange.2, ∀ id ∈ response.ids,
        ((mediaType, id), tag) ∈ hits.map Hit.key) :
    ReadsCompletely mediaType tag pageLimit ((List.range (queryMax pageLimit mediaType)).map
        (sweepExchange tmdb mediaType tag asked)) hits
      ↔ Readable tmdb mediaType tag pageLimit asked := by
  have hmany : ∀ total, Reports ((List.range (queryMax pageLimit mediaType)).map
      (sweepExchange tmdb mediaType tag asked)) total →
        queryMax pageLimit mediaType < 2 ^ 31 ∧ (queryMax pageLimit mediaType : ℚ) < total := by
    intro total hreports
    obtain ⟨i, hi, hfirst, htotal⟩ := reports_sweep.1 hreports
    exact lt_of_fixedBy_eq_none (hnone i hi) hfirst htotal
  by_cases hfit : requestLimit mediaType pageLimit < 2 ^ 63
  · refine iff_of_true ?_ ?_
    · rw [queryMax_eq hfit] at hmany hcollected ⊢
      refine readsCompletely_sweep hcollected fun total hreports => ?_
      refine lt_of_le_of_lt ?_ (hmany total hreports).2
      exact_mod_cast Int.self_le_toNat _
    · rcases lt_or_ge (requestLimit mediaType pageLimit) (2 ^ 31) with hsmall | hlarge
      · exact .inl hsmall
      · exact (readable_of_sweep hlarge hnone).2 hfit
  · have hlarge : 2 ^ 31 ≤ requestLimit mediaType pageLimit := by omega
    refine iff_of_false (fun h => ?_) (mt (readable_of_sweep hlarge hnone).1 hfit)
    -- The last page in the last sort order is not asked for.
    have hlength := length_sortsOf mediaType
    have hmax : queryMax pageLimit mediaType = 2 ^ 63 - 1 := by
      unfold queryMax
      unfold requestLimit at hfit
      omega
    have hlast : (sortsOf mediaType).length - 1 < (sortsOf mediaType).length := by omega
    have hlimit : 1 ≤ pageLimit := by
      refine le_of_not_gt fun hneg => ?_
      have := Int.mul_nonpos_of_nonpos_of_nonneg (show pageLimit ≤ 0 by omega)
        (Int.natCast_nonneg (sortsOf mediaType).length)
      unfold requestLimit at hfit
      omega
    have hasked := mem_of_timesAsked (h.long
      (fun ⟨total, hreports, _⟩ => by
        have := (hmany total hreports).1
        omega) _ (List.getElem_mem hlast) pageLimit hlimit le_rfl)
    rw [queries_sweep] at hasked
    obtain ⟨i, hi, hquery⟩ := List.mem_map.1 hasked
    have hform := @sweepQuery_of_page mediaType tag (pageLimit - 1).toNat _ hlast
    rw [List.getD_eq_getElem?_getD, List.getElem?_eq_getElem hlast,
      Int.toNat_of_nonneg (by omega), Int.sub_add_cancel] at hform
    have hindex := sweepQuery_injective (hquery.trans hform.symm)
    obtain ⟨n, hn⟩ := Int.eq_ofNat_of_zero_le (show 0 ≤ pageLimit - 1 by omega)
    obtain rfl : pageLimit = n + 1 := by omega
    unfold requestLimit at hfit
    rw [Int.add_mul, Int.one_mul] at hfit
    rw [Int.add_sub_cancel, Int.toNat_natCast] at hindex
    rw [List.mem_range, hmax] at hi
    zify at hindex
    omega

/-- A run that finds few pages. -/
theorem reads_fixed_iff {hits : List Hit} {k : Nat} {total : ℚ}
    (hk : k < queryMax pageLimit mediaType)
    (hfix : fixedBy tmdb mediaType tag (queryMax pageLimit mediaType) asked k = some total)
    (hbefore : ∀ i < k,
      fixedBy tmdb mediaType tag (queryMax pageLimit mediaType) asked i = none)
    (hcollected : ∀ exchange ∈ fixedExchanges tmdb mediaType tag asked k total,
      ∀ response ∈ exchange.2, ∀ id ∈ response.ids, ((mediaType, id), tag) ∈ hits.map Hit.key) :
    ReadsCompletely mediaType tag pageLimit (fixedExchanges tmdb mediaType tag asked k total) hits
      ↔ Readable tmdb mediaType tag pageLimit asked := by
  obtain ⟨hfirst, htotal, hfew⟩ := fixedBy_eq_some.1 hfix
  have hpos : 0 < requestLimit mediaType pageLimit := by
    unfold queryMax at hk
    unfold requestLimit
    omega
  rcases lt_or_ge (requestLimit mediaType pageLimit) (2 ^ 31) with hsmall | hlarge
  · have hmax := queryMax_eq (hsmall.trans (by decide))
    have hcast : (queryMax pageLimit mediaType : ℚ) = requestLimit mediaType pageLimit := by
      rw [hmax]
      exact_mod_cast Int.toNat_of_nonneg hpos.le
    have hle : total ≤ requestLimit mediaType pageLimit :=
      hcast ▸ hfew.resolve_left (by omega)
    have hfloor : ⌊total⌋ ≤ requestLimit mediaType pageLimit := by
      exact_mod_cast (Int.floor_le total).trans hle
    refine iff_of_true ?_ (.inl hsmall)
    refine readsCompletely_fixed hfirst hpos hcollected htotal hle (by omega)
      fun total' hreports hle' => ?_
    refine (eq_or_lt_of_reports hbefore htotal hreports).resolve_right fun hlt => ?_
    exact absurd (hcast ▸ hle') (not_le.2 hlt.2)
  · have hmax : 2 ^ 31 ≤ queryMax pageLimit mediaType := by
      unfold queryMax
      unfold requestLimit at hlarge
      omega
    have honly : ∀ total', Reports (fixedExchanges tmdb mediaType tag asked k total) total' →
        total' = total := fun total' hreports =>
      (eq_or_lt_of_reports hbefore htotal hreports).resolve_right fun hlt => by omega
    rw [readable_of_fixed hlarge hfirst hbefore htotal]
    constructor
    · intro h
      have hle : total ≤ requestLimit mediaType pageLimit := by
        -- A long list is asked for in every sort order.
        by_contra hmany
        have hlimit : 2 ≤ pageLimit := by
          have hlength := length_sortsOf mediaType
          unfold requestLimit at hlarge
          by_contra hlow
          have := Int.mul_le_mul_of_nonneg_right (show pageLimit ≤ 1 by omega)
            (Int.natCast_nonneg (sortsOf mediaType).length)
          omega
        have hasked := mem_of_timesAsked (h.long
          (fun ⟨total', hreports, hle'⟩ => hmany (honly total' hreports ▸ hle'))
          _ (mem_sortsOf mediaType) 2 (by decide) hlimit)
        rcases page_of_mem_fixed hfirst hasked with hpage | ⟨hsort, -⟩
        · exact absurd hpage (show (2 : Int) ≠ 1 by decide)
        · exact absurd hsort (show "popularity.asc" ≠ "popularity.desc" by decide)
      refine ⟨hle, ?_⟩
      by_contra hfit
      have htwo : ((2 : Int) : ℚ) ≤ total := Int.le_floor.1 (by omega)
      have hasked := mem_of_timesAsked (h.short total (reports_total hfirst htotal) hle 2
        (by decide) htwo)
      have hint : jsInt total = 0 := if_neg fun hin => hfit hin.2
      rcases page_of_mem_fixed hfirst hasked with hpage | ⟨-, hfollow⟩
      · exact absurd hpage (show (2 : Int) ≠ 1 by decide)
      · rw [hint] at hfollow
        exact absurd hfollow (by decide)
    · rintro ⟨hle, hfit⟩
      exact readsCompletely_fixed hfirst hpos hcollected htotal hle hfit
        fun total' hreports _ => honly total' hreports

/-- **A run that is not cancelled ends, and reads a keyword's short list completely (or the
first pages of a long one) exactly where its requests fit 32 bits, or no answer makes the
difference.** -/
theorem reads_completely_iff (tmdb : Tmdb) (mediaType : String) (tag : Tag) (pageLimit : Int)
    (run : Collecting)
    (h : Uncancelled tmdb run.asked (requests tmdb mediaType tag pageLimit run.asked).length) :
    ∃ run', processTag tmdb pageLimit tag run mediaType = .ok run'
      ∧ (ReadsCompletely mediaType tag pageLimit
          (requests tmdb mediaType tag pageLimit run.asked) run'.hits
        ↔ Readable tmdb mediaType tag pageLimit run.asked) := by
  refine ⟨_, processTag_eq h, ?_⟩
  have hcollected := collected_of_requests tmdb mediaType tag pageLimit run.asked run
  obtain ⟨hnone, heq⟩ | ⟨k, hk, total, hfix, hbefore, heq⟩ :=
    requests_cases tmdb mediaType tag pageLimit run.asked
  · rw [heq] at hcollected ⊢
    exact reads_sweep_iff hnone hcollected
  · rw [heq] at hcollected ⊢
    exact reads_fixed_iff hk hfix hbefore hcollected

end Reads

/-- A keyword with one page of series. -/
theorem reads_completely_sample : ∃ run', processTag sampleTmdb 1 ['7'] {} "tv" = .ok run'
    ∧ (ReadsCompletely "tv" ['7'] 1 (requests sampleTmdb "tv" ['7'] 1 0) run'.hits
      ↔ Readable sampleTmdb "tv" ['7'] 1 0) :=
  reads_completely_iff sampleTmdb "tv" ['7'] 1 {} fun _ _ => rfl

/-- Every first page says there are more pages than a limit of 153391690 pages has requests,
of 14 sort orders each. -/
def longTmdb : Tmdb where
  keyword _ _ := .known
  page _ _ := some ⟨some [], some 2147483661⟩
  cancelled _ := false

/-- **A list longer than the requests is read as a short one.** -/
theorem long_list_read_as_short : ¬ ∃ run',
    processTag longTmdb 153391690 ['7'] {} "movie" = .ok run'
      ∧ ReadsCompletely "movie" ['7'] 153391690 (requests longTmdb "movie" ['7'] 153391690 0)
        run'.hits := by
  rintro ⟨run', hdone, hreads⟩
  rw [@processTag_eq longTmdb "movie" ['7'] {} 153391690 fun _ _ => rfl] at hdone
  obtain rfl := Except.ok.inj hdone
  have hlimit : requestLimit "movie" 153391690 = 2147483660 := by decide
  have hfix : fixedBy longTmdb "movie" ['7'] (queryMax 153391690 "movie") 0 0
      = some 2147483661 :=
    fixedBy_eq_some.2 ⟨by decide, rfl, .inl (by decide)⟩
  have hbefore : ∀ i < 0, fixedBy longTmdb "movie" ['7'] (queryMax 153391690 "movie") 0 i = none :=
    fun i hi => absurd hi (Nat.not_lt_zero i)
  have hcollected := collected_of_requests longTmdb "movie" ['7'] 153391690 0 {}
  have heq : requests longTmdb "movie" ['7'] 153391690 0
      = fixedExchanges longTmdb "movie" ['7'] 0 0 2147483661 := by
    obtain ⟨hnone, -⟩ | ⟨k, -, total, hfix', hnone, heq⟩ :=
      requests_cases longTmdb "movie" ['7'] 153391690 0
    · exact absurd (hfix.symm.trans (hnone 0 (by decide))) nofun
    · cases k with
      | zero =>
        obtain rfl := Option.some.inj (hfix'.symm.trans hfix)
        exact heq
      | succ k => exact absurd (hfix.symm.trans (hnone 0 (Nat.succ_pos k))) nofun
  rw [heq] at hcollected hreads
  have hread := (reads_fixed_iff (by decide) hfix hbefore hcollected).1 hreads
  have hle := ((readable_of_fixed (by rw [hlimit]; decide) (by decide) hbefore rfl).1 hread).1
  rw [hlimit] at hle
  norm_num at hle

end Foreseerr.BlocklistedTags

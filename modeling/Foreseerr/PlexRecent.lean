import Mathlib.Data.List.Sort
import Foreseerr.Run
import Foreseerr.Windows

/-!
# The recently added items of a Plex library

`plexscan.rs` asks a library for what was added since `lastScan`, less ten minutes, and
stamps `lastScan` once everything it was told of is processed. So the next window begins
ten minutes before the *end* of a scan, while the scan saw what was there at its *fetch*:
the look-back pays for the processing, and what is added in a longer one's first minutes
no scan asks for (`PlexRecent.misses_nothing_iff`).
-/

namespace Foreseerr

namespace PlexRecent

/-! ## The scan -/

/-- An item as a library lists it; `addedAt` is in seconds. -/
structure Item where
  grandparentRatingKey : Option String := none
  parentRatingKey : Option String := none
  ratingKey : Option String := none
  addedAt : Int := 0
deriving DecidableEq, Repr

/-- `js_truthy` of a rating key. -/
def truthy (key : Option String) : Bool := key.any (· ≠ "")

/-- `same_group`: same show, same season, or same item. -/
def sameGroup (a b : Item) : Bool :=
  if truthy a.grandparentRatingKey && truthy b.grandparentRatingKey then
    a.grandparentRatingKey == b.grandparentRatingKey
  else if truthy a.parentRatingKey && truthy b.parentRatingKey then
    a.parentRatingKey == b.parentRatingKey
  else a.ratingKey == b.ratingKey

/-- `show_key`: what an item is processed under. -/
def showKey (item : Item) : String :=
  ((item.grandparentRatingKey.or item.parentRatingKey).or item.ratingKey).getD ""

/-- `uniq_with`. -/
def uniqWith {α : Type*} (same : α → α → Bool) (items : List α) : List α :=
  items.foldl (fun out item => if out.any (same item) then out else out ++ [item]) []

/-- What is added to a library, in time. A library of shows lists episodes, each under
its show; one of movies lists movies alone. -/
structure Library where
  items : List Item
  uniform : (∀ item ∈ items, truthy item.grandparentRatingKey = true)
    ∨ ∀ item ∈ items, item.grandparentRatingKey = none ∧ item.parentRatingKey = none

/-- What the library lists at a time as added after `since`. -/
def Library.addedAfter (library : Library) (since now : Int) : List Item :=
  library.items.filter fun item => since < item.addedAt ∧ item.addedAt * 1000 ≤ now

/-- `recently_added`: the first 500 of what is listed, the latest first. -/
def Library.Answers (library : Library) (addedAtMs now : Int) (answer : List Item) : Prop :=
  ∃ listing : List Item, listing.Perm (library.addedAfter (addedAtMs / 1000) now)
    ∧ listing.Pairwise (fun a b => b.addedAt ≤ a.addedAt) ∧ answer = listing.take 500

/-- `added`: since when a scan started at `now` asks. -/
def addedSince (lastScan : Option Int) (now : Int) : Int :=
  match lastScan.filter (· ≠ 0) with
  | none => now - 60 * 60 * 1000
  | some last => last - 10 * 60 * 1000

/-- When a scan starts, when Plex answers it, and when it writes `lastScan`. -/
structure Timing where
  started : Int
  fetched : Int
  ended : Int
deriving DecidableEq, Repr

/-- A successful scan, with what Plex answered. -/
structure Scan extends Timing where
  answer : List Item
deriving DecidableEq, Repr

/-- The items the scan processes: each of what it was told of, one of a group. -/
def Scan.processed (scan : Scan) : List Item := uniqWith sameGroup scan.answer

/-- The library's stamp and the time. No stamp is from the future. -/
structure State where
  lastScan : Option Int
  clock : Int
  positive : 0 < clock
  stamped : ∀ last ∈ lastScan, last ≤ clock

/-- `recent`: one scan, with at most 500 items in its window. -/
def Step (library : Library) (s : State) (scan : Scan) (t : State) : Prop :=
  s.clock ≤ scan.started ∧ scan.started ≤ scan.fetched ∧ scan.fetched ≤ scan.ended
    ∧ (library.addedAfter (addedSince s.lastScan scan.started / 1000) scan.fetched).length ≤ 500
    ∧ library.Answers (addedSince s.lastScan scan.started) scan.fetched scan.answer
    ∧ t.lastScan = some scan.ended ∧ t.clock = scan.ended

/-- Everything added after the start of the first window and by the last fetch is in some
scan's answer, and its show or movie is processed by that scan. -/
def MissesNothing (library : Library) (s : State) (scans : List Scan) : Prop :=
  ∀ first ∈ scans.head?, ∀ last ∈ scans.getLast?, ∀ item ∈ library.items,
    addedSince s.lastScan first.started < item.addedAt * 1000 →
      item.addedAt * 1000 ≤ last.fetched →
        ∃ scan ∈ scans, item ∈ scan.answer ∧ ∃ kept ∈ scan.processed, showKey kept = showKey item

/-- Scans one after the other, from a time on. -/
def Timed : Int → List Timing → Prop
  | _, [] => True
  | now, a :: rest =>
    now ≤ a.started ∧ a.started ≤ a.fetched ∧ a.fetched ≤ a.ended ∧ Timed a.ended rest

/-! ## Grouping -/

section Grouping

variable {α : Type*} {same : α → α → Bool}

/-- What is left out is the same as something kept. -/
theorem mem_uniqWith (same : α → α → Bool) {items : List α} {a : α} (ha : a ∈ items) :
    ∃ kept ∈ uniqWith same items, kept = a ∨ same a kept = true := by
  unfold uniqWith
  induction items using List.reverseRecOn with
  | nil => cases ha
  | append_singleton items b ih =>
    rw [List.foldl_append]
    simp only [List.foldl_cons, List.foldl_nil]
    rcases List.mem_append.mp ha with ha | ha
    · obtain ⟨kept, hkept, hsame⟩ := ih ha
      split
      · exact ⟨kept, hkept, hsame⟩
      · exact ⟨kept, List.mem_append_left _ hkept, hsame⟩
    · obtain rfl := List.mem_singleton.mp ha
      split
      · next hany =>
        obtain ⟨kept, hkept, hsame⟩ := List.any_eq_true.mp hany
        exact ⟨kept, hkept, .inr hsame⟩
      · exact ⟨a, List.mem_append_right _ (List.mem_singleton_self a), .inl rfl⟩

theorem mem_of_mem_uniqWith {items : List α} {a : α} (ha : a ∈ uniqWith same items) :
    a ∈ items := by
  unfold uniqWith at ha
  induction items using List.reverseRecOn with
  | nil => cases ha
  | append_singleton items b ih =>
    rw [List.foldl_append] at ha
    change a ∈ (if _ then _ else _) at ha
    split at ha
    · exact List.mem_append_left _ (ih ha)
    · rcases List.mem_append.mp ha with ha | ha
      · exact List.mem_append_left _ (ih ha)
      · exact List.mem_append_right _ ha

/-- Items of a library in one group are processed under one key. -/
theorem Library.showKey_eq (library : Library) {a b : Item} (ha : a ∈ library.items)
    (hb : b ∈ library.items) (hsame : sameGroup a b = true) : showKey b = showKey a := by
  rcases library.uniform with hshows | hmovies
  · have hga := hshows a ha
    have hgb := hshows b hb
    simp only [sameGroup, hga, hgb, Bool.and_self, if_true, beq_iff_eq] at hsame
    cases hkey : a.grandparentRatingKey with
    | none => simp [truthy, hkey] at hga
    | some key => simp [showKey, ← hsame, hkey]
  · obtain ⟨hga, hpa⟩ := hmovies a ha
    obtain ⟨hgb, hpb⟩ := hmovies b hb
    simp only [sameGroup, hga, hgb, hpa, hpb, truthy, Option.any_none, Bool.and_self,
      Bool.false_eq_true, if_false, beq_iff_eq] at hsame
    simp [showKey, hga, hgb, hpa, hpb, hsame]

end Grouping

/-! ## The windows of a run -/

/-- The windows of scans of these timings, in seconds. -/
def windows : Option Int → List Timing → List Window
  | _, [] => []
  | lastScan, a :: rest =>
    ⟨addedSince lastScan a.started / 1000 + 1, a.fetched / 1000⟩ :: windows (some a.ended) rest

theorem addedSince_le {lastScan : Option Int} {now : Int} (hstamped : ∀ last ∈ lastScan, last ≤ now) :
    addedSince lastScan now ≤ now - 600000 := by
  unfold addedSince
  split
  · omega
  · next last hlast =>
    have hle := hstamped last (Option.filter_eq_some_iff.mp hlast).1
    omega

theorem addedSince_of_pos {last now : Int} (hpos : 0 < last) :
    addedSince (some last) now = last - 600000 := by
  have hstamp : (some last).filter (· ≠ 0) = some last := by
    simpa using hpos.ne'
  rw [addedSince, hstamp]
  rfl

/-- The windows after a scan begin and end no earlier than its own look-back and end. -/
theorem le_windows {now : Int} (hpos : 0 < now) {timings : List Timing} (htimed : Timed now timings) :
    ∀ w ∈ windows (some now) timings, (now - 600000) / 1000 + 1 ≤ w.first ∧ now / 1000 ≤ w.last := by
  induction timings generalizing now with
  | nil => exact fun w hw => absurd hw List.not_mem_nil
  | cons a rest ih =>
    obtain ⟨hstarted, hfetched, hended, hrest⟩ := htimed
    intro w hw
    rcases List.mem_cons.mp hw with rfl | hw
    · rw [addedSince_of_pos hpos]
      constructor <;> dsimp only <;> omega
    · have hlater := ih (by omega) hrest w hw
      omega

theorem windows_movesOn (lastScan : Option Int) {now : Int} (hpos : 0 < now)
    (hstamped : ∀ last ∈ lastScan, last ≤ now) {timings : List Timing} (htimed : Timed now timings) :
    (windows lastScan timings).Pairwise Window.MovesOn
      ∧ ∀ w ∈ windows lastScan timings, w.first ≤ w.last := by
  induction timings generalizing lastScan now with
  | nil => exact ⟨.nil, fun w hw => absurd hw List.not_mem_nil⟩
  | cons a rest ih =>
    obtain ⟨hstarted, hfetched, hended, hrest⟩ := htimed
    have hfrom := addedSince_le fun last hlast => (hstamped last hlast).trans hstarted
    obtain ⟨hmoves, hspan⟩ := ih (some a.ended) (by omega)
      (fun last hlast => (Option.some.inj hlast).ge) hrest
    refine ⟨.cons (fun w hw => ?_) hmoves, fun w hw => ?_⟩
    · obtain ⟨hfirst, hlast⟩ := le_windows (by omega) hrest w hw
      constructor <;> dsimp only <;> omega
    · rcases List.mem_cons.mp hw with rfl | hw
      · dsimp only
        omega
      · exact hspan w hw

/-- The windows join where every scan but the last ends within its look-back. -/
theorem windows_joins_iff (lastScan : Option Int) {now : Int} (hpos : 0 < now)
    {timings : List Timing} (htimed : Timed now timings) :
    (windows lastScan timings).IsChain Window.Joins
      ↔ ∀ a ∈ timings.dropLast, a.ended / 1000 ≤ a.fetched / 1000 + 600 := by
  induction timings generalizing lastScan now with
  | nil => simp [windows]
  | cons a rest ih =>
    obtain ⟨hstarted, hfetched, hended, hrest⟩ := htimed
    cases rest with
    | nil => simp [windows]
    | cons b rest =>
      have hjoins : Window.Joins
            ⟨addedSince lastScan a.started / 1000 + 1, a.fetched / 1000⟩
            ⟨addedSince (some a.ended) b.started / 1000 + 1, b.fetched / 1000⟩
          ↔ a.ended / 1000 ≤ a.fetched / 1000 + 600 := by
        rw [addedSince_of_pos (by omega)]
        show (a.ended - 600000) / 1000 + 1 ≤ a.fetched / 1000 + 1 ↔ _
        omega
      rw [List.dropLast_cons_cons, List.forall_mem_cons, ← ih (some a.ended) (by omega)
        hrest, ← hjoins]
      exact List.isChain_cons_cons

theorem getLast_windows (lastScan : Option Int) (a : Timing) (rest : List Timing) :
    ((windows lastScan (a :: rest)).getLast (List.cons_ne_nil _ _)).last
      = ((a :: rest).getLast (List.cons_ne_nil a rest)).fetched / 1000 := by
  induction rest generalizing lastScan a with
  | nil => rfl
  | cons b rest ih => exact ih (some a.ended) b

/-! ## What the scans of a run are told -/

section Runs

variable {library : Library} {s t : State} {scans : List Scan}

/-- With at most 500 items in its window, a scan is told of all of them. -/
theorem mem_answer_iff {scan : Scan} (h : Step library s scan t) {item : Item} :
    item ∈ scan.answer
      ↔ item ∈ library.items ∧ addedSince s.lastScan scan.started / 1000 < item.addedAt
        ∧ item.addedAt * 1000 ≤ scan.fetched := by
  obtain ⟨-, -, -, hlength, ⟨listing, hperm, -, hanswer⟩, -⟩ := h
  rw [hanswer, List.take_of_length_le (hperm.length_eq ▸ hlength), hperm.mem_iff]
  simp [Library.addedAfter]

/-- An item is in some scan's answer where it is in a window of the run. -/
theorem told_iff (h : Run (Step library) s scans t) {item : Item} (hitem : item ∈ library.items) :
    (∃ scan ∈ scans, item ∈ scan.answer)
      ↔ Window.Covered (windows s.lastScan (scans.map (·.toTiming))) item.addedAt := by
  induction h with
  | nil => simp [windows, Window.Covered]
  | @cons s u t scan scans hstep _ ih =>
    have hlastScan : u.lastScan = some scan.ended := hstep.2.2.2.2.2.1
    have hspan : item ∈ scan.answer ↔ item.addedAt ∈ Window.span
        ⟨addedSince s.lastScan scan.started / 1000 + 1, scan.fetched / 1000⟩ := by
      rw [mem_answer_iff hstep]
      show _ ↔ _ ≤ _ ∧ _ ≤ _
      simp only [hitem, true_and]
      omega
    rw [List.map_cons, windows, Window.covered_cons, ← hlastScan, ← ih, ← hspan]
    simp

/-- What a scan is told of, it processes under its key. -/
theorem exists_processed (h : Run (Step library) s scans t) {scan : Scan} (hscan : scan ∈ scans)
    {item : Item} (hitem : item ∈ scan.answer) :
    ∃ kept ∈ scan.processed, showKey kept = showKey item := by
  have hanswer : ∀ item ∈ scan.answer, item ∈ library.items := by
    clear hitem
    induction h with
    | nil => cases hscan
    | cons hstep _ ih =>
      rcases List.mem_cons.mp hscan with rfl | hscan
      · exact fun item hitem => ((mem_answer_iff hstep).mp hitem).1
      · exact ih hscan
  obtain ⟨kept, hkept, rfl | hsame⟩ := mem_uniqWith sameGroup hitem
  · exact ⟨kept, hkept, rfl⟩
  · exact ⟨kept, hkept, library.showKey_eq (hanswer item hitem)
      (hanswer kept (mem_of_mem_uniqWith hkept)) hsame⟩

/-- Scans of a small library at any times. -/
theorem exists_run (s : State) (hsmall : library.items.length ≤ 500) {timings : List Timing}
    (htimed : Timed s.clock timings) :
    ∃ scans t, Run (Step library) s scans t ∧ scans.map (·.toTiming) = timings := by
  induction timings generalizing s with
  | nil => exact ⟨[], s, .nil s, rfl⟩
  | cons a rest ih =>
    obtain ⟨hstarted, hfetched, hended, hrest⟩ := htimed
    have hpos : 0 < a.ended := by
      have := s.positive
      omega
    let u : State := ⟨some a.ended, a.ended, hpos, fun last hlast => (Option.some.inj hlast).ge⟩
    obtain ⟨scans, t, hrun, htimings⟩ := ih u hrest
    let window := library.addedAfter (addedSince s.lastScan a.started / 1000) a.fetched
    let listing := window.mergeSort fun a b => decide (b.addedAt ≤ a.addedAt)
    have hlength : window.length ≤ 500 := (List.length_filter_le ..).trans hsmall
    have hsorted : listing.Pairwise fun a b => b.addedAt ≤ a.addedAt := by
      let le : Item → Item → Bool := fun a b => decide (b.addedAt ≤ a.addedAt)
      have h : (window.mergeSort le).Pairwise fun a b => le a b = true := List.pairwise_mergeSort
        (fun a b c hab hbc => by simp only [le, decide_eq_true_eq] at *; omega)
        (fun a b => by simp only [le, Bool.or_eq_true, decide_eq_true_eq]; omega) window
      simpa [le] using h
    have hanswers : library.Answers (addedSince s.lastScan a.started) a.fetched (listing.take 500) :=
      ⟨listing, List.mergeSort_perm window _, hsorted, rfl⟩
    refine ⟨⟨a, listing.take 500⟩ :: scans, t, .cons ?_ hrun, by rw [List.map_cons, htimings]⟩
    exact ⟨hstarted, hfetched, hended, hlength, hanswers, rfl, rfl⟩

/-- The first and the last scan of a run that has some. -/
theorem exists_ends {a : Timing} {rest : List Timing}
    (htimings : scans.map (·.toTiming) = a :: rest) :
    ∃ first last, scans.head? = some first ∧ scans.getLast? = some last
      ∧ first.toTiming = a ∧ last.toTiming = (a :: rest).getLast (List.cons_ne_nil a rest) := by
  obtain ⟨first, more, rfl⟩ : ∃ first more, scans = first :: more :=
    List.exists_cons_of_ne_nil fun h => by simp [h] at htimings
  refine ⟨first, (first :: more).getLast (List.cons_ne_nil _ _), rfl,
    List.getLast?_eq_some_getLast _, (List.cons.inj htimings).1, ?_⟩
  simp only [← htimings, List.getLast_map]

end Runs

/-! ## What is missed -/

/-- **Scans miss nothing, whatever is added and whenever,** exactly when every scan but
the last ends within ten minutes, in whole seconds, of its fetch. -/
theorem misses_nothing_iff (s : State) {timings : List Timing} (htimed : Timed s.clock timings) :
    (∀ library scans t, Run (Step library) s scans t → scans.map (·.toTiming) = timings →
        MissesNothing library s scans)
      ↔ ∀ a ∈ timings.dropLast, a.ended / 1000 ≤ a.fetched / 1000 + 600 := by
  cases timings with
  | nil =>
    refine ⟨fun _ a ha => absurd ha List.not_mem_nil, fun _ library scans t _ hnil first hfirst => ?_⟩
    rw [List.map_eq_nil_iff.mp hnil] at hfirst
    cases hfirst
  | cons a rest =>
    obtain ⟨hmoves, hspan⟩ := windows_movesOn s.lastScan s.positive s.stamped htimed
    rw [← windows_joins_iff s.lastScan s.positive htimed]
    refine Iff.trans ?_ (Window.covered_iff_isChain hmoves hspan)
    have hlastWindow := getLast_windows s.lastScan a rest
    simp only [windows] at hlastWindow
    rw [hlastWindow]
    constructor
    · intro hmisses x hfirst hlast
      -- A library to which one episode is added, at `x`.
      let item : Item := { grandparentRatingKey := some "show", addedAt := x }
      let library : Library := ⟨[item], .inl (by simp [item, truthy])⟩
      have hitem : item ∈ library.items := List.mem_singleton_self item
      have hsmall : library.items.length ≤ 500 := by simp [library]
      obtain ⟨scans, t, hrun, htimings⟩ := exists_run s hsmall htimed
      obtain ⟨first, last, hhead, hend, hbegins, hends⟩ := exists_ends htimings
      have hfrom : addedSince s.lastScan first.started < item.addedAt * 1000 := by
        rw [hbegins]
        show _ < x * 1000
        dsimp only at hfirst
        omega
      have hto : item.addedAt * 1000 ≤ last.fetched := by
        rw [hends]
        show x * 1000 ≤ _
        omega
      obtain ⟨scan, hscan, hanswer, -⟩ :=
        hmisses library scans t hrun htimings first hhead last hend item hitem hfrom hto
      have hcovered := (told_iff hrun hitem).mp ⟨scan, hscan, hanswer⟩
      rwa [htimings] at hcovered
    · intro hcovered library scans t hrun htimings first hhead last hend item hitem hfrom hto
      obtain ⟨first', last', hhead', hend', hbegins, hends⟩ := exists_ends htimings
      obtain rfl : first' = first := Option.some.inj (hhead'.symm.trans hhead)
      obtain rfl : last' = last := Option.some.inj (hend'.symm.trans hend)
      rw [hbegins] at hfrom
      rw [hends] at hto
      have htold := (told_iff hrun hitem).mpr
      rw [htimings] at htold
      obtain ⟨scan, hscan, hanswer⟩ := htold (hcovered _ (by dsimp only; omega) (by omega))
      exact ⟨scan, hscan, hanswer, exists_processed hrun hscan hanswer⟩

/-- Two scans a minute apart, each over within the minute, miss nothing. -/
theorem misses_nothing_quick :
    (∀ library scans t, Run (Step library) ⟨none, 1000, by decide, by simp⟩ scans t →
        scans.map (·.toTiming) = [⟨1000, 2000, 3000⟩, ⟨60000, 61000, 62000⟩] →
        MissesNothing library ⟨none, 1000, by decide, by simp⟩ scans)
      ↔ ∀ a ∈ [(⟨1000, 2000, 3000⟩ : Timing), ⟨60000, 61000, 62000⟩].dropLast,
          a.ended / 1000 ≤ a.fetched / 1000 + 600 :=
  misses_nothing_iff _ (by simp [Timed])

/-! ### A long scan -/

/-- A library to which an episode is added five minutes into a scan. -/
def library : Library where
  items := [{ grandparentRatingKey := some "1", ratingKey := some "3", addedAt := 1000300 }]
  uniform := .inl (by decide)

/-- Scanned before. -/
def start : State := ⟨some 1000000000, 1000000000, by decide, by simp⟩

/-- A scan that takes twenty minutes to process what it was told of. -/
def longScan : Scan := ⟨⟨1000000000, 1000000000, 1001200000⟩, []⟩

/-- The scan five minutes later. -/
def nextScan : Scan := ⟨⟨1001500000, 1001500000, 1001500000⟩, []⟩

/-- **What is added early in a long scan is missed**: it came after the fetch, and before
the next window. -/
theorem added_during_long_scan :
    Run (Step library) start [longScan, nextScan]
        ⟨some 1001500000, 1001500000, by decide, by simp⟩
      ∧ ¬ MissesNothing library start [longScan, nextScan] := by
  have hanswers : ∀ since now, library.addedAfter (since / 1000) now = [] →
      library.Answers since now [] := by
    intro since now hnone
    exact ⟨[], hnone ▸ .refl _, .nil, rfl⟩
  constructor
  · have hlong : Step library start longScan ⟨some 1001200000, 1001200000, by decide, by simp⟩ :=
      ⟨by decide, by decide, by decide, by decide, hanswers _ _ (by decide), rfl, rfl⟩
    have hnext : Step library ⟨some 1001200000, 1001200000, by decide, by simp⟩ nextScan
        ⟨some 1001500000, 1001500000, by decide, by simp⟩ :=
      ⟨by decide, by decide, by decide, by decide, hanswers _ _ (by decide), rfl, rfl⟩
    exact .cons hlong (.single hnext)
  · intro hmisses
    obtain ⟨scan, hscan, hanswer, -⟩ := hmisses longScan rfl nextScan rfl _
      (List.mem_singleton_self _) (by decide) (by decide)
    simp only [List.mem_cons, List.not_mem_nil, or_false] at hscan
    rcases hscan with rfl | rfl <;> cases hanswer

end PlexRecent

end Foreseerr

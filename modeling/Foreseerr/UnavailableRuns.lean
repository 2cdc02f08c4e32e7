import Foreseerr.DateReading
import Foreseerr.IntTexts
import Mathlib.Algebra.BigOperators.Ring.List
import Mathlib.Algebra.Order.BigOperators.Group.List
import Mathlib.Data.List.Destutter
import Mathlib.Data.List.Sort
import Mathlib.Data.Prod.Lex

/-!
# Lists of what is unavailable

`runs`, `episode_ranges`, `season_ranges` and `capped` of `lifecycle.rs`: the episodes or
seasons a request could not get, as one field of a notification. They are sorted, made into
runs of consecutive numbers of one season, and the runs are named one after another as long
as the text stays short; of the others only the items are counted.

The runs hold exactly the items, with a gap between any two of a season (`runs_spec`), so a
sum over some of them counts the items in them, and none of the sums overflows. The text
names the first of them and counts the rest (`unavailable_lists_account`).
-/

namespace Foreseerr

namespace UnavailableRuns

/-! ## The code -/

/-- A run of consecutive numbers of one key. -/
structure NumberRun (κ : Type) where
  key : κ
  first : Int
  last : Int
deriving DecidableEq

variable {κ : Type} [LinearOrder κ]

/-- `sort_unstable` and `dedup`. -/
def sortedDistinct (items : List (κ × Int)) : List (κ × Int) :=
  (((items.map toLex).insertionSort (· ≤ ·)).destutter (· ≠ ·)).map ofLex

/-- One round of the loop of `runs`, on the runs from the last to the first. -/
def extend : List (NumberRun κ) → κ × Int → Except Overflow (List (NumberRun κ))
  | [], (key, number) => .ok [⟨key, number, number⟩]
  | run :: done, (key, number) =>
    if run.key = key then do
      let next ← i64 (run.last + 1)
      .ok (if next = number then { run with last := number } :: done
        else ⟨key, number, number⟩ :: run :: done)
    else .ok (⟨key, number, number⟩ :: run :: done)

/-- `runs`. -/
def runs (items : List (κ × Int)) : Except Overflow (List (NumberRun κ)) := do
  .ok (← (sortedDistinct items).foldlM extend []).reverse

/-- `EXTRA_MAX`. -/
def extraMax : Nat := 400

/-- `{:02}`. -/
def twoDigits (n : Int) : String :=
  if 0 ≤ n ∧ n < 10 then "0" ++ n.repr else n.repr

/-- A run of episodes. -/
def episodeName (run : NumberRun Int) : String :=
  if run.first = run.last then "S" ++ twoDigits run.key ++ "E" ++ twoDigits run.first
  else "S" ++ twoDigits run.key ++ "E" ++ twoDigits run.first ++ "–E" ++ twoDigits run.last

/-- A run of seasons. -/
def seasonName (run : NumberRun Unit) : String :=
  if run.first = run.last then run.first.repr else run.first.repr ++ "–" ++ run.last.repr

omit [LinearOrder κ] in
/-- A run's name, and how many items it stands for. -/
def part (name : NumberRun κ → String) (run : NumberRun κ) : Except Overflow (String × Int) := do
  let span ← i64 (run.last - run.first)
  let count ← i64 (span + 1)
  .ok (name run, count)

/-- The end of a text that stops before `rest` items. -/
def moreText (nouns : String × String) (rest : Int) : String :=
  " and " ++ rest.repr ++ " more " ++ if rest = 1 then nouns.1 else nouns.2

/-- The loop of `capped`, with the text so far. -/
def cappedFrom (nouns : String × String) : String → List (String × Int) → Except Overflow String
  | out, [] => .ok out
  | out, (text, count) :: parts =>
    if out ≠ "" ∧ out.utf8ByteSize + 2 + text.utf8ByteSize > extraMax then do
      let rest ← ((text, count) :: parts).foldlM (fun sum part => i64 (sum + part.2)) 0
      .ok (out ++ moreText nouns rest)
    else cappedFrom nouns ((if out ≠ "" then out ++ ", " else out) ++ text) parts

/-- `capped`. -/
def capped (parts : List (String × Int)) (nouns : String × String) : Except Overflow String :=
  cappedFrom nouns "" parts

/-- `episode_ranges`. -/
def episodeRanges (episodes : List (Int × Int)) : Except Overflow String := do
  let runs ← runs episodes
  let parts ← runs.mapM (part episodeName)
  capped parts ("episode", "episodes")

/-- `season_ranges`. -/
def seasonRanges (seasons : List Int) : Except Overflow String := do
  let runs ← runs (seasons.map fun season => ((), season))
  let parts ← runs.mapM (part seasonName)
  capped parts ("season", "seasons")

example : seasonRanges [5, 1, 2, 3, 22] = .ok "1–3, 5, 22" := by decide +kernel

/-! ## Runs -/

/-- An item is in one of the runs. -/
def Within (rs : List (NumberRun κ)) (item : κ × Int) : Prop :=
  ∃ run ∈ rs, run.key = item.1 ∧ run.first ≤ item.2 ∧ item.2 ≤ run.last

instance (rs : List (NumberRun κ)) (item : κ × Int) : Decidable (Within rs item) :=
  inferInstanceAs (Decidable (∃ run ∈ rs, _))

/-- A run lies before another: it is of an earlier key, or there is a gap between them. -/
def Before (a b : NumberRun κ) : Prop :=
  a.key < b.key ∨ (a.key = b.key ∧ a.last + 1 < b.first)

/-- Runs hold exactly the items. -/
structure RunsOf (items : List (κ × Int)) (rs : List (NumberRun κ)) : Prop where
  /-- Sorted and disjoint. -/
  ordered : rs.Pairwise Before
  nonempty : ∀ run ∈ rs, run.first ≤ run.last
  members : ∀ item, item ∈ items ↔ Within rs item
  /-- What stands next to a run is no item. -/
  maximal : ∀ run ∈ rs, (run.key, run.first - 1) ∉ items ∧ (run.key, run.last + 1) ∉ items

/-! ### The items sorted -/

theorem mem_destutter' {α : Type} [DecidableEq α] {l : List α} {a b : α} :
    a ∈ l.destutter' (· ≠ ·) b ↔ a = b ∨ a ∈ l := by
  induction l generalizing b with
  | nil => simp
  | cons c l ih =>
    rw [List.destutter'_cons, List.mem_cons]
    by_cases hbc : b = c
    · rw [if_neg (not_not_intro hbc), ih, ← hbc, ← or_assoc, or_self]
    · rw [if_pos hbc, List.mem_cons, ih]

theorem mem_destutter {α : Type} [DecidableEq α] {l : List α} {a : α} :
    a ∈ l.destutter (· ≠ ·) ↔ a ∈ l := by
  cases l with
  | nil => rfl
  | cons b l => rw [List.destutter_cons', mem_destutter', List.mem_cons]

theorem mem_sortedDistinct {items : List (κ × Int)} {item : κ × Int} :
    item ∈ sortedDistinct items ↔ item ∈ items := by
  simp only [sortedDistinct, List.mem_map, mem_destutter, List.mem_insertionSort,
    exists_exists_and_eq_and, ofLex_toLex, exists_eq_right]

/-- A sorted list without equal neighbours is strictly sorted. -/
theorem pairwise_lt_of_isChain {α : Type} [LinearOrder α] {l : List α}
    (hle : l.Pairwise (· ≤ ·)) (hne : l.IsChain (· ≠ ·)) : l.Pairwise (· < ·) := by
  refine List.isChain_iff_pairwise.mp ?_
  induction l with
  | nil => exact List.isChain_nil
  | cons a l ih =>
    cases l with
    | nil => exact List.isChain_singleton a
    | cons b l =>
      rw [List.isChain_cons_cons] at hne ⊢
      rw [List.pairwise_cons] at hle
      exact ⟨lt_of_le_of_ne (hle.1 b List.mem_cons_self) hne.1, ih hle.2 hne.2⟩

theorem pairwise_sortedDistinct (items : List (κ × Int)) :
    (sortedDistinct items).Pairwise fun a b => a.1 < b.1 ∨ (a.1 = b.1 ∧ a.2 < b.2) := by
  rw [sortedDistinct, List.pairwise_map]
  have hsorted := (List.pairwise_insertionSort (· ≤ ·) (items.map toLex)).sublist
    (List.destutter_sublist (· ≠ ·) _)
  refine (pairwise_lt_of_isChain hsorted (List.isChain_destutter _ _)).imp fun {a b} h => ?_
  exact Prod.Lex.lt_iff.mp h

/-! ### The runs built -/

/-- The runs as they are built, from the last to the first. -/
structure Built (rs : List (NumberRun κ)) : Prop where
  ordered : rs.Pairwise fun later earlier => Before earlier later
  nonempty : ∀ run ∈ rs, run.first ≤ run.last

omit [LinearOrder κ] in
theorem within_cons {run : NumberRun κ} {rs : List (NumberRun κ)} {item : κ × Int} :
    Within (run :: rs) item
      ↔ (run.key = item.1 ∧ run.first ≤ item.2 ∧ item.2 ≤ run.last) ∨ Within rs item := by
  simp [Within]

omit [LinearOrder κ] in
theorem within_nil {item : κ × Int} : ¬ Within [] item := by
  simp [Within]

omit [LinearOrder κ] in
theorem single_run {key : κ} {number : Int} {item : κ × Int} :
    (key = item.1 ∧ number ≤ item.2 ∧ item.2 ≤ number) ↔ item = (key, number) := by
  rw [Prod.ext_iff, ← le_antisymm_iff, eq_comm (a := key), eq_comm (a := number)]

/-- A run that another follows. -/
theorem Built.cons {run : NumberRun κ} {rs : List (NumberRun κ)} (h : Built rs)
    (hrun : run.first ≤ run.last) (hlater : ∀ earlier ∈ rs, Before earlier run) :
    Built (run :: rs) :=
  ⟨List.pairwise_cons.mpr ⟨hlater, h.ordered⟩, List.forall_mem_cons.mpr ⟨hrun, h.nonempty⟩⟩

/-- A run that begins after another's end begins after all that are before it. -/
theorem Before.trans {a b c : NumberRun κ} (hab : Before a b) (hb : b.first ≤ b.last)
    (hbc : Before b c) : Before a c := by
  obtain hab | ⟨hkey, hlast⟩ := hab <;> obtain hbc | ⟨hkey', hlast'⟩ := hbc
  · exact .inl (hab.trans hbc)
  · exact .inl (hkey' ▸ hab)
  · exact .inl (hkey ▸ hbc)
  · exact .inr ⟨hkey.trans hkey', by omega⟩

/-- A round adds its item, which comes after those before. -/
theorem extend_spec {rs : List (NumberRun κ)} (h : Built rs) {item : κ × Int}
    (hitem : InI64 item.2)
    (hlater : ∀ run ∈ rs.head?, InI64 run.last
      ∧ (run.key < item.1 ∨ (run.key = item.1 ∧ run.last < item.2))) :
    ∃ rs', extend rs item = .ok rs' ∧ Built rs'
      ∧ (∀ x, Within rs' x ↔ Within rs x ∨ x = item)
      ∧ ∃ run ∈ rs'.head?, run.key = item.1 ∧ run.last = item.2 := by
  obtain ⟨key, number⟩ := item
  have hnew : ∀ rs : List (NumberRun κ), ∀ x,
      Within (⟨key, number, number⟩ :: rs) x ↔ Within rs x ∨ x = (key, number) := fun rs x => by
    rw [within_cons, single_run, or_comm]
  cases rs with
  | nil =>
    refine ⟨[⟨key, number, number⟩], rfl, ⟨List.pairwise_singleton _ _, ?_⟩, hnew [], _, rfl, rfl,
      rfl⟩
    exact List.forall_mem_singleton.mpr le_rfl
  | cons run done =>
    obtain ⟨hlast, hlater⟩ := hlater run rfl
    have hdone : Built done := ⟨(List.pairwise_cons.mp h.ordered).2,
      (List.forall_mem_cons.mp h.nonempty).2⟩
    have hbefore := (List.pairwise_cons.mp h.ordered).1
    have hrun := h.nonempty run List.mem_cons_self
    -- A new run is begun where there is a gap.
    have hbegin (hgap : Before run ⟨key, number, number⟩) :
        Built (⟨key, number, number⟩ :: run :: done) := by
      refine h.cons le_rfl (List.forall_mem_cons.mpr ⟨hgap, fun earlier hearlier => ?_⟩)
      exact (hbefore earlier hearlier).trans hrun hgap
    rw [extend]
    by_cases hkey : run.key = key
    · have hlt : run.last < number :=
        (hlater.resolve_left fun hlt => hlt.ne hkey).2
      have hi64 : InI64 (run.last + 1) := ⟨by have := hlast.1; omega, by have := hitem.2; omega⟩
      rw [if_pos hkey, i64_bind_ok hi64]
      by_cases hnext : run.last + 1 = number
      · rw [if_pos hnext]
        refine ⟨_, rfl, hdone.cons (by dsimp only; omega) fun earlier hearlier => ?_, fun x => ?_,
          _, rfl, hkey, rfl⟩
        · exact hbefore earlier hearlier
        · rw [within_cons, within_cons, or_right_comm, Prod.ext_iff, ← hkey]
          refine or_congr_left ?_
          constructor
          · rintro ⟨hx, hfirst, hnumber⟩
            by_cases hle : x.2 ≤ run.last
            · exact .inl ⟨hx, hfirst, hle⟩
            · exact .inr ⟨hx.symm, by dsimp only at hnumber ⊢; omega⟩
          · rintro (⟨hx, hfirst, hle⟩ | ⟨hx, hnumber⟩)
            · exact ⟨hx, hfirst, by dsimp only; omega⟩
            · exact ⟨hx.symm, by dsimp only at hnumber ⊢; omega⟩
      · rw [if_neg hnext]
        exact ⟨_, rfl, hbegin (.inr ⟨hkey, by dsimp only; omega⟩), hnew _, _, rfl, rfl, rfl⟩
    · rw [if_neg hkey]
      exact ⟨_, rfl, hbegin (.inl (hlater.resolve_right fun heq => hkey heq.1)), hnew _, _, rfl,
        rfl, rfl⟩

theorem foldlM_extend {items : List (κ × Int)} {rs : List (NumberRun κ)} (h : Built rs)
    (hitems : ∀ item ∈ items, InI64 item.2)
    (hsorted : items.Pairwise fun a b => a.1 < b.1 ∨ (a.1 = b.1 ∧ a.2 < b.2))
    (hlater : ∀ run ∈ rs.head?, InI64 run.last
      ∧ ∀ item ∈ items, run.key < item.1 ∨ (run.key = item.1 ∧ run.last < item.2)) :
    ∃ rs', items.foldlM extend rs = .ok rs' ∧ Built rs'
      ∧ ∀ x, Within rs' x ↔ Within rs x ∨ x ∈ items := by
  induction items generalizing rs with
  | nil => exact ⟨rs, rfl, h, fun x => (or_iff_left List.not_mem_nil).symm⟩
  | cons item items ih =>
    rw [List.forall_mem_cons] at hitems
    rw [List.pairwise_cons] at hsorted
    obtain ⟨rs₁, hround, hbuilt, hwithin, run, hrun, hkey, hlast⟩ := extend_spec h hitems.1
      fun run hrun => (hlater run hrun).imp_right fun h => h item List.mem_cons_self
    have hlater' : ∀ run ∈ rs₁.head?, InI64 run.last
        ∧ ∀ item ∈ items, run.key < item.1 ∨ (run.key = item.1 ∧ run.last < item.2) := by
      intro run' hrun'
      rw [Option.mem_unique hrun' hrun, hkey, hlast]
      exact ⟨hitems.1, hsorted.1⟩
    obtain ⟨rs', hrest, hbuilt', hwithin'⟩ := ih hbuilt hitems.2 hsorted.2 hlater'
    refine ⟨rs', ?_, hbuilt', fun x => ?_⟩
    · rw [List.foldlM_cons, hround]
      exact hrest
    · rw [hwithin', hwithin, List.mem_cons, or_assoc]

omit [LinearOrder κ] in
theorem within_reverse {rs : List (NumberRun κ)} {item : κ × Int} :
    Within rs.reverse item ↔ Within rs item := by
  simp [Within]

/-- Two runs are the same, or one lies before the other. -/
theorem eq_or_before {rs : List (NumberRun κ)} (h : rs.Pairwise Before) {a b : NumberRun κ}
    (ha : a ∈ rs) (hb : b ∈ rs) : a = b ∨ Before a b ∨ Before b a := by
  by_cases hab : a = b
  · exact .inl hab
  · have hsymm : Std.Symm fun a b : NumberRun κ => Before a b ∨ Before b a :=
      ⟨fun _ _ => Or.symm⟩
    have hboth : rs.Pairwise fun a b => Before a b ∨ Before b a := h.imp Or.inl
    exact .inr (hboth.forall ha hb hab)

/-- What stands next to a run is in no run. -/
theorem not_within_next {rs : List (NumberRun κ)} (h : rs.Pairwise Before)
    (hnonempty : ∀ run ∈ rs, run.first ≤ run.last) {run : NumberRun κ} (hrun : run ∈ rs) {n : Int}
    (hn : n = run.first - 1 ∨ n = run.last + 1) : ¬ Within rs (run.key, n) := by
  rintro ⟨other, hother, hkey, hfirst, hlast⟩
  have hle := hnonempty run hrun
  obtain rfl | hbefore | hbefore := eq_or_before h hrun hother
  · omega
  · obtain hlt | ⟨_, hgap⟩ := hbefore
    · exact hlt.ne hkey.symm
    · omega
  · obtain hlt | ⟨_, hgap⟩ := hbefore
    · exact hlt.ne hkey
    · omega

/-- **The runs hold exactly the items**, and no sum overflows. -/
theorem runs_spec {items : List (κ × Int)} (hitems : ∀ item ∈ items, InI64 item.2) :
    ∃ rs, runs items = .ok rs ∧ RunsOf items rs := by
  obtain ⟨rs, hrs, hbuilt, hwithin⟩ := @foldlM_extend κ _ (sortedDistinct items) []
    ⟨List.Pairwise.nil, List.forall_mem_nil _⟩
    (fun item hitem => hitems item (mem_sortedDistinct.mp hitem)) (pairwise_sortedDistinct items)
    nofun
  have hruns : runs items = .ok rs.reverse := by
    rw [runs, hrs]
    rfl
  have hmembers : ∀ item, item ∈ items ↔ Within rs.reverse item := fun item => by
    rw [within_reverse, hwithin, mem_sortedDistinct]
    exact (or_iff_right within_nil).symm
  have hordered := List.pairwise_reverse.mpr hbuilt.ordered
  have hnonempty : ∀ run ∈ rs.reverse, run.first ≤ run.last := fun run hrun =>
    hbuilt.nonempty run (List.mem_reverse.mp hrun)
  refine ⟨rs.reverse, hruns, hordered, hnonempty, hmembers, fun run hrun => ?_⟩
  rw [hmembers, hmembers]
  exact ⟨not_within_next hordered hnonempty hrun (.inl rfl),
    not_within_next hordered hnonempty hrun (.inr rfl)⟩

/-! ## What the sums count -/

omit [LinearOrder κ] in
/-- The items of a run. -/
def NumberRun.items (run : NumberRun κ) : List (κ × Int) :=
  (List.range (run.last - run.first + 1).toNat).map fun i : Nat =>
    (run.key, run.first + (i : Int))

omit [LinearOrder κ] in
theorem NumberRun.mem_items {run : NumberRun κ} {item : κ × Int} :
    item ∈ run.items ↔ run.key = item.1 ∧ run.first ≤ item.2 ∧ item.2 ≤ run.last := by
  rw [items, List.mem_map]
  constructor
  · rintro ⟨i, hi, rfl⟩
    rw [List.mem_range] at hi
    exact ⟨rfl, by dsimp only; omega, by dsimp only; omega⟩
  · rintro ⟨hkey, hfirst, hlast⟩
    refine ⟨(item.2 - run.first).toNat, ?_, Prod.ext hkey ?_⟩
    · rw [List.mem_range]
      omega
    · dsimp only
      omega

omit [LinearOrder κ] in
theorem NumberRun.nodup_items (run : NumberRun κ) : run.items.Nodup := by
  refine List.nodup_range.map fun i j hij => ?_
  have hsame : run.first + (i : Int) = run.first + j := congrArg Prod.snd hij
  omega

/-- How many of the items are in some of the runs, counted once each. -/
def distinctIn (items : List (κ × Int)) (rs : List (NumberRun κ)) : Nat :=
  (items.dedup.filter fun item => Within rs item).length

/-- **Some of the runs stand for as many items as are in them.** -/
theorem sum_length_items {items : List (κ × Int)} {rs part : List (NumberRun κ)}
    (h : RunsOf items rs) (hpart : part.Sublist rs) :
    (part.map fun run => run.items.length).sum = distinctIn items part := by
  have hnodup : (part.flatMap NumberRun.items).Nodup := by
    refine List.nodup_flatMap.mpr ⟨fun run _ => run.nodup_items, ?_⟩
    refine (h.ordered.sublist hpart).imp fun {a b} hab item ha hb => ?_
    obtain ⟨hkey, _, hlast⟩ := NumberRun.mem_items.mp ha
    obtain ⟨hkey', hfirst, _⟩ := NumberRun.mem_items.mp hb
    obtain hlt | ⟨_, hgap⟩ := hab
    · exact hlt.ne (hkey.trans hkey'.symm)
    · omega
  have hperm : (part.flatMap NumberRun.items).Perm
      (items.dedup.filter fun item => Within part item) := by
    refine (List.perm_ext_iff_of_nodup hnodup (items.nodup_dedup.filter _)).mpr fun item => ?_
    rw [List.mem_filter, List.mem_dedup, decide_eq_true_iff, h.members]
    have hwithin : item ∈ part.flatMap NumberRun.items ↔ Within part item := by
      simp only [List.mem_flatMap, NumberRun.mem_items, Within]
    rw [hwithin]
    refine ⟨fun hitem => ⟨?_, hitem⟩, And.right⟩
    obtain ⟨run, hrun, hin⟩ := hitem
    exact ⟨run, hpart.subset hrun, hin⟩
  rw [distinctIn, ← hperm.length_eq, List.length_flatMap]

theorem distinctIn_le (items : List (κ × Int)) (rs : List (NumberRun κ)) :
    distinctIn items rs ≤ items.length :=
  (List.length_filter_le _ _).trans items.dedup_sublist.length_le

omit [LinearOrder κ] in
/-- A run's name with how many items it stands for. -/
def counted (name : NumberRun κ → String) (run : NumberRun κ) : String × Int :=
  (name run, run.items.length)

omit [LinearOrder κ] in
/-- What a run stands for is counted without an overflow. -/
theorem part_eq {run : NumberRun κ} (name : NumberRun κ → String) (h : run.first ≤ run.last)
    (hfits : run.items.length < 2 ^ 63) : part name run = .ok (counted name run) := by
  have hlength : (run.items.length : Int) = run.last - run.first + 1 := by
    rw [NumberRun.items, List.length_map, List.length_range]
    omega
  have hspan : InI64 (run.last - run.first) := ⟨by omega, by omega⟩
  have hcount : InI64 (run.last - run.first + 1) := ⟨by omega, by omega⟩
  rw [part, i64_bind_ok hspan, i64_bind_ok hcount, ← hlength, counted]

omit [LinearOrder κ] in
/-- The items left over are summed without an overflow. -/
theorem foldlM_sum {parts : List (String × Int)} {sum : Int} (hsum : 0 ≤ sum)
    (hparts : ∀ part ∈ parts, 0 ≤ part.2) (hfits : sum + (parts.map Prod.snd).sum < 2 ^ 63) :
    parts.foldlM (fun sum part => i64 (sum + part.2)) sum
      = .ok (sum + (parts.map Prod.snd).sum) := by
  induction parts generalizing sum with
  | nil => exact congrArg Except.ok (Int.add_zero sum).symm
  | cons part parts ih =>
    rw [List.forall_mem_cons] at hparts
    rw [List.map_cons, List.sum_cons, ← Int.add_assoc] at hfits ⊢
    have hrest : 0 ≤ (parts.map Prod.snd).sum :=
      List.sum_nonneg (List.forall_mem_map.mpr hparts.2)
    have hi64 : InI64 (sum + part.2) := ⟨by omega, by omega⟩
    rw [List.foldlM_cons, i64_bind_ok hi64]
    exact ih (by omega) hparts.2 hfits

/-! ## The text -/

omit [LinearOrder κ] in
/-- The names of some runs, one after another. -/
def named (name : NumberRun κ → String) (rs : List (NumberRun κ)) : String :=
  ", ".intercalate (rs.map name)

/-- **A text accounts for the items**: it names the first of the runs, no more than one in a
long text, and counts the items of the others. -/
def Accounts (items : List (κ × Int)) (name : NumberRun κ → String) (nouns : String × String)
    (rs : List (NumberRun κ)) (text : String) : Prop :=
  ∃ shown omitted, rs = shown ++ omitted ∧ (rs ≠ [] → shown ≠ [])
    ∧ (1 < shown.length → (named name shown).utf8ByteSize ≤ extraMax)
    ∧ text = named name shown
      ++ if omitted = [] then "" else moreText nouns (distinctIn items omitted)

omit [LinearOrder κ] in
theorem named_append_singleton (name : NumberRun κ → String) {shown : List (NumberRun κ)}
    (h : shown ≠ []) (run : NumberRun κ) :
    named name (shown ++ [run]) = named name shown ++ ", " ++ name run := by
  have hmap : shown.map name ≠ [] := fun hnil => h (List.map_eq_nil_iff.mp hnil)
  rw [named, List.map_append, List.map_singleton,
    String.intercalate_append_of_ne_nil hmap (List.cons_ne_nil _ _), String.intercalate_singleton]
  rfl

omit [LinearOrder κ] in
theorem named_singleton (name : NumberRun κ → String) (run : NumberRun κ) :
    named name [run] = name run :=
  String.intercalate_singleton

omit [LinearOrder κ] in
theorem named_ne_empty {name : NumberRun κ → String} (hname : ∀ run, name run ≠ "")
    {shown : List (NumberRun κ)} (h : shown ≠ []) : named name shown ≠ "" := by
  obtain rfl | ⟨front, run, rfl⟩ := shown.eq_nil_or_concat
  · exact absurd rfl h
  · by_cases hfront : front = []
    · rw [hfront, List.concat_nil, named_singleton]
      exact hname run
    · rw [List.concat_eq_append, named_append_singleton name hfront]
      exact fun hempty => hname run (String.append_eq_empty_iff.mp hempty).2

/-- The items of the runs left over are summed. -/
theorem foldlM_counted {items : List (κ × Int)} {name : NumberRun κ → String}
    {rs omitted : List (NumberRun κ)} (h : RunsOf items rs) (hfits : items.length < 2 ^ 63)
    (hsub : omitted.Sublist rs) :
    (omitted.map (counted name)).foldlM (fun sum part => i64 (sum + part.2)) 0
      = .ok (distinctIn items omitted : Int) := by
  have hsum : ((omitted.map (counted name)).map Prod.snd).sum
      = (distinctIn items omitted : Int) := by
    rw [← sum_length_items h hsub, List.map_map]
    exact ((map_list_sum (Nat.castAddMonoidHom Int) _).trans
      (congrArg List.sum List.map_map)).symm
  have hle := distinctIn_le items omitted
  rw [foldlM_sum le_rfl, hsum, Int.zero_add]
  · rw [List.forall_mem_map]
    exact fun run _ => Int.natCast_nonneg _
  · rw [hsum]
    omega

/-- The loop of `capped`, with some runs shown already. -/
theorem cappedFrom_spec {items : List (κ × Int)} {name : NumberRun κ → String}
    (hname : ∀ run, name run ≠ "") (nouns : String × String) {rs : List (NumberRun κ)}
    (h : RunsOf items rs) (hfits : items.length < 2 ^ 63) {shown omitted : List (NumberRun κ)}
    (hrs : rs = shown ++ omitted) (hsize : 1 < shown.length →
      (named name shown).utf8ByteSize ≤ extraMax) :
    ∃ text, cappedFrom nouns (named name shown) (omitted.map (counted name)) = .ok text
      ∧ Accounts items name nouns rs text := by
  induction omitted generalizing shown with
  | nil =>
    refine ⟨_, rfl, shown, [], hrs, fun hne => ?_, hsize, ?_⟩
    · rwa [hrs, List.append_nil] at hne
    · rw [if_pos rfl, String.append_empty]
  | cons run omitted ih =>
    rw [List.map_cons, counted, cappedFrom]
    split
    · next hcut =>
      have hshown : shown ≠ [] := by
        rintro rfl
        exact hcut.1 rfl
      have hsub : (run :: omitted).Sublist rs := hrs ▸ List.sublist_append_right _ _
      have hrest : ((name run, (run.items.length : Int)) :: omitted.map (counted name)).foldlM
          (fun sum part => i64 (sum + part.2)) 0 = .ok (distinctIn items (run :: omitted) : Int) :=
        foldlM_counted h hfits hsub
      rw [hrest]
      exact ⟨_, rfl, shown, run :: omitted, hrs, fun _ => hshown, hsize,
        congrArg _ (if_neg (List.cons_ne_nil _ _)).symm⟩
    · next hfit =>
      have hnext : (if named name shown ≠ "" then named name shown ++ ", " else named name shown)
          ++ name run = named name (shown ++ [run]) := by
        by_cases hshown : shown = []
        · subst hshown
          rw [List.nil_append, named_singleton]
          exact String.empty_append
        · rw [if_pos (named_ne_empty hname hshown), named_append_singleton name hshown]
      rw [hnext]
      refine ih (by rw [hrs, List.append_assoc]; rfl) fun hlength => ?_
      rw [List.length_append, List.length_singleton] at hlength
      have hshown : shown ≠ [] := List.ne_nil_of_length_pos (by omega)
      have hle := not_and.mp hfit (named_ne_empty hname hshown)
      have hcomma : (", " : String).utf8ByteSize = 2 := rfl
      rw [named_append_singleton name hshown, String.utf8ByteSize_append,
        String.utf8ByteSize_append, hcomma]
      omega

omit [LinearOrder κ] in
theorem mapM_part {name : NumberRun κ → String} {rs : List (NumberRun κ)}
    (h : ∀ run ∈ rs, part name run = .ok (counted name run)) :
    rs.mapM (part name) = .ok (rs.map (counted name)) := by
  induction rs with
  | nil => rfl
  | cons run rs ih =>
    rw [List.forall_mem_cons] at h
    rw [List.mapM_cons, h.1, ih h.2]
    rfl

/-- The runs of the items, and a text that accounts for them. -/
theorem capped_spec {items : List (κ × Int)} {name : NumberRun κ → String}
    (hname : ∀ run, name run ≠ "") (nouns : String × String)
    (hitems : ∀ item ∈ items, InI64 item.2) (hfits : items.length < 2 ^ 63) :
    ∃ rs text, runs items = .ok rs ∧ RunsOf items rs
      ∧ (rs.mapM (part name) >>= fun parts => capped parts nouns) = .ok text
      ∧ Accounts items name nouns rs text := by
  obtain ⟨rs, hrs, h⟩ := runs_spec hitems
  have hparts : ∀ run ∈ rs, part name run = .ok (counted name run) := fun run hrun => by
    refine part_eq name (h.nonempty run hrun) ?_
    have hsum := sum_length_items h (List.singleton_sublist.mpr hrun)
    rw [List.map_singleton, List.sum_singleton] at hsum
    rw [hsum]
    exact (distinctIn_le items _).trans_lt hfits
  obtain ⟨text, htext, haccounts⟩ := @cappedFrom_spec κ _ items name
    hname nouns rs h hfits [] rs rfl nofun
  refine ⟨rs, text, hrs, h, ?_, haccounts⟩
  rw [mapM_part hparts]
  exact htext

theorem repr_ne_empty (n : Int) : n.repr ≠ "" := by
  rw [Ne, ← String.toList_eq_nil_iff]
  cases n with
  | ofNat n =>
    rw [Int.ofNat_eq_natCast, toList_repr_ofNat]
    exact Nat.toDigits_ne_nil
  | negSucc n =>
    rw [toList_repr_negSucc]
    exact List.cons_ne_nil _ _

theorem episodeName_ne_empty (run : NumberRun Int) : episodeName run ≠ "" := by
  rw [episodeName]
  split <;> simp [String.append_eq_empty_iff]

theorem seasonName_ne_empty (run : NumberRun Unit) : seasonName run ≠ "" := by
  rw [seasonName]
  split
  · exact repr_ne_empty _
  · simp [String.append_eq_empty_iff]

/-- **A list of what is unavailable accounts for every item**, of episodes and of seasons. -/
theorem unavailable_lists_account {episodes : List (Int × Int)} {seasons : List Int}
    (hepisodes : ∀ episode ∈ episodes, InI64 episode.2)
    (hseasons : ∀ season ∈ seasons, InI64 season)
    (hepisodesFit : episodes.length < 2 ^ 63) (hseasonsFit : seasons.length < 2 ^ 63) :
    (∃ rs text, runs episodes = .ok rs ∧ RunsOf episodes rs ∧ episodeRanges episodes = .ok text
        ∧ Accounts episodes episodeName ("episode", "episodes") rs text)
      ∧ ∃ rs text, runs (seasons.map fun season => ((), season)) = .ok rs
        ∧ RunsOf (seasons.map fun season => ((), season)) rs ∧ seasonRanges seasons = .ok text
        ∧ Accounts (seasons.map fun season => ((), season)) seasonName ("season", "seasons") rs
          text := by
  constructor
  · obtain ⟨rs, text, hrs, h, htext, haccounts⟩ :=
      capped_spec episodeName_ne_empty ("episode", "episodes") hepisodes hepisodesFit
    refine ⟨rs, text, hrs, h, ?_, haccounts⟩
    rw [episodeRanges, hrs]
    exact htext
  · have hitems : ∀ item ∈ seasons.map fun season => ((), season), InI64 item.2 :=
      List.forall_mem_map.mpr hseasons
    obtain ⟨rs, text, hrs, h, htext, haccounts⟩ :=
      capped_spec seasonName_ne_empty ("season", "seasons") hitems (by rwa [List.length_map])
    refine ⟨rs, text, hrs, h, ?_, haccounts⟩
    rw [seasonRanges, hrs]
    exact htext

theorem unavailable_lists_account_sample :
    (∃ rs text, runs [(21, 42), (22, 3), (21, 43), (22, 1), (21, 42)] = .ok rs
        ∧ RunsOf [(21, 42), (22, 3), (21, 43), (22, 1), (21, 42)] rs
        ∧ episodeRanges [(21, 42), (22, 3), (21, 43), (22, 1), (21, 42)] = .ok text
        ∧ Accounts [(21, 42), (22, 3), (21, 43), (22, 1), (21, 42)] episodeName
          ("episode", "episodes") rs text)
      ∧ ∃ rs text, runs [((), 5), ((), 1), ((), 2)] = .ok rs
        ∧ RunsOf [((), 5), ((), 1), ((), 2)] rs ∧ seasonRanges [5, 1, 2] = .ok text
        ∧ Accounts [((), 5), ((), 1), ((), 2)] seasonName ("season", "seasons") rs text :=
  @unavailable_lists_account [(21, 42), (22, 3), (21, 43), (22, 1), (21, 42)] [5, 1, 2]
    (by decide) (by decide) (by decide) (by decide)

end UnavailableRuns

end Foreseerr

import Foreseerr.JsText
import Mathlib.Algebra.GroupWithZero.Nat
import Mathlib.Data.List.TakeWhile

/-!
# Failure summaries

`summarize_failure` scans a message for credentials, as the regular expression
`/(?:token|authorization|cookie|password)=?[^\s,;]+/gi` finds them, and cuts what is left to
512 UTF-16 units. The scanner is that of the expression for any set of stops
(`scan_iff`); the set it is given is Rust's white space, which is not JavaScript's.

The two differ in U+0085 and U+FEFF alone, so that the summary is the documented one exactly
where neither of them ends a credential before the cut (`summary_iff`).
-/

namespace Foreseerr

namespace FailureSummary

def keywords : List (List Char) :=
  ["token".toList, "authorization".toList, "cookie".toList, "password".toList]

def redacted : List Char := "[redacted]".toList

/-! ## The scanner -/

section Scanner

variable (stop : Char → Bool)

/-- What a keyword at the start of a text redacts: how many characters, where something
follows it. -/
def hitOf (text keyword : List Char) : Option Nat :=
  if (text.take keyword.length).map Char.toLower = keyword then
    let run := ((text.drop keyword.length).takeWhile fun c => !stop c).length
    if 0 < run then some (keyword.length + run) else none
  else none

/-- The first keyword that redacts something here. -/
def hit (text : List Char) : Option Nat := keywords.findSome? (hitOf stop text)

variable {stop}

theorem hitOf_eq_some {text keyword : List Char} {n : Nat} :
    hitOf stop text keyword = some n ↔ (text.take keyword.length).map Char.toLower = keyword
      ∧ 0 < ((text.drop keyword.length).takeWhile fun c => !stop c).length
      ∧ n = keyword.length + ((text.drop keyword.length).takeWhile fun c => !stop c).length := by
  unfold hitOf
  dsimp only
  split
  next hkeyword =>
    split
    next hrun => simp [hkeyword, hrun, eq_comm]
    next hrun => simp [hkeyword, hrun]
  next hkeyword => exact iff_of_false nofun fun h => hkeyword h.1

theorem length_le_of_take {text keyword : List Char}
    (h : (text.take keyword.length).map Char.toLower = keyword) :
    keyword.length ≤ text.length := by
  have hlength := congrArg List.length h
  rw [List.length_map, List.length_take] at hlength
  omega

theorem length_of_hit {text : List Char} {n : Nat} (h : hit stop text = some n) :
    0 < n ∧ n ≤ text.length := by
  obtain ⟨keyword, -, hkeyword⟩ := List.exists_of_findSome?_eq_some h
  obtain ⟨htake, hrun, rfl⟩ := hitOf_eq_some.1 hkeyword
  have hlength := length_le_of_take htake
  have hrest : ((text.drop keyword.length).takeWhile fun c => !stop c).length
      ≤ (text.drop keyword.length).length := (List.takeWhile_sublist _).length_le
  rw [List.length_drop] at hrest
  omega

variable (stop)

/-- The loop of `summarize_failure`. -/
def redact (text : List Char) : List Char :=
  match _h : hit stop text with
  | some n => redacted ++ redact (text.drop n)
  | none =>
    match text with
    | [] => []
    | c :: rest => c :: redact rest
termination_by text.length
decreasing_by
  · have := length_of_hit _h
    rw [List.length_drop]
    omega
  · exact Nat.lt_succ_self _

variable {stop}

theorem redact_of_hit {text : List Char} {n : Nat} (h : hit stop text = some n) :
    redact stop text = redacted ++ redact stop (text.drop n) := by
  rw [redact]
  split
  next m hm => rw [Option.some.inj (hm.symm.trans h)]
  next hnone => cases hnone.symm.trans h

theorem redact_nil : redact stop [] = [] := by
  rw [redact]
  rfl

theorem redact_cons {c : Char} {rest : List Char} (h : hit stop (c :: rest) = none) :
    redact stop (c :: rest) = c :: redact stop rest := by
  rw [redact]
  split
  next m hm => cases hm.symm.trans h
  next => rfl

end Scanner

/-! ## What the expression matches -/

section Matches

variable (stop : Char → Bool)

/-- `/(?:token|authorization|cookie|password)=?[^\s,;]+/i` matches a text as a whole. -/
def IsMatch (text : List Char) : Prop :=
  ∃ head sign run, text = head ++ sign ++ run ∧ head.map Char.toLower ∈ keywords
    ∧ (sign = [] ∨ sign = ['=']) ∧ run ≠ [] ∧ ∀ c ∈ run, stop c = false

/-- The longest match at the start of a text. -/
structure IsLongest (text found : List Char) : Prop where
  here : found <+: text
  isMatch : IsMatch stop found
  longest : ∀ other, other <+: text → IsMatch stop other → other.length ≤ found.length

/-- Each leftmost longest match of a text is replaced, until its rest: what stands before
that becomes `out`. -/
inductive Scan : List Char → List Char → List Char → Prop
  | here (text) : Scan text [] text
  | copy {c text out rest} (hno : ∀ found, found <+: c :: text → ¬ IsMatch stop found)
      (h : Scan text out rest) : Scan (c :: text) (c :: out) rest
  | replace {text found after out rest} (hfound : IsLongest stop text found)
      (htext : text = found ++ after) (h : Scan after out rest) :
      Scan text (redacted ++ out) rest

variable {stop}

/-- An `=` is one of the characters that follow. -/
theorem isMatch_iff (hstop : stop '=' = false) {text : List Char} :
    IsMatch stop text ↔ ∃ head run, text = head ++ run ∧ head.map Char.toLower ∈ keywords
      ∧ run ≠ [] ∧ ∀ c ∈ run, stop c = false := by
  constructor
  · rintro ⟨head, sign, run, rfl, hhead, rfl | rfl, hne, hrun⟩
    · exact ⟨head, run, by rw [List.append_nil], hhead, hne, hrun⟩
    · refine ⟨head, '=' :: run, by rw [List.append_assoc]; rfl, hhead, List.cons_ne_nil _ _, ?_⟩
      exact List.forall_mem_cons.2 ⟨hstop, hrun⟩
  · rintro ⟨head, run, rfl, hhead, hne, hrun⟩
    exact ⟨head, [], run, by rw [List.append_nil], hhead, .inl rfl, hne, hrun⟩

/-- No two keywords start with the same letter. -/
theorem eq_of_head : ∀ a ∈ keywords, ∀ b ∈ keywords, a.head? = b.head? → a = b := by
  decide +kernel

theorem ne_nil_of_mem : ∀ a ∈ keywords, a ≠ [] := by
  decide +kernel

/-- A text starts with one keyword at most. -/
theorem eq_of_take {text a b : List Char} (ha : a ∈ keywords) (hb : b ∈ keywords)
    (hta : (text.take a.length).map Char.toLower = a)
    (htb : (text.take b.length).map Char.toLower = b) : a = b := by
  refine eq_of_head a ha b hb ?_
  have hfirst : ∀ k ∈ keywords, (text.take k.length).map Char.toLower = k →
      k.head? = text.head?.map Char.toLower := by
    intro k hk htake
    have hlength := List.length_pos_iff.2 (ne_nil_of_mem k hk)
    have hhead := congrArg List.head? htake
    rw [List.head?_map, List.head?_take, if_neg (by omega)] at hhead
    exact hhead.symm
  rw [hfirst a ha hta, hfirst b hb htb]

/-- What a keyword redacts that a text starts with, in any case. -/
theorem hit_of_keyword {head after : List Char} (hhead : head.map Char.toLower ∈ keywords) :
    hit stop (head ++ after) = if (after.takeWhile fun c => !stop c) = [] then none
      else some (head.length + (after.takeWhile fun c => !stop c).length) := by
  have hlength : (head.map Char.toLower).length = head.length := List.length_map _
  have htake : ((head ++ after).take (head.map Char.toLower).length).map Char.toLower
      = head.map Char.toLower := by
    rw [hlength, List.take_left]
  have hdrop : (head ++ after).drop (head.map Char.toLower).length = after := by
    rw [hlength, List.drop_left]
  have hnone : ∀ keyword ∈ keywords, ∀ n, hitOf stop (head ++ after) keyword = some n →
      keyword = head.map Char.toLower := fun keyword hkeyword n hn =>
    eq_of_take hkeyword hhead (hitOf_eq_some.1 hn).1 htake
  by_cases hrun : (after.takeWhile fun c => !stop c) = []
  · rw [if_pos hrun]
    refine List.findSome?_eq_none_iff.2 fun keyword hkeyword => ?_
    refine Option.eq_none_iff_forall_ne_some.2 fun n hn => ?_
    obtain rfl := hnone keyword hkeyword n hn
    have hpos := (hitOf_eq_some.1 hn).2.1
    rw [hdrop, hrun] at hpos
    exact absurd hpos (Nat.lt_irrefl 0)
  · have hkeyword : hitOf stop (head ++ after) (head.map Char.toLower)
        = some (head.length + (after.takeWhile fun c => !stop c).length) :=
      hitOf_eq_some.2 ⟨htake, by rw [hdrop]; exact List.length_pos_iff.2 hrun, by
        rw [hdrop, hlength]⟩
    rw [if_neg hrun]
    cases hfind : hit stop (head ++ after) with
    | none =>
      rw [List.findSome?_eq_none_iff.1 hfind _ hhead] at hkeyword
      cases hkeyword
    | some n =>
      obtain ⟨keyword, hmem, hn⟩ := List.exists_of_findSome?_eq_some hfind
      obtain rfl := hnone keyword hmem n hn
      exact hn.symm.trans hkeyword

theorem hit_eq_none_of {text : List Char}
    (h : ∀ head after, text = head ++ after → head.map Char.toLower ∉ keywords) :
    hit stop text = none := by
  refine List.findSome?_eq_none_iff.2 fun keyword hkeyword => ?_
  refine Option.eq_none_iff_forall_ne_some.2 fun n hn => ?_
  have htake := (hitOf_eq_some.1 hn).1
  exact h _ _ (List.take_append_drop keyword.length text).symm (htake.symm ▸ hkeyword)

/-- A text that starts with a match redacts as much at least. -/
theorem hit_of_isMatch (hstop : stop '=' = false) {text found : List Char}
    (hhere : found <+: text) (h : IsMatch stop found) :
    ∃ n, hit stop text = some n ∧ found.length ≤ n := by
  obtain ⟨head, run, rfl, hhead, hne, hrun⟩ := (isMatch_iff hstop).1 h
  obtain ⟨after, rfl⟩ := hhere
  have hwhole : (run ++ after).takeWhile (fun c => !stop c)
      = run ++ after.takeWhile fun c => !stop c :=
    List.takeWhile_append_of_pos fun c hc => by rw [hrun c hc]; rfl
  refine ⟨head.length + (run ++ after.takeWhile fun c => !stop c).length, ?_, ?_⟩
  · rw [List.append_assoc, hit_of_keyword hhead, hwhole, if_neg]
    exact fun hnil => hne (List.append_eq_nil_iff.1 hnil).1
  · rw [List.length_append, List.length_append]
    omega

/-- What is redacted here is the longest match. -/
theorem isLongest_of_hit (hstop : stop '=' = false) {text : List Char} {n : Nat}
    (h : hit stop text = some n) : IsLongest stop text (text.take n) := by
  have hn := (length_of_hit h).2
  have hhere : text.take n <+: text := List.take_prefix n text
  refine ⟨hhere, ?_, fun other hother hmatch => ?_⟩
  · obtain ⟨keyword, hmem, hkeyword⟩ := List.exists_of_findSome?_eq_some h
    obtain ⟨htake, hrun, rfl⟩ := hitOf_eq_some.1 hkeyword
    refine (isMatch_iff hstop).2 ⟨text.take keyword.length,
      (text.drop keyword.length).takeWhile fun c => !stop c, ?_, htake.symm ▸ hmem,
      List.length_pos_iff.1 hrun, fun c hc => ?_⟩
    · have hwhole : (text.drop keyword.length).takeWhile (fun c => !stop c)
          <+: text.drop keyword.length := List.takeWhile_prefix _
      rw [List.take_add, ← List.prefix_iff_eq_take.1 hwhole]
    · have hrun := List.mem_takeWhile_imp (p := fun c => !stop c) hc
      rwa [Bool.not_eq_true'] at hrun
  · obtain ⟨m, hm, hle⟩ := hit_of_isMatch hstop hother hmatch
    rw [List.length_take, min_eq_left hn, ← Option.some.inj (hm.symm.trans h)]
    exact hle

theorem hit_eq_none_iff (hstop : stop '=' = false) {text : List Char} :
    hit stop text = none ↔ ∀ found, found <+: text → ¬ IsMatch stop found := by
  constructor
  · intro h found hhere hmatch
    obtain ⟨n, hn, -⟩ := hit_of_isMatch hstop hhere hmatch
    cases h.symm.trans hn
  · intro h
    cases hhit : hit stop text with
    | none => rfl
    | some n =>
      have hlongest := isLongest_of_hit hstop hhit
      exact absurd hlongest.isMatch (h _ hlongest.here)

theorem IsLongest.eq {text found found' : List Char} (h : IsLongest stop text found)
    (h' : IsLongest stop text found') : found = found' :=
  (List.prefix_of_prefix_length_le h.here h'.here (h'.longest _ h.here h.isMatch)).eq_of_length
    ((h'.longest _ h.here h.isMatch).antisymm (h.longest _ h'.here h'.isMatch))

/-- The scanner replaces what the expression matches. -/
theorem redact_of_scan (hstop : stop '=' = false) {text out rest : List Char}
    (h : Scan stop text out rest) : redact stop text = out ++ redact stop rest := by
  induction h with
  | here text => rfl
  | copy hno _ ih =>
    rw [redact_cons ((hit_eq_none_iff hstop).2 hno), ih]
    rfl
  | @replace text found after out rest hfound htext _ ih =>
    cases hhit : hit stop text with
    | none => exact absurd hfound.isMatch ((hit_eq_none_iff hstop).1 hhit _ hfound.here)
    | some n =>
      have hn := (length_of_hit hhit).2
      have heq := hfound.eq (isLongest_of_hit hstop hhit)
      have hlength : found.length = n := by
        rw [heq, List.length_take, min_eq_left hn]
      rw [redact_of_hit hhit, htext, ← hlength, List.drop_left, ih, List.append_assoc]

theorem scan_redact (hstop : stop '=' = false) (text : List Char) :
    Scan stop text (redact stop text) [] := by
  induction text using redact.induct stop with
  | case1 text n h ih =>
    rw [redact_of_hit h]
    exact .replace (isLongest_of_hit hstop h) (List.take_append_drop n text).symm ih
  | case2 h =>
    rw [redact_nil]
    exact .here []
  | case3 c rest h ih =>
    rw [redact_cons h]
    exact .copy ((hit_eq_none_iff hstop).1 h) ih

/-- **The scanner's output is the text with every leftmost longest match replaced.** -/
theorem scan_iff (hstop : stop '=' = false) {text out : List Char} :
    Scan stop text out [] ↔ out = redact stop text := by
  constructor
  · intro h
    rw [redact_of_scan hstop h, redact_nil, List.append_nil]
  · rintro rfl
    exact scan_redact hstop text

end Matches

/-! ## The summary -/

/-- The UTF-16 units of a character. -/
def unitsOf (c : Char) : Nat := if c.toNat < 0x10000 then 1 else 2

/-- `js_slice`, after so many units. -/
def jsSlice (n units : Nat) : List Char → List Char
  | [] => []
  | c :: text =>
    if units + unitsOf c > n then [] else c :: jsSlice n (units + unitsOf c) text

/-- The stops of the source: white space, as Rust has it, and what separates. -/
def isStop (c : Char) : Bool := isWhiteSpace c || c = ',' || c = ';'

/-- `[\s,;]`, with JavaScript's `\s`. -/
def isJsStop (c : Char) : Bool := isJsSpace c || c = ',' || c = ';'

/-- `summarize_failure`. -/
def summarizeFailure (message : List Char) : List Char := jsSlice 512 0 (redact isStop message)

theorem unitsOf_pos (c : Char) : 0 < unitsOf c := by
  unfold unitsOf
  split <;> decide

/-- Nothing fits after the last unit. -/
theorem jsSlice_of_le {n units : Nat} (h : n ≤ units) (text : List Char) :
    jsSlice n units text = [] := by
  cases text with
  | nil => rfl
  | cons c text =>
    have := unitsOf_pos c
    rw [jsSlice, if_pos (by omega)]

theorem jsSlice_append {n units : Nat} {a x y : List Char} :
    jsSlice n units (a ++ x) = jsSlice n units (a ++ y)
      ↔ jsSlice n (units + (a.map unitsOf).sum) x = jsSlice n (units + (a.map unitsOf).sum) y := by
  induction a generalizing units with
  | nil => rfl
  | cons c a ih =>
    rw [List.cons_append, List.cons_append, jsSlice, jsSlice, List.map_cons, List.sum_cons,
      ← Nat.add_assoc]
    by_cases hcut : units + unitsOf c > n
    · have hle : n ≤ units + unitsOf c + (a.map unitsOf).sum := by omega
      rw [if_pos hcut, if_pos hcut, jsSlice_of_le hle, jsSlice_of_le hle]
    · rw [if_neg hcut, if_neg hcut, List.cons.injEq, and_iff_right rfl]
      exact ih

/-- Texts that differ in a character of one unit. -/
theorem jsSlice_ne {n units : Nat} {c : Char} {x y : List Char} (hc : unitsOf c = 1)
    (hy : y.head? ≠ some c) :
    jsSlice n units (c :: x) = jsSlice n units y ↔ n ≤ units := by
  constructor
  · intro h
    by_contra hlt
    rw [jsSlice, if_neg (by omega)] at h
    cases y with
    | nil => cases h
    | cons d y =>
      rw [jsSlice] at h
      split at h
      · cases h
      · exact hy (congrArg some (List.cons.inj h).1.symm)
  · intro h
    rw [jsSlice_of_le h, jsSlice_of_le h]

/-- The two kinds of white space differ in two characters. -/
theorem isStop_ne_iff {c : Char} : isStop c ≠ isJsStop c ↔ c = '\u0085' ∨ c = '\uFEFF' := by
  have hchar : ∀ d : Char, c = d ↔ c.toNat = d.toNat := fun d =>
    Char.toNat_inj.symm
  have hnat : ('\u0085'.toNat, '\uFEFF'.toNat, ','.toNat, ';'.toNat) = (0x85, 0xfeff, 44, 59) := by
    decide
  simp only [Prod.mk.injEq] at hnat
  unfold isStop isJsStop isWhiteSpace isJsSpace
  rw [ne_eq, Bool.eq_iff_iff]
  simp only [Bool.or_eq_true, Bool.and_eq_true, decide_eq_true_eq,
    List.mem_cons, List.not_mem_nil, or_false, hchar, hnat]
  omega

theorem isJsStop_equals : isJsStop '=' = false := by decide

/-- A text that starts with a stop. -/
theorem hit_of_stop {stop : Char → Bool}
    (hplain : ∀ c, stop c = true → ∀ keyword ∈ keywords, keyword.head? ≠ some c.toLower) {c : Char}
    (hc : stop c = true) (text : List Char) : hit stop (c :: text) = none := by
  refine hit_eq_none_of fun head after htext hhead => ?_
  cases head with
  | nil => exact ne_nil_of_mem _ hhead rfl
  | cons d head =>
    obtain rfl := (List.cons.inj htext).1
    exact hplain c hc _ hhead rfl

theorem toLower_of_not_upper {c : Char} (h : ¬ (65 ≤ c.toNat ∧ c.toNat ≤ 90)) :
    c.toLower = c :=
  dif_neg h

/-- The letters a keyword starts with. -/
def firstLetters : List Char := ['t', 'a', 'c', 'p']

theorem letter_of_head {keyword : List Char} (hkeyword : keyword ∈ keywords) {d : Char}
    (hd : keyword.head? = some d) : d ∈ firstLetters := by
  have hheads : keywords.all (fun keyword => keyword.head?.all firstLetters.contains) = true := by
    decide
  have hhead := List.all_eq_true.1 hheads keyword hkeyword
  rw [hd] at hhead
  exact List.contains_iff_mem.1 hhead

/-- A keyword starts with no stop. -/
theorem plain_of_letters {stop : Char → Bool}
    (hupper : ∀ c : Char, stop c = true → ¬ (65 ≤ c.toNat ∧ c.toNat ≤ 90))
    (hletters : firstLetters.all (fun c => !stop c) = true) :
    ∀ c, stop c = true → ∀ keyword ∈ keywords, keyword.head? ≠ some c.toLower := by
  intro c hc keyword hkeyword hhead
  have hletter := letter_of_head hkeyword hhead
  rw [toLower_of_not_upper (hupper c hc)] at hletter
  have hplain := List.all_eq_true.1 hletters c hletter
  rw [hc] at hplain
  cases hplain

theorem isStop_plain :
    ∀ c, isStop c = true → ∀ keyword ∈ keywords, keyword.head? ≠ some c.toLower := by
  refine plain_of_letters (fun c hc => ?_) (by decide)
  have hchar : ∀ d : Char, c = d ↔ c.toNat = d.toNat := fun d => Char.toNat_inj.symm
  have hnat : (','.toNat, ';'.toNat) = (44, 59) := by decide
  simp only [Prod.mk.injEq] at hnat
  unfold isStop isWhiteSpace at hc
  simp only [Bool.or_eq_true, Bool.and_eq_true, decide_eq_true_eq, List.mem_cons,
    List.not_mem_nil, or_false, hchar, hnat] at hc
  omega

theorem isJsStop_plain :
    ∀ c, isJsStop c = true → ∀ keyword ∈ keywords, keyword.head? ≠ some c.toLower := by
  refine plain_of_letters (fun c hc => ?_) (by decide)
  have hchar : ∀ d : Char, c = d ↔ c.toNat = d.toNat := fun d => Char.toNat_inj.symm
  have hnat : (','.toNat, ';'.toNat) = (44, 59) := by decide
  simp only [Prod.mk.injEq] at hnat
  unfold isJsStop isJsSpace at hc
  simp only [Bool.or_eq_true, Bool.and_eq_true, decide_eq_true_eq, List.mem_cons,
    List.not_mem_nil, or_false, hchar, hnat] at hc
  omega

/-! ### Where the two part -/

/-- A keyword that U+0085 or U+FEFF follows, at once or after other characters that are
redacted: what is written here parts after so many units. -/
def Splits (text : List Char) (offset : Nat) : Prop :=
  ∃ head run c tail, text = head ++ (run ++ c :: tail) ∧ head.map Char.toLower ∈ keywords
    ∧ (∀ x ∈ run, isStop x = false ∧ isJsStop x = false) ∧ (c = '\u0085' ∨ c = '\uFEFF')
    ∧ offset = if run = [] then 0 else 10

/-- Where the expression's replacement of a text comes to such a keyword, the cut has been
reached, with so many units before the text. -/
def Late (units : Nat) (text : List Char) : Prop :=
  ∀ out rest offset, Scan isJsStop text out rest → Splits rest offset →
    512 ≤ units + (out.map unitsOf).sum + offset

section Part

variable {s t : Char → Bool}
  (hs : ∀ c, s c = true → ∀ keyword ∈ keywords, keyword.head? ≠ some c.toLower)
  (ht : ∀ c, t c = true → ∀ keyword ∈ keywords, keyword.head? ≠ some c.toLower)

include hs ht

/-- A character that stops one scanner and not the other, behind a keyword. -/
theorem slice_split_iff {head run tail : List Char} {c : Char} {n units : Nat}
    (hhead : head.map Char.toLower ∈ keywords) (hrun : ∀ x ∈ run, s x = false ∧ t x = false)
    (hsc : s c = true) (htc : t c = false) (hunits : unitsOf c = 1) :
    jsSlice n units (redact s (head ++ (run ++ c :: tail)))
        = jsSlice n units (redact t (head ++ (run ++ c :: tail)))
      ↔ n ≤ units + if run = [] then 0 else 10 := by
  have hruns : (run ++ c :: tail).takeWhile (fun c => !s c) = run := by
    rw [List.takeWhile_append_of_pos fun x hx => by rw [(hrun x hx).1]; rfl,
      List.takeWhile_cons_of_neg (by rw [hsc]; decide), List.append_nil]
  have hrunt : (run ++ c :: tail).takeWhile (fun c => !t c)
      = run ++ c :: tail.takeWhile fun c => !t c := by
    rw [List.takeWhile_append_of_pos fun x hx => by rw [(hrun x hx).2]; rfl,
      List.takeWhile_cons_of_pos (by rw [htc]; rfl)]
  have hhits := @hit_of_keyword s head (run ++ c :: tail) hhead
  have hhitt := @hit_of_keyword t head (run ++ c :: tail) hhead
  rw [hruns] at hhits
  rw [hrunt, if_neg (List.append_ne_nil_of_right_ne_nil _ (List.cons_ne_nil _ _))] at hhitt
  by_cases hnil : run = []
  · -- The keyword stays, where the other scanner writes a bracket.
    rw [if_pos hnil] at hhits ⊢
    obtain ⟨d, head, rfl⟩ := List.exists_cons_of_ne_nil (fun h : head = [] =>
      ne_nil_of_mem _ hhead (by rw [h]; rfl))
    have hbracket : d ≠ '[' := by
      rintro rfl
      have hletter : '['.toLower ∈ firstLetters := letter_of_head hhead rfl
      exact absurd hletter (by decide)
    rw [List.cons_append] at hhits
    rw [redact_of_hit hhitt, List.cons_append, redact_cons hhits, eq_comm]
    refine jsSlice_ne (c := '[') rfl fun h => hbracket (Option.some.inj h)
  · rw [if_neg hnil] at hhits ⊢
    have hdrops : (head ++ (run ++ c :: tail)).drop (head.length + run.length) = c :: tail := by
      rw [← List.append_assoc, ← List.length_append, List.drop_left]
    have hdropt : (head ++ (run ++ c :: tail)).drop
        (head.length + (run ++ c :: tail.takeWhile fun c => !t c).length)
          = tail.dropWhile fun c => !t c := by
      have hsplit : head ++ (run ++ c :: tail) = head ++ (run ++ c :: tail.takeWhile fun c => !t c)
          ++ tail.dropWhile fun c => !t c := by
        simp only [List.append_assoc, List.cons_append, List.takeWhile_append_dropWhile]
      rw [hsplit, ← List.length_append, List.drop_left]
    rw [redact_of_hit hhits, redact_of_hit hhitt, hdrops, hdropt, jsSlice_append,
      redact_cons (hit_of_stop hs hsc tail)]
    refine jsSlice_ne hunits ?_
    cases hrest : tail.dropWhile fun c => !t c with
    | nil =>
      rw [redact_nil]
      exact nofun
    | cons d rest =>
      have htd : t d = true := by
        have := List.head?_dropWhile_not (fun c => !t c) tail
        rw [hrest] at this
        simpa using this
      rw [redact_cons (hit_of_stop ht htd rest)]
      intro h
      rw [Option.some.inj h, htc] at htd
      cases htd

end Part

theorem splits_slice_iff {text : List Char} {offset n units : Nat} (h : Splits text offset) :
    jsSlice n units (redact isStop text) = jsSlice n units (redact isJsStop text)
      ↔ n ≤ units + offset := by
  obtain ⟨head, run, c, tail, rfl, hhead, hrun, rfl | rfl, rfl⟩ := h
  · exact slice_split_iff isStop_plain isJsStop_plain hhead hrun (by decide) (by decide)
      (by decide)
  · rw [eq_comm]
    exact slice_split_iff isJsStop_plain isStop_plain hhead (fun x hx => (hrun x hx).symm)
      (by decide) (by decide) (by decide)

/-- A text parts at one place. -/
theorem Splits.offset_eq {text : List Char} {offset offset' : Nat} (h : Splits text offset)
    (h' : Splits text offset') : offset = offset' := by
  have hiff : ∀ n, n ≤ 0 + offset ↔ n ≤ 0 + offset' := fun n =>
    (splits_slice_iff h).symm.trans (splits_slice_iff h')
  have := (hiff offset).1 (by omega)
  have := (hiff offset').2 (by omega)
  omega

/-- Elsewhere both scanners do the same. -/
theorem hit_eq_of_not_splits {text : List Char} (h : ∀ offset, ¬ Splits text offset) :
    hit isStop text = hit isJsStop text := by
  by_cases hkeyword : ∃ head after, text = head ++ after ∧ head.map Char.toLower ∈ keywords
  · obtain ⟨head, after, rfl, hhead⟩ := hkeyword
    have hruns : after.takeWhile (fun c => !isStop c) = after.takeWhile fun c => !isJsStop c := by
      have hafter := List.takeWhile_append_dropWhile
        (p := fun c => !isStop c && !isJsStop c) (l := after)
      have hcommon : ∀ x ∈ after.takeWhile (fun c => !isStop c && !isJsStop c),
          isStop x = false ∧ isJsStop x = false := by
        intro x hx
        have := List.mem_takeWhile_imp (p := fun c => !isStop c && !isJsStop c) hx
        simpa using this
      generalize after.takeWhile (fun c => !isStop c && !isJsStop c) = run at hafter hcommon
      have htake : ∀ stop : Char → Bool, (∀ x ∈ run, stop x = false) → ∀ rest,
          (run ++ rest).takeWhile (fun c => !stop c) = run ++ rest.takeWhile fun c => !stop c :=
        fun stop hstop rest => List.takeWhile_append_of_pos fun x hx => by rw [hstop x hx]; rfl
      cases hrest : after.dropWhile fun c => !isStop c && !isJsStop c with
      | nil =>
        rw [hrest] at hafter
        rw [← hafter, htake isStop fun x hx => (hcommon x hx).1,
          htake isJsStop fun x hx => (hcommon x hx).2]
        rfl
      | cons d tail =>
        have hd : (!isStop d && !isJsStop d) = false := by
          have := List.head?_dropWhile_not (fun c => !isStop c && !isJsStop c) after
          rw [hrest] at this
          simpa using this
        rw [hrest] at hafter
        have hsame : isStop d = isJsStop d := by
          by_contra hne
          exact h _ ⟨head, run, d, tail, by rw [hafter], hhead, hcommon, isStop_ne_iff.1 hne, rfl⟩
        have hstop : isStop d = true := by
          rw [← hsame, Bool.and_self] at hd
          simpa using hd
        rw [← hafter, htake isStop fun x hx => (hcommon x hx).1,
          htake isJsStop fun x hx => (hcommon x hx).2,
          List.takeWhile_cons_of_neg (by rw [hstop]; decide),
          List.takeWhile_cons_of_neg (by rw [← hsame, hstop]; decide)]
    rw [hit_of_keyword hhead, hit_of_keyword hhead, hruns]
  · have hnone : ∀ head after, text = head ++ after → head.map Char.toLower ∉ keywords :=
      fun head after htext hhead => hkeyword ⟨head, after, htext, hhead⟩
    rw [hit_eq_none_of hnone, hit_eq_none_of hnone]

theorem sum_redacted : (redacted.map unitsOf).sum = 10 := by decide

theorem late_of_hit {text : List Char} {units n : Nat} (hnone : ∀ offset, ¬ Splits text offset)
    (hhit : hit isJsStop text = some n) :
    Late units text ↔ Late (units + 10) (text.drop n) := by
  have hlongest := isLongest_of_hit isJsStop_equals hhit
  constructor
  · intro h out rest offset hscan hsplit
    have hlate := h _ rest offset
      (.replace hlongest (List.take_append_drop n text).symm hscan) hsplit
    rw [List.map_append, List.sum_append, sum_redacted] at hlate
    omega
  · intro h out rest offset hscan hsplit
    cases hscan with
    | here => exact absurd hsplit (hnone offset)
    | copy hno _ => exact absurd hlongest.isMatch (hno _ hlongest.here)
    | @replace _ found after out _ hfound htext hscan =>
      have hafter : after = text.drop n := by
        have hlength : found.length = n := by
          rw [hfound.eq hlongest, List.length_take, min_eq_left (length_of_hit hhit).2]
        rw [htext, ← hlength, List.drop_left]
      have hlate := h out rest offset (hafter ▸ hscan) hsplit
      rw [List.map_append, List.sum_append, sum_redacted]
      omega

theorem late_of_none {c : Char} {text : List Char} {units : Nat}
    (hnone : ∀ offset, ¬ Splits (c :: text) offset) (hhit : hit isJsStop (c :: text) = none) :
    Late units (c :: text) ↔ Late (units + unitsOf c) text := by
  have hno := (hit_eq_none_iff isJsStop_equals).1 hhit
  constructor
  · intro h out rest offset hscan hsplit
    have hlate := h _ rest offset (.copy hno hscan) hsplit
    rw [List.map_cons, List.sum_cons] at hlate
    omega
  · intro h out rest offset hscan hsplit
    cases hscan with
    | here => exact absurd hsplit (hnone offset)
    | copy _ hscan =>
      have hlate := h _ rest offset hscan hsplit
      rw [List.map_cons, List.sum_cons]
      omega
    | replace hfound _ _ => exact absurd hfound.isMatch (hno _ hfound.here)

theorem late_of_splits {text : List Char} {units offset : Nat} (h : Splits text offset) :
    Late units text ↔ 512 ≤ units + offset := by
  constructor
  · intro hlate
    exact hlate [] text offset (.here text) h
  · intro hle out rest offset' hscan hsplit
    have hoffset : offset ≤ 10 := by
      obtain ⟨_, _, _, _, _, _, _, _, rfl⟩ := h
      split <;> decide
    cases hscan with
    | here =>
      rw [h.offset_eq hsplit] at hle
      exact hle
    | copy hno _ =>
      obtain ⟨head, run, c, tail, htext, hhead, hrun, -, rfl⟩ := h
      have hnil : run = [] := by
        by_contra hne
        refine hno (head ++ run) ⟨c :: tail, by rw [htext, List.append_assoc]⟩ ?_
        exact (isMatch_iff isJsStop_equals).2 ⟨head, run, rfl, hhead, hne, fun x hx =>
          (hrun x hx).2⟩
      rw [if_pos hnil] at hle
      omega
    | replace _ _ _ =>
      rw [List.map_append, List.sum_append, sum_redacted]
      omega

/-- **The cut texts are equal exactly where they part after the cut.** -/
theorem slice_eq_iff (units : Nat) (text : List Char) :
    jsSlice 512 units (redact isStop text) = jsSlice 512 units (redact isJsStop text)
      ↔ Late units text := by
  induction text using redact.induct isStop generalizing units with
  | case1 text n hhit ih =>
    by_cases hsplit : ∃ offset, Splits text offset
    · obtain ⟨offset, hsplit⟩ := hsplit
      rw [splits_slice_iff hsplit, late_of_splits hsplit]
    · have hnone := not_exists.1 hsplit
      have hhit' := (hit_eq_of_not_splits hnone).symm.trans hhit
      rw [redact_of_hit hhit, redact_of_hit hhit', jsSlice_append, sum_redacted,
        late_of_hit hnone hhit', ih]
  | case2 hhit =>
    refine iff_of_true (by rw [redact_nil, redact_nil]) fun out rest offset hscan hsplit => ?_
    cases hscan with
    | here =>
      obtain ⟨head, run, c, tail, htext, -⟩ := hsplit
      exact absurd htext.symm (by simp)
    | @replace _ found after _ _ hfound htext _ =>
      obtain ⟨head, run, hparts, -, hne, -⟩ := (isMatch_iff isJsStop_equals).1 hfound.isMatch
      rw [hparts] at htext
      exact absurd (List.append_eq_nil_iff.1 (List.append_eq_nil_iff.1 htext.symm).1).2 hne
  | case3 c rest hhit ih =>
    by_cases hsplit : ∃ offset, Splits (c :: rest) offset
    · obtain ⟨offset, hsplit⟩ := hsplit
      rw [splits_slice_iff hsplit, late_of_splits hsplit]
    · have hnone := not_exists.1 hsplit
      have hhit' := (hit_eq_of_not_splits hnone).symm.trans hhit
      have happend := @jsSlice_append 512 units [c] (redact isStop rest) (redact isJsStop rest)
      rw [redact_cons hhit, redact_cons hhit', late_of_none hnone hhit', ← ih]
      simpa using happend

/-! ### What a summary keeps to -/

/-- Every keyword of a text that a character follows directly is followed by a stop. -/
def Followed (stop : Char → Bool) (text : List Char) : Prop :=
  ∀ before head c after, text = before ++ (head ++ c :: after) →
    head.map Char.toLower ∈ keywords → stop c = true

theorem Followed.beginning {stop : Char → Bool} {text whole : List Char} (h : Followed stop whole)
    (hpart : text <+: whole) : Followed stop text := by
  rintro before head c after rfl hhead
  obtain ⟨rest, rfl⟩ := hpart
  refine h before head c (after ++ rest) ?_ hhead
  simp only [List.append_assoc, List.cons_append]

section Followed

variable {stop : Char → Bool}
  (hplain : ∀ c, stop c = true → ∀ keyword ∈ keywords, keyword.head? ≠ some c.toLower)

/-- What is redacted is written with a bracket: everything else is a copy. -/
theorem redact_eq_append {copied x text : List Char} (h : redact stop text = copied ++ x)
    (hbracket : '[' ∉ copied) : ∃ rest, text = copied ++ rest ∧ x = redact stop rest := by
  induction copied generalizing text with
  | nil => exact ⟨text, rfl, h.symm⟩
  | cons c copied ih =>
    rw [List.mem_cons, not_or] at hbracket
    cases hhit : hit stop text with
    | some n =>
      rw [redact_of_hit hhit] at h
      exact absurd (List.cons.inj h).1 hbracket.1
    | none =>
      cases text with
      | nil =>
        rw [redact_nil] at h
        cases h
      | cons d text =>
        rw [redact_cons hhit] at h
        obtain ⟨rfl, htext⟩ := List.cons.inj h
        obtain ⟨rest, rfl, hx⟩ := ih htext hbracket.2
        exact ⟨rest, rfl, hx⟩

/-- No keyword starts in what replaces another. -/
theorem not_keyword_in_redacted : ∀ i < 10, ∀ keyword ∈ keywords,
    keyword.take (min 2 (10 - i)) ≠ ((redacted.drop i).take (min 2 (10 - i))).map Char.toLower := by
  decide +kernel

theorem length_keyword : ∀ keyword ∈ keywords, 5 ≤ keyword.length := by
  decide +kernel

theorem not_bracket_of_keyword {head : List Char} (hhead : head.map Char.toLower ∈ keywords) :
    '[' ∉ head := by
  have hnone : ∀ keyword ∈ keywords, '[' ∉ keyword := by decide +kernel
  exact fun hmem => hnone _ hhead (List.mem_map.2 ⟨'[', hmem, rfl⟩)

include hplain

/-- **A redacted text has no keyword that anything but a stop follows.** -/
theorem followed_redact (text : List Char) : Followed stop (redact stop text) := by
  induction text using redact.induct stop with
  | case1 text n hhit ih =>
    rw [redact_of_hit hhit]
    intro before head c after heq hhead
    rcases List.append_eq_append_iff.1 heq with ⟨before', rfl, heq'⟩ | ⟨rest, hrest, heq'⟩
    · exact ih before' head c after heq' hhead
    · by_cases hnil : rest = []
      · rw [hnil, List.nil_append] at heq'
        exact ih [] head c after heq'.symm hhead
      · exfalso
        have hlength : before.length + rest.length = 10 := by
          rw [← List.length_append, ← hrest]
          rfl
        have hpos := List.length_pos_iff.2 hnil
        have hkeyword := length_keyword _ hhead
        rw [List.length_map] at hkeyword
        have hdrop : redacted.drop before.length = rest := by rw [hrest, List.drop_left]
        refine not_keyword_in_redacted before.length (by omega) _ hhead ?_
        rw [hdrop, ← List.map_take]
        refine congrArg _ ?_
        have htake := congrArg (List.take (min 2 (10 - before.length))) heq'
        rwa [List.take_append_of_le_length (by omega), List.take_append_of_le_length (by omega)]
          at htake
  | case2 hhit =>
    rw [redact_nil]
    intro before head c after heq
    exact absurd heq.symm (by simp)
  | case3 d rest hhit ih =>
    rw [redact_cons hhit]
    intro before head c after heq hhead
    cases before with
    | cons b before => exact ih before head c after (List.cons.inj heq).2 hhead
    | nil =>
      rw [← redact_cons hhit, List.nil_append] at heq
      obtain ⟨tail, htail, hx⟩ := redact_eq_append heq (not_bracket_of_keyword hhead)
      rw [htail, hit_of_keyword hhead] at hhit
      split at hhit
      next hrun =>
        cases tail with
        | nil =>
          rw [redact_nil] at hx
          cases hx
        | cons e tail =>
          have hstop : stop e = true := by
            by_contra hne
            rw [List.takeWhile_cons_of_pos (by simpa using hne)] at hrun
            cases hrun
          rw [redact_cons (hit_of_stop hplain hstop tail)] at hx
          rw [(List.cons.inj hx).1]
          exact hstop
      next => cases hhit

omit hplain in
/-- Such a text is not redacted again. -/
theorem redact_of_followed {text : List Char} (h : Followed stop text) :
    redact stop text = text := by
  induction text with
  | nil => exact redact_nil
  | cons d rest ih =>
    have hhit : hit stop (d :: rest) = none := by
      cases hhit : hit stop (d :: rest) with
      | none => rfl
      | some n =>
        obtain ⟨keyword, hmem, hkeyword⟩ := List.exists_of_findSome?_eq_some hhit
        obtain ⟨htake, hrun, -⟩ := hitOf_eq_some.1 hkeyword
        have hsplit := List.take_append_drop keyword.length (d :: rest)
        cases hdrop : (d :: rest).drop keyword.length with
        | nil =>
          rw [hdrop] at hrun
          exact absurd hrun (Nat.lt_irrefl 0)
        | cons c after =>
          rw [hdrop] at hsplit hrun
          have hstop := h [] _ c after hsplit.symm (htake.symm ▸ hmem)
          rw [List.takeWhile_cons_of_neg (by rw [hstop]; decide)] at hrun
          exact absurd hrun (Nat.lt_irrefl 0)
    rw [redact_cons hhit, ih]
    rintro before head c after rfl hhead
    exact h (d :: before) head c after rfl hhead

end Followed

theorem jsSlice_part (n units : Nat) (text : List Char) : jsSlice n units text <+: text := by
  induction text generalizing units with
  | nil => exact List.nil_prefix
  | cons c text ih =>
    rw [jsSlice]
    split
    · exact List.nil_prefix
    · exact (List.prefix_cons_inj c).2 (ih _)

theorem jsSlice_jsSlice (n units : Nat) (text : List Char) :
    jsSlice n units (jsSlice n units text) = jsSlice n units text := by
  induction text generalizing units with
  | nil => rfl
  | cons c text ih =>
    by_cases hcut : units + unitsOf c > n
    · rw [jsSlice, if_pos hcut]
      rfl
    · rw [jsSlice, if_neg hcut, jsSlice, if_neg hcut, ih]

/-- **A summary is its own summary.** -/
theorem summarizeFailure_again (message : List Char) :
    summarizeFailure (summarizeFailure message) = summarizeFailure message := by
  have hfollowed := (followed_redact isStop_plain message).beginning
    (jsSlice_part 512 0 (redact isStop message))
  unfold summarizeFailure
  rw [redact_of_followed hfollowed, jsSlice_jsSlice]

/-- A text cut to so many units, no character split. -/
structure IsCut (n : Nat) (text cut : List Char) : Prop where
  part : cut <+: text
  fits : (cut.map unitsOf).sum ≤ n
  longest : ∀ other, other <+: text → (other.map unitsOf).sum ≤ n → other <+: cut

theorem jsSlice_fits {n units : Nat} (h : units ≤ n) (text : List Char) :
    units + ((jsSlice n units text).map unitsOf).sum ≤ n := by
  induction text generalizing units with
  | nil => exact h
  | cons c text ih =>
    rw [jsSlice]
    split
    · exact h
    · rw [List.map_cons, List.sum_cons, ← Nat.add_assoc]
      exact ih (by omega)

theorem part_jsSlice {n units : Nat} {other text : List Char} (hpart : other <+: text)
    (hfits : units + (other.map unitsOf).sum ≤ n) : other <+: jsSlice n units text := by
  induction text generalizing units other with
  | nil =>
    rw [List.prefix_nil.1 hpart]
    exact List.nil_prefix
  | cons c text ih =>
    cases other with
    | nil => exact List.nil_prefix
    | cons d other =>
      obtain ⟨rfl, hrest⟩ := List.cons_prefix_cons.1 hpart
      rw [List.map_cons, List.sum_cons, ← Nat.add_assoc] at hfits
      rw [jsSlice, if_neg (by omega), List.prefix_cons_inj]
      exact ih hrest hfits

theorem isCut_jsSlice (n : Nat) (text : List Char) : IsCut n text (jsSlice n 0 text) where
  part := jsSlice_part n 0 text
  fits := by
    have hfits := jsSlice_fits (Nat.zero_le n) text
    rwa [Nat.zero_add] at hfits
  longest _ hpart hfits := part_jsSlice hpart (by rwa [Nat.zero_add])

theorem IsCut.eq {n : Nat} {text cut cut' : List Char} (h : IsCut n text cut)
    (h' : IsCut n text cut') : cut = cut' :=
  (h'.longest cut h.part h.fits).eq_of_length_le (h.longest cut' h'.part h'.fits).length_le

/-- **The documented summary of a message**: every leftmost longest match replaced, and cut
to 512 units; no keyword of it is followed by anything but white space, a comma or a
semicolon, and it is its own summary. -/
structure Documented (message summary : List Char) : Prop where
  replaced : ∃ out, Scan isJsStop message out [] ∧ IsCut 512 out summary
  followed : Followed isJsStop summary
  again : summarizeFailure summary = summary

theorem replaced_iff_late (message : List Char) :
    (∃ out, Scan isJsStop message out [] ∧ IsCut 512 out (summarizeFailure message))
      ↔ Late 0 message := by
  rw [← slice_eq_iff]
  constructor
  · rintro ⟨out, hscan, hcut⟩
    obtain rfl := (scan_iff isJsStop_equals).1 hscan
    exact hcut.eq (isCut_jsSlice 512 _)
  · intro h
    refine ⟨_, scan_redact isJsStop_equals message, ?_⟩
    unfold summarizeFailure
    rw [h]
    exact isCut_jsSlice 512 _

/-- **The summary is the documented one exactly where U+0085 and U+FEFF end no credential
before the cut.** -/
theorem summary_iff (message : List Char) :
    Documented message (summarizeFailure message) ↔ Late 0 message := by
  rw [← replaced_iff_late]
  constructor
  · exact Documented.replaced
  · intro h
    refine ⟨h, ?_, summarizeFailure_again message⟩
    obtain ⟨out, hscan, hcut⟩ := h
    obtain rfl := (scan_iff isJsStop_equals).1 hscan
    exact (followed_redact isJsStop_plain message).beginning hcut.part

/-- **A keyword that a next line follows is kept.** -/
theorem kept_before_next_line :
    ¬ Documented "token\u0085x".toList (summarizeFailure "token\u0085x".toList) := by
  intro h
  have hlate := (replaced_iff_late _).1 h.replaced
  have hsplit : Splits "token\u0085x".toList 0 :=
    ⟨"token".toList, [], '\u0085', ['x'], by decide, by decide, List.forall_mem_nil _, .inl rfl,
      rfl⟩
  exact absurd (hlate [] _ 0 (.here _) hsplit) (by decide)

end FailureSummary

end Foreseerr

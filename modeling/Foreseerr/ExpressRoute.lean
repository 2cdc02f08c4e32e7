import Foreseerr.Delimited
import Foreseerr.PercentTexts
import Mathlib.Data.Bool.Basic
import Mathlib.Data.List.Lex

/-!
# Express routes

`routes/expressroute.rs`: a request's path is matched against the registered paths as
Express matches it, without regard to case and with a trailing slash or none, and is
rewritten to the path as it is registered, which axum then matches exactly.

Which registered path is picked is the least of those that fit, in one order: literals
before parameters from left to right, then the earlier one (`select_eq_some_iff`). The
rewritten path is picked up by the same one (`canonical_keeps_route`): either the code has
seen that it is, or it wrote the parameters as they came, and what fits them exactly also
fitted the request.
-/

namespace Foreseerr

namespace ExpressRoute

/-- A text. -/
abbrev Text := List Char

/-- One segment of a registered path. -/
inductive Segment
  | literal (text : Text)
  | param
deriving DecidableEq, Repr

/-- The registered paths with a `/` route inside a mounted router, and its methods. -/
def mountRoots : List (Text × List Text) :=
  [("/api/v1/blocklist", ["GET", "POST"]), ("/api/v1/calendar", ["GET"]),
    ("/api/v1/discover/watchlist", ["GET"]), ("/api/v1/issue", ["GET", "POST"]),
    ("/api/v1/media", ["GET"]), ("/api/v1/overrideRule", ["GET", "POST"]),
    ("/api/v1/request", ["GET", "POST"]), ("/api/v1/search", ["GET"]),
    ("/api/v1/servarr/interventions", ["GET"]), ("/api/v1/settings/discover", ["POST"]),
    ("/api/v1/settings/metadatas", ["GET", "PUT"]), ("/api/v1/settings/radarr", ["GET", "POST"]),
    ("/api/v1/settings/sonarr", ["GET", "POST"]), ("/api/v1/user", ["GET", "POST", "PUT"]),
    ("/api/v1/watchlist", ["POST"])].map fun root => (root.1.toList, root.2.map String.toList)

/-- A segment of a registered path: a parameter stands in braces. -/
def segmentOf (seg : Text) : Segment :=
  if seg.head? = some '{' ∧ seg.getLast? = some '}' then .param else .literal seg

/-- The segments of a registered path. -/
def templateOf (path : Text) : List Segment :=
  ((path.dropWhile (· = '/')).splitOn '/').map segmentOf

/-- Every registered path, split into segments. -/
structure Paths where
  names : List Text
  templates : List (List Segment)
deriving DecidableEq, Repr

/-- `Paths::new`. -/
def Paths.new (names : List Text) : Paths := ⟨names, names.map templateOf⟩

/-- `more_specific`: a literal where the other has a parameter, at the first place where
the two differ in kind. -/
def moreSpecific : List Segment → List Segment → Bool
  | .literal _ :: _, .param :: _ => true
  | .param :: _, .literal _ :: _ => false
  | _ :: a, _ :: b => moreSpecific a b
  | _, _ => false

/-- `eq_ignore_ascii_case`. -/
def eqIgnoreCase (a b : Text) : Bool := a.map Char.toLower = b.map Char.toLower

/-- Whether a segment of a registered path takes one of a request. -/
def takes (exact : Bool) : Segment → Text → Bool
  | .literal literal, got => if exact then literal = got else eqIgnoreCase literal got
  | .param, got => got ≠ []

/-- Whether a registered path fits the segments of a request. -/
def fits (exact : Bool) (template : List Segment) (segments : List Text) : Bool :=
  template.length = segments.length
    && (template.zip segments).all fun (want, got) => takes exact want got

/-- One round of `select`. -/
def better (templates : List (List Segment)) (segments : List Text) (exact : Bool)
    (best : Option Nat) (candidate : List Segment × Nat) : Option Nat :=
  let (template, i) := candidate
  if fits exact template segments then
    match best.bind fun b => (templates[b]?).map fun current => (b, current) with
    | some (b, current) => if moreSpecific template current then some i else some b
    | none => some i
  else best

/-- `select`. -/
def Paths.select (paths : Paths) (segments : List Text) (exact : Bool) : Option Nat :=
  paths.templates.zipIdx.foldl (better paths.templates segments exact) none

/-- A path without what takes one trailing slash off, or two. -/
def trimmed (doubled : Bool) (path : Text) : Text :=
  if doubled then path.dropLast.dropLast
  else if 1 < path.length ∧ path.getLast? = some '/' then path.dropLast
  else path

/-- `strip_prefix('/')`, and the segments. -/
def segmentsOf : Text → Option (List Text)
  | '/' :: rest => some (rest.splitOn '/')
  | _ => none

/-- A segment of the rewritten path, a parameter decoded and encoded again. -/
def rewritten : Segment → Text → Option Text
  | .literal literal, _ => some literal
  | .param, got => (Qs.decodeUriComponent got).map Qs.encodeParam

/-- A segment of the rewritten path, a parameter as it came. -/
def kept : Segment → Text → Text
  | .literal literal, _ => literal
  | .param, got => got

/-- The segments of a request, written as they came where they are parameters. -/
def keptParts (template : List Segment) (segments : List Text) : List Text :=
  (template.zip segments).map fun (want, got) => kept want got

/-- The mount takes a trailing slash and its `/` route another. -/
def isMountRoot (name method : Text) : Bool :=
  mountRoots.any fun (root, methods) => root = name && methods.contains method

/-- Two trailing slashes are for the roots of mounts only. -/
def Paths.allows (paths : Paths) (doubled : Bool) (chosen : Nat) (method : Text) : Bool :=
  !doubled || (paths.names[chosen]?).any fun name => isMountRoot name method

/-- The segments that are written for those of a request. -/
def Paths.rewrite (paths : Paths) (chosen : Nat) (template : List Segment) (segments : List Text) :
    Option (List Text) := do
  let parts ← (template.zip segments).mapM fun (want, got) => rewritten want got
  -- a decoded parameter that spells a sibling's literal would route there
  some (if paths.select parts true = some chosen then parts
    else keptParts template segments)

/-- A path ends in two slashes, behind something. -/
def isDoubled (path : Text) : Bool := 2 < path.length ∧ ['/', '/'] <:+ path

/-- A path of these segments. -/
def pathOf (segments : List Text) : Text := '/' :: ['/'].intercalate segments

/-- `canonical`. -/
def Paths.canonical (paths : Paths) (path method : Text) : Option Text := do
  let segments ← segmentsOf (trimmed (isDoubled path) path)
  let chosen ← paths.select segments false
  if paths.allows (isDoubled path) chosen method then
    let template ← paths.templates[chosen]?
    let canonical ← paths.rewrite chosen template segments
    if pathOf canonical ≠ path then some (pathOf canonical) else none
  else none

/-! ## Which path is selected -/

/-- Whether a segment is a parameter. -/
def Segment.isParam : Segment → Bool
  | .literal _ => false
  | .param => true

/-- The kinds of a path's segments: less is more specific. -/
def kinds (template : List Segment) : List Bool := template.map Segment.isParam

theorem moreSpecific_iff {a b : List Segment} (h : a.length = b.length) :
    moreSpecific a b = true ↔ kinds a < kinds b := by
  induction a generalizing b with
  | nil =>
    obtain rfl := List.length_eq_zero_iff.1 h.symm
    exact iff_of_false Bool.false_ne_true (lt_irrefl _)
  | cons x a ih =>
    cases b with
    | nil => cases h
    | cons y b =>
      have hrest := ih (Nat.succ.inj h)
      unfold kinds at hrest ⊢
      rw [List.map_cons, List.map_cons, List.cons_lt_cons_iff]
      cases x <;> cases y <;> simp [moreSpecific, Segment.isParam, hrest]

/-- Of the first so many registered paths, the one that fits best, and the first of those. -/
structure IsPick (templates : List (List Segment)) (segments : List Text) (exact : Bool)
    (count i : Nat) : Prop where
  lt : i < count
  best : ∃ template, templates[i]? = some template ∧ fits exact template segments = true
    ∧ ∀ j < count, ∀ other, templates[j]? = some other → fits exact other segments = true →
      kinds template < kinds other ∨ (kinds template = kinds other ∧ i ≤ j)

section Select

variable {templates : List (List Segment)} {segments : List Text} {exact : Bool}

theorem length_of_fits {template : List Segment} (h : fits exact template segments = true) :
    template.length = segments.length := by
  unfold fits at h
  rw [Bool.and_eq_true, decide_eq_true_iff] at h
  exact h.1

theorem IsPick.eq {count i j : Nat} (hi : IsPick templates segments exact count i)
    (hj : IsPick templates segments exact count j) : i = j := by
  obtain ⟨hlt, t, ht, hfits, hbest⟩ := hi
  obtain ⟨hlt', u, hu, hfits', hbest'⟩ := hj
  rcases hbest j hlt' u hu hfits' with h | ⟨h, hle⟩
  · rcases hbest' i hlt t ht hfits with h' | ⟨h', -⟩
    · exact absurd h' (lt_asymm h)
    · exact absurd h'.symm h.ne
  · rcases hbest' i hlt t ht hfits with h' | ⟨-, hle'⟩
    · exact absurd h.symm h'.ne
    · exact hle.antisymm hle'

/-- What a round makes of the pick so far. -/
theorem better_spec {count : Nat} {template : List Segment} {best : Option Nat}
    (htemplate : templates[count]? = some template)
    (hbest : ∀ i, best = some i → IsPick templates segments exact count i)
    (hnone : best = none → ∀ j < count, ∀ other, templates[j]? = some other →
      fits exact other segments = false) :
    (∀ i, better templates segments exact best (template, count) = some i →
        IsPick templates segments exact (count + 1) i)
      ∧ (better templates segments exact best (template, count) = none →
        ∀ j < count + 1, ∀ other, templates[j]? = some other →
          fits exact other segments = false) := by
  have hother : ∀ j < count + 1, ∀ other, templates[j]? = some other →
      j < count ∨ (j = count ∧ other = template) := by
    intro j hj other hat
    rcases (Nat.lt_succ_iff.1 hj).lt_or_eq with hj | rfl
    · exact .inl hj
    · exact .inr ⟨rfl, Option.some.inj (hat.symm.trans htemplate)⟩
  unfold better
  dsimp only
  split
  next hfits =>
    cases best with
    | none =>
      refine ⟨fun i hi => ?_, nofun⟩
      obtain rfl := Option.some.inj hi
      refine ⟨Nat.lt_succ_self _, template, htemplate, hfits, fun j hj other hat hfits' => ?_⟩
      rcases hother j hj other hat with hlt | ⟨rfl, rfl⟩
      · rw [hnone rfl j hlt other hat] at hfits'
        cases hfits'
      · exact .inr ⟨rfl, le_rfl⟩
    | some b =>
      obtain ⟨hlt, current, hcurrent, hfits', hbest⟩ := hbest b rfl
      have hspecific := moreSpecific_iff
        ((length_of_fits hfits).trans (length_of_fits hfits').symm)
      rw [Option.bind_some, hcurrent, Option.map_some]
      dsimp only
      split
      next hmore =>
        rw [hspecific] at hmore
        refine ⟨fun i hi => ?_, nofun⟩
        obtain rfl := Option.some.inj hi
        refine ⟨Nat.lt_succ_self _, template, htemplate, hfits, fun j hj other hat hfits'' => ?_⟩
        rcases hother j hj other hat with hlt | ⟨rfl, rfl⟩
        · rcases hbest j hlt other hat hfits'' with hless | ⟨hsame, -⟩
          · exact .inl (hmore.trans hless)
          · exact .inl (hsame ▸ hmore)
        · exact .inr ⟨rfl, le_rfl⟩
      next hmore =>
        rw [hspecific, not_lt] at hmore
        refine ⟨fun i hi => ?_, nofun⟩
        obtain rfl := Option.some.inj hi
        refine ⟨hlt.trans (Nat.lt_succ_self _), current, hcurrent, hfits',
          fun j hj other hat hfits'' => ?_⟩
        rcases hother j hj other hat with hlt' | ⟨rfl, rfl⟩
        · exact hbest j hlt' other hat hfits''
        · exact hmore.lt_or_eq.imp id fun hsame => ⟨hsame, hlt.le⟩
  next hfits =>
    refine ⟨fun i hi => ?_, fun hi j hj other hat => ?_⟩
    · obtain ⟨hlt, current, hcurrent, hfits', hbest⟩ := hbest i hi
      refine ⟨hlt.trans (Nat.lt_succ_self _), current, hcurrent, hfits',
        fun j hj other hat hfits'' => ?_⟩
      rcases hother j hj other hat with hlt' | ⟨rfl, rfl⟩
      · exact hbest j hlt' other hat hfits''
      · exact absurd hfits'' hfits
    · rcases hother j hj other hat with hlt | ⟨rfl, rfl⟩
      · exact hnone hi j hlt other hat
      · exact Bool.not_eq_true _ ▸ hfits

/-- **The selected path is the one that fits best, and the first of those.** -/
theorem foldl_better {count : Nat} (hcount : count ≤ templates.length) :
    (∀ i, (templates.zipIdx.take count).foldl (better templates segments exact) none = some i →
        IsPick templates segments exact count i)
      ∧ ((templates.zipIdx.take count).foldl (better templates segments exact) none = none →
        ∀ j < count, ∀ other, templates[j]? = some other →
          fits exact other segments = false) := by
  induction count with
  | zero =>
    rw [List.take_zero]
    exact ⟨fun i => nofun, fun _ j hj => absurd hj (Nat.not_lt_zero j)⟩
  | succ count ih =>
    have hlt : count < templates.zipIdx.length := by
      rw [List.length_zipIdx]
      omega
    have hat : templates.zipIdx[count] = (templates[count], count) := by
      rw [List.getElem_zipIdx, Nat.zero_add]
    obtain ⟨hbest, hnone⟩ := ih (Nat.le_of_succ_le hcount)
    rw [List.take_add_one, List.getElem?_eq_getElem hlt, hat, List.foldl_append]
    exact better_spec (List.getElem?_eq_getElem _) hbest hnone

theorem select_eq_some_iff {paths : Paths} {i : Nat} :
    paths.select segments exact = some i
      ↔ IsPick paths.templates segments exact paths.templates.length i := by
  obtain ⟨hsome, hnone⟩ := @foldl_better _ segments exact _ (le_refl paths.templates.length)
  rw [← List.length_zipIdx, List.take_length, List.length_zipIdx] at hsome hnone
  refine ⟨hsome i, fun h => ?_⟩
  unfold Paths.select
  cases hselect : paths.templates.zipIdx.foldl (better paths.templates segments exact) none with
  | none =>
    obtain ⟨hlt, template, htemplate, hfits, -⟩ := h
    rw [hnone hselect i hlt template htemplate] at hfits
    cases hfits
  | some j => rw [(hsome j hselect).eq h]

end Select

/-! ## What is written fits -/

section Kept

variable {template other : List Segment} {segments : List Text}

theorem fits_cons {exact : Bool} {want : Segment} {got : Text} :
    fits exact (want :: template) (got :: segments)
      = (takes exact want got && fits exact template segments) := by
  have hlength : decide (template.length + 1 = segments.length + 1)
      = decide (template.length = segments.length) := decide_eq_decide.2 Nat.succ_inj
  unfold fits
  rw [List.length_cons, List.length_cons, List.zip_cons_cons, List.all_cons, Bool.and_left_comm,
    hlength]

theorem eqIgnoreCase_nil {a : Text} : eqIgnoreCase a [] = true ↔ a = [] := by
  unfold eqIgnoreCase
  rw [decide_eq_true_iff, List.map_nil, List.map_eq_nil_iff]

theorem takes_kept {want : Segment} {got : Text} (h : takes false want got = true) :
    takes true want (kept want got) = true := by
  cases want with
  | literal literal => exact decide_eq_true rfl
  | param => exact h

/-- What takes a segment as it is written takes it as it came. -/
theorem takes_of_takes_kept {want other : Segment} {got : Text} (h : takes false want got = true)
    (hother : takes true other (kept want got) = true) : takes false other got = true := by
  cases want with
  | literal literal =>
    cases other with
    | literal text =>
      obtain rfl := of_decide_eq_true hother
      exact h
    | param =>
      refine decide_eq_true fun hnil => ?_
      rw [hnil] at h
      exact of_decide_eq_true hother (eqIgnoreCase_nil.1 h)
  | param =>
    cases other with
    | literal text =>
      obtain rfl := of_decide_eq_true hother
      exact decide_eq_true rfl
    | param => exact hother

theorem fits_kept (h : fits false template segments = true) :
    fits true template (keptParts template segments) = true := by
  induction template generalizing segments with
  | nil => rfl
  | cons want template ih =>
    cases segments with
    | nil => cases length_of_fits h
    | cons got segments =>
      rw [fits_cons, Bool.and_eq_true] at h
      unfold keptParts
      rw [List.zip_cons_cons, List.map_cons, fits_cons, Bool.and_eq_true]
      exact ⟨takes_kept h.1, ih h.2⟩

theorem fits_of_fits_kept (h : fits false template segments = true)
    (hother : fits true other (keptParts template segments) = true) :
    fits false other segments = true := by
  induction template generalizing segments other with
  | nil =>
    obtain rfl := List.length_eq_zero_iff.1 (length_of_fits h).symm
    obtain rfl := List.length_eq_zero_iff.1 (length_of_fits hother)
    rfl
  | cons want template ih =>
    cases segments with
    | nil => cases length_of_fits h
    | cons got segments =>
      cases other with
      | nil => cases length_of_fits hother
      | cons want' other =>
        unfold keptParts at hother
        rw [List.zip_cons_cons, List.map_cons] at hother
        rw [fits_cons, Bool.and_eq_true] at h hother ⊢
        exact ⟨takes_of_takes_kept h.1 hother.1, ih h.2 hother.2⟩

end Kept

theorem fits_of_select {paths : Paths} {segments : List Text} {exact : Bool} {chosen : Nat}
    {template : List Segment} (h : paths.select segments exact = some chosen)
    (htemplate : paths.templates[chosen]? = some template) :
    fits exact template segments = true := by
  obtain ⟨-, template', htemplate', hfits, -⟩ := select_eq_some_iff.1 h
  rw [← Option.some.inj (htemplate'.symm.trans htemplate)]
  exact hfits

/-- **The parameters as they came are routed as the request was.** -/
theorem select_kept {paths : Paths} {segments : List Text} {chosen : Nat}
    {template : List Segment} (h : paths.select segments false = some chosen)
    (htemplate : paths.templates[chosen]? = some template) :
    paths.select (keptParts template segments) true = some chosen := by
  have hfits := fits_of_select h htemplate
  obtain ⟨hlt, template', htemplate', -, hbest⟩ := select_eq_some_iff.1 h
  obtain rfl := Option.some.inj (htemplate'.symm.trans htemplate)
  exact select_eq_some_iff.2 ⟨hlt, template', htemplate, fits_kept hfits,
    fun j hj other hother hfits' => hbest j hj other hother (fits_of_fits_kept hfits hfits')⟩

section Parts

variable {α β : Type} {f : α → Option β} {l : List α} {ys : List β}

theorem getElem?_of_mapM (h : l.mapM f = some ys) {i : Nat} {x : α} (hx : l[i]? = some x) :
    ∃ y, ys[i]? = some y ∧ f x = some y := by
  induction l generalizing ys i with
  | nil => cases hx
  | cons a l ih =>
    rw [List.mapM_cons] at h
    obtain ⟨y, hy, h⟩ := Option.bind_eq_some_iff.1 h
    obtain ⟨rest, hrest, h⟩ := Option.bind_eq_some_iff.1 h
    obtain rfl := Option.some.inj h
    cases i with
    | zero =>
      obtain rfl := Option.some.inj hx
      exact ⟨y, rfl, hy⟩
    | succ i => exact ih hrest hx

theorem mem_of_mapM (h : l.mapM f = some ys) {y : β} (hy : y ∈ ys) : ∃ x ∈ l, f x = some y := by
  induction l generalizing ys with
  | nil =>
    obtain rfl := Option.some.inj h
    cases hy
  | cons a l ih =>
    rw [List.mapM_cons] at h
    obtain ⟨z, hz, h⟩ := Option.bind_eq_some_iff.1 h
    obtain ⟨rest, hrest, h⟩ := Option.bind_eq_some_iff.1 h
    obtain rfl := Option.some.inj h
    rcases List.mem_cons.1 hy with rfl | hy
    · exact ⟨a, List.mem_cons_self, hz⟩
    · obtain ⟨x, hx, hfx⟩ := ih hrest hy
      exact ⟨x, List.mem_cons_of_mem a hx, hfx⟩

end Parts

/-- A parameter is decoded, and what is written for it decodes to the same. -/
theorem param_of_rewrite {paths : Paths} {chosen : Nat} {template : List Segment}
    {segments parts : List Text} (h : paths.rewrite chosen template segments = some parts) {i : Nat}
    (hparam : template[i]? = some .param) {got : Text} (hgot : segments[i]? = some got) :
    ∃ value part, Qs.decodeUriComponent got = some value ∧ parts[i]? = some part
      ∧ Qs.decodeUriComponent part = some value := by
  obtain ⟨decoded, hdecoded, h⟩ := Option.bind_eq_some_iff.1 h
  have hat : (template.zip segments)[i]? = some (.param, got) :=
    List.getElem?_zip_eq_some.2 ⟨hparam, hgot⟩
  obtain ⟨part, hpart, hwritten⟩ := getElem?_of_mapM hdecoded hat
  obtain ⟨value, hvalue, rfl⟩ := Option.map_eq_some_iff.1 hwritten
  obtain rfl := Option.some.inj h
  split
  · exact ⟨value, Qs.encodeParam value, hvalue, hpart, Qs.decode_encodeParam value⟩
  · refine ⟨value, got, hvalue, ?_, hvalue⟩
    rw [keptParts, List.getElem?_map, hat]
    rfl

/-- What is written is routed as the request was. -/
theorem select_of_rewrite {paths : Paths} {chosen : Nat} {template : List Segment}
    {segments parts : List Text} (hchosen : paths.select segments false = some chosen)
    (htemplate : paths.templates[chosen]? = some template)
    (h : paths.rewrite chosen template segments = some parts) :
    paths.select parts true = some chosen := by
  obtain ⟨decoded, hdecoded, h⟩ := Option.bind_eq_some_iff.1 h
  obtain rfl := Option.some.inj h
  split
  next hsame => exact hsame
  next => exact select_kept hchosen htemplate

/-! ## Paths and their segments -/

/-- The segments of a request's path without its trailing slashes. -/
def bareSegments (path : Text) : List Text := ((trimEnd (· = '/') path).drop 1).splitOn '/'

theorem segmentsOf_pathOf {segments : List Text} (hne : segments ≠ [])
    (hslash : ∀ segment ∈ segments, '/' ∉ segment) :
    segmentsOf (pathOf segments) = some segments :=
  congrArg some (List.splitOn_intercalate '/' hslash hne)

theorem segmentsOf_eq_some {path : Text} {segments : List Text}
    (h : segmentsOf path = some segments) :
    ∃ rest, path = '/' :: rest ∧ segments = rest.splitOn '/' := by
  unfold segmentsOf at h
  split at h
  next rest => exact ⟨rest, rfl, (Option.some.inj h).symm⟩
  next => cases h

theorem trimEnd_append (q : Text) : trimEnd (· = '/') (q ++ ['/']) = trimEnd (· = '/') q := by
  unfold trimEnd
  rw [List.reverse_append, List.reverse_singleton, List.singleton_append,
    List.dropWhile_cons_of_pos (by decide)]

theorem trimEnd_of_getLast? {q : Text} (h : q.getLast? ≠ some '/') :
    trimEnd (· = '/') q = q := by
  unfold trimEnd
  rw [List.getLast?_eq_head?_reverse] at h
  cases hreverse : q.reverse with
  | nil =>
    rw [List.reverse_eq_nil_iff.1 hreverse]
    rfl
  | cons c rest =>
    rw [hreverse] at h
    have hc : ¬ decide (c = '/') = true := fun hc => h (congrArg some (of_decide_eq_true hc))
    rw [List.dropWhile_cons_of_neg (p := fun x => decide (x = '/')) hc, ← hreverse,
      List.reverse_reverse]

/-- A text whose last segment is not empty does not end in a slash. -/
theorem getLast?_of_splitOn {rest : Text} (h : (rest.splitOn '/').getLast? ≠ some []) :
    ('/' :: rest).getLast? ≠ some '/' := by
  intro hlast
  rcases List.eq_nil_or_concat rest with rfl | ⟨q, c, rfl⟩
  · exact h rfl
  · rw [List.concat_eq_append, ← List.cons_append, List.getLast?_concat] at hlast
    rw [List.concat_eq_append, Option.some.inj hlast, List.splitOn_append_cons_self,
      List.splitOn_nil, List.getLast?_concat] at h
    exact h rfl

theorem bareSegments_of_getLast? {rest : Text} (h : ('/' :: rest).getLast? ≠ some '/') :
    bareSegments ('/' :: rest) = rest.splitOn '/' := by
  unfold bareSegments
  rw [trimEnd_of_getLast? h]
  rfl

/-- The last segment of a mount's root is not empty. -/
theorem mountRoots_last : ∀ root ∈ mountRoots,
    ∀ want ∈ (templateOf root.1).getLast?, takes false want [] = false := by
  decide +kernel

theorem getLast?_of_fits {template : List Segment} {segments : List Text}
    (h : fits false template segments = true) {got : Text} (hgot : segments.getLast? = some got) :
    ∃ want, template.getLast? = some want ∧ takes false want got = true := by
  induction template generalizing segments with
  | nil =>
    obtain rfl := List.length_eq_zero_iff.1 (length_of_fits h).symm
    cases hgot
  | cons want template ih =>
    cases segments with
    | nil => cases hgot
    | cons first segments =>
      rw [fits_cons, Bool.and_eq_true] at h
      cases segments with
      | nil =>
        obtain rfl := List.length_eq_zero_iff.1 (length_of_fits h.2)
        obtain rfl := Option.some.inj hgot
        exact ⟨want, rfl, h.1⟩
      | cons second segments =>
        rw [List.getLast?_cons_cons] at hgot
        obtain ⟨want', hlast, htakes⟩ := ih h.2 hgot
        cases template with
        | nil => cases hlast
        | cons want'' template => exact ⟨want', hlast, htakes⟩

/-- What is taken off are the trailing slashes. -/
theorem bareSegments_eq {names : List Text} {path method : Text} {segments : List Text}
    {chosen : Nat} (hsegments : segmentsOf (trimmed (isDoubled path) path) = some segments)
    (hchosen : (Paths.new names).select segments false = some chosen)
    (hallows : (Paths.new names).allows (isDoubled path) chosen method = true) :
    bareSegments path = segments := by
  obtain ⟨rest, hrest, rfl⟩ := segmentsOf_eq_some hsegments
  cases hdoubled : isDoubled path with
  | true =>
    rw [hdoubled] at hrest hallows
    have hends := of_decide_eq_true hdoubled
    obtain ⟨q, rfl⟩ := hends.2
    have hq : q = '/' :: rest := by
      rw [← hrest]
      simp [trimmed]
    have hbare : bareSegments (q ++ ['/', '/']) = bareSegments q := by
      unfold bareSegments
      rw [show q ++ ['/', '/'] = q ++ ['/'] ++ ['/'] by simp, trimEnd_append, trimEnd_append]
    rw [hbare, hq]
    refine bareSegments_of_getLast? (getLast?_of_splitOn fun hempty => ?_)
    -- The last segment of the root of a mount would be empty.
    obtain ⟨name, hname, hroot⟩ := (Option.any_eq_true _ _).1 hallows
    obtain ⟨root, hmem, hmount⟩ := List.any_eq_true.1 hroot
    rw [Bool.and_eq_true, decide_eq_true_iff] at hmount
    have htemplate : (Paths.new names).templates[chosen]? = some (templateOf name) := by
      have hnames : names[chosen]? = some name := hname
      unfold Paths.new
      rw [List.getElem?_map, hnames]
      rfl
    obtain ⟨want, hlast, htakes⟩ := getLast?_of_fits (fits_of_select hchosen htemplate) hempty
    rw [mountRoots_last root hmem want (hmount.1 ▸ hlast)] at htakes
    cases htakes
  | false =>
    rw [hdoubled] at hrest
    unfold trimmed at hrest
    rw [if_neg Bool.false_ne_true] at hrest
    by_cases hslash : 1 < path.length ∧ path.getLast? = some '/'
    · rw [if_pos hslash] at hrest
      obtain ⟨q, rfl⟩ := List.getLast?_eq_some_iff.1 hslash.2
      rw [List.dropLast_concat] at hrest
      subst hrest
      have hbare : bareSegments ('/' :: rest ++ ['/']) = bareSegments ('/' :: rest) := by
        unfold bareSegments
        rw [trimEnd_append]
      rw [hbare]
      by_cases hnil : rest = []
      · rw [hnil]
        rfl
      · refine bareSegments_of_getLast? fun hlast => ?_
        obtain ⟨q, hq⟩ := List.getLast?_eq_some_iff.1 hlast
        have hpos := List.length_pos_iff.2 hnil
        refine of_decide_eq_false hdoubled ⟨?_, q, ?_⟩
        · rw [List.length_append, List.length_cons, List.length_singleton]
          omega
        · rw [hq, List.append_assoc]
          rfl
    · rw [if_neg hslash] at hrest
      subst hrest
      by_cases hnil : rest = []
      · rw [hnil]
        rfl
      · refine bareSegments_of_getLast? fun hlast => hslash ⟨?_, hlast⟩
        have hpos := List.length_pos_iff.2 hnil
        rw [List.length_cons]
        omega

/-- What is written for a request has no slash in a segment. -/
theorem not_mem_of_rewrite {names : List Text} {chosen : Nat} {template : List Segment}
    {segments parts : List Text} (htemplate : (Paths.new names).templates[chosen]? = some template)
    (hsegments : ∀ segment ∈ segments, '/' ∉ segment)
    (h : (Paths.new names).rewrite chosen template segments = some parts) :
    ∀ part ∈ parts, '/' ∉ part := by
  have hliteral : ∀ literal, Segment.literal literal ∈ template → '/' ∉ literal := by
    intro literal hmem
    unfold Paths.new at htemplate
    rw [List.getElem?_map, Option.map_eq_some_iff] at htemplate
    obtain ⟨name, -, rfl⟩ := htemplate
    obtain ⟨seg, hseg, heq⟩ := List.mem_map.1 hmem
    unfold segmentOf at heq
    split at heq
    · cases heq
    · obtain rfl := Segment.literal.inj heq
      exact Delimited.not_mem_of_mem_splitOn hseg
  obtain ⟨decoded, hdecoded, h⟩ := Option.bind_eq_some_iff.1 h
  obtain rfl := Option.some.inj h
  intro part hpart
  split at hpart
  · obtain ⟨⟨want, got⟩, hmem, hwritten⟩ := mem_of_mapM hdecoded hpart
    cases want with
    | literal literal =>
      obtain rfl := Option.some.inj hwritten
      exact hliteral _ (List.of_mem_zip hmem).1
    | param =>
      obtain ⟨value, -, rfl⟩ := Option.map_eq_some_iff.1 hwritten
      exact Qs.not_mem_encodeParam value
  · obtain ⟨⟨want, got⟩, hmem, rfl⟩ := List.mem_map.1 hpart
    cases want with
    | literal literal => exact hliteral _ (List.of_mem_zip hmem).1
    | param => exact hsegments got (List.of_mem_zip hmem).2

/-- **A rewritten path keeps the request's route and its parameters.** -/
theorem canonical_keeps_route (names : List Text) (path method spelling : Text)
    (h : (Paths.new names).canonical path method = some spelling) :
    ∃ (chosen : Nat) (template : List Segment) (parts : List Text),
      (Paths.new names).select (bareSegments path) false = some chosen
      ∧ (Paths.new names).templates[chosen]? = some template
      ∧ segmentsOf spelling = some parts ∧ (Paths.new names).select parts true = some chosen
      ∧ spelling ≠ path
      ∧ ∀ i : Nat, template[i]? = some .param → ∃ got part value : Text,
        (bareSegments path)[i]? = some got ∧ Qs.decodeUriComponent got = some value
          ∧ parts[i]? = some part ∧ Qs.decodeUriComponent part = some value := by
  obtain ⟨segments, hsegments, h⟩ := Option.bind_eq_some_iff.1 h
  obtain ⟨chosen, hchosen, h⟩ := Option.bind_eq_some_iff.1 h
  split at h
  next hallows =>
    obtain ⟨template, htemplate, h⟩ := Option.bind_eq_some_iff.1 h
    obtain ⟨parts, hparts, h⟩ := Option.bind_eq_some_iff.1 h
    have hbare := bareSegments_eq hsegments hchosen hallows
    have hselect := select_of_rewrite hchosen htemplate hparts
    obtain ⟨rest, -, hsplit⟩ := segmentsOf_eq_some hsegments
    have hslash : ∀ part ∈ parts, '/' ∉ part := by
      refine not_mem_of_rewrite htemplate (fun segment hmem => ?_) hparts
      rw [hsplit] at hmem
      exact Delimited.not_mem_of_mem_splitOn hmem
    have hfits := length_of_fits (fits_of_select hchosen htemplate)
    have hne : parts ≠ [] := by
      rintro rfl
      have hlength := length_of_fits (fits_of_select hselect htemplate)
      rw [hfits, hsplit] at hlength
      exact List.splitOn_ne_nil '/' rest (List.length_eq_zero_iff.1 hlength)
    split at h
    next hdiffers =>
      obtain rfl := Option.some.inj h
      rw [hbare]
      refine ⟨chosen, template, parts, hchosen, htemplate, segmentsOf_pathOf hne hslash, hselect,
        hdiffers, fun i hparam => ?_⟩
      have hi : i < segments.length := hfits ▸ (List.getElem?_eq_some_iff.1 hparam).1
      have hgot := List.getElem?_eq_getElem hi
      obtain ⟨value, part, hvalue, hpart, hagain⟩ := param_of_rewrite hparts hparam hgot
      exact ⟨_, part, value, hgot, hvalue, hpart, hagain⟩
    next => cases h
  next => cases h

/-- A parameter that spells a sibling's literal stays encoded. -/
theorem canonical_keeps_route_count :
    (Paths.new ["/request/count".toList, "/request/{id}".toList]).canonical
        "/REQUEST/%63ount/".toList "GET".toList = some "/request/%63ount".toList
      ∧ (Paths.new ["/request/count".toList, "/request/{id}".toList]).select
        ["request".toList, "%63ount".toList] true = some 1 := by
  have hcanonical : (Paths.new ["/request/count".toList, "/request/{id}".toList]).canonical
      "/REQUEST/%63ount/".toList "GET".toList = some "/request/%63ount".toList := by
    decide +kernel
  obtain ⟨chosen, template, parts, hchosen, -, hparts, hselect, -⟩ :=
    canonical_keeps_route _ _ _ _ hcanonical
  have hone : (Paths.new ["/request/count".toList, "/request/{id}".toList]).select
      (bareSegments "/REQUEST/%63ount/".toList) false = some 1 := by
    decide +kernel
  obtain rfl := Option.some.inj (hchosen.symm.trans hone)
  have hsplit : segmentsOf "/request/%63ount".toList
      = some ["request".toList, "%63ount".toList] := by
    decide +kernel
  obtain rfl := Option.some.inj (hparts.symm.trans hsplit)
  exact ⟨hcanonical, hselect⟩

end ExpressRoute

end Foreseerr

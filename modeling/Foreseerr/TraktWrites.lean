import Foreseerr.Double
import Foreseerr.IntTexts
import Foreseerr.SimklLibrary
import Foreseerr.TraktSync

/-!
# Local writes to the cached Trakt lists

A media action changes the cached lists at once (`patch_trakt`), and a title's
state is read from them right after (`lookup_trakt`). The write looks for the
title by the **number** an entry's `ids.tmdb` is, the read by its **text**, and
Trakt may send any JSON there: `"550.0"` is the number 550 and not its text,
`[[550]]` its text and not the number. Both number and text go through a double,
so that ids from `2 ^ 53` on share theirs with others.

The lists are JSON here; `TraktSync` has the two readings of an entry's id, and
the two models agree where the title's id is a double (`applyPending_read`).
-/

namespace Foreseerr

namespace TraktWrites

/-! ## Readings of a value -/

section Readings

variable (longText : ℚ → String)

/-- `jsnum::to_string`; how it prints what is no whole number below `10 ^ 21` is a
parameter. -/
def toText (x : ℚ) : String :=
  if x.den = 1 ∧ |x| < 10 ^ 21 then x.num.repr else longText x

mutual

/-- `value_string`. -/
def valueString : Json → String
  | .null => "null"
  | .bool b => if b then "true" else "false"
  | .num n => ((double n).map (toText longText)).getD (longText n)
  | .str s => s
  | .arr items => ",".intercalate (itemStrings items)
  | .obj _ => "[object Object]"

/-- The texts of an array's items. -/
def itemStrings : List Json → List String
  | [] => []
  | item :: items => (if item.isNull then "" else valueString item) :: itemStrings items

end

/-- `number_of`, the double it gives. -/
def numberOf (value : Option Json) : JsNumber := (SimklLibrary.numberOf value).bind double

end Readings

/-! ## Entries and snapshots -/

/-- The lists of a `TraktSnapshot`, as Trakt sent them. -/
structure Snapshot where
  watchedMovies : List Json := []
  watchedShows : List Json := []
  ratingsMovies : List Json := []
  ratingsShows : List Json := []
  fetchedAt : ℚ := 0

namespace Snapshot

/-- The watched list of a media type. -/
def watched (snapshot : Snapshot) : MediaType → List Json
  | .movie => snapshot.watchedMovies
  | .tv => snapshot.watchedShows

/-- The ratings list of a media type. -/
def ratings (snapshot : Snapshot) : MediaType → List Json
  | .movie => snapshot.ratingsMovies
  | .tv => snapshot.ratingsShows

/-- Write both lists of a media type. -/
def setLists (snapshot : Snapshot) (mediaType : MediaType) (watched ratings : List Json) :
    Snapshot :=
  match mediaType with
  | .movie => { snapshot with watchedMovies := watched, ratingsMovies := ratings }
  | .tv => { snapshot with watchedShows := watched, ratingsShows := ratings }

end Snapshot

/-- A rating that is a double (`stars_to_provider` gives no other). -/
abbrev Rating := { x : ℚ // double x = some x }

/-- `TraktPatch`. -/
structure Patch where
  watched : Option Bool := none
  rating : Option (Option Rating) := none

/-- `item_key`. -/
def itemKey : MediaType → String
  | .movie => "movie"
  | .tv => "show"

/-- `tmdb_of`. -/
def tmdbOf (key : String) (entry : Json) : Option Json :=
  (((entry.get key).bind (Json.get "ids")).bind (Json.get "tmdb")).filter fun tmdb => !tmdb.isNull

/-- `matches_number`. -/
def matchesNumber (key : String) (tmdbId : Int) (entry : Json) : Bool :=
  (tmdbOf key entry).any fun tmdb =>
    match numberOf (some tmdb), double tmdbId with
    | some a, some b => a = b
    | _, _ => false

/-- The rating an entry shows: `Number(entry.rating)`, unless null. -/
def ratingOf (entry : Json) : Option JsNumber :=
  ((entry.get "rating").filter fun rating => !rating.isNull).map fun rating =>
    numberOf (some rating)

section Lists

variable (longText : ℚ → String)

/-- `matches_text`. -/
def matchesText (key : String) (tmdbId : Int) (entry : Json) : Bool :=
  (tmdbOf key entry).any fun tmdb => valueString longText tmdb = tmdbId.repr

/-- `lookup_trakt`. -/
def lookupTrakt (snapshot : Snapshot) (mediaType : MediaType) (tmdbId : Int) :
    Bool × Option JsNumber :=
  let key := itemKey mediaType
  ((snapshot.watched mediaType).any (matchesText longText key tmdbId),
    ((snapshot.ratings mediaType).find? (matchesText longText key tmdbId)).bind ratingOf)

end Lists

/-- `stub_entry`. -/
def stubEntry (key : String) (tmdbId : Int) (rating : Option Rating) : Json :=
  .obj ((key, .obj [("ids", .obj [("tmdb", .num tmdbId)])])
    :: (rating.map fun rating => ("rating", Json.num rating.1)).toList)

/-- The watched list after a patch. -/
def patchWatched (key : String) (tmdbId : Int) (watched : List Json) : Option Bool → List Json
  | some true =>
    if watched.any (matchesNumber key tmdbId) then watched
    else watched ++ [stubEntry key tmdbId none]
  | some false => watched.filter fun e => !matchesNumber key tmdbId e
  | none => watched

/-- The ratings list after a patch. -/
def patchRatings (key : String) (tmdbId : Int) (ratings : List Json) :
    Option (Option Rating) → List Json
  | some none => ratings.filter fun e => !matchesNumber key tmdbId e
  | some (some rating) =>
    (ratings.filter fun e => !matchesNumber key tmdbId e) ++ [stubEntry key tmdbId (some rating)]
  | none => ratings

/-- `apply_trakt_patch`. -/
def applyTraktPatch (snapshot : Snapshot) (mediaType : MediaType) (tmdbId : Int) (update : Patch) :
    Snapshot :=
  let key := itemKey mediaType
  snapshot.setLists mediaType
    (patchWatched key tmdbId (snapshot.watched mediaType) update.watched)
    (patchRatings key tmdbId (snapshot.ratings mediaType) update.rating)

/-- `patch_trakt`, the snapshot it stores for a user with the cached one, or for
one without. -/
def patchTrakt (cached : Option Snapshot) (now : ℚ) (mediaType : MediaType) (tmdbId : Int)
    (update : Patch) : Snapshot :=
  applyTraktPatch (cached.getD { fetchedAt := now }) mediaType tmdbId update

/-! ## The stub -/

section Stub

variable {longText : ℚ → String} {key : String} {tmdbId other : Int} {rating : Option Rating}

/-- The ids there are. -/
def IsI64 (n : Int) : Prop := -2 ^ 63 ≤ n ∧ n < 2 ^ 63

/-- How JavaScript prints what is no whole number below `10 ^ 21`: with a point or an
exponent. -/
def Prints (longText : ℚ → String) : Prop :=
  ∀ x, '.' ∈ (longText x).toList ∨ 'e' ∈ (longText x).toList

theorem Prints.ne_repr (h : Prints longText) (x : ℚ) (n : Int) : longText x ≠ n.repr := by
  intro heq
  have hpoint : '.' ∉ n.repr.toList := fun hmem => by
    rcases mem_repr hmem with h | h <;> revert h <;> decide
  have hexponent : 'e' ∉ n.repr.toList := fun hmem => by
    rcases mem_repr hmem with h | h <;> revert h <;> decide
  rcases h x with hmem | hmem <;> rw [heq] at hmem
  · exact hpoint hmem
  · exact hexponent hmem

theorem toText_eq (h : Prints longText) (hother : IsI64 other) {x : ℚ} :
    toText longText x = other.repr ↔ x = other := by
  unfold toText
  split
  · next hwhole =>
    constructor
    · intro heq
      rw [← Int.repr_injective heq]
      exact (Rat.coe_int_num_of_den_eq_one hwhole.1).symm
    · rintro rfl
      rw [Rat.num_intCast]
  · next hlong =>
    constructor
    · exact fun heq => absurd heq (h.ne_repr x other)
    · rintro rfl
      have hsmall : |(other : ℚ)| < 10 ^ 21 := by
        have habs : |other| < 10 ^ 21 := by
          have := hother.1
          have := hother.2
          rw [abs_lt]
          omega
        exact_mod_cast habs
      exact absurd ⟨Rat.den_intCast other, hsmall⟩ hlong

/-- A number's text is that of a whole number where it is its double. -/
theorem valueString_num_eq (h : Prints longText) (hother : IsI64 other) {q : ℚ} :
    valueString longText (.num q) = other.repr ↔ double q = some (other : ℚ) := by
  unfold valueString
  cases hdouble : double q with
  | none =>
    constructor
    · exact fun heq => absurd heq (h.ne_repr q other)
    · exact fun heq => nomatch heq
  | some x =>
    rw [Option.map_some, Option.getD_some, toText_eq h hother, Option.some.injEq]

@[simp] theorem tmdbOf_stubEntry :
    tmdbOf key (stubEntry key tmdbId rating) = some (.num tmdbId) := by
  simp [tmdbOf, stubEntry, Json.get, Json.getField, Json.isNull]

theorem matchesText_stubEntry (h : Prints longText) (hother : IsI64 other) :
    matchesText longText key other (stubEntry key tmdbId rating) = true
      ↔ double tmdbId = some (other : ℚ) := by
  rw [matchesText, tmdbOf_stubEntry, Option.any_some, decide_eq_true_iff]
  exact valueString_num_eq h hother

theorem ratingOf_stubEntry (hkey : key ≠ "rating") (rating : Option Rating) :
    ratingOf (stubEntry key tmdbId rating) = rating.map fun rating => some rating.1 := by
  cases rating with
  | none => simp [ratingOf, stubEntry, Json.get, Json.getField, hkey]
  | some rating =>
    simp [ratingOf, stubEntry, Json.get, Json.getField, hkey, Json.isNull, numberOf,
      SimklLibrary.numberOf, rating.2]

end Stub

/-! ## What a patch shows -/

section Patch

variable (longText : ℚ → String) (key : String) (tmdbId : Int) (watched ratings : List Json)

/-- The first rating entry that reads as a title, of those a write leaves. -/
def firstLeft (other : Int) : Option Json :=
  ratings.find? fun e => !matchesNumber key tmdbId e && matchesText longText key other e

/-- The rating a title is looked up with after a write set another's. -/
def ratingLeft (other : Int) (rating : Option Rating) : Option JsNumber :=
  match firstLeft longText key tmdbId ratings other with
  | some e => ratingOf e
  | none => if double tmdbId = some (other : ℚ) then rating.map fun r => some r.1 else none

variable {longText key tmdbId watched ratings} {other : Int}

theorem any_patchWatched_true (h : Prints longText) (hother : IsI64 other) :
    (patchWatched key tmdbId watched (some true)).any (matchesText longText key other) = true
      ↔ (∃ e ∈ watched, matchesText longText key other e = true)
        ∨ (∀ e ∈ watched, matchesNumber key tmdbId e = false)
          ∧ double tmdbId = some (other : ℚ) := by
  unfold patchWatched
  by_cases hany : watched.any (matchesNumber key tmdbId) = true
  · obtain ⟨e, he, hnumber⟩ := List.any_eq_true.1 hany
    have hnone : ¬ ∀ e ∈ watched, matchesNumber key tmdbId e = false := fun hall =>
      Bool.false_ne_true ((hall e he).symm.trans hnumber)
    simp [hany, hnone]
  · have hall : ∀ e ∈ watched, matchesNumber key tmdbId e = false := by
      simpa using hany
    rw [if_neg hany, List.any_append, Bool.or_eq_true, List.any_eq_true, List.any_cons,
      List.any_nil, Bool.or_false, matchesText_stubEntry h hother]
    exact or_congr_right (and_iff_right hall).symm

theorem any_patchWatched_false :
    (patchWatched key tmdbId watched (some false)).any (matchesText longText key other) = true
      ↔ ∃ e ∈ watched, matchesText longText key other e = true
        ∧ matchesNumber key tmdbId e = false := by
  rw [patchWatched, List.any_eq_true]
  simp only [List.mem_filter, Bool.not_eq_true']
  exact ⟨fun ⟨e, ⟨he, hnumber⟩, htext⟩ => ⟨e, he, htext, hnumber⟩,
    fun ⟨e, he, htext, hnumber⟩ => ⟨e, ⟨he, hnumber⟩, htext⟩⟩

theorem rating_patchRatings (h : Prints longText) (hother : IsI64 other) (hkey : key ≠ "rating")
    (rating : Option Rating) :
    ((patchRatings key tmdbId ratings (some rating)).find?
        (matchesText longText key other)).bind ratingOf
      = ratingLeft longText key tmdbId ratings other rating := by
  have hleft : (ratings.filter fun e => !matchesNumber key tmdbId e).find?
      (matchesText longText key other) = firstLeft longText key tmdbId ratings other := by
    rw [List.find?_filter, firstLeft]
    congr 1
    funext e
    rw [Bool.decide_and, Bool.decide_eq_true, Bool.decide_eq_true]
  unfold ratingLeft
  cases rating with
  | none =>
    rw [patchRatings, hleft]
    cases firstLeft longText key tmdbId ratings other with
    | none => simp
    | some e => rfl
  | some rating =>
    rw [patchRatings, List.find?_append, hleft]
    cases firstLeft longText key tmdbId ratings other with
    | some e => rfl
    | none =>
      by_cases hstub : double tmdbId = some (other : ℚ)
      · rw [Option.none_or, List.find?_cons_of_pos ((matchesText_stubEntry h hother).2 hstub),
          Option.bind_some, ratingOf_stubEntry hkey, if_pos hstub]
      · rw [Option.none_or, List.find?_cons_of_neg fun htext =>
          hstub ((matchesText_stubEntry h hother).1 htext), if_neg hstub]
        rfl

end Patch

/-! ## When a write is seen -/

/-- A patch is seen under its title, and under no other. -/
structure Visible (longText : ℚ → String) (before after : Snapshot) (mediaType : MediaType)
    (tmdbId : Int) (update : Patch) : Prop where
  watched : ∀ watched, update.watched = some watched →
    (lookupTrakt longText after mediaType tmdbId).1 = watched
  rating : ∀ rating, update.rating = some rating →
    (lookupTrakt longText after mediaType tmdbId).2 = rating.map fun r => some r.1
  others : ∀ mediaType' other, IsI64 other → (mediaType', other) ≠ (mediaType, tmdbId) →
    lookupTrakt longText after mediaType' other = lookupTrakt longText before mediaType' other

/-- The write spares another title: nothing it adds or removes is what the title is
looked up by. -/
structure Spares (longText : ℚ → String) (key : String) (tmdbId : Int)
    (watched ratings : List Json) (update : Patch) (other : Int) : Prop where
  added : update.watched = some true → (∃ e ∈ watched, matchesText longText key other e = true)
    ∨ (∃ e ∈ watched, matchesNumber key tmdbId e = true) ∨ double tmdbId ≠ some (other : ℚ)
  removed : update.watched = some false →
    (∃ e ∈ watched, matchesText longText key other e = true) →
      ∃ e ∈ watched, matchesText longText key other e = true ∧ matchesNumber key tmdbId e = false
  rated : ∀ rating, update.rating = some rating →
    ratingLeft longText key tmdbId ratings other rating
      = (ratings.find? (matchesText longText key other)).bind ratingOf

/-- What a title's lists must be like for a patch of it to be seen: the entries that
are its number are those that read as it, as far as the patch needs it. -/
structure Agree (longText : ℚ → String) (key : String) (tmdbId : Int)
    (watched ratings : List Json) (update : Patch) : Prop where
  /-- To be marked, it has an entry that reads as it; or none is its number, and the
  new one reads as it. -/
  marked : update.watched = some true →
    (∃ e ∈ watched, matchesText longText key tmdbId e = true)
      ∨ (∀ e ∈ watched, matchesNumber key tmdbId e = false) ∧ double tmdbId = some (tmdbId : ℚ)
  /-- To be unmarked, all that reads as it is its number. -/
  unmarked : update.watched = some false →
    ∀ e ∈ watched, matchesText longText key tmdbId e = true → matchesNumber key tmdbId e = true
  /-- To be rated, nothing that reads as it is left before the new entry, unless it has
  the same rating, and the new one reads as it. -/
  rated : ∀ rating, update.rating = some rating →
    match firstLeft longText key tmdbId ratings tmdbId with
    | some e => ratingOf e = rating.map fun r => some r.1
    | none => rating = none ∨ double tmdbId = some (tmdbId : ℚ)
  /-- No other title shares its double, or the write spares them. -/
  others : |tmdbId| < 2 ^ 53 ∨
    ∀ other, IsI64 other → other ≠ tmdbId →
      Spares longText key tmdbId watched ratings update other

/-- No text of a whole number has other characters. -/
theorem ne_repr_of_mem {text : String} {c : Char} (hc : c ∈ text.toList) (hsign : c ≠ '-')
    (hdigit : c.isDigit = false) (n : Int) : text ≠ n.repr := by
  rintro rfl
  rcases mem_repr hc with h | h
  · exact hsign h
  · exact Bool.false_ne_true (hdigit.symm.trans h)

/-- A value that reads as a whole number is that number, or its double, or no number
at all. -/
theorem numberOf_of_text {longText : ℚ → String} (h : Prints longText) {other : Int}
    (hother : IsI64 other) {value : Json} (htext : valueString longText value = other.repr) :
    numberOf (some value) = none ∨ numberOf (some value) = some (other : ℚ)
      ∨ numberOf (some value) = double other := by
  have hnum : ∀ q, valueString longText (.num q) = other.repr →
      numberOf (some (.num q)) = some (other : ℚ) :=
    fun q hq => (valueString_num_eq h hother).1 hq
  have hstr : ∀ s : String, s = other.repr → numberOf (some (.str s)) = double other := by
    rintro s rfl
    simp [numberOf, SimklLibrary.numberOf, numberOfStr_repr]
  have hempty : "" ≠ other.repr := by
    intro heq
    have hnil := congrArg String.toList heq
    cases other with
    | ofNat n => exact Nat.toDigits_ne_nil ((toList_repr_ofNat n).symm.trans hnil.symm)
    | negSucc n => exact List.cons_ne_nil _ _ ((toList_repr_negSucc n).symm.trans hnil.symm)
  cases value with
  | null =>
    rw [valueString] at htext
    exact absurd htext (ne_repr_of_mem (c := 'n') (by decide) (by decide) (by decide) other)
  | bool b =>
    refine absurd htext (ne_repr_of_mem (c := 'e') ?_ (by decide) (by decide) _)
    cases b <;> simp [valueString]
  | num q => exact .inr (.inl (hnum q htext))
  | str s => exact .inr (.inr (hstr s (by simpa [valueString] using htext)))
  | obj fields => exact .inl rfl
  | arr items =>
    match items with
    | [] => exact absurd (by simpa [valueString, itemStrings] using htext) hempty
    | [item] =>
      cases item with
      | null =>
        exact absurd (by simpa [valueString, itemStrings, Json.isNull] using htext) hempty
      | bool b => exact .inl rfl
      | num q =>
        exact .inr (.inl (hnum q (by simpa [valueString, itemStrings, Json.isNull] using htext)))
      | str s =>
        exact .inr (.inr (hstr s (by simpa [valueString, itemStrings, Json.isNull] using htext)))
      | arr items => exact .inl rfl
      | obj fields => exact .inl rfl
    | a :: _ :: _ => exact .inl (by cases a <;> rfl)

/-- An entry that is a small number does not read as another. -/
theorem matchesNumber_eq_false {longText : ℚ → String} (h : Prints longText) {key : String}
    {tmdbId other : Int} (hsafe : |tmdbId| < 2 ^ 53) (hother : IsI64 other) (hne : other ≠ tmdbId)
    {e : Json} (htext : matchesText longText key other e = true) :
    matchesNumber key tmdbId e = false := by
  unfold matchesText at htext
  unfold matchesNumber
  cases htmdb : tmdbOf key e with
  | none => rfl
  | some tmdb =>
    rw [htmdb, Option.any_some, decide_eq_true_iff] at htext
    rw [Option.any_some, double_intCast hsafe]
    rcases numberOf_of_text h hother htext with hnone | hself | hdouble
    · rw [hnone]
    · rw [hself]
      exact decide_eq_false (by exact_mod_cast hne)
    · rw [hdouble]
      cases hlarge : double other with
      | none => rfl
      | some x =>
        refine decide_eq_false fun hx => hne (eq_of_double_eq hsafe ?_)
        rw [hlarge, hx]

/-- The write of a title with a small id spares every other. -/
theorem spares_of_safe {longText : ℚ → String} (h : Prints longText) {key : String}
    {tmdbId other : Int} (hsafe : |tmdbId| < 2 ^ 53) (hother : IsI64 other) (hne : other ≠ tmdbId)
    (watched ratings : List Json) (update : Patch) :
    Spares longText key tmdbId watched ratings update other := by
  have hdouble : double tmdbId ≠ some (other : ℚ) := by
    rw [double_intCast hsafe]
    exact fun heq => hne (by exact_mod_cast (Option.some.inj heq).symm)
  refine ⟨fun _ => .inr (.inr hdouble), ?_, fun rating _ => ?_⟩
  · rintro - ⟨e, he, htext⟩
    exact ⟨e, he, htext, matchesNumber_eq_false h hsafe hother hne htext⟩
  · have hleft : firstLeft longText key tmdbId ratings other
        = ratings.find? (matchesText longText key other) := by
      unfold firstLeft
      congr 1
      funext e
      cases htext : matchesText longText key other e with
      | false => rw [Bool.and_false]
      | true => rw [matchesNumber_eq_false h hsafe hother hne htext]; rfl
    unfold ratingLeft
    rw [hleft, if_neg hdouble]
    cases ratings.find? (matchesText longText key other) <;> rfl

section Theorem

variable {longText : ℚ → String} {mediaType : MediaType} {tmdbId : Int} {update : Patch}
  {before : Snapshot}

@[simp] theorem Snapshot.watched_setLists (m : MediaType) (watched ratings : List Json) :
    (before.setLists m watched ratings).watched m = watched := by
  cases m <;> rfl

@[simp] theorem Snapshot.ratings_setLists (m : MediaType) (watched ratings : List Json) :
    (before.setLists m watched ratings).ratings m = ratings := by
  cases m <;> rfl

/-- A patch is looked up in the lists it changed. -/
theorem lookupTrakt_applyTraktPatch (other : Int) :
    lookupTrakt longText (applyTraktPatch before mediaType tmdbId update) mediaType other
      = ((patchWatched (itemKey mediaType) tmdbId (before.watched mediaType) update.watched).any
          (matchesText longText (itemKey mediaType) other),
        ((patchRatings (itemKey mediaType) tmdbId (before.ratings mediaType) update.rating).find?
          (matchesText longText (itemKey mediaType) other)).bind ratingOf) := by
  unfold lookupTrakt applyTraktPatch
  dsimp only
  rw [Snapshot.watched_setLists, Snapshot.ratings_setLists]

/-- The lists of the other media type stay. -/
theorem lookupTrakt_applyTraktPatch_of_ne {mediaType' : MediaType} (hne : mediaType' ≠ mediaType)
    (other : Int) :
    lookupTrakt longText (applyTraktPatch before mediaType tmdbId update) mediaType' other
      = lookupTrakt longText before mediaType' other := by
  cases mediaType <;> cases mediaType' <;> first | rfl | exact absurd rfl hne

theorem itemKey_ne_rating : itemKey mediaType ≠ "rating" := by cases mediaType <;> decide

/-- The watched flag of another title stays exactly where the write spares it. -/
theorem any_patchWatched_eq_iff (h : Prints longText) {key : String} {watched : List Json}
    {other : Int} (hother : IsI64 other) (flag : Option Bool) :
    (patchWatched key tmdbId watched flag).any (matchesText longText key other)
        = watched.any (matchesText longText key other)
      ↔ (flag = some true → (∃ e ∈ watched, matchesText longText key other e = true)
          ∨ (∃ e ∈ watched, matchesNumber key tmdbId e = true) ∨ double tmdbId ≠ some (other : ℚ))
        ∧ (flag = some false → (∃ e ∈ watched, matchesText longText key other e = true) →
          ∃ e ∈ watched, matchesText longText key other e = true
            ∧ matchesNumber key tmdbId e = false) := by
  rw [Bool.eq_iff_iff, List.any_eq_true (l := watched)]
  match flag with
  | none => simp [patchWatched]
  | some true =>
    rw [any_patchWatched_true h hother]
    have hall : (∀ e ∈ watched, matchesNumber key tmdbId e = false)
        ↔ ¬ ∃ e ∈ watched, matchesNumber key tmdbId e = true := by simp
    rw [hall]
    constructor
    · intro hsame
      refine ⟨fun _ => ?_, fun hflag => nomatch hflag⟩
      by_contra hnot
      obtain ⟨htext, hnot⟩ := not_or.1 hnot
      obtain ⟨hnumber, hdouble⟩ := not_or.1 hnot
      exact htext (hsame.1 (.inr ⟨hnumber, not_not.1 hdouble⟩))
    · rintro ⟨hadded, -⟩
      refine ⟨?_, .inl⟩
      rintro (htext | ⟨hnumber, hdouble⟩)
      · exact htext
      · rcases hadded rfl with htext | hmem | hne
        · exact htext
        · exact absurd hmem hnumber
        · exact absurd hdouble hne
  | some false =>
    rw [any_patchWatched_false]
    constructor
    · exact fun hsame => ⟨fun hflag => (nomatch hflag), fun _ htext => hsame.2 htext⟩
    · rintro ⟨-, hremoved⟩
      refine ⟨?_, hremoved rfl⟩
      rintro ⟨e, he, htext, -⟩
      exact ⟨e, he, htext⟩

/-- What is shown of another title stays exactly where the write spares it. -/
theorem lookup_eq_iff_spares (h : Prints longText) {other : Int} (hother : IsI64 other) :
    lookupTrakt longText (applyTraktPatch before mediaType tmdbId update) mediaType other
        = lookupTrakt longText before mediaType other
      ↔ Spares longText (itemKey mediaType) tmdbId (before.watched mediaType)
          (before.ratings mediaType) update other := by
  rw [lookupTrakt_applyTraktPatch, lookupTrakt, Prod.mk.injEq, any_patchWatched_eq_iff h hother]
  constructor
  · rintro ⟨⟨hadded, hremoved⟩, hrating⟩
    refine ⟨hadded, hremoved, fun rating hrate => ?_⟩
    rw [← rating_patchRatings h hother itemKey_ne_rating, ← hrate]
    exact hrating
  · rintro ⟨hadded, hremoved, hrated⟩
    refine ⟨⟨hadded, hremoved⟩, ?_⟩
    cases hrate : update.rating with
    | none => rfl
    | some rating =>
      rw [rating_patchRatings h hother itemKey_ne_rating]
      exact hrated rating hrate

/-- **A local write is seen at once exactly where** the lists agree on what is the
title: what is its number reads as it, and the other way round, as far as the patch
needs it, and no other title shares its double. -/
theorem patch_visible_iff (h : Prints longText) (hid : IsI64 tmdbId) (cached : Option Snapshot)
    (now : ℚ) (mediaType : MediaType) (update : Patch) :
    Visible longText (cached.getD { fetchedAt := now })
        (patchTrakt cached now mediaType tmdbId update) mediaType tmdbId update
      ↔ Agree longText (itemKey mediaType) tmdbId
          ((cached.getD { fetchedAt := now }).watched mediaType)
          ((cached.getD { fetchedAt := now }).ratings mediaType) update := by
  unfold patchTrakt
  generalize cached.getD { fetchedAt := now } = before
  constructor
  · rintro ⟨hwatched, hrating, hothers⟩
    rw [lookupTrakt_applyTraktPatch] at hwatched hrating
    refine ⟨fun hflag => ?_, fun hflag e he htext => ?_, fun rating hrate => ?_, ?_⟩
    · have hseen := hwatched true hflag
      rw [hflag] at hseen
      exact (any_patchWatched_true h hid).1 hseen
    · have hseen := hwatched false hflag
      rw [hflag] at hseen
      by_contra hnumber
      have hany := any_patchWatched_false.2 ⟨e, he, htext, Bool.eq_false_iff.2 hnumber⟩
      exact Bool.false_ne_true (hseen.symm.trans hany)
    · have hseen := hrating rating hrate
      rw [hrate] at hseen
      dsimp only at hseen
      rw [rating_patchRatings h hid itemKey_ne_rating, ratingLeft] at hseen
      split at hseen
      · exact hseen
      · split at hseen
        · next hdouble => exact .inr hdouble
        · exact .inl (Option.map_eq_none_iff.1 hseen.symm)
    · refine .inr fun other hother hne => (lookup_eq_iff_spares h hother).1 ?_
      exact hothers mediaType other hother fun heq => hne (congrArg Prod.snd heq)
  · rintro ⟨hmarked, hunmarked, hrated, hothers⟩
    refine ⟨fun flag hflag => ?_, fun rating hrate => ?_, fun mediaType' other hother hne => ?_⟩
    · rw [lookupTrakt_applyTraktPatch, hflag]
      cases flag with
      | true => exact (any_patchWatched_true h hid).2 (hmarked hflag)
      | false =>
        refine Bool.eq_false_iff.2 fun hany => ?_
        obtain ⟨e, he, htext, hnumber⟩ := any_patchWatched_false.1 hany
        exact Bool.false_ne_true (hnumber.symm.trans (hunmarked hflag e he htext))
    · rw [lookupTrakt_applyTraktPatch, hrate]
      dsimp only
      rw [rating_patchRatings h hid itemKey_ne_rating, ratingLeft]
      have hleft := hrated rating hrate
      split
      · next e he => rw [he] at hleft; exact hleft
      · next he =>
        rw [he] at hleft
        rcases hleft with rfl | hdouble
        · exact ite_self _
        · rw [if_pos hdouble]
    · by_cases htype : mediaType' = mediaType
      · subst htype
        have hne' : other ≠ tmdbId := fun heq => hne (heq ▸ rfl)
        refine (lookup_eq_iff_spares h hother).2 ?_
        rcases hothers with hsafe | hspares
        · exact spares_of_safe h hsafe hother hne' _ _ _
        · exact hspares other hother hne'
      · exact lookupTrakt_applyTraktPatch_of_ne htype other

end Theorem

/-- Seven points for a film. -/
def ratedFilm : Snapshot where
  ratingsMovies := [stubEntry "movie" 550 (some ⟨7, by decide +kernel⟩)]

/-- Eight points for it, and a mark. -/
def eightPoints : Patch where
  watched := some true
  rating := some (some ⟨8, by decide +kernel⟩)

/-- A film with a rating is rated anew, and marked. -/
theorem patch_visible_rated : Visible (fun _ => "1e+21") ratedFilm
    (patchTrakt (some ratedFilm) 0 .movie 550 eightPoints) .movie 550 eightPoints := by
  have hleft : firstLeft (fun _ => "1e+21") "movie" 550 ratedFilm.ratingsMovies 550 = none :=
    Option.isNone_iff_eq_none.1 (by decide +kernel)
  refine (patch_visible_iff (fun _ => .inr (by decide)) ⟨by decide, by decide⟩ (some ratedFilm) 0
    .movie eightPoints).2 ⟨fun _ => ?_, fun hflag => (nomatch hflag), fun rating _ => ?_, ?_⟩
  · exact .inr ⟨fun e he => absurd he List.not_mem_nil, by decide +kernel⟩
  · split
    · next e he => exact nomatch hleft.symm.trans he
    · exact .inr (by decide +kernel)
  · exact .inl (by decide)

/-- **A mark that is not seen**: an entry whose id is the number of the title and not
its text. -/
theorem patch_unseen : ¬ Visible (fun _ => "1e+21")
    { watchedMovies := [.obj [("movie", .obj [("ids", .obj [("tmdb", .str "550.0")])])]] }
    (patchTrakt (some { watchedMovies :=
      [.obj [("movie", .obj [("ids", .obj [("tmdb", .str "550.0")])])]] })
      0 .movie 550 { watched := some true })
    .movie 550 { watched := some true } := by
  intro h
  exact absurd (h.watched true rfl) (by decide +kernel)

/-! ## The two readings of an id

The sync cache's model has of an entry what the cache reads of it. -/

section Read

variable (longText : ℚ → String)

/-- What is read of an entry. -/
def readEntry (key : String) (entry : Json) : TraktEntry where
  tmdb := (tmdbOf key entry).map fun tmdb => ⟨numberOf (some tmdb), valueString longText tmdb⟩
  rating := ratingOf entry

/-- What is read of a snapshot. -/
def Snapshot.read (snapshot : Snapshot) : TraktSnapshot where
  watchedMovies := snapshot.watchedMovies.map (readEntry longText (itemKey .movie))
  watchedShows := snapshot.watchedShows.map (readEntry longText (itemKey .tv))
  ratingsMovies := snapshot.ratingsMovies.map (readEntry longText (itemKey .movie))
  ratingsShows := snapshot.ratingsShows.map (readEntry longText (itemKey .tv))
  fetchedAt := snapshot.fetchedAt

/-- The patch, its rating as a number. -/
def Patch.read (update : Patch) : TraktPatch where
  watched := update.watched
  rating := update.rating.map (Option.map Subtype.val)

/-- `TraktPending`. -/
structure Pending where
  mediaType : MediaType
  tmdbId : Int
  update : Patch

def Pending.read (pending : Pending) : TraktPending :=
  ⟨pending.mediaType, pending.tmdbId, pending.update.read⟩

/-- `trakt_reflected`. -/
def traktReflected (snapshot : Snapshot) (pending : Pending) : Bool :=
  let shown := lookupTrakt longText snapshot pending.mediaType pending.tmdbId
  pending.update.watched.all (· == shown.1) &&
    match pending.update.rating with
    | some none => shown.2.isNone
    | some (some wanted) => shown.2 == some (some wanted.1)
    | none => true

/-- The loop of `apply_trakt_pending`. -/
def applyTraktPending (snapshot : Snapshot) (patches : List Pending) : Snapshot × List Pending :=
  Overlay.lay (fun s p => applyTraktPatch s p.mediaType p.tmdbId p.update)
    (traktReflected longText) snapshot patches

variable {longText} {key : String} {tmdbId : Int} {mediaType : MediaType}

theorem matchesText_readEntry :
    Foreseerr.matchesText tmdbId ∘ readEntry longText key = matchesText longText key tmdbId := by
  funext e
  simp only [Function.comp_apply, Foreseerr.matchesText, readEntry, matchesText]
  cases tmdbOf key e <;> rfl

theorem matchesNumber_readEntry (hexact : double tmdbId = some (tmdbId : ℚ)) :
    Foreseerr.matchesNumber tmdbId ∘ readEntry longText key = matchesNumber key tmdbId := by
  funext e
  simp only [Function.comp_apply, Foreseerr.matchesNumber, readEntry, matchesNumber, hexact]
  cases tmdbOf key e with
  | none => rfl
  | some tmdb =>
    cases hnumber : numberOf (some tmdb) with
    | none => simp [hnumber]
    | some x => simp [hnumber, beq_eq_decide]

theorem readEntry_stubEntry (h : Prints longText) (hid : IsI64 tmdbId)
    (hexact : double tmdbId = some (tmdbId : ℚ)) (hkey : key ≠ "rating") (rating : Option Rating) :
    readEntry longText key (stubEntry key tmdbId rating)
      = Foreseerr.stubEntry tmdbId (rating.map Subtype.val) := by
  have htext : valueString longText (.num tmdbId) = tmdbId.repr :=
    (valueString_num_eq h hid).2 hexact
  have hnumber : numberOf (some (.num tmdbId)) = some (tmdbId : ℚ) := hexact
  rw [readEntry, tmdbOf_stubEntry, ratingOf_stubEntry hkey, Option.map_some, htext, hnumber]
  cases rating <;> rfl

/-- What is read of the lists of a media type. -/
theorem lists_read (snapshot : Snapshot) :
    (snapshot.read longText).watched mediaType
        = (snapshot.watched mediaType).map (readEntry longText (itemKey mediaType))
      ∧ (snapshot.read longText).ratings mediaType
        = (snapshot.ratings mediaType).map (readEntry longText (itemKey mediaType)) := by
  cases mediaType <;> exact ⟨rfl, rfl⟩

/-- A look at the snapshot is a look at what is read of it. -/
theorem lookupTrakt_read (snapshot : Snapshot) :
    Foreseerr.lookupTrakt (snapshot.read longText) mediaType tmdbId
      = lookupTrakt longText snapshot mediaType tmdbId := by
  obtain ⟨hwatched, hratings⟩ := @lists_read longText mediaType snapshot
  rw [Foreseerr.lookupTrakt, hwatched, hratings, List.any_map, List.find?_map,
    matchesText_readEntry, Option.bind_map]
  rfl

theorem patchWatched_map (h : Prints longText) (hid : IsI64 tmdbId)
    (hexact : double tmdbId = some (tmdbId : ℚ)) (hkey : key ≠ "rating") (watched : List Json)
    (flag : Option Bool) :
    (patchWatched key tmdbId watched flag).map (readEntry longText key)
      = Foreseerr.patchWatched tmdbId (watched.map (readEntry longText key)) flag := by
  match flag with
  | none => rfl
  | some true =>
    rw [patchWatched, Foreseerr.patchWatched, List.any_map, matchesNumber_readEntry hexact]
    split
    · rfl
    · rw [List.map_append, List.map_singleton, readEntry_stubEntry h hid hexact hkey]
      rfl
  | some false =>
    rw [patchWatched, Foreseerr.patchWatched, List.filter_map]
    simp only [← @matchesNumber_readEntry longText key tmdbId hexact, Function.comp_def]

theorem patchRatings_map (h : Prints longText) (hid : IsI64 tmdbId)
    (hexact : double tmdbId = some (tmdbId : ℚ)) (hkey : key ≠ "rating") (ratings : List Json)
    (rating : Option (Option Rating)) :
    (patchRatings key tmdbId ratings rating).map (readEntry longText key)
      = Foreseerr.patchRatings tmdbId (ratings.map (readEntry longText key))
          (rating.map (Option.map Subtype.val)) := by
  have hleft : (ratings.filter fun e => !matchesNumber key tmdbId e).map (readEntry longText key)
      = (ratings.map (readEntry longText key)).filter fun e =>
          !Foreseerr.matchesNumber tmdbId e := by
    rw [List.filter_map]
    simp only [← @matchesNumber_readEntry longText key tmdbId hexact, Function.comp_def]
  match rating with
  | none => rfl
  | some none => exact hleft
  | some (some rating) =>
    rw [patchRatings, List.map_append, hleft, List.map_singleton,
      readEntry_stubEntry h hid hexact hkey]
    rfl

/-- **The sync cache's model patches what is read of the lists** as the code patches
the lists, for a title whose id is a double. -/
theorem read_applyTraktPatch (h : Prints longText) (hid : IsI64 tmdbId)
    (hexact : double tmdbId = some (tmdbId : ℚ)) (snapshot : Snapshot) (update : Patch) :
    (applyTraktPatch snapshot mediaType tmdbId update).read longText
      = Foreseerr.applyTraktPatch (snapshot.read longText) ⟨mediaType, tmdbId, update.read⟩ := by
  obtain ⟨hwatched, hratings⟩ := @lists_read longText mediaType snapshot
  rw [Foreseerr.applyTraktPatch, hwatched, hratings,
    ← patchWatched_map h hid hexact itemKey_ne_rating, Patch.read,
    ← patchRatings_map h hid hexact itemKey_ne_rating]
  cases mediaType <;> rfl

theorem traktReflected_read (snapshot : Snapshot) (pending : Pending) :
    Foreseerr.traktReflected (snapshot.read longText) pending.read
      = traktReflected longText snapshot pending := by
  rw [Foreseerr.traktReflected, traktReflected, Pending.read, lookupTrakt_read, Patch.read]
  rcases pending.update.rating with _ | _ | wanted <;> rfl

/-- **The sync cache's model lays the pending patches over what is read of the lists** as
the code lays them over the lists, for titles whose ids are doubles: the lists it leaves
and the patches it keeps are read as those of the model. -/
theorem applyPending_read (h : Prints longText) {patches : List Pending}
    (hids : ∀ p ∈ patches, IsI64 p.tmdbId ∧ double p.tmdbId = some (p.tmdbId : ℚ))
    (s : TraktState) {user : Int} (hpending : s.pending user = patches.map Pending.read)
    (snapshot : Snapshot) :
    s.applyPending user (snapshot.read longText)
      = (s.setPending user ((applyTraktPending longText snapshot patches).2.map Pending.read),
        (applyTraktPending longText snapshot patches).1.read longText) := by
  have hlay := Overlay.lay_map (g := Pending.read)
    (fun p hp (s : Snapshot) => read_applyTraktPatch h (hids p hp).1 (hids p hp).2 s p.update)
    traktReflected_read snapshot
  rw [TraktState.applyPending, hpending, hlay]
  rfl

/-- A film with a rating, and a patch that rates it anew. -/
theorem applyPending_read_rated :
    (({ pending := fun _ => [Pending.read ⟨.movie, 550, eightPoints⟩] } : TraktState).applyPending
        1 (ratedFilm.read fun _ => "1e+21")).2
      = (applyTraktPending (fun _ => "1e+21") ratedFilm [⟨.movie, 550, eightPoints⟩]).1.read
          fun _ => "1e+21" := by
  refine congrArg Prod.snd (applyPending_read (fun _ => .inr (by decide)) (fun p hp => ?_) _ rfl
    ratedFilm)
  rw [List.mem_singleton.mp hp]
  exact ⟨⟨by decide, by decide⟩, by decide +kernel⟩

end Read

end TraktWrites

end Foreseerr

import Foreseerr.Clock
import Foreseerr.EpisodeSelect
import Foreseerr.JsText
import Mathlib.Data.List.TakeWhile

/-!
# The watch-ahead window

A watch-ahead request follows its viewer: it wants the next few episodes after
the last one played. `jobs/episode_request_sync.rs` finds that one by its
place in TVDB's order, which need not follow the episode numbers and may list
an id twice, so everything here is about positions in a list.
-/

namespace Foreseerr

/-- `watch_ahead_count`: how many episodes a stored count stands for. -/
def watchAheadCount (value : Option Int) : Int := value.elim 10 fun n => max 1 (min n 50)

/-! ## What was played -/

/-- `PlayedEpisode`: a Jellyfin episode. -/
structure PlayedEpisode where
  tvdbId : Option String
  season : Option Int
  episode : Option Int
  played : Bool
deriving DecidableEq, Repr

/-- `trim().parse::<i64>()`. -/
def parseI64 (text : String) : Option Int :=
  (parseInt (trimEnd isWhiteSpace (text.toList.dropWhile isWhiteSpace))).filter fun n =>
    -9223372036854775808 ≤ n && n ≤ 9223372036854775807

/-- `by_number`: the id of a regular episode by its numbers, the last one listed
with them. -/
def idByNumber (catalog : List CatalogEpisode) (season episode : Int) : Option Int :=
  ((catalog.filter (·.season > 0)).reverse.find? fun e =>
    e.season == season && e.episode == episode).map (·.tvdbId)

/-- The catalog's id of a Jellyfin episode: its own where the catalog has it,
else the one of its numbers. -/
def catalogId (catalog : List CatalogEpisode) (item : PlayedEpisode) : Option Int :=
  match ((item.tvdbId.filter (· ≠ "")).bind parseI64).filter
      fun id => id ∈ catalog.map (·.tvdbId) with
  | some id => some id
  | none =>
    match item.season, item.episode with
    | some season, some episode => idByNumber catalog season episode
    | _, _ => none

/-- `played_tvdb_ids`. -/
def playedTvdbIds (catalog : List CatalogEpisode) (items : List PlayedEpisode) : List Int :=
  (items.filter (·.played)).filterMap (catalogId catalog)

/-! ## The last of a list -/

/-- `rposition`, and one more: the position after the last element of a kind, 0
where there is none. -/
def afterLast {α : Type*} (p : α → Bool) (l : List α) : Nat :=
  match l.reverse.findIdx? p with
  | some i => l.length - i
  | none => 0

section AfterLast

variable {α : Type*} {p q : α → Bool} {l us vs : List α} {a : α}

/-- A list has no element of a kind, or a last one. -/
theorem forall_or_exists_last (p : α → Bool) (l : List α) : (∀ a ∈ l, p a = false)
    ∨ ∃ us a vs, l = us ++ a :: vs ∧ p a = true ∧ ∀ b ∈ vs, p b = false := by
  induction l using List.reverseRecOn with
  | nil => exact .inl fun a ha => absurd ha List.not_mem_nil
  | append_singleton l a ih =>
    cases hp : p a with
    | true => exact .inr ⟨l, a, [], rfl, hp, fun b hb => absurd hb List.not_mem_nil⟩
    | false =>
      rcases ih with hnone | ⟨us, b, vs, rfl, hb, hvs⟩
      · refine .inl fun b hb => ?_
        rcases List.mem_append.1 hb with hb | hb
        · exact hnone b hb
        · rw [List.mem_singleton.1 hb, hp]
      · refine .inr ⟨us, b, vs ++ [a], by simp, hb, fun c hc => ?_⟩
        rcases List.mem_append.1 hc with hc | hc
        · exact hvs c hc
        · rw [List.mem_singleton.1 hc, hp]

theorem afterLast_eq_zero (h : ∀ a ∈ l, p a = false) : afterLast p l = 0 := by
  unfold afterLast
  rw [List.findIdx?_eq_none_iff.2 fun a ha => h a (List.mem_reverse.1 ha)]

theorem afterLast_append (ha : p a = true) (hvs : ∀ b ∈ vs, p b = false) :
    afterLast p (us ++ a :: vs) = us.length + 1 := by
  have hfound : (us ++ a :: vs).reverse.findIdx? p = some vs.length := by
    rw [List.reverse_append, List.reverse_cons, List.append_assoc, List.findIdx?_append,
      List.findIdx?_eq_none_iff.2 fun b hb => hvs b (List.mem_reverse.1 hb)]
    simp [List.findIdx?_cons, ha]
  unfold afterLast
  rw [hfound, List.length_append, List.length_cons]
  dsimp only
  omega

/-- What is of the kind stands before the position. -/
theorem lt_afterLast {i : Nat} (h : l[i]? = some a) (ha : p a = true) : i < afterLast p l := by
  rcases forall_or_exists_last p l with hnone | ⟨us, b, vs, rfl, hb, hvs⟩
  · rw [hnone a (List.mem_of_getElem? h)] at ha
    cases ha
  · rw [afterLast_append hb hvs]
    by_contra hnot
    rw [List.getElem?_append_right (by omega), List.getElem?_cons,
      if_neg (by omega)] at h
    rw [hvs a (List.mem_of_getElem? h)] at ha
    cases ha

/-- Right before the position is one of the kind. -/
theorem afterLast_eq_zero_or (p : α → Bool) (l : List α) :
    afterLast p l = 0 ∨ ∃ a, l[afterLast p l - 1]? = some a ∧ p a = true := by
  rcases forall_or_exists_last p l with hnone | ⟨us, a, vs, rfl, ha, hvs⟩
  · exact .inl (afterLast_eq_zero hnone)
  · refine .inr ⟨a, ?_, ha⟩
    rw [afterLast_append ha hvs, Nat.add_sub_cancel, List.getElem?_append_right le_rfl,
      Nat.sub_self]
    rfl

/-- None of the kind is left from the position on. -/
theorem eq_false_of_mem_drop_afterLast (h : a ∈ l.drop (afterLast p l)) : p a = false := by
  rcases forall_or_exists_last p l with hnone | ⟨us, b, vs, rfl, hb, hvs⟩
  · exact hnone a (List.mem_of_mem_drop h)
  · rw [afterLast_append hb hvs, List.drop_append, List.drop_of_length_le (by omega),
      List.nil_append, Nat.add_sub_cancel_left] at h
    exact hvs a h

/-- **More of a kind never moves the position back.** -/
theorem afterLast_mono (hpq : ∀ a, p a = true → q a = true) (l : List α) :
    afterLast p l ≤ afterLast q l := by
  rcases afterLast_eq_zero_or p l with hzero | ⟨a, hfound, ha⟩
  · rw [hzero]
    exact Nat.zero_le _
  · have hlt := lt_afterLast hfound (hpq a ha)
    omega

/-- What a list ends with that is not of the kind starts at the position. -/
theorem reverse_takeWhile_reverse (p : α → Bool) (l : List α) :
    (l.reverse.takeWhile fun a => !p a).reverse = l.drop (afterLast p l) := by
  rcases forall_or_exists_last p l with hnone | ⟨us, a, vs, rfl, ha, hvs⟩
  · rw [afterLast_eq_zero hnone, List.drop_zero, List.takeWhile_eq_self_iff.2, List.reverse_reverse]
    intro a hmem
    rw [hnone a (List.mem_reverse.1 hmem)]
    rfl
  · have htake : ∀ b ∈ vs.reverse, (!p b) = true := by
      intro b hb
      rw [hvs b (List.mem_reverse.1 hb)]
      rfl
    rw [afterLast_append ha hvs, List.reverse_append, List.reverse_cons, List.append_assoc,
      List.takeWhile_append_of_pos htake]
    rw [List.singleton_append, List.takeWhile_cons_of_neg (by simp [ha]), List.append_nil,
      List.reverse_reverse, List.drop_append, List.drop_of_length_le (by omega), List.nil_append,
      Nat.add_sub_cancel_left]
    rfl

end AfterLast

/-! ## The window -/

/-- `regular`: the episodes that are no specials. -/
def regularEpisodes (catalog : List CatalogEpisode) : List CatalogEpisode :=
  catalog.filter (·.season > 0)

/-- `last`: the position after the last regular episode played. -/
def watchAheadStart (catalog : List CatalogEpisode) (played : List Int) : Nat :=
  afterLast (fun e => e.tvdbId ∈ played) (regularEpisodes catalog)

/-- **A watch-ahead window**: the regular episodes from a position on, as many
as the count stands for or are left; none of them played, and the position
right after the last one played, or the first where none is. -/
structure IsWindow (regular : List CatalogEpisode) (count : Int) (played : List Int) (start : Nat)
    (window : List CatalogEpisode) : Prop where
  run : window = (regular.drop start).take window.length
  unplayed : ∀ e ∈ window, e.tvdbId ∉ played
  after : ∀ i e, regular[i]? = some e → e.tvdbId ∈ played → i < start
  begins : start = 0 ∨ ∃ e, regular[start - 1]? = some e ∧ e.tvdbId ∈ played
  length : (window.length : Int)
    = min (watchAheadCount (some count)) ((regular.length - start : Nat) : Int)

/-- The window is taken from the position after the last one played. -/
theorem watchAheadWindow_eq (catalog : List CatalogEpisode) (count : Int) (played : List Int) :
    watchAheadWindow catalog count played
      = ((regularEpisodes catalog).drop (watchAheadStart catalog played)).take
          (watchAheadCount (some count)).toNat := by
  have hunplayed : (fun e : CatalogEpisode => decide (e.tvdbId ∉ played))
      = fun e => !decide (e.tvdbId ∈ played) := by
    funext e
    exact decide_not
  unfold watchAheadWindow watchAheadStart
  dsimp only
  rw [hunplayed, reverse_takeWhile_reverse]
  rfl

/-- **The watch-ahead window follows the viewer.** -/
theorem isWindow_watchAheadWindow (catalog : List CatalogEpisode) (count : Int)
    (played : List Int) : IsWindow (regularEpisodes catalog) count played
      (watchAheadStart catalog played) (watchAheadWindow catalog count played) := by
  have hwindow := watchAheadWindow_eq catalog count played
  constructor
  · rw [hwindow, List.length_take]
    exact (List.take_eq_take_min ..)
  · intro e he
    rw [hwindow] at he
    have hnot := eq_false_of_mem_drop_afterLast
      (p := fun e : CatalogEpisode => decide (e.tvdbId ∈ played)) (List.mem_of_mem_take he)
    exact of_decide_eq_false hnot
  · exact fun i e hfound he => lt_afterLast hfound (decide_eq_true he)
  · refine (afterLast_eq_zero_or _ _).imp id ?_
    rintro ⟨e, hfound, he⟩
    exact ⟨e, hfound, of_decide_eq_true he⟩
  · have hcount : 0 ≤ watchAheadCount (some count) := by
      unfold watchAheadCount
      rw [Option.elim_some]
      omega
    rw [hwindow, List.length_take, List.length_drop]
    omega

/-- More episodes of Jellyfin marked as played are more ids. -/
theorem playedTvdbIds_subset (catalog : List CatalogEpisode) (items : List PlayedEpisode)
    (mark : PlayedEpisode → Bool) :
    playedTvdbIds catalog items ⊆ playedTvdbIds catalog
      (items.map fun item => { item with played := item.played || mark item }) := by
  intro id hid
  obtain ⟨item, hitem, hsome⟩ := List.mem_filterMap.1 hid
  obtain ⟨hmem, hplayed⟩ := List.mem_filter.1 hitem
  refine List.mem_filterMap.2 ⟨_, List.mem_filter.2 ⟨List.mem_map_of_mem hmem, ?_⟩, hsome⟩
  exact Bool.or_eq_true_iff.2 (.inl hplayed)

/-- **The watch-ahead window of every catalog**, with its ids in any order and
as often as may be: it is the run after the last episode played, and playing
more never moves its start back, by ids or by Jellyfin's episodes. -/
theorem watch_ahead_window_spec (catalog : List CatalogEpisode) (count : Int) :
    (∀ played, IsWindow (regularEpisodes catalog) count played
        (watchAheadStart catalog played) (watchAheadWindow catalog count played))
      ∧ (∀ played played' : List Int, played ⊆ played' →
        watchAheadStart catalog played ≤ watchAheadStart catalog played')
      ∧ ∀ (items : List PlayedEpisode) (mark : PlayedEpisode → Bool),
        watchAheadStart catalog (playedTvdbIds catalog items)
          ≤ watchAheadStart catalog (playedTvdbIds catalog
            (items.map fun item => { item with played := item.played || mark item })) := by
  have hmono : ∀ played played' : List Int, played ⊆ played' →
      watchAheadStart catalog played ≤ watchAheadStart catalog played' := fun played played' h =>
    afterLast_mono (fun e he => decide_eq_true (h (of_decide_eq_true he))) _
  exact ⟨isWindow_watchAheadWindow catalog count, hmono,
    fun items mark => hmono _ _ (playedTvdbIds_subset catalog items mark)⟩

/-- Two seasons and a special, one id listed twice. -/
def twiceListed : List CatalogEpisode :=
  [{ tvdbId := 11, season := 1, episode := 1 }, { tvdbId := 1, season := 0, episode := 1 },
    { tvdbId := 12, season := 1, episode := 2 }, { tvdbId := 21, season := 2, episode := 1 },
    { tvdbId := 12, season := 2, episode := 2 }, { tvdbId := 23, season := 2, episode := 3 }]

/-- There: with the second episode played, the window begins after the last
place its id is listed at. -/
theorem watch_ahead_window_twice :
    (watchAheadWindow twiceListed 2 [12]).map (·.tvdbId) = [23]
      ∧ watchAheadStart twiceListed [11] ≤ watchAheadStart twiceListed [11, 12] :=
  ⟨by decide, (watch_ahead_window_spec twiceListed 2).2.1 [11] [11, 12] (by decide)⟩

end Foreseerr

import Foreseerr.FormKeys
import Mathlib.Data.List.Induction

/-!
# The token of a form

`csrf.rs` looks for `_csrf` in a form without parsing it: `form_body_token` goes over the
parts and counts those whose key reads `_csrf` or `_csrf[...`. The handlers get the form
from `Qs.parse`, which unescapes brackets before it splits a part into key and value, and
takes the brackets off a key that starts with them.

What the form has under `_csrf` is said here in terms of the parts (`reads`), and so is
when the two come to the same.
-/

namespace Foreseerr

namespace CsrfForm

open Qs

/-! ## The scan -/

/-- `SECRET_COOKIE`. -/
def secretCookie : Text := "_csrf".toList

/-- `PARAMETER_LIMIT`. -/
def parameterLimit : Nat := 1000

/-- `Token`. -/
inductive Token
  | text (t : Text)
  | notText
deriving DecidableEq, Repr

/-- `BodyToken`, of a body that is text. -/
inductive BodyToken
  | absent
  | found (token : Token)
  | parserFails
deriving DecidableEq, Repr

/-- What the loop of `form_body_token` collects. -/
structure Scan where
  plain : List Text := []
  nested : Bool := false

/-- Whether the first bracket of a text closes. -/
def closes (rest : Text) : Bool := (rest.find? fun c => c = '[' ∨ c = ']') = some ']'

/-- Whether a key reads `_csrf[...]`. -/
def opensToken (key : Text) : Bool :=
  (secretCookie ++ ['[']).isPrefixOf key && closes (key.drop (secretCookie.length + 1))

/-- One part of `form_body_token`. -/
def scanPart (scan : Scan) (part : Text) : Scan :=
  let (key, value) := readPart false part
  if key = secretCookie then { scan with plain := scan.plain ++ [value] }
  else if opensToken key then { scan with nested := true }
  else scan

/-- `form_body_token`. -/
def formBodyToken (text : Text) : BodyToken :=
  if text = [] then .absent
  else if parameterLimit < (text.splitOn '&').length then .parserFails
  else
    let scan := (text.splitOn '&').foldl scanPart {}
    match scan.plain, scan.nested with
    | [], false => .absent
    | [one], false => if one = [] then .absent else .found (.text one)
    | _, _ => .found .notText

example : formBodyToken "a=1&_csrf=x+y%21".toList = .found (.text "x y!".toList)
    ∧ formBodyToken "_csrf=a&_csrf=b".toList = .found .notText
    ∧ formBodyToken "_csrf[]=a".toList = .found .notText
    ∧ formBodyToken "_csrf[=a".toList = .absent := by
  decide +kernel

/-! ## The form -/

/-- The value of `_csrf` in the form that the handlers get. -/
def formValue (text : Text) : Option Q :=
  (parse text (bodyOptions (text.splitOn '&').length)).toOption.bind (get · secretCookie)

/-- The scan tells what the form has. -/
structure Agrees (text : Text) : Prop where
  absent : formBodyToken text = .absent ↔ formValue text = none ∨ formValue text = some (.str [])
  plain : ∀ t, formBodyToken text = .found (.text t) ↔ t ≠ [] ∧ formValue text = some (.str t)
  notText : formBodyToken text = .found .notText ↔ ∃ v, formValue text = some v ∧ v.isContainer

/-! ## Reading the parts -/

/-- Where a key puts its value: as the token itself, or into it. -/
inductive Place
  | itself
  | inside
deriving DecidableEq, Repr

/-- The place of a parameter's value in the form, for keys that start with `_csrf` or
with `[_csrf]`. -/
def place (key : Text) : Option Place :=
  match nextGroup key with
  | none => if key = secretCookie then some .itself else none
  | some (before, content, after) =>
    if before = secretCookie then some .inside
    else if before = [] ∧ content = secretCookie then
      some (if nextGroup after = none then .itself else .inside)
    else none

/-- Whether a key has more groups than the depth. -/
def tooDeep : Nat → Text → Bool
  | left, key =>
    match nextGroup key with
    | none => false
    | some (_, _, after) =>
      match left with
      | 0 => true
      | left + 1 => tooDeep left after

/-- The parts as the scan reads them. -/
def scanned (text : Text) : List (Text × Text) := (text.splitOn '&').map (readPart false)

/-- The parts as the form is made of them. -/
def readings (text : Text) : List (Text × Text) :=
  ((bracketed text).splitOn '&').map (readPart false)

/-- The parts that put their value in one place. -/
def placed (p : Place) (readings : List (Text × Text)) : List (Text × Text) :=
  readings.filter fun r => place r.1 = some p

/-- The parts give one value, followed by empty ones under other keys at most. -/
def oneText (readings : List (Text × Text)) : Bool :=
  (readings.map (·.1)).Nodup ∧ ∀ r ∈ readings.tail, r.2 = []

/-- What the form has under `_csrf`, by its parts. -/
def reads (readings : List (Text × Text)) : Option Token :=
  if readings.any fun r => tooDeep 32 r.1 then none
  else if placed .inside readings ≠ [] then some .notText
  else if oneText (placed .itself readings) then
    (placed .itself readings).head?.map fun r => .text r.2
  else some .notText

/-- What the scan finds, by its parts. -/
def scanReads (readings : List (Text × Text)) : Option Token :=
  match readings.filter fun r => r.1 = secretCookie, readings.any fun r => opensToken r.1 with
  | [], false => none
  | [r], false => some (.text r.2)
  | _, _ => some .notText

/-- The body's token: an empty one is absent. -/
def bodyToken : Option Token → BodyToken
  | none | some (.text []) => .absent
  | some token => .found token

/-! ## Segments and places

The options of a form allow prototype keys and are strict about the depth. -/

theorem segments_eq {o : Options} (hallow : o.allowPrototypes = true)
    (hstrict : o.strictDepth = true) (left : Nat) (key : Text) :
    (tooDeep left key = true ∧ segments o left key = .error .depthExceeded)
    ∨ (tooDeep left key = false ∧ ∃ segs, segments o left key = .ok (some segs)
      ∧ (segs = [] ↔ nextGroup key = none)
      ∧ ∀ before content after, nextGroup key = some (before, content, after) →
        ∃ rest, segs = ('[' :: (content ++ [']'])) :: rest
          ∧ (rest = [] ↔ nextGroup after = none)) := by
  induction left generalizing key with
  | zero =>
    rw [tooDeep, segments]
    cases hnext : nextGroup key with
    | none => exact .inr ⟨rfl, [], rfl, by simp, by rintro _ _ _ ⟨⟩⟩
    | some parts =>
      refine .inl ⟨rfl, ?_⟩
      dsimp only
      rw [if_pos hstrict]
  | succ left ih =>
    rw [tooDeep, segments]
    cases hnext : nextGroup key with
    | none => exact .inr ⟨rfl, [], rfl, by simp, by rintro _ _ _ ⟨⟩⟩
    | some parts =>
      obtain ⟨before, content, after⟩ := parts
      dsimp only
      rw [hallow, Bool.not_true, Bool.false_and, if_neg Bool.false_ne_true]
      rcases ih after with ⟨hdeep, herror⟩ | ⟨hdeep, segs, hsegs, hnil, -⟩
      · exact .inl ⟨hdeep, by rw [herror]; rfl⟩
      · refine .inr ⟨hdeep, ('[' :: (content ++ [']'])) :: segs, by rw [hsegs]; rfl, by simp,
          ?_⟩
        intro _ _ _ h
        cases h
        exact ⟨segs, rfl, hnil⟩

/-- The chain of a key: its first segment says whether it is about the token, and whether
it ends there says where the value goes. -/
theorem splitKey_place {o : Options} (hallow : o.allowPrototypes = true)
    (hstrict : o.strictDepth = true) (hdepth : o.depth ≠ 0) {key : Text} (hkey : key ≠ []) :
    (tooDeep o.depth key = true ∧ splitKey key o = .error .depthExceeded)
    ∨ (tooDeep o.depth key = false ∧ ∃ root rest, splitKey key o = .ok (some (root :: rest))
      ∧ (clean root = secretCookie ↔ ∃ p, place key = some p)
      ∧ (place key = some .itself → rest = []) ∧ (place key = some .inside → rest ≠ [])) := by
  have hfree : BracketFree secretCookie := by decide
  have hclean : clean secretCookie = secretCookie := by decide
  have hparent : clean ((nextGroup key).elim key (·.1)) = secretCookie ↔
      (nextGroup key).elim key (·.1) = secretCookie := by
    constructor
    · intro h
      rw [← clean_parent (by rw [h]; exact hfree), h]
    · intro h
      rw [h, hclean]
  rw [splitKey, if_neg hdepth, hallow]
  simp only [Bool.not_true, Bool.false_and, Bool.false_eq_true, and_false, if_false]
  rcases segments_eq hallow hstrict o.depth key with
    ⟨hdeep, herror⟩ | ⟨hdeep, segs, hsegs, hnil, hnext⟩
  · exact .inl ⟨hdeep, by rw [herror]; rfl⟩
  · refine .inr ⟨hdeep, ?_⟩
    rw [hsegs]
    cases hgroup : nextGroup key with
    | none =>
      rw [hgroup, Option.elim_none] at hparent
      refine ⟨key, [], ?_, ?_, fun _ => rfl, fun h => ?_⟩
      · rw [hnil.2 hgroup, Option.elim_none, if_neg hkey]
        rfl
      · rw [hparent, place, hgroup]
        dsimp only
        split <;> simp [*]
      · rw [place, hgroup] at h
        dsimp only at h
        split at h <;> cases h
    | some parts =>
      obtain ⟨before, content, after⟩ := parts
      obtain ⟨rest, rfl, hrest⟩ := hnext before content after hgroup
      rw [hgroup, Option.elim_some] at hparent
      dsimp only at hparent
      by_cases hbefore : before = []
      · subst hbefore
        refine ⟨'[' :: (content ++ [']']), rest, by rw [Option.elim_some, if_pos rfl]; rfl, ?_, ?_⟩
        · rw [clean_group, place, hgroup]
          dsimp only
          rw [if_neg (by decide)]
          by_cases hcontent : content = secretCookie
          · simp [hcontent]
          · simp [hcontent]
        · rw [place, hgroup]
          dsimp only
          rw [if_neg (by decide)]
          split
          next =>
            split
            next hafter => exact ⟨fun _ => hrest.2 hafter, by rintro ⟨⟩⟩
            next hafter => exact ⟨by rintro ⟨⟩, fun _ h => hafter (hrest.1 h)⟩
          next => exact ⟨by rintro ⟨⟩, by rintro ⟨⟩⟩
      · refine ⟨before, ('[' :: (content ++ [']'])) :: rest,
          by rw [Option.elim_some, if_neg hbefore]; rfl, ?_, fun h => ?_, fun _ => by simp⟩
        · rw [hparent, place, hgroup]
          dsimp only
          by_cases hcookie : before = secretCookie
          · simp [hcookie]
          · simp [hcookie, hbefore]
        · rw [place, hgroup] at h
          dsimp only at h
          split at h
          next => cases h
          next => rw [if_neg fun h => hbefore h.1] at h; cases h

/-! ## One key of a form

What merges do to the value of `_csrf`, and to no other. -/

variable {o : Options} {key : Text}

theorem get_mergeEntry (acc : Entries) (entry : Text × Merger) (key : Text) :
    get (mergeEntry entry acc) key
      = if entry.1 = key then some ((get acc key).elim entry.2.1 entry.2.2) else get acc key := by
  induction acc with
  | nil =>
    by_cases h : entry.1 = key
    · simp [mergeEntry, Qs.get, h]
    · simp [mergeEntry, Qs.get, h]
  | cons e acc ih =>
    rw [mergeEntry]
    simp only [Qs.get] at ih
    by_cases he : e.1 = entry.1
    · by_cases h : entry.1 = key
      · simp [Qs.get, he, h]
      · simp [Qs.get, he, h]
    · by_cases hkey : e.1 = key
      · have h : entry.1 ≠ key := fun h => he (hkey.trans h.symm)
        simp [Qs.get, hkey, h, Ne.symm h]
      · rw [if_neg he]
        simp only [Qs.get, List.find?_cons_of_neg (p := fun e : Text × Q => decide (e.1 = key))
          (by simpa using hkey), ih]

theorem get_mergeEntries_of_ne {acc : Entries} {src : List (Text × Merger)}
    (h : ∀ e ∈ src, e.1 ≠ key) : get (mergeEntries acc src) key = get acc key := by
  rw [mergeEntries]
  replace h : ∀ e ∈ inKeyOrder src, e.1 ≠ key := fun e he => h e (mem_inKeyOrder.1 he)
  generalize inKeyOrder src = src at h
  induction src generalizing acc with
  | nil => rfl
  | cons e src ih =>
    rw [List.forall_mem_cons] at h
    rw [List.foldl_cons, ih h.2, get_mergeEntry, if_neg h.1]

/-- An overflow object has indices for keys only. -/
def Indexed (q : Q) : Prop :=
  ∀ entries max, q = .obj entries (some max) → ∀ e ∈ entries, ∃ n, e.1 = indexText n

theorem secretCookie_ne_indexText (n : Nat) : indexText n ≠ secretCookie := fun h =>
  have hmem : '_' ∈ indexText n := h ▸ List.mem_cons_self
  absurd (isDigit_toDigits '_' hmem) (by decide)

theorem combinePlain_indexed (a b : Q) (limit : Nat) : Indexed (combinePlain a b limit) := by
  intro entries max h e he
  rw [combinePlain] at h
  split at h
  · cases h
    obtain ⟨⟨n, -, hn⟩, -⟩ := mem_indexed he
    exact ⟨n, hn⟩
  · cases h

theorem wrap_indexed {root : Text} {leaf : Q} (h : Indexed leaf) : Indexed (wrap o root leaf) := by
  unfold wrap
  split
  · split
    · exact h
    · exact combinePlain_indexed _ _ _
  · split
    · exact fun _ _ h => nomatch h
    · exact fun _ _ h => nomatch h

theorem parseObject_indexed (chain : List Text) {leaf : Q} (h : Indexed leaf) :
    Indexed (parseObject chain leaf o) := by
  induction chain with
  | nil => exact h
  | cons root chain ih => exact wrap_indexed ih

theorem wrap_isContainer (root : Text) (leaf : Q) : (wrap o root leaf).isContainer = true := by
  unfold wrap
  split
  · split
    · rfl
    · rw [combinePlain]
      split <;> rfl
  · split <;> rfl

theorem merge_keys_of_ne {source : Q} {acc : Entries} {key : Text}
    (hcontainer : source.isContainer = true) (hkey : ∀ n, indexText n ≠ key)
    (h : ∀ entries overflow, source = .obj entries overflow → ∀ e ∈ entries, e.1 ≠ key) :
    ∃ acc', merge o source (.obj acc none) = .obj acc' none ∧ get acc' key = get acc key := by
  cases source with
  | str s => cases hcontainer
  | yes => cases hcontainer
  | arr src =>
    refine ⟨_, by rw [merge], get_mergeEntries_of_ne fun e he => ?_⟩
    obtain ⟨⟨n, -, hn⟩, -⟩ := mem_indexed he
    exact hn ▸ hkey n
  | obj src overflow =>
    refine ⟨_, by rw [merge], get_mergeEntries_of_ne fun e he => ?_⟩
    rw [entryMergers_eq fun _ => false, entryMarkers_eq, List.map_map] at he
    obtain ⟨f, hf, rfl⟩ := List.mem_map.1 he
    exact h src overflow rfl f hf

/-- A chain's first segment names the one key of the form that it is merged into. -/
theorem merge_wrap (root : Text) {leaf : Q} (acc : Entries) (hleaf : Indexed leaf) :
    ∃ acc', merge o (wrap o root leaf) (.obj acc none) = .obj acc' none
      ∧ get acc' secretCookie
        = if clean root = secretCookie then some ((get acc secretCookie).elim leaf (merge o leaf))
          else get acc secretCookie := by
  by_cases hroot : clean root = secretCookie
  · have hnil : root ≠ ['[', ']'] := by
      rintro rfl
      exact absurd hroot (by decide)
    have hindex : indexKey secretCookie = none := by decide
    have hwrap : wrap o root leaf = .obj [(secretCookie, leaf)] none := by
      unfold wrap
      rw [if_neg hnil, hroot, hindex, ite_self, Option.filter_none]
      dsimp only
      rw [if_pos (by decide)]
    refine ⟨mergeEntry (secretCookie, leaf, merge o leaf) acc, ?_, ?_⟩
    · rw [hwrap, merge]
      have horder : inKeyOrder [(secretCookie, leaf, merge o leaf)]
          = [(secretCookie, leaf, merge o leaf)] := by
        simp [inKeyOrder, hindex]
      simp only [entryMergers, mergeEntries, horder, List.foldl_cons, List.foldl_nil]
    · rw [get_mergeEntry, if_pos rfl, if_pos hroot]
  · rw [if_neg hroot]
    refine merge_keys_of_ne (wrap_isContainer root leaf) secretCookie_ne_indexText ?_
    intro entries overflow hobj e he
    cases overflow with
    | some max =>
      obtain ⟨n, hn⟩ := wrap_indexed (o := o) hleaf entries max hobj e he
      exact hn ▸ secretCookie_ne_indexText n
    | none =>
      unfold wrap at hobj
      split at hobj
      · split at hobj
        · cases hobj
        · rw [combinePlain] at hobj
          split at hobj <;> cases hobj
      · split at hobj
        · cases hobj
        · cases hobj
          split at he
          · rw [List.mem_singleton.1 he]
            exact hroot
          · cases he

/-! ## The value of the token in the form -/

/-- What a parameter puts under `_csrf`. -/
def contribution (o : Options) (entry : Text × Q) : Option Q :=
  match splitKey entry.1 o with
  | .ok (some (root :: rest)) =>
    if clean root = secretCookie then some (parseObject rest entry.2 o) else none
  | _ => none

/-- The values put under `_csrf`, merged one after another. -/
def mergeAll (o : Options) (cur : Option Q) (contributions : List Q) : Option Q :=
  contributions.foldl (fun cur c => some (cur.elim c (merge o c))) cur

theorem contribution_nil {value : Q} (hdepth : o.depth ≠ 0) :
    contribution o ([], value) = none := by
  have hsegs : segments o o.depth [] = .ok (some []) := by
    cases hd : o.depth with
    | zero => exact absurd hd hdepth
    | succ d => rfl
  simp [contribution, splitKey, hdepth, hsegs, nextGroup, Except.map]

theorem tooDeep_of_nextGroup (h : nextGroup key = none) (left : Nat) :
    tooDeep left key = false := by
  cases left <;> simp [tooDeep, h]

section Form

variable (hallow : o.allowPrototypes = true) (hstrict : o.strictDepth = true)
  (hdepth : o.depth ≠ 0)

include hallow hstrict hdepth

theorem addParsed_eq (acc : Entries) {entry : Text × Q} (hleaf : Indexed entry.2) :
    (tooDeep o.depth entry.1 = true ∧ addParsed o (.obj acc none) entry = .error .depthExceeded)
    ∨ (tooDeep o.depth entry.1 = false
      ∧ ∃ acc', addParsed o (.obj acc none) entry = .ok (.obj acc' none)
        ∧ get acc' secretCookie
          = mergeAll o (get acc secretCookie) (contribution o entry).toList) := by
  obtain ⟨key, value⟩ := entry
  by_cases hkey : key = []
  · subst hkey
    rw [addParsed, parsedParameter, if_pos rfl, contribution_nil hdepth]
    exact .inr ⟨tooDeep_of_nextGroup rfl _, acc, rfl, rfl⟩
  · rw [addParsed, parsedParameter, if_neg hkey]
    rcases splitKey_place hallow hstrict hdepth hkey with
      ⟨hdeep, herror⟩ | ⟨hdeep, root, rest, hsplit, -⟩
    · exact .inl ⟨hdeep, by rw [herror]; rfl⟩
    · obtain ⟨acc', hacc, hget⟩ := merge_wrap (o := o) root acc
        (parseObject_indexed (o := o) rest hleaf)
      refine .inr ⟨hdeep, acc', by rw [hsplit, ← hacc]; rfl, hget.trans ?_⟩
      rw [contribution, hsplit]
      dsimp only
      split <;> rfl

theorem contribution_eq (key : Text) (value : Q) (hdeep : tooDeep o.depth key = false) :
    (place key = none → contribution o (key, value) = none)
    ∧ (place key = some .itself → contribution o (key, value) = some value)
    ∧ (place key = some .inside →
      ∃ c, contribution o (key, value) = some c ∧ c.isContainer = true) := by
  by_cases hkey : key = []
  · subst hkey
    rw [contribution_nil hdepth]
    exact ⟨fun _ => rfl, fun h => absurd h (by decide), fun h => absurd h (by decide)⟩
  · rcases splitKey_place hallow hstrict hdepth hkey with
      ⟨hdeep', -⟩ | ⟨-, root, rest, hsplit, hroot, hitself, hinside⟩
    · rw [hdeep] at hdeep'
      cases hdeep'
    · rw [contribution, hsplit]
      dsimp only
      refine ⟨fun h => if_neg fun hclean => ?_, fun h => ?_, fun h => ?_⟩
      · obtain ⟨p, hp⟩ := hroot.1 hclean
        rw [h] at hp
        cases hp
      · rw [if_pos (hroot.2 ⟨_, h⟩), hitself h]
        rfl
      · refine ⟨_, if_pos (hroot.2 ⟨_, h⟩), ?_⟩
        cases rest with
        | nil => exact absurd rfl (hinside h)
        | cons next rest => exact wrap_isContainer next _

theorem foldlM_get {entries : Entries} (acc : Entries) (hentries : ∀ e ∈ entries, Indexed e.2) :
    ((∃ e ∈ entries, tooDeep o.depth e.1 = true)
      ∧ entries.foldlM (addParsed o) (.obj acc none) = .error .depthExceeded)
    ∨ ((∀ e ∈ entries, tooDeep o.depth e.1 = false)
      ∧ ∃ acc', entries.foldlM (addParsed o) (.obj acc none) = .ok (.obj acc' none)
        ∧ get acc' secretCookie
          = mergeAll o (get acc secretCookie) (entries.filterMap (contribution o))) := by
  induction entries generalizing acc with
  | nil => exact .inr ⟨by simp, acc, rfl, rfl⟩
  | cons entry rest ih =>
    rw [List.forall_mem_cons] at hentries
    rw [List.foldlM_cons]
    rcases addParsed_eq hallow hstrict hdepth acc hentries.1 with
      ⟨hdeep, herror⟩ | ⟨hdeep, next, hnext, hget⟩
    · exact .inl ⟨⟨entry, List.mem_cons_self, hdeep⟩, by rw [herror]; rfl⟩
    · rw [hnext]
      rcases ih next hentries.2 with
        ⟨⟨e, he, hrest⟩, herror⟩ | ⟨hrest, acc', hacc, hrestget⟩
      · exact .inl ⟨⟨e, List.mem_cons_of_mem _ he, hrest⟩, herror⟩
      · refine .inr ⟨List.forall_mem_cons.2 ⟨hdeep, hrest⟩, acc', hacc, ?_⟩
        rw [hrestget, hget, List.filterMap_cons]
        cases contribution o entry <;> rfl

end Form

/-- What a token says about the value under `_csrf`. -/
def IsRead (v : Option Q) : Option Token → Prop
  | none => v = none
  | some (.text t) => v = some (.str t)
  | some .notText => ∃ q, v = some q ∧ q.isContainer = true

/-- A text, an array or an object. -/
def IsValue (q : Q) : Prop := (∃ s, q = .str s) ∨ q.isContainer = true

theorem merge_into_container (c : Q) {target : Q} (h : target.isContainer = true) :
    (merge o c target).isContainer = true := by
  have hprimitive : ∀ primitive, (mergePrimitive o primitive target).isContainer = true := by
    intro primitive
    cases target with
    | str s => cases h
    | yes => cases h
    | arr items => rfl
    | obj entries overflow =>
      cases overflow with
      | some max => rfl
      | none =>
        simp only [mergePrimitive]
        split <;> rfl
  cases c with
  | str s =>
    rw [merge]
    dsimp only
    split
    · exact h
    · exact hprimitive _
  | yes => exact hprimitive .yes
  | arr src =>
    cases target with
    | str s => cases h
    | yes => cases h
    | arr items => rfl
    | obj entries overflow => rfl
  | obj src overflow =>
    cases target with
    | str s => cases h
    | yes => cases h
    | arr items => rfl
    | obj entries overflow => rfl

theorem merge_container {c : Q} (h : c.isContainer = true) (target : Q) :
    (merge o c target).isContainer = true := by
  cases htarget : target.isContainer with
  | true => exact merge_into_container c htarget
  | false =>
    cases c with
    | str s => cases h
    | yes => cases h
    | arr src =>
      cases target with
      | str s => rfl
      | yes => rfl
      | arr items => cases htarget
      | obj entries overflow => cases htarget
    | obj src overflow =>
      cases target with
      | arr items => cases htarget
      | obj entries kept => cases htarget
      | str s | yes => cases overflow <;> rfl

theorem merge_text {s : Text} (hs : s ≠ []) {target : Q} (h : IsValue target) :
    (merge o (.str s) target).isContainer = true := by
  rcases h with ⟨t, rfl⟩ | h
  · rw [merge]
    dsimp only
    rw [if_neg hs]
    rfl
  · exact merge_into_container _ h

theorem merge_isValue {c target : Q} (hc : IsValue c) (h : IsValue target) :
    IsValue (merge o c target) := by
  rcases hc with ⟨s, rfl⟩ | hc
  · by_cases hs : s = []
    · rw [merge, hs]
      dsimp only
      rw [if_pos rfl]
      exact h
    · exact .inr (merge_text hs h)
  · exact .inr (merge_container hc target)

theorem mergeAll_isContainer {q : Q} (h : q.isContainer = true) (contributions : List Q) :
    ∃ v, mergeAll o (some q) contributions = some v ∧ v.isContainer = true := by
  induction contributions generalizing q with
  | nil => exact ⟨q, rfl, h⟩
  | cons c rest ih => exact ih (merge_into_container c h)

theorem exists_mergeAll (q : Q) (contributions : List Q) :
    ∃ v, mergeAll o (some q) contributions = some v := by
  induction contributions generalizing q with
  | nil => exact ⟨q, rfl⟩
  | cons c rest ih => exact ih _

theorem mergeAll_append (cur : Option Q) (before after : List Q) :
    mergeAll o cur (before ++ after) = mergeAll o (mergeAll o cur before) after :=
  List.foldl_append

theorem mergeAll_isValue {cur : Option Q} {contributions : List Q}
    (hcur : ∀ q, cur = some q → IsValue q) (h : ∀ c ∈ contributions, IsValue c) :
    ∀ q, mergeAll o cur contributions = some q → IsValue q := by
  induction contributions generalizing cur with
  | nil => exact hcur
  | cons c rest ih =>
    rw [List.forall_mem_cons] at h
    refine ih (fun q hq => ?_) h.2
    cases hq
    cases cur with
    | none => exact h.1
    | some x => exact merge_isValue h.1 (hcur x rfl)

/-- A list or an object among the values makes one of them all. -/
theorem mergeAll_of_container {contributions : List Q} {c : Q} (hc : c ∈ contributions)
    (h : c.isContainer = true) :
    ∃ v, mergeAll o none contributions = some v ∧ v.isContainer = true := by
  obtain ⟨before, after, rfl⟩ := List.append_of_mem hc
  rw [mergeAll_append]
  cases mergeAll o none before with
  | none => exact mergeAll_isContainer h after
  | some x => exact mergeAll_isContainer (merge_container h x) after

/-- So does a text that is not the first one. -/
theorem mergeAll_of_text {first : Q} {rest : List Q} {s : Text} (hs : s ≠ [])
    (hmem : .str s ∈ rest) (h : ∀ c ∈ first :: rest, IsValue c) :
    ∃ v, mergeAll o none (first :: rest) = some v ∧ v.isContainer = true := by
  obtain ⟨before, after, rfl⟩ := List.append_of_mem hmem
  rw [List.forall_mem_cons] at h
  have hbefore : ∀ q, mergeAll o (some first) before = some q → IsValue q :=
    mergeAll_isValue (fun q hq => Option.some.inj hq ▸ h.1) fun c hc =>
      h.2 c (List.mem_append_left _ hc)
  have hstep : mergeAll o none (first :: (before ++ .str s :: after))
      = mergeAll o (mergeAll o (some first) before) (.str s :: after) :=
    mergeAll_append (some first) before _
  obtain ⟨x, hx⟩ := exists_mergeAll (o := o) first before
  rw [hstep, hx]
  exact mergeAll_isContainer (merge_text hs (hbefore x hx)) after

/-- Empty texts change nothing. -/
theorem mergeAll_empty (q : Q) {contributions : List Q} (h : ∀ c ∈ contributions, c = .str []) :
    mergeAll o (some q) contributions = some q := by
  induction contributions with
  | nil => rfl
  | cons c rest ih =>
    rw [List.forall_mem_cons] at h
    have hmerge : merge o c q = q := by
      rw [h.1, merge]
      exact if_pos rfl
    exact (congrArg (mergeAll o · rest) (congrArg some hmerge)).trans (ih h.2)

/-! ## Repeated keys -/

/-- `addParameter` of a part that is read. -/
def addReading (o : Options) (entries : Entries) (r : Text × Text) : Entries :=
  match get entries r.1 with
  | some existing => set r.1 (combine existing (.str r.2) o.arrayLimit) entries
  | none => set r.1 (.str r.2) entries

theorem parseValues_eq (text : Text) (hlatin1 : o.latin1 = false)
    (hcount : ((bracketed text).splitOn '&').length ≤ o.parameterLimit) :
    parseValues text o = (readings text).foldl (addReading o) [] := by
  rw [parseValues, readings, List.take_of_length_le hcount, List.foldl_map, ← hlatin1]
  rfl

theorem combine_isContainer (a b : Q) (limit : Nat) : (combine a b limit).isContainer = true := by
  unfold combine
  split
  · rfl
  · rw [combinePlain]
    split <;> rfl

theorem get_eq_none_iff {entries : Entries} : get entries key = none ↔ key ∉ entries.map (·.1) := by
  rw [Qs.get, Option.map_eq_none_iff, List.find?_eq_none, List.mem_map]
  simp only [decide_eq_true_eq]
  exact ⟨fun h ⟨e, he, hkey⟩ => h e he hkey, fun h e he hkey => h ⟨e, he, hkey⟩⟩

theorem set_filter (p : Text → Bool) (value : Q) (entries : Entries) :
    (set key value entries).filter (fun e => p e.1)
      = if p key then set key value (entries.filter fun e => p e.1)
        else entries.filter fun e => p e.1 := by
  induction entries with
  | nil => cases hp : p key <;> simp [Qs.set, hp]
  | cons e entries ih =>
    rw [Qs.set]
    by_cases he : e.1 = key
    · cases hp : p key <;> simp [he, hp, Qs.set]
    · rw [if_neg he, List.filter_cons, ih]
      cases hpe : p e.1 <;> cases hp : p key <;> simp [hpe, Qs.set, he]

theorem get_filter {p : Text → Bool} (hp : p key = true) (entries : Entries) :
    get (entries.filter fun e => p e.1) key = get entries key := by
  induction entries with
  | nil => rfl
  | cons e entries ih =>
    simp only [Qs.get] at ih ⊢
    by_cases he : e.1 = key
    · simp [he, hp]
    · rw [List.find?_cons_of_neg (by simpa using he), ← ih, List.filter_cons]
      split
      · rw [List.find?_cons_of_neg (by simpa using he)]
      · rfl

/-- The entries of some keys come from the readings of these keys. -/
theorem foldl_addReading_filter (p : Text → Bool) (rs : List (Text × Text)) (entries : Entries) :
    (rs.foldl (addReading o) entries).filter (fun e => p e.1)
      = (rs.filter fun r => p r.1).foldl (addReading o) (entries.filter fun e => p e.1) := by
  induction rs generalizing entries with
  | nil => rfl
  | cons r rs ih =>
    have hstep : (addReading o entries r).filter (fun e => p e.1)
        = if p r.1 then addReading o (entries.filter fun e => p e.1) r
          else entries.filter fun e => p e.1 := by
      rw [addReading, addReading]
      cases hp : p r.1 with
      | false => split <;> rw [set_filter, hp] <;> rfl
      | true =>
        rw [get_filter hp]
        split
        · rw [set_filter, if_pos hp, if_pos rfl]
        · rw [set_filter, if_pos hp, if_pos rfl]
    rw [List.foldl_cons, ih, hstep, List.filter_cons]
    split <;> rfl

theorem set_of_notMem {entries : Entries} {value : Q} (h : key ∉ entries.map (·.1)) :
    set key value entries = entries ++ [(key, value)] := by
  induction entries with
  | nil => rfl
  | cons e entries ih =>
    rw [List.map_cons, List.mem_cons, not_or] at h
    rw [Qs.set, if_neg (Ne.symm h.1), ih h.2, List.cons_append]

/-- Keys that differ each keep their one text. -/
theorem foldl_addReading_of_nodup {rs : List (Text × Text)} (entries : Entries)
    (hkeys : (rs.map (·.1)).Nodup) (hnew : ∀ r ∈ rs, r.1 ∉ entries.map (·.1)) :
    rs.foldl (addReading o) entries = entries ++ rs.map fun r => (r.1, .str r.2) := by
  induction rs generalizing entries with
  | nil => simp
  | cons r rs ih =>
    rw [List.map_cons, List.nodup_cons] at hkeys
    rw [List.forall_mem_cons] at hnew
    have hstep : addReading o entries r = entries ++ [(r.1, .str r.2)] := by
      rw [addReading, get_eq_none_iff.2 hnew.1]
      exact set_of_notMem hnew.1
    rw [List.foldl_cons, hstep, ih _ hkeys.2, List.append_assoc, List.map_cons,
      List.singleton_append]
    intro s hs hmem
    rw [List.map_append, List.mem_append, List.map_singleton, List.mem_singleton] at hmem
    rcases hmem with hmem | hmem
    · exact hnew.2 s hs hmem
    · exact hkeys.1 (List.mem_map.2 ⟨s, hs, hmem⟩)

theorem mem_set_self {entries : Entries} {value : Q} : (key, value) ∈ set key value entries := by
  induction entries with
  | nil => exact List.mem_singleton.2 rfl
  | cons e entries ih =>
    rw [Qs.set]
    split
    next h =>
      rw [h]
      exact List.mem_cons_self
    next => exact List.mem_cons_of_mem _ ih

theorem mem_set_of_ne {entries : Entries} {value : Q} {e : Text × Q} (he : e ∈ entries)
    (hne : e.1 ≠ key) : e ∈ set key value entries := by
  induction entries with
  | nil => cases he
  | cons f entries ih =>
    rw [Qs.set]
    split
    next hf =>
      rcases List.mem_cons.1 he with rfl | he
      · exact absurd hf hne
      · exact List.mem_cons_of_mem _ he
    next =>
      rcases List.mem_cons.1 he with rfl | he
      · exact List.mem_cons_self
      · exact List.mem_cons_of_mem _ (ih he)

/-- A key that is repeated has a list. -/
theorem exists_container_foldl {rs : List (Text × Text)} (entries : Entries)
    (h : (∃ r ∈ rs, r.1 ∈ entries.map (·.1)) ∨ ¬ (rs.map (·.1)).Nodup
      ∨ ∃ e ∈ entries, e.2.isContainer = true) :
    ∃ e ∈ rs.foldl (addReading o) entries, e.2.isContainer = true := by
  induction rs generalizing entries with
  | nil =>
    rcases h with ⟨r, hr, -⟩ | h | h
    · cases hr
    · exact absurd List.nodup_nil h
    · exact h
  | cons r rs ih =>
    refine ih _ ?_
    cases hget : get entries r.1 with
    | some existing =>
      have hstep : addReading o entries r
          = set r.1 (combine existing (.str r.2) o.arrayLimit) entries := by
        rw [addReading, hget]
      exact .inr (.inr ⟨_, hstep ▸ mem_set_self, combine_isContainer _ _ _⟩)
    | none =>
      have hstep : addReading o entries r = set r.1 (.str r.2) entries := by rw [addReading, hget]
      have hnew := get_eq_none_iff.1 hget
      rw [hstep]
      rcases h with ⟨s, hs, hmem⟩ | h | ⟨e, he, hcontainer⟩
      · rcases List.mem_cons.1 hs with rfl | hs
        · exact absurd hmem hnew
        · exact .inl ⟨s, hs, mem_keys_set hmem⟩
      · rw [List.map_cons, List.nodup_cons, not_and_or, not_not] at h
        rcases h with h | h
        · obtain ⟨s, hs, hkey⟩ := List.mem_map.1 h
          exact .inl ⟨s, hs, hkey ▸ mem_keys_set_self entries r.1 _⟩
        · exact .inr (.inl h)
      · exact .inr (.inr ⟨e, mem_set_of_ne he fun hkey =>
          hnew (hkey ▸ List.mem_map_of_mem he), hcontainer⟩)

theorem foldl_addReading_spec {rs : List (Text × Text)} {entries : Entries}
    (h : ∀ e ∈ entries, IsValue e.2) :
    ∀ e ∈ rs.foldl (addReading o) entries,
      IsValue e.2 ∧ (e.1 ∈ entries.map (·.1) ∨ e.1 ∈ rs.map (·.1)) := by
  induction rs generalizing entries with
  | nil => exact fun e he => ⟨h e he, .inl (List.mem_map_of_mem he)⟩
  | cons r rs ih =>
    have hstep : ∀ e ∈ addReading o entries r,
        IsValue e.2 ∧ (e.1 ∈ entries.map (·.1) ∨ e.1 = r.1) := by
      intro e he
      rw [addReading] at he
      split at he
      next =>
        rcases mem_set he with rfl | he
        · exact ⟨.inr (combine_isContainer _ _ _), .inr rfl⟩
        · exact ⟨h e he, .inl (List.mem_map_of_mem he)⟩
      next =>
        rcases mem_set he with rfl | he
        · exact ⟨.inl ⟨r.2, rfl⟩, .inr rfl⟩
        · exact ⟨h e he, .inl (List.mem_map_of_mem he)⟩
    intro e he
    obtain ⟨hvalue, hkey⟩ := ih (fun e he => (hstep e he).1) e he
    refine ⟨hvalue, ?_⟩
    rw [List.map_cons, List.mem_cons]
    rcases hkey with hkey | hkey
    · obtain ⟨f, hf, hfe⟩ := List.mem_map.1 hkey
      rw [← hfe]
      exact (hstep f hf).2.imp id .inl
    · exact .inr (.inr hkey)

theorem mem_keys_foldl {rs : List (Text × Text)} {entries : Entries}
    (h : key ∈ entries.map (·.1) ∨ key ∈ rs.map (·.1)) :
    key ∈ (rs.foldl (addReading o) entries).map (·.1) := by
  induction rs generalizing entries with
  | nil => exact h.resolve_right (by simp)
  | cons r rs ih =>
    refine ih ?_
    rw [List.map_cons, List.mem_cons, or_left_comm] at h
    rcases h with rfl | h | h
    · left
      rw [addReading]
      split <;> exact mem_keys_set_self _ _ _
    · left
      rw [addReading]
      split <;> exact mem_keys_set h
    · exact .inr h

theorem isValue_collected (rs : List (Text × Text)) :
    ∀ e ∈ rs.foldl (addReading o) [], IsValue e.2 := fun e he =>
  (foldl_addReading_spec (by simp) e he).1

theorem mem_keys_collected (rs : List (Text × Text)) (key : Text) :
    (∃ e ∈ rs.foldl (addReading o) [], e.1 = key) ↔ ∃ r ∈ rs, r.1 = key := by
  constructor
  · rintro ⟨e, he, rfl⟩
    exact List.mem_map.1 ((foldl_addReading_spec (by simp) e he).2.resolve_left (by simp))
  · rintro ⟨r, hr, rfl⟩
    exact List.mem_map.1 (mem_keys_foldl (.inr (List.mem_map_of_mem hr)))

/-! ## The two readings -/

theorem count_replaceEscape {needle by_ : Char} (hby : by_ ≠ '&') (hneedle : needle ≠ '&')
    (text : Text) : (replaceEscape needle by_ text).count '&' = text.count '&' := by
  fun_induction replaceEscape needle by_ text with
  | case1 => rfl
  | case2 x rest hx ih =>
    have hamp : x ≠ '&' := by
      rintro rfl
      exact hneedle (hx.symm.trans (by decide))
    rw [List.count_cons_of_ne hby, ih]
    simp [hamp]
  | case3 x rest hx ih => rw [List.count_cons, ih, List.count_cons (l := '5' :: x :: rest)]
  | case4 c rest hc ih => rw [List.count_cons, ih, List.count_cons (l := rest)]

theorem length_splitOn (c : Char) (text : Text) : (text.splitOn c).length = text.count c + 1 := by
  induction text with
  | nil => rfl
  | cons d text ih =>
    rw [List.splitOn_cons_eq_if_modifyHead, List.count_cons]
    split
    · rw [List.length_cons, ih]
    · rw [List.length_modifyHead, ih, Nat.add_zero]

theorem length_bracketed (text : Text) :
    ((bracketed text).splitOn '&').length = (text.splitOn '&').length := by
  rw [length_splitOn, length_splitOn, bracketed, count_replaceEscape (by decide) (by decide),
    count_replaceEscape (by decide) (by decide)]

theorem scan_eq (parts : List Text) (scan : Scan) :
    parts.foldl scanPart scan = {
      plain := scan.plain ++ ((parts.map (readPart false)).filter
        fun r => r.1 = secretCookie).map (·.2)
      nested := scan.nested || (parts.map (readPart false)).any fun r => opensToken r.1 } := by
  induction parts generalizing scan with
  | nil => simp
  | cons part parts ih =>
    rw [List.foldl_cons, ih, List.map_cons]
    have hcookie : opensToken secretCookie = false := by decide
    rw [scanPart]
    dsimp only
    by_cases hkey : (readPart false part).1 = secretCookie
    · simp [hkey, hcookie]
    · cases hopens : opensToken (readPart false part).1 <;> simp [hkey, hopens]

theorem formBodyToken_eq {text : Text} (hcount : (text.splitOn '&').length ≤ parameterLimit) :
    formBodyToken text = bodyToken (scanReads (scanned text)) := by
  rw [formBodyToken]
  split
  next h =>
    rw [h]
    decide +kernel
  next =>
    rw [if_neg (by omega), scan_eq, scanReads, scanned]
    dsimp only
    rw [List.nil_append, Bool.false_or]
    generalize hplain : ((text.splitOn '&').map (readPart false)).filter
      (fun r => decide (r.1 = secretCookie)) = plain
    generalize ((text.splitOn '&').map (readPart false)).any (fun r => opensToken r.1) = nested
    match plain, nested with
    | [], false => rfl
    | [], true => rfl
    | [r], false =>
      obtain ⟨key, value⟩ := r
      cases value <;> rfl
    | [r], true => rfl
    | _ :: _ :: _, false => rfl
    | _ :: _ :: _, true => rfl

/-! ## The value by the parts -/

theorem nextGroup_of_indexKey {n : Nat} (h : indexKey key = some n) :
    nextGroup key = none ∧ key ≠ secretCookie := by
  have hdigits : areDigits key = true := by
    rw [indexKey] at h
    split at h
    next => cases h
    next hkey =>
      by_contra hdigits
      exact hkey (.inr (.inr hdigits))
  have hplain : ∀ c ∈ key, c.isDigit = true := List.all_eq_true.1 hdigits
  constructor
  · by_contra hnext
    obtain ⟨⟨before, content, after⟩, hnext⟩ := Option.ne_none_iff_exists'.1 hnext
    have hmem : '[' ∈ key := by
      rw [(nextGroup_eq_some hnext).1]
      exact List.mem_append_right _ List.mem_cons_self
    exact absurd (hplain '[' hmem) (by decide)
  · intro hcookie
    have hmem : '_' ∈ key := hcookie ▸ List.mem_cons_self
    exact absurd (hplain '_' hmem) (by decide)

theorem filterMap_ite {α β : Type} (p : α → Bool) (f : α → β) (l : List α) :
    l.filterMap (fun a => if p a then some (f a) else none) = (l.filter p).map f := by
  induction l with
  | nil => rfl
  | cons a l ih => cases hp : p a <;> simp [hp, ih]

theorem filterMap_inKeyOrder {α : Type} {f : Text × Q → Option α} (entries : Entries)
    (h : ∀ e n, indexKey e.1 = some n → f e = none) :
    (inKeyOrder entries).filterMap f = entries.filterMap f := by
  have hints : ∀ e ∈ ((entries.filterMap fun e => (indexKey e.1).map fun n => (n, e)).insertionSort
      fun a b => a.1 ≤ b.1).map (·.2), f e = none := by
    intro e he
    obtain ⟨a, ha, rfl⟩ := List.mem_map.1 he
    obtain ⟨e, -, ha⟩ := List.mem_filterMap.1 ((List.mem_insertionSort _).1 ha)
    obtain ⟨n, hn, rfl⟩ := Option.map_eq_some_iff.1 ha
    exact h e n hn
  rw [inKeyOrder, List.filterMap_append, List.filterMap_eq_nil_iff.2 hints, List.nil_append,
    List.filterMap_filter]
  refine List.filterMap_congr fun e _ => ?_
  cases hkey : indexKey e.1 with
  | none => simp
  | some n => simp [h e n hkey]

theorem isRead_compact {v : Option Q} {token : Option Token} (h : IsRead v token) :
    IsRead (v.map compact) token := by
  cases token with
  | none =>
    rw [show v = none from h]
    rfl
  | some token =>
    cases token with
    | text t =>
      rw [show v = some (.str t) from h]
      rfl
    | notText =>
      obtain ⟨q, rfl, hq⟩ := h
      refine ⟨compact q, rfl, ?_⟩
      cases q with
      | str s => cases hq
      | yes => cases hq
      | arr items => rfl
      | obj entries overflow => rfl

theorem get_compact (entries : Entries) (key : Text) :
    get (compactEntries entries) key = (get entries key).map compact := by
  rw [compactEntries_eq, Qs.get, Qs.get, List.find?_map, Option.map_map, Option.map_map]
  rfl

theorem oneText_iff {rs : List (Text × Text)} :
    oneText rs = true ↔ (rs.map (·.1)).Nodup ∧ ∀ r ∈ rs.tail, r.2 = [] := decide_eq_true_iff

/-- Values put under `_csrf` itself. -/
theorem isRead_itself (rs : List (Text × Text)) :
    IsRead (mergeAll o none ((rs.foldl (addReading o) []).map (·.2)))
      (if oneText rs then rs.head?.map fun r => .text r.2 else some .notText) := by
  have hvalue : ∀ c ∈ (rs.foldl (addReading o) []).map (·.2), IsValue c := by
    intro c hc
    obtain ⟨e, he, rfl⟩ := List.mem_map.1 hc
    exact isValue_collected rs e he
  by_cases hkeys : (rs.map (·.1)).Nodup
  · have hcollected := foldl_addReading_of_nodup (o := o) [] hkeys (by simp)
    rw [List.nil_append] at hcollected
    rw [hcollected] at hvalue ⊢
    rw [List.map_map] at hvalue ⊢
    cases rs with
    | nil =>
      rw [if_pos (oneText_iff.2 ⟨hkeys, by simp⟩)]
      rfl
    | cons first rest =>
      rw [List.map_cons] at hvalue ⊢
      by_cases hrest : ∀ r ∈ rest, r.2 = []
      · rw [if_pos (oneText_iff.2 ⟨hkeys, hrest⟩)]
        refine mergeAll_empty (.str first.2) fun c hc => ?_
        obtain ⟨r, hr, rfl⟩ := List.mem_map.1 hc
        exact congrArg Q.str (hrest r hr)
      · have htail : ¬ ∀ r ∈ (first :: rest).tail, r.2 = [] := hrest
        rw [if_neg fun h => htail (oneText_iff.1 h).2]
        simp only [not_forall] at hrest
        obtain ⟨r, hr, hr2⟩ := hrest
        exact mergeAll_of_text hr2 (List.mem_map.2 ⟨r, hr, rfl⟩) hvalue
  · rw [if_neg fun h => hkeys (oneText_iff.1 h).1]
    obtain ⟨e, he, hcontainer⟩ := exists_container_foldl (o := o) []
      (.inr (.inl hkeys))
    exact mergeAll_of_container (List.mem_map_of_mem he) hcontainer

/-- What the readings put under `_csrf` comes to what they read as. -/
theorem isRead_mergeAll (rs : List (Text × Text)) (hallow : o.allowPrototypes = true)
    (hstrict : o.strictDepth = true) (hdepth : o.depth = 32)
    (hdeep : (rs.any fun r => tooDeep 32 r.1) = false) :
    IsRead (mergeAll o none ((rs.foldl (addReading o) []).filterMap (contribution o)))
      (reads rs) := by
  have hplace : ∀ e ∈ rs.foldl (addReading o) [],
      (place e.1 = none → contribution o e = none)
      ∧ (place e.1 = some .itself → contribution o e = some e.2)
      ∧ (place e.1 = some .inside →
        ∃ c, contribution o e = some c ∧ c.isContainer = true) := by
    intro e he
    obtain ⟨r, hr, hkey⟩ := (mem_keys_collected rs e.1).1 ⟨e, he, rfl⟩
    refine contribution_eq hallow hstrict (by omega) e.1 e.2 ?_
    rw [hdepth, ← hkey]
    exact Bool.eq_false_of_not_eq_true (List.any_eq_false.1 hdeep r hr)
  rw [reads, hdeep, if_neg Bool.false_ne_true]
  by_cases hinside : placed .inside rs = []
  · rw [if_neg (not_not.2 hinside)]
    have hcontributions : (rs.foldl (addReading o) []).filterMap (contribution o)
        = ((placed .itself rs).foldl (addReading o) []).map (·.2) := by
      have hfilter := foldl_addReading_filter (o := o)
        (fun key => decide (place key = some .itself)) rs []
      rw [placed, ← List.filter_nil, ← hfilter, ← filterMap_ite]
      refine List.filterMap_congr fun e he => ?_
      cases hp : place e.1 with
      | none => simp [(hplace e he).1 hp]
      | some p =>
        cases p with
        | itself => simp [(hplace e he).2.1 hp]
        | inside =>
          obtain ⟨r, hr, hkey⟩ := (mem_keys_collected rs e.1).1 ⟨e, he, rfl⟩
          have hmem : r ∈ placed .inside rs :=
            List.mem_filter.2 ⟨hr, by rw [hkey, hp]; rfl⟩
          rw [hinside] at hmem
          cases hmem
    rw [hcontributions]
    exact isRead_itself (placed .itself rs)
  · rw [if_pos hinside]
    obtain ⟨r, hr⟩ := List.exists_mem_of_ne_nil _ hinside
    obtain ⟨hmem, hp⟩ := List.mem_filter.1 hr
    obtain ⟨e, he, hkey⟩ := (mem_keys_collected (o := o) rs r.1).2 ⟨r, hmem, rfl⟩
    obtain ⟨c, hc, hcontainer⟩ := (hplace e he).2.2 (by rw [hkey]; exact of_decide_eq_true hp)
    exact mergeAll_of_container (List.mem_filterMap.2 ⟨e, he, hc⟩) hcontainer

theorem isRead_formValue {text : Text} (hcount : (text.splitOn '&').length ≤ parameterLimit) :
    IsRead (formValue text) (reads (readings text)) := by
  by_cases htext : text = []
  · rw [htext]
    have hreads : reads (readings []) = none := by decide +kernel
    rw [hreads]
    rfl
  · generalize ho : bodyOptions (text.splitOn '&').length = o
    have hallow : o.allowPrototypes = true := by rw [← ho]; rfl
    have hstrict : o.strictDepth = true := by rw [← ho]; rfl
    have hdepth : o.depth = 32 := by rw [← ho]; rfl
    have hvalues : parseValues text o = (readings text).foldl (addReading o) [] := by
      refine parseValues_eq text (by rw [← ho]; rfl) ?_
      rw [length_bracketed, ← ho]
      exact hcount
    have hindexed : ∀ e ∈ inKeyOrder (parseValues text o), Indexed e.2 := by
      intro e he entries max hobj
      have hleaf := parseValues_isLeaf (p := fun key => ∃ n, key = indexText n)
        (fun n => ⟨n, rfl⟩) e (mem_inKeyOrder.1 he)
      rw [IsLeaf, hobj] at hleaf
      exact fun f hf => (hleaf.1 f hf).1
    have hkeys : ∀ k, (∃ e ∈ inKeyOrder (parseValues text o), e.1 = k) ↔
        ∃ r ∈ readings text, r.1 = k := by
      intro k
      simp only [mem_inKeyOrder, hvalues]
      exact mem_keys_collected (readings text) k
    rw [formValue, ho, parse, if_neg htext]
    rcases foldlM_get hallow hstrict (by omega) [] hindexed with
      ⟨⟨e, he, hdeep⟩, herror⟩ | ⟨hdeep, acc, hacc, hget⟩
    · obtain ⟨r, hr, hkey⟩ := (hkeys e.1).1 ⟨e, he, rfl⟩
      have hany : ((readings text).any fun r => tooDeep 32 r.1) = true :=
        List.any_eq_true.2 ⟨r, hr, by rw [hkey, ← hdepth]; exact hdeep⟩
      rw [herror, reads, if_pos hany]
      rfl
    · have hany : ((readings text).any fun r => tooDeep 32 r.1) = false := by
        rw [List.any_eq_false]
        intro r hr
        obtain ⟨e, he, hkey⟩ := (hkeys r.1).2 ⟨r, hr, rfl⟩
        rw [← hkey, ← hdepth, hdeep e he]
        exact Bool.false_ne_true
      have hmerged := isRead_mergeAll (readings text) hallow hstrict hdepth hany
      have hnone : ∀ (e : Text × Q) n, indexKey e.1 = some n → contribution o e = none := by
        intro e n hn
        obtain ⟨hnext, hcookie⟩ := nextGroup_of_indexKey hn
        refine (contribution_eq hallow hstrict (by omega) e.1 e.2 ?_).1 ?_
        · exact tooDeep_of_nextGroup hnext _
        · rw [place, hnext]
          exact if_neg hcookie
      rw [hacc]
      rw [filterMap_inKeyOrder _ hnone, hvalues] at hget
      show IsRead (get (compactEntries acc) secretCookie) _
      rw [get_compact, hget]
      exact isRead_compact hmerged

end CsrfForm

end Foreseerr

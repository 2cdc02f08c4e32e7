import Foreseerr.SchemaMeaning
import Mathlib.Data.List.Perm.Subperm
import Mathlib.Order.Filter.AtTopBot.Basic
import Mathlib.Order.Filter.Finite
import Mathlib.Tactic.NormNum

/-!
# Ajv's walk decides what a schema means

With no coercion and no default the walk leaves the value as it is and, unless something was
not reproduced exactly, answers by the meaning of the schema; the errors it adds are none
exactly where the value is valid (`validate_means`).

A step of the walk decides a statement when it ends, leaves the value alone, and unless
unsure holds exactly where the statement does, its errors none or some (`Decides`). Steps
that follow each other decide the conjunction, whatever comes after a failure
(`Decides.next`); the composites, which drop errors down to where they began, are read by
what the error list was before them. The nested calls are those the meaning is unfolded
along, so that enough of them suffice.

Lengths are compared as 32-bit numbers, the longest standing for all that are longer. A
text beyond it can pass a limit it exceeds (`long_text_passes`).
-/

namespace Foreseerr

namespace OpenApi

open Json Relation

/-! ## Equality as it is computed -/

/-- No object in a document has a key twice. -/
def Distinct (json : Json) : Prop :=
  ∀ fields, Json.obj fields ∈ parts json → (fields.map Prod.fst).Nodup

theorem Distinct.inner {json inner : Json} (h : Distinct json) (hinner : inner ∈ innerValues json) :
    Distinct inner :=
  fun fields hfields => h fields (mem_parts_of_inner hinner hfields)

theorem Distinct.part {json part : Json} (h : Distinct json) (hpart : part ∈ parts json) :
    Distinct part :=
  fun fields hfields => h fields (parts_trans hpart hfields)

theorem hasKey_iff {key : String} {fields : Fields} :
    hasKey key fields = true ↔ key ∈ fields.map Prod.fst := by
  induction fields with
  | nil => exact ⟨nofun, fun h => absurd h List.not_mem_nil⟩
  | cons field fields ih =>
    rw [hasKey, getField_cons, List.map_cons, List.mem_cons]
    split
    · next hkey => exact ⟨fun _ => .inl hkey.symm, fun _ => rfl⟩
    · next hkey => exact ih.trans ⟨.inr, fun h => h.resolve_left (Ne.symm hkey)⟩

theorem getField_of_mem {fields : Fields} (hnodup : (fields.map Prod.fst).Nodup)
    {field : String × Json} (h : field ∈ fields) : getField field.1 fields = some field.2 := by
  induction fields with
  | nil => exact absurd h List.not_mem_nil
  | cons first fields ih =>
    rw [List.map_cons, List.nodup_cons] at hnodup
    rw [getField_cons]
    obtain rfl | h := List.mem_cons.mp h
    · exact if_pos rfl
    · rw [if_neg fun hkey : first.1 = field.1 => hnodup.1 (hkey ▸ List.mem_map_of_mem h)]
      exact ih hnodup.2 h

theorem jsEqualItems_iff {as bs : List Json} :
    jsEqualItems as bs = true ↔ as.length = bs.length
      ∧ ∀ (i : ℕ) x y, as[i]? = some x → bs[i]? = some y → jsEqual x y = true := by
  induction as generalizing bs with
  | nil =>
    cases bs with
    | nil => exact ⟨fun _ => ⟨rfl, nofun⟩, fun _ => rfl⟩
    | cons b bs => exact ⟨nofun, nofun⟩
  | cons a as ih =>
    cases bs with
    | nil => exact ⟨nofun, nofun⟩
    | cons b bs =>
      rw [jsEqualItems, Bool.and_eq_true, ih, List.length_cons, List.length_cons, Nat.succ_inj]
      constructor
      · rintro ⟨hhead, hlength, htail⟩
        refine ⟨hlength, fun i x y hx hy => ?_⟩
        cases i with
        | zero =>
          cases hx
          cases hy
          exact hhead
        | succ i => exact htail i x y hx hy
      · rintro ⟨hlength, h⟩
        exact ⟨h 0 a b rfl rfl, hlength, fun i x y => h (i + 1) x y⟩

theorem jsEqualFields_iff {fields others : Fields} :
    jsEqualFields fields others = true ↔ ∀ field ∈ fields,
      ∃ y, getField field.1 others = some y ∧ jsEqual field.2 y = true := by
  induction fields with
  | nil => exact ⟨fun _ => List.forall_mem_nil _, fun _ => rfl⟩
  | cons field fields ih =>
    obtain ⟨key, value⟩ := field
    rw [jsEqualFields, Bool.and_eq_true, ih, List.forall_mem_cons]
    refine and_congr_left fun _ => ?_
    cases getField key others with
    | none => exact ⟨nofun, nofun⟩
    | some y => exact ⟨fun h => ⟨y, rfl, h⟩, fun ⟨z, hz, h⟩ => Option.some.inj hz ▸ h⟩

/-- **What is computed is equality as JSON.** -/
theorem jsEqual_iff {a b : Json} (ha : Distinct a) (hb : Distinct b) :
    jsEqual a b = true ↔ Equal a b := by
  induction hsize : sizeOf a using Nat.strong_induction_on generalizing a b with
  | _ size ih =>
    have hinner : ∀ {x y : Json}, x ∈ innerValues a → y ∈ innerValues b →
        (jsEqual x y = true ↔ Equal x y) := fun hx hy =>
      ih _ (hsize ▸ sizeOf_inner hx) (ha.inner hx) (hb.inner hy) rfl
    cases a with
    | null => cases b <;> first | exact ⟨fun _ => .null, fun _ => rfl⟩ | exact ⟨nofun, nofun⟩
    | bool x =>
      cases b with
      | bool y =>
        refine ⟨fun h => beq_iff_eq.mp h ▸ .bool x, fun h => ?_⟩
        cases h
        exact beq_self_eq_true x
      | _ => exact ⟨nofun, nofun⟩
    | num x =>
      cases b with
      | num y =>
        refine ⟨fun h => beq_iff_eq.mp h ▸ .num x, fun h => ?_⟩
        cases h
        exact beq_self_eq_true x
      | _ => exact ⟨nofun, nofun⟩
    | str x =>
      cases b with
      | str y =>
        refine ⟨fun h => beq_iff_eq.mp h ▸ .str x, fun h => ?_⟩
        cases h
        exact beq_self_eq_true x
      | _ => exact ⟨nofun, nofun⟩
    | arr as =>
      cases b with
      | arr bs =>
        rw [jsEqual, jsEqualItems_iff]
        constructor
        · rintro ⟨hlength, hitems⟩
          exact .arr hlength fun i x y hx hy =>
            (hinner (List.mem_of_getElem? hx) (List.mem_of_getElem? hy)).mp (hitems i x y hx hy)
        · intro h
          cases h with
          | arr hlength hitems =>
            exact ⟨hlength, fun i x y hx hy =>
              (hinner (List.mem_of_getElem? hx) (List.mem_of_getElem? hy)).mpr (hitems i x y hx hy)⟩
      | _ => exact ⟨nofun, nofun⟩
    | obj f =>
      cases b with
      | obj g =>
        have hf := ha f (mem_parts_self _)
        have hg := hb g (mem_parts_self _)
        rw [jsEqual, Bool.and_eq_true, beq_iff_eq, jsEqualFields_iff]
        constructor
        · rintro ⟨hlength, hfields⟩
          have hsub : f.map Prod.fst ⊆ g.map Prod.fst := by
            intro key hkey
            obtain ⟨field, hmem, rfl⟩ := List.mem_map.mp hkey
            obtain ⟨y, hy, _⟩ := hfields field hmem
            exact hasKey_iff.mp (by rw [hasKey, hy]; rfl)
          have hperm : (f.map Prod.fst).Perm (g.map Prod.fst) :=
            (hf.subperm hsub).perm_of_length_le (by simp [hlength])
          refine .obj (fun key => Bool.eq_iff_iff.mpr ?_) fun key x y hx hy => ?_
          · rw [hasKey_iff, hasKey_iff, hperm.mem_iff]
          · obtain ⟨z, hz, hequal⟩ := hfields (key, x) (mem_of_getField hx)
            cases hz.symm.trans hy
            exact (hinner (inner_of_getField hx) (inner_of_getField hy)).mp hequal
        · intro h
          cases h with
          | obj hkeys hequal =>
            have hperm : (f.map Prod.fst).Perm (g.map Prod.fst) := by
              refine (List.perm_ext_iff_of_nodup hf hg).mpr fun key => ?_
              rw [← hasKey_iff, ← hasKey_iff, hkeys]
            refine ⟨by simpa using hperm.length_eq, fun field hmem => ?_⟩
            have hx := getField_of_mem hf hmem
            have hkey : hasKey field.1 g = true := by
              rw [← hkeys, hasKey, hx]
              rfl
            obtain ⟨y, hy⟩ := Option.isSome_iff_exists.mp hkey
            exact ⟨y, hy, (hinner (inner_of_getField hx) (inner_of_getField hy)).mpr
              (hequal field.1 _ y hx hy)⟩
      | _ => exact ⟨nofun, nofun⟩

/-! ## What a check decides -/

/-- A step that is sure of `P`: it leaves the errors as they were where `P` holds, and adds to
them where it does not. -/
structure Verdict (before : State) (P : Prop) (ok : Bool) (after : State) : Prop where
  sure : before.unsure = none
  holds : ok = true → P ∧ after.errors = before.errors
  fails : ok = false → ¬P ∧ ∃ added, added ≠ [] ∧ after.errors = before.errors ++ added

/-- **A check decides `P`**: it ends with the value as it was and, unless unsure, is sure of
`P`. -/
def Decides (check : Check) (data : Json) (P : Prop) : Prop :=
  ∀ st, ∃ ok after, check data st = some ⟨ok, data, after⟩
    ∧ (after.unsure = none → Verdict st P ok after)

section Decides

variable {P Q : Prop} {before mid after : State} {data : Json} {check first rest : Check}

theorem Verdict.congr {ok : Bool} (h : Verdict before P ok after) (hPQ : P ↔ Q) :
    Verdict before Q ok after :=
  ⟨h.sure, fun hok => (h.holds hok).imp_left hPQ.mp,
    fun hok => (h.fails hok).imp_left fun hP hQ => hP (hPQ.mpr hQ)⟩

/-- The verdict on what follows a check that holds. -/
theorem Verdict.next {ok : Bool} (h : Verdict before P true mid) (hnext : Verdict mid Q ok after) :
    Verdict before (P ∧ Q) ok after := by
  obtain ⟨hP, herrors⟩ := h.holds rfl
  refine ⟨h.sure, fun hok => ?_, fun hok => ?_⟩
  · obtain ⟨hQ, hsame⟩ := hnext.holds hok
    exact ⟨⟨hP, hQ⟩, hsame.trans herrors⟩
  · obtain ⟨hQ, added, hadded, hmore⟩ := hnext.fails hok
    exact ⟨fun hPQ => hQ hPQ.2, added, hadded, herrors ▸ hmore⟩

/-- A check that fails decides what follows as well. -/
theorem Verdict.stop (h : Verdict before P false after) : Verdict before (P ∧ Q) false after :=
  ⟨h.sure, nofun, fun _ => (h.fails rfl).imp_left fun hP hPQ => hP hPQ.1⟩

theorem setUnsure_ne_none (why : String) (st : State) : (st.setUnsure why).unsure ≠ none := by
  rw [State.setUnsure]
  cases st.unsure <;> nofun

namespace Decides

/-- What a check decides of a value is said of what it does with it. -/
theorem iff_const : Decides check data P ↔ Decides (fun _ => check data) data P :=
  Iff.rfl

theorem congr (h : Decides check data P) (hPQ : P ↔ Q) : Decides check data Q := by
  intro st
  obtain ⟨ok, after, hcheck, hverdict⟩ := h st
  exact ⟨ok, after, hcheck, fun hsure => (hverdict hsure).congr hPQ⟩

theorem pass (h : P) : Decides OpenApi.pass data P :=
  fun st => ⟨true, st, rfl, fun hsure => ⟨hsure, fun _ => ⟨h, rfl⟩, nofun⟩⟩

theorem refuse {error : AjvError} (h : ¬P) : Decides (OpenApi.refuse error) data P :=
  fun st => ⟨false, st.push error, rfl, fun hsure =>
    ⟨hsure, nofun, fun _ => ⟨h, [error], List.cons_ne_nil _ _, rfl⟩⟩⟩

/-- Once unsure, a walk stays unsure and says nothing. -/
theorem doubt {why : String} (h : Decides check data Q) :
    Decides (OpenApi.doubt why check) data P := by
  intro st
  obtain ⟨ok, after, hcheck, hverdict⟩ := h (st.setUnsure why)
  exact ⟨ok, after, hcheck, fun hsure => absurd (hverdict hsure).sure (setUnsure_ne_none why st)⟩

theorem doubtIf {p : Bool} {why : String} (h : Decides check data P) :
    Decides (OpenApi.doubtIf p why check) data P := by
  rw [OpenApi.doubtIf]
  split
  · exact h.doubt
  · exact h

/-- **One step and the next.** -/
theorem next (hfirst : Decides first data P) (hrest : Decides rest data Q) :
    Decides (first.next rest) data (P ∧ Q) := by
  intro st
  obtain ⟨ok, mid, hcheck, hverdict⟩ := hfirst st
  rw [Check.next, hcheck]
  cases ok with
  | true =>
    obtain ⟨ok, after, hcheck', hverdict'⟩ := hrest mid
    refine ⟨ok, after, hcheck', fun hsure => ?_⟩
    have hnext := hverdict' hsure
    exact (hverdict hnext.sure).next hnext
  | false =>
    exact ⟨false, mid, rfl, fun hsure => (hverdict hsure).stop⟩

end Decides

end Decides

/-! ## Limits -/

variable {ajv : Ajv} {fields : Fields} {path : String} {composite : Bool} {value : Json}

/-- The check of a keyword decides what is said of it. -/
theorem decides_onKey {key : String} {check : Json → Check} {P : Json → Prop}
    (h : ∀ keyword, getField key fields = some keyword → Decides (check keyword) value (P keyword)) :
    Decides (onKey key fields check) value
      (∀ keyword, getField key fields = some keyword → P keyword) := by
  rw [onKey]
  cases hkeyword : getField key fields with
  | none => exact Decides.pass (by rintro _ ⟨⟩)
  | some keyword =>
    refine (h keyword hkeyword).congr ⟨fun hP other hother => ?_, fun hP => hP keyword rfl⟩
    exact Option.some.inj hother ▸ hP

theorem decides_unless (fails : Bool) (error : AjvError) :
    Decides (if fails then refuse error else pass) value (fails = false) := by
  cases fails with
  | true => exact Decides.refuse nofun
  | false => exact Decides.pass rfl

theorem forall_some {α : Type} {a : α} {P : α → Prop} :
    (∀ other, some a = some other → P other) ↔ P a :=
  ⟨fun h => h a rfl, fun h _ hother => Option.some.inj hother ▸ h⟩

/-- What is said of the items of a keyword, where it is a list of them. -/
theorem forall_items {keyword : Option Json} {P : List Json → Prop} (hnil : P []) :
    P ((keyword.bind Json.asArray).getD []) ↔ ∀ items, keyword = some (.arr items) → P items := by
  constructor
  · rintro h items rfl
    exact h
  · intro h
    cases keyword with
    | none => exact hnil
    | some keyword =>
      cases keyword with
      | arr items => exact h items rfl
      | null | bool _ | num _ | str _ | obj _ => exact hnil

theorem forall_num {limit : ℚ} {P : ℚ → Prop} :
    (∀ other, some (Json.num limit) = some (.num other) → P other) ↔ P limit :=
  ⟨fun h => h limit rfl, fun h other hother => by cases hother; exact h⟩

theorem decides_numberLimit (keyword op : String) (fails : ℚ → ℚ → Bool) (n : ℚ) :
    Decides (ajv.numberLimit keyword op fails fields path (some n)) value
      (∀ limit, getField keyword fields = some (.num limit) → fails n limit = false) := by
  rw [Ajv.numberLimit]
  cases getField keyword fields with
  | none => exact Decides.pass nofun
  | some limit =>
    cases limit with
    | num limit =>
      exact (decides_unless _ _).congr (forall_num (P := fun limit => fails n limit = false)).symm
    | null | bool _ | str _ | arr _ | obj _ => exact Decides.doubt (Decides.pass trivial)

/-- A length that a 32-bit number holds is compared as it is. -/
theorem lengthNumber_eq {length : ℕ} (h : length < 2 ^ 32) : lengthNumber length = length := by
  rw [lengthNumber, min_eq_left (by omega)]

theorem decides_textLimit (keyword word : String) (fails : ℚ → ℚ → Bool) {length : ℕ}
    (hlength : length < 2 ^ 32) :
    Decides (ajv.textLimit keyword word fails fields path length) value
      (∀ limit, getField keyword fields = some (.num limit) → fails length limit = false) := by
  rw [Ajv.textLimit, lengthNumber_eq hlength]
  cases getField keyword fields with
  | none => exact Decides.pass nofun
  | some limit =>
    cases limit with
    | num limit =>
      exact (decides_unless _ _).congr
        (forall_num (P := fun limit => fails length limit = false)).symm
    | null | bool _ | str _ | arr _ | obj _ => exact Decides.doubt (Decides.pass trivial)

theorem decides_itemLimit (keyword word : String) (fails : ℚ → ℚ → Bool) {length : ℕ}
    (hlength : length < 2 ^ 32) :
    Decides (ajv.itemLimit keyword word fails fields path length) value
      (∀ limit, getField keyword fields = some (.num limit) → fails length limit = false) := by
  rw [Ajv.itemLimit, lengthNumber_eq hlength]
  cases getField keyword fields with
  | none => exact Decides.pass nofun
  | some limit =>
    cases limit with
    | num limit =>
      exact (decides_unless _ _).congr
        (forall_num (P := fun limit => fails length limit = false)).symm
    | null | bool _ | str _ | arr _ | obj _ => exact Decides.pass nofun

/-! ## The groups -/

/-- The keywords of a group hold. -/
def GroupClause (V : Json → Json → Prop) (fields : Fields) (value : Json) : Group → Prop
  | .number => ∀ n, value = .num n →
    (∀ limit, getField "maximum" fields = some (.num limit) → n ≤ limit)
      ∧ ∀ limit, getField "minimum" fields = some (.num limit) → limit ≤ n
  | .string => ∀ text, value = .str text →
    (∀ limit, getField "maxLength" fields = some (.num limit) → (text.length : ℚ) ≤ limit)
      ∧ ∀ limit, getField "minLength" fields = some (.num limit) → limit ≤ (text.length : ℚ)
  | .array => ∀ elements, value = .arr elements →
    (∀ limit, getField "maxItems" fields = some (.num limit) → (elements.length : ℚ) ≤ limit)
      ∧ (∀ limit, getField "minItems" fields = some (.num limit) → limit ≤ (elements.length : ℚ))
      ∧ ∀ sub, getField "items" fields = some sub → ∀ element ∈ elements, V sub element
  | .object => ∀ map, value = .obj map →
    (∀ names, getField "required" fields = some (.arr names) →
        ∀ name ∈ names, hasKey (name.asStr.getD "") map = true)
      ∧ (∀ sub, getField "additionalProperties" fields = some sub →
        ∀ key part, getField key map = some part →
          hasKey key (Ajv.propertiesOf fields) = false → V sub part)
      ∧ ∀ property ∈ Ajv.propertiesOf fields,
        ∀ part, getField property.1 map = some part → V property.2 part

/-- A schema's keywords that the walk takes as they are meant. -/
structure Plain (fields : Fields) : Prop where
  default : getField "default" fields = none
  pattern : getField "pattern" fields = none
  format : getField "format" fields = none
  proto : ∀ property ∈ Ajv.propertiesOf fields, property.1 ≠ "__proto__"

theorem decides_number {V : Json → Json → Prop} (hplain : Plain fields) (n : ℚ) :
    Decides (ajv.number fields path) (.num n) (GroupClause V fields (.num n) .number) := by
  rw [Decides.iff_const, Ajv.number]
  have hformat : Decides (Ajv.numberFormat fields) (.num n) True := by
    rw [Ajv.numberFormat, hplain.format]
    exact Decides.pass trivial
  refine ((decides_numberLimit "maximum" "<=" _ n).next
    ((decides_numberLimit "minimum" ">=" _ n).next hformat)).congr ?_
  simp only [GroupClause, decide_eq_false_iff_not, not_lt, and_true, Json.num.injEq,
    forall_eq', gt_iff_lt]

theorem decides_string {V : Json → Json → Prop} (hplain : Plain fields) {text : String}
    (htext : text.length < 2 ^ 32) :
    Decides (ajv.string fields path) (.str text) (GroupClause V fields (.str text) .string) := by
  rw [Decides.iff_const, Ajv.string]
  have hpattern : Decides (ajv.textPattern fields path text) (.str text) True := by
    rw [Ajv.textPattern, hplain.pattern]
    exact Decides.pass trivial
  have hformat : Decides (ajv.textFormat fields path text) (.str text) True := by
    rw [Ajv.textFormat, hplain.format]
    exact Decides.pass trivial
  refine ((decides_textLimit "maxLength" "more" _ htext).next
    ((decides_textLimit "minLength" "fewer" _ htext).next (hpattern.next hformat))).congr ?_
  simp only [GroupClause, decide_eq_false_iff_not, not_lt, and_true, Json.str.injEq,
    forall_eq', gt_iff_lt]

/-! ### Schemas that hold of everything -/

theorem getField_of_noRule {key : String} (hkey : isRule key = true)
    (h : fields.any (fun field => isRule field.1) = false) : getField key fields = none := by
  cases hfield : getField key fields with
  | none => rfl
  | some keyword =>
    have hany : fields.any (fun field => isRule field.1) = true :=
      List.any_eq_true.mpr ⟨(key, keyword), mem_of_getField hfield, hkey⟩
    rw [h] at hany
    cases hany

/-- An object schema without a keyword but `$ref` means its reference. -/
theorem objectClause_ref {V : Json → Json → Prop}
    (h : ∀ key, isRule key = true → key ≠ "$ref" → getField key fields = none) :
    ObjectClause ajv V fields value ↔ ∀ reference target, getField "$ref" fields = some reference →
      ajv.target reference = some target → V target value := by
  have hnone : ∀ key keyword, isRule key = true → key ≠ "$ref" →
      getField key fields ≠ some keyword := by
    intro key keyword hkey hne
    rw [h key hkey hne]
    nofun
  have hproperties : Ajv.propertiesOf fields = [] := by
    rw [Ajv.propertiesOf, h "properties" (by decide) (by decide)]
    rfl
  refine ⟨fun hclause => hclause.ref, fun href => ?_⟩
  constructor
  case ref => exact href
  case properties =>
    intro map _ property hproperty
    rw [hproperties] at hproperty
    exact absurd hproperty List.not_mem_nil
  -- Every other keyword is absent.
  all_goals
    intros
    have hkeyword := ‹getField _ fields = some _›
    exact absurd hkeyword (hnone _ _ (by decide) (by decide))

/-- `alwaysValidSchema` is right. -/
theorem clause_of_alwaysValid {V : Json → Json → Prop} {schema : Json}
    (h : alwaysValid schema = true) : Clause ajv V schema value := by
  cases schema with
  | bool b => exact h
  | obj fields =>
    have hnone : fields.any (fun field => isRule field.1) = false := Bool.not_eq_true' _ ▸ h
    refine (objectClause_ref fun key hkey _ => getField_of_noRule hkey hnone).mpr ?_
    intro reference target href
    rw [getField_of_noRule (by decide) hnone] at href
    cases href
  | null | num _ | str _ | arr _ => trivial

/-! ### Arrays and objects -/

/-- The nested calls of a walk are right. -/
structure Below (ajv : Ajv) (validate : Validation) (V : Json → Json → Prop)
    (schema value : Json) : Prop where
  decides : ∀ sub part, Calls ajv (sub, part) (schema, value) → ∀ path composite,
    Decides (validate sub path composite) part (V sub part)
  law : ∀ sub part, Calls ajv (sub, part) (schema, value) →
    (V sub part ↔ Clause ajv V sub part)

theorem Below.of_alwaysValid {validate : Validation} {V : Json → Json → Prop}
    {schema sub part : Json} (h : Below ajv validate V schema value)
    (hcall : Calls ajv (sub, part) (schema, value)) (hvalid : alwaysValid sub = true) :
    V sub part :=
  (h.law sub part hcall).mpr (clause_of_alwaysValid hvalid)

variable {validate : Validation} {V : Json → Json → Prop}

/-- The elements are validated one after another. -/
theorem eachElement_spec (path : String) (composite : Bool) {sub : Json} {elements : List Json}
    (h : ∀ element ∈ elements, ∀ path composite,
      Decides (validate sub path composite) element (V sub element)) (i : ℕ) (st : State) :
    ∃ ok after, Ajv.eachElement validate sub path composite i elements st
        = some (ok, elements, after)
      ∧ (after.unsure = none → Verdict st (∀ element ∈ elements, V sub element) ok after) := by
  induction elements generalizing i st with
  | nil =>
    exact ⟨true, st, rfl, fun hsure => ⟨hsure, fun _ => ⟨List.forall_mem_nil _, rfl⟩, nofun⟩⟩
  | cons element elements ih =>
    rw [List.forall_mem_cons] at h
    obtain ⟨ok, mid, hcheck, hverdict⟩ := h.1 s!"{path}/{i}" composite st
    rw [Ajv.eachElement, hcheck]
    dsimp only [bind, Option.bind]
    cases ok with
    | true =>
      obtain ⟨ok, after, hrest, hverdict'⟩ := ih h.2 (i + 1) mid
      rw [if_pos rfl, hrest]
      refine ⟨ok, after, rfl, fun hsure => ?_⟩
      have hnext := hverdict' hsure
      exact ((hverdict hnext.sure).next hnext).congr List.forall_mem_cons.symm
    | false =>
      rw [if_neg (by decide)]
      refine ⟨false, mid, rfl, fun hsure => ?_⟩
      exact (hverdict hsure).stop.congr List.forall_mem_cons.symm

theorem decides_eachItem {elements : List Json}
    (h : Below ajv validate V (.obj fields) (.arr elements)) :
    Decides (Ajv.eachItem validate fields path composite) (.arr elements)
      (∀ sub, getField "items" fields = some sub → ∀ element ∈ elements, V sub element) := by
  intro st
  rw [Ajv.eachItem]
  cases hitems : getField "items" fields with
  | none => exact Decides.pass (by nofun) st
  | some sub =>
    have hone := forall_some (a := sub) (P := fun sub => ∀ element ∈ elements, V sub element)
    dsimp only
    split
    · exact Decides.doubt (Decides.pass trivial) st
    · split
      · next hvalid =>
        refine (Decides.pass ?_).congr hone.symm st
        exact fun element hmem => h.of_alwaysValid (calls_items hitems hmem) hvalid
      · obtain ⟨ok, after, heach, hverdict⟩ := eachElement_spec path composite
          (fun element hmem => h.decides sub element (calls_items hitems hmem)) 0 st
        rw [heach]
        exact ⟨ok, after, rfl, fun hsure => (hverdict hsure).congr hone.symm⟩

theorem decides_array {elements : List Json} (hlength : elements.length < 2 ^ 32)
    (h : Below ajv validate V (.obj fields) (.arr elements)) :
    Decides (ajv.array validate fields path composite) (.arr elements)
      (GroupClause V fields (.arr elements) .array) := by
  rw [Decides.iff_const, Ajv.array]
  refine ((decides_itemLimit "maxItems" "more" _ hlength).next
    ((decides_itemLimit "minItems" "fewer" _ hlength).next (decides_eachItem h))).congr ?_
  simp only [GroupClause, decide_eq_false_iff_not, not_lt, Json.arr.injEq, forall_eq', gt_iff_lt]

theorem decides_eachRequired (map : Fields) (path : String) (names : List Json) :
    Decides (Ajv.eachRequired map path names) value
      (∀ name ∈ names, hasKey (name.asStr.getD "") map = true) := by
  induction names with
  | nil => exact Decides.pass (List.forall_mem_nil _)
  | cons name names ih =>
    rw [Ajv.eachRequired]
    refine Decides.doubtIf ?_
    by_cases hkey : hasKey (name.asStr.getD "") map = true
    · rw [if_pos hkey]
      refine ih.congr ?_
      rw [List.forall_mem_cons]
      exact (and_iff_right hkey).symm
    · rw [if_neg hkey]
      exact Decides.refuse fun h => hkey (h name List.mem_cons_self)

/-- Writing a field's own value changes nothing. -/
theorem setField_getField {key : String} {map : Fields} {part : Json}
    (h : getField key map = some part) : setField key part map = map := by
  induction map with
  | nil => cases h
  | cons field map ih =>
    rw [getField_cons] at h
    rw [setField]
    split
    · next hkey =>
      rw [beq_iff_eq] at hkey
      rw [if_pos hkey] at h
      cases h
      rw [← hkey]
    · next hkey =>
      rw [beq_iff_eq] at hkey
      rw [if_neg hkey] at h
      rw [ih h]

theorem decides_atKey {sub part : Json} {map : Fields} {key : String}
    (hpart : getField key map = some part)
    (h : ∀ path composite, Decides (validate sub path composite) part (V sub part)) :
    Decides (Ajv.atKey validate sub path key composite part) (.obj map) (V sub part) := by
  intro st
  obtain ⟨ok, after, hcheck, hverdict⟩ := h s!"{path}/{escapePointer key}" composite st
  refine ⟨ok, after, ?_, hverdict⟩
  rw [Ajv.atKey, hcheck]
  dsimp only [bind, Option.bind, Json.asObject, Option.getD]
  rw [setField_getField hpart]
  rfl

theorem decides_eachAdditional {sub : Json} {map : Fields}
    (hsub : getField "additionalProperties" fields = some sub)
    (h : Below ajv validate V (.obj fields) (.obj map)) {keys : List String}
    (hkeys : ∀ key ∈ keys, hasKey key map = true) :
    Decides (Ajv.eachAdditional validate sub (Ajv.propertiesOf fields) path composite keys)
      (.obj map) (∀ key ∈ keys, ∀ part, getField key map = some part →
        hasKey key (Ajv.propertiesOf fields) = false → V sub part) := by
  induction keys with
  | nil => exact Decides.pass (List.forall_mem_nil _)
  | cons key keys ih =>
    rw [List.forall_mem_cons] at hkeys
    obtain ⟨part, hpart⟩ := Option.isSome_iff_exists.mp hkeys.1
    have hone : (∀ other, getField key map = some other →
        hasKey key (Ajv.propertiesOf fields) = false → V sub other)
          ↔ (hasKey key (Ajv.propertiesOf fields) = false → V sub part) := by
      refine ⟨fun h => h part hpart, fun h other hother => ?_⟩
      cases hpart.symm.trans hother
      exact h
    have ih := ih hkeys.2
    rw [Ajv.eachAdditional]
    simp only [List.forall_mem_cons, hone]
    by_cases hknown : hasKey key (Ajv.propertiesOf fields) = true
    · rw [if_pos hknown]
      refine ih.congr (and_iff_right fun hunknown => ?_).symm
      rw [hknown] at hunknown
      cases hunknown
    · rw [if_neg hknown]
      rw [Bool.not_eq_true] at hknown
      simp only [hknown, true_imp_iff]
      split
      · next hfalse =>
        subst hfalse
        refine Decides.refuse fun hall => ?_
        cases (h.law _ _ (calls_additional hsub hpart)).mp hall.1
      · rw [Decides.iff_const]
        dsimp only [Json.get]
        rw [hpart]
        exact (decides_atKey hpart (h.decides sub part (calls_additional hsub hpart))).next ih

theorem decides_eachProperty {map : Fields} {properties : Fields}
    (hproperties : ∀ property ∈ properties, property ∈ Ajv.propertiesOf fields)
    (hproto : ∀ property ∈ properties, property.1 ≠ "__proto__")
    (h : Below ajv validate V (.obj fields) (.obj map)) :
    Decides (Ajv.eachProperty validate path composite properties) (.obj map)
      (∀ property ∈ properties, ∀ part, getField property.1 map = some part →
        V property.2 part) := by
  induction properties with
  | nil => exact Decides.pass (List.forall_mem_nil _)
  | cons property properties ih =>
    obtain ⟨name, sub⟩ := property
    rw [List.forall_mem_cons] at hproperties hproto
    have ih := ih hproperties.2 hproto.2
    rw [Ajv.eachProperty]
    simp only [List.forall_mem_cons]
    split
    · next hskip =>
      have hvalid := hskip.resolve_left hproto.1
      refine ih.congr (and_iff_right fun part hpart => ?_).symm
      exact h.of_alwaysValid (calls_property hproperties.1 hpart) hvalid
    · refine Decides.doubtIf ?_
      rw [Decides.iff_const]
      dsimp only [Json.get]
      cases hpart : getField name map with
      | none => exact ih.congr (and_iff_right nofun).symm
      | some part =>
        simp only [forall_some (P := fun part => V sub part)]
        have hcall := h.decides sub part (calls_property hproperties.1 hpart)
        exact (decides_atKey hpart hcall).next ih

theorem mem_jsKeys {key : String} {map : Fields} : key ∈ jsKeys map ↔ hasKey key map = true := by
  rw [jsKeys, List.mem_append, List.mem_insertionSort, List.mem_filter, List.mem_filter,
    hasKey_iff, ← and_or_left]
  cases isArrayIndex key <;> simp

theorem decides_object {map : Fields} (hplain : Plain fields)
    (h : Below ajv validate V (.obj fields) (.obj map)) :
    Decides (Ajv.object validate fields path composite) (.obj map)
      (GroupClause V fields (.obj map) .object) := by
  rw [Decides.iff_const, Ajv.object]
  have hrequired : Decides (Ajv.eachRequired map path
      (((getField "required" fields).bind Json.asArray).getD [])) (.obj map)
        (∀ names, getField "required" fields = some (.arr names) →
          ∀ name ∈ names, hasKey (name.asStr.getD "") map = true) := by
    exact (decides_eachRequired map path _).congr (forall_items
      (P := fun names => ∀ name ∈ names, hasKey (name.asStr.getD "") map = true)
      (List.forall_mem_nil _))
  have hadditional : Decides (onKey "additionalProperties" fields fun extra =>
      if alwaysValid extra then pass
      else doubtIf (hasKey "patternProperties" fields) "patternProperties aren't ported"
        (Ajv.eachAdditional validate extra (Ajv.propertiesOf fields) path composite (jsKeys map)))
      (.obj map) (∀ sub, getField "additionalProperties" fields = some sub →
        ∀ key part, getField key map = some part →
          hasKey key (Ajv.propertiesOf fields) = false → V sub part) := by
    refine decides_onKey fun sub hsub => ?_
    have hone : (∀ key part, getField key map = some part →
        hasKey key (Ajv.propertiesOf fields) = false → V sub part)
          ↔ ∀ key ∈ jsKeys map, ∀ part, getField key map = some part →
            hasKey key (Ajv.propertiesOf fields) = false → V sub part := by
      constructor
      · exact fun h key _ part => h key part
      · intro h key part hpart
        exact h key (mem_jsKeys.mpr (by rw [hasKey, hpart]; rfl)) part hpart
    rw [hone]
    split
    · next hvalid =>
      refine Decides.pass fun key _ part hpart _ => ?_
      exact h.of_alwaysValid (calls_additional hsub hpart) hvalid
    · exact Decides.doubtIf (decides_eachAdditional hsub h fun key hkey => mem_jsKeys.mp hkey)
  refine (hrequired.next (hadditional.next
    (decides_eachProperty (fun _ hmem => hmem) hplain.proto h))).congr ?_
  simp only [GroupClause, Json.obj.injEq, forall_eq']

/-! ## The composites -/

theorem errors_push {before after : State} {error : AjvError} {added : List AjvError}
    (h : after.errors = before.errors ++ added) :
    ∃ more, more ≠ [] ∧ (after.push error).errors = before.errors ++ more := by
  refine ⟨added ++ [error], List.append_ne_nil_of_right_ne_nil _ (List.cons_ne_nil _ _), ?_⟩
  rw [State.push, h, List.append_assoc]

/-- The branches of `anyOf`, tried until one holds; the errors of those before it are dropped
down to those of `before`. -/
theorem anyBranch_spec (path : String) {branches : List Json} (h : ∀ branch ∈ branches,
      ∀ path composite, Decides (validate branch path composite) value (V branch value))
    {before : State} (st : State)
    (hst : st.unsure = none → before.unsure = none
      ∧ ∃ added, st.errors = before.errors ++ added) :
    ∃ ok after, Ajv.anyBranch validate path before.errors.length branches value st
        = some ⟨ok, value, after⟩
      ∧ (after.unsure = none → st.unsure = none
        ∧ Verdict before (∃ branch ∈ branches, V branch value) ok after) := by
  induction branches generalizing st with
  | nil =>
    refine ⟨false, st.push _, rfl, fun hsure => ⟨hsure, (hst hsure).1, nofun, fun _ => ?_⟩⟩
    obtain ⟨added, hadded⟩ := (hst hsure).2
    exact ⟨fun ⟨branch, hmem, _⟩ => absurd hmem List.not_mem_nil, errors_push hadded⟩
  | cons branch branches ih =>
    rw [List.forall_mem_cons] at h
    obtain ⟨ok, mid, hcheck, hverdict⟩ := h.1 path true st
    rw [Ajv.anyBranch]
    dsimp only
    rw [hcheck]
    dsimp only [bind, Option.bind]
    cases ok with
    | true =>
      rw [if_pos rfl]
      refine ⟨true, mid.truncate _, rfl, fun hsure => ?_⟩
      obtain ⟨hvalid, herrors⟩ := (hverdict hsure).holds rfl
      obtain ⟨hbefore, added, hadded⟩ := hst (hverdict hsure).sure
      refine ⟨(hverdict hsure).sure, hbefore, fun _ => ?_, nofun⟩
      refine ⟨⟨branch, List.mem_cons_self, hvalid⟩, ?_⟩
      rw [State.truncate, herrors, hadded, List.take_left]
    | false =>
      rw [if_neg (by decide)]
      obtain ⟨ok, after, hrest, hverdict'⟩ := ih h.2 mid fun hsure => by
        obtain ⟨_, added', _, hadded'⟩ := (hverdict hsure).fails rfl
        obtain ⟨hbefore, added, hadded⟩ := hst (hverdict hsure).sure
        exact ⟨hbefore, added ++ added', by rw [hadded', hadded, List.append_assoc]⟩
      refine ⟨ok, after, hrest, fun hsure => ?_⟩
      obtain ⟨hmid, hrest⟩ := hverdict' hsure
      have hbranch := ((hverdict hmid).fails rfl).1
      refine ⟨(hverdict hmid).sure, hrest.congr ?_⟩
      simp only [List.mem_cons, exists_eq_or_imp, hbranch, false_or]

theorem decides_anyOf (h : Below ajv validate V (.obj fields) value) {branches : Json}
    (hkeyword : getField "anyOf" fields = some branches) :
    Decides (Ajv.anyOf validate branches path) value
      (∀ list, branches = .arr list → ∃ branch ∈ list, V branch value) := by
  rw [Ajv.anyOf]
  cases branches with
  | arr list =>
    have hone : (∀ other, Json.arr list = .arr other → ∃ branch ∈ other, V branch value)
        ↔ ∃ branch ∈ list, V branch value :=
      ⟨fun h => h list rfl, fun h other hother => by cases hother; exact h⟩
    have hcalls : ∀ branch ∈ list, Calls ajv (branch, value) (.obj fields, value) :=
      fun branch hmem => calls_anyOf (mem_branchesOf hkeyword hmem)
    rw [hone]
    dsimp only [Json.asArray]
    split
    · next hany =>
      obtain ⟨branch, hmem, hvalid⟩ := List.any_eq_true.mp hany
      exact Decides.pass ⟨branch, hmem, h.of_alwaysValid (hcalls branch hmem) hvalid⟩
    · intro st
      obtain ⟨ok, after, hloop, hverdict⟩ := anyBranch_spec path
        (fun branch hmem => h.decides branch value (hcalls branch hmem)) st
        fun hsure => ⟨hsure, [], (List.append_nil _).symm⟩
      exact ⟨ok, after, hloop, fun hsure => (hverdict hsure).2⟩
  | null | bool _ | num _ | str _ | obj _ => exact Decides.doubt (Decides.pass trivial)

theorem oneOnly_cons_of_pos {P : Json → Prop} {branch : Json} {branches : List Json}
    (h : P branch) : OneOnly P (branch :: branches) ↔ ∀ other ∈ branches, ¬P other := by
  constructor
  · rintro ⟨before, first, after, hsplit, hfirst, hothers⟩
    cases before with
    | nil =>
      cases hsplit
      exact hothers
    | cons head before =>
      cases hsplit
      exact absurd h (hothers branch List.mem_cons_self)
  · exact fun hothers => ⟨[], branch, branches, rfl, h, hothers⟩

theorem oneOnly_cons_of_neg {P : Json → Prop} {branch : Json} {branches : List Json}
    (h : ¬P branch) : OneOnly P (branch :: branches) ↔ OneOnly P branches := by
  constructor
  · rintro ⟨before, first, after, hsplit, hfirst, hothers⟩
    cases before with
    | nil =>
      cases hsplit
      exact absurd hfirst h
    | cons head before =>
      cases hsplit
      exact ⟨before, first, after, rfl, hfirst,
        fun other hmem => hothers other (List.mem_cons_of_mem _ hmem)⟩
  · rintro ⟨before, first, after, rfl, hfirst, hothers⟩
    exact ⟨branch :: before, first, after, rfl, hfirst, List.forall_mem_cons.mpr ⟨h, hothers⟩⟩

/-- The branches of `oneOf` are counted up to the second that holds. -/
theorem countBranches_spec (path : String) {branches : List Json} (h : ∀ branch ∈ branches,
      (alwaysValid branch = true → V branch value) ∧ ∀ path composite,
        Decides (validate branch path composite) value (V branch value))
    {passing : ℕ} (hpassing : passing ≤ 1) (st : State) :
    ∃ n after, Ajv.countBranches validate path branches passing value st = some (n, value, after)
      ∧ (after.unsure = none → st.unsure = none ∧ (∃ added, after.errors = st.errors ++ added)
        ∧ (n = 1 ↔ (passing = 0 ∧ OneOnly (V · value) branches)
          ∨ (passing = 1 ∧ ∀ branch ∈ branches, ¬V branch value))) := by
  induction branches generalizing passing st with
  | nil =>
    refine ⟨passing, st, rfl, fun hsure => ⟨hsure, ⟨[], (List.append_nil _).symm⟩, ?_⟩⟩
    have hnone : ¬OneOnly (V · value) ([] : List Json) := by
      rintro ⟨before, first, after, hsplit, _⟩
      exact absurd hsplit.symm (by simp)
    simp [hnone]
  | cons branch branches ih =>
    rw [List.forall_mem_cons] at h
    -- The branch, which is not walked over where it holds of everything.
    have hbranch : ∃ ok mid, (if alwaysValid branch then pass
          else validate branch path true) value st = some ⟨ok, value, mid⟩
        ∧ (mid.unsure = none → Verdict st (V branch value) ok mid) := by
      split
      · next hvalid => exact Decides.pass (h.1.1 hvalid) st
      · exact h.1.2 path true st
    obtain ⟨ok, mid, hcheck, hverdict⟩ := hbranch
    rw [Ajv.countBranches, hcheck]
    dsimp only [bind, Option.bind]
    cases ok with
    | true =>
      rw [if_pos rfl]
      by_cases hsecond : passing + 1 > 1
      · rw [if_pos hsecond]
        refine ⟨passing + 1, mid, rfl, fun hsure => ⟨(hverdict hsure).sure, ⟨[], ?_⟩, ?_⟩⟩
        · rw [List.append_nil]
          exact ((hverdict hsure).holds rfl).2
        · have hvalid := ((hverdict hsure).holds rfl).1
          have hone : passing = 1 := by omega
          simp [hone, hvalid]
      · have hzero : passing = 0 := by omega
        subst hzero
        obtain ⟨n, after, hrest, hcount⟩ := @ih h.2 1 le_rfl mid
        rw [if_neg hsecond, hrest]
        refine ⟨n, after, rfl, fun hsure => ?_⟩
        obtain ⟨hmid, ⟨added, hadded⟩, hn⟩ := hcount hsure
        obtain ⟨hvalid, herrors⟩ := (hverdict hmid).holds rfl
        refine ⟨(hverdict hmid).sure, ⟨added, herrors ▸ hadded⟩, hn.trans ?_⟩
        rw [oneOnly_cons_of_pos (P := (V · value)) hvalid]
        simp
    | false =>
      rw [if_neg (by decide)]
      obtain ⟨n, after, hrest, hcount⟩ := ih h.2 hpassing mid
      refine ⟨n, after, hrest, fun hsure => ?_⟩
      obtain ⟨hmid, ⟨added, hadded⟩, hn⟩ := hcount hsure
      obtain ⟨hinvalid, added', _, herrors⟩ := (hverdict hmid).fails rfl
      refine ⟨(hverdict hmid).sure, ⟨added' ++ added, ?_⟩, hn.trans ?_⟩
      · rw [hadded, herrors, List.append_assoc]
      · rw [oneOnly_cons_of_neg (P := (V · value)) hinvalid, List.forall_mem_cons,
          and_iff_right hinvalid]

theorem decides_oneOf (h : Below ajv validate V (.obj fields) value) {branches : Json}
    (hkeyword : getField "oneOf" fields = some branches) :
    Decides (Ajv.oneOf validate branches path) value
      (∀ list, branches = .arr list → OneOnly (V · value) list) := by
  rw [Ajv.oneOf]
  cases branches with
  | arr list =>
    have hone : (∀ other, Json.arr list = .arr other → OneOnly (V · value) other)
        ↔ OneOnly (V · value) list :=
      ⟨fun h => h list rfl, fun h other hother => by cases hother; exact h⟩
    have hcalls : ∀ branch ∈ list, Calls ajv (branch, value) (.obj fields, value) :=
      fun branch hmem => calls_oneOf (mem_branchesOf hkeyword hmem)
    rw [hone]
    intro st
    obtain ⟨n, after, hloop, hcount⟩ := @countBranches_spec value validate V path list
      (fun branch hmem => ⟨h.of_alwaysValid (hcalls branch hmem),
        h.decides branch value (hcalls branch hmem)⟩) 0 (Nat.zero_le 1) st
    dsimp only [Json.asArray, bind, Option.bind]
    rw [hloop]
    dsimp only
    split
    · next hpassing =>
      refine ⟨true, _, rfl, fun hsure => ?_⟩
      obtain ⟨hst, ⟨added, hadded⟩, hn⟩ := hcount hsure
      refine ⟨hst, fun _ => ⟨by simpa using hn.mp hpassing, ?_⟩, nofun⟩
      rw [State.truncate, hadded, List.take_left]
    · next hpassing =>
      refine ⟨false, _, rfl, fun hsure => ?_⟩
      obtain ⟨hst, ⟨added, hadded⟩, hn⟩ := hcount hsure
      exact ⟨hst, nofun, fun _ =>
        ⟨fun hvalid => hpassing (hn.mpr (.inl ⟨rfl, hvalid⟩)), errors_push hadded⟩⟩
  | null | bool _ | num _ | str _ | obj _ => exact Decides.doubt (Decides.pass trivial)

theorem decides_allBranches {branches : List Json} (h : ∀ branch ∈ branches,
      (alwaysValid branch = true → V branch value) ∧ ∀ path composite,
        Decides (validate branch path composite) value (V branch value)) :
    Decides (Ajv.allBranches validate path composite branches) value
      (∀ branch ∈ branches, V branch value) := by
  induction branches with
  | nil => exact Decides.pass (List.forall_mem_nil _)
  | cons branch branches ih =>
    rw [List.forall_mem_cons] at h
    rw [Ajv.allBranches]
    simp only [List.forall_mem_cons]
    split
    · next hvalid => exact (ih h.2).congr (and_iff_right (h.1.1 hvalid)).symm
    · exact (h.1.2 path composite).next (ih h.2)

/-! ## The keywords of any type -/

/-- The keywords of any type hold. -/
structure UntypedClause (ajv : Ajv) (V : Json → Json → Prop) (fields : Fields) (value : Json) :
    Prop where
  ref : ∀ reference target, getField "$ref" fields = some reference →
    ajv.target reference = some target → V target value
  const : ∀ expected, getField "const" fields = some expected → Equal value expected
  enum : ∀ values, getField "enum" fields = some (.arr values) →
    ∃ allowed ∈ values, Equal value allowed
  anyOf : ∀ branches, getField "anyOf" fields = some (.arr branches) →
    ∃ branch ∈ branches, V branch value
  oneOf : ∀ branches, getField "oneOf" fields = some (.arr branches) →
    OneOnly (V · value) branches
  allOf : ∀ branches, getField "allOf" fields = some (.arr branches) →
    ∀ branch ∈ branches, V branch value
  readOnly : ∀ flag, getField "readOnly" fields = some flag → flag.truthy = false

theorem decides_reference (h : Below ajv validate V (.obj fields) value) {reference : Json}
    (hkeyword : getField "$ref" fields = some reference) :
    Decides (ajv.reference validate reference path composite) value
      (∀ target, ajv.target reference = some target → V target value) := by
  rw [Ajv.reference]
  cases htarget : ajv.target reference with
  | none => exact Decides.doubt (Decides.pass trivial)
  | some target =>
    rw [forall_some (P := fun target => V target value)]
    exact h.decides target value (calls_ref hkeyword htarget) path _

theorem decides_constant (hfields : Distinct (.obj fields)) (hvalue : Distinct value) :
    Decides (Ajv.constant fields path) value
      (∀ expected, getField "const" fields = some expected → Equal value expected) := by
  rw [Decides.iff_const, Ajv.constant]
  cases hkeyword : getField "const" fields with
  | none => exact Decides.pass nofun
  | some expected =>
    rw [forall_some (P := fun expected => Equal value expected),
      ← jsEqual_iff hvalue (hfields.part (part_of_getField hkeyword))]
    dsimp only
    cases jsEqual value expected with
    | true => exact Decides.pass rfl
    | false => exact Decides.refuse nofun

theorem decides_allowed {rest : Check} {Q : Prop} (hfields : Distinct (.obj fields))
    (hvalue : Distinct value) (hrest : Decides rest value Q) :
    Decides (Ajv.allowed fields path rest) value
      ((∀ values, getField "enum" fields = some (.arr values) →
        ∃ allowed ∈ values, Equal value allowed) ∧ Q) := by
  rw [Decides.iff_const, Ajv.allowed]
  cases hkeyword : getField "enum" fields with
  | none => exact hrest.congr (and_iff_right nofun).symm
  | some keyword =>
    cases keyword with
    | arr values =>
      have hone : (∀ other, some (Json.arr values) = some (.arr other) →
          ∃ allowed ∈ other, Equal value allowed) ↔ values.any (jsEqual value) = true := by
        have hequal : ∀ allowed ∈ values, jsEqual value allowed = true ↔ Equal value allowed :=
          fun allowed hmem => jsEqual_iff hvalue (hfields.part (parts_trans
            (part_of_getField hkeyword) (mem_parts_of_inner hmem (mem_parts_self allowed))))
        rw [List.any_eq_true]
        constructor
        · intro h
          obtain ⟨allowed, hmem, hsame⟩ := h values rfl
          exact ⟨allowed, hmem, (hequal allowed hmem).mpr hsame⟩
        · rintro ⟨allowed, hmem, hsame⟩ other hother
          cases hother
          exact ⟨allowed, hmem, (hequal allowed hmem).mp hsame⟩
      rw [hone]
      cases values with
      | nil => exact Decides.doubt (Decides.pass trivial)
      | cons first values =>
        dsimp only [Json.asArray]
        cases (first :: values).any (jsEqual value) with
        | true => exact hrest.congr (and_iff_right rfl).symm
        | false => exact Decides.refuse nofun
    | null | bool _ | num _ | str _ | obj _ => exact Decides.doubt (Decides.pass trivial)

theorem decides_readOnly : Decides (Ajv.readOnly fields path) value
    (∀ flag, getField "readOnly" fields = some flag → flag.truthy = false) := by
  rw [Ajv.readOnly]
  cases getField "readOnly" fields with
  | none => exact Decides.pass nofun
  | some flag =>
    rw [forall_some (P := fun flag : Json => flag.truthy = false)]
    dsimp only [Option.any]
    by_cases hflag : flag.truthy = true
    · rw [if_pos hflag]
      exact Decides.iff_const.mpr (Decides.refuse fun h => by rw [hflag] at h; cases h)
    · rw [if_neg hflag]
      exact Decides.pass (Bool.eq_false_iff.mpr hflag)

theorem decides_untyped (h : Below ajv validate V (.obj fields) value)
    (hfields : Distinct (.obj fields)) (hvalue : Distinct value) :
    Decides (ajv.untyped validate fields path composite) value
      (UntypedClause ajv V fields value) := by
  have href : Decides (onKey "$ref" fields fun reference =>
      ajv.reference validate reference path composite) value
        (∀ reference, getField "$ref" fields = some reference →
          ∀ target, ajv.target reference = some target → V target value) :=
    decides_onKey fun reference hkeyword => decides_reference h hkeyword
  have hanyOf : Decides (onKey "anyOf" fields fun branches => Ajv.anyOf validate branches path)
      value (∀ keyword, getField "anyOf" fields = some keyword →
        ∀ branches, keyword = .arr branches → ∃ branch ∈ branches, V branch value) :=
    decides_onKey fun keyword hkeyword => decides_anyOf h hkeyword
  have honeOf : Decides (onKey "oneOf" fields fun branches => Ajv.oneOf validate branches path)
      value (∀ keyword, getField "oneOf" fields = some keyword →
        ∀ branches, keyword = .arr branches → OneOnly (V · value) branches) :=
    decides_onKey fun keyword hkeyword => decides_oneOf h hkeyword
  have hallOf : Decides (Ajv.allBranches validate path composite
      (((getField "allOf" fields).bind Json.asArray).getD [])) value
        (∀ branches, getField "allOf" fields = some (.arr branches) →
          ∀ branch ∈ branches, V branch value) := by
    have hcalls : ∀ branch ∈ branchesOf "allOf" fields,
        Calls ajv (branch, value) (.obj fields, value) := fun _ hmem => calls_allOf hmem
    exact (decides_allBranches fun branch hmem => ⟨h.of_alwaysValid (hcalls branch hmem),
      h.decides branch value (hcalls branch hmem)⟩).congr (forall_items
        (P := fun branches => ∀ branch ∈ branches, V branch value) (List.forall_mem_nil _))
  rw [Ajv.untyped]
  refine (href.next ((decides_constant hfields hvalue).next (decides_allowed hfields hvalue
    (hanyOf.next (honeOf.next (hallOf.next decides_readOnly)))))).congr ?_
  constructor
  · rintro ⟨href, hconst, henum, hanyOf, honeOf, hallOf, hreadOnly⟩
    exact ⟨fun reference target hkeyword => href reference hkeyword target, hconst, henum,
      fun branches hkeyword => hanyOf _ hkeyword branches rfl,
      fun branches hkeyword => honeOf _ hkeyword branches rfl, hallOf, hreadOnly⟩
  · rintro ⟨href, hconst, henum, hanyOf, honeOf, hallOf, hreadOnly⟩
    refine ⟨fun reference hkeyword target => href reference target hkeyword, hconst, henum,
      ?_, ?_, hallOf, hreadOnly⟩
    · rintro _ hkeyword branches rfl
      exact hanyOf branches hkeyword
    · rintro _ hkeyword branches rfl
      exact honeOf branches hkeyword

/-! ## The types -/

/-- The value is of a type that the schema names, if it names any. -/
structure TypeClause (fields : Fields) (value : Json) : Prop where
  typeName : ∀ name, getField "type" fields = some (.str name) →
    OfType name value ∨ Nullable fields ∧ value = .null
  typeNames : ∀ names, getField "type" fields = some (.arr names) → names ≠ [] →
    (∃ name, .str name ∈ names ∧ OfType name value) ∨ Nullable fields ∧ value = .null

theorem hasType_iff {type : String} : hasType type value = true ↔ OfType type value := by
  constructor
  · intro h
    unfold hasType at h
    split at h
    all_goals cases value <;> first | cases h | skip
    · exact .null
    · exact .array _
    · exact .object _
    · exact .number _
    · exact .integer _ (of_decide_eq_true h)
    · exact .string _
    · exact .boolean _
  · intro h
    cases h with
    | integer n h => exact decide_eq_true h
    | _ => rfl

/-- The types that are checked: those declared, and `null` where it is allowed besides. -/
theorem schemaTypes_spec {types : List String} (h : schemaTypes fields = some types) :
    ∃ declared, declaredTypes fields = some declared ∧ (types = [] ↔ declared = [])
      ∧ ∀ value, types.any (hasType · value) = true ↔ declared.any (hasType · value) = true
        ∨ declared ≠ [] ∧ Nullable fields ∧ value = .null := by
  obtain ⟨declared, hdeclared, h⟩ := Option.bind_eq_some_iff.mp h
  refine ⟨declared, hdeclared, ?_⟩
  dsimp only at h
  split at h
  · next hnull =>
    split at h
    · cases h
    · cases h
      refine ⟨Iff.rfl, fun value => ⟨.inl, fun h => h.elim id ?_⟩⟩
      rintro ⟨_, _, rfl⟩
      exact List.any_eq_true.mpr ⟨"null", List.contains_iff_mem.mp hnull, rfl⟩
  · split at h
    · cases h
    · next hdeclares =>
      split at h
      · next hnullable =>
        cases h
        have hne : declared ≠ [] := fun hnil => hdeclares ⟨hnil, by rw [hnullable]; rfl⟩
        refine ⟨by simp [hne], fun value => ?_⟩
        rw [List.any_append, Bool.or_eq_true, List.any_cons, List.any_nil, Bool.or_false]
        refine or_congr_right ⟨fun h => ⟨hne, hnullable, ?_⟩, ?_⟩
        · cases value <;> first | rfl | cases h
        · rintro ⟨_, _, rfl⟩
          rfl
      · next hnullable =>
        cases h
        exact ⟨Iff.rfl, fun value => ⟨.inl, fun h => h.elim id fun h => absurd h.2.1 hnullable⟩⟩

theorem knownType_eq_some {name known : String} (h : knownType name = some known) :
    known = name := by
  rw [knownType] at h
  split at h
  · exact (Option.some.inj h).symm
  · cases h

theorem mapM_knownType {items : List Json} {names : List String}
    (h : items.mapM (fun item => item.asStr.bind knownType) = some names) :
    items = names.map Json.str := by
  induction items generalizing names with
  | nil =>
    cases h
    rfl
  | cons item items ih =>
    rw [List.mapM_cons] at h
    obtain ⟨name, hname, h⟩ := Option.bind_eq_some_iff.mp h
    obtain ⟨names, hnames, h⟩ := Option.bind_eq_some_iff.mp h
    cases h
    obtain ⟨text, htext, hknown⟩ := Option.bind_eq_some_iff.mp hname
    rw [List.map_cons, ← ih hnames, knownType_eq_some hknown]
    cases item with
    | str s =>
      cases htext
      rfl
    | null | bool _ | num _ | arr _ | obj _ => cases htext

/-- **The types that are checked are the ones that are meant.** -/
theorem typeClause_iff {types : List String} (h : schemaTypes fields = some types) :
    TypeClause fields value ↔ types = [] ∨ types.any (hasType · value) = true := by
  obtain ⟨declared, hdeclared, hnil, hany⟩ := schemaTypes_spec h
  rw [hnil, hany]
  rw [declaredTypes] at hdeclared
  split at hdeclared
  · next hnone =>
    cases hdeclared
    refine ⟨fun _ => .inl rfl, fun _ => ⟨fun name hname => ?_, fun names hnames => ?_⟩⟩
    · rw [hnone] at hname
      cases hname
    · rw [hnone] at hnames
      cases hnames
  · next name hname =>
    obtain ⟨known, hknown, hdeclared⟩ := Option.map_eq_some_iff.mp hdeclared
    cases knownType_eq_some hknown
    cases hdeclared
    have hone : TypeClause fields value ↔ OfType name value ∨ Nullable fields ∧ value = .null := by
      refine ⟨fun h => h.typeName name hname,
        fun h => ⟨fun other hother => ?_, fun names hnames => ?_⟩⟩
      · rw [hname] at hother
        cases hother
        exact h
      · rw [hname] at hnames
        cases hnames
    rw [hone, List.any_cons, List.any_nil, Bool.or_false, hasType_iff]
    simp
  · next items hitems =>
    have hnames := mapM_knownType hdeclared
    have hone : TypeClause fields value ↔ (items ≠ [] →
        (∃ name, Json.str name ∈ items ∧ OfType name value) ∨ Nullable fields ∧ value = .null) := by
      refine ⟨fun h => h.typeNames items hitems,
        fun h => ⟨fun name hname => ?_, fun names hnames => ?_⟩⟩
      · rw [hitems] at hname
        cases hname
      · rw [hitems] at hnames
        cases hnames
        exact h
    have hmem : (∃ name, Json.str name ∈ items ∧ OfType name value)
        ↔ declared.any (hasType · value) = true := by
      rw [hnames, List.any_eq_true]
      simp only [List.mem_map, Json.str.injEq, exists_eq_right, hasType_iff]
    rw [hone, hmem, hnames, Ne, List.map_eq_nil_iff]
    by_cases hempty : declared = []
    · simp [hempty]
    · simp [hempty]
  · cases hdeclared

/-! ## The groups one after another -/

theorem getField_of_not_among {group : Group} {key : String} (h : group.among fields = false)
    (hkey : key ∈ group.keywords) : getField key fields = none := by
  have hnot := List.any_eq_false.mp h key hkey
  rw [hasKey, Bool.not_eq_true, Option.isSome_eq_false_iff, Option.isNone_iff_eq_none] at hnot
  exact hnot

/-- Absent keywords hold. -/
theorem groupClause_of_not_among {group : Group} (h : group.among fields = false) :
    GroupClause V fields value group := by
  have hnone : ∀ key ∈ group.keywords, ∀ keyword, getField key fields ≠ some keyword := by
    intro key hkey keyword
    rw [getField_of_not_among h hkey]
    nofun
  cases group with
  | number =>
    exact fun n _ => ⟨fun _ hkey => absurd hkey (hnone _ (by decide) _),
      fun _ hkey => absurd hkey (hnone _ (by decide) _)⟩
  | string =>
    exact fun text _ => ⟨fun _ hkey => absurd hkey (hnone _ (by decide) _),
      fun _ hkey => absurd hkey (hnone _ (by decide) _)⟩
  | array =>
    exact fun elements _ => ⟨fun _ hkey => absurd hkey (hnone _ (by decide) _),
      fun _ hkey => absurd hkey (hnone _ (by decide) _),
      fun _ hkey => absurd hkey (hnone _ (by decide) _)⟩
  | object =>
    refine fun map _ => ⟨fun _ hkey => absurd hkey (hnone _ (by decide) _),
      fun _ hkey => absurd hkey (hnone _ (by decide) _), fun property hproperty => ?_⟩
    rw [Ajv.propertiesOf, getField_of_not_among h (by decide)] at hproperty
    exact absurd hproperty List.not_mem_nil

/-- The keywords of a group hold of values of other types. -/
theorem groupClause_of_not_holds {group : Group} (h : group.holds value = false) :
    GroupClause V fields value group := by
  cases group <;> (rintro _ rfl; cases h)

theorem hasType_name (group : Group) : hasType group.name value = group.holds value := by
  cases group <;> cases value <;> rfl

theorem among_of_rules {type : String} (h : hasRulesForType fields type = true) :
    ∃ group : Group, group.name = type ∧ group.among fields = true := by
  rw [hasRulesForType.eq_def] at h
  split at h
  · exact ⟨.number, rfl, h⟩
  · exact ⟨.string, rfl, h⟩
  · exact ⟨.array, rfl, h⟩
  · exact ⟨.object, rfl, h⟩
  · cases h

/-- What the loop over the groups checks of one: its keywords, and the type where it is left
to them. -/
def GroupHolds (V : Json → Json → Prop) (fields : Fields) (types : List String)
    (checkTypes : Bool) (value : Json) (group : Group) : Prop :=
  GroupClause V fields value group ∧ (group.among fields = true → group.holds value = false →
    ¬(types.length = 1 ∧ types.head? = some group.name ∧ checkTypes = false))

/-- The loop over the groups. -/
theorem groups_spec (types : List String) (checkTypes : Bool) {start : ℕ}
    (hgroup : ∀ group : Group, group.holds value = true →
      Decides (ajv.group validate group fields path composite) value
        (GroupClause V fields value group))
    (hdefaults : assignDefaults fields value = value) (groups : List Group) (st : State)
    (hst : st.unsure = none → st.errors.length = start) :
    ∃ ok after, ajv.groups validate fields types checkTypes path composite start groups value st
        = some ⟨ok, value, after⟩
      ∧ (after.unsure = none →
        Verdict st (∀ group ∈ groups, GroupHolds V fields types checkTypes value group) ok
          after) := by
  induction groups generalizing st with
  | nil =>
    refine ⟨_, st, rfl, fun hsure => ⟨hsure, fun _ => ⟨List.forall_mem_nil _, rfl⟩, fun hok => ?_⟩⟩
    exact absurd (hst hsure) (of_decide_eq_false hok)
  | cons group groups ih =>
    simp only [List.forall_mem_cons]
    rw [Ajv.groups]
    by_cases hamong : group.among fields = true
    · rw [if_neg (by simp [hamong])]
      dsimp only
      by_cases hholds : group.holds value = true
      · rw [if_pos hholds, hdefaults, ite_self]
        obtain ⟨ok, mid, hcheck, hverdict⟩ := hgroup group hholds st
        have hone : GroupHolds V fields types checkTypes value group
            ↔ GroupClause V fields value group := by
          refine and_iff_left fun _ hnot => ?_
          rw [hholds] at hnot
          cases hnot
        rw [hone, hcheck]
        dsimp only [bind, Option.bind]
        split
        · next hgoes =>
          cases hgoes.1
          obtain ⟨ok, after, hrest, hverdict'⟩ := ih mid fun _ => hgoes.2
          refine ⟨ok, after, hrest, fun hsure => ?_⟩
          have hnext := hverdict' hsure
          exact (hverdict hnext.sure).next hnext
        · next hstops =>
          refine ⟨false, mid, rfl, fun hsure => ?_⟩
          have hverdict := hverdict hsure
          cases ok with
          | false => exact hverdict.stop
          | true =>
            -- Where it holds, the errors are as they were.
            refine absurd ⟨rfl, ?_⟩ hstops
            rw [(hverdict.holds rfl).2]
            exact hst hverdict.sure
      · rw [if_neg hholds]
        rw [Bool.not_eq_true] at hholds
        have hone : GroupHolds V fields types checkTypes value group
            ↔ ¬(types.length = 1 ∧ types.head? = some group.name ∧ checkTypes = false) :=
          (and_iff_right (groupClause_of_not_holds hholds)).trans
            ⟨fun h => h hamong hholds, fun h _ _ => h⟩
        rw [hone]
        by_cases htype : types.length = 1 ∧ types.head? = some group.name ∧ checkTypes = false
        · rw [if_pos (by simpa using htype)]
          exact Decides.refuse (fun h => h.1 htype) st
        · rw [if_neg (by simpa using htype)]
          simp only [htype, not_false_eq_true, true_and]
          by_cases hlength : st.errors.length ≠ start
          · rw [if_pos hlength]
            exact ⟨false, st, rfl, fun hsure => absurd (hst hsure) hlength⟩
          · rw [if_neg hlength]
            exact ih st hst
    · rw [if_pos (by simp [hamong])]
      rw [Bool.not_eq_true] at hamong
      have hone : GroupHolds V fields types checkTypes value group := by
        refine ⟨groupClause_of_not_among hamong, fun h => ?_⟩
        rw [hamong] at h
        cases h
      simp only [hone, true_and]
      exact ih st hst

/-- A value without a text or an array longer than a 32-bit number, and without a key
repeated. -/
structure Readable (value : Json) : Prop where
  distinct : Distinct value
  text_lt : ∀ text, Json.str text ∈ parts value → text.length < 2 ^ 32
  items_lt : ∀ items, Json.arr items ∈ parts value → items.length < 2 ^ 32

theorem Readable.inner {inner : Json} (h : Readable value) (hinner : inner ∈ innerValues value) :
    Readable inner :=
  ⟨h.distinct.inner hinner, fun text htext => h.text_lt text (mem_parts_of_inner hinner htext),
    fun items hitems => h.items_lt items (mem_parts_of_inner hinner hitems)⟩

theorem decides_group (hplain : Plain fields) (hvalue : Readable value)
    (h : Below ajv validate V (.obj fields) value) {group : Group}
    (hholds : group.holds value = true) :
    Decides (ajv.group validate group fields path composite) value
      (GroupClause V fields value group) := by
  have hself := mem_parts_self value
  cases group with
  | number =>
    cases value with
    | num n => exact decides_number hplain n
    | null | bool _ | str _ | arr _ | obj _ => cases hholds
  | string =>
    cases value with
    | str text => exact decides_string hplain (hvalue.text_lt text hself)
    | null | bool _ | num _ | arr _ | obj _ => cases hholds
  | array =>
    cases value with
    | arr elements => exact decides_array (hvalue.items_lt elements hself) h
    | null | bool _ | num _ | str _ | obj _ => cases hholds
  | object =>
    cases value with
    | obj map => exact decides_object hplain h
    | null | bool _ | num _ | str _ | arr _ => cases hholds

/-- Nothing is assigned where no property has a default. -/
theorem assignDefaults_eq
    (h : ∀ property ∈ Ajv.propertiesOf fields, property.2.get "default" = none) :
    assignDefaults fields value = value := by
  rw [assignDefaults.eq_def]
  split
  · next properties map hproperties =>
    rw [Ajv.propertiesOf, hproperties] at h
    refine congrArg Json.obj ?_
    have hsame : ∀ properties : Fields, (∀ property ∈ properties,
        property.2.get "default" = none) → properties.foldl assignDefault map = map := by
      intro properties h
      induction properties with
      | nil => rfl
      | cons property properties ih =>
        rw [List.forall_mem_cons] at h
        rw [List.foldl_cons, assignDefault, h.1]
        exact ih h.2
    exact hsame properties h
  · rfl

/-! ## The walk -/

/-- The keywords after the type: where the errors are more than at the start, they fail. -/
theorem afterType_spec (types : List String) (checkTypes : Bool) {U : Prop}
    (huntyped : Decides (ajv.untyped validate fields path composite) value U)
    (hgroup : ∀ group : Group, group.holds value = true →
      Decides (ajv.group validate group fields path composite) value
        (GroupClause V fields value group))
    (hdefaults : assignDefaults fields value = value) (start : ℕ) (st : State) :
    ∃ ok after, ajv.afterType validate fields types checkTypes path composite start value st
        = some ⟨ok, value, after⟩
      ∧ (after.unsure = none → st.unsure = none ∧ (∃ added, after.errors = st.errors ++ added)
        ∧ (st.errors.length ≠ start → ok = false)
        ∧ (st.errors.length = start → Verdict st
          (U ∧ ∀ group, GroupHolds V fields types checkTypes value group) ok after)) := by
  obtain ⟨ok, mid, hcheck, hverdict⟩ := huntyped st
  rw [Ajv.afterType, hcheck]
  dsimp only [bind, Option.bind]
  split
  · next hgoes =>
    cases hgoes.1
    obtain ⟨ok, after, hrest, hverdict'⟩ := groups_spec types checkTypes hgroup
      hdefaults [.number, .string, .array, .object] mid fun _ => hgoes.2
    refine ⟨ok, after, hrest, fun hsure => ?_⟩
    have hnext := hverdict' hsure
    have hfirst := hverdict hnext.sure
    have hsame := (hfirst.holds rfl).2
    refine ⟨hfirst.sure, ?_, fun hne => ?_, fun _ => ?_⟩
    · cases ok with
      | true => exact ⟨[], by rw [(hnext.holds rfl).2, hsame, List.append_nil]⟩
      | false =>
        obtain ⟨_, added, _, hadded⟩ := hnext.fails rfl
        exact ⟨added, hsame ▸ hadded⟩
    · exact absurd (hsame ▸ hgoes.2) hne
    · refine (hfirst.next hnext).congr (and_congr_right fun _ => ⟨fun h group => ?_, ?_⟩)
      · exact h group (by cases group <;> decide)
      · exact fun h group _ => h group
  · next hstops =>
    refine ⟨false, mid, rfl, fun hsure => ?_⟩
    have hfirst := hverdict hsure
    refine ⟨hfirst.sure, ?_, fun _ => rfl, fun hstart => ?_⟩
    · cases ok with
      | true => exact ⟨[], by rw [(hfirst.holds rfl).2, List.append_nil]⟩
      | false =>
        obtain ⟨_, added, _, hadded⟩ := hfirst.fails rfl
        exact ⟨added, hadded⟩
    · cases ok with
      | true => exact absurd ⟨rfl, by rw [(hfirst.holds rfl).2, hstart]⟩ hstops
      | false => exact hfirst.stop

/-- The keywords of a schema are those of the type, of any type and of the groups. -/
theorem objectClause_iff : ObjectClause ajv V fields value ↔ TypeClause fields value
    ∧ UntypedClause ajv V fields value ∧ ∀ group, GroupClause V fields value group := by
  constructor
  · intro h
    refine ⟨⟨h.typeName, h.typeNames⟩, ⟨h.ref, h.const, h.enum, h.anyOf, h.oneOf, h.allOf,
      h.readOnly⟩, fun group => ?_⟩
    cases group with
    | number => exact fun n hn => ⟨fun limit hkey => h.maximum limit n hkey hn,
        fun limit hkey => h.minimum limit n hkey hn⟩
    | string => exact fun text ht => ⟨fun limit hkey => h.maxLength limit text hkey ht,
        fun limit hkey => h.minLength limit text hkey ht⟩
    | array => exact fun items hi => ⟨fun limit hkey => h.maxItems limit items hkey hi,
        fun limit hkey => h.minItems limit items hkey hi, fun sub hkey => h.items sub items hkey hi⟩
    | object => exact fun map hm => ⟨fun names hkey => h.required names map hkey hm,
        fun sub hkey => h.additionalProperties sub map hkey hm, h.properties map hm⟩
  · rintro ⟨htype, huntyped, hgroup⟩
    exact {
      typeName := htype.typeName
      typeNames := htype.typeNames
      const := huntyped.const
      enum := huntyped.enum
      ref := huntyped.ref
      anyOf := huntyped.anyOf
      oneOf := huntyped.oneOf
      allOf := huntyped.allOf
      readOnly := huntyped.readOnly
      maximum := fun limit n hkey hn => (hgroup .number n hn).1 limit hkey
      minimum := fun limit n hkey hn => (hgroup .number n hn).2 limit hkey
      maxLength := fun limit text hkey ht => (hgroup .string text ht).1 limit hkey
      minLength := fun limit text hkey ht => (hgroup .string text ht).2 limit hkey
      maxItems := fun limit items hkey hi => (hgroup .array items hi).1 limit hkey
      minItems := fun limit items hkey hi => (hgroup .array items hi).2.1 limit hkey
      items := fun sub items hkey hi => (hgroup .array items hi).2.2 sub hkey
      required := fun names map hkey hm => (hgroup .object map hm).1 names hkey
      additionalProperties := fun sub map hkey hm => (hgroup .object map hm).2.1 sub hkey
      properties := fun map hm => (hgroup .object map hm).2.2 }

/-- Where the types are checked at the start, the groups check their keywords only. -/
theorem groupHolds_of_checked {types : List String} {group : Group} :
    GroupHolds V fields types true value group ↔ GroupClause V fields value group :=
  and_iff_left fun _ _ h => nomatch h.2.2

/-- A single type that is left to the group of its keywords is checked there. -/
theorem groupHolds_of_unchecked {types : List String} (h : types = []
      ∨ types.length = 1 ∧ types.head?.any (hasRulesForType fields) = true) :
    (∀ group, GroupHolds V fields types false value group)
      ↔ (types = [] ∨ types.any (hasType · value) = true)
        ∧ ∀ group, GroupClause V fields value group := by
  obtain rfl | ⟨hlength, hrules⟩ := h
  · refine (forall_congr' fun group => and_iff_left ?_).trans (and_iff_right (.inl rfl)).symm
    exact fun _ _ h => nomatch h.1
  · obtain ⟨type, rfl⟩ := List.length_eq_one_iff.mp hlength
    obtain ⟨group, rfl, hamong⟩ := among_of_rules hrules
    have hany : [group.name].any (hasType · value) = group.holds value := by
      rw [List.any_cons, List.any_nil, Bool.or_false, hasType_name]
    rw [hany, or_iff_right (List.cons_ne_nil _ _)]
    constructor
    · refine fun h => ⟨?_, fun group => (h group).1⟩
      by_contra hnot
      rw [Bool.not_eq_true] at hnot
      exact (h group).2 hamong hnot ⟨rfl, rfl, rfl⟩
    · rintro ⟨hholds, hclauses⟩ other
      refine ⟨hclauses other, fun _ hnot ⟨_, hname, _⟩ => ?_⟩
      have hsame : hasType group.name value = hasType other.name value := by
        rw [Option.some.inj hname]
      rw [hasType_name, hasType_name, hholds, hnot] at hsame
      cases hsame

/-- **The keywords of a schema are decided**, wherever its types are checked. -/
theorem decides_keywords (hcoerce : ajv.coerce = false) {types : List String}
    (htypes : schemaTypes fields = some types)
    (huntyped : Decides (ajv.untyped validate fields path composite) value
      (UntypedClause ajv V fields value))
    (hgroup : ∀ group : Group, group.holds value = true →
      Decides (ajv.group validate group fields path composite) value
        (GroupClause V fields value group))
    (hdefaults : assignDefaults fields value = value) :
    Decides (ajv.keywords validate fields types path composite) value
      (ObjectClause ajv V fields value) := by
  rw [objectClause_iff, typeClause_iff htypes]
  intro st
  have hcoerceTo : ajv.coerceTo types = [] := by
    rw [Ajv.coerceTo, hcoerce]
    rfl
  have hrest := fun checkTypes =>
    afterType_spec types checkTypes huntyped hgroup hdefaults st.errors.length
  rw [Ajv.keywords]
  dsimp only
  rw [hcoerceTo, if_pos rfl]
  generalize hcheck : decide (types ≠ [] ∧ (!ajv.deferred fields types) = true) = checkTypes
  cases checkTypes with
  | true =>
    have hne := (of_decide_eq_true hcheck).1
    rw [or_iff_right hne]
    by_cases hany : types.any (hasType · value) = true
    · rw [if_neg (by simp [hany])]
      obtain ⟨ok, after, hwalk, hverdict⟩ := hrest true st
      refine ⟨ok, after, hwalk, fun hsure => ((hverdict hsure).2.2.2 rfl).congr ?_⟩
      rw [and_iff_right hany]
      exact and_congr_right fun _ => forall_congr' fun group => groupHolds_of_checked
    · rw [if_pos ⟨of_decide_eq_true hcheck, by simp [hany]⟩]
      by_cases hcomposite : composite = true
      · -- In a composite the walk goes on, with the error there.
        rw [if_pos hcomposite]
        obtain ⟨ok, after, hwalk, hverdict⟩ := hrest true (st.push (Ajv.typeError fields path))
        have hlength : (st.push (Ajv.typeError fields path)).errors.length ≠ st.errors.length := by
          rw [State.push, List.length_append, List.length_singleton]
          omega
        refine ⟨ok, after, hwalk, fun hsure => ?_⟩
        obtain ⟨hst, ⟨added, hadded⟩, hfails, _⟩ := hverdict hsure
        refine ⟨hst, fun hok => ?_, fun _ => ⟨fun h => hany h.1, ?_⟩⟩
        · rw [hfails hlength] at hok
          cases hok
        · refine ⟨Ajv.typeError fields path :: added, List.cons_ne_nil _ _, ?_⟩
          rw [hadded, State.push, List.append_assoc]
          rfl
      · rw [if_neg hcomposite]
        exact Decides.refuse (fun h => hany h.1) st
  | false =>
    rw [if_neg fun h => of_decide_eq_false hcheck h.1]
    obtain ⟨ok, after, hwalk, hverdict⟩ := hrest false st
    have hleft : types = []
        ∨ types.length = 1 ∧ types.head?.any (hasRulesForType fields) = true := by
      by_cases hnil : types = []
      · exact .inl hnil
      · have hdeferred : ajv.deferred fields types = true := by
          by_contra hnot
          rw [Bool.not_eq_true] at hnot
          exact of_decide_eq_false hcheck ⟨hnil, by rw [hnot]; rfl⟩
        rw [Ajv.deferred, decide_eq_true_iff] at hdeferred
        exact .inr hdeferred.2
    refine ⟨ok, after, hwalk, fun hsure => ((hverdict hsure).2.2.2 rfl).congr ?_⟩
    rw [groupHolds_of_unchecked hleft, and_left_comm]

theorem decides_objectSchema (hcoerce : ajv.coerce = false)
    (huntyped : Decides (ajv.untyped validate fields path composite) value
      (UntypedClause ajv V fields value))
    (hgroup : ∀ group : Group, group.holds value = true →
      Decides (ajv.group validate group fields path composite) value
        (GroupClause V fields value group))
    (hdefaults : assignDefaults fields value = value) :
    Decides (ajv.objectSchema validate fields path composite) value
      (ObjectClause ajv V fields value) := by
  have hrest : Decides (ajv.portedSchema validate fields path composite) value
      (ObjectClause ajv V fields value) := by
    rw [Ajv.portedSchema]
    cases htypes : schemaTypes fields with
    | none => exact Decides.doubt (Decides.pass trivial)
    | some types => exact decides_keywords hcoerce htypes huntyped hgroup hdefaults
  rw [Ajv.objectSchema]
  split
  · exact hrest.doubt
  · exact hrest

/-- **One body of `validate` decides what the schema means**, where its nested calls do. -/
theorem decides_validateBody (hcoerce : ajv.coerce = false) {schema : Json}
    (hplain : ∀ fields, schema = .obj fields → Plain fields)
    (hdefault : ∀ sub ∈ innerSchemas schema, sub.get "default" = none)
    (hschema : Distinct schema) (hvalue : Readable value)
    (h : Below ajv validate V schema value) :
    Decides (ajv.validateBody validate schema path composite) value
      (Clause ajv V schema value) := by
  cases schema with
  | bool b =>
    cases b with
    | true => exact Decides.pass rfl
    | false => exact Decides.refuse nofun
  | obj fields =>
    have hplain := hplain fields rfl
    have hobject : Decides (ajv.objectSchema validate fields path composite) value
        (ObjectClause ajv V fields value) := by
      refine decides_objectSchema hcoerce (decides_untyped h hschema hvalue.distinct)
        (fun group hholds => decides_group hplain hvalue h hholds) (assignDefaults_eq ?_)
      intro property hproperty
      exact hdefault _ (List.mem_append_right _ (List.mem_map_of_mem hproperty))
    rw [Ajv.validateBody]
    by_cases hrules : fields.any (fun field => isRule field.1) = true
    · rw [if_neg (by simp [hrules])]
      cases hkeyword : getField "$ref" fields with
      | none => exact hobject
      | some reference =>
        dsimp only
        split
        · next honly =>
          refine (decides_reference h hkeyword).congr ?_
          refine Iff.trans ?_ (objectClause_ref fun key hkey hne => ?_).symm
          · exact ⟨fun h other target hother => by cases hkeyword.symm.trans hother; exact h target,
              fun h target => h reference target hkeyword⟩
          · cases hfield : getField key fields with
            | none => rfl
            | some keyword =>
              rw [Bool.not_eq_true', List.any_eq_false] at honly
              refine absurd ?_ (honly (key, keyword) (mem_of_getField hfield))
              rw [Bool.and_eq_true, decide_eq_true_iff]
              exact ⟨hne, hkey⟩
        · exact hobject
    · rw [if_pos (by simp [hrules])]
      have hvalid : alwaysValid (.obj fields) = true := by
        rw [alwaysValid, Bool.not_eq_true']
        exact Bool.not_eq_true _ ▸ hrules
      exact Decides.pass (clause_of_alwaysValid hvalid)
  | null | num _ | str _ | arr _ => exact Decides.doubt (Decides.pass trivial)

/-- A schema of the ported keywords, in documents without a key repeated. -/
structure Ported (ajv : Ajv) (schema : Json) : Prop where
  plain : ∀ fields, Reaches ajv schema (.obj fields) → Plain fields
  noCycle : NoCycle ajv schema
  distinct : Distinct schema
  distinctDoc : Distinct ajv.doc

section Ported

variable {schema sub part : Json}

theorem Ported.distinct_of_reaches (hported : Ported ajv schema) (h : Reaches ajv schema sub) :
    Distinct sub :=
  (part_of_reaches h).elim hported.distinct.part hported.distinctDoc.part

/-- A schema that can be reached has no default. -/
theorem Ported.default_of_reaches (hported : Ported ajv schema) (h : Reaches ajv schema sub) :
    sub.get "default" = none := by
  cases sub with
  | obj fields => exact (hported.plain fields h).default
  | null | bool _ | num _ | str _ | arr _ => rfl

theorem Reaches.calls {pair called : Json × Json} (h : Reaches ajv schema pair.1)
    (hcall : Calls ajv called pair) : Reaches ajv schema called.1 := by
  cases hcall with
  | same hstep => exact h.same hstep
  | inner hstep _ => exact h.inner hstep

theorem Readable.calls {pair called : Json × Json} (h : Readable pair.2)
    (hcall : Calls ajv called pair) : Readable called.2 := by
  cases hcall with
  | same _ => exact h
  | inner _ hpart => exact h.inner hpart

/-- A schema refers to finitely many others. -/
theorem finite_calls (pair : Json × Json) : {called | Calls ajv called pair}.Finite := by
  refine Set.Finite.subset (List.finite_toSet ((sameSchemas ajv pair.1 ×ˢ [pair.2])
    ++ innerSchemas pair.1 ×ˢ innerValues pair.2)) fun called hcall => ?_
  refine List.mem_append.mpr ?_
  cases hcall with
  | same h => exact .inl (List.pair_mem_product.mpr ⟨h, List.mem_singleton_self _⟩)
  | inner h hpart => exact .inr (List.pair_mem_product.mpr ⟨h, hpart⟩)

/-- **The walk decides what a schema means**, given calls enough for what its meaning unfolds
to. -/
theorem decides_validate (hcoerce : ajv.coerce = false) (hported : Ported ajv schema)
    (meaning : Meaning ajv) {pair : Json × Json} (hacc : Acc (Calls ajv) pair)
    (hreach : Reaches ajv schema pair.1) (hvalue : Readable pair.2) :
    ∃ n, ∀ calls ≥ n, ∀ path composite,
      Decides (ajv.validate calls pair.1 path composite) pair.2
        (meaning.valid pair.1 pair.2) := by
  induction hacc with
  | intro pair hacc ih =>
    have hbelow : ∀ᶠ calls in Filter.atTop, ∀ called ∈ {called | Calls ajv called pair},
        ∀ path composite, Decides (ajv.validate calls called.1 path composite) called.2
          (meaning.valid called.1 called.2) := by
      refine (Filter.eventually_all_finite (finite_calls pair)).mpr fun called hcall => ?_
      exact Filter.eventually_atTop.mpr (ih called hcall (hreach.calls hcall) (hvalue.calls hcall))
    obtain ⟨n, hn⟩ := Filter.eventually_atTop.mp hbelow
    refine ⟨n + 1, fun calls hcalls path composite => ?_⟩
    cases calls with
    | zero => exact absurd hcalls (Nat.not_succ_le_zero n)
    | succ calls =>
      have h : Below ajv (ajv.validate calls) meaning.valid pair.1 pair.2 :=
        ⟨fun sub part hcall => hn calls (Nat.le_of_succ_le_succ hcalls) (sub, part) hcall,
          fun sub part hcall => meaning.law sub part (hacc _ hcall)⟩
      refine (decides_validateBody hcoerce (fun fields hfields => ?_) (fun sub hsub => ?_)
        (hported.distinct_of_reaches hreach) hvalue h).congr
          (meaning.law _ _ (Acc.intro _ hacc)).symm
      · exact hported.plain fields (hfields ▸ hreach)
      · exact hported.default_of_reaches (hreach.inner hsub)

/-- **Schema validation means the schema.** With enough nested calls, whatever errors there
were, a value with no text or array beyond 32 bits is left as it was; and unless something was
not reproduced exactly, it passes exactly where it is valid, and errors are added exactly
where it does not pass. -/
theorem validate_means (hcoerce : ajv.coerce = false) (hported : Ported ajv schema)
    (hvalue : Readable value) (meaning : Meaning ajv) :
    ∃ n, ∀ calls ≥ n, ∀ path composite errors nonFinite, ∃ out,
      ajv.validate calls schema path composite value ⟨errors, none, nonFinite⟩ = some out
        ∧ out.data = value
        ∧ (out.state.unsure = none → (out.ok = true ↔ meaning.valid schema value)
          ∧ (out.state.errors = errors ↔ out.ok = true)) := by
  have hreach : Reaches ajv schema schema := ReflTransGen.refl
  obtain ⟨n, hn⟩ := decides_validate hcoerce hported meaning
    (acc_calls hported.noCycle value schema hreach) hreach hvalue
  refine ⟨n, fun calls hcalls path composite errors nonFinite => ?_⟩
  obtain ⟨ok, after, hwalk, hverdict⟩ := hn calls hcalls path composite ⟨errors, none, nonFinite⟩
  refine ⟨⟨ok, value, after⟩, hwalk, rfl, fun hsure => ?_⟩
  have hverdict := hverdict hsure
  cases ok with
  | true =>
    obtain ⟨hvalid, herrors⟩ := hverdict.holds rfl
    exact ⟨iff_of_true rfl hvalid, iff_of_true herrors rfl⟩
  | false =>
    obtain ⟨hinvalid, added, hadded, hmore⟩ := hverdict.fails rfl
    refine ⟨iff_of_false nofun hinvalid, iff_of_false (fun hsame => ?_) nofun⟩
    exact hadded (List.append_right_eq_self.mp (hmore.symm.trans hsame))

/-- A rank that falls from a schema to those it applies to the same value rules a cycle out. -/
theorem noCycle_of_rank (rank : Json → ℕ)
    (h : ∀ sub, Reaches ajv schema sub → ∀ next ∈ sameSchemas ajv sub, rank next < rank sub) :
    NoCycle ajv schema := by
  intro sub hsub hcycle
  have hfalls : ∀ next, TransGen (SameStep ajv) next sub →
      Reaches ajv schema next ∧ rank next < rank sub := by
    intro next hnext
    induction hnext using TransGen.head_induction_on with
    | single hstep => exact ⟨hsub.same hstep, h sub hsub _ hstep⟩
    | head hstep _ ih => exact ⟨ih.1.same hstep, (h _ ih.1 _ hstep).trans ih.2⟩
  exact lt_irrefl _ (hfalls sub hcycle).2

end Ported

/-! ### A schema with a reference, and a limit beyond 32 bits -/

/-- A validator of documents without a coercion, a pattern or a format. -/
def plainAjv (doc : Json) : Ajv where
  doc := doc
  patterns := fun _ => none
  coerce := false
  coerceData := fun _ _ => none
  numberString := fun n => toString n.num
  fastDate := fun _ => false
  fastDateTime := fun _ => false
  byte := fun _ => false

/-- A text of at most three characters. -/
def shortText : Json := .obj [("type", .str "string"), ("maxLength", .num 3)]

/-- Where it stands. -/
def shortDoc : Json := .obj [("short", shortText)]

/-- An object with a short name. -/
def named : Json :=
  .obj [("type", .str "object"), ("required", .arr [.str "name"]),
    ("properties", .obj [("name", .obj [("$ref", .str "#/short")])])]

/-- The only reference leads to a schema without one. -/
theorem ported_named : Ported (plainAjv shortDoc) named := by
  have hobject : ∀ fields, Json.obj fields ∈ parts named ++ parts shortDoc →
      (fields.map Prod.fst).Nodup ∧ Plain fields := by
    intro fields h
    simp only [named, shortDoc, shortText, parts, partsOfFields, partsOfItems, List.append_nil,
      List.cons_append, List.nil_append, List.mem_cons, List.not_mem_nil, or_false,
      Json.obj.injEq, reduceCtorEq, false_or] at h
    obtain rfl | rfl | rfl | rfl | rfl := h <;> exact ⟨by decide, rfl, rfl, rfl, by decide⟩
  have hparts : ∀ sub, Reaches (plainAjv shortDoc) named sub →
      sub ∈ parts named ++ parts shortDoc := fun sub h => List.mem_append.mpr (part_of_reaches h)
  have hrank : ∀ sub ∈ parts named ++ parts shortDoc,
      ∀ next ∈ sameSchemas (plainAjv shortDoc) sub, (if (next.get "$ref").isSome then 1 else 0)
        < if (sub.get "$ref").isSome then 1 else 0 := by
    decide
  exact {
    plain := fun fields h => (hobject fields (hparts _ h)).2
    noCycle := noCycle_of_rank _ fun sub h => hrank sub (hparts sub h)
    distinct := fun fields h => (hobject fields (List.mem_append_left _ h)).1
    distinctDoc := fun fields h => (hobject fields (List.mem_append_right _ h)).1 }

theorem validate_means_named :
    let value := Json.obj [("name", .str "ada")]
    Ported (plainAjv shortDoc) named ∧ Readable value ∧
      ∃ meaning : Meaning (plainAjv shortDoc), ∃ n, ∀ calls ≥ n,
        ∀ path composite errors nonFinite, ∃ out,
          (plainAjv shortDoc).validate calls named path composite value ⟨errors, none, nonFinite⟩
              = some out
            ∧ out.data = value
            ∧ (out.state.unsure = none → (out.ok = true ↔ meaning.valid named value)
              ∧ (out.state.errors = errors ↔ out.ok = true)) := by
  have hvalue : Readable (.obj [("name", .str "ada")]) := by
    have hparts : parts (.obj [("name", .str "ada")]) =
        [.obj [("name", .str "ada")], .str "ada"] := rfl
    refine ⟨fun fields h => ?_, fun text h => ?_, fun items h => ?_⟩
    · rw [hparts] at h
      obtain h | h := List.mem_cons.mp h
      · cases h
        decide
      · cases List.mem_singleton.mp h
    · rw [hparts] at h
      obtain h | h := List.mem_cons.mp h
      · cases h
      · cases List.mem_singleton.mp h
        decide
    · rw [hparts] at h
      obtain h | h := List.mem_cons.mp h
      · cases h
      · cases List.mem_singleton.mp h
  obtain ⟨meaning⟩ := Meaning.exists_law (plainAjv shortDoc)
  exact ⟨ported_named, hvalue, meaning, validate_means rfl ported_named hvalue meaning⟩

/-- A text within a limit that no 32-bit number holds. -/
def boundedText : Json := .obj [("maxLength", .num (2 ^ 32))]

/-- It is passed by every text. -/
theorem boundedText_passes (text : String) (calls : ℕ) (path : String) (composite : Bool)
    (st : State) : (plainAjv .null).validate (calls + 1) boundedText path composite (.str text) st
      = some ⟨true, .str text, st⟩ := by
  have hlimit : (plainAjv .null).textLimit "maxLength" "more" (fun n limit => n > limit)
      [("maxLength", .num (2 ^ 32))] path text.length = pass := by
    have hmin : min text.length (2 ^ 32 - 1) ≤ 2 ^ 32 := by omega
    have hle : lengthNumber text.length ≤ 2 ^ 32 := by
      rw [lengthNumber]
      exact_mod_cast hmin
    exact if_neg (by simpa using hle)
  have hstring : (plainAjv .null).string [("maxLength", .num (2 ^ 32))] path (.str text) st
      = some ⟨true, .str text, st⟩ := by
    rw [Ajv.string]
    dsimp only [Json.asStr, Option.getD]
    rw [hlimit]
    rfl
  have huntyped : (plainAjv .null).untyped ((plainAjv .null).validate calls)
      [("maxLength", .num (2 ^ 32))] path composite (.str text) st
        = some ⟨true, .str text, st⟩ := rfl
  have hbody : (plainAjv .null).validate (calls + 1) boundedText path composite (.str text) st
      = (plainAjv .null).afterType ((plainAjv .null).validate calls)
          [("maxLength", .num (2 ^ 32))] [] false path composite st.errors.length (.str text) st :=
    rfl
  rw [hbody, Ajv.afterType, huntyped]
  dsimp only [bind, Option.bind]
  rw [if_pos ⟨rfl, rfl⟩, Ajv.groups, if_pos (by decide), Ajv.groups, if_neg (by decide)]
  dsimp only
  rw [if_pos (by rfl), if_neg (fun h => nomatch h.1), Ajv.group, hstring]
  dsimp only [bind, Option.bind]
  rw [if_pos ⟨rfl, rfl⟩, Ajv.groups, if_pos (by decide), Ajv.groups, if_pos (by decide), Ajv.groups]
  dsimp only
  rw [decide_eq_true rfl]

/-- A text of that many characters. -/
def letters (n : ℕ) : String := String.ofList (List.replicate n 'a')

theorem letters_length (n : ℕ) : (letters n).length = n := by
  rw [letters, String.length_ofList, List.length_replicate]

/-- **A text of more characters than the limit passes it**, where the limit is no 32-bit
number. -/
theorem long_text_passes :
    (plainAjv .null).coerce = false ∧ Ported (plainAjv .null) boundedText
      ∧ Distinct (.str (letters (2 ^ 32 + 1)))
      ∧ (∀ meaning : Meaning (plainAjv .null),
        ¬meaning.valid boundedText (.str (letters (2 ^ 32 + 1))))
      ∧ ∀ calls path composite st, (plainAjv .null).validate (calls + 1) boundedText path composite
          (.str (letters (2 ^ 32 + 1))) st = some ⟨true, .str (letters (2 ^ 32 + 1)), st⟩ := by
  have hobject : ∀ fields, Json.obj fields ∈ parts boundedText →
      fields = [("maxLength", .num (2 ^ 32))] := by
    intro fields h
    obtain h | h := List.mem_cons.mp h
    · cases h
      rfl
    · cases List.mem_singleton.mp h
  have hported : Ported (plainAjv .null) boundedText := by
    have hparts : ∀ sub, Reaches (plainAjv .null) boundedText sub →
        sub ∈ parts boundedText ∨ sub = .null :=
      fun sub h => (part_of_reaches h).imp_right List.mem_singleton.mp
    refine ⟨fun fields h => ?_, noCycle_of_rank (fun _ => 0) fun sub h => ?_, fun fields h => ?_,
      fun fields h => ?_⟩
    · obtain h | h := hparts _ h
      · rw [hobject fields h]
        exact ⟨rfl, rfl, rfl, List.forall_mem_nil _⟩
      · cases h
    · have hnone : sameSchemas (plainAjv .null) sub = [] := by
        obtain h | rfl := hparts sub h
        · cases sub with
          | obj fields =>
            rw [hobject fields h]
            rfl
          | null | bool _ | num _ | str _ | arr _ => rfl
        · rfl
      rw [hnone]
      exact List.forall_mem_nil _
    · rw [hobject fields h]
      exact List.nodup_singleton _
    · cases List.mem_singleton.mp h
  generalize htext : letters (2 ^ 32 + 1) = text
  have hlength : text.length = 2 ^ 32 + 1 := htext ▸ letters_length _
  refine ⟨rfl, hported, fun fields h => ?_, fun meaning hvalid => ?_, boundedText_passes text⟩
  · cases List.mem_singleton.mp h
  · have hacc := acc_calls hported.noCycle (.str text) boundedText ReflTransGen.refl
    have hclause : ObjectClause (plainAjv .null) meaning.valid _ _ :=
      (meaning.law _ _ hacc).mp hvalid
    have hlimit := hclause.maxLength (2 ^ 32) text rfl rfl
    rw [hlength] at hlimit
    norm_num at hlimit

end OpenApi

end Foreseerr

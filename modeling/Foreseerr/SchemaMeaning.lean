import Foreseerr.Ajv
import Mathlib.Data.Fintype.Card
import Mathlib.Data.Set.Finite.List
import Mathlib.Logic.Relation

/-!
# What a schema means

The meaning of the ported keywords, with no order of evaluation, no groups and no errors: a
value is valid by a schema when every keyword of it holds, each of values of its own type
only (`ObjectClause`). A keyword that applies a schema to the same value, or to a part of it,
refers to the meaning itself, so a meaning is any relation that obeys this law wherever the
unfolding ends (`Meaning`).

There is one (`Meaning.exists_law`), and the unfolding ends for every value when no schema
comes back to itself without descending into the value (`acc_calls`): the schemas that can
be reached are parts of two documents, so that a chain of them cannot go on for ever.
-/

namespace Foreseerr

namespace OpenApi

open Json Relation

/-! ## Parts of a document -/

mutual

/-- A document and everything in it. -/
def parts : Json → List Json
  | .null => [.null]
  | .bool b => [.bool b]
  | .num n => [.num n]
  | .str s => [.str s]
  | .arr items => .arr items :: partsOfItems items
  | .obj fields => .obj fields :: partsOfFields fields

def partsOfItems : List Json → List Json
  | [] => []
  | item :: items => parts item ++ partsOfItems items

def partsOfFields : Fields → List Json
  | [] => []
  | (_, value) :: fields => parts value ++ partsOfFields fields

end

theorem mem_parts_self (json : Json) : json ∈ parts json := by
  cases json <;> simp [parts]

theorem mem_partsOfItems {part item : Json} {items : List Json} (hitem : item ∈ items)
    (h : part ∈ parts item) : part ∈ partsOfItems items := by
  induction items with
  | nil => exact absurd hitem List.not_mem_nil
  | cons first items ih =>
    rw [partsOfItems, List.mem_append]
    obtain rfl | hitem := List.mem_cons.mp hitem
    · exact .inl h
    · exact .inr (ih hitem)

theorem mem_partsOfFields {part : Json} {field : String × Json} {fields : Fields}
    (hfield : field ∈ fields) (h : part ∈ parts field.2) : part ∈ partsOfFields fields := by
  induction fields with
  | nil => exact absurd hfield List.not_mem_nil
  | cons first fields ih =>
    rw [partsOfFields, List.mem_append]
    obtain rfl | hfield := List.mem_cons.mp hfield
    · exact .inl h
    · exact .inr (ih hfield)

/-- What stands directly in a value. -/
def innerValues : Json → List Json
  | .arr items => items
  | .obj fields => fields.map Prod.snd
  | _ => []

theorem mem_parts_of_inner {part inner json : Json} (hinner : inner ∈ innerValues json)
    (h : part ∈ parts inner) : part ∈ parts json := by
  cases json with
  | arr items => exact List.mem_cons_of_mem _ (mem_partsOfItems hinner h)
  | obj fields =>
    obtain ⟨field, hfield, rfl⟩ := List.mem_map.mp hinner
    exact List.mem_cons_of_mem _ (mem_partsOfFields hfield h)
  | null | bool _ | num _ | str _ => exact absurd hinner List.not_mem_nil

mutual

theorem parts_trans {part inner : Json} : ∀ {json : Json}, inner ∈ parts json →
    part ∈ parts inner → part ∈ parts json
  | .null, hinner, h | .bool _, hinner, h | .num _, hinner, h | .str _, hinner, h => by
    rw [parts, List.mem_singleton] at hinner
    rwa [hinner] at h
  | .arr items, hinner, h => by
    obtain rfl | hinner := List.mem_cons.mp hinner
    · exact h
    · exact List.mem_cons_of_mem _ (partsOfItems_trans hinner h)
  | .obj fields, hinner, h => by
    obtain rfl | hinner := List.mem_cons.mp hinner
    · exact h
    · exact List.mem_cons_of_mem _ (partsOfFields_trans hinner h)

theorem partsOfItems_trans {part inner : Json} : ∀ {items : List Json},
    inner ∈ partsOfItems items → part ∈ parts inner → part ∈ partsOfItems items
  | [], hinner, _ => absurd hinner List.not_mem_nil
  | _ :: _, hinner, h => List.mem_append.mpr <|
    (List.mem_append.mp hinner).imp (fun hinner => parts_trans hinner h)
      fun hinner => partsOfItems_trans hinner h

theorem partsOfFields_trans {part inner : Json} : ∀ {fields : Fields},
    inner ∈ partsOfFields fields → part ∈ parts inner → part ∈ partsOfFields fields
  | [], hinner, _ => absurd hinner List.not_mem_nil
  | _ :: _, hinner, h => List.mem_append.mpr <|
    (List.mem_append.mp hinner).imp (fun hinner => parts_trans hinner h)
      fun hinner => partsOfFields_trans hinner h

end

/-- A part is smaller. -/
theorem sizeOf_inner {inner json : Json} (h : inner ∈ innerValues json) :
    sizeOf inner < sizeOf json := by
  cases json with
  | arr items =>
    have hlt : sizeOf inner < sizeOf items := List.sizeOf_lt_of_mem h
    rw [Json.arr.sizeOf_spec]
    omega
  | obj fields =>
    obtain ⟨field, hfield, rfl⟩ := List.mem_map.mp h
    have hlt := List.sizeOf_lt_of_mem hfield
    obtain ⟨key, value⟩ := field
    rw [Prod.mk.sizeOf_spec] at hlt
    rw [Json.obj.sizeOf_spec]
    dsimp only
    omega
  | null | bool _ | num _ | str _ => exact absurd h List.not_mem_nil

theorem mem_of_getField {key : String} {fields : Fields} {value : Json}
    (h : getField key fields = some value) : (key, value) ∈ fields := by
  induction fields with
  | nil => cases h
  | cons field fields ih =>
    rw [getField_cons] at h
    split at h
    · next hkey =>
      cases h
      rw [← hkey]
      exact List.mem_cons_self
    · exact List.mem_cons_of_mem _ (ih h)

theorem inner_of_getField {key : String} {fields : Fields} {value : Json}
    (h : getField key fields = some value) : value ∈ innerValues (.obj fields) :=
  List.mem_map_of_mem (mem_of_getField h)

theorem part_of_getField {key : String} {fields : Fields} {value : Json}
    (h : getField key fields = some value) : value ∈ parts (.obj fields) :=
  mem_parts_of_inner (inner_of_getField h) (mem_parts_self value)

/-- A pointer leads into its document. -/
theorem part_of_pointer {doc value : Json} {path : List Char}
    (h : Pointer.pointer doc path = some value) : value ∈ parts doc := by
  have hchild : ∀ {target : Json} {token : List Char} {value : Json},
      Pointer.child target token = some value → value ∈ parts target := by
    intro target token value h
    cases target with
    | obj fields => exact part_of_getField h
    | arr items =>
      obtain ⟨i, _, hi⟩ := Option.bind_eq_some_iff.mp h
      exact mem_parts_of_inner (List.mem_of_getElem? hi) (mem_parts_self value)
    | null | bool _ | num _ | str _ => cases h
  rw [Pointer.pointer.eq_def] at h
  split at h
  · cases h
    exact mem_parts_self doc
  · next path =>
    generalize path.splitOn '/' = tokens at h
    induction tokens generalizing doc with
    | nil =>
      cases h
      exact mem_parts_self value
    | cons token tokens ih =>
      rw [List.foldlM_cons] at h
      obtain ⟨next, hnext, h⟩ := Option.bind_eq_some_iff.mp h
      exact parts_trans (hchild hnext) (ih h)
  · cases h

/-! ## The meaning of the keywords -/

/-- A value is of a type. An integer is a number without a fraction. -/
inductive OfType : String → Json → Prop
  | null : OfType "null" .null
  | boolean (b : Bool) : OfType "boolean" (.bool b)
  | number (n : ℚ) : OfType "number" (.num n)
  | integer (n : ℚ) (h : n.den = 1) : OfType "integer" (.num n)
  | string (s : String) : OfType "string" (.str s)
  | array (items : List Json) : OfType "array" (.arr items)
  | object (fields : Fields) : OfType "object" (.obj fields)

/-- Two values are equal as JSON: the order of an object's fields does not matter. -/
inductive Equal : Json → Json → Prop
  | null : Equal .null .null
  | bool (b : Bool) : Equal (.bool b) (.bool b)
  | num (n : ℚ) : Equal (.num n) (.num n)
  | str (s : String) : Equal (.str s) (.str s)
  | arr {a b : List Json} (hlength : a.length = b.length)
      (hitems : ∀ (i : ℕ) x y, a[i]? = some x → b[i]? = some y → Equal x y) :
      Equal (.arr a) (.arr b)
  | obj {a b : Fields} (hkeys : ∀ key, hasKey key a = hasKey key b)
      (hfields : ∀ key x y, getField key a = some x → getField key b = some y → Equal x y) :
      Equal (.obj a) (.obj b)

/-- `nullable: true`. -/
def Nullable (fields : Fields) : Prop := getField "nullable" fields = some (.bool true)

/-- One element of a list is so and no other. -/
def OneOnly {α : Type*} (P : α → Prop) (l : List α) : Prop :=
  ∃ before a after, l = before ++ a :: after ∧ P a ∧ ∀ b ∈ before ++ after, ¬P b

variable {ajv : Ajv} {V W : Json → Json → Prop} {fields : Fields} {value : Json}

/-- Every keyword of an object schema holds of a value, where `V` says what is valid by the
schemas in it. -/
structure ObjectClause (ajv : Ajv) (V : Json → Json → Prop) (fields : Fields) (value : Json) :
    Prop where
  typeName : ∀ name, getField "type" fields = some (.str name) →
    OfType name value ∨ Nullable fields ∧ value = .null
  typeNames : ∀ names, getField "type" fields = some (.arr names) → names ≠ [] →
    (∃ name, .str name ∈ names ∧ OfType name value) ∨ Nullable fields ∧ value = .null
  const : ∀ expected, getField "const" fields = some expected → Equal value expected
  enum : ∀ values, getField "enum" fields = some (.arr values) →
    ∃ allowed ∈ values, Equal value allowed
  ref : ∀ reference target, getField "$ref" fields = some reference →
    ajv.target reference = some target → V target value
  anyOf : ∀ branches, getField "anyOf" fields = some (.arr branches) →
    ∃ branch ∈ branches, V branch value
  oneOf : ∀ branches, getField "oneOf" fields = some (.arr branches) →
    OneOnly (V · value) branches
  allOf : ∀ branches, getField "allOf" fields = some (.arr branches) →
    ∀ branch ∈ branches, V branch value
  /-- Nothing is valid that may only be read. -/
  readOnly : ∀ flag, getField "readOnly" fields = some flag → flag.truthy = false
  maximum : ∀ limit n, getField "maximum" fields = some (.num limit) → value = .num n → n ≤ limit
  minimum : ∀ limit n, getField "minimum" fields = some (.num limit) → value = .num n → limit ≤ n
  maxLength : ∀ limit text, getField "maxLength" fields = some (.num limit) →
    value = .str text → (text.length : ℚ) ≤ limit
  minLength : ∀ limit text, getField "minLength" fields = some (.num limit) →
    value = .str text → limit ≤ (text.length : ℚ)
  maxItems : ∀ limit items, getField "maxItems" fields = some (.num limit) →
    value = .arr items → (items.length : ℚ) ≤ limit
  minItems : ∀ limit items, getField "minItems" fields = some (.num limit) →
    value = .arr items → limit ≤ (items.length : ℚ)
  items : ∀ sub elements, getField "items" fields = some sub → value = .arr elements →
    ∀ element ∈ elements, V sub element
  required : ∀ names map, getField "required" fields = some (.arr names) → value = .obj map →
    ∀ name ∈ names, hasKey (name.asStr.getD "") map = true
  /-- Of the properties that are not described. -/
  additionalProperties : ∀ sub map, getField "additionalProperties" fields = some sub →
    value = .obj map → ∀ key part, getField key map = some part →
      hasKey key (Ajv.propertiesOf fields) = false → V sub part
  properties : ∀ map, value = .obj map → ∀ property ∈ Ajv.propertiesOf fields,
    ∀ part, getField property.1 map = some part → V property.2 part

/-- A schema holds of a value, where `V` says what is valid by the schemas in it. What is
neither an object nor a flag describes nothing. -/
def Clause (ajv : Ajv) (V : Json → Json → Prop) : Json → Json → Prop
  | .bool b, _ => b = true
  | .obj fields, value => ObjectClause ajv V fields value
  | _, _ => True

/-- The branches of a composite keyword. -/
def branchesOf (key : String) (fields : Fields) : List Json :=
  ((getField key fields).bind Json.asArray).getD []

/-- The schemas that a schema applies to the same value. -/
def sameSchemas (ajv : Ajv) : Json → List Json
  | .obj fields =>
    ((getField "$ref" fields).bind ajv.target).toList ++ branchesOf "anyOf" fields
      ++ branchesOf "oneOf" fields ++ branchesOf "allOf" fields
  | _ => []

/-- The schemas that a schema applies to parts of the value. -/
def innerSchemas : Json → List Json
  | .obj fields =>
    (getField "items" fields).toList ++ (getField "additionalProperties" fields).toList
      ++ (Ajv.propertiesOf fields).map Prod.snd
  | _ => []

/-- The meaning of one schema for one value refers to that of another. -/
inductive Calls (ajv : Ajv) : Json × Json → Json × Json → Prop
  | same {sub schema value : Json} (h : sub ∈ sameSchemas ajv schema) :
      Calls ajv (sub, value) (schema, value)
  | inner {sub schema part value : Json} (h : sub ∈ innerSchemas schema)
      (hpart : part ∈ innerValues value) : Calls ajv (sub, part) (schema, value)

/-- **What is valid**: a relation that obeys the keywords wherever their unfolding ends. -/
structure Meaning (ajv : Ajv) where
  valid : Json → Json → Prop
  law : ∀ schema value, Acc (Calls ajv) (schema, value) →
    (valid schema value ↔ Clause ajv valid schema value)

/-! ## There is a meaning -/

theorem mem_branchesOf {key : String} {branches : List Json} {branch : Json}
    (h : getField key fields = some (.arr branches)) (hmem : branch ∈ branches) :
    branch ∈ branchesOf key fields := by
  rw [branchesOf, h]
  exact hmem

theorem calls_ref {reference target : Json} (h : getField "$ref" fields = some reference)
    (htarget : ajv.target reference = some target) :
    Calls ajv (target, value) (.obj fields, value) := by
  refine .same ?_
  rw [sameSchemas, h]
  simp [htarget]

theorem calls_anyOf {branch : Json} (h : branch ∈ branchesOf "anyOf" fields) :
    Calls ajv (branch, value) (.obj fields, value) :=
  .same (by simp [sameSchemas, h])

theorem calls_oneOf {branch : Json} (h : branch ∈ branchesOf "oneOf" fields) :
    Calls ajv (branch, value) (.obj fields, value) :=
  .same (by simp [sameSchemas, h])

theorem calls_allOf {branch : Json} (h : branch ∈ branchesOf "allOf" fields) :
    Calls ajv (branch, value) (.obj fields, value) :=
  .same (by simp [sameSchemas, h])

theorem calls_items {sub element : Json} {elements : List Json}
    (h : getField "items" fields = some sub) (hmem : element ∈ elements) :
    Calls ajv (sub, element) (.obj fields, .arr elements) :=
  .inner (by simp [innerSchemas, h]) hmem

theorem calls_additional {sub part : Json} {map : Fields} {key : String}
    (h : getField "additionalProperties" fields = some sub) (hpart : getField key map = some part) :
    Calls ajv (sub, part) (.obj fields, .obj map) :=
  .inner (by simp [innerSchemas, h]) (inner_of_getField hpart)

theorem calls_property {property : String × Json} {part : Json} {map : Fields} {key : String}
    (h : property ∈ Ajv.propertiesOf fields) (hpart : getField key map = some part) :
    Calls ajv (property.2, part) (.obj fields, .obj map) :=
  .inner (List.mem_append_right _ (List.mem_map_of_mem h)) (inner_of_getField hpart)

theorem OneOnly.congr {α : Type*} {P Q : α → Prop} {l : List α} (h : ∀ a ∈ l, P a ↔ Q a)
    (hP : OneOnly P l) : OneOnly Q l := by
  obtain ⟨before, a, after, rfl, ha, hothers⟩ := hP
  refine ⟨before, a, after, rfl, (h a (by simp)).mp ha, fun b hb hQ => hothers b hb ?_⟩
  refine (h b ?_).mpr hQ
  obtain hb | hb := List.mem_append.mp hb
  · exact List.mem_append_left _ hb
  · exact List.mem_append_right _ (List.mem_cons_of_mem _ hb)

/-- The keywords look no further than to the schemas and parts they refer to. -/
theorem ObjectClause.congr
    (hVW : ∀ sub part, Calls ajv (sub, part) (.obj fields, value) → (V sub part ↔ W sub part))
    (h : ObjectClause ajv V fields value) : ObjectClause ajv W fields value where
  typeName := h.typeName
  typeNames := h.typeNames
  const := h.const
  enum := h.enum
  ref reference target href htarget :=
    (hVW _ _ (calls_ref href htarget)).mp (h.ref reference target href htarget)
  anyOf branches hbranches := by
    obtain ⟨branch, hmem, hbranch⟩ := h.anyOf branches hbranches
    exact ⟨branch, hmem, (hVW _ _ (calls_anyOf (mem_branchesOf hbranches hmem))).mp hbranch⟩
  oneOf branches hbranches :=
    (h.oneOf branches hbranches).congr fun _ hmem =>
      hVW _ _ (calls_oneOf (mem_branchesOf hbranches hmem))
  allOf branches hbranches branch hmem :=
    (hVW _ _ (calls_allOf (mem_branchesOf hbranches hmem))).mp (h.allOf branches hbranches _ hmem)
  readOnly := h.readOnly
  maximum := h.maximum
  minimum := h.minimum
  maxLength := h.maxLength
  minLength := h.minLength
  maxItems := h.maxItems
  minItems := h.minItems
  items sub elements hsub hvalue element hmem := by
    subst hvalue
    exact (hVW _ _ (calls_items hsub hmem)).mp (h.items sub elements hsub rfl element hmem)
  required := h.required
  additionalProperties sub map hsub hvalue key part hpart hkey := by
    subst hvalue
    exact (hVW _ _ (calls_additional hsub hpart)).mp
      (h.additionalProperties sub map hsub rfl key part hpart hkey)
  properties map hvalue property hmem part hpart := by
    subst hvalue
    exact (hVW _ _ (calls_property hmem hpart)).mp (h.properties map rfl property hmem part hpart)

theorem Clause.congr {schema : Json}
    (hVW : ∀ sub part, Calls ajv (sub, part) (schema, value) → (V sub part ↔ W sub part)) :
    Clause ajv V schema value ↔ Clause ajv W schema value := by
  cases schema with
  | obj fields =>
    exact ⟨ObjectClause.congr hVW,
      ObjectClause.congr fun sub part hcall => (hVW sub part hcall).symm⟩
  | null | bool _ | num _ | str _ | arr _ => exact Iff.rfl

/-- The meaning unfolded along the schemas that are referred to. -/
def unfolded (ajv : Ajv) (schema value : Json) : Prop :=
  ∃ h : Acc (Calls ajv) (schema, value),
    WellFounded.fixF (C := fun _ => Prop) (fun pair below =>
      Clause ajv (fun sub part => ∃ hcall : Calls ajv (sub, part) pair, below (sub, part) hcall)
        pair.1 pair.2) (schema, value) h

/-- **There is a meaning.** -/
theorem Meaning.exists_law (ajv : Ajv) : Nonempty (Meaning ajv) := by
  refine ⟨⟨unfolded ajv, fun schema value hacc => ?_⟩⟩
  have hunfold : unfolded ajv schema value ↔ Clause ajv (fun sub part =>
      ∃ _ : Calls ajv (sub, part) (schema, value), unfolded ajv sub part) schema value := by
    rw [unfolded, exists_prop_of_true hacc, WellFounded.fixF_eq]
    refine Clause.congr fun sub part hcall => ?_
    rw [exists_prop_of_true hcall, exists_prop_of_true hcall, unfolded,
      exists_prop_of_true (hacc.inv hcall)]
  refine hunfold.trans (Clause.congr fun sub part hcall => ?_)
  exact exists_prop_of_true hcall

/-! ## The unfolding ends -/

/-- A schema applies another to the same value. -/
def SameStep (ajv : Ajv) (sub schema : Json) : Prop := sub ∈ sameSchemas ajv schema

/-- A schema can be reached from another. -/
def Reaches (ajv : Ajv) : Json → Json → Prop :=
  ReflTransGen fun schema sub => sub ∈ sameSchemas ajv schema ∨ sub ∈ innerSchemas schema

/-- No schema that can be reached comes back to itself without descending into the value. -/
def NoCycle (ajv : Ajv) (schema : Json) : Prop :=
  ∀ sub, Reaches ajv schema sub → ¬TransGen (SameStep ajv) sub sub

theorem part_of_branchesOf {key : String} {branch : Json} (h : branch ∈ branchesOf key fields) :
    branch ∈ parts (.obj fields) := by
  rw [branchesOf] at h
  cases hfield : getField key fields with
  | none => rw [hfield] at h; exact absurd h List.not_mem_nil
  | some keyword =>
    rw [hfield] at h
    cases keyword with
    | arr branches =>
      have hmem : branch ∈ innerValues (.arr branches) := h
      have hbranch := mem_parts_of_inner hmem (mem_parts_self branch)
      exact parts_trans (part_of_getField hfield) hbranch
    | null | bool _ | num _ | str _ | obj _ => exact absurd h List.not_mem_nil

theorem part_of_sameSchemas {schema sub : Json} (h : sub ∈ sameSchemas ajv schema) :
    sub ∈ parts schema ∨ sub ∈ parts ajv.doc := by
  cases schema with
  | obj fields =>
    simp only [sameSchemas, List.mem_append] at h
    obtain ((h | h) | h) | h := h
    · right
      obtain ⟨reference, _, htarget⟩ := Option.bind_eq_some_iff.mp (Option.mem_toList.mp h)
      rw [Ajv.target.eq_def] at htarget
      split at htarget
      · split at htarget
        · exact part_of_pointer htarget
        · cases htarget
      · cases htarget
    · exact .inl (part_of_branchesOf h)
    · exact .inl (part_of_branchesOf h)
    · exact .inl (part_of_branchesOf h)
  | null | bool _ | num _ | str _ | arr _ => exact absurd h List.not_mem_nil

theorem part_of_innerSchemas {schema sub : Json} (h : sub ∈ innerSchemas schema) :
    sub ∈ parts schema := by
  cases schema with
  | obj fields =>
    simp only [innerSchemas, List.mem_append] at h
    obtain (h | h) | h := h
    · exact part_of_getField (Option.mem_toList.mp h)
    · exact part_of_getField (Option.mem_toList.mp h)
    · obtain ⟨property, hproperty, rfl⟩ := List.mem_map.mp h
      rw [Ajv.propertiesOf] at hproperty
      cases hfield : getField "properties" fields with
      | none => rw [hfield] at hproperty; exact absurd hproperty List.not_mem_nil
      | some keyword =>
        rw [hfield] at hproperty
        cases keyword with
        | obj properties =>
          have hsub : property.2 ∈ innerValues (.obj properties) := List.mem_map_of_mem hproperty
          exact parts_trans (part_of_getField hfield) (mem_parts_of_inner hsub (mem_parts_self _))
        | null | bool _ | num _ | str _ | arr _ => exact absurd hproperty List.not_mem_nil
  | null | bool _ | num _ | str _ | arr _ => exact absurd h List.not_mem_nil

/-- Every schema that can be reached is a part of the schema or of the document. -/
theorem part_of_reaches {schema sub : Json} (h : Reaches ajv schema sub) :
    sub ∈ parts schema ∨ sub ∈ parts ajv.doc := by
  induction h with
  | refl => exact .inl (mem_parts_self schema)
  | tail _ hstep ih =>
    have hnext := hstep.elim part_of_sameSchemas fun hinner => .inl (part_of_innerSchemas hinner)
    obtain hnext | hnext := hnext
    · exact ih.imp (fun h => parts_trans h hnext) fun h => parts_trans h hnext
    · exact .inr hnext

theorem Reaches.same {schema sub next : Json} (h : Reaches ajv schema sub)
    (hstep : next ∈ sameSchemas ajv sub) : Reaches ajv schema next :=
  ReflTransGen.tail h (.inl hstep)

theorem Reaches.inner {schema sub next : Json} (h : Reaches ajv schema sub)
    (hstep : next ∈ innerSchemas sub) : Reaches ajv schema next :=
  ReflTransGen.tail h (.inr hstep)

/-- Finitely many schemas without a cycle make no endless chain. -/
theorem acc_same {schema sub : Json} (hcycle : NoCycle ajv schema)
    (h : Reaches ajv schema sub) : Acc (SameStep ajv) sub := by
  have hfinite : Finite { s // Reaches ajv schema s } := by
    refine Set.Finite.subset (List.finite_toSet (parts schema ++ parts ajv.doc)) fun s hs => ?_
    exact List.mem_append.mpr (part_of_reaches hs)
  let step : { s // Reaches ajv schema s } → { s // Reaches ajv schema s } → Prop :=
    fun a b => SameStep ajv a.1 b.1
  have hirrefl : Std.Irrefl (TransGen step) := by
    refine ⟨fun a ha => hcycle a.1 a.2 ?_⟩
    exact TransGen.lift (p := SameStep ajv) Subtype.val (fun _ _ hstep => hstep) a a ha
  have hwf : WellFounded (TransGen step) := Finite.wellFounded_of_trans_of_irrefl _
  have hacc : ∀ a : { s // Reaches ajv schema s }, Acc (SameStep ajv) a.1 := fun a =>
    hwf.induction a fun a ih =>
      Acc.intro a.1 fun s hs => ih ⟨s, a.2.same hs⟩ (TransGen.single hs)
  exact hacc ⟨sub, h⟩

/-- **The unfolding ends for every value.** -/
theorem acc_calls {schema : Json} (hcycle : NoCycle ajv schema) (value sub : Json)
    (h : Reaches ajv schema sub) : Acc (Calls ajv) (sub, value) := by
  induction hsize : sizeOf value using Nat.strong_induction_on generalizing value sub with
  | _ size ihsize =>
    have hsame := acc_same hcycle h
    induction hsame with
    | intro sub _ ihsame =>
      refine Acc.intro _ fun pair hcall => ?_
      cases hcall with
      | same hstep => exact ihsame _ hstep (h.same hstep)
      | inner hstep hpart =>
        exact ihsize _ (hsize ▸ sizeOf_inner hpart) _ _ (h.inner hstep) rfl

end OpenApi

end Foreseerr

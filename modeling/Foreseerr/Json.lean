import Mathlib.Algebra.Group.Int.Defs
import Mathlib.Data.Rat.Defs

/-!
# JSON values

A JSON document with its objects' fields in order, as a parser that keeps
the order gives it: reading a field, a path of fields, writing a field, and
the **deep merge** of one document over another, in which objects merge
field by field and everything else replaces.
-/

/-- A JSON value. -/
inductive Json
  | null
  | bool (b : Bool)
  | num (n : ℚ)
  | str (s : String)
  | arr (items : List Json)
  | obj (fields : List (String × Json))
deriving Repr

namespace Json

def isObject : Json → Bool
  | obj _ => true
  | _ => false

def isNull : Json → Bool
  | null => true
  | _ => false

def asStr : Json → Option String
  | str s => some s
  | _ => none

/-- The fields of an object. -/
def asObject : Json → Option (List (String × Json))
  | obj fields => some fields
  | _ => none

/-- The items of an array. -/
def asArray : Json → Option (List Json)
  | arr items => some items
  | _ => none

/-- `as_i64`. -/
def asI64 : Json → Option Int
  | num n => if n.den = 1 ∧ -2 ^ 63 ≤ n.num ∧ n.num < 2 ^ 63 then some n.num else none
  | _ => none

/-- JavaScript's truth of a value. -/
def truthy : Json → Bool
  | .null => false
  | .bool b => b
  | .num n => n ≠ 0
  | .str s => s ≠ ""
  | .arr _ => true
  | .obj _ => true

/-- The value of a key. -/
def getField (key : String) (fields : List (String × Json)) : Option Json :=
  (fields.find? fun field => field.1 == key).map Prod.snd

/-- Set a key's value where it stands, or add the key at the end. -/
def setField (key : String) (value : Json) : List (String × Json) → List (String × Json)
  | [] => [(key, value)]
  | field :: rest =>
    if field.1 == key then (key, value) :: rest else field :: setField key value rest

/-- Remove a key. -/
def removeField (key : String) (fields : List (String × Json)) : List (String × Json) :=
  fields.filter fun field => field.1 != key

/-- A field of an object. -/
def get (key : String) : Json → Option Json
  | obj fields => getField key fields
  | _ => none

/-- The value at a path of fields. -/
def pointer (path : List String) (doc : Json) : Option Json :=
  path.foldlM (fun value key => value.get key) doc

theorem getField_cons (key : String) (field : String × Json) (fields : List (String × Json)) :
    getField key (field :: fields)
      = if field.1 = key then some field.2 else getField key fields := by
  by_cases hkey : field.1 = key <;> simp [getField, hkey]

theorem getField_setField_self (key : String) (value : Json) (fields : List (String × Json)) :
    getField key (setField key value fields) = some value := by
  induction fields with
  | nil => simp [setField, getField]
  | cons field fields ih =>
    unfold setField
    split
    · simp [getField]
    · rename_i hne
      rw [getField_cons, if_neg (by simpa using hne), ih]

theorem getField_setField_of_ne {key other : String} (h : other ≠ key) (value : Json)
    (fields : List (String × Json)) :
    getField other (setField key value fields) = getField other fields := by
  induction fields with
  | nil => simp [setField, getField, h.symm]
  | cons field fields ih =>
    unfold setField
    split
    · rename_i heq
      rw [beq_iff_eq] at heq
      rw [getField_cons, getField_cons, if_neg (Ne.symm h), heq, if_neg (Ne.symm h)]
    · rw [getField_cons, getField_cons, ih]

/-- Set a field of the object that is another field of the document, where
there is such an object. -/
def setIn (doc : Json) (outer key : String) (value : Json) : Json :=
  match doc with
  | obj fields =>
    match getField outer fields with
    | some (obj inner) => obj (setField outer (obj (setField key value inner)) fields)
    | _ => doc
  | _ => doc

mutual

/-- **The deep merge** of a document over another. -/
def merge : Json → Json → Json
  | obj target, obj source => obj (mergeFields target source)
  | null, source => source
  | bool _, source => source
  | num _, source => source
  | str _, source => source
  | arr _, source => source
  | obj _, source => source

/-- The fields of an object merged one by one over those of another. -/
def mergeFields : List (String × Json) → List (String × Json) → List (String × Json)
  | target, [] => target
  | target, (key, value) :: rest =>
    match getField key target with
    | some existing =>
      mergeFields (setField key
        (if existing.isObject && value.isObject then merge existing value else value) target) rest
    | none => mergeFields (setField key value target) rest

end

example : merge (obj [("a", null), ("b", obj [("c", bool true)])])
      (obj [("b", obj [("d", null)]), ("a", bool false)])
    = obj [("a", bool false), ("b", obj [("c", bool true), ("d", null)])] := rfl

/-! ## Equality -/

mutual

/-- Two documents are equal. -/
def same : Json → Json → Bool
  | null, null => true
  | bool a, bool b => a == b
  | num a, num b => a == b
  | str a, str b => a == b
  | arr a, arr b => sameItems a b
  | obj a, obj b => sameFields a b
  | _, _ => false

def sameItems : List Json → List Json → Bool
  | [], [] => true
  | a :: as, b :: bs => same a b && sameItems as bs
  | _, _ => false

def sameFields : List (String × Json) → List (String × Json) → Bool
  | [], [] => true
  | (key, a) :: as, (key', b) :: bs => key == key' && (same a b && sameFields as bs)
  | _, _ => false

end

mutual

theorem eq_of_same : ∀ {a b : Json}, same a b = true → a = b := by
  intro a b h
  cases a <;> cases b <;> simp only [same, Bool.false_eq_true, beq_iff_eq] at h
  · rfl
  · rw [h]
  · rw [h]
  · rw [h]
  · rw [eq_of_sameItems h]
  · rw [eq_of_sameFields h]

theorem eq_of_sameItems : ∀ {as bs : List Json}, sameItems as bs = true → as = bs
  | [], [], _ => rfl
  | a :: as, b :: bs, h => by
    obtain ⟨hhead, htail⟩ := Bool.and_eq_true_iff.1 h
    rw [eq_of_same hhead, eq_of_sameItems htail]

theorem eq_of_sameFields : ∀ {as bs : List (String × Json)}, sameFields as bs = true → as = bs
  | [], [], _ => rfl
  | (key, a) :: as, (key', b) :: bs, h => by
    obtain ⟨hkey, h⟩ := Bool.and_eq_true_iff.1 h
    obtain ⟨hhead, htail⟩ := Bool.and_eq_true_iff.1 h
    rw [beq_iff_eq.1 hkey, eq_of_same hhead, eq_of_sameFields htail]

end

mutual

theorem same_self : ∀ a : Json, same a a = true
  | null => rfl
  | bool _ | num _ | str _ => by simp [same]
  | arr items => sameItems_self items
  | obj fields => sameFields_self fields

theorem sameItems_self : ∀ items : List Json, sameItems items items = true
  | [] => rfl
  | a :: items => by rw [sameItems, same_self a, sameItems_self items, Bool.and_self]

theorem sameFields_self : ∀ fields : List (String × Json), sameFields fields fields = true
  | [] => rfl
  | (key, a) :: fields => by simp [sameFields, same_self a, sameFields_self fields]

end

instance : DecidableEq Json := fun a b =>
  decidable_of_iff (same a b = true) ⟨eq_of_same, fun h => h ▸ same_self a⟩

end Json

import Foreseerr.JsText
import Mathlib.Algebra.Order.Ring.Rat
import Mathlib.Data.List.Sort

/-!
# Ajv's walk over a schema

`openapi/ajv.rs`: the interpreter that stands for the code Ajv compiles from a schema. It
walks the schema in the order of the compiled code and stops at the first keyword that
fails: the keywords of any type first, then those of numbers, texts, arrays and objects. A
type is checked at the start or left to the group of its own keywords, `anyOf` and `oneOf`
drop the errors of the branches that did not hold, and inside of their branches a type error
does not stop the keywords of any type.

The value is handed through every step, since a step may write a coerced value or a default
into it. References may lead back to a schema, so the walk is given a number of nested calls
and has no result where they do not suffice.
-/

namespace Foreseerr

open Json

/-! ## Pointers -/

namespace Pointer

/-- `replace` of two characters by one. -/
def replacePair (first second by_ : Char) : List Char → List Char
  | c :: d :: text =>
    if c = first ∧ d = second then by_ :: replacePair first second by_ text
    else c :: replacePair first second by_ (d :: text)
  | text => text

/-- `parse_index`. -/
def parseIndex (token : List Char) : Option ℕ :=
  if token = [] ∨ (token.head? = some '0' ∧ token.length ≠ 1) then none
  else if areDigits token ∧ digitsValue 10 token < 2 ^ 64 then some (digitsValue 10 token)
  else none

/-- One step of `Value::pointer`. -/
def child (target : Json) (token : List Char) : Option Json :=
  match target with
  | .obj fields => getField (String.ofList token) fields
  | .arr items => (parseIndex token).bind fun i => items[i]?
  | _ => none

/-- `Value::pointer`. -/
def pointer (doc : Json) (path : List Char) : Option Json :=
  match path with
  | [] => some doc
  | '/' :: path =>
    (path.splitOn '/').foldlM (fun target token =>
      child target (replacePair '~' '0' '~' (replacePair '~' '1' '/' token))) doc
  | _ => none

end Pointer

namespace OpenApi

/-- One Ajv error, with what the validator's error mapping reads. -/
structure AjvError where
  instancePath : String
  keyword : String
  message : String
  missingProperty : Option String := none
  additionalProperty : Option String := none
  allowedValues : Option (List Json) := none
deriving DecidableEq

/-! ## Keywords -/

/-- `UNTYPED`. -/
def untypedKeywords : List String :=
  ["$comment", "$ref", "x-eov-type", "type", "nullable", "const", "enum", "not", "anyOf",
    "oneOf", "allOf", "if", "then", "else", "readOnly", "x-eov-req-serdes"]

/-- `NUMBER`. -/
def numberKeywords : List String :=
  ["maximum", "minimum", "exclusiveMaximum", "exclusiveMinimum", "multipleOf", "format"]

/-- `STRING`. -/
def stringKeywords : List String := ["maxLength", "minLength", "pattern", "format"]

/-- `ARRAY`. -/
def arrayKeywords : List String :=
  ["maxItems", "minItems", "additionalItems", "items", "uniqueItems", "contains"]

/-- `OBJECT`. -/
def objectKeywords : List String :=
  ["maxProperties", "minProperties", "required", "propertyNames", "additionalProperties",
    "dependencies", "properties", "patternProperties"]

/-- `UNSUPPORTED`: keywords that are not evaluated. -/
def unsupported : List String :=
  ["not", "if", "then", "else", "x-eov-req-serdes", "exclusiveMaximum", "exclusiveMinimum",
    "multipleOf", "uniqueItems", "contains", "maxProperties", "minProperties", "propertyNames",
    "dependencies"]

/-- `PROTOTYPE_NAMES`. -/
def prototypeNames : List String :=
  ["constructor", "hasOwnProperty", "isPrototypeOf", "propertyIsEnumerable", "toLocaleString",
    "toString", "valueOf", "__proto__", "__defineGetter__", "__defineSetter__",
    "__lookupGetter__", "__lookupSetter__"]

inductive Group
  | number
  | string
  | array
  | object
deriving DecidableEq

def Group.keywords : Group → List String
  | .number => numberKeywords
  | .string => stringKeywords
  | .array => arrayKeywords
  | .object => objectKeywords

def Group.name : Group → String
  | .number => "number"
  | .string => "string"
  | .array => "array"
  | .object => "object"

def Group.holds : Group → Json → Bool
  | .number, .num _ => true
  | .string, .str _ => true
  | .array, .arr _ => true
  | .object, .obj _ => true
  | _, _ => false

/-- `is_rule`. -/
def isRule (key : String) : Bool :=
  untypedKeywords.contains key || numberKeywords.contains key || stringKeywords.contains key
    || arrayKeywords.contains key || objectKeywords.contains key

/-- An object's fields. -/
abbrev Fields := List (String × Json)

/-- `contains_key`. -/
def hasKey (key : String) (fields : Fields) : Bool := (getField key fields).isSome

/-- `alwaysValidSchema`. -/
def alwaysValid : Json → Bool
  | .bool b => b
  | .obj fields => !fields.any fun field => isRule field.1
  | _ => true

/-- The keys that make a schema hold a reference. -/
def isRefKey (key : String) : Bool :=
  ["$ref", "$recursiveRef", "$recursiveAnchor", "$dynamicRef", "$dynamicAnchor"].contains key

mutual

/-- `has_ref`. -/
def hasRef : Json → Bool
  | .obj fields => hasRefFields fields
  | .arr items => hasRefItems items
  | _ => false

def hasRefItems : List Json → Bool
  | [] => false
  | item :: items => hasRef item || hasRefItems items

def hasRefFields : Fields → Bool
  | [] => false
  | (key, value) :: fields => isRefKey key || hasRef value || hasRefFields fields

end

/-- `getSchemaTypes`'s names. -/
def typeNames : List String :=
  ["string", "number", "integer", "boolean", "null", "object", "array"]

/-- A type's name, where it is one. -/
def knownType (name : String) : Option String :=
  if typeNames.contains name then some name else none

/-- The types that a schema declares; `none` where one is no type. -/
def declaredTypes (fields : Fields) : Option (List String) :=
  match getField "type" fields with
  | none => some []
  | some (.str name) => (knownType name).map fun name => [name]
  | some (.arr items) => items.mapM fun item => item.asStr.bind knownType
  | some _ => none

/-- `schema_types`: the declared types plus `null` for `nullable: true`; `none` where Ajv
throws at compile time. -/
def schemaTypes (fields : Fields) : Option (List String) := do
  let types ← declaredTypes fields
  let nullable := getField "nullable" fields
  if types.contains "null" then
    if nullable = some (.bool false) then none else some types
  else if types = [] ∧ nullable.isSome then none
  else if nullable = some (.bool true) then some (types ++ ["null"])
  else some types

/-- A group some keyword of which the schema has. -/
def Group.among (group : Group) (fields : Fields) : Bool :=
  group.keywords.any fun key => hasKey key fields

/-- `has_rules_for_type`. -/
def hasRulesForType (fields : Fields) (type : String) : Bool :=
  match type with
  | "number" => Group.number.among fields
  | "string" => Group.string.among fields
  | "array" => Group.array.among fields
  | "object" => Group.object.among fields
  | _ => false

/-- `has_type`: `checkDataType`. -/
def hasType (type : String) (data : Json) : Bool :=
  match type with
  | "null" => (data matches .null)
  | "array" => (data matches .arr _)
  | "object" => (data matches .obj _)
  | "number" => (data matches .num _)
  | "integer" =>
    match data with
    | .num n => n.den = 1
    | _ => false
  | "string" => (data matches .str _)
  | "boolean" => (data matches .bool _)
  | _ => false

mutual

/-- `js_equal`: `equal` and `===` for primitives. -/
def jsEqual : Json → Json → Bool
  | .null, .null => true
  | .bool a, .bool b => a == b
  | .num a, .num b => a == b
  | .str a, .str b => a == b
  | .arr a, .arr b => jsEqualItems a b
  | .obj a, .obj b => a.length == b.length && jsEqualFields a b
  | _, _ => false

/-- Arrays of one length with equal items. -/
def jsEqualItems : List Json → List Json → Bool
  | [], [] => true
  | a :: as, b :: bs => jsEqual a b && jsEqualItems as bs
  | _, _ => false

/-- Every field of an object equals the other's field of its key. -/
def jsEqualFields : Fields → Fields → Bool
  | [], _ => true
  | (key, a) :: fields, others =>
    (match getField key others with
      | some b => jsEqual a b
      | none => false)
      && jsEqualFields fields others

end

/-- `is_array_index`. -/
def isArrayIndex (key : String) : Bool :=
  (key = "0" ∨ (key.toList.head? ≠ some '0' ∧ key ≠ "")) ∧ areDigits key.toList
    ∧ digitsValue 10 key.toList < 2 ^ 32 - 1

/-- `js_keys`: `for (key in data)` order. -/
def jsKeys (fields : Fields) : List String :=
  let keys := fields.map Prod.fst
  (keys.filter isArrayIndex).insertionSort
      (fun a b => digitsValue 10 a.toList ≤ digitsValue 10 b.toList)
    ++ keys.filter fun key => !isArrayIndex key

/-- `escape_pointer`: a JSON Pointer segment. -/
def escapePointer (segment : String) : String :=
  String.ofList (segment.toList.flatMap fun c =>
    if c = '~' then ['~', '0'] else if c = '/' then ['~', '1'] else [c])

/-- The default of a property, assigned where the property is missing. -/
def assignDefault (map : Fields) (property : String × Json) : Fields :=
  match property.2.get "default" with
  | some value => if hasKey property.1 map then map else map ++ [(property.1, value)]
  | none => map

/-- `assign_defaults`. -/
def assignDefaults (fields : Fields) (data : Json) : Json :=
  match (getField "properties" fields).bind Json.asObject, data with
  | some properties, .obj map => .obj (properties.foldl assignDefault map)
  | _, _ => data

/-! ## Checks -/

/-- What a coercion gives. -/
inductive Coerced
  | value (value : Json)
  | nonFinite

/-- What one validator is made for. -/
structure Ajv where
  doc : Json
  patterns : String → Option (Option (String → Bool))
  coerce : Bool
  /-- `coerce`: the value as the first of the types that accepts it. -/
  coerceData : List String → Json → Option Coerced
  /-- `number_string`. -/
  numberString : ℚ → String
  /-- `fast_date`. -/
  fastDate : String → Bool
  /-- `fast_date_time`. -/
  fastDateTime : String → Bool
  /-- The text is the Base64 form of some bytes, as far as `byte` looks. -/
  byte : String → Bool

/-- What a validation adds to. -/
structure State where
  errors : List AjvError
  unsure : Option String
  nonFinite : Bool

/-- `unsure`: something wasn't reproduced exactly. -/
def State.setUnsure (why : String) (st : State) : State :=
  { st with unsure := st.unsure <|> some why }

def State.push (error : AjvError) (st : State) : State :=
  { st with errors := st.errors ++ [error] }

def State.truncate (start : ℕ) (st : State) : State :=
  { st with errors := st.errors.take start }

/-- A check's result with the value as it leaves it. -/
structure Out where
  ok : Bool
  data : Json
  state : State

/-- A step of the walk; no result where the calls did not suffice. -/
abbrev Check := Json → State → Option Out

def pass : Check := fun data st => some ⟨true, data, st⟩

def refuse (error : AjvError) : Check := fun data st => some ⟨false, data, st.push error⟩

/-- `unsure`, and on. -/
def doubt (why : String) (rest : Check) : Check := fun data st => rest data (st.setUnsure why)

/-- `unsure` where `p` holds, and on. -/
def doubtIf (p : Bool) (why : String) (rest : Check) : Check :=
  if p then doubt why rest else rest

/-- One step, and the next where it holds. -/
def Check.next (first rest : Check) : Check := fun data st => do
  let out ← first data st
  if out.ok then rest out.data out.state else return out

/-- The check of a keyword, where the schema has it. -/
def onKey (key : String) (fields : Fields) (check : Json → Check) : Check :=
  match getField key fields with
  | some keyword => check keyword
  | none => pass

/-- A validation of a value at a path by a schema, in a composite or not. -/
abbrev Validation := Json → String → Bool → Check

/-! ## The keywords of numbers, texts, arrays and objects -/

/-- An error of a keyword, with no more to tell. -/
def AjvError.of (path keyword message : String) : AjvError :=
  { instancePath := path, keyword := keyword, message := message }

/-- A number. -/
def asNum : Json → Option ℚ
  | .num n => some n
  | _ => none

/-- A length as `f64::from(u32)` has it. -/
def lengthNumber (length : ℕ) : ℚ := (min length (2 ^ 32 - 1) : ℕ)

/-- `known` formats of `number`. -/
def numberFormats : List String := ["date", "date-time", "binary", "password", "byte"]

namespace Ajv

variable (ajv : Ajv)

/-- One limit of `number`, where the value is `n`. A value that is no number fails it. -/
def numberLimit (keyword op : String) (fails : ℚ → ℚ → Bool) (fields : Fields)
    (path : String) (n : Option ℚ) : Check :=
  match getField keyword fields with
  | none => pass
  | some limit =>
    match asNum limit with
    | none => doubt "a limit that isn't a number" pass
    | some limit =>
      if n.all fun n => fails n limit then
        refuse (.of path keyword s!"must be {op} {ajv.numberString limit}")
      else pass

/-- The `format` of `number`. -/
def numberFormat (fields : Fields) : Check :=
  match (getField "format" fields).bind Json.asStr with
  | none => pass
  | some format =>
    doubtIf (!numberFormats.contains format) s!"format {format} isn't ported" pass

/-- `number`. -/
def number (fields : Fields) (path : String) : Check := fun data =>
  let n := asNum data
  (ajv.numberLimit "maximum" "<=" (fun n limit => n > limit) fields path n).next
    ((ajv.numberLimit "minimum" ">=" (fun n limit => n < limit) fields path n).next
      (numberFormat fields)) data

/-- One limit of `string`. -/
def textLimit (keyword word : String) (fails : ℚ → ℚ → Bool) (fields : Fields)
    (path : String) (length : ℕ) : Check :=
  match getField keyword fields with
  | none => pass
  | some limit =>
    match asNum limit with
    | none => doubt "a length that isn't a number" pass
    | some limit =>
      if fails (lengthNumber length) limit then
        refuse (.of path keyword
          s!"must NOT have {word} than {ajv.numberString limit} characters")
      else pass

/-- The `pattern` of `string`. -/
def textPattern (fields : Fields) (path text : String) : Check :=
  match (getField "pattern" fields).bind Json.asStr with
  | none => pass
  | some pattern =>
    match ajv.patterns pattern with
    | some (some isMatch) =>
      if isMatch text then pass
      else refuse (.of path "pattern" s!"must match pattern \"{pattern}\"")
    | _ => doubt "a pattern not ported to Rust's regex" pass

/-- Whether a text is of a ported format. -/
def ofFormat (format text : String) : Option Bool :=
  match format with
  | "date" => some (ajv.fastDate text)
  | "date-time" => some (ajv.fastDateTime text)
  | "binary" => some true
  | "password" => some true
  | "byte" => some (ajv.byte text)
  | _ => none

/-- The `format` of `string`. -/
def textFormat (fields : Fields) (path text : String) : Check :=
  match (getField "format" fields).bind Json.asStr with
  | none => pass
  | some format =>
    match ajv.ofFormat format text with
    | some true => pass
    | some false => refuse (.of path "format" s!"must match format \"{format}\"")
    | none => doubt s!"format {format} isn't ported" pass

/-- `string`. -/
def string (fields : Fields) (path : String) : Check := fun data =>
  let text := data.asStr.getD ""
  (ajv.textLimit "maxLength" "more" (fun n limit => n > limit) fields path text.length).next
    ((ajv.textLimit "minLength" "fewer" (fun n limit => n < limit) fields path text.length).next
      ((ajv.textPattern fields path text).next (ajv.textFormat fields path text))) data

/-- One limit of `array`. -/
def itemLimit (keyword word : String) (fails : ℚ → ℚ → Bool) (fields : Fields)
    (path : String) (length : ℕ) : Check :=
  match (getField keyword fields).bind asNum with
  | none => pass
  | some limit =>
    if fails (lengthNumber length) limit then
      refuse (.of path keyword s!"must NOT have {word} than {ajv.numberString limit} items")
    else pass

/-- The loop over the elements, from the `i`-th on. -/
def eachElement (validate : Validation) (items : Json) (path : String) (composite : Bool) :
    ℕ → List Json → State → Option (Bool × List Json × State)
  | _, [], st => some (true, [], st)
  | i, element :: elements, st => do
    let out ← validate items s!"{path}/{i}" composite element st
    if out.ok then
      let (ok, elements, st) ← eachElement validate items path composite (i + 1) elements out.state
      return (ok, out.data :: elements, st)
    else return (false, out.data :: elements, out.state)

/-- The `items` of `array`. -/
def eachItem (validate : Validation) (fields : Fields) (path : String) (composite : Bool) :
    Check := fun data st =>
  match getField "items" fields with
  | none => pass data st
  | some items =>
    if items.asArray.isSome then doubt "tuple items aren't ported" pass data st
    else if alwaysValid items then pass data st
    else
      match data with
      | .arr elements => do
        let (ok, elements, st) ← eachElement validate items path composite 0 elements st
        return ⟨ok, .arr elements, st⟩
      | _ => pass data st

/-- `array`. -/
def array (validate : Validation) (fields : Fields) (path : String) (composite : Bool) :
    Check := fun data =>
  let length := (data.asArray.getD []).length
  (ajv.itemLimit "maxItems" "more" (fun n limit => n > limit) fields path length).next
    ((ajv.itemLimit "minItems" "fewer" (fun n limit => n < limit) fields path length).next
      (eachItem validate fields path composite)) data

/-- The loop over the required names. -/
def eachRequired (map : Fields) (path : String) : List Json → Check
  | [] => pass
  | name :: names =>
    let name := name.asStr.getD ""
    doubtIf (prototypeNames.contains name) "a property named like an Object.prototype member"
      (if hasKey name map then eachRequired map path names
      else refuse
        { instancePath := path
          keyword := "required"
          message := s!"must have required property '{name}'"
          missingProperty := some name })

/-- A property's value, validated in its place. -/
def atKey (validate : Validation) (schema : Json) (path key : String) (composite : Bool)
    (value : Json) : Check := fun data st => do
  let out ← validate schema s!"{path}/{escapePointer key}" composite value st
  return { out with data := .obj (setField key out.data (data.asObject.getD [])) }

/-- The loop over the keys of `additionalProperties`. -/
def eachAdditional (validate : Validation) (extra : Json) (properties : Fields) (path : String)
    (composite : Bool) : List String → Check
  | [] => pass
  | key :: keys =>
    if hasKey key properties then eachAdditional validate extra properties path composite keys
    else if extra = .bool false then
      refuse
        { instancePath := path
          keyword := "additionalProperties"
          message := "must NOT have additional properties"
          additionalProperty := some key }
    else fun data st =>
      match data.get key with
      | some value =>
        (atKey validate extra path key composite value).next
          (eachAdditional validate extra properties path composite keys) data st
      | none => eachAdditional validate extra properties path composite keys data st

/-- The loop over `properties`. -/
def eachProperty (validate : Validation) (path : String) (composite : Bool) : Fields → Check
  | [] => pass
  | (name, sub) :: properties =>
    if name = "__proto__" ∨ alwaysValid sub then eachProperty validate path composite properties
    else doubtIf (prototypeNames.contains name) "a property named like an Object.prototype member"
      fun data st =>
        match data.get name with
        | some value =>
          (atKey validate sub path name composite value).next
            (eachProperty validate path composite properties) data st
        | none => eachProperty validate path composite properties data st

/-- The properties that a schema describes. -/
def propertiesOf (fields : Fields) : Fields :=
  ((getField "properties" fields).bind Json.asObject).getD []

/-- `object`. -/
def object (validate : Validation) (fields : Fields) (path : String) (composite : Bool) :
    Check := fun data =>
  match data with
  | .obj map =>
    (eachRequired map path (((getField "required" fields).bind Json.asArray).getD [])).next
      ((onKey "additionalProperties" fields fun extra =>
        if alwaysValid extra then pass
        else doubtIf (hasKey "patternProperties" fields) "patternProperties aren't ported"
          (eachAdditional validate extra (propertiesOf fields) path composite (jsKeys map))).next
        (eachProperty validate path composite (propertiesOf fields))) data
  | _ => pass data

/-- `group`. -/
def group (validate : Validation) (group : Group) (fields : Fields) (path : String)
    (composite : Bool) : Check :=
  match group with
  | .number => ajv.number fields path
  | .string => ajv.string fields path
  | .array => ajv.array validate fields path composite
  | .object => object validate fields path composite

/-! ## The keywords of any type -/

/-- The schema a reference leads to. -/
def target (reference : Json) : Option Json :=
  match reference with
  | .str text =>
    match text.toList with
    | '#' :: path => Pointer.pointer ajv.doc path
    | _ => none
  | _ => none

/-- `reference`. -/
def reference (validate : Validation) (reference : Json) (path : String) (composite : Bool) :
    Check :=
  match ajv.target reference with
  | none => doubt "a $ref that doesn't resolve" pass
  | some target => validate target path (composite && !hasRef target)

/-- The loop of `any_of`, whose errors began at `start`. -/
def anyBranch (validate : Validation) (path : String) (start : ℕ) : List Json → Check
  | [] => refuse (.of path "anyOf" "must match a schema in anyOf")
  | branch :: branches => fun data st => do
    let out ← validate branch path true data st
    if out.ok then return { out with state := out.state.truncate start }
    else anyBranch validate path start branches out.data out.state

/-- `any_of`. -/
def anyOf (validate : Validation) (branches : Json) (path : String) : Check :=
  match branches.asArray with
  | none => doubt "anyOf that isn't an array" pass
  | some branches =>
    if branches.any alwaysValid then pass
    else fun data st => anyBranch validate path st.errors.length branches data st

/-- The loop of `one_of`: how many branches hold, up to two. -/
def countBranches (validate : Validation) (path : String) :
    List Json → ℕ → Json → State → Option (ℕ × Json × State)
  | [], passing, data, st => some (passing, data, st)
  | branch :: branches, passing, data, st => do
    let out ← (if alwaysValid branch then pass else validate branch path true) data st
    if out.ok then
      if passing + 1 > 1 then return (passing + 1, out.data, out.state)
      else countBranches validate path branches (passing + 1) out.data out.state
    else countBranches validate path branches passing out.data out.state

/-- `one_of`. -/
def oneOf (validate : Validation) (branches : Json) (path : String) : Check :=
  match branches.asArray with
  | none => doubt "oneOf that isn't an array" pass
  | some branches => fun data st => do
    let (passing, data, after) ← countBranches validate path branches 0 data st
    if passing = 1 then return ⟨true, data, after.truncate st.errors.length⟩
    else refuse (.of path "oneOf" "must match exactly one schema in oneOf") data after

/-- The loop over `allOf`. -/
def allBranches (validate : Validation) (path : String) (composite : Bool) : List Json → Check
  | [] => pass
  | branch :: branches =>
    if alwaysValid branch then allBranches validate path composite branches
    else (validate branch path composite).next (allBranches validate path composite branches)

/-- The `const` of `untyped`. -/
def constant (fields : Fields) (path : String) : Check := fun data =>
  match getField "const" fields with
  | none => pass data
  | some expected =>
    if jsEqual data expected then pass data
    else refuse (.of path "const" "must be equal to constant") data

/-- The `enum` of `untyped`, and the keywords after it. -/
def allowed (fields : Fields) (path : String) (rest : Check) : Check := fun data =>
  match getField "enum" fields with
  | none => rest data
  | some allowed =>
    match allowed.asArray with
    | none | some [] => doubt "an enum Ajv refuses to compile" pass data
    | some values =>
      if values.any (jsEqual data) then rest data
      else refuse
        { instancePath := path
          keyword := "enum"
          message := "must be equal to one of the allowed values"
          allowedValues := some values } data

/-- The `readOnly` of `untyped`, which fails whatever the value is. -/
def readOnly (fields : Fields) (path : String) : Check :=
  if (getField "readOnly" fields).any Json.truthy then fun data =>
    refuse (.of path "readOnly"
      (if data.isNull then "must pass \"readOnly\" keyword validation" else "is read-only")) data
  else pass

/-- `untyped`. -/
def untyped (validate : Validation) (fields : Fields) (path : String) (composite : Bool) : Check :=
  (onKey "$ref" fields fun reference => ajv.reference validate reference path composite).next
  ((constant fields path).next
  (allowed fields path
  ((onKey "anyOf" fields fun branches => anyOf validate branches path).next
  ((onKey "oneOf" fields fun branches => oneOf validate branches path).next
  ((allBranches validate path composite
    (((getField "allOf" fields).bind Json.asArray).getD [])).next
  (readOnly fields path))))))

/-! ## The walk -/

/-- `type_error`'s error. -/
def typeError (fields : Fields) (path : String) : AjvError :=
  let shown := match getField "type" fields with
    | some (.str name) => name
    | some (.arr items) => String.intercalate "," (items.map fun item : Json => item.asStr.getD "")
    | _ => ""
  .of path "type" s!"must be {shown}"

/-- The loop over the groups, with the errors before the schema's as `start`. -/
def groups (validate : Validation) (fields : Fields) (types : List String) (checkTypes : Bool)
    (path : String) (composite : Bool) (start : ℕ) : List Group → Check
  | [] => fun data st => some ⟨st.errors.length = start, data, st⟩
  | group :: others =>
    let rest := groups validate fields types checkTypes path composite start others
    if !group.among fields then rest
    else fun data st =>
      if group.holds data then do
        let data := if group = .object ∧ !composite then assignDefaults fields data else data
        let out ← ajv.group validate group fields path composite data st
        if out.ok ∧ out.state.errors.length = start then rest out.data out.state
        else return { out with ok := false }
      else if types.length = 1 ∧ types.head? = some group.name ∧ !checkTypes then
        refuse (typeError fields path) data st
      else if st.errors.length ≠ start then some ⟨false, data, st⟩
      else rest data st

/-- The types a value is coerced to. -/
def coerceTo (types : List String) : List String :=
  if ajv.coerce then
    types.filter fun type => ["string", "number", "integer", "boolean", "null"].contains type
  else []

/-- The types are left to the group of their own keywords. -/
def deferred (fields : Fields) (types : List String) : Bool :=
  ajv.coerceTo types = [] ∧ types.length = 1 ∧ types.head?.any (hasRulesForType fields)

/-- The keywords after the type, with the errors before the schema's as `start`. -/
def afterType (validate : Validation) (fields : Fields) (types : List String)
    (checkTypes : Bool) (path : String) (composite : Bool) (start : ℕ) : Check := fun data st => do
  let out ← ajv.untyped validate fields path composite data st
  if out.ok ∧ out.state.errors.length = start then
    ajv.groups validate fields types checkTypes path composite start
      [.number, .string, .array, .object] out.data out.state
  else return { out with ok := false }

/-- An object schema that is no plain reference, its types read. -/
def keywords (validate : Validation) (fields : Fields) (types : List String) (path : String)
    (composite : Bool) : Check := fun data st =>
  let checkTypes := types ≠ [] ∧ !ajv.deferred fields types
  let rest := ajv.afterType validate fields types checkTypes path composite st.errors.length
  if checkTypes ∧ !types.any (hasType · data) then
    let coerceTo := ajv.coerceTo types
    match (if coerceTo = [] then none else ajv.coerceData coerceTo data) with
    | some (.value value) => rest value st
    | some .nonFinite => rest .null { st with nonFinite := true }
    | none =>
      if composite then rest data (st.push (typeError fields path))
      else refuse (typeError fields path) data st
  else rest data st

/-- An object schema that is no plain reference, with ported keywords. -/
def portedSchema (validate : Validation) (fields : Fields) (path : String) (composite : Bool) :
    Check :=
  match schemaTypes fields with
  | none => doubt "a type Ajv refuses to compile" pass
  | some types => ajv.keywords validate fields types path composite

/-- An object schema that is no plain reference. -/
def objectSchema (validate : Validation) (fields : Fields) (path : String) (composite : Bool) :
    Check :=
  match fields.find? fun field => unsupported.contains field.1 with
  | some (key, _) =>
    doubt s!"the {key} keyword isn't ported" (ajv.portedSchema validate fields path composite)
  | none => ajv.portedSchema validate fields path composite

/-- The body of `validate`, with its nested calls. -/
def validateBody (validate : Validation) : Validation := fun schema path composite =>
  match schema with
  | .bool true => pass
  | .bool false => refuse (.of path "false schema" "boolean schema is false")
  | .obj fields =>
    if !fields.any fun field => isRule field.1 then pass
    else
      match getField "$ref" fields with
      | some reference =>
        if !fields.any fun field => field.1 ≠ "$ref" && isRule field.1 then
          ajv.reference validate reference path composite
        else ajv.objectSchema validate fields path composite
      | none => ajv.objectSchema validate fields path composite
  | _ => doubt "a schema that isn't an object" pass

/-- `validate`, with `n` nested calls. -/
def validate : ℕ → Validation
  | 0 => fun _ _ _ _ _ => none
  | n + 1 => ajv.validateBody (validate n)

end Ajv

end OpenApi

end Foreseerr

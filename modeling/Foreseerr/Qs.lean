import Foreseerr.JsText
import Mathlib.Data.List.Sort
import Mathlib.Data.Nat.Digits.Defs

/-!
# Form parsing

`openapi/qs.rs`: a form or a query is split into parameters, a parameter's key into the
segments between its brackets, and what the segments and the value make is merged into
one object. Values follow JavaScript: arrays have holes, and an object that a too long
list was turned into (an *overflow* object) goes on as a list.

A merge recurses on the value that is merged in. It is stated with that value first and
for all targets at once, so that the recursion is on the value alone: the items of a list
and the entries of an object carry the merge into whatever stands at their place.
-/

namespace Foreseerr

namespace Qs

/-- A text. -/
abbrev Text := List Char

/-- `Options`. -/
structure Options where
  allowPrototypes : Bool := false
  arrayLimit : Nat := 20
  depth : Nat := 5
  latin1 : Bool := false
  parameterLimit : Nat := 1000
  strictDepth : Bool := false
deriving DecidableEq, Repr

/-- `DepthExceeded`. -/
inductive DepthExceeded
  | depthExceeded
deriving DecidableEq, Repr

/-- `Q`: a parsed value. An object has its entries in the order they were set, and the
highest index where it is an overflow object. -/
inductive Q
  | str (s : Text)
  | yes
  | arr (items : List (Option Q))
  | obj (entries : List (Text × Q)) (overflow : Option Nat)
deriving Repr

/-- The entries of an object. -/
abbrev Entries := List (Text × Q)

mutual

/-- Whether two values are the same. -/
def Q.same : Q → Q → Bool
  | .str s, .str t => s = t
  | .yes, .yes => true
  | .arr items, .arr others => sameItems items others
  | .obj entries overflow, .obj others kept => sameEntries entries others && overflow = kept
  | _, _ => false

def sameItems : List (Option Q) → List (Option Q) → Bool
  | [], [] => true
  | none :: items, none :: others => sameItems items others
  | some v :: items, some w :: others => v.same w && sameItems items others
  | _, _ => false

def sameEntries : Entries → Entries → Bool
  | [], [] => true
  | (key, v) :: entries, (other, w) :: others =>
    key = other && v.same w && sameEntries entries others
  | _, _ => false

end

mutual

theorem Q.same_iff : ∀ v w : Q, v.same w = true ↔ v = w
  | .str s, w => by cases w <;> simp [Q.same]
  | .yes, w => by cases w <;> simp [Q.same]
  | .arr items, w => by cases w <;> simp [Q.same, sameItems_iff]
  | .obj entries overflow, w => by cases w <;> simp [Q.same, sameEntries_iff]

theorem sameItems_iff : ∀ items others : List (Option Q),
    sameItems items others = true ↔ items = others
  | [], others => by cases others <;> simp [sameItems]
  | none :: items, others => by
    rcases others with _ | ⟨_ | w, others⟩ <;> simp [sameItems, sameItems_iff]
  | some v :: items, others => by
    rcases others with _ | ⟨_ | w, others⟩ <;> simp [sameItems, sameItems_iff, Q.same_iff]

theorem sameEntries_iff : ∀ entries others : Entries,
    sameEntries entries others = true ↔ entries = others
  | [], others => by cases others <;> simp [sameEntries]
  | (key, v) :: entries, others => by
    rcases others with _ | ⟨⟨other, w⟩, others⟩ <;>
      simp [sameEntries, sameEntries_iff, Q.same_iff, and_assoc]

end

instance : DecidableEq Q := fun v w => decidable_of_iff _ (Q.same_iff v w)

/-! ## Keys -/

/-- A number as its text. -/
def indexText (n : Nat) : Text := Nat.toDigits 10 n

/-- `index_key`. -/
def indexKey (key : Text) : Option Nat :=
  if key = [] ∨ (1 < key.length ∧ key.head? = some '0') ∨ ¬ areDigits key then none
  else (some (Nat.ofDigitChars 10 key 0)).filter (· < 4294967295)

/-- `PROTOTYPE_KEYS`. -/
def prototypeKeys : List Text :=
  ["constructor", "__defineGetter__", "__defineSetter__", "hasOwnProperty", "__lookupGetter__",
    "__lookupSetter__", "isPrototypeOf", "propertyIsEnumerable", "toString", "valueOf",
    "__proto__", "toLocaleString"].map String.toList

/-- `on_prototype`. -/
def onPrototype (key : Text) : Bool := prototypeKeys.contains key

/-- `Obj::get`. -/
def get (entries : Entries) (key : Text) : Option Q :=
  (entries.find? fun e => e.1 = key).map (·.2)

/-- `Obj::set`. -/
def set (key : Text) (value : Q) : Entries → Entries
  | [] => [(key, value)]
  | e :: entries => if e.1 = key then (e.1, value) :: entries else e :: set key value entries

/-- `Obj::keys` of entries that carry anything: those of integer keys by the integer, then
the others in order. -/
def inKeyOrder {α : Type} (entries : List (Text × α)) : List (Text × α) :=
  let ints := entries.filterMap fun e => (indexKey e.1).map fun n => (n, e)
  (ints.insertionSort fun a b => a.1 ≤ b.1).map (·.2)
    ++ entries.filter fun e => (indexKey e.1).isNone

/-! ## Texts -/

/-- `to_digit(16)`. -/
def hexDigit (c : Char) : Option Nat :=
  if c.isDigit then some (c.toNat - '0'.toNat)
  else if 'a' ≤ c ∧ c ≤ 'f' then some (c.toNat - 'a'.toNat + 10)
  else if 'A' ≤ c ∧ c ≤ 'F' then some (c.toNat - 'A'.toNat + 10)
  else none

/-- The bytes of a text, `%XX` as the byte it stands for. -/
def percentBytes : Text → Option (List Nat)
  | [] => some []
  | '%' :: h :: l :: rest =>
    match hexDigit h, hexDigit l with
    | some h, some l => (percentBytes rest).map ((h * 16 + l) :: ·)
    | _, _ => none
  | c :: rest =>
    if c = '%' then none
    else (percentBytes rest).map fun bytes =>
      (String.utf8EncodeChar c).map (·.toNat) ++ bytes

/-- A continuation byte. -/
def isContinuation (b : Nat) : Bool := 0x80 ≤ b && b ≤ 0xbf

/-- `String::from_utf8`. -/
def fromUtf8 : List Nat → Option Text
  | [] => some []
  | b :: rest =>
    if b < 0x80 then (fromUtf8 rest).map (Char.ofNat b :: ·)
    else match rest with
      | c :: rest =>
        if 0xc2 ≤ b ∧ b ≤ 0xdf ∧ isContinuation c then
          (fromUtf8 rest).map (Char.ofNat ((b - 0xc0) * 64 + (c - 0x80)) :: ·)
        else match rest with
          | d :: rest =>
            let three := (b - 0xe0) * 4096 + (c - 0x80) * 64 + (d - 0x80)
            if 0xe0 ≤ b ∧ b ≤ 0xef ∧ isContinuation c ∧ isContinuation d ∧ 0x800 ≤ three
                ∧ ¬ (0xd800 ≤ three ∧ three ≤ 0xdfff) then
              (fromUtf8 rest).map (Char.ofNat three :: ·)
            else match rest with
              | e :: rest =>
                let four := (b - 0xf0) * 262144 + (c - 0x80) * 4096 + (d - 0x80) * 64 + (e - 0x80)
                if 0xf0 ≤ b ∧ b ≤ 0xf4 ∧ isContinuation c ∧ isContinuation d ∧ isContinuation e
                    ∧ 0x10000 ≤ four ∧ four ≤ 0x10ffff then
                  (fromUtf8 rest).map (Char.ofNat four :: ·)
                else none
              | [] => none
          | [] => none
      | [] => none

/-- `decode_uri_component`. -/
def decodeUriComponent (text : Text) : Option Text :=
  if '%' ∉ text then some text else (percentBytes text).bind fromUtf8

/-- `unescape` of `%XX`. -/
def unescape : Text → Text
  | [] => []
  | '%' :: h :: l :: rest =>
    match hexDigit h, hexDigit l with
    | some h, some l => Char.ofNat (h * 16 + l) :: unescape rest
    | _, _ => '%' :: unescape (h :: l :: rest)
  | c :: rest => c :: unescape rest

/-- `decode`. -/
def decode (latin1 : Bool) (text : Text) : Text :=
  let spaced := text.map fun c => if c = '+' then ' ' else c
  if latin1 then unescape spaced else (decodeUriComponent spaced).getD spaced

/-- `replace_ci` of `%5B` or `%5D`. -/
def replaceEscape (needle by_ : Char) : Text → Text
  | [] => []
  | '%' :: '5' :: x :: rest =>
    if x.toLower = needle then by_ :: replaceEscape needle by_ rest
    else '%' :: replaceEscape needle by_ ('5' :: x :: rest)
  | c :: rest => c :: replaceEscape needle by_ rest

/-- The text with its escaped brackets as brackets. -/
def bracketed (text : Text) : Text := replaceEscape 'd' ']' (replaceEscape 'b' '[' text)

/-! ## Combining repeated parameters -/

/-- `concat`. -/
def concat (a b : Q) : List (Option Q) :=
  [a, b].flatMap fun
    | .arr items => items
    | other => [some other]

/-- The entries of an array's values from an index on. -/
def indexed {α : Type} : Nat → List (Option α) → List (Text × α)
  | _, [] => []
  | i, none :: items => indexed (i + 1) items
  | i, some v :: items => (indexText i, v) :: indexed (i + 1) items

/-- `array_to_object`. -/
def arrayToObject (items : List (Option Q)) : Entries := indexed 0 items

/-- `combine_plain`. -/
def combinePlain (a b : Q) (limit : Nat) : Q :=
  let result := concat a b
  if limit < result.length then .obj (arrayToObject result) (some (result.length - 1))
  else .arr result

/-- `combine`. -/
def combine (a b : Q) (limit : Nat) : Q :=
  match a with
  | .obj entries (some max) => .obj (set (indexText (max + 1)) b entries) (some (max + 1))
  | _ => combinePlain a b limit

/-- A part at its first `]=`, the bracket kept. -/
def splitBracket : Text → Option (Text × Text)
  | ']' :: '=' :: rest => some ([']'], rest)
  | c :: rest => (splitBracket rest).map fun (before, after) => (c :: before, after)
  | [] => none

/-- A part as a key and a value, neither decoded. -/
def splitPart (part : Text) : Text × Text :=
  ((splitBracket part).or (splitOnce '=' part)).getD (part, [])

/-- The key and the value of a part. -/
def readPart (latin1 : Bool) (part : Text) : Text × Text :=
  (decode latin1 (splitPart part).1, decode latin1 (splitPart part).2)

/-- One parameter of `parse_values`. -/
def addParameter (o : Options) (entries : Entries) (part : Text) : Entries :=
  let (key, val) := readPart o.latin1 part
  match get entries key with
  | some existing => set key (combine existing (.str val) o.arrayLimit) entries
  | none => set key (.str val) entries

/-- `parse_values`. -/
def parseValues (text : Text) (o : Options) : Entries :=
  (((bracketed text).splitOn '&').take o.parameterLimit).foldl (addParameter o) []

/-! ## The segments of a key -/

/-- `bracket_group`: what stands before the first `[...]` without brackets inside, what
stands in it, and what stands after it. -/
def nextGroup : Text → Option (Text × Text × Text)
  | [] => none
  | c :: rest =>
    let content := rest.takeWhile fun d => d ≠ '[' ∧ d ≠ ']'
    let after := rest.dropWhile fun d => d ≠ '[' ∧ d ≠ ']'
    if c = '[' ∧ after.head? = some ']' then some ([], content, after.tail)
    else (nextGroup rest).map fun (before, inside, beyond) => (c :: before, inside, beyond)

/-- The loop of `split_key`: the groups as segments, as many as the depth allows, and the
rest of the key as one more. -/
def segments (o : Options) : Nat → Text → Except DepthExceeded (Option (List Text))
  | left, key =>
    match nextGroup key with
    | none => .ok (some [])
    | some (_, content, after) =>
      match left with
      | 0 =>
        if o.strictDepth then .error .depthExceeded
        else .ok (some ['[' :: ('[' :: content ++ ']' :: after) ++ [']']])
      | left + 1 =>
        if !o.allowPrototypes && onPrototype content then .ok none
        else (segments o left after).map (·.map (('[' :: content ++ [']']) :: ·))

/-- `split_key`; `none` where a prototype key drops it. -/
def splitKey (key : Text) (o : Options) : Except DepthExceeded (Option (List Text)) :=
  if o.depth = 0 then .ok (if !o.allowPrototypes && onPrototype key then none else some [key])
  else
    let parent := (nextGroup key).elim key (·.1)
    if parent ≠ [] ∧ (!o.allowPrototypes && onPrototype parent) then .ok none
    else (segments o o.depth key).map (·.map ((if parent = [] then [] else [parent]) ++ ·))

/-- A segment without its brackets. -/
def clean (root : Text) : Text :=
  if 2 ≤ root.length ∧ root.head? = some '[' ∧ root.getLast? = some ']' then
    root.tail.dropLast
  else root

/-- One segment of `parse_object`. -/
def wrap (o : Options) (root : Text) (leaf : Q) : Q :=
  if root = ['[', ']'] then
    match leaf with
    | .obj entries (some max) => .obj entries (some max)
    | other => combinePlain (.arr []) other o.arrayLimit
  else
    match (if root ≠ clean root then indexKey (clean root) else none).filter (· ≤ o.arrayLimit) with
    | some index => .arr (List.replicate index none ++ [some leaf])
    | none => .obj (if clean root ≠ "__proto__".toList then [(clean root, leaf)] else []) none

/-- `parse_object`. -/
def parseObject (chain : List Text) (leaf : Q) (o : Options) : Q := chain.foldr (wrap o) leaf

/-! ## Merging -/

/-- Whether a value is an array or an object. -/
def Q.isContainer : Q → Bool
  | .arr _ | .obj _ _ => true
  | .str _ | .yes => false

/-- The key a value is turned into. -/
def Q.asKey : Q → Text
  | .str s => s
  | _ => "true".toList

/-- `merge_primitive`. -/
def mergePrimitive (o : Options) (source target : Q) : Q :=
  match target with
  | .arr items => .arr (items ++ [some source])
  | .obj entries (some max) => .obj (set (indexText (max + 1)) source entries) (some (max + 1))
  | .obj entries none =>
    if o.allowPrototypes || !onPrototype source.asKey then .obj (set source.asKey .yes entries) none
    else .obj entries none
  | primitive => .arr [some primitive, some source]

/-- A value with the merge of it into another one. -/
abbrev Merger := Q × (Q → Q)

/-- One item of a list merged into the items of another, at its own index. -/
def mergeItem (items : List (Option Q)) (i : Nat) (item : Merger) : List (Option Q) :=
  match items[i]? with
  | some (some existing) =>
    if existing.isContainer && item.1.isContainer then items.set i (some (item.2 existing))
    else items ++ [some item.1]
  | some none => items.set i (some item.1)
  | none => items ++ List.replicate (i - items.length) none ++ [some item.1]

/-- A list merged into another, from an index on. -/
def mergeItems : List (Option Q) → Nat → List (Option Merger) → List (Option Q)
  | items, _, [] => items
  | items, i, none :: src => mergeItems items (i + 1) src
  | items, i, some item :: src => mergeItems (mergeItem items i item) (i + 1) src

/-- One entry merged into those of an object: into the value of its key, in its place. -/
def mergeEntry (entry : Text × Merger) : Entries → Entries
  | [] => [(entry.1, entry.2.1)]
  | e :: acc => if e.1 = entry.1 then (entry.1, entry.2.2 e.2) :: acc else e :: mergeEntry entry acc

/-- Entries merged into those of an object, in the order of their keys. -/
def mergeEntries (acc : Entries) (src : List (Text × Merger)) : Entries :=
  (inKeyOrder src).foldl (fun acc entry => mergeEntry entry acc) acc

/-- `parse::<usize>`. -/
def parseUsize (text : Text) : Option Nat :=
  let digits := if text.head? = some '+' then text.tail else text
  if digits = [] ∨ ¬ areDigits digits then none
  else (some (Nat.ofDigitChars 10 digits 0)).filter (· < 18446744073709551616)

/-- An overflow object behind a value: its indices move up by one. -/
def shiftEntries (primitive : Q) (src : Entries) : Entries :=
  (inKeyOrder src).foldl
    (fun result e => set (((parseUsize e.1).map fun n => indexText (n + 1)).getD e.1) e.2 result)
    [("0".toList, primitive)]

mutual

/-- `merge` and `merge_object`, of a value into a target. -/
def merge (o : Options) : Q → Q → Q
  | .str s => fun target => if s = [] then target else mergePrimitive o (.str s) target
  | .yes => fun target => mergePrimitive o .yes target
  | .arr src => fun target =>
    match target with
    | .arr items => .arr (mergeItems items 0 (itemMergers o src))
    | .obj entries overflow =>
      .obj (mergeEntries entries (indexed 0 (itemMergers o src))) overflow
    | primitive => .arr (concat primitive (.arr src))
  | .obj src overflow => fun target =>
    match target with
    | .arr items => .obj (mergeEntries (arrayToObject items) (entryMergers o src)) none
    | .obj entries kept => .obj (mergeEntries entries (entryMergers o src)) kept
    | primitive =>
      match overflow with
      | some max => .obj (shiftEntries primitive src) (some (max + 1))
      | none => .arr (concat primitive (.obj src none))

/-- The items of a list, each with the merge of it. -/
def itemMergers (o : Options) : List (Option Q) → List (Option Merger)
  | [] => []
  | none :: src => none :: itemMergers o src
  | some v :: src => some (v, merge o v) :: itemMergers o src

/-- The entries of an object, each with the merge of it. -/
def entryMergers (o : Options) : Entries → List (Text × Merger)
  | [] => []
  | (key, v) :: src => (key, v, merge o v) :: entryMergers o src

end

/-! ## Parsing -/

mutual

/-- `compact`. -/
def compact : Q → Q
  | .str s => .str s
  | .yes => .yes
  | .arr items => .arr (compactItems items)
  | .obj entries overflow => .obj (compactEntries entries) overflow

def compactItems : List (Option Q) → List (Option Q)
  | [] => []
  | none :: items => compactItems items
  | some v :: items => some (compact v) :: compactItems items

def compactEntries : Entries → Entries
  | [] => []
  | (key, v) :: entries => (key, compact v) :: compactEntries entries

end

/-- What a parameter's key and value make; nothing for one that is dropped. -/
def parsedParameter (o : Options) (key : Text) (value : Q) : Except DepthExceeded (Option Q) :=
  if key = [] then .ok none
  else (splitKey key o).map fun chain => chain.map fun chain => parseObject chain value o

/-- One parameter of `parse`. -/
def addParsed (o : Options) (obj : Q) (entry : Text × Q) : Except DepthExceeded Q :=
  (parsedParameter o entry.1 entry.2).map fun parsed => parsed.elim obj fun p => merge o p obj

/-- `parse`, its result as the entries of the object. -/
def parse (text : Text) (o : Options) : Except DepthExceeded Entries :=
  if text = [] then .ok []
  else
    ((inKeyOrder (parseValues text o)).foldlM (addParsed o) (.obj [] none)).map fun obj =>
      match compact obj with
      | .obj entries _ => entries
      | _ => []

/-- The options of `express.urlencoded`. -/
def bodyOptions (parameters : Nat) : Options where
  allowPrototypes := true
  arrayLimit := max parameters 100
  depth := 32
  parameterLimit := 1000
  strictDepth := true

example : parse "a[b][c]=1&a[b][d]=2&x[]=1&x[]=2&y[3]=z&constructor=1&__proto__[q]=1".toList
      (bodyOptions 8)
    = .ok [("a".toList, .obj [("b".toList,
          .obj [("c".toList, .str ['1']), ("d".toList, .str ['2'])] none)] none),
        ("x".toList, .arr [some (.str ['1']), some (.str ['2'])]),
        ("y".toList, .arr [some (.str ['z'])]), ("constructor".toList, .str ['1'])] := by
  decide +kernel

example : parse "a=&a[x]=1&b=%ZZ&2=+&a%5Bx%5D=2".toList (bodyOptions 5)
    = .ok [(['2'], .str [' ']),
        (['a'], .arr [some (.str []),
          some (.obj [(['x'], .arr [some (.str ['1']), some (.str ['2'])])] none)]),
        (['b'], .str "%ZZ".toList)] := by
  decide +kernel

end Qs

end Foreseerr

import Foreseerr.Json

/-!
# Numbers in texts

`jsval.rs`: trimming a text and reading a number from it, as JavaScript
does. Texts are lists of characters. A number is the rational it names, and a
text that names none, or an infinity, has `none`.
-/

namespace Foreseerr

/-- `is_js_space`: JavaScript's white space and line terminators. -/
def isJsSpace (c : Char) : Bool :=
  c.toNat ∈ [0x9, 0xa, 0xb, 0xc, 0xd, 0x20, 0xa0, 0x1680, 0x2028, 0x2029, 0x202f, 0x205f, 0x3000,
    0xfeff] || (0x2000 ≤ c.toNat && c.toNat ≤ 0x200a)

/-- `char::is_whitespace`. -/
def isWhiteSpace (c : Char) : Bool :=
  c.toNat ∈ [0x20, 0x85, 0xa0, 0x1680, 0x2028, 0x2029, 0x202f, 0x205f, 0x3000]
    || (0x9 ≤ c.toNat && c.toNat ≤ 0xd) || (0x2000 ≤ c.toNat && c.toNat ≤ 0x200a)

/-- `trim_end_matches`. -/
def trimEnd (p : Char → Bool) (text : List Char) : List Char :=
  (text.reverse.dropWhile p).reverse

/-- `trim`. -/
def jsTrim (text : List Char) : List Char := trimEnd isJsSpace (text.dropWhile isJsSpace)

/-- `split_once`: what stands before and after the first of a character. -/
def splitOnce (c : Char) : List Char → Option (List Char × List Char)
  | [] => none
  | d :: text =>
    if d = c then some ([], text)
    else (splitOnce c text).map fun (before, after) => (d :: before, after)

/-- Only decimal digits, or nothing. -/
def areDigits (text : List Char) : Bool := text.all Char.isDigit

/-- The value of a digit, letters included. -/
def digitValue (c : Char) : Nat :=
  if c.isDigit then c.toNat - '0'.toNat else c.toLower.toNat - 'a'.toNat + 10

/-- `is_digit(radix)`. -/
def isDigitOf (radix : Nat) (c : Char) : Bool :=
  (c.isDigit || ('a' ≤ c.toLower && c.toLower ≤ 'z')) && digitValue c < radix

/-- The integer some digits name. -/
def digitsValue (radix : Nat) (digits : List Char) : Nat :=
  digits.foldl (fun acc c => acc * radix + digitValue c) 0

/-- The exponent of a decimal literal: an optional sign and some digits. -/
def exponentOf (text : List Char) : Option Int :=
  let (sign, digits) := match text with
    | '+' :: rest => ((1 : Int), rest)
    | '-' :: rest => (-1, rest)
    | _ => (1, text)
  if digits ≠ [] ∧ areDigits digits then some (sign * digitsValue 10 digits) else none

/-- `decimal_literal`, and the number it is: digits with an optional fraction (or a
fraction alone) and an optional exponent. -/
def decimalLiteral (text : List Char) : Option ℚ :=
  let mantissa := text.takeWhile fun c => c ≠ 'e' && c ≠ 'E'
  let exponent := (text.dropWhile fun c => c ≠ 'e' && c ≠ 'E').tail?
  let (int, frac) := (splitOnce '.' mantissa).getD (mantissa, [])
  if ¬ areDigits int ∨ ¬ areDigits frac ∨ (int = [] ∧ frac = []) then none
  else
    let value : ℚ := digitsValue 10 (int ++ frac) / (10 : ℚ) ^ frac.length
    match exponent with
    | none => some value
    | some exponent => (exponentOf exponent).map fun e => value * (10 : ℚ) ^ e

/-- `number_of_str`: `Number(text)`. -/
def numberOfStr (text : List Char) : Option ℚ :=
  match jsTrim text with
  | [] => some 0
  | '0' :: x :: digits =>
    let radix := if x = 'x' ∨ x = 'X' then 16 else if x = 'o' ∨ x = 'O' then 8
      else if x = 'b' ∨ x = 'B' then 2 else 0
    if radix = 0 then decimalLiteral ('0' :: x :: digits)
    else if digits ≠ [] ∧ digits.all (isDigitOf radix) then some (digitsValue radix digits)
    else none
  | '-' :: body => (decimalLiteral body).map Neg.neg
  | '+' :: body => decimalLiteral body
  | body => decimalLiteral body

example : numberOfStr " 12 ".toList = some 12 := by decide +kernel
example : numberOfStr "0x1F".toList = some 31 := by decide +kernel
example : numberOfStr "-1.5e1".toList = some (-15) := by decide +kernel
example : numberOfStr "3b".toList = none := by decide +kernel

/-! ## Texts of values -/

section Texts

variable (numberString : ℚ → String)

mutual

/-- `js_string`. -/
def jsString : Json → String
  | .null => "null"
  | .bool b => if b then "true" else "false"
  | .num n => numberString n
  | .str s => s
  | .arr items => ",".intercalate (jsStrings items)
  | .obj _ => "[object Object]"

def jsStrings : List Json → List String
  | [] => []
  | item :: items => jsString item :: jsStrings items

end

/-- `js_string`, where nothing is printed too. -/
def jsText (value : Option Json) : String := (value.map (jsString numberString)).getD "undefined"

/-- `to_string` of a number that may be no number. -/
def numberText : Option ℚ → String
  | some n => numberString n
  | none => "NaN"

end Texts

end Foreseerr

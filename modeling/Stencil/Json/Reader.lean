import Stencil.Json.Basic
import Stencil.Literal
import Stencil.Number.Scaled
import Stencil.Number.Word

/-!
# Reading JSON text

A reader for the text of JSON values. Of two fields with one name the later one counts. A whole
number stays exact if it fits in 64 bits, signed or not; other numbers become floating-point
numbers, scaled from their leading digits.
-/

namespace Stencil.Json

/-- Blanks between the tokens of a JSON text. -/
def skipBlanks (text : List Char) : List Char :=
  text.dropWhile fun char => char = ' ' || char = '\n' || char = '\r' || char = '\t'

/-- The value of a digit in base sixteen. -/
def hexValue? (char : Char) : Option Nat :=
  if char.isDigit then some (char.toNat - '0'.toNat)
  else if 'a' ≤ char ∧ char ≤ 'f' then some (char.toNat - 'a'.toNat + 10)
  else if 'A' ≤ char ∧ char ≤ 'F' then some (char.toNat - 'A'.toNat + 10)
  else none

/-- Reads four digits in base sixteen. -/
def readUnit? : List Char → Option (Nat × List Char)
  | a :: b :: c :: d :: text => do
    let high := (← hexValue? a) * 16 + (← hexValue? b)
    let low := (← hexValue? c) * 16 + (← hexValue? d)
    return (high * 256 + low, text)
  | _ => none

/-- Reads the digits of an escaped character; characters beyond the basic plane take a pair of
escapes. -/
def readEscaped? (text : List Char) : Option (Char × List Char) := do
  let (first, text) ← readUnit? text
  if 0xD800 ≤ first ∧ first < 0xDC00 then
    match text with
    | '\\' :: 'u' :: text =>
      let (second, text) ← readUnit? text
      if 0xDC00 ≤ second ∧ second < 0xE000 then
        return (Char.ofNat (0x10000 + (first - 0xD800) * 0x400 + (second - 0xDC00)), text)
      else none
    | _ => none
  else if 0xDC00 ≤ first ∧ first < 0xE000 then none
  else return (Char.ofNat first, text)

/-- The character that a letter after a backslash stands for. -/
def unescape? (letter : Char) : Option Char :=
  match letter with
  | '"' => some '"'
  | '\\' => some '\\'
  | '/' => some '/'
  | 'b' => some (Char.ofNat 8)
  | 'f' => some (Char.ofNat 12)
  | 'n' => some '\n'
  | 'r' => some '\r'
  | 't' => some '\t'
  | _ => none

/-- Reads the rest of a text in quotes; each character takes one unit of `fuel`. -/
def readText? : (fuel : Nat) → (before : List Char) → List Char → Option (String × List Char)
  | 0, _, _ => none
  | _ + 1, _, [] => none
  | fuel + 1, before, '\\' :: letter :: text =>
    if letter = 'u' then do
      let (char, text) ← readEscaped? text
      readText? fuel (char :: before) text
    else do
      let char ← unescape? letter
      readText? fuel (char :: before) text
  | fuel + 1, before, char :: text =>
    if char = '"' then some (String.ofList before.reverse, text)
    else if char.toNat < 32 ∨ char = '\\' then none
    else readText? fuel (char :: before) text

/-- Adds digits to a number for as long as it fits into 64 bits, and gives back those left. -/
def takeDigits (value : Nat) : List Char → Nat × List Char
  | [] => (value, [])
  | digit :: rest =>
    let next := value * 10 + Literal.digitValue digit
    if next ≤ maxWord then takeDigits next rest else (value, digit :: rest)

/-- The number that a spelling with a fraction or an exponent, or with too many digits for an
integer, stands for. Digits that do not fit are passed over. -/
def floatOf? (negative : Bool) (whole fraction : List Char) (exponent : Int) : Option Binary64 := do
  let (value, unread) := takeDigits 0 whole
  let (value, left) := takeDigits value fraction
  let places : Int := fraction.length - left.length
  let number ← Binary64.scale? value (exponent + unread.length - places)
  return .withSign negative number.magnitude

/-- The number that a spelling stands for: an integer if it has neither fraction nor exponent and
fits into 64 bits. -/
def numberOf? (negative : Bool) (whole fraction exponent : List Char) : Option Number :=
  let value : Int := if negative then -(Literal.natOfDigits whole) else Literal.natOfDigits whole
  if fraction = [] ∧ exponent = [] ∧ -(Literal.maxInteger + 1) ≤ value ∧ value ≤ maxWord ∧
      ¬(negative ∧ value = 0) then
    some (.integer value)
  else do
    let exponent ← Literal.readExponent exponent
    return .float (← floatOf? negative whole (fraction.drop 1) exponent)

/-- Reads a number. -/
def readNumber? (text : List Char) : Option (Number × List Char) := do
  let negative := Text.startsWith ['-'] text
  let text := text.drop negative.toNat
  let whole := text.takeWhile Char.isDigit
  let afterWhole := text.dropWhile Char.isDigit
  let fraction := match afterWhole with
    | '.' :: digits => '.' :: digits.takeWhile Char.isDigit
    | _ => []
  let afterFraction := afterWhole.drop fraction.length
  let exponent := match afterFraction with
    | mark :: rest =>
      if mark = 'e' ∨ mark = 'E' then
        let sign := rest.takeWhile fun char => char = '+' ∨ char = '-'
        mark :: (sign ++ (rest.drop sign.length).takeWhile Char.isDigit)
      else []
    | [] => []
  if whole = [] ∨ (whole.head? = some '0' ∧ whole.length ≠ 1) ∨ fraction.length = 1 then none
  else
    let number ← numberOf? negative whole fraction exponent
    return (number, afterFraction.drop exponent.length)

mutual

/-- Reads a value; every value, item and field takes one unit of `fuel`. -/
def readValue? : (fuel : Nat) → List Char → Option (Json × List Char)
  | 0, _ => none
  | fuel + 1, text =>
    match skipBlanks text with
    | '"' :: text => (readText? (text.length + 1) [] text).map fun (value, text) =>
      (string value, text)
    | '[' :: text =>
      match skipBlanks text with
      | ']' :: text => some (array [], text)
      | text => (readItems? fuel [] text).map fun (items, text) => (array items, text)
    | '\x7b' :: text =>
      match skipBlanks text with
      | '\x7d' :: text => some (object [], text)
      | text => (readFields? fuel [] text).map fun (fields, text) => (object fields, text)
    | 'n' :: 'u' :: 'l' :: 'l' :: text => some (null, text)
    | 't' :: 'r' :: 'u' :: 'e' :: text => some (bool true, text)
    | 'f' :: 'a' :: 'l' :: 's' :: 'e' :: text => some (bool false, text)
    | text => (readNumber? text).map fun (value, text) => (number value, text)

/-- Reads the items of an array after those in `before`, which are last one first. -/
def readItems? : (fuel : Nat) → (before : List Json) → List Char → Option (List Json × List Char)
  | 0, _, _ => none
  | fuel + 1, before, text => do
    let (item, text) ← readValue? fuel text
    match skipBlanks text with
    | ']' :: text => return ((item :: before).reverse, text)
    | ',' :: text => readItems? fuel (item :: before) text
    | _ => none

/-- Reads the fields of an object after those in `before`. -/
def readFields? : (fuel : Nat) → (before : List (Named Json)) → List Char →
    Option (List (Named Json) × List Char)
  | 0, _, _ => none
  | fuel + 1, before, text => do
    match skipBlanks text with
    | '"' :: text =>
      let (name, text) ← readText? (text.length + 1) [] text
      match skipBlanks text with
      | ':' :: text =>
        let (value, text) ← readValue? fuel text
        let fields := setField name value before
        match skipBlanks text with
        | '\x7d' :: text => return (fields, text)
        | ',' :: text => readFields? fuel fields text
        | _ => none
      | _ => none
    | _ => none

end

/-- The value that a text spells, if it spells one. -/
def read? (text : String) : Option Json := do
  let (value, rest) ← readValue? (text.length + 1) text.toList
  if skipBlanks rest = [] then return value else none

end Stencil.Json

import Stencil.Json.Reader
import Stencil.Literal

/-!
# Scalars of TOML

Values of the TOML data format, and the reading of those that do not hold others: strings in four
styles, numbers, truth values, and dates and times, of which only the form is looked at.
-/

namespace Stencil

/-- A TOML value. -/
inductive Toml where
  | string (value : String)
  | integer (value : Int)
  | float
  | boolean (value : Bool)
  | datetime
  | array (items : List Toml)
  | table (entries : List (Named Toml))

namespace Toml

/-- Blanks within a line. -/
def isSpace (char : Char) : Bool :=
  char = ' ' || char = '\t'

/-- A text without the blanks at its start. -/
def skipSpaces (text : List Char) : List Char :=
  text.dropWhile isSpace

/-- Characters that may stand in comments and strings of one line. -/
def isPrintable (char : Char) : Bool :=
  char = '\t' || (32 ≤ char.toNat && char.toNat ≠ 127)

/-- What follows a line break at the start of a text. -/
def newline? : List Char → Option (List Char)
  | '\n' :: text | '\r' :: '\n' :: text => some text
  | _ => none

/-- The number that digits in base sixteen spell. -/
def hexNumber? (digits : List Char) : Option Nat :=
  digits.foldlM (fun value digit => do return value * 16 + (← Json.hexValue? digit)) 0

/-- The character with a code point, if there is one. -/
def char? (point : Nat) : Option Char :=
  if point.isValidChar then some (Char.ofNat point) else none

/-- Reads a character given by `count` digits of its code point. -/
def codePoint? (count : Nat) (text : List Char) : Option (Char × List Char) := do
  if text.length < count then none
  else return (← char? (← hexNumber? (text.take count)), text.drop count)

/-- Reads an escape after its backslash. -/
def escape? : List Char → Option (Char × List Char)
  | [] => none
  | letter :: text =>
    match letter with
    | 'b' => some (Char.ofNat 8, text)
    | 't' => some ('\t', text)
    | 'n' => some ('\n', text)
    | 'f' => some (Char.ofNat 12, text)
    | 'r' => some ('\r', text)
    | '"' => some ('"', text)
    | '\\' => some ('\\', text)
    | 'u' => codePoint? 4 text
    | 'U' => codePoint? 8 text
    | _ => none

/-- Reads the rest of a string of one line; each character takes one unit of `fuel`. -/
def basicString? : (fuel : Nat) → (before : List Char) → List Char → Option (String × List Char)
  | 0, _, _ | _, _, [] => none
  | fuel + 1, before, char :: text =>
    if char = '"' then some (String.ofList before.reverse, text)
    else if char = '\\' then do
      let (char, text) ← escape? text
      basicString? fuel (char :: before) text
    else if isPrintable char then basicString? fuel (char :: before) text
    else none

/-- Reads the rest of a string of one line in which nothing is escaped. -/
def literalString? : (before : List Char) → List Char → Option (String × List Char)
  | _, [] => none
  | before, char :: text =>
    if char = '\'' then some (String.ofList before.reverse, text)
    else if isPrintable char then literalString? (char :: before) text
    else none

/-- The number of quotes at the start of a text. -/
def quoteCount (quote : Char) (text : List Char) : Nat :=
  (text.takeWhile (· = quote)).length

/-- A text without the blanks and line breaks at its start. A carriage return on its own is no
line break. -/
def skipBlankLines : List Char → List Char
  | '\r' :: '\n' :: text | '\n' :: text | ' ' :: text | '\t' :: text => skipBlankLines text
  | text => text

/-- What follows a backslash at the end of a line: the next line that is not blank, from its first
character that is not. -/
def lineContinuation? (text : List Char) : Option (List Char) :=
  (newline? (skipSpaces text)).map skipBlankLines

/-- Reads the rest of a string of several lines. Up to two quotes may stand before the three that
end it. -/
def multilineString? (quote : Char) : (fuel : Nat) → (before : List Char) → List Char →
    Option (String × List Char)
  | 0, _, _ | _, _, [] => none
  | fuel + 1, before, char :: text =>
    let quotes := quoteCount quote (char :: text)
    if 3 ≤ quotes then
      let extra := min (quotes - 3) 2
      some (String.ofList (List.replicate extra quote ++ before).reverse,
        (char :: text).drop (extra + 3))
    else if char = '\\' ∧ quote = '"' then
      match lineContinuation? text with
      | some rest => multilineString? quote fuel before rest
      | none => do
        let (char, text) ← escape? text
        multilineString? quote fuel (char :: before) text
    else match newline? (char :: text) with
      | some rest => multilineString? quote fuel ('\n' :: before) rest
      | none => if isPrintable char then multilineString? quote fuel (char :: before) text else none

/-- Reads a string of any style. A line break right after the opening quotes of a string of
several lines is not part of it. -/
def string? (text : List Char) : Option (String × List Char) :=
  let body (text : List Char) := (newline? text).getD text
  match text with
  | '"' :: '"' :: '"' :: text => multilineString? '"' (text.length + 1) [] (body text)
  | '\'' :: '\'' :: '\'' :: text => multilineString? '\'' (text.length + 1) [] (body text)
  | '"' :: text => basicString? (text.length + 1) [] text
  | '\'' :: text => literalString? [] text
  | _ => none

/-- Digits without the underscores between them, each of which must stand between two digits. -/
def digits? (isDigit : Char → Bool) : List Char → Option (List Char)
  | [] => none
  | [digit] => if isDigit digit then some [digit] else none
  | digit :: '_' :: rest => if isDigit digit then (digits? isDigit rest).map (digit :: ·) else none
  | digit :: rest => if isDigit digit then (digits? isDigit rest).map (digit :: ·) else none

/-- The number that digits in a base spell, if it is an integer of 64 bits. -/
def inBase? (base : Nat) (text : List Char) : Option Toml := do
  let isDigit (char : Char) := (Json.hexValue? char).any (· < base)
  let digits ← digits? isDigit text
  let value := digits.foldl (fun value digit => value * base + (Json.hexValue? digit).getD 0) 0
  if value ≤ Literal.maxInteger then return integer value else none

/-- Digits of a whole number, which has no zero before other digits. -/
def wholeDigits? (text : List Char) : Option (List Char) := do
  let digits ← digits? Char.isDigit text
  if digits.head? = some '0' ∧ digits.length ≠ 1 then none else return digits

/-- A number without its sign, if it has one. -/
def unsigned : List Char → Bool × List Char
  | '-' :: text => (true, text)
  | '+' :: text => (false, text)
  | text => (false, text)

/-- A decimal integer of 64 bits. -/
def decimal? (text : List Char) : Option Toml := do
  let (negative, text) := unsigned text
  let value := Literal.natOfDigits (← wholeDigits? text)
  if negative then
    if value ≤ Literal.maxInteger + 1 then return integer (-value) else none
  else if value ≤ Literal.maxInteger then return integer value
  else none

/-- A text split at the first character that satisfies `isMark`. -/
def splitAt? (isMark : Char → Bool) (text : List Char) : List Char × Option (List Char) :=
  match text.dropWhile (!isMark ·) with
  | [] => (text, none)
  | _ :: rest => (text.takeWhile (!isMark ·), some rest)

/-- A floating-point number: a whole number with a fraction, an exponent, or both. One that is too
large is refused, one that is too small to be finite stands for the infinity below zero. -/
def float? (text : List Char) : Option Toml := do
  let (negative, text) := unsigned text
  let word := String.ofList text
  if word = "inf" ∨ word = "nan" then return float
  else
    let (mantissa, exponent) := splitAt? (fun char => char = 'e' || char = 'E') text
    let (whole, fraction) := splitAt? (· = '.') mantissa
    let _ ← wholeDigits? whole
    if let some fraction := fraction then
      let _ ← digits? Char.isDigit fraction
    if let some exponent := exponent then
      let _ ← digits? Char.isDigit (unsigned exponent).2
    let value ← Literal.readDecimal negative (text.filter (· ≠ '_'))
    if (fraction.isNone ∧ exponent.isNone) ∨ value = .infinity false then none else return float

/-- The number that exactly `count` digits spell, with what follows. -/
def fixedDigits? (count : Nat) (text : List Char) : Option (Nat × List Char) :=
  let digits := text.take count
  if digits.length = count ∧ digits.all Char.isDigit then
    some (Literal.natOfDigits digits, text.drop count)
  else none

/-- What follows a given character. -/
def after? (expected : Char) : List Char → Option (List Char)
  | char :: text => if char = expected then some text else none
  | [] => none

/-- The number of days of a month. -/
def daysIn (year month : Nat) : Nat :=
  if month = 2 then
    if year % 4 = 0 ∧ (year % 100 ≠ 0 ∨ year % 400 = 0) then 29 else 28
  else if month ∈ [4, 6, 9, 11] then 30
  else 31

/-- What follows a date. -/
def date? (text : List Char) : Option (List Char) := do
  let (year, text) ← fixedDigits? 4 text
  let (month, text) ← fixedDigits? 2 (← after? '-' text)
  let (day, text) ← fixedDigits? 2 (← after? '-' text)
  if 1 ≤ month ∧ month ≤ 12 ∧ 1 ≤ day ∧ day ≤ daysIn year month then return text else none

/-- What follows a time of day. -/
def time? (text : List Char) : Option (List Char) := do
  let (hour, text) ← fixedDigits? 2 text
  let (minute, text) ← fixedDigits? 2 (← after? ':' text)
  let (second, text) ← fixedDigits? 2 (← after? ':' text)
  if 24 ≤ hour ∨ 60 ≤ minute ∨ 60 < second then none
  else match text with
    | '.' :: text =>
      if (text.takeWhile Char.isDigit).isEmpty then none
      else some (text.dropWhile Char.isDigit)
    | text => some text

/-- Whether a text is an offset from universal time. -/
def isOffset (text : List Char) : Bool :=
  match text with
  | ['Z'] | ['z'] => true
  | sign :: text => (sign = '+' || sign = '-') && (do
      let (hour, text) ← fixedDigits? 2 text
      let (minute, text) ← fixedDigits? 2 (← after? ':' text)
      return hour < 24 && minute < 60 && text.isEmpty).getD false
  | [] => false

/-- A date, a time, or both. -/
def datetime? (text : List Char) : Option Toml := do
  match date? text with
  | some [] => return datetime
  | some (mark :: text) =>
    if mark = 'T' ∨ mark = 't' ∨ mark = ' ' then
      let rest ← time? text
      if rest.isEmpty ∨ isOffset rest then return datetime else none
    else none
  | none => if (← time? text).isEmpty then return datetime else none

/-- The value of a word that is not in quotes. -/
def scalar? (word : List Char) : Option Toml :=
  match word with
  | ['t', 'r', 'u', 'e'] => some (boolean true)
  | ['f', 'a', 'l', 's', 'e'] => some (boolean false)
  | '0' :: 'x' :: digits => inBase? 16 digits
  | '0' :: 'o' :: digits => inBase? 8 digits
  | '0' :: 'b' :: digits => inBase? 2 digits
  | word => (decimal? word).or ((float? word).or (datetime? word))

/-- Characters of words that are not in quotes. -/
def isScalarChar (char : Char) : Bool :=
  char.isAlphanum || char ∈ ['+', '-', '.', '_', ':']

/-- Reads a word that is not in quotes. A blank may stand between a date and a time. -/
def word? (text : List Char) : Option (Toml × List Char) := do
  let word := text.takeWhile isScalarChar
  let rest := text.drop word.length
  let (word, rest) := match date? word, rest with
    | some [], ' ' :: next =>
      if next.head?.any Char.isDigit then
        let time := next.takeWhile isScalarChar
        (word ++ ' ' :: time, next.drop time.length)
      else (word, rest)
    | _, _ => (word, rest)
  return (← scalar? word, rest)

end Toml

end Stencil

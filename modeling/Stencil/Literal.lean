import Stencil.Number.Binary64

/-!
# Literals

The values that the texts of literal tokens stand for. Numbers are read from left to right, and
the first thing wrong with the text is what is reported. Strings keep every escape that they do
not know.
-/

namespace Stencil.Literal

/-- Why a literal has no value. -/
inductive Fault where
  | emptyInteger | invalidDigit | tooLarge | tooSmall
  | emptyFloat | invalidFloat | outOfRange
deriving DecidableEq, Repr

/-- The wording of a fault. -/
def Fault.message : Fault → String
  | emptyInteger => "cannot parse integer from empty string"
  | invalidDigit => "invalid digit found in string"
  | tooLarge => "number too large to fit in target type"
  | tooSmall => "number too small to fit in target type"
  | emptyFloat => "cannot parse float from empty string"
  | invalidFloat => "invalid float literal"
  | outOfRange => "float literal is out of range"

/-- The largest integer. -/
def maxInteger : Nat := 0x7FFFFFFFFFFFFFFF

/-- The value of a decimal digit. -/
def digitValue (char : Char) : Nat :=
  char.toNat - '0'.toNat

/-- The number that digits spell. -/
def natOfDigits (digits : List Char) : Nat :=
  digits.foldl (fun value digit => value * 10 + digitValue digit) 0

/-- Reads digits after those that spell `value`, up to a largest value. -/
def readDigits (limit : Nat) (overflow : Fault) (value : Nat) : List Char → Except Fault Nat
  | [] => .ok value
  | char :: text =>
    if char.isDigit then
      let value := value * 10 + digitValue char
      if limit < value then .error overflow else readDigits limit overflow value text
    else .error .invalidDigit

/-- Reads an integer of 64 bits, with or without a sign. -/
def readInteger (text : List Char) : Except Fault Int :=
  match text with
  | [] => .error .emptyInteger
  | ['+'] | ['-'] => .error .invalidDigit
  | '-' :: digits => do return -(← readDigits (maxInteger + 1) .tooSmall 0 digits)
  | '+' :: digits => do return (← readDigits maxInteger .tooLarge 0 digits)
  | digits => do return (← readDigits maxInteger .tooLarge 0 digits)

/-- Reads the exponent of a decimal, which must end the text. -/
def readExponent : List Char → Option Int
  | [] => some 0
  | mark :: text =>
    let (negative, digits) := match text with
      | '-' :: digits => (true, digits)
      | '+' :: digits => (false, digits)
      | digits => (false, digits)
    if (mark = 'e' ∨ mark = 'E') ∧ digits ≠ [] ∧ digits.all Char.isDigit then
      some (if negative then -(natOfDigits digits : Int) else natOfDigits digits)
    else none

/-- Reads a decimal without a sign: digits with or without a point, at least one of them, and an
exponent if there is one. -/
def readDecimal (negative : Bool) (text : List Char) : Option Binary64 := do
  let whole := text.takeWhile Char.isDigit
  let afterWhole := text.dropWhile Char.isDigit
  let fraction := match afterWhole with
    | '.' :: text => text.takeWhile Char.isDigit
    | _ => []
  let afterFraction := match afterWhole with
    | '.' :: text => text.dropWhile Char.isDigit
    | text => text
  let exponent ← readExponent afterFraction
  if whole = [] ∧ fraction = [] then none
  else
    return .ofDecimal negative (natOfDigits (whole ++ fraction)) (exponent - fraction.length)

/-- Reads a word for a number that is not finite. -/
def readSpecial (negative : Bool) (text : List Char) : Option Binary64 :=
  let word := String.ofList (text.map Char.toLower)
  if word = "inf" ∨ word = "infinity" then some (.infinity negative)
  else if word = "nan" then some (.nan negative)
  else none

/-- Reads a floating-point number, which has to be finite. -/
def readFloat (text : List Char) : Except Fault Binary64 :=
  let (negative, unsigned) := match text with
    | '-' :: unsigned => (true, unsigned)
    | '+' :: unsigned => (false, unsigned)
    | unsigned => (false, unsigned)
  if text = [] then .error .emptyFloat
  else match (readDecimal negative unsigned).or (readSpecial negative unsigned) with
    | some number => if number.isFinite then .ok number else .error .outOfRange
    | none => .error .invalidFloat

/-- What a backslash and the character after it stand for; an unknown escape stands for itself. -/
def unescape (char : Char) : List Char :=
  if char = 'n' then ['\n']
  else if char = 't' then ['\t']
  else if char = 'r' then ['\r']
  else if char = '\\' ∨ char = '\'' ∨ char = '"' then [char]
  else ['\\', char]

/-- The value of a string after its opening quote, up to the closing quote or the end. -/
def stringBody (quote : Char) : List Char → List Char
  | [] => []
  | char :: text =>
    if char = '\\' then
      match text with
      | [] => ['\\']
      | escaped :: text => unescape escaped ++ stringBody quote text
    else if char = quote then []
    else char :: stringBody quote text

/-- The value of a string token; a text that does not begin with a quote is its own value. -/
def stringValue (text : List Char) : List Char :=
  match text with
  | [] => []
  | quote :: body => if quote = '\'' ∨ quote = '"' then stringBody quote body else text

end Stencil.Literal

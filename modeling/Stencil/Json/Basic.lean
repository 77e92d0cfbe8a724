import Stencil.Expr.Basic
import Stencil.Number.Shortest
import Stencil.Text.Cut

/-!
# JSON values

Values of the JSON data format and their text. Whole numbers are exact; other numbers are
floating-point numbers, written with the fewest digits that read back as the same number. The
fields of an object are written in increasing order of their names.
-/

namespace Stencil

/-- A number of a JSON value. -/
inductive Json.Number where
  | integer (value : Int)
  | float (value : Binary64)
deriving DecidableEq, Repr

/-- A JSON value. -/
inductive Json where
  | null
  | bool (value : Bool)
  | number (value : Json.Number)
  | string (value : String)
  | array (items : List Json)
  | object (fields : List (Named Json))

namespace Json

/-- A natural number as a JSON value. -/
def ofNat (value : Nat) : Json := number (.integer value)

/-- A text that may be missing as a JSON value. -/
def ofText? (text : Option String) : Json := text.elim null string

/-- The value of a field. -/
def field? (name : String) (fields : List (Named Json)) : Option Json :=
  (fields.find? (·.name = name)).map (·.value)

/-- Sets a field; a field of that name keeps its place. -/
def setField (name : String) (value : Json) : List (Named Json) → List (Named Json)
  | [] => [⟨name, value⟩]
  | field :: rest =>
    if field.name = name then ⟨name, value⟩ :: rest else field :: setField name value rest

mutual

/-- The number of arrays and objects that a value has inside each other, at most. -/
def depth : Json → Nat
  | array items => depthOfList items + 1
  | object fields => depthOfFields fields + 1
  | _ => 0

/-- The depth of the deepest item. -/
def depthOfList : List Json → Nat
  | [] => 0
  | item :: rest => max (depth item) (depthOfList rest)

/-- The depth of the deepest field. -/
def depthOfFields : List (Named Json) → Nat
  | [] => 0
  | ⟨_, value⟩ :: rest => max (depth value) (depthOfFields rest)

end

mutual

/-- A value with the fields of its objects in increasing order of their names. -/
def sorted : Json → Json
  | array items => array (sortedList items)
  | object fields =>
    object ((sortedFields fields).mergeSort fun first second => first.name ≤ second.name)
  | value => value

/-- Each item with its fields in order. -/
def sortedList : List Json → List Json
  | [] => []
  | item :: rest => sorted item :: sortedList rest

/-- Each field with the fields inside it in order. -/
def sortedFields : List (Named Json) → List (Named Json)
  | [] => []
  | ⟨name, value⟩ :: rest => ⟨name, sorted value⟩ :: sortedFields rest

end

/-- A digit in base sixteen. -/
def hexDigit (value : Nat) : Char :=
  (Nat.toDigits 16 (value % 16)).headD '0'

/-- A character as it is written in a text: quotes, backslashes and control characters are
escaped. -/
def escape (char : Char) : List Char :=
  if char = '"' then ['\\', '"']
  else if char = '\\' then ['\\', '\\']
  else if char = '\n' then ['\\', 'n']
  else if char = '\r' then ['\\', 'r']
  else if char = '\t' then ['\\', 't']
  else if char.toNat = 8 then ['\\', 'b']
  else if char.toNat = 12 then ['\\', 'f']
  else if char.toNat < 32 then
    ['\\', 'u', '0', '0', hexDigit (char.toNat / 16), hexDigit char.toNat]
  else [char]

/-- A text in quotes. -/
def quote (text : String) : String :=
  String.ofList ('"' :: text.toList.flatMap escape ++ ['"'])

/-- The text of a finite number that is not negative, from its shortest decimal. A point is
written for numbers from a hundred-thousandth up to sixteen digits, an exponent for others. -/
def writeMagnitude (value : Binary64) : List Char :=
  if value.magnitude = 0 then ['0', '.', '0']
  else
    let (digits, point) := value.shortestDigits
    let count : Int := digits.length
    if count ≤ point ∧ point ≤ 16 then
      digits ++ List.replicate (point - count).toNat '0' ++ ['.', '0']
    else if 0 < point ∧ point ≤ 16 then
      digits.take point.toNat ++ '.' :: digits.drop point.toNat
    else if -5 < point ∧ point ≤ 0 then
      '0' :: '.' :: (List.replicate (-point).toNat '0' ++ digits)
    else
      let fraction := if count = 1 then [] else '.' :: digits.drop 1
      digits.take 1 ++ fraction ++ 'e' :: (toString (point - 1)).toList

/-- The text of a number; one that is not finite is written as null. -/
def Number.write : Number → String
  | integer value => toString value
  | float value =>
    if value.isFinite then
      String.ofList ((if value.isNegative then ['-'] else []) ++ writeMagnitude value)
    else "null"

/-- How values are laid out. -/
inductive Layout where
  /-- On one line, without blanks. -/
  | compact
  /-- One item or field on each line, set in by two spaces for each level. -/
  | indented

/-- A line break before an item at a level of nesting. -/
def Layout.newline (layout : Layout) (level : Nat) : String :=
  match layout with
  | compact => ""
  | indented => String.ofList ('\n' :: List.replicate (2 * level) ' ')

/-- What stands between the name and the value of a field. -/
def Layout.colon (layout : Layout) : String :=
  match layout with
  | compact => ":"
  | indented => ": "

/-- Items between brackets. -/
def Layout.enclose (layout : Layout) (level : Nat) (opening closing : String)
    (items : List String) : String :=
  if items.isEmpty then opening ++ closing
  else
    opening ++ layout.newline (level + 1) ++
      Text.join ("," ++ layout.newline (level + 1)) items ++ layout.newline level ++ closing

mutual

/-- The text of a value at a level of nesting, fields in the order that they have. -/
def writeAt (layout : Layout) (level : Nat) : Json → String
  | null => "null"
  | bool value => if value then "true" else "false"
  | number value => value.write
  | string value => quote value
  | array items => layout.enclose level "[" "]" (writeList layout (level + 1) items)
  | object fields => layout.enclose level "\x7b" "\x7d" (writeFields layout (level + 1) fields)

/-- The texts of items. -/
def writeList (layout : Layout) (level : Nat) : List Json → List String
  | [] => []
  | item :: rest => writeAt layout level item :: writeList layout level rest

/-- The texts of fields. -/
def writeFields (layout : Layout) (level : Nat) : List (Named Json) → List String
  | [] => []
  | ⟨name, value⟩ :: rest =>
    (quote name ++ layout.colon ++ writeAt layout level value) :: writeFields layout level rest

end

/-- The text of a value. -/
def write (layout : Layout) (value : Json) : String :=
  writeAt layout 0 value.sorted

end Json

end Stencil

/-!
# Cutting text

Prefix tests and searches on lists of characters, classes of characters given by ranges, and
slices of a text by byte offsets of its UTF-8 form. A byte slice exists only where both ends fall
between characters.
-/

namespace Stencil.Text

/-- What follows `start` in a text that begins with it. -/
def dropStart? : (start text : List Char) → Option (List Char)
  | [], text => some text
  | _ :: _, [] => none
  | expected :: start, char :: text =>
    if expected = char then dropStart? start text else none

/-- Whether a text begins with `start`. -/
def startsWith (start text : List Char) : Bool :=
  (dropStart? start text).isSome

/-- The number of characters before the first occurrence of `needle`. -/
def find? (needle : List Char) : List Char → Option Nat
  | [] => if needle.isEmpty then some 0 else none
  | char :: text =>
    if startsWith needle (char :: text) then some 0 else (find? needle text).map (· + 1)

/-- A text without its longest ending made of characters that satisfy `drop`. -/
def dropEndWhile (drop : Char → Bool) (text : List Char) : List Char :=
  (text.reverse.dropWhile drop).reverse

/-- Whether the code point of a character lies in one of several inclusive ranges. -/
def isWithin (ranges : List (Nat × Nat)) (char : Char) : Bool :=
  ranges.any fun range => range.1 ≤ char.toNat && char.toNat ≤ range.2

/-- What follows the first `count` bytes, if that many bytes are whole characters. -/
def dropBytes? : Nat → List Char → Option (List Char)
  | 0, text => some text
  | _ + 1, [] => none
  | count + 1, char :: text =>
    if char.utf8Size ≤ count + 1 then dropBytes? (count + 1 - char.utf8Size) text else none

/-- The first `count` bytes, if they are whole characters. -/
def takeBytes? : Nat → List Char → Option (List Char)
  | 0, _ => some []
  | _ + 1, [] => none
  | count + 1, char :: text =>
    if char.utf8Size ≤ count + 1 then
      (takeBytes? (count + 1 - char.utf8Size) text).map (char :: ·)
    else none

/-- The bytes from `start` up to `stop`, if both fall between characters and are in order. -/
def slice? (text : List Char) (start stop : Nat) : Option (List Char) := do
  let rest ← dropBytes? start text
  if start ≤ stop then takeBytes? (stop - start) rest else none

/-- Joins texts with a separator between neighbours. -/
def join (separator : String) : List String → String
  | [] => ""
  | [text] => text
  | text :: rest => text ++ separator ++ join separator rest

/-- A text set in a field of at least `width` characters, padded on the right. -/
def padRight (width : Nat) (text : String) : String :=
  text ++ String.ofList (List.replicate (width - text.length) ' ')

/-- A text set in a field of at least `width` characters, padded on the left. -/
def padLeft (width : Nat) (text : String) : String :=
  String.ofList (List.replicate (width - text.length) ' ') ++ text

end Stencil.Text

import Stencil.Text.Cut

/-!
# Blank characters

The characters that separate words, as the Unicode property `White_Space` lists them, and the
trimming of a blank run from the end of a text. Texts are lists of characters here, so that a
cut is a suffix and a run is a `takeWhile`.
-/

namespace Stencil.Text

/-- The code points with the property `White_Space`, as inclusive ranges in increasing order. -/
def blankRanges : List (Nat × Nat) :=
  [(0x9, 0xD), (0x20, 0x20), (0x85, 0x85), (0xA0, 0xA0), (0x1680, 0x1680), (0x2000, 0x200A),
    (0x2028, 0x2029), (0x202F, 0x202F), (0x205F, 0x205F), (0x3000, 0x3000)]

/-- A character that separates words. -/
def isBlank (char : Char) : Bool :=
  isWithin blankRanges char

/-- The length of the blank run at the start of a text. -/
def blankLength (text : List Char) : Nat :=
  (text.takeWhile isBlank).length

/-- A text without the blank run at its end. -/
def trimEnd (text : List Char) : List Char :=
  dropEndWhile isBlank text

end Stencil.Text

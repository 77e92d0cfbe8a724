/-!
# Words

The bounds of whole numbers that are kept in 64 bits: offsets, lines, columns and counts of tokens
have no sign and are at most `maxWord`. A text has at most `maxSize` bytes.
-/

namespace Stencil

/-- The largest number of 64 bits without a sign. -/
def maxWord : Nat := 0xFFFFFFFFFFFFFFFF

/-- The largest number of bytes of a text. -/
def maxSize : Nat := 0x7FFFFFFFFFFFFFFF

/-- The sum of two numbers, if it is a word. -/
def addWord? (first second : Nat) : Option Nat :=
  if first + second ≤ maxWord then some (first + second) else none

end Stencil

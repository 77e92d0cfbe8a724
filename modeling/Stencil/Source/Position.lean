import Stencil.Number.Word
import Stencil.Text.Cut

/-!
# Positions and spans

A position names a place in a template by its byte offset, its line and its column. Lines and
columns count from one; a line break starts the next line, and every other character takes one
column whatever its width in bytes. A span runs from one position up to another.
-/

namespace Stencil

/-- A place in a source text. -/
structure Position where
  /-- Bytes before the place. -/
  offset : Nat
  /-- Line, from one. -/
  line : Nat
  /-- Column in characters, from one. -/
  column : Nat
deriving DecidableEq, Repr

namespace Position

/-- The place before the first character. -/
def start : Position := ⟨0, 1, 1⟩

/-- The place after one more character. -/
def advance (position : Position) (char : Char) : Position :=
  if char = '\n' then ⟨position.offset + 1, position.line + 1, 1⟩
  else ⟨position.offset + char.utf8Size, position.line, position.column + 1⟩

/-- The place after a whole text. -/
def advanceOver (position : Position) (text : List Char) : Position :=
  text.foldl advance position

/-- The places after each character of a text. -/
def trail (position : Position) : List Char → List Position
  | [] => []
  | char :: text => position.advance char :: (position.advance char).trail text

/-- Whether the numbers of a position are words. -/
def isCounted (position : Position) : Bool :=
  position.offset ≤ maxWord && position.line ≤ maxWord && position.column ≤ maxWord

/-- The places after each character of a text, if all of them can be counted. -/
def trail? (position : Position) (text : List Char) : Option (List Position) :=
  if (position.trail text).all isCounted then some (position.trail text) else none

/-- Positions in order of offset, then line, then column. -/
def order (first second : Position) : Ordering :=
  (compare first.offset second.offset).then
    ((compare first.line second.line).then (compare first.column second.column))

/-- A position as it is written in messages. -/
def describe (position : Position) : String :=
  s!"{position.line}:{position.column}"

end Position

/-- The stretch of a source from `start` up to `stop`. -/
structure Span where
  start : Position
  stop : Position
deriving DecidableEq, Repr

namespace Span

/-- The span between two positions, which must be in order. -/
def between? (start stop : Position) : Option Span :=
  if start.offset ≤ stop.offset then some ⟨start, stop⟩ else none

/-- The empty span at a position. -/
def point (position : Position) : Span := ⟨position, position⟩

/-- The span that stands for no place at all. -/
def nowhere : Span := ⟨⟨0, 0, 0⟩, ⟨0, 0, 0⟩⟩

/-- From the earlier start to the later end of two spans; the second wins when they agree. -/
def merge (first second : Span) : Span where
  start := if first.start.offset < second.start.offset then first.start else second.start
  stop := if second.stop.offset < first.stop.offset then first.stop else second.stop

/-- The number of bytes covered, if the ends are in order. -/
def size? (span : Span) : Option Nat :=
  if span.start.offset ≤ span.stop.offset then some (span.stop.offset - span.start.offset)
  else none

/-- Whether a span covers no byte. -/
def isEmpty (span : Span) : Bool :=
  span.start.offset = span.stop.offset

/-- The text that a span covers, if it falls on whole characters of the source. -/
def slice? (span : Span) (source : List Char) : Option (List Char) :=
  Text.slice? source span.start.offset span.stop.offset

/-- A span as it is written in messages: the line is given once if both ends share it. -/
def describe (span : Span) : String :=
  if span.start.line = span.stop.line then
    s!"{span.start.line}:{span.start.column}-{span.stop.column}"
  else s!"{span.start.describe}-{span.stop.describe}"

end Span

end Stencil

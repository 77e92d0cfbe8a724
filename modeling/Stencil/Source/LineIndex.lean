import Stencil.Source.Position

/-!
# Lines of a source

A named source text cut into lines, the position of each byte offset in it, and the rendering of
a message under the line that it is about.
-/

namespace Stencil

/-- A source text with the name that messages give it. -/
structure LineIndex where
  source : List Char
  name : Option String

namespace LineIndex

/-- The pieces of a text between its line breaks: one more than there are line breaks. -/
def pieces : List Char → List (List Char)
  | [] => [[]]
  | char :: text =>
    if char = '\n' then [] :: pieces text
    else match pieces text with
      | piece :: rest => (char :: piece) :: rest
      | [] => [[char]]

/-- The byte offsets at which lines start, for a text that starts at `offset`. -/
def startsFrom : Nat → List Char → List Nat
  | _, [] => []
  | offset, char :: text =>
    if char = '\n' then (offset + 1) :: startsFrom (offset + 1) text
    else startsFrom (offset + char.utf8Size) text

/-- Searches an increasing table between two places, taking half of what is left at each step. The
result is the place of the sought number, or the place at which it is missing. -/
def search (table : Array Nat) (sought low high : Nat) (inside : high ≤ table.size) :
    Except Nat Nat :=
  if _nonempty : low < high then
    let middle := low + (high - low) / 2
    have : middle < table.size := by omega
    if table[middle] = sought then .ok middle
    else if table[middle] < sought then search table sought (middle + 1) high inside
    else search table sought low middle (by omega)
  else .error low
termination_by high - low

variable (index : LineIndex)

/-- The byte offset of each line's first character. -/
def starts : List Nat := 0 :: startsFrom 0 index.source

/-- The number of lines; a text that ends in a line break has an empty last line. -/
def lineCount : Nat := index.starts.length

/-- The line that a byte offset is on, counted from zero: the one that starts there, or else the one
before the line that would have to start there. -/
def lineAt (offset : Nat) : Nat :=
  match search index.starts.toArray offset 0 index.starts.toArray.size (Nat.le_refl _) with
  | .ok line => line
  | .error line => line - 1

/-- The position at a byte offset, if it falls between characters of the source. -/
def positionAt? (offset : Nat) : Option Position := do
  let line := index.lineAt offset
  let column ← Text.slice? index.source (← index.starts[line]?) offset
  return ⟨offset, line + 1, column.length + 1⟩

/-- The text of a line, counted from one, without the carriage returns at its end. -/
def line? (number : Nat) : Option (List Char) :=
  if number = 0 then none
  else (pieces index.source)[number - 1]?.map (Text.dropEndWhile (· = '\r'))

/-- The number of carets under a line of `width` characters; none if a span that goes on to
another line starts before the first column. -/
def caretCount? (span : Span) (width : Nat) : Option Nat :=
  if span.start.line = span.stop.line then some (span.stop.column - span.start.column)
  else if span.start.column = 0 then none
  else some (width - (span.start.column - 1))

/-- A message with the line that it is about and carets under the span, of which there is at
least one. There is none if the line of carets would be too long for a text. -/
def render? (span : Span) (message : String) : Option String := do
  let name := index.name.getD "<template>"
  let place := s!"{name}:{span.start.describe}"
  let header := s!"error: {message}\n  --> {place}\n"
  let some line := index.line? span.start.line | return header
  let carets := max (← caretCount? span line.length) 1
  let before := span.start.column - 1
  if maxSize < before ∨ maxSize < carets then none
  let number := toString span.start.line
  let margin := String.ofList (List.replicate number.length ' ')
  let indent := String.ofList (List.replicate before ' ')
  let underline := String.ofList (List.replicate carets '^')
  let shown := String.ofList line
  return header ++ s!"{margin} |\n{number} | {shown}\n{margin} | {indent}{underline}\n"

end LineIndex

end Stencil

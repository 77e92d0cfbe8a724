import Stencil.Dialect
import Stencil.Limits

/-!
# Openings

What ends a run of plain text: a start delimiter, or a line prefix at the start of a line. Of
several start delimiters the longest wins, and line prefixes come before delimiters. A block tag
that holds nothing but the word `raw` opens a raw block.
-/

namespace Stencil.Lexer

/-- A whole block tag that holds a single word. -/
structure WordTag where
  /-- The number of characters of the tag, delimiters included. -/
  length : Nat
  /-- The tag begins with a dash: blanks before it are dropped. -/
  stripBefore : Bool
  /-- The tag ends with a dash: blanks after it are dropped. -/
  stripAfter : Bool
deriving DecidableEq, Repr

/-- What begins at a place in plain text, with the number of characters of its first token. -/
inductive Opening where
  | block (length : Nat) (strip : Bool)
  | raw (tag : WordTag)
  | variable (length : Nat) (strip : Bool)
  | comment (length : Nat) (strip : Bool)
  | lineStatement (length : Nat)
  | lineComment (length : Nat)
deriving DecidableEq, Repr

/-- What a start delimiter begins. -/
inductive Start where
  | block | variable | comment
deriving DecidableEq, Repr

variable [Limits] (dialect : Dialect)

/-- The start delimiters, longest in bytes first; of equal ones, block before print tag before
comment. -/
def starts : List (String × Start) :=
  [(dialect.blockStart, .block), (dialect.variableStart, .variable),
    (dialect.commentStart, .comment)].mergeSort fun first second =>
      second.1.utf8ByteSize ≤ first.1.utf8ByteSize

/-- A block tag at the start of `text` that holds only `word`, blanks and dashes apart. -/
def wordTag? (word text : List Char) : Option WordTag := do
  let afterStart ← Text.dropStart? dialect.blockStart.toList text
  let stripBefore := Text.startsWith ['-'] afterStart
  let afterDash := afterStart.drop stripBefore.toNat
  let leading := Text.blankLength afterDash
  let afterWord ← Text.dropStart? word (afterDash.drop leading)
  let trailing := Text.blankLength afterWord
  let afterBlanks := afterWord.drop trailing
  let stripAfter := Text.startsWith ('-' :: dialect.blockEnd.toList) afterBlanks
  let _ ← Text.dropStart? dialect.blockEnd.toList (afterBlanks.drop stripAfter.toNat)
  return {
    length := dialect.blockStart.length + stripBefore.toNat + leading + word.length + trailing +
      stripAfter.toNat + dialect.blockEnd.length
    stripBefore
    stripAfter }

/-- The number of characters up to the line break, less a carriage return just before it. -/
def lineLength (text : List Char) : Nat :=
  let line := text.takeWhile (· ≠ '\n')
  if line.getLast? = some '\r' then line.length - 1 else line.length

/-- The line statement or line comment at the start of a line. Where both prefixes fit, the line
is a statement only if its prefix is the longer one. -/
def linePrefix? (text : List Char) : Option Opening :=
  let indent := (text.takeWhile fun char => char = ' ' ∨ char = '\t').length
  let afterIndent := text.drop indent
  let fitting (setting : Option String) : Option String :=
    setting.filter fun marker => Text.startsWith marker.toList afterIndent
  if indentBudget < indent then none
  else match fitting dialect.lineStatement, fitting dialect.lineComment with
    | some statement, some comment =>
      if comment.utf8ByteSize < statement.utf8ByteSize then
        some (.lineStatement (indent + statement.length))
      else some (.lineComment (indent + lineLength afterIndent))
    | some statement, none => some (.lineStatement (indent + statement.length))
    | none, some _ => some (.lineComment (indent + lineLength afterIndent))
    | none, none => none

/-- What a start delimiter at the start of `text` begins; a dash after it asks for blanks before
it to be dropped. -/
def delimiter? (text : List Char) : Option Opening := do
  let (delimiter, start) ← (starts dialect).find? fun (delimiter, _) =>
    Text.startsWith delimiter.toList text
  let strip := Text.startsWith ['-'] (text.drop delimiter.length)
  let length := delimiter.length + strip.toNat
  match start with
  | .block => match wordTag? dialect "raw".toList text with
    | some tag => return .raw tag
    | none => return .block length strip
  | .variable => return .variable length strip
  | .comment => return .comment length strip

/-- What begins at a place in plain text, if anything does. -/
def opening? (atLineStart : Bool) (text : List Char) : Option Opening :=
  (if atLineStart then linePrefix? dialect text else none).or (delimiter? dialect text)

/-- The number of characters of plain text before the next opening, after the character
`previous`. -/
def plainLengthAfter (previous : Char) : List Char → Nat
  | [] => 0
  | char :: text =>
    if (opening? dialect (previous = '\n') (char :: text)).isSome then 0
    else plainLengthAfter char text + 1

/-- The number of characters of plain text up to the next opening; the first character counts
whatever it is. -/
def plainLength : List Char → Nat
  | [] => 0
  | char :: text => plainLengthAfter dialect char text + 1

/-- The end of a raw block: the number of characters before its `endraw` tag, and that tag. Only
occurrences of the start delimiter that do not overlap are looked at; `skip` characters belong to
the last one. -/
def rawEnd? (skip : Nat) : List Char → Option (Nat × WordTag)
  | [] => none
  | char :: text =>
    let further (skip : Nat) := (rawEnd? skip text).map fun (length, tag) => (length + 1, tag)
    match skip with
    | skip + 1 => further skip
    | 0 =>
      if Text.startsWith dialect.blockStart.toList (char :: text) then
        match wordTag? dialect "endraw".toList (char :: text) with
        | some tag => some (0, tag)
        | none => further (dialect.blockStart.length - 1)
      else further 0

end Stencil.Lexer

import Stencil.Diagnostic
import Stencil.Lexer.Lexeme
import Stencil.Lexer.Opening
import Stencil.Token.Basic

/-!
# Cutting a template into tokens

The lexer walks over a template once. Its mode says what surrounds the place it has come to: plain
text, a tag, a comment or a raw block. One step takes the next token or two and may change the
mode; the walk is over when no text is left.

A step takes at least one character, or drops one of two requests that the last tag has left
behind: to drop the line break that is next, or the blanks. Only an empty line comment breaks this
rule, and it brings the walk to a standstill: the step that takes it can be taken again and again.
This is why `tokenize` may have no result, and why four steps for each character are always enough
for one.
-/

namespace Stencil.Lexer

/-- What opened a tag, and so what ends it. -/
inductive TagKind where
  /-- A block tag between delimiters. -/
  | block
  /-- A block tag opened by a line prefix, which ends with its line. -/
  | line
  /-- A print tag. -/
  | variable
deriving DecidableEq, Repr

/-- What surrounds the place that the lexer has come to. -/
inductive Mode where
  /-- Plain text, after a line break and blanks that are still to be dropped. -/
  | text (trimNewline stripBlanks : Bool)
  /-- A tag, with the number of brackets open in it. -/
  | tag (kind : TagKind) (brackets : Nat)
  /-- A comment that was opened at a position. -/
  | comment (opened : Position)
  /-- A raw block that was opened at a position, with blanks still to be dropped. -/
  | raw (opened : Position) (stripBlanks : Bool)
deriving DecidableEq, Repr

/-- How far a template has been cut. -/
structure State where
  mode : Mode
  position : Position
  /-- The text from `position` on. -/
  rest : List Char
  /-- The tokens so far, last one first. -/
  tokens : List Token
  /-- The diagnostics so far, last one first. -/
  diagnostics : List Diagnostic

namespace State

variable (state : State)

/-- Passes over characters without a token. -/
def skip (count : Nat) : State :=
  { state with
    position := state.position.advanceOver (state.rest.take count)
    rest := state.rest.drop count }

/-- Takes characters as a token. -/
def emit (sourceName : Option String) (kind : Token.Kind) (count : Nat) : State :=
  { state.skip count with
    tokens :=
      ⟨kind, String.ofList (state.rest.take count), state.position, sourceName⟩ :: state.tokens }

/-- Notes a diagnostic. -/
def report (diagnostic : Diagnostic) : State :=
  { state with diagnostics := diagnostic :: state.diagnostics }

/-- Goes on in another mode. -/
def enter (mode : Mode) : State :=
  { state with mode }

/-- Drops the blanks at the end of the last token if it is plain text; a token of blanks only is
dropped altogether. -/
def stripLast (strip : Bool) : State :=
  match strip, state.tokens with
  | true, last :: tokens =>
    if last.kind = .data then
      match Text.trimEnd last.text.toList with
      | [] => { state with tokens }
      | kept => { state with tokens := { last with text := String.ofList kept } :: tokens }
    else state
  | _, _ => state

/-- Drops a line break, if one is next. -/
def skipNewline : State :=
  match state.rest with
  | '\r' :: '\n' :: _ => state.skip 2
  | '\n' :: _ => state.skip 1
  | _ => state

/-- Drops the blanks that are next. -/
def skipBlanks : State :=
  state.skip (Text.blankLength state.rest)

end State

variable [Limits] (dialect : Dialect) (sourceName : Option String)

/-- Takes the token that opens a tag, a comment or a raw block. -/
def openWith (opening : Opening) (state : State) : State :=
  match opening with
  | .block length strip =>
    ((state.stripLast strip).emit sourceName .blockBegin length).enter (.tag .block 0)
  | .raw tag =>
    ((state.stripLast tag.stripBefore).emit sourceName .rawBegin tag.length).enter
      (.raw state.position tag.stripAfter)
  | .variable length strip =>
    ((state.stripLast strip).emit sourceName .variableBegin length).enter (.tag .variable 0)
  | .comment length strip =>
    ((state.stripLast strip).emit sourceName .commentBegin length).enter (.comment state.position)
  | .lineStatement length => (state.emit sourceName .blockBegin length).enter (.tag .line 0)
  | .lineComment length => state.emit sourceName .lineComment length

/-- A step in plain text: what is to be dropped goes first, the line break before the blanks; then
an opening or a run of text is taken. -/
def stepText (trimNewline stripBlanks : Bool) (state : State) : State :=
  if trimNewline then state.skipNewline.enter (.text false stripBlanks)
  else if stripBlanks then state.skipBlanks.enter (.text false false)
  else match opening? dialect (state.position.column = 1) state.rest with
    | some opening => openWith sourceName opening state
    | none => state.emit sourceName .data (plainLength dialect state.rest)

/-- The delimiter that ends a tag, with its kind. -/
def closer (kind : TagKind) : List Char × Token.Kind :=
  match kind with
  | .block | .line => (dialect.blockEnd.toList, .blockEnd)
  | .variable => (dialect.variableEnd.toList, .variableEnd)

/-- Takes the string whose opening quote is next; without a closing quote it runs to the end. -/
def takeString (quote : Char) (state : State) : State :=
  match stringLength? quote (state.rest.drop 1) with
  | some length => state.emit sourceName .string (length + 1)
  | none =>
    (state.emit sourceName .string state.rest.length).report (.unterminatedString state.position)

/-- Takes one token other than the end of the tag. -/
def takeLexeme (kind : TagKind) (brackets : Nat) (char : Char) (state : State) : State :=
  if Text.isBlank char then
    let inLine := kind = .line ∧ brackets = 0
    let run := state.rest.takeWhile fun char => Text.isBlank char ∧ ¬(inLine ∧ char = '\n')
    state.emit sourceName .whitespace run.length
  else if char = '\'' ∨ char = '"' then takeString sourceName char state
  else if char.isDigit then
    let (kind, length) := number state.rest
    state.emit sourceName kind length
  else if isWordStart char then
    let (kind, length) := word state.rest
    state.emit sourceName kind length
  else match symbol? state.rest with
    | some (symbol, length) =>
      (state.emit sourceName symbol length).enter (.tag kind (bracketsAfter symbol brackets))
    | none =>
      (state.emit sourceName .data 1).report (.unexpectedCharacter char state.position)

/-- A step inside a tag: the end of the line of a line statement, the end of the tag, or one
token. -/
def stepTag (kind : TagKind) (brackets : Nat) (state : State) : State :=
  match state.rest with
  | [] => state
  | char :: text =>
    let (delimiter, endKind) := closer dialect kind
    let strip := char = '-' ∧ Text.startsWith delimiter text
    if kind = .line ∧ brackets = 0 ∧ char = '\n' then
      (state.emit sourceName .blockEnd 1).enter (.text false false)
    else if strip ∨ Text.startsWith delimiter (char :: text) then
      (state.emit sourceName endKind (delimiter.length + (decide strip).toNat)).enter
        (.text (kind = .block ∧ dialect.trimBlocks) strip)
    else takeLexeme sourceName kind brackets char state

/-- A step inside a comment takes all of it; a dash before the end delimiter is not part of the
comment and drops the blanks that follow. -/
def stepComment (opened : Position) (state : State) : State :=
  match Text.find? dialect.commentEnd.toList state.rest with
  | some length =>
    let strip := (state.rest.take length).getLast? = some '-'
    let dash := (decide strip).toNat
    ((state.emit sourceName .comment (length - dash)).emit sourceName .commentEnd
      (dialect.commentEnd.length + dash)).enter (.text dialect.trimBlocks strip)
  | none =>
    ((state.emit sourceName .comment state.rest.length).report (.unterminatedComment opened)).enter
      (.text false false)

/-- A step inside a raw block drops the blanks that are to be dropped, or takes the text of the
block and its `endraw` tag. -/
def stepRaw (opened : Position) (stripBlanks : Bool) (state : State) : State :=
  if stripBlanks then state.skipBlanks.enter (.raw opened false)
  else match rawEnd? dialect 0 state.rest with
    | some (length, tag) =>
      let state := if length = 0 then state else state.emit sourceName .data length
      ((state.stripLast tag.stripBefore).emit sourceName .rawEnd tag.length).enter
        (.text dialect.trimBlocks tag.stripAfter)
    | none =>
      ((state.emit sourceName .data state.rest.length).report (.unterminatedRaw opened)).enter
        (.text false false)

/-- One step of the walk. -/
def step (state : State) : State :=
  match state.mode with
  | .text trimNewline stripBlanks => stepText dialect sourceName trimNewline stripBlanks state
  | .tag kind brackets => stepTag dialect sourceName kind brackets state
  | .comment opened => stepComment dialect sourceName opened state
  | .raw opened stripBlanks => stepRaw dialect sourceName opened stripBlanks state

/-- Walks on until no text is left, for at most `steps` steps. -/
def run : (steps : Nat) → State → Option State
  | 0, state => if state.rest = [] then some state else none
  | steps + 1, state =>
    if state.rest = [] then some state else run steps (step dialect sourceName state)

/-- Closes what is open at the end of the text and adds the token for the end. -/
def finish (state : State) : State :=
  let state := match state.mode with
    | .comment opened => (state.emit sourceName .comment 0).report (.unterminatedComment opened)
    | .raw opened _ => state.report (.unterminatedRaw opened)
    | .tag .line _ => state.emit sourceName .blockEnd 0
    | _ => state
  (state.emit sourceName .eof 0).enter (.text false false)

/-- The start of a walk over a text. -/
def State.ofSource (source : List Char) : State where
  mode := .text false false
  position := .start
  rest := source
  tokens := []
  diagnostics := []

end Stencil.Lexer

namespace Stencil

/-- What a template's text was cut into. -/
structure Tokenization where
  tokens : List Token
  diagnostics : List Diagnostic
  /-- The number of lines of the text. -/
  lineCount : Nat

variable [Limits]

/-- Cuts a template into tokens. There is no result if the dialect lets the walk go on forever
without taking a character. -/
def tokenize (dialect : Dialect) (sourceName : Option String) (source : String) :
    Option Tokenization := do
  let source := source.toList
  let last ← Lexer.run dialect sourceName (4 * (source.length + 1)) (.ofSource source)
  let done := Lexer.finish sourceName last
  return {
    tokens := done.tokens.reverse
    diagnostics := done.diagnostics.reverse
    lineCount := done.position.line }

end Stencil

import Stencil.Stmt.Parse

/-!
# Parsing templates

A template is parsed statement by statement. An error inside a statement drops that statement, and
the parse is taken up again at the next tag; a closing tag without a block to close is dropped by
itself. Only a template that is nested too deeply has no tree.
-/

namespace Stencil.Template

variable [Limits]

/-- How far a template has been parsed. -/
structure Progress where
  place : Place := {}
  body : List Stmt := []
  /-- The errors met so far, in the order in which they were met. -/
  errors : List SyntaxError := []
  /-- The error that ended the parse. -/
  fatal : Option SyntaxError := none

namespace Progress

variable (progress : Progress)

/-- The errors that are remembered: the last ones met. -/
def recovered : List SyntaxError :=
  progress.errors.drop (progress.errors.length - maxErrors)

/-- What came of a parse. -/
def result (stream : TokenStream) : Except SyntaxError Template :=
  match progress.fatal with
  | some error => .error error
  | none => .ok ⟨progress.body, stream.sourceName⟩

end Progress

variable (registry : Registry) (stream : TokenStream)

/-- The word of a closing tag that is next, although no block is open. -/
def strayTag? (cursor : Nat) : Option String :=
  if (stream.get cursor).kind = .blockBegin then
    (stream.get (cursor + 1)).word?.filter registry.isClosing
  else none

/-- The place after a closing tag at `cursor`. -/
def afterTag (cursor : Nat) : Nat :=
  match Stmt.skipTag stream (stream.next cursor) with
  | .ok _ after | .error _ after => after

/-- The place at which a parse is taken up after a statement that started at `start` failed at
`cursor`: the next boundary, at least one token on. -/
def recoveryPoint (start cursor : Nat) : Nat :=
  stream.seek (·.kind.isBoundary) (if cursor = start then stream.next cursor else cursor)

/-- Parses the next statement, or drops a closing tag. -/
def parseNext (progress : Progress) : Progress :=
  let { place, body, errors, .. } := progress
  match strayTag? registry stream place.cursor with
  | some word =>
    let tag := stream.get (stream.next place.cursor)
    { progress with
      place := { place with cursor := afterTag stream place.cursor }
      errors := errors ++ [.violation (.strayAtTop word) tag.span] }
  | none => match Stmt.parse registry stream place with
    | .ok (some stmt) place => { progress with place, body := body ++ [stmt] }
    | .ok none place => { progress with place }
    | .error error after =>
      if error.isRecoverable then
        { progress with
          place := { after with cursor := recoveryPoint stream place.cursor after.cursor }
          errors := errors ++ [error] }
      else { progress with place := after, fatal := some error }

/-- Parses statements up to the end of the template. A step that does not get further is the last
one. -/
def parseAll (progress : Progress) : Progress :=
  if (stream.get progress.place.cursor).kind = .eof then progress
  else
    let next := parseNext registry stream progress
    if next.fatal.isNone ∧ progress.place.cursor < next.place.cursor ∧
        progress.place.cursor < stream.size then
      parseAll next
    else next
termination_by stream.size - progress.place.cursor
decreasing_by
  rename_i further
  exact Nat.sub_lt_sub_left further.2.2 further.2.1

/-- Parses a template from its first token on. -/
def parse : Progress :=
  parseAll registry stream {}

/-- The tree of a template without errors; otherwise the first error that is remembered. -/
def parseStrict : Except SyntaxError Template := do
  let progress := parse {} stream
  let template ← progress.result stream
  match progress.recovered.head? with
  | some error => throw error
  | none => return template

end Stencil.Template

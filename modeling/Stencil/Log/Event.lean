import Stencil.Code
import Stencil.Json.Basic
import Stencil.Limits
import Stencil.Source.Position
import Stencil.Text.Lower

/-!
# Log events

What is told about the work on a template while it goes on. An event has a level, a code, a
message, the span that it is about, and named details. It is written as a line of plain text or
as a JSON value.
-/

namespace Stencil.Log

/-- How much an event matters, most first. -/
inductive Level where
  | error | warning | info | debug
deriving DecidableEq, Repr

namespace Level

/-- Every level. -/
def all : List Level := [error, warning, info, debug]

/-- The place of a level, counted from the one that matters most. -/
def rank : Level → Nat
  | error => 0
  | warning => 1
  | info => 2
  | debug => 3

/-- The name of a level in log lines. -/
def label : Level → String
  | error => "ERROR"
  | warning => "WARN"
  | info => "INFO"
  | debug => "DEBUG"

/-- The name of a level in settings. -/
def setting : Level → String
  | error => "error"
  | warning => "warning"
  | info => "info"
  | debug => "debug"

/-- The level that a word or number asks for; case does not matter. -/
def ofWord? (word : String) : Option Level :=
  let lower := Text.lower word
  if lower = "error" ∨ lower = "0" then some error
  else if lower = "warning" ∨ lower = "warn" ∨ lower = "1" then some warning
  else if lower = "info" ∨ lower = "2" then some info
  else if lower = "debug" ∨ lower = "3" then some debug
  else none

end Level

/-- The longest start of a text that takes at most `bytes` bytes. -/
def takeFitting : (bytes : Nat) → List Char → List Char
  | _, [] => []
  | bytes, char :: text =>
    if char.utf8Size ≤ bytes then char :: takeFitting (bytes - char.utf8Size) text else []

variable [Limits]

/-- A message cut down to the most bytes that it may have, with a mark where it was cut. -/
def clip (message : String) : String :=
  if maxMessage < message.utf8ByteSize then
    String.ofList (takeFitting maxMessage message.toList) ++ "..."
  else message

/-- An event. -/
structure Event where
  level : Level
  code : String
  message : String
  span : Option Span := none
  /-- Named details, in increasing order of their names. -/
  context : List (String × String) := []
deriving DecidableEq, Repr

namespace Event

/-- An error with its code. -/
def error (code message : String) : Event := ⟨.error, code, clip message, none, []⟩

/-- A warning with its code. -/
def warningWith (code message : String) : Event := ⟨.warning, code, clip message, none, []⟩

/-- A warning without a code of its own. -/
def warning (message : String) : Event := warningWith "W000" message

/-- A success with its code. -/
def success (code message : String) : Event := ⟨.info, code, clip message, none, []⟩

/-- A note without a code of its own. -/
def info (message : String) : Event := success "I000" message

/-- A note for those who look for a fault. -/
def debug (message : String) : Event := ⟨.debug, "D000", clip message, none, []⟩

/-- Puts a detail in its place in an increasing list; a detail of that name is replaced. -/
def insertDetail (name value : String) : List (String × String) → List (String × String)
  | [] => [(name, value)]
  | (other, old) :: rest =>
    if name < other then (name, value) :: (other, old) :: rest
    else if name = other then (name, value) :: rest
    else (other, old) :: insertDetail name value rest

variable (event : Event)

/-- The event with the span that it is about. -/
def withSpan (span : Span) : Event := { event with span := some span }

/-- The event with one more detail. -/
def withDetail (name value : String) : Event :=
  { event with context := insertDetail name value event.context }

/-- The event with more details, added in turn. -/
def withDetails (details : List (String × String)) : Event :=
  details.foldl (fun event (name, value) => event.withDetail name value) event

/-- The event with the name of the template that is being worked on. -/
def withTemplate (template : Option String) : Event :=
  template.elim event (event.withDetail "template")

/-- The value of a detail. -/
def detail? (name : String) : Option String :=
  event.context.lookup name

/-- Whether the code of an event stops all work. -/
def halts : Bool := Code.halts event.code

/-- The severity of the code of an event. -/
def severity : String := (Code.severity event.code).label

/-- The area of the code of an event. -/
def category : String := Code.category event.code

/-- The event as a line of plain text. -/
def describe : String :=
  let place := event.span.elim "" fun span => s!" at {span.start.describe}"
  let details := event.context.map fun (name, value) => s!"{name}={value}"
  let shown := Text.join ", " details
  let context := if event.context.isEmpty then "" else s!" ({shown})"
  s!"[{event.level.label}] {event.code} - {event.message}{place}{context}"

/-- What is known about the code of an error. -/
def errorFields : List (Named Json) :=
  if event.level = .error then
    [⟨"error_metadata", .object
      [⟨"recoverable", .bool (Code.isRecoverable event.code)⟩,
        ⟨"requires_halt", .bool event.halts⟩,
        ⟨"description", .string (Code.description event.code)⟩,
        ⟨"recommended_action", .string (Code.action event.code)⟩]⟩]
  else []

/-- The lines and columns of a span. -/
def spanFields : List (Named Json) :=
  match event.span with
  | none => []
  | some span =>
    [⟨"span", .object
      [⟨"start_line", .ofNat span.start.line⟩, ⟨"start_column", .ofNat span.start.column⟩,
        ⟨"end_line", .ofNat span.stop.line⟩, ⟨"end_column", .ofNat span.stop.column⟩]⟩]

/-- The named details. -/
def contextFields : List (Named Json) :=
  if event.context.isEmpty then []
  else [⟨"context", .object (event.context.map fun (name, value) => ⟨name, .string value⟩)⟩]

/-- The event as a JSON value, with the time at which it happened. -/
def toJson (time : String) : Json :=
  .object
    ([⟨"timestamp", .string time⟩, ⟨"level", .string event.level.label⟩,
        ⟨"code", .string event.code⟩, ⟨"message", .string event.message⟩,
        ⟨"category", .string event.category⟩, ⟨"severity", .string event.severity⟩] ++
      event.errorFields ++ event.spanFields ++ event.contextFields)

end Event

end Stencil.Log

import Stencil.Log.Event

/-!
# Keeping events

A service passes on the events that matter enough; a memory keeps the latest of those it is
given.
-/

namespace Stencil.Log

/-- Whether events of a level are passed on, given the least level that is. -/
def Level.passes (least level : Level) : Bool :=
  level.rank ≤ least.rank

/-- The latest events, oldest first. -/
structure Memory where
  events : Array Event := #[]

namespace Memory

variable [Limits] (memory : Memory)

/-- Keeps an event; the oldest ones make room for it. -/
def add (event : Event) : Memory :=
  if memory.events.size < memorySize then ⟨memory.events.push event⟩
  else
    let first := memory.events.size - (memorySize - 1)
    ⟨(memory.events.extract first memory.events.size).push event⟩

/-- Keeps an event if it matters enough. -/
def log (least : Level) (event : Event) : Memory :=
  if least.passes event.level then memory.add event else memory

/-- The events with a code. -/
def withCode (code : String) : List Event :=
  memory.events.toList.filter (·.code = code)

/-- Whether there is an error with a code. -/
def hasError (code : String) : Bool :=
  memory.events.any fun event => event.level = .error && event.code = code

/-- The events that name a template. -/
def forTemplate (template : String) : List Event :=
  memory.events.toList.filter (·.detail? "template" = some template)

end Memory

end Stencil.Log

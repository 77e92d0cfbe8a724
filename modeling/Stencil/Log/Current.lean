import Stencil.Log.Event

/-!
# The current template

Work during which at most one template is current. Events that arise are given its name.
-/

namespace Stencil.Log

/-- Work during which a template may be current. -/
abbrev Current := StateM (Option String)

namespace Current

/-- Does some work with a template as the current one; afterwards the one before is current again,
whatever the work did. -/
def within {α : Type} (template : String) (work : Current α) : Current α := do
  let before ← get
  set (some template)
  let result ← work
  set before
  return result

/-- An event with the name of the current template. -/
def tag (event : Event) : Current Event := do
  return event.withTemplate (← get)

end Current

end Stencil.Log

/-!
# Limits

Limits that are chosen when the program is built. Rules and theorems hold for all limits that a
build accepts; a build checks the bounds that are given here with them.
-/

namespace Stencil

/-- Limits that a build accepts. -/
class Limits where
  /-- The most spaces and tabs that may stand before a line prefix. -/
  indentBudget : Nat
  /-- The most levels that tags and expressions may be nested. -/
  maxDepth : Nat
  /-- The most errors that are remembered. -/
  maxErrors : Nat
  /-- The most constructs that a trail names. -/
  maxTrail : Nat
  /-- The most events that a memory keeps. -/
  memorySize : Nat
  /-- The most bytes of the message of an event. -/
  maxMessage : Nat
  indentBudget_le : indentBudget ≤ 80
  maxDepth_pos : 0 < maxDepth
  maxDepth_le : maxDepth ≤ 4096
  maxErrors_pos : 0 < maxErrors
  memorySize_ge : 100 ≤ memorySize
  memorySize_le : memorySize ≤ 100000

export Limits (maxDepth maxErrors maxTrail)

namespace Lexer

export Limits (indentBudget)

end Lexer

namespace Log

export Limits (memorySize maxMessage)

end Log

end Stencil

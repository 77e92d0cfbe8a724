import Stencil.Limits

/-!
# Build profiles

The limits of the two profiles that a build can be made with. Programs, and runs on given
templates, have the limits of the development profile, unless others are given.
-/

namespace Stencil.Limits

/-- The limits of development builds. -/
instance development : Limits where
  indentBudget := 4
  maxDepth := 256
  maxErrors := 100
  maxTrail := 64
  memorySize := 10000
  maxMessage := 4096
  indentBudget_le := by decide
  maxDepth_pos := by decide
  maxDepth_le := by decide
  maxErrors_pos := by decide
  memorySize_ge := by decide
  memorySize_le := by decide

/-- The limits of production builds. -/
abbrev production : Limits where
  indentBudget := 4
  maxDepth := 128
  maxErrors := 50
  maxTrail := 32
  memorySize := 5000
  maxMessage := 2048
  indentBudget_le := by decide
  maxDepth_pos := by decide
  maxDepth_le := by decide
  maxErrors_pos := by decide
  memorySize_ge := by decide
  memorySize_le := by decide

end Stencil.Limits

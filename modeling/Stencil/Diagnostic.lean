import Stencil.Source.Position

/-!
# Diagnostics

What is wrong with the text of a template, apart from its grammar. Cutting a template into tokens
never fails; what looks wrong is noted as a diagnostic, and the text is taken as best it can be.
-/

namespace Stencil

/-- Something wrong with the text of a template. -/
inductive Diagnostic where
  | unterminatedString (position : Position)
  | unterminatedComment (position : Position)
  | unterminatedRaw (position : Position)
  | unexpectedCharacter (char : Char) (position : Position)
deriving DecidableEq, Repr

namespace Diagnostic

/-- Where the offending text starts. -/
def position : Diagnostic → Position
  | unterminatedString position | unterminatedComment position | unterminatedRaw position
  | unexpectedCharacter _ position => position

/-- The wording of a diagnostic. -/
def message : Diagnostic → String
  | unterminatedString position => s!"Unterminated string literal starting at {position.describe}"
  | unterminatedComment position => s!"Unterminated comment starting at {position.describe}"
  | unterminatedRaw position => s!"Raw block opened at {position.describe} is never closed"
  | unexpectedCharacter char position =>
    s!"Unexpected character '{char}' at {position.describe}"

/-- Whether text was opened and never closed, as opposed to a stray character. -/
def isUnterminated : Diagnostic → Bool
  | unexpectedCharacter .. => false
  | _ => true

/-- The code of a diagnostic. -/
def code : Diagnostic → String
  | unexpectedCharacter .. => "E020"
  | unterminatedString _ => "E021"
  | unterminatedComment _ => "E022"
  | unterminatedRaw _ => "E023"

end Diagnostic

end Stencil

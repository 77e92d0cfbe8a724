import Stencil.Code
import Stencil.Literal
import Stencil.Token.Basic

/-!
# Syntax errors

The causes for which a template, or a part of it, has no tree. Each error carries the span of the
token that it is about; wording and code follow from the cause.
-/

namespace Stencil

/-- A rule of the grammar that well-placed tokens break. -/
inductive Violation where
  | positionalAfterKeyword
  | duplicateParameter (name : String)
  | captureTargets
  | endblockName (closing opened : String)
  | privateImport (name : String)
  | notACall
  /-- A closing tag at the top level. -/
  | strayAtTop (word : String)
  /-- A closing tag inside another block. -/
  | strayInside (word : String)
deriving DecidableEq, Repr

/-- The wording of a violation. -/
def Violation.message : Violation → String
  | positionalAfterKeyword => "positional argument follows keyword argument"
  | duplicateParameter name => s!"duplicate parameter '{name}'"
  | captureTargets => "block assignment takes exactly one target"
  | endblockName closing opened =>
    s!"endblock names '{closing}' but closes block '{opened}'"
  | privateImport name => s!"names starting with an underscore cannot be imported: '{name}'"
  | notACall => "call tag requires a call expression"
  | strayAtTop word => s!"unexpected '{word}' with no open block"
  | strayInside word => s!"unexpected '{word}' with no matching open block"

/-- Why an extension cannot be used, or could not read its tag. -/
inductive ExtensionFault where
  | builtIn (tag : String)
  | taken (tag owner : String)
  | notConsumed (tag : String)
  /-- A reason of the extension's own. -/
  | other (message : String)
deriving DecidableEq, Repr

/-- The wording of an extension's fault. -/
def ExtensionFault.message : ExtensionFault → String
  | builtIn tag => s!"tag '{tag}' is built in"
  | taken tag owner => s!"tag '{tag}' is already handled by '{owner}'"
  | notConsumed tag => s!"tag '{tag}' was not consumed"
  | other message => message

/-- Why a template, or a part of it, has no tree. -/
inductive SyntaxError where
  | unexpected (expected found : String) (span : Span)
  | endOfTemplate (expected : String) (span : Span)
  | unknownTag (tag : String) (span : Span)
  /-- A block that none of `enders` closes. -/
  | unclosed (tag : String) (enders : List String) (span : Span)
  | badLiteral (literal : String) (fault : Literal.Fault) (span : Span)
  | violation (cause : Violation) (span : Span)
  | tooDeep (limit : Nat) (span : Span)
  | extensionFailed (extension : String) (fault : ExtensionFault) (span : Span)
deriving DecidableEq, Repr

namespace SyntaxError

/-- The error for a token that is not what was `expected`. Words and numbers are quoted, other
tokens are described. -/
def ofToken (token : Token) (expected : String) : SyntaxError :=
  match token.kind with
  | .eof => endOfTemplate expected token.span
  | .name | .keyword _ | .integer | .float | .boolean | .null =>
    unexpected expected s!"'{token.text}'" token.span
  | kind => unexpected expected kind.describe token.span

/-- The name of an error's cause. -/
def label : SyntaxError → String
  | unexpected .. => "UnexpectedToken"
  | endOfTemplate .. => "UnexpectedEndOfTemplate"
  | unknownTag .. => "UnknownTag"
  | unclosed .. => "UnclosedBlock"
  | badLiteral .. => "InvalidLiteral"
  | violation .. => "GrammarViolation"
  | tooDeep .. => "MaxRecursionDepth"
  | extensionFailed .. => "ExtensionFailure"

/-- The span of the token that an error is about. -/
def span : SyntaxError → Span
  | unexpected _ _ span | endOfTemplate _ span | unknownTag _ span | unclosed _ _ span
  | badLiteral _ _ span | violation _ span | tooDeep _ span | extensionFailed _ _ span => span

/-- The wording of an error. -/
def message : SyntaxError → String
  | unexpected expected found span =>
    s!"Unexpected {found} at {span.describe}: expected {expected}"
  | endOfTemplate expected span =>
    s!"Unexpected end of template at {span.describe}: expected {expected}"
  | unknownTag tag span => s!"Unknown tag '{tag}' at {span.describe}"
  | unclosed tag enders span =>
    let expected := Text.join " or " (enders.map fun ender => s!"'{ender}'")
    s!"Unclosed '{tag}' block opened at {span.describe}: expected {expected}"
  | badLiteral literal fault span =>
    s!"Invalid literal '{literal}' at {span.describe}: {fault.message}"
  | violation cause span => s!"{cause.message} at {span.describe}"
  | tooDeep limit span => s!"Maximum nesting depth {limit} exceeded at {span.describe}"
  | extensionFailed extension fault span =>
    s!"Extension '{extension}' failed at {span.describe}: {fault.message}"

/-- The code of an error's cause. -/
def code : SyntaxError → String
  | unexpected .. => "E040"
  | endOfTemplate .. => "E041"
  | unknownTag .. => "E042"
  | unclosed .. => "E043"
  | badLiteral .. => "E044"
  | violation .. => "E045"
  | extensionFailed .. => "E046"
  | tooDeep .. => "E087"

/-- The line that an error is about. -/
def line (error : SyntaxError) : Nat := error.span.start.line

/-- Whether a parse can go on after an error. -/
def isRecoverable (error : SyntaxError) : Bool :=
  Code.isRecoverable error.code

/-- Only too deep a nesting ends a parse. -/
theorem isRecoverable_eq_false_iff (error : SyntaxError) :
    error.isRecoverable = false ↔ ∃ limit span, error = .tooDeep limit span := by
  cases error <;> simp [isRecoverable, code, Code.isRecoverable, Code.info?, Code.table]

end SyntaxError

end Stencil

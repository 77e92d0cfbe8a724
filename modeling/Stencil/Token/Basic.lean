import Stencil.Source.Position
import Stencil.Token.Kind

/-!
# Tokens

A token is a piece of a template's text with its kind, the position of its first character and
the name of the template that it came from.
-/

namespace Stencil

/-- A piece of template text with its category. -/
structure Token where
  kind : Token.Kind
  text : String
  position : Position
  sourceName : Option String
deriving DecidableEq, Repr

namespace Token

variable (token : Token)

/-- The position after the last character of a token. -/
def stop : Position :=
  token.position.advanceOver token.text.toList

/-- The stretch of source that a token covers. -/
def span : Span := ⟨token.position, token.stop⟩

/-- The line on which a token starts. -/
def line : Nat := token.position.line

/-- Whether a token is a given reserved word. -/
def isKeyword (word : Keyword) : Bool :=
  token.kind = .keyword word

/-- The text of a name or reserved word. Tag words are looked up through this, so that it makes
no difference whether the word is reserved. -/
def word? : Option String :=
  match token.kind with
  | .name | .keyword _ => some token.text
  | _ => none

/-- Whether a token is a name or reserved word with a given spelling. -/
def isWord (word : String) : Bool :=
  token.word? = some word

/-- A token as it is shown to a reader. -/
def describe : String :=
  match token.kind with
  | .eof => "end of template"
  | .data | .comment | .lineComment => token.kind.fullDescription
  | _ => s!"'{token.text}'"

end Token

end Stencil

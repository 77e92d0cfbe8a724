import Stencil.Token.Kind
import Stencil.Text.Blank

/-!
# Lexemes

The tokens inside a tag. Each rule takes the longest piece at the start of the text that belongs
to its class: words and numbers are ASCII, a fraction or an exponent is taken only with a digit,
and a mark of two characters comes before its first character alone.
-/

namespace Stencil.Lexer

/-- Characters that start a word. -/
def isWordStart (char : Char) : Bool :=
  char.isAlpha || char = '_'

/-- Characters that go on with a word. -/
def isWordChar (char : Char) : Bool :=
  char.isAlphanum || char = '_'

/-- The number of digits at the start of a text. -/
def digitCount (text : List Char) : Nat :=
  (text.takeWhile Char.isDigit).length

/-- The number of characters of a fraction, which is a point and at least one digit. -/
def fractionLength : List Char → Nat
  | '.' :: text => if digitCount text = 0 then 0 else digitCount text + 1
  | _ => 0

/-- The number of characters of an exponent without its mark: a sign, if any, and at least one
digit. -/
def exponentDigits : List Char → Nat
  | '+' :: text | '-' :: text => if digitCount text = 0 then 0 else digitCount text + 1
  | text => digitCount text

/-- The number of characters of an exponent. -/
def exponentLength : List Char → Nat
  | 'e' :: text | 'E' :: text => if exponentDigits text = 0 then 0 else exponentDigits text + 1
  | _ => 0

/-- The kind and length of the number at the start of a text. -/
def number (text : List Char) : Token.Kind × Nat :=
  let digits := digitCount text
  let fraction := fractionLength (text.drop digits)
  let exponent := exponentLength (text.drop (digits + fraction))
  (if fraction = 0 ∧ exponent = 0 then .integer else .float, digits + fraction + exponent)

/-- The kind of a word. -/
def wordKind (word : String) : Token.Kind :=
  match Keyword.ofSpelling? word with
  | some keyword => .keyword keyword
  | none => match LiteralWord.ofSpelling? word with
    | some (.boolean _) => .boolean
    | some .null => .null
    | none => .name

/-- The kind and length of the word at the start of a text. -/
def word (text : List Char) : Token.Kind × Nat :=
  let spelling := text.takeWhile isWordChar
  (wordKind (String.ofList spelling), spelling.length)

/-- The number of characters of a string after its opening quote, up to and with the closing one;
the character after a backslash never closes it. -/
def stringLength? (quote : Char) : List Char → Option Nat
  | [] => none
  | char :: text =>
    if char = '\\' then
      match text with
      | [] => none
      | _ :: text => (stringLength? quote text).map (· + 2)
    else if char = quote then some 1
    else (stringLength? quote text).map (· + 1)

/-- The kind and length of the operator or punctuation mark at the start of a text. -/
def symbol? (text : List Char) : Option (Token.Kind × Nat) :=
  match Token.Kind.ofSymbol? (String.ofList (text.take 2)) with
  | some kind => some (kind, (text.take 2).length)
  | none => (Token.Kind.ofSymbol? (String.ofList (text.take 1))).map fun kind => (kind, 1)

/-- Bracket depth after a token; a closing bracket too many changes nothing. -/
def bracketsAfter (kind : Token.Kind) (brackets : Nat) : Nat :=
  match kind with
  | .lparen | .lbracket | .lbrace => brackets + 1
  | .rparen | .rbracket | .rbrace => brackets - 1
  | _ => brackets

end Stencil.Lexer

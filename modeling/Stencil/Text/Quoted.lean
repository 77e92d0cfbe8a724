import Stencil.Text.Hidden

/-!
# Quoted text

The form in which a text is shown to those who look for a fault: in double quotes, with every
character that could not be told from another one written as an escape.
-/

namespace Stencil.Text

/-- A code point in base sixteen, between braces. -/
def codePointEscape (char : Char) : List Char :=
  "\\u\x7b".toList ++ Nat.toDigits 16 char.toNat ++ "\x7d".toList

/-- How a character is written between double quotes. -/
def quotedChar (char : Char) : List Char :=
  match char with
  | '\x00' => ['\\', '0']
  | '\t' => ['\\', 't']
  | '\r' => ['\\', 'r']
  | '\n' => ['\\', 'n']
  | '"' => ['\\', '"']
  | '\\' => ['\\', '\\']
  | _ => if isHidden char then codePointEscape char else [char]

/-- A text in double quotes. -/
def quoted (text : String) : String :=
  String.ofList ('"' :: text.toList.flatMap quotedChar ++ ['"'])

/-- A path in double quotes; an apostrophe is escaped too. -/
def quotedPath (path : String) : String :=
  let escape (char : Char) := if char = '\'' then ['\\', '\''] else quotedChar char
  String.ofList ('"' :: path.toList.flatMap escape ++ ['"'])

end Stencil.Text

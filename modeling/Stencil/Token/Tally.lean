import Stencil.Diagnostic
import Stencil.Token.Basic

/-!
# Counting tokens

How many tokens of each sort a template has, and how many diagnostics it gave rise to.
-/

namespace Stencil

/-- The sorts that tokens are counted under. -/
inductive Token.Sort where
  | data | tag | name | keyword | whitespace | comment | literal | operator | other
deriving DecidableEq, Repr

/-- The sort of a kind of token. A tag, comment or raw block is counted by its first token. -/
def Token.Kind.sort (kind : Token.Kind) : Token.Sort :=
  match kind with
  | .data => .data
  | .blockBegin | .variableBegin | .rawBegin | .commentBegin => .tag
  | .name => .name
  | .keyword _ => .keyword
  | .whitespace => .whitespace
  | .comment | .lineComment => .comment
  | kind => if kind.isLiteral then .literal else if kind.isOperator then .operator else .other

/-- Counts of a template's tokens, lines and diagnostics. -/
structure Tally where
  tokens : Nat
  /-- The number of tokens of each sort. -/
  ofSort : Token.Sort → Nat
  lines : Nat
  unterminated : Nat
  unexpected : Nat
  /-- The number of tokens of each kind that occurs, if these were asked for. -/
  byKind : List (Token.Kind × Nat)

/-- One more of a kind. -/
def Tally.countKind (kind : Token.Kind) : List (Token.Kind × Nat) → List (Token.Kind × Nat)
  | [] => [(kind, 1)]
  | (other, count) :: rest =>
    if other = kind then (other, count + 1) :: rest else (other, count) :: countKind kind rest

/-- Counts tokens and diagnostics; the counts for single kinds only if `detailed`. -/
def Tally.of (detailed : Bool) (tokens : List Token) (diagnostics : List Diagnostic)
    (lines : Nat) : Tally where
  tokens := tokens.length
  ofSort sort := tokens.countP (·.kind.sort = sort)
  lines
  unterminated := diagnostics.countP (·.isUnterminated)
  unexpected := diagnostics.countP (!·.isUnterminated)
  byKind := if detailed then tokens.foldl (fun counts token => countKind token.kind counts) []
    else []

end Stencil

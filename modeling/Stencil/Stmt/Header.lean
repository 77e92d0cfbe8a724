import Stencil.Expr.Parse
import Stencil.Stmt.Basic

/-!
# Parts of tags

Rules for what stands inside block tags and does not hold statements: targets of assignments,
parameters, modifiers, imported names, and comments.
-/

namespace Stencil.Stmt

open Reading

variable [Limits]

/-- Reads the text of tokens of plain text next to each other. -/
def plainText : Reading String :=
  loop (fun content => do
    let token ← current
    if token.kind = .data then
      let _ ← advance
      return .yield (content ++ token.text)
    else return .done content) ""

/-- Reads the targets of an assignment: names with commas between them, in parentheses or not. A
comma may stand after the last one. -/
def assignTargets : Reading (List String) := do
  let parenthesized ← skipIf .lparen
  let first ← identifier
  let targets ← loop (fun targets => do
    if ← skipIf .comma then
      if (← current).kind = .name then return .yield (targets ++ [← identifier])
      else return .done targets
    else return .done targets) [first]
  if parenthesized then
    let _ ← expect .rparen "')'"
  return targets

/-- Whether `with context` or `without context` is next. -/
def contextModifier? : Reading (Option Bool) := do
  let token ← current
  let modified := (← peek 1).isWord "context"
  if token.isWord "with" ∧ modified then return some true
  else if token.isWord "without" ∧ modified then return some false
  else return none

/-- Reads `with context` or `without context`, if one is there. -/
def contextModifier (default : Bool) : Reading Bool := do
  match ← contextModifier? with
  | some withContext =>
    let _ ← advance
    let _ ← advance
    return withContext
  | none => return default

/-- Reads a parameter with its default, if it has one; no two parameters share a name. -/
def parameter (deeper : Expr.Deeper) (params : List Parameter) : Reading (List Parameter) := do
  let token ← current
  let name ← identifier
  if params.any (·.name = name) then throw (.violation (.duplicateParameter name) token.span)
  let default? ← if ← skipIf .assign then some <$> deeper.conditional else pure none
  return params ++ [⟨name, default?⟩]

/-- Reads parameters in parentheses. -/
def signature (deeper : Expr.Deeper) : Reading (List Parameter) := do
  let _ ← expect .lparen "'('"
  commaList .rparen "',' or ')'" List.isEmpty (parameter deeper) []

/-- Reads assignments with commas between them, up to the end of the tag. -/
def assignments (deeper : Expr.Deeper) : Reading (List (Named Expr)) :=
  loop (fun assignments => do
    if (← current).kind = .blockEnd then return .done assignments
    else
      if !assignments.isEmpty then
        let _ ← expect .comma "',' or end of block tag"
      let name ← identifier
      let _ ← expect .assign "'='"
      let value ← deeper.conditional
      return .yield (assignments ++ [⟨name, value⟩])) []

/-- Reads filters with pipes between them. -/
def filterCalls (deeper : Expr.Deeper) : Reading (List FilterCall) := do
  let first ← Expr.filterCall deeper
  loop (fun filters => do
    if ← skipIf .pipe then return .yield (filters ++ [← Expr.filterCall deeper])
    else return .done filters) [first]

/-- Reads the modifiers of a block, in any order and number: whether it is scoped, and whether it
is required. -/
def blockModifiers : Reading (Bool × Bool) :=
  loop (fun (isScoped, isRequired) => do
    if ← skipWord "scoped" then return .yield (true, isRequired)
    else if ← skipWord "required" then return .yield (isScoped, true)
    else return .done (isScoped, isRequired)) (false, false)

/-- Reads an imported name, which must not begin with an underscore. -/
def importName : Reading ImportName := do
  let token ← current
  let name ← identifier
  if name.toList.head? = some '_' then throw (.violation (.privateImport name) token.span)
  let target ← if ← skipWord "as" then some <$> identifier else pure none
  return ⟨name, target⟩

/-- Reads imported names with commas between them. A comma may stand before a context modifier. -/
def importedNames : Reading (List ImportName) := do
  let names ← loop (fun names => do
    if (← contextModifier?).isSome then return .done names
    else
      let names := names ++ [← importName]
      if ← skipIf .comma then return .yield names else return .done names) []
  if names.isEmpty then refuse (← current) "name to import" else return names

/-- Passes over a comment. -/
def skipComment : Reading Unit := do
  match (← current).kind with
  | .lineComment =>
    let _ ← advance
  | .commentBegin =>
    let _ ← advance
    let _ ← skipIf .comment
    let _ ← skipIf .commentEnd
  | _ => return

/-- Passes over the rest of a tag with its end, or up to the next place where a parse can be taken
up. -/
def skipTag : Reading Unit := fun stream cursor =>
  let stop := stream.seek (fun token => token.kind.isCloser || token.kind.isBoundary) cursor
  .ok () (if (stream.get stop).kind.isCloser then stream.next stop else stop)

/-- Whether an `endcall` tag closes the call tag before the tokens, given the number of call tags
open between them. -/
def endcallFollows (calls : Nat) : List Token → Bool
  | [] => false
  | token :: rest =>
    if token.kind = .eof then false
    else if token.kind = .blockBegin ∧ rest.head?.any (·.isWord "call") then
      endcallFollows (calls + 1) rest
    else if token.kind = .blockBegin ∧ rest.head?.any (·.isWord "endcall") then
      calls = 0 || endcallFollows (calls - 1) rest
    else endcallFollows calls rest

/-- Whether an `endcall` tag that closes the call tag before the cursor lies ahead. -/
def hasEndcall : Reading Bool := fun stream cursor =>
  .ok (endcallFollows 0 (stream.significant.toList.drop cursor)) cursor

end Stencil.Stmt

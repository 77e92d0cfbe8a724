import Stencil.Proofs.Parse.Outcome
import Stencil.Stmt.Parse

/-!
# Steps that tags repeat

The parts of a tag that come in any number are read one by one, and so are the statements of a body
and the branches of a choice. Each such step has its own name here, since most of what is proved of
a rule is proved of one step of it first.
-/

namespace Stencil.Stmt

open Reading Parsing

/-- Reads one more target, if a comma is next. -/
def targetStep (targets : List String) : Reading (ForInStep (List String)) := do
  if ← skipIf .comma then
    if (← current).kind = .name then return .yield (targets ++ [← identifier])
    else return .done targets
  else return .done targets

theorem assignTargets_eq : assignTargets = (do
    let parenthesized ← skipIf .lparen
    let first ← identifier
    let targets ← Reading.loop targetStep [first]
    if parenthesized then
      let _ ← expect .rparen "')'"
    return targets) := rfl

/-- Reads one more filter, if a pipe is next. -/
def filterStep (deeper : Expr.Deeper) (filters : List FilterCall) :
    Reading (ForInStep (List FilterCall)) := do
  if ← skipIf .pipe then return .yield (filters ++ [← Expr.filterCall deeper])
  else return .done filters

theorem filterCalls_eq (deeper : Expr.Deeper) : filterCalls deeper = (do
    let first ← Expr.filterCall deeper
    Reading.loop (filterStep deeper) [first]) := rfl

/-- Reads one more modifier of a block, if there is one. -/
def modifierStep : Bool × Bool → Reading (ForInStep (Bool × Bool)) :=
  fun (isScoped, isRequired) => do
    if ← skipWord "scoped" then return .yield (true, isRequired)
    else if ← skipWord "required" then return .yield (isScoped, true)
    else return .done (isScoped, isRequired)

theorem blockModifiers_eq : blockModifiers = Reading.loop modifierStep (false, false) := rfl

/-- Reads one more imported name. -/
def importStep (names : List ImportName) : Reading (ForInStep (List ImportName)) := do
  if (← contextModifier?).isSome then return .done names
  else
    let names := names ++ [← importName]
    if ← skipIf .comma then return .yield names else return .done names

theorem importedNames_eq : importedNames = (do
    let names ← Reading.loop importStep []
    if names.isEmpty then refuse (← current) "name to import" else return names) := rfl

/-- Reads one more assignment. -/
def assignmentStep (deeper : Expr.Deeper) (assignments : List (Named Expr)) :
    Reading (ForInStep (List (Named Expr))) := do
  if (← current).kind = .blockEnd then return .done assignments
  else
    if !assignments.isEmpty then
      let _ ← expect .comma "',' or end of block tag"
    let name ← identifier
    let _ ← expect .assign "'='"
    let value ← deeper.conditional
    return .yield (assignments ++ [⟨name, value⟩])

theorem assignments_eq (deeper : Expr.Deeper) :
    assignments deeper = Reading.loop (assignmentStep deeper) [] := rfl

variable (statement : Parsing (Option Stmt)) (tag : String) (opening : Token)
  (enders : List String)

/-- Reads one more statement of a body, or the tag that closes it. -/
def bodyStep : List Stmt × Option String → Parsing (ForInStep (List Stmt × Option String)) :=
  fun (body, _) => do
    match ← atTag enders with
    | some ender =>
      let _ ← advance
      let _ ← advance
      return .done (body, some ender)
    | none =>
      if (← current).kind = .eof then throw (.unclosed tag enders opening.span)
      else match ← statement with
        | some stmt => return .yield (body ++ [stmt], none)
        | none => return .yield (body, none)

theorem bodyUntil_eq : bodyUntil statement tag opening enders = (do
    let (body, ender?) ← Parsing.loop (bodyStep statement tag opening enders) ([], none)
    match ender? with
    | some ender => return (body, ender)
    | none => throw (.unclosed tag enders opening.span)) := rfl

/-- Reads one more branch, if there is one. -/
def elifStep [Limits] :
    List (Branch Stmt) × String → Parsing (ForInStep (List (Branch Stmt) × String)) :=
  fun (elifs, ender) => do
    if ender = "elif" then
      let condition ← expression
      let _ ← expectBlockEnd
      let (body, ender) ← bodyUntil statement "if" opening branchEnders
      return .yield (elifs ++ [⟨condition, body⟩], ender)
    else return .done (elifs, ender)

/-- Reads the statements of a branch, after its condition. -/
def branchRest (elifs : List (Branch Stmt)) (condition : Expr) :
    Parsing (ForInStep (List (Branch Stmt) × String)) := do
  let _ ← expectBlockEnd
  let (body, ender) ← bodyUntil statement "if" opening branchEnders
  return .yield (elifs ++ [⟨condition, body⟩], ender)

/-- Reads the rest of a loop, after its condition. -/
def forRest (targets : List String) (iter : Expr) (filter : Option Expr) : Parsing Stmt := do
  let isRecursive ← skipWord "recursive"
  let _ ← expectBlockEnd
  let (body, ender) ← bodyUntil statement "for" opening ["endfor", "else"]
  let _ ← expectBlockEnd
  let elseBody ←
    if ender = "else" then closedBody statement "for" opening "endfor" else pure []
  return .forLoop (← originOf opening) targets iter filter isRecursive body elseBody

/-- Reads the rest of an inclusion, after what is said of a template that may be missing. -/
def inclusionRest (template : Expr) (ignoreMissing : Bool) : Parsing Stmt := do
  let withContext ← contextModifier true
  let _ ← expectBlockEnd
  return .inclusion (← originOf opening) template withContext ignoreMissing

/-- Reads the end of the tag that closes a block. -/
def blockRest (name : String) (isScoped isRequired : Bool) (body : List Stmt) : Parsing Stmt := do
  let _ ← expectBlockEnd
  return .block (← originOf opening) name isScoped isRequired body

/-- Reads the end of a call tag and its body, if it has one. -/
def callEnding (params : List Parameter) (call : Expr) : Parsing Stmt := do
  let _ ← expectBlockEnd
  if ← hasEndcall then
    let body ← closedBody statement "call" opening "endcall"
    return .callBlock (← originOf opening) call params body
  else if params.isEmpty then return .bareCall (← originOf opening) call
  else throw (.unclosed "call" ["endcall"] opening.span)

variable [Limits]

/-- Reads the rest of a call tag, after its parameters. -/
def callRest (params : List Parameter) : Parsing Stmt := do
  let callToken ← current
  let call ← expression
  if !call.isCall then throw (.violation .notACall callToken.span)
  callEnding statement opening params call

theorem elifBranches_eq {statement : Parsing (Option Stmt)} {opening : Token} (ender : String) :
    elifBranches statement opening ender =
      Parsing.loop (elifStep statement opening) ([], ender) := rfl

end Stencil.Stmt

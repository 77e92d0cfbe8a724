import Stencil.Limits
import Stencil.Parse.Reading
import Stencil.Text.Lower

/-!
# The grammar of expressions

One rule for each level of precedence, loosest first:

```text
conditional     a if b else c
disjunction     or
conjunction     and
negation        not
comparison      == != < <= > >= in, not in
test            is [not] name
filter          | name(args)
sum             + - ~
product         * / // %
power           **
unary           + - ~
suffix          .attr [index] (args)
primary         names, literals, lists, parentheses
```

Operators between two operands associate to the left, `**` included. Rules that lead back to a
looser level, or to themselves, go one level of nesting deeper. The number of levels that are left
is the argument on which the rules recur: where none is left, an expression is nested too deeply.
-/

namespace Stencil.Expr

open Reading

variable [Limits]

/-- Fails because no level of nesting is left. -/
def tooDeep {α : Type} : Reading α := do
  throw (.tooDeep maxDepth (← current).span)

/-- The rules that may be used one level of nesting deeper. -/
structure Deeper where
  conditional : Reading Expr
  negation : Reading Expr
  unary : Reading Expr

/-- Reads a string after those that make up `value`, if there is one. -/
def stringStep (value : String) : Reading (ForInStep String) := do
  let token ← current
  if token.kind = .string then
    let _ ← advance
    return .yield (value ++ String.ofList (Literal.stringValue token.text.toList))
  else return .done value

/-- Strings next to each other are one string. -/
def stringLiteral : Reading String :=
  loop stringStep ""

/-- Reads a literal. -/
def literal : Reading Expr := do
  let token ← current
  let origin ← originAt token.line
  match token.kind with
  | .string => return .string origin (← stringLiteral)
  | .integer => match Literal.readInteger token.text.toList with
    | .ok value =>
      let _ ← advance
      return .integer origin value
    | .error fault => throw (.badLiteral token.text fault token.span)
  | .float => match Literal.readFloat token.text.toList with
    | .ok value =>
      let _ ← advance
      return .float origin value
    | .error fault => throw (.badLiteral token.text fault token.span)
  | .boolean =>
    let _ ← advance
    return .boolean origin (token.text = "true")
  | .null =>
    let _ ← advance
    return .null origin
  | _ => refuse token "literal"

/-- Reads an operator and the operand after it, if an operator is next. -/
def chainStep (operator? : Reading (Option BinaryOp)) (operand : Reading Expr) (left : Expr) :
    Reading (ForInStep Expr) := do
  match ← operator? with
  | some op =>
    let right ← operand
    return .yield (.binary (← originAt left.line) op left right)
  | none => return .done left

/-- Operands of one level with operators between them, which associate to the left. -/
def chain (operator? : Reading (Option BinaryOp)) (operand : Reading Expr) : Reading Expr := do
  loop (chainStep operator? operand) (← operand)

/-- Reads an operator of one token out of a choice. -/
def operatorOf (choice : List BinaryOp) : Reading (Option BinaryOp) := do
  match BinaryOp.ofKind? (← current).kind with
  | some op =>
    if op ∈ choice then
      let _ ← advance
      return some op
    else return none
  | none => return none

/-- Reads a comparison operator; `not in` is the only operator of two tokens. -/
def comparisonOperator : Reading (Option BinaryOp) := do
  if (← current).isKeyword .not_ ∧ (← peek 1).isKeyword .in_ then
    let _ ← advance
    let _ ← advance
    return some .notIn
  else operatorOf [.eq, .ne, .lt, .le, .gt, .ge, .in_]

/-- Kinds of token that begin an argument of a test that has no parentheses. -/
def beginsBareArgument (kind : Token.Kind) : Bool :=
  kind ∈ [.name, .string, .integer, .float, .boolean, .null, .lbracket]

/-- Reads the name of a test: names joined by points, a literal word in lower case, or `in`. -/
def testName : Reading String := do
  let token ← current
  match token.kind with
  | .boolean | .null =>
    let _ ← advance
    return Text.lower token.text
  | .keyword .in_ =>
    let _ ← advance
    return token.text
  | _ => dottedName

section

variable (deeper : Deeper)

/-- Reads one argument of a call, after those in `before`. -/
def callArgument (before : List Expr × List (Named Expr)) :
    Reading (List Expr × List (Named Expr)) := do
  let (args, kwargs) := before
  let start ← current
  if start.kind = .name ∧ (← peek 1).kind = .assign then
    let name ← identifier
    let _ ← advance
    let value ← deeper.conditional
    return (args, kwargs ++ [⟨name, value⟩])
  else
    let value ← deeper.conditional
    if kwargs.isEmpty then return (args ++ [value], kwargs)
    else throw (.violation .positionalAfterKeyword start.span)

/-- Reads the arguments of a call in parentheses, keyword arguments after the others. -/
def callArguments : Reading (List Expr × List (Named Expr)) := do
  let _ ← expect .lparen "'('"
  commaList .rparen "',' or ')'" (fun (args, kwargs) => args.isEmpty && kwargs.isEmpty)
    (callArgument deeper) ([], [])

/-- Reads a list in brackets. -/
def listLiteral : Reading Expr := do
  let opening ← expect .lbracket "'['"
  let items ← commaList .rbracket "',' or ']'" List.isEmpty
    (fun items => do return items ++ [← deeper.conditional]) []
  return .list (← originAt opening.line) items

/-- Reads a part of a slice, which may be missing. -/
def slicePart : Reading (Option Expr) := do
  match (← current).kind with
  | .colon | .rbracket => return none
  | _ => return some (← deeper.conditional)

/-- Reads the rest of a slice from its first colon on. -/
def sliceFrom (line : Nat) (start : Option Expr) : Reading Expr := do
  let _ ← advance
  let stop ← slicePart deeper
  let step ← if ← skipIf .colon then slicePart deeper else pure none
  return .slice (← originAt line) start stop step

/-- Reads what stands between the brackets of an item. -/
def subscript : Reading Expr := do
  let first ← current
  if first.kind = .colon then sliceFrom deeper first.line none
  else
    let start ← deeper.conditional
    if (← current).kind = .colon then sliceFrom deeper first.line (some start)
    else return start

/-- Reads a suffix of `value`, if there is one. -/
def suffix (value : Expr) : Reading (ForInStep Expr) := do
  let origin ← originAt value.line
  match (← current).kind with
  | .dot =>
    let _ ← advance
    let member ← current
    match member.kind, member.word? with
    | .integer, _ => return .yield (.item origin value (← literal))
    | _, some word =>
      let _ ← advance
      return .yield (.attr origin value word)
    | _, none => refuse member "attribute name"
  | .lbracket =>
    let _ ← advance
    let index ← subscript deeper
    let _ ← expect .rbracket "']'"
    return .yield (.item origin value index)
  | .lparen =>
    let (args, kwargs) ← callArguments deeper
    return .yield (.call origin value args kwargs)
  | _ => return .done value

/-- Reads an expression that no operator takes apart. -/
def primary : Reading Expr := do
  let token ← current
  match token.kind with
  | .name =>
    let _ ← advance
    return .name (← originAt token.line) token.text
  | .lparen =>
    let _ ← advance
    let inner ← deeper.conditional
    let _ ← expect .rparen "')'"
    return inner
  | .lbracket => listLiteral deeper
  | kind => if kind.isLiteral then literal else refuse token "expression"

/-- Primary expressions with suffixes. -/
def suffixRule : Reading Expr := do
  loop (suffix deeper) (← primary deeper)

/-- Reads signs before an operand, or a primary expression with its suffixes. -/
def unaryRule : Reading Expr := do
  let token ← current
  match UnaryOp.ofKind? token.kind with
  | some op =>
    let _ ← advance
    let operand ← deeper.unary
    return .unary (← originAt token.line) op operand
  | none => suffixRule deeper

/-- Powers. -/
def power : Reading Expr :=
  chain (operatorOf [.pow]) (unaryRule deeper)

/-- Products and quotients. -/
def product : Reading Expr :=
  chain (operatorOf [.mul, .div, .floorDiv, .mod]) (power deeper)

/-- Sums, differences and joined texts. -/
def sum : Reading Expr :=
  chain (operatorOf [.add, .sub, .concat]) (product deeper)

/-- Reads a filter with its arguments. -/
def filterCall : Reading FilterCall := do
  let called ← dottedName
  if (← current).kind = .lparen then
    let (args, kwargs) ← callArguments deeper
    return ⟨called, args, kwargs⟩
  else return ⟨called, [], []⟩

/-- Reads a filter of `value`, if there is one. -/
def filterStep (value : Expr) : Reading (ForInStep Expr) := do
  if ← skipIf .pipe then
    let applied ← filterCall deeper
    return .yield
      (.filter (← originAt value.line) value applied.name applied.args applied.kwargs)
  else return .done value

/-- Reads the filters of `value`. -/
def filterChain (value : Expr) : Reading Expr :=
  loop (filterStep deeper) value

/-- Values with filters. -/
def filterRule : Reading Expr := do
  filterChain deeper (← sum deeper)

/-- Reads the arguments of a test: a list in parentheses, one argument without them, or none. -/
def testArguments : Reading (List Expr × List (Named Expr)) := do
  let kind := (← current).kind
  if kind = .lparen then callArguments deeper
  else if beginsBareArgument kind then return ([← unaryRule deeper], [])
  else return ([], [])

/-- Reads a test of `value`, if there is one. -/
def testStep (value : Expr) : Reading (ForInStep Expr) := do
  if ← skipIf (.keyword .is_) then
    let negated ← skipIf (.keyword .not_)
    let name ← testName
    let (args, kwargs) ← testArguments deeper
    return .yield (.test (← originAt value.line) value name args kwargs negated)
  else return .done value

/-- Values with tests. -/
def testRule : Reading Expr := do
  loop (testStep deeper) (← filterRule deeper)

/-- Comparisons. -/
def comparison : Reading Expr :=
  chain comparisonOperator (testRule deeper)

/-- Negations. -/
def negationRule : Reading Expr := do
  let token ← current
  if token.isKeyword .not_ then
    let _ ← advance
    let operand ← deeper.negation
    return .unary (← originAt token.line) .not_ operand
  else comparison deeper

/-- Conjunctions. -/
def conjunction : Reading Expr :=
  chain (operatorOf [.and_]) (negationRule deeper)

/-- Disjunctions. -/
def disjunction : Reading Expr :=
  chain (operatorOf [.or_]) (conjunction deeper)

/-- Reads a condition on `value`, if there is one; what follows `else` may have one too. -/
def conditionalStep (value : Expr) : Reading (ForInStep Expr) := do
  if ← skipIf (.keyword .if_) then
    let condition ← disjunction deeper
    let otherwise ← if ← skipIf (.keyword .else_) then some <$> deeper.conditional else pure none
    return .yield (.conditional (← originAt value.line) condition value otherwise)
  else return .done value

/-- Conditional expressions. -/
def conditionalRule : Reading Expr := do
  loop (conditionalStep deeper) (← disjunction deeper)

end

/-- The rules one level deeper, when a number of levels is left. -/
def deeper : (levels : Nat) → Deeper
  | 0 => ⟨tooDeep, tooDeep, tooDeep⟩
  | levels + 1 =>
    let below := deeper levels
    ⟨conditionalRule below, negationRule below, unaryRule below⟩

/-- Reads an expression when a number of levels is left. -/
def parse (levels : Nat) : Reading Expr :=
  (deeper levels).conditional

/-- Reads an expression that is not a conditional one, for places where `if` belongs to the tag
around it. -/
def parseUnconditional : (levels : Nat) → Reading Expr
  | 0 => tooDeep
  | levels + 1 => disjunction (deeper levels)

end Stencil.Expr

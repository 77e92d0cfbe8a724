import Stencil.Json.Basic
import Stencil.Literal
import Stencil.Number.Word
import Stencil.Stmt.Basic

/-!
# Templates from JSON values

The templates that JSON values describe. An object may have fields that mean nothing, and a field
that may be null may also be missing. A record of fields, though not the parts of a form, may be
given as an array of all their values in order.
-/

namespace Stencil

namespace Json

/-- The values of the fields of an object, each of which may be missing. -/
def fields? (names : List String) : Json → Option (List (Option Json))
  | object fields => some (names.map fun name => field? name fields)
  | _ => none

/-- The values of the fields of a record: those of an object, or the items of an array. -/
def record? (names : List String) : Json → Option (List (Option Json))
  | array items => if items.length = names.length then some (items.map some) else none
  | json => fields? names json

/-- The label of a form, and its parts if it has any. -/
def form? : Json → Option (String × Option Json)
  | string label => some (label, none)
  | object [⟨label, parts⟩] => some (label, some parts)
  | _ => none

/-- Whether a form has no parts; null counts as none. -/
def isBare : Option Json → Bool
  | none | some null => true
  | _ => false

/-- A text. -/
def text? : Json → Option String
  | string value => some value
  | _ => none

/-- A truth value. -/
def bool? : Json → Option Bool
  | bool value => some value
  | _ => none

/-- A number of 64 bits without a sign. -/
def word? : Json → Option Nat
  | number (.integer (.ofNat value)) => if value ≤ maxWord then some value else none
  | _ => none

/-- An integer of 64 bits. -/
def integer? : Json → Option Int
  | number (.integer value) =>
    if -(Literal.maxInteger + 1) ≤ value ∧ value ≤ Literal.maxInteger then some value else none
  | _ => none

/-- A floating-point number; a whole number stands for the nearest one. -/
def float? : Json → Option Binary64
  | number (.float value) => some value
  | number (.integer value) => some (.ofRatio (value < 0) value.natAbs 1)
  | _ => none

/-- The items of an array. -/
def list? {α : Type} (item? : Json → Option α) : Json → Option (List α)
  | array items => items.mapM item?
  | _ => none

/-- A value that may be null or missing. -/
def optional? {α : Type} (value? : Json → Option α) : Option Json → Option (Option α)
  | none | some null => some none
  | some json => (value? json).map some

/-- A named value as a record. -/
def named? {α : Type} (value? : Json → Option α) (json : Json) : Option (Named α) := do
  match ← record? ["name", "value"] json with
  | [name, value] => return ⟨← name.bind text?, ← value.bind value?⟩
  | _ => none

/-- A named value as a pair. -/
def pair? {α : Type} (value? : Json → Option α) : Json → Option (Named α)
  | array [name, value] => do return ⟨← text? name, ← value? value⟩
  | _ => none

/-- The form and origin of a node. -/
def node? (json : Json) : Option (Json × Origin) := do
  match ← record? ["kind", "line", "source_name"] json with
  | [form, line, sourceName] =>
    return (← form, ⟨← line.bind word?, ← optional? text? sourceName⟩)
  | _ => none

end Json

open Json

/-- The operator with a given label. -/
def BinaryOp.ofJson? (json : Json) : Option BinaryOp := do
  let (label, parts) ← form? json
  if isBare parts then all.find? (·.label = label) else none

/-- The operator with a given label. -/
def UnaryOp.ofJson? (json : Json) : Option UnaryOp := do
  let (label, parts) ← form? json
  if isBare parts then all.find? (·.label = label) else none

namespace Expr

/-- The expression that a JSON value describes, given how the expressions inside it are read. -/
def decodeWith (inner : Json → Option Expr) (json : Json) : Option Expr := do
  let (form, origin) ← node? json
  let (label, parts) ← form? form
  if label = "NullLiteral" then
    if isBare parts then some (null origin) else none
  else
    let parts ← parts
    match label with
    | "Name" => return name origin (← text? parts)
    | "StringLiteral" => return string origin (← text? parts)
    | "IntegerLiteral" => return integer origin (← integer? parts)
    | "FloatLiteral" => return float origin (← float? parts)
    | "BooleanLiteral" => return boolean origin (← bool? parts)
    | "ListLiteral" => return list origin (← list? inner parts)
    | "BinaryOp" => match ← fields? ["op", "left", "right"] parts with
      | [op, left, right] =>
        return binary origin (← op.bind BinaryOp.ofJson?) (← left.bind inner) (← right.bind inner)
      | _ => none
    | "UnaryOp" => match ← fields? ["op", "operand"] parts with
      | [op, operand] => return unary origin (← op.bind UnaryOp.ofJson?) (← operand.bind inner)
      | _ => none
    | "Conditional" => match ← fields? ["condition", "then_expr", "else_expr"] parts with
      | [condition, value, otherwise] =>
        return conditional origin (← condition.bind inner) (← value.bind inner)
          (← optional? inner otherwise)
      | _ => none
    | "Call" => match ← fields? ["callee", "args", "kwargs"] parts with
      | [callee, args, kwargs] =>
        return call origin (← callee.bind inner) (← args.bind (list? inner))
          (← kwargs.bind (list? (named? inner)))
      | _ => none
    | "Filter" => match ← fields? ["value", "name", "args", "kwargs"] parts with
      | [value, called, args, kwargs] =>
        return filter origin (← value.bind inner) (← called.bind text?) (← args.bind (list? inner))
          (← kwargs.bind (list? (named? inner)))
      | _ => none
    | "Test" => match ← fields? ["value", "name", "args", "kwargs", "negated"] parts with
      | [value, called, args, kwargs, negated] =>
        return test origin (← value.bind inner) (← called.bind text?) (← args.bind (list? inner))
          (← kwargs.bind (list? (named? inner))) (← negated.bind bool?)
      | _ => none
    | "GetAttr" => match ← fields? ["value", "attr"] parts with
      | [value, member] => return attr origin (← value.bind inner) (← member.bind text?)
      | _ => none
    | "GetItem" => match ← fields? ["value", "index"] parts with
      | [value, index] => return item origin (← value.bind inner) (← index.bind inner)
      | _ => none
    | "Slice" => match ← fields? ["start", "stop", "step"] parts with
      | [start, stop, step] =>
        return slice origin (← optional? inner start) (← optional? inner stop)
          (← optional? inner step)
      | _ => none
    | _ => none

/-- The expression that a JSON value describes, if its nodes are at most `levels` deep. -/
def decode : (levels : Nat) → Json → Option Expr
  | 0, _ => none
  | levels + 1, json => decodeWith (decode levels) json

/-- The expression that a JSON value describes. -/
def ofJson? (json : Json) : Option Expr :=
  decode (json.depth + 1) json

end Expr

/-- The parameter that a JSON value describes. -/
def Parameter.ofJson? (json : Json) : Option Parameter := do
  match ← record? ["name", "default"] json with
  | [name, default] => return ⟨← name.bind text?, ← optional? Expr.ofJson? default⟩
  | _ => none

/-- The filter that a JSON value describes. -/
def FilterCall.ofJson? (json : Json) : Option FilterCall := do
  match ← record? ["name", "args", "kwargs"] json with
  | [name, args, kwargs] =>
    return ⟨← name.bind text?, ← args.bind (list? Expr.ofJson?),
      ← kwargs.bind (list? (named? Expr.ofJson?))⟩
  | _ => none

/-- The imported name that a JSON value describes. -/
def ImportName.ofJson? (json : Json) : Option ImportName := do
  match ← record? ["name", "alias"] json with
  | [name, target] => return ⟨← name.bind text?, ← optional? text? target⟩
  | _ => none

namespace Stmt

/-- The branch that a JSON value describes. -/
def branch? (body? : Json → Option (List Stmt)) (json : Json) : Option (Branch Stmt) := do
  match ← record? ["condition", "body"] json with
  | [condition, body] => return ⟨← condition.bind Expr.ofJson?, ← body.bind body?⟩
  | _ => none

/-- The statement that a JSON value describes, given how the statements inside it are read. -/
def decodeWith (inner : Json → Option Stmt) (json : Json) : Option Stmt := do
  let (form, origin) ← node? json
  let (label, parts) ← form? form
  let expr? := Expr.ofJson?
  let body? := list? inner
  if label = "DebugStmt" ∨ label = "Continue" ∨ label = "Break" then
    if !isBare parts then none
    else if label = "DebugStmt" then some (debug origin)
    else if label = "Continue" then some (continue_ origin)
    else some (break_ origin)
  else
    let parts ← parts
    match label with
    | "PlainOutput" => match ← fields? ["content"] parts with
      | [content] => return text origin (← content.bind text?)
      | _ => none
    | "VariableOutput" => match ← fields? ["expr"] parts with
      | [expr] => return output origin (← expr.bind expr?)
      | _ => none
    | "For" =>
      match ← fields? ["targets", "iter", "filter", "recursive", "body", "else_body"] parts with
      | [targets, iter, filter, isRecursive, body, elseBody] =>
        return forLoop origin (← targets.bind (list? text?)) (← iter.bind expr?)
          (← optional? expr? filter) (← isRecursive.bind bool?) (← body.bind body?)
          (← elseBody.bind body?)
      | _ => none
    | "If" => match ← fields? ["condition", "body", "elif_branches", "else_body"] parts with
      | [condition, body, elifs, elseBody] =>
        return choice origin (← condition.bind expr?) (← body.bind body?)
          (← elifs.bind (list? (branch? body?))) (← elseBody.bind body?)
      | _ => none
    | "Set" => match ← fields? ["targets", "value", "body"] parts with
      | [targets, value, body] =>
        return assign origin (← targets.bind (list? text?)) (← optional? expr? value)
          (← body.bind body?)
      | _ => none
    | "Block" => match ← fields? ["name", "scoped", "required", "body"] parts with
      | [name, isScoped, isRequired, body] =>
        return block origin (← name.bind text?) (← isScoped.bind bool?) (← isRequired.bind bool?)
          (← body.bind body?)
      | _ => none
    | "Extends" => match ← fields? ["template"] parts with
      | [template] => return parent origin (← template.bind expr?)
      | _ => none
    | "Include" => match ← fields? ["template", "with_context", "ignore_missing"] parts with
      | [template, withContext, ignoreMissing] =>
        return inclusion origin (← template.bind expr?) (← withContext.bind bool?)
          (← ignoreMissing.bind bool?)
      | _ => none
    | "Import" => match ← fields? ["template", "alias", "with_context"] parts with
      | [template, target, withContext] =>
        return importAs origin (← template.bind expr?) (← target.bind text?)
          (← withContext.bind bool?)
      | _ => none
    | "FromImport" => match ← fields? ["template", "names", "with_context"] parts with
      | [template, names, withContext] =>
        return importNames origin (← template.bind expr?)
          (← names.bind (list? ImportName.ofJson?)) (← withContext.bind bool?)
      | _ => none
    | "Macro" =>
      match ← fields? ["name", "params", "body", "catch_varargs", "catch_kwargs"] parts with
      | [name, params, body, catchVarargs, catchKwargs] =>
        return macro_ origin (← name.bind text?) (← params.bind (list? Parameter.ofJson?))
          (← body.bind body?) (← catchVarargs.bind bool?) (← catchKwargs.bind bool?)
      | _ => none
    | "Call" => match ← fields? ["call"] parts with
      | [call] => return bareCall origin (← call.bind expr?)
      | _ => none
    | "CallBlock" => match ← fields? ["call", "params", "body"] parts with
      | [call, params, body] =>
        return callBlock origin (← call.bind expr?) (← params.bind (list? Parameter.ofJson?))
          (← body.bind body?)
      | _ => none
    | "With" => match ← fields? ["assignments", "body"] parts with
      | [assignments, body] =>
        return scope origin (← assignments.bind (list? (pair? expr?))) (← body.bind body?)
      | _ => none
    | "FilterBlock" => match ← fields? ["filters", "body"] parts with
      | [filters, body] =>
        return filtered origin (← filters.bind (list? FilterCall.ofJson?)) (← body.bind body?)
      | _ => none
    | "Autoescape" => match ← fields? ["enabled", "body"] parts with
      | [enabled, body] => return autoescape origin (← enabled.bind expr?) (← body.bind body?)
      | _ => none
    | "ExprStmt" => match ← fields? ["expr"] parts with
      | [expr] => return evaluate origin (← expr.bind expr?)
      | _ => none
    | "Extension" => match ← fields? ["tag", "args", "body"] parts with
      | [tag, args, body] =>
        return extension origin (← tag.bind text?) (← args.bind (list? expr?))
          (← body.bind body?)
      | _ => none
    | _ => none

/-- The statement that a JSON value describes, if its nodes are at most `levels` deep. -/
def decode : (levels : Nat) → Json → Option Stmt
  | 0, _ => none
  | levels + 1, json => decodeWith (decode levels) json

/-- The statement that a JSON value describes. -/
def ofJson? (json : Json) : Option Stmt :=
  decode (json.depth + 1) json

end Stmt

/-- The template that a JSON value describes. -/
def Template.ofJson? (json : Json) : Option Template := do
  match ← record? ["body", "source_name"] json with
  | [body, sourceName] =>
    return ⟨← body.bind (list? Stmt.ofJson?), ← optional? text? sourceName⟩
  | _ => none

end Stencil

import Stencil.Json.Basic
import Stencil.Stmt.Basic

/-!
# Templates as JSON values

Each node of a template is an object with its form, its line and the name of its template. A form
with parts is an object with one field, named for the form; a form without parts is a text. How
floating-point numbers are written is left to the caller.
-/

namespace Stencil

/-- A form with parts. -/
def Json.form (label : String) (parts : Json) : Json :=
  .object [⟨label, parts⟩]

/-- A node with its form and origin. -/
def Json.node (origin : Origin) (form : Json) : Json :=
  .object [⟨"kind", form⟩, ⟨"line", .ofNat origin.line⟩,
    ⟨"source_name", .ofText? origin.sourceName⟩]

/-- Names as a JSON value. -/
def Json.ofTexts (texts : List String) : Json :=
  .array (texts.map .string)

/-- Named expressions as objects of a name and a value. -/
def Json.ofNamed (named : List (Named Json)) : Json :=
  .array (named.map fun entry => .object [⟨"name", .string entry.name⟩, ⟨"value", entry.value⟩])

/-- A floating-point number as a JSON number. -/
def Json.ofFloat (value : Binary64) : Json :=
  .number (.float value)

variable (writeFloat : Binary64 → Json)

namespace Expr

mutual

/-- An expression as a JSON value. -/
def toJson : Expr → Json
  | name origin id => .node origin (.form "Name" (.string id))
  | string origin value => .node origin (.form "StringLiteral" (.string value))
  | integer origin value => .node origin (.form "IntegerLiteral" (.number (.integer value)))
  | float origin value => .node origin (.form "FloatLiteral" (writeFloat value))
  | boolean origin value => .node origin (.form "BooleanLiteral" (.bool value))
  | null origin => .node origin (.string "NullLiteral")
  | list origin items => .node origin (.form "ListLiteral" (.array (toJsonList items)))
  | binary origin op left right =>
    .node origin (.form "BinaryOp" (.object
      [⟨"op", .string op.label⟩, ⟨"left", toJson left⟩, ⟨"right", toJson right⟩]))
  | unary origin op operand =>
    .node origin (.form "UnaryOp" (.object
      [⟨"op", .string op.label⟩, ⟨"operand", toJson operand⟩]))
  | conditional origin condition value otherwise =>
    .node origin (.form "Conditional" (.object
      [⟨"condition", toJson condition⟩, ⟨"then_expr", toJson value⟩,
        ⟨"else_expr", toJsonOption otherwise⟩]))
  | call origin callee args kwargs =>
    .node origin (.form "Call" (.object
      [⟨"callee", toJson callee⟩, ⟨"args", .array (toJsonList args)⟩,
        ⟨"kwargs", .ofNamed (toJsonNamed kwargs)⟩]))
  | filter origin value called args kwargs =>
    .node origin (.form "Filter" (.object
      [⟨"value", toJson value⟩, ⟨"name", .string called⟩, ⟨"args", .array (toJsonList args)⟩,
        ⟨"kwargs", .ofNamed (toJsonNamed kwargs)⟩]))
  | test origin value called args kwargs negated =>
    .node origin (.form "Test" (.object
      [⟨"value", toJson value⟩, ⟨"name", .string called⟩, ⟨"args", .array (toJsonList args)⟩,
        ⟨"kwargs", .ofNamed (toJsonNamed kwargs)⟩, ⟨"negated", .bool negated⟩]))
  | attr origin value member =>
    .node origin (.form "GetAttr" (.object
      [⟨"value", toJson value⟩, ⟨"attr", .string member⟩]))
  | item origin value index =>
    .node origin (.form "GetItem" (.object
      [⟨"value", toJson value⟩, ⟨"index", toJson index⟩]))
  | slice origin start stop step =>
    .node origin (.form "Slice" (.object
      [⟨"start", toJsonOption start⟩, ⟨"stop", toJsonOption stop⟩, ⟨"step", toJsonOption step⟩]))

/-- Each expression of a list as a JSON value. -/
def toJsonList : List Expr → List Json
  | [] => []
  | expr :: rest => toJson expr :: toJsonList rest

/-- Each named expression as a named JSON value. -/
def toJsonNamed : List (Named Expr) → List (Named Json)
  | [] => []
  | ⟨key, expr⟩ :: rest => ⟨key, toJson expr⟩ :: toJsonNamed rest

/-- An expression as a JSON value, or null if it is missing. -/
def toJsonOption : Option Expr → Json
  | none => .null
  | some expr => toJson expr

end

end Expr

/-- A parameter as a JSON value. -/
def Parameter.toJson (param : Parameter) : Json :=
  .object [⟨"name", .string param.name⟩, ⟨"default", Expr.toJsonOption writeFloat param.default?⟩]

/-- A filter as a JSON value. -/
def FilterCall.toJson (filter : FilterCall) : Json :=
  .object [⟨"name", .string filter.name⟩, ⟨"args", .array (Expr.toJsonList writeFloat filter.args)⟩,
    ⟨"kwargs", .ofNamed (Expr.toJsonNamed writeFloat filter.kwargs)⟩]

/-- An imported name as a JSON value. -/
def ImportName.toJson (imported : ImportName) : Json :=
  .object [⟨"name", .string imported.name⟩, ⟨"alias", .ofText? imported.target⟩]

/-- Assignments as a JSON value: each is an array of its target and its value. -/
def Json.ofAssignments (assignments : List (Named Json)) : Json :=
  .array (assignments.map fun entry => .array [.string entry.name, entry.value])

namespace Stmt

mutual

/-- A statement as a JSON value. -/
def toJson : Stmt → Json
  | text origin content =>
    .node origin (.form "PlainOutput" (.object [⟨"content", .string content⟩]))
  | output origin expr =>
    .node origin (.form "VariableOutput" (.object [⟨"expr", expr.toJson writeFloat⟩]))
  | forLoop origin targets iter filter isRecursive body elseBody =>
    .node origin (.form "For" (.object
      [⟨"targets", .ofTexts targets⟩, ⟨"iter", iter.toJson writeFloat⟩,
        ⟨"filter", Expr.toJsonOption writeFloat filter⟩, ⟨"recursive", .bool isRecursive⟩,
        ⟨"body", .array (toJsonBody body)⟩, ⟨"else_body", .array (toJsonBody elseBody)⟩]))
  | choice origin condition body elifs elseBody =>
    .node origin (.form "If" (.object
      [⟨"condition", condition.toJson writeFloat⟩, ⟨"body", .array (toJsonBody body)⟩,
        ⟨"elif_branches", .array (toJsonBranches elifs)⟩,
        ⟨"else_body", .array (toJsonBody elseBody)⟩]))
  | assign origin targets value body =>
    .node origin (.form "Set" (.object
      [⟨"targets", .ofTexts targets⟩, ⟨"value", Expr.toJsonOption writeFloat value⟩,
        ⟨"body", .array (toJsonBody body)⟩]))
  | block origin name isScoped isRequired body =>
    .node origin (.form "Block" (.object
      [⟨"name", .string name⟩, ⟨"scoped", .bool isScoped⟩, ⟨"required", .bool isRequired⟩,
        ⟨"body", .array (toJsonBody body)⟩]))
  | parent origin template =>
    .node origin (.form "Extends" (.object [⟨"template", template.toJson writeFloat⟩]))
  | inclusion origin template withContext ignoreMissing =>
    .node origin (.form "Include" (.object
      [⟨"template", template.toJson writeFloat⟩, ⟨"with_context", .bool withContext⟩,
        ⟨"ignore_missing", .bool ignoreMissing⟩]))
  | importAs origin template target withContext =>
    .node origin (.form "Import" (.object
      [⟨"template", template.toJson writeFloat⟩, ⟨"alias", .string target⟩,
        ⟨"with_context", .bool withContext⟩]))
  | importNames origin template names withContext =>
    .node origin (.form "FromImport" (.object
      [⟨"template", template.toJson writeFloat⟩, ⟨"names", .array (names.map ImportName.toJson)⟩,
        ⟨"with_context", .bool withContext⟩]))
  | macro_ origin name params body catchVarargs catchKwargs =>
    .node origin (.form "Macro" (.object
      [⟨"name", .string name⟩, ⟨"params", .array (params.map (Parameter.toJson writeFloat))⟩,
        ⟨"body", .array (toJsonBody body)⟩, ⟨"catch_varargs", .bool catchVarargs⟩,
        ⟨"catch_kwargs", .bool catchKwargs⟩]))
  | bareCall origin call => .node origin (.form "Call" (.object [⟨"call", call.toJson writeFloat⟩]))
  | callBlock origin call params body =>
    .node origin (.form "CallBlock" (.object
      [⟨"call", call.toJson writeFloat⟩,
        ⟨"params", .array (params.map (Parameter.toJson writeFloat))⟩,
        ⟨"body", .array (toJsonBody body)⟩]))
  | scope origin assignments body =>
    .node origin (.form "With" (.object
      [⟨"assignments", .ofAssignments (Expr.toJsonNamed writeFloat assignments)⟩,
        ⟨"body", .array (toJsonBody body)⟩]))
  | filtered origin filters body =>
    .node origin (.form "FilterBlock" (.object
      [⟨"filters", .array (filters.map (FilterCall.toJson writeFloat))⟩,
        ⟨"body", .array (toJsonBody body)⟩]))
  | autoescape origin enabled body =>
    .node origin (.form "Autoescape" (.object
      [⟨"enabled", enabled.toJson writeFloat⟩, ⟨"body", .array (toJsonBody body)⟩]))
  | evaluate origin expr =>
    .node origin (.form "ExprStmt" (.object [⟨"expr", expr.toJson writeFloat⟩]))
  | debug origin => .node origin (.string "DebugStmt")
  | continue_ origin => .node origin (.string "Continue")
  | break_ origin => .node origin (.string "Break")
  | extension origin tag args body =>
    .node origin (.form "Extension" (.object
      [⟨"tag", .string tag⟩, ⟨"args", .array (Expr.toJsonList writeFloat args)⟩,
        ⟨"body", .array (toJsonBody body)⟩]))

/-- Each statement of a body as a JSON value. -/
def toJsonBody : List Stmt → List Json
  | [] => []
  | stmt :: rest => toJson stmt :: toJsonBody rest

/-- Each branch as a JSON value. -/
def toJsonBranches : List (Branch Stmt) → List Json
  | [] => []
  | ⟨condition, body⟩ :: rest =>
    .object [⟨"condition", condition.toJson writeFloat⟩, ⟨"body", .array (toJsonBody body)⟩] ::
      toJsonBranches rest

end

end Stmt

/-- A template as a JSON value. -/
def Template.toJson (template : Template) : Json :=
  .object [⟨"body", .array (Stmt.toJsonBody writeFloat template.body)⟩,
    ⟨"source_name", .ofText? template.sourceName⟩]

end Stencil

import Stencil.Number.Binary64
import Stencil.Token.Basic

/-!
# Expressions

The expressions of the tag language as trees. Every node carries its origin: the line it starts on
and the name of its template.
-/

namespace Stencil

/-- Where a node of a tree came from. -/
structure Origin where
  line : Nat
  sourceName : Option String
deriving DecidableEq, Repr

/-- Something with a name: a keyword argument or an assignment. -/
structure Named (α : Type) where
  name : String
  value : α

/-- Operators between two operands. -/
inductive BinaryOp where
  | add | sub | mul | div | floorDiv | mod | pow | concat
  | eq | ne | lt | le | gt | ge | in_ | notIn
  | and_ | or_
deriving DecidableEq, Repr

namespace BinaryOp

/-- Every operator between two operands. -/
def all : List BinaryOp :=
  [add, sub, mul, div, floorDiv, mod, pow, concat, eq, ne, lt, le, gt, ge, in_, notIn, and_, or_]

/-- The operator that a single token spells. -/
def ofKind? : Token.Kind → Option BinaryOp
  | .add => some add
  | .sub => some sub
  | .mul => some mul
  | .div => some div
  | .floorDiv => some floorDiv
  | .mod => some mod
  | .pow => some pow
  | .tilde => some concat
  | .eq => some eq
  | .ne => some ne
  | .lt => some lt
  | .le => some le
  | .gt => some gt
  | .ge => some ge
  | .keyword .in_ => some in_
  | .keyword .and_ => some and_
  | .keyword .or_ => some or_
  | _ => none

/-- The spelling of an operator in a template. -/
def spelling : BinaryOp → String
  | add => "+"
  | sub => "-"
  | mul => "*"
  | div => "/"
  | floorDiv => "//"
  | mod => "%"
  | pow => "**"
  | concat => "~"
  | eq => "=="
  | ne => "!="
  | lt => "<"
  | le => "<="
  | gt => ">"
  | ge => ">="
  | in_ => "in"
  | notIn => "not in"
  | and_ => "and"
  | or_ => "or"

/-- The name of an operator in written trees. -/
def label : BinaryOp → String
  | add => "Add"
  | sub => "Sub"
  | mul => "Mul"
  | div => "Div"
  | floorDiv => "FloorDiv"
  | mod => "Mod"
  | pow => "Pow"
  | concat => "Concat"
  | eq => "Eq"
  | ne => "Ne"
  | lt => "Lt"
  | le => "Le"
  | gt => "Gt"
  | ge => "Ge"
  | in_ => "In"
  | notIn => "NotIn"
  | and_ => "And"
  | or_ => "Or"

/-- Operators that compare their operands. -/
def isComparison (op : BinaryOp) : Bool :=
  op ∈ [eq, ne, lt, le, gt, ge, in_, notIn]

end BinaryOp

/-- Operators before one operand. -/
inductive UnaryOp where
  | pos | neg | invert | not_
deriving DecidableEq, Repr

namespace UnaryOp

/-- Every operator before one operand. -/
def all : List UnaryOp := [pos, neg, invert, not_]

/-- The operator that a mark before an operand spells. -/
def ofKind? : Token.Kind → Option UnaryOp
  | .sub => some neg
  | .add => some pos
  | .tilde => some invert
  | _ => none

/-- The spelling of an operator in a template. -/
def spelling : UnaryOp → String
  | pos => "+"
  | neg => "-"
  | invert => "~"
  | not_ => "not"

/-- The name of an operator in written trees. -/
def label : UnaryOp → String
  | pos => "Pos"
  | neg => "Neg"
  | invert => "Invert"
  | not_ => "Not"

end UnaryOp

/-- An expression. -/
inductive Expr where
  | name (origin : Origin) (id : String)
  | string (origin : Origin) (value : String)
  | integer (origin : Origin) (value : Int)
  | float (origin : Origin) (value : Binary64)
  | boolean (origin : Origin) (value : Bool)
  | null (origin : Origin)
  | list (origin : Origin) (items : List Expr)
  | binary (origin : Origin) (op : BinaryOp) (left right : Expr)
  | unary (origin : Origin) (op : UnaryOp) (operand : Expr)
  /-- `value if condition else otherwise` -/
  | conditional (origin : Origin) (condition value : Expr) (otherwise : Option Expr)
  | call (origin : Origin) (callee : Expr) (args : List Expr) (kwargs : List (Named Expr))
  /-- `value | name(args)` -/
  | filter (origin : Origin) (value : Expr) (name : String) (args : List Expr)
      (kwargs : List (Named Expr))
  /-- `value is name(args)` -/
  | test (origin : Origin) (value : Expr) (name : String) (args : List Expr)
      (kwargs : List (Named Expr)) (negated : Bool)
  | attr (origin : Origin) (value : Expr) (name : String)
  | item (origin : Origin) (value index : Expr)
  /-- `start:stop:step`, found between the brackets of an item -/
  | slice (origin : Origin) (start stop step : Option Expr)

/-- A filter with its arguments. -/
structure FilterCall where
  name : String
  args : List Expr
  kwargs : List (Named Expr)

instance : Inhabited Expr := ⟨.null ⟨0, none⟩⟩

namespace Expr

/-- Where an expression came from. -/
def origin : Expr → Origin
  | name origin _ | string origin _ | integer origin _ | float origin _ | boolean origin _
  | null origin | list origin _ | binary origin .. | unary origin .. | conditional origin ..
  | call origin .. | filter origin .. | test origin .. | attr origin .. | item origin ..
  | slice origin .. => origin

/-- The line on which an expression starts. -/
def line (expr : Expr) : Nat := expr.origin.line

/-- The name that an expression consists of. -/
def asName? : Expr → Option String
  | name _ id => some id
  | _ => none

/-- Whether an expression is a single value. -/
def isLiteral : Expr → Bool
  | string .. | integer .. | float .. | boolean .. | null .. => true
  | _ => false

/-- Whether an expression is a call. -/
def isCall : Expr → Bool
  | call .. => true
  | _ => false

/-- The name of an expression's form in written trees. -/
def label : Expr → String
  | name .. => "Name"
  | string .. => "StringLiteral"
  | integer .. => "IntegerLiteral"
  | float .. => "FloatLiteral"
  | boolean .. => "BooleanLiteral"
  | null .. => "NullLiteral"
  | list .. => "ListLiteral"
  | binary .. => "BinaryOp"
  | unary .. => "UnaryOp"
  | conditional .. => "Conditional"
  | call .. => "Call"
  | filter .. => "Filter"
  | test .. => "Test"
  | attr .. => "GetAttr"
  | item .. => "GetItem"
  | slice .. => "Slice"

end Expr

end Stencil

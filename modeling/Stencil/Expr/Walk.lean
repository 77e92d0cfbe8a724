import Stencil.Expr.Basic

/-!
# Walking over expressions

The subexpressions of an expression in the order of a walk: a node before its children, and the
children in the order in which they are written, except that the positional arguments of a call
come before the keyword arguments.
-/

namespace Stencil.Expr

mutual

/-- An expression and all its subexpressions. -/
def nodes : Expr → List Expr
  | expr@(list _ items) => expr :: nodesOfList items
  | expr@(binary _ _ left right) => expr :: (nodes left ++ nodes right)
  | expr@(unary _ _ operand) => expr :: nodes operand
  | expr@(conditional _ condition value otherwise) =>
    expr :: (nodes value ++ nodes condition ++ nodesOfOption otherwise)
  | expr@(call _ callee args kwargs) =>
    expr :: (nodes callee ++ nodesOfList args ++ nodesOfNamed kwargs)
  | expr@(filter _ value _ args kwargs) =>
    expr :: (nodes value ++ nodesOfList args ++ nodesOfNamed kwargs)
  | expr@(test _ value _ args kwargs _) =>
    expr :: (nodes value ++ nodesOfList args ++ nodesOfNamed kwargs)
  | expr@(attr _ value _) => expr :: nodes value
  | expr@(item _ value index) => expr :: (nodes value ++ nodes index)
  | expr@(slice _ start stop step) =>
    expr :: (nodesOfOption start ++ nodesOfOption stop ++ nodesOfOption step)
  | expr@(name ..) | expr@(string ..) | expr@(integer ..) | expr@(float ..)
  | expr@(boolean ..) | expr@(null ..) => [expr]

/-- The nodes of each expression of a list in turn. -/
def nodesOfList : List Expr → List Expr
  | [] => []
  | expr :: rest => nodes expr ++ nodesOfList rest

/-- The nodes of each named expression in turn. -/
def nodesOfNamed : List (Named Expr) → List Expr
  | [] => []
  | ⟨_, expr⟩ :: rest => nodes expr ++ nodesOfNamed rest

/-- The nodes of an expression that may be missing. -/
def nodesOfOption : Option Expr → List Expr
  | none => []
  | some expr => nodes expr

end

/-- The names that an expression reads, in the order of the walk. -/
def names (expr : Expr) : List String :=
  expr.nodes.filterMap asName?

end Stencil.Expr

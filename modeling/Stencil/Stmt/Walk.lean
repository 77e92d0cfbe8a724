import Stencil.Expr.Walk
import Stencil.Stmt.Basic

/-!
# Walking over statements

The statements and expressions of a template in the order of a walk, and the names that a list of
statements reads. The walk meets a node before its children, and the children of a tag in the
order in which the tags are written. Names that a tag binds are not read, and neither are names in
the bodies of macros and call blocks, which have parameters of their own.
-/

namespace Stencil

/-- A node that a walk over a template meets. -/
inductive Node where
  | stmt (stmt : Stmt)
  | expr (expr : Expr)

namespace Node

/-- The nodes of an expression. -/
def ofExpr (root : Expr) : List Node :=
  root.nodes.map expr

/-- The nodes of an expression that may be missing. -/
def ofOption (root : Option Expr) : List Node :=
  (Expr.nodesOfOption root).map expr

/-- The nodes of the defaults of parameters. -/
def ofParameters (params : List Parameter) : List Node :=
  params.flatMap fun param => ofOption param.default?

/-- The nodes of the arguments of filters. -/
def ofFilters (filters : List FilterCall) : List Node :=
  filters.flatMap fun filter =>
    (Expr.nodesOfList filter.args ++ Expr.nodesOfNamed filter.kwargs).map expr

end Node

namespace Stmt

mutual

/-- The nodes that a walk over a statement meets. -/
def walk : Stmt → List Node
  | stmt@(output _ expr) | stmt@(evaluate _ expr) => .stmt stmt :: Node.ofExpr expr
  | stmt@(forLoop _ _ iter filter _ body elseBody) =>
    .stmt stmt :: (Node.ofExpr iter ++ Node.ofOption filter ++ walkBody body ++ walkBody elseBody)
  | stmt@(choice _ condition body elifs elseBody) =>
    .stmt stmt ::
      (Node.ofExpr condition ++ walkBody body ++ walkBranches elifs ++ walkBody elseBody)
  | stmt@(assign _ _ value body) => .stmt stmt :: (Node.ofOption value ++ walkBody body)
  | stmt@(block _ _ _ _ body) => .stmt stmt :: walkBody body
  | stmt@(parent _ template) | stmt@(inclusion _ template _ _) | stmt@(importAs _ template _ _)
  | stmt@(importNames _ template _ _) => .stmt stmt :: Node.ofExpr template
  | stmt@(macro_ _ _ params body _ _) => .stmt stmt :: (Node.ofParameters params ++ walkBody body)
  | stmt@(bareCall _ call) => .stmt stmt :: Node.ofExpr call
  | stmt@(callBlock _ call params body) =>
    .stmt stmt :: (Node.ofExpr call ++ Node.ofParameters params ++ walkBody body)
  | stmt@(scope _ assignments body) =>
    .stmt stmt :: ((Expr.nodesOfNamed assignments).map Node.expr ++ walkBody body)
  | stmt@(filtered _ filters body) => .stmt stmt :: (Node.ofFilters filters ++ walkBody body)
  | stmt@(autoescape _ enabled body) => .stmt stmt :: (Node.ofExpr enabled ++ walkBody body)
  | stmt@(extension _ _ args body) =>
    .stmt stmt :: ((Expr.nodesOfList args).map Node.expr ++ walkBody body)
  | stmt@(text ..) | stmt@(debug ..) | stmt@(continue_ ..) | stmt@(break_ ..) => [.stmt stmt]

/-- The nodes of each statement of a body in turn. -/
def walkBody : List Stmt → List Node
  | [] => []
  | stmt :: rest => walk stmt ++ walkBody rest

/-- The nodes of each branch in turn, its condition before its body. -/
def walkBranches : List (Branch Stmt) → List Node
  | [] => []
  | ⟨condition, body⟩ :: rest => Node.ofExpr condition ++ walkBody body ++ walkBranches rest

end

mutual

/-- The names that a statement reads, in the order of the walk. -/
def reads : Stmt → List String
  | output _ expr | evaluate _ expr => expr.names
  | forLoop _ _ iter filter _ body elseBody =>
    iter.names ++ filter.elim [] Expr.names ++ readsOfBody body ++ readsOfBody elseBody
  | choice _ condition body elifs elseBody =>
    condition.names ++ readsOfBody body ++ readsOfBranches elifs ++ readsOfBody elseBody
  | assign _ _ value body => value.elim [] Expr.names ++ readsOfBody body
  | block _ _ _ _ body => readsOfBody body
  | parent _ template | inclusion _ template _ _ | importAs _ template _ _
  | importNames _ template _ _ => template.names
  | macro_ _ _ params _ _ _ => params.flatMap fun param => param.default?.elim [] Expr.names
  | bareCall _ call => call.names
  | callBlock _ call params _ =>
    call.names ++ params.flatMap fun param => param.default?.elim [] Expr.names
  | scope _ assignments body =>
    (assignments.flatMap fun assignment => assignment.value.names) ++ readsOfBody body
  | filtered _ filters body =>
    (filters.flatMap fun filter =>
      filter.args.flatMap Expr.names ++ filter.kwargs.flatMap fun arg => arg.value.names) ++
      readsOfBody body
  | autoescape _ enabled body => enabled.names ++ readsOfBody body
  | extension _ _ args body => args.flatMap Expr.names ++ readsOfBody body
  | text .. | debug .. | continue_ .. | break_ .. => []

/-- The names that a body reads, in the order of the walk. -/
def readsOfBody : List Stmt → List String
  | [] => []
  | stmt :: rest => reads stmt ++ readsOfBody rest

/-- The names that branches read, in the order of the walk. -/
def readsOfBranches : List (Branch Stmt) → List String
  | [] => []
  | ⟨condition, body⟩ :: rest => condition.names ++ readsOfBody body ++ readsOfBranches rest

end

/-- Whether a body reads a name. -/
def bodyReads (body : List Stmt) (name : String) : Bool :=
  name ∈ readsOfBody body

/-- Puts a name in its place in an increasing list, unless it is there already. -/
def insertName (name : String) : List String → List String
  | [] => [name]
  | other :: rest =>
    if name < other then name :: other :: rest
    else if name = other then other :: rest
    else other :: insertName name rest

/-- The names that a body reads, each once, in increasing order. -/
def readNames (body : List Stmt) : List String :=
  (readsOfBody body).foldl (fun names name => insertName name names) []

end Stmt

end Stencil

import Stencil.Expr.Basic

/-!
# Statements

The statements of a template as trees, and templates themselves. A statement is a run of plain
text, a print tag, or a block tag together with the bodies between it and the tags that close it.
-/

namespace Stencil

/-- A condition with the statements that it guards. -/
structure Branch (Statement : Type) where
  condition : Expr
  body : List Statement

/-- A name that is imported, under another name if one is given. -/
structure ImportName where
  name : String
  target : Option String
deriving DecidableEq, Repr

/-- A parameter of a macro or call block. -/
structure Parameter where
  name : String
  default? : Option Expr

/-- A statement. -/
inductive Stmt where
  /-- Plain text. -/
  | text (origin : Origin) (content : String)
  /-- A print tag. -/
  | output (origin : Origin) (expr : Expr)
  | forLoop (origin : Origin) (targets : List String) (iter : Expr) (filter : Option Expr)
      (isRecursive : Bool) (body elseBody : List Stmt)
  | choice (origin : Origin) (condition : Expr) (body : List Stmt) (elifs : List (Branch Stmt))
      (elseBody : List Stmt)
  /-- An assignment of a value or, without one, of the rendered body. -/
  | assign (origin : Origin) (targets : List String) (value : Option Expr) (body : List Stmt)
  | block (origin : Origin) (name : String) (isScoped isRequired : Bool) (body : List Stmt)
  /-- The template that this one extends. -/
  | parent (origin : Origin) (template : Expr)
  | inclusion (origin : Origin) (template : Expr) (withContext ignoreMissing : Bool)
  | importAs (origin : Origin) (template : Expr) (target : String) (withContext : Bool)
  | importNames (origin : Origin) (template : Expr) (names : List ImportName)
      (withContext : Bool)
  /-- A macro; the flags say whether its body reads the surplus arguments. -/
  | macro_ (origin : Origin) (name : String) (params : List Parameter) (body : List Stmt)
      (catchVarargs catchKwargs : Bool)
  /-- A call tag without a body. -/
  | bareCall (origin : Origin) (call : Expr)
  | callBlock (origin : Origin) (call : Expr) (params : List Parameter) (body : List Stmt)
  | scope (origin : Origin) (assignments : List (Named Expr)) (body : List Stmt)
  | filtered (origin : Origin) (filters : List FilterCall) (body : List Stmt)
  | autoescape (origin : Origin) (enabled : Expr) (body : List Stmt)
  /-- An expression evaluated for its effect. -/
  | evaluate (origin : Origin) (expr : Expr)
  | debug (origin : Origin)
  | continue_ (origin : Origin)
  | break_ (origin : Origin)
  /-- A tag that an extension read. -/
  | extension (origin : Origin) (tag : String) (args : List Expr) (body : List Stmt)

instance : Inhabited Stmt := ⟨.debug ⟨0, none⟩⟩

namespace Stmt

/-- Where a statement came from. -/
def origin : Stmt → Origin
  | text origin _ | output origin _ | forLoop origin .. | choice origin .. | assign origin ..
  | block origin .. | parent origin _ | inclusion origin .. | importAs origin ..
  | importNames origin .. | macro_ origin .. | bareCall origin _ | callBlock origin ..
  | scope origin .. | filtered origin .. | autoescape origin .. | evaluate origin _
  | debug origin | continue_ origin | break_ origin | extension origin .. => origin

/-- The word of a statement's tag, or what stands for it. -/
def tagName : Stmt → String
  | text .. => "data"
  | output .. => "output"
  | forLoop .. => "for"
  | choice .. => "if"
  | assign .. => "set"
  | block .. => "block"
  | parent .. => "extends"
  | inclusion .. => "include"
  | importAs .. => "import"
  | importNames .. => "from"
  | macro_ .. => "macro"
  | bareCall .. => "call"
  | callBlock .. => "call"
  | scope .. => "with"
  | filtered .. => "filter"
  | autoescape .. => "autoescape"
  | evaluate .. => "do"
  | debug .. => "debug"
  | continue_ .. => "continue"
  | break_ .. => "break"
  | extension _ tag .. => tag

/-- The bodies of a statement, in source order. -/
def bodies : Stmt → List (List Stmt)
  | forLoop _ _ _ _ _ body elseBody => [body, elseBody]
  | choice _ _ body elifs elseBody => body :: (elifs.map (·.body) ++ [elseBody])
  | assign _ _ _ body | block _ _ _ _ body | macro_ _ _ _ body _ _ | callBlock _ _ _ body
  | scope _ _ body | filtered _ _ body | autoescape _ _ body | extension _ _ _ body => [body]
  | _ => []

/-- A statement is larger than the statements of its bodies. -/
theorem sizeOf_lt_of_mem_bodies {stmt child : Stmt} {body : List Stmt}
    (isBody : body ∈ stmt.bodies) (isChild : child ∈ body) : sizeOf child < sizeOf stmt := by
  have := List.sizeOf_lt_of_mem isChild
  cases stmt with
  | choice origin condition body elifs elseBody =>
    simp only [bodies, List.mem_cons, List.mem_append, List.mem_map] at isBody
    rcases isBody with rfl | ⟨branch, isBranch, rfl⟩ | rfl | impossible
    · simp only [choice.sizeOf_spec]; omega
    · have := List.sizeOf_lt_of_mem isBranch
      have : sizeOf branch.body < sizeOf branch := by
        cases branch; simp only [Branch.mk.sizeOf_spec]; omega
      simp only [choice.sizeOf_spec]; omega
    · simp only [choice.sizeOf_spec]; omega
    · exact absurd impossible List.not_mem_nil
  | forLoop =>
    simp only [bodies, List.mem_cons, List.not_mem_nil, or_false] at isBody
    rcases isBody with rfl | rfl <;> simp only [forLoop.sizeOf_spec] <;> omega
  | assign | block | macro_ | callBlock | scope | filtered | autoescape | extension =>
    simp only [bodies, List.mem_cons, List.not_mem_nil, or_false] at isBody
    subst isBody
    simp; omega
  | _ => exact absurd isBody List.not_mem_nil

/-- A statement and all statements inside it: each before those in its bodies. -/
def flatten (stmt : Stmt) : List Stmt :=
  stmt :: stmt.bodies.attach.flatMap fun body =>
    body.val.attach.flatMap fun child => flatten child.val
termination_by stmt
decreasing_by exact sizeOf_lt_of_mem_bodies body.property child.property

theorem flatten_eq (stmt : Stmt) :
    stmt.flatten = stmt :: stmt.bodies.flatMap (fun body => body.flatMap flatten) := by
  rw [flatten]
  congr 1
  simp

/-- The number of statements that a statement is made of: one for itself, and those in each of its
bodies. -/
def count (stmt : Stmt) : Nat :=
  1 + (stmt.bodies.attach.map fun body =>
    (body.val.attach.map fun child => count child.val).foldr (· + ·) 0).foldr (· + ·) 0
termination_by stmt
decreasing_by exact sizeOf_lt_of_mem_bodies body.property child.property

theorem count_eq (stmt : Stmt) :
    stmt.count =
      1 + (stmt.bodies.map fun body => (body.map count).foldr (· + ·) 0).foldr (· + ·) 0 := by
  rw [count]
  simp

end Stmt

/-- A template: its statements and its name. -/
structure Template where
  body : List Stmt
  sourceName : Option String

namespace Template

variable (template : Template)

/-- Every statement of a template, at any depth. -/
def statements : List Stmt :=
  template.body.flatMap Stmt.flatten

/-- The number of statements at any depth. -/
def statementCount : Nat := (template.body.map Stmt.count).foldr (· + ·) 0

/-- Whether a template has no statement. -/
def isEmpty : Bool := template.body.isEmpty

/-- The template that this one extends: the first one named at the top level. -/
def parent? : Option Expr :=
  template.body.findSome? fun
    | .parent _ template => some template
    | _ => none

end Template

end Stencil

import Mathlib
import Stencil.Stmt.Walk

/-!
# The names that a body reads

A name is mentioned in a body where it stands as an expression of its own: as a part, at any depth,
of an expression in a tag of the body. Tags inside of the body count as well, but not those in the
bodies of macros and call blocks. Everything that the syntax has a place for an expression is listed
here once, for expressions and for statements, and the names that a walk collects are shown to be
those that are mentioned.
-/

namespace Stencil

open Relation (ReflTransGen)

/-! ### Parts of expressions -/

namespace Expr

/-- An expression is a direct part of another one. -/
inductive IsPart : (part whole : Expr) → Prop where
  | item {origin : Origin} {items : List Expr} {item : Expr} (isItem : item ∈ items) :
      IsPart item (.list origin items)
  | left {origin : Origin} {op : BinaryOp} {left right : Expr} :
      IsPart left (.binary origin op left right)
  | right {origin : Origin} {op : BinaryOp} {left right : Expr} :
      IsPart right (.binary origin op left right)
  | operand {origin : Origin} {op : UnaryOp} {operand : Expr} :
      IsPart operand (.unary origin op operand)
  | condition {origin : Origin} {condition value : Expr} {otherwise : Option Expr} :
      IsPart condition (.conditional origin condition value otherwise)
  | value {origin : Origin} {condition value : Expr} {otherwise : Option Expr} :
      IsPart value (.conditional origin condition value otherwise)
  | otherwise {origin : Origin} {condition value otherwise : Expr} :
      IsPart otherwise (.conditional origin condition value (some otherwise))
  | callee {origin : Origin} {callee : Expr} {args : List Expr} {kwargs : List (Named Expr)} :
      IsPart callee (.call origin callee args kwargs)
  | arg {origin : Origin} {callee arg : Expr} {args : List Expr} {kwargs : List (Named Expr)}
      (isArg : arg ∈ args) : IsPart arg (.call origin callee args kwargs)
  | kwarg {origin : Origin} {callee : Expr} {args : List Expr} {kwargs : List (Named Expr)}
      {kwarg : Named Expr} (isKwarg : kwarg ∈ kwargs) :
      IsPart kwarg.value (.call origin callee args kwargs)
  | filtered {origin : Origin} {value : Expr} {name : String} {args : List Expr}
      {kwargs : List (Named Expr)} : IsPart value (.filter origin value name args kwargs)
  | filterArg {origin : Origin} {value arg : Expr} {name : String} {args : List Expr}
      {kwargs : List (Named Expr)} (isArg : arg ∈ args) :
      IsPart arg (.filter origin value name args kwargs)
  | filterKwarg {origin : Origin} {value : Expr} {name : String} {args : List Expr}
      {kwargs : List (Named Expr)} {kwarg : Named Expr} (isKwarg : kwarg ∈ kwargs) :
      IsPart kwarg.value (.filter origin value name args kwargs)
  | tested {origin : Origin} {value : Expr} {name : String} {args : List Expr}
      {kwargs : List (Named Expr)} {negated : Bool} :
      IsPart value (.test origin value name args kwargs negated)
  | testArg {origin : Origin} {value arg : Expr} {name : String} {args : List Expr}
      {kwargs : List (Named Expr)} {negated : Bool} (isArg : arg ∈ args) :
      IsPart arg (.test origin value name args kwargs negated)
  | testKwarg {origin : Origin} {value : Expr} {name : String} {args : List Expr}
      {kwargs : List (Named Expr)} {negated : Bool} {kwarg : Named Expr}
      (isKwarg : kwarg ∈ kwargs) :
      IsPart kwarg.value (.test origin value name args kwargs negated)
  | owner {origin : Origin} {value : Expr} {name : String} : IsPart value (.attr origin value name)
  | container {origin : Origin} {value index : Expr} : IsPart value (.item origin value index)
  | index {origin : Origin} {value index : Expr} : IsPart index (.item origin value index)
  | start {origin : Origin} {start : Expr} {stop step : Option Expr} :
      IsPart start (.slice origin (some start) stop step)
  | stop {origin : Origin} {stop : Expr} {start step : Option Expr} :
      IsPart stop (.slice origin start (some stop) step)
  | step {origin : Origin} {step : Expr} {start stop : Option Expr} :
      IsPart step (.slice origin start stop (some step))

/-- An expression is another one or a part of it at any depth. -/
def Inside (part whole : Expr) : Prop := ReflTransGen IsPart part whole

theorem self_mem_nodes (expr : Expr) : expr ∈ expr.nodes := by
  cases expr <;> (rw [nodes]; exact List.mem_cons_self)

theorem subset_nodesOfList {items : List Expr} {item : Expr} (isItem : item ∈ items) :
    item.nodes ⊆ nodesOfList items := by
  induction items with
  | nil => cases isItem
  | cons first items ih =>
      rw [nodesOfList]
      rcases List.mem_cons.1 isItem with rfl | isLater
      · exact List.subset_append_left _ _
      · exact List.subset_append_of_subset_right _ (ih isLater)

theorem subset_nodesOfNamed {named : List (Named Expr)} {given : Named Expr}
    (isGiven : given ∈ named) : given.value.nodes ⊆ nodesOfNamed named := by
  induction named with
  | nil => cases isGiven
  | cons first named ih =>
      rcases first with ⟨name, value⟩
      rw [nodesOfNamed]
      rcases List.mem_cons.1 isGiven with rfl | isLater
      · exact List.subset_append_left _ _
      · exact List.subset_append_of_subset_right _ (ih isLater)

/-- A walk over an expression goes over each of its parts. -/
theorem IsPart.nodes_subset {part whole : Expr} (isPart : IsPart part whole) :
    part.nodes ⊆ whole.nodes := by
  intro node member
  cases isPart with
  | item isItem => simp [nodes, subset_nodesOfList isItem member]
  | arg isArg | filterArg isArg | testArg isArg =>
      simp [nodes, subset_nodesOfList isArg member]
  | kwarg isKwarg | filterKwarg isKwarg | testKwarg isKwarg =>
      simp [nodes, subset_nodesOfNamed isKwarg member]
  | _ => simp [nodes, nodesOfOption, member]

theorem Inside.mem_nodes {part whole : Expr} (inside : Inside part whole) : part ∈ whole.nodes := by
  induction inside with
  | refl => exact self_mem_nodes part
  | tail _ isPart ih => exact isPart.nodes_subset ih

mutual

theorem inside_of_mem_nodes : (whole : Expr) → ∀ part ∈ whole.nodes, Inside part whole
  | name .. | string .. | integer .. | float .. | boolean .. | null .. => fun part member => by
      rw [nodes, List.mem_singleton] at member
      exact member ▸ .refl
  | list _ items => fun part member => by
      rw [nodes, List.mem_cons] at member
      rcases member with rfl | member
      · exact .refl
      · obtain ⟨item, isItem, inside⟩ := exists_of_mem_nodesOfList items part member
        exact inside.tail (.item isItem)
  | binary _ _ left right => fun part member => by
      rw [nodes, List.mem_cons, List.mem_append] at member
      rcases member with rfl | member | member
      · exact .refl
      · exact (inside_of_mem_nodes left part member).tail .left
      · exact (inside_of_mem_nodes right part member).tail .right
  | unary _ _ operand => fun part member => by
      rw [nodes, List.mem_cons] at member
      rcases member with rfl | member
      · exact .refl
      · exact (inside_of_mem_nodes operand part member).tail .operand
  | conditional _ condition value otherwise => fun part member => by
      simp only [nodes, List.mem_cons, List.mem_append] at member
      rcases member with rfl | (member | member) | member
      · exact .refl
      · exact (inside_of_mem_nodes value part member).tail .value
      · exact (inside_of_mem_nodes condition part member).tail .condition
      · obtain ⟨expr, rfl, inside⟩ := exists_of_mem_nodesOfOption otherwise part member
        exact inside.tail .otherwise
  | call _ callee args kwargs => fun part member => by
      simp only [nodes, List.mem_cons, List.mem_append] at member
      rcases member with rfl | (member | member) | member
      · exact .refl
      · exact (inside_of_mem_nodes callee part member).tail .callee
      · obtain ⟨arg, isArg, inside⟩ := exists_of_mem_nodesOfList args part member
        exact inside.tail (.arg isArg)
      · obtain ⟨kwarg, isKwarg, inside⟩ := exists_of_mem_nodesOfNamed kwargs part member
        exact inside.tail (.kwarg isKwarg)
  | filter _ value _ args kwargs => fun part member => by
      simp only [nodes, List.mem_cons, List.mem_append] at member
      rcases member with rfl | (member | member) | member
      · exact .refl
      · exact (inside_of_mem_nodes value part member).tail .filtered
      · obtain ⟨arg, isArg, inside⟩ := exists_of_mem_nodesOfList args part member
        exact inside.tail (.filterArg isArg)
      · obtain ⟨kwarg, isKwarg, inside⟩ := exists_of_mem_nodesOfNamed kwargs part member
        exact inside.tail (.filterKwarg isKwarg)
  | test _ value _ args kwargs _ => fun part member => by
      simp only [nodes, List.mem_cons, List.mem_append] at member
      rcases member with rfl | (member | member) | member
      · exact .refl
      · exact (inside_of_mem_nodes value part member).tail .tested
      · obtain ⟨arg, isArg, inside⟩ := exists_of_mem_nodesOfList args part member
        exact inside.tail (.testArg isArg)
      · obtain ⟨kwarg, isKwarg, inside⟩ := exists_of_mem_nodesOfNamed kwargs part member
        exact inside.tail (.testKwarg isKwarg)
  | attr _ value _ => fun part member => by
      rw [nodes, List.mem_cons] at member
      rcases member with rfl | member
      · exact .refl
      · exact (inside_of_mem_nodes value part member).tail .owner
  | item _ value index => fun part member => by
      rw [nodes, List.mem_cons, List.mem_append] at member
      rcases member with rfl | member | member
      · exact .refl
      · exact (inside_of_mem_nodes value part member).tail .container
      · exact (inside_of_mem_nodes index part member).tail .index
  | slice _ start stop step => fun part member => by
      simp only [nodes, List.mem_cons, List.mem_append] at member
      rcases member with rfl | (member | member) | member
      · exact .refl
      · obtain ⟨expr, rfl, inside⟩ := exists_of_mem_nodesOfOption start part member
        exact inside.tail .start
      · obtain ⟨expr, rfl, inside⟩ := exists_of_mem_nodesOfOption stop part member
        exact inside.tail .stop
      · obtain ⟨expr, rfl, inside⟩ := exists_of_mem_nodesOfOption step part member
        exact inside.tail .step

theorem exists_of_mem_nodesOfList : (items : List Expr) → ∀ part ∈ nodesOfList items,
    ∃ item ∈ items, Inside part item
  | [] => fun part member => by cases member
  | first :: items => fun part member => by
      rw [nodesOfList, List.mem_append] at member
      rcases member with member | member
      · exact ⟨first, List.mem_cons_self, inside_of_mem_nodes first part member⟩
      · obtain ⟨item, isItem, inside⟩ := exists_of_mem_nodesOfList items part member
        exact ⟨item, List.mem_cons_of_mem _ isItem, inside⟩

theorem exists_of_mem_nodesOfNamed : (named : List (Named Expr)) → ∀ part ∈ nodesOfNamed named,
    ∃ given ∈ named, Inside part given.value
  | [] => fun part member => by cases member
  | ⟨key, value⟩ :: named => fun part member => by
      rw [nodesOfNamed, List.mem_append] at member
      rcases member with member | member
      · exact ⟨⟨key, value⟩, List.mem_cons_self, inside_of_mem_nodes value part member⟩
      · obtain ⟨given, isGiven, inside⟩ := exists_of_mem_nodesOfNamed named part member
        exact ⟨given, List.mem_cons_of_mem _ isGiven, inside⟩

theorem exists_of_mem_nodesOfOption : (optional : Option Expr) →
    ∀ part ∈ nodesOfOption optional, ∃ expr, optional = some expr ∧ Inside part expr
  | none => fun part member => by cases member
  | some expr => fun part member => ⟨expr, rfl, inside_of_mem_nodes expr part member⟩

end

/-- The names that an expression reads are those that stand in it. -/
theorem mem_names_iff {expr : Expr} {id : String} :
    id ∈ expr.names ↔ ∃ origin, Inside (.name origin id) expr := by
  rw [names, List.mem_filterMap]
  constructor
  · rintro ⟨node, member, isName⟩
    cases node with
    | name origin other =>
        cases isName
        exact ⟨origin, inside_of_mem_nodes expr _ member⟩
    | _ => cases isName
  · rintro ⟨origin, inside⟩
    exact ⟨_, inside.mem_nodes, rfl⟩

theorem mem_elim_names_iff {optional : Option Expr} {id : String} :
    id ∈ optional.elim [] names ↔ ∃ expr, optional = some expr ∧ id ∈ expr.names := by
  cases optional <;> simp

end Expr

/-! ### Expressions of statements -/

namespace Stmt

/-- An expression stands in a tag of a statement. -/
inductive HasExpr : Stmt → Expr → Prop where
  | output {origin : Origin} {expr : Expr} : HasExpr (.output origin expr) expr
  | evaluate {origin : Origin} {expr : Expr} : HasExpr (.evaluate origin expr) expr
  | iter {origin : Origin} {targets : List String} {iter : Expr} {filter : Option Expr}
      {isRecursive : Bool} {body elseBody : List Stmt} :
      HasExpr (.forLoop origin targets iter filter isRecursive body elseBody) iter
  | filter {origin : Origin} {targets : List String} {iter filter : Expr} {isRecursive : Bool}
      {body elseBody : List Stmt} :
      HasExpr (.forLoop origin targets iter (some filter) isRecursive body elseBody) filter
  | condition {origin : Origin} {condition : Expr} {body elseBody : List Stmt}
      {elifs : List (Branch Stmt)} :
      HasExpr (.choice origin condition body elifs elseBody) condition
  | elif {origin : Origin} {condition : Expr} {body elseBody : List Stmt}
      {elifs : List (Branch Stmt)} {branch : Branch Stmt} (isBranch : branch ∈ elifs) :
      HasExpr (.choice origin condition body elifs elseBody) branch.condition
  | value {origin : Origin} {targets : List String} {value : Expr} {body : List Stmt} :
      HasExpr (.assign origin targets (some value) body) value
  | parent {origin : Origin} {template : Expr} : HasExpr (.parent origin template) template
  | inclusion {origin : Origin} {template : Expr} {withContext ignoreMissing : Bool} :
      HasExpr (.inclusion origin template withContext ignoreMissing) template
  | importAs {origin : Origin} {template : Expr} {target : String} {withContext : Bool} :
      HasExpr (.importAs origin template target withContext) template
  | importNames {origin : Origin} {template : Expr} {names : List ImportName}
      {withContext : Bool} : HasExpr (.importNames origin template names withContext) template
  | macroDefault {origin : Origin} {name : String} {params : List Parameter} {body : List Stmt}
      {catchVarargs catchKwargs : Bool} {param : Parameter} {default : Expr}
      (isParam : param ∈ params) (isDefault : param.default? = some default) :
      HasExpr (.macro_ origin name params body catchVarargs catchKwargs) default
  | bareCall {origin : Origin} {call : Expr} : HasExpr (.bareCall origin call) call
  | call {origin : Origin} {call : Expr} {params : List Parameter} {body : List Stmt} :
      HasExpr (.callBlock origin call params body) call
  | callDefault {origin : Origin} {call : Expr} {params : List Parameter} {body : List Stmt}
      {param : Parameter} {default : Expr} (isParam : param ∈ params)
      (isDefault : param.default? = some default) :
      HasExpr (.callBlock origin call params body) default
  | assignment {origin : Origin} {assignments : List (Named Expr)} {body : List Stmt}
      {assignment : Named Expr} (isAssignment : assignment ∈ assignments) :
      HasExpr (.scope origin assignments body) assignment.value
  | filterArg {origin : Origin} {filters : List FilterCall} {body : List Stmt}
      {applied : FilterCall} {arg : Expr} (isFilter : applied ∈ filters)
      (isArg : arg ∈ applied.args) : HasExpr (.filtered origin filters body) arg
  | filterKwarg {origin : Origin} {filters : List FilterCall} {body : List Stmt}
      {applied : FilterCall} {kwarg : Named Expr} (isFilter : applied ∈ filters)
      (isKwarg : kwarg ∈ applied.kwargs) : HasExpr (.filtered origin filters body) kwarg.value
  | enabled {origin : Origin} {enabled : Expr} {body : List Stmt} :
      HasExpr (.autoescape origin enabled body) enabled
  | extensionArg {origin : Origin} {tag : String} {args : List Expr} {body : List Stmt}
      {arg : Expr} (isArg : arg ∈ args) : HasExpr (.extension origin tag args body) arg

/-- Macros and call blocks have surplus arguments of their own, under the same names. -/
def hidesBody : Stmt → Bool
  | macro_ .. | callBlock .. => true
  | _ => false

/-- A statement stands directly in a body of another one, and is not hidden there. -/
def IsOpenIn (inner outer : Stmt) : Prop :=
  outer.hidesBody = false ∧ ∃ body ∈ outer.bodies, inner ∈ body

/-- A name stands as an expression somewhere in a body, without being hidden in the body of a macro
or a call block. -/
def Mentions (body : List Stmt) (name : String) : Prop :=
  ∃ outer ∈ body, ∃ inner, ReflTransGen IsOpenIn inner outer ∧
    ∃ expr, inner.HasExpr expr ∧ ∃ origin, Expr.Inside (.name origin name) expr

theorem mem_readsOfBody_iff {body : List Stmt} {name : String} :
    name ∈ readsOfBody body ↔ ∃ stmt ∈ body, name ∈ stmt.reads := by
  induction body with
  | nil => simp [readsOfBody]
  | cons stmt body ih => simp [readsOfBody, ih]

theorem mem_readsOfBranches_iff {elifs : List (Branch Stmt)} {name : String} :
    name ∈ readsOfBranches elifs ↔ ∃ branch ∈ elifs,
      name ∈ branch.condition.names ∨ name ∈ readsOfBody branch.body := by
  induction elifs with
  | nil => simp [readsOfBranches]
  | cons branch elifs ih => simp [readsOfBranches, ih, or_assoc]

/-- What a statement reads stands in one of its tags, or in a statement of its bodies. -/
theorem exists_of_mem_reads {stmt : Stmt} {name : String} (isRead : name ∈ stmt.reads) :
    (∃ expr, stmt.HasExpr expr ∧ name ∈ expr.names) ∨
      ∃ inner, IsOpenIn inner stmt ∧ name ∈ inner.reads := by
  have inBody {body : List Stmt} (isBody : body ∈ stmt.bodies) (isOpen : stmt.hidesBody = false)
      (isRead : name ∈ readsOfBody body) : ∃ inner, IsOpenIn inner stmt ∧ name ∈ inner.reads := by
    obtain ⟨inner, isInner, isRead⟩ := mem_readsOfBody_iff.1 isRead
    exact ⟨inner, ⟨isOpen, body, isBody, isInner⟩, isRead⟩
  cases stmt with
  | text | debug | continue_ | break_ => simp [reads] at isRead
  | output => exact Or.inl ⟨_, .output, isRead⟩
  | evaluate => exact Or.inl ⟨_, .evaluate, isRead⟩
  | parent => exact Or.inl ⟨_, .parent, isRead⟩
  | inclusion => exact Or.inl ⟨_, .inclusion, isRead⟩
  | importAs => exact Or.inl ⟨_, .importAs, isRead⟩
  | importNames => exact Or.inl ⟨_, .importNames, isRead⟩
  | bareCall => exact Or.inl ⟨_, .bareCall, isRead⟩
  | forLoop =>
      simp only [reads, List.mem_append, Expr.mem_elim_names_iff] at isRead
      rcases isRead with ((isRead | ⟨_, rfl, isRead⟩) | isRead) | isRead
      · exact Or.inl ⟨_, .iter, isRead⟩
      · exact Or.inl ⟨_, .filter, isRead⟩
      · exact Or.inr (inBody (by simp [bodies]) rfl isRead)
      · exact Or.inr (inBody (by simp [bodies]) rfl isRead)
  | choice =>
      simp only [reads, List.mem_append, mem_readsOfBranches_iff] at isRead
      rcases isRead with ((isRead | isRead) | ⟨branch, isBranch, isRead | isRead⟩) | isRead
      · exact Or.inl ⟨_, .condition, isRead⟩
      · exact Or.inr (inBody (by simp [bodies]) rfl isRead)
      · exact Or.inl ⟨_, .elif isBranch, isRead⟩
      · have isBody : branch.body ∈ List.map Branch.body _ := List.mem_map_of_mem isBranch
        exact Or.inr (inBody (List.mem_cons_of_mem _ (List.mem_append_left _ isBody)) rfl isRead)
      · exact Or.inr (inBody (by simp [bodies]) rfl isRead)
  | assign =>
      simp only [reads, List.mem_append, Expr.mem_elim_names_iff] at isRead
      rcases isRead with ⟨_, rfl, isRead⟩ | isRead
      · exact Or.inl ⟨_, .value, isRead⟩
      · exact Or.inr (inBody (by simp [bodies]) rfl isRead)
  | block => exact Or.inr (inBody (by simp [bodies]) rfl isRead)
  | macro_ =>
      simp only [reads, List.mem_flatMap, Expr.mem_elim_names_iff] at isRead
      obtain ⟨param, isParam, _, isDefault, isRead⟩ := isRead
      exact Or.inl ⟨_, .macroDefault isParam isDefault, isRead⟩
  | callBlock =>
      simp only [reads, List.mem_append, List.mem_flatMap, Expr.mem_elim_names_iff] at isRead
      rcases isRead with isRead | ⟨param, isParam, _, isDefault, isRead⟩
      · exact Or.inl ⟨_, .call, isRead⟩
      · exact Or.inl ⟨_, .callDefault isParam isDefault, isRead⟩
  | scope =>
      simp only [reads, List.mem_append, List.mem_flatMap] at isRead
      rcases isRead with ⟨_, isAssignment, isRead⟩ | isRead
      · exact Or.inl ⟨_, .assignment isAssignment, isRead⟩
      · exact Or.inr (inBody (by simp [bodies]) rfl isRead)
  | filtered =>
      simp only [reads, List.mem_append, List.mem_flatMap] at isRead
      rcases isRead with ⟨_, isFilter, ⟨_, isArg, isRead⟩ | ⟨_, isKwarg, isRead⟩⟩ | isRead
      · exact Or.inl ⟨_, .filterArg isFilter isArg, isRead⟩
      · exact Or.inl ⟨_, .filterKwarg isFilter isKwarg, isRead⟩
      · exact Or.inr (inBody (by simp [bodies]) rfl isRead)
  | autoescape =>
      simp only [reads, List.mem_append] at isRead
      rcases isRead with isRead | isRead
      · exact Or.inl ⟨_, .enabled, isRead⟩
      · exact Or.inr (inBody (by simp [bodies]) rfl isRead)
  | extension =>
      simp only [reads, List.mem_append, List.mem_flatMap] at isRead
      rcases isRead with ⟨_, isArg, isRead⟩ | isRead
      · exact Or.inl ⟨_, .extensionArg isArg, isRead⟩
      · exact Or.inr (inBody (by simp [bodies]) rfl isRead)

/-- A statement reads what stands in its tags. -/
theorem HasExpr.mem_reads {stmt : Stmt} {expr : Expr} {name : String} (hasExpr : stmt.HasExpr expr)
    (isRead : name ∈ expr.names) : name ∈ stmt.reads := by
  cases hasExpr with
  | elif isBranch =>
      simp only [reads, List.mem_append, mem_readsOfBranches_iff]
      exact Or.inl (Or.inr ⟨_, isBranch, Or.inl isRead⟩)
  | macroDefault isParam isDefault =>
      simp only [reads, List.mem_flatMap, Expr.mem_elim_names_iff]
      exact ⟨_, isParam, _, isDefault, isRead⟩
  | callDefault isParam isDefault =>
      simp only [reads, List.mem_append, List.mem_flatMap, Expr.mem_elim_names_iff]
      exact Or.inr ⟨_, isParam, _, isDefault, isRead⟩
  | assignment isAssignment =>
      simp only [reads, List.mem_append, List.mem_flatMap]
      exact Or.inl ⟨_, isAssignment, isRead⟩
  | filterArg isFilter isArg =>
      simp only [reads, List.mem_append, List.mem_flatMap]
      exact Or.inl ⟨_, isFilter, Or.inl ⟨_, isArg, isRead⟩⟩
  | filterKwarg isFilter isKwarg =>
      simp only [reads, List.mem_append, List.mem_flatMap]
      exact Or.inl ⟨_, isFilter, Or.inr ⟨_, isKwarg, isRead⟩⟩
  | extensionArg isArg =>
      simp only [reads, List.mem_append, List.mem_flatMap]
      exact Or.inl ⟨_, isArg, isRead⟩
  | _ => simp [reads, isRead]

/-- A statement reads what is read in its bodies, if they are not hidden. -/
theorem IsOpenIn.mem_reads {inner outer : Stmt} {name : String} (isOpen : IsOpenIn inner outer)
    (isRead : name ∈ inner.reads) : name ∈ outer.reads := by
  rcases isOpen with ⟨notHidden, body, isBody, isInner⟩
  have isRead : name ∈ readsOfBody body := mem_readsOfBody_iff.2 ⟨inner, isInner, isRead⟩
  cases outer with
  | macro_ | callBlock => cases notHidden
  | choice _ condition first elifs elseBody =>
      simp only [bodies, List.mem_cons, List.mem_append, List.mem_map, List.not_mem_nil,
        or_false] at isBody
      simp only [reads, List.mem_append, mem_readsOfBranches_iff]
      rcases isBody with rfl | ⟨branch, isBranch, rfl⟩ | rfl
      · exact Or.inl (Or.inl (Or.inr isRead))
      · exact Or.inl (Or.inr ⟨branch, isBranch, Or.inr isRead⟩)
      · exact Or.inr isRead
  | forLoop =>
      simp only [bodies, List.mem_cons, List.not_mem_nil, or_false] at isBody
      rcases isBody with rfl | rfl <;> simp [reads, isRead]
  | assign | block | scope | filtered | autoescape | extension =>
      obtain rfl := List.mem_singleton.1 isBody
      simp [reads, isRead]
  | _ => cases isBody

/-- The names that a body reads are those that it mentions. -/
theorem mem_readsOfBody_iff_mentions {body : List Stmt} {name : String} :
    name ∈ readsOfBody body ↔ Mentions body name := by
  rw [mem_readsOfBody_iff]
  constructor
  · rintro ⟨outer, isPart, isRead⟩
    refine ⟨outer, isPart, ?_⟩
    clear isPart
    -- The size of a statement bounds how deep the name can stand in it.
    induction size : sizeOf outer using Nat.strong_induction_on generalizing outer with
    | _ count ih =>
        rcases exists_of_mem_reads isRead with ⟨expr, hasExpr, isRead⟩ | ⟨inner, isOpen, isRead⟩
        · exact ⟨outer, .refl, expr, hasExpr, Expr.mem_names_iff.1 isRead⟩
        · rcases isOpen with ⟨notHidden, body, isBody, isInner⟩
          obtain ⟨innermost, reaches, mentioned⟩ :=
            ih (sizeOf inner) (size ▸ sizeOf_lt_of_mem_bodies isBody isInner) inner isRead rfl
          exact ⟨innermost, reaches.tail ⟨notHidden, body, isBody, isInner⟩, mentioned⟩
  · rintro ⟨outer, isPart, inner, reaches, expr, hasExpr, isName⟩
    refine ⟨outer, isPart, ?_⟩
    clear isPart
    induction reaches with
    | refl => exact hasExpr.mem_reads (Expr.mem_names_iff.2 isName)
    | tail _ isOpen ih => exact isOpen.mem_reads ih

theorem mem_insertName_iff {name other : String} {names : List String} :
    other ∈ insertName name names ↔ other = name ∨ other ∈ names := by
  induction names with
  | nil => simp [insertName]
  | cons first names ih =>
      rw [insertName]
      split
      · simp
      · split
        · next same => simp [same]
        · simp [ih, or_left_comm]

theorem mem_readNames_iff {body : List Stmt} {name : String} :
    name ∈ readNames body ↔ name ∈ readsOfBody body := by
  have collected (reads names : List String) :
      name ∈ reads.foldl (fun names name => insertName name names) names ↔
        name ∈ reads ∨ name ∈ names := by
    induction reads generalizing names with
    | nil => simp
    | cons first reads ih => simp [ih, mem_insertName_iff, or_left_comm, or_assoc]
  simp [readNames, collected]

/-- A body reads a name exactly if it mentions it. -/
theorem bodyReads_iff {body : List Stmt} {name : String} :
    bodyReads body name = true ↔ Mentions body name := by
  rw [bodyReads, decide_eq_true_eq, mem_readsOfBody_iff_mentions]

end Stmt

end Stencil

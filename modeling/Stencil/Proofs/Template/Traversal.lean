import Stencil.Proofs.Stmt.Addresses

/-!
# Two ways through a template

The statements of a template can be listed, and counted, by going through the bodies of each of
them, and they are also among the nodes that a walk meets. Both ways list the same statements in the
same order, and the walk meets each node of the template at its own address.
-/

namespace Stencil

/-- The statement that a node is. -/
def Node.stmt? : Node → Option Stmt
  | stmt statement => some statement
  | expr _ => none

namespace Stmt

open Node

/-- There is no statement among expressions. -/
@[simp]
theorem filterMap_exprs (exprs : List Expr) : exprs.filterMap (stmt? ∘ Node.expr) = [] :=
  List.filterMap_eq_nil_iff.mpr fun _ _ => rfl

@[simp]
theorem filterMap_ofParameters (params : List Parameter) :
    (ofParameters params).filterMap stmt? = [] := by
  rw [ofParameters, List.filterMap_flatMap, List.flatMap_eq_nil_iff]
  intro param _
  rw [ofOption, List.filterMap_map, filterMap_exprs]

@[simp]
theorem filterMap_ofFilters (filters : List FilterCall) :
    (ofFilters filters).filterMap stmt? = [] := by
  rw [ofFilters, List.filterMap_flatMap, List.flatMap_eq_nil_iff]
  intro filter _
  rw [List.filterMap_map, filterMap_exprs]

mutual

/-- The statements that a walk over a statement meets are those of its flattening. -/
theorem filterMap_walk : (statement : Stmt) → statement.walk.filterMap stmt? = statement.flatten
  | text .. | output .. | parent .. | inclusion .. | importAs .. | importNames .. | bareCall ..
  | evaluate .. | debug .. | continue_ .. | break_ .. => by
    simp [walk, flatten_eq, bodies, stmt?, ofExpr]
  | forLoop _ _ _ _ _ body elseBody => by
    simp [walk, flatten_eq, bodies, stmt?, ofExpr, ofOption,
      filterMap_walkBody body, filterMap_walkBody elseBody]
  | choice _ _ body elifs elseBody => by
    simp [walk, flatten_eq, bodies, stmt?, ofExpr, List.flatMap_map, filterMap_walkBody body,
      filterMap_walkBranches elifs, filterMap_walkBody elseBody]
  | assign _ _ _ body | block _ _ _ _ body | macro_ _ _ _ body _ _ | callBlock _ _ _ body
  | scope _ _ body | filtered _ _ body | autoescape _ _ body | extension _ _ _ body => by
    simp [walk, flatten_eq, bodies, stmt?, ofExpr, ofOption,
      filterMap_walkBody body]

theorem filterMap_walkBody :
    (body : List Stmt) → (walkBody body).filterMap stmt? = body.flatMap flatten
  | [] => rfl
  | first :: rest => by
    rw [walkBody, List.filterMap_append, filterMap_walk first, filterMap_walkBody rest,
      List.flatMap_cons]

theorem filterMap_walkBranches : (branches : List (Branch Stmt)) →
    (walkBranches branches).filterMap stmt? = branches.flatMap (·.body.flatMap flatten)
  | [] => rfl
  | ⟨condition, body⟩ :: rest => by
    rw [walkBranches, List.filterMap_append, List.filterMap_append, ofExpr, List.filterMap_map,
      filterMap_exprs, filterMap_walkBody body, filterMap_walkBranches rest, List.flatMap_cons,
      List.nil_append]

end

/-- As many statements are counted in a statement as are listed. -/
theorem count_eq_length_flatten (statement : Stmt) :
    statement.count = statement.flatten.length := by
  induction statement using flatten.induct with
  | case1 statement ih =>
      have sameBodies : ∀ body ∈ statement.bodies,
          (body.map count).foldr (· + ·) 0 = (body.flatMap flatten).length := by
        intro body isBody
        rw [← List.sum_eq_foldr, List.length_flatMap]
        exact congrArg List.sum (List.map_congr_left fun child isChild =>
          ih ⟨body, isBody⟩ ⟨child, isChild⟩)
      rw [count_eq, flatten_eq, List.length_cons, List.length_flatMap,
        List.map_congr_left sameBodies, ← List.sum_eq_foldr, Nat.add_comm]

end Stmt

namespace Template

theorem statementCount_eq_length (template : Template) :
    template.statementCount = template.statements.length := by
  rw [statementCount, statements, ← List.sum_eq_foldr, List.length_flatMap]
  exact congrArg List.sum (List.map_congr_left fun stmt _ => stmt.count_eq_length_flatten)

/-- The node at an address in a template. -/
def node? (template : Template) : Node.Address → Option Node :=
  Node.findIn (Node.childrenOf [(.body, Node.ofBody template.body)])

/-- The statements that a walk meets are those that are listed body by body, in the same order, so
that they are as many as are counted. The walk as a whole meets what stands at the addresses of the
template: at each of them once, and at none after one that is inside of it. -/
theorem traversals_agree (template : Template) :
    (Stmt.walkBody template.body).filterMap Node.stmt? = template.statements ∧
    ((Stmt.walkBody template.body).filterMap Node.stmt?).length = template.statementCount ∧
    ∃ addresses : List Node.Address,
      addresses.map template.node? = (Stmt.walkBody template.body).map some ∧
      addresses.Nodup ∧
      (∀ address, address ∈ addresses ↔ (template.node? address).isSome) ∧
      addresses.Pairwise fun earlier later => ¬ later <+: earlier := by
  have sameStatements := Stmt.filterMap_walkBody template.body
  have distinct : ([(Node.Field.body, Node.ofBody template.body)].map Prod.fst).Nodup :=
    List.nodup_singleton _
  obtain ⟨addresses, isMet⟩ := Node.MetAt.gather (Node.steps_distinct distinct) (.refl _)
    fun child _ => Node.exists_metAt child.2
  rw [Node.flatMap_childrenOf, List.flatMap_singleton, ← Node.walkBody_eq] at isMet
  have sameCount := (congrArg List.length sameStatements).trans
    template.statementCount_eq_length.symm
  exact ⟨sameStatements, sameCount, addresses, isMet.found, isMet.nodup,
    fun address => ⟨isMet.isSome, isMet.all address⟩, isMet.descending⟩

end Template

end Stencil

import Stencil.Proofs.Stmt.Names

/-!
# Addresses in a tree

Equal nodes can stand at several places of a template, so that a list of nodes alone does not say
which of them a walk has met. A place is told by its address: the steps that lead to it from the
root, each of which names a field of a node and a position in it. The fields are listed here once,
as the syntax declares them. A walk goes through the addresses of a tree in such a way that none is
left out, none comes twice and none comes before one that it is inside of.
-/

namespace Stencil

namespace Node

/-- A field that holds nodes. -/
inductive Field where
  | expr | items | left | right | operand | condition | value | otherwise | callee | args | kwargs
  | index | start | stop | step | iter | filter | body | elifs | elseBody | template | defaults
  | call | assignments | filters | enabled
deriving DecidableEq

/-- One step down from a node: a field and a position in it. -/
abbrev Step := Field × Nat

/-- A place in a tree: the steps that lead to it. -/
abbrev Address := List Step

/-- The nodes of some expressions. -/
def ofExprs (exprs : List Expr) : List Node := exprs.map expr

/-- The nodes of the values of named expressions. -/
def ofValues (named : List (Named Expr)) : List Node := named.map fun entry => expr entry.value

/-- The nodes of the statements of a body. -/
def ofBody (body : List Stmt) : List Node := body.map stmt

/-- The fields of an expression that hold nodes, with these nodes, in the order of their
declaration. -/
def fieldsOfExpr : Expr → List (Field × List Node)
  | .list _ items => [(.items, ofExprs items)]
  | .binary _ _ left right => [(.left, [expr left]), (.right, [expr right])]
  | .unary _ _ operand => [(.operand, [expr operand])]
  | .conditional _ condition value otherwise =>
    [(.condition, [expr condition]), (.value, [expr value]),
      (.otherwise, ofExprs otherwise.toList)]
  | .call _ callee args kwargs =>
    [(.callee, [expr callee]), (.args, ofExprs args), (.kwargs, ofValues kwargs)]
  | .filter _ value _ args kwargs | .test _ value _ args kwargs _ =>
    [(.value, [expr value]), (.args, ofExprs args), (.kwargs, ofValues kwargs)]
  | .attr _ value _ => [(.value, [expr value])]
  | .item _ value index => [(.value, [expr value]), (.index, [expr index])]
  | .slice _ start stop step =>
    [(.start, ofExprs start.toList), (.stop, ofExprs stop.toList), (.step, ofExprs step.toList)]
  | .name .. | .string .. | .integer .. | .float .. | .boolean .. | .null .. => []

/-- The fields of a statement that hold nodes, with these nodes, in the order of their declaration.
A branch holds its condition and the statements of its body, a filter its arguments. -/
def fieldsOfStmt : Stmt → List (Field × List Node)
  | .output _ value | .evaluate _ value => [(.expr, [expr value])]
  | .forLoop _ _ iter filter _ body elseBody =>
    [(.iter, [expr iter]), (.filter, ofExprs filter.toList), (.body, ofBody body),
      (.elseBody, ofBody elseBody)]
  | .choice _ condition body elifs elseBody =>
    [(.condition, [expr condition]), (.body, ofBody body),
      (.elifs, elifs.flatMap fun branch => expr branch.condition :: ofBody branch.body),
      (.elseBody, ofBody elseBody)]
  | .assign _ _ value body => [(.value, ofExprs value.toList), (.body, ofBody body)]
  | .block _ _ _ _ body => [(.body, ofBody body)]
  | .parent _ template | .inclusion _ template _ _ | .importAs _ template _ _
  | .importNames _ template _ _ => [(.template, [expr template])]
  | .macro_ _ _ params body _ _ =>
    [(.defaults, ofExprs (params.filterMap (·.default?))), (.body, ofBody body)]
  | .bareCall _ call => [(.call, [expr call])]
  | .callBlock _ call params body =>
    [(.call, [expr call]), (.defaults, ofExprs (params.filterMap (·.default?))),
      (.body, ofBody body)]
  | .scope _ assignments body => [(.assignments, ofValues assignments), (.body, ofBody body)]
  | .filtered _ filters body =>
    [(.filters, filters.flatMap fun filter => ofExprs filter.args ++ ofValues filter.kwargs),
      (.body, ofBody body)]
  | .autoescape _ enabled body => [(.enabled, [expr enabled]), (.body, ofBody body)]
  | .extension _ _ args body => [(.args, ofExprs args), (.body, ofBody body)]
  | .text .. | .debug .. | .continue_ .. | .break_ .. => []

/-- The fields of a node that hold nodes, with these nodes. -/
def fields : Node → List (Field × List Node)
  | stmt statement => fieldsOfStmt statement
  | expr expression => fieldsOfExpr expression

/-- A node stands directly inside another one. -/
def Holds (outer inner : Node) : Prop :=
  ∃ field ∈ outer.fields, inner ∈ field.2

/-- The nodes in some fields, each with the step that leads to it. -/
def childrenOf (fields : List (Field × List Node)) : List (Step × Node) :=
  fields.flatMap fun field => field.2.zipIdx.map fun entry => ((field.1, entry.2), entry.1)

/-- The nodes directly inside a node, each with the step that leads to it. -/
def children (node : Node) : List (Step × Node) := childrenOf node.fields

/-- The node at an address under a node. -/
def at? : Address → Node → Option Node
  | [], node => some node
  | step :: rest, node => (node.children.lookup step).bind (at? rest)

/-- The node at an address that begins with a step to one of some nodes. -/
def findIn (children : List (Step × Node)) : Address → Option Node
  | [] => none
  | step :: rest => (children.lookup step).bind (at? rest)

/-- The nodes that a walk from a node on meets. -/
def walk : Node → List Node
  | stmt statement => statement.walk
  | expr expression => ofExpr expression

/-- Nodes are met at some addresses: the nodes are those that are found there, no other address
leads to a node, and no address comes after one that is inside of it. -/
structure MetAt (find? : Address → Option Node) (addresses : List Address) (nodes : List Node) :
    Prop where
  found : addresses.map find? = nodes.map some
  all : ∀ address, (find? address).isSome → address ∈ addresses
  descending : addresses.Pairwise fun earlier later => ¬ later <+: earlier

/-! ### What is directly inside a node -/

/-- The expressions directly inside a statement are those of its tags. -/
theorem holds_iff_hasExpr {statement : Stmt} {expression : Expr} :
    (stmt statement).Holds (expr expression) ↔ statement.HasExpr expression := by
  constructor
  · intro isHeld
    cases statement <;>
      simp only [Holds, fields, fieldsOfStmt, ofExprs, ofValues, ofBody, List.mem_cons,
        List.mem_map, List.mem_append, List.mem_flatMap, List.mem_filterMap, List.not_mem_nil,
        Option.mem_toList, exists_eq_or_imp, exists_eq_left, expr.injEq, exists_eq_right,
        or_false, false_and, and_false, exists_false, reduceCtorEq] at isHeld <;>
      grind [intro Stmt.HasExpr]
  · intro hasExpr
    cases hasExpr <;> simp [Holds, fields, fieldsOfStmt, ofExprs, ofValues, ofBody] <;> grind

/-- The statements directly inside a statement are those of its bodies. -/
theorem holds_iff_mem_bodies {outer inner : Stmt} :
    (stmt outer).Holds (stmt inner) ↔ ∃ body ∈ outer.bodies, inner ∈ body := by
  cases outer <;>
    simp [Holds, fields, fieldsOfStmt, ofExprs, ofValues, ofBody, Stmt.bodies]

/-- No two fields of a node have the same name. -/
theorem fields_distinct (node : Node) : (node.fields.map Prod.fst).Nodup := by
  rcases node with statement | expression
  · cases statement <;> simp [fields, fieldsOfStmt]
  · cases expression <;> simp [fields, fieldsOfExpr]

/-- The steps to the nodes in fields of different names are different. -/
theorem steps_distinct {fields : List (Field × List Node)}
    (distinct : (fields.map Prod.fst).Nodup) : ((childrenOf fields).map Prod.fst).Nodup := by
  have steps : (childrenOf fields).map Prod.fst =
      fields.flatMap fun field =>
        (List.range field.2.length).map fun index => (field.1, index) := by
    rw [childrenOf, List.map_flatMap]
    congr 1
    funext field
    rw [List.map_map, List.range_eq_range', ← List.zipIdx_map_snd 0 field.2, List.map_map]
    rfl
  rw [steps, List.nodup_flatMap]
  constructor
  · intro field _
    exact List.nodup_range.map fun _ _ same => (Prod.mk.inj same).2
  · refine (List.pairwise_map.mp distinct).imp fun differ step inFirst inSecond => differ ?_
    obtain ⟨_, _, rfl⟩ := List.mem_map.mp inFirst
    obtain ⟨_, _, same⟩ := List.mem_map.mp inSecond
    exact (Prod.mk.inj same).1.symm

/-- Walks from the nodes in some fields are walks through one field after the other. -/
theorem flatMap_childrenOf (fields : List (Field × List Node)) :
    (childrenOf fields).flatMap (·.2.walk) = fields.flatMap fun field => field.2.flatMap walk := by
  rw [childrenOf, List.flatMap_assoc]
  congr 1
  funext field
  rw [List.flatMap_map]
  conv_rhs => rw [← List.zipIdx_map_fst 0 field.2]
  rw [List.flatMap_map]

/-! ### Walks one level down -/

theorem ofOption_eq (root : Option Expr) : ofOption root = (ofExprs root.toList).flatMap walk := by
  cases root <;> simp [ofOption, Expr.nodesOfOption, ofExprs, walk, ofExpr]

theorem map_nodesOfList (exprs : List Expr) :
    (Expr.nodesOfList exprs).map expr = (ofExprs exprs).flatMap walk := by
  induction exprs with
  | nil => rfl
  | cons first rest ih => simp_all [Expr.nodesOfList, ofExprs, walk, ofExpr]

theorem map_nodesOfNamed (named : List (Named Expr)) :
    (Expr.nodesOfNamed named).map expr = (ofValues named).flatMap walk := by
  induction named with
  | nil => rfl
  | cons first rest ih => simp_all [Expr.nodesOfNamed, ofValues, walk, ofExpr]

theorem ofParameters_eq (params : List Parameter) :
    ofParameters params = (ofExprs (params.filterMap (·.default?))).flatMap walk := by
  induction params with
  | nil => rfl
  | cons first rest ih =>
    have split : ofParameters (first :: rest) = ofOption first.default? ++ ofParameters rest := rfl
    rw [split, ih, ofOption_eq]
    cases isDefault : first.default? <;> simp [ofExprs, isDefault]

theorem ofFilters_eq (filters : List FilterCall) :
    ofFilters filters =
      (filters.flatMap fun filter =>
        ofExprs filter.args ++ ofValues filter.kwargs).flatMap walk := by
  rw [ofFilters, List.flatMap_assoc]
  congr 1
  funext filter
  rw [List.map_append, List.flatMap_append, map_nodesOfList, map_nodesOfNamed]

theorem walkBody_eq (body : List Stmt) : Stmt.walkBody body = (ofBody body).flatMap walk := by
  induction body with
  | nil => rfl
  | cons first rest ih => simp_all [Stmt.walkBody, ofBody, walk]

theorem walkBranches_eq (branches : List (Branch Stmt)) :
    Stmt.walkBranches branches =
      (branches.flatMap fun branch =>
        .expr branch.condition :: ofBody branch.body).flatMap walk := by
  induction branches with
  | nil => rfl
  | cons first rest ih =>
    rw [Stmt.walkBranches, ih, walkBody_eq, List.flatMap_cons, List.flatMap_append]
    rfl

/-- A walk meets a node first and then goes through its fields, in some order. -/
theorem exists_walk_eq (node : Node) :
    ∃ order : List (Field × List Node), order.Perm node.fields ∧
      node.walk = node :: order.flatMap fun field => field.2.flatMap walk := by
  rcases node with statement | expression
  · refine ⟨_, .refl _, ?_⟩
    cases statement <;>
      simp [fields, fieldsOfStmt, walk, Stmt.walk, ofOption_eq, map_nodesOfList, map_nodesOfNamed,
        ofParameters_eq, ofFilters_eq, walkBody_eq, walkBranches_eq]
  · cases expression with
    | conditional origin condition value otherwise =>
      -- the value is written and met before its condition, which is declared first
      refine ⟨[(.value, [expr value]), (.condition, [expr condition]),
        (.otherwise, ofExprs otherwise.toList)], .swap _ _ _, ?_⟩
      simp [walk, ofExpr, Expr.nodes, ← ofOption_eq, ofOption]
    | _ =>
      refine ⟨_, .refl _, ?_⟩
      simp [fields, fieldsOfExpr, walk, ofExpr, Expr.nodes, ← ofOption_eq, ofOption,
        map_nodesOfList, map_nodesOfNamed]

/-- A walk meets a node and all that walks from what is directly inside it meet. -/
theorem mem_walk_iff {node met : Node} :
    met ∈ node.walk ↔ met = node ∨ ∃ inner, node.Holds inner ∧ met ∈ inner.walk := by
  obtain ⟨order, isOrder, isWalk⟩ := exists_walk_eq node
  simp only [isWalk, List.mem_cons, List.mem_flatMap, isOrder.mem_iff]
  constructor
  · rintro (rfl | ⟨field, isField, inner, isInner, isMet⟩)
    · exact Or.inl rfl
    · exact Or.inr ⟨inner, ⟨field, isField, isInner⟩, isMet⟩
  · rintro (rfl | ⟨inner, ⟨field, isField, isInner⟩, isMet⟩)
    · exact Or.inl rfl
    · exact Or.inr ⟨field, isField, inner, isInner, isMet⟩

/-- A walk from a node goes on with walks from the nodes directly inside it, in some order. -/
theorem exists_walk_eq_children (node : Node) :
    ∃ order : List (Step × Node), order.Perm node.children ∧
      node.walk = node :: order.flatMap (·.2.walk) := by
  obtain ⟨order, isOrder, isWalk⟩ := exists_walk_eq node
  exact ⟨childrenOf order, isOrder.flatMap_right _, by rw [isWalk, flatMap_childrenOf]⟩

theorem length_walk_lt {node : Node} {order : List (Step × Node)}
    (isWalk : node.walk = node :: order.flatMap (·.2.walk)) {child : Step × Node}
    (isChild : child ∈ order) : child.2.walk.length < node.walk.length := by
  have sublist : child.2.walk.Sublist (order.flatMap (·.2.walk)) :=
    List.sublist_flatten_of_mem (List.mem_map_of_mem isChild)
  rw [isWalk, List.length_cons]
  exact Nat.lt_succ_of_le sublist.length_le

/-! ### What a walk meets -/

/-- Where steps differ, each leads to the one node it stands with. -/
theorem lookup_eq_some_iff {children : List (Step × Node)}
    (distinct : (children.map Prod.fst).Nodup) {step : Step} {node : Node} :
    children.lookup step = some node ↔ (step, node) ∈ children := by
  rw [List.lookup_eq_some_iff]
  constructor
  · rintro ⟨before, after, rfl, _⟩
    exact List.mem_append_right _ List.mem_cons_self
  · intro member
    obtain ⟨before, after, rfl⟩ := List.mem_iff_append.mp member
    refine ⟨before, after, rfl, fun earlier isEarlier => bne_iff_ne.mpr ?_⟩
    rw [List.map_append, List.nodup_append] at distinct
    exact (distinct.2.2 _ (List.mem_map_of_mem isEarlier) _ List.mem_cons_self).symm

namespace MetAt

variable {find? : Address → Option Node} {addresses : List Address} {nodes : List Node}

theorem isSome (isMet : MetAt find? addresses nodes) {address : Address}
    (isAddress : address ∈ addresses) : (find? address).isSome := by
  have member : find? address ∈ nodes.map some := isMet.found ▸ List.mem_map_of_mem isAddress
  obtain ⟨node, _, isNode⟩ := List.mem_map.mp member
  rw [← isNode]
  rfl

theorem nodup (isMet : MetAt find? addresses nodes) : addresses.Nodup := by
  refine isMet.descending.imp ?_
  intro earlier later apart same
  exact apart (same ▸ List.prefix_rfl)

/-- What is met from each of some nodes on is met at the addresses behind the steps to them, in
whatever order one goes to these nodes. -/
theorem gather {children order : List (Step × Node)} (distinct : (children.map Prod.fst).Nodup)
    (isOrder : order.Perm children)
    (met : ∀ child ∈ children, ∃ addresses, MetAt (at? · child.2) addresses child.2.walk) :
    ∃ addresses, MetAt (findIn children) addresses (order.flatMap (·.2.walk)) := by
  have chosen : ∀ child, ∃ addresses, child ∈ children →
      MetAt (at? · child.2) addresses child.2.walk := fun child => by
    by_cases isChild : child ∈ children
    · exact (met child isChild).imp fun _ isMet _ => isMet
    · exact ⟨[], fun impossible => absurd impossible isChild⟩
  choose below isBelow using chosen
  refine ⟨order.flatMap fun child => (below child).map (child.1 :: ·), ?_, ?_, ?_⟩
  · rw [List.map_flatMap, List.map_flatMap]
    refine List.flatMap_congr fun child inOrder => ?_
    have isChild := isOrder.mem_iff.mp inOrder
    rw [List.map_map, ← (isBelow child isChild).found]
    refine List.map_congr_left fun address _ => ?_
    simp [findIn, (lookup_eq_some_iff distinct).mpr isChild]
  · intro address isSome
    cases address with
    | nil => simp [findIn] at isSome
    | cons step rest =>
      rw [findIn] at isSome
      cases isChild : children.lookup step with
      | none => simp [isChild] at isSome
      | some node =>
        rw [isChild, Option.bind_some] at isSome
        have member := (lookup_eq_some_iff distinct).mp isChild
        exact List.mem_flatMap.mpr ⟨_, isOrder.mem_iff.mpr member,
          List.mem_map_of_mem ((isBelow _ member).all rest isSome)⟩
  · rw [List.pairwise_flatMap]
    constructor
    · intro child inOrder
      have isChild := isOrder.mem_iff.mp inOrder
      refine List.pairwise_map.mpr ((isBelow child isChild).descending.imp ?_)
      intro earlier later apart inside
      exact apart (List.cons_prefix_cons.mp inside).2
    · have stepsDiffer : order.Pairwise (·.1 ≠ ·.1) :=
        List.pairwise_map.mp ((isOrder.map Prod.fst).nodup_iff.mpr distinct)
      refine stepsDiffer.imp fun differ earlier inEarlier later inLater inside => ?_
      obtain ⟨_, _, rfl⟩ := List.mem_map.mp inEarlier
      obtain ⟨_, _, rfl⟩ := List.mem_map.mp inLater
      exact differ (List.cons_prefix_cons.mp inside).1.symm

end MetAt

/-- A walk from a node on meets what is at the addresses under it. -/
theorem exists_metAt (node : Node) : ∃ addresses, MetAt (at? · node) addresses node.walk := by
  generalize isLength : node.walk.length = length
  induction length using Nat.strongRecOn generalizing node with
  | ind length ih =>
    obtain ⟨order, isOrder, isWalk⟩ := exists_walk_eq_children node
    obtain ⟨addresses, isMet⟩ := MetAt.gather (steps_distinct (fields_distinct node)) isOrder
      fun child isChild =>
        ih _ (isLength ▸ length_walk_lt isWalk (isOrder.mem_iff.mpr isChild)) _ rfl
    have notRoot : [] ∉ addresses := fun isRoot => Bool.noConfusion (isMet.isSome isRoot)
    refine ⟨[] :: addresses, ?_, ?_, ?_⟩
    · rw [List.map_cons, isWalk, List.map_cons, ← isMet.found]
      refine congrArg₂ _ rfl (List.map_congr_left fun address isAddress => ?_)
      cases address with
      | nil => exact absurd isAddress notRoot
      | cons => rfl
    · intro address isSome
      cases address with
      | nil => exact List.mem_cons_self
      | cons step rest => exact List.mem_cons_of_mem _ (isMet.all _ isSome)
    · refine List.pairwise_cons.mpr ⟨fun later isLater inside => ?_, isMet.descending⟩
      exact notRoot (List.prefix_nil.mp inside ▸ isLater)

end Node

end Stencil

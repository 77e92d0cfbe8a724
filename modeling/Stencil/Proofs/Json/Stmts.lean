import Stencil.Proofs.Json.Exprs
import Stencil.Proofs.Stmt.Addresses

/-!
# Written statements

A statement is read back from the value that is written for it if its expressions are, and what
is known of the expressions of a statement that is read holds at every depth. Depth is counted in
bodies here, since the expressions of a statement are read in full.
-/

namespace Stencil

open Json

variable {writeFloat : Binary64 → Json}

/-- The line of a node has 64 bits, and so has the integer that it may be. -/
def Node.InWord : Node → Prop
  | stmt statement => statement.origin.line ≤ maxWord
  | expr expression => expression.InWord

/-- A node is no floating-point number, and what it has of numbers has 64 bits. -/
def Node.Writable : Node → Prop
  | stmt statement => statement.origin.line ≤ maxWord
  | expr expression => expression.isFloat = false ∧ expression.InWord

/-! ### Records in statements -/

@[simp]
theorem optional?_ofText? (text : Option String) :
    optional? text? (some (ofText? text)) = some text := by
  cases text <;> rfl

theorem optional?_toJsonOption {optional : Option Expr}
    (readsBack : ∀ expr, optional = some expr →
      Expr.ofJson? (expr.toJson writeFloat) = some expr) :
    optional? Expr.ofJson? (some (Expr.toJsonOption writeFloat optional)) = some optional := by
  rw [Expr.toJsonOption_eq]
  exact optional?_elim Expr.toJson_ne_null readsBack

theorem list?_toJsonList {exprs : List Expr}
    (readsBack : ∀ expr ∈ exprs, Expr.ofJson? (expr.toJson writeFloat) = some expr) :
    list? Expr.ofJson? (.array (Expr.toJsonList writeFloat exprs)) = some exprs := by
  rw [Expr.toJsonList_eq]
  exact list?_array readsBack

theorem Parameter.ofJson?_toJson {param : Parameter}
    (readsBack : ∀ default, param.default? = some default →
      Expr.ofJson? (default.toJson writeFloat) = some default) :
    Parameter.ofJson? (param.toJson writeFloat) = some param := by
  simp [Parameter.ofJson?, Parameter.toJson, record?, fields?, field?,
    optional?_toJsonOption readsBack]

theorem FilterCall.ofJson?_toJson {filter : FilterCall}
    (args : ∀ arg ∈ filter.args, Expr.ofJson? (arg.toJson writeFloat) = some arg)
    (kwargs : ∀ kwarg ∈ filter.kwargs,
      Expr.ofJson? (kwarg.value.toJson writeFloat) = some kwarg.value) :
    FilterCall.ofJson? (filter.toJson writeFloat) = some filter := by
  simp [FilterCall.ofJson?, FilterCall.toJson, record?, fields?, field?, list?_toJsonList args,
    Expr.toJsonNamed_eq, list?_ofNamed kwargs]

theorem ImportName.ofJson?_toJson (imported : ImportName) :
    ImportName.ofJson? imported.toJson = some imported := by
  simp [ImportName.ofJson?, ImportName.toJson, record?, fields?, field?]

/-- The default of a parameter that is read was read itself. -/
theorem Parameter.ofJson?_yields (json : Json) :
    Yields (fun param => ∀ default, param.default? = some default → IsRead Expr.ofJson? default)
      (Parameter.ofJson? json) := by
  refine .bind fun given _ => ?_
  split
  · refine .bind fun _ _ => .bind fun _ isOptional => .value ?_
    rintro _ rfl
    exact .of_optional isOptional
  · exact .nothing

/-- The arguments of a filter that is read were read themselves. -/
theorem FilterCall.ofJson?_yields (json : Json) :
    Yields (fun filter => (∀ arg ∈ filter.args, IsRead Expr.ofJson? arg) ∧
      ∀ kwarg ∈ filter.kwargs, IsRead Expr.ofJson? kwarg.value) (FilterCall.ofJson? json) := by
  refine .bind fun given _ => ?_
  split
  · exact .bind fun _ _ => .bind fun _ areArgs => .bind fun _ areKwargs => .value
      ⟨fun _ isArg => .of_items areArgs isArg,
        fun _ isKwarg => .of_named (.of_items areKwargs isKwarg)⟩
  · exact .nothing

namespace Stmt

theorem toJsonBody_eq (body : List Stmt) :
    toJsonBody writeFloat body = body.map (toJson writeFloat) := by
  induction body with
  | nil => rfl
  | cons first rest ih => rw [toJsonBody, ih, List.map_cons]

theorem toJsonBranches_eq (branches : List (Branch Stmt)) :
    toJsonBranches writeFloat branches = branches.map fun branch =>
      .object [⟨"condition", branch.condition.toJson writeFloat⟩,
        ⟨"body", .array (toJsonBody writeFloat branch.body)⟩] := by
  induction branches with
  | nil => rfl
  | cons first rest ih => rw [toJsonBranches, ih, List.map_cons]

variable {inner : Json → Option Stmt}

/-- A statement is read back if its line has 64 bits and its expressions and the statements in its
bodies are read back. -/
theorem decodeWith_toJson (stmt : Stmt) (fits : stmt.origin.line ≤ maxWord)
    (exprs : ∀ expr, stmt.HasExpr expr → Expr.ofJson? (expr.toJson writeFloat) = some expr)
    (stmts : ∀ body ∈ stmt.bodies, ∀ child ∈ body, inner (toJson writeFloat child) = some child) :
    decodeWith inner (toJson writeFloat stmt) = some stmt := by
  have body (body : List Stmt) (isBody : body ∈ stmt.bodies) :
      list? inner (.array (toJsonBody writeFloat body)) = some body := by
    rw [toJsonBody_eq]
    exact list?_array (stmts body isBody)
  have option (optional : Option Expr)
      (hasExpr : ∀ expr, optional = some expr → stmt.HasExpr expr) :
      optional? Expr.ofJson? (some (Expr.toJsonOption writeFloat optional)) = some optional :=
    optional?_toJsonOption fun expr isThere => exprs expr (hasExpr expr isThere)
  have params (params : List Parameter)
      (hasExpr : ∀ param ∈ params, ∀ default, param.default? = some default →
        stmt.HasExpr default) :
      list? Parameter.ofJson? (.array (params.map (Parameter.toJson writeFloat))) = some params :=
    list?_array fun param isParam => Parameter.ofJson?_toJson fun default isDefault =>
      exprs default (hasExpr param isParam default isDefault)
  have isNode := node?_node fits
  cases stmt
  all_goals
    rw [toJson, decodeWith]
    dsimp only [origin] at isNode
    rw [isNode]
    dsimp only [Option.bind_eq_bind, Option.bind_some, form?_form, form?_string]
  case text => simp [fields?, field?]
  case output expr => simp [fields?, field?, exprs expr .output]
  case forLoop targets iter filter isRecursive loopBody elseBody =>
    simp [fields?, field?, list?_ofTexts, exprs iter .iter,
      option filter (by rintro _ rfl; exact .filter), body loopBody (by simp [bodies]),
      body elseBody (by simp [bodies])]
  case choice condition thenBody elifs elseBody =>
    have branches : list? (branch? (list? inner)) (.array (toJsonBranches writeFloat elifs)) =
        some elifs := by
      rw [toJsonBranches_eq]
      refine list?_array fun branch isBranch => ?_
      have isBody : branch.body ∈ elifs.map (·.body) := List.mem_map_of_mem isBranch
      simp [branch?, record?, fields?, field?, exprs branch.condition (.elif isBranch),
        body branch.body (List.mem_cons_of_mem _ (List.mem_append_left _ isBody))]
    simp [fields?, field?, exprs condition .condition, body thenBody (by simp [bodies]), branches,
      body elseBody (by simp [bodies])]
  case assign targets value rendered =>
    simp [fields?, field?, list?_ofTexts, option value (by rintro _ rfl; exact .value),
      body rendered (by simp [bodies])]
  case block _ _ _ inside => simp [fields?, field?, body inside (by simp [bodies])]
  case parent template => simp [fields?, field?, exprs template .parent]
  case inclusion template _ _ => simp [fields?, field?, exprs template .inclusion]
  case importAs template _ _ => simp [fields?, field?, exprs template .importAs]
  case importNames template names _ =>
    simp [fields?, field?, exprs template .importNames,
      list?_array fun imported _ => ImportName.ofJson?_toJson imported]
  case macro_ _ declared inside _ _ =>
    simp [fields?, field?, params declared fun _ isParam _ => .macroDefault isParam,
      body inside (by simp [bodies])]
  case bareCall call => simp [fields?, field?, exprs call .bareCall]
  case callBlock call declared inside =>
    simp [fields?, field?, exprs call .call,
      params declared fun _ isParam _ => .callDefault isParam, body inside (by simp [bodies])]
  case scope assignments inside =>
    simp [fields?, field?, Expr.toJsonNamed_eq,
      list?_ofAssignments fun entry isEntry => exprs entry.value (.assignment isEntry),
      body inside (by simp [bodies])]
  case filtered filters inside =>
    have areRead : list? FilterCall.ofJson?
        (.array (filters.map (FilterCall.toJson writeFloat))) = some filters :=
      list?_array fun applied isApplied => FilterCall.ofJson?_toJson
        (fun arg isArg => exprs arg (.filterArg isApplied isArg))
        fun kwarg isKwarg => exprs kwarg.value (.filterKwarg isApplied isKwarg)
    simp [fields?, field?, areRead, body inside (by simp [bodies])]
  case autoescape enabled inside =>
    simp [fields?, field?, exprs enabled .enabled, body inside (by simp [bodies])]
  case evaluate expr => simp [fields?, field?, exprs expr .evaluate]
  case debug | continue_ | break_ => simp [isBare]
  case extension tag args inside =>
    simp [fields?, field?, list?_toJsonList fun arg isArg => exprs arg (.extensionArg isArg),
      body inside (by simp [bodies])]

/-! ### What was read -/

/-- The condition and the body of a branch that is read were read themselves. -/
theorem branch?_yields {body? : Json → Option (List Stmt)} (json : Json) :
    Yields (fun branch => IsRead Expr.ofJson? branch.condition ∧ IsRead body? branch.body)
      (branch? body? json) := by
  refine .bind fun given _ => ?_
  split
  · exact .bind fun _ isCondition => .bind fun _ isBody => .value
      ⟨.of_bind isCondition, .of_bind isBody⟩
  · exact .nothing

/-- What is known of a statement that is read: its line has 64 bits, and its expressions and the
statements in its bodies were read as well. -/
structure IsReadWith (inner : Json → Option Stmt) (stmt : Stmt) : Prop where
  line_le : stmt.origin.line ≤ maxWord
  exprs : ∀ expr, stmt.HasExpr expr → IsRead Expr.ofJson? expr
  stmts : ∀ body ∈ stmt.bodies, ∀ child ∈ body, IsRead inner child

/-- Whatever is read has its statements from the reader of statements inside. -/
theorem decodeWith_yields (json : Json) :
    Yields (IsReadWith inner) (decodeWith inner json) := by
  have single {field : Option Json} {body : List Stmt}
      (isBody : field.bind (list? inner) = some body) :
      ∀ inside ∈ [body], ∀ child ∈ inside, IsRead inner child :=
    List.forall_mem_singleton.mpr fun _ => .of_items isBody
  rw [decodeWith]
  refine .bind fun ⟨form, origin⟩ isNode => .bind fun ⟨label, parts⟩ _ => ?_
  have fits : origin.line ≤ maxWord := node?_yields json _ isNode
  dsimp only
  split
  · split
    · exact .nothing
    · split
      · exact .value ⟨fits, nofun, nofun⟩
      · split <;> exact .value ⟨fits, nofun, nofun⟩
  refine .bind fun parts _ => ?_
  split
  case h_19 => exact .nothing
  all_goals
    refine .bind fun given _ => ?_
    split
    case h_2 => exact .nothing
  · -- text
    exact .bind fun _ _ => .value ⟨fits, nofun, nofun⟩
  · -- output
    exact .bind fun _ isExpr => .value ⟨fits, fun | _, .output => .of_bind isExpr, nofun⟩
  · -- forLoop
    exact .bind fun _ _ => .bind fun _ isIter => .bind fun _ isFilter => .bind fun _ _ =>
      .bind fun _ isBody => .bind fun _ isElse => .value
        ⟨fits, fun | _, .iter => .of_bind isIter | _, .filter => .of_optional isFilter,
          List.forall_mem_cons.mpr ⟨fun _ => .of_items isBody, single isElse⟩⟩
  · -- choice
    refine .bind fun _ isCondition => .bind fun _ isBody => .bind fun _ areElifs =>
      .bind fun _ isElse => .value ⟨fits, ?_, ?_⟩
    · exact fun
        | _, .condition => .of_bind isCondition
        | _, .elif isBranch => ((IsRead.of_items areElifs isBranch).of_yields branch?_yields).1
    · refine List.forall_mem_cons.mpr ⟨fun _ => .of_items isBody,
        List.forall_mem_append.mpr
          ⟨List.forall_mem_map.mpr fun branch isBranch => ?_, single isElse⟩⟩
      exact ((IsRead.of_items areElifs isBranch).of_yields branch?_yields).2.of_list
  · -- assign
    exact .bind fun _ _ => .bind fun _ isValue => .bind fun _ isBody => .value
      ⟨fits, fun | _, .value => .of_optional isValue, single isBody⟩
  · -- block
    exact .bind fun _ _ => .bind fun _ _ => .bind fun _ _ => .bind fun _ isBody => .value
      ⟨fits, nofun, single isBody⟩
  · -- parent
    exact .bind fun _ isTemplate => .value ⟨fits, fun | _, .parent => .of_bind isTemplate, nofun⟩
  · -- inclusion
    exact .bind fun _ isTemplate => .bind fun _ _ => .bind fun _ _ => .value
      ⟨fits, fun | _, .inclusion => .of_bind isTemplate, nofun⟩
  · -- importAs
    exact .bind fun _ isTemplate => .bind fun _ _ => .bind fun _ _ => .value
      ⟨fits, fun | _, .importAs => .of_bind isTemplate, nofun⟩
  · -- importNames
    exact .bind fun _ isTemplate => .bind fun _ _ => .bind fun _ _ => .value
      ⟨fits, fun | _, .importNames => .of_bind isTemplate, nofun⟩
  · -- macro_
    exact .bind fun _ _ => .bind fun _ areParams => .bind fun _ isBody => .bind fun _ _ =>
      .bind fun _ _ => .value
        ⟨fits, fun
          | _, .macroDefault isParam isDefault =>
            (IsRead.of_items areParams isParam).of_yields Parameter.ofJson?_yields _ isDefault,
          single isBody⟩
  · -- bareCall
    exact .bind fun _ isCall => .value ⟨fits, fun | _, .bareCall => .of_bind isCall, nofun⟩
  · -- callBlock
    exact .bind fun _ isCall => .bind fun _ areParams => .bind fun _ isBody => .value
      ⟨fits, fun
        | _, .call => .of_bind isCall
        | _, .callDefault isParam isDefault =>
          (IsRead.of_items areParams isParam).of_yields Parameter.ofJson?_yields _ isDefault,
        single isBody⟩
  · -- scope
    exact .bind fun _ areAssignments => .bind fun _ isBody => .value
      ⟨fits, fun | _, .assignment isEntry => .of_pair (.of_items areAssignments isEntry),
        single isBody⟩
  · -- filtered
    exact .bind fun _ areFilters => .bind fun _ isBody => .value
      ⟨fits, fun
        | _, .filterArg isFilter isArg =>
          ((IsRead.of_items areFilters isFilter).of_yields FilterCall.ofJson?_yields).1 _ isArg
        | _, .filterKwarg isFilter isKwarg =>
          ((IsRead.of_items areFilters isFilter).of_yields FilterCall.ofJson?_yields).2 _ isKwarg,
        single isBody⟩
  · -- autoescape
    exact .bind fun _ isEnabled => .bind fun _ isBody => .value
      ⟨fits, fun | _, .enabled => .of_bind isEnabled, single isBody⟩
  · -- evaluate
    exact .bind fun _ isExpr => .value ⟨fits, fun | _, .evaluate => .of_bind isExpr, nofun⟩
  · -- extension
    exact .bind fun _ _ => .bind fun _ areArgs => .bind fun _ isBody => .value
      ⟨fits, fun | _, .extensionArg isArg => .of_items areArgs isArg, single isBody⟩

/-! ### Whole trees -/

/-- A statement is less deep than the one that it is in a body of. -/
theorem depth_lt_of_mem_bodies (writeFloat : Binary64 → Json) {stmt child : Stmt}
    {body : List Stmt} (isBody : body ∈ stmt.bodies) (isChild : child ∈ body) :
    (toJson writeFloat child).depth < (toJson writeFloat stmt).depth := by
  have below : (toJson writeFloat child).depth ≤ depthOfList (toJsonBody writeFloat body) := by
    rw [toJsonBody_eq]
    exact depth_le_depthOfList (List.mem_map_of_mem isChild)
  cases stmt with
  | choice origin condition thenBody elifs elseBody =>
    have branches (branch : Branch Stmt) (isBranch : branch ∈ elifs) :
        depthOfList (toJsonBody writeFloat branch.body) <
          depthOfList (toJsonBranches writeFloat elifs) := by
      rw [toJsonBranches_eq]
      refine Nat.lt_of_lt_of_le ?_ (depth_le_depthOfList (List.mem_map_of_mem isBranch))
      simp [depth, depthOfFields]
    simp only [bodies, List.mem_cons, List.mem_append, List.mem_map, List.not_mem_nil,
      or_false] at isBody
    simp only [toJson, depth_node, depth_form, depth, depthOfFields]
    rcases isBody with rfl | ⟨branch, isBranch, rfl⟩ | rfl
    · omega
    · have := branches branch isBranch
      omega
    · omega
  | forLoop =>
    simp only [bodies, List.mem_cons, List.not_mem_nil, or_false] at isBody
    simp only [toJson, depth_node, depth_form, depth, depthOfFields]
    rcases isBody with rfl | rfl <;> omega
  | assign | block | macro_ | callBlock | scope | filtered | autoescape | extension =>
    cases List.mem_singleton.mp isBody
    simp only [toJson, depth_node, depth_form, depth, depthOfFields]
    omega
  | _ => exact absurd isBody List.not_mem_nil

/-- A walk over a statement meets it, the nodes of its expressions, and what walks over the
statements in its bodies meet. -/
theorem mem_walk_iff {stmt : Stmt} {node : Node} :
    node ∈ stmt.walk ↔ node = .stmt stmt ∨
      (∃ whole, stmt.HasExpr whole ∧ ∃ part ∈ whole.nodes, .expr part = node) ∨
      ∃ body ∈ stmt.bodies, ∃ child ∈ body, node ∈ child.walk := by
  rw [show stmt.walk = (Node.stmt stmt).walk from rfl, Node.mem_walk_iff]
  refine or_congr_right ⟨?_, ?_⟩
  · rintro ⟨child | whole, isHeld, isMet⟩
    · obtain ⟨body, isBody, isChild⟩ := Node.holds_iff_mem_bodies.mp isHeld
      exact Or.inr ⟨body, isBody, child, isChild, isMet⟩
    · exact Or.inl ⟨whole, Node.holds_iff_hasExpr.mp isHeld, List.mem_map.mp isMet⟩
  · rintro (⟨whole, hasExpr, isPart⟩ | ⟨body, isBody, child, isChild, isMet⟩)
    · exact ⟨_, Node.holds_iff_hasExpr.mpr hasExpr, List.mem_map.mpr isPart⟩
    · exact ⟨_, Node.holds_iff_mem_bodies.mpr ⟨body, isBody, isChild⟩, isMet⟩

/-- A statement is read back from the value that is written for it, if that value is not too
deep. -/
theorem decode_toJson (levels : Nat) (stmt : Stmt) (writable : ∀ node ∈ stmt.walk, node.Writable)
    (notDeep : (toJson writeFloat stmt).depth < levels) :
    decode levels (toJson writeFloat stmt) = some stmt := by
  induction levels generalizing stmt with
  | zero => exact absurd notDeep (Nat.not_lt_zero _)
  | succ levels ih =>
    have fits : stmt.origin.line ≤ maxWord :=
      writable (.stmt stmt) (mem_walk_iff.mpr (Or.inl rfl))
    refine decodeWith_toJson stmt fits (fun expr hasExpr => ?_) fun body isBody child isChild => ?_
    · exact Expr.ofJson?_toJson fun part isPart => writable (.expr part)
        (mem_walk_iff.mpr (Or.inr (Or.inl ⟨expr, hasExpr, part, isPart, rfl⟩)))
    · have below := depth_lt_of_mem_bodies writeFloat isBody isChild
      refine ih child (fun node isMet => writable node ?_) (by omega)
      exact mem_walk_iff.mpr (Or.inr (Or.inr ⟨body, isBody, child, isChild, isMet⟩))

/-- The lines and the integers of a statement that is read have 64 bits. -/
theorem inWord_of_isRead {levels : Nat} {stmt : Stmt} (isRead : IsRead (decode levels) stmt) :
    ∀ node ∈ stmt.walk, node.InWord := by
  induction levels generalizing stmt with
  | zero =>
    obtain ⟨_, isRead⟩ := isRead
    cases isRead
  | succ levels ih =>
    obtain ⟨json, isRead⟩ := isRead
    obtain ⟨fits, exprs, stmts⟩ := decodeWith_yields json stmt isRead
    intro node isMet
    rcases mem_walk_iff.mp isMet with rfl | ⟨whole, hasExpr, part, isPart, rfl⟩ |
      ⟨body, isBody, child, isChild, isMet⟩
    · exact fits
    · obtain ⟨json, isRead⟩ := exprs whole hasExpr
      exact Expr.inWord_of_isRead ⟨json, isRead⟩ part isPart
    · exact ih (stmts body isBody child isChild) node isMet

end Stmt

end Stencil

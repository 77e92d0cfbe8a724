import Stencil.Proofs.Expr.WellFormed
import Stencil.Proofs.Stmt.Calls

/-!
# Well-formed statements

What a reader of a tree may rely on in every statement, whether or not the template had errors: what
is bound is a free name, tags that bind or import or filter something have something to do so with,
parameters have different names, and what a call tag calls is a call.
-/

namespace Stencil

namespace Stmt

/-- Parameters that a reader of a tree can rely on. -/
structure ParametersWellFormed (params : List Parameter) : Prop where
  distinct : (params.map (·.name)).Nodup
  free : ∀ param ∈ params, Expr.isFreeName param.name = true
  defaults : ∀ param ∈ params, ∀ expr ∈ param.default?, expr.WellFormed

/-- Assignments that a reader of a tree can rely on. -/
structure AssignmentsWellFormed (given : List (Named Expr)) : Prop where
  free : ∀ assignment ∈ given, Expr.isFreeName assignment.name = true
  values : ∀ assignment ∈ given, assignment.value.WellFormed

/-- Filters that a reader of a tree can rely on. -/
structure FilterWellFormed (filter : FilterCall) : Prop where
  isName : Expr.isDottedName filter.name = true
  arguments : Expr.ArgumentsWellFormed filter.args filter.kwargs

/-- Imported names that a reader of a tree can rely on. -/
structure ImportWellFormed (imported : ImportName) : Prop where
  free : Expr.isFreeName imported.name = true
  isPublic : imported.name.toList.head? ≠ some '_'
  freeTarget : ∀ target ∈ imported.target, Expr.isFreeName target = true

/-- Targets of assignments that a reader of a tree can rely on. -/
structure TargetsWellFormed (targets : List String) : Prop where
  nonempty : targets ≠ []
  free : ∀ target ∈ targets, Expr.isFreeName target = true

/-- Statements that a reader of a tree can rely on. Of the statements in bodies nothing is said. -/
inductive WellFormed : Stmt → Prop where
  | text (origin : Origin) (content : String) : WellFormed (text origin content)
  | output (origin : Origin) {expr : Expr} (printed : expr.WellFormed) :
      WellFormed (output origin expr)
  | forLoop (origin : Origin) {targets : List String} {iter : Expr} {filter : Option Expr}
      (isRecursive : Bool) (body elseBody : List Stmt) (bound : TargetsWellFormed targets)
      (repeated : iter.WellFormed) (filtered : ∀ expr ∈ filter, expr.WellFormed) :
      WellFormed (forLoop origin targets iter filter isRecursive body elseBody)
  | choice (origin : Origin) {condition : Expr} (body : List Stmt) {elifs : List (Branch Stmt)}
      (elseBody : List Stmt) (first : condition.WellFormed)
      (others : ∀ branch ∈ elifs, branch.condition.WellFormed) :
      WellFormed (choice origin condition body elifs elseBody)
  | assign (origin : Origin) {targets : List String} {value : Expr}
      (bound : TargetsWellFormed targets) (assigned : value.WellFormed) :
      WellFormed (assign origin targets (some value) [])
  | capture (origin : Origin) {target : String} (body : List Stmt)
      (bound : Expr.isFreeName target = true) : WellFormed (assign origin [target] none body)
  | block (origin : Origin) {name : String} (isScoped isRequired : Bool) (body : List Stmt)
      (named : Expr.isFreeName name = true) :
      WellFormed (block origin name isScoped isRequired body)
  | parent (origin : Origin) {template : Expr} (extended : template.WellFormed) :
      WellFormed (parent origin template)
  | inclusion (origin : Origin) {template : Expr} (withContext ignoreMissing : Bool)
      (included : template.WellFormed) :
      WellFormed (inclusion origin template withContext ignoreMissing)
  | importAs (origin : Origin) {template : Expr} {target : String} (withContext : Bool)
      (imported : template.WellFormed) (bound : Expr.isFreeName target = true) :
      WellFormed (importAs origin template target withContext)
  | importNames (origin : Origin) {template : Expr} {names : List ImportName} (withContext : Bool)
      (imported : template.WellFormed) (nonempty : names ≠ [])
      (each : ∀ name ∈ names, ImportWellFormed name) :
      WellFormed (importNames origin template names withContext)
  | macro_ (origin : Origin) {name : String} {params : List Parameter} (body : List Stmt)
      (catchVarargs catchKwargs : Bool) (named : Expr.isFreeName name = true)
      (signed : ParametersWellFormed params) :
      WellFormed (macro_ origin name params body catchVarargs catchKwargs)
  | bareCall (origin : Origin) {call : Expr} (isCall : call.isCall = true)
      (called : call.WellFormed) : WellFormed (bareCall origin call)
  | callBlock (origin : Origin) {call : Expr} {params : List Parameter} {body : List Stmt}
      (isCall : call.isCall = true) (called : call.WellFormed)
      (signed : ParametersWellFormed params)
      (noBareCall : ∀ stmt ∈ body, stmt.hasBareCall = false) :
      WellFormed (callBlock origin call params body)
  | scope (origin : Origin) {given : List (Named Expr)} (body : List Stmt)
      (assigned : AssignmentsWellFormed given) : WellFormed (scope origin given body)
  | filtered (origin : Origin) {filters : List FilterCall} (body : List Stmt)
      (nonempty : filters ≠ []) (each : ∀ filter ∈ filters, FilterWellFormed filter) :
      WellFormed (filtered origin filters body)
  | autoescape (origin : Origin) {enabled : Expr} (body : List Stmt) (set : enabled.WellFormed) :
      WellFormed (autoescape origin enabled body)
  | evaluate (origin : Origin) {expr : Expr} (evaluated : expr.WellFormed) :
      WellFormed (evaluate origin expr)
  | debug (origin : Origin) : WellFormed (debug origin)
  | continue_ (origin : Origin) : WellFormed (continue_ origin)
  | break_ (origin : Origin) : WellFormed (break_ origin)

end Stmt

variable {α β : Type} {stream : TokenStream}

/-- A rule over tokens succeeds only with good values. -/
def Reading.Yields (stream : TokenStream) (good : α → Prop) (rule : Reading α) : Prop :=
  ∀ start value stop, rule stream start = .ok value stop → good value

namespace Reading.Yields

variable {good : α → Prop} {goal : β → Prop} {rule : Reading α} {next : α → Reading β}

theorem pure {value : α} (holds : good value) : Yields stream good (Pure.pure value) := by
  rintro start value stop ⟨⟩
  exact holds

theorem throw (error : SyntaxError) : Yields stream good (throw error : Reading α) := by
  rintro start value stop ⟨⟩

theorem throw_bind (error : SyntaxError) :
    Yields stream goal ((MonadExcept.throw error : Reading α) >>= next) := by
  rintro start result stop ⟨⟩

theorem bind (first : Yields stream good rule)
    (rest : ∀ value, good value → Yields stream goal (next value)) :
    Yields stream goal (rule >>= next) := by
  intro start result stop outcome
  rcases exists_of_bind_eq_ok outcome with ⟨value, middle, firstOutcome, restOutcome⟩
  exact rest value (first start value middle firstOutcome) middle result stop restOutcome

/-- What a rule succeeds with does not matter. -/
theorem any (rest : ∀ value, Yields stream goal (next value)) :
    Yields stream goal (rule >>= next) := by
  have first : Yields stream (fun _ => True) rule := fun _ _ _ _ => trivial
  exact first.bind fun value _ => rest value

theorem map {change : α → β} (first : Yields stream good rule)
    (changed : ∀ value, good value → goal (change value)) :
    Yields stream goal (change <$> rule) := by
  simp only [← bind_pure_comp]
  exact first.bind fun value isGood => .pure (changed value isGood)

/-- A part that may be left out has a good value if it is there. -/
theorem optional {isThere : Bool} {next : Option α → Reading β} (first : Yields stream good rule)
    (rest : ∀ value?, (∀ value ∈ value?, good value) → Yields stream goal (next value?)) :
    Yields stream goal
      (if isThere then (some <$> rule) >>= next else Pure.pure none >>= next) := by
  split
  · have given : Yields stream (fun value? => ∀ value ∈ value?, good value) (some <$> rule) :=
      first.map fun value isGood => by simpa using isGood
    exact given.bind rest
  · exact rest none (by simp)

/-- A step leaves a value good, whether or not it asks for more. -/
def Step (good : α → Prop) : ForInStep α → Prop
  | .done value | .yield value => good value

theorem loop {step : α → Reading (ForInStep α)}
    (steps : ∀ value, good value → Yields stream (Step good) (step value)) {value : α}
    (holds : good value) : Yields stream good (Reading.loop step value) := by
  intro start result stop outcome
  unfold Reading.loop at outcome
  fun_induction repeatFrom id step value stream start with
  | case1 => cases outcome
  | case2 value start last after stepped =>
      cases outcome
      exact steps value holds start _ _ stepped
  | case3 value start more after stepped _ ih =>
      exact ih (steps value holds start _ _ stepped) outcome
  | case4 value start more after stepped _ =>
      cases outcome
      exact steps value holds start _ _ stepped

theorem commaList {close : Token.Kind} {expected : String} {isEmpty : α → Bool}
    {item : α → Reading α} {none : α}
    (items : ∀ value, good value → Yields stream good (item value)) (nothing : good none) :
    Yields stream good (Reading.commaList close expected isEmpty item none) := by
  refine .bind (.loop (fun value isGood => .any fun token => ?_) nothing) fun value isGood =>
    .any fun _ => .pure isGood
  split
  · exact .pure isGood
  · split
    · exact .bind (items value isGood) fun _ isGood => .pure isGood
    · refine .any fun _ => .any fun token => ?_
      split
      · exact .pure isGood
      · exact .bind (items value isGood) fun _ isGood => .pure isGood

end Reading.Yields

namespace Stmt

open Reading

variable {levels : Nat} (closed : stream.IsClosed)
  (proper : Token.AreProper stream.significant.toList)

include proper

/-! ### Parts of tags -/

theorem identifier_yields :
    Yields stream (fun name => Expr.isFreeName name = true) Reading.identifier := by
  intro start name stop outcome
  by_cases isName : (stream.get start).kind = .name
  · rw [Reading.identifier_eq_of_name isName] at outcome
    cases outcome
    exact (proper _ (stream.get_mem start)).isName isName
  · rw [Reading.identifier, Reading.current_bind, if_neg isName] at outcome
    cases outcome

theorem assignTargets_yields : Yields stream TargetsWellFormed assignTargets := by
  rw [assignTargets_eq]
  refine .any fun _ => .bind (identifier_yields proper) fun first isFree => ?_
  have rest : Yields stream TargetsWellFormed (Reading.loop targetStep [first]) := by
    refine .loop (fun targets bound => .any fun skipped => ?_) ⟨by simp, by simpa using isFree⟩
    split
    · refine .any fun token => ?_
      split
      · refine .bind (identifier_yields proper) fun target isFree => .pure ⟨by simp, ?_⟩
        simpa [or_imp, forall_and] using And.intro bound.free isFree
      · exact .pure bound
    · exact .pure bound
  refine rest.bind fun targets bound => ?_
  split
  · exact .any fun _ => .pure bound
  · exact .pure bound

theorem importName_yields : Yields stream ImportWellFormed importName := by
  refine .any fun token => .bind (identifier_yields proper) fun name isFree => ?_
  split
  · exact .throw_bind _
  · next isPublic =>
    exact .any fun _ => .optional (identifier_yields proper) fun target free =>
      .pure ⟨isFree, isPublic, free⟩

theorem importedNames_yields :
    Yields stream (fun names => names ≠ [] ∧ ∀ name ∈ names, ImportWellFormed name)
      importedNames := by
  rw [importedNames_eq]
  have each : Yields stream (fun names => ∀ name ∈ names, ImportWellFormed name)
      (Reading.loop importStep []) := by
    refine .loop (fun names each => .any fun modifier => ?_) (by simp)
    split
    · exact .pure each
    · refine .bind (importName_yields proper) fun name isGood => .any fun skipped => ?_
      have each : ∀ other ∈ names ++ [name], ImportWellFormed other := by
        simpa [or_imp, forall_and] using And.intro each isGood
      split
      · exact .pure each
      · exact .pure each
  refine each.bind fun names each => ?_
  split
  · exact .any fun token => .throw _
  · next nonempty =>
    exact .pure ⟨by simpa using nonempty, each⟩

variable [Limits]

section

include closed

theorem parameter_yields {params : List Parameter} (signed : ParametersWellFormed params) :
    Yields stream ParametersWellFormed (parameter (Expr.deeper levels) params) := by
  refine .any fun token => .bind (identifier_yields proper) fun name isFree => ?_
  split
  · exact .throw_bind _
  · next isNew =>
    have conditional : Yields stream Expr.WellFormed (Expr.deeper levels).conditional :=
      fun _ _ _ parsed => Expr.parse_wellFormed closed proper parsed
    refine .any fun _ => .optional conditional fun default? isGood => .pure ⟨?_, ?_, ?_⟩
    · have isNew : name ∉ params.map (·.name) := by simpa using isNew
      simpa using signed.distinct.concat isNew
    · simpa [or_imp, forall_and] using And.intro signed.free isFree
    · simpa [or_imp, forall_and] using And.intro signed.defaults isGood

theorem signature_yields :
    Yields stream ParametersWellFormed (signature (Expr.deeper levels)) :=
  .any fun _ => .commaList (fun _ signed => parameter_yields closed proper signed)
    ⟨by simp, by simp, by simp⟩

theorem callParams_yields : Yields stream ParametersWellFormed (callParams levels) := by
  refine .any fun token => ?_
  split
  · exact signature_yields closed proper
  · exact .pure ⟨by simp, by simp, by simp⟩

theorem assignments_yields :
    Yields stream AssignmentsWellFormed (assignments (Expr.deeper levels)) := by
  rw [assignments_eq]
  refine .loop (fun given soFar => .any fun token => ?_) ⟨by simp, by simp⟩
  have next : Yields stream (Yields.Step AssignmentsWellFormed) (do
      let name ← Reading.identifier
      let _ ← Reading.expect .assign "'='"
      let value ← (Expr.deeper levels).conditional
      return .yield (given ++ [⟨name, value⟩])) := by
    refine .bind (identifier_yields proper) fun name isFree => .any fun _ => ?_
    have conditional : Yields stream Expr.WellFormed (Expr.deeper levels).conditional :=
      fun _ _ _ parsed => Expr.parse_wellFormed closed proper parsed
    refine conditional.bind fun value isGood => .pure ⟨?_, ?_⟩
    · simpa [or_imp, forall_and] using And.intro soFar.free isFree
    · simpa [or_imp, forall_and] using And.intro soFar.values isGood
  split
  · exact .pure soFar
  · split
    · exact .any fun _ => next
    · exact next

theorem filterCalls_yields :
    Yields stream (fun filters => filters ≠ [] ∧ ∀ filter ∈ filters, FilterWellFormed filter)
      (filterCalls (Expr.deeper levels)) := by
  have one : Yields stream FilterWellFormed (Expr.filterCall (Expr.deeper levels)) := by
    intro start filter stop read
    have isGood := Expr.filterCall_wellFormed closed proper read
    exact ⟨isGood.1, isGood.2⟩
  rw [filterCalls_eq]
  refine one.bind fun first isGood => .loop (fun filters each => .any fun skipped => ?_) (by simpa)
  split
  · refine one.bind fun filter isGood => .pure ⟨by simp, ?_⟩
    simpa [or_imp, forall_and] using And.intro each.2 isGood
  · exact .pure each

theorem optional_yields {isThere : Bool} :
    Yields stream (fun expr? => ∀ expr ∈ expr?, Expr.WellFormed expr)
      (optional isThere levels) := by
  unfold optional
  split
  · refine .map (fun _ _ _ parsed => Expr.parse_wellFormed closed proper parsed) ?_
    exact fun expr isGood => by simpa using isGood
  · exact .pure (by simp)

/-! ### Statements -/

theorem Derived.conditions_wellFormed {depth start stop : Nat} {part : Part}
    (derived : Derived stream depth start part stop) {ender last : String}
    {elifs : List (Branch Stmt)} (areBranches : part = .branches ender elifs last) :
    ∀ branch ∈ elifs, branch.condition.WellFormed := by
  induction derived generalizing ender elifs last with
  | noBranch =>
      cases areBranches
      simp
  | branch _ reads _ _ _ ih =>
      cases areBranches
      exact List.forall_mem_cons.2 ⟨Expr.parse_wellFormed closed proper reads, ih rfl⟩
  | _ => cases areBranches

/-- A statement that is derived from proper tokens is well-formed. -/
theorem Derived.wellFormed {depth start stop : Nat} {stmt : Stmt}
    (derived : Derived stream depth start (.statement (some stmt)) stop) : stmt.WellFormed := by
  have expression {levels start stop : Nat} {expr : Expr}
      (reads : Expr.parse levels stream start = .ok expr stop) : expr.WellFormed :=
    Expr.parse_wellFormed closed proper reads
  have free {start stop : Nat} {name : String}
      (named : Reading.identifier stream start = .ok name stop) : Expr.isFreeName name = true :=
    identifier_yields proper _ _ _ named
  cases derived with
  | text | raw => exact .text _ _
  | output _ _ reads => exact .output _ (expression reads)
  | continue_ => exact .continue_ _
  | break_ => exact .break_ _
  | debug => exact .debug _
  | evaluate _ _ reads => exact .evaluate _ (expression reads)
  | parent _ _ reads => exact .parent _ (expression reads)
  | inclusion _ _ reads => exact .inclusion _ _ _ (expression reads)
  | importAs _ _ reads _ named => exact .importAs _ _ (expression reads) (free named)
  | importNames _ _ reads _ named =>
      have names := importedNames_yields proper _ _ _ named
      exact .importNames _ _ (expression reads) names.1 names.2
  | forLoop _ _ targeted _ reads _ filtered =>
      have iterated := Expr.parseUnconditional_wellFormed closed proper reads
      exact .forLoop _ _ _ _ (assignTargets_yields proper _ _ _ targeted) iterated
        (optional_yields closed proper _ _ _ filtered)
  | choice _ _ reads _ branches =>
      exact .choice _ _ _ (expression reads) (branches.conditions_wellFormed closed proper rfl)
  | assign _ _ targeted _ reads =>
      exact .assign _ (assignTargets_yields proper _ _ _ targeted) (expression reads)
  | @capture _ _ _ _ _ targets _ _ _ targeted isSingle =>
      have bound := assignTargets_yields proper _ _ _ targeted
      obtain ⟨target, rfl⟩ := List.length_eq_one_iff.1 isSingle
      exact .capture _ _ (bound.free target (by simp))
  | block _ _ named => exact .block _ _ _ _ (free named)
  | macro_ _ _ named signed =>
      exact .macro_ _ _ _ _ (free named) (signature_yields closed proper _ _ _ signed)
  | bareCall _ _ _ reads isCall => exact .bareCall _ isCall (expression reads)
  | callBlock _ _ signed reads isCall _ inside closes =>
      exact .callBlock _ isCall (expression reads) (callParams_yields closed proper _ _ _ signed)
        (inside.any_hasBareCall_eq_false closed closes.toBegins)
  | scope _ _ reads => exact .scope _ _ (assignments_yields closed proper _ _ _ reads)
  | filtered _ _ reads =>
      have filters := filterCalls_yields closed proper _ _ _ reads
      exact .filtered _ _ filters.1 filters.2
  | autoescape _ _ reads => exact .autoescape _ _ (expression reads)

end

end Stmt

end Stencil

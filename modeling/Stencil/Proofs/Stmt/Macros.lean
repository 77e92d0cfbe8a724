import Stencil.Proofs.Parse.Accounting
import Stencil.Proofs.Stmt.Names
import Stencil.Proofs.Stmt.Passing
import Stencil.Proofs.Stmt.Steps

/-!
# The macros of statements

A macro is built in one place only, from a body that has been read. All other rules take over the
macros of the statements that they read, and an extension may be asked to do no more than that. So
what holds of each macro when it is built holds of the macros in any statement, at every depth, and
in particular that its flags say exactly which surplus arguments its body mentions.
-/

namespace Stencil

namespace Parsing

variable {α β : Type}

/-- A rule succeeds only with good values. -/
def Builds (good : α → Prop) (rule : Parsing α) : Prop :=
  ∀ stream place value after, rule stream place = .ok value after → good value

namespace Builds

variable {good : α → Prop} {goal : β → Prop} {rule : Parsing α} {next : α → Parsing β}

theorem pure {value : α} (holds : good value) : Builds good (Pure.pure value) := by
  rintro stream place value after ⟨⟩
  exact holds

theorem throw (error : SyntaxError) : Builds good (throw error : Parsing α) := by
  rintro stream place value after ⟨⟩

theorem refuse (token : Token) (expected : String) :
    Builds good (liftM (Reading.refuse token expected : Reading α) : Parsing α) := by
  rintro stream place value after ⟨⟩

theorem bind (first : Builds good rule)
    (rest : ∀ value, good value → Builds goal (next value)) : Builds goal (rule >>= next) := by
  intro stream place result after outcome
  rcases exists_of_bind_eq_ok outcome with ⟨value, middle, firstOutcome, restOutcome⟩
  exact rest value (first stream place value middle firstOutcome) stream middle result after
    restOutcome

/-- What a rule succeeds with does not matter. -/
theorem any (rest : ∀ value, Builds goal (next value)) : Builds goal (rule >>= next) := by
  have first : Builds (fun _ => True) rule := fun _ _ _ _ _ => trivial
  exact first.bind fun value _ => rest value

theorem map {change : α → β} (first : Builds good rule)
    (changed : ∀ value, good value → goal (change value)) : Builds goal (change <$> rule) := by
  simp only [← bind_pure_comp]
  exact first.bind fun value isGood => .pure (changed value isGood)

theorem nested [Limits] (construct : String) (inside : Builds good rule) :
    Builds good (Parsing.nested construct rule) := by
  intro stream place value after outcome
  unfold Parsing.nested at outcome
  split at outcome
  · cases outcome
  · split at outcome
    · cases outcome
    · next built =>
      cases outcome
      exact inside _ _ _ _ built

/-- A step leaves a value good, whether or not it asks for more. -/
def Step (good : α → Prop) : ForInStep α → Prop
  | .done value | .yield value => good value

theorem loop {step : α → Parsing (ForInStep α)}
    (steps : ∀ value, good value → Builds (Step good) (step value)) {value : α}
    (holds : good value) : Builds good (Parsing.loop step value) := by
  intro stream place result after outcome
  unfold Parsing.loop at outcome
  fun_induction repeatFrom Place.cursor step value stream place with
  | case1 => cases outcome
  | case2 value place last after stepped =>
      cases outcome
      exact steps value holds stream place _ _ stepped
  | case3 value place more after stepped _ ih =>
      exact ih (steps value holds stream place _ _ stepped) outcome
  | case4 value place more after stepped _ =>
      cases outcome
      exact steps value holds stream place _ _ stepped

end Builds

end Parsing

namespace Stmt

open Reading Parsing

/-! ### Macros in statements -/

/-- Whether a statement is a macro. -/
def isMacro : Stmt → Bool
  | macro_ .. => true
  | _ => false

/-- Each macro in a statement, at any depth, is one of those that are known. -/
def MacrosAre (known : Stmt → Prop) (stmt : Stmt) : Prop :=
  ∀ inner ∈ stmt.flatten, inner.isMacro = true → known inner

/-- Each macro in a body is known. -/
def BodyMacrosAre (known : Stmt → Prop) (body : List Stmt) : Prop :=
  ∀ stmt ∈ body, stmt.MacrosAre known

/-- Each macro in what a rule for statements builds is known. -/
def KeepsTo (known : Stmt → Prop) (statement : Parsing (Option Stmt)) : Prop :=
  Builds (fun stmt? => ∀ stmt ∈ stmt?, stmt.MacrosAre known) statement

variable {known : Stmt → Prop}

theorem macrosAre_iff {stmt : Stmt} : stmt.MacrosAre known ↔
    (stmt.isMacro = true → known stmt) ∧ ∀ body ∈ stmt.bodies, BodyMacrosAre known body := by
  rw [MacrosAre, flatten_eq, List.forall_mem_cons]
  refine and_congr_right fun _ => ?_
  simp only [List.mem_flatMap, BodyMacrosAre, MacrosAre]
  constructor
  · intro each body isBody outer isOuter inner isInner
    exact each inner ⟨body, isBody, outer, isOuter, isInner⟩
  · rintro each inner ⟨body, isBody, outer, isOuter, isInner⟩
    exact each body isBody outer isOuter inner isInner

theorem macrosAre_of_bodies {stmt : Stmt} (notMacro : stmt.isMacro = false)
    (inBodies : ∀ body ∈ stmt.bodies, BodyMacrosAre known body) : stmt.MacrosAre known := by
  rw [macrosAre_iff, notMacro]
  exact ⟨nofun, inBodies⟩

/-- A statement without bodies has no macro in it. -/
theorem macrosAre_of_bodies_eq_nil {stmt : Stmt} (notMacro : stmt.isMacro = false)
    (noBodies : stmt.bodies = []) : stmt.MacrosAre known := by
  refine macrosAre_of_bodies notMacro ?_
  rw [noBodies]
  exact fun _ isBody => absurd isBody List.not_mem_nil

theorem macrosAre_of_body {stmt : Stmt} {body : List Stmt} (notMacro : stmt.isMacro = false)
    (isBody : stmt.bodies = [body]) (inBody : BodyMacrosAre known body) :
    stmt.MacrosAre known := by
  refine macrosAre_of_bodies notMacro ?_
  rw [isBody]
  exact List.forall_mem_singleton.2 inBody

theorem bodyMacrosAre_nil : BodyMacrosAre known [] :=
  fun _ member => absurd member List.not_mem_nil

theorem BodyMacrosAre.concat {body : List Stmt} {stmt : Stmt} (before : BodyMacrosAre known body)
    (last : stmt.MacrosAre known) : BodyMacrosAre known (body ++ [stmt]) :=
  List.forall_mem_append.2 ⟨before, List.forall_mem_singleton.2 last⟩

/-! ### Tags without bodies -/

theorem textRule_builds : Builds (MacrosAre known) textRule := by
  refine .any fun first => ?_
  split
  · exact .any fun _ => .any fun _ => .pure (macrosAre_of_bodies_eq_nil rfl rfl)
  · exact .refuse _ _

theorem outputRule_builds [Limits] : Builds (MacrosAre known) outputRule :=
  .any fun _ => .any fun _ => .any fun _ => .any fun _ =>
    .pure (macrosAre_of_bodies_eq_nil rfl rfl)

theorem rawRule_builds : Builds (MacrosAre known) rawRule := by
  refine .any fun _ => .any fun content => .any fun isEnd => ?_
  cases isEnd with
  | true => exact .any fun _ => .pure (macrosAre_of_bodies_eq_nil rfl rfl)
  | false => exact .throw _

section

variable (opening : Token)

theorem simpleRule_builds : Builds (MacrosAre known) (simpleRule opening) := by
  refine .any fun tag => .any fun origin => ?_
  have ends {stmt : Stmt} (noMacro : stmt.MacrosAre known) : Builds (MacrosAre known) (do
      let _ ← expectBlockEnd
      return stmt : Parsing Stmt) :=
    .any fun _ => .pure noMacro
  dsimp only
  split
  · exact ends (macrosAre_of_bodies_eq_nil rfl rfl)
  · exact ends (macrosAre_of_bodies_eq_nil rfl rfl)
  · exact ends (macrosAre_of_bodies_eq_nil rfl rfl)
  · exact .bind (.refuse tag _) fun _ noMacro => ends noMacro

variable [Limits]

theorem evaluateRule_builds : Builds (MacrosAre known) (evaluateRule opening) :=
  .any fun _ => .any fun _ => .any fun _ => .any fun _ =>
    .pure (macrosAre_of_bodies_eq_nil rfl rfl)

theorem parentRule_builds : Builds (MacrosAre known) (parentRule opening) :=
  .any fun _ => .any fun _ => .any fun _ => .any fun _ =>
    .pure (macrosAre_of_bodies_eq_nil rfl rfl)

theorem inclusionRule_builds : Builds (MacrosAre known) (inclusionRule opening) := by
  have ends (template : Expr) (ignoreMissing : Bool) :
      Builds (MacrosAre known) (inclusionRest opening template ignoreMissing) :=
    .any fun _ => .any fun _ => .any fun _ => .pure (macrosAre_of_bodies_eq_nil rfl rfl)
  refine .any fun _ => .any fun template => .any fun ignoreMissing => ?_
  cases ignoreMissing with
  | true => exact .any fun _ => ends _ _
  | false => exact ends _ _

theorem importRule_builds : Builds (MacrosAre known) (importRule opening) :=
  .any fun _ => .any fun _ => .any fun _ => .any fun _ => .any fun _ => .any fun _ => .any fun _ =>
    .pure (macrosAre_of_bodies_eq_nil rfl rfl)

theorem importNamesRule_builds : Builds (MacrosAre known) (importNamesRule opening) :=
  .any fun _ => .any fun _ => .any fun _ => .any fun _ => .any fun _ => .any fun _ => .any fun _ =>
    .pure (macrosAre_of_bodies_eq_nil rfl rfl)

end

/-! ### Tags with bodies -/

section

variable {statement : Parsing (Option Stmt)} (keeps : KeepsTo known statement) (opening : Token)

include keeps

theorem bodyUntil_builds (tag : String) (enders : List String) :
    Builds (fun read => BodyMacrosAre known read.1) (bodyUntil statement tag opening enders) := by
  have step (read : List Stmt × Option String) (before : BodyMacrosAre known read.1) :
      Builds (Builds.Step fun read => BodyMacrosAre known read.1)
        (bodyStep statement tag opening enders read) := by
    rcases read with ⟨body, _⟩
    refine .any fun found => ?_
    cases found with
    | some ender => exact .any fun _ => .any fun _ => .pure before
    | none =>
        refine .any fun token => ?_
        split
        · exact .throw _
        · refine .bind keeps fun stmt? each => ?_
          cases stmt? with
          | some stmt => exact .pure (before.concat (each stmt rfl))
          | none => exact .pure before
  refine .bind (.loop step bodyMacrosAre_nil) fun read inBody => ?_
  rcases read with ⟨body, ender?⟩
  cases ender? with
  | some ender => exact .pure inBody
  | none => exact .throw _

theorem closedBody_builds (tag ender : String) :
    Builds (BodyMacrosAre known) (closedBody statement tag opening ender) :=
  .bind (bodyUntil_builds keeps opening tag [ender]) fun _ inBody => .any fun _ => .pure inBody

/-- A body that may be left out is read where its tag is. -/
theorem elseBody_builds {condition : Prop} [Decidable condition] (tag ender : String)
    {next : List Stmt → Parsing Stmt}
    (rest : ∀ body, BodyMacrosAre known body → Builds (MacrosAre known) (next body)) :
    Builds (MacrosAre known)
      (if condition then closedBody statement tag opening ender >>= next
      else Pure.pure [] >>= next) := by
  split
  · exact .bind (closedBody_builds keeps opening tag ender) rest
  · exact .bind (.pure bodyMacrosAre_nil) rest

variable [Limits]

theorem forRule_builds : Builds (MacrosAre known) (forRule statement opening) := by
  have afterHead (targets : List String) (iter : Expr) (filter : Option Expr) :
      Builds (MacrosAre known) (forRest statement opening targets iter filter) := by
    refine .any fun _ => .any fun _ => .bind (bodyUntil_builds keeps opening _ _) ?_
    rintro ⟨body, ender⟩ inBody
    refine .any fun _ => elseBody_builds keeps opening _ _ fun elseBody inElse => ?_
    refine .any fun _ => .pure (macrosAre_of_bodies rfl ?_)
    simpa [bodies] using And.intro inBody inElse
  refine .any fun _ => .any fun targets => .any fun _ => .any fun iter => .any fun hasFilter => ?_
  cases hasFilter with
  | true => exact .any fun _ => afterHead _ _ _
  | false => exact .any fun _ => afterHead _ _ _

theorem elifBranches_builds (ender : String) :
    Builds (fun read => ∀ branch ∈ read.1, BodyMacrosAre known branch.body)
      (elifBranches statement opening ender) := by
  rw [elifBranches_eq]
  refine .loop (fun read before => ?_) nofun
  rcases read with ⟨elifs, ender⟩
  dsimp only [elifStep]
  split
  · refine .any fun condition => .any fun _ => .bind (bodyUntil_builds keeps opening _ _) ?_
    intro _ inBody
    exact .pure (List.forall_mem_append.2 ⟨before, List.forall_mem_singleton.2 inBody⟩)
  · exact .pure before

theorem choiceRule_builds : Builds (MacrosAre known) (choiceRule statement opening) := by
  refine .any fun _ => .any fun condition => .any fun _ => ?_
  refine .bind (bodyUntil_builds keeps opening _ _) ?_
  rintro ⟨body, ender⟩ inBody
  refine .bind (elifBranches_builds keeps opening ender) ?_
  rintro ⟨elifs, ender⟩ inElifs
  refine .any fun _ => elseBody_builds keeps opening _ _ fun elseBody inElse => ?_
  refine .any fun _ => .pure (macrosAre_of_bodies rfl ?_)
  refine List.forall_mem_cons.2 ⟨inBody, List.forall_mem_append.2 ⟨?_, ?_⟩⟩
  · exact List.forall_mem_map.2 inElifs
  · exact List.forall_mem_singleton.2 inElse

theorem assignRule_builds : Builds (MacrosAre known) (assignRule statement opening) := by
  refine .any fun _ => .any fun targets => .any fun isInline => ?_
  cases isInline with
  | true =>
      exact .any fun _ => .any fun _ => .any fun _ =>
        .pure (macrosAre_of_body rfl rfl bodyMacrosAre_nil)
  | false =>
      simp only [Bool.false_eq_true, if_false]
      split
      · exact .any fun _ => .throw _
      · refine .any fun _ => .bind (closedBody_builds keeps opening _ _) fun body inBody => ?_
        exact .any fun _ => .pure (macrosAre_of_body rfl rfl inBody)

theorem scopeRule_builds : Builds (MacrosAre known) (scopeRule statement opening) := by
  refine .any fun _ => .any fun _ => .any fun _ => ?_
  refine .bind (closedBody_builds keeps opening _ _) fun body inBody => ?_
  exact .any fun _ => .pure (macrosAre_of_body rfl rfl inBody)

theorem filteredRule_builds : Builds (MacrosAre known) (filteredRule statement opening) := by
  refine .any fun _ => .any fun _ => .any fun _ => ?_
  refine .bind (closedBody_builds keeps opening _ _) fun body inBody => ?_
  exact .any fun _ => .pure (macrosAre_of_body rfl rfl inBody)

theorem autoescapeRule_builds : Builds (MacrosAre known) (autoescapeRule statement opening) := by
  refine .any fun _ => .any fun _ => .any fun _ => ?_
  refine .bind (closedBody_builds keeps opening _ _) fun body inBody => ?_
  exact .any fun _ => .pure (macrosAre_of_body rfl rfl inBody)

omit [Limits] in
theorem blockRule_builds : Builds (MacrosAre known) (blockRule statement opening) := by
  refine .any fun _ => .any fun name => .any fun ⟨isScoped, isRequired⟩ => .any fun _ => ?_
  refine .bind (bodyUntil_builds keeps opening _ _) fun ⟨body, _⟩ inBody => ?_
  have ends : Builds (MacrosAre known) (blockRest opening name isScoped isRequired body) :=
    .any fun _ => .any fun _ => .pure (macrosAre_of_body rfl rfl inBody)
  refine .any fun trailing => ?_
  dsimp only
  split
  · split
    · exact .any fun _ => ends
    · exact .any fun _ => ends
  · exact ends

theorem callRule_builds : Builds (MacrosAre known) (callRule statement opening) := by
  have afterCall (params : List Parameter) (call : Expr) :
      Builds (MacrosAre known) (callEnding statement opening params call) := by
    refine .any fun _ => .any fun hasBody => ?_
    cases hasBody with
    | true =>
        refine .bind (closedBody_builds keeps opening _ _) fun body inBody => ?_
        exact .any fun _ => .pure (macrosAre_of_body rfl rfl inBody)
    | false =>
        simp only [Bool.false_eq_true, if_false]
        split
        · exact .any fun _ => .pure (macrosAre_of_bodies_eq_nil rfl rfl)
        · exact .throw _
  have afterParams (params : List Parameter) :
      Builds (MacrosAre known) (callRest statement opening params) := by
    refine .any fun callToken => .any fun call => ?_
    dsimp only
    split
    · exact .any fun _ => afterCall params call
    · exact afterCall params call
  refine .any fun _ => .any fun token => ?_
  dsimp only
  split
  · exact .any afterParams
  · exact .any afterParams

/-- A macro is known if what the rule for macros puts together from its parts is. -/
theorem macroRule_builds
    (built : ∀ origin name params body, BodyMacrosAre known body → known
      (.macro_ origin name params body (bodyReads body "varargs") (bodyReads body "kwargs"))) :
    Builds (MacrosAre known) (macroRule statement opening) := by
  refine .any fun _ => .any fun name => .any fun params => .any fun _ => ?_
  refine .bind (bodyUntil_builds keeps opening _ _) fun ⟨body, _⟩ inBody => ?_
  refine .any fun _ => .any fun _ => .any fun origin => .pure ?_
  rw [macrosAre_iff]
  exact ⟨fun _ => built origin name params body inBody, List.forall_mem_singleton.2 inBody⟩

end

/-! ### Flags -/

/-- The flags of a macro say which surplus arguments its body mentions. -/
def FlagsExact : Stmt → Prop
  | macro_ _ _ _ body catchVarargs catchKwargs =>
    (catchVarargs = true ↔ Mentions body "varargs") ∧ (catchKwargs = true ↔ Mentions body "kwargs")
  | _ => True

variable [Limits]

theorem macroRule_flagsExact {statement : Parsing (Option Stmt)}
    (keeps : KeepsTo FlagsExact statement) (opening : Token) :
    Builds (MacrosAre FlagsExact) (macroRule statement opening) :=
  macroRule_builds keeps opening fun _ _ _ _ _ => ⟨bodyReads_iff, bodyReads_iff⟩

end Stmt

/-! ### The rule for statements -/

variable [Limits]

/-- An extension builds no macro by itself: those in what it gives come from the rule for statements
or from the rule for macros, so that whatever these two keep to is kept to. -/
def Extension.BuildsNoMacro (extension : Extension) : Prop :=
  ∀ known : Stmt → Prop,
    (∀ statement opening, Stmt.KeepsTo known statement →
      Parsing.Builds (Stmt.MacrosAre known) (Stmt.macroRule statement opening)) →
    ∀ statement opening, Stmt.KeepsTo known statement →
      Stmt.KeepsTo known (extension.parseTag statement opening)

/-- No extension of a registry builds a macro by itself. -/
def Registry.BuildsNoMacro (registry : Registry) : Prop :=
  ∀ extension ∈ registry.extensions, extension.BuildsNoMacro

namespace Stmt

open Reading Parsing

variable {known : Stmt → Prop}
  (macros : ∀ statement opening, KeepsTo known statement →
    Builds (MacrosAre known) (macroRule statement opening))

include macros

section

variable {statement : Parsing (Option Stmt)} (keeps : KeepsTo known statement)

include keeps

theorem tagRules_builds {word : String} {rule : Token → Parsing Stmt}
    (isRule : (tagRules statement).lookup word = some rule) (opening : Token) :
    Builds (MacrosAre known) (rule opening) := by
  have all : ∀ entry ∈ tagRules statement, Builds (MacrosAre known) (entry.2 opening) := by
    simp only [tagRules, List.forall_mem_cons, List.not_mem_nil, false_implies, implies_true,
      and_true]
    exact ⟨.nested _ (forRule_builds keeps opening), .nested _ (choiceRule_builds keeps opening),
      .nested _ (assignRule_builds keeps opening), .nested _ (blockRule_builds keeps opening),
      .nested _ (parentRule_builds opening), .nested _ (inclusionRule_builds opening),
      .nested _ (importRule_builds opening), .nested _ (importNamesRule_builds opening),
      .nested _ (macros statement opening keeps), .nested _ (callRule_builds keeps opening),
      .nested _ (scopeRule_builds keeps opening), .nested _ (filteredRule_builds keeps opening),
      .nested _ (autoescapeRule_builds keeps opening), .nested _ (evaluateRule_builds opening),
      simpleRule_builds opening, simpleRule_builds opening, simpleRule_builds opening⟩
  rcases List.lookup_eq_some_iff.1 isRule with ⟨before, after, split, _⟩
  exact all (word, rule) (by simp [split])

variable {registry : Registry} (noMacro : registry.BuildsNoMacro)

include noMacro

theorem extensionRule_keepsTo (word : String) (opening : Token) :
    KeepsTo known (extensionRule statement registry word opening) := by
  refine .any fun tag => ?_
  cases found : registry.find? word with
  | none => exact .throw _
  | some owner =>
      have isOwner : owner ∈ registry.extensions := List.mem_of_find?_eq_some found
      have parsed := noMacro owner isOwner known macros statement opening keeps
      refine .any fun place => .bind (.nested "extension" parsed) fun stmt? each => ?_
      cases stmt? with
      | some stmt =>
          refine .any fun after => ?_
          split
          · exact .throw _
          · exact .pure each
      | none => exact .any fun _ => .any fun _ => .pure nofun

theorem statementRule_keepsTo : KeepsTo known (statementRule statement registry) := by
  have given {rule : Parsing Stmt} (builds : Builds (MacrosAre known) rule) :
      KeepsTo known (some <$> rule) :=
    builds.map fun stmt isKnown => by simpa using isKnown
  have blockTag : KeepsTo known (blockTagRule statement registry) := by
    refine .any fun opening => .any fun tag => ?_
    split
    · exact .refuse _ _
    · split
      · next isRule => exact given (tagRules_builds macros keeps isRule opening)
      · split
        · exact .throw _
        · exact extensionRule_keepsTo macros keeps noMacro _ opening
  refine .any fun token => ?_
  split
  · exact given textRule_builds
  · exact given (.nested _ outputRule_builds)
  · exact blockTag
  · exact given rawRule_builds
  · exact .any fun _ => .pure nofun
  · exact .any fun _ => .pure nofun
  · exact .refuse _ _

end

/-- What holds of all macros when they are built holds of the macros of a statement. -/
theorem parse_keepsTo {registry : Registry} (noMacro : registry.BuildsNoMacro) :
    KeepsTo known (parse registry) := by
  intro stream place
  generalize left : stream.size - place.cursor = count
  induction count using Nat.strongRecOn generalizing place with
  | ind count ih =>
      have inner : KeepsTo known (beyond registry stream place) := by
        intro other inner stmt? after outcome
        unfold beyond at outcome
        split at outcome
        · next further =>
          exact ih (stream.size - inner.cursor) (by omega) inner rfl stmt? after outcome
        · cases outcome
      rw [parse_eq]
      exact statementRule_keepsTo macros inner noMacro stream place

end Stmt

end Stencil

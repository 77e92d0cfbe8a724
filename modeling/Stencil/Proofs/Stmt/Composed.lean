import Stencil.Proofs.Stmt.Repeating

/-!
# Rules composed of steps

Every rule for a block tag is composed of a few things: rules over tokens with the levels of nesting
that are left, uses of the rule for statements, sequences, repetitions, and constructs that are
entered and left. What holds of these holds of all rules, by one induction for each property and
without a look at the rules again. Here it is shown that the rules are composed so, and that none of
them goes back in the stream.
-/

namespace Stencil

variable [Limits]

namespace Parsing

variable {α β : Type} {stream : TokenStream} {low : Nat}

theorem nested_eq_of_full {place : Place} (full : maxDepth ≤ place.depth) (construct : String)
    (rule : Parsing α) : nested construct rule stream place =
      .error (.tooDeep maxDepth (stream.get place.cursor).span) place := by
  simp only [nested, enter, if_pos full]

omit [Limits] in
/-- A rule used at a place from `low` on never goes back. -/
def Forward (stream : TokenStream) (low : Nat) (rule : Parsing α) : Prop :=
  ∀ place : Place, low ≤ place.cursor → place.cursor ≤ (stateAfter (rule stream place)).cursor

namespace Forward

omit [Limits] in
theorem bind {rule : Parsing α} {next : α → Parsing β} (first : Forward stream low rule)
    (rest : ∀ value, Forward stream low (next value)) : Forward stream low (rule >>= next) := by
  intro place later
  have soFar := first place later
  cases outcome : rule stream place with
  | ok value middle =>
      rw [outcome] at soFar
      rw [bind_eq_of_ok outcome]
      exact Nat.le_trans soFar (rest value middle (Nat.le_trans later soFar))
  | error error middle =>
      rw [outcome] at soFar
      rw [bind_eq_of_error outcome]
      exact soFar

omit [Limits] in
theorem loop {step : α → Parsing (ForInStep α)} (steps : ∀ value, Forward stream low (step value))
    (value : α) : Forward stream low (Parsing.loop step value) := by
  intro place later
  unfold Parsing.loop
  fun_induction repeatFrom Place.cursor step value stream place with
  | case1 value place error after outcome =>
      have soFar := steps value place later
      rwa [outcome] at soFar
  | case2 value place result after outcome =>
      have soFar := steps value place later
      rwa [outcome] at soFar
  | case3 value place more middle outcome _ ih =>
      have soFar := steps value place later
      rw [outcome] at soFar
      exact Nat.le_trans soFar (ih (Nat.le_trans later soFar))
  | case4 value place more middle outcome _ =>
      have soFar := steps value place later
      rwa [outcome] at soFar

theorem nested {rule : Parsing α} (construct : String) (forward : Forward stream low rule) :
    Forward stream low (Parsing.nested construct rule) := by
  intro place later
  by_cases full : maxDepth ≤ place.depth
  · rw [nested_eq_of_full full]
    exact Nat.le_refl place.cursor
  · have room : place.depth < maxDepth := by omega
    have inner := forward (place.entered construct) later
    cases outcome : rule stream (place.entered construct) with
    | ok value after =>
        rw [outcome] at inner
        rwa [nested_eq_of_ok room outcome]
    | error error after =>
        rw [outcome] at inner
        rwa [nested_eq_of_error room outcome]

end Forward

/-- A rule over tokens, used with the levels of nesting that are left. -/
def leveled (rule : Nat → Reading α) : Parsing α := fun stream place =>
  ofReading (rule place.levels) stream place

theorem stateAfter_leveled (rule : Nat → Reading α) (stream : TokenStream) (place : Place) :
    stateAfter (leveled rule stream place) =
      { place with cursor := stateAfter (rule place.levels stream place.cursor) } := by
  unfold leveled ofReading
  cases rule place.levels stream place.cursor with
  | ok value stop => rfl
  | error error stop => rfl

end Parsing

namespace Stmt

open Reading Parsing

/-- Rules that are composed of rules over tokens and of uses of the rule for statements. -/
inductive Composed (stream : TokenStream) :
    {α : Type} → (Parsing (Option Stmt) → Parsing α) → Prop where
  | pure {α : Type} (value : α) : Composed stream fun _ => pure value
  | throw {α : Type} (error : SyntaxError) : Composed stream fun _ => (throw error : Parsing α)
  | leveled {α : Type} {rule : Nat → Reading α}
      (forward : ∀ levels, Reading.Forward stream (rule levels)) :
      Composed stream fun _ => leveled rule
  | statement : Composed stream fun statement => statement
  | bind {α β : Type} {rule : Parsing (Option Stmt) → Parsing α}
      {next : Parsing (Option Stmt) → α → Parsing β} (first : Composed stream rule)
      (rest : ∀ value, Composed stream fun statement => next statement value) :
      Composed stream fun statement => rule statement >>= next statement
  | loop {α : Type} {step : Parsing (Option Stmt) → α → Parsing (ForInStep α)}
      (steps : ∀ value, Composed stream fun statement => step statement value) (value : α) :
      Composed stream fun statement => Parsing.loop (step statement) value
  | nested {α : Type} (construct : String) {rule : Parsing (Option Stmt) → Parsing α}
      (inside : Composed stream rule) :
      Composed stream fun statement => nested construct (rule statement)

/-- A composed rule never goes back if the rule for statements does not. -/
theorem Composed.forward {stream : TokenStream} {α : Type}
    {rule : Parsing (Option Stmt) → Parsing α} (composed : Composed stream rule) {low : Nat}
    {statement : Parsing (Option Stmt)} (forward : Parsing.Forward stream low statement) :
    Parsing.Forward stream low (rule statement) := by
  induction composed with
  | pure | throw => exact fun place _ => Nat.le_refl place.cursor
  | leveled rules =>
      intro place _
      rw [stateAfter_leveled]
      exact rules place.levels place.cursor
  | statement => exact forward
  | bind _ _ ihFirst ihRest => exact .bind ihFirst ihRest
  | loop _ value ih => exact .loop ih value
  | nested construct _ ih => exact .nested construct ih

namespace Composed

variable {α β : Type} {stream : TokenStream} {least : Nat}

theorem lift {rule : Reading α} (forward : Reading.Forward stream rule) :
    Composed stream fun _ => (liftM rule : Parsing α) :=
  @Composed.leveled _ stream α (fun _ => rule) fun _ => forward

theorem reads {rule : Reading α} (reads : ∀ start, Reads stream least start rule) :
    Composed stream fun _ => (liftM rule : Parsing α) :=
  .lift (.of_reads reads)

theorem map (change : α → β) {rule : Parsing (Option Stmt) → Parsing α}
    (composed : Composed stream rule) :
    Composed stream fun statement => change <$> rule statement := by
  simp only [← bind_pure_comp]
  exact .bind composed fun _ => .pure _

theorem current {next : Parsing (Option Stmt) → Token → Parsing β}
    (rest : ∀ token, Composed stream fun statement => next statement token) :
    Composed stream fun statement => liftM Reading.current >>= next statement :=
  .bind (.lift (.look TokenStream.get)) rest

theorem originOf (opening : Token) {next : Parsing (Option Stmt) → Origin → Parsing β}
    (rest : ∀ origin, Composed stream fun statement => next statement origin) :
    Composed stream fun statement => Stmt.originOf opening >>= next statement :=
  .bind (.lift (.look fun stream _ => (⟨opening.line, stream.sourceName⟩ : Origin))) rest

theorem expect (kind : Token.Kind) (expected : String) :
    Composed stream fun _ => (liftM (Reading.expect kind expected) : Parsing Token) :=
  .lift (.expect kind expected)

theorem blockEnd : Composed stream fun _ => (liftM Reading.expectBlockEnd : Parsing Token) :=
  .expect _ _

theorem refuse (token : Token) (expected : String) :
    Composed stream fun _ => (liftM (Reading.refuse token expected : Reading α) : Parsing α) :=
  .throw _

variable (closed : stream.IsClosed)

include closed

theorem expression : Composed stream fun _ => Parsing.expression :=
  .leveled fun levels => .of_reads fun _ => Expr.parse_reads closed levels

theorem unconditional : Composed stream fun _ => Parsing.unconditional :=
  .leveled fun levels => .of_reads fun _ => Expr.parseUnconditional_reads closed levels

theorem withDeeper {rule : Expr.Deeper → Reading α}
    (reads : ∀ {deeper : Expr.Deeper}, deeper.Inside stream → ∀ start,
      Reads stream least start (rule deeper)) :
    Composed stream fun _ => Parsing.withDeeper rule :=
  @Composed.leveled _ stream α (fun levels => rule (Expr.deeper levels)) fun levels =>
    .of_reads (reads (Expr.deeper_inside closed levels))

end Composed

variable {stream : TokenStream}

/-! ### Rules that use no rule for statements -/

omit [Limits] in
theorem plainStep_forward (content : String) : Reading.Forward stream (plainStep content) := by
  refine .current fun token => ?_
  split
  · exact .bind .advance fun _ => .pure _
  · exact .pure _

omit [Limits] in
theorem plainText_forward : Reading.Forward stream plainText :=
  .loop plainStep_forward _

theorem textRule_composed : Composed stream fun _ => textRule := by
  refine .current fun first => ?_
  split
  · exact .bind (.lift plainText_forward) fun _ => .originOf _ fun _ => .pure _
  · exact .refuse _ _

theorem rawContent_composed (opening : Token) : Composed stream fun _ => (do
    let content ← plainText
    if ← skipIf .rawEnd then return .text (← originOf opening) content
    else throw (.unclosed "raw" ["endraw"] opening.span) : Parsing Stmt) := by
  refine .bind (.lift plainText_forward) fun content => .bind (.lift (.skipIf _)) fun isEnd => ?_
  cases isEnd with
  | true => exact .originOf _ fun _ => .pure _
  | false => exact .throw _

theorem rawRule_composed : Composed stream fun _ => rawRule :=
  .bind (.expect _ _) rawContent_composed

omit [Limits] in
theorem skipComment_forward : Reading.Forward stream skipComment := by
  refine .current fun token => ?_
  split
  · exact .bind .advance fun _ => .pure _
  · refine .bind .advance fun _ => .bind (.skipIf _) fun _ => ?_
    exact .bind (.skipIf _) fun _ => .pure _
  · exact .pure _

theorem simpleRule_composed (opening : Token) : Composed stream fun _ => simpleRule opening := by
  refine .bind (.lift .advance) fun tag => .originOf _ fun origin => ?_
  have ends (stmt : Stmt) : Composed stream fun _ => (do
      let _ ← expectBlockEnd
      return stmt : Parsing Stmt) :=
    .bind .blockEnd fun _ => .pure _
  dsimp only
  split
  · exact ends _
  · exact ends _
  · exact ends _
  · exact .bind (.refuse _ _) fun _ => .bind .blockEnd fun _ => .pure _

section

variable (closed : stream.IsClosed) (opening : Token)

include closed

theorem outputRule_composed : Composed stream fun _ => outputRule := by
  refine .bind (.expect _ _) fun opening => .bind (.expression closed) fun _ => ?_
  exact .bind (.expect _ _) fun _ => .originOf _ fun _ => .pure _

theorem evaluateRule_composed : Composed stream fun _ => evaluateRule opening := by
  refine .bind (.expect _ _) fun _ => .bind (.expression closed) fun _ => ?_
  exact .bind .blockEnd fun _ => .originOf _ fun _ => .pure _

theorem parentRule_composed : Composed stream fun _ => parentRule opening := by
  refine .bind (.expect _ _) fun _ => .bind (.expression closed) fun _ => ?_
  exact .bind .blockEnd fun _ => .originOf _ fun _ => .pure _

theorem inclusionRule_composed : Composed stream fun _ => inclusionRule opening := by
  have ends (template : Expr) (ignoreMissing : Bool) :
      Composed stream fun _ => inclusionRest opening template ignoreMissing := by
    refine .bind (.reads fun _ => contextModifier_reads closed _) fun _ => ?_
    exact .bind .blockEnd fun _ => .originOf _ fun _ => .pure _
  refine .bind (.expect _ _) fun _ => .bind (.expression closed) fun template => ?_
  refine .bind (.reads fun _ => skipWord_reads closed _) fun ignoreMissing => ?_
  cases ignoreMissing with
  | true => exact .bind (.reads fun _ => expectWord_reads closed _) fun _ => ends _ _
  | false => exact ends _ _

theorem importRule_composed : Composed stream fun _ => importRule opening := by
  refine .bind (.expect _ _) fun _ => .bind (.expression closed) fun template => ?_
  refine .bind (.reads fun _ => expectWord_reads closed _) fun _ => ?_
  refine .bind (.reads fun _ => identifier_reads closed) fun target => ?_
  refine .bind (.reads fun _ => contextModifier_reads closed _) fun _ => ?_
  exact .bind .blockEnd fun _ => .originOf _ fun _ => .pure _

theorem importNamesRule_composed : Composed stream fun _ => importNamesRule opening := by
  refine .bind (.expect _ _) fun _ => .bind (.expression closed) fun template => ?_
  refine .bind (.expect _ _) fun _ => ?_
  refine .bind (.reads fun _ => importedNames_reads closed) fun names => ?_
  refine .bind (.reads fun _ => contextModifier_reads closed _) fun _ => ?_
  exact .bind .blockEnd fun _ => .originOf _ fun _ => .pure _

end

/-! ### Rules with bodies -/

omit [Limits] in
theorem atTag_forward (words : List String) : Reading.Forward stream (atTag words) := by
  refine .current fun token => ?_
  split
  · exact .bind (.look fun stream cursor => stream.get (cursor + 1)) fun _ => .pure _
  · exact .pure _

theorem bodyUntil_composed (tag : String) (opening : Token) (enders : List String) :
    Composed stream fun statement => bodyUntil statement tag opening enders := by
  refine .bind (.loop ?_ _) ?_
  · rintro ⟨body, _⟩
    refine .bind (.lift (atTag_forward _)) fun found => ?_
    cases found with
    | some ender => exact .bind (.lift .advance) fun _ => .bind (.lift .advance) fun _ => .pure _
    | none =>
        refine .current fun token => ?_
        split
        · exact .throw _
        · refine .bind .statement fun stmt => ?_
          cases stmt with
          | some stmt => exact .pure _
          | none => exact .pure _
  · rintro ⟨body, ender⟩
    cases ender with
    | some ender => exact .pure _
    | none => exact .throw _

theorem closedBody_composed (tag : String) (opening : Token) (ender : String) :
    Composed stream fun statement => closedBody statement tag opening ender :=
  .bind (bodyUntil_composed _ _ _) fun _ => .bind .blockEnd fun _ => .pure _

section

variable (closed : stream.IsClosed) (opening : Token)

include closed

theorem forRule_composed : Composed stream fun statement => forRule statement opening := by
  have afterHead (targets : List String) (iter : Expr) (filter : Option Expr) :
      Composed stream fun statement => forRest statement opening targets iter filter := by
    refine .bind (.reads fun _ => skipWord_reads closed _) fun _ => .bind .blockEnd fun _ => ?_
    refine .bind (bodyUntil_composed _ _ _) ?_
    rintro ⟨body, ender⟩
    refine .bind .blockEnd fun _ => ?_
    dsimp only
    split
    · exact .bind (closedBody_composed _ _ _) fun _ => .originOf _ fun _ => .pure _
    · exact .bind (.pure _) fun _ => .originOf _ fun _ => .pure _
  refine .bind (.expect _ _) fun _ => ?_
  refine .bind (.reads fun _ => assignTargets_reads closed) fun targets => ?_
  refine .bind (.expect _ _) fun _ => .bind (.unconditional closed) fun iter => ?_
  refine .bind (.lift (.skipIf _)) fun hasFilter => ?_
  cases hasFilter with
  | true => exact .bind (.map _ (.expression closed)) fun _ => afterHead _ _ _
  | false => exact .bind (.pure _) fun _ => afterHead _ _ _

theorem elifBranches_composed (ender : String) :
    Composed stream fun statement => elifBranches statement opening ender := by
  refine .loop ?_ _
  rintro ⟨elifs, ender⟩
  dsimp only
  split
  · refine .bind (.expression closed) fun condition => .bind .blockEnd fun _ => ?_
    exact .bind (bodyUntil_composed _ _ _) fun _ => .pure _
  · exact .pure _

theorem choiceRule_composed : Composed stream fun statement => choiceRule statement opening := by
  refine .bind (.expect _ _) fun _ => .bind (.expression closed) fun condition => ?_
  refine .bind .blockEnd fun _ => .bind (bodyUntil_composed _ _ _) fun ⟨body, ender⟩ => ?_
  refine .bind (elifBranches_composed closed opening ender) fun ⟨elifs, ender⟩ => ?_
  refine .bind .blockEnd fun _ => ?_
  dsimp only
  split
  · exact .bind (closedBody_composed _ _ _) fun _ => .originOf _ fun _ => .pure _
  · exact .bind (.pure _) fun _ => .originOf _ fun _ => .pure _

theorem assignRule_composed : Composed stream fun statement => assignRule statement opening := by
  refine .bind (.expect _ _) fun _ => ?_
  refine .bind (.reads fun _ => assignTargets_reads closed) fun targets => ?_
  refine .bind (.lift (.skipIf _)) fun isInline => ?_
  cases isInline with
  | true =>
      refine .bind (.expression closed) fun value => .bind .blockEnd fun _ => ?_
      exact .originOf _ fun _ => .pure _
  | false =>
      simp only [Bool.false_eq_true, if_false]
      split
      · exact .current fun _ => .throw _
      · refine .bind .blockEnd fun _ => .bind (closedBody_composed _ _ _) fun _ => ?_
        exact .originOf _ fun _ => .pure _

theorem scopeRule_composed : Composed stream fun statement => scopeRule statement opening := by
  refine .bind (.expect _ _) fun _ => ?_
  refine .bind (.withDeeper closed fun below _ => assignments_reads closed below) fun _ => ?_
  refine .bind .blockEnd fun _ => .bind (closedBody_composed _ _ _) fun _ => ?_
  exact .originOf _ fun _ => .pure _

theorem filteredRule_composed :
    Composed stream fun statement => filteredRule statement opening := by
  refine .bind (.reads fun _ => expectWord_reads closed _) fun _ => ?_
  refine .bind (.withDeeper closed fun below _ => filterCalls_reads closed below) fun _ => ?_
  refine .bind .blockEnd fun _ => .bind (closedBody_composed _ _ _) fun _ => ?_
  exact .originOf _ fun _ => .pure _

theorem autoescapeRule_composed :
    Composed stream fun statement => autoescapeRule statement opening := by
  refine .bind (.reads fun _ => expectWord_reads closed _) fun _ => ?_
  refine .bind (.expression closed) fun _ => ?_
  refine .bind .blockEnd fun _ => .bind (closedBody_composed _ _ _) fun _ => ?_
  exact .originOf _ fun _ => .pure _

theorem blockRule_composed : Composed stream fun statement => blockRule statement opening := by
  refine .bind (.expect _ _) fun _ => ?_
  refine .bind (.reads fun _ => identifier_reads closed) fun name => ?_
  refine .bind (.reads fun _ => blockModifiers_reads closed) fun ⟨isScoped, isRequired⟩ => ?_
  refine .bind .blockEnd fun _ => .bind (bodyUntil_composed _ _ _) fun ⟨body, _⟩ => ?_
  have ends : Composed stream fun _ => blockRest opening name isScoped isRequired body :=
    .bind .blockEnd fun _ => .originOf _ fun _ => .pure _
  refine .current fun trailing => ?_
  dsimp only
  split
  · split
    · exact .bind (.lift .advance) fun _ => ends
    · exact .bind (.throw _) fun _ => ends
  · exact ends

theorem macroRule_composed : Composed stream fun statement => macroRule statement opening := by
  refine .bind (.expect _ _) fun _ => ?_
  refine .bind (.reads fun _ => identifier_reads closed) fun name => ?_
  refine .bind (.withDeeper closed fun below _ => signature_reads closed below) fun _ => ?_
  refine .bind .blockEnd fun _ => .bind (bodyUntil_composed _ _ _) fun ⟨body, _⟩ => ?_
  refine .bind (.reads fun _ => skipWord_reads closed _) fun _ => .bind .blockEnd fun _ => ?_
  exact .originOf _ fun _ => .pure _

theorem callRule_composed : Composed stream fun statement => callRule statement opening := by
  have afterParams (params : List Parameter) :
      Composed stream fun statement => callRest statement opening params := by
    have afterCall (call : Expr) :
        Composed stream fun statement => callEnding statement opening params call := by
      refine .bind .blockEnd fun _ => ?_
      refine .bind (.lift (.look fun stream cursor =>
        endcallFollows 0 (stream.significant.toList.drop cursor))) fun hasBody => ?_
      cases hasBody with
      | true => exact .bind (closedBody_composed _ _ _) fun _ => .originOf _ fun _ => .pure _
      | false =>
          simp only [Bool.false_eq_true, if_false]
          split
          · exact .originOf _ fun _ => .pure _
          · exact .throw _
    refine .current fun callToken => .bind (.expression closed) fun call => ?_
    dsimp only
    split
    · exact .bind (.throw _) fun _ => afterCall call
    · exact afterCall call
  refine .bind (.expect _ _) fun _ => .current fun token => ?_
  dsimp only
  split
  · exact .bind (.withDeeper closed fun below _ => signature_reads closed below) afterParams
  · exact .bind (.pure _) afterParams

end

/-! ### The choice of a rule by a word -/

/-- Whatever a word stands for in a table of rules is composed, and so is what is done with a word
that is not there. -/
def TableComposed (stream : TokenStream)
    (rules : Parsing (Option Stmt) → List (String × (Token → Parsing Stmt))) : Prop :=
  ∀ (word : String) (opening : Token) (otherwise : Parsing (Option Stmt) → Parsing (Option Stmt)),
    Composed stream otherwise → Composed stream fun statement =>
      match (rules statement).lookup word with
      | some rule => some <$> rule opening
      | none => otherwise statement

theorem tableComposed_nil : TableComposed stream fun _ => [] :=
  fun _ _ _ composed => composed

theorem tableComposed_cons (word : String) {rule : Parsing (Option Stmt) → Token → Parsing Stmt}
    {rules : Parsing (Option Stmt) → List (String × (Token → Parsing Stmt))}
    (first : ∀ opening, Composed stream fun statement => rule statement opening)
    (rest : TableComposed stream rules) :
    TableComposed stream fun statement => (word, rule statement) :: rules statement := by
  intro sought opening otherwise composed
  cases isWord : sought == word with
  | true =>
      simp only [List.lookup_cons, isWord]
      exact .map _ (first opening)
  | false =>
      simp only [List.lookup_cons, isWord]
      exact rest sought opening otherwise composed

theorem tagRules_composed (closed : stream.IsClosed) : TableComposed stream tagRules := by
  refine tableComposed_cons _ (fun opening => .nested _ (forRule_composed closed opening)) ?_
  refine tableComposed_cons _ (fun opening => .nested _ (choiceRule_composed closed opening)) ?_
  refine tableComposed_cons _ (fun opening => .nested _ (assignRule_composed closed opening)) ?_
  refine tableComposed_cons _ (fun opening => .nested _ (blockRule_composed closed opening)) ?_
  refine tableComposed_cons _ (fun opening => .nested _ (parentRule_composed closed opening)) ?_
  refine tableComposed_cons _ (fun opening => .nested _ (inclusionRule_composed closed opening)) ?_
  refine tableComposed_cons _ (fun opening => .nested _ (importRule_composed closed opening)) ?_
  refine tableComposed_cons _
    (fun opening => .nested _ (importNamesRule_composed closed opening)) ?_
  refine tableComposed_cons _ (fun opening => .nested _ (macroRule_composed closed opening)) ?_
  refine tableComposed_cons _ (fun opening => .nested _ (callRule_composed closed opening)) ?_
  refine tableComposed_cons _ (fun opening => .nested _ (scopeRule_composed closed opening)) ?_
  refine tableComposed_cons _ (fun opening => .nested _ (filteredRule_composed closed opening)) ?_
  refine tableComposed_cons _ (fun opening => .nested _ (autoescapeRule_composed closed opening)) ?_
  refine tableComposed_cons _ (fun opening => .nested _ (evaluateRule_composed closed opening)) ?_
  refine tableComposed_cons _ simpleRule_composed ?_
  refine tableComposed_cons _ simpleRule_composed ?_
  exact tableComposed_cons _ simpleRule_composed tableComposed_nil

end Stmt

end Stencil

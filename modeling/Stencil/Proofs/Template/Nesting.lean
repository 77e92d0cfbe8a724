import Stencil.Profiles
import Stencil.Proofs.Stmt.Enclosing
import Stencil.Proofs.Stmt.Soundness
import Stencil.Proofs.Template.Progress

/-!
# Nesting is accounted for

Constructs that are too deep are the only thing that a parse does not recover from. This is safe
because every rule leaves the constructs that it enters: no statement makes a later one look deeper
than it is. The statements of a parse are derived with no construct open, and so none of them has
more statements around it than there are levels of nesting.
-/

namespace Stencil

namespace Stmt

open Parsing

variable [Limits]

/-- The rules over tokens that lead to expressions one level of nesting deeper: those of expressions
and of their parts, and those of parts of tags that hold expressions. -/
inductive ExprRule : {α : Type} → (Expr.Deeper → Reading α) → Prop where
  | below : ExprRule Expr.Deeper.conditional
  | negationBelow : ExprRule Expr.Deeper.negation
  | unaryBelow : ExprRule Expr.Deeper.unary
  | conditional : ExprRule Expr.conditionalRule
  | conditionalStep (value : Expr) : ExprRule (Expr.conditionalStep · value)
  | disjunction : ExprRule Expr.disjunction
  | conjunction : ExprRule Expr.conjunction
  | negation : ExprRule Expr.negationRule
  | comparison : ExprRule Expr.comparison
  | test : ExprRule Expr.testRule
  | testStep (value : Expr) : ExprRule (Expr.testStep · value)
  | testArguments : ExprRule Expr.testArguments
  | filter : ExprRule Expr.filterRule
  | filterChain (value : Expr) : ExprRule (Expr.filterChain · value)
  | filterStep (value : Expr) : ExprRule (Expr.filterStep · value)
  | filterCall : ExprRule Expr.filterCall
  | sum : ExprRule Expr.sum
  | product : ExprRule Expr.product
  | power : ExprRule Expr.power
  | unary : ExprRule Expr.unaryRule
  | withSuffixes : ExprRule Expr.suffixRule
  | suffix (value : Expr) : ExprRule (Expr.suffix · value)
  | subscript : ExprRule Expr.subscript
  | sliceFrom (line : Nat) (start : Option Expr) : ExprRule (Expr.sliceFrom · line start)
  | slicePart : ExprRule Expr.slicePart
  | callArguments : ExprRule Expr.callArguments
  | callArgument (before : List Expr × List (Named Expr)) : ExprRule (Expr.callArgument · before)
  | listLiteral : ExprRule Expr.listLiteral
  | primary : ExprRule Expr.primary
  | parameter (params : List Parameter) : ExprRule (parameter · params)
  | signature : ExprRule signature
  | assignments : ExprRule assignments
  | filterCalls : ExprRule filterCalls

/-- The rules over tokens that lead to no expression. -/
inductive FlatRule : {α : Type} → Reading α → Prop where
  | identifier : FlatRule Reading.identifier
  | dottedName : FlatRule Reading.dottedName
  | literal : FlatRule Expr.literal
  | stringLiteral : FlatRule Expr.stringLiteral
  | operatorOf (choice : List BinaryOp) : FlatRule (Expr.operatorOf choice)
  | comparisonOperator : FlatRule Expr.comparisonOperator
  | testName : FlatRule Expr.testName
  | plainText : FlatRule plainText
  | assignTargets : FlatRule assignTargets
  | contextAhead : FlatRule contextModifier?
  | contextModifier (default : Bool) : FlatRule (contextModifier default)
  | blockModifiers : FlatRule blockModifiers
  | importName : FlatRule importName
  | importedNames : FlatRule importedNames
  | endcallAhead : FlatRule hasEndcall
  | skipComment : FlatRule skipComment
  | skipTag : FlatRule skipTag

/-- The rules that a template without extensions is parsed with, down to rules over tokens. -/
inductive GrammarRule : {α : Type} → Parsing α → Prop where
  | statement : GrammarRule (parse {})
  | blockTag : GrammarRule (blockTagRule (parse {}) {})
  | tag {word : String} {rule : Token → Parsing Stmt}
      (isRule : (tagRules (parse {})).lookup word = some rule) (opening : Token) :
      GrammarRule (rule opening)
  | forLoop (opening : Token) : GrammarRule (forRule (parse {}) opening)
  | choice (opening : Token) : GrammarRule (choiceRule (parse {}) opening)
  | branches (opening : Token) (ender : String) :
      GrammarRule (elifBranches (parse {}) opening ender)
  | assign (opening : Token) : GrammarRule (assignRule (parse {}) opening)
  | block (opening : Token) : GrammarRule (blockRule (parse {}) opening)
  | parent (opening : Token) : GrammarRule (parentRule opening)
  | inclusion (opening : Token) : GrammarRule (inclusionRule opening)
  | importAs (opening : Token) : GrammarRule (importRule opening)
  | importNames (opening : Token) : GrammarRule (importNamesRule opening)
  | macro_ (opening : Token) : GrammarRule (macroRule (parse {}) opening)
  | call (opening : Token) : GrammarRule (callRule (parse {}) opening)
  | scope (opening : Token) : GrammarRule (scopeRule (parse {}) opening)
  | filtered (opening : Token) : GrammarRule (filteredRule (parse {}) opening)
  | autoescape (opening : Token) : GrammarRule (autoescapeRule (parse {}) opening)
  | evaluate (opening : Token) : GrammarRule (evaluateRule opening)
  | simple (opening : Token) : GrammarRule (simpleRule opening)
  | text : GrammarRule textRule
  | raw : GrammarRule rawRule
  | output : GrammarRule outputRule
  | printTag : GrammarRule (nested "output" outputRule)
  | body (tag : String) (opening : Token) (enders : List String) :
      GrammarRule (bodyUntil (parse {}) tag opening enders)
  | closedBody (tag : String) (opening : Token) (ender : String) :
      GrammarRule (closedBody (parse {}) tag opening ender)
  | expression : GrammarRule expression
  | unconditional : GrammarRule unconditional
  | deeper {α : Type} {rule : Expr.Deeper → Reading α} (isRule : ExprRule rule) :
      GrammarRule (withDeeper rule)
  | flat {α : Type} {rule : Reading α} (isRule : FlatRule rule) :
      GrammarRule (liftM rule : Parsing α)

variable {stream : TokenStream} (closed : stream.IsClosed)

include closed

theorem tagRule_keepsNesting {word : String} {rule : Token → Parsing Stmt}
    (isRule : (tagRules (parse {})).lookup word = some rule) (opening : Token) :
    KeepsNesting stream (rule opening) := by
  have table := (tagRules_composed closed word opening _
    (.throw (.unknownTag word .nowhere))).keepsNesting (parse_keepsNesting closed)
  simp only [isRule] at table
  intro place accounted
  have kept := table place accounted
  cases outcome : rule opening stream place with
  | ok stmt after =>
      rw [map_eq_of_ok outcome] at kept
      exact kept
  | error error after =>
      rw [map_eq_of_error outcome] at kept
      exact kept

theorem GrammarRule.keepsNesting {α : Type} {rule : Parsing α} (isRule : GrammarRule rule) :
    KeepsNesting stream rule := by
  have keeps : KeepsNesting stream (parse {}) := parse_keepsNesting closed
  cases isRule with
  | statement => exact keeps
  | blockTag => exact (blockTagRule_composed closed).keepsNesting keeps
  | tag isRule opening => exact tagRule_keepsNesting closed isRule opening
  | forLoop opening => exact (forRule_composed closed opening).keepsNesting keeps
  | choice opening => exact (choiceRule_composed closed opening).keepsNesting keeps
  | branches opening ender => exact (elifBranches_composed closed opening ender).keepsNesting keeps
  | assign opening => exact (assignRule_composed closed opening).keepsNesting keeps
  | block opening => exact (blockRule_composed closed opening).keepsNesting keeps
  | parent opening => exact (parentRule_composed closed opening).keepsNesting keeps
  | inclusion opening => exact (inclusionRule_composed closed opening).keepsNesting keeps
  | importAs opening => exact (importRule_composed closed opening).keepsNesting keeps
  | importNames opening => exact (importNamesRule_composed closed opening).keepsNesting keeps
  | macro_ opening => exact (macroRule_composed closed opening).keepsNesting keeps
  | call opening => exact (callRule_composed closed opening).keepsNesting keeps
  | scope opening => exact (scopeRule_composed closed opening).keepsNesting keeps
  | filtered opening => exact (filteredRule_composed closed opening).keepsNesting keeps
  | autoescape opening => exact (autoescapeRule_composed closed opening).keepsNesting keeps
  | evaluate opening => exact (evaluateRule_composed closed opening).keepsNesting keeps
  | simple opening => exact (simpleRule_composed opening).keepsNesting keeps
  | text => exact textRule_composed.keepsNesting keeps
  | raw => exact rawRule_composed.keepsNesting keeps
  | output => exact (outputRule_composed closed).keepsNesting keeps
  | printTag => exact .nested "output" ((outputRule_composed closed).keepsNesting keeps)
  | body tag opening enders => exact (bodyUntil_composed tag opening enders).keepsNesting keeps
  | closedBody tag opening ender =>
      exact (closedBody_composed tag opening ender).keepsNesting keeps
  | expression => exact .leveled _
  | unconditional => exact .leveled _
  | @deeper _ rule _ => exact .leveled fun levels => rule (Expr.deeper levels)
  | @flat _ rule _ => exact .leveled fun _ => rule

end Stmt

namespace Parsing

variable [Limits]

/-- The rules for expressions that go one level deeper enter a construct and leave it. -/
structure NestsExpressions (stream : TokenStream) : Prop where
  expression : ∀ place : Place, place.Accounted →
    expression stream place = nested "expression" (withDeeper Expr.conditionalRule) stream place
  unconditional : ∀ place : Place, place.Accounted →
    unconditional stream place = nested "expression" (withDeeper Expr.disjunction) stream place
  conditional : ∀ place : Place, place.Accounted →
    withDeeper Expr.Deeper.conditional stream place =
      nested "conditional" (withDeeper Expr.conditionalRule) stream place
  negation : ∀ place : Place, place.Accounted →
    withDeeper Expr.Deeper.negation stream place =
      nested "not" (withDeeper Expr.negationRule) stream place
  unary : ∀ place : Place, place.Accounted →
    withDeeper Expr.Deeper.unary stream place =
      nested "unary" (withDeeper Expr.unaryRule) stream place

theorem withDeeper_eq_nested {rule below : Expr.Deeper → Reading Expr} {stream : TokenStream}
    {place : Place} (accounted : place.Accounted) (construct : String)
    (atEnd : rule (Expr.deeper 0) = Expr.tooDeep)
    (deeper : ∀ levels, rule (Expr.deeper (levels + 1)) = below (Expr.deeper levels)) :
    withDeeper rule stream place = nested construct (withDeeper below) stream place :=
  @leveled_eq_nested _ Expr stream (fun levels => rule (Expr.deeper levels))
    (fun levels => below (Expr.deeper levels)) atEnd deeper place accounted construct

theorem nestsExpressions (stream : TokenStream) : NestsExpressions stream where
  expression _ accounted := leveled_eq_nested rfl (fun _ => rfl) accounted _
  unconditional _ accounted := leveled_eq_nested rfl (fun _ => rfl) accounted _
  conditional _ accounted := withDeeper_eq_nested accounted _ rfl fun _ => rfl
  negation _ accounted := withDeeper_eq_nested accounted _ rfl fun _ => rfl
  unary _ accounted := withDeeper_eq_nested accounted _ rfl fun _ => rfl

end Parsing

namespace TokenStream.Seeks

variable {stream : TokenStream} {found : Token → Bool} {cursor : Nat}

theorem unique {first second : Nat} (seeks : stream.Seeks found cursor first)
    (other : stream.Seeks found cursor second) : first = second := by
  induction seeks with
  | here isFound =>
      cases other with
      | here => rfl
      | next notFound => rw [isFound] at notFound; cases notFound
  | next notFound _ ih =>
      cases other with
      | here isFound => rw [isFound] at notFound; cases notFound
      | next _ rest => exact ih rest

end TokenStream.Seeks

namespace Template

section

variable [Limits] {stream : TokenStream} {progress next : Progress}

/-! ### Rounds -/

section

variable (closed : stream.IsClosed)

include closed

/-- There is only one round from where a parse has come to. -/
theorem Round.eq_parseNext (round : Round stream progress next) :
    next = parseNext {} stream progress := by
  cases round with
  | stray isStray search =>
      rw [parseNext_eq_of_stray isStray, search.unique (closed.seeks _
        (fun token isEnd => by simp [isEnd, Token.Kind.isBoundary]) _)]
      rfl
  | statement notStray outcome => exact (parseNext_eq_of_ok notStray outcome).symm
  | recovered notStray outcome recoverable search =>
      rw [parseNext_eq_of_error notStray outcome recoverable, search.unique (closed.seeks _
        (fun token isEnd => by simp [isEnd, Token.Kind.isBoundary]) _)]
      rfl
  | aborted notStray outcome isFatal => simp [parseNext, notStray, outcome, isFatal]

/-- A parse is the same from each place that it comes by. -/
theorem Reached.parse_eq (reached : Reached stream progress) (notFatal : progress.fatal = none) :
    parse {} stream = parseAll {} stream progress := by
  induction reached with
  | start => rfl
  | @round progress next reached notFatal' notEnd round ih =>
      have further := reached.further closed notEnd round
      have inside := closed.lt_size notEnd
      rw [ih notFatal', parseAll, if_neg notEnd]
      rw [round.eq_parseNext closed] at further notFatal ⊢
      exact if_pos ⟨Option.isNone_iff_eq_none.2 notFatal, further, by omega⟩

omit closed in
theorem Runs.reached {last : Progress} (reached : Reached stream progress)
    (notFatal : progress.fatal = none) (runs : Runs stream progress last) :
    Reached stream last := by
  induction runs with
  | atEnd => exact reached
  | aborted notEnd round => exact .round reached notFatal notEnd round
  | more notEnd round notFatal' _ ih => exact ih (.round reached notFatal notEnd round) notFatal'

theorem reached_parse : Reached stream (parse {} stream) :=
  (Reached.start.runs closed rfl).reached .start rfl

omit closed in
theorem Round.errors_stay (round : Round stream progress next) :
    progress.errors <+: next.errors := by
  cases round with
  | stray | recovered => exact List.prefix_append _ _
  | statement | aborted => exact List.prefix_refl _

omit closed in
/-- Errors that were met stay so in the rounds that follow. -/
theorem Runs.errors_stay {last : Progress} (runs : Runs stream progress last) :
    progress.errors <+: last.errors := by
  induction runs with
  | atEnd => exact List.prefix_refl _
  | aborted _ round => exact round.errors_stay
  | more _ round _ _ ih => exact round.errors_stay.trans ih

omit closed in
/-- The errors that are met can all be recovered from, and the one that ends a parse cannot. -/
theorem Reached.recoverable (reached : Reached stream progress) :
    (∀ error ∈ progress.errors, error.isRecoverable = true) ∧
      ∀ error, progress.fatal = some error → error.isRecoverable = false := by
  have snoc {errors : List SyntaxError} {error : SyntaxError}
      (recoverable : error.isRecoverable = true)
      (all : ∀ error ∈ errors, error.isRecoverable = true) :
      ∀ other ∈ errors ++ [error], other.isRecoverable = true := by
    intro other isPart
    rcases List.mem_append.1 isPart with isPart | isLast
    · exact all other isPart
    · obtain rfl := List.mem_singleton.1 isLast
      exact recoverable
  induction reached with
  | start => simp
  | round _ notFatal _ round ih =>
      cases round with
      | stray => exact ⟨snoc rfl ih.1, ih.2⟩
      | statement => exact ih
      | recovered _ _ recoverable => exact ⟨snoc recoverable ih.1, ih.2⟩
      | aborted _ _ isFatal =>
          refine ⟨ih.1, fun error isError => ?_⟩
          cases isError
          exact isFatal

/-- Every statement that a parse comes by is derived with no construct open. -/
theorem Reached.derivedAt (reached : Reached stream progress) :
    ∀ stmt ∈ progress.body, Stmt.DerivedAt stream 0 stmt := by
  induction reached with
  | start =>
      intro stmt isPart
      cases isPart
  | @round progress next reached _ _ round ih =>
      cases round with
      | stray | recovered | aborted => exact ih
      | @statement stmt after _ outcome =>
          have noneOpen : progress.place.depth = 0 := (reached.noneOpen closed).depth_eq
          have derived := (Stmt.parse_derives closed 0 progress.place.cursor progress.place after
            stmt noneOpen rfl outcome).2
          intro child isPart
          rw [List.mem_append, Option.mem_toList] at isPart
          rcases isPart with isPart | rfl
          · exact ih child isPart
          · exact ⟨_, _, derived⟩

end

/-- A parse without extensions fails only because constructs are nested too deeply. The error for
this always ends the parse, and every other error that a statement fails with is recovered from. -/
structure FailsOnlyTooDeep (stream : TokenStream) : Prop where
  failure : ∀ error, (parse {} stream).result stream = .error error →
    ∃ limit span, error = .tooDeep limit span
  neverRecovered : ∀ error ∈ (parse {} stream).errors, ∀ limit span, error ≠ .tooDeep limit span
  aborts : ∀ progress, Reached stream progress → progress.fatal = none →
    (stream.get progress.place.cursor).kind ≠ .eof →
    strayTag? {} stream progress.place.cursor = none → ∀ limit span after,
      Stmt.parse {} stream progress.place = .error (.tooDeep limit span) after →
        (parse {} stream).result stream = .error (.tooDeep limit span)
  goesOn : ∀ progress, Reached stream progress → progress.fatal = none →
    (stream.get progress.place.cursor).kind ≠ .eof →
    strayTag? {} stream progress.place.cursor = none → ∀ error after,
      Stmt.parse {} stream progress.place = .error error after →
        (∀ limit span, error ≠ .tooDeep limit span) → error ∈ (parse {} stream).errors

theorem failsOnlyTooDeep (closed : stream.IsClosed) : FailsOnlyTooDeep stream where
  failure error failed := by
    rw [← SyntaxError.isRecoverable_eq_false_iff]
    refine (reached_parse closed).recoverable.2 error ?_
    unfold Progress.result at failed
    split at failed
    · next isFatal =>
      cases failed
      exact isFatal
    · cases failed
  neverRecovered error isMet limit span isTooDeep := by
    have recoverable := (reached_parse closed).recoverable.1 error isMet
    rw [(SyntaxError.isRecoverable_eq_false_iff error).2 ⟨limit, span, isTooDeep⟩] at recoverable
    cases recoverable
  aborts progress reached notFatal notEnd notStray limit span after outcome := by
    have isFatal : (SyntaxError.tooDeep limit span).isRecoverable = false :=
      (SyntaxError.isRecoverable_eq_false_iff _).2 ⟨limit, span, rfl⟩
    have round := (Round.aborted notStray outcome isFatal).eq_parseNext closed
    rw [reached.parse_eq closed notFatal, parseAll, if_neg notEnd, ← round]
    rfl
  goesOn progress reached notFatal notEnd notStray error after outcome notTooDeep := by
    have recoverable : error.isRecoverable = true := by
      rw [← Bool.not_eq_false, SyntaxError.isRecoverable_eq_false_iff]
      rintro ⟨limit, span, isTooDeep⟩
      exact notTooDeep limit span isTooDeep
    have round := Round.recovered notStray outcome recoverable (closed.seeks _
      (fun token isEnd => by simp [isEnd, Token.Kind.isBoundary]) _)
    have next := Reached.round reached notFatal notEnd round
    rw [next.parse_eq closed notFatal]
    exact (next.runs closed notFatal).errors_stay.subset (by simp)

/-- Nesting is accounted for, for every list of tokens and without extensions. Entering and leaving
in any order keep the trail in step with the number of open constructs, which has a bound. Every
rule comes back to the constructs that it was started with, and rules for expressions enter and
leave as those for statements do. So a parse fails only where the nesting is too deep, and no
statement of a template has more statements around it than there are levels. -/
theorem parse_accounts_for_nesting (tokens : List Token) :
    (∀ calls : List NestingCall,
      (calls.foldl (NestingCall.after (.ofTokens tokens)) {}).Accounted) ∧
    (∀ {α : Type} {rule : Parsing α}, Stmt.GrammarRule rule →
      Parsing.KeepsNesting (.ofTokens tokens) rule) ∧
    Parsing.NestsExpressions (.ofTokens tokens) ∧
    FailsOnlyTooDeep (.ofTokens tokens) ∧
    (∀ template, (parse {} (.ofTokens tokens)).result (.ofTokens tokens) = .ok template →
      ∀ outer ∈ template.body, ∀ count inner, Stmt.Encloses outer count inner →
        count ≤ maxDepth) := by
  have closed := TokenStream.isClosed_ofTokens tokens
  refine ⟨NestingCall.accounted_foldl Place.accounted_start _,
    fun isRule => isRule.keepsNesting closed, Parsing.nestsExpressions _, failsOnlyTooDeep closed,
    fun template parsed outer isPart count inner encloses => ?_⟩
  have derived := (reached_parse closed).derivedAt closed outer (by
    rw [(of_result_eq_ok parsed).2] at isPart
    exact isPart)
  have bounded := (derived.encloses (Nat.zero_le _) encloses).2
  omega

end

set_option maxRecDepth 10000 in
/-- Text inside of a choice has one statement around it. -/
theorem parse_accounts_for_nesting_choice : ∃ tokens template outer inner,
    (parse {} (.ofTokens tokens)).result (.ofTokens tokens) = .ok template ∧
    template.body = [outer] ∧ Stmt.Encloses outer 1 inner ∧ 1 ≤ maxDepth ∧
    Parsing.KeepsNesting (.ofTokens tokens) (Stmt.parse {}) := by
  let tokens := Token.layOut none .start [(.blockBegin, "\x7b%"), (.keyword .if_, "if"),
    (.name, "a"), (.blockEnd, "%\x7d"), (.data, "b"), (.blockBegin, "\x7b%"),
    (.keyword .endIf, "endif"), (.blockEnd, "%\x7d")]
  let inner := Stmt.text ⟨1, none⟩ "b"
  let outer := Stmt.choice ⟨1, none⟩ (.name ⟨1, none⟩ "a") [inner] [] []
  obtain ⟨notFatal, isBody⟩ : (parse {} (.ofTokens tokens)).fatal = none ∧
      (parse {} (.ofTokens tokens)).body = [outer] := by
    cbv
  have parsed := result_eq_ok (.ofTokens tokens) notFatal
  have encloses : Stmt.Encloses outer 1 inner :=
    .inside .self (List.mem_cons_self (a := [inner])) (List.mem_singleton_self inner)
  rcases parse_accounts_for_nesting tokens with ⟨_, keeps, _, _, bounded⟩
  refine ⟨tokens, _, outer, inner, parsed, isBody, encloses, ?_, keeps .statement⟩
  exact bounded _ parsed outer (by simp [isBody]) 1 inner encloses

end Template

end Stencil

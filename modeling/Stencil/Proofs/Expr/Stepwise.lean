import Stencil.Expr.Parse
import Stencil.Proofs.Parse.Stepwise

/-!
# Rules for expressions are composed of looks and steps

Each rule of the grammar of expressions is composed of looks and steps if the rules one level deeper
are, and so are the rules for any number of levels.
-/

namespace Stencil.Expr

open Reading

theorem stringLiteral_stepwise : Stepwise stringLiteral := by
  refine .loop (fun value => .current fun token => ?_) ""
  split
  · exact .step fun _ => .pure _
  · exact .pure _

theorem literal_stepwise : Stepwise literal := by
  refine .current fun token => .origin fun origin => ?_
  split
  · exact .bind stringLiteral_stepwise fun _ => .pure _
  · split
    · exact .step fun _ => .pure _
    · exact .throw _
  · split
    · exact .step fun _ => .pure _
    · exact .throw _
  · exact .step fun _ => .pure _
  · exact .step fun _ => .pure _
  · exact .refuse _ _

theorem chain_stepwise {operator? : Reading (Option BinaryOp)} {operand : Reading Expr}
    (operators : Stepwise operator?) (operands : Stepwise operand) :
    Stepwise (chain operator? operand) := by
  refine .bind operands fun first => .loop (fun left => .bind operators fun op => ?_) first
  cases op with
  | some op => exact .bind operands fun right => .origin fun _ => .pure _
  | none => exact .pure _

theorem operatorOf_stepwise (choice : List BinaryOp) : Stepwise (operatorOf choice) := by
  refine .current fun token => ?_
  split
  · split
    · exact .step fun _ => .pure _
    · exact .pure _
  · exact .pure _

theorem comparisonOperator_stepwise : Stepwise comparisonOperator := by
  refine .lookTwice (fun token ahead => ?_) fun token isClosing ahead ahead' => ?_
  · split
    · exact .step fun _ => .step fun _ => .pure _
    · exact operatorOf_stepwise _
  · have notWord : token.isKeyword .not_ = false := by
      refine decide_eq_false fun isWord => ?_
      rw [isWord] at isClosing
      cases isClosing
    simp only [notWord, Bool.false_eq_true, false_and, if_false]

theorem testName_stepwise : Stepwise testName := by
  refine .current fun token => ?_
  split
  · exact .step fun _ => .pure _
  · exact .step fun _ => .pure _
  · exact .step fun _ => .pure _
  · exact .dottedName

/-- The rules one level deeper are composed of looks and steps. -/
structure Deeper.Stepwise (deeper : Deeper) : Prop where
  conditional : Reading.Stepwise deeper.conditional
  negation : Reading.Stepwise deeper.negation
  unary : Reading.Stepwise deeper.unary

section

variable {deeper : Deeper} (below : deeper.Stepwise)

include below

theorem callArgument_stepwise (before : List Expr × List (Named Expr)) :
    Stepwise (callArgument deeper before) := by
  refine .lookTwice (fun token ahead => ?_) fun token isClosing ahead ahead' => ?_
  · split
    · exact .bind .identifier fun _ => .step fun _ => .bind below.conditional fun _ => .pure _
    · refine .bind below.conditional fun value => ?_
      split
      · exact .pure _
      · exact .throw _
  · have notName : token.kind ≠ .name := by
      intro isName
      rw [isName] at isClosing
      cases isClosing
    simp only [notName, false_and, if_false]

theorem callArguments_stepwise : Stepwise (callArguments deeper) :=
  .bind (.expect _ _) fun _ => .commaList _ _ _ (callArgument_stepwise below) _

theorem listLiteral_stepwise : Stepwise (listLiteral deeper) := by
  refine .bind (.expect _ _) fun opening => .bind (.commaList _ _ _ (fun items => ?_) _) ?_
  · exact .bind below.conditional fun _ => .pure _
  · exact fun _ => .origin fun _ => .pure _

theorem slicePart_stepwise : Stepwise (slicePart deeper) := by
  refine .current fun token => ?_
  split
  · exact .pure _
  · exact .pure _
  · exact .bind below.conditional fun _ => .pure _

theorem sliceFrom_stepwise (line : Nat) (start : Option Expr) :
    Stepwise (sliceFrom deeper line start) := by
  refine .step fun _ => .bind (slicePart_stepwise below) fun stop => ?_
  refine .bind (.skipIf _) fun hasStep => ?_
  cases hasStep with
  | true => exact .bind (slicePart_stepwise below) fun _ => .origin fun _ => .pure _
  | false => exact .bind (.pure _) fun _ => .origin fun _ => .pure _

theorem subscript_stepwise : Stepwise (subscript deeper) := by
  refine .current fun first => ?_
  split
  · exact sliceFrom_stepwise below _ _
  · refine .bind below.conditional fun start => .current fun token => ?_
    split
    · exact sliceFrom_stepwise below _ _
    · exact .pure _

theorem suffix_stepwise (value : Expr) : Stepwise (suffix deeper value) := by
  refine .origin fun origin => .current fun token => ?_
  split
  · refine .step fun _ => .current fun member => ?_
    split
    · exact .bind literal_stepwise fun _ => .pure _
    · exact .step fun _ => .pure _
    · exact .refuse _ _
  · refine .step fun _ => .bind (subscript_stepwise below) fun index => ?_
    exact .bind (.expect _ _) fun _ => .pure _
  · exact .bind (callArguments_stepwise below) fun _ => .pure _
  · exact .pure _

theorem primary_stepwise : Stepwise (primary deeper) := by
  refine .current fun token => ?_
  split
  · exact .step fun _ => .origin fun _ => .pure _
  · refine .step fun _ => .bind below.conditional fun inner => ?_
    exact .bind (.expect _ _) fun _ => .pure _
  · exact listLiteral_stepwise below
  · split
    · exact literal_stepwise
    · exact .refuse _ _

theorem unaryRule_stepwise : Stepwise (unaryRule deeper) := by
  refine .current fun token => ?_
  split
  · exact .step fun _ => .bind below.unary fun _ => .origin fun _ => .pure _
  · exact .bind (primary_stepwise below) fun value => .loop (suffix_stepwise below) value

theorem sum_stepwise : Stepwise (sum deeper) :=
  chain_stepwise (operatorOf_stepwise _) <| chain_stepwise (operatorOf_stepwise _) <|
    chain_stepwise (operatorOf_stepwise _) (unaryRule_stepwise below)

theorem filterCall_stepwise : Stepwise (filterCall deeper) := by
  refine .bind .dottedName fun called => .current fun token => ?_
  split
  · exact .bind (callArguments_stepwise below) fun _ => .pure _
  · exact .pure _

theorem filterRule_stepwise : Stepwise (filterRule deeper) := by
  refine .bind (sum_stepwise below) fun value => .loop (fun value => ?_) value
  refine .bind (.skipIf _) fun isPipe => ?_
  cases isPipe with
  | true => exact .bind (filterCall_stepwise below) fun _ => .origin fun _ => .pure _
  | false => exact .pure _

theorem testArguments_stepwise : Stepwise (testArguments deeper) := by
  refine .current fun token => ?_
  dsimp only
  split
  · exact callArguments_stepwise below
  · split
    · exact .bind (unaryRule_stepwise below) fun _ => .pure _
    · exact .pure _

theorem testRule_stepwise : Stepwise (testRule deeper) := by
  refine .bind (filterRule_stepwise below) fun value => .loop (fun value => ?_) value
  refine .bind (.skipIf _) fun isTest => ?_
  cases isTest with
  | true =>
      refine .bind (.skipIf _) fun negated => .bind testName_stepwise fun name => ?_
      exact .bind (testArguments_stepwise below) fun _ => .origin fun _ => .pure _
  | false => exact .pure _

theorem negationRule_stepwise : Stepwise (negationRule deeper) := by
  refine .current fun token => ?_
  split
  · exact .step fun _ => .bind below.negation fun _ => .origin fun _ => .pure _
  · exact chain_stepwise comparisonOperator_stepwise (testRule_stepwise below)

theorem disjunction_stepwise : Stepwise (disjunction deeper) :=
  chain_stepwise (operatorOf_stepwise _) <| chain_stepwise (operatorOf_stepwise _) <|
    negationRule_stepwise below

theorem conditionalRule_stepwise : Stepwise (conditionalRule deeper) := by
  refine .bind (disjunction_stepwise below) fun value => .loop (fun value => ?_) value
  refine .bind (.skipIf _) fun isIf => ?_
  cases isIf with
  | true =>
      refine .bind (disjunction_stepwise below) fun condition => .bind (.skipIf _) fun isElse => ?_
      cases isElse with
      | true => exact .bind (.map _ below.conditional) fun _ => .origin fun _ => .pure _
      | false => exact .bind (.pure _) fun _ => .origin fun _ => .pure _
  | false => exact .pure _

end

variable [Limits]

theorem tooDeep_stepwise {α : Type} : Stepwise (tooDeep : Reading α) :=
  .current fun _ => .throw _

/-- Whatever number of levels is left, the rules one level deeper are composed of looks and
steps. -/
theorem deeper_stepwise (levels : Nat) : (deeper levels).Stepwise := by
  induction levels with
  | zero => exact ⟨tooDeep_stepwise, tooDeep_stepwise, tooDeep_stepwise⟩
  | succ levels ih =>
      exact ⟨conditionalRule_stepwise ih, negationRule_stepwise ih, unaryRule_stepwise ih⟩

theorem parse_stepwise (levels : Nat) : Stepwise (parse levels) :=
  (deeper_stepwise levels).conditional

theorem parseUnconditional_stepwise (levels : Nat) : Stepwise (parseUnconditional levels) := by
  cases levels with
  | zero => exact tooDeep_stepwise
  | succ levels => exact disjunction_stepwise (deeper_stepwise levels)

end Stencil.Expr

import Stencil.Proofs.Expr.Passing
import Stencil.Proofs.Parse.Blaming

/-!
# What errors in expressions are about

Every rule for expressions fails with an error about a token at which it has stopped, or about one
that it has looked at before. Only a positional argument after a named one is told by a token that
lies before the place where the rule stops: by the first one of the argument.
-/

namespace Stencil.Expr

open Reading (Blames)

variable {stream : TokenStream} {low start : Nat}

/-- The rules one level deeper name tokens from where they are used on. -/
structure Deeper.Blames (stream : TokenStream) (deeper : Deeper) : Prop where
  conditional : ∀ low start, Reading.Blames stream low start deeper.conditional
  negation : ∀ low start, Reading.Blames stream low start deeper.negation
  unary : ∀ low start, Reading.Blames stream low start deeper.unary

theorem tooDeep_blames [Limits] {α : Type} : Blames stream low start (tooDeep : Reading α) := by
  apply Blames.current
  intro here later
  exact .throw_here rfl

theorem literal_blames : Blames stream low start literal := by
  apply Blames.current
  intro here later
  apply Blames.originAt
  intro origin
  split
  · apply BlamesFrom.bind
    · apply Blames.loop
      intro value
      apply Blames.current
      intro here later
      split
      · exact .advance_pure _
      · exact .pure _
    · intro value
      exact .pure _
  · split
    · exact .advance_pure _
    · exact .throw_here rfl
  · split
    · exact .advance_pure _
    · exact .throw_here rfl
  · exact .advance_pure _
  · exact .advance_pure _
  · exact .refuse _

theorem chain_blames {operator? : Reading (Option BinaryOp)} {operand : Reading Expr}
    (operators : ∀ low start, Blames stream low start operator?)
    (operands : ∀ low start, Blames stream low start operand) :
    Blames stream low start (chain operator? operand) := by
  apply (operands low start).bind
  intro left
  apply Blames.loop
  intro left
  apply (operators low start).bind
  intro op
  cases op with
  | some op =>
      apply (operands low start).bind
      intro right
      apply Blames.originAt
      intro origin
      exact .pure _
  | none => exact .pure _

theorem operatorOf_blames (choice : List BinaryOp) (low start : Nat) :
    Blames stream low start (operatorOf choice) := by
  apply Blames.current
  intro here later
  split
  · split
    · exact .advance_pure _
    · exact .pure _
  · exact .pure _

theorem comparisonOperator_blames (low start : Nat) :
    Blames stream low start comparisonOperator := by
  apply Blames.current
  intro here later
  apply Blames.peek
  intro token
  split
  · apply Blames.advance
    intro here later
    exact .advance_pure _
  · apply operatorOf_blames

theorem testName_blames : Blames stream low start testName := by
  apply Blames.current
  intro here later
  split
  · exact .advance_pure _
  · exact .advance_pure _
  · exact .advance_pure _
  · exact Reading.dottedName_blames

section

variable {deeper : Deeper} (below : deeper.Blames stream)

include below

theorem callArgument_blames (before : List Expr × List (Named Expr)) (low start : Nat) :
    Blames stream low start (callArgument deeper before) := by
  apply Blames.current
  intro here later
  apply Blames.peek
  intro second
  split
  · apply Reading.identifier_blames.bind
    intro name
    apply Blames.advance
    intro here later
    apply (below.conditional low here).bind
    intro value
    exact .pure _
  · apply (below.conditional low here).bind
    intro value
    split
    · exact .pure _
    · exact .throw_here rfl

theorem callArguments_blames : Blames stream low start (callArguments deeper) := by
  apply Blames.expect
  intro here later
  exact Reading.commaList_blames (callArgument_blames below)

theorem listLiteral_blames : Blames stream low start (listLiteral deeper) := by
  apply Blames.expect
  intro here later
  apply BlamesFrom.bind
  · apply Reading.commaList_blames
    intro items low start
    apply (below.conditional low start).bind
    intro item
    exact .pure _
  · intro items
    apply Blames.originAt
    intro origin
    exact .pure _

theorem slicePart_blames : Blames stream low start (slicePart deeper) := by
  apply Blames.current
  intro here later
  split
  · exact .pure _
  · exact .pure _
  · apply (below.conditional low here).bind
    intro part
    exact .pure _

theorem sliceFrom_blames (line : Nat) (first : Option Expr) :
    Blames stream low start (sliceFrom deeper line first) := by
  apply Blames.advance
  intro here later
  apply (slicePart_blames below).bind
  intro stop
  apply (Reading.skipIf_blames _).bind
  intro hasStep
  cases hasStep with
  | true =>
      apply (slicePart_blames below).bind
      intro step
      apply Blames.originAt
      intro origin
      exact .pure _
  | false => exact .bind (.pure none) fun _ => Blames.originAt fun _ => .pure _

theorem subscript_blames : Blames stream low start (subscript deeper) := by
  apply Blames.current
  intro here later
  split
  · exact sliceFrom_blames below _ _
  · apply (below.conditional low here).bind
    intro index
    apply Blames.current
    intro here later
    split
    · exact sliceFrom_blames below _ _
    · exact .pure _

theorem suffix_blames (value : Expr) : Blames stream low start (suffix deeper value) := by
  apply Blames.originAt
  intro origin
  apply Blames.current
  intro here later
  split
  · apply Blames.advance
    intro here later
    apply Blames.current
    intro here later
    split
    · apply literal_blames.bind
      intro index
      exact .pure _
    · exact .advance_pure _
    · exact .refuse _
  · apply Blames.advance
    intro here later
    apply (subscript_blames below).bind
    intro index
    apply Blames.expect
    intro here later
    exact .pure _
  · apply (callArguments_blames below).bind
    intro arguments
    exact .pure _
  · exact .pure _

theorem primary_blames : Blames stream low start (primary deeper) := by
  apply Blames.current
  intro here later
  split
  · apply Blames.advance
    intro here later
    apply Blames.originAt
    intro origin
    exact .pure _
  · apply Blames.advance
    intro here later
    apply (below.conditional low here).bind
    intro inner
    apply Blames.expect
    intro here later
    exact .pure _
  · exact listLiteral_blames below
  · split
    · exact literal_blames
    · exact .refuse _

theorem unaryRule_blames (low start : Nat) : Blames stream low start (unaryRule deeper) := by
  apply Blames.current
  intro here later
  split
  · apply Blames.advance
    intro here later
    apply (below.unary low here).bind
    intro operand
    apply Blames.originAt
    intro origin
    exact .pure _
  · apply (primary_blames below).bind
    intro value
    apply Blames.loop
    exact suffix_blames below

theorem sum_blames : Blames stream low start (sum deeper) := by
  apply chain_blames (operatorOf_blames _)
  intro low start
  apply chain_blames (operatorOf_blames _)
  intro low start
  exact chain_blames (operatorOf_blames _) (unaryRule_blames below)

theorem filterCall_blames : Blames stream low start (filterCall deeper) := by
  apply Reading.dottedName_blames.bind
  intro called
  apply Blames.current
  intro here later
  split
  · apply (callArguments_blames below).bind
    intro arguments
    exact .pure _
  · exact .pure _

theorem filterStep_blames (value : Expr) :
    Blames stream low start (filterStep deeper value) := by
  apply (Reading.skipIf_blames _).bind
  intro isPipe
  cases isPipe with
  | true =>
      apply (filterCall_blames below).bind
      intro applied
      apply Blames.originAt
      intro origin
      exact .pure _
  | false => exact .pure _

theorem testArguments_blames : Blames stream low start (testArguments deeper) := by
  apply Blames.current
  intro here later
  dsimp only
  split
  · exact callArguments_blames below
  · split
    · apply (unaryRule_blames below low here).bind
      intro argument
      exact .pure _
    · exact .pure _

theorem testStep_blames (value : Expr) : Blames stream low start (testStep deeper value) := by
  apply (Reading.skipIf_blames _).bind
  intro isTest
  cases isTest with
  | true =>
      apply (Reading.skipIf_blames _).bind
      intro negated
      apply testName_blames.bind
      intro name
      apply (testArguments_blames below).bind
      intro arguments
      apply Blames.originAt
      intro origin
      exact .pure _
  | false => exact .pure _

theorem testRule_blames (low start : Nat) : Blames stream low start (testRule deeper) := by
  apply BlamesFrom.bind
  · apply (sum_blames below).bind
    intro value
    apply Blames.loop
    exact filterStep_blames below
  · intro value
    apply Blames.loop
    exact testStep_blames below

theorem negationRule_blames (low start : Nat) :
    Blames stream low start (negationRule deeper) := by
  apply Blames.current
  intro here later
  split
  · apply Blames.advance
    intro here later
    apply (below.negation low here).bind
    intro operand
    apply Blames.originAt
    intro origin
    exact .pure _
  · exact chain_blames comparisonOperator_blames (testRule_blames below)

theorem disjunction_blames : Blames stream low start (disjunction deeper) := by
  apply chain_blames (operatorOf_blames _)
  intro low start
  exact chain_blames (operatorOf_blames _) (negationRule_blames below)

theorem conditionalStep_blames (value : Expr) :
    Blames stream low start (conditionalStep deeper value) := by
  apply (Reading.skipIf_blames _).bind
  intro isIf
  cases isIf with
  | true =>
      apply (disjunction_blames below).bind
      intro condition
      apply (Reading.skipIf_blames _).bind
      intro isElse
      cases isElse with
      | true =>
          apply (below.conditional low start).map.bind
          intro otherwise
          apply Blames.originAt
          intro origin
          exact .pure _
      | false => exact .bind (.pure none) fun _ => Blames.originAt fun _ => .pure _
  | false => exact .pure _

theorem conditionalRule_blames : Blames stream low start (conditionalRule deeper) := by
  apply (disjunction_blames below).bind
  intro value
  apply Blames.loop
  exact conditionalStep_blames below

end

variable [Limits]

theorem deeper_blames (stream : TokenStream) (levels : Nat) : (deeper levels).Blames stream := by
  induction levels with
  | zero =>
      constructor <;> intros <;> exact tooDeep_blames
  | succ levels ih =>
      constructor
      · intros
        exact conditionalRule_blames ih
      · exact negationRule_blames ih
      · exact unaryRule_blames ih

theorem parse_blames (levels : Nat) : Blames stream low start (parse levels) :=
  (deeper_blames stream levels).conditional low start

theorem parseUnconditional_blames (levels : Nat) :
    Blames stream low start (parseUnconditional levels) := by
  cases levels with
  | zero => exact tooDeep_blames
  | succ levels => exact disjunction_blames (deeper_blames stream levels)

end Stencil.Expr

import Stencil.Proofs.Expr.Passing
import Stencil.Proofs.Parse.Windows

/-!
# Expressions in a window

Every rule for expressions does the same at all places of a window. No rule takes a token that
begins a tag, so that each of them stops there as it stops at the end of the template.
-/

namespace Stencil.Expr

open Reading

variable {window : Window}

/-- The rules one level deeper do the same in a window, and read tokens of a tag. -/
structure Deeper.Steady (window : Window) (deeper : Deeper) : Prop where
  conditional : Stencil.Steady window deeper.conditional
  negation : Stencil.Steady window deeper.negation
  unary : Stencil.Steady window deeper.unary
  inside : deeper.Inside window.near

theorem binary_of_isBoundary {kind : Token.Kind} (boundary : kind.isBoundary = true) :
    BinaryOp.ofKind? kind = none := by
  cases found : BinaryOp.ofKind? kind with
  | none => rfl
  | some op =>
      unfold BinaryOp.ofKind? at found
      split at found <;> simp_all [Token.Kind.isBoundary]

theorem unary_of_isBoundary {kind : Token.Kind} (boundary : kind.isBoundary = true) :
    UnaryOp.ofKind? kind = none := by
  cases found : UnaryOp.ofKind? kind with
  | none => rfl
  | some op =>
      unfold UnaryOp.ofKind? at found
      split at found <;> simp_all [Token.Kind.isBoundary]

theorem isKeyword_of_isBoundary {token : Token} (boundary : token.kind.isBoundary = true)
    (word : Keyword) : token.isKeyword word = false :=
  decide_eq_false (Token.kind_ne_of_isBoundary boundary rfl)

theorem stringLiteral_steady : Steady window stringLiteral := by
  refine .loop (fun value near far => ?_) ""
  apply Alike.current_or
  · intro inside
    split
    · exact .advance_bind inside (.pure _)
    · exact .pure _
  · intro token boundary
    exact if_neg (Token.kind_ne_of_isBoundary boundary rfl)
  · exact .pure _

theorem literal_steady : Steady window literal := by
  intro near far
  apply Alike.current_or_refuse "literal"
  · intro inside
    apply Alike.originAt_bind
    split
    · exact stringLiteral_steady.bind (fun _ => .pure _) near far
    · split
      · exact .advance_bind inside (.pure _)
      · exact .throw _
    · split
      · exact .advance_bind inside (.pure _)
      · exact .throw _
    · exact .advance_bind inside (.pure _)
    · exact .advance_bind inside (.pure _)
    · exact .throw _
  · intro token boundary
    rcases Token.isBoundary_cases boundary with isKind | isKind | isKind | isKind <;>
      simp only [isKind] <;> rfl

theorem chain_steady {operator? : Reading (Option BinaryOp)} {operand : Reading Expr}
    (operators : Steady window operator?) (operands : Steady window operand) :
    Steady window (chain operator? operand) := by
  refine operands.bind fun first => .loop (fun left near far => ?_) first
  apply (operators near far).bind
  intro op near far outcome
  cases op with
  | none => exact .pure _
  | some op =>
      apply (operands near far).bind
      intro right near far outcome
      exact .originAt_bind (.pure _)

theorem operatorOf_steady (choice : List BinaryOp) : Steady window (operatorOf choice) := by
  intro near far
  apply Alike.current_or
  · intro inside
    split
    · split
      · exact .advance_bind inside (.pure _)
      · exact .pure _
    · exact .pure _
  · intro token boundary
    rw [binary_of_isBoundary boundary]
  · exact .pure _

theorem comparisonOperator_steady : Steady window comparisonOperator := by
  intro near far
  apply Alike.current_or
  · intro inside
    apply Alike.peek_or inside
    · intro further
      split
      · exact .advance_bind inside (.advance_bind further (.pure _))
      · exact operatorOf_steady _ near far
    · intro token boundary
      exact if_neg (by simp [isKeyword_of_isBoundary boundary])
    · exact operatorOf_steady _ near far
  · intro token boundary
    simp only [isKeyword_of_isBoundary boundary, Bool.false_eq_true, false_and, if_false]
    rfl
  · exact operatorOf_steady _ near far

theorem testName_steady : Steady window testName := by
  intro near far
  apply Alike.current_or
  · intro inside
    split
    · exact .advance_bind inside (.pure _)
    · exact .advance_bind inside (.pure _)
    · exact .advance_bind inside (.pure _)
    · exact dottedName_steady window near far
  · intro token boundary
    rcases Token.isBoundary_cases boundary with isKind | isKind | isKind | isKind <;>
      simp only [isKind] <;> rfl
  · exact dottedName_steady window near far

section

variable {deeper : Deeper} (below : deeper.Steady window)

include below

theorem callArgument_steady (before : List Expr × List (Named Expr)) :
    Steady window (callArgument deeper before) := by
  intro near far
  apply Alike.current
  · intro inside
    have positional : Alike window window.Beside near far
        (do
          let value ← deeper.conditional
          if before.2.isEmpty then return (before.1 ++ [value], before.2)
          else throw (.violation .positionalAfterKeyword (window.near.get near).span))
        (do
          let value ← deeper.conditional
          if before.2.isEmpty then return (before.1 ++ [value], before.2)
          else throw (.violation .positionalAfterKeyword (window.near.get near).span)) := by
      apply (below.conditional near far).bind
      intro value near far outcome
      split
      · exact .pure _
      · exact .throw _
    apply Alike.peek_or inside
    · intro further
      split
      · next isNamed =>
        apply (identifier_steady window near far).bind
        intro name near' far' outcome
        rw [identifier_eq_of_name isNamed.1, window.next_near inside] at outcome
        cases outcome
        apply Alike.advance_bind further
        exact below.conditional.bind (fun value => .pure _) _ _
      · exact positional
    · intro token boundary
      exact if_neg fun isNamed => Token.kind_ne_of_isBoundary boundary rfl isNamed.2
    · exact positional
  · intro atLimit
    have notNear : (window.near.get window.limit).kind ≠ .name :=
      Token.kind_ne_of_isBoundary window.isBoundary_near rfl
    have notFar : (window.far.get (window.limit + window.shift)).kind ≠ .name :=
      Token.kind_ne_of_isBoundary window.isBoundary_far rfl
    simp only [notNear, notFar, false_and, if_false, peek_bind_const]
    exact Alike.bind_atSeam below.conditional (below.inside.conditional _) atLimit

theorem callArguments_steady : Steady window (callArguments deeper) :=
  (expect_steady window rfl _).bind fun _ => commaList_steady window rfl
    (fun _ _ => callArgument_reads window.isClosed_near below.inside _)
    fun _ => callArgument_steady below _

theorem listLiteral_steady : Steady window (listLiteral deeper) := by
  refine (expect_steady window rfl _).bind fun opening => ?_
  refine (commaList_steady window rfl (fun items start => ?_) fun items => ?_).bind
    fun items near far => .originAt_bind (.pure _)
  · exact .bind (below.inside.conditional start) fun _ _ => .pure _
  · exact below.conditional.bind fun _ => .pure _

theorem slicePart_steady : Steady window (slicePart deeper) := by
  have present : Steady window (do return some (← deeper.conditional)) :=
    below.conditional.bind fun _ => .pure _
  intro near far
  apply Alike.current_or
  · intro inside
    split
    · exact .pure _
    · exact .pure _
    · exact present near far
  · intro token boundary
    rcases Token.isBoundary_cases boundary with isKind | isKind | isKind | isKind <;>
      simp only [isKind] <;> rfl
  · exact present near far

theorem sliceFrom_alike {near far : Nat} (inside : near < window.limit) (line : Nat)
    (first : Option Expr) :
    Alike window window.Beside near far (sliceFrom deeper line first)
      (sliceFrom deeper line first) := by
  apply Alike.advance_bind inside
  apply (slicePart_steady below _ _).bind
  intro stop near far outcome
  apply (skipIf_steady window rfl near far).bind
  intro hasStep near far outcome
  cases hasStep with
  | true =>
      apply (slicePart_steady below near far).bind
      intro step near far outcome
      exact .originAt_bind (.pure _)
  | false =>
      simp only [Bool.false_eq_true, if_false, pure_bind]
      exact .originAt_bind (.pure _)

theorem subscript_steady : Steady window (subscript deeper) := by
  have afterStart (line : Nat) (start : Expr) : Steady window (do
      if (← current).kind = .colon then sliceFrom deeper line (some start) else return start) := by
    intro near far
    apply Alike.current_or
    · intro inside
      split
      · exact sliceFrom_alike below inside _ _
      · exact .pure _
    · intro token boundary
      exact if_neg (Token.kind_ne_of_isBoundary boundary rfl)
    · exact .pure _
  intro near far
  apply Alike.current
  · intro inside
    split
    · exact sliceFrom_alike below inside _ _
    · apply (below.conditional near far).bind
      intro start near far outcome
      exact afterStart _ start near far
  · intro atLimit
    rw [if_neg (Token.kind_ne_of_isBoundary window.isBoundary_near rfl),
      if_neg (Token.kind_ne_of_isBoundary window.isBoundary_far rfl)]
    exact Alike.bind_atSeam below.conditional (below.inside.conditional _) atLimit

theorem suffix_steady (value : Expr) : Steady window (suffix deeper value) := by
  intro near far
  apply Alike.originAt_bind
  apply Alike.current_or
  · intro inside
    split
    · apply Alike.advance_bind inside
      apply Alike.current_or_refuse "attribute name"
      · intro further
        split
        · exact literal_steady.bind (fun _ => .pure _) _ _
        · exact .advance_bind further (.pure _)
        · exact .throw _
      · intro token boundary
        rcases Token.isBoundary_cases boundary with isKind | isKind | isKind | isKind <;>
          simp only [isKind, Token.word?_of_isBoundary boundary]
    · apply Alike.advance_bind inside
      apply (subscript_steady below _ _).bind
      intro index near far outcome
      exact (expect_steady window rfl _).bind (fun _ => .pure _) near far
    · exact (callArguments_steady below).bind (fun _ => .pure _) near far
    · exact .pure _
  · intro token boundary
    rcases Token.isBoundary_cases boundary with isKind | isKind | isKind | isKind <;>
      simp only [isKind] <;> rfl
  · exact .pure _

theorem primary_steady : Steady window (primary deeper) := by
  intro near far
  apply Alike.current_or_refuse "expression"
  · intro inside
    split
    · exact .advance_bind inside (.originAt_bind (.pure _))
    · apply Alike.advance_bind inside
      apply (below.conditional _ _).bind
      intro inner near far outcome
      exact (expect_steady window rfl _).bind (fun _ => .pure _) near far
    · exact listLiteral_steady below near far
    · split
      · exact literal_steady near far
      · exact .throw _
  · intro token boundary
    rcases Token.isBoundary_cases boundary with isKind | isKind | isKind | isKind <;>
      simp only [isKind, Token.Kind.isLiteral] <;> rfl

theorem unaryRule_steady : Steady window (unaryRule deeper) := by
  have suffixed : Steady window (suffixRule deeper) :=
    (primary_steady below).bind fun value => .loop (suffix_steady below) value
  intro near far
  apply Alike.current_or
  · intro inside
    split
    · apply Alike.advance_bind inside
      apply (below.unary _ _).bind
      intro operand near far outcome
      exact .originAt_bind (.pure _)
    · exact suffixed near far
  · intro token boundary
    rw [unary_of_isBoundary boundary]
  · exact suffixed near far

theorem sum_steady : Steady window (sum deeper) :=
  chain_steady (operatorOf_steady _) <| chain_steady (operatorOf_steady _) <|
    chain_steady (operatorOf_steady _) (unaryRule_steady below)

theorem filterCall_steady : Steady window (filterCall deeper) := by
  refine (dottedName_steady window).bind fun called near far => ?_
  apply Alike.current_or
  · intro inside
    split
    · exact (callArguments_steady below).bind (fun _ => .pure _) near far
    · exact .pure _
  · intro token boundary
    exact if_neg (Token.kind_ne_of_isBoundary boundary rfl)
  · exact .pure _

theorem filterRule_steady : Steady window (filterRule deeper) := by
  refine (sum_steady below).bind fun value => .loop (fun value => ?_) value
  refine (skipIf_steady window rfl).bind fun isPipe => ?_
  cases isPipe with
  | true => exact (filterCall_steady below).bind fun _ near far => .originAt_bind (.pure _)
  | false => exact .pure _

theorem testArguments_steady : Steady window (testArguments deeper) := by
  intro near far
  apply Alike.current_or
  · intro inside
    dsimp only
    split
    · exact callArguments_steady below near far
    · split
      · exact (unaryRule_steady below).bind (fun _ => .pure _) near far
      · exact .pure _
  · intro token boundary
    rcases Token.isBoundary_cases boundary with isKind | isKind | isKind | isKind <;>
      simp only [isKind, beginsBareArgument] <;> rfl
  · exact .pure _

theorem testRule_steady : Steady window (testRule deeper) := by
  refine (filterRule_steady below).bind fun value => .loop (fun value => ?_) value
  refine (skipIf_steady window rfl).bind fun isTest => ?_
  cases isTest with
  | true =>
      refine (skipIf_steady window rfl).bind fun negated => ?_
      refine testName_steady.bind fun name => ?_
      exact (testArguments_steady below).bind fun _ near far => .originAt_bind (.pure _)
  | false => exact .pure _

theorem negationRule_steady : Steady window (negationRule deeper) := by
  have compared : Steady window (comparison deeper) :=
    chain_steady comparisonOperator_steady (testRule_steady below)
  intro near far
  apply Alike.current_or
  · intro inside
    split
    · apply Alike.advance_bind inside
      apply (below.negation _ _).bind
      intro operand near far outcome
      exact .originAt_bind (.pure _)
    · exact compared near far
  · intro token boundary
    exact if_neg (by simp [isKeyword_of_isBoundary boundary])
  · exact compared near far

theorem disjunction_steady : Steady window (disjunction deeper) :=
  chain_steady (operatorOf_steady _) <| chain_steady (operatorOf_steady _) <|
    negationRule_steady below

theorem conditionalRule_steady : Steady window (conditionalRule deeper) := by
  refine (disjunction_steady below).bind fun value => .loop (fun value => ?_) value
  refine (skipIf_steady window rfl).bind fun isIf => ?_
  cases isIf with
  | true =>
      refine (disjunction_steady below).bind fun condition => ?_
      refine (skipIf_steady window rfl).bind fun isElse => ?_
      cases isElse with
      | true => exact below.conditional.map.bind fun _ near far => .originAt_bind (.pure _)
      | false =>
          intro near far
          simp only [Bool.false_eq_true, if_false, pure_bind]
          exact .originAt_bind (.pure _)
  | false => exact .pure _

end

variable [Limits]

/-- Where no level is left, the rules fail, with an error that is not compared. -/
theorem tooDeep_steady {α : Type} : Steady window (tooDeep : Reading α) := by
  intro near far low places
  exact .deep

/-- Whatever number of levels is left, the rules one level deeper do the same in a window. -/
theorem deeper_steady (levels : Nat) : (Expr.deeper levels).Steady window := by
  induction levels with
  | zero =>
      exact ⟨tooDeep_steady, tooDeep_steady, tooDeep_steady,
        deeper_inside window.isClosed_near 0⟩
  | succ levels ih =>
      exact ⟨conditionalRule_steady ih, negationRule_steady ih, unaryRule_steady ih,
        deeper_inside window.isClosed_near (levels + 1)⟩

theorem parse_steady (levels : Nat) : Steady window (parse levels) :=
  (deeper_steady levels).conditional

theorem parseUnconditional_steady (levels : Nat) :
    Steady window (parseUnconditional levels) := by
  cases levels with
  | zero => exact tooDeep_steady
  | succ levels => exact disjunction_steady (deeper_steady levels)

end Stencil.Expr

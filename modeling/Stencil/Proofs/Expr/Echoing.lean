import Stencil.Proofs.Expr.Stopping
import Stencil.Proofs.Parse.Echoing

/-!
# Expressions before a name

An expression that is read up to the end of a tag is read in the same way where a name stands in
the place of that end, with one exception: a test that has no arguments takes the name for its
argument.
-/

namespace Stencil.Expr

open Reading

/-! ### Trees without lines -/

mutual

/-- An expression without the lines of its nodes. -/
def forgetLines : Expr → Expr
  | name origin id => name origin.forgetLine id
  | string origin value => string origin.forgetLine value
  | integer origin value => integer origin.forgetLine value
  | float origin value => float origin.forgetLine value
  | boolean origin value => boolean origin.forgetLine value
  | null origin => null origin.forgetLine
  | list origin items => list origin.forgetLine (forgetLinesOfList items)
  | binary origin op left right => binary origin.forgetLine op left.forgetLines right.forgetLines
  | unary origin op operand => unary origin.forgetLine op operand.forgetLines
  | conditional origin condition value otherwise =>
    conditional origin.forgetLine condition.forgetLines value.forgetLines
      (forgetLinesOfOption otherwise)
  | call origin callee args kwargs =>
    call origin.forgetLine callee.forgetLines (forgetLinesOfList args) (forgetLinesOfNamed kwargs)
  | filter origin value called args kwargs =>
    filter origin.forgetLine value.forgetLines called (forgetLinesOfList args)
      (forgetLinesOfNamed kwargs)
  | test origin value called args kwargs negated =>
    test origin.forgetLine value.forgetLines called (forgetLinesOfList args)
      (forgetLinesOfNamed kwargs) negated
  | attr origin value member => attr origin.forgetLine value.forgetLines member
  | item origin value index => item origin.forgetLine value.forgetLines index.forgetLines
  | slice origin start stop step =>
    slice origin.forgetLine (forgetLinesOfOption start) (forgetLinesOfOption stop)
      (forgetLinesOfOption step)

/-- The expressions of a list without their lines. -/
def forgetLinesOfList : List Expr → List Expr
  | [] => []
  | expr :: rest => expr.forgetLines :: forgetLinesOfList rest

/-- Named expressions without their lines. -/
def forgetLinesOfNamed : List (Named Expr) → List (Named Expr)
  | [] => []
  | ⟨key, expr⟩ :: rest => ⟨key, expr.forgetLines⟩ :: forgetLinesOfNamed rest

/-- An expression that may be missing, without its lines. -/
def forgetLinesOfOption : Option Expr → Option Expr
  | none => none
  | some expr => some expr.forgetLines

end

/-- The arguments of a call without their lines. -/
def forgetLinesOfArguments (given : List Expr × List (Named Expr)) :
    List Expr × List (Named Expr) :=
  (forgetLinesOfList given.1, forgetLinesOfNamed given.2)

/-- A filter without the lines of its arguments. -/
def forgetLinesOfCall (call : FilterCall) : FilterCall :=
  ⟨call.name, forgetLinesOfList call.args, forgetLinesOfNamed call.kwargs⟩

theorem forgetLinesOfList_append (items : List Expr) (expr : Expr) :
    forgetLinesOfList (items ++ [expr]) = forgetLinesOfList items ++ [expr.forgetLines] := by
  induction items with
  | nil => rfl
  | cons item items ih => simp only [List.cons_append, forgetLinesOfList, ih]

theorem forgetLinesOfNamed_append (kwargs : List (Named Expr)) (kwarg : Named Expr) :
    forgetLinesOfNamed (kwargs ++ [kwarg]) =
      forgetLinesOfNamed kwargs ++ [⟨kwarg.name, kwarg.value.forgetLines⟩] := by
  induction kwargs with
  | nil => rfl
  | cons first kwargs ih => simp only [List.cons_append, forgetLinesOfNamed, ih]

theorem isEmpty_of_forgetLinesOfList {items items' : List Expr}
    (same : forgetLinesOfList items' = forgetLinesOfList items) :
    items'.isEmpty = items.isEmpty := by
  cases items <;> cases items' <;> simp_all [forgetLinesOfList]

theorem isEmpty_of_forgetLinesOfNamed {kwargs kwargs' : List (Named Expr)}
    (same : forgetLinesOfNamed kwargs' = forgetLinesOfNamed kwargs) :
    kwargs'.isEmpty = kwargs.isEmpty := by
  cases kwargs <;> cases kwargs' <;> simp_all [forgetLinesOfNamed]

/-! ### The rules -/

variable {echo : Echo} {left : List Lexeme}

theorem stringLiteral_echoes : Echoes echo id left stringLiteral stringLiteral := by
  apply Echoes.loop
  · rintro value _ left rfl
    cases left with
    | nil =>
        apply Echoes.current_nil
        intro token token' isEnd isName
        rw [if_neg (by simp [isEnd]), if_neg (by simp [isName])]
        exact .pure rfl
    | cons lexeme rest =>
        apply Echoes.current_cons
        rintro token token' _ sameKind sameText
        rw [sameKind, sameText]
        split
        · exact .advance_bind fun _ _ _ _ => .pure rfl
        · exact .pure rfl
  · rfl

theorem literal_echoes : Echoes echo forgetLines left literal literal := by
  cases left with
  | nil => exact .of_reads fun _ => literal_reads echo.isClosed
  | cons lexeme rest =>
      apply Echoes.current_cons
      intro token token' _ sameKind sameText
      apply Echoes.originAt_bind
      intro origin origin' sameOrigin
      rw [sameKind, sameText]
      split
      · apply stringLiteral_echoes.bind_same
        intro value left
        exact .pure (congrArg (string · value) sameOrigin)
      · split
        · exact .advance_bind fun _ _ _ _ => .pure (congrArg (integer · _) sameOrigin)
        · exact .throw _
      · split
        · exact .advance_bind fun _ _ _ _ => .pure (congrArg (float · _) sameOrigin)
        · exact .throw _
      · exact .advance_bind fun _ _ _ _ => .pure (congrArg (boolean · _) sameOrigin)
      · exact .advance_bind fun _ _ _ _ => .pure (congrArg null sameOrigin)
      · exact .refuse _ _

theorem chain_echoes {operator? : Reading (Option BinaryOp)} {operand : Reading Expr}
    (operators : ∀ left, Echoes echo id left operator? operator?)
    (operands : ∀ left, Echoes echo forgetLines left operand operand) :
    Echoes echo forgetLines left (chain operator? operand) (chain operator? operand) := by
  apply (operands left).bind
  intro first first' left sameFirst
  refine .loop (fun value value' left sameValue => ?_) sameFirst
  apply (operators left).bind_same
  intro op left
  cases op with
  | none => exact .pure (congrArg ForInStep.done sameValue)
  | some op =>
      apply (operands left).bind
      intro right right' left sameRight
      apply Echoes.originAt_bind
      intro origin origin' sameOrigin
      exact .pure (by simp only [viewStep, forgetLines, sameOrigin, sameValue, sameRight])

theorem operatorOf_echoes (choice : List BinaryOp) :
    Echoes echo id left (operatorOf choice) (operatorOf choice) := by
  cases left with
  | nil =>
      apply Echoes.current_nil
      intro token token' isEnd isName
      rw [isEnd, isName]
      exact .pure rfl
  | cons lexeme rest =>
      apply Echoes.current_cons
      intro token token' _ sameKind _
      rw [sameKind]
      split
      · split
        · exact .advance_bind fun _ _ _ _ => .pure rfl
        · exact .pure rfl
      · exact .pure rfl

theorem comparisonOperator_echoes :
    Echoes echo id left comparisonOperator comparisonOperator := by
  cases left with
  | nil =>
      apply Echoes.current_nil
      intro token token' isEnd isName
      apply Echoes.peek_any
      intro following following'
      rw [if_neg (by simp [Token.isKeyword, isEnd]), if_neg (by simp [Token.isKeyword, isName])]
      exact operatorOf_echoes _
  | cons lexeme rest =>
      apply Echoes.current_cons
      intro token token' _ sameKind _
      apply Echoes.peek_cons
      · rintro following following' rest rfl sameFollowing
        rw [Token.isKeyword_congr sameKind, Token.isKeyword_congr sameFollowing]
        split
        · exact .advance_bind fun _ _ _ _ => .advance_bind fun _ _ _ _ => .pure rfl
        · exact operatorOf_echoes _
      · intro following following' _ isEnd isName
        rw [if_neg (by simp [Token.isKeyword, isEnd]), if_neg (by simp [Token.isKeyword, isName])]
        exact operatorOf_echoes _

theorem tooDeep_echoes [Limits] : Echoes echo forgetLines left tooDeep tooDeep := by
  intro near far beside value stop outcome
  cases outcome

/-- The rules one level deeper are repeated, and read tokens of a tag. -/
structure Deeper.Echoing (echo : Echo) (deeper : Deeper) : Prop where
  conditional : ∀ left, Echoes echo forgetLines left deeper.conditional deeper.conditional
  negation : ∀ left, Echoes echo forgetLines left deeper.negation deeper.negation
  unary : ∀ left, Echoes echo forgetLines left deeper.unary deeper.unary
  inside : deeper.Inside echo.near

section

variable {deeper : Deeper} (below : deeper.Echoing echo)

include below

theorem callArgument_echoes {before before' : List Expr × List (Named Expr)}
    (same : forgetLinesOfArguments before' = forgetLinesOfArguments before) :
    Echoes echo forgetLinesOfArguments left (callArgument deeper before)
      (callArgument deeper before') := by
  have sameArgs := congrArg Prod.fst same
  have sameKwargs := congrArg Prod.snd same
  have positional (left : List Lexeme) (token token' : Token) :
      Echoes echo forgetLinesOfArguments left
        (do
          let value ← deeper.conditional
          if before.2.isEmpty then return (before.1 ++ [value], before.2)
          else throw (.violation .positionalAfterKeyword token.span))
        (do
          let value ← deeper.conditional
          if before'.2.isEmpty then return (before'.1 ++ [value], before'.2)
          else throw (.violation .positionalAfterKeyword token'.span)) := by
    apply (below.conditional left).bind
    intro value value' left sameValue
    rw [isEmpty_of_forgetLinesOfNamed sameKwargs]
    split
    · apply Echoes.pure
      simp only [forgetLinesOfArguments] at sameArgs sameKwargs ⊢
      rw [forgetLinesOfList_append, forgetLinesOfList_append, sameArgs, sameKwargs, sameValue]
    · exact .throw _
  cases left with
  | nil => exact .of_reads fun _ => callArgument_reads echo.isClosed below.inside before
  | cons lexeme rest =>
      apply Echoes.current_cons
      rintro token token' rfl sameKind _
      apply Echoes.peek_cons
      · rintro following following' rest rfl sameFollowing
        rw [sameKind, sameFollowing]
        split
        · next isNamed =>
          refine identifier_bind_echoes isNamed.1 (.advance_bind fun _ _ _ _ => ?_)
          apply (below.conditional _).bind
          intro value value' left sameValue
          apply Echoes.pure
          simp only [forgetLinesOfArguments] at sameArgs sameKwargs ⊢
          rw [forgetLinesOfNamed_append, forgetLinesOfNamed_append, sameArgs, sameKwargs, sameValue]
        · exact positional _ token token'
      · intro following following' _ isEnd isName
        rw [if_neg (by simp [isEnd]), if_neg (by simp [isName])]
        exact positional _ token token'

theorem callArguments_echoes :
    Echoes echo forgetLinesOfArguments left (callArguments deeper) (callArguments deeper) := by
  apply (expect_echoes (by decide) _).bind
  intro _ _ left _
  apply commaList_echoes (by decide) (by decide)
  · intro items items' same
    change (items'.1.isEmpty && items'.2.isEmpty) = (items.1.isEmpty && items.2.isEmpty)
    rw [isEmpty_of_forgetLinesOfList (congrArg Prod.fst same),
      isEmpty_of_forgetLinesOfNamed (congrArg Prod.snd same)]
  · intro items items' left same
    exact callArgument_echoes below same
  · exact fun _ _ => callArgument_reads echo.isClosed below.inside _
  · rfl

theorem listLiteral_echoes :
    Echoes echo forgetLines left (listLiteral deeper) (listLiteral deeper) := by
  apply (expect_echoes (by decide) _).bind
  intro opening opening' left _
  have items : Echoes echo forgetLinesOfList left
      (commaList .rbracket "',' or ']'" List.isEmpty
        (fun items => do return items ++ [← deeper.conditional]) [])
      (commaList .rbracket "',' or ']'" List.isEmpty
        (fun items => do return items ++ [← deeper.conditional]) []) := by
    apply commaList_echoes (by decide) (by decide)
    · intro items items' same
      exact isEmpty_of_forgetLinesOfList same
    · intro items items' left same
      apply (below.conditional left).bind
      intro value value' left sameValue
      apply Echoes.pure
      rw [forgetLinesOfList_append, forgetLinesOfList_append, same, sameValue]
    · exact fun _ start => .bind (below.inside.conditional start) fun _ _ => .pure _
    · rfl
  apply items.bind
  intro items items' left sameItems
  apply Echoes.originAt_bind
  intro origin origin' sameOrigin
  exact .pure (by simp only [forgetLines, sameOrigin, sameItems])

theorem slicePart_echoes :
    Echoes echo forgetLinesOfOption left (slicePart deeper) (slicePart deeper) := by
  have present (left : List Lexeme) : Echoes echo forgetLinesOfOption left
      (do return some (← deeper.conditional)) (do return some (← deeper.conditional)) := by
    apply (below.conditional left).bind
    intro value value' left sameValue
    exact .pure (congrArg some sameValue)
  cases left with
  | nil =>
      apply Echoes.current_nil
      intro token token' isEnd isName
      rw [isEnd, isName]
      exact present []
  | cons lexeme rest =>
      apply Echoes.current_cons
      intro token token' _ sameKind _
      rw [sameKind]
      split
      · exact .pure rfl
      · exact .pure rfl
      · exact present _

theorem sliceFrom_echoes {lexeme : Lexeme} (line line' : Nat) {first first' : Option Expr}
    (sameFirst : forgetLinesOfOption first' = forgetLinesOfOption first) :
    Echoes echo forgetLines (lexeme :: left) (sliceFrom deeper line first)
      (sliceFrom deeper line' first') := by
  refine .advance_bind fun _ _ _ _ => ?_
  apply (slicePart_echoes below).bind
  intro stop stop' left sameStop
  apply (skipIf_echoes (by decide) (by decide)).bind_same
  intro hasStep left
  have whole {step step' : Reading (Option Expr)}
      (steps : Echoes echo forgetLinesOfOption left step step') : Echoes echo forgetLines left
        (do
          let step ← step
          return .slice (← originAt line) first stop step)
        (do
          let step ← step'
          return .slice (← originAt line') first' stop' step) := by
    apply steps.bind
    intro step step' left sameStep
    apply Echoes.originAt_bind
    intro origin origin' sameOrigin
    exact .pure (by simp only [forgetLines, sameOrigin, sameFirst, sameStop, sameStep])
  cases hasStep with
  | true => exact whole (slicePart_echoes below)
  | false => exact whole (.pure rfl)

theorem subscript_echoes :
    Echoes echo forgetLines left (subscript deeper) (subscript deeper) := by
  cases left with
  | nil => exact .of_reads fun _ => subscript_reads echo.isClosed below.inside
  | cons lexeme rest =>
      apply Echoes.current_cons
      intro token token' _ sameKind _
      rw [sameKind]
      split
      · exact sliceFrom_echoes below _ _ rfl
      · apply (below.conditional _).bind
        intro start start' left sameStart
        cases left with
        | nil =>
            apply Echoes.current_nil
            intro following following' isEnd isName
            rw [if_neg (by simp [isEnd]), if_neg (by simp [isName])]
            exact .pure sameStart
        | cons lexeme rest =>
            apply Echoes.current_cons
            intro following following' _ sameFollowing _
            rw [sameFollowing]
            split
            · exact sliceFrom_echoes below _ _ (congrArg some sameStart)
            · exact .pure sameStart

theorem suffix_echoes {value value' : Expr} (same : value'.forgetLines = value.forgetLines) :
    Echoes echo (viewStep forgetLines) left (suffix deeper value) (suffix deeper value') := by
  apply Echoes.originAt_bind
  intro origin origin' sameOrigin
  cases left with
  | nil =>
      apply Echoes.current_nil
      intro token token' isEnd isName
      rw [isEnd, isName]
      exact .pure (congrArg ForInStep.done same)
  | cons lexeme rest =>
      apply Echoes.current_cons
      intro token token' _ sameKind _
      rw [sameKind]
      split
      · refine .advance_bind fun _ _ _ _ => ?_
        cases rest with
        | nil =>
            apply Echoes.current_nil
            intro member member' isEnd isName
            simp only [isEnd, Token.word?]
            exact .refuse _ _
        | cons lexeme rest =>
            apply Echoes.current_cons
            intro member member' _ sameMember sameText
            rw [sameMember, Token.word?_congr sameMember sameText]
            split
            · apply literal_echoes.bind
              intro index index' left sameIndex
              exact .pure (by simp only [viewStep, forgetLines, sameOrigin, same, sameIndex])
            · refine .advance_bind fun _ _ _ _ => ?_
              exact .pure (by simp only [viewStep, forgetLines, sameOrigin, same])
            · exact .refuse _ _
      · refine .advance_bind fun _ _ _ _ => ?_
        apply (subscript_echoes below).bind
        intro index index' left sameIndex
        apply (expect_echoes (by decide) _).bind
        intro _ _ left _
        exact .pure (by simp only [viewStep, forgetLines, sameOrigin, same, sameIndex])
      · apply (callArguments_echoes below).bind
        intro given given' left sameGiven
        have sameArgs := congrArg Prod.fst sameGiven
        have sameKwargs := congrArg Prod.snd sameGiven
        simp only [forgetLinesOfArguments] at sameArgs sameKwargs
        exact .pure (by simp only [viewStep, forgetLines, sameOrigin, same, sameArgs, sameKwargs])
      · exact .pure (congrArg ForInStep.done same)

theorem primary_echoes : Echoes echo forgetLines left (primary deeper) (primary deeper) := by
  cases left with
  | nil => exact .of_reads fun _ => primary_reads echo.isClosed below.inside
  | cons lexeme rest =>
      apply Echoes.current_cons
      intro token token' _ sameKind sameText
      rw [sameKind, sameText]
      split
      · refine .advance_bind fun _ _ _ _ => ?_
        apply Echoes.originAt_bind
        intro origin origin' sameOrigin
        exact .pure (congrArg (name · token.text) sameOrigin)
      · refine .advance_bind fun _ _ _ _ => ?_
        apply (below.conditional _).bind
        intro inner inner' left sameInner
        apply (expect_echoes (by decide) _).bind
        intro _ _ left _
        exact .pure sameInner
      · exact listLiteral_echoes below
      · split
        · exact literal_echoes
        · exact .refuse _ _

theorem unaryRule_echoes : Echoes echo forgetLines left (unaryRule deeper) (unaryRule deeper) := by
  have suffixed (left : List Lexeme) :
      Echoes echo forgetLines left (suffixRule deeper) (suffixRule deeper) := by
    apply (primary_echoes below).bind
    intro value value' left sameValue
    exact .loop (fun _ _ _ => suffix_echoes below) sameValue
  cases left with
  | nil =>
      apply Echoes.current_nil
      intro token token' isEnd isName
      rw [isEnd, isName]
      exact suffixed []
  | cons lexeme rest =>
      apply Echoes.current_cons
      intro token token' _ sameKind _
      rw [sameKind]
      split
      · refine .advance_bind fun _ _ _ _ => ?_
        apply (below.unary _).bind
        intro operand operand' left sameOperand
        apply Echoes.originAt_bind
        intro origin origin' sameOrigin
        exact .pure (by simp only [forgetLines, sameOrigin, sameOperand])
      · exact suffixed _

theorem sum_echoes : Echoes echo forgetLines left (sum deeper) (sum deeper) :=
  chain_echoes (fun _ => operatorOf_echoes _) fun _ =>
    chain_echoes (fun _ => operatorOf_echoes _) fun _ =>
      chain_echoes (fun _ => operatorOf_echoes _) fun _ => unaryRule_echoes below

theorem testArguments_echoes (notEnded : left ≠ []) :
    Echoes echo forgetLinesOfArguments left (testArguments deeper) (testArguments deeper) := by
  cases left with
  | nil => exact absurd rfl notEnded
  | cons lexeme rest =>
      apply Echoes.current_cons
      intro token token' _ sameKind _
      rw [sameKind]
      dsimp only
      split
      · exact callArguments_echoes below
      · split
        · apply (unaryRule_echoes below).bind
          intro value value' left sameValue
          apply Echoes.pure
          simp only [forgetLinesOfArguments, forgetLinesOfList, sameValue]
        · exact .pure rfl

/-! Names joined by points are repeated if the word does not end with a point. -/

variable (noPoint : ∀ lexeme ∈ echo.word.getLast?, lexeme.kind ≠ .dot)

include noPoint

theorem filterCall_echoes :
    Echoes echo forgetLinesOfCall left (filterCall deeper) (filterCall deeper) := by
  apply (dottedName_echoes noPoint).bind_same
  intro called left
  cases left with
  | nil =>
      apply Echoes.current_nil
      intro token token' isEnd isName
      rw [if_neg (by simp [isEnd]), if_neg (by simp [isName])]
      exact .pure rfl
  | cons lexeme rest =>
      apply Echoes.current_cons
      intro token token' _ sameKind _
      rw [sameKind]
      split
      · apply (callArguments_echoes below).bind
        intro given given' left sameGiven
        exact .pure (congrArg (fun given : List Expr × List (Named Expr) =>
          FilterCall.mk called given.1 given.2) sameGiven)
      · exact .pure rfl

theorem filterRule_echoes :
    Echoes echo forgetLines left (filterRule deeper) (filterRule deeper) := by
  apply (sum_echoes below).bind
  intro value value' left sameValue
  refine .loop (fun value value' left sameValue => ?_) sameValue
  apply (skipIf_echoes (by decide) (by decide)).bind_same
  intro isPipe left
  split
  · apply (filterCall_echoes below noPoint).bind
    intro applied applied' left sameApplied
    have sameName := congrArg FilterCall.name sameApplied
    have sameArgs := congrArg FilterCall.args sameApplied
    have sameKwargs := congrArg FilterCall.kwargs sameApplied
    simp only [forgetLinesOfCall] at sameName sameArgs sameKwargs
    apply Echoes.originAt_bind
    intro origin origin' sameOrigin
    exact .pure (by
      simp only [viewStep, forgetLines, sameOrigin, sameValue, sameName, sameArgs, sameKwargs])
  · exact .pure (congrArg ForInStep.done sameValue)

omit below in
theorem testName_echoes : Echoes echo id left testName testName := by
  cases left with
  | nil => exact .of_reads fun _ => testName_reads echo.isClosed
  | cons lexeme rest =>
      apply Echoes.current_cons
      intro token token' _ sameKind sameText
      rw [sameKind, sameText]
      split
      · exact .advance_bind fun _ _ _ _ => .pure rfl
      · exact .advance_bind fun _ _ _ _ => .pure rfl
      · exact .advance_bind fun _ _ _ _ => .pure rfl
      · exact dottedName_echoes noPoint

variable (noTest : endsInTest echo.word = false)

include noTest

omit below noPoint in
/-- After the name of a test, some tokens of the word are left. -/
theorem ne_nil_of_testName_leads {negated : Bool} {name : String}
    {afterIs afterNot afterName : List Lexeme} (isSuffix : left <:+ echo.word)
    (isTest : echo.Leads left (skipIf (.keyword .is_)) true afterIs)
    (negation : echo.Leads afterIs (skipIf (.keyword .not_)) negated afterNot)
    (named : echo.Leads afterNot testName name afterName) : afterName ≠ [] := by
  rintro rfl
  rcases skipIf_leads (by decide) isTest with ⟨_, is_, isIs, rfl⟩ | ⟨noTest, _⟩
  · rcases named.exists_eq_append (fun _ => testName_accounts echo.isClosed) with
      ⟨tokens, spells, rfl⟩
    rw [List.append_nil] at negation
    have isWord := isTestWord_of_spellsTest spells
    have isBare : isBareTest (is_ :: afterIs) = true := by
      rcases skipIf_leads (by decide) negation with ⟨_, not_, isNot, rfl⟩ | ⟨_, rfl⟩
      · exact isBareTest_not isIs isNot isWord
      · exact isBareTest_cons isIs isWord
    have ends : endsInTest echo.word = true :=
      List.any_eq_true.2 ⟨_, (List.mem_tails _ _).2 isSuffix, isBare⟩
    rw [noTest] at ends
    cases ends
  · cases noTest

theorem testStep_echoes {value value' : Expr} (same : value'.forgetLines = value.forgetLines) :
    Echoes echo (viewStep forgetLines) left (testStep deeper value) (testStep deeper value') := by
  apply Echoes.of_isSuffix
  intro isSuffix
  apply (skipIf_echoes (by decide) (by decide)).bind_same_of_leads
  intro isTest afterIs test
  cases isTest with
  | false => exact .pure (congrArg ForInStep.done same)
  | true =>
      apply (skipIf_echoes (by decide) (by decide)).bind_same_of_leads
      intro negated afterNot negation
      apply (testName_echoes noPoint).bind_same_of_leads
      intro called afterName named
      have notEnded := ne_nil_of_testName_leads noTest isSuffix test negation named
      apply (testArguments_echoes below notEnded).bind
      intro given given' left sameGiven
      have sameArgs := congrArg Prod.fst sameGiven
      have sameKwargs := congrArg Prod.snd sameGiven
      simp only [forgetLinesOfArguments] at sameArgs sameKwargs
      apply Echoes.originAt_bind
      intro origin origin' sameOrigin
      exact .pure (by
        simp only [viewStep, forgetLines, sameOrigin, same, sameArgs, sameKwargs])

theorem testRule_echoes : Echoes echo forgetLines left (testRule deeper) (testRule deeper) := by
  apply (filterRule_echoes below noPoint).bind
  intro value value' left sameValue
  exact .loop (fun _ _ _ => testStep_echoes below noPoint noTest) sameValue

theorem negationRule_echoes :
    Echoes echo forgetLines left (negationRule deeper) (negationRule deeper) := by
  have compared (left : List Lexeme) :
      Echoes echo forgetLines left (comparison deeper) (comparison deeper) :=
    chain_echoes (fun _ => comparisonOperator_echoes) fun _ => testRule_echoes below noPoint noTest
  cases left with
  | nil =>
      apply Echoes.current_nil
      intro token token' isEnd isName
      rw [if_neg (by simp [Token.isKeyword, isEnd]), if_neg (by simp [Token.isKeyword, isName])]
      exact compared []
  | cons lexeme rest =>
      apply Echoes.current_cons
      intro token token' _ sameKind _
      rw [Token.isKeyword_congr sameKind]
      split
      · refine .advance_bind fun _ _ _ _ => ?_
        apply (below.negation _).bind
        intro operand operand' left sameOperand
        apply Echoes.originAt_bind
        intro origin origin' sameOrigin
        exact .pure (by simp only [forgetLines, sameOrigin, sameOperand])
      · exact compared _

theorem disjunction_echoes :
    Echoes echo forgetLines left (disjunction deeper) (disjunction deeper) :=
  chain_echoes (fun _ => operatorOf_echoes _) fun _ =>
    chain_echoes (fun _ => operatorOf_echoes _) fun _ => negationRule_echoes below noPoint noTest

theorem conditionalRule_echoes :
    Echoes echo forgetLines left (conditionalRule deeper) (conditionalRule deeper) := by
  apply (disjunction_echoes below noPoint noTest).bind
  intro value value' left sameValue
  refine .loop (fun value value' left sameValue => ?_) sameValue
  apply (skipIf_echoes (by decide) (by decide)).bind_same
  intro isIf left
  split
  · apply (disjunction_echoes below noPoint noTest).bind
    intro condition condition' left sameCondition
    apply (skipIf_echoes (by decide) (by decide)).bind_same
    intro isElse left
    have whole {rule rule' : Reading (Option Expr)}
        (echoes : Echoes echo forgetLinesOfOption left rule rule') :
        Echoes echo (viewStep forgetLines) left
          (do
            let otherwise ← rule
            return .yield (.conditional (← originAt value.line) condition value otherwise))
          (do
            let otherwise ← rule'
            return .yield (.conditional (← originAt value'.line) condition' value' otherwise)) := by
      apply echoes.bind
      intro otherwise otherwise' left sameOtherwise
      apply Echoes.originAt_bind
      intro origin origin' sameOrigin
      exact .pure (by
        simp only [viewStep, forgetLines, sameOrigin, sameValue, sameCondition, sameOtherwise])
    cases isElse with
    | true => exact whole ((below.conditional left).map fun _ _ => congrArg some)
    | false => exact whole (.pure rfl)
  · exact .pure (congrArg ForInStep.done sameValue)

variable [Limits]

omit below in
/-- Whatever number of levels is left, the rules one level deeper are repeated. -/
theorem deeper_echoing (levels : Nat) : (Expr.deeper levels).Echoing echo := by
  have inside := deeper_inside echo.isClosed levels
  induction levels with
  | zero =>
      exact ⟨fun _ => tooDeep_echoes, fun _ => tooDeep_echoes, fun _ => tooDeep_echoes, inside⟩
  | succ levels ih =>
      have below := ih (deeper_inside echo.isClosed levels)
      exact ⟨fun _ => conditionalRule_echoes below noPoint noTest,
        fun _ => negationRule_echoes below noPoint noTest, fun _ => unaryRule_echoes below, inside⟩

omit below in
theorem parse_echoes (levels : Nat) : Echoes echo forgetLines left (parse levels) (parse levels) :=
  (deeper_echoing noPoint noTest levels).conditional left

end

variable [Limits]

/-- An expression that is read up to the end of a tag is read in the same way up to a name, unless
it ends with a test without arguments. -/
theorem parse_before_name {near far : TokenStream} {word nearRest farRest : List Lexeme}
    {levels start stop start' : Nat} {value : Expr} (sameName : far.sourceName = near.sourceName)
    (noTest : endsInTest word = false) (isAhead : near.Ahead start (word ++ nearRest))
    (ends : (Lexeme.next nearRest).kind = .blockEnd)
    (parsed : parse levels near start = .ok value stop) (isRest : near.Ahead stop nearRest)
    (isAhead' : far.Ahead start' (word ++ farRest))
    (goesOn : (Lexeme.next farRest).kind = .name) :
    ∃ value' stop', parse levels far start' = .ok value' stop' ∧ far.Ahead stop' farRest ∧
      value'.forgetLines = value.forgetLines := by
  have closed := isAhead.isClosed
  have reading := (deeper_sound closed levels).conditional start value stop parsed
  have sameWord : word = (near.between start stop).map Token.lexeme := by
    have isNone : near.Ahead stop ([] ++ nearRest) := isRest
    have split := isAhead.between_eq isNone reading.1
    rwa [List.append_nil] at split
  have noPoint : ∀ lexeme ∈ word.getLast?, lexeme.kind ≠ .dot := by
    rcases reading.2.endsWithoutPoint with ⟨before, last, split, notPoint⟩
    rw [sameWord, split]
    simpa [Token.lexeme] using notPoint
  let echo : Echo := ⟨near, far, word, nearRest, farRest, ends, goesOn, closed, sameName⟩
  have echoes : Echoes echo forgetLines word (parse levels) (parse levels) :=
    parse_echoes noPoint noTest levels
  rcases echoes start start' ⟨List.suffix_refl word, isAhead, isAhead'⟩ value stop parsed with
    ⟨value', stop', left, parsed', same, beside⟩
  have noneLeft : left = [] := by
    have sizeRest := isRest.size_eq
    have sizeLeft : near.size = stop + (left ++ nearRest).length + 1 := beside.near_ahead.size_eq
    rw [List.length_append] at sizeLeft
    exact List.length_eq_zero_iff.1 (by omega)
  subst noneLeft
  exact ⟨value', stop', parsed', beside.far_ahead, same⟩

/-- A word that is read as an expression up to a name does not end with a test without arguments. -/
theorem endsInTest_of_stops {stream : TokenStream} {word rest : List Lexeme}
    {levels start stop : Nat} {value : Expr} (isAhead : stream.Ahead start (word ++ rest))
    (parsed : parse levels stream start = .ok value stop) (isRest : stream.Ahead stop rest)
    (goesOn : (Lexeme.next rest).kind = .name) : endsInTest word = false := by
  have closed := isAhead.isClosed
  have inOrder := ((deeper_sound closed levels).conditional start value stop parsed).1
  have isNone : stream.Ahead stop ([] ++ rest) := isRest
  have sameWord := isAhead.between_eq isNone inOrder
  rw [List.append_nil] at sameWord
  rw [sameWord]
  exact endsInTest_of_stops_at_name closed parsed ((congrArg Lexeme.kind isRest.get).trans goesOn)

end Stencil.Expr

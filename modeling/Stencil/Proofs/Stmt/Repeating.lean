import Stencil.Proofs.Expr.Repeating
import Stencil.Proofs.Stmt.Passing
import Stencil.Proofs.Stmt.Steps

/-!
# Repetitions over tokens

The parts of tags that come in any number are read one by one, and each of them reads a token. With
the repetitions inside of expressions these are all the steps that rules over tokens repeat, and
every one of them gets further each time it asks for more.
-/

namespace Stencil

open Reading

namespace Stmt

variable {stream : TokenStream} (closed : stream.IsClosed)

include closed

theorem plainStep_progresses : Progresses stream id plainStep := by
  intro content start more stop outcome
  rw [plainStep, current_bind] at outcome
  split at outcome
  · next isData =>
    have notEnd : (stream.get start).kind ≠ .eof := by simp [isData]
    have inside := closed.lt_size notEnd
    have moved := closed.next_eq notEnd
    cases outcome
    simp only [id]
    omega
  · cases outcome

theorem targetStep_progresses : Progresses stream id targetStep := by
  refine Further.progresses fun targets start => ?_
  refine .bind (skipIf_reads closed rfl) (Nat.le_refl _) fun isComma stop soFar => ?_
  cases isComma with
  | true =>
      refine .current ?_
      split
      · exact .of_reads closed (.bind (identifier_reads closed) fun _ _ => .pure _) soFar
      · exact .done _
  | false => exact .done _

theorem modifierStep_progresses : Progresses stream id modifierStep := by
  -- A word that was skipped has been read; otherwise the step does not ask for more.
  have skipped {start : Nat} (word : String) (flags : Bool × Bool)
      {otherwise : Reading (ForInStep (Bool × Bool))}
      (rest : Further stream start start otherwise) :
      Further stream start start (do
        if ← skipWord word then return .yield flags else otherwise) := by
    by_cases isWord : (stream.get start).isWord word = true
    · have notEnd := Token.Kind.ne_eof_of_isInner (Token.isInner_of_isWord isWord)
      have inside := closed.lt_size notEnd
      have moved := closed.next_eq notEnd
      refine Meets.bind_of_ok (skipWord_eq_of_isWord isWord) fun _ _ => ?_
      omega
    · exact Meets.bind_of_ok (skipWord_eq_of_not isWord) rest
  refine Further.progresses fun flags start => ?_
  exact skipped _ _ (skipped _ _ (.done _))

theorem importStep_progresses : Progresses stream id importStep := by
  refine Further.progresses fun names start => ?_
  refine .bind contextModifier?_reads (Nat.le_refl _) fun modifier stop soFar => ?_
  split
  · exact .done _
  · refine .of_reads closed (.bind (importName_reads closed) fun name stop => ?_) soFar
    refine .bind (skipIf_reads closed rfl) fun isComma stop => ?_
    cases isComma with
    | true => exact .pure _
    | false => exact .pure _

variable {deeper : Expr.Deeper} (below : deeper.Inside stream)

include below

theorem filterStep_progresses : Progresses stream id (filterStep deeper) := by
  refine Further.progresses fun filters start => ?_
  refine .bind (skipIf_reads closed rfl) (Nat.le_refl _) fun isPipe stop soFar => ?_
  cases isPipe with
  | true =>
      exact .of_reads closed (.bind (Expr.filterCall_reads closed below) fun _ _ => .pure _) soFar
  | false => exact .done _

theorem assignmentStep_progresses : Progresses stream id (assignmentStep deeper) := by
  refine Further.progresses fun assignments start => .current ?_
  have assignment (start : Nat) : Reads stream 1 start (do
      let name ← identifier
      let _ ← expect .assign "'='"
      let value ← deeper.conditional
      return ForInStep.yield (assignments ++ [⟨name, value⟩])) := by
    refine .bind (identifier_reads closed) fun _ start => ?_
    refine .bind ((expect_reads closed rfl _).weaken (Nat.zero_le _)) fun _ start => ?_
    exact .bind ((below.conditional start).weaken (Nat.zero_le _)) fun _ _ => .pure _
  split
  · exact .done _
  · dsimp only
    split
    · refine .bind (expect_reads closed rfl _) (Nat.le_refl _) fun _ stop soFar => ?_
      exact .of_reads closed (assignment stop) soFar
    · exact .of_reads closed (assignment start) (Nat.le_refl _)

end Stmt

variable [Limits]

open Stencil.Expr in
/-- The steps that rules over tokens repeat. Those for expressions have a number of levels left for
what is inside of them. -/
inductive Reading.Repeated : {α : Type} → (α → Reading (ForInStep α)) → Prop where
  | dottedName : Repeated dottedStep
  | strings : Repeated stringStep
  | arguments (levels : Nat) :
      Repeated (commaStep .rparen "',' or ')'"
        (fun (args, kwargs) => args.isEmpty && kwargs.isEmpty) (callArgument (deeper levels)))
  | items (levels : Nat) :
      Repeated (commaStep .rbracket "',' or ']'" List.isEmpty
        (fun items => do return items ++ [← (deeper levels).conditional]))
  | suffixes (levels : Nat) : Repeated (suffix (deeper levels))
  | powers (levels : Nat) : Repeated (chainStep (operatorOf [.pow]) (unaryRule (deeper levels)))
  | products (levels : Nat) :
      Repeated (chainStep (operatorOf [.mul, .div, .floorDiv, .mod]) (power (deeper levels)))
  | sums (levels : Nat) :
      Repeated (chainStep (operatorOf [.add, .sub, .concat]) (product (deeper levels)))
  | filters (levels : Nat) : Repeated (Expr.filterStep (deeper levels))
  | tests (levels : Nat) : Repeated (testStep (deeper levels))
  | comparisons (levels : Nat) :
      Repeated (chainStep comparisonOperator (testRule (deeper levels)))
  | conjunctions (levels : Nat) :
      Repeated (chainStep (operatorOf [.and_]) (negationRule (deeper levels)))
  | disjunctions (levels : Nat) :
      Repeated (chainStep (operatorOf [.or_]) (conjunction (deeper levels)))
  | conditions (levels : Nat) : Repeated (conditionalStep (deeper levels))
  | plainText : Repeated Stmt.plainStep
  | targets : Repeated Stmt.targetStep
  | parameters (levels : Nat) :
      Repeated (commaStep .rparen "',' or ')'" List.isEmpty (Stmt.parameter (deeper levels)))
  | assignments (levels : Nat) : Repeated (Stmt.assignmentStep (deeper levels))
  | filterBlock (levels : Nat) : Repeated (Stmt.filterStep (deeper levels))
  | modifiers : Repeated Stmt.modifierStep
  | importedNames : Repeated Stmt.importStep

/-- Every step that is repeated gets further each time it asks for more. -/
theorem Reading.Repeated.progresses {stream : TokenStream} (closed : stream.IsClosed) {α : Type}
    {step : α → Reading (ForInStep α)} (repeated : Repeated step) :
    Progresses stream id step := by
  have below (levels : Nat) := Expr.deeper_inside closed levels
  have operators (choice : List BinaryOp) (start : Nat) :
      Reads stream 0 start (Expr.operatorOf choice) :=
    Expr.operatorOf_reads closed choice
  cases repeated with
  | dottedName => exact dottedStep_progresses closed
  | strings => exact Expr.stringStep_progresses closed
  | arguments levels =>
      exact commaStep_progresses closed fun _ _ => Expr.callArgument_reads closed (below levels) _
  | items levels =>
      refine commaStep_progresses closed fun _ start => ?_
      exact .bind ((below levels).conditional start) fun _ _ => .pure _
  | suffixes levels => exact Expr.suffix_progresses closed (below levels)
  | powers levels =>
      exact Expr.chainStep_progresses closed (operators _) fun _ =>
        Expr.unaryRule_reads closed (below levels)
  | products levels =>
      exact Expr.chainStep_progresses closed (operators _) fun _ =>
        Expr.chain_reads (operators _) fun _ => Expr.unaryRule_reads closed (below levels)
  | sums levels =>
      exact Expr.chainStep_progresses closed (operators _) fun _ =>
        Expr.chain_reads (operators _) fun _ => Expr.chain_reads (operators _) fun _ =>
          Expr.unaryRule_reads closed (below levels)
  | filters levels => exact Expr.filterStep_progresses closed (below levels)
  | tests levels => exact Expr.testStep_progresses closed (below levels)
  | comparisons levels =>
      exact Expr.chainStep_progresses closed (fun _ => Expr.comparisonOperator_reads closed)
        fun _ => Expr.testRule_reads closed (below levels)
  | conjunctions levels =>
      exact Expr.chainStep_progresses closed (operators _) fun _ =>
        Expr.negationRule_reads closed (below levels)
  | disjunctions levels =>
      exact Expr.chainStep_progresses closed (operators _) fun _ =>
        Expr.chain_reads (operators _) fun _ => Expr.negationRule_reads closed (below levels)
  | conditions levels => exact Expr.conditionalStep_progresses closed (below levels)
  | plainText => exact Stmt.plainStep_progresses closed
  | targets => exact Stmt.targetStep_progresses closed
  | parameters levels =>
      exact commaStep_progresses closed fun _ _ => Stmt.parameter_reads closed (below levels) _
  | assignments levels => exact Stmt.assignmentStep_progresses closed (below levels)
  | filterBlock levels => exact Stmt.filterStep_progresses closed (below levels)
  | modifiers => exact Stmt.modifierStep_progresses closed
  | importedNames => exact Stmt.importStep_progresses closed

end Stencil

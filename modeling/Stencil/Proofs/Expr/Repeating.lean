import Stencil.Proofs.Expr.Passing
import Stencil.Proofs.Parse.Repeating

/-!
# Repetitions in expressions

Operators and their operands, suffixes, filters, tests and conditions are read one after another.
Each of them reads a token at least, whatever number of levels is left for what is inside.
-/

namespace Stencil.Expr

open Reading

variable {stream : TokenStream}

/-- Operands with operators between them get further with each operand. -/
theorem chainStep_progresses (closed : stream.IsClosed) {operator? : Reading (Option BinaryOp)}
    {operand : Reading Expr} (operators : ∀ start, Reads stream 0 start operator?)
    (operands : ∀ start, Reads stream 1 start operand) :
    Progresses stream id (chainStep operator? operand) := by
  refine Further.progresses fun left start => ?_
  refine .bind (operators start) (Nat.le_refl _) fun op stop soFar => ?_
  cases op with
  | none => exact .done _
  | some op => exact .of_reads closed (.bind (operands stop) fun _ _ => .pure _) soFar

variable (closed : stream.IsClosed)

include closed

theorem stringStep_progresses : Progresses stream id stringStep := by
  refine Further.progresses fun value start => .current ?_
  split
  · next isString =>
    refine .of_reads closed ?_ (Nat.le_refl _)
    exact .bind (advance_reads closed (isString ▸ rfl)) fun _ _ => .pure _
  · exact .done _

variable {deeper : Deeper} (below : deeper.Inside stream)

include below

theorem suffix_progresses : Progresses stream id (suffix deeper) := by
  refine Further.progresses fun value start => .originAt (.current ?_)
  split
  · next isDot =>
    refine .of_reads closed ?_ (Nat.le_refl _)
    refine .bind (advance_reads closed (isDot ▸ rfl)) fun _ stop => .current ?_
    split
    · exact .bind ((literal_reads closed).weaken (Nat.zero_le _)) fun _ _ => .pure _
    · next isWord _ =>
      exact .bind (advance_reads closed (Token.isInner_of_word? isWord)) fun _ _ => .pure _
    · exact .refuse _ _
  · next isBracket =>
    refine .of_reads closed ?_ (Nat.le_refl _)
    refine .bind (advance_reads closed (isBracket ▸ rfl)) fun _ stop => ?_
    refine .bind ((subscript_reads closed below).weaken (Nat.zero_le _)) fun _ stop => ?_
    exact .bind ((expect_reads closed rfl _).weaken (Nat.zero_le _)) fun _ _ => .pure _
  · refine .of_reads closed ?_ (Nat.le_refl _)
    exact .bind (callArguments_reads closed below) fun _ _ => .pure _
  · exact .done _

theorem filterStep_progresses : Progresses stream id (filterStep deeper) := by
  refine Further.progresses fun value start => ?_
  refine .bind (skipIf_reads closed rfl) (Nat.le_refl _) fun isPipe stop soFar => ?_
  cases isPipe with
  | true =>
      exact .of_reads closed (.bind (filterCall_reads closed below) fun _ _ => .pure _) soFar
  | false => exact .done _

theorem testStep_progresses : Progresses stream id (testStep deeper) := by
  refine Further.progresses fun value start => ?_
  refine .bind (skipIf_reads closed rfl) (Nat.le_refl _) fun isTest stop soFar => ?_
  cases isTest with
  | true =>
      refine .bind (skipIf_reads closed rfl) soFar fun _ stop soFar => ?_
      refine .of_reads closed (.bind (testName_reads closed) fun _ stop => ?_) soFar
      exact .bind (testArguments_reads closed below) fun _ _ => .pure _
  | false => exact .done _

theorem conditionalStep_progresses : Progresses stream id (conditionalStep deeper) := by
  refine Further.progresses fun value start => ?_
  refine .bind (skipIf_reads closed rfl) (Nat.le_refl _) fun isIf stop soFar => ?_
  cases isIf with
  | true =>
      refine .of_reads closed (.bind (disjunction_reads closed below) fun _ stop => ?_) soFar
      refine .bind (skipIf_reads closed rfl) fun isElse stop => ?_
      cases isElse with
      | true =>
          exact .bind (.map ((below.conditional stop).weaken (Nat.zero_le _))) fun _ _ => .pure _
      | false => exact .pure _
  | false => exact .done _

end Stencil.Expr

import Stencil.Proofs.Parse.Passing

/-!
# Expressions stay inside their tag

Every rule for expressions reads at least one token when it succeeds, and only tokens that stand
inside tags. The rules lead back to looser rules only one level of nesting deeper, so that the proof
goes by the number of levels.
-/

namespace Stencil.Expr

open Reading

variable {stream : TokenStream} {start : Nat}

/-- The rules one level deeper read tokens of a tag. -/
structure Deeper.Inside (stream : TokenStream) (deeper : Deeper) : Prop where
  conditional : ∀ start, Reads stream 1 start (deeper.conditional)
  negation : ∀ start, Reads stream 1 start (deeper.negation)
  unary : ∀ start, Reads stream 1 start (deeper.unary)

theorem isInner_of_binary {kind : Token.Kind} {op : BinaryOp}
    (isOperator : BinaryOp.ofKind? kind = some op) : kind.isInner = true := by
  unfold BinaryOp.ofKind? at isOperator
  split at isOperator <;> first | rfl | simp at isOperator

theorem isInner_of_unary {kind : Token.Kind} {op : UnaryOp}
    (isOperator : UnaryOp.ofKind? kind = some op) : kind.isInner = true := by
  unfold UnaryOp.ofKind? at isOperator
  split at isOperator <;> first | rfl | simp at isOperator

theorem isInner_of_keyword {token : Token} {word : Keyword} (isWord : token.isKeyword word = true) :
    token.kind.isInner = true := by
  rw [of_decide_eq_true isWord]
  rfl

/-- Operands with operators between them; the first operand reads a token. -/
theorem chain_reads {operator? : Reading (Option BinaryOp)} {operand : Reading Expr}
    (operators : ∀ start, Reads stream 0 start operator?)
    (operands : ∀ start, Reads stream 1 start operand) :
    Reads stream 1 start (chain operator? operand) := by
  refine .bind (operands start) fun _ start => .loop (fun left start => ?_) _
  refine .bind (operators start) fun op start => ?_
  cases op with
  | none => exact .pure _
  | some op => exact .bind ((operands start).weaken (Nat.zero_le _)) fun _ _ => .pure _

section

variable (closed : stream.IsClosed)

include closed

theorem stringLiteral_reads (isString : (stream.get start).kind = .string) :
    Reads stream 1 start stringLiteral := by
  refine .loop_of_yield closed (fun _ start => .current ?_) (.current ?_) ?_
  · split
    · next isString => exact .bind (advance_reads closed (isString ▸ rfl)) fun _ _ => .pure _
    · exact .pure _
  · rw [if_pos isString]
    exact .bind (advance_reads closed (isString ▸ rfl)) fun _ _ => .pure _
  · rw [stringStep, current_bind, if_pos isString]
    exact ⟨_, _, rfl⟩

theorem literal_reads : Reads stream 1 start literal := by
  refine .current (.originAt ?_)
  split
  · next isString => exact .bind (stringLiteral_reads closed isString) fun _ _ => .pure _
  · next isInteger =>
    split
    · exact .bind (advance_reads closed (isInteger ▸ rfl)) fun _ _ => .pure _
    · exact .throw rfl
  · next isFloat =>
    split
    · exact .bind (advance_reads closed (isFloat ▸ rfl)) fun _ _ => .pure _
    · exact .throw rfl
  · next isBoolean => exact .bind (advance_reads closed (isBoolean ▸ rfl)) fun _ _ => .pure _
  · next isNull => exact .bind (advance_reads closed (isNull ▸ rfl)) fun _ _ => .pure _
  · exact .refuse _ _

theorem operatorOf_reads (choice : List BinaryOp) : Reads stream 0 start (operatorOf choice) := by
  refine .current ?_
  split
  · next op isOperator =>
    split
    · exact .bind (advance_reads closed (isInner_of_binary isOperator)) fun _ _ => .pure _
    · exact .pure _
  · exact .pure _

theorem comparisonOperator_reads : Reads stream 0 start comparisonOperator := by
  refine .current (.peek ?_)
  split
  · next isNotIn =>
    refine .bind_of_ok (advance_reads closed (isInner_of_keyword isNotIn.1)) fun _ stop moved => ?_
    obtain rfl : stop = start + 1 := by
      cases moved
      exact closed.next_eq (Token.Kind.ne_eof_of_isInner (isInner_of_keyword isNotIn.1))
    exact .bind (advance_reads closed (isInner_of_keyword isNotIn.2)) fun _ _ => .pure _
  · exact operatorOf_reads closed _

theorem testName_reads : Reads stream 1 start testName := by
  refine .current ?_
  split
  · next isBoolean => exact .bind (advance_reads closed (isBoolean ▸ rfl)) fun _ _ => .pure _
  · next isNull => exact .bind (advance_reads closed (isNull ▸ rfl)) fun _ _ => .pure _
  · next isIn => exact .bind (advance_reads closed (isIn ▸ rfl)) fun _ _ => .pure _
  · exact dottedName_reads closed

variable {deeper : Deeper} (below : deeper.Inside stream)

include below

theorem callArgument_reads (before : List Expr × List (Named Expr)) :
    Reads stream 1 start (callArgument deeper before) := by
  refine .current (.peek ?_)
  split
  · next isNamed =>
    refine .bind_of_ok (identifier_reads closed) fun _ stop outcome => ?_
    obtain rfl : stop = start + 1 := by
      rw [identifier_eq_of_name isNamed.1] at outcome
      cases outcome
      exact closed.next_eq (by simp [isNamed.1])
    refine .bind (advance_reads closed (isNamed.2 ▸ rfl)) fun _ start => ?_
    exact .bind ((below.conditional start).weaken (Nat.zero_le _)) fun _ _ => .pure _
  · refine .bind (below.conditional start) fun _ start => ?_
    split
    · exact .pure _
    · exact .throw rfl

theorem callArguments_reads : Reads stream 1 start (callArguments deeper) :=
  .bind (expect_reads closed rfl _) fun _ _ =>
    (commaList_reads closed rfl fun _ _ => callArgument_reads closed below _).weaken (Nat.zero_le _)

theorem listLiteral_reads : Reads stream 1 start (listLiteral deeper) := by
  refine .bind (expect_reads closed rfl _) fun opening start => ?_
  refine .bind (commaList_reads closed rfl fun _ start => ?_) fun _ _ => .pure _
  exact .bind (below.conditional start) fun _ _ => .pure _

omit closed in
theorem slicePart_reads : Reads stream 0 start (slicePart deeper) := by
  refine .current ?_
  split
  · exact .pure _
  · exact .pure _
  · exact .bind ((below.conditional start).weaken (Nat.zero_le _)) fun _ _ => .pure _

theorem sliceFrom_reads (isColon : (stream.get start).kind = .colon) (line : Nat)
    (first : Option Expr) : Reads stream 1 start (sliceFrom deeper line first) := by
  refine .bind (advance_reads closed (isColon ▸ rfl)) fun _ start => ?_
  refine .bind (slicePart_reads below) fun _ start => ?_
  refine .bind (skipIf_reads closed rfl) fun hasStep start => ?_
  cases hasStep with
  | true => exact .bind (slicePart_reads below) fun _ _ => .pure _
  | false => exact .pure _

theorem subscript_reads : Reads stream 1 start (subscript deeper) := by
  refine .current ?_
  split
  · next isColon => exact sliceFrom_reads closed below isColon _ _
  · refine .bind (below.conditional start) fun _ start => .current ?_
    split
    · next isColon => exact (sliceFrom_reads closed below isColon _ _).weaken (Nat.zero_le _)
    · exact .pure _

theorem suffix_reads (value : Expr) : Reads stream 0 start (suffix deeper value) := by
  refine .originAt (.current ?_)
  split
  · next isDot =>
    refine .bind (advance_reads closed (isDot ▸ rfl)) fun _ start => .current ?_
    split
    · exact .bind ((literal_reads closed).weaken (Nat.zero_le _)) fun _ _ => .pure _
    · next isWord _ =>
      exact .bind (advance_reads closed (Token.isInner_of_word? isWord)) fun _ _ => .pure _
    · exact .refuse _ _
  · next isBracket =>
    refine .bind (advance_reads closed (isBracket ▸ rfl)) fun _ start => ?_
    refine .bind (subscript_reads closed below) fun _ start => ?_
    exact .bind (expect_reads closed rfl _) fun _ _ => .pure _
  · exact .bind (callArguments_reads closed below) fun _ _ => .pure _
  · exact .pure _

theorem primary_reads : Reads stream 1 start (primary deeper) := by
  refine .current ?_
  split
  · next isName => exact .bind (advance_reads closed (isName ▸ rfl)) fun _ _ => .pure _
  · next isParen =>
    refine .bind (advance_reads closed (isParen ▸ rfl)) fun _ start => ?_
    refine .bind (below.conditional start) fun _ start => ?_
    exact .bind (expect_reads closed rfl _) fun _ _ => .pure _
  · exact listLiteral_reads closed below
  · split
    · exact literal_reads closed
    · exact .refuse _ _

theorem unaryRule_reads : Reads stream 1 start (unaryRule deeper) := by
  refine .current ?_
  split
  · next op isSign =>
    refine .bind (advance_reads closed (isInner_of_unary isSign)) fun _ start => ?_
    exact .bind ((below.unary start).weaken (Nat.zero_le _)) fun _ _ => .pure _
  · exact .bind (primary_reads closed below) fun _ _ =>
      .loop (fun _ _ => suffix_reads closed below _) _

theorem sum_reads : Reads stream 1 start (sum deeper) :=
  chain_reads (fun _ => operatorOf_reads closed _) fun _ =>
    chain_reads (fun _ => operatorOf_reads closed _) fun _ =>
      chain_reads (fun _ => operatorOf_reads closed _) fun _ => unaryRule_reads closed below

theorem filterCall_reads : Reads stream 1 start (filterCall deeper) := by
  refine .bind (dottedName_reads closed) fun _ start => .current ?_
  split
  · exact .bind ((callArguments_reads closed below).weaken (Nat.zero_le _)) fun _ _ => .pure _
  · exact .pure _

theorem filterRule_reads : Reads stream 1 start (filterRule deeper) := by
  refine .bind (sum_reads closed below) fun _ start => .loop (fun _ start => ?_) _
  refine .bind (skipIf_reads closed rfl) fun isPipe start => ?_
  cases isPipe with
  | true =>
      exact .bind ((filterCall_reads closed below).weaken (Nat.zero_le _)) fun _ _ => .pure _
  | false => exact .pure _

theorem testArguments_reads : Reads stream 0 start (testArguments deeper) := by
  refine .current ?_
  dsimp only
  split
  · exact (callArguments_reads closed below).weaken (Nat.zero_le _)
  · split
    · exact .bind ((unaryRule_reads closed below).weaken (Nat.zero_le _)) fun _ _ => .pure _
    · exact .pure _

theorem testRule_reads : Reads stream 1 start (testRule deeper) := by
  refine .bind (filterRule_reads closed below) fun _ start => .loop (fun _ start => ?_) _
  refine .bind (skipIf_reads closed rfl) fun isTest start => ?_
  cases isTest with
  | true =>
      refine .bind (skipIf_reads closed rfl) fun _ start => ?_
      refine .bind ((testName_reads closed).weaken (Nat.zero_le _)) fun _ start => ?_
      exact .bind (testArguments_reads closed below) fun _ _ => .pure _
  | false => exact .pure _

theorem negationRule_reads : Reads stream 1 start (negationRule deeper) := by
  refine .current ?_
  split
  · next isNot =>
    refine .bind (advance_reads closed (isInner_of_keyword isNot)) fun _ start => ?_
    exact .bind ((below.negation start).weaken (Nat.zero_le _)) fun _ _ => .pure _
  · exact chain_reads (fun _ => comparisonOperator_reads closed) fun _ =>
      testRule_reads closed below

theorem disjunction_reads : Reads stream 1 start (disjunction deeper) :=
  chain_reads (fun _ => operatorOf_reads closed _) fun _ =>
    chain_reads (fun _ => operatorOf_reads closed _) fun _ => negationRule_reads closed below

theorem conditionalRule_reads : Reads stream 1 start (conditionalRule deeper) := by
  refine .bind (disjunction_reads closed below) fun _ start => .loop (fun _ start => ?_) _
  refine .bind (skipIf_reads closed rfl) fun isIf start => ?_
  cases isIf with
  | true =>
      refine .bind ((disjunction_reads closed below).weaken (Nat.zero_le _)) fun _ start => ?_
      refine .bind (skipIf_reads closed rfl) fun isElse start => ?_
      cases isElse with
      | true =>
          exact .bind (.map ((below.conditional start).weaken (Nat.zero_le _))) fun _ _ => .pure _
      | false => exact .pure _
  | false => exact .pure _

variable [Limits]

omit below in
/-- Whatever number of levels is left, the rules one level deeper stay inside the tag. -/
theorem deeper_inside (levels : Nat) : (Expr.deeper levels).Inside stream := by
  induction levels with
  | zero =>
      exact ⟨fun _ => .current (.throw rfl), fun _ => .current (.throw rfl),
        fun _ => .current (.throw rfl)⟩
  | succ levels ih =>
      exact ⟨fun _ => conditionalRule_reads closed ih, fun _ => negationRule_reads closed ih,
        fun _ => unaryRule_reads closed ih⟩

omit below in
theorem parse_reads (levels : Nat) : Reads stream 1 start (parse levels) :=
  (deeper_inside closed levels).conditional start

omit below in
theorem parseUnconditional_reads (levels : Nat) :
    Reads stream 1 start (parseUnconditional levels) := by
  cases levels with
  | zero => exact .current (.throw rfl)
  | succ levels => exact disjunction_reads closed (deeper_inside closed levels)

end

end Stencil.Expr

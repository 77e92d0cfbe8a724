import Stencil.Proofs.Expr.FirstTokens

/-!
# Levels of the grammar

Each level of precedence has its rule. Most of these rules read an operand of the next tighter level
and then repeat a step for as long as a token of their own level is next. Such a rule is looked at
in two ways: it *feeds* its repetition if the tokens make up the value with which the repetition
goes on, whatever comes next; it *accepts* the tokens if what comes next also ends the repetition.
What a level accepts, the looser levels accept too, if the token after it ends them as well.
-/

namespace Stencil

open Reading Stencil.Expr

/-- The level at which a token goes on with an expression before it. -/
def Token.Kind.binds? : Token.Kind → Option Level
  | .string => some .primary
  | .dot | .lbracket | .lparen => some .suffix
  | .pipe => some .filter
  | .keyword .is_ => some .test
  | .keyword .not_ => some .comparison
  | .keyword .if_ | .keyword .else_ => some .conditional
  | kind => (BinaryOp.ofKind? kind).map BinaryOp.level

theorem Token.Kind.binds?_of_ofKind? {kind : Token.Kind} {op : BinaryOp}
    (isOperator : BinaryOp.ofKind? kind = some op) : kind.binds? = some op.level := by
  unfold BinaryOp.ofKind? at isOperator
  split at isOperator <;> cases isOperator <;> rfl

namespace Level

variable {level place : Level} {kind : Token.Kind}

theorem rank_tighter (notTightest : level.rank < Level.primary.rank) :
    level.tighter.rank = level.rank + 1 := by
  cases level <;> first | rfl | exact absurd notTightest (by decide)

theorem rank_injective {first second : Level} (same : first.rank = second.rank) :
    first = second := by
  cases first <;> cases second <;> first | rfl | exact absurd same (by decide)

/-- Whether an expression of a level ends before a token. -/
def stops (level : Level) (kind : Token.Kind) : Bool :=
  match kind.binds? with
  | some binding => binding.rank < level.rank
  | none => true

theorem stops_of_binds? {binding : Level} (binds : kind.binds? = some binding) :
    level.stops kind = decide (binding.rank < level.rank) := by
  rw [stops, binds]

theorem not_binds_of_stops (stops : level.stops kind = true) : kind.binds? ≠ some level := by
  intro binds
  rw [stops_of_binds? binds] at stops
  exact absurd stops (by simp)

theorem stops_of_rank_le (stops : level.stops kind = true) (isTighter : level.rank ≤ place.rank) :
    place.stops kind = true := by
  unfold Level.stops at stops ⊢
  split at stops
  · exact decide_eq_true (Nat.lt_of_lt_of_le (of_decide_eq_true stops) isTighter)
  · rfl

theorem rank_le_tighter (level : Level) : level.rank ≤ level.tighter.rank := by
  cases level <;> decide

/-- The rule for expressions of a level and of tighter ones. -/
def rule (deeper : Deeper) : Level → Reading Expr
  | conditional => conditionalRule deeper
  | disjunction => Expr.disjunction deeper
  | conjunction => Expr.conjunction deeper
  | negation => negationRule deeper
  | comparison => Expr.comparison deeper
  | test => testRule deeper
  | filter => filterRule deeper
  | sum => Expr.sum deeper
  | product => Expr.product deeper
  | power => Expr.power deeper
  | unary => unaryRule deeper
  | suffix => suffixRule deeper
  | primary => Expr.primary deeper

/-- Reads an operator of a level. -/
def operator : Level → Reading (Option BinaryOp)
  | disjunction => operatorOf [.or_]
  | conjunction => operatorOf [.and_]
  | comparison => comparisonOperator
  | sum => operatorOf [.add, .sub, .concat]
  | product => operatorOf [.mul, .div, .floorDiv, .mod]
  | power => operatorOf [.pow]
  | _ => pure none

/-- Whether the rule of a level repeats a step after its first operand. -/
def isRepeated : Level → Bool
  | negation | unary | primary => false
  | _ => true

/-- The step that the rule of a level repeats. -/
def step (deeper : Deeper) (level : Level) : Expr → Reading (ForInStep Expr) :=
  match level with
  | conditional => conditionalStep deeper
  | test => testStep deeper
  | filter => filterStep deeper
  | suffix => Expr.suffix deeper
  | level => chainStep level.operator (level.tighter.rule deeper)

theorem rule_eq_bind (repeated : level.isRepeated = true) (deeper : Deeper) :
    level.rule deeper = level.tighter.rule deeper >>= Reading.loop (level.step deeper) := by
  cases level <;> first | rfl | exact absurd repeated (by decide)

/-! ### The end of a repetition -/

variable {stream : TokenStream} {start : Nat}

theorem operatorOf_eq_none {choice : List BinaryOp} (sameLevel : ∀ op ∈ choice, op.level = level)
    (stops : level.stops (stream.get start).kind = true) :
    operatorOf choice stream start = .ok none start := by
  rw [operatorOf, current_bind]
  cases isOperator : BinaryOp.ofKind? (stream.get start).kind with
  | none => rfl
  | some op =>
      have notChosen : op ∉ choice := fun chosen =>
        not_binds_of_stops stops (sameLevel op chosen ▸ Token.Kind.binds?_of_ofKind? isOperator)
      dsimp only
      rw [if_neg notChosen]
      rfl

theorem comparisonOperator_eq_none (stops : comparison.stops (stream.get start).kind = true) :
    comparisonOperator stream start = .ok none start := by
  have notNot : (stream.get start).isKeyword .not_ = false := by
    refine decide_eq_false fun isNot => not_binds_of_stops stops ?_
    rw [isNot]
    rfl
  rw [comparisonOperator, current_bind, peek_bind, notNot, if_neg (by simp)]
  exact operatorOf_eq_none (by decide) stops

/-- A repetition ends where an expression of its level ends. -/
theorem step_eq_done (repeated : level.isRepeated = true)
    (stops : level.stops (stream.get start).kind = true) (deeper : Deeper) (value : Expr) :
    level.step deeper value stream start = .ok (.done value) start := by
  have skips {kind : Token.Kind} (binds : kind.binds? = some level) :
      skipIf kind stream start = .ok false start :=
    skipIf_eq_of_ne fun isKind => not_binds_of_stops stops (isKind ▸ binds)
  have chains (found : level.operator stream start = .ok none start) :
      chainStep level.operator (level.tighter.rule deeper) value stream start =
        .ok (.done value) start := bind_eq_of_ok found
  cases level with
  | negation | unary | primary => exact absurd repeated (by decide)
  | conditional => exact bind_eq_of_ok (skips rfl)
  | test => exact bind_eq_of_ok (skips rfl)
  | filter => exact bind_eq_of_ok (skips rfl)
  | comparison => exact chains (comparisonOperator_eq_none stops)
  | disjunction | conjunction | sum | product | power =>
      exact chains (operatorOf_eq_none (by decide) stops)
  | suffix =>
      change Expr.suffix deeper value stream start = _
      have notBinding := not_binds_of_stops stops
      rw [Expr.suffix, originAt_bind, current_bind]
      generalize (stream.get start).kind = kind at notBinding ⊢
      cases kind <;> first | rfl | exact absurd rfl notBinding

/-! ### Tokens that a level accepts -/

variable [Limits]

/-- The rule of a level takes given tokens, if an expression of the level ends after them. -/
def Accepts (level : Level) (lexemes : List Lexeme) (needed : Nat) (good : Expr → Prop) : Prop :=
  ∀ (levels : Nat) (stream : TokenStream) (start : Nat), stream.Shows start lexemes →
    level.stops (stream.get (start + lexemes.length)).kind = true →
    Takes levels needed stream (level.rule (deeper levels)) start (start + lexemes.length) good

/-- The rule of a level goes on with its repetition after given tokens, if an expression of the next
tighter level ends after them. -/
def Feeds (level : Level) (lexemes : List Lexeme) (needed : Nat) (good : Expr → Prop) : Prop :=
  ∀ (levels : Nat) (stream : TokenStream) (start : Nat), stream.Shows start lexemes →
    level.tighter.stops (stream.get (start + lexemes.length)).kind = true →
    GoesOn levels needed stream (level.rule (deeper levels)) start
      (Reading.loop (level.step (deeper levels))) (start + lexemes.length) good

variable {lexemes : List Lexeme} {needed levels : Nat} {good : Expr → Prop}

/-- A repetition begins with an operand of the next tighter level. -/
theorem Accepts.feeds (accepts : level.tighter.Accepts lexemes needed good)
    (repeated : level.isRepeated = true) : level.Feeds lexemes needed good := by
  intro levels stream start shows stops
  rw [rule_eq_bind repeated]
  exact (accepts levels stream start shows stops).bind_pure fun value isGood => .of_eq rfl isGood

/-- A repetition ends where an expression of its level ends. -/
theorem Feeds.accepts (feeds : level.Feeds lexemes needed good)
    (repeated : level.isRepeated = true) : level.Accepts lexemes needed good := by
  intro levels stream start shows stops
  have goesOn := (feeds levels stream start shows
    (stops_of_rank_le stops level.rank_le_tighter)).trans fun value isGood =>
      Takes.loop_done (step_eq_done repeated stops (deeper levels) value) isGood
  exact goesOn.of_needed_eq (Nat.max_zero _)

/-- What begins with no `not` is no negation. -/
theorem Accepts.negation (accepts : comparison.Accepts lexemes needed good)
    (starts : Starts comparison lexemes) : negation.Accepts lexemes needed good := by
  intro levels stream start shows stops
  have takes := accepts levels stream start shows (stops_of_rank_le stops (by decide))
  obtain ⟨lexeme, rest, opening, rfl, opens, isTighter⟩ := starts.first
  have notNot : (stream.get start).isKeyword .not_ = false := by
    refine decide_eq_false fun isNot => ?_
    rw [← shows.1.kind, isNot] at opens
    cases opens
    exact absurd isTighter (by decide)
  refine takes.of_rule_eq ?_
  change negationRule (deeper levels) stream start = _
  rw [negationRule, current_bind, notNot]
  rfl

/-- What begins with no sign is no signed operand. -/
theorem Accepts.unary (accepts : suffix.Accepts lexemes needed good)
    (starts : Starts suffix lexemes) : unary.Accepts lexemes needed good := by
  intro levels stream start shows stops
  have takes := accepts levels stream start shows (stops_of_rank_le stops (by decide))
  obtain ⟨lexeme, rest, opening, rfl, opens, isTighter⟩ := starts.first
  have notSign : UnaryOp.ofKind? (stream.get start).kind = none := by
    rw [shows.1.kind]
    unfold UnaryOp.ofKind?
    split
    case h_4 => rfl
    all_goals
      next isSign =>
        rw [isSign] at opens
        cases opens
        exact absurd isTighter (by decide)
  refine takes.of_rule_eq ?_
  change unaryRule (deeper levels) stream start = _
  rw [unaryRule, current_bind, notSign]
  rfl

/-- What the next tighter level accepts is accepted. -/
theorem Accepts.loosen_one (accepts : level.tighter.Accepts lexemes needed good)
    (starts : Starts level.tighter lexemes) : level.Accepts lexemes needed good := by
  by_cases repeated : level.isRepeated = true
  · exact (accepts.feeds repeated).accepts repeated
  · cases level with
    | negation => exact Accepts.negation accepts starts
    | unary => exact Accepts.unary accepts starts
    | primary => exact accepts
    | _ => exact absurd rfl repeated

/-- What a level accepts is accepted by all looser ones. -/
theorem Accepts.loosen (accepts : level.Accepts lexemes needed good)
    (starts : Starts level lexemes) (isLooser : place.rank ≤ level.rank) :
    place.Accepts lexemes needed good := by
  obtain ⟨gap, sameRank⟩ := Nat.exists_eq_add_of_le isLooser
  induction gap generalizing place with
  | zero => exact rank_injective sameRank ▸ accepts
  | succ gap ih =>
      have isNext : place.tighter.rank = place.rank + 1 :=
        rank_tighter (by have := level.rank_le; omega)
      have acceptsNext : place.tighter.Accepts lexemes needed good := ih (by omega) (by omega)
      exact acceptsNext.loosen_one (starts.loosen (by omega))

/-! ### One level of nesting deeper -/

omit [Limits] in
/-- The rule of a level used one level of nesting deeper. The rules of three levels are. -/
def descend (deeper : Deeper) : Level → Reading Expr
  | negation => deeper.negation
  | unary => deeper.unary
  | _ => deeper.conditional

/-- What a rule takes one level of nesting deeper needs one level more. -/
theorem Accepts.descend (accepts : level.Accepts lexemes needed good)
    (descends : level = .conditional ∨ level = .negation ∨ level = .unary)
    (shows : stream.Shows start lexemes)
    (stops : level.stops (stream.get (start + lexemes.length)).kind = true) (levels : Nat) :
    Takes levels (needed + 1) stream (level.descend (deeper levels)) start
      (start + lexemes.length) good := by
  cases levels with
  | zero =>
      have noLevel : level.descend (deeper 0) = tooDeep := by
        rcases descends with rfl | rfl | rfl <;> rfl
      rw [noLevel]
      exact ⟨fun enough => absurd enough (by omega), fun _ => ⟨_, _, rfl⟩⟩
  | succ levels =>
      have oneLess : level.descend (deeper (levels + 1)) = level.rule (deeper levels) := by
        rcases descends with rfl | rfl | rfl <;> rfl
      have takes := accepts levels stream start shows stops
      rw [oneLess]
      exact ⟨fun enough => takes.enough (by omega), fun tooFew => takes.tooFew (by omega)⟩

/-- An expression in parentheses is primary. -/
theorem Accepts.parenthesized (accepts : conditional.Accepts lexemes needed good) :
    primary.Accepts (.symbol "(" :: lexemes ++ [.symbol ")"]) (needed + 1) good := by
  intro levels stream start shows stops
  rw [List.cons_append, TokenStream.shows_cons, TokenStream.shows_append] at shows
  obtain ⟨opens, inner, closes, _⟩ := shows
  have isOpening : (stream.get start).kind = .lparen := opens.kind
  have closing : conditional.stops (stream.get (start + 1 + lexemes.length)).kind = true := by
    rw [closes.kind]
    rfl
  have inside : Takes levels (needed + 1) stream (do
      let _ ← advance
      let inner ← (deeper levels).conditional
      let _ ← expect .rparen "')'"
      return inner) start (start + 1 + lexemes.length + 1) good := by
    refine .bind_of_ok (advance_eq_of_stands opens) ?_
    refine Takes.bind_pure (accepts.descend (Or.inl rfl) inner closing levels)
      fun value isGood => ?_
    exact .bind_of_ok (expect_eq_of_stands closes rfl _) (Takes.pure isGood)
  refine (inside.of_stop_eq ?_).of_rule_eq ?_
  · simp only [List.length_append, List.length_cons, List.length_nil]
    omega
  change Expr.primary (deeper levels) stream start = _
  rw [Expr.primary, current_bind, isOpening]

end Level

end Stencil

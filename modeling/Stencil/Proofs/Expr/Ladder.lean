import Stencil.Proofs.Expr.Levels

/-!
# From an operand to an expression

The rules of the grammar stand on each other. Where the next token begins an operand, the rule of a
level first does what the rule of any tighter level does. If that rule reads a value after which an
expression of the looser level ends, then this value is the expression; if it fails, so does the
looser rule.
-/

namespace Stencil

namespace Level

open Reading Stencil.Expr

variable {level : Level} {deeper : Deeper} {stream : TokenStream} {start stop : Nat}
  {value : Expr} {error : SyntaxError}

/-- An operand is no negation and has no sign. -/
theorem rule_eq_of_not_repeated (isOperand : (stream.get start).kind.opens? = some .primary)
    (single : level.isRepeated = false) :
    level.rule deeper stream start = level.tighter.rule deeper stream start := by
  have notNot : (stream.get start).isKeyword .not_ = false := by
    refine decide_eq_false fun isNot => ?_
    rw [isNot] at isOperand
    exact absurd isOperand (by decide)
  have notSign : UnaryOp.ofKind? (stream.get start).kind = none := by
    unfold UnaryOp.ofKind?
    split
    case h_4 => rfl
    all_goals
      next isSign =>
        rw [isSign] at isOperand
        exact absurd isOperand (by decide)
  cases level with
  | negation =>
      change negationRule deeper stream start = _
      rw [negationRule, current_bind, notNot]
      rfl
  | unary =>
      change unaryRule deeper stream start = _
      rw [unaryRule, current_bind, notSign]
      rfl
  | primary => rfl
  | _ => exact absurd single (by decide)

/-- What the rule of the next tighter level reads is all, if an expression of the level ends after
it. -/
theorem rule_eq_ok_of_tighter (isOperand : (stream.get start).kind.opens? = some .primary)
    (ends : level.stops (stream.get stop).kind = true)
    (outcome : level.tighter.rule deeper stream start = .ok value stop) :
    level.rule deeper stream start = .ok value stop := by
  cases repeated : level.isRepeated with
  | false => rw [rule_eq_of_not_repeated isOperand repeated, outcome]
  | true =>
      rw [rule_eq_bind repeated, bind_eq_of_ok outcome]
      exact repeatFrom_eq_of_done (step_eq_done repeated ends deeper value)

/-- Where the rule of the next tighter level fails, nothing else is tried. -/
theorem rule_eq_error_of_tighter (isOperand : (stream.get start).kind.opens? = some .primary)
    (outcome : level.tighter.rule deeper stream start = .error error stop) :
    level.rule deeper stream start = .error error stop := by
  cases repeated : level.isRepeated with
  | false => rw [rule_eq_of_not_repeated isOperand repeated, outcome]
  | true => rw [rule_eq_bind repeated, bind_eq_of_error outcome]

/-- A property of levels that passes from each level to the next looser one holds of all looser
levels. -/
theorem loosen_of_tighter {motive : Level → Prop} (place : Level)
    (passes : ∀ level : Level, motive level.tighter → motive level) (isTight : motive level)
    (isLooser : place.rank ≤ level.rank) : motive place := by
  obtain ⟨gap, sameRank⟩ := Nat.exists_eq_add_of_le isLooser
  induction gap generalizing place with
  | zero => exact rank_injective sameRank ▸ isTight
  | succ gap ih =>
      have isNext : place.tighter.rank = place.rank + 1 :=
        rank_tighter (by have := level.rank_le; omega)
      exact passes place (ih place.tighter (by omega) (by omega))

end Level

variable [Limits]

namespace Expr

variable {level : Level} {levels start stop : Nat} {stream : TokenStream} {value : Expr}
  {error : SyntaxError}

/-- What the rule of a level reads is a whole expression, if nothing goes on with it. -/
theorem parse_eq_ok (isOperand : (stream.get start).kind.opens? = some .primary)
    (ends : Level.conditional.stops (stream.get stop).kind = true)
    (outcome : level.rule (deeper levels) stream start = .ok value stop) :
    parse (levels + 1) stream start = .ok value stop :=
  Level.loosen_of_tighter
    (motive := fun level => level.rule (deeper levels) stream start = .ok value stop) .conditional
    (fun level => Level.rule_eq_ok_of_tighter isOperand
      (Level.stops_of_rank_le ends (Nat.zero_le level.rank)))
    outcome (Nat.zero_le _)

/-- Where the rule of a level fails, there is no expression. -/
theorem parse_eq_error (isOperand : (stream.get start).kind.opens? = some .primary)
    (outcome : level.rule (deeper levels) stream start = .error error stop) :
    parse (levels + 1) stream start = .error error stop :=
  Level.loosen_of_tighter
    (motive := fun level => level.rule (deeper levels) stream start = .error error stop)
    .conditional (fun _ => Level.rule_eq_error_of_tighter isOperand) outcome (Nat.zero_le _)

end Expr

end Stencil

import Stencil.Proofs.Expr.Printing
import Stencil.Proofs.Parse.Taking

/-!
# How written expressions begin

The first token of a written expression tells whether it begins with a sign, with `not` or with an
operand, and none of the tokens that close or continue something. An equals sign never comes second,
so that no expression is taken for a keyword argument.
-/

namespace Stencil

theorem Level.rank_le (level : Level) : level.rank ≤ Level.primary.rank := by
  cases level <;> decide

/-- The tightest level of an expression that a token can begin. -/
def Token.Kind.opens? : Token.Kind → Option Level
  | .keyword .not_ => some .negation
  | .add | .sub | .tilde => some .unary
  | .name | .string | .integer | .boolean | .null | .lparen | .lbracket => some .primary
  | _ => none

/-- Tokens begin as an expression of some level does. -/
structure Starts (place : Level) (lexemes : List Lexeme) : Prop where
  first : ∃ lexeme rest level, lexemes = lexeme :: rest ∧ lexeme.kind.opens? = some level ∧
    place.rank ≤ level.rank
  second : ∀ lexeme ∈ lexemes[1]?, lexeme.kind ≠ .assign

namespace Starts

variable {place level : Level} {lexeme : Lexeme} {lexemes rest : List Lexeme}

theorem cons (opens : lexeme.kind.opens? = some level) (isTighter : place.rank ≤ level.rank)
    (notAssign : ∀ lexeme ∈ rest.head?, lexeme.kind ≠ .assign) : Starts place (lexeme :: rest) := by
  refine ⟨⟨lexeme, rest, level, rfl, opens, isTighter⟩, fun second isSecond => ?_⟩
  rw [List.getElem?_cons_succ, ← List.head?_eq_getElem?] at isSecond
  exact notAssign second isSecond

theorem single (opens : lexeme.kind.opens? = some level) (isTighter : place.rank ≤ level.rank) :
    Starts place [lexeme] :=
  .cons opens isTighter (by simp)

theorem loosen {looser : Level} (starts : Starts place lexemes)
    (isLooser : looser.rank ≤ place.rank) : Starts looser lexemes := by
  obtain ⟨lexeme, rest, level, same, opens, isTighter⟩ := starts.first
  exact ⟨⟨lexeme, rest, level, same, opens, Nat.le_trans isLooser isTighter⟩, starts.second⟩

theorem append (starts : Starts place lexemes)
    (notAssign : ∀ lexeme ∈ rest.head?, lexeme.kind ≠ .assign) :
    Starts place (lexemes ++ rest) := by
  obtain ⟨lexeme, others, level, rfl, opens, isTighter⟩ := starts.first
  refine .cons opens isTighter fun second isSecond => ?_
  cases others with
  | nil => exact notAssign second isSecond
  | cons other others => exact starts.second second isSecond

theorem append_cons (starts : Starts place lexemes) (notAssign : lexeme.kind ≠ .assign) :
    Starts place (lexemes ++ lexeme :: rest) := by
  refine starts.append fun first isFirst => ?_
  obtain rfl : lexeme = first := Option.some.inj isFirst
  exact notAssign

theorem head_ne_assign (starts : Starts place lexemes) (rest : List Lexeme) :
    ∀ lexeme ∈ (lexemes ++ rest).head?, lexeme.kind ≠ .assign := by
  obtain ⟨first, others, level, rfl, opens, _⟩ := starts.first
  intro lexeme isFirst isAssign
  obtain rfl : first = lexeme := Option.some.inj isFirst
  simp [isAssign, Token.Kind.opens?] at opens

theorem enclose (starts : Starts level lexemes) (place : Level) :
    Starts place (place.enclose level lexemes) := by
  unfold Level.enclose
  split
  · exact .cons rfl place.rank_le (starts.head_ne_assign _)
  · next notLooser => exact starts.loosen (Nat.not_lt.1 notLooser)

end Starts

namespace Expr

theorem itemLexemes_eq_map (items : List Expr) : itemLexemes items = items.map lexemes := by
  induction items with
  | nil => rfl
  | cons item items ih => rw [itemLexemes, ih, List.map_cons]

theorem BinaryOp.exists_lexemes_eq (op : BinaryOp) :
    ∃ lexeme rest, op.lexemes = lexeme :: rest ∧ lexeme.kind ≠ .assign := by
  cases op <;> exact ⟨_, _, rfl, by decide⟩

theorem UnaryOp.opens?_lexeme (op : UnaryOp) : op.lexeme.kind.opens? = some op.level := by
  cases op <;> rfl

/-- Every written expression begins as one of its level. -/
theorem Printable.starts {expr : Expr} (printable : Printable expr) :
    Starts expr.level expr.lexemes := by
  induction printable with
  | name origin free =>
      refine .single ?_ (Nat.le_refl _)
      rw [Lexeme.word, Reading.wordKind_of_isFreeName free]
      rfl
  | string | integer | null => exact .single rfl (Nat.le_refl _)
  | boolean origin value => cases value <;> exact .single rfl (Nat.le_refl _)
  | @list origin items each ih =>
      rw [lexemes, itemLexemes_eq_map, List.cons_append]
      refine .cons rfl (Nat.le_refl _) ?_
      cases items with
      | nil => simpa [separated] using (show (Lexeme.symbol "]").kind ≠ .assign by decide)
      | cons item items =>
          rw [List.map_cons, separated, intercalate_cons_eq_append, List.append_assoc]
          exact (ih item List.mem_cons_self).head_ne_assign _
  | binary origin op first second ihFirst ihSecond =>
      obtain ⟨lexeme, rest, sameLexemes, notAssign⟩ := BinaryOp.exists_lexemes_eq op
      rw [lexemes, List.append_assoc, sameLexemes]
      exact (ihFirst.enclose _).append_cons notAssign
  | unary origin op inner ih =>
      refine .cons (UnaryOp.opens?_lexeme op) (Nat.le_refl _) ?_
      simpa using (ih.enclose op.level).head_ne_assign []
  | conditional origin first second third ihFirst ihSecond ihThird =>
      rw [lexemes, List.append_assoc]
      exact ((ihSecond.enclose _).append_cons (by decide)).loosen (Nat.zero_le _)
  | call origin called each free eachNamed ihCalled ihEach ihNamed =>
      rw [lexemes, List.append_assoc]
      exact (ihCalled.enclose _).append_cons (by decide)
  | filter origin filtered isName each free eachNamed ihFiltered ihEach ihNamed =>
      rw [lexemes, List.append_assoc, List.append_assoc]
      exact (ihFiltered.enclose _).append_cons (by decide)
  | test origin negated tested isName each free eachNamed ihTested ihEach ihNamed =>
      rw [lexemes, List.append_assoc, List.append_assoc, List.append_assoc]
      exact (ihTested.enclose _).append_cons (by decide)
  | attr origin inner isName ih => exact (ih.enclose _).append_cons (by decide)
  | item origin inner second ih ihSecond =>
      rw [lexemes, List.append_assoc]
      exact (ih.enclose _).append_cons (by decide)
  | sliced origin origin' inner first second third ih ihFirst ihSecond ihThird =>
      rw [lexemes, List.append_assoc]
      exact (ih.enclose _).append_cons (by decide)

end Expr

end Stencil

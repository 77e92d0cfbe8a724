import Stencil.Proofs.Stmt.Composed

/-!
# Two rules for the statements inside

A statement is read with a rule for the statements inside of it, and that rule is used only beyond
the token at which the statement starts. So two such rules that agree from there on lead to the same
outcome; and rules that agree on what they can read lead to the same statement, if it can be read.
Without extensions the second holds whatever extensions the other side has, since a word that the
grammar knows is never handed to one.
-/

namespace Stencil

variable {σ α β : Type}

/-- Two outcomes are the same, unless the first one is a failure and failures are excused. -/
def Matches (excused : Prop) (first second : EStateM.Result SyntaxError σ α) : Prop :=
  second = first ∨ (excused ∧ ∃ error state, first = .error error state)

namespace Matches

variable {excused : Prop} {stream : TokenStream} {first second : EStateM.Result SyntaxError σ α}

theorem refl (outcome : EStateM.Result SyntaxError σ α) : Matches excused outcome outcome :=
  Or.inl rfl

theorem eq_of_ok {value : α} {after : σ} (same : Matches excused first second)
    (isOk : first = .ok value after) : second = .ok value after := by
  rcases same with rfl | ⟨_, error, state, isError⟩
  · exact isOk
  · rw [isOk] at isError
    cases isError

theorem eq_of_not (same : Matches excused first second) (notExcused : ¬excused) :
    second = first := by
  rcases same with same | ⟨isExcused, _⟩
  · exact same
  · exact absurd isExcused notExcused

theorem bind {state : σ} {rule rule' : ReaderT TokenStream (EStateM SyntaxError σ) α}
    {next next' : α → ReaderT TokenStream (EStateM SyntaxError σ) β}
    (same : Matches excused (rule stream state) (rule' stream state))
    (rest : ∀ value after, rule stream state = .ok value after →
      Matches excused (next value stream after) (next' value stream after)) :
    Matches excused ((rule >>= next) stream state) ((rule' >>= next') stream state) := by
  cases outcome : rule stream state with
  | ok value after =>
      rw [bind_eq_of_ok outcome, bind_eq_of_ok (same.eq_of_ok outcome)]
      exact rest value after outcome
  | error error after =>
      rw [bind_eq_of_error outcome]
      rcases same with same | ⟨isExcused, _⟩
      · rw [bind_eq_of_error (same.trans outcome)]
        exact .refl _
      · exact Or.inr ⟨isExcused, error, after, rfl⟩

/-- A step that fails on one side ends the repetition there. -/
theorem repeatFrom {cursor : σ → Nat} (good : σ → Prop)
    {step step' : α → ReaderT TokenStream (EStateM SyntaxError σ) (ForInStep α)}
    (kept : ∀ value state, good state → good (stateAfter (step value stream state)))
    (same : ∀ value state, good state →
      Matches excused (step value stream state) (step' value stream state))
    (value : α) {state : σ} (start : good state) :
    Matches excused (repeatFrom cursor step value stream state)
      (Stencil.repeatFrom cursor step' value stream state) := by
  fun_induction Stencil.repeatFrom cursor step value stream state with
  | case1 value state error after outcome =>
      rcases same value state start with sameStep | ⟨isExcused, _⟩
      · rw [repeatFrom_eq_of_error (sameStep.trans outcome)]
        exact .refl _
      · exact Or.inr ⟨isExcused, error, after, rfl⟩
  | case2 value state result after outcome =>
      rw [repeatFrom_eq_of_done ((same value state start).eq_of_ok outcome)]
      exact .refl _
  | case3 value state more after outcome further ih =>
      have stillGood := kept value state start
      rw [outcome] at stillGood
      rw [repeatFrom_eq_of_yield ((same value state start).eq_of_ok outcome) further.1 further.2]
      exact ih stillGood
  | case4 value state more after outcome stays =>
      rw [repeatFrom_eq_of_stuck ((same value state start).eq_of_ok outcome) stays]
      exact .refl _

variable [Limits]

theorem nested {place : Place} {construct : String} {rule rule' : Parsing α}
    (same : Matches excused (rule stream (place.entered construct))
      (rule' stream (place.entered construct))) :
    Matches excused (Parsing.nested construct rule stream place)
      (Parsing.nested construct rule' stream place) := by
  by_cases full : maxDepth ≤ place.depth
  · rw [Parsing.nested_eq_of_full full, Parsing.nested_eq_of_full full]
    exact .refl _
  · have room : place.depth < maxDepth := by omega
    cases outcome : rule stream (place.entered construct) with
    | ok value after =>
        rw [Parsing.nested_eq_of_ok room outcome,
          Parsing.nested_eq_of_ok room (same.eq_of_ok outcome)]
        exact .refl _
    | error error after =>
        rw [Parsing.nested_eq_of_error room outcome]
        rcases same with same | ⟨isExcused, _⟩
        · rw [Parsing.nested_eq_of_error room (same.trans outcome)]
          exact .refl _
        · exact Or.inr ⟨isExcused, error, after.left, rfl⟩

end Matches

variable [Limits]

namespace Stmt

open Reading Parsing

variable {excused : Prop} {stream : TokenStream} {low : Nat}
  {first second : Parsing (Option Stmt)}

/-- A composed rule has the same outcome with either of two rules for statements. -/
theorem Composed.matches {rule : Parsing (Option Stmt) → Parsing α}
    (composed : Composed stream rule) (forward : Parsing.Forward stream low first)
    (same : ∀ inner : Place, low ≤ inner.cursor →
      Matches excused (first stream inner) (second stream inner))
    (place : Place) (later : low ≤ place.cursor) :
    Matches excused (rule first stream place) (rule second stream place) := by
  induction composed generalizing place with
  | pure | throw | leveled => exact .refl _
  | statement => exact same place later
  | bind isFirst _ ihFirst ihRest =>
      refine .bind (ihFirst place later) fun value after outcome => ihRest value after ?_
      have soFar := isFirst.forward forward place later
      rw [outcome] at soFar
      exact Nat.le_trans later soFar
  | loop steps value ih =>
      refine .repeatFrom (fun place : Place => low ≤ place.cursor) ?_ ih value later
      intro value state soFar
      exact Nat.le_trans soFar ((steps value).forward forward state soFar)
  | nested construct _ ih => exact .nested (ih (place.entered construct) later)

/-- Which words have a rule does not depend on the rule for the statements inside. -/
theorem lookup_tagRules_eq_none_iff (first second : Parsing (Option Stmt)) (word : String) :
    (tagRules first).lookup word = none ↔ (tagRules second).lookup word = none := by
  simp only [tagRules, List.lookup_eq_none_iff, List.forall_mem_cons, List.not_mem_nil,
    false_implies, implies_true]

variable {registry : Registry} {place : Place} (closed : stream.IsClosed)
  (known : registry = {} ∨ excused)
  (forward : Parsing.Forward stream (place.cursor + 1) first)
  (same : ∀ inner : Place, place.cursor + 1 ≤ inner.cursor →
    Matches excused (first stream inner) (second stream inner))

include closed known forward same

/-- A word that has no rule is refused without extensions, whatever others make of it. -/
theorem blockTagRule_matches (isBlock : (stream.get place.cursor).kind = .blockBegin) :
    Matches excused (blockTagRule first {} stream place)
      (blockTagRule second registry stream place) := by
  have moved : stream.next place.cursor = place.cursor + 1 := closed.next_eq (by simp [isBlock])
  refine .bind (.refl _) fun opening middle outcome => ?_
  rw [lift_advance_eq] at outcome
  cases outcome
  refine .bind (.refl _) fun tag after outcome => ?_
  rw [lift_current_eq] at outcome
  cases outcome
  cases (stream.get (stream.next place.cursor)).word? with
  | none => exact .refl _
  | some word =>
      cases isRule : (tagRules first).lookup word with
      | none =>
          have isRule' := (lookup_tagRules_eq_none_iff first second word).1 isRule
          simp only [isRule, isRule']
          rcases known with rfl | isExcused
          · -- Without extensions both sides fail in the same way.
            cases Registry.isClosing {} word with
            | true => exact .refl _
            | false => exact .refl _
          · refine Or.inr ⟨isExcused, ?_⟩
            cases Registry.isClosing {} word with
            | true => exact ⟨_, _, rfl⟩
            | false => exact ⟨_, _, rfl⟩
      | some rule =>
          cases isRule' : (tagRules second).lookup word with
          | none =>
              rw [(lookup_tagRules_eq_none_iff first second word).2 isRule'] at isRule
              cases isRule
          | some rule' =>
              have sameRule := (tagRules_composed closed word (stream.get place.cursor) _
                (.throw (.unknownTag word .nowhere))).matches forward same
                { place with cursor := stream.next place.cursor } (Nat.le_of_eq moved.symm)
              simp only [isRule, isRule'] at sameRule ⊢
              exact sameRule

theorem statementRule_matches :
    Matches excused (statementRule first {} stream place)
      (statementRule second registry stream place) := by
  refine .bind (.refl _) fun token after outcome => ?_
  rw [lift_current_eq] at outcome
  cases outcome
  generalize isKind : (stream.get place.cursor).kind = kind
  cases kind with
  | blockBegin => exact blockTagRule_matches closed known forward same isKind
  | _ => exact .refl _

end Stmt

end Stencil

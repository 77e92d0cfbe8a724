import Stencil.Proofs.Lexer.Spelling
import Stencil.Proofs.Lexer.Steps
import Stencil.Proofs.Lexer.Tiling

/-!
# Walks over a whole text

A text that was cut into tokens was walked over step by step, and a walk to its end gives the
tokens. The number of steps that the lexer allows itself does not matter: it is enough for every
walk that comes to an end.
-/

namespace Stencil.Lexer

variable [Limits] {dialect : Dialect} {sourceName : Option String} {state last : State}
  {source : String}

/-- A run that ends is a walk to the end of the text. -/
theorem walks_of_run {steps : Nat} (ends : run dialect sourceName steps state = some last) :
    Relation.ReflTransGen (StepsTo dialect sourceName) state last ∧ last.rest = [] := by
  induction steps generalizing state with
  | zero =>
      rw [run] at ends
      split at ends
      · next empty =>
        cases ends
        exact ⟨.refl, empty⟩
      · simp at ends
  | succ steps ih =>
      rw [run] at ends
      split at ends
      · next empty =>
        cases ends
        exact ⟨.refl, empty⟩
      · next nonempty =>
        rcases ih ends with ⟨walks, atEnd⟩
        exact ⟨.head ⟨nonempty, rfl⟩ walks, atEnd⟩

/-- A walk to the end of the text is a run with enough steps. -/
theorem exists_run_of_walks (walks : Relation.ReflTransGen (StepsTo dialect sourceName) state last)
    (atEnd : last.rest = []) : ∃ steps, run dialect sourceName steps state = some last := by
  induction walks using Relation.ReflTransGen.head_induction_on with
  | refl => exact ⟨0, by rw [run, if_pos atEnd]⟩
  | head stepsTo _ ih =>
      rcases stepsTo with ⟨nonempty, rfl⟩
      rcases ih with ⟨steps, ends⟩
      exact ⟨steps + 1, by rw [run, if_neg nonempty, ends]⟩

omit [Limits] in
/-- What a text is cut into if the walk over it comes to an end in a state. -/
def State.result (sourceName : Option String) (last : State) : Tokenization where
  tokens := (finish sourceName last).tokens.reverse
  diagnostics := (finish sourceName last).diagnostics.reverse
  lineCount := (finish sourceName last).position.line

theorem exists_walks_of_tokenize {result : Tokenization}
    (cut : tokenize dialect sourceName source = some result) : ∃ last,
      Relation.ReflTransGen (StepsTo dialect sourceName) (.ofSource source.toList) last ∧
      last.rest = [] ∧ result = last.result sourceName := by
  rcases Option.bind_eq_some_iff.1 cut with ⟨last, ends, sameResult⟩
  rcases walks_of_run ends with ⟨walks, atEnd⟩
  exact ⟨last, walks, atEnd, (Option.some.inj sameResult).symm⟩

theorem tokenize_eq_of_walks (sound : dialect.Sound)
    (walks : Relation.ReflTransGen (StepsTo dialect sourceName) (.ofSource source.toList) last)
    (atEnd : last.rest = []) :
    tokenize dialect sourceName source = some (last.result sourceName) := by
  obtain ⟨result, cut⟩ : ∃ result, tokenize dialect sourceName source = some result := by
    rw [← Option.isSome_iff_exists, isSome_tokenize_iff_ends sound]
    rcases exists_run_of_walks walks atEnd with ⟨steps, ends⟩
    exact ⟨steps, last, ends⟩
  rcases Option.bind_eq_some_iff.1 cut with ⟨reached, ends, sameResult⟩
  rcases eq_of_walks walks atEnd ends with rfl
  rw [cut, ← sameResult]
  rfl

/-- What every step of a walk keeps holds where the walk has led to. -/
theorem walks_keep (holds : State → Prop)
    (keeps : ∀ {state : State}, holds state → state.rest ≠ [] →
      holds (step dialect sourceName state))
    (walks : Relation.ReflTransGen (StepsTo dialect sourceName) state last)
    (start : holds state) : holds last := by
  induction walks with
  | refl => exact start
  | tail _ stepsTo ih =>
      rcases stepsTo with ⟨nonempty, rfl⟩
      exact keeps ih nonempty

theorem walks_step (walks : Relation.ReflTransGen (StepsTo dialect sourceName) state last)
    (nonempty : state.rest ≠ []) (atEnd : last.rest = []) :
    Relation.ReflTransGen (StepsTo dialect sourceName) (step dialect sourceName state) last := by
  rcases walks.cases_head with rfl | ⟨next, ⟨_, rfl⟩, walks⟩
  · exact absurd atEnd nonempty
  · exact walks

theorem eq_of_walks_of_nil (walks : Relation.ReflTransGen (StepsTo dialect sourceName) state last)
    (empty : state.rest = []) : last = state := by
  rcases walks.cases_head with rfl | ⟨next, ⟨nonempty, _⟩, _⟩
  · rfl
  · exact absurd empty nonempty

/-- All along a walk the tokens tile the text that was walked over. -/
theorem exists_tiling_of_walks {source : List Char}
    (walks : Relation.ReflTransGen (StepsTo dialect sourceName) (.ofSource source) last) :
    ∃ passed, Tiling dialect source last passed := by
  refine walks_keep (fun state => ∃ passed, Tiling dialect source state passed) ?_ walks
    ⟨[], ⟨⟨[], .nil, rfl, rfl⟩, rfl⟩, fun hasPassed => absurd rfl hasPassed, trivial⟩
  rintro state ⟨_, tiling⟩ nonempty
  have move : Move dialect sourceName state (step dialect sourceName state) := step_move nonempty
  exact move.tiling tiling

/-- Each place that a walk comes to is known by the text before it. -/
theorem exists_before_of_walks {source : List Char}
    (walks : Relation.ReflTransGen (StepsTo dialect sourceName) (.ofSource source) last) :
    ∃ before, source = before ++ last.rest ∧ last.position = Position.start.advanceOver before := by
  rcases exists_tiling_of_walks walks with ⟨passed, tiling⟩
  rcases tiling.covers.exists_covered with ⟨covered, _, sameSource, samePosition⟩
  exact ⟨covered ++ passed, sameSource, samePosition⟩

/-- A walk comes to the end of the text or to a standstill. -/
theorem exists_walks (sound : dialect.Sound) (sourceName : Option String) (state : State) :
    ∃ last, Relation.ReflTransGen (StepsTo dialect sourceName) state last ∧
      (last.rest = [] ∨ Stuck dialect last) := by
  generalize sameBudget : state.budget = budget
  induction budget using Nat.strong_induction_on generalizing state with
  | _ budget ih =>
      by_cases nonempty : state.rest = []
      · exact ⟨state, .refl, Or.inl nonempty⟩
      · by_cases stuck : Stuck dialect state
        · exact ⟨state, .refl, Or.inr stuck⟩
        · have fewer : (step dialect sourceName state).budget < budget :=
            sameBudget ▸ step_budget_lt sound nonempty stuck
          rcases ih _ fewer _ rfl with ⟨last, walks, ends⟩
          exact ⟨last, .head ⟨nonempty, rfl⟩ walks, ends⟩

/-- A text is not cut into tokens if the walk over it comes to a standstill. -/
theorem tokenize_eq_none_of_walks (stuck : Stuck dialect last)
    (walks : Relation.ReflTransGen (StepsTo dialect sourceName) (.ofSource source.toList) last) :
    tokenize dialect sourceName source = none := by
  apply Option.eq_none_iff_forall_ne_some.2
  intro result cut
  rcases Option.bind_eq_some_iff.1 cut with ⟨reached, ends, _⟩
  generalize 4 * (source.toList.length + 1) = steps at ends
  generalize State.ofSource source.toList = start at ends walks
  induction walks using Relation.ReflTransGen.head_induction_on generalizing steps with
  | refl =>
      rw [stuck.run_eq_none] at ends
      simp at ends
  | head stepsTo _ ih =>
      rcases stepsTo with ⟨nonempty, rfl⟩
      cases steps with
      | zero =>
          rw [run, if_neg nonempty] at ends
          simp at ends
      | succ steps =>
          rw [run, if_neg nonempty] at ends
          exact ih _ ends

end Stencil.Lexer

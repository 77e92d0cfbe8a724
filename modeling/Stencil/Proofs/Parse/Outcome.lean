import Mathlib
import Stencil.Parse.Parsing

/-!
# Outcomes of grammar rules

A rule succeeds with a value or fails with an error, and leaves a state behind in both cases. What
is proved of a rule is a condition on the value and the state after success and a condition on the
state after failure. Conditions pass through sequences and repetitions of rules.
-/

namespace Stencil

variable {σ α β : Type}

section

variable {stream : TokenStream} {state after : σ} {value : α} {error : SyntaxError}
  {rule : ReaderT TokenStream (EStateM SyntaxError σ) α}

theorem bind_eq_of_ok {next : α → ReaderT TokenStream (EStateM SyntaxError σ) β}
    (outcome : rule stream state = .ok value after) :
    (rule >>= next) stream state = next value stream after := by
  change EStateM.bind (rule stream) (fun value => next value stream) state = _
  simp only [EStateM.bind, outcome]

theorem bind_eq_of_error {next : α → ReaderT TokenStream (EStateM SyntaxError σ) β}
    (outcome : rule stream state = .error error after) :
    (rule >>= next) stream state = .error error after := by
  change EStateM.bind (rule stream) (fun value => next value stream) state = _
  simp only [EStateM.bind, outcome]

theorem map_eq_of_ok {change : α → β} (outcome : rule stream state = .ok value after) :
    (change <$> rule) stream state = .ok (change value) after := by
  change EStateM.map change (rule stream) state = _
  simp only [EStateM.map, outcome]

theorem map_eq_of_error {change : α → β} (outcome : rule stream state = .error error after) :
    (change <$> rule) stream state = .error error after := by
  change EStateM.map change (rule stream) state = _
  simp only [EStateM.map, outcome]

variable {cursor : σ → Nat}
  {step : α → ReaderT TokenStream (EStateM SyntaxError σ) (ForInStep α)} {result : α}

theorem repeatFrom_eq_of_done (outcome : step value stream state = .ok (.done result) after) :
    repeatFrom cursor step value stream state = .ok result after := by
  rw [repeatFrom, outcome]

theorem repeatFrom_eq_of_error (outcome : step value stream state = .error error after) :
    repeatFrom cursor step value stream state = .error error after := by
  rw [repeatFrom, outcome]

theorem repeatFrom_eq_of_yield (outcome : step value stream state = .ok (.yield result) after)
    (further : cursor state < cursor after) (inside : cursor state < stream.size) :
    repeatFrom cursor step value stream state = repeatFrom cursor step result stream after := by
  rw [repeatFrom, outcome]
  exact if_pos ⟨further, inside⟩

/-- A repetition that makes no headway, or stands at the end of the tokens, is over. -/
theorem repeatFrom_eq_of_stuck (outcome : step value stream state = .ok (.yield result) after)
    (stuck : ¬(cursor state < cursor after ∧ cursor state < stream.size)) :
    repeatFrom cursor step value stream state = .ok result after := by
  rw [repeatFrom, outcome]
  exact if_neg stuck

end

namespace Parsing

variable {stream : TokenStream} {place : Place} {rule : Reading α}

theorem lift_eq_of_ok {value : α} {stop : Nat}
    (outcome : rule stream place.cursor = .ok value stop) :
    (liftM rule : Parsing α) stream place = .ok value { place with cursor := stop } := by
  change ofReading rule stream place = _
  simp only [ofReading, outcome]

theorem lift_eq_of_error {error : SyntaxError} {stop : Nat}
    (outcome : rule stream place.cursor = .error error stop) :
    (liftM rule : Parsing α) stream place = .error error { place with cursor := stop } := by
  change ofReading rule stream place = _
  simp only [ofReading, outcome]

theorem lift_advance_eq (stream : TokenStream) (place : Place) :
    (liftM Reading.advance : Parsing Token) stream place =
      .ok (stream.get place.cursor) { place with cursor := stream.next place.cursor } := rfl

theorem lift_current_eq (stream : TokenStream) (place : Place) :
    (liftM Reading.current : Parsing Token) stream place = .ok (stream.get place.cursor) place :=
  rfl

variable [Limits]

theorem nested_eq_of_ok {rule : Parsing α} {construct : String} {value : α} {after : Place}
    (room : place.depth < maxDepth)
    (outcome : rule stream (place.entered construct) = .ok value after) :
    nested construct rule stream place = .ok value after.left := by
  simp only [nested, enter, if_neg (Nat.not_le.2 room), outcome]

theorem nested_eq_of_error {rule : Parsing α} {construct : String} {error : SyntaxError}
    {after : Place} (room : place.depth < maxDepth)
    (outcome : rule stream (place.entered construct) = .error error after) :
    nested construct rule stream place = .error error after.left := by
  simp only [nested, enter, if_neg (Nat.not_le.2 room), outcome]

end Parsing

/-- A success is good, and a failure is one of those that may be. -/
def Meets (good : α → σ → Prop) (bad : SyntaxError → σ → Prop) :
    EStateM.Result SyntaxError σ α → Prop
  | .ok value state => good value state
  | .error error state => bad error state

namespace Meets

variable {good good' : α → σ → Prop} {bad bad' : SyntaxError → σ → Prop} {stream : TokenStream}
  {state : σ} {rule : ReaderT TokenStream (EStateM SyntaxError σ) α}

theorem mono {outcome : EStateM.Result SyntaxError σ α} (meets : Meets good bad outcome)
    (better : ∀ value state, good value state → good' value state)
    (worse : ∀ error state, bad error state → bad' error state) : Meets good' bad' outcome := by
  cases outcome with
  | ok value state => exact better value state meets
  | error error state => exact worse error state meets

/-- A rule is followed by another one that may depend on its value. -/
theorem bind {next : α → ReaderT TokenStream (EStateM SyntaxError σ) β} {goal : β → σ → Prop}
    (first : Meets good bad (rule stream state))
    (rest : ∀ value after, good value after → Meets goal bad (next value stream after)) :
    Meets goal bad ((rule >>= next) stream state) := by
  cases outcome : rule stream state with
  | ok value after =>
      rw [bind_eq_of_ok outcome]
      rw [outcome] at first
      exact rest value after first
  | error error after =>
      rw [bind_eq_of_error outcome]
      rw [outcome] at first
      exact first

theorem of_ok {value : α} {after : σ} (outcome : rule stream state = .ok value after)
    (holds : good value after) : Meets good bad (rule stream state) := by
  rw [outcome]
  exact holds

theorem of_error {error : SyntaxError} {after : σ}
    (outcome : rule stream state = .error error after) (holds : bad error after) :
    Meets good bad (rule stream state) := by
  rw [outcome]
  exact holds

theorem bind_of_ok {next : α → ReaderT TokenStream (EStateM SyntaxError σ) β}
    {goal : β → σ → Prop} {value : α} {after : σ} (outcome : rule stream state = .ok value after)
    (rest : Meets goal bad (next value stream after)) :
    Meets goal bad ((rule >>= next) stream state) := by
  rw [bind_eq_of_ok outcome]
  exact rest

theorem map {change : α → β} {goal : β → σ → Prop} (first : Meets good bad (rule stream state))
    (changed : ∀ value after, good value after → goal (change value) after) :
    Meets goal bad ((change <$> rule) stream state) := by
  cases outcome : rule stream state with
  | ok value after =>
      rw [map_eq_of_ok outcome]
      rw [outcome] at first
      exact changed value after first
  | error error after =>
      rw [map_eq_of_error outcome]
      rw [outcome] at first
      exact first

/-- What holds before a repetition and is kept by each step that asks for more holds where the
repetition ends. A step that asks for more must have read a token, or have reached the goal. -/
theorem repeatFrom (good : α → σ → Prop) {cursor : σ → Nat}
    {step : α → ReaderT TokenStream (EStateM SyntaxError σ) (ForInStep α)} {goal : α → σ → Prop}
    (kept : ∀ value state, good value state →
      Meets (fun result after => match result with
        | .done value => goal value after
        | .yield value => good value after ∧
            ((cursor state < cursor after ∧ cursor state < stream.size) ∨ goal value after))
        bad (step value stream state))
    {value : α} (start : good value state) :
    Meets goal bad (Stencil.repeatFrom cursor step value stream state) := by
  fun_induction Stencil.repeatFrom cursor step value stream state with
  | case1 value state error after outcome =>
      have := kept value state start
      rwa [outcome] at this
  | case2 value state last after outcome =>
      have := kept value state start
      rwa [outcome] at this
  | case3 value state more after outcome further ih =>
      have := kept value state start
      rw [outcome] at this
      exact ih this.1
  | case4 value state more after outcome stays =>
      have := kept value state start
      rw [outcome] at this
      rcases this.2 with progress | reached
      · exact absurd progress stays
      · exact reached

end Meets

end Stencil

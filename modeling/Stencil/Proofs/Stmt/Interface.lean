import Stencil.Proofs.Stmt.Following
import Stencil.Proofs.Stmt.Nesting

/-!
# Rules that work through the parser

An extension reads its tags with what the parser offers: it looks at tokens and moves among them,
enters and leaves constructs, uses the rule for statements, and may go on after an error. Whatever
it does so, the trail stays an account of the constructs that are open. And since the rule for
statements is only ever used at places with such a trail, two rules that agree there are the same to
an extension.
-/

namespace Stencil

/-- What holds of the state after any outcome holds after success and after failure. -/
theorem Meets.stateAfter_iff {σ α : Type} {good : σ → Prop}
    {outcome : EStateM.Result SyntaxError σ α} :
    Meets (fun _ after => good after) (fun _ after => good after) outcome ↔
      good (stateAfter outcome) := by
  cases outcome with
  | ok value after => exact Iff.rfl
  | error error after => exact Iff.rfl

namespace Parsing

variable {α : Type} {stream : TokenStream}

/-- Uses a rule and goes on after its error, if it fails. -/
def attempt (rule : Parsing α) : Parsing (Except SyntaxError α) := fun stream place =>
  match rule stream place with
  | .ok value after => .ok (.ok value) after
  | .error error after => .ok (.error error) after

theorem exists_attempt_eq (rule : Parsing α) (stream : TokenStream) (place : Place) :
    ∃ outcome, attempt rule stream place = .ok outcome (stateAfter (rule stream place)) := by
  unfold attempt
  cases rule stream place with
  | ok value after => exact ⟨.ok value, rfl⟩
  | error error after => exact ⟨.error error, rfl⟩

variable [Limits]

/-- To use a rule one construct deeper is to enter, to use it, and to leave in any case. -/
theorem nested_eq (construct : String) (rule : Parsing α) : nested construct rule = (do
    enter construct
    let outcome ← attempt rule
    leave
    match outcome with
    | .ok value => pure value
    | .error error => throw error) := by
  funext stream place
  by_cases full : maxDepth ≤ place.depth
  · have refused : enter construct stream place =
        .error (.tooDeep maxDepth (stream.get place.cursor).span) place := if_pos full
    rw [nested_eq_of_full full, bind_eq_of_error refused]
  · have room : place.depth < maxDepth := by omega
    have entered : enter construct stream place = .ok () (place.entered construct) := if_neg full
    rw [bind_eq_of_ok entered]
    cases outcome : rule stream (place.entered construct) with
    | ok value after =>
        have attempted : attempt rule stream (place.entered construct) = .ok (.ok value) after := by
          rw [attempt, outcome]
        rw [nested_eq_of_ok room outcome, bind_eq_of_ok attempted]
        rfl
    | error error after =>
        have attempted : attempt rule stream (place.entered construct) =
            .ok (.error error) after := by
          rw [attempt, outcome]
        rw [nested_eq_of_error room outcome, bind_eq_of_ok attempted]
        rfl

/-- The index of the next token. -/
def position : Parsing Nat :=
  leveled fun _ _ cursor => .ok cursor cursor

end Parsing

variable [Limits]

namespace Stmt

open Reading Parsing

/-- Rules that use the parser through what it offers to extensions. -/
inductive Interfaced (stream : TokenStream) :
    {α : Type} → (Parsing (Option Stmt) → Parsing α) → Prop where
  | pure {α : Type} (value : α) : Interfaced stream fun _ => pure value
  | throw {α : Type} (error : SyntaxError) : Interfaced stream fun _ => (throw error : Parsing α)
  | leveled {α : Type} (rule : Nat → Reading α) : Interfaced stream fun _ => leveled rule
  | statement : Interfaced stream fun statement => statement
  | enter (construct : String) : Interfaced stream fun _ => enter construct
  | leave : Interfaced stream fun _ => leave
  | attempt {α : Type} {rule : Parsing (Option Stmt) → Parsing α}
      (interfaced : Interfaced stream rule) :
      Interfaced stream fun statement => attempt (rule statement)
  | bind {α β : Type} {rule : Parsing (Option Stmt) → Parsing α}
      {next : Parsing (Option Stmt) → α → Parsing β} (first : Interfaced stream rule)
      (rest : ∀ value, Interfaced stream fun statement => next statement value) :
      Interfaced stream fun statement => rule statement >>= next statement
  | loop {α : Type} {step : Parsing (Option Stmt) → α → Parsing (ForInStep α)}
      (steps : ∀ value, Interfaced stream fun statement => step statement value) (value : α) :
      Interfaced stream fun statement => Parsing.loop (step statement) value

namespace Interfaced

variable {α : Type} {stream : TokenStream}

theorem lift (rule : Reading α) : Interfaced stream fun _ => (liftM rule : Parsing α) :=
  .leveled fun _ => rule

theorem nested (construct : String) {rule : Parsing (Option Stmt) → Parsing α}
    (interfaced : Interfaced stream rule) :
    Interfaced stream fun statement => Parsing.nested construct (rule statement) := by
  simp only [nested_eq]
  refine .bind (.enter construct) fun _ => .bind (.attempt interfaced) fun outcome => ?_
  refine .bind .leave fun _ => ?_
  cases outcome with
  | ok value => exact .pure value
  | error error => exact .throw error

/-- The rules of the grammar work through the parser. -/
theorem of_composed {rule : Parsing (Option Stmt) → Parsing α} (composed : Composed stream rule) :
    Interfaced stream rule := by
  induction composed with
  | pure value => exact .pure value
  | throw error => exact .throw error
  | leveled => exact .leveled _
  | statement => exact .statement
  | bind _ _ ihFirst ihRest => exact .bind ihFirst ihRest
  | loop _ value ih => exact .loop ih value
  | nested construct _ ih => exact .nested construct ih

end Interfaced

end Stmt

namespace Parsing

variable {α : Type} {stream : TokenStream} {rule : Parsing α}

/-- A rule keeps an account of the open constructs, whether or not it leaves those it enters. -/
def KeepsAccount (stream : TokenStream) (rule : Parsing α) : Prop :=
  ∀ place : Place, place.Accounted →
    Meets (fun _ after => after.Accounted) (fun _ after => after.Accounted) (rule stream place)

namespace KeepsAccount

theorem leveled (rule : Nat → Reading α) : KeepsAccount stream (leveled rule) := by
  intro place accounted
  unfold Parsing.leveled ofReading
  cases rule place.levels stream place.cursor with
  | ok value stop => exact ⟨accounted.bounded, accounted.counted⟩
  | error error stop => exact ⟨accounted.bounded, accounted.counted⟩

theorem enter (construct : String) : KeepsAccount stream (enter construct) := by
  intro place accounted
  unfold Parsing.enter
  split
  · exact accounted
  · next notFull => exact accounted.entered (by omega) construct

theorem attempt (keeps : KeepsAccount stream rule) : KeepsAccount stream (attempt rule) := by
  intro place accounted
  rcases exists_attempt_eq rule stream place with ⟨outcome, attempted⟩
  exact .of_ok attempted (Meets.stateAfter_iff.1 (keeps place accounted))

end KeepsAccount

theorem KeepsNesting.attempt (keeps : KeepsNesting stream rule) :
    KeepsNesting stream (attempt rule) := by
  intro place accounted
  rcases exists_attempt_eq rule stream place with ⟨outcome, attempted⟩
  rw [attempted]
  exact keeps place accounted

end Parsing

namespace Stmt

open Reading Parsing

variable {α : Type} {stream : TokenStream} {rule : Parsing (Option Stmt) → Parsing α}

/-- What works through the parser keeps an account if the rule for statements does. -/
theorem Interfaced.keepsAccount (interfaced : Interfaced stream rule)
    {statement : Parsing (Option Stmt)} (keeps : KeepsAccount stream statement) :
    KeepsAccount stream (rule statement) := by
  induction interfaced with
  | pure | throw => exact fun place accounted => accounted
  | leveled rule => exact .leveled rule
  | statement => exact keeps
  | enter construct => exact .enter construct
  | leave => exact fun place accounted => accounted.left
  | attempt _ ih => exact ih.attempt
  | bind _ _ ihFirst ihRest =>
      intro place accounted
      exact .bind (ihFirst place accounted) fun value after kept => ihRest value after kept
  | loop _ value ih =>
      intro place accounted
      refine .repeatFrom (fun _ place => place.Accounted) (fun value place kept => ?_) accounted
      refine (ih value place kept).mono (fun result after keptAfter => ?_) fun _ _ kept => kept
      cases result with
      | done => exact keptAfter
      | yield => exact ⟨keptAfter, Or.inr keptAfter⟩

/-- Two rules for statements that agree wherever the open constructs are accounted for are the same
to whatever works through the parser. -/
theorem Interfaced.agrees (interfaced : Interfaced stream rule)
    {first second : Parsing (Option Stmt)} (keeps : KeepsAccount stream first)
    (same : ∀ inner : Place, inner.Accounted → second stream inner = first stream inner)
    (place : Place) (accounted : place.Accounted) :
    rule second stream place = rule first stream place := by
  suffices agree : Matches False (rule first stream place) (rule second stream place) from
    agree.eq_of_not not_false
  induction interfaced generalizing place with
  | pure | throw | leveled | enter | leave => exact .refl _
  | statement => exact Or.inl (same place accounted)
  | @attempt _ rule _ ih =>
      have sameRule := (ih place accounted).eq_of_not not_false
      refine Or.inl ?_
      show Parsing.attempt (rule second) stream place = Parsing.attempt (rule first) stream place
      simp only [Parsing.attempt, sameRule]
  | bind isFirst _ ihFirst ihRest =>
      refine .bind (ihFirst place accounted) fun value after outcome => ihRest value after ?_
      have kept := isFirst.keepsAccount keeps place accounted
      rwa [outcome] at kept
  | loop steps value ih =>
      refine .repeatFrom Place.Accounted (fun value state soFar => ?_) ih value accounted
      exact Meets.stateAfter_iff.1 ((steps value).keepsAccount keeps state soFar)

end Stmt

end Stencil

import Stencil.Proofs.Stmt.Progress

/-!
# Constructs are entered and left in pairs

A trail names the open constructs until it is full, and from then on only their number is counted.
Entering and leaving keep it so. Every rule leaves the constructs that it enters, whether it
succeeds or fails, and so comes back to the number and the names that it was started with.
-/

namespace Stencil

namespace Place

/-- A place that is not too deep, and whose trail names its constructs as far as there is room. -/
structure Accounted [Limits] (place : Place) : Prop where
  bounded : place.depth ≤ maxDepth
  counted : place.trail.length = min place.depth maxTrail

/-- Two places have the same constructs open. -/
structure SameNesting (place after : Place) : Prop where
  depth_eq : after.depth = place.depth
  trail_eq : after.trail = place.trail

variable {place middle after : Place}

theorem SameNesting.refl (place : Place) : place.SameNesting place :=
  ⟨rfl, rfl⟩

theorem SameNesting.trans (first : place.SameNesting middle) (second : middle.SameNesting after) :
    place.SameNesting after :=
  ⟨second.depth_eq.trans first.depth_eq, second.trail_eq.trans first.trail_eq⟩

variable [Limits]

theorem SameNesting.accounted (same : place.SameNesting after) (accounted : place.Accounted) :
    after.Accounted := by
  constructor
  · rw [same.depth_eq]
    exact accounted.bounded
  · rw [same.depth_eq, same.trail_eq]
    exact accounted.counted

theorem accounted_start : ({} : Place).Accounted :=
  ⟨Nat.zero_le _, rfl⟩

theorem Accounted.entered (accounted : place.Accounted) (room : place.depth < maxDepth)
    (construct : String) : (place.entered construct).Accounted := by
  have counted := accounted.counted
  constructor
  · simp only [Place.entered]
    omega
  · simp only [Place.entered]
    split
    · simp only [List.length_append, List.length_singleton]
      omega
    · omega

theorem Accounted.left (accounted : place.Accounted) : place.left.Accounted := by
  have bounded := accounted.bounded
  have counted := accounted.counted
  constructor
  · simp only [Place.left]
    omega
  · simp only [Place.left, List.length_take]
    omega

/-- Leaving the construct that was entered leads back, also where the trail was full. -/
theorem Accounted.left_of_entered (accounted : place.Accounted) {construct : String}
    (same : (place.entered construct).SameNesting after) : place.SameNesting after.left := by
  have counted := accounted.counted
  have depth_eq : after.depth - 1 = place.depth := by
    rw [same.depth_eq]
    rfl
  constructor
  · exact depth_eq
  · simp only [Place.left, depth_eq, same.trail_eq, Place.entered]
    split
    · next room =>
      have isAll : place.depth = place.trail.length := by omega
      rw [isAll, List.take_left]
    · exact List.take_of_length_le (by omega)

end Place

/-! ### Entering and leaving in any order -/

/-- Something that changes the constructs that are open. -/
inductive NestingCall where
  | enter (construct : String)
  | leave

variable [Limits]

namespace NestingCall

/-- The place after a call, whether or not it was refused. -/
def after (stream : TokenStream) (place : Place) : NestingCall → Place
  | enter construct => stateAfter (Parsing.enter construct stream place)
  | leave => stateAfter (Parsing.leave stream place)

theorem accounted_after {place : Place} (accounted : place.Accounted) (stream : TokenStream)
    (call : NestingCall) : (call.after stream place).Accounted := by
  cases call with
  | enter construct =>
      simp only [after, Parsing.enter]
      split
      · exact accounted
      · next notFull => exact accounted.entered (by omega) construct
  | leave => exact accounted.left

theorem accounted_foldl {place : Place} (accounted : place.Accounted) (stream : TokenStream)
    (calls : List NestingCall) : (calls.foldl (NestingCall.after stream) place).Accounted := by
  induction calls generalizing place with
  | nil => exact accounted
  | cons call calls ih => exact ih (accounted_after accounted stream call)

end NestingCall

/-! ### Rules -/

namespace Parsing

variable {α β : Type} {stream : TokenStream}

/-- A rule leaves the constructs that it enters, whether it succeeds or fails. -/
def KeepsNesting (stream : TokenStream) (rule : Parsing α) : Prop :=
  ∀ place : Place, place.Accounted → place.SameNesting (stateAfter (rule stream place))

namespace KeepsNesting

theorem leveled (rule : Nat → Reading α) : KeepsNesting stream (leveled rule) := by
  intro place _
  rw [stateAfter_leveled]
  exact ⟨rfl, rfl⟩

theorem bind {rule : Parsing α} {next : α → Parsing β} (first : KeepsNesting stream rule)
    (rest : ∀ value, KeepsNesting stream (next value)) : KeepsNesting stream (rule >>= next) := by
  intro place accounted
  have same := first place accounted
  cases outcome : rule stream place with
  | ok value middle =>
      rw [outcome] at same
      rw [bind_eq_of_ok outcome]
      exact same.trans (rest value middle (same.accounted accounted))
  | error error middle =>
      rw [outcome] at same
      rwa [bind_eq_of_error outcome]

theorem loop {step : α → Parsing (ForInStep α)} (steps : ∀ value, KeepsNesting stream (step value))
    (value : α) : KeepsNesting stream (Parsing.loop step value) := by
  intro place accounted
  unfold Parsing.loop
  fun_induction repeatFrom Place.cursor step value stream place with
  | case1 value place error after outcome =>
      have same := steps value place accounted
      rwa [outcome] at same
  | case2 value place result after outcome =>
      have same := steps value place accounted
      rwa [outcome] at same
  | case3 value place more middle outcome _ ih =>
      have same := steps value place accounted
      rw [outcome] at same
      exact same.trans (ih (same.accounted accounted))
  | case4 value place more middle outcome _ =>
      have same := steps value place accounted
      rwa [outcome] at same

theorem nested (construct : String) {rule : Parsing α} (inside : KeepsNesting stream rule) :
    KeepsNesting stream (Parsing.nested construct rule) := by
  intro place accounted
  by_cases full : maxDepth ≤ place.depth
  · rw [nested_eq_of_full full]
    exact .refl place
  · have room : place.depth < maxDepth := by omega
    have same := inside (place.entered construct) (accounted.entered room construct)
    cases outcome : rule stream (place.entered construct) with
    | ok value after =>
        rw [outcome] at same
        rw [nested_eq_of_ok room outcome]
        exact accounted.left_of_entered same
    | error error after =>
        rw [outcome] at same
        rw [nested_eq_of_error room outcome]
        exact accounted.left_of_entered same

end KeepsNesting

/-- A rule for expressions that goes one level deeper is the rule below it inside of a construct. -/
theorem leveled_eq_nested {rule below : Nat → Reading α} (atEnd : rule 0 = Expr.tooDeep)
    (deeper : ∀ levels, rule (levels + 1) = below levels) {place : Place}
    (accounted : place.Accounted) (construct : String) :
    leveled rule stream place = nested construct (leveled below) stream place := by
  by_cases full : maxDepth ≤ place.depth
  · have noLevel : place.levels = 0 := by
      unfold Place.levels
      omega
    rw [nested_eq_of_full full, leveled, noLevel, atEnd]
    rfl
  · have room : place.depth < maxDepth := by omega
    have oneLess : place.levels = (place.entered construct).levels + 1 := by
      simp only [Place.levels, Place.entered]
      omega
    have back (stop : Nat) :
        ({ place.entered construct with cursor := stop } : Place).left =
          { place with cursor := stop } := by
      have moved : (place.entered construct).SameNesting
          { place.entered construct with cursor := stop } := ⟨rfl, rfl⟩
      have same := accounted.left_of_entered moved
      rw [Place.mk.injEq]
      exact ⟨rfl, same.depth_eq, same.trail_eq⟩
    rw [leveled, oneLess, deeper]
    cases outcome : below (place.entered construct).levels stream place.cursor with
    | ok value stop =>
        have inner : leveled below stream (place.entered construct) =
            .ok value { place.entered construct with cursor := stop } := lift_eq_of_ok outcome
        rw [nested_eq_of_ok room inner, back]
        exact lift_eq_of_ok outcome
    | error error stop =>
        have inner : leveled below stream (place.entered construct) =
            .error error { place.entered construct with cursor := stop } := lift_eq_of_error outcome
        rw [nested_eq_of_error room inner, back]
        exact lift_eq_of_error outcome

end Parsing

namespace Stmt

open Reading Parsing

variable {stream : TokenStream}

/-- A composed rule leaves what it enters if the rule for statements does. -/
theorem Composed.keepsNesting {α : Type} {rule : Parsing (Option Stmt) → Parsing α}
    (composed : Composed stream rule) {statement : Parsing (Option Stmt)}
    (keeps : KeepsNesting stream statement) : KeepsNesting stream (rule statement) := by
  induction composed with
  | pure | throw => exact fun place _ => .refl place
  | leveled => exact .leveled _
  | statement => exact keeps
  | bind _ _ ihFirst ihRest => exact .bind ihFirst ihRest
  | loop _ value ih => exact .loop ih value
  | nested construct _ ih => exact .nested construct ih

variable (closed : stream.IsClosed)

include closed

theorem blockTagRule_composed :
    Composed stream fun statement => blockTagRule statement {} :=
  .bind (.lift .advance) (blockTag_composed closed)

theorem statementRule_composed :
    Composed stream fun statement => statementRule statement {} := by
  refine .current fun token => ?_
  split
  · exact .map _ textRule_composed
  · exact .map _ (.nested _ (outputRule_composed closed))
  · exact blockTagRule_composed closed
  · exact .map _ rawRule_composed
  · exact .bind (.lift skipComment_forward) fun _ => .pure _
  · exact .bind (.lift skipComment_forward) fun _ => .pure _
  · exact .refuse _ _

/-- Without extensions, the rule for statements leaves what it enters. -/
theorem parse_keepsNesting : KeepsNesting stream (parse {}) := by
  intro place
  generalize left : stream.size - place.cursor = count
  induction count using Nat.strongRecOn generalizing place with
  | ind count ih =>
      have inner : KeepsNesting stream (beyond {} stream place) := by
        intro inner accounted
        unfold beyond
        split
        · next further => exact ih (stream.size - inner.cursor) (by omega) inner rfl accounted
        · exact .refl inner
      intro accounted
      rw [parse_eq]
      exact (statementRule_composed closed).keepsNesting inner place accounted

end Stmt

end Stencil

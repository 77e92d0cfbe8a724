import Stencil.Proofs.Parse.Passing

/-!
# What errors are about

A rule that fails names a token. Most rules name the token at which they stop, others an earlier
one: the first token of an argument that stands in the wrong place, or the token that opened a block
which nothing closes. So two places belong to a rule here: one from which on it is used, and one
from which on it may name tokens. Looking at a token raises the first of them, so that the token can
be named in what follows, while the second is raised only where a new tag is opened.
-/

namespace Stencil

variable {σ α β : Type}

/-- An error is about a token between two places. -/
def SyntaxError.IsAbout (stream : TokenStream) (low stop : Nat) (error : SyntaxError) : Prop :=
  ∃ index, low ≤ index ∧ index ≤ stop ∧ error.span = (stream.get index).span

theorem SyntaxError.IsAbout.before {stream : TokenStream} {low start stop : Nat}
    {error : SyntaxError} (isAbout : error.IsAbout stream start stop) (inOrder : low ≤ start) :
    error.IsAbout stream low stop := by
  rcases isAbout with ⟨index, fromStart, beforeStop, sameSpan⟩
  exact ⟨index, Nat.le_trans inOrder fromStart, beforeStop, sameSpan⟩

theorem SyntaxError.span_ofToken (token : Token) (expected : String) :
    (SyntaxError.ofToken token expected).span = token.span := by
  unfold SyntaxError.ofToken
  split <;> rfl

/-- A rule used from `start` on never goes back, and fails with an error about a token between `low`
and the place where it stops. -/
def BlamesFrom (stream : TokenStream) (cursor : σ → Nat) (low start : Nat)
    (rule : ReaderT TokenStream (EStateM SyntaxError σ) α) : Prop :=
  low ≤ start → ∀ state, start ≤ cursor state →
    Meets (fun _ after => cursor state ≤ cursor after)
      (fun error after => error.IsAbout stream low (cursor after)) (rule stream state)

namespace BlamesFrom

variable {stream : TokenStream} {cursor : σ → Nat} {low start : Nat}
  {rule : ReaderT TokenStream (EStateM SyntaxError σ) α}

theorem lower (blames : BlamesFrom stream cursor start start rule) :
    BlamesFrom stream cursor low start rule := by
  intro inOrder state later
  apply (blames (Nat.le_refl _) state later).mono
  · intro value after notBack
    exact notBack
  · intro error after isAbout
    exact SyntaxError.IsAbout.before isAbout inOrder

theorem pure (value : α) : BlamesFrom stream cursor low start
    (Pure.pure value : ReaderT TokenStream (EStateM SyntaxError σ) α) := by
  intro _ state _
  exact Nat.le_refl (cursor state)

theorem throw_here {error : SyntaxError} (sameSpan : error.span = (stream.get start).span) :
    BlamesFrom stream cursor low start
      (MonadExcept.throw error : ReaderT TokenStream (EStateM SyntaxError σ) α) := by
  intro inOrder state later
  exact ⟨start, inOrder, later, sameSpan⟩

theorem throw_bind {error : SyntaxError} {next : α → ReaderT TokenStream (EStateM SyntaxError σ) β}
    (sameSpan : error.span = (stream.get start).span) :
    BlamesFrom stream cursor low start
      ((MonadExcept.throw error : ReaderT TokenStream (EStateM SyntaxError σ) α) >>= next) := by
  intro inOrder state later
  exact ⟨start, inOrder, later, sameSpan⟩

theorem throw_opening {error : SyntaxError} (sameSpan : error.span = (stream.get low).span) :
    BlamesFrom stream cursor low start
      (MonadExcept.throw error : ReaderT TokenStream (EStateM SyntaxError σ) α) := by
  intro inOrder state later
  exact ⟨low, Nat.le_refl _, Nat.le_trans inOrder later, sameSpan⟩

theorem bind {next : α → ReaderT TokenStream (EStateM SyntaxError σ) β}
    (first : BlamesFrom stream cursor low start rule)
    (rest : ∀ value, BlamesFrom stream cursor low start (next value)) :
    BlamesFrom stream cursor low start (rule >>= next) := by
  intro inOrder state later
  apply (first inOrder state later).bind
  intro value middle notBack
  apply (rest value inOrder middle (Nat.le_trans later notBack)).mono
  · intro result after soFar
    exact Nat.le_trans notBack soFar
  · intro error after isAbout
    exact isAbout

theorem map {change : α → β} (blames : BlamesFrom stream cursor low start rule) :
    BlamesFrom stream cursor low start (change <$> rule) := by
  intro inOrder state later
  exact (blames inOrder state later).map fun _ _ notBack => notBack

theorem repeatFrom {step : α → ReaderT TokenStream (EStateM SyntaxError σ) (ForInStep α)}
    (steps : ∀ value, BlamesFrom stream cursor low start (step value)) (value : α) :
    BlamesFrom stream cursor low start (Stencil.repeatFrom cursor step value) := by
  intro inOrder state later
  apply Meets.repeatFrom fun _ after => cursor state ≤ cursor after
  · intro value middle notBack
    apply (steps value inOrder middle (Nat.le_trans later notBack)).mono
    · intro result after soFar
      have further := Nat.le_trans notBack soFar
      cases result with
      | done => exact further
      | yield => exact ⟨further, Or.inr further⟩
    · intro error after isAbout
      exact isAbout
  · exact Nat.le_refl _

end BlamesFrom

/-! ### Rules over tokens -/

namespace Reading

variable {stream : TokenStream} {low start : Nat}

abbrev Blames (stream : TokenStream) (low start : Nat) (rule : Reading α) : Prop :=
  BlamesFrom stream id low start rule

namespace Blames

/-- A token that is looked at can be named from there on. -/
theorem current {next : Token → Reading β}
    (rest : ∀ here, start ≤ here → Blames stream low here (next (stream.get here))) :
    Blames stream low start (Reading.current >>= next) := by
  intro inOrder here later
  exact rest here later (Nat.le_trans inOrder later) here (Nat.le_refl _)

theorem peek {count : Nat} {next : Token → Reading β}
    (rest : ∀ token, Blames stream low start (next token)) :
    Blames stream low start (Reading.peek count >>= next) := by
  intro inOrder here later
  exact rest (stream.get (here + count)) inOrder here later

theorem originAt {line : Nat} {next : Origin → Reading β}
    (rest : ∀ origin, Blames stream low start (next origin)) :
    Blames stream low start (Reading.originAt line >>= next) := by
  intro inOrder here later
  exact rest ⟨line, stream.sourceName⟩ inOrder here later

theorem advance {next : Token → Reading β}
    (rest : ∀ here, start ≤ here → Blames stream low here (next (stream.get here))) :
    Blames stream low start (Reading.advance >>= next) := by
  intro inOrder here later
  have notBack := stream.le_next here
  apply (rest here later (Nat.le_trans inOrder later) (stream.next here) notBack).mono
  · intro value after further
    exact Nat.le_trans notBack further
  · intro error after isAbout
    exact isAbout

theorem refuse (expected : String) :
    Blames stream low start (Reading.refuse (stream.get start) expected : Reading α) :=
  .throw_here (SyntaxError.span_ofToken _ _)

theorem loop {step : α → Reading (ForInStep α)}
    (steps : ∀ value, Blames stream low start (step value)) (value : α) :
    Blames stream low start (Reading.loop step value) :=
  BlamesFrom.repeatFrom steps value

theorem advance_pure (value : α) : Blames stream low start (do
    let _ ← Reading.advance
    return value) := by
  apply advance
  intro here later
  exact .pure _

theorem expect {kind : Token.Kind} {expected : String} {next : Token → Reading β}
    (rest : ∀ here, start ≤ here → Blames stream low here (next (stream.get here))) :
    Blames stream low start (Reading.expect kind expected >>= next) := by
  intro inOrder here later
  by_cases isKind : (stream.get here).kind = kind
  · rw [bind_eq_of_ok (expect_eq_of_kind isKind expected)]
    exact advance rest inOrder here later
  · rw [bind_eq_of_error (expect_eq_of_ne isKind expected)]
    exact ⟨here, Nat.le_trans inOrder later, Nat.le_refl _, SyntaxError.span_ofToken _ _⟩

end Blames

theorem skipIf_blames (kind : Token.Kind) : Blames stream low start (skipIf kind) := by
  apply Blames.current
  intro here later
  split
  · exact .advance_pure _
  · exact .pure _

theorem skipWord_blames (word : String) : Blames stream low start (skipWord word) := by
  apply Blames.current
  intro here later
  split
  · exact .advance_pure _
  · exact .pure _

theorem expectWord_blames (word : String) : Blames stream low start (expectWord word) := by
  apply Blames.current
  intro here later
  split
  · exact .advance_pure _
  · exact .refuse _

theorem identifier_blames : Blames stream low start identifier := by
  apply Blames.current
  intro here later
  split
  · exact .advance_pure _
  · exact .refuse _

theorem dottedName_blames : Blames stream low start dottedName := by
  apply identifier_blames.bind
  intro name
  apply Blames.loop
  intro name
  apply Blames.current
  intro here later
  apply Blames.peek
  intro token
  split
  · apply Blames.advance
    intro here later
    apply Blames.advance
    intro here later
    exact .pure _
  · exact .pure _

theorem commaList_blames {close : Token.Kind} {expected : String} {isEmpty : α → Bool}
    {item : α → Reading α} {none : α}
    (items : ∀ value low start, Blames stream low start (item value)) :
    Blames stream low start (commaList close expected isEmpty item none) := by
  apply BlamesFrom.bind
  · apply Blames.loop
    intro value
    apply Blames.current
    intro here later
    split
    · exact .pure _
    · split
      · exact (items _ _ _).bind fun _ => .pure _
      · apply Blames.expect
        intro here later
        apply Blames.current
        intro here later
        split
        · exact .pure _
        · exact (items _ _ _).bind fun _ => .pure _
  · intro items
    exact Blames.advance_pure items

end Reading

/-! ### Rules for statements -/

namespace Parsing

variable {stream : TokenStream} {low start : Nat}

abbrev Blames (stream : TokenStream) (low start : Nat) (rule : Parsing α) : Prop :=
  BlamesFrom stream Place.cursor low start rule

namespace Blames

theorem lift {rule : Reading α} (blames : Reading.Blames stream low start rule) :
    Blames stream low start (liftM rule : Parsing α) := by
  intro inOrder place later
  have outcome := blames inOrder place.cursor later
  show Meets _ _ (Parsing.ofReading rule stream place)
  unfold Parsing.ofReading
  cases result : rule stream place.cursor with
  | ok value stop =>
      rw [result] at outcome
      exact outcome
  | error error stop =>
      rw [result] at outcome
      exact outcome

/-- A token that is looked at can be named from there on. -/
theorem current {next : Token → Parsing β}
    (rest : ∀ here, start ≤ here → Blames stream low here (next (stream.get here))) :
    Blames stream low start (liftM Reading.current >>= next) := by
  intro inOrder place later
  exact rest place.cursor later (Nat.le_trans inOrder later) place (Nat.le_refl _)

theorem origin {opening : Token} {next : Origin → Parsing β}
    (rest : ∀ origin, Blames stream low start (next origin)) :
    Blames stream low start (liftM (Reading.originAt opening.line) >>= next) := by
  intro inOrder place later
  exact rest ⟨opening.line, stream.sourceName⟩ inOrder place later

theorem advance {next : Token → Parsing β}
    (rest : ∀ here, start ≤ here → Blames stream low here (next (stream.get here))) :
    Blames stream low start (liftM Reading.advance >>= next) := by
  intro inOrder place later
  have notBack := stream.le_next place.cursor
  apply (rest place.cursor later (Nat.le_trans inOrder later)
    { place with cursor := stream.next place.cursor } notBack).mono
  · intro value after further
    exact Nat.le_trans notBack further
  · intro error after isAbout
    exact isAbout

theorem expect {kind : Token.Kind} {expected : String} {next : Token → Parsing β}
    (rest : ∀ here, start ≤ here → Blames stream low here (next (stream.get here))) :
    Blames stream low start (liftM (Reading.expect kind expected) >>= next) := by
  intro inOrder place later
  by_cases isKind : (stream.get place.cursor).kind = kind
  · rw [bind_eq_of_ok (lift_eq_of_ok (Reading.expect_eq_of_kind isKind expected))]
    exact advance rest inOrder place later
  · rw [bind_eq_of_error (lift_eq_of_error (Reading.expect_eq_of_ne isKind expected))]
    exact ⟨place.cursor, Nat.le_trans inOrder later, Nat.le_refl _, SyntaxError.span_ofToken _ _⟩

theorem refuse (expected : String) :
    Blames stream low start (liftM (Reading.refuse (stream.get start) expected : Reading α)) :=
  .throw_here (SyntaxError.span_ofToken _ _)

theorem loop {step : α → Parsing (ForInStep α)}
    (steps : ∀ value, Blames stream low start (step value)) (value : α) :
    Blames stream low start (Parsing.loop step value) :=
  BlamesFrom.repeatFrom steps value

variable [Limits]

theorem leveled {rule : Nat → Reading α}
    (blames : ∀ levels, Reading.Blames stream low start (rule levels)) :
    Blames stream low start fun stream place =>
      Parsing.ofReading (rule place.levels) stream place := by
  intro inOrder place later
  exact lift (blames place.levels) inOrder place later

theorem nested {construct : String} {rule : Parsing α} (blames : Blames stream low start rule) :
    Blames stream low start (Parsing.nested construct rule) := by
  intro inOrder place later
  by_cases full : maxDepth ≤ place.depth
  · simp only [Parsing.nested, Parsing.enter, if_pos full]
    exact ⟨place.cursor, Nat.le_trans inOrder later, Nat.le_refl _, rfl⟩
  · have room : place.depth < maxDepth := by omega
    have outcome := blames inOrder (place.entered construct) later
    cases inner : rule stream (place.entered construct) with
    | ok value after =>
        rw [inner] at outcome
        exact .of_ok (nested_eq_of_ok room inner) outcome
    | error error after =>
        rw [inner] at outcome
        exact .of_error (nested_eq_of_error room inner) outcome

end Blames

end Parsing

end Stencil

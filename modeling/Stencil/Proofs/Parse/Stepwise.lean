import Stencil.Proofs.Parse.Repeating

/-!
# Rules composed of looks and steps

Rules over tokens are composed of looks at the next token, steps over it, sequences and repetitions.
Some look at the token after the next one, but make nothing of it unless the next one stands inside
a tag. What a rule does inside of a tag therefore depends on the tokens up to the end of that tag
only: it does the same in another stream in which the tag stands at another place, whatever comes
before and after it.
-/

namespace Stencil

namespace Reading

/-- Rules that are composed of looks at the next token and of steps over it. A look at one token
more makes no difference where the next token stands outside of tags. -/
inductive Stepwise : {α : Type} → Reading α → Prop where
  | pure {α : Type} (value : α) : Stepwise (pure value : Reading α)
  | throw {α : Type} (error : SyntaxError) : Stepwise (throw error : Reading α)
  | originAt (line : Nat) : Stepwise (originAt line)
  | look : Stepwise current
  | advance : Stepwise advance
  | lookTwice {β : Type} {next : Token → Token → Reading β}
      (rest : ∀ token ahead, Stepwise (next token ahead))
      (inert : ∀ token, token.kind.isInner = false →
        ∀ ahead ahead', next token ahead = next token ahead') :
      Stepwise (do next (← current) (← peek 1))
  | bind {α β : Type} {rule : Reading α} {next : α → Reading β} (first : Stepwise rule)
      (rest : ∀ value, Stepwise (next value)) : Stepwise (rule >>= next)
  | loop {α : Type} {step : α → Reading (ForInStep α)} (steps : ∀ value, Stepwise (step value))
      (value : α) : Stepwise (loop step value)

end Reading

/-- Two streams share the tokens of a tag, from some place inside of it up to the token that ends
it. -/
structure Overlap where
  near : TokenStream
  far : TokenStream
  /-- The place inside the tag in the near stream. -/
  start : Nat
  /-- The same place in the far stream. -/
  start' : Nat
  /-- The number of tokens up to the one that ends the tag. -/
  length : Nat
  same : ∀ count, count ≤ length → far.get (start' + count) = near.get (start + count)
  closing : (near.get (start + length)).kind.isInner = false
  room : start + length < near.size
  room' : start' + length < far.size
  /-- The tag is the last thing in both streams or in none. -/
  ends : start + length + 1 < near.size ↔ start' + length + 1 < far.size
  sourceName : far.sourceName = near.sourceName

namespace Overlap

variable {overlap : Overlap} {α β : Type}

/-- A rule that succeeds inside the tag of one stream does the same in the other stream. -/
def Copies (overlap : Overlap) (rule : Reading α) : Prop :=
  ∀ count value stop, count ≤ overlap.length →
    rule overlap.near (overlap.start + count) = .ok value stop →
    stop ≤ overlap.start + overlap.length →
    ∃ count', stop = overlap.start + count' ∧ count ≤ count' ∧
      rule overlap.far (overlap.start' + count) = .ok value (overlap.start' + count')

namespace Copies

/-- A rule that reads nothing, and answers the same on both sides. -/
theorem of_eq {rule : Reading α} {answer : Nat → α}
    (near : ∀ count, count ≤ overlap.length → rule overlap.near (overlap.start + count) =
      .ok (answer count) (overlap.start + count))
    (far : ∀ count, count ≤ overlap.length → rule overlap.far (overlap.start' + count) =
      .ok (answer count) (overlap.start' + count)) : Copies overlap rule := by
  intro count value stop inside outcome _
  rw [near count inside] at outcome
  cases outcome
  exact ⟨count, rfl, Nat.le_refl _, far count inside⟩

theorem advance : Copies overlap Reading.advance := by
  intro count value stop inside outcome before
  have sameToken := overlap.same count inside
  have room := overlap.room
  have room' := overlap.room'
  have ends := overlap.ends
  cases outcome
  change ∃ count', overlap.near.next (overlap.start + count) = overlap.start + count' ∧ _ ∧
    EStateM.Result.ok (overlap.far.get (overlap.start' + count))
      (overlap.far.next (overlap.start' + count)) = _
  rw [sameToken]
  unfold TokenStream.next at before ⊢
  by_cases isLast : overlap.start + count + 1 < overlap.near.size
  · rw [if_pos isLast] at before ⊢
    rw [if_pos (by omega)]
    exact ⟨count + 1, rfl, Nat.le_succ _, rfl⟩
  · rw [if_neg isLast, if_neg (by omega)]
    exact ⟨count, rfl, Nat.le_refl _, rfl⟩

theorem bind {rule : Reading α} {next : α → Reading β} (first : Copies overlap rule)
    (rest : ∀ value, Copies overlap (next value))
    (forward : ∀ value, Reading.Forward overlap.near (next value)) :
    Copies overlap (rule >>= next) := by
  intro count value stop inside outcome before
  cases middle : rule overlap.near (overlap.start + count) with
  | error error after =>
      rw [bind_eq_of_error middle] at outcome
      cases outcome
  | ok value' after =>
      rw [bind_eq_of_ok middle] at outcome
      have later := forward value' after
      rw [outcome] at later
      rcases first count value' after inside middle (Nat.le_trans later before) with
        ⟨count', rfl, further, middle'⟩
      have later : overlap.start + count' ≤ stop := later
      rcases rest value' count' value stop (by omega) outcome before with
        ⟨last, rfl, furthest, outcome'⟩
      refine ⟨last, rfl, Nat.le_trans further furthest, ?_⟩
      rw [bind_eq_of_ok middle']
      exact outcome'

theorem lookTwice {next : Token → Token → Reading β}
    (rest : ∀ token ahead, Copies overlap (next token ahead))
    (inert : ∀ token, token.kind.isInner = false →
      ∀ ahead ahead', next token ahead = next token ahead') :
    Copies overlap (do next (← Reading.current) (← Reading.peek 1)) := by
  intro count value stop inside outcome before
  change next _ (overlap.near.get (overlap.start + count + 1)) overlap.near _ = _ at outcome
  change ∃ count', _ ∧ _ ∧ next (overlap.far.get (overlap.start' + count))
    (overlap.far.get (overlap.start' + count + 1)) overlap.far _ = _
  rw [overlap.same count inside]
  rcases Nat.lt_or_eq_of_le inside with further | rfl
  · rw [Nat.add_assoc, overlap.same (count + 1) further]
    exact rest _ _ count value stop inside outcome before
  · rw [inert _ overlap.closing _ (overlap.near.get (overlap.start + overlap.length + 1))]
    exact rest _ _ overlap.length value stop inside outcome before

theorem loop {step : α → Reading (ForInStep α)} (steps : ∀ value, Copies overlap (step value))
    (forward : ∀ value, Reading.Forward overlap.near (step value)) (value : α) :
    Copies overlap (Reading.loop step value) := by
  have room := overlap.room
  have room' := overlap.room'
  unfold Reading.loop
  intro count result stop inside outcome before
  generalize isStart : overlap.start + count = start at outcome
  generalize isStream : overlap.near = stream at outcome
  fun_induction repeatFrom id step value stream start generalizing count with
  | case1 => cases outcome
  | case2 value start result stop first =>
      subst isStart isStream
      cases outcome
      rcases steps value count _ _ inside first before with ⟨count', rfl, further, first'⟩
      exact ⟨count', rfl, further, repeatFrom_eq_of_done first'⟩
  | case3 value start more middle first progress ih =>
      subst isStart isStream
      have later : middle ≤ stop := by
        have soFar := Reading.Forward.loop forward more middle
        unfold Reading.loop at soFar
        rwa [outcome] at soFar
      rcases steps value count _ _ inside first (Nat.le_trans later before) with
        ⟨count', rfl, further, first'⟩
      rcases ih count' (by omega) rfl outcome with ⟨last, rfl, furthest, outcome'⟩
      have progress : overlap.start + count < overlap.start + count' := progress.1
      refine ⟨last, rfl, Nat.le_trans further furthest, ?_⟩
      rw [repeatFrom_eq_of_yield first' (by simp only [id]; omega) (by simp only [id]; omega)]
      exact outcome'
  | case4 value start more after first stays =>
      subst isStart isStream
      cases outcome
      rcases steps value count _ _ inside first before with ⟨count', rfl, further, first'⟩
      simp only [id] at stays
      exact ⟨count', rfl, further, repeatFrom_eq_of_stuck first' (by simp only [id]; omega)⟩

end Copies

end Overlap

namespace Reading

variable {α β : Type}

namespace Stepwise

variable {rule : Reading α}

theorem forward {stream : TokenStream} (stepwise : Stepwise rule) : Forward stream rule := by
  induction stepwise with
  | pure value => exact .pure value
  | throw error => exact .throw error
  | originAt => exact fun start => Nat.le_refl start
  | look => exact .look TokenStream.get
  | advance => exact .advance
  | lookTwice _ _ ih => exact fun start => ih _ _ start
  | bind _ _ ihFirst ihRest => exact .bind ihFirst ihRest
  | loop _ value ih => exact .loop ih value

theorem copies {overlap : Overlap} (stepwise : Stepwise rule) : overlap.Copies rule := by
  induction stepwise with
  | pure value => exact .of_eq (fun _ _ => rfl) fun _ _ => rfl
  | throw error =>
      intro _ _ _ _ outcome
      cases outcome
  | originAt line =>
      refine .of_eq (fun _ _ => rfl) fun _ _ => ?_
      rw [Reading.originAt, overlap.sourceName]
  | look =>
      refine .of_eq (fun _ _ => rfl) fun count inside => ?_
      rw [Reading.current, overlap.same count inside]
  | advance => exact .advance
  | lookTwice _ inert ih => exact .lookTwice ih inert
  | bind _ rest ihFirst ihRest => exact .bind ihFirst ihRest fun value => (rest value).forward
  | loop steps value ih => exact .loop ih (fun value => (steps value).forward) value

theorem map (change : α → β) (stepwise : Stepwise rule) : Stepwise (change <$> rule) := by
  rw [← bind_pure_comp]
  exact .bind stepwise fun _ => .pure _

theorem current {next : Token → Reading β} (rest : ∀ token, Stepwise (next token)) :
    Stepwise (Reading.current >>= next) :=
  .bind .look rest

theorem origin {line : Nat} {next : Origin → Reading β} (rest : ∀ origin, Stepwise (next origin)) :
    Stepwise (Reading.originAt line >>= next) :=
  .bind (.originAt line) rest

theorem step {next : Token → Reading β} (rest : ∀ token, Stepwise (next token)) :
    Stepwise (Reading.advance >>= next) :=
  .bind .advance rest

theorem refuse (token : Token) (expected : String) :
    Stepwise (Reading.refuse token expected : Reading α) :=
  .throw _

theorem expect (kind : Token.Kind) (expected : String) :
    Stepwise (Reading.expect kind expected) := by
  refine .current fun token => ?_
  split
  · exact .advance
  · exact .refuse _ _

theorem expectWord (word : String) : Stepwise (Reading.expectWord word) := by
  refine .current fun token => ?_
  split
  · exact .step fun _ => .pure _
  · exact .refuse _ _

theorem skipIf (kind : Token.Kind) : Stepwise (Reading.skipIf kind) := by
  refine .current fun token => ?_
  split
  · exact .step fun _ => .pure _
  · exact .pure _

theorem skipWord (word : String) : Stepwise (Reading.skipWord word) := by
  refine .current fun token => ?_
  split
  · exact .step fun _ => .pure _
  · exact .pure _

theorem identifier : Stepwise Reading.identifier := by
  refine .current fun token => ?_
  split
  · exact .step fun _ => .pure _
  · exact .refuse _ _

theorem dottedName : Stepwise Reading.dottedName := by
  refine .bind .identifier fun name => .loop (fun name => .lookTwice ?_ ?_) name
  · intro token ahead
    split
    · exact .step fun _ => .step fun _ => .pure _
    · exact .pure _
  · intro token isClosing ahead ahead'
    have notDot : token.kind ≠ .dot := by
      intro isDot
      simp [isDot, Token.Kind.isInner] at isClosing
    simp only [notDot, false_and, if_false]

theorem commaList (close : Token.Kind) (expected : String) (isEmpty : α → Bool)
    {item : α → Reading α} (items : ∀ value, Stepwise (item value)) (none : α) :
    Stepwise (Reading.commaList close expected isEmpty item none) := by
  have furtherItem (value : α) : Stepwise (do return ForInStep.yield (← item value)) :=
    .bind (items value) fun _ => .pure _
  refine .bind (.loop (fun value => .current fun token => ?_) none) fun _ => .step fun _ => .pure _
  split
  · exact .pure _
  · split
    · exact furtherItem value
    · refine .bind (.expect _ _) fun _ => .current fun token => ?_
      split
      · exact .pure _
      · exact furtherItem value

end Stepwise

end Reading

end Stencil

import Stencil.Proofs.Parse.Passing

/-!
# Repetitions that end by themselves

A rule repeats a step for as long as the step asks for more. Here this is a relation with nothing
that stops it from outside, so that what is related has come to an end after finitely many steps.
Repetitions are such wherever each step that asks for more has read a token: the cursor is the
measure, and it stays inside the stream.
-/

namespace Stencil

variable {σ α β : Type}

/-- The state that an outcome leaves behind. -/
def stateAfter : EStateM.Result SyntaxError σ α → σ
  | .ok _ state | .error _ state => state

/-- A step, repeated for as long as it asks for more, comes to an end with an outcome. -/
inductive Repeats (stream : TokenStream)
    (step : α → ReaderT TokenStream (EStateM SyntaxError σ) (ForInStep α)) :
    α → σ → EStateM.Result SyntaxError σ α → Prop where
  | done {value result : α} {state after : σ}
      (last : step value stream state = .ok (.done result) after) :
      Repeats stream step value state (.ok result after)
  | fails {value : α} {state after : σ} {error : SyntaxError}
      (last : step value stream state = .error error after) :
      Repeats stream step value state (.error error after)
  | more {value next : α} {state middle : σ} {outcome : EStateM.Result SyntaxError σ α}
      (first : step value stream state = .ok (.yield next) middle)
      (rest : Repeats stream step next middle outcome) : Repeats stream step value state outcome

/-- Each step that asks for more starts inside the stream and has got further. -/
def Progresses (stream : TokenStream) (cursor : σ → Nat)
    (step : α → ReaderT TokenStream (EStateM SyntaxError σ) (ForInStep α)) : Prop :=
  ∀ value state more after, step value stream state = .ok (.yield more) after →
    cursor state < cursor after ∧ cursor state < stream.size

theorem Progresses.of_meets {stream : TokenStream} {cursor : σ → Nat}
    {step : α → ReaderT TokenStream (EStateM SyntaxError σ) (ForInStep α)}
    (meets : ∀ value state, Meets
      (fun result after => ∀ more, result = .yield more →
        cursor state < cursor after ∧ cursor state < stream.size)
      (fun _ _ => True) (step value stream state)) : Progresses stream cursor step := by
  intro value state more after outcome
  have moved := meets value state
  rw [outcome] at moved
  exact moved more rfl

/-- A repetition that progresses ends by itself, and its outcome is that of the rule. -/
theorem Progresses.repeats {stream : TokenStream} {cursor : σ → Nat}
    {step : α → ReaderT TokenStream (EStateM SyntaxError σ) (ForInStep α)}
    (progresses : Progresses stream cursor step) (value : α) (state : σ) :
    Repeats stream step value state (repeatFrom cursor step value stream state) := by
  fun_induction repeatFrom cursor step value stream state with
  | case1 value state error after outcome => exact .fails outcome
  | case2 value state result after outcome => exact .done outcome
  | case3 value state more after outcome _ ih => exact .more outcome ih
  | case4 value state more after outcome stays =>
      exact absurd (progresses value state more after outcome) stays

namespace Reading

variable {stream : TokenStream} {before start least : Nat}

/-- A rule never goes back. -/
def Forward (stream : TokenStream) (rule : Reading α) : Prop :=
  ∀ start, start ≤ stateAfter (rule stream start)

namespace Forward

variable {rule : Reading α}

theorem of_reads (reads : ∀ start, Reads stream least start rule) : Forward stream rule := by
  intro start
  have passed := reads start
  unfold Reads at passed
  cases outcome : rule stream start with
  | ok value stop =>
      rw [outcome] at passed
      exact passed.1.inOrder
  | error error stop =>
      rw [outcome] at passed
      exact passed.later

theorem look (answer : TokenStream → Nat → α) :
    Forward stream (fun stream cursor => .ok (answer stream cursor) cursor) :=
  fun start => Nat.le_refl start

theorem pure (value : α) : Forward stream (Pure.pure value) :=
  .look fun _ _ => value

theorem throw (error : SyntaxError) : Forward stream (MonadExcept.throw error : Reading α) :=
  fun start => Nat.le_refl start

theorem advance : Forward stream Reading.advance :=
  fun start => stream.le_next start

theorem bind {next : α → Reading β} (first : Forward stream rule)
    (rest : ∀ value, Forward stream (next value)) : Forward stream (rule >>= next) := by
  intro start
  have soFar := first start
  cases outcome : rule stream start with
  | ok value middle =>
      rw [outcome] at soFar
      rw [bind_eq_of_ok outcome]
      exact Nat.le_trans soFar (rest value middle)
  | error error middle =>
      rw [outcome] at soFar
      rw [bind_eq_of_error outcome]
      exact soFar

theorem current {next : Token → Reading β} (rest : ∀ token, Forward stream (next token)) :
    Forward stream (Reading.current >>= next) :=
  .bind (.look TokenStream.get) rest

theorem expect (kind : Token.Kind) (expected : String) :
    Forward stream (Reading.expect kind expected) := by
  refine .current fun token => ?_
  split
  · exact .advance
  · exact .throw _

theorem skipIf (kind : Token.Kind) : Forward stream (Reading.skipIf kind) := by
  refine .current fun token => ?_
  split
  · exact .bind .advance fun _ => .pure _
  · exact .pure _

theorem loop {step : α → Reading (ForInStep α)} (steps : ∀ value, Forward stream (step value))
    (value : α) : Forward stream (Reading.loop step value) := by
  intro start
  unfold Reading.loop
  fun_induction repeatFrom id step value stream start with
  | case1 value start error stop outcome =>
      have soFar := steps value start
      rwa [outcome] at soFar
  | case2 value start result stop outcome =>
      have soFar := steps value start
      rwa [outcome] at soFar
  | case3 value start more middle outcome _ ih =>
      have soFar := steps value start
      rw [outcome] at soFar
      exact Nat.le_trans soFar ih
  | case4 value start more middle outcome _ =>
      have soFar := steps value start
      rwa [outcome] at soFar

end Forward

/-- A step of a repetition asks for more only inside the stream and beyond a place. -/
def Further (stream : TokenStream) (before start : Nat) (step : Reading (ForInStep α)) : Prop :=
  Meets (fun result stop => ∀ more, result = .yield more → before < stop ∧ before < stream.size)
    (fun _ _ => True) (step stream start)

namespace Further

variable {step : Reading (ForInStep α)}

theorem done (value : α) : Further stream before start (pure (.done value)) := by
  intro more isMore
  cases isMore

theorem of_reads (closed : stream.IsClosed) (reads : Reads stream 1 start step)
    (soFar : before ≤ start) : Further stream before start step := by
  refine reads.mono (fun _ stop passed _ _ => ?_) fun _ _ _ => trivial
  have inside := passed.1.lt_size closed passed.2
  omega

theorem current {next : Token → Reading (ForInStep α)}
    (rest : Further stream before start (next (stream.get start))) :
    Further stream before start (Reading.current >>= next) :=
  rest

theorem peek {count : Nat} {next : Token → Reading (ForInStep α)}
    (rest : Further stream before start (next (stream.get (start + count)))) :
    Further stream before start (Reading.peek count >>= next) :=
  rest

theorem originAt {line : Nat} {next : Origin → Reading (ForInStep α)}
    (rest : Further stream before start (next ⟨line, stream.sourceName⟩)) :
    Further stream before start (Reading.originAt line >>= next) :=
  rest

theorem bind {rule : Reading β} {next : β → Reading (ForInStep α)}
    (first : Reads stream least start rule) (soFar : before ≤ start)
    (rest : ∀ value stop, before ≤ stop → Further stream before stop (next value)) :
    Further stream before start (rule >>= next) := by
  refine Meets.bind (first.mono (fun _ _ passed => passed) fun _ _ _ => trivial) ?_
  intro value stop passed
  exact rest value stop (Nat.le_trans soFar passed.1.inOrder)

theorem progresses {step : α → Reading (ForInStep α)}
    (further : ∀ value start, Further stream start start (step value)) :
    Progresses stream id step :=
  .of_meets further

end Further

theorem skipWord_eq_of_isWord {word : String} (isWord : (stream.get start).isWord word = true) :
    skipWord word stream start = .ok true (stream.next start) := by
  rw [skipWord, current_bind, if_pos isWord]
  rfl

theorem skipWord_eq_of_not {word : String} (notWord : ¬(stream.get start).isWord word = true) :
    skipWord word stream start = .ok false start := by
  rw [skipWord, current_bind, if_neg notWord]
  rfl

variable (closed : stream.IsClosed)

include closed

theorem dottedStep_progresses : Progresses stream id dottedStep := by
  refine Further.progresses fun name start => .current (.peek ?_)
  split
  · next isPart =>
    refine .of_reads closed ?_ (Nat.le_refl _)
    refine .bind_of_ok (advance_reads closed (isPart.1 ▸ rfl)) fun _ stop moved => ?_
    obtain rfl : stop = start + 1 := by
      cases moved
      exact closed.next_eq (by simp [isPart.1])
    exact .bind (advance_reads closed (isPart.2 ▸ rfl)) fun _ _ => .pure _
  · exact .done _

/-- A list gets further with each item that reads a token. -/
theorem commaStep_progresses {close : Token.Kind} {expected : String} {isEmpty : α → Bool}
    {item : α → Reading α} (reads : ∀ value start, Reads stream 1 start (item value)) :
    Progresses stream id (commaStep close expected isEmpty item) := by
  have furtherItem (value : α) {before start : Nat} (soFar : before ≤ start) :
      Further stream before start (item value >>= fun more => pure (ForInStep.yield more)) :=
    .of_reads closed (.bind (reads value start) fun _ _ => .pure _) soFar
  refine Further.progresses fun value start => .current ?_
  split
  · exact .done _
  · split
    · exact furtherItem value (Nat.le_refl _)
    · refine .bind (expect_reads closed rfl _) (Nat.le_refl _) fun _ stop soFar => .current ?_
      split
      · exact .done _
      · exact furtherItem value soFar

end Reading

end Stencil

import Stencil.Proofs.Parse.Outcome
import Stencil.Proofs.Token.Region

/-!
# Rules that stay inside a tag

A rule for a part of a tag passes only tokens that stand inside tags, and never goes back. The rules
are built from few steps, and what is proved here of these steps carries over to all of them: a rule
that succeeds has read tokens from inside the tag, at least so many, and one that fails stands at
the token where it started or further on.
-/

namespace Stencil

namespace TokenStream

/-- The last token of a stream is the end of the template. -/
def IsClosed (stream : TokenStream) : Prop :=
  (stream.get (stream.size - 1)).kind = .eof

variable {stream : TokenStream} {cursor : Nat}

theorem get_eq_last (beyond : stream.size - 1 ≤ cursor) :
    stream.get cursor = stream.get (stream.size - 1) := by
  have sameIndex : min cursor (stream.significant.size - 1) =
      min (stream.size - 1) (stream.significant.size - 1) := by
    simp only [size] at beyond ⊢
    omega
  simp only [get, sameIndex]

/-- A token that is not the end of the template has another one after it. -/
theorem IsClosed.lt_size (closed : stream.IsClosed) (notEnd : (stream.get cursor).kind ≠ .eof) :
    cursor + 1 < stream.size := by
  by_contra beyond
  rw [get_eq_last (by omega)] at notEnd
  exact notEnd closed

theorem IsClosed.next_eq (closed : stream.IsClosed) (notEnd : (stream.get cursor).kind ≠ .eof) :
    stream.next cursor = cursor + 1 := by
  rw [next, if_pos (closed.lt_size notEnd)]

theorem IsClosed.lt_next (closed : stream.IsClosed) (notEnd : (stream.get cursor).kind ≠ .eof) :
    cursor < stream.next cursor := by
  rw [closed.next_eq notEnd]
  exact Nat.lt_succ_self cursor

theorem le_next (stream : TokenStream) (cursor : Nat) : cursor ≤ stream.next cursor := by
  unfold next
  split <;> omega

end TokenStream

theorem Token.Kind.ne_eof_of_isInner {kind : Token.Kind} (inner : kind.isInner = true) :
    kind ≠ .eof := by
  rintro rfl
  simp [Token.Kind.isInner] at inner

/-- All tokens from one place up to another stand inside tags. -/
structure Passes (stream : TokenStream) (start stop : Nat) : Prop where
  inOrder : start ≤ stop
  inner : ∀ index, start ≤ index → index < stop → (stream.get index).kind.isInner = true

namespace Passes

variable {stream : TokenStream} {start middle stop : Nat}

theorem refl (stream : TokenStream) (start : Nat) : Passes stream start start :=
  ⟨Nat.le_refl _, fun _ _ _ => by omega⟩

theorem trans (first : Passes stream start middle) (second : Passes stream middle stop) :
    Passes stream start stop := by
  refine ⟨Nat.le_trans first.inOrder second.inOrder, fun index fromStart beforeStop => ?_⟩
  by_cases beforeMiddle : index < middle
  · exact first.inner index fromStart beforeMiddle
  · exact second.inner index (by omega) beforeStop

/-- A single token that stands inside a tag. -/
theorem succ (inner : (stream.get start).kind.isInner = true) :
    Passes stream start (start + 1) := by
  refine ⟨Nat.le_succ _, fun index fromStart beforeStop => ?_⟩
  obtain rfl : index = start := by omega
  exact inner

theorem lt_size (closed : stream.IsClosed) (passed : Passes stream start stop)
    (further : start < stop) : start < stream.size := by
  have := closed.lt_size (Token.Kind.ne_eof_of_isInner (passed.inner start (Nat.le_refl _) further))
  omega

end Passes

theorem Token.isInner_of_word? {token : Token} {word : String}
    (isWord : token.word? = some word) : token.kind.isInner = true := by
  unfold Token.word? at isWord
  split at isWord
  · next isName => rw [isName]; rfl
  · next isKeyword => rw [isKeyword]; rfl
  · simp at isWord

theorem Token.isInner_of_isWord {token : Token} {word : String}
    (isWord : token.isWord word = true) : token.kind.isInner = true :=
  Token.isInner_of_word? (of_decide_eq_true isWord)

variable {α β : Type} {stream : TokenStream} {start : Nat}

/-- An error about a closing tag at the top level, which no rule raises. -/
def SyntaxError.isStray : SyntaxError → Bool
  | .violation (.strayAtTop _) _ => true
  | _ => false

theorem SyntaxError.isStray_ofToken (token : Token) (expected : String) :
    (SyntaxError.ofToken token expected).isStray = false := by
  unfold SyntaxError.ofToken
  split <;> rfl

/-- A rule used at a place fails there or further on, with an error of its own. -/
structure Fails (start : Nat) (error : SyntaxError) (stop : Nat) : Prop where
  later : start ≤ stop
  own : error.isStray = false

theorem Fails.before {error : SyntaxError} {middle stop : Nat} (failed : Fails middle error stop)
    (inOrder : start ≤ middle) : Fails start error stop :=
  ⟨Nat.le_trans inOrder failed.later, failed.own⟩

/-- A rule used at a place reads tokens of a tag, at least `least` of them, or fails. -/
def Reads (stream : TokenStream) (least start : Nat) (rule : Reading α) : Prop :=
  Meets (fun _ stop => Passes stream start stop ∧ start + least ≤ stop) (Fails start)
    (rule stream start)

namespace Reads

variable {least : Nat} {rule : Reading α}

theorem weaken {fewer : Nat} (reads : Reads stream least start rule) (isFewer : fewer ≤ least) :
    Reads stream fewer start rule :=
  reads.mono (fun _ _ passed => ⟨passed.1, by omega⟩) fun _ _ failed => failed

theorem pure (value : α) : Reads stream 0 start (Pure.pure value) :=
  ⟨.refl _ _, Nat.le_refl _⟩

theorem throw {error : SyntaxError} (own : error.isStray = false) :
    Reads stream least start (throw error : Reading α) :=
  ⟨Nat.le_refl start, own⟩

theorem throw_bind {error : SyntaxError} (own : error.isStray = false) (next : α → Reading β) :
    Reads stream least start ((MonadExcept.throw error : Reading α) >>= next) :=
  ⟨Nat.le_refl start, own⟩

theorem refuse (token : Token) (expected : String) :
    Reads stream least start (Reading.refuse token expected : Reading α) :=
  .throw (SyntaxError.isStray_ofToken _ _)

/-- What the first rule has read need not be read by the second one. -/
theorem bind_of_ok {first : Nat} {next : α → Reading β} (reads : Reads stream first start rule)
    (rest : ∀ value stop, rule stream start = .ok value stop →
      Reads stream (least - first) stop (next value)) :
    Reads stream least start (rule >>= next) := by
  unfold Reads at reads ⊢
  cases outcome : rule stream start with
  | error error stop =>
      rw [bind_eq_of_error outcome]
      rw [outcome] at reads
      exact reads
  | ok value middle =>
      rw [bind_eq_of_ok outcome]
      rw [outcome] at reads
      exact (rest value middle outcome).mono
        (fun _ stop further => ⟨reads.1.trans further.1, by have := reads.2; omega⟩)
        fun _ _ failed => failed.before reads.1.inOrder

theorem bind {first : Nat} {next : α → Reading β} (reads : Reads stream first start rule)
    (rest : ∀ value stop, Reads stream (least - first) stop (next value)) :
    Reads stream least start (rule >>= next) :=
  reads.bind_of_ok fun value stop _ => rest value stop

theorem map {change : α → β} (reads : Reads stream least start rule) :
    Reads stream least start (change <$> rule) :=
  Meets.map reads fun _ _ passed => passed

/-- A look at the next token reads nothing. -/
theorem current {next : Token → Reading β}
    (reads : Reads stream least start (next (stream.get start))) :
    Reads stream least start (Reading.current >>= next) :=
  reads

theorem peek {count : Nat} {next : Token → Reading β}
    (reads : Reads stream least start (next (stream.get (start + count)))) :
    Reads stream least start (Reading.peek count >>= next) :=
  reads

theorem originAt {line : Nat} {next : Origin → Reading β}
    (reads : Reads stream least start (next ⟨line, stream.sourceName⟩)) :
    Reads stream least start (Reading.originAt line >>= next) :=
  reads

theorem loop {step : α → Reading (ForInStep α)}
    (reads : ∀ value start, Reads stream 0 start (step value)) (value : α) :
    Reads stream 0 start (Reading.loop step value) := by
  refine Meets.repeatFrom (fun _ stop => Passes stream start stop ∧ start + 0 ≤ stop)
    (fun value middle passed => ?_) ⟨.refl _ _, Nat.le_refl _⟩
  refine (reads value middle).mono (fun result stop further => ?_)
    fun _ _ failed => failed.before passed.1.inOrder
  have passedBoth : Passes stream start stop ∧ start + 0 ≤ stop :=
    ⟨passed.1.trans further.1, by omega⟩
  cases result with
  | done value => exact passedBoth
  | yield value => exact ⟨passedBoth, Or.inr passedBoth⟩

/-- A repetition whose first step asks for more has read what that step has read. -/
theorem loop_of_yield {step : α → Reading (ForInStep α)} {value : α}
    (closed : stream.IsClosed) (reads : ∀ value start, Reads stream 0 start (step value))
    (first : Reads stream 1 start (step value))
    (asks : ∃ more stop, step value stream start = .ok (.yield more) stop) :
    Reads stream 1 start (Reading.loop step value) := by
  obtain ⟨more, stop, outcome⟩ := asks
  rw [Reads, outcome] at first
  have further : start < stop := first.2
  rw [Reads, Reading.loop,
    repeatFrom_eq_of_yield outcome further (first.1.lt_size closed further)]
  refine (loop reads more).mono (fun _ last passed => ?_)
    fun _ _ failed => failed.before first.1.inOrder
  exact ⟨first.1.trans passed.1, by omega⟩

end Reads

namespace Reading

theorem current_bind (next : Token → Reading β) (start : Nat) :
    (current >>= next) stream start = next (stream.get start) stream start := rfl

theorem peek_bind (count : Nat) (next : Token → Reading β) (start : Nat) :
    (peek count >>= next) stream start = next (stream.get (start + count)) stream start := rfl

theorem originAt_bind (line : Nat) (next : Origin → Reading β) (start : Nat) :
    (originAt line >>= next) stream start = next ⟨line, stream.sourceName⟩ stream start := rfl

theorem expect_eq_of_kind {kind : Token.Kind} (isKind : (stream.get start).kind = kind)
    (expected : String) :
    expect kind expected stream start = .ok (stream.get start) (stream.next start) := by
  rw [expect, current_bind, if_pos isKind]
  rfl

theorem expect_eq_of_ne {kind : Token.Kind} (notKind : (stream.get start).kind ≠ kind)
    (expected : String) :
    expect kind expected stream start = .error (.ofToken (stream.get start) expected) start := by
  rw [expect, current_bind, if_neg notKind]
  rfl

theorem skipIf_eq_of_kind {kind : Token.Kind} (isKind : (stream.get start).kind = kind) :
    skipIf kind stream start = .ok true (stream.next start) := by
  rw [skipIf, current_bind, if_pos isKind]
  rfl

theorem skipIf_eq_of_ne {kind : Token.Kind} (notKind : (stream.get start).kind ≠ kind) :
    skipIf kind stream start = .ok false start := by
  rw [skipIf, current_bind, if_neg notKind]
  rfl

theorem identifier_eq_of_name (isName : (stream.get start).kind = .name) :
    identifier stream start = .ok (stream.get start).text (stream.next start) := by
  rw [identifier, current_bind, if_pos isName]
  rfl

variable (closed : stream.IsClosed)

include closed

/-- Reading a token that stands inside a tag. -/
theorem advance_reads (inner : (stream.get start).kind.isInner = true) :
    Reads stream 1 start advance := by
  have moved := closed.next_eq (Token.Kind.ne_eof_of_isInner inner)
  exact ⟨moved ▸ .succ inner, by omega⟩

theorem expect_reads {kind : Token.Kind} (inner : kind.isInner = true) (expected : String) :
    Reads stream 1 start (expect kind expected) := by
  refine .current ?_
  split
  · next isKind => exact advance_reads closed (isKind ▸ inner)
  · exact .refuse _ _

theorem skipIf_reads {kind : Token.Kind} (inner : kind.isInner = true) :
    Reads stream 0 start (skipIf kind) := by
  refine .current ?_
  split
  · next isKind => exact .bind (advance_reads closed (isKind ▸ inner)) fun _ _ => .pure _
  · exact .pure _

theorem skipWord_reads (word : String) : Reads stream 0 start (skipWord word) := by
  refine .current ?_
  split
  · next isWord =>
    exact .bind (advance_reads closed (Token.isInner_of_isWord isWord)) fun _ _ => .pure _
  · exact .pure _

theorem expectWord_reads (word : String) : Reads stream 1 start (expectWord word) := by
  refine .current ?_
  split
  · next isWord =>
    exact .bind (advance_reads closed (Token.isInner_of_isWord isWord)) fun _ _ => .pure _
  · exact .refuse _ _

theorem identifier_reads : Reads stream 1 start identifier := by
  refine .current ?_
  split
  · next isName => exact .bind (advance_reads closed (isName ▸ rfl)) fun _ _ => .pure _
  · exact .refuse _ _

theorem dottedName_reads : Reads stream 1 start dottedName := by
  refine .bind (identifier_reads closed) fun _ start => .loop (fun _ start => ?_) _
  refine .current (.peek ?_)
  split
  · next isPart =>
    refine .bind_of_ok (advance_reads closed (isPart.1 ▸ rfl)) fun _ stop moved => ?_
    obtain rfl : stop = start + 1 := by
      cases moved
      exact closed.next_eq (by simp [isPart.1])
    exact .bind (advance_reads closed (isPart.2 ▸ rfl)) fun _ _ => .pure _
  · exact .pure _

/-- Items with commas between them are read up to a closing token; each item reads a token at
least. -/
theorem loop_commaStep_meets {close : Token.Kind} {expected : String} {isEmpty : α → Bool}
    {item : α → Reading α} {none : α}
    (reads : ∀ items start, Reads stream 1 start (item items)) :
    Meets (fun _ stop => Passes stream start stop ∧ (stream.get stop).kind = close)
      (Fails start) (loop (commaStep close expected isEmpty item) none stream start) := by
  -- An item that was read brings the repetition further.
  have furtherItem (items : α) {before middle : Nat} (passed : Passes stream start middle)
      (fromBefore : Passes stream before middle) :
      Meets (fun _ stop => Passes stream start stop ∧ before < stop ∧ before < stream.size)
        (Fails start) (item items stream middle) := by
    refine (reads items middle).mono (fun _ stop further => ?_) fun _ _ failed =>
      failed.before passed.inOrder
    have progress : before < stop := by
      have := fromBefore.inOrder
      omega
    exact ⟨passed.trans further.1, progress, (fromBefore.trans further.1).lt_size closed progress⟩
  refine Meets.repeatFrom (fun _ stop => Passes stream start stop)
    (fun items middle passed => ?_) (.refl _ _)
  rw [commaStep, current_bind]
  split
  · next isClose => exact ⟨passed, isClose⟩
  · split
    · exact (furtherItem items passed (.refl _ _)).bind fun _ _ further =>
        ⟨further.1, Or.inl further.2⟩
    · refine Meets.bind ((expect_reads closed rfl expected).mono (fun _ _ further => further)
        fun _ _ failed => failed.before passed.inOrder) fun _ stop further => ?_
      rw [current_bind]
      split
      · next isClose => exact ⟨passed.trans further.1, isClose⟩
      · exact (furtherItem items (passed.trans further.1) further.1).bind fun _ _ further =>
          ⟨further.1, Or.inl further.2⟩

theorem commaList_reads {close : Token.Kind} {expected : String} {isEmpty : α → Bool}
    {item : α → Reading α} {none : α} (inner : close.isInner = true)
    (reads : ∀ items start, Reads stream 1 start (item items)) :
    Reads stream 1 start (commaList close expected isEmpty item none) := by
  refine Meets.bind (loop_commaStep_meets closed reads) fun items middle passed => ?_
  have last : Reads stream 1 middle (advance >>= fun _ => pure items) :=
    .bind (advance_reads closed (passed.2 ▸ inner)) fun _ _ => .pure _
  refine last.mono (fun _ stop further => ?_) fun _ _ failed => failed.before passed.1.inOrder
  have := passed.1.inOrder
  exact ⟨passed.1.trans further.1, by omega⟩

end Reading

end Stencil

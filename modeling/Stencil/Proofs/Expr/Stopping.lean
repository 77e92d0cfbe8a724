import Stencil.Proofs.Expr.Endings

/-!
# Expressions that stop at a name

An expression that stops at a name does not end in a test without arguments, since the test would
have taken the name for its argument. The rules are followed with the tokens that have been read so
far: where a name comes next, these do not end in such a test.
-/

namespace Stencil

theorem TokenStream.get_eq_of_between_eq_nil {stream : TokenStream} {start stop : Nat}
    (inOrder : start ≤ stop) (nothing : stream.between start stop = []) :
    stream.get stop = stream.get start := by
  rcases Nat.lt_or_ge start stream.size with inside | beyond
  · rcases Nat.eq_or_lt_of_le inOrder with rfl | further
    · rfl
    · rw [← between_append (Nat.le_succ start) further, between_succ inside] at nothing
      cases nothing
  · exact (get_eq_last (by omega)).trans (get_eq_last (by omega)).symm

namespace Expr

open Reading

variable {α β : Type} {stream : TokenStream} {start : Nat} {before : List Token}

/-- If a name comes next, the tokens read so far do not end in a test without arguments. -/
def Shut (stream : TokenStream) (place : Nat) (word : List Token) : Prop :=
  (stream.get place).kind = .name → endsInTest (word.map Token.lexeme) = false

/-- A rule that goes on after some tokens succeeds only where they are shut, together with those
that it has read. -/
def Shuts (stream : TokenStream) (start : Nat) (before : List Token) (rule : Reading α) : Prop :=
  ∀ value stop, rule stream start = .ok value stop →
    start ≤ stop ∧ Shut stream stop (before ++ stream.between start stop)

namespace Shuts

variable {rule : Reading α} {next : α → Reading β} {meaning : List Token → α → Prop}

theorem pure {value : α} (shut : Shut stream start before) :
    Shuts stream start before (Pure.pure value : Reading α) := by
  rintro _ _ ⟨⟩
  simpa using shut

theorem throw (error : SyntaxError) : Shuts stream start before (throw error : Reading α) := by
  rintro _ _ ⟨⟩

theorem current {next : Token → Reading β}
    (shuts : Shuts stream start before (next (stream.get start))) :
    Shuts stream start before (Reading.current >>= next) :=
  shuts

theorem originAt {line : Nat} {next : Origin → Reading β}
    (shuts : Shuts stream start before (next ⟨line, stream.sourceName⟩)) :
    Shuts stream start before (Reading.originAt line >>= next) :=
  shuts

/-- What is read by a rule that accounts for its tokens is added to the tokens before. If that is
nothing, the same token comes next as before. -/
theorem bind (accounts : AccountsFor stream start rule meaning)
    (rest : ∀ word value middle, meaning word value →
      (word = [] → stream.get middle = stream.get start) →
      Shuts stream middle (before ++ word) (next value)) :
    Shuts stream start before (rule >>= next) := by
  intro result stop outcome
  rcases exists_of_bind_eq_ok outcome with ⟨value, middle, first, second⟩
  rcases accounts value middle first with ⟨inOrder, reading⟩
  rcases rest _ value middle reading (TokenStream.get_eq_of_between_eq_nil inOrder) result stop
    second with ⟨later, shut⟩
  rw [List.append_assoc, TokenStream.between_append inOrder later] at shut
  exact ⟨Nat.le_trans inOrder later, shut⟩

/-- A rule that shuts is followed by another one that does. -/
theorem followed (shuts : Shuts stream start before rule)
    (rest : ∀ word value middle, Shut stream middle word →
      Shuts stream middle word (next value)) :
    Shuts stream start before (rule >>= next) := by
  intro result stop outcome
  rcases exists_of_bind_eq_ok outcome with ⟨value, middle, first, second⟩
  rcases shuts value middle first with ⟨inOrder, shut⟩
  rcases rest _ value middle shut result stop second with ⟨later, shut⟩
  rw [List.append_assoc, TokenStream.between_append inOrder later] at shut
  exact ⟨Nat.le_trans inOrder later, shut⟩

theorem map (shuts : Shuts stream start before rule) (change : α → β) :
    Shuts stream start before (change <$> rule) := by
  intro result stop outcome
  cases first : rule stream start with
  | ok value middle =>
      rw [map_eq_of_ok first] at outcome
      cases outcome
      exact shuts value _ first
  | error error middle =>
      rw [map_eq_of_error first] at outcome
      cases outcome

/-- A rule shuts if the tokens never end in a test without arguments after it. -/
theorem of_accounts (accounts : AccountsFor stream start rule meaning)
    (noTest : ∀ word value, meaning word value →
      endsInTest ((before ++ word).map Token.lexeme) = false) :
    Shuts stream start before rule := by
  intro value stop outcome
  rcases accounts value stop outcome with ⟨inOrder, reading⟩
  exact ⟨inOrder, fun _ => noTest _ value reading⟩

/-- An expression after other tokens shuts if it alone decides how the whole ends. -/
theorem after {level : Level} {rule : Reading Expr}
    (accounts : AccountsFor stream start rule (Derives stream.sourceName level))
    (shuts : Shuts stream start [] rule)
    (decides : ∀ word : List Token, word ≠ [] →
      endsInTest ((before ++ word).map Token.lexeme) = endsInTest (word.map Token.lexeme)) :
    Shuts stream start before rule := by
  intro value stop outcome
  rcases accounts value stop outcome with ⟨inOrder, derives⟩
  refine ⟨inOrder, fun isName => ?_⟩
  rw [decides _ derives.ne_nil]
  exact (shuts value stop outcome).2 isName

theorem loop {step : α → Reading (ForInStep α)} {value : α}
    (kept : ∀ word value middle, Shut stream middle word → Shuts stream middle word (step value))
    (shut : Shut stream start before) :
    Shuts stream start before (Reading.loop step value) := by
  unfold Shuts Reading.loop
  fun_induction repeatFrom id step value stream start generalizing before with
  | case1 => simp
  | case2 value start last after outcome =>
      rintro _ _ ⟨⟩
      exact kept before value start shut _ _ outcome
  | case3 value start more after outcome further ih =>
      intro result stop ends
      rcases kept before value start shut _ _ outcome with ⟨inOrder, soFar⟩
      rcases ih soFar result stop ends with ⟨later, shut⟩
      rw [List.append_assoc, TokenStream.between_append inOrder later] at shut
      exact ⟨Nat.le_trans inOrder later, shut⟩
  | case4 value start more after outcome stays =>
      rintro _ _ ⟨⟩
      exact kept before value start shut _ _ outcome

/-- Where nothing more is read, the tokens stay shut. -/
theorem stays {place : Nat} {value : α} (shut : Shut stream start before)
    (same : stream.get place = stream.get start) :
    Shuts stream place (before ++ []) (Pure.pure value : Reading α) := by
  rw [List.append_nil]
  exact .pure fun isName => shut (same ▸ isName)

/-- A token may be skipped. -/
theorem skipIf {kind : Token.Kind} {next : Bool → Reading β} (closed : stream.IsClosed)
    (notEnd : kind ≠ .eof)
    (skipped : ∀ token middle, token.kind = kind →
      Shuts stream middle (before ++ [token]) (next true))
    (stays : ∀ middle, stream.get middle = stream.get start →
      Shuts stream middle before (next false)) :
    Shuts stream start before (Reading.skipIf kind >>= next) := by
  apply Shuts.bind (skipIf_accounts closed notEnd)
  rintro word _ middle (⟨rfl, token, isKind, rfl⟩ | ⟨rfl, rfl⟩) same
  · exact skipped token middle isKind
  · rw [List.append_nil]
    exact stays middle (same rfl)

end Shuts

/-- The rules one level deeper shut. Signs are not among them: what follows one has no tests. -/
structure Deeper.Shutting (stream : TokenStream) (deeper : Deeper) : Prop where
  conditional : ∀ start, Shuts stream start [] deeper.conditional
  negation : ∀ start, Shuts stream start [] deeper.negation

theorem chain_shuts {level : Level} {operator? : Reading (Option BinaryOp)}
    {operand : Reading Expr}
    (operators : ∀ start, AccountsFor stream start operator? (SpellsNext level))
    (operands : ∀ start,
      AccountsFor stream start operand (Derives stream.sourceName level.tighter))
    (shuts : ∀ start, Shuts stream start [] operand) :
    Shuts stream start [] (chain operator? operand) := by
  apply (shuts start).followed
  intro word value middle shut
  refine Shuts.loop ?_ shut
  intro word left middle shut
  apply Shuts.bind (operators middle)
  intro operator found last spells same
  cases found with
  | none =>
      cases spells
      exact .stays shut (same rfl)
  | some op =>
      have decides (operand : List Token) (nonempty : operand ≠ []) :
          endsInTest ((word ++ operator ++ operand).map Token.lexeme) =
            endsInTest (operand.map Token.lexeme) := by
        rw [List.append_assoc, List.map_append, endsInTest_append_operand spells.2 nonempty]
      apply (Shuts.after (operands last) (shuts last) decides).followed
      intro word right stop shut
      exact .originAt (.pure shut)

section

variable (closed : stream.IsClosed) {deeper : Deeper} (inside : deeper.Inside stream)
  (sound : deeper.Sound stream)

include closed inside sound

theorem testArguments_shuts {is_ : Token} {first negation called : List Token} {negated : Bool}
    {name : String} (isIs : is_.kind = .keyword .is_) (isNegation : SpellsNegation negation negated)
    (isName : SpellsTest called name) :
    Shuts stream start (first ++ is_ :: negation ++ called) (testArguments deeper) := by
  apply Shuts.current
  dsimp only
  split
  · apply Shuts.of_accounts (callArguments_accounts closed inside sound)
    intro word given spells
    rw [List.map_append]
    exact endsInTest_of_arguments spells _
  · split
    · next begins =>
      have accounts : AccountsFor stream start (unaryRule deeper) _ :=
        (unaryRule_accounts closed inside sound).begins closed (unaryRule_reads closed inside)
      apply Shuts.bind accounts
      rintro word arg middle ⟨⟨rest, rfl⟩, inner⟩ _
      apply Shuts.pure
      intro _
      have sameWord : first ++ is_ :: negation ++ called ++ stream.get start :: rest =
          first ++ (is_ :: negation ++ called ++ stream.get start :: rest) := by simp
      rw [sameWord, List.map_append, endsInTest_append_argument isIs isNegation isName begins]
      exact inner.endsInTest (by decide)
    · next noArgument =>
      exact .pure fun isName => absurd (by rw [isName]; rfl) noArgument

theorem testStep_shuts {value : Expr} (shut : Shut stream start before) :
    Shuts stream start before (testStep deeper value) := by
  apply Shuts.skipIf closed (by simp)
  · intro is_ middle isIs
    apply Shuts.bind (skipIf_accounts closed (by simp))
    intro negation negated afterNot isNegation _
    have isNegation : SpellsNegation negation negated := by
      rcases isNegation with ⟨rfl, token, isNot, rfl⟩ | ⟨rfl, rfl⟩
      · exact .not_ isNot
      · exact .plain
    apply Shuts.bind (testName_accounts closed)
    intro called name afterName isName _
    have sameWord : before ++ [is_] ++ negation ++ called =
        before ++ is_ :: negation ++ called := by simp
    rw [sameWord]
    apply (testArguments_shuts closed inside sound isIs isNegation isName).followed
    intro word given last shut
    exact .originAt (.pure shut)
  · intro middle same
    exact .pure fun isName => shut (same ▸ isName)

theorem testRule_shuts : Shuts stream start [] (testRule deeper) := by
  have filtered : Shuts stream start [] (filterRule deeper) := by
    apply Shuts.of_accounts (filterRule_accounts closed inside sound)
    intro word value derives
    exact derives.endsInTest (by decide)
  apply filtered.followed
  intro word value middle shut
  exact .loop (fun _ _ _ => testStep_shuts closed inside sound) shut

variable (below : deeper.Shutting stream)

include below

theorem negationRule_shuts : Shuts stream start [] (negationRule deeper) := by
  apply Shuts.current
  split
  · next isNot =>
    have isNot := of_decide_eq_true isNot
    have advances : AccountsFor stream start (advance >>= pure) fun word _ =>
        word = [stream.get start] :=
      .advance closed (by simp [isNot]) (.pure rfl)
    rw [bind_pure] at advances
    apply Shuts.bind advances
    rintro _ token middle rfl _
    have decides (operand : List Token) (_ : operand ≠ []) :
        endsInTest (([] ++ [stream.get start] ++ operand).map Token.lexeme) =
          endsInTest (operand.map Token.lexeme) :=
      endsInTest_cons_of_ne (by simp [Token.lexeme, isNot]) _
    apply (Shuts.after (sound.negation middle) (below.negation middle) decides).followed
    intro word operand last shut
    exact .originAt (.pure shut)
  · exact chain_shuts (fun _ => comparisonOperator_accounts closed)
      (fun _ => testRule_accounts closed inside sound) fun _ => testRule_shuts closed inside sound

theorem disjunction_shuts : Shuts stream start [] (disjunction deeper) := by
  have disjoins (start : Nat) :
      AccountsFor stream start (operatorOf [.or_]) (SpellsNext .disjunction) :=
    operatorOf_accounts closed (by simp [BinaryOp.level])
  have conjoins (start : Nat) :
      AccountsFor stream start (operatorOf [.and_]) (SpellsNext .conjunction) :=
    operatorOf_accounts closed (by simp [BinaryOp.level])
  apply chain_shuts disjoins fun _ => conjunction_accounts closed inside sound
  intro start
  apply chain_shuts conjoins fun _ => negationRule_accounts closed inside sound
  intro start
  exact negationRule_shuts closed inside sound below

theorem conditionalStep_shuts {value : Expr} (shut : Shut stream start before) :
    Shuts stream start before (conditionalStep deeper value) := by
  have decides (word : List Token) (token : Token) {kind : Token.Kind} (isKind : token.kind = kind)
      (cuts : kind ∉ [.keyword .is_, .name, .dot, .keyword .not_]) (operand : List Token)
      (nonempty : operand ≠ []) :
      endsInTest ((word ++ [token] ++ operand).map Token.lexeme) =
        endsInTest (operand.map Token.lexeme) := by
    subst isKind
    rw [List.mem_cons, not_or] at cuts
    rw [List.append_assoc, List.map_append, List.singleton_append, List.map_cons,
      endsInTest_append_operator cuts.2 (by simpa using nonempty), endsInTest_cons_of_ne cuts.1]
  apply Shuts.skipIf closed (by simp)
  · intro if_ middle isIf
    apply (Shuts.after (disjunction_accounts closed inside sound)
      (disjunction_shuts closed inside sound below) (decides before if_ isIf (by decide))).followed
    intro word condition middle shut
    apply Shuts.skipIf closed (by simp)
    · intro else_ last isElse
      have otherwise := Shuts.after (sound.conditional last) (below.conditional last)
        (decides word else_ isElse (by decide))
      apply (otherwise.map some).followed
      intro word _ last shut
      exact .originAt (.pure shut)
    · intro last same
      change Shuts stream last word (originAt value.line >>= fun origin =>
        pure (ForInStep.yield (Expr.conditional origin condition value none)))
      exact .originAt (.pure fun isName => shut (same ▸ isName))
  · intro middle same
    exact .pure fun isName => shut (same ▸ isName)

theorem conditionalRule_shuts : Shuts stream start [] (conditionalRule deeper) := by
  apply (disjunction_shuts closed inside sound below).followed
  intro word value middle shut
  exact .loop (fun _ _ _ => conditionalStep_shuts closed inside sound below) shut

variable [Limits]

omit inside sound below in
theorem deeper_shutting (levels : Nat) : (Expr.deeper levels).Shutting stream := by
  induction levels with
  | zero => exact ⟨fun _ => .throw _, fun _ => .throw _⟩
  | succ levels ih =>
      have inside := deeper_inside closed levels
      have sound := deeper_sound closed levels
      exact ⟨fun _ => conditionalRule_shuts closed inside sound ih,
        fun _ => negationRule_shuts closed inside sound ih⟩

omit inside sound below in
/-- An expression that stops at a name does not end in a test without arguments. -/
theorem endsInTest_of_stops_at_name {levels stop : Nat} {value : Expr}
    (parsed : parse levels stream start = .ok value stop)
    (isName : (stream.get stop).kind = .name) :
    endsInTest ((stream.between start stop).map Token.lexeme) = false :=
  ((deeper_shutting closed levels).conditional start value stop parsed).2 isName

end

end Expr

end Stencil

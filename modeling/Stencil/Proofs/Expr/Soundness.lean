import Stencil.Profiles
import Stencil.Proofs.Expr.Grammar

/-!
# Expressions are read by the grammar

Each rule for expressions accounts for its tokens: what it returns is derived from exactly the
tokens that it has read. The rules are taken from the tightest one outwards, and the proof for all
levels of nesting together goes by their number. Since the tokens of an expression stand inside
tags, none of them comes after the end of the tag.
-/

namespace Stencil

namespace Expr

open Reading

variable {stream : TokenStream} {start : Nat}

/-- The rules one level deeper account for their tokens. -/
structure Deeper.Sound (stream : TokenStream) (deeper : Deeper) : Prop where
  conditional : ∀ start,
    AccountsFor stream start deeper.conditional (Derives stream.sourceName .conditional)
  negation : ∀ start, AccountsFor stream start deeper.negation (Derives stream.sourceName .negation)
  unary : ∀ start, AccountsFor stream start deeper.unary (Derives stream.sourceName .unary)

/-- The tokens of an operator of a level, or none where no such operator is next. -/
def SpellsNext (level : Level) (word : List Token) : Option BinaryOp → Prop
  | some op => op.level = level ∧ SpellsOperator word op
  | none => word = []

section

variable (closed : stream.IsClosed)

include closed

theorem stringStep_accounts {word : List Token} {value : String}
    (joins : JoinsStrings word value) :
    AccountsFor stream start (stringStep value) fun further =>
      Found JoinsStrings (word ++ further) := by
  apply AccountsFor.current
  split
  · next isString =>
    apply AccountsFor.advance closed (by simp [isString])
    apply AccountsFor.pure
    exact .snoc joins isString
  · apply AccountsFor.pure
    simpa [Found] using joins

theorem stringLiteral_accounts : AccountsFor stream start stringLiteral JoinsStrings :=
  AccountsFor.loop (fun _ _ _ => stringStep_accounts closed) JoinsStrings.nil

theorem literal_accounts :
    AccountsFor stream start literal (SpellsLiteral stream.sourceName) := by
  apply AccountsFor.current
  apply AccountsFor.originAt
  split
  · next isString =>
    apply AccountsFor.bind
      ((stringLiteral_accounts closed).begins closed (stringLiteral_reads closed isString))
    rintro word value middle ⟨⟨rest, rfl⟩, joins⟩
    apply AccountsFor.pure
    rw [List.append_nil]
    exact .string joins
  · next isInteger =>
    split
    · next value hasValue =>
      apply AccountsFor.advance closed (by simp [isInteger])
      apply AccountsFor.pure
      exact .integer isInteger hasValue
    · apply AccountsFor.throw
  · next isFloat =>
    split
    · next value hasValue =>
      apply AccountsFor.advance closed (by simp [isFloat])
      apply AccountsFor.pure
      exact .float isFloat hasValue
    · apply AccountsFor.throw
  · next isBoolean =>
    apply AccountsFor.advance closed (by simp [isBoolean])
    apply AccountsFor.pure
    exact .boolean isBoolean
  · next isNull =>
    apply AccountsFor.advance closed (by simp [isNull])
    apply AccountsFor.pure
    exact .null isNull
  · apply AccountsFor.throw

theorem literal_accounts_integer (isInteger : (stream.get start).kind = .integer) :
    AccountsFor stream start literal fun word value => ∃ token, word = [token] ∧
      token.kind = .integer ∧ SpellsLiteral stream.sourceName word value := by
  apply AccountsFor.current
  apply AccountsFor.originAt
  rw [isInteger]
  dsimp only
  split
  · next value hasValue =>
    apply AccountsFor.advance closed (by simp [isInteger])
    apply AccountsFor.pure
    exact ⟨_, rfl, isInteger, .integer isInteger hasValue⟩
  · apply AccountsFor.throw

theorem operatorOf_accounts {level : Level} {choice : List BinaryOp}
    (sameLevel : ∀ op ∈ choice, op.level = level) :
    AccountsFor stream start (operatorOf choice) (SpellsNext level) := by
  apply AccountsFor.current
  split
  · next op isOperator =>
    split
    · next isChosen =>
      apply AccountsFor.advance closed
        (Token.Kind.ne_eof_of_isInner (isInner_of_binary isOperator))
      apply AccountsFor.pure
      exact ⟨sameLevel op isChosen, .single isOperator⟩
    · apply AccountsFor.pure
      rfl
  · apply AccountsFor.pure
    rfl

theorem comparisonOperator_accounts :
    AccountsFor stream start comparisonOperator (SpellsNext .comparison) := by
  apply AccountsFor.current
  apply AccountsFor.peek
  split
  · next isNotIn =>
    have isNot := of_decide_eq_true isNotIn.1
    have isIn := of_decide_eq_true isNotIn.2
    apply AccountsFor.advance closed (by simp [isNot])
    apply AccountsFor.advance closed (by simp [isIn])
    apply AccountsFor.pure
    exact ⟨rfl, .notIn isNot isIn⟩
  · apply operatorOf_accounts closed
    simp [BinaryOp.level]

theorem testName_accounts : AccountsFor stream start testName SpellsTest := by
  apply AccountsFor.current
  split
  · next isBoolean =>
    apply AccountsFor.advance closed (by simp [isBoolean])
    apply AccountsFor.pure
    exact .literal (Or.inl isBoolean)
  · next isNull =>
    apply AccountsFor.advance closed (by simp [isNull])
    apply AccountsFor.pure
    exact .literal (Or.inr isNull)
  · next isIn =>
    apply AccountsFor.advance closed (by simp [isIn])
    apply AccountsFor.pure
    exact .in_ isIn
  · exact (AccountsFor.dottedName closed).mono fun _ _ => .dotted

omit closed in
theorem chain_accounts {level : Level} {operator? : Reading (Option BinaryOp)}
    {operand : Reading Expr}
    (operators : ∀ start, AccountsFor stream start operator? (SpellsNext level))
    (operands : ∀ start,
      AccountsFor stream start operand (Derives stream.sourceName level.tighter)) :
    AccountsFor stream start (chain operator? operand) (Derives stream.sourceName level) := by
  apply AccountsFor.bind (operands start)
  intro word value middle first
  refine AccountsFor.loop ?_ (Derives.loosen first)
  intro word left start before
  apply AccountsFor.bind (operators start)
  intro operator found middle spells
  cases found with
  | none =>
      cases spells
      apply AccountsFor.pure
      simpa [Found] using before
  | some op =>
      rcases spells with ⟨rfl, spells⟩
      apply AccountsFor.bind (operands middle)
      intro second right last after
      apply AccountsFor.originAt
      apply AccountsFor.pure
      rw [List.append_nil, ← List.append_assoc]
      exact .binary before spells after

variable {deeper : Deeper} (inside : deeper.Inside stream) (below : deeper.Sound stream)

include below

/-- The pieces of an argument list, those of named arguments after the others. -/
def SpellsArguments (sourceName : Option String) (pieces : List (List Token))
    (given : List Expr × List (Named Expr)) : Prop :=
  ∃ positional named, pieces = positional ++ named ∧
    List.Forall₂ (Derives sourceName .conditional) positional given.1 ∧
    List.Forall₂ (DerivesNamed sourceName) named given.2

theorem callArgument_accounts {pieces : List (List Token)}
    {before : List Expr × List (Named Expr)}
    (spells : SpellsArguments stream.sourceName pieces before) :
    AccountsFor stream start (callArgument deeper before) fun word =>
      SpellsArguments stream.sourceName (pieces ++ [word]) := by
  rcases before with ⟨args, kwargs⟩
  rcases spells with ⟨positional, named, rfl, each, eachNamed⟩
  apply AccountsFor.current
  apply AccountsFor.peek
  split
  · next isNamed =>
    apply AccountsFor.identifier closed
    rintro key isName rfl
    apply AccountsFor.advance closed (by simp [isNamed.2])
    apply AccountsFor.bind (below.conditional _)
    intro word value middle inner
    apply AccountsFor.pure
    rw [List.append_nil]
    have last := DerivesNamed.named isName isNamed.2 inner
    exact ⟨positional, named ++ [_], by simp, each, List.rel_append eachNamed (.cons last .nil)⟩
  · apply AccountsFor.bind (below.conditional _)
    intro word value middle inner
    split
    · next noneNamed =>
      apply AccountsFor.pure
      have noKeywords : kwargs = [] := by simpa using noneNamed
      subst noKeywords
      cases eachNamed
      exact ⟨positional ++ [word], [], by simp, List.rel_append each (.cons inner .nil), .nil⟩
    · apply AccountsFor.throw

include inside

theorem callArguments_accounts :
    AccountsFor stream start (callArguments deeper) fun word given =>
      DerivesArguments stream.sourceName word given.1 given.2 := by
  apply AccountsFor.expect closed (by simp)
  intro opening opens
  apply AccountsFor.mono
  · apply AccountsFor.commaList closed (SpellsArguments stream.sourceName)
    · intro before start
      exact callArgument_reads closed inside before
    · rintro _ ⟨args, kwargs⟩ ⟨positional, named, rfl, each, eachNamed⟩
      cases each <;> cases eachNamed <;> simp
    · intro pieces before start spells
      exact callArgument_accounts closed below spells
    · simp
    · exact ⟨[], [], rfl, .nil, .nil⟩
  · rintro word ⟨args, kwargs⟩
    rintro ⟨_, body, closing, ⟨positional, named, rfl, each, eachNamed⟩, separated, closes, rfl⟩
    exact .parenthesized opens closes each eachNamed separated

theorem listLiteral_accounts :
    AccountsFor stream start (listLiteral deeper) (Derives stream.sourceName .primary) := by
  apply AccountsFor.expect closed (by simp)
  intro opening opens
  apply AccountsFor.bind
  · apply AccountsFor.commaList closed (List.Forall₂ (Derives stream.sourceName .conditional))
    · intro items start
      exact .bind (inside.conditional start) fun _ _ => .pure _
    · intro pieces items each
      cases each <;> simp
    · intro pieces items start each
      apply AccountsFor.bind (below.conditional start)
      intro word value middle inner
      apply AccountsFor.pure
      rw [List.append_nil]
      exact List.rel_append each (.cons inner .nil)
    · simp
    · exact .nil
  · rintro word items middle ⟨pieces, body, closing, each, separated, closes, rfl⟩
    apply AccountsFor.originAt
    apply AccountsFor.pure
    rw [List.append_nil]
    exact .list opens closes each separated

omit closed inside in
theorem slicePart_accounts :
    AccountsFor stream start (slicePart deeper) (DerivesOptional stream.sourceName) := by
  apply AccountsFor.current
  split
  · exact .pure .none
  · exact .pure .none
  · apply AccountsFor.bind (below.conditional start)
    intro word value middle inner
    apply AccountsFor.pure
    rw [List.append_nil]
    exact .some inner

omit inside in
theorem sliceFrom_accounts {first : List Token} {token : Token} {value : Option Expr}
    (firstPart : DerivesOptional stream.sourceName first value)
    (isColon : (stream.get start).kind = .colon)
    (begins : (first ++ [stream.get start]).head? = some token) :
    AccountsFor stream start (sliceFrom deeper token.line value) fun further =>
      DerivesSubscript stream.sourceName (first ++ further) := by
  apply AccountsFor.advance closed (by simp [isColon])
  apply AccountsFor.bind (slicePart_accounts below)
  intro second stop middle secondPart
  apply AccountsFor.skipIf closed (by simp)
  · intro colon isSecond
    apply AccountsFor.bind (slicePart_accounts below)
    intro third step last thirdPart
    apply AccountsFor.originAt
    apply AccountsFor.pure
    have slice := DerivesSubscript.slice firstPart isColon secondPart
      (.some isSecond thirdPart) begins
    simpa using slice
  · change AccountsFor stream middle
      (originAt token.line >>= fun origin => pure (Expr.slice origin value stop none)) _
    apply AccountsFor.originAt
    apply AccountsFor.pure
    have slice := DerivesSubscript.slice firstPart isColon secondPart .none begins
    simpa using slice

theorem subscript_accounts :
    AccountsFor stream start (subscript deeper) (DerivesSubscript stream.sourceName) := by
  apply AccountsFor.current
  split
  · next isColon => exact sliceFrom_accounts closed below .none isColon rfl
  · apply AccountsFor.bind ((below.conditional start).begins closed (inside.conditional start))
    rintro first value middle ⟨⟨rest, begins⟩, inner⟩
    apply AccountsFor.current
    split
    · next isColon =>
      apply sliceFrom_accounts closed below (.some inner) isColon
      simp [begins]
    · apply AccountsFor.pure
      rw [List.append_nil]
      exact .index inner

theorem suffix_accounts {word : List Token} {value : Expr}
    (before : Derives stream.sourceName .suffix word value) :
    AccountsFor stream start (suffix deeper value) fun further =>
      Found (Derives stream.sourceName .suffix) (word ++ further) := by
  apply AccountsFor.originAt
  apply AccountsFor.current
  split
  · next isDot =>
    apply AccountsFor.advance closed (by simp [isDot])
    apply AccountsFor.current
    split
    · next isInteger =>
      apply AccountsFor.bind (literal_accounts_integer closed isInteger)
      rintro _ index middle ⟨number, rfl, isNumber, hasValue⟩
      apply AccountsFor.pure
      exact .place before isDot isNumber hasValue
    · next isWord notInteger =>
      apply AccountsFor.advance closed
        (Token.Kind.ne_eof_of_isInner (Token.isInner_of_word? isWord))
      apply AccountsFor.pure
      exact .attr before isDot isWord
    · apply AccountsFor.throw
  · next isBracket =>
    apply AccountsFor.advance closed (by simp [isBracket])
    apply AccountsFor.bind (subscript_accounts closed inside below)
    intro inner index middle between
    apply AccountsFor.expect closed (by simp)
    intro closing closes
    apply AccountsFor.pure
    have item := Derives.item before isBracket closes between
    simpa [Found] using item
  · apply AccountsFor.bind (callArguments_accounts closed inside below)
    intro arguments given middle spells
    apply AccountsFor.pure
    rw [List.append_nil]
    exact .call before spells
  · apply AccountsFor.pure
    simpa [Found] using before

theorem primary_accounts :
    AccountsFor stream start (primary deeper) (Derives stream.sourceName .primary) := by
  apply AccountsFor.current
  split
  · next isName =>
    apply AccountsFor.advance closed (by simp [isName])
    apply AccountsFor.originAt
    apply AccountsFor.pure
    exact .name isName
  · next isParen =>
    apply AccountsFor.advance closed (by simp [isParen])
    apply AccountsFor.bind (below.conditional _)
    intro word value middle inner
    apply AccountsFor.expect closed (by simp)
    intro closing closes
    apply AccountsFor.pure
    exact .parenthesized isParen closes inner
  · exact listLiteral_accounts closed inside below
  · split
    · exact (literal_accounts closed).mono fun _ _ => .literal
    · apply AccountsFor.throw

theorem suffixRule_accounts :
    AccountsFor stream start (suffixRule deeper) (Derives stream.sourceName .suffix) := by
  apply AccountsFor.bind (primary_accounts closed inside below)
  intro word value middle first
  refine AccountsFor.loop ?_ (Derives.loosen first)
  intro word value middle before
  exact suffix_accounts closed inside below before

theorem unaryRule_accounts :
    AccountsFor stream start (unaryRule deeper) (Derives stream.sourceName .unary) := by
  apply AccountsFor.current
  split
  · next op isSign =>
    apply AccountsFor.advance closed (Token.Kind.ne_eof_of_isInner (isInner_of_unary isSign))
    apply AccountsFor.bind (below.unary _)
    intro word operand middle inner
    apply AccountsFor.originAt
    apply AccountsFor.pure
    rw [List.append_nil]
    exact .sign isSign inner
  · apply (suffixRule_accounts closed inside below).mono
    intro word value inner
    exact Derives.loosen inner

theorem sum_accounts :
    AccountsFor stream start (sum deeper) (Derives stream.sourceName .sum) := by
  have powers (start : Nat) :
      AccountsFor stream start (power deeper) (Derives stream.sourceName .power) := by
    apply chain_accounts (fun _ => operatorOf_accounts closed (by simp [BinaryOp.level]))
    intro start
    exact unaryRule_accounts closed inside below
  have products (start : Nat) :
      AccountsFor stream start (product deeper) (Derives stream.sourceName .product) := by
    apply chain_accounts (fun _ => operatorOf_accounts closed (by simp [BinaryOp.level]))
    exact powers
  apply chain_accounts (fun _ => operatorOf_accounts closed (by simp [BinaryOp.level]))
  exact products

theorem filterCall_accounts :
    AccountsFor stream start (filterCall deeper) fun word applied => ∃ called arguments,
      word = called ++ arguments ∧ DottedName called applied.name ∧
      DerivesGiven stream.sourceName arguments applied.args applied.kwargs := by
  apply AccountsFor.bind (AccountsFor.dottedName closed)
  intro called name middle isName
  apply AccountsFor.current
  split
  · apply AccountsFor.bind (callArguments_accounts closed inside below)
    intro arguments given last spells
    apply AccountsFor.pure
    exact ⟨called, arguments, by simp, isName, .some spells⟩
  · apply AccountsFor.pure
    exact ⟨called, [], rfl, isName, .none⟩

theorem filterStep_accounts {word : List Token} {value : Expr}
    (before : Derives stream.sourceName .filter word value) :
    AccountsFor stream start (filterStep deeper value) fun further =>
      Found (Derives stream.sourceName .filter) (word ++ further) := by
  apply AccountsFor.skipIf closed (by simp)
  · intro pipe isPipe
    apply AccountsFor.bind (filterCall_accounts closed inside below)
    rintro _ applied middle ⟨called, arguments, rfl, isName, given⟩
    apply AccountsFor.originAt
    apply AccountsFor.pure
    have filtered := Derives.filter before isPipe isName given
    simpa [Found] using filtered
  · exact .pure (by simpa [Found] using before)

theorem filterRule_accounts :
    AccountsFor stream start (filterRule deeper) (Derives stream.sourceName .filter) := by
  apply AccountsFor.bind (sum_accounts closed inside below)
  intro word value middle first
  refine AccountsFor.loop ?_ (Derives.loosen first)
  intro word value middle before
  exact filterStep_accounts closed inside below before

theorem testArguments_accounts :
    AccountsFor stream start (testArguments deeper) fun word given =>
      DerivesTestArguments stream.sourceName word given.1 given.2 := by
  apply AccountsFor.current
  dsimp only
  split
  · apply (callArguments_accounts closed inside below).mono
    intro word given spells
    exact .given (.some spells)
  · split
    · next begins =>
      apply AccountsFor.bind ((unaryRule_accounts closed inside below).begins closed
        (unaryRule_reads closed inside))
      rintro word value middle ⟨⟨rest, rfl⟩, inner⟩
      apply AccountsFor.pure
      rw [List.append_nil]
      exact .bare begins inner
    · apply AccountsFor.pure
      exact .given .none

/-- Reads the name of a test and its arguments. -/
def testRest (deeper : Deeper) (value : Expr) (negated : Bool) : Reading (ForInStep Expr) := do
  let name ← testName
  let (args, kwargs) ← testArguments deeper
  return .yield (.test (← originAt value.line) value name args kwargs negated)

theorem testStep_accounts {word : List Token} {value : Expr}
    (before : Derives stream.sourceName .test word value) :
    AccountsFor stream start (testStep deeper value) fun further =>
      Found (Derives stream.sourceName .test) (word ++ further) := by
  -- What follows `is` and perhaps `not`.
  have rest {is_ : Token} {negation : List Token} {negated : Bool} (start : Nat)
      (isIs : is_.kind = .keyword .is_) (isNegation : SpellsNegation negation negated) :
      AccountsFor stream start (testRest deeper value negated) fun further =>
        Found (Derives stream.sourceName .test) (word ++ is_ :: negation ++ further) := by
    apply AccountsFor.bind (testName_accounts closed)
    intro called name middle isName
    apply AccountsFor.bind (testArguments_accounts closed inside below)
    intro arguments given last spells
    apply AccountsFor.originAt
    apply AccountsFor.pure
    have tested := Derives.test before isIs isNegation isName spells
    simpa [Found] using tested
  apply AccountsFor.skipIf closed (by simp)
  · intro is_ isIs
    apply AccountsFor.skipIf closed (by simp)
    · intro token isNot
      refine (rest (start + 1 + 1) isIs (.not_ isNot)).mono fun further result found => ?_
      simpa using found
    · refine (rest (start + 1) isIs .plain).mono fun further result found => ?_
      simpa using found
  · exact .pure (by simpa [Found] using before)

theorem testRule_accounts :
    AccountsFor stream start (testRule deeper) (Derives stream.sourceName .test) := by
  apply AccountsFor.bind (filterRule_accounts closed inside below)
  intro word value middle first
  refine AccountsFor.loop ?_ (Derives.loosen first)
  intro word value middle before
  exact testStep_accounts closed inside below before

theorem negationRule_accounts :
    AccountsFor stream start (negationRule deeper) (Derives stream.sourceName .negation) := by
  apply AccountsFor.current
  split
  · next isNot =>
    have isNot := of_decide_eq_true isNot
    apply AccountsFor.advance closed (by simp [isNot])
    apply AccountsFor.bind (below.negation _)
    intro word operand middle inner
    apply AccountsFor.originAt
    apply AccountsFor.pure
    rw [List.append_nil]
    exact .not_ isNot inner
  · have comparisons : AccountsFor stream start (comparison deeper)
        (Derives stream.sourceName .comparison) := by
      apply chain_accounts (fun _ => comparisonOperator_accounts closed)
      intro start
      exact testRule_accounts closed inside below
    apply comparisons.mono
    intro word value inner
    exact Derives.loosen inner

theorem conjunction_accounts :
    AccountsFor stream start (conjunction deeper) (Derives stream.sourceName .conjunction) := by
  apply chain_accounts (fun _ => operatorOf_accounts closed (by simp [BinaryOp.level]))
  intro start
  exact negationRule_accounts closed inside below

theorem disjunction_accounts :
    AccountsFor stream start (disjunction deeper) (Derives stream.sourceName .disjunction) := by
  apply chain_accounts (fun _ => operatorOf_accounts closed (by simp [BinaryOp.level]))
  intro start
  exact conjunction_accounts closed inside below

theorem conditionalStep_accounts {word : List Token} {value : Expr}
    (before : Derives stream.sourceName .conditional word value) :
    AccountsFor stream start (conditionalStep deeper value) fun further =>
      Found (Derives stream.sourceName .conditional) (word ++ further) := by
  apply AccountsFor.skipIf closed (by simp)
  · intro if_ isIf
    apply AccountsFor.bind (disjunction_accounts closed inside below)
    intro second condition middle test
    apply AccountsFor.skipIf closed (by simp)
    · intro else_ isElse
      have last (start : Nat) : AccountsFor stream start (some <$> deeper.conditional)
          fun word otherwise => ∃ expr, otherwise = some expr ∧
            Derives stream.sourceName .conditional word expr :=
        (below.conditional start).map fun _ expr inner => ⟨expr, rfl, inner⟩
      apply AccountsFor.bind (last _)
      rintro third _ last ⟨otherwise, rfl, inner⟩
      apply AccountsFor.originAt
      apply AccountsFor.pure
      have chosen := Derives.ifElse isIf isElse before test inner
      simpa [Found] using chosen
    · change AccountsFor stream middle (originAt value.line >>= fun origin =>
        pure (ForInStep.yield (Expr.conditional origin condition value none))) _
      apply AccountsFor.originAt
      apply AccountsFor.pure
      have chosen := Derives.onlyIf isIf before test
      simpa [Found] using chosen
  · exact .pure (by simpa [Found] using before)

theorem conditionalRule_accounts :
    AccountsFor stream start (conditionalRule deeper) (Derives stream.sourceName .conditional) := by
  apply AccountsFor.bind (disjunction_accounts closed inside below)
  intro word value middle first
  refine AccountsFor.loop ?_ (Derives.loosen first)
  intro word value middle before
  exact conditionalStep_accounts closed inside below before

variable [Limits]

omit inside below in
theorem deeper_sound (levels : Nat) : (Expr.deeper levels).Sound stream := by
  induction levels with
  | zero => exact ⟨fun _ => .throw _, fun _ => .throw _, fun _ => .throw _⟩
  | succ levels ih =>
      have inside := deeper_inside closed levels
      exact ⟨fun _ => conditionalRule_accounts closed inside ih,
        fun _ => negationRule_accounts closed inside ih,
        fun _ => unaryRule_accounts closed inside ih⟩

end

end Expr

/-- An expression is derived from exactly the tokens that were read for it, and they all stand
before the first token at which a tag or the template ends or plain text begins. -/
theorem Expr.parse_sound [Limits] {tokens : List Token} {levels start stop : Nat} {value : Expr}
    (parsed : Expr.parse levels (TokenStream.ofTokens tokens) start = .ok value stop) :
    start ≤ stop ∧
    Expr.Derives (TokenStream.ofTokens tokens).sourceName .conditional
      ((TokenStream.ofTokens tokens).between start stop) value ∧
    ∀ index, start ≤ index →
      ((TokenStream.ofTokens tokens).get index).kind ∈ [.blockEnd, .variableEnd, .data, .eof] →
      stop ≤ index := by
  have closed := TokenStream.isClosed_ofTokens tokens
  have reading := (Expr.deeper_sound closed levels).conditional start value stop parsed
  refine ⟨reading.1, reading.2, ?_⟩
  intro index fromStart isEnd
  have reads : Reads _ 1 start (Expr.parse levels) := Expr.parse_reads closed levels
  rw [Reads, parsed] at reads
  by_contra beforeStop
  have inner := reads.1.inner index fromStart (by omega)
  simp only [List.mem_cons, List.not_mem_nil, or_false] at isEnd
  rcases isEnd with isEnd | isEnd | isEnd | isEnd <;> simp [isEnd, Token.Kind.isInner] at inner

set_option maxRecDepth 10000 in
/-- Differences associate to the left, and the end of the tag is not read. -/
theorem Expr.parse_sound_difference : ∃ stream, stream = TokenStream.ofTokens (Token.layOut none
      .start [(.integer, "1"), (.sub, "-"), (.integer, "2"), (.sub, "-"), (.name, "a"),
        (.variableEnd, "\x7d\x7d")]) ∧
    Expr.parse 2 stream 0 = .ok (.binary ⟨1, none⟩ .sub
      (.binary ⟨1, none⟩ .sub (.integer ⟨1, none⟩ 1) (.integer ⟨1, none⟩ 2))
      (.name ⟨1, none⟩ "a")) 5 ∧
    Expr.Derives stream.sourceName .conditional (stream.between 0 5)
      (.binary ⟨1, none⟩ .sub
        (.binary ⟨1, none⟩ .sub (.integer ⟨1, none⟩ 1) (.integer ⟨1, none⟩ 2))
        (.name ⟨1, none⟩ "a")) := by
  have parsed : Expr.parse 2 (.ofTokens (Token.layOut none .start [(.integer, "1"), (.sub, "-"),
      (.integer, "2"), (.sub, "-"), (.name, "a"), (.variableEnd, "\x7d\x7d")])) 0 =
      .ok (.binary ⟨1, none⟩ .sub
        (.binary ⟨1, none⟩ .sub (.integer ⟨1, none⟩ 1) (.integer ⟨1, none⟩ 2))
        (.name ⟨1, none⟩ "a")) 5 := by
    cbv
  exact ⟨_, rfl, parsed, (Expr.parse_sound parsed).2.1⟩

end Stencil

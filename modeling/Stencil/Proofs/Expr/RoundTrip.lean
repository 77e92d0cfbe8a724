import Stencil.Proofs.Expr.Levels
import Stencil.Proofs.Literal.Writing

/-!
# Written expressions are read back

The grammar reads the written form of an expression as that expression, whatever stands around it.
The proof goes over the ways in which an expression is put together. For each of them it gives the
rule of the expression's own level; the rules of looser levels follow, and so does the rule for the
expression in parentheses. Only the origins of nodes can differ. Whether there are enough levels of
nesting depends on `Expr.nesting` alone.
-/

namespace Stencil.Expr

open Reading

variable {levels start : Nat} {stream : TokenStream}

/-- Two expressions differ only in the origins of their nodes. -/
def Agrees (expr value : Expr) : Prop :=
  value.forgetOrigins = expr.forgetOrigins

/-- The written form of an expression is read back at its own level. -/
structure ReadBack [Limits] (expr : Expr) : Prop where
  starts : Starts expr.level expr.lexemes
  accepts : expr.level.Accepts expr.lexemes expr.nesting expr.Agrees
  feeds : expr.level.isRepeated = true → expr.level ≠ .conditional →
    expr.level.Feeds expr.lexemes expr.nesting expr.Agrees

theorem length_cons_add {lexeme : Lexeme} {lexemes : List Lexeme} :
    start + (lexeme :: lexemes).length = start + 1 + lexemes.length := by
  rw [List.length_cons]
  omega

namespace ReadBack

variable [Limits] {expr : Expr} {place : Level}

theorem of_accepts (starts : Starts expr.level expr.lexemes)
    (accepts : expr.level.Accepts expr.lexemes expr.nesting expr.Agrees)
    (notFed : expr.level.isRepeated = false ∨ expr.level = .conditional) : ReadBack expr := by
  refine ⟨starts, accepts, fun repeated notConditional => ?_⟩
  rcases notFed with notRepeated | isConditional
  · exact absurd repeated (by simp [notRepeated])
  · exact absurd isConditional notConditional

theorem of_feeds (starts : Starts expr.level expr.lexemes)
    (feeds : expr.level.Feeds expr.lexemes expr.nesting expr.Agrees)
    (repeated : expr.level.isRepeated = true) : ReadBack expr :=
  ⟨starts, feeds.accepts repeated, fun _ _ => feeds⟩

theorem starts_parenthesized (readBack : ReadBack expr) :
    Starts .primary (.symbol "(" :: expr.lexemes ++ [.symbol ")"]) :=
  .cons rfl (Nat.le_refl _) (readBack.starts.head_ne_assign _)

theorem parenthesized (readBack : ReadBack expr) :
    Level.primary.Accepts (.symbol "(" :: expr.lexemes ++ [.symbol ")"]) (expr.nesting + 1)
      expr.Agrees := by
  have accepts : Level.conditional.Accepts expr.lexemes expr.nesting expr.Agrees :=
    readBack.accepts.loosen readBack.starts (Nat.zero_le _)
  exact accepts.parenthesized

/-- In any place, an expression is read back with the parentheses that it needs there. -/
theorem accepts_at (readBack : ReadBack expr) (place : Level) :
    place.Accepts (place.enclose expr.level expr.lexemes)
      (expr.nesting + place.enclosure expr.level) expr.Agrees := by
  unfold Level.enclose Level.enclosure
  split
  · exact readBack.parenthesized.loosen readBack.starts_parenthesized place.rank_le
  · next notLooser => exact readBack.accepts.loosen readBack.starts (Nat.not_lt.1 notLooser)

/-- The left operand of an operator goes into the repetition of the operator's level. -/
theorem feeds_at (readBack : ReadBack expr) (repeated : place.isRepeated = true)
    (notConditional : place ≠ .conditional) :
    place.Feeds (place.enclose expr.level expr.lexemes)
      (expr.nesting + place.enclosure expr.level) expr.Agrees := by
  by_cases same : expr.level = place
  · subst same
    simpa [Level.enclose, Level.enclosure] using readBack.feeds repeated notConditional
  · refine Level.Accepts.feeds ?_ repeated
    unfold Level.enclose Level.enclosure
    split
    · exact readBack.parenthesized.loosen readBack.starts_parenthesized place.tighter.rank_le
    · next notLooser =>
      refine readBack.accepts.loosen readBack.starts ?_
      have isTighter : place.rank ≠ expr.level.rank := fun sameRank =>
        same (Level.rank_injective sameRank.symm)
      rw [Level.rank_tighter (by have := expr.level.rank_le; omega)]
      omega

/-- An operand is followed by tokens that one step of the repetition takes. -/
theorem feeds_step (readBack : ReadBack expr) (repeated : place.isRepeated = true)
    (notConditional : place ≠ .conditional) {lexeme : Lexeme} {tail : List Lexeme} {needed : Nat}
    {good : Expr → Prop} (binds : lexeme.kind.binds? = some place)
    (takes : ∀ levels stream start value, stream.Shows start (lexeme :: tail) →
      place.tighter.stops (stream.get (start + (lexeme :: tail).length)).kind = true →
      expr.Agrees value →
      Takes levels needed stream (place.step (deeper levels) value) start
        (start + (lexeme :: tail).length) fun result =>
          ∃ more, result = .yield more ∧ good more) :
    place.Feeds (place.enclose expr.level expr.lexemes ++ lexeme :: tail)
      (max (expr.nesting + place.enclosure expr.level) needed) good := by
  intro levels stream start shows stops
  rw [TokenStream.shows_append] at shows
  rw [List.length_append, ← Nat.add_assoc] at stops ⊢
  obtain ⟨showsFirst, showsTail⟩ := shows
  have isBelow : place.rank < Level.primary.rank := by
    cases place <;> first | decide | exact absurd repeated Bool.false_ne_true
  have stopsFirst : place.tighter.stops
      (stream.get (start + (place.enclose expr.level expr.lexemes).length)).kind = true := by
    rw [showsTail.1.kind, Level.stops_of_binds? binds, Level.rank_tighter isBelow]
    exact decide_eq_true (Nat.lt_succ_self _)
  refine (readBack.feeds_at repeated notConditional levels stream start showsFirst stopsFirst).trans
    fun value agrees => ?_
  have inside := showsTail.1.inside
  exact GoesOn.loop (takes levels stream _ value showsTail stops agrees)
    (by rw [List.length_cons]; omega) (by omega)

end ReadBack

/-! ### Names and literals -/

/-- A free name is read as a name. -/
theorem primary_eq_of_name (deeper : Deeper) {id : String} (free : isFreeName id = true)
    (stands : stream.Stands start (.word id)) : primary deeper stream start =
      .ok (.name ⟨(stream.get start).line, stream.sourceName⟩ id) (start + 1) := by
  have isName : (stream.get start).kind = .name := by
    rw [stands.kind, Lexeme.word, wordKind_of_isFreeName free]
  rw [primary, current_bind, isName]
  dsimp only
  rw [bind_eq_of_ok (advance_eq_of_stands stands), stands.text]
  rfl

theorem accepts_name [Limits] (origin : Origin) {id : String} (free : isFreeName id = true) :
    Level.primary.Accepts [.word id] 0 (name origin id).Agrees := by
  rintro levels stream start ⟨stands, _⟩ _
  exact Takes.of_ok (primary_eq_of_name (deeper levels) free stands) rfl

theorem primary_eq_of_isLiteral (deeper : Deeper)
    (isLiteral : (stream.get start).kind.isLiteral = true) :
    primary deeper stream start = literal stream start := by
  rw [primary, current_bind]
  generalize (stream.get start).kind = kind at isLiteral ⊢
  cases kind <;> first | rfl | exact absurd isLiteral Bool.false_ne_true

/-- Strings are read up to the next token that is none. -/
theorem loop_stringStep_eq {lexemes : List Lexeme} {value : String}
    (shows : stream.Shows start lexemes) (areStrings : ∀ lexeme ∈ lexemes, lexeme.kind = .string)
    (ends : (stream.get (start + lexemes.length)).kind ≠ .string) :
    Reading.loop stringStep value stream start =
      .ok (value ++ String.join (lexemes.map fun lexeme =>
        String.ofList (Literal.stringValue lexeme.text.toList))) (start + lexemes.length) := by
  induction lexemes generalizing start value with
  | nil =>
      have ends : (stream.get start).kind ≠ .string := ends
      refine repeatFrom_eq_of_done ?_
      rw [stringStep, current_bind, if_neg ends, List.map_nil, String.join_nil,
        String.append_empty]
      rfl
  | cons lexeme lexemes ih =>
      rcases shows with ⟨stands, shows⟩
      rw [List.forall_mem_cons] at areStrings
      have reads : stringStep value stream start =
          .ok (.yield (value ++ String.ofList (Literal.stringValue lexeme.text.toList)))
            (start + 1) := by
        rw [stringStep, current_bind, if_pos (stands.kind.trans areStrings.1),
          bind_eq_of_ok (advance_eq_of_stands stands), stands.text]
        rfl
      have sameStop : start + (lexeme :: lexemes).length = start + 1 + lexemes.length := by
        rw [List.length_cons]
        omega
      have inside : id start < stream.size := Nat.lt_of_succ_lt stands.inside
      rw [sameStop] at ends ⊢
      rw [Reading.loop, repeatFrom_eq_of_yield reads (Nat.lt_succ_self start) inside,
        ← Reading.loop, ih shows areStrings.2 ends, List.map_cons, String.join_cons,
        String.append_assoc]

theorem stringLiteral_eq {lexeme : Lexeme} (stands : stream.Stands start lexeme)
    (isString : lexeme.kind = .string) (ends : (stream.get (start + 1)).kind ≠ .string) :
    stringLiteral stream start =
      .ok (String.ofList (Literal.stringValue lexeme.text.toList)) (start + 1) := by
  have shows : stream.Shows start [lexeme] := ⟨stands, trivial⟩
  rw [stringLiteral, loop_stringStep_eq shows (by simpa using isString) ends]
  simp

/-- A literal is read by the rule for its kind. -/
theorem accepts_literal [Limits] {lexeme : Lexeme} {expr : Expr} (literalOf : Origin → Expr)
    (isLiteral : lexeme.kind.isLiteral = true) (agrees : ∀ origin, expr.Agrees (literalOf origin))
    (reads : ∀ stream start, stream.Stands start lexeme →
      (stream.get (start + 1)).kind ≠ .string →
      literal stream start =
        .ok (literalOf ⟨(stream.get start).line, stream.sourceName⟩) (start + 1)) :
    Level.primary.Accepts [lexeme] 0 expr.Agrees := by
  rintro levels stream start ⟨stands, _⟩ stops
  have ends : (stream.get (start + 1)).kind ≠ .string := fun isString =>
    Level.not_binds_of_stops stops (congrArg Token.Kind.binds? isString)
  have outcome : primary (deeper levels) stream start = _ :=
    (primary_eq_of_isLiteral _ (stands.kind ▸ isLiteral)).trans (reads stream start stands ends)
  exact Takes.of_ok outcome (agrees _)

theorem accepts_string [Limits] (origin : Origin) (value : String) :
    Level.primary.Accepts [⟨.string, Literal.quote value⟩] 0 (string origin value).Agrees := by
  refine accepts_literal (string · value) rfl (fun _ => rfl) fun stream start stands ends => ?_
  have isString : (stream.get start).kind = .string := stands.kind
  rw [literal, current_bind, originAt_bind, isString]
  dsimp only
  rw [bind_eq_of_ok (stringLiteral_eq stands rfl ends), Literal.stringValue_quote]
  rfl

theorem accepts_integer [Limits] (origin : Origin) {value : Int} (notNegative : 0 ≤ value)
    (fits : value ≤ Literal.maxInteger) :
    Level.primary.Accepts [⟨.integer, Literal.decimal value⟩] 0 (integer origin value).Agrees := by
  refine accepts_literal (integer · value) rfl (fun _ => rfl) fun stream start stands _ => ?_
  have isInteger : (stream.get start).kind = .integer := stands.kind
  rw [literal, current_bind, originAt_bind, isInteger]
  dsimp only
  rw [stands.text, Literal.readInteger_decimal notNegative fits]
  dsimp only
  rw [bind_eq_of_ok (advance_eq_of_stands stands)]
  rfl

theorem accepts_boolean [Limits] (origin : Origin) (value : Bool) :
    Level.primary.Accepts [.word (if value then "true" else "false")] 0
      (boolean origin value).Agrees := by
  have isLiteral : (Lexeme.word (if value then "true" else "false")).kind = .boolean := by
    cases value <;> rfl
  refine accepts_literal (boolean · value) (isLiteral ▸ rfl) (fun _ => rfl)
    fun stream start stands _ => ?_
  rw [literal, current_bind, originAt_bind, stands.kind, isLiteral]
  dsimp only
  rw [bind_eq_of_ok (advance_eq_of_stands stands), stands.text]
  cases value <;> rfl

theorem accepts_null [Limits] (origin : Origin) :
    Level.primary.Accepts [.word "null"] 0 (null origin).Agrees := by
  refine accepts_literal null rfl (fun _ => rfl) fun stream start stands _ => ?_
  have isNull : (stream.get start).kind = .null := stands.kind
  rw [literal, current_bind, originAt_bind, isNull]
  dsimp only
  rw [bind_eq_of_ok (advance_eq_of_stands stands)]
  rfl

/-! ### Lists and arguments -/

theorem forgetItems_eq_map (items : List Expr) : forgetItems items = items.map forgetOrigins := by
  induction items with
  | nil => rfl
  | cons item items ih => rw [forgetItems, ih, List.map_cons]

theorem forgetNamed_eq_map (named : List (Named Expr)) :
    forgetNamed named = named.map fun each => ⟨each.name, each.value.forgetOrigins⟩ := by
  induction named with
  | nil => rfl
  | cons each named ih => rw [forgetNamed, ih, List.map_cons]

/-- The tokens of a keyword argument. -/
def keywordLexemes (named : Named Expr) : List Lexeme :=
  .word named.name :: .symbol "=" :: named.value.lexemes

theorem namedLexemes_eq_map (named : List (Named Expr)) :
    namedLexemes named = named.map keywordLexemes := by
  induction named with
  | nil => rfl
  | cons each named ih => rw [namedLexemes, ih, List.map_cons, keywordLexemes]

theorem isEmpty_eq_of_map_eq {α β : Type} {change : α → β} {first second : List α}
    (same : first.map change = second.map change) : first.isEmpty = second.isEmpty := by
  rw [← List.isEmpty_map, same, List.isEmpty_map]

variable [Limits]

theorem ReadBack.first_kind_ne {expr : Expr} (readBack : ReadBack expr) {kind : Token.Kind}
    (opensNone : kind.opens? = none) :
    ∃ lexeme rest, expr.lexemes = lexeme :: rest ∧ lexeme.kind ≠ kind := by
  obtain ⟨lexeme, rest, level, sameLexemes, opens, _⟩ := readBack.starts.first
  refine ⟨lexeme, rest, sameLexemes, ?_⟩
  rintro rfl
  simp [opensNone] at opens

theorem ReadBack.kind_ne {expr : Expr} (readBack : ReadBack expr) {kind : Token.Kind}
    (shows : stream.Shows start expr.lexemes) (opensNone : kind.opens? = none) :
    (stream.get start).kind ≠ kind := by
  obtain ⟨lexeme, rest, sameLexemes, notKind⟩ := readBack.first_kind_ne opensNone
  rw [sameLexemes] at shows
  exact shows.1.kind ▸ notKind

/-- An expression is read one level deeper if the next token goes on with none. -/
theorem ReadBack.takes_conditional {expr : Expr} (readBack : ReadBack expr)
    (shows : stream.Shows start expr.lexemes)
    (ends : (stream.get (start + expr.lexemes.length)).kind.binds? = none) (levels : Nat) :
    Takes levels (expr.nesting + 1) stream (deeper levels).conditional start
      (start + expr.lexemes.length) expr.Agrees := by
  have accepts : Level.conditional.Accepts expr.lexemes expr.nesting expr.Agrees :=
    readBack.accepts.loosen readBack.starts (Nat.zero_le _)
  exact accepts.descend (Or.inl rfl) shows (by rw [Level.stops, ends]) levels

theorem listLiteral_takes {items : List Expr} (each : ∀ item ∈ items, ReadBack item)
    (shows : stream.Shows start
      (.symbol "[" :: (separated (itemLexemes items) ++ [.symbol "]"]))) (levels : Nat) :
    Takes levels (itemNesting items) stream (listLiteral (deeper levels)) start
      (start + (separated (itemLexemes items)).length + 2) fun value =>
        value.forgetOrigins = list ⟨0, none⟩ (forgetItems items) := by
  rw [itemLexemes_eq_map, TokenStream.shows_cons, TokenStream.shows_append] at shows
  obtain ⟨opens, inner, closes, _⟩ := shows
  rw [itemLexemes_eq_map, itemNesting_eq_foldr]
  let good (before found : List Expr) : Prop := found.map forgetOrigins = before.map forgetOrigins
  have nothing : good [] [] := rfl
  refine .bind_of_ok (expect_eq_of_stands opens rfl _) ?_
  refine GoesOn.of_stop_eq (Takes.bind_pure (commaList_takes (commaStep_goesOn good true items
    (by decide) (fun before found isGood => isEmpty_eq_of_map_eq isGood)
    (fun item member => (each item member).first_kind_ne rfl)
    (fun before item after split found middle isGood shows ends => ?_) nothing inner
    fun _ => Or.inr closes.kind) closes rfl) fun found isGood => .originAt (Takes.pure ?_)) ?_
  · refine Takes.bind_pure ((each item (by simp [split])).takes_conditional shows ?_ levels)
      fun value agrees => Takes.pure ?_
    · rcases ends with ends | ends <;> rw [ends] <;> rfl
    · rw [Agrees] at agrees
      simp only [good, List.map_append, List.map_singleton, agrees, isGood]
  · rw [forgetOrigins, forgetItems_eq_map, forgetItems_eq_map, isGood]
  · change start + 1 + (separated (items.map lexemes)).length + 1 = _
    omega

/-- No positional argument is taken for a keyword argument. -/
theorem ReadBack.not_keyword {expr : Expr} (readBack : ReadBack expr)
    (shows : stream.Shows start expr.lexemes)
    (ends : (stream.get (start + expr.lexemes.length)).kind ≠ .assign) :
    ¬((stream.get start).kind = .name ∧ (stream.get (start + 1)).kind = .assign) := by
  obtain ⟨lexeme, rest, level, sameLexemes, _, _⟩ := readBack.starts.first
  have notAssign := readBack.starts.second
  rw [sameLexemes] at shows ends notAssign
  rintro ⟨_, isAssign⟩
  cases rest with
  | nil => exact ends isAssign
  | cons second rest => exact notAssign second rfl (shows.2.1.kind ▸ isAssign)

theorem callArgument_takes_positional {expr : Expr} (readBack : ReadBack expr)
    (shows : stream.Shows start expr.lexemes)
    (ends : (stream.get (start + expr.lexemes.length)).kind = .comma ∨
      (stream.get (start + expr.lexemes.length)).kind = .rparen)
    (args : List Expr) (levels : Nat) :
    Takes levels (expr.nesting + 1) stream (callArgument (deeper levels) (args, [])) start
      (start + expr.lexemes.length) fun found =>
        found.1.map forgetOrigins = args.map forgetOrigins ++ [expr.forgetOrigins] ∧
          found.2 = [] := by
  have notKeyword := readBack.not_keyword shows (by rcases ends with ends | ends <;> simp [ends])
  refine .current (.of_rule_eq ?_ (peek_bind 1 _ start))
  rw [if_neg notKeyword]
  refine Takes.bind_pure (readBack.takes_conditional shows ?_ levels) fun value agrees =>
    Takes.pure ⟨?_, rfl⟩
  · rcases ends with ends | ends <;> rw [ends] <;> rfl
  · rw [Agrees] at agrees
    simp only [List.map_append, List.map_singleton, agrees]

theorem callArgument_takes_keyword {named : Named Expr} (free : isFreeName named.name = true)
    (readBack : ReadBack named.value) (shows : stream.Shows start (keywordLexemes named))
    (ends : (stream.get (start + (keywordLexemes named).length)).kind = .comma ∨
      (stream.get (start + (keywordLexemes named).length)).kind = .rparen)
    (args : List Expr) (kwargs : List (Named Expr)) (levels : Nat) :
    Takes levels (named.value.nesting + 1) stream
      (callArgument (deeper levels) (args, kwargs)) start
      (start + (keywordLexemes named).length) fun found =>
        found.1 = args ∧ forgetNamed found.2 =
          forgetNamed kwargs ++ [⟨named.name, named.value.forgetOrigins⟩] := by
  obtain ⟨name, assign, value⟩ := shows
  have isName : (Lexeme.word named.name).kind = .name := wordKind_of_isFreeName free
  have isAssign : (stream.get (start + 1)).kind = .assign := assign.kind
  have sameStop : start + (keywordLexemes named).length =
      start + 1 + 1 + named.value.lexemes.length := by
    simp only [keywordLexemes, List.length_cons]
    omega
  rw [sameStop] at ends ⊢
  refine .current (.of_rule_eq ?_ (peek_bind 1 _ start))
  rw [if_pos ⟨name.kind.trans isName, isAssign⟩]
  refine .bind_of_ok (identifier_eq_of_stands name isName) ?_
  refine .bind_of_ok (advance_eq_of_stands assign) ?_
  refine Takes.bind_pure (readBack.takes_conditional value ?_ levels) fun value agrees =>
    Takes.pure ⟨rfl, ?_⟩
  · rcases ends with ends | ends <;> rw [ends] <;> rfl
  · rw [Agrees] at agrees
    simp only [forgetNamed_eq_map, List.map_append, List.map_singleton, agrees]
    rfl

/-- The arguments of a call are read back, the positional ones first. -/
theorem callArguments_takes {args : List Expr} {kwargs : List (Named Expr)}
    (each : ∀ arg ∈ args, ReadBack arg)
    (free : ∀ kwarg ∈ kwargs, isFreeName kwarg.name = true)
    (eachNamed : ∀ kwarg ∈ kwargs, ReadBack kwarg.value)
    (shows : stream.Shows start
      (.symbol "(" :: (separated (itemLexemes args ++ namedLexemes kwargs) ++ [.symbol ")"])))
    (levels : Nat) :
    Takes levels (max (itemNesting args) (namedNesting kwargs)) stream
      (callArguments (deeper levels)) start
      (start + (separated (itemLexemes args ++ namedLexemes kwargs)).length + 2) fun found =>
        forgetItems found.1 = forgetItems args ∧ forgetNamed found.2 = forgetNamed kwargs := by
  rw [itemLexemes_eq_map, namedLexemes_eq_map] at shows ⊢
  have sameTokens : separated (args.map lexemes ++ kwargs.map keywordLexemes) =
      commas true (args.map lexemes) ++ commas args.isEmpty (kwargs.map keywordLexemes) := by
    change commas true _ = _
    rw [commas_append, List.isEmpty_map, Bool.true_and]
  rw [sameTokens, List.append_assoc, TokenStream.shows_cons, TokenStream.shows_append,
    TokenStream.shows_append] at shows
  obtain ⟨opens, showsArgs, showsKwargs, closes, _⟩ := shows
  rw [itemNesting_eq_foldr, namedNesting_eq_foldr, sameTokens]
  let goodArgs (before : List Expr) (found : List Expr × List (Named Expr)) : Prop :=
    found.1.map forgetOrigins = before.map forgetOrigins ∧ found.2 = []
  let goodKwargs (before : List (Named Expr)) (found : List Expr × List (Named Expr)) : Prop :=
    found.1.map forgetOrigins = args.map forgetOrigins ∧ forgetNamed found.2 = forgetNamed before
  have nothing : goodArgs [] ([], []) := ⟨rfl, rfl⟩
  -- After the positional arguments comes the comma before a keyword argument, or the end.
  have endsArgs : args ≠ [] →
      (stream.get (start + 1 + (commas true (args.map lexemes)).length)).kind = .comma ∨
      (stream.get (start + 1 + (commas true (args.map lexemes)).length)).kind = .rparen := by
    intro nonempty
    cases kwargs with
    | nil =>
        rw [List.map_nil, commas_nil] at closes
        exact Or.inr closes.kind
    | cons kwarg kwargs =>
        rw [List.isEmpty_eq_false_iff.2 nonempty, List.map_cons, commas_cons] at showsKwargs
        exact Or.inl showsKwargs.1.kind
  refine .bind_of_ok (expect_eq_of_stands opens rfl _) ?_
  refine GoesOn.of_stop_eq (GoesOn.mono (commaList_takes (GoesOn.trans
    (commaStep_goesOn goodArgs true args (by decide) ?_ ?_ ?_ nothing showsArgs endsArgs)
    fun found isGood => commaStep_goesOn goodKwargs args.isEmpty kwargs (by decide) ?_ ?_ ?_ ?_
      showsKwargs fun _ => Or.inr closes.kind) closes rfl) ?_) ?_
  · rintro before ⟨found, foundNamed⟩ ⟨sameArgs, rfl⟩
    simpa using isEmpty_eq_of_map_eq sameArgs
  · exact fun arg member => (each arg member).first_kind_ne rfl
  · rintro before arg after split ⟨found, foundNamed⟩ middle ⟨sameArgs, rfl⟩ shows ends
    refine (callArgument_takes_positional (each arg (by simp [split])) shows ends found
      levels).mono ?_
    rintro value ⟨sameValue, noKwargs⟩
    exact ⟨by rw [sameValue, sameArgs, List.map_append, List.map_singleton], noKwargs⟩
  · rintro before ⟨found, foundNamed⟩ ⟨sameArgs, sameKwargs⟩
    rw [forgetNamed_eq_map, forgetNamed_eq_map] at sameKwargs
    exact congrArg₂ and (isEmpty_eq_of_map_eq sameArgs) (isEmpty_eq_of_map_eq sameKwargs)
  · refine fun kwarg member => ⟨_, _, rfl, ?_⟩
    rw [Lexeme.word, wordKind_of_isFreeName (free kwarg member)]
    exact Token.Kind.noConfusion
  · rintro before kwarg after split ⟨found, foundNamed⟩ middle ⟨sameArgs, sameKwargs⟩ shows ends
    have member : kwarg ∈ kwargs := by simp [split]
    refine (callArgument_takes_keyword (free kwarg member) (eachNamed kwarg member) shows ends
      found foundNamed levels).mono ?_
    rintro value ⟨rfl, sameValue⟩
    refine ⟨sameArgs, ?_⟩
    rw [sameValue, sameKwargs, forgetNamed_eq_map, forgetNamed_eq_map, List.map_append,
      List.map_singleton]
  · exact ⟨isGood.1, by rw [isGood.2]⟩
  · rintro found ⟨sameArgs, sameKwargs⟩
    exact ⟨by rw [forgetItems_eq_map, sameArgs, forgetItems_eq_map], sameKwargs⟩
  · rw [List.length_append]
    omega

/-! ### Operators -/

omit [Limits] in
theorem operatorOf_eq_some {choice : List BinaryOp} {op : BinaryOp} {lexeme : Lexeme}
    (stands : stream.Stands start lexeme) (isOperator : BinaryOp.ofKind? lexeme.kind = some op)
    (chosen : op ∈ choice) : operatorOf choice stream start = .ok (some op) (start + 1) := by
  rw [operatorOf, current_bind, stands.kind, isOperator]
  dsimp only
  rw [if_pos chosen, bind_eq_of_ok (advance_eq_of_stands stands)]
  rfl

omit [Limits] in
/-- An operator is read by the rule for the operators of its level. -/
theorem operator_eq_some {op : BinaryOp} (shows : stream.Shows start op.lexemes) :
    op.level.operator stream start = .ok (some op) (start + op.lexemes.length) := by
  have compares (notNot : (stream.get start).isKeyword .not_ = false) :
      comparisonOperator stream start =
        operatorOf [.eq, .ne, .lt, .le, .gt, .ge, .in_] stream start := by
    rw [comparisonOperator, current_bind, peek_bind, notNot, if_neg (by simp)]
  cases op with
  | notIn =>
      obtain ⟨isNot, isIn, _⟩ := shows
      have found : (stream.get start).isKeyword .not_ ∧ (stream.get (start + 1)).isKeyword .in_ :=
        ⟨decide_eq_true isNot.kind, decide_eq_true isIn.kind⟩
      change comparisonOperator stream start = _
      rw [comparisonOperator, current_bind, peek_bind, if_pos found,
        bind_eq_of_ok (advance_eq_of_stands isNot), bind_eq_of_ok (advance_eq_of_stands isIn)]
      rfl
  | eq | ne | lt | le | gt | ge | in_ =>
      have notNot : (stream.get start).isKeyword .not_ = false := by
        rw [Token.isKeyword, shows.1.kind]
        rfl
      exact (compares notNot).trans (operatorOf_eq_some shows.1 rfl (by decide))
  | _ => exact operatorOf_eq_some shows.1 rfl (by decide)

omit [Limits] in
theorem isRepeated_level (op : BinaryOp) :
    op.level.isRepeated = true ∧ op.level ≠ .conditional := by
  cases op <;> decide

omit [Limits] in
theorem step_level_eq (op : BinaryOp) (deeper : Deeper) : op.level.step deeper =
    chainStep op.level.operator (op.level.tighter.rule deeper) := by
  cases op <;> rfl

omit [Limits] in
theorem exists_lexemes_eq (op : BinaryOp) :
    ∃ lexeme rest, op.lexemes = lexeme :: rest ∧ lexeme.kind.binds? = some op.level := by
  cases op <;> exact ⟨_, _, rfl, rfl⟩

theorem feeds_binary (origin : Origin) (op : BinaryOp) {left right : Expr} (first : ReadBack left)
    (second : ReadBack right) :
    op.level.Feeds (binary origin op left right).lexemes (binary origin op left right).nesting
      (binary origin op left right).Agrees := by
  obtain ⟨repeated, notConditional⟩ := isRepeated_level op
  obtain ⟨lexeme, rest, sameLexemes, binds⟩ := exists_lexemes_eq op
  rw [lexemes, List.append_assoc, sameLexemes, List.cons_append, nesting]
  refine first.feeds_step repeated notConditional binds
    fun levels stream start left' shows stops agrees => ?_
  rw [← List.cons_append, ← sameLexemes] at shows stops ⊢
  rw [List.length_append, ← Nat.add_assoc] at stops ⊢
  obtain ⟨showsOp, showsRight⟩ := TokenStream.shows_append.1 shows
  rw [step_level_eq]
  refine .bind_of_ok (operator_eq_some showsOp) ?_
  refine Takes.bind_pure (second.accepts_at op.level.tighter levels stream _ showsRight stops)
    fun right' agreesRight => .originAt (Takes.pure ⟨_, rfl, ?_⟩)
  rw [Agrees] at agrees agreesRight ⊢
  rw [forgetOrigins, forgetOrigins, agrees, agreesRight]

theorem accepts_not (origin : Origin) {operand : Expr} (inner : ReadBack operand) :
    Level.negation.Accepts (unary origin .not_ operand).lexemes
      (unary origin .not_ operand).nesting (unary origin .not_ operand).Agrees := by
  rintro levels stream start ⟨isNot, shows⟩ stops
  have found : (stream.get start).isKeyword .not_ := decide_eq_true isNot.kind
  rw [lexemes, length_cons_add] at stops ⊢
  refine .current ?_
  rw [if_pos found]
  refine .bind_of_ok (advance_eq_of_stands isNot) ?_
  refine Takes.bind_pure ((inner.accepts_at .negation).descend (Or.inr (Or.inl rfl)) shows stops
    levels) fun value agrees => .originAt (Takes.pure ?_)
  rw [Agrees] at agrees ⊢
  rw [forgetOrigins, forgetOrigins, agrees]

theorem accepts_sign (origin : Origin) {op : UnaryOp} (isSign : op ≠ .not_) {operand : Expr}
    (inner : ReadBack operand) :
    op.level.Accepts (unary origin op operand).lexemes (unary origin op operand).nesting
      (unary origin op operand).Agrees := by
  have sameLevel : op.level = .unary := by cases op <;> first | rfl | exact absurd rfl isSign
  rintro levels stream start ⟨sign, shows⟩ stops
  have found : UnaryOp.ofKind? (stream.get start).kind = some op := by
    rw [sign.kind]
    cases op <;> first | rfl | exact absurd rfl isSign
  rw [lexemes, length_cons_add] at stops ⊢
  rw [nesting]
  rw [sameLevel] at shows stops ⊢
  refine .current ?_
  rw [found]
  refine .bind_of_ok (advance_eq_of_stands sign) ?_
  refine Takes.bind_pure ((inner.accepts_at .unary).descend (Or.inr (Or.inr rfl)) shows stops
    levels) fun value agrees => .originAt (Takes.pure ?_)
  rw [Agrees] at agrees ⊢
  rw [forgetOrigins, forgetOrigins, agrees]

/-! ### Conditions -/

/-- A condition is read, and after `else` another expression one level deeper. -/
theorem conditionalStep_takes (origin : Origin) {condition value value' : Expr}
    {otherwise : Option Expr} (first : ReadBack condition)
    (third : ∀ expr ∈ otherwise, ReadBack expr) (agrees : value.Agrees value')
    (shows : stream.Shows start (.word "if" ::
      (Level.disjunction.enclose condition.level condition.lexemes ++
        optionalLexemes [.word "else"] otherwise)))
    (stops : Level.conditional.stops (stream.get (start + 1 +
      (Level.disjunction.enclose condition.level condition.lexemes).length +
      (optionalLexemes [.word "else"] otherwise).length)).kind = true) (levels : Nat) :
    Takes levels
      (max (condition.nesting + Level.disjunction.enclosure condition.level)
        (optionalNesting otherwise)) stream
      (conditionalStep (deeper levels) value') start (start + 1 +
        (Level.disjunction.enclose condition.level condition.lexemes).length +
        (optionalLexemes [.word "else"] otherwise).length) fun result =>
          ∃ more, result = .yield more ∧
            (conditional origin condition value otherwise).Agrees more := by
  rw [TokenStream.shows_cons, TokenStream.shows_append] at shows
  obtain ⟨isIf, showsCondition, showsOtherwise⟩ := shows
  have stopsCondition : Level.disjunction.stops (stream.get (start + 1 +
      (Level.disjunction.enclose condition.level condition.lexemes).length)).kind = true := by
    cases otherwise with
    | none => exact Level.stops_of_rank_le stops (by decide)
    | some expr =>
        rw [showsOtherwise.1.kind]
        rfl
  refine .bind_of_ok (skipIf_eq_of_stands isIf rfl) ?_
  refine Takes.bind (first.accepts_at .disjunction levels stream _ showsCondition stopsCondition)
    fun condition' agreesCondition => ?_
  rw [Agrees] at agrees agreesCondition
  cases otherwise with
  | none =>
      have notElse : skipIf (.keyword .else_) stream (start + 1 +
          (Level.disjunction.enclose condition.level condition.lexemes).length) = .ok false _ :=
        skipIf_eq_of_ne fun isElse =>
          Level.not_binds_of_stops stops (congrArg Token.Kind.binds? isElse)
      refine .bind_of_ok notElse ?_
      dsimp only
      rw [if_neg Bool.false_ne_true]
      refine .bind_of_ok rfl (.originAt (Takes.pure ⟨_, rfl, ?_⟩))
      rw [Agrees, forgetOrigins, forgetOrigins, agrees, agreesCondition]
  | some expr =>
      obtain ⟨isElse, showsExpr⟩ := showsOtherwise
      change Level.conditional.stops (stream.get (_ + (_ :: expr.lexemes).length)).kind = true
        at stops
      change GoesOn _ (expr.nesting + 1) _ _ _ _ (_ + (_ :: expr.lexemes).length) _
      rw [length_cons_add] at stops ⊢
      have accepts : Level.conditional.Accepts expr.lexemes expr.nesting expr.Agrees :=
        (third expr rfl).accepts.loosen (third expr rfl).starts (Nat.zero_le _)
      refine .bind_of_ok (skipIf_eq_of_stands isElse rfl) ?_
      dsimp only
      rw [if_pos rfl]
      have takesOtherwise : Takes levels (expr.nesting + 1) stream
          (some <$> (deeper levels).conditional) _ _ fun found =>
            forgetOptional found = some expr.forgetOrigins :=
        (accepts.descend (Or.inl rfl) showsExpr stops levels).map fun value agrees =>
          congrArg some agrees
      refine Takes.bind_pure takesOtherwise fun otherwise' agreesOtherwise => ?_
      refine .originAt (Takes.pure ⟨_, rfl, ?_⟩)
      rw [Agrees, forgetOrigins, forgetOrigins, agrees, agreesCondition, agreesOtherwise,
        forgetOptional]

theorem accepts_conditional (origin : Origin) {condition value : Expr} {otherwise : Option Expr}
    (first : ReadBack condition) (second : ReadBack value)
    (third : ∀ expr ∈ otherwise, ReadBack expr) :
    Level.conditional.Accepts (conditional origin condition value otherwise).lexemes
      (conditional origin condition value otherwise).nesting
      (conditional origin condition value otherwise).Agrees := by
  intro levels stream start shows stops
  rw [lexemes, List.append_assoc, TokenStream.shows_append, List.cons_append] at shows
  rw [lexemes, List.append_assoc, List.length_append, List.cons_append, ← Nat.add_assoc,
    length_cons_add, List.length_append, ← Nat.add_assoc] at stops ⊢
  obtain ⟨showsValue, showsStep⟩ := shows
  have accepts : Level.conditional.tighter.Accepts _ _ value.Agrees :=
    second.accepts_at .disjunction
  have ends (more : Expr) : Level.conditional.step (deeper levels) more stream _ = _ :=
    Level.step_eq_done rfl stops _ more
  have stopsValue : Level.disjunction.stops (stream.get (start +
      (Level.disjunction.enclose value.level value.lexemes).length)).kind = true := by
    rw [showsStep.1.kind]
    rfl
  have inside := showsStep.inside (by simp)
  have repeated := (accepts.feeds rfl levels stream start showsValue stopsValue).trans
    fun value' agrees =>
    (GoesOn.loop (conditionalStep_takes origin first third agrees showsStep stops levels)
      (by omega) (by omega)).trans fun more agrees => Takes.loop_done (ends more) agrees
  exact repeated.of_needed_eq (by rw [nesting, Nat.max_zero])

/-! ### Suffixes -/

omit [Limits] in
/-- A word that can stand after a point is a name or reserved. -/
theorem wordKind_of_isMemberName {member : String} (isName : isMemberName member = true) :
    Lexer.wordKind member = .name ∨ ∃ keyword, Lexer.wordKind member = .keyword keyword := by
  simp only [isMemberName, Bool.and_eq_true, Option.isNone_iff_eq_none] at isName
  unfold Lexer.wordKind
  split
  · next keyword _ => exact Or.inr ⟨keyword, rfl⟩
  · rw [isName.2]
    exact Or.inl rfl

theorem feeds_attr (origin : Origin) {value : Expr} {member : String} (inner : ReadBack value)
    (isName : isMemberName member = true) :
    Level.suffix.Feeds (attr origin value member).lexemes (attr origin value member).nesting
      (attr origin value member).Agrees := by
  rw [lexemes, nesting, ← Nat.max_zero (value.nesting + _)]
  refine inner.feeds_step rfl (by decide) rfl fun levels stream start value' shows _ agrees => ?_
  obtain ⟨dot, word, _⟩ := shows
  have isDot : (stream.get start).kind = .dot := dot.kind
  refine .originAt (.current ?_)
  rw [isDot]
  refine .bind_of_ok (advance_eq_of_stands dot) (.current ?_)
  have yields : Takes levels 0 stream (do
      let _ ← advance
      return ForInStep.yield (attr ⟨value'.line, stream.sourceName⟩ value' member)) (start + 1)
      (start + 2) fun result =>
        ∃ more, result = .yield more ∧ (attr origin value member).Agrees more := by
    refine .bind_of_ok (advance_eq_of_stands word) (Takes.pure ⟨_, rfl, ?_⟩)
    rw [Agrees] at agrees ⊢
    rw [forgetOrigins, forgetOrigins, agrees]
  rcases wordKind_of_isMemberName isName with isKind | ⟨keyword, isKind⟩
  · simp only [Token.word?, word.kind, word.text, Lexeme.word, isKind]
    exact yields
  · simp only [Token.word?, word.kind, word.text, Lexeme.word, isKind]
    exact yields

theorem feeds_call (origin : Origin) {callee : Expr} {args : List Expr}
    {kwargs : List (Named Expr)} (called : ReadBack callee) (each : ∀ arg ∈ args, ReadBack arg)
    (free : ∀ kwarg ∈ kwargs, isFreeName kwarg.name = true)
    (eachNamed : ∀ kwarg ∈ kwargs, ReadBack kwarg.value) :
    Level.suffix.Feeds (call origin callee args kwargs).lexemes
      (call origin callee args kwargs).nesting (call origin callee args kwargs).Agrees := by
  rw [lexemes, nesting, List.append_assoc, List.cons_append]
  refine called.feeds_step rfl (by decide) rfl fun levels stream start callee' shows _ agrees => ?_
  have isParen : (stream.get start).kind = .lparen := shows.1.kind
  refine .originAt (.current ?_)
  rw [isParen]
  refine GoesOn.of_stop_eq (Takes.bind_pure
    (callArguments_takes each free eachNamed shows levels) fun found sameArgs =>
      Takes.pure ⟨_, rfl, ?_⟩) ?_
  · rw [Agrees] at agrees ⊢
    rw [forgetOrigins, forgetOrigins, agrees, sameArgs.1, sameArgs.2]
  · simp only [List.length_cons, List.length_append, List.length_nil]
    omega

/-- A part of a slice is read up to a colon or the closing bracket. -/
theorem slicePart_takes {part : Option Expr} (readBack : ∀ expr ∈ part, ReadBack expr)
    (shows : stream.Shows start (optionalLexemes [] part))
    (ends : (stream.get (start + (optionalLexemes [] part).length)).kind = .colon ∨
      (stream.get (start + (optionalLexemes [] part).length)).kind = .rbracket) (levels : Nat) :
    Takes levels (optionalNesting part) stream (slicePart (deeper levels)) start
      (start + (optionalLexemes [] part).length) fun found =>
        forgetOptional found = forgetOptional part := by
  cases part with
  | none =>
      refine .current ?_
      rcases ends with isColon | isBracket
      · rw [show (stream.get start).kind = .colon from isColon]
        exact Takes.pure rfl
      · rw [show (stream.get start).kind = .rbracket from isBracket]
        exact Takes.pure rfl
  | some expr =>
      change stream.Shows start expr.lexemes at shows
      have takes : Takes levels (expr.nesting + 1) stream
          (do return some (← (deeper levels).conditional)) start (start + expr.lexemes.length)
          fun found => forgetOptional found = forgetOptional (some expr) := by
        refine Takes.bind_pure ((readBack expr rfl).takes_conditional shows ?_ levels)
          fun value agrees => Takes.pure (congrArg some agrees)
        rcases ends with ends | ends
        · exact congrArg Token.Kind.binds? ends
        · exact congrArg Token.Kind.binds? ends
      refine .current ?_
      split
      · next isColon => exact absurd isColon ((readBack expr rfl).kind_ne shows rfl)
      · next isBracket => exact absurd isBracket ((readBack expr rfl).kind_ne shows rfl)
      · exact takes

/-- A slice is read from its first colon on. -/
theorem sliceFrom_takes (origin : Origin) {first found stop step : Option Expr}
    (sameFirst : forgetOptional found = forgetOptional first)
    (second : ∀ expr ∈ stop, ReadBack expr) (third : ∀ expr ∈ step, ReadBack expr)
    (shows : stream.Shows start (.symbol ":" ::
      (optionalLexemes [] stop ++ optionalLexemes [.symbol ":"] step)))
    (ends : (stream.get (start + 1 + (optionalLexemes [] stop).length +
      (optionalLexemes [.symbol ":"] step).length)).kind = .rbracket) (line levels : Nat) :
    Takes levels (max (optionalNesting stop) (optionalNesting step)) stream
      (sliceFrom (deeper levels) line found) start
      (start + 1 + (optionalLexemes [] stop).length +
        (optionalLexemes [.symbol ":"] step).length) (slice origin first stop step).Agrees := by
  rw [TokenStream.shows_cons, TokenStream.shows_append] at shows
  obtain ⟨colon, showsStop, showsStep⟩ := shows
  refine .bind_of_ok (advance_eq_of_stands colon) ?_
  cases step with
  | none =>
      refine Takes.bind (slicePart_takes second showsStop (Or.inr ends) levels)
        fun stop' sameStop => ?_
      change (stream.get (start + 1 + (optionalLexemes [] stop).length)).kind = .rbracket at ends
      refine .bind_of_ok (skipIf_eq_of_ne (by rw [ends]; decide)) ?_
      dsimp only
      rw [if_neg Bool.false_ne_true]
      refine .bind_of_ok rfl (.originAt (Takes.pure ?_))
      rw [Agrees, forgetOrigins, forgetOrigins, sameFirst, sameStop]
  | some expr =>
      obtain ⟨isColon, showsExpr⟩ := showsStep
      refine Takes.bind (slicePart_takes second showsStop (Or.inl isColon.kind) levels)
        fun stop' sameStop => ?_
      refine .bind_of_ok (skipIf_eq_of_stands isColon rfl) ?_
      dsimp only
      rw [if_pos rfl]
      change GoesOn _ _ _ _ _ _ (_ + (_ :: expr.lexemes).length) _
      change (stream.get (_ + (_ :: expr.lexemes).length)).kind = _ at ends
      rw [length_cons_add] at ends ⊢
      refine Takes.bind_pure (slicePart_takes third showsExpr (Or.inr ends) levels)
        fun step' sameStep => .originAt (Takes.pure ?_)
      rw [Agrees, forgetOrigins, forgetOrigins, sameFirst, sameStop, sameStep]

/-- What stands between brackets is read back as a slice. -/
theorem subscript_takes_slice (origin : Origin) {first stop step : Option Expr}
    (readFirst : ∀ expr ∈ first, ReadBack expr) (second : ∀ expr ∈ stop, ReadBack expr)
    (third : ∀ expr ∈ step, ReadBack expr)
    (shows : stream.Shows start (slice origin first stop step).lexemes)
    (ends : (stream.get (start + (slice origin first stop step).lexemes.length)).kind = .rbracket)
    (levels : Nat) :
    Takes levels (slice origin first stop step).nesting stream (subscript (deeper levels)) start
      (start + (slice origin first stop step).lexemes.length)
      (slice origin first stop step).Agrees := by
  rw [lexemes, List.append_assoc, List.cons_append] at shows ends ⊢
  rw [List.length_append, ← Nat.add_assoc, length_cons_add, List.length_append,
    ← Nat.add_assoc] at ends ⊢
  obtain ⟨showsFirst, showsRest⟩ := TokenStream.shows_append.1 shows
  have isColon : (stream.get (start + (optionalLexemes [] first).length)).kind = .colon :=
    showsRest.1.kind
  rw [nesting]
  refine .current ?_
  cases first with
  | none =>
      change (stream.get start).kind = .colon at isColon
      rw [if_pos isColon]
      exact (sliceFrom_takes origin rfl second third showsRest ends _ levels).of_needed_eq
        (Nat.zero_max _).symm
  | some expr =>
      change stream.Shows start expr.lexemes at showsFirst
      change (stream.get (start + expr.lexemes.length)).kind = .colon at isColon
      rw [if_neg ((readFirst expr rfl).kind_ne showsFirst rfl)]
      refine Takes.bind ((readFirst expr rfl).takes_conditional showsFirst
        (congrArg Token.Kind.binds? isColon) levels) fun value agrees => .current ?_
      rw [if_pos isColon]
      have sameFirst : forgetOptional (some value) = forgetOptional (some expr) :=
        congrArg some agrees
      exact sliceFrom_takes origin sameFirst second third showsRest ends _ levels

theorem subscript_takes {index : Expr} (readBack : ReadBack index)
    (shows : stream.Shows start index.lexemes)
    (ends : (stream.get (start + index.lexemes.length)).kind = .rbracket) (levels : Nat) :
    Takes levels (index.nesting + 1) stream (subscript (deeper levels)) start
      (start + index.lexemes.length) index.Agrees := by
  refine .current ?_
  rw [if_neg (readBack.kind_ne shows rfl)]
  refine Takes.bind_pure (readBack.takes_conditional shows (congrArg Token.Kind.binds? ends) levels)
    fun value agrees => .current ?_
  rw [if_neg (by rw [ends]; decide)]
  exact Takes.pure agrees

/-- An item is read back if what stands between its brackets is. -/
theorem feeds_item (origin : Origin) {value index : Expr} {needed : Nat} (inner : ReadBack value)
    (sameNesting : (item origin value index).nesting =
      max (value.nesting + Level.suffix.enclosure value.level) needed)
    (takes : ∀ levels stream start, stream.Shows start index.lexemes →
      (stream.get (start + index.lexemes.length)).kind = .rbracket →
      Takes levels needed stream (subscript (deeper levels)) start
        (start + index.lexemes.length) index.Agrees) :
    Level.suffix.Feeds (item origin value index).lexemes (item origin value index).nesting
      (item origin value index).Agrees := by
  rw [lexemes, sameNesting, List.append_assoc, List.cons_append]
  refine inner.feeds_step rfl (by decide) rfl fun levels stream start value' shows _ agrees => ?_
  rw [TokenStream.shows_cons, TokenStream.shows_append] at shows
  obtain ⟨opens, showsIndex, closes, _⟩ := shows
  have isOpening : (stream.get start).kind = .lbracket := opens.kind
  refine .originAt (.current ?_)
  rw [isOpening]
  refine .bind_of_ok (advance_eq_of_stands opens) ?_
  refine GoesOn.of_stop_eq (Takes.bind_pure (takes levels stream _ showsIndex closes.kind)
    fun index' agreesIndex => .bind_of_ok (expect_eq_of_stands closes rfl _)
      (Takes.pure ⟨_, rfl, ?_⟩)) ?_
  · rw [Agrees] at agrees agreesIndex ⊢
    rw [forgetOrigins, forgetOrigins, agrees, agreesIndex]
  · simp only [List.length_cons, List.length_append, List.length_nil]
    omega

/-! ### Filters and tests -/

/-- A filter with its arguments in parentheses is read back. -/
theorem filterCall_takes {called : String} {args : List Expr} {kwargs : List (Named Expr)}
    (isName : isDottedName called = true) (each : ∀ arg ∈ args, ReadBack arg)
    (free : ∀ kwarg ∈ kwargs, isFreeName kwarg.name = true)
    (eachNamed : ∀ kwarg ∈ kwargs, ReadBack kwarg.value)
    (shows : stream.Shows start (dotted called ++ .symbol "(" ::
      (separated (itemLexemes args ++ namedLexemes kwargs) ++ [.symbol ")"]))) (levels : Nat) :
    Takes levels (max (itemNesting args) (namedNesting kwargs)) stream
      (filterCall (deeper levels)) start (start + (dotted called).length +
        (separated (itemLexemes args ++ namedLexemes kwargs)).length + 2) fun found =>
          found.name = called ∧ forgetItems found.args = forgetItems args ∧
            forgetNamed found.kwargs = forgetNamed kwargs := by
  obtain ⟨showsName, showsArgs⟩ := TokenStream.shows_append.1 shows
  have isParen : (stream.get (start + (dotted called).length)).kind = .lparen :=
    showsArgs.1.kind
  refine .bind_of_ok (dottedName_eq isName showsName (by rw [isParen]; decide)) (.current ?_)
  rw [if_pos isParen]
  exact Takes.bind_pure (callArguments_takes each free eachNamed showsArgs levels)
    fun found sameArgs => Takes.pure ⟨rfl, sameArgs⟩

theorem feeds_filter (origin : Origin) {value : Expr} {called : String} {args : List Expr}
    {kwargs : List (Named Expr)} (filtered : ReadBack value)
    (isName : isDottedName called = true) (each : ∀ arg ∈ args, ReadBack arg)
    (free : ∀ kwarg ∈ kwargs, isFreeName kwarg.name = true)
    (eachNamed : ∀ kwarg ∈ kwargs, ReadBack kwarg.value) :
    Level.filter.Feeds (filter origin value called args kwargs).lexemes
      (filter origin value called args kwargs).nesting
      (filter origin value called args kwargs).Agrees := by
  rw [lexemes, nesting, List.append_assoc, List.append_assoc, List.cons_append]
  refine filtered.feeds_step rfl (by decide) rfl fun levels stream start value' shows _ agrees => ?_
  rw [List.cons_append, TokenStream.shows_cons] at shows
  obtain ⟨pipe, showsCall⟩ := shows
  refine .bind_of_ok (skipIf_eq_of_stands pipe rfl) ?_
  rw [if_pos rfl]
  have callTaken := filterCall_takes isName each free eachNamed showsCall levels
  refine GoesOn.of_stop_eq (Takes.bind_pure callTaken fun found same => .originAt
    (Takes.pure ⟨_, rfl, ?_⟩)) ?_
  · rw [Agrees] at agrees ⊢
    rw [forgetOrigins, forgetOrigins, agrees, same.1, same.2.1, same.2.2]
  · simp only [List.length_cons, List.length_append, List.length_nil]
    omega

omit [Limits] in
/-- The first word of a test's name. -/
theorem exists_testName_eq {called : String} (isName : isTestName called = true) :
    ∃ lexeme rest, dotted called = lexeme :: rest ∧
      (isDottedName called = true ∧ lexeme.kind = .name ∨
        rest = [] ∧ lexeme = .word called ∧ called ∈ ["true", "false", "null", "in"]) := by
  simp only [isTestName, Bool.or_eq_true, decide_eq_true_eq] at isName
  rcases isName with isName | isWord
  · obtain ⟨first, parts, sameParts, sameDotted⟩ := exists_dotted_eq called
    refine ⟨_, _, sameDotted, Or.inl ⟨isName, ?_⟩⟩
    rw [isDottedName, List.all_eq_true, sameParts] at isName
    exact wordKind_of_isFreeName (isName first List.mem_cons_self)
  · refine ⟨.word called, [], ?_, Or.inr ⟨rfl, rfl, isWord⟩⟩
    simp only [List.mem_cons, List.not_mem_nil, or_false] at isWord
    rcases isWord with rfl | rfl | rfl | rfl <;> rfl

omit [Limits] in
theorem testName_eq {called : String} (isName : isTestName called = true)
    (shows : stream.Shows start (dotted called))
    (ends : (stream.get (start + (dotted called).length)).kind ≠ .dot) :
    testName stream start = .ok called (start + (dotted called).length) := by
  obtain ⟨lexeme, rest, sameDotted, ⟨isDotted, isKind⟩ | ⟨rfl, rfl, isWord⟩⟩ :=
    exists_testName_eq isName
  · have found := dottedName_eq isDotted shows ends
    rw [sameDotted] at shows
    rw [testName, current_bind, shows.1.kind, isKind]
    exact found
  · rw [sameDotted] at shows ⊢
    have advances := advance_eq_of_stands shows.1
    rw [testName, current_bind, shows.1.kind]
    simp only [List.mem_cons, List.not_mem_nil, or_false] at isWord
    rcases isWord with rfl | rfl | rfl | rfl <;>
      exact (bind_eq_of_ok advances).trans (by rw [shows.1.text]; rfl)

omit [Limits] in
/-- What follows `is` is taken for `not` only if the test is negated. -/
theorem skipNot_eq {called : String} (isName : isTestName called = true) {negated : Bool}
    (shows : stream.Shows start ((if negated then [.word "not"] else []) ++ dotted called)) :
    skipIf (.keyword .not_) stream start = .ok negated
      (start + (if negated then [Lexeme.word "not"] else []).length) := by
  cases negated with
  | true => exact skipIf_eq_of_stands shows.1 rfl
  | false =>
      obtain ⟨lexeme, rest, sameDotted, isFirst⟩ := exists_testName_eq isName
      refine skipIf_eq_of_ne fun isNot => ?_
      rw [sameDotted] at shows
      rw [shows.1.kind] at isNot
      rcases isFirst with ⟨_, isKind⟩ | ⟨_, rfl, isWord⟩
      · simp [isKind] at isNot
      · simp only [List.mem_cons, List.not_mem_nil, or_false] at isWord
        rcases isWord with rfl | rfl | rfl | rfl <;> exact absurd isNot (by decide)

theorem testArguments_takes {args : List Expr} {kwargs : List (Named Expr)}
    (each : ∀ arg ∈ args, ReadBack arg)
    (free : ∀ kwarg ∈ kwargs, isFreeName kwarg.name = true)
    (eachNamed : ∀ kwarg ∈ kwargs, ReadBack kwarg.value)
    (shows : stream.Shows start
      (.symbol "(" :: (separated (itemLexemes args ++ namedLexemes kwargs) ++ [.symbol ")"])))
    (levels : Nat) :
    Takes levels (max (itemNesting args) (namedNesting kwargs)) stream
      (testArguments (deeper levels)) start
      (start + (separated (itemLexemes args ++ namedLexemes kwargs)).length + 2) fun found =>
        forgetItems found.1 = forgetItems args ∧ forgetNamed found.2 = forgetNamed kwargs := by
  have isParen : (stream.get start).kind = .lparen := shows.1.kind
  refine .current ?_
  dsimp only
  rw [if_pos isParen]
  exact callArguments_takes each free eachNamed shows levels

theorem feeds_test (origin : Origin) {value : Expr} {called : String} {args : List Expr}
    {kwargs : List (Named Expr)} (negated : Bool) (tested : ReadBack value)
    (isName : isTestName called = true) (each : ∀ arg ∈ args, ReadBack arg)
    (free : ∀ kwarg ∈ kwargs, isFreeName kwarg.name = true)
    (eachNamed : ∀ kwarg ∈ kwargs, ReadBack kwarg.value) :
    Level.test.Feeds (test origin value called args kwargs negated).lexemes
      (test origin value called args kwargs negated).nesting
      (test origin value called args kwargs negated).Agrees := by
  rw [lexemes, nesting, List.append_assoc, List.append_assoc, List.append_assoc, List.cons_append]
  refine tested.feeds_step rfl (by decide) rfl fun levels stream start value' shows _ agrees => ?_
  rw [List.cons_append, TokenStream.shows_cons, ← List.append_assoc, TokenStream.shows_append]
    at shows
  obtain ⟨isTest, showsName, showsArgs⟩ := shows
  have skipsNot := skipNot_eq isName showsName
  obtain ⟨_, showsName⟩ := TokenStream.shows_append.1 showsName
  rw [List.length_append, ← Nat.add_assoc] at showsArgs
  have isParen : (stream.get (start + 1 +
      (if negated then [Lexeme.word "not"] else []).length + (dotted called).length)).kind =
        .lparen := showsArgs.1.kind
  refine .bind_of_ok (skipIf_eq_of_stands isTest rfl) ?_
  rw [if_pos rfl]
  refine .bind_of_ok skipsNot ?_
  refine .bind_of_ok (testName_eq isName showsName (by rw [isParen]; decide)) ?_
  refine GoesOn.of_stop_eq (Takes.bind_pure
    (testArguments_takes each free eachNamed showsArgs levels) fun found same => .originAt
      (Takes.pure ⟨_, rfl, ?_⟩)) ?_
  · rw [Agrees] at agrees ⊢
    rw [forgetOrigins, forgetOrigins, agrees, same.1, same.2]
  · simp only [List.length_cons, List.length_append, List.length_nil]
    omega

/-! ### All expressions -/

theorem accepts_list (origin : Origin) {items : List Expr} (each : ∀ item ∈ items, ReadBack item) :
    Level.primary.Accepts (list origin items).lexemes (list origin items).nesting
      (list origin items).Agrees := by
  intro levels stream start shows _
  rw [lexemes, List.cons_append] at shows ⊢
  have isOpening : (stream.get start).kind = .lbracket := shows.1.kind
  refine ((listLiteral_takes each shows levels).of_stop_eq ?_).of_rule_eq ?_
  · simp only [List.length_cons, List.length_append, List.length_nil]
    omega
  · change primary (deeper levels) stream start = _
    rw [primary, current_bind, isOpening]

/-- Every expression that has a written form is read back. -/
theorem Printable.readBack {expr : Expr} (printable : Printable expr) : ReadBack expr := by
  have starts := printable.starts
  induction printable with
  | name origin free => exact .of_accepts starts (accepts_name origin free) (Or.inl rfl)
  | string origin value => exact .of_accepts starts (accepts_string origin value) (Or.inl rfl)
  | integer origin notNegative fits =>
      exact .of_accepts starts (accepts_integer origin notNegative fits) (Or.inl rfl)
  | boolean origin value => exact .of_accepts starts (accepts_boolean origin value) (Or.inl rfl)
  | null origin => exact .of_accepts starts (accepts_null origin) (Or.inl rfl)
  | list origin each ih =>
      refine .of_accepts starts (accepts_list origin fun item member => ?_) (Or.inl rfl)
      exact ih item member (each item member).starts
  | binary origin op first second ihFirst ihSecond =>
      exact .of_feeds starts
        (feeds_binary origin op (ihFirst first.starts) (ihSecond second.starts))
        (isRepeated_level op).1
  | unary origin op inner ih =>
      by_cases isNot : op = .not_
      · subst isNot
        exact .of_accepts starts (accepts_not origin (ih inner.starts)) (Or.inl rfl)
      · refine .of_accepts starts (accepts_sign origin isNot (ih inner.starts)) (Or.inl ?_)
        cases op <;> rfl
  | conditional origin first second third ihFirst ihSecond ihThird =>
      refine .of_accepts starts (accepts_conditional origin (ihFirst first.starts)
        (ihSecond second.starts) fun expr member => ?_) (Or.inr rfl)
      exact ihThird expr member (third expr member).starts
  | call origin called each free eachNamed ihCalled ihEach ihNamed =>
      refine .of_feeds starts (feeds_call origin (ihCalled called.starts) ?_ free ?_) rfl
      · exact fun arg member => ihEach arg member (each arg member).starts
      · exact fun kwarg member => ihNamed kwarg member (eachNamed kwarg member).starts
  | filter origin filtered isName each free eachNamed ihFiltered ihEach ihNamed =>
      refine .of_feeds starts (feeds_filter origin (ihFiltered filtered.starts) isName ?_ free ?_)
        rfl
      · exact fun arg member => ihEach arg member (each arg member).starts
      · exact fun kwarg member => ihNamed kwarg member (eachNamed kwarg member).starts
  | test origin negated tested isName each free eachNamed ihTested ihEach ihNamed =>
      refine .of_feeds starts
        (feeds_test origin negated (ihTested tested.starts) isName ?_ free ?_) rfl
      · exact fun arg member => ihEach arg member (each arg member).starts
      · exact fun kwarg member => ihNamed kwarg member (eachNamed kwarg member).starts
  | attr origin inner isName ih =>
      exact .of_feeds starts (feeds_attr origin (ih inner.starts) isName) rfl
  | item origin inner second ih ihSecond =>
      refine .of_feeds starts (feeds_item origin (ih inner.starts)
        (nesting_item_of_printable origin second)
        fun levels stream start shows ends => ?_) rfl
      exact subscript_takes (ihSecond second.starts) shows ends levels
  | sliced origin origin' inner first second third ih ihFirst ihSecond ihThird =>
      refine .of_feeds starts (feeds_item origin (ih inner.starts) rfl
        fun levels stream start shows ends => ?_) rfl
      exact subscript_takes_slice origin'
        (fun expr member => ihFirst expr member (first expr member).starts)
        (fun expr member => ihSecond expr member (second expr member).starts)
        (fun expr member => ihThird expr member (third expr member).starts) shows ends levels

end Stencil.Expr

import Stencil.Proofs.Expr.Soundness
import Stencil.Proofs.Expr.Spelling
import Stencil.Proofs.Lexer.Words

/-!
# Well-formed expressions

What a reader of a tree may rely on in every expression, whether or not the template had errors: a
slice stands only between the brackets of an item, integers are not negative, and names are free.
An expression that is derived from proper tokens is well-formed, whatever they are.
-/

namespace Stencil

namespace Expr

/-- Expressions that a reader of a tree can rely on. -/
inductive WellFormed : Expr → Prop where
  | name (origin : Origin) {id : String} (free : isFreeName id = true) :
      WellFormed (name origin id)
  | string (origin : Origin) (value : String) : WellFormed (string origin value)
  | integer (origin : Origin) {value : Int} (notNegative : 0 ≤ value) :
      WellFormed (integer origin value)
  | float (origin : Origin) (value : Binary64) : WellFormed (float origin value)
  | boolean (origin : Origin) (value : Bool) : WellFormed (boolean origin value)
  | null (origin : Origin) : WellFormed (null origin)
  | list (origin : Origin) {items : List Expr} (each : ∀ item ∈ items, WellFormed item) :
      WellFormed (list origin items)
  | binary (origin : Origin) (op : BinaryOp) {left right : Expr} (first : WellFormed left)
      (second : WellFormed right) : WellFormed (binary origin op left right)
  | unary (origin : Origin) (op : UnaryOp) {operand : Expr} (inner : WellFormed operand) :
      WellFormed (unary origin op operand)
  | conditional (origin : Origin) {condition value : Expr} {otherwise : Option Expr}
      (first : WellFormed condition) (second : WellFormed value)
      (third : ∀ expr ∈ otherwise, WellFormed expr) :
      WellFormed (conditional origin condition value otherwise)
  | call (origin : Origin) {callee : Expr} {args : List Expr} {kwargs : List (Named Expr)}
      (called : WellFormed callee) (each : ∀ arg ∈ args, WellFormed arg)
      (free : ∀ kwarg ∈ kwargs, isFreeName kwarg.name = true)
      (eachNamed : ∀ kwarg ∈ kwargs, WellFormed kwarg.value) :
      WellFormed (call origin callee args kwargs)
  | filter (origin : Origin) {value : Expr} {name : String} {args : List Expr}
      {kwargs : List (Named Expr)} (filtered : WellFormed value)
      (isName : isDottedName name = true) (each : ∀ arg ∈ args, WellFormed arg)
      (free : ∀ kwarg ∈ kwargs, isFreeName kwarg.name = true)
      (eachNamed : ∀ kwarg ∈ kwargs, WellFormed kwarg.value) :
      WellFormed (filter origin value name args kwargs)
  | test (origin : Origin) {value : Expr} (name : String) {args : List Expr}
      {kwargs : List (Named Expr)} (negated : Bool) (tested : WellFormed value)
      (each : ∀ arg ∈ args, WellFormed arg)
      (free : ∀ kwarg ∈ kwargs, isFreeName kwarg.name = true)
      (eachNamed : ∀ kwarg ∈ kwargs, WellFormed kwarg.value) :
      WellFormed (test origin value name args kwargs negated)
  | attr (origin : Origin) {value : Expr} (name : String) (inner : WellFormed value) :
      WellFormed (attr origin value name)
  | item (origin : Origin) {value index : Expr} (inner : WellFormed value)
      (second : WellFormed index) : WellFormed (item origin value index)
  | sliced (origin origin' : Origin) {value : Expr} {start stop step : Option Expr}
      (inner : WellFormed value) (first : ∀ expr ∈ start, WellFormed expr)
      (second : ∀ expr ∈ stop, WellFormed expr) (third : ∀ expr ∈ step, WellFormed expr) :
      WellFormed (item origin value (slice origin' start stop step))

/-- Arguments that a reader of a tree can rely on. -/
structure ArgumentsWellFormed (args : List Expr) (kwargs : List (Named Expr)) : Prop where
  each : ∀ arg ∈ args, arg.WellFormed
  free : ∀ kwarg ∈ kwargs, isFreeName kwarg.name = true
  eachNamed : ∀ kwarg ∈ kwargs, kwarg.value.WellFormed

end Expr

/-- Every token of a list is proper. -/
def Token.AreProper (tokens : List Token) : Prop :=
  ∀ token ∈ tokens, token.IsProper

/-! ### Names and integers -/

theorem not_mem_point_of_isFreeName {part : List Char}
    (free : Expr.isFreeName (String.ofList part) = true) : '.' ∉ part := by
  intro isPart
  have isWord := Expr.isWord_of_isFreeName free
  rw [String.toList_ofList] at isWord
  have isChar := Lexer.isWordChar_of_isWord isWord '.' isPart
  revert isChar
  decide

/-- A name joined by points from proper tokens has free names for its parts. -/
theorem DottedName.isDottedName {word : List Token} {name : String} (dotted : DottedName word name)
    (proper : Token.AreProper word) : Expr.isDottedName name = true := by
  suffices joined : ∃ first parts, name.toList = first ++ parts.flatMap ('.' :: ·) ∧
      ∀ part ∈ first :: parts, Expr.isFreeName (String.ofList part) = true by
    rcases joined with ⟨first, parts, isJoined, free⟩
    rw [Expr.isDottedName, isJoined, ← intercalate_cons_eq_append, List.splitOn_intercalate '.'
      (fun part isPart => not_mem_point_of_isFreeName (free part isPart)) (by simp)]
    simpa using free
  induction dotted with
  | @single token isName =>
      have free := (proper token (by simp)).isName isName
      exact ⟨token.text.toList, [], by simp, by simpa using free⟩
  | @snoc word name dot part _ _ isName ih =>
      rcases ih fun token isToken => proper token (by simp [isToken]) with
        ⟨first, parts, isJoined, free⟩
      have last := (proper part (by simp)).isName isName
      refine ⟨first, parts ++ [part.text.toList], by simp [isJoined], ?_⟩
      intro other isPart
      rw [← List.cons_append] at isPart
      rcases List.mem_append.1 isPart with isPart | isPart
      · exact free other isPart
      · obtain rfl := List.mem_singleton.1 isPart
        simpa using last

/-- Digits do not spell a negative integer. -/
theorem Literal.readInteger_nonneg {digits : List Char} {value : Int}
    (areDigits : digits.all Char.isDigit = true) (hasValue : readInteger digits = .ok value) :
    0 ≤ value := by
  have nonempty : digits ≠ [] := by
    rintro rfl
    cases hasValue
  rw [readInteger_eq_of_digits nonempty (List.all_eq_true.1 areDigits)] at hasValue
  cases read : readDigits maxInteger .tooLarge 0 digits with
  | ok number =>
      rw [read] at hasValue
      cases hasValue
      exact Int.natCast_nonneg number
  | error fault =>
      rw [read] at hasValue
      cases hasValue

namespace Expr

variable {sourceName : Option String}

theorem SpellsLiteral.wellFormed {word : List Token} {expr : Expr}
    (spells : SpellsLiteral sourceName word expr) (proper : Token.AreProper word) :
    expr.WellFormed := by
  cases spells with
  | string => exact .string _ _
  | @integer token value isInteger hasValue =>
      exact .integer _ (Literal.readInteger_nonneg
        ((proper token (by simp)).isInteger isInteger) hasValue)
  | float => exact .float _ _
  | boolean => exact .boolean _ _
  | null => exact .null _

theorem mem_of_commaSeparated {pieces : List (List Token)} {word piece : List Token} {token : Token}
    (separated : CommaSeparated pieces word) (isPiece : piece ∈ pieces) (isToken : token ∈ piece) :
    token ∈ word := by
  induction separated with
  | nil => cases isPiece
  | single =>
      obtain rfl := List.mem_singleton.1 isPiece
      exact isToken
  | snoc _ _ _ _ ih =>
      rcases List.mem_append.1 isPiece with isPiece | isPiece
      · exact List.mem_append_left _ (ih isPiece)
      · obtain rfl := List.mem_singleton.1 isPiece
        exact List.mem_append_right _ (List.mem_cons_of_mem _ isToken)

theorem areProper_of_commaList {pieces : List (List Token)} {body : List Token}
    (separated : CommaList pieces body) (proper : Token.AreProper body) :
    ∀ piece ∈ pieces, Token.AreProper piece := by
  intro piece isPiece token isToken
  cases separated with
  | plain separated => exact proper token (mem_of_commaSeparated separated isPiece isToken)
  | trailing separated =>
      exact proper token (List.mem_append_left _ (mem_of_commaSeparated separated isPiece isToken))

theorem ArgumentsWellFormed.nil : ArgumentsWellFormed [] [] :=
  ⟨by simp, by simp, by simp⟩

/-- An expression that is derived from proper tokens is well-formed. The induction goes over the
whole grammar, with a statement of its own for each kind of part. -/
theorem Derives.wellFormed {level : Level} {word : List Token} {expr : Expr}
    (derives : Derives sourceName level word expr) :
    Token.AreProper word → expr.WellFormed := by
  refine @Derives.rec sourceName
    (fun _ word expr _ => Token.AreProper word → expr.WellFormed)
    (fun word named _ => Token.AreProper word →
      isFreeName named.name = true ∧ named.value.WellFormed)
    (fun word args kwargs _ => Token.AreProper word → ArgumentsWellFormed args kwargs)
    (fun word args kwargs _ => Token.AreProper word → ArgumentsWellFormed args kwargs)
    (fun word args kwargs _ => Token.AreProper word → ArgumentsWellFormed args kwargs)
    (fun word optional _ => Token.AreProper word → ∀ expr ∈ optional, expr.WellFormed)
    (fun word optional _ => Token.AreProper word → ∀ expr ∈ optional, expr.WellFormed)
    (fun word index _ => Token.AreProper word → ∀ {origin : Origin} {value : Expr},
      value.WellFormed → (Expr.item origin value index).WellFormed)
    (fun pieces items _ => (∀ piece ∈ pieces, Token.AreProper piece) →
      ∀ item ∈ items, item.WellFormed)
    (fun pieces kwargs _ => (∀ piece ∈ pieces, Token.AreProper piece) →
      ∀ kwarg ∈ kwargs, isFreeName kwarg.name = true ∧ kwarg.value.WellFormed)
    ?loosen ?onlyIf ?ifElse ?binary ?not_ ?test ?filter ?sign ?attr ?place ?item ?call ?name
    ?literal ?list ?parenthesized ?named ?arguments ?noneGiven ?someGiven ?given ?bare
    ?noneOptional ?someOptional ?noneStep ?someStep ?index ?slice ?noItem ?items ?noNamed ?allNamed
    level word expr derives
  case loosen => exact fun _ ih => ih
  case onlyIf =>
    intro if_ first second value condition _ _ _ ihValue ihCondition proper
    simp only [Token.AreProper, List.forall_mem_append, List.forall_mem_cons] at proper
    exact .conditional _ (ihCondition proper.2.2) (ihValue proper.1) (by simp)
  case ifElse =>
    intro if_ else_ first second third value condition otherwise _ _ _ _ _ ihValue ihCondition
      ihOtherwise proper
    simp only [Token.AreProper, List.forall_mem_append, List.forall_mem_cons] at proper
    refine .conditional _ (ihCondition proper.1.2.2) (ihValue proper.1.1) ?_
    simpa using ihOtherwise proper.2.2
  case binary =>
    intro op first operator second left right _ _ _ ihLeft ihRight proper
    simp only [Token.AreProper, List.forall_mem_append] at proper
    exact .binary _ _ (ihLeft proper.1.1) (ihRight proper.2)
  case not_ =>
    intro token word operand _ _ ih proper
    simp only [Token.AreProper, List.forall_mem_cons] at proper
    exact .unary _ _ (ih proper.2)
  case sign =>
    intro token op word operand _ _ ih proper
    simp only [Token.AreProper, List.forall_mem_cons] at proper
    exact .unary _ _ (ih proper.2)
  case test =>
    intro is_ first negation called arguments value name args kwargs negated _ _ _ _ _ ihValue
      ihGiven proper
    simp only [Token.AreProper, List.forall_mem_append, List.forall_mem_cons] at proper
    have given := ihGiven proper.2
    exact .test _ _ _ (ihValue proper.1.1.1) given.each given.free given.eachNamed
  case filter =>
    intro pipe first called arguments value name args kwargs _ _ isName _ ihValue ihGiven proper
    simp only [Token.AreProper, List.forall_mem_append, List.forall_mem_cons] at proper
    have given := ihGiven proper.2
    exact .filter _ (ihValue proper.1.1) (isName.isDottedName proper.1.2.2) given.each given.free
      given.eachNamed
  case attr =>
    intro dot member word value name _ _ _ ih proper
    simp only [Token.AreProper, List.forall_mem_append] at proper
    exact .attr _ _ (ih proper.1)
  case place =>
    intro dot number word value index _ _ _ hasValue ih proper
    simp only [Token.AreProper, List.forall_mem_append] at proper
    exact .item _ (ih proper.1) (hasValue.wellFormed fun token isToken =>
      proper.2 token (List.mem_cons_of_mem _ isToken))
  case item =>
    intro opening closing word inside value index _ _ _ _ ihValue ihIndex proper
    simp only [Token.AreProper, List.forall_mem_append, List.forall_mem_cons] at proper
    exact ihIndex proper.1.2.2 (ihValue proper.1.1)
  case call =>
    intro word arguments callee args kwargs _ _ ihCallee ihGiven proper
    simp only [Token.AreProper, List.forall_mem_append] at proper
    have given := ihGiven proper.2
    exact .call _ (ihCallee proper.1) given.each given.free given.eachNamed
  case name => exact fun isName proper => .name _ ((proper _ (by simp)).isName isName)
  case literal => exact fun isLiteral proper => isLiteral.wellFormed proper
  case list =>
    intro opening closing pieces body items _ _ _ separated ih proper
    simp only [Token.AreProper, List.forall_mem_append, List.forall_mem_cons] at proper
    exact .list _ (ih (areProper_of_commaList separated proper.1.2))
  case parenthesized =>
    intro opening closing word expr _ _ _ ih proper
    simp only [Token.AreProper, List.forall_mem_append, List.forall_mem_cons] at proper
    exact ih proper.1.2
  case named =>
    intro key assign word value isName _ _ ih proper
    simp only [Token.AreProper, List.forall_mem_cons] at proper
    exact ⟨proper.1.isName isName, ih proper.2.2⟩
  case arguments =>
    intro opening closing pieces named body args kwargs _ _ _ _ separated ih ihNamed proper
    simp only [Token.AreProper, List.forall_mem_append, List.forall_mem_cons] at proper
    have each := areProper_of_commaList separated proper.1.2
    simp only [List.forall_mem_append] at each
    have wellNamed := ihNamed each.2
    exact ⟨ih each.1, fun kwarg isKwarg => (wellNamed kwarg isKwarg).1,
      fun kwarg isKwarg => (wellNamed kwarg isKwarg).2⟩
  case noneGiven => exact fun _ => .nil
  case someGiven | given => exact fun _ ih => ih
  case bare => exact fun _ _ ih proper => ⟨by simpa using ih proper, by simp, by simp⟩
  case noneOptional | noneStep => simp
  case someOptional => exact fun _ ih proper => by simpa using ih proper
  case someStep =>
    intro colon word step _ _ ih proper
    simp only [Token.AreProper, List.forall_mem_cons] at proper
    exact ih proper.2
  case index => exact fun _ ih proper _ _ wellFormed => .item _ wellFormed (ih proper)
  case slice =>
    intro token colon first second third start stop step _ _ _ _ _ ihStart ihStop ihStep proper
      origin value wellFormed
    simp only [Token.AreProper, List.forall_mem_append, List.forall_mem_cons] at proper
    exact .sliced _ _ wellFormed (ihStart proper.1.1) (ihStop proper.1.2.2) (ihStep proper.2)
  case noItem | noNamed => simp
  case items | allNamed =>
    intro piece item pieces items _ _ ih ihRest proper
    simp only [List.forall_mem_cons] at proper ⊢
    exact ⟨ih proper.1, ihRest proper.2⟩

/-- Arguments are the same whatever is called with them. -/
theorem DerivesGiven.wellFormed {word : List Token} {args : List Expr} {kwargs : List (Named Expr)}
    (given : DerivesGiven sourceName word args kwargs) (proper : Token.AreProper word) :
    ArgumentsWellFormed args kwargs := by
  cases given with
  | none => exact .nil
  | some inner =>
      let callee : Token := ⟨.null, "null", .start, Option.none⟩
      have value : Derives sourceName .suffix [callee] (.null ⟨callee.line, sourceName⟩) :=
        .loosen (.literal (.null rfl))
      have isProper : callee.IsProper := Lexer.isProper_of_ne (by decide) (by decide)
      have called := (Derives.call value inner).wellFormed fun token isToken => by
        rcases List.mem_cons.1 isToken with rfl | isToken
        · exact isProper
        · exact proper token isToken
      cases called with
      | call _ _ each free eachNamed => exact ⟨each, free, eachNamed⟩

/-! ### Rules -/

section

variable {stream : TokenStream} {levels start stop : Nat} (closed : stream.IsClosed)
  (proper : Token.AreProper stream.significant.toList)

include proper

omit closed in
theorem areProper_between : Token.AreProper (stream.between start stop) :=
  fun token isToken => proper token (List.mem_of_mem_drop (List.mem_of_mem_take isToken))

include closed

variable [Limits]

theorem parse_wellFormed {expr : Expr} (parsed : parse levels stream start = .ok expr stop) :
    expr.WellFormed :=
  ((deeper_sound closed levels).conditional start expr stop parsed).2.wellFormed
    (areProper_between proper)

theorem parseUnconditional_wellFormed {expr : Expr}
    (parsed : parseUnconditional levels stream start = .ok expr stop) : expr.WellFormed := by
  cases levels with
  | zero => cases parsed
  | succ levels =>
      have accounts := disjunction_accounts closed (deeper_inside closed levels)
        (deeper_sound closed levels) expr stop parsed
      exact accounts.2.wellFormed (areProper_between proper)

theorem filterCall_wellFormed {applied : FilterCall}
    (parsed : filterCall (deeper levels) stream start = .ok applied stop) :
    isDottedName applied.name = true ∧ ArgumentsWellFormed applied.args applied.kwargs := by
  have between : Token.AreProper (stream.between start stop) := areProper_between proper
  rcases filterCall_accounts closed (deeper_inside closed levels) (deeper_sound closed levels)
    applied stop parsed with ⟨_, called, arguments, isWord, isName, given⟩
  rw [isWord] at between
  simp only [Token.AreProper, List.forall_mem_append] at between
  exact ⟨isName.isDottedName between.1, given.wellFormed between.2⟩

end

end Expr

end Stencil

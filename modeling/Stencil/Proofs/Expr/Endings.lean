import Stencil.Proofs.Expr.Soundness
import Stencil.Proofs.Lexer.Spelling

/-!
# How expressions end

What comes after an expression may depend on its last tokens. A test without arguments is open to
an argument after it, and a point asks for a name after it. The first can end an expression and the
second cannot.
-/

namespace Stencil.Expr

/-! ### Tests without arguments -/

/-- Names with points between them. -/
def isDottedWord : List Lexeme → Bool
  | [] => false
  | [part] => part.kind = .name
  | part :: point :: rest => part.kind = .name && point.kind = .dot && isDottedWord rest

/-- The name of a test. -/
def isTestWord (word : List Lexeme) : Bool :=
  isDottedWord word || match word with
    | [single] => single.kind ∈ [.boolean, .null, .keyword .in_]
    | _ => false

/-- A test without arguments, from `is` on. -/
def isBareTest : List Lexeme → Bool
  | is_ :: not_ :: word => is_.kind = .keyword .is_ &&
      (isTestWord (not_ :: word) || not_.kind = .keyword .not_ && isTestWord word)
  | _ => false

/-- Whether a word ends with a test without arguments. -/
def endsInTest (word : List Lexeme) : Bool :=
  word.tails.any isBareTest

theorem isDottedWord_of_dottedName {word : List Token} {name : String}
    (isName : DottedName word name) : isDottedWord (word.map Token.lexeme) = true := by
  induction isName with
  | single isName => simp [isDottedWord, Token.lexeme, isName]
  | @snoc word _ dot part _ isDot isName ih =>
      rw [List.map_append]
      generalize word.map Token.lexeme = lexemes at ih
      fun_induction isDottedWord lexemes with
      | case1 => cases ih
      | case2 first => simp_all [isDottedWord, Token.lexeme]
      | case3 first point rest further => simp_all [isDottedWord]

theorem isTestWord_of_spellsTest {word : List Token} {name : String}
    (isName : SpellsTest word name) : isTestWord (word.map Token.lexeme) = true := by
  cases isName with
  | literal isLiteral =>
      rcases isLiteral with isKind | isKind <;> simp [isTestWord, Token.lexeme, isKind]
  | in_ isIn => simp [isTestWord, Token.lexeme, isIn]
  | dotted isName => simp [isTestWord, isDottedWord_of_dottedName isName]

theorem isBareTest_cons {is_ : Lexeme} {word : List Lexeme} (isIs : is_.kind = .keyword .is_)
    (isWord : isTestWord word = true) : isBareTest (is_ :: word) = true := by
  cases word with
  | nil => cases isWord
  | cons lexeme word => simp [isBareTest, isIs, isWord]

theorem isBareTest_not {is_ not_ : Lexeme} {word : List Lexeme} (isIs : is_.kind = .keyword .is_)
    (isNot : not_.kind = .keyword .not_) (isWord : isTestWord word = true) :
    isBareTest (is_ :: not_ :: word) = true := by
  simp [isBareTest, isIs, isNot, isWord]

/-! ### What decides how a word ends -/

theorem endsInTest_cons (lexeme : Lexeme) (word : List Lexeme) :
    endsInTest (lexeme :: word) = (isBareTest (lexeme :: word) || endsInTest word) := by
  simp [endsInTest]

theorem isBareTest_eq_false {lexeme : Lexeme} (notIs : lexeme.kind ≠ .keyword .is_)
    (word : List Lexeme) : isBareTest (lexeme :: word) = false := by
  cases word <;> simp [isBareTest, notIs]

theorem endsInTest_cons_of_ne {lexeme : Lexeme} (notIs : lexeme.kind ≠ .keyword .is_)
    (word : List Lexeme) : endsInTest (lexeme :: word) = endsInTest word := by
  rw [endsInTest_cons, isBareTest_eq_false notIs, Bool.false_or]

theorem endsInTest_append_of_forall_ne {first : List Lexeme}
    (noIs : ∀ lexeme ∈ first, lexeme.kind ≠ .keyword .is_) (second : List Lexeme) :
    endsInTest (first ++ second) = endsInTest second := by
  induction first with
  | nil => rfl
  | cons lexeme first ih =>
      rw [List.forall_mem_cons] at noIs
      rw [List.cons_append, endsInTest_cons_of_ne noIs.1, ih noIs.2]

theorem kind_of_isDottedWord {word : List Lexeme} (isDotted : isDottedWord word = true) :
    ∀ lexeme ∈ word, lexeme.kind ∈ [.name, .dot] := by
  fun_induction isDottedWord word with
  | case1 => simp
  | case2 part => simp_all
  | case3 part point rest ih => simp_all

/-- A token that no name with points has is all of the name of a test. -/
theorem eq_of_isTestWord {word : List Lexeme} {lexeme : Lexeme} (isTest : isTestWord word = true)
    (isPart : lexeme ∈ word) (foreign : lexeme.kind ∉ [.name, .dot]) :
    word = [lexeme] ∧ lexeme.kind ∈ [.boolean, .null, .keyword .in_] := by
  have notDotted : isDottedWord word ≠ true := fun isDotted =>
    foreign (kind_of_isDottedWord isDotted lexeme isPart)
  match word with
  | [] => cases isPart
  | [single] =>
      rw [List.mem_singleton] at isPart
      subst isPart
      simpa [isTestWord, notDotted] using isTest
  | _ :: _ :: _ => simp [isTestWord, notDotted] at isTest

/-- A token that the name of a test cannot have before the tokens after it cuts a word off. -/
theorem endsInTest_append_cons {lexeme : Lexeme} {after : List Lexeme}
    (notNot : lexeme.kind ≠ .keyword .not_)
    (cuts : ∀ front, isTestWord (front ++ lexeme :: after) = false) (before : List Lexeme) :
    endsInTest (before ++ lexeme :: after) = endsInTest (lexeme :: after) := by
  induction before with
  | nil => rfl
  | cons first before ih =>
      have notBare : isBareTest (first :: (before ++ lexeme :: after)) = false := by
        cases before with
        | nil =>
            have cutsHere := cuts []
            rw [List.nil_append] at cutsHere
            simp [isBareTest, cutsHere, notNot]
        | cons second before =>
            have cutsSecond := cuts (second :: before)
            rw [List.cons_append] at cutsSecond
            simp [isBareTest, cutsSecond, cuts before]
      rw [List.cons_append, endsInTest_cons, notBare, Bool.false_or, ih]

/-- An operand after an operator decides how the whole ends. -/
theorem endsInTest_append_operator {operator : Lexeme} {operand : List Lexeme}
    (isOperator : operator.kind ∉ [.name, .dot, .keyword .not_]) (nonempty : operand ≠ [])
    (before : List Lexeme) :
    endsInTest (before ++ operator :: operand) = endsInTest (operator :: operand) := by
  simp only [List.mem_cons, List.not_mem_nil, or_false, not_or] at isOperator
  apply endsInTest_append_cons isOperator.2.2
  intro front
  by_contra isTest
  have single := (eq_of_isTestWord (Bool.eq_true_of_not_eq_false isTest)
    (List.mem_append_right front List.mem_cons_self) (by simp [isOperator])).1
  have sameLength := congrArg List.length single
  have someLength := List.length_pos_iff.2 nonempty
  simp only [List.length_append, List.length_cons, List.length_nil] at sameLength
  omega

/-- Nothing that ends with a token which no name of a test has, such as a closing bracket, ends in a
test without arguments. -/
theorem endsInTest_append_closing {closing : Lexeme}
    (closes : closing.kind ∉ [.name, .dot, .boolean, .null, .keyword .in_, .keyword .not_])
    (before : List Lexeme) : endsInTest (before ++ [closing]) = false := by
  simp only [List.mem_cons, List.not_mem_nil, or_false, not_or] at closes
  rw [endsInTest_append_cons closes.2.2.2.2.2]
  · rfl
  · intro front
    by_contra isTest
    have isKind := (eq_of_isTestWord (Bool.eq_true_of_not_eq_false isTest)
      (List.mem_append_right front List.mem_cons_self) (by simp [closes])).2
    simp [closes] at isKind

theorem isDottedWord_of_append {word : List Lexeme} {dot member : Lexeme}
    (isDot : dot.kind = .dot) (isDotted : isDottedWord (word ++ [dot, member]) = true) :
    isDottedWord word = true := by
  fun_induction isDottedWord word with
  | case1 => simp [isDottedWord, isDot] at isDotted
  | case2 part => simp_all [isDottedWord]
  | case3 part point rest ih => simp_all [isDottedWord]

theorem isTestWord_of_append {word : List Lexeme} {dot member : Lexeme}
    (isDot : dot.kind = .dot) (isTest : isTestWord (word ++ [dot, member]) = true) :
    isTestWord word = true := by
  have isDotted : isDottedWord (word ++ [dot, member]) = true := by
    match word with
    | [] => simpa [isTestWord] using isTest
    | [_] => simpa [isTestWord] using isTest
    | _ :: _ :: _ => simpa [isTestWord] using isTest
  simp [isTestWord, isDottedWord_of_append isDot isDotted]

theorem isBareTest_of_append {word : List Lexeme} {dot member : Lexeme} (isDot : dot.kind = .dot)
    (isBare : isBareTest (word ++ [dot, member]) = true) : isBareTest word = true := by
  match word with
  | [] => simp [isBareTest, isDot] at isBare
  | [_] => simp [isBareTest, isTestWord, isDottedWord, isDot] at isBare
  | is_ :: second :: rest =>
      simp only [List.cons_append, isBareTest, Bool.and_eq_true, Bool.or_eq_true] at isBare ⊢
      refine ⟨isBare.1, isBare.2.imp (isTestWord_of_append isDot) ?_⟩
      rintro ⟨isNot, isTest⟩
      exact ⟨isNot, isTestWord_of_append isDot isTest⟩

/-- An attribute of a value does not end in a test if the value does not. -/
theorem endsInTest_append_attr {word : List Lexeme} {dot member : Lexeme}
    (isDot : dot.kind = .dot) (noTest : endsInTest word = false) :
    endsInTest (word ++ [dot, member]) = false := by
  induction word with
  | nil =>
      rw [List.nil_append, endsInTest_cons_of_ne (by simp [isDot])]
      rfl
  | cons first word ih =>
      rw [endsInTest_cons, Bool.or_eq_false_iff] at noTest
      have notBare : isBareTest (first :: word ++ [dot, member]) = false := by
        by_contra isBare
        have isBare' := isBareTest_of_append isDot (Bool.eq_true_of_not_eq_false isBare)
        rw [noTest.1] at isBare'
        cases isBare'
      rw [List.cons_append] at notBare ⊢
      rw [endsInTest_cons, notBare, ih noTest.2, Bool.or_false]

/-! ### The last token -/

/-- The last token of a word is no point. -/
def EndsWithoutPoint (word : List Token) : Prop :=
  ∃ before last, word = before ++ [last] ∧ last.kind ≠ .dot

namespace EndsWithoutPoint

variable {first second word : List Token} {token : Token}

theorem single (notPoint : token.kind ≠ .dot) : EndsWithoutPoint [token] :=
  ⟨[], token, rfl, notPoint⟩

theorem ne_nil (ends : EndsWithoutPoint word) : word ≠ [] := by
  rcases ends with ⟨before, last, rfl, _⟩
  simp

theorem append (ends : EndsWithoutPoint second) (first : List Token) :
    EndsWithoutPoint (first ++ second) := by
  rcases ends with ⟨before, last, rfl, notPoint⟩
  exact ⟨first ++ before, last, (List.append_assoc first before [last]).symm, notPoint⟩

theorem cons (ends : EndsWithoutPoint word) (token : Token) : EndsWithoutPoint (token :: word) :=
  ends.append [token]

theorem append_or (ends : EndsWithoutPoint first)
    (further : second = [] ∨ EndsWithoutPoint second) : EndsWithoutPoint (first ++ second) := by
  rcases further with rfl | further
  · rwa [List.append_nil]
  · exact further.append first

theorem of_dottedName {name : String} (isName : DottedName word name) : EndsWithoutPoint word := by
  cases isName with
  | single isName => exact .single (by simp [isName])
  | snoc before isDot isName => exact ((single (by simp [isName])).cons _).append _

theorem of_spellsTest {name : String} (isName : SpellsTest word name) : EndsWithoutPoint word := by
  cases isName with
  | literal isLiteral => exact .single (by rcases isLiteral with isKind | isKind <;> simp [isKind])
  | in_ isIn => exact .single (by simp [isIn])
  | dotted isName => exact .of_dottedName isName

theorem of_joinsStrings {value : String} (joins : JoinsStrings (token :: word) value) :
    EndsWithoutPoint (token :: word) := by
  generalize nonempty : token :: word = tokens at joins ⊢
  cases joins with
  | nil => cases nonempty
  | snoc before isString => exact (single (by simp [isString])).append _

theorem of_spellsLiteral {sourceName : Option String} {expr : Expr}
    (spells : SpellsLiteral sourceName word expr) : EndsWithoutPoint word := by
  cases spells with
  | string joins => exact .of_joinsStrings joins
  | integer isKind | float isKind | boolean isKind | null isKind =>
      exact .single (by simp [isKind])

theorem of_arguments {sourceName : Option String} {args : List Expr} {kwargs : List (Named Expr)}
    (given : DerivesArguments sourceName word args kwargs) : EndsWithoutPoint word := by
  cases given with
  | parenthesized opens closes => exact (single (by simp [closes])).append _

theorem of_given {sourceName : Option String} {args : List Expr} {kwargs : List (Named Expr)}
    (given : DerivesGiven sourceName word args kwargs) : word = [] ∨ EndsWithoutPoint word := by
  cases given with
  | none => exact Or.inl rfl
  | some inner => exact Or.inr (.of_arguments inner)

end EndsWithoutPoint

/-- The last token of an expression is no point. The induction goes over the whole grammar, but only
the arguments of tests matter beside the expressions themselves. -/
theorem Derives.endsWithoutPoint {sourceName : Option String} {level : Level} {word : List Token}
    {expr : Expr} (derives : Derives sourceName level word expr) : EndsWithoutPoint word := by
  refine @Derives.rec sourceName
    (fun _ word _ _ => EndsWithoutPoint word) (fun _ _ _ => True) (fun _ _ _ _ => True)
    (fun _ _ _ _ => True) (fun word _ _ _ => word = [] ∨ EndsWithoutPoint word)
    (fun _ _ _ => True) (fun _ _ _ => True) (fun _ _ _ => True) (fun _ _ _ => True)
    (fun _ _ _ => True)
    ?loosen ?onlyIf ?ifElse ?binary ?not_ ?test ?filter ?sign ?attr ?place ?item ?call ?name
    ?literal ?list ?parenthesized ?named ?arguments ?noneGiven ?someGiven ?given ?bare
    ?noneOptional ?someOptional ?noneStep ?someStep ?index ?slice ?noItem ?items ?noNamed ?allNamed
    level word expr derives
  case loosen => exact fun _ ih => ih
  case onlyIf => exact fun _ _ _ _ ih => (ih.cons _).append _
  case ifElse => exact fun _ _ _ _ _ _ _ ih => (ih.cons _).append _
  case binary => exact fun _ _ _ _ ih => ih.append _
  case not_ | sign => exact fun _ _ ih => ih.cons _
  case test =>
    exact fun _ _ _ isName _ _ ih => ((EndsWithoutPoint.of_spellsTest isName).append _).append_or ih
  case filter =>
    intro pipe first called arguments value name args kwargs _ _ isName given _ _
    exact (((EndsWithoutPoint.of_dottedName isName).cons pipe).append first).append_or
      (EndsWithoutPoint.of_given given)
  case attr =>
    intro dot member word value name _ _ isWord _
    have notPoint : member.kind ≠ .dot := fun isDot => by simp [Token.word?, isDot] at isWord
    exact ((EndsWithoutPoint.single notPoint).cons dot).append word
  case place =>
    intro dot number word value index _ _ isInteger _ _
    exact ((EndsWithoutPoint.single (by simp [isInteger])).cons dot).append word
  case item => exact fun _ _ closes _ _ _ => (EndsWithoutPoint.single (by simp [closes])).append _
  case call => exact fun _ given _ _ => (EndsWithoutPoint.of_arguments given).append _
  case name => exact fun isName => .single (by simp [isName])
  case literal => exact fun isLiteral => .of_spellsLiteral isLiteral
  case list => exact fun _ closes _ _ _ => (EndsWithoutPoint.single (by simp [closes])).append _
  case parenthesized =>
    exact fun _ closes _ _ => (EndsWithoutPoint.single (by simp [closes])).append _
  case given => exact fun given _ => EndsWithoutPoint.of_given given
  case bare => exact fun _ _ ih => Or.inr ih
  all_goals simp

/-! ### Levels without tests -/

theorem Derives.ne_nil {sourceName : Option String} {level : Level} {word : List Token}
    {expr : Expr} (derives : Derives sourceName level word expr) : word ≠ [] :=
  derives.endsWithoutPoint.ne_nil

/-- The name of a test does not begin a test. -/
theorem kind_ne_is_of_spellsTest {word : List Token} {name : String}
    (isName : SpellsTest word name) :
    ∀ lexeme ∈ word.map Token.lexeme, lexeme.kind ≠ .keyword .is_ := by
  intro lexeme isPart isIs
  have isKind := (eq_of_isTestWord (isTestWord_of_spellsTest isName) isPart (by simp [isIs])).2
  simp [isIs] at isKind

theorem endsInTest_of_arguments {sourceName : Option String} {word : List Token}
    {args : List Expr} {kwargs : List (Named Expr)}
    (given : DerivesArguments sourceName word args kwargs) (before : List Lexeme) :
    endsInTest (before ++ word.map Token.lexeme) = false := by
  cases given with
  | @parenthesized opening closing _ _ body _ _ opens closes =>
      rw [List.map_append, ← List.append_assoc]
      exact endsInTest_append_closing (by simp [Token.lexeme, closes]) _

theorem endsInTest_of_spellsLiteral {sourceName : Option String} {word : List Token} {expr : Expr}
    (spells : SpellsLiteral sourceName word expr) : endsInTest (word.map Token.lexeme) = false := by
  cases spells with
  | @string token word _ joins =>
      generalize token :: word = tokens at joins
      cases joins with
      | nil => rfl
      | snoc before isString =>
          rw [List.map_append]
          exact endsInTest_append_closing (by simp [Token.lexeme, isString]) _
  | integer | float | boolean | null => rfl

/-- The last token of an operator cannot come right before the name of a test, nor within it. -/
theorem SpellsOperator.exists_eq {operator : List Token} {op : BinaryOp}
    (spells : SpellsOperator operator op) : ∃ front last, operator = front ++ [last] ∧
      last.kind ∉ [.name, .dot, .keyword .not_] ∧ last.kind ≠ .keyword .is_ := by
  cases spells with
  | @single token _ spells =>
      have noOther {kind : Token.Kind} (noOp : BinaryOp.ofKind? kind = none) :
          token.kind ≠ kind := by
        rintro rfl
        rw [noOp] at spells
        cases spells
      have notName := @noOther .name rfl
      have notDot := @noOther .dot rfl
      have notNot := @noOther (.keyword .not_) rfl
      exact ⟨[], token, rfl, by simp [notName, notDot, notNot], noOther rfl⟩
  | @notIn first second _ isIn => exact ⟨[first], second, rfl, by simp [isIn], by simp [isIn]⟩

/-- An operand decides how an operation ends. -/
theorem endsInTest_append_operand {operator operand : List Token} {op : BinaryOp}
    (spells : SpellsOperator operator op) (nonempty : operand ≠ []) (before : List Lexeme) :
    endsInTest (before ++ (operator ++ operand).map Token.lexeme) =
      endsInTest (operand.map Token.lexeme) := by
  rcases spells.exists_eq with ⟨front, last, rfl, isOperator, notIs⟩
  rw [List.append_assoc, List.map_append, ← List.append_assoc, List.singleton_append, List.map_cons,
    endsInTest_append_operator isOperator (by simpa using nonempty), endsInTest_cons_of_ne notIs]

/-- No expression of a level tighter than that of tests ends in a test. -/
theorem Derives.endsInTest {sourceName : Option String} {level : Level} {word : List Token}
    {expr : Expr} (derives : Derives sourceName level word expr)
    (tight : Level.test.rank < level.rank) : Expr.endsInTest (word.map Token.lexeme) = false := by
  revert tight
  refine @Derives.rec sourceName
    (fun level word _ _ => Level.test.rank < level.rank →
      Expr.endsInTest (word.map Token.lexeme) = false)
    (fun _ _ _ => True) (fun _ _ _ _ => True)
    (fun _ _ _ _ => True) (fun _ _ _ _ => True)
    (fun _ _ _ => True) (fun _ _ _ => True) (fun _ _ _ => True) (fun _ _ _ => True)
    (fun _ _ _ => True)
    ?loosen ?onlyIf ?ifElse ?binary ?not_ ?test ?filter ?sign ?attr ?place ?item ?call ?name
    ?literal ?list ?parenthesized ?named ?arguments ?noneGiven ?someGiven ?given ?bare
    ?noneOptional ?someOptional ?noneStep ?someStep ?index ?slice ?noItem ?items ?noNamed ?allNamed
    level word expr derives
  case loosen =>
    intro level word expr _ ih tight
    exact ih (Nat.lt_of_lt_of_le tight (by cases level <;> decide))
  case onlyIf => exact fun _ _ _ _ _ tight => absurd tight (by decide)
  case ifElse => exact fun _ _ _ _ _ _ _ _ tight => absurd tight (by decide)
  case not_ => exact fun _ _ _ tight => absurd tight (by decide)
  case test => exact fun _ _ _ _ _ _ _ tight => absurd tight (by decide)
  case binary =>
    intro op first operator second left right _ spells after _ ih tight
    rw [List.append_assoc, List.map_append, endsInTest_append_operand spells after.ne_nil]
    exact ih (Nat.lt_of_lt_of_le tight (by cases op <;> decide))
  case filter =>
    intro pipe first called arguments value name args kwargs _ isPipe isName given _ _ _
    rw [List.map_append]
    cases given with
    | some inner => exact endsInTest_of_arguments inner _
    | none =>
        have noTest :=
          endsInTest_append_of_forall_ne (kind_ne_is_of_spellsTest (.dotted isName)) []
        have nonempty : called.map Token.lexeme ≠ [] := by
          simpa using (EndsWithoutPoint.of_dottedName isName).ne_nil
        rw [List.append_nil] at noTest
        rw [List.map_nil, List.append_nil, List.map_append, List.map_cons,
          endsInTest_append_operator (by simp [Token.lexeme, isPipe]) nonempty,
          endsInTest_cons_of_ne (by simp [Token.lexeme, isPipe]), noTest]
        rfl
  case sign =>
    intro token op word operand isSign _ ih tight
    have notIs : token.lexeme.kind ≠ .keyword .is_ := by
      intro isIs
      rw [show token.kind = .keyword .is_ from isIs] at isSign
      cases isSign
    rw [List.map_cons, endsInTest_cons_of_ne notIs]
    exact ih tight
  case attr =>
    intro dot member word value name _ isDot _ ih tight
    rw [List.map_append]
    exact endsInTest_append_attr isDot (ih tight)
  case place =>
    intro dot number word value index _ _ isInteger _ _ _
    rw [List.map_append, List.map_cons, List.append_cons]
    exact endsInTest_append_closing (by simp [Token.lexeme, isInteger]) _
  case item =>
    intro opening closing word inside value index _ _ closes _ _ _ _
    rw [List.map_append]
    exact endsInTest_append_closing (by simp [Token.lexeme, closes]) _
  case call =>
    intro word arguments callee args kwargs _ given _ _ _
    rw [List.map_append]
    exact endsInTest_of_arguments given _
  case name => exact fun _ _ => rfl
  case literal => exact fun isLiteral _ => endsInTest_of_spellsLiteral isLiteral
  case list =>
    intro opening closing pieces body items _ closes _ _ _ _
    rw [List.map_append]
    exact endsInTest_append_closing (by simp [Token.lexeme, closes]) _
  case parenthesized =>
    intro opening closing word expr _ closes _ _ _
    rw [List.map_append]
    exact endsInTest_append_closing (by simp [Token.lexeme, closes]) _
  all_goals simp

/-! ### Tests with one argument -/

theorem isDottedWord_append_eq_false {word : List Lexeme} (isDotted : isDottedWord word = true)
    {lexeme : Lexeme} (notDot : lexeme.kind ≠ .dot) (rest : List Lexeme) :
    isDottedWord (word ++ lexeme :: rest) = false := by
  fun_induction isDottedWord word with
  | case1 => cases isDotted
  | case2 part => cases rest <;> simp [isDottedWord, notDot]
  | case3 part point word ih => simp_all [isDottedWord]

/-- A name of a test goes on only with a point. -/
theorem isTestWord_append_eq_false {word : List Lexeme} (isTest : isTestWord word = true)
    {lexeme : Lexeme} (notDot : lexeme.kind ≠ .dot) (rest : List Lexeme) :
    isTestWord (word ++ lexeme :: rest) = false := by
  match word with
  | [] => cases isTest
  | [_] => simp [isTestWord, isDottedWord, notDot]
  | first :: second :: word =>
      have isDotted : isDottedWord (first :: second :: word) = true := by
        simpa [isTestWord] using isTest
      simpa [isTestWord] using isDottedWord_append_eq_false isDotted notDot rest

section

variable {is_ not_ lexeme : Lexeme} {called : List Lexeme} (isTest : isTestWord called = true)
  (notDot : lexeme.kind ≠ .dot) (rest : List Lexeme)

include isTest notDot

theorem isBareTest_argument : isBareTest (is_ :: (called ++ lexeme :: rest)) = false := by
  have goesOn := isTestWord_append_eq_false isTest notDot rest
  cases called with
  | nil => cases isTest
  | cons first called =>
      have notNot : first.kind ≠ .keyword .not_ := by
        intro isNot
        have isKind := (eq_of_isTestWord isTest List.mem_cons_self (by simp [isNot])).2
        simp [isNot] at isKind
      rw [List.cons_append] at goesOn ⊢
      simp [isBareTest, goesOn, notNot]

theorem isBareTest_not_argument (isNot : not_.kind = .keyword .not_) :
    isBareTest (is_ :: not_ :: (called ++ lexeme :: rest)) = false := by
  have goesOn := isTestWord_append_eq_false isTest notDot rest
  have notAlone : isTestWord (not_ :: (called ++ lexeme :: rest)) = false := by
    by_contra isTest'
    have alone := (eq_of_isTestWord (Bool.eq_true_of_not_eq_false isTest') List.mem_cons_self
      (by simp [isNot])).1
    simp at alone
  simp [isBareTest, goesOn, notAlone]

end

/-- A test with an argument ends as its argument does. -/
theorem endsInTest_append_argument {is_ token : Token} {negation called word : List Token}
    {negated : Bool} {name : String} (isIs : is_.kind = .keyword .is_)
    (isNegation : SpellsNegation negation negated) (isName : SpellsTest called name)
    (begins : beginsBareArgument token.kind = true) (before : List Lexeme) :
    endsInTest (before ++ (is_ :: negation ++ called ++ token :: word).map Token.lexeme) =
      endsInTest ((token :: word).map Token.lexeme) := by
  have notDot : token.lexeme.kind ≠ .dot := by
    intro isDot
    rw [show token.kind = .dot from isDot] at begins
    cases begins
  have isTest := isTestWord_of_spellsTest isName
  have noIs := kind_ne_is_of_spellsTest isName
  have isKind : is_.lexeme.kind = .keyword .is_ := isIs
  simp only [List.map_append, List.map_cons, List.cons_append]
  rw [endsInTest_append_operator (by simp [isKind]) (by simp), endsInTest_cons]
  cases isNegation with
  | plain =>
      rw [List.map_nil, List.nil_append, isBareTest_argument isTest notDot, Bool.false_or,
        endsInTest_append_of_forall_ne noIs]
  | @not_ not_ isNot =>
      have isKind' : not_.lexeme.kind = .keyword .not_ := isNot
      rw [List.map_singleton, List.singleton_append, List.cons_append,
        isBareTest_not_argument isTest notDot _ isKind', Bool.false_or,
        endsInTest_cons_of_ne (by simp [isKind']), endsInTest_append_of_forall_ne noIs]

end Stencil.Expr

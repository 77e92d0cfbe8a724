import Stencil.Profiles
import Stencil.Proofs.Template.PrintTags

/-!
# Indices after points

An index in brackets is read as an item, whatever comes before it. An index after a point is read as
an item too, but only if no other one follows: a point between two digits belongs to a number, so
that two indices after points are one number with a fraction, and the tag is refused.
-/

namespace Stencil

/-- The digits of an index. -/
structure Index where
  digits : List Char
  nonempty : digits ≠ []
  areDigits : ∀ char ∈ digits, char.isDigit = true
  fits : Nat.ofDigitChars 10 digits 0 ≤ Literal.maxInteger

namespace Index

/-- The number that an index spells. -/
def value (index : Index) : Int :=
  Nat.ofDigitChars 10 index.digits 0

/-- The token of an index. -/
def lexeme (index : Index) : Lexeme :=
  ⟨.integer, String.ofList index.digits⟩

/-- The token of two indices with a point between them. -/
def pair (first second : Index) : Lexeme :=
  ⟨.float, String.ofList (first.digits ++ '.' :: second.digits)⟩

/-- The tokens of indices in brackets. -/
def bracketLexemes (indices : List Index) : List Lexeme :=
  indices.flatMap fun index => [.symbol "[", index.lexeme, .symbol "]"]

/-- The tokens of indices after points: every two of them are one number. -/
def pointLexemes : List Index → List Lexeme
  | [] => []
  | [index] => [.symbol ".", index.lexeme]
  | first :: second :: indices => .symbol "." :: pair first second :: pointLexemes indices

/-- A print tag with a name and indices in brackets. -/
def bracketTag (name : String) (indices : List Index) : String :=
  String.ofList ("\x7b\x7b ".toList ++ (name.toList ++
    (indices.flatMap (fun index => '[' :: index.digits ++ [']']) ++ " \x7d\x7d".toList)))

/-- A print tag with a name and indices after points. -/
def pointTag (name : String) (indices : List Index) : String :=
  String.ofList ("\x7b\x7b ".toList ++ (name.toList ++
    (indices.flatMap (fun index => '.' :: index.digits) ++ " \x7d\x7d".toList)))

theorem toList_bracketTag (name : String) (indices : List Index) :
    (bracketTag name indices).toList = "\x7b\x7b ".toList ++ (name.toList ++
      (indices.flatMap (fun index => '[' :: index.digits ++ [']']) ++ " \x7d\x7d".toList)) :=
  String.toList_ofList

theorem toList_pointTag (name : String) (indices : List Index) :
    (pointTag name indices).toList = "\x7b\x7b ".toList ++ (name.toList ++
      (indices.flatMap (fun index => '.' :: index.digits) ++ " \x7d\x7d".toList)) :=
  String.toList_ofList

/-- The items of a value at one index after another. -/
def itemsOf (origin : Origin) (value : Expr) (indices : List Index) : Expr :=
  indices.foldl (fun value index => .item origin value (.integer origin index.value)) value

theorem readInteger_digits (index : Index) :
    Literal.readInteger index.digits = .ok index.value := by
  rw [Literal.readInteger_eq_of_digits index.nonempty index.areDigits,
    Literal.readDigits_eq_ok index.areDigits index.fits]
  rfl

/-! ### Cutting -/

theorem cuts_brackets (indices : List Index) :
    Lexeme.Cuts " \x7d\x7d".toList (bracketLexemes indices)
      (indices.flatMap (fun index => '[' :: index.digits ++ [']']) ++ " \x7d\x7d".toList) := by
  induction indices with
  | nil => exact .nil
  | cons index indices ih =>
      have closes := Lexeme.Cuts.mark (Or.inr (Or.inr rfl)) ih
      have digits := Lexeme.Cuts.close
        (.integer index.nonempty index.areDigits fun char isFirst => by
          cases isFirst
          decide) closes
      rw [String.toList_ofList] at digits
      have opens := Lexeme.Cuts.mark (Or.inr (Or.inl rfl)) digits
      simpa [bracketLexemes, lexeme] using opens

/-- After an index comes a point or a space. -/
theorem head?_points {indices : List Index} {char : Char}
    (isFirst : char ∈ (indices.flatMap (fun index => '.' :: index.digits) ++
      " \x7d\x7d".toList).head?) : char = '.' ∨ char = ' ' := by
  cases indices with
  | nil => exact Or.inr (Option.some.inj isFirst).symm
  | cons index indices => exact Or.inl (Option.some.inj isFirst).symm

theorem cuts_points (indices : List Index) :
    Lexeme.Cuts " \x7d\x7d".toList (pointLexemes indices)
      (indices.flatMap (fun index => '.' :: index.digits) ++ " \x7d\x7d".toList) := by
  fun_induction pointLexemes indices with
  | case1 => exact .nil
  | case2 index =>
      have digits : Lexeme.Cuts " \x7d\x7d".toList [index.lexeme]
          (index.lexeme.text.toList ++ " \x7d\x7d".toList) :=
        .close (.integer index.nonempty index.areDigits fun char isFirst => by
          cases isFirst
          decide) .nil
      rw [lexeme, String.toList_ofList] at digits
      simpa [lexeme] using Lexeme.Cuts.mark (Or.inl rfl) digits
  | case3 first second indices ih =>
      have areDigits : ∀ char ∈ first.digits ++ second.digits, char.isDigit = true :=
        List.forall_mem_append.2 ⟨first.areDigits, second.areDigits⟩
      have digits := Lexeme.Cuts.close (.float first.nonempty second.nonempty areDigits
        fun char isFirst => by rcases head?_points isFirst with rfl | rfl <;> decide) ih
      rw [String.toList_ofList] at digits
      simpa [pair] using Lexeme.Cuts.mark (Or.inl rfl) digits

theorem notBoundary_of_mem_pointLexemes {indices : List Index} {lexeme : Lexeme}
    (member : lexeme ∈ pointLexemes indices) : lexeme.kind.isBoundary = false := by
  fun_induction pointLexemes indices with
  | case1 => simp at member
  | case2 index =>
      simp only [List.mem_cons, List.not_mem_nil, or_false] at member
      rcases member with rfl | rfl <;> rfl
  | case3 first second indices ih =>
      simp only [List.mem_cons] at member
      rcases member with rfl | rfl | inner
      · rfl
      · rfl
      · exact ih inner

/-! ### Reading -/

section

open Reading

variable {stream : TokenStream} {start levels line : Nat} {index : Index} {value : Expr}

theorem literal_eq (stands : stream.Stands start index.lexeme) :
    Expr.literal stream start =
      .ok (.integer ⟨(stream.get start).line, stream.sourceName⟩ index.value) (start + 1) := by
  have isInteger : (stream.get start).kind = .integer := stands.kind
  have sameText : (stream.get start).text.toList = index.digits := by
    rw [stands.text, lexeme, String.toList_ofList]
  rw [Expr.literal, current_bind, originAt_bind, isInteger]
  dsimp only
  rw [sameText, index.readInteger_digits]
  dsimp only
  rw [bind_eq_of_ok (advance_eq_of_stands stands)]
  rfl

variable [Limits]

theorem subscript_eq (stands : stream.Stands start index.lexeme)
    (closes : (stream.get (start + 1)).kind = .rbracket) :
    Expr.subscript (Expr.deeper (levels + 1)) stream start =
      .ok (.integer ⟨(stream.get start).line, stream.sourceName⟩ index.value) (start + 1) := by
  have isInteger : (stream.get start).kind = .integer := stands.kind
  have isOperand : (stream.get start).kind.opens? = some .primary := by rw [isInteger]; rfl
  have ends : Level.conditional.stops (stream.get (start + 1)).kind = true := by rw [closes]; rfl
  have outcome : Level.primary.rule (Expr.deeper levels) stream start = _ :=
    (Expr.primary_eq_of_isLiteral _ (by rw [isInteger]; rfl)).trans (literal_eq stands)
  have parsed : (Expr.deeper (levels + 1)).conditional stream start = _ :=
    Expr.parse_eq_ok isOperand ends outcome
  rw [Expr.subscript, current_bind, isInteger, if_neg (by decide), bind_eq_of_ok parsed,
    current_bind, closes, if_neg (by decide)]
  rfl

/-- An index in brackets is read as an item. -/
theorem suffix_eq_of_bracket
    (shows : stream.Shows start [.symbol "[", index.lexeme, .symbol "]"]) :
    Expr.suffix (Expr.deeper (levels + 1)) value stream start =
      .ok (.yield (.item ⟨value.line, stream.sourceName⟩ value
        (.integer ⟨(stream.get (start + 1)).line, stream.sourceName⟩ index.value)))
        (start + 3) := by
  obtain ⟨opens, stands, closes, _⟩ := shows
  have isOpening : (stream.get start).kind = .lbracket := opens.kind
  have isClosing : (Lexeme.symbol "]").kind = .rbracket := rfl
  rw [Expr.suffix, originAt_bind, current_bind, isOpening]
  dsimp only
  rw [bind_eq_of_ok (advance_eq_of_stands opens),
    bind_eq_of_ok (subscript_eq stands closes.kind),
    bind_eq_of_ok (expect_eq_of_stands closes isClosing _)]
  rfl

omit [Limits] in
/-- An index after a point is read as an item. -/
theorem suffix_eq_of_point {deeper : Expr.Deeper}
    (shows : stream.Shows start [.symbol ".", index.lexeme]) :
    Expr.suffix deeper value stream start =
      .ok (.yield (.item ⟨value.line, stream.sourceName⟩ value
        (.integer ⟨(stream.get (start + 1)).line, stream.sourceName⟩ index.value)))
        (start + 2) := by
  obtain ⟨point, stands, _⟩ := shows
  have isPoint : (stream.get start).kind = .dot := point.kind
  have isInteger : (stream.get (start + 1)).kind = .integer := stands.kind
  rw [Expr.suffix, originAt_bind, current_bind, isPoint]
  dsimp only
  rw [bind_eq_of_ok (advance_eq_of_stands point), current_bind, isInteger]
  dsimp only
  rw [bind_eq_of_ok (literal_eq stands)]
  rfl

omit [Limits] in
/-- A number with a fraction after a point is refused. -/
theorem suffix_eq_of_pair {deeper : Expr.Deeper} {first second : Index}
    (shows : stream.Shows start [.symbol ".", pair first second]) :
    Expr.suffix deeper value stream start =
      .error (.ofToken (stream.get (start + 1)) "attribute name") (start + 1) := by
  obtain ⟨point, stands, _⟩ := shows
  have isPoint : (stream.get start).kind = .dot := point.kind
  have isFloat : (stream.get (start + 1)).kind = .float := stands.kind
  have noWord : (stream.get (start + 1)).word? = none := by rw [Token.word?, isFloat]
  rw [Expr.suffix, originAt_bind, current_bind, isPoint]
  dsimp only
  rw [bind_eq_of_ok (advance_eq_of_stands point), current_bind, isFloat, noWord]
  rfl

/-- Indices in brackets are read one after another. -/
theorem loop_suffix_eq {indices : List Index}
    (sameLines : ∀ place, (stream.get place).line = line) (sameLine : value.line = line)
    (shows : stream.Shows start (bracketLexemes indices))
    (ends : Level.suffix.stops (stream.get (start + (bracketLexemes indices).length)).kind = true) :
    Reading.loop (Expr.suffix (Expr.deeper (levels + 1))) value stream start =
      .ok (itemsOf ⟨line, stream.sourceName⟩ value indices)
        (start + (bracketLexemes indices).length) := by
  induction indices generalizing start value with
  | nil => exact repeatFrom_eq_of_done (Level.step_eq_done rfl ends _ value)
  | cons index indices ih =>
      have split : bracketLexemes (index :: indices) =
          [.symbol "[", index.lexeme, .symbol "]"] ++ bracketLexemes indices := rfl
      rw [split, List.length_append, ← Nat.add_assoc] at ends ⊢
      rw [split, TokenStream.shows_append] at shows
      have inside : id start < stream.size := Nat.lt_of_succ_lt shows.1.1.inside
      have step : Expr.suffix (Expr.deeper (levels + 1)) value stream start = _ :=
        suffix_eq_of_bracket shows.1
      rw [sameLine, sameLines] at step
      rw [Reading.loop, repeatFrom_eq_of_yield step (by simp only [id]; omega) inside,
        ← Reading.loop]
      exact ih rfl shows.2 ends

end

/-! ### Compiling -/

section

variable {name : String} (free : Expr.isFreeName name = true)

include free

theorem isWord_of_isFreeName : Expr.isWord name.toList = true := by
  rw [Expr.isFreeName, Bool.and_eq_true] at free
  exact free.1

/-- A name ends before what is no part of a word. -/
theorem cuts_name {after text : List Char} {lexemes : List Lexeme}
    (ends : ∀ char ∈ text.head?, Lexer.isWordChar char = false)
    (rest : Lexeme.Cuts after lexemes text) :
    Lexeme.Cuts after (.word name :: lexemes) ([' '] ++ (name.toList ++ text)) := by
  have oneBlank : [' '].all Text.isBlank = true := by decide
  exact .cons oneBlank (.word (isWord_of_isFreeName free) ends) rest

theorem newline_not_mem_tags (indices : List Index) :
    '\n' ∉ (bracketTag name indices).toList ∧ '\n' ∉ (pointTag name indices).toList := by
  have inName : '\n' ∉ name.toList := fun isBreak =>
    absurd (Lexer.isWordChar_of_isWord (isWord_of_isFreeName free) _ isBreak) (by decide)
  have inDigits (index : Index) : '\n' ∉ index.digits := fun isBreak =>
    absurd (index.areDigits _ isBreak) (by decide)
  rw [toList_bracketTag, toList_pointTag]
  simp [inName, inDigits]

/-- A name is read first, and then its suffixes. -/
theorem suffixRule_eq_of_name {stream : TokenStream} {start : Nat}
    (stands : stream.Stands start (.word name)) (deeper : Expr.Deeper) :
    (stream.get start).kind.opens? = some .primary ∧
    Level.suffix.rule deeper stream start = Reading.loop (Expr.suffix deeper)
      (.name ⟨(stream.get start).line, stream.sourceName⟩ name) stream (start + 1) := by
  constructor
  · rw [stands.kind, Lexeme.word, Reading.wordKind_of_isFreeName free]
    rfl
  · exact bind_eq_of_ok (Expr.primary_eq_of_name deeper free stands)

variable [Limits] {settings : Settings} (isDefault : settings.dialect = {}) (registry : Registry)
  (sourceName : Option String)

include isDefault

/-- Indices in brackets are compiled to items; each index is one level deeper than the tag's own
expression. -/
theorem exists_compile_bracketTag (threeLevels : 2 < maxDepth) (indices : List Index) :
    ∃ compilation,
    compile settings registry sourceName (bracketTag name indices) = .ok compilation ∧
    compilation.isClean = true ∧ compilation.template = ⟨[.output ⟨1, sourceName⟩
      (itemsOf ⟨1, sourceName⟩ (.name ⟨1, sourceName⟩ name) indices)], sourceName⟩ := by
  have ends : ∀ char ∈ (indices.flatMap (fun index => '[' :: index.digits ++ [']']) ++
      " \x7d\x7d".toList).head?, Lexer.isWordChar char = false := by
    intro char isFirst
    cases indices <;> cases isFirst <;> decide
  have reads (stream : TokenStream) (isTag : stream.IsTag sourceName (bracketTag name indices)
      (.word name :: bracketLexemes indices)) :
      (stream.get 1).kind.opens? = some .primary ∧
      Level.suffix.rule (Expr.deeper (maxDepth - 2)) stream 1 =
        .ok (itemsOf ⟨1, sourceName⟩ (.name ⟨1, sourceName⟩ name) indices)
          (1 + (.word name :: bracketLexemes indices).length) := by
    have sameLines := isTag.line_eq (newline_not_mem_tags free indices).1
    rcases isTag.inner with ⟨⟨stands, shows⟩, closes⟩
    have sameStop : 1 + (.word name :: bracketLexemes indices).length =
        1 + 1 + (bracketLexemes indices).length := by
      rw [List.length_cons]
      omega
    rcases suffixRule_eq_of_name free stands (Expr.deeper (maxDepth - 2)) with
      ⟨isOperand, suffixes⟩
    rw [sameStop] at closes ⊢
    rw [sameLines] at suffixes
    rw [← isTag.sourceName_eq]
    refine ⟨isOperand, suffixes.trans ?_⟩
    rw [show maxDepth - 2 = maxDepth - 3 + 1 by omega]
    exact loop_suffix_eq sameLines rfl shows (by rw [closes]; rfl)
  have cuts : Lexeme.Cuts ([' '] ++ "\x7d\x7d".toList) _ _ :=
    cuts_name free ends (cuts_brackets indices)
  obtain ⟨stream, compilation, isTag, compiled, isClean, sameTemplate⟩ :=
    exists_compile_of_ok registry (by decide) cuts String.toList_ofList isDefault sourceName
      (Nat.lt_of_succ_lt threeLevels) reads
  refine ⟨compilation, compiled, isClean, ?_⟩
  rw [sameTemplate, isTag.line_eq (newline_not_mem_tags free indices).1, isTag.sourceName_eq]

/-- One index after a point is compiled to an item. -/
theorem exists_compile_pointTag (twoLevels : 1 < maxDepth) (index : Index) : ∃ compilation,
    compile settings registry sourceName (pointTag name [index]) = .ok compilation ∧
    compilation.isClean = true ∧ compilation.template = ⟨[.output ⟨1, sourceName⟩
      (itemsOf ⟨1, sourceName⟩ (.name ⟨1, sourceName⟩ name) [index])], sourceName⟩ := by
  have reads (stream : TokenStream) (isTag : stream.IsTag sourceName (pointTag name [index])
      (.word name :: pointLexemes [index])) :
      (stream.get 1).kind.opens? = some .primary ∧
      Level.suffix.rule (Expr.deeper (maxDepth - 2)) stream 1 =
        .ok (itemsOf ⟨1, sourceName⟩ (.name ⟨1, sourceName⟩ name) [index])
          (1 + (.word name :: pointLexemes [index]).length) := by
    have sameLines := isTag.line_eq (newline_not_mem_tags free [index]).2
    rcases isTag.inner with ⟨⟨stands, shows⟩, closes⟩
    rcases suffixRule_eq_of_name free stands (Expr.deeper (maxDepth - 2)) with
      ⟨isOperand, suffixes⟩
    have step (value : Expr) : Expr.suffix (Expr.deeper (maxDepth - 2)) value stream 2 = _ :=
      suffix_eq_of_point shows
    have ends : Level.suffix.stops (stream.get (2 + 2)).kind = true := by
      rw [show (stream.get (2 + 2)).kind = .variableEnd from closes]
      rfl
    have done (value : Expr) : Expr.suffix (Expr.deeper (maxDepth - 2)) value stream (2 + 2) =
        .ok (.done value) (2 + 2) := Level.step_eq_done rfl ends _ value
    have inside : id 2 < stream.size := Nat.lt_of_succ_lt shows.1.inside
    refine ⟨isOperand, suffixes.trans ?_⟩
    rw [Reading.loop, repeatFrom_eq_of_yield (step _) (by simp) inside,
      repeatFrom_eq_of_done (done _), sameLines, sameLines, isTag.sourceName_eq]
    rfl
  have ends : ∀ char ∈ ([index].flatMap (fun index => '.' :: index.digits) ++
      " \x7d\x7d".toList).head?, Lexer.isWordChar char = false := by
    rintro _ ⟨⟩
    decide
  have cuts : Lexeme.Cuts ([' '] ++ "\x7d\x7d".toList) _ _ :=
    cuts_name free ends (cuts_points [index])
  obtain ⟨stream, compilation, isTag, compiled, isClean, sameTemplate⟩ :=
    exists_compile_of_ok registry (by decide) cuts String.toList_ofList isDefault sourceName
      twoLevels reads
  refine ⟨compilation, compiled, isClean, ?_⟩
  rw [sameTemplate, isTag.line_eq (newline_not_mem_tags free [index]).2, isTag.sourceName_eq]

/-- Two indices after points, and more of them, leave nothing but an error. -/
theorem exists_compile_pointTag_error (twoLevels : 1 < maxDepth) (first second : Index)
    (others : List Index) : ∃ compilation span,
      compile settings registry sourceName (pointTag name (first :: second :: others)) =
        .ok compilation ∧
      compilation.diagnostics = [] ∧ compilation.template = ⟨[], sourceName⟩ ∧
      compilation.errors =
        [.unexpected "attribute name" ("'" ++ (pair first second).text ++ "'") span] := by
  have fails (stream : TokenStream)
      (isTag : stream.IsTag sourceName (pointTag name (first :: second :: others))
        (.word name :: pointLexemes (first :: second :: others))) :
      (stream.get 1).kind.opens? = some .primary ∧
      Level.suffix.rule (Expr.deeper (maxDepth - 2)) stream 1 =
        .error (.unexpected "attribute name" ("'" ++ (pair first second).text ++ "'")
          (stream.get 3).span) 3 := by
    rcases isTag.inner with ⟨⟨stands, point, number, _⟩, _⟩
    rcases suffixRule_eq_of_name free stands (Expr.deeper (maxDepth - 2)) with
      ⟨isOperand, suffixes⟩
    have step (value : Expr) : Expr.suffix (Expr.deeper (maxDepth - 2)) value stream 2 = _ :=
      suffix_eq_of_pair ⟨point, number, trivial⟩
    have sameError : SyntaxError.ofToken (stream.get 3) "attribute name" =
        .unexpected "attribute name" ("'" ++ (pair first second).text ++ "'")
          (stream.get 3).span := by
      have isFloat : (stream.get 3).kind = .float := number.kind
      have sameText : (stream.get 3).text = (pair first second).text := number.text
      rw [SyntaxError.ofToken, isFloat, ← sameText]
      rfl
    refine ⟨isOperand, suffixes.trans ?_⟩
    rw [← sameError]
    exact repeatFrom_eq_of_error (step _)
  have notBoundary : ∀ lexeme ∈ .word name :: pointLexemes (first :: second :: others),
      lexeme.kind.isBoundary = false := by
    refine List.forall_mem_cons.2 ⟨?_, fun lexeme => notBoundary_of_mem_pointLexemes⟩
    rw [Lexeme.word, Reading.wordKind_of_isFreeName free]
    rfl
  have ends : ∀ char ∈ ((first :: second :: others).flatMap (fun index => '.' :: index.digits) ++
      " \x7d\x7d".toList).head?, Lexer.isWordChar char = false := by
    rintro _ ⟨⟩
    decide
  have cuts : Lexeme.Cuts ([' '] ++ "\x7d\x7d".toList) _ _ :=
    cuts_name free ends (cuts_points (first :: second :: others))
  obtain ⟨stream, compilation, _, compiled, noDiagnostics, sameErrors, sameTemplate⟩ :=
    exists_compile_of_error registry (by decide) cuts String.toList_ofList isDefault sourceName
      twoLevels notBoundary (fun _ => rfl) fails
  exact ⟨compilation, _, compiled, noDiagnostics, sameTemplate, sameErrors⟩

end

end Index

open Index

/-- Indices in brackets are compiled to items of items, on the line of the tag. A single index after
a point is compiled to the same template; of two or more the first two are one number, which is
refused, and nothing is left of the tag. The build needs three levels of nesting: for the tag, for
its expression and for an index in brackets. -/
theorem dotted_indices_compile [Limits] {name : String} (free : Expr.isFreeName name = true)
    {indices : List Index} (nonempty : indices ≠ []) {settings : Settings}
    (isDefault : settings.dialect = {}) (registry : Registry) (sourceName : Option String)
    (threeLevels : 2 < maxDepth) : ∃ bracketed pointed,
      compile settings registry sourceName (bracketTag name indices) = .ok bracketed ∧
      bracketed.isClean = true ∧ bracketed.template = ⟨[.output ⟨1, sourceName⟩
        (itemsOf ⟨1, sourceName⟩ (.name ⟨1, sourceName⟩ name) indices)], sourceName⟩ ∧
      compile settings registry sourceName (pointTag name indices) = .ok pointed ∧
      (indices.length = 1 → pointed.isClean = true ∧ pointed.template = bracketed.template) ∧
      ∀ first second others, indices = first :: second :: others →
        pointed.template = ⟨[], sourceName⟩ ∧ pointed.diagnostics = [] ∧
        ∃ span, pointed.errors =
          [.unexpected "attribute name" ("'" ++ (pair first second).text ++ "'") span] := by
  rcases exists_compile_bracketTag free isDefault registry sourceName threeLevels indices with
    ⟨bracketed, compiledBracketed, isClean, sameTemplate⟩
  have twoLevels := Nat.lt_of_succ_lt threeLevels
  refine ⟨bracketed, ?_⟩
  cases indices with
  | nil => exact absurd rfl nonempty
  | cons first others =>
      cases others with
      | nil =>
          rcases exists_compile_pointTag free isDefault registry sourceName twoLevels first with
            ⟨pointed, compiled, isCleanPointed, sameTemplatePointed⟩
          exact ⟨pointed, compiledBracketed, isClean, sameTemplate, compiled,
            fun _ => ⟨isCleanPointed, sameTemplatePointed.trans sameTemplate.symm⟩, by simp⟩
      | cons second others =>
          rcases exists_compile_pointTag_error free isDefault registry sourceName twoLevels first
            second others with ⟨pointed, span, compiled, noDiagnostics, noTemplate, sameErrors⟩
          refine ⟨pointed, compiledBracketed, isClean, sameTemplate, compiled, by simp, ?_⟩
          rintro _ _ _ ⟨⟩
          exact ⟨noTemplate, noDiagnostics, span, sameErrors⟩

/-- A single index may have leading zeros. -/
theorem dotted_indices_compile_single :
    let index : Index := ⟨['0', '7'], by simp, by simp, by decide⟩
    Expr.isFreeName "x" = true ∧ [index] ≠ [] ∧
    ∃ bracketed pointed, compile {} {} none "\x7b\x7b x[07] \x7d\x7d" = .ok bracketed ∧
      bracketed.isClean = true ∧ bracketed.template = ⟨[.output ⟨1, none⟩
        (.item ⟨1, none⟩ (.name ⟨1, none⟩ "x") (.integer ⟨1, none⟩ 7))], none⟩ ∧
      compile {} {} none "\x7b\x7b x.07 \x7d\x7d" = .ok pointed ∧ pointed.isClean = true ∧
      pointed.template = bracketed.template := by
  intro index
  obtain ⟨bracketed, pointed, compiled, isClean, sameTemplate, compiledPointed, single, _⟩ :=
    dotted_indices_compile (show Expr.isFreeName "x" = true by decide)
      (List.cons_ne_nil index []) (show ({} : Settings).dialect = {} from rfl) {} none
      (by decide)
  exact ⟨by decide, by simp, bracketed, pointed, compiled, isClean, sameTemplate,
    compiledPointed, single rfl⟩

/-- Two indices after points are not compiled to the items that they are in brackets. -/
theorem dotted_indices_refused : ∃ bracketed pointed,
    compile {} {} none "\x7b\x7b x[1][2] \x7d\x7d" = .ok bracketed ∧
    bracketed.isClean = true ∧ bracketed.template.body ≠ [] ∧
    compile {} {} none "\x7b\x7b x.1.2 \x7d\x7d" = .ok pointed ∧
    pointed.isClean = false ∧ pointed.template.body = [] := by
  have free : Expr.isFreeName "x" = true := by decide
  have isDefault : ({} : Settings).dialect = {} := rfl
  let one : Index := ⟨['1'], by simp, by simp, by decide⟩
  let two : Index := ⟨['2'], by simp, by simp, by decide⟩
  rcases exists_compile_bracketTag free isDefault {} none (by decide) [one, two] with
    ⟨bracketed, compiled, isClean, sameTemplate⟩
  rcases exists_compile_pointTag_error free isDefault {} none (by decide) one two [] with
    ⟨pointed, span, compiledPointed, _, noTemplate, sameErrors⟩
  refine ⟨bracketed, pointed, compiled, isClean, ?_, compiledPointed, ?_, ?_⟩
  · simp [sameTemplate]
  · simp [Compilation.isClean, sameErrors]
  · simp [noTemplate]

end Stencil

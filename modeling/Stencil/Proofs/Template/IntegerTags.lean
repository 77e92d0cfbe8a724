import Stencil.Profiles
import Stencil.Proofs.Lexer.Munching
import Stencil.Proofs.Template.DottedIndices

/-!
# Integers in print tags

The lexer promises the parser that the text of a token is of the class of its kind. A number without
fraction and exponent is digits, so that only its size can be wrong with it: digits of any number
that spell an integer of 64 bits are compiled to this integer, and all others to nothing but an
error.
-/

namespace Stencil

open Lexer

namespace Literal

/-- Digits that spell too large a number are refused, at whichever digit it becomes too large. -/
theorem readDigits_eq_error {limit value : Nat} {overflow : Fault} {digits : List Char}
    (areDigits : ∀ char ∈ digits, char.isDigit = true) (fits : value ≤ limit)
    (exceeds : limit < Nat.ofDigitChars 10 digits value) :
    readDigits limit overflow value digits = .error overflow := by
  induction digits generalizing value with
  | nil => exact absurd exceeds (Nat.not_lt.2 fits)
  | cons char digits ih =>
      have sameValue : value * 10 + digitValue char = 10 * value + (char.toNat - '0'.toNat) := by
        rw [Nat.mul_comm, digitValue]
      rw [Nat.ofDigitChars_cons, ← sameValue] at exceeds
      rw [readDigits, if_pos (areDigits char List.mem_cons_self)]
      dsimp only
      split
      · rfl
      · next notYet =>
        exact ih (fun char member => areDigits char (List.mem_cons_of_mem _ member))
          (Nat.not_lt.1 notYet) exceeds

end Literal

/-- A print tag with an integer. -/
def integerTag (digits : List Char) : String :=
  String.ofList ("\x7b\x7b ".toList ++ (digits ++ " \x7d\x7d".toList))

section

variable {digits : List Char} (isDigits : IsDigits digits)

include isDigits

theorem cuts_integer : Lexeme.Cuts ([' '] ++ "\x7d\x7d".toList)
    [⟨.integer, String.ofList digits⟩] ([' '] ++ (digits ++ " \x7d\x7d".toList)) := by
  have ends : Lexeme.EndsBefore (" \x7d\x7d".toList).head? ⟨.integer, String.ofList digits⟩ :=
    .integer isDigits.1 isDigits.2 fun char isFirst => by
      cases isFirst
      decide
  have oneBlank : [' '].all Text.isBlank = true := by decide
  have sameText : (Lexeme.mk .integer (String.ofList digits)).text.toList = digits :=
    String.toList_ofList
  have cuts := Lexeme.Cuts.cons oneBlank ends .nil
  rwa [sameText] at cuts

theorem newline_not_mem_integerTag : '\n' ∉ (integerTag digits).toList := by
  have inDigits : '\n' ∉ digits := fun isBreak => absurd (isDigits.2 _ isBreak) (by decide)
  simp [integerTag, inDigits]

/-- Digits that spell too large a number are refused as a literal. -/
theorem literal_eq_error {stream : TokenStream} {start : Nat}
    (stands : stream.Stands start ⟨.integer, String.ofList digits⟩)
    (exceeds : Literal.maxInteger < Nat.ofDigitChars 10 digits 0) :
    Expr.literal stream start =
      .error (.badLiteral (String.ofList digits) .tooLarge (stream.get start).span) start := by
  have isInteger : (stream.get start).kind = .integer := stands.kind
  have sameText : (stream.get start).text = String.ofList digits := stands.text
  have refused : Literal.readInteger digits = .error .tooLarge := by
    rw [Literal.readInteger_eq_of_digits isDigits.1 isDigits.2,
      Literal.readDigits_eq_error isDigits.2 (Nat.zero_le _) exceeds]
    rfl
  rw [Expr.literal, Reading.current_bind, Reading.originAt_bind, isInteger]
  dsimp only
  rw [sameText, String.toList_ofList, refused]
  rfl

variable [Limits] {settings : Settings} (isDefault : settings.dialect = {}) (registry : Registry)
  (sourceName : Option String) (twoLevels : 1 < maxDepth)

include isDefault twoLevels

theorem exists_compile_integerTag (fits : Nat.ofDigitChars 10 digits 0 ≤ Literal.maxInteger) :
    ∃ compilation, compile settings registry sourceName (integerTag digits) = .ok compilation ∧
      compilation.isClean = true ∧ compilation.template = ⟨[.output ⟨1, sourceName⟩
        (.integer ⟨1, sourceName⟩ (Nat.ofDigitChars 10 digits 0))], sourceName⟩ := by
  let index : Index := ⟨digits, isDigits.1, isDigits.2, fits⟩
  have reads (stream : TokenStream)
      (isTag : stream.IsTag sourceName (integerTag digits) [index.lexeme]) :
      (stream.get 1).kind.opens? = some .primary ∧
      Level.primary.rule (Expr.deeper (maxDepth - 2)) stream 1 =
        .ok (.integer ⟨1, sourceName⟩ index.value) (1 + [index.lexeme].length) := by
    have sameLines := isTag.line_eq (newline_not_mem_integerTag isDigits)
    have stands := isTag.inner.1.1
    have isInteger : (stream.get 1).kind = .integer := stands.kind
    constructor
    · rw [isInteger]
      rfl
    · change Expr.primary (Expr.deeper (maxDepth - 2)) stream 1 = _
      rw [Expr.primary_eq_of_isLiteral _ (by rw [isInteger]; rfl), Index.literal_eq stands,
        sameLines, isTag.sourceName_eq]
      rfl
  obtain ⟨stream, compilation, isTag, compiled, isClean, sameTemplate⟩ :=
    exists_compile_of_ok registry (by decide) (cuts_integer isDigits) String.toList_ofList
      isDefault sourceName twoLevels reads
  refine ⟨compilation, compiled, isClean, ?_⟩
  rw [sameTemplate, isTag.line_eq (newline_not_mem_integerTag isDigits), isTag.sourceName_eq]
  rfl

theorem exists_compile_integerTag_error
    (exceeds : Literal.maxInteger < Nat.ofDigitChars 10 digits 0) : ∃ compilation span,
      compile settings registry sourceName (integerTag digits) = .ok compilation ∧
      compilation.diagnostics = [] ∧ compilation.template = ⟨[], sourceName⟩ ∧
      compilation.errors = [.badLiteral (String.ofList digits) .tooLarge span] := by
  have fails (stream : TokenStream) (isTag : stream.IsTag sourceName (integerTag digits)
      [⟨.integer, String.ofList digits⟩]) :
      (stream.get 1).kind.opens? = some .primary ∧
      Level.primary.rule (Expr.deeper (maxDepth - 2)) stream 1 =
        .error (.badLiteral (String.ofList digits) .tooLarge (stream.get 1).span) 1 := by
    have stands := isTag.inner.1.1
    have isInteger : (stream.get 1).kind = .integer := stands.kind
    constructor
    · rw [isInteger]
      rfl
    · change Expr.primary (Expr.deeper (maxDepth - 2)) stream 1 = _
      rw [Expr.primary_eq_of_isLiteral _ (by rw [isInteger]; rfl),
        literal_eq_error isDigits stands exceeds]
  obtain ⟨stream, compilation, _, compiled, noDiagnostics, sameErrors, sameTemplate⟩ :=
    exists_compile_of_error registry (by decide) (cuts_integer isDigits) String.toList_ofList
      isDefault sourceName twoLevels (by simp [Token.Kind.isBoundary]) (fun _ => rfl) fails
  exact ⟨compilation, _, compiled, noDiagnostics, sameTemplate, sameErrors⟩

end

/-- Every token inside of a tag is of the class of its kind and goes as far as it can: words,
numbers, marks and blanks are the longest at their place. So digits in a print tag are one integer,
however many they are. They are compiled to the number that they spell if it is an integer of 64
bits, and nothing is found wrong; otherwise they are refused as a literal, and the template is
empty. For this the build needs a second level of nesting, that of the expression in a tag. -/
theorem inner_tokens_are_longest [Limits] :
    (∀ {dialect : Dialect} {sourceName : Option String} {source : String} {result : Tokenization},
      tokenize dialect sourceName source = some result → ∀ token ∈ result.tokens,
        token.kind.isInner = true → token.IsMunched dialect source.toList) ∧
    (1 < maxDepth → ∀ {settings : Settings}, settings.dialect = {} →
      ∀ (registry : Registry) (sourceName : Option String) {digits : List Char},
        IsDigits digits → ∃ compilation,
          compile settings registry sourceName (integerTag digits) = .ok compilation ∧
          (Nat.ofDigitChars 10 digits 0 ≤ Literal.maxInteger → compilation.isClean = true ∧
            compilation.template = ⟨[.output ⟨1, sourceName⟩
              (.integer ⟨1, sourceName⟩ (Nat.ofDigitChars 10 digits 0))], sourceName⟩) ∧
          (Literal.maxInteger < Nat.ofDigitChars 10 digits 0 → compilation.diagnostics = [] ∧
            compilation.template = ⟨[], sourceName⟩ ∧ ∃ span,
              compilation.errors = [.badLiteral (String.ofList digits) .tooLarge span])) := by
  refine ⟨fun cut token member isInner => isMunched_of_tokenize cut member isInner, ?_⟩
  intro twoLevels settings isDefault registry sourceName digits isDigits
  by_cases fits : Nat.ofDigitChars 10 digits 0 ≤ Literal.maxInteger
  · rcases exists_compile_integerTag isDigits isDefault registry sourceName twoLevels fits with
      ⟨compilation, compiled, isClean, sameTemplate⟩
    exact ⟨compilation, compiled, fun _ => ⟨isClean, sameTemplate⟩,
      fun exceeds => absurd fits (Nat.not_le.2 exceeds)⟩
  · rcases exists_compile_integerTag_error isDigits isDefault registry sourceName twoLevels
      (Nat.not_le.1 fits) with ⟨compilation, span, compiled, noDiagnostics, noTemplate, sameErrors⟩
    exact ⟨compilation, compiled, fun fitting => absurd fitting fits,
      fun _ => ⟨noDiagnostics, noTemplate, span, sameErrors⟩⟩

/-- A point, an `e` and a sign without digits after them are tokens of their own, and the largest
integer may have leading zeros. -/
theorem inner_tokens_are_longest_at_limits :
    (∃ result, tokenize {} none "\x7b\x7b 1.x 2e+ 3.5e-7<== None_ \x7d\x7d" = some result ∧
      result.tokens.map (fun token => (token.kind, token.text)) =
        [(.variableBegin, "\x7b\x7b"), (.whitespace, " "), (.integer, "1"), (.dot, "."),
          (.name, "x"), (.whitespace, " "), (.integer, "2"), (.name, "e"), (.add, "+"),
          (.whitespace, " "), (.float, "3.5e-7"), (.le, "<="), (.assign, "="),
          (.whitespace, " "), (.name, "None_"), (.whitespace, " "),
          (.variableEnd, "\x7d\x7d"), (.eof, "")] ∧
      ∀ token ∈ result.tokens, token.kind.isInner = true →
        token.IsMunched {} "\x7b\x7b 1.x 2e+ 3.5e-7<== None_ \x7d\x7d".toList) ∧
    (∃ compilation, compile {} {} none "\x7b\x7b 009223372036854775807 \x7d\x7d" =
        .ok compilation ∧ compilation.isClean = true ∧ compilation.template =
          ⟨[.output ⟨1, none⟩ (.integer ⟨1, none⟩ 9223372036854775807)], none⟩) ∧
    ∃ compilation, compile {} {} none "\x7b\x7b 9223372036854775808 \x7d\x7d" =
        .ok compilation ∧ compilation.diagnostics = [] ∧ compilation.template = ⟨[], none⟩ ∧
      ∃ span, compilation.errors = [.badLiteral "9223372036854775808" .tooLarge span] := by
  have isDefault : ({} : Settings).dialect = {} := rfl
  refine ⟨?_, ?_, ?_⟩
  · obtain ⟨result, cut, sameTokens⟩ : ∃ result,
        tokenize {} none "\x7b\x7b 1.x 2e+ 3.5e-7<== None_ \x7d\x7d" = some result ∧
        result.tokens.map (fun token => (token.kind, token.text)) = _ :=
      Option.map_eq_some_iff.1 (by cbv)
    exact ⟨result, cut, sameTokens, inner_tokens_are_longest.1 cut⟩
  · have isDigits : IsDigits "009223372036854775807".toList := ⟨by simp, by simp⟩
    rcases inner_tokens_are_longest.2 (by decide) isDefault {} none isDigits with
      ⟨compilation, compiled, fitting, -⟩
    have sameTag : integerTag "009223372036854775807".toList =
        "\x7b\x7b 009223372036854775807 \x7d\x7d" := by decide +kernel
    rw [sameTag] at compiled
    exact ⟨compilation, compiled, fitting (by decide +kernel)⟩
  · have isDigits : IsDigits "9223372036854775808".toList := ⟨by simp, by simp⟩
    rcases inner_tokens_are_longest.2 (by decide) isDefault {} none isDigits with
      ⟨compilation, compiled, -, tooLarge⟩
    have sameTag : integerTag "9223372036854775808".toList =
        "\x7b\x7b 9223372036854775808 \x7d\x7d" := by decide +kernel
    rw [sameTag] at compiled
    rw [String.ofList_toList] at tooLarge
    exact ⟨compilation, compiled, tooLarge (by decide +kernel)⟩

end Stencil

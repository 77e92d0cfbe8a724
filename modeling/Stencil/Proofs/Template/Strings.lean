import Stencil.Profiles
import Stencil.Proofs.Lexer.Strings
import Stencil.Proofs.Template.PrintTags

/-!
# String literals

Every string token is read in full, whatever the dialect. Any text can be written as a string with
either sort of quote if backslashes and quotes of this sort are escaped, and strings next to each
other in a print tag are compiled to one string, whatever stands in them.
-/

namespace Stencil

namespace Literal

/-- A character as it is written between quotes. -/
def escapeBetween (quote char : Char) : List Char :=
  if char = '\\' ∨ char = quote then ['\\', char] else [char]

/-- What is written between quotes spells the text that it was written for. -/
theorem spells_flatMap_escapeBetween {quote : Char} (isQuote : quote = '\'' ∨ quote = '"')
    (value : List Char) : Spells quote (value.flatMap (escapeBetween quote)) value := by
  induction value with
  | nil => exact .nil
  | cons char value ih =>
      rw [List.flatMap_cons, escapeBetween]
      split
      · next isMark =>
        have escape : Escape char [char] := by
          rcases isMark with rfl | rfl
          · exact .backslash
          · rcases isQuote with rfl | rfl
            · exact .apostrophe
            · exact .quotationMark
        exact .escaped escape ih
      · next notMark => exact .plain (not_or.1 notMark).1 (not_or.1 notMark).2 ih

end Literal

/-- A text that is written as a string, with blanks before it. -/
structure Quotation where
  gap : List Char
  quote : Char
  value : String
  isGap : gap.all Text.isBlank = true
  isQuote : quote = '\'' ∨ quote = '"'

namespace Quotation

/-- The characters between the quotes. -/
def body (quotation : Quotation) : List Char :=
  quotation.value.toList.flatMap (Literal.escapeBetween quotation.quote)

/-- The token of a string. -/
def lexeme (quotation : Quotation) : Lexeme :=
  ⟨.string, String.ofList (quotation.quote :: (quotation.body ++ [quotation.quote]))⟩

/-- A print tag that holds nothing but strings. -/
def printTag (quotations : List Quotation) (gap : List Char) : String :=
  String.ofList ("\x7b\x7b".toList ++
    (quotations.flatMap (fun quotation => quotation.gap ++ quotation.lexeme.text.toList) ++
      (gap ++ "\x7d\x7d".toList)))

theorem spells_body (quotation : Quotation) :
    Spells quotation.quote quotation.body quotation.value.toList :=
  Literal.spells_flatMap_escapeBetween quotation.isQuote _

theorem stringValue_lexeme (quotation : Quotation) :
    String.ofList (Literal.stringValue quotation.lexeme.text.toList) = quotation.value := by
  rw [lexeme, String.toList_ofList,
    Literal.stringValue_of_closed quotation.isQuote quotation.spells_body, String.ofList_toList]

/-- Strings are cut apart whatever stands in them, and whether or not there are blanks between
them. -/
theorem cuts (quotations : List Quotation) (after : List Char) :
    Lexeme.Cuts after (quotations.map lexeme)
      (quotations.flatMap (fun quotation => quotation.gap ++ quotation.lexeme.text.toList) ++
        after) := by
  induction quotations with
  | nil => exact .nil
  | cons quotation quotations ih =>
      rw [List.map_cons, List.flatMap_cons, List.append_assoc, List.append_assoc]
      exact .cons quotation.isGap (.string quotation.isQuote quotation.spells_body.quotedBody) ih

variable {stream : TokenStream} {start : Nat}

/-- Strings are read as one expression. -/
theorem literal_eq (quotations : List Quotation) (isString : (stream.get start).kind = .string)
    (shows : stream.Shows start (quotations.map lexeme))
    (ends : (stream.get (start + quotations.length)).kind ≠ .string) :
    Expr.literal stream start =
      .ok (.string ⟨(stream.get start).line, stream.sourceName⟩
        (String.join (quotations.map value))) (start + quotations.length) := by
  have sameValues : quotations.map value = (quotations.map lexeme).map fun lexeme =>
      String.ofList (Literal.stringValue lexeme.text.toList) := by
    simp [stringValue_lexeme]
  have areStrings : ∀ written ∈ quotations.map lexeme, written.kind = .string := by
    simp [lexeme]
  rw [← quotations.length_map lexeme] at ends
  rw [Expr.literal, Reading.current_bind, Reading.originAt_bind, isString]
  dsimp only
  rw [Expr.stringLiteral, bind_eq_of_ok (Expr.loop_stringStep_eq shows areStrings ends),
    String.empty_append, ← sameValues, List.length_map]
  rfl

end Quotation

/-- The lexer and the parser agree on strings. Every string token of a text ends with its own
closing quote, or takes the rest of the text and is reported, and its value is spelt by all that
stands between its ends. Texts that are written as strings next to each other in a print tag are
compiled to the one text that they make up, and nothing is found wrong, unless the build has no
second level of nesting for the expression in a tag. -/
theorem strings_read_as_cut [Limits] :
    (∀ {dialect : Dialect} {name : Option String} {source : String} {result : Tokenization},
      tokenize dialect name source = some result → ∀ token ∈ result.tokens,
        token.kind = .string → token.ReadsString source.utf8ByteSize result.diagnostics) ∧
    (1 < maxDepth → ∀ {settings : Settings}, settings.dialect = {} →
      ∀ (registry : Registry) (name : Option String) {quotations : List Quotation},
        quotations ≠ [] → ∀ {gap : List Char}, gap.all Text.isBlank = true →
          ∃ compilation origin origin',
            compile settings registry name (Quotation.printTag quotations gap) = .ok compilation ∧
            compilation.isClean = true ∧ compilation.template.body =
              [.output origin (.string origin' (String.join (quotations.map (·.value))))]) := by
  refine ⟨fun cut token member isString => Lexer.readsString_of_tokenize cut member isString, ?_⟩
  intro twoLevels settings isDefault registry name quotations nonempty gap isGap
  have reads (stream : TokenStream)
      (isTag : stream.IsTag name (Quotation.printTag quotations gap)
        (quotations.map Quotation.lexeme)) :
      (stream.get 1).kind.opens? = some .primary ∧
      Level.primary.rule (Expr.deeper (maxDepth - 2)) stream 1 =
        .ok (.string ⟨(stream.get 1).line, stream.sourceName⟩
          (String.join (quotations.map (·.value))))
          (1 + (quotations.map Quotation.lexeme).length) := by
    rcases isTag.inner with ⟨shows, closes⟩
    have isString : (stream.get 1).kind = .string := by
      rcases List.exists_cons_of_ne_nil nonempty with ⟨quotation, others, rfl⟩
      exact shows.1.kind
    rw [List.length_map] at closes ⊢
    have ends : (stream.get (1 + quotations.length)).kind ≠ .string := by
      rw [closes]
      decide
    constructor
    · rw [isString]
      rfl
    · change Expr.primary (Expr.deeper (maxDepth - 2)) stream 1 = _
      rw [Expr.primary_eq_of_isLiteral _ (by rw [isString]; rfl),
        Quotation.literal_eq quotations isString shows ends]
  rcases exists_compile_of_ok registry isGap (Quotation.cuts quotations _) String.toList_ofList
    isDefault name twoLevels reads with ⟨stream, compilation, _, compiled, isClean, sameTemplate⟩
  exact ⟨compilation, _, _, compiled, isClean, congrArg Template.body sameTemplate⟩

/-- Delimiters, line breaks and the other quote may stand in a string, and a backslash at its
end. -/
theorem strings_read_as_cut_delimiters :
    let quotations : List Quotation :=
      [⟨[' '], '\'', "\x7d\x7d \"\n", by decide, Or.inl rfl⟩,
        ⟨[' '], '"', "\x7b% 'it'\\", by decide, Or.inr rfl⟩]
    Quotation.printTag quotations [' '] =
        "\x7b\x7b '\x7d\x7d \"\n' \"\x7b% 'it'\\\\\" \x7d\x7d" ∧
      (∃ result, tokenize {} none (Quotation.printTag quotations [' ']) = some result ∧
        ∀ token ∈ result.tokens, token.kind = .string → token.ReadsString
          (Quotation.printTag quotations [' ']).utf8ByteSize result.diagnostics) ∧
      ∃ compilation origin origin',
        compile {} {} none (Quotation.printTag quotations [' ']) = .ok compilation ∧
        compilation.isClean = true ∧ compilation.template.body =
          [.output origin (.string origin' "\x7d\x7d \"\n\x7b% 'it'\\")] := by
  intro quotations
  have nonempty : quotations ≠ [] := List.cons_ne_nil _ _
  obtain ⟨result, cut⟩ : ∃ result,
      tokenize {} none (Quotation.printTag quotations [' ']) = some result :=
    Lexer.exists_tokenize (by decide) Lexer.not_emptyLineComment_default _
  exact ⟨by decide, ⟨result, cut, strings_read_as_cut.1 cut⟩,
    strings_read_as_cut.2 (by decide) rfl {} none nonempty (by decide)⟩

end Stencil

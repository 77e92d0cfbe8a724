import Stencil.Proofs.Lexer.Munching

/-!
# The words that are names

A word that the lexer takes for a name is neither reserved nor a literal, and a token that is an
integer consists of digits. Both are part of what is known of every token inside of a tag.
-/

namespace Stencil

/-- A token that is a name or an integer has a text of its class. -/
structure Token.IsProper (token : Token) : Prop where
  isName : token.kind = .name → Expr.isFreeName token.text = true
  isInteger : token.kind = .integer → token.text.toList.all Char.isDigit = true

/-- A word is free if it is spelled like no reserved word and no literal. -/
theorem isReserved_eq_false {text : List Char}
    (notKeyword : ∀ word : Keyword, text ≠ word.spelling.toList)
    (notLiteral : text ∉ ["true".toList, "false".toList, "null".toList, "None".toList]) :
    isReserved (String.ofList text) = false := by
  have different {word : String} (differ : text ≠ word.toList) : String.ofList text ≠ word := by
    rintro rfl
    exact differ String.toList_ofList.symm
  simp only [List.mem_cons, List.not_mem_nil, or_false, not_or] at notLiteral
  rcases notLiteral with ⟨notTrue, notFalse, notNull, notNone⟩
  have noKeyword : Keyword.ofSpelling? (String.ofList text) = none := by
    rw [Keyword.ofSpelling?, List.find?_eq_none]
    intro word _
    simpa using (different (notKeyword word)).symm
  simp [isReserved, noKeyword, LiteralWord.ofSpelling?, different notTrue, different notFalse,
    different notNull, different notNone]

namespace Lexer

theorem isProper_of_ne {token : Token} (notName : token.kind ≠ .name)
    (notInteger : token.kind ≠ .integer) : token.IsProper :=
  ⟨fun isName => absurd isName notName, fun isInteger => absurd isInteger notInteger⟩

variable [Limits]

/-- Every token that a text is cut into is proper. -/
theorem isProper_of_tokenize {dialect : Dialect} {sourceName : Option String} {source : String}
    {result : Tokenization} (cut : tokenize dialect sourceName source = some result) :
    ∀ token ∈ result.tokens, token.IsProper := by
  intro token isToken
  refine ⟨fun isName => ?_, fun isInteger => ?_⟩
  · rcases isMunched_of_tokenize cut isToken (by rw [isName]; rfl) with ⟨_, after, -, -, munches⟩
    rw [isName] at munches
    rcases munches with ⟨⟨isWord, -⟩, notKeyword, notLiteral⟩
    have free := isReserved_eq_false notKeyword notLiteral
    rw [String.ofList_toList] at free
    rw [Expr.isFreeName, isWord, free]
    rfl
  · rcases isMunched_of_tokenize cut isToken (by rw [isInteger]; rfl) with
      ⟨_, after, -, -, munches⟩
    rw [isInteger] at munches
    exact List.all_eq_true.2 munches.1.2

end Lexer

end Stencil

import Stencil.Proofs.Lexer.Pieces
import Stencil.Proofs.Lexer.Steps

/-!
# Tokens that stand close together

Tokens inside a print tag need no spaces between them where the next character does not go on with
the token before it. A string ends with its quote and a bracket or a point by itself; a word or a
number ends before a character that belongs to neither. Any blanks may stand before a token.
-/

namespace Stencil

open Lexer

/-- A token that is written as its text does not go on with the character after it, if there is
one. -/
inductive Lexeme.EndsBefore (next : Option Char) : Lexeme → Prop where
  | word {spelling : String} (isWord : Expr.isWord spelling.toList = true)
      (ends : ∀ char ∈ next, isWordChar char = false) : EndsBefore next (Lexeme.word spelling)
  | integer {digits : List Char} (nonempty : digits ≠ [])
      (areDigits : ∀ char ∈ digits, char.isDigit = true)
      (ends : ∀ char ∈ next, char.isDigit = false ∧ char ∉ ['.', 'e', 'E']) :
      EndsBefore next ⟨.integer, String.ofList digits⟩
  | float {whole fraction : List Char} (nonempty : whole ≠ []) (hasFraction : fraction ≠ [])
      (areDigits : ∀ char ∈ whole ++ fraction, char.isDigit = true)
      (ends : ∀ char ∈ next, char.isDigit = false ∧ char ∉ ['e', 'E']) :
      EndsBefore next ⟨.float, String.ofList (whole ++ '.' :: fraction)⟩
  | mark {mark : Char} (isMark : mark = '.' ∨ mark = '[' ∨ mark = ']') :
      EndsBefore next (Lexeme.symbol (String.singleton mark))
  | string {quote : Char} {body : List Char} (isQuote : quote = '\'' ∨ quote = '"')
      (isBody : QuotedBody quote body) :
      EndsBefore next ⟨.string, String.ofList (quote :: (body ++ [quote]))⟩

/-- A text is cut into tokens, with any blanks before each of them, up to a rest of it. -/
inductive Lexeme.Cuts (after : List Char) : List Lexeme → List Char → Prop where
  | nil : Cuts after [] after
  | cons {gap text : List Char} {lexeme : Lexeme} {lexemes : List Lexeme}
      (blank : gap.all Text.isBlank = true) (ends : lexeme.EndsBefore text.head?)
      (rest : Cuts after lexemes text) :
      Cuts after (lexeme :: lexemes) (gap ++ (lexeme.text.toList ++ text))

/-- No blanks are needed before a token. -/
theorem Lexeme.Cuts.close {after text : List Char} {lexeme : Lexeme} {lexemes : List Lexeme}
    (ends : lexeme.EndsBefore text.head?) (rest : Cuts after lexemes text) :
    Cuts after (lexeme :: lexemes) (lexeme.text.toList ++ text) := by
  have noGap : [].all Text.isBlank = true := rfl
  exact .cons noGap ends rest

/-- A point or a bracket stands by itself. -/
theorem Lexeme.Cuts.mark {mark : Char} {after text : List Char} {lexemes : List Lexeme}
    (isMark : mark = '.' ∨ mark = '[' ∨ mark = ']') (rest : Cuts after lexemes text) :
    Cuts after (Lexeme.symbol (String.singleton mark) :: lexemes) (mark :: text) := by
  have isSingle : mark :: text =
      (Lexeme.symbol (String.singleton mark)).text.toList ++ text := by
    simp [Lexeme.symbol]
  rw [isSingle]
  exact .close (.mark isMark) rest

theorem Lexeme.EndsBefore.exists_cons {next : Option Char} {lexeme : Lexeme}
    (ends : lexeme.EndsBefore next) :
    ∃ char text, lexeme.text.toList = char :: text ∧ Text.isBlank char = false ∧ char ≠ '-' := by
  have isVisible {char : Char} (above : 0x20 < char.toNat) (below : char.toNat < 0x7F) :=
    Text.isBlank_eq_false above below
  have isDigitFirst {digits : List Char} {char : Char} {text : List Char}
      (areDigits : ∀ char ∈ digits, char.isDigit = true) (same : digits = char :: text) :
      Text.isBlank char = false ∧ char ≠ '-' := by
    rcases toNat_of_isDigit (areDigits char (same ▸ List.mem_cons_self)) with ⟨above, below⟩
    exact ⟨isVisible (by omega) (by omega), ne_of_toNat_outside above below (by decide)⟩
  cases ends with
  | word isWord ends =>
      rcases exists_cons_of_isWord isWord with ⟨char, text, same, isStart⟩
      rcases toNat_of_isWordStart isStart with ⟨above, below⟩
      exact ⟨char, text, same, isVisible (by omega) (by omega),
        ne_of_toNat_outside above below (by decide)⟩
  | @integer digits nonempty areDigits ends =>
      rcases List.exists_cons_of_ne_nil nonempty with ⟨char, text, same⟩
      exact ⟨char, text, by rw [String.toList_ofList, same], isDigitFirst areDigits same⟩
  | @float whole fraction nonempty hasFraction areDigits ends =>
      rcases List.exists_cons_of_ne_nil nonempty with ⟨char, text, same⟩
      rw [List.forall_mem_append] at areDigits
      exact ⟨char, _, by rw [String.toList_ofList, same, List.cons_append],
        isDigitFirst areDigits.1 same⟩
  | @mark mark isMark =>
      exact ⟨mark, [], by simp [Lexeme.symbol], by rcases isMark with rfl | rfl | rfl <;> decide⟩
  | @string quote body isQuote isBody =>
      exact ⟨quote, _, String.toList_ofList, by rcases isQuote with rfl | rfl <;> decide⟩

theorem Lexeme.EndsBefore.isSignificant {next : Option Char} {lexeme : Lexeme}
    (ends : lexeme.EndsBefore next) : lexeme.kind.isSignificant = true := by
  cases ends with
  | word =>
      unfold Lexeme.word wordKind
      dsimp only
      repeat' split
      all_goals rfl
  | mark isMark => rcases isMark with rfl | rfl | rfl <;> rfl
  | integer | float | string => rfl

namespace Lexer

variable {sourceName : Option String} {state : State} {kind : TagKind} {brackets : Nat}
  {text after : List Char}

/-! ### The ends of words and numbers -/

theorem number_append_float {whole fraction : List Char} (hasFraction : fraction ≠ [])
    (areDigits : ∀ char ∈ whole ++ fraction, char.isDigit = true)
    (ends : ∀ char ∈ after.head?, char.isDigit = false ∧ char ∉ ['e', 'E']) :
    number (whole ++ '.' :: fraction ++ after) =
      (.float, (whole ++ '.' :: fraction).length) := by
  rw [List.forall_mem_append] at areDigits
  have wholeCount : digitCount (whole ++ '.' :: (fraction ++ after)) = whole.length :=
    digitCount_append areDigits.1 fun char isFirst => by cases isFirst; rfl
  have fractionCount := digitCount_append areDigits.2 fun char isFirst => (ends char isFirst).1
  have isFraction : fractionLength ('.' :: (fraction ++ after)) = fraction.length + 1 := by
    rw [fractionLength, fractionCount, if_neg (by simpa using hasFraction)]
  have noExponent := exponentLength_eq_zero fun char isFirst => (ends char isFirst).2
  have afterFraction : (whole ++ '.' :: (fraction ++ after)).drop
      (whole.length + (fraction.length + 1)) = after := by
    rw [← List.drop_drop, List.drop_left, List.drop_succ_cons, List.drop_left]
  rw [List.append_assoc, List.cons_append]
  simp [number, wholeCount, isFraction, afterFraction, noExponent]

/-! ### Single tokens -/

/-- Points and brackets are no part of a longer mark. -/
theorem symbol?_cons {mark : Char} (isMark : mark = '.' ∨ mark = '[' ∨ mark = ']')
    (after : List Char) :
    symbol? (mark :: after) = some ((Lexeme.symbol (String.singleton mark)).kind, 1) := by
  have isSymbol : Token.Kind.ofSymbol? (String.ofList [mark]) =
      some (Lexeme.symbol (String.singleton mark)).kind := by
    rcases isMark with rfl | rfl | rfl <;> rfl
  cases after with
  | nil => rw [symbol?, List.take_of_length_le (by simp), isSymbol]; rfl
  | cons char after =>
      have short : ∀ symbol ∈ Token.Kind.symbols,
          symbol.1.toList.head? = some mark → symbol.1.toList.length = 1 := by
        rcases isMark with rfl | rfl | rfl <;> decide
      have notLonger : Token.Kind.ofSymbol? (String.ofList [mark, char]) = none := by
        rw [Token.Kind.ofSymbol?, Option.map_eq_none_iff, List.find?_eq_none]
        intro symbol isListed same
        have written : symbol.1.toList = [mark, char] := by simp_all
        simpa [written] using short symbol isListed (by rw [written]; rfl)
      rw [symbol?, List.take_succ_cons, List.take_succ_cons, List.take_zero, notLonger,
        List.take_succ_cons, List.take_zero, isSymbol]
      rfl

variable [Limits]

theorem step_mark_alone {mark : Char} (isMark : mark = '.' ∨ mark = '[' ∨ mark = ']')
    (inTag : state.mode = .tag .variable brackets) (shows : state.rest = mark :: after) :
    step {} sourceName state =
      (state.emit sourceName (Lexeme.symbol (String.singleton mark)).kind 1).enter
        (.tag .variable (bracketsAfter (Lexeme.symbol (String.singleton mark)).kind brackets)) := by
  have notOther : mark ∉ ['-', '%', '\x7d'] ∧ Text.isBlank mark = false ∧
      ¬(mark = '\'' ∨ mark = '"') ∧ mark.isDigit = false ∧ isWordStart mark = false := by
    rcases isMark with rfl | rfl | rfl <;> decide
  rcases notOther with ⟨notEnd, notBlank, notQuote, notDigit, notWord⟩
  rw [step_eq_takeLexeme (by decide) inTag shows notEnd, takeLexeme, notBlank, notDigit, notWord,
    if_neg (by simp), if_neg notQuote, if_neg (by simp), if_neg (by simp), shows,
    symbol?_cons isMark]

/-! ### Tokens of a print tag -/

/-- A token that does not go on is found again. -/
theorem step_of_endsBefore {lexeme : Lexeme} (ends : lexeme.EndsBefore after.head?)
    (inTag : state.mode = .tag .variable brackets)
    (shows : state.rest = lexeme.text.toList ++ after) :
    step {} sourceName state =
      (state.emit sourceName lexeme.kind lexeme.text.toList.length).enter
        (.tag .variable (bracketsAfter lexeme.kind brackets)) := by
  cases ends with
  | word isWord ends =>
      rw [Lexeme.word, bracketsAfter_wordKind, State.emit_enter_self inTag]
      exact step_word isWord ends (by decide) inTag shows
  | @integer digits nonempty areDigits ends =>
      rw [String.toList_ofList] at shows ⊢
      rw [step_digits nonempty areDigits ends (by decide) inTag shows]
      exact (State.emit_enter_self inTag _ _).symm
  | @float whole fraction nonempty hasFraction areDigits ends =>
      rw [String.toList_ofList] at shows ⊢
      rcases List.exists_cons_of_ne_nil nonempty with ⟨char, text, same⟩
      have found : number state.rest = (.float, (whole ++ '.' :: fraction).length) := by
        rw [shows, number_append_float hasFraction areDigits ends]
      have isFirst : state.rest = char :: (text ++ '.' :: fraction ++ after) := by
        rw [shows, same]
        rfl
      have isDigit := areDigits char (by simp [same])
      rw [step_number isDigit found (by decide) inTag isFirst]
      exact (State.emit_enter_self inTag _ _).symm
  | @mark mark isMark =>
      have isFirst : state.rest = mark :: after := by simpa [Lexeme.symbol] using shows
      rw [step_mark_alone isMark inTag isFirst]
      simp [Lexeme.symbol]
  | @string quote body isQuote isBody =>
      rw [String.toList_ofList] at shows ⊢
      rw [step_quoted isQuote isBody (by decide) inTag shows]
      exact (State.emit_enter_self inTag _ _).symm

variable (sourceName)

/-- Blanks before something else are passed over, if there are any. -/
theorem exists_finds_gap {gap : List Char} (isGap : gap.all Text.isBlank = true)
    (notBlank : ∀ char ∈ after.head?, Text.isBlank char = false)
    (inTag : state.mode = .tag .variable brackets) (shows : state.rest = gap ++ after) :
    ∃ next, Finds {} sourceName state [] next ∧ next.mode = .tag .variable brackets ∧
      next.rest = after := by
  cases gap with
  | nil => exact ⟨state, .refl state, inTag, shows⟩
  | cons char gap =>
      refine exists_finds_emit .whitespace (by simp) shows ?_ rfl
      rw [step_blanks (by decide) inTag isGap shows notBlank]
      exact (State.emit_enter_self inTag _ _).symm

/-- A token with blanks before it is found again. -/
theorem exists_finds_endsBefore {gap : List Char} {lexeme : Lexeme}
    (isGap : gap.all Text.isBlank = true) (ends : lexeme.EndsBefore after.head?)
    (inTag : state.mode = .tag .variable brackets)
    (shows : state.rest = gap ++ (lexeme.text.toList ++ after)) :
    ∃ next brackets', Finds {} sourceName state [lexeme] next ∧
      next.mode = .tag .variable brackets' ∧ next.rest = after := by
  rcases ends.exists_cons with ⟨char, text, same, notBlank, -⟩
  have notBlank : ∀ char ∈ (lexeme.text.toList ++ after).head?, Text.isBlank char = false := by
    rw [same]
    rintro _ ⟨⟩
    exact notBlank
  rcases exists_finds_gap sourceName isGap notBlank inTag shows with ⟨middle, blanks, inTag, shows⟩
  have significant : [lexeme] = if lexeme.kind.isSignificant then
      [⟨lexeme.kind, String.ofList lexeme.text.toList⟩] else [] := by
    rw [if_pos ends.isSignificant, String.ofList_toList]
  obtain ⟨next, found, inTag, shows⟩ := exists_finds_emit lexeme.kind (by simp [same]) shows
    (step_of_endsBefore ends inTag shows) significant
  exact ⟨next, _, blanks.trans found, inTag, shows⟩

/-- Tokens that stand close together are found again. -/
theorem exists_finds_cuts {lexemes : List Lexeme} (cuts : Lexeme.Cuts after lexemes text)
    (inTag : state.mode = .tag .variable brackets) (shows : state.rest = text) :
    ∃ next brackets', Finds {} sourceName state lexemes next ∧
      next.mode = .tag .variable brackets' ∧ next.rest = after := by
  induction cuts generalizing state brackets with
  | nil => exact ⟨state, brackets, .refl state, inTag, shows⟩
  | cons isGap ends _ ih =>
      rcases exists_finds_endsBefore sourceName isGap ends inTag shows with
        ⟨middle, _, found, inTag, shows⟩
      rcases ih inTag shows with ⟨next, brackets', foundRest, inTag, shows⟩
      exact ⟨next, brackets', found.trans foundRest, inTag, shows⟩

/-! ### Print tags -/

omit [Limits] in
theorem head?_gap_append_ne_dash {gap : List Char} (isGap : gap.all Text.isBlank = true)
    (notDash : text.head? ≠ some '-') : (gap ++ text).head? ≠ some '-' := by
  cases gap with
  | nil => exact notDash
  | cons char gap =>
      have isBlank : Text.isBlank char = true := List.all_eq_true.1 isGap char List.mem_cons_self
      rintro ⟨⟩
      exact absurd isBlank (by decide)

omit [Limits] in
theorem head?_ne_dash_of_cuts {lexemes : List Lexeme} (cuts : Lexeme.Cuts after lexemes text)
    (notDash : after.head? ≠ some '-') : text.head? ≠ some '-' := by
  cases cuts with
  | nil => exact notDash
  | cons isGap ends rest =>
      rcases ends.exists_cons with ⟨char, text, same, -, isOther⟩
      exact head?_gap_append_ne_dash isGap (by simpa [same] using isOther)

/-- The token that opens a print tag is found, if no dash follows. -/
theorem exists_finds_variableBegin_before (inText : state.mode = .text false false)
    (notDash : after.head? ≠ some '-') (shows : state.rest = "\x7b\x7b".toList ++ after) :
    ∃ next, Finds {} sourceName state [⟨.variableBegin, "\x7b\x7b"⟩] next ∧
      next.mode = .tag .variable 0 ∧ next.rest = after := by
  have noDash : Text.startsWith ['-'] after = false := by
    cases after with
    | nil => rfl
    | cons char after =>
        have isOther : '-' ≠ char := fun same => notDash (by rw [← same]; rfl)
        simp [Text.startsWith, Text.dropStart?, isOther]
  have found : delimiter? {} ("\x7b\x7b".toList ++ after) = some (.variable 2 false) := by
    refine Option.bind_eq_some_iff.2 ⟨("\x7b\x7b", .variable), ?_, ?_⟩
    · rw [starts_default]
      rfl
    · change (some (Opening.variable (2 + (Text.startsWith ['-'] after).toNat)
        (Text.startsWith ['-'] after))) = _
      rw [noDash]
      rfl
  refine exists_finds_emit .variableBegin (by decide) shows ?_ rfl
  rw [step_of_text inText]
  simp only [stepText, Bool.false_eq_true, if_false, shows, opening?_default _ found]
  rfl

/-- A print tag is cut into the tokens that stand in it. -/
theorem exists_tokenize_of_cuts {source : String} {gap : List Char} {lexemes : List Lexeme}
    (isGap : gap.all Text.isBlank = true)
    (cuts : Lexeme.Cuts (gap ++ "\x7d\x7d".toList) lexemes text)
    (shows : source.toList = "\x7b\x7b".toList ++ text) :
    ∃ result, tokenize {} sourceName source = some result ∧ result.diagnostics = [] ∧
      Token.written (Token.closed result.tokens) = ⟨.variableBegin, "\x7b\x7b"⟩ :: lexemes ++
        [⟨.variableEnd, "\x7d\x7d"⟩, ⟨.eof, ""⟩] := by
  have inText : (State.ofSource source.toList).mode = .text false false := rfl
  have notDash : text.head? ≠ some '-' :=
    head?_ne_dash_of_cuts cuts (head?_gap_append_ne_dash isGap (by decide))
  rcases exists_finds_variableBegin_before sourceName inText notDash shows with
    ⟨opened, opens, inTag, showsInner⟩
  rcases exists_finds_cuts sourceName cuts inTag showsInner with
    ⟨inner, brackets, found, inTag, showsEnd⟩
  have notBlank : ∀ char ∈ ("\x7d\x7d".toList).head?, Text.isBlank char = false := by
    rintro _ ⟨⟩
    decide
  rcases exists_finds_gap sourceName isGap notBlank inTag showsEnd with
    ⟨atEnd, blanks, inTag, showsEnd⟩
  rcases exists_finds_variableEnd sourceName inTag
    (showsEnd.trans (List.append_nil _).symm) with ⟨last, closes, inText, noRest⟩
  have finds := (opens.trans found).trans (blanks.trans closes)
  rcases exists_tokenize_of_finds sourceName finds inText noRest with ⟨result, cut, clean, written⟩
  refine ⟨result, cut, clean, ?_⟩
  simpa using written

end Lexer

end Stencil

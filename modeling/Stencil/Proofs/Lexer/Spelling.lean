import Stencil.Proofs.Expr.Printing
import Stencil.Proofs.Lexer.Quoted
import Stencil.Proofs.Lexer.Termination
import Stencil.Proofs.Literal.Writing
import Stencil.Token.Stream

/-!
# Cutting written tokens

Inside a tag, a token with a space after it is found again as it was written: a mark, a word, an
integer or a string ends before the space, and none of them is taken for the end of the tag. Tokens
with one space before each of them are therefore cut into these tokens and blanks.

What a walk has found is described up to blanks, and without the positions of tokens.
-/

namespace Stencil

namespace Lexeme

/-- Tokens that have a written form inside a tag. -/
inductive IsSpelt : Lexeme → Prop where
  | mark {spelling : String} (isMark : spelling ∈ Token.Kind.symbols.map Prod.fst) :
      IsSpelt (symbol spelling)
  | word {spelling : String} (isWord : Expr.isWord spelling.toList = true) :
      IsSpelt (word spelling)
  | string (value : String) : IsSpelt ⟨.string, Literal.quote value⟩
  | integer (value : Int) : IsSpelt ⟨.integer, Literal.decimal value⟩

/-- Every one of several tokens has a written form. -/
def AreSpelt (lexemes : List Lexeme) : Prop :=
  ∀ lexeme ∈ lexemes, lexeme.IsSpelt

theorem areSpelt_nil : AreSpelt [] := by
  simp [AreSpelt]

theorem areSpelt_cons {lexeme : Lexeme} {lexemes : List Lexeme} :
    AreSpelt (lexeme :: lexemes) ↔ lexeme.IsSpelt ∧ AreSpelt lexemes :=
  List.forall_mem_cons

theorem areSpelt_append {first second : List Lexeme} :
    AreSpelt (first ++ second) ↔ AreSpelt first ∧ AreSpelt second :=
  List.forall_mem_append

theorem areSpelt_single {lexeme : Lexeme} (spelt : lexeme.IsSpelt) : AreSpelt [lexeme] :=
  areSpelt_cons.2 ⟨spelt, areSpelt_nil⟩

/-- A text with a space before each token. -/
def indented (lexemes : List Lexeme) : List Char :=
  lexemes.flatMap fun lexeme => ' ' :: lexeme.text.toList

theorem toList_spaced (lexeme : Lexeme) (lexemes : List Lexeme) :
    ' ' :: (spaced (lexeme :: lexemes)).toList = indented (lexeme :: lexemes) := by
  induction lexemes generalizing lexeme with
  | nil => simp [spaced, indented, Text.join]
  | cons second lexemes ih =>
      have joined : spaced (lexeme :: second :: lexemes) =
          lexeme.text ++ " " ++ spaced (second :: lexemes) := rfl
      rw [joined, indented, List.flatMap_cons, ← indented, ← ih]
      simp

theorem exists_indented_append (lexemes : List Lexeme) (after : List Char) :
    ∃ further, indented lexemes ++ ' ' :: after = ' ' :: further := by
  cases lexemes <;> exact ⟨_, rfl⟩

end Lexeme

/-- A token as it is written. -/
def Token.lexeme (token : Token) : Lexeme :=
  ⟨token.kind, token.text⟩

/-- The significant ones of several tokens, as they are written. -/
def Token.written (tokens : List Token) : List Lexeme :=
  (tokens.filter (·.kind.isSignificant)).map lexeme

namespace Text

/-- Visible ASCII characters are not blank. -/
theorem isBlank_eq_false {char : Char} (above : 0x20 < char.toNat) (below : char.toNat < 0x7F) :
    isBlank char = false := by
  simp [isBlank, isWithin, blankRanges]
  omega

end Text

namespace Lexer

variable {sourceName : Option String} {state : State} {kind : TagKind} {brackets : Nat}
  {char : Char} {text after : List Char}

/-! ### Words, numbers and strings -/

theorem toNat_of_isWordStart (isStart : isWordStart char = true) :
    65 ≤ char.toNat ∧ char.toNat ≤ 122 := by
  simp only [isWordStart, Char.isAlpha, Char.isUpper, Char.isLower, Bool.or_eq_true,
    decide_eq_true_eq, Bool.and_eq_true, UInt32.le_iff_toNat_le, ge_iff_le] at isStart
  rcases isStart with (⟨above, below⟩ | ⟨above, below⟩) | rfl
  · exact ⟨above, Nat.le_trans below (by decide)⟩
  · exact ⟨Nat.le_trans (by decide) above, below⟩
  · decide

theorem toNat_of_isDigit (isDigit : char.isDigit = true) : 48 ≤ char.toNat ∧ char.toNat ≤ 57 := by
  simp only [Char.isDigit, Bool.and_eq_true, decide_eq_true_eq, UInt32.le_iff_toNat_le,
    ge_iff_le] at isDigit
  exact isDigit

theorem ne_of_toNat_outside {low high : Nat} {other : Char} (above : low ≤ char.toNat)
    (below : char.toNat ≤ high) (outside : other.toNat < low ∨ high < other.toNat) :
    char ≠ other := by
  rintro rfl
  omega

theorem exists_cons_of_isWord {spelling : List Char} (isWord : Expr.isWord spelling = true) :
    ∃ char text, spelling = char :: text ∧ isWordStart char = true := by
  cases spelling with
  | nil => simp [Expr.isWord] at isWord
  | cons char text =>
      rw [Expr.isWord, Bool.and_eq_true] at isWord
      exact ⟨char, text, rfl, isWord.1⟩

theorem isWordChar_of_isWordStart (isStart : isWordStart char = true) : isWordChar char = true := by
  simp only [isWordStart, isWordChar, Char.isAlphanum, Bool.or_eq_true] at isStart ⊢
  exact isStart.imp_left Or.inl

theorem isWordChar_of_isWord {spelling : List Char} (isWord : Expr.isWord spelling = true) :
    ∀ char ∈ spelling, isWordChar char = true := by
  cases spelling with
  | nil => simp
  | cons char text =>
      rw [Expr.isWord, Bool.and_eq_true, List.all_eq_true] at isWord
      exact List.forall_mem_cons.2 ⟨isWordChar_of_isWordStart isWord.1, isWord.2⟩

theorem takeWhile_append_of_ends {keep : Char → Bool} (kept : ∀ char ∈ text, keep char = true)
    (ends : ∀ char ∈ after.head?, keep char = false) : (text ++ after).takeWhile keep = text := by
  rw [List.takeWhile_append_of_pos kept]
  cases after with
  | nil => exact List.append_nil text
  | cons char after =>
      rw [List.takeWhile_cons_of_neg (by simp [ends char rfl]), List.append_nil]

theorem word_append (isWord : ∀ char ∈ text, isWordChar char = true)
    (ends : ∀ char ∈ after.head?, isWordChar char = false) :
    word (text ++ after) = (wordKind (String.ofList text), text.length) := by
  simp only [word, takeWhile_append_of_ends isWord ends]

theorem digitCount_append (areDigits : ∀ char ∈ text, char.isDigit = true)
    (ends : ∀ char ∈ after.head?, char.isDigit = false) :
    digitCount (text ++ after) = text.length := by
  rw [digitCount, takeWhile_append_of_ends areDigits ends]

theorem exponentLength_eq_zero (ends : ∀ char ∈ after.head?, char ∉ ['e', 'E']) :
    exponentLength after = 0 := by
  unfold exponentLength
  split
  · exact absurd (ends 'e' rfl) (by simp)
  · exact absurd (ends 'E' rfl) (by simp)
  · rfl

theorem fractionLength_eq_zero (ends : ∀ char ∈ after.head?, char ≠ '.') :
    fractionLength after = 0 := by
  unfold fractionLength
  split
  · exact absurd rfl (ends '.' rfl)
  · rfl

theorem number_append_integer (areDigits : ∀ char ∈ text, char.isDigit = true)
    (ends : ∀ char ∈ after.head?, char.isDigit = false ∧ char ∉ ['.', 'e', 'E']) :
    number (text ++ after) = (.integer, text.length) := by
  have noFraction : fractionLength after = 0 := fractionLength_eq_zero fun char isFirst isPoint =>
    (ends char isFirst).2 (by simp [isPoint])
  have noExponent : exponentLength after = 0 := exponentLength_eq_zero fun char isFirst isMark =>
    (ends char isFirst).2 (by simp_all)
  have allDigits := digitCount_append areDigits fun char isFirst => (ends char isFirst).1
  simp [number, allDigits, noFraction, noExponent]

/-- The escapes that a string is written with take no quote for its end. -/
theorem QuotedBody.flatMap_escape (value : List Char) :
    QuotedBody '"' (value.flatMap Literal.escape) := by
  induction value with
  | nil => exact .nil
  | cons char value ih =>
      rw [List.flatMap_cons]
      unfold Literal.escape
      split
      · exact .escaped 'n' ih
      · split
        · exact .escaped 't' ih
        · split
          · exact .escaped 'r' ih
          · split
            · exact .escaped char ih
            · next notMark =>
              rw [not_or] at notMark
              exact .plain notMark.1 notMark.2 ih

/-! ### Single tokens -/

variable [Limits]

/-- A step inside of a tag where the tag does not end. -/
theorem step_eq_takeLexeme (notLine : kind ≠ .line) (inTag : state.mode = .tag kind brackets)
    (shows : state.rest = char :: text) (notEnd : char ∉ ['-', '%', '\x7d']) :
    step {} sourceName state = takeLexeme sourceName kind brackets char state := by
  simp only [List.mem_cons, List.not_mem_nil, or_false, not_or] at notEnd
  rcases notEnd with ⟨notDash, notPercent, notBrace⟩
  have goesOn : Text.startsWith (closer {} kind).1 (char :: text) = false := by
    obtain _ | _ | _ := kind <;>
      simp [closer, Text.startsWith, Text.dropStart?, Ne.symm notPercent, Ne.symm notBrace]
  rw [step, inTag]
  simp [stepTag, shows, notLine, notDash, goesOn]

/-- A mark is found again. -/
theorem step_mark {spelling : String} (isMark : spelling ∈ Token.Kind.symbols.map Prod.fst)
    (notLine : kind ≠ .line) (inTag : state.mode = .tag kind brackets)
    (shows : state.rest = spelling.toList ++ ' ' :: after) :
    step {} sourceName state =
      (state.emit sourceName (Lexeme.symbol spelling).kind spelling.toList.length).enter
        (.tag kind (bracketsAfter (Lexeme.symbol spelling).kind brackets)) := by
  rcases state with ⟨mode, position, rest, tokens, diagnostics⟩
  subst inTag shows
  simp only [Token.Kind.symbols, List.map_cons, List.map_nil, List.mem_cons, List.not_mem_nil,
    or_false] at isMark
  rcases kind with _ | _ | _
  · rcases isMark with rfl | rfl | rfl | rfl | rfl | rfl | rfl | rfl | rfl | rfl | rfl | rfl | rfl |
      rfl | rfl | rfl | rfl | rfl | rfl | rfl | rfl | rfl | rfl | rfl | rfl <;> rfl
  · exact absurd rfl notLine
  · rcases isMark with rfl | rfl | rfl | rfl | rfl | rfl | rfl | rfl | rfl | rfl | rfl | rfl | rfl |
      rfl | rfl | rfl | rfl | rfl | rfl | rfl | rfl | rfl | rfl | rfl | rfl <;> rfl

/-- Blanks are one token. -/
theorem step_blanks {gap : List Char} (notLine : kind ≠ .line)
    (inTag : state.mode = .tag kind brackets) (isGap : (char :: gap).all Text.isBlank = true)
    (shows : state.rest = (char :: gap) ++ after)
    (notBlank : ∀ char ∈ after.head?, Text.isBlank char = false) :
    step {} sourceName state = state.emit sourceName .whitespace (char :: gap).length := by
  have isBlank : Text.isBlank char = true := List.all_eq_true.1 isGap char List.mem_cons_self
  have notEnd : char ∉ ['-', '%', '\x7d'] := by
    intro isEnd
    simp only [List.mem_cons, List.not_mem_nil, or_false] at isEnd
    rcases isEnd with rfl | rfl | rfl <;> exact absurd isBlank (by decide)
  have wholeGap : state.rest.takeWhile (fun other => Text.isBlank other ∧
      ¬((kind = .line ∧ brackets = 0) ∧ other = '\n')) = char :: gap := by
    rw [shows, takeWhile_append_of_ends]
    · intro other member
      simp [List.all_eq_true.1 isGap other member, notLine]
    · intro other isFirst
      simp [notBlank other isFirst]
  rw [step_eq_takeLexeme notLine inTag shows notEnd, takeLexeme, if_pos isBlank]
  dsimp only
  rw [wholeGap]

/-- A word is found again. -/
theorem step_word {spelling : String} (isWord : Expr.isWord spelling.toList = true)
    (ends : ∀ char ∈ after.head?, isWordChar char = false) (notLine : kind ≠ .line)
    (inTag : state.mode = .tag kind brackets) (shows : state.rest = spelling.toList ++ after) :
    step {} sourceName state =
      state.emit sourceName (wordKind spelling) spelling.toList.length := by
  have found : word state.rest = (wordKind spelling, spelling.toList.length) := by
    rw [shows, word_append (isWordChar_of_isWord isWord) ends, String.ofList_toList]
  rcases exists_cons_of_isWord isWord with ⟨char, text, same, isStart⟩
  rcases toNat_of_isWordStart isStart with ⟨above, below⟩
  have notBlank : Text.isBlank char = false := Text.isBlank_eq_false (by omega) (by omega)
  have notDigit : char.isDigit = false := by
    apply Bool.eq_false_iff.2
    intro isDigit
    have := toNat_of_isDigit isDigit
    omega
  have notChar (other : Char) (outside : other.toNat < 65 ∨ 122 < other.toNat) : char ≠ other :=
    ne_of_toNat_outside above below outside
  have notEnd : char ∉ ['-', '%', '\x7d'] := by
    simp [notChar '-' (by decide), notChar '%' (by decide), notChar '\x7d' (by decide)]
  rw [same, List.cons_append] at shows
  rw [step_eq_takeLexeme notLine inTag shows notEnd]
  simp [takeLexeme, notBlank, notDigit, isStart, found, notChar '\'' (by decide),
    notChar '"' (by decide)]

/-- A number is taken as far as the rule for numbers says. -/
theorem step_number {token : Token.Kind} {length : Nat} (isDigit : char.isDigit = true)
    (found : number state.rest = (token, length)) (notLine : kind ≠ .line)
    (inTag : state.mode = .tag kind brackets) (shows : state.rest = char :: text) :
    step {} sourceName state = state.emit sourceName token length := by
  rcases toNat_of_isDigit isDigit with ⟨above, below⟩
  have notBlank : Text.isBlank char = false := Text.isBlank_eq_false (by omega) (by omega)
  have notChar (other : Char) (outside : other.toNat < 48 ∨ 57 < other.toNat) : char ≠ other :=
    ne_of_toNat_outside above below outside
  have notEnd : char ∉ ['-', '%', '\x7d'] := by
    simp [notChar '-' (by decide), notChar '%' (by decide), notChar '\x7d' (by decide)]
  rw [step_eq_takeLexeme notLine inTag shows notEnd]
  simp [takeLexeme, notBlank, isDigit, found, notChar '\'' (by decide), notChar '"' (by decide)]

/-- Digits with no point or exponent after them are found again. -/
theorem step_digits (nonempty : text ≠ []) (areDigits : ∀ char ∈ text, char.isDigit = true)
    (ends : ∀ char ∈ after.head?, char.isDigit = false ∧ char ∉ ['.', 'e', 'E'])
    (notLine : kind ≠ .line) (inTag : state.mode = .tag kind brackets)
    (shows : state.rest = text ++ after) :
    step {} sourceName state = state.emit sourceName .integer text.length := by
  rcases List.exists_cons_of_ne_nil nonempty with ⟨char, further, same⟩
  have isDigit : char.isDigit = true := areDigits char (same ▸ List.mem_cons_self)
  have found : number state.rest = (.integer, text.length) := by
    rw [shows, number_append_integer areDigits ends]
  have isFirst : state.rest = char :: (further ++ after) := by rw [shows, same]; rfl
  exact step_number isDigit found notLine inTag isFirst

/-- A string ends with its quote, whatever comes after it. -/
theorem step_quoted {quote : Char} {body : List Char} (isQuote : quote = '\'' ∨ quote = '"')
    (isBody : QuotedBody quote body) (notLine : kind ≠ .line)
    (inTag : state.mode = .tag kind brackets)
    (shows : state.rest = quote :: (body ++ [quote]) ++ after) :
    step {} sourceName state =
      state.emit sourceName .string (quote :: (body ++ [quote])).length := by
  have found : stringLength? quote (state.rest.drop 1) = some (body.length + 1) := by
    have textAfter : state.rest.drop 1 = body ++ quote :: after := by simp [shows]
    rw [textAfter]
    exact isBody.stringLength?_append (by rcases isQuote with rfl | rfl <;> decide) after
  have notBlank : Text.isBlank quote = false := by rcases isQuote with rfl | rfl <;> decide
  have notEnd : quote ∉ ['-', '%', '\x7d'] := by rcases isQuote with rfl | rfl <;> decide
  rw [step_eq_takeLexeme notLine inTag shows notEnd, takeLexeme, notBlank, if_neg (by simp),
    if_pos isQuote, takeString, found]
  simp

omit [Limits] in
theorem State.emit_enter_self (inTag : state.mode = .tag kind brackets) (token : Token.Kind)
    (count : Nat) : (state.emit sourceName token count).enter (.tag kind brackets) =
      state.emit sourceName token count :=
  State.enter_eq_self inTag

omit [Limits] in
theorem bracketsAfter_wordKind (spelling : String) (brackets : Nat) :
    bracketsAfter (wordKind spelling) brackets = brackets := by
  unfold wordKind
  repeat' split
  all_goals rfl

/-- A written token with a space after it is found again. -/
theorem step_lexeme {lexeme : Lexeme} (spelt : lexeme.IsSpelt) (notLine : kind ≠ .line)
    (inTag : state.mode = .tag kind brackets)
    (shows : state.rest = lexeme.text.toList ++ ' ' :: after) :
    step {} sourceName state =
      (state.emit sourceName lexeme.kind lexeme.text.toList.length).enter
        (.tag kind (bracketsAfter lexeme.kind brackets)) := by
  cases spelt with
  | mark isMark => exact step_mark isMark notLine inTag shows
  | word isWord =>
      have ends : ∀ char ∈ (' ' :: after).head?, isWordChar char = false := by
        rintro _ ⟨⟩
        decide
      rw [Lexeme.word, bracketsAfter_wordKind, State.emit_enter_self inTag]
      exact step_word isWord ends notLine inTag shows
  | string value =>
      rw [Literal.quote, String.toList_ofList] at shows ⊢
      rw [step_quoted (Or.inr rfl) (.flatMap_escape value.toList) notLine inTag shows]
      exact (State.emit_enter_self inTag _ _).symm
  | integer value =>
      have ends : ∀ char ∈ (' ' :: after).head?, char.isDigit = false ∧ char ∉ ['.', 'e', 'E'] := by
        rintro _ ⟨⟩
        decide
      rw [step_digits (Literal.decimal_ne_nil value) (fun _ => Literal.isDigit_of_mem_decimal) ends
        notLine inTag shows]
      exact (State.emit_enter_self inTag _ _).symm

omit [Limits] in
theorem exists_cons_of_isSpelt {lexeme : Lexeme} (spelt : lexeme.IsSpelt) :
    ∃ char text, lexeme.text.toList = char :: text ∧ Text.isBlank char = false := by
  cases spelt with
  | @mark spelling isMark =>
      have visible : ∀ spelling ∈ Token.Kind.symbols.map Prod.fst,
          (spelling.toList.head?.map Text.isBlank) = some false := by
        decide
      rcases Option.map_eq_some_iff.1 (visible spelling isMark) with ⟨char, isFirst, notBlank⟩
      rcases List.head?_eq_some_iff.1 isFirst with ⟨text, same⟩
      exact ⟨char, text, same, notBlank⟩
  | word isWord =>
      rcases exists_cons_of_isWord isWord with ⟨char, text, same, isStart⟩
      rcases toNat_of_isWordStart isStart with ⟨above, below⟩
      exact ⟨char, text, same, Text.isBlank_eq_false (by omega) (by omega)⟩
  | string value =>
      exact ⟨'"', _, by rw [Literal.quote, String.toList_ofList, List.cons_append], by decide⟩
  | integer value =>
      rcases List.exists_cons_of_ne_nil (Literal.decimal_ne_nil value) with ⟨char, text, same⟩
      rcases toNat_of_isDigit
        (Literal.isDigit_of_mem_decimal (same ▸ List.mem_cons_self)) with ⟨above, below⟩
      exact ⟨char, text, same, Text.isBlank_eq_false (by omega) (by omega)⟩

/-! ### Walks -/

omit [Limits] in
/-- The significant tokens so far, as they are written. -/
def State.found (state : State) : List Lexeme :=
  Token.written state.tokens.reverse

/-- One step of a walk that is not yet over. -/
def StepsTo (dialect : Dialect) (sourceName : Option String) (state next : State) : Prop :=
  state.rest ≠ [] ∧ step dialect sourceName state = next

/-- A walk leads from one state to another, finds given tokens on its way, and nothing wrong. -/
structure Finds (dialect : Dialect) (sourceName : Option String) (state : State)
    (lexemes : List Lexeme) (next : State) : Prop where
  walks : Relation.ReflTransGen (StepsTo dialect sourceName) state next
  found : next.found = state.found ++ lexemes
  diagnostics : next.diagnostics = state.diagnostics

variable {dialect : Dialect} {next last : State} {first second : List Lexeme}

theorem Finds.refl (state : State) : Finds dialect sourceName state [] state :=
  ⟨.refl, (List.append_nil _).symm, rfl⟩

theorem Finds.trans (before : Finds dialect sourceName state first next)
    (after : Finds dialect sourceName next second last) :
    Finds dialect sourceName state (first ++ second) last where
  walks := before.walks.trans after.walks
  found := by rw [after.found, before.found, List.append_assoc]
  diagnostics := after.diagnostics.trans before.diagnostics

/-- A step that takes a token leads to the text after it. Blanks count for nothing. -/
theorem exists_finds_emit (token : Token.Kind) {mode : Mode} {lexemes : List Lexeme}
    (nonempty : text ≠ []) (shows : state.rest = text ++ after)
    (taken : step dialect sourceName state =
      (state.emit sourceName token text.length).enter mode)
    (sameLexemes : lexemes =
      if token.isSignificant then [⟨token, String.ofList text⟩] else []) :
    ∃ next, Finds dialect sourceName state lexemes next ∧ next.mode = mode ∧
      next.rest = after := by
  rw [State.emit_eq_of_rest shows] at taken
  refine ⟨_, ⟨.single ⟨by simp [shows, nonempty], taken⟩, ?_, rfl⟩, rfl, rfl⟩
  rw [sameLexemes]
  by_cases significant : token.isSignificant = true <;>
    simp [State.found, Token.written, Token.lexeme, State.enter, significant]

/-- A walk to the end of the text leads to where the walk in steps ends. -/
theorem eq_of_walks {steps : Nat}
    (walks : Relation.ReflTransGen (StepsTo dialect sourceName) state next)
    (atEnd : next.rest = []) (ends : run dialect sourceName steps state = some last) :
    last = next := by
  induction walks using Relation.ReflTransGen.head_induction_on generalizing steps with
  | refl =>
      cases steps <;> rw [run, if_pos atEnd] at ends <;> exact (Option.some.inj ends).symm
  | head stepsTo walks ih =>
      rcases stepsTo with ⟨nonempty, rfl⟩
      cases steps with
      | zero =>
          rw [run, if_neg nonempty] at ends
          simp at ends
      | succ steps =>
          rw [run, if_neg nonempty] at ends
          exact ih ends

/-! ### Tags -/

omit [Limits] in
theorem starts_default : starts {} =
    [("\x7b%", .block), ("\x7b\x7b", .variable), ("\x7b#", .comment)] :=
  List.mergeSort_of_pairwise (by decide)

theorem linePrefix?_default (text : List Char) : linePrefix? {} text = none := by
  simp [linePrefix?]

theorem opening?_variable (atLineStart : Bool) (after : List Char) :
    opening? {} atLineStart ("\x7b\x7b".toList ++ ' ' :: after) = some (.variable 2 false) := by
  have isDelimiter : delimiter? {} ("\x7b\x7b".toList ++ ' ' :: after) =
      some (.variable 2 false) := by
    rw [delimiter?, starts_default]
    rfl
  rw [opening?, linePrefix?_default, isDelimiter, ite_self, Option.none_or]

variable (sourceName)

/-- The token that opens a print tag is found. -/
theorem exists_finds_variableBegin (inText : state.mode = .text false false)
    (shows : state.rest = "\x7b\x7b".toList ++ ' ' :: after) :
    ∃ next, Finds {} sourceName state [⟨.variableBegin, "\x7b\x7b"⟩] next ∧
      next.mode = .tag .variable 0 ∧ next.rest = ' ' :: after := by
  refine exists_finds_emit .variableBegin (by decide) shows ?_ rfl
  rw [step, inText]
  simp only [stepText, Bool.false_eq_true, if_false, shows, opening?_variable]
  rfl

/-- A space before a token is passed over. -/
theorem exists_finds_space (notLine : kind ≠ .line) (inTag : state.mode = .tag kind brackets)
    (shows : state.rest = [' '] ++ char :: after) (notBlank : Text.isBlank char = false) :
    ∃ next, Finds {} sourceName state [] next ∧ next.mode = .tag kind brackets ∧
      next.rest = char :: after := by
  have notBlank : ∀ other ∈ (char :: after).head?, Text.isBlank other = false := by
    rintro _ ⟨⟩
    exact notBlank
  refine exists_finds_emit .whitespace (by decide) shows ?_ rfl
  rw [step_blanks notLine inTag (by decide) shows notBlank]
  exact (State.emit_enter_self inTag _ _).symm

/-- The token that closes a print tag is found. -/
theorem exists_finds_variableEnd (inTag : state.mode = .tag .variable brackets)
    (shows : state.rest = "\x7d\x7d".toList ++ after) :
    ∃ next, Finds {} sourceName state [⟨.variableEnd, "\x7d\x7d"⟩] next ∧
      next.mode = .text false false ∧ next.rest = after := by
  refine exists_finds_emit .variableEnd (by decide) shows ?_ rfl
  rw [step, inTag]
  rcases state with ⟨mode, position, rest, tokens, diagnostics⟩
  subst shows
  rfl

omit [Limits] in
theorem IsSpelt.isSignificant {lexeme : Lexeme} (spelt : lexeme.IsSpelt) :
    lexeme.kind.isSignificant = true := by
  cases spelt with
  | @mark spelling isMark =>
      have significant : ∀ spelling ∈ Token.Kind.symbols.map Prod.fst,
          (Lexeme.symbol spelling).kind.isSignificant = true := by
        decide
      exact significant spelling isMark
  | word =>
      unfold Lexeme.word wordKind
      dsimp only
      repeat' split
      all_goals rfl
  | string | integer => rfl

/-- A written token with a space before it and one after it is found again. -/
theorem exists_finds_lexeme {lexeme : Lexeme} (spelt : lexeme.IsSpelt)
    (notLine : kind ≠ .line) (inTag : state.mode = .tag kind brackets)
    (shows : state.rest = ' ' :: lexeme.text.toList ++ ' ' :: after) :
    ∃ next brackets', Finds {} sourceName state [lexeme] next ∧ next.mode = .tag kind brackets' ∧
      next.rest = ' ' :: after := by
  rcases exists_cons_of_isSpelt spelt with ⟨char, text, same, notBlank⟩
  rw [same] at shows
  rcases exists_finds_space sourceName notLine inTag shows notBlank with
    ⟨middle, space, inTag, shows⟩
  have shows : middle.rest = lexeme.text.toList ++ ' ' :: after := by rw [shows, same]; rfl
  have nonempty : lexeme.text.toList ≠ [] := by simp [same]
  have significant : [lexeme] = if lexeme.kind.isSignificant then
      [⟨lexeme.kind, String.ofList lexeme.text.toList⟩] else [] := by
    rw [if_pos (IsSpelt.isSignificant spelt), String.ofList_toList]
  obtain ⟨next, found, inTag, shows⟩ :=
    exists_finds_emit lexeme.kind nonempty shows (step_lexeme spelt notLine inTag shows) significant
  exact ⟨next, _, space.trans found, inTag, shows⟩

/-- Written tokens with a space before each of them and one after them are found again. -/
theorem exists_finds_indented {lexemes : List Lexeme} (spelt : Lexeme.AreSpelt lexemes)
    (notLine : kind ≠ .line) (inTag : state.mode = .tag kind brackets)
    (shows : state.rest = Lexeme.indented lexemes ++ ' ' :: after) :
    ∃ next brackets', Finds {} sourceName state lexemes next ∧ next.mode = .tag kind brackets' ∧
      next.rest = ' ' :: after := by
  induction lexemes generalizing state brackets with
  | nil => exact ⟨state, brackets, .refl state, inTag, shows⟩
  | cons lexeme lexemes ih =>
      rcases Lexeme.areSpelt_cons.1 spelt with ⟨isSpelt, spelt⟩
      rcases Lexeme.exists_indented_append lexemes after with ⟨further, goesOn⟩
      rw [Lexeme.indented, List.flatMap_cons, ← Lexeme.indented, List.append_assoc, goesOn] at shows
      rcases exists_finds_lexeme sourceName isSpelt notLine inTag shows with
        ⟨middle, _, found, inTag, shows⟩
      rcases ih spelt inTag (shows.trans goesOn.symm) with
        ⟨next, brackets', foundRest, inTag, shows⟩
      exact ⟨next, brackets', found.trans foundRest, inTag, shows⟩

/-- A walk to the end of a text, outside of tags, gives the tokens of the text. -/
theorem exists_tokenize_of_finds {source : String} {lexemes : List Lexeme}
    (finds : Finds {} sourceName (.ofSource source.toList) lexemes last)
    (inText : last.mode = .text false false) (atEnd : last.rest = []) :
    ∃ result, tokenize {} sourceName source = some result ∧ result.diagnostics = [] ∧
      Token.written (Token.closed result.tokens) = lexemes ++ [⟨.eof, ""⟩] := by
  obtain ⟨result, cut⟩ : ∃ result, tokenize {} sourceName source = some result :=
    exists_tokenize (by decide) not_emptyLineComment_default source
  rcases exists_run_of_tokenize cut with ⟨steps, reached, ends, sameTokens, sameDiagnostics⟩
  rcases eq_of_walks finds.walks atEnd ends with rfl
  have noMore : finish sourceName reached =
      (reached.emit sourceName .eof 0).enter (.text false false) := by
    rw [finish, inText]
  refine ⟨result, cut, ?_, ?_⟩
  · rw [sameDiagnostics, noMore]
    exact congrArg List.reverse finds.diagnostics
  · have isClosed : Token.closed result.tokens = result.tokens := by
      simp [Token.closed, sameTokens, noMore, State.emit]
    have oneMore : Token.written (finish sourceName reached).tokens.reverse =
        reached.found ++ [⟨.eof, ""⟩] := by
      rw [noMore]
      simp [State.found, State.emit, Token.written, Token.lexeme, Token.Kind.isSignificant]
    rw [isClosed, sameTokens, oneMore, finds.found]
    rfl

/-- A print tag is cut into the tokens that were written in it. -/
theorem exists_tokenize_tag {source : String} {lexemes : List Lexeme}
    (spelt : Lexeme.AreSpelt lexemes)
    (shows : source.toList =
      "\x7b\x7b".toList ++ (Lexeme.indented lexemes ++ ' ' :: "\x7d\x7d".toList)) :
    ∃ result, tokenize {} sourceName source = some result ∧ result.diagnostics = [] ∧
      Token.written (Token.closed result.tokens) = ⟨.variableBegin, "\x7b\x7b"⟩ :: lexemes ++
        [⟨.variableEnd, "\x7d\x7d"⟩, ⟨.eof, ""⟩] := by
  rcases Lexeme.exists_indented_append lexemes "\x7d\x7d".toList with ⟨further, goesOn⟩
  have inText : (State.ofSource source.toList).mode = .text false false := rfl
  rcases exists_finds_variableBegin sourceName inText (goesOn ▸ shows) with
    ⟨opened, opens, inTag, showsInner⟩
  obtain ⟨inner, brackets, found, inTag, showsEnd⟩ :=
    exists_finds_indented sourceName spelt (by decide) inTag (showsInner.trans goesOn.symm)
  rcases exists_finds_space sourceName (by decide) inTag showsEnd (by decide) with
    ⟨atEnd, space, inTag, showsEnd⟩
  rcases exists_finds_variableEnd sourceName inTag
    (showsEnd.trans (List.append_nil _).symm) with ⟨last, closes, inText, noRest⟩
  have finds := (opens.trans found).trans (space.trans closes)
  rcases exists_tokenize_of_finds sourceName finds inText noRest with ⟨result, cut, clean, written⟩
  refine ⟨result, cut, clean, ?_⟩
  simpa using written

end Lexer

end Stencil

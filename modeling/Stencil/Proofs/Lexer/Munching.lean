import Stencil.Proofs.Lexer.Classes
import Stencil.Proofs.Lexer.Walks
import Stencil.Proofs.Literal.Escapes

/-!
# Tokens that go as far as they can

A token inside a tag is of the class of its kind, and no more of the text after it could be taken.
This is a property of the token and of its place in the text. It holds of each token when it is
taken, and a token inside a tag is never changed afterwards.
-/

namespace Stencil

open Lexer

/-- A word that does not go on in the text after it. -/
def Lexer.IsWholeWord (text after : List Char) : Prop :=
  Expr.isWord text = true ∧ StopsBefore (Expr.isWord · = true) text after

/-- The text of a token inside a tag is of the class of its kind, and could not be longer where
`after` follows. A string ends with its quote, or with the text. Blanks stop before a line break
only where it ends a line statement. -/
def Token.Kind.Munches (dialect : Dialect) (text after : List Char) : Token.Kind → Prop
  | .name => IsWholeWord text after ∧ (∀ word : Keyword, text ≠ word.spelling.toList) ∧
      text ∉ ["true".toList, "false".toList, "null".toList, "None".toList]
  | .keyword word => IsWholeWord text after ∧ text = word.spelling.toList
  | .boolean => IsWholeWord text after ∧ (text = "true".toList ∨ text = "false".toList)
  | .null => IsWholeWord text after ∧ (text = "null".toList ∨ text = "None".toList)
  | .integer => IsDigits text ∧ StopsBefore IsDigits text after ∧
      (∀ fraction, IsFraction fraction → ¬fraction <+: after) ∧
      ∀ exponent, IsExponent exponent → ¬exponent <+: after
  | .float => IsFloat text ∧ StopsBefore IsNumber text after
  | .string => IsQuoted text ∨ IsUnclosed text ∧ after = []
  | .whitespace => IsBlanks text ∧ (StopsBefore IsBlanks text after ∨
      dialect.lineStatement.isSome = true ∧ '\n' ∉ text ∧ after.head? = some '\n')
  | kind => Token.Kind.ofSymbol? (String.ofList text) = some kind ∧
      StopsBefore IsSymbol text after

/-- A token stands in a text at the place that its position names, and goes as far as it can. -/
def Token.IsMunched (dialect : Dialect) (source : List Char) (token : Token) : Prop :=
  ∃ before after, source = before ++ (token.text.toList ++ after) ∧
    token.position = Position.start.advanceOver before ∧
    token.kind.Munches dialect token.text.toList after

namespace Lexer

variable {dialect : Dialect} {sourceName : Option String} {state : State} {token : Token}
  {text after : List Char}

/-! ### Single tokens -/

theorem munches_wordKind (isWhole : IsWholeWord text after) :
    (wordKind (String.ofList text)).Munches dialect text after := by
  have spelled {word : String} (same : String.ofList text = word) : text = word.toList := by
    rw [← same, String.toList_ofList]
  unfold wordKind
  split
  · next keyword found =>
    have same : keyword.spelling = String.ofList text := by simpa using List.find?_some found
    exact ⟨isWhole, spelled same.symm⟩
  · next notKeyword =>
    have notReserved (keyword : Keyword) : text ≠ keyword.spelling.toList := by
      rintro rfl
      have listed : keyword ∈ Keyword.all := by cases keyword <;> decide
      simpa using List.find?_eq_none.1 notKeyword keyword listed
    unfold LiteralWord.ofSpelling?
    split_ifs with isTrue isFalse isNull
    · exact ⟨isWhole, Or.inl (spelled isTrue)⟩
    · exact ⟨isWhole, Or.inr (spelled isFalse)⟩
    · exact ⟨isWhole, isNull.imp spelled spelled⟩
    · refine ⟨isWhole, notReserved, ?_⟩
      simp only [List.mem_cons, List.not_mem_nil, or_false]
      rintro (rfl | rfl | rfl | rfl)
      · exact isTrue rfl
      · exact isFalse rfl
      · exact isNull (Or.inl rfl)
      · exact isNull (Or.inr rfl)

theorem isWord_of_isWordChar {char : Char} (isStart : isWordStart char = true)
    (areChars : ∀ other ∈ text, isWordChar other = true) : Expr.isWord (char :: text) = true := by
  simpa [Expr.isWord, isStart] using areChars

/-- A word is taken as far as it goes. -/
theorem exists_word {char : Char} (isStart : isWordStart char = true) (text : List Char) :
    ∃ taken after, char :: text = taken ++ after ∧ (word (char :: text)).2 = taken.length ∧
      (word (char :: text)).1.Munches dialect taken after := by
  rcases exists_takeWhile isWordChar (char :: text) with ⟨taken, after, shows, found, areChars⟩
  have isWord : Expr.isWord taken = true := by
    rw [← found, List.takeWhile_cons_of_pos (isWordChar_of_isWordStart isStart)]
    exact isWord_of_isWordChar isStart (List.all_eq_true.1 List.all_takeWhile)
  have stops : StopsBefore (Expr.isWord · = true) taken after := by
    refine stopsBefore_of_longest fun other isWord begins => ?_
    rw [← found, shows]
    exact length_le_takeWhile (isWordChar_of_isWord isWord) begins
  refine ⟨taken, after, shows, by rw [word, found], ?_⟩
  rw [word, found]
  exact munches_wordKind ⟨isWord, stops⟩

theorem IsDigits.isNumber (isDigits : IsDigits text) : IsNumber text :=
  ⟨text, [], [], ⟨isDigits, Or.inl rfl, Or.inl rfl⟩, by simp⟩

/-- Digits that are no part of a longer number. -/
theorem munches_integer (isDigits : IsDigits text) (stops : StopsBefore IsNumber text after) :
    Token.Kind.integer.Munches dialect text after := by
  refine ⟨isDigits, fun more nonempty begins areDigits => stops more nonempty begins
    areDigits.isNumber, fun fraction isFraction begins => ?_, fun exponent isExponent begins => ?_⟩
  · refine stops fraction ?_ begins
      ⟨text, fraction, [], ⟨isDigits, Or.inr isFraction, Or.inl rfl⟩, by simp⟩
    rcases isFraction with ⟨digits, -, rfl⟩
    simp
  · refine stops exponent ?_ begins
      ⟨text, [], exponent, ⟨isDigits, Or.inl rfl, Or.inr isExponent⟩, by simp⟩
    rcases isExponent with ⟨mark, sign, digits, -, -, -, rfl⟩
    simp

/-- A number is taken as far as it goes. -/
theorem exists_number {char : Char} (isDigit : char.isDigit = true) (text : List Char) :
    ∃ taken after, char :: text = taken ++ after ∧ (number (char :: text)).2 = taken.length ∧
      (number (char :: text)).1.Munches dialect taken after := by
  rcases exists_numeral isDigit text with
    ⟨whole, fraction, exponent, after, shows, isNumeral, found⟩
  have stops : StopsBefore IsNumber (whole ++ (fraction ++ exponent)) after := by
    refine stopsBefore_of_longest fun other isNumber begins => ?_
    rcases isNumber with ⟨_, _, _, isOther, rfl⟩
    rcases begins with ⟨rest, sameText⟩
    have bound := isOther.length_le rest
    rwa [sameText, ← shows, found] at bound
  refine ⟨whole ++ (fraction ++ exponent), after, shows, by rw [found], ?_⟩
  rw [found]
  dsimp only
  split
  · next onlyDigits =>
    rcases onlyDigits with ⟨rfl, rfl⟩
    rw [List.append_nil, List.append_nil] at stops ⊢
    exact munches_integer isNumeral.isWhole stops
  · next hasMore =>
    exact ⟨⟨whole, fraction, exponent, isNumeral, not_and_or.1 hasMore, rfl⟩, stops⟩

theorem munches_symbol {kind : Token.Kind}
    (isKind : Token.Kind.ofSymbol? (String.ofList text) = some kind)
    (stops : StopsBefore IsSymbol text after) : kind.Munches dialect text after := by
  have unfolds : ∀ entry ∈ Token.Kind.symbols, entry.2.Munches dialect text after =
      (Token.Kind.ofSymbol? (String.ofList text) = some entry.2 ∧
        StopsBefore IsSymbol text after) := by
    intro entry listed
    fin_cases listed <;> rfl
  rcases Option.map_eq_some_iff.1 isKind with ⟨entry, listed, rfl⟩
  rw [unfolds entry (List.mem_of_find?_eq_some listed)]
  exact ⟨isKind, stops⟩

/-- Blanks are taken as far as they go, and in a line statement up to the end of the line. -/
theorem exists_blanks {inLine : Prop} {keep : Char → Bool}
    (isKept : ∀ char, keep char = true ↔ Text.isBlank char = true ∧ ¬(inLine ∧ char = '\n'))
    (mayBeLine : inLine → dialect.lineStatement.isSome = true) {char : Char}
    (isFirst : keep char = true) (text : List Char) :
    ∃ taken after, char :: text = taken ++ after ∧ (char :: text).takeWhile keep = taken ∧
      Token.Kind.whitespace.Munches dialect taken after := by
  rcases exists_takeWhile keep (char :: text) with ⟨taken, after, shows, found, kept⟩
  have nonempty : taken ≠ [] := by
    rw [← found, List.takeWhile_cons_of_pos isFirst]
    exact List.cons_ne_nil _ _
  refine ⟨taken, after, shows, found,
    ⟨nonempty, fun other member => ((isKept other).1 (kept other member)).1⟩, ?_⟩
  by_cases ends : inLine ∧ after.head? = some '\n'
  · exact Or.inr ⟨mayBeLine ends.1,
      fun isBreak => ((isKept _).1 (kept _ isBreak)).2 ⟨ends.1, rfl⟩, ends.2⟩
  · left
    rintro (_ | ⟨first, more⟩) notEmpty ⟨rest, rfl⟩ areBlanks
    · exact notEmpty rfl
    · -- The run would have been longer by the first of the blanks after it.
      have keptFirst : keep first = true := (isKept first).2
        ⟨areBlanks.2 first (by simp), fun isBreak => ends ⟨isBreak.1, by rw [← isBreak.2]; rfl⟩⟩
      have keptAll : ∀ other ∈ taken ++ [first], keep other = true :=
        List.forall_mem_append.2 ⟨kept, by simpa using keptFirst⟩
      have begins : taken ++ [first] <+: char :: text := ⟨more ++ rest, by simp [shows]⟩
      have bound := length_le_takeWhile keptAll begins
      rw [found, List.length_append, List.length_singleton] at bound
      omega

/-! ### Steps -/

/-- A step takes one token from the text; if the token may stand inside a tag, it goes as far as it
can. -/
def TakesLongest (dialect : Dialect) (state next : State) : Prop :=
  ∃ token after, next.tokens = token :: state.tokens ∧
    state.rest = token.text.toList ++ after ∧ token.position = state.position ∧
    (token.kind.isInner = true → token.kind.Munches dialect token.text.toList after)

theorem takesLongest_emit {kind : Token.Kind} (shows : state.rest = text ++ after)
    (munches : kind.isInner = true → kind.Munches dialect text after) :
    TakesLongest dialect state (state.emit sourceName kind text.length) := by
  rw [State.emit_eq_of_rest shows]
  refine ⟨_, after, rfl, ?_, rfl, ?_⟩
  · rw [String.toList_ofList, shows]
  · rw [String.toList_ofList]
    exact munches

theorem takeString_takesLongest {quote : Char} (isQuote : quote = '\'' ∨ quote = '"')
    (shows : state.rest = quote :: text) :
    TakesLongest dialect state (takeString sourceName quote state) := by
  have textAfter : state.rest.drop 1 = text := by rw [shows]; rfl
  unfold takeString
  rw [textAfter]
  split
  · next length found =>
    rcases stringLength?_eq_some found with ⟨body, after, isBody, rfl, rfl⟩
    have whole : state.rest = quote :: (body ++ [quote]) ++ after := by simp [shows]
    have sameLength : body.length + 1 + 1 = (quote :: (body ++ [quote])).length := by simp
    rw [sameLength]
    exact takesLongest_emit whole fun _ => Or.inl ⟨quote, body, isQuote, isBody, rfl⟩
  · next notFound =>
    rcases exists_quotedBody_of_stringLength? notFound with ⟨body, rest, isBody, rfl, isRest⟩
    exact takesLongest_emit (List.append_nil _).symm fun _ =>
      Or.inr ⟨⟨quote, body, rest, isQuote, isBody, isRest, shows⟩, rfl⟩

theorem takeLexeme_takesLongest {kind : TagKind} {brackets : Nat} {char : Char}
    (notEnd : ¬(kind = .line ∧ brackets = 0 ∧ char = '\n'))
    (mayBeLine : kind = .line → dialect.lineStatement.isSome = true)
    (shows : state.rest = char :: text) :
    TakesLongest dialect state (takeLexeme sourceName kind brackets char state) := by
  unfold takeLexeme
  rw [shows]
  split
  · next isBlank =>
    have isFirst : Text.isBlank char = true ∧ ¬((kind = .line ∧ brackets = 0) ∧ char = '\n') :=
      ⟨isBlank, by rwa [and_assoc]⟩
    rcases exists_blanks (fun _ => decide_eq_true_iff) (fun inLine => mayBeLine inLine.1)
      (decide_eq_true isFirst) text with ⟨taken, after, sameText, found, munches⟩
    dsimp only
    rw [found]
    exact takesLongest_emit (shows.trans sameText) fun _ => munches
  · split
    · next isQuote => exact takeString_takesLongest isQuote shows
    · split
      · next isDigit =>
        rcases exists_number isDigit text with ⟨taken, after, sameText, sameLength, munches⟩
        dsimp only
        rw [sameLength]
        exact takesLongest_emit (shows.trans sameText) fun _ => munches
      · split
        · next isStart =>
          rcases exists_word isStart text with ⟨taken, after, sameText, sameLength, munches⟩
          dsimp only
          rw [sameLength]
          exact takesLongest_emit (shows.trans sameText) fun _ => munches
        · split
          · next found =>
            rcases exists_symbol found with ⟨mark, after, sameText, rfl, isKind, stops⟩
            exact takesLongest_emit (shows.trans sameText) fun _ => munches_symbol isKind stops
          · have single : state.rest = [char] ++ text := shows
            exact takesLongest_emit single fun isInner => by cases isInner

variable [Limits]

/-- What a step inside of a tag adds to the tokens inside of tags goes as far as it can. -/
theorem exists_munches_of_step {kind : TagKind} {brackets : Nat}
    (inTag : state.mode = .tag kind brackets) (nonempty : state.rest ≠ [])
    (mayBeLine : kind = .line → dialect.lineStatement.isSome = true)
    (member : token ∈ (step dialect sourceName state).tokens)
    (isInner : token.kind.isInner = true) :
    token ∈ state.tokens ∨ ∃ after, state.rest = token.text.toList ++ after ∧
      token.position = state.position ∧ token.kind.Munches dialect token.text.toList after := by
  rcases List.exists_cons_of_ne_nil nonempty with ⟨char, text, shows⟩
  rw [step_of_tag inTag, stepTag_of_cons shows] at member
  split at member
  · exact Or.inl (mem_of_mem_cons isInner rfl member)
  · next notEnd =>
    split at member
    · have notInner : (closer dialect kind).2.isInner = false := by cases kind <;> rfl
      exact Or.inl (mem_of_mem_cons isInner notInner member)
    · have takes : TakesLongest dialect state (takeLexeme sourceName kind brackets char state) :=
        takeLexeme_takesLongest notEnd mayBeLine shows
      rcases takes with ⟨taken, after, sameTokens, sameText, samePosition, munches⟩
      rw [sameTokens] at member
      rcases List.mem_cons.1 member with rfl | earlier
      · exact Or.inr ⟨after, sameText, samePosition, munches isInner⟩
      · exact Or.inl earlier

/-! ### Walks -/

/-- Only where there is a prefix for line statements does a tag end with its line. -/
theorem Move.isSome_lineStatement {next : State} (move : Move dialect sourceName state next)
    (before : ∀ brackets, state.mode = .tag .line brackets → dialect.lineStatement.isSome = true)
    (brackets : Nat) (inTag : next.mode = .tag .line brackets) :
    dialect.lineStatement.isSome = true := by
  cases move with
  | openTag start => cases start <;> cases inTag
  | openLine _ isMarker => rw [isMarker, Option.isSome_some]
  | lexeme wasInTag | unclosedString wasInTag | strayChar wasInTag =>
      cases inTag
      exact before _ wasInTag
  | lineComment inText | plain inText =>
      have sameMode : state.mode = .tag .line brackets := inTag
      rw [inText] at sameMode
      cases sameMode
  | _ => cases inTag

theorem isSome_lineStatement_of_walks {source : List Char}
    (walks : Relation.ReflTransGen (StepsTo dialect sourceName) (.ofSource source) state) :
    ∀ brackets, state.mode = .tag .line brackets → dialect.lineStatement.isSome = true := by
  refine walks_keep (fun state => ∀ brackets, state.mode = .tag .line brackets →
    dialect.lineStatement.isSome = true) ?_ walks (fun _ inTag => by cases inTag)
  intro state before nonempty
  have move : Move dialect sourceName state (step dialect sourceName state) := step_move nonempty
  exact move.isSome_lineStatement before

/-- All along a walk the tokens inside of tags go as far as they can. -/
theorem isMunched_of_walks {source : List Char}
    (walks : Relation.ReflTransGen (StepsTo dialect sourceName) (.ofSource source) state) :
    ∀ token ∈ state.tokens, token.kind.isInner = true → token.IsMunched dialect source := by
  induction walks with
  | refl => simp [State.ofSource]
  | @tail reached after walks stepsTo ih =>
      rcases stepsTo with ⟨nonempty, rfl⟩
      intro token member isInner
      by_cases inTag : ∃ kind brackets, reached.mode = .tag kind brackets
      · rcases inTag with ⟨kind, brackets, inTag⟩
        have mayBeLine : kind = .line → dialect.lineStatement.isSome = true := by
          rintro rfl
          exact isSome_lineStatement_of_walks walks brackets inTag
        rcases exists_munches_of_step inTag nonempty mayBeLine member isInner with
          isEarlier | ⟨after, sameText, samePosition, munches⟩
        · exact ih token isEarlier isInner
        · rcases exists_before_of_walks walks with ⟨before, sameSource, startsAt⟩
          exact ⟨before, after, by rw [sameSource, sameText], by rw [samePosition, startsAt],
            munches⟩
      · have move : Move dialect sourceName reached (step dialect sourceName reached) :=
          step_move nonempty
        have outside kind brackets : reached.mode ≠ .tag kind brackets :=
          fun isTag => inTag ⟨kind, brackets, isTag⟩
        exact ih token (move.mem_of_isInner outside member isInner) isInner

/-- Every token inside of a tag goes as far as it can. -/
theorem isMunched_of_tokenize {source : String} {result : Tokenization}
    (cut : tokenize dialect sourceName source = some result) (member : token ∈ result.tokens)
    (isInner : token.kind.isInner = true) : token.IsMunched dialect source.toList := by
  rcases exists_walks_of_tokenize cut with ⟨last, walks, _, rfl⟩
  rcases exists_finish_tokens sourceName last with ⟨closing, sameTokens, isClosing⟩
  rw [State.result, List.mem_reverse, sameTokens, List.mem_append] at member
  refine isMunched_of_walks walks token (member.resolve_left fun closes => ?_) isInner
  have notInner : ∀ kind ∈ [Token.Kind.comment, .blockEnd, .eof], kind.isInner = false := by
    decide
  rw [notInner _ (isClosing token closes)] at isInner
  cases isInner

end Lexer

end Stencil

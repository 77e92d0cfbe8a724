import Stencil.Proofs.Lexer.Adjacent
import Stencil.Proofs.Lexer.Walks

/-!
# Text inside of a tag

The token that a step inside of a tag takes is told by the text that comes next. It does not go on
over a line break or over the end delimiter of block tags, and so a text in which neither stands is
cut into the same tokens whatever ends it: a line, a delimiter or the source.
-/

namespace Stencil.Lexer

variable {dialect : Dialect} {sourceName : Option String} {state last : State} {kind : TagKind}
  {brackets final : Nat} {token : Token.Kind} {length : Nat} {char : Char}
  {text after : List Char} {lexemes : List Lexeme}

/-! ### What comes after a token -/

/-- A text is empty or begins with a character with which no token goes on. -/
def IsEnd (after : List Char) : Prop :=
  ∀ char ∈ after.head?, char = '\n' ∨ char = '%'

namespace IsEnd

variable (isEnd : IsEnd after)

include isEnd

theorem takeWhile_append (keep : Char → Bool) (noBreak : keep '\n' = false)
    (noPercent : keep '%' = false) (text : List Char) :
    (text ++ after).takeWhile keep = text.takeWhile keep := by
  have noMore : after.takeWhile keep = [] := by
    cases after with
    | nil => rfl
    | cons char after =>
        refine List.takeWhile_cons_of_neg ?_
        rcases isEnd char rfl with rfl | rfl <;> simp [noBreak, noPercent]
  rw [List.takeWhile_append]
  split
  · next isWhole =>
    rw [noMore, List.append_nil]
    exact ((List.takeWhile_prefix _).eq_of_length isWhole).symm
  · rfl

theorem digitCount_append (text : List Char) : digitCount (text ++ after) = digitCount text := by
  rw [digitCount, isEnd.takeWhile_append Char.isDigit rfl rfl, digitCount]

theorem fractionLength_append (text : List Char) :
    fractionLength (text ++ after) = fractionLength text := by
  match text with
  | [] =>
      refine fractionLength_eq_zero fun char isFirst => ?_
      rcases isEnd char isFirst with rfl | rfl <;> decide
  | char :: text =>
      by_cases isPoint : char = '.'
      · rw [isPoint, List.cons_append, fractionLength, isEnd.digitCount_append, fractionLength]
      · rw [List.cons_append, fractionLength_eq_zero (by simpa using isPoint),
          fractionLength_eq_zero (by simpa using isPoint)]

theorem exponentDigits_append (text : List Char) :
    exponentDigits (text ++ after) = exponentDigits text := by
  have unsigned {text : List Char} (noSign : ∀ char ∈ text.head?, char ≠ '+' ∧ char ≠ '-') :
      exponentDigits text = digitCount text := by
    unfold exponentDigits
    split
    · exact absurd rfl (noSign '+' rfl).1
    · exact absurd rfl (noSign '-' rfl).2
    · rfl
  by_cases isSigned : ∃ char ∈ text.head?, char = '+' ∨ char = '-'
  · rcases isSigned with ⟨char, isFirst, isSign⟩
    rcases List.head?_eq_some_iff.1 isFirst with ⟨digits, rfl⟩
    rcases isSign with rfl | rfl <;>
      rw [List.cons_append, exponentDigits, isEnd.digitCount_append, exponentDigits]
  · push Not at isSigned
    rw [unsigned isSigned, unsigned, isEnd.digitCount_append]
    intro char isFirst
    cases text with
    | nil => rcases isEnd char isFirst with rfl | rfl <;> decide
    | cons first text => exact isSigned char isFirst

theorem exponentLength_append (text : List Char) :
    exponentLength (text ++ after) = exponentLength text := by
  match text with
  | [] =>
      refine exponentLength_eq_zero fun char isFirst => ?_
      rcases isEnd char isFirst with rfl | rfl <;> decide
  | char :: text =>
      by_cases isMark : char ∈ ['e', 'E']
      · simp only [List.mem_cons, List.not_mem_nil, or_false] at isMark
        rcases isMark with rfl | rfl <;>
          rw [List.cons_append, exponentLength, isEnd.exponentDigits_append, exponentLength]
      · rw [List.cons_append, exponentLength_eq_zero (by simpa using isMark),
          exponentLength_eq_zero (by simpa using isMark)]

theorem number_append (text : List Char) : number (text ++ after) = number text := by
  have digits := digitCount_le text
  have fraction := fractionLength_le (text.drop (digitCount text))
  rw [List.length_drop] at fraction
  simp only [number, isEnd.digitCount_append]
  rw [List.drop_append_of_le_length digits, isEnd.fractionLength_append,
    List.drop_append_of_le_length (by omega), isEnd.exponentLength_append]

theorem word_append (text : List Char) : word (text ++ after) = word text := by
  simp only [word, isEnd.takeWhile_append isWordChar rfl rfl]

/-- No mark of two characters ends with one that can come after a token. -/
theorem symbol?_append (nonempty : text ≠ []) : symbol? (text ++ after) = symbol? text := by
  match text, nonempty with
  | first :: second :: text, _ => rfl
  | [first], _ =>
      cases after with
      | nil => rfl
      | cons char after =>
          have longer : ∀ symbol ∈ Token.Kind.symbols,
              ∀ first second, symbol.1.toList = [first, second] → second ≠ '\n' ∧ second ≠ '%' := by
            have isLast : ∀ symbol ∈ Token.Kind.symbols, symbol.1.toList.length = 2 →
                symbol.1.toList.getLast? ≠ some '\n' ∧ symbol.1.toList.getLast? ≠ some '%' := by
              decide
            intro symbol isListed first second same
            simpa [same] using isLast symbol isListed
          have notLonger : Token.Kind.ofSymbol? (String.ofList [first, char]) = none := by
            rw [Token.Kind.ofSymbol?, Option.map_eq_none_iff, List.find?_eq_none]
            intro symbol isListed same
            have isOther := longer symbol isListed first char (by simp_all)
            rcases isEnd char rfl with rfl | rfl
            · exact isOther.1 rfl
            · exact isOther.2 rfl
          have short : symbol? [first] =
              (Token.Kind.ofSymbol? (String.ofList [first])).map fun kind => (kind, 1) := by
            rw [symbol?, List.take_of_length_le (by simp), List.take_of_length_le (by simp)]
            cases Token.Kind.ofSymbol? (String.ofList [first]) <;> rfl
          rw [short, List.singleton_append, symbol?, List.take_succ_cons, List.take_succ_cons,
            List.take_zero, notLonger]
          rfl

end IsEnd

/-! ### One token -/

/-- The kind and the number of characters of the token at the start of a text inside of a tag; there
is none where a string is left open. Blanks go on over a line break unless it ends the tag. -/
def lexeme? (stops : Bool) (text : List Char) : Option (Token.Kind × Nat) :=
  match text with
  | [] => none
  | char :: rest =>
    if Text.isBlank char then
      some (.whitespace, (text.takeWhile fun char =>
        Text.isBlank char ∧ ¬(stops ∧ char = '\n')).length)
    else if char = '\'' ∨ char = '"' then
      (stringLength? char rest).map fun length => (.string, length + 1)
    else if char.isDigit then some (number text)
    else if isWordStart char then some (word text)
    else some ((symbol? text).getD (.data, 1))

theorem bracketsAfter_number (text : List Char) (brackets : Nat) :
    bracketsAfter (number text).1 brackets = brackets := by
  simp only [number]
  split <;> rfl

/-- A step inside of a tag takes the token that is found. -/
theorem exists_takeLexeme_eq_emit (inTag : state.mode = .tag kind brackets)
    (shows : state.rest = char :: text)
    (found : lexeme? (kind = .line ∧ brackets = 0) state.rest = some (token, length)) :
    ∃ diagnostics, takeLexeme sourceName kind brackets char state =
      { (state.emit sourceName token length).enter (.tag kind (bracketsAfter token brackets)) with
        diagnostics } := by
  have stays (token : Token.Kind) (length : Nat)
      (same : bracketsAfter token brackets = brackets) : state.emit sourceName token length =
        (state.emit sourceName token length).enter (.tag kind (bracketsAfter token brackets)) := by
    rw [same, State.emit_enter_self inTag]
  rw [shows] at found
  unfold lexeme? at found
  unfold takeLexeme
  dsimp only at found ⊢
  split at found
  · next isBlank =>
    simp only [Option.some.injEq, Prod.mk.injEq] at found
    rcases found with ⟨rfl, rfl⟩
    rw [if_pos isBlank, ← shows]
    refine ⟨state.diagnostics, (stays _ _ rfl).trans ?_⟩
    simp
    rfl
  · next notBlank =>
    rw [if_neg notBlank]
    split at found
    · next isQuote =>
      rcases Option.map_eq_some_iff.1 found with ⟨length, isString, same⟩
      cases same
      rw [if_pos isQuote, takeString, shows, List.drop_one, List.tail_cons, isString]
      exact ⟨state.diagnostics, stays _ _ rfl⟩
    · next notQuote =>
      rw [if_neg notQuote]
      split at found
      · next isDigit =>
        rw [if_pos isDigit, shows, Option.some.inj found]
        have same := bracketsAfter_number (char :: text) brackets
        rw [Option.some.inj found] at same
        exact ⟨state.diagnostics, stays _ _ same⟩
      · next notDigit =>
        rw [if_neg notDigit]
        split at found
        · next isStart =>
          rw [if_pos isStart, shows, Option.some.inj found]
          have same := bracketsAfter_wordKind
            (String.ofList ((char :: text).takeWhile isWordChar)) brackets
          change bracketsAfter (word (char :: text)).1 brackets = brackets at same
          rw [Option.some.inj found] at same
          exact ⟨state.diagnostics, stays _ _ same⟩
        · next notStart =>
          rw [if_neg notStart, shows]
          cases isSymbol : symbol? (char :: text) with
          | none =>
              rw [isSymbol] at found
              cases Option.some.inj found
              exact ⟨.unexpectedCharacter char state.position :: state.diagnostics,
                congrArg (State.report · _) (stays _ _ rfl)⟩
          | some symbol =>
              rw [isSymbol] at found
              cases Option.some.inj found
              exact ⟨state.diagnostics, rfl⟩

/-- A string that is left open is reported. -/
theorem unterminatedString_mem_of_lexeme? {stops : Bool} (shows : state.rest = char :: text)
    (notFound : lexeme? stops state.rest = none) : .unterminatedString state.position ∈
      (takeLexeme sourceName kind brackets char state).diagnostics := by
  rw [shows] at notFound
  unfold lexeme? at notFound
  unfold takeLexeme
  dsimp only at notFound
  split at notFound
  · simp at notFound
  · next notBlank =>
    split at notFound
    · next isQuote =>
      rw [if_neg notBlank, if_pos isQuote, takeString, shows, List.drop_one, List.tail_cons,
        Option.map_eq_none_iff.1 notFound]
      exact List.mem_cons_self
    · repeat' split at notFound
      all_goals simp at notFound

/-- A token that is found inside of a tag opens nothing and closes nothing, and stands in the
text. -/
theorem of_lexeme? {stops : Bool} (found : lexeme? stops text = some (token, length)) :
    (token.isInner = true ∨ token = .data) ∧ length ≤ text.length := by
  unfold lexeme? at found
  split at found
  · simp at found
  · next char rest =>
    split at found
    · cases found
      exact ⟨Or.inl rfl, (List.takeWhile_prefix _).length_le⟩
    · split at found
      · rcases Option.map_eq_some_iff.1 found with ⟨inside, isString, same⟩
        cases same
        rcases stringLength?_eq_some isString with ⟨body, after, _, rfl, rfl⟩
        exact ⟨Or.inl rfl, by simp⟩
      · split at found
        · have inner := isInner_number (char :: rest)
          have short := number_length_le (char :: rest)
          rw [Option.some.inj found] at inner short
          exact ⟨Or.inl inner, short⟩
        · split at found
          · have inner : (word (char :: rest)).1.isInner = true := isInner_wordKind _
            have short : (word (char :: rest)).2 ≤ (char :: rest).length :=
              (List.takeWhile_prefix _).length_le
            rw [Option.some.inj found] at inner short
            exact ⟨Or.inl inner, short⟩
          · cases isSymbol : symbol? (char :: rest) with
            | none =>
                rw [isSymbol] at found
                cases found
                exact ⟨Or.inr rfl, by simp⟩
            | some symbol =>
                rw [isSymbol] at found
                cases found
                rcases symbol?_eq_some isSymbol with ⟨⟨inner, _⟩, _, short⟩
                exact ⟨Or.inl inner, short⟩

/-- Without a line break it does not matter whether one ends the tag. -/
theorem takeWhile_isBlank_of_noBreak (stops : Bool) (noBreak : '\n' ∉ text) :
    text.takeWhile (fun char => Text.isBlank char ∧ ¬(stops ∧ char = '\n')) =
      text.takeWhile Text.isBlank := by
  induction text with
  | nil => rfl
  | cons char text ih =>
      rw [List.mem_cons, not_or] at noBreak
      simp [List.takeWhile_cons, Ne.symm noBreak.1, ← ih noBreak.2]

/-- Blanks without a line break are one token. -/
theorem lexeme?_of_all_isBlank {stops : Bool} (nonempty : text ≠ [])
    (areBlank : text.all Text.isBlank = true) (noBreak : '\n' ∉ text) :
    lexeme? stops text = some (.whitespace, text.length) := by
  have isWhole : text.takeWhile Text.isBlank = text :=
    List.takeWhile_eq_self_iff.2 (List.all_eq_true.1 areBlank)
  cases text with
  | nil => exact absurd rfl nonempty
  | cons char text =>
      rw [lexeme?, if_pos (List.all_eq_true.1 areBlank char List.mem_cons_self),
        takeWhile_isBlank_of_noBreak stops noBreak, isWhole]

theorem takeWhile_isBlank_append {stops : Bool} (isEnd : IsEnd after) (noBreak : '\n' ∉ text)
    (blankEnds : text.all Text.isBlank = true → after.head? = some '\n' → stops = true) :
    (text ++ after).takeWhile (fun char => Text.isBlank char ∧ ¬(stops ∧ char = '\n')) =
      text.takeWhile Text.isBlank := by
  rw [List.takeWhile_append, takeWhile_isBlank_of_noBreak stops noBreak]
  split
  · next isWhole =>
    have whole := (List.takeWhile_prefix Text.isBlank).eq_of_length isWhole
    have areBlank : text.all Text.isBlank = true :=
      List.all_eq_true.2 (List.takeWhile_eq_self_iff.1 whole)
    have noMore :
        after.takeWhile (fun char => Text.isBlank char ∧ ¬(stops ∧ char = '\n')) = [] := by
      cases after with
      | nil => rfl
      | cons char after =>
          refine List.takeWhile_cons_of_neg ?_
          rcases isEnd char rfl with rfl | rfl
          · simp [blankEnds areBlank rfl]
          · simp [show Text.isBlank '%' = false by decide]
    rw [noMore, List.append_nil, whole]
  · rfl

/-- A token without a line break is found again before an end. -/
theorem lexeme?_append {stops stops' : Bool} (isEnd : IsEnd after) (noBreak : '\n' ∉ text)
    (blankEnds : text.all Text.isBlank = true → after.head? = some '\n' → stops' = true)
    (found : lexeme? stops text = some (token, length)) :
    lexeme? stops' (text ++ after) = some (token, length) := by
  cases text with
  | nil => simp [lexeme?] at found
  | cons char text =>
      unfold lexeme? at found ⊢
      rw [List.cons_append]
      dsimp only at found ⊢
      split at found
      · next isBlank =>
        rw [takeWhile_isBlank_of_noBreak stops noBreak] at found
        rw [if_pos isBlank, ← List.cons_append, takeWhile_isBlank_append isEnd noBreak blankEnds]
        exact found
      · next notBlank =>
        rw [if_neg notBlank]
        split at found
        · next isQuote =>
          rw [if_pos isQuote]
          rcases Option.map_eq_some_iff.1 found with ⟨inside, isString, same⟩
          rcases stringLength?_eq_some isString with ⟨body, rest, isBody, rfl, rfl⟩
          have notBackslash : char ≠ '\\' := by rcases isQuote with rfl | rfl <;> decide
          rw [List.append_assoc, List.cons_append,
            isBody.stringLength?_append notBackslash (rest ++ after), ← same]
          rfl
        · next notQuote =>
          rw [if_neg notQuote, ← List.cons_append, isEnd.number_append, isEnd.word_append,
            isEnd.symbol?_append (List.cons_ne_nil char text)]
          exact found

/-! ### All tokens -/

/-- A text inside of a tag is cut into tokens. The brackets that are open are counted before it and
after it. -/
inductive Lexes : Nat → List Char → List Lexeme → Nat → Prop where
  | nil (brackets : Nat) : Lexes brackets [] [] brackets
  | cons {brackets final length : Nat} {token : Token.Kind} {text : List Char}
      {lexemes : List Lexeme} (nonempty : text ≠ [])
      (found : lexeme? false text = some (token, length))
      (rest : Lexes (bracketsAfter token brackets) (text.drop length) lexemes final) :
      Lexes brackets text (⟨token, String.ofList (text.take length)⟩ :: lexemes) final

namespace Lexes

theorem final_eq (lexes : Lexes brackets text lexemes final) :
    final = (lexemes.map Lexeme.kind).foldl (fun brackets kind => bracketsAfter kind brackets)
      brackets := by
  induction lexes with
  | nil => rfl
  | cons _ _ _ ih => exact ih

theorem isInner_or_data (lexes : Lexes brackets text lexemes final) :
    ∀ lexeme ∈ lexemes, lexeme.kind.isInner = true ∨ lexeme.kind = .data := by
  induction lexes with
  | nil => simp
  | cons _ found _ ih =>
      exact List.forall_mem_cons.2 ⟨(of_lexeme? found).1, ih⟩

end Lexes

/-- A text in which neither a line nor a block tag ends, whatever comes after it. -/
structure Unended (text : List Char) : Prop where
  noBreak : '\n' ∉ text
  noEnd : ¬['%', '\x7d'] <:+: text
  noDash : text.getLast? ≠ some '-'

/-- An end delimiter that stands at the start of a text does not stand across its end. -/
theorem IsEnd.not_prefix_append (isEnd : IsEnd after) (nonempty : text ≠ [])
    (noEnd : ¬['%', '\x7d'] <:+: text) : ¬['%', '\x7d'] <+: text ++ after := by
  intro starts
  match text, nonempty with
  | [_], _ =>
      rcases (List.cons_prefix_cons.1 starts).2 with ⟨others, rfl⟩
      exact absurd (isEnd '\x7d' rfl) (by decide)
  | first :: second :: text, _ =>
      have isPrefix : ['%', '\x7d'] <+: first :: second :: text := by
        simpa [List.cons_prefix_cons] using starts
      exact noEnd isPrefix.isInfix

namespace Unended

theorem drop (unended : Unended text) (count : Nat) : Unended (text.drop count) where
  noBreak isBreak := unended.noBreak (List.mem_of_mem_drop isBreak)
  noEnd ends := unended.noEnd (ends.trans (List.drop_suffix _ _).isInfix)
  noDash isDash := by
    rw [List.getLast?_drop] at isDash
    split at isDash
    · simp at isDash
    · exact unended.noDash isDash

/-- A dash before an end delimiter does not stand in a text that is not ended either. -/
theorem not_dash_prefix (unended : Unended text) (isEnd : IsEnd after) (nonempty : text ≠ []) :
    ¬['-', '%', '\x7d'] <+: text ++ after := by
  intro starts
  match text, nonempty with
  | [char], _ =>
      have isDash : '-' = char := (List.cons_prefix_cons.1 starts).1
      exact unended.noDash (by rw [isDash]; rfl)
  | _ :: second :: text, _ =>
      exact isEnd.not_prefix_append (List.cons_ne_nil second text) (unended.drop 1).noEnd
        (List.cons_prefix_cons.1 starts).2

end Unended

variable [Limits]

/-- A step in a block tag that does not end there takes a token. -/
theorem step_eq_takeLexeme_of_unended (isBlock : kind ≠ .variable)
    (sameEnd : dialect.blockEnd = "%\x7d") (unended : Unended (char :: text))
    (isEnd : IsEnd after) (inTag : state.mode = .tag kind brackets)
    (shows : state.rest = char :: (text ++ after)) :
    step dialect sourceName state = takeLexeme sourceName kind brackets char state := by
  have sameCloser : (closer dialect kind).1 = ['%', '\x7d'] := by
    rcases kind with _ | _ | _
    · simp [closer, sameEnd]
    · simp [closer, sameEnd]
    · exact absurd rfl isBlock
  have noEnd := isEnd.not_prefix_append (List.cons_ne_nil char text) unended.noEnd
  have noDashEnd := unended.not_dash_prefix isEnd (List.cons_ne_nil char text)
  have notBreak : char ≠ '\n' := fun isBreak => unended.noBreak (isBreak ▸ List.mem_cons_self)
  rw [step_of_tag inTag, stepTag_of_cons shows, sameCloser, if_neg (by simp [notBreak]), if_neg]
  rintro (⟨rfl, starts⟩ | starts)
  · rw [Text.startsWith_iff] at starts
    exact noDashEnd (List.cons_prefix_cons.2 ⟨rfl, starts⟩)
  · exact noEnd (Text.startsWith_iff.1 starts)

/-- Tokens that are told by their text are found by a walk, whatever ends the text. -/
theorem Lexes.exists_walks {final : Nat} (lexes : Lexes brackets text lexemes final)
    (isBlock : kind ≠ .variable) (sameEnd : dialect.blockEnd = "%\x7d") (unended : Unended text)
    (isEnd : IsEnd after) (isClosed : final = 0)
    (stops : after.head? = some '\n' → kind = .line) (inTag : state.mode = .tag kind brackets)
    (shows : state.rest = text ++ after) : ∃ next,
      Relation.ReflTransGen (StepsTo dialect sourceName) state next ∧
      next.mode = .tag kind 0 ∧ next.rest = after ∧
      next.tokens.map Token.lexeme = lexemes.reverse ++ state.tokens.map Token.lexeme := by
  induction lexes generalizing state with
  | nil => exact ⟨state, .refl, isClosed ▸ inTag, shows, rfl⟩
  | @cons brackets final length token text lexemes nonempty found rest ih =>
      -- Where only blanks are left, no bracket is open.
      have blankEnds (areBlank : text.all Text.isBlank = true)
          (isBreak : after.head? = some '\n') : decide (kind = .line ∧ brackets = 0) = true := by
        rw [lexeme?_of_all_isBlank nonempty areBlank unended.noBreak] at found
        cases found
        rw [List.drop_length] at rest
        rcases rest with _ | ⟨nonempty, _⟩
        · have noneOpen : brackets = 0 := isClosed
          simp [stops isBreak, noneOpen]
        · exact absurd rfl nonempty
      have foundAgain := lexeme?_append isEnd unended.noBreak blankEnds found
      have short := (of_lexeme? found).2
      rcases List.exists_cons_of_ne_nil nonempty with ⟨char, text, rfl⟩
      rw [← shows] at foundAgain
      have taken : step dialect sourceName state = _ :=
        step_eq_takeLexeme_of_unended isBlock sameEnd unended isEnd inTag shows
      rcases exists_takeLexeme_eq_emit inTag shows foundAgain with ⟨diagnostics, same⟩
      have showsRest : (step dialect sourceName state).rest =
          (char :: text).drop length ++ after := by
        rw [taken, same]
        change state.rest.drop length = _
        rw [shows, List.drop_append_of_le_length short]
      have inTagAfter : (step dialect sourceName state).mode =
          .tag kind (bracketsAfter token brackets) := by
        rw [taken, same]
        rfl
      rcases ih (unended.drop length) isClosed inTagAfter showsRest with
        ⟨next, walks, inTag, showsNext, sameTokens⟩
      have stepsTo : StepsTo dialect sourceName state (step dialect sourceName state) :=
        ⟨by simp [shows], rfl⟩
      refine ⟨next, .head stepsTo walks, inTag, showsNext, ?_⟩
      have sameText : state.rest.take length = (char :: text).take length := by
        rw [shows, List.take_append_of_le_length short]
      have taking : (step dialect sourceName state).tokens.map Token.lexeme =
          ⟨token, String.ofList ((char :: text).take length)⟩ ::
            state.tokens.map Token.lexeme := by
        rw [taken, same, ← sameText]
        rfl
      rw [sameTokens, taking]
      simp

/-- What was noted is still noted at the end of a walk. -/
theorem mem_diagnostics_of_walks {diagnostic : Diagnostic}
    (walks : Relation.ReflTransGen (StepsTo dialect sourceName) state last)
    (noted : diagnostic ∈ state.diagnostics) : diagnostic ∈ last.diagnostics := by
  refine walks_keep (fun state => diagnostic ∈ state.diagnostics) ?_ walks noted
  intro state noted nonempty
  have move : Move dialect sourceName state (step dialect sourceName state) := step_move nonempty
  exact move.diagnostics_suffix.subset noted

/-- The tokens inside of a block tag that is not ended are told by their text, if no string is left
open. -/
theorem exists_lexes_of_walks (sameEnd : dialect.blockEnd = "%\x7d")
    (walks : Relation.ReflTransGen (StepsTo dialect sourceName) state last)
    (atEnd : last.rest = []) (unended : Unended state.rest)
    (noOpenString : ∀ position, .unterminatedString position ∉ last.diagnostics)
    (inTag : state.mode = .tag .block brackets) : ∃ lexemes final,
      Lexes brackets state.rest lexemes final ∧ last.mode = .tag .block final ∧
      last.tokens.map Token.lexeme = lexemes.reverse ++ state.tokens.map Token.lexeme := by
  induction walks using Relation.ReflTransGen.head_induction_on generalizing brackets with
  | refl => exact ⟨[], brackets, atEnd ▸ .nil _, inTag, rfl⟩
  | @head state _ stepsTo walks ih =>
      rcases stepsTo with ⟨nonempty, rfl⟩
      rcases List.exists_cons_of_ne_nil nonempty with ⟨char, text, shows⟩
      have isEnd : IsEnd [] := by simp [IsEnd]
      have taken : step dialect sourceName state = _ :=
        step_eq_takeLexeme_of_unended (by simp) sameEnd (shows ▸ unended) isEnd inTag
          (shows.trans (by rw [List.append_nil]))
      have notLine : decide (TagKind.block = .line ∧ brackets = 0) = false := by simp
      cases found : lexeme? false state.rest with
      | none =>
          have noted := mem_diagnostics_of_walks walks
            (taken ▸ unterminatedString_mem_of_lexeme? shows found)
          exact absurd noted (noOpenString _)
      | some taking =>
          rcases taking with ⟨token, length⟩
          rcases exists_takeLexeme_eq_emit inTag shows (notLine ▸ found) with ⟨diagnostics, same⟩
          rw [taken, same] at ih
          rcases ih (unended.drop length) rfl with ⟨lexemes, final, lexes, lastMode, sameTokens⟩
          refine ⟨_, final, .cons nonempty found lexes, lastMode, ?_⟩
          rw [sameTokens, List.reverse_cons, List.append_assoc]
          rfl

end Stencil.Lexer

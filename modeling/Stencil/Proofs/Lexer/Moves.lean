import Stencil.Lexer.Basic
import Stencil.Proofs.Lexer.Openings
import Stencil.Proofs.Lexer.Quoted
import Stencil.Proofs.Token.Region

/-!
# The moves of the lexer

Everything that one step of the walk can do, as a relation between the state before the step and
the state after it. A move names the text that it takes, so that what holds along a walk can be
proved move by move, without a look at how the text was found.
-/

namespace Stencil

namespace Lexer

namespace State

variable {state : State} {text after : List Char} {sourceName : Option String}
  {kind : Token.Kind}

theorem skip_eq_of_rest (shows : state.rest = text ++ after) :
    state.skip text.length =
      { state with position := state.position.advanceOver text, rest := after } := by
  simp [skip, shows]

theorem emit_eq_of_rest (shows : state.rest = text ++ after) :
    state.emit sourceName kind text.length =
      { state with
        position := state.position.advanceOver text
        rest := after
        tokens := ⟨kind, String.ofList text, state.position, sourceName⟩ :: state.tokens } := by
  simp [emit, skip, shows]

theorem emit_rest_of_rest (shows : state.rest = text ++ after) :
    (state.emit sourceName kind text.length).rest = after := by
  rw [emit_eq_of_rest shows]

theorem head?_emit_of_rest (shows : state.rest = text ++ after) :
    (state.emit sourceName kind text.length).tokens.head? =
      some ⟨kind, String.ofList text, state.position, sourceName⟩ := by
  rw [emit_eq_of_rest shows]
  rfl

@[simp]
theorem emit_mode (state : State) (kind : Token.Kind) (count : Nat) :
    (state.emit sourceName kind count).mode = state.mode := rfl

@[simp]
theorem enter_rest (state : State) (mode : Mode) : (state.enter mode).rest = state.rest := rfl

@[simp]
theorem enter_position (state : State) (mode : Mode) :
    (state.enter mode).position = state.position := rfl

@[simp]
theorem enter_tokens (state : State) (mode : Mode) :
    (state.enter mode).tokens = state.tokens := rfl

@[simp]
theorem enter_mode (state : State) (mode : Mode) : (state.enter mode).mode = mode := rfl

@[simp]
theorem report_rest (state : State) (diagnostic : Diagnostic) :
    (state.report diagnostic).rest = state.rest := rfl

@[simp]
theorem report_position (state : State) (diagnostic : Diagnostic) :
    (state.report diagnostic).position = state.position := rfl

@[simp]
theorem report_tokens (state : State) (diagnostic : Diagnostic) :
    (state.report diagnostic).tokens = state.tokens := rfl

@[simp]
theorem report_mode (state : State) (diagnostic : Diagnostic) :
    (state.report diagnostic).mode = state.mode := rfl

@[simp]
theorem stripLast_rest (state : State) (strip : Bool) :
    (state.stripLast strip).rest = state.rest := by
  unfold stripLast
  repeat' split
  all_goals rfl

@[simp]
theorem stripLast_position (state : State) (strip : Bool) :
    (state.stripLast strip).position = state.position := by
  unfold stripLast
  repeat' split
  all_goals rfl

@[simp]
theorem stripLast_false (state : State) : state.stripLast false = state := rfl

/-- What is left of a token without the blanks at its end. -/
def trimmed (token : Token) : List Token :=
  if Text.trimEnd token.text.toList = [] then []
  else [{ token with text := String.ofList (Text.trimEnd token.text.toList) }]

/-- Only plain text is stripped. -/
theorem stripLast_cases (state : State) (strip : Bool) : state.stripLast strip = state ∨
    ∃ last tokens, state.tokens = last :: tokens ∧ last.kind = .data ∧
      state.stripLast strip = { state with tokens := trimmed last ++ tokens } := by
  unfold stripLast
  split
  · next tokens last _ sameTokens =>
    split
    · next isData =>
      refine Or.inr ⟨last, _, sameTokens, isData, ?_⟩
      split
      · next empty => simp [trimmed, empty]
      · next nonempty => simp [trimmed, if_neg nonempty]
    · exact Or.inl rfl
  · exact Or.inl rfl

theorem enter_eq_self {mode : Mode} (sameMode : state.mode = mode) : state.enter mode = state := by
  subst sameMode
  rfl

/-- The line break that is dropped, if there is one. -/
theorem exists_skipNewline (state : State) : ∃ text after, state.rest = text ++ after ∧
    state.skipNewline = state.skip text.length ∧ text ∈ [[], ['\n'], ['\r', '\n']] := by
  unfold skipNewline
  split
  · next after shows => exact ⟨['\r', '\n'], after, shows, rfl, by simp⟩
  · next after shows => exact ⟨['\n'], after, shows, rfl, by simp⟩
  · exact ⟨[], state.rest, rfl, rfl, by simp⟩

/-- The blanks that are dropped. -/
theorem exists_skipBlanks (state : State) : ∃ text after, state.rest = text ++ after ∧
    state.skipBlanks = state.skip text.length ∧ text.all Text.isBlank = true :=
  ⟨state.rest.takeWhile Text.isBlank, state.rest.dropWhile Text.isBlank,
    List.takeWhile_append_dropWhile.symm, rfl, List.all_takeWhile⟩

end State

/-- The kind of the token that a start delimiter is taken as. -/
def Start.kind : Start → Token.Kind
  | .block => .blockBegin
  | .variable => .variableBegin
  | .comment => .commentBegin

/-- The mode after a start delimiter at a position. -/
def Start.mode (position : Position) : Start → Mode
  | .block => .tag .block 0
  | .variable => .tag .variable 0
  | .comment => .comment position

variable (dialect : Dialect) (sourceName : Option String)

/-- What one step of the walk can make of a state. -/
inductive Move [Limits] (state : State) : State → Prop where
  | dropNewline {strip : Bool} (inText : state.mode = .text true strip) :
      Move state (state.skipNewline.enter (.text false strip))
  | dropBlanks (inText : state.mode = .text false true) :
      Move state (state.skipBlanks.enter (.text false false))
  | openTag (start : Start) (strip : Bool) {after : List Char}
      (inText : state.mode = .text false false)
      (shows : state.rest = start.delimiter dialect ++ dash strip ++ after) :
      Move state (((state.stripLast strip).emit sourceName start.kind
        (start.delimiter dialect ++ dash strip).length).enter (start.mode state.position))
  | openRaw {tag : WordTag} {after : List Char} (inText : state.mode = .text false false)
      (fits : tag.Fits dialect "raw".toList state.rest after) :
      Move state (((state.stripLast tag.stripBefore).emit sourceName .rawBegin tag.length).enter
        (.raw state.position tag.stripAfter))
  | openLine {indent after : List Char} {marker : String} (inText : state.mode = .text false false)
      (isMarker : dialect.lineStatement = some marker)
      (shows : state.rest = indent ++ marker.toList ++ after) :
      Move state ((state.emit sourceName .blockBegin (indent ++ marker.toList).length).enter
        (.tag .line 0))
  | lineComment {indent line after : List Char} {marker : String}
      (inText : state.mode = .text false false) (isMarker : dialect.lineComment = some marker)
      (shows : state.rest = indent ++ line ++ after) (fits : marker.toList <+: line ++ after)
      (wholeLine : line.length = lineLength (line ++ after))
      (found : opening? dialect (state.position.column = 1) state.rest =
        some (.lineComment (indent ++ line).length)) :
      Move state (state.emit sourceName .lineComment (indent ++ line).length)
  | plain {plain after : List Char} (inText : state.mode = .text false false)
      (shows : state.rest = plain ++ after) (nonempty : plain ≠ [])
      (notOpening : opening? dialect (state.position.column = 1) state.rest = none)
      (ends : after = [] ∨
        (opening? dialect (plain.getLast? = some '\n') after).isSome = true) :
      Move state (state.emit sourceName .data plain.length)
  | endLine {after : List Char} (inTag : state.mode = .tag .line 0)
      (shows : state.rest = ['\n'] ++ after) :
      Move state ((state.emit sourceName .blockEnd ['\n'].length).enter (.text false false))
  | closeTag {kind : TagKind} {brackets : Nat} (strip : Bool) {after : List Char}
      (inTag : state.mode = .tag kind brackets)
      (shows : state.rest = dash strip ++ (closer dialect kind).1 ++ after) :
      Move state ((state.emit sourceName (closer dialect kind).2
        (dash strip ++ (closer dialect kind).1).length).enter
          (.text (kind = .block ∧ dialect.trimBlocks) strip))
  | lexeme {kind : TagKind} {brackets bracketsAfter : Nat} {text after : List Char}
      {token : Token.Kind} (inTag : state.mode = .tag kind brackets)
      (shows : state.rest = text ++ after) (nonempty : text ≠ []) (inner : token.isInner = true)
      (quoted : token = .string → IsQuoted text) :
      Move state ((state.emit sourceName token text.length).enter (.tag kind bracketsAfter))
  | unclosedString {kind : TagKind} {brackets : Nat} (inTag : state.mode = .tag kind brackets)
      (unquoted : ¬IsQuoted state.rest) :
      Move state (((state.emit sourceName .string state.rest.length).report
        (.unterminatedString state.position)).enter (.tag kind brackets))
  | strayChar {kind : TagKind} {brackets : Nat} {char : Char} {after : List Char}
      (inTag : state.mode = .tag kind brackets) (shows : state.rest = [char] ++ after) :
      Move state (((state.emit sourceName .data [char].length).report
        (.unexpectedCharacter char state.position)).enter (.tag kind brackets))
  | closeComment {opened : Position} (strip : Bool) {body after : List Char}
      (inComment : state.mode = .comment opened)
      (shows : state.rest = body ++ (dash strip ++ dialect.commentEnd.toList ++ after)) :
      Move state (((state.emit sourceName .comment body.length).emit sourceName .commentEnd
        (dash strip ++ dialect.commentEnd.toList).length).enter (.text dialect.trimBlocks strip))
  | unclosedComment {opened : Position} (inComment : state.mode = .comment opened) :
      Move state (((state.emit sourceName .comment state.rest.length).report
        (.unterminatedComment opened)).enter (.text false false))
  | dropRawBlanks {opened : Position} (inRaw : state.mode = .raw opened true) :
      Move state (state.skipBlanks.enter (.raw opened false))
  | closeEmptyRaw {opened : Position} {tag : WordTag} {after : List Char}
      (inRaw : state.mode = .raw opened false)
      (fits : tag.Fits dialect "endraw".toList state.rest after) :
      Move state (((state.stripLast tag.stripBefore).emit sourceName .rawEnd tag.length).enter
        (.text dialect.trimBlocks tag.stripAfter))
  | closeRaw {opened : Position} {tag : WordTag} {content rest after : List Char}
      (inRaw : state.mode = .raw opened false) (shows : state.rest = content ++ rest)
      (nonempty : content ≠ []) (fits : tag.Fits dialect "endraw".toList rest after) :
      Move state ((((state.emit sourceName .data content.length).stripLast tag.stripBefore).emit
        sourceName .rawEnd tag.length).enter (.text dialect.trimBlocks tag.stripAfter))
  | unclosedRaw {opened : Position} (inRaw : state.mode = .raw opened false) :
      Move state (((state.emit sourceName .data state.rest.length).report
        (.unterminatedRaw opened)).enter (.text false false))

/-! ### Lexemes take text -/

theorem digitCount_le (text : List Char) : digitCount text ≤ text.length :=
  (List.takeWhile_prefix _).length_le

theorem fractionLength_le (text : List Char) : fractionLength text ≤ text.length := by
  unfold fractionLength
  split
  · next text =>
    have := digitCount_le text
    simp only [List.length_cons]
    split <;> omega
  · exact Nat.zero_le _

theorem exponentDigits_le (text : List Char) : exponentDigits text ≤ text.length := by
  unfold exponentDigits
  split
  · next text =>
    have := digitCount_le text
    simp only [List.length_cons]
    split <;> omega
  · next text =>
    have := digitCount_le text
    simp only [List.length_cons]
    split <;> omega
  · exact digitCount_le text

theorem exponentLength_le (text : List Char) : exponentLength text ≤ text.length := by
  unfold exponentLength
  split
  · next text =>
    have := exponentDigits_le text
    simp only [List.length_cons]
    split <;> omega
  · next text =>
    have := exponentDigits_le text
    simp only [List.length_cons]
    split <;> omega
  · exact Nat.zero_le _

theorem number_length_le (text : List Char) : (number text).2 ≤ text.length := by
  have digits := digitCount_le text
  have fraction := fractionLength_le (text.drop (digitCount text))
  have exponent := exponentLength_le
    (text.drop (digitCount text + fractionLength (text.drop (digitCount text))))
  simp only [List.length_drop] at fraction exponent
  simp only [number]
  omega

theorem number_length_pos {char : Char} {text : List Char} (isDigit : char.isDigit = true) :
    0 < (number (char :: text)).2 := by
  have : 0 < digitCount (char :: text) := by
    simp [digitCount, isDigit]
  simp only [number]
  omega

theorem isInner_number (text : List Char) : (number text).1.isInner = true := by
  simp only [number]
  split <;> rfl

theorem number_ne_string (text : List Char) : (number text).1 ≠ .string := by
  simp only [number]
  split <;> simp

theorem isInner_wordKind (word : String) : (wordKind word).isInner = true := by
  unfold wordKind
  split
  · rfl
  · split <;> rfl

theorem wordKind_ne_string (word : String) : wordKind word ≠ .string := by
  unfold wordKind
  split
  · simp
  · split <;> simp

theorem isInner_of_ofSymbol? {spelling : String} {kind : Token.Kind}
    (found : Token.Kind.ofSymbol? spelling = some kind) :
    kind.isInner = true ∧ kind ≠ .string := by
  have allInner : ∀ entry ∈ Token.Kind.symbols,
      entry.2.isInner = true ∧ entry.2 ≠ .string := by
    decide
  rcases Option.map_eq_some_iff.1 found with ⟨entry, isEntry, rfl⟩
  exact allInner entry (List.mem_of_find?_eq_some isEntry)

theorem symbol?_eq_some {char : Char} {text : List Char} {kind : Token.Kind} {length : Nat}
    (found : symbol? (char :: text) = some (kind, length)) :
    (kind.isInner = true ∧ kind ≠ .string) ∧ 0 < length ∧ length ≤ (char :: text).length := by
  unfold symbol? at found
  split at found
  · next isSymbol =>
    simp only [Option.some.injEq, Prod.mk.injEq] at found
    rcases found with ⟨rfl, rfl⟩
    exact ⟨isInner_of_ofSymbol? isSymbol, by simp, List.length_take_le' _ _⟩
  · simp only [Option.map_eq_some_iff, Prod.mk.injEq] at found
    rcases found with ⟨kind, isSymbol, rfl, rfl⟩
    exact ⟨isInner_of_ofSymbol? isSymbol, by simp, by simp⟩

/-! ### Every step is a move -/

variable [Limits] {dialect sourceName} {state : State}

theorem openWith_move {opening : Opening} (inText : state.mode = .text false false)
    (found : opening? dialect (state.position.column = 1) state.rest = some opening) :
    Move dialect sourceName state (openWith sourceName opening state) := by
  rcases Option.or_eq_some_iff.1 found with foundLine | ⟨_, foundDelimiter⟩
  · have foundLine : linePrefix? dialect state.rest = some opening := by
      split at foundLine
      · exact foundLine
      · simp at foundLine
    rcases linePrefix?_eq_some foundLine with ⟨indent, rest, sameText, _, isStatement | isComment⟩
    · rcases isStatement with ⟨marker, after, isMarker, rfl, rfl⟩
      exact .openLine inText isMarker (by rw [sameText, List.append_assoc])
    · rcases isComment with ⟨marker, line, after, isMarker, fits, rfl, wholeLine, rfl⟩
      exact .lineComment inText isMarker (by rw [sameText, List.append_assoc]) fits wholeLine
        found
  · rcases delimiter?_eq_some foundDelimiter with isPlain | ⟨tag, after, rfl, fits⟩
    · rcases isPlain with ⟨start, strip, after, shows, rfl⟩
      have shows : state.rest = start.delimiter dialect ++ dash strip ++ after := by
        rw [shows, List.append_assoc]
      cases start <;> exact .openTag _ strip inText shows
    · exact .openRaw inText fits

theorem stepText_move {trimNewline stripBlanks : Bool}
    (inText : state.mode = .text trimNewline stripBlanks) (nonempty : state.rest ≠ []) :
    Move dialect sourceName state
      (stepText dialect sourceName trimNewline stripBlanks state) := by
  unfold stepText
  cases trimNewline with
  | true => exact .dropNewline inText
  | false =>
      cases stripBlanks with
      | true => exact .dropBlanks inText
      | false =>
          simp only [Bool.false_eq_true, if_false]
          split
          · next opening found => exact openWith_move inText found
          · next notOpening =>
            rcases exists_plainLength dialect nonempty with
              ⟨plain, after, shows, sameLength, hasText, ends⟩
            rw [← sameLength]
            exact .plain inText shows hasText notOpening ends

/-- A lexeme given by the number of its characters. -/
theorem lexeme_move {kind : TagKind} {brackets bracketsAfter count : Nat} {token : Token.Kind}
    (inTag : state.mode = .tag kind brackets) (inner : token.isInner = true)
    (quoted : token = .string → IsQuoted (state.rest.take count)) (pos : 0 < count)
    (short : count ≤ state.rest.length) :
    Move dialect sourceName state
      ((state.emit sourceName token count).enter (.tag kind bracketsAfter)) := by
  have sameLength : (state.rest.take count).length = count := List.length_take_of_le short
  have nonempty : state.rest.take count ≠ [] := by
    rw [← List.length_pos_iff, sameLength]
    exact pos
  have moved : Move dialect sourceName state
      ((state.emit sourceName token (state.rest.take count).length).enter
        (.tag kind bracketsAfter)) :=
    .lexeme inTag (List.take_append_drop count state.rest).symm nonempty inner quoted
  rwa [sameLength] at moved

/-- A lexeme that leaves the brackets as they are. -/
theorem lexeme_move_same {kind : TagKind} {brackets count : Nat} {token : Token.Kind}
    (inTag : state.mode = .tag kind brackets) (inner : token.isInner = true)
    (quoted : token = .string → IsQuoted (state.rest.take count)) (pos : 0 < count)
    (short : count ≤ state.rest.length) :
    Move dialect sourceName state (state.emit sourceName token count) := by
  have sameMode : (state.emit sourceName token count).mode = .tag kind brackets := inTag
  rw [← State.enter_eq_self sameMode]
  exact lexeme_move inTag inner quoted pos short

theorem takeString_move {kind : TagKind} {brackets : Nat} {quote : Char} {text : List Char}
    (inTag : state.mode = .tag kind brackets) (isQuote : quote = '\'' ∨ quote = '"')
    (shows : state.rest = quote :: text) :
    Move dialect sourceName state (takeString sourceName quote state) := by
  unfold takeString
  simp only [shows, List.drop_succ_cons, List.drop_zero]
  split
  · next length found =>
    apply lexeme_move_same inTag rfl
    · intro _
      rw [shows]
      exact isQuoted_take_of_stringLength? isQuote found
    · omega
    · rcases stringLength?_eq_some found with ⟨body, rest, _, rfl, rfl⟩
      simp only [shows, List.length_cons, List.length_append]
      omega
  · next notFound =>
    rw [← shows]
    have sameMode : ((state.emit sourceName .string state.rest.length).report
        (.unterminatedString state.position)).mode = .tag kind brackets := inTag
    rw [← State.enter_eq_self sameMode]
    exact .unclosedString inTag (shows ▸ not_isQuoted_of_stringLength? notFound)

theorem takeLexeme_move {kind : TagKind} {brackets : Nat} {char : Char} {text : List Char}
    (inTag : state.mode = .tag kind brackets) (shows : state.rest = char :: text)
    (notLineEnd : ¬(kind = .line ∧ brackets = 0 ∧ char = '\n')) :
    Move dialect sourceName state (takeLexeme sourceName kind brackets char state) := by
  unfold takeLexeme
  split
  · next isBlank =>
    apply lexeme_move_same inTag rfl (by simp)
    · -- The blank character itself belongs to the run, unless it ends a line statement.
      rw [shows, List.takeWhile_cons_of_pos (by grind)]
      exact Nat.succ_pos _
    · exact (List.takeWhile_prefix _).length_le
  · split
    · next isQuote => exact takeString_move inTag isQuote shows
    · split
      · next isDigit =>
        apply lexeme_move_same inTag (isInner_number _)
          fun isString => absurd isString (number_ne_string _)
        · rw [shows]
          exact number_length_pos isDigit
        · exact number_length_le _
      · split
        · next isStart =>
          apply lexeme_move_same inTag (isInner_wordKind _)
            fun isString => absurd isString (wordKind_ne_string _)
          · have isChar : isWordChar char = true := by
              simp only [isWordStart, Bool.or_eq_true] at isStart
              simp only [isWordChar, Char.isAlphanum, Bool.or_eq_true]
              rcases isStart with isAlpha | isUnderscore
              · exact Or.inl (Or.inl isAlpha)
              · exact Or.inr isUnderscore
            rw [shows, List.takeWhile_cons_of_pos isChar]
            exact Nat.succ_pos _
          · exact (List.takeWhile_prefix _).length_le
        · split
          · next symbol length found =>
            rw [shows] at found
            rcases symbol?_eq_some found with ⟨⟨inner, notString⟩, pos, short⟩
            exact lexeme_move inTag inner (fun isString => absurd isString notString) pos
              (by rw [shows]; exact short)
          · have sameMode : ((state.emit sourceName .data 1).report
                (.unexpectedCharacter char state.position)).mode = .tag kind brackets := inTag
            rw [← State.enter_eq_self sameMode]
            exact .strayChar inTag shows

theorem stepTag_move {kind : TagKind} {brackets : Nat} (inTag : state.mode = .tag kind brackets)
    (nonempty : state.rest ≠ []) :
    Move dialect sourceName state (stepTag dialect sourceName kind brackets state) := by
  unfold stepTag
  split
  · next empty => exact absurd empty nonempty
  · next char text shows =>
    simp only
    split
    · next lineEnds =>
      rcases lineEnds with ⟨rfl, rfl, rfl⟩
      exact .endLine inTag shows
    · next notLineEnd =>
      split
      · next closes =>
        by_cases strip : char = '-' ∧ Text.startsWith (closer dialect kind).1 text = true
        · rcases strip with ⟨rfl, starts⟩
          rcases Text.startsWith_iff.1 starts with ⟨after, sameText⟩
          have showsDash : state.rest = dash true ++ (closer dialect kind).1 ++ after := by
            rw [shows, ← sameText]
            rfl
          have moved : Move dialect sourceName state _ := .closeTag true inTag showsDash
          simpa [starts, Nat.add_comm] using moved
        · have starts := closes.resolve_left strip
          rcases Text.startsWith_iff.1 starts with ⟨after, sameText⟩
          have showsEnd : state.rest = dash false ++ (closer dialect kind).1 ++ after := by
            rw [shows, ← sameText]
            rfl
          have moved : Move dialect sourceName state _ := .closeTag false inTag showsEnd
          simpa [strip] using moved
      · exact takeLexeme_move inTag shows notLineEnd

theorem stepComment_move {opened : Position} (inComment : state.mode = .comment opened) :
    Move dialect sourceName state (stepComment dialect sourceName opened state) := by
  unfold stepComment
  split
  · next length found =>
    rcases Text.find?_eq_some found with ⟨before, after, shows, rfl⟩
    simp only [shows, List.take_left]
    -- The body of the comment is what stands before the dash, if there is one.
    by_cases strip : before.getLast? = some '-'
    · obtain ⟨body, rfl⟩ : ∃ body, before = body ++ ['-'] := List.getLast?_eq_some_iff.1 strip
      have showsDash : state.rest =
          body ++ (dash true ++ dialect.commentEnd.toList ++ after) := by
        simp [shows]
      have moved : Move dialect sourceName state _ := .closeComment true inComment showsDash
      simpa [Nat.add_comm, String.length_toList] using moved
    · have showsEnd : state.rest =
          before ++ (dash false ++ dialect.commentEnd.toList ++ after) := by
        simp [shows]
      have moved : Move dialect sourceName state _ := .closeComment false inComment showsEnd
      simpa [strip, String.length_toList] using moved
  · exact .unclosedComment inComment

theorem stepRaw_move {opened : Position} {stripBlanks : Bool}
    (inRaw : state.mode = .raw opened stripBlanks) :
    Move dialect sourceName state (stepRaw dialect sourceName opened stripBlanks state) := by
  unfold stepRaw
  cases stripBlanks with
  | true => exact .dropRawBlanks inRaw
  | false =>
      simp only [Bool.false_eq_true, if_false]
      split
      · next length tag found =>
        rcases rawEnd?_eq_some found with ⟨content, rest, after, shows, rfl, fits⟩
        cases content with
        | nil =>
            rw [List.nil_append] at shows
            exact .closeEmptyRaw inRaw (shows ▸ fits)
        | cons char content =>
            rw [if_neg (by simp)]
            exact .closeRaw inRaw shows (by simp) fits
      · exact .unclosedRaw inRaw

/-- Every step of the walk is a move. -/
theorem step_move (nonempty : state.rest ≠ []) :
    Move dialect sourceName state (step dialect sourceName state) := by
  unfold step
  split
  · next inText => exact stepText_move inText nonempty
  · next inTag => exact stepTag_move inTag nonempty
  · next inComment => exact stepComment_move inComment
  · next inRaw => exact stepRaw_move inRaw

/-- What every move keeps holds at the end of a walk, where no text is left. -/
theorem run_keeps (holds : State → Prop)
    (keeps : ∀ {before after : State}, holds before → before.rest ≠ [] →
      Move dialect sourceName before after → holds after)
    {steps : Nat} {last : State} (start : holds state)
    (ends : run dialect sourceName steps state = some last) : holds last ∧ last.rest = [] := by
  induction steps generalizing state with
  | zero =>
      rw [run] at ends
      split at ends
      · next empty =>
        cases ends
        exact ⟨start, empty⟩
      · simp at ends
  | succ steps ih =>
      rw [run] at ends
      split at ends
      · next empty =>
        cases ends
        exact ⟨start, empty⟩
      · next nonempty => exact ih (keeps start nonempty (step_move nonempty)) ends

/-- A text that was cut into tokens was walked over to its end. -/
theorem exists_run_of_tokenize {source : String} {result : Tokenization}
    (cut : tokenize dialect sourceName source = some result) : ∃ steps last,
      run dialect sourceName steps (.ofSource source.toList) = some last ∧
      result.tokens = (finish sourceName last).tokens.reverse ∧
      result.diagnostics = (finish sourceName last).diagnostics.reverse := by
  rcases Option.bind_eq_some_iff.1 cut with ⟨last, ends, sameResult⟩
  cases sameResult
  exact ⟨_, last, ends, rfl, rfl⟩

end Lexer

end Stencil

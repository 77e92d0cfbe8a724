import Stencil.Profiles
import Stencil.Proofs.Lexer.InnerText
import Stencil.Proofs.Lexer.Occurrences
import Stencil.Proofs.Lexer.RawBlocks

/-!
# Line statements

A line statement is cut into the tokens of the block tag that it stands for. Only the tokens at its
ends are others: its prefix opens it, and its line break, or the end of the source, closes it.
-/

namespace Stencil

open Lexer

section

variable [Limits]

/-- What a block tag may hold so that a line can hold it too: it ends neither the tag nor the line,
asks for no blanks to be dropped, opens no raw block, and leaves neither a string nor a bracket
open. -/
structure IsTagText (text : String) : Prop where
  noBreak : '\n' ∉ text.toList
  noDash : text.toList.head? ≠ some '-' ∧ text.toList.getLast? ≠ some '-'
  noEnd : ¬"%\x7d".toList <:+: text.toList
  notRaw : ∀ leading trailing : List Char, leading.all Text.isBlank = true →
    trailing.all Text.isBlank = true → text.toList ≠ leading ++ ("raw".toList ++ trailing)
  closed : ∃ result, tokenize {} none ("\x7b%" ++ text) = some result ∧
    (∀ position, .unterminatedString position ∉ result.diagnostics) ∧
    (result.tokens.map Token.kind).foldl (fun brackets kind => bracketsAfter kind brackets) 0 = 0

namespace Lexer

variable {dialect : Dialect} {sourceName : Option String} {state last : State} {kind : TagKind}
  {text after : List Char} {lexemes : List Lexeme} {setting : Option String} {trim : Bool}
  {marker : String} {inner : String}

/-! ### Opening -/

/-- A tag that holds no end delimiter and is none around the word `raw` opens no raw block. -/
theorem wordTag?_raw_eq_none (isTagText : IsTagText inner)
    (ends : after = [] ∨ after = "%\x7d".toList) :
    wordTag? {} "raw".toList ("\x7b%".toList ++ (inner.toList ++ after)) = none := by
  apply Option.eq_none_iff_forall_ne_some.2
  intro tag found
  rcases fits_of_wordTag? found with ⟨more, fits⟩
  rcases fits.exists_written with ⟨leading, trailing, leadingBlank, trailingBlank, same, _⟩
  -- What stands in the tag before its end is all of the text.
  obtain ⟨front, isFront, same⟩ : ∃ front, front = dash tag.stripBefore ++ (leading ++
      ("raw".toList ++ (trailing ++ dash tag.stripAfter))) ∧
      inner.toList ++ after = front ++ (['%', '\x7d'] ++ more) := by
    refine ⟨_, rfl, ?_⟩
    rw [WordTag.written] at same
    simpa using same
  have isWhole : inner.toList = front := by
    rcases List.append_eq_append_iff.1 same with ⟨middle, isFront, isAfter⟩ |
      ⟨middle, isInner, isMore⟩
    · rcases ends with rfl | rfl
      · simp at isAfter
      · have two : "%\x7d".toList.length = 2 := rfl
        have sameLength := congrArg List.length isAfter
        simp only [List.length_append, List.length_cons, List.length_nil, two] at sameLength
        have noMiddle : middle = [] := List.length_eq_zero_iff.1 (by omega)
        rw [isFront, noMiddle, List.append_nil]
    · have notFirst : '\x7d' :: more ≠ after := by
        rintro rfl
        simp at ends
      rcases middle with _ | ⟨first, _ | ⟨second, middle⟩⟩
      · rw [isInner, List.append_nil]
      · exact absurd (List.cons.inj isMore).2 notFirst
      · cases isMore
        exact absurd ⟨front, middle, by rw [isInner]; simp⟩ isTagText.noEnd
  have noDashBefore : dash tag.stripBefore = [] := by
    by_contra isDash
    refine isTagText.noDash.1 ?_
    rw [isWhole, isFront]
    cases stripBefore : tag.stripBefore <;> simp [stripBefore] at isDash ⊢
  have noDashAfter : dash tag.stripAfter = [] := by
    by_contra isDash
    refine isTagText.noDash.2 ?_
    have endsWithDash : front = dash tag.stripBefore ++ (leading ++ ("raw".toList ++ trailing)) ++
        ['-'] := by
      cases stripAfter : tag.stripAfter
      · simp [stripAfter] at isDash
      · simp [isFront, stripAfter]
    rw [isWhole, endsWithDash, List.getLast?_concat]
  refine isTagText.notRaw leading trailing leadingBlank trailingBlank ?_
  rw [isWhole, isFront, noDashBefore, noDashAfter, List.nil_append, List.append_nil]

omit [Limits] in
theorem delimiter?_block (noDash : text.head? ≠ some '-')
    (notRaw : wordTag? {} "raw".toList ("\x7b%".toList ++ text) = none) :
    delimiter? { lineStatement := setting, trimBlocks := trim } ("\x7b%".toList ++ text) =
      some (.block 2 false) := by
  have noStrip : Text.startsWith ['-'] text = false := by
    cases text with
    | nil => rfl
    | cons char text =>
        have isOther : '-' ≠ char := fun same => noDash (by rw [← same]; rfl)
        simp [Text.startsWith, Text.dropStart?, isOther]
  have sameStarts : starts { lineStatement := setting, trimBlocks := trim } = starts {} := rfl
  have sameTag : wordTag? { lineStatement := setting, trimBlocks := trim } "raw".toList
      ("\x7b%".toList ++ text) = none := notRaw
  have dropped : ("\x7b%".toList ++ text).drop "\x7b%".length = text := rfl
  simp only [delimiter?, Option.bind_eq_bind, Option.bind_eq_some_iff]
  refine ⟨("\x7b%", .block), ?_, ?_⟩
  · rw [sameStarts, starts_default]
    rfl
  · simp only [sameTag, dropped, noStrip]
    rfl

theorem linePrefix?_lineStatement (noBlank : ∀ char ∈ marker.toList, Text.isBlank char = false)
    (nonempty : marker.toList ≠ []) (text : List Char) :
    linePrefix? { lineStatement := some marker, trimBlocks := trim } (marker.toList ++ text) =
      some (.lineStatement marker.length) := by
  have notIndented : ¬IsIndented marker := by
    rintro ⟨char, isFirst, isIndent⟩
    have isBlank := noBlank char (List.mem_of_mem_head? isFirst)
    simp only [Lexer.isIndent, decide_eq_true_eq] at isIndent
    rcases isIndent with rfl | rfl <;> exact absurd isBlank (by decide)
  have split : ([] ++ (marker.toList ++ text)).takeWhile isIndent = [] ∧
      ([] ++ (marker.toList ++ text)).dropWhile isIndent = marker.toList ++ text :=
    span_indent nonempty rfl notIndented
  rw [List.nil_append] at split
  have starts : Text.startsWith marker.toList (marker.toList ++ text) = true :=
    Text.startsWith_iff.2 (List.prefix_append _ _)
  rw [linePrefix?_eq]
  simp only [split.1, split.2, Option.filter_some, if_pos starts, Option.filter_none]
  simp

/-- Where the prefix of line statements does not stand, none is found. -/
theorem linePrefix?_eq_none (notPrefix : ¬marker.toList <+: text)
    (notIndent : ∀ char ∈ text.head?, isIndent char = false) :
    linePrefix? { lineStatement := some marker, trimBlocks := trim } text = none := by
  have noIndent : text.takeWhile isIndent = [] ∧ text.dropWhile isIndent = text := by
    cases text with
    | nil => exact ⟨rfl, rfl⟩
    | cons char text =>
        have isOther : ¬isIndent char = true := by simp [notIndent char rfl]
        exact ⟨List.takeWhile_cons_of_neg isOther, List.dropWhile_cons_of_neg isOther⟩
  have notStarts : Text.startsWith marker.toList text = false := by
    rwa [← Bool.not_eq_true, Text.startsWith_iff]
  rw [linePrefix?_eq]
  simp only [noIndent.1, noIndent.2, Option.filter_some, notStarts, Bool.false_eq_true, if_false,
    Option.filter_none, ite_self]

omit [Limits] in
/-- A tag that was just opened: nothing of the text in it is taken yet. -/
structure JustOpened (state : State) (kind : TagKind) (delimiter : String) (text : List Char) :
    Prop where
  inTag : state.mode = .tag kind 0
  shows : state.rest = text
  tokens_eq : state.tokens.map Token.lexeme = [⟨.blockBegin, delimiter⟩]

theorem justOpened_of_opening? {delimiter : String} (opening : Opening)
    (found : opening? dialect true (delimiter.toList ++ text) = some opening)
    (isOpening : opening = .block delimiter.length false ∧ kind = .block ∨
      opening = .lineStatement delimiter.length ∧ kind = .line) :
    JustOpened (step dialect sourceName (.ofSource (delimiter.toList ++ text))) kind delimiter
      text := by
  have stepped : step dialect sourceName (.ofSource (delimiter.toList ++ text)) =
      openWith sourceName opening (.ofSource (delimiter.toList ++ text)) := by
    have foundThere : opening? dialect
        ((State.ofSource (delimiter.toList ++ text)).position.column = 1)
        (State.ofSource (delimiter.toList ++ text)).rest = some opening := found
    rw [step_of_text rfl]
    simp only [stepText, Bool.false_eq_true, if_false, foundThere]
  have sameText : (delimiter.toList ++ text).take delimiter.length = delimiter.toList := by
    rw [← String.length_toList, List.take_left]
  have sameRest : (delimiter.toList ++ text).drop delimiter.length = text := by
    rw [← String.length_toList, List.drop_left]
  rw [stepped]
  rcases isOpening with ⟨rfl, rfl⟩ | ⟨rfl, rfl⟩
  · refine ⟨rfl, sameRest, ?_⟩
    change [Lexeme.mk .blockBegin (String.ofList ((delimiter.toList ++ text).take _))] = _
    rw [sameText, String.ofList_toList]
  · refine ⟨rfl, sameRest, ?_⟩
    change [Lexeme.mk .blockBegin (String.ofList ((delimiter.toList ++ text).take _))] = _
    rw [sameText, String.ofList_toList]

/-! ### Closing -/

/-- The tokens of a tag that is closed stay, whatever comes after it. -/
theorem exists_tokenize_of_closed (sound : dialect.Sound) (noComment : dialect.lineComment = none)
    {source : String} {token : Token} {earlier : List Token}
    (walks : Relation.ReflTransGen (StepsTo dialect sourceName) (.ofSource source.toList) state)
    (closed : state.tokens = token :: earlier) (notData : token.kind ≠ .data) :
    ∃ result later, tokenize dialect sourceName source = some result ∧
      result.tokens.map Token.lexeme = (state.tokens.map Token.lexeme).reverse ++ later := by
  rcases Lexer.exists_walks sound sourceName state with ⟨last, further, atEnd | stuck⟩
  · have kept : token :: earlier <:+ last.tokens :=
      suffix_of_walks further notData (closed ▸ List.suffix_rfl)
    rcases kept with ⟨later, sameTokens⟩
    rcases exists_finish_tokens sourceName last with ⟨closing, finished, _⟩
    refine ⟨last.result sourceName, ((closing ++ later).map Token.lexeme).reverse,
      tokenize_eq_of_walks sound (walks.trans further) atEnd, ?_⟩
    rw [State.result, finished, ← sameTokens, closed]
    simp
  · rcases stuck.emptyLineComment sound with ⟨marker, isMarker, _⟩
    simp [noComment] at isMarker

/-- A block tag ends at its end delimiter. -/
theorem step_closeTag (dialect : Dialect) (sourceName : Option String)
    (isBlock : kind ≠ .variable) (sameEnd : dialect.blockEnd = "%\x7d")
    (inTag : state.mode = .tag kind 0) (shows : state.rest = "%\x7d".toList) :
    ∃ trimNewline strip, (step dialect sourceName state).mode = .text trimNewline strip ∧
      (step dialect sourceName state).rest = [] ∧
      (step dialect sourceName state).tokens.map Token.lexeme =
        ⟨.blockEnd, "%\x7d"⟩ :: state.tokens.map Token.lexeme := by
  have sameCloser : closer dialect kind = (['%', '\x7d'], .blockEnd) := by
    rcases kind with _ | _ | _
    · simp [closer, sameEnd]
    · simp [closer, sameEnd]
    · exact absurd rfl isBlock
  have shows : state.rest = ['%', '\x7d'] := shows
  rw [step_of_tag inTag, stepTag_of_cons shows, sameCloser]
  have starts : Text.startsWith ['%', '\x7d'] ['%', '\x7d'] = true := by decide
  have notDash : ¬('%' = '-' ∧ Text.startsWith ['%', '\x7d'] ['\x7d'] = true) := by decide
  have notBreak : ¬(kind = .line ∧ 0 = 0 ∧ '%' = '\n') := by simp
  rw [if_neg notBreak, if_pos (Or.inr starts)]
  refine ⟨_, _, rfl, ?_, ?_⟩
  · simp [State.emit, State.skip, State.enter, shows]
  · simp [State.emit, State.skip, State.enter, shows, Token.lexeme]

/-- A line statement ends at the line break. -/
theorem step_endLine (inTag : state.mode = .tag .line 0) (shows : state.rest = '\n' :: after) :
    (step dialect sourceName state).tokens.map Token.lexeme =
      ⟨.blockEnd, "\n"⟩ :: state.tokens.map Token.lexeme := by
  rw [step_of_tag inTag, stepTag_of_cons shows, if_pos (by simp)]
  simp [State.emit, State.skip, State.enter, shows, Token.lexeme]

omit [Limits] in
theorem result_tokens_eq (sourceName : Option String) (last : State) :
    (last.result sourceName).tokens.map Token.lexeme =
      ((finish sourceName last).tokens.map Token.lexeme).reverse := by
  rw [State.result, List.map_reverse]

omit [Limits] in
/-- Nothing closes a tag between delimiters at the end of the source. -/
theorem finish_lexemes (notLine : (∃ brackets, last.mode = .tag .block brackets) ∨
      ∃ trimNewline strip, last.mode = .text trimNewline strip) :
    (finish sourceName last).tokens.map Token.lexeme =
      ⟨.eof, ""⟩ :: last.tokens.map Token.lexeme := by
  rcases last with ⟨mode, position, rest, tokens, diagnostics⟩
  rcases notLine with ⟨_, rfl⟩ | ⟨_, _, rfl⟩ <;> rfl

omit [Limits] in
/-- The end of the source closes a line statement. -/
theorem finish_lexemes_line {brackets : Nat} (inTag : last.mode = .tag .line brackets) :
    (finish sourceName last).tokens.map Token.lexeme =
      ⟨.eof, ""⟩ :: ⟨.blockEnd, ""⟩ :: last.tokens.map Token.lexeme := by
  rcases last with ⟨mode, position, rest, tokens, diagnostics⟩
  subst inTag
  rfl

end Lexer

/-! ### The tokens between -/

variable {sourceName : Option String} {inner marker : String} {trim : Bool}

namespace IsTagText

variable (isTagText : IsTagText inner)

include isTagText

theorem unended : Unended inner.toList :=
  ⟨isTagText.noBreak, isTagText.noEnd, isTagText.noDash.2⟩

/-- A block tag with the text in it is opened, if it is not taken for a line statement. -/
theorem justOpened_block {setting : Option String} {after : List Char}
    (ends : after = [] ∨ after = "%\x7d".toList)
    (noLine : linePrefix? { lineStatement := setting, trimBlocks := trim }
      ("\x7b%".toList ++ (inner.toList ++ after)) = none) :
    JustOpened (step { lineStatement := setting, trimBlocks := trim } sourceName
      (.ofSource ("\x7b%".toList ++ (inner.toList ++ after)))) .block "\x7b%"
      (inner.toList ++ after) := by
  have noDash : (inner.toList ++ after).head? ≠ some '-' := by
    rw [List.head?_append]
    cases isFirst : inner.toList.head? with
    | none => rcases ends with rfl | rfl <;> simp
    | some char => simpa [isFirst] using isTagText.noDash.1
  refine justOpened_of_opening? (.block 2 false) ?_ (Or.inl ⟨rfl, rfl⟩)
  rw [opening?, if_pos rfl, noLine, Option.none_or]
  exact delimiter?_block noDash (wordTag?_raw_eq_none isTagText ends)

/-- The text of a tag tells the tokens in it, and no bracket is open after them. -/
theorem exists_lexes : ∃ lexemes, Lexes 0 inner.toList lexemes 0 := by
  rcases isTagText.closed with ⟨result, cut, noOpenString, areClosed⟩
  rcases exists_walks_of_tokenize cut with ⟨last, walks, atEnd, rfl⟩
  have sameSource : ("\x7b%" ++ inner).toList = "\x7b%".toList ++ (inner.toList ++ []) := by simp
  rw [sameSource] at walks
  have opened : JustOpened (step {} none (.ofSource ("\x7b%".toList ++ (inner.toList ++ []))))
      .block "\x7b%" (inner.toList ++ []) :=
    isTagText.justOpened_block (Or.inl rfl) (linePrefix?_default _)
  have walks := walks_step walks (by simp [State.ofSource]) atEnd
  generalize step {} none (.ofSource _) = state at opened walks
  have noOpenString (position : Position) : .unterminatedString position ∉ last.diagnostics :=
    fun noted => noOpenString position
      (List.mem_reverse.2 ((finish_diagnostics_suffix none last).subset noted))
  have isUnended : Unended state.rest := by
    rw [opened.shows, List.append_nil]
    exact isTagText.unended
  rcases exists_lexes_of_walks rfl walks atEnd isUnended noOpenString opened.inTag with
    ⟨lexemes, final, lexes, inTag, sameTokens⟩
  have sameLexemes : (last.result none).tokens.map Token.lexeme =
      ⟨.blockBegin, "\x7b%"⟩ :: (lexemes ++ [⟨.eof, ""⟩]) := by
    rw [result_tokens_eq, finish_lexemes (Or.inl ⟨_, inTag⟩),
      sameTokens, opened.tokens_eq]
    simp
  -- The tokens at the ends open and close no bracket.
  have sameKinds : (last.result none).tokens.map Token.kind =
      .blockBegin :: (lexemes.map Lexeme.kind ++ [.eof]) := by
    simpa [Function.comp_def, Token.lexeme] using congrArg (List.map Lexeme.kind) sameLexemes
  rw [sameKinds, List.foldl_cons, List.foldl_append] at areClosed
  have isClosed : final = 0 := lexes.final_eq.trans areClosed
  rw [opened.shows, List.append_nil, isClosed] at lexes
  exact ⟨lexemes, lexes⟩

/-- From where the tag is opened a walk takes the tokens in it. -/
theorem exists_walks {dialect : Dialect} {kind : TagKind} {delimiter : String}
    {source after : List Char} {lexemes : List Lexeme} (lexes : Lexes 0 inner.toList lexemes 0)
    (opened : JustOpened (step dialect sourceName (.ofSource source)) kind delimiter
      (inner.toList ++ after))
    (nonempty : source ≠ []) (isBlock : kind ≠ .variable) (sameEnd : dialect.blockEnd = "%\x7d")
    (isEnd : IsEnd after) (stops : after.head? = some '\n' → kind = .line) : ∃ next,
      Relation.ReflTransGen (StepsTo dialect sourceName) (.ofSource source) next ∧
      next.mode = .tag kind 0 ∧ next.rest = after ∧
      next.tokens.map Token.lexeme = lexemes.reverse ++ [⟨.blockBegin, delimiter⟩] := by
  rcases lexes.exists_walks isBlock sameEnd isTagText.unended isEnd rfl stops opened.inTag
    opened.shows with ⟨next, walks, inTag, shows, sameTokens⟩
  exact ⟨next, .head ⟨nonempty, rfl⟩ walks, inTag, shows, opened.tokens_eq ▸ sameTokens⟩

end IsTagText

section

variable (sound : Dialect.Sound { lineStatement := some marker, trimBlocks := trim })
  (noBlank : ∀ char ∈ marker.toList, Text.isBlank char = false) (isTagText : IsTagText inner)
  {lexemes : List Lexeme} (lexes : Lexes 0 inner.toList lexemes 0)

include sound noBlank isTagText lexes

/-- The tokens in a line statement, before the line or the source ends. -/
theorem exists_walks_line (sourceName : Option String) {source : String} {after : List Char}
    (shows : source.toList = marker.toList ++ (inner.toList ++ after))
    (ends : ∀ char ∈ after.head?, char = '\n') : ∃ next,
      Relation.ReflTransGen
        (StepsTo { lineStatement := some marker, trimBlocks := trim } sourceName)
        (.ofSource source.toList) next ∧
      next.mode = .tag .line 0 ∧ next.rest = after ∧
      next.tokens.map Token.lexeme = lexemes.reverse ++ [⟨.blockBegin, marker⟩] := by
  have nonempty := sound.lineStatement_ne_nil rfl
  have isEnd : IsEnd after := fun char isFirst => Or.inl (ends char isFirst)
  rw [shows]
  refine isTagText.exists_walks lexes ?_ (by simp [nonempty]) (by simp) rfl isEnd fun _ => rfl
  refine justOpened_of_opening? (.lineStatement marker.length) ?_ (Or.inr ⟨rfl, rfl⟩)
  rw [opening?, if_pos rfl, linePrefix?_lineStatement noBlank nonempty, Option.some_or]

theorem exists_tokenize_line (rest : String) : ∃ result later,
    tokenize { lineStatement := some marker, trimBlocks := trim } sourceName
      (marker ++ inner ++ "\n" ++ rest) = some result ∧
    result.tokens.map Token.lexeme =
      ⟨.blockBegin, marker⟩ :: lexemes ++ ⟨.blockEnd, "\n"⟩ :: later := by
  have shows : (marker ++ inner ++ "\n" ++ rest).toList =
      marker.toList ++ (inner.toList ++ '\n' :: rest.toList) := by simp
  rcases exists_walks_line sound noBlank isTagText lexes sourceName shows (by simp) with
    ⟨next, walks, inTag, showsBreak, sameTokens⟩
  have closed : (step { lineStatement := some marker, trimBlocks := trim } sourceName
      next).tokens.map Token.lexeme = ⟨.blockEnd, "\n"⟩ :: next.tokens.map Token.lexeme :=
    step_endLine inTag showsBreak
  have walks := walks.tail ⟨by simp [showsBreak], rfl⟩
  rcases List.map_eq_cons_iff.1 closed with ⟨token, earlier, isClosed, sameToken, _⟩
  have notData : token.kind ≠ .data := by
    have isEnd := congrArg Lexeme.kind sameToken
    simp_all [Token.lexeme]
  rcases exists_tokenize_of_closed sound rfl walks isClosed notData with
    ⟨result, later, cut, sameLexemes⟩
  refine ⟨result, later, cut, ?_⟩
  rw [sameLexemes, closed, sameTokens]
  simp

theorem exists_tokenize_line_atEnd : ∃ result,
    tokenize { lineStatement := some marker, trimBlocks := trim } sourceName
      (marker ++ inner) = some result ∧
    result.tokens.map Token.lexeme =
      ⟨.blockBegin, marker⟩ :: lexemes ++ [⟨.blockEnd, ""⟩, ⟨.eof, ""⟩] := by
  have shows : (marker ++ inner).toList = marker.toList ++ (inner.toList ++ []) := by simp
  rcases exists_walks_line sound noBlank isTagText lexes sourceName shows (by simp) with
    ⟨next, walks, inTag, atEnd, sameTokens⟩
  refine ⟨_, tokenize_eq_of_walks sound walks atEnd, ?_⟩
  rw [result_tokens_eq, finish_lexemes_line inTag, sameTokens]
  simp

omit lexes in
/-- A block tag is opened, as itself or as a line statement with the same delimiter. -/
theorem exists_justOpened (sourceName : Option String) {setting : Option String}
    (isTag : setting = none ∨ setting = some marker ∧
      (marker = "\x7b%" ∨ ¬marker.toList <+: "\x7b%".toList ++ (inner.toList ++ "%\x7d".toList))) :
    Dialect.Sound { lineStatement := setting, trimBlocks := trim } ∧ ∃ kind, kind ≠ .variable ∧
      JustOpened (step { lineStatement := setting, trimBlocks := trim } sourceName
        (.ofSource ("\x7b%".toList ++ (inner.toList ++ "%\x7d".toList)))) kind "\x7b%"
        (inner.toList ++ "%\x7d".toList) := by
  rcases isTag with rfl | ⟨rfl, rfl | notPrefix⟩
  · have soundDefault : Dialect.Sound { trimBlocks := trim } := by
      cases trim <;> decide
    have noLine (text : List Char) : linePrefix? { trimBlocks := trim } text = none := by
      simp [linePrefix?]
    exact ⟨soundDefault, .block, by simp, isTagText.justOpened_block (Or.inr rfl) (noLine _)⟩
  · refine ⟨sound, .line, by simp, ?_⟩
    refine justOpened_of_opening? (.lineStatement 2) ?_ (Or.inr ⟨rfl, rfl⟩)
    rw [opening?, if_pos rfl, linePrefix?_lineStatement noBlank (by simp), Option.some_or]
    rfl
  · have notIndent : ∀ char ∈ ("\x7b%".toList ++ (inner.toList ++ "%\x7d".toList)).head?,
        isIndent char = false := by
      rintro _ ⟨⟩
      decide
    exact ⟨sound, .block, by simp, isTagText.justOpened_block (Or.inr rfl)
      (linePrefix?_eq_none notPrefix notIndent)⟩

theorem exists_tokenize_tag {setting : Option String}
    (isTag : setting = none ∨ setting = some marker ∧
      (marker = "\x7b%" ∨ ¬marker.toList <+: ("\x7b%" ++ inner ++ "%\x7d").toList)) :
    ∃ result, tokenize { lineStatement := setting, trimBlocks := trim } sourceName
        ("\x7b%" ++ inner ++ "%\x7d") = some result ∧
      result.tokens.map Token.lexeme =
        ⟨.blockBegin, "\x7b%"⟩ :: lexemes ++ [⟨.blockEnd, "%\x7d"⟩, ⟨.eof, ""⟩] := by
  have shows : ("\x7b%" ++ inner ++ "%\x7d").toList =
      "\x7b%".toList ++ (inner.toList ++ "%\x7d".toList) := by simp
  have isEnd : IsEnd "%\x7d".toList := by
    rintro _ ⟨⟩
    exact Or.inr rfl
  rw [shows] at isTag
  rcases exists_justOpened sound noBlank isTagText sourceName isTag with
    ⟨sound, kind, isBlock, opened⟩
  rcases isTagText.exists_walks lexes opened (by simp) isBlock rfl isEnd (by simp) with
    ⟨next, walks, inTag, showsEnd, sameTokens⟩
  rcases step_closeTag { lineStatement := setting, trimBlocks := trim } sourceName isBlock rfl inTag
      showsEnd with
    ⟨trimNewline, strip, inText, atEnd, closed⟩
  have walks := walks.tail ⟨by simp [showsEnd], rfl⟩
  rw [← shows] at walks
  refine ⟨_, tokenize_eq_of_walks sound walks atEnd, ?_⟩
  rw [result_tokens_eq, finish_lexemes (Or.inr ⟨_, _, inText⟩), closed, sameTokens]
  simp

end

/-- A line statement is cut into the same tokens as the block tag with its text, if the tag is not
taken for a line statement with a shorter or a longer prefix itself. -/
theorem line_statement_lexes_like_tag {marker inner : String} {trim : Bool}
    (sound : Dialect.Sound { lineStatement := some marker, trimBlocks := trim })
    (noBlank : ∀ char ∈ marker.toList, Text.isBlank char = false) (isTagText : IsTagText inner) :
    ∃ lexemes : List Lexeme,
      (∀ lexeme ∈ lexemes, lexeme.kind ≠ .blockBegin ∧ lexeme.kind ≠ .blockEnd) ∧
      (∀ (sourceName : Option String) (rest : String), ∃ result later,
        tokenize { lineStatement := some marker, trimBlocks := trim } sourceName
          (marker ++ inner ++ "\n" ++ rest) = some result ∧
        result.tokens.map Token.lexeme =
          ⟨.blockBegin, marker⟩ :: lexemes ++ ⟨.blockEnd, "\n"⟩ :: later) ∧
      (∀ sourceName : Option String, ∃ result,
        tokenize { lineStatement := some marker, trimBlocks := trim } sourceName
          (marker ++ inner) = some result ∧
        result.tokens.map Token.lexeme =
          ⟨.blockBegin, marker⟩ :: lexemes ++ [⟨.blockEnd, ""⟩, ⟨.eof, ""⟩]) ∧
      ∀ (setting : Option String) (sourceName : Option String),
        (setting = none ∨ setting = some marker ∧
          (marker = "\x7b%" ∨ ¬marker.toList <+: ("\x7b%" ++ inner ++ "%\x7d").toList)) →
        ∃ result, tokenize { lineStatement := setting, trimBlocks := trim } sourceName
            ("\x7b%" ++ inner ++ "%\x7d") = some result ∧
          result.tokens.map Token.lexeme =
            ⟨.blockBegin, "\x7b%"⟩ :: lexemes ++ [⟨.blockEnd, "%\x7d"⟩, ⟨.eof, ""⟩] := by
  rcases isTagText.exists_lexes with ⟨lexemes, lexes⟩
  refine ⟨lexemes, fun lexeme member => ?_, fun sourceName rest => ?_, fun sourceName => ?_,
    fun setting sourceName isTag => ?_⟩
  · rcases lexes.isInner_or_data lexeme member with inner | isData
    · constructor
      · intro isBegin
        simp [isBegin, Token.Kind.isInner] at inner
      · intro isEnd
        simp [isEnd, Token.Kind.isInner] at inner
    · simp [isData]
  · exact exists_tokenize_line sound noBlank isTagText lexes rest
  · exact exists_tokenize_line_atEnd sound noBlank isTagText lexes
  · exact exists_tokenize_tag sound noBlank isTagText lexes isTag

end

theorem isTagText_name : IsTagText " x " where
  noBreak := by decide
  noDash := by decide
  noEnd isInfix := by
    have isChar := isInfix.subset (show '%' ∈ "%\x7d".toList by decide)
    exact absurd isChar (by decide)
  notRaw leading trailing _ _ same := by
    have isChar : 'r' ∈ " x ".toList := by
      rw [same]
      simp
    exact absurd isChar (by decide)
  closed := by
    have cut : (tokenize {} none ("\x7b%" ++ " x ")).map (fun result =>
        (result.diagnostics, result.tokens.map Token.kind)) =
          some ([], [.blockBegin, .whitespace, .name, .whitespace, .eof]) := by
      cbv
    rcases Option.map_eq_some_iff.1 cut with ⟨result, isResult, same⟩
    rcases Prod.mk.inj same with ⟨noDiagnostics, kinds⟩
    exact ⟨result, isResult, by simp [noDiagnostics], by rw [kinds]; rfl⟩

theorem line_statement_lexes_like_tag_name :
    let dialect : Dialect := { lineStatement := some "#" }
    dialect.Sound ∧ IsTagText " x " ∧ ∃ lexemes line tag later,
      tokenize dialect none ("#" ++ " x " ++ "\n" ++ "y") = some line ∧
      line.tokens.map Token.lexeme =
        ⟨.blockBegin, "#"⟩ :: lexemes ++ ⟨.blockEnd, "\n"⟩ :: later ∧
      tokenize dialect none ("\x7b%" ++ " x " ++ "%\x7d") = some tag ∧
      tag.tokens.map Token.lexeme =
        ⟨.blockBegin, "\x7b%"⟩ :: lexemes ++ [⟨.blockEnd, "%\x7d"⟩, ⟨.eof, ""⟩] := by
  intro dialect
  have sound : dialect.Sound := by decide
  have noBlank : ∀ char ∈ "#".toList, Text.isBlank char = false := by
    simpa using (by decide : Text.isBlank '#' = false)
  have notPrefix : ¬"#".toList <+: ("\x7b%" ++ " x " ++ "%\x7d").toList := by decide
  rcases line_statement_lexes_like_tag sound noBlank isTagText_name with
    ⟨lexemes, _, lines, _, tags⟩
  rcases lines none "y" with ⟨line, later, cutLine, isLine⟩
  rcases tags (some "#") none (Or.inr ⟨rfl, Or.inr notPrefix⟩) with ⟨tag, cutTag, isTag⟩
  exact ⟨sound, isTagText_name, lexemes, line, tag, later, cutLine, isLine, cutTag, isTag⟩

/-- Where the prefix of line statements begins the delimiter of block tags, a block tag is a line
statement that holds the rest of the delimiter. -/
theorem block_tag_taken_for_line :
    let dialect : Dialect := { lineStatement := some "\x7b" }
    dialect.Sound ∧ (∀ char ∈ "\x7b".toList, Text.isBlank char = false) ∧ IsTagText " x " ∧
      ∃ line tag, tokenize dialect none "\x7b x \n" = some line ∧
        tokenize dialect none "\x7b% x %\x7d" = some tag ∧
        line.tokens.map Token.lexeme = [⟨.blockBegin, "\x7b"⟩, ⟨.whitespace, " "⟩, ⟨.name, "x"⟩,
          ⟨.whitespace, " "⟩, ⟨.blockEnd, "\n"⟩, ⟨.eof, ""⟩] ∧
        tag.tokens.map Token.lexeme = [⟨.blockBegin, "\x7b"⟩, ⟨.mod, "%"⟩, ⟨.whitespace, " "⟩,
          ⟨.name, "x"⟩, ⟨.whitespace, " "⟩, ⟨.blockEnd, "%\x7d"⟩, ⟨.eof, ""⟩] := by
  intro dialect
  have cutLine : (tokenize dialect none "\x7b x \n").map (fun line =>
      line.tokens.map Token.lexeme) = some [⟨.blockBegin, "\x7b"⟩, ⟨.whitespace, " "⟩,
        ⟨.name, "x"⟩, ⟨.whitespace, " "⟩, ⟨.blockEnd, "\n"⟩, ⟨.eof, ""⟩] := by
    cbv
  have cutTag : (tokenize dialect none "\x7b% x %\x7d").map (fun tag =>
      tag.tokens.map Token.lexeme) = some [⟨.blockBegin, "\x7b"⟩, ⟨.mod, "%"⟩,
        ⟨.whitespace, " "⟩, ⟨.name, "x"⟩, ⟨.whitespace, " "⟩, ⟨.blockEnd, "%\x7d"⟩,
        ⟨.eof, ""⟩] := by
    cbv
  rcases Option.map_eq_some_iff.1 cutLine with ⟨line, isLine, lineTokens⟩
  rcases Option.map_eq_some_iff.1 cutTag with ⟨tag, isTag, tagTokens⟩
  have noBlank : ∀ char ∈ "\x7b".toList, Text.isBlank char = false := by
    simpa using (by decide : Text.isBlank '\x7b' = false)
  exact ⟨by decide, noBlank, isTagText_name, line, tag, isLine, isTag, lineTokens, tagTokens⟩

end Stencil

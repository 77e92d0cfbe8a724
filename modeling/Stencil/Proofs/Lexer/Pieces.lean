import Stencil.Extension
import Stencil.Proofs.Lexer.Openings
import Stencil.Proofs.Lexer.Delimiters
import Stencil.Proofs.Lexer.Spelling
import Stencil.Proofs.Stmt.Printing

/-!
# Cutting written pieces

A row of written pieces is cut into the tokens of these pieces, and nothing is found wrong with it.
Nothing stands between two pieces, so that each of them begins where the walk is in plain text.

The content of a raw block ends at the first `endraw` tag. Such a tag cannot begin in the content
and end in the tag that was written after it: between its delimiters stands no brace.
-/

namespace Stencil

/-- Pieces that have a written form. -/
inductive Piece.IsSpelt : Piece → Prop where
  | tag {word : String} {arguments : List Lexeme} (isTag : isBuiltinTag word = true)
      (notRaw : word ≠ "raw") (spelt : Lexeme.AreSpelt arguments) : IsSpelt (.tag word arguments)
  | output {lexemes : List Lexeme} (nonempty : lexemes ≠ []) (spelt : Lexeme.AreSpelt lexemes) :
      IsSpelt (.output lexemes)
  | raw {content : String} (isRaw : Stmt.isRawContent content = true) : IsSpelt (.raw content)

namespace Lexer

variable {state : State} {text after : List Char}

/-! ### Word tags -/

theorem drop_dash (strip : Bool) (rest : List Char) :
    (dash strip ++ rest).drop strip.toNat = rest := by
  cases strip <;> rfl

section

variable {blanks : List Char} (areBlank : blanks.all Text.isBlank = true)

include areBlank

theorem drop_blankLength_append {char : Char} (notBlank : Text.isBlank char = false)
    (rest : List Char) :
    (blanks ++ char :: rest).drop (Text.blankLength (blanks ++ char :: rest)) = char :: rest := by
  rw [Text.drop_blankLength, List.dropWhile_append_of_pos (by simpa using areBlank),
    List.dropWhile_cons_of_neg (by simp [notBlank])]

/-- Whether a dash stands before blanks is seen from the first character. -/
theorem startsWith_dash_append (strip : Bool) {char : Char} (notDash : char ≠ '-')
    (rest : List Char) :
    Text.startsWith ['-'] (dash strip ++ (blanks ++ char :: rest)) = strip := by
  cases strip with
  | true => rfl
  | false =>
      cases blanks with
      | nil => simp [Text.startsWith, Text.dropStart?, notDash.symm]
      | cons blank blanks =>
          have notBlankDash : blank ≠ '-' := by
            rintro rfl
            simp [show Text.isBlank '-' = false by decide] at areBlank
          simp [Text.startsWith, Text.dropStart?, notBlankDash.symm]

end

/-- A text that begins with a tag around a word, in any spelling, is seen to do so. -/
theorem isSome_wordTag?_of_fits {dialect : Dialect} (sound : dialect.Sound)
    {word letters : List Char} {letter : Char} (spelt : word = letter :: letters)
    (letterNotBlank : Text.isBlank letter = false) (notDash : letter ≠ '-') {tag : WordTag}
    (fits : tag.Fits dialect word text after) : (wordTag? dialect word text).isSome = true := by
  subst spelt
  rcases fits.exists_written with ⟨leading, trailing, leadingBlank, trailingBlank, same, _⟩
  rcases List.exists_cons_of_ne_nil sound.blockEnd_ne_nil with ⟨first, others, sameEnd⟩
  have firstNotBlank : Text.isBlank first = false :=
    isBlank_of_mem_blockEnd sound (sameEnd ▸ List.mem_cons_self)
  have start : Text.dropStart? dialect.blockStart.toList text =
      some (dash tag.stripBefore ++ (leading ++ letter :: (letters ++ (trailing ++
        (dash tag.stripAfter ++ (dialect.blockEnd.toList ++ after)))))) := by
    rw [Text.dropStart?_eq_some_iff, same]
    simp [WordTag.written]
  have word (rest : List Char) :
      Text.dropStart? (letter :: letters) (letter :: (letters ++ rest)) = some rest :=
    Text.dropStart?_eq_some_iff.2 rfl
  -- Trailing blanks end before a dash or before the end delimiter.
  have trailed : ∃ char rest, dash tag.stripAfter ++ (dialect.blockEnd.toList ++ after) =
      char :: rest ∧ Text.isBlank char = false := by
    cases tag.stripAfter with
    | true => exact ⟨_, _, rfl, by decide⟩
    | false => exact ⟨first, others ++ after, by rw [sameEnd]; rfl, firstNotBlank⟩
  rcases trailed with ⟨char, rest, shows, notBlank⟩
  -- The end delimiter may begin with a dash itself; it is found whether or not one is passed over.
  have ends : (Text.dropStart? dialect.blockEnd.toList ((char :: rest).drop
      (Text.startsWith ('-' :: dialect.blockEnd.toList) (char :: rest)).toNat)).isSome = true := by
    cases dashed : Text.startsWith ('-' :: dialect.blockEnd.toList) (char :: rest) with
    | true =>
        rcases Text.startsWith_iff.1 dashed with ⟨further, sameRest⟩
        rw [← sameRest]
        exact Text.startsWith_iff.2 (List.prefix_append _ _)
    | false =>
        cases isDash : tag.stripAfter with
        | true =>
            have isDashed : '-' :: dialect.blockEnd.toList <+: char :: rest := by
              rw [← shows, isDash]
              exact List.prefix_append _ _
            rw [Text.startsWith_iff.2 isDashed] at dashed
            simp at dashed
        | false =>
            rw [← shows, isDash]
            exact Text.startsWith_iff.2 (List.prefix_append _ _)
  rcases Option.isSome_iff_exists.1 ends with ⟨remaining, isEnd⟩
  rw [wordTag?, start]
  simp only [Option.bind_eq_bind, Option.bind_some,
    startsWith_dash_append leadingBlank _ notDash, drop_dash,
    drop_blankLength_append leadingBlank letterNotBlank, word]
  rw [shows, drop_blankLength_append trailingBlank notBlank, isEnd]
  rfl

/-! ### Raw blocks -/

/-- Between the delimiters of a tag that holds one word stands no brace. -/
theorem brace_not_mem_tail_written (tag : WordTag) {leading trailing : List Char}
    (leadingBlank : leading.all Text.isBlank = true)
    (trailingBlank : trailing.all Text.isBlank = true) :
    '\x7b' ∉ (tag.written {} "endraw".toList leading trailing).tail := by
  have notBlank {blanks : List Char} (areBlank : blanks.all Text.isBlank = true) :
      '\x7b' ∉ blanks := by
    intro isBlank
    exact absurd (List.all_eq_true.1 areBlank _ isBlank) (by decide)
  have notDash (strip : Bool) : '\x7b' ∉ dash strip := by
    cases strip <;> decide
  simp [WordTag.written, notBlank leadingBlank, notBlank trailingBlank, notDash]

/-- An `endraw` tag does not begin in a text and end after a brace that follows it. -/
theorem wordTag?_append_eq_none {content : List Char} (nonempty : content ≠ [])
    (noTag : wordTag? {} "endraw".toList content = none) (after : List Char) :
    wordTag? {} "endraw".toList (content ++ '\x7b' :: after) = none := by
  rw [Option.eq_none_iff_forall_ne_some]
  intro tag found
  have noFit (more : List Char) : ¬tag.Fits {} "endraw".toList content more := by
    intro fits
    have isTag := isSome_wordTag?_of_fits (show ({} : Dialect).Sound by decide)
      (show "endraw".toList = 'e' :: "ndraw".toList from rfl) (by decide) (by decide) fits
    rw [noTag] at isTag
    exact absurd isTag Bool.false_ne_true
  rcases fits_of_wordTag? found with ⟨more, fits⟩
  rcases fits.exists_written with ⟨leading, trailing, leadingBlank, trailingBlank, same, length⟩
  rcases List.append_eq_append_iff.1 same with ⟨middle, sameTag, sameAfter⟩ |
    ⟨middle, sameContent, _⟩
  · cases middle with
    | nil =>
        apply noFit []
        refine ⟨leading, trailing, leadingBlank, trailingBlank, ?_, length⟩
        rw [sameTag, List.append_nil, List.append_nil]
    | cons char middle =>
        have isBrace : char = '\x7b' := (List.cons.inj sameAfter).1.symm
        apply brace_not_mem_tail_written tag leadingBlank trailingBlank
        rw [sameTag, isBrace, List.tail_append_of_ne_nil nonempty]
        simp
  · exact noFit middle ⟨leading, trailing, leadingBlank, trailingBlank, sameContent, length⟩

theorem rawEnd?_append {content : List Char} (after : List Char)
    (noTag : ∀ tail, tail <:+ content → wordTag? {} "endraw".toList tail = none) :
    rawEnd? {} 0 (content ++ ("\x7b% endraw %\x7d".toList ++ after)) =
      some (content.length, ⟨12, false, false⟩) := by
  -- After a start delimiter its second character is passed over, and belongs to the content.
  suffices further : ∀ skip, skip = 0 ∨ skip = 1 ∧ (∃ rest, content = '%' :: rest) →
      rawEnd? {} skip (content ++ ("\x7b% endraw %\x7d".toList ++ after)) =
        some (content.length, ⟨12, false, false⟩) from further 0 (Or.inl rfl)
  induction content with
  | nil =>
      rintro skip (rfl | ⟨_, _, impossible⟩)
      · rfl
      · exact absurd impossible (List.cons_ne_nil _ _).symm
  | cons char content ih =>
      have later := ih fun tail isTail => noTag tail (isTail.trans (List.suffix_cons _ _))
      rintro skip (rfl | ⟨rfl, _⟩)
      · have noTagHere : wordTag? {} "endraw".toList
            (char :: (content ++ ("\x7b% endraw %\x7d".toList ++ after))) = none :=
          wordTag?_append_eq_none (List.cons_ne_nil _ _) (noTag _ List.suffix_rfl) _
        by_cases starts : Text.startsWith ({} : Dialect).blockStart.toList
            (char :: (content ++ ("\x7b% endraw %\x7d".toList ++ after))) = true
        · have isPercent : ∃ rest, content = '%' :: rest := by
            rcases Text.startsWith_iff.1 starts with ⟨rest, same⟩
            change '\x7b' :: '%' :: rest = _ at same
            cases content with
            | nil => simp at same
            | cons second content =>
                simp only [List.cons_append, List.cons.injEq] at same
                exact ⟨content, by rw [same.2.1]⟩
          rw [List.cons_append, rawEnd?, if_pos starts, noTagHere]
          exact congrArg (Option.map _) (later 1 (Or.inr ⟨rfl, isPercent⟩))
        · rw [List.cons_append, rawEnd?, if_neg starts]
          exact congrArg (Option.map _) (later 0 (Or.inl rfl))
      · rw [List.cons_append, rawEnd?]
        exact congrArg (Option.map _) (later 0 (Or.inl rfl))

/-! ### Pieces -/

variable [Limits] (sourceName : Option String)

theorem opening?_default {text : List Char} {opening : Opening} (atLineStart : Bool)
    (found : delimiter? {} text = some opening) :
    opening? {} atLineStart text = some opening := by
  rw [opening?, linePrefix?_default, found, ite_self, Option.none_or]

/-- The token that opens a block tag is found, if its word is not `raw`. -/
theorem exists_finds_blockBegin {char : Char} (notRaw : char ≠ 'r')
    (notBlank : Text.isBlank char = false) (inText : state.mode = .text false false)
    (shows : state.rest = "\x7b%".toList ++ ' ' :: char :: after) :
    ∃ next, Finds {} sourceName state [.blockBegin] next ∧
      next.mode = .tag .block 0 ∧ next.rest = ' ' :: char :: after := by
  have noRaw : wordTag? {} "raw".toList ("\x7b%".toList ++ ' ' :: char :: after) = none := by
    have start : Text.dropStart? ({} : Dialect).blockStart.toList
        ("\x7b%".toList ++ ' ' :: char :: after) = some (' ' :: char :: after) := rfl
    have oneBlank : [' '].all Text.isBlank = true := by decide
    have leading := drop_blankLength_append oneBlank notBlank after
    have noWord : Text.dropStart? "raw".toList (char :: after) = none := by
      change (if 'r' = char then _ else none) = none
      rw [if_neg notRaw.symm]
    rw [wordTag?, start]
    change (Text.dropStart? "raw".toList (([' '] ++ char :: after).drop
      (Text.blankLength ([' '] ++ char :: after)))).bind _ = none
    rw [leading, noWord]
    rfl
  have found : delimiter? {} ("\x7b%".toList ++ ' ' :: char :: after) = some (.block 2 false) := by
    refine Option.bind_eq_some_iff.2 ⟨("\x7b%", .block), ?_, ?_⟩
    · rw [starts_default]
      rfl
    · dsimp only
      rw [noRaw]
      rfl
  refine exists_finds_emit .blockBegin (by decide) shows ?_ rfl
  rw [step, inText]
  simp only [stepText, Bool.false_eq_true, if_false, shows, opening?_default _ found]
  rfl

/-- The token that closes a block tag is found. -/
theorem exists_finds_blockEnd {brackets : Nat} (inTag : state.mode = .tag .block brackets)
    (shows : state.rest = "%\x7d".toList ++ after) :
    ∃ next, Finds {} sourceName state [.blockEnd] next ∧
      next.mode = .text false false ∧ next.rest = after := by
  refine exists_finds_emit .blockEnd (by decide) shows ?_ rfl
  rw [step, inTag]
  rcases state with ⟨mode, position, rest, tokens, diagnostics⟩
  subst shows
  rfl

/-- The tag that opens a raw block is found. -/
theorem exists_finds_rawBegin (inText : state.mode = .text false false)
    (shows : state.rest = "\x7b% raw %\x7d".toList ++ after) :
    ∃ next opened, Finds {} sourceName state [⟨.rawBegin, "\x7b% raw %\x7d"⟩] next ∧
      next.mode = .raw opened false ∧ next.rest = after := by
  have found : delimiter? {} ("\x7b% raw %\x7d".toList ++ after) =
      some (.raw ⟨9, false, false⟩) := by
    rw [delimiter?, starts_default]
    rfl
  obtain ⟨next, finds, inRaw, shows⟩ : ∃ next, Finds {} sourceName state _ next ∧
      next.mode = .raw state.position false ∧ next.rest = after := by
    refine exists_finds_emit .rawBegin (by decide) shows ?_ rfl
    rw [step, inText]
    simp only [stepText, Bool.false_eq_true, if_false, shows, opening?_default _ found]
    rfl
  exact ⟨next, _, finds, inRaw, shows⟩

omit [Limits] in
theorem wordTag?_eq_none_of_isRawContent {content : String}
    (isRaw : Stmt.isRawContent content = true) (tail : List Char)
    (isTail : tail <:+ content.toList) : wordTag? {} "endraw".toList tail = none := by
  rw [Stmt.isRawContent, List.all_eq_true] at isRaw
  exact Option.isNone_iff_eq_none.1 (isRaw tail ((List.mem_tails _ _).2 isTail))

/-- The content of a raw block and the tag that closes it are found in one step. -/
theorem exists_finds_rawEnd {content : String} {opened : Position}
    (isRaw : Stmt.isRawContent content = true) (inRaw : state.mode = .raw opened false)
    (shows : state.rest = content.toList ++ ("\x7b% endraw %\x7d".toList ++ after)) :
    ∃ next, Finds {} sourceName state ((if content = "" then [] else [⟨.data, content⟩]) ++
        [⟨.rawEnd, "\x7b% endraw %\x7d"⟩]) next ∧
      next.mode = .text false false ∧ next.rest = after := by
  have found : rawEnd? {} 0 state.rest = some (content.toList.length, ⟨12, false, false⟩) := by
    rw [shows]
    exact rawEnd?_append after (wordTag?_eq_none_of_isRawContent isRaw)
  by_cases isEmpty : content = ""
  · subst isEmpty
    refine exists_finds_emit .rawEnd (by decide) shows ?_ rfl
    rw [step, inRaw]
    simp only [stepRaw, found]
    rfl
  · have notEmpty : content.toList.length ≠ 0 := by simpa using isEmpty
    have taken : step {} sourceName state =
        ((state.emit sourceName .data content.toList.length).emit sourceName .rawEnd
          "\x7b% endraw %\x7d".toList.length).enter (.text false false) := by
      rw [step, inRaw]
      simp only [stepRaw, found, notEmpty, if_false]
      rfl
    have showsTag : (state.emit sourceName .data content.toList.length).rest =
        "\x7b% endraw %\x7d".toList ++ after := by
      rw [State.emit_eq_of_rest shows]
    rw [State.emit_eq_of_rest showsTag, State.emit_eq_of_rest shows] at taken
    refine ⟨_, ⟨.single ⟨by simp [shows], taken⟩, ?_, rfl⟩, rfl, rfl⟩
    simp [State.found, Token.written, Token.lexeme, State.enter, isEmpty,
      Token.Kind.isSignificant]

/-- What is written as one token after another, between a delimiter and a space, is found again. -/
theorem exists_finds_inner {kind : TagKind} {lexemes : List Lexeme} (spelt : Lexeme.AreSpelt lexemes)
    (notLine : kind ≠ .line) {brackets : Nat} (inTag : state.mode = .tag kind brackets) {char : Char}
    (notBlank : Text.isBlank char = false)
    (shows : state.rest = Lexeme.indented lexemes ++ ' ' :: char :: after) :
    ∃ next brackets', Finds {} sourceName state lexemes next ∧ next.mode = .tag kind brackets' ∧
      next.rest = char :: after := by
  rcases exists_finds_indented sourceName spelt notLine inTag shows with
    ⟨inner, brackets', found, inTag, shows⟩
  rcases exists_finds_space sourceName notLine inTag shows notBlank with
    ⟨next, space, inTag, shows⟩
  have finds := found.trans space
  rw [List.append_nil] at finds
  exact ⟨next, brackets', finds, inTag, shows⟩

omit [Limits] in
/-- The words of tags begin with a letter other than that of `raw`. -/
theorem exists_cons_of_isBuiltinTag {word : String} (isTag : isBuiltinTag word = true)
    (notRaw : word ≠ "raw") : Expr.isWord word.toList = true ∧
      ∃ char text, word.toList = char :: text ∧ char ≠ 'r' ∧ Text.isBlank char = false := by
  have words : ∀ word ∈ builtinTags ++ closingTags, word ≠ "raw" →
      Expr.isWord word.toList = true ∧ word.toList.head? ≠ some 'r' := by
    decide
  have isMember : word ∈ builtinTags ++ closingTags := by
    simpa [isBuiltinTag] using isTag
  rcases words word isMember notRaw with ⟨isWord, notR⟩
  rcases exists_cons_of_isWord isWord with ⟨char, text, same, isStart⟩
  rcases toNat_of_isWordStart isStart with ⟨above, below⟩
  refine ⟨isWord, char, text, same, ?_, Text.isBlank_eq_false (by omega) (by omega)⟩
  rintro rfl
  exact notR (by rw [same]; rfl)

/-- A written piece is found again. -/
theorem exists_finds_piece {piece : Piece} (spelt : piece.IsSpelt)
    (inText : state.mode = .text false false) (shows : state.rest = piece.print.toList ++ after) :
    ∃ next, Finds {} sourceName state piece.lexemes next ∧ next.mode = .text false false ∧
      next.rest = after := by
  cases spelt with
  | @tag word arguments isTag notRaw spelt =>
      rcases exists_cons_of_isBuiltinTag isTag notRaw with ⟨isWord, char, text, same, notR, notBlank⟩
      have split : state.rest = "\x7b%".toList ++ (Lexeme.indented (.word word :: arguments) ++
          ' ' :: '%' :: '\x7d' :: after) := by
        rw [shows, ← Lexeme.toList_spaced]
        simp [Piece.print]
      have goesOn : Lexeme.indented (.word word :: arguments) ++ ' ' :: '%' :: '\x7d' :: after =
          ' ' :: char :: (text ++ (Lexeme.indented arguments ++ ' ' :: '%' :: '\x7d' :: after)) := by
        simp [Lexeme.indented, Lexeme.word, same]
      rcases exists_finds_blockBegin sourceName notR notBlank inText (goesOn ▸ split) with
        ⟨opened, opens, inTag, showsInner⟩
      have areSpelt := Lexeme.areSpelt_cons.2 ⟨.word isWord, spelt⟩
      rcases exists_finds_inner sourceName areSpelt (by decide) inTag (by decide)
        (showsInner.trans goesOn.symm) with ⟨inner, brackets, found, inTag, showsEnd⟩
      rcases exists_finds_blockEnd sourceName inTag showsEnd with ⟨next, closes, inText, showsAfter⟩
      exact ⟨next, opens.trans (found.trans closes), inText, showsAfter⟩
  | @output lexemes nonempty spelt =>
      rcases List.exists_cons_of_ne_nil nonempty with ⟨first, others, rfl⟩
      have split : state.rest = "\x7b\x7b".toList ++ (Lexeme.indented (first :: others) ++
          ' ' :: '\x7d' :: '\x7d' :: after) := by
        rw [shows, ← Lexeme.toList_spaced]
        simp [Piece.print]
      rcases Lexeme.exists_indented_append (first :: others) ('\x7d' :: '\x7d' :: after) with
        ⟨further, goesOn⟩
      rcases exists_finds_variableBegin sourceName inText (goesOn ▸ split) with
        ⟨opened, opens, inTag, showsInner⟩
      rcases exists_finds_inner sourceName spelt (by decide) inTag (by decide)
        (showsInner.trans goesOn.symm) with ⟨inner, brackets, found, inTag, showsEnd⟩
      rcases exists_finds_variableEnd sourceName inTag showsEnd with
        ⟨next, closes, inText, showsAfter⟩
      exact ⟨next, opens.trans (found.trans closes), inText, showsAfter⟩
  | @raw content isRaw =>
      have split : state.rest = "\x7b% raw %\x7d".toList ++
          (content.toList ++ ("\x7b% endraw %\x7d".toList ++ after)) := by
        rw [shows]
        simp [Piece.print]
      rcases exists_finds_rawBegin sourceName inText split with
        ⟨opened, position, opens, inRaw, showsContent⟩
      rcases exists_finds_rawEnd sourceName isRaw inRaw showsContent with
        ⟨next, closes, inText, showsAfter⟩
      exact ⟨next, opens.trans closes, inText, showsAfter⟩

/-- A row of written pieces is found again. -/
theorem exists_finds_pieces {pieces : List Piece} (spelt : ∀ piece ∈ pieces, piece.IsSpelt)
    (inText : state.mode = .text false false)
    (shows : state.rest = (pieces.flatMap fun piece => piece.print.toList) ++ after) :
    ∃ next, Finds {} sourceName state (Piece.row pieces) next ∧
      next.mode = .text false false ∧ next.rest = after := by
  induction pieces generalizing state with
  | nil => exact ⟨state, .refl state, inText, shows⟩
  | cons piece pieces ih =>
      rw [List.forall_mem_cons] at spelt
      rw [List.flatMap_cons, List.append_assoc] at shows
      rcases exists_finds_piece sourceName spelt.1 inText shows with ⟨middle, first, inText, shows⟩
      rcases ih spelt.2 inText shows with ⟨next, others, inText, shows⟩
      exact ⟨next, first.trans others, inText, shows⟩

end Lexer

end Stencil

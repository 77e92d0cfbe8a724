import Stencil.Lexer.Opening
import Stencil.Proofs.Text.Cutting

/-!
# What openings look like

The text that an opening takes, for every way in which one is found. A start delimiter may be
followed by a dash; a word tag is a whole block tag around its word; a line prefix stands after an
indent. A line comment is the only opening whose text can be empty: this happens if its prefix
begins with a line break, since the comment then ends before its own prefix.
-/

namespace Stencil

namespace Dialect

variable (dialect : Dialect)

/-- The prefix of line comments begins with a line break, so that a line comment can be empty. -/
def EmptyLineComment : Prop :=
  ∃ marker, dialect.lineComment = some marker ∧
    (['\n'] <+: marker.toList ∨ ['\r', '\n'] <+: marker.toList)

variable {dialect}

theorem Sound.delimiterFault?_eq_none (sound : dialect.Sound) {setting delimiter : String}
    (isDelimiter : (setting, delimiter) ∈ dialect.delimiters) :
    delimiterFault? setting delimiter = none := by
  have noFault : dialect.fault? = none := sound
  rw [fault?, Option.or_eq_none_iff, List.findSome?_eq_none_iff] at noFault
  exact noFault.1 _ isDelimiter

/-- No delimiter of a sound dialect is empty. -/
theorem Sound.delimiter_ne_nil (sound : dialect.Sound) {setting delimiter : String}
    (isDelimiter : (setting, delimiter) ∈ dialect.delimiters) : delimiter.toList ≠ [] := by
  have noFault := sound.delimiterFault?_eq_none isDelimiter
  intro empty
  have : delimiter = "" := String.toList_eq_nil_iff.1 empty
  simp [delimiterFault?, this] at noFault

theorem Sound.blockStart_ne_nil (sound : dialect.Sound) : dialect.blockStart.toList ≠ [] :=
  sound.delimiter_ne_nil (show ("block_start", dialect.blockStart) ∈ dialect.delimiters by
    simp [delimiters])

theorem Sound.blockEnd_ne_nil (sound : dialect.Sound) : dialect.blockEnd.toList ≠ [] :=
  sound.delimiter_ne_nil (show ("block_end", dialect.blockEnd) ∈ dialect.delimiters by
    simp [delimiters])

theorem Sound.variableStart_ne_nil (sound : dialect.Sound) : dialect.variableStart.toList ≠ [] :=
  sound.delimiter_ne_nil (show ("variable_start", dialect.variableStart) ∈ dialect.delimiters by
    simp [delimiters])

theorem Sound.variableEnd_ne_nil (sound : dialect.Sound) : dialect.variableEnd.toList ≠ [] :=
  sound.delimiter_ne_nil (show ("variable_end", dialect.variableEnd) ∈ dialect.delimiters by
    simp [delimiters])

theorem Sound.commentStart_ne_nil (sound : dialect.Sound) : dialect.commentStart.toList ≠ [] :=
  sound.delimiter_ne_nil (show ("comment_start", dialect.commentStart) ∈ dialect.delimiters by
    simp [delimiters])

theorem Sound.commentEnd_ne_nil (sound : dialect.Sound) : dialect.commentEnd.toList ≠ [] :=
  sound.delimiter_ne_nil (show ("comment_end", dialect.commentEnd) ∈ dialect.delimiters by
    simp [delimiters])

/-- A line prefix of a sound dialect has a character that is not blank. -/
theorem Sound.exists_not_blank (sound : dialect.Sound) {setting marker : String}
    (isPrefix : (setting, some marker) ∈ dialect.linePrefixes) :
    ∃ char ∈ marker.toList, Text.isBlank char = false := by
  have noFault : dialect.fault? = none := sound
  rw [fault?, Option.or_eq_none_iff, Option.or_eq_none_iff, List.findSome?_eq_none_iff,
    List.findSome?_eq_none_iff] at noFault
  have noPrefixFault := noFault.2.2 _ isPrefix
  simp only [prefixFault?, ite_eq_right_iff, reduceCtorEq, imp_false, List.all_eq_true,
    not_forall, Bool.not_eq_true] at noPrefixFault
  rcases noPrefixFault with ⟨char, member, notBlank⟩
  exact ⟨char, member, notBlank⟩

theorem Sound.lineStatement_ne_nil (sound : dialect.Sound) {marker : String}
    (isMarker : dialect.lineStatement = some marker) : marker.toList ≠ [] := by
  rcases sound.exists_not_blank
    (show ("line_statement_prefix", some marker) ∈ dialect.linePrefixes by
      simp [linePrefixes, isMarker]) with ⟨char, member, _⟩
  exact List.ne_nil_of_mem member

end Dialect

namespace Lexer

/-- The mark by which a tag asks for the blanks beside it to be dropped, if it asks for that. -/
def dash (strip : Bool) : List Char :=
  if strip then ['-'] else []

@[simp]
theorem length_dash (strip : Bool) : (dash strip).length = strip.toNat := by
  cases strip <;> rfl

@[simp]
theorem dash_true : dash true = ['-'] := rfl

@[simp]
theorem dash_false : dash false = [] := rfl

/-- A dash is read exactly where one is next. -/
theorem dash_startsWith_append (text : List Char) :
    dash (Text.startsWith ['-'] text) ++ text.drop (Text.startsWith ['-'] text).toNat = text := by
  cases starts : Text.startsWith ['-'] text with
  | false => rfl
  | true =>
      rcases Text.startsWith_iff.1 starts with ⟨rest, rfl⟩
      rfl

/-- The delimiter that starts a tag or a comment. -/
def Start.delimiter (dialect : Dialect) : Start → List Char
  | .block => dialect.blockStart.toList
  | .variable => dialect.variableStart.toList
  | .comment => dialect.commentStart.toList

theorem Start.delimiter_ne_nil {dialect : Dialect} (sound : dialect.Sound) (start : Start) :
    start.delimiter dialect ≠ [] := by
  rcases start with _ | _ | _
  · exact sound.blockStart_ne_nil
  · exact sound.variableStart_ne_nil
  · exact sound.commentStart_ne_nil

/-- What a start delimiter begins if the tag is not a raw block. -/
def Start.opening (length : Nat) (strip : Bool) : Start → Opening
  | .block => .block length strip
  | .variable => .variable length strip
  | .comment => .comment length strip

/-- The text of a word tag. -/
def WordTag.written (dialect : Dialect) (tag : WordTag) (word leading trailing : List Char) :
    List Char :=
  dialect.blockStart.toList ++ (dash tag.stripBefore ++ (leading ++ (word ++ (trailing ++
    (dash tag.stripAfter ++ dialect.blockEnd.toList)))))

/-- A text begins with a word tag. -/
structure WordTag.Fits (dialect : Dialect) (word : List Char) (tag : WordTag)
    (text after : List Char) : Prop where
  exists_written : ∃ leading trailing, leading.all Text.isBlank = true ∧
    trailing.all Text.isBlank = true ∧
    text = tag.written dialect word leading trailing ++ after ∧
    tag.length = (tag.written dialect word leading trailing).length

variable {dialect : Dialect}

theorem fits_of_wordTag? {word text : List Char} {tag : WordTag}
    (found : wordTag? dialect word text = some tag) :
    ∃ after, tag.Fits dialect word text after := by
  simp only [wordTag?, Option.bind_eq_bind, Option.bind_eq_some_iff,
    Text.dropStart?_eq_some_iff, Option.pure_def, Option.some.injEq] at found
  rcases found with ⟨afterStart, sameStart, afterWord, sameWord, after, sameEnd, sameTag⟩
  -- The blanks and the dashes between the fixed parts of the tag are put back in place.
  have splitDash := dash_startsWith_append afterStart
  generalize stripBefore : Text.startsWith ['-'] afterStart = before at *
  generalize afterDashEq : afterStart.drop before.toNat = afterDash at *
  have splitLeading : afterDash.takeWhile Text.isBlank ++ (word ++ afterWord) = afterDash := by
    rw [← sameWord, Text.drop_blankLength, List.takeWhile_append_dropWhile]
  generalize stripAfter : Text.startsWith _ (afterWord.drop (Text.blankLength afterWord)) = strip
    at *
  have splitTrailing : afterWord.takeWhile Text.isBlank ++ (dash strip ++
      (dialect.blockEnd.toList ++ after)) = afterWord := by
    have splitEnd : dash strip ++ (dialect.blockEnd.toList ++ after) =
        afterWord.drop (Text.blankLength afterWord) := by
      rw [← sameEnd]
      cases strip with
      | false => rfl
      | true =>
          rcases Text.startsWith_iff.1 stripAfter with ⟨rest, sameRest⟩
          rw [← sameRest]
          rfl
    rw [splitEnd, Text.drop_blankLength, List.takeWhile_append_dropWhile]
  refine ⟨after, ⟨afterDash.takeWhile Text.isBlank, afterWord.takeWhile Text.isBlank,
    List.all_takeWhile, List.all_takeWhile, ?_, ?_⟩⟩
  · subst sameTag
    simp only [WordTag.written, List.append_assoc]
    rw [splitTrailing, splitLeading, splitDash, sameStart]
  · subst sameTag
    simp only [WordTag.written, List.length_append, length_dash, Text.blankLength,
      String.length_toList]
    omega

namespace WordTag.Fits

variable {word text after : List Char} {tag : WordTag}

/-- The text of a word tag that fits. -/
theorem exists_text (fits : tag.Fits dialect word text after) : ∃ written,
    text = written ++ after ∧ tag.length = written.length ∧
    dialect.blockStart.toList ++ dash tag.stripBefore <+: written ∧
    dash tag.stripAfter ++ dialect.blockEnd.toList <:+ written := by
  rcases fits.exists_written with ⟨leading, trailing, _, _, sameText, sameLength⟩
  refine ⟨_, sameText, sameLength, ?_, ?_⟩
  · exact ⟨leading ++ (word ++ (trailing ++ (dash tag.stripAfter ++ dialect.blockEnd.toList))),
      by simp [WordTag.written]⟩
  · exact ⟨dialect.blockStart.toList ++ (dash tag.stripBefore ++ (leading ++ (word ++ trailing))),
      by simp [WordTag.written]⟩

end WordTag.Fits

theorem mem_starts {delimiter : String} {start : Start}
    (member : (delimiter, start) ∈ starts dialect) :
    delimiter.toList = start.delimiter dialect := by
  simp only [starts, List.mem_mergeSort, List.mem_cons, List.not_mem_nil, or_false,
    Prod.mk.injEq] at member
  rcases member with ⟨rfl, rfl⟩ | ⟨rfl, rfl⟩ | ⟨rfl, rfl⟩ <;> rfl

/-- A start delimiter opens a tag or a comment, with its dash, or a raw block. -/
theorem delimiter?_eq_some {text : List Char} {opening : Opening}
    (found : delimiter? dialect text = some opening) :
    (∃ start strip after, text = Start.delimiter dialect start ++ (dash strip ++ after) ∧
      opening = start.opening (start.delimiter dialect ++ dash strip).length strip) ∨
    ∃ tag after, opening = .raw tag ∧ tag.Fits dialect "raw".toList text after := by
  simp only [delimiter?, Option.bind_eq_bind, Option.bind_eq_some_iff] at found
  rcases found with ⟨⟨delimiter, start⟩, isFirst, found⟩
  have sameDelimiter := mem_starts (List.mem_of_find?_eq_some isFirst)
  have starts := List.find?_some isFirst
  rcases Text.startsWith_iff.1 starts with ⟨rest, sameText⟩
  have sameRest : text.drop delimiter.length = rest := by
    rw [← sameText, ← String.length_toList, List.drop_left]
  have sameLength : delimiter.length = (start.delimiter dialect).length := by
    rw [← sameDelimiter, String.length_toList]
  simp only [sameRest] at found
  have plain : text = start.delimiter dialect ++ (dash (Text.startsWith ['-'] rest) ++
      rest.drop (Text.startsWith ['-'] rest).toNat) := by
    rw [dash_startsWith_append, ← sameDelimiter, sameText]
  have isPlain (sameOpening : start.opening (delimiter.length +
      (Text.startsWith ['-'] rest).toNat) (Text.startsWith ['-'] rest) = opening) :
      ∃ start strip after, text = Start.delimiter dialect start ++ (dash strip ++ after) ∧
        opening = start.opening (start.delimiter dialect ++ dash strip).length strip := by
    refine ⟨start, _, _, plain, ?_⟩
    rw [← sameOpening, sameLength, List.length_append, length_dash]
  rcases start with _ | _ | _
  · simp only at found
    split at found
    · next tag fits =>
      simp only [Option.pure_def, Option.some.injEq] at found
      rcases fits_of_wordTag? fits with ⟨after, fits⟩
      exact Or.inr ⟨tag, after, found.symm, fits⟩
    · exact Or.inl (isPlain (by simpa [Start.opening] using found))
  · exact Or.inl (isPlain (by simpa [Start.opening] using found))
  · exact Or.inl (isPlain (by simpa [Start.opening] using found))

theorem lineLength_le (text : List Char) : lineLength text ≤ text.length := by
  have shorter := (List.takeWhile_prefix (l := text) (· ≠ '\n')).length_le
  simp only [lineLength]
  split <;> omega

/-- A line is empty up to its break, or up to the carriage return before it. -/
theorem lineLength_eq_zero {text : List Char} (empty : lineLength text = 0) :
    text <+: ['\r'] ∨ ['\n'] <+: text ∨ ['\r', '\n'] <+: text := by
  match text with
  | [] => exact Or.inl (List.nil_prefix)
  | '\n' :: rest => exact Or.inr (Or.inl ⟨rest, rfl⟩)
  | ['\r'] => exact Or.inl (List.prefix_refl _)
  | '\r' :: '\n' :: rest => exact Or.inr (Or.inr ⟨rest, rfl⟩)
  | [first] => grind [lineLength, List.takeWhile_cons]
  | first :: second :: rest => grind [lineLength, List.takeWhile_cons]

/-- A line comment of a sound dialect is empty only if its prefix begins with a line break. -/
theorem emptyLineComment_of_lineLength_eq_zero (sound : dialect.Sound) {marker : String}
    (isMarker : dialect.lineComment = some marker) {text : List Char}
    (fits : marker.toList <+: text) (empty : lineLength text = 0) : dialect.EmptyLineComment := by
  rcases sound.exists_not_blank
    (show ("line_comment_prefix", some marker) ∈ dialect.linePrefixes by
      simp [Dialect.linePrefixes, isMarker]) with ⟨char, member, notBlank⟩
  -- A prefix that is not blank is more than a carriage return.
  have notReturn : ¬marker.toList <+: ['\r'] := by
    intro short
    have : char = '\r' := by simpa using short.subset member
    subst this
    exact absurd notBlank (by decide)
  have notNil : marker.toList ≠ [] := List.ne_nil_of_mem member
  refine ⟨marker, isMarker, ?_⟩
  rcases lineLength_eq_zero empty with short | newline | returned
  · exact absurd (fits.trans short) notReturn
  · left
    apply List.prefix_of_prefix_length_le newline fits
    exact List.length_pos_iff.2 notNil
  · right
    rcases List.prefix_or_prefix_of_prefix returned fits with longer | shorter
    · exact longer
    · have cut : marker.toList <+: ['\r'] ++ ['\n'] := shorter
      rcases List.prefix_concat_iff.1 cut with same | short
      · rw [same]
        exact List.prefix_refl _
      · exact absurd short notReturn

variable [Limits]

/-- A line prefix stands after an indent; a line statement takes the prefix only, a line comment
the whole line. -/
theorem linePrefix?_eq_some {text : List Char} {opening : Opening}
    (found : linePrefix? dialect text = some opening) :
    ∃ indent rest, text = indent ++ rest ∧ (∀ char ∈ indent, char = ' ' ∨ char = '\t') ∧
      ((∃ marker after, dialect.lineStatement = some marker ∧ rest = marker.toList ++ after ∧
          opening = .lineStatement (indent ++ marker.toList).length) ∨
        ∃ marker line after, dialect.lineComment = some marker ∧ marker.toList <+: rest ∧
          rest = line ++ after ∧ line.length = lineLength rest ∧
          opening = .lineComment (indent ++ line).length) := by
  simp only [linePrefix?, Text.drop_length_takeWhile] at found
  refine ⟨text.takeWhile (fun char => char = ' ' ∨ char = '\t'),
    text.dropWhile (fun char => char = ' ' ∨ char = '\t'),
    List.takeWhile_append_dropWhile.symm, ?_, ?_⟩
  · intro char member
    simpa using List.mem_takeWhile_imp member
  generalize text.takeWhile (fun char => char = ' ' ∨ char = '\t') = indent at found ⊢
  generalize text.dropWhile (fun char => char = ' ' ∨ char = '\t') = rest at found ⊢
  have isStatement {marker : String} (fits : dialect.lineStatement.filter (fun marker =>
      Text.startsWith marker.toList rest) = some marker)
      (sameOpening : some (.lineStatement (indent.length + marker.length)) = some opening) :
      ∃ marker after, dialect.lineStatement = some marker ∧ rest = marker.toList ++ after ∧
        opening = .lineStatement (indent ++ marker.toList).length := by
    rcases Option.filter_eq_some_iff.1 fits with ⟨isMarker, starts⟩
    rcases Text.startsWith_iff.1 starts with ⟨after, sameRest⟩
    refine ⟨marker, after, isMarker, sameRest.symm, ?_⟩
    rw [List.length_append, String.length_toList]
    exact (Option.some.inj sameOpening).symm
  have isComment {marker : String} (fits : dialect.lineComment.filter (fun marker =>
      Text.startsWith marker.toList rest) = some marker)
      (sameOpening : some (.lineComment (indent.length + lineLength rest)) = some opening) :
      ∃ marker line after, dialect.lineComment = some marker ∧ marker.toList <+: rest ∧
        rest = line ++ after ∧ line.length = lineLength rest ∧
        opening = .lineComment (indent ++ line).length := by
    rcases Option.filter_eq_some_iff.1 fits with ⟨isMarker, starts⟩
    have sameLength : (rest.take (lineLength rest)).length = lineLength rest :=
      List.length_take_of_le (lineLength_le rest)
    refine ⟨marker, rest.take (lineLength rest), rest.drop (lineLength rest), isMarker,
      Text.startsWith_iff.1 starts, (List.take_append_drop _ _).symm, sameLength, ?_⟩
    rw [List.length_append, sameLength]
    exact (Option.some.inj sameOpening).symm
  split at found
  · simp at found
  · split at found
    · next statementFits commentFits =>
      split at found
      · exact Or.inl (isStatement statementFits found)
      · exact Or.inr (isComment commentFits found)
    · next statementFits _ => exact Or.inl (isStatement statementFits found)
    · next _ commentFits => exact Or.inr (isComment commentFits found)
    · simp at found

omit [Limits] in
/-- The end of a raw block is an `endraw` tag after the text of the block. -/
theorem rawEnd?_eq_some {skip length : Nat} {text : List Char} {tag : WordTag}
    (found : rawEnd? dialect skip text = some (length, tag)) :
    ∃ content rest after, text = content ++ rest ∧ content.length = length ∧
      tag.Fits dialect "endraw".toList rest after := by
  induction text generalizing skip length with
  | nil => simp [rawEnd?] at found
  | cons char text ih =>
      have later {skip : Nat} (found : (rawEnd? dialect skip text).map
          (fun found => (found.1 + 1, found.2)) = some (length, tag)) :
          ∃ content rest after, char :: text = content ++ rest ∧ content.length = length ∧
            tag.Fits dialect "endraw".toList rest after := by
        rcases Option.map_eq_some_iff.1 found with ⟨⟨fewer, sameTag⟩, foundLater, same⟩
        simp only [Prod.mk.injEq] at same
        rcases same with ⟨rfl, rfl⟩
        rcases ih foundLater with ⟨content, rest, after, rfl, sameLength, fits⟩
        exact ⟨char :: content, rest, after, rfl, by simp [sameLength], fits⟩
      cases skip with
      | succ skip => exact later found
      | zero =>
          simp only [rawEnd?] at found
          split at found
          · split at found
            · next fits =>
              simp only [Option.some.injEq, Prod.mk.injEq] at found
              rcases found with ⟨rfl, rfl⟩
              rcases fits_of_wordTag? fits with ⟨after, fits⟩
              exact ⟨[], char :: text, after, rfl, rfl, fits⟩
            · exact later found
          · exact later found

/-- Plain text after a character ends where the text ends, or before an opening. -/
theorem exists_plainLengthAfter (previous : Char) (text : List Char) :
    ∃ plain after, text = plain ++ after ∧ plain.length = plainLengthAfter dialect previous text ∧
      (after = [] ∨ (opening? dialect
        ((previous :: plain).getLast? = some '\n') after).isSome = true) := by
  induction text generalizing previous with
  | nil => exact ⟨[], [], rfl, rfl, Or.inl rfl⟩
  | cons char text ih =>
      simp only [plainLengthAfter]
      split
      · next opens => exact ⟨[], char :: text, rfl, rfl, Or.inr (by simpa using opens)⟩
      · rcases ih char with ⟨plain, after, rfl, sameLength, ends⟩
        refine ⟨char :: plain, after, rfl, by simp [sameLength], ?_⟩
        rw [List.getLast?_cons_cons]
        exact ends

/-- A run of plain text has a character, and ends where the text ends or before an opening. -/
theorem exists_plainLength (dialect : Dialect) {text : List Char} (nonempty : text ≠ []) :
    ∃ plain after, text = plain ++ after ∧ plain.length = plainLength dialect text ∧
      plain ≠ [] ∧
      (after = [] ∨ (opening? dialect (plain.getLast? = some '\n') after).isSome = true) := by
  cases text with
  | nil => exact absurd rfl nonempty
  | cons char text =>
      rcases exists_plainLengthAfter char text with ⟨plain, after, rfl, sameLength, ends⟩
      exact ⟨char :: plain, after, rfl, by simp [plainLength, sameLength], by simp, ends⟩

end Lexer

end Stencil

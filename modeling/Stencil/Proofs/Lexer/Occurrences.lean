import Stencil.Proofs.Lexer.Pieces
import Stencil.Proofs.Lexer.RawEnds

/-!
# What opens at a place

Something opens at a place in plain text exactly if a start delimiter stands there, or, where a line
starts, a line prefix after an indent. Of several start delimiters the longest one is taken. The
indent of a line is all of the spaces and tabs that it begins with, and so a line prefix that begins
with a space or a tab itself is never found.
-/

namespace Stencil

/-- A prefix of line statements or of line comments. -/
def Dialect.IsLinePrefix (dialect : Dialect) (marker : String) : Prop :=
  dialect.lineStatement = some marker ∨ dialect.lineComment = some marker

theorem Dialect.IsLinePrefix.ne_nil {dialect : Dialect} (sound : dialect.Sound) {marker : String}
    (isMarker : dialect.IsLinePrefix marker) : marker.toList ≠ [] := by
  have isSet : ∃ setting, (setting, some marker) ∈ dialect.linePrefixes := by
    rcases isMarker with isMarker | isMarker
    · exact ⟨"line_statement_prefix", by simp [Dialect.linePrefixes, isMarker]⟩
    · exact ⟨"line_comment_prefix", by simp [Dialect.linePrefixes, isMarker]⟩
  rcases isSet with ⟨setting, isSet⟩
  rcases sound.exists_not_blank isSet with ⟨char, member, _⟩
  exact List.ne_nil_of_mem member

namespace Lexer

variable {dialect : Dialect} {text : List Char} {opening : Opening}

/-! ### Line prefixes -/

/-- A character that can stand in an indent. -/
def isIndent (char : Char) : Bool :=
  char = ' ' ∨ char = '\t'

/-- A line prefix stands at the start of a text, after at most `indentBudget` spaces and tabs. -/
def ShowsPrefix [Limits] (marker text : List Char) : Prop :=
  ∃ indent, indent.all isIndent = true ∧ indent.length ≤ indentBudget ∧ indent ++ marker <+: text

/-- A line prefix begins with a space or a tab. -/
def IsIndented (marker : String) : Prop :=
  ∃ char ∈ marker.toList.head?, isIndent char = true

/-- A line prefix that begins with no space or tab stands at the start of a text, after an
indent. -/
def ShowsLine [Limits] (dialect : Dialect) (text : List Char) : Prop :=
  ∃ marker, dialect.IsLinePrefix marker ∧ ¬IsIndented marker ∧ ShowsPrefix marker.toList text

/-- The indent of a line is told from a prefix that begins with no space or tab. -/
theorem span_indent {indent after : List Char} {marker : String} (nonempty : marker.toList ≠ [])
    (areIndent : indent.all isIndent = true) (notIndented : ¬IsIndented marker) :
    (indent ++ (marker.toList ++ after)).takeWhile isIndent = indent ∧
      (indent ++ (marker.toList ++ after)).dropWhile isIndent = marker.toList ++ after := by
  rcases List.exists_cons_of_ne_nil nonempty with ⟨char, others, shows⟩
  have notIndent : ¬isIndent char = true := fun isIndent =>
    notIndented ⟨char, by simp [shows], isIndent⟩
  have areIndent : ∀ char ∈ indent, isIndent char = true := by simpa using areIndent
  rw [shows, List.cons_append]
  constructor
  · rw [List.takeWhile_append_of_pos areIndent, List.takeWhile_cons_of_neg notIndent,
      List.append_nil]
  · rw [List.dropWhile_append_of_pos areIndent, List.dropWhile_cons_of_neg notIndent]

theorem linePrefix?_eq [Limits] (dialect : Dialect) (text : List Char) : linePrefix? dialect text =
    (let indent := text.takeWhile isIndent
    let afterIndent := text.dropWhile isIndent
    let fitting (setting : Option String) : Option String :=
      setting.filter fun marker => Text.startsWith marker.toList afterIndent
    if indentBudget < indent.length then none
    else match fitting dialect.lineStatement, fitting dialect.lineComment with
      | some statement, some comment =>
        if comment.utf8ByteSize < statement.utf8ByteSize then
          some (.lineStatement (indent.length + statement.length))
        else some (.lineComment (indent.length + lineLength afterIndent))
      | some statement, none => some (.lineStatement (indent.length + statement.length))
      | none, some _ => some (.lineComment (indent.length + lineLength afterIndent))
      | none, none => none) := by
  rw [← Text.drop_length_takeWhile]
  rfl

/-- A line prefix that is found is one that begins with no space or tab. -/
theorem not_isIndented_of_prefix {marker : String} (nonempty : marker.toList ≠ [])
    (fits : marker.toList <+: text.dropWhile isIndent) : ¬IsIndented marker := by
  rintro ⟨char, isFirst, isIndent⟩
  rcases fits with ⟨after, same⟩
  have isHead : (text.dropWhile Lexer.isIndent).head? = some char := by
    rw [← same, List.head?_append_of_ne_nil _ nonempty]
    exact isFirst
  have notIndent := List.head?_dropWhile_not Lexer.isIndent text
  rw [isHead] at notIndent
  simp [isIndent] at notIndent

/-- A line prefix that is found stands after the indent. -/
theorem exists_marker_of_linePrefix? [Limits] (found : linePrefix? dialect text = some opening) :
    (text.takeWhile isIndent).length ≤ indentBudget ∧
    ∃ marker, dialect.IsLinePrefix marker ∧ marker.toList <+: text.dropWhile isIndent ∧
      (∀ length, opening = .lineStatement length → dialect.lineStatement = some marker ∧
        length = (text.takeWhile isIndent ++ marker.toList).length) := by
  rw [linePrefix?_eq] at found
  dsimp only at found
  split at found
  · simp at found
  · next withinBudget =>
    refine ⟨Nat.not_lt.1 withinBudget, ?_⟩
    have fitting {setting : Option String} {marker : String}
        (isFitting : setting.filter (fun marker => Text.startsWith marker.toList
          (text.dropWhile isIndent)) = some marker) :
        setting = some marker ∧ marker.toList <+: text.dropWhile isIndent := by
      rcases Option.filter_eq_some_iff.1 isFitting with ⟨isMarker, starts⟩
      exact ⟨isMarker, Text.startsWith_iff.1 starts⟩
    have statement {marker : String} (isFitting : dialect.lineStatement.filter (fun marker =>
          Text.startsWith marker.toList (text.dropWhile isIndent)) = some marker)
        (same : some (.lineStatement ((text.takeWhile isIndent).length + marker.length)) =
          some opening) :
        ∃ marker, dialect.IsLinePrefix marker ∧ marker.toList <+: text.dropWhile isIndent ∧
          (∀ length, opening = .lineStatement length → dialect.lineStatement = some marker ∧
            length = (text.takeWhile isIndent ++ marker.toList).length) := by
      rcases fitting isFitting with ⟨isMarker, fits⟩
      refine ⟨marker, Or.inl isMarker, fits, fun length isLength => ⟨isMarker, ?_⟩⟩
      rw [← Option.some.inj same, Opening.lineStatement.injEq] at isLength
      rw [← isLength, List.length_append, String.length_toList]
    have comment {marker : String} {length : Nat} (isFitting : dialect.lineComment.filter
          (fun marker => Text.startsWith marker.toList (text.dropWhile isIndent)) = some marker)
        (same : some (.lineComment length) = some opening) :
        ∃ marker, dialect.IsLinePrefix marker ∧ marker.toList <+: text.dropWhile isIndent ∧
          (∀ length, opening = .lineStatement length → dialect.lineStatement = some marker ∧
            length = (text.takeWhile isIndent ++ marker.toList).length) := by
      rcases fitting isFitting with ⟨isMarker, fits⟩
      refine ⟨marker, Or.inr isMarker, fits, fun length isLength => ?_⟩
      rw [← Option.some.inj same] at isLength
      cases isLength
    split at found
    · next isStatement isComment =>
      split at found
      · exact statement isStatement found
      · exact comment isComment found
    · next isStatement _ => exact statement isStatement found
    · next _ isComment => exact comment isComment found
    · simp at found

/-- A line is found exactly where one is shown. -/
theorem isSome_linePrefix?_iff [Limits] (sound : dialect.Sound) :
    (linePrefix? dialect text).isSome = true ↔ ShowsLine dialect text := by
  constructor
  · intro isFound
    rcases Option.isSome_iff_exists.1 isFound with ⟨opening, found⟩
    rcases exists_marker_of_linePrefix? found with ⟨withinBudget, marker, isMarker, fits, _⟩
    refine ⟨marker, isMarker, not_isIndented_of_prefix (isMarker.ne_nil sound) fits,
      text.takeWhile isIndent, List.all_takeWhile, withinBudget, ?_⟩
    have split : text.takeWhile isIndent ++ marker.toList <+:
        text.takeWhile isIndent ++ text.dropWhile isIndent :=
      (List.prefix_append_right_inj _).2 fits
    rwa [List.takeWhile_append_dropWhile] at split
  · rintro ⟨marker, isMarker, notIndented, indent, areIndent, withinBudget, after, rfl⟩
    rw [List.append_assoc]
    obtain ⟨sameIndent, sameRest⟩ :
        (indent ++ (marker.toList ++ after)).takeWhile isIndent = indent ∧
          (indent ++ (marker.toList ++ after)).dropWhile isIndent = marker.toList ++ after :=
      span_indent (isMarker.ne_nil sound) areIndent notIndented
    have starts : Text.startsWith marker.toList (marker.toList ++ after) = true :=
      Text.startsWith_iff.2 (List.prefix_append _ _)
    rw [linePrefix?_eq]
    simp only [sameIndent, sameRest]
    rw [if_neg (Nat.not_lt.2 withinBudget)]
    have fitting (setting : Option String) (isSet : setting = some marker) :
        setting.filter (fun marker' => Text.startsWith marker'.toList (marker.toList ++ after)) =
          some marker := by
      rw [isSet, Option.filter_some, if_pos starts]
    rcases isMarker with isStatement | isComment
    · rw [fitting _ isStatement]
      split
      · split <;> rfl
      · rfl
      · next noStatement _ => simp at noStatement
      · next noStatement _ => simp at noStatement
    · rw [fitting _ isComment]
      split
      · split <;> rfl
      · rfl
      · rfl
      · next noComment => simp at noComment

/-! ### Start delimiters -/

/-- Different start delimiters of a sound dialect are spelt differently. -/
theorem Start.delimiter_injective (sound : dialect.Sound) {start other : Start}
    (same : start.delimiter dialect = other.delimiter dialect) : start = other := by
  have noFault : dialect.fault? = none := sound
  rw [Dialect.fault?, Option.or_eq_none_iff, Option.or_eq_none_iff] at noFault
  have noStartFault := noFault.2.1
  have distinct : dialect.blockStart ≠ dialect.variableStart ∧
      dialect.blockStart ≠ dialect.commentStart ∧ dialect.variableStart ≠ dialect.commentStart := by
    unfold Dialect.startFault? at noStartFault
    split at noStartFault
    · simp at noStartFault
    · next notBlock =>
      split at noStartFault
      · simp at noStartFault
      · next notVariable => exact ⟨notBlock ∘ Or.inl, notBlock ∘ Or.inr, notVariable⟩
  rcases distinct with ⟨blockVariable, blockComment, variableComment⟩
  cases start <;> cases other <;> first
    | rfl
    | exact absurd (String.toList_injective same) ‹_›
    | exact absurd (String.toList_injective same).symm ‹_›

/-- The longest of the start delimiters with which a text begins. -/
structure Longest (dialect : Dialect) (text : List Char) (start : Start) : Prop where
  starts : start.delimiter dialect <+: text
  longer : ∀ other : Start, other ≠ start → other.delimiter dialect <+: text →
    (other.delimiter dialect).length < (start.delimiter dialect).length

/-- A text begins with a whole block tag around the word `raw`. -/
def OpensRaw (dialect : Dialect) (text : List Char) : Prop :=
  ∃ (tag : WordTag) (after : List Char), tag.Fits dialect "raw".toList text after

theorem exists_mem_starts (dialect : Dialect) (start : Start) : ∃ delimiter,
    (delimiter, start) ∈ starts dialect ∧ delimiter.toList = start.delimiter dialect := by
  rcases start with _ | _ | _
  · exact ⟨dialect.blockStart, by simp [starts], rfl⟩
  · exact ⟨dialect.variableStart, by simp [starts], rfl⟩
  · exact ⟨dialect.commentStart, by simp [starts], rfl⟩

theorem starts_pairwise (dialect : Dialect) : (starts dialect).Pairwise fun first second =>
    second.1.utf8ByteSize ≤ first.1.utf8ByteSize := by
  have sorted : (starts dialect).Pairwise fun first second =>
      decide (second.1.utf8ByteSize ≤ first.1.utf8ByteSize) = true := by
    refine List.pairwise_mergeSort (fun _ _ _ first second => ?_) (fun _ _ => ?_) _
    · simp only [decide_eq_true_eq] at first second ⊢
      omega
    · simp only [Bool.or_eq_true, decide_eq_true_eq]
      omega
  simpa using sorted

/-- The first start delimiter of those sorted by length is the longest one. -/
theorem longest_of_find? (sound : dialect.Sound) {delimiter : String} {start : Start}
    (isFirst : (starts dialect).find? (fun entry => Text.startsWith entry.1.toList text) =
      some (delimiter, start)) : Longest dialect text start := by
  rcases List.find?_eq_some_iff_append.1 isFirst with ⟨isStart, before, after, split, notBefore⟩
  have sorted := starts_pairwise dialect
  rw [split, List.pairwise_append, List.pairwise_cons] at sorted
  have sameDelimiter : delimiter.toList = start.delimiter dialect :=
    mem_starts (split ▸ List.mem_append_right _ List.mem_cons_self)
  have fits : start.delimiter dialect <+: text := sameDelimiter ▸ Text.startsWith_iff.1 isStart
  refine ⟨fits, fun other different otherFits => ?_⟩
  rcases exists_mem_starts dialect other with ⟨spelling, member, sameSpelling⟩
  have shorter : spelling.utf8ByteSize ≤ delimiter.utf8ByteSize := by
    rw [split, List.mem_append, List.mem_cons] at member
    rcases member with isBefore | isHere | isAfter
    · have notStart := notBefore _ isBefore
      rw [Text.startsWith_iff.2 (sameSpelling ▸ otherFits)] at notStart
      simp at notStart
    · exact absurd (congrArg Prod.snd isHere) different
    · exact sorted.2.1.1 _ isAfter
  by_contra notShorter
  have isPrefix := List.prefix_of_prefix_length_le fits otherFits (Nat.not_lt.1 notShorter)
  -- The other delimiter would be a longer text with no more bytes.
  rcases isPrefix with ⟨more, same⟩
  by_cases isWhole : more = []
  · rw [isWhole, List.append_nil] at same
    exact different (Start.delimiter_injective sound same).symm
  · have positive := Text.byteLength_pos isWhole
    have bytes (delimiter : String) :
        Text.byteLength delimiter.toList = delimiter.utf8ByteSize := by
      rw [Text.byteLength_eq_utf8ByteSize, String.ofList_toList]
    have sameBytes := congrArg Text.byteLength same
    rw [Text.byteLength_append, ← sameDelimiter, ← sameSpelling, bytes, bytes] at sameBytes
    omega

/-- What the longest start delimiter of a text opens: a raw block exactly if it starts a block tag
that is a whole one around the word `raw`. -/
inductive Begins (dialect : Dialect) (text : List Char) (start : Start) : Opening → Prop where
  | raw {tag : WordTag} {after : List Char} (isBlock : start = .block)
      (fits : tag.Fits dialect "raw".toList text after) : Begins dialect text start (.raw tag)
  | other {strip : Bool} {after : List Char} (notRaw : ¬(start = .block ∧ OpensRaw dialect text))
      (shows : text = start.delimiter dialect ++ dash strip ++ after) :
      Begins dialect text start
        (start.opening (start.delimiter dialect ++ dash strip).length strip)

theorem exists_longest_of_delimiter? (sound : dialect.Sound)
    (found : delimiter? dialect text = some opening) : ∃ start,
      Longest dialect text start ∧ Begins dialect text start opening := by
  simp only [delimiter?, Option.bind_eq_bind, Option.bind_eq_some_iff] at found
  rcases found with ⟨⟨delimiter, start⟩, isFirst, found⟩
  have longest := longest_of_find? sound isFirst
  have sameDelimiter := mem_starts (List.mem_of_find?_eq_some isFirst)
  have sameLength : delimiter.length = (start.delimiter dialect).length := by
    rw [← sameDelimiter, String.length_toList]
  rcases longest.starts with ⟨rest, rfl⟩
  simp only [sameLength, List.drop_left] at found
  refine ⟨start, longest, ?_⟩
  have shows : start.delimiter dialect ++ rest = start.delimiter dialect ++
      dash (Text.startsWith ['-'] rest) ++ rest.drop (Text.startsWith ['-'] rest).toNat := by
    rw [List.append_assoc, dash_startsWith_append]
  have other (notRaw : ¬(start = .block ∧ OpensRaw dialect (start.delimiter dialect ++ rest)))
      (same : start.opening ((start.delimiter dialect).length +
        (Text.startsWith ['-'] rest).toNat) (Text.startsWith ['-'] rest) = opening) :
      Begins dialect (start.delimiter dialect ++ rest) start opening := by
    have isOther := Begins.other notRaw shows
    rwa [List.length_append, length_dash, same] at isOther
  rcases start with _ | _ | _
  · simp only at found
    split at found
    · next tag isTag =>
      rcases fits_of_wordTag? isTag with ⟨after, fits⟩
      rw [← Option.some.inj found]
      exact .raw rfl fits
    · next noTag =>
      refine other ?_ (Option.some.inj found)
      rintro ⟨_, tag, after, fits⟩
      have isTag := isSome_wordTag?_of_fits sound
        (show "raw".toList = 'r' :: "aw".toList from rfl) (by decide) (by decide) fits
      rw [noTag] at isTag
      simp at isTag
  · exact other (by simp) (Option.some.inj found)
  · exact other (by simp) (Option.some.inj found)

/-- No delimiter is found exactly where none is shown. -/
theorem delimiter?_eq_none_iff :
    delimiter? dialect text = none ↔ ∀ start : Start, ¬start.delimiter dialect <+: text := by
  have found_iff : delimiter? dialect text = none ↔
      (starts dialect).find? (fun entry => Text.startsWith entry.1.toList text) = none := by
    unfold delimiter?
    cases (starts dialect).find? (fun entry => Text.startsWith entry.1.toList text) with
    | none => simp
    | some found =>
        rcases found with ⟨delimiter, _ | _ | _⟩
        · simp only [Option.bind_eq_bind, Option.bind_some, reduceCtorEq, iff_false]
          split <;> simp
        · simp
        · simp
  rw [found_iff, List.find?_eq_none]
  constructor
  · intro notFound start fits
    rcases exists_mem_starts dialect start with ⟨delimiter, member, same⟩
    exact notFound _ member (Text.startsWith_iff.2 (same ▸ fits))
  · rintro notShown ⟨delimiter, start⟩ member isStart
    exact notShown start (mem_starts member ▸ Text.startsWith_iff.1 isStart)

variable [Limits]

/-- Nothing opens exactly where nothing is shown. -/
theorem opening?_eq_none_iff (sound : dialect.Sound) {atLineStart : Bool} :
    opening? dialect atLineStart text = none ↔
      (∀ start : Start, ¬start.delimiter dialect <+: text) ∧
        (atLineStart = true → ¬ShowsLine dialect text) := by
  rw [opening?, Option.or_eq_none_iff, delimiter?_eq_none_iff, and_comm, and_congr_right_iff]
  intro _
  rw [← isSome_linePrefix?_iff sound, Option.not_isSome_iff_eq_none]
  cases atLineStart with
  | true => simp
  | false => simp

end Lexer

end Stencil

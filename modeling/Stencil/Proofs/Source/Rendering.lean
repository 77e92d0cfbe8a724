import Stencil.Proofs.Source.Lines

/-!
# Places in a source

A span that covers a token of a source is a stretch of it: both ends fall between characters, the
text between them is that of the token, and an index of lines finds both ends again. Where such a
stretch is rendered, the line on which it starts is shown, with carets from its first column on.
-/

namespace Stencil

open Text

namespace Text

/-- An offset falls between two characters of a text, or on one of its ends. -/
def IsBoundary (text : List Char) (offset : Nat) : Prop :=
  ∃ before after, text = before ++ after ∧ byteLength before = offset

theorem IsBoundary.le {text : List Char} {offset : Nat} (isBoundary : IsBoundary text offset) :
    offset ≤ byteLength text := by
  rcases isBoundary with ⟨before, after, rfl, rfl⟩
  rw [byteLength_append]
  exact Nat.le_add_right _ _

theorem length_le_byteLength (text : List Char) : text.length ≤ byteLength text := by
  induction text with
  | nil => exact Nat.le_refl 0
  | cons char text ih =>
      have := Char.utf8Size_pos char
      rw [List.length_cons, byteLength_cons]
      omega

theorem length_dropEndWhile_le (drop : Char → Bool) (text : List Char) :
    (dropEndWhile drop text).length ≤ text.length := by
  rw [dropEndWhile, List.length_reverse, ← text.length_reverse]
  exact (List.dropWhile_suffix drop).length_le

end Text

/-- A column is told by at most as many characters as there are bytes. -/
theorem Position.column_advanceOver_le (position : Position) (text : List Char)
    (isColumn : 0 < position.column) :
    (position.advanceOver text).column ≤ position.column + byteLength text := by
  induction text generalizing position with
  | nil => exact Nat.le_refl _
  | cons char text ih =>
      have moved : position.advanceOver (char :: text) = (position.advance char).advanceOver text :=
        rfl
      have step : (position.advance char).column ≤ position.column + char.utf8Size := by
        have nonempty := Char.utf8Size_pos char
        unfold advance
        split
        · dsimp only
          omega
        · dsimp only
          omega
      have rest := ih (position.advance char) (column_advance_pos position char)
      rw [moved, byteLength_cons]
      omega

namespace LineIndex

variable (index : LineIndex)

theorem length_line_le {number : Nat} {line : List Char} (isLine : index.line? number = some line) :
    line.length ≤ byteLength index.source := by
  cases number with
  | zero => simp [line?] at isLine
  | succ number =>
      rw [line?_succ, List.getElem?_map] at isLine
      rcases Option.map_eq_some_iff.1 isLine with ⟨piece, isPiece, rfl⟩
      rcases exists_around_piece 0 isPiece with ⟨before, after, isSource, -⟩
      have cutShort := length_dropEndWhile_le (· = '\r') piece
      have fewer := length_le_byteLength piece
      rw [isSource, byteLength_append, byteLength_append]
      omega

/-- Each place of the source is on a line. -/
theorem exists_line_of_before {before after : List Char}
    (isSource : index.source = before ++ after) :
    ∃ line, index.line? (Position.start.advanceOver before).line = some line := by
  rw [← Option.isSome_iff_exists, isSome_line?_iff, lineCount_eq, isSource]
  simp only [Position.line_advanceOver, List.count_append, Position.start]
  omega

/-- The line of a position, with its number, and below it carets from the column of the position
on. -/
def excerpt (position : Position) (line : List Char) (carets : Nat) : String :=
  let number := toString position.line
  let margin := String.ofList (List.replicate number.length ' ')
  let indent := String.ofList (List.replicate (position.column - 1) ' ')
  let underline := String.ofList (List.replicate carets '^')
  let shown := String.ofList line
  s!"{margin} |\n{number} | {shown}\n{margin} | {indent}{underline}\n"

/-- What stands above an excerpt: the message, and the place that it is about. -/
def heading (span : Span) (message : String) : String :=
  let name := index.name.getD "<template>"
  let place := s!"{name}:{span.start.describe}"
  s!"error: {message}\n  --> {place}\n"

variable {before middle after : List Char}

/-- Under the line of a stretch there is room for carets. -/
theorem caretCount?_stretch (isSource : index.source = before ++ (middle ++ after))
    {line : List Char} (isLine : line.length ≤ byteLength index.source) :
    ∃ carets, caretCount? ⟨Position.start.advanceOver before,
        (Position.start.advanceOver before).advanceOver middle⟩ line.length = some carets ∧
      carets ≤ byteLength index.source := by
  have isColumn : 0 < (Position.start.advanceOver before).column :=
    Position.column_advanceOver_pos Nat.one_pos before
  have stopColumn := Position.column_advanceOver_le .start (before ++ middle) Nat.one_pos
  have size := congrArg byteLength isSource
  simp only [byteLength_append, Position.advanceOver_append] at size stopColumn
  have first : Position.start.column = 1 := rfl
  unfold caretCount?
  dsimp only
  split
  · exact ⟨_, rfl, by omega⟩
  · rw [if_neg (by omega)]
    exact ⟨_, rfl, by omega⟩

/-- A stretch of a source is shown with the line on which it starts. -/
theorem render?_stretch (isSource : index.source = before ++ (middle ++ after))
    (fits : byteLength index.source ≤ maxSize) (message : String) :
    let span : Span := ⟨Position.start.advanceOver before,
      (Position.start.advanceOver before).advanceOver middle⟩
    ∃ line carets, index.line? span.start.line = some line ∧ 0 < carets ∧
      index.render? span message =
        some (index.heading span message ++ excerpt span.start line carets) := by
  intro span
  obtain ⟨line, isLine⟩ := index.exists_line_of_before isSource
  obtain ⟨carets, counted, fewCarets⟩ :=
    index.caretCount?_stretch isSource (index.length_line_le isLine)
  have startColumn := Position.column_advanceOver_le .start before Nat.one_pos
  have size := congrArg byteLength isSource
  have first : Position.start.column = 1 := rfl
  have oneFits : 1 ≤ maxSize := by decide
  have room : ¬ (maxSize < span.start.column - 1 ∨ maxSize < max carets 1) := by
    simp only [byteLength_append] at size
    simp only [span]
    omega
  refine ⟨line, max carets 1, isLine, by omega, ?_⟩
  simp only [render?, span, isLine, counted, Option.bind_eq_bind, Option.bind_some]
  rw [if_neg room]
  rfl

end LineIndex

end Stencil

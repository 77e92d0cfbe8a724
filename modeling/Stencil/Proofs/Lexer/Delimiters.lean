import Stencil.Proofs.Lexer.Regions

/-!
# Delimiters of sound dialects

The check of a dialect asks for delimiters that are not empty and hold no blanks. No blank, and in
particular no line break, is therefore taken for the start of a delimiter, and a delimiter never
ends a line.
-/

namespace Stencil

namespace Dialect

variable {dialect : Dialect}

/-- No character of a delimiter is blank. -/
theorem Sound.isBlank_of_mem (sound : dialect.Sound) {setting delimiter : String}
    (isDelimiter : (setting, delimiter) ∈ dialect.delimiters) {char : Char}
    (member : char ∈ delimiter.toList) : Text.isBlank char = false := by
  have noFault := sound.delimiterFault?_eq_none isDelimiter
  apply Bool.eq_false_iff.2
  intro isBlank
  have hasBlank : delimiter.toList.any Text.isBlank = true :=
    List.any_eq_true.2 ⟨char, member, isBlank⟩
  rw [delimiterFault?, hasBlank] at noFault
  split at noFault <;> simp at noFault

end Dialect

namespace Lexer

variable {dialect : Dialect} {text after : List Char} {char : Char}

theorem Start.isBlank_of_mem (sound : dialect.Sound) (start : Start)
    (member : char ∈ start.delimiter dialect) : Text.isBlank char = false := by
  rcases start with _ | _ | _
  · exact sound.isBlank_of_mem (show ("block_start", dialect.blockStart) ∈ dialect.delimiters by
      simp [Dialect.delimiters]) member
  · exact sound.isBlank_of_mem
      (show ("variable_start", dialect.variableStart) ∈ dialect.delimiters by
        simp [Dialect.delimiters]) member
  · exact sound.isBlank_of_mem
      (show ("comment_start", dialect.commentStart) ∈ dialect.delimiters by
        simp [Dialect.delimiters]) member

theorem isBlank_of_mem_blockEnd (sound : dialect.Sound) (member : char ∈ dialect.blockEnd.toList) :
    Text.isBlank char = false :=
  sound.isBlank_of_mem (show ("block_end", dialect.blockEnd) ∈ dialect.delimiters by
    simp [Dialect.delimiters]) member

theorem isBlank_of_mem_commentEnd (sound : dialect.Sound)
    (member : char ∈ dialect.commentEnd.toList) : Text.isBlank char = false :=
  sound.isBlank_of_mem (show ("comment_end", dialect.commentEnd) ∈ dialect.delimiters by
    simp [Dialect.delimiters]) member

/-- A delimiter starts where the text is not blank. -/
theorem delimiter?_eq_none_of_isBlank (sound : dialect.Sound) (isBlank : Text.isBlank char = true)
    (text : List Char) : delimiter? dialect (char :: text) = none := by
  have notStarts (start : Start) (after : List Char) :
      char :: text ≠ start.delimiter dialect ++ after := by
    intro same
    rcases List.exists_cons_of_ne_nil (start.delimiter_ne_nil sound) with ⟨first, more, shows⟩
    rw [shows, List.cons_append, List.cons.injEq] at same
    have notBlank := start.isBlank_of_mem sound (shows ▸ List.mem_cons_self)
    rw [← same.1, isBlank] at notBlank
    simp at notBlank
  cases found : delimiter? dialect (char :: text) with
  | none => rfl
  | some opening =>
      rcases delimiter?_eq_some found with ⟨start, _, _, same, _⟩ | ⟨tag, after, _, fits⟩
      · exact absurd same (notStarts start _)
      · rcases fits.exists_written with ⟨_, _, _, _, same, _⟩
        rw [WordTag.written, List.append_assoc] at same
        exact absurd same (notStarts .block _)

/-- No line starts after a text that ends with a character that is not blank. -/
theorem column_ne_one_of_not_blank {position : Position} (isColumn : 0 < position.column)
    (nonempty : text ≠ []) (notBlank : ∀ char ∈ text.getLast?, Text.isBlank char = false) :
    (position.advanceOver text).column ≠ 1 := by
  rw [Ne, Position.column_advanceOver_eq_one isColumn nonempty]
  intro isLast
  exact absurd (notBlank _ isLast) (by decide)

end Lexer

end Stencil

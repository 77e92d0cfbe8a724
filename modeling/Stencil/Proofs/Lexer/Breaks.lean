import Stencil.Proofs.Lexer.Delimiters
import Stencil.Proofs.Lexer.Steps

/-!
# What line breaks and blanks have to do with each other

A tag may take back the blanks at the end of the plain text before it, and that text may also lose
the line break at its start. The order makes no difference, even if the line break is among the
blanks. Which block tags take the rest of their line, and so never drop a line break, can be told
from their first token.
-/

namespace Stencil

namespace Text

/-- Blanks at the start of a text go with the blanks at its end only if nothing else is there. -/
theorem trimEnd_append {text : List Char} (blank : text.all isBlank = true) (rest : List Char) :
    trimEnd (text ++ rest) = if trimEnd rest = [] then [] else text ++ trimEnd rest := by
  simp only [trimEnd, dropEndWhile, List.reverse_append, List.dropWhile_append,
    List.isEmpty_iff, List.reverse_eq_nil_iff]
  split
  · rw [List.dropWhile_eq_nil_iff.2 (by simpa using blank), List.reverse_nil]
  · rw [List.reverse_append, List.reverse_reverse]

end Text

namespace Lexer

variable {dialect : Dialect} {sourceName : Option String} {state : State}
  {tokens kept : List Token} {trimming : Trimming} {token : Token}

/-! ### Blanks taken back -/

/-- The line break at the start of plain text and the blanks at its end can be dropped in either
order. -/
theorem flatMap_withoutBreak_trimmed (token : Token) :
    (State.trimmed token).flatMap Token.withoutBreak =
      token.withoutBreak.flatMap State.trimmed := by
  by_cases noBreak : Text.breakLength token.text.toList = 0
  · have same : token.withoutBreak = [token] := by simp [Token.withoutBreak, noBreak]
    rw [same, List.flatMap_singleton]
    unfold State.trimmed
    split
    · rfl
    · have noBreak : Text.breakLength (Text.trimEnd token.text.toList) = 0 := by
        rcases Text.exists_trimEnd_append token.text.toList with ⟨blanks, sameText, _⟩
        exact Text.breakLength_eq_zero_of_prefix ⟨blanks, sameText.symm⟩ noBreak
      simp [Token.withoutBreak, noBreak]
  · rcases Text.exists_of_breakLength_ne_zero noBreak with ⟨front, rest, shows, _, isBreak⟩
    have blank : front.all Text.isBlank = true :=
      List.all_eq_true.2 (Text.isBlank_of_mem_break isBreak)
    have trimEnd_nil : Text.trimEnd [] = [] := rfl
    rw [Token.withoutBreak_of_break shows isBreak, State.trimmed, shows, Text.trimEnd_append blank]
    by_cases empty : Text.trimEnd rest = []
    · simp [empty, apply_ite, State.trimmed]
    · have more : rest ≠ [] := by
        rintro rfl
        exact empty trimEnd_nil
      rw [if_neg empty, if_neg (by simp [empty]), if_neg more, List.flatMap_singleton,
        Token.withoutBreak_of_break String.toList_ofList isBreak, if_neg empty,
        List.flatMap_singleton, State.trimmed, String.toList_ofList, if_neg empty]

/-- Tokens from which blanks were taken back on both sides still differ by line breaks only. -/
theorem exists_trims_stripTokens (trims : Trims dialect tokens kept trimming) (strip : Bool) :
    ∃ trimming, Trims dialect (stripTokens strip tokens) (stripTokens strip kept) trimming := by
  cases strip with
  | false =>
      exact ⟨trimming, by simpa only [stripTokens_false] using trims⟩
  | true =>
      cases trims with
      | nil => exact ⟨_, .nil⟩
      | @cons older left before token trims =>
          by_cases isData : token.kind = .data
          · -- What is left of the last token, after the blanks and the line break are dropped.
            have stripped : stripTokens true (before.keep token ++ left) =
                (State.trimmed token).flatMap before.keep ++ left := by
              by_cases asks : before.asks = true
              · have keep_eq {token : Token} (isData : token.kind = .data) :
                    before.keep token = token.withoutBreak := if_pos ⟨asks, isData⟩
                have sameKept : (State.trimmed token).flatMap before.keep =
                    (State.trimmed token).flatMap Token.withoutBreak := by
                  unfold State.trimmed
                  split
                  · rfl
                  · rw [List.flatMap_singleton, List.flatMap_singleton]
                    exact keep_eq isData
                rw [keep_eq isData, sameKept, flatMap_withoutBreak_trimmed]
                unfold Token.withoutBreak
                dsimp only
                split
                · simp [stripTokens, isData]
                · split
                  · rcases trims.exists_of_asks asks with ⟨last, rest, rfl, notData⟩
                    exact stripTokens_of_ne_data notData true
                  · simp [stripTokens, isData]
              · have keep_eq (token : Token) : before.keep token = [token] :=
                  Trimming.keep_eq_self fun asks' => absurd asks' asks
                have single : before.keep = fun token => [token] := funext keep_eq
                simp [single, stripTokens, isData]
            have stripped' : stripTokens true (token :: older) = State.trimmed token ++ older :=
              if_pos ⟨rfl, isData⟩
            rw [stripped, stripped']
            unfold State.trimmed
            split
            · exact ⟨before, trims⟩
            · rw [List.flatMap_singleton]
              exact ⟨_, trims.cons _⟩
          · rw [Trimming.keep_eq_self fun _ => isData, List.singleton_append,
              stripTokens_of_ne_data isData, stripTokens_of_ne_data isData]
            exact ⟨_, trims.cons_of_ne_data isData⟩

/-! ### Tags that take a line -/

variable [Limits]

/-- A line prefix that fits the text is found if nothing is before it. -/
theorem linePrefix?_ne_none {marker : String} (isMarker : dialect.lineStatement = some marker)
    {text : List Char} (fits : marker.toList <+: text)
    (noIndent : ∀ char ∈ text.head?, Text.isBlank char = false) :
    linePrefix? dialect text ≠ none := by
  have noIndent : text.takeWhile (fun char => char = ' ' ∨ char = '\t') = [] := by
    cases text with
    | nil => rfl
    | cons char text =>
        rw [List.takeWhile_cons_of_neg]
        have notBlank := noIndent char rfl
        rw [decide_eq_true_eq]
        rintro (rfl | rfl) <;> simp [Text.isBlank, Text.isWithin, Text.blankRanges] at notBlank
  have isStatement : dialect.lineStatement.filter
      (fun marker => Text.startsWith marker.toList text) = some marker :=
    Option.filter_eq_some_iff.2 ⟨isMarker, Text.startsWith_iff.2 fits⟩
  simp only [linePrefix?, noIndent, List.length_nil, List.drop_zero, Nat.not_lt_zero, if_false,
    isStatement]
  split
  · split <;> simp
  · simp
  · next none _ => simp at none
  · next none _ => simp at none

omit [Limits] in
theorem Start.head?_delimiter_append (sound : dialect.Sound) (start : Start) (text : List Char) :
    ∀ char ∈ (start.delimiter dialect ++ text).head?, Text.isBlank char = false := by
  rcases List.exists_cons_of_ne_nil (start.delimiter_ne_nil sound) with ⟨first, more, shows⟩
  intro char isFirst
  rw [shows, List.cons_append, List.head?_cons, Option.mem_some_iff] at isFirst
  exact start.isBlank_of_mem sound (shows ▸ isFirst ▸ List.mem_cons_self)

/-- A tag between delimiters does not begin with a line prefix. -/
theorem opensLine_eq_false (sound : dialect.Sound) {length : Nat} {strip : Bool}
    (found : opening? dialect (state.position.column = 1) state.rest =
      some (.block length strip)) (kind : Token.Kind) :
    Token.opensLine dialect
      ⟨kind, String.ofList (state.rest.take length), state.position, sourceName⟩ = false := by
  have notLine : ∀ opening, linePrefix? dialect state.rest = some opening →
      opening ≠ .block length strip := by
    rintro _ foundLine rfl
    rcases linePrefix?_eq_some foundLine with ⟨_, _, _, _, isStatement | isComment⟩
    · rcases isStatement with ⟨_, _, _, _, same⟩
      cases same
    · rcases isComment with ⟨_, _, _, _, _, _, _, same⟩
      cases same
  obtain ⟨start, text, after, shows, sameLength⟩ : ∃ start text after,
      state.rest = (Start.delimiter dialect start ++ text) ++ after ∧
        length = (Start.delimiter dialect start ++ text).length := by
    rcases Option.or_eq_some_iff.1 found with foundLine | ⟨_, foundDelimiter⟩
    · split at foundLine
      · exact absurd rfl (notLine _ foundLine)
      · simp at foundLine
    · rcases delimiter?_eq_some foundDelimiter with ⟨start, strip, after, shows, same⟩ | isRaw
      · refine ⟨start, dash strip, after, by rw [shows, List.append_assoc], ?_⟩
        rcases start with _ | _ | _ <;> cases same
        rfl
      · rcases isRaw with ⟨_, _, same, _⟩
        cases same
  have visible := start.head?_delimiter_append sound text
  apply Bool.eq_false_iff.2
  intro opens
  simp only [Token.opensLine, Bool.and_eq_true, decide_eq_true_eq, Option.any_eq_true, shows,
    sameLength, List.take_left, String.toList_ofList] at opens
  rcases opens with ⟨atStart, marker, isMarker, sameText⟩
  -- The delimiter has no blanks before it, so that it is the prefix.
  have fits : marker.toList <+: state.rest := by
    have noIndent : (Start.delimiter dialect start ++ text).dropWhile
        (fun char => char = ' ' ∨ char = '\t') = Start.delimiter dialect start ++ text := by
      rw [List.dropWhile_eq_self_iff]
      intro nonempty
      have notBlank := visible _ (List.head?_eq_getElem? .. ▸ List.getElem?_eq_getElem nonempty)
      rw [decide_eq_true_eq]
      rintro (same | same) <;> rw [same] at notBlank <;>
        simp [Text.isBlank, Text.isWithin, Text.blankRanges] at notBlank
    rw [sameText, noIndent, shows]
    exact List.prefix_append _ _
  obtain ⟨other, foundLine⟩ : ∃ other, linePrefix? dialect state.rest = some other := by
    apply Option.ne_none_iff_exists'.1
    apply linePrefix?_ne_none isMarker fits
    intro char isFirst
    rw [shows, List.append_assoc] at isFirst
    exact start.head?_delimiter_append sound _ char isFirst
  rw [opening?, if_pos (by simpa using atStart), foundLine, Option.some_or] at found
  exact notLine _ foundLine (Option.some.inj found)

/-- A line statement is the text up to the end of its prefix, which stands after all spaces and
tabs. -/
theorem exists_marker_of_lineStatement {text : List Char} {length : Nat}
    (found : linePrefix? dialect text = some (.lineStatement length)) : ∃ marker after,
      dialect.lineStatement = some marker ∧
      text.dropWhile (fun char => char = ' ' ∨ char = '\t') = marker.toList ++ after ∧
      length = (text.takeWhile (fun char => char = ' ' ∨ char = '\t') ++ marker.toList).length := by
  simp only [linePrefix?, Text.drop_length_takeWhile] at found
  generalize text.takeWhile (fun char => char = ' ' ∨ char = '\t') = indent at found ⊢
  generalize text.dropWhile (fun char => char = ' ' ∨ char = '\t') = rest at found ⊢
  have isStatement {marker : String} (fits : dialect.lineStatement.filter (fun marker =>
      Text.startsWith marker.toList rest) = some marker)
      (same : Opening.lineStatement (indent.length + marker.length) = .lineStatement length) :
      ∃ marker after, dialect.lineStatement = some marker ∧ rest = marker.toList ++ after ∧
        length = (indent ++ marker.toList).length := by
    rcases Option.filter_eq_some_iff.1 fits with ⟨isMarker, starts⟩
    rcases Text.startsWith_iff.1 starts with ⟨after, sameRest⟩
    refine ⟨marker, after, isMarker, sameRest.symm, ?_⟩
    rw [List.length_append, String.length_toList]
    cases same
    rfl
  split at found
  · simp at found
  · split at found
    · next statementFits _ =>
      split at found
      · exact isStatement statementFits (Option.some.inj found)
      · simp at found
    · next statementFits _ => exact isStatement statementFits (Option.some.inj found)
    · simp at found
    · simp at found

/-- The first token of a line statement is its prefix at the start of a line. -/
theorem opensLine_eq_true (sound : dialect.Sound) {length : Nat}
    (found : opening? dialect (state.position.column = 1) state.rest =
      some (.lineStatement length)) (kind : Token.Kind) :
    Token.opensLine dialect
      ⟨kind, String.ofList (state.rest.take length), state.position, sourceName⟩ = true := by
  have notDelimiter : delimiter? dialect state.rest ≠ some (.lineStatement length) := by
    intro foundDelimiter
    rcases delimiter?_eq_some foundDelimiter with ⟨start, _, _, _, same⟩ | ⟨_, _, same, _⟩
    · rcases start with _ | _ | _ <;> cases same
    · cases same
  rcases Option.or_eq_some_iff.1 found with foundLine | ⟨_, foundDelimiter⟩
  · split at foundLine
    · next atStart =>
      rcases exists_marker_of_lineStatement foundLine with ⟨marker, after, isMarker, shows, rfl⟩
      have whole := List.takeWhile_append_dropWhile (l := state.rest)
        (p := fun char => char = ' ' ∨ char = '\t')
      have visible : marker.toList.dropWhile (fun char => char = ' ' ∨ char = '\t') =
          marker.toList := by
        rw [List.dropWhile_eq_self_iff]
        intro nonempty
        have first := List.head?_dropWhile_not (fun char => char = ' ' ∨ char = '\t') state.rest
        rw [shows, List.head?_append_of_ne_nil _ (sound.lineStatement_ne_nil isMarker),
          List.head?_eq_getElem?, List.getElem?_eq_getElem nonempty] at first
        simpa using first
      rw [shows, ← List.append_assoc] at whole
      simp only [Token.opensLine, Bool.and_eq_true, decide_eq_true_eq, Option.any_eq_true,
        String.toList_ofList]
      refine ⟨by simpa using atStart, marker, isMarker, ?_⟩
      rw [← List.prefix_iff_eq_take.1 ⟨after, whole⟩, List.dropWhile_append_of_pos, visible]
      exact fun _ => List.mem_takeWhile_imp
    · simp at foundLine
  · exact absurd foundDelimiter notDelimiter

end Lexer

end Stencil

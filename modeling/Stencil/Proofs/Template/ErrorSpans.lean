import Stencil.Profiles
import Stencil.Proofs.Source.Rendering
import Stencil.Proofs.Template.History
import Stencil.Proofs.Template.Nesting

/-!
# Where errors point

Every error of a parse is about a token of its stream, whichever rule fails and whichever of its
tokens the rule names. The tokens that the lexer cuts a source into stand in it, also those that
lost blanks at their end and the empty one at the end of the source. So the span of an error always
is a stretch of the source, and the error can be shown with the line on which the stretch starts.
-/

namespace Stencil

open Text

namespace Lexer

variable {dialect : Dialect} {sourceName : Option String} {covered source : List Char}
  {token : Token} {tokens : List Token}

/-- Each token stands in the text between what comes before and after it. -/
theorem Tiles.exists_around (tiles : Tiles dialect covered tokens) (within : covered <+: source)
    (member : token ∈ tokens) : ∃ before after,
      source = before ++ (token.text.toList ++ after) ∧
      token.position = Position.start.advanceOver before := by
  induction tiles with
  | nil => simp at member
  | @cons covered gap tokens last _ _ _ placed ih =>
      rcases List.mem_cons.1 member with rfl | isEarlier
      · rcases within with ⟨after, rfl⟩
        exact ⟨covered ++ gap, after, List.append_assoc _ _ _, placed⟩
      · rw [List.append_assoc] at within
        exact ih ((List.prefix_append _ _).trans within) isEarlier

variable [Limits]

theorem exists_around_of_tokenize {source : String} {result : Tokenization}
    (cut : tokenize dialect sourceName source = some result) (member : token ∈ result.tokens) :
    ∃ before after, source.toList = before ++ (token.text.toList ++ after) ∧
      token.position = Position.start.advanceOver before := by
  rcases exists_walks_of_tokenize cut with ⟨last, walks, atEnd, rfl⟩
  rcases exists_tiling_of_walks walks with ⟨_, tiling⟩
  rcases tiling.finish atEnd with ⟨ending, tokens, sameTokens, _, _, tiles⟩
  rw [State.result, sameTokens, List.mem_reverse] at member
  exact tiles.exists_around (List.prefix_refl _) member

end Lexer

/-! ### Spans of tokens -/

/-- A span is the place of a token in a source. Both ends are places between characters, in order
and within the source. They are found again by an index of lines, and what is between them is the
text of the token. A message about the span is shown with the line on which the token starts, and
with carets from the column of the token on; the source is no longer than a text can be. -/
structure Token.Covers (source : String) (token : Token) (span : Span) : Prop where
  span_eq : span = token.span
  inOrder : span.start.offset ≤ span.stop.offset
  inside : span.stop.offset ≤ source.utf8ByteSize
  startBoundary : IsBoundary source.toList span.start.offset
  stopBoundary : IsBoundary source.toList span.stop.offset
  slice : span.slice? source.toList = some token.text.toList
  start_found : ∀ name, (⟨source.toList, name⟩ : LineIndex).positionAt? span.start.offset =
    some span.start
  stop_found : ∀ name, (⟨source.toList, name⟩ : LineIndex).positionAt? span.stop.offset =
    some span.stop
  shown : source.utf8ByteSize ≤ maxSize → ∀ name message,
    let index : LineIndex := ⟨source.toList, name⟩
    ∃ line carets, index.line? span.start.line = some line ∧ 0 < carets ∧
      index.render? span message =
        some (index.heading span message ++ LineIndex.excerpt span.start line carets)

theorem Token.covers_of_around {source : String} {token : Token} {before after : List Char}
    (isSource : source.toList = before ++ (token.text.toList ++ after))
    (placed : token.position = Position.start.advanceOver before) :
    token.Covers source token.span := by
  have size : byteLength source.toList = source.utf8ByteSize := by
    rw [byteLength_eq_utf8ByteSize, String.ofList_toList]
  have startOffset : token.span.start.offset = byteLength before := by
    rw [span, placed, Position.offset_start_advanceOver]
  have stop : token.span.stop = Position.start.advanceOver (before ++ token.text.toList) := by
    rw [span, Token.stop, placed, Position.advanceOver_append]
  have stopOffset : token.span.stop.offset = byteLength (before ++ token.text.toList) := by
    rw [stop, Position.offset_start_advanceOver]
  have isSourceUpTo : source.toList = before ++ token.text.toList ++ after := by
    rw [isSource, List.append_assoc]
  have startBoundary : IsBoundary source.toList token.span.start.offset :=
    ⟨before, _, isSource, startOffset.symm⟩
  have stopBoundary : IsBoundary source.toList token.span.stop.offset :=
    ⟨_, after, isSourceUpTo, stopOffset.symm⟩
  refine ⟨rfl, ?_, size ▸ stopBoundary.le, startBoundary, stopBoundary, ?_, ?_, ?_, ?_⟩
  · rw [startOffset, stopOffset, byteLength_append]
    exact Nat.le_add_right _ _
  · rw [Span.slice?, startOffset, stopOffset, byteLength_append, isSource]
    exact slice?_append _ _ _
  · intro name
    rw [startOffset, span, placed]
    exact LineIndex.positionAt?_eq _ isSource
  · intro name
    rw [stopOffset, stop]
    exact LineIndex.positionAt?_eq _ isSourceUpTo
  · intro fits name message
    have rendered := LineIndex.render?_stretch ⟨source.toList, name⟩ isSource (size ▸ fits) message
    rw [← placed] at rendered
    exact rendered

namespace Template

section

variable [Limits] {stream : TokenStream} {progress next : Progress}

/-! ### Errors of a parse -/

/-- An error is met by a parse, ends it, or is what a strict parse fails with. -/
def Reports (stream : TokenStream) (error : SyntaxError) : Prop :=
  error ∈ (parse {} stream).errors ∨ (parse {} stream).result stream = .error error ∨
    parseStrict stream = .error error

omit [Limits] in
theorem fatal_of_result_eq_error {error : SyntaxError}
    (failed : progress.result stream = .error error) : progress.fatal = some error := by
  unfold Progress.result at failed
  split at failed
  · next isFatal =>
    cases failed
    exact isFatal
  · cases failed

/-- A strict parse fails with what ends the parse, or with an error that is met. -/
theorem fatal_or_mem_errors_of_parseStrict {error : SyntaxError}
    (failed : parseStrict stream = .error error) :
    (parse {} stream).fatal = some error ∨ error ∈ (parse {} stream).errors := by
  cases outcome : (parse {} stream).result stream with
  | error fatal =>
      have sameError : parseStrict stream = .error fatal := by
        simp only [parseStrict, outcome]
        rfl
      rw [sameError] at failed
      cases failed
      exact Or.inl (fatal_of_result_eq_error outcome)
  | ok template =>
      cases oldest : (parse {} stream).recovered.head? with
      | none =>
          have passes : parseStrict stream = .ok template := by
            simp only [parseStrict, outcome, oldest]
            rfl
          rw [passes] at failed
          cases failed
      | some first =>
          have sameError : parseStrict stream = .error first := by
            simp only [parseStrict, outcome, oldest]
            rfl
          rw [sameError] at failed
          cases failed
          exact Or.inr (List.mem_of_mem_drop (List.mem_of_head? oldest))

/-- What a round adds to the errors, and what ends a parse in it, is about a token. -/
theorem Round.exists_token (round : Round stream progress next) {error : SyntaxError}
    (isNew : error ∈ next.errors ∨ next.fatal = some error) :
    error ∈ progress.errors ∨ progress.fatal = some error ∨
      ∃ index, error.span = (stream.get index).span := by
  have blames := Stmt.parse_blames stream progress.place
  cases round with
  | stray =>
      simp only [List.mem_append, List.mem_singleton] at isNew
      rcases isNew with (isOld | rfl) | isFatal
      · exact Or.inl isOld
      · exact Or.inr (Or.inr ⟨_, rfl⟩)
      · exact Or.inr (Or.inl isFatal)
  | statement => exact isNew.imp_right Or.inl
  | recovered _ outcome =>
      rw [outcome] at blames
      rcases blames with ⟨index, -, -, sameSpan⟩
      simp only [List.mem_append, List.mem_singleton] at isNew
      rcases isNew with (isOld | rfl) | isFatal
      · exact Or.inl isOld
      · exact Or.inr (Or.inr ⟨index, sameSpan⟩)
      · exact Or.inr (Or.inl isFatal)
  | aborted _ outcome =>
      rw [outcome] at blames
      rcases blames with ⟨index, -, -, sameSpan⟩
      rcases isNew with isOld | isFatal
      · exact Or.inl isOld
      · cases isFatal
        exact Or.inr (Or.inr ⟨index, sameSpan⟩)

theorem Reached.exists_token (reached : Reached stream progress) {error : SyntaxError}
    (isError : error ∈ progress.errors ∨ progress.fatal = some error) :
    ∃ index, error.span = (stream.get index).span := by
  induction reached with
  | start => simp at isError
  | round _ _ _ round ih =>
      rcases round.exists_token isError with isOld | isOld | isToken
      · exact ih (Or.inl isOld)
      · exact ih (Or.inr isOld)
      · exact isToken

/-- Every error that a parse reports is about a token of the stream. -/
theorem Reports.exists_token (closed : stream.IsClosed) {error : SyntaxError}
    (reports : Reports stream error) : ∃ index, error.span = (stream.get index).span := by
  refine (reached_parse closed).exists_token ?_
  rcases reports with isMet | failed | failed
  · exact Or.inl isMet
  · exact Or.inr (fatal_of_result_eq_error failed)
  · exact (fatal_or_mem_errors_of_parseStrict failed).symm

/-- Every error of a parse points into the source. For every source and every dialect in which it is
cut, what the parse of the tokens reports has the span of one of them, and that span is the place of
the token in the source. -/
theorem errors_point_into_source {dialect : Dialect} {name : Option String} {source : String}
    {result : Tokenization} (cut : tokenize dialect name source = some result)
    {error : SyntaxError} (reports : Reports (.ofTokens result.tokens) error) :
    ∃ token ∈ result.tokens, token.Covers source error.span := by
  rcases reports.exists_token (TokenStream.isClosed_ofTokens _) with ⟨index, sameSpan⟩
  have member := TokenStream.get_mem_of_tokenize cut index
  rcases Lexer.exists_around_of_tokenize cut member with ⟨before, after, isSource, placed⟩
  refine ⟨_, member, ?_⟩
  rw [sameSpan]
  exact Token.covers_of_around isSource placed

end

set_option maxRecDepth 10000 in
/-- A block that nothing closes, on the second line of its source: the error is about the token that
opens the block. -/
theorem errors_point_into_source_unclosed : ∃ result error line carets,
    tokenize {} none "é\n \x7b% if x %\x7dy" = some result ∧
    Reports (.ofTokens result.tokens) error ∧
    (∃ token ∈ result.tokens, token.text = "\x7b%" ∧ token.span = error.span) ∧
    error.span.slice? "é\n \x7b% if x %\x7dy".toList = some ['\x7b', '%'] ∧
    (⟨"é\n \x7b% if x %\x7dy".toList, none⟩ : LineIndex).render? error.span "cut off" =
      some ("error: cut off\n  --> <template>:2:2\n" ++
        LineIndex.excerpt ⟨4, 2, 2⟩ line carets) := by
  have evaluated : (tokenize {} none "é\n \x7b% if x %\x7dy").map (fun result =>
      (parse {} (.ofTokens result.tokens)).errors.map SyntaxError.span) =
        some [⟨⟨4, 2, 2⟩, ⟨6, 2, 4⟩⟩] := by
    cbv
  rcases Option.map_eq_some_iff.1 evaluated with ⟨result, cut, spans⟩
  rcases List.map_eq_singleton_iff.1 spans with ⟨error, isOnly, sameSpan⟩
  have reports : Reports (.ofTokens result.tokens) error :=
    Or.inl (by rw [isOnly]; exact List.mem_singleton_self error)
  rcases errors_point_into_source cut reports with ⟨token, member, covers⟩
  have sliced := covers.slice
  rcases covers.shown (by decide) none "cut off" with ⟨line, carets, -, -, rendered⟩
  have isTwo : error.span.slice? "é\n \x7b% if x %\x7dy".toList = some ['\x7b', '%'] := by
    rw [sameSpan]
    decide
  have sameText : token.text = "\x7b%" := by
    rw [isTwo] at sliced
    exact String.toList_injective (Option.some.inj sliced).symm
  rw [sameSpan] at rendered
  refine ⟨result, error, line, carets, cut, reports, ⟨token, member, sameText, covers.span_eq.symm⟩,
    isTwo, ?_⟩
  rw [sameSpan, rendered]
  rfl

end Template

end Stencil

import Stencil.Proofs.Lexer.Walks
import Stencil.Proofs.Parse.Accounting

/-!
# Where tokens come from

Each token has the name of the template that was cut. Its line is told by the line breaks before
it, so that all tokens of a text without a line break are on the first line.
-/

namespace Stencil

open Lexer

/-- Each line break of a text starts a line. -/
theorem Position.line_advanceOver (position : Position) (text : List Char) :
    (position.advanceOver text).line = position.line + text.count '\n' := by
  induction text generalizing position with
  | nil => rfl
  | cons char text ih =>
      rw [advanceOver, List.foldl_cons, ← advanceOver, ih, advance]
      by_cases isBreak : char = '\n'
      · simp [isBreak, Nat.add_comm, Nat.add_left_comm]
      · simp [isBreak]

namespace Lexer

variable {dialect : Dialect} {sourceName : Option String} {state next last : State}
  {token : Token} {tokens : List Token} {source covered : List Char}

/-! ### Names -/

/-- All tokens so far have the name of the template. -/
def State.Named (sourceName : Option String) (state : State) : Prop :=
  ∀ token ∈ state.tokens, token.sourceName = sourceName

namespace State.Named

theorem emit (named : state.Named sourceName) (kind : Token.Kind) (count : Nat) :
    (state.emit sourceName kind count).Named sourceName :=
  List.forall_mem_cons.2 ⟨rfl, named⟩

theorem stripLast (named : state.Named sourceName) (strip : Bool) :
    (state.stripLast strip).Named sourceName := by
  rw [stripLast_eq]
  intro token member
  change token ∈ stripTokens strip state.tokens at member
  unfold stripTokens at member
  split at member
  · next last tokens sameTokens =>
    rw [Named, sameTokens] at named
    split at member
    · rcases List.mem_append.1 member with stripped | isEarlier
      · unfold State.trimmed at stripped
        split at stripped
        · simp at stripped
        · rw [List.mem_singleton.1 stripped]
          exact named last List.mem_cons_self
      · exact named token (List.mem_cons_of_mem _ isEarlier)
    · exact named token member
  · simp at member

end State.Named

variable [Limits]

theorem Move.named (move : Move dialect sourceName state next) (named : state.Named sourceName) :
    next.Named sourceName := by
  cases move with
  | dropNewline =>
      rw [skipNewline_eq]
      exact named
  | dropBlanks | dropRawBlanks => exact named
  | openTag | openRaw | closeEmptyRaw => exact (named.stripLast _).emit _ _
  | closeRaw => exact ((named.emit _ _).stripLast _).emit _ _
  | closeComment => exact (named.emit _ _).emit _ _
  | _ => exact named.emit _ _

omit [Limits] in
theorem State.Named.finish (named : state.Named sourceName) :
    (finish sourceName state).Named sourceName := by
  rcases state with ⟨_ | ⟨_ | _ | _, _⟩ | _ | _, position, rest, tokens, diagnostics⟩
  · exact named.emit _ _
  · exact named.emit _ _
  · exact (named.emit _ _).emit _ _
  · exact named.emit _ _
  · exact (named.emit _ _).emit _ _
  · exact named.emit _ _

theorem sourceName_of_tokenize {source : String} {result : Tokenization}
    (cut : tokenize dialect sourceName source = some result) (member : token ∈ result.tokens) :
    token.sourceName = sourceName := by
  rcases exists_walks_of_tokenize cut with ⟨last, walks, _, rfl⟩
  have named : last.Named sourceName := by
    refine walks_keep (State.Named sourceName) (fun named nonempty => ?_) walks
      (by simp [State.Named, State.ofSource])
    have move : Move dialect sourceName _ (step dialect sourceName _) := step_move nonempty
    exact move.named named
  exact named.finish token (List.mem_reverse.1 member)

/-! ### Lines -/

omit [Limits] in
/-- Each token stands after some beginning of the text. -/
theorem Tiles.exists_before (tiles : Tiles dialect covered tokens) (within : covered <+: source)
    (member : token ∈ tokens) :
    ∃ before, before <+: source ∧ token.position = Position.start.advanceOver before := by
  induction tiles with
  | nil => simp at member
  | @cons covered gap tokens last _ _ _ placed ih =>
      rw [List.append_assoc] at within
      rcases List.mem_cons.1 member with rfl | earlier
      · rw [← List.append_assoc] at within
        exact ⟨covered ++ gap, (List.prefix_append _ _).trans within, placed⟩
      · exact ih ((List.prefix_append _ _).trans within) earlier

theorem exists_before_of_tokenize {source : String} {result : Tokenization}
    (cut : tokenize dialect sourceName source = some result) (member : token ∈ result.tokens) :
    ∃ before, before <+: source.toList ∧
      token.position = Position.start.advanceOver before := by
  rcases exists_walks_of_tokenize cut with ⟨last, walks, atEnd, rfl⟩
  rcases exists_tiling_of_walks walks with ⟨_, tiling⟩
  rcases tiling.finish atEnd with ⟨ending, tokens, sameTokens, _, _, tiles⟩
  rw [State.result, sameTokens, List.mem_reverse] at member
  exact tiles.exists_before (List.prefix_refl _) member

/-- The tokens of a text without a line break are on the first line. -/
theorem line_of_tokenize {source : String} {result : Tokenization}
    (cut : tokenize dialect sourceName source = some result) (noBreak : '\n' ∉ source.toList)
    (member : token ∈ result.tokens) : token.line = 1 := by
  rcases exists_before_of_tokenize cut member with ⟨before, isPrefix, placed⟩
  have noBreakBefore : before.count '\n' = 0 :=
    List.count_eq_zero.2 fun isBreak => noBreak (isPrefix.subset isBreak)
  rw [Token.line, placed, Position.line_advanceOver, noBreakBefore]
  rfl

/-! ### Order -/

omit [Limits] in
theorem Tiles.stop_le (tiles : Tiles dialect covered tokens) (member : token ∈ tokens) :
    token.stop.offset ≤ Text.byteLength covered := by
  induction tiles with
  | nil => simp at member
  | @cons covered gap tokens last _ _ _ placed ih =>
      rcases List.mem_cons.1 member with rfl | isEarlier
      · rw [Token.stop, placed, ← Position.advanceOver_append, Position.offset_start_advanceOver]
      · have := ih isEarlier
        simp only [Text.byteLength_append]
        omega

omit [Limits] in
theorem Tiles.pairwise (tiles : Tiles dialect covered tokens) :
    tokens.Pairwise fun later earlier => earlier.stop.offset ≤ later.position.offset := by
  induction tiles with
  | nil => exact .nil
  | @cons covered gap tokens last tiles _ _ placed ih =>
      refine .cons (fun earlier isEarlier => ?_) ih
      have := tiles.stop_le isEarlier
      rw [placed, Position.offset_start_advanceOver, Text.byteLength_append]
      omega

/-- The tokens of a text do not overlap. -/
theorem pairwise_of_tokenize {source : String} {result : Tokenization}
    (cut : tokenize dialect sourceName source = some result) :
    result.tokens.Pairwise fun earlier later => earlier.stop.offset ≤ later.position.offset := by
  rcases exists_walks_of_tokenize cut with ⟨last, walks, atEnd, rfl⟩
  rcases exists_tiling_of_walks walks with ⟨_, tiling⟩
  rcases tiling.finish atEnd with ⟨ending, tokens, sameTokens, _, _, tiles⟩
  rw [State.result, sameTokens, List.pairwise_reverse]
  exact tiles.pairwise

end Lexer

/-! ### Streams -/

variable [Limits]

namespace TokenStream

variable {dialect : Dialect} {name : Option String} {source : String} {result : Tokenization}

theorem get_mem_of_tokenize (cut : tokenize dialect name source = some result) (index : Nat) :
    (ofTokens result.tokens).get index ∈ result.tokens := by
  have isClosed : Token.closed result.tokens = result.tokens := by
    rcases exists_walks_of_tokenize cut with ⟨last, walks, atEnd, rfl⟩
    rcases exists_tiling_of_walks walks with ⟨_, tiling⟩
    rcases tiling.finish atEnd with ⟨ending, tokens, sameTokens, isEnd, _, _⟩
    have sameReverse : (last.result name).tokens = (ending :: tokens).reverse := by
      rw [State.result, sameTokens]
    rw [sameReverse]
    simp [Token.closed, isEnd]
  have sameSignificant : (ofTokens result.tokens).significant.toList =
      (Token.closed result.tokens).filter (·.kind.isSignificant) := rfl
  have member := (ofTokens result.tokens).get_mem index
  rw [sameSignificant, isClosed, List.mem_filter] at member
  exact member.1

theorem sourceName_of_tokenize (cut : tokenize dialect name source = some result) :
    (ofTokens result.tokens).sourceName = name :=
  Lexer.sourceName_of_tokenize cut (get_mem_of_tokenize cut 0)

theorem line_of_tokenize (cut : tokenize dialect name source = some result)
    (noBreak : '\n' ∉ source.toList) (index : Nat) :
    ((ofTokens result.tokens).get index).line = 1 :=
  Lexer.line_of_tokenize cut noBreak (get_mem_of_tokenize cut index)

end TokenStream

end Stencil

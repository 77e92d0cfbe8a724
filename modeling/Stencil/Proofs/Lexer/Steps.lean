import Stencil.Proofs.Lexer.Moves
import Stencil.Proofs.Token.Breaks

/-!
# What a step reads

One step by the mode of the lexer, with what is dropped and what is taken back put as functions of
the text and of the tokens. What a step takes does not depend on the tokens before it, except for
the blanks that are taken back from the last one.
-/

namespace Stencil.Lexer

variable {dialect : Dialect} {sourceName : Option String} {state : State} {token : Token}

/-! ### Steps by mode -/

section

variable [Limits]

theorem step_of_text {trim strip : Bool} (inText : state.mode = .text trim strip) :
    step dialect sourceName state = stepText dialect sourceName trim strip state := by
  rw [step, inText]

theorem step_of_tag {kind : TagKind} {brackets : Nat} (inTag : state.mode = .tag kind brackets) :
    step dialect sourceName state = stepTag dialect sourceName kind brackets state := by
  rw [step, inTag]

theorem step_of_comment {opened : Position} (inComment : state.mode = .comment opened) :
    step dialect sourceName state = stepComment dialect sourceName opened state := by
  rw [step, inComment]

theorem step_of_raw {opened : Position} {strip : Bool} (inRaw : state.mode = .raw opened strip) :
    step dialect sourceName state = stepRaw dialect sourceName opened strip state := by
  rw [step, inRaw]

end

/-! ### What is passed over or taken back -/

theorem skipNewline_eq (state : State) :
    state.skipNewline = state.skip (Text.breakLength state.rest) := by
  unfold State.skipNewline
  split
  · next shows =>
    rw [shows]
    rfl
  · next shows =>
    rw [shows]
    rfl
  · next notReturn notBreak =>
    have noBreak : Text.breakLength state.rest = 0 := by
      unfold Text.breakLength
      split
      · next shows => exact absurd shows (notReturn _)
      · next shows => exact absurd shows (notBreak _)
      · rfl
    rw [noBreak]
    rfl

theorem skip_skip {front after : List Char} (shows : state.rest = front ++ after) (count : Nat) :
    (state.skip front.length).skip count = state.skip (front.length + count) := by
  simp [State.skip, shows, List.take_append, List.take_of_length_le]

/-- The tokens so far, last one first, without the blanks at the end of the last one if it is plain
text. -/
def stripTokens (strip : Bool) : List Token → List Token
  | last :: tokens =>
    if strip = true ∧ last.kind = .data then State.trimmed last ++ tokens else last :: tokens
  | [] => []

theorem stripLast_eq (state : State) (strip : Bool) :
    state.stripLast strip = { state with tokens := stripTokens strip state.tokens } := by
  rcases state with ⟨mode, position, rest, tokens, diagnostics⟩
  cases strip with
  | false => cases tokens <;> simp [stripTokens]
  | true =>
      cases tokens with
      | nil => rfl
      | cons last tokens =>
          simp only [State.stripLast, stripTokens, State.trimmed, true_and]
          split
          · split
            · next empty => rw [if_pos empty]; rfl
            · next nonempty => rw [if_neg nonempty]; rfl
          · rfl

@[simp]
theorem stripTokens_false (tokens : List Token) : stripTokens false tokens = tokens := by
  cases tokens <;> simp [stripTokens]

theorem stripTokens_of_ne_data (notData : token.kind ≠ .data) (strip : Bool) :
    stripTokens strip (token :: tokens) = token :: tokens :=
  if_neg fun ⟨_, isData⟩ => notData isData

theorem mem_of_mem_stripTokens {tokens : List Token} {strip : Bool}
    (member : token ∈ stripTokens strip tokens) (notData : token.kind ≠ .data) :
    token ∈ tokens := by
  cases tokens with
  | nil => exact member
  | cons last tokens =>
      rw [stripTokens] at member
      split at member
      · next isData =>
        rcases List.mem_append.1 member with stripped | earlier
        · have sameKind : token.kind = last.kind := by
            unfold State.trimmed at stripped
            split at stripped
            · simp at stripped
            · rw [List.mem_singleton] at stripped
              rw [stripped]
          exact absurd (sameKind.trans isData.2) notData
        · exact List.mem_cons_of_mem _ earlier
      · exact member

/-! ### Tags -/

theorem stepTag_of_cons {kind : TagKind} {brackets : Nat} {char : Char} {text : List Char}
    (shows : state.rest = char :: text) :
    stepTag dialect sourceName kind brackets state =
      if kind = .line ∧ brackets = 0 ∧ char = '\n' then
        (state.emit sourceName .blockEnd 1).enter (.text false false)
      else if (char = '-' ∧ Text.startsWith (closer dialect kind).1 text = true) ∨
          Text.startsWith (closer dialect kind).1 (char :: text) = true then
        (state.emit sourceName (closer dialect kind).2 ((closer dialect kind).1.length +
          (decide (char = '-' ∧ Text.startsWith (closer dialect kind).1 text = true)).toNat)).enter
          (.text (kind = .block ∧ dialect.trimBlocks)
            (char = '-' ∧ Text.startsWith (closer dialect kind).1 text = true))
      else takeLexeme sourceName kind brackets char state := by
  unfold stepTag
  rw [shows]

/-- A token inside of a tag is found whatever the tokens before it are. -/
theorem exists_takeLexeme_eq {kind : TagKind} {brackets : Nat} {char : Char} {text : List Char}
    (inTag : state.mode = .tag kind brackets) (shows : state.rest = char :: text) :
    ∃ token bracketsAfter, (token.kind.isInner = true ∨ token.kind = .data) ∧
      (token.kind = .string → char = '\'' ∨ char = '"') ∧
      (takeLexeme sourceName kind brackets char state).mode = .tag kind bracketsAfter ∧
      (takeLexeme sourceName kind brackets char state).tokens = token :: state.tokens ∧
      ∀ kept, takeLexeme sourceName kind brackets char { state with tokens := kept } =
        { takeLexeme sourceName kind brackets char state with tokens := token :: kept } := by
  unfold takeLexeme
  split
  · exact ⟨_, brackets, Or.inl rfl, by simp, inTag, rfl, fun _ => rfl⟩
  · split
    · next isQuote =>
      unfold takeString
      dsimp only
      split
      · exact ⟨_, brackets, Or.inl rfl, fun _ => isQuote, inTag, rfl, fun _ => rfl⟩
      · exact ⟨_, brackets, Or.inl rfl, fun _ => isQuote, inTag, rfl, fun _ => rfl⟩
    · split
      · exact ⟨_, brackets, Or.inl (isInner_number _),
          fun isString => absurd isString (number_ne_string _), inTag, rfl, fun _ => rfl⟩
      · split
        · exact ⟨_, brackets, Or.inl (isInner_wordKind _),
            fun isString => absurd isString (wordKind_ne_string _), inTag, rfl, fun _ => rfl⟩
        · dsimp only
          cases found : symbol? state.rest with
          | none => exact ⟨_, brackets, Or.inr rfl, by simp, inTag, rfl, fun _ => rfl⟩
          | some symbol =>
              rcases (symbol?_eq_some (shows ▸ found)).1 with ⟨inner, notString⟩
              exact ⟨_, bracketsAfter symbol.1 brackets, Or.inl inner,
                fun isString => absurd isString notString, rfl, rfl, fun _ => rfl⟩

/-! ### Tokens and diagnostics -/

/-- Nothing that was noted is forgotten. -/
theorem Move.diagnostics_suffix [Limits] {next : State}
    (move : Move dialect sourceName state next) : state.diagnostics <:+ next.diagnostics := by
  have stripped (state : State) (strip : Bool) :
      (state.stripLast strip).diagnostics = state.diagnostics := by
    rw [stripLast_eq]
  cases move with
  | dropNewline =>
      rcases state.exists_skipNewline with ⟨_, _, _, skipped, _⟩
      rw [skipped]
      exact List.suffix_refl _
  | openTag | openRaw | closeEmptyRaw | closeRaw =>
      exact (stripped _ _).symm ▸ List.suffix_refl _
  | unclosedString | strayChar | unclosedComment | unclosedRaw => exact List.suffix_cons _ _
  | _ => exact List.suffix_refl _

/-- A token that stands inside of tags is no other token that was just taken. -/
theorem mem_of_mem_cons {tokens : List Token} {other : Token}
    (isInner : token.kind.isInner = true) (notInner : other.kind.isInner = false)
    (member : token ∈ other :: tokens) : token ∈ tokens := by
  rcases List.mem_cons.1 member with rfl | earlier
  · rw [notInner] at isInner
    cases isInner
  · exact earlier

/-- Tokens that stand inside of tags are found there only. -/
theorem Move.mem_of_isInner [Limits] {next : State} (move : Move dialect sourceName state next)
    (notTag : ∀ kind brackets, state.mode ≠ .tag kind brackets) (member : token ∈ next.tokens)
    (isInner : token.kind.isInner = true) : token ∈ state.tokens := by
  have notData : token.kind ≠ .data := by
    intro isData
    rw [isData] at isInner
    cases isInner
  have earlier {tokens : List Token} {other : Token} (notInner : other.kind.isInner = false) :
      token ∈ other :: tokens → token ∈ tokens := mem_of_mem_cons isInner notInner
  have unstripped {state : State} {strip : Bool} (member : token ∈ (state.stripLast strip).tokens) :
      token ∈ state.tokens := by
    rw [stripLast_eq] at member
    exact mem_of_mem_stripTokens member notData
  cases move with
  | dropNewline =>
      rcases state.exists_skipNewline with ⟨_, _, _, skipped, _⟩
      rw [skipped] at member
      exact member
  | dropBlanks | dropRawBlanks => exact member
  | openTag start =>
      have notInner : start.kind.isInner = false := by cases start <;> rfl
      exact unstripped (earlier notInner member)
  | openRaw | closeEmptyRaw => exact unstripped (earlier rfl member)
  | closeRaw => exact earlier rfl (unstripped (earlier rfl member))
  | openLine | lineComment | plain | unclosedComment | unclosedRaw => exact earlier rfl member
  | closeComment => exact earlier rfl (earlier rfl member)
  | endLine inTag | closeTag _ inTag | lexeme inTag | unclosedString inTag | strayChar inTag =>
      exact absurd inTag (notTag _ _)

/-- At the end of the text only what closes a comment or a line statement, and the token for the
end, join the tokens. -/
theorem exists_finish_tokens (sourceName : Option String) (state : State) : ∃ closing,
    (finish sourceName state).tokens = closing ++ state.tokens ∧
      ∀ token ∈ closing, token.kind ∈ [.comment, .blockEnd, .eof] := by
  rcases state with ⟨_ | ⟨_ | _ | _, _⟩ | _ | _, position, rest, tokens, diagnostics⟩
  · exact ⟨[_], rfl, by simp⟩
  · exact ⟨[_], rfl, by simp⟩
  · exact ⟨[_, _], rfl, by simp⟩
  · exact ⟨[_], rfl, by simp⟩
  · exact ⟨[_, _], rfl, by simp⟩
  · exact ⟨[_], rfl, by simp⟩

theorem finish_diagnostics_suffix (sourceName : Option String) (state : State) :
    state.diagnostics <:+ (finish sourceName state).diagnostics := by
  rcases state with ⟨_ | ⟨_ | _ | _, _⟩ | _ | _, position, rest, tokens, diagnostics⟩
  · exact List.suffix_refl _
  · exact List.suffix_refl _
  · exact List.suffix_refl _
  · exact List.suffix_refl _
  · exact List.suffix_cons _ _
  · exact List.suffix_cons _ _

end Stencil.Lexer

import Stencil.Proofs.Lexer.Moves

/-!
# The items of a text

The tokens that the lexer cuts a text into are of the kinds that their regions allow. The mode of
the lexer is the region that the tokens so far lead to. Only after a run of plain text there is
more to say: the run ends where the text ends or where something opens, so that no second run of
plain text can follow it.
-/

namespace Stencil

namespace Position

theorem column_advance_pos (position : Position) (char : Char) :
    0 < (position.advance char).column := by
  unfold advance
  split <;> simp

theorem column_advanceOver_pos {position : Position} (isColumn : 0 < position.column)
    (text : List Char) : 0 < (position.advanceOver text).column := by
  induction text generalizing position with
  | nil => exact isColumn
  | cons char text ih => exact ih (column_advance_pos position char)

/-- A line starts after a text exactly if the text ends with a line break. -/
theorem column_advanceOver_eq_one {position : Position} (isColumn : 0 < position.column)
    {text : List Char} (nonempty : text ≠ []) :
    (position.advanceOver text).column = 1 ↔ text.getLast? = some '\n' := by
  obtain ⟨front, last, rfl⟩ : ∃ front last, text = front ++ [last] :=
    ⟨_, _, (List.dropLast_concat_getLast nonempty).symm⟩
  have := column_advanceOver_pos isColumn front
  have moved : ((position.advanceOver front).advanceOver [last]).column =
      ((position.advanceOver front).advance last).column := rfl
  rw [advanceOver_append, moved, List.getLast?_append, List.getLast?_singleton, advance]
  split
  · next isBreak => simp [isBreak]
  · next notBreak =>
    simp only [Option.some_or, Option.some.injEq, notBreak, iff_false]
    omega

end Position

namespace Lexer

variable {dialect : Dialect} {sourceName : Option String} {state next : State}
  {region : Region} {text after : List Char} {kind : Token.Kind}

/-- A move leaves the lexer in a column. -/
theorem Move.column_pos [Limits] (move : Move dialect sourceName state next)
    (isColumn : 0 < state.position.column) : 0 < next.position.column := by
  have stripped (state : State) (isColumn : 0 < state.position.column) (strip : Bool) :
      0 < (state.stripLast strip).position.column := by
    rwa [State.stripLast_position]
  cases move with
  | dropNewline =>
      rcases state.exists_skipNewline with ⟨text, _, _, skipped, _⟩
      rw [skipped]
      exact Position.column_advanceOver_pos isColumn _
  | openTag | openRaw | closeEmptyRaw =>
      exact Position.column_advanceOver_pos (stripped _ isColumn _) _
  | closeComment =>
      exact Position.column_advanceOver_pos (Position.column_advanceOver_pos isColumn _) _
  | closeRaw =>
      exact Position.column_advanceOver_pos
        (stripped _ (Position.column_advanceOver_pos isColumn _) _) _
  | _ => exact Position.column_advanceOver_pos isColumn _

/-- Tokens, last one first, have a shape and lead to a region. -/
structure LeadsTo (tokens : List Token) (region : Region) : Prop where
  shapes : Region.text.Shapes tokens.reverse
  afterAll : Region.text.afterAll tokens.reverse = region

namespace LeadsTo

variable {tokens : List Token} {token : Token}

theorem cons (leads : LeadsTo tokens region) (allowed : region.allows token.kind = true) :
    LeadsTo (token :: tokens) (region.after token.kind) := by
  rcases leads with ⟨shapes, rfl⟩
  refine ⟨?_, ?_⟩
  · rw [List.reverse_cons, Region.shapes_append]
    exact ⟨shapes, allowed, trivial⟩
  · simp [Region.afterAll]

theorem exists_of_cons (leads : LeadsTo (token :: tokens) region) : ∃ before,
    LeadsTo tokens before ∧ before.allows token.kind = true ∧
      region = before.after token.kind := by
  rcases leads with ⟨shapes, rfl⟩
  rw [List.reverse_cons, Region.shapes_append] at shapes
  refine ⟨_, ⟨shapes.1, rfl⟩, shapes.2.1, ?_⟩
  simp [Region.afterAll]

theorem emit (leads : LeadsTo state.tokens region) (allowed : region.allows kind = true)
    (count : Nat) :
    LeadsTo (state.emit sourceName kind count).tokens (region.after kind) :=
  leads.cons allowed

/-- Without the last run of plain text, or without the blanks at its end, the region is the one
before or after the run. -/
theorem stripLast (leads : LeadsTo state.tokens region) (strip : Bool) : ∃ before,
    LeadsTo (state.stripLast strip).tokens before ∧
      (before = region ∨ before.after .data = region) := by
  rcases state.stripLast_cases strip with same | ⟨last, tokens, sameTokens, isData, stripped⟩
  · exact ⟨region, same.symm ▸ leads, Or.inl rfl⟩
  · rw [sameTokens] at leads
    rcases leads.exists_of_cons with ⟨before, leadsBefore, allowed, rfl⟩
    rw [isData] at allowed
    rw [stripped, State.trimmed]
    split
    · exact ⟨before, leadsBefore, Or.inr (by rw [isData])⟩
    · refine ⟨_, leadsBefore.cons ?_, Or.inl rfl⟩
      simpa [isData] using allowed

end LeadsTo

variable [Limits]

/-- The region that a mode stands for. Where no text is left, it may be the region of an item that
was cut short. -/
def State.Matches (dialect : Dialect) (state : State) (region : Region) : Prop :=
  match state.mode with
  | .text trim strip => region = .text ∨
      (region = .plain ∧ trim = false ∧ strip = false ∧
        (opening? dialect (state.position.column = 1) state.rest).isSome = true) ∨
      (state.rest = [] ∧ region.allows .eof = true)
  | .tag .variable _ => region = .variable
  | .tag _ _ => region = .block
  | .comment _ => region = .comment
  | .raw _ _ => region = .raw

/-- The tokens of a state lead to the region that its mode stands for. -/
structure InRegion (dialect : Dialect) (state : State) (region : Region) : Prop where
  leads : LeadsTo state.tokens region
  isMatch : state.Matches dialect region
  isColumn : 0 < state.position.column

namespace InRegion

/-- Between items, where text is left and nothing is to be dropped. -/
theorem between (inRegion : InRegion dialect state region)
    (inText : state.mode = .text false false) (nonempty : state.rest ≠ []) :
    region = .text ∨ region = .plain ∧
      (opening? dialect (state.position.column = 1) state.rest).isSome = true := by
  have isMatch := inRegion.isMatch
  simp only [State.Matches, inText, nonempty, false_and, or_false, true_and] at isMatch
  exact isMatch

theorem eq_text (inRegion : InRegion dialect state region) {trim strip : Bool}
    (inText : state.mode = .text trim strip) (nonempty : state.rest ≠ [])
    (requested : trim = true ∨ strip = true) : region = .text := by
  have isMatch := inRegion.isMatch
  simp only [State.Matches, inText, nonempty, false_and, or_false] at isMatch
  rcases isMatch with isText | ⟨_, rfl, rfl, _⟩
  · exact isText
  · simp at requested

/-- A token that opens an item may take back blanks from plain text before it. -/
theorem open_ (inRegion : InRegion dialect state region)
    (inText : state.mode = .text false false) (nonempty : state.rest ≠ []) (strip : Bool)
    (isOpener : kind ∈ [.blockBegin, .variableBegin, .commentBegin, .rawBegin]) (count : Nat) :
    LeadsTo ((state.stripLast strip).emit sourceName kind count).tokens
      (Region.text.after kind) := by
  rcases inRegion.leads.stripLast strip with ⟨before, leads, sameRegion⟩
  have isBetween : before = .text ∨ before = .plain := by
    rcases inRegion.between inText nonempty with rfl | ⟨rfl, _⟩
    · cases before <;> simp [Region.after] at sameRegion ⊢
    · cases before <;> simp [Region.after] at sameRegion ⊢
  simp only [List.mem_cons, List.not_mem_nil, or_false] at isOpener
  rcases isBetween with rfl | rfl <;> rcases isOpener with rfl | rfl | rfl | rfl <;>
    exact leads.emit rfl count

omit [Limits] in
/-- The tag that closes a raw block, after its text if there is any. -/
theorem closeRaw (leads : LeadsTo state.tokens region) (isRaw : region = .raw ∨ region = .rawPlain)
    (strip : Bool) (count : Nat) :
    LeadsTo ((state.stripLast strip).emit sourceName .rawEnd count).tokens .text := by
  rcases leads.stripLast strip with ⟨before, leads, sameRegion⟩
  have isBefore : before = .raw ∨ before = .rawPlain := by
    rcases isRaw with rfl | rfl <;> cases before <;> simp [Region.after] at sameRegion ⊢
  rcases isBefore with rfl | rfl <;> exact leads.emit rfl count

end InRegion

/-- A move keeps the agreement of mode and region. -/
theorem Move.inRegion (move : Move dialect sourceName state next) (nonempty : state.rest ≠ [])
    (inRegion : InRegion dialect state region) : ∃ region, InRegion dialect next region := by
  have isColumn := move.column_pos inRegion.isColumn
  have leads := inRegion.leads
  have isMatch := inRegion.isMatch
  cases move with
  | dropNewline inText =>
      rcases inRegion.eq_text inText nonempty (Or.inl rfl) with rfl
      rcases state.exists_skipNewline with ⟨text, _, _, skipped, _⟩
      exact ⟨.text, by rw [skipped]; exact leads, Or.inl rfl, isColumn⟩
  | dropBlanks inText =>
      rcases inRegion.eq_text inText nonempty (Or.inr rfl) with rfl
      exact ⟨.text, leads, Or.inl rfl, isColumn⟩
  | dropRawBlanks inRaw =>
      rw [State.Matches, inRaw] at isMatch
      exact ⟨region, leads, isMatch, isColumn⟩
  | openTag start strip inText =>
      rcases start with _ | _ | _
      · exact ⟨_, inRegion.open_ inText nonempty strip (by decide) _, rfl, isColumn⟩
      · exact ⟨_, inRegion.open_ inText nonempty strip (by decide) _, rfl, isColumn⟩
      · exact ⟨_, inRegion.open_ inText nonempty strip (by decide) _, rfl, isColumn⟩
  | openRaw inText =>
      exact ⟨_, inRegion.open_ inText nonempty _ (by decide) _, rfl, isColumn⟩
  | openLine inText =>
      exact ⟨_, inRegion.open_ inText nonempty false (by decide) _, rfl, isColumn⟩
  | lineComment inText =>
      refine ⟨.text, ?_, ?_, isColumn⟩
      · rcases inRegion.between inText nonempty with rfl | ⟨rfl, _⟩ <;> exact leads.emit rfl _
      · rw [State.Matches, State.emit_mode, inText]
        exact Or.inl rfl
  | plain inText shows hasText notOpening ends =>
      -- After another run of plain text something would open here.
      obtain rfl : region = .text := by
        rcases inRegion.between inText nonempty with isText | ⟨_, opens⟩
        · exact isText
        · simp [notOpening] at opens
      refine ⟨.plain, leads.emit rfl _, ?_, isColumn⟩
      rw [State.Matches, State.emit_mode, inText]
      rw [State.emit_eq_of_rest shows]
      rcases ends with empty | opens
      · exact Or.inr (Or.inr ⟨empty, rfl⟩)
      · refine Or.inr (Or.inl ⟨rfl, rfl, rfl, ?_⟩)
        simpa [Position.column_advanceOver_eq_one inRegion.isColumn hasText] using opens
  | endLine inTag =>
      rw [State.Matches, inTag] at isMatch
      subst isMatch
      exact ⟨_, leads.emit rfl _, Or.inl rfl, isColumn⟩
  | @closeTag tag _ strip _ inTag =>
      rw [State.Matches, inTag] at isMatch
      rcases tag with _ | _ | _
      all_goals
        subst isMatch
        exact ⟨_, leads.emit rfl _, Or.inl rfl, isColumn⟩
  | @lexeme tag _ _ _ _ kind inTag _ _ inner =>
      rw [State.Matches, inTag] at isMatch
      rcases tag with _ | _ | _
      all_goals
        subst isMatch
        refine ⟨_, leads.emit (by simp [Region.allows, inner]) _, ?_, isColumn⟩
        exact Region.after_of_isInner inner
  | @unclosedString tag _ inTag | @strayChar tag _ _ _ inTag =>
      rw [State.Matches, inTag] at isMatch
      rcases tag with _ | _ | _
      all_goals
        subst isMatch
        exact ⟨_, leads.emit rfl _, rfl, isColumn⟩
  | @closeComment _ strip comment _ inComment =>
      rw [State.Matches, inComment] at isMatch
      subst isMatch
      have body : LeadsTo (state.emit sourceName .comment comment.length).tokens _ :=
        leads.emit rfl _
      exact ⟨_, body.emit rfl _, Or.inl rfl, isColumn⟩
  | unclosedComment inComment =>
      rw [State.Matches, inComment] at isMatch
      subst isMatch
      exact ⟨_, leads.emit rfl _, Or.inr (Or.inr ⟨by simp [State.emit, State.skip], rfl⟩), isColumn⟩
  | closeEmptyRaw inRaw =>
      rw [State.Matches, inRaw] at isMatch
      exact ⟨_, InRegion.closeRaw leads (Or.inl isMatch) _ _, Or.inl rfl, isColumn⟩
  | @closeRaw _ _ content _ _ inRaw =>
      rw [State.Matches, inRaw] at isMatch
      subst isMatch
      have body : LeadsTo (state.emit sourceName .data content.length).tokens _ :=
        leads.emit rfl _
      exact ⟨_, InRegion.closeRaw body (Or.inr rfl) _ _, Or.inl rfl, isColumn⟩
  | unclosedRaw inRaw =>
      rw [State.Matches, inRaw] at isMatch
      subst isMatch
      exact ⟨_, leads.emit rfl _, Or.inr (Or.inr ⟨by simp [State.emit, State.skip], rfl⟩), isColumn⟩

/-- At the end of the walk the token for the end may follow, after what closes a comment or a line
statement. -/
theorem InRegion.finish (inRegion : InRegion dialect state region) :
    LeadsTo (finish sourceName state).tokens .ended := by
  have leads := inRegion.leads
  have isMatch := inRegion.isMatch
  unfold Lexer.finish
  split
  · next inComment =>
    rw [State.Matches, inComment] at isMatch
    subst isMatch
    have body : LeadsTo (state.emit sourceName .comment 0).tokens _ := leads.emit rfl _
    exact body.emit rfl 0
  · next inRaw =>
    rw [State.Matches, inRaw] at isMatch
    subst isMatch
    exact leads.emit rfl 0
  · next inTag =>
    rw [State.Matches, inTag] at isMatch
    subst isMatch
    have body : LeadsTo (state.emit sourceName .blockEnd 0).tokens _ := leads.emit rfl _
    exact body.emit rfl 0
  · next notComment notRaw notLine =>
    have allowed : region.allows .eof = true := by
      unfold State.Matches at isMatch
      split at isMatch
      · rcases isMatch with rfl | ⟨rfl, _⟩ | ⟨_, allowed⟩
        · rfl
        · rfl
        · exact allowed
      · rw [isMatch]
        rfl
      · rw [isMatch]
        rfl
      · next opened inComment => exact absurd inComment (notComment opened)
      · next opened strip inRaw => exact absurd inRaw (notRaw opened strip)
    exact leads.emit allowed 0

/-- The tokens of a text are of the kinds that their regions allow, up to the one token that marks
the end. -/
theorem shapes_of_tokenize {source : String} {result : Tokenization}
    (cut : tokenize dialect sourceName source = some result) :
    Region.text.Shapes result.tokens ∧ Region.text.afterAll result.tokens = .ended := by
  rcases exists_run_of_tokenize cut with ⟨steps, last, ends, sameTokens, _⟩
  have start : ∃ region, InRegion dialect (.ofSource source.toList) region :=
    ⟨.text, ⟨trivial, rfl⟩, Or.inl rfl, Nat.one_pos⟩
  rcases run_keeps
    (fun state => ∃ region, InRegion dialect state region)
    (fun ⟨_, inRegion⟩ nonempty move => move.inRegion nonempty inRegion) start ends with
    ⟨⟨region, inRegion⟩, _⟩
  rcases inRegion.finish with ⟨shapes, afterAll⟩
  rw [sameTokens]
  exact ⟨shapes, afterAll⟩

end Lexer

end Stencil

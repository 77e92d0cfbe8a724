import Stencil.Profiles
import Stencil.Proofs.Lexer.Moves

/-!
# When the walk over a text ends

Of the moves of the lexer, all but one take text or drop a request that the last tag has left
behind. At most two requests stand at a time, so that at most three steps pass before text is
taken, and the walk ends. The exception is an empty line comment. It leaves the lexer where it was,
and the same move is made again and again.

A sound dialect has empty line comments exactly if the prefix of line comments begins with a line
break: the comment is then cut off before its own prefix. Dialects of this sort pass the check for
soundness, since a prefix needs only one character that is not blank.
-/

namespace Stencil.Lexer

variable {dialect : Dialect} {sourceName : Option String} {state next : State}

/-- The place of a state has moved on. -/
def Advances (before after : State) : Prop :=
  before.position.offset < after.position.offset

/-- Nothing changes but one of the requests to drop a line break or blanks, which goes out. -/
inductive DropsRequest (state : State) : State → Prop where
  | newline {strip : Bool} (inText : state.mode = .text true strip) :
      DropsRequest state (state.enter (.text false strip))
  | blanks (inText : state.mode = .text false true) :
      DropsRequest state (state.enter (.text false false))
  | rawBlanks {opened : Position} (inRaw : state.mode = .raw opened true) :
      DropsRequest state (state.enter (.raw opened false))

/-- The next token is an empty line comment. -/
structure Stuck [Limits] (dialect : Dialect) (state : State) : Prop where
  inText : state.mode = .text false false
  nonempty : state.rest ≠ []
  found : opening? dialect (state.position.column = 1) state.rest = some (.lineComment 0)

/-- The text that a step takes. -/
structure Takes (state next : State) (text : List Char) : Prop where
  shows : state.rest = text ++ next.rest
  moved : next.position = state.position.advanceOver text

namespace Takes

variable {text : List Char}

theorem advances (takes : Takes state next text) (nonempty : text ≠ []) : Advances state next := by
  have := Text.byteLength_pos nonempty
  rw [Advances, takes.moved, Position.offset_advanceOver]
  omega

theorem of_emit {kind : Token.Kind} {after : List Char} (shows : state.rest = text ++ after) :
    Takes state (state.emit sourceName kind text.length) text := by
  rw [State.emit_eq_of_rest shows]
  exact ⟨shows, rfl⟩

theorem of_skip {after : List Char} (shows : state.rest = text ++ after) :
    Takes state (state.skip text.length) text := by
  rw [State.skip_eq_of_rest shows]
  exact ⟨shows, rfl⟩

theorem enter (takes : Takes state next text) (mode : Mode) : Takes state (next.enter mode) text :=
  ⟨takes.shows, takes.moved⟩

theorem report (takes : Takes state next text) (diagnostic : Diagnostic) :
    Takes state (next.report diagnostic) text :=
  ⟨takes.shows, takes.moved⟩

theorem of_stripLast {strip : Bool} (takes : Takes (state.stripLast strip) next text) :
    Takes state next text := by
  refine ⟨?_, ?_⟩
  · rw [← takes.shows, State.stripLast_rest]
  · rw [takes.moved, State.stripLast_position]

theorem trans {last : State} {more : List Char} (first : Takes state next text)
    (second : Takes next last more) : Takes state last (text ++ more) := by
  refine ⟨?_, ?_⟩
  · rw [first.shows, second.shows, List.append_assoc]
  · rw [second.moved, first.moved, Position.advanceOver_append]

end Takes

theorem closer_ne_nil (sound : dialect.Sound) (kind : TagKind) : (closer dialect kind).1 ≠ [] := by
  rcases kind with _ | _ | _
  · exact sound.blockEnd_ne_nil
  · exact sound.blockEnd_ne_nil
  · exact sound.variableEnd_ne_nil

theorem WordTag.Fits.takes {tag : WordTag} {word after : List Char} {kind : Token.Kind}
    (sound : dialect.Sound) (fits : tag.Fits dialect word state.rest after) (strip : Bool) :
    ∃ text, Takes state ((state.stripLast strip).emit sourceName kind tag.length) text ∧
      text ≠ [] := by
  rcases fits.exists_text with ⟨written, shows, sameLength, starts, _⟩
  rw [← state.stripLast_rest strip] at shows
  refine ⟨written, ?_, ?_⟩
  · rw [sameLength]
    exact (Takes.of_emit shows).of_stripLast
  · rintro rfl
    have := List.prefix_nil.1 starts
    simp [sound.blockStart_ne_nil] at this

section

variable [Limits]

/-- A move takes text, drops a request, or is stuck at an empty line comment. -/
theorem Move.exists_takes (sound : dialect.Sound) (nonempty : state.rest ≠ [])
    (move : Move dialect sourceName state next) :
    ∃ text, Takes state next text ∧
      (text ≠ [] ∨ DropsRequest state next ∨ Stuck dialect state) := by
  have showsAll : state.rest = state.rest ++ [] := (List.append_nil _).symm
  cases move with
  | dropNewline inText =>
      rcases state.exists_skipNewline with ⟨text, after, shows, skipped, _⟩
      refine ⟨text, skipped ▸ (Takes.of_skip shows).enter _, ?_⟩
      by_cases empty : text = []
      · subst empty
        exact Or.inr (Or.inl (skipped ▸ .newline inText))
      · exact Or.inl empty
  | dropBlanks inText =>
      rcases state.exists_skipBlanks with ⟨text, after, shows, skipped, _⟩
      refine ⟨text, skipped ▸ (Takes.of_skip shows).enter _, ?_⟩
      by_cases empty : text = []
      · subst empty
        exact Or.inr (Or.inl (skipped ▸ .blanks inText))
      · exact Or.inl empty
  | dropRawBlanks inRaw =>
      rcases state.exists_skipBlanks with ⟨text, after, shows, skipped, _⟩
      refine ⟨text, skipped ▸ (Takes.of_skip shows).enter _, ?_⟩
      by_cases empty : text = []
      · subst empty
        exact Or.inr (Or.inl (skipped ▸ .rawBlanks inRaw))
      · exact Or.inl empty
  | openTag start strip inText shows =>
      rw [← state.stripLast_rest strip] at shows
      exact ⟨_, (Takes.of_emit shows).of_stripLast.enter _,
        Or.inl (by simp [start.delimiter_ne_nil sound])⟩
  | openRaw inText fits =>
      rcases fits.takes sound _ with ⟨text, takes, hasText⟩
      exact ⟨text, takes.enter _, Or.inl hasText⟩
  | openLine inText isMarker shows =>
      exact ⟨_, (Takes.of_emit shows).enter _,
        Or.inl (by simp [sound.lineStatement_ne_nil isMarker])⟩
  | @lineComment indent line _ _ inText _ shows _ _ found =>
      refine ⟨_, .of_emit shows, ?_⟩
      by_cases empty : indent ++ line = []
      · exact Or.inr (Or.inr ⟨inText, nonempty, by simpa [empty] using found⟩)
      · exact Or.inl empty
  | plain inText shows hasText => exact ⟨_, .of_emit shows, Or.inl hasText⟩
  | endLine inTag shows => exact ⟨_, (Takes.of_emit shows).enter _, Or.inl (by simp)⟩
  | closeTag strip inTag shows =>
      exact ⟨_, (Takes.of_emit shows).enter _, Or.inl (by simp [closer_ne_nil sound])⟩
  | lexeme inTag shows hasText => exact ⟨_, (Takes.of_emit shows).enter _, Or.inl hasText⟩
  | unclosedString inTag =>
      exact ⟨_, ((Takes.of_emit showsAll).report _).enter _, Or.inl nonempty⟩
  | strayChar inTag shows =>
      exact ⟨_, ((Takes.of_emit shows).report _).enter _, Or.inl (by simp)⟩
  | closeComment strip inComment shows =>
      refine ⟨_, ((Takes.of_emit shows).trans
        (.of_emit (State.emit_rest_of_rest shows))).enter _, Or.inl ?_⟩
      simp [sound.commentEnd_ne_nil]
  | unclosedComment inComment =>
      exact ⟨_, ((Takes.of_emit showsAll).report _).enter _, Or.inl nonempty⟩
  | closeEmptyRaw inRaw fits =>
      rcases fits.takes sound _ with ⟨text, takes, hasText⟩
      exact ⟨text, takes.enter _, Or.inl hasText⟩
  | closeRaw inRaw shows hasText fits =>
      rw [← State.emit_rest_of_rest shows] at fits
      rcases fits.takes sound _ with ⟨text, takes, _⟩
      exact ⟨_, ((Takes.of_emit shows).trans takes).enter _, Or.inl (by simp [hasText])⟩
  | unclosedRaw inRaw =>
      exact ⟨_, ((Takes.of_emit showsAll).report _).enter _, Or.inl nonempty⟩

/-- A step takes text, drops a request, or is stuck. -/
theorem step_advances_or_drops (sound : dialect.Sound) (nonempty : state.rest ≠ []) :
    Advances state (step dialect sourceName state) ∨
      DropsRequest state (step dialect sourceName state) ∨ Stuck dialect state := by
  have move : Move dialect sourceName state _ := step_move nonempty
  rcases move.exists_takes sound nonempty with ⟨text, takes, hasText | drops | stuck⟩
  · exact Or.inl (takes.advances hasText)
  · exact Or.inr (Or.inl drops)
  · exact Or.inr (Or.inr stuck)

/-! ### Standstill -/

theorem Stuck.step (stuck : Stuck dialect state) :
    Stuck dialect (step dialect sourceName state) := by
  have taken : Lexer.step dialect sourceName state = state.emit sourceName .lineComment 0 := by
    rw [Lexer.step, stuck.inText]
    simp only [stepText, Bool.false_eq_true, if_false, stuck.found]
    rfl
  rw [taken]
  exact ⟨stuck.inText, stuck.nonempty, stuck.found⟩

/-- From a standstill no number of steps leads to the end of the text. -/
theorem Stuck.run_eq_none (stuck : Stuck dialect state) (steps : Nat) :
    run dialect sourceName steps state = none := by
  induction steps generalizing state with
  | zero => rw [run, if_neg stuck.nonempty]
  | succ steps ih => rw [run, if_neg stuck.nonempty, ih stuck.step]

/-- A line comment whose prefix begins with a line break is empty. -/
theorem opening?_of_emptyLineComment {marker : String}
    (isMarker : dialect.lineComment = some marker)
    (breaks : ['\n'] <+: marker.toList ∨ ['\r', '\n'] <+: marker.toList) :
    opening? dialect true marker.toList = some (.lineComment 0) := by
  have noIndent : marker.toList.takeWhile (fun char => char = ' ' ∨ char = '\t') = [] := by
    rcases breaks with ⟨rest, sameText⟩ | ⟨rest, sameText⟩ <;> simp [← sameText]
  have noLine : lineLength marker.toList = 0 := by
    rcases breaks with ⟨rest, sameText⟩ | ⟨rest, sameText⟩ <;> simp [lineLength, ← sameText]
  have fits : dialect.lineComment.filter
      (fun marker' => Text.startsWith marker'.toList marker.toList) = some marker := by
    rw [isMarker, Option.filter_some, if_pos (Text.startsWith_iff.2 (List.prefix_refl _))]
  have isComment : linePrefix? dialect marker.toList = some (.lineComment 0) := by
    simp only [linePrefix?, noIndent, List.length_nil, List.drop_zero, fits, noLine]
    rw [if_neg (Nat.not_lt_zero _)]
    split
    · next statement comment statementFits same =>
      -- A statement prefix that fits is a beginning of the comment prefix, so it is not longer.
      rcases Option.filter_eq_some_iff.1 statementFits with ⟨_, starts⟩
      rcases Text.startsWith_iff.1 starts with ⟨rest, sameText⟩
      have sameComment : comment = marker := (Option.some.inj same).symm
      have shorter : statement.utf8ByteSize ≤ marker.utf8ByteSize := by
        have bytes := congrArg Text.byteLength sameText
        rw [Text.byteLength_append] at bytes
        simp only [Text.byteLength_eq_utf8ByteSize, String.ofList_toList] at bytes
        omega
      rw [sameComment, if_neg (by omega)]
    · next same => simp at same
    · rfl
    · next same => simp at same
  simp [opening?, isComment]

theorem stuck_of_emptyLineComment {marker : String} (isMarker : dialect.lineComment = some marker)
    (breaks : ['\n'] <+: marker.toList ∨ ['\r', '\n'] <+: marker.toList) :
    Stuck dialect (.ofSource marker.toList) := by
  refine ⟨rfl, ?_, opening?_of_emptyLineComment isMarker breaks⟩
  rcases breaks with ⟨rest, sameText⟩ | ⟨rest, sameText⟩ <;> simp [State.ofSource, ← sameText]

/-- Only a dialect with empty line comments comes to a standstill. -/
theorem Stuck.emptyLineComment (sound : dialect.Sound) (stuck : Stuck dialect state) :
    dialect.EmptyLineComment := by
  rcases Option.or_eq_some_iff.1 stuck.found with foundLine | ⟨_, foundDelimiter⟩
  · split at foundLine
    · rcases linePrefix?_eq_some foundLine with ⟨indent, rest, _, _, isStatement | isComment⟩
      · rcases isStatement with ⟨marker, after, _, _, impossible⟩
        simp at impossible
      · rcases isComment with ⟨marker, line, after, isMarker, fits, _, wholeLine, sameOpening⟩
        simp only [Opening.lineComment.injEq, List.length_append] at sameOpening
        exact emptyLineComment_of_lineLength_eq_zero sound isMarker fits (by omega)
    · simp at foundLine
  · rcases delimiter?_eq_some foundDelimiter with
      ⟨start, _, _, _, impossible⟩ | ⟨_, _, impossible, _⟩
    · cases start <;> simp [Start.opening] at impossible
    · simp at impossible

/-! ### The number of steps -/

omit [Limits] in
/-- The number of requests that stand. -/
def Mode.requests : Mode → Nat
  | .text trimNewline stripBlanks => trimNewline.toNat + stripBlanks.toNat
  | .raw _ stripBlanks => stripBlanks.toNat
  | _ => 0

omit [Limits] in
theorem Mode.requests_le (mode : Mode) : mode.requests ≤ 2 := by
  cases mode with
  | text trimNewline stripBlanks => cases trimNewline <;> cases stripBlanks <;> decide
  | raw _ stripBlanks => cases stripBlanks <;> simp [Mode.requests]
  | _ => exact Nat.zero_le _

omit [Limits] in
theorem DropsRequest.requests_lt (drops : DropsRequest state next) :
    next.mode.requests < state.mode.requests := by
  cases drops with
  | newline inText => simp [inText, Mode.requests]
  | blanks inText => simp [inText, Mode.requests]
  | rawBlanks inRaw => simp [inRaw, Mode.requests]

omit [Limits] in
theorem DropsRequest.rest_eq (drops : DropsRequest state next) : next.rest = state.rest := by
  cases drops <;> rfl

omit [Limits] in
theorem DropsRequest.position_eq (drops : DropsRequest state next) :
    next.position = state.position := by
  cases drops <;> rfl

omit [Limits] in
/-- An upper bound of the steps that are left. -/
def State.budget (state : State) : Nat :=
  3 * state.rest.length + state.mode.requests

theorem step_budget_lt (sound : dialect.Sound) (nonempty : state.rest ≠ [])
    (notStuck : ¬Stuck dialect state) :
    (step dialect sourceName state).budget < state.budget := by
  have move : Move dialect sourceName state _ := step_move nonempty
  rcases move.exists_takes sound nonempty with ⟨text, takes, hasText | drops | stuck⟩
  · have shows := congrArg List.length takes.shows
    have := List.length_pos_iff.2 hasText
    have := (step dialect sourceName state).mode.requests_le
    simp only [State.budget, shows, List.length_append]
    omega
  · have := drops.requests_lt
    simp only [State.budget, drops.rest_eq]
    omega
  · exact absurd stuck notStuck

/-- A walk that ends at all ends within its budget. -/
theorem run_eq_of_budget_le (sound : dialect.Sound) {steps enough : Nat} {last : State}
    (ends : run dialect sourceName steps state = some last) (covered : state.budget ≤ enough) :
    run dialect sourceName enough state = some last := by
  induction steps generalizing state enough with
  | zero =>
      rw [run] at ends
      split at ends
      · next empty => cases enough <;> rw [run, if_pos empty, ends]
      · simp at ends
  | succ steps ih =>
      by_cases empty : state.rest = []
      · rw [run, if_pos empty] at ends
        cases enough <;> rw [run, if_pos empty, ends]
      · rw [run, if_neg empty] at ends
        have notStuck : ¬Stuck dialect state := by
          intro stuck
          rw [stuck.step.run_eq_none] at ends
          simp at ends
        have fewer : (step dialect sourceName state).budget < state.budget :=
          step_budget_lt sound empty notStuck
        cases enough with
        | zero => omega
        | succ enough =>
            rw [run, if_neg empty]
            exact ih ends (by omega)

/-- Without empty line comments every walk ends within its budget. -/
theorem exists_run (sound : dialect.Sound) (noEmpty : ¬dialect.EmptyLineComment) {enough : Nat}
    (covered : state.budget ≤ enough) :
    ∃ last, run dialect sourceName enough state = some last := by
  induction enough generalizing state with
  | zero =>
      have empty : state.rest = [] := by
        rw [← List.length_eq_zero_iff]
        simp only [State.budget] at covered
        omega
      exact ⟨state, by rw [run, if_pos empty]⟩
  | succ enough ih =>
      by_cases empty : state.rest = []
      · exact ⟨state, by rw [run, if_pos empty]⟩
      · have notStuck : ¬Stuck dialect state := fun stuck =>
          noEmpty (stuck.emptyLineComment sound)
        have fewer : (step dialect sourceName state).budget < state.budget :=
          step_budget_lt sound empty notStuck
        rw [run, if_neg empty]
        exact ih (by omega)

/-- Without empty line comments, the steps up to the next one that takes text are at most the
requests that stand, and one more. -/
theorem exists_iterate_advances (sound : dialect.Sound) (noEmpty : ¬dialect.EmptyLineComment)
    (nonempty : state.rest ≠ []) : ∃ count, count ≤ state.mode.requests + 1 ∧
      Advances state ((step dialect sourceName)^[count] state) := by
  generalize requests : state.mode.requests = count
  induction count using Nat.strong_induction_on generalizing state with
  | _ count ih =>
      have outcome : Advances state (step dialect sourceName state) ∨
          DropsRequest state (step dialect sourceName state) ∨ Stuck dialect state :=
        step_advances_or_drops sound nonempty
      rcases outcome with advances | drops | stuck
      · exact ⟨1, by omega, advances⟩
      · have fewer := drops.requests_lt
        rcases ih _ (by omega) (drops.rest_eq ▸ nonempty) rfl with ⟨more, bound, advances⟩
        refine ⟨more + 1, by omega, ?_⟩
        rw [Function.iterate_succ_apply]
        rwa [Advances, drops.position_eq] at advances
      · exact absurd (stuck.emptyLineComment sound) noEmpty

/-- The walk over a text comes to an end. -/
def Ends (dialect : Dialect) (sourceName : Option String) (source : List Char) : Prop :=
  ∃ steps last, run dialect sourceName steps (.ofSource source) = some last

/-- A text is cut into tokens exactly if the walk over it ends, in whatever number of steps. -/
theorem isSome_tokenize_iff_ends (sound : dialect.Sound) (source : String) :
    (tokenize dialect sourceName source).isSome = true ↔ Ends dialect sourceName source.toList := by
  have enough : (State.ofSource source.toList).budget ≤ 4 * (source.toList.length + 1) := by
    simp only [State.budget, State.ofSource, Mode.requests, Bool.toNat_false]
    omega
  constructor
  · intro cut
    rcases Option.isSome_iff_exists.1 cut with ⟨result, cut⟩
    rcases Option.bind_eq_some_iff.1 cut with ⟨last, ends, _⟩
    exact ⟨_, last, ends⟩
  · rintro ⟨steps, last, ends⟩
    have ends := run_eq_of_budget_le sound ends enough
    simp [tokenize, ends]

theorem exists_tokenize (sound : dialect.Sound) (noEmpty : ¬dialect.EmptyLineComment)
    (source : String) : ∃ result, tokenize dialect sourceName source = some result := by
  rcases exists_run sound noEmpty (le_refl (State.ofSource source.toList).budget) with ⟨last, ends⟩
  exact Option.isSome_iff_exists.1 ((isSome_tokenize_iff_ends sound source).2 ⟨_, last, ends⟩)

end

/-- The default dialect has no line comments at all. -/
theorem not_emptyLineComment_default : ¬({} : Dialect).EmptyLineComment := by
  rintro ⟨marker, isMarker, _⟩
  simp at isMarker

/-- Every text is cut into tokens exactly if no line comment can be empty. Each step then takes
text or does nothing but drop a request, and at most three steps pass before text is taken. -/
theorem tokenize_ends_iff [Limits] (sound : dialect.Sound) :
    ((∀ source, (tokenize dialect sourceName source).isSome = true) ↔
        ¬dialect.EmptyLineComment) ∧
      (∀ source : String, (tokenize dialect sourceName source).isSome = true ↔
        Ends dialect sourceName source.toList) ∧
      (¬dialect.EmptyLineComment → ∀ state : State, state.rest ≠ [] →
        (Advances state (step dialect sourceName state) ∨
          DropsRequest state (step dialect sourceName state)) ∧
        ∃ count, count ≤ 3 ∧ Advances state ((step dialect sourceName)^[count] state)) := by
  refine ⟨⟨?_, ?_⟩, isSome_tokenize_iff_ends sound, ?_⟩
  · rintro allCut ⟨marker, isMarker, breaks⟩
    rcases (isSome_tokenize_iff_ends sound marker).1 (allCut marker) with ⟨steps, last, ends⟩
    rw [(stuck_of_emptyLineComment isMarker breaks).run_eq_none] at ends
    simp at ends
  · intro noEmpty source
    exact Option.isSome_iff_exists.2 (exists_tokenize sound noEmpty source)
  · intro noEmpty state nonempty
    constructor
    · rcases step_advances_or_drops sound nonempty with advances | drops | stuck
      · exact Or.inl advances
      · exact Or.inr drops
      · exact absurd (stuck.emptyLineComment sound) noEmpty
    · rcases exists_iterate_advances sound noEmpty nonempty with ⟨count, bound, advances⟩
      have := state.mode.requests_le
      exact ⟨count, by omega, advances⟩

theorem tokenize_ends_default : ({} : Dialect).Sound ∧ ¬({} : Dialect).EmptyLineComment ∧
    ∀ source, (tokenize {} none source).isSome = true := by
  have sound : ({} : Dialect).Sound := by decide
  exact ⟨sound, not_emptyLineComment_default,
    (tokenize_ends_iff sound).1.2 not_emptyLineComment_default⟩

/-- A prefix that begins with a line break passes the check, and the walk over a text that begins
with it does not end. -/
theorem sound_and_not_ends_newline_hash :
    ({ lineComment := some "\n#" } : Dialect).Sound ∧
      ¬Ends { lineComment := some "\n#" } none "\n#".toList := by
  refine ⟨by decide, ?_⟩
  rintro ⟨steps, last, ends⟩
  rw [(stuck_of_emptyLineComment rfl (Or.inl ⟨['#'], rfl⟩)).run_eq_none] at ends
  simp at ends

end Stencil.Lexer

import Stencil.Profiles
import Stencil.Proofs.Lexer.Breaks
import Stencil.Proofs.Lexer.Walks

/-!
# Trimming line breaks changes nothing else

The walk of a dialect that trims line breaks is followed along the walk of the same dialect without
trimming. Most of the time both are at the same place in the same mode, and their tokens differ by
the line breaks that were dropped. Right after a tag, a comment or a raw block the first walk may
have to drop a line break that the second one takes as plain text: there the first walk waits, and
it catches up with the next step of the second.

At that place the first walk is at the start of a line and the second one is not, so that a line
prefix may come in sight for the first walk only. The run of plain text that the second walk takes
there ends before that prefix all the same, since the line break is a part of the run.
-/

namespace Stencil

namespace Lexer

variable {dialect : Dialect} {sourceName : Option String} {state other : State}
  {kept : List Token} {trimming : Trimming} {token : Token}

/-! ### Two walks side by side -/

/-- What the tokens so far may say about a line break, where a walk without trimming has come to. -/
def State.Allows (state : State) (trimming : Trimming) : Prop :=
  match state.mode with
  | .text trim strip => trim = false ∧
      (trimming.asks = true → strip = false → Text.breakLength state.rest = 0)
  | .tag kind _ => trimming.asks = false ∧
      (kind ≠ .variable → trimming.inLine = decide (kind = .line))
  | .comment _ | .raw _ _ => trimming.asks = false

/-- Two walks are at the same place in the same mode. -/
def Agrees (dialect : Dialect) (state other : State) : Prop :=
  ∃ kept trimming, other = { state with tokens := kept } ∧
    Trims dialect state.tokens kept trimming ∧ state.Allows trimming

/-- Two walks are at the same place, where the second one has yet to drop a line break. -/
def Waits (dialect : Dialect) (state other : State) : Prop :=
  ∃ strip kept trimming, state.mode = .text false strip ∧
    other = { state with mode := .text true strip, tokens := kept } ∧
    Trims dialect state.tokens kept trimming ∧ trimming.asks = true

theorem plainLength_trimBlocks [Limits] (trim : Bool) (text : List Char) :
    plainLength { dialect with trimBlocks := trim } text = plainLength dialect text := by
  have sameAfter (previous : Char) (text : List Char) :
      plainLengthAfter { dialect with trimBlocks := trim } previous text =
        plainLengthAfter dialect previous text := by
    induction text generalizing previous with
    | nil => rfl
    | cons char text ih => rw [plainLengthAfter, ih, plainLengthAfter]; rfl
  cases text with
  | nil => rfl
  | cons char text => rw [plainLength, sameAfter, plainLength]

theorem rawEnd?_trimBlocks (trim : Bool) (skip : Nat) (text : List Char) :
    rawEnd? { dialect with trimBlocks := trim } skip text = rawEnd? dialect skip text := by
  induction text generalizing skip with
  | nil => rfl
  | cons char text ih =>
      cases skip with
      | zero => simp only [rawEnd?, ih]; rfl
      | succ skip => simp only [rawEnd?, ih]

theorem Trimming.after_of_isInner (inner : token.kind.isInner = true ∨ token.kind = .data) :
    trimming.after dialect token = ⟨trimming.inLine, false⟩ := by
  unfold Trimming.after
  split
  · next same => simp [same, Token.Kind.isInner] at inner
  · next same => simp [same, Token.Kind.isInner] at inner
  · next same => simp [same, Token.Kind.isInner] at inner
  · next same => simp [same, Token.Kind.isInner] at inner
  · rfl

/-- A token that is not plain text is taken by both walks. -/
theorem agrees_emit {kind : Token.Kind} (trims : Trims dialect state.tokens kept trimming)
    (notData : kind ≠ .data) (count : Nat) (mode : Mode)
    (allows : ((state.emit sourceName kind count).enter mode).Allows (trimming.after dialect
      ⟨kind, String.ofList (state.rest.take count), state.position, sourceName⟩)) :
    Agrees dialect ((state.emit sourceName kind count).enter mode)
      ((({ state with tokens := kept } : State).emit sourceName kind count).enter mode) :=
  ⟨_, _, rfl, trims.cons_of_ne_data notData, allows⟩

/-- A token that asks for a line break to be dropped is taken by both walks. -/
theorem waits_emit {kind : Token.Kind} (trims : Trims dialect state.tokens kept trimming)
    (count : Nat) (strip : Bool) (asks : (trimming.after dialect
      ⟨kind, String.ofList (state.rest.take count), state.position, sourceName⟩).asks = true) :
    Waits dialect ((state.emit sourceName kind count).enter (.text false strip))
      ((({ state with tokens := kept } : State).emit sourceName kind count).enter
        (.text true strip)) :=
  ⟨strip, _, _, rfl, rfl, trims.cons_of_ne_data (Trimming.ne_data_of_asks asks), asks⟩

/-- What opens here is taken by both walks. -/
theorem openWith_agrees [Limits] (sound : dialect.Sound) {opening : Opening}
    (found : opening? dialect (state.position.column = 1) state.rest = some opening)
    (trims : Trims dialect state.tokens kept trimming) (inText : state.mode = .text false false) :
    Agrees dialect (openWith sourceName opening state)
      (openWith sourceName opening { state with tokens := kept }) := by
  cases opening with
  | block length strip =>
      rcases exists_trims_stripTokens trims strip with ⟨_, trims⟩
      simp only [openWith, stripLast_eq]
      exact agrees_emit trims (by simp) _ _
        ⟨rfl, fun _ => by simp [Trimming.after, opensLine_eq_false sound found]⟩
  | raw tag =>
      rcases exists_trims_stripTokens trims tag.stripBefore with ⟨_, trims⟩
      simp only [openWith, stripLast_eq]
      exact agrees_emit trims (by simp) _ _ rfl
  | «variable» length strip =>
      rcases exists_trims_stripTokens trims strip with ⟨_, trims⟩
      simp only [openWith, stripLast_eq]
      exact agrees_emit trims (by simp) _ _ ⟨rfl, fun different => absurd rfl different⟩
  | comment length strip =>
      rcases exists_trims_stripTokens trims strip with ⟨_, trims⟩
      simp only [openWith, stripLast_eq]
      exact agrees_emit trims (by simp) _ _ rfl
  | lineStatement length =>
      exact agrees_emit trims (by simp) _ _
        ⟨rfl, fun _ => by simp [Trimming.after, opensLine_eq_true sound found]⟩
  | lineComment length =>
      refine ⟨_, _, rfl, trims.cons_of_ne_data (by simp), ?_⟩
      rw [State.Allows, openWith, State.emit_mode, inText]
      exact ⟨rfl, fun asks => by simp [Trimming.after] at asks⟩

theorem stepText_agrees [Limits] (sound : dialect.Sound) {strip : Bool}
    (trims : Trims dialect state.tokens kept trimming) (inText : state.mode = .text false strip)
    (allows : trimming.asks = true → strip = false → Text.breakLength state.rest = 0) :
    Agrees dialect (stepText dialect sourceName false strip state)
      (stepText { dialect with trimBlocks := true } sourceName false strip
        { state with tokens := kept }) := by
  cases strip with
  | true =>
      refine ⟨kept, trimming, rfl, trims, rfl, fun _ _ => ?_⟩
      have noBreak := Text.breakLength_dropWhile state.rest
      rwa [← Text.drop_blankLength] at noBreak
  | false =>
      have sameOpening : opening? { dialect with trimBlocks := true } = opening? dialect := rfl
      simp only [stepText, Bool.false_eq_true, if_false, plainLength_trimBlocks, sameOpening]
      cases found : opening? dialect (state.position.column = 1) state.rest with
      | some opening => exact openWith_agrees sound found trims inText
      | none =>
          dsimp only
          -- Where a line break is to be dropped, none is next.
          refine ⟨_, _, rfl, trims.cons_of_keeps fun asks _ => ?_, ?_⟩
          · rw [String.toList_ofList]
            exact Text.breakLength_eq_zero_of_prefix (List.take_prefix _ _) (allows asks rfl)
          · rw [State.Allows, State.emit_mode, inText]
            exact ⟨rfl, fun asks => by simp [Trimming.after] at asks⟩

/-- The tag goes on or ends in both walks. -/
theorem stepTag_agrees (keeps : dialect.trimBlocks = false) {kind : TagKind} {brackets : Nat}
    (trims : Trims dialect state.tokens kept trimming) (inTag : state.mode = .tag kind brackets)
    (nonempty : state.rest ≠ []) (noAsk : trimming.asks = false)
    (inLine : kind ≠ .variable → trimming.inLine = decide (kind = .line)) :
    Agrees dialect (stepTag dialect sourceName kind brackets state)
        (stepTag { dialect with trimBlocks := true } sourceName kind brackets
          { state with tokens := kept }) ∨
      Waits dialect (stepTag dialect sourceName kind brackets state)
        (stepTag { dialect with trimBlocks := true } sourceName kind brackets
          { state with tokens := kept }) := by
  have sameCloser : closer { dialect with trimBlocks := true } = closer dialect := rfl
  rcases List.exists_cons_of_ne_nil nonempty with ⟨char, text, shows⟩
  rw [stepTag_of_cons shows, stepTag_of_cons (by exact shows), sameCloser]
  split
  · next lineEnds =>
    left
    rcases lineEnds with ⟨rfl, rfl, rfl⟩
    refine agrees_emit trims (by simp) _ _ ⟨rfl, fun asks => ?_⟩
    simp [Trimming.after, inLine] at asks
  · split
    · generalize decide (char = '-' ∧ Text.startsWith (closer dialect kind).1 text = true) = strip
      rcases kind with _ | _ | _
      · right
        simp only [keeps, Bool.false_eq_true, and_false, decide_false, and_self, decide_true]
        exact waits_emit trims _ strip (by simp [Trimming.after, closer, inLine])
      · left
        refine agrees_emit trims (by simp [closer]) _ _ ⟨by simp, fun asks => ?_⟩
        simp [Trimming.after, inLine, closer] at asks
      · left
        refine agrees_emit trims (by simp [closer]) _ _ ⟨by simp, fun asks => ?_⟩
        simp [Trimming.after, closer] at asks
    · left
      rcases exists_takeLexeme_eq inTag shows with
        ⟨token, bracketsAfter, inner, _, inTag, sameTokens, taken⟩
      rw [taken kept]
      refine ⟨_, trimming.after dialect token, rfl, ?_, ?_⟩
      · rw [sameTokens]
        exact trims.cons_of_keeps fun asks => by simp [noAsk] at asks
      · rw [State.Allows, inTag, Trimming.after_of_isInner inner]
        exact ⟨rfl, inLine⟩

/-- The comment is taken by both walks. -/
theorem stepComment_agrees (keeps : dialect.trimBlocks = false) (opened : Position)
    (trims : Trims dialect state.tokens kept trimming) :
    Agrees dialect (stepComment dialect sourceName opened state)
        (stepComment { dialect with trimBlocks := true } sourceName opened
          { state with tokens := kept }) ∨
      Waits dialect (stepComment dialect sourceName opened state)
        (stepComment { dialect with trimBlocks := true } sourceName opened
          { state with tokens := kept }) := by
  simp only [stepComment]
  cases found : Text.find? dialect.commentEnd.toList state.rest with
  | some length =>
      right
      dsimp only
      rw [keeps]
      have body (text : String) := @Trims.cons_of_ne_data _ _ _ _
        ⟨.comment, text, state.position, sourceName⟩ trims (by simp)
      exact waits_emit (body _) _ _ rfl
  | none =>
      left
      exact ⟨_, _, rfl, trims.cons_of_ne_data (by simp), rfl,
        fun asks => by simp [Trimming.after] at asks⟩

/-- The raw block is taken by both walks. -/
theorem stepRaw_agrees (keeps : dialect.trimBlocks = false) (opened : Position) (strip : Bool)
    (trims : Trims dialect state.tokens kept trimming) (noAsk : trimming.asks = false) :
    Agrees dialect (stepRaw dialect sourceName opened strip state)
        (stepRaw { dialect with trimBlocks := true } sourceName opened strip
          { state with tokens := kept }) ∨
      Waits dialect (stepRaw dialect sourceName opened strip state)
        (stepRaw { dialect with trimBlocks := true } sourceName opened strip
          { state with tokens := kept }) := by
  cases strip with
  | true => exact Or.inl ⟨kept, trimming, rfl, trims, noAsk⟩
  | false =>
      simp only [stepRaw, Bool.false_eq_true, if_false, rawEnd?_trimBlocks]
      cases found : rawEnd? dialect 0 state.rest with
      | some ending =>
          right
          dsimp only
          rw [keeps]
          split
          · rcases exists_trims_stripTokens trims ending.2.stripBefore with ⟨_, trims⟩
            rw [stripLast_eq, stripLast_eq]
            exact waits_emit trims _ _ rfl
          · have body := @Trims.cons_of_keeps _ _ _ _
              ⟨.data, String.ofList (state.rest.take ending.1), state.position, sourceName⟩ trims
              fun asks => by simp [noAsk] at asks
            rcases exists_trims_stripTokens body ending.2.stripBefore with ⟨_, trims⟩
            rw [stripLast_eq, stripLast_eq]
            exact waits_emit trims _ _ rfl
      | none =>
          left
          exact ⟨_, _, rfl, trims.cons_of_keeps fun asks _ => by simp [noAsk] at asks, rfl,
            fun asks => by simp [Trimming.after] at asks⟩

section

variable [Limits]

/-- Where two walks are at the same place in the same mode, one step of each leads to the same
place again, and to the same mode unless a line break may have to be dropped. -/
theorem Agrees.agrees_or_waits (agrees : Agrees dialect state other) (sound : dialect.Sound)
    (keeps : dialect.trimBlocks = false) (nonempty : state.rest ≠ []) :
    Agrees dialect (step dialect sourceName state)
        (step { dialect with trimBlocks := true } sourceName other) ∨
      Waits dialect (step dialect sourceName state)
        (step { dialect with trimBlocks := true } sourceName other) := by
  rcases agrees with ⟨kept, trimming, rfl, trims, allows⟩
  rw [State.Allows] at allows
  split at allows
  · next trim strip inText =>
    rcases allows with ⟨rfl, allows⟩
    rw [step_of_text inText, step_of_text (by exact inText)]
    exact Or.inl (stepText_agrees sound trims inText allows)
  · next kind brackets inTag =>
    rw [step_of_tag inTag, step_of_tag (by exact inTag)]
    exact stepTag_agrees keeps trims inTag nonempty allows.1 allows.2
  · next opened inComment =>
    rw [step_of_comment inComment, step_of_comment (by exact inComment)]
    exact stepComment_agrees keeps opened trims
  · next opened strip inRaw =>
    rw [step_of_raw inRaw, step_of_raw (by exact inRaw)]
    exact stepRaw_agrees keeps opened strip trims allows

/-- Where a line break may have to be dropped, no line has just started. -/
theorem Move.column_ne_one {next : State} (move : Move dialect sourceName state next)
    (sound : dialect.Sound) (isColumn : 0 < state.position.column) {strip : Bool}
    (trims : next.mode = .text true strip) : next.position.column ≠ 1 := by
  have afterEnd {position : Position} (isColumn : 0 < position.column) (front : List Char)
      {delimiter : List Char} (nonempty : delimiter ≠ [])
      (visible : ∀ char ∈ delimiter, Text.isBlank char = false) :
      (position.advanceOver (front ++ delimiter)).column ≠ 1 := by
    refine column_ne_one_of_not_blank isColumn (by simp [nonempty]) fun char isLast => ?_
    rw [List.getLast?_append_of_ne_nil _ nonempty] at isLast
    exact visible char (List.mem_of_getLast? isLast)
  have afterWord {tag : WordTag} {word rest after : List Char} {state : State}
      (isColumn : 0 < state.position.column) (fits : tag.Fits dialect word rest after)
      (shows : state.rest = rest) (kind : Token.Kind) :
      (state.emit sourceName kind tag.length).position.column ≠ 1 := by
    rcases fits.exists_text with ⟨written, sameText, sameLength, _, front, sameEnd⟩
    rw [sameLength, State.emit_eq_of_rest (shows.trans sameText), ← sameEnd, ← List.append_assoc]
    exact afterEnd isColumn _ sound.blockEnd_ne_nil fun _ => isBlank_of_mem_blockEnd sound
  cases move with
  | @closeTag kind _ dashed after inTag shows =>
      rcases kind with _ | _ | _
      · rw [State.enter_position, State.emit_eq_of_rest shows]
        exact afterEnd isColumn _ sound.blockEnd_ne_nil fun _ => isBlank_of_mem_blockEnd sound
      · simp at trims
      · simp at trims
  | closeComment dashed inComment shows =>
      rw [State.enter_position, State.emit_eq_of_rest shows, State.emit_eq_of_rest (by rfl)]
      exact afterEnd (Position.column_advanceOver_pos isColumn _) _ sound.commentEnd_ne_nil
        fun _ => isBlank_of_mem_commentEnd sound
  | closeEmptyRaw inRaw fits =>
      exact afterWord (by rwa [State.stripLast_position]) fits (State.stripLast_rest ..) .rawEnd
  | closeRaw inRaw shows nonempty fits =>
      refine afterWord ?_ fits ?_ .rawEnd
      · rw [State.stripLast_position]
        exact Position.column_advanceOver_pos isColumn _
      · rw [State.stripLast_rest, State.emit_rest_of_rest shows]
  | lineComment inText => simp [inText] at trims
  | plain inText => simp [inText] at trims
  | openTag start => rcases start with _ | _ | _ <;> simp [Start.mode] at trims
  | _ => simp at trims

omit [Limits] in
/-- Two walks stay together: the second one is where the first one is, or is about to come there, or
both are at the end. -/
inductive Follows (dialect : Dialect) (state other : State) : Prop where
  | agrees (agrees : Agrees dialect state other)
  | waits (waits : Waits dialect state other) (notStart : state.position.column ≠ 1)
  | ended {trim strip : Bool} {kept : List Token} {trimming : Trimming} (atEnd : state.rest = [])
      (inText : state.mode = .text false false)
      (same : other = { state with mode := .text trim strip, tokens := kept })
      (trims : Trims dialect state.tokens kept trimming)

theorem Agrees.follows (agrees : Agrees dialect state other) (sound : dialect.Sound)
    (keeps : dialect.trimBlocks = false) (nonempty : state.rest ≠ [])
    (isColumn : 0 < state.position.column) :
    Follows dialect (step dialect sourceName state)
      (step { dialect with trimBlocks := true } sourceName other) := by
  rcases agrees.agrees_or_waits sound keeps nonempty with agrees | waits
  · exact .agrees agrees
  · refine .waits waits ?_
    rcases agrees with ⟨kept, _, rfl, _, _⟩
    rcases waits with ⟨strip, _, _, _, same, _, _⟩
    have move : Move { dialect with trimBlocks := true } sourceName { state with tokens := kept }
      (step { dialect with trimBlocks := true } sourceName { state with tokens := kept }) :=
      step_move nonempty
    have notStart := move.column_ne_one (by exact sound) isColumn (by rw [same])
    rwa [same] at notStart

/-- Nothing opens at a line break within a line. -/
theorem opening?_eq_none_of_isBlank (sound : dialect.Sound) {char : Char}
    (isBlank : Text.isBlank char = true) (text : List Char) :
    opening? dialect false (char :: text) = none := by
  rw [opening?, if_neg (by simp), delimiter?_eq_none_of_isBlank sound isBlank, Option.none_or]

/-- A run of plain text that begins with a line break goes on to the next opening after it. -/
theorem plainLength_of_break (sound : dialect.Sound) {front : List Char}
    (isBreak : front ∈ [['\n'], ['\r', '\n']]) (after : List Char) :
    plainLength dialect (front ++ after) = front.length + plainLengthAfter dialect '\n' after := by
  simp only [List.mem_cons, List.not_mem_nil, or_false] at isBreak
  rcases isBreak with rfl | rfl
  · rw [List.singleton_append, plainLength, List.length_singleton, Nat.add_comm]
  · have goesOn : opening? dialect false ('\n' :: after) = none :=
      opening?_eq_none_of_isBlank sound (by decide) after
    rw [List.cons_append, plainLength, List.singleton_append, plainLengthAfter]
    simp only [show ¬ '\r' = '\n' by decide, decide_false, goesOn, Option.isSome_none,
      Bool.false_eq_true, if_false, List.length_cons, List.length_nil]
    omega

/-- Where plain text goes on after a character, nothing opens. -/
theorem plainLengthAfter_ne_zero {previous char : Char} {text : List Char}
    (goesOn : plainLengthAfter dialect previous (char :: text) ≠ 0) :
    opening? dialect (previous = '\n') (char :: text) = none ∧
      plainLengthAfter dialect previous (char :: text) = plainLength dialect (char :: text) := by
  rw [plainLengthAfter] at goesOn ⊢
  split at goesOn
  · exact absurd rfl goesOn
  · next closed =>
    exact ⟨by simpa using closed, by rw [if_neg closed, plainLength]⟩

section

variable {front after : List Char}

omit [Limits] in
theorem skipBlanks_of_break (shows : state.rest = front ++ after)
    (isBreak : front ∈ [['\n'], ['\r', '\n']]) :
    (state.skip front.length).skipBlanks = state.skipBlanks := by
  have restAfter : (state.skip front.length).rest = after := by simp [State.skip, shows]
  have sameLength : Text.blankLength state.rest = front.length + Text.blankLength after := by
    simp only [shows, Text.blankLength, List.length_append,
      List.takeWhile_append_of_pos (Text.isBlank_of_mem_break isBreak)]
  rw [State.skipBlanks, State.skipBlanks, restAfter, skip_skip shows, ← sameLength]

/-- Blanks are dropped by both walks, even if the second one has only blanks of the first left. -/
theorem exists_follows_skipBlanks (trims : Trims dialect state.tokens kept trimming) : ∃ next,
    Relation.ReflTransGen (StepsTo { dialect with trimBlocks := true } sourceName)
      { state with mode := .text false true, tokens := kept } next ∧
    Follows dialect (state.skipBlanks.enter (.text false false)) next := by
  by_cases atEnd : state.rest = []
  · have same : state.skipBlanks = state := by rw [State.skipBlanks, atEnd]; rfl
    rw [same]
    exact ⟨_, .refl, .ended atEnd rfl rfl trims⟩
  · refine ⟨_, .single ⟨atEnd, rfl⟩, .agrees ⟨kept, trimming, ?_, trims, rfl, fun _ _ => ?_⟩⟩
    · rw [step_of_text rfl]
      rfl
    · have noBreak := Text.breakLength_dropWhile state.rest
      rwa [← Text.drop_blankLength] at noBreak

/-- A run of plain text that begins with a line break is taken by the second walk without it. -/
theorem exists_follows_data (inText : state.mode = .text false false)
    (isColumn : 0 < state.position.column) (trims : Trims dialect state.tokens kept trimming)
    (asks : trimming.asks = true) (shows : state.rest = front ++ after)
    (isBreak : front ∈ [['\n'], ['\r', '\n']]) : ∃ next,
    Relation.ReflTransGen (StepsTo { dialect with trimBlocks := true } sourceName)
      { state.skip front.length with mode := .text false false, tokens := kept } next ∧
    Follows dialect (state.emit sourceName .data
      (front.length + plainLengthAfter dialect '\n' after)) next := by
  obtain ⟨plain, rest, rfl, sameLength, -⟩ : ∃ plain rest, after = plain ++ rest ∧
      plain.length = plainLengthAfter dialect '\n' after ∧ _ := exists_plainLengthAfter '\n' after
  have nonempty : front ≠ [] := by
    rintro rfl
    simp at isBreak
  have showsAll : state.rest = (front ++ plain) ++ rest := by rw [shows, List.append_assoc]
  rw [← sameLength, ← List.length_append, State.emit_eq_of_rest showsAll,
    State.skip_eq_of_rest shows]
  have added := trims.cons ⟨.data, String.ofList (front ++ plain), state.position, sourceName⟩
  rw [Trimming.keep, if_pos ⟨asks, rfl⟩, Token.withoutBreak_of_break String.toList_ofList isBreak]
    at added
  have allows : (trimming.after dialect
      ⟨.data, String.ofList (front ++ plain), state.position, sourceName⟩).asks = false := rfl
  cases plain with
  | nil =>
      refine ⟨_, .refl, .agrees ⟨_, _, ?_, added, ?_⟩⟩
      · simp [inText]
      · rw [State.Allows, inText]
        exact ⟨rfl, fun asks => absurd (asks.symm.trans allows) (by decide)⟩
  | cons char plain =>
      obtain ⟨closed, sameRun⟩ : opening? dialect true (char :: (plain ++ rest)) = none ∧
          plainLengthAfter dialect '\n' (char :: (plain ++ rest)) =
            plainLength dialect (char :: (plain ++ rest)) :=
        plainLengthAfter_ne_zero (by rw [← List.cons_append, ← sameLength]; simp)
      have atStart : (state.position.advanceOver front).column = 1 := by
        rw [Position.column_advanceOver_eq_one isColumn nonempty]
        simp only [List.mem_cons, List.not_mem_nil, or_false] at isBreak
        rcases isBreak with rfl | rfl <;> rfl
      have taken : step { dialect with trimBlocks := true } sourceName
          { state with
            mode := .text false false
            position := state.position.advanceOver front
            rest := (char :: plain) ++ rest
            tokens := kept } =
          { state with
            mode := .text false false
            position := (state.position.advanceOver front).advanceOver (char :: plain)
            rest := rest
            tokens := ⟨.data, String.ofList (char :: plain), state.position.advanceOver front,
              sourceName⟩ :: kept } := by
        rw [step_of_text rfl]
        have sameOpening : opening? { dialect with trimBlocks := true } = opening? dialect := rfl
        simp only [stepText, Bool.false_eq_true, if_false, sameOpening, atStart, decide_true,
          List.cons_append, closed, plainLength_trimBlocks, ← sameRun]
        rw [← List.cons_append, ← sameLength, State.emit_eq_of_rest rfl]
      refine ⟨_, .single ⟨by simp, taken⟩, .agrees ⟨_, _, ?_, added, ?_⟩⟩
      · simp [inText]
      · rw [State.Allows, inText]
        exact ⟨rfl, fun asks => absurd (asks.symm.trans allows) (by decide)⟩

end

/-- Right before a line break that only the second walk drops, both walks come to the same place
again with one step of the first. -/
theorem Waits.follows (waits : Waits dialect state other) (sound : dialect.Sound)
    (keeps : dialect.trimBlocks = false) (nonempty : state.rest ≠ [])
    (isColumn : 0 < state.position.column) (notStart : state.position.column ≠ 1) :
    ∃ next, Relation.ReflTransGen (StepsTo { dialect with trimBlocks := true } sourceName) other
        next ∧ Follows dialect (step dialect sourceName state) next := by
  rcases waits with ⟨strip, kept, trimming, inText, rfl, trims, asks⟩
  have dropped : step { dialect with trimBlocks := true } sourceName
      { state with mode := .text true strip, tokens := kept } =
      { state.skip (Text.breakLength state.rest) with
        mode := .text false strip, tokens := kept } := by
    rw [step_of_text rfl, stepText, if_pos rfl, skipNewline_eq]
    rfl
  have drops : StepsTo { dialect with trimBlocks := true } sourceName
      { state with mode := .text true strip, tokens := kept } _ := ⟨nonempty, dropped⟩
  by_cases noBreak : Text.breakLength state.rest = 0
  · have same : ({ state.skip (Text.breakLength state.rest) with
        mode := .text false strip, tokens := kept } : State) = { state with tokens := kept } := by
      rw [noBreak, ← inText]
      rfl
    have agrees : Agrees dialect state { state with tokens := kept } :=
      ⟨kept, trimming, rfl, trims, by rw [State.Allows, inText]; exact ⟨rfl, fun _ _ => noBreak⟩⟩
    rw [same] at drops
    exact ⟨_, .head drops (.single ⟨nonempty, rfl⟩), agrees.follows sound keeps nonempty isColumn⟩
  · rcases Text.exists_of_breakLength_ne_zero noBreak with ⟨front, after, shows, isFront, isBreak⟩
    rw [← isFront] at drops
    cases strip with
    | true =>
        have stepped : step dialect sourceName state =
            (state.skip front.length).skipBlanks.enter (.text false false) := by
          rw [step_of_text inText, skipBlanks_of_break shows isBreak]
          rfl
        have trims : Trims dialect (state.skip front.length).tokens kept trimming := trims
        rcases exists_follows_skipBlanks trims with ⟨next, walks, follows⟩
        exact ⟨next, .head drops walks, stepped ▸ follows⟩
    | false =>
        -- A line prefix is looked for at the start of a line only.
        have closed : opening? dialect (state.position.column = 1) state.rest = none := by
          rcases List.exists_cons_of_ne_nil nonempty with ⟨char, text, same⟩
          have isBlank : Text.isBlank char = true := by
            rw [shows] at same
            simp only [List.mem_cons, List.not_mem_nil, or_false] at isBreak
            rcases isBreak with rfl | rfl <;> cases same <;> decide
          rw [same, show decide (state.position.column = 1) = false by simpa using notStart]
          exact opening?_eq_none_of_isBlank sound isBlank text
        have stepped : step dialect sourceName state = state.emit sourceName .data
            (front.length + plainLengthAfter dialect '\n' after) := by
          rw [step_of_text inText, ← plainLength_of_break sound isBreak, ← shows]
          simp only [stepText, Bool.false_eq_true, if_false, closed]
        rcases exists_follows_data inText isColumn trims asks shows isBreak with
          ⟨next, walks, follows⟩
        exact ⟨next, .head drops walks, stepped ▸ follows⟩

/-- Along a whole walk without trimming, the walk with trimming stays together with it. -/
theorem Follows.exists_walks {last : State} (follows : Follows dialect state other)
    (sound : dialect.Sound) (keeps : dialect.trimBlocks = false)
    (isColumn : 0 < state.position.column)
    (walks : Relation.ReflTransGen (StepsTo dialect sourceName) state last) : ∃ next,
    Relation.ReflTransGen (StepsTo { dialect with trimBlocks := true } sourceName) other next ∧
      Follows dialect last next := by
  induction walks using Relation.ReflTransGen.head_induction_on generalizing other with
  | refl => exact ⟨other, .refl, follows⟩
  | @head state _ stepsTo _ ih =>
      rcases stepsTo with ⟨nonempty, rfl⟩
      have move : Move dialect sourceName state (step dialect sourceName state) :=
        step_move nonempty
      have isColumn' := move.column_pos isColumn
      cases follows with
      | agrees agrees =>
          have sameRest : other.rest ≠ [] := by
            rcases agrees with ⟨_, _, rfl, _, _⟩
            exact nonempty
          rcases ih (agrees.follows sound keeps nonempty isColumn) isColumn' with
            ⟨next, walks, follows⟩
          exact ⟨next, .head ⟨sameRest, rfl⟩ walks, follows⟩
      | waits waits notStart =>
          rcases waits.follows sound keeps nonempty isColumn notStart with
            ⟨middle, before, follows⟩
          rcases ih follows isColumn' with ⟨next, walks, follows⟩
          exact ⟨next, before.trans walks, follows⟩
      | ended atEnd => exact absurd atEnd nonempty

end

theorem exists_finish_eq (sourceName : Option String)
    (trims : Trims dialect state.tokens kept trimming) : ∃ kept' trimming',
      finish sourceName { state with tokens := kept } =
        { finish sourceName state with tokens := kept' } ∧
      Trims dialect (finish sourceName state).tokens kept' trimming' := by
  rcases state with ⟨mode, position, rest, tokens, diagnostics⟩
  rcases mode with ⟨_, _⟩ | ⟨_ | _ | _, _⟩ | opened | ⟨opened, _⟩
  · exact ⟨_, _, rfl, trims.cons_of_ne_data (by simp)⟩
  · exact ⟨_, _, rfl, trims.cons_of_ne_data (by simp)⟩
  · exact ⟨_, _, rfl, (trims.cons_of_ne_data (by simp)).cons_of_ne_data (by simp)⟩
  · exact ⟨_, _, rfl, trims.cons_of_ne_data (by simp)⟩
  · exact ⟨_, _, rfl, (trims.cons_of_ne_data (by simp)).cons_of_ne_data (by simp)⟩
  · exact ⟨_, _, rfl, trims.cons_of_ne_data (by simp)⟩

/-- At the end of the text the tokens of both walks differ by the line breaks only. -/
theorem Follows.result_eq (follows : Follows dialect state other) (sourceName : Option String) :
    other.result sourceName = { state.result sourceName with
      tokens := Trimming.dropBreaks dialect .start (state.result sourceName).tokens } := by
  obtain ⟨kept, trimming, trims, same⟩ : ∃ kept trimming,
      Trims dialect state.tokens kept trimming ∧
      finish sourceName other = finish sourceName { state with tokens := kept } := by
    cases follows with
    | agrees agrees =>
        rcases agrees with ⟨kept, trimming, rfl, trims, _⟩
        exact ⟨kept, trimming, trims, rfl⟩
    | waits waits =>
        rcases waits with ⟨strip, kept, trimming, inText, rfl, trims, _⟩
        refine ⟨kept, trimming, trims, ?_⟩
        simp only [finish, inText]
        rfl
    | @ended _ _ kept trimming _ inText same trims =>
        refine ⟨kept, trimming, trims, ?_⟩
        rw [same]
        simp only [finish, inText]
        rfl
  rcases exists_finish_eq sourceName trims with ⟨kept', trimming', sameFinish, trims⟩
  have sameTokens : Trimming.dropBreaks dialect .start (state.result sourceName).tokens =
      kept'.reverse := trims.reverse_eq.symm
  rw [State.result, same, sameFinish, sameTokens]
  rfl

theorem Follows.rest_eq_nil (follows : Follows dialect state other) (atEnd : state.rest = []) :
    other.rest = [] := by
  cases follows with
  | agrees agrees =>
      rcases agrees with ⟨_, _, rfl, _, _⟩
      exact atEnd
  | waits waits =>
      rcases waits with ⟨_, _, _, _, rfl, _, _⟩
      exact atEnd
  | ended _ _ same =>
      rw [same]
      exact atEnd

/-- The walk with trimming comes to a standstill where the one without does. -/
theorem Follows.stuck [Limits] (follows : Follows dialect state other)
    (stuck : Stuck dialect state) : Stuck { dialect with trimBlocks := true } other := by
  cases follows with
  | agrees agrees =>
      rcases agrees with ⟨kept, trimming, rfl, _, _⟩
      exact ⟨stuck.inText, stuck.nonempty, stuck.found⟩
  | waits _ notStart =>
      have found := stuck.found
      rw [opening?, if_neg (by simpa using notStart), Option.none_or] at found
      rcases delimiter?_eq_some found with ⟨start, _, _, _, same⟩ | ⟨_, _, same, _⟩
      · rcases start with _ | _ | _ <;> cases same
      · cases same
  | ended atEnd => exact absurd atEnd stuck.nonempty

end Lexer

open Lexer

/-- With trimming, a text is cut into the same tokens as without, except that plain text loses the
line break at its start where it directly follows a comment, a raw block or a block tag that does
not take the rest of its line; what is left empty is no token. Nothing else changes, neither the
diagnostics nor whether there is a result. -/
theorem tokenize_trimBlocks [Limits] {dialect : Dialect} (sound : dialect.Sound)
    (sourceName : Option String) (source : String) :
    tokenize { dialect with trimBlocks := true } sourceName source =
      (tokenize { dialect with trimBlocks := false } sourceName source).map fun result =>
        { result with tokens := Trimming.dropBreaks dialect .start result.tokens } := by
  have soundTrimming : ({ dialect with trimBlocks := true } : Dialect).Sound := sound
  have sound : ({ dialect with trimBlocks := false } : Dialect).Sound := sound
  have start : Follows { dialect with trimBlocks := false } (.ofSource source.toList)
      (.ofSource source.toList) :=
    .agrees ⟨[], .start, rfl, .nil, rfl, fun asks => by simp [Trimming.start] at asks⟩
  obtain ⟨last, walks, ends⟩ : ∃ last, Relation.ReflTransGen
      (StepsTo { dialect with trimBlocks := false } sourceName) (.ofSource source.toList) last ∧
      (last.rest = [] ∨ Stuck { dialect with trimBlocks := false } last) :=
    Lexer.exists_walks sound sourceName _
  rcases start.exists_walks sound rfl Nat.one_pos walks with ⟨next, walksTrimming, follows⟩
  rcases ends with atEnd | stuck
  · rw [tokenize_eq_of_walks sound walks atEnd,
      tokenize_eq_of_walks soundTrimming walksTrimming (follows.rest_eq_nil atEnd)]
    simp only [follows.result_eq sourceName, Option.map_some, Trimming.dropBreaks_trimBlocks]
  · rw [tokenize_eq_none_of_walks stuck walks,
      tokenize_eq_none_of_walks (follows.stuck stuck) walksTrimming]
    rfl

/-- The line breaks after a comment and after a block tag are dropped, the one after a line
statement is not. -/
theorem tokenize_trimBlocks_lineStatement :
    ({ lineStatement := some "#" } : Dialect).Sound ∧
      (tokenize { lineStatement := some "#", trimBlocks := true } none
        "\x7b# a #\x7d\r\nb\x7b%- c %\x7d\n# d\n\ne").map
          (fun result => result.tokens.map fun token => (token.text, token.position.offset)) =
        some [("\x7b#", 0), (" a ", 2), ("#\x7d", 5), ("b", 9), ("\x7b%-", 10), (" ", 13),
          ("c", 14), (" ", 15), ("%\x7d", 16), ("#", 19), (" ", 20), ("d", 21), ("\n", 22),
          ("\ne", 23), ("", 25)] := by
  have sound : ({ lineStatement := some "#" } : Dialect).Sound := by decide
  refine ⟨sound, ?_⟩
  rw [tokenize_trimBlocks sound]
  cbv

end Stencil

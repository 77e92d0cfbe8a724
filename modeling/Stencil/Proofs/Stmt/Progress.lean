import Stencil.Proofs.Stmt.Following
import Stencil.Proofs.Stmt.Windows

/-!
# Statements get further

The rule for statements reads a token, whether it succeeds or fails, unless no statement begins
where it is used or there is no level of nesting left; and it never goes back, whatever tokens the
stream holds. For this reason the rule for the statements inside of a statement is only used beyond
the token that the statement starts at, and the statements of a body and the branches of a choice
are repetitions that end by themselves.
-/

namespace Stencil

theorem SyntaxError.isRecoverable_ofToken (token : Token) (expected : String) :
    (SyntaxError.ofToken token expected).isRecoverable = true := by
  rw [← Bool.not_eq_false, SyntaxError.isRecoverable_eq_false_iff]
  rintro ⟨limit, span, isTooDeep⟩
  unfold SyntaxError.ofToken at isTooDeep
  split at isTooDeep <;> cases isTooDeep

namespace Parsing

variable {α β : Type} {stream : TokenStream} {low : Nat} {place : Place}

theorem Forward.meets {rule : Parsing α} (forward : Forward stream low rule)
    (later : low ≤ place.cursor) :
    Meets (fun _ after => place.cursor ≤ after.cursor)
      (fun _ after => place.cursor ≤ after.cursor) (rule stream place) := by
  have soFar := forward place later
  cases outcome : rule stream place with
  | ok value after => rwa [outcome] at soFar
  | error error after => rwa [outcome] at soFar

/-- A rule reads a token, whether it succeeds or fails. -/
def Moves (stream : TokenStream) (place : Place) (rule : Parsing α) : Prop :=
  place.cursor < (stateAfter (rule stream place)).cursor

namespace Moves

variable {rule : Parsing α}

/-- What follows the first part never goes back. -/
theorem bind {next : α → Parsing β} (first : Moves stream place rule)
    (rest : ∀ value, Forward stream (place.cursor + 1) (next value)) :
    Moves stream place (rule >>= next) := by
  unfold Moves at *
  cases outcome : rule stream place with
  | ok value middle =>
      rw [outcome] at first
      rw [bind_eq_of_ok outcome]
      exact Nat.lt_of_lt_of_le first (rest value middle first)
  | error error middle =>
      rw [outcome] at first
      rwa [bind_eq_of_error outcome]

theorem lift {rule : Reading α}
    (moves : place.cursor < stateAfter (rule stream place.cursor)) :
    Moves stream place (liftM rule) := by
  unfold Moves
  cases outcome : rule stream place.cursor with
  | ok value stop =>
      rw [outcome] at moves
      rwa [lift_eq_of_ok outcome]
  | error error stop =>
      rw [outcome] at moves
      rwa [lift_eq_of_error outcome]

theorem map {change : α → β} (moves : Moves stream place rule) :
    Moves stream place (change <$> rule) := by
  unfold Moves at *
  cases outcome : rule stream place with
  | ok value after =>
      rw [outcome] at moves
      rwa [map_eq_of_ok outcome]
  | error error after =>
      rw [outcome] at moves
      rwa [map_eq_of_error outcome]

variable [Limits]

theorem nested {construct : String} (room : place.depth < maxDepth)
    (inner : Moves stream (place.entered construct) rule) :
    Moves stream place (Parsing.nested construct rule) := by
  unfold Moves at *
  cases outcome : rule stream (place.entered construct) with
  | ok value after =>
      rw [outcome] at inner
      rwa [nested_eq_of_ok room outcome]
  | error error after =>
      rw [outcome] at inner
      rwa [nested_eq_of_error room outcome]

end Moves

variable [Limits]

/-- A rule reads a token inside the stream; or it fails where it is used, with an error that can be
recovered from if there is a level of nesting left. -/
def MovesOrRefuses (stream : TokenStream) (place : Place) (rule : Parsing α) : Prop :=
  (Moves stream place rule ∧ place.cursor < stream.size) ∨
    ∃ error, rule stream place = .error error place ∧
      (error.isRecoverable = true ∨ maxDepth ≤ place.depth)

namespace MovesOrRefuses

variable {rule : Parsing α}

theorem moves (closed : stream.IsClosed) (notEnd : (stream.get place.cursor).kind ≠ .eof)
    (moves : Moves stream place rule) : MovesOrRefuses stream place rule := by
  have inside := closed.lt_size notEnd
  exact Or.inl ⟨moves, by omega⟩

theorem current {next : Token → Parsing β}
    (rest : MovesOrRefuses stream place (next (stream.get place.cursor))) :
    MovesOrRefuses stream place (liftM Reading.current >>= next) :=
  rest

theorem refuse (token : Token) (expected : String) :
    MovesOrRefuses stream place (liftM (Reading.refuse token expected : Reading α)) :=
  Or.inr ⟨_, rfl, Or.inl (SyntaxError.isRecoverable_ofToken _ _)⟩

theorem le (moves : MovesOrRefuses stream place rule) :
    place.cursor ≤ (stateAfter (rule stream place)).cursor := by
  rcases moves with ⟨moves, _⟩ | ⟨error, outcome, _⟩
  · exact Nat.le_of_lt moves
  · rw [outcome]
    exact Nat.le_refl _

/-- A success has read a token. -/
theorem meets (moves : MovesOrRefuses stream place rule) :
    Meets (fun _ after => place.cursor < after.cursor ∧ place.cursor < stream.size)
      (fun _ after => place.cursor ≤ after.cursor) (rule stream place) := by
  rcases moves with ⟨moves, inside⟩ | ⟨error, outcome, _⟩
  · unfold Moves at moves
    cases outcome : rule stream place with
    | ok value after =>
        rw [outcome] at moves
        exact ⟨moves, inside⟩
    | error error after =>
        rw [outcome] at moves
        exact Nat.le_of_lt moves
  · rw [outcome]
    exact Nat.le_refl place.cursor

end MovesOrRefuses

end Parsing

namespace Stmt

open Reading Parsing

variable {stream : TokenStream} {place : Place} {statement : Parsing (Option Stmt)}
  (closed : stream.IsClosed)

include closed

/-! ### One statement -/

theorem advance_moves (notEnd : (stream.get place.cursor).kind ≠ .eof) :
    Moves stream place (liftM advance) := by
  have moved := closed.next_eq notEnd
  change place.cursor < stream.next place.cursor
  omega

theorem expect_moves {kind : Token.Kind} (isKind : (stream.get place.cursor).kind = kind)
    (notEnd : kind ≠ .eof) (expected : String) :
    Moves stream place (liftM (expect kind expected)) := by
  have moved := closed.next_eq (isKind ▸ notEnd)
  refine .lift ?_
  rw [expect_eq_of_kind isKind]
  simp only [stateAfter]
  omega

theorem plainText_moves (isData : (stream.get place.cursor).kind = .data) :
    Moves stream place (liftM plainText) := by
  have notEnd : (stream.get place.cursor).kind ≠ .eof := by simp [isData]
  have inside := closed.lt_size notEnd
  have moved := closed.next_eq notEnd
  have first : plainStep "" stream place.cursor =
      .ok (.yield ("" ++ (stream.get place.cursor).text)) (stream.next place.cursor) := by
    rw [plainStep, current_bind, if_pos isData]
    rfl
  have unfolded : plainText stream place.cursor =
      Reading.loop plainStep ("" ++ (stream.get place.cursor).text) stream
        (stream.next place.cursor) := by
    rw [plainText_eq]
    refine repeatFrom_eq_of_yield first ?_ ?_
    · simp only [id]
      omega
    · simp only [id]
      omega
  refine .lift (Nat.lt_of_lt_of_le (?_ : place.cursor < stream.next place.cursor) ?_)
  · omega
  · rw [unfolded]
    exact Reading.Forward.loop plainStep_forward _ _

theorem skipComment_moves (isComment : (stream.get place.cursor).kind = .commentBegin ∨
      (stream.get place.cursor).kind = .lineComment) :
    Moves stream place (liftM skipComment) := by
  have notEnd : (stream.get place.cursor).kind ≠ .eof := by
    rcases isComment with isKind | isKind <;> simp [isKind]
  have moved := closed.next_eq notEnd
  have rest : Reading.Forward stream (do
      let _ ← skipIf .comment
      let _ ← skipIf .commentEnd) :=
    .bind (.skipIf _) fun _ => .bind (.skipIf _) fun _ => .pure _
  refine .lift (Nat.lt_of_lt_of_le (?_ : place.cursor < stream.next place.cursor) ?_)
  · omega
  · rw [skipComment, current_bind]
    rcases isComment with isKind | isKind
    · rw [isKind]
      exact rest (stream.next place.cursor)
    · rw [isKind]
      exact Nat.le_refl (stream.next place.cursor)

variable [Limits]

/-- Without extensions, what follows the token that opens a tag is composed. -/
theorem blockTag_composed (opening : Token) : Composed stream fun statement => (do
    let tag ← current
    match tag.word? with
    | none => refuse tag "tag name"
    | some word => match (tagRules statement).lookup word with
      | some rule => some <$> rule opening
      | none =>
        if Registry.isClosing {} word then throw (.violation (.strayInside word) tag.span)
        else extensionRule statement {} word opening : Parsing (Option Stmt)) := by
  refine .current fun tag => ?_
  cases tag.word? with
  | none => exact .refuse _ _
  | some word =>
      refine tagRules_composed closed word opening _ ?_
      split
      · exact .throw _
      · exact .current fun _ => .throw _

theorem statementRule_moves (forward : Parsing.Forward stream (place.cursor + 1) statement) :
    MovesOrRefuses stream place (statementRule statement {}) := by
  refine .current ?_
  split
  · next isData =>
    refine .moves closed (by simp [isData]) (.map ?_)
    unfold textRule Moves
    rw [bind_eq_of_ok (lift_current_eq _ _), if_pos isData]
    refine Moves.bind (plainText_moves closed isData) fun content => ?_
    exact (Composed.originOf _ fun _ => .pure _).forward forward
  · next isOutput =>
    by_cases full : maxDepth ≤ place.depth
    · exact Or.inr ⟨_, map_eq_of_error (nested_eq_of_full full _ _), Or.inr full⟩
    · have room : place.depth < maxDepth := by omega
      have isOpening : (stream.get (place.entered "output").cursor).kind = .variableBegin :=
        isOutput
      refine .moves closed (by simp [isOutput]) (.map (.nested room ?_))
      refine .bind (expect_moves closed isOpening (by simp) _) fun opening => ?_
      exact (Composed.bind (.expression closed) fun _ => .bind (.expect _ _) fun _ =>
        .originOf _ fun _ => .pure _).forward forward
  · next isBlock =>
    refine .moves closed (by simp [isBlock]) ?_
    refine .bind (advance_moves closed (by simp [isBlock])) fun opening => ?_
    exact (blockTag_composed closed opening).forward forward
  · next isRaw =>
    refine .moves closed (by simp [isRaw]) (.map ?_)
    refine .bind (expect_moves closed isRaw (by simp) _) fun opening => ?_
    exact (rawContent_composed opening).forward forward
  · next isComment =>
    refine .moves closed (by simp [isComment]) ?_
    exact .bind (skipComment_moves closed (Or.inl isComment)) fun _ =>
      (Composed.pure _).forward forward
  · next isComment =>
    refine .moves closed (by simp [isComment]) ?_
    exact .bind (skipComment_moves closed (Or.inr isComment)) fun _ =>
      (Composed.pure _).forward forward
  · exact .refuse _ _

/-- Without extensions, the rule for statements reads a token wherever a statement begins. -/
theorem parse_moves (place : Place) : MovesOrRefuses stream place (parse {}) := by
  generalize left : stream.size - place.cursor = count
  induction count using Nat.strongRecOn generalizing place with
  | ind count ih =>
      have inner : Parsing.Forward stream (place.cursor + 1) (beyond {} stream place) := by
        intro inner later
        unfold beyond
        split
        · next further => exact (ih (stream.size - inner.cursor) (by omega) inner rfl).le
        · exact Nat.le_refl inner.cursor
      have outcome := statementRule_moves closed inner
      unfold MovesOrRefuses Moves at outcome ⊢
      rwa [parse_eq]

theorem parse_forward (low : Nat) : Parsing.Forward stream low (parse {}) :=
  fun place _ => (parse_moves closed place).le

/-- The outcome for a statement depends on the rule for the statements inside of it only where that
rule is used beyond the token at which the statement starts. -/
theorem statementRule_eq_parse
    (same : ∀ inner : Place, place.cursor < inner.cursor →
      statement stream inner = parse {} stream inner) :
    statementRule statement {} stream place = parse {} stream place := by
  have agrees {statement : Parsing (Option Stmt)}
      (same : ∀ inner : Place, place.cursor < inner.cursor →
        statement stream inner = parse {} stream inner) :
      statementRule statement {} stream place = statementRule (parse {}) {} stream place := by
    have bothSides : Matches False (statementRule (parse {}) {} stream place)
        (statementRule statement {} stream place) :=
      statementRule_matches closed (Or.inl rfl) (parse_forward closed _) fun inner later =>
        Or.inl (same inner later)
    exact bothSides.eq_of_not id
  rw [agrees same, parse_eq]
  by_cases inside : place.cursor < stream.size
  · refine (agrees fun inner later => ?_).symm
    rw [beyond, if_pos ⟨later, inside⟩]
  · -- Beyond the last token there is only the end of the template, which no rule reads.
    have isEnd : (stream.get place.cursor).kind = .eof := by
      rw [TokenStream.get_eq_last (by omega)]
      exact closed
    exact (statementRule_eq_of_eof isEnd).trans (statementRule_eq_of_eof isEnd).symm

/-! ### Bodies and branches -/

theorem bodyStep_progresses (tag : String) (opening : Token) (enders : List String) :
    Progresses stream Place.cursor (bodyStep (parse {}) tag opening enders) := by
  refine .of_meets ?_
  rintro ⟨body, _⟩ place
  obtain ⟨found, looked, _⟩ := atTag_eq stream place.cursor enders
  refine .bind_of_ok (lift_eq_of_ok looked) ?_
  cases found with
  | some ender =>
      refine .bind_of_ok (lift_advance_eq _ _) (.bind_of_ok (lift_advance_eq _ _) ?_)
      rintro more isMore
      cases isMore
  | none =>
      refine .bind_of_ok (lift_current_eq _ _) ?_
      split
      · trivial
      · refine Meets.bind ((parse_moves closed place).meets.mono (fun _ _ further => further)
          fun _ _ _ => trivial) fun stmt after further => ?_
        cases stmt with
        | some stmt => exact fun _ _ => further
        | none => exact fun _ _ => further

theorem elifStep_progresses (opening : Token) :
    Progresses stream Place.cursor (elifStep (parse {}) opening) := by
  refine .of_meets ?_
  rintro ⟨elifs, ender⟩ place
  unfold elifStep
  dsimp only
  split
  · -- The condition reads a token, and what follows it never goes back.
    have condition : Meets
        (fun _ after => place.cursor < after.cursor ∧ place.cursor < stream.size)
        (fun _ _ => True) (expression stream place) := by
      have reads : Reads stream 1 place.cursor (Expr.parse place.levels) :=
        Expr.parse_reads closed place.levels
      unfold Reads at reads
      cases outcome : Expr.parse place.levels stream place.cursor with
      | ok value stop =>
          rw [outcome] at reads
          exact .of_ok (lift_eq_of_ok outcome) ⟨reads.2, reads.1.lt_size closed reads.2⟩
      | error error stop => exact .of_error (lift_eq_of_error outcome) trivial
    refine condition.bind fun value middle progress => ?_
    have composed : Composed stream fun statement => branchRest statement opening elifs value :=
      .bind .blockEnd fun _ => .bind (bodyUntil_composed _ _ _) fun _ => .pure _
    have rest := composed.forward (parse_forward closed 0)
    exact (rest.meets (Nat.zero_le _)).mono
      (fun _ _ soFar _ _ => ⟨Nat.lt_of_lt_of_le progress.1 soFar, progress.2⟩) fun _ _ _ => trivial
  · rintro more isMore
    cases isMore

end Stmt

end Stencil

import Stencil.Proofs.Stmt.TagText

/-!
# The plain text of statements

A statement holds exactly the pieces of plain text of the tokens that its rule has read, in order.
Runs of plain text and raw blocks are read token by token, and the shape of the stream says which
tokens can follow. The rule for block tags uses the rule for statements again, but only further on
in the stream.
-/

namespace Stencil.Stmt

open Reading Parsing

variable {α : Type} {stream : TokenStream} {place : Place} {start : Nat}

section

variable (closed : stream.IsClosed)

include closed

/-- What is told after the token that opens a tag is told from that token on. -/
theorem Completes.leads {texts : α → List String} {rule : Parsing α} {start : Nat} {inner : Place}
    (isOpener : (stream.get start).kind = .blockBegin ∨ (stream.get start).kind = .variableBegin)
    (completes : Completes stream (stream.next start) texts inner rule) :
    Leads stream start (fun value => Tells stream start (texts value)) inner rule := by
  have silent : (stream.get start).kind ≠ .eof ∧ (stream.get start).kind ≠ .data ∧
      (stream.get start).kind ≠ .rawEnd := by
    rcases isOpener with isKind | isKind <;> simp [isKind]
  have opens := Stretch.silent closed silent.1 silent.2.1 silent.2.2
  have further : start < stream.next start := by
    rw [closed.next_eq silent.1]
    exact Nat.lt_succ_self _
  refine completes.mono (fun value after told => ?_) fun _ _ failed =>
    failed.before (Nat.le_of_lt further)
  exact ⟨opens.trans told.1, Nat.lt_of_lt_of_le further told.1.inOrder,
    TokenStream.isReady_of_text told.2⟩

theorem outputRule_tells [Limits] (isOutput : (stream.get place.cursor).kind = .variableBegin) :
    Leads stream place.cursor (fun stmt => Tells stream place.cursor stmt.contents) place
      (nested "output" outputRule) := by
  refine .nested (Nat.le_refl _) (fun _ _ told => ⟨told.1, told.2, told.3⟩) fun inner same => ?_
  rw [← same] at isOutput ⊢
  refine Meets.bind_of_ok (lift_eq_of_ok (expect_eq_of_kind isOutput _)) ?_
  refine Completes.leads closed (Or.inr isOutput) ?_
  refine .inside (.refl _ _) closed (expression_inside closed) fun _ _ soFar => ?_
  refine .closing (Or.inr rfl) soFar closed fun _ _ soFar inText => .origin (.pure ⟨?_, inText⟩)
  simpa [contents_eq, content?, bodies] using soFar

omit closed in
theorem plainText_eq_of_ne (notData : (stream.get start).kind ≠ .data) :
    plainText stream start = .ok "" start := by
  refine repeatFrom_eq_of_done ?_
  rw [current_bind, if_neg notData]
  rfl

/-- A single token of plain text. -/
theorem plainText_eq_of_data (isData : (stream.get start).kind = .data)
    (single : (stream.get (stream.next start)).kind ≠ .data) :
    plainText stream start = .ok (stream.get start).text (stream.next start) := by
  have inside := closed.lt_size (show (stream.get start).kind ≠ .eof by simp [isData])
  have moved := closed.next_eq (show (stream.get start).kind ≠ .eof by simp [isData])
  have first : (do
      let token ← current
      if token.kind = .data then
        let _ ← advance
        return .yield ("" ++ token.text)
      else return .done "" : Reading (ForInStep String)) stream start =
        .ok (.yield ("" ++ (stream.get start).text)) (stream.next start) := by
    rw [current_bind, if_pos isData]
    rfl
  refine (repeatFrom_eq_of_yield first ?_ ?_).trans ?_
  · simp only [id, moved]
    omega
  · simp only [id]
    omega
  · rw [String.empty_append]
    refine repeatFrom_eq_of_done ?_
    rw [current_bind, if_neg single]
    rfl

end

variable (shaped : stream.IsShaped)

include shaped

theorem textRule_tells (ready : stream.IsReady place.cursor)
    (isData : (stream.get place.cursor).kind = .data) :
    Leads stream place.cursor (fun stmt => Tells stream place.cursor stmt.contents) place
      textRule := by
  have notEnd : (stream.get place.cursor).kind ≠ .eof := by simp [isData]
  have inside := shaped.closed.lt_size notEnd
  have allowed := shaped.allows (show place.cursor < stream.size by omega)
  have inText : stream.regionAt place.cursor = .text := by
    rcases ready with isBetween | atEnd
    · rw [isData] at allowed
      cases region : stream.regionAt place.cursor <;>
        simp [region, Region.isBetween, Region.allows] at isBetween allowed ⊢
    · simp [isData] at atEnd
  have single : (stream.get (stream.next place.cursor)).kind ≠ .data := by
    have allowedNext := shaped.allows_next notEnd
    rw [inText, isData] at allowedNext
    intro isAgain
    simp [isAgain, Region.after, Region.allows] at allowedNext
  have regionAfter := shaped.closed.regionAt_next notEnd
  rw [inText, isData] at regionAfter
  refine Meets.bind_of_ok (lift_current_eq _ _) ?_
  rw [if_pos isData]
  refine Meets.bind_of_ok (lift_eq_of_ok (plainText_eq_of_data shaped.closed isData single)) ?_
  have told := Stretch.single shaped.closed notEnd
  rw [inText] at told
  refine Leads.origin (.pure ⟨?_, ?_, ?_⟩)
  · simpa [contents_eq, content?, bodies, Region.piece, isData, Region.isTag] using told
  · exact shaped.closed.lt_next notEnd
  · exact Or.inl (by rw [regionAfter]; rfl)

omit shaped in
/-- The end of a raw block, after its content was told or where it has none. -/
theorem rawEnd_tells (closed : stream.IsClosed) {opening : Token} {told : List String}
    {content : String} {here : Place} (soFar : Stretch stream told start here.cursor)
    (further : start < here.cursor)
    (whole : (stream.get here.cursor).kind = .rawEnd →
      told ++ (stream.regionAt here.cursor).piece (stream.get here.cursor) = [content]) :
    Leads stream start (fun stmt : Stmt => Tells stream start stmt.contents) here (do
      if ← skipIf .rawEnd then return .text (← originOf opening) content
      else throw (.unclosed "raw" ["endraw"] opening.span)) := by
  by_cases isEnd : (stream.get here.cursor).kind = .rawEnd
  · have notEnd : (stream.get here.cursor).kind ≠ .eof := by simp [isEnd]
    have regionAfter := closed.regionAt_next notEnd
    rw [isEnd] at regionAfter
    refine Meets.bind_of_ok (lift_eq_of_ok (skipIf_eq_of_kind isEnd)) ?_
    refine Leads.origin (.pure ⟨?_, ?_, TokenStream.isReady_of_text regionAfter⟩)
    · have stretch := soFar.trans (.single closed notEnd)
      rw [whole isEnd] at stretch
      simpa [contents_eq, content?, bodies] using stretch
    · exact Nat.lt_of_lt_of_le further (stream.le_next _)
  · refine Meets.bind_of_ok (lift_eq_of_ok (skipIf_eq_of_ne isEnd)) ?_
    exact Leads.throw rfl soFar.inOrder

/-- A raw block is told as one run of plain text, also where it has none. -/
theorem rawRule_tells (isRaw : (stream.get place.cursor).kind = .rawBegin) :
    Leads stream place.cursor (fun stmt => Tells stream place.cursor stmt.contents) place
      rawRule := by
  have closed := shaped.closed
  have notEnd : (stream.get place.cursor).kind ≠ .eof := by simp [isRaw]
  have opens : Stretch stream [] place.cursor (stream.next place.cursor) :=
    .silent closed notEnd (by simp [isRaw]) (by simp [isRaw])
  have further := closed.lt_next notEnd
  have inRaw : stream.regionAt (stream.next place.cursor) = .raw := by
    rw [closed.regionAt_next notEnd, isRaw]
    rfl
  refine Meets.bind_of_ok (lift_eq_of_ok (expect_eq_of_kind isRaw _)) ?_
  by_cases isData : (stream.get (stream.next place.cursor)).kind = .data
  · have notEndData : (stream.get (stream.next place.cursor)).kind ≠ .eof := by simp [isData]
    have afterData := closed.regionAt_next notEndData
    have single := shaped.allows_next notEndData
    rw [inRaw, isData] at afterData single
    refine Meets.bind_of_ok (lift_eq_of_ok (plainText_eq_of_data closed isData ?_)) ?_
    · intro isAgain
      simp [isAgain, Region.after, Region.allows] at single
    · refine rawEnd_tells closed (opens.trans (.single closed notEndData)) ?_ fun isEnd => ?_
      · exact Nat.lt_of_lt_of_le further (stream.le_next _)
      · simp [inRaw, afterData, isEnd, isData, Region.piece, Region.isTag, Region.after]
  · refine Meets.bind_of_ok (lift_eq_of_ok (plainText_eq_of_ne isData)) ?_
    refine rawEnd_tells closed opens further fun isEnd => ?_
    simp [inRaw, isEnd, Region.piece]

/-- A line comment tells nothing. -/
theorem lineComment_tells (isLine : (stream.get place.cursor).kind = .lineComment) :
    Leads stream place.cursor (fun _ => Tells stream place.cursor []) place
      (liftM skipComment : Parsing Unit) := by
  have notEnd : (stream.get place.cursor).kind ≠ .eof := by simp [isLine]
  have opens : Stretch stream [] place.cursor (stream.next place.cursor) :=
    .silent shaped.closed notEnd (by simp [isLine]) (by simp [isLine])
  have outcome : skipComment stream place.cursor = .ok () (stream.next place.cursor) := by
    rw [skipComment, current_bind, isLine]
    rfl
  have regionAfter := shaped.closed.regionAt_next notEnd
  rw [isLine] at regionAfter
  exact Meets.of_ok (lift_eq_of_ok outcome)
    ⟨opens, shaped.closed.lt_next notEnd, TokenStream.isReady_of_text regionAfter⟩

/-- A comment between delimiters tells nothing. The first delimiter is followed by the comment, and
this by the other delimiter or by nothing. -/
theorem blockComment_tells (isBegin : (stream.get place.cursor).kind = .commentBegin) :
    Leads stream place.cursor (fun _ => Tells stream place.cursor []) place
      (liftM skipComment : Parsing Unit) := by
  have closed := shaped.closed
  have notEnd : (stream.get place.cursor).kind ≠ .eof := by simp [isBegin]
  have further := closed.lt_next notEnd
  have isBody : (stream.get (stream.next place.cursor)).kind = .comment := by
    have allowed := shaped.allows_next notEnd
    rw [isBegin] at allowed
    simpa [Region.after, Region.allows] using allowed
  have soFar : Stretch stream [] place.cursor (stream.next (stream.next place.cursor)) := by
    have opens : Stretch stream [] place.cursor (stream.next place.cursor) :=
      .silent closed notEnd (by simp [isBegin]) (by simp [isBegin])
    exact opens.trans (.silent closed (by simp [isBody]) (by simp [isBody]) (by simp [isBody]))
  have outcome : skipComment stream place.cursor = (skipIf .commentEnd >>= fun _ => pure ())
      stream (stream.next (stream.next place.cursor)) := by
    rw [skipComment, current_bind, isBegin]
    exact bind_eq_of_ok (skipIf_eq_of_kind isBody)
  by_cases isEnd : (stream.get (stream.next (stream.next place.cursor))).kind = .commentEnd
  · have notLast : (stream.get (stream.next (stream.next place.cursor))).kind ≠ .eof := by
      simp [isEnd]
    refine Meets.of_ok
      (lift_eq_of_ok (outcome.trans (bind_eq_of_ok (skipIf_eq_of_kind isEnd)))) ?_
    refine ⟨?_, ?_, TokenStream.isReady_of_text ?_⟩
    · exact soFar.trans (.silent closed notLast (by simp [isEnd]) (by simp [isEnd]))
    · exact Nat.lt_of_lt_of_le further (Nat.le_trans (stream.le_next _) (stream.le_next _))
    · rw [closed.regionAt_next notLast, isEnd]
      rfl
  · refine Meets.of_ok (lift_eq_of_ok (outcome.trans (bind_eq_of_ok (skipIf_eq_of_ne isEnd)))) ?_
    refine ⟨soFar, Nat.lt_of_lt_of_le further (stream.le_next _), Or.inr ?_⟩
    have allowed := shaped.allows_next (show (stream.get (stream.next place.cursor)).kind ≠ .eof
      by simp [isBody])
    rw [isBody] at allowed
    simpa [Region.after, Region.allows, isEnd] using allowed

variable [Limits] {statement : Parsing (Option Stmt)}
  (tells : TellsFrom stream (place.cursor + 1) statement)

include tells

/-- A block tag tells the text of its bodies. Without extensions no other tags are read. -/
theorem blockTagRule_tells (isBlock : (stream.get place.cursor).kind = .blockBegin) :
    TellsAt stream place (blockTagRule statement {}) := by
  have notEnd : (stream.get place.cursor).kind ≠ .eof := by simp [isBlock]
  have moved := shaped.closed.next_eq notEnd
  have later : place.cursor ≤ stream.next place.cursor := stream.le_next _
  refine Meets.bind_of_ok (lift_advance_eq _ _) (.bind_of_ok (lift_current_eq _ _) ?_)
  change Leads stream place.cursor _ _ _
  split
  · exact .refuse _ _ later
  · next word isWord =>
    split
    · next rule isRule =>
      refine Completes.leads shaped.closed (Or.inl isBlock) ?_
      refine Meets.map (tagRules_completes shaped.closed _ (moved ▸ tells)
        (Token.isInner_of_word? isWord) isRule) fun _ _ told => told
    · split
      · exact .throw rfl later
      · exact .current (.throw rfl later)

/-- Any statement tells its text. -/
theorem statementRule_tells (ready : stream.IsReady place.cursor) :
    TellsAt stream place (statementRule statement {}) := by
  refine Meets.bind_of_ok (lift_current_eq _ _) ?_
  change Leads stream place.cursor _ place _
  split
  · next isData => exact Meets.map (textRule_tells shaped ready isData) fun _ _ told => told
  · next isOutput =>
    exact Meets.map (outputRule_tells shaped.closed isOutput) fun _ _ told => told
  · next isBlock => exact blockTagRule_tells shaped tells isBlock
  · next isRaw => exact Meets.map (rawRule_tells shaped isRaw) fun _ _ told => told
  · next isComment =>
    exact .bind (blockComment_tells shaped isComment) fun _ _ told => .pure told
  · next isComment =>
    exact .bind (lineComment_tells shaped isComment) fun _ _ told => .pure told
  · exact .refuse _ _ (Nat.le_refl _)

omit tells in
/-- Without extensions, every statement tells its text. -/
theorem parse_tells (place : Place) (ready : stream.IsReady place.cursor) :
    Meets (fun stmt => Tells stream place.cursor (stmt.elim [] contents))
      (fun error after => Fails place.cursor error after.cursor) (parse {} stream place) := by
  generalize left : stream.size - place.cursor = count
  induction count using Nat.strongRecOn generalizing place with
  | ind count ih =>
      have inner : TellsFrom stream (place.cursor + 1) (fun _ inner =>
          if place.cursor < inner.cursor ∧ place.cursor < stream.size then parse {} stream inner
          else .error (.tooDeep maxDepth (stream.get inner.cursor).span) inner) := by
        intro inner isLater readyInner
        unfold TellsAt Leads
        dsimp only
        split
        · next further =>
          exact ih (stream.size - inner.cursor) (by omega) inner readyInner rfl
        · exact ⟨Nat.le_refl inner.cursor, rfl⟩
      have outcome := statementRule_tells shaped inner ready
      rw [parse]
      exact outcome

end Stencil.Stmt

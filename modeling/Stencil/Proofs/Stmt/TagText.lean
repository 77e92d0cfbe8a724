import Stencil.Proofs.Parse.Stretch
import Stencil.Proofs.Stmt.Passing
import Stencil.Proofs.Stmt.Steps

/-!
# The plain text of block tags

A block tag gives no plain text of its own: its rule goes through the parts of the tag and through
bodies, and the text of the statement is the text of the bodies. Here the rule for the statements
inside bodies is any rule that tells the text of what it reads.
-/

namespace Stencil

namespace Stmt

/-- The content of a run of plain text. -/
def content? : Stmt → Option String
  | .text _ content => some content
  | _ => none

/-- The contents of the runs of plain text of a statement, at any depth. -/
def contents (stmt : Stmt) : List String :=
  stmt.flatten.filterMap content?

/-- A statement holds its own content, then the contents of its bodies. -/
theorem contents_eq (stmt : Stmt) :
    stmt.contents =
      stmt.content?.toList ++ stmt.bodies.flatMap (fun body => body.flatMap contents) := by
  rw [contents, flatten_eq, List.filterMap_cons]
  cases stmt.content? <;> simp only [List.filterMap_flatMap] <;> rfl

end Stmt

/-- A rule for a part of a tag passes only tokens of the tag. -/
def Parsing.Inside {α : Type} (stream : TokenStream) (place : Place) (rule : Parsing α) : Prop :=
  Meets (fun _ after => Passes stream place.cursor after.cursor)
    (fun error after => Fails place.cursor error after.cursor) (rule stream place)

variable {α β : Type} {stream : TokenStream} {place : Place} {start least : Nat}

theorem Reads.inside {rule : Reading α} (reads : Reads stream least place.cursor rule) :
    Parsing.Inside stream place (liftM rule : Parsing α) := by
  unfold Reads at reads
  unfold Parsing.Inside
  cases outcome : rule stream place.cursor with
  | ok value stop =>
      rw [outcome] at reads
      rw [Parsing.lift_eq_of_ok outcome]
      exact reads.1
  | error error stop =>
      rw [outcome] at reads
      rw [Parsing.lift_eq_of_error outcome]
      exact reads

theorem Parsing.expression_inside [Limits] (closed : stream.IsClosed) :
    Parsing.Inside stream place Parsing.expression :=
  (Expr.parse_reads closed place.levels).inside

theorem Parsing.unconditional_inside [Limits] (closed : stream.IsClosed) :
    Parsing.Inside stream place Parsing.unconditional :=
  (Expr.parseUnconditional_reads closed place.levels).inside

theorem Parsing.withDeeper_inside [Limits] {rule : Expr.Deeper → Reading α}
    (reads : Reads stream least place.cursor (rule (Expr.deeper place.levels))) :
    Parsing.Inside stream place (Parsing.withDeeper rule) :=
  reads.inside

/-- A rule used at a place meets a condition, or fails at `start` or further on. -/
def Leads (stream : TokenStream) (start : Nat) (good : α → Place → Prop) (place : Place)
    (rule : Parsing α) : Prop :=
  Meets good (fun error after => Fails start error after.cursor) (rule stream place)

namespace Leads

variable {good : α → Place → Prop} {goal : β → Place → Prop} {told : List String}
  {rule : Parsing α} {next : α → Parsing β}

theorem pure {value : α} (holds : good value place) :
    Leads stream start good place (Pure.pure value) :=
  holds

theorem throw {error : SyntaxError} (own : error.isStray = false)
    (soFar : start ≤ place.cursor) : Leads stream start good place (throw error) :=
  ⟨soFar, own⟩

theorem refuse (token : Token) (expected : String) (soFar : start ≤ place.cursor) :
    Leads stream start good place (liftM (Reading.refuse token expected : Reading α)) :=
  ⟨soFar, SyntaxError.isStray_ofToken _ _⟩

theorem pure_bind {value : α} (rest : Leads stream start goal place (next value)) :
    Leads stream start goal place (Pure.pure value >>= next) :=
  rest

theorem throw_bind {error : SyntaxError} (own : error.isStray = false)
    (soFar : start ≤ place.cursor) :
    Leads stream start goal place ((MonadExcept.throw error : Parsing α) >>= next) :=
  ⟨soFar, own⟩

theorem bind (first : Leads stream start good place rule)
    (rest : ∀ value after, good value after → Leads stream start goal after (next value)) :
    Leads stream start goal place (rule >>= next) :=
  Meets.bind first rest

/-- A look at the next token changes nothing. -/
theorem current {next : Token → Parsing β}
    (rest : Leads stream start goal place (next (stream.get place.cursor))) :
    Leads stream start goal place (liftM Reading.current >>= next) :=
  rest

theorem origin {opening : Token} {next : Origin → Parsing β}
    (rest : Leads stream start goal place (next ⟨opening.line, stream.sourceName⟩)) :
    Leads stream start goal place (Stmt.originOf opening >>= next) :=
  rest

/-- A part of a tag gives no text. -/
theorem inside (soFar : Stretch stream told start place.cursor) (closed : stream.IsClosed)
    (passes : Parsing.Inside stream place rule)
    (rest : ∀ value after, Stretch stream told start after.cursor →
      Leads stream start goal after (next value)) :
    Leads stream start goal place (rule >>= next) := by
  refine Meets.bind (passes.mono (fun _ _ passed => passed) fun _ _ failed =>
    failed.before soFar.inOrder) fun value after passed => ?_
  have further := soFar.trans (passed.stretch closed)
  rw [List.append_nil] at further
  exact rest value after further

/-- After the end of a tag there is plain text again. -/
theorem closing {kind : Token.Kind} {expected : String} {next : Token → Parsing β}
    (isEnd : kind = .blockEnd ∨ kind = .variableEnd)
    (soFar : Stretch stream told start place.cursor) (closed : stream.IsClosed)
    (rest : ∀ token after, Stretch stream told start after.cursor →
      stream.regionAt after.cursor = .text → Leads stream start goal after (next token)) :
    Leads stream start goal place (liftM (Reading.expect kind expected) >>= next) := by
  have ended : Meets (fun _ after => Stretch stream told start after.cursor ∧
      stream.regionAt after.cursor = .text) (fun error after => Fails start error after.cursor)
      ((liftM (Reading.expect kind expected) : Parsing Token) stream place) := by
    by_cases isKind : (stream.get place.cursor).kind = kind
    · have silent : (stream.get place.cursor).kind ≠ .eof ∧
          (stream.get place.cursor).kind ≠ .data ∧ (stream.get place.cursor).kind ≠ .rawEnd := by
        rcases isEnd with rfl | rfl <;> simp [isKind]
      refine .of_ok (Parsing.lift_eq_of_ok (Reading.expect_eq_of_kind isKind _)) ?_
      constructor
      · have further := soFar.trans (.silent closed silent.1 silent.2.1 silent.2.2)
        rwa [List.append_nil] at further
      · rw [closed.regionAt_next silent.1, isKind]
        rcases isEnd with rfl | rfl <;> rfl
    · exact .of_error (Parsing.lift_eq_of_error (Reading.expect_eq_of_ne isKind _))
        ⟨soFar.inOrder, SyntaxError.isStray_ofToken _ _⟩
  exact Meets.bind ended fun token after further => rest token after further.1 further.2

theorem blockEnd {next : Token → Parsing β} (soFar : Stretch stream told start place.cursor)
    (closed : stream.IsClosed)
    (rest : ∀ token after, Stretch stream told start after.cursor →
      stream.regionAt after.cursor = .text → Leads stream start goal after (next token)) :
    Leads stream start goal place (liftM Reading.expectBlockEnd >>= next) :=
  closing (Or.inl rfl) soFar closed rest

variable [Limits]

/-- A rule that goes one construct deeper. -/
theorem nested {construct : String} (soFar : start ≤ place.cursor)
    (keeps : ∀ value (after : Place), good value after → good value after.left)
    (deeper : ∀ inner : Place, inner.cursor = place.cursor → Leads stream start good inner rule) :
    Leads stream start good place (Parsing.nested construct rule) := by
  unfold Leads Parsing.nested Parsing.enter
  by_cases tooDeep : maxDepth ≤ place.depth
  · rw [if_pos tooDeep]
    exact ⟨soFar, rfl⟩
  · rw [if_neg tooDeep]
    have inner := deeper (place.entered construct) rfl
    unfold Leads at inner
    dsimp only
    cases outcome : rule stream (place.entered construct) with
    | ok value after =>
        rw [outcome] at inner
        exact keeps value after inner
    | error error after =>
        rw [outcome] at inner
        exact inner

end Leads

/-- A rule used at a place has told the texts from `start` on, and plain text may follow. -/
def Completes (stream : TokenStream) (start : Nat) (texts : α → List String) (place : Place)
    (rule : Parsing α) : Prop :=
  Leads stream start (fun value after => Stretch stream (texts value) start after.cursor ∧
    stream.regionAt after.cursor = .text) place rule

namespace Stmt

open Reading Parsing

variable (closed : stream.IsClosed) (opening : Token)

include closed

/-! ### Tags without a body -/

theorem simpleRule_completes (isWord : (stream.get place.cursor).kind.isInner = true) :
    Completes stream place.cursor contents place (simpleRule opening) := by
  have ends {after : Place} {stmt : Stmt} (soFar : Stretch stream [] place.cursor after.cursor)
      (noText : stmt.contents = []) : Completes stream place.cursor contents after (do
        let _ ← expectBlockEnd
        return stmt) :=
    .blockEnd soFar closed fun _ _ soFar inText => .pure ⟨noText ▸ soFar, inText⟩
  refine .inside (.refl _ _) closed (advance_reads closed isWord).inside fun tag _ soFar => ?_
  refine .origin ?_
  dsimp only
  split
  · exact ends soFar (by simp [contents_eq, content?, bodies])
  · exact ends soFar (by simp [contents_eq, content?, bodies])
  · exact ends soFar (by simp [contents_eq, content?, bodies])
  · exact .throw_bind (SyntaxError.isStray_ofToken _ _) soFar.inOrder

theorem evaluateRule_completes [Limits] :
    Completes stream place.cursor contents place (evaluateRule opening) := by
  refine .inside (.refl _ _) closed (expect_reads closed rfl _).inside fun _ _ soFar => ?_
  refine .inside soFar closed (expression_inside closed) fun expr _ soFar => ?_
  refine .blockEnd soFar closed fun _ _ soFar inText => .origin (.pure ⟨?_, inText⟩)
  simpa [contents_eq, content?, bodies] using soFar

theorem parentRule_completes [Limits] :
    Completes stream place.cursor contents place (parentRule opening) := by
  refine .inside (.refl _ _) closed (expect_reads closed rfl _).inside fun _ _ soFar => ?_
  refine .inside soFar closed (expression_inside closed) fun template _ soFar => ?_
  refine .blockEnd soFar closed fun _ _ soFar inText => .origin (.pure ⟨?_, inText⟩)
  simpa [contents_eq, content?, bodies] using soFar

theorem inclusionRule_completes [Limits] :
    Completes stream place.cursor contents place (inclusionRule opening) := by
  have ends {after : Place} {template : Expr} {ignoreMissing : Bool}
      (soFar : Stretch stream [] place.cursor after.cursor) :
      Completes stream place.cursor contents after
        (inclusionRest opening template ignoreMissing) := by
    refine .inside soFar closed (contextModifier_reads closed _).inside fun _ _ soFar => ?_
    refine .blockEnd soFar closed fun _ _ soFar inText => .origin (.pure ⟨?_, inText⟩)
    simpa [contents_eq, content?, bodies] using soFar
  refine .inside (.refl _ _) closed (expect_reads closed rfl _).inside fun _ _ soFar => ?_
  refine .inside soFar closed (expression_inside closed) fun template _ soFar => ?_
  refine .inside soFar closed (skipWord_reads closed _).inside fun ignoreMissing _ soFar => ?_
  cases ignoreMissing with
  | true =>
      exact .inside soFar closed (expectWord_reads closed _).inside fun _ _ soFar => ends soFar
  | false => exact ends soFar

theorem importRule_completes [Limits] :
    Completes stream place.cursor contents place (importRule opening) := by
  refine .inside (.refl _ _) closed (expect_reads closed rfl _).inside fun _ _ soFar => ?_
  refine .inside soFar closed (expression_inside closed) fun template _ soFar => ?_
  refine .inside soFar closed (expectWord_reads closed _).inside fun _ _ soFar => ?_
  refine .inside soFar closed (identifier_reads closed).inside fun target _ soFar => ?_
  refine .inside soFar closed (contextModifier_reads closed _).inside fun _ _ soFar => ?_
  refine .blockEnd soFar closed fun _ _ soFar inText => .origin (.pure ⟨?_, inText⟩)
  simpa [contents_eq, content?, bodies] using soFar

theorem importNamesRule_completes [Limits] :
    Completes stream place.cursor contents place (importNamesRule opening) := by
  refine .inside (.refl _ _) closed (expect_reads closed rfl _).inside fun _ _ soFar => ?_
  refine .inside soFar closed (expression_inside closed) fun template _ soFar => ?_
  refine .inside soFar closed (expect_reads closed rfl _).inside fun _ _ soFar => ?_
  refine .inside soFar closed (importedNames_reads closed).inside fun names _ soFar => ?_
  refine .inside soFar closed (contextModifier_reads closed _).inside fun _ _ soFar => ?_
  refine .blockEnd soFar closed fun _ _ soFar inText => .origin (.pure ⟨?_, inText⟩)
  simpa [contents_eq, content?, bodies] using soFar

/-! ### Bodies -/

omit closed in
/-- A look for a tag reads nothing, and finds the start of a block tag and its word. -/
theorem atTag_eq (stream : TokenStream) (cursor : Nat) (words : List String) :
    ∃ found, atTag words stream cursor = .ok found cursor ∧
      (found.isSome = true → (stream.get cursor).kind = .blockBegin ∧
        (stream.get (cursor + 1)).kind.isInner = true) := by
  by_cases isTag : (stream.get cursor).kind = .blockBegin
  · refine ⟨(stream.get (cursor + 1)).word?.filter words.contains, ?_, fun isFound => ?_⟩
    · rw [atTag, current_bind, if_pos isTag]
      rfl
    · obtain ⟨word, isWord⟩ := Option.isSome_iff_exists.1 isFound
      exact ⟨isTag, Token.isInner_of_word? (Option.filter_eq_some_iff.1 isWord).1⟩
  · refine ⟨none, ?_, by simp⟩
    rw [atTag, current_bind, if_neg isTag]
    rfl

/-- A value that was read from a place on holds the text of the tokens read. There are some, and a
statement may follow. -/
structure Tells (stream : TokenStream) (start : Nat) (texts : List String) (after : Place) :
    Prop where
  stretch : Stretch stream texts start after.cursor
  further : start < after.cursor
  ready : stream.IsReady after.cursor

/-- A rule for statements tells the text of the statement that it reads. -/
def TellsAt (stream : TokenStream) (place : Place) (statement : Parsing (Option Stmt)) : Prop :=
  Leads stream place.cursor (fun stmt => Tells stream place.cursor (stmt.elim [] contents)) place
    statement

/-- A rule for statements tells the text of every statement from a place on. -/
def TellsFrom (stream : TokenStream) (start : Nat) (statement : Parsing (Option Stmt)) : Prop :=
  ∀ place : Place, start ≤ place.cursor → stream.IsReady place.cursor →
    TellsAt stream place statement

variable {statement : Parsing (Option Stmt)}

/-- The statements read so far of a body hold the text from its start up to a place. -/
def BodyTold (stream : TokenStream) (start : Nat) (result : List Stmt × Option String)
    (after : Place) : Prop :=
  Stretch stream (result.1.flatMap contents) start after.cursor

/-- A body is told statement by statement, up to the word of the tag that ends it. -/
theorem bodyUntil_tells (tells : TellsFrom stream place.cursor statement)
    (ready : stream.IsReady place.cursor) (tag : String) (enders : List String) :
    Meets (fun result after =>
        Stretch stream (result.1.flatMap contents) place.cursor after.cursor)
      (fun error after => Fails place.cursor error after.cursor)
      (bodyUntil statement tag opening enders stream place) := by
  refine Meets.bind (?_ : Meets (BodyTold stream place.cursor) _ _) ?_
  · refine Meets.repeatFrom
      (fun result after => BodyTold stream place.cursor result after ∧
        stream.IsReady after.cursor) ?_
      ⟨.refl _ _, ready⟩
    rintro ⟨body, _⟩ middle ⟨soFar, readyHere⟩
    obtain ⟨found, looked, isTag⟩ := atTag_eq stream middle.cursor enders
    refine .bind_of_ok (lift_eq_of_ok looked) ?_
    cases found with
    | some ender =>
        obtain ⟨isBegin, isWord⟩ := isTag rfl
        have begins : Stretch stream [] middle.cursor (stream.next middle.cursor) :=
          .silent closed (by simp [isBegin]) (by simp [isBegin]) (by simp [isBegin])
        have named : Stretch stream [] (stream.next middle.cursor)
            (stream.next (stream.next middle.cursor)) := by
          rw [closed.next_eq (by simp [isBegin])]
          exact (advance_reads closed isWord).1.stretch closed
        refine .bind_of_ok (lift_advance_eq _ _) (.bind_of_ok (lift_advance_eq _ _) ?_)
        have whole : Stretch stream (body.flatMap contents) place.cursor
            (stream.next (stream.next middle.cursor)) := by
          simpa using soFar.trans (begins.trans named)
        exact whole
    | none =>
        refine .bind_of_ok (lift_current_eq _ _) ?_
        split
        · exact ⟨soFar.inOrder, rfl⟩
        · refine Meets.bind ((tells middle soFar.inOrder readyHere).mono
            (fun _ _ told => told) fun _ _ failed => failed.before soFar.inOrder) ?_
          rintro stmt after ⟨told, _, readyAfter⟩
          have further := soFar.trans told
          cases stmt with
          | some stmt =>
              have further : BodyTold stream place.cursor (body ++ [stmt], none) after := by
                simpa [BodyTold] using further
              exact ⟨⟨further, readyAfter⟩, Or.inr further⟩
          | none =>
              have further : BodyTold stream place.cursor (body, none) after := by
                simpa [BodyTold] using further
              exact ⟨⟨further, readyAfter⟩, Or.inr further⟩
  · rintro ⟨body, ender⟩ after soFar
    cases ender with
    | some ender => exact soFar
    | none => exact ⟨soFar.inOrder, rfl⟩

theorem body_leads {told : List String} {goal : β → Place → Prop}
    {next : List Stmt × String → Parsing β} {tag : String} {enders : List String}
    (tells : TellsFrom stream start statement) (soFar : Stretch stream told start place.cursor)
    (inText : stream.regionAt place.cursor = .text)
    (rest : ∀ result after, Stretch stream (told ++ result.1.flatMap contents) start after.cursor →
      Leads stream start goal after (next result)) :
    Leads stream start goal place (bodyUntil statement tag opening enders >>= next) := by
  have tellsHere : TellsFrom stream place.cursor statement := fun inner isLater =>
    tells inner (Nat.le_trans soFar.inOrder isLater)
  refine Meets.bind ((bodyUntil_tells closed opening tellsHere
    (TokenStream.isReady_of_text inText) tag enders).mono (fun _ _ stretch => stretch)
      fun _ _ failed => failed.before soFar.inOrder) fun result after stretch => ?_
  exact rest result after (soFar.trans stretch)

theorem closedBody_leads {told : List String} {goal : β → Place → Prop}
    {next : List Stmt → Parsing β} {tag ender : String}
    (tells : TellsFrom stream start statement) (soFar : Stretch stream told start place.cursor)
    (inText : stream.regionAt place.cursor = .text)
    (rest : ∀ body after, Stretch stream (told ++ body.flatMap contents) start after.cursor →
      stream.regionAt after.cursor = .text → Leads stream start goal after (next body)) :
    Leads stream start goal place (closedBody statement tag opening ender >>= next) := by
  have closing : Completes stream start (fun body => told ++ body.flatMap contents) place
      (closedBody statement tag opening ender) :=
    body_leads closed opening tells soFar inText fun _ _ soFar =>
      .blockEnd soFar closed fun _ _ soFar inText => .pure ⟨soFar, inText⟩
  exact Meets.bind closing fun body after told => rest body after told.1 told.2

/-! ### Tags with bodies -/

variable [Limits] (tells : TellsFrom stream place.cursor statement)

include tells

theorem scopeRule_completes :
    Completes stream place.cursor contents place (scopeRule statement opening) := by
  refine .inside (.refl _ _) closed (expect_reads closed rfl _).inside fun _ after soFar => ?_
  refine .inside soFar closed (withDeeper_inside (assignments_reads closed
    (Expr.deeper_inside closed after.levels))) fun _ _ soFar => ?_
  refine .blockEnd soFar closed fun _ _ soFar inText => ?_
  refine closedBody_leads closed opening tells soFar inText fun body _ soFar inText => ?_
  refine .origin (.pure ⟨?_, inText⟩)
  simpa [contents_eq, content?, bodies] using soFar

theorem filteredRule_completes :
    Completes stream place.cursor contents place (filteredRule statement opening) := by
  refine .inside (.refl _ _) closed (expectWord_reads closed _).inside fun _ after soFar => ?_
  refine .inside soFar closed (withDeeper_inside (filterCalls_reads closed
    (Expr.deeper_inside closed after.levels))) fun _ _ soFar => ?_
  refine .blockEnd soFar closed fun _ _ soFar inText => ?_
  refine closedBody_leads closed opening tells soFar inText fun body _ soFar inText => ?_
  refine .origin (.pure ⟨?_, inText⟩)
  simpa [contents_eq, content?, bodies] using soFar

theorem autoescapeRule_completes :
    Completes stream place.cursor contents place (autoescapeRule statement opening) := by
  refine .inside (.refl _ _) closed (expectWord_reads closed _).inside fun _ _ soFar => ?_
  refine .inside soFar closed (expression_inside closed) fun _ _ soFar => ?_
  refine .blockEnd soFar closed fun _ _ soFar inText => ?_
  refine closedBody_leads closed opening tells soFar inText fun body _ soFar inText => ?_
  refine .origin (.pure ⟨?_, inText⟩)
  simpa [contents_eq, content?, bodies] using soFar

theorem assignRule_completes :
    Completes stream place.cursor contents place (assignRule statement opening) := by
  refine .inside (.refl _ _) closed (expect_reads closed rfl _).inside fun _ _ soFar => ?_
  refine .inside soFar closed (assignTargets_reads closed).inside fun targets _ soFar => ?_
  refine .inside soFar closed (skipIf_reads closed rfl).inside fun isInline _ soFar => ?_
  cases isInline with
  | true =>
      refine .inside soFar closed (expression_inside closed) fun _ _ soFar => ?_
      refine .blockEnd soFar closed fun _ _ soFar inText => .origin (.pure ⟨?_, inText⟩)
      simpa [contents_eq, content?, bodies] using soFar
  | false =>
      simp only [Bool.false_eq_true, if_false]
      split
      · exact .current (.throw rfl soFar.inOrder)
      · refine .blockEnd soFar closed fun _ _ soFar inText => ?_
        refine closedBody_leads closed opening tells soFar inText fun body _ soFar inText => ?_
        refine .origin (.pure ⟨?_, inText⟩)
        simpa [contents_eq, content?, bodies] using soFar

theorem forRule_completes :
    Completes stream place.cursor contents place (forRule statement opening) := by
  -- What follows the head of the loop is the same with and without a condition.
  have afterHead {after : Place} {targets : List String} {iter : Expr} {filter : Option Expr}
      (soFar : Stretch stream [] place.cursor after.cursor) :
      Completes stream place.cursor contents after
        (forRest statement opening targets iter filter) := by
    refine .inside soFar closed (skipWord_reads closed _).inside fun _ _ soFar => ?_
    refine .blockEnd soFar closed fun _ _ soFar inText => ?_
    refine body_leads closed opening tells soFar inText ?_
    rintro ⟨body, ender⟩ _ soFar
    refine .blockEnd soFar closed fun _ _ soFar inText => ?_
    dsimp only
    split
    · refine closedBody_leads closed opening tells soFar inText fun _ _ soFar inText => ?_
      refine .origin (.pure ⟨?_, inText⟩)
      simpa [contents_eq, content?, bodies] using soFar
    · refine .pure_bind (.origin (.pure ⟨?_, inText⟩))
      simpa [contents_eq, content?, bodies] using soFar
  refine .inside (.refl _ _) closed (expect_reads closed rfl _).inside fun _ _ soFar => ?_
  refine .inside soFar closed (assignTargets_reads closed).inside fun _ _ soFar => ?_
  refine .inside soFar closed (expect_reads closed rfl _).inside fun _ _ soFar => ?_
  refine .inside soFar closed (unconditional_inside closed) fun _ _ soFar => ?_
  refine .inside soFar closed (skipIf_reads closed rfl).inside fun hasFilter _ soFar => ?_
  cases hasFilter with
  | true =>
      refine .inside soFar closed (Meets.map (expression_inside closed) ?_) fun _ _ soFar => ?_
      · exact fun _ _ passed => passed
      · exact afterHead soFar
  | false => exact afterHead soFar

omit [Limits] in
theorem blockRule_completes :
    Completes stream place.cursor contents place (blockRule statement opening) := by
  refine .inside (.refl _ _) closed (expect_reads closed rfl _).inside fun _ _ soFar => ?_
  refine .inside soFar closed (identifier_reads closed).inside fun name _ soFar => ?_
  refine .inside soFar closed (blockModifiers_reads closed).inside fun modifiers _ soFar => ?_
  refine .blockEnd soFar closed fun _ _ soFar inText => ?_
  refine body_leads closed opening tells soFar inText fun ⟨body, _⟩ after soFar => ?_
  have ends {after : Place}
      (soFar : Stretch stream ([] ++ body.flatMap contents) place.cursor after.cursor) :
      Completes stream place.cursor contents after
        (blockRest opening name modifiers.1 modifiers.2 body) := by
    refine .blockEnd soFar closed fun _ _ soFar inText => .origin (.pure ⟨?_, inText⟩)
    simpa [contents_eq, content?, bodies] using soFar
  refine .current ?_
  dsimp only
  split
  · next isName =>
    split
    · refine .inside soFar closed (advance_reads closed (isName ▸ rfl)).inside fun _ _ soFar => ?_
      exact ends soFar
    · exact .throw_bind rfl soFar.inOrder
  · exact ends soFar

theorem macroRule_completes :
    Completes stream place.cursor contents place (macroRule statement opening) := by
  refine .inside (.refl _ _) closed (expect_reads closed rfl _).inside fun _ _ soFar => ?_
  refine .inside soFar closed (identifier_reads closed).inside fun name after soFar => ?_
  refine .inside soFar closed (withDeeper_inside (signature_reads closed
    (Expr.deeper_inside closed after.levels))) fun _ _ soFar => ?_
  refine .blockEnd soFar closed fun _ _ soFar inText => ?_
  refine body_leads closed opening tells soFar inText fun ⟨body, _⟩ _ soFar => ?_
  refine .inside soFar closed (skipWord_reads closed _).inside fun _ _ soFar => ?_
  refine .blockEnd soFar closed fun _ _ soFar inText => .origin (.pure ⟨?_, inText⟩)
  simpa [contents_eq, content?, bodies] using soFar

omit [Limits] in
/-- The branches read so far of a choice hold the text up to a place, after some other text. -/
def BranchesTold (stream : TokenStream) (start : Nat) (told : List String)
    (result : List (Branch Stmt) × String) (after : Place) : Prop :=
  Stretch stream (told ++ result.1.flatMap fun branch => branch.body.flatMap contents)
    start after.cursor

/-- The branches after the first one are told branch by branch. -/
theorem elifBranches_leads {told : List String} {here : Place} {goal : β → Place → Prop}
    {next : List (Branch Stmt) × String → Parsing β} {ender : String}
    (soFar : Stretch stream told place.cursor here.cursor)
    (rest : ∀ result after, BranchesTold stream place.cursor told result after →
      Leads stream place.cursor goal after (next result)) :
    Leads stream place.cursor goal here (elifBranches statement opening ender >>= next) := by
  have branches : Leads stream place.cursor (BranchesTold stream place.cursor told) here
      (elifBranches statement opening ender) := by
    refine Meets.repeatFrom (BranchesTold stream place.cursor told) ?_
      (by simpa [BranchesTold] using soFar)
    rintro ⟨elifs, ender⟩ middle soFar
    change Leads stream place.cursor _ middle _
    dsimp only
    split
    · refine .inside soFar closed (expression_inside closed) fun condition _ soFar => ?_
      refine .blockEnd soFar closed fun _ _ soFar inText => ?_
      refine body_leads closed opening tells soFar inText fun ⟨body, ender⟩ after soFar => ?_
      have further : BranchesTold stream place.cursor told (elifs ++ [⟨condition, body⟩], ender)
          after := by
        simpa [BranchesTold] using soFar
      exact .pure ⟨further, Or.inr further⟩
    · exact .pure soFar
  exact branches.bind rest

theorem choiceRule_completes :
    Completes stream place.cursor contents place (choiceRule statement opening) := by
  refine .inside (.refl _ _) closed (expect_reads closed rfl _).inside fun _ _ soFar => ?_
  refine .inside soFar closed (expression_inside closed) fun _ _ soFar => ?_
  refine .blockEnd soFar closed fun _ _ soFar inText => ?_
  refine body_leads closed opening tells soFar inText fun ⟨body, _⟩ _ soFar => ?_
  refine elifBranches_leads closed opening tells soFar fun ⟨elifs, ender⟩ _ soFar => ?_
  refine .blockEnd soFar closed fun _ _ soFar inText => ?_
  dsimp only
  split
  · refine closedBody_leads closed opening tells soFar inText fun _ _ soFar inText => ?_
    refine .origin (.pure ⟨?_, inText⟩)
    simpa [contents_eq, content?, bodies, List.flatMap_map] using soFar
  · refine .pure_bind (.origin (.pure ⟨?_, inText⟩))
    simpa [contents_eq, content?, bodies, List.flatMap_map] using soFar

omit [Limits] in
omit closed opening tells in
theorem lift_hasEndcall_eq (stream : TokenStream) (place : Place) :
    (liftM hasEndcall : Parsing Bool) stream place =
      .ok (endcallFollows 0 (stream.significant.toList.drop place.cursor)) place := rfl

theorem callRule_completes :
    Completes stream place.cursor contents place (callRule statement opening) := by
  have afterParams {after : Place} {params : List Parameter}
      (soFar : Stretch stream [] place.cursor after.cursor) :
      Completes stream place.cursor contents after (callRest statement opening params) := by
    refine .current (.inside soFar closed (expression_inside closed) fun call _ soFar => ?_)
    dsimp only
    split
    · exact .throw_bind rfl soFar.inOrder
    · refine .blockEnd soFar closed fun _ after soFar inText => ?_
      -- The look ahead for the closing tag leaves the cursor where it is.
      refine Meets.bind_of_ok (lift_hasEndcall_eq stream after) ?_
      change Leads stream place.cursor _ after _
      split
      · refine closedBody_leads closed opening tells soFar inText fun _ _ soFar inText => ?_
        refine .origin (.pure ⟨?_, inText⟩)
        simpa [contents_eq, content?, bodies] using soFar
      · split
        · refine .origin (.pure ⟨?_, inText⟩)
          simpa [contents_eq, content?, bodies] using soFar
        · exact .throw rfl soFar.inOrder
  refine .inside (.refl _ _) closed (expect_reads closed rfl _).inside fun _ after soFar => ?_
  refine .current ?_
  dsimp only
  split
  · refine .inside soFar closed (withDeeper_inside (signature_reads closed
      (Expr.deeper_inside closed after.levels))) fun _ _ soFar => ?_
    exact afterParams soFar
  · exact afterParams soFar

omit closed opening tells in
theorem nested_completes {construct : String} {rule : Parsing Stmt}
    (deeper : ∀ inner : Place, inner.cursor = place.cursor →
      Completes stream inner.cursor contents inner rule) :
    Completes stream place.cursor contents place (nested construct rule) :=
  .nested (Nat.le_refl _) (fun _ _ told => told) fun inner sameCursor =>
    sameCursor ▸ deeper inner sameCursor

/-- Every rule for a block tag tells the text of its bodies. -/
theorem tagRules_completes (isWord : (stream.get place.cursor).kind.isInner = true) {word : String}
    {rule : Token → Parsing Stmt} (isRule : (tagRules statement).lookup word = some rule) :
    Completes stream place.cursor contents place (rule opening) := by
  have tellsAt (inner : Place) (sameCursor : inner.cursor = place.cursor) :
      TellsFrom stream inner.cursor statement :=
    sameCursor ▸ tells
  have all : ∀ entry ∈ tagRules statement,
      Completes stream place.cursor contents place (entry.2 opening) := by
    simp only [tagRules, List.forall_mem_cons, List.not_mem_nil, false_implies, implies_true,
      and_true]
    exact ⟨nested_completes fun _ same => forRule_completes closed opening (tellsAt _ same),
      nested_completes fun _ same => choiceRule_completes closed opening (tellsAt _ same),
      nested_completes fun _ same => assignRule_completes closed opening (tellsAt _ same),
      nested_completes fun _ same => blockRule_completes closed opening (tellsAt _ same),
      nested_completes fun _ _ => parentRule_completes closed opening,
      nested_completes fun _ _ => inclusionRule_completes closed opening,
      nested_completes fun _ _ => importRule_completes closed opening,
      nested_completes fun _ _ => importNamesRule_completes closed opening,
      nested_completes fun _ same => macroRule_completes closed opening (tellsAt _ same),
      nested_completes fun _ same => callRule_completes closed opening (tellsAt _ same),
      nested_completes fun _ same => scopeRule_completes closed opening (tellsAt _ same),
      nested_completes fun _ same => filteredRule_completes closed opening (tellsAt _ same),
      nested_completes fun _ same => autoescapeRule_completes closed opening (tellsAt _ same),
      nested_completes fun _ _ => evaluateRule_completes closed opening,
      simpleRule_completes closed opening isWord, simpleRule_completes closed opening isWord,
      simpleRule_completes closed opening isWord⟩
  obtain ⟨before, after, split, _⟩ := List.lookup_eq_some_iff.1 isRule
  exact all (word, rule) (by simp [split])

end Stmt

end Stencil

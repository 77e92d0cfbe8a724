import Stencil.Profiles
import Stencil.Proofs.Lexer.Regions
import Stencil.Proofs.Stmt.PlainText
import Stencil.Template.Parse

/-!
# Plain text is neither lost nor invented

The runs of plain text of a parsed template are pieces of plain text of its tokens, each at most
once and in order. A statement that fails is dropped with the text that was read for it, and the
parse is taken up between two items. Where no statement fails, all text is there: closing tags that
are passed over hold none.
-/

namespace Stencil

namespace TokenStream

variable {stream : TokenStream} {cursor start stop : Nat}

/-- A search passes over tokens that are not looked for, up to one that is or to the last one. -/
theorem seek_spec (stream : TokenStream) (found : Token → Bool) (cursor : Nat) :
    cursor ≤ stream.seek found cursor ∧
    (∀ index, cursor ≤ index → index < stream.seek found cursor →
      found (stream.get index) = false) ∧
    (found (stream.get (stream.seek found cursor)) = true ∨
      stream.size ≤ stream.seek found cursor + 1) := by
  fun_induction seek stream found cursor with
  | case1 cursor isFound => exact ⟨Nat.le_refl _, fun _ _ _ => by omega, Or.inl isFound⟩
  | case2 cursor notFound further ih =>
      obtain ⟨later, passed, ends⟩ := ih
      refine ⟨by omega, fun index fromHere before => ?_, ends⟩
      by_cases isHere : index = cursor
      · subst isHere
        simpa using notFound
      · exact passed index (by omega) before
  | case3 cursor notFound isLast =>
      exact ⟨Nat.le_refl _, fun _ _ _ => by omega, Or.inr (by omega)⟩

/-- A search that finds the end of the template always ends with something found. -/
theorem IsClosed.found_seek (closed : stream.IsClosed) (found : Token → Bool)
    (findsEnd : ∀ token : Token, token.kind = .eof → found token = true) (cursor : Nat) :
    found (stream.get (stream.seek found cursor)) = true := by
  obtain ⟨_, _, isFound | isLast⟩ := stream.seek_spec found cursor
  · exact isFound
  · refine findsEnd _ ?_
    rw [get_eq_last (by omega)]
    exact closed

/-- Inside a block tag the region stays the same and no text is told, up to the end of the tag. -/
theorem IsShaped.stretch_block (shaped : stream.IsShaped) (inOrder : start ≤ stop)
    (inBlock : stream.regionAt start = .block)
    (passed : ∀ index, start ≤ index → index < stop →
      ((stream.get index).kind.isCloser || (stream.get index).kind.isBoundary) = false) :
    stream.regionAt stop = .block ∧ Stretch stream [] start stop := by
  induction inOrder with
  | refl => exact ⟨inBlock, .refl _ _⟩
  | @step stop isLater ih =>
      obtain ⟨inBlockHere, soFar⟩ := ih fun index fromStart before =>
        passed index fromStart (Nat.lt_succ_of_lt before)
      have passedHere := passed stop isLater (Nat.lt_succ_self _)
      have notEnd : (stream.get stop).kind ≠ .eof := by
        intro isEnd
        simp [isEnd, Token.Kind.isBoundary] at passedHere
      have inside := shaped.closed.lt_size notEnd
      have allowed := shaped.allows (show stop < stream.size by omega)
      have regionNext := shaped.closed.regionAt_next notEnd
      have stretch := Stretch.single shaped.closed notEnd
      rw [shaped.closed.next_eq notEnd] at regionNext stretch
      rw [inBlockHere] at allowed regionNext stretch
      have isPart : (stream.get stop).kind.isInner = true ∨ (stream.get stop).kind = .data := by
        simp only [Region.allows, Bool.or_eq_true, decide_eq_true_eq, List.mem_cons,
          List.not_mem_nil, or_false] at allowed
        rcases allowed with inner | isData | isEnd | isEof
        · exact Or.inl inner
        · exact Or.inr isData
        · simp [isEnd, Token.Kind.isCloser] at passedHere
        · exact absurd isEof notEnd
      rcases isPart with inner | isData
      · rw [Region.after_of_isInner inner] at regionNext
        rw [Region.piece_of_isInner inner] at stretch
        exact ⟨regionNext, soFar.trans stretch⟩
      · rw [isData] at regionNext
        simp only [Region.piece, isData, Region.isTag] at stretch
        exact ⟨regionNext, soFar.trans stretch⟩

/-- Where a parse can be taken up, a statement may begin. -/
theorem IsShaped.isReady_of_isBoundary (shaped : stream.IsShaped)
    (boundary : (stream.get cursor).kind.isBoundary = true) : stream.IsReady cursor := by
  by_cases isEnd : (stream.get cursor).kind = .eof
  · exact Or.inr isEnd
  · have inside := shaped.closed.lt_size isEnd
    have allowed := shaped.allows (show cursor < stream.size by omega)
    have isOpener : (stream.get cursor).kind = .blockBegin ∨
        (stream.get cursor).kind = .variableBegin ∨ (stream.get cursor).kind = .commentBegin := by
      simpa [Token.Kind.isBoundary, isEnd] using boundary
    left
    rcases isOpener with isKind | isKind | isKind <;> rw [isKind] at allowed <;>
      cases region : stream.regionAt cursor <;>
        simp [region, Region.allows, Token.Kind.isInner, Region.isBetween] at allowed ⊢

end TokenStream

namespace Template

variable {stream : TokenStream}

/-- The contents of the runs of plain text of a template, at any depth and in order. -/
def contents (template : Template) : List String :=
  template.statements.filterMap Stmt.content?

theorem contents_eq (template : Template) :
    template.contents = template.body.flatMap Stmt.contents := by
  rw [contents, statements, List.filterMap_flatMap]
  rfl

/-- A tag is passed over up to its closing delimiter, and with it, or up to where the parse can be
taken up. -/
theorem exists_afterTag (closed : stream.IsClosed) (cursor : Nat) :
    ∃ stop, stream.next cursor ≤ stop ∧
      (∀ index, stream.next cursor ≤ index → index < stop →
        ((stream.get index).kind.isCloser || (stream.get index).kind.isBoundary) = false) ∧
      ((stream.get stop).kind.isCloser = true ∧ afterTag stream cursor = stream.next stop ∨
        (stream.get stop).kind.isBoundary = true ∧ afterTag stream cursor = stop) := by
  let sought (token : Token) : Bool := token.kind.isCloser || token.kind.isBoundary
  obtain ⟨later, passed, _⟩ := stream.seek_spec sought (stream.next cursor)
  have isFound : sought (stream.get (stream.seek sought (stream.next cursor))) = true :=
    closed.found_seek sought
      (fun token isEnd => by simp [sought, isEnd, Token.Kind.isBoundary]) _
  have sameStop : afterTag stream cursor =
      if (stream.get (stream.seek sought (stream.next cursor))).kind.isCloser then
        stream.next (stream.seek sought (stream.next cursor))
      else stream.seek sought (stream.next cursor) := rfl
  refine ⟨stream.seek sought (stream.next cursor), later, passed, ?_⟩
  rw [sameStop]
  split
  · next isCloser => exact Or.inl ⟨isCloser, rfl⟩
  · next notCloser => exact Or.inr ⟨by simpa [sought, notCloser] using isFound, rfl⟩

/-- A closing tag that is passed over tells nothing. -/
theorem afterTag_tells (shaped : stream.IsShaped) {cursor : Nat} {word : String}
    (isStray : strayTag? {} stream cursor = some word) :
    Stretch stream [] cursor (afterTag stream cursor) ∧ cursor < afterTag stream cursor ∧
      stream.IsReady (afterTag stream cursor) := by
  have isBlock : (stream.get cursor).kind = .blockBegin := by
    by_contra notBlock
    simp [strayTag?, notBlock] at isStray
  have notEnd : (stream.get cursor).kind ≠ .eof := by simp [isBlock]
  have opens : Stretch stream [] cursor (stream.next cursor) :=
    .silent shaped.closed notEnd (by simp [isBlock]) (by simp [isBlock])
  have further := shaped.closed.lt_next notEnd
  have inBlock : stream.regionAt (stream.next cursor) = .block := by
    rw [shaped.closed.regionAt_next notEnd, isBlock]
    rfl
  obtain ⟨stop, later, passed, ends⟩ := exists_afterTag shaped.closed cursor
  obtain ⟨stillInBlock, stretch⟩ := shaped.stretch_block later inBlock passed
  rcases ends with ⟨isCloser, isBehind⟩ | ⟨boundary, isThere⟩
  · rw [isBehind]
    have closes : (stream.get stop).kind ≠ .eof ∧ (stream.get stop).kind ≠ .data ∧
        (stream.get stop).kind ≠ .rawEnd := by
      refine ⟨?_, ?_, ?_⟩ <;> intro isKind <;> simp [isKind, Token.Kind.isCloser] at isCloser
    refine ⟨opens.trans (stretch.trans (.silent shaped.closed closes.1 closes.2.1 closes.2.2)),
      ?_, TokenStream.isReady_of_text ?_⟩
    · exact Nat.lt_of_lt_of_le further (Nat.le_trans later (stream.le_next _))
    · rw [shaped.closed.regionAt_next closes.1]
      simp only [Token.Kind.isCloser, decide_eq_true_eq, List.mem_cons, List.not_mem_nil,
        or_false] at isCloser
      rcases isCloser with isKind | isKind | isKind <;> rw [isKind] <;> rfl
  · rw [isThere]
    exact ⟨opens.trans stretch, Nat.lt_of_lt_of_le further later,
      shaped.isReady_of_isBoundary boundary⟩

/-- A parse is taken up between two items, not before the statement that failed. -/
theorem recoveryPoint_spec (shaped : stream.IsShaped) {start cursor : Nat}
    (later : start ≤ cursor) :
    start ≤ recoveryPoint stream start cursor ∧
      stream.IsReady (recoveryPoint stream start cursor) := by
  unfold recoveryPoint
  obtain ⟨further, _, _⟩ := stream.seek_spec (·.kind.isBoundary)
    (if cursor = start then stream.next cursor else cursor)
  constructor
  · refine Nat.le_trans ?_ further
    split
    · exact Nat.le_trans later (stream.le_next _)
    · exact later
  · refine shaped.isReady_of_isBoundary ?_
    exact shaped.closed.found_seek (·.kind.isBoundary)
      (fun token isEnd => by simp [isEnd, Token.Kind.isBoundary]) _

variable [Limits]

/-- What one step of a parse can make of the progress so far. -/
inductive Step (registry : Registry) (stream : TokenStream) (progress : Progress) :
    Progress → Prop where
  | stray {word : String} (isStray : strayTag? registry stream progress.place.cursor = some word) :
      Step registry stream progress { progress with
        place := { progress.place with cursor := afterTag stream progress.place.cursor }
        errors := progress.errors ++ [.violation (.strayAtTop word)
          (stream.get (stream.next progress.place.cursor)).span] }
  | statement {stmt : Option Stmt} {after : Place}
      (outcome : Stmt.parse registry stream progress.place = .ok stmt after) :
      Step registry stream progress { progress with
        place := after
        body := progress.body ++ stmt.toList }
  | recovered {error : SyntaxError} {after : Place}
      (outcome : Stmt.parse registry stream progress.place = .error error after) :
      Step registry stream progress { progress with
        place :=
          { after with cursor := recoveryPoint stream progress.place.cursor after.cursor }
        errors := progress.errors ++ [error] }
  | fatal {error : SyntaxError} {after : Place}
      (outcome : Stmt.parse registry stream progress.place = .error error after) :
      Step registry stream progress { progress with place := after, fatal := some error }

theorem parseNext_step (registry : Registry) (stream : TokenStream) (progress : Progress) :
    Step registry stream progress (parseNext registry stream progress) := by
  unfold parseNext
  dsimp only
  split
  · next isStray => exact .stray isStray
  · split
    · next outcome => exact .statement outcome
    · next outcome =>
      have step := Step.statement outcome
      rwa [Option.toList_none, List.append_nil] at step
    · next outcome =>
      split
      · exact .recovered outcome
      · exact .fatal outcome

section

variable {registry : Registry} {progress : Progress}

theorem parseNext_eq_of_stray {word : String}
    (isStray : strayTag? registry stream progress.place.cursor = some word) :
    parseNext registry stream progress = { progress with
      place := { progress.place with cursor := afterTag stream progress.place.cursor }
      errors := progress.errors ++ [.violation (.strayAtTop word)
        (stream.get (stream.next progress.place.cursor)).span] } := by
  simp only [parseNext, isStray]

theorem parseNext_eq_of_ok (notStray : strayTag? registry stream progress.place.cursor = none)
    {stmt : Option Stmt} {after : Place}
    (outcome : Stmt.parse registry stream progress.place = .ok stmt after) :
    parseNext registry stream progress =
      { progress with place := after, body := progress.body ++ stmt.toList } := by
  cases stmt with
  | none => simp [parseNext, notStray, outcome]
  | some stmt => simp [parseNext, notStray, outcome]

theorem parseNext_eq_of_error (notStray : strayTag? registry stream progress.place.cursor = none)
    {error : SyntaxError} {after : Place}
    (outcome : Stmt.parse registry stream progress.place = .error error after)
    (recoverable : error.isRecoverable = true) :
    parseNext registry stream progress = { progress with
      place := { after with cursor := recoveryPoint stream progress.place.cursor after.cursor }
      errors := progress.errors ++ [error] } := by
  simp only [parseNext, notStray, outcome, recoverable, if_true]

theorem parseNext_fatal_of_tooDeep
    (notStray : strayTag? registry stream progress.place.cursor = none) {levels : Nat} {span : Span}
    {after : Place}
    (outcome : Stmt.parse registry stream progress.place = .error (.tooDeep levels span) after) :
    (parseNext registry stream progress).fatal = some (.tooDeep levels span) := by
  have notRecoverable : (SyntaxError.tooDeep levels span).isRecoverable = false :=
    (SyntaxError.isRecoverable_eq_false_iff _).2 ⟨levels, span, rfl⟩
  simp [parseNext, notStray, outcome, notRecoverable]

theorem parseAll_eq_of_further (notEnd : (stream.get progress.place.cursor).kind ≠ .eof)
    (goesOn : (parseNext registry stream progress).fatal = none)
    (further : progress.place.cursor < (parseNext registry stream progress).place.cursor)
    (inside : progress.place.cursor < stream.size) :
    parseAll registry stream progress =
      parseAll registry stream (parseNext registry stream progress) := by
  rw [parseAll, if_neg notEnd]
  exact if_pos ⟨Option.isNone_iff_eq_none.2 goesOn, further, inside⟩

end

omit [Limits] in
/-- The only errors are closing tags without a block to close. -/
def OnlyStray (errors : List SyntaxError) : Prop :=
  ∀ error ∈ errors, error.isStray = true

omit [Limits] in
/-- The text of the statements so far and the text ahead make up the text of the template, as far
as none was dropped. -/
structure Progress.Keeps (stream : TokenStream) (progress : Progress) : Prop where
  ready : stream.IsReady progress.place.cursor
  sublist : List.Sublist
    (progress.body.flatMap Stmt.contents ++ stream.textFrom progress.place.cursor)
    (stream.textFrom 0)
  whole : OnlyStray progress.errors →
    progress.body.flatMap Stmt.contents ++ stream.textFrom progress.place.cursor =
      stream.textFrom 0

/-- A step keeps this and gets further, unless a statement fails; or it ends the parse. -/
theorem Step.keeps (shaped : stream.IsShaped) {progress next : Progress}
    (step : Step {} stream progress next) (keeps : progress.Keeps stream) :
    (next.Keeps stream ∧
        (OnlyStray next.errors → progress.place.cursor < next.place.cursor)) ∨
      (next.fatal ≠ none ∧ next.body = progress.body) := by
  cases step with
  | stray isStray =>
      obtain ⟨stretch, further, ready⟩ := afterTag_tells shaped isStray
      have sameText : stream.textFrom progress.place.cursor = stream.textFrom _ := stretch.tells
      refine Or.inl ⟨⟨ready, ?_, fun onlyStray => ?_⟩, fun _ => further⟩
      · simpa only [sameText] using keeps.sublist
      · rw [← sameText]
        exact keeps.whole fun error member => onlyStray error (by simp [member])
  | @statement stmt after outcome =>
      have told := Stmt.parse_tells shaped progress.place keeps.ready
      rw [outcome] at told
      obtain ⟨stretch, further, ready⟩ := told
      have sameText : (progress.body ++ stmt.toList).flatMap Stmt.contents ++
          stream.textFrom after.cursor =
          progress.body.flatMap Stmt.contents ++ stream.textFrom progress.place.cursor := by
        rw [stretch.tells]
        cases stmt <;> simp
      refine Or.inl ⟨⟨ready, ?_, fun onlyStray => ?_⟩, fun _ => further⟩
      · rw [sameText]
        exact keeps.sublist
      · rw [sameText]
        exact keeps.whole onlyStray
  | @recovered error after outcome =>
      have failed := Stmt.parse_tells shaped progress.place keeps.ready
      rw [outcome] at failed
      obtain ⟨later, ready⟩ := recoveryPoint_spec shaped failed.later
      -- An error of a statement is not about a stray tag, so nothing is claimed of the whole text.
      have notOnly : ¬OnlyStray (progress.errors ++ [error]) := fun onlyStray => by
        simpa [failed.own] using onlyStray error (by simp)
      refine Or.inl ⟨⟨ready, ?_, fun onlyStray => absurd onlyStray notOnly⟩,
        fun onlyStray => absurd onlyStray notOnly⟩
      refine .trans ?_ keeps.sublist
      exact (List.Sublist.refl _).append (TokenStream.textFrom_suffix later).sublist
  | fatal outcome => exact Or.inr ⟨by simp, rfl⟩

/-- The text of a parsed template: nothing but pieces of plain text in order, and all of them if no
statement failed. -/
theorem parseAll_keeps (shaped : stream.IsShaped) {progress : Progress}
    (keeps : progress.Keeps stream) :
    List.Sublist ((parseAll {} stream progress).body.flatMap Stmt.contents) (stream.textFrom 0) ∧
      ((parseAll {} stream progress).fatal = none →
        OnlyStray (parseAll {} stream progress).errors →
        (parseAll {} stream progress).body.flatMap Stmt.contents = stream.textFrom 0) := by
  fun_induction parseAll {} stream progress with
  | case1 progress atEnd =>
      refine ⟨(List.sublist_append_left _ _).trans keeps.sublist, fun _ onlyStray => ?_⟩
      have whole := keeps.whole onlyStray
      rwa [shaped.textFrom_eq_nil atEnd, List.append_nil] at whole
  | case2 progress notEnd next further ih =>
      rcases (parseNext_step {} stream progress).keeps shaped keeps with
        ⟨keepsNext, _⟩ | ⟨isFatal, _⟩
      · exact ih keepsNext
      · exact absurd (Option.isNone_iff_eq_none.1 further.1) isFatal
  | case3 progress notEnd next stays =>
      rcases (parseNext_step {} stream progress).keeps shaped keeps
        with ⟨keepsNext, progresses⟩ | ⟨isFatal, sameBody⟩
      · refine ⟨(List.sublist_append_left _ _).trans keepsNext.sublist, fun goesOn onlyStray => ?_⟩
        have inside := shaped.closed.lt_size notEnd
        exact absurd ⟨Option.isNone_iff_eq_none.2 goesOn, progresses onlyStray, by omega⟩ stays
      · refine ⟨?_, fun goesOn => absurd goesOn isFatal⟩
        rw [sameBody]
        exact (List.sublist_append_left _ _).trans keeps.sublist

end Template

/-- The stream of the tokens of a text is shaped as the tokens are, and tells their text. -/
theorem isShaped_of_tokenize [Limits] {dialect : Dialect} {sourceName : Option String}
    {source : String} {result : Tokenization}
    (cut : tokenize dialect sourceName source = some result) :
    (TokenStream.ofTokens result.tokens).IsShaped ∧
      (TokenStream.ofTokens result.tokens).textFrom 0 = Region.text.pieces result.tokens := by
  obtain ⟨shapes, afterAll⟩ := Lexer.shapes_of_tokenize cut
  have nonempty : result.tokens ≠ [] := by
    intro empty
    simp [empty] at afterAll
  obtain ⟨before, last, sameTokens⟩ : ∃ before last, result.tokens = before ++ [last] :=
    ⟨_, _, (List.dropLast_concat_getLast nonempty).symm⟩
  have isEnd : last.kind = .eof := by
    rw [sameTokens, Region.shapes_append] at shapes
    rw [sameTokens, Region.afterAll_append] at afterAll
    exact Region.eq_eof_of_after_eq_ended shapes.2.1 afterAll
  have sameClosed : Token.closed result.tokens = result.tokens := by
    simp [Token.closed, sameTokens, isEnd]
  have significant : (TokenStream.ofTokens result.tokens).significant.toList =
      result.tokens.filter (·.kind.isSignificant) := by
    simp [TokenStream.ofTokens, sameClosed]
  refine ⟨⟨?_, ?_⟩, ?_⟩
  · have lastToken : (TokenStream.ofTokens result.tokens).get
        ((TokenStream.ofTokens result.tokens).size - 1) = last := by
      have endsWith : result.tokens.filter (·.kind.isSignificant) =
          before.filter (·.kind.isSignificant) ++ [last] := by
        simp [sameTokens, isEnd, Token.Kind.isSignificant]
      exact TokenStream.get_last (significant.trans endsWith)
    rw [TokenStream.IsClosed, lastToken, isEnd]
  · rw [significant]
    exact shapes.filter
  · rw [TokenStream.textFrom, TokenStream.regionAt, significant]
    exact Region.pieces_filter _ _

/-- The runs of plain text of a parsed template are pieces of the plain text of its source, each at
most once and in order. If no error but stray closing tags was met, they are all of it. -/
theorem plain_text_kept [Limits] {dialect : Dialect} {sourceName : Option String} {source : String}
    {result : Tokenization} (cut : tokenize dialect sourceName source = some result)
    {template : Template} (parsed : (Template.parse {} (.ofTokens result.tokens)).result
      (.ofTokens result.tokens) = .ok template) :
    List.Sublist template.contents (Region.text.pieces result.tokens) ∧
    (Template.OnlyStray (Template.parse {} (.ofTokens result.tokens)).errors →
      template.contents = Region.text.pieces result.tokens ∧
      String.join template.contents =
        String.join ((Region.text.plainTokens result.tokens).map Token.text)) := by
  obtain ⟨shaped, sameText⟩ := isShaped_of_tokenize cut
  have start : Template.Progress.Keeps (.ofTokens result.tokens) {} :=
    ⟨TokenStream.isReady_of_text rfl, List.Sublist.refl _, fun _ => rfl⟩
  obtain ⟨sublist, whole⟩ := Template.parseAll_keeps shaped start
  have sameBody : template.body = (Template.parse {} (.ofTokens result.tokens)).body ∧
      (Template.parse {} (.ofTokens result.tokens)).fatal = none := by
    unfold Template.Progress.result at parsed
    split at parsed
    · cases parsed
    · next notFatal =>
      cases parsed
      exact ⟨rfl, notFatal⟩
  rw [Template.contents_eq, sameBody.1, ← sameText]
  refine ⟨sublist, fun onlyStray => ?_⟩
  have isWhole := whole sameBody.2 onlyStray
  refine ⟨isWhole, ?_⟩
  rw [← Region.join_pieces, ← sameText]
  exact congrArg String.join isWhole

set_option maxRecDepth 10000 in
/-- The second of two closing tags has no block to close, and all three runs of text are kept. -/
theorem plain_text_kept_stray_tag : ∃ result template,
    tokenize {} none "a\x7b% if b %\x7dc\x7b% endif %\x7d\x7b% endif %\x7dd" = some result ∧
    (Template.parse {} (.ofTokens result.tokens)).result (.ofTokens result.tokens) =
      .ok template ∧
    Template.OnlyStray (Template.parse {} (.ofTokens result.tokens)).errors ∧
    template.contents = ["a", "c", "d"] := by
  have evaluated : (tokenize {} none
      "a\x7b% if b %\x7dc\x7b% endif %\x7d\x7b% endif %\x7dd").map (fun result =>
        ((Template.parse {} (.ofTokens result.tokens)).fatal,
          (Template.parse {} (.ofTokens result.tokens)).errors.all SyntaxError.isStray,
          Region.text.pieces result.tokens)) = some (none, true, ["a", "c", "d"]) := by
    cbv
  obtain ⟨result, cut, values⟩ := Option.map_eq_some_iff.1 evaluated
  simp only [Prod.mk.injEq] at values
  obtain ⟨notFatal, onlyStray, pieces⟩ := values
  have parsed : (Template.parse {} (.ofTokens result.tokens)).result (.ofTokens result.tokens) =
      .ok ⟨(Template.parse {} (.ofTokens result.tokens)).body,
        (TokenStream.ofTokens result.tokens).sourceName⟩ := by
    rw [Template.Progress.result, notFatal]
  have isStray : Template.OnlyStray (Template.parse {} (.ofTokens result.tokens)).errors :=
    List.all_eq_true.1 onlyStray
  exact ⟨result, _, cut, parsed, isStray,
    ((plain_text_kept cut parsed).2 isStray).1.trans pieces⟩

end Stencil

import Stencil.Profiles
import Stencil.Proofs.Lexer.Occurrences
import Stencil.Proofs.Lexer.RawBlocks

/-!
# Openings that are found

Plain text is taken up to the next place where something opens. All along a walk, nothing opens
between the start of a run of plain text and the token after it, and each token that opens a tag,
a comment or a raw block was taken where its opening was found.
-/

namespace Stencil

namespace Lexer

variable {dialect : Dialect} {sourceName : Option String} {state last : State} {region : Region}
  {tokens earlier : List Token} {token : Token} {source before after text : List Char}
  {start stop : Nat}

/-! ### Runs of plain text -/

/-- A line starts after a text. -/
def StartsLine (before : List Char) : Prop :=
  before = [] ∨ before.getLast? = some '\n'

instance : Decidable (StartsLine before) :=
  inferInstanceAs (Decidable (_ ∨ _))

theorem startsLine_append (nonempty : text ≠ []) :
    StartsLine (before ++ text) ↔ text.getLast? = some '\n' := by
  rw [StartsLine, List.append_eq_nil_iff, List.getLast?_append_of_ne_nil _ nonempty]
  simp [nonempty]

theorem startsLine_iff (before : List Char) :
    StartsLine before ↔ (Position.start.advanceOver before).column = 1 := by
  by_cases empty : before = []
  · simp [StartsLine, empty, Position.start]
  · rw [Position.column_advanceOver_eq_one Nat.one_pos empty, StartsLine, or_iff_right empty]

variable [Limits]

/-- Nothing opens within the plain text after a character. -/
theorem opening?_eq_none_of_plainLengthAfter {previous : Char}
    (inside : before.length < plainLengthAfter dialect previous (before ++ after)) :
    opening? dialect ((previous :: before).getLast? = some '\n') after = none := by
  induction before generalizing previous with
  | nil =>
      cases after with
      | nil => simp [plainLengthAfter] at inside
      | cons char after =>
          rw [List.nil_append, plainLengthAfter] at inside
          split at inside
          · simp at inside
          · next closed => simpa using closed
  | cons char before ih =>
      rw [List.cons_append, plainLengthAfter] at inside
      split at inside
      · simp at inside
      · rw [List.getLast?_cons_cons]
        exact ih (by simpa using inside)

/-- Nothing opens within a run of plain text. -/
theorem opening?_eq_none_of_plainLength
    (notOpening : opening? dialect (StartsLine before) (text ++ after) = none)
    (inside : text.length < plainLength dialect (text ++ after)) :
    opening? dialect (StartsLine (before ++ text)) after = none := by
  cases text with
  | nil => simpa using notOpening
  | cons char text =>
      rw [List.cons_append, plainLength, List.length_cons, Nat.add_lt_add_iff_right] at inside
      simp only [startsLine_append (List.cons_ne_nil char text)]
      exact opening?_eq_none_of_plainLengthAfter inside

/-- Nothing opens in a source at any place from one offset on and before another. -/
def ClearBetween (dialect : Dialect) (source : List Char) (start stop : Nat) : Prop :=
  ∀ before after, source = before ++ after → start ≤ Text.byteLength before →
    Text.byteLength before < stop → opening? dialect (StartsLine before) after = none

theorem clearBetween_plainLength
    (notOpening : opening? dialect (StartsLine before) text = none) :
    ClearBetween dialect (before ++ text) (Text.byteLength before)
      (Text.byteLength (before ++ text.take (plainLength dialect text))) := by
  intro front after split fromStart beforeStop
  obtain ⟨plain, rfl, rfl⟩ : ∃ plain, front = before ++ plain ∧ text = plain ++ after := by
    rcases List.append_eq_append_iff.1 split with ⟨plain, isFront, isText⟩ |
      ⟨more, isBefore, isAfter⟩
    · exact ⟨plain, isFront, isText⟩
    · have noMore : more = [] := by
        by_contra nonempty
        have := Text.byteLength_pos nonempty
        rw [isBefore, Text.byteLength_append] at fromStart
        omega
      exact ⟨[], by simp [isBefore, noMore], by simp [isAfter, noMore]⟩
  apply opening?_eq_none_of_plainLength notOpening
  by_contra notInside
  rw [Text.byteLength_append, Text.byteLength_append, Nat.add_lt_add_iff_left,
    List.take_append_of_le_length (Nat.not_lt.1 notInside)] at beforeStop
  have whole := Text.byteLength_append (plain.take (plainLength dialect (plain ++ after)))
    (plain.drop (plainLength dialect (plain ++ after)))
  rw [List.take_append_drop] at whole
  omega

/-! ### Plain text along a walk -/

/-- Nothing opens between the start of a run of plain text and the token after it. The tokens are
given last one first; what comes after the last one stands at an offset. -/
def Clear (dialect : Dialect) (source : List Char) : Nat → List Token → Prop
  | _, [] => True
  | stop, token :: earlier =>
    (token.kind = .data → (Region.text.afterAll earlier.reverse).isBetween = true →
      ClearBetween dialect source token.position.offset stop) ∧
    Clear dialect source token.position.offset earlier

namespace Clear

theorem of_append {later : List Token} (clear : Clear dialect source stop (later ++ tokens)) :
    ∃ stop, Clear dialect source stop tokens := by
  induction later generalizing stop with
  | nil => exact ⟨stop, clear⟩
  | cons token later ih => exact ih clear.2

/-- If the last token is no run of plain text, it does not matter what comes next. -/
theorem of_ne_plain (clear : Clear dialect source stop tokens) (leads : LeadsTo tokens region)
    (notPlain : region ≠ .plain) (other : Nat) : Clear dialect source other tokens := by
  cases tokens with
  | nil => trivial
  | cons token earlier =>
      refine ⟨fun isData isBetween => absurd ?_ notPlain, clear.2⟩
      rcases leads.exists_of_cons with ⟨region, leadsBefore, _, rfl⟩
      rw [leadsBefore.afterAll] at isBetween
      rw [isData]
      cases region <;> simp [Region.isBetween, Region.after] at isBetween ⊢

/-- A token that is no run of plain text may be taken anywhere. -/
theorem cons (clear : Clear dialect source token.position.offset tokens)
    (leads : LeadsTo tokens region)
    (notPlain : token.kind = .data → region.isBetween = false) (other : Nat) :
    Clear dialect source other (token :: tokens) := by
  refine ⟨fun isData isBetween => ?_, clear⟩
  rw [leads.afterAll, notPlain isData] at isBetween
  simp at isBetween

theorem stripTokens (clear : Clear dialect source stop tokens) (leads : LeadsTo tokens region)
    (strip : Bool) : Clear dialect source stop (Lexer.stripTokens strip tokens) := by
  cases tokens with
  | nil => trivial
  | cons last earlier =>
      rw [Lexer.stripTokens]
      split
      · next isStripped =>
        rcases leads.exists_of_cons with ⟨region, leadsBefore, allowed, rfl⟩
        unfold State.trimmed
        split
        · refine clear.2.of_ne_plain leadsBefore ?_ stop
          rintro rfl
          simp [isStripped.2, Region.allows] at allowed
        · exact clear
      · exact clear

end Clear

section

variable (inRegion : InRegion dialect state region)
  (isClear : Clear dialect source state.position.offset state.tokens)

include inRegion isClear

/-- What opens something, or closes a raw block, may take back blanks from the token before it. -/
theorem clear_strip_emit (strip : Bool) {kind : Token.Kind} (notData : kind ≠ .data)
    (count other : Nat) :
    Clear dialect source other ((state.stripLast strip).emit sourceName kind count).tokens := by
  rcases inRegion.leads.stripLast strip with ⟨_, leads, _⟩
  have stripped := isClear.stripTokens inRegion.leads strip
  rw [stripLast_eq] at leads ⊢
  exact Clear.cons stripped leads (fun isData => absurd isData notData) other

/-- A step that takes no run of plain text. -/
theorem Move.clear {next : State} (move : Move dialect sourceName state next)
    (nonempty : state.rest ≠ []) (notPlain : state.mode = .text false false →
      opening? dialect (state.position.column = 1) state.rest ≠ none) :
    Clear dialect source next.position.offset next.tokens := by
  have leads := inRegion.leads
  have isMatch := inRegion.isMatch
  have emit {kind : Token.Kind} (notData : kind ≠ .data) (count other : Nat) :
      Clear dialect source other (state.emit sourceName kind count).tokens :=
    Clear.cons isClear leads (fun isData => absurd isData notData) other
  cases move with
  | dropNewline inText =>
      have isText := inRegion.eq_text inText nonempty (Or.inl rfl)
      rw [skipNewline_eq]
      exact isClear.of_ne_plain leads (by simp [isText]) _
  | dropBlanks inText =>
      have isText := inRegion.eq_text inText nonempty (Or.inr rfl)
      exact isClear.of_ne_plain leads (by simp [isText]) _
  | dropRawBlanks inRaw =>
      rw [State.Matches, inRaw] at isMatch
      exact isClear.of_ne_plain leads (by simp [isMatch]) _
  | openTag start strip =>
      have notData : start.kind ≠ .data := by
        rcases start with _ | _ | _ <;> simp [Start.kind]
      exact clear_strip_emit inRegion isClear strip notData _ _
  | openRaw | closeEmptyRaw => exact clear_strip_emit inRegion isClear _ (by simp) _ _
  | plain inText _ _ notOpening => exact absurd notOpening (notPlain inText)
  | @closeTag kind =>
      have notData : (closer dialect kind).2 ≠ .data := by
        rcases kind with _ | _ | _ <;> simp [closer]
      exact emit notData _ _
  | lexeme _ _ _ inner =>
      refine emit ?_ _ _
      rintro rfl
      exact absurd inner (by decide)
  | @strayChar tag _ _ _ inTag =>
      rw [State.Matches, inTag] at isMatch
      refine Clear.cons isClear leads (fun _ => ?_) _
      rcases tag with _ | _ | _ <;> exact isMatch ▸ rfl
  | @closeComment _ _ body _ inComment =>
      rw [State.Matches, inComment] at isMatch
      subst isMatch
      have isBody : LeadsTo (state.emit sourceName .comment body.length).tokens _ :=
        leads.emit rfl _
      exact Clear.cons (emit (by simp) _ _) isBody (by simp) _
  | @closeRaw _ tag content _ _ inRaw =>
      rw [State.Matches, inRaw] at isMatch
      subst isMatch
      have isBody : LeadsTo (state.emit sourceName .data content.length).tokens _ :=
        leads.emit rfl _
      have bodyClear : Clear dialect source
          (state.emit sourceName .data content.length).position.offset
          (state.emit sourceName .data content.length).tokens :=
        Clear.cons isClear leads (fun _ => rfl) _
      rcases isBody.stripLast tag.stripBefore with ⟨_, leads, _⟩
      have stripped := bodyClear.stripTokens isBody tag.stripBefore
      rw [stripLast_eq] at leads ⊢
      exact Clear.cons stripped leads (by simp) _
  | unclosedRaw inRaw =>
      rw [State.Matches, inRaw] at isMatch
      exact Clear.cons isClear leads (fun _ => isMatch ▸ rfl) _
  | _ => exact emit (by simp) _ _

theorem step_clear (nonempty : state.rest ≠ []) (shows : source = before ++ state.rest)
    (placed : state.position = Position.start.advanceOver before) :
    Clear dialect source (step dialect sourceName state).position.offset
      (step dialect sourceName state).tokens := by
  by_cases isPlain : state.mode = .text false false ∧
      opening? dialect (state.position.column = 1) state.rest = none
  · rcases isPlain with ⟨inText, notOpening⟩
    have sameStep : step dialect sourceName state =
        state.emit sourceName .data (plainLength dialect state.rest) := by
      rw [step_of_text inText]
      simp only [stepText, Bool.false_eq_true, if_false, notOpening]
    rw [sameStep]
    refine ⟨fun _ _ => ?_, isClear⟩
    have plainClear := @clearBetween_plainLength dialect before state.rest _ (by
      simpa only [startsLine_iff, ← placed] using notOpening)
    have sameStart : state.position.offset = Text.byteLength before := by
      rw [placed, Position.offset_start_advanceOver]
    have sameStop : (state.emit sourceName .data
        (plainLength dialect state.rest)).position.offset =
        Text.byteLength (before ++ state.rest.take (plainLength dialect state.rest)) := by
      rw [State.emit, State.skip, Position.offset_advanceOver, sameStart, Text.byteLength_append]
    rw [sameStop, shows]
    exact sameStart.symm ▸ plainClear
  · have move : Move dialect sourceName state (step dialect sourceName state) :=
      step_move nonempty
    exact move.clear inRegion isClear nonempty fun inText notOpening =>
      isPlain ⟨inText, notOpening⟩

theorem finish_clear : ∃ stop, Clear dialect source stop (finish sourceName state).tokens := by
  have leads := inRegion.leads
  have isMatch := inRegion.isMatch
  rcases state with ⟨mode, position, rest, tokens, diagnostics⟩
  have emit (kind : Token.Kind) (notData : kind ≠ .data) (other : Nat) :
      Clear dialect source other (⟨kind, "", position, sourceName⟩ :: tokens) :=
    Clear.cons isClear leads (fun isData => absurd isData notData) other
  have emitTwice (kind : Token.Kind) (notData : kind ≠ .data)
      (allowed : region.allows kind = true) :
      Clear dialect source 0 (⟨.eof, "", position, sourceName⟩ ::
        ⟨kind, "", position, sourceName⟩ :: tokens) := by
    have leads : LeadsTo (⟨kind, "", position, sourceName⟩ :: tokens) (region.after kind) :=
      leads.cons allowed
    exact Clear.cons (emit kind notData _) leads (by simp) _
  rcases mode with _ | ⟨_ | _ | _, _⟩ | _ | _
  · exact ⟨0, emit .eof (by simp) _⟩
  · exact ⟨0, emit .eof (by simp) _⟩
  · exact ⟨0, emitTwice .blockEnd (by simp) (isMatch ▸ rfl)⟩
  · exact ⟨0, emit .eof (by simp) _⟩
  · exact ⟨0, emitTwice .comment (by simp) (isMatch ▸ rfl)⟩
  · exact ⟨0, emit .eof (by simp) _⟩

end

theorem clear_of_walks
    (walks : Relation.ReflTransGen (StepsTo dialect sourceName) (.ofSource source) last) :
    (∃ region, InRegion dialect last region) ∧
      Clear dialect source last.position.offset last.tokens := by
  induction walks with
  | refl => exact ⟨⟨.text, ⟨trivial, rfl⟩, Or.inl rfl, Nat.one_pos⟩, trivial⟩
  | @tail state _ walks stepsTo ih =>
      rcases stepsTo with ⟨nonempty, rfl⟩
      rcases ih with ⟨⟨region, inRegion⟩, clear⟩
      rcases exists_before_of_walks walks with ⟨before, shows, placed⟩
      have move : Move dialect sourceName state (step dialect sourceName state) :=
        step_move nonempty
      exact ⟨move.inRegion nonempty inRegion, step_clear inRegion clear nonempty shows placed⟩

/-- After a run of plain text there is a token, and nothing opens before it. -/
theorem exists_clearBetween_of_tokenize {source : String} {result : Tokenization}
    {earlier later : List Token} (cut : tokenize dialect sourceName source = some result)
    (split : result.tokens = earlier ++ token :: later) (isData : token.kind = .data)
    (isBetween : (Region.text.afterAll earlier).isBetween = true) : ∃ next others,
      later = next :: others ∧
      ClearBetween dialect source.toList token.position.offset next.position.offset := by
  have shapes := shapes_of_tokenize cut
  rcases exists_walks_of_tokenize cut with ⟨last, walks, _, rfl⟩
  rcases clear_of_walks walks with ⟨⟨_, inRegion⟩, clear⟩
  rcases @finish_clear _ sourceName _ _ _ _ inRegion clear with ⟨stop, clear⟩
  cases later with
  | nil =>
      have ends := shapes.2
      rw [split, Region.afterAll_append] at ends
      generalize Region.text.afterAll earlier = region at isBetween ends
      change region.after token.kind = .ended at ends
      rw [isData] at ends
      cases region <;> simp [Region.isBetween, Region.after] at isBetween ends
  | cons next others =>
      refine ⟨next, others, rfl, ?_⟩
      have sameTokens : (finish sourceName last).tokens =
          others.reverse ++ next :: token :: earlier.reverse := by
        rw [← List.reverse_reverse (finish sourceName last).tokens]
        change (last.result sourceName).tokens.reverse = _
        rw [split]
        simp
      rw [sameTokens] at clear
      rcases clear.of_append with ⟨_, clear⟩
      exact clear.2.1 isData (by rwa [List.reverse_reverse])

/-! ### Tokens that open something -/

namespace Opening

omit [Limits] in
/-- The kind of the token that an opening is taken as. -/
def kind : Opening → Token.Kind
  | .block _ _ | .lineStatement _ => .blockBegin
  | .raw _ => .rawBegin
  | .variable _ _ => .variableBegin
  | .comment _ _ => .commentBegin
  | .lineComment _ => .lineComment

omit [Limits] in
/-- The number of characters of the token that an opening is taken as. -/
def length : Opening → Nat
  | .block length _ | .variable length _ | .comment length _ => length
  | .lineStatement length | .lineComment length => length
  | .raw tag => tag.length

omit [Limits] in
/-- Whether an opening asks for the blanks before it to be dropped. -/
def strip : Opening → Bool
  | .block _ strip | .variable _ strip | .comment _ strip => strip
  | .lineStatement _ | .lineComment _ => false
  | .raw tag => tag.stripBefore

end Opening

omit [Limits] in
theorem openWith_tokens (opening : Opening) (state : State) :
    (openWith sourceName opening state).tokens =
      ⟨opening.kind, String.ofList (state.rest.take opening.length), state.position,
        sourceName⟩ :: stripTokens opening.strip state.tokens := by
  rcases opening with _ | _ | _ | _ | _ | _
  case lineStatement | lineComment => rw [Opening.strip, stripTokens_false]; rfl
  all_goals
    simp only [openWith, State.enter_tokens, State.emit, stripLast_eq]
    rfl

omit [Limits] in
/-- Kinds of token that open a tag, a comment or a raw block. -/
def opensItem (kind : Token.Kind) : Bool :=
  kind ∈ [.blockBegin, .variableBegin, .commentBegin, .rawBegin]

omit [Limits] in
theorem ne_data_of_opensItem {kind : Token.Kind} (opens : opensItem kind = true) :
    kind ≠ .data := by
  rintro rfl
  simp [opensItem] at opens

/-- Nothing is opened except in plain text. -/
theorem Move.mem_of_opensItem {next : State} (move : Move dialect sourceName state next)
    (notText : state.mode ≠ .text false false) (member : token ∈ next.tokens)
    (opens : opensItem token.kind = true) : token ∈ state.tokens := by
  have notData := ne_data_of_opensItem opens
  have earlier {tokens : List Token} {other : Token} (closed : opensItem other.kind = false)
      (member : token ∈ other :: tokens) : token ∈ tokens := by
    rcases List.mem_cons.1 member with rfl | earlier
    · simp [closed] at opens
    · exact earlier
  have unstripped {state : State} {strip : Bool} (member : token ∈ (state.stripLast strip).tokens) :
      token ∈ state.tokens := by
    rw [stripLast_eq] at member
    exact mem_of_mem_stripTokens member notData
  cases move with
  | openTag _ _ inText | openRaw inText | openLine inText | lineComment inText | plain inText =>
      exact absurd inText notText
  | dropNewline =>
      rw [skipNewline_eq] at member
      exact member
  | dropBlanks | dropRawBlanks => exact member
  | closeEmptyRaw => exact unstripped (earlier rfl member)
  | closeRaw => exact earlier rfl (unstripped (earlier rfl member))
  | closeComment => exact earlier rfl (earlier rfl member)
  | @closeTag kind =>
      refine earlier ?_ member
      rcases kind with _ | _ | _ <;> rfl
  | @lexeme _ _ _ _ _ kind _ _ _ inner =>
      refine earlier ?_ member
      cases kind <;> first | rfl | simp [Token.Kind.isInner] at inner
  | _ => exact earlier rfl member

/-- A token was taken where an opening was found in a source. -/
def OpensIn (dialect : Dialect) (source : List Char) (token : Token) : Prop :=
  ∃ before after opening, source = before ++ after ∧
    token.position = Position.start.advanceOver before ∧
    opening? dialect (StartsLine before) after = some opening ∧
    token.kind = opening.kind ∧ token.text.toList = after.take opening.length

theorem opensIn_of_walks
    (walks : Relation.ReflTransGen (StepsTo dialect sourceName) (.ofSource source) last) :
    ∀ token ∈ last.tokens, opensItem token.kind = true → OpensIn dialect source token := by
  induction walks with
  | refl => simp [State.ofSource]
  | @tail state _ walks stepsTo ih =>
      rcases stepsTo with ⟨nonempty, rfl⟩
      intro token member opens
      by_cases inText : state.mode = .text false false
      · rw [step_of_text inText] at member
        simp only [stepText, Bool.false_eq_true, if_false] at member
        split at member
        · next opening found =>
          rw [openWith_tokens] at member
          rcases List.mem_cons.1 member with rfl | isEarlier
          · rcases exists_before_of_walks walks with ⟨before, shows, placed⟩
            refine ⟨before, state.rest, opening, shows, placed, ?_, rfl, String.toList_ofList⟩
            simpa only [startsLine_iff, ← placed] using found
          · exact ih token (mem_of_mem_stripTokens isEarlier (ne_data_of_opensItem opens)) opens
        · rcases List.mem_cons.1 member with rfl | isEarlier
          · simp [opensItem] at opens
          · exact ih token isEarlier opens
      · have move : Move dialect sourceName state (step dialect sourceName state) :=
          step_move nonempty
        exact ih token (move.mem_of_opensItem inText member opens) opens

theorem opensIn_of_tokenize {source : String} {result : Tokenization}
    (cut : tokenize dialect sourceName source = some result) (member : token ∈ result.tokens)
    (opens : opensItem token.kind = true) : OpensIn dialect source.toList token := by
  rcases exists_walks_of_tokenize cut with ⟨last, walks, _, rfl⟩
  rcases exists_finish_tokens sourceName last with ⟨closing, sameTokens, isClosing⟩
  refine opensIn_of_walks walks token ?_ opens
  rw [State.result, List.mem_reverse, sameTokens, List.mem_append] at member
  refine member.resolve_left fun closes => ?_
  have := isClosing token closes
  simp only [List.mem_cons, List.not_mem_nil, or_false] at this
  rcases this with isKind | isKind | isKind <;> simp [isKind, opensItem] at opens

/-! ### Delimiters and line prefixes -/

/-- How a token that opens something stands in a source: after an indent it is the prefix of line
statements, or it begins with the longest of the start delimiters at its place. -/
inductive IsOpener (dialect : Dialect) (source : List Char) (token : Token) : Prop where
  | line {before indent after : List Char} {marker : String}
      (isMarker : dialect.lineStatement = some marker)
      (shows : source = before ++ (indent ++ marker.toList ++ after))
      (placed : token.position = Position.start.advanceOver before)
      (startsLine : StartsLine before) (areIndent : indent.all isIndent = true)
      (withinBudget : indent.length ≤ indentBudget) (isKind : token.kind = .blockBegin)
      (isText : token.text.toList = indent ++ marker.toList)
  | delimiter {before after : List Char} {start : Start} (shows : source = before ++ after)
      (placed : token.position = Position.start.advanceOver before)
      (notLine : StartsLine before → ¬ShowsLine dialect after)
      (longest : Longest dialect after start)
      (begins : start.delimiter dialect <+: token.text.toList)
      (isRaw_iff : token.kind = .rawBegin ↔ start = .block ∧ OpensRaw dialect after)
      (isOther : token.kind ≠ .rawBegin → token.kind = start.kind)

omit [Limits] in
theorem Start.kind_opening (start : Start) (length : Nat) (strip : Bool) :
    (start.opening length strip).kind = start.kind ∧
      (start.opening length strip).length = length := by
  rcases start with _ | _ | _ <;> exact ⟨rfl, rfl⟩

theorem OpensIn.isOpener (sound : dialect.Sound) (opensIn : OpensIn dialect source token)
    (opens : opensItem token.kind = true) : IsOpener dialect source token := by
  rcases opensIn with ⟨before, after, opening, shows, placed, found, sameKind, sameText⟩
  rcases Option.or_eq_some_iff.1 found with foundLine | ⟨noLine, foundDelimiter⟩
  · obtain ⟨startsLine, foundLine⟩ :
        StartsLine before ∧ linePrefix? dialect after = some opening := by
      split at foundLine
      · next startsLine => exact ⟨by simpa using startsLine, foundLine⟩
      · simp at foundLine
    rcases exists_marker_of_linePrefix? foundLine with ⟨withinBudget, marker, _, fits, isStatement⟩
    rcases linePrefix?_eq_some foundLine with ⟨_, _, _, _, isLine | isComment⟩
    · rcases isLine with ⟨_, _, _, _, sameOpening⟩
      rcases isStatement _ sameOpening with ⟨isMarker, sameLength⟩
      rcases fits with ⟨rest, sameRest⟩
      have split : after = after.takeWhile isIndent ++ marker.toList ++ rest := by
        rw [List.append_assoc, sameRest, List.takeWhile_append_dropWhile]
      refine .line isMarker (shows.trans (congrArg (before ++ ·) split)) placed startsLine
        List.all_takeWhile withinBudget (sameKind.trans (sameOpening ▸ rfl)) ?_
      rw [sameText, sameOpening, Opening.length, sameLength]
      exact (List.prefix_iff_eq_take.1 ⟨rest, split.symm⟩).symm
    · rcases isComment with ⟨_, _, _, _, _, _, _, sameOpening⟩
      rw [sameKind, sameOpening] at opens
      simp [opensItem, Opening.kind] at opens
  · have notLine (startsLine : StartsLine before) : ¬ShowsLine dialect after := by
      rw [← isSome_linePrefix?_iff sound, Option.not_isSome_iff_eq_none]
      simpa [startsLine] using noLine
    rcases exists_longest_of_delimiter? sound foundDelimiter with ⟨start, longest, begins⟩
    cases begins with
    | @raw tag rest isBlock fits =>
        refine .delimiter shows placed notLine longest ?_ ⟨fun _ => ⟨isBlock, tag, rest, fits⟩,
          fun _ => sameKind⟩ fun notRaw => absurd sameKind notRaw
        rcases fits.exists_text with ⟨written, rfl, sameLength, starts, _⟩
        rw [sameText, Opening.length, sameLength, List.take_left, isBlock]
        exact (List.prefix_append _ _).trans starts
    | @other strip rest notRaw showsDelimiter =>
        rcases start.kind_opening (start.delimiter dialect ++ dash strip).length strip with
          ⟨isKind, isLength⟩
        rw [isKind] at sameKind
        rw [isLength, showsDelimiter, List.take_left] at sameText
        have notRawKind : token.kind ≠ .rawBegin := by
          rw [sameKind]
          rcases start with _ | _ | _ <;> simp [Start.kind]
        exact .delimiter shows placed notLine longest (sameText ▸ List.prefix_append _ _)
          ⟨fun isRaw => absurd isRaw notRawKind, fun isRaw => absurd isRaw notRaw⟩
          fun _ => sameKind

end Lexer

open Lexer

/-- No opening is missed, except that a line prefix which begins with a space or a tab is never
seen: within a run of plain text there is no start delimiter, and no line prefix where a line
starts. What opens something is the prefix of line statements after an indent, or else the longest
of the start delimiters, which opens a raw block exactly at a whole tag around the word `raw`. -/
theorem openings_found [Limits] {dialect : Dialect} {sourceName : Option String} {source : String}
    {result : Tokenization} (sound : dialect.Sound)
    (cut : tokenize dialect sourceName source = some result) :
    (∀ before token after, result.tokens = before ++ token :: after → token.kind = .data →
      (Region.text.afterAll before).isBetween = true → ∃ next later, after = next :: later ∧
        ∀ front rest, source.toList = front ++ rest →
          token.position.offset ≤ Text.byteLength front →
          Text.byteLength front < next.position.offset →
          (∀ start : Start, ¬start.delimiter dialect <+: rest) ∧
            (StartsLine front → ∀ marker, dialect.IsLinePrefix marker →
              ShowsPrefix marker.toList rest → IsIndented marker)) ∧
    ∀ token ∈ result.tokens,
      token.kind ∈ [.blockBegin, .variableBegin, .commentBegin, .rawBegin] →
        IsOpener dialect source.toList token := by
  refine ⟨fun before token after split isData isBetween => ?_, fun token member opens => ?_⟩
  · rcases exists_clearBetween_of_tokenize cut split isData isBetween with
      ⟨next, later, rfl, isClear⟩
    refine ⟨next, later, rfl, fun front rest shows fromStart beforeNext => ?_⟩
    rcases (opening?_eq_none_iff sound).1 (isClear front rest shows fromStart beforeNext) with
      ⟨noDelimiter, noLine⟩
    refine ⟨noDelimiter, fun startsLine marker isMarker showsPrefix => ?_⟩
    by_contra notIndented
    exact noLine (by simpa using startsLine) ⟨marker, isMarker, notIndented, showsPrefix⟩
  · have isOpener : opensItem token.kind = true := by simpa [opensItem] using opens
    exact (opensIn_of_tokenize cut member isOpener).isOpener sound isOpener

/-- Plain text before a print tag whose delimiter begins with the one of block tags. -/
theorem openings_found_longest :
    let dialect : Dialect := { blockStart := "<%", variableStart := "<%=" }
    dialect.Sound ∧ ∃ result data opener later,
      tokenize dialect none "a<%=x" = some result ∧ result.tokens = data :: opener :: later ∧
      data.lexeme = ⟨.data, "a"⟩ ∧ opener.lexeme = ⟨.variableBegin, "<%="⟩ ∧
      (∀ front rest, "a<%=x".toList = front ++ rest → data.position.offset ≤ Text.byteLength front →
        Text.byteLength front < opener.position.offset →
        ∀ start : Start, ¬start.delimiter dialect <+: rest) ∧
      IsOpener dialect "a<%=x".toList opener := by
  intro dialect
  have sound : dialect.Sound := by decide
  have cut : (tokenize dialect none "a<%=x").map (fun result => result.tokens.map Token.lexeme) =
      some [⟨.data, "a"⟩, ⟨.variableBegin, "<%="⟩, ⟨.name, "x"⟩, ⟨.eof, ""⟩] := by
    cbv
  rcases Option.map_eq_some_iff.1 cut with ⟨result, isResult, same⟩
  rcases List.map_eq_cons_iff.1 same with ⟨data, _, split, sameData, same⟩
  rcases List.map_eq_cons_iff.1 same with ⟨opener, later, rfl, sameOpener, _⟩
  have isData : data.kind = .data := congrArg Lexeme.kind sameData
  have isVariable : opener.kind = .variableBegin := congrArg Lexeme.kind sameOpener
  rcases openings_found sound isResult with ⟨runs, openers⟩
  rcases runs [] data _ split isData rfl with ⟨_, _, sameNext, isClear⟩
  cases sameNext
  refine ⟨sound, result, data, opener, later, isResult, split, sameData, sameOpener,
    fun front rest shows fromStart beforeNext => (isClear front rest shows fromStart beforeNext).1,
    openers opener (by simp [split]) (by simp [isVariable])⟩

/-- A line prefix that begins with a space is taken for plain text. -/
theorem indented_prefix_missed :
    let dialect : Dialect := { lineStatement := " #" }
    dialect.Sound ∧ dialect.IsLinePrefix " #" ∧ StartsLine [] ∧
      ShowsPrefix " #".toList " # x".toList ∧ ∃ result,
        tokenize dialect none " # x" = some result ∧
        result.tokens.map (fun token => (token.lexeme, token.position.offset)) =
          [(⟨.data, " # x"⟩, 0), (⟨.eof, ""⟩, 4)] := by
  intro dialect
  have cut : (tokenize dialect none " # x").map (fun result => result.tokens.map fun token =>
      (token.lexeme, token.position.offset)) = some [(⟨.data, " # x"⟩, 0), (⟨.eof, ""⟩, 4)] := by
    cbv
  rcases Option.map_eq_some_iff.1 cut with ⟨result, isResult, same⟩
  refine ⟨by decide, Or.inl rfl, Or.inl rfl, ⟨[], rfl, Nat.zero_le _, " x".toList, rfl⟩, result,
    isResult, same⟩

end Stencil

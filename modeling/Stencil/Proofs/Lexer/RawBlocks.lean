import Stencil.Proofs.Lexer.Diagnostics
import Stencil.Proofs.Lexer.Origins
import Stencil.Proofs.Lexer.RawEnds

/-!
# Raw blocks of a text

What follows the token that opens a raw block is told by one search in the text after it. If an end
is found, the text up to it is the content of the block; if none is found, all of the text is, and
the block is reported.

A token that is not plain text is never taken back. What a walk does from the opening token on is
therefore seen in the tokens at its end.
-/

namespace Stencil.Lexer

variable {dialect : Dialect} {sourceName : Option String} {state next last : State}
  {token opening : Token} {tokens earlier : List Token}

/-! ### Tokens that stay -/

/-- What is left of plain text is plain text. -/
theorem exists_stripTokens_data (data : Token) (isData : data.kind = .data) (strip : Bool)
    (tokens : List Token) : ∃ kept, stripTokens strip (data :: tokens) = kept ++ tokens ∧
      ∀ token ∈ kept, token.kind = .data := by
  cases strip with
  | false => exact ⟨[data], stripTokens_false _, by simpa using isData⟩
  | true =>
      rw [stripTokens, if_pos ⟨rfl, isData⟩]
      refine ⟨_, rfl, fun token member => ?_⟩
      unfold State.trimmed at member
      split at member
      · simp at member
      · rw [List.mem_singleton.1 member, isData]

/-- A token among others is not one of those that were taken later if these are all of other
kinds. -/
theorem suffix_of_suffix_append {taken : List Token}
    (others : ∀ other ∈ taken, other.kind ≠ token.kind)
    (isLast : token :: earlier <:+ taken ++ tokens) : token :: earlier <:+ tokens := by
  induction taken with
  | nil => exact isLast
  | cons other taken ih =>
      rw [List.forall_mem_cons] at others
      rcases List.suffix_cons_iff.1 isLast with same | later
      · cases same
        exact absurd rfl others.1
      · exact ih others.2 later

/-- Only plain text is taken back. -/
theorem suffix_stripTokens_iff {strip : Bool} (notData : token.kind ≠ .data) :
    token :: earlier <:+ stripTokens strip tokens ↔ token :: earlier <:+ tokens := by
  cases tokens with
  | nil => rfl
  | cons last tokens =>
      by_cases isData : last.kind = .data
      · have others {other : Token} (otherData : other.kind = .data) : other.kind ≠ token.kind :=
          fun same => notData (same.symm.trans otherData)
        rcases exists_stripTokens_data last isData strip tokens with ⟨kept, same, areData⟩
        rw [same]
        constructor
        · intro isLast
          have below := suffix_of_suffix_append (fun other member => others (areData other member))
            isLast
          exact below.trans (List.suffix_cons _ _)
        · intro isLast
          have below : token :: earlier <:+ tokens :=
            @suffix_of_suffix_append _ _ _ [last] (by simpa using others isData) isLast
          exact below.trans (List.suffix_append _ _)
      · rw [stripTokens_of_ne_data isData]

/-- A step takes tokens after some blanks were taken back. A raw block is opened by itself. -/
theorem Move.exists_taken [Limits] (move : Move dialect sourceName state next) :
    ∃ taken strip, next.tokens = taken ++ stripTokens strip state.tokens ∧
      ((∀ token ∈ taken, token.kind ≠ .rawBegin) ∨
        ∃ (tag : WordTag) (after : List Char), tag.Fits dialect "raw".toList state.rest after ∧
          next = ((state.stripLast tag.stripBefore).emit sourceName .rawBegin tag.length).enter
            (.raw state.position tag.stripAfter) ∧
          taken = [⟨.rawBegin, String.ofList (state.rest.take tag.length), state.position,
            sourceName⟩]) := by
  have stripped (state : State) (strip : Bool) :
      (state.stripLast strip).tokens = stripTokens strip state.tokens := by
    rw [stripLast_eq]
  cases move with
  | dropNewline =>
      refine ⟨[], false, ?_, Or.inl (by simp)⟩
      rw [skipNewline_eq, stripTokens_false]
      rfl
  | dropBlanks | dropRawBlanks => exact ⟨[], false, by simp; rfl, Or.inl (by simp)⟩
  | openTag start strip =>
      refine ⟨[_], strip, by rw [← stripped]; rfl, Or.inl ?_⟩
      rcases start with _ | _ | _ <;> simp [Start.kind]
  | openRaw inText fits =>
      refine ⟨[_], _, by rw [← stripped]; rfl, Or.inr ⟨_, _, fits, rfl, ?_⟩⟩
      rw [State.stripLast_rest, State.stripLast_position]
  | closeEmptyRaw => exact ⟨[_], _, by rw [← stripped]; rfl, Or.inl (by simp)⟩
  | @closeRaw _ tag content =>
      rcases exists_stripTokens_data ⟨.data, String.ofList (state.rest.take content.length),
        state.position, sourceName⟩ rfl tag.stripBefore state.tokens with ⟨kept, same, areData⟩
      refine ⟨_ :: kept, false, congrArg (List.cons _) ((stripped _ _).trans ?_), Or.inl ?_⟩
      · rw [stripTokens_false]
        exact same
      · refine List.forall_mem_cons.2 ⟨by simp, fun token member => ?_⟩
        rw [areData token member]
        simp
  | closeComment => exact ⟨[_, _], false, by simp; rfl, Or.inl (by simp)⟩
  | @closeTag kind =>
      refine ⟨[_], false, by rw [stripTokens_false]; rfl, Or.inl ?_⟩
      rcases kind with _ | _ | _ <;> simp [closer]
  | lexeme _ _ _ inner =>
      refine ⟨[_], false, by rw [stripTokens_false]; rfl, Or.inl ?_⟩
      simp only [List.mem_singleton, forall_eq]
      rintro rfl
      exact absurd inner (by decide)
  | _ => exact ⟨[_], false, by rw [stripTokens_false]; rfl, Or.inl (by simp)⟩

/-! ### Where a raw block is opened -/

/-- A place in a walk where a raw block is opened by a token. -/
structure Opens [Limits] (dialect : Dialect) (sourceName : Option String) (opening : Token)
    (earlier : List Token) (state : State) (tag : WordTag) (after : List Char) : Prop where
  fits : tag.Fits dialect "raw".toList state.rest after
  opening_eq : opening =
    ⟨.rawBegin, String.ofList (state.rest.take tag.length), state.position, sourceName⟩
  step_eq : step dialect sourceName state =
    ⟨.raw opening.position tag.stripAfter, opening.stop, after, opening :: earlier,
      state.diagnostics⟩

/-- Each token that opens a raw block was taken by a step of the walk. -/
theorem exists_opens_of_walks [Limits] {source : List Char} (isRaw : opening.kind = .rawBegin)
    (walks : Relation.ReflTransGen (StepsTo dialect sourceName) (.ofSource source) last)
    (taken : opening :: earlier <:+ last.tokens) : ∃ state tag after,
      Relation.ReflTransGen (StepsTo dialect sourceName) (.ofSource source) state ∧
      Opens dialect sourceName opening earlier state tag after ∧
      Relation.ReflTransGen (StepsTo dialect sourceName) (step dialect sourceName state) last := by
  induction walks with
  | refl => simp [State.ofSource] at taken
  | @tail state next walks stepsTo ih =>
      rcases stepsTo with ⟨nonempty, rfl⟩
      have move : Move dialect sourceName state (step dialect sourceName state) :=
        step_move nonempty
      have notData : opening.kind ≠ .data := by simp [isRaw]
      by_cases below : opening :: earlier <:+ state.tokens
      · rcases ih below with ⟨opened, tag, after, before, opens, goesOn⟩
        exact ⟨opened, tag, after, before, opens, goesOn.tail ⟨nonempty, rfl⟩⟩
      · have below {strip : Bool} : ¬opening :: earlier <:+ stripTokens strip state.tokens :=
          fun isLast => below ((suffix_stripTokens_iff notData).1 isLast)
        rcases move.exists_taken with
          ⟨added, strip, sameTokens, others | ⟨tag, after, fits, stepped, rfl⟩⟩
        · rw [sameTokens] at taken
          exact absurd (suffix_of_suffix_append (by rwa [isRaw]) taken) below
        · rw [sameTokens, List.singleton_append, List.suffix_cons_iff] at taken
          obtain ⟨rfl, rfl⟩ := List.cons.inj (taken.resolve_right below)
          refine ⟨state, tag, after, walks, ⟨fits, rfl, ?_⟩, .refl⟩
          rcases fits.exists_text with ⟨written, shows, sameLength, _, _⟩
          rw [← List.singleton_append, ← sameTokens, stepped, stripLast_eq, sameLength, Token.stop,
            State.emit_eq_of_rest (by exact shows)]
          simp [State.enter, shows]

/-! ### What follows the opening -/

/-- The text of a raw block as tokens: there is none for no text. -/
def rawData (sourceName : Option String) (start : Position) (text : List Char) : List Token :=
  if text = [] then [] else [⟨.data, String.ofList text, start, sourceName⟩]

/-- The tokens after one that opens a raw block, by where the content ends. -/
inductive RawTokens (sourceName : Option String) (start : Position) (content : List Char) :
    Option (Nat × WordTag) → List Token → Prop where
  | closed (length : Nat) (tag : WordTag) (further : List Token) :
      RawTokens sourceName start content (some (length, tag))
        (rawData sourceName start
            (if tag.stripBefore then Text.trimEnd (content.take length) else content.take length) ++
          ⟨.rawEnd, String.ofList ((content.drop length).take tag.length),
            start.advanceOver (content.take length), sourceName⟩ :: further)
  | unclosed : RawTokens sourceName start content none
      (rawData sourceName start content ++
        [⟨.eof, "", start.advanceOver content, sourceName⟩])

theorem kind_of_mem_rawData {start : Position} {text : List Char}
    (member : token ∈ rawData sourceName start text) : token.kind = .data := by
  unfold rawData at member
  split at member
  · simp at member
  · rw [List.mem_singleton.1 member]

@[simp]
theorem reverse_rawData (start : Position) (text : List Char) :
    (rawData sourceName start text).reverse = rawData sourceName start text := by
  unfold rawData
  split <;> rfl

theorem stripTokens_rawData (notData : opening.kind ≠ .data) (start : Position) (text : List Char)
    (strip : Bool) :
    stripTokens strip (rawData sourceName start text ++ opening :: earlier) =
      rawData sourceName start (if strip then Text.trimEnd text else text) ++
        opening :: earlier := by
  cases strip with
  | false => simp
  | true =>
      by_cases empty : text = []
      · subst empty
        exact stripTokens_of_ne_data notData true
      · simp only [rawData, if_neg empty, List.singleton_append, stripTokens, State.trimmed,
          String.toList_ofList, if_true]
        simp

/-- A token that is not plain text stays where it is for the rest of a walk. -/
theorem suffix_of_walks [Limits]
    (walks : Relation.ReflTransGen (StepsTo dialect sourceName) state last)
    (notData : token.kind ≠ .data) (taken : token :: earlier <:+ state.tokens) :
    token :: earlier <:+ last.tokens := by
  refine walks_keep (fun state => token :: earlier <:+ state.tokens) ?_ walks taken
  intro state taken nonempty
  have move : Move dialect sourceName state (step dialect sourceName state) := step_move nonempty
  rcases move.exists_taken with ⟨added, strip, sameTokens, _⟩
  rw [sameTokens]
  exact ((suffix_stripTokens_iff notData).2 taken).trans (List.suffix_append _ _)

section

variable [Limits] {opened : Position} (isRaw : opening.kind = .rawBegin)
  (inRaw : state.mode = .raw opened false) (sameTokens : state.tokens = opening :: earlier)

include isRaw inRaw sameTokens

/-- The content of a raw block and the tag that ends it are taken in one step. -/
theorem step_tokens_of_rawEnd? {length : Nat} {tag : WordTag}
    (found : rawEnd? dialect 0 state.rest = some (length, tag)) :
    (step dialect sourceName state).tokens =
      ⟨.rawEnd, String.ofList ((state.rest.drop length).take tag.length),
        state.position.advanceOver (state.rest.take length), sourceName⟩ ::
      (rawData sourceName state.position (if tag.stripBefore then
          Text.trimEnd (state.rest.take length) else state.rest.take length) ++
        opening :: earlier) := by
  rcases rawEnd?_eq_some found with ⟨content, rest, after, shows, rfl, fits⟩
  have notData : opening.kind ≠ .data := by simp [isRaw]
  rw [← stripTokens_rawData notData, shows, List.take_left, List.drop_left, step_of_raw inRaw,
    stepRaw, if_neg (by decide), found]
  dsimp only
  rw [stripLast_eq]
  cases content with
  | nil =>
      have noData : rawData sourceName state.position [] = [] := rfl
      rw [if_pos List.length_nil, noData, List.nil_append, ← sameTokens, State.enter_tokens]
      simp [State.emit, shows, Position.advanceOver]
  | cons char content =>
      have oneData : rawData sourceName state.position (char :: content) = _ := if_neg (by simp)
      rw [if_neg (by simp), oneData, State.emit_eq_of_rest shows, State.enter_tokens, ← sameTokens]
      simp [State.emit]

variable (walks : Relation.ReflTransGen (StepsTo dialect sourceName) state last)
  (atEnd : last.rest = [])

include walks atEnd

/-- The tokens after the one that opens a raw block are told by the search in the text after it. -/
theorem exists_rawTokens_of_walks : ∃ later,
    (finish sourceName last).tokens = later.reverse ++ opening :: earlier ∧
    RawTokens sourceName state.position state.rest (rawEnd? dialect 0 state.rest) later ∧
    (rawEnd? dialect 0 state.rest = none →
      .unterminatedRaw opened ∈ (finish sourceName last).diagnostics) := by
  by_cases empty : state.rest = []
  · cases eq_of_walks_of_nil walks empty
    rw [empty]
    refine ⟨_, ?_, .unclosed, fun _ => ?_⟩
    · rw [finish, inRaw, ← sameTokens]
      simp [State.report, State.emit, State.skip, State.enter, rawData, Position.advanceOver]
    · rw [finish, inRaw]
      exact List.mem_cons_self
  have goesOn := walks_step walks empty atEnd
  cases isFound : rawEnd? dialect 0 state.rest with
  | none =>
      have stepped : step dialect sourceName state =
          ((state.emit sourceName .data state.rest.length).report
            (.unterminatedRaw opened)).enter (.text false false) := by
        rw [step_of_raw inRaw, stepRaw, if_neg (by decide), isFound]
      rw [stepped] at goesOn
      cases eq_of_walks_of_nil goesOn (by simp [State.emit, State.skip])
      refine ⟨_, ?_, .unclosed, fun _ => List.mem_cons_self⟩
      rw [finish, State.enter_mode, ← sameTokens]
      simp [State.report, State.emit, State.skip, State.enter, rawData, empty, Position.advanceOver]
  | some found =>
      rcases found with ⟨length, tag⟩
      have sameNext : (step dialect sourceName state).tokens = _ :=
        step_tokens_of_rawEnd? isRaw inRaw sameTokens isFound
      have kept {token : Token} {earlier : List Token} (notData : token.kind ≠ .data)
          (same : (step dialect sourceName state).tokens = token :: earlier) :
          token :: earlier <:+ last.tokens :=
        suffix_of_walks goesOn notData (same ▸ List.suffix_rfl)
      rcases kept (by simp) sameNext with ⟨more, sameLast⟩
      rcases exists_finish_tokens sourceName last with ⟨closing, finished, _⟩
      refine ⟨_, ?_, .closed length tag (closing ++ more).reverse, by simp⟩
      rw [finished, ← sameLast]
      simp

end

/-! ### Blanks before the content -/

/-- The blanks that a text begins with are a gap before the content, if they are to be dropped. -/
structure Dropped (asked : Prop) (text gap content : List Char) : Prop where
  text_eq : text = gap ++ content
  blank : gap.all Text.isBlank = true
  head_not_blank : asked → ∀ char ∈ content.head?, Text.isBlank char = false
  gap_eq_nil : ¬asked → gap = []

theorem dropped_takeWhile (text : List Char) :
    Dropped (true = true) text (text.takeWhile Text.isBlank) (text.dropWhile Text.isBlank) where
  text_eq := List.takeWhile_append_dropWhile.symm
  blank := List.all_takeWhile
  head_not_blank _ char isFirst := by
    have notBlank := List.head?_dropWhile_not Text.isBlank text
    rw [isFirst] at notBlank
    simpa using notBlank
  gap_eq_nil notAsked := absurd rfl notAsked

/-- The tokens after the one that opens a raw block, whether or not blanks are to be dropped. -/
theorem exists_rawTokens_of_raw [Limits] {opened : Position} {strip : Bool}
    (isRaw : opening.kind = .rawBegin) (inRaw : state.mode = .raw opened strip)
    (sameTokens : state.tokens = opening :: earlier)
    (walks : Relation.ReflTransGen (StepsTo dialect sourceName) state last)
    (atEnd : last.rest = []) : ∃ gap content later,
      Dropped (strip = true) state.rest gap content ∧
      (finish sourceName last).tokens = later.reverse ++ opening :: earlier ∧
      RawTokens sourceName (state.position.advanceOver gap) content (rawEnd? dialect 0 content)
        later ∧
      (rawEnd? dialect 0 content = none →
        .unterminatedRaw opened ∈ (finish sourceName last).diagnostics) := by
  cases strip with
  | false =>
      rcases exists_rawTokens_of_walks isRaw inRaw sameTokens walks atEnd with ⟨later, found⟩
      exact ⟨[], state.rest, later, ⟨rfl, rfl, by simp, fun _ => rfl⟩, found⟩
  | true =>
      have showsGap : state.rest = state.rest.takeWhile Text.isBlank ++
          state.rest.dropWhile Text.isBlank := List.takeWhile_append_dropWhile.symm
      have skipped : state.skipBlanks.enter (.raw opened false) =
          ⟨.raw opened false, state.position.advanceOver (state.rest.takeWhile Text.isBlank),
            state.rest.dropWhile Text.isBlank, opening :: earlier, state.diagnostics⟩ := by
        rw [State.skipBlanks, Text.blankLength, State.skip_eq_of_rest showsGap, ← sameTokens]
        rfl
      obtain ⟨final, walks, atEnd, sameEnd⟩ : ∃ final, Relation.ReflTransGen
          (StepsTo dialect sourceName) (state.skipBlanks.enter (.raw opened false)) final ∧
          final.rest = [] ∧ finish sourceName final = finish sourceName last := by
        by_cases empty : state.rest = []
        · cases eq_of_walks_of_nil walks empty
          refine ⟨_, .refl, ?_, ?_⟩
          · simp [skipped, empty]
          · rw [skipped]
            simp [finish, inRaw, empty, sameTokens, State.report, State.emit, State.skip,
              State.enter, Position.advanceOver]
        · have goesOn := walks_step walks empty atEnd
          rw [step_of_raw inRaw, stepRaw, if_pos rfl] at goesOn
          exact ⟨last, goesOn, atEnd, rfl⟩
      rw [skipped] at walks
      rcases exists_rawTokens_of_walks isRaw rfl rfl walks atEnd with ⟨later, found⟩
      rw [sameEnd] at found
      exact ⟨_, _, later, dropped_takeWhile _, found⟩

/-! ### Raw blocks of a text -/

/-- The content of a raw block begins at a position behind the token that opens the block, and
behind the blanks after it if the token asks for them to be dropped. -/
structure BeginsContent (dialect : Dialect) (source : List Char) (opening : Token)
    (start : Position) (content : List Char) : Prop where
  exists_gap : ∃ before after gap, source = before ++ (opening.text.toList ++ after) ∧
    opening.position = Position.start.advanceOver before ∧
    Dropped (opening.MarkedAfter dialect) after gap content ∧
    start = opening.stop.advanceOver gap

namespace Opens

variable [Limits] {tag : WordTag} {after : List Char}
  (opens : Opens dialect sourceName opening earlier state tag after)

include opens

theorem exists_written : ∃ leading trailing, trailing.all Text.isBlank = true ∧
    opening.text.toList = tag.written dialect "raw".toList leading trailing ∧
    state.rest = opening.text.toList ++ after := by
  rcases opens.fits.exists_written with ⟨leading, trailing, _, trailingBlank, shows, sameLength⟩
  have sameText : opening.text.toList = tag.written dialect "raw".toList leading trailing := by
    rw [opens.opening_eq, String.toList_ofList, shows, sameLength, List.take_left]
  exact ⟨leading, trailing, trailingBlank, sameText, by rw [sameText, shows]⟩

theorem text_ne_nil : opening.text.toList ≠ [] := by
  rcases opens.exists_written with ⟨leading, trailing, _, sameText, _⟩
  rw [sameText]
  simp [WordTag.written]

/-- A tag that opens a raw block asks for the blanks after it if it ends with a dash. -/
theorem markedAfter_iff : opening.MarkedAfter dialect ↔ tag.stripAfter = true := by
  rcases opens.exists_written with ⟨leading, trailing, trailingBlank, sameText, _⟩
  have sameKind : opening.kind = .rawBegin := by rw [opens.opening_eq]
  have marked_iff : opening.MarkedAfter dialect ↔
      '-' :: dialect.blockEnd.toList <:+ opening.text.toList := by
    simp [Token.MarkedAfter, sameKind, Token.Kind.endDelimiter?]
  rw [marked_iff, sameText]
  constructor
  · rintro ⟨front, same⟩
    by_contra notStripped
    have noDash : dash tag.stripAfter = [] := if_neg notStripped
    -- What stands before the end delimiter is a blank or the end of the word.
    have sameFront : front ++ ['-'] = dialect.blockStart.toList ++ (dash tag.stripBefore ++
        (leading ++ ("raw".toList ++ trailing))) := by
      refine (List.append_left_inj dialect.blockEnd.toList).1 ?_
      rw [List.append_assoc, List.singleton_append, same, WordTag.written, noDash]
      simp
    have isLast := congrArg List.getLast? sameFront
    rw [List.getLast?_concat] at isLast
    rcases List.eq_nil_or_concat trailing with rfl | ⟨blanks, last, rfl⟩
    · simp at isLast
    · simp only [List.concat_eq_append, ← List.append_assoc, List.getLast?_concat,
        Option.some.injEq] at isLast
      simp [← isLast, show Text.isBlank '-' = false by decide] at trailingBlank
  · intro strip
    refine ⟨dialect.blockStart.toList ++ (dash tag.stripBefore ++ (leading ++ ("raw".toList ++
      trailing))), ?_⟩
    simp [WordTag.written, strip]

end Opens

section

variable [Limits] {source : String} {result : Tokenization} {before later : List Token}
  (cut : tokenize dialect sourceName source = some result)

include cut

theorem exists_opens_of_tokenize (split : result.tokens = before ++ opening :: later)
    (isRaw : opening.kind = .rawBegin) : ∃ last state tag after,
      result = last.result sourceName ∧ last.rest = [] ∧
      Relation.ReflTransGen (StepsTo dialect sourceName) (.ofSource source.toList) state ∧
      Opens dialect sourceName opening before.reverse state tag after ∧
      Relation.ReflTransGen (StepsTo dialect sourceName) (step dialect sourceName state) last := by
  rcases exists_walks_of_tokenize cut with ⟨last, walks, atEnd, rfl⟩
  rcases exists_finish_tokens sourceName last with ⟨closing, finished, kinds⟩
  have others : ∀ token ∈ closing, token.kind ≠ opening.kind := by
    intro token member same
    have := kinds token member
    simp [same, isRaw] at this
  have taken : opening :: before.reverse <:+ closing ++ last.tokens := by
    refine ⟨later.reverse, ?_⟩
    rw [← finished, ← List.reverse_reverse (finish sourceName last).tokens]
    change _ = (last.result sourceName).tokens.reverse
    rw [split]
    simp
  rcases exists_opens_of_walks isRaw walks (suffix_of_suffix_append others taken) with
    ⟨state, tag, after, walks, opens, goesOn⟩
  exact ⟨last, state, tag, after, rfl, atEnd, walks, opens, goesOn⟩

theorem text_ne_nil_of_rawBegin (split : result.tokens = before ++ opening :: later)
    (isRaw : opening.kind = .rawBegin) : opening.text.toList ≠ [] := by
  rcases exists_opens_of_tokenize cut split isRaw with ⟨_, _, _, _, _, _, _, opens, _⟩
  exact opens.text_ne_nil

/-- No token that comes later stands where a raw block is opened. -/
theorem position_ne_of_mem_later (split : result.tokens = before ++ opening :: later)
    (isRaw : opening.kind = .rawBegin) (member : token ∈ later) :
    opening.position ≠ token.position := by
  intro same
  have inOrder := pairwise_of_tokenize cut
  rw [split, List.pairwise_append, List.pairwise_cons] at inOrder
  have isBefore := inOrder.2.1.1 token member
  have hasText := Text.byteLength_pos (text_ne_nil_of_rawBegin cut split isRaw)
  rw [← same, Token.stop, Position.offset_advanceOver] at isBefore
  omega

/-- Two tokens that open raw blocks at one position are the same one. -/
theorem later_eq_of_position_eq {before' later' : List Token} {opening' : Token}
    (split : result.tokens = before ++ opening :: later) (isRaw : opening.kind = .rawBegin)
    (split' : result.tokens = before' ++ opening' :: later') (isRaw' : opening'.kind = .rawBegin)
    (samePosition : opening.position = opening'.position) : later = later' := by
  have same := split.symm.trans split'
  rcases List.append_eq_append_iff.1 same with ⟨middle, _, sameRest⟩ | ⟨middle, _, sameRest⟩
  · cases middle with
    | nil => exact (List.cons.inj sameRest).2
    | cons first middle =>
        have isLater : opening' ∈ later := by
          rw [(List.cons.inj sameRest).2]
          simp
        exact absurd samePosition (position_ne_of_mem_later cut split isRaw isLater)
  · cases middle with
    | nil => exact (List.cons.inj sameRest).2.symm
    | cons first middle =>
        have isLater : opening ∈ later' := by
          rw [(List.cons.inj sameRest).2]
          simp
        exact absurd samePosition.symm (position_ne_of_mem_later cut split' isRaw' isLater)

/-- A raw block that is closed is not reported. -/
theorem unterminatedRaw_not_mem_of_rawEnd (split : result.tokens = before ++ opening :: later)
    (isRaw : opening.kind = .rawBegin) (closes : ∃ token ∈ later, token.kind = .rawEnd) :
    .unterminatedRaw opening.position ∉ result.diagnostics := by
  intro reported
  rcases exists_ending_of_tokenize cut with ⟨tokens, final, sameTokens, isEnd, ending⟩
  rcases ending.exists_unterminated with
    ⟨unterminated, unexpected, sameDiagnostics, reports, isUnterminated⟩
  rw [← List.mem_reverse, sameDiagnostics, List.mem_append, Option.mem_toList] at reported
  rcases reported with isLast | isStray
  · generalize sameDiagnostic : Diagnostic.unterminatedRaw opening.position = diagnostic at isLast
    cases isLast
    cases isUnterminated with
    | @raw earlier opening' content _ opens isData =>
        have split' : result.tokens =
            earlier.reverse ++ opening' :: (content.toList.reverse ++ [final]) := by
          simp [sameTokens]
        have samePosition := Diagnostic.unterminatedRaw.inj sameDiagnostic
        rcases closes with ⟨token, member, isClosing⟩
        rw [later_eq_of_position_eq cut split isRaw split' opens samePosition] at member
        simp only [List.mem_append, List.mem_reverse, Option.mem_toList, List.mem_singleton]
          at member
        rcases member with isContent | rfl
        · simp [isData token isContent] at isClosing
        · simp [isEnd] at isClosing
    | _ => cases sameDiagnostic
  · rcases reports.exists_unexpected isStray with ⟨char, position, same⟩
    cases same

/-- The tokens after the one that opens a raw block of a text. -/
theorem exists_rawTokens_of_tokenize (split : result.tokens = before ++ opening :: later)
    (isRaw : opening.kind = .rawBegin) : ∃ start content,
      BeginsContent dialect source.toList opening start content ∧
      RawTokens sourceName start content (rawEnd? dialect 0 content) later ∧
      (.unterminatedRaw opening.position ∈ result.diagnostics ↔
        rawEnd? dialect 0 content = none) := by
  rcases exists_opens_of_tokenize cut split isRaw with
    ⟨last, state, tag, after, rfl, atEnd, walks, opens, goesOn⟩
  rcases exists_before_of_walks walks with ⟨front, sameSource, samePosition⟩
  rw [opens.step_eq] at goesOn
  rcases exists_rawTokens_of_raw isRaw rfl rfl goesOn atEnd with
    ⟨gap, content, found, dropped, sameTokens, tokens, isReported⟩
  have sameLater : later = found := by
    have same := congrArg List.reverse sameTokens
    change (last.result sourceName).tokens = _ at same
    rw [split] at same
    simpa using same
  subst sameLater
  refine ⟨_, content, ⟨front, after, gap, ?_, ?_, ?_, rfl⟩, tokens, ?_, ?_⟩
  · rcases opens.exists_written with ⟨_, _, _, _, shows⟩
    rw [sameSource, shows]
  · rw [opens.opening_eq]
    exact samePosition
  · rw [← opens.markedAfter_iff] at dropped
    exact dropped
  · contrapose!
    intro isFound
    rcases Option.ne_none_iff_exists'.1 isFound with ⟨⟨length, closing⟩, isFound⟩
    rw [isFound] at tokens
    refine unterminatedRaw_not_mem_of_rawEnd cut split isRaw ?_
    cases tokens
    exact ⟨_, List.mem_append_right _ List.mem_cons_self, rfl⟩
  · intro notFound
    exact List.mem_reverse.2 (isReported notFound)

end

/-! ### Blocks that end with their first tag -/

/-- The plain text of a raw block ends with the first token that is not plain text. -/
theorem find?_rawData_append (notData : token.kind ≠ .data) (start : Position)
    (text : List Char) (further : List Token) :
    (rawData sourceName start text ++ token :: further).find? (·.kind ≠ .data) = some token := by
  have noneInData : (rawData sourceName start text).find? (·.kind ≠ .data) = none := by
    rw [List.find?_eq_none]
    intro other member
    simp [kind_of_mem_rawData member]
  rw [List.find?_append, noneInData, Option.none_or,
    List.find?_cons_of_pos (by simpa using notData)]

/-- The tokens after the one that opens a raw block tell where its content ends. -/
theorem RawTokens.exists_length_eq {start : Position} {content : List Char} {later : List Token}
    {length : Nat} {tag : WordTag} {ending : Option (Nat × WordTag)}
    (closed : RawTokens sourceName start content (some (length, tag)) later)
    (inside : length ≤ content.length)
    (ends : RawTokens sourceName start content ending later)
    (endsInside : ∀ found ∈ ending, found.1 ≤ content.length) :
    ∃ tag, ending = some (length, tag) := by
  generalize same : later = tokens at ends
  cases closed
  have sameEnd := congrArg (List.find? (·.kind ≠ .data)) same
  rw [find?_rawData_append (by simp)] at sameEnd
  cases ends with
  | closed length' tag' =>
      rw [find?_rawData_append (by simp)] at sameEnd
      have samePosition := congrArg Token.position (Option.some.inj sameEnd)
      have sameOffset := congrArg Position.offset samePosition
      simp only [Position.offset_advanceOver, Nat.add_left_cancel_iff] at sameOffset
      have sameLength : length = length' := by
        by_contra different
        rcases Nat.lt_or_gt_of_ne different with shorter | shorter
        · have := Text.byteLength_take_lt shorter (endsInside _ rfl)
          omega
        · have := Text.byteLength_take_lt shorter inside
          omega
      exact ⟨tag', by rw [sameLength]⟩
  | unclosed =>
      rw [find?_rawData_append (by simp)] at sameEnd
      simp at sameEnd

/-- A raw block with a content ends with the first `endraw` tag in it. The block is reported if
there is none. -/
def EndsAtFirst (dialect : Dialect) (sourceName : Option String) (result : Tokenization)
    (opening : Token) (start : Position) (content : List Char) (later : List Token) : Prop :=
  ∃ ending, FirstEnd dialect content ending ∧ RawTokens sourceName start content ending later ∧
    (.unterminatedRaw opening.position ∈ result.diagnostics ↔ ending = none)

theorem endsAtFirst_iff (sound : dialect.Sound) {result : Tokenization} {start : Position}
    {content : List Char} {later : List Token}
    (tokens : RawTokens sourceName start content (rawEnd? dialect 0 content) later)
    (reported_iff : .unterminatedRaw opening.position ∈ result.diagnostics ↔
      rawEnd? dialect 0 content = none) :
    EndsAtFirst dialect sourceName result opening start content later ↔
      ¬HidesEnd dialect content := by
  have looked := firstLooked_rawEnd? sound content
  constructor
  · rintro ⟨ending, firstEnd, endingTokens, _⟩ hidden
    rcases hidden with ⟨first, ends, notLooked⟩
    cases firstEnd with
    | none noEnd => exact noEnd first ends.closes
    | found ends' fits =>
        have found_inside : ∀ found ∈ rawEnd? dialect 0 content, found.1 ≤ content.length := by
          rintro ⟨length, tag⟩ isFound
          rw [isFound] at looked
          exact Nat.le_of_lt (looked.closes.lt_length sound)
        rcases endingTokens.exists_length_eq (Nat.le_of_lt (ends'.closes.lt_length sound)) tokens
          found_inside with ⟨tag, isFound⟩
        rw [isFound] at looked
        exact looked.not_endsFirst ⟨first, ends, notLooked⟩ ends'
  · intro notHidden
    exact ⟨_, looked.firstEnd notHidden, tokens, reported_iff⟩

end Stencil.Lexer

import Stencil.Profiles
import Stencil.Proofs.Lexer.Termination

/-!
# Tokens tile their text

The tokens of a text stand in it one after the other, and what stands between two of them is blank.
Text is dropped only where a token asks for it: a tag that begins or ends with a dash drops the
blanks on that side, and a block tag, a comment or a raw block may drop the line break after it.

The walk is described by the text that its tokens cover and by the blanks that it has passed over
since. A dash at the start of a tag takes blanks back from the token before it, so that for one
moment there are blanks which no token has asked for yet.
-/

namespace Stencil

open Lexer

/-! ### Marks -/

/-- The delimiter with which a token of a kind begins. -/
def Token.Kind.startDelimiter? (dialect : Dialect) : Token.Kind → Option (List Char)
  | .blockBegin | .rawBegin | .rawEnd => some dialect.blockStart.toList
  | .variableBegin => some dialect.variableStart.toList
  | .commentBegin => some dialect.commentStart.toList
  | _ => none

/-- The delimiter with which a token of a kind ends. -/
def Token.Kind.endDelimiter? (dialect : Dialect) : Token.Kind → Option (List Char)
  | .blockEnd | .rawBegin | .rawEnd => some dialect.blockEnd.toList
  | .variableEnd => some dialect.variableEnd.toList
  | .commentEnd => some dialect.commentEnd.toList
  | _ => none

namespace Token

/-- A token asks for the blanks before it to be dropped. -/
def MarkedBefore (dialect : Dialect) (token : Token) : Prop :=
  ∃ delimiter, token.kind.startDelimiter? dialect = some delimiter ∧
    delimiter ++ ['-'] <+: token.text.toList

/-- A token asks for the blanks after it to be dropped. -/
def MarkedAfter (dialect : Dialect) (token : Token) : Prop :=
  ∃ delimiter, token.kind.endDelimiter? dialect = some delimiter ∧
    '-' :: delimiter <:+ token.text.toList

/-- The line break after a token is dropped. -/
def Trims (dialect : Dialect) (token : Token) : Prop :=
  dialect.trimBlocks = true ∧ token.kind ∈ [.blockEnd, .commentEnd, .rawEnd]

end Token

namespace Lexer

/-- The last token before a gap asks for it. -/
def AskedBefore (dialect : Dialect) (previous : Option Token) (gap : List Char) : Prop :=
  ∃ token, previous = some token ∧
    (token.MarkedAfter dialect ∨
      token.Trims dialect ∧ (['\n'] <+: gap ∨ ['\r', '\n'] <+: gap))

/-- One of the tokens beside a gap asks for it. -/
def Asked (dialect : Dialect) (previous : Option Token) (next : Token) (gap : List Char) : Prop :=
  next.MarkedBefore dialect ∨ AskedBefore dialect previous gap

/-- The place where a token ends; the text begins where no token stands before. -/
def stopOffset (previous : Option Token) : Nat :=
  (previous.map fun token => token.stop.offset).getD 0

/-- A token follows another one, or begins the text: only blanks that one of them asks for stand
between them. -/
structure Adjoins (dialect : Dialect) (source : List Char) (previous : Option Token)
    (next : Token) : Prop where
  inOrder : stopOffset previous ≤ next.position.offset
  exists_gap : ∃ gap,
    Text.slice? source (stopOffset previous) next.position.offset = some gap ∧
    gap.all Text.isBlank = true ∧ (gap ≠ [] → Asked dialect previous next gap)

/-- A token stands in a text at its position. -/
structure StandsIn (source : List Char) (token : Token) : Prop where
  slice : Text.slice? source token.position.offset token.stop.offset = some token.text.toList
  position : ∃ before, Text.takeBytes? token.position.offset source = some before ∧
    token.position = Position.start.advanceOver before

/-! ### Tilings -/

/-- Tokens, last one first, cover a text from its beginning. -/
inductive Tiles (dialect : Dialect) : List Char → List Token → Prop where
  | nil : Tiles dialect [] []
  | cons {covered gap : List Char} {tokens : List Token} {token : Token}
      (tiles : Tiles dialect covered tokens) (blank : gap.all Text.isBlank = true)
      (asked : gap ≠ [] → Asked dialect tokens.head? token gap)
      (placed : token.position = Position.start.advanceOver (covered ++ gap)) :
      Tiles dialect (covered ++ gap ++ token.text.toList) (token :: tokens)

namespace Tiles

variable {dialect : Dialect} {source covered : List Char} {tokens : List Token} {token : Token}

theorem stopOffset_head? (tiles : Tiles dialect covered tokens) :
    stopOffset tokens.head? = Text.byteLength covered := by
  cases tiles with
  | nil => rfl
  | cons _ _ _ placed =>
      simp only [stopOffset, List.head?_cons, Option.map_some, Option.getD_some, Token.stop, placed,
        ← Position.advanceOver_append, Position.offset_start_advanceOver]

theorem standsIn (tiles : Tiles dialect covered tokens) (within : covered <+: source)
    (member : token ∈ tokens) : StandsIn source token := by
  induction tiles with
  | nil => simp at member
  | @cons covered gap tokens last _ _ _ placed ih =>
      rcases List.mem_cons.1 member with rfl | earlier
      · rcases within with ⟨rest, rfl⟩
        rw [List.append_assoc (covered ++ gap)]
        constructor
        · simp only [Token.stop, placed, ← Position.advanceOver_append,
            Position.offset_start_advanceOver, Text.byteLength_append (covered ++ gap)]
          exact Text.slice?_append _ _ _
        · refine ⟨covered ++ gap, ?_, placed⟩
          rw [placed, Position.offset_start_advanceOver]
          exact Text.takeBytes?_append _ _
      · refine ih ?_ earlier
        rw [List.append_assoc] at within
        exact (List.prefix_append _ _).trans within

theorem adjoins (tiles : Tiles dialect covered tokens) (within : covered <+: source)
    {later earlier : List Token} (split : tokens = later ++ token :: earlier) :
    Adjoins dialect source earlier.head? token := by
  induction tiles generalizing later with
  | nil => simp at split
  | @cons covered gap tokens last tiles blank asked placed ih =>
      cases later with
      | nil =>
          obtain ⟨rfl, rfl⟩ : last = token ∧ tokens = earlier := by simpa using split
          rcases within with ⟨rest, rfl⟩
          constructor
          · rw [tiles.stopOffset_head?, placed, Position.offset_start_advanceOver,
              Text.byteLength_append]
            omega
          · refine ⟨gap, ?_, blank, asked⟩
            rw [tiles.stopOffset_head?, placed, Position.offset_start_advanceOver,
              Text.byteLength_append, List.append_assoc, List.append_assoc]
            exact Text.slice?_append _ _ _
      | cons _ later =>
          obtain ⟨_, split⟩ : _ ∧ tokens = later ++ token :: earlier := by simpa using split
          refine ih ?_ split
          rw [List.append_assoc] at within
          exact (List.prefix_append _ _).trans within

/-- Where no token asks for text to be dropped, the tokens are the whole text. -/
theorem flatMap_text_eq (tiles : Tiles dialect covered tokens) (keeps : dialect.trimBlocks = false)
    (unmarked : ∀ token ∈ tokens, ¬token.MarkedBefore dialect ∧ ¬token.MarkedAfter dialect) :
    tokens.reverse.flatMap (fun token => token.text.toList) = covered := by
  induction tiles with
  | nil => rfl
  | @cons covered gap tokens last tiles blank asked placed ih =>
      have noGap : gap = [] := by
        by_contra hasGap
        rcases asked hasGap with marked | ⟨previous, isPrevious, marked | trims⟩
        · exact (unmarked last (by simp)).1 marked
        · exact (unmarked previous (by simp [List.mem_of_mem_head? isPrevious])).2 marked
        · simp [Token.Trims, keeps] at trims
      have earlier := ih fun token member => unmarked token (by simp [member])
      simp [earlier, noGap]

/-- A tiling whose last token is plain text goes on tiling without the blanks at its end. -/
theorem exists_trimmed (tiles : Tiles dialect covered (token :: tokens))
    (isData : token.kind = .data) : ∃ kept blanks,
      Tiles dialect kept (State.trimmed token ++ tokens) ∧ covered = kept ++ blanks ∧
      blanks.all Text.isBlank = true := by
  rcases Text.exists_trimEnd_append token.text.toList with ⟨blanks, sameText, blank⟩
  cases tiles with
  | @cons covered gap _ _ tiles gapBlank asked placed =>
      rw [State.trimmed]
      split
      · next empty =>
        -- The token is gone, and the gap before it is open again.
        rw [empty, List.nil_append] at sameText
        exact ⟨covered, gap ++ blanks, tiles, by simp [sameText], by simp [gapBlank, blank]⟩
      · refine ⟨covered ++ gap ++ Text.trimEnd token.text.toList, blanks, ?_, ?_, blank⟩
        · have asked' : gap ≠ [] → Asked dialect tokens.head?
              { token with text := String.ofList (Text.trimEnd token.text.toList) } gap := by
            intro hasGap
            rcases asked hasGap with ⟨_, isDelimiter, _⟩ | askedBefore
            · simp [isData, Token.Kind.startDelimiter?] at isDelimiter
            · exact Or.inr askedBefore
          simpa using tiles.cons gapBlank asked' placed
        · rw [List.append_assoc _ _ blanks, ← sameText]

end Tiles

/-! ### The walk -/

/-- The tokens of a state tile the text up to the blanks that were passed over last. -/
structure Covers (dialect : Dialect) (source : List Char) (state : State)
    (passed : List Char) : Prop where
  exists_covered : ∃ covered, Tiles dialect covered state.tokens ∧
    source = covered ++ passed ++ state.rest ∧
    state.position = Position.start.advanceOver (covered ++ passed)
  blank : passed.all Text.isBlank = true

/-- What a mode says of the last token and of the blanks passed over since: where a line break is
still to be dropped, nothing was passed over. -/
def Mode.Owes (dialect : Dialect) (last : Option Token) (passed : List Char) : Mode → Prop
  | .text true strip => passed = [] ∧ ∃ token, last = some token ∧ token.Trims dialect ∧
      (strip = true → token.MarkedAfter dialect)
  | .text false true | .raw _ true => ∃ token, last = some token ∧ token.MarkedAfter dialect
  | _ => True

/-- The tokens of a state tile the text, and what was passed over was asked for. -/
structure Tiling (dialect : Dialect) (source : List Char) (state : State)
    (passed : List Char) : Prop where
  covers : Covers dialect source state passed
  asked : passed ≠ [] → AskedBefore dialect state.tokens.head? passed
  owes : state.mode.Owes dialect state.tokens.head? passed

variable {dialect : Dialect} {sourceName : Option String} {source : List Char}
  {state next : State} {passed text after : List Char} {kind : Token.Kind}

theorem Covers.emit (covers : Covers dialect source state passed)
    (shows : state.rest = text ++ after)
    (asked : passed ≠ [] → Asked dialect state.tokens.head?
      ⟨kind, String.ofList text, state.position, sourceName⟩ passed) :
    Covers dialect source (state.emit sourceName kind text.length) [] := by
  rcases covers.exists_covered with ⟨covered, tiles, sameSource, samePosition⟩
  rw [State.emit_eq_of_rest shows]
  refine ⟨⟨covered ++ passed ++ text, ?_, ?_, ?_⟩, rfl⟩
  · simpa using tiles.cons covers.blank asked samePosition
  · simp [sameSource, shows]
  · simp [samePosition]

theorem Covers.skip (covers : Covers dialect source state passed)
    (shows : state.rest = text ++ after) (blank : text.all Text.isBlank = true) :
    Covers dialect source (state.skip text.length) (passed ++ text) := by
  rcases covers.exists_covered with ⟨covered, tiles, sameSource, samePosition⟩
  rw [State.skip_eq_of_rest shows]
  refine ⟨⟨covered, tiles, ?_, ?_⟩, ?_⟩
  · simp [sameSource, shows]
  · simp [samePosition]
  · simp [covers.blank, blank]

theorem Covers.enter (covers : Covers dialect source state passed) (mode : Mode) :
    Covers dialect source (state.enter mode) passed :=
  ⟨covers.exists_covered, covers.blank⟩

theorem Covers.report (covers : Covers dialect source state passed) (diagnostic : Diagnostic) :
    Covers dialect source (state.report diagnostic) passed :=
  ⟨covers.exists_covered, covers.blank⟩

theorem AskedBefore.kind_ne_data {token : Token} {gap : List Char}
    (asked : AskedBefore dialect (some token) gap) : token.kind ≠ .data := by
  rcases asked with ⟨_, ⟨⟩, marked | trims⟩
  · rcases marked with ⟨delimiter, isDelimiter, _⟩
    intro isData
    simp [isData, Token.Kind.endDelimiter?] at isDelimiter
  · intro isData
    simp [Token.Trims, isData] at trims

/-- Blanks that are taken back from the last token join those that were passed over. -/
theorem Tiling.covers_stripLast (tiling : Tiling dialect source state passed) (strip : Bool) :
    ∃ passed, Covers dialect source (state.stripLast strip) passed := by
  rcases state.stripLast_cases strip with same | ⟨last, tokens, sameTokens, isData, stripped⟩
  · rw [same]
    exact ⟨passed, tiling.covers⟩
  · have nothing : passed = [] := by
      by_contra hasPassed
      have asked := tiling.asked hasPassed
      rw [sameTokens] at asked
      exact asked.kind_ne_data isData
    subst nothing
    rcases tiling.covers.exists_covered with ⟨covered, tiles, sameSource, samePosition⟩
    rw [sameTokens] at tiles
    rcases tiles.exists_trimmed isData with ⟨kept, blanks, keptTiles, rfl, blank⟩
    rw [List.append_nil] at sameSource samePosition
    rw [stripped]
    exact ⟨blanks, ⟨kept, keptTiles, sameSource, samePosition⟩, blank⟩

theorem Tiling.emit (tiling : Tiling dialect source state passed)
    (shows : state.rest = text ++ after) :
    Covers dialect source (state.emit sourceName kind text.length) [] :=
  tiling.covers.emit shows fun hasPassed => Or.inr (tiling.asked hasPassed)

/-- A token may take blanks back from the one before it if it is marked for that. -/
theorem Tiling.emit_stripLast (tiling : Tiling dialect source state passed) {strip : Bool}
    (shows : state.rest = text ++ after)
    (marked : strip = true → Token.MarkedBefore dialect
      ⟨kind, String.ofList text, state.position, sourceName⟩) :
    Covers dialect source ((state.stripLast strip).emit sourceName kind text.length) [] := by
  cases strip with
  | false => exact tiling.emit shows
  | true =>
      rcases tiling.covers_stripLast true with ⟨passed, covers⟩
      rw [← state.stripLast_rest true] at shows
      refine covers.emit shows fun _ => Or.inl ?_
      rw [State.stripLast_position]
      exact marked rfl

/-- After a token nothing is passed over yet. -/
theorem Covers.tiling_enter (covers : Covers dialect source state []) {mode : Mode}
    (owes : mode.Owes dialect state.tokens.head? []) :
    ∃ passed, Tiling dialect source (state.enter mode) passed :=
  ⟨[], covers.enter mode, fun hasPassed => absurd rfl hasPassed, owes⟩

/-- A mode after a token owes what the token asks for. -/
theorem Mode.owes_text {token : Token} {trim strip : Bool}
    (trims : trim = true → token.Trims dialect)
    (marked : strip = true → token.MarkedAfter dialect) :
    (Mode.text trim strip).Owes dialect (some token) [] := by
  cases trim with
  | true => exact ⟨rfl, token, rfl, trims rfl, marked⟩
  | false =>
      cases strip with
      | true => exact ⟨token, rfl, marked rfl⟩
      | false => trivial

theorem Mode.owes_raw {token : Token} {opened : Position} {strip : Bool}
    (marked : strip = true → token.MarkedAfter dialect) :
    (Mode.raw opened strip).Owes dialect (some token) [] := by
  cases strip with
  | true => exact ⟨token, rfl, marked rfl⟩
  | false => trivial

theorem Start.markedBefore (start : Start) (position : Position) :
    Token.MarkedBefore dialect ⟨start.kind,
      String.ofList (start.delimiter dialect ++ dash true), position, sourceName⟩ := by
  refine ⟨start.delimiter dialect, ?_, ?_⟩
  · cases start <;> rfl
  · simp

/-- A tag that opens or closes a raw block is taken with its two marks. -/
theorem Tiling.emit_wordTag (tiling : Tiling dialect source state passed) {tag : WordTag}
    {word : List Char} (isTag : kind = .rawBegin ∨ kind = .rawEnd)
    (fits : tag.Fits dialect word state.rest after) :
    Covers dialect source
        ((state.stripLast tag.stripBefore).emit sourceName kind tag.length) [] ∧
      ∃ token : Token, ((state.stripLast tag.stripBefore).emit sourceName kind
          tag.length).tokens.head? = some token ∧ token.kind = kind ∧
        (tag.stripAfter = true → token.MarkedAfter dialect) := by
  rcases fits.exists_text with ⟨written, shows, sameLength, starts, ends⟩
  rw [sameLength]
  constructor
  · refine tiling.emit_stripLast shows fun strip => ⟨dialect.blockStart.toList, ?_, ?_⟩
    · rcases isTag with rfl | rfl <;> rfl
    · simpa [strip] using starts
  · rw [← state.stripLast_rest tag.stripBefore] at shows
    refine ⟨_, State.head?_emit_of_rest shows, rfl, ?_⟩
    intro strip
    refine ⟨dialect.blockEnd.toList, ?_, ?_⟩
    · rcases isTag with rfl | rfl <;> rfl
    · simpa [strip] using ends

theorem closer_markedAfter (tag : TagKind) (position : Position) :
    Token.MarkedAfter dialect ⟨(closer dialect tag).2,
      String.ofList (dash true ++ (closer dialect tag).1), position, sourceName⟩ := by
  refine ⟨(closer dialect tag).1, ?_, ?_⟩
  · cases tag <;> rfl
  · simp

/-- A move keeps the tiling. -/
theorem Move.tiling [Limits] (move : Move dialect sourceName state next)
    (tiling : Tiling dialect source state passed) :
    ∃ passed, Tiling dialect source next passed := by
  have showsAll : state.rest = state.rest ++ [] := (List.append_nil _).symm
  have owes := tiling.owes
  cases move with
  | dropNewline inText =>
      rw [inText] at owes
      rcases owes with ⟨rfl, token, isLast, trims, marked⟩
      rcases state.exists_skipNewline with ⟨text, after, shows, skipped, isNewline⟩
      rw [skipped]
      refine ⟨text, ?_, ?_, ?_⟩
      · have blank : text.all Text.isBlank = true := by
          simp only [List.mem_cons, List.not_mem_nil, or_false] at isNewline
          rcases isNewline with rfl | rfl | rfl <;> decide
        exact (tiling.covers.skip shows blank).enter _
      · intro hasText
        refine ⟨token, isLast, Or.inr ⟨trims, ?_⟩⟩
        simp only [List.mem_cons, List.not_mem_nil, or_false] at isNewline
        rcases isNewline with rfl | rfl | rfl
        · exact absurd rfl hasText
        · exact Or.inl (List.prefix_refl _)
        · exact Or.inr (List.prefix_refl _)
      · rename_i strip
        cases strip with
        | true => exact ⟨token, isLast, marked rfl⟩
        | false => trivial
  | dropBlanks inText =>
      rw [inText] at owes
      rcases owes with ⟨token, isLast, marked⟩
      rcases state.exists_skipBlanks with ⟨text, after, shows, skipped, blank⟩
      rw [skipped]
      exact ⟨_, (tiling.covers.skip shows blank).enter _, fun _ => ⟨token, isLast, Or.inl marked⟩,
        trivial⟩
  | dropRawBlanks inRaw =>
      rw [inRaw] at owes
      rcases owes with ⟨token, isLast, marked⟩
      rcases state.exists_skipBlanks with ⟨text, after, shows, skipped, blank⟩
      rw [skipped]
      exact ⟨_, (tiling.covers.skip shows blank).enter _, fun _ => ⟨token, isLast, Or.inl marked⟩,
        trivial⟩
  | openTag start strip inText shows =>
      refine (tiling.emit_stripLast shows ?_).tiling_enter ?_
      · rintro rfl
        exact start.markedBefore _
      · cases start <;> trivial
  | openRaw inText fits =>
      rcases tiling.emit_wordTag (Or.inl rfl) fits with ⟨covers, token, isLast, _, marked⟩
      exact covers.tiling_enter (isLast ▸ Mode.owes_raw marked)
  | openLine inText isMarker shows => exact (tiling.emit shows).tiling_enter trivial
  | lineComment inText isMarker shows =>
      rw [← State.enter_eq_self (State.emit_mode state _ _)]
      exact (tiling.emit shows).tiling_enter (by rw [inText]; trivial)
  | plain inText shows =>
      rw [← State.enter_eq_self (State.emit_mode state _ _)]
      exact (tiling.emit shows).tiling_enter (by rw [inText]; trivial)
  | endLine inTag shows => exact (tiling.emit shows).tiling_enter trivial
  | @closeTag tag _ strip _ inTag shows =>
      apply (tiling.emit shows).tiling_enter
      rw [State.head?_emit_of_rest shows]
      refine Mode.owes_text ?_ ?_
      · intro trim
        obtain ⟨rfl, trimBlocks⟩ : tag = .block ∧ dialect.trimBlocks = true := by
          simpa using trim
        exact ⟨trimBlocks, by simp [closer]⟩
      · rintro rfl
        exact closer_markedAfter _ _
  | lexeme inTag shows => exact (tiling.emit shows).tiling_enter trivial
  | unclosedString inTag => exact ((tiling.emit showsAll).report _).tiling_enter trivial
  | strayChar inTag shows => exact ((tiling.emit shows).report _).tiling_enter trivial
  | closeComment strip inComment shows =>
      have showsEnd : (state.emit sourceName .comment _).rest = _ := State.emit_rest_of_rest shows
      apply ((tiling.emit shows).emit showsEnd fun hasPassed => absurd rfl hasPassed).tiling_enter
      rw [State.head?_emit_of_rest showsEnd]
      apply Mode.owes_text (fun trim => ⟨trim, by simp⟩)
      rintro rfl
      exact ⟨dialect.commentEnd.toList, rfl, by simp⟩
  | unclosedComment inComment => exact ((tiling.emit showsAll).report _).tiling_enter trivial
  | closeEmptyRaw inRaw fits =>
      rcases tiling.emit_wordTag (Or.inr rfl) fits with ⟨covers, token, isLast, isTag, marked⟩
      exact covers.tiling_enter
        (isLast ▸ Mode.owes_text (fun trim => ⟨trim, by simp [isTag]⟩) marked)
  | closeRaw inRaw shows hasText fits =>
      -- The text of the block is taken first, in a state that is tiled like any other.
      have tilingBody : Tiling dialect source (state.emit sourceName .data _) [] :=
        ⟨tiling.emit shows, fun hasPassed => absurd rfl hasPassed, by
          rw [State.emit_mode, inRaw]
          trivial⟩
      rw [← State.emit_rest_of_rest shows] at fits
      rcases tilingBody.emit_wordTag (Or.inr rfl) fits with ⟨covers, token, isLast, isTag, marked⟩
      exact covers.tiling_enter
        (isLast ▸ Mode.owes_text (fun trim => ⟨trim, by simp [isTag]⟩) marked)
  | unclosedRaw inRaw => exact ((tiling.emit showsAll).report _).tiling_enter trivial

/-- At the end of the walk the tokens tile the whole text, and the last one marks its end. -/
theorem Tiling.finish (tiling : Tiling dialect source state passed) (empty : state.rest = []) :
    ∃ token tokens, (finish sourceName state).tokens = token :: tokens ∧ token.kind = .eof ∧
      token.text = "" ∧ Tiles dialect source (token :: tokens) := by
  have shows : state.rest = [] ++ [] := empty
  have closing : ∃ closed passed, Lexer.finish sourceName state =
      (State.emit closed sourceName .eof 0).enter (.text false false) ∧ closed.rest = [] ∧
      Covers dialect source closed passed ∧
      (passed ≠ [] → AskedBefore dialect closed.tokens.head? passed) := by
    unfold Lexer.finish
    split
    · exact ⟨_, [], rfl, by simp [State.emit, State.skip, empty], (tiling.emit shows).report _,
        fun hasPassed => absurd rfl hasPassed⟩
    · exact ⟨_, passed, rfl, empty, tiling.covers.report _, tiling.asked⟩
    · exact ⟨_, [], rfl, by simp [State.emit, State.skip, empty], tiling.emit shows,
        fun hasPassed => absurd rfl hasPassed⟩
    · exact ⟨state, passed, rfl, empty, tiling.covers, tiling.asked⟩
  rcases closing with ⟨closed, passed, finished, closedEmpty, covers, asked⟩
  have closedShows : closed.rest = [] ++ [] := closedEmpty
  have coversEnd : Covers dialect source (closed.emit sourceName .eof 0) [] :=
    covers.emit closedShows fun hasPassed => Or.inr (asked hasPassed)
  rcases coversEnd.exists_covered with ⟨covered, tiles, sameSource, _⟩
  have sameCovered : source = covered := by
    simpa [State.emit, State.skip, closedEmpty] using sameSource
  subst sameCovered
  exact ⟨_, closed.tokens, by rw [finished]; rfl, rfl, by simp [closedEmpty], tiles⟩

end Lexer

open Lexer

/-- The tokens of a text stand in it in order, and only blanks that one of two neighbours asks for
stand between them; the last token marks the end of the text. If no token asks for anything, the
tokens are the text. -/
theorem tokens_tile_source [Limits] {dialect : Dialect} {sourceName : Option String}
    {source : String} {result : Tokenization}
    (cut : tokenize dialect sourceName source = some result) :
    (∀ token ∈ result.tokens, StandsIn source.toList token) ∧
    (∀ earlier token later, result.tokens = earlier ++ token :: later →
      Adjoins dialect source.toList earlier.getLast? token) ∧
    (∃ tokens last, result.tokens = tokens ++ [last] ∧ last.kind = .eof ∧
      last.position.offset = source.utf8ByteSize) ∧
    (dialect.trimBlocks = false →
      (∀ token ∈ result.tokens, ¬token.MarkedBefore dialect ∧ ¬token.MarkedAfter dialect) →
      result.tokens.flatMap (fun token => token.text.toList) = source.toList) := by
  rcases exists_run_of_tokenize cut with ⟨steps, last, ends, sameTokens, _⟩
  have start : ∃ passed, Tiling dialect source.toList (.ofSource source.toList) passed :=
    ⟨[], ⟨⟨[], .nil, rfl, rfl⟩, rfl⟩, fun hasPassed => absurd rfl hasPassed, trivial⟩
  rcases run_keeps
    (fun state => ∃ passed, Tiling dialect source.toList state passed)
    (fun ⟨_, tiling⟩ _ move => move.tiling tiling) start ends with ⟨⟨passed, tiling⟩, empty⟩
  rcases tiling.finish empty with ⟨token, tokens, finished, isEnd, noText, tiles⟩
  rw [sameTokens, finished]
  refine ⟨?_, ?_, ?_, ?_⟩
  · intro token member
    exact tiles.standsIn (List.prefix_refl _) (List.mem_reverse.1 member)
  · intro earlier token later split
    have split := congrArg List.reverse split
    rw [List.reverse_reverse, List.reverse_append, List.reverse_cons, List.append_assoc] at split
    rw [← List.head?_reverse]
    exact tiles.adjoins (List.prefix_refl _) split
  · refine ⟨tokens.reverse, token, by simp, isEnd, ?_⟩
    have whole := tiles.stopOffset_head?
    simpa [stopOffset, Token.stop, noText, Text.byteLength_eq_utf8ByteSize] using whole
  · intro keeps unmarked
    exact tiles.flatMap_text_eq keeps fun token member => unmarked token (List.mem_reverse.2 member)

/-- A text whose blanks are dropped on both sides of a tag. -/
theorem tokens_tile_source_dashes : ∃ result,
    tokenize {} none "a \x7b%- if b -%\x7d c" = some result ∧
    result.tokens.map (fun token => (token.kind, token.text, token.position.offset)) =
      [(.data, "a", 0), (.blockBegin, "\x7b%-", 2), (.whitespace, " ", 5),
        (.keyword .if_, "if", 6), (.whitespace, " ", 8), (.name, "b", 9), (.whitespace, " ", 10),
        (.blockEnd, "-%\x7d", 11), (.data, "c", 15), (.eof, "", 16)] ∧
    (∀ token ∈ result.tokens, StandsIn "a \x7b%- if b -%\x7d c".toList token) ∧
    ∀ earlier token later, result.tokens = earlier ++ token :: later →
      Adjoins {} "a \x7b%- if b -%\x7d c".toList earlier.getLast? token := by
  obtain ⟨result, cut, sameTokens⟩ : ∃ result,
      tokenize {} none "a \x7b%- if b -%\x7d c" = some result ∧ result.tokens.map
        (fun token => (token.kind, token.text, token.position.offset)) = _ :=
    Option.map_eq_some_iff.1 (by cbv)
  rcases tokens_tile_source cut with ⟨stand, adjoin, -⟩
  exact ⟨result, cut, sameTokens, stand, adjoin⟩

end Stencil

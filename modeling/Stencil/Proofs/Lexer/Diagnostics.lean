import Stencil.Profiles
import Stencil.Proofs.Lexer.Regions
import Stencil.Proofs.Lexer.Tiling
import Stencil.Proofs.Token.Items

/-!
# What the lexer complains about

A diagnostic stands for a character that no token of a tag begins with, or for something that the
end of the text leaves unclosed: a comment, a raw block or a string. The first sort is noted along
with the token for the character. The second sort is noted at most once and ends the walk, since
what is not closed takes all of the text that is left.

As long as the walk goes on, the diagnostics are those of the stray characters, in the order of the
text. Once no text is left, one more may have joined them.
-/

namespace Stencil

namespace Lexer

/-- A diagnostic is about the one character of a token. -/
def Reports (diagnostic : Diagnostic) (token : Token) : Prop :=
  ∃ char, token.text.toList = [char] ∧ diagnostic = .unexpectedCharacter char token.position

/-- The region that tokens, last one first, lead to. -/
def regionOf (tokens : List Token) : Region :=
  Region.text.afterAll tokens.reverse

/-- All strings among some tokens are closed. -/
def AllQuoted (tokens : List Token) : Prop :=
  ∀ token ∈ tokens, token.kind = .string → IsQuoted token.text.toList

/-- Diagnostics, last one first, are about places before an offset, each before the next one. -/
def InOrder (diagnostics : List Diagnostic) (limit : Nat) : Prop :=
  (limit :: diagnostics.map (·.position.offset)).Pairwise (· > ·)

/-- The diagnostics, last one first, of stray characters are those of the tokens, last one
first. -/
def ReportsAll (diagnostics : List Diagnostic) (tokens : List Token) : Prop :=
  List.Forall₂ Reports diagnostics.reverse (Region.text.strays tokens.reverse)

variable {dialect : Dialect} {sourceName : Option String} {state next : State}
  {tokens : List Token} {token : Token} {diagnostics : List Diagnostic} {diagnostic : Diagnostic}

@[simp]
theorem regionOf_cons (token : Token) (tokens : List Token) :
    regionOf (token :: tokens) = (regionOf tokens).after token.kind := by
  simp [regionOf, Region.afterAll]

theorem AllQuoted.cons (quoted : AllQuoted tokens)
    (isQuoted : token.kind = .string → IsQuoted token.text.toList) :
    AllQuoted (token :: tokens) := by
  intro other member
  rcases List.mem_cons.1 member with rfl | member
  · exact isQuoted
  · exact quoted other member

namespace InOrder

variable {limit later : Nat}

theorem mono (inOrder : InOrder diagnostics limit) (isLater : limit ≤ later) :
    InOrder diagnostics later := by
  rcases List.pairwise_cons.1 inOrder with ⟨before, ordered⟩
  refine List.pairwise_cons.2 ⟨?_, ordered⟩
  intro offset member
  have := before offset member
  omega

theorem cons (inOrder : InOrder diagnostics diagnostic.position.offset)
    (isBefore : diagnostic.position.offset < later) : InOrder (diagnostic :: diagnostics) later := by
  refine List.pairwise_cons.2 ⟨?_, inOrder⟩
  intro offset member
  rcases List.mem_cons.1 member with rfl | member
  · exact isBefore
  · have := (List.pairwise_cons.1 inOrder).1 offset member
    omega

end InOrder

namespace ReportsAll

theorem strays_cons (token : Token) (tokens : List Token) :
    Region.text.strays (token :: tokens).reverse = Region.text.strays tokens.reverse ++
      if token.kind = .data ∧ (regionOf tokens).isTag = true then [token] else [] := by
  rw [List.reverse_cons, Region.strays_append]
  simp only [Region.strays, List.append_nil]
  rfl

/-- A token that is no stray character adds no diagnostic. -/
theorem cons (reports : ReportsAll diagnostics tokens)
    (notStray : token.kind = .data → (regionOf tokens).isTag = false) :
    ReportsAll diagnostics (token :: tokens) := by
  rw [ReportsAll, strays_cons, if_neg]
  · simpa [ReportsAll] using reports
  · rintro ⟨isData, inTag⟩
    simp [notStray isData] at inTag

theorem of_cons (reports : ReportsAll diagnostics (token :: tokens))
    (notTag : (regionOf tokens).isTag = false) : ReportsAll diagnostics tokens := by
  rw [ReportsAll, strays_cons, notTag] at reports
  simpa [ReportsAll] using reports

/-- What is noted about stray characters is that they are not expected. -/
theorem exists_unexpected (reports : ReportsAll diagnostics tokens)
    (member : diagnostic ∈ diagnostics) :
    ∃ char position, diagnostic = .unexpectedCharacter char position := by
  have each := List.Forall₂.imp (S := fun diagnostic token =>
    (∃ char position, diagnostic = .unexpectedCharacter char position) ∧
      Reports diagnostic token) (fun _ token reported => by
        rcases reported with ⟨char, sameText, rfl⟩
        exact ⟨⟨char, token.position, rfl⟩, char, sameText, rfl⟩) reports
  exact ((List.forall₂_and_left _ _).1 each).1 diagnostic (List.mem_reverse.2 member)

/-- A stray character is noted. -/
theorem cons_stray (reports : ReportsAll diagnostics tokens) (isData : token.kind = .data)
    (inTag : (regionOf tokens).isTag = true) (isReport : Reports diagnostic token) :
    ReportsAll (diagnostic :: diagnostics) (token :: tokens) := by
  rw [ReportsAll, strays_cons, if_pos ⟨isData, inTag⟩, List.reverse_cons]
  exact List.rel_append reports (.cons isReport .nil)

theorem length_text (reports : ReportsAll diagnostics tokens)
    (isStray : token ∈ Region.text.strays tokens.reverse) : token.text.length = 1 := by
  have oneChar : ∀ {diagnostics strays}, List.Forall₂ Reports diagnostics strays →
      token ∈ strays → token.text.length = 1 := by
    intro diagnostics strays reports member
    induction reports with
    | nil => simp at member
    | cons isReport _ ih =>
        rcases List.mem_cons.1 member with rfl | later
        · rcases isReport with ⟨char, isChar, _⟩
          rw [← String.length_toList, isChar]
          rfl
        · exact ih later
  exact oneChar reports isStray

end ReportsAll

@[simp]
theorem State.stripLast_diagnostics (state : State) (strip : Bool) :
    (state.stripLast strip).diagnostics = state.diagnostics := by
  unfold State.stripLast
  repeat' split
  all_goals rfl

@[simp]
theorem regionOf_emit (state : State) (kind : Token.Kind) (count : Nat) :
    regionOf (state.emit sourceName kind count).tokens = (regionOf state.tokens).after kind :=
  regionOf_cons _ _

theorem isTag_of_isBetween {region : Region} (isBetween : region.isBetween = true) :
    region.isTag = false := by
  cases region <;> simp_all [Region.isBetween, Region.isTag]

theorem isTag_of_after_data {region : Region} (notTag : (region.after .data).isTag = false) :
    region.isTag = false := by
  cases region <;> simp_all [Region.after, Region.isTag]

/-- The diagnostics so far are about the stray characters, and all strings are closed. -/
structure Noted (diagnostics : List Diagnostic) (tokens : List Token) : Prop where
  reports : ReportsAll diagnostics tokens
  quoted : AllQuoted tokens

namespace Noted

theorem cons (noted : Noted diagnostics tokens)
    (notStray : token.kind = .data → (regionOf tokens).isTag = false)
    (isQuoted : token.kind = .string → IsQuoted token.text.toList) :
    Noted diagnostics (token :: tokens) :=
  ⟨noted.reports.cons notStray, noted.quoted.cons isQuoted⟩

/-- What is taken back from a run of plain text outside of tags is no stray character. -/
theorem stripLast (noted : Noted diagnostics state.tokens)
    (notTag : (regionOf state.tokens).isTag = false) (strip : Bool) :
    Noted diagnostics (state.stripLast strip).tokens := by
  rcases state.stripLast_cases strip with same | ⟨last, tokens, sameTokens, isData, stripped⟩
  · rw [same]
    exact noted
  · rw [sameTokens, regionOf_cons, isData] at notTag
    have notTagBefore := isTag_of_after_data notTag
    rw [sameTokens] at noted
    have notedBefore : Noted diagnostics tokens :=
      ⟨noted.reports.of_cons notTagBefore, fun token member => noted.quoted token (by simp [member])⟩
    rw [stripped, State.trimmed]
    split
    · exact notedBefore
    · refine notedBefore.cons (fun _ => notTagBefore) ?_
      simp [isData]

end Noted

/-! ### The walk -/

/-- A comment or a raw block was opened by the last token, after all diagnostics. -/
structure OpenedBy (tokens : List Token) (diagnostics : List Diagnostic) (kind : Token.Kind)
    (opened : Position) : Prop where
  exists_opening : ∃ opening earlier, tokens = opening :: earlier ∧ opening.kind = kind ∧
    opening.position = opened
  inOrder : InOrder diagnostics opened.offset

/-- What the mode of a state says of its tokens. -/
def State.Surrounded (state : State) : Prop :=
  match state.mode with
  | .text _ _ => (regionOf state.tokens).isBetween = true
  | .tag _ _ => (regionOf state.tokens).isTag = true
  | .comment opened => OpenedBy state.tokens state.diagnostics .commentBegin opened
  | .raw opened _ => OpenedBy state.tokens state.diagnostics .rawBegin opened

/-- All diagnostics so far are about stray characters, and all strings are closed. -/
structure Going (state : State) : Prop where
  noted : Noted state.diagnostics state.tokens
  inOrder : InOrder state.diagnostics state.position.offset
  surrounded : state.Surrounded

/-- What the end of a text leaves unclosed after tokens, last one first, with the diagnostic about
it. -/
inductive Unterminated (size : Nat) : List Token → Option Diagnostic → Prop where
  | nothing {tokens : List Token} (quoted : AllQuoted tokens)
      (closed : (regionOf tokens).isBetween = true ∨ (regionOf tokens).isTag = true) :
      Unterminated size tokens none
  | comment {earlier : List Token} {opening body : Token}
      (quoted : AllQuoted (body :: opening :: earlier)) (opens : opening.kind = .commentBegin)
      (isBody : body.kind = .comment) :
      Unterminated size (body :: opening :: earlier) (some (.unterminatedComment opening.position))
  | raw {earlier : List Token} {opening : Token} {content : Option Token}
      (quoted : AllQuoted (content.toList ++ opening :: earlier))
      (opens : opening.kind = .rawBegin) (isData : ∀ token ∈ content, token.kind = .data) :
      Unterminated size (content.toList ++ opening :: earlier)
        (some (.unterminatedRaw opening.position))
  | string {earlier later : List Token} {token : Token} (isString : token.kind = .string)
      (unquoted : ¬IsQuoted token.text.toList)
      (toEnd : token.stop.offset = size) (noString : ∀ token ∈ later, token.kind ≠ .string)
      (closed : (regionOf (later ++ token :: earlier)).isBetween = true ∨
        (regionOf (later ++ token :: earlier)).isTag = true) :
      Unterminated size (later ++ token :: earlier) (some (.unterminatedString token.position))

/-- The diagnostics of a text that ends at an offset: those of the stray characters, and the one
about what is left unclosed. -/
structure Ending (size : Nat) (tokens : List Token) (diagnostics : List Diagnostic) : Prop where
  exists_unterminated : ∃ unterminated unexpected,
    diagnostics = unterminated.toList ++ unexpected ∧ ReportsAll unexpected tokens ∧
    Unterminated size tokens unterminated
  inOrder : (diagnostics.map (·.position.offset)).Pairwise (· > ·)

/-- No text is left after something that is not closed. -/
structure Stopped (state : State) : Prop where
  empty : state.rest = []
  ending : Ending state.position.offset state.tokens state.diagnostics
  settled : (∃ trim strip, state.mode = .text trim strip) ∨
    (∃ kind brackets, state.mode = .tag kind brackets) ∧ (regionOf state.tokens).isTag = true

/-- A move leads on in the text. -/
theorem Move.offset_le [Limits] (move : Move dialect sourceName state next) :
    state.position.offset ≤ next.position.offset := by
  cases move with
  | dropNewline =>
      rcases state.exists_skipNewline with ⟨text, _, _, skipped, _⟩
      simp [skipped, State.skip, Position.offset_advanceOver]
  | _ =>
      simp [State.emit, State.skip, State.skipBlanks, Position.offset_advanceOver, Nat.add_assoc]

/-- One more diagnostic, about what takes the rest of the text, ends the walk. -/
theorem Ending.of_unterminated {size : Nat} (reports : ReportsAll diagnostics tokens)
    (unterminated : Unterminated size tokens (some diagnostic))
    (inOrder : InOrder diagnostics diagnostic.position.offset) :
    Ending size tokens (diagnostic :: diagnostics) :=
  ⟨⟨some diagnostic, diagnostics, rfl, reports, unterminated⟩, inOrder⟩

namespace OpenedBy

variable {size : Nat} {opened : Position}

theorem unterminated_comment (opener : OpenedBy tokens diagnostics .commentBegin opened)
    (quoted : AllQuoted tokens) (isBody : token.kind = .comment) :
    Unterminated size (token :: tokens) (some (.unterminatedComment opened)) := by
  rcases opener.exists_opening with ⟨opening, earlier, rfl, opens, rfl⟩
  exact .comment (quoted.cons (by simp [isBody])) opens isBody

theorem unterminated_raw (opener : OpenedBy tokens diagnostics .rawBegin opened)
    (quoted : AllQuoted tokens) (content : Option Token)
    (isData : ∀ token ∈ content, token.kind = .data) :
    Unterminated size (content.toList ++ tokens) (some (.unterminatedRaw opened)) := by
  rcases opener.exists_opening with ⟨opening, earlier, rfl, opens, rfl⟩
  refine .raw ?_ opens isData
  cases content with
  | none => exact quoted
  | some body => exact quoted.cons (by simp [isData])

theorem regionOf_eq_raw (opener : OpenedBy tokens diagnostics .rawBegin opened) :
    regionOf tokens = .raw := by
  rcases opener.exists_opening with ⟨opening, earlier, rfl, opens, rfl⟩
  rw [regionOf_cons, opens]
  rfl

end OpenedBy

/-- A token that is no stray character and no open string goes on with the walk. -/
theorem Noted.going_emit {kind : Token.Kind} {count : Nat} {mode : Mode}
    (noted : Noted state.diagnostics state.tokens)
    (inOrder : InOrder state.diagnostics (state.emit sourceName kind count).position.offset)
    (surrounded : ((state.emit sourceName kind count).enter mode).Surrounded)
    (notStray : kind = .data → (regionOf state.tokens).isTag = false)
    (isQuoted : kind = .string → IsQuoted (state.rest.take count)) :
    Going ((state.emit sourceName kind count).enter mode) := by
  refine ⟨noted.cons notStray ?_, inOrder, surrounded⟩
  simpa using isQuoted

/-- A token that opens an item, or ends a raw block, may have taken blanks back before. -/
theorem Noted.going_stripLast {kind : Token.Kind} {count : Nat} {mode : Mode} {strip : Bool}
    (noted : Noted state.diagnostics state.tokens)
    (notTag : (regionOf state.tokens).isTag = false)
    (inOrder : InOrder state.diagnostics
      ((state.stripLast strip).emit sourceName kind count).position.offset)
    (surrounded : (((state.stripLast strip).emit sourceName kind count).enter mode).Surrounded)
    (notData : kind ≠ .data) (notString : kind ≠ .string) :
    Going (((state.stripLast strip).emit sourceName kind count).enter mode) := by
  have stripped := noted.stripLast notTag strip
  rw [← state.stripLast_diagnostics strip] at stripped inOrder
  exact stripped.going_emit inOrder surrounded (fun isData => absurd isData notData)
    (fun isString => absurd isString notString)

section Surrounded

variable {kind : Token.Kind} {count : Nat}

theorem surrounded_text {trim strip : Bool}
    (isBetween : ((regionOf state.tokens).after kind).isBetween = true) :
    ((state.emit sourceName kind count).enter (.text trim strip)).Surrounded := by
  rwa [← regionOf_emit] at isBetween

theorem surrounded_tag {tag : TagKind} {brackets : Nat}
    (inTag : ((regionOf state.tokens).after kind).isTag = true) :
    ((state.emit sourceName kind count).enter (.tag tag brackets)).Surrounded := by
  rwa [← regionOf_emit] at inTag

/-- A token has just opened a comment or a raw block. -/
theorem openedBy_emit {strip : Bool}
    (inOrder : InOrder state.diagnostics state.position.offset) :
    OpenedBy ((state.stripLast strip).emit sourceName kind count).tokens
      (state.stripLast strip).diagnostics kind state.position := by
  refine ⟨⟨_, _, rfl, rfl, state.stripLast_position strip⟩, ?_⟩
  rwa [State.stripLast_diagnostics]

end Surrounded

/-- As long as text is left, a move keeps the diagnostics to those of stray characters. -/
theorem Move.going [Limits] (move : Move dialect sourceName state next)
    (going : Going state) : Going next ∨ Stopped next := by
  have inOrder := going.inOrder.mono move.offset_le
  have surrounded := going.surrounded
  have noted := going.noted
  unfold State.Surrounded at surrounded
  cases move with
  | dropNewline inText =>
      rw [inText] at surrounded
      rcases state.exists_skipNewline with ⟨text, _, _, skipped, _⟩
      rw [skipped] at inOrder ⊢
      exact Or.inl ⟨noted, inOrder, surrounded⟩
  | dropBlanks inText =>
      rw [inText] at surrounded
      exact Or.inl ⟨noted, inOrder, surrounded⟩
  | dropRawBlanks inRaw =>
      rw [inRaw] at surrounded
      exact Or.inl ⟨noted, inOrder, surrounded⟩
  | openTag start strip inText =>
      rw [inText] at surrounded
      have notTag := isTag_of_isBetween surrounded
      rcases start with _ | _ | _
      · exact Or.inl
          (noted.going_stripLast notTag inOrder (surrounded_tag rfl) (by simp [Start.kind])
            (by simp [Start.kind]))
      · exact Or.inl
          (noted.going_stripLast notTag inOrder (surrounded_tag rfl) (by simp [Start.kind])
            (by simp [Start.kind]))
      · exact Or.inl
          (noted.going_stripLast notTag inOrder (openedBy_emit going.inOrder)
            (by simp [Start.kind]) (by simp [Start.kind]))
  | openRaw inText =>
      rw [inText] at surrounded
      have notTag := isTag_of_isBetween surrounded
      exact Or.inl (noted.going_stripLast notTag inOrder (openedBy_emit going.inOrder) (by simp)
        (by simp))
  | openLine inText =>
      exact Or.inl (noted.going_emit inOrder (surrounded_tag rfl) (by simp) (by simp))
  | lineComment inText =>
      rw [← State.enter_eq_self (State.emit_mode state _ _), inText]
      exact Or.inl (noted.going_emit inOrder (surrounded_text rfl) (by simp) (by simp))
  | plain inText =>
      rw [inText] at surrounded
      rw [← State.enter_eq_self (State.emit_mode state _ _), inText]
      have between : ((regionOf state.tokens).after .data).isBetween = true := by
        revert surrounded
        cases regionOf state.tokens <;> simp [Region.after, Region.isBetween]
      exact Or.inl (noted.going_emit inOrder (surrounded_text between)
        (fun _ => isTag_of_isBetween surrounded) (by simp))
  | endLine inTag =>
      exact Or.inl (noted.going_emit inOrder (surrounded_text rfl) (by simp) (by simp))
  | @closeTag tag _ strip _ inTag =>
      rcases tag with _ | _ | _
      all_goals
        exact Or.inl (noted.going_emit inOrder (surrounded_text rfl) (by simp [closer])
          (by simp [closer]))
  | lexeme inTag shows _ inner quoted =>
      rw [inTag] at surrounded
      refine Or.inl (noted.going_emit inOrder (surrounded_tag ?_) ?_ ?_)
      · rwa [Region.after_of_isInner inner]
      · rintro rfl
        simp [Token.Kind.isInner] at inner
      · simpa [shows] using quoted
  | unclosedString inTag unquoted =>
      rw [inTag] at surrounded
      refine Or.inr ⟨by simp [State.emit, State.skip], ?_, Or.inr ⟨⟨_, _, rfl⟩, ?_⟩⟩
      · refine .of_unterminated (noted.reports.cons (by simp)) ?_ going.inOrder
        refine @Unterminated.string _ state.tokens [] _ rfl ?_ ?_ (by simp) ?_
        · simpa using unquoted
        · simp [Token.stop, State.emit, State.skip]
        · rw [List.nil_append, regionOf_cons]
          exact Or.inr surrounded
      · rw [State.enter_tokens, State.report_tokens, regionOf_emit]
        exact surrounded
  | @strayChar tag _ char after inTag shows =>
      rw [inTag] at surrounded
      have same : (regionOf state.tokens).after .data = regionOf state.tokens := by
        revert surrounded
        cases regionOf state.tokens <;> simp [Region.after, Region.isTag]
      have isReport : Reports (.unexpectedCharacter char state.position)
          ⟨.data, String.ofList (state.rest.take 1), state.position, sourceName⟩ :=
        ⟨char, by simp [shows], rfl⟩
      refine Or.inl ⟨⟨noted.reports.cons_stray rfl surrounded isReport,
        noted.quoted.cons (by simp)⟩, going.inOrder.cons ?_, ?_⟩
      · have := char.utf8Size_pos
        simpa [State.emit, State.skip, shows, Position.offset_advanceOver, Diagnostic.position]
      · have inTag : ((regionOf state.tokens).after .data).isTag = true := by
          rw [same]
          exact surrounded
        rwa [← regionOf_emit] at inTag
  | @closeComment _ strip comment _ inComment shows =>
      have body : Noted state.diagnostics (state.emit sourceName .comment comment.length).tokens :=
        noted.cons (by simp) (by simp)
      exact Or.inl (body.going_emit inOrder (surrounded_text rfl) (by simp) (by simp))
  | unclosedComment inComment =>
      rw [inComment] at surrounded
      exact Or.inr ⟨by simp [State.emit, State.skip],
        .of_unterminated (noted.reports.cons (by simp))
          (surrounded.unterminated_comment noted.quoted rfl) surrounded.inOrder,
        Or.inl ⟨_, _, rfl⟩⟩
  | closeEmptyRaw inRaw =>
      rw [inRaw] at surrounded
      have notTag : (regionOf state.tokens).isTag = false := by
        rw [surrounded.regionOf_eq_raw]
        rfl
      exact Or.inl (noted.going_stripLast notTag inOrder (surrounded_text rfl) (by simp) (by simp))
  | @closeRaw _ _ content _ _ inRaw shows =>
      rw [inRaw] at surrounded
      have isRaw := surrounded.regionOf_eq_raw
      have body : Noted state.diagnostics (state.emit sourceName .data content.length).tokens :=
        noted.cons (by simp [isRaw, Region.isTag]) (by simp)
      have notTag : (regionOf (state.emit sourceName .data content.length).tokens).isTag = false := by
        rw [regionOf_emit, isRaw]
        rfl
      exact Or.inl (body.going_stripLast notTag inOrder (surrounded_text rfl) (by simp) (by simp))
  | unclosedRaw inRaw =>
      rw [inRaw] at surrounded
      have notTag : (regionOf state.tokens).isTag = false := by
        rw [surrounded.regionOf_eq_raw]
        rfl
      exact Or.inr ⟨by simp [State.emit, State.skip],
        .of_unterminated (noted.reports.cons fun _ => notTag)
          (surrounded.unterminated_raw noted.quoted (some _) (by simp)) surrounded.inOrder,
        Or.inl ⟨_, _, rfl⟩⟩

/-- The token that ends a line statement at the end of a text leaves its diagnostics as they
are. -/
theorem Ending.cons_blockEnd {size : Nat} (ending : Ending size tokens diagnostics)
    (inTag : (regionOf tokens).isTag = true) (isEnd : token.kind = .blockEnd) :
    Ending size (token :: tokens) diagnostics := by
  rcases ending.exists_unterminated with ⟨unterminated, unexpected, rfl, reports, isUnterminated⟩
  refine ⟨⟨unterminated, unexpected, rfl, reports.cons (by simp [isEnd]), ?_⟩, ending.inOrder⟩
  have closed : (regionOf (token :: tokens)).isBetween = true := by
    rw [regionOf_cons, isEnd]
    rfl
  cases isUnterminated with
  | nothing quoted => exact .nothing (quoted.cons (by simp [isEnd])) (Or.inl closed)
  | comment _ _ isBody => simp [isBody, Region.after, Region.isTag] at inTag
  | @raw earlier opening content _ opens isData =>
      cases content with
      | none => simp [opens, Region.after, Region.isTag] at inTag
      | some body => simp [opens, isData, Region.after, Region.isTag] at inTag
  | @string earlier later last isString unquoted toEnd noString =>
      refine @Unterminated.string _ earlier (token :: later) last isString unquoted toEnd ?_
        (Or.inl closed)
      simpa [isEnd] using noString

theorem Going.ending {size : Nat} (going : Going state)
    (closed : (regionOf state.tokens).isBetween = true ∨ (regionOf state.tokens).isTag = true) :
    Ending size state.tokens state.diagnostics :=
  ⟨⟨none, state.diagnostics, rfl, going.noted.reports, .nothing going.noted.quoted closed⟩,
    (List.pairwise_cons.1 going.inOrder).2⟩

/-- The diagnostics when a walk is over. -/
theorem ending_finish (sourceName : Option String) (watched : Going state ∨ Stopped state) :
    ∃ last tokens, (finish sourceName state).tokens = last :: tokens ∧ last.kind = .eof ∧
      Ending state.position.offset tokens (finish sourceName state).diagnostics := by
  cases isMode : state.mode with
  | text trim strip =>
      have ending : Ending state.position.offset state.tokens state.diagnostics := by
        rcases watched with going | stopped
        · have surrounded := going.surrounded
          rw [State.Surrounded, isMode] at surrounded
          exact going.ending (Or.inl surrounded)
        · exact stopped.ending
      simp only [finish, isMode]
      exact ⟨_, _, rfl, rfl, ending⟩
  | tag kind brackets =>
      have ending : Ending state.position.offset state.tokens state.diagnostics ∧
          (regionOf state.tokens).isTag = true := by
        rcases watched with going | stopped
        · have surrounded := going.surrounded
          rw [State.Surrounded, isMode] at surrounded
          exact ⟨going.ending (Or.inr surrounded), surrounded⟩
        · rcases stopped.settled with ⟨_, _, inText⟩ | ⟨_, inTag⟩
          · simp [isMode] at inText
          · exact ⟨stopped.ending, inTag⟩
      simp only [finish, isMode]
      cases kind with
      | line => exact ⟨_, _, rfl, rfl, ending.1.cons_blockEnd ending.2 rfl⟩
      | _ => exact ⟨_, _, rfl, rfl, ending.1⟩
  | comment opened =>
      rcases watched with going | stopped
      · have surrounded := going.surrounded
        rw [State.Surrounded, isMode] at surrounded
        simp only [finish, isMode]
        exact ⟨_, _, rfl, rfl, .of_unterminated (going.noted.reports.cons (by simp))
          (surrounded.unterminated_comment going.noted.quoted rfl) surrounded.inOrder⟩
      · simpa [isMode] using stopped.settled
  | raw opened strip =>
      rcases watched with going | stopped
      · have surrounded := going.surrounded
        rw [State.Surrounded, isMode] at surrounded
        simp only [finish, isMode]
        exact ⟨_, _, rfl, rfl, .of_unterminated going.noted.reports
          (surrounded.unterminated_raw going.noted.quoted none (by simp)) surrounded.inOrder⟩
      · simpa [isMode] using stopped.settled

/-- The diagnostics of a text are those of its tokens up to the one for the end. -/
theorem exists_ending_of_tokenize [Limits] {source : String} {result : Tokenization}
    (cut : tokenize dialect sourceName source = some result) :
    ∃ tokens last, result.tokens = tokens.reverse ++ [last] ∧ last.kind = .eof ∧
      Ending source.utf8ByteSize tokens result.diagnostics.reverse := by
  rcases exists_run_of_tokenize cut with ⟨steps, state, ends, sameTokens, sameDiagnostics⟩
  have start : (∃ passed, Tiling dialect source.toList (.ofSource source.toList) passed) ∧
      (Going (.ofSource source.toList) ∨ Stopped (.ofSource source.toList)) :=
    ⟨⟨[], ⟨⟨[], .nil, rfl, rfl⟩, rfl⟩, fun hasPassed => absurd rfl hasPassed, trivial⟩,
      Or.inl ⟨⟨.nil, by simp [AllQuoted, State.ofSource]⟩, by simp [InOrder, State.ofSource], rfl⟩⟩
  have keeps {before after : State}
      (kept : (∃ passed, Tiling dialect source.toList before passed) ∧
        (Going before ∨ Stopped before)) (nonempty : before.rest ≠ [])
      (move : Move dialect sourceName before after) :
      (∃ passed, Tiling dialect source.toList after passed) ∧ (Going after ∨ Stopped after) := by
    rcases kept with ⟨⟨_, tiling⟩, watched⟩
    exact ⟨move.tiling tiling,
      watched.elim move.going fun stopped => absurd stopped.empty nonempty⟩
  rcases run_keeps
    (fun state => (∃ passed, Tiling dialect source.toList state passed) ∧
      (Going state ∨ Stopped state)) keeps start ends with ⟨⟨⟨passed, tiling⟩, watched⟩, empty⟩
  rcases ending_finish sourceName watched with ⟨last, tokens, finished, isEnd, ending⟩
  refine ⟨tokens, last, by simp [sameTokens, finished], isEnd, ?_⟩
  rcases tiling.covers.exists_covered with ⟨covered, _, sameSource, samePosition⟩
  have whole : covered ++ passed = source.toList := by simp [sameSource, empty]
  have size : state.position.offset = source.utf8ByteSize := by
    rw [samePosition, whole, Position.offset_start_advanceOver, Text.byteLength_eq_utf8ByteSize,
      String.ofList_toList]
  rw [sameDiagnostics, List.reverse_reverse, ← size]
  exact ending

/-! ### What is left unclosed -/

/-- What is left unclosed, read off the last item, which may be unfinished, and the last string. -/
structure LeftOpen (size : Nat) (tokens last : List Token) (unterminated : Option Diagnostic) :
    Prop where
  isUnterminated : ∀ diagnostic ∈ unterminated, diagnostic.isUnterminated = true
  comment_iff (position : Position) : unterminated = some (.unterminatedComment position) ↔
    Unfinished last .commentEnd ∧ last.head?.map (·.position) = some position
  raw_iff (position : Position) : unterminated = some (.unterminatedRaw position) ↔
    Unfinished last .rawEnd ∧ last.head?.map (·.position) = some position
  string_iff (position : Position) : unterminated = some (.unterminatedString position) ↔
    ∃ token, (tokens.filter (·.kind = .string)).getLast? = some token ∧
      token.position = position ∧ token.stop.offset = size ∧ ¬IsQuoted token.text.toList

/-- An open string at the end is not closed. -/
theorem AllQuoted.not_exists_unquoted (quoted : AllQuoted tokens) (size : Nat)
    (position : Position) :
    ¬∃ token, (tokens.reverse.filter (·.kind = .string)).getLast? = some token ∧
      token.position = position ∧ token.stop.offset = size ∧ ¬IsQuoted token.text.toList := by
  rintro ⟨token, isLast, _, _, unquoted⟩
  have member := List.mem_of_getLast? isLast
  simp only [List.mem_filter, List.mem_reverse, decide_eq_true_eq] at member
  exact unquoted (quoted token member.1 member.2)

theorem not_unfinished_of_closed {items : List (List Token)} {last : List Token} {region : Region}
    (split : Region.Split tokens region items last)
    (closed : region.isBetween = true ∨ region.isTag = true) {kind : Token.Kind}
    (notTag : kind = .commentEnd ∨ kind = .rawEnd) : ¬Unfinished last kind := by
  intro unfinished
  have isKind := unfinished.closing?_head?
  rcases closed with isBetween | inTag
  · simp [split.current_eq_nil isBetween] at isKind
  · have isEither : region = .block ∨ region = .variable := by simpa [Region.isTag] using inTag
    have holds := split.holds
    rcases isEither with rfl | rfl
    · have isEnd := Unfinished.closing?_head? holds
      rw [isEnd] at isKind
      rcases notTag with rfl | rfl <;> simp at isKind
    · have isEnd := Unfinished.closing?_head? holds
      rw [isEnd] at isKind
      rcases notTag with rfl | rfl <;> simp at isKind

theorem Unterminated.leftOpen {size : Nat} {unterminated : Option Diagnostic}
    {items : List (List Token)} {last : List Token}
    (isUnterminated : Unterminated size tokens unterminated)
    (split : Region.Split tokens.reverse (regionOf tokens) items last) :
    LeftOpen size tokens.reverse last unterminated := by
  have holds := split.holds
  cases isUnterminated with
  | nothing quoted closed =>
      have noComment : ¬Unfinished last .commentEnd :=
        not_unfinished_of_closed split closed (Or.inl rfl)
      have noRaw : ¬Unfinished last .rawEnd := not_unfinished_of_closed split closed (Or.inr rfl)
      refine ⟨by simp, by simp [noComment], by simp [noRaw], fun position => ?_⟩
      exact iff_of_false nofun (quoted.not_exists_unquoted size position)
  | @comment earlier opening body quoted opens isBody =>
      rw [regionOf_cons, isBody] at holds
      have unfinished : Unfinished last .commentEnd := holds
      have sameLast : [opening, body] = last := by
        have sameTokens : (body :: opening :: earlier).reverse = earlier.reverse ++ [opening, body] :=
          by simp
        cases unfinished
        exact split.eq_current sameTokens rfl
      subst sameLast
      have noRaw : ¬Unfinished [opening, body] .rawEnd := by
        intro isRaw
        simpa using isRaw.closing?_head?.symm.trans unfinished.closing?_head?
      refine ⟨by simp [Diagnostic.isUnterminated], by simp [unfinished], by simp [noRaw],
        fun position => ?_⟩
      exact iff_of_false nofun (quoted.not_exists_unquoted size position)
  | @raw earlier opening content quoted opens isData =>
      have sameLast : opening :: content.toList = last := by
        cases content with
        | none =>
            simp only [Option.toList_none, List.nil_append, regionOf_cons, opens] at holds
            rcases holds with ⟨_, _, rfl⟩
            exact split.eq_current List.reverse_cons rfl
        | some body =>
            simp only [Option.toList_some, List.cons_append, List.nil_append, regionOf_cons, opens,
              isData body rfl] at holds
            rcases holds with ⟨_, _, _, _, rfl⟩
            have sameTokens : (body :: opening :: earlier).reverse =
                earlier.reverse ++ [opening, body] := by simp
            exact split.eq_current sameTokens rfl
      have unfinished : Unfinished (opening :: content.toList) .rawEnd := .raw opens isData
      subst sameLast
      have noComment : ¬Unfinished (opening :: content.toList) .commentEnd := by
        intro isComment
        simpa using isComment.closing?_head?.symm.trans unfinished.closing?_head?
      refine ⟨by simp [Diagnostic.isUnterminated], by simp [noComment], by simp [unfinished],
        fun position => ?_⟩
      exact iff_of_false nofun (quoted.not_exists_unquoted size position)
  | @string earlier later token isString unquoted toEnd noString closed =>
      have noComment : ¬Unfinished last .commentEnd :=
        not_unfinished_of_closed split closed (Or.inl rfl)
      have noRaw : ¬Unfinished last .rawEnd := not_unfinished_of_closed split closed (Or.inr rfl)
      refine ⟨by simp [Diagnostic.isUnterminated], by simp [noComment], by simp [noRaw],
        fun position => ?_⟩
      have isLast : ((later ++ token :: earlier).reverse.filter (·.kind = .string)).getLast? =
          some token := by
        have nothingLater : later.filter (·.kind = .string) = [] := by simpa using noString
        simp [List.filter_reverse, nothingLater, isString]
      simp only [isLast, Option.some.injEq, Diagnostic.unterminatedString.injEq, exists_eq_left',
        toEnd, unquoted, not_false_eq_true, and_self, and_true]

end Lexer

open Lexer

/-- The tokens of a text are items, of which the last one may be unfinished, and one token for the
end. The diagnostics are those of the stray characters of the items, and one about what is left
unclosed. -/
structure Tokenization.Described (result : Tokenization) (size : Nat) (items : List (List Token))
    (last : List Token) (final : Token) (unexpected : List Diagnostic)
    (unterminated : Option Diagnostic) : Prop where
  tokens_eq : result.tokens = items.flatten ++ last ++ [final]
  each : ∀ item ∈ items, Item item
  apart : Item.Apart items
  last_cases : last = [] ∨ ∃ kind, Unfinished last kind
  isEnd : final.kind = .eof
  onlyEnd : ∀ token ∈ items.flatten ++ last, token.kind ≠ .eof
  diagnostics_eq : result.diagnostics = unexpected ++ unterminated.toList
  reports : List.Forall₂ Reports unexpected ((items ++ [last]).flatMap Item.strays)
  inOrder : (result.diagnostics.map (·.position.offset)).Pairwise (· < ·)
  leftOpen : LeftOpen size result.tokens last unterminated

theorem tokenize_described [Limits] {dialect : Dialect} {sourceName : Option String}
    {source : String} {result : Tokenization}
    (cut : tokenize dialect sourceName source = some result) :
    ∃ items last final unexpected unterminated,
      result.Described source.utf8ByteSize items last final unexpected unterminated := by
  rcases exists_ending_of_tokenize cut with ⟨tokens, final, sameTokens, isEnd, ending⟩
  rcases ending.exists_unterminated with
    ⟨unterminated, unexpected, sameDiagnostics, reports, isUnterminated⟩
  have shapes := (shapes_of_tokenize cut).1
  rw [sameTokens] at shapes
  have onlyEnd := shapes.kind_ne_eof
  rw [Region.shapes_append] at shapes
  rcases Region.exists_split tokens.reverse shapes.1 onlyEnd fun _ => reports.length_text with
    ⟨items, last, split⟩
  have allowed : (Region.text.afterAll tokens.reverse).allows .eof = true := isEnd ▸ shapes.2.1
  have leftOpen := isUnterminated.leftOpen split
  refine ⟨items, last, final, unexpected.reverse, unterminated, ?_⟩
  constructor
  · rw [sameTokens, split.tokens_eq]
  · exact split.each
  · exact split.apart
  · exact split.current_cases allowed
  · exact isEnd
  · rwa [← split.tokens_eq]
  · have sameOrder := congrArg List.reverse sameDiagnostics
    cases unterminated <;> simpa using sameOrder
  · rw [ReportsAll, split.strays_eq] at reports
    simpa using reports
  · have inOrder := ending.inOrder
    rw [List.map_reverse, List.pairwise_reverse] at inOrder
    exact inOrder
  · have noString : [final].filter (·.kind = .string) = [] := by simp [isEnd]
    refine ⟨leftOpen.isUnterminated, leftOpen.comment_iff, leftOpen.raw_iff, ?_⟩
    rw [sameTokens, List.filter_append, noString, List.append_nil]
    exact leftOpen.string_iff

/-- A text with a stray character, whose last string is not closed. -/
theorem tokenize_described_open_string : ∃ result,
    tokenize {} none "a\x7b% @ b 'c" = some result ∧
    result.tokens.map (fun token => (token.kind, token.text)) =
      [(.data, "a"), (.blockBegin, "\x7b%"), (.whitespace, " "), (.data, "@"), (.whitespace, " "),
        (.name, "b"), (.whitespace, " "), (.string, "'c"), (.eof, "")] ∧
    result.diagnostics =
      [.unexpectedCharacter '@' ⟨4, 1, 5⟩, .unterminatedString ⟨8, 1, 9⟩] ∧
    ∃ items last final unexpected unterminated,
      result.Described "a\x7b% @ b 'c".utf8ByteSize items last final unexpected unterminated := by
  have evaluated : (tokenize {} none "a\x7b% @ b 'c").map (fun result =>
      (result.tokens.map (fun token => (token.kind, token.text)), result.diagnostics)) =
      some ([(.data, "a"), (.blockBegin, "\x7b%"), (.whitespace, " "), (.data, "@"),
        (.whitespace, " "), (.name, "b"), (.whitespace, " "), (.string, "'c"), (.eof, "")],
        [.unexpectedCharacter '@' ⟨4, 1, 5⟩, .unterminatedString ⟨8, 1, 9⟩]) := by cbv
  rcases Option.map_eq_some_iff.1 evaluated with ⟨result, cut, values⟩
  obtain ⟨sameTokens, sameDiagnostics⟩ := Prod.mk.inj values
  exact ⟨result, cut, sameTokens, sameDiagnostics, tokenize_described cut⟩

end Stencil

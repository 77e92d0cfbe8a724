import Stencil.Profiles
import Stencil.Proofs.Stmt.Declining
import Stencil.Proofs.Template.Composition
import Stencil.Proofs.Template.PlainText

/-!
# Declining is a full rollback

An extension may read as much as it likes, also whole statements behind its tag, before it declines
the tag. The parse is then the same as if it had declined at once: nothing of what it did is left in
the cursor, in the open constructs, in the tree or among the errors. The parse goes on behind the
tag, and in the tokens of a text this is just behind the end of that tag, or at the end of the
template if the tag is never closed.
-/

namespace Stencil

namespace Template

open Parsing

variable {registry registry' : Registry} {stream : TokenStream} {progress : Progress}

/-! ### Behind the tag -/

theorem afterTag_eq (stream : TokenStream) (cursor : Nat) :
    afterTag stream cursor = stateAfter (Stmt.skipTag stream (stream.next cursor)) := rfl

/-- The token that a tag is passed over up to: its own end, or the end of the template. Between it
and the opening delimiter stand only parts of the tag. -/
structure TagEnds (stream : TokenStream) (cursor stop : Nat) : Prop where
  later : cursor < stop
  parts : ∀ index, cursor < index → index < stop →
    (stream.get index).kind.isInner = true ∨ (stream.get index).kind = .data
  ends : (stream.get stop).kind = .blockEnd ∧ afterTag stream cursor = stop + 1 ∨
    (stream.get stop).kind = .eof ∧ afterTag stream cursor = stop

/-- What may stand in a block tag. -/
theorem inner_or_data_or_end (shaped : stream.IsShaped) {index : Nat}
    (inBlock : stream.regionAt index = .block) (notEnd : (stream.get index).kind ≠ .eof) :
    ((stream.get index).kind.isInner = true ∨ (stream.get index).kind = .data) ∨
      (stream.get index).kind = .blockEnd := by
  have inside := shaped.closed.lt_size notEnd
  have allowed := shaped.allows (show index < stream.size by omega)
  simpa [inBlock, Region.allows, notEnd, or_assoc] using allowed

/-- A block tag is passed over up to its own end. -/
theorem exists_tagEnds (shaped : stream.IsShaped) {cursor : Nat}
    (isBlock : (stream.get cursor).kind = .blockBegin) : ∃ stop, TagEnds stream cursor stop := by
  have notEnd : (stream.get cursor).kind ≠ .eof := by simp [isBlock]
  have moved := shaped.closed.next_eq notEnd
  have inBlock : stream.regionAt (stream.next cursor) = .block := by
    rw [shaped.closed.regionAt_next notEnd, isBlock]
    rfl
  obtain ⟨stop, later, passed, ends⟩ := exists_afterTag shaped.closed cursor
  have soFar (index : Nat) (fromNext : stream.next cursor ≤ index) (before : index ≤ stop) :
      stream.regionAt index = .block :=
    (shaped.stretch_block fromNext inBlock fun index fromNext earlier =>
      passed index fromNext (Nat.lt_of_lt_of_le earlier before)).1
  refine ⟨stop, by omega, fun index afterCursor before => ?_, ?_⟩
  · have notSought := passed index (by omega) before
    have notEof : (stream.get index).kind ≠ .eof := by
      intro isEof
      simp [isEof, Token.Kind.isBoundary] at notSought
    rcases inner_or_data_or_end shaped (soFar index (by omega) (by omega)) notEof with part | isEnd
    · exact part
    · simp [isEnd, Token.Kind.isCloser] at notSought
  · by_cases isEof : (stream.get stop).kind = .eof
    · have isThere : afterTag stream cursor = stop := by
        simpa [isEof, Token.Kind.isCloser, Token.Kind.isBoundary] using ends
      exact Or.inr ⟨isEof, isThere⟩
    · rcases inner_or_data_or_end shaped (soFar stop later (Nat.le_refl stop)) isEof with
        (isInner | isData) | isEnd
      · simp only [Token.Kind.isInner, decide_eq_true_eq, List.mem_cons, not_or] at isInner
        simp [Token.Kind.isCloser, Token.Kind.isBoundary, isInner] at ends
      · simp [isData, Token.Kind.isCloser, Token.Kind.isBoundary] at ends
      · have isBehind : afterTag stream cursor = stream.next stop := by
          simpa [isEnd, Token.Kind.isCloser, Token.Kind.isBoundary] using ends
        exact Or.inl ⟨isEnd, isBehind.trans (shaped.closed.next_eq isEof)⟩

/-! ### The parse -/

section

variable [Limits]

theorem strayTag?_eq_of_declinesLike (like : Registry.DeclinesLike stream registry registry')
    (cursor : Nat) : strayTag? registry' stream cursor = strayTag? registry stream cursor := by
  have sameClosing : registry'.isClosing = registry.isClosing := funext like.isClosing
  rw [strayTag?, sameClosing]
  rfl

section

variable (closed : stream.IsClosed) (interfaced : registry.Interfaced stream)

include closed interfaced

theorem accounted_parseNext (accounted : progress.place.Accounted) :
    (parseNext registry stream progress).place.Accounted := by
  have kept := Stmt.parse_keepsAccount closed interfaced progress.place accounted
  have step := parseNext_step registry stream progress
  generalize parseNext registry stream progress = next at step
  cases step with
  | stray => exact ⟨accounted.bounded, accounted.counted⟩
  | statement outcome =>
      rw [outcome] at kept
      exact kept
  | recovered outcome =>
      rw [outcome] at kept
      exact ⟨kept.bounded, kept.counted⟩
  | fatal outcome =>
      rw [outcome] at kept
      exact kept

variable (interfaced' : registry'.Interfaced stream)
  (like : Registry.DeclinesLike stream registry registry')

include interfaced' like

theorem parseNext_eq_of_declinesLike (accounted : progress.place.Accounted) :
    parseNext registry' stream progress = parseNext registry stream progress := by
  unfold parseNext
  simp only [strayTag?_eq_of_declinesLike like,
    Stmt.parse_eq_of_declinesLike closed interfaced interfaced' like progress.place accounted]

theorem parseAll_eq_of_declinesLike (accounted : progress.place.Accounted) :
    parseAll registry' stream progress = parseAll registry stream progress := by
  fun_induction parseAll registry stream progress with
  | case1 progress isEnd => rw [parseAll, if_pos isEnd]
  | case2 progress notEnd next goesOn ih =>
      have same := parseNext_eq_of_declinesLike closed interfaced interfaced' like accounted
      rw [parseAll, if_neg notEnd]
      simp only [same]
      rw [if_pos goesOn]
      exact ih (accounted_parseNext closed interfaced accounted)
  | case3 progress notEnd next stays =>
      have same := parseNext_eq_of_declinesLike closed interfaced interfaced' like accounted
      rw [parseAll, if_neg notEnd]
      simp only [same]
      exact if_neg stays

end

/-- A round at a tag that is declined moves behind the tag and does nothing else. -/
theorem parseNext_eq_of_declinesAt (closed : stream.IsClosed)
    (accounted : progress.place.Accounted)
    (declines : Stmt.DeclinesAt registry stream progress.place) :
    Stmt.parse registry stream progress.place = .ok none { progress.place with
        cursor := afterTag stream progress.place.cursor } ∧
      parseNext registry stream progress = { progress with place := { progress.place with
        cursor := afterTag stream progress.place.cursor } } := by
  rcases declines.wanders with ⟨word, owner, after, claims, _, _⟩
  have notEnd : (stream.get progress.place.cursor).kind ≠ .eof := by simp [claims.isBlock]
  have moved := closed.next_eq notEnd
  have inside := closed.lt_size notEnd
  have stays : stream.clamp (stream.next progress.place.cursor) =
      stream.next progress.place.cursor := by
    rw [TokenStream.clamp]
    omega
  have outcome := declines.parse_eq accounted
  rw [stays, ← afterTag_eq] at outcome
  have notStray : strayTag? registry stream progress.place.cursor = none := by
    rw [strayTag?, if_pos claims.isBlock, ← moved, claims.isWord]
    simp [claims.isClosing_eq]
  refine ⟨outcome, ?_⟩
  rw [parseNext_eq_of_ok notStray outcome, Option.toList_none, List.append_nil]

/-- Extensions that work through the parser may wander before they decline a tag. The parse is the
same as if they had declined at once, and so is what is read of any statement. Neither a statement
nor an error comes of such a tag, and only the cursor moves, behind the tag. In the tokens of a text
that is behind the end of the same tag, or at the end of the template. -/
theorem declining_rolls_back (registry registry' : Registry) (tokens : List Token)
    (interfaced : registry.Interfaced (.ofTokens tokens))
    (interfaced' : registry'.Interfaced (.ofTokens tokens))
    (like : Registry.DeclinesLike (.ofTokens tokens) registry registry') :
    parse registry (.ofTokens tokens) = parse registry' (.ofTokens tokens) ∧
    (∀ place : Place, place.Accounted →
      Stmt.parse registry (.ofTokens tokens) place =
        Stmt.parse registry' (.ofTokens tokens) place) ∧
    (∀ progress : Progress, progress.place.Accounted →
      Stmt.DeclinesAt registry (.ofTokens tokens) progress.place →
      Stmt.parse registry (.ofTokens tokens) progress.place = .ok none { progress.place with
        cursor := afterTag (.ofTokens tokens) progress.place.cursor } ∧
      parseNext registry (.ofTokens tokens) progress = { progress with place := { progress.place with
        cursor := afterTag (.ofTokens tokens) progress.place.cursor } }) ∧
    (∀ dialect sourceName source result, tokenize dialect sourceName source = some result →
      result.tokens = tokens →
      ∀ cursor, ((TokenStream.ofTokens tokens).get cursor).kind = .blockBegin →
        ∃ stop, TagEnds (.ofTokens tokens) cursor stop) := by
  have closed := TokenStream.isClosed_ofTokens tokens
  refine ⟨?_, fun place accounted => ?_, fun progress => ?_, ?_⟩
  · exact (parseAll_eq_of_declinesLike closed interfaced interfaced' like
      Place.accounted_start).symm
  · exact (Stmt.parse_eq_of_declinesLike closed interfaced interfaced' like place accounted).symm
  · exact parseNext_eq_of_declinesAt closed
  · rintro dialect sourceName source result cut rfl cursor isBlock
    exact exists_tagEnds (isShaped_of_tokenize cut).1 isBlock

/-- Reads the word of its tag and looks for an end of the tag's block, one construct deeper, before
it declines the tag in any case. -/
def searching : Extension where
  name := "searching"
  tags := ["peek"]
  parseTag statement opening := do
    let _ ← Reading.advance
    let _ ← attempt (nested "peek" (Stmt.bodyUntil statement "peek" opening ["endpeek"]))
    return none

omit [Limits] in
/-- Declines its tags at once. -/
def declining : Extension where
  name := "searching"
  tags := ["peek"]
  parseTag _ _ := return none

theorem search_composed (opening : Token) : Stmt.Composed stream fun statement =>
    nested "peek" (Stmt.bodyUntil statement "peek" opening ["endpeek"]) :=
  .nested _ (Stmt.bodyUntil_composed _ _ _)

theorem searching_interfaced (opening : Token) :
    Stmt.Interfaced stream fun statement => searching.parseTag statement opening :=
  .bind (.lift Reading.advance) fun _ =>
    .bind (.attempt (.of_composed (search_composed opening))) fun _ => .pure none

theorem searching_balanced : searching.Balanced stream := fun _ opening keeps =>
  .bind (.leveled fun _ => Reading.advance) fun _ =>
    .bind ((search_composed opening).keepsNesting keeps).attempt fun _ place _ => .refl place

/-- It wanders and declines. -/
theorem exists_searching_declines {statement : Parsing (Option Stmt)}
    (keeps : KeepsNesting stream statement) (opening : Token) {place : Place}
    (accounted : place.Accounted) : ∃ after, Wanders statement stream place after ∧
      searching.parseTag statement opening stream place = .ok none after := by
  have moved : Wanders statement stream place
      { place with cursor := stream.next place.cursor } := (Wanders.stay place).move _
  have search := Wanders.of_composed (search_composed opening) keeps
    { place with cursor := stream.next place.cursor } ⟨accounted.bounded, accounted.counted⟩
  rw [Meets.stateAfter_iff] at search
  rcases exists_attempt_eq (nested "peek" (Stmt.bodyUntil statement "peek" opening ["endpeek"]))
    stream { place with cursor := stream.next place.cursor } with ⟨outcome, attempted⟩
  refine ⟨_, moved.trans search, ?_⟩
  exact (bind_eq_of_ok (lift_advance_eq stream place)).trans (bind_eq_of_ok attempted)

theorem searching_declinesLike (closed : stream.IsClosed) :
    Registry.DeclinesLike stream ⟨[searching]⟩ ⟨[declining]⟩ := by
  refine .cons ⟨rfl, rfl, fun outer opening place accounted => Or.inr ?_⟩ .nil
  have keeps : KeepsNesting stream (Stmt.beyond ⟨[searching]⟩ stream outer) :=
    Stmt.beyond_keepsNesting_of_balanced closed (List.forall_mem_singleton.2 searching_balanced)
      outer
  rcases exists_searching_declines keeps opening accounted with ⟨after, wanders, declined⟩
  exact ⟨after, wanders, declined, rfl⟩

end

set_option maxRecDepth 10000 in
/-- In a branch of a choice, an extension searches for the end of a block that is not there, over
the end of the branch, and declines. -/
theorem declining_rolls_back_in_branch : ∃ result stream,
    tokenize {} none "\x7b% if x %\x7d\x7b% peek y %\x7da\x7b% endif %\x7db" = some result ∧
    stream = TokenStream.ofTokens result.tokens ∧
    Registry.Interfaced stream ⟨[searching]⟩ ∧ Registry.Interfaced stream ⟨[declining]⟩ ∧
    Registry.DeclinesLike stream ⟨[searching]⟩ ⟨[declining]⟩ ∧
    Stmt.DeclinesAt ⟨[searching]⟩ stream ⟨4, 1, ["if"]⟩ ∧
    parse ⟨[searching]⟩ stream = parse ⟨[declining]⟩ stream ∧
    Stmt.parse ⟨[searching]⟩ stream ⟨4, 1, ["if"]⟩ = .ok none ⟨8, 1, ["if"]⟩ ∧
    ∃ stop, TagEnds stream 4 stop := by
  let source := "\x7b% if x %\x7d\x7b% peek y %\x7da\x7b% endif %\x7db"
  have cut : (tokenize {} none source).map (fun result =>
      let stream := TokenStream.ofTokens result.tokens
      ((stream.get 4).kind, (stream.get (stream.next 4)).word?, afterTag stream 4)) =
        some (.blockBegin, some "peek", 8) := by
    cbv
  rcases Option.map_eq_some_iff.1 cut with ⟨result, isResult, same⟩
  have isBlock := (Prod.mk.inj same).1
  have isWord := (Prod.mk.inj (Prod.mk.inj same).2).1
  have isBehind : afterTag (.ofTokens result.tokens) 4 = 8 :=
    (Prod.mk.inj (Prod.mk.inj same).2).2
  have closed := TokenStream.isClosed_ofTokens result.tokens
  have interfaced : Registry.Interfaced (.ofTokens result.tokens) ⟨[searching]⟩ :=
    List.forall_mem_singleton.2 searching_interfaced
  have interfaced' : Registry.Interfaced (.ofTokens result.tokens) ⟨[declining]⟩ :=
    List.forall_mem_singleton.2 fun _ => .pure none
  have like := searching_declinesLike closed
  have accounted : (⟨4, 1, ["if"]⟩ : Place).Accounted := ⟨by decide, rfl⟩
  have declines : Stmt.DeclinesAt ⟨[searching]⟩ (.ofTokens result.tokens) ⟨4, 1, ["if"]⟩ := by
    have keeps : KeepsNesting _ (Stmt.beyond ⟨[searching]⟩ _ ⟨4, 1, ["if"]⟩) :=
      Stmt.beyond_keepsNesting_of_balanced closed (List.forall_mem_singleton.2 searching_balanced)
        ⟨4, 1, ["if"]⟩
    have accountedThere : (⟨(TokenStream.ofTokens result.tokens).next 4, 1, ["if"]⟩ :
        Place).Accounted := ⟨accounted.bounded, accounted.counted⟩
    have room : 1 < maxDepth := by decide
    rcases exists_searching_declines keeps ((TokenStream.ofTokens result.tokens).get 4)
      (accountedThere.entered room "extension") with ⟨after, outcome⟩
    exact ⟨room, "peek", searching, after,
      ⟨isBlock, isWord, by decide, by decide, rfl⟩, outcome⟩
  rcases declining_rolls_back _ _ _ interfaced interfaced' like with ⟨same, _, round, tags⟩
  have outcome := (round ⟨⟨4, 1, ["if"]⟩, [], [], none⟩ accounted declines).1
  rw [isBehind] at outcome
  exact ⟨result, _, isResult, rfl, interfaced, interfaced', like, declines, same, outcome,
    tags _ _ _ _ isResult rfl 4 isBlock⟩

end Template

end Stencil

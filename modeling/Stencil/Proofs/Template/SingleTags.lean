import Stencil.Proofs.Stmt.WrittenTags
import Stencil.Proofs.Template.Nesting
import Stencil.Proofs.Template.WrittenTemplates

/-!
# Templates of one statement

A template that consists of one tag, or of one block, has one statement if the rule for it reads all
of it. Conversely, where a parse meets no error and gives one statement, that statement is derived
from the tokens at the start of the template, and nothing but comments comes after it.
-/

namespace Stencil

open Reading Parsing Lexeme

/-- Kinds of token that comments consist of. -/
def Token.Kind.isCommentPart (kind : Token.Kind) : Bool :=
  kind ∈ [.lineComment, .commentBegin, .comment, .commentEnd]

namespace TokenStream

theorem ahead_ofTokens {tokens : List Token} {lexemes : List Lexeme}
    (written : Token.written tokens = lexemes) (noEnd : ∀ lexeme ∈ lexemes, lexeme.kind ≠ .eof) :
    (ofTokens tokens).Ahead 0 lexemes := by
  have noEndToken : ∀ token ∈ tokens, token.kind ≠ .eof := by
    intro token isToken isEnd
    refine noEnd token.lexeme ?_ isEnd
    rw [← written, Token.written]
    have isSignificant : token.kind.isSignificant = true := by rw [isEnd]; rfl
    exact List.mem_map_of_mem (List.mem_filter.2 ⟨isToken, isSignificant⟩)
  have sameEnding : (Token.ending tokens).lexeme = .ending := by
    unfold Token.ending
    split <;> rfl
  rw [Ahead, List.drop_zero, significant_ofTokens noEndToken, List.map_append, List.map_singleton,
    sameEnding, ← written]
  rfl

end TokenStream

namespace Stmt

variable {stream : TokenStream}

/-- Only comments are passed over. -/
theorem skipComment_accounts (closed : stream.IsClosed) (start : Nat) :
    AccountsFor stream start skipComment fun tokens _ =>
      ∀ token ∈ tokens, token.kind.isCommentPart = true := by
  apply AccountsFor.current
  split
  · next isComment =>
    apply AccountsFor.advance closed (by simp [isComment])
    exact .pure (by simp [isComment, Token.Kind.isCommentPart])
  · next isComment =>
    apply AccountsFor.advance closed (by simp [isComment])
    apply AccountsFor.skipIf closed (by decide)
    · intro token isKind
      apply AccountsFor.skipIf closed (by decide)
      · intro token' isKind'
        exact .pure (by simp [isComment, isKind, isKind', Token.Kind.isCommentPart])
      · exact .pure (by simp [isComment, isKind, Token.Kind.isCommentPart])
    · apply AccountsFor.skipIf closed (by decide)
      · intro token' isKind'
        exact .pure (by simp [isComment, isKind', Token.Kind.isCommentPart])
      · exact .pure (by simp [isComment, Token.Kind.isCommentPart])
  · exact .pure (by simp)

end Stmt

namespace Template

section

variable [Limits] {stream : TokenStream} {progress next last : Progress}

/-- A parse of some tokens meets no error and gives a single statement. -/
structure ParsesTo (tokens : List Token) (stmt : Stmt) : Prop where
  noErrors : (parse {} (.ofTokens tokens)).errors = []
  single : (parse {} (.ofTokens tokens)).result (.ofTokens tokens) =
    .ok ⟨[stmt], (TokenStream.ofTokens tokens).sourceName⟩

/-! ### A tag and nothing else -/

theorem Round.body_stays (round : Round stream progress next) : progress.body <+: next.body := by
  cases round with
  | statement => exact List.prefix_append _ _
  | stray | recovered | aborted => exact List.prefix_refl _

theorem Runs.body_stays (runs : Runs stream progress last) : progress.body <+: last.body := by
  induction runs with
  | atEnd => exact List.prefix_refl _
  | aborted _ round => exact round.body_stays
  | more _ round _ _ ih => exact round.body_stays.trans ih

/-- A run without errors that finds no statement passes over comments only. -/
theorem Runs.overComments (closed : stream.IsClosed) (runs : Runs stream progress last)
    (sameBody : last.body = progress.body) (sameErrors : last.errors = progress.errors)
    (notFatal : last.fatal = none) :
    progress.place.cursor ≤ last.place.cursor ∧
      ∀ token ∈ stream.between progress.place.cursor last.place.cursor,
        token.kind.isCommentPart = true := by
  induction runs with
  | atEnd => simp
  | aborted _ _ isFatal => exact absurd notFatal isFatal
  | @more progress next last notEnd round notFatalNext rest ih =>
      have nextBody : next.body = progress.body := by
        have shorter := rest.body_stays
        rw [sameBody] at shorter
        exact shorter.eq_of_length_le round.body_stays.length_le
      have nextErrors : next.errors = progress.errors := by
        have shorter := rest.errors_stay
        rw [sameErrors] at shorter
        exact shorter.eq_of_length_le round.errors_stay.length_le
      rcases ih (sameBody.trans nextBody.symm) (sameErrors.trans nextErrors.symm) notFatal with
        ⟨later, comments⟩
      cases round with
      | stray | recovered => simp at nextErrors
      | aborted => cases notFatalNext
      | @statement stmt after notStray outcome =>
          have noStmt : stmt = none := by
            cases stmt with
            | none => rfl
            | some stmt => simp at nextBody
          subst noStmt
          cases (Stmt.parse_derives closed _ _ progress.place after none rfl rfl outcome).2 with
          | comment isComment reads =>
              rcases Stmt.skipComment_accounts closed _ _ _ reads with ⟨inOrder, first⟩
              refine ⟨Nat.le_trans inOrder later, fun token isToken => ?_⟩
              rw [← TokenStream.between_append inOrder later, List.mem_append] at isToken
              exact isToken.elim (first token) (comments token)

omit [Limits] in
/-- Nothing but the end of the template stands behind a tag at its end. The end of a tag behind
which only comments are passed over is therefore the last token. -/
theorem ahead_of_overComments (lexemes : List Lexeme) {stop finish : Nat}
    (isAhead : stream.Ahead 0 (lexemes ++ [.blockEnd]))
    (noEnd : ∀ lexeme ∈ lexemes, lexeme.kind ≠ .eof)
    (ends : (stream.get stop).kind = .blockEnd) (inOrder : stop + 1 ≤ finish)
    (atEnd : (stream.get finish).kind = .eof)
    (comments : ∀ token ∈ stream.between (stop + 1) finish, token.kind.isCommentPart = true) :
    stream.Ahead stop [.blockEnd] := by
  have isLast := isAhead.append.2
  have atLast : (stream.get lexemes.length).kind = .blockEnd := by
    rw [← Nat.zero_add lexemes.length]
    exact congrArg Lexeme.kind isLast.get
  have sameSize := isAhead.size_eq
  rw [List.length_append, List.length_singleton] at sameSize
  have notLater : stop ≤ lexemes.length := by
    by_contra later
    rw [TokenStream.get_eq_last (by omega)] at ends
    exact absurd (isAhead.isClosed.symm.trans ends) (by decide)
  have notEarlier : lexemes.length < finish := by
    by_contra earlier
    rcases Nat.lt_or_eq_of_le (Nat.le_of_not_lt earlier) with inside | rfl
    · have isPart := isAhead.get_mem inside
      rw [Nat.zero_add] at isPart
      exact noEnd _ isPart atEnd
    · exact absurd (atLast.symm.trans atEnd) (by decide)
  rcases Nat.lt_or_eq_of_le notLater with before | rfl
  · have upToLast : stream.between (stop + 1) lexemes.length ++
        stream.between lexemes.length finish = stream.between (stop + 1) finish :=
      TokenStream.between_append before (Nat.le_of_lt notEarlier)
    have fromLast : stream.between lexemes.length (lexemes.length + 1) ++
        stream.between (lexemes.length + 1) finish = stream.between lexemes.length finish :=
      TokenStream.between_append (Nat.le_succ _) notEarlier
    rw [TokenStream.between_succ (by omega)] at fromLast
    have isComment := comments (stream.get lexemes.length) (by simp [← upToLast, ← fromLast])
    rw [atLast] at isComment
    cases isComment
  · rwa [Nat.zero_add] at isLast

/-- The statement that a template with a tag at its start consists of is derived from its tokens up
to a place from which on there are only comments. -/
theorem ParsesTo.exists_derived {tokens : List Token} {stmt : Stmt} (parsed : ParsesTo tokens stmt)
    (isBlock : ((TokenStream.ofTokens tokens).get 0).kind = .blockBegin) :
    ∃ stop finish,
      Stmt.Derived (TokenStream.ofTokens tokens) 0 0 (.statement (some stmt)) stop ∧
      stop ≤ finish ∧ ((TokenStream.ofTokens tokens).get finish).kind = .eof ∧
      ∀ token ∈ (TokenStream.ofTokens tokens).between stop finish,
        token.kind.isCommentPart = true := by
  have closed := TokenStream.isClosed_ofTokens tokens
  have noErrors := parsed.noErrors
  rcases of_result_eq_ok parsed.single with ⟨notFatal, sameTemplate⟩
  have single : (parse {} (.ofTokens tokens)).body = [stmt] :=
    (congrArg Template.body sameTemplate).symm
  have runs : Runs _ {} (parse {} (.ofTokens tokens)) := Reached.start.runs closed rfl
  generalize parse {} (.ofTokens tokens) = last at runs noErrors notFatal single
  cases runs with
  | atEnd => cases single
  | aborted _ _ isFatal => exact absurd notFatal isFatal
  | @more _ next _ notEnd round notFatalNext rest =>
      have nextErrors : next.errors = [] := by
        have shorter := rest.errors_stay
        rwa [noErrors, List.prefix_nil] at shorter
      have nextBody := rest.body_stays
      rw [single] at nextBody
      cases round with
      | stray | recovered => simp at nextErrors
      | aborted => cases notFatalNext
      | @statement found after notStray outcome =>
          have derived := (Stmt.parse_derives closed 0 0 {} after found rfl rfl outcome).2
          cases found with
          | none =>
              cases derived with
              | comment isComment => simp [isBlock] at isComment
          | some found =>
              have sameStmt : found = stmt := by simpa using nextBody
              subst sameStmt
              rcases rest.overComments closed single noErrors notFatal with ⟨inOrder, comments⟩
              exact ⟨_, _, derived, inOrder, rest.atEnd_of_notFatal notFatal, comments⟩

/-- Where a tag that is evaluated is all that a template consists of, its expression is read up to
the end of the tag. -/
theorem exists_parse_of_evaluate {tokens : List Token} {word : List Lexeme} {origin : Origin}
    {expr : Expr} (noEnd : ∀ lexeme ∈ word, lexeme.kind ≠ .eof)
    (isAhead : (TokenStream.ofTokens tokens).Ahead 0 (Piece.lexemes (.tag "do" word)))
    (parsed : ParsesTo tokens (.evaluate origin expr)) :
    ∃ stop, Expr.parse (maxDepth - 1) (.ofTokens tokens) 2 = .ok expr stop ∧
      (TokenStream.ofTokens tokens).Ahead stop [.blockEnd] := by
  rcases parsed.exists_derived isAhead.stands.kind with
    ⟨_, finish, derived, inOrder, atEnd, comments⟩
  cases derived with
  | @evaluate _ _ stop _ room tag reads =>
      refine ⟨stop, reads, ?_⟩
      have noEndBefore : ∀ lexeme ∈ .blockBegin :: .word "do" :: word, lexeme.kind ≠ .eof := by
        rw [List.forall_mem_cons, List.forall_mem_cons]
        exact ⟨by decide, by decide, noEnd⟩
      exact ahead_of_overComments _ isAhead noEndBefore tag.ends inOrder atEnd comments

/-- A template that is one tag, or one block, whose rule reads all of it has one statement. -/
theorem exists_single_of_parsesOff {word : String} {arguments : List Lexeme} {others : List Piece}
    (rule : Parsing (Option Stmt) → Token → Parsing Stmt) {good : Stmt → Prop} {needed : Nat}
    (opens : (Piece.tag word arguments).isOpening = true)
    (isWord : (Lexeme.word word).word? = some word)
    (isRule : ∀ statement, (Stmt.tagRules statement).lookup word =
      some fun opening => nested word (rule statement opening))
    (fits : needed < maxDepth)
    (isAhead : stream.Ahead 0 (Piece.row (.tag word arguments :: others)))
    (parses : ∀ statement opening, ParsesOff stream 1 1 needed
      (.word word :: (arguments ++ .blockEnd :: Piece.row others)) [] (rule statement opening)
      good) :
    ∃ stmt, good stmt ∧ (parse {} stream).errors = [] ∧
      (parse {} stream).result stream = .ok ⟨[stmt], stream.sourceName⟩ := by
  rw [Piece.row_cons] at isAhead
  have notStray : strayTag? {} stream 0 = none := strayTag?_eq_none_of_isOpening opens isAhead
  have isTag : stream.Ahead 0
      (.blockBegin :: .word word :: (arguments ++ .blockEnd :: Piece.row others)) := by
    simpa [Piece.lexemes] using isAhead
  have isParsed := (parses (Stmt.beyond {} stream {}) (stream.get 0)).nested word
    { cursor := 1 } ⟨⟨isTag.tail, Nat.le_refl 1⟩, rfl⟩
  have outcome : Stmt.parse {} stream {} =
      (some <$> nested word (rule (Stmt.beyond {} stream {}) (stream.get 0)) :
        Parsing (Option Stmt)) stream { cursor := 1 } :=
    Stmt.parse_eq_of_tag isTag isWord (isRule _)
  cases ended : nested word (rule (Stmt.beyond {} stream {}) (stream.get 0)) stream
      { cursor := 1 } with
  | error error after =>
      rw [ended] at isParsed
      exact absurd isParsed.1 (by omega)
  | ok stmt after =>
      rw [ended] at isParsed
      rcases isParsed with ⟨_, ⟨⟨atEnd, later⟩, _⟩, isGood⟩
      have isStatement : Stmt.parse {} stream {} = .ok (some stmt) after :=
        outcome.trans (map_eq_of_ok ended)
      have isOnly := parse_eq_of_ok notStray (by rw [isTag.stands.kind]; decide) isStatement later
        (Nat.lt_of_succ_lt isTag.stands.inside) (congrArg Lexeme.kind atEnd.get)
      rw [isOnly]
      exact ⟨stmt, isGood, rfl, rfl⟩

end

theorem kind_word_ne_eof (spelling : String) : (Lexeme.word spelling).kind ≠ .eof :=
  Token.Kind.ne_eof_of_isInner (Lexer.isInner_wordKind spelling)

theorem kind_ne_eof_of_mem_tag {word : String} {arguments : List Lexeme}
    (noEnd : ∀ lexeme ∈ arguments, lexeme.kind ≠ .eof) :
    ∀ lexeme ∈ Piece.lexemes (.tag word arguments), lexeme.kind ≠ .eof := by
  simp only [Piece.lexemes, List.forall_mem_cons, List.forall_mem_append]
  exact ⟨by decide, kind_word_ne_eof word, noEnd, by decide, by simp⟩

end Template

end Stencil

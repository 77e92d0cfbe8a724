import Stencil.Profiles
import Stencil.Proofs.Lexer.Origins
import Stencil.Proofs.Stmt.Lines
import Stencil.Proofs.Template.History
import Stencil.Proofs.Template.Nesting

/-!
# Lines of templates

The lexer cuts a source from its first line to its last one, and a parse puts the statements of a
template in the order in which they come. So the nodes of a template are lined up with the tokens
that the parse has passed.
-/

namespace Stencil

/-! ### Lines of tokens -/

namespace Lexer

variable {dialect : Dialect} {covered : List Char} {tokens : List Token}

theorem Tiles.linesInOrder (tiles : Tiles dialect covered tokens) :
    tokens.Pairwise fun later earlier => earlier.line ≤ later.line := by
  induction tiles with
  | nil => exact .nil
  | @cons covered gap tokens last tiles _ _ placed ih =>
      refine .cons ?_ ih
      intro earlier isEarlier
      rcases tiles.exists_before (List.prefix_refl covered) isEarlier with
        ⟨before, ⟨rest, rfl⟩, placedBefore⟩
      simp only [Token.line, placed, placedBefore, Position.line_advanceOver, List.count_append]
      omega

variable [Limits]

theorem linesInOrder_of_tokenize {sourceName : Option String} {source : String}
    {result : Tokenization} (cut : tokenize dialect sourceName source = some result) :
    Token.LinesInOrder result.tokens := by
  rcases exists_walks_of_tokenize cut with ⟨last, walks, atEnd, rfl⟩
  rcases exists_tiling_of_walks walks with ⟨_, tiling⟩
  rcases tiling.finish atEnd with ⟨ending, tokens, sameTokens, _, _, tiles⟩
  rw [State.result, sameTokens, Token.LinesInOrder, List.pairwise_reverse]
  exact tiles.linesInOrder

end Lexer

theorem Token.LinesInOrder.closed {tokens : List Token} (inOrder : Token.LinesInOrder tokens) :
    Token.LinesInOrder (Token.closed tokens) := by
  refine Token.pairwise_closed Position.line ?_ inOrder
  intro position text
  rw [Position.line_advanceOver]
  exact Nat.le_add_right _ _

namespace Template

variable {stream : TokenStream} {progress : Progress}

/-- The nodes that a parse has come by are lined up with the tokens that it has passed. -/
theorem Reached.standBetween [Limits] (closed : stream.IsClosed)
    (reached : Reached stream progress) :
    Stmt.StandBetween stream 0 progress.place.cursor (Stmt.walkBody progress.body) := by
  induction reached with
  | start => exact .nil (Nat.le_refl 0)
  | @round progress next reached _ notEnd round ih =>
      have further := reached.further closed notEnd round
      cases round with
      | stray | recovered | aborted => exact ih.widen (Nat.le_refl 0) (Nat.le_of_lt further)
      | @statement stmt after _ outcome =>
          have noneOpen : progress.place.depth = 0 := (reached.noneOpen closed).depth_eq
          have derived := (Stmt.parse_derives closed 0 progress.place.cursor progress.place after
            stmt noneOpen rfl outcome).2
          rw [Stmt.walkBody_append]
          exact ih.append (derived.standBetween closed) (Nat.le_refl _)

/-- Line numbers follow the source. The lines of the tokens that the lexer cuts a source into never
decrease. Of any tokens, each node of a template that is parsed from them has the name of the
template and the line of one of the tokens; and if the lines of the tokens do not decrease, a walk
over the template meets the nodes in the order of their lines, except that it comes to the defaults
of the parameters of a call block after the call. -/
theorem lines_follow_source [Limits] :
    (∀ {dialect name source result}, tokenize dialect name source = some result →
      Token.LinesInOrder result.tokens) ∧
    ∀ {tokens : List Token} {template : Template},
      (parse {} (.ofTokens tokens)).result (.ofTokens tokens) = .ok template →
        (∀ node ∈ Stmt.walkBody template.body, node.origin.sourceName = template.sourceName ∧
          ∃ token ∈ (TokenStream.ofTokens tokens).significant.toList, node.line = token.line) ∧
        (Token.LinesInOrder tokens → Node.InOrder (Stmt.walkBody template.body)) := by
  refine ⟨Lexer.linesInOrder_of_tokenize, ?_⟩
  intro tokens template parsed
  have closed := TokenStream.isClosed_ofTokens tokens
  obtain rfl := (of_result_eq_ok parsed).2
  have inside := (reached_parse closed).standBetween closed
  have isPart : ((TokenStream.ofTokens tokens).between 0
      (parse {} (.ofTokens tokens)).place.cursor).Sublist
        (TokenStream.ofTokens tokens).significant.toList :=
    (List.take_sublist _ _).trans (List.drop_sublist _ _)
  have linedUp := inside.linedUp.within isPart
  refine ⟨fun node member => ⟨linedUp.named node member, linedUp.stands node member⟩, ?_⟩
  intro inOrder
  exact linedUp.inOrder (inOrder.closed.sublist List.filter_sublist)

set_option maxRecDepth 10000 in
/-- The default of a parameter is on the line before the call of its block, and the walk comes to it
after the call. -/
theorem lines_follow_source_swapped : ∃ result template,
    tokenize {} none "\x7b% call(a=b)\nf() %\x7d\x7b\x7b c \x7d\x7d\x7b% endcall %\x7d" =
      some result ∧
    (parse {} (.ofTokens result.tokens)).result (.ofTokens result.tokens) = .ok template ∧
    (Stmt.walkBody template.body).map Node.line = [1, 2, 2, 1, 2, 2] ∧
    Node.InOrder (Stmt.walkBody template.body) := by
  have evaluated : (tokenize {} none
      "\x7b% call(a=b)\nf() %\x7d\x7b\x7b c \x7d\x7d\x7b% endcall %\x7d").map (fun result =>
        ((parse {} (.ofTokens result.tokens)).fatal,
          (Stmt.walkBody (parse {} (.ofTokens result.tokens)).body).map Node.line)) =
      some (none, [1, 2, 2, 1, 2, 2]) := by
    cbv
  rcases Option.map_eq_some_iff.1 evaluated with ⟨result, cut, values⟩
  simp only [Prod.mk.injEq] at values
  have parsed := result_eq_ok (.ofTokens result.tokens) values.1
  exact ⟨result, _, cut, parsed, values.2,
    (lines_follow_source.2 parsed).2 (lines_follow_source.1 cut)⟩

end Template

end Stencil

import Stencil.Profiles
import Stencil.Proofs.Stmt.WellFormed
import Stencil.Proofs.Template.Nesting

/-!
# Well-formed templates

Every statement of a parsed template is well-formed, at every depth and whether or not there were
errors. The tokens of a text are proper, each statement that the parse comes by is derived from
them, and so are the statements inside of it. What the parse drops after an error leaves no trace in
the statements that it keeps.
-/

namespace Stencil

/-- A list of tokens is closed with a token that marks the end, if with any. -/
theorem Token.mem_or_eof_of_mem_closed {tokens : List Token} {token : Token}
    (isToken : token ∈ Token.closed tokens) : token ∈ tokens ∨ token.kind = .eof := by
  unfold Token.closed at isToken
  split at isToken
  · obtain rfl := List.mem_singleton.1 isToken
    exact Or.inr rfl
  · split at isToken
    · exact Or.inl isToken
    · rcases List.mem_append.1 isToken with isToken | isLast
      · exact Or.inl isToken
      · obtain rfl := List.mem_singleton.1 isLast
        exact Or.inr rfl

theorem Token.areProper_ofTokens {tokens : List Token} (proper : Token.AreProper tokens) :
    Token.AreProper (TokenStream.ofTokens tokens).significant.toList := by
  intro token isToken
  have isToken : token ∈ (Token.closed tokens).filter (·.kind.isSignificant) := isToken
  rcases Token.mem_or_eof_of_mem_closed (List.mem_filter.1 isToken).1 with isToken | isEnd
  · exact proper token isToken
  · exact Lexer.isProper_of_ne (by simp [isEnd]) (by simp [isEnd])

namespace Template

variable {stream : TokenStream} {template : Template}

/-- Every statement of a template, at any depth, is derived from the tokens of the template. -/
theorem derivedAt_of_mem_statements [Limits] (closed : stream.IsClosed)
    (parsed : (parse {} stream).result stream = .ok template) :
    ∀ stmt ∈ template.statements, ∃ depth, Stmt.DerivedAt stream depth stmt := by
  intro stmt isPart
  rcases List.mem_flatMap.1 isPart with ⟨outer, isOuter, isInner⟩
  rw [(of_result_eq_ok parsed).2] at isOuter
  have derived := (reached_parse closed).derivedAt closed outer isOuter
  rcases Stmt.exists_encloses_of_mem_flatten isInner with ⟨count, encloses⟩
  exact ⟨0 + count, (derived.encloses (Nat.zero_le _) encloses).1⟩

/-- The statements of a template that is parsed from the tokens of a text are well-formed at every
depth, also after errors that were recovered from. -/
theorem statements_wellFormed [Limits] {dialect : Dialect} {sourceName : Option String}
    {source : String} {result : Tokenization}
    (cut : tokenize dialect sourceName source = some result)
    (parsed : (parse {} (.ofTokens result.tokens)).result (.ofTokens result.tokens) =
      .ok template) : ∀ stmt ∈ template.statements, stmt.WellFormed := by
  intro stmt isPart
  have closed := TokenStream.isClosed_ofTokens result.tokens
  have proper := Token.areProper_ofTokens (Lexer.isProper_of_tokenize cut)
  rcases derivedAt_of_mem_statements closed parsed stmt isPart with ⟨_, _, _, derived⟩
  exact derived.wellFormed closed proper

set_option maxRecDepth 10000 in
/-- A print tag without an expression is dropped, and the call block after it is kept. -/
theorem statements_wellFormed_dropped_tag : ∃ result template,
    tokenize {} none
      "\x7b\x7b \x7d\x7d\x7b% call f(x) %\x7d\x7b\x7b a[1:] \x7d\x7d\x7b% endcall %\x7d" =
        some result ∧
    (parse {} (.ofTokens result.tokens)).result (.ofTokens result.tokens) = .ok template ∧
    (parse {} (.ofTokens result.tokens)).errors.length = 1 ∧
    template.statements.map Stmt.tagName = ["call", "output"] ∧
    ∀ stmt ∈ template.statements, stmt.WellFormed := by
  have evaluated : (tokenize {} none
      "\x7b\x7b \x7d\x7d\x7b% call f(x) %\x7d\x7b\x7b a[1:] \x7d\x7d\x7b% endcall %\x7d").map
        (fun result => ((parse {} (.ofTokens result.tokens)).fatal,
          (parse {} (.ofTokens result.tokens)).errors.length,
          (Template.mk (parse {} (.ofTokens result.tokens)).body none).statements.map
            Stmt.tagName)) = some (none, 1, ["call", "output"]) := by
    cbv
  obtain ⟨result, cut, values⟩ := Option.map_eq_some_iff.1 evaluated
  simp only [Prod.mk.injEq] at values
  obtain ⟨notFatal, oneError, tags⟩ := values
  have parsed := result_eq_ok (.ofTokens result.tokens) notFatal
  exact ⟨result, _, cut, parsed, oneError, tags, statements_wellFormed cut parsed⟩

end Template

end Stencil

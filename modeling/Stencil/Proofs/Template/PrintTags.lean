import Stencil.Proofs.Expr.Ladder
import Stencil.Proofs.Lexer.Adjacent
import Stencil.Proofs.Lexer.Origins
import Stencil.Proofs.Template.PlainText
import Stencil.Proofs.Template.RoundTrip

/-!
# Templates that are one print tag

What becomes of a template that is a single print tag is told by what the rule for expressions makes
of the tokens in it. A value that takes all of them is the tree; where the rule fails, the template
is empty and the error is noted.
-/

namespace Stencil

variable {stream : TokenStream} {lexemes : List Lexeme} {registry : Registry} {value : Expr}
  {error : SyntaxError} {after : Nat}

namespace TokenStream

/-- Where no token begins a tag or ends the template, a search for such a token goes to the end. -/
theorem Ahead.seek_isBoundary {start cursor : Nat} (ahead : stream.Ahead start lexemes)
    (notBoundary : ∀ lexeme ∈ lexemes, lexeme.kind.isBoundary = false) (further : start ≤ cursor) :
    (stream.get (stream.seek (·.kind.isBoundary) cursor)).kind = .eof := by
  have sameSize := ahead.size_eq
  have isFound := ahead.isClosed.found_seek (·.kind.isBoundary)
    (fun token isEnd => by simp [isEnd, Token.Kind.isBoundary]) cursor
  rcases stream.seek_spec (·.kind.isBoundary) cursor with ⟨later, _, _⟩
  generalize stream.seek (·.kind.isBoundary) cursor = place at isFound later ⊢
  by_cases inside : place < start + lexemes.length
  · rw [← lexemes.append_nil] at ahead
    have inTag : place - start < lexemes.length := by omega
    have member := ahead.get_mem inTag
    rw [Nat.add_sub_cancel' (Nat.le_trans further later)] at member
    rw [← Token.kind_lexeme, notBoundary _ member] at isFound
    exact absurd isFound (by simp)
  · rw [get_eq_last (by omega)]
    exact ahead.isClosed

end TokenStream

namespace Template

variable [Limits]

section

variable (registry) (ahead : stream.Ahead 0 (Lexeme.inPrintTag lexemes))

include ahead

/-- A print tag whose expression is read is the only statement. -/
theorem exists_parse_eq_of_ok
    (outcome : Expr.parse (maxDepth - 1) stream 1 = .ok value (1 + lexemes.length)) :
    ∃ place, parse registry stream =
      { place, body := [.output ⟨(stream.get 0).line, stream.sourceName⟩ value] } := by
  obtain ⟨shows, atEnd⟩ : stream.Shows 0 (Lexeme.inPrintTag lexemes) ∧ _ :=
    TokenStream.shows_of_map_drop ahead
  have isOutput : (stream.get 0).kind = .variableBegin := shows.1.kind
  have inner := Stmt.outputRule_eq_ok (Place.entered {} "output") shows outcome
  have parsed : Stmt.parse registry stream {} = _ :=
    (Stmt.parse_eq_of_output isOutput).trans
      (map_eq_of_ok (Parsing.nested_eq_of_ok Limits.maxDepth_pos inner))
  refine ⟨_, parse_eq_of_ok (strayTag?_eq_none isOutput) (by rw [isOutput]; decide) parsed ?_
    (Nat.lt_of_succ_lt shows.1.inside) atEnd⟩
  simp [Place.left, Lexeme.inPrintTag]

/-- A print tag whose expression is refused leaves nothing but the error. -/
theorem exists_parse_eq_of_error
    (notBoundary : ∀ lexeme ∈ lexemes, lexeme.kind.isBoundary = false)
    (recoverable : error.isRecoverable = true)
    (outcome : Expr.parse (maxDepth - 1) stream 1 = .error error after) :
    ∃ place, parse registry stream = { place, errors := [error] } := by
  have shows := (TokenStream.shows_of_map_drop ahead).1
  have isOutput : (stream.get 0).kind = .variableBegin := shows.1.kind
  have inner := Stmt.outputRule_eq_error (Place.entered {} "output") shows outcome
  have failed : Stmt.parse registry stream {} = _ :=
    (Stmt.parse_eq_of_output isOutput).trans
      (map_eq_of_error (Parsing.nested_eq_of_error Limits.maxDepth_pos inner))
  have next : parseNext registry stream {} =
      { place := { cursor := recoveryPoint stream 0 after }, errors := [error] } := by
    simp only [parseNext, strayTag?_eq_none isOutput, failed, recoverable, if_true]
    rfl
  have inside : stream.Ahead 1 (lexemes ++ [⟨.variableEnd, "\x7d\x7d"⟩]) := ahead.tail
  have first : 1 ≤ if after = 0 then stream.next after else after := by
    split
    · next atStart => exact atStart ▸ shows.1.next_eq.ge
    · omega
  have atEnd : (stream.get (recoveryPoint stream 0 after)).kind = .eof := by
    refine inside.seek_isBoundary ?_ first
    intro lexeme member
    rcases List.mem_append.1 member with inner | isLast
    · exact notBoundary lexeme inner
    · rw [List.mem_singleton.1 isLast]
      rfl
  have further : 0 < recoveryPoint stream 0 after :=
    Nat.le_trans first (stream.seek_spec (·.kind.isBoundary) _).1
  refine ⟨{ cursor := recoveryPoint stream 0 after }, ?_⟩
  rw [parse, parseAll, if_neg (by rw [isOutput]; decide)]
  dsimp only
  rw [next, if_pos ⟨rfl, further, Nat.lt_of_succ_lt shows.1.inside⟩, parseAll, if_pos atEnd]

end

end Template

/-! ### Texts -/

/-- The stream of a text that is one print tag. -/
structure TokenStream.IsTag (stream : TokenStream) (name : Option String) (source : String)
    (lexemes : List Lexeme) : Prop where
  ahead : stream.Ahead 0 (Lexeme.inPrintTag lexemes)
  sourceName_eq : stream.sourceName = name
  line_eq : '\n' ∉ source.toList → ∀ index, (stream.get index).line = 1

theorem TokenStream.IsTag.inner {name : Option String} {source : String}
    (isTag : stream.IsTag name source lexemes) :
    stream.Shows 1 lexemes ∧ (stream.get (1 + lexemes.length)).kind = .variableEnd := by
  rcases (shows_of_map_drop isTag.ahead).1 with ⟨_, rest⟩
  rcases shows_append.1 rest with ⟨shows, closes, _⟩
  exact ⟨shows, closes.kind⟩

variable [Limits]

section

variable {source : String} {gap text : List Char} (isGap : gap.all Text.isBlank = true)
  (cuts : Lexeme.Cuts (gap ++ "\x7d\x7d".toList) lexemes text)
  (shows : source.toList = "\x7b\x7b".toList ++ text) {settings : Settings}
  (isDefault : settings.dialect = {}) (registry) (name : Option String)

include isGap cuts shows

theorem exists_isTag_of_cuts : ∃ result, tokenize {} name source = some result ∧
    result.diagnostics = [] ∧
    (TokenStream.ofTokens result.tokens).IsTag name source lexemes := by
  rcases Lexer.exists_tokenize_of_cuts name isGap cuts shows with ⟨result, cut, clean, written⟩
  refine ⟨result, cut, clean, ?_, TokenStream.sourceName_of_tokenize cut,
    TokenStream.line_of_tokenize cut⟩
  have split : Lexeme.inPrintTag lexemes ++ [⟨.eof, ""⟩] =
      ⟨.variableBegin, "\x7b\x7b"⟩ :: lexemes ++ [⟨.variableEnd, "\x7d\x7d"⟩, ⟨.eof, ""⟩] :=
    List.append_assoc _ _ _
  exact written.trans split.symm

/-! A print tag takes one level of nesting, and the expression in it another. -/

variable (twoLevels : 1 < maxDepth)

include isDefault twoLevels

/-- A print tag is compiled to the value that the rule of some level makes of its tokens. -/
theorem exists_compile_of_ok {level : Level} {value : TokenStream → Expr}
    (reads : ∀ stream : TokenStream, stream.IsTag name source lexemes →
      (stream.get 1).kind.opens? = some .primary ∧
      level.rule (Expr.deeper (maxDepth - 2)) stream 1 =
        .ok (value stream) (1 + lexemes.length)) :
    ∃ stream compilation, stream.IsTag name source lexemes ∧
      compile settings registry name source = .ok compilation ∧ compilation.isClean = true ∧
      compilation.template =
        ⟨[.output ⟨(stream.get 0).line, stream.sourceName⟩ (value stream)], name⟩ := by
  rcases exists_isTag_of_cuts isGap cuts shows name with ⟨result, cut, noDiagnostics, isTag⟩
  rcases reads _ isTag with ⟨isOperand, outcome⟩
  have ends : Level.conditional.stops
      ((TokenStream.ofTokens result.tokens).get (1 + lexemes.length)).kind = true := by
    rw [isTag.inner.2]
    rfl
  have parsed := Expr.parse_eq_ok isOperand ends outcome
  rw [show maxDepth - 2 + 1 = maxDepth - 1 by omega] at parsed
  rcases Template.exists_parse_eq_of_ok registry isTag.ahead parsed with ⟨place, sameProgress⟩
  rw [compile_eq_of_tokenize isDefault registry cut, sameProgress]
  refine ⟨_, _, isTag, rfl, ?_, ?_⟩
  · simp [Compilation.isClean, noDiagnostics, Template.Progress.recovered]
  · rw [isTag.sourceName_eq]

/-- A print tag whose tokens the rule of some level refuses leaves an empty template, and the error
of the rule is the only one. -/
theorem exists_compile_of_error {level : Level} {error : TokenStream → SyntaxError} {after : Nat}
    (notBoundary : ∀ lexeme ∈ lexemes, lexeme.kind.isBoundary = false)
    (recoverable : ∀ stream, (error stream).isRecoverable = true)
    (fails : ∀ stream : TokenStream, stream.IsTag name source lexemes →
      (stream.get 1).kind.opens? = some .primary ∧
      level.rule (Expr.deeper (maxDepth - 2)) stream 1 = .error (error stream) after) :
    ∃ stream compilation, stream.IsTag name source lexemes ∧
      compile settings registry name source = .ok compilation ∧
      compilation.diagnostics = [] ∧ compilation.errors = [error stream] ∧
      compilation.template = ⟨[], name⟩ := by
  rcases exists_isTag_of_cuts isGap cuts shows name with ⟨result, cut, noDiagnostics, isTag⟩
  rcases fails _ isTag with ⟨isOperand, outcome⟩
  have failed := Expr.parse_eq_error isOperand outcome
  rw [show maxDepth - 2 + 1 = maxDepth - 1 by omega] at failed
  rcases Template.exists_parse_eq_of_error registry isTag.ahead notBoundary (recoverable _) failed
    with ⟨place, sameProgress⟩
  rw [compile_eq_of_tokenize isDefault registry cut, sameProgress]
  refine ⟨_, _, isTag, rfl, noDiagnostics, ?_, congrArg (Template.mk []) isTag.sourceName_eq⟩
  have room : 1 - maxErrors = 0 := Nat.sub_eq_zero_of_le Limits.maxErrors_pos
  simp [Template.Progress.recovered, room]

end

end Stencil

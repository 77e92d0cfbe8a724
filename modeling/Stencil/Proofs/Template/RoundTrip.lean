import Stencil.Compilation.Basic
import Stencil.Profiles
import Stencil.Proofs.Stmt.RoundTrip

/-!
# Compiling written expressions

A print tag that holds a written expression is compiled to this expression, as long as it is not
nested too deeply. Nothing is found wrong with it, and the tree differs in its origins only.
-/

namespace Stencil

/-! ### Print tags -/

/-- Tokens in a print tag. -/
def Lexeme.inPrintTag (lexemes : List Lexeme) : List Lexeme :=
  ⟨.variableBegin, "\x7b\x7b"⟩ :: lexemes ++ [⟨.variableEnd, "\x7d\x7d"⟩]

namespace Expr

open Lexeme

/-- The tokens of a print tag. -/
def tagLexemes (expr : Expr) : List Lexeme :=
  ⟨.variableBegin, "\x7b\x7b"⟩ :: expr.lexemes ++ [⟨.variableEnd, "\x7d\x7d"⟩]

/-- A print tag with the written form of an expression. -/
def printTag (expr : Expr) : String :=
  "\x7b\x7b " ++ expr.print ++ " \x7d\x7d"

variable [Limits]

/-- A print tag is cut into its tokens. -/
theorem Printable.exists_tokenize {expr : Expr} (printable : Printable expr)
    (sourceName : Option String) :
    ∃ result, tokenize {} sourceName expr.printTag = some result ∧ result.diagnostics = [] ∧
      Token.written (Token.closed result.tokens) = expr.tagLexemes ++ [⟨.eof, ""⟩] := by
  obtain ⟨first, rest, _, same, _⟩ := printable.starts.first
  have shows : expr.printTag.toList = "\x7b\x7b".toList ++ (indented expr.lexemes ++
      ' ' :: "\x7d\x7d".toList) := by
    rw [same, ← toList_spaced, ← same]
    simp [printTag, print]
  obtain ⟨result, cut, clean, written⟩ :=
    Lexer.exists_tokenize_tag sourceName printable.areSpelt shows
  refine ⟨result, cut, clean, ?_⟩
  simpa [tagLexemes] using written

end Expr

/-! ### Statements -/

section

variable [Limits]

section

variable {stream : TokenStream} {place : Place} {expr : Expr}

/-- An expression in a print tag is read back where enough levels of nesting are left. -/
theorem Expr.Printable.takes_in_tag (printable : expr.Printable) {start : Nat}
    (shows : stream.Shows start expr.tagLexemes) (levels : Nat) :
    Takes levels (expr.nesting + 1) stream (Expr.parse levels) (start + 1)
      (start + 1 + expr.lexemes.length) expr.Agrees := by
  rw [tagLexemes, List.cons_append, TokenStream.shows_cons, TokenStream.shows_append] at shows
  obtain ⟨_, inner, closes, _⟩ := shows
  exact printable.readBack.takes_conditional inner (by rw [closes.kind]; rfl) levels

namespace Stmt

variable {lexemes : List Lexeme}

theorem outputRule_eq_ok (place : Place)
    (shows : stream.Shows place.cursor (Lexeme.inPrintTag lexemes)) {value : Expr}
    (outcome : Expr.parse place.levels stream (place.cursor + 1) =
      .ok value (place.cursor + 1 + lexemes.length)) :
    outputRule stream place =
      .ok (.output ⟨(stream.get place.cursor).line, stream.sourceName⟩ value)
        { place with cursor := place.cursor + (Lexeme.inPrintTag lexemes).length } := by
  have sameLength : place.cursor + (Lexeme.inPrintTag lexemes).length =
      place.cursor + 1 + lexemes.length + 1 := by
    simp only [Lexeme.inPrintTag, List.length_append, List.length_cons, List.length_nil]
    omega
  rw [Lexeme.inPrintTag, List.cons_append, TokenStream.shows_cons, TokenStream.shows_append]
    at shows
  obtain ⟨opens, _, closes, _⟩ := shows
  rw [outputRule, bind_eq_of_ok (Parsing.lift_eq_of_ok (Reading.expect_eq_of_stands opens rfl _)),
    sameLength]
  refine (bind_eq_of_ok (Parsing.lift_eq_of_ok outcome)).trans ?_
  rw [bind_eq_of_ok (Parsing.lift_eq_of_ok (Reading.expect_eq_of_stands closes rfl _))]
  rfl

theorem outputRule_eq_error (place : Place)
    (shows : stream.Shows place.cursor (Lexeme.inPrintTag lexemes)) {error : SyntaxError}
    {after : Nat}
    (outcome : Expr.parse place.levels stream (place.cursor + 1) = .error error after) :
    outputRule stream place = .error error { place with cursor := after } := by
  rw [Lexeme.inPrintTag, List.cons_append, TokenStream.shows_cons] at shows
  rw [outputRule,
    bind_eq_of_ok (Parsing.lift_eq_of_ok (Reading.expect_eq_of_stands shows.1 rfl _))]
  exact bind_eq_of_error (Parsing.lift_eq_of_error outcome)

/-- A written print tag is read back if enough levels of nesting are left. -/
theorem parse_of_shows (printable : expr.Printable) (registry : Registry) (place : Place)
    (shows : stream.Shows place.cursor expr.tagLexemes) (room : place.depth < maxDepth) :
    (place.depth + expr.nesting + 2 ≤ maxDepth → ∃ origin value after,
      parse registry stream place = .ok (some (.output origin value)) after ∧
      after.cursor = place.cursor + expr.tagLexemes.length ∧ expr.Agrees value) ∧
    (maxDepth < place.depth + expr.nesting + 2 → ∃ span after,
      parse registry stream place = .error (.tooDeep maxDepth span) after) := by
  -- The tag has been entered, so that one level fewer is left for the expression.
  have takes := printable.takes_in_tag shows (place.entered "output").levels
  have levels : (place.entered "output").levels = maxDepth - (place.depth + 1) := rfl
  rw [parse_eq_of_output shows.1.kind]
  constructor
  · intro enough
    obtain ⟨value, outcome, agrees⟩ := takes.enough (by omega)
    have inner := outputRule_eq_ok (place.entered "output") shows outcome
    exact ⟨_, value, _, map_eq_of_ok (Parsing.nested_eq_of_ok room inner), rfl, agrees⟩
  · intro tooFew
    obtain ⟨span, after, outcome⟩ := takes.tooFew (by omega)
    have inner := outputRule_eq_error (place.entered "output") shows outcome
    exact ⟨span, _, map_eq_of_error (Parsing.nested_eq_of_error room inner)⟩

end Stmt

namespace Template

variable {registry : Registry}

/-- A template that is one tag, or one block, has one statement. -/
theorem parse_eq_of_ok {stmt : Stmt} (notStray : strayTag? registry stream 0 = none)
    (notEnd : (stream.get 0).kind ≠ .eof)
    (outcome : Stmt.parse registry stream {} = .ok (some stmt) place)
    (further : 0 < place.cursor) (inside : 0 < stream.size)
    (atEnd : (stream.get place.cursor).kind = .eof) :
    parse registry stream = { place, body := [stmt] } := by
  have next : parseNext registry stream {} = { place, body := [stmt] } := by
    simp only [parseNext, notStray, outcome, List.nil_append]
  rw [parse, parseAll, if_neg notEnd]
  dsimp only
  rw [next, if_pos ⟨rfl, further, inside⟩, parseAll, if_pos atEnd]

variable (isOutput : (stream.get 0).kind = .variableBegin)

include isOutput

omit [Limits] in
theorem strayTag?_eq_none : strayTag? registry stream 0 = none := by
  rw [strayTag?, if_neg (by rw [isOutput]; decide)]

/-- A template that begins with a print tag nested too deeply has no tree. -/
theorem parse_eq_of_tooDeep {limit : Nat} {span : Span}
    (outcome : Stmt.parse registry stream {} = .error (.tooDeep limit span) place) :
    parse registry stream = { place, fatal := some (.tooDeep limit span) } := by
  have isFatal : (SyntaxError.tooDeep limit span).isRecoverable = false :=
    (SyntaxError.isRecoverable_eq_false_iff _).2 ⟨limit, span, rfl⟩
  have next : parseNext registry stream {} =
      { place, fatal := some (.tooDeep limit span) } := by
    simp only [parseNext, strayTag?_eq_none isOutput, outcome, isFatal, Bool.false_eq_true,
      if_false]
  rw [parse, parseAll, if_neg (by rw [isOutput]; decide)]
  dsimp only
  rw [next, if_neg (by simp)]

end Template

end

/-! ### Templates -/

/-- Compiling with the default delimiters. -/
theorem compile_eq_of_tokenize {settings : Settings} (isDefault : settings.dialect = {})
    (registry : Registry) {name : Option String} {source : String} {result : Tokenization}
    (cut : tokenize {} name source = some result) :
    compile settings registry name source = Run.result settings.lexical.countKinds
      ⟨name, source, result, .ofTokens result.tokens,
        Template.parse registry (.ofTokens result.tokens)⟩ := by
  have sound : ({} : Dialect).fault? = none := by decide
  simp only [compile, Run.of, isDefault, sound, cut]
  rfl

/-- A print tag with a written expression is compiled to this expression, up to the lines and the
template names of its nodes, and nothing is found wrong with it; but the tag must not be nested too
deeply. -/
theorem compile_printTag {expr : Expr} (printable : expr.Printable) {settings : Settings}
    (isDefault : settings.dialect = {}) (registry : Registry) (name : Option String) :
    (expr.nesting + 2 ≤ maxDepth → ∃ compilation origin parsed,
      compile settings registry name expr.printTag = .ok compilation ∧
      compilation.isClean = true ∧ compilation.template.body = [.output origin parsed] ∧
      parsed.forgetOrigins = expr.forgetOrigins) ∧
    (maxDepth < expr.nesting + 2 → ∃ span,
      compile settings registry name expr.printTag =
        .error (.badSyntax (.tooDeep maxDepth span))) := by
  obtain ⟨result, cut, noDiagnostics, written⟩ := printable.exists_tokenize name
  obtain ⟨shows, atEnd⟩ : (TokenStream.ofTokens result.tokens).Shows 0 expr.tagLexemes ∧ _ :=
    TokenStream.shows_of_map_drop written
  have outcomes := Stmt.parse_of_shows printable registry {} shows Limits.maxDepth_pos
  rw [show ({} : Place).depth = 0 from rfl, Nat.zero_add] at outcomes
  rw [compile_eq_of_tokenize isDefault registry cut]
  constructor
  · intro fits
    obtain ⟨origin, parsed, after, outcome, cursor, agrees⟩ := outcomes.1 fits
    have isOutput : ((TokenStream.ofTokens result.tokens).get 0).kind = .variableBegin :=
      shows.1.kind
    rw [Template.parse_eq_of_ok (Template.strayTag?_eq_none isOutput) (by rw [isOutput]; decide)
      outcome (by simp [cursor, Expr.tagLexemes]) (Nat.lt_of_succ_lt shows.1.inside)
      (by rw [cursor]; exact atEnd)]
    refine ⟨_, origin, parsed, rfl, ?_, rfl, agrees⟩
    simp [Compilation.isClean, noDiagnostics, Template.Progress.recovered]
  · intro exceeds
    obtain ⟨span, after, outcome⟩ := outcomes.2 exceeds
    rw [Template.parse_eq_of_tooDeep shows.1.kind outcome]
    exact ⟨span, rfl⟩

end

/-- The right operand of a difference keeps its parentheses, and the tree is read back from them. -/
theorem compile_printTag_difference :
    let expr : Expr := .binary ⟨0, none⟩ .sub (.name ⟨0, none⟩ "a")
      (.binary ⟨0, none⟩ .sub (.name ⟨0, none⟩ "b") (.name ⟨0, none⟩ "c"))
    expr.printTag = "\x7b\x7b a - ( b - c ) \x7d\x7d" ∧ ∃ compilation origin parsed,
      compile {} {} none expr.printTag = .ok compilation ∧ compilation.isClean = true ∧
      compilation.template.body = [.output origin parsed] ∧ parsed.forgetOrigins = expr := by
  refine ⟨by decide, ?_⟩
  refine (compile_printTag ?_ rfl {} none).1 (by decide)
  exact .binary _ _ (.name _ (by decide)) (.binary _ _ (.name _ (by decide)) (.name _ (by decide)))

end Stencil

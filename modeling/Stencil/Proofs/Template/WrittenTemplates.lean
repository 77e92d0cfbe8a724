import Stencil.Profiles
import Stencil.Proofs.Template.PlainText
import Stencil.Proofs.Template.RoundTrip

/-!
# Compiling written templates

The written form of a template is cut into the tokens of its pieces, and from these its statements
are read back one after the other. Compiling it gives the template again, up to the origins of its
nodes, and nothing is found wrong with it. A template that is nested too deeply is not compiled.
-/

namespace Stencil

namespace Template

open Stmt

/-! ### Parsing -/

variable {registry : Registry} {stream : TokenStream} {progress : Progress} {stmt : Stmt}
  {body : List Stmt} {rest : List Lexeme}

/-- What opens a statement is not taken for a closing tag, whatever words extensions claim. -/
theorem strayTag?_eq_none_of_isOpening {piece : Piece} (opens : piece.isOpening = true)
    {cursor : Nat} (isAhead : stream.Ahead cursor (piece.lexemes ++ rest)) :
    strayTag? registry stream cursor = none := by
  have sameKind : (stream.get cursor).kind = (Lexeme.next (piece.lexemes ++ rest)).kind :=
    congrArg Lexeme.kind isAhead.get
  cases piece with
  | tag word arguments =>
      have words : ∀ word ∈ builtinTags, (Lexeme.word word).word? = some word ∧
          closingTags.contains word = false ∧
          Text.startsWith "end".toList word.toList = false := by
        decide
      rw [Piece.isOpening, Bool.and_eq_true] at opens
      rcases words word (List.contains_iff_mem.1 opens.1) with ⟨isWord, notClosing, notEnd⟩
      have sameWord : (stream.get (cursor + 1)).word? = some word := by
        rw [← Token.word?_lexeme, isAhead.tail.get]
        exact isWord
      have notClosingTag : registry.isClosing word = false := by
        rw [Registry.isClosing, notClosing, notEnd]
        rfl
      rw [strayTag?, sameWord, Option.filter_some, notClosingTag]
      exact ite_self none
  | output lexemes =>
      rw [strayTag?, if_neg (by rw [sameKind]; exact Token.Kind.noConfusion)]
  | raw content =>
      rw [strayTag?, if_neg (by rw [sameKind]; exact Token.Kind.noConfusion)]

theorem kind_ne_eof_of_written (printable : stmt.Printable) {cursor : Nat}
    (isAhead : stream.Ahead cursor (Piece.row stmt.pieces ++ rest)) :
    (stream.get cursor).kind ≠ .eof := by
  rcases printable.isOpening with ⟨piece, others, samePieces, _⟩
  rw [samePieces, Piece.row_cons, List.append_assoc] at isAhead
  rw [← Token.kind_lexeme, isAhead.get]
  exact piece.kind_next_ne_eof _

section

variable [Limits]

/-- A written statement is read, or it is nested too deeply. -/
theorem parseNext_of_written (printable : stmt.Printable)
    (ends : CallsEnd (stmt.hasBareCall = false) rest)
    (atPlace : stream.AtPlace 0 0 (Piece.row stmt.pieces ++ rest) progress.place) :
    (stmt.nesting ≤ maxDepth ∧ ∃ after parsed, stream.AtPlace 0 0 rest after ∧
      stmt.Agrees parsed ∧ parseNext registry stream progress =
        { progress with place := after, body := progress.body ++ [parsed] }) ∨
    (maxDepth < stmt.nesting ∧ ∃ span,
      (parseNext registry stream progress).fatal = some (.tooDeep maxDepth span)) := by
  have notStray : strayTag? registry stream progress.place.cursor = none := by
    rcases printable.isOpening with ⟨piece, others, samePieces, opens⟩
    have isAhead := atPlace.at_.ahead
    rw [samePieces, Piece.row_cons, List.append_assoc] at isAhead
    exact strayTag?_eq_none_of_isOpening opens isAhead
  have reads :=
    @Printable.readsBack _ stream registry stmt printable 0 0 rest ends progress.place atPlace
  cases outcome : Stmt.parse registry stream progress.place with
  | ok found after =>
      rw [outcome] at reads
      rcases reads with ⟨enough, atRest, parsed, rfl, agrees⟩
      exact Or.inl ⟨enough, after, parsed, atRest, agrees, parseNext_eq_of_ok notStray outcome⟩
  | error error after =>
      rw [outcome] at reads
      rcases reads with ⟨tooFew, span, rfl⟩
      exact Or.inr ⟨tooFew, span, parseNext_fatal_of_tooDeep notStray outcome⟩

/-- Written statements are read one after the other up to the end of the template, unless one of
them is nested too deeply. -/
theorem parseAll_of_written (each : ∀ stmt ∈ body, stmt.Printable)
    (notFatal : progress.fatal = none)
    (atPlace : stream.AtPlace 0 0 (Piece.row (bodyPieces body)) progress.place) :
    (bodyNesting body ≤ maxDepth ∧ (parseAll registry stream progress).fatal = none ∧
      (parseAll registry stream progress).errors = progress.errors ∧
      forgetBody (parseAll registry stream progress).body =
        forgetBody progress.body ++ forgetBody body) ∨
    (maxDepth < bodyNesting body ∧ ∃ span,
      (parseAll registry stream progress).fatal = some (.tooDeep maxDepth span)) := by
  induction body generalizing progress with
  | nil =>
      have atEnd : (stream.get progress.place.cursor).kind = .eof :=
        congrArg Lexeme.kind atPlace.at_.ahead.get
      rw [parseAll, if_pos atEnd]
      exact Or.inl ⟨Nat.zero_le _, notFatal, rfl, (List.append_nil _).symm⟩
  | cons stmt body ih =>
      rw [List.forall_mem_cons] at each
      rw [bodyPieces, Piece.row_append] at atPlace
      rw [bodyNesting]
      have ends : CallsEnd (stmt.hasBareCall = false) (Piece.row (bodyPieces body)) := by
        have ends : CallsEnd (stmt.hasBareCall = false) [] := Or.inr fun _ => rfl
        simpa using ends.before (callsCounted_of_printable each.2)
      have notEnd := kind_ne_eof_of_written each.1 atPlace.at_.ahead
      rcases parseNext_of_written each.1 ends atPlace with
        ⟨enough, after, parsed, atRest, agrees, sameNext⟩ | ⟨tooFew, span, isFatal⟩
      · have moves := atPlace.at_.further atRest.at_ (by
          have positive := length_row_pos each.1
          rw [List.length_append]
          omega)
        have goesOn : parseAll registry stream progress = parseAll registry stream
            { progress with place := after, body := progress.body ++ [parsed] } := by
          rw [← sameNext]
          apply parseAll_eq_of_further notEnd
          · rw [sameNext]
            exact notFatal
          · rw [sameNext]
            exact moves.1
          · exact moves.2
        rw [goesOn]
        rcases @ih { progress with place := after, body := progress.body ++ [parsed] } each.2
          notFatal atRest with ⟨enoughLater, isDone, sameErrors, sameBody⟩ | ⟨tooFew, isFatal⟩
        · refine Or.inl ⟨Nat.max_le.2 ⟨enough, enoughLater⟩, isDone, sameErrors, ?_⟩
          rw [sameBody]
          rw [Agrees] at agrees
          simp [forgetBody_eq_map, agrees]
        · exact Or.inr ⟨Nat.lt_of_lt_of_le tooFew (Nat.le_max_right _ _), isFatal⟩
      · refine Or.inr ⟨Nat.lt_of_lt_of_le tooFew (Nat.le_max_left _ _), span, ?_⟩
        rw [parseAll, if_neg notEnd]
        dsimp only
        rw [if_neg (by simp [isFatal]), isFatal]

/-! ### Compiling -/

/-- The written form of a template is cut into the tokens of its pieces. -/
theorem Printable.exists_tokenize {template : Template} (printable : template.Printable)
    (name : Option String) :
    ∃ result, tokenize {} name template.print = some result ∧ result.diagnostics = [] ∧
      Token.written (Token.closed result.tokens) =
        Piece.row (bodyPieces template.body) ++ [.ending] := by
  have spelt : ∀ piece ∈ bodyPieces template.body, piece.IsSpelt :=
    isSpelt_body fun stmt isStmt => (printable stmt isStmt).isSpelt
  have shows : (Lexer.State.ofSource template.print.toList).rest =
      ((bodyPieces template.body).flatMap fun piece => piece.print.toList) ++ [] := by
    rw [List.append_nil, ← @String.toList_ofList (List.flatMap _ _)]
    rfl
  rcases Lexer.exists_finds_pieces name spelt rfl shows with ⟨last, finds, inText, atEnd⟩
  exact Lexer.exists_tokenize_of_finds name finds inText atEnd

/-- A written template is compiled to this template, up to its name and the lines and names in its
nodes, and nothing is found wrong with it; but it must not be nested too deeply. -/
theorem compile_print {template : Template} (printable : template.Printable) {settings : Settings}
    (isDefault : settings.dialect = {}) (registry : Registry) (name : Option String) :
    (template.nesting ≤ maxDepth → ∃ compilation,
      compile settings registry name template.print = .ok compilation ∧
      compilation.isClean = true ∧
      compilation.template.forgetOrigins = template.forgetOrigins) ∧
    (maxDepth < template.nesting → ∃ span,
      compile settings registry name template.print =
        .error (.badSyntax (.tooDeep maxDepth span))) := by
  rcases printable.exists_tokenize name with ⟨result, cut, noDiagnostics, written⟩
  have atStart : (TokenStream.ofTokens result.tokens).AtPlace 0 0
      (Piece.row (bodyPieces template.body)) {} := ⟨⟨written, Nat.le_refl _⟩, rfl⟩
  have parsed := @parseAll_of_written registry _ {} _ _ printable rfl atStart
  rw [compile_eq_of_tokenize isDefault registry cut]
  constructor
  · intro fits
    rcases parsed with ⟨_, isDone, noErrors, sameBody⟩ | ⟨tooFew, _⟩
    · refine ⟨_, by simp only [Run.result, Progress.result, parse, isDone]; rfl, ?_, ?_⟩
      · simp [Compilation.isClean, noDiagnostics, Progress.recovered, noErrors]
      · rw [forgetOrigins, forgetOrigins, sameBody]
        rfl
    · exact absurd fits (Nat.not_le.2 tooFew)
  · intro exceeds
    rcases parsed with ⟨enough, _⟩ | ⟨_, span, isFatal⟩
    · exact absurd enough (Nat.not_le.2 exceeds)
    · refine ⟨span, ?_⟩
      simp only [Run.result, Progress.result, parse, isFatal]

end

set_option maxRecDepth 10000 in
/-- A loop with a call block and an `else` body. The text in the call block looks like a tag, and
the call tag after the loop has no body. -/
theorem compile_print_calls :
    let origin : Origin := ⟨0, none⟩
    let call : Expr := .call origin (.name origin "f") [] []
    let template : Template := ⟨[
      .forLoop origin ["i"] (.name origin "xs") none false
        [.callBlock origin call [⟨"a", none⟩] [.text origin "{% endcall %}"]]
        [.evaluate origin call],
      .bareCall origin call], none⟩
    template.print = "{% for i in xs %}{% call ( a ) f ( ) %}{% raw %}" ++
      "{% endcall %}{% endraw %}{% endcall %}{% else %}{% do f ( ) %}" ++
      "{% endfor %}{% call f ( ) %}" ∧
    ∃ compilation, compile {} {} none template.print = .ok compilation ∧
      compilation.isClean = true ∧ compilation.template.forgetOrigins = template := by
  intro origin call template
  have called : call.Printable := .call _ (.name _ (by decide)) (by simp) (by simp) (by simp)
  have parameters : ParametersPrintable [⟨"a", none⟩] := ⟨by simp, by decide, by simp⟩
  have block : (Stmt.callBlock origin call [⟨"a", none⟩]
      [.text origin "{% endcall %}"]).Printable := by
    refine .callBlock _ called rfl parameters ?_ ?_
    · exact List.forall_mem_singleton.2 (.text _ (by decide))
    · exact List.forall_mem_singleton.2 (by rw [hasBareCall_eq]; rfl)
  have loop : (Stmt.forLoop origin ["i"] (.name origin "xs") none false _
      [.evaluate origin call]).Printable :=
    .forLoop _ _ (by simp) (by decide) (.name _ (by decide)) (by simp)
      (List.forall_mem_singleton.2 block) (List.forall_mem_singleton.2 (.evaluate _ called))
  have printable : template.Printable :=
    List.forall_mem_cons.2 ⟨loop, List.forall_mem_singleton.2 (.bareCall _ called rfl)⟩
  exact ⟨by cbv, (compile_print printable rfl {} none).1 (by decide)⟩

end Template

end Stencil

import Stencil.Profiles
import Stencil.Proofs.Lexer.RawBlocks
import Stencil.Proofs.Template.WrittenTemplates

/-!
# Raw blocks end with their first tag

A raw block ends with the first `endraw` tag in its content, and what stands before the tag is its
text. The one exception is a tag that begins within a start delimiter which begins no tag: it is
passed over. In the default dialect no delimiter can be found within itself, so that every text
without an `endraw` tag is kept as it is between the two tags of a raw block.
-/

namespace Stencil

open Lexer

/-- A text without an `endraw` tag in a raw block. -/
def rawTemplate (content : String) : String :=
  "\x7b% raw %\x7d" ++ content ++ "\x7b% endraw %\x7d"

variable {content : String}

/-- A text can stand in a raw block if no `endraw` tag begins in it. -/
theorem Stmt.isRawContent_iff :
    isRawContent content = true ↔ ∀ length, ¬ClosesRaw {} (content.toList.drop length) := by
  have noTag_iff (tail : List Char) :
      (wordTag? {} "endraw".toList tail).isNone = true ↔ ¬ClosesRaw {} tail := by
    rw [closesRaw_iff (by decide), ← Option.not_isSome]
    simp
  rw [isRawContent, List.all_eq_true]
  simp only [List.mem_tails, noTag_iff]
  constructor
  · exact fun each length => each _ (List.drop_suffix _ _)
  · intro each tail isTail
    rw [List.suffix_iff_eq_drop.1 isTail]
    exact each _

/-- What is plain text without its origin is plain text. -/
theorem Stmt.exists_eq_text {body : List Stmt} {origin : Origin}
    (same : forgetBody body = forgetBody [.text origin content]) :
    ∃ origin, body = [.text origin content] := by
  rw [forgetBody_eq_map, forgetBody_eq_map, List.map_singleton, List.map_eq_singleton_iff] at same
  rcases same with ⟨stmt, rfl, sameStmt⟩
  cases stmt with
  | text origin' found =>
      simp only [forgetOrigins, text.injEq] at sameStmt
      exact ⟨origin', by rw [sameStmt.2]⟩
  | _ => simp [forgetOrigins] at sameStmt

/-- A text without an `endraw` tag is kept in a raw block. -/
theorem exists_compile_rawTemplate [Limits] {settings : Settings}
    (isDefault : settings.dialect = {}) (registry : Registry) (sourceName : Option String)
    (noEnd : ∀ length, ¬ClosesRaw {} (content.toList.drop length)) : ∃ compilation origin,
      compile settings registry sourceName (rawTemplate content) = .ok compilation ∧
      compilation.isClean = true ∧
      compilation.template = ⟨[.text origin content], sourceName⟩ := by
  have printable : (⟨[.text ⟨0, none⟩ content], none⟩ : Template).Printable :=
    List.forall_mem_singleton.2 (.text _ (Stmt.isRawContent_iff.2 noEnd))
  have samePrint : Template.print ⟨[.text ⟨0, none⟩ content], none⟩ = rawTemplate content := by
    simp only [Template.print, Stmt.bodyPieces, Stmt.pieces, List.append_nil, List.flatMap_cons,
      List.flatMap_nil, String.ofList_toList, Piece.print, rawTemplate]
  rcases printable.exists_tokenize sourceName with ⟨result, cut, noDiagnostics, written⟩
  have atStart : (TokenStream.ofTokens result.tokens).AtPlace 0 0
      (Piece.row (Stmt.bodyPieces [.text ⟨0, none⟩ content])) {} := ⟨⟨written, Nat.le_refl _⟩, rfl⟩
  rcases @Template.parseAll_of_written registry _ {} _ _ printable rfl atStart with
    ⟨_, isDone, noErrors, sameBody⟩ | ⟨tooDeep, _⟩
  · rcases Stmt.exists_eq_text sameBody with ⟨origin, sameBody⟩
    rw [← samePrint, compile_eq_of_tokenize isDefault registry cut]
    have isParsed : (Template.parse registry (.ofTokens result.tokens)).fatal = none := isDone
    have isClean : (Template.parse registry (.ofTokens result.tokens)).errors = [] := noErrors
    simp only [Run.result, Template.Progress.result, isParsed]
    refine ⟨_, origin, rfl, ?_, ?_⟩
    · simp [Compilation.isClean, noDiagnostics, Template.Progress.recovered, isClean]
    · exact congr (congrArg Template.mk sameBody) (TokenStream.sourceName_of_tokenize cut)
  · exact absurd tooDeep (Nat.not_lt_zero _)

/-- Every raw block ends with the first `endraw` tag in its content, if this tag is not hidden by a
start delimiter before it. No tag is hidden where no end of the start delimiter is its beginning; in
the default dialect a text without an `endraw` tag is kept in a raw block. -/
theorem raw_blocks_end [Limits] {dialect : Dialect} (sound : dialect.Sound) :
    (∀ (sourceName : Option String) (source : String) (result : Tokenization),
      tokenize dialect sourceName source = some result →
      ∀ before opening later, result.tokens = before ++ opening :: later →
        opening.kind = .rawBegin → ∃ start content,
          BeginsContent dialect source.toList opening start content ∧
          (EndsAtFirst dialect sourceName result opening start content later ↔
            ¬HidesEnd dialect content)) ∧
    ((∀ shift, 0 < shift → shift < dialect.blockStart.toList.length →
        ¬dialect.blockStart.toList.drop shift <+: dialect.blockStart.toList) →
      ∀ content, ¬HidesEnd dialect content) ∧
    (∀ (settings : Settings) (registry : Registry) (sourceName : Option String) (content : String),
      settings.dialect = {} → (∀ length, ¬ClosesRaw {} (content.toList.drop length)) →
      ∃ compilation origin,
        compile settings registry sourceName (rawTemplate content) = .ok compilation ∧
        compilation.isClean = true ∧
        compilation.template = ⟨[.text origin content], sourceName⟩) := by
  refine ⟨?_, not_hidesEnd_of_noBorder sound, ?_⟩
  · intro sourceName source result cut before opening later split isRaw
    rcases exists_rawTokens_of_tokenize cut split isRaw with
      ⟨start, content, begins, tokens, reported_iff⟩
    exact ⟨start, content, begins, endsAtFirst_iff sound tokens reported_iff⟩
  · intro settings registry sourceName content isDefault noEnd
    exact exists_compile_rawTemplate isDefault registry sourceName noEnd

/-- A raw block with a dash on each side ends with the first tag, and so does every one with a print
tag for its content. -/
theorem raw_blocks_end_dashes : ({} : Dialect).Sound ∧
    (∃ result opening later,
      tokenize {} none "\x7b% raw -%\x7d \x7b% \x7b%- endraw %\x7d" = some result ∧
      result.tokens = [] ++ opening :: later ∧ opening.kind = .rawBegin ∧
      ∃ start content,
        BeginsContent {} "\x7b% raw -%\x7d \x7b% \x7b%- endraw %\x7d".toList opening start content ∧
        EndsAtFirst {} none result opening start content later) ∧
    (∀ length, ¬ClosesRaw {} ("\x7b\x7b x \x7d\x7d".toList.drop length)) ∧
    ∃ compilation origin,
      compile {} {} none (rawTemplate "\x7b\x7b x \x7d\x7d") = .ok compilation ∧
      compilation.isClean = true ∧
      compilation.template = ⟨[.text origin "\x7b\x7b x \x7d\x7d"], none⟩ := by
  have sound : ({} : Dialect).Sound := by decide
  have noBorder (shift : Nat) (positive : 0 < shift)
      (inside : shift < ({} : Dialect).blockStart.toList.length) :
      ¬({} : Dialect).blockStart.toList.drop shift <+: ({} : Dialect).blockStart.toList := by
    have two : ({} : Dialect).blockStart.toList.length = 2 := rfl
    obtain rfl : shift = 1 := by omega
    decide
  have isRawContent : Stmt.isRawContent "\x7b\x7b x \x7d\x7d" = true := by decide
  have noEnd := Stmt.isRawContent_iff.1 isRawContent
  have cut : (tokenize {} none "\x7b% raw -%\x7d \x7b% \x7b%- endraw %\x7d").map (fun result =>
      result.tokens.map Token.lexeme) = some [⟨.rawBegin, "\x7b% raw -%\x7d"⟩, ⟨.data, "\x7b%"⟩,
        ⟨.rawEnd, "\x7b%- endraw %\x7d"⟩, ⟨.eof, ""⟩] := by
    cbv
  rcases Option.map_eq_some_iff.1 cut with ⟨result, isResult, same⟩
  rcases List.map_eq_cons_iff.1 same with ⟨opening, later, split, sameOpening, _⟩
  have isRaw : opening.kind = .rawBegin := congrArg Lexeme.kind sameOpening
  rcases raw_blocks_end sound with ⟨ends, notHidden, compiles⟩
  rcases ends _ _ _ isResult [] opening later split isRaw with ⟨start, content, begins, endsAt_iff⟩
  exact ⟨sound, ⟨result, opening, later, isResult, split, isRaw, start, content, begins,
    endsAt_iff.2 (notHidden noBorder content)⟩, noEnd, compiles {} {} none _ rfl noEnd⟩

/-- An `endraw` tag that begins within a start delimiter is passed over: all of the text is taken,
and the block is reported. -/
theorem raw_end_passed_over :
    let dialect : Dialect := { blockStart := "<<", blockEnd := ">>" }
    dialect.Sound ∧ ClosesRaw dialect ("<<<endraw>>".toList.drop 1) ∧ ∃ result,
      tokenize dialect none "<<raw>><<<endraw>>" = some result ∧
      result.tokens.map Token.lexeme =
        [⟨.rawBegin, "<<raw>>"⟩, ⟨.data, "<<<endraw>>"⟩, ⟨.eof, ""⟩] ∧
      result.diagnostics = [.unterminatedRaw .start] := by
  intro dialect
  have cut : (tokenize dialect none "<<raw>><<<endraw>>").map (fun result =>
      (result.tokens.map Token.lexeme, result.diagnostics)) =
        some ([⟨.rawBegin, "<<raw>>"⟩, ⟨.data, "<<<endraw>>"⟩, ⟨.eof, ""⟩],
          [.unterminatedRaw .start]) := by
    cbv
  rcases Option.map_eq_some_iff.1 cut with ⟨result, isResult, same⟩
  have sound : dialect.Sound := by decide
  refine ⟨sound, ?_, result, isResult, (Prod.mk.inj same).1, (Prod.mk.inj same).2⟩
  rw [closesRaw_iff sound]
  decide

end Stencil

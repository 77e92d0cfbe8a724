import Stencil.Profiles
import Stencil.Proofs.Template.Progress

/-!
# Extensions are conservative

What the grammar can read without extensions is read in the same way with any of them, whatever they
do. A word that has a rule is never handed to an extension, and a tag that closes a block is found
before the rule for statements is used. So the parses with and without extensions agree statement by
statement, at every depth, as long as the one without meets no error.
-/

namespace Stencil

/-- With extensions fewer words close a block. -/
theorem Registry.isClosing_empty {registry : Registry} {word : String}
    (isClosing : registry.isClosing word = true) : Registry.isClosing {} word = true := by
  simp only [Registry.isClosing, Bool.or_eq_true, Bool.and_eq_true] at *
  rcases isClosing with isClosing | ⟨begins, _⟩
  · exact Or.inl isClosing
  · exact Or.inr ⟨begins, rfl⟩

variable {stream : TokenStream} (closed : stream.IsClosed) (registry : Registry)

include closed

/-- A statement that is read without extensions is read in the same way with them. -/
theorem Stmt.parse_matches [Limits] (place : Place) :
    Matches True (Stmt.parse {} stream place) (Stmt.parse registry stream place) := by
  generalize left : stream.size - place.cursor = count
  induction count using Nat.strongRecOn generalizing place with
  | ind count ih =>
      rw [Stmt.parse_eq, Stmt.parse_eq]
      refine Stmt.statementRule_matches closed (Or.inr trivial) ?_ fun inner later => ?_
      · intro inner later
        unfold Stmt.beyond
        split
        · exact (Stmt.parse_moves closed inner).le
        · exact Nat.le_refl inner.cursor
      · unfold Stmt.beyond
        split
        · next further => exact ih (stream.size - inner.cursor) (by omega) inner rfl
        · exact .refl _

namespace Template

section

variable [Limits] {progress : Progress}

/-- A round that meets no error reads a statement, and does so with extensions too. -/
theorem parseNext_eq_of_no_errors (noErrors : (parseNext {} stream progress).errors = [])
    (notFatal : (parseNext {} stream progress).fatal = none) :
    parseNext registry stream progress = parseNext {} stream progress := by
  have round := round_parseNext closed progress
  generalize isNext : parseNext {} stream progress = next at *
  cases round with
  | stray => simp at noErrors
  | recovered => simp at noErrors
  | aborted => simp at notFatal
  | statement notStray outcome =>
      refine parseNext_eq_of_ok ?_ ((Stmt.parse_matches closed registry _).eq_of_ok outcome)
      unfold strayTag? at notStray ⊢
      split
      · next isBlock =>
        rw [if_pos isBlock, Option.filter_eq_none_iff] at notStray
        rw [Option.filter_eq_none_iff]
        intro word isWord isClosing
        exact notStray word isWord (Registry.isClosing_empty isClosing)
      · rfl

/-- A parse that meets no error is the same with extensions. -/
theorem parseAll_eq_of_no_errors (noErrors : (parseAll {} stream progress).errors = [])
    (notFatal : (parseAll {} stream progress).fatal = none) :
    parseAll registry stream progress = parseAll {} stream progress := by
  fun_induction parseAll {} stream progress with
  | case1 progress isEnd => rw [parseAll, if_pos isEnd]
  | case2 progress notEnd next goesOn ih =>
      have noErrorsNext : next.errors = [] := by
        refine List.eq_nil_iff_forall_not_mem.2 fun error member => ?_
        have stays : error ∈ (parseAll {} stream next).errors := mem_errors_parseAll member
        rw [noErrors] at stays
        exact absurd stays List.not_mem_nil
      have same := parseNext_eq_of_no_errors closed registry noErrorsNext
        (Option.isNone_iff_eq_none.1 goesOn.1)
      rw [parseAll, if_neg notEnd]
      simp only [same]
      rw [if_pos goesOn]
      exact ih noErrors notFatal
  | case3 progress notEnd next stays =>
      have same := parseNext_eq_of_no_errors closed registry noErrors notFatal
      rw [parseAll, if_neg notEnd]
      simp only [same]
      exact if_neg stays

omit closed in
/-- A template that is parsed without extensions and without errors has the same tree with any
extensions, and no error is met. -/
theorem parse_with_extensions (tokens : List Token) {template : Template}
    (parsed : (parse {} (.ofTokens tokens)).result (.ofTokens tokens) = .ok template)
    (noErrors : (parse {} (.ofTokens tokens)).errors = []) :
    (parse registry (.ofTokens tokens)).result (.ofTokens tokens) = .ok template ∧
      (parse registry (.ofTokens tokens)).errors = [] := by
  have closed := TokenStream.isClosed_ofTokens tokens
  have same : parse registry (.ofTokens tokens) = parse {} (.ofTokens tokens) :=
    parseAll_eq_of_no_errors closed registry noErrors (of_result_eq_ok parsed).1
  rw [same]
  exact ⟨parsed, noErrors⟩

end

omit closed in
set_option maxRecDepth 10000 in
/-- An extension that fails at all of its tags is registered, and the word that it claims is used as
a name. -/
theorem parse_with_extensions_refusing : ∃ (extension : Extension) (registry : Registry)
    (tokens : List Token) (template : Template),
    Registry.register {} extension = .ok registry ∧ registry.handles "shout" = true ∧
    (∀ statement opening stream place, ∃ error,
      extension.parseTag statement opening stream place = .error error place) ∧
    (parse {} (.ofTokens tokens)).result (.ofTokens tokens) = .ok template ∧
    (parse {} (.ofTokens tokens)).errors = [] ∧
    (parse registry (.ofTokens tokens)).result (.ofTokens tokens) = .ok template ∧
    (parse registry (.ofTokens tokens)).errors = [] := by
  let extension : Extension :=
    ⟨"loud", ["shout"], fun _ opening => throw (.unknownTag "shout" opening.span)⟩
  let tokens := Token.layOut none .start [(.blockBegin, "\x7b%"), (.keyword .if_, "if"),
    (.name, "shout"), (.blockEnd, "%\x7d"), (.data, "b"), (.blockBegin, "\x7b%"),
    (.keyword .endIf, "endif"), (.blockEnd, "%\x7d")]
  have registered : Registry.register {} extension = .ok ⟨[extension]⟩ := rfl
  obtain ⟨notFatal, noErrors⟩ : (parse {} (.ofTokens tokens)).fatal = none ∧
      (parse {} (.ofTokens tokens)).errors = [] := by
    cbv
  have parsed := result_eq_ok (.ofTokens tokens) notFatal
  exact ⟨extension, _, tokens, _, registered, rfl, fun _ _ _ _ => ⟨_, rfl⟩, parsed, noErrors,
    parse_with_extensions _ tokens parsed noErrors⟩

end Template

end Stencil

import Stencil.Profiles
import Stencil.Proofs.Template.History

/-!
# The error that a strict parse fails with

A strict parse takes the oldest error that is remembered for the first one. That is right as long as
none has been forgotten. A template with more errors than there is room for is refused with an error
from its middle: tags without a word, one after the other, are a template that has as many errors as
tags.
-/

namespace Stencil.Template

/-! ### Templates with as many errors as one likes -/

/-- The token at an index of a template in which every tag ends as soon as it begins. -/
def tagBracket (index : Nat) : Token where
  kind := if index % 2 = 0 then .blockBegin else .blockEnd
  text := if index % 2 = 0 then "\x7b%" else "%\x7d"
  position := ⟨2 * index, 1, 2 * index + 1⟩
  sourceName := none

/-- Tags that hold no word, one after the other. -/
def emptyTags (count : Nat) : List Token :=
  (List.range (2 * count)).map tagBracket

theorem inOrder_emptyTags (count : Nat) : Token.InOrder (emptyTags count) := by
  apply List.Pairwise.map _ _ List.pairwise_lt_range
  intro first second isBefore
  exact Nat.mul_le_mul_left 2 (Nat.le_of_lt isBefore)

theorem kind_tagBracket_even (index : Nat) : (tagBracket (2 * index)).kind = .blockBegin := by
  simp [tagBracket]

theorem kind_tagBracket_odd (index : Nat) : (tagBracket (2 * index + 1)).kind = .blockEnd := by
  simp [tagBracket, Nat.add_mod]

/-- The error for a tag without a word names the token that stands in place of the word. -/
theorem parse_of_no_word [Limits] {stream : TokenStream} {place : Place}
    (isBlock : (stream.get place.cursor).kind = .blockBegin)
    (noWord : (stream.get (stream.next place.cursor)).word? = none) :
    Stmt.parse {} stream place =
      .error (.ofToken (stream.get (stream.next place.cursor)) "tag name")
        { place with cursor := stream.next place.cursor } := by
  rw [Stmt.parse_eq, Stmt.statementRule, bind_eq_of_ok (Parsing.lift_current_eq _ _)]
  simp only [isBlock]
  rw [Stmt.blockTagRule, bind_eq_of_ok (Parsing.lift_advance_eq _ _),
    bind_eq_of_ok (Parsing.lift_current_eq _ _)]
  simp only [noWord]
  exact Parsing.lift_eq_of_error rfl

section

variable {count : Nat}

theorem kind_ne_eof_of_mem_emptyTags : ∀ token ∈ emptyTags count, token.kind ≠ .eof := by
  simp only [emptyTags, List.forall_mem_map]
  intro index _
  simp only [tagBracket]
  split <;> simp

theorem significant_emptyTags : Token.significant (emptyTags count) = emptyTags count := by
  apply List.filter_eq_self.2
  simp only [emptyTags, List.forall_mem_map]
  intro index _
  simp only [tagBracket]
  split <;> rfl

theorem size_emptyTags : (TokenStream.ofTokens (emptyTags count)).size = 2 * count + 1 := by
  rw [TokenStream.size_ofTokens kind_ne_eof_of_mem_emptyTags, significant_emptyTags]
  simp [emptyTags]

theorem get_emptyTags {index : Nat} (inside : index < 2 * count) :
    (TokenStream.ofTokens (emptyTags count)).get index = tagBracket index := by
  have found : index < (Token.significant (emptyTags count)).length := by
    rw [significant_emptyTags]
    simpa [emptyTags] using inside
  rw [TokenStream.get_eq_getElem kind_ne_eof_of_mem_emptyTags found]
  simp only [significant_emptyTags]
  simp [emptyTags]

theorem kind_get_emptyTags_last :
    ((TokenStream.ofTokens (emptyTags count)).get (2 * count)).kind = .eof := by
  have closed := TokenStream.isClosed_ofTokens (emptyTags count)
  rwa [TokenStream.IsClosed, size_emptyTags] at closed

variable [Limits]

/-- A round at a tag without a word drops the tag. -/
theorem parseNext_emptyTags {index : Nat} (inside : index < count) {progress : Progress}
    (atTag : progress.place.cursor = 2 * index) :
    parseNext {} (.ofTokens (emptyTags count)) progress = { progress with
      place := { progress.place with cursor := 2 * (index + 1) }
      errors := progress.errors ++ [.ofToken (tagBracket (2 * index + 1)) "tag name"] } := by
  let stream := TokenStream.ofTokens (emptyTags count)
  have isOpening : stream.get progress.place.cursor = tagBracket (2 * index) := by
    rw [atTag]
    exact get_emptyTags (by omega)
  have isEnd : stream.get (2 * index + 1) = tagBracket (2 * index + 1) :=
    get_emptyTags (by omega)
  have isNext : stream.next progress.place.cursor = 2 * index + 1 := by
    rw [TokenStream.next, size_emptyTags, if_pos (by omega), atTag]
  have noWord : (tagBracket (2 * index + 1)).word? = none := by
    simp [Token.word?, kind_tagBracket_odd]
  have notStray : strayTag? {} stream progress.place.cursor = none := by
    simp [strayTag?, atTag, isEnd, noWord]
  have isBlock : (stream.get progress.place.cursor).kind = .blockBegin := by
    rw [isOpening, kind_tagBracket_even]
  have outcome := parse_of_no_word isBlock (by rw [isNext, isEnd, noWord])
  rw [isNext, isEnd] at outcome
  -- the next tag, or the end of the template, is where the parse is taken up
  have isBoundary : (stream.get (2 * index + 1 + 1)).kind.isBoundary = true := by
    by_cases isLast : index + 1 = count
    · rw [show 2 * index + 1 + 1 = 2 * count by omega, kind_get_emptyTags_last]
      rfl
    · rw [get_emptyTags (by omega), show 2 * index + 1 + 1 = 2 * (index + 1) by omega,
        kind_tagBracket_even]
      rfl
  have point : recoveryPoint stream progress.place.cursor (2 * index + 1) = 2 * (index + 1) := by
    rw [recoveryPoint, if_neg (by omega), TokenStream.seek, isEnd, kind_tagBracket_odd,
      if_neg (by decide), size_emptyTags, if_pos (by omega), TokenStream.seek, if_pos isBoundary]
    omega
  rw [parseNext_eq_of_error notStray outcome (SyntaxError.isRecoverable_ofToken _ _), point]

theorem parseAll_emptyTags {index : Nat} (inside : index ≤ count) {progress : Progress}
    (atTag : progress.place.cursor = 2 * index) (notFatal : progress.fatal = none) :
    (parseAll {} (.ofTokens (emptyTags count)) progress).errors = progress.errors ++
      (List.range' index (count - index)).map (fun index =>
        .ofToken (tagBracket (2 * index + 1)) "tag name") ∧
    (parseAll {} (.ofTokens (emptyTags count)) progress).fatal = none := by
  induction inside using Nat.decreasingInduction generalizing progress with
  | self =>
      rw [parseAll, atTag, if_pos kind_get_emptyTags_last]
      simpa using notFatal
  | of_succ index inside ih =>
      have notEnd : ((TokenStream.ofTokens (emptyTags count)).get (2 * index)).kind ≠ .eof := by
        rw [get_emptyTags (by omega), kind_tagBracket_even]
        simp
      have isLess : count - index = count - (index + 1) + 1 := by omega
      have further : progress.place.cursor < 2 * (index + 1) := by omega
      have inStream : 2 * index < (TokenStream.ofTokens (emptyTags count)).size := by
        rw [size_emptyTags]
        omega
      let next : Progress := { progress with
        place := { progress.place with cursor := 2 * (index + 1) }
        errors := progress.errors ++ [.ofToken (tagBracket (2 * index + 1)) "tag name"] }
      have rest := @ih next rfl notFatal
      have goesOn : next.fatal.isNone := Option.isNone_iff_eq_none.2 notFatal
      rw [parseAll, atTag, if_neg notEnd, parseNext_emptyTags inside atTag]
      dsimp only
      rw [if_pos ⟨goesOn, by omega, inStream⟩, isLess, List.range'_succ]
      simpa [next] using rest

end

/-! ### The oldest error that is remembered -/

section

variable [Limits]

theorem head?_recovered (progress : Progress) :
    progress.recovered.head? = progress.errors[progress.errors.length - maxErrors]? := by
  rw [Progress.recovered, List.head?_drop]

theorem parseStrict_eq {stream : TokenStream} {template : Template}
    (parsed : (parse {} stream).result stream = .ok template) :
    parseStrict stream =
      match (parse {} stream).errors[(parse {} stream).errors.length - maxErrors]? with
      | some error => .error error
      | none => .ok template := by
  rw [← head?_recovered, parseStrict]
  simp only [parsed]
  rfl

/-- A strict parse gives the tree of a template without errors. A template with errors is refused
with the first one of them while all are remembered, and with a later one when some are not. -/
theorem parseStrict_reports (tokens : List Token) (template : Template)
    (parsed : (parse {} (.ofTokens tokens)).result (.ofTokens tokens) = .ok template) :
    let stream := TokenStream.ofTokens tokens
    (met stream {} = [] → parseStrict stream = .ok template) ∧
    ∀ first rest, met stream {} = first :: rest →
      (Token.InOrder tokens →
        ∀ later ∈ rest, first.span.start.offset ≤ later.span.start.offset) ∧
      (rest.length < maxErrors → parseStrict stream = .error first) ∧
      (maxErrors ≤ rest.length → ∃ later, rest[rest.length - maxErrors]? = some later ∧
        parseStrict stream = .error later) := by
  intro stream
  have closed := TokenStream.isClosed_ofTokens tokens
  have errors : (parse {} stream).errors = met stream {} := errors_parseAll closed {}
  have strict := parseStrict_eq parsed
  rw [errors] at strict
  constructor
  · intro noneMet
    rw [strict, noneMet]
    rfl
  · intro first rest isMet
    rw [strict, isMet, List.length_cons]
    refine ⟨?_, ?_, ?_⟩
    · intro inOrder
      have sorted := (met_inOrder closed (TokenStream.isOrdered_ofTokens inOrder) {}).2
      rw [isMet] at sorted
      exact (List.pairwise_cons.1 sorted).1
    · intro room
      rw [Nat.sub_eq_zero_of_le (by omega)]
      rfl
    · intro full
      have found : rest.length - maxErrors < rest.length := by
        have room := Limits.maxErrors_pos
        omega
      refine ⟨rest[rest.length - maxErrors], List.getElem?_eq_getElem found, ?_⟩
      rw [Nat.sub_add_comm full, List.getElem?_cons_succ, List.getElem?_eq_getElem found]

end

/-- Two tags without a word are both dropped, and a strict parse fails with the error for the first
one. -/
theorem parseStrict_reports_two : ∃ tokens template first later,
    (parse {} (.ofTokens tokens)).result (.ofTokens tokens) = .ok template ∧
    met (.ofTokens tokens) {} = [first, later] ∧
    parseStrict (.ofTokens tokens) = .error first := by
  let tokens := emptyTags 2
  have starts : ({} : Progress).place.cursor = 2 * 0 := rfl
  rcases parseAll_emptyTags (Nat.zero_le 2) starts rfl with ⟨errors, notFatal⟩
  have parsed := result_eq_ok (.ofTokens tokens) notFatal
  rw [errors_parseAll (TokenStream.isClosed_ofTokens tokens)] at errors
  have reports := (parseStrict_reports tokens _ parsed).2 _ _ errors
  exact ⟨tokens, _, _, _, parsed, errors, reports.2.1 (by decide)⟩

/-- With one error more than there is room for, a strict parse fails with the second error. -/
theorem parseStrict_forgets_first : ∃ tokens template first,
    Token.InOrder tokens ∧
    (parse {} (.ofTokens tokens)).result (.ofTokens tokens) = .ok template ∧
    (parse {} (.ofTokens tokens)).errors.head? = some first ∧
    parseStrict (.ofTokens tokens) ≠ .error first := by
  let stream := TokenStream.ofTokens (emptyTags (maxErrors + 1))
  have starts : ({} : Progress).place.cursor = 2 * 0 := rfl
  rcases parseAll_emptyTags (Nat.zero_le (maxErrors + 1)) starts rfl with ⟨errors, notFatal⟩
  have parsed := result_eq_ok stream notFatal
  have first : (parse {} stream).errors.head? =
      some (.ofToken (tagBracket 1) "tag name") := by
    rw [parse, errors]
    rfl
  have second : (parse {} stream).errors[(parse {} stream).errors.length - maxErrors]? =
      some (.ofToken (tagBracket 3) "tag name") := by
    rw [parse, errors]
    rfl
  refine ⟨_, _, _, inOrder_emptyTags _, parsed, first, ?_⟩
  rw [parseStrict_eq parsed, second]
  intro same
  exact absurd (Except.error.inj same) (by decide)

end Stencil.Template

import Stencil.Proofs.Expr.Passing
import Stencil.Stmt.Parse

/-!
# Parts of tags stay inside their tag

The rules for targets, parameters, modifiers and imported names read only tokens that stand inside
tags. Unlike expressions, some of these parts may be empty. The rule for the statements inside of a
statement and a step of the rule for plain text have their own names here.
-/

namespace Stencil.Stmt

open Reading

/-- The rule for the statements inside of one that starts at a place. -/
def beyond [Limits] (registry : Registry) (stream : TokenStream) (place : Place) :
    Parsing (Option Stmt) := fun _ inner =>
  if place.cursor < inner.cursor ∧ place.cursor < stream.size then parse registry stream inner
  else .error (.tooDeep maxDepth (stream.get inner.cursor).span) inner

theorem parse_eq [Limits] (registry : Registry) (stream : TokenStream) (place : Place) :
    parse registry stream place =
      statementRule (beyond registry stream place) registry stream place := by
  rw [parse]
  rfl

/-- Reads a token of plain text after those that make up `content`, if there is one. -/
def plainStep (content : String) : Reading (ForInStep String) := do
  let token ← current
  if token.kind = .data then
    let _ ← advance
    return .yield (content ++ token.text)
  else return .done content

theorem plainText_eq : plainText = loop plainStep "" := rfl

variable {stream : TokenStream} {start : Nat} (closed : stream.IsClosed)

include closed

theorem assignTargets_reads : Reads stream 1 start assignTargets := by
  refine .bind (skipIf_reads closed rfl) fun parenthesized start => ?_
  refine .bind (identifier_reads closed) fun first start => ?_
  refine .bind (.loop (fun targets start => ?_) _) fun targets start => ?_
  · refine .bind (skipIf_reads closed rfl) fun isComma start => ?_
    cases isComma with
    | true =>
        refine .current ?_
        split
        · exact .bind ((identifier_reads closed).weaken (Nat.zero_le _)) fun _ _ => .pure _
        · exact .pure _
    | false => exact .pure _
  · cases parenthesized with
    | true =>
        exact .bind ((expect_reads closed rfl _).weaken (Nat.zero_le _)) fun _ _ => .pure _
    | false => exact .pure _

omit closed in
/-- A look for a modifier reads nothing, and finds two words or none. -/
theorem contextModifier?_eq (stream : TokenStream) (start : Nat) :
    ∃ modifier, contextModifier? stream start = .ok modifier start ∧
      (modifier.isSome = true → (stream.get start).kind.isInner = true ∧
        (stream.get (start + 1)).kind.isInner = true) := by
  by_cases isWith : (stream.get start).isWord "with" = true ∧
      (stream.get (start + 1)).isWord "context" = true
  · refine ⟨some true, ?_, fun _ => ⟨Token.isInner_of_isWord isWith.1,
      Token.isInner_of_isWord isWith.2⟩⟩
    rw [contextModifier?, current_bind, peek_bind]
    rw [if_pos isWith]
    rfl
  · by_cases isWithout : (stream.get start).isWord "without" = true ∧
        (stream.get (start + 1)).isWord "context" = true
    · refine ⟨some false, ?_, fun _ => ⟨Token.isInner_of_isWord isWithout.1,
        Token.isInner_of_isWord isWithout.2⟩⟩
      rw [contextModifier?, current_bind, peek_bind]
      rw [if_neg isWith, if_pos isWithout]
      rfl
    · refine ⟨none, ?_, by simp⟩
      rw [contextModifier?, current_bind, peek_bind]
      rw [if_neg isWith, if_neg isWithout]
      rfl

omit closed in
theorem contextModifier?_reads : Reads stream 0 start contextModifier? := by
  obtain ⟨modifier, outcome, _⟩ := contextModifier?_eq stream start
  rw [Reads, outcome]
  exact ⟨.refl _ _, Nat.le_refl _⟩

theorem contextModifier_reads (default : Bool) :
    Reads stream 0 start (contextModifier default) := by
  obtain ⟨modifier, found, words⟩ := contextModifier?_eq stream start
  refine .bind_of_ok contextModifier?_reads fun other stop outcome => ?_
  rw [found] at outcome
  cases outcome
  cases modifier with
  | none => exact .pure _
  | some withContext =>
      obtain ⟨firstInner, secondInner⟩ := words rfl
      refine .bind_of_ok (advance_reads closed firstInner) fun _ stop moved => ?_
      obtain rfl : stop = start + 1 := by
        cases moved
        exact closed.next_eq (Token.Kind.ne_eof_of_isInner firstInner)
      exact .bind (advance_reads closed secondInner) fun _ _ => .pure _

variable {deeper : Expr.Deeper} (below : deeper.Inside stream)

include below

theorem parameter_reads (params : List Parameter) :
    Reads stream 1 start (parameter deeper params) := by
  refine .current (.bind (identifier_reads closed) fun name start => ?_)
  dsimp only
  split
  · exact .throw_bind rfl _
  · refine .bind (skipIf_reads closed rfl) fun hasDefault start => ?_
    cases hasDefault with
    | true =>
        exact .bind (.map ((below.conditional start).weaken (Nat.zero_le _))) fun _ _ => .pure _
    | false => exact .pure _

theorem signature_reads : Reads stream 1 start (signature deeper) :=
  .bind (expect_reads closed rfl _) fun _ _ =>
    (commaList_reads closed rfl fun _ _ => parameter_reads closed below _).weaken (Nat.zero_le _)

theorem assignments_reads : Reads stream 0 start (assignments deeper) := by
  refine .loop (fun assignments start => .current ?_) _
  have assignment (start : Nat) : Reads stream 0 start (do
      let name ← identifier
      let _ ← expect .assign "'='"
      let value ← deeper.conditional
      return ForInStep.yield (assignments ++ [⟨name, value⟩])) := by
    refine .bind (identifier_reads closed) fun _ start => ?_
    refine .bind (expect_reads closed rfl _) fun _ start => ?_
    exact .bind ((below.conditional start).weaken (Nat.zero_le _)) fun _ _ => .pure _
  split
  · exact .pure _
  · dsimp only
    split
    · exact .bind (expect_reads closed rfl _) fun _ start => assignment start
    · exact assignment start

theorem filterCalls_reads : Reads stream 1 start (filterCalls deeper) := by
  refine .bind (Expr.filterCall_reads closed below) fun _ start => .loop (fun _ start => ?_) _
  refine .bind (skipIf_reads closed rfl) fun isPipe start => ?_
  cases isPipe with
  | true =>
      exact .bind ((Expr.filterCall_reads closed below).weaken (Nat.zero_le _)) fun _ _ => .pure _
  | false => exact .pure _

omit below

theorem blockModifiers_reads : Reads stream 0 start blockModifiers := by
  refine .loop (fun modifiers start => ?_) _
  refine .bind (skipWord_reads closed _) fun isScoped start => ?_
  cases isScoped with
  | true => exact .pure _
  | false =>
      refine .bind (skipWord_reads closed _) fun isRequired start => ?_
      cases isRequired with
      | true => exact .pure _
      | false => exact .pure _

theorem importName_reads : Reads stream 1 start importName := by
  refine .current (.bind (identifier_reads closed) fun name start => ?_)
  dsimp only
  split
  · exact .throw_bind rfl _
  · refine .bind (skipWord_reads closed _) fun isRenamed start => ?_
    cases isRenamed with
    | true =>
        exact .bind (.map ((identifier_reads closed).weaken (Nat.zero_le _))) fun _ _ => .pure _
    | false => exact .pure _

theorem importedNames_reads : Reads stream 0 start importedNames := by
  refine .bind (.loop (fun names start => ?_) _) fun names start => ?_
  · refine .bind contextModifier?_reads fun modifier start => ?_
    split
    · exact .pure _
    · refine .bind (importName_reads closed) fun name start => ?_
      refine .bind (skipIf_reads closed rfl) fun isComma start => ?_
      cases isComma with
      | true => exact .pure _
      | false => exact .pure _
  · split
    · exact .current (.refuse _ _)
    · exact .pure _

end Stencil.Stmt

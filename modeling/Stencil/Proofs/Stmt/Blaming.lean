import Stencil.Proofs.Expr.Blaming
import Stencil.Proofs.Stmt.Progress

/-!
# What errors in statements are about

A statement fails with an error about one of its own tokens, none of which lies beyond the place
where the rule stops. A block that nothing closes is told by the token that opens it, and everything
else by a token at which a rule has stopped or that it has looked at. So an error in a statement is
never about a token before the statement, also where the statement is part of a body.
-/

namespace Stencil.Stmt

variable {stream : TokenStream} {low start : Nat}

/-! ### Parts of tags -/

section

open Reading (Blames skipIf_blames skipWord_blames identifier_blames commaList_blames)

theorem plainText_blames : Blames stream low start plainText := by
  apply Blames.loop
  intro content
  apply Blames.current
  intro here later
  split
  · exact .advance_pure _
  · exact .pure _

theorem assignTargets_blames : Blames stream low start assignTargets := by
  apply (skipIf_blames _).bind
  intro parenthesized
  apply identifier_blames.bind
  intro first
  apply BlamesFrom.bind
  · apply Blames.loop
    intro targets
    apply (skipIf_blames _).bind
    intro hasComma
    cases hasComma with
    | true =>
        apply Blames.current
        intro here later
        split
        · apply identifier_blames.bind
          intro target
          exact .pure _
        · exact .pure _
    | false => exact .pure _
  · intro targets
    cases parenthesized with
    | true =>
        apply Blames.expect
        intro here later
        exact .pure _
    | false => exact .pure _

theorem contextModifier?_blames : Blames stream low start contextModifier? := by
  apply Blames.current
  intro here later
  apply Blames.peek
  intro second
  dsimp only
  split
  · exact .pure _
  · split
    · exact .pure _
    · exact .pure _

theorem contextModifier_blames (default : Bool) :
    Blames stream low start (contextModifier default) := by
  apply contextModifier?_blames.bind
  intro found
  cases found with
  | some withContext =>
      apply Blames.advance
      intro here later
      apply Blames.advance
      intro here later
      exact .pure _
  | none => exact .pure _

theorem importName_blames : Blames stream low start importName := by
  apply Blames.current
  intro here later
  apply identifier_blames.bind
  intro name
  split
  · exact .throw_bind rfl
  · apply (skipWord_blames _).bind
    intro isRenamed
    cases isRenamed with
    | true =>
        apply identifier_blames.map.bind
        intro target
        exact .pure _
    | false => exact .pure _

theorem importedNames_blames : Blames stream low start importedNames := by
  apply BlamesFrom.bind
  · apply Blames.loop
    intro names
    apply contextModifier?_blames.bind
    intro found
    split
    · exact .pure _
    · apply importName_blames.bind
      intro name
      apply (skipIf_blames _).bind
      intro hasComma
      cases hasComma with
      | true => exact .pure _
      | false => exact .pure _
  · intro names
    split
    · apply Blames.current
      intro here later
      exact .refuse _
    · exact .pure _

theorem blockModifiers_blames : Blames stream low start blockModifiers := by
  apply Blames.loop
  rintro ⟨isScoped, isRequired⟩
  apply (skipWord_blames _).bind
  intro isNext
  cases isNext with
  | true => exact .pure _
  | false =>
      apply (skipWord_blames _).bind
      intro isNext
      cases isNext with
      | true => exact .pure _
      | false => exact .pure _

theorem skipComment_blames : Blames stream low start skipComment := by
  apply Blames.current
  intro here later
  split
  · exact .advance_pure _
  · apply Blames.advance
    intro here later
    apply (skipIf_blames _).bind
    intro hasText
    apply (skipIf_blames _).bind
    intro hasEnd
    exact .pure _
  · exact .pure _

theorem atTag_blames (words : List String) : Blames stream low start (atTag words) := by
  apply Blames.current
  intro here later
  split
  · apply Blames.peek
    intro tag
    exact .pure _
  · exact .pure _

variable {deeper : Expr.Deeper} (below : deeper.Blames stream)

include below

theorem parameter_blames (params : List Parameter) (low start : Nat) :
    Blames stream low start (parameter deeper params) := by
  apply Blames.current
  intro here later
  apply identifier_blames.bind
  intro name
  split
  · exact .throw_bind rfl
  · apply (skipIf_blames _).bind
    intro hasDefault
    cases hasDefault with
    | true =>
        apply (below.conditional low here).map.bind
        intro value
        exact .pure _
    | false => exact .pure _

theorem signature_blames : Blames stream low start (signature deeper) := by
  apply Blames.expect
  intro here later
  exact commaList_blames (parameter_blames below)

theorem assignments_blames : Blames stream low start (assignments deeper) := by
  have assigned (before : List (Named Expr)) (here : Nat) : Blames stream low here (do
      let name ← Reading.identifier
      let _ ← Reading.expect .assign "'='"
      let value ← deeper.conditional
      return ForInStep.yield (before ++ [⟨name, value⟩])) := by
    apply identifier_blames.bind
    intro name
    apply Blames.expect
    intro here later
    apply (below.conditional low here).bind
    intro value
    exact .pure _
  apply Blames.loop
  intro before
  apply Blames.current
  intro here later
  split
  · exact .pure _
  · dsimp only
    split
    · apply Blames.expect
      intro here later
      exact assigned before here
    · exact assigned before here

theorem filterCalls_blames : Blames stream low start (filterCalls deeper) := by
  apply (Expr.filterCall_blames below).bind
  intro first
  apply Blames.loop
  intro filters
  apply (skipIf_blames _).bind
  intro hasMore
  cases hasMore with
  | true =>
      apply (Expr.filterCall_blames below).bind
      intro filter
      exact .pure _
  | false => exact .pure _

end

/-! ### Statements without a body -/

section

open Parsing (Blames)

variable [Limits]

theorem expression_blames : Blames stream low start Parsing.expression :=
  .leveled fun levels => Expr.parse_blames levels

theorem unconditional_blames : Blames stream low start Parsing.unconditional :=
  .leveled fun levels => Expr.parseUnconditional_blames levels

theorem withDeeper_blames {α : Type} {rule : Expr.Deeper → Reading α}
    (blames : ∀ {deeper : Expr.Deeper}, deeper.Blames stream →
      Reading.Blames stream low start (rule deeper)) :
    Blames stream low start (Parsing.withDeeper rule) := by
  have leveled := Blames.leveled fun levels => blames (Expr.deeper_blames stream levels)
  exact leveled

omit [Limits] in
theorem blockEnd_blames {stmt : Stmt} :
    Blames stream low start (do
      let _ ← Reading.expectBlockEnd
      return stmt : Parsing Stmt) := by
  apply Blames.expect
  intro here later
  exact .pure _

omit [Limits] in
theorem textRule_blames : Blames stream low start textRule := by
  apply Blames.current
  intro here later
  split
  · apply (Blames.lift plainText_blames).bind
    intro content
    apply Blames.origin
    intro origin
    exact .pure _
  · exact .refuse _

theorem outputRule_blames : Blames stream low start outputRule := by
  apply Blames.expect
  intro here later
  apply expression_blames.bind
  intro expr
  apply Blames.expect
  intro here later
  apply Blames.origin
  intro origin
  exact .pure _

omit [Limits] in
/-- A raw block that nothing closes is told by the token that opens it. -/
theorem rawRule_blames : Blames stream low start rawRule := by
  apply Blames.expect
  intro here later
  apply BlamesFrom.lower
  apply (Blames.lift plainText_blames).bind
  intro content
  apply (Blames.lift (Reading.skipIf_blames _)).bind
  intro isEnd
  cases isEnd with
  | true =>
      apply Blames.origin
      intro origin
      exact .pure _
  | false => exact .throw_opening rfl

variable {opening : Token}

omit [Limits] in
theorem simpleRule_blames : Blames stream low start (simpleRule opening) := by
  apply Blames.advance
  intro here later
  apply Blames.origin
  intro origin
  dsimp only
  split
  · exact blockEnd_blames
  · exact blockEnd_blames
  · exact blockEnd_blames
  · apply (Blames.refuse _).bind
    intro stmt
    exact blockEnd_blames

theorem evaluateRule_blames : Blames stream low start (evaluateRule opening) := by
  apply Blames.expect
  intro here later
  apply expression_blames.bind
  intro expr
  apply Blames.expect
  intro here later
  apply Blames.origin
  intro origin
  exact .pure _

theorem parentRule_blames : Blames stream low start (parentRule opening) := by
  apply Blames.expect
  intro here later
  apply expression_blames.bind
  intro template
  apply Blames.expect
  intro here later
  apply Blames.origin
  intro origin
  exact .pure _

omit [Limits] in
theorem inclusionRest_blames (template : Expr) (ignoreMissing : Bool) :
    Blames stream low start (inclusionRest opening template ignoreMissing) := by
  apply (Blames.lift (contextModifier_blames _)).bind
  intro withContext
  apply Blames.expect
  intro here later
  apply Blames.origin
  intro origin
  exact .pure _

theorem inclusionRule_blames : Blames stream low start (inclusionRule opening) := by
  apply Blames.expect
  intro here later
  apply expression_blames.bind
  intro template
  apply (Blames.lift (Reading.skipWord_blames _)).bind
  intro ignoreMissing
  cases ignoreMissing with
  | true =>
      apply (Blames.lift (Reading.expectWord_blames _)).bind
      intro _
      exact inclusionRest_blames template true
  | false => exact inclusionRest_blames template false

theorem importRule_blames : Blames stream low start (importRule opening) := by
  apply Blames.expect
  intro here later
  apply expression_blames.bind
  intro template
  apply (Blames.lift (Reading.expectWord_blames _)).bind
  intro _
  apply (Blames.lift Reading.identifier_blames).bind
  intro target
  apply (Blames.lift (contextModifier_blames _)).bind
  intro withContext
  apply Blames.expect
  intro here later
  apply Blames.origin
  intro origin
  exact .pure _

theorem importNamesRule_blames : Blames stream low start (importNamesRule opening) := by
  apply Blames.expect
  intro here later
  apply expression_blames.bind
  intro template
  apply Blames.expect
  intro here later
  apply (Blames.lift importedNames_blames).bind
  intro names
  apply (Blames.lift (contextModifier_blames _)).bind
  intro withContext
  apply Blames.expect
  intro here later
  apply Blames.origin
  intro origin
  exact .pure _

end

/-! ### Statements with a body -/

section

open Parsing (Blames)

variable {statement : Parsing (Option Stmt)}
  (statements : ∀ low start, Blames stream low start statement)

include statements

/-- A body that nothing closes is told by the token that opens its block. -/
theorem bodyUntil_blames (tag : String) (enders : List String) :
    Blames stream low start (bodyUntil statement tag (stream.get low) enders) := by
  apply BlamesFrom.bind
  · apply Blames.loop
    rintro ⟨body, _⟩
    apply (Blames.lift (atTag_blames _)).bind
    intro found
    cases found with
    | some ender =>
        apply Blames.advance
        intro here later
        apply Blames.advance
        intro here later
        exact .pure _
    | none =>
        apply Blames.current
        intro here later
        split
        · exact .throw_opening rfl
        · apply (statements low here).bind
          intro stmt
          cases stmt with
          | some stmt => exact .pure _
          | none => exact .pure _
  · rintro ⟨body, ender?⟩
    cases ender? with
    | some ender => exact .pure _
    | none => exact .throw_opening rfl

theorem closedBody_blames (tag ender : String) :
    Blames stream low start (closedBody statement tag (stream.get low) ender) := by
  apply (bodyUntil_blames statements _ _).bind
  rintro ⟨body, _⟩
  apply Blames.expect
  intro here later
  exact .pure _

theorem forRest_blames (targets : List String) (iter : Expr) (filter : Option Expr) :
    Blames stream low start (forRest statement (stream.get low) targets iter filter) := by
  apply (Blames.lift (Reading.skipWord_blames _)).bind
  intro isRecursive
  apply Blames.expect
  intro here later
  apply (bodyUntil_blames statements _ _).bind
  rintro ⟨body, ender⟩
  apply Blames.expect
  intro here later
  dsimp only
  split
  · apply (closedBody_blames statements _ _).bind
    intro elseBody
    apply Blames.origin
    intro origin
    exact .pure _
  · exact .bind (.pure []) fun _ => Blames.origin fun _ => .pure _

variable [Limits]

theorem forRule_blames : Blames stream low start (forRule statement (stream.get low)) := by
  apply Blames.expect
  intro here later
  apply (Blames.lift assignTargets_blames).bind
  intro targets
  apply Blames.expect
  intro here later
  apply unconditional_blames.bind
  intro iter
  apply (Blames.lift (Reading.skipIf_blames _)).bind
  intro hasFilter
  cases hasFilter with
  | true =>
      apply expression_blames.map.bind
      intro filter
      exact forRest_blames statements targets iter filter
  | false => exact forRest_blames statements targets iter none

theorem elifBranches_blames (ender : String) :
    Blames stream low start (elifBranches statement (stream.get low) ender) := by
  apply Blames.loop
  rintro ⟨elifs, ender⟩
  dsimp only
  split
  · apply expression_blames.bind
    intro condition
    apply Blames.expect
    intro here later
    apply (bodyUntil_blames statements _ _).bind
    rintro ⟨body, ender⟩
    exact .pure _
  · exact .pure _

theorem choiceRule_blames : Blames stream low start (choiceRule statement (stream.get low)) := by
  apply Blames.expect
  intro here later
  apply expression_blames.bind
  intro condition
  apply Blames.expect
  intro here later
  apply (bodyUntil_blames statements _ _).bind
  rintro ⟨body, ender⟩
  apply (elifBranches_blames statements ender).bind
  rintro ⟨elifs, ender⟩
  apply Blames.expect
  intro here later
  dsimp only
  split
  · apply (closedBody_blames statements _ _).bind
    intro elseBody
    apply Blames.origin
    intro origin
    exact .pure _
  · exact .bind (.pure []) fun _ => Blames.origin fun _ => .pure _

theorem assignRule_blames : Blames stream low start (assignRule statement (stream.get low)) := by
  apply Blames.expect
  intro here later
  apply (Blames.lift assignTargets_blames).bind
  intro targets
  apply (Blames.lift (Reading.skipIf_blames _)).bind
  intro isInline
  cases isInline with
  | true =>
      apply expression_blames.bind
      intro value
      apply Blames.expect
      intro here later
      apply Blames.origin
      intro origin
      exact .pure _
  | false =>
      simp only [Bool.false_eq_true, if_false]
      split
      · apply Blames.current
        intro here later
        exact .throw_here rfl
      · apply Blames.expect
        intro here later
        apply (closedBody_blames statements _ _).bind
        intro body
        apply Blames.origin
        intro origin
        exact .pure _

theorem scopeRule_blames : Blames stream low start (scopeRule statement (stream.get low)) := by
  apply Blames.expect
  intro here later
  apply (withDeeper_blames assignments_blames).bind
  intro assignments
  apply Blames.expect
  intro here later
  apply (closedBody_blames statements _ _).bind
  intro body
  apply Blames.origin
  intro origin
  exact .pure _

theorem filteredRule_blames :
    Blames stream low start (filteredRule statement (stream.get low)) := by
  apply (Blames.lift (Reading.expectWord_blames _)).bind
  intro _
  apply (withDeeper_blames filterCalls_blames).bind
  intro filters
  apply Blames.expect
  intro here later
  apply (closedBody_blames statements _ _).bind
  intro body
  apply Blames.origin
  intro origin
  exact .pure _

theorem autoescapeRule_blames :
    Blames stream low start (autoescapeRule statement (stream.get low)) := by
  apply (Blames.lift (Reading.expectWord_blames _)).bind
  intro _
  apply expression_blames.bind
  intro enabled
  apply Blames.expect
  intro here later
  apply (closedBody_blames statements _ _).bind
  intro body
  apply Blames.origin
  intro origin
  exact .pure _

omit [Limits] in
theorem blockRule_blames : Blames stream low start (blockRule statement (stream.get low)) := by
  apply Blames.expect
  intro here later
  apply (Blames.lift Reading.identifier_blames).bind
  intro name
  apply (Blames.lift blockModifiers_blames).bind
  rintro ⟨isScoped, isRequired⟩
  apply Blames.expect
  intro here later
  apply (bodyUntil_blames statements _ _).bind
  rintro ⟨body, ender⟩
  have ends (here : Nat) : Blames stream low here
      (blockRest (stream.get low) name isScoped isRequired body) := by
    apply Blames.expect
    intro here later
    apply Blames.origin
    intro origin
    exact .pure _
  apply Blames.current
  intro here later
  dsimp only
  split
  · split
    · apply Blames.advance
      intro here later
      exact ends here
    · exact .throw_bind rfl
  · exact ends here

theorem macroRule_blames : Blames stream low start (macroRule statement (stream.get low)) := by
  apply Blames.expect
  intro here later
  apply (Blames.lift Reading.identifier_blames).bind
  intro name
  apply (withDeeper_blames signature_blames).bind
  intro params
  apply Blames.expect
  intro here later
  apply (bodyUntil_blames statements _ _).bind
  rintro ⟨body, ender⟩
  apply (Blames.lift (Reading.skipWord_blames _)).bind
  intro isNamed
  apply Blames.expect
  intro here later
  apply Blames.origin
  intro origin
  exact .pure _

omit [Limits] in
theorem callEnding_blames (params : List Parameter) (call : Expr) :
    Blames stream low start (callEnding statement (stream.get low) params call) := by
  apply Blames.expect
  intro here later
  have looks : Reading.Blames stream low here hasEndcall := fun _ place _ => Nat.le_refl place
  apply (Blames.lift looks).bind
  intro hasBody
  cases hasBody with
  | true =>
      apply (closedBody_blames statements _ _).bind
      intro body
      apply Blames.origin
      intro origin
      exact .pure _
  | false =>
      simp only [Bool.false_eq_true, if_false]
      split
      · apply Blames.origin
        intro origin
        exact .pure _
      · exact .throw_opening rfl

theorem callRest_blames (params : List Parameter) :
    Blames stream low start (callRest statement (stream.get low) params) := by
  apply Blames.current
  intro here later
  apply expression_blames.bind
  intro call
  dsimp only
  split
  · exact .throw_bind rfl
  · exact callEnding_blames statements params call

theorem callRule_blames : Blames stream low start (callRule statement (stream.get low)) := by
  apply Blames.expect
  intro here later
  apply Blames.current
  intro here later
  dsimp only
  split
  · exact (withDeeper_blames signature_blames).bind (callRest_blames statements)
  · exact callRest_blames statements []

/-- The rule for the word of a tag, used with the token that opens the tag. -/
theorem tagRules_blames {word : String} {rule : Token → Parsing Stmt}
    (isRule : (tagRules statement).lookup word = some rule) :
    Blames stream low start (rule (stream.get low)) := by
  have all : ∀ entry ∈ tagRules statement,
      Blames stream low start (entry.2 (stream.get low)) := by
    simp only [tagRules, List.forall_mem_cons, List.not_mem_nil, false_implies, implies_true,
      and_true]
    exact ⟨.nested (forRule_blames statements), .nested (choiceRule_blames statements),
      .nested (assignRule_blames statements), .nested (blockRule_blames statements),
      .nested parentRule_blames, .nested inclusionRule_blames, .nested importRule_blames,
      .nested importNamesRule_blames, .nested (macroRule_blames statements),
      .nested (callRule_blames statements), .nested (scopeRule_blames statements),
      .nested (filteredRule_blames statements), .nested (autoescapeRule_blames statements),
      .nested evaluateRule_blames, simpleRule_blames, simpleRule_blames, simpleRule_blames⟩
  rcases List.lookup_eq_some_iff.1 isRule with ⟨before, after, split, _⟩
  exact all (word, rule) (by simp [split])

theorem blockTagRule_blames : Blames stream low start (blockTagRule statement {}) := by
  apply Blames.advance
  intro opening later
  apply BlamesFrom.lower
  apply Blames.current
  intro here later
  split
  · exact .refuse _
  · split
    · next isRule => exact (tagRules_blames statements isRule).map
    · split
      · exact .throw_here rfl
      · apply Blames.current
        intro here later
        exact .throw_here rfl

theorem statementRule_blames : Blames stream low start (statementRule statement {}) := by
  apply Blames.current
  intro here later
  split
  · exact textRule_blames.map
  · exact outputRule_blames.nested.map
  · exact blockTagRule_blames statements
  · exact rawRule_blames.map
  · exact (Blames.lift skipComment_blames).bind fun _ => .pure _
  · exact (Blames.lift skipComment_blames).bind fun _ => .pure _
  · exact .refuse _

end

variable [Limits]

/-- A statement fails with an error about one of its own tokens. -/
theorem parse_blames (stream : TokenStream) (place : Place) :
    Meets (fun _ after => place.cursor ≤ after.cursor)
      (fun error after => error.IsAbout stream place.cursor after.cursor)
      (parse {} stream place) := by
  generalize left : stream.size - place.cursor = count
  induction count using Nat.strongRecOn generalizing place with
  | ind count ih =>
      have inner (low start : Nat) :
          Parsing.Blames stream low start (beyond {} stream place) := by
        intro inOrder inner later
        unfold beyond
        split
        · next further =>
          have met := ih (stream.size - inner.cursor) (by omega) inner rfl
          apply met.mono
          · intro stmt after notBack
            exact notBack
          · intro error after isAbout
            exact SyntaxError.IsAbout.before isAbout (Nat.le_trans inOrder later)
        · exact ⟨inner.cursor, Nat.le_trans inOrder later, Nat.le_refl _, rfl⟩
      rw [parse_eq]
      exact statementRule_blames inner (Nat.le_refl _) place (Nat.le_refl _)

end Stencil.Stmt

import Stencil.Proofs.Expr.Stepwise
import Stencil.Proofs.Stmt.Steps

/-!
# Rules for parts of tags are composed of looks and steps

The rules for what stands inside block tags and holds no statements are composed of looks and steps,
as the rules for expressions are. They do the same wherever a tag stands.
-/

namespace Stencil.Stmt

open Reading

theorem assignTargets_stepwise : Stepwise assignTargets := by
  refine .bind (.skipIf _) fun parenthesized => .bind .identifier fun first => ?_
  refine .bind (.loop (fun targets => .bind (.skipIf _) fun isComma => ?_) [first])
    fun targets => ?_
  · cases isComma with
    | true =>
        refine .current fun token => ?_
        split
        · exact .bind .identifier fun _ => .pure _
        · exact .pure _
    | false => exact .pure _
  · cases parenthesized with
    | true => exact .bind (.expect _ _) fun _ => .pure _
    | false => exact .pure _

theorem contextModifier?_stepwise : Stepwise contextModifier? := by
  refine .lookTwice (fun token ahead => ?_) fun token isClosing ahead ahead' => ?_
  · dsimp only
    split
    · exact .pure _
    · split
      · exact .pure _
      · exact .pure _
  · have notWord (word : String) : token.isWord word = false := by
      by_contra isWord
      rw [Token.isInner_of_isWord (by simpa using isWord)] at isClosing
      cases isClosing
    simp only [notWord, Bool.false_eq_true, false_and, if_false]

theorem contextModifier_stepwise (default : Bool) : Stepwise (contextModifier default) := by
  refine .bind contextModifier?_stepwise fun modifier => ?_
  cases modifier with
  | some withContext => exact .step fun _ => .step fun _ => .pure _
  | none => exact .pure _

section

variable {deeper : Expr.Deeper} (below : deeper.Stepwise)

include below

theorem parameter_stepwise (params : List Parameter) : Stepwise (parameter deeper params) := by
  have afterName (name : String) : Stepwise (do
      let default? ← if ← skipIf .assign then some <$> deeper.conditional else pure none
      return params ++ [⟨name, default?⟩]) := by
    refine .bind (.skipIf _) fun hasDefault => ?_
    cases hasDefault with
    | true => exact .bind (.map _ below.conditional) fun _ => .pure _
    | false => exact .bind (.pure _) fun _ => .pure _
  refine .current fun token => .bind .identifier fun name => ?_
  dsimp only
  split
  · exact .bind (.throw _) fun _ => afterName name
  · exact afterName name

theorem signature_stepwise : Stepwise (signature deeper) :=
  .bind (.expect _ _) fun _ => .commaList _ _ _ (parameter_stepwise below) _

theorem assignments_stepwise : Stepwise (assignments deeper) := by
  have assignment (before : List (Named Expr)) : Stepwise (do
      let name ← identifier
      let _ ← expect .assign "'='"
      let value ← deeper.conditional
      return ForInStep.yield (before ++ [⟨name, value⟩])) := by
    refine .bind .identifier fun _ => .bind (.expect _ _) fun _ => ?_
    exact .bind below.conditional fun _ => .pure _
  refine .loop (fun before => .current fun token => ?_) []
  dsimp only
  split
  · exact .pure _
  · split
    · exact .bind (.expect _ _) fun _ => assignment before
    · exact assignment before

theorem filterCalls_stepwise : Stepwise (filterCalls deeper) := by
  refine .bind (Expr.filterCall_stepwise below) fun first => .loop (fun filters => ?_) [first]
  refine .bind (.skipIf _) fun isPipe => ?_
  cases isPipe with
  | true => exact .bind (Expr.filterCall_stepwise below) fun _ => .pure _
  | false => exact .pure _

end

theorem blockModifiers_stepwise : Stepwise blockModifiers := by
  refine .loop (fun modifiers => .bind (.skipWord _) fun isScoped => ?_) (false, false)
  cases isScoped with
  | true => exact .pure _
  | false =>
      refine .bind (.skipWord _) fun isRequired => ?_
      cases isRequired with
      | true => exact .pure _
      | false => exact .pure _

theorem importName_stepwise : Stepwise importName := by
  have afterName (name : String) : Stepwise (do
      let target ← if ← skipWord "as" then some <$> identifier else pure none
      return (⟨name, target⟩ : ImportName)) := by
    refine .bind (.skipWord _) fun isRenamed => ?_
    cases isRenamed with
    | true => exact .bind (.map _ .identifier) fun _ => .pure _
    | false => exact .bind (.pure _) fun _ => .pure _
  refine .current fun token => .bind .identifier fun name => ?_
  dsimp only
  split
  · exact .bind (.throw _) fun _ => afterName name
  · exact afterName name

theorem importedNames_stepwise : Stepwise importedNames := by
  refine .bind (.loop (fun names => .bind contextModifier?_stepwise fun modifier => ?_) []) ?_
  · split
    · exact .pure _
    · refine .bind importName_stepwise fun name => .bind (.skipIf _) fun isComma => ?_
      cases isComma with
      | true => exact .pure _
      | false => exact .pure _
  · intro names
    split
    · exact .current fun _ => .refuse _ _
    · exact .pure _

end Stencil.Stmt

import Stencil.Proofs.Expr.Windows
import Stencil.Proofs.Stmt.TagText

/-!
# Statements in a window

The rules for tags and for statements do the same at all places of a window, as far as the end of
the window is not the end of a template that is unfinished. A call tag looks for its closing tag in
all of the template, so that windows that go on with a tag have none.
-/

namespace Stencil

namespace Stmt

open Reading Parsing

variable {window : Window}

theorem plainStep_steady (content : String) : Steady window (plainStep content) := by
  intro near far
  apply Alike.current_or
  · intro inside
    split
    · exact .advance_bind inside (.pure _)
    · exact .pure _
  · intro token boundary
    exact if_neg (Token.kind_ne_of_isBoundary boundary rfl)
  · exact .pure _

theorem plainText_steady : Steady window plainText :=
  .loop plainStep_steady ""

theorem assignTargets_steady : Steady window assignTargets := by
  refine (skipIf_steady window rfl).bind fun parenthesized => ?_
  refine (identifier_steady window).bind fun first => ?_
  refine (Steady.loop (fun targets => ?_) [first]).bind fun targets => ?_
  · refine (skipIf_steady window rfl).bind fun isComma => ?_
    cases isComma with
    | true =>
        intro near far
        apply Alike.current_or
        · intro inside
          split
          · exact (identifier_steady window).bind (fun _ => .pure _) near far
          · exact .pure _
        · intro token boundary
          exact if_neg (Token.kind_ne_of_isBoundary boundary rfl)
        · exact .pure _
    | false => exact .pure _
  · cases parenthesized with
    | true => exact (expect_steady window rfl _).bind fun _ => .pure _
    | false => exact .pure _

theorem contextModifier?_steady : Steady window contextModifier? := by
  intro near far
  apply Alike.current_or
  · intro inside
    apply Alike.peek_or inside
    · intro further
      dsimp only
      split
      · exact .pure _
      · split
        · exact .pure _
        · exact .pure _
    · intro token boundary
      simp only [Token.isWord_of_isBoundary boundary, Bool.false_eq_true, and_false, if_false]
      rfl
    · exact .pure _
  · intro token boundary
    simp only [Token.isWord_of_isBoundary boundary, Bool.false_eq_true, false_and, if_false]
    rfl
  · exact .pure _

theorem contextModifier_steady (default : Bool) : Steady window (contextModifier default) := by
  intro near far
  apply (contextModifier?_steady near far).bind
  intro modifier near' far' outcome
  rcases contextModifier?_eq window.near near with ⟨found, sameOutcome, words⟩
  rw [sameOutcome] at outcome
  cases outcome
  cases modifier with
  | none => exact .pure _
  | some withContext =>
      rcases words rfl with ⟨firstInner, secondInner⟩
      intro low places
      have inside := window.lt_limit places.inside (Token.Kind.ne_eof_of_isInner firstInner)
      have further := window.lt_limit inside (Token.Kind.ne_eof_of_isInner secondInner)
      refine Alike.advance_bind inside (.advance_bind further ?_) low places
      exact .pure withContext

section

variable {deeper : Expr.Deeper} (below : deeper.Steady window)

include below

theorem parameter_steady (params : List Parameter) : Steady window (parameter deeper params) := by
  have afterName (name : String) : Steady window (do
      let default? ← if ← skipIf .assign then some <$> deeper.conditional else pure none
      return params ++ [⟨name, default?⟩]) := by
    refine (skipIf_steady window rfl).bind fun hasDefault => ?_
    cases hasDefault with
    | true => exact below.conditional.map.bind fun _ => .pure _
    | false => exact .pure _
  intro near far
  apply Alike.current
  · intro inside
    apply (identifier_steady window near far).bind
    intro name near far outcome
    dsimp only
    split
    · exact (Alike.throw _).bind fun _ near far _ => afterName name near far
    · exact afterName name near far
  · intro atLimit
    exact Alike.bind_atSeam (identifier_steady window)
      (identifier_reads window.isClosed_near) atLimit

theorem signature_steady : Steady window (signature deeper) :=
  (expect_steady window rfl _).bind fun _ => commaList_steady window rfl
    (fun _ _ => parameter_reads window.isClosed_near below.inside _)
    fun _ => parameter_steady below _

theorem assignments_steady : Steady window (assignments deeper) := by
  refine .loop (fun assignments => ?_) []
  have assignment : Steady window (do
      let name ← identifier
      let _ ← expect .assign "'='"
      let value ← deeper.conditional
      return ForInStep.yield (assignments ++ [⟨name, value⟩])) := by
    refine (identifier_steady window).bind fun _ => ?_
    refine (expect_steady window rfl _).bind fun _ => ?_
    exact below.conditional.bind fun _ => .pure _
  have further : Steady window (do
      if !assignments.isEmpty then
        let _ ← expect .comma "',' or end of block tag"
      let name ← identifier
      let _ ← expect .assign "'='"
      let value ← deeper.conditional
      return ForInStep.yield (assignments ++ [⟨name, value⟩])) := by
    dsimp only
    split
    · exact (expect_steady window rfl _).bind fun _ => assignment
    · exact assignment
  intro near far
  apply Alike.current_or
  · intro inside
    split
    · exact .pure _
    · exact further near far
  · intro token boundary
    exact if_neg (Token.kind_ne_of_isBoundary boundary rfl)
  · exact further near far

theorem filterCalls_steady : Steady window (filterCalls deeper) := by
  refine (Expr.filterCall_steady below).bind fun first => .loop (fun filters => ?_) [first]
  refine (skipIf_steady window rfl).bind fun isPipe => ?_
  cases isPipe with
  | true => exact (Expr.filterCall_steady below).bind fun _ => .pure _
  | false => exact .pure _

end

theorem blockModifiers_steady : Steady window blockModifiers := by
  refine .loop (fun modifiers => ?_) (false, false)
  refine (skipWord_steady window _).bind fun isScoped => ?_
  cases isScoped with
  | true => exact .pure _
  | false =>
      refine (skipWord_steady window _).bind fun isRequired => ?_
      cases isRequired with
      | true => exact .pure _
      | false => exact .pure _

theorem importName_steady : Steady window importName := by
  have afterName (name : String) : Steady window (do
      let target ← if ← skipWord "as" then some <$> identifier else pure none
      return (⟨name, target⟩ : ImportName)) := by
    refine (skipWord_steady window _).bind fun isRenamed => ?_
    cases isRenamed with
    | true => exact (identifier_steady window).map.bind fun _ => .pure _
    | false => exact .pure _
  intro near far
  apply Alike.current
  · intro inside
    apply (identifier_steady window near far).bind
    intro name near far outcome
    dsimp only
    split
    · exact (Alike.throw _).bind fun _ near far _ => afterName name near far
    · exact afterName name near far
  · intro atLimit
    exact Alike.bind_atSeam (identifier_steady window)
      (identifier_reads window.isClosed_near) atLimit

theorem importedNames_steady : Steady window importedNames := by
  refine (Steady.loop (fun names => ?_) []).bind fun names => ?_
  · refine contextModifier?_steady.bind fun modifier => ?_
    split
    · exact .pure _
    · refine importName_steady.bind fun name => ?_
      refine (skipIf_steady window rfl).bind fun isComma => ?_
      cases isComma with
      | true => exact .pure _
      | false => exact .pure _
  · intro near far
    split
    · apply Alike.current_or_refuse "name to import"
      · intro inside
        exact .throw _
      · intro token boundary
        rfl
    · exact .pure _

section

variable [Limits] {depth : Nat} {near far : Place}

theorem expression_alike :
    Alike window (window.Placed depth) near far expression expression := by
  intro low placed
  change Agree window _ low ((liftM (Expr.parse near.levels) : Parsing Expr) window.near near)
    ((liftM (Expr.parse far.levels) : Parsing Expr) window.far far)
  rw [placed.levels_eq]
  exact Alike.lift (Expr.parse_steady _ _ _) low placed

theorem unconditional_alike :
    Alike window (window.Placed depth) near far unconditional unconditional := by
  intro low placed
  change Agree window _ low
    ((liftM (Expr.parseUnconditional near.levels) : Parsing Expr) window.near near)
    ((liftM (Expr.parseUnconditional far.levels) : Parsing Expr) window.far far)
  rw [placed.levels_eq]
  exact Alike.lift (Expr.parseUnconditional_steady _ _ _) low placed

theorem withDeeper_alike {α : Type} {rule : Expr.Deeper → Reading α}
    (steady : ∀ levels, Steady window (rule (Expr.deeper levels))) :
    Alike window (window.Placed depth) near far (withDeeper rule) (withDeeper rule) := by
  intro low placed
  change Agree window _ low ((liftM (rule (Expr.deeper near.levels)) : Parsing α) window.near near)
    ((liftM (rule (Expr.deeper far.levels)) : Parsing α) window.far far)
  rw [placed.levels_eq]
  exact Alike.lift (steady _ _ _) low placed

variable (opening : Token)

omit [Limits] in
theorem simpleRule_alike (inside : near.cursor < window.limit) :
    Alike window (window.Placed depth) near far (simpleRule opening) (simpleRule opening) := by
  refine (Alike.lift (.advance inside)).bind fun tag near far _ => .origin ?_
  have afterTag (stmt : Stmt) (near far : Place) : Alike window (window.Placed depth) near far
      (do let _ ← expectBlockEnd; return stmt) (do let _ ← expectBlockEnd; return stmt) :=
    (expectBlockEnd_steady window).lift_bind fun _ _ _ => .pure _
  dsimp only
  split
  · exact afterTag _ near far
  · exact afterTag _ near far
  · exact afterTag _ near far
  · exact (Alike.lift (.throw _)).bind fun stmt near far _ => afterTag stmt near far

theorem evaluateRule_alike :
    Alike window (window.Placed depth) near far (evaluateRule opening) (evaluateRule opening) := by
  refine (expect_steady window rfl _).lift_bind fun _ near far => ?_
  refine expression_alike.bind fun expr near far _ => ?_
  refine (expectBlockEnd_steady window).lift_bind fun _ near far => ?_
  exact .origin (.pure _)

theorem parentRule_alike :
    Alike window (window.Placed depth) near far (parentRule opening) (parentRule opening) := by
  refine (expect_steady window rfl _).lift_bind fun _ near far => ?_
  refine expression_alike.bind fun template near far _ => ?_
  refine (expectBlockEnd_steady window).lift_bind fun _ near far => ?_
  exact .origin (.pure _)

theorem inclusionRule_alike :
    Alike window (window.Placed depth) near far (inclusionRule opening)
      (inclusionRule opening) := by
  refine (expect_steady window rfl _).lift_bind fun _ near far => ?_
  refine expression_alike.bind fun template near far _ => ?_
  refine (skipWord_steady window _).lift_bind fun ignoreMissing near far => ?_
  have modified (near far : Place) : Alike window (window.Placed depth) near far
      (inclusionRest opening template ignoreMissing)
      (inclusionRest opening template ignoreMissing) := by
    refine (contextModifier_steady _).lift_bind fun withContext near far => ?_
    refine (expectBlockEnd_steady window).lift_bind fun _ near far => ?_
    exact .origin (.pure _)
  cases ignoreMissing with
  | true =>
      exact (expectWord_steady window _).lift_bind fun _ near far =>
        modified near far
  | false => exact modified near far

theorem importRule_alike :
    Alike window (window.Placed depth) near far (importRule opening) (importRule opening) := by
  refine (expect_steady window rfl _).lift_bind fun _ near far => ?_
  refine expression_alike.bind fun template near far _ => ?_
  refine (expectWord_steady window _).lift_bind fun _ near far => ?_
  refine (identifier_steady window).lift_bind fun target near far => ?_
  refine (contextModifier_steady _).lift_bind fun withContext near far => ?_
  refine (expectBlockEnd_steady window).lift_bind fun _ near far => ?_
  exact .origin (.pure _)

theorem importNamesRule_alike :
    Alike window (window.Placed depth) near far (importNamesRule opening)
      (importNamesRule opening) := by
  refine (expect_steady window rfl _).lift_bind fun _ near far => ?_
  refine expression_alike.bind fun template near far _ => ?_
  refine (expect_steady window rfl _).lift_bind fun _ near far => ?_
  refine importedNames_steady.lift_bind fun names near far => ?_
  refine (contextModifier_steady _).lift_bind fun withContext near far => ?_
  refine (expectBlockEnd_steady window).lift_bind fun _ near far => ?_
  exact .origin (.pure _)

end

/-! ### Bodies -/

section

variable {depth : Nat} {near far : Place}

theorem atTag_eq_none {stream : TokenStream} {cursor : Nat}
    (notTag : (stream.get cursor).kind ≠ .blockBegin) (words : List String) :
    atTag words stream cursor = .ok none cursor := by
  rw [atTag, current_bind, if_neg notTag]
  rfl

/-- Both sides find the same closing tag. -/
theorem atTag_agree (enders : List String) {low : Nat} (placed : window.Placed depth low near far)
    (inside : near.cursor < window.limit) :
    ∃ found, atTag enders window.near near.cursor = .ok found near.cursor ∧
      atTag enders window.far far.cursor = .ok found far.cursor ∧
      (found.isSome = true → near.cursor + 1 < window.limit) := by
  have sameToken := placed.beside.get_eq inside
  by_cases isTag : (window.near.get near.cursor).kind = .blockBegin
  · have sameWord : (window.far.get (far.cursor + 1)).word? =
        (window.near.get (near.cursor + 1)).word? := by
      have sameIndex : far.cursor + 1 = near.cursor + 1 + window.shift := by
        rw [placed.beside.shifted]
        omega
      rw [sameIndex]
      rcases Nat.lt_or_eq_of_le inside with further | last
      · rw [window.same _ further]
      · rw [show near.cursor + 1 = window.limit from last,
          Token.word?_of_isBoundary window.isBoundary_far,
          Token.word?_of_isBoundary window.isBoundary_near]
    refine ⟨(window.near.get (near.cursor + 1)).word?.filter enders.contains, ?_, ?_,
      fun isFound => ?_⟩
    · rw [atTag, current_bind, if_pos isTag]
      rfl
    · rw [atTag, current_bind, sameToken, if_pos isTag, ← sameWord]
      rfl
    · rcases Option.isSome_iff_exists.1 isFound with ⟨word, isWord⟩
      have inner := Token.isInner_of_word? (Option.filter_eq_some_iff.1 isWord).1
      exact window.lt_limit inside (Token.Kind.ne_eof_of_isInner inner)
  · exact ⟨none, atTag_eq_none isTag _, atTag_eq_none (sameToken ▸ isTag) _, by simp⟩

variable {statement statement' : Parsing (Option Stmt)}
  (alike : ∀ depth near far,
    Alike window (window.Placed depth) near far statement statement')
  (opening : Token)

include alike

theorem bodyUntil_alike (tag : String) (enders : List String) :
    Alike window (window.Placed depth) near far (bodyUntil statement tag opening enders)
      (bodyUntil statement' tag opening enders) := by
  refine (Alike.loop (fun progress near far low placed => ?_) _).bind fun result near far _ => ?_
  · rcases Nat.lt_or_eq_of_le placed.beside.inside with inside | last
    · rcases atTag_agree enders placed inside with ⟨found, nearFound, farFound, further⟩
      dsimp only
      rw [bind_eq_of_ok (lift_eq_of_ok nearFound), bind_eq_of_ok (lift_eq_of_ok farFound)]
      cases found with
      | some ender =>
          refine (Alike.lift (.advance inside)).bind (fun _ near far outcome => ?_) low placed
          rw [lift_advance_eq, window.next_near inside] at outcome
          cases outcome
          exact (Alike.lift (.advance (further rfl))).bind fun _ _ _ _ => .pure _
      | none =>
          apply Alike.look
          · intro _
            split
            · exact .throw _
            · refine (alike _ _ _).bind fun stmt near far _ => ?_
              cases stmt with
              | some stmt => exact .pure _
              | none => exact .pure _
          · intro atLimit
            exact absurd atLimit (Nat.ne_of_lt inside)
          · exact placed
    · have atEnd : (window.near.get near.cursor).kind = .eof := by
        rw [last]
        exact window.atLimit
      dsimp only
      rw [bind_eq_of_ok (lift_eq_of_ok (atTag_eq_none (by simp [atEnd]) enders))]
      dsimp only
      rw [bind_eq_of_ok (lift_current_eq _ _), if_pos atEnd]
      rcases window.same_or_opens with sameToken | opens
      · have atEnd' : (window.far.get far.cursor).kind = .eof := by
          rw [placed.beside.shifted, last, sameToken]
          exact window.atLimit
        rw [bind_eq_of_ok (lift_eq_of_ok (atTag_eq_none (by simp [atEnd']) enders))]
        dsimp only
        rw [bind_eq_of_ok (lift_current_eq _ _), if_pos atEnd']
        exact .error placed
      · exact .unfinished opens rfl
  · rcases result with ⟨body, ender | ender⟩
    · exact .throw _
    · exact .pure _

theorem closedBody_alike (tag ender : String) :
    Alike window (window.Placed depth) near far (closedBody statement tag opening ender)
      (closedBody statement' tag opening ender) := by
  refine (bodyUntil_alike alike opening tag [ender]).bind fun body near far _ => ?_
  exact (expectBlockEnd_steady window).lift_bind fun _ _ _ => .pure _

section

variable [Limits]

theorem forRule_alike :
    Alike window (window.Placed depth) near far (forRule statement opening)
      (forRule statement' opening) := by
  refine (expect_steady window rfl _).lift_bind fun _ near far => ?_
  refine assignTargets_steady.lift_bind fun targets near far => ?_
  refine (expect_steady window rfl _).lift_bind fun _ near far => ?_
  refine unconditional_alike.bind fun iter near far _ => ?_
  refine (skipIf_steady window rfl).lift_bind fun isFiltered near far => ?_
  have afterFilter (filter : Option Expr) (near far : Place) :
      Alike window (window.Placed depth) near far (forRest statement opening targets iter filter)
        (forRest statement' opening targets iter filter) := by
    refine (skipWord_steady window _).lift_bind fun isRecursive near far => ?_
    refine (expectBlockEnd_steady window).lift_bind fun _ near far => ?_
    refine (bodyUntil_alike alike opening _ _).bind fun body near far _ => ?_
    refine (expectBlockEnd_steady window).lift_bind fun _ near far => ?_
    dsimp only
    split
    · exact (closedBody_alike alike opening _ _).bind fun _ _ _ _ => .origin (.pure _)
    · exact (Alike.pure _).bind fun _ _ _ _ => .origin (.pure _)
  cases isFiltered with
  | true => exact expression_alike.map.bind fun filter near far _ => afterFilter filter near far
  | false => exact afterFilter none near far

theorem elifBranches_alike (ender : String) :
    Alike window (window.Placed depth) near far (elifBranches statement opening ender)
      (elifBranches statement' opening ender) := by
  refine Alike.loop (fun progress near far => ?_) _
  dsimp only
  split
  · refine expression_alike.bind fun condition near far _ => ?_
    refine (expectBlockEnd_steady window).lift_bind fun _ near far => ?_
    exact (bodyUntil_alike alike opening _ _).bind fun _ _ _ _ => .pure _
  · exact .pure _

theorem choiceRule_alike :
    Alike window (window.Placed depth) near far (choiceRule statement opening)
      (choiceRule statement' opening) := by
  refine (expect_steady window rfl _).lift_bind fun _ near far => ?_
  refine expression_alike.bind fun condition near far _ => ?_
  refine (expectBlockEnd_steady window).lift_bind fun _ near far => ?_
  refine (bodyUntil_alike alike opening _ _).bind fun body near far _ => ?_
  refine (elifBranches_alike alike opening _).bind fun elifs near far _ => ?_
  refine (expectBlockEnd_steady window).lift_bind fun _ near far => ?_
  dsimp only
  split
  · exact (closedBody_alike alike opening _ _).bind fun _ _ _ _ => .origin (.pure _)
  · exact (Alike.pure _).bind fun _ _ _ _ => .origin (.pure _)

omit [Limits] in
omit alike in
/-- The one error that tells the place of the token after those that were read. -/
theorem captureTargets_alike {α : Type} :
    Alike window (window.Placed depth) near far
      (do throw (.violation .captureTargets (← current).span) : Parsing α)
      (do throw (.violation .captureTargets (← current).span)) := by
  apply Alike.look
  · intro inside
    exact .throw _
  · intro atLimit low placed
    refine .moved placed ⟨⟨?_, placed.beside.inside, placed.beside.shifted⟩, placed.near_depth,
      placed.far_depth⟩
    rw [atLimit]

theorem assignRule_alike :
    Alike window (window.Placed depth) near far (assignRule statement opening)
      (assignRule statement' opening) := by
  refine (expect_steady window rfl _).lift_bind fun _ near far => ?_
  refine assignTargets_steady.lift_bind fun targets near far => ?_
  refine (skipIf_steady window rfl).lift_bind fun isValue near far => ?_
  cases isValue with
  | true =>
      refine expression_alike.bind fun value near far _ => ?_
      refine (expectBlockEnd_steady window).lift_bind fun _ near far => ?_
      exact .origin (.pure _)
  | false =>
      simp only [Bool.false_eq_true, if_false]
      split
      · exact captureTargets_alike
      · refine (expectBlockEnd_steady window).lift_bind fun _ near far => ?_
        exact (closedBody_alike alike opening _ _).bind fun _ _ _ _ => .origin (.pure _)

theorem scopeRule_alike :
    Alike window (window.Placed depth) near far (scopeRule statement opening)
      (scopeRule statement' opening) := by
  refine (expect_steady window rfl _).lift_bind fun _ near far => ?_
  refine (withDeeper_alike fun levels =>
    assignments_steady (Expr.deeper_steady levels)).bind fun assignments near far _ => ?_
  refine (expectBlockEnd_steady window).lift_bind fun _ near far => ?_
  exact (closedBody_alike alike opening _ _).bind fun _ _ _ _ => .origin (.pure _)

theorem filteredRule_alike :
    Alike window (window.Placed depth) near far (filteredRule statement opening)
      (filteredRule statement' opening) := by
  refine (expectWord_steady window _).lift_bind fun _ near far => ?_
  refine (withDeeper_alike fun levels =>
    filterCalls_steady (Expr.deeper_steady levels)).bind fun filters near far _ => ?_
  refine (expectBlockEnd_steady window).lift_bind fun _ near far => ?_
  exact (closedBody_alike alike opening _ _).bind fun _ _ _ _ => .origin (.pure _)

theorem autoescapeRule_alike :
    Alike window (window.Placed depth) near far (autoescapeRule statement opening)
      (autoescapeRule statement' opening) := by
  refine (expectWord_steady window _).lift_bind fun _ near far => ?_
  refine expression_alike.bind fun enabled near far _ => ?_
  refine (expectBlockEnd_steady window).lift_bind fun _ near far => ?_
  exact (closedBody_alike alike opening _ _).bind fun _ _ _ _ => .origin (.pure _)

end

theorem blockRule_alike :
    Alike window (window.Placed depth) near far (blockRule statement opening)
      (blockRule statement' opening) := by
  refine (expect_steady window rfl _).lift_bind fun _ near far => ?_
  refine (identifier_steady window).lift_bind fun name near far => ?_
  refine blockModifiers_steady.lift_bind fun modifiers near far => ?_
  refine (expectBlockEnd_steady window).lift_bind fun _ near far => ?_
  refine (bodyUntil_alike alike opening _ _).bind fun body near far _ => ?_
  have ending (near far : Place) : Alike window (window.Placed depth) near far
      (blockRest opening name modifiers.1 modifiers.2 body.1)
      (blockRest opening name modifiers.1 modifiers.2 body.1) :=
    (expectBlockEnd_steady window).lift_bind fun _ _ _ => .origin (.pure _)
  apply Alike.look
  · intro inside
    dsimp only
    split
    · split
      · exact (Alike.lift (.advance inside)).bind fun _ near far _ => ending near far
      · exact (Alike.throw _).bind fun _ near far _ => ending near far
    · exact ending near far
  · intro atLimit
    dsimp only
    rw [if_neg (Token.kind_ne_of_isBoundary window.isBoundary_near rfl),
      if_neg (Token.kind_ne_of_isBoundary window.isBoundary_far rfl)]
    exact ending near far

theorem macroRule_alike [Limits] :
    Alike window (window.Placed depth) near far (macroRule statement opening)
      (macroRule statement' opening) := by
  refine (expect_steady window rfl _).lift_bind fun _ near far => ?_
  refine (identifier_steady window).lift_bind fun name near far => ?_
  refine (withDeeper_alike fun levels =>
    signature_steady (Expr.deeper_steady levels)).bind fun params near far _ => ?_
  refine (expectBlockEnd_steady window).lift_bind fun _ near far => ?_
  refine (bodyUntil_alike alike opening _ _).bind fun body near far _ => ?_
  refine (skipWord_steady window _).lift_bind fun _ near far => ?_
  refine (expectBlockEnd_steady window).lift_bind fun _ near far => ?_
  exact .origin (.pure _)

omit alike in
/-- A look for the end of a call tag sees the whole rest of the template, so that both sides must
end at once. -/
theorem hasEndcall_alike (closes : window.Closes) :
    Alike window window.Beside near.cursor far.cursor hasEndcall hasEndcall := by
  intro low places
  have sameRest := closes near.cursor
  rw [← places.shifted] at sameRest
  change Agree window _ low
    (.ok (endcallFollows 0 (window.near.significant.toList.drop near.cursor)) near.cursor)
    (.ok (endcallFollows 0 (window.far.significant.toList.drop far.cursor)) far.cursor)
  rw [sameRest]
  exact .ok places

theorem callRule_alike [Limits] (closes : window.Closes) :
    Alike window (window.Placed depth) near far (callRule statement opening)
      (callRule statement' opening) := by
  have afterParams (params : List Parameter) (near far : Place) :
      Alike window (window.Placed depth) near far (callRest statement opening params)
        (callRest statement' opening params) := by
    refine .look_of_closes closes (expression_alike.bind fun call near far _ => ?_)
    have afterCall (near far : Place) :
        Alike window (window.Placed depth) near far (callEnding statement opening params call)
          (callEnding statement' opening params call) := by
      refine (expectBlockEnd_steady window).lift_bind fun _ near far => ?_
      refine (Alike.lift (hasEndcall_alike closes)).bind fun hasBody near far _ => ?_
      split
      · exact (closedBody_alike alike opening _ _).bind fun _ _ _ _ => .origin (.pure _)
      · split
        · exact .origin (.pure _)
        · exact .throw _
    dsimp only
    split
    · exact (Alike.throw _).bind fun _ near far _ => afterCall near far
    · exact afterCall near far
  refine (expect_steady window rfl _).lift_bind fun _ near far => .look_of_closes closes ?_
  dsimp only
  split
  · exact (withDeeper_alike fun levels => signature_steady (Expr.deeper_steady levels)).bind
      fun params near far _ => afterParams params near far
  · exact afterParams [] near far

/-- Two rules for the tags with a word agree. Those for call tags do so only where both sides end at
once. -/
def RulesAlike (window : Window) (depth : Nat) (near far : Place) (opening : Token) (word : String)
    (rule rule' : Token → Parsing Stmt) : Prop :=
  (word = "call" → window.Closes) →
    Alike window (window.Placed depth) near far (rule opening) (rule' opening)

theorem tagRules_alike [Limits] (inside : near.cursor < window.limit) :
    List.Forall₂ (fun entry entry' => entry.1 = entry'.1 ∧
        RulesAlike window depth near far opening entry.1 entry.2 entry'.2)
      (tagRules statement) (tagRules statement') := by
  simp only [tagRules, RulesAlike, List.forall₂_cons, true_and, List.Forall₂.nil, and_true]
  exact ⟨fun _ => .nested (forRule_alike alike opening),
    fun _ => .nested (choiceRule_alike alike opening),
    fun _ => .nested (assignRule_alike alike opening),
    fun _ => .nested (blockRule_alike alike opening),
    fun _ => .nested (parentRule_alike opening),
    fun _ => .nested (inclusionRule_alike opening),
    fun _ => .nested (importRule_alike opening),
    fun _ => .nested (importNamesRule_alike opening),
    fun _ => .nested (macroRule_alike alike opening),
    fun closes => .nested (callRule_alike alike opening (closes trivial)),
    fun _ => .nested (scopeRule_alike alike opening),
    fun _ => .nested (filteredRule_alike alike opening),
    fun _ => .nested (autoescapeRule_alike alike opening),
    fun _ => .nested (evaluateRule_alike opening),
    fun _ => simpleRule_alike opening inside, fun _ => simpleRule_alike opening inside,
    fun _ => simpleRule_alike opening inside⟩

/-! ### Statements -/

omit alike in
theorem lookup_of_forall₂ {β γ : Type} {related : String → β → γ → Prop}
    {entries : List (String × β)} {entries' : List (String × γ)}
    (all : List.Forall₂ (fun entry entry' => entry.1 = entry'.1 ∧
      related entry.1 entry.2 entry'.2) entries entries') (key : String) :
    Option.Rel (related key) (entries.lookup key) (entries'.lookup key) := by
  induction all with
  | nil => exact .none
  | @cons entry entry' _ _ same _ ih =>
      rcases entry with ⟨word, value⟩
      rcases entry' with ⟨word', value'⟩
      rcases same with ⟨rfl, isRelated⟩
      by_cases isKey : key = word
      · subst isKey
        simpa [List.lookup_cons] using Option.Rel.some isRelated
      · have notKey : (key == word) = false := by simpa using isKey
        simpa only [List.lookup_cons, notKey] using ih

theorem blockTagRule_agree [Limits] {low : Nat} (placed : window.Placed depth low near far)
    (inside : near.cursor < window.limit)
    (isBlock : (window.near.get near.cursor).kind = .blockBegin) :
    Agree window (window.Placed depth) (near.cursor + 1)
      (blockTagRule statement {} window.near near) (blockTagRule statement' {} window.far far) := by
  refine .bind_token placed inside (fun _ _ _ => rfl) fun far => .look ?_ ?_
  · intro further
    have isCall (word : String) (isWord : (window.near.get (near.cursor + 1)).word? = some word) :
        word = "call" → window.Closes := by
      rintro rfl
      rcases window.seam with closes | ⟨_, noCalls⟩
      · exact closes
      · have notCall := noCalls near.cursor isBlock
        simp [Token.isWord, isWord] at notCall
    split
    · exact .lift (.throw _)
    · next word isWord =>
      have rules : Option.Rel (RulesAlike window depth { near with cursor := near.cursor + 1 } far
          (window.near.get near.cursor) word) ((tagRules statement).lookup word)
          ((tagRules statement').lookup word) :=
        lookup_of_forall₂ (tagRules_alike alike _ further) word
      generalize (tagRules statement).lookup word = rule at rules
      generalize (tagRules statement').lookup word = rule' at rules
      cases rules with
      | some rulesAlike => exact (rulesAlike (isCall word isWord)).map
      | none =>
          dsimp only
          split
          · exact .throw _
          · refine .look (fun _ => .throw _) fun last => ?_
            exact absurd last (Nat.ne_of_lt further)
  · intro atLimit
    rw [Token.word?_of_isBoundary window.isBoundary_near,
      Token.word?_of_isBoundary window.isBoundary_far]
    exact .lift (.refuse_atSeam _)

omit alike in
/-- A run of plain text is read from its first token on. -/
theorem plainText_agree {low start far : Nat} (places : window.Beside low start far)
    (inside : start < window.limit) (isData : (window.near.get start).kind = .data) :
    Agree window window.Beside (start + 1) (plainText window.near start)
      (plainText window.far far) := by
  have first (stream : TokenStream) (cursor : Nat)
      (sameToken : stream.get cursor = window.near.get start) : plainStep "" stream cursor =
        .ok (.yield ("" ++ (window.near.get start).text)) (stream.next cursor) := by
    rw [plainStep, current_bind, sameToken, if_pos isData]
    rfl
  exact Alike.loop_of_yield places inside first plainStep_steady

omit alike in
theorem textRule_agree {low : Nat} (placed : window.Placed depth low near far)
    (inside : near.cursor < window.limit)
    (isData : (window.near.get near.cursor).kind = .data) :
    Agree window (window.Placed depth) (near.cursor + 1) (textRule window.near near)
      (textRule window.far far) := by
  have sameToken := placed.beside.get_eq inside
  rw [textRule, bind_eq_of_ok (lift_current_eq _ _), bind_eq_of_ok (lift_current_eq _ _),
    sameToken, if_pos isData]
  apply (Agree.lift placed (plainText_agree placed.beside inside isData)).bind
  intro content near' far' outcome placed'
  refine Alike.origin ?_ _ placed'
  exact .pure _

omit alike in
theorem skipComment_agree {low start far : Nat} (places : window.Beside low start far)
    (inside : start < window.limit)
    (isComment : (window.near.get start).kind = .commentBegin ∨
      (window.near.get start).kind = .lineComment) :
    Agree window window.Beside (start + 1) (skipComment window.near start)
      (skipComment window.far far) := by
  have afterOpening : Steady window (do
      let _ ← skipIf .comment
      let _ ← skipIf .commentEnd
      return ()) :=
    (skipIf_steady window rfl).bind fun _ => (skipIf_steady window rfl).bind fun _ => .pure ()
  have behind : window.Beside (start + 1) (start + 1) (start + 1 + window.shift) :=
    ⟨Nat.le_refl _, inside, rfl⟩
  have sameToken := places.get_eq inside
  rw [skipComment, current_bind, current_bind, sameToken]
  rcases isComment with isKind | isKind <;> rw [isKind]
  · exact .advance_bind places inside (afterOpening _ _ _ behind)
  · exact .advance_bind places inside (.ok behind)

theorem statementRule_agree [Limits] {low : Nat} (placed : window.Placed depth low near far)
    (inside : near.cursor < window.limit) :
    Agree window (window.Placed depth) (near.cursor + 1)
        (statementRule statement {} window.near near)
        (statementRule statement' {} window.far far) ∨
      ∃ error, statementRule statement {} window.near near = .error error near ∧
        statementRule statement' {} window.far far = .error error far := by
  have sameToken := placed.beside.get_eq inside
  rw [statementRule, statementRule, bind_eq_of_ok (lift_current_eq _ _),
    bind_eq_of_ok (lift_current_eq _ _), sameToken]
  cases isKind : (window.near.get near.cursor).kind with
  | data => exact Or.inl ((textRule_agree placed inside isKind).map)
  | variableBegin =>
      refine Or.inl (.map (.nested placed ?_))
      refine .bind_token (placed.entered "output") inside (fun stream place same => ?_) fun _ => ?_
      · exact lift_eq_of_ok (expect_eq_of_kind (same.trans isKind) _)
      · refine expression_alike.bind fun expr near far _ => ?_
        exact (expect_steady window rfl _).lift_bind fun _ _ _ => .origin (.pure _)
  | blockBegin => exact Or.inl (blockTagRule_agree alike placed inside isKind)
  | rawBegin =>
      refine Or.inl (.map (.bind_token placed inside (fun stream place same => ?_) fun _ => ?_))
      · exact lift_eq_of_ok (expect_eq_of_kind (same.trans isKind) _)
      · refine plainText_steady.lift_bind fun content near far => ?_
        refine (skipIf_steady window rfl).lift_bind fun isClosed near far => ?_
        cases isClosed with
        | true => exact .origin (.pure _)
        | false => exact .throw _
  | commentBegin =>
      refine Or.inl (.bind (.lift placed ?_) fun _ near far _ placed => .ok placed)
      exact skipComment_agree placed.beside inside (Or.inl isKind)
  | lineComment =>
      refine Or.inl (.bind (.lift placed ?_) fun _ near far _ placed => .ok placed)
      exact skipComment_agree placed.beside inside (Or.inr isKind)
  | _ => exact Or.inr ⟨_, rfl, rfl⟩

end

variable [Limits]

/-- No statement begins at the end of a template. -/
theorem statementRule_eq_of_eof {statement : Parsing (Option Stmt)} {stream : TokenStream}
    {place : Place} (atEnd : (stream.get place.cursor).kind = .eof) :
    statementRule statement {} stream place =
      .error (.ofToken (stream.get place.cursor) "template data or tag") place := by
  rw [statementRule, bind_eq_of_ok (lift_current_eq _ _), atEnd]
  rfl

variable {depth low : Nat} {near far : Place}

/-- Inside of a statement both sides use the same rule, if they do so further on. -/
theorem beyond_alike {low : Nat} (placed : window.Placed depth low near far)
    (further : ∀ depth near' far', near.cursor < near'.cursor →
      Alike window (window.Placed depth) near' far' (parse {}) (parse {}))
    {inner : Nat} (near' far' : Place) :
    Alike window (window.Placed inner) near' far' (beyond {} window.near near)
      (beyond {} window.far far) := by
  intro low' placed'
  have sizeNear := window.size_near
  have room := window.room
  have inside := placed.beside.inside
  have shifted := placed.beside.shifted
  have shifted' := placed'.beside.shifted
  by_cases isFurther : near.cursor < near'.cursor
  · rw [beyond, beyond, if_pos (by omega), if_pos (by omega)]
    exact further inner near' far' isFurther low' placed'
  · rw [beyond, if_neg (by omega)]
    exact .deep

theorem parse_alike (near far : Place) :
    Alike window (window.Placed depth) near far (parse {}) (parse {}) := by
  intro low placed
  generalize left : window.near.size - near.cursor = count
  induction count using Nat.strongRecOn generalizing depth low near far with
  | ind count ih =>
      have sizeNear := window.size_near
      have further (depth : Nat) (near' far' : Place) (isFurther : near.cursor < near'.cursor) :
          Alike window (window.Placed depth) near' far' (parse {}) (parse {}) := by
        intro low' placed'
        have inside := placed'.beside.inside
        exact ih (window.near.size - near'.cursor) (by omega) near' far' low' placed' rfl
      rw [parse_eq, parse_eq]
      rcases Nat.lt_or_eq_of_le placed.beside.inside with inside | last
      · rcases statementRule_agree (fun _ => beyond_alike placed further) placed inside with
          agree | ⟨error, outcome, outcome'⟩
        · exact agree.lower placed.beside.later
        · rw [outcome, outcome']
          exact .error placed
      · have atEnd : (window.near.get near.cursor).kind = .eof := by
          rw [last]
          exact window.atLimit
        rw [statementRule_eq_of_eof atEnd]
        rcases window.same_or_opens with sameToken | opens
        · rw [← last, ← placed.beside.shifted] at sameToken
          rw [statementRule_eq_of_eof (sameToken ▸ atEnd), sameToken]
          exact .error placed
        · apply Agree.unfinished opens
          rw [SyntaxError.ofToken, atEnd]
          rfl

/-- A statement that begins in a window is read from its first token on, or both sides fail at
once. -/
theorem parse_agree (placed : window.Placed depth low near far)
    (inside : near.cursor < window.limit) :
    Agree window (window.Placed depth) (near.cursor + 1) (parse {} window.near near)
        (parse {} window.far far) ∨
      ∃ error, parse {} window.near near = .error error near ∧
        parse {} window.far far = .error error far := by
  rw [parse_eq, parse_eq]
  refine statementRule_agree (fun _ => beyond_alike placed fun _ near' far' _ => ?_) placed inside
  exact parse_alike near' far'

end Stmt

end Stencil

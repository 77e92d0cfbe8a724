import Stencil.Proofs.Stmt.Mirroring
import Stencil.Proofs.Stmt.PlainText
import Stencil.Proofs.Stmt.Progress
import Stencil.Proofs.Stmt.TagText

/-!
# Statements with comments between them

Every rule for statements mirrors itself on a stream with more comments. A body reads comments as
statements that give nothing, and so it skips those that were put in before the statement that comes
next on both sides, before the tag that ends it, and after either. The look for the end of a call
tag passes over comments, since neither a tag nor the end of the template begins with one.
-/

namespace Stencil

namespace Stmt

open Reading Parsing

/-! ### Comments -/

section

variable {stream : TokenStream} (closed : stream.IsClosed) {place : Place}
  {comment rest : List Token} {comments : List (List Token)}

include closed

theorem skipComment_eq {cursor : Nat} (isComment : IsComment comment)
    (ahead : stream.tokensFrom cursor = comment ++ rest) :
    skipComment stream cursor = .ok () (cursor + comment.length) := by
  cases isComment with
  | line isLine =>
      rcases TokenStream.of_tokensFrom_eq_cons ahead with ⟨_, rfl, _⟩
      have moved := closed.next_eq (show (stream.get cursor).kind ≠ .eof by simp [isLine])
      rw [skipComment, current_bind, isLine]
      exact congrArg (EStateM.Result.ok ()) moved
  | block opens isBody closes =>
      rcases TokenStream.of_tokensFrom_eq_cons ahead with ⟨_, rfl, further⟩
      rcases TokenStream.of_tokensFrom_eq_cons further with ⟨_, rfl, last⟩
      rcases TokenStream.of_tokensFrom_eq_cons last with ⟨_, rfl, _⟩
      have first := closed.next_eq (show (stream.get cursor).kind ≠ .eof by simp [opens])
      have second := closed.next_eq (show (stream.get (cursor + 1)).kind ≠ .eof by simp [isBody])
      have third := closed.next_eq
        (show (stream.get (cursor + 1 + 1)).kind ≠ .eof by simp [closes])
      have opening : Reading.advance stream cursor = .ok (stream.get cursor) (cursor + 1) :=
        congrArg (EStateM.Result.ok _) first
      have body := skipIf_eq_of_kind isBody
      have closing := skipIf_eq_of_kind closes
      rw [second] at body
      rw [third] at closing
      rw [skipComment, current_bind, opens]
      dsimp only
      rw [bind_eq_of_ok opening, bind_eq_of_ok body, bind_eq_of_ok closing]
      rfl

variable [Limits]

/-- A comment is read as a statement that gives nothing. -/
theorem parse_eq_of_comment (isComment : IsComment comment)
    (ahead : stream.tokensFrom place.cursor = comment ++ rest) :
    parse {} stream place = .ok none { place with cursor := place.cursor + comment.length } := by
  have skipped := lift_eq_of_ok (skipComment_eq closed isComment ahead)
  rcases isComment.exists_cons with ⟨token, parts, rfl, isKind⟩
  rw [parse_eq, statementRule, bind_eq_of_ok (lift_current_eq _ _),
    (TokenStream.of_tokensFrom_eq_cons ahead).2.1]
  rcases isKind with isKind | isKind
  · rw [isKind]
    dsimp only
    rw [bind_eq_of_ok skipped]
    rfl
  · rw [isKind]
    dsimp only
    rw [bind_eq_of_ok skipped]
    rfl

variable (tag : String) (opening : Token) (enders : List String) (body : List Stmt)

/-- A body passes over a comment. -/
theorem bodyLoop_comment (isComment : IsComment comment)
    (ahead : stream.tokensFrom place.cursor = comment ++ rest) :
    Parsing.loop (bodyStep (parse {}) tag opening enders) (body, none) stream place =
      Parsing.loop (bodyStep (parse {}) tag opening enders) (body, none) stream
        { place with cursor := place.cursor + comment.length } := by
  have skipped := parse_eq_of_comment closed isComment ahead
  rcases isComment.exists_cons with ⟨token, parts, rfl, isKind⟩
  rcases TokenStream.of_tokensFrom_eq_cons ahead with ⟨inside, isNext, _⟩
  have notTag : (stream.get place.cursor).kind ≠ .blockBegin := by
    rw [isNext]
    rcases isKind with isKind | isKind <;> simp [isKind]
  have notEnd : (stream.get place.cursor).kind ≠ .eof := by
    rw [isNext]
    rcases isKind with isKind | isKind <;> simp [isKind]
  refine repeatFrom_eq_of_yield ?_ ?_ inside
  · unfold bodyStep
    dsimp only
    rw [bind_eq_of_ok (lift_eq_of_ok (atTag_eq_none notTag enders))]
    dsimp only
    rw [bind_eq_of_ok (lift_current_eq _ _), if_neg notEnd, bind_eq_of_ok skipped]
    rfl
  · simp

theorem bodyLoop_comments (each : ∀ comment ∈ comments, IsComment comment)
    (ahead : stream.tokensFrom place.cursor = comments.flatten ++ rest) :
    Parsing.loop (bodyStep (parse {}) tag opening enders) (body, none) stream place =
      Parsing.loop (bodyStep (parse {}) tag opening enders) (body, none) stream
        { place with cursor := place.cursor + comments.flatten.length } := by
  induction comments generalizing place with
  | nil => rfl
  | cons comment comments ih =>
      rw [List.flatten_cons, List.append_assoc] at ahead
      rw [bodyLoop_comment closed tag opening enders body (each comment (by simp)) ahead,
        ih (fun other member => each other (by simp [member])) (TokenStream.tokensFrom_add ahead),
        List.flatten_cons, List.length_append, Nat.add_assoc]

end

/-- Comments make no difference to the look for the end of a call tag. -/
theorem endcallFollows_commented {region : Region} {near far : List Token}
    (commented : Commented region near far) (calls : Nat) :
    endcallFollows calls far = endcallFollows calls near := by
  induction commented generalizing calls with
  | ended => rfl
  | @token region token near far _ rest ih =>
      by_cases isTag : token.kind = .blockBegin
      · rw [isTag] at rest
        rcases rest.exists_cons rfl (by simp [Region.after]) with ⟨word, near, far, rfl, rfl, _⟩
        unfold endcallFollows
        simp only [List.head?_cons, ih]
        rfl
      · unfold endcallFollows
        simp only [isTag, false_and, if_false, ih]
  | @comment region comment near far _ isComment _ ih =>
      rw [← ih]
      cases isComment <;> simp [endcallFollows, *]

variable {pair : Commentary} {region : Region} {token : Token} {low : Nat} {place place' : Place}

/-! ### Bodies -/

/-- Both sides find the same closing tag. -/
theorem atTag_mirrors (words : List String)
    (atToken : pair.AtToken region token low place place') :
    ∃ found, atTag words pair.near place.cursor = .ok found place.cursor ∧
      atTag words pair.far place'.cursor = .ok found place'.cursor := by
  by_cases isTag : token.kind = .blockBegin
  · have isNear : (pair.near.get place.cursor).kind = .blockBegin := atToken.get_near ▸ isTag
    have isFar : (pair.far.get place'.cursor).kind = .blockBegin := atToken.get_far ▸ isTag
    refine ⟨(pair.near.get (place.cursor + 1)).word?.filter words.contains, ?_, ?_⟩
    · rw [atTag, current_bind, if_pos isNear]
      rfl
    · rw [atTag, current_bind, if_pos isFar, peek_bind, atToken.get_word isTag]
      rfl
  · exact ⟨none, atTag_eq_none (atToken.get_near ▸ isTag) words,
      atTag_eq_none (atToken.get_far ▸ isTag) words⟩

section

variable [Limits] (mirrors : pair.Mirrors (pair.AtItem low) (pair.Between low) (parse {}))
  (tag : String) (opening : Token) (enders : List String)

include mirrors

/-- A step of a body finds the tag that ends it, or reads a statement, on both sides. -/
theorem bodyStep_mirrors (atItem : pair.AtItem low place place') {body : List Stmt}
    {result : ForInStep (List Stmt × Option String)} {next : Place}
    (outcome : bodyStep (parse {}) tag opening enders (body, none) pair.near place =
      .ok result next) :
    ∃ next', bodyStep (parse {}) tag opening enders (body, none) pair.far place' =
        .ok result next' ∧
      ((∃ body ender, result = .done (body, some ender) ∧ pair.At .block low next next') ∨
        ∃ body, result = .yield (body, none) ∧ pair.Between low next next') := by
  rcases atItem with ⟨region, token, atToken, isItem⟩
  rcases atTag_mirrors enders atToken with ⟨found, near, far⟩
  unfold bodyStep at outcome ⊢
  dsimp only at outcome ⊢
  rw [bind_eq_of_ok (lift_eq_of_ok near)] at outcome
  rw [bind_eq_of_ok (lift_eq_of_ok far)]
  cases found with
  | some ender =>
      -- A word follows the opening of the tag, and no comment can stand between both.
      rcases atTag_eq pair.near place.cursor enders with ⟨found, near', isTag⟩
      rw [near] at near'
      cases near'
      rcases isTag rfl with ⟨isTag, isInner⟩
      have moved := pair.closed.next_eq
        (show (pair.near.get place.cursor).kind ≠ .eof by simp [isTag])
      rw [atToken.get_near] at isTag
      have inTag := atToken.next (by simp [isTag])
      rw [isTag] at inTag
      rcases inTag.exists_token rfl (by simp [Region.after]) with ⟨word, atWord⟩
      have isWord : word.kind.isInner = true := by
        rw [← atWord.get_near]
        exact moved ▸ isInner
      have beyond := atWord.next (Token.Kind.ne_eof_of_isInner isWord)
      rw [Region.after_of_isInner isWord] at beyond
      dsimp only at outcome ⊢
      rw [bind_eq_of_ok (lift_advance_eq _ _), bind_eq_of_ok (lift_advance_eq _ _)] at outcome ⊢
      cases outcome
      have later := atToken.later
      refine ⟨_, rfl, Or.inl ⟨body, ender, rfl, beyond.mono ?_⟩⟩
      simp only
      omega
  | none =>
      dsimp only at outcome ⊢
      rw [bind_eq_of_ok (lift_current_eq _ _), atToken.get_near] at outcome
      rw [bind_eq_of_ok (lift_current_eq _ _), atToken.get_far]
      by_cases isEnd : token.kind = .eof
      · rw [if_pos isEnd] at outcome
        cases outcome
      · rw [if_neg isEnd] at outcome ⊢
        cases inner : parse {} pair.near place with
        | error error after =>
            rw [bind_eq_of_error inner] at outcome
            cases outcome
        | ok stmt after =>
            rcases mirrors place place' ⟨region, token, atToken, isItem⟩ stmt after inner with
              ⟨after', inner', between⟩
            rw [bind_eq_of_ok inner] at outcome
            rw [bind_eq_of_ok inner']
            cases stmt with
            | some stmt =>
                cases outcome
                exact ⟨after', rfl, Or.inr ⟨_, rfl, between⟩⟩
            | none =>
                cases outcome
                exact ⟨after', rfl, Or.inr ⟨_, rfl, between⟩⟩

/-- A body is read up to the tag that ends it on both sides. -/
theorem bodyLoop_mirrors (between : pair.Between low place place') {body result : List Stmt}
    {ender : String} {next : Place}
    (outcome : Parsing.loop (bodyStep (parse {}) tag opening enders) (body, none) pair.near place =
      .ok (result, some ender) next) :
    ∃ next', Parsing.loop (bodyStep (parse {}) tag opening enders) (body, none) pair.far place' =
        .ok (result, some ender) next' ∧ pair.At .block low next next' := by
  have repeats := (bodyStep_progresses pair.closed tag opening enders).repeats (body, none) place
  have progresses' := bodyStep_progresses pair.closed' tag opening enders
  unfold Parsing.loop at outcome
  rw [outcome] at repeats
  generalize isStart : (body, none) = value at repeats
  generalize isLast : EStateM.Result.ok (result, some ender) next = last at repeats
  clear outcome
  -- Each round of the near side is one of the far side, after rounds for the comments put in there.
  induction repeats generalizing body place' with
  | fails => cases isLast
  | done first =>
      cases isStart
      cases isLast
      rcases between.exists_item with ⟨comments, rest, each, ahead, atItem⟩
      rw [bodyLoop_comments pair.closed' tag opening enders body each ahead]
      rcases bodyStep_mirrors mirrors tag opening enders atItem first with
        ⟨next', far, ⟨_, _, isDone, inTag⟩ | ⟨_, isYield, _⟩⟩
      · exact ⟨next', repeatFrom_eq_of_done far, inTag⟩
      · cases isYield
  | more first _ ih =>
      cases isStart
      rcases between.exists_item with ⟨comments, rest, each, ahead, atItem⟩
      rw [bodyLoop_comments pair.closed' tag opening enders body each ahead]
      rcases bodyStep_mirrors mirrors tag opening enders atItem first with
        ⟨next', far, ⟨_, _, isDone, _⟩ | ⟨further, isYield, between⟩⟩
      · cases isDone
      · cases isYield
        rcases progresses' _ _ _ _ far with ⟨progress, inside⟩
        rcases ih between rfl isLast with ⟨last, far', inTag⟩
        refine ⟨last, ?_, inTag⟩
        unfold Parsing.loop at far' ⊢
        rw [repeatFrom_eq_of_yield far progress inside]
        exact far'

theorem bodyUntil_mirrors :
    pair.Mirrors (pair.At .text low) (pair.At .block low)
      (bodyUntil (parse {}) tag opening enders) := by
  intro place place' at_ value last outcome
  have unfolded := bodyUntil_eq (parse {}) tag opening enders
  rw [unfolded] at outcome ⊢
  cases found :
      Parsing.loop (bodyStep (parse {}) tag opening enders) ([], none) pair.near place with
  | error error after =>
      rw [bind_eq_of_error found] at outcome
      cases outcome
  | ok result after =>
      rw [bind_eq_of_ok found] at outcome
      rcases result with ⟨body, ender | ender⟩
      · cases outcome
      · cases outcome
        rcases bodyLoop_mirrors mirrors tag opening enders (.items rfl at_) found with
          ⟨next', far, inTag⟩
        rw [bind_eq_of_ok far]
        exact ⟨next', rfl, inTag⟩

theorem closedBody_mirrors (ender : String) :
    pair.Mirrors (pair.At .text low) (pair.At .text low)
      (closedBody (parse {}) tag opening ender) :=
  .bind (bodyUntil_mirrors mirrors tag opening [ender]) fun _ => .bind .blockEnd fun _ => .pure _

end

/-! ### Tags -/

section

variable [Limits] (opening : Token)

theorem outputRule_mirrors :
    pair.Mirrors (pair.AtToken region token low) (pair.At .text (low + 1)) outputRule := by
  refine .bind (.expect_token (by simp) (Nat.le_refl _)) fun opening => ?_
  refine .bind (.expression rfl) fun expr => .bind (.expect rfl ?_ ?_) fun _ => ?_
  · simp [Region.after]
  · simp
  · exact .origin _ fun _ => .pure _

omit [Limits] in
theorem simpleRule_mirrors :
    pair.Mirrors (pair.At .block low) (pair.At .text low) (simpleRule opening) := by
  refine .of_token rfl (by simp) fun token => ?_
  by_cases inner : token.kind.isInner = true
  · refine .step (Token.Kind.ne_eof_of_isInner inner) (Nat.le_succ low) (.origin _ fun origin => ?_)
    rw [Region.after_of_isInner inner]
    have ends (stmt : Stmt) : pair.Mirrors (pair.At .block low) (pair.At .text low) (do
        let _ ← expectBlockEnd
        return stmt : Parsing Stmt) :=
      .bind .blockEnd fun _ => .pure _
    dsimp only
    split
    · exact ends _
    · exact ends _
    · exact ends _
    · exact .throw_bind _ _
  · refine .step_anywhere (.origin _ fun origin => ?_)
    dsimp only
    split
    · next isWord => exact absurd (by rw [isWord]; rfl) inner
    · next isWord => exact absurd (by rw [isWord]; rfl) inner
    · next isWord => exact absurd (by rw [isWord]; rfl) inner
    · exact .throw_bind _ _

theorem evaluateRule_mirrors :
    pair.Mirrors (pair.At .block low) (pair.At .text low) (evaluateRule opening) := by
  refine .bind (.keyword _ _) fun _ => .bind (.expression rfl) fun _ => ?_
  exact .bind .blockEnd fun _ => .origin _ fun _ => .pure _

theorem parentRule_mirrors :
    pair.Mirrors (pair.At .block low) (pair.At .text low) (parentRule opening) := by
  refine .bind (.keyword _ _) fun _ => .bind (.expression rfl) fun _ => ?_
  exact .bind .blockEnd fun _ => .origin _ fun _ => .pure _

theorem inclusionRule_mirrors :
    pair.Mirrors (pair.At .block low) (pair.At .text low) (inclusionRule opening) := by
  have ends (template : Expr) (ignoreMissing : Bool) :
      pair.Mirrors (pair.At .block low) (pair.At .text low)
        (inclusionRest opening template ignoreMissing) := by
    refine .bind (.contextModifier _) fun _ => ?_
    exact .bind .blockEnd fun _ => .origin _ fun _ => .pure _
  refine .bind (.keyword _ _) fun _ => .bind (.expression rfl) fun template => ?_
  refine .bind (.skipWord _) fun ignoreMissing => ?_
  cases ignoreMissing with
  | true => exact .bind (.expectWord _) fun _ => ends _ _
  | false => exact ends _ _

theorem importRule_mirrors :
    pair.Mirrors (pair.At .block low) (pair.At .text low) (importRule opening) := by
  refine .bind (.keyword _ _) fun _ => .bind (.expression rfl) fun template => ?_
  refine .bind (.expectWord _) fun _ => .bind .identifier fun target => ?_
  refine .bind (.contextModifier _) fun _ => ?_
  exact .bind .blockEnd fun _ => .origin _ fun _ => .pure _

theorem importNamesRule_mirrors :
    pair.Mirrors (pair.At .block low) (pair.At .text low) (importNamesRule opening) := by
  refine .bind (.keyword _ _) fun _ => .bind (.expression rfl) fun template => ?_
  refine .bind (.keyword _ _) fun _ => ?_
  refine .bind (.part rfl importedNames_stepwise fun _ => importedNames_reads pair.closed)
    fun names => .bind (.contextModifier _) fun _ => ?_
  exact .bind .blockEnd fun _ => .origin _ fun _ => .pure _

omit [Limits] in
theorem assignTargets_mirrors :
    pair.Mirrors (pair.At .block low) (pair.At .block low) (liftM assignTargets) :=
  .part rfl assignTargets_stepwise fun _ => assignTargets_reads pair.closed

theorem signature_mirrors :
    pair.Mirrors (pair.At .block low) (pair.At .block low) (withDeeper signature) :=
  .withDeeper rfl signature_stepwise fun inside _ => signature_reads pair.closed inside

omit [Limits] in
/-- Both sides find the end of a call tag, or both do not. -/
theorem hasEndcall_mirrors :
    pair.Mirrors (pair.At region low) (pair.At region low) (liftM hasEndcall) := by
  intro place place' at_ value next outcome
  have answer (stream : TokenStream) (place : Place) :
      (liftM hasEndcall : Parsing Bool) stream place =
        .ok (endcallFollows 0 (stream.tokensFrom place.cursor)) place := rfl
  rw [answer] at outcome
  cases outcome
  rw [answer, endcallFollows_commented at_.ahead]
  exact ⟨place', rfl, at_⟩

section

variable (mirrors : pair.Mirrors (pair.AtItem low) (pair.Between low) (parse {}))

include mirrors

theorem forRule_mirrors :
    pair.Mirrors (pair.At .block low) (pair.At .text low) (forRule (parse {}) opening) := by
  have afterHead (targets : List String) (iter : Expr) (filter : Option Expr) :
      pair.Mirrors (pair.At .block low) (pair.At .text low)
        (forRest (parse {}) opening targets iter filter) := by
    refine .bind (.skipWord _) fun _ => .bind .blockEnd fun _ => ?_
    refine .bind (bodyUntil_mirrors mirrors _ _ _) ?_
    rintro ⟨body, ender⟩
    refine .bind .blockEnd fun _ => ?_
    dsimp only
    split
    · exact .bind (closedBody_mirrors mirrors _ _ _) fun _ => .origin _ fun _ => .pure _
    · exact .bind (.pure _) fun _ => .origin _ fun _ => .pure _
  refine .bind (.keyword _ _) fun _ => .bind assignTargets_mirrors fun targets => ?_
  refine .bind (.keyword _ _) fun _ => .bind (.unconditional rfl) fun iter => ?_
  refine .bind (.mark rfl) fun hasFilter => ?_
  cases hasFilter with
  | true => exact .bind (.map (.expression rfl)) fun _ => afterHead _ _ _
  | false => exact .bind (.pure _) fun _ => afterHead _ _ _

theorem elifBranches_mirrors (ender : String) :
    pair.Mirrors (pair.At .block low) (pair.At .block low)
      (elifBranches (parse {}) opening ender) := by
  refine .loop (elifStep_progresses pair.closed opening)
    (elifStep_progresses pair.closed' opening) ?_ ([], ender)
  rintro ⟨elifs, ender⟩
  unfold elifStep
  dsimp only
  split
  · refine .bind (.expression rfl) fun condition => .bind .blockEnd fun _ => ?_
    exact .bind (bodyUntil_mirrors mirrors _ _ _) fun _ => .pure _
  · exact .pure _

theorem choiceRule_mirrors :
    pair.Mirrors (pair.At .block low) (pair.At .text low) (choiceRule (parse {}) opening) := by
  refine .bind (.keyword _ _) fun _ => .bind (.expression rfl) fun condition => ?_
  refine .bind .blockEnd fun _ => .bind (bodyUntil_mirrors mirrors _ _ _) ?_
  rintro ⟨body, ender⟩
  refine .bind (elifBranches_mirrors opening mirrors ender) ?_
  rintro ⟨elifs, ender⟩
  refine .bind .blockEnd fun _ => ?_
  dsimp only
  split
  · exact .bind (closedBody_mirrors mirrors _ _ _) fun _ => .origin _ fun _ => .pure _
  · exact .bind (.pure _) fun _ => .origin _ fun _ => .pure _

theorem assignRule_mirrors :
    pair.Mirrors (pair.At .block low) (pair.At .text low) (assignRule (parse {}) opening) := by
  refine .bind (.keyword _ _) fun _ => .bind assignTargets_mirrors fun targets => ?_
  refine .bind (.mark rfl) fun isValue => ?_
  cases isValue with
  | true =>
      refine .bind (.expression rfl) fun value => ?_
      exact .bind .blockEnd fun _ => .origin _ fun _ => .pure _
  | false =>
      simp only [Bool.false_eq_true, if_false]
      split
      · exact .look rfl (by simp) fun _ => .throw _
      · refine .bind .blockEnd fun _ => ?_
        exact .bind (closedBody_mirrors mirrors _ _ _) fun _ => .origin _ fun _ => .pure _

theorem scopeRule_mirrors :
    pair.Mirrors (pair.At .block low) (pair.At .text low) (scopeRule (parse {}) opening) := by
  refine .bind (.keyword _ _) fun _ => ?_
  refine .bind (.withDeeper rfl assignments_stepwise
    fun inside _ => assignments_reads pair.closed inside) fun assignments => ?_
  refine .bind .blockEnd fun _ => ?_
  exact .bind (closedBody_mirrors mirrors _ _ _) fun _ => .origin _ fun _ => .pure _

theorem filteredRule_mirrors :
    pair.Mirrors (pair.At .block low) (pair.At .text low) (filteredRule (parse {}) opening) := by
  refine .bind (.expectWord _) fun _ => ?_
  refine .bind (.withDeeper rfl filterCalls_stepwise
    fun inside _ => filterCalls_reads pair.closed inside) fun filters => ?_
  refine .bind .blockEnd fun _ => ?_
  exact .bind (closedBody_mirrors mirrors _ _ _) fun _ => .origin _ fun _ => .pure _

theorem autoescapeRule_mirrors :
    pair.Mirrors (pair.At .block low) (pair.At .text low)
      (autoescapeRule (parse {}) opening) := by
  refine .bind (.expectWord _) fun _ => .bind (.expression rfl) fun enabled => ?_
  refine .bind .blockEnd fun _ => ?_
  exact .bind (closedBody_mirrors mirrors _ _ _) fun _ => .origin _ fun _ => .pure _

theorem blockRule_mirrors :
    pair.Mirrors (pair.At .block low) (pair.At .text low) (blockRule (parse {}) opening) := by
  have ends (name : String) (isScoped isRequired : Bool) (body : List Stmt) :
      pair.Mirrors (pair.At .block low) (pair.At .text low)
        (blockRest opening name isScoped isRequired body) :=
    .bind .blockEnd fun _ => .origin _ fun _ => .pure _
  refine .bind (.keyword _ _) fun _ => .bind .identifier fun name => ?_
  refine .bind (.part rfl blockModifiers_stepwise fun _ => blockModifiers_reads pair.closed) ?_
  rintro ⟨isScoped, isRequired⟩
  refine .bind .blockEnd fun _ => .bind (bodyUntil_mirrors mirrors _ _ _) ?_
  rintro ⟨body, ender⟩
  refine .look rfl (by simp) fun trailing => ?_
  dsimp only
  split
  · next isName =>
    split
    · refine .step (by simp [isName]) (Nat.le_succ low) ?_
      rw [isName]
      exact ends _ _ _ _
    · exact .throw_bind _ _
  · exact .at_token (ends _ _ _ _)

theorem macroRule_mirrors :
    pair.Mirrors (pair.At .block low) (pair.At .text low) (macroRule (parse {}) opening) := by
  refine .bind (.keyword _ _) fun _ => .bind .identifier fun name => ?_
  refine .bind signature_mirrors fun params => .bind .blockEnd fun _ => ?_
  refine .bind (bodyUntil_mirrors mirrors _ _ _) ?_
  rintro ⟨body, ender⟩
  refine .bind (.skipWord _) fun _ => ?_
  exact .bind .blockEnd fun _ => .origin _ fun _ => .pure _

theorem callRule_mirrors :
    pair.Mirrors (pair.At .block low) (pair.At .text low) (callRule (parse {}) opening) := by
  have ends (params : List Parameter) (call : Expr) :
      pair.Mirrors (pair.At .block low) (pair.At .text low)
        (callEnding (parse {}) opening params call) := by
    refine .bind .blockEnd fun _ => .bind hasEndcall_mirrors fun hasBody => ?_
    split
    · exact .bind (closedBody_mirrors mirrors _ _ _) fun _ => .origin _ fun _ => .pure _
    · split
      · exact .origin _ fun _ => .pure _
      · exact .throw _
  have afterParams (params : List Parameter) :
      pair.Mirrors (pair.At .block low) (pair.At .text low)
        (callRest (parse {}) opening params) := by
    refine .look rfl (by simp) fun callToken => .at_token (.bind (.expression rfl) fun call => ?_)
    dsimp only
    split
    · exact .throw_bind _ _
    · exact ends params call
  refine .bind (.keyword _ _) fun _ => .look rfl (by simp) fun first => .at_token ?_
  dsimp only
  split
  · exact .bind signature_mirrors fun params => afterParams params
  · exact .bind (.pure _) fun params => afterParams params

theorem tagRules_mirrors {word : String} {rule : Token → Parsing Stmt}
    (isRule : (tagRules (parse {})).lookup word = some rule) :
    pair.Mirrors (pair.At .block low) (pair.At .text low) (rule opening) := by
  have entered {rule : Parsing Stmt} {construct : String}
      (inside : pair.Mirrors (pair.At .block low) (pair.At .text low) rule) :
      pair.Mirrors (pair.At .block low) (pair.At .text low) (nested construct rule) :=
    .nested (fun _ _ at_ => ⟨at_.depth, at_.entered construct⟩) inside
  have all : ∀ entry ∈ tagRules (parse {}),
      pair.Mirrors (pair.At .block low) (pair.At .text low) (entry.2 opening) := by
    simp only [tagRules, List.forall_mem_cons, List.not_mem_nil, false_implies, implies_true,
      and_true]
    exact ⟨entered (forRule_mirrors opening mirrors), entered (choiceRule_mirrors opening mirrors),
      entered (assignRule_mirrors opening mirrors), entered (blockRule_mirrors opening mirrors),
      entered (parentRule_mirrors opening), entered (inclusionRule_mirrors opening),
      entered (importRule_mirrors opening), entered (importNamesRule_mirrors opening),
      entered (macroRule_mirrors opening mirrors), entered (callRule_mirrors opening mirrors),
      entered (scopeRule_mirrors opening mirrors), entered (filteredRule_mirrors opening mirrors),
      entered (autoescapeRule_mirrors opening mirrors), entered (evaluateRule_mirrors opening),
      simpleRule_mirrors opening, simpleRule_mirrors opening, simpleRule_mirrors opening⟩
  rcases List.lookup_eq_some_iff.1 isRule with ⟨before, after, split, _⟩
  exact all (word, rule) (by simp [split])

end

end

/-! ### Statements -/

/-- Plain text is a single token on both sides. -/
theorem plainText_mirrors (isData : token.kind = .data)
    (single : (region.after .data).allows .data = false) (notEnded : region.after .data ≠ .ended) :
    pair.Mirrors (pair.AtToken region token low) (pair.At (region.after .data) low)
      (liftM plainText) := by
  intro place place' atToken value next outcome
  have further := atToken.next (by simp [isData])
  rw [isData] at further
  have isNear : (pair.near.get place.cursor).kind = .data := atToken.get_near ▸ isData
  have isFar : (pair.far.get place'.cursor).kind = .data := atToken.get_far ▸ isData
  rcases further.notData single notEnded with ⟨notNear, notFar⟩
  have near := plainText_eq_of_data pair.closed isNear notNear
  have far := plainText_eq_of_data pair.closed' isFar notFar
  rw [lift_eq_of_ok near, atToken.get_near] at outcome
  cases outcome
  have later := atToken.later
  exact ⟨_, (lift_eq_of_ok far).trans (by rw [atToken.get_far]), further.mono (by omega)⟩

theorem plainText_mirrors_nothing (notData : token.kind ≠ .data) :
    pair.Mirrors (pair.AtToken region token low) (pair.AtToken region token low)
      (liftM plainText) := by
  intro place place' atToken value next outcome
  have near := plainText_eq_of_ne fun isData => notData (atToken.get_near ▸ isData)
  have far := plainText_eq_of_ne fun isData => notData (atToken.get_far ▸ isData)
  rw [lift_eq_of_ok near] at outcome
  cases outcome
  exact ⟨_, lift_eq_of_ok far, atToken⟩

theorem textRule_mirrors (isBetween : region.isBetween = true) (isData : token.kind = .data) :
    pair.Mirrors (pair.AtToken region token low) (pair.Between low) textRule := by
  refine .of_allowed fun allowed => ?_
  obtain rfl : region = .text := by
    cases region <;> simp [isData, Region.allows, Region.isBetween] at allowed isBetween
    rfl
  refine .current ?_
  rw [if_pos isData]
  refine .bind (plainText_mirrors isData rfl (by simp [Region.after])) fun content => ?_
  exact .origin _ fun _ => .mono (.pure _) (fun _ _ at_ => .items rfl at_) fun _ _ => id

theorem rawRule_mirrors :
    pair.Mirrors (pair.AtToken region token low) (pair.At .text low) rawRule := by
  have ends (opening token : Token) (content : String) (region : Region) :
      pair.Mirrors (pair.AtToken region token low) (pair.At .text low) (do
        if ← skipIf .rawEnd then return .text (← originOf opening) content
        else throw (.unclosed "raw" ["endraw"] opening.span) : Parsing Stmt) := by
    refine .skipIf (by simp) (fun _ => ?_) fun _ => ?_
    · exact .origin _ fun _ => .pure _
    · exact .throw _
  refine .bind (.expect_token (by simp) (Nat.le_succ low)) fun opening => ?_
  refine .of_token rfl (by simp [Region.after]) fun token => ?_
  by_cases isData : token.kind = .data
  · refine .bind (plainText_mirrors isData rfl (by simp [Region.after])) fun content => ?_
    exact .of_token rfl (by simp [Region.after]) fun token => ends _ _ _ _
  · exact .bind (plainText_mirrors_nothing isData) fun content => ends _ _ _ _

/-- A comment that both sides have may lack its end only at the end of the template. -/
theorem skipComment_mirrors (isComment : token.kind = .commentBegin ∨ token.kind = .lineComment) :
    pair.Mirrors (pair.AtToken region token low) (pair.Between low) (liftM skipComment) := by
  unfold skipComment
  rw [lift_bind]
  refine .current ?_
  rcases isComment with isKind | isKind
  · rw [isKind]
    dsimp only
    rw [lift_bind]
    refine .step (by simp [isKind]) (Nat.le_succ low) ?_
    rw [isKind, lift_bind]
    refine .of_token rfl (by simp [Region.after]) fun body => .of_allowed fun allowed => ?_
    have isBody : body.kind = .comment := by simpa [Region.after, Region.allows] using allowed
    refine .skipIf (by simp) (fun _ => ?_) fun notBody => absurd isBody notBody
    rw [lift_bind]
    refine .of_token rfl (by simp [Region.after]) fun closing => .of_allowed fun allowed => ?_
    refine .skipIf (by simp) (fun _ => ?_) fun notClosing => ?_
    · exact .mono (.pure _) (fun _ _ at_ => .items rfl at_) fun _ _ => id
    · have isEnd : closing.kind = .eof := by
        simpa [Region.after, Region.allows, notClosing] using allowed
      exact .mono (.pure _) (fun _ _ atToken => .atEnd isEnd atToken) fun _ _ => id
  · rw [isKind]
    dsimp only
    rw [lift_bind]
    refine .step (by simp [isKind]) (Nat.le_succ low) ?_
    rw [isKind]
    exact .mono (.pure _) (fun _ _ at_ => .items rfl at_) fun _ _ => id

variable [Limits]

section

variable (mirrors : pair.Mirrors (pair.AtItem (low + 1)) (pair.Between (low + 1)) (parse {}))

include mirrors

theorem blockTagRule_mirrors (isTag : token.kind = .blockBegin) :
    pair.Mirrors (pair.AtToken region token low) (pair.At .text low)
      (blockTagRule (parse {}) {}) := by
  refine .step (by simp [isTag]) (Nat.le_refl _) ?_
  rw [isTag]
  refine .look rfl (by simp [Region.after]) fun tag => ?_
  split
  · exact .refuse _ _
  · next word isWord =>
    split
    · next rule isRule =>
      refine .at_token (.map ?_)
      exact .mono (tagRules_mirrors token mirrors isRule) (fun _ _ => id) fun _ _ at_ =>
        at_.mono (Nat.le_succ low)
    · split
      · exact .throw _
      · exact .current (.throw _)

theorem statementRule_mirrors :
    pair.Mirrors (pair.AtItem low) (pair.Between low) (statementRule (parse {}) {}) := by
  have closes {rule : Parsing (Option Stmt)} {before : Place → Place → Prop}
      (rules : pair.Mirrors before (pair.At .text low) rule) :
      pair.Mirrors before (pair.Between low) rule :=
    .mono rules (fun _ _ => id) fun _ _ at_ => .items rfl at_
  refine .of_item fun region token isItem => .current ?_
  split
  · next isData =>
    have isBetween : region.isBetween = true := by simpa [isData] using isItem
    exact .map (textRule_mirrors isBetween isData)
  · refine closes (.map ?_)
    refine .nested (fun _ _ atToken => ⟨atToken.depth, atToken.entered _⟩) ?_
    exact .mono outputRule_mirrors (fun _ _ => id) fun _ _ at_ => at_.mono (Nat.le_succ low)
  · next isTag => exact closes (blockTagRule_mirrors mirrors isTag)
  · exact closes (.map rawRule_mirrors)
  · next isComment => exact .bind (skipComment_mirrors (Or.inl isComment)) fun _ => .pure _
  · next isComment => exact .bind (skipComment_mirrors (Or.inr isComment)) fun _ => .pure _
  · exact .refuse _ _

end

/-- A statement is read on the side with more comments as it is on the other side. -/
theorem parse_mirrors (low : Nat) :
    pair.Mirrors (pair.AtItem low) (pair.Between low) (parse {}) := by
  intro place place' atItem value next outcome
  -- Statements inside of this one begin after its first token, so fewer tokens are ahead of them.
  generalize left : pair.near.size - place.cursor = count
  induction count using Nat.strongRecOn generalizing low place place' value next with
  | ind count ih =>
      rcases atItem with ⟨region, token, atToken, isItem⟩
      have inside : place.cursor < pair.near.size := by
        rcases atToken.ahead with ⟨rest, rest', near, far, further⟩
        exact (TokenStream.of_tokensFrom_eq_cons near).1
      have mirrors : pair.Mirrors (pair.AtItem (place.cursor + 1)) (pair.Between (place.cursor + 1))
          (parse {}) := by
        intro inner inner' atItem value next outcome
        have later : place.cursor + 1 ≤ inner.cursor := by
          rcases atItem with ⟨_, _, atToken, _⟩
          exact atToken.later
        exact ih (pair.near.size - inner.cursor) (by omega) _ inner inner' atItem value next outcome
          rfl
      have here : pair.AtItem place.cursor place place' :=
        ⟨region, token, { atToken with later := Nat.le_refl _ }, isItem⟩
      rw [← statementRule_eq_parse pair.closed fun _ _ => rfl] at outcome
      rw [← statementRule_eq_parse pair.closed' fun _ _ => rfl]
      rcases statementRule_mirrors mirrors place place' here value next outcome with
        ⟨next', outcome', between⟩
      exact ⟨next', outcome', between.mono atToken.later⟩

end Stmt

end Stencil

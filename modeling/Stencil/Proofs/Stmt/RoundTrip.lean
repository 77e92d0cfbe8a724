import Stencil.Proofs.Stmt.WrittenBodies

/-!
# Written statements are read back

Each rule for a tag reads back the statements that are written with this tag, given that the rule
for any statement reads the statements inside of them back. The rule for any statement therefore
reads all written statements back: one that holds others is read beyond the token that opens it,
and there are fewer tokens left for the others.
-/

namespace Stencil.Stmt

open Reading Parsing Lexeme

variable [Limits] {stream : TokenStream} {low depth needed : Nat} {rest : List Lexeme}
  {opening : Token} {origin : Origin}

/-! ### Tags without bodies -/

theorem evaluateRule_parsesOff {expr : Expr} (printable : expr.Printable) :
    ParsesOff stream low depth (expr.nesting + 1)
      (.word "do" :: (expr.lexemes ++ .blockEnd :: rest)) rest (evaluateRule opening)
      (evaluate origin expr).Agrees := by
  apply ParsesOff.token rfl
  intro _
  apply (printable.expression_parsesOff rfl).bind (Nat.le_refl _)
  intro found agrees enough
  apply ParsesOff.blockEnd
  intro _
  exact ParsesOff.finish enough fun _ => congrArg (evaluate _) agrees

theorem parentRule_parsesOff {template : Expr} (printable : template.Printable) :
    ParsesOff stream low depth (template.nesting + 1)
      (.word "extends" :: (template.lexemes ++ .blockEnd :: rest)) rest (parentRule opening)
      (parent origin template).Agrees := by
  apply ParsesOff.token rfl
  intro _
  apply (printable.expression_parsesOff rfl).bind (Nat.le_refl _)
  intro found agrees enough
  apply ParsesOff.blockEnd
  intro _
  exact ParsesOff.finish enough fun _ => congrArg (parent _) agrees

omit [Limits] in
/-- A context modifier is neither taken for the words before it nor for those that may follow. -/
theorem next_contextLexemes (default withContext : Bool) :
    (next (contextLexemes default withContext ++ .blockEnd :: rest)).kind ≠ .comma ∧
      ∀ word ∈ ["ignore", "as", "context"],
        (next (contextLexemes default withContext ++ .blockEnd :: rest)).word? ≠ some word := by
  have sameNext : next (contextLexemes default withContext ++ .blockEnd :: rest) =
      if withContext = default then .blockEnd
      else .word (if withContext then "with" else "without") := by
    cases default <;> cases withContext <;> rfl
  rw [sameNext]
  cases default <;> cases withContext <;> decide

/-- The modifiers of an inclusion are read after whatever the expression before them is. -/
theorem inclusionRule_parsesOff_words {words : List Lexeme} {isTemplate : Expr → Prop}
    (withContext ignoreMissing : Bool)
    (included : ParsesOff stream low depth needed
      (words ++ (flagLexemes ignoreMissing ["ignore", "missing"] ++
        (contextLexemes true withContext ++ .blockEnd :: rest)))
      (flagLexemes ignoreMissing ["ignore", "missing"] ++
        (contextLexemes true withContext ++ .blockEnd :: rest)) expression isTemplate) :
    ParsesOff stream low depth needed
      (.word "include" :: (words ++ (flagLexemes ignoreMissing ["ignore", "missing"] ++
        (contextLexemes true withContext ++ .blockEnd :: rest)))) rest (inclusionRule opening)
      fun stmt => ∃ origin template, isTemplate template ∧
        stmt = inclusion origin template withContext ignoreMissing := by
  have later {template : Expr} (found : isTemplate template) (enough : needed ≤ maxDepth - depth) :
      ParsesOff stream low depth needed
        (contextLexemes true withContext ++ .blockEnd :: rest) rest (do
          let withContext ← contextModifier true
          let _ ← expectBlockEnd
          return .inclusion (← originOf opening) template withContext ignoreMissing)
        fun stmt => ∃ origin template, isTemplate template ∧
          stmt = inclusion origin template withContext ignoreMissing := by
    apply (ParsesOff.lift (contextModifier_readsOff true withContext rfl)).bind_free
    rintro withContext rfl
    apply ParsesOff.blockEnd
    intro _
    exact ParsesOff.finish enough fun origin => ⟨origin, template, found, rfl⟩
  apply ParsesOff.token rfl
  intro _
  apply included.bind (Nat.le_refl _)
  intro template found enough
  cases ignoreMissing with
  | false =>
      have notIgnore := (@next_contextLexemes rest true withContext).2 "ignore" (by decide)
      apply (ParsesOff.lift (skipWord_readsOff_none notIgnore)).bind_free
      rintro _ rfl
      exact later found enough
  | true =>
      apply (ParsesOff.lift (skipWord_readsOff rfl)).bind_free
      rintro _ rfl
      apply ParsesOff.tagWord rfl
      exact later found enough

theorem inclusionRule_parsesOff {template : Expr} (printable : template.Printable)
    (withContext ignoreMissing : Bool) :
    ParsesOff stream low depth (template.nesting + 1)
      (.word "include" :: (template.lexemes ++ (flagLexemes ignoreMissing ["ignore", "missing"] ++
        (contextLexemes true withContext ++ .blockEnd :: rest)))) rest (inclusionRule opening)
      (inclusion origin template withContext ignoreMissing).Agrees := by
  have ends : (next (flagLexemes ignoreMissing ["ignore", "missing"] ++
      (contextLexemes true withContext ++ .blockEnd :: rest))).kind.binds? = none := by
    cases ignoreMissing <;> cases withContext <;> rfl
  apply (inclusionRule_parsesOff_words withContext ignoreMissing
    (printable.expression_parsesOff ends)).mono
  rintro _ ⟨_, found, agrees, rfl⟩
  exact congrArg (inclusion _ · withContext ignoreMissing) agrees

/-- The name of an import is read after whatever the expression before it is. -/
theorem importRule_parsesOff_words {words : List Lexeme} {isTemplate : Expr → Prop}
    {target : String} (free : Expr.isFreeName target = true) (withContext : Bool)
    (imported : ParsesOff stream low depth needed
      (words ++ .word "as" :: .word target :: (contextLexemes false withContext ++ .blockEnd :: rest))
      (.word "as" :: .word target :: (contextLexemes false withContext ++ .blockEnd :: rest))
      expression isTemplate) :
    ParsesOff stream low depth needed
      (.word "import" :: (words ++ .word "as" :: .word target ::
        (contextLexemes false withContext ++ .blockEnd :: rest))) rest (importRule opening)
      fun stmt => ∃ origin template, isTemplate template ∧
        stmt = importAs origin template target withContext := by
  apply ParsesOff.token rfl
  intro _
  apply imported.bind (Nat.le_refl _)
  intro template found enough
  apply ParsesOff.tagWord rfl
  apply (ParsesOff.lift (identifier_readsOff free)).bind_free
  rintro target rfl
  apply (ParsesOff.lift (contextModifier_readsOff false withContext rfl)).bind_free
  rintro withContext rfl
  apply ParsesOff.blockEnd
  intro _
  exact ParsesOff.finish enough fun origin => ⟨origin, template, found, rfl⟩

theorem importRule_parsesOff {template : Expr} (printable : template.Printable) {target : String}
    (free : Expr.isFreeName target = true) (withContext : Bool) :
    ParsesOff stream low depth (template.nesting + 1)
      (.word "import" :: (template.lexemes ++ .word "as" :: .word target ::
        (contextLexemes false withContext ++ .blockEnd :: rest))) rest (importRule opening)
      (importAs origin template target withContext).Agrees := by
  apply (importRule_parsesOff_words free withContext (printable.expression_parsesOff rfl)).mono
  rintro _ ⟨_, found, agrees, rfl⟩
  exact congrArg (importAs _ · target withContext) agrees

theorem importNamesRule_parsesOff {template : Expr} (printable : template.Printable)
    {names : List ImportName} (nonempty : names ≠ [])
    (each : ∀ name ∈ names, ImportPrintable name) (withContext : Bool) :
    ParsesOff stream low depth (template.nesting + 1)
      (.word "from" :: (template.lexemes ++ .word "import" ::
        (Expr.separated (names.map importLexemes) ++
          (contextLexemes false withContext ++ .blockEnd :: rest)))) rest (importNamesRule opening)
      (importNames origin template names withContext).Agrees := by
  rcases @next_contextLexemes rest false withContext with ⟨notComma, notWord⟩
  apply ParsesOff.token rfl
  intro _
  apply (printable.expression_parsesOff rfl).bind (Nat.le_refl _)
  intro found agrees enough
  apply ParsesOff.token rfl
  intro _
  apply (ParsesOff.lift (importedNames_readsOff nonempty each notComma (notWord _ (by decide))
    (notWord _ (by decide)))).bind_free
  rintro names rfl
  apply (ParsesOff.lift (contextModifier_readsOff false withContext rfl)).bind_free
  rintro withContext rfl
  apply ParsesOff.blockEnd
  intro _
  exact ParsesOff.finish enough fun _ => congrArg (importNames _ · names withContext) agrees

theorem assignRule_parsesOff {statement : Parsing (Option Stmt)} {targets : List String}
    {value : Expr} (nonempty : targets ≠ [])
    (free : ∀ target ∈ targets, Expr.isFreeName target = true) (printable : value.Printable) :
    ParsesOff stream low depth (value.nesting + 1)
      (.word "set" :: (targetLexemes targets ++ .symbol "=" :: (value.lexemes ++
        .blockEnd :: rest))) rest (assignRule statement opening)
      (assign origin targets (some value) []).Agrees := by
  apply ParsesOff.token rfl
  intro _
  apply (ParsesOff.lift (assignTargets_readsOff nonempty free (by rw [next_cons]; decide))).bind_free
  rintro targets rfl
  apply (ParsesOff.lift (skipIf_readsOff rfl)).bind_free
  rintro _ rfl
  apply (printable.expression_parsesOff rfl).bind (Nat.le_refl _)
  intro found agrees enough
  apply ParsesOff.blockEnd
  intro _
  exact ParsesOff.finish enough fun _ => congrArg (assign _ targets · []) (congrArg some agrees)

theorem outputRule_parsesOff {expr : Expr} (printable : expr.Printable) :
    ParsesOff stream low depth (expr.nesting + 1)
      (Piece.lexemes (.output expr.lexemes) ++ rest) rest outputRule
      (output origin expr).Agrees := by
  rw [Piece.lexemes, List.cons_append, List.append_assoc, List.singleton_append]
  apply (ParsesOff.lift (expect_readsOff rfl _)).bind_free
  intro opening _
  apply (printable.expression_parsesOff rfl).bind (Nat.le_refl _)
  intro found agrees enough
  apply ParsesOff.token rfl
  intro _
  exact ParsesOff.finish enough fun _ => congrArg (output _) agrees

theorem simpleRule_parsesOff {word : String} {make : Origin → Stmt}
    (isSimple : (word, make) ∈ [("continue", continue_), ("break", break_), ("debug", debug)]) :
    ParsesOff stream low depth 0 (.word word :: .blockEnd :: rest) rest (simpleRule opening)
      (make origin).Agrees := by
  apply (ParsesOff.lift advance_readsOff).bind_free
  intro tag sameTag
  apply (ParsesOff.lift (originAt_readsOff opening.line)).bind_free
  intro found _
  simp only [List.mem_cons, List.not_mem_nil, Prod.mk.injEq, or_false] at isSimple
  rcases isSimple with ⟨rfl, rfl⟩ | ⟨rfl, rfl⟩ | ⟨rfl, rfl⟩
  all_goals
    have sameKind := congrArg Lexeme.kind sameTag
    rw [Token.kind_lexeme] at sameKind
    rw [sameKind]
    apply (Consumes.pure_eq _).bind_free
    rintro _ rfl
    apply ParsesOff.blockEnd
    intro _
    exact .pure (Nat.zero_le _) rfl

/-! ### Raw blocks -/

theorem plainStep_readsOff_done {levels : Nat} (notData : (next rest).kind ≠ .data)
    (content : String) :
    ReadsOff stream low levels 0 rest rest (plainStep content)
      fun result => ∃ last, result = .done last ∧ last = content := by
  apply current_readsOff.bind_free
  intro token sameToken
  rw [if_neg (by rw [← Token.kind_lexeme, sameToken]; exact notData)]
  exact .pure (Nat.zero_le _) ⟨_, rfl, rfl⟩

theorem plainText_readsOff {levels : Nat} (notData : (next rest).kind ≠ .data) (content : String) :
    ReadsOff stream low levels 0 ((if content = "" then [] else [⟨.data, content⟩]) ++ rest) rest
      plainText (· = content) := by
  rw [plainText_eq]
  by_cases isEmpty : content = ""
  · rw [if_pos isEmpty, isEmpty]
    exact .loop_done (plainStep_readsOff_done notData "")
  · have first : ReadsOff stream low levels 0 (⟨.data, content⟩ :: rest) rest (plainStep "")
        fun result => ∃ more, result = .yield more ∧ more = content := by
      apply current_readsOff.bind_free
      intro token sameToken
      rw [if_pos (by rw [← Token.kind_lexeme, sameToken]; rfl)]
      apply advance_readsOff.bind_free
      intro _ _
      refine .pure (Nat.zero_le _) ⟨_, rfl, ?_⟩
      rw [String.empty_append]
      exact congrArg Lexeme.text sameToken
    rw [if_neg isEmpty]
    apply ReadsOff.loop_yield first (Nat.lt_succ_self _) (Nat.zero_le _)
    rintro content rfl _
    exact .loop_done (plainStep_readsOff_done notData content)

/-- Plain text is read back from its raw block. -/
theorem rawRule_parsesOff (content : String) :
    ParsesOff stream low depth 0 (Piece.lexemes (.raw content) ++ rest) rest rawRule
      (text origin content).Agrees := by
  rw [Piece.lexemes, List.cons_append, List.append_assoc, List.singleton_append]
  apply ParsesOff.token rfl
  intro opening
  apply (ParsesOff.lift (plainText_readsOff (by rw [next_cons]; decide) content)).bind_free
  rintro content rfl
  apply (ParsesOff.lift (skipIf_readsOff rfl)).bind_free
  rintro _ rfl
  exact ParsesOff.finish (Nat.zero_le _) fun _ => rfl

/-! ### Tags with bodies -/

section

variable {statement : Parsing (Option Stmt)} {body : List Stmt}
  (reads : BodyReads statement stream low body)
  (ends : CallsEnd (∀ stmt ∈ body, stmt.hasBareCall = false) rest)

include reads ends

theorem assignRule_parsesOff_capture {target : String} (free : Expr.isFreeName target = true) :
    ParsesOff stream low depth (bodyNesting body)
      (.word "set" :: (targetLexemes [target] ++ .blockEnd :: (Piece.row (bodyPieces body) ++
        .blockBegin :: .word "endset" :: .blockEnd :: rest))) rest (assignRule statement opening)
      (assign origin [target] none body).Agrees := by
  apply ParsesOff.token rfl
  intro _
  apply (ParsesOff.lift (assignTargets_readsOff (List.cons_ne_nil _ _)
    (List.forall_mem_singleton.2 free) (by rw [next_cons]; decide))).bind_free
  rintro _ rfl
  apply (ParsesOff.lift (skipIf_readsOff_none (by rw [next_cons]; decide))).bind_free
  rintro _ rfl
  apply ParsesOff.blockEnd
  intro _
  apply (closedBody_parsesOff reads (by decide) (ends.closing (by decide) (by decide))).bind
    (Nat.le_refl _)
  intro found same enough
  exact ParsesOff.finish enough fun _ => congrArg (assign _ [target] none) same

theorem scopeRule_parsesOff {assignments : List (Named Expr)}
    (free : ∀ assignment ∈ assignments, Expr.isFreeName assignment.name = true)
    (printable : ∀ assignment ∈ assignments, assignment.value.Printable) :
    ParsesOff stream low depth (max (Expr.namedNesting assignments) (bodyNesting body))
      (.word "with" :: (Expr.separated (Expr.namedLexemes assignments) ++ .blockEnd ::
        (Piece.row (bodyPieces body) ++ .blockBegin :: .word "endwith" :: .blockEnd :: rest))) rest
      (scopeRule statement opening) (scope origin assignments body).Agrees := by
  apply ParsesOff.token rfl
  intro _
  apply (ParsesOff.withDeeper (assignments_readsOff free printable rfl)).bind (Nat.le_max_left _ _)
  intro found same enough
  apply ParsesOff.blockEnd
  intro _
  apply (closedBody_parsesOff reads (by decide) (ends.closing (by decide) (by decide))).bind
    (Nat.le_max_right _ _)
  intro foundBody sameBody enoughBody
  exact ParsesOff.finish (by omega) fun _ => congrArg₂ (scope _) same sameBody

theorem filteredRule_parsesOff {filters : List FilterCall} (nonempty : filters ≠ [])
    (each : ∀ filter ∈ filters, FilterPrintable filter) :
    ParsesOff stream low depth (max (filterNesting filters) (bodyNesting body))
      (.word "filter" :: ([Lexeme.symbol "|"].intercalate (filters.map filterLexemes) ++
        .blockEnd :: (Piece.row (bodyPieces body) ++
          .blockBegin :: .word "endfilter" :: .blockEnd :: rest))) rest
      (filteredRule statement opening) (filtered origin filters body).Agrees := by
  apply ParsesOff.tagWord rfl
  apply (ParsesOff.withDeeper (filterCalls_readsOff nonempty each
    (by rw [next_cons]; decide))).bind (Nat.le_max_left _ _)
  intro found same enough
  apply ParsesOff.blockEnd
  intro _
  apply (closedBody_parsesOff reads (by decide) (ends.closing (by decide) (by decide))).bind
    (Nat.le_max_right _ _)
  intro foundBody sameBody enoughBody
  exact ParsesOff.finish (by omega) fun _ => congrArg₂ (filtered _) same sameBody

theorem autoescapeRule_parsesOff {enabled : Expr} (printable : enabled.Printable) :
    ParsesOff stream low depth (max (enabled.nesting + 1) (bodyNesting body))
      (.word "autoescape" :: (enabled.lexemes ++ .blockEnd :: (Piece.row (bodyPieces body) ++
        .blockBegin :: .word "endautoescape" :: .blockEnd :: rest))) rest
      (autoescapeRule statement opening) (autoescape origin enabled body).Agrees := by
  apply ParsesOff.tagWord rfl
  apply (printable.expression_parsesOff rfl).bind (Nat.le_max_left _ _)
  intro found agrees enough
  apply ParsesOff.blockEnd
  intro _
  apply (closedBody_parsesOff reads (by decide) (ends.closing (by decide) (by decide))).bind
    (Nat.le_max_right _ _)
  intro foundBody sameBody enoughBody
  exact ParsesOff.finish (by omega) fun _ => congrArg₂ (autoescape _) agrees sameBody

theorem blockRule_parsesOff {name : String} (free : Expr.isFreeName name = true)
    (isScoped isRequired : Bool) :
    ParsesOff stream low depth (bodyNesting body)
      (.word "block" :: .word name :: (flagLexemes isScoped ["scoped"] ++
        (flagLexemes isRequired ["required"] ++ .blockEnd :: (Piece.row (bodyPieces body) ++
          .blockBegin :: .word "endblock" :: .blockEnd :: rest)))) rest
      (blockRule statement opening) (block origin name isScoped isRequired body).Agrees := by
  apply ParsesOff.token rfl
  intro _
  apply (ParsesOff.lift (identifier_readsOff free)).bind_free
  rintro name rfl
  apply (ParsesOff.lift (blockModifiers_readsOff isScoped isRequired rfl)).bind_free
  rintro _ rfl
  apply ParsesOff.blockEnd
  intro _
  apply (bodyUntil_parsesOff reads (by decide) (by decide)
    (ends.closing (by decide) (by decide))).bind (Nat.le_refl _)
  rintro ⟨found, _⟩ ⟨_, same⟩ enough
  apply (ParsesOff.lift current_readsOff).bind_free
  intro token sameToken
  rw [if_neg (by rw [← Token.kind_lexeme, sameToken]; exact Token.Kind.noConfusion)]
  apply ParsesOff.blockEnd
  intro _
  exact ParsesOff.finish enough fun _ => congrArg (block _ name isScoped isRequired) same

theorem macroRule_parsesOff {name : String} {params : List Parameter}
    (free : Expr.isFreeName name = true) (parameters : ParametersPrintable params) :
    ParsesOff stream low depth (max (parameterNesting params) (bodyNesting body))
      (.word "macro" :: .word name :: (signatureLexemes params ++ .blockEnd ::
        (Piece.row (bodyPieces body) ++ .blockBegin :: .word "endmacro" :: .blockEnd :: rest))) rest
      (macroRule statement opening)
      (macro_ origin name params body (bodyReads body "varargs") (bodyReads body "kwargs")).Agrees
      := by
  apply ParsesOff.token rfl
  intro _
  apply (ParsesOff.lift (identifier_readsOff free)).bind_free
  rintro name rfl
  apply (ParsesOff.withDeeper (signature_readsOff parameters)).bind (Nat.le_max_left _ _)
  intro found same enough
  apply ParsesOff.blockEnd
  intro _
  apply (bodyUntil_parsesOff reads (by decide) (by decide)
    (ends.closing (by decide) (by decide))).bind (Nat.le_max_right _ _)
  rintro ⟨foundBody, _⟩ ⟨_, sameBody⟩ enoughBody
  have noName : (next (.blockEnd :: rest)).word? ≠ some name :=
    show (none : Option String) ≠ some name from nofun
  apply (ParsesOff.lift (skipWord_readsOff_none noName)).bind_free
  rintro _ rfl
  apply ParsesOff.blockEnd
  intro _
  refine ParsesOff.finish (by omega) fun _ => ?_
  simp only [Agrees, forgetOrigins, same, sameBody, bodyReads_eq sameBody]

end

/-! ### Loops -/

section

variable {levels : Nat} {guard : Option Expr}

theorem guard_parsesOff (guarded : ∀ expr ∈ guard, expr.Printable)
    (ends : (next rest).kind.binds? = none) :
    ParsesOff stream low depth (Expr.optionalNesting guard)
      (Expr.optionalLexemes [] guard ++ rest) rest
      (if guard.isSome then some <$> expression else pure none) fun found =>
        Expr.forgetOptional found = Expr.forgetOptional guard := by
  cases guard with
  | none => exact .pure (Nat.zero_le _) rfl
  | some expr =>
      exact ((guarded expr rfl).expression_parsesOff ends).map fun _ agrees => congrArg some agrees

theorem skipFlag_readsOff {word : String} (isWord : (Lexeme.word word).word? = some word)
    (flag : Bool) (notWord : (next rest).word? ≠ some word) :
    ReadsOff stream low levels 0 (flagLexemes flag [word] ++ rest) rest (skipWord word)
      (· = flag) := by
  cases flag with
  | false => exact skipWord_readsOff_none notWord
  | true => exact skipWord_readsOff isWord

end

/-- A loop is read whatever the filter in it is. -/
theorem forRule_parsesOff_words {statement : Parsing (Option Stmt)} {targets : List String}
    {iter : Expr} {hasFilter : Bool} {words : List Lexeme} {isFilter : Option Expr → Prop}
    (isRecursive : Bool) {body elseBody : List Stmt}
    (nonempty : targets ≠ []) (free : ∀ target ∈ targets, Expr.isFreeName target = true)
    (iterated : iter.Printable) (noFilter : hasFilter = false → words = [])
    (filtered : ∀ ahead, ParsesOff stream low depth needed
      (words ++ (flagLexemes isRecursive ["recursive"] ++ .blockEnd :: ahead))
      (flagLexemes isRecursive ["recursive"] ++ .blockEnd :: ahead)
      (if hasFilter then some <$> expression else pure none) isFilter)
    (reads : BodyReads statement stream low body)
    (readsElse : BodyReads statement stream low elseBody)
    (ends : CallsEnd (∀ stmt ∈ body, stmt.hasBareCall = false) rest)
    (endsElse : CallsEnd (∀ stmt ∈ elseBody, stmt.hasBareCall = false) rest) :
    ParsesOff stream low depth
      (max (iter.nesting + Level.disjunction.enclosure iter.level + 1)
        (max needed (max (bodyNesting body) (bodyNesting elseBody))))
      (.word "for" :: (targetLexemes targets ++ .word "in" ::
        (Level.disjunction.enclose iter.level iter.lexemes ++
          (flagLexemes hasFilter ["if"] ++ (words ++ (flagLexemes isRecursive ["recursive"] ++
            .blockEnd :: (Piece.row (bodyPieces body) ++ (Piece.row (elseTag elseBody) ++
              (Piece.row (bodyPieces elseBody) ++
                .blockBegin :: .word "endfor" :: .blockEnd :: rest))))))))) rest
      (forRule statement opening) fun stmt => ∃ origin foundIter filter found foundElse,
        stmt = forLoop origin targets foundIter filter isRecursive found foundElse ∧
        iter.Agrees foundIter ∧ isFilter filter ∧ forgetBody found = forgetBody body ∧
        forgetBody foundElse = forgetBody elseBody := by
  have lastMember : lastEnder elseBody "endfor" ∈ ["endfor", "else"] := by
    unfold lastEnder
    split <;> decide
  have notIf (ahead : List Lexeme) :
      (next (flagLexemes isRecursive ["recursive"] ++ .blockEnd :: ahead)).kind ≠
        .keyword .if_ := by
    cases isRecursive <;> exact Token.Kind.noConfusion
  have stops (ahead : List Lexeme) : Level.disjunction.stops (next (flagLexemes hasFilter ["if"] ++
      (words ++ (flagLexemes isRecursive ["recursive"] ++ .blockEnd :: ahead)))).kind = true := by
    cases hasFilter with
    | true => rfl
    | false =>
        rw [noFilter rfl]
        cases isRecursive <;> rfl
  have skipped (ahead : List Lexeme) : ReadsOff stream low (maxDepth - depth) 0
      (flagLexemes hasFilter ["if"] ++
        (words ++ (flagLexemes isRecursive ["recursive"] ++ .blockEnd :: ahead)))
      (words ++ (flagLexemes isRecursive ["recursive"] ++ .blockEnd :: ahead))
      (skipIf (.keyword .if_)) (· = hasFilter) := by
    cases hasFilter with
    | true => exact skipIf_readsOff rfl
    | false =>
        rw [noFilter rfl]
        exact skipIf_readsOff_none (notIf ahead)
  rw [row_elseTag]
  apply ParsesOff.token rfl
  intro _
  apply (ParsesOff.lift (assignTargets_readsOff nonempty free (by rw [next_cons]; decide))).bind_free
  rintro targets rfl
  apply ParsesOff.token rfl
  intro _
  apply (iterated.unconditional_parsesOff (stops _)).bind (by omega)
  intro foundIter agrees enoughIter
  apply (ParsesOff.lift (skipped _)).bind_free
  rintro _ rfl
  apply (filtered _).bind_ite (by omega)
  intro filter found enoughFilter
  apply (ParsesOff.lift (skipFlag_readsOff rfl isRecursive (by rw [next_cons]; decide))).bind_free
  rintro isRecursive rfl
  apply ParsesOff.blockEnd
  intro _
  apply (bodyUntil_parsesOff reads lastMember (by decide)
    (ends.beforeElse readsElse.printable (by decide) (by decide))).bind (by omega)
  rintro ⟨foundBody, _⟩ ⟨rfl, same⟩ enough
  apply ParsesOff.blockEnd
  intro _
  apply (elseBody_parsesOff readsElse (by decide) (by decide) (by decide) endsElse).bind_ite
    (by omega)
  intro foundElse sameElse enoughElse
  exact ParsesOff.finish (by omega) fun origin =>
    ⟨origin, foundIter, filter, foundBody, foundElse, rfl, agrees, found, same, sameElse⟩

theorem forRule_parsesOff {statement : Parsing (Option Stmt)} {targets : List String} {iter : Expr}
    {guard : Option Expr} (isRecursive : Bool) {body elseBody : List Stmt}
    (nonempty : targets ≠ []) (free : ∀ target ∈ targets, Expr.isFreeName target = true)
    (iterated : iter.Printable) (guarded : ∀ expr ∈ guard, expr.Printable)
    (reads : BodyReads statement stream low body)
    (readsElse : BodyReads statement stream low elseBody)
    (ends : CallsEnd (∀ stmt ∈ body, stmt.hasBareCall = false) rest)
    (endsElse : CallsEnd (∀ stmt ∈ elseBody, stmt.hasBareCall = false) rest) :
    ParsesOff stream low depth
      (max (iter.nesting + Level.disjunction.enclosure iter.level + 1)
        (max (Expr.optionalNesting guard) (max (bodyNesting body) (bodyNesting elseBody))))
      (.word "for" :: (targetLexemes targets ++ .word "in" ::
        (Level.disjunction.enclose iter.level iter.lexemes ++
          (Expr.optionalLexemes [.word "if"] guard ++ (flagLexemes isRecursive ["recursive"] ++
            .blockEnd :: (Piece.row (bodyPieces body) ++ (Piece.row (elseTag elseBody) ++
              (Piece.row (bodyPieces elseBody) ++
                .blockBegin :: .word "endfor" :: .blockEnd :: rest)))))))) rest
      (forRule statement opening)
      (forLoop origin targets iter guard isRecursive body elseBody).Agrees := by
  have flagEnds (ahead : List Lexeme) :
      (next (flagLexemes isRecursive ["recursive"] ++ .blockEnd :: ahead)).kind.binds? = none := by
    cases isRecursive <;> rfl
  have sameGuard : Expr.optionalLexemes [.word "if"] guard =
      flagLexemes guard.isSome ["if"] ++ Expr.optionalLexemes [] guard := by
    cases guard <;> rfl
  have noGuard (isNone : guard.isSome = false) : Expr.optionalLexemes [] guard = [] := by
    cases guard with
    | none => rfl
    | some expr => cases isNone
  rw [sameGuard, List.append_assoc]
  apply (forRule_parsesOff_words isRecursive nonempty free iterated noGuard
    (fun ahead => guard_parsesOff guarded (flagEnds ahead)) reads readsElse ends endsElse).mono
  rintro _ ⟨_, _, _, _, _, rfl, agrees, sameFilter, same, sameElse⟩
  rw [Expr.Agrees] at agrees
  simp only [Agrees, forgetOrigins, agrees, sameFilter, same, sameElse]

/-! ### Choices -/

theorem choiceRule_parsesOff {statement : Parsing (Option Stmt)} {condition : Expr}
    {body elseBody : List Stmt} {elifs : List (Branch Stmt)} (first : condition.Printable)
    (conditions : ∀ branch ∈ elifs, branch.condition.Printable)
    (reads : BodyReads statement stream low body)
    (readsElifs : ∀ branch ∈ elifs, BodyReads statement stream low branch.body)
    (readsElse : BodyReads statement stream low elseBody)
    (ends : CallsEnd (∀ stmt ∈ body, stmt.hasBareCall = false) rest)
    (endsElifs : CallsEnd (∀ branch ∈ elifs, ∀ stmt ∈ branch.body, stmt.hasBareCall = false) rest)
    (endsElse : CallsEnd (∀ stmt ∈ elseBody, stmt.hasBareCall = false) rest) :
    ParsesOff stream low depth
      (max (condition.nesting + 1)
        (max (bodyNesting body) (max (branchNesting elifs) (bodyNesting elseBody))))
      (.word "if" :: (condition.lexemes ++ .blockEnd :: (Piece.row (bodyPieces body) ++
        (Piece.row (branchPieces elifs) ++ (Piece.row (elseTag elseBody) ++
          (Piece.row (bodyPieces elseBody) ++
            .blockBegin :: .word "endif" :: .blockEnd :: rest)))))) rest
      (choiceRule statement opening) (choice origin condition body elifs elseBody).Agrees := by
  have lastMember : lastEnder elseBody "endif" ∈ branchEnders ∧
      lastEnder elseBody "endif" ≠ "elif" := by
    unfold lastEnder
    split <;> decide
  rw [row_elseTag, row_branchPieces]
  apply ParsesOff.token rfl
  intro _
  apply (first.expression_parsesOff rfl).bind (by omega)
  intro foundCondition agrees enoughCondition
  apply ParsesOff.blockEnd
  intro _
  apply (bodyUntil_parsesOff reads (branchEnder_mem lastMember.1) (by decide)
    ((ends.beforeElse readsElse.printable (by decide) (by decide)).beforeBranches conditions
      fun branch isBranch => (readsElifs branch isBranch).printable)).bind (by omega)
  rintro ⟨found, _⟩ ⟨rfl, same⟩ enough
  apply (elifBranches_parsesOff conditions readsElifs lastMember.1 lastMember.2
    (endsElifs.beforeElse readsElse.printable (by decide) (by decide))).bind (by omega)
  rintro ⟨foundElifs, _⟩ ⟨rfl, sameElifs⟩ enoughElifs
  apply ParsesOff.blockEnd
  intro _
  apply (elseBody_parsesOff readsElse (by decide) (by decide) (by decide) endsElse).bind_ite
    (by omega)
  intro foundElse sameElse enoughElse
  refine ParsesOff.finish (by omega) fun _ => ?_
  rw [Expr.Agrees] at agrees
  simp only [Agrees, forgetOrigins, agrees, same, sameElifs, sameElse]

/-! ### Calls -/

section

variable {params : List Parameter} {call : Expr}

/-- The signature of a call tag is read back, also if it is left out. -/
theorem callSignature_parsesOff (parameters : ParametersPrintable params) (called : call.Printable)
    {token : Token}
    (sameToken : token.lexeme = next (callSignatureLexemes params call ++ (call.lexemes ++ rest))) :
    ParsesOff stream low depth (parameterNesting params)
      (callSignatureLexemes params call ++ (call.lexemes ++ rest)) (call.lexemes ++ rest)
      (if token.kind = .lparen then withDeeper signature else pure []) fun found =>
        found.map forgetParameter = params.map forgetParameter := by
  rw [← Token.kind_lexeme, sameToken]
  by_cases leftOut : params.isEmpty ∧ ¬call.lexemes.head?.any (·.kind = .lparen)
  · rcases called.starts.first with ⟨first, others, _, sameLexemes, _⟩
    have notParen : first.kind ≠ .lparen := by
      intro isParen
      apply leftOut.2
      rw [sameLexemes, List.head?_cons, Option.any_some]
      exact decide_eq_true isParen
    rw [callSignatureLexemes, if_pos leftOut, List.isEmpty_iff.1 leftOut.1, sameLexemes]
    rw [List.nil_append, List.cons_append, next_cons, if_neg notParen]
    exact .pure (Nat.zero_le _) rfl
  · rw [callSignatureLexemes, if_neg leftOut]
    exact .withDeeper (signature_readsOff parameters)

omit [Limits] in
/-- Reads what is left of a call once its tag has been read. -/
def callTail (statement : Parsing (Option Stmt)) (opening : Token) (call : Expr)
    (params : List Parameter) : Parsing Stmt := do
  if ← hasEndcall then
    let body ← closedBody statement "call" opening "endcall"
    return .callBlock (← originOf opening) call params body
  else if params.isEmpty then return .bareCall (← originOf opening) call
  else throw (.unclosed "call" ["endcall"] opening.span)

variable {statement : Parsing (Option Stmt)} {needed : Nat} {ahead : List Lexeme}

theorem callRule_parsesOff {good : Stmt → Prop} (parameters : ParametersPrintable params)
    (called : call.Printable) (isCall : call.isCall = true)
    (fits : max (parameterNesting params) (call.nesting + 1) ≤ needed)
    (later : ∀ found foundParams, call.Agrees found →
      foundParams.map forgetParameter = params.map forgetParameter →
      max (parameterNesting params) (call.nesting + 1) ≤ maxDepth - depth →
      ParsesOff stream low depth needed ahead rest (callTail statement opening found foundParams)
        good) :
    ParsesOff stream low depth needed
      (.word "call" :: (callSignatureLexemes params call ++ (call.lexemes ++ .blockEnd :: ahead)))
      rest (callRule statement opening) good := by
  apply ParsesOff.token rfl
  intro _
  apply (ParsesOff.lift current_readsOff).bind_free
  intro token sameToken
  apply (callSignature_parsesOff parameters called sameToken).bind_ite (by omega)
  intro foundParams same enough
  apply (ParsesOff.lift current_readsOff).bind_free
  intro callToken _
  apply (called.expression_parsesOff rfl).bind (by omega)
  intro found agrees enoughCall
  have isCallFound : found.isCall = true := by
    rw [Expr.Agrees] at agrees
    rw [← Expr.isCall_forgetOrigins, agrees, Expr.isCall_forgetOrigins, isCall]
  rw [isCallFound]
  apply ParsesOff.blockEnd
  intro _
  exact later found foundParams agrees same (by omega)

/-- Without an `endcall` tag ahead, a call tag has no body. -/
theorem callRule_parsesOff_bare (called : call.Printable) (isCall : call.isCall = true)
    (noEndcall : endcallAhead 0 rest = false) :
    ParsesOff stream low depth (call.nesting + 1)
      (.word "call" :: (callSignatureLexemes [] call ++ (call.lexemes ++ .blockEnd :: rest))) rest
      (callRule statement opening) (bareCall origin call).Agrees := by
  apply callRule_parsesOff parametersPrintable_nil called isCall
    (Nat.max_le.2 ⟨Nat.zero_le _, Nat.le_refl _⟩)
  intro found foundParams agrees same enough
  obtain rfl : foundParams = [] := by simpa using same
  apply (ParsesOff.lift hasEndcall_readsOff).bind_free
  rintro _ rfl
  rw [noEndcall]
  exact ParsesOff.finish (Nat.max_le.1 enough).2 fun _ => congrArg (bareCall _) agrees

omit [Limits] in
/-- The `endcall` tag of a call block is found, since no call tag in its body is left open. -/
theorem endcallAhead_body {body : List Stmt} (each : ∀ stmt ∈ body, stmt.Printable)
    (noBareCall : ∀ stmt ∈ body, stmt.hasBareCall = false) :
    endcallAhead 0 (Piece.row (bodyPieces body) ++
      .blockBegin :: .word "endcall" :: .blockEnd :: rest) = true := by
  rcases callsCounted_of_printable each with ⟨count, opens, none⟩
  rw [opens, none noBareCall]
  rfl

theorem callRule_parsesOff_block {body : List Stmt} (parameters : ParametersPrintable params)
    (called : call.Printable) (isCall : call.isCall = true)
    (reads : BodyReads statement stream low body)
    (noBareCall : ∀ stmt ∈ body, stmt.hasBareCall = false) :
    ParsesOff stream low depth
      (max (parameterNesting params) (max (call.nesting + 1) (bodyNesting body)))
      (.word "call" :: (callSignatureLexemes params call ++ (call.lexemes ++ .blockEnd ::
        (Piece.row (bodyPieces body) ++ .blockBegin :: .word "endcall" :: .blockEnd :: rest)))) rest
      (callRule statement opening) (callBlock origin call params body).Agrees := by
  apply callRule_parsesOff parameters called isCall (by omega)
  intro found foundParams agrees same enough
  apply (ParsesOff.lift hasEndcall_readsOff).bind_free
  rintro _ rfl
  rw [endcallAhead_body reads.printable noBareCall]
  apply (closedBody_parsesOff reads (by decide) (Or.inl noBareCall)).bind (by omega)
  intro foundBody sameBody enoughBody
  refine ParsesOff.finish (by omega) fun _ => ?_
  rw [Expr.Agrees] at agrees
  simp only [Agrees, forgetOrigins, agrees, same, sameBody]

end

/-! ### Any statement -/

section

variable {registry : Registry} {place : Place} {needed : Nat} {ahead : List Lexeme}

/-- Inside of a statement, the rule for any statement is the same beyond its first token. -/
theorem beyond_readsBack {stmt : Stmt} (inside : place.cursor < stream.size)
    (reads : ReadsBack (parse registry) stream (place.cursor + 1) stmt) :
    ReadsBack (beyond registry stream place) stream (place.cursor + 1) stmt := by
  intro depth rest ends inner atInner
  have same : beyond registry stream place stream inner = parse registry stream inner :=
    if_pos ⟨atInner.at_.later, inside⟩
  rw [same]
  exact reads depth rest ends inner atInner

/-- A block tag is read by the rule for its word. -/
theorem parse_eq_of_tag {word : String} {rule : Token → Parsing Stmt}
    (isAhead : stream.Ahead place.cursor (.blockBegin :: .word word :: ahead))
    (isWord : (Lexeme.word word).word? = some word)
    (isRule : (tagRules (beyond registry stream place)).lookup word = some rule) :
    parse registry stream place = (some <$> rule (stream.get place.cursor) : Parsing (Option Stmt))
      stream { place with cursor := place.cursor + 1 } := by
  have isTag : (stream.get place.cursor).kind = .blockBegin := isAhead.stands.kind
  have sameWord : (stream.get (place.cursor + 1)).word? = some word := by
    rw [← Token.word?_lexeme, isAhead.tail.get]
    exact isWord
  rw [parse_eq]
  refine (bind_eq_of_ok (lift_current_eq stream place)).trans ?_
  rw [isTag]
  refine (bind_eq_of_ok (lift_eq_of_ok (advance_eq_of_stands isAhead.stands))).trans ?_
  refine (bind_eq_of_ok (lift_current_eq stream _)).trans ?_
  dsimp only
  rw [sameWord]
  dsimp only
  rw [isRule]

/-- A print tag is read by its rule, one construct deeper. -/
theorem parse_eq_of_output (isOutput : (stream.get place.cursor).kind = .variableBegin) :
    parse registry stream place =
      (some <$> nested "output" outputRule : Parsing (Option Stmt)) stream place := by
  rw [parse_eq]
  refine (bind_eq_of_ok (lift_current_eq stream place)).trans ?_
  rw [isOutput]

theorem parse_eq_of_raw (isRaw : (stream.get place.cursor).kind = .rawBegin) :
    parse registry stream place = (some <$> rawRule : Parsing (Option Stmt)) stream place := by
  rw [parse_eq]
  refine (bind_eq_of_ok (lift_current_eq stream place)).trans ?_
  rw [isRaw]

variable {stmt : Stmt}

/-- A statement is read back by the rule for its tag. -/
theorem readsBack_of_rule {word : String} {arguments : List Lexeme} {others : List Piece}
    {rule : Parsing (Option Stmt) → Token → Parsing Stmt}
    (inner : ∀ body ∈ stmt.bodies, ∀ child ∈ body, ∀ low,
      ReadsBack (parse registry) stream low child)
    (samePieces : stmt.pieces = .tag word arguments :: others)
    (isWord : (Lexeme.word word).word? = some word)
    (isRule : ∀ statement, (tagRules statement).lookup word = some (rule statement))
    (parses : ∀ statement low depth rest opening,
      (∀ body ∈ stmt.bodies, ∀ child ∈ body, ReadsBack statement stream low child) →
      CallsEnd (stmt.hasBareCall = false) rest →
      ParsesOff stream low depth stmt.nesting
        (.word word :: (arguments ++ .blockEnd :: (Piece.row others ++ rest))) rest
        (rule statement opening) stmt.Agrees) :
    ReadsBack (parse registry) stream low stmt := by
  rintro depth rest ends place ⟨⟨isAhead, later⟩, rfl⟩
  have sameRow : Piece.row stmt.pieces ++ rest =
      .blockBegin :: .word word :: (arguments ++ .blockEnd :: (Piece.row others ++ rest)) := by
    simp [samePieces, Piece.lexemes]
  rw [sameRow] at isAhead
  have inside : place.cursor < stream.size := Nat.lt_of_succ_lt isAhead.stands.inside
  have reads := parses (beyond registry stream place) (place.cursor + 1) place.depth rest
    (stream.get place.cursor)
    (fun body isBody child isChild => beyond_readsBack inside (inner body isBody child isChild _))
    ends { place with cursor := place.cursor + 1 } ⟨⟨isAhead.tail, Nat.le_refl _⟩, rfl⟩
  rw [parse_eq_of_tag isAhead isWord (isRule _)]
  apply reads.map
  rintro parsed after ⟨enough, ⟨⟨isRest, further⟩, sameDepth⟩, agrees⟩
  exact ⟨enough, ⟨⟨isRest, by omega⟩, sameDepth⟩, parsed, rfl, agrees⟩

/-- Most rules go one construct deeper. -/
theorem readsBack_of_nested {word : String} {arguments : List Lexeme} {others : List Piece}
    {rule : Parsing (Option Stmt) → Token → Parsing Stmt}
    (inner : ∀ body ∈ stmt.bodies, ∀ child ∈ body, ∀ low,
      ReadsBack (parse registry) stream low child)
    (samePieces : stmt.pieces = .tag word arguments :: others)
    (isWord : (Lexeme.word word).word? = some word)
    (isRule : ∀ statement, (tagRules statement).lookup word =
      some fun opening => nested word (rule statement opening))
    (sameNesting : stmt.nesting = needed + 1)
    (parses : ∀ statement low depth rest opening,
      (∀ body ∈ stmt.bodies, ∀ child ∈ body, ReadsBack statement stream low child) →
      CallsEnd (stmt.hasBareCall = false) rest →
      ParsesOff stream low depth needed
        (.word word :: (arguments ++ .blockEnd :: (Piece.row others ++ rest))) rest
        (rule statement opening) stmt.Agrees) :
    ReadsBack (parse registry) stream low stmt := by
  refine readsBack_of_rule inner samePieces isWord isRule ?_
  intro statement low depth rest opening reads ends
  rw [sameNesting]
  exact (parses statement low (depth + 1) rest opening reads ends).nested word

omit [Limits] in
theorem row_ender (ender : String) (rest : List Lexeme) :
    Piece.row [.tag ender []] ++ rest = .blockBegin :: .word ender :: .blockEnd :: rest := rfl

/-- A written statement is read back if the statements inside of it are. -/
theorem Printable.readsBack_of_inner (printable : stmt.Printable)
    (inner : ∀ body ∈ stmt.bodies, ∀ child ∈ body, ∀ low,
      ReadsBack (parse registry) stream low child) :
    ReadsBack (parse registry) stream low stmt := by
  cases printable with
  | @text origin content isRaw =>
      intro depth rest _ place atPlace
      rw [pieces, Piece.row_cons, Piece.row_nil, List.append_nil] at atPlace
      rw [parse_eq_of_raw (congrArg Lexeme.kind atPlace.at_.ahead.get)]
      exact (rawRule_parsesOff content).map (fun parsed agrees => ⟨parsed, rfl, agrees⟩) place
        atPlace
  | output origin printed =>
      intro depth rest _ place atPlace
      rw [pieces, Piece.row_cons, Piece.row_nil, List.append_nil] at atPlace
      rw [parse_eq_of_output (congrArg Lexeme.kind atPlace.at_.ahead.get)]
      exact ((outputRule_parsesOff printed).nested "output").map
        (fun parsed agrees => ⟨parsed, rfl, agrees⟩) place atPlace
  | forLoop origin isRecursive nonempty free iterated guarded each eachElse =>
      refine readsBack_of_nested inner rfl rfl (fun _ => rfl) rfl ?_
      intro statement low depth rest opening reads ends
      simp only [Piece.row_append, row_ender, List.append_assoc, List.cons_append]
      exact forRule_parsesOff isRecursive nonempty free iterated guarded
        ⟨each, reads _ (by simp [bodies])⟩ ⟨eachElse, reads _ (by simp [bodies])⟩
        (ends.inner (by simp [bodies])) (ends.inner (by simp [bodies]))
  | choice origin first each conditions eachElifs eachElse =>
      refine readsBack_of_nested inner rfl rfl (fun _ => rfl) rfl ?_
      intro statement low depth rest opening reads ends
      simp only [Piece.row_append, row_ender, List.append_assoc]
      refine choiceRule_parsesOff first conditions ⟨each, reads _ (by simp [bodies])⟩ ?_
        ⟨eachElse, reads _ (by simp [bodies])⟩ (ends.inner (by simp [bodies])) ?_
        (ends.inner (by simp [bodies]))
      · intro branch isBranch
        refine ⟨eachElifs branch isBranch, reads _ ?_⟩
        simp only [bodies, List.mem_cons, List.mem_append, List.mem_map]
        exact Or.inr (Or.inl ⟨branch, isBranch, rfl⟩)
      · apply ends.mono
        intro noBareCall branch isBranch child
        apply hasBareCall_eq_false noBareCall
        simp only [bodies, List.mem_cons, List.mem_append, List.mem_map]
        exact Or.inr (Or.inl ⟨branch, isBranch, rfl⟩)
  | assign origin nonempty free assigned =>
      refine readsBack_of_nested inner rfl rfl (fun _ => rfl) (congrArg (· + 1) (Nat.max_zero _)) ?_
      intro statement low depth rest opening _ _
      simp only [List.append_assoc, List.cons_append]
      exact assignRule_parsesOff nonempty free assigned
  | capture origin free each =>
      refine readsBack_of_nested inner rfl rfl (fun _ => rfl) (congrArg (· + 1) (Nat.zero_max _)) ?_
      intro statement low depth rest opening reads ends
      simp only [Piece.row_append, row_ender, List.append_assoc]
      exact assignRule_parsesOff_capture ⟨each, reads _ (by simp [bodies])⟩
        (ends.inner (by simp [bodies])) free
  | block origin isScoped isRequired free each =>
      refine readsBack_of_nested inner rfl rfl (fun _ => rfl) rfl ?_
      intro statement low depth rest opening reads ends
      simp only [Piece.row_append, row_ender, List.append_assoc, List.cons_append]
      exact blockRule_parsesOff ⟨each, reads _ (by simp [bodies])⟩ (ends.inner (by simp [bodies]))
        free isScoped isRequired
  | parent origin extended =>
      refine readsBack_of_nested inner rfl rfl (fun _ => rfl) rfl ?_
      intro _ low depth rest opening _ _
      exact parentRule_parsesOff extended
  | inclusion origin withContext ignoreMissing included =>
      refine readsBack_of_nested inner rfl rfl (fun _ => rfl) rfl ?_
      intro _ low depth rest opening _ _
      simp only [List.append_assoc]
      exact inclusionRule_parsesOff included withContext ignoreMissing
  | importAs origin withContext imported free =>
      refine readsBack_of_nested inner rfl rfl (fun _ => rfl) rfl ?_
      intro _ low depth rest opening _ _
      simp only [List.append_assoc]
      exact importRule_parsesOff imported free withContext
  | importNames origin withContext imported nonempty eachName =>
      refine readsBack_of_nested inner rfl rfl (fun _ => rfl) rfl ?_
      intro _ low depth rest opening _ _
      simp only [List.append_assoc, List.cons_append]
      exact importNamesRule_parsesOff imported nonempty eachName withContext
  | macro_ origin free parameters each varargs kwargs =>
      subst varargs kwargs
      refine readsBack_of_nested inner rfl rfl (fun _ => rfl) rfl ?_
      intro statement low depth rest opening reads ends
      simp only [Piece.row_append, row_ender, List.append_assoc, List.cons_append]
      exact macroRule_parsesOff ⟨each, reads _ (by simp [bodies])⟩ (ends.inner (by simp [bodies]))
        free parameters
  | bareCall origin called isCall =>
      refine readsBack_of_nested inner rfl rfl (fun _ => rfl) rfl ?_
      intro statement low depth rest opening _ ends
      rcases ends with noBareCall | noEndcall
      · simp [hasBareCall_eq, isBareCall] at noBareCall
      · simp only [List.append_assoc]
        exact callRule_parsesOff_bare called isCall (noEndcall 0)
  | callBlock origin called isCall parameters each noBareCall =>
      refine readsBack_of_nested inner rfl rfl (fun _ => rfl) rfl ?_
      intro statement low depth rest opening reads _
      simp only [Piece.row_append, row_ender, List.append_assoc]
      exact callRule_parsesOff_block parameters called isCall ⟨each, reads _ (by simp [bodies])⟩
        noBareCall
  | scope origin free assigned each =>
      refine readsBack_of_nested inner rfl rfl (fun _ => rfl) rfl ?_
      intro statement low depth rest opening reads ends
      simp only [Piece.row_append, row_ender, List.append_assoc]
      exact scopeRule_parsesOff ⟨each, reads _ (by simp [bodies])⟩ (ends.inner (by simp [bodies]))
        free assigned
  | filtered origin nonempty eachFilter each =>
      refine readsBack_of_nested inner rfl rfl (fun _ => rfl) rfl ?_
      intro statement low depth rest opening reads ends
      simp only [Piece.row_append, row_ender, List.append_assoc]
      exact filteredRule_parsesOff ⟨each, reads _ (by simp [bodies])⟩
        (ends.inner (by simp [bodies])) nonempty eachFilter
  | autoescape origin switch each =>
      refine readsBack_of_nested inner rfl rfl (fun _ => rfl) rfl ?_
      intro statement low depth rest opening reads ends
      simp only [Piece.row_append, row_ender, List.append_assoc]
      exact autoescapeRule_parsesOff ⟨each, reads _ (by simp [bodies])⟩
        (ends.inner (by simp [bodies])) switch
  | evaluate origin evaluated =>
      refine readsBack_of_nested inner rfl rfl (fun _ => rfl) rfl ?_
      intro _ low depth rest opening _ _
      exact evaluateRule_parsesOff evaluated
  | debug origin | continue_ origin | break_ origin =>
      refine readsBack_of_rule inner rfl rfl (fun _ => rfl) ?_
      intro _ low depth rest opening _ _
      exact simpleRule_parsesOff (by simp)

omit [Limits] in
theorem Printable.of_mem_bodies (printable : stmt.Printable) {body : List Stmt}
    (isBody : body ∈ stmt.bodies) {child : Stmt} (isChild : child ∈ body) : child.Printable := by
  cases printable with
  | forLoop _ _ _ _ _ _ each eachElse =>
      simp only [bodies, List.mem_cons, List.not_mem_nil, or_false] at isBody
      rcases isBody with rfl | rfl
      · exact each child isChild
      · exact eachElse child isChild
  | choice _ _ each _ eachElifs eachElse =>
      simp only [bodies, List.mem_cons, List.mem_append, List.mem_map, List.not_mem_nil,
        or_false] at isBody
      rcases isBody with rfl | ⟨branch, isBranch, rfl⟩ | rfl
      · exact each child isChild
      · exact eachElifs branch isBranch child isChild
      · exact eachElse child isChild
  | assign =>
      rw [List.mem_singleton.1 isBody] at isChild
      exact absurd isChild List.not_mem_nil
  | capture _ _ each | block _ _ _ _ each | macro_ _ _ _ each | callBlock _ _ _ _ each
  | scope _ _ _ each | filtered _ _ _ each | autoescape _ _ each =>
      rw [List.mem_singleton.1 isBody] at isChild
      exact each child isChild
  | _ => exact absurd isBody List.not_mem_nil

end

/-- The rule for any statement reads every written statement back. -/
theorem Printable.readsBack {registry : Registry} {stmt : Stmt} (printable : stmt.Printable)
    (low : Nat) : ReadsBack (parse registry) stream low stmt :=
  printable.readsBack_of_inner fun _ isBody _ isChild low =>
    (printable.of_mem_bodies isBody isChild).readsBack low
termination_by stmt
decreasing_by exact sizeOf_lt_of_mem_bodies isBody isChild

end Stencil.Stmt

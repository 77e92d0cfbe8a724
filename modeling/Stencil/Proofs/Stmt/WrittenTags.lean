import Stencil.Proofs.Expr.RoundTrip
import Stencil.Proofs.Parse.Consuming
import Stencil.Proofs.Stmt.Printing
import Stencil.Proofs.Stmt.Steps
import Stencil.Stmt.Header

/-!
# What is written in tags is read back

The parts of a written tag, read off one by one: expressions, targets, modifiers, parameters,
assignments, filters and imported names. A part ends where the next token does not go on with it,
and each of them needs as many levels of nesting as the deepest expression in it.
-/

namespace Stencil

open Reading Parsing Stencil.Expr

variable {stream : TokenStream} {low levels depth : Nat} {rest : List Lexeme} {expr : Expr}

theorem intercalate_map_cons {ι : Type} (between : Lexeme) (text : ι → List Lexeme) (item : ι)
    (items : List ι) : [between].intercalate ((item :: items).map text) =
      text item ++ items.flatMap fun item => between :: text item := by
  rw [List.map_cons, intercalate_cons_eq_append, List.flatMap_map]

/-- After an item comes what stands between two of them, or what follows the last one. -/
theorem next_flatMap {ι : Type} (between : Lexeme) (text : ι → List Lexeme) (items : List ι)
    (rest : List Lexeme) :
    Lexeme.next (items.flatMap (fun item => between :: text item) ++ rest) = between ∨
      Lexeme.next (items.flatMap (fun item => between :: text item) ++ rest) =
        Lexeme.next rest := by
  cases items with
  | nil => exact Or.inr rfl
  | cons item items => exact Or.inl rfl

/-! ### Expressions -/

variable [Limits]

namespace Expr.Printable

theorem conditional_readsOff (printable : expr.Printable)
    (ends : (Lexeme.next rest).kind.binds? = none) :
    ReadsOff stream low levels (expr.nesting + 1) (expr.lexemes ++ rest) rest
      (deeper levels).conditional expr.Agrees := by
  apply ReadsOff.of_takes
  intro start shows sameNext
  apply printable.readBack.takes_conditional shows
  rw [← Token.kind_lexeme, sameNext]
  exact ends

theorem unconditional_readsOff (printable : expr.Printable)
    (ends : Level.disjunction.stops (Lexeme.next rest).kind = true) :
    ReadsOff stream low levels (expr.nesting + Level.disjunction.enclosure expr.level + 1)
      (Level.disjunction.enclose expr.level expr.lexemes ++ rest) rest
      (parseUnconditional levels) expr.Agrees := by
  apply ReadsOff.of_takes
  intro start shows sameNext
  rw [← sameNext] at ends
  cases levels with
  | zero => exact ⟨fun enough => absurd enough (by omega), fun _ => ⟨_, _, rfl⟩⟩
  | succ levels =>
      have takes := printable.readBack.accepts_at .disjunction levels stream start shows ends
      exact ⟨fun enough => takes.enough (by omega), fun tooFew => takes.tooFew (by omega)⟩

theorem expression_parsesOff (printable : expr.Printable)
    (ends : (Lexeme.next rest).kind.binds? = none) :
    ParsesOff stream low depth (expr.nesting + 1) (expr.lexemes ++ rest) rest expression
      expr.Agrees := by
  change ParsesOff _ _ _ _ _ _ (withDeeper Deeper.conditional) _
  exact .withDeeper (printable.conditional_readsOff ends)

theorem unconditional_parsesOff (printable : expr.Printable)
    (ends : Level.disjunction.stops (Lexeme.next rest).kind = true) :
    ParsesOff stream low depth (expr.nesting + Level.disjunction.enclosure expr.level + 1)
      (Level.disjunction.enclose expr.level expr.lexemes ++ rest) rest unconditional
      expr.Agrees := by
  rintro place ⟨isAt, rfl⟩
  exact ParsesOff.lift (printable.unconditional_readsOff ends) place ⟨isAt, rfl⟩

end Expr.Printable

namespace Stmt

/-! ### Names and words -/

/-- Names are read up to a token that is no comma. -/
theorem assignTargets_readsOff {targets : List String} (nonempty : targets ≠ [])
    (free : ∀ target ∈ targets, isFreeName target = true)
    (notComma : (Lexeme.next rest).kind ≠ .comma) :
    ReadsOff stream low levels 0 (targetLexemes targets ++ rest) rest assignTargets
      (· = targets) := by
  rcases List.exists_cons_of_ne_nil nonempty with ⟨first, others, rfl⟩
  rw [targetLexemes, separated, intercalate_map_cons, List.append_assoc]
  apply (skipIf_readsOff_none ?_).bind_free
  · rintro _ rfl
    apply (identifier_readsOff (free first List.mem_cons_self)).bind_free
    rintro first rfl
    refine Consumes.bind_free (ReadsOff.loop_each_free
      (fun before targets => targets = first :: before) ?_ rfl ?_ ?_) ?_
    · exact fun _ _ => List.cons_ne_nil _ _
    · rintro before target after _ split rfl
      apply (skipIf_readsOff rfl).bind_free
      rintro _ rfl
      apply current_readsOff.bind_free
      intro token sameToken
      have isFree : isFreeName target = true := free target (by simp [split])
      have isName : token.kind = .name := by
        rw [← Token.kind_lexeme, sameToken]
        exact wordKind_of_isFreeName isFree
      rw [if_pos isName]
      apply (identifier_readsOff isFree).bind_free
      rintro _ rfl
      exact .pure (Nat.zero_le _) ⟨_, rfl, rfl⟩
    · rintro _ rfl
      apply (skipIf_readsOff_none notComma).bind_free
      rintro _ rfl
      exact .pure_eq _
    · rintro _ rfl
      exact .pure_eq _
  · rw [List.singleton_append, Lexeme.next_cons, Lexeme.word,
      wordKind_of_isFreeName (free first List.mem_cons_self)]
    exact Token.Kind.noConfusion

omit [Limits] in
/-- The context modifier that stands at the start of the tokens ahead. -/
def contextAhead? (ahead : List Lexeme) : Option Bool :=
  if (Lexeme.next ahead.tail).word? = some "context" then
    if (Lexeme.next ahead).word? = some "with" then some true
    else if (Lexeme.next ahead).word? = some "without" then some false
    else none
  else none

theorem contextModifier?_readsOff {ahead : List Lexeme} :
    ReadsOff stream low levels 0 ahead ahead contextModifier? (· = contextAhead? ahead) := by
  apply current_readsOff.bind_free
  intro token sameToken
  apply peek_readsOff.bind_free
  intro second sameSecond
  simp only [isWord_iff sameToken, isWord_iff sameSecond]
  unfold contextAhead?
  by_cases isContext : (Lexeme.next ahead.tail).word? = some "context"
  · by_cases isWith : (Lexeme.next ahead).word? = some "with"
    · simp only [isContext, isWith, and_self, if_true]
      exact .pure_eq _
    · by_cases isWithout : (Lexeme.next ahead).word? = some "without"
      · simp only [isContext, isWithout, and_self, if_true]
        exact .pure_eq _
      · simp only [isContext, isWith, isWithout, false_and, if_false, if_true]
        exact .pure_eq _
  · simp only [isContext, and_false, if_false]
    exact .pure_eq _

omit [Limits] in
theorem contextAhead?_eq_none {ahead : List Lexeme} (noWord : (Lexeme.next ahead).word? = none) :
    contextAhead? ahead = none := by
  simp [contextAhead?, noWord]

theorem contextModifier_readsOff (default withContext : Bool)
    (ends : (Lexeme.next rest).word? = none) :
    ReadsOff stream low levels 0 (contextLexemes default withContext ++ rest) rest
      (contextModifier default) (· = withContext) := by
  apply contextModifier?_readsOff.bind_free
  rintro _ rfl
  by_cases isDefault : withContext = default
  · simp only [contextLexemes, isDefault, if_true, List.nil_append, contextAhead?_eq_none ends]
    exact .pure_eq _
  · have found : contextAhead? (contextLexemes default withContext ++ rest) = some withContext := by
      rw [contextLexemes, if_neg isDefault]
      cases withContext <;> rfl
    rw [found, contextLexemes, if_neg isDefault]
    apply advance_readsOff.bind_free
    intro _ _
    apply advance_readsOff.bind_free
    intro _ _
    exact .pure_eq _

theorem modifierStep_readsOff_scoped (isRequired : Bool) :
    ReadsOff stream low levels 0 (.word "scoped" :: rest) rest (modifierStep (false, isRequired))
      fun result => ∃ more, result = .yield more ∧ more = (true, isRequired) := by
  apply (skipWord_readsOff rfl).bind_free
  rintro _ rfl
  exact .pure (Nat.zero_le _) ⟨_, rfl, rfl⟩

theorem modifierStep_readsOff_required (isScoped : Bool) :
    ReadsOff stream low levels 0 (.word "required" :: rest) rest (modifierStep (isScoped, false))
      fun result => ∃ more, result = .yield more ∧ more = (isScoped, true) := by
  apply (skipWord_readsOff_none (by rw [Lexeme.next_cons]; decide)).bind_free
  rintro _ rfl
  apply (skipWord_readsOff rfl).bind_free
  rintro _ rfl
  exact .pure (Nat.zero_le _) ⟨_, rfl, rfl⟩

theorem modifierStep_readsOff_done (ends : (Lexeme.next rest).word? = none)
    (modifiers : Bool × Bool) :
    ReadsOff stream low levels 0 rest rest (modifierStep modifiers)
      fun result => ∃ last, result = .done last ∧ last = modifiers := by
  apply (skipWord_readsOff_none (by simp [ends])).bind_free
  rintro _ rfl
  apply (skipWord_readsOff_none (by simp [ends])).bind_free
  rintro _ rfl
  exact .pure (Nat.zero_le _) ⟨_, rfl, rfl⟩

/-- The modifiers of a block are read up to the end of the tag. -/
theorem blockModifiers_readsOff (isScoped isRequired : Bool)
    (ends : (Lexeme.next rest).word? = none) :
    ReadsOff stream low levels 0
      (flagLexemes isScoped ["scoped"] ++ (flagLexemes isRequired ["required"] ++ rest)) rest
      blockModifiers (· = (isScoped, isRequired)) := by
  rw [blockModifiers_eq]
  have required : ReadsOff stream low levels 0 (flagLexemes isRequired ["required"] ++ rest) rest
      (Reading.loop modifierStep (isScoped, false)) (· = (isScoped, isRequired)) := by
    cases isRequired with
    | false => exact .loop_done (modifierStep_readsOff_done ends _)
    | true =>
        apply ReadsOff.loop_yield (modifierStep_readsOff_required isScoped)
          (Nat.lt_succ_self _) (Nat.zero_le _)
        rintro _ rfl _
        exact .loop_done (modifierStep_readsOff_done ends _)
  cases isScoped with
  | false => exact required
  | true =>
      apply ReadsOff.loop_yield (modifierStep_readsOff_scoped false) (Nat.lt_succ_self _)
        (Nat.zero_le _)
      rintro _ rfl _
      exact required

/-! ### Imported names -/

theorem importName_readsOff {imported : ImportName} (printable : ImportPrintable imported)
    (ends : (Lexeme.next rest).word? ≠ some "as") :
    ReadsOff stream low levels 0 (importLexemes imported ++ rest) rest importName
      (· = imported) := by
  rcases imported with ⟨name, target⟩
  apply current_readsOff.bind_free
  intro token _
  apply (identifier_readsOff printable.free).bind_free
  rintro name rfl
  rw [if_neg printable.isPublic]
  dsimp only
  cases target with
  | none =>
      apply (skipWord_readsOff_none ends).bind_free
      rintro _ rfl
      apply (Consumes.pure_eq none).bind_free
      rintro _ rfl
      exact .pure_eq _
  | some target =>
      apply (skipWord_readsOff rfl).bind_free
      rintro _ rfl
      apply (Consumes.map_eq (identifier_readsOff (printable.freeTarget target rfl))).bind_free
      rintro _ rfl
      exact .pure_eq _

omit [Limits] in
/-- A name is not taken for a context modifier, even if it is `without`. -/
theorem contextAhead?_importLexemes {imported : ImportName} (printable : ImportPrintable imported)
    (ends : (Lexeme.next rest).word? ≠ some "context") :
    contextAhead? (importLexemes imported ++ rest) = none := by
  rcases imported with ⟨name, target⟩
  have notContext : (Lexeme.next (importLexemes ⟨name, target⟩ ++ rest).tail).word? ≠
      some "context" := by
    cases target with
    | none => exact ends
    | some target => exact (show (Lexeme.word "as").word? ≠ some "context" by decide)
  rw [contextAhead?, if_neg notContext]

theorem importStep_readsOff_yield {imported : ImportName} (printable : ImportPrintable imported)
    (before : List ImportName) :
    ReadsOff stream low levels 0 (importLexemes imported ++ .symbol "," :: rest) rest
      (importStep before) fun result => ∃ more, result = .yield more ∧
        more = before ++ [imported] := by
  have noModifier : contextAhead? (importLexemes imported ++ .symbol "," :: rest) = none :=
    contextAhead?_importLexemes printable
      (show (Lexeme.symbol ",").word? ≠ some "context" by decide)
  apply contextModifier?_readsOff.bind_free
  rintro _ rfl
  rw [noModifier]
  refine Consumes.bind_free (importName_readsOff printable ?_) ?_
  · rw [Lexeme.next_cons]
    decide
  · rintro imported rfl
    apply (skipIf_readsOff rfl).bind_free
    rintro _ rfl
    exact .pure (Nat.zero_le _) ⟨_, rfl, rfl⟩

theorem importStep_readsOff_done {imported : ImportName} (printable : ImportPrintable imported)
    (notComma : (Lexeme.next rest).kind ≠ .comma) (notAs : (Lexeme.next rest).word? ≠ some "as")
    (notContext : (Lexeme.next rest).word? ≠ some "context") (before : List ImportName) :
    ReadsOff stream low levels 0 (importLexemes imported ++ rest) rest (importStep before)
      fun result => ∃ last, result = .done last ∧ last = before ++ [imported] := by
  apply contextModifier?_readsOff.bind_free
  rintro _ rfl
  rw [contextAhead?_importLexemes printable notContext]
  apply (importName_readsOff printable notAs).bind_free
  rintro imported rfl
  apply (skipIf_readsOff_none notComma).bind_free
  rintro _ rfl
  exact .pure (Nat.zero_le _) ⟨_, rfl, rfl⟩

/-- Imported names are read up to a context modifier or the end of the tag. -/
theorem importedNames_readsOff {names : List ImportName} (nonempty : names ≠ [])
    (each : ∀ name ∈ names, ImportPrintable name) (notComma : (Lexeme.next rest).kind ≠ .comma)
    (notAs : (Lexeme.next rest).word? ≠ some "as")
    (notContext : (Lexeme.next rest).word? ≠ some "context") :
    ReadsOff stream low levels 0 (separated (names.map importLexemes) ++ rest) rest importedNames
      (· = names) := by
  have loops (names : List ImportName) (nonempty : names ≠ [])
      (each : ∀ name ∈ names, ImportPrintable name) (before : List ImportName) :
      ReadsOff stream low levels 0 (separated (names.map importLexemes) ++ rest) rest
        (Reading.loop importStep before) (· = before ++ names) := by
    induction names generalizing before with
    | nil => exact absurd rfl nonempty
    | cons name names ih =>
        rw [List.forall_mem_cons] at each
        cases names with
        | nil =>
            apply ReadsOff.loop_done
            rw [List.map_singleton, separated, List.intercalate_singleton]
            exact importStep_readsOff_done each.1 notComma notAs notContext before
        | cons second names =>
            have split : separated ((name :: second :: names).map importLexemes) ++ rest =
                importLexemes name ++ .symbol "," ::
                  (separated ((second :: names).map importLexemes) ++ rest) := by
              simp [separated, List.intercalate_cons_cons]
            rw [split]
            apply ReadsOff.loop_yield (importStep_readsOff_yield each.1 before)
            · simp only [List.length_append, List.length_cons]
              omega
            · exact Nat.zero_le _
            · rintro _ rfl _
              simpa using ih (by simp) each.2 (before ++ [name])
  rw [importedNames_eq]
  apply (loops names nonempty each []).bind_free
  rintro found same
  rw [List.nil_append] at same
  subst same
  rw [if_neg (by simpa using nonempty)]
  exact .pure_eq _

/-! ### Parameters -/

/-- A parameter is read if none before it has its name. -/
theorem parameter_takes {param : Parameter} {start : Nat} (free : isFreeName param.name = true)
    (defaults : ∀ expr ∈ param.default?, expr.Printable)
    (shows : stream.Shows start (parameterLexemes param))
    (ends : (stream.get (start + (parameterLexemes param).length)).kind = .comma ∨
      (stream.get (start + (parameterLexemes param).length)).kind = .rparen)
    {before : List Parameter} (fresh : ∀ other ∈ before, other.name ≠ param.name) :
    Takes levels (optionalNesting param.default?) stream (parameter (deeper levels) before) start
      (start + (parameterLexemes param).length) fun found =>
        found.map forgetParameter = before.map forgetParameter ++ [forgetParameter param] := by
  rcases param with ⟨name, default?⟩
  have notTaken :
      ¬(before.any fun other => decide (other.name = (Lexeme.word name).text)) = true := by
    simp only [List.any_eq_true, decide_eq_true_eq, not_exists, not_and]
    exact fresh
  refine .current (.bind_of_ok (identifier_eq_of_stands shows.1 (wordKind_of_isFreeName free)) ?_)
  rw [if_neg notTaken]
  dsimp only
  cases default? with
  | none =>
      have notAssign : (stream.get (start + 1)).kind ≠ .assign := by
        intro isAssign
        change (stream.get (start + 1)).kind = _ ∨ (stream.get (start + 1)).kind = _ at ends
        simp [isAssign] at ends
      refine .bind_of_ok (skipIf_eq_of_ne notAssign) (.bind_of_ok rfl (Takes.pure ?_))
      simp [forgetParameter, Lexeme.word]
  | some expr =>
      have sameStop : start + (parameterLexemes ⟨name, some expr⟩).length =
          start + 1 + 1 + expr.lexemes.length := by
        simp only [parameterLexemes, optionalLexemes, List.length_cons, List.length_append,
          List.length_nil]
        omega
      rw [sameStop] at ends ⊢
      have isDefault : Takes levels _ stream (some <$> (deeper levels).conditional) _ _
          fun found => forgetOptional found = some expr.forgetOrigins :=
        ((defaults expr rfl).readBack.takes_conditional shows.2.2
          (by rcases ends with ends | ends <;> rw [ends] <;> rfl) levels).map
            fun value agrees => congrArg some agrees
      refine .bind_of_ok (skipIf_eq_of_stands shows.2.1 rfl) ?_
      refine Takes.bind_pure isDefault fun found same => Takes.pure ?_
      simp [forgetParameter, Lexeme.word, same, forgetOptional]

/-- The parameters of a macro or call block are read back. -/
theorem signature_readsOff {params : List Parameter} (printable : ParametersPrintable params) :
    ReadsOff stream low levels (parameterNesting params) (signatureLexemes params ++ rest) rest
      (signature (deeper levels)) fun found =>
        found.map forgetParameter = params.map forgetParameter := by
  apply ReadsOff.of_takes
  rintro start ⟨opens, showsRest⟩ _
  rcases TokenStream.shows_append.1 showsRest with ⟨inner, closes, _⟩
  let good (before found : List Parameter) : Prop :=
    found.map forgetParameter = before.map forgetParameter
  have nothing : good [] [] := rfl
  refine .bind_of_ok (expect_eq_of_stands opens rfl _) ?_
  refine GoesOn.of_stop_eq (commaList_takes (commaStep_goesOn good true params (by decide)
    (fun before found isGood => isEmpty_eq_of_map_eq isGood) ?_ ?_ nothing inner
    fun _ => Or.inr closes.kind) closes rfl) ?_
  · intro param isParam
    refine ⟨_, _, rfl, ?_⟩
    rw [Lexeme.word, wordKind_of_isFreeName (printable.free param isParam)]
    exact Token.Kind.noConfusion
  · intro before param after split found middle isGood shows ends
    have isParam : param ∈ params := by simp [split]
    refine (parameter_takes (printable.free param isParam) (printable.defaults param isParam) shows
      ends ?_).mono ?_
    · -- The names that were read are those of the parameters before this one.
      intro other isOther sameName
      have distinct := printable.distinct
      rw [split, List.map_append, List.nodup_append] at distinct
      have isBefore : forgetParameter other ∈ before.map forgetParameter :=
        isGood ▸ List.mem_map_of_mem isOther
      rcases List.mem_map.1 isBefore with ⟨earlier, isEarlier, same⟩
      refine distinct.2.2 earlier.name (List.mem_map_of_mem isEarlier) param.name (by simp) ?_
      exact (congrArg Parameter.name same).trans sameName
    · intro value same
      simp only [good, List.map_append, List.map_singleton, same, isGood]
  · change start + 1 + (separated (params.map parameterLexemes)).length + 1 = _
    simp only [signatureLexemes, List.length_cons, List.length_append, List.length_nil]
    omega

/-! ### Assignments -/

theorem assignmentStep_readsOff {assignment : Named Expr} {before : List (Named Expr)}
    (free : isFreeName assignment.name = true) (printable : assignment.value.Printable)
    (ends : (Lexeme.next rest).kind.binds? = none) :
    ReadsOff stream low levels (assignment.value.nesting + 1)
      (lead before.isEmpty ++ (keywordLexemes assignment ++ rest)) rest
      (assignmentStep (deeper levels) before) fun result => ∃ more, result = .yield more ∧
        forgetNamed more = forgetNamed before ++ forgetNamed [assignment] := by
  rcases assignment with ⟨name, value⟩
  have reads : ReadsOff stream low levels (value.nesting + 1)
      (.word name :: .symbol "=" :: (value.lexemes ++ rest)) rest (do
        let name ← identifier
        let _ ← expect .assign "'='"
        let value ← (deeper levels).conditional
        return ForInStep.yield (before ++ [⟨name, value⟩])) fun result =>
          ∃ more, result = .yield more ∧
            forgetNamed more = forgetNamed before ++ forgetNamed [⟨name, value⟩] := by
    apply (identifier_readsOff free).bind_free
    rintro name rfl
    apply (expect_readsOff rfl _).bind_free
    intro _ _
    apply (printable.conditional_readsOff ends).bind (Nat.le_refl _)
    intro found agrees enough
    refine .pure enough ⟨_, rfl, ?_⟩
    rw [Agrees] at agrees
    simp [forgetNamed_eq_map, agrees]
  apply current_readsOff.bind_free
  intro token sameToken
  cases isFirst : before.isEmpty with
  | true =>
      have notEnd : token.kind ≠ .blockEnd := by
        rw [← Token.kind_lexeme, sameToken, isFirst]
        change (Lexeme.word name).kind ≠ _
        rw [Lexeme.word, wordKind_of_isFreeName free]
        exact Token.Kind.noConfusion
      rw [if_neg notEnd, if_neg (by simp)]
      exact reads
  | false =>
      have notEnd : token.kind ≠ .blockEnd := by
        rw [← Token.kind_lexeme, sameToken, isFirst]
        change (Lexeme.symbol ",").kind ≠ _
        decide
      rw [if_neg notEnd, if_pos (by simp)]
      apply (expect_readsOff rfl _).bind_free
      intro _ _
      exact reads

theorem assignmentStep_readsOff_done (atEnd : (Lexeme.next rest).kind = .blockEnd)
    (assignments : List (Named Expr)) :
    ReadsOff stream low levels 0 rest rest (assignmentStep (deeper levels) assignments)
      (· = .done assignments) := by
  apply current_readsOff.bind_free
  intro token sameToken
  rw [if_pos (by rw [← Token.kind_lexeme, sameToken]; exact atEnd)]
  exact .pure_eq _

/-- Assignments are read up to the end of the tag. -/
theorem assignments_readsOff {named : List (Named Expr)}
    (free : ∀ assignment ∈ named, isFreeName assignment.name = true)
    (printable : ∀ assignment ∈ named, assignment.value.Printable)
    (atEnd : (Lexeme.next rest).kind = .blockEnd) :
    ReadsOff stream low levels (namedNesting named) (separated (namedLexemes named) ++ rest) rest
      (assignments (deeper levels)) fun found => forgetNamed found = forgetNamed named := by
  rw [assignments_eq, namedLexemes_eq_map, namedNesting_eq_foldr]
  cases named with
  | nil => exact .loop_done ((assignmentStep_readsOff_done atEnd _).mono fun _ isDone =>
      ⟨_, isDone, rfl⟩)
  | cons first others =>
      have ends (after : List (Named Expr)) : (Lexeme.next (after.flatMap (fun assignment =>
          .symbol "," :: keywordLexemes assignment) ++ rest)).kind.binds? = none := by
        rcases next_flatMap (.symbol ",") keywordLexemes after rest with same | same
        · rw [same]
          rfl
        · rw [same, atEnd]
          rfl
      have readsFirst : ReadsOff stream low levels _ _ _ (assignmentStep (deeper levels) []) _ :=
        assignmentStep_readsOff (free first List.mem_cons_self)
          (printable first List.mem_cons_self) (ends others)
      rw [separated, intercalate_map_cons, List.append_assoc, List.foldr_cons]
      apply ReadsOff.loop_yield readsFirst
      · simp only [lead, List.isEmpty_nil, if_true, List.length_append, keywordLexemes,
          List.length_cons]
        omega
      · omega
      · intro more sameFirst enough
        have loops : ReadsOff stream low levels
            (others.foldr (fun assignment => max (assignment.value.nesting + 1)) 0)
            (others.flatMap (fun assignment => .symbol "," :: keywordLexemes assignment) ++ rest)
            rest (Reading.loop (assignmentStep (deeper levels)) more)
            fun found => forgetNamed found = forgetNamed (first :: others) := by
          apply ReadsOff.loop_each
            (fun before found => forgetNamed found = forgetNamed (first :: before))
          · exact fun _ _ => List.cons_ne_nil _ _
          · exact sameFirst
          · intro before assignment after found split same
            have isOther : assignment ∈ first :: others := by simp [split]
            have notFirst : found.isEmpty = false := by
              rw [forgetNamed_eq_map, forgetNamed_eq_map] at same
              exact isEmpty_eq_of_map_eq same
            have reads : ReadsOff stream low levels _ _ _
                (assignmentStep (deeper levels) found) _ :=
              assignmentStep_readsOff (free assignment isOther) (printable assignment isOther)
                (ends after)
            rw [notFirst] at reads
            apply reads.mono
            rintro _ ⟨value, rfl, sameValue⟩
            refine ⟨value, rfl, ?_⟩
            rw [sameValue, same]
            simp [forgetNamed_eq_map]
          · exact fun value _ => assignmentStep_readsOff_done atEnd value
        apply loops.raise
        · omega
        · omega

/-! ### Filters -/

theorem filterCall_readsOff {filter : FilterCall} (printable : FilterPrintable filter) :
    ReadsOff stream low levels (argumentNesting filter) (filterLexemes filter ++ rest) rest
      (filterCall (deeper levels)) fun found => forgetFilter found = forgetFilter filter := by
  apply ReadsOff.of_takes
  intro start shows _
  refine GoesOn.of_stop_eq (GoesOn.mono (filterCall_takes printable.isName
    (fun arg isArg => (printable.each arg isArg).readBack) printable.free
    (fun kwarg isKwarg => (printable.eachNamed kwarg isKwarg).readBack) shows levels) ?_) ?_
  · rintro found ⟨sameName, sameArgs, sameKwargs⟩
    rw [forgetFilter, forgetFilter, sameName, sameArgs, sameKwargs]
  · simp only [filterLexemes, List.length_append, List.length_cons, List.length_nil]
    omega

/-- Filters are read up to a token that is no pipe. -/
theorem filterCalls_readsOff {filters : List FilterCall} (nonempty : filters ≠ [])
    (each : ∀ filter ∈ filters, FilterPrintable filter)
    (notPipe : (Lexeme.next rest).kind ≠ .pipe) :
    ReadsOff stream low levels (filterNesting filters)
      ([Lexeme.symbol "|"].intercalate (filters.map filterLexemes) ++ rest) rest
      (filterCalls (deeper levels)) fun found =>
        found.map forgetFilter = filters.map forgetFilter := by
  rcases List.exists_cons_of_ne_nil nonempty with ⟨first, others, rfl⟩
  rw [List.forall_mem_cons] at each
  rw [intercalate_map_cons, List.append_assoc, filterNesting, List.foldr_cons]
  apply (filterCall_readsOff each.1).bind (Nat.le_max_left _ _)
  intro found same enough
  refine Consumes.raise (ReadsOff.loop_each
    (fun before (found : List FilterCall) =>
      found.map forgetFilter = (first :: before).map forgetFilter)
    (fun _ _ => List.cons_ne_nil _ _) (by simp [same]) ?_ ?_) (Nat.le_max_right _ _) ?_
  · intro before filter after value split sameValue
    apply (skipIf_readsOff rfl).bind_free
    rintro _ rfl
    apply (filterCall_readsOff (each.2 filter (by simp [split]))).bind (Nat.le_refl _)
    intro found same enough
    exact .pure enough ⟨_, rfl, by simp [sameValue, same]⟩
  · intro value _
    apply (skipIf_readsOff_none notPipe).bind_free
    rintro _ rfl
    exact .pure_eq _
  · omega

end Stmt

end Stencil

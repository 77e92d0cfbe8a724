import Stencil.Profiles
import Stencil.Proofs.Stmt.Macros
import Stencil.Proofs.Template.Composition

/-!
# The flags of macros in templates

A parse puts together a template from what the rule for statements gives, with or without
extensions. So each macro of a template, at any depth, is flagged with the surplus arguments that
its body mentions, unless an extension builds macros by itself: what an extension gives is taken as
it is.
-/

namespace Stencil.Template

open Stmt (BodyMacrosAre KeepsTo FlagsExact Mentions)

section

variable [Limits] {known : Stmt → Prop} {registry : Registry} {stream : TokenStream}
  {progress : Progress}

theorem parseNext_bodyMacrosAre (keeps : KeepsTo known (Stmt.parse registry))
    (before : BodyMacrosAre known progress.body) :
    BodyMacrosAre known (parseNext registry stream progress).body := by
  unfold parseNext
  dsimp only
  split
  · exact before
  · split
    · next outcome => exact before.concat (keeps _ _ _ _ outcome _ rfl)
    · exact before
    · split
      · exact before
      · exact before

theorem parseAll_bodyMacrosAre (keeps : KeepsTo known (Stmt.parse registry))
    (before : BodyMacrosAre known progress.body) :
    BodyMacrosAre known (parseAll registry stream progress).body := by
  fun_induction parseAll registry stream progress with
  | case1 => exact before
  | case2 _ _ _ _ ih => exact ih (parseNext_bodyMacrosAre keeps before)
  | case3 => exact parseNext_bodyMacrosAre keeps before

/-- What is said of the names that a body reads is exact. A body is said to read a name exactly if
it mentions it: if the name stands as an expression somewhere in the body, and not in the body of a
macro or a call block in it. And in a template that is parsed with extensions that build no macros
by themselves, the flags of each macro say whether its body mentions the surplus arguments. -/
theorem reads_and_flags_exact :
    (∀ (body : List Stmt) (name : String),
      (Stmt.bodyReads body name = true ↔ Mentions body name) ∧
      (name ∈ Stmt.readNames body ↔ Mentions body name)) ∧
    ∀ {registry : Registry}, registry.BuildsNoMacro →
      ∀ {stream : TokenStream} {template : Template},
        (parse registry stream).result stream = .ok template →
          ∀ stmt ∈ template.statements, stmt.FlagsExact := by
  constructor
  · intro body name
    refine ⟨Stmt.bodyReads_iff, ?_⟩
    rw [Stmt.mem_readNames_iff, Stmt.mem_readsOfBody_iff_mentions]
  · intro registry noMacro stream template parsed stmt isStmt
    obtain rfl := (of_result_eq_ok parsed).2
    have keeps : KeepsTo FlagsExact (Stmt.parse registry) :=
      Stmt.parse_keepsTo (fun _ opening keeps => Stmt.macroRule_flagsExact keeps opening) noMacro
    have flagged : BodyMacrosAre FlagsExact (parse registry stream).body :=
      parseAll_bodyMacrosAre keeps Stmt.bodyMacrosAre_nil
    obtain ⟨outer, isOuter, isInner⟩ := List.mem_flatMap.1 isStmt
    cases stmt with
    | macro_ => exact flagged outer isOuter _ isInner rfl
    | _ => trivial

/-- Translates a body with an argument. Without an argument its tag is declined. -/
def translation : Extension where
  name := "i18n"
  tags := ["trans"]
  parseTag statement opening := do
    Reading.expectWord "trans"
    if (← Reading.current).kind = .blockEnd then return none
    let arg ← Parsing.expression
    let _ ← Reading.expectBlockEnd
    let body ← Stmt.closedBody statement "trans" opening "endtrans"
    return some (.extension (← Stmt.originOf opening) "trans" [arg] body)

theorem translation_buildsNoMacro : translation.BuildsNoMacro := by
  intro known _ statement opening keeps
  refine .any fun _ => .any fun token => ?_
  split
  · exact .pure nofun
  · refine .any fun arg => .any fun _ => ?_
    refine .bind (Stmt.closedBody_builds keeps opening _ _) fun body inBody => ?_
    refine .any fun origin => .pure ?_
    rintro _ ⟨⟩
    exact Stmt.macrosAre_of_body rfl rfl inBody

end

/-- The flags of a macro, if a statement is one. -/
def flags? : Stmt → Option (Bool × Bool)
  | .macro_ _ _ _ _ catchVarargs catchKwargs => some (catchVarargs, catchKwargs)
  | _ => none

/-- A macro in the body of a tag of an extension in the body of a macro. -/
def nestedMacros : String :=
  "\x7b% macro m() %\x7d\x7b% trans varargs %\x7d\x7b% macro n() %\x7d" ++
    "\x7b\x7b kwargs \x7d\x7d\x7b% endmacro %\x7d\x7b% endtrans %\x7d\x7b% endmacro %\x7d"

set_option maxRecDepth 10000 in
/-- A tag of an extension mentions the surplus arguments of the macro around it, and the macro in
its body has surplus arguments of its own. -/
theorem reads_and_flags_exact_translation : ∃ registry result template,
    Registry.register {} translation = .ok registry ∧ registry.BuildsNoMacro ∧
    tokenize {} none nestedMacros = some result ∧
    (parse registry (.ofTokens result.tokens)).result (.ofTokens result.tokens) = .ok template ∧
    template.statements.filterMap flags? = [(true, false), (false, true)] ∧
    ∀ stmt ∈ template.statements, stmt.FlagsExact := by
  have noMacro : Registry.BuildsNoMacro ⟨[translation]⟩ :=
    List.forall_mem_singleton.2 translation_buildsNoMacro
  have evaluated : ((tokenize {} none nestedMacros).map fun result =>
      ((parse ⟨[translation]⟩ (.ofTokens result.tokens)).fatal,
        ((parse ⟨[translation]⟩ (.ofTokens result.tokens)).body.flatMap Stmt.flatten).filterMap
          flags?)) = some (none, [(true, false), (false, true)]) := by
    cbv
  rcases Option.map_eq_some_iff.1 evaluated with ⟨result, cut, values⟩
  simp only [Prod.mk.injEq] at values
  have parsed := result_eq_ok (.ofTokens result.tokens) values.1
  exact ⟨_, result, _, rfl, noMacro, cut, parsed, values.2,
    reads_and_flags_exact.2 noMacro parsed⟩

/-- A macro that mentions `varargs`, with flags that deny it. -/
def forgedMacro : Stmt :=
  .macro_ ⟨1, none⟩ "m" [] [.output ⟨1, none⟩ (.name ⟨1, none⟩ "varargs")] false false

/-- Builds the same macro for each of its tags. -/
def forging : Extension where
  name := "forger"
  tags := ["forge"]
  parseTag _ _ := do
    Reading.expectWord "forge"
    let _ ← Reading.expectBlockEnd
    return some forgedMacro

theorem forgedMacro_not_flagsExact : ¬forgedMacro.FlagsExact := by
  rintro ⟨varargs, -⟩
  have reads : Stmt.bodyReads [.output ⟨1, none⟩ (.name ⟨1, none⟩ "varargs")] "varargs" = true := by
    decide
  exact Bool.false_ne_true (varargs.2 (Stmt.bodyReads_iff.1 reads))

/-- The flags of a macro that an extension builds by itself can be wrong. -/
theorem flags_forged : ∃ registry result template,
    Registry.register {} forging = .ok registry ∧
    tokenize {} none "\x7b% forge %\x7d" = some result ∧ result.diagnostics = [] ∧
    (parse registry (.ofTokens result.tokens)).errors = [] ∧
    (parse registry (.ofTokens result.tokens)).result (.ofTokens result.tokens) = .ok template ∧
    ∃ stmt ∈ template.statements, ¬stmt.FlagsExact := by
  have evaluated : ((tokenize {} none "\x7b% forge %\x7d").map fun result =>
      (result.diagnostics, (parse ⟨[forging]⟩ (.ofTokens result.tokens)).errors,
        (parse ⟨[forging]⟩ (.ofTokens result.tokens)).fatal,
        (parse ⟨[forging]⟩ (.ofTokens result.tokens)).body)) =
      some ([], [], none, [forgedMacro]) := by
    cbv
  rcases Option.map_eq_some_iff.1 evaluated with ⟨result, cut, values⟩
  simp only [Prod.mk.injEq] at values
  rcases values with ⟨noDiagnostics, noErrors, notFatal, isBody⟩
  have parsed := result_eq_ok (.ofTokens result.tokens) notFatal
  rw [isBody] at parsed
  refine ⟨_, result, _, rfl, cut, noDiagnostics, noErrors, parsed, forgedMacro, ?_,
    forgedMacro_not_flagsExact⟩
  refine List.mem_flatMap.2 ⟨forgedMacro, List.mem_singleton_self _, ?_⟩
  rw [Stmt.flatten_eq]
  exact List.mem_cons_self

end Stencil.Template

import Stencil.Proofs.Parse.Accounting
import Stencil.Proofs.Stmt.Grammar
import Stencil.Proofs.Stmt.TagText

/-!
# What is read as a statement has a derivation

The rules for tags follow the derivations step by step. A rule is used with a number of constructs
open and comes back to that number, so that the bodies of a tag are all read one construct deeper
than the tag. The rule for the statements inside is any rule that has derivations for what it reads;
at the end it is the rule for any statement itself.
-/

namespace Stencil

variable {α β : Type} {stream : TokenStream} {depth first start least : Nat}

/-- A rule used from a place on, with a number of constructs open, succeeds only in a good way and
with the same constructs open. -/
def Gives (stream : TokenStream) (depth start : Nat) (good : α → Nat → Prop) (rule : Parsing α) :
    Prop :=
  ∀ (place after : Place) (value : α), place.depth = depth → place.cursor = start →
    rule stream place = .ok value after → after.depth = depth ∧ good value after.cursor

namespace Gives

variable {good : α → Nat → Prop} {goal : β → Nat → Prop} {rule : Parsing α} {next : α → Parsing β}

theorem pure {value : α} (holds : good value start) :
    Gives stream depth start good (Pure.pure value) := by
  rintro place after value rfl rfl ⟨⟩
  exact ⟨rfl, holds⟩

theorem throw (error : SyntaxError) :
    Gives stream depth start good (throw error : Parsing α) := by
  rintro place after value rfl rfl ⟨⟩

theorem bind (first : Gives stream depth start good rule)
    (rest : ∀ value middle, good value middle → Gives stream depth middle goal (next value)) :
    Gives stream depth start goal (rule >>= next) := by
  intro place after result isDepth isStart outcome
  rcases exists_of_bind_eq_ok outcome with ⟨value, middle, firstOutcome, restOutcome⟩
  rcases first place middle value isDepth isStart firstOutcome with ⟨sameDepth, isGood⟩
  exact rest value middle.cursor isGood middle after result sameDepth rfl restOutcome

theorem map {change : α → β} (first : Gives stream depth start good rule)
    (changed : ∀ value stop, good value stop → goal (change value) stop) :
    Gives stream depth start goal (change <$> rule) := by
  simp only [← bind_pure_comp]
  exact first.bind fun value stop isGood => .pure (changed value stop isGood)

theorem lift {rule : Reading α} {next : α → Parsing β}
    (rest : ∀ value stop, rule stream start = .ok value stop →
      Gives stream depth stop goal (next value)) :
    Gives stream depth start goal (liftM rule >>= next) := by
  suffices first : Gives stream depth start (fun value stop => rule stream start = .ok value stop)
      (liftM rule : Parsing α) from first.bind rest
  rintro place after value rfl rfl outcome
  change Parsing.ofReading rule stream place = _ at outcome
  unfold Parsing.ofReading at outcome
  cases reads : rule stream place.cursor with
  | ok value stop =>
      rw [reads] at outcome
      cases outcome
      exact ⟨rfl, rfl⟩
  | error error stop =>
      rw [reads] at outcome
      cases outcome

/-- A rule over tokens, used with the levels of nesting that are left. -/
theorem leveled [Limits] {rule : Nat → Reading α} {next : α → Parsing β}
    (rest : ∀ value stop, rule (Stmt.levelsAt depth) stream start = .ok value stop →
      Gives stream depth stop goal (next value)) :
    Gives stream depth start goal (Parsing.leveled rule >>= next) := by
  rintro place after value rfl isStart outcome
  exact lift rest place after value rfl isStart outcome

theorem current {next : Token → Parsing β}
    (rest : Gives stream depth start goal (next (stream.get start))) :
    Gives stream depth start goal (liftM Reading.current >>= next) := by
  refine lift fun token stop outcome => ?_
  cases outcome
  exact rest

theorem origin {opening : Nat} {next : Origin → Parsing β}
    (rest : Gives stream depth start goal (next (Stmt.originFrom stream opening))) :
    Gives stream depth start goal (Stmt.originOf (stream.get opening) >>= next) := by
  refine lift fun origin stop outcome => ?_
  cases outcome
  exact rest

theorem refuse (token : Token) (expected : String) :
    Gives stream depth start good (liftM (Reading.refuse token expected : Reading α)) :=
  throw _

theorem throw_bind (error : SyntaxError) :
    Gives stream depth start goal ((MonadExcept.throw error : Parsing α) >>= next) := by
  have fails : Gives stream depth start (fun _ _ => False) (MonadExcept.throw error : Parsing α) :=
    throw error
  exact fails.bind fun _ _ impossible => impossible.elim

/-- A construct is entered only if there is a level of nesting left. -/
theorem nested [Limits] {construct : String}
    (inside : depth < maxDepth → Gives stream (depth + 1) start good rule) :
    Gives stream depth start good (Parsing.nested construct rule) := by
  rintro place after value rfl rfl outcome
  by_cases full : maxDepth ≤ place.depth
  · rw [Parsing.nested_eq_of_full full] at outcome
    cases outcome
  · have room : place.depth < maxDepth := by omega
    cases inner : rule stream (place.entered construct) with
    | ok value after =>
        rw [Parsing.nested_eq_of_ok room inner] at outcome
        cases outcome
        rcases inside room (place.entered construct) after value rfl rfl inner with
          ⟨sameDepth, isGood⟩
        refine ⟨?_, isGood⟩
        simp only [Place.left, sameDepth]
        rfl
    | error error after =>
        rw [Parsing.nested_eq_of_error room inner] at outcome
        cases outcome

variable (closed : stream.IsClosed)

include closed

theorem advance {next : Token → Parsing β} (notEnd : (stream.get start).kind ≠ .eof)
    (rest : Gives stream depth (start + 1) goal (next (stream.get start))) :
    Gives stream depth start goal (liftM Reading.advance >>= next) := by
  refine lift fun token stop outcome => ?_
  cases outcome
  rw [closed.next_eq notEnd]
  exact rest

theorem expect {kind : Token.Kind} {expected : String} {next : Token → Parsing β}
    (notEnd : kind ≠ .eof)
    (rest : (stream.get start).kind = kind →
      Gives stream depth (start + 1) goal (next (stream.get start))) :
    Gives stream depth start goal (liftM (Reading.expect kind expected) >>= next) := by
  refine lift fun token stop outcome => ?_
  by_cases isKind : (stream.get start).kind = kind
  · rw [Reading.expect_eq_of_kind isKind, closed.next_eq (isKind ▸ notEnd)] at outcome
    cases outcome
    exact rest isKind
  · rw [Reading.expect_eq_of_ne isKind] at outcome
    cases outcome

theorem blockEnd {next : Token → Parsing β}
    (rest : (stream.get start).kind = .blockEnd →
      Gives stream depth (start + 1) goal (next (stream.get start))) :
    Gives stream depth start goal (liftM Reading.expectBlockEnd >>= next) :=
  expect closed (by simp) rest

theorem expectWord {word : String} {next : Unit → Parsing β}
    (rest : Gives stream depth (start + 1) goal (next ())) :
    Gives stream depth start goal (liftM (Reading.expectWord word) >>= next) := by
  refine lift fun _ stop outcome => ?_
  rw [Reading.expectWord, Reading.current_bind] at outcome
  split at outcome
  · next isWord =>
    have isInner := Token.isInner_of_isWord isWord
    cases outcome
    rw [closed.next_eq (Token.Kind.ne_eof_of_isInner isInner)]
    exact rest
  · cases outcome

/-! A part of a tag is read after others, which have passed only tokens of the tag. -/

omit closed in
theorem part {rule : Reading α} {next : α → Parsing β} (soFar : Passes stream first start)
    (reads : Reads stream least start rule)
    (rest : ∀ value stop, rule stream start = .ok value stop → Passes stream first stop →
      Gives stream depth stop goal (next value)) :
    Gives stream depth start goal (liftM rule >>= next) :=
  lift fun value stop outcome => rest value stop outcome (soFar.trans (reads.of_ok outcome).1)

theorem mark {kind : Token.Kind} {expected : String} {next : Token → Parsing β}
    (soFar : Passes stream first start) (isInner : kind.isInner = true)
    (rest : (stream.get start).kind = kind → Passes stream first (start + 1) →
      Gives stream depth (start + 1) goal (next (stream.get start))) :
    Gives stream depth start goal (liftM (Reading.expect kind expected) >>= next) := by
  refine expect closed (Token.Kind.ne_eof_of_isInner isInner) fun isKind => ?_
  exact rest isKind (soFar.trans (.succ (isKind ▸ isInner)))

variable [Limits]

theorem expression {next : Expr → Parsing β} (soFar : Passes stream first start)
    (rest : ∀ expr stop, Expr.parse (Stmt.levelsAt depth) stream start = .ok expr stop →
      Passes stream first stop → Gives stream depth stop goal (next expr)) :
    Gives stream depth start goal (Parsing.expression >>= next) :=
  leveled fun expr stop outcome => rest expr stop outcome
    (soFar.trans ((Expr.parse_reads closed _).of_ok outcome).1)

theorem unconditional {next : Expr → Parsing β} (soFar : Passes stream first start)
    (rest : ∀ expr stop, Expr.parseUnconditional (Stmt.levelsAt depth) stream start =
      .ok expr stop → Passes stream first stop → Gives stream depth stop goal (next expr)) :
    Gives stream depth start goal (Parsing.unconditional >>= next) :=
  leveled fun expr stop outcome => rest expr stop outcome
    (soFar.trans ((Expr.parseUnconditional_reads closed _).of_ok outcome).1)

theorem withDeeper {rule : Expr.Deeper → Reading α} {next : α → Parsing β}
    (soFar : Passes stream first start)
    (reads : ∀ {deeper : Expr.Deeper}, deeper.Inside stream →
      Reads stream least start (rule deeper))
    (rest : ∀ value stop, rule (Expr.deeper (Stmt.levelsAt depth)) stream start = .ok value stop →
      Passes stream first stop → Gives stream depth stop goal (next value)) :
    Gives stream depth start goal (Parsing.withDeeper rule >>= next) :=
  @leveled α β stream depth start goal _ (fun levels => rule (Expr.deeper levels)) next
    fun value stop outcome => rest value stop outcome
      (soFar.trans ((reads (Expr.deeper_inside closed _)).of_ok outcome).1)

end Gives

/-- A step takes a repetition from one place towards a goal. A step that asks for more must have
read a token, or have reached the goal. -/
def Leading (stream : TokenStream) (goal : α → Nat → α → Nat → Prop) (value : α) (start : Nat) :
    ForInStep α → Nat → Prop
  | .done result, stop => goal value start result stop
  | .yield more, stop =>
      (∀ result last, goal more stop result last → goal value start result last) ∧
        ((start < stop ∧ start < stream.size) ∨ goal value start more stop)

/-- What a repetition comes by from a value and a place on is told step by step. -/
theorem Gives.loop {step : α → Parsing (ForInStep α)} (goal : α → Nat → α → Nat → Prop)
    (steps : ∀ value start,
      Gives stream depth start (Leading stream goal value start) (step value)) (value : α) :
    Gives stream depth start (goal value start) (Parsing.loop step value) := by
  rintro place after result rfl rfl outcome
  unfold Parsing.loop at outcome
  fun_induction repeatFrom Place.cursor step value stream place with
  | case1 => cases outcome
  | case2 value place last stopped done =>
      cases outcome
      exact steps value place.cursor place after _ rfl rfl done
  | case3 value place more middle yields further ih =>
      rcases steps value place.cursor place middle _ rfl rfl yields with ⟨sameDepth, forward, _⟩
      rw [← sameDepth] at steps ⊢
      rcases ih steps outcome with ⟨stillSame, reached⟩
      exact ⟨stillSame, forward _ _ reached⟩
  | case4 value place more middle yields stays =>
      cases outcome
      rcases steps value place.cursor place after _ rfl rfl yields with ⟨sameDepth, _, reached⟩
      exact ⟨sameDepth, reached.resolve_left stays⟩

namespace Stmt

open Reading Parsing

/-! ### Bodies -/

theorem begins_of_atTag {enders : List String} {ender : String} {stop : Nat}
    (found : atTag enders stream start = .ok (some ender) stop) :
    Begins stream start ender ∧ ender ∈ enders ∧ stop = start := by
  rw [atTag, current_bind] at found
  split at found
  · next isBlock =>
    rw [peek_bind] at found
    obtain ⟨isFound, rfl⟩ : (stream.get (start + 1)).word?.filter enders.contains = some ender ∧
        start = stop := by
      injection found with isFound isStop
      exact ⟨isFound, isStop⟩
    rcases Option.filter_eq_some_iff.1 isFound with ⟨isWord, isEnder⟩
    exact ⟨⟨isBlock, isWord⟩, by simpa using isEnder, rfl⟩
  · cases found

variable [Limits]

section

variable (closed : stream.IsClosed)

include closed

variable {statement : Parsing (Option Stmt)}

/-- The rule for statements has a derivation for every statement that it reads. -/
def Derives (stream : TokenStream) (statement : Parsing (Option Stmt)) : Prop :=
  ∀ depth start, Gives stream depth start
    (fun stmt stop => Derived stream depth start (.statement stmt) stop) statement

/-- What is read of a body from one place up to another. Only with the word of the closing tag are
the statements shown to be those of a body, and that tag follows them. -/
def BodyRead (stream : TokenStream) (depth : Nat) (enders : List String)
    (before : List Stmt × Option String) (start : Nat) (after : List Stmt × Option String)
    (stop : Nat) : Prop :=
  ∀ ender, after.2 = some ender → ∃ stmts middle, after.1 = before.1 ++ stmts ∧
    Derived stream depth start (.body enders stmts ender) middle ∧
      Begins stream middle ender ∧ ender ∈ enders ∧ stop = middle + 2

/-- What is read of the branches of a choice from one place up to another. Both places are behind
the words of the tags that begin there. -/
def BranchesRead (stream : TokenStream) (depth : Nat) (before : List (Branch Stmt) × String)
    (here : Nat) (after : List (Branch Stmt) × String) (stop : Nat) : Prop :=
  ∀ start, here = start + 2 → Begins stream start before.2 → ∃ elifs last,
    after.1 = before.1 ++ elifs ∧
      Derived stream depth start (.branches before.2 elifs after.2) last ∧
        Begins stream last after.2 ∧ stop = last + 2

variable (derives : Derives stream statement) {tag closer : String} {opening : Token}

include derives

theorem bodyStep_gives {enders : List String} (before : List Stmt × Option String) (start : Nat) :
    Gives stream depth start (Leading stream (BodyRead stream depth enders) before start)
      (bodyStep statement tag opening enders before) := by
  refine .lift fun found stop looked => ?_
  cases found with
  | some ender =>
      obtain ⟨begins, isEnder, rfl⟩ := begins_of_atTag looked
      refine .advance closed begins.notEnd.1 (.advance closed begins.notEnd.2 (.pure ?_))
      rintro _ ⟨⟩
      exact ⟨[], stop, by simp, .ended begins isEnder, begins, isEnder, rfl⟩
  | none =>
      obtain rfl : stop = start := by
        obtain ⟨found, same, _⟩ := atTag_eq stream start enders
        rw [same] at looked
        cases looked
        rfl
      refine .current ?_
      split
      · exact .throw _
      · refine .bind (derives depth stop) fun stmt middle first => ?_
        -- Without the word of a closing tag there is nothing to show of the statements so far.
        have step (more : List Stmt) (same : more = before.1 ++ stmt.toList) :
            Gives stream depth middle (Leading stream (BodyRead stream depth enders) before stop)
              (pure (.yield (more, none))) := by
          refine .pure ⟨fun result after rest ender isEnder => ?_, Or.inr (by rintro _ ⟨⟩)⟩
          obtain ⟨stmts, last, isRest, derived, ended⟩ := rest ender isEnder
          exact ⟨stmt.toList ++ stmts, last, by simp [isRest, same], .more first derived, ended⟩
        cases stmt with
        | some stmt => exact step _ rfl
        | none => exact step _ (by simp)

/-- A body is read up to the tag that ends it, and the word of that tag is passed too. -/
theorem bodyUntil_gives {enders : List String} : Gives stream depth start (fun result stop =>
      ∃ middle, Derived stream depth start (.body enders result.1 result.2) middle ∧
        Begins stream middle result.2 ∧ result.2 ∈ enders ∧ stop = middle + 2)
    (bodyUntil statement tag opening enders) := by
  rw [bodyUntil_eq]
  refine .bind (.loop (BodyRead stream depth enders) (bodyStep_gives closed derives) _) ?_
  rintro ⟨stmts, ender⟩ stop found
  cases ender with
  | none => exact .throw _
  | some ender =>
      obtain ⟨stmts, middle, isBody, derived, ended⟩ := found ender rfl
      refine .pure ⟨middle, ?_, ended⟩
      simp only [List.nil_append] at isBody
      rw [isBody]
      exact derived

theorem Derives.body {enders : List String} {next : List Stmt × String → Parsing β}
    {goal : β → Nat → Prop}
    (rest : ∀ stmts ender middle, Derived stream depth start (.body enders stmts ender) middle →
      Begins stream middle ender → ender ∈ enders →
        Gives stream depth (middle + 2) goal (next (stmts, ender))) :
    Gives stream depth start goal (bodyUntil statement tag opening enders >>= next) := by
  refine .bind (bodyUntil_gives closed derives) ?_
  rintro ⟨stmts, ender⟩ _ ⟨middle, derived, begins, isEnder, rfl⟩
  exact rest stmts ender middle derived begins isEnder

/-- A body with the tag that closes it. -/
theorem Derives.closedBody {next : List Stmt → Parsing β} {goal : β → Nat → Prop}
    (rest : ∀ stmts middle stop, Derived stream depth start (.body [closer] stmts closer) middle →
      Tag stream middle closer stop → Gives stream depth (stop + 1) goal (next stmts)) :
    Gives stream depth start goal (closedBody statement tag opening closer >>= next) := by
  suffices inside : Gives stream depth start (fun stmts last => ∃ middle stop,
      Derived stream depth start (.body [closer] stmts closer) middle ∧
        Tag stream middle closer stop ∧ last = stop + 1)
      (Stmt.closedBody statement tag opening closer) by
    refine inside.bind ?_
    rintro stmts _ ⟨middle, stop, derived, closes, rfl⟩
    exact rest stmts middle stop derived closes
  refine derives.body closed fun stmts ender middle derived begins isEnder => ?_
  obtain rfl := List.mem_singleton.1 isEnder
  exact .blockEnd closed fun ends => .pure
    ⟨middle, middle + 2, derived, ⟨begins, begins.passes, ends⟩, rfl⟩

/-- The statements after `else`, if the word is that one, up to the tag that closes the block. -/
theorem Derives.otherwise {ender : String} {next : List Stmt → Parsing β} {goal : β → Nat → Prop}
    (rest : ∀ stmts stop, Derived stream depth start (.otherwise ender closer stmts) stop →
      Gives stream depth stop goal (next stmts)) :
    Gives stream depth start goal (if ender = "else" then
      Stmt.closedBody statement tag opening closer >>= next else pure [] >>= next) := by
  split
  · next isElse =>
    subst isElse
    exact derives.closedBody closed fun stmts middle stop inside closes =>
      rest stmts (stop + 1) (.else_ inside closes)
  · next notElse => exact rest [] start (.noElse notElse)

theorem elifStep_gives (before : List (Branch Stmt) × String) (here : Nat) :
    Gives stream depth here (Leading stream (BranchesRead stream depth) before here)
      (elifStep statement opening before) := by
  unfold elifStep
  dsimp only
  split
  · next isElif =>
    refine .expression closed (.refl _ _) fun condition inner reads passed => ?_
    refine .blockEnd closed fun ends => ?_
    refine derives.body closed fun body ender middle guarded begins _ => .pure ⟨?_, Or.inl ?_⟩
    · rintro ⟨_, last⟩ stop rest start rfl begins'
      obtain ⟨elifs, last, rfl, derived, ended⟩ := rest middle rfl begins
      rw [isElif] at begins' ⊢
      have tag : Tag stream start "elif" inner := ⟨begins', begins'.passes.trans passed, ends⟩
      exact ⟨⟨condition, body⟩ :: elifs, last, by simp, .branch tag reads guarded derived, ended⟩
    · have further := ((Expr.parse_reads closed _).of_ok reads).2
      have inside := passed.lt_size closed (by omega)
      have inOrder := guarded.inOrder closed
      omega
  · next notElif =>
    refine .pure fun start isHere begins => ⟨[], start, by simp, .noBranch begins notElif, ?_⟩
    exact ⟨begins, isHere⟩

theorem elifBranches_gives {ender : String} (begins : Begins stream start ender) :
    Gives stream depth (start + 2) (fun result stop => ∃ last,
        Derived stream depth start (.branches ender result.1 result.2) last ∧
          Begins stream last result.2 ∧ stop = last + 2)
      (elifBranches statement opening ender) := by
  rw [elifBranches_eq]
  have all : Gives stream depth (start + 2) (BranchesRead stream depth ([], ender) (start + 2))
      (Parsing.loop (elifStep statement opening) ([], ender)) :=
    .loop (BranchesRead stream depth) (elifStep_gives closed derives) _
  rintro place after ⟨elifs, last⟩ isDepth isStart outcome
  rcases all place after _ isDepth isStart outcome with ⟨sameDepth, found⟩
  obtain ⟨_, stop, rfl, derived, ended⟩ := found start rfl begins
  exact ⟨sameDepth, stop, derived, ended⟩

end

/-! ### Block tags -/

section

variable (closed : stream.IsClosed) {word : String}

/-- A statement is derived from a position with some constructs open, and ends at another. -/
def DerivedFrom (stream : TokenStream) (depth start : Nat) (stmt : Stmt) (stop : Nat) : Prop :=
  Derived stream depth start (.statement (some stmt)) stop

/-- A rule that is entered after the opening of a tag, with the construct of the tag open, succeeds
with a statement that is derived from the tag. -/
def GivesInside (stream : TokenStream) (depth start : Nat) (rule : Parsing Stmt) : Prop :=
  Gives stream (depth + 1) (start + 1) (DerivedFrom stream depth start) rule

include closed

theorem simpleRule_gives (begins : Begins stream start word) (isAlone : word ∈ aloneWords) :
    Gives stream depth (start + 1) (DerivedFrom stream depth start)
      (simpleRule (stream.get start)) := by
  refine .advance closed begins.notEnd.2 (.origin ?_)
  have tag (ends : (stream.get (start + 2)).kind = .blockEnd) :
      Tag stream start word (start + 2) := ⟨begins, begins.passes, ends⟩
  dsimp only
  split
  · next isKeyword =>
    exact .blockEnd closed fun ends => .pure (.continue_ (tag ends) isAlone isKeyword)
  · next isKeyword =>
    exact .blockEnd closed fun ends => .pure (.break_ (tag ends) isAlone isKeyword)
  · next isKeyword =>
    exact .blockEnd closed fun ends => .pure (.debug (tag ends) isAlone isKeyword)
  · exact .throw_bind _

variable (room : depth < maxDepth)

include room

theorem evaluateRule_gives (begins : Begins stream start "do") :
    GivesInside stream depth start (evaluateRule (stream.get start)) := by
  refine .mark closed (.refl _ _) rfl fun _ passed => ?_
  refine .expression closed passed fun expr stop reads passed => .blockEnd closed fun ends => ?_
  exact .origin (.pure (.evaluate room ⟨begins, passed, ends⟩ reads))

theorem parentRule_gives (begins : Begins stream start "extends") :
    GivesInside stream depth start (parentRule (stream.get start)) := by
  refine .mark closed (.refl _ _) rfl fun _ passed => ?_
  refine .expression closed passed fun expr stop reads passed => .blockEnd closed fun ends => ?_
  exact .origin (.pure (.parent room ⟨begins, passed, ends⟩ reads))

theorem inclusionRule_gives (begins : Begins stream start "include") :
    GivesInside stream depth start (inclusionRule (stream.get start)) := by
  refine .mark closed (.refl _ _) rfl fun _ passed => ?_
  refine .expression closed passed fun template first reads passed => ?_
  refine .part passed (skipWord_reads closed _) fun ignoreMissing second ignores passed => ?_
  have ends {third : Nat} (isMissing : missing ignoreMissing stream second = .ok () third)
      (passed : Passes stream (start + 1) third) :
      Gives stream (depth + 1) third (DerivedFrom stream depth start)
        (inclusionRest (stream.get start) template ignoreMissing) := by
    refine .part passed (contextModifier_reads closed _) fun withContext stop inContext passed => ?_
    refine .blockEnd closed fun ends => .origin (.pure ?_)
    exact .inclusion room ⟨begins, passed, ends⟩ reads ignores isMissing inContext
  cases ignoreMissing with
  | true => exact .part passed (expectWord_reads closed _) fun _ third isMissing => ends isMissing
  | false => exact ends rfl passed

theorem importRule_gives (begins : Begins stream start "import") :
    GivesInside stream depth start (importRule (stream.get start)) := by
  refine .mark closed (.refl _ _) rfl fun _ passed => ?_
  refine .expression closed passed fun template first reads passed => ?_
  refine .part passed (expectWord_reads closed _) fun _ second renames passed => ?_
  refine .part passed (identifier_reads closed) fun target third named passed => ?_
  refine .part passed (contextModifier_reads closed _) fun withContext stop inContext passed => ?_
  refine .blockEnd closed fun ends => .origin (.pure ?_)
  exact .importAs room ⟨begins, passed, ends⟩ reads renames named inContext

theorem importNamesRule_gives (begins : Begins stream start "from") :
    GivesInside stream depth start (importNamesRule (stream.get start)) := by
  refine .mark closed (.refl _ _) rfl fun _ passed => ?_
  refine .expression closed passed fun template first reads passed => ?_
  refine .mark closed passed rfl fun isImport passed => ?_
  refine .part passed (importedNames_reads closed) fun names second named passed => ?_
  refine .part passed (contextModifier_reads closed _) fun withContext stop inContext passed => ?_
  refine .blockEnd closed fun ends => .origin (.pure ?_)
  exact .importNames room ⟨begins, passed, ends⟩ reads isImport named inContext

/-! ### Tags with bodies -/

variable {statement : Parsing (Option Stmt)} (derives : Derives stream statement)

include derives

theorem forRule_gives (begins : Begins stream start "for") :
    GivesInside stream depth start (forRule statement (stream.get start)) := by
  refine .mark closed (.refl _ _) rfl fun _ passed => ?_
  refine .part passed (assignTargets_reads closed) fun targets first targeted passed => ?_
  refine .mark closed passed rfl fun isIn passed => ?_
  refine .unconditional closed passed fun iter second reads passed => ?_
  refine .part passed (skipIf_reads closed rfl) fun hasFilter third filters passed => ?_
  have afterHead {filter : Option Expr} {fourth : Nat}
      (filtered : optional hasFilter (levelsAt (depth + 1)) stream third = .ok filter fourth)
      (passed : Passes stream (start + 1) fourth) :
      Gives stream (depth + 1) fourth (DerivedFrom stream depth start)
        (forRest statement (stream.get start) targets iter filter) := by
    refine .part passed (skipWord_reads closed _) fun isRecursive inner recursive passed => ?_
    refine .blockEnd closed fun ends => ?_
    refine derives.body closed fun body ender middle repeated closes _ => ?_
    refine .blockEnd closed fun endsBody => ?_
    refine derives.otherwise closed fun elseBody stop rest => .origin (.pure ?_)
    exact .forLoop room ⟨begins, passed, ends⟩ targeted isIn reads filters filtered recursive
      repeated ⟨closes, closes.passes, endsBody⟩ rest
  cases hasFilter with
  | true =>
      simp only [if_true, map_eq_pure_bind, bind_assoc, pure_bind]
      refine .expression closed passed fun filter fourth outcome passed => afterHead ?_ passed
      exact map_eq_of_ok outcome
  | false => exact afterHead rfl passed

theorem choiceRule_gives (begins : Begins stream start "if") :
    GivesInside stream depth start (choiceRule statement (stream.get start)) := by
  refine .mark closed (.refl _ _) rfl fun _ passed => ?_
  refine .expression closed passed fun condition inner reads passed => ?_
  refine .blockEnd closed fun ends => ?_
  refine derives.body closed fun body ender middle guarded begins' _ => ?_
  refine .bind (elifBranches_gives closed derives begins') ?_
  rintro ⟨elifs, lastEnder⟩ _ ⟨more, branches, closes, rfl⟩
  refine .blockEnd closed fun endsBranches => ?_
  refine derives.otherwise closed fun elseBody stop rest => .origin (.pure ?_)
  exact .choice room ⟨begins, passed, ends⟩ reads guarded branches
    ⟨closes, closes.passes, endsBranches⟩ rest

theorem assignRule_gives (begins : Begins stream start "set") :
    GivesInside stream depth start (assignRule statement (stream.get start)) := by
  refine .mark closed (.refl _ _) rfl fun _ passed => ?_
  refine .part passed (assignTargets_reads closed) fun targets first targeted passed => ?_
  by_cases assigns : (stream.get first).kind = .assign
  · refine .lift fun isInline _ outcome => ?_
    rw [skipIf_eq_of_kind assigns, closed.next_eq (by simp [assigns])] at outcome
    cases outcome
    have mark : Passes stream first (first + 1) := .succ (assigns ▸ rfl)
    refine .expression closed (passed.trans mark) fun value stop reads passed => ?_
    refine .blockEnd closed fun ends => .origin (.pure ?_)
    exact .assign room ⟨begins, passed, ends⟩ targeted assigns reads
  · refine .lift fun isInline _ outcome => ?_
    rw [skipIf_eq_of_ne assigns] at outcome
    cases outcome
    simp only [Bool.false_eq_true, if_false]
    split
    · exact .current (.throw _)
    · next isSingle =>
      refine .blockEnd closed fun ends => ?_
      refine derives.closedBody closed fun body middle stop captured closes => .origin (.pure ?_)
      exact .capture room ⟨begins, passed, ends⟩ targeted (not_not.1 isSingle) captured closes

theorem blockRule_gives (begins : Begins stream start "block") :
    GivesInside stream depth start (blockRule statement (stream.get start)) := by
  refine .mark closed (.refl _ _) rfl fun _ passed => ?_
  refine .part passed (identifier_reads closed) fun name first named passed => ?_
  refine .part passed (blockModifiers_reads closed) fun modifiers inner modified passed => ?_
  refine .blockEnd closed fun ends => ?_
  refine derives.body closed fun body ender middle inside closes isEnder => ?_
  obtain rfl := List.mem_singleton.1 isEnder
  have last {stop : Nat} (passes : Passes stream (middle + 1) stop) :
      Gives stream (depth + 1) stop (DerivedFrom stream depth start)
        (blockRest (stream.get start) name modifiers.1 modifiers.2 body) :=
    .blockEnd closed fun endsBody => .origin (.pure
      (.block room ⟨begins, passed, ends⟩ named modified inside ⟨closes, passes, endsBody⟩))
  refine .current ?_
  dsimp only
  split
  · next isName =>
    split
    · exact .part closes.passes (advance_reads closed (isName ▸ rfl)) fun _ _ _ => last
    · exact .throw_bind _
  · exact last closes.passes

theorem macroRule_gives (begins : Begins stream start "macro") :
    GivesInside stream depth start (macroRule statement (stream.get start)) := by
  refine .mark closed (.refl _ _) rfl fun _ passed => ?_
  refine .part passed (identifier_reads closed) fun name first named passed => ?_
  refine .withDeeper closed passed (signature_reads closed) fun params inner signed passed => ?_
  refine .blockEnd closed fun ends => ?_
  refine derives.body closed fun body ender middle inside closes isEnder => ?_
  obtain rfl := List.mem_singleton.1 isEnder
  refine .part closes.passes (skipWord_reads closed _) fun _ stop _ passes => ?_
  refine .blockEnd closed fun endsBody => .origin (.pure ?_)
  exact .macro_ room ⟨begins, passed, ends⟩ named signed inside ⟨closes, passes, endsBody⟩

theorem callRule_gives (begins : Begins stream start "call") :
    GivesInside stream depth start (callRule statement (stream.get start)) := by
  refine .mark closed (.refl _ _) rfl fun _ passed => ?_
  have afterParams (params : List Parameter) (first : Nat)
      (signed : callParams (levelsAt (depth + 1)) stream (start + 2) = .ok params first)
      (passed : Passes stream (start + 1) first) :
      Gives stream (depth + 1) first (DerivedFrom stream depth start)
        (callRest statement (stream.get start) params) := by
    refine .current (.expression closed passed fun call inner reads passed => ?_)
    dsimp only
    split
    · exact .throw_bind _
    · next isCall =>
      have isCall : call.isCall = true := by simpa using isCall
      refine .blockEnd closed fun ends => .lift fun hasBody stop outcome => ?_
      have tag : Tag stream start "call" inner := ⟨begins, passed, ends⟩
      cases outcome
      split
      · next hasBody =>
        refine derives.closedBody closed fun body middle stop inside closes => .origin (.pure ?_)
        exact .callBlock room tag signed reads isCall hasBody inside closes
      · next isBare =>
        split
        · next noParams =>
          have isBare := Bool.eq_false_iff.2 isBare
          rw [List.isEmpty_iff.1 noParams] at signed
          exact .origin (.pure (.bareCall room tag signed reads isCall isBare))
        · exact .throw _
  refine .current ?_
  dsimp only
  split
  · next isSigned =>
    refine .withDeeper closed passed (signature_reads closed) fun params first signed passed => ?_
    refine afterParams params first ?_ passed
    rw [callParams, current_bind, if_pos isSigned]
    exact signed
  · next isUnsigned =>
    refine afterParams [] (start + 2) ?_ passed
    rw [callParams, current_bind, if_neg isUnsigned]
    rfl

theorem scopeRule_gives (begins : Begins stream start "with") :
    GivesInside stream depth start (scopeRule statement (stream.get start)) := by
  refine .mark closed (.refl _ _) rfl fun _ passed => ?_
  refine .withDeeper closed passed (assignments_reads closed) fun given inner reads passed => ?_
  refine .blockEnd closed fun ends => ?_
  refine derives.closedBody closed fun body middle stop inside closes => .origin (.pure ?_)
  exact .scope room ⟨begins, passed, ends⟩ reads inside closes

theorem filteredRule_gives (begins : Begins stream start "filter") :
    GivesInside stream depth start (filteredRule statement (stream.get start)) := by
  refine .expectWord closed ?_
  refine .withDeeper closed begins.passes (filterCalls_reads closed)
    fun filters inner reads passed => ?_
  refine .blockEnd closed fun ends => ?_
  refine derives.closedBody closed fun body middle stop inside closes => .origin (.pure ?_)
  exact .filtered room ⟨begins, passed, ends⟩ reads inside closes

theorem autoescapeRule_gives (begins : Begins stream start "autoescape") :
    GivesInside stream depth start (autoescapeRule statement (stream.get start)) := by
  refine .expectWord closed ?_
  refine .expression closed begins.passes fun enabled inner reads passed => ?_
  refine .blockEnd closed fun ends => ?_
  refine derives.closedBody closed fun body middle stop inside closes => .origin (.pure ?_)
  exact .autoescape room ⟨begins, passed, ends⟩ reads inside closes

end

/-! ### Any statement -/

section

variable (closed : stream.IsClosed) {statement : Parsing (Option Stmt)}
  (derives : Derives stream statement)

include closed derives

/-- Every rule for a block tag succeeds with a statement that is derived from the tag. -/
theorem tagRules_gives {word : String} (begins : Begins stream start word)
    {rule : Token → Parsing Stmt} (isRule : (tagRules statement).lookup word = some rule) :
    Gives stream depth (start + 1) (DerivedFrom stream depth start)
      (rule (stream.get start)) := by
  have all : ∀ entry ∈ tagRules statement, Begins stream start entry.1 →
      Gives stream depth (start + 1) (DerivedFrom stream depth start)
        (entry.2 (stream.get start)) := by
    simp only [tagRules, List.forall_mem_cons, List.not_mem_nil, false_implies, implies_true,
      and_true]
    exact ⟨fun begins => .nested fun room => forRule_gives closed room derives begins,
      fun begins => .nested fun room => choiceRule_gives closed room derives begins,
      fun begins => .nested fun room => assignRule_gives closed room derives begins,
      fun begins => .nested fun room => blockRule_gives closed room derives begins,
      fun begins => .nested fun room => parentRule_gives closed room begins,
      fun begins => .nested fun room => inclusionRule_gives closed room begins,
      fun begins => .nested fun room => importRule_gives closed room begins,
      fun begins => .nested fun room => importNamesRule_gives closed room begins,
      fun begins => .nested fun room => macroRule_gives closed room derives begins,
      fun begins => .nested fun room => callRule_gives closed room derives begins,
      fun begins => .nested fun room => scopeRule_gives closed room derives begins,
      fun begins => .nested fun room => filteredRule_gives closed room derives begins,
      fun begins => .nested fun room => autoescapeRule_gives closed room derives begins,
      fun begins => .nested fun room => evaluateRule_gives closed room begins,
      fun begins => simpleRule_gives closed begins (by decide),
      fun begins => simpleRule_gives closed begins (by decide),
      fun begins => simpleRule_gives closed begins (by decide)⟩
  obtain ⟨before, after, split, _⟩ := List.lookup_eq_some_iff.1 isRule
  exact all (word, rule) (by simp [split]) begins

omit closed derives in
theorem gives_some {here : Nat} {rule : Parsing Stmt}
    (gives : Gives stream depth here (DerivedFrom stream depth start) rule) :
    Gives stream depth here (fun stmt stop => Derived stream depth start (.statement stmt) stop)
      (some <$> rule) :=
  gives.map fun _ _ derived => derived

theorem blockTagRule_gives (isBlock : (stream.get start).kind = .blockBegin) :
    Gives stream depth start (fun stmt stop => Derived stream depth start (.statement stmt) stop)
      (blockTagRule statement {}) := by
  refine .advance closed (by simp [isBlock]) (.current ?_)
  cases isWord : (stream.get (start + 1)).word? with
  | none => exact .refuse _ _
  | some word =>
      cases isRule : (tagRules statement).lookup word with
      | none =>
          simp only [isRule]
          split
          · exact .throw _
          · exact .current (.throw _)
      | some rule =>
          simp only [isRule]
          exact gives_some (tagRules_gives closed derives ⟨isBlock, isWord⟩ isRule)

theorem statementRule_gives : Gives stream depth start
    (fun stmt stop => Derived stream depth start (.statement stmt) stop)
    (statementRule statement {}) := by
  refine .current ?_
  split
  · next isData =>
    refine gives_some (.current ?_)
    rw [if_pos isData]
    exact .lift fun content stop reads => .origin (.pure (.text isData reads))
  · next isOutput =>
    refine gives_some (.nested fun room => ?_)
    refine .expect closed (by simp) fun _ => ?_
    refine .expression closed (.refl _ _) fun expr stop reads _ => ?_
    refine .expect closed (by simp) fun ends => .origin (.pure ?_)
    exact .output room isOutput reads ends
  · next isBlock => exact blockTagRule_gives closed derives isBlock
  · next isRaw =>
    refine gives_some (.expect closed (by simp) fun _ => .lift fun content stop reads => ?_)
    refine .lift fun isEnd last outcome => ?_
    by_cases ends : (stream.get stop).kind = .rawEnd
    · rw [skipIf_eq_of_kind ends, closed.next_eq (by simp [ends])] at outcome
      cases outcome
      exact .origin (.pure (.raw isRaw reads ends))
    · rw [skipIf_eq_of_ne ends] at outcome
      cases outcome
      exact .throw _
  · next isComment =>
    exact .lift fun _ stop reads => .pure (.comment (Or.inl isComment) reads)
  · next isComment =>
    exact .lift fun _ stop reads => .pure (.comment (Or.inr isComment) reads)
  · exact .refuse _ _

end

/-- Without extensions, there is a derivation for every statement that is read. -/
theorem parse_derives (closed : stream.IsClosed) : Derives stream (parse {}) := by
  intro depth start
  generalize left : stream.size - start = count
  induction count using Nat.strongRecOn generalizing depth start with
  | ind count ih =>
      rintro place after stmt rfl rfl outcome
      rw [parse_eq] at outcome
      refine statementRule_gives closed ?_ place after stmt rfl rfl outcome
      rintro depth start inner after stmt rfl rfl outcome
      unfold beyond at outcome
      split at outcome
      · next further =>
        exact ih (stream.size - inner.cursor) (by omega) _ _ rfl inner after stmt rfl rfl outcome
      · cases outcome

end Stmt

end Stencil

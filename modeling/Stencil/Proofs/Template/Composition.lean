import Stencil.Profiles
import Stencil.Proofs.Parse.Accounting
import Stencil.Proofs.Stmt.Windows
import Stencil.Proofs.Template.PlainText

/-!
# Templates one after the other

A template that is cut in two before a tag is parsed as its two parts are: an error in one of them
changes nothing in the other. The first part must not be unfinished where it is cut, and must not
hold call tags, which look ahead as far as the end of the template. One error names the place of
the token after what it is about, and so names the first token of the second part where the first
part alone names its end.

The parse of the whole is compared with the parse of each part: the tokens of the first part are a
window that goes on with a tag, and those of the second part are a window up to the end.
-/

namespace Stencil

namespace Window

variable {window : Window} {start : Nat}

/-- A search for something that the beginning of a tag is too does not leave the window. -/
theorem seek_eq {found : Token → Bool}
    (stops : ∀ token : Token, token.kind.isBoundary = true → found token = true)
    (inside : start ≤ window.limit) :
    window.far.seek found (start + window.shift) =
        window.near.seek found start + window.shift ∧
      window.near.seek found start ≤ window.limit := by
  have sizeNear := window.size_near
  have room := window.room
  generalize isStream : window.near = stream
  fun_induction TokenStream.seek stream found start with
  | case1 start isFound =>
      subst isStream
      refine ⟨?_, inside⟩
      rw [TokenStream.seek, if_pos]
      rcases Nat.lt_or_eq_of_le inside with before | rfl
      · rwa [window.same start before]
      · exact stops _ window.isBoundary_far
  | case2 start notFound further ih =>
      subst isStream
      have before : start < window.limit := by omega
      rw [TokenStream.seek, window.same start before, if_neg notFound, if_pos (by omega),
        show start + window.shift + 1 = start + 1 + window.shift by omega]
      exact ih before
  | case3 start notFound isLast =>
      subst isStream
      obtain rfl : start = window.limit := by omega
      exact absurd (stops _ window.isBoundary_near) notFound

end Window

namespace Template

variable {window : Window}

/-- Errors that were met are never forgotten. -/
theorem mem_errors_parseAll [Limits] {registry : Registry} {stream : TokenStream}
    {progress : Progress} {error : SyntaxError} (met : error ∈ progress.errors) :
    error ∈ (parseAll registry stream progress).errors := by
  have kept (progress : Progress) (met : error ∈ progress.errors) :
      error ∈ (parseNext registry stream progress).errors := by
    have step := parseNext_step registry stream progress
    generalize parseNext registry stream progress = next at step
    cases step with
    | stray => exact List.mem_append_left _ met
    | statement => exact met
    | recovered => exact List.mem_append_left _ met
    | fatal => exact met
  fun_induction parseAll registry stream progress with
  | case1 progress => exact met
  | case2 progress notEnd next further ih => exact ih (kept progress met)
  | case3 progress notEnd next stays => exact kept progress met

/-- Both sides find the same closing tag without a block. -/
theorem strayTag?_eq {cursor : Nat} (inside : cursor < window.limit) :
    strayTag? {} window.far (cursor + window.shift) = strayTag? {} window.near cursor := by
  have sameWord : (window.far.get (cursor + window.shift + 1)).word? =
      (window.near.get (cursor + 1)).word? := by
    rw [show cursor + window.shift + 1 = cursor + 1 + window.shift by omega]
    rcases Nat.lt_or_eq_of_le inside with further | last
    · rw [window.same _ further]
    · rw [show cursor + 1 = window.limit from last, Token.word?_of_isBoundary window.isBoundary_far,
        Token.word?_of_isBoundary window.isBoundary_near]
  rw [strayTag?, strayTag?, window.same cursor inside, sameWord]

theorem lt_limit_of_strayTag? {cursor : Nat} {word : String} (inside : cursor < window.limit)
    (isStray : strayTag? {} window.near cursor = some word) : cursor + 1 < window.limit := by
  unfold strayTag? at isStray
  split at isStray
  · have inner := Token.isInner_of_word? (Option.filter_eq_some_iff.1 isStray).1
    exact window.lt_limit inside (Token.Kind.ne_eof_of_isInner inner)
  · cases isStray

/-- Both sides pass over a closing tag in the same way. -/
theorem afterTag_beside {cursor : Nat} (inside : cursor + 1 < window.limit) :
    window.Beside (cursor + 1) (afterTag window.near cursor)
      (afterTag window.far (cursor + window.shift)) := by
  let found (token : Token) : Bool := token.kind.isCloser || token.kind.isBoundary
  have afterTag_eq (stream : TokenStream) (cursor : Nat) : afterTag stream cursor =
      if (stream.get (stream.seek found (stream.next cursor))).kind.isCloser then
        stream.next (stream.seek found (stream.next cursor))
      else stream.seek found (stream.next cursor) := rfl
  have stops (token : Token) (boundary : token.kind.isBoundary = true) : found token = true := by
    simp [found, boundary]
  rw [afterTag_eq, afterTag_eq, window.next_near (by omega), window.next_far (by omega)]
  rcases window.seek_eq stops (Nat.le_of_lt inside) with ⟨sameStop, stopInside⟩
  rcases window.near.seek_spec found (cursor + 1) with ⟨later, _, _⟩
  rw [sameStop]
  generalize window.near.seek found (cursor + 1) = stop at stopInside later
  rcases Nat.lt_or_eq_of_le stopInside with before | rfl
  · rw [window.same stop before, window.next_near before, window.next_far before]
    split
    · exact ⟨by omega, before, rfl⟩
    · exact ⟨later, stopInside, rfl⟩
  · have notCloser {token : Token} (boundary : token.kind.isBoundary = true) :
        ¬token.kind.isCloser = true := by
      rcases Token.isBoundary_cases boundary with isKind | isKind | isKind | isKind <;>
        simp [isKind, Token.Kind.isCloser]
    rw [if_neg (notCloser window.isBoundary_near), if_neg (notCloser window.isBoundary_far)]
    exact ⟨later, stopInside, rfl⟩

/-- Both sides take the parse up again at the same place. -/
theorem recoveryPoint_beside {start cursor : Nat} (before : start < window.limit)
    (inOrder : start ≤ cursor) (inside : cursor ≤ window.limit) :
    window.Beside (max (start + 1) cursor) (recoveryPoint window.near start cursor)
      (recoveryPoint window.far (start + window.shift) (cursor + window.shift)) := by
  have stops (token : Token) (boundary : token.kind.isBoundary = true) :
      token.kind.isBoundary = true := boundary
  rcases Nat.lt_or_eq_of_le inOrder with further | rfl
  · rcases window.seek_eq stops inside with ⟨sameStop, stopInside⟩
    rcases window.near.seek_spec (·.kind.isBoundary) cursor with ⟨later, _, _⟩
    rw [recoveryPoint, recoveryPoint, if_neg (by omega), if_neg (by omega)]
    exact ⟨by omega, stopInside, sameStop⟩
  · rcases window.seek_eq stops before with ⟨sameStop, stopInside⟩
    rcases window.near.seek_spec (·.kind.isBoundary) (start + 1) with ⟨later, _, _⟩
    rw [recoveryPoint, recoveryPoint, if_pos rfl, if_pos rfl, window.next_near before,
      window.next_far before]
    exact ⟨by omega, stopInside, sameStop⟩

/-- The errors of the other parse are those before it and those of the window. At the end of the
window the last of them may name the next token. -/
def ErrorsFollow (window : Window) (before : List SyntaxError) (near far : Progress) : Prop :=
  far.errors = before ++ near.errors ∨
    near.place.cursor = window.limit ∧ ∃ earlier,
      near.errors = earlier ++
        [.violation .captureTargets (window.near.get window.limit).span] ∧
      far.errors = before ++ earlier ++
        [.violation .captureTargets (window.far.get (window.limit + window.shift)).span]

/-- The parse of the other stream stands where the parse of the window stands, with the same
statements and errors after those that it had before. -/
structure Follows (window : Window) (body : List Stmt) (errors : List SyntaxError)
    (near far : Progress) : Prop where
  placed : window.Placed 0 0 near.place far.place
  body : far.body = body ++ near.body
  errors : ErrorsFollow window errors near far
  near_fatal : near.fatal = none
  far_fatal : far.fatal = none

/-- What a step on both sides of a window comes to. -/
inductive StepAlike (window : Window) (body : List Stmt) (errors : List SyntaxError)
    (near next next' : Progress) : Prop where
  | further (follows : Follows window body errors next next')
      (further : near.place.cursor < next.place.cursor)
  | deep (fatal : next.fatal ≠ none)
  | unfinished (opens : window.Opens) {error : SyntaxError} (met : error ∈ next.errors)
      (isUnfinished : error.isUnfinished = true)

theorem isRecoverable_of_isUnfinished {error : SyntaxError} (unfinished : error.isUnfinished = true) :
    error.isRecoverable = true := by
  cases recoverable : error.isRecoverable with
  | true => rfl
  | false =>
      rcases (SyntaxError.isRecoverable_eq_false_iff error).1 recoverable with ⟨levels, span, rfl⟩
      cases unfinished

section

variable {body : List Stmt} {errors : List SyntaxError} {near far : Progress}
  (follows : Follows window body errors near far)
  (inside : near.place.cursor < window.limit)

include follows inside

/-- Before its end a window has the same errors on both sides. -/
theorem Follows.errors_eq : far.errors = errors ++ near.errors := by
  rcases follows.errors with same | ⟨atLimit, _⟩
  · exact same
  · omega

theorem Follows.strayTag?_eq :
    strayTag? {} window.far far.place.cursor = strayTag? {} window.near near.place.cursor := by
  rw [follows.placed.beside.shifted]
  exact Template.strayTag?_eq inside

theorem Follows.recoveryPoint {after after' : Place}
    (placed : window.Placed 0 near.place.cursor after after') :
    window.Beside (max (near.place.cursor + 1) after.cursor)
      (recoveryPoint window.near near.place.cursor after.cursor)
      (recoveryPoint window.far far.place.cursor after'.cursor) := by
  rw [follows.placed.beside.shifted, placed.beside.shifted]
  exact recoveryPoint_beside inside placed.beside.later placed.beside.inside

variable [Limits]

/-- A closing tag without a block is dropped on both sides. -/
theorem Follows.stray {word : String}
    (isStray : strayTag? {} window.near near.place.cursor = some word) :
    StepAlike window body errors near (parseNext {} window.near near)
      (parseNext {} window.far far) := by
  have isStray' := (follows.strayTag?_eq inside).trans isStray
  have further := lt_limit_of_strayTag? inside isStray
  have shifted := follows.placed.beside.shifted
  have point := afterTag_beside further
  rw [← shifted] at point
  have sameTag : window.far.get (window.far.next far.place.cursor) =
      window.near.get (window.near.next near.place.cursor) := by
    rw [shifted, window.next_near inside, window.next_far inside, window.same _ further]
  rw [parseNext_eq_of_stray isStray, parseNext_eq_of_stray isStray', sameTag]
  refine .further ⟨⟨⟨Nat.zero_le _, point.inside, point.shifted⟩, follows.placed.near_depth,
    follows.placed.far_depth⟩, follows.body, Or.inl ?_, follows.near_fatal, follows.far_fatal⟩
    point.later
  rw [follows.errors_eq inside, List.append_assoc]

/-- Both sides drop a statement that fails with the same error. -/
theorem Follows.fail {error : SyntaxError} {after after' : Place}
    (notStray : strayTag? {} window.near near.place.cursor = none)
    (placed : window.Placed 0 near.place.cursor after after')
    (outcome : Stmt.parse {} window.near near.place = .error error after)
    (outcome' : Stmt.parse {} window.far far.place = .error error after') :
    StepAlike window body errors near (parseNext {} window.near near)
      (parseNext {} window.far far) := by
  have notStray' := (follows.strayTag?_eq inside).trans notStray
  cases recoverable : error.isRecoverable with
  | true =>
      have point := follows.recoveryPoint inside placed
      rw [parseNext_eq_of_error notStray outcome recoverable,
        parseNext_eq_of_error notStray' outcome' recoverable]
      refine .further ⟨⟨⟨Nat.zero_le _, point.inside, point.shifted⟩, placed.near_depth,
        placed.far_depth⟩, follows.body, Or.inl ?_, follows.near_fatal, follows.far_fatal⟩
        (Nat.le_trans (Nat.le_max_left _ _) point.later)
      rw [follows.errors_eq inside, List.append_assoc]
  | false =>
      rcases (SyntaxError.isRecoverable_eq_false_iff error).1 recoverable with ⟨levels, span, rfl⟩
      apply StepAlike.deep
      rw [parseNext_fatal_of_tooDeep notStray outcome]
      exact Option.some_ne_none _

/-- One step on both sides of a window. -/
theorem Follows.parseNext :
    StepAlike window body errors near (parseNext {} window.near near)
      (parseNext {} window.far far) := by
  cases isStray : strayTag? {} window.near near.place.cursor with
  | some word => exact follows.stray inside isStray
  | none =>
      have notStray := (follows.strayTag?_eq inside).trans isStray
      rcases Stmt.parse_agree follows.placed inside with agree | ⟨error, outcome, outcome'⟩
      · generalize outcome : Stmt.parse {} window.near near.place = result at agree
        generalize outcome' : Stmt.parse {} window.far far.place = result' at agree
        cases agree with
        | ok placed =>
            rw [parseNext_eq_of_ok isStray outcome, parseNext_eq_of_ok notStray outcome']
            refine .further ⟨placed.mono (Nat.zero_le _), ?_,
              Or.inl (follows.errors_eq inside), follows.near_fatal, follows.far_fatal⟩
              placed.beside.later
            rw [follows.body, List.append_assoc]
        | error placed =>
            exact follows.fail inside isStray (placed.mono (Nat.le_succ _)) outcome outcome'
        | moved placed atLimit =>
            have point := follows.recoveryPoint inside (placed.mono (Nat.le_succ _))
            have atEnd := Nat.le_trans (Nat.le_max_right _ _) point.later
            rw [parseNext_eq_of_error isStray outcome rfl,
              parseNext_eq_of_error notStray outcome' rfl]
            refine .further ⟨⟨⟨Nat.zero_le _, point.inside, point.shifted⟩, placed.near_depth,
              placed.far_depth⟩, follows.body, Or.inr ⟨?_, near.errors, rfl, ?_⟩,
              follows.near_fatal, follows.far_fatal⟩
              (Nat.le_trans (Nat.le_max_left _ _) point.later)
            · exact Nat.le_antisymm point.inside (Nat.le_trans atLimit.beside.later atEnd)
            · rw [follows.errors_eq inside]
        | deep =>
            apply StepAlike.deep
            rw [parseNext_fatal_of_tooDeep isStray outcome]
            exact Option.some_ne_none _
        | unfinished opens isUnfinished =>
            refine .unfinished opens ?_ isUnfinished
            rw [parseNext_eq_of_error isStray outcome (isRecoverable_of_isUnfinished isUnfinished)]
            exact List.mem_append_right _ (List.mem_singleton_self _)
      · have placed := follows.placed
        exact follows.fail inside isStray ⟨⟨Nat.le_refl _, placed.beside.inside,
          placed.beside.shifted⟩, placed.near_depth, placed.far_depth⟩ outcome outcome'

end

variable [Limits]

/-- A whole parse of a window is the beginning of the parse of the other stream, if it is not nested
too deeply and, where the other stream goes on with a tag, not unfinished. -/
theorem parseAll_follows {body : List Stmt} {errors : List SyntaxError} {near far : Progress}
    (noEnd : ∀ index, index < window.limit → (window.near.get index).kind ≠ .eof)
    (follows : Follows window body errors near far)
    (notFatal : (parseAll {} window.near near).fatal = none)
    (finished : window.Opens → ∀ error ∈ (parseAll {} window.near near).errors,
      error.isUnfinished = false) :
    ∃ last, parseAll {} window.far far = parseAll {} window.far last ∧
      Follows window body errors (parseAll {} window.near near) last ∧
      (parseAll {} window.near near).place.cursor = window.limit := by
  have sizeNear := window.size_near
  have room := window.room
  generalize isStream : window.near = stream at notFatal finished ⊢
  fun_induction parseAll {} stream near generalizing far with
  | case1 near atEnd =>
      subst isStream
      refine ⟨far, rfl, follows, ?_⟩
      by_contra notLast
      have before := Nat.lt_of_le_of_ne follows.placed.beside.inside notLast
      exact noEnd _ before atEnd
  | case2 near notEnd next further =>
      rename_i ih
      subst isStream
      have inside := window.lt_limit follows.placed.beside.inside notEnd
      cases follows.parseNext inside with
      | further followsNext _ =>
          rcases ih followsNext notFatal finished with ⟨last, sameLast, followsLast, atLimit⟩
          refine ⟨last, ?_, followsLast, atLimit⟩
          rw [← sameLast]
          have shifted := follows.placed.beside.shifted
          have shiftedNext := followsNext.placed.beside.shifted
          have cursors := further.2.1
          apply parseAll_eq_of_further
          · rw [follows.placed.beside.get_eq inside]
            exact notEnd
          · exact followsNext.far_fatal
          · omega
          · omega
      | deep fatal => exact absurd (Option.isNone_iff_eq_none.1 further.1) fatal
      | unfinished opens met isUnfinished =>
          have isFinished := finished opens _ (mem_errors_parseAll met)
          rw [isUnfinished] at isFinished
          cases isFinished
  | case3 near notEnd next =>
      rename_i stays
      subst isStream
      have inside := window.lt_limit follows.placed.beside.inside notEnd
      cases follows.parseNext inside with
      | further followsNext isFurther =>
          refine absurd ⟨?_, isFurther, ?_⟩ stays
          · exact Option.isNone_iff_eq_none.2 followsNext.near_fatal
          · omega
      | deep fatal => exact absurd notFatal fatal
      | unfinished opens met isUnfinished =>
          have isFinished := finished opens _ met
          rw [isUnfinished] at isFinished
          cases isFinished

end Template

/-! ### Lists of tokens -/

namespace Token

/-- The token that closes a list of tokens. -/
def ending (tokens : List Token) : Token :=
  match tokens.getLast? with
  | none => ⟨.eof, "", .start, none⟩
  | some last => ⟨.eof, "", last.stop, last.sourceName⟩

/-- The tokens of a list that grammar rules see. -/
def significant (tokens : List Token) : List Token :=
  tokens.filter (·.kind.isSignificant)

@[simp]
theorem significant_append (first second : List Token) :
    significant (first ++ second) = significant first ++ significant second :=
  List.filter_append first second

theorem kind_ending (tokens : List Token) : (ending tokens).kind = .eof := by
  unfold ending
  split <;> rfl

theorem closed_eq {tokens : List Token} (noEnd : ∀ token ∈ tokens, token.kind ≠ .eof) :
    closed tokens = tokens ++ [ending tokens] := by
  unfold closed ending
  cases found : tokens.getLast? with
  | none => simp [List.getLast?_eq_none_iff.1 found]
  | some last => exact if_neg (noEnd last (List.mem_of_getLast? found))

/-- Two lists of tokens of one template, the second of which begins with a tag. -/
structure Joins (first second : List Token) (opener : Token) (name : Option String) : Prop where
  noEnd : ∀ token ∈ first ++ second, token.kind ≠ .eof
  named : ∀ token ∈ first ++ second, token.sourceName = name
  head : (significant second).head? = some opener
  opens : opener.kind.opensTag = true
  /-- The first list has no call tag. -/
  noCalls : (significant first).IsChain fun opening tag =>
    ¬(opening.kind = .blockBegin ∧ tag.isWord "call" = true)

end Token

namespace TokenStream

variable {tokens : List Token}

theorem significant_ofTokens (noEnd : ∀ token ∈ tokens, token.kind ≠ .eof) :
    (ofTokens tokens).significant.toList = Token.significant tokens ++ [Token.ending tokens] := by
  have isSignificant : (Token.ending tokens).kind.isSignificant = true := by
    rw [Token.kind_ending]
    rfl
  simp [ofTokens, Token.closed_eq noEnd, Token.significant, isSignificant]

theorem size_ofTokens (noEnd : ∀ token ∈ tokens, token.kind ≠ .eof) :
    (ofTokens tokens).size = (Token.significant tokens).length + 1 := by
  rw [size, ← Array.length_toList, significant_ofTokens noEnd]
  simp

theorem get_eq_of_getElem? {stream : TokenStream} {index : Nat} {token : Token}
    (found : stream.significant.toList[index]? = some token) : stream.get index = token := by
  have inside : index < stream.size := by
    have := (List.getElem?_eq_some_iff.1 found).1
    simpa [size] using this
  have split := drop_eq_cons inside
  rw [← List.head?_drop, split] at found
  exact Option.some.inj found

theorem get_eq_getElem (noEnd : ∀ token ∈ tokens, token.kind ≠ .eof) {index : Nat}
    (inside : index < (Token.significant tokens).length) :
    (ofTokens tokens).get index = (Token.significant tokens)[index] := by
  apply get_eq_of_getElem?
  rw [significant_ofTokens noEnd, List.getElem?_append_left inside,
    List.getElem?_eq_getElem inside]

theorem kind_ne_eof (noEnd : ∀ token ∈ tokens, token.kind ≠ .eof) {index : Nat}
    (inside : index < (Token.significant tokens).length) :
    ((ofTokens tokens).get index).kind ≠ .eof := by
  rw [get_eq_getElem noEnd inside]
  exact noEnd _ (List.mem_filter.1 (List.getElem_mem inside)).1

theorem sourceName_ofTokens {name : Option String} (noEnd : ∀ token ∈ tokens, token.kind ≠ .eof)
    (named : ∀ token ∈ tokens, token.sourceName = name) (nonempty : tokens ≠ []) :
    (ofTokens tokens).sourceName = name := by
  have endingNamed : (Token.ending tokens).sourceName = name := by
    unfold Token.ending
    cases found : tokens.getLast? with
    | none => exact absurd (List.getLast?_eq_none_iff.1 found) nonempty
    | some last => exact named last (List.mem_of_getLast? found)
  have member := (ofTokens tokens).get_mem 0
  rw [significant_ofTokens noEnd, List.mem_append, List.mem_singleton] at member
  rw [sourceName]
  rcases member with isToken | isEnding
  · exact named _ (List.mem_filter.1 isToken).1
  · rw [isEnding, endingNamed]

end TokenStream

namespace Token.Joins

variable {first second : List Token} {opener : Token} {name : Option String}
  (joins : Joins first second opener name)

include joins

theorem noEnd_first : ∀ token ∈ first, token.kind ≠ .eof :=
  fun token member => joins.noEnd token (List.mem_append_left _ member)

theorem noEnd_second : ∀ token ∈ second, token.kind ≠ .eof :=
  fun token member => joins.noEnd token (List.mem_append_right _ member)

theorem second_ne_nil : second ≠ [] := by
  rintro rfl
  cases joins.head

theorem ending_append : ending (first ++ second) = ending second := by
  cases found : second.getLast? with
  | none => exact absurd (List.getLast?_eq_none_iff.1 found) joins.second_ne_nil
  | some last => simp [ending, List.getLast?_append, found]

theorem significant_whole : (TokenStream.ofTokens (first ++ second)).significant.toList =
    significant first ++ (significant second ++ [ending second]) := by
  rw [TokenStream.significant_ofTokens joins.noEnd, significant_append, joins.ending_append,
    List.append_assoc]

theorem size_whole : (TokenStream.ofTokens (first ++ second)).size =
    (significant first).length + (significant second).length + 1 := by
  rw [TokenStream.size_ofTokens joins.noEnd, significant_append, List.length_append]

theorem get_whole_first {index : Nat} (inside : index < (significant first).length) :
    (TokenStream.ofTokens (first ++ second)).get index =
      (TokenStream.ofTokens first).get index := by
  apply TokenStream.get_eq_of_getElem?
  rw [joins.significant_whole, List.getElem?_append_left inside, List.getElem?_eq_getElem inside,
    TokenStream.get_eq_getElem joins.noEnd_first inside]

theorem get_whole_second {index : Nat} (inside : index ≤ (significant second).length) :
    (TokenStream.ofTokens (first ++ second)).get (index + (significant first).length) =
      (TokenStream.ofTokens second).get index := by
  have found : index < (significant second ++ [ending second]).length := by
    simpa using Nat.lt_succ_of_le inside
  apply TokenStream.get_eq_of_getElem?
  rw [joins.significant_whole, List.getElem?_append_right (Nat.le_add_left _ _),
    Nat.add_sub_cancel, List.getElem?_eq_getElem found]
  congr 1
  symm
  apply TokenStream.get_eq_of_getElem?
  rw [TokenStream.significant_ofTokens joins.noEnd_second, List.getElem?_eq_getElem found]

theorem get_second_zero : (TokenStream.ofTokens second).get 0 = opener := by
  apply TokenStream.get_eq_of_getElem?
  rw [TokenStream.significant_ofTokens joins.noEnd_second, ← List.head?_eq_getElem?,
    List.head?_append, joins.head]
  rfl

omit joins in
theorem get_ending {tokens : List Token} (noEnd : ∀ token ∈ tokens, token.kind ≠ .eof) :
    (TokenStream.ofTokens tokens).get (significant tokens).length = ending tokens := by
  apply TokenStream.get_eq_of_getElem?
  rw [TokenStream.significant_ofTokens noEnd]
  simp

theorem sourceName_whole : (TokenStream.ofTokens (first ++ second)).sourceName = name :=
  TokenStream.sourceName_ofTokens joins.noEnd joins.named (by simp [joins.second_ne_nil])

/-- No tag of the first list has the word of a call tag. -/
theorem not_call (index : Nat)
    (isBlock : ((TokenStream.ofTokens first).get index).kind = .blockBegin) :
    ((TokenStream.ofTokens first).get (index + 1)).isWord "call" = false := by
  have notEnd : ((TokenStream.ofTokens first).get index).kind ≠ .eof := by simp [isBlock]
  have before := (TokenStream.isClosed_ofTokens first).lt_size notEnd
  rw [TokenStream.size_ofTokens joins.noEnd_first] at before
  rcases Nat.lt_or_eq_of_le (Nat.le_of_lt_succ before) with further | last
  · have inChain := List.isChain_iff_getElem.1 joins.noCalls index further
    rw [← TokenStream.get_eq_getElem joins.noEnd_first,
      ← TokenStream.get_eq_getElem joins.noEnd_first] at inChain
    simpa [isBlock] using inChain
  · rw [last, get_ending joins.noEnd_first]
    apply isWord_of_isBoundary
    rw [kind_ending]
    rfl

/-- The first list, seen in the whole, is a window that goes on with a tag. -/
def firstWindow (nonempty : first ≠ []) : Window where
  near := .ofTokens first
  far := .ofTokens (first ++ second)
  shift := 0
  limit := (significant first).length
  size_near := TokenStream.size_ofTokens joins.noEnd_first
  room := by
    rw [joins.size_whole]
    omega
  atLimit := by
    rw [get_ending joins.noEnd_first]
    exact kind_ending first
  same _ inside := joins.get_whole_first inside
  sourceName := by
    rw [joins.sourceName_whole, TokenStream.sourceName_ofTokens joins.noEnd_first
      (fun token member => joins.named token (List.mem_append_left _ member)) nonempty]
  seam := by
    right
    have atSeam := joins.get_whole_second (Nat.zero_le _)
    rw [Nat.zero_add, joins.get_second_zero] at atSeam
    refine ⟨?_, joins.not_call⟩
    rw [Nat.add_zero, atSeam]
    exact joins.opens

theorem drop_whole (index : Nat) :
    (TokenStream.ofTokens (first ++ second)).significant.toList.drop
        (index + (significant first).length) =
      (TokenStream.ofTokens second).significant.toList.drop index := by
  rw [joins.significant_whole, TokenStream.significant_ofTokens joins.noEnd_second,
    Nat.add_comm, ← List.drop_drop, List.drop_left]

/-- The second list, seen in the whole, is a window up to the end. -/
def secondWindow : Window where
  near := .ofTokens second
  far := .ofTokens (first ++ second)
  shift := (significant first).length
  limit := (significant second).length
  size_near := TokenStream.size_ofTokens joins.noEnd_second
  room := by
    rw [joins.size_whole]
    omega
  atLimit := by
    rw [get_ending joins.noEnd_second]
    exact kind_ending second
  same _ inside := joins.get_whole_second (Nat.le_of_lt inside)
  sourceName := by
    rw [joins.sourceName_whole, TokenStream.sourceName_ofTokens joins.noEnd_second
      (fun token member => joins.named token (List.mem_append_right _ member))
      joins.second_ne_nil]
  seam := Or.inl joins.drop_whole

theorem secondWindow_closes : joins.secondWindow.Closes := joins.drop_whole

end Token.Joins

namespace Template

variable {first second : List Token} {opener : Token} {name : Option String}

theorem of_result_eq_ok {progress : Progress} {stream : TokenStream} {template : Template}
    (parsed : progress.result stream = .ok template) :
    progress.fatal = none ∧ template = ⟨progress.body, stream.sourceName⟩ := by
  unfold Progress.result at parsed
  split at parsed
  · cases parsed
  · next notFatal =>
    cases parsed
    exact ⟨notFatal, rfl⟩

theorem result_eq_ok {progress : Progress} (stream : TokenStream)
    (notFatal : progress.fatal = none) :
    progress.result stream = .ok ⟨progress.body, stream.sourceName⟩ := by
  rw [Progress.result, notFatal]

section

variable [Limits]

/-- The parse of the whole template, once the first part of it has been parsed. -/
theorem parseAll_second (joins : Token.Joins first second opener name) {last : Progress}
    (notFatal : (parse {} (.ofTokens second)).fatal = none)
    (follows : Follows joins.secondWindow last.body last.errors {} last) :
    (parseAll {} (.ofTokens (first ++ second)) last).fatal = none ∧
      (parseAll {} (.ofTokens (first ++ second)) last).body =
        last.body ++ (parse {} (.ofTokens second)).body ∧
      (parseAll {} (.ofTokens (first ++ second)) last).errors =
        last.errors ++ (parse {} (.ofTokens second)).errors := by
  have atSeam := joins.secondWindow.get_limit_of_closes joins.secondWindow_closes
  have notOpens : ¬joins.secondWindow.Opens := by
    rw [Window.Opens, atSeam, joins.secondWindow.atLimit]
    decide
  rcases parseAll_follows (fun _ => TokenStream.kind_ne_eof joins.noEnd_second) follows notFatal
    (fun opens => absurd opens notOpens) with ⟨whole, sameWhole, followsWhole, atLimit⟩
  have atEnd : (joins.secondWindow.far.get whole.place.cursor).kind = .eof := by
    rw [followsWhole.placed.beside.shifted, atLimit, atSeam]
    exact joins.secondWindow.atLimit
  have sameErrors : whole.errors =
      last.errors ++ (parseAll {} joins.secondWindow.near {}).errors := by
    rcases followsWhole.errors with same | ⟨_, earlier, nearErrors, farErrors⟩
    · exact same
    · rw [nearErrors, farErrors, atSeam, List.append_assoc]
  have ends : parseAll {} joins.secondWindow.far last = whole := by
    rw [sameWhole, parseAll, if_pos atEnd]
  change (parseAll {} joins.secondWindow.far last).fatal = none ∧
    (parseAll {} joins.secondWindow.far last).body = _ ∧
    (parseAll {} joins.secondWindow.far last).errors = _
  rw [ends]
  exact ⟨followsWhole.far_fatal, followsWhole.body, sameErrors⟩

/-- The first part of a template, and the place at which the second part begins. -/
theorem parseAll_first (joins : Token.Joins first second opener name) (nonempty : first ≠ [])
    (notFatal : (parse {} (.ofTokens first)).fatal = none)
    (finished : ∀ error ∈ (parse {} (.ofTokens first)).errors, error.isUnfinished = false) :
    ∃ last, parse {} (.ofTokens (first ++ second)) =
        parseAll {} (.ofTokens (first ++ second)) last ∧
      Follows joins.secondWindow last.body last.errors {} last ∧
      last.body = (parse {} (.ofTokens first)).body ∧
      (last.errors = (parse {} (.ofTokens first)).errors ∨ ∃ earlier,
        (parse {} (.ofTokens first)).errors =
          earlier ++ [.violation .captureTargets (Token.ending first).span] ∧
        last.errors = earlier ++ [.violation .captureTargets opener.span]) := by
  have start : Follows (joins.firstWindow nonempty) [] [] {} {} :=
    ⟨⟨⟨Nat.le_refl _, Nat.zero_le _, rfl⟩, rfl, rfl⟩, rfl, Or.inl rfl, rfl, rfl⟩
  rcases parseAll_follows (fun _ => TokenStream.kind_ne_eof joins.noEnd_first) start notFatal
    (fun _ => finished) with ⟨last, sameWhole, follows, atLimit⟩
  have atEnding : (joins.firstWindow nonempty).near.get (joins.firstWindow nonempty).limit =
      Token.ending first := Token.Joins.get_ending joins.noEnd_first
  have atOpener : (joins.firstWindow nonempty).far.get
      ((joins.firstWindow nonempty).limit + (joins.firstWindow nonempty).shift) = opener := by
    have whole := joins.get_whole_second (Nat.zero_le _)
    rwa [Nat.zero_add, joins.get_second_zero] at whole
  refine ⟨last, sameWhole, ⟨⟨⟨Nat.le_refl _, Nat.zero_le _, ?_⟩, rfl, follows.placed.far_depth⟩,
    (List.append_nil _).symm, Or.inl (List.append_nil _).symm, rfl, follows.far_fatal⟩,
    follows.body, ?_⟩
  · rw [follows.placed.beside.shifted, atLimit]
    exact Nat.add_comm _ _
  · rcases follows.errors with same | ⟨_, earlier, nearErrors, farErrors⟩
    · exact Or.inl same
    · rw [atEnding] at nearErrors
      rw [atOpener] at farErrors
      exact Or.inr ⟨earlier, nearErrors, farErrors⟩

/-- A template that goes on with a tag is parsed as its two parts are: the statements and the errors
of the first part come before those of the second one. Only an assignment of several targets without
a value at the very end of the first part is reported at the tag, and not at the end. -/
theorem parse_append (joins : Token.Joins first second opener name) {template template' : Template}
    (parsed : (parse {} (.ofTokens first)).result (.ofTokens first) = .ok template)
    (finished : ∀ error ∈ (parse {} (.ofTokens first)).errors, error.isUnfinished = false)
    (parsed' : (parse {} (.ofTokens second)).result (.ofTokens second) = .ok template') :
    (parse {} (.ofTokens (first ++ second))).result (.ofTokens (first ++ second)) =
        .ok ⟨template.body ++ template'.body, name⟩ ∧
      ((parse {} (.ofTokens (first ++ second))).errors =
          (parse {} (.ofTokens first)).errors ++ (parse {} (.ofTokens second)).errors ∨
        ∃ earlier,
          (parse {} (.ofTokens first)).errors =
            earlier ++ [.violation .captureTargets (Token.ending first).span] ∧
          (parse {} (.ofTokens (first ++ second))).errors =
            earlier ++ [.violation .captureTargets opener.span] ++
              (parse {} (.ofTokens second)).errors) := by
  rcases of_result_eq_ok parsed with ⟨notFatal, rfl⟩
  rcases of_result_eq_ok parsed' with ⟨notFatal', rfl⟩
  by_cases empty : first = []
  · subst empty
    have atEnd : ((TokenStream.ofTokens []).get 0).kind = .eof := rfl
    have nothing : parse {} (.ofTokens []) = {} := by
      rw [parse, parseAll]
      exact if_pos atEnd
    rw [nothing, ← joins.sourceName_whole]
    exact ⟨parsed', Or.inl rfl⟩
  rcases parseAll_first joins empty notFatal finished with
    ⟨last, sameWhole, follows, sameBody, sameErrors⟩
  rcases parseAll_second joins notFatal' follows with ⟨wholeFatal, wholeBody, wholeErrors⟩
  rw [sameWhole]
  constructor
  · rw [result_eq_ok _ wholeFatal, joins.sourceName_whole, wholeBody, sameBody]
  · rw [wholeErrors]
    rcases sameErrors with same | ⟨earlier, firstErrors, moved⟩
    · exact Or.inl (by rw [same])
    · exact Or.inr ⟨earlier, firstErrors, by rw [moved]⟩

end

set_option maxRecDepth 10000 in
/-- A print tag without an expression is dropped with the text after it, and the second part begins
with a closing tag that is dropped too. The text after that is kept. -/
theorem parse_append_dropped_tag : ∃ first second opener template template',
    Token.Joins first second opener none ∧
    (parse {} (.ofTokens first)).result (.ofTokens first) = .ok template ∧
    (parse {} (.ofTokens second)).result (.ofTokens second) = .ok template' ∧
    (parse {} (.ofTokens first)).errors.length = 1 ∧
    (parse {} (.ofTokens second)).errors.length = 1 ∧
    (parse {} (.ofTokens (first ++ second))).result (.ofTokens (first ++ second)) =
      .ok ⟨template.body ++ template'.body, none⟩ ∧
    (parse {} (.ofTokens (first ++ second))).errors =
      (parse {} (.ofTokens first)).errors ++ (parse {} (.ofTokens second)).errors := by
  let first := Token.layOut none .start [(.variableBegin, "\x7b\x7b"), (.whitespace, " "),
    (.variableEnd, "\x7d\x7d"), (.data, "a")]
  let second := Token.layOut none ⟨6, 1, 7⟩ [(.blockBegin, "\x7b%"), (.keyword .endIf, "endif"),
    (.blockEnd, "%\x7d"), (.data, "b")]
  let opener : Token := ⟨.blockBegin, "\x7b%", ⟨6, 1, 7⟩, none⟩
  have joins : Token.Joins first second opener none :=
    ⟨by decide, by decide, by decide, by decide, by decide⟩
  obtain ⟨notFatal, firstErrors⟩ : (parse {} (.ofTokens first)).fatal = none ∧
      (parse {} (.ofTokens first)).errors =
        [.unexpected "expression" "end of print tag" ⟨⟨3, 1, 4⟩, ⟨5, 1, 6⟩⟩] := by
    cbv
  obtain ⟨notFatal', secondErrors⟩ : (parse {} (.ofTokens second)).fatal = none ∧
      (parse {} (.ofTokens second)).errors.length = 1 := by
    cbv
  have parsed := result_eq_ok (.ofTokens first) notFatal
  have parsed' := result_eq_ok (.ofTokens second) notFatal'
  have finished : ∀ error ∈ (parse {} (.ofTokens first)).errors, error.isUnfinished = false := by
    rw [firstErrors]
    decide
  rcases parse_append joins parsed finished parsed' with ⟨whole, errors | ⟨earlier, moved, _⟩⟩
  · exact ⟨first, second, opener, _, _, joins, parsed, parsed', by rw [firstErrors]; rfl,
      secondErrors, whole, errors⟩
  · rw [firstErrors] at moved
    have last := congrArg List.getLast? moved
    simp at last

set_option maxRecDepth 10000 in
/-- Two targets without a value: the error names the next token, which belongs to the second part
if there is one. -/
theorem parse_append_two_targets : ∃ first second opener template template',
    Token.Joins first second opener none ∧
    (parse {} (.ofTokens first)).result (.ofTokens first) = .ok template ∧
    (∀ error ∈ (parse {} (.ofTokens first)).errors, error.isUnfinished = false) ∧
    (parse {} (.ofTokens second)).result (.ofTokens second) = .ok template' ∧
    (parse {} (.ofTokens (first ++ second))).errors ≠
      (parse {} (.ofTokens first)).errors ++ (parse {} (.ofTokens second)).errors := by
  let first := Token.layOut none .start [(.blockBegin, "\x7b%"), (.keyword .set_, "set"),
    (.name, "a"), (.comma, ","), (.name, "b")]
  let second := Token.layOut none ⟨8, 1, 9⟩ [(.variableBegin, "\x7b\x7b"), (.name, "x"),
    (.variableEnd, "\x7d\x7d")]
  let opener : Token := ⟨.variableBegin, "\x7b\x7b", ⟨8, 1, 9⟩, none⟩
  have joins : Token.Joins first second opener none :=
    ⟨by decide, by decide, by decide, by decide, by decide⟩
  obtain ⟨notFatal, firstErrors⟩ : (parse {} (.ofTokens first)).fatal = none ∧
      (parse {} (.ofTokens first)).errors =
        [.violation .captureTargets ⟨⟨8, 1, 9⟩, ⟨8, 1, 9⟩⟩] := by
    cbv
  obtain ⟨notFatal', secondErrors⟩ : (parse {} (.ofTokens second)).fatal = none ∧
      (parse {} (.ofTokens second)).errors = [] := by
    cbv
  have parsed := result_eq_ok (.ofTokens first) notFatal
  have parsed' := result_eq_ok (.ofTokens second) notFatal'
  have wholeErrors : (parse {} (.ofTokens (first ++ second))).errors =
      [.violation .captureTargets ⟨⟨8, 1, 9⟩, ⟨10, 1, 11⟩⟩] := by cbv
  refine ⟨first, second, opener, _, _, joins, parsed, ?_, parsed', ?_⟩
  · rw [firstErrors]
    decide
  · rw [firstErrors, secondErrors, wholeErrors]
    decide

end Template

end Stencil

import Stencil.Profiles
import Stencil.Proofs.Stmt.Blaming
import Stencil.Proofs.Template.Progress

/-!
# The errors that a parse remembers

A round of a parse drops at most one thing: a closing tag that closes nothing, or a statement that
fails. The error for it is about a token between the place where the round starts and the place
where the next one does, so that the errors of all rounds come in the order of the source. Of these
errors the last ones are remembered, as many as there is room for. While there is room none is
forgotten, and therefore a history without errors tells of a parse that dropped nothing.
-/

namespace Stencil

/-! ### Tokens in the order of the source -/

/-- Later tokens do not start before earlier ones. -/
def Token.InOrder (tokens : List Token) : Prop :=
  tokens.Pairwise fun first second => first.position.offset ≤ second.position.offset

instance (tokens : List Token) : Decidable (Token.InOrder tokens) :=
  inferInstanceAs (Decidable (tokens.Pairwise _))

/-- Tokens that come in order by something that grows along the source do so with the end of the
template after them. -/
theorem Token.pairwise_closed (measure : Position → Nat)
    (grows : ∀ position text, measure position ≤ measure (position.advanceOver text))
    {tokens : List Token}
    (inOrder : tokens.Pairwise fun first second =>
      measure first.position ≤ measure second.position) :
    (Token.closed tokens).Pairwise fun first second =>
      measure first.position ≤ measure second.position := by
  unfold Token.closed
  split
  · exact List.pairwise_singleton _ _
  · next last isLast =>
    split
    · exact inOrder
    · rcases List.getLast?_eq_some_iff.1 isLast with ⟨before, rfl⟩
      have toLast := List.pairwise_append.1 inOrder
      apply List.pairwise_append.2
      refine ⟨inOrder, List.pairwise_singleton _ _, ?_⟩
      intro token member ending isEnding
      have notAfter : measure last.position ≤ measure last.stop := grows _ _
      rcases List.mem_singleton.1 isEnding with rfl
      rcases List.mem_append.1 member with isBefore | isLast
      · exact Nat.le_trans (toLast.2.2 token isBefore last (List.mem_singleton_self _)) notAfter
      · rcases List.mem_singleton.1 isLast with rfl
        exact notAfter

theorem Token.InOrder.closed {tokens : List Token} (inOrder : Token.InOrder tokens) :
    Token.InOrder (Token.closed tokens) := by
  refine Token.pairwise_closed Position.offset ?_ inOrder
  intro position text
  rw [Position.offset_advanceOver]
  exact Nat.le_add_right _ _

namespace TokenStream

/-- Later tokens of a stream do not start before earlier ones. -/
def IsOrdered (stream : TokenStream) : Prop :=
  ∀ first second, first ≤ second →
    (stream.get first).position.offset ≤ (stream.get second).position.offset

theorem isOrdered_ofTokens {tokens : List Token} (inOrder : Token.InOrder tokens) :
    (ofTokens tokens).IsOrdered := by
  have kept := inOrder.closed.filter (·.kind.isSignificant)
  intro first second notAfter
  simp only [get, ofTokens, List.size_toArray, List.getElem_toArray]
  have atOrAfter := min_le_min_right
    (((Token.closed tokens).filter (·.kind.isSignificant)).length - 1) notAfter
  rcases Nat.lt_or_eq_of_le atOrAfter with isBefore | same
  · exact List.pairwise_iff_getElem.1 kept _ _ _ _ isBefore
  · simp only [same, Nat.le_refl]

end TokenStream

theorem SyntaxError.IsAbout.offset_le {stream : TokenStream} (ordered : stream.IsOrdered)
    {low stop : Nat} {error : SyntaxError} (isAbout : error.IsAbout stream low stop) :
    (stream.get low).position.offset ≤ error.span.start.offset ∧
      error.span.start.offset ≤ (stream.get stop).position.offset := by
  rcases isAbout with ⟨index, fromLow, beforeStop, sameSpan⟩
  rw [sameSpan]
  exact ⟨ordered _ _ fromLow, ordered _ _ beforeStop⟩

namespace Template

section

variable [Limits] {stream : TokenStream} {progress next : Progress}

/-! ### What the rounds drop -/

/-- The error for what a round drops: a closing tag that closes nothing, or a statement. -/
def dropped? (stream : TokenStream) (progress : Progress) : Option SyntaxError :=
  match strayTag? {} stream progress.place.cursor with
  | some word => some (.violation (.strayAtTop word)
      (stream.get (stream.next progress.place.cursor)).span)
  | none => match Stmt.parse {} stream progress.place with
    | .ok _ _ => none
    | .error error _ => if error.isRecoverable then some error else none

/-- What the rounds of a parse start with, from where it has come to up to its end. -/
def rounds (stream : TokenStream) (progress : Progress) : List Progress :=
  if (stream.get progress.place.cursor).kind = .eof then []
  else
    let next := parseNext {} stream progress
    if next.fatal.isNone ∧ progress.place.cursor < next.place.cursor ∧
        progress.place.cursor < stream.size then
      progress :: rounds stream next
    else [progress]
termination_by stream.size - progress.place.cursor
decreasing_by
  rename_i further
  exact Nat.sub_lt_sub_left further.2.2 further.2.1

/-- The errors that a parse meets, in the order in which it meets them. -/
def met (stream : TokenStream) (progress : Progress) : List SyntaxError :=
  (rounds stream progress).filterMap (dropped? stream)

theorem Round.errors_eq (round : Round stream progress next) :
    next.errors = progress.errors ++ (dropped? stream progress).toList := by
  unfold dropped?
  cases round with
  | stray isStray => simp [isStray]
  | statement notStray outcome => simp [notStray, outcome]
  | recovered notStray outcome recoverable => simp [notStray, outcome, recoverable]
  | aborted notStray outcome isFatal => simp [notStray, outcome, isFatal]

/-- What a round drops stands between its start and the start of the next one. -/
theorem Round.isAbout (round : Round stream progress next) {error : SyntaxError}
    (dropped : dropped? stream progress = some error) :
    error.IsAbout stream progress.place.cursor next.place.cursor := by
  have blames := Stmt.parse_blames stream progress.place
  have notBack := stream.le_next progress.place.cursor
  unfold dropped? at dropped
  cases round with
  | @stray word stop isStray search =>
      simp only [isStray, Option.some.injEq] at dropped
      subst dropped
      refine ⟨_, notBack, ?_, rfl⟩
      dsimp only
      split
      · exact Nat.le_trans search.le (stream.le_next stop)
      · exact search.le
  | statement notStray outcome => simp [notStray, outcome] at dropped
  | @recovered error after stop notStray outcome recoverable search =>
      simp only [notStray, outcome, recoverable, if_true, Option.some.injEq] at dropped
      subst dropped
      rw [outcome] at blames
      rcases blames with ⟨index, fromStart, beforeStop, sameSpan⟩
      have later := search.le
      refine ⟨index, fromStart, Nat.le_trans beforeStop ?_, sameSpan⟩
      split at later
      · exact Nat.le_trans (stream.le_next after.cursor) later
      · exact later
  | aborted notStray outcome isFatal => simp [notStray, outcome, isFatal] at dropped

section

variable (closed : stream.IsClosed)

include closed

/-- Nothing else than what the rounds drop is met as an error, and all of it is. -/
theorem errors_parseAll (progress : Progress) :
    (parseAll {} stream progress).errors = progress.errors ++ met stream progress := by
  unfold met
  fun_induction rounds stream progress with
  | case1 progress isEnd => simp [parseAll, isEnd]
  | case2 progress notEnd next goesOn ih =>
      rw [parseAll, if_neg notEnd, if_pos goesOn, ih, (round_parseNext closed progress).errors_eq]
      cases isDropped : dropped? stream progress <;> simp [isDropped]
  | case3 progress notEnd next stays =>
      rw [parseAll, if_neg notEnd, if_neg stays, (round_parseNext closed progress).errors_eq]
      cases isDropped : dropped? stream progress <;> simp [isDropped]

/-- The errors that are met come in the order of the source, none of them before the place where the
first round starts. -/
theorem met_inOrder (ordered : stream.IsOrdered) (progress : Progress) :
    (∀ error ∈ met stream progress,
      (stream.get progress.place.cursor).position.offset ≤ error.span.start.offset) ∧
    (met stream progress).Pairwise fun first second =>
      first.span.start.offset ≤ second.span.start.offset := by
  unfold met
  fun_induction rounds stream progress with
  | case1 progress isEnd => simp
  | case2 progress notEnd next goesOn ih =>
      rcases ih with ⟨fromNext, inOrder⟩
      have notBefore := ordered _ _ (Nat.le_of_lt goesOn.2.1)
      cases isDropped : dropped? stream progress with
      | none =>
          rw [List.filterMap_cons_none isDropped]
          refine ⟨?_, inOrder⟩
          intro error member
          exact Nat.le_trans notBefore (fromNext error member)
      | some error =>
          rw [List.filterMap_cons_some isDropped]
          have isAbout := (round_parseNext closed progress).isAbout isDropped
          rcases isAbout.offset_le ordered with ⟨fromHere, beforeNext⟩
          constructor
          · refine List.forall_mem_cons.2 ⟨fromHere, ?_⟩
            intro later member
            exact Nat.le_trans notBefore (fromNext later member)
          · apply List.pairwise_cons.2
            refine ⟨?_, inOrder⟩
            intro later member
            exact Nat.le_trans beforeNext (fromNext later member)
  | case3 progress notEnd next stays =>
      cases isDropped : dropped? stream progress with
      | none => simp [isDropped]
      | some error =>
          have isAbout := (round_parseNext closed progress).isAbout isDropped
          simpa [isDropped] using (isAbout.offset_le ordered).1

omit closed in
/-- A parse that nothing ended has no round that something ended. -/
theorem notFatal_of_mem_rounds (notFatal : (parseAll {} stream progress).fatal = none) :
    ∀ round ∈ rounds stream progress, (parseNext {} stream round).fatal = none := by
  fun_induction rounds stream progress with
  | case1 progress isEnd => simp
  | case2 progress notEnd next goesOn ih =>
      rw [parseAll, if_neg notEnd, if_pos goesOn] at notFatal
      exact List.forall_mem_cons.2 ⟨Option.isNone_iff_eq_none.1 goesOn.1, ih notFatal⟩
  | case3 progress notEnd next stays =>
      rw [parseAll, if_neg notEnd, if_neg stays] at notFatal
      simpa using notFatal

/-- A round drops nothing when it stands at no stray closing tag and reads a statement. -/
theorem dropped?_eq_none_iff (notFatal : (parseNext {} stream progress).fatal = none) :
    dropped? stream progress = none ↔ strayTag? {} stream progress.place.cursor = none ∧
      ∃ stmt after, Stmt.parse {} stream progress.place = .ok stmt after := by
  have round := round_parseNext closed progress
  generalize parseNext {} stream progress = next at round notFatal
  unfold dropped?
  cases round with
  | stray isStray => simp [isStray]
  | statement notStray outcome => simp [notStray, outcome]
  | recovered notStray outcome recoverable => simp [notStray, outcome, recoverable]
  | aborted => simp at notFatal

end

/-! ### What is remembered -/

/-- Remembers one more error. Where there is no room for it, the oldest one is forgotten. -/
def remember (history : List SyntaxError) (error : SyntaxError) : List SyntaxError :=
  (if maxErrors ≤ history.length then history.tail else history) ++ [error]

/-- Errors that are remembered one by one leave the last of them. -/
theorem foldl_remember (errors : List SyntaxError) :
    errors.foldl remember [] = errors.drop (errors.length - maxErrors) := by
  induction errors using List.reverseRecOn with
  | nil => simp
  | append_singleton errors error ih =>
      rw [List.foldl_append, ih, List.foldl_cons, List.foldl_nil, remember, List.length_append,
        List.length_singleton, List.length_drop]
      by_cases isFull : maxErrors ≤ errors.length
      · have roomLeft : errors.length + 1 - maxErrors = errors.length - maxErrors + 1 := by omega
        rw [if_pos (by omega), roomLeft, List.tail_drop, List.drop_append_of_le_length]
        have room := Limits.maxErrors_pos
        omega
      · rw [if_neg (by omega), Nat.sub_eq_zero_of_le (by omega), Nat.sub_eq_zero_of_le (by omega),
          List.drop_zero, List.drop_zero]

/-- The errors of a parse without extensions are reported completely and in the order of the source.
There is one for each stray closing tag and each statement that a round drops, in the order of the
rounds. The history that is kept of them holds the last ones, as many as there is room for, so that
it is empty exactly when no round drops anything. -/
theorem recovered_in_order (tokens : List Token) (inOrder : Token.InOrder tokens) :
    let stream := TokenStream.ofTokens tokens
    (parse {} stream).errors = met stream {} ∧
    ((met stream {}).Pairwise fun first second =>
      first.span.start.offset ≤ second.span.start.offset) ∧
    ∀ template, (parse {} stream).result stream = .ok template →
      (parse {} stream).recovered = (met stream {}).foldl remember [] ∧
      (parse {} stream).recovered <:+ met stream {} ∧
      (parse {} stream).recovered.length = min (met stream {}).length maxErrors ∧
      ((parse {} stream).recovered = [] ↔ ∀ round ∈ rounds stream {},
        strayTag? {} stream round.place.cursor = none ∧
          ∃ stmt after, Stmt.parse {} stream round.place = .ok stmt after) := by
  intro stream
  have closed := TokenStream.isClosed_ofTokens tokens
  have ordered := TokenStream.isOrdered_ofTokens inOrder
  have errors : (parse {} stream).errors = met stream {} := errors_parseAll closed {}
  refine ⟨errors, (met_inOrder closed ordered {}).2, ?_⟩
  intro template parsed
  have notFatal := notFatal_of_mem_rounds (of_result_eq_ok parsed).1
  rw [Progress.recovered, errors]
  refine ⟨(foldl_remember _).symm, List.drop_suffix _ _, ?_, ?_⟩
  · rw [List.length_drop]
    omega
  · have room := Limits.maxErrors_pos
    have noneMet : (met stream {}).drop ((met stream {}).length - maxErrors) = [] ↔
        met stream {} = [] := by
      rw [List.drop_eq_nil_iff, ← List.length_eq_zero_iff]
      omega
    rw [noneMet, met, List.filterMap_eq_nil_iff]
    apply forall₂_congr
    intro round member
    exact dropped?_eq_none_iff closed (notFatal round member)

end

set_option maxRecDepth 10000 in
/-- A closing tag that closes nothing, and then a block that nothing closes: the error for the block
is about the token that opens it, although its rule stops at the end of the template. -/
theorem recovered_in_order_unclosed : ∃ tokens template,
    Token.InOrder tokens ∧
    (parse {} (.ofTokens tokens)).result (.ofTokens tokens) = .ok template ∧
    ((parse {} (.ofTokens tokens)).recovered.map fun error => error.span.start.offset) = [2, 10] ∧
    (met (.ofTokens tokens) {}).Pairwise (fun first second =>
      first.span.start.offset ≤ second.span.start.offset) ∧
    (parse {} (.ofTokens tokens)).recovered = (met (.ofTokens tokens) {}).foldl remember [] := by
  let tokens := Token.layOut none .start [(.blockBegin, "\x7b%"), (.name, "endif"),
    (.blockEnd, "%\x7d"), (.data, " "), (.blockBegin, "\x7b%"), (.keyword .if_, "if"),
    (.name, "x"), (.blockEnd, "%\x7d"), (.data, "y")]
  have inOrder : Token.InOrder tokens := by decide
  obtain ⟨notFatal, offsets⟩ : (parse {} (.ofTokens tokens)).fatal = none ∧
      ((parse {} (.ofTokens tokens)).recovered.map fun error => error.span.start.offset) =
        [2, 10] := by
    cbv
  have parsed := result_eq_ok (.ofTokens tokens) notFatal
  rcases recovered_in_order tokens inOrder with ⟨-, sorted, history⟩
  exact ⟨tokens, _, inOrder, parsed, offsets, sorted, (history _ parsed).1⟩

end Template

end Stencil

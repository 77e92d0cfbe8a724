import Stencil.Profiles
import Stencil.Proofs.Parse.Accounting
import Stencil.Proofs.Stmt.Nesting
import Stencil.Proofs.Template.Composition

/-!
# Parsing comes to an end

A template is parsed round by round: a round reads a statement, drops a stray tag, or takes the
parse up again after a failure. Here the rounds, and the searches for a place where to go on, are
relations that nothing stops from outside. For every list of tokens, in any order and with the end
of the template in any place, each round gets further and the parse ends by itself at the end of the
template, or with the error that ended it.
-/

namespace Stencil

namespace TokenStream

/-- A search goes from token to token until it finds one that is looked for. -/
inductive Seeks (stream : TokenStream) (found : Token → Bool) : Nat → Nat → Prop where
  | here {cursor : Nat} (isFound : found (stream.get cursor) = true) :
      Seeks stream found cursor cursor
  | next {cursor stop : Nat} (notFound : found (stream.get cursor) = false)
      (rest : Seeks stream found (stream.next cursor) stop) : Seeks stream found cursor stop

theorem Seeks.le {stream : TokenStream} {found : Token → Bool} {cursor stop : Nat}
    (seeks : stream.Seeks found cursor stop) : cursor ≤ stop := by
  induction seeks with
  | here => exact Nat.le_refl _
  | next _ _ ih => exact Nat.le_trans (stream.le_next _) ih

/-- A search for something that the end of the template is comes to an end. -/
theorem IsClosed.seeks {stream : TokenStream} (closed : stream.IsClosed) (found : Token → Bool)
    (findsEnd : ∀ token : Token, token.kind = .eof → found token = true) (cursor : Nat) :
    Seeks stream found cursor (stream.seek found cursor) := by
  fun_induction seek stream found cursor with
  | case1 cursor isFound => exact .here isFound
  | case2 cursor notFound further ih =>
      refine .next (by simpa using notFound) ?_
      rw [TokenStream.next, if_pos further]
      exact ih
  | case3 cursor notFound isLast =>
      refine absurd (findsEnd _ ?_) notFound
      rw [get_eq_last (by omega)]
      exact closed

end TokenStream

namespace Template

section

variable [Limits] {stream : TokenStream} {progress next : Progress}

/-- One round of a parse without extensions, with the searches that belong to it. -/
inductive Round (stream : TokenStream) (progress : Progress) : Progress → Prop where
  | stray {word : String} {stop : Nat}
      (isStray : strayTag? {} stream progress.place.cursor = some word)
      (search : stream.Seeks (fun token => token.kind.isCloser || token.kind.isBoundary)
        (stream.next progress.place.cursor) stop) :
      Round stream progress { progress with
        place := { progress.place with
          cursor := if (stream.get stop).kind.isCloser then stream.next stop else stop }
        errors := progress.errors ++ [.violation (.strayAtTop word)
          (stream.get (stream.next progress.place.cursor)).span] }
  | statement {stmt : Option Stmt} {after : Place}
      (notStray : strayTag? {} stream progress.place.cursor = none)
      (outcome : Stmt.parse {} stream progress.place = .ok stmt after) :
      Round stream progress { progress with
        place := after
        body := progress.body ++ stmt.toList }
  | recovered {error : SyntaxError} {after : Place} {stop : Nat}
      (notStray : strayTag? {} stream progress.place.cursor = none)
      (outcome : Stmt.parse {} stream progress.place = .error error after)
      (recoverable : error.isRecoverable = true)
      (search : stream.Seeks (fun token => token.kind.isBoundary)
        (if after.cursor = progress.place.cursor then stream.next after.cursor else after.cursor)
        stop) :
      Round stream progress { progress with
        place := { after with cursor := stop }
        errors := progress.errors ++ [error] }
  | aborted {error : SyntaxError} {after : Place}
      (notStray : strayTag? {} stream progress.place.cursor = none)
      (outcome : Stmt.parse {} stream progress.place = .error error after)
      (isFatal : error.isRecoverable = false) :
      Round stream progress { progress with place := after, fatal := some error }

/-- A parse goes round by round until it stands at the end of the template or is aborted. -/
inductive Runs (stream : TokenStream) : Progress → Progress → Prop where
  | atEnd {progress : Progress} (isEnd : (stream.get progress.place.cursor).kind = .eof) :
      Runs stream progress progress
  | aborted {progress last : Progress}
      (notEnd : (stream.get progress.place.cursor).kind ≠ .eof) (round : Round stream progress last)
      (isFatal : last.fatal ≠ none) : Runs stream progress last
  | more {progress next last : Progress}
      (notEnd : (stream.get progress.place.cursor).kind ≠ .eof) (round : Round stream progress next)
      (notFatal : next.fatal = none) (rest : Runs stream next last) : Runs stream progress last

/-- What a parse comes by, round by round from the start. -/
inductive Reached (stream : TokenStream) : Progress → Prop where
  | start : Reached stream {}
  | round {progress next : Progress} (reached : Reached stream progress)
      (notFatal : progress.fatal = none)
      (notEnd : (stream.get progress.place.cursor).kind ≠ .eof)
      (round : Round stream progress next) : Reached stream next

section

variable (closed : stream.IsClosed)

include closed

/-- What `parseNext` does is one round. -/
theorem round_parseNext (progress : Progress) :
    Round stream progress (parseNext {} stream progress) := by
  cases isStray : strayTag? {} stream progress.place.cursor with
  | some word =>
      rw [parseNext_eq_of_stray isStray]
      exact .stray isStray (closed.seeks _
        (fun token isEnd => by simp [isEnd, Token.Kind.isBoundary]) _)
  | none =>
      cases outcome : Stmt.parse {} stream progress.place with
      | ok stmt after =>
          rw [parseNext_eq_of_ok isStray outcome]
          exact .statement isStray outcome
      | error error after =>
          cases recoverable : error.isRecoverable with
          | true =>
              rw [parseNext_eq_of_error isStray outcome recoverable]
              exact .recovered isStray outcome recoverable (closed.seeks _
                (fun token isEnd => by simp [isEnd, Token.Kind.isBoundary]) _)
          | false =>
              have isAborted : parseNext {} stream progress =
                  { progress with place := after, fatal := some error } := by
                simp [parseNext, isStray, outcome, recoverable]
              rw [isAborted]
              exact .aborted isStray outcome recoverable

/-- Between rounds no construct is open. -/
theorem Reached.noneOpen (reached : Reached stream progress) :
    ({} : Place).SameNesting progress.place := by
  induction reached with
  | start => exact .refl _
  | round _ _ _ round ih =>
      have kept := Stmt.parse_keepsNesting closed _ (ih.accounted Place.accounted_start)
      cases round with
      | stray => exact ⟨ih.depth_eq, ih.trail_eq⟩
      | statement _ outcome =>
          rw [outcome] at kept
          exact ih.trans kept
      | recovered _ outcome =>
          rw [outcome] at kept
          exact ⟨(ih.trans kept).depth_eq, (ih.trans kept).trail_eq⟩
      | aborted _ outcome =>
          rw [outcome] at kept
          exact ih.trans kept

/-- Every round gets further, also the one that ends the parse. -/
theorem Round.further (round : Round stream progress next)
    (notEnd : (stream.get progress.place.cursor).kind ≠ .eof)
    (room : progress.place.depth < maxDepth) : progress.place.cursor < next.place.cursor := by
  have moved := closed.next_eq notEnd
  have moves := Stmt.parse_moves closed progress.place
  cases round with
  | stray isStray search =>
      have later := search.le
      have notBack := stream.le_next
      dsimp only
      split
      · exact Nat.lt_of_lt_of_le (by omega) (Nat.le_trans later (stream.le_next _))
      · omega
  | statement _ outcome =>
      have met := moves.meets
      rw [outcome] at met
      exact met.1
  | @recovered error after stop _ outcome _ search =>
      have notBack := moves.le
      rw [outcome] at notBack
      have later := search.le
      simp only [stateAfter] at notBack
      dsimp only
      split at later
      · next stays =>
        rw [stays] at later
        omega
      · omega
  | @aborted error after _ outcome isFatal =>
      rcases moves with ⟨moves, _⟩ | ⟨refusal, refused, recoverable | full⟩
      · unfold Parsing.Moves at moves
        rwa [outcome] at moves
      · rw [outcome] at refused
        cases refused
        rw [isFatal] at recoverable
        cases recoverable
      · omega

theorem Reached.further (reached : Reached stream progress)
    (notEnd : (stream.get progress.place.cursor).kind ≠ .eof) (round : Round stream progress next) :
    progress.place.cursor < next.place.cursor := by
  refine round.further closed notEnd ?_
  rw [(reached.noneOpen closed).depth_eq]
  exact Limits.maxDepth_pos

/-- A parse from where it has come to runs to the end by itself. -/
theorem Reached.runs (reached : Reached stream progress) (notFatal : progress.fatal = none) :
    Runs stream progress (parseAll {} stream progress) := by
  fun_induction parseAll {} stream progress with
  | case1 progress isEnd => exact .atEnd isEnd
  | case2 progress notEnd next goesOn ih =>
      have round := round_parseNext closed progress
      have notFatalNext := Option.isNone_iff_eq_none.1 goesOn.1
      exact .more notEnd round notFatalNext (ih (.round reached notFatal notEnd round) notFatalNext)
  | case3 progress notEnd next stays =>
      have round := round_parseNext closed progress
      have inside := closed.lt_size notEnd
      refine .aborted notEnd round fun notFatalNext => stays ?_
      exact ⟨Option.isNone_iff_eq_none.2 notFatalNext, reached.further closed notEnd round,
        by omega⟩

end

/-- A run that was not aborted stands at the end of the template. -/
theorem Runs.atEnd_of_notFatal {last : Progress} (runs : Runs stream progress last)
    (notFatal : last.fatal = none) : (stream.get last.place.cursor).kind = .eof := by
  induction runs with
  | atEnd isEnd => exact isEnd
  | aborted _ _ isFatal => exact absurd notFatal isFatal
  | more _ _ _ _ ih => exact ih notFatal

/-- A parse without extensions ends by itself. What rules repeat comes to an end after finitely many
steps, over tokens as well as in bodies and choices. A statement is read with no other use of the
rule for statements than beyond the token at which it starts. And so the rounds come to an end. -/
structure EndsByItself (stream : TokenStream) : Prop where
  repetitions : ∀ {α : Type} {step : α → Reading (ForInStep α)}, Reading.Repeated step →
    ∀ value start, Repeats stream step value start (Reading.loop step value stream start)
  bodies : ∀ tag opening enders value place,
    Repeats stream (Stmt.bodyStep (Stmt.parse {}) tag opening enders) value place
      (Parsing.loop (Stmt.bodyStep (Stmt.parse {}) tag opening enders) value stream place)
  branches : ∀ opening value place,
    Repeats stream (Stmt.elifStep (Stmt.parse {}) opening) value place
      (Parsing.loop (Stmt.elifStep (Stmt.parse {}) opening) value stream place)
  recursion : ∀ (statement : Parsing (Option Stmt)) (place : Place),
    (∀ inner : Place, place.cursor < inner.cursor →
      statement stream inner = Stmt.parse {} stream inner) →
    Stmt.statementRule statement {} stream place = Stmt.parse {} stream place
  rounds : Runs stream {} (parse {} stream)

theorem endsByItself (closed : stream.IsClosed) : EndsByItself stream where
  repetitions repeated := (repeated.progresses closed).repeats
  bodies tag opening enders := (Stmt.bodyStep_progresses closed tag opening enders).repeats
  branches opening := (Stmt.elifStep_progresses closed opening).repeats
  recursion _ _ same := Stmt.statementRule_eq_parse closed same
  rounds := Reached.start.runs closed rfl

/-- For every list of tokens, a parse without extensions ends by itself. Each of its rounds gets
further, also one that ends the parse. A statement that is read takes a token, and none goes back.
A template that has a tree has been read up to the end. -/
theorem parse_gets_further (tokens : List Token) :
    EndsByItself (.ofTokens tokens) ∧
    (∀ {progress next : Progress}, Reached (.ofTokens tokens) progress →
      ((TokenStream.ofTokens tokens).get progress.place.cursor).kind ≠ .eof →
      Round (.ofTokens tokens) progress next → progress.place.cursor < next.place.cursor) ∧
    (∀ place : Place, Meets (fun _ after => place.cursor < after.cursor)
      (fun _ after => place.cursor ≤ after.cursor) (Stmt.parse {} (.ofTokens tokens) place)) ∧
    (∀ template, (parse {} (.ofTokens tokens)).result (.ofTokens tokens) = .ok template →
      ((TokenStream.ofTokens tokens).get (parse {} (.ofTokens tokens)).place.cursor).kind =
        .eof) := by
  have closed := TokenStream.isClosed_ofTokens tokens
  have ends := endsByItself closed
  refine ⟨ends, fun reached notEnd round => reached.further closed notEnd round, fun place => ?_,
    fun template parsed => ?_⟩
  · exact (Stmt.parse_moves closed place).meets.mono (fun _ _ further => further.1)
      fun _ _ notBack => notBack
  · exact ends.rounds.atEnd_of_notFatal (of_result_eq_ok parsed).1

end

set_option maxRecDepth 10000 in
/-- A token that cannot begin a statement is passed over, and the parse ends where the template does
for the first time, although there are tokens after that. -/
theorem parse_gets_further_early_end : ∃ tokens template,
    tokens.map (fun token => (token.kind, token.text)) =
      [(.data, "a"), (.blockEnd, "%\x7d"), (.eof, ""), (.data, "b")] ∧
    (∀ next, Round (.ofTokens tokens) {} next → 0 < next.place.cursor) ∧
    (parse {} (.ofTokens tokens)).errors = [.unexpected "template data or tag" "end of block tag"
      ⟨⟨1, 1, 2⟩, ⟨3, 1, 4⟩⟩] ∧
    (parse {} (.ofTokens tokens)).place.cursor = 2 ∧
    (parse {} (.ofTokens tokens)).result (.ofTokens tokens) = .ok template ∧
    template = ⟨[.text ⟨1, none⟩ "a"], none⟩ ∧
    ((TokenStream.ofTokens tokens).get (parse {} (.ofTokens tokens)).place.cursor).kind = .eof := by
  let tokens := Token.layOut none .start [(.data, "a"), (.blockEnd, "%\x7d"), (.eof, ""),
    (.data, "b")]
  obtain ⟨notFatal, oneError, isLast, isBody⟩ : (parse {} (.ofTokens tokens)).fatal = none ∧
      (parse {} (.ofTokens tokens)).errors = [.unexpected "template data or tag" "end of block tag"
        ⟨⟨1, 1, 2⟩, ⟨3, 1, 4⟩⟩] ∧
      (parse {} (.ofTokens tokens)).place.cursor = 2 ∧
      (parse {} (.ofTokens tokens)).body = [.text ⟨1, none⟩ "a"] := by
    cbv
  have parsed := result_eq_ok (.ofTokens tokens) notFatal
  rw [isBody] at parsed
  rcases parse_gets_further tokens with ⟨_, further, _, atEnd⟩
  have notEnd : ((TokenStream.ofTokens tokens).get ({} : Progress).place.cursor).kind ≠ .eof := by
    decide
  exact ⟨tokens, _, rfl, fun next round => further .start notEnd round, oneError, isLast, parsed,
    rfl, atEnd _ parsed⟩

end Template

end Stencil

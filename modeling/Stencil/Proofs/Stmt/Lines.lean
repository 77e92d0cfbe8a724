import Stencil.Proofs.Expr.Lines
import Stencil.Proofs.Stmt.Progress
import Stencil.Proofs.Stmt.Soundness

/-!
# Lines of statements

The nodes of a statement are lined up with the tokens that the statement is derived from: the
statement itself with the token that begins it, and then what its tags and its bodies consist of, in
the order of the source.
-/

namespace Stencil

namespace TokenStream

variable {stream : TokenStream} {start low high stop : Nat}

theorem between_sublist (fromStart : start ≤ low) (inOrder : low ≤ high)
    (beforeStop : high ≤ stop) :
    (stream.between low high).Sublist (stream.between start stop) := by
  rw [← between_append (Nat.le_trans fromStart inOrder) beforeStop,
    ← between_append fromStart inOrder]
  exact (List.sublist_append_right _ _).trans (List.sublist_append_left _ _)

theorem between_eq_cons (inside : start < stream.size) (further : start < stop) :
    stream.between start stop = stream.get start :: stream.between (start + 1) stop := by
  rw [← between_append (Nat.le_succ start) further, between_succ inside]
  rfl

end TokenStream

namespace Expr

theorem nodesOfNamed_append (first second : List (Named Expr)) :
    nodesOfNamed (first ++ second) = nodesOfNamed first ++ nodesOfNamed second := by
  induction first with
  | nil => rfl
  | cons named first ih =>
      rcases named with ⟨name, value⟩
      rw [List.cons_append, nodesOfNamed, nodesOfNamed, ih, List.append_assoc]

end Expr

namespace Stmt

open Node (LinedUp)
open Reading (identifier_reads expectWord_reads skipIf_reads skipWord_reads)

theorem walkBody_append (first second : List Stmt) :
    walkBody (first ++ second) = walkBody first ++ walkBody second := by
  induction first with
  | nil => rfl
  | cons stmt first ih => rw [List.cons_append, walkBody, walkBody, ih, List.append_assoc]

theorem walkBody_singleton (stmt : Stmt) : walkBody [stmt] = stmt.walk := by
  rw [walkBody, walkBody, List.append_nil]

variable {stream : TokenStream} {levels depth start stop : Nat}

/-! ### Parts of tags -/

section

variable [Limits] (closed : stream.IsClosed)

include closed

theorem conditional_linedUp :
    AccountsFor stream start (Expr.deeper levels).conditional fun word expr =>
      LinedUp stream.sourceName word (Node.ofExpr expr) :=
  fun _ _ parsed => Expr.parse_linedUp closed parsed

/-- What is read of parameters so far is lined up, piece by piece. -/
theorem parameter_linedUp {pieces : List (List Token)} {params : List Parameter}
    (linedUp : LinedUp stream.sourceName pieces.flatten (Node.ofParameters params)) :
    AccountsFor stream start (parameter (Expr.deeper levels) params) fun word params =>
      params ≠ [] ∧
        LinedUp stream.sourceName (pieces ++ [word]).flatten (Node.ofParameters params) := by
  have extended (name : String) (default? : Option Expr) (word : List Token)
      (inDefault : LinedUp stream.sourceName word (Node.ofOption default?)) :
      params ++ [⟨name, default?⟩] ≠ [] ∧ LinedUp stream.sourceName (pieces ++ [word]).flatten
        (Node.ofParameters (params ++ [⟨name, default?⟩])) := by
    refine ⟨by simp, ?_⟩
    rw [List.flatten_append, List.flatten_singleton, Node.ofParameters, List.flatMap_append,
      List.flatMap_singleton]
    exact linedUp.append inDefault
  apply AccountsFor.current
  apply AccountsFor.identifier closed
  intro key _ _
  split
  · exact .throw _
  · apply AccountsFor.skipIf closed (by simp)
    · intro assign _
      have default : AccountsFor stream (start + 1 + 1)
          (some <$> (Expr.deeper levels).conditional) fun word default? =>
            LinedUp stream.sourceName word (Node.ofOption default?) :=
        (conditional_linedUp closed).map fun _ _ inDefault => inDefault
      apply default.bind
      intro word default? middle inDefault
      apply AccountsFor.pure
      rw [List.append_nil]
      exact extended _ _ _ ((inDefault.tail assign).tail key)
    · have default : AccountsFor stream (start + 1) (pure none) fun word default? =>
          LinedUp stream.sourceName word (Node.ofOption default?) :=
        .pure (LinedUp.nil _ _)
      apply default.bind
      intro word default? middle inDefault
      apply AccountsFor.pure
      rw [List.append_nil]
      exact extended _ _ _ (inDefault.tail key)

theorem signature_linedUp :
    AccountsFor stream start (signature (Expr.deeper levels)) fun word params =>
      LinedUp stream.sourceName word (Node.ofParameters params) := by
  apply AccountsFor.expect closed (by simp)
  intro opening _
  apply AccountsFor.mono
  · apply AccountsFor.commaList closed (fun pieces params => (params.isEmpty = true ↔ pieces = []) ∧
      LinedUp stream.sourceName pieces.flatten (Node.ofParameters params))
    · exact fun params start => parameter_reads closed (Expr.deeper_inside closed levels) params
    · exact fun pieces params soFar => soFar.1
    · intro pieces params start soFar
      refine (parameter_linedUp closed soFar.2).mono ?_
      intro word params further
      exact ⟨by simp [further.1], further.2⟩
    · simp
    · exact ⟨by simp, LinedUp.nil _ _⟩
  · rintro word params ⟨pieces, body, closing, soFar, separated, _, rfl⟩
    exact ((soFar.2.within separated.flatten_sublist).left [closing]).tail opening

theorem callParams_linedUp :
    AccountsFor stream start (callParams levels) fun word params =>
      LinedUp stream.sourceName word (Node.ofParameters params) := by
  apply AccountsFor.current
  split
  · exact signature_linedUp closed
  · exact .pure (LinedUp.nil _ _)

/-- One more assignment, after those that are lined up with the tokens so far. -/
theorem assignment_linedUp {before : List Token} {given : List (Named Expr)}
    (soFar : LinedUp stream.sourceName before ((Expr.nodesOfNamed given).map .expr)) :
    AccountsFor stream start (do
      let name ← Reading.identifier
      let _ ← Reading.expect .assign "'='"
      let value ← (Expr.deeper levels).conditional
      return .yield (given ++ [⟨name, value⟩])) fun further => Found (fun word given =>
        LinedUp stream.sourceName word ((Expr.nodesOfNamed given).map .expr))
          (before ++ further) := by
  apply AccountsFor.identifier closed
  intro key _ _
  apply AccountsFor.expect closed (by simp)
  intro assign _
  apply (conditional_linedUp closed).bind
  intro word value last inValue
  apply AccountsFor.pure
  rw [List.append_nil, Found, Expr.nodesOfNamed_append, List.map_append]
  have inNamed := (inValue.tail assign).tail key
  exact soFar.append (by simpa [Expr.nodesOfNamed, Node.ofExpr] using inNamed)

theorem assignments_linedUp :
    AccountsFor stream start (assignments (Expr.deeper levels)) fun word given =>
      LinedUp stream.sourceName word ((Expr.nodesOfNamed given).map .expr) := by
  have step (before : List Token) (given : List (Named Expr)) (start : Nat)
      (soFar : LinedUp stream.sourceName before ((Expr.nodesOfNamed given).map .expr)) :
      AccountsFor stream start (assignmentStep (Expr.deeper levels) given) fun further =>
        Found (fun word given =>
          LinedUp stream.sourceName word ((Expr.nodesOfNamed given).map .expr))
            (before ++ further) := by
    apply AccountsFor.current
    split
    · apply AccountsFor.pure
      rw [List.append_nil]
      exact soFar
    · dsimp only
      split
      · apply AccountsFor.expect closed (by simp)
        intro comma _
        refine (assignment_linedUp closed (soFar.left [comma])).mono ?_
        intro word result found
        rwa [List.append_assoc] at found
      · exact assignment_linedUp closed soFar
  have nothing : LinedUp stream.sourceName [] ((Expr.nodesOfNamed []).map .expr) := .nil _ _
  exact AccountsFor.loop step nothing

theorem filterCalls_linedUp :
    AccountsFor stream start (filterCalls (Expr.deeper levels)) fun word filters =>
      LinedUp stream.sourceName word (Node.ofFilters filters) := by
  have step (before : List Token) (filters : List FilterCall) (start : Nat)
      (soFar : LinedUp stream.sourceName before (Node.ofFilters filters)) :
      AccountsFor stream start (filterStep (Expr.deeper levels) filters) fun further =>
        Found (fun word filters => LinedUp stream.sourceName word (Node.ofFilters filters))
          (before ++ further) := by
    apply AccountsFor.skipIf closed (by simp)
    · intro pipe _
      apply (Expr.filterCall_linedUp closed).bind
      intro word applied last inApplied
      apply AccountsFor.pure
      rw [List.append_nil, Found, Node.ofFilters, List.flatMap_append]
      exact soFar.append (inApplied.tail pipe)
    · apply AccountsFor.pure
      rw [List.append_nil]
      exact soFar
  rw [filterCalls_eq]
  apply (Expr.filterCall_linedUp closed).bind
  intro word first middle inFirst
  exact AccountsFor.loop step inFirst

theorem optional_linedUp (isThere : Bool) :
    AccountsFor stream start (optional isThere levels) fun word expr? =>
      LinedUp stream.sourceName word (Node.ofOption expr?) := by
  unfold optional
  split
  · exact (conditional_linedUp closed).map fun _ _ inExpr => inExpr
  · exact .pure (LinedUp.nil _ _)

end

/-! ### Nodes between two places -/

/-- Nodes are lined up with the tokens between two places. -/
structure StandBetween (stream : TokenStream) (start stop : Nat) (nodes : List Node) : Prop where
  inOrder : start ≤ stop
  linedUp : LinedUp stream.sourceName (stream.between start stop) nodes

namespace StandBetween

variable {low high : Nat} {first second nodes : List Node}

theorem nil (inOrder : start ≤ stop) : StandBetween stream start stop [] :=
  ⟨inOrder, .nil _ _⟩

theorem widen (inside : StandBetween stream low high nodes) (fromStart : start ≤ low)
    (beforeStop : high ≤ stop) : StandBetween stream start stop nodes where
  inOrder := Nat.le_trans fromStart (Nat.le_trans inside.inOrder beforeStop)
  linedUp :=
    inside.linedUp.within (TokenStream.between_sublist fromStart inside.inOrder beforeStop)

/-- Tokens that no node is on may come between two parts. -/
theorem append {middle : Nat} (before : StandBetween stream start middle first)
    (after : StandBetween stream low stop second) (later : middle ≤ low) :
    StandBetween stream start stop (first ++ second) := by
  have after := after.widen later (Nat.le_refl stop)
  refine ⟨Nat.le_trans before.inOrder after.inOrder, ?_⟩
  rw [← TokenStream.between_append before.inOrder after.inOrder]
  exact before.linedUp.append after.linedUp

variable (closed : stream.IsClosed)

include closed

/-- A statement is on the line of the token that begins it. -/
theorem statement {root : Node} (inside : StandBetween stream low high nodes)
    (notEnd : (stream.get start).kind ≠ .eof) (afterStart : start < low) (beforeStop : high ≤ stop)
    (isFirst : root.origin = originFrom stream start) :
    StandBetween stream start stop (root :: nodes) := by
  have inside := inside.widen afterStart beforeStop
  have notLast := closed.lt_size notEnd
  have isCons := TokenStream.between_eq_cons (Nat.lt_of_succ_lt notLast) inside.inOrder
  refine ⟨Nat.le_of_succ_le inside.inOrder, ?_⟩
  rw [isCons]
  exact (inside.linedUp.tail _).head isFirst

/-- A call block has the defaults of its parameters before its call. -/
theorem callBlock {middle : Nat} {call : Expr} {params : List Parameter} (body : List Stmt)
    (inParams : StandBetween stream low middle (Node.ofParameters params))
    (inCall : StandBetween stream middle stop (Node.ofExpr call))
    (notEnd : (stream.get start).kind ≠ .eof) (afterStart : start < low) :
    StandBetween stream start stop (.stmt (.callBlock (originFrom stream start) call params body) ::
      (Node.ofExpr call ++ Node.ofParameters params)) := by
  have inParams := inParams.widen afterStart (Nat.le_refl middle)
  have further := Nat.le_trans inParams.inOrder inCall.inOrder
  have notLast := closed.lt_size notEnd
  have isCons := TokenStream.between_eq_cons (Nat.lt_of_succ_lt notLast) further
  refine ⟨Nat.le_of_succ_le further, ?_⟩
  rw [isCons, ← TokenStream.between_append inParams.inOrder inCall.inOrder]
  exact LinedUp.callBlock inParams.linedUp inCall.linedUp rfl

end StandBetween

/-! ### Statements -/

/-- The nodes that a walk over a part meets. -/
def Part.nodes : Part → List Node
  | statement stmt => walkBody stmt.toList
  | body _ stmts _ | otherwise _ _ stmts => walkBody stmts
  | branches _ elifs _ => walkBranches elifs

variable [Limits]

section

variable (closed : stream.IsClosed)

include closed

theorem parse_standBetween {expr : Expr}
    (reads : Expr.parse levels stream start = .ok expr stop) :
    StandBetween stream start stop (Node.ofExpr expr) :=
  ⟨(Expr.parse_linedUp closed reads).1, (Expr.parse_linedUp closed reads).2⟩

omit [Limits] in
theorem lt_of_plainText {content : String} (isData : (stream.get start).kind = .data)
    (reads : plainText stream start = .ok content stop) : start < stop := by
  have moves : Parsing.Moves stream { cursor := start } (liftM plainText) :=
    plainText_moves closed isData
  rwa [Parsing.Moves, Parsing.lift_eq_of_ok reads] at moves

/-- The nodes of a part are lined up with the tokens that it is derived from. -/
theorem Derived.standBetween {part : Part} (derived : Derived stream depth start part stop) :
    StandBetween stream start stop part.nodes := by
  have expression {levels start stop : Nat} {expr : Expr}
      (reads : Expr.parse levels stream start = .ok expr stop) :
      StandBetween stream start stop (Node.ofExpr expr) := parse_standBetween closed reads
  have passed {α : Type} {least start stop : Nat} {rule : Reading α} {value : α}
      (reads : Reads stream least start rule) (outcome : rule stream start = .ok value stop) :
      start ≤ stop := (reads.of_ok outcome).1.inOrder
  induction derived with
  | text isData reads =>
      simp only [Part.nodes, Option.toList_some, walkBody_singleton, walk]
      have further := lt_of_plainText closed isData reads
      exact (StandBetween.nil further).statement closed (by simp [isData]) (Nat.lt_succ_self _)
        (Nat.le_refl _) rfl
  | raw isRaw reads =>
      simp only [Part.nodes, Option.toList_some, walkBody_singleton, walk]
      have inOrder := plainText_forward.of_ok reads
      exact (StandBetween.nil inOrder).statement closed (by simp [isRaw]) (Nat.lt_succ_self _)
        (Nat.le_succ _) rfl
  | comment _ reads => exact .nil (skipComment_forward.of_ok reads)
  | output _ isOutput reads =>
      simp only [Part.nodes, Option.toList_some, walkBody_singleton, walk]
      exact (expression reads).statement closed (by simp [isOutput]) (Nat.lt_succ_self _)
        (Nat.le_succ _) rfl
  | continue_ tag | break_ tag | debug tag =>
      simp only [Part.nodes, Option.toList_some, walkBody_singleton, walk]
      exact (StandBetween.nil tag.inside.inOrder).statement closed tag.notEnd.1
        (Nat.lt_succ_self _) (Nat.le_succ _) rfl
  | evaluate _ tag reads | parent _ tag reads =>
      simp only [Part.nodes, Option.toList_some, walkBody_singleton, walk]
      exact (expression reads).statement closed tag.notEnd.1 (by omega) (Nat.le_succ _) rfl
  | @inclusion _ start first second third stop _ ignoreMissing _ _ tag reads ignores isMissing
      inContext =>
      simp only [Part.nodes, Option.toList_some, walkBody_singleton, walk]
      have ignored := passed (skipWord_reads closed _) ignores
      have inOrder : second ≤ third := by
        cases ignoreMissing with
        | true => exact passed (expectWord_reads closed _) isMissing
        | false =>
            cases isMissing
            exact Nat.le_refl _
      have modified := passed (contextModifier_reads closed _) inContext
      exact (expression reads).statement closed tag.notEnd.1 (by omega) (by omega) rfl
  | importAs _ tag reads renames named inContext =>
      simp only [Part.nodes, Option.toList_some, walkBody_singleton, walk]
      have renamed := passed (expectWord_reads closed _) renames
      have named := passed (identifier_reads closed) named
      have modified := passed (contextModifier_reads closed _) inContext
      exact (expression reads).statement closed tag.notEnd.1 (by omega) (by omega) rfl
  | importNames _ tag reads _ named inContext =>
      simp only [Part.nodes, Option.toList_some, walkBody_singleton, walk]
      have named := passed (importedNames_reads closed) named
      have modified := passed (contextModifier_reads closed _) inContext
      exact (expression reads).statement closed tag.notEnd.1 (by omega) (by omega) rfl
  | forLoop _ tag targeted _ reads filters filtered recursive _ closes _ ihBody ihRest =>
      simp only [Part.nodes, Option.toList_some, walkBody_singleton, walk]
      have targeted := passed (assignTargets_reads closed) targeted
      have iterated := Expr.parseUnconditional_linedUp closed reads
      have skipped := passed (skipIf_reads closed rfl) filters
      have filtered := optional_linedUp closed _ _ _ filtered
      have modified := passed (skipWord_reads closed _) recursive
      have header := StandBetween.append ⟨iterated.1, iterated.2⟩ ⟨filtered.1, filtered.2⟩ skipped
      have bodies := (header.append ihBody (by omega)).append ihRest
        (by have := closes.inside.inOrder; omega)
      exact bodies.statement closed tag.notEnd.1 (by omega) (Nat.le_refl _) rfl
  | choice _ tag reads _ _ closes _ ihBody ihBranches ihRest =>
      simp only [Part.nodes, Option.toList_some, walkBody_singleton, walk]
      have branches := ((expression reads).append ihBody (Nat.le_succ _)).append ihBranches
        (Nat.le_refl _)
      have bodies := branches.append ihRest (by have := closes.inside.inOrder; omega)
      exact bodies.statement closed tag.notEnd.1 (by omega) (Nat.le_refl _) rfl
  | assign _ tag targeted _ reads =>
      simp only [Part.nodes, Option.toList_some, walkBody_singleton, walk, walkBody,
        List.append_nil]
      have targeted := passed (assignTargets_reads closed) targeted
      exact (expression reads).statement closed tag.notEnd.1 (by omega) (Nat.le_succ _) rfl
  | capture _ tag targeted _ _ closes ih =>
      simp only [Part.nodes, Option.toList_some, walkBody_singleton, walk]
      have := tag.inside.inOrder
      have := closes.inside.inOrder
      exact ih.statement closed tag.notEnd.1 (by omega) (by omega) rfl
  | block _ tag named modified _ closes ih =>
      simp only [Part.nodes, Option.toList_some, walkBody_singleton, walk]
      have := tag.inside.inOrder
      have := closes.inside.inOrder
      exact ih.statement closed tag.notEnd.1 (by omega) (by omega) rfl
  | macro_ _ tag named signed _ closes ih =>
      simp only [Part.nodes, Option.toList_some, walkBody_singleton, walk]
      have named := passed (identifier_reads closed) named
      have signed := signature_linedUp closed _ _ signed
      have inside := StandBetween.append ⟨signed.1, signed.2⟩ ih (Nat.le_succ _)
      have := closes.inside.inOrder
      exact inside.statement closed tag.notEnd.1 (by omega) (by omega) rfl
  | bareCall _ tag signed reads =>
      simp only [Part.nodes, Option.toList_some, walkBody_singleton, walk]
      have signed := (callParams_linedUp closed _ _ signed).1
      exact (expression reads).statement closed tag.notEnd.1 (by omega) (Nat.le_succ _) rfl
  | @callBlock _ _ _ _ _ _ _ _ body _ tag signed reads _ _ _ closes ih =>
      simp only [Part.nodes, Option.toList_some, walkBody_singleton, walk]
      have signed := callParams_linedUp closed _ _ signed
      have header := StandBetween.callBlock closed body ⟨signed.1, signed.2⟩ (expression reads)
        tag.notEnd.1 (by omega)
      have := closes.inside.inOrder
      exact (header.append ih (Nat.le_succ _)).widen (Nat.le_refl _) (by omega)
  | scope _ tag reads _ closes ih =>
      simp only [Part.nodes, Option.toList_some, walkBody_singleton, walk]
      have given := assignments_linedUp closed _ _ reads
      have inside := StandBetween.append ⟨given.1, given.2⟩ ih (Nat.le_succ _)
      have := closes.inside.inOrder
      exact inside.statement closed tag.notEnd.1 (by omega) (by omega) rfl
  | filtered _ tag reads _ closes ih =>
      simp only [Part.nodes, Option.toList_some, walkBody_singleton, walk]
      have filters := filterCalls_linedUp closed _ _ reads
      have inside := StandBetween.append ⟨filters.1, filters.2⟩ ih (Nat.le_succ _)
      have := closes.inside.inOrder
      exact inside.statement closed tag.notEnd.1 (by omega) (by omega) rfl
  | autoescape _ tag reads _ closes ih =>
      simp only [Part.nodes, Option.toList_some, walkBody_singleton, walk]
      have inside := (expression reads).append ih (Nat.le_succ _)
      have := closes.inside.inOrder
      exact inside.statement closed tag.notEnd.1 (by omega) (by omega) rfl
  | ended | noBranch | noElse => exact .nil (Nat.le_refl _)
  | more _ _ ihFirst ihRest =>
      rw [Part.nodes, walkBody_append]
      exact ihFirst.append ihRest (Nat.le_refl _)
  | branch tag reads _ _ ihBody ihRest =>
      rw [Part.nodes, walkBranches]
      have guarded := (expression reads).append ihBody (Nat.le_succ _)
      have inside := guarded.append ihRest (Nat.le_refl _)
      exact inside.widen (by omega) (Nat.le_refl _)
  | else_ _ closes ih =>
      exact ih.widen (Nat.le_refl _) (by have := closes.inside.inOrder; omega)

end

end Stmt

end Stencil

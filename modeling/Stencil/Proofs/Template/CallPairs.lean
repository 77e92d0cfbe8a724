import Stencil.Profiles
import Stencil.Proofs.Stmt.CallPairs
import Stencil.Proofs.Template.Nesting

/-!
# The calls of a template are paired like brackets

Whether a call tag has a body is decided by a scan of the rest of the template, and the body is read
by rules that know nothing of the scan. Both agree with the pairs that call tags and the tags that
close them form as brackets, in every template that is read without an error and ends once.
-/

namespace Stencil

namespace TokenStream

/-- The template does not end within the tokens of a stream if it does not within their list. -/
theorem endsOnce_ofTokens {tokens : List Token}
    (onlyEnd : ∀ token ∈ (ofTokens tokens).all.dropLast, token.kind ≠ .eof) :
    (ofTokens tokens).EndsOnce := by
  rcases exists_closed_eq tokens with ⟨front, last, sameTokens, isEnd⟩
  have significant : (ofTokens tokens).significant.toList =
      front.filter (·.kind.isSignificant) ++ [last] := by
    simp [ofTokens, sameTokens, isEnd, Token.Kind.isSignificant]
  intro index isBefore
  have inside : index < (front.filter (·.kind.isSignificant)).length := by
    rw [size, ← Array.length_toList, significant, List.length_append] at isBefore
    exact Nat.lt_of_succ_lt_succ isBefore
  have isToken : (ofTokens tokens).get index = (front.filter (·.kind.isSignificant))[index] := by
    apply get_eq_of_getElem?
    rw [significant, List.getElem?_append_left inside, List.getElem?_eq_getElem inside]
  rw [isToken]
  apply onlyEnd
  have isAll : (ofTokens tokens).all = front ++ [last] := sameTokens
  rw [isAll, List.dropLast_concat]
  exact (List.mem_filter.1 (List.getElem_mem inside)).1

/-- There is no tag from the last token on. -/
theorem IsClosed.tagsIn_all {stream : TokenStream} (closed : stream.IsClosed) {cursor : Nat}
    (isLast : stream.size ≤ cursor + 1) (word : String) :
    stream.tagsIn word 0 cursor = stream.tagsIn word 0 stream.size := by
  have noTag (index : Nat) (isBeyond : stream.size ≤ index + 1) :
      stream.isTag word index = false := by
    have isEnd : (stream.get index).kind = .eof := by
      rw [get_eq_last (by omega)]
      exact closed
    simp [isTag, isEnd]
  rcases Nat.le_total cursor stream.size with before | beyond
  · have rest : stream.tagsIn word cursor stream.size = [] :=
      tagsIn_eq_nil fun index fromCursor _ => noTag index (by omega)
    rw [tagsIn_append word (Nat.zero_le cursor) before, rest, List.append_nil]
  · have rest : stream.tagsIn word stream.size cursor = [] :=
      tagsIn_eq_nil fun index fromSize _ => noTag index (by omega)
    rw [tagsIn_append word (Nat.zero_le stream.size) beyond, rest, List.append_nil]

end TokenStream

namespace Stmt

variable {stream : TokenStream} {start : Nat}

/-- What is paired from a place on is paired in the whole, with some call tags open there. -/
theorem exists_pairsFrom_subset (closed : stream.IsClosed) (endsOnce : stream.EndsOnce)
    (inside : start < stream.size) :
    ∃ opened, pairsFrom stream opened start ⊆ pairsFrom stream [] 0 := by
  induction start with
  | zero => exact ⟨[], List.Subset.refl _⟩
  | succ start ih =>
      rcases ih (by omega) with ⟨opened, subset⟩
      rw [pairsFrom_eq closed (endsOnce start inside)] at subset
      cases isCall : stream.isTag "call" start with
      | true =>
          rw [if_pos isCall] at subset
          exact ⟨_, subset⟩
      | false =>
          rw [if_neg (by simp [isCall])] at subset
          cases isEndcall : stream.isTag "endcall" start with
          | false =>
              rw [if_neg (by simp [isEndcall])] at subset
              exact ⟨_, subset⟩
          | true =>
              rw [if_pos isEndcall] at subset
              cases opened with
              | nil => exact ⟨_, subset⟩
              | cons call outer =>
                  exact ⟨outer, List.Subset.trans (List.subset_cons_self _ _) subset⟩

variable [Limits]

/-- The tag that ends the body of a call block is the one that is paired with the call tag. -/
theorem Derived.paired (closed : stream.IsClosed) (endsOnce : stream.EndsOnce) {depth stop : Nat}
    {origin : Origin} {call : Expr} {params : List Parameter} {body : List Stmt}
    (derived : Derived stream depth start (.statement (some (.callBlock origin call params body)))
      stop) :
    ∃ closing last, Tag stream closing "endcall" last ∧ stop = last + 1 ∧
      (start, closing) ∈ pairsFrom stream [] 0 := by
  cases derived with
  | @callBlock _ _ _ inner middle stop _ _ _ _ tag _ _ _ _ inside closes =>
      have callsIn := inside.callsIn closed trivial
      have haveBody := inside.haveBody closed closes.toBegins
      have isInside := closed.lt_size tag.notEnd.1
      rcases exists_pairsFrom_subset closed endsOnce (Nat.lt_of_succ_lt isInside) with
        ⟨opened, subset⟩
      rcases callsIn.pairsFrom_eq closed haveBody (start :: opened) with ⟨pairs, isBody⟩
      refine ⟨middle, stop, closes, rfl, subset ?_⟩
      rw [tag.pairsFrom_call closed, isBody, closes.pairsFrom_endcall closed]
      simp

end Stmt

namespace Template

variable {stream : TokenStream} {progress last : Progress}

/-- Rounds that drop nothing read the calls that stand between their places. -/
theorem Runs.callsIn [Limits] (closed : stream.IsClosed) (runs : Runs stream progress last)
    (reached : Reached stream progress) (notFatal : progress.fatal = none)
    (notAborted : last.fatal = none) (noErrors : last.errors = []) :
    ∃ calls, Stmt.CallsIn stream progress.place.cursor calls last.place.cursor ∧
      Stmt.callNodes last.body = Stmt.callNodes progress.body ++ calls := by
  induction runs with
  | atEnd => exact ⟨[], .calm (.refl stream _), by simp⟩
  | aborted _ _ isFatal => exact absurd notAborted isFatal
  | @more progress next last notEnd round notFatalNext rest ih =>
      have noErrorsNext : next.errors = [] := by
        have stay := rest.errors_stay
        rwa [noErrors, List.prefix_nil] at stay
      rcases ih (.round reached notFatal notEnd round) notFatalNext notAborted noErrors with
        ⟨calls, callsIn, isRest⟩
      cases round with
      | stray | recovered => simp at noErrorsNext
      | aborted => cases notFatalNext
      | @statement stmt after _ outcome =>
          have noneOpen : progress.place.depth = 0 := (reached.noneOpen closed).depth_eq
          have derived := (Stmt.parse_derives closed 0 progress.place.cursor progress.place after
            stmt noneOpen rfl outcome).2
          refine ⟨_, (derived.callsIn closed trivial).append callsIn, ?_⟩
          rw [isRest]
          simp [Stmt.Part.callNodes]

/-- The calls of a template are paired like brackets, if it ends once and is read without an error.
They correspond to the call tags in their order, those with a body to the tags that are paired with
an `endcall` tag, and there are as many `endcall` tags. The scan that decides whether a call tag has
a body answers after each of the tags whether it is paired, and the body of a call block is read
up to the `endcall` tag that its call tag is paired with. -/
theorem calls_paired [Limits] {tokens : List Token} {template : Template}
    (onlyEnd : ∀ token ∈ (TokenStream.ofTokens tokens).all.dropLast, token.kind ≠ .eof)
    (parsed : (parse {} (.ofTokens tokens)).result (.ofTokens tokens) = .ok template)
    (noErrors : (parse {} (.ofTokens tokens)).errors = []) :
    let stream := TokenStream.ofTokens tokens
    let pairs := Stmt.pairsFrom stream [] 0
    let calls := template.statements.filterMap Stmt.callNode?
    calls = (stream.tagsIn "call" 0 stream.size).map (fun start =>
      (Stmt.originFrom stream start, pairs.any fun pair => pair.1 = start)) ∧
    calls.countP (·.2) = (stream.tagsIn "endcall" 0 stream.size).length ∧
    (∀ start stop, Stmt.Tag stream start "call" stop → Stmt.hasEndcall stream (stop + 1) =
      .ok (pairs.any fun pair => pair.1 = start) (stop + 1)) ∧
    ∀ place after origin call params body, Stmt.parse {} stream place =
        .ok (some (.callBlock origin call params body)) after →
      ∃ closing last, Stmt.Tag stream closing "endcall" last ∧ after.cursor = last + 1 ∧
        (place.cursor, closing) ∈ pairs := by
  intro stream pairs calls
  have closed := TokenStream.isClosed_ofTokens tokens
  have endsOnce := TokenStream.endsOnce_ofTokens onlyEnd
  rcases of_result_eq_ok parsed with ⟨notFatal, sameTemplate⟩
  have paired {start : Nat} (isCall : stream.isTag "call" start = true) :
      Stmt.endcallFrom stream 0 (start + 1) = pairs.any fun pair => pair.1 = start := by
    rw [Bool.eq_iff_iff, Stmt.endcallFrom_iff_paired closed endsOnce isCall (.nil 0)
      (Nat.zero_le start)]
    simp [pairs, stream]
  have runs : Runs stream {} (parse {} stream) := (endsByItself closed).rounds
  have isEnd := runs.atEnd_of_notFatal notFatal
  have isLast : stream.size ≤ (parse {} stream).place.cursor + 1 := by
    by_contra isBefore
    exact endsOnce _ (Nat.lt_of_not_le isBefore) isEnd
  rcases runs.callsIn closed .start rfl notFatal noErrors with ⟨found, callsIn, isBody⟩
  have isFound : calls = found := by
    simpa [calls, sameTemplate, Template.statements, Stmt.callNodes] using isBody
  have sameTags := closed.tagsIn_all isLast
  refine ⟨?_, ?_, ?_, ?_⟩
  · rw [isFound, callsIn.eq_tagsIn closed, sameTags]
    apply List.map_congr_left
    intro start isCall
    rw [paired (List.mem_filter.1 isCall).2]
  · rw [isFound, callsIn.count_eq, sameTags]
  · intro start stop tag
    have isCall : stream.isTag "call" start = true := by simp [tag.isTag]
    rw [← paired isCall, tag.rest_calm.balanced closed]
    rfl
  · intro place after origin call params body outcome
    have derived := (Stmt.parse_derives closed place.depth place.cursor place after _ rfl rfl
      outcome).2
    exact derived.paired closed endsOnce

set_option maxRecDepth 10000 in
/-- Two nested call blocks are followed by a call tag that nothing closes. -/
theorem calls_paired_nested : ∃ tokens template,
    (∀ token ∈ (TokenStream.ofTokens tokens).all.dropLast, token.kind ≠ .eof) ∧
    (parse {} (.ofTokens tokens)).result (.ofTokens tokens) = .ok template ∧
    (parse {} (.ofTokens tokens)).errors = [] ∧
    Stmt.pairsFrom (.ofTokens tokens) [] 0 = [(7, 14), (0, 17)] ∧
    template.statements.filterMap Stmt.callNode? =
      [(⟨1, none⟩, true), (⟨1, none⟩, true), (⟨1, none⟩, false)] := by
  let callTag : List (Token.Kind × String) := [(.blockBegin, "\x7b%"), (.keyword .call, "call"),
    (.name, "f"), (.lparen, "("), (.rparen, ")"), (.blockEnd, "%\x7d")]
  let closingTag : List (Token.Kind × String) :=
    [(.blockBegin, "\x7b%"), (.name, "endcall"), (.blockEnd, "%\x7d")]
  let tokens := Token.layOut none .start (callTag ++ [(.data, "a")] ++ callTag ++ [(.data, "b")] ++
    closingTag ++ closingTag ++ callTag)
  have onlyEnd : ∀ token ∈ (TokenStream.ofTokens tokens).all.dropLast, token.kind ≠ .eof := by
    decide
  obtain ⟨notFatal, noErrors⟩ : (parse {} (.ofTokens tokens)).fatal = none ∧
      (parse {} (.ofTokens tokens)).errors = [] := by
    cbv
  have parsed := result_eq_ok (.ofTokens tokens) notFatal
  have pairs : Stmt.pairsFrom (.ofTokens tokens) [] 0 = [(7, 14), (0, 17)] := by cbv
  have tags : (TokenStream.ofTokens tokens).tagsIn "call" 0 (TokenStream.ofTokens tokens).size =
      [0, 7, 20] := by cbv
  rcases calls_paired onlyEnd parsed noErrors with ⟨calls, -, -, -⟩
  refine ⟨tokens, _, onlyEnd, parsed, noErrors, pairs, ?_⟩
  rw [calls, tags, pairs]
  cbv

end Template

end Stencil

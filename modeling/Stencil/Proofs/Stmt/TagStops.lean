import Stencil.Proofs.Expr.Echoing
import Stencil.Proofs.Stmt.Grammar
import Stencil.Proofs.Stmt.WrittenTags

/-!
# Where tags with words after an expression stop

A tag ends at the first token that cannot stand inside one, and each word that is read before that
end is a single token. If the words of a tag are the last of its tokens, the expression before them
has stopped where they begin, and hence does not end with a test without arguments.
-/

namespace Stencil

open Reading Lexeme

variable {stream : TokenStream} {start stop : Nat}

/-- What is read off given tokens leaves the rest of them. -/
theorem ReadsOff.of_ok [Limits] {α : Type} {low levels needed : Nat} {ahead rest : List Lexeme}
    {rule : Reading α} {good : α → Prop} {value : α}
    (reads : ReadsOff stream low levels needed ahead rest rule good)
    (isAhead : stream.Ahead start ahead) (later : low ≤ start)
    (outcome : rule stream start = .ok value stop) : stream.Ahead stop rest ∧ good value := by
  have meets := reads start ⟨isAhead, later⟩
  rw [outcome] at meets
  exact ⟨meets.2.1.ahead, meets.2.2⟩

/-- Words that begin a context modifier. -/
def Stmt.modifierWords : List String := ["with", "without"]

theorem TokenStream.Ahead.not_modifier {lexeme : Lexeme} {ahead : List Lexeme}
    (isAhead : stream.Ahead start (lexeme :: ahead))
    (other : ∀ spelling ∈ Stmt.modifierWords, lexeme.word? ≠ some spelling) :
    ¬∃ spelling ∈ Stmt.modifierWords, (stream.get start).word? = some spelling := by
  rintro ⟨spelling, isOne, isWord⟩
  rw [← Token.word?_lexeme, isAhead.get] at isWord
  exact other spelling isOne isWord

/-- Tokens that are read as an expression can stand inside a tag. -/
theorem Expr.isInner_of_parse [Limits] {word rest : List Lexeme} {levels : Nat} {expr : Expr}
    (isAhead : stream.Ahead start (word ++ rest))
    (parsed : Expr.parse levels stream start = .ok expr stop) (isRest : stream.Ahead stop rest) :
    ∀ lexeme ∈ word, lexeme.kind.isInner = true := by
  intro lexeme isPart
  have reads : Reads stream 1 start (Expr.parse levels) := Expr.parse_reads isAhead.isClosed levels
  have passed := (reads.of_ok parsed).1
  have sizeWord := isAhead.size_eq
  have sizeRest := isRest.size_eq
  rcases List.append_of_mem isPart with ⟨front, back, rfl⟩
  rw [List.append_assoc] at isAhead
  have here := isAhead.append.2.stands.kind
  simp only [List.length_append, List.length_cons] at sizeWord
  rw [← here]
  exact passed.inner _ (Nat.le_add_right _ _) (by omega)

namespace Stmt

/-! ### Words of tags -/

section

variable (closed : stream.IsClosed)

include closed

theorem skipWord_stops {spelling : String} {isThere : Bool}
    (outcome : skipWord spelling stream start = .ok isThere stop) :
    stop = start + isThere.toNat := by
  by_cases isWord : (stream.get start).isWord spelling = true
  · rw [skipWord_eq_of_isWord isWord] at outcome
    cases outcome
    exact closed.next_eq (Token.Kind.ne_eof_of_isInner (Token.isInner_of_isWord isWord))
  · rw [skipWord_eq_of_not isWord] at outcome
    cases outcome
    rfl

theorem expectWord_stops {spelling : String}
    (outcome : expectWord spelling stream start = .ok () stop) : stop = start + 1 := by
  rw [expectWord, current_bind] at outcome
  split at outcome
  · next isWord =>
    cases outcome
    exact closed.next_eq (Token.Kind.ne_eof_of_isInner (Token.isInner_of_isWord isWord))
  · cases outcome

theorem missing_stops {ignoreMissing : Bool}
    (outcome : missing ignoreMissing stream start = .ok () stop) :
    stop = start + ignoreMissing.toNat := by
  cases ignoreMissing with
  | true => exact expectWord_stops closed outcome
  | false =>
      cases outcome
      rfl

theorem identifier_stops {name : String} (outcome : identifier stream start = .ok name stop) :
    stop = start + 1 := by
  by_cases isName : (stream.get start).kind = .name
  · rw [identifier_eq_of_name isName] at outcome
    cases outcome
    exact closed.next_eq (by simp [isName])
  · rw [identifier, current_bind, if_neg isName] at outcome
    cases outcome

/-- A modifier is two tokens, and where there is none the default holds. -/
theorem contextModifier_stops {default withContext : Bool}
    (outcome : contextModifier default stream start = .ok withContext stop) :
    (stop = start ∧ withContext = default) ∨
      (stop = start + 2 ∧ ∃ spelling ∈ modifierWords,
        (stream.get start).word? = some spelling) := by
  have moves (spelling : String) (isWord : (stream.get start).isWord spelling = true)
      (isContext : (stream.get (start + 1)).isWord "context" = true) :
      stream.next (stream.next start) = start + 2 := by
    rw [closed.next_eq (Token.Kind.ne_eof_of_isInner (Token.isInner_of_isWord isWord)),
      closed.next_eq (Token.Kind.ne_eof_of_isInner (Token.isInner_of_isWord isContext))]
  rcases exists_of_bind_eq_ok outcome with ⟨modifier, middle, looked, rest⟩
  rw [contextModifier?, current_bind, peek_bind] at looked
  split at looked
  · next isWith =>
    cases looked
    cases rest
    have isOne : "with" ∈ modifierWords := by simp [modifierWords]
    exact Or.inr ⟨moves _ isWith.1 isWith.2, _, isOne, of_decide_eq_true isWith.1⟩
  · split at looked
    · next isWithout =>
      cases looked
      cases rest
      have isOne : "without" ∈ modifierWords := by simp [modifierWords]
      exact Or.inr ⟨moves _ isWithout.1 isWithout.2, _, isOne, of_decide_eq_true isWithout.1⟩
    · cases looked
      cases rest
      exact Or.inl ⟨rfl, rfl⟩

omit closed in
/-- The end of a tag comes right after the tokens that stand inside it. -/
theorem Tag.stop_eq {spelling : String} {contents rest : List Lexeme}
    (tag : Tag stream start spelling stop)
    (isAhead : stream.Ahead (start + 2) (contents ++ .blockEnd :: rest))
    (inner : ∀ lexeme ∈ contents, lexeme.kind.isInner = true) :
    stop = start + 2 + contents.length := by
  have inOrder : start + 2 ≤ stop := by
    have notWord : stop ≠ start + 1 := by
      rintro rfl
      have isInner := Token.isInner_of_word? tag.isWord
      rw [tag.ends] at isInner
      cases isInner
    have afterBegin := tag.inside.inOrder
    omega
  rcases Nat.lt_trichotomy stop (start + 2 + contents.length) with before | same | after
  · have inside : stop - (start + 2) < contents.length := by omega
    have isPart := isAhead.get_mem inside
    rw [Nat.add_sub_cancel' inOrder] at isPart
    have isInner := inner _ isPart
    rw [Token.kind_lexeme, tag.ends] at isInner
    cases isInner
  · exact same
  · have isInner := tag.inside.inner (start + 2 + contents.length) (by omega) after
    rw [isAhead.append.2.stands.kind] at isInner
    cases isInner

end

/-- The words of an inclusion begin with a name, if it has any. -/
theorem kind_next_words {withContext ignoreMissing : Bool}
    (hasWords : ignoreMissing = true ∨ withContext = false) (rest : List Lexeme) :
    (Lexeme.next (flagLexemes ignoreMissing ["ignore", "missing"] ++
      (contextLexemes true withContext ++ rest))).kind = .name := by
  rcases hasWords with rfl | rfl
  · rfl
  · cases ignoreMissing <;> rfl

/-! ### Expressions before the words of a tag -/

variable [Limits]

section

variable {word rest : List Lexeme} {origin : Origin} {template : Expr}
  (inner : ∀ lexeme ∈ word, lexeme.kind.isInner = true)

include inner

/-- The template of an inclusion whose words end its tag does not end in a test without
arguments. -/
theorem Derived.endsInTest_of_inclusion {withContext ignoreMissing : Bool}
    (derived : Derived stream 0 0
      (.statement (some (.inclusion origin template withContext ignoreMissing))) stop)
    (hasWords : ignoreMissing = true ∨ withContext = false)
    (isAhead : stream.Ahead 0 (.blockBegin :: .word "include" ::
      (word ++ (flagLexemes ignoreMissing ["ignore", "missing"] ++
        (contextLexemes true withContext ++ .blockEnd :: rest))))) :
    Expr.endsInTest word = false := by
  have closed := isAhead.isClosed
  have afterTag := isAhead.tail.tail
  have isWords := afterTag.append.2
  cases derived with
  | @inclusion _ _ first second third stop _ _ _ _ tag reads ignores isMissing inContext =>
      have contents : stream.Ahead 2 ((word ++ flagLexemes ignoreMissing ["ignore", "missing"] ++
          contextLexemes true withContext) ++ .blockEnd :: rest) := by
        simpa only [List.append_assoc] using afterTag
      have innerTag : ∀ lexeme ∈ word ++ flagLexemes ignoreMissing ["ignore", "missing"] ++
          contextLexemes true withContext, lexeme.kind.isInner = true := by
        simp only [List.forall_mem_append]
        exact ⟨⟨inner, by cases ignoreMissing <;> decide⟩, by cases withContext <;> decide⟩
      have flagLength : (flagLexemes ignoreMissing ["ignore", "missing"]).length =
          2 * ignoreMissing.toNat := by cases ignoreMissing <;> rfl
      have contextLength : (contextLexemes true withContext).length = 2 * (!withContext).toNat := by
        cases withContext <;> rfl
      have stopEq := tag.stop_eq contents innerTag
      rw [List.length_append, List.length_append, flagLength, contextLength] at stopEq
      have ignored := skipWord_stops closed ignores
      have missed := missing_stops closed isMissing
      have modified : stop = third + 2 * (!withContext).toNat := by
        rcases contextModifier_stops closed inContext with ⟨rfl, rfl⟩ | ⟨last, modifier⟩
        · rfl
        · cases withContext with
          | false => exact last
          | true =>
              -- The last two words would be a modifier, but they are others.
              have flagged : ignoreMissing = true := by simpa using hasWords
              subst flagged
              have thirdEq : third = 2 + word.length := by
                rw [Bool.toNat_true, Bool.not_true, Bool.toNat_false] at stopEq
                omega
              have isIgnore : stream.Ahead third
                  (.word "ignore" :: .word "missing" :: .blockEnd :: rest) := thirdEq ▸ isWords
              exact absurd modifier (isIgnore.not_modifier (by decide))
      have firstEq : first = 2 + word.length := by omega
      exact Expr.endsInTest_of_stops afterTag reads (firstEq ▸ isWords) (kind_next_words hasWords _)

/-- Neither does the template of an import whose tag ends with the name for it. -/
theorem Derived.endsInTest_of_import {target : String}
    (derived : Derived stream 0 0
      (.statement (some (.importAs origin template target false))) stop)
    (isAhead : stream.Ahead 0 (.blockBegin :: .word "import" ::
      (word ++ .word "as" :: .word target :: .blockEnd :: rest))) :
    Expr.endsInTest word = false := by
  have closed := isAhead.isClosed
  have afterTag := isAhead.tail.tail
  have isWords := afterTag.append.2
  cases derived with
  | @importAs _ _ first second third stop _ _ _ _ tag reads renames named inContext =>
      have contents : stream.Ahead 2
          ((word ++ [.word "as", .word target]) ++ .blockEnd :: rest) := by
        simpa using afterTag
      have innerTag : ∀ lexeme ∈ word ++ [.word "as", .word target],
          lexeme.kind.isInner = true := by
        simp only [List.forall_mem_cons, List.forall_mem_append]
        exact ⟨inner, by decide, Lexer.isInner_wordKind target, by simp⟩
      have stopEq := tag.stop_eq contents innerTag
      simp only [List.length_cons, List.length_append, List.length_nil] at stopEq
      have renamed := expectWord_stops closed renames
      have namedEq := identifier_stops closed named
      have firstEq : first = 2 + word.length := by
        rcases contextModifier_stops closed inContext with ⟨last, _⟩ | ⟨last, modifier⟩
        · omega
        · -- The last two words would be a modifier, but the first of them is `as`.
          have thirdEq : third = 2 + word.length := by omega
          have isAs : stream.Ahead third (.word "as" :: .word target :: .blockEnd :: rest) :=
            thirdEq ▸ isWords
          exact absurd modifier (isAs.not_modifier (by decide))
      exact Expr.endsInTest_of_stops afterTag reads (firstEq ▸ isWords) rfl

omit inner in
/-- The filter of a loop over a name begins right after `if`. -/
theorem ahead_after_if {target iter : String} {ahead : List Lexeme} {targets : List String}
    {found : Expr} {hasFilter : Bool} {levels first second third : Nat}
    (freeTarget : Expr.isFreeName target = true) (freeIter : Expr.isFreeName iter = true)
    (isAhead : stream.Ahead start
      (.word target :: .word "in" :: .word iter :: .word "if" :: ahead))
    (targeted : assignTargets stream start = .ok targets first)
    (reads : Expr.parseUnconditional levels stream (first + 1) = .ok found second)
    (filters : skipIf (.keyword .if_) stream second = .ok hasFilter third) :
    hasFilter = true ∧ stream.Ahead third ahead := by
  have targetOff : ReadsOff stream 0 0 0
      (targetLexemes [target] ++ .word "in" :: .word iter :: .word "if" :: ahead)
      (.word "in" :: .word iter :: .word "if" :: ahead) assignTargets (· = [target]) :=
    assignTargets_readsOff (by simp) (by simpa using freeTarget) Token.Kind.noConfusion
  have printable : (Expr.name ⟨0, none⟩ iter).Printable := .name _ freeIter
  have iterOff : ReadsOff stream 0 levels _ (.word iter :: .word "if" :: ahead)
      (.word "if" :: ahead) (Expr.parseUnconditional levels) _ :=
    printable.unconditional_readsOff rfl
  have beforeIn := (targetOff.of_ok isAhead (Nat.zero_le _) targeted).1
  have beforeIf := (iterOff.of_ok beforeIn.tail (Nat.zero_le _) reads).1
  have isIf : (stream.get second).kind = .keyword .if_ := beforeIf.stands.kind
  rw [skipIf_eq_of_kind isIf, isAhead.isClosed.next_eq (by simp [isIf])] at filters
  cases filters
  exact ⟨rfl, beforeIf.tail⟩

omit inner in
theorem parse_of_optional {levels : Nat} {expr : Expr}
    (outcome : optional true levels stream start = .ok (some expr) stop) :
    Expr.parse levels stream start = .ok expr stop := by
  rw [optional, if_pos rfl] at outcome
  cases parsed : Expr.parse levels stream start with
  | ok value stop =>
      rw [map_eq_of_ok parsed] at outcome
      cases outcome
      rfl
  | error error stop =>
      rw [map_eq_of_error parsed] at outcome
      cases outcome

/-- Neither does the filter of a loop whose tag ends with `recursive`. -/
theorem Derived.endsInTest_of_loop {target iter : String} {iterOrigin : Origin} {filter : Expr}
    (freeTarget : Expr.isFreeName target = true) (freeIter : Expr.isFreeName iter = true)
    (derived : Derived stream 0 0 (.statement (some
      (.forLoop origin [target] (.name iterOrigin iter) (some filter) true [] []))) stop)
    (isAhead : stream.Ahead 0 (.blockBegin :: .word "for" :: .word target :: .word "in" ::
      .word iter :: .word "if" :: (word ++ .word "recursive" :: .blockEnd :: rest))) :
    Expr.endsInTest word = false := by
  have afterTag := isAhead.tail.tail
  cases derived with
  | @forLoop _ _ first second third fourth stop _ _ _ _ _ hasFilter _ _ _ _ _ _ tag targeted _ reads
      filters filtered recursive =>
      rcases ahead_after_if freeTarget freeIter afterTag targeted reads filters with ⟨rfl, afterIf⟩
      have parsed := parse_of_optional filtered
      have contents : stream.Ahead 2 ((.word target :: .word "in" :: .word iter :: .word "if" ::
          (word ++ [.word "recursive"])) ++ .blockEnd :: rest) := by
        simpa using afterTag
      have innerTag : ∀ lexeme ∈ .word target :: .word "in" :: .word iter :: .word "if" ::
          (word ++ [.word "recursive"]), lexeme.kind.isInner = true := by
        simp only [List.forall_mem_cons, List.forall_mem_append]
        exact ⟨Lexer.isInner_wordKind target, by decide, Lexer.isInner_wordKind iter, by decide,
          inner, by decide, by simp⟩
      have stopEq := tag.stop_eq contents innerTag
      have recursiveEq := skipWord_stops isAhead.isClosed recursive
      have sizeTag := afterTag.size_eq
      have sizeFilter := afterIf.size_eq
      simp only [List.length_cons, List.length_append, List.length_nil, Bool.toNat_true]
        at stopEq recursiveEq sizeTag sizeFilter
      have fourthEq : fourth = third + word.length := by omega
      exact Expr.endsInTest_of_stops afterIf parsed (fourthEq ▸ afterIf.append.2) rfl

end

end Stmt

end Stencil

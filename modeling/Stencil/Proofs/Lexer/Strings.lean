import Stencil.Proofs.Lexer.Walks
import Stencil.Proofs.Literal.Escapes

/-!
# Strings of a text

A string token begins with a quote. It ends with the next quote of the same sort that is not
escaped, or, where there is none, it takes the rest of the text and is reported. In both cases the
value of the token is spelt by everything between its ends.
-/

namespace Stencil

/-- A string token is closed, or runs to the end of a text of a number of bytes and is reported; and
its value is what is spelt between its ends. -/
inductive Token.ReadsString (size : Nat) (diagnostics : List Diagnostic) (token : Token) :
    Prop where
  | closed {quote : Char} {body value : List Char} (isQuote : quote = '\'' ∨ quote = '"')
      (spells : Spells quote body value) (shows : token.text.toList = quote :: (body ++ [quote]))
      (sameValue : Literal.stringValue token.text.toList = value)
  | toEnd {quote : Char} {body value rest : List Char} (isQuote : quote = '\'' ∨ quote = '"')
      (spells : Spells quote body value) (isRest : rest = [] ∨ rest = ['\\'])
      (shows : token.text.toList = quote :: (body ++ rest))
      (sameValue : Literal.stringValue token.text.toList = value ++ rest)
      (stops : token.stop.offset = size)
      (reported : .unterminatedString token.position ∈ diagnostics)

theorem Token.ReadsString.mono {size : Nat} {fewer more : List Diagnostic} {token : Token}
    (reads : token.ReadsString size fewer) (kept : fewer ⊆ more) :
    token.ReadsString size more := by
  cases reads with
  | closed isQuote spells shows sameValue => exact .closed isQuote spells shows sameValue
  | toEnd isQuote spells isRest shows sameValue stops reported =>
      exact .toEnd isQuote spells isRest shows sameValue stops (kept reported)

variable [Limits]

namespace Lexer

variable {dialect : Dialect} {sourceName : Option String} {state : State} {token : Token}

/-- A string token that is taken is the text from a quote on. -/
theorem exists_takeString {kind : TagKind} {brackets : Nat}
    (inTag : state.mode = .tag kind brackets) (nonempty : state.rest ≠ [])
    (member : token ∈ (step dialect sourceName state).tokens) (isString : token.kind = .string) :
    token ∈ state.tokens ∨ ∃ quote text, state.rest = quote :: text ∧
      (quote = '\'' ∨ quote = '"') ∧
      step dialect sourceName state = takeString sourceName quote state := by
  rcases List.exists_cons_of_ne_nil nonempty with ⟨char, text, shows⟩
  rw [step_of_tag inTag, stepTag_of_cons shows] at member ⊢
  have isInner : token.kind.isInner = true := by rw [isString]; rfl
  split at member
  · exact Or.inl (mem_of_mem_cons isInner rfl member)
  · next notLineEnd =>
    split at member
    · have notInner : (closer dialect kind).2.isInner = false := by cases kind <;> rfl
      exact Or.inl (mem_of_mem_cons isInner notInner member)
    · next notEnd =>
      rcases @exists_takeLexeme_eq sourceName _ _ _ _ _ inTag shows with
        ⟨taken, _, _, beginsWithQuote, _, sameTokens, _⟩
      rw [if_neg notLineEnd, if_neg notEnd]
      rw [sameTokens] at member
      rcases List.mem_cons.1 member with rfl | earlier
      · have isQuote := beginsWithQuote isString
        have notBlank : Text.isBlank char = false := by
          rcases isQuote with rfl | rfl <;> decide
        exact Or.inr ⟨char, text, shows, isQuote, by rw [takeLexeme, notBlank, if_neg (by simp),
          if_pos isQuote]⟩
      · exact Or.inl earlier

omit [Limits] in
/-- A string that is taken is read in full. -/
theorem exists_readsString_of_takeString {size : Nat} {quote : Char} {text : List Char}
    (isQuote : quote = '\'' ∨ quote = '"') (shows : state.rest = quote :: text)
    (sameSize : (state.position.advanceOver state.rest).offset = size) : ∃ taken,
      (takeString sourceName quote state).tokens = taken :: state.tokens ∧
      taken.ReadsString size (takeString sourceName quote state).diagnostics := by
  have textAfter : state.rest.drop 1 = text := by rw [shows]; rfl
  unfold takeString
  rw [textAfter]
  split
  · next length found =>
    rcases stringLength?_eq_some found with ⟨body, after, isBody, rfl, rfl⟩
    rcases isBody.exists_spells with ⟨value, spells⟩
    have whole : state.rest = quote :: (body ++ [quote]) ++ after := by simp [shows]
    have sameLength : body.length + 1 + 1 = (quote :: (body ++ [quote])).length := by simp
    rw [sameLength, State.emit_eq_of_rest whole]
    refine ⟨_, rfl, .closed isQuote spells String.toList_ofList ?_⟩
    rw [String.toList_ofList, Literal.stringValue_of_closed isQuote spells]
  · next notFound =>
    rcases exists_quotedBody_of_stringLength? notFound with ⟨body, rest, isBody, rfl, isRest⟩
    rcases isBody.exists_spells with ⟨value, spells⟩
    rw [State.emit_eq_of_rest (List.append_nil _).symm]
    refine ⟨_, rfl, .toEnd isQuote spells isRest (by rw [String.toList_ofList, shows]) ?_ ?_
      List.mem_cons_self⟩
    · rw [String.toList_ofList, shows, Literal.stringValue_of_open isQuote spells isRest]
    · rw [Token.stop, String.toList_ofList]
      exact sameSize

/-- All along a walk the string tokens are read. -/
theorem readsString_of_walks {source : List Char}
    (walks : Relation.ReflTransGen (StepsTo dialect sourceName) (.ofSource source) state) :
    ∀ token ∈ state.tokens, token.kind = .string →
      token.ReadsString (Text.byteLength source) state.diagnostics := by
  induction walks with
  | refl => simp [State.ofSource]
  | @tail before after walks stepsTo ih =>
      rcases stepsTo with ⟨nonempty, rfl⟩
      intro token member isString
      have move : Move dialect sourceName before (step dialect sourceName before) :=
        step_move nonempty
      have earlier (member : token ∈ before.tokens) : token.ReadsString (Text.byteLength source)
          (step dialect sourceName before).diagnostics :=
        (ih token member isString).mono move.diagnostics_suffix.subset
      by_cases inTag : ∃ kind brackets, before.mode = .tag kind brackets
      · rcases inTag with ⟨kind, brackets, inTag⟩
        rcases exists_takeString inTag nonempty member isString with isEarlier | isTaken
        · exact earlier isEarlier
        · rcases isTaken with ⟨quote, text, shows, isQuote, taken⟩
          rcases exists_before_of_walks walks with ⟨passed, sameSource, samePosition⟩
          have sameSize : (before.position.advanceOver before.rest).offset =
              Text.byteLength source := by
            rw [samePosition, ← Position.advanceOver_append, ← sameSource,
              Position.offset_start_advanceOver]
          rcases @exists_readsString_of_takeString sourceName _ _ _ _ isQuote shows sameSize with
            ⟨last, sameTokens, reads⟩
          rw [taken] at member earlier ⊢
          rw [sameTokens] at member
          rcases List.mem_cons.1 member with rfl | isEarlier
          · exact reads
          · exact earlier isEarlier
      · refine earlier (move.mem_of_isInner ?_ member (by rw [isString]; rfl))
        exact fun kind brackets isTag => inTag ⟨kind, brackets, isTag⟩

/-- Every string token of a text is read. -/
theorem readsString_of_tokenize {source : String} {result : Tokenization}
    (cut : tokenize dialect sourceName source = some result) (member : token ∈ result.tokens)
    (isString : token.kind = .string) :
    token.ReadsString source.utf8ByteSize result.diagnostics := by
  rcases exists_walks_of_tokenize cut with ⟨last, walks, _, rfl⟩
  have sameSize : Text.byteLength source.toList = source.utf8ByteSize := by
    rw [Text.byteLength_eq_utf8ByteSize, String.ofList_toList]
  rcases exists_finish_tokens sourceName last with ⟨closing, sameTokens, isClosing⟩
  have taken : token ∈ last.tokens := by
    rw [State.result, List.mem_reverse, sameTokens, List.mem_append] at member
    refine member.resolve_left fun closes => ?_
    simpa [isString] using isClosing token closes
  have reads := readsString_of_walks walks token taken isString
  rw [sameSize] at reads
  refine reads.mono fun diagnostic noted => ?_
  rw [State.result, List.mem_reverse]
  exact (finish_diagnostics_suffix sourceName last).subset noted

end Lexer

end Stencil

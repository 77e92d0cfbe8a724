import Stencil.Literal
import Stencil.Proofs.Lexer.Quoted

/-!
# What the characters of a string spell

The lexer finds the closing quote of a string, and the value of the string is read later on from the
text between the quotes. Both go over this text in the same way, one character or one escape at a
time, so that the value is spelt by all of the text that the lexer took, and by no more.
-/

namespace Stencil

/-- What the character after a backslash stands for: a few letters stand for control characters,
marks for themselves, and any other character keeps its backslash. -/
inductive Escape : Char → List Char → Prop where
  | newline : Escape 'n' ['\n']
  | tab : Escape 't' ['\t']
  | carriageReturn : Escape 'r' ['\r']
  | backslash : Escape '\\' ['\\']
  | apostrophe : Escape '\'' ['\'']
  | quotationMark : Escape '"' ['"']
  | unknown {char : Char} (isUnknown : char ∉ ['n', 't', 'r', '\\', '\'', '"']) :
      Escape char ['\\', char]

/-- The characters between two quotes spell a value. -/
inductive Spells (quote : Char) : List Char → List Char → Prop where
  | nil : Spells quote [] []
  | plain {char : Char} {body value : List Char} (notBackslash : char ≠ '\\')
      (notQuote : char ≠ quote) (rest : Spells quote body value) :
      Spells quote (char :: body) (char :: value)
  | escaped {char : Char} {meaning body value : List Char} (escape : Escape char meaning)
      (rest : Spells quote body value) :
      Spells quote ('\\' :: char :: body) (meaning ++ value)

theorem escape_unescape (char : Char) : Escape char (Literal.unescape char) := by
  unfold Literal.unescape
  split
  · next isNewline => exact isNewline ▸ .newline
  · split
    · next isTab => exact isTab ▸ .tab
    · split
      · next isReturn => exact isReturn ▸ .carriageReturn
      · split
        · next isMark =>
          rcases isMark with rfl | rfl | rfl
          · exact .backslash
          · exact .apostrophe
          · exact .quotationMark
        · next notNewline notTab notReturn notMark =>
          refine .unknown ?_
          simp only [List.mem_cons, List.not_mem_nil, or_false, not_or]
          exact ⟨notNewline, notTab, notReturn, not_or.1 notMark |>.imp_right not_or.1⟩

/-- An escape stands for one thing only. -/
theorem Escape.unescape_eq {char : Char} {meaning : List Char} (escape : Escape char meaning) :
    Literal.unescape char = meaning := by
  cases escape with
  | unknown isUnknown =>
      simp only [List.mem_cons, List.not_mem_nil, or_false, not_or] at isUnknown
      simp [Literal.unescape, isUnknown]
  | _ => rfl

variable {quote : Char} {body value text : List Char}

/-- What may stand between two quotes spells a value. -/
theorem Lexer.QuotedBody.exists_spells (isBody : QuotedBody quote body) :
    ∃ value, Spells quote body value := by
  induction isBody with
  | nil => exact ⟨[], .nil⟩
  | plain notBackslash notQuote _ ih =>
      rcases ih with ⟨value, spells⟩
      exact ⟨_, .plain notBackslash notQuote spells⟩
  | escaped char _ ih =>
      rcases ih with ⟨value, spells⟩
      exact ⟨_, .escaped (escape_unescape char) spells⟩

theorem Spells.quotedBody (spells : Spells quote body value) : Lexer.QuotedBody quote body := by
  induction spells with
  | nil => exact .nil
  | plain notBackslash notQuote _ ih => exact .plain notBackslash notQuote ih
  | escaped _ _ ih => exact .escaped _ ih

namespace Literal

/-- What is spelt is read, and the rest of the text after it. -/
theorem stringBody_append (spells : Spells quote body value) (after : List Char) :
    stringBody quote (body ++ after) = value ++ stringBody quote after := by
  induction spells with
  | nil => rfl
  | plain notBackslash notQuote _ ih =>
      rw [List.cons_append, stringBody.eq_def]
      dsimp only
      rw [if_neg notBackslash, if_neg notQuote, ih, List.cons_append]
  | escaped escape _ ih =>
      rw [List.cons_append, List.cons_append, stringBody.eq_def]
      dsimp only
      rw [if_pos rfl, ih, escape.unescape_eq, List.append_assoc]

/-- The value of a closed string is spelt by what stands between its quotes. -/
theorem stringValue_of_closed (isQuote : quote = '\'' ∨ quote = '"')
    (spells : Spells quote body value) : stringValue (quote :: (body ++ [quote])) = value := by
  have notBackslash : quote ≠ '\\' := by
    rcases isQuote with rfl | rfl <;> decide
  have ends : stringBody quote [quote] = [] := by
    rw [stringBody.eq_def]
    simp [notBackslash]
  rw [stringValue, if_pos isQuote, stringBody_append spells, ends, List.append_nil]

/-- The value of a string that is not closed is spelt by all of its text, of which a backslash at
the end is kept. -/
theorem stringValue_of_open (isQuote : quote = '\'' ∨ quote = '"')
    (spells : Spells quote body value) {rest : List Char} (isRest : rest = [] ∨ rest = ['\\']) :
    stringValue (quote :: (body ++ rest)) = value ++ rest := by
  have ends : stringBody quote rest = rest := by
    rcases isRest with rfl | rfl <;> rfl
  rw [stringValue, if_pos isQuote, stringBody_append spells, ends]

end Literal

/-- Where no closing quote is found, the text has none, and may end within an escape. -/
theorem Lexer.exists_quotedBody_of_stringLength? (notFound : stringLength? quote text = none) :
    ∃ body rest, QuotedBody quote body ∧ text = body ++ rest ∧ (rest = [] ∨ rest = ['\\']) := by
  fun_induction stringLength? quote text with
  | case1 => exact ⟨[], [], .nil, rfl, Or.inl rfl⟩
  | case2 => exact ⟨[], ['\\'], .nil, rfl, Or.inr rfl⟩
  | case3 char text ih =>
      rcases ih (Option.map_eq_none_iff.1 notFound) with ⟨body, rest, isBody, rfl, isRest⟩
      exact ⟨'\\' :: char :: body, rest, .escaped char isBody, rfl, isRest⟩
  | case4 => simp at notFound
  | case5 char text notBackslash notQuote ih =>
      rcases ih (Option.map_eq_none_iff.1 notFound) with ⟨body, rest, isBody, rfl, isRest⟩
      exact ⟨char :: body, rest, .plain notBackslash notQuote isBody, rfl, isRest⟩

end Stencil

import Mathlib
import Stencil.Lexer.Lexeme

/-!
# Quoted strings

A string that is closed has a quote at both ends, and between them no quote of the same sort that
is not escaped. The length that the lexer finds for a string is the length of the one closed string
at the start of the text, if there is one.
-/

namespace Stencil.Lexer

/-- The characters between the quotes of a string: a backslash takes the character after it with
it, and no other character is the quote. -/
inductive QuotedBody (quote : Char) : List Char → Prop where
  | nil : QuotedBody quote []
  | plain {char : Char} {text : List Char} (notBackslash : char ≠ '\\') (notQuote : char ≠ quote)
      (rest : QuotedBody quote text) : QuotedBody quote (char :: text)
  | escaped (char : Char) {text : List Char} (rest : QuotedBody quote text) :
      QuotedBody quote ('\\' :: char :: text)

/-- A text is a string with both of its quotes. -/
def IsQuoted (text : List Char) : Prop :=
  ∃ quote body, (quote = '\'' ∨ quote = '"') ∧ QuotedBody quote body ∧
    text = quote :: (body ++ [quote])

variable {quote : Char} {text : List Char} {length : Nat}

theorem stringLength?_eq_some (found : stringLength? quote text = some length) :
    ∃ body rest, QuotedBody quote body ∧ text = body ++ quote :: rest ∧
      length = body.length + 1 := by
  fun_induction stringLength? quote text generalizing length with
  | case1 => simp at found
  | case2 => simp at found
  | case3 char text ih =>
      rcases Option.map_eq_some_iff.1 found with ⟨fewer, foundLater, rfl⟩
      rcases ih foundLater with ⟨body, rest, isBody, rfl, rfl⟩
      exact ⟨'\\' :: char :: body, rest, .escaped char isBody, rfl, rfl⟩
  | case4 text notBackslash =>
      simp only [Option.some.injEq] at found
      exact ⟨[], text, .nil, rfl, by simp [← found]⟩
  | case5 char text notBackslash notQuote ih =>
      rcases Option.map_eq_some_iff.1 found with ⟨fewer, foundLater, rfl⟩
      rcases ih foundLater with ⟨body, rest, isBody, rfl, rfl⟩
      exact ⟨char :: body, rest, .plain notBackslash notQuote isBody, rfl, rfl⟩

theorem QuotedBody.stringLength?_append (isBody : QuotedBody quote text)
    (isQuote : quote ≠ '\\') (rest : List Char) :
    stringLength? quote (text ++ quote :: rest) = some (text.length + 1) := by
  induction isBody with
  | nil =>
      rw [List.nil_append, stringLength?.eq_def]
      simp [isQuote]
  | plain notBackslash notQuote _ ih =>
      rw [List.cons_append, stringLength?.eq_def]
      simp [notBackslash, notQuote, ih]
  | escaped char _ ih =>
      rw [List.cons_append, List.cons_append, stringLength?.eq_def]
      simp [ih]

/-- Where no length is found, the text from the quote on is no closed string. -/
theorem not_isQuoted_of_stringLength? (notFound : stringLength? quote text = none) :
    ¬IsQuoted (quote :: text) := by
  rintro ⟨quote', body, isQuote, isBody, same⟩
  rcases List.cons.inj same with ⟨rfl, rfl⟩
  have notBackslash : quote ≠ '\\' := by
    rcases isQuote with rfl | rfl <;> decide
  simp [isBody.stringLength?_append notBackslash []] at notFound

/-- The length that is found is that of a closed string. -/
theorem isQuoted_take_of_stringLength? (isQuote : quote = '\'' ∨ quote = '"')
    (found : stringLength? quote text = some length) :
    IsQuoted ((quote :: text).take (length + 1)) := by
  rcases stringLength?_eq_some found with ⟨body, rest, isBody, rfl, rfl⟩
  refine ⟨quote, body, isQuote, isBody, ?_⟩
  rw [List.take_succ_cons, List.take_append, List.take_of_length_le (by omega),
    Nat.add_sub_cancel_left]
  rfl

end Stencil.Lexer

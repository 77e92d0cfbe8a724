import Stencil.Proofs.Expr.Printing

/-!
# Literals that are read back

The value of a written string or integer is the value that was written. An escape stands for one
character, and no character of a written string is taken for the closing quote.
-/

namespace Stencil.Literal

/-! ### Strings -/

theorem stringBody_escape_append (char : Char) (text : List Char) :
    stringBody '"' (escape char ++ text) = char :: stringBody '"' text := by
  unfold escape
  split
  · next isNewline => simp [stringBody, unescape, isNewline]
  · split
    · next isTab => simp [stringBody, unescape, isTab]
    · split
      · next isReturn => simp [stringBody, unescape, isReturn]
      · split
        · next isMark =>
          rcases isMark with isMark | isMark <;> simp [stringBody, unescape, isMark]
        · next notMark =>
          rw [not_or] at notMark
          rw [List.singleton_append, stringBody.eq_def]
          dsimp only
          rw [if_neg notMark.1, if_neg notMark.2]

theorem stringBody_flatMap_escape (value : List Char) :
    stringBody '"' (value.flatMap escape ++ ['"']) = value := by
  induction value with
  | nil => rfl
  | cons char value ih =>
      rw [List.flatMap_cons, List.append_assoc, stringBody_escape_append, ih]

/-- A written string has the value that was written. -/
theorem stringValue_quote (value : String) :
    String.ofList (stringValue (quote value).toList) = value := by
  rw [quote, String.toList_ofList, List.cons_append, stringValue, if_pos (Or.inr rfl),
    stringBody_flatMap_escape, String.ofList_toList]

/-! ### Integers -/

theorem le_ofDigitChars (digits : List Char) (value : Nat) :
    value ≤ Nat.ofDigitChars 10 digits value := by
  rw [Nat.ofDigitChars_eq_ofDigitChars_zero]
  have := Nat.le_mul_of_pos_left value (Nat.pow_pos (n := digits.length) (show 0 < 10 by decide))
  omega

theorem readDigits_eq_ok {limit value : Nat} {overflow : Fault} {digits : List Char}
    (areDigits : ∀ char ∈ digits, char.isDigit = true)
    (fits : Nat.ofDigitChars 10 digits value ≤ limit) :
    readDigits limit overflow value digits = .ok (Nat.ofDigitChars 10 digits value) := by
  induction digits generalizing value with
  | nil => rfl
  | cons char digits ih =>
      have sameValue : value * 10 + digitValue char = 10 * value + (char.toNat - '0'.toNat) := by
        rw [Nat.mul_comm, digitValue]
      rw [Nat.ofDigitChars_cons, ← sameValue] at fits ⊢
      rw [readDigits, if_pos (areDigits char List.mem_cons_self)]
      dsimp only
      rw [if_neg (Nat.not_lt.2 (Nat.le_trans (le_ofDigitChars digits _) fits))]
      exact ih (fun char member => areDigits char (List.mem_cons_of_mem _ member)) fits

/-- Digits alone have no sign. -/
theorem readInteger_eq_of_digits {digits : List Char} (nonempty : digits ≠ [])
    (areDigits : ∀ char ∈ digits, char.isDigit = true) :
    readInteger digits = (readDigits maxInteger .tooLarge 0 digits).map Int.ofNat := by
  unfold readInteger
  split
  · exact absurd rfl nonempty
  · exact absurd (areDigits '+' (by simp)) (by decide)
  · exact absurd (areDigits '-' (by simp)) (by decide)
  · exact absurd (areDigits '-' (by simp)) (by decide)
  · exact absurd (areDigits '+' (by simp)) (by decide)
  · rfl

theorem isDigit_of_mem_decimal {value : Int} {char : Char}
    (member : char ∈ (decimal value).toList) : char.isDigit = true := by
  rw [decimal, String.toList_ofList] at member
  exact Nat.isDigit_of_mem_toDigits (by decide) (by decide) member

theorem decimal_ne_nil (value : Int) : (decimal value).toList ≠ [] := by
  rw [decimal, String.toList_ofList]
  exact Nat.toDigits_ne_nil

/-- A written integer has the value that was written. -/
theorem readInteger_decimal {value : Int} (notNegative : 0 ≤ value) (fits : value ≤ maxInteger) :
    readInteger (decimal value).toList = .ok value := by
  have sameValue : Nat.ofDigitChars 10 (decimal value).toList 0 = value.toNat := by
    rw [decimal, String.toList_ofList, Nat.ofDigitChars_ten_toDigits]
  rw [readInteger_eq_of_digits (decimal_ne_nil value) fun _ => isDigit_of_mem_decimal,
    readDigits_eq_ok (fun _ => isDigit_of_mem_decimal) (by rw [sameValue]; omega), sameValue]
  exact congrArg Except.ok (Int.toNat_of_nonneg notNegative)

end Stencil.Literal

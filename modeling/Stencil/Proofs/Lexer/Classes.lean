import Stencil.Proofs.Lexer.Adjacent

/-!
# Classes of lexemes

What a token inside a tag may look like is a property of its text: a word, a number, a mark, a run
of blanks or a string. The rules of the lexer find texts of these classes only, and of all of them
that a text begins with they take the longest. A fraction or an exponent without a digit is no part
of a number, so that nothing of it is taken.
-/

namespace Stencil.Lexer

/-- A text of digits, at least one of them. -/
def IsDigits (text : List Char) : Prop :=
  text ≠ [] ∧ ∀ char ∈ text, char.isDigit = true

/-- A text that is a point with digits after it. -/
def IsFraction (text : List Char) : Prop :=
  ∃ digits, IsDigits digits ∧ text = '.' :: digits

/-- A text that is the mark of an exponent, with a sign or without, and digits after it. -/
def IsExponent (text : List Char) : Prop :=
  ∃ mark sign digits, (mark = 'e' ∨ mark = 'E') ∧ (sign = [] ∨ sign = ['+'] ∨ sign = ['-']) ∧
    IsDigits digits ∧ text = mark :: (sign ++ digits)

/-- Digits, a fraction and an exponent, of which the last two may be missing. -/
structure IsNumeral (whole fraction exponent : List Char) : Prop where
  isWhole : IsDigits whole
  isFraction : fraction = [] ∨ IsFraction fraction
  isExponent : exponent = [] ∨ IsExponent exponent

/-- A text that is a number, with a fraction or an exponent or without. -/
def IsNumber (text : List Char) : Prop :=
  ∃ whole fraction exponent, IsNumeral whole fraction exponent ∧
    text = whole ++ (fraction ++ exponent)

/-- A text that is a number with a fraction or an exponent or both. -/
def IsFloat (text : List Char) : Prop :=
  ∃ whole fraction exponent, IsNumeral whole fraction exponent ∧
    (fraction ≠ [] ∨ exponent ≠ []) ∧ text = whole ++ (fraction ++ exponent)

/-- A text that is an operator or a punctuation mark. -/
def IsSymbol (text : List Char) : Prop :=
  ∃ kind, Token.Kind.ofSymbol? (String.ofList text) = some kind

/-- A text of blanks, at least one of them. -/
def IsBlanks (text : List Char) : Prop :=
  text ≠ [] ∧ ∀ char ∈ text, Text.isBlank char = true

/-- A text that is a string without its closing quote: after the last character that is not escaped
comes the end, or a backslash and the end. -/
def IsUnclosed (text : List Char) : Prop :=
  ∃ quote body rest, (quote = '\'' ∨ quote = '"') ∧ QuotedBody quote body ∧
    (rest = [] ∨ rest = ['\\']) ∧ text = quote :: (body ++ rest)

/-- No text of a class is got by adding to a text some of the characters that follow it. -/
def StopsBefore (isOfClass : List Char → Prop) (text after : List Char) : Prop :=
  ∀ more, more ≠ [] → more <+: after → ¬isOfClass (text ++ more)

variable {text after other : List Char}

/-- A text stops where no longer text of the class begins at the same place. -/
theorem stopsBefore_of_longest {isOfClass : List Char → Prop}
    (longest : ∀ other, isOfClass other → other <+: text ++ after → other.length ≤ text.length) :
    StopsBefore isOfClass text after := by
  intro more nonempty begins isOfClass
  have bound := longest _ isOfClass ((List.prefix_append_right_inj text).2 begins)
  have : 0 < more.length := List.length_pos_of_ne_nil nonempty
  rw [List.length_append] at bound
  omega

/-! ### Runs of characters -/

theorem length_le_takeWhile {keep : Char → Bool} (kept : ∀ char ∈ other, keep char = true)
    (begins : other <+: text) : other.length ≤ (text.takeWhile keep).length := by
  rcases begins with ⟨rest, rfl⟩
  rw [List.takeWhile_append_of_pos kept, List.length_append]
  omega

/-- The characters of one sort at the start of a text, and what follows them. -/
theorem exists_takeWhile (keep : Char → Bool) (text : List Char) : ∃ run after,
    text = run ++ after ∧ text.takeWhile keep = run ∧ ∀ char ∈ run, keep char = true :=
  ⟨text.takeWhile keep, text.dropWhile keep, List.takeWhile_append_dropWhile.symm, rfl,
    List.all_eq_true.1 List.all_takeWhile⟩

/-! ### Numbers -/

theorem IsDigits.length_le (isDigits : IsDigits text) (after : List Char) :
    text.length ≤ digitCount (text ++ after) :=
  length_le_takeWhile isDigits.2 (List.prefix_append text after)

theorem IsDigits.digitCount_ne_zero (isDigits : IsDigits text) (after : List Char) :
    digitCount (text ++ after) ≠ 0 := by
  have := isDigits.length_le after
  have := List.length_pos_of_ne_nil isDigits.1
  omega

theorem IsFraction.length_le (isFraction : IsFraction text) (after : List Char) :
    text.length ≤ fractionLength (text ++ after) := by
  rcases isFraction with ⟨digits, isDigits, rfl⟩
  rw [List.cons_append, fractionLength, if_neg (isDigits.digitCount_ne_zero after)]
  exact Nat.succ_le_succ (isDigits.length_le after)

theorem IsFraction.length_eq (isFraction : IsFraction text)
    (ends : ∀ char ∈ after.head?, char.isDigit = false) :
    fractionLength (text ++ after) = text.length := by
  rcases isFraction with ⟨digits, isDigits, rfl⟩
  rw [List.cons_append, fractionLength, if_neg (isDigits.digitCount_ne_zero after),
    digitCount_append isDigits.2 ends, List.length_cons]

theorem length_le_exponentDigits {sign digits : List Char}
    (isSign : sign = [] ∨ sign = ['+'] ∨ sign = ['-']) (isDigits : IsDigits digits)
    (after : List Char) :
    (sign ++ digits).length ≤ exponentDigits (sign ++ digits ++ after) := by
  have bound := isDigits.length_le after
  have hasDigit := isDigits.digitCount_ne_zero after
  rcases isSign with rfl | rfl | rfl
  · rcases List.exists_cons_of_ne_nil isDigits.1 with ⟨char, rest, rfl⟩
    have isDigit := isDigits.2 char List.mem_cons_self
    rw [List.nil_append, exponentDigits]
    · exact bound
    · rintro _ ⟨⟩
      exact absurd isDigit (by decide)
    · rintro _ ⟨⟩
      exact absurd isDigit (by decide)
  · rw [List.append_assoc, List.singleton_append, List.singleton_append, exponentDigits,
      if_neg hasDigit]
    exact Nat.succ_le_succ bound
  · rw [List.append_assoc, List.singleton_append, List.singleton_append, exponentDigits,
      if_neg hasDigit]
    exact Nat.succ_le_succ bound

theorem exponentLength_cons {mark : Char} (isMark : mark = 'e' ∨ mark = 'E') (text : List Char) :
    exponentLength (mark :: text) =
      if exponentDigits text = 0 then 0 else exponentDigits text + 1 := by
  rcases isMark with rfl | rfl <;> rfl

theorem IsExponent.length_le (isExponent : IsExponent text) (after : List Char) :
    text.length ≤ exponentLength (text ++ after) := by
  rcases isExponent with ⟨mark, sign, digits, isMark, isSign, isDigits, rfl⟩
  have bound := length_le_exponentDigits isSign isDigits after
  have hasDigit : exponentDigits (sign ++ digits ++ after) ≠ 0 := by
    have := List.length_pos_of_ne_nil isDigits.1
    rw [List.length_append] at bound
    omega
  rw [List.cons_append, exponentLength_cons isMark, if_neg hasDigit]
  exact Nat.succ_le_succ bound

/-- An exponent begins with a letter, and so ends the digits and the point before it. -/
theorem IsExponent.ends (isExponent : IsExponent text) (after : List Char) :
    ∀ char ∈ (text ++ after).head?, char.isDigit = false ∧ char ≠ '.' := by
  rcases isExponent with ⟨mark, sign, digits, isMark, -, -, rfl⟩
  rintro _ ⟨⟩
  rcases isMark with rfl | rfl <;> decide

theorem IsFraction.ends (isFraction : IsFraction text) (after : List Char) :
    ∀ char ∈ (text ++ after).head?, char.isDigit = false := by
  rcases isFraction with ⟨digits, -, rfl⟩
  rintro _ ⟨⟩
  rfl

/-- The number that is found is no shorter than one that the text begins with. -/
theorem IsNumeral.length_le {whole fraction exponent : List Char}
    (isNumeral : IsNumeral whole fraction exponent) (after : List Char) :
    (whole ++ (fraction ++ exponent)).length ≤
      (number (whole ++ (fraction ++ exponent) ++ after)).2 := by
  rcases isNumeral with ⟨isWhole, isFraction, isExponent⟩
  have exactWhole {rest : List Char} (ends : ∀ char ∈ rest.head?, char.isDigit = false) :
      digitCount (whole ++ rest) = whole.length := digitCount_append isWhole.2 ends
  simp only [number, List.append_assoc, List.length_append]
  rcases isFraction with rfl | isFraction
  · rcases isExponent with rfl | isExponent
    · have := isWhole.length_le after
      simp only [List.nil_append, List.length_nil]
      omega
    · have ends := isExponent.ends after
      have noFraction := fractionLength_eq_zero fun char isFirst => (ends char isFirst).2
      have bound := isExponent.length_le after
      simp only [List.nil_append, List.length_nil, exactWhole fun char isFirst =>
        (ends char isFirst).1, List.drop_left, noFraction, Nat.add_zero]
      omega
  · simp only [exactWhole (isFraction.ends (exponent ++ after)), List.drop_left]
    rcases isExponent with rfl | isExponent
    · have := isFraction.length_le after
      simp only [List.nil_append, List.length_nil]
      omega
    · have exactFraction := isFraction.length_eq fun char isFirst =>
        (isExponent.ends after char isFirst).1
      have bound := isExponent.length_le after
      rw [exactFraction, ← List.drop_drop, List.drop_left, List.drop_left]
      omega

/-- The digits at the start of a text, if there are digits. -/
theorem exists_digits (hasDigit : digitCount text ≠ 0) : ∃ digits after,
    text = digits ++ after ∧ IsDigits digits ∧ digitCount text = digits.length := by
  rcases exists_takeWhile Char.isDigit text with ⟨digits, after, rfl, found, areDigits⟩
  have sameCount : digitCount (digits ++ after) = digits.length := by rw [digitCount, found]
  refine ⟨digits, after, rfl, ⟨?_, areDigits⟩, sameCount⟩
  rintro rfl
  exact hasDigit sameCount

/-- The fraction at the start of a text, if there is one. -/
theorem exists_fraction (text : List Char) : ∃ fraction after, text = fraction ++ after ∧
    (fraction = [] ∨ IsFraction fraction) ∧ fractionLength text = fraction.length := by
  unfold fractionLength
  split
  · next text =>
    split
    · exact ⟨[], _, rfl, Or.inl rfl, rfl⟩
    · next hasDigit =>
      rcases exists_digits hasDigit with ⟨digits, after, rfl, isDigits, sameCount⟩
      exact ⟨'.' :: digits, after, rfl, Or.inr ⟨digits, isDigits, rfl⟩, by rw [sameCount]; rfl⟩
  · exact ⟨[], text, rfl, Or.inl rfl, rfl⟩

/-- The sign and the digits of an exponent, if there are digits. -/
theorem exists_exponentDigits (hasDigit : exponentDigits text ≠ 0) : ∃ sign digits after,
    text = sign ++ digits ++ after ∧ (sign = [] ∨ sign = ['+'] ∨ sign = ['-']) ∧
    IsDigits digits ∧ exponentDigits text = (sign ++ digits).length := by
  have signed {sign : Char} (isSign : [sign] = ['+'] ∨ [sign] = ['-']) (text : List Char)
      (hasDigit : (if digitCount text = 0 then 0 else digitCount text + 1) ≠ 0) :
      ∃ sign' digits after, sign :: text = sign' ++ digits ++ after ∧
        (sign' = [] ∨ sign' = ['+'] ∨ sign' = ['-']) ∧ IsDigits digits ∧
        (if digitCount text = 0 then 0 else digitCount text + 1) = (sign' ++ digits).length := by
    have notZero : digitCount text ≠ 0 := fun none => hasDigit (if_pos none)
    rcases exists_digits notZero with ⟨digits, after, rfl, isDigits, sameCount⟩
    rw [if_neg notZero, sameCount]
    exact ⟨[sign], digits, after, rfl, Or.inr isSign, isDigits, rfl⟩
  revert hasDigit
  unfold exponentDigits
  split
  · exact signed (Or.inl rfl) _
  · exact signed (Or.inr rfl) _
  · intro hasDigit
    rcases exists_digits hasDigit with ⟨digits, after, rfl, isDigits, sameCount⟩
    exact ⟨[], digits, after, rfl, Or.inl rfl, isDigits, sameCount⟩

/-- The exponent at the start of a text, if there is one. -/
theorem exists_exponent (text : List Char) : ∃ exponent after, text = exponent ++ after ∧
    (exponent = [] ∨ IsExponent exponent) ∧ exponentLength text = exponent.length := by
  cases text with
  | nil => exact ⟨[], [], rfl, Or.inl rfl, rfl⟩
  | cons char text =>
      by_cases isMark : char = 'e' ∨ char = 'E'
      · rw [exponentLength_cons isMark]
        split
        · exact ⟨[], _, rfl, Or.inl rfl, rfl⟩
        · next hasDigit =>
          rcases exists_exponentDigits hasDigit with
            ⟨sign, digits, after, rfl, isSign, isDigits, sameCount⟩
          exact ⟨char :: (sign ++ digits), after, rfl,
            Or.inr ⟨char, sign, digits, isMark, isSign, isDigits, rfl⟩, by rw [sameCount]; rfl⟩
      · refine ⟨[], char :: text, rfl, Or.inl rfl, exponentLength_eq_zero ?_⟩
        rintro _ ⟨⟩
        simpa using isMark

/-- What is taken for a number is one, and its kind says whether it is more than digits. -/
theorem exists_numeral {char : Char} (isDigit : char.isDigit = true) (text : List Char) :
    ∃ whole fraction exponent after, char :: text = whole ++ (fraction ++ exponent) ++ after ∧
      IsNumeral whole fraction exponent ∧
      number (char :: text) = (if fraction = [] ∧ exponent = [] then .integer else .float,
        (whole ++ (fraction ++ exponent)).length) := by
  have hasDigit : digitCount (char :: text) ≠ 0 := by simp [digitCount, isDigit]
  rcases exists_digits hasDigit with ⟨whole, rest, shows, isWhole, sameWhole⟩
  rcases exists_fraction rest with ⟨fraction, rest, rfl, isFraction, sameFraction⟩
  rcases exists_exponent rest with ⟨exponent, after, rfl, isExponent, sameExponent⟩
  refine ⟨whole, fraction, exponent, after, by rw [shows]; simp only [List.append_assoc],
    ⟨isWhole, isFraction, isExponent⟩, ?_⟩
  have afterFraction : (char :: text).drop (whole.length + fraction.length) =
      exponent ++ after := by
    rw [shows, ← List.drop_drop, List.drop_left, List.drop_left]
  simp only [number, sameWhole, show (char :: text).drop whole.length =
    fraction ++ (exponent ++ after) by rw [shows, List.drop_left], sameFraction, afterFraction,
    sameExponent, List.length_eq_zero_iff, List.length_append, Nat.add_assoc]

/-! ### Marks -/

theorem length_le_two_of_isSymbol (isSymbol : IsSymbol text) : text.length ≤ 2 := by
  have short : ∀ entry ∈ Token.Kind.symbols, entry.1.toList.length ≤ 2 := by decide
  rcases isSymbol with ⟨kind, found⟩
  rcases Option.map_eq_some_iff.1 found with ⟨entry, listed, -⟩
  have same : entry.1 = String.ofList text := by simpa using List.find?_some listed
  simpa [same] using short entry (List.mem_of_find?_eq_some listed)

/-- What is taken for a mark is one, and no longer one begins at the same place. -/
theorem exists_symbol {kind : Token.Kind} {length : Nat}
    (found : symbol? text = some (kind, length)) : ∃ mark after, text = mark ++ after ∧
      length = mark.length ∧ Token.Kind.ofSymbol? (String.ofList mark) = some kind ∧
      StopsBefore IsSymbol mark after := by
  unfold symbol? at found
  split at found
  · next isKind =>
    cases found
    refine ⟨text.take 2, text.drop 2, (List.take_append_drop 2 text).symm, rfl, isKind,
      stopsBefore_of_longest fun other isSymbol begins => ?_⟩
    rw [List.take_append_drop] at begins
    have := length_le_two_of_isSymbol isSymbol
    have := begins.length_le
    rw [List.length_take]
    omega
  · next notLonger =>
    rcases Option.map_eq_some_iff.1 found with ⟨_, isKind, same⟩
    cases same
    have single : (text.take 1).length = 1 := by
      cases text with
      | nil =>
          have notKind : Token.Kind.ofSymbol? (String.ofList []) = none := by decide
          rw [List.take_nil, notKind] at isKind
          cases isKind
      | cons char text => simp
    refine ⟨text.take 1, text.drop 1, (List.take_append_drop 1 text).symm, single.symm, isKind,
      stopsBefore_of_longest fun other isSymbol begins => ?_⟩
    rw [List.take_append_drop] at begins
    have := length_le_two_of_isSymbol isSymbol
    by_contra longer
    have isPair : other = text.take 2 := by
      rw [List.prefix_iff_eq_take.1 begins]
      congr 1
      omega
    rcases isSymbol with ⟨_, isSymbol⟩
    rw [isPair, notLonger] at isSymbol
    cases isSymbol

end Stencil.Lexer

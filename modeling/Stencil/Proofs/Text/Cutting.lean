import Mathlib
import Stencil.Source.Position
import Stencil.Text.Blank

/-!
# Cuts and positions

What the prefix tests and searches on texts find, said by concatenation: a text begins with another
one if it is that one followed by a rest. Positions move over concatenated texts one after the
other, and their offsets count the bytes that they have moved over. A slice by byte offsets
therefore gives back the middle of a text that is written as three parts.
-/

namespace Stencil

namespace Text

theorem dropStart?_eq_some_iff {start text rest : List Char} :
    dropStart? start text = some rest ↔ text = start ++ rest := by
  induction start generalizing text with
  | nil => simp [dropStart?]
  | cons expected start ih =>
      cases text with
      | nil => simp [dropStart?]
      | cons char text =>
          simp only [dropStart?, List.cons_append, List.cons.injEq]
          split
          · next same => simp [ih, same]
          · next different =>
            simp only [reduceCtorEq, false_iff, not_and]
            intro same
            exact absurd same.symm different

theorem startsWith_iff {start text : List Char} :
    startsWith start text = true ↔ start <+: text := by
  simp only [startsWith, Option.isSome_iff_exists, dropStart?_eq_some_iff]
  constructor
  · rintro ⟨rest, rfl⟩
    exact List.prefix_append _ _
  · rintro ⟨rest, rfl⟩
    exact ⟨rest, rfl⟩

/-- What a search finds is preceded by as many characters as it says. -/
theorem find?_eq_some {needle text : List Char} {count : Nat}
    (found : find? needle text = some count) :
    ∃ before rest, text = before ++ (needle ++ rest) ∧ before.length = count := by
  induction text generalizing count with
  | nil =>
      simp only [find?, List.isEmpty_iff] at found
      split at found
      · next empty =>
        simp only [Option.some.injEq] at found
        exact ⟨[], [], by simp [empty], by simpa using found⟩
      · simp at found
  | cons char text ih =>
      simp only [find?] at found
      split at found
      · next starts =>
        rcases startsWith_iff.1 starts with ⟨rest, sameText⟩
        simp only [Option.some.injEq] at found
        exact ⟨[], rest, by simp [sameText], by simpa using found⟩
      · rcases Option.map_eq_some_iff.1 found with ⟨fewer, foundLater, rfl⟩
        rcases ih foundLater with ⟨before, rest, sameText, sameLength⟩
        exact ⟨char :: before, rest, by simp [sameText], by simp [sameLength]⟩

/-- What is trimmed from the end of a text is blank. -/
theorem exists_trimEnd_append (text : List Char) :
    ∃ blanks, text = trimEnd text ++ blanks ∧ blanks.all isBlank = true := by
  refine ⟨(text.reverse.takeWhile isBlank).reverse, ?_, ?_⟩
  · rw [trimEnd, dropEndWhile, ← List.reverse_append, List.takeWhile_append_dropWhile,
      List.reverse_reverse]
  · rw [List.all_reverse]
    exact List.all_takeWhile

theorem drop_length_takeWhile (keep : Char → Bool) (text : List Char) :
    text.drop (text.takeWhile keep).length = text.dropWhile keep := by
  induction text with
  | nil => rfl
  | cons char text ih => by_cases kept : keep char <;> simp [kept, ih]

theorem drop_blankLength (text : List Char) :
    text.drop (blankLength text) = text.dropWhile isBlank :=
  drop_length_takeWhile isBlank text

/-- The number of bytes of a text. -/
def byteLength (text : List Char) : Nat :=
  (text.map Char.utf8Size).sum

@[simp]
theorem byteLength_nil : byteLength [] = 0 := rfl

@[simp]
theorem byteLength_cons (char : Char) (text : List Char) :
    byteLength (char :: text) = char.utf8Size + byteLength text := by
  simp [byteLength]

@[simp]
theorem byteLength_append (first second : List Char) :
    byteLength (first ++ second) = byteLength first + byteLength second := by
  simp [byteLength]

theorem byteLength_pos {text : List Char} (nonempty : text ≠ []) : 0 < byteLength text := by
  cases text with
  | nil => exact absurd rfl nonempty
  | cons char text =>
      have := Char.utf8Size_pos char
      simp only [byteLength_cons]
      omega

/-- A longer piece of a text has more bytes. -/
theorem byteLength_take_lt {text : List Char} {first second : Nat} (longer : first < second)
    (inside : second ≤ text.length) :
    byteLength (text.take first) < byteLength (text.take second) := by
  have nonempty : (text.take second).drop first ≠ [] := by
    rw [← List.length_pos_iff, List.length_drop, List.length_take_of_le inside]
    omega
  have split := List.take_append_drop first (text.take second)
  rw [List.take_take, Nat.min_eq_left (Nat.le_of_lt longer)] at split
  rw [← split, byteLength_append]
  have := byteLength_pos nonempty
  omega

theorem byteLength_eq_utf8ByteSize (text : List Char) :
    byteLength text = (String.ofList text).utf8ByteSize := by
  induction text with
  | nil => rfl
  | cons char text ih => simp [ih, String.ofList_cons, String.utf8ByteSize_append]

theorem dropBytes?_append (first second : List Char) :
    dropBytes? (byteLength first) (first ++ second) = some second := by
  induction first with
  | nil => simp [dropBytes?]
  | cons char first ih =>
      obtain ⟨size, sameSize⟩ : ∃ size, char.utf8Size = size + 1 :=
        Nat.exists_eq_add_one.2 (Char.utf8Size_pos char)
      simp only [byteLength_cons, List.cons_append]
      rw [sameSize, Nat.add_right_comm, dropBytes?, if_pos (by omega)]
      rw [show size + byteLength first + 1 - char.utf8Size = byteLength first by omega]
      exact ih

theorem takeBytes?_append (first second : List Char) :
    takeBytes? (byteLength first) (first ++ second) = some first := by
  induction first with
  | nil => simp [takeBytes?]
  | cons char first ih =>
      obtain ⟨size, sameSize⟩ : ∃ size, char.utf8Size = size + 1 :=
        Nat.exists_eq_add_one.2 (Char.utf8Size_pos char)
      simp only [byteLength_cons, List.cons_append]
      rw [sameSize, Nat.add_right_comm, takeBytes?, if_pos (by omega)]
      rw [show size + byteLength first + 1 - char.utf8Size = byteLength first by omega, ih]
      rfl

/-- The slice between two places of a text is what stands between them. -/
theorem slice?_append (before middle after : List Char) :
    slice? (before ++ (middle ++ after)) (byteLength before)
      (byteLength before + byteLength middle) = some middle := by
  simp only [slice?, dropBytes?_append, Option.bind_eq_bind, Option.bind_some]
  rw [if_pos (by omega), Nat.add_sub_cancel_left]
  exact takeBytes?_append _ _

end Text

namespace Position

@[simp]
theorem advanceOver_nil (position : Position) : position.advanceOver [] = position := rfl

@[simp]
theorem advanceOver_append (position : Position) (first second : List Char) :
    position.advanceOver (first ++ second) =
      (position.advanceOver first).advanceOver second := by
  simp [advanceOver]

theorem offset_advance (position : Position) (char : Char) :
    (position.advance char).offset = position.offset + char.utf8Size := by
  simp only [advance]
  split
  · next newline => subst newline; rfl
  · rfl

theorem offset_advanceOver (position : Position) (text : List Char) :
    (position.advanceOver text).offset = position.offset + Text.byteLength text := by
  induction text generalizing position with
  | nil => rfl
  | cons char text ih =>
      have moved : position.advanceOver (char :: text) = (position.advance char).advanceOver text :=
        rfl
      rw [moved, ih, offset_advance, Text.byteLength_cons, Nat.add_assoc]

@[simp]
theorem offset_start_advanceOver (text : List Char) :
    (start.advanceOver text).offset = Text.byteLength text := by
  rw [offset_advanceOver]
  exact Nat.zero_add _

end Position

end Stencil

import Stencil.Profiles
import Stencil.Proofs.Lexer.Origins
import Stencil.Proofs.Lexer.Regions
import Stencil.Source.LineIndex

/-!
# Lines and positions

An index of lines and a walk over the characters of a text tell the same of it. The index has a
table of the byte offsets at which lines start, which is increasing, so that a binary search finds
there the last line that has started at an offset: what the walk counts. The lines that the index
gives, joined again, are the text without the carriage returns at the ends of its lines.

A text is taken apart in two ways: into the lines before a place and what stands before the place on
its own line, and into its first line and the rest.
-/

namespace Stencil

/-! ### Lines of a text -/

namespace Text

/-- The line that a text ends with, and the lines before it. -/
theorem exists_last_line (text : List Char) : ∃ lines line, text = lines ++ line ∧
    '\n' ∉ line ∧ (lines = [] ∨ lines.getLast? = some '\n') := by
  induction text using List.reverseRecOn with
  | nil => exact ⟨[], [], rfl, List.not_mem_nil, Or.inl rfl⟩
  | append_singleton text char ih =>
      rcases ih with ⟨lines, line, rfl, noBreak, ends⟩
      by_cases isBreak : char = '\n'
      · subst isBreak
        exact ⟨lines ++ line ++ ['\n'], [], by simp, List.not_mem_nil, Or.inr (by simp)⟩
      · refine ⟨lines, line ++ [char], by simp, ?_, ends⟩
        simp [noBreak, Ne.symm isBreak]

/-- A text is a single line, or a line with a line break and a further text after it. -/
theorem single_or_exists_first_line (text : List Char) :
    '\n' ∉ text ∨ ∃ line rest, text = line ++ '\n' :: rest ∧ '\n' ∉ line := by
  by_cases hasBreak : '\n' ∈ text
  · exact Or.inr (List.eq_append_cons_of_mem hasBreak)
  · exact Or.inl hasBreak

/-- What holds of single lines, and of a line before a text of which it holds, holds of every
text. -/
theorem lines_induction {motive : List Char → Prop}
    (single : ∀ line, '\n' ∉ line → motive line)
    (before : ∀ line rest, '\n' ∉ line → motive rest → motive (line ++ '\n' :: rest))
    (text : List Char) : motive text := by
  induction size : text.length using Nat.strong_induction_on generalizing text with
  | _ length ih =>
      rcases single_or_exists_first_line text with noBreak | ⟨line, rest, rfl, noBreak⟩
      · exact single text noBreak
      · refine before line rest noBreak (ih rest.length ?_ rest rfl)
        rw [← size, List.length_append, List.length_cons]
        omega

/-- A text without the carriage returns that stand directly before a line break or at its end,
however many of them stand there. -/
def withoutReturns : List Char → List Char
  | [] => []
  | char :: text =>
    if char = '\r' ∧ (text.dropWhile (· = '\r')).head?.all (· = '\n') then withoutReturns text
    else char :: withoutReturns text

/-- What is dropped from the end of a text is all of one sort, and what is kept does not end with
it. -/
theorem exists_dropEndWhile_append (drop : Char → Bool) (text : List Char) :
    ∃ dropped, text = dropEndWhile drop text ++ dropped ∧ (∀ char ∈ dropped, drop char = true) ∧
      ∀ char ∈ (dropEndWhile drop text).getLast?, drop char = false := by
  refine ⟨(text.reverse.takeWhile drop).reverse, ?_, ?_, ?_⟩
  · rw [dropEndWhile, ← List.reverse_append, List.takeWhile_append_dropWhile,
      List.reverse_reverse]
  · intro char isDropped
    exact List.mem_takeWhile_imp (List.mem_reverse.1 isDropped)
  · intro char isLast
    rw [dropEndWhile, List.getLast?_reverse] at isLast
    have notDropped := List.head?_dropWhile_not drop text.reverse
    rwa [isLast] at notDropped

/-- Carriage returns at the end of a line are left out. -/
theorem withoutReturns_append_of_all {returns rest : List Char}
    (areReturns : ∀ char ∈ returns, char = '\r') (ends : rest.head?.all (· = '\n') = true) :
    withoutReturns (returns ++ rest) = withoutReturns rest := by
  induction returns with
  | nil => rfl
  | cons char returns ih =>
      simp only [List.forall_mem_cons] at areReturns
      have afterReturns : (returns ++ rest).dropWhile (· = '\r') = rest := by
        rw [List.dropWhile_append_of_pos (by simpa using areReturns.2)]
        cases rest with
        | nil => rfl
        | cons first rest =>
            have isBreak : first = '\n' := by simpa using ends
            simp [isBreak]
      rw [List.cons_append, withoutReturns, afterReturns, if_pos ⟨areReturns.1, ends⟩,
        ih areReturns.2]

/-- After the carriage returns that a piece of a line begins with comes another character of the
piece, if it does not end with one. -/
theorem head?_dropWhile_of_kept {kept rest : List Char} (nonempty : kept ≠ [])
    (noBreak : '\n' ∉ kept) (ends : kept.getLast? ≠ some '\r') :
    ((kept ++ rest).dropWhile (· = '\r')).head?.all (· = '\n') = false := by
  induction kept with
  | nil => exact absurd rfl nonempty
  | cons char kept ih =>
      simp only [List.mem_cons, not_or] at noBreak
      by_cases isReturn : char = '\r'
      · subst isReturn
        cases kept with
        | nil => simp at ends
        | cons next kept => simpa using ih (by simp) noBreak.2 (by simpa using ends)
      · simp [isReturn, Ne.symm noBreak.1]

/-- Whatever comes after it, a piece of a line that ends with another character stays. -/
theorem withoutReturns_append_of_kept {kept rest : List Char} (noBreak : '\n' ∉ kept)
    (ends : kept.getLast? ≠ some '\r') :
    withoutReturns (kept ++ rest) = kept ++ withoutReturns rest := by
  induction kept with
  | nil => rfl
  | cons char kept ih =>
      simp only [List.mem_cons, not_or] at noBreak
      cases kept with
      | nil =>
          have notReturn : char ≠ '\r' := by simpa using ends
          simp [withoutReturns, notReturn]
      | cons next kept =>
          rw [List.getLast?_cons_cons] at ends
          rw [List.cons_append, withoutReturns,
            head?_dropWhile_of_kept (List.cons_ne_nil _ _) noBreak.2 ends, if_neg (by simp),
            ih noBreak.2 ends]
          rfl

/-- A line loses the carriage returns at its end. -/
theorem withoutReturns_append {line : List Char} (noBreak : '\n' ∉ line) (rest : List Char)
    (ends : rest.head?.all (· = '\n') = true) :
    withoutReturns (line ++ rest) = dropEndWhile (· = '\r') line ++ withoutReturns rest := by
  rcases exists_dropEndWhile_append (· = '\r') line with ⟨returns, sameLine, areReturns, last⟩
  have noBreakKept : '\n' ∉ dropEndWhile (· = '\r') line := by
    intro isBreak
    exact noBreak (sameLine ▸ List.mem_append_left returns isBreak)
  conv_lhs => rw [sameLine, List.append_assoc]
  have endsKept : (dropEndWhile (· = '\r') line).getLast? ≠ some '\r' := by
    intro isLast
    simpa using last '\r' isLast
  rw [withoutReturns_append_of_kept noBreakKept endsKept,
    withoutReturns_append_of_all (by simpa using areReturns) ends]

end Text

/-- A walk that passes over no line break counts characters. -/
theorem Position.column_advanceOver_of_noBreak (position : Position) {line : List Char}
    (noBreak : '\n' ∉ line) :
    (position.advanceOver line).column = position.column + line.length := by
  induction line generalizing position with
  | nil => rfl
  | cons char line ih =>
      simp only [List.mem_cons, not_or] at noBreak
      have moved : position.advanceOver (char :: line) = (position.advance char).advanceOver line :=
        rfl
      rw [moved, ih _ noBreak.2, advance, if_neg (Ne.symm noBreak.1), List.length_cons,
        Nat.add_right_comm, Nat.add_assoc]

/-! ### The table of an index -/

namespace LineIndex

open Text

theorem startsFrom_append (offset : Nat) (first second : List Char) :
    startsFrom offset (first ++ second) =
      startsFrom offset first ++ startsFrom (offset + byteLength first) second := by
  induction first generalizing offset with
  | nil => rfl
  | cons char first ih =>
      by_cases isBreak : char = '\n'
      · have oneByte : ('\n').utf8Size = 1 := rfl
        simp [startsFrom, isBreak, ih, oneByte, Nat.add_assoc]
      · simp [startsFrom, isBreak, ih, Nat.add_assoc]

theorem startsFrom_of_noBreak {line : List Char} (noBreak : '\n' ∉ line) (offset : Nat) :
    startsFrom offset line = [] := by
  induction line generalizing offset with
  | nil => rfl
  | cons char line ih =>
      simp only [List.mem_cons, not_or] at noBreak
      rw [startsFrom, if_neg (Ne.symm noBreak.1), ih noBreak.2]

theorem startsFrom_snoc_break (offset : Nat) (lines : List Char) :
    startsFrom offset (lines ++ ['\n']) =
      startsFrom offset lines ++ [offset + byteLength lines + 1] := by
  rw [startsFrom_append]
  rfl

theorem length_startsFrom (offset : Nat) (text : List Char) :
    (startsFrom offset text).length = text.count '\n' := by
  induction text generalizing offset with
  | nil => rfl
  | cons char text ih =>
      by_cases isBreak : char = '\n'
      · simp [startsFrom, isBreak, ih]
      · simp [startsFrom, isBreak, ih]

/-- Lines start inside of the text, behind the place from which on they are counted. -/
theorem mem_startsFrom {offset start : Nat} {text : List Char}
    (isStart : start ∈ startsFrom offset text) :
    offset < start ∧ start ≤ offset + byteLength text := by
  induction text generalizing offset with
  | nil => simp [startsFrom] at isStart
  | cons char text ih =>
      have nonempty := Char.utf8Size_pos char
      rw [byteLength_cons]
      rw [startsFrom] at isStart
      split at isStart
      · next isBreak =>
        have oneByte : char.utf8Size = 1 := isBreak ▸ rfl
        rcases List.mem_cons.1 isStart with rfl | isLater
        · omega
        · have := ih isLater
          omega
      · have := ih isStart
        omega

theorem pairwise_startsFrom (offset : Nat) (text : List Char) :
    (startsFrom offset text).Pairwise (· < ·) := by
  induction text generalizing offset with
  | nil => exact .nil
  | cons char text ih =>
      rw [startsFrom]
      split
      · exact .cons (fun _ isLater => (mem_startsFrom isLater).1) (ih _)
      · exact ih _

variable (index : LineIndex)

/-- The table can be searched: it is increasing. -/
theorem pairwise_starts : index.starts.Pairwise (· < ·) :=
  .cons (fun _ isLater => (mem_startsFrom isLater).1) (pairwise_startsFrom _ _)

/-- Each line break of the source starts a line. -/
theorem lineCount_eq :
    index.lineCount = (Position.start.advanceOver index.source).line := by
  rw [lineCount, starts, List.length_cons, length_startsFrom, Position.line_advanceOver,
    Nat.add_comm]
  rfl

/-- What a search of a table may tell. -/
inductive Tells (table : Array Nat) (sought : Nat) : Except Nat Nat → Prop where
  | found {place : Nat} (inside : place < table.size) (isThere : table[place] = sought) :
      Tells table sought (.ok place)
  | missing {place : Nat} (inside : place ≤ table.size)
      (below : ∀ other, (inside : other < table.size) → other < place → table[other] < sought)
      (above : ∀ other, (inside : other < table.size) → place ≤ other → sought < table[other]) :
      Tells table sought (.error place)

/-- What is left of a table in a search has all that is below the sought number before it, and all
that is above it behind. -/
theorem tells_search {table : Array Nat} (increasing : table.Pairwise (· < ·))
    {sought low high : Nat} (inside : high ≤ table.size) (inOrder : low ≤ high)
    (below : ∀ other, (inside : other < table.size) → other < low → table[other] < sought)
    (above : ∀ other, (inside : other < table.size) → high ≤ other → sought < table[other]) :
    Tells table sought (search table sought low high inside) := by
  rw [Array.pairwise_iff_getElem] at increasing
  fun_induction search table sought low high inside with
  | case1 low high inside nonempty middle bound isThere => exact .found bound isThere
  | case2 low high inside nonempty middle bound notThere isBelow ih =>
      refine ih (by omega) (fun other isInside before => ?_) above
      rcases Nat.lt_or_eq_of_le (Nat.le_of_lt_succ before) with isBefore | rfl
      · exact Nat.lt_trans (increasing other middle isInside bound isBefore) isBelow
      · exact isBelow
  | case3 low high inside nonempty middle bound notThere notBelow ih =>
      have isAbove : sought < table[middle] := by omega
      refine ih (by omega) below fun other isInside further => ?_
      rcases Nat.lt_or_eq_of_le further with isFurther | rfl
      · exact Nat.lt_trans isAbove (increasing middle other bound isInside isFurther)
      · exact isAbove
  | case4 low high inside isEmpty =>
      obtain rfl : low = high := by omega
      exact .missing inside below above

/-- The search finds the last line that starts at an offset or before it. The first line starts at
zero, so that there is a line before each place at which an offset is missing. -/
theorem lineAt_spec (offset : Nat) : ∃ inside : index.lineAt offset < index.starts.length,
    index.starts[index.lineAt offset] ≤ offset ∧
    ∀ other, (inside : other < index.starts.length) → index.lineAt offset < other →
      offset < index.starts[other] := by
  have increasing := index.pairwise_starts
  have tells : Tells index.starts.toArray offset _ :=
    @tells_search index.starts.toArray increasing offset _ _ (Nat.le_refl _) (Nat.zero_le _)
      (fun _ _ before => absurd before (Nat.not_lt_zero _))
      (fun _ inside further => absurd inside (Nat.not_lt.2 further))
  rw [List.pairwise_iff_getElem] at increasing
  suffices spec : ∃ line, index.lineAt offset = line ∧ ∃ inside : line < index.starts.length,
      index.starts[line] ≤ offset ∧ ∀ other, (inside : other < index.starts.length) →
        line < other → offset < index.starts[other] by
    rcases spec with ⟨line, rfl, spec⟩
    exact spec
  unfold lineAt
  generalize search _ _ _ _ _ = outcome at tells
  cases tells with
  | @found line inside isThere =>
      refine ⟨line, rfl, inside, Nat.le_of_eq isThere, fun other isInside further => ?_⟩
      exact isThere ▸ increasing line other inside isInside further
  | @missing place inside below above =>
      have positive : 0 < place := by
        by_contra isFirst
        exact Nat.not_lt_zero _ (above 0 (Nat.zero_lt_succ _) (Nat.not_lt.1 isFirst))
      have isLine : place - 1 < index.starts.length := Nat.lt_of_lt_of_le (by omega) inside
      refine ⟨place - 1, rfl, isLine, Nat.le_of_lt (below _ isLine (by omega)), ?_⟩
      exact fun other isInside further => above other isInside (by omega)

/-- The lines that have started at an offset are those up to the one that the search finds. -/
theorem filter_starts_eq_take (offset : Nat) :
    index.starts.filter (· ≤ offset) = index.starts.take (index.lineAt offset + 1) := by
  rcases index.lineAt_spec offset with ⟨isLine, startsBefore, startLater⟩
  have increasing := List.pairwise_iff_getElem.1 index.pairwise_starts
  have started : ∀ start ∈ index.starts.take (index.lineAt offset + 1),
      decide (start ≤ offset) = true := by
    intro start isStart
    rcases List.mem_take_iff_getElem.1 isStart with ⟨line, bound, rfl⟩
    have upTo : line ≤ index.lineAt offset := by omega
    rw [decide_eq_true_eq]
    rcases Nat.lt_or_eq_of_le upTo with isBefore | rfl
    · exact Nat.le_trans (Nat.le_of_lt (increasing _ _ _ isLine isBefore)) startsBefore
    · exact startsBefore
  have notStarted : ∀ start ∈ index.starts.drop (index.lineAt offset + 1),
      ¬decide (start ≤ offset) = true := by
    intro start isStart
    rcases List.mem_drop_iff_getElem.1 isStart with ⟨further, bound, rfl⟩
    rw [decide_eq_true_eq, Nat.not_le]
    exact startLater _ _ (by omega)
  conv_lhs => rw [← List.take_append_drop (index.lineAt offset + 1) index.starts]
  rw [List.filter_append, List.filter_eq_self.2 started, List.filter_eq_nil_iff.2 notStarted,
    List.append_nil]

/-- The lines that have started at a place are those of the text before the place. -/
theorem filter_starts {before after : List Char} (isSource : index.source = before ++ after) :
    index.starts.filter (· ≤ byteLength before) = 0 :: startsFrom 0 before := by
  have started : ∀ start ∈ startsFrom 0 before, decide (start ≤ byteLength before) = true := by
    intro start isStart
    have := mem_startsFrom isStart
    simp only [decide_eq_true_eq]
    omega
  have notStarted : ∀ start ∈ startsFrom (0 + byteLength before) after,
      ¬ decide (start ≤ byteLength before) = true := by
    intro start isStart
    have := mem_startsFrom isStart
    simp only [decide_eq_true_eq]
    omega
  rw [starts, isSource, startsFrom_append, List.filter_cons_of_pos (by simp), List.filter_append,
    List.filter_eq_self.2 started, List.filter_eq_nil_iff.2 notStarted, List.append_nil]

/-- The line that a place is on starts where the lines before it end. -/
theorem getLast?_starts {lines line : List Char} (noBreak : '\n' ∉ line)
    (ends : lines = [] ∨ lines.getLast? = some '\n') :
    (0 :: startsFrom 0 (lines ++ line)).getLast? = some (byteLength lines) := by
  rw [startsFrom_append, startsFrom_of_noBreak noBreak, List.append_nil]
  rcases ends with rfl | ends
  · rfl
  · rcases List.getLast?_eq_some_iff.1 ends with ⟨front, rfl⟩
    have oneByte : byteLength ['\n'] = 1 := rfl
    rw [startsFrom_snoc_break, ← List.cons_append, List.getLast?_concat, byteLength_append, oneByte,
      Nat.zero_add]

/-- On its own line a place has as many characters before it as the walk has passed over since the
line started. -/
theorem column_advanceOver {lines line : List Char} (noBreak : '\n' ∉ line)
    (ends : lines = [] ∨ lines.getLast? = some '\n') :
    (Position.start.advanceOver (lines ++ line)).column = line.length + 1 := by
  have lineStart : (Position.start.advanceOver lines).column = 1 := by
    rcases ends with rfl | ends
    · rfl
    · have nonempty : lines ≠ [] := by
        rintro rfl
        simp at ends
      exact (Position.column_advanceOver_eq_one Nat.one_pos nonempty).2 ends
  rw [Position.advanceOver_append, Position.column_advanceOver_of_noBreak _ noBreak, lineStart,
    Nat.add_comm]

/-- The index finds each place of the source, and there the position to which a walk comes. -/
theorem positionAt?_eq {before after : List Char} (isSource : index.source = before ++ after) :
    index.positionAt? (byteLength before) = some (Position.start.advanceOver before) := by
  have started := (index.filter_starts_eq_take _).symm.trans (index.filter_starts isSource)
  rcases exists_last_line before with ⟨lines, line, rfl, noBreak, ends⟩
  have isLine := (index.lineAt_spec (byteLength (lines ++ line))).1
  have sameLine : index.lineAt (byteLength (lines ++ line)) + 1 =
      (0 :: startsFrom 0 (lines ++ line)).length := by
    rw [← started, List.length_take, Nat.min_eq_left isLine]
  have lineStart : index.starts[index.lineAt (byteLength (lines ++ line))]? =
      some (byteLength lines) := by
    rw [← getLast?_starts noBreak ends, List.getLast?_eq_getElem?, ← sameLine, ← started,
      Nat.add_sub_cancel, List.getElem?_take_of_lt (Nat.lt_succ_self _)]
  have sliced : slice? index.source (byteLength lines) (byteLength (lines ++ line)) =
      some line := by
    rw [isSource, List.append_assoc, byteLength_append]
    exact slice?_append lines line after
  have reached : Position.start.advanceOver (lines ++ line) =
      ⟨byteLength (lines ++ line), (0 :: startsFrom 0 (lines ++ line)).length,
        line.length + 1⟩ := by
    rw [List.length_cons, length_startsFrom, Nat.add_comm, ← column_advanceOver noBreak ends]
    exact congrArg₂ (Position.mk · · _) (Position.offset_start_advanceOver _)
      (Position.line_advanceOver .start _)
  simp only [positionAt?, lineStart, sliced, sameLine, reached, Option.bind_eq_bind,
    Option.bind_some, Option.pure_def]

/-! ### The lines of an index -/

theorem pieces_of_noBreak {line : List Char} (noBreak : '\n' ∉ line) : pieces line = [line] := by
  induction line with
  | nil => rfl
  | cons char line ih =>
      simp only [List.mem_cons, not_or] at noBreak
      rw [pieces, if_neg (Ne.symm noBreak.1), ih noBreak.2]

theorem pieces_append {line : List Char} (noBreak : '\n' ∉ line) (rest : List Char) :
    pieces (line ++ '\n' :: rest) = line :: pieces rest := by
  induction line with
  | nil => rfl
  | cons char line ih =>
      simp only [List.mem_cons, not_or] at noBreak
      rw [List.cons_append, pieces, if_neg (Ne.symm noBreak.1), ih noBreak.2]

theorem length_pieces (text : List Char) : (pieces text).length = text.count '\n' + 1 := by
  induction text using lines_induction with
  | single line noBreak =>
      rw [pieces_of_noBreak noBreak, List.count_eq_zero.2 noBreak]
      rfl
  | before line rest noBreak ih =>
      rw [pieces_append noBreak, List.length_cons, ih, List.count_append,
        List.count_eq_zero.2 noBreak, List.count_cons_self, Nat.zero_add]

/-- The pieces of a text, joined again without the carriage returns at their ends. -/
theorem intercalate_pieces (text : List Char) :
    ['\n'].intercalate ((pieces text).map (dropEndWhile (· = '\r'))) = withoutReturns text := by
  induction text using lines_induction with
  | single line noBreak =>
      have kept := withoutReturns_append noBreak [] rfl
      rw [List.append_nil, withoutReturns, List.append_nil] at kept
      rw [pieces_of_noBreak noBreak, kept]
      simp
  | before line rest noBreak ih =>
      have kept := withoutReturns_append noBreak ('\n' :: rest) rfl
      have breakStays : withoutReturns ('\n' :: rest) = '\n' :: withoutReturns rest := by
        rw [withoutReturns, if_neg (by simp)]
      have nonempty : (pieces rest).map (dropEndWhile (· = '\r')) ≠ [] := by
        rw [Ne, List.map_eq_nil_iff, ← List.length_eq_zero_iff, length_pieces]
        omega
      rw [pieces_append noBreak, kept, breakStays, ← ih, List.map_cons,
        List.intercalate_cons_of_ne_nil nonempty]
      simp

theorem lineCount_eq_length_pieces : index.lineCount = (pieces index.source).length := by
  rw [lineCount, starts, List.length_cons, length_startsFrom, length_pieces]

theorem line?_succ (number : Nat) :
    index.line? (number + 1) =
      ((pieces index.source).map (dropEndWhile (· = '\r')))[number]? := by
  rw [line?, if_neg (Nat.succ_ne_zero number), Nat.add_sub_cancel, List.getElem?_map]

theorem isSome_line?_iff (number : Nat) :
    (index.line? number).isSome = true ↔ 1 ≤ number ∧ number ≤ index.lineCount := by
  rw [lineCount_eq_length_pieces]
  cases number with
  | zero => simp [line?]
  | succ number => simp [line?_succ]

/-- Where a line of the source stops: before the line break that ends it, or at the end. -/
def stopOfLine (number : Nat) : Nat :=
  (index.starts[number + 1]?.map (· - 1)).getD (byteLength index.source)

/-- A piece stands between its place in the table and the next one, or the end of the text. -/
theorem exists_around_piece {text piece : List Char} {number : Nat} (offset : Nat)
    (isPiece : (pieces text)[number]? = some piece) : ∃ before after,
      text = before ++ (piece ++ after) ∧
      (offset :: startsFrom offset text)[number]? = some (offset + byteLength before) ∧
      (((offset :: startsFrom offset text)[number + 1]?).map (· - 1)).getD
        (offset + byteLength text) = offset + byteLength before + byteLength piece := by
  induction text using lines_induction generalizing offset number with
  | single line noBreak =>
      rw [pieces_of_noBreak noBreak] at isPiece
      rw [startsFrom_of_noBreak noBreak]
      obtain ⟨rfl, rfl⟩ : number = 0 ∧ line = piece := by
        cases number with
        | zero => simpa using isPiece
        | succ number => simp at isPiece
      exact ⟨[], [], by simp⟩
  | before line rest noBreak ih =>
      rw [pieces_append noBreak] at isPiece
      have table : startsFrom offset (line ++ '\n' :: rest) = (offset + byteLength line + 1) ::
          startsFrom (offset + byteLength line + 1) rest := by
        rw [startsFrom_append, startsFrom_of_noBreak noBreak]
        rfl
      have oneByte : ('\n').utf8Size = 1 := rfl
      rw [table]
      cases number with
      | zero =>
          obtain rfl : line = piece := by simpa using isPiece
          exact ⟨[], '\n' :: rest, by simp⟩
      | succ number =>
          rcases ih (offset + byteLength line + 1) isPiece with ⟨before, after, rfl, starts, stops⟩
          refine ⟨line ++ '\n' :: before, after, by simp, ?_, ?_⟩
          · rw [List.getElem?_cons_succ, starts, byteLength_append, byteLength_cons, oneByte]
            simp only [Option.some.injEq]
            omega
          · have sameEnd : offset + byteLength (line ++ '\n' :: (before ++ (piece ++ after))) =
                offset + byteLength line + 1 + byteLength (before ++ (piece ++ after)) := by
              rw [byteLength_append, byteLength_cons, oneByte]
              omega
            rw [List.getElem?_cons_succ, sameEnd, stops, byteLength_append, byteLength_cons,
              oneByte]
            omega

/-- A line is cut out of the source from its start up to its stop, without the carriage returns at
its end. -/
theorem line?_eq_slice? {number start : Nat} (starts : index.starts[number]? = some start) :
    index.line? (number + 1) =
      (slice? index.source start (index.stopOfLine number)).map (dropEndWhile (· = '\r')) := by
  have isLine : number < (pieces index.source).length := by
    rw [← lineCount_eq_length_pieces]
    exact (List.getElem?_eq_some_iff.1 starts).1
  obtain ⟨piece, isPiece⟩ : ∃ piece, (pieces index.source)[number]? = some piece :=
    ⟨_, List.getElem?_eq_getElem isLine⟩
  rcases exists_around_piece 0 isPiece with ⟨before, after, isSource, sameStart, sameStop⟩
  have start_eq : byteLength before = start := by
    rw [LineIndex.starts, sameStart, Nat.zero_add] at starts
    exact Option.some.inj starts
  have stop_eq : index.stopOfLine number = byteLength before + byteLength piece := by
    rw [stopOfLine, LineIndex.starts, ← Nat.zero_add (byteLength index.source), sameStop,
      Nat.zero_add]
  have sliced : slice? index.source (byteLength before) (byteLength before + byteLength piece) =
      some piece := by
    rw [isSource]
    exact slice?_append before piece after
  rw [line?_succ, List.getElem?_map, isPiece, stop_eq, ← start_eq, sliced]

end LineIndex

/-! ### The lexer's count of lines -/

namespace Lexer

theorem position_finish {sourceName : Option String} {state : State} (atEnd : state.rest = []) :
    (finish sourceName state).position = state.position := by
  unfold finish
  split <;> simp [State.emit, State.skip, State.enter, State.report, atEnd]

variable [Limits]

theorem lineCount_of_tokenize {dialect : Dialect} {sourceName : Option String} {source : String}
    {result : Tokenization} (cut : tokenize dialect sourceName source = some result) :
    result.lineCount = (Position.start.advanceOver source.toList).line := by
  rcases exists_walks_of_tokenize cut with ⟨last, walks, atEnd, rfl⟩
  rcases exists_before_of_walks walks with ⟨before, isSource, placed⟩
  rw [State.result, position_finish atEnd, placed, isSource, atEnd, List.append_nil]

end Lexer

open Text in
/-- The index of lines of a source agrees with the walk over its characters. The table of starts is
increasing; the position found at a place is the one that the walk comes to there; the lines are
counted alike by the index, the walk and the lexer. A line is there for each number up to that
count, cut out of the source between two entries of the table, and the lines together are the source
without the carriage returns at the ends of its lines. -/
theorem lineIndex_agrees [Limits] (source : String) (name : Option String) :
    let index : LineIndex := ⟨source.toList, name⟩
    index.starts.Pairwise (· < ·) ∧
    (∀ before after, source.toList = before ++ after →
      index.positionAt? (byteLength before) = some (Position.start.advanceOver before)) ∧
    index.lineCount = (Position.start.advanceOver source.toList).line ∧
    (∀ dialect sourceName result, tokenize dialect sourceName source = some result →
      result.lineCount = index.lineCount) ∧
    (∀ number, (index.line? number).isSome = true ↔ 1 ≤ number ∧ number ≤ index.lineCount) ∧
    (∀ number start, index.starts[number]? = some start → index.line? (number + 1) =
      (slice? source.toList start (index.stopOfLine number)).map (dropEndWhile (· = '\r'))) ∧
    ∃ lines, lines.length = index.lineCount ∧
      (∀ number, index.line? (number + 1) = lines[number]?) ∧
      ['\n'].intercalate lines = withoutReturns source.toList := by
  intro index
  refine ⟨index.pairwise_starts, ?_, index.lineCount_eq, ?_, index.isSome_line?_iff, ?_, ?_⟩
  · intro before after isSource
    exact index.positionAt?_eq isSource
  · intro dialect sourceName result cut
    rw [Lexer.lineCount_of_tokenize cut, index.lineCount_eq]
  · intro number start starts
    exact index.line?_eq_slice? starts
  · refine ⟨(LineIndex.pieces index.source).map (dropEndWhile (· = '\r')), ?_, index.line?_succ,
      LineIndex.intercalate_pieces index.source⟩
    rw [List.length_map, index.lineCount_eq_length_pieces]

open Text in
/-- Three lines, of which the first one has a wide character and the last one no line break: the
second line starts at the fifth byte, and three carriage returns are left out. -/
theorem lineIndex_agrees_returns :
    let source := "é\r\n\nb\r\r"
    let index : LineIndex := ⟨source.toList, none⟩
    index.positionAt? 4 = some ⟨4, 2, 1⟩ ∧
    index.line? 3 = some ['b'] ∧
    (∃ result, tokenize {} none source = some result ∧ result.lineCount = index.lineCount) ∧
    ∃ lines, (∀ number, index.line? (number + 1) = lines[number]?) ∧
      ['\n'].intercalate lines = ['é', '\n', '\n', 'b'] := by
  intro source index
  rcases lineIndex_agrees source none with
    ⟨-, placed, -, counted, -, cutOut, lines, -, given, joined⟩
  have before : Position.start.advanceOver ['é', '\r', '\n'] = ⟨4, 2, 1⟩ := by decide
  have third : slice? source.toList 5 8 = some ['b', '\r', '\r'] := by decide
  have stop : index.stopOfLine 2 = 8 := by decide
  obtain ⟨result, cut⟩ : ∃ result, tokenize {} none source = some result :=
    Lexer.exists_tokenize (by decide) Lexer.not_emptyLineComment_default _
  refine ⟨?_, ?_, ⟨result, cut, counted {} none result cut⟩, lines, given, ?_⟩
  · rw [← before]
    exact placed ['é', '\r', '\n'] ['\n', 'b', '\r', '\r'] (by decide)
  · have line := cutOut 2 5 (by decide)
    rw [stop, third] at line
    exact line
  · rw [joined]
    decide

end Stencil

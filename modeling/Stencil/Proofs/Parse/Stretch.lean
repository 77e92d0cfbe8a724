import Stencil.Proofs.Parse.Passing

/-!
# Stretches of a stream

The plain text that is still ahead at a place of a stream follows from the region of that place and
from the tokens after it. A stretch from one place to another gives the plain text by which the two
differ. Tokens inside tags give none, and the text ahead at a place is always an ending of the text
ahead at an earlier one.
-/

namespace Stencil

namespace TokenStream

variable (stream : TokenStream)

/-- The region of a place. -/
def regionAt (cursor : Nat) : Region :=
  Region.text.afterAll (stream.significant.toList.take cursor)

/-- The pieces of plain text from a place on. -/
def textFrom (cursor : Nat) : List String :=
  (stream.regionAt cursor).pieces (stream.significant.toList.drop cursor)

/-- The tokens of a stream are of the kinds that their regions allow, up to the end of the
template. -/
structure IsShaped : Prop where
  closed : stream.IsClosed
  shapes : Region.text.Shapes stream.significant.toList

/-- A statement may begin at a place, or the template ends there. -/
def IsReady (cursor : Nat) : Prop :=
  (stream.regionAt cursor).isBetween = true ∨ (stream.get cursor).kind = .eof

variable {stream} {cursor start stop : Nat}

theorem isReady_of_text (inText : stream.regionAt cursor = .text) : stream.IsReady cursor := by
  rw [IsReady, inText]
  exact Or.inl rfl

theorem drop_eq_cons (inside : cursor < stream.size) :
    stream.significant.toList.drop cursor =
      stream.get cursor :: stream.significant.toList.drop (cursor + 1) := by
  have insideList : cursor < stream.significant.toList.length := by simpa [size] using inside
  have sameIndex : min cursor (stream.significant.size - 1) = cursor := by
    simp only [size] at inside
    omega
  rw [List.drop_eq_getElem_cons insideList]
  simp [get, sameIndex]

theorem get_last {front : List Token} {last : Token}
    (sameTokens : stream.significant.toList = front ++ [last]) :
    stream.get (stream.size - 1) = last := by
  have sameSize : stream.size = front.length + 1 := by
    rw [size, ← Array.length_toList, sameTokens]
    simp
  have split : stream.significant.toList.drop (stream.size - 1) = _ :=
    drop_eq_cons (by have := stream.significant_pos; rw [← size] at this; omega)
  rw [sameTokens, sameSize, Nat.add_sub_cancel, List.drop_left] at split
  rw [sameSize, Nat.add_sub_cancel]
  exact (List.cons.inj split).1.symm

theorem take_succ_eq (inside : cursor < stream.size) :
    stream.significant.toList.take (cursor + 1) =
      stream.significant.toList.take cursor ++ [stream.get cursor] := by
  rw [List.take_add, drop_eq_cons inside]
  rfl

theorem regionAt_succ (inside : cursor < stream.size) :
    stream.regionAt (cursor + 1) = (stream.regionAt cursor).after (stream.get cursor).kind := by
  rw [regionAt, take_succ_eq inside, Region.afterAll_append]
  rfl

theorem textFrom_eq (inside : cursor < stream.size) :
    stream.textFrom cursor = (stream.regionAt cursor).piece (stream.get cursor) ++
      stream.textFrom (cursor + 1) := by
  rw [textFrom, drop_eq_cons inside, Region.pieces, textFrom, regionAt_succ inside]

theorem IsShaped.allows (shaped : stream.IsShaped) (inside : cursor < stream.size) :
    (stream.regionAt cursor).allows (stream.get cursor).kind = true := by
  have shapes := shaped.shapes
  rw [← List.take_append_drop cursor stream.significant.toList, Region.shapes_append,
    drop_eq_cons inside] at shapes
  exact shapes.2.1

theorem IsClosed.regionAt_next (closed : stream.IsClosed)
    (notEnd : (stream.get cursor).kind ≠ .eof) :
    stream.regionAt (stream.next cursor) =
      (stream.regionAt cursor).after (stream.get cursor).kind := by
  have inside := closed.lt_size notEnd
  rw [closed.next_eq notEnd, regionAt_succ (by omega)]

theorem IsShaped.allows_next (shaped : stream.IsShaped)
    (notEnd : (stream.get cursor).kind ≠ .eof) :
    ((stream.regionAt cursor).after (stream.get cursor).kind).allows
      (stream.get (stream.next cursor)).kind = true := by
  have inside := shaped.closed.lt_size notEnd
  rw [← shaped.closed.regionAt_next notEnd, shaped.closed.next_eq notEnd]
  exact shaped.allows inside

/-- The text ahead only gets shorter. -/
theorem textFrom_suffix (inOrder : start ≤ stop) :
    stream.textFrom stop <:+ stream.textFrom start := by
  induction inOrder with
  | refl => exact List.suffix_refl _
  | @step stop _ ih =>
      by_cases inside : stop < stream.size
      · rw [textFrom_eq inside] at ih
        exact (List.suffix_append _ _).trans ih
      · have empty : stream.textFrom (stop + 1) = [] := by
          rw [textFrom, List.drop_eq_nil_of_le]
          · rfl
          · simp only [size, Array.length_toList] at inside ⊢
            omega
        rw [empty]
        exact List.nil_suffix

/-- No text is ahead at the end of a template. -/
theorem IsShaped.textFrom_eq_nil (shaped : stream.IsShaped)
    (atEnd : (stream.get cursor).kind = .eof) : stream.textFrom cursor = [] := by
  by_cases inside : cursor < stream.size
  · have shapes := shaped.shapes
    rw [← List.take_append_drop cursor stream.significant.toList, Region.shapes_append,
      drop_eq_cons inside] at shapes
    have nothingLeft : stream.significant.toList.drop (cursor + 1) = [] := by
      have furtherShapes := shapes.2.2
      rw [atEnd] at furtherShapes
      cases further : stream.significant.toList.drop (cursor + 1) with
      | nil => rfl
      | cons token tokens =>
          rw [further] at furtherShapes
          exact absurd furtherShapes.1 (by simp [Region.after, Region.allows])
    rw [textFrom, drop_eq_cons inside, nothingLeft]
    simp [Region.pieces, Region.piece, atEnd]
  · rw [textFrom, List.drop_eq_nil_of_le]
    · rfl
    · simp only [size, Array.length_toList] at inside ⊢
      omega

end TokenStream

/-- The pieces of plain text between two places. -/
structure Stretch (stream : TokenStream) (texts : List String) (start stop : Nat) : Prop where
  inOrder : start ≤ stop
  tells : stream.textFrom start = texts ++ stream.textFrom stop

namespace Stretch

variable {stream : TokenStream} {start middle stop : Nat} {first second : List String}

theorem refl (stream : TokenStream) (start : Nat) : Stretch stream [] start start :=
  ⟨Nat.le_refl _, rfl⟩

theorem trans (before : Stretch stream first start middle)
    (after : Stretch stream second middle stop) :
    Stretch stream (first ++ second) start stop :=
  ⟨Nat.le_trans before.inOrder after.inOrder, by
    rw [before.tells, after.tells, List.append_assoc]⟩

/-- A single token gives its own piece. -/
theorem single (closed : stream.IsClosed) (notEnd : (stream.get start).kind ≠ .eof) :
    Stretch stream ((stream.regionAt start).piece (stream.get start)) start
      (stream.next start) := by
  have inside := closed.lt_size notEnd
  rw [closed.next_eq notEnd]
  exact ⟨Nat.le_succ _, TokenStream.textFrom_eq (by omega)⟩

/-- Most tokens give no piece. -/
theorem silent (closed : stream.IsClosed) (notEnd : (stream.get start).kind ≠ .eof)
    (notData : (stream.get start).kind ≠ .data) (notRawEnd : (stream.get start).kind ≠ .rawEnd) :
    Stretch stream [] start (stream.next start) := by
  have stretch := single closed notEnd
  unfold Region.piece at stretch
  split at stretch
  · next isData => exact absurd isData notData
  · next isRawEnd => exact absurd isRawEnd notRawEnd
  · exact stretch

end Stretch

/-- Tokens inside tags give no text. -/
theorem Passes.stretch {stream : TokenStream} {start stop : Nat} (passed : Passes stream start stop)
    (closed : stream.IsClosed) : Stretch stream [] start stop := by
  refine ⟨passed.inOrder, ?_⟩
  obtain ⟨inOrder, inner⟩ := passed
  induction inOrder with
  | refl => rfl
  | @step stop isLater ih =>
      have isInner := inner stop isLater (Nat.lt_succ_self _)
      have inside := closed.lt_size (Token.Kind.ne_eof_of_isInner isInner)
      rw [ih fun index fromStart beforeStop => inner index fromStart (by omega),
        TokenStream.textFrom_eq (by omega), Region.piece_of_isInner isInner]
      rfl

end Stencil

import Stencil.Token.Basic

/-!
# Streams of tokens

A stream holds every token of a template and shows a reader the significant ones only. Its last
token is always the end of the template, and a look beyond it sees that token again, so that
every look succeeds.
-/

namespace Stencil

/-- A list of tokens that ends with the end of the template. -/
def Token.closed (tokens : List Token) : List Token :=
  match tokens.getLast? with
  | none => [⟨.eof, "", .start, none⟩]
  | some last =>
    if last.kind = .eof then tokens else tokens ++ [⟨.eof, "", last.stop, last.sourceName⟩]

/-- Tokens whose positions follow from their texts, the first one at `position`. -/
def Token.layOut (sourceName : Option String) :
    (position : Position) → List (Token.Kind × String) → List Token
  | _, [] => []
  | position, (kind, text) :: rest =>
    ⟨kind, text, position, sourceName⟩ ::
      layOut sourceName (position.advanceOver text.toList) rest

/-- The tokens of a template, with the significant ones set apart. -/
structure TokenStream where
  /-- Every token, in source order. -/
  all : List Token
  /-- The tokens that grammar rules see. -/
  significant : Array Token
  significant_pos : 0 < significant.size

namespace TokenStream

/-- A closed list of tokens has a significant token: its last one. -/
theorem exists_significant (tokens : List Token) :
    0 < ((Token.closed tokens).filter (·.kind.isSignificant)).toArray.size := by
  have last : ∃ token ∈ Token.closed tokens, token.kind = .eof := by
    unfold Token.closed
    split
    · exact ⟨_, List.mem_singleton_self _, rfl⟩
    · next last found =>
      split
      · next isEof => exact ⟨last, List.mem_of_getLast? found, isEof⟩
      · exact ⟨_, List.mem_append_right _ (List.mem_singleton_self _), rfl⟩
  obtain ⟨token, member, isEof⟩ := last
  simp only [List.size_toArray, List.length_filter_pos_iff]
  exact ⟨token, member, by simp [Token.Kind.isSignificant, isEof]⟩

/-- The stream of a list of tokens, closed if need be. -/
def ofTokens (tokens : List Token) : TokenStream where
  all := Token.closed tokens
  significant := ((Token.closed tokens).filter (·.kind.isSignificant)).toArray
  significant_pos := exists_significant tokens

variable (stream : TokenStream)

/-- The number of significant tokens. -/
def size : Nat := stream.significant.size

/-- The significant token at an index; from the last one on, always the last. -/
def get (index : Nat) : Token :=
  have inside : min index (stream.significant.size - 1) < stream.significant.size := by
    have := stream.significant_pos
    omega
  stream.significant[min index (stream.significant.size - 1)]

/-- Whether there is a token after the one at an index. -/
def hasNext (index : Nat) : Bool :=
  index + 1 < stream.size

/-- The index after a given one; the last token is never passed. -/
def next (index : Nat) : Nat :=
  if index + 1 < stream.size then index + 1 else index

/-- An index brought back into the stream. -/
def clamp (index : Nat) : Nat :=
  min index (stream.size - 1)

/-- The first index from `index` on whose token satisfies `found`, or the last index. -/
def seek (found : Token → Bool) (index : Nat) : Nat :=
  if found (stream.get index) then index
  else if index + 1 < stream.size then seek found (index + 1)
  else index
termination_by stream.size - index

/-- The token `count` places after an index, if that place can be counted. -/
def ahead? (index count : Nat) : Option Token :=
  (addWord? index count).map stream.get

/-- The significant tokens at most `radius` away from an index, if their places can be counted. -/
def around? (index radius : Nat) : Option (List Token) :=
  (addWord? (index + 1) radius).map fun stop =>
    (stream.significant.toList.take stop).drop (index - radius)

/-- The name of the template, as its first token has it. -/
def sourceName : Option String :=
  (stream.get 0).sourceName

end TokenStream

end Stencil

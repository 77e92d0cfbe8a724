import Mathlib
import Stencil.Token.Basic

/-!
# Regions of a template

The tokens of a template are made of items: runs of plain text, tags, comments and raw blocks. The
region that a token stands in says which item is open there and how far it has come. Regions follow
from the kinds of the tokens before, and each region allows only some kinds of token to come next.

Plain text is what stands outside of all tags, in raw blocks or between the items.
-/

namespace Stencil

/-- Kinds of token that stand inside a tag and are read by grammar rules, or are blank. -/
def Token.Kind.isInner (kind : Token.Kind) : Bool :=
  kind ∉ [.blockBegin, .blockEnd, .variableBegin, .variableEnd, .commentBegin, .commentEnd,
    .rawBegin, .rawEnd, .data, .comment, .lineComment, .eof]

/-- What is open at a place between two tokens. -/
inductive Region where
  /-- Nothing, where plain text may begin. -/
  | text
  /-- Nothing, after a run of plain text. -/
  | plain
  /-- A block tag. -/
  | block
  /-- A print tag. -/
  | variable
  /-- A comment of which only the delimiter was read. -/
  | comment
  /-- A comment of which only the closing delimiter is left. -/
  | commented
  /-- A raw block of which only the tag was read. -/
  | raw
  /-- A raw block of which only the closing tag is left. -/
  | rawPlain
  /-- Nothing, after the end of the template. -/
  | ended
deriving DecidableEq, Repr

namespace Region

/-- The region after a token. -/
def after (region : Region) (kind : Token.Kind) : Region :=
  match kind with
  | .blockBegin => .block
  | .variableBegin => .variable
  | .commentBegin => .comment
  | .comment => .commented
  | .rawBegin => .raw
  | .data => match region with
    | .text => .plain
    | .raw => .rawPlain
    | _ => region
  | .blockEnd | .variableEnd | .commentEnd | .rawEnd | .lineComment => .text
  | .eof => .ended
  | _ => region

/-- Kinds of token that may come next. -/
def allows (region : Region) (kind : Token.Kind) : Bool :=
  match region with
  | .text =>
    kind ∈ [.blockBegin, .variableBegin, .commentBegin, .rawBegin, .lineComment, .eof, .data]
  | .plain => kind ∈ [.blockBegin, .variableBegin, .commentBegin, .rawBegin, .lineComment, .eof]
  | .block => kind.isInner || kind ∈ [.data, .blockEnd, .eof]
  | .variable => kind.isInner || kind ∈ [.data, .variableEnd, .eof]
  | .comment => kind = .comment
  | .commented => kind ∈ [.commentEnd, .eof]
  | .raw => kind ∈ [.data, .rawEnd, .eof]
  | .rawPlain => kind ∈ [.rawEnd, .eof]
  | .ended => false

/-- Whether a region lies inside a tag. -/
def isTag (region : Region) : Bool :=
  region ∈ [.block, .variable]

/-- Whether a region lies between items. -/
def isBetween (region : Region) : Bool :=
  region ∈ [.text, .plain]

/-- The region that tokens lead to. -/
def afterAll (region : Region) (tokens : List Token) : Region :=
  tokens.foldl (fun region token => region.after token.kind) region

/-- Each token is of a kind that may stand where it stands. -/
def Shapes : Region → List Token → Prop
  | _, [] => True
  | region, token :: tokens =>
    region.allows token.kind = true ∧ (region.after token.kind).Shapes tokens

/-- The plain text that a token gives: its own text, or the empty text for a raw block that has
none. -/
def piece (region : Region) (token : Token) : List String :=
  match token.kind with
  | .data => if region.isTag then [] else [token.text]
  | .rawEnd => if region = .raw then [""] else []
  | _ => []

/-- The pieces of plain text of a template, in order. -/
def pieces : Region → List Token → List String
  | _, [] => []
  | region, token :: tokens => region.piece token ++ (region.after token.kind).pieces tokens

/-- The tokens of plain text of a template, in order. -/
def plainTokens : Region → List Token → List Token
  | _, [] => []
  | region, token :: tokens =>
    (if token.kind = .data ∧ region.isTag = false then [token] else []) ++
      (region.after token.kind).plainTokens tokens

variable {region : Region} {first second tokens : List Token}

@[simp]
theorem afterAll_nil (region : Region) : region.afterAll [] = region := rfl

@[simp]
theorem afterAll_append (region : Region) (first second : List Token) :
    region.afterAll (first ++ second) = (region.afterAll first).afterAll second := by
  simp [afterAll]

theorem shapes_append :
    region.Shapes (first ++ second) ↔
      region.Shapes first ∧ (region.afterAll first).Shapes second := by
  induction first generalizing region with
  | nil => simp [Shapes]
  | cons token first ih =>
      simp only [List.cons_append, Shapes, ih, and_assoc]
      rfl

theorem after_of_isInner {kind : Token.Kind} (inner : kind.isInner = true) :
    region.after kind = region := by
  cases kind <;> first | rfl | simp [Token.Kind.isInner] at inner

theorem piece_of_isInner {token : Token} (inner : token.kind.isInner = true) :
    region.piece token = [] := by
  unfold piece
  split
  · next isData => simp [isData, Token.Kind.isInner] at inner
  · next isEnd => simp [isEnd, Token.Kind.isInner] at inner
  · rfl

/-- Only the token for the end leads to the end. -/
theorem eq_eof_of_after_eq_ended {kind : Token.Kind} (allowed : region.allows kind = true)
    (ends : region.after kind = .ended) : kind = .eof := by
  have notEnded : region ≠ .ended := by
    rintro rfl
    simp [allows] at allowed
  unfold after at ends
  split at ends
  case h_12 => rfl
  case h_13 => exact absurd ends notEnded
  case h_6 =>
    split at ends
    · cases ends
    · cases ends
    · exact absurd ends notEnded
  all_goals cases ends

theorem isInner_of_not_isSignificant {kind : Token.Kind} (hidden : ¬kind.isSignificant = true) :
    kind.isInner = true := by
  have isBlank : kind = .whitespace := by simpa [Token.Kind.isSignificant] using hidden
  rw [isBlank]
  rfl

/-- Tokens that no rule sees do not count for the shape of a template. -/
theorem Shapes.filter (shapes : region.Shapes tokens) :
    region.Shapes (tokens.filter (·.kind.isSignificant)) := by
  induction tokens generalizing region with
  | nil => trivial
  | cons token tokens ih =>
      rw [List.filter_cons]
      split
      · exact ⟨shapes.1, ih shapes.2⟩
      · next hidden =>
        have further := ih shapes.2
        rwa [after_of_isInner (isInner_of_not_isSignificant hidden)] at further

/-- Tokens that no rule sees do not count for the plain text of a template. -/
theorem pieces_filter (region : Region) (tokens : List Token) :
    region.pieces (tokens.filter (·.kind.isSignificant)) = region.pieces tokens := by
  induction tokens generalizing region with
  | nil => rfl
  | cons token tokens ih =>
      rw [List.filter_cons]
      split
      · simp [pieces, ih]
      · next hidden =>
        have inner := isInner_of_not_isSignificant hidden
        rw [pieces, piece_of_isInner inner, after_of_isInner inner, List.nil_append, ih]

/-- Raw blocks without text add nothing to the text of a template. -/
theorem join_pieces (region : Region) (tokens : List Token) :
    String.join (region.pieces tokens) =
      String.join ((region.plainTokens tokens).map Token.text) := by
  induction tokens generalizing region with
  | nil => rfl
  | cons token tokens ih =>
      have own : String.join (region.piece token) = String.join
          ((if token.kind = .data ∧ region.isTag = false then [token] else []).map Token.text) := by
        unfold piece
        split
        · next isData => cases inTag : region.isTag <;> simp [isData]
        · next isEnd => by_cases isRaw : region = .raw <;> simp [isRaw, isEnd]
        · next notData _ =>
          rw [if_neg fun isPlain => notData isPlain.1]
          rfl
      simp [pieces, plainTokens, ih, own]

end Region

end Stencil

import Stencil.Dialect
import Stencil.Proofs.Text.Cutting
import Stencil.Token.Basic

/-!
# Line breaks after tags

A dialect may ask for the line break after a block tag, a comment or a raw block to be dropped. What
this does to a template is said here by its tokens alone: a token of plain text that directly
follows such a tag loses the line break that it begins with. Only a tag that takes the rest of a
line never asks for this, and such a tag is known by its first token: it stands at the start of a
line and is the line prefix, after the blanks before it.

Tokens are listed last one first while a text is walked over, so the tokens that lose their line
breaks and the tokens that are left are also described as they grow, by `Trims`.
-/

namespace Stencil

/-- The number of characters of the line break at the start of a text. -/
def Text.breakLength : List Char → Nat
  | '\r' :: '\n' :: _ => 2
  | '\n' :: _ => 1
  | _ => 0

namespace Text

variable {text rest : List Char}

/-- A text that begins with a line break. -/
theorem exists_of_breakLength_ne_zero (breaks : breakLength text ≠ 0) : ∃ front after,
    text = front ++ after ∧ front.length = breakLength text ∧
      front ∈ [['\n'], ['\r', '\n']] := by
  unfold breakLength at breaks ⊢
  split at breaks
  · next after => exact ⟨['\r', '\n'], after, rfl, rfl, by simp⟩
  · next after => exact ⟨['\n'], after, rfl, rfl, by simp⟩
  · exact absurd rfl breaks

theorem breakLength_eq_zero_of_prefix (isPrefix : text <+: rest) (noBreak : breakLength rest = 0) :
    breakLength text = 0 := by
  rcases isPrefix with ⟨after, rfl⟩
  unfold breakLength
  split
  · simp [breakLength] at noBreak
  · simp [breakLength] at noBreak
  · rfl

theorem breakLength_append_ne_zero {front : List Char} (isBreak : front ∈ [['\n'], ['\r', '\n']])
    (after : List Char) : breakLength (front ++ after) = front.length := by
  simp only [List.mem_cons, List.not_mem_nil, or_false] at isBreak
  rcases isBreak with rfl | rfl <;> rfl

theorem isBlank_of_mem_break {front : List Char} (isBreak : front ∈ [['\n'], ['\r', '\n']]) :
    ∀ char ∈ front, isBlank char = true := by
  simp only [List.mem_cons, List.not_mem_nil, or_false] at isBreak
  rcases isBreak with rfl | rfl <;> simp [isBlank, isWithin, blankRanges]

/-- No line break is next after the blanks. -/
theorem breakLength_dropWhile (text : List Char) : breakLength (text.dropWhile isBlank) = 0 := by
  have notBlank := List.head?_dropWhile_not isBlank text
  unfold breakLength
  split
  · next same =>
    rw [same] at notBlank
    simp [isBlank, isWithin, blankRanges] at notBlank
  · next same =>
    rw [same] at notBlank
    simp [isBlank, isWithin, blankRanges] at notBlank
  · rfl

end Text

namespace Token

/-- What is left of a token without the line break that it begins with. -/
def withoutBreak (token : Token) : List Token :=
  let text := token.text.toList
  let count := Text.breakLength text
  if count = 0 then [token]
  else if text.drop count = [] then []
  else [{ token with
    text := String.ofList (text.drop count)
    position := token.position.advanceOver (text.take count) }]

/-- What is left of a token that begins with a line break. -/
theorem withoutBreak_of_break {token : Token} {front rest : List Char}
    (shows : token.text.toList = front ++ rest) (isBreak : front ∈ [['\n'], ['\r', '\n']]) :
    token.withoutBreak = if rest = [] then [] else
      [{ token with
        text := String.ofList rest
        position := token.position.advanceOver front }] := by
  have nonempty : front ≠ [] := by
    rintro rfl
    simp at isBreak
  simp only [Token.withoutBreak, shows, Text.breakLength_append_ne_zero isBreak,
    List.length_eq_zero_iff, nonempty, if_false, List.drop_left, List.take_left]

/-- Whether a token opens a tag that takes the rest of its line. -/
def opensLine (dialect : Dialect) (token : Token) : Bool :=
  token.position.column = 1 && dialect.lineStatement.any fun marker =>
    marker.toList = token.text.toList.dropWhile fun char => char = ' ' ∨ char = '\t'

end Token

/-- What the tokens up to a place say about a line break that comes next. -/
structure Trimming where
  /-- The last block tag takes the rest of its line. -/
  inLine : Bool
  /-- The line break is to be dropped. -/
  asks : Bool

namespace Trimming

/-- Before the first token. -/
def start : Trimming := ⟨false, false⟩

/-- After one more token. -/
def after (dialect : Dialect) (trimming : Trimming) (token : Token) : Trimming :=
  match token.kind with
  | .blockBegin => ⟨token.opensLine dialect, false⟩
  | .blockEnd => ⟨trimming.inLine, !trimming.inLine⟩
  | .commentEnd | .rawEnd => ⟨trimming.inLine, true⟩
  | _ => ⟨trimming.inLine, false⟩

/-- What is left of the next token. -/
def keep (trimming : Trimming) (token : Token) : List Token :=
  if trimming.asks = true ∧ token.kind = .data then token.withoutBreak else [token]

/-- Tokens without the line breaks that are to be dropped. -/
def dropBreaks (dialect : Dialect) : Trimming → List Token → List Token
  | _, [] => []
  | trimming, token :: tokens =>
    trimming.keep token ++ dropBreaks dialect (trimming.after dialect token) tokens

variable {dialect : Dialect} {trimming : Trimming} {token : Token}

theorem keep_eq_self (notData : trimming.asks = true → token.kind ≠ .data) :
    trimming.keep token = [token] :=
  if_neg fun ⟨asks, isData⟩ => notData asks isData

@[simp]
theorem reverse_keep (trimming : Trimming) (token : Token) :
    (trimming.keep token).reverse = trimming.keep token := by
  simp only [keep, Token.withoutBreak]
  repeat' split
  all_goals rfl

theorem dropBreaks_append (trimming : Trimming) (first second : List Token) :
    dropBreaks dialect trimming (first ++ second) =
      dropBreaks dialect trimming first ++
        dropBreaks dialect (first.foldl (after dialect) trimming) second := by
  induction first generalizing trimming with
  | nil => rfl
  | cons token first ih =>
      rw [List.cons_append, dropBreaks, ih, dropBreaks, List.append_assoc, List.foldl_cons]

/-- Which line breaks are dropped does not depend on whether the dialect asks for that. -/
theorem dropBreaks_trimBlocks (trim : Bool) (trimming : Trimming) (tokens : List Token) :
    dropBreaks { dialect with trimBlocks := trim } trimming tokens =
      dropBreaks dialect trimming tokens := by
  induction tokens generalizing trimming with
  | nil => rfl
  | cons token tokens ih =>
      rw [dropBreaks, ih, dropBreaks]
      rfl

/-- Only a token that closes a tag, a comment or a raw block asks for a line break to be dropped. -/
theorem ne_data_of_asks (asks : (trimming.after dialect token).asks = true) :
    token.kind ≠ .data := by
  intro isData
  simp [after, isData] at asks

end Trimming

/-- Tokens, last one first, and what is left of them without the line breaks after tags. -/
inductive Trims (dialect : Dialect) : List Token → List Token → Trimming → Prop where
  | nil : Trims dialect [] [] .start
  | cons {tokens kept : List Token} {trimming : Trimming} (token : Token)
      (trims : Trims dialect tokens kept trimming) :
      Trims dialect (token :: tokens) (trimming.keep token ++ kept) (trimming.after dialect token)

namespace Trims

variable {dialect : Dialect} {tokens kept : List Token} {trimming : Trimming} {token : Token}

theorem foldl_reverse (trims : Trims dialect tokens kept trimming) :
    tokens.reverse.foldl (Trimming.after dialect) .start = trimming := by
  induction trims with
  | nil => rfl
  | cons token trims ih => rw [List.reverse_cons, List.foldl_append, ih]; rfl

/-- In reading order, what is left is what `dropBreaks` leaves. -/
theorem reverse_eq (trims : Trims dialect tokens kept trimming) :
    kept.reverse = Trimming.dropBreaks dialect .start tokens.reverse := by
  induction trims with
  | nil => rfl
  | cons token trims ih =>
      rw [List.reverse_append, Trimming.reverse_keep, List.reverse_cons,
        Trimming.dropBreaks_append, ih, trims.foldl_reverse, Trimming.dropBreaks,
        Trimming.dropBreaks, List.append_nil]

/-- Where no line break is to be dropped, a token is left as it is. -/
theorem cons_of_keeps (trims : Trims dialect tokens kept trimming)
    (keeps : trimming.asks = true → token.kind = .data → Text.breakLength token.text.toList = 0) :
    Trims dialect (token :: tokens) (token :: kept) (trimming.after dialect token) := by
  have added := trims.cons token
  have unchanged : trimming.keep token = [token] := by
    unfold Trimming.keep
    split
    · next asked =>
      simp [Token.withoutBreak, keeps asked.1 asked.2]
    · rfl
  rwa [unchanged] at added

/-- A token that is not plain text is left as it is. -/
theorem cons_of_ne_data (trims : Trims dialect tokens kept trimming)
    (notData : token.kind ≠ .data) :
    Trims dialect (token :: tokens) (token :: kept) (trimming.after dialect token) :=
  trims.cons_of_keeps fun _ isData => absurd isData notData

/-- The token that asks for a line break to be dropped is left, and it is not plain text. -/
theorem exists_of_asks (trims : Trims dialect tokens kept trimming)
    (asks : trimming.asks = true) : ∃ last older, kept = last :: older ∧ last.kind ≠ .data := by
  cases trims with
  | nil => simp [Trimming.start] at asks
  | @cons _ older _ token trims =>
      have notData := Trimming.ne_data_of_asks asks
      exact ⟨token, older, by rw [Trimming.keep_eq_self fun _ => notData]; rfl, notData⟩

end Trims

end Stencil

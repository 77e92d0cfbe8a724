import Stencil.Expr.Basic
import Stencil.SyntaxError
import Stencil.Token.Stream

/-!
# Reading tokens

The steps from which grammar rules are built. A rule reads the significant tokens of a stream from
a cursor on and either succeeds with a value or fails with an error; the cursor is left where the
rule stopped in both cases.
-/

namespace Stencil

/-- A rule over the tokens of a stream; its state is the index of the next token. -/
abbrev Reading (α : Type) := ReaderT TokenStream (EStateM SyntaxError Nat) α

/-- Repeats `step` for as long as it asks for more, `cursor` being the index that a state stands
at. A step that asks for more without having read a token is the last one, so that the repetition
always ends. -/
def repeatFrom {σ α : Type} (cursor : σ → Nat)
    (step : α → ReaderT TokenStream (EStateM SyntaxError σ) (ForInStep α)) (value : α)
    (stream : TokenStream) (state : σ) : EStateM.Result SyntaxError σ α :=
  match step value stream state with
  | .error error state => .error error state
  | .ok (.done value) state => .ok value state
  | .ok (.yield value) after =>
    if cursor state < cursor after ∧ cursor state < stream.size then
      repeatFrom cursor step value stream after
    else .ok value after
termination_by stream.size - cursor state

namespace Reading

/-- The next token. -/
def current : Reading Token := fun stream cursor =>
  .ok (stream.get cursor) cursor

/-- The token `count` tokens after the next one. -/
def peek (count : Nat) : Reading Token := fun stream cursor =>
  .ok (stream.get (cursor + count)) cursor

/-- Reads the next token; the last token of a stream is never passed. -/
def advance : Reading Token := fun stream cursor =>
  .ok (stream.get cursor) (stream.next cursor)

/-- Repeats `step` for as long as it asks for more. -/
def loop {α : Type} (step : α → Reading (ForInStep α)) (value : α) : Reading α :=
  repeatFrom id step value

/-- The origin of a node that starts on a line. -/
def originAt (line : Nat) : Reading Origin := fun stream cursor =>
  .ok ⟨line, stream.sourceName⟩ cursor

/-- Fails because a token is not what was expected. -/
def refuse {α : Type} (token : Token) (expected : String) : Reading α :=
  throw (.ofToken token expected)

/-- Reads a token of a given kind. -/
def expect (kind : Token.Kind) (expected : String) : Reading Token := do
  let token ← current
  if token.kind = kind then advance else refuse token expected

/-- Reads a name or reserved word with a given spelling. -/
def expectWord (word : String) : Reading Unit := do
  let token ← current
  if token.isWord word then
    let _ ← advance
  else refuse token s!"'{word}'"

/-- Reads the end of a block tag. -/
def expectBlockEnd : Reading Token :=
  expect .blockEnd "end of block tag"

/-- Reads the next token if it is of a given kind, and says whether it was. -/
def skipIf (kind : Token.Kind) : Reading Bool := do
  if (← current).kind = kind then
    let _ ← advance
    return true
  else return false

/-- Reads the next token if it is a word with a given spelling, and says whether it was. -/
def skipWord (word : String) : Reading Bool := do
  if (← current).isWord word then
    let _ ← advance
    return true
  else return false

/-- Reads a name. -/
def identifier : Reading String := do
  let token ← current
  if token.kind = .name then
    let _ ← advance
    return token.text
  else refuse token "name"

/-- Reads a point and the name after it. A point that no name follows is left alone. -/
def dottedStep (name : String) : Reading (ForInStep String) := do
  if (← current).kind = .dot ∧ (← peek 1).kind = .name then
    let _ ← advance
    let part ← advance
    return .yield (name ++ "." ++ part.text)
  else return .done name

/-- Reads names joined by points. -/
def dottedName : Reading String := do
  loop dottedStep (← identifier)

/-- Reads the next of several items with commas between them, unless a closing token is next. A
comma may stand before the closing token. -/
def commaStep {α : Type} (close : Token.Kind) (expected : String) (isEmpty : α → Bool)
    (item : α → Reading α) (items : α) : Reading (ForInStep α) := do
  if (← current).kind = close then return .done items
  else if isEmpty items then return .yield (← item items)
  else
    let _ ← expect .comma expected
    if (← current).kind = close then return .done items
    else return .yield (← item items)

/-- Reads items with commas between them up to a closing token, which is read too. -/
def commaList {α : Type} (close : Token.Kind) (expected : String) (isEmpty : α → Bool)
    (item : α → Reading α) (none : α) : Reading α := do
  let items ← loop (commaStep close expected isEmpty item) none
  let _ ← advance
  return items

end Reading

end Stencil

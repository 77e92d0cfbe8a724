import Stencil.Expr.Parse

/-!
# Parsing statements

Rules for statements keep track of how deeply they are nested, beside the cursor. The nesting is
part of the state, since an extension may change it for the statements that follow its tag.
-/

namespace Stencil

/-- Where a parse has come to. -/
structure Place where
  /-- The index of the next token. -/
  cursor : Nat := 0
  /-- The number of constructs that are open. -/
  depth : Nat := 0
  /-- The names of the open constructs, outermost first, as far as there is room. -/
  trail : List String := []
deriving DecidableEq, Repr

namespace Place

variable [Limits] (place : Place)

/-- The number of levels of nesting that are left. -/
def levels : Nat := maxDepth - place.depth

/-- One construct deeper. -/
def entered (construct : String) : Place :=
  { place with
    depth := place.depth + 1
    trail := if place.trail.length < maxTrail then place.trail ++ [construct] else place.trail }

/-- One construct less deep; outside of all constructs nothing changes. -/
def left : Place :=
  { place with depth := place.depth - 1, trail := place.trail.take (place.depth - 1) }

/-- The open constructs as one text. -/
def describeTrail : String :=
  Text.join " > " place.trail

end Place

/-- A rule for statements. -/
abbrev Parsing (α : Type) := ReaderT TokenStream (EStateM SyntaxError Place) α

namespace Parsing

variable [Limits]

/-- A rule over tokens, used without a change of nesting. -/
def ofReading {α : Type} (rule : Reading α) : Parsing α := fun stream place =>
  match rule stream place.cursor with
  | .ok value cursor => .ok value { place with cursor }
  | .error error cursor => .error error { place with cursor }

instance : MonadLift (ReaderT TokenStream (EStateM SyntaxError Nat))
    (ReaderT TokenStream (EStateM SyntaxError Place)) :=
  ⟨ofReading⟩

/-- Repeats `step` for as long as it asks for more. -/
def loop {α : Type} (step : α → Parsing (ForInStep α)) (value : α) : Parsing α :=
  repeatFrom Place.cursor step value

/-- Where the parse has come to. -/
def here : Parsing Place := fun _ place =>
  .ok place place

/-- Goes one construct deeper, if there is a level left. -/
def enter (construct : String) : Parsing Unit := fun stream place =>
  if maxDepth ≤ place.depth then
    .error (.tooDeep maxDepth (stream.get place.cursor).span) place
  else .ok () (place.entered construct)

/-- Goes back to the construct around the innermost one. -/
def leave : Parsing Unit := fun _ place =>
  .ok () place.left

/-- Uses a rule one construct deeper; the construct is left whether or not the rule succeeds. -/
def nested {α : Type} (construct : String) (rule : Parsing α) : Parsing α := fun stream place =>
  match enter construct stream place with
  | .error error place => .error error place
  | .ok _ place => match rule stream place with
    | .error error place => .error error place.left
    | .ok value place => .ok value place.left

/-- Goes to the token at an index, or to the last one. -/
def moveTo (cursor : Nat) : Parsing Unit := fun stream place =>
  .ok () { place with cursor := stream.clamp cursor }

/-- Uses rules for expressions with the levels of nesting that are left. -/
def withDeeper {α : Type} (rule : Expr.Deeper → Reading α) : Parsing α := fun stream place =>
  ofReading (rule (Expr.deeper place.levels)) stream place

/-- Reads an expression. -/
def expression : Parsing Expr := fun stream place =>
  ofReading (Expr.parse place.levels) stream place

/-- Reads an expression that is not a conditional one. -/
def unconditional : Parsing Expr := fun stream place =>
  ofReading (Expr.parseUnconditional place.levels) stream place

end Parsing

end Stencil

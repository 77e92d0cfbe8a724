import Mathlib
import Stencil.Expr.Basic
import Stencil.Lexer.Lexeme
import Stencil.Literal

/-!
# Printing expressions

The written form of an expression. A subexpression is put in parentheses exactly where its level of
precedence is looser than its place allows: the left operand of an operator may be of the
operator's own level, the right one has to be tighter. Tests and filters always have their
arguments in parentheses, and one space stands between two tokens.

Not every tree has a written form. `Expr.Printable` says which trees do: names are words that are
not reserved, integers fit into 64 bits and have no sign, and slices stand between brackets only.
Floats are left out.
-/

namespace Stencil

/-- A token as it is written. -/
structure Lexeme where
  kind : Token.Kind
  text : String
deriving DecidableEq, Repr

namespace Lexeme

/-- The token of an operator or punctuation mark. -/
def symbol (spelling : String) : Lexeme :=
  ⟨(Token.Kind.ofSymbol? spelling).getD .data, spelling⟩

/-- The token of a word. -/
def word (spelling : String) : Lexeme :=
  ⟨Lexer.wordKind spelling, spelling⟩

/-- A text with one space between neighbouring tokens. -/
def spaced (lexemes : List Lexeme) : String :=
  Text.join " " (lexemes.map text)

end Lexeme

/-! ### Levels of precedence -/

/-- The levels of precedence, loosest first. -/
inductive Level where
  | conditional | disjunction | conjunction | negation | comparison | test | filter | sum
  | product | power | unary | suffix | primary
deriving DecidableEq, Repr

namespace Level

/-- The place of a level, counted from the loosest. -/
def rank : Level → Nat
  | conditional => 0
  | disjunction => 1
  | conjunction => 2
  | negation => 3
  | comparison => 4
  | test => 5
  | filter => 6
  | sum => 7
  | product => 8
  | power => 9
  | unary => 10
  | suffix => 11
  | primary => 12

/-- The next tighter level. -/
def tighter : Level → Level
  | conditional => disjunction
  | disjunction => conjunction
  | conjunction => negation
  | negation => comparison
  | comparison => test
  | test => filter
  | filter => sum
  | sum => product
  | product => power
  | power => unary
  | unary => suffix
  | suffix | primary => primary

/-- The tokens of an expression of a given level, in parentheses if its place needs a tighter
one. -/
def enclose (place level : Level) (lexemes : List Lexeme) : List Lexeme :=
  if level.rank < place.rank then .symbol "(" :: lexemes ++ [.symbol ")"] else lexemes

/-- The number of levels of nesting that these parentheses take. -/
def enclosure (place level : Level) : Nat :=
  if level.rank < place.rank then 1 else 0

end Level

/-- The level of an operator between two operands. -/
def BinaryOp.level : BinaryOp → Level
  | or_ => .disjunction
  | and_ => .conjunction
  | eq | ne | lt | le | gt | ge | in_ | notIn => .comparison
  | add | sub | concat => .sum
  | mul | div | floorDiv | mod => .product
  | pow => .power

/-- The tokens of an operator between two operands. -/
def BinaryOp.lexemes : BinaryOp → List Lexeme
  | in_ => [.word "in"]
  | notIn => [.word "not", .word "in"]
  | and_ => [.word "and"]
  | or_ => [.word "or"]
  | op => [.symbol op.spelling]

/-- The level of an operator before one operand. -/
def UnaryOp.level : UnaryOp → Level
  | pos | neg | invert => .unary
  | not_ => .negation

/-- The token of an operator before one operand. -/
def UnaryOp.lexeme : UnaryOp → Lexeme
  | not_ => .word "not"
  | op => .symbol op.spelling

/-! ### Literals -/

namespace Literal

/-- How a character is written between double quotes. -/
def escape (char : Char) : List Char :=
  if char = '\n' then ['\\', 'n']
  else if char = '\t' then ['\\', 't']
  else if char = '\r' then ['\\', 'r']
  else if char = '\\' ∨ char = '"' then ['\\', char]
  else [char]

/-- A string literal with a given value. -/
def quote (value : String) : String :=
  String.ofList ('"' :: value.toList.flatMap escape ++ ['"'])

/-- An integer literal with a given value, which is not negative. -/
def decimal (value : Int) : String :=
  String.ofList (Nat.toDigits 10 value.toNat)

end Literal

namespace Expr

/-- The level of an expression. A slice is none, and has the loosest one. -/
def level : Expr → Level
  | conditional .. | slice .. => .conditional
  | binary _ op _ _ => op.level
  | unary _ op _ => op.level
  | test .. => .test
  | filter .. => .filter
  | call .. | attr .. | item .. => .suffix
  | name .. | string .. | integer .. | float .. | boolean .. | null .. | list .. => .primary

/-- The tokens of names joined by points. -/
def dotted (name : String) : List Lexeme :=
  [Lexeme.symbol "."].intercalate
    ((name.toList.splitOn '.').map fun part => [.word (String.ofList part)])

/-- Texts with commas between them. -/
def separated (pieces : List (List Lexeme)) : List Lexeme :=
  [Lexeme.symbol ","].intercalate pieces

mutual

/-- The tokens of an expression. -/
def lexemes : Expr → List Lexeme
  | name _ id => [.word id]
  | string _ value => [⟨.string, Literal.quote value⟩]
  | integer _ value => [⟨.integer, Literal.decimal value⟩]
  | float .. => []
  | boolean _ value => [.word (if value then "true" else "false")]
  | null _ => [.word "null"]
  | list _ items => .symbol "[" :: separated (itemLexemes items) ++ [.symbol "]"]
  | binary _ op left right =>
    op.level.enclose left.level left.lexemes ++ op.lexemes ++
      op.level.tighter.enclose right.level right.lexemes
  | unary _ op operand => op.lexeme :: op.level.enclose operand.level operand.lexemes
  | conditional _ condition value otherwise =>
    Level.disjunction.enclose value.level value.lexemes ++ .word "if" ::
      Level.disjunction.enclose condition.level condition.lexemes ++
      optionalLexemes [.word "else"] otherwise
  | call _ callee args kwargs =>
    Level.suffix.enclose callee.level callee.lexemes ++ .symbol "(" ::
      separated (itemLexemes args ++ namedLexemes kwargs) ++ [.symbol ")"]
  | filter _ value called args kwargs =>
    Level.filter.enclose value.level value.lexemes ++ .symbol "|" :: dotted called ++
      .symbol "(" :: separated (itemLexemes args ++ namedLexemes kwargs) ++ [.symbol ")"]
  | test _ value called args kwargs negated =>
    Level.test.enclose value.level value.lexemes ++ .word "is" ::
      (if negated then [.word "not"] else []) ++ dotted called ++
      .symbol "(" :: separated (itemLexemes args ++ namedLexemes kwargs) ++ [.symbol ")"]
  | attr _ value member =>
    Level.suffix.enclose value.level value.lexemes ++ [.symbol ".", .word member]
  | item _ value index =>
    Level.suffix.enclose value.level value.lexemes ++ .symbol "[" :: index.lexemes ++
      [.symbol "]"]
  | slice _ start stop step =>
    optionalLexemes [] start ++ .symbol ":" :: optionalLexemes [] stop ++
      optionalLexemes [.symbol ":"] step

/-- The tokens of each expression of a list. -/
def itemLexemes : List Expr → List (List Lexeme)
  | [] => []
  | expr :: rest => expr.lexemes :: itemLexemes rest

/-- The tokens of each keyword argument. -/
def namedLexemes : List (Named Expr) → List (List Lexeme)
  | [] => []
  | ⟨key, expr⟩ :: rest => (.word key :: .symbol "=" :: expr.lexemes) :: namedLexemes rest

/-- The tokens of an expression that may be missing, after those that come with it. -/
def optionalLexemes (before : List Lexeme) : Option Expr → List Lexeme
  | none => []
  | some expr => before ++ expr.lexemes

end

/-- The written form of an expression. -/
def print (expr : Expr) : String :=
  Lexeme.spaced expr.lexemes

/-! ### Nesting -/

mutual

/-- The number of levels of nesting that the written form of an expression takes: parentheses,
brackets, signs, negations and the part after `else` take one each. -/
def nesting : Expr → Nat
  | name .. | string .. | integer .. | float .. | boolean .. | null .. => 0
  | list _ items => itemNesting items
  | binary _ op left right =>
    max (left.nesting + op.level.enclosure left.level)
      (right.nesting + op.level.tighter.enclosure right.level)
  | unary _ op operand => operand.nesting + op.level.enclosure operand.level + 1
  | conditional _ condition value otherwise =>
    max (value.nesting + Level.disjunction.enclosure value.level)
      (max (condition.nesting + Level.disjunction.enclosure condition.level)
        (optionalNesting otherwise))
  | call _ callee args kwargs =>
    max (callee.nesting + Level.suffix.enclosure callee.level)
      (max (itemNesting args) (namedNesting kwargs))
  | filter _ value _ args kwargs =>
    max (value.nesting + Level.filter.enclosure value.level)
      (max (itemNesting args) (namedNesting kwargs))
  | test _ value _ args kwargs _ =>
    max (value.nesting + Level.test.enclosure value.level)
      (max (itemNesting args) (namedNesting kwargs))
  | attr _ value _ => value.nesting + Level.suffix.enclosure value.level
  | item _ value index =>
    max (value.nesting + Level.suffix.enclosure value.level)
      (match index with
        | slice .. => index.nesting
        | _ => index.nesting + 1)
  | slice _ start stop step =>
    max (optionalNesting start) (max (optionalNesting stop) (optionalNesting step))

/-- The levels of nesting that the expressions of a list take, one level below it. -/
def itemNesting : List Expr → Nat
  | [] => 0
  | expr :: rest => max (expr.nesting + 1) (itemNesting rest)

/-- The levels of nesting that keyword arguments take, one level below the call. -/
def namedNesting : List (Named Expr) → Nat
  | [] => 0
  | ⟨_, expr⟩ :: rest => max (expr.nesting + 1) (namedNesting rest)

/-- The levels of nesting that an expression takes one level down, if there is one. -/
def optionalNesting : Option Expr → Nat
  | none => 0
  | some expr => expr.nesting + 1

end

theorem itemNesting_eq_foldr (items : List Expr) :
    itemNesting items = items.foldr (fun item => max (item.nesting + 1)) 0 := by
  induction items with
  | nil => rfl
  | cons item items ih => rw [itemNesting, ih, List.foldr_cons]

theorem namedNesting_eq_foldr (named : List (Named Expr)) :
    namedNesting named = named.foldr (fun each => max (each.value.nesting + 1)) 0 := by
  induction named with
  | nil => rfl
  | cons each named ih => rw [namedNesting, ih, List.foldr_cons]

/-! ### Trees that have a written form -/

/-- Whether a text is a word. -/
def isWord (text : List Char) : Bool :=
  match text with
  | [] => false
  | char :: rest => Lexer.isWordStart char && rest.all Lexer.isWordChar

/-- Whether a word can be used as a name. -/
def isFreeName (word : String) : Bool :=
  isWord word.toList && !isReserved word

/-- Whether a word can stand after a point. -/
def isMemberName (word : String) : Bool :=
  isWord word.toList && (LiteralWord.ofSpelling? word).isNone

/-- Whether a text consists of names joined by points. -/
def isDottedName (name : String) : Bool :=
  (name.toList.splitOn '.').all fun part => isFreeName (String.ofList part)

/-- Whether a text can name a test. -/
def isTestName (name : String) : Bool :=
  isDottedName name || name ∈ ["true", "false", "null", "in"]

/-- Expressions that have a written form. -/
inductive Printable : Expr → Prop where
  | name (origin : Origin) {id : String} (free : isFreeName id = true) :
      Printable (name origin id)
  | string (origin : Origin) (value : String) : Printable (string origin value)
  | integer (origin : Origin) {value : Int} (notNegative : 0 ≤ value)
      (fits : value ≤ Literal.maxInteger) : Printable (integer origin value)
  | boolean (origin : Origin) (value : Bool) : Printable (boolean origin value)
  | null (origin : Origin) : Printable (null origin)
  | list (origin : Origin) {items : List Expr} (each : ∀ item ∈ items, Printable item) :
      Printable (list origin items)
  | binary (origin : Origin) (op : BinaryOp) {left right : Expr} (first : Printable left)
      (second : Printable right) : Printable (binary origin op left right)
  | unary (origin : Origin) (op : UnaryOp) {operand : Expr} (inner : Printable operand) :
      Printable (unary origin op operand)
  | conditional (origin : Origin) {condition value : Expr} {otherwise : Option Expr}
      (first : Printable condition) (second : Printable value)
      (third : ∀ expr ∈ otherwise, Printable expr) :
      Printable (conditional origin condition value otherwise)
  | call (origin : Origin) {callee : Expr} {args : List Expr} {kwargs : List (Named Expr)}
      (called : Printable callee) (each : ∀ arg ∈ args, Printable arg)
      (free : ∀ kwarg ∈ kwargs, isFreeName kwarg.name = true)
      (eachNamed : ∀ kwarg ∈ kwargs, Printable kwarg.value) :
      Printable (call origin callee args kwargs)
  | filter (origin : Origin) {value : Expr} {name : String} {args : List Expr}
      {kwargs : List (Named Expr)} (filtered : Printable value)
      (isName : isDottedName name = true) (each : ∀ arg ∈ args, Printable arg)
      (free : ∀ kwarg ∈ kwargs, isFreeName kwarg.name = true)
      (eachNamed : ∀ kwarg ∈ kwargs, Printable kwarg.value) :
      Printable (filter origin value name args kwargs)
  | test (origin : Origin) {value : Expr} {name : String} {args : List Expr}
      {kwargs : List (Named Expr)} (negated : Bool) (tested : Printable value)
      (isName : isTestName name = true) (each : ∀ arg ∈ args, Printable arg)
      (free : ∀ kwarg ∈ kwargs, isFreeName kwarg.name = true)
      (eachNamed : ∀ kwarg ∈ kwargs, Printable kwarg.value) :
      Printable (test origin value name args kwargs negated)
  | attr (origin : Origin) {value : Expr} {name : String} (inner : Printable value)
      (isName : isMemberName name = true) : Printable (attr origin value name)
  | item (origin : Origin) {value index : Expr} (inner : Printable value)
      (second : Printable index) : Printable (item origin value index)
  | sliced (origin origin' : Origin) {value : Expr} {start stop step : Option Expr}
      (inner : Printable value) (first : ∀ expr ∈ start, Printable expr)
      (second : ∀ expr ∈ stop, Printable expr) (third : ∀ expr ∈ step, Printable expr) :
      Printable (item origin value (slice origin' start stop step))

/-- A slice is no expression of its own. -/
theorem nesting_item_of_printable (origin : Origin) {value index : Expr}
    (printable : Printable index) : (item origin value index).nesting =
      max (value.nesting + Level.suffix.enclosure value.level) (index.nesting + 1) := by
  rw [nesting]
  rintro _ _ _ _ rfl
  cases printable

/-! ### Trees without their origins -/

mutual

/-- An expression without the lines and the template name that its nodes carry. -/
def forgetOrigins : Expr → Expr
  | name _ id => name ⟨0, none⟩ id
  | string _ value => string ⟨0, none⟩ value
  | integer _ value => integer ⟨0, none⟩ value
  | float _ value => float ⟨0, none⟩ value
  | boolean _ value => boolean ⟨0, none⟩ value
  | null _ => null ⟨0, none⟩
  | list _ items => list ⟨0, none⟩ (forgetItems items)
  | binary _ op left right => binary ⟨0, none⟩ op left.forgetOrigins right.forgetOrigins
  | unary _ op operand => unary ⟨0, none⟩ op operand.forgetOrigins
  | conditional _ condition value otherwise =>
    conditional ⟨0, none⟩ condition.forgetOrigins value.forgetOrigins (forgetOptional otherwise)
  | call _ callee args kwargs =>
    call ⟨0, none⟩ callee.forgetOrigins (forgetItems args) (forgetNamed kwargs)
  | filter _ value called args kwargs =>
    filter ⟨0, none⟩ value.forgetOrigins called (forgetItems args) (forgetNamed kwargs)
  | test _ value called args kwargs negated =>
    test ⟨0, none⟩ value.forgetOrigins called (forgetItems args) (forgetNamed kwargs) negated
  | attr _ value member => attr ⟨0, none⟩ value.forgetOrigins member
  | item _ value index => item ⟨0, none⟩ value.forgetOrigins index.forgetOrigins
  | slice _ start stop step =>
    slice ⟨0, none⟩ (forgetOptional start) (forgetOptional stop) (forgetOptional step)

/-- The expressions of a list without their origins. -/
def forgetItems : List Expr → List Expr
  | [] => []
  | expr :: rest => expr.forgetOrigins :: forgetItems rest

/-- Named expressions without their origins. -/
def forgetNamed : List (Named Expr) → List (Named Expr)
  | [] => []
  | ⟨key, expr⟩ :: rest => ⟨key, expr.forgetOrigins⟩ :: forgetNamed rest

/-- An expression that may be missing, without its origins. -/
def forgetOptional : Option Expr → Option Expr
  | none => none
  | some expr => some expr.forgetOrigins

end

end Expr

end Stencil

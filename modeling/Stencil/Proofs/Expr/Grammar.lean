import Stencil.Proofs.Expr.Passing
import Stencil.Proofs.Expr.Printing
import Stencil.Proofs.Parse.Accounting

/-!
# The grammar of expressions as a relation

Which words of tokens spell which expression, level by level:

```text
conditional   ::= disjunction ("if" disjunction ("else" conditional)?)*
disjunction   ::= conjunction ("or" conjunction)*
conjunction   ::= negation ("and" negation)*
negation      ::= "not" negation | comparison
comparison    ::= test (("==" | "!=" | "<" | "<=" | ">" | ">=" | "in" | "not" "in") test)*
test          ::= filter ("is" "not"? test_name (arguments | unary)?)*
filter        ::= sum ("|" name arguments?)*
sum           ::= product (("+" | "-" | "~") product)*
product       ::= power (("*" | "/" | "//" | "%") power)*
power         ::= unary ("**" unary)*
unary         ::= ("+" | "-" | "~") unary | suffix
suffix        ::= primary ("." word | "." integer | "[" subscript "]" | arguments)*
primary       ::= name | literal | list | "(" conditional ")"
list          ::= "[" (conditional ("," conditional)* ","?)? "]"
arguments     ::= "(" (argument ("," argument)* ","?)? ")", named arguments after the others
subscript     ::= conditional | conditional? ":" conditional? (":" conditional?)?
```

A repetition in a rule is spelt as a rule that leads to itself on the left, so that operators
associate to the left. Nodes carry the line on which their first part starts.
-/

namespace Stencil

namespace Expr

/-- The tokens of an operator between two operands. -/
inductive SpellsOperator : List Token → BinaryOp → Prop where
  | single {token : Token} {op : BinaryOp} (spells : BinaryOp.ofKind? token.kind = some op) :
      SpellsOperator [token] op
  | notIn {first second : Token} (isNot : first.kind = .keyword .not_)
      (isIn : second.kind = .keyword .in_) : SpellsOperator [first, second] .notIn

/-- The tokens between `is` and the name of a test. -/
inductive SpellsNegation : List Token → Bool → Prop where
  | plain : SpellsNegation [] false
  | not_ {token : Token} (isNot : token.kind = .keyword .not_) : SpellsNegation [token] true

/-- The tokens of the name of a test. -/
inductive SpellsTest : List Token → String → Prop where
  | literal {token : Token} (isLiteral : token.kind = .boolean ∨ token.kind = .null) :
      SpellsTest [token] (Text.lower token.text)
  | in_ {token : Token} (isIn : token.kind = .keyword .in_) : SpellsTest [token] token.text
  | dotted {word : List Token} {name : String} (isName : DottedName word name) :
      SpellsTest word name

/-- Strings next to each other, and the value that they have together. -/
inductive JoinsStrings : List Token → String → Prop where
  | nil : JoinsStrings [] ""
  | snoc {word : List Token} {value : String} {token : Token} (before : JoinsStrings word value)
      (isString : token.kind = .string) : JoinsStrings (word ++ [token])
        (value ++ String.ofList (Literal.stringValue token.text.toList))

/-- The tokens of a literal. -/
inductive SpellsLiteral (sourceName : Option String) : List Token → Expr → Prop where
  | string {token : Token} {word : List Token} {value : String}
      (joins : JoinsStrings (token :: word) value) :
      SpellsLiteral sourceName (token :: word) (.string ⟨token.line, sourceName⟩ value)
  | integer {token : Token} {value : Int} (isInteger : token.kind = .integer)
      (hasValue : Literal.readInteger token.text.toList = .ok value) :
      SpellsLiteral sourceName [token] (.integer ⟨token.line, sourceName⟩ value)
  | float {token : Token} {value : Binary64} (isFloat : token.kind = .float)
      (hasValue : Literal.readFloat token.text.toList = .ok value) :
      SpellsLiteral sourceName [token] (.float ⟨token.line, sourceName⟩ value)
  | boolean {token : Token} (isBoolean : token.kind = .boolean) :
      SpellsLiteral sourceName [token] (.boolean ⟨token.line, sourceName⟩ (token.text = "true"))
  | null {token : Token} (isNull : token.kind = .null) :
      SpellsLiteral sourceName [token] (.null ⟨token.line, sourceName⟩)

mutual

/-- A word of tokens spells an expression of a level or of a tighter one. -/
inductive Derives (sourceName : Option String) : Level → List Token → Expr → Prop where
  | loosen {level : Level} {word : List Token} {expr : Expr}
      (inner : Derives sourceName level.tighter word expr) : Derives sourceName level word expr
  | onlyIf {if_ : Token} {first second : List Token} {value condition : Expr}
      (isIf : if_.kind = .keyword .if_) (before : Derives sourceName .conditional first value)
      (test : Derives sourceName .disjunction second condition) :
      Derives sourceName .conditional (first ++ if_ :: second)
        (.conditional ⟨value.line, sourceName⟩ condition value none)
  | ifElse {if_ else_ : Token} {first second third : List Token} {value condition otherwise : Expr}
      (isIf : if_.kind = .keyword .if_) (isElse : else_.kind = .keyword .else_)
      (before : Derives sourceName .conditional first value)
      (test : Derives sourceName .disjunction second condition)
      (last : Derives sourceName .conditional third otherwise) :
      Derives sourceName .conditional (first ++ if_ :: second ++ else_ :: third)
        (.conditional ⟨value.line, sourceName⟩ condition value (some otherwise))
  | binary {op : BinaryOp} {first operator second : List Token} {left right : Expr}
      (before : Derives sourceName op.level first left) (isOperator : SpellsOperator operator op)
      (after : Derives sourceName op.level.tighter second right) :
      Derives sourceName op.level (first ++ operator ++ second)
        (.binary ⟨left.line, sourceName⟩ op left right)
  | not_ {token : Token} {word : List Token} {operand : Expr}
      (isNot : token.kind = .keyword .not_) (inner : Derives sourceName .negation word operand) :
      Derives sourceName .negation (token :: word)
        (.unary ⟨token.line, sourceName⟩ .not_ operand)
  | test {is_ : Token} {first negation called arguments : List Token} {value : Expr}
      {name : String} {args : List Expr} {kwargs : List (Named Expr)} {negated : Bool}
      (before : Derives sourceName .test first value) (isIs : is_.kind = .keyword .is_)
      (isNegation : SpellsNegation negation negated) (isName : SpellsTest called name)
      (given : DerivesTestArguments sourceName arguments args kwargs) :
      Derives sourceName .test (first ++ is_ :: negation ++ called ++ arguments)
        (.test ⟨value.line, sourceName⟩ value name args kwargs negated)
  | filter {pipe : Token} {first called arguments : List Token} {value : Expr} {name : String}
      {args : List Expr} {kwargs : List (Named Expr)}
      (before : Derives sourceName .filter first value) (isPipe : pipe.kind = .pipe)
      (isName : DottedName called name)
      (given : DerivesGiven sourceName arguments args kwargs) :
      Derives sourceName .filter (first ++ pipe :: called ++ arguments)
        (.filter ⟨value.line, sourceName⟩ value name args kwargs)
  | sign {token : Token} {op : UnaryOp} {word : List Token} {operand : Expr}
      (isSign : UnaryOp.ofKind? token.kind = some op)
      (inner : Derives sourceName .unary word operand) :
      Derives sourceName .unary (token :: word) (.unary ⟨token.line, sourceName⟩ op operand)
  | attr {dot member : Token} {word : List Token} {value : Expr} {name : String}
      (before : Derives sourceName .suffix word value) (isDot : dot.kind = .dot)
      (isWord : member.word? = some name) :
      Derives sourceName .suffix (word ++ [dot, member])
        (.attr ⟨value.line, sourceName⟩ value name)
  | place {dot number : Token} {word : List Token} {value index : Expr}
      (before : Derives sourceName .suffix word value) (isDot : dot.kind = .dot)
      (isInteger : number.kind = .integer) (hasValue : SpellsLiteral sourceName [number] index) :
      Derives sourceName .suffix (word ++ [dot, number])
        (.item ⟨value.line, sourceName⟩ value index)
  | item {opening closing : Token} {word inside : List Token} {value index : Expr}
      (before : Derives sourceName .suffix word value) (opens : opening.kind = .lbracket)
      (closes : closing.kind = .rbracket) (inner : DerivesSubscript sourceName inside index) :
      Derives sourceName .suffix (word ++ opening :: inside ++ [closing])
        (.item ⟨value.line, sourceName⟩ value index)
  | call {word arguments : List Token} {callee : Expr} {args : List Expr}
      {kwargs : List (Named Expr)} (before : Derives sourceName .suffix word callee)
      (given : DerivesArguments sourceName arguments args kwargs) :
      Derives sourceName .suffix (word ++ arguments)
        (.call ⟨callee.line, sourceName⟩ callee args kwargs)
  | name {token : Token} (isName : token.kind = .name) :
      Derives sourceName .primary [token] (.name ⟨token.line, sourceName⟩ token.text)
  | literal {word : List Token} {expr : Expr} (isLiteral : SpellsLiteral sourceName word expr) :
      Derives sourceName .primary word expr
  | list {opening closing : Token} {pieces : List (List Token)} {body : List Token}
      {items : List Expr} (opens : opening.kind = .lbracket) (closes : closing.kind = .rbracket)
      (each : List.Forall₂ (Derives sourceName .conditional) pieces items)
      (separated : CommaList pieces body) :
      Derives sourceName .primary (opening :: body ++ [closing])
        (.list ⟨opening.line, sourceName⟩ items)
  | parenthesized {opening closing : Token} {word : List Token} {expr : Expr}
      (opens : opening.kind = .lparen) (closes : closing.kind = .rparen)
      (inner : Derives sourceName .conditional word expr) :
      Derives sourceName .primary (opening :: word ++ [closing]) expr

/-- A word of tokens spells a named argument. -/
inductive DerivesNamed (sourceName : Option String) : List Token → Named Expr → Prop where
  | named {key assign : Token} {word : List Token} {value : Expr} (isName : key.kind = .name)
      (assigns : assign.kind = .assign) (inner : Derives sourceName .conditional word value) :
      DerivesNamed sourceName (key :: assign :: word) ⟨key.text, value⟩

/-- A word of tokens spells arguments in parentheses, named ones after the others. -/
inductive DerivesArguments (sourceName : Option String) :
    List Token → List Expr → List (Named Expr) → Prop where
  | parenthesized {opening closing : Token} {pieces named : List (List Token)} {body : List Token}
      {args : List Expr} {kwargs : List (Named Expr)} (opens : opening.kind = .lparen)
      (closes : closing.kind = .rparen)
      (each : List.Forall₂ (Derives sourceName .conditional) pieces args)
      (eachNamed : List.Forall₂ (DerivesNamed sourceName) named kwargs)
      (separated : CommaList (pieces ++ named) body) :
      DerivesArguments sourceName (opening :: body ++ [closing]) args kwargs

/-- A word of tokens spells arguments that may be missing. -/
inductive DerivesGiven (sourceName : Option String) :
    List Token → List Expr → List (Named Expr) → Prop where
  | none : DerivesGiven sourceName [] [] []
  | some {word : List Token} {args : List Expr} {kwargs : List (Named Expr)}
      (inner : DerivesArguments sourceName word args kwargs) :
      DerivesGiven sourceName word args kwargs

/-- A word of tokens spells the arguments of a test; a single one may do without parentheses. -/
inductive DerivesTestArguments (sourceName : Option String) :
    List Token → List Expr → List (Named Expr) → Prop where
  | given {word : List Token} {args : List Expr} {kwargs : List (Named Expr)}
      (inner : DerivesGiven sourceName word args kwargs) :
      DerivesTestArguments sourceName word args kwargs
  | bare {token : Token} {word : List Token} {arg : Expr}
      (begins : beginsBareArgument token.kind = true)
      (inner : Derives sourceName .unary (token :: word) arg) :
      DerivesTestArguments sourceName (token :: word) [arg] []

/-- A word of tokens spells an expression that may be missing. -/
inductive DerivesOptional (sourceName : Option String) : List Token → Option Expr → Prop where
  | none : DerivesOptional sourceName [] none
  | some {word : List Token} {expr : Expr} (inner : Derives sourceName .conditional word expr) :
      DerivesOptional sourceName word (some expr)

/-- A word of tokens spells what follows the second part of a slice. -/
inductive DerivesStep (sourceName : Option String) : List Token → Option Expr → Prop where
  | none : DerivesStep sourceName [] none
  | some {colon : Token} {word : List Token} {step : Option Expr} (isColon : colon.kind = .colon)
      (inner : DerivesOptional sourceName word step) : DerivesStep sourceName (colon :: word) step

/-- A word of tokens spells what stands between the brackets of an item. -/
inductive DerivesSubscript (sourceName : Option String) : List Token → Expr → Prop where
  | index {word : List Token} {expr : Expr} (inner : Derives sourceName .conditional word expr) :
      DerivesSubscript sourceName word expr
  | slice {token colon : Token} {first second third : List Token} {start stop step : Option Expr}
      (firstPart : DerivesOptional sourceName first start) (isColon : colon.kind = .colon)
      (secondPart : DerivesOptional sourceName second stop)
      (thirdPart : DerivesStep sourceName third step)
      (begins : (first ++ [colon]).head? = some token) :
      DerivesSubscript sourceName (first ++ colon :: second ++ third)
        (.slice ⟨token.line, sourceName⟩ start stop step)

end

end Expr

end Stencil
